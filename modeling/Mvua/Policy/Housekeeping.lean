import Mvua.Policy.Lifecycle
import Mvua.Policy.Premiums
import Mvua.TriggerEngine.Lifecycle

namespace Mvua.Policy

/-- The policy contract with its pool, and the trigger engine; neither calls the other. -/
structure Joint (L : Type) where
  policies : World L
  triggerEngine : TriggerEngine.State

inductive JointAction where
  | policies (a : Action)
  | triggerEngine (c : TriggerEngine.Call)

/-- Transactions against the three contracts, in any order and at any ledger time. -/
def jointMachine {L : Type} (T : TokenHost L) (net : Network) :
    Machine (Joint L) (Env × JointAction) Failure where
  step w
    | (env,.policies a) =>
        (execute T net env w.policies a).map fun v => { w with policies := v }
    | (env,.triggerEngine c) =>
        (subcall TriggerEngine.Error.code (TriggerEngine.invoke (net.outside env)
          w.triggerEngine c)).map fun s => { w with triggerEngine := s }

def deployJoint {L : Type} (net : Network) (poolAdmin policyAdmin triggerAdmin : Address)
    (l : L) : Joint L where
  policies := deployWorld net poolAdmin policyAdmin l
  triggerEngine := TriggerEngine.deploy triggerAdmin

/-- The part of a transaction that the policy contract and its pool see. -/
def policyPart : Env × JointAction → Option (Env × Action)
  | (env,.policies a) => some (env,a)
  | (_,.triggerEngine _) => none

/-- A call that takes effect without the guardian's or the owner's authorization. -/
def Housekeeping (guardian owner : Address) (a : Env × JointAction) : Prop :=
  match a.2 with
  | .policies (.policy (.expire _)) => True
  | .triggerEngine (.evaluate _ _) => True
  | _ => guardian∉a.1.signers ∧ owner∉a.1.signers

/-- The same for the policy contract and its pool alone. -/
def Quiet (guardian owner : Address) (a : Env × Action) : Prop :=
  (∃ id, a.2=.policy (.expire id)) ∨ guardian∉a.1.signers ∧ owner∉a.1.signers

/-- The call that takes an active policy out of reach of a claim. -/
def Expires (id : Nat) (r : PolicyRecord) (a : Env × Action) : Prop :=
  a.2=.policy (.expire id) ∧ r.windowEnd≤a.1.timestamp

section Steps

variable {L : Type} {T : TokenHost L} {net : Network} {w w' : World L} {env : Env}
  {guardian : Address} {id : Nat} {r : PolicyRecord} {ids : List Nat}

theorem mem_outside {who : Address} (h : who∈(net.outside env).signers) : who∈env.signers :=
  (List.mem_filter.mp h).1

theorem mintOne_admin {rp owner payer : Address} {p z : Nat} {terms : PolicyTerms}
    {maxPremium : Int} {metadata : BytesN 32}
    (h : mintOne T net env rp w owner payer p z terms maxPremium metadata=.ok (id,w')) :
    w'.policy.admin=w.policy.admin := by
  obtain ⟨_,_,_,_,-,-,-,-,-,-,rfl⟩ := mintOne_ok h
  rfl

/-- No entry point replaces the guardian. -/
theorem Step.admin {a : Env × Action} (h : Step T net w a w') :
    w'.policy.admin=w.policy.admin := by
  cases h with
  | mint env buyer rp p z id terms maxPremium metadata _ h => exact mintOne_admin h
  | mintBatch env payer rp p z entries ids w1 h =>
    exact foldlM_invariant (fun r : List Nat × World L => r.2.policy.admin=w.policy.admin)
      (fun r entry r' hr h => by
        obtain ⟨id,-,hm⟩ := mintEntry_ok h
        exact (mintOne_admin hm).trans hr)
      entries _ (ids,w1) rfl h
  | cancel env id refunded _ h =>
    obtain ⟨_,_,_,-,-,-,-,-,rfl⟩ := cancel_ok h
    rfl
  | riskPool | move | metadata | transferable => rfl

theorem next_admin (a : Env × Action) :
    ((machine T net).next w a).policy.admin=w.policy.admin := by
  rcases (machine T net).next_cases w a with h | h
  · rw [h]
  · exact (execute_step T net h).admin

theorem run_admin (hg : w.policy.admin=some guardian) (calls : List (Env × Action)) :
    ((machine T net).run w calls).policy.admin=some guardian :=
  (machine T net).run_invariant (fun w => w.policy.admin=some guardian)
    (fun _ _ _ hg h => (execute_step T net h).admin.trans hg) calls w hg

/-- A call made without guardian and owner leaves an active certificate as it is, unless it
expires it. -/
theorem Step.quiet {a : Env × Action} (hi : Issued w ids) (hg : w.policy.admin=some guardian)
    (hr : w.policy.policy id=some r) (hq : Quiet guardian r.owner a) (he : ¬Expires id r a)
    (h : (machine T net).step w a=.ok w') : w'.policy.policy id=some r := by
  have hstep := execute_step T net h
  have same : ∀ {id' : Nat} {r₀ : PolicyRecord}, w.policy.policy id'=some r₀ → id'=id → r₀=r := by
    intro id' r₀ hr₀ hid
    rw [hid,hr,Option.some.injEq] at hr₀
    exact hr₀.symm
  have other : ∀ {id' : Nat} {v : PolicyRecord}, id'≠id →
      (w.policy.writePolicy id' v).policy id=some r :=
    fun hne => (Function.update_of_ne (Ne.symm hne) _ _).trans hr
  cases hstep with
  | riskPool | metadata | transferable => exact hr
  | mint env buyer rp p z id' terms maxPremium metadata _ hm =>
    exact (mintOne_issues hi hm).2.kept id r hr
  | mintBatch env payer rp p z entries ids' w1 hm =>
    exact (entries_issue hi hm).2.kept id r hr
  | cancel env id' refunded _ hc =>
    obtain ⟨r₀,s',l',hr₀,hsigned,-,-,-,rfl⟩ := cancel_ok hc
    apply other
    intro hid
    rw [same hr₀ hid] at hsigned
    rcases hq with ⟨_,heq⟩ | ⟨-,howner⟩
    · cases heq
    · exact howner (mem_outside hsigned)
  | move env c id' r₀ r' e hr₀ hm =>
    apply other
    intro hid
    have hsame := same hr₀ hid
    subst hsame hid
    have authorized : guardian∈env.signers ∨ r₀.owner∈env.signers →
        (∀ id, c≠.expire id) → False := by
      intro hsigned hc
      rcases hq with ⟨id,heq⟩ | ⟨hguardian,howner⟩
      · exact hc id (Action.policy.inj heq)
      · exact hsigned.elim hguardian howner
    have isGuardian : requireAdmin (net.outside env) w.policy=.ok () → guardian∈env.signers := by
      intro hadmin
      exact mem_outside ((requireStored_iff hg).mp hadmin)
    cases hm with
    | trigger admin active => exact authorized (.inl (isGuardian admin)) (by simp)
    | pay admin triggered => exact authorized (.inl (isGuardian admin)) (by simp)
    | expire ended active => exact he ⟨rfl,ended⟩
    | transfer dst signed allowed active =>
      exact authorized (.inr (mem_outside signed)) (by simp)

variable (T net) in
theorem Expires.step {a : Env × Action} (h : Expires id r a) (hr : w.policy.policy id=some r)
    (hactive : r.state=.active) : ∃ w', (machine T net).step w a=.ok w' ∧
      w'.policy.policy id=some { r with state := .expired } := by
  obtain ⟨env,a⟩ := a
  obtain ⟨rfl,htime⟩ := h
  have hnot : ¬(net.outside env).timestamp < r.windowEnd := not_lt.mpr htime
  refine ⟨⟨w.riskPool,(w.policy.writePolicy id { r with state := .expired }).publish
    (.policyStateChanged id .expired),w.ledger⟩,?_,Function.update_self _ _ _⟩
  simp [machine,execute,invoke,expire,transition,readPolicy,hr,okOr,failIf,hnot,hactive,subcall,
    Except.map]

end Steps

section Runs

variable {L : Type} {T : TokenHost L} {net : Network} {w : World L}
  {guardian : Address} {id : Nat} {r : PolicyRecord} {ids : List Nat}

variable (T net) in
/-- A run without guardian and owner leaves an active certificate as it is, unless a call of the
run expires it. -/
theorem run_quiet (calls : List (Env × Action)) (hi : Issued w ids)
    (hg : w.policy.admin=some guardian) (hr : w.policy.policy id=some r)
    (hactive : r.state=.active) (hq : ∀ a∈calls, Quiet guardian r.owner a) :
    let v := (machine T net).run w calls
    (∃ a∈calls, Expires id r a) ∧ v.policy.policy id=some { r with state := .expired } ∨
      (∀ a∈calls, ¬Expires id r a) ∧ v.policy.policy id=some r := by
  induction calls generalizing w ids with
  | nil => exact .inr ⟨by simp,hr⟩
  | cons a calls ih =>
    intro v
    obtain ⟨ha,hcalls⟩ := List.forall_mem_cons.mp hq
    have hissued : Issued ((machine T net).next w a) (ids++minted T net w a) :=
      (next_succeeds hi a).1
    by_cases he : Expires id r a
    · obtain ⟨w',hstep,hr'⟩ := he.step T net hr hactive
      rw [← (machine T net).next_of_ok hstep] at hr'
      obtain ⟨r'',hr'',hcontinues⟩ := run_continues T net hissued calls hr'
      have hsame := hcontinues.final (.inr (.inl rfl))
      subst hsame
      exact .inl ⟨⟨a,by simp,he⟩,hr''⟩
    · have hr' : ((machine T net).next w a).policy.policy id=some r := by
        rcases (machine T net).next_cases w a with hn | hn
        · rw [hn]
          exact hr
        · exact Step.quiet hi hg hr ha he hn
      rcases ih hissued ((next_admin a).trans hg) hr' hcalls with ⟨⟨b,hb,hbe⟩,hv⟩ | ⟨hnone,hv⟩
      · exact .inl ⟨⟨b,List.mem_cons_of_mem _ hb,hbe⟩,hv⟩
      · exact .inr ⟨List.forall_mem_cons.mpr ⟨he,hnone⟩,hv⟩

/-- The guardian may mark a policy as triggered and then as paid exactly while it is active. -/
theorem marks_iff {env env' : Env} (hg : w.policy.admin=some guardian)
    (hr : w.policy.policy id=some r) (hs : guardian∈(net.outside env).signers)
    (hs' : guardian∈(net.outside env').signers) :
    (∃ w₁ w₂, execute T net env w (.policy (.markTriggered id))=.ok w₁ ∧
      execute T net env' w₁ (.policy (.markPaid id))=.ok w₂) ↔ r.state=.active := by
  constructor
  · intro h
    obtain ⟨w₁,w₂,h₁,-⟩ := h
    simp only [execute,subcall_eq_ok,invoke,markTriggered,except_map_eq_ok,bind_eq_ok] at h₁
    obtain ⟨s₁,⟨-,-,ht⟩,-⟩ := h₁
    obtain ⟨r',hr',hactive,-⟩ := transition_ok ht
    rw [hr,Option.some.injEq] at hr'
    rw [hr']
    exact hactive
  · intro hactive
    let r₁ : PolicyRecord := { r with state := .triggered }
    let s₁ := (w.policy.writePolicy id r₁).publish (.policyStateChanged id .triggered)
    let s₂ := (s₁.writePolicy id { r₁ with state := .paid }).publish
      (.policyStateChanged id .paid)
    have hadmin : requireAdmin (net.outside env) w.policy=.ok () := (requireStored_iff hg).mpr hs
    have hg₁ : s₁.admin=some guardian := hg
    have hadmin' : requireAdmin (net.outside env') s₁=.ok () := (requireStored_iff hg₁).mpr hs'
    have hr₁ : s₁.policy id=some r₁ := Function.update_self _ _ _
    have htrigger : transition w.policy id .active .triggered=.ok s₁ := by
      simp [transition,readPolicy,hr,okOr,failIf,hactive,s₁,r₁,pure,Except.pure]
    have hpay : transition s₁ id .triggered .paid=.ok s₂ := by
      simp [transition,readPolicy,hr₁,okOr,failIf,r₁,s₂,pure,Except.pure]
    refine ⟨{ w with policy := s₁ },{ w with policy := s₂ },?_,?_⟩
    · simp only [execute,invoke,markTriggered,hadmin,ok_bind,htrigger]
      rfl
    · simp only [execute,invoke,markPaid,hadmin',ok_bind,hpay]
      rfl

end Runs

section Joint

variable {L : Type} (T : TokenHost L) (net : Network)

/-- What the policy contract and its pool see of a transaction. -/
theorem jointNext_policies (w : Joint L) (a : Env × JointAction) :
    ((jointMachine T net).next w a).policies=
      (machine T net).run w.policies ([a].filterMap policyPart) := by
  obtain ⟨env,a⟩ := a
  cases a with
  | policies a =>
    change _=(machine T net).next w.policies (env,a)
    cases h : execute T net env w.policies a with
    | ok v =>
      have hn : (machine T net).next w.policies (env,a)=v := (machine T net).next_of_ok h
      rw [hn]
      simp [jointMachine,Machine.next,h,Except.map]
    | error e =>
      have hn : (machine T net).next w.policies (env,a)=w.policies :=
        (machine T net).next_of_error h
      rw [hn]
      simp [jointMachine,Machine.next,h,Except.map]
  | triggerEngine c =>
    change _=w.policies
    cases h : subcall TriggerEngine.Error.code (TriggerEngine.invoke (net.outside env)
      w.triggerEngine c) with
    | ok s => simp [jointMachine,Machine.next,h,Except.map]
    | error e => simp [jointMachine,Machine.next,h,Except.map]

theorem jointRun_policies (w : Joint L) (calls : List (Env × JointAction)) :
    ((jointMachine T net).run w calls).policies=
      (machine T net).run w.policies (calls.filterMap policyPart) := by
  induction calls generalizing w with
  | nil => rfl
  | cons a calls ih =>
    have hsplit : (a::calls).filterMap policyPart=
        [a].filterMap policyPart++calls.filterMap policyPart := by
      rw [← List.filterMap_append,List.singleton_append]
    rw [Machine.run_cons,ih,jointNext_policies,hsplit,Machine.run_append]

theorem Housekeeping.quiet {guardian owner : Address} {a : Env × JointAction}
    {b : Env × Action} (h : Housekeeping guardian owner a) (hb : policyPart a=some b) :
    Quiet guardian owner b := by
  obtain ⟨env,a⟩ := a
  cases a with
  | triggerEngine c => cases hb
  | policies a =>
    rw [policyPart,Option.some.injEq] at hb
    subst hb
    cases a with
    | riskPool c => exact .inr h
    | policy c =>
      cases c with
      | expire id => exact .inl ⟨id,rfl⟩
      | _ => exact .inr h

/-- No policy call expires the certificate exactly when no joint call does after its window. -/
theorem none_expires_iff (calls : List (Env × JointAction)) (id : Nat) (r : PolicyRecord) :
    (∀ b∈calls.filterMap policyPart, ¬Expires id r b) ↔
      ∀ a∈calls, a.2=.policies (.policy (.expire id)) → a.1.timestamp < r.windowEnd := by
  constructor
  · intro hnone a ha hexpire
    by_contra hlate
    have hpart : policyPart a=some (a.1,.policy (.expire id)) := by
      obtain ⟨env,a⟩ := a
      subst hexpire
      rfl
    exact hnone _ (List.mem_filterMap.mpr ⟨a,ha,hpart⟩) ⟨rfl,not_lt.mp hlate⟩
  · intro hearly b hb he
    obtain ⟨a,ha,hab⟩ := List.mem_filterMap.mp hb
    obtain ⟨env,a⟩ := a
    cases a with
    | triggerEngine c => cases hab
    | policies a =>
      rw [policyPart,Option.some.injEq] at hab
      subst hab
      exact absurd (hearly _ ha (congrArg JointAction.policies he.1)) (not_lt.mpr he.2)

theorem joint_marks (v : Joint L) (env env' : Env) (id : Nat) :
    (∃ v₁ v₂, (jointMachine T net).step v (env,.policies (.policy (.markTriggered id)))=.ok v₁ ∧
      (jointMachine T net).step v₁ (env',.policies (.policy (.markPaid id)))=.ok v₂) ↔
    ∃ w₁ w₂, execute T net env v.policies (.policy (.markTriggered id))=.ok w₁ ∧
      execute T net env' w₁ (.policy (.markPaid id))=.ok w₂ := by
  simp only [jointMachine,except_map_eq_ok]
  constructor
  · intro h
    obtain ⟨_,_,⟨w₁,h₁,rfl⟩,w₂,h₂,-⟩ := h
    exact ⟨w₁,w₂,h₁,h₂⟩
  · intro h
    obtain ⟨w₁,w₂,h₁,h₂⟩ := h
    exact ⟨_,_,⟨w₁,h₁,rfl⟩,w₂,h₂,rfl⟩

/-- In every reachable state of the policy contract, its pool and the trigger engine, and after
every interleaving of calls without guardian and owner, the guardian can mark an active policy as
triggered and then as paid exactly if none of these calls expired it at or after the end of its
coverage window. -/
theorem claim_survives_iff (poolAdmin policyAdmin triggerAdmin : Address) (l : L)
    (history : List (Env × JointAction)) (id : Nat) (r : PolicyRecord)
    (between : List (Env × JointAction)) (env env' : Env) :
    let M := jointMachine T net
    let w := M.run (deployJoint net poolAdmin policyAdmin triggerAdmin l) history
    let v := M.run w between
    w.policies.policy.policy id=some r → r.state=.active →
    (∀ a∈between, Housekeeping policyAdmin r.owner a) →
    policyAdmin∈(net.outside env).signers → policyAdmin∈(net.outside env').signers →
    ((∃ v₁ v₂, M.step v (env,.policies (.policy (.markTriggered id)))=.ok v₁ ∧
        M.step v₁ (env',.policies (.policy (.markPaid id)))=.ok v₂) ↔
      ∀ a∈between, a.2=.policies (.policy (.expire id)) → a.1.timestamp < r.windowEnd) := by
  intro M w v hr hactive hquiet hs hs'
  have hw : w.policies=(machine T net).run (deployWorld net poolAdmin policyAdmin l)
      (history.filterMap policyPart) := jointRun_policies T net _ history
  have hi : Issued w.policies ((machine T net).log (minted T net)
      (deployWorld net poolAdmin policyAdmin l) (history.filterMap policyPart)) := by
    rw [hw]
    exact (machine T net).run_log Issued (minted T net)
      (fun w a ids hi => (next_succeeds hi a).1) _ _ []
      (deployWorld_issued net poolAdmin policyAdmin l)
  have hg : w.policies.policy.admin=some policyAdmin := by
    rw [hw]
    exact run_admin rfl _
  have hv : v.policies=(machine T net).run w.policies (between.filterMap policyPart) :=
    jointRun_policies T net w between
  have hgv : v.policies.policy.admin=some policyAdmin := by
    rw [hv]
    exact run_admin hg _
  have hq : ∀ b∈between.filterMap policyPart, Quiet policyAdmin r.owner b := by
    intro b hb
    obtain ⟨a,ha,hab⟩ := List.mem_filterMap.mp hb
    exact (hquiet a ha).quiet hab
  rw [← none_expires_iff,joint_marks]
  have hrun := run_quiet T net (between.filterMap policyPart) hi hg hr hactive hq
  dsimp only at hrun
  rw [← hv] at hrun
  rcases hrun with ⟨hsome,hr'⟩ | ⟨hnone,hr'⟩
  · rw [marks_iff hgv hr' hs hs']
    apply iff_of_false
    · simp
    · intro hnone
      obtain ⟨b,hb,he⟩ := hsome
      exact hnone b hb he
  · rw [marks_iff hgv hr' hs hs']
    exact iff_of_true hactive hnone

end Joint

section Sample

/-- A policy on the index of a dry spell, whose window is final when the policy has run out. -/
def droughtPolicy : List (Env × JointAction) :=
  [(RiskPool.plainEnv,.policies (.riskPool (.createPool feeConfig))),
    (RiskPool.plainEnv,.policies (.riskPool (.openSeason 1))),
    (RiskPool.plainEnv,.policies (.policy (.mint ⟨3⟩ 1 1 laterTerms 100 0)))]++
  TriggerEngine.drySpell.map fun a => (a.1,.triggerEngine a.2)

def droughtWorld : Joint (Address → Address → Int) :=
  (jointMachine TokenHost.ledger plainNet).run
    (deployJoint plainNet ⟨0⟩ ⟨0⟩ ⟨0⟩ RiskPool.plainFunds) droughtPolicy

/-- Anybody may expire the policy before the guardian acts; then the guardian is refused. -/
theorem expire_defeats_claim :
    let M := jointMachine TokenHost.ledger plainNet
    let v := M.next droughtWorld (⟨90000,[]⟩,.policies (.policy (.expire 1)))
    (droughtWorld.policies.policy.policy 1).map (fun r => (r.state,r.indexRef))=
      some (.active,0) ∧
    TriggerEngine.readState droughtWorld.triggerEngine 0 7=.finalized 86500 10000 ∧
    (M.step v (⟨90000,[⟨0⟩]⟩,.policies (.policy (.markTriggered 1)))).map
      (fun v => v.policies.policy.policy 1)=.error (.contract Error.invalidState.code) := by
  decide +kernel

/-- Calls that come too early to expire the policy do no harm. -/
theorem claim_survives_early :
    let M := jointMachine TokenHost.ledger plainNet
    let v := M.run droughtWorld [(⟨2999,[]⟩,.policies (.policy (.expire 1))),
      (⟨90000,[]⟩,.triggerEngine (.evaluate 0 7))]
    ∃ v₁ v₂, M.step v (⟨90000,[⟨0⟩]⟩,.policies (.policy (.markTriggered 1)))=.ok v₁ ∧
      M.step v₁ (⟨90001,[⟨0⟩]⟩,.policies (.policy (.markPaid 1)))=.ok v₂ := by
  intro M v
  have hr : droughtWorld.policies.policy.policy 1=some (laterTerms.record ⟨3⟩ 1 1 100 90) := by
    decide +kernel
  have h := claim_survives_iff TokenHost.ledger plainNet ⟨0⟩ ⟨0⟩ ⟨0⟩ RiskPool.plainFunds
    droughtPolicy 1 _ [(⟨2999,[]⟩,.policies (.policy (.expire 1))),
      (⟨90000,[]⟩,.triggerEngine (.evaluate 0 7))] ⟨90000,[⟨0⟩]⟩ ⟨90001,[⟨0⟩]⟩ hr rfl
    (by simp [Housekeeping]) (by decide) (by decide)
  apply h.mpr
  simp [laterTerms,PolicyTerms.record]

end Sample

end Mvua.Policy
