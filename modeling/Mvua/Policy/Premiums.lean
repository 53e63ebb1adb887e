import Mvua.Policy.World
import Mvua.RiskPool.Reconciliation

namespace Mvua.Policy

/-- What a certificate keeps reserved in a season, unless it is cancelled. -/
def PolicyRecord.reservedIn (k : Nat × Nat) (r : PolicyRecord) : Int :=
  if (r.poolId,r.seasonId)=k ∧ r.state≠.cancelled then r.netReserved else 0

/-- What a certificate has got back. -/
def PolicyRecord.refund (r : PolicyRecord) : Int :=
  if r.state=.cancelled then r.netReserved else 0

def reserved (s : State) (k : Nat × Nat) (id : Nat) : Int :=
  ((s.policy id).map (PolicyRecord.reservedIn k)).getD 0

def refundDue (s : State) (id : Nat) : Int := ((s.policy id).map PolicyRecord.refund).getD 0

/-- Premiums that the pool collects without a certificate, and refunds. -/
inductive Cashflow where
  | direct (poolId seasonId : Nat) (amount : Int)
  | refund (policyId : Nat) (amount : Int)

def Cashflow.directAt (k : Nat × Nat) : Cashflow → Int
  | .direct p z amount => if k=(p,z) then amount else 0
  | .refund _ _ => 0

def Cashflow.refundOf (id : Nat) : Cashflow → Int
  | .direct _ _ _ => 0
  | .refund policyId amount => if policyId=id then amount else 0

/-- The net premiums of a season from direct calls. -/
def directIn (k : Nat × Nat) (log : List Cashflow) : Int := (log.map (Cashflow.directAt k)).sum

/-- The total refunded for a policy. -/
def refundedTo (id : Nat) (log : List Cashflow) : Int := (log.map (Cashflow.refundOf id)).sum

@[simp] theorem directIn_append (k : Nat × Nat) (log more : List Cashflow) :
    directIn k (log++more)=directIn k log+directIn k more := by
  simp [directIn]

@[simp] theorem refundedTo_append (id : Nat) (log more : List Cashflow) :
    refundedTo id (log++more)=refundedTo id log+refundedTo id more := by
  simp [refundedTo]

section Flows

variable {L : Type} (T : TokenHost L) (net : Network)

def cashflows (w : World L) : Env × Action → List Cashflow
  | (env,.riskPool (.collectPremium p z src amount)) =>
      match RiskPool.collectPremium T net.riskPool (net.outside env) w.riskPool w.ledger p z src
        amount with
      | .ok (m,_,_) => [.direct p z m]
      | .error _ => []
  | (env,.policy (.cancel id)) =>
      match cancel T net (net.outside env) w id with
      | .ok (refunded,_) => [.refund id refunded]
      | .error _ => []
  | _ => []

/-- The transaction does not configure another policy contract. -/
def OnlyPolicy (w : World L) (a : Env × Action) : Prop :=
  ∀ policy w', a.2=.riskPool (.setPolicyContract policy) → (machine T net).step w a=.ok w' →
    policy=net.policy

end Flows

/-- The policy contract, if any, is what the pool has configured. -/
def OwnPolicy (net : Network) (s : RiskPool.State) : Prop :=
  ∀ policy, s.policyContract=some policy → policy=net.policy

theorem OwnPolicy.congr {net : Network} {s s' : RiskPool.State} (h : OwnPolicy net s)
    (he : s'.policyContract=s.policyContract) : OwnPolicy net s' := by
  intro policy hpolicy
  exact h policy (he.symm.trans hpolicy)

/-- The invariant of a run: premiums are what certificates reserve and what was collected
directly, and refunds are those of the cancelled certificates. -/
structure Accounted {L : Type} (net : Network) (w : World L) (log : List Cashflow) : Prop where
  sound : w.Sound net
  own : OwnPolicy net w.riskPool
  direct : ∀ k, 0≤directIn k log
  premiums : ∀ k, HasTotal (reserved w.policy k) (w.riskPool.premiumsIn k-directIn k log)
  refunds : ∀ id, refundedTo id log=refundDue w.policy id

section Steps

variable {L : Type} {T : TokenHost L} {net : Network} {env : Env} {w w' : World L}
  {log : List Cashflow}

/-- Nobody but the policy contract draws refunds from the pool. -/
theorem refundPremium_outside {s s' : RiskPool.State} {l l' : L} {self dst : Address} {p z : Nat}
    {amount m : Int} (ho : OwnPolicy net s) :
    RiskPool.refundPremium T self (net.outside env) s l p z dst amount≠.ok (m,s',l') := by
  intro h
  obtain ⟨_,_,_,-,-,-,hauth,-⟩ := RiskPool.refundPremium_ok h
  obtain ⟨policy,hpolicy,hsigned⟩ := requireStored_eq_ok.mp hauth
  rw [ho policy hpolicy] at hsigned
  exact (signer_outside hsigned).2 rfl

/-- A pool call from outside moves the premiums by what it collects directly. -/
theorem riskPool_premiumsIn {s' : RiskPool.State} {l' : L} {c : RiskPool.Call}
    (hw : w.riskPool.WellFormed) (ho : OwnPolicy net w.riskPool)
    (h : RiskPool.invoke T net.riskPool (net.outside env) c w.riskPool w.ledger=.ok (s',l'))
    (k : Nat × Nat) :
    let n := directIn k (cashflows T net w (env,.riskPool c))
    0≤n ∧ s'.premiumsIn k=w.riskPool.premiumsIn k+n := by
  intro n
  have hstep : (RiskPool.machine T net.riskPool).step (w.riskPool,w.ledger)
      (.call (net.outside env) c)=.ok (s',l') := h
  by_cases hc : ∃ p z src amount, c=.collectPremium p z src amount
  · obtain ⟨p,z,src,amount,rfl⟩ := hc
    cases RiskPool.invoke_ran h with
    | collectPremium _ _ _ _ m hu =>
      obtain ⟨pf,qf,hm,hp⟩ := RiskPool.collectPremium_posts hu
      have hn : n=if k=(p,z) then m else 0 := by
        simp only [n,cashflows,hu,directIn,List.map_singleton,List.sum_singleton,
          Cashflow.directAt]
      have hnet := (RiskPool.collectPremium_net hw hu).1
      refine ⟨by rw [hn]; split_ifs <;> omega,?_⟩
      rw [hp.premiumsIn hw,hn,RiskPool.Entry.premiumAt,← ite_and,hm]
      simp only [Prod.ext_iff]
  · have hnone : n=0 := by
      have hnil : cashflows T net w (env,.riskPool c)=[] := by
        cases c with
        | collectPremium p z src amount => exact absurd ⟨p,z,src,amount,rfl⟩ hc
        | _ => rfl
      simp only [n,hnil,directIn,List.map_nil,List.sum_nil]
    rw [hnone]
    refine ⟨le_rfl,?_⟩
    rw [add_zero]
    rcases RiskPool.step_cases T net.riskPool hw hstep with ⟨hk,-⟩ | ⟨p,e,hm,hp⟩
    · rw [RiskPool.State.premiumsIn,RiskPool.State.premiumsIn,hk.book]
    · rw [hp.premiumsIn hw]
      cases hm with
      | premium p z src amount pf qf => exact absurd ⟨_,_,_,_,rfl⟩ hc
      | refund =>
        cases RiskPool.invoke_ran h with
        | refundPremium _ _ _ _ m hu => exact absurd hu (refundPremium_outside ho)
      | _ => simp [RiskPool.Entry.premiumAt]

/-- A purchase reserves in the season what it adds to the premiums. -/
theorem mintOne_accounted {rp owner payer : Address} {p z id : Nat} {terms : PolicyTerms}
    {maxPremium : Int} {metadata : BytesN 32} (ha : Accounted net w log)
    (h : mintOne T net env rp w owner payer p z terms maxPremium metadata=.ok (id,w')) :
    Accounted net w' log := by
  have hsound := mintOne_sound ha.sound h
  have hfresh := ha.sound.fresh
  obtain ⟨premium,m,s',l',-,-,-,-,hcollect,rfl,rfl⟩ := mintOne_ok h
  obtain ⟨pf,qf,hm,hp⟩ := RiskPool.collectPremium_posts hcollect
  let id := w.policy.policyCounter.getD 0+1
  let r := terms.record owner p z premium m
  refine ⟨hsound,?_,ha.direct,fun k => ?_,fun j => ?_⟩
  · obtain ⟨_,_,_,_,_,_,-,-,-,-,-,-,-,-,-,-,-,hs'⟩ := RiskPool.collectPremium_ok hcollect
    apply ha.own.congr
    simp [hs',RiskPool.State.publish,RiskPool.State.writeSolvency,RiskPool.State.writeSeason,
      RiskPool.State.writeTreasury]
  · have ht := (ha.premiums k).record id r
    have hr : r.reservedIn k=if (p,z)=k then m else 0 := by
      simp [r,PolicyRecord.reservedIn,PolicyTerms.record]
    have hmoved : s'.premiumsIn k=w.riskPool.premiumsIn k+if (p,z)=k then m else 0 := by
      rw [hp.premiumsIn ha.sound.pools,RiskPool.Entry.premiumAt,← ite_and,← hm]
      simp only [Prod.ext_iff,eq_comm]
    rw [hfresh,hr] at ht
    simp only [Option.map_none,Option.getD_none,sub_zero] at ht
    change HasTotal (reserved (w.policy.issue id r metadata) k) (s'.premiumsIn k-directIn k log)
    rw [show s'.premiumsIn k-directIn k log=
      w.riskPool.premiumsIn k-directIn k log+if (p,z)=k then m else 0 by omega]
    exact ht
  · rw [ha.refunds,refundDue,refundDue,State.issue_policy]
    split_ifs with hj
    · rw [hj,hfresh]
      simp [PolicyRecord.refund,PolicyTerms.record]
    · rfl

/-- Neither the reserves nor the refunds of a certificate depend on its owner, or on its state
as long as it is not cancelled. -/
theorem Move.figures {s : State} {id : Nat} {r r' : PolicyRecord} {c : Call}
    (h : Move env s id r c r') (k : Nat × Nat) :
    r'.reservedIn k=r.reservedIn k ∧ r'.refund=r.refund := by
  cases h with
  | trigger _ hst | pay _ hst | expire _ hst | transfer _ _ _ hst =>
    simp [PolicyRecord.reservedIn,PolicyRecord.refund,hst]

theorem move_accounted {id : Nat} {r r' : PolicyRecord} {c : Call} {e : Event}
    (ha : Accounted net w log) (hr : w.policy.policy id=some r)
    (h : Move env w.policy id r c r') :
    Accounted net { w with policy := (w.policy.writePolicy id r').publish e } log := by
  have hfigures := h.figures
  refine ⟨ha.sound.rewrite ha.sound.pools hr (h.proper (ha.sound.proper id r hr)),ha.own,ha.direct,
    fun k => ?_,fun j => ?_⟩
  · have ht := (ha.premiums k).record id r'
    rw [hr,Option.map_some,Option.getD_some,(hfigures k).1,sub_add_cancel] at ht
    exact ht
  · rw [ha.refunds,refundDue,refundDue,State.rewritten_policy]
    split_ifs with hj
    · subst hj
      simp [hr,(hfigures (0,0)).2]
    · rfl

/-- A cancellation takes from the premiums what the certificate reserved, and refunds it. -/
theorem cancel_accounted {id : Nat} {refunded : Int} (ha : Accounted net w log)
    (h : cancel T net env w id=.ok (refunded,w')) :
    Accounted net w' (log++[.refund id refunded]) := by
  obtain ⟨r,s',l',hr,-,hactive,-,hrefund,rfl⟩ := cancel_ok h
  have hp := RiskPool.refundPremium_posts hrefund
  have hproper := ha.sound.proper id r hr
  obtain ⟨_,_,_,-,-,-,-,hn,-,-,-,-,-,-,hs'⟩ := RiskPool.refundPremium_ok hrefund
  have hdirect : ∀ k, directIn k (log++[.refund id refunded])=directIn k log := by
    intro k
    rw [directIn_append]
    simp [directIn,Cashflow.directAt]
  refine ⟨ha.sound.rewrite (hp.wellFormed ha.sound.pools) hr
      ⟨hproper.coverage,hproper.window,hproper.nonneg,hproper.net⟩,?_,?_,fun k => ?_,fun j => ?_⟩
  · apply ha.own.congr
    simp [hs',RiskPool.State.publish,RiskPool.State.writeSolvency,RiskPool.State.writeSeason]
  · intro k
    rw [hdirect]
    exact ha.direct k
  · have ht := (ha.premiums k).record id { r with state := .cancelled }
    have hfreed : PolicyRecord.reservedIn k { r with state := .cancelled }=0 := by
      simp [PolicyRecord.reservedIn]
    have hmoved : s'.premiumsIn k=w.riskPool.premiumsIn k-r.reservedIn k := by
      rw [hp.premiumsIn ha.sound.pools,RiskPool.Entry.premiumAt,← ite_and]
      by_cases hk : (r.poolId,r.seasonId)=k
      · subst hk
        simp [PolicyRecord.reservedIn,hactive,sub_eq_add_neg]
      · have hne : ¬(k.1=r.poolId ∧ k.2=r.seasonId) := fun he =>
          hk (Prod.ext he.1.symm he.2.symm)
        simp [PolicyRecord.reservedIn,hk,hne]
    rw [hr,Option.map_some,Option.getD_some,hfreed,add_zero] at ht
    rw [hdirect,hmoved,sub_right_comm]
    exact ht
  · rw [refundedTo_append,ha.refunds,refundDue,refundDue,State.rewritten_policy]
    simp only [refundedTo,List.map_singleton,List.sum_singleton,Cashflow.refundOf]
    by_cases hj : j=id
    · subst hj
      simp [hr,PolicyRecord.refund,hactive,hn]
    · rw [if_neg hj,if_neg (Ne.symm hj),add_zero]

/-- A transaction that fails moves no money. -/
theorem cashflows_of_error {a : Env × Action} {e : Failure}
    (h : (machine T net).step w a=.error e) : cashflows T net w a=[] := by
  unfold cashflows
  split
  · next env p z src amount =>
    cases hc : RiskPool.collectPremium T net.riskPool (net.outside env) w.riskPool w.ledger p z
        src amount with
    | error e => rfl
    | ok r => simp [machine,execute,RiskPool.invoke,hc,subcall,Except.map] at h
  · next env id =>
    cases hc : cancel T net (net.outside env) w id with
    | error e => rfl
    | ok r => simp [machine,execute,invoke,hc,subcall,Except.map] at h
  · rfl

/-- Calls of the pool refund nobody. -/
theorem riskPool_refunds (c : RiskPool.Call) (id : Nat) :
    refundedTo id (cashflows T net w (env,.riskPool c))=0 := by
  unfold cashflows
  split
  · split <;> simp [refundedTo,Cashflow.refundOf]
  · next he => cases he
  · rfl

/-- The premiums move with what a pool call collects directly. -/
theorem riskPool_accounted {s' : RiskPool.State} {l' : L} {c : RiskPool.Call}
    (ha : Accounted net w log) (ho : OnlyPolicy T net w (env,.riskPool c))
    (h : RiskPool.invoke T net.riskPool (net.outside env) c w.riskPool w.ledger=.ok (s',l'))
    (hsound : World.Sound net { w with riskPool := s', ledger := l' }) :
    Accounted net { w with riskPool := s', ledger := l' }
      (log++cashflows T net w (env,.riskPool c)) := by
  have hflow := riskPool_premiumsIn ha.sound.pools ha.own h
  refine ⟨hsound,?_,fun k => ?_,fun k => ?_,fun j => ?_⟩
  · intro policy hpolicy
    rcases (RiskPool.invoke_configured h).1 with he | ⟨policy',hcall,he⟩
    · exact ha.own policy (he.symm.trans hpolicy)
    · rw [he,Option.some.injEq] at hpolicy
      subst hcall hpolicy
      apply ho policy' { w with riskPool := s', ledger := l' } rfl
      simp [machine,execute,h,subcall,Except.map]
  · have hdirect := ha.direct k
    have hadded := (hflow k).1
    rw [directIn_append]
    omega
  · rw [directIn_append]
    change HasTotal _ (s'.premiumsIn k-_)
    rw [(hflow k).2,add_sub_add_right_eq_sub]
    exact ha.premiums k
  · rw [refundedTo_append,riskPool_refunds,add_zero]
    exact ha.refunds j

/-- The policies of a batch are accounted for one by one. -/
theorem entries_accounted {rp payer : Address} {p z : Nat} {entries : List BatchEntry}
    {ids : List Nat} (ha : Accounted net w log)
    (h : entries.foldlM (mintEntry T net env rp payer p z) ([],w)=.ok (ids,w')) :
    Accounted net w' log := by
  apply foldlM_invariant (fun r : List Nat × World L => Accounted net r.2 log) ?_ entries ([],w)
    (ids,w') ha h
  intro r entry r' hr hround
  obtain ⟨id,-,hone⟩ := mintEntry_ok hround
  exact mintOne_accounted hr hone

theorem next_accounted {a : Env × Action} (ha : Accounted net w log)
    (ho : OnlyPolicy T net w a) :
    Accounted net ((machine T net).next w a) (log++cashflows T net w a) := by
  obtain ⟨env,a⟩ := a
  cases h : (machine T net).step w (env,a) with
  | error e =>
    rw [(machine T net).next_of_error h]
    rw [cashflows_of_error h,List.append_nil]
    exact ha
  | ok w' =>
    rw [(machine T net).next_of_ok h]
    have hstep := execute_step T net h
    have hsound := hstep.sound ha.sound
    cases hstep with
    | riskPool _ c s' l' hc => exact riskPool_accounted ha ho hc hsound
    | mint _ buyer rp p z id terms maxPremium metadata _ hm =>
      rw [show cashflows T net w (env,.policy (.mint buyer p z terms maxPremium metadata))=[] from
        rfl,List.append_nil]
      exact mintOne_accounted ha hm
    | mintBatch _ payer rp p z entries ids w1 hm =>
      rw [show cashflows T net w (env,.policy (.mintBatch payer p z entries))=[] from rfl,
        List.append_nil]
      have hend := entries_accounted ha hm
      exact ⟨hsound,hend.own,hend.direct,hend.premiums,hend.refunds⟩
    | cancel _ id refunded _ hc =>
      rw [show cashflows T net w (env,.policy (.cancel id))=[.refund id refunded] by
        simp [cashflows,hc]]
      exact cancel_accounted ha hc
    | move _ c id r r' e hr hm =>
      have hnil : cashflows T net w (env,.policy c)=[] := by
        cases hm <;> rfl
      rw [hnil,List.append_nil]
      exact move_accounted ha hr hm
    | metadata _ id pointer =>
      rw [show cashflows T net w (env,.policy (.setMetadata id pointer))=[] from rfl,
        List.append_nil]
      exact ⟨hsound,ha.own,ha.direct,ha.premiums,ha.refunds⟩
    | transferable _ p allowed =>
      rw [show cashflows T net w (env,.policy (.setTransferable p allowed))=[] from rfl,
        List.append_nil]
      exact ⟨hsound,ha.own,ha.direct,ha.premiums,ha.refunds⟩

end Steps

section Runs

variable {L : Type} (T : TokenHost L) (net : Network)

theorem deployWorld_accounted (poolAdmin policyAdmin : Address) (l : L) :
    Accounted net (deployWorld net poolAdmin policyAdmin l) [] where
  sound := deployWorld_sound ..
  own _ h := by simp [deployWorld,RiskPool.deploy] at h
  direct _ := le_rfl
  premiums _ := HasTotal.zero
  refunds _ := rfl

end Runs

section Sample

def plainNet : Network := ⟨⟨10⟩,⟨20⟩⟩

def plainWorld : World (Address → Address → Int) :=
  deployWorld plainNet ⟨0⟩ ⟨0⟩ RiskPool.plainFunds

/-- A rate of a tenth, and a protocol fee of a tenth of it, up to 15 in all. -/
def feeConfig : RiskPool.PoolConfig := ⟨⟨9⟩,[⟨1⟩],100,⟨1000,0⟩,⟨0,0⟩,⟨1000,0,15,0⟩,true⟩

def laterTerms : PolicyTerms := ⟨⟨1⟩,1000,0,2000,3000,0⟩

end Sample

end Mvua.Policy
