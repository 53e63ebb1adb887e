import Mvua.Policy.Contract
import Mvua.RiskPool.Seasons

namespace Mvua.Policy

/-- The certificate that a purchase writes. -/
def PolicyTerms.record (terms : PolicyTerms) (owner : Address) (poolId seasonId : Nat)
    (premiumPaid netReserved : Int) : PolicyRecord where
  owner := owner
  poolId := poolId
  seasonId := seasonId
  region := terms.region
  coverage := terms.coverage
  indexRef := terms.indexRef
  windowStart := terms.windowStart
  windowEnd := terms.windowEnd
  severityCurve := terms.severityCurve
  premiumPaid := premiumPaid
  netReserved := netReserved
  state := .active

/-- The storage after a certificate was issued. -/
def State.issue (s : State) (id : Nat) (r : PolicyRecord) (metadata : BytesN 32) : State :=
  (({ s with policyCounter := some id }.writePolicy id r).writeMetaPointer id metadata).publish
    (.policyMinted id r.owner r.poolId r.seasonId r.coverage r.premiumPaid)

/-- What a call does to the certificate `id`, apart from its cancellation. -/
inductive Move (env : Env) (s : State) (id : Nat) (r : PolicyRecord) :
    Call → PolicyRecord → Prop where
  | trigger (admin : requireAdmin env s=.ok ()) (active : r.state=.active) :
      Move env s id r (.markTriggered id) { r with state := .triggered }
  | pay (admin : requireAdmin env s=.ok ()) (triggered : r.state=.triggered) :
      Move env s id r (.markPaid id) { r with state := .paid }
  | expire (ended : r.windowEnd≤env.timestamp) (active : r.state=.active) :
      Move env s id r (.expire id) { r with state := .expired }
  | transfer (dst : Address) (signed : r.owner∈env.signers)
      (allowed : readTransferable s r.poolId=true) (active : r.state=.active) :
      Move env s id r (.transfer id dst) { r with owner := dst }

/-- What every certificate satisfies from its purchase on. -/
structure PolicyRecord.Proper (r : PolicyRecord) : Prop where
  coverage : 0 < r.coverage
  window : r.windowStart < r.windowEnd
  nonneg : 0 ≤ r.netReserved
  net : r.netReserved ≤ r.premiumPaid

/-- The invariant of the two contracts together. -/
structure World.Sound {L : Type} (net : Network) (w : World L) : Prop where
  pools : w.riskPool.WellFormed
  poolRef : w.policy.riskPool=some net.riskPool
  ids : ∀ id r, w.policy.policy id=some r → id≤w.policy.policyCounter.getD 0
  proper : ∀ id r, w.policy.policy id=some r → r.Proper

section Steps

variable {L : Type} {T : TokenHost L} {net : Network} {env : Env}

/-- No contract signs for itself from outside. -/
theorem signer_outside {a : Address} (h : a∈(net.outside env).signers) :
    a≠net.riskPool ∧ a≠net.policy := by
  simp only [Network.outside,List.mem_filter,decide_eq_true_eq] at h
  exact h.2

theorem callPremiumFor_ok {rp : Address} {w : World L} {p : Nat} {coverage premium : Int}
    (h : callPremiumFor net rp w p coverage=.ok premium) :
    RiskPool.premiumFor w.riskPool p coverage=.ok premium := by
  unfold callPremiumFor at h
  split_ifs at h
  exact (subcall_eq_ok _ _ _).mp h

theorem callCollectPremium_ok {rp src : Address} {w w' : World L} {p z : Nat} {n m : Int}
    (h : callCollectPremium T net env rp w p z src n=.ok (m,w')) :
    ∃ s' l', w'={ w with riskPool := s', ledger := l' } ∧
      RiskPool.collectPremium T net.riskPool (env.invokedBy net.policy) w.riskPool w.ledger p z src
        n=.ok (m,s',l') := by
  unfold callCollectPremium at h
  split_ifs at h
  simp only [except_map_eq_ok,subcall_eq_ok,Prod.exists,Prod.mk.injEq] at h
  obtain ⟨_,s',l',hc,rfl,rfl⟩ := h
  exact ⟨s',l',rfl,hc⟩

theorem callRefundPremium_ok {rp dst : Address} {w w' : World L} {p z : Nat} {n m : Int}
    (h : callRefundPremium T net env rp w p z dst n=.ok (m,w')) :
    ∃ s' l', w'={ w with riskPool := s', ledger := l' } ∧
      RiskPool.refundPremium T net.riskPool (env.invokedBy net.policy) w.riskPool w.ledger p z dst
        n=.ok (m,s',l') := by
  unfold callRefundPremium at h
  split_ifs at h
  simp only [except_map_eq_ok,subcall_eq_ok,Prod.exists,Prod.mk.injEq] at h
  obtain ⟨_,s',l',hc,rfl,rfl⟩ := h
  exact ⟨s',l',rfl,hc⟩

/-- A purchase collects the quoted premium and issues the next certificate. -/
theorem mintOne_ok {rp owner payer : Address} {w w' : World L} {p z id : Nat}
    {terms : PolicyTerms} {maxPremium : Int} {metadata : BytesN 32}
    (h : mintOne T net env rp w owner payer p z terms maxPremium metadata=.ok (id,w')) :
    ∃ premium m s' l', 0<terms.coverage ∧ terms.windowStart<terms.windowEnd ∧
      RiskPool.premiumFor w.riskPool p terms.coverage=.ok premium ∧ premium ≤ maxPremium ∧
      RiskPool.collectPremium T net.riskPool (env.invokedBy net.policy) w.riskPool w.ledger p z
        payer premium=.ok (m,s',l') ∧ id=w.policy.policyCounter.getD 0+1 ∧
      w'=⟨s',w.policy.issue id (terms.record owner p z premium m) metadata,l'⟩ := by
  simp only [mintOne,bind_eq_ok,failIf_eq_ok,liftTrap_eq_ok,okOr_eq_ok,pure_eq_ok,
    Unsigned.checkedAdd_eq_some,Prod.exists,Prod.mk.injEq] at h
  obtain ⟨-,hcov,-,hwindow,premium,hpremium,-,hmax,m,w1,hcollect,_,⟨-,rfl⟩,rfl,rfl⟩ := h
  obtain ⟨s',l',rfl,hc⟩ := callCollectPremium_ok hcollect
  have hcoverage : 0<terms.coverage := by omega
  have hopens : terms.windowStart<terms.windowEnd := by omega
  have hcap : premium ≤ maxPremium := by omega
  exact ⟨premium,m,s',l',hcoverage,hopens,callPremiumFor_ok hpremium,hcap,hc,rfl,rfl⟩

theorem mintEntry_ok {rp payer : Address} {p z : Nat} {r r' : List Nat × World L}
    {entry : BatchEntry} (h : mintEntry T net env rp payer p z r entry=.ok r') :
    ∃ id, r'.1=r.1++[id] ∧ mintOne T net env rp r.2 entry.owner payer p z entry.terms
      entry.maxPremium entry.metadata=.ok (id,r'.2) := by
  simp only [mintEntry,bind_eq_ok,pure_eq_ok,Prod.exists] at h
  obtain ⟨id,w',hm,rfl⟩ := h
  exact ⟨id,rfl,hm⟩

/-- A cancellation refunds the reserved net to the owner and marks the certificate. -/
theorem cancel_ok {w w' : World L} {id : Nat} {refunded : Int}
    (h : cancel T net env w id=.ok (refunded,w')) :
    ∃ r s' l', w.policy.policy id=some r ∧ r.owner∈env.signers ∧ r.state=.active ∧
      env.timestamp < r.windowStart ∧
      RiskPool.refundPremium T net.riskPool (env.invokedBy net.policy) w.riskPool w.ledger r.poolId
        r.seasonId r.owner r.netReserved=.ok (refunded,s',l') ∧
      w'=⟨s',(w.policy.writePolicy id { r with state := .cancelled }).publish
        (.policyCancelled id r.owner refunded),l'⟩ := by
  simp only [cancel,readPolicy,bind_eq_ok,failIf_eq_ok,liftTrap_eq_ok,okOr_eq_ok,pure_eq_ok,
    requireAuth_eq_ok,Prod.exists,Prod.mk.injEq] at h
  obtain ⟨r,hr,-,hsigned,-,hactive,-,htime,rp,-,m,w1,hrefund,rfl,rfl⟩ := h
  obtain ⟨s',l',rfl,hc⟩ := callRefundPremium_ok hrefund
  have hbefore : env.timestamp < r.windowStart := by omega
  exact ⟨r,s',l',hr,hsigned,not_not.mp hactive,hbefore,hc,rfl⟩

theorem transition_ok {s s' : State} {id : Nat} {src dst : PolicyState}
    (h : transition s id src dst=.ok s') : ∃ r, s.policy id=some r ∧ r.state=src ∧
      s'=(s.writePolicy id { r with state := dst }).publish (.policyStateChanged id dst) := by
  simp only [transition,readPolicy,bind_eq_ok,failIf_eq_ok,okOr_eq_ok,pure_eq_ok] at h
  obtain ⟨r,hr,-,hst,rfl⟩ := h
  exact ⟨r,hr,not_not.mp hst,rfl⟩

variable (T net)

/-- What a successful transaction does to the two contracts. -/
inductive Step (w : World L) : Env × Action → World L → Prop where
  | riskPool (env : Env) (c : RiskPool.Call) (s' : RiskPool.State) (l' : L)
      (h : RiskPool.invoke T net.riskPool (net.outside env) c w.riskPool w.ledger=.ok (s',l')) :
      Step w (env,.riskPool c) { w with riskPool := s', ledger := l' }
  | mint (env : Env) (buyer rp : Address) (p z id : Nat) (terms : PolicyTerms) (maxPremium : Int)
      (metadata : BytesN 32) (w' : World L)
      (h : mintOne T net (net.outside env) rp w buyer buyer p z terms maxPremium metadata=
        .ok (id,w')) :
      Step w (env,.policy (.mint buyer p z terms maxPremium metadata)) w'
  | mintBatch (env : Env) (payer rp : Address) (p z : Nat) (entries : List BatchEntry)
      (ids : List Nat) (w' : World L)
      (h : entries.foldlM (mintEntry T net (net.outside env) rp payer p z) ([],w)=.ok (ids,w')) :
      Step w (env,.policy (.mintBatch payer p z entries)) { w' with
        policy := w'.policy.publish (.batchMinted payer p z entries.length) }
  | cancel (env : Env) (id : Nat) (refunded : Int) (w' : World L)
      (h : cancel T net (net.outside env) w id=.ok (refunded,w')) :
      Step w (env,.policy (.cancel id)) w'
  | move (env : Env) (c : Call) (id : Nat) (r r' : PolicyRecord) (e : Event)
      (hr : w.policy.policy id=some r) (h : Move (net.outside env) w.policy id r c r') :
      Step w (env,.policy c) { w with policy := (w.policy.writePolicy id r').publish e }
  | metadata (env : Env) (id : Nat) (pointer : BytesN 32) :
      Step w (env,.policy (.setMetadata id pointer)) { w with
        policy := w.policy.writeMetaPointer id pointer }
  | transferable (env : Env) (p : Nat) (allowed : Bool) :
      Step w (env,.policy (.setTransferable p allowed)) { w with
        policy := (w.policy.writeTransferable p allowed).publish (.transferabilitySet p allowed) }

theorem execute_step {w w' : World L} {a : Env × Action} (h : (machine T net).step w a=.ok w') :
    Step T net w a w' := by
  obtain ⟨env,a⟩ := a
  change execute T net env w a=.ok w' at h
  cases a with
  | riskPool c =>
    simp only [execute,except_map_eq_ok,subcall_eq_ok,Prod.exists] at h
    obtain ⟨s',l',hc,rfl⟩ := h
    exact .riskPool env c s' l' hc
  | policy c =>
    simp only [execute,subcall_eq_ok] at h
    cases c with
    | mint buyer p z terms maxPremium metadata =>
      simp only [invoke,mint,except_map_eq_ok,bind_eq_ok,Prod.exists] at h
      obtain ⟨id,u,⟨-,-,rp,-,hm⟩,rfl⟩ := h
      exact .mint env buyer rp p z id terms maxPremium metadata _ hm
    | mintBatch payer p z entries =>
      simp only [invoke,mintBatch,except_map_eq_ok,bind_eq_ok,pure_eq_ok,Prod.exists,
        Prod.mk.injEq] at h
      obtain ⟨_,u,⟨-,-,-,-,rp,-,ids,w1,hm,-,rfl⟩,rfl⟩ := h
      exact .mintBatch env payer rp p z entries ids w1 hm
    | markTriggered id =>
      simp only [invoke,markTriggered,except_map_eq_ok,bind_eq_ok] at h
      obtain ⟨s',⟨_,hadmin,ht⟩,rfl⟩ := h
      obtain ⟨r,hr,hst,rfl⟩ := transition_ok ht
      exact .move env _ id r _ _ hr (.trigger hadmin hst)
    | markPaid id =>
      simp only [invoke,markPaid,except_map_eq_ok,bind_eq_ok] at h
      obtain ⟨s',⟨_,hadmin,ht⟩,rfl⟩ := h
      obtain ⟨r,hr,hst,rfl⟩ := transition_ok ht
      exact .move env _ id r _ _ hr (.pay hadmin hst)
    | expire id =>
      simp only [invoke,expire,readPolicy,except_map_eq_ok,bind_eq_ok,failIf_eq_ok,
        okOr_eq_ok] at h
      obtain ⟨s',⟨r,hr,-,htime,ht⟩,rfl⟩ := h
      obtain ⟨r',hr',hst,rfl⟩ := transition_ok ht
      have hsame : r'=r := Option.some.inj (hr'.symm.trans hr)
      subst hsame
      exact .move env _ id _ _ _ hr (.expire (not_lt.mp htime) hst)
    | cancel id =>
      simp only [invoke,except_map_eq_ok,Prod.exists] at h
      obtain ⟨refunded,u,hu,rfl⟩ := h
      exact .cancel env id refunded _ hu
    | setMetadata id pointer =>
      simp only [invoke,setMetadata,except_map_eq_ok,bind_eq_ok,pure_eq_ok] at h
      obtain ⟨_,⟨_,-,-,-,rfl⟩,rfl⟩ := h
      exact .metadata env id pointer
    | setTransferable p allowed =>
      simp only [invoke,setTransferable,except_map_eq_ok,bind_eq_ok,pure_eq_ok] at h
      obtain ⟨_,⟨_,-,rfl⟩,rfl⟩ := h
      exact .transferable env p allowed
    | transfer id dst =>
      simp only [invoke,transfer,readPolicy,except_map_eq_ok,bind_eq_ok,failIf_eq_ok,okOr_eq_ok,
        requireAuth_eq_ok,pure_eq_ok] at h
      obtain ⟨_,⟨r,hr,-,hsigned,-,hallowed,-,hst,rfl⟩,rfl⟩ := h
      exact .move env _ id r _ _ hr
        (.transfer dst hsigned (by simpa using hallowed) (not_not.mp hst))

variable {T net}

/-- A move keeps everything but the owner and the state of a certificate. -/
theorem Move.keeps {s : State} {id : Nat} {r r' : PolicyRecord} {c : Call}
    (h : Move env s id r c r') : r'={ r with owner := r'.owner, state := r'.state } := by
  cases h <;> rfl

theorem Move.proper {s : State} {id : Nat} {r r' : PolicyRecord} {c : Call}
    (h : Move env s id r c r') (hr : r.Proper) : r'.Proper := by
  rw [h.keeps]
  exact ⟨hr.coverage,hr.window,hr.nonneg,hr.net⟩

theorem World.Sound.fresh {w : World L} (hs : w.Sound net) :
    w.policy.policy (w.policy.policyCounter.getD 0+1)=none := by
  cases h : w.policy.policy (w.policy.policyCounter.getD 0+1) with
  | none => rfl
  | some r =>
    have hid := hs.ids _ r h
    omega

theorem World.Sound.congr {w w' : World L} (hs : w.Sound net) (hpool : w'.riskPool=w.riskPool)
    (href : w'.policy.riskPool=w.policy.riskPool) (hpolicy : w'.policy.policy=w.policy.policy)
    (hcounter : w'.policy.policyCounter=w.policy.policyCounter) : w'.Sound net := by
  refine ⟨?_,href.trans hs.poolRef,?_,?_⟩
  · rw [hpool]
    exact hs.pools
  · rw [hpolicy,hcounter]
    exact hs.ids
  · rw [hpolicy]
    exact hs.proper

theorem State.rewritten_policy (s : State) (id : Nat) (r : PolicyRecord) (e : Event) (j : Nat) :
    ((s.writePolicy id r).publish e).policy j=if j=id then some r else s.policy j :=
  Function.update_apply _ _ _ _

/-- Overwriting a certificate by a proper one with the same id. -/
theorem World.Sound.rewrite {w : World L} {s' : RiskPool.State} {l' : L} {id : Nat}
    {r r' : PolicyRecord} {e : Event} (hs : w.Sound net) (hw : s'.WellFormed)
    (hr : w.policy.policy id=some r) (hr' : r'.Proper) :
    World.Sound net ⟨s',(w.policy.writePolicy id r').publish e,l'⟩ := by
  refine ⟨hw,hs.poolRef,fun j v hv => ?_,fun j v hv => ?_⟩
  · rw [State.rewritten_policy] at hv
    split_ifs at hv with hj
    · subst hj
      exact hs.ids j r hr
    · exact hs.ids j v hv
  · rw [State.rewritten_policy] at hv
    split_ifs at hv with hj
    · rw [Option.some.injEq] at hv
      rw [← hv]
      exact hr'
    · exact hs.proper j v hv

theorem State.issue_policy (s : State) (id : Nat) (r : PolicyRecord) (metadata : BytesN 32)
    (j : Nat) : (s.issue id r metadata).policy j=if j=id then some r else s.policy j := by
  by_cases hj : j=id
  · subst hj; simp [State.issue,State.publish,State.writeMetaPointer,State.writePolicy]
  · simp [State.issue,State.publish,State.writeMetaPointer,State.writePolicy,hj]

theorem mintOne_sound {rp owner payer : Address} {w w' : World L} {p z id : Nat}
    {terms : PolicyTerms} {maxPremium : Int} {metadata : BytesN 32} (hs : w.Sound net)
    (h : mintOne T net env rp w owner payer p z terms maxPremium metadata=.ok (id,w')) :
    w'.Sound net := by
  obtain ⟨premium,m,s',l',hcov,hwindow,-,-,hcollect,rfl,rfl⟩ := mintOne_ok h
  obtain ⟨_,_,-,hposts⟩ := RiskPool.collectPremium_posts hcollect
  have hnet := RiskPool.collectPremium_net hs.pools hcollect
  refine ⟨hposts.wellFormed hs.pools,hs.poolRef,fun j v hv => ?_,fun j v hv => ?_⟩
  · rw [State.issue_policy] at hv
    change j≤w.policy.policyCounter.getD 0+1
    split_ifs at hv with hj
    · omega
    · have hid := hs.ids j v hv
      omega
  · rw [State.issue_policy] at hv
    split_ifs at hv with hj
    · rw [Option.some.injEq] at hv
      subst hv
      exact ⟨hcov,hwindow,hnet.1,hnet.2⟩
    · exact hs.proper j v hv

theorem Step.sound {w w' : World L} {a : Env × Action} (hs : w.Sound net)
    (h : Step T net w a w') : w'.Sound net := by
  cases h with
  | riskPool env c s' l' h =>
    have hstep : (RiskPool.machine T net.riskPool).step (w.riskPool,w.ledger)
        (.call (net.outside env) c)=.ok (s',l') := h
    exact ⟨RiskPool.step_wellFormed T net.riskPool hs.pools hstep,hs.poolRef,hs.ids,hs.proper⟩
  | mint env buyer rp p z id terms maxPremium metadata _ h => exact mintOne_sound hs h
  | mintBatch env payer rp p z entries ids w1 h =>
    have hend := foldlM_invariant (fun r : List Nat × World L => r.2.Sound net)
      (fun r entry r' hr h => by
        obtain ⟨id,-,hm⟩ := mintEntry_ok h
        exact mintOne_sound hr hm)
      entries _ (ids,w1) hs h
    exact hend.congr rfl rfl rfl rfl
  | cancel env id refunded _ h =>
    obtain ⟨r,s',l',hr,-,-,-,hrefund,rfl⟩ := cancel_ok h
    have hp := hs.proper id r hr
    exact hs.rewrite ((RiskPool.refundPremium_posts hrefund).wellFormed hs.pools) hr
      ⟨hp.coverage,hp.window,hp.nonneg,hp.net⟩
  | move env c id r r' e hr h => exact hs.rewrite hs.pools hr (h.proper (hs.proper id r hr))
  | metadata | transferable => exact hs.congr rfl rfl rfl rfl

theorem deployWorld_sound (poolAdmin policyAdmin : Address) (l : L) :
    (deployWorld net poolAdmin policyAdmin l).Sound net where
  pools := RiskPool.deploy_wellFormed poolAdmin
  poolRef := rfl
  ids _ _ h := by simp [deployWorld,deploy] at h
  proper _ _ h := by simp [deployWorld,deploy] at h

theorem run_sound {w : World L} (hs : w.Sound net) (actions : List (Env × Action)) :
    ((machine T net).run w actions).Sound net :=
  (machine T net).run_invariant (World.Sound net)
    (fun _ _ _ hs h => (execute_step T net h).sound hs) actions w hs

end Steps

end Mvua.Policy
