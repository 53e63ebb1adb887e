import Mvua.Policy.Market

namespace Mvua.Policy

section Statements

variable {L : Type} (T : TokenHost L) (net : Network)

/-- The conditions under which an owner should be able to cancel. -/
structure CancelDue (w : World L) (env : Env) (r : PolicyRecord) : Prop where
  active : r.state=.active
  early : env.timestamp < r.windowStart
  season : (w.riskPool.book r.poolId).SeasonIn r.seasonId .opened .active
  covered : (w.riskPool.book r.poolId).committed≤
    (w.riskPool.book r.poolId).reserves-r.netReserved

/-- The owner got the reserved net back, out of the season's premiums and the reserves. -/
structure Refunded (w w' : World L) (r : PolicyRecord) : Prop where
  owner : ∃ c, w.riskPool.poolConfig r.poolId=some c ∧
    T.balance w'.ledger c.token r.owner=T.balance w.ledger c.token r.owner+r.netReserved
  premiums : w'.riskPool.premiumsIn (r.poolId,r.seasonId)=
    w.riskPool.premiumsIn (r.poolId,r.seasonId)-r.netReserved
  reserves : (w'.riskPool.book r.poolId).reserves=
    (w.riskPool.book r.poolId).reserves-r.netReserved

/-- A cancellation succeeds exactly when it is due, and refunds exactly the reserved net. -/
structure CancelsAsDue (w : World L) (env : Env) (id : Nat) (r : PolicyRecord) : Prop where
  available : (∃ refunded w', cancel T net (net.outside env) w id=.ok (refunded,w')) ↔
    CancelDue w env r
  effect : ∀ refunded w', cancel T net (net.outside env) w id=.ok (refunded,w') →
    refunded=r.netReserved ∧ Refunded T w w' r

end Statements

section Cancelling

variable {L : Type} {T : TokenHost L} {net : Network} {w w' : World L} {env : Env} {id : Nat}
  {r : PolicyRecord}

/-- A cancellation that goes through was due and refunds the reserved net, which is positive. -/
theorem cancel_effect (hT : T.Exact) (hs : w.Sound net) (hr : w.policy.policy id=some r)
    {refunded : Int} (h : cancel T net (net.outside env) w id=.ok (refunded,w')) :
    CancelDue w env r ∧ 0 < r.netReserved ∧ refunded=r.netReserved ∧ Refunded T w w' r := by
  obtain ⟨r',s',l',hr',hsigned,hactive,hearly,hrefund,rfl⟩ := cancel_ok h
  rw [hr,Option.some.injEq] at hr'
  subst hr'
  obtain ⟨c,z,v,hc,hz,hv,-,hn,hpos,hst,-,-,hcovered,hl,-⟩ := RiskPool.refundPremium_ok hrefund
  have hp := RiskPool.refundPremium_posts hrefund
  have howner : net.riskPool≠r.owner := (signer_outside hsigned).1.symm
  refine ⟨⟨hactive,hearly,⟨z,hz,hst⟩,?_⟩,hpos,hn,⟨c,hc,?_⟩,?_,?_⟩
  · rw [RiskPool.State.book_committed hv,RiskPool.State.book_reserves hv]
    exact hcovered
  · exact hT.credit _ _ _ _ _ _ hl howner
  · rw [hp.premiumsIn hs.pools]
    simp [RiskPool.Entry.premiumAt,sub_eq_add_neg]
  · rw [hp.book]
    rfl

theorem Accounted.reserved_le {log : List Cashflow} (ha : Accounted net w log)
    (hr : w.policy.policy id=some r) (hactive : r.state=.active) :
    r.netReserved≤w.riskPool.premiumsIn (r.poolId,r.seasonId) := by
  have nonneg : ∀ j, 0 ≤ reserved w.policy (r.poolId,r.seasonId) j := by
    intro j
    unfold reserved
    cases hj : w.policy.policy j with
    | none => exact le_rfl
    | some v =>
      rw [Option.map_some,Option.getD_some,PolicyRecord.reservedIn]
      split_ifs
      · exact (ha.sound.proper j v hj).nonneg
      · exact le_rfl
  have hown : reserved w.policy (r.poolId,r.seasonId) id=r.netReserved := by
    simp [reserved,hr,PolicyRecord.reservedIn,hactive]
  have hle := (ha.premiums (r.poolId,r.seasonId)).le nonneg id
  have hdirect := ha.direct (r.poolId,r.seasonId)
  rw [hown] at hle
  omega

theorem cancel_succeeds (hT : T.Settles) (hf : Funded T net w)
    (hconfigured : w.riskPool.policyContract=some net.policy)
    (hr : w.policy.policy id=some r) (hsigned : r.owner∈(net.outside env).signers)
    (hdue : CancelDue w env r) (hpos : 0 < r.netReserved) :
    ∃ refunded w', cancel T net (net.outside env) w id=.ok (refunded,w') := by
  obtain ⟨log,ha⟩ := hf.accounted
  obtain ⟨z,hz,hst⟩ := hdue.season
  have hpremiums : r.netReserved≤z.premiumsIn := by
    have hle := ha.reserved_le hr hdue.active
    rw [RiskPool.State.premiumsIn,RiskPool.State.book_premiumsIn hz] at hle
    exact hle
  have hauth : RiskPool.requirePolicyContract ((net.outside env).invokedBy net.policy)
      w.riskPool=.ok () := (requireStored_iff hconfigured).mpr (by simp [Env.invokedBy])
  obtain ⟨s',l',hrefund⟩ := RiskPool.refundPremium_succeeds r.owner hT ha.sound.pools
    hf.bounded hf.covers hauth hpos hz hst hpremiums hdue.covered
  have hcall : callRefundPremium T net (net.outside env) net.riskPool w r.poolId r.seasonId
      r.owner r.netReserved=.ok (r.netReserved,{ w with riskPool := s', ledger := l' }) := by
    simp [callRefundPremium,hrefund,subcall,Except.map]
  have hlate : ¬(net.outside env).timestamp≥r.windowStart := not_le.mpr hdue.early
  let v : World L := { w with riskPool := s', ledger := l' }
  let s := (w.policy.writePolicy id { r with state := .cancelled }).publish
    (.policyCancelled id r.owner r.netReserved)
  refine ⟨r.netReserved,{ v with policy := s },?_⟩
  simp only [cancel,readPolicy,readRiskPool,bind_eq_ok,failIf_eq_ok,liftTrap_eq_ok,okOr_eq_ok,
    pure_eq_ok,requireAuth_eq_ok,Prod.exists,Prod.mk.injEq]
  exact ⟨r,hr,(),hsigned,(),not_not.mpr hdue.active,(),hlate,net.riskPool,ha.sound.poolRef,
    r.netReserved,v,hcall,rfl,rfl⟩

end Cancelling

section Theorems

variable {L : Type} (T : TokenHost L) (net : Network)

/-- In every reachable state of a pool whose only policy contract is this one, an owner's
cancellation does what it should exactly unless it is due and the policy has nothing reserved. -/
theorem cancel_as_due_iff (hT : T.Settles) (hnet : net.riskPool≠net.policy)
    (poolAdmin policyAdmin : Address) (l : L) (hl : ∀ token, 0≤T.balance l token net.riskPool)
    (history : List (Env × Transaction)) (id : Nat) (r : PolicyRecord) (env : Env) :
    let M := market T net
    let start := deployWorld net poolAdmin policyAdmin l
    let w := M.run start history
    M.along (OnlyOwnPolicy T net) start history →
    w.riskPool.policyContract=some net.policy → w.policy.policy id=some r →
    r.owner∈(net.outside env).signers →
    (CancelsAsDue T net w env id r ↔ ¬(CancelDue w env r ∧ r.netReserved=0)) := by
  intro M start w ho hconfigured hr hsigned
  have hf : Funded T net w :=
    run_funded hT hnet (deployWorld_funded poolAdmin policyAdmin l hl) history ho
  obtain ⟨log,ha⟩ := hf.accounted
  have hnonneg := (ha.sound.proper id r hr).nonneg
  constructor
  · intro h hzero
    obtain ⟨hdue,hnothing⟩ := hzero
    obtain ⟨refunded,w',hc⟩ := h.available.mpr hdue
    have hpos := (cancel_effect hT.toExact ha.sound hr hc).2.1
    omega
  · intro h
    refine ⟨⟨?_,?_⟩,?_⟩
    · intro hc
      obtain ⟨refunded,w',hc⟩ := hc
      exact (cancel_effect hT.toExact ha.sound hr hc).1
    · intro hdue
      have hpos : 0 < r.netReserved := by
        have hne : r.netReserved≠0 := fun hzero => h ⟨hdue,hzero⟩
        omega
      exact cancel_succeeds hT hf hconfigured hr hsigned hdue hpos
    · intro refunded w' hc
      exact (cancel_effect hT.toExact ha.sound hr hc).2.2

end Theorems

section Sample

/-- A buyer's policy in a pool with the given configuration. -/
def purchase (config : RiskPool.PoolConfig) : List (Env × Transaction) := [
  (RiskPool.plainEnv,.call (.riskPool (.setPolicyContract ⟨20⟩))),
  (RiskPool.plainEnv,.call (.riskPool (.createPool config))),
  (RiskPool.plainEnv,.call (.riskPool (.openSeason 1))),
  (RiskPool.plainEnv,.call (.policy (.mint ⟨3⟩ 1 1 laterTerms 100 0)))]

def purchased (config : RiskPool.PoolConfig) : World (Address → Address → Int) :=
  (market TokenHost.ledger plainNet).run
    (deployWorld plainNet ⟨0⟩ ⟨0⟩ RiskPool.plainFunds) (purchase config)

/-- A protocol fee of the whole premium. -/
def wholeFeeConfig : RiskPool.PoolConfig := ⟨⟨9⟩,[⟨1⟩],100,⟨1000,0⟩,⟨0,0⟩,⟨10000,0,0,0⟩,true⟩

/-- When the fee took the whole premium, the pool refuses the refund of nothing, and the owner
cannot cancel. -/
theorem whole_fee_locks_policy :
    let w := purchased wholeFeeConfig
    ∃ r, w.policy.policy 1=some r ∧ r.netReserved=0 ∧ CancelDue w ⟨1500,[⟨3⟩]⟩ r ∧
      (cancel TokenHost.ledger plainNet (plainNet.outside ⟨1500,[⟨3⟩]⟩) w 1).map (fun r => r.1)=
        .error (.trap (.contract RiskPool.Error.invalidAmount.code)) := by
  intro w
  have hr : w.policy.policy 1=some (laterTerms.record ⟨3⟩ 1 1 100 0) := by decide +kernel
  have hseason : (w.riskPool.season (1,1)).map RiskPool.Season.state=some .opened := by
    decide +kernel
  obtain ⟨z,hz,hst⟩ := Option.map_eq_some_iff.mp hseason
  exact ⟨_,hr,rfl,⟨rfl,by decide,⟨z,hz,.inl hst⟩,by decide +kernel⟩,by decide +kernel⟩

theorem purchase_onlyOwn (config : RiskPool.PoolConfig)
    (w : World (Address → Address → Int)) :
    (market TokenHost.ledger plainNet).along (OnlyOwnPolicy TokenHost.ledger plainNet) w
      (purchase config) := by
  apply Machine.along_of_mem
  intro a ha w
  simp only [purchase,List.mem_cons,List.not_mem_nil,or_false] at ha
  rcases ha with rfl | rfl | rfl | rfl
  all_goals
    intro policy w' he _
    simp only [Action.riskPool.injEq,RiskPool.Call.setPolicyContract.injEq,reduceCtorEq] at he
  exact he.symm

/-- With a tenth of the premium as fee, the owner cancels and gets the other nine back. -/
theorem cancel_as_due_tenth :
    ∃ w', cancel TokenHost.ledger plainNet (plainNet.outside ⟨1500,[⟨3⟩]⟩) (purchased feeConfig) 1=
        .ok (90,w') ∧
      Refunded TokenHost.ledger (purchased feeConfig) w' (laterTerms.record ⟨3⟩ 1 1 100 90) := by
  have hl : ∀ token, 0≤TokenHost.ledger.balance RiskPool.plainFunds token plainNet.riskPool := by
    intro token
    exact le_rfl
  have hconfigured : (purchased feeConfig).riskPool.policyContract=some plainNet.policy := by
    decide +kernel
  have hr : (purchased feeConfig).policy.policy 1=some (laterTerms.record ⟨3⟩ 1 1 100 90) := by
    decide +kernel
  have hseason : ((purchased feeConfig).riskPool.season (1,1)).map RiskPool.Season.state=
      some .opened := by decide +kernel
  obtain ⟨z,hz,hst⟩ := Option.map_eq_some_iff.mp hseason
  have h := cancel_as_due_iff TokenHost.ledger plainNet TokenHost.ledger_settles (by decide) ⟨0⟩
    ⟨0⟩ RiskPool.plainFunds hl (purchase feeConfig) 1 _ ⟨1500,[⟨3⟩]⟩
    (purchase_onlyOwn feeConfig _) hconfigured hr (by decide)
  have hdue := h.mpr fun hzero => absurd hzero.2 (by decide)
  have havailable := hdue.available.mpr ⟨rfl,by decide,⟨z,hz,.inl hst⟩,by decide +kernel⟩
  obtain ⟨refunded,w',hc⟩ := havailable
  obtain ⟨hn,heffect⟩ := hdue.effect refunded w' hc
  rw [hn] at hc
  exact ⟨w',hc,heffect⟩

end Sample

end Mvua.Policy
