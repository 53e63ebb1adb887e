import Mvua.Policy.Market
import Mvua.Policy.Lifecycle

namespace Mvua.Policy

section Statements

variable {L : Type} (T : TokenHost L)

/-- No sum of a purchase leaves its type: the fees and the net of the premium, and the counter. -/
structure SumsFit (w : World L) (c : RiskPool.PoolConfig) (p z : Nat) (premium : Int) : Prop where
  counter : UnsignedFits 64 (w.policy.policyCounter.getD 0+1)
  room : ∀ protocolFee publisherFee,
    RiskPool.accrueFee premium c.fee.protocolBps (w.riskPool.book p).protocolFees
      c.fee.protocolCap=.ok protocolFee →
    RiskPool.accrueFee premium c.fee.publisherBps (w.riskPool.book p).publisherFees
      c.fee.publisherCap=.ok publisherFee →
    RiskPool.Room w.riskPool p z protocolFee publisherFee (premium-protocolFee-publisherFee)

/-- The buyer paid exactly the premium, for a certificate that says so. -/
structure Bought (w w' : World L) (c : RiskPool.PoolConfig) (buyer : Address) (id : Nat)
    (premium : Int) : Prop where
  debit : T.balance w'.ledger c.token buyer=T.balance w.ledger c.token buyer-premium
  record : ∃ r, w'.policy.policy id=some r ∧ r.owner=buyer ∧ r.premiumPaid=premium

end Statements

section Buying

variable {L : Type} {T : TokenHost L} {net : Network} {w : World L} {env : Env}
  {buyer : Address} {p z : Nat} {terms : PolicyTerms} {maxPremium premium : Int}
  {metadata : BytesN 32} {c : RiskPool.PoolConfig}

theorem quote_ok {coverage : Int} (hs : w.Sound net)
    (h : quote net w p coverage=.ok premium) :
    callPremiumFor net net.riskPool w p coverage=.ok premium ∧
      ∃ c, w.riskPool.poolConfig p=some c ∧ RiskPool.computePremium c.premium coverage=
        .ok premium := by
  simp only [quote,readRiskPool,hs.poolRef,okOr,ok_bind,liftTrap_eq_ok] at h
  have hpremium := callPremiumFor_ok h
  simp only [RiskPool.premiumFor,bind_eq_ok,RiskPool.readConfig_eq_ok] at hpremium
  exact ⟨h,hpremium⟩

theorem collect_quoted (hT : T.Settles) (hs : w.Sound net) {coverage : Int}
    (hquote : quote net w p coverage=.ok premium) (hpos : 0<premium)
    (hsigned : buyer∈(net.outside env).signers)
    (hseason : (w.riskPool.book p).SeasonIn z .opened .active)
    (hc : w.riskPool.poolConfig p=some c) (hbalance : premium≤T.balance w.ledger c.token buyer)
    (hfit : SumsFit w c p z premium) :
    ∃ m s' l', RiskPool.collectPremium T net.riskPool ((net.outside env).invokedBy net.policy)
        w.riskPool w.ledger p z buyer premium=.ok (m,s',l') ∧
      T.transfer w.ledger c.token buyer net.riskPool premium=some l' := by
  obtain ⟨-,c',hc',hcurve⟩ := quote_ok hs hquote
  rw [hc,Option.some.injEq] at hc'
  subst hc'
  obtain ⟨-,hnonneg,hrange⟩ := RiskPool.computePremium_bounds hcurve
  obtain ⟨hrates,-,-⟩ := (hs.pools.accepted p c hc).fees
  have hprotocol : c.fee.protocolBps≤10000 := by omega
  have hpublisher : c.fee.publisherBps≤10000 := by omega
  obtain ⟨pf,hp⟩ := RiskPool.accrueFee_total (w.riskPool.book p).protocolFees c.fee.protocolCap
    hnonneg hrange hprotocol
  obtain ⟨qf,hq⟩ := RiskPool.accrueFee_total (w.riskPool.book p).publisherFees c.fee.publisherCap
    hnonneg hrange hpublisher
  obtain ⟨hpf,hpfle,-⟩ := RiskPool.accrueFee_bounds hp hnonneg
  obtain ⟨hqf,hqfle,-⟩ := RiskPool.accrueFee_bounds hq hnonneg
  have hnet := RiskPool.net_nonneg hnonneg hpfle hqfle hrates
  have hfirst : SignedFits 128 (premium-pf) := ⟨by omega,by omega⟩
  have hsecond : SignedFits 128 (premium-pf-qf) := ⟨by omega,by omega⟩
  have hinvoked : buyer∈((net.outside env).invokedBy net.policy).signers :=
    List.mem_cons_of_mem _ hsigned
  obtain ⟨season,hz,hst⟩ := hseason
  obtain ⟨s',l',hcollect,hl⟩ := RiskPool.collectPremium_succeeds hT hs.pools hinvoked hpos hc hz
    hst hbalance hp hq hfirst hsecond (hfit.room pf qf hp hq)
  exact ⟨_,s',l',hcollect,hl⟩

/-- A purchase at a positive quoted price goes through and costs exactly that price. -/
theorem mint_quoted (hT : T.Settles) (hs : w.Sound net)
    (hquote : quote net w p terms.coverage=.ok premium)
    (hwindow : terms.windowStart<terms.windowEnd) (hmax : premium ≤ maxPremium)
    (hsigned : buyer∈(net.outside env).signers)
    (hseason : (w.riskPool.book p).SeasonIn z .opened .active)
    (hc : w.riskPool.poolConfig p=some c) (hbalance : premium≤T.balance w.ledger c.token buyer)
    (hfit : SumsFit w c p z premium) (hpos : 0<premium) :
    ∃ id w', mint T net (net.outside env) w buyer p z terms maxPremium metadata=.ok (id,w') ∧
      Bought T w w' c buyer id premium := by
  obtain ⟨hcall,_,-,hcurve⟩ := quote_ok hs hquote
  obtain ⟨hcov,-,-⟩ := RiskPool.computePremium_bounds hcurve
  obtain ⟨m,s',l',hcollect,hl⟩ := collect_quoted hT hs hquote hpos hsigned hseason hc hbalance hfit
  have hbuyer : buyer≠net.riskPool := (signer_outside hsigned).1
  have hpaid : callCollectPremium T net (net.outside env) net.riskPool w p z buyer premium=
      .ok (m,{ w with riskPool := s', ledger := l' }) := by
    simp [callCollectPremium,hcollect,subcall,Except.map]
  let id := w.policy.policyCounter.getD 0+1
  let w' : World L := ⟨s',w.policy.issue id (terms.record buyer p z premium m) metadata,l'⟩
  have hmint : mint T net (net.outside env) w buyer p z terms maxPremium metadata=.ok (id,w') := by
    simp only [mint,mintOne,readRiskPool,bind_eq_ok,failIf_eq_ok,liftTrap_eq_ok,okOr_eq_ok,
      pure_eq_ok,requireAuth_eq_ok,Unsigned.checkedAdd_eq_some,Prod.exists,Prod.mk.injEq]
    exact ⟨(),hsigned,net.riskPool,hs.poolRef,(),by omega,(),by omega,premium,hcall,(),by omega,
      m,_,hpaid,id,⟨hfit.counter,rfl⟩,rfl,rfl⟩
  refine ⟨id,w',hmint,?_,terms.record buyer p z premium m,?_,rfl,rfl⟩
  · exact hT.debit _ _ _ _ _ _ hl hbuyer
  · rw [State.issue_policy,if_pos rfl]

end Buying

section Theorems

variable {L : Type} (T : TokenHost L) (net : Network)

/-- In every reachable state, a buyer who has the quoted price can buy for exactly that price in
an open or active season if and only if the price is positive. -/
theorem quoted_price_bought_iff (hT : T.Settles) (poolAdmin policyAdmin : Address) (l : L)
    (history : List (Env × Transaction)) (env : Env) (buyer : Address) (p z : Nat)
    (terms : PolicyTerms) (maxPremium premium : Int) (metadata : BytesN 32)
    (c : RiskPool.PoolConfig) :
    let w := (market T net).run (deployWorld net poolAdmin policyAdmin l) history
    quote net w p terms.coverage=.ok premium → terms.windowStart<terms.windowEnd →
    premium ≤ maxPremium → buyer∈(net.outside env).signers →
    (w.riskPool.book p).SeasonIn z .opened .active → w.riskPool.poolConfig p=some c →
    premium≤T.balance w.ledger c.token buyer → SumsFit w c p z premium →
    ((∃ id w', mint T net (net.outside env) w buyer p z terms maxPremium metadata=.ok (id,w') ∧
      Bought T w w' c buyer id premium) ↔ 0<premium) := by
  intro w hquote hwindow hmax hsigned hseason hc hbalance hfit
  have hs : w.Sound net := market_run_sound (deployWorld_sound poolAdmin policyAdmin l) history
  constructor
  · intro h
    obtain ⟨id,w',hmint,-⟩ := h
    obtain ⟨rp,hone⟩ := mint_ok hmint
    obtain ⟨premium',_,_,_,-,-,hpremium,-,hcollect,-,-⟩ := mintOne_ok hone
    obtain ⟨_,_,_,_,_,_,-,-,-,-,-,hpos,-⟩ := RiskPool.collectPremium_ok hcollect
    have hsame : premium'=premium := by
      have hcall := callPremiumFor_ok (quote_ok hs hquote).1
      rw [hcall,Except.ok.injEq] at hpremium
      exact hpremium.symm
    rw [← hsame]
    exact hpos
  · intro hpos
    exact mint_quoted hT hs hquote hwindow hmax hsigned hseason hc hbalance hfit hpos

end Theorems

section Sample

def openPool (config : RiskPool.PoolConfig) : List (Env × Transaction) := [
  (RiskPool.plainEnv,.call (.riskPool (.createPool config))),
  (RiskPool.plainEnv,.call (.riskPool (.openSeason 1)))]

/-- A rate of zero gives a quoted price of zero, which the pool does not collect. -/
theorem zero_quote_refused :
    let w := (market TokenHost.ledger plainNet).run plainWorld (openPool RiskPool.plainConfig)
    quote plainNet w 1 laterTerms.coverage=.ok 0 ∧
    (w.riskPool.season (1,1)).map RiskPool.Season.state=some .opened ∧
    (mint TokenHost.ledger plainNet (plainNet.outside RiskPool.plainEnv) w ⟨3⟩ 1 1 laterTerms 100
      0).map (fun r => r.1)=.error (.trap (.contract RiskPool.Error.invalidAmount.code)) := by
  decide +kernel

def pricedWorld : World (Address → Address → Int) :=
  (market TokenHost.ledger plainNet).run
    (deployWorld plainNet ⟨0⟩ ⟨0⟩ RiskPool.plainFunds) (openPool feeConfig)

theorem quoted_price_bought_tenth :
    ∃ id w', mint TokenHost.ledger plainNet (plainNet.outside RiskPool.plainEnv) pricedWorld ⟨3⟩
        1 1 laterTerms 100 0=.ok (id,w') ∧
      Bought TokenHost.ledger pricedWorld w' feeConfig ⟨3⟩ id 100 := by
  have hquote : quote plainNet pricedWorld 1 laterTerms.coverage=.ok 100 := by decide +kernel
  have hseason : (pricedWorld.riskPool.season (1,1)).map RiskPool.Season.state=some .opened := by
    decide +kernel
  have hc : pricedWorld.riskPool.poolConfig 1=some feeConfig := by decide +kernel
  have hbalance : 100≤TokenHost.ledger.balance pricedWorld.ledger feeConfig.token ⟨3⟩ := by
    decide +kernel
  have hcounter : UnsignedFits 64 (pricedWorld.policy.policyCounter.getD 0+1) := by
    decide +kernel
  have hprotocol : RiskPool.accrueFee 100 feeConfig.fee.protocolBps
      (pricedWorld.riskPool.book 1).protocolFees feeConfig.fee.protocolCap=.ok 10 := by
    decide +kernel
  have hpublisher : RiskPool.accrueFee 100 feeConfig.fee.publisherBps
      (pricedWorld.riskPool.book 1).publisherFees feeConfig.fee.publisherCap=.ok 0 := by
    decide +kernel
  have hroom : RiskPool.Room pricedWorld.riskPool 1 1 10 0 (100-10-0) :=
    ⟨by decide +kernel,by decide +kernel,by decide +kernel,by decide +kernel⟩
  have hfit : SumsFit pricedWorld feeConfig 1 1 100 := by
    refine ⟨hcounter,fun pf qf hp hq => ?_⟩
    rw [hprotocol,Except.ok.injEq] at hp
    rw [hpublisher,Except.ok.injEq] at hq
    rw [← hp,← hq]
    exact hroom
  obtain ⟨z,hz,hst⟩ := Option.map_eq_some_iff.mp hseason
  have h := quoted_price_bought_iff TokenHost.ledger plainNet TokenHost.ledger_settles ⟨0⟩ ⟨0⟩
    RiskPool.plainFunds (openPool feeConfig) RiskPool.plainEnv ⟨3⟩ 1 1 laterTerms 100 100 0
    feeConfig hquote (by decide) le_rfl (by decide) ⟨z,hz,.inl hst⟩ hc hbalance hfit
  exact h.mpr (by decide)

end Sample

end Mvua.Policy
