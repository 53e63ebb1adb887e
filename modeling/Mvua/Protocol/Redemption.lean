import Mvua.Protocol.Solvency
import Mvua.RiskPool.Redemption

namespace Mvua.Protocol

/-- A holder redeems receipts of pool `p`. -/
def redeem (p : Nat) (r : RiskPool.Redemption) : Env × Transaction :=
  (r.env,.call (.riskPool (r.call p)))

section Steps

variable {L : Type} {T : TokenHost L}
  {verify : BytesN 32 → OracleAdapter.ObservationPayload → BytesN 64 → Bool} {net : Network}
  {p : Nat} {rs : List RiskPool.Redemption}

theorem outside_env {r : RiskPool.Redemption} (h : r.holder∉net.contracts) :
    net.outside r.env=r.env := by
  simp [Network.outside,RiskPool.Redemption.env,h]

variable (verify) in
/-- Redemptions of outside holders are calls of the pool alone. -/
theorem run_redemptions {w : World L} (hout : ∀ r∈rs, r.holder∉net.contracts)
    (h : (RiskPool.machine T net.riskPool).succeeds (w.riskPool,w.ledger)
      (rs.map (RiskPool.Redemption.action p))) :
    let x := (RiskPool.machine T net.riskPool).run (w.riskPool,w.ledger)
      (rs.map (RiskPool.Redemption.action p))
    (machine T verify net).succeeds w (rs.map (redeem p)) ∧
      (machine T verify net).run w (rs.map (redeem p))=
        { w with riskPool := x.1, ledger := x.2 } := by
  let M := machine T verify net
  let N := RiskPool.machine T net.riskPool
  induction rs generalizing w with
  | nil => exact ⟨trivial,rfl⟩
  | cons r rs ih =>
    obtain ⟨hr,hrs⟩ := List.forall_mem_cons.mp hout
    obtain ⟨hfirst,hrest⟩ := h
    have hstep := N.step_of_isOk hfirst
    let y := N.next (w.riskPool,w.ledger) (r.action p)
    have hran : RiskPool.invoke T net.riskPool r.env (r.call p) w.riskPool w.ledger=.ok y := hstep
    have hmoved : M.step w (redeem p r)=.ok { w with riskPool := y.1, ledger := y.2 } := by
      change invoke T verify net (net.outside r.env) w (.riskPool (r.call p))=_
      simp only [invoke,outside_env hr,hran,subcall,Except.map]
    have hnext := M.next_of_ok hmoved
    obtain ⟨hsucceeds,hrun⟩ := ih (w := { w with riskPool := y.1, ledger := y.2 }) hrs hrest
    refine ⟨⟨?_,?_⟩,?_⟩
    · change (M.step w (redeem p r)).isOk=true
      rw [hmoved]
      rfl
    · rw [hnext]
      exact hsucceeds
    · rw [List.map_cons,Machine.run_cons,hnext,hrun]
      rfl

end Steps

section Runs

variable {L : Type} (T : TokenHost L)
  (verify : BytesN 32 → OracleAdapter.ObservationPayload → BytesN 64 → Bool) (net : Network)
  (g : Genesis) (l : L) (transactions : List (Env × Transaction))

/-- A run on a pool is harmless. From every state that the five contracts can reach with their own
wiring, as long as the reserves of a pool cover its capital, any requests of holders to redeem what
they have go through in whatever order they come; nobody gets less than by coming first, or above
that more than one unit for each request of the whole list, and a tranche that is redeemed as a
whole is left empty. -/
theorem redemptions_in_any_order (hT : T.Settles)
    (hpool : ∀ token, 0≤T.balance l token net.riskPool)
    (hvault : 0≤T.balance l g.token net.vault) (p : Nat) (c : RiskPool.PoolConfig)
    (rs : List RiskPool.Redemption) :
    let M := machine T verify net
    let start := deploy net g l
    let w := M.run start transactions
    let b := w.riskPool.book p
    M.along (Wired T verify net) start transactions →
    w.riskPool.poolConfig p=some c → b.capital≤b.reserves →
    (∀ r∈rs, r.holder∉net.contracts ∧
      RiskPool.redeemed r.tier r.holder rs≤b.receipt r.tier r.holder ∧
      1≤(b.fund r.tier).value r.receipts ∧ r.receipts*b.deposited r.tier<2^127) →
    let w' := M.run w (rs.map (redeem p))
    M.succeeds w (rs.map (redeem p)) ∧
    (∀ a, a≠net.riskPool →
      T.balance w.ledger c.token a+b.floorOf rs a≤T.balance w'.ledger c.token a ∧
      T.balance w'.ledger c.token a≤
        T.balance w.ledger c.token a+b.floorOf rs a+rs.length) ∧
    ∀ t, 0<b.supply t →
      Fund.requested RiskPool.Redemption.tier RiskPool.Redemption.receipts t rs=b.supply t →
      (w'.riskPool.book p).fund t=⟨0,0⟩ := by
  intro M start w b hwired hc hcapital hrequests w'
  have hfunded := run_market hT hpool hwired
  obtain ⟨howing,-⟩ := run_settlement hT hvault hwired
  have hout : ∀ r∈rs, r.holder∉net.contracts := fun r hr => (hrequests r hr).1
  have hheld : ∀ t a, RiskPool.redeemed t a rs≤b.receipt t a := by
    intro t a
    by_cases hnone : ∀ r∈rs, (r.tier,r.holder)≠(t,a)
    · have hzero : RiskPool.redeemed t a rs=0 := Fund.requested_eq_zero hnone
      rw [hzero]
      exact (howing.sound.pools.sound p).receipt t a
    · push Not at hnone
      obtain ⟨r,hr,he⟩ := hnone
      obtain ⟨rfl,rfl⟩ := Prod.mk.inj he
      exact (hrequests r hr).2.1
  have h : RiskPool.Redeems T net.riskPool p c w.riskPool w.ledger rs :=
    { wellFormed := howing.sound.pools
      covers := hfunded.covers
      config := hc
      uncommitted := howing.sound.uncommitted p
      capital := hcapital
      reserves := hfunded.bounded.reserves p
      outside := fun r hr he => hout r hr (by simp [he,Network.contracts])
      held := hheld
      worth := fun r hr => (hrequests r hr).2.2.1
      fits := fun r hr => (hrequests r hr).2.2.2 }
  obtain ⟨hsucceeds,hleft,hpaid⟩ := h.run hT
  obtain ⟨hserved,hrun⟩ := run_redemptions verify hout hsucceeds
  have hw' : w'=_ := hrun
  refine ⟨hserved,fun a ha => ?_,fun t hpos hall => ?_⟩
  · have hbounds : b.floorOf rs a≤_ ∧ _≤b.floorOf rs a+rs.length := h.paid_bounds a
    have hgain := hpaid a ha
    rw [hw']
    constructor
    · rw [hgain]
      omega
    · rw [hgain]
      omega
  · rw [hw',hleft]
    exact h.redeemable.drained hpos hall

end Runs

section Sample

/-- Two holders share a tranche that a season's surplus has added to. -/
def surplusPool : List (Env × Transaction) := [
  (adminAt 0,.call (.riskPool (.setPolicyContract ⟨20⟩))),
  (adminAt 0,.call (.riskPool (.setPayoutVault ⟨12⟩))),
  (adminAt 0,.call (.riskPool (.createPool Policy.feeConfig))),
  (RiskPool.plainEnv,.call (.riskPool (.deposit 1 .junior ⟨3⟩ 500))),
  (RiskPool.plainEnv,.transfer ⟨9⟩ ⟨3⟩ ⟨6⟩ 300),
  (⟨1000,[⟨6⟩]⟩,.call (.riskPool (.deposit 1 .junior ⟨6⟩ 300))),
  (adminAt 1000,.call (.riskPool (.openSeason 1))),
  (RiskPool.plainEnv,.call (.riskPool (.collectPremium 1 1 ⟨3⟩ 77))),
  (adminAt 1000,.call (.riskPool (.activateSeason 1 1))),
  (adminAt 2000,.call (.riskPool (.closeSeason 1 1))),
  (adminAt 2000,.call (.riskPool (.settleSeason 1 1)))]

/-- One of them redeems in two parts, the other in between. -/
def exits : List RiskPool.Redemption :=
  [⟨.junior,⟨6⟩,100,3000⟩,⟨.junior,⟨3⟩,500,3000⟩,⟨.junior,⟨6⟩,200,3000⟩]

theorem surplusPool_wired : (machine TokenHost.ledger OracleAdapter.signedAll plainNet).along
    (Wired TokenHost.ledger OracleAdapter.signedAll plainNet)
    (deploy plainNet plainGenesis RiskPool.plainFunds) surplusPool := by
  refine ⟨wired rfl,wired rfl,wired trivial,wired trivial,wired trivial,?_⟩
  exact ⟨wired trivial,wired trivial,wired trivial,wired trivial,wired trivial,
    wired trivial,trivial⟩

theorem redemptions_in_any_order_surplus :
    let M := machine TokenHost.ledger OracleAdapter.signedAll plainNet
    let w := M.run (deploy plainNet plainGenesis RiskPool.plainFunds) surplusPool
    let w' := M.run w (exits.map (redeem 1))
    (w.riskPool.book 1).fund .junior=⟨870,800⟩ ∧ (w.riskPool.book 1).floorOf exits ⟨6⟩=325 ∧
    M.succeeds w (exits.map (redeem 1)) ∧
    TokenHost.ledger.balance w.ledger Policy.feeConfig.token ⟨6⟩+325≤
      TokenHost.ledger.balance w'.ledger Policy.feeConfig.token ⟨6⟩ ∧
    (w'.riskPool.book 1).fund .junior=⟨0,0⟩ := by
  intro M w w'
  have hwired := surplusPool_wired
  have hfloor : (w.riskPool.book 1).floorOf exits ⟨6⟩=325 := by
    decide +kernel
  have h := redemptions_in_any_order TokenHost.ledger OracleAdapter.signedAll plainNet plainGenesis
    RiskPool.plainFunds surplusPool TokenHost.ledger_settles (fun _ => le_rfl) (by decide) 1
    Policy.feeConfig exits hwired (by decide +kernel) (by decide +kernel) (by decide +kernel)
  obtain ⟨hserved,hpaid,hempty⟩ := h
  refine ⟨by decide +kernel,hfloor,by with_reducible exact hserved,?_,?_⟩
  · have hleast : TokenHost.ledger.balance w.ledger Policy.feeConfig.token ⟨6⟩+
        (w.riskPool.book 1).floorOf exits ⟨6⟩≤
          TokenHost.ledger.balance w'.ledger Policy.feeConfig.token ⟨6⟩ := by
      with_reducible exact (hpaid ⟨6⟩ (by decide)).1
    rw [hfloor] at hleast
    with_reducible exact hleast
  · with_reducible exact hempty .junior (by decide +kernel) (by decide +kernel)

end Sample

end Mvua.Protocol
