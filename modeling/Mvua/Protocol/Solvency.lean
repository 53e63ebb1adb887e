import Mvua.Policy.Market
import Mvua.Protocol.Projection

namespace Mvua.Protocol

section Parts

variable {L : Type} {T : TokenHost L}

/-- What the certificates reserve in a season is at most what the pool counts as its premiums. -/
theorem reserved_le {net : Policy.Network} {w : Policy.World L} (h : Policy.Funded T net w)
    (k : Nat × Nat) : ∃ n, HasTotal (Policy.reserved w.policy k) n ∧ n≤w.riskPool.premiumsIn k := by
  obtain ⟨log,ha⟩ := h.accounted
  have hdirect := ha.direct k
  exact ⟨w.riskPool.premiumsIn k-Policy.directIn k log,ha.premiums k,by omega⟩

theorem settlement_backed {net : PayoutVault.Network} {token : Address} {v : PayoutVault.World L}
    (hT : T.Settles) (hnet : net.riskPool≠net.vault) (calls : List (Env × PayoutVault.Transaction))
    (h : PayoutVault.Owing net token v ∧ PayoutVault.Backed T net token v)
    (hown : (PayoutVault.settlement T net).along (PayoutVault.DrawsOwnToken T net) v calls) :
    let u := (PayoutVault.settlement T net).run v calls
    PayoutVault.Owing net token u ∧ PayoutVault.Backed T net token u := by
  let N := PayoutVault.settlement T net
  refine N.run_along (fun v => PayoutVault.Owing net token v ∧ PayoutVault.Backed T net token v)
    (PayoutVault.DrawsOwnToken T net) ?_ calls v h hown
  intro v a h hdraws
  obtain ⟨howing,hbacked⟩ := h
  rcases N.next_cases v a with hsame | hstep
  · rw [hsame]
    exact ⟨howing,hbacked⟩
  · exact ⟨PayoutVault.step_owing howing hstep,
      PayoutVault.step_backed hT hnet howing hbacked hdraws hstep⟩

end Parts

section Runs

variable {L : Type} {T : TokenHost L}
  {verify : BytesN 32 → OracleAdapter.ObservationPayload → BytesN 64 → Bool} {net : Network}
  {g : Genesis} {l : L} {transactions : List (Env × Transaction)}

theorem run_market (hT : T.Settles) (hpool : ∀ token, 0≤T.balance l token net.riskPool)
    (hwired : (machine T verify net).along (Wired T verify net) (deploy net g l) transactions) :
    Policy.Funded T net.market ((machine T verify net).run (deploy net g l) transactions).market :=
  (market_simulates T verify net).transfer (J := Policy.Funded T net.market) (s := deploy net g l)
    (fun calls => Policy.run_funded hT (Ne.symm net.policy_ne.1)
      (Policy.deployWorld_funded g.poolAdmin g.policyAdmin l hpool) calls) transactions hwired

theorem run_settlement (hT : T.Settles) (hvault : 0≤T.balance l g.token net.vault)
    (hwired : (machine T verify net).along (Wired T verify net) (deploy net g l) transactions) :
    let v := ((machine T verify net).run (deploy net g l) transactions).settlement
    PayoutVault.Owing net.settlement g.token v ∧ PayoutVault.Backed T net.settlement g.token v :=
  (settlement_simulates T verify net).transfer
    (s := deploy net g l) (J := fun v => PayoutVault.Owing net.settlement g.token v ∧
      PayoutVault.Backed T net.settlement g.token v)
    (fun calls => settlement_backed hT (Ne.symm net.vault_ne.1) calls
      ⟨PayoutVault.deployWorld_owing net.settlement g.poolAdmin g.triggerAdmin g.vaultAdmin
        net.policy g.token l,0,HasTotal.zero,hvault⟩) transactions hwired

/-- A positive claim is paid out to its owner by anybody's call, whatever the other contracts
are doing. -/
theorem claim_pays (hT : T.Settles) {w : World L} {token owner : Address}
    (howing : PayoutVault.Owing net.settlement token w.settlement)
    (hbacked : PayoutVault.Backed T net.settlement token w.settlement)
    (hpos : 0 < PayoutVault.readClaim w.vault owner) (hne : owner≠net.vault) (env : Env) :
    ∃ w', (machine T verify net).step w (env,.call (.vault (.claim owner)))=.ok w' ∧
      T.balance w'.ledger token owner=
        T.balance w.ledger token owner+PayoutVault.readClaim w.vault owner := by
  obtain ⟨amount,v,hclaim⟩ := PayoutVault.claim_collects hT howing hbacked hpos
  have hpaid := PayoutVault.claim_balance hT.toExact howing.token hclaim hne
  rw [if_pos rfl] at hpaid
  refine ⟨w.withSettlement v,?_,hpaid⟩
  change invoke T verify net (net.outside env) w (.vault (.claim owner))=_
  simp only [invoke,PayoutVault.invoke,hclaim,subcall,Except.map]

variable (T verify net g l transactions)

/-- Over every run of the five contracts that wires only these contracts, all that they owe is
covered at the same time: the pool contract has in each token what its pools account for, the
premiums of a season include what every certificate that is not cancelled has reserved, the vault
has the sum of all claims, and whoever is owed something can have it sent at once. -/
theorem liabilities_covered (hT : T.Settles) (hpool : ∀ token, 0≤T.balance l token net.riskPool)
    (hvault : 0≤T.balance l g.token net.vault) :
    let M := machine T verify net
    let start := deploy net g l
    let w := M.run start transactions
    M.along (Wired T verify net) start transactions →
    (∀ token, ∃ held, HasTotal (w.riskPool.held token) held ∧
      held≤T.balance w.ledger token net.riskPool) ∧
    (∀ p i, ∃ reserved, HasTotal (Policy.reserved w.policy (p,i)) reserved ∧
      reserved≤w.riskPool.premiumsIn (p,i)) ∧
    (∃ owed, HasTotal (PayoutVault.readClaim w.vault) owed ∧
      owed≤T.balance w.ledger g.token net.vault) ∧
    ∀ owner, 0 < PayoutVault.readClaim w.vault owner → owner≠net.vault → ∀ env,
      ∃ w', M.step w (env,.call (.vault (.claim owner)))=.ok w' ∧
        T.balance w'.ledger g.token owner=
          T.balance w.ledger g.token owner+PayoutVault.readClaim w.vault owner := by
  intro M start w hwired
  have hfunded := run_market hT hpool hwired
  obtain ⟨howing,hbacked⟩ := run_settlement hT hvault hwired
  exact ⟨hfunded.covers,fun p i => reserved_le hfunded (p,i),hbacked,
    fun _ hpos hne => claim_pays hT howing hbacked hpos hne⟩

end Runs

section Sample

/-- The payout that its owner has not asked for yet. -/
theorem liabilities_covered_dry :
    let M := machine TokenHost.ledger OracleAdapter.signedAll plainNet
    let w := M.run (deploy plainNet plainGenesis RiskPool.plainFunds) drySeason
    PayoutVault.readClaim w.vault ⟨7⟩=30 ∧
    ∃ w', M.step w (⟨1090000,[]⟩,.call (.vault (.claim ⟨7⟩)))=.ok w' ∧
      TokenHost.ledger.balance w'.ledger plainGenesis.token ⟨7⟩=
        TokenHost.ledger.balance w.ledger plainGenesis.token ⟨7⟩+30 := by
  intro M w
  have hclaim : PayoutVault.readClaim w.vault ⟨7⟩=30 := by
    decide +kernel
  have hpos : 0 < PayoutVault.readClaim w.vault ⟨7⟩ := by
    rw [hclaim]; decide
  have h := liabilities_covered TokenHost.ledger OracleAdapter.signedAll plainNet plainGenesis
    RiskPool.plainFunds drySeason TokenHost.ledger_settles (fun _ => le_rfl) (by decide)
    drySeason_wired
  obtain ⟨-,-,-,hsent⟩ := h
  obtain ⟨w',hstep,hpaid⟩ := hsent ⟨7⟩ hpos (by decide) ⟨1090000,[]⟩
  change _=_+PayoutVault.readClaim w.vault ⟨7⟩ at hpaid
  rw [hclaim] at hpaid
  refine ⟨hclaim,w',hstep,?_⟩
  with_reducible exact hpaid

end Sample

end Mvua.Protocol
