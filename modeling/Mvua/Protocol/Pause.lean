import Mvua.PayoutVault.Pause
import Mvua.Protocol.Governance
import Mvua.Protocol.Solvency

namespace Mvua.Protocol

section Steps

variable {L : Type} {T : TokenHost L}
  {verify : BytesN 32 → OracleAdapter.ObservationPayload → BytesN 64 → Bool} {net : Network}
  {g : Genesis} {w w' : World L} {a : Env × Transaction}

/-- The vault's admin ends a pause. -/
def Resumes (g : Genesis) : Env × Transaction → Prop
  | (env,.call (.vault .unpause)) => g.vaultAdmin∈env.signers
  | _ => False

/-- Only a call of its setter changes the pool's payout vault. -/
theorem Step.ownVault (h : Step T verify net w a w') (hw : a.2.Wires net w)
    (ho : PayoutVault.OwnVault net.settlement w.riskPool) :
    PayoutVault.OwnVault net.settlement w'.riskPool := by
  cases h with
  | riskPool env c s' l' hc =>
    intro vault hvault
    rcases (RiskPool.invoke_configured hc).2 with he | ⟨vault',rfl,he⟩
    · exact ho vault (he.symm.trans hvault)
    · have hsame : vault'=vault := Option.some.inj (he.symm.trans hvault)
      exact hsame.symm.trans hw
  | policy env c v hc =>
    refine Policy.invoke_pool (PayoutVault.OwnVault net.settlement) ?_ ?_ ho hc
    · intro _ _ _ _ _ _ _ _ _ _ hs hu
      obtain ⟨_,_,_,_,_,_,-,-,-,-,-,-,-,-,-,-,-,rfl⟩ := RiskPool.collectPremium_ok hu
      exact hs
    · intro _ _ _ _ _ _ _ _ _ _ hs hu
      obtain ⟨_,_,_,-,-,-,-,-,-,-,-,-,-,-,rfl⟩ := RiskPool.refundPremium_ok hu
      exact hs
  | vault env c v hc =>
    refine PayoutVault.invoke_pool (PayoutVault.OwnVault net.settlement) ?_ ho hc
    intro _ _ _ _ _ _ _ _ _ _ hs hu
    obtain ⟨_,_,_,-,-,-,-,-,-,-,-,-,-,rfl⟩ := RiskPool.payOut_ok hu
    exact hs
  | oracle | triggerEngine | transfer => exact ho

variable (verify) in
/-- While the vault is paused, no transaction but its admin's `unpause` makes it pay. -/
theorem next_rests (ha : w.vault.admin=some g.vaultAdmin) (ht : w.vault.token=some g.token)
    (hp : PayoutVault.isPaused w.vault=true) (hr : ¬Resumes g a) :
    let w' := (machine T verify net).next w a
    PayoutVault.Rests w.vault w'.vault ∧
      PayoutVault.Sends T g.token net.vault w.vault w'.vault (sendings T net w a) := by
  intro w'
  rcases next_vault T verify net w a with ⟨env,c,v,he,hv,hc⟩ | ⟨hsame,hnone⟩
  · rw [show w'.vault=v.vault from hv,he]
    refine PayoutVault.invoke_rests (w := w.settlement) ha ht hp (fun hunpause hmem => ?_) hc
    rw [he,hunpause] at hr
    exact hr (List.mem_filter.mp hmem).1
  · rw [show w'.vault=w.vault from hsame,hnone]
    exact ⟨.refl _,.of_claim net.vault rfl⟩

theorem Step.payoutsPaid (h : Step T verify net w a w') (hs : w.riskPool.WellFormed)
    (ho : PayoutVault.OwnVault net.settlement w.riskPool)
    (hp : PayoutVault.isPaused w.vault=true) :
    w'.riskPool.payoutsPaid=w.riskPool.payoutsPaid := by
  cases h with
  | riskPool env c s' l' hc =>
    rw [← settlement_outside] at hc
    exact PayoutVault.riskPool_payoutsPaid hs ho hc
  | policy env c v hc =>
    have hkept := Policy.invoke_pool (fun s => s.WellFormed ∧
      s.payoutsPaid=w.riskPool.payoutsPaid) ?_ ?_ ⟨hs,rfl⟩ hc
    · exact hkept.2
    · intro _ _ _ _ _ _ _ _ _ _ hk hu
      obtain ⟨pf,qf,-,hposts⟩ := RiskPool.collectPremium_posts hu
      refine ⟨hposts.wellFormed hk.1,Eq.trans ?_ hk.2⟩
      funext k
      simp [hposts.payoutsPaid hk.1,RiskPool.Entry.payoutAt]
    · intro _ _ _ _ _ _ _ _ _ _ hk hu
      have hposts := RiskPool.refundPremium_posts hu
      refine ⟨hposts.wellFormed hk.1,Eq.trans ?_ hk.2⟩
      funext k
      simp [hposts.payoutsPaid hk.1,RiskPool.Entry.payoutAt]
  | vault env c v hc =>
    have hpool : v.riskPool=w.riskPool :=
      PayoutVault.invoke_paused_pool (w := w.settlement) hp hc
    exact congrArg RiskPool.State.payoutsPaid hpool
  | oracle | triggerEngine | transfer => rfl

end Steps

section Runs

variable {L : Type} (T : TokenHost L)
  (verify : BytesN 32 → OracleAdapter.ObservationPayload → BytesN 64 → Bool) (net : Network)
  (g : Genesis)

/-- The vault's contracts are sound and the pool knows no other vault. -/
structure Settled (w : World L) : Prop where
  governed : Governed g w
  owing : PayoutVault.Owing net.settlement g.token w.settlement
  own : PayoutVault.OwnVault net.settlement w.riskPool

variable {net g} in
theorem Settled.next {w : World L} {a : Env × Transaction} (h : Settled net g w)
    (hw : Wired T verify net w a) : Settled net g ((machine T verify net).next w a) := by
  let M := machine T verify net
  rcases M.next_cases w a with hn | hn
  · rw [hn]
    exact h
  · obtain ⟨bs,hbs,-⟩ := (settlement_simulates T verify net).step w a _ hn
    have howing := PayoutVault.run_owing T net.settlement h.owing bs
    rw [hbs] at howing
    exact ⟨h.governed.next T verify net a,howing,
      (execute_step T verify net hn).ownVault (hw (by rw [hn]; rfl)) h.own⟩

variable {net g} in
theorem run_rests {v : World L} (h : Settled net g v) (hp : PayoutVault.isPaused v.vault=true)
    (later : List (Env × Transaction)) (hr : ∀ a∈later, ¬Resumes g a)
    (hw : (machine T verify net).along (Wired T verify net) v later) :
    let M := machine T verify net
    let w := M.run v later
    PayoutVault.Rests v.vault w.vault ∧ w.riskPool.payoutsPaid=v.riskPool.payoutsPaid ∧
      PayoutVault.Sends T g.token net.vault v.vault w.vault (M.log (sendings T net) v later) := by
  intro M w
  let R (v w : World L) (log : List (PayoutVault.Sending L)) : Prop :=
    PayoutVault.Rests v.vault w.vault ∧ w.riskPool.payoutsPaid=v.riskPool.payoutsPaid ∧
      PayoutVault.Sends T g.token net.vault v.vault w.vault log
  have hstep {v : World L} {a : Env × Transaction}
      (h : Settled net g v ∧ PayoutVault.isPaused v.vault=true) (hr : ¬Resumes g a) :
      R v (M.next v a) (sendings T net v a) := by
    obtain ⟨hrests,hsends⟩ := next_rests verify h.1.governed.vault h.1.owing.token h.2
      hr
    refine ⟨hrests,?_,hsends⟩
    rcases M.next_cases v a with hn | hn
    · rw [hn]
    · exact (execute_step T verify net hn).payoutsPaid h.1.owing.sound.pools h.1.own h.2
  refine M.run_relation_log (fun u => Settled net g u ∧ PayoutVault.isPaused u.vault=true)
    (fun u a => Wired T verify net u a ∧ ¬Resumes g a) R (sendings T net)
    (fun _ => ⟨.refl _,rfl,.of_claim net.vault rfl⟩) ?_ (fun h ha => ?_) (fun h ha => hstep h ha.2)
    later v ⟨h,hp⟩ ?_
  · intro u v w log more h h'
    exact ⟨h.1.trans h'.1,h'.2.1.trans h.2.1,h.2.2.trans h'.2.2⟩
  · exact ⟨h.1.next T verify ha.1,(hstep h ha.2).1.paused h.2⟩
  · exact (M.along_and v later).mpr ⟨hw,M.along_of_mem later (fun a ha _ => hr a ha) v⟩

variable (l : L) (history later : List (Env × Transaction))

theorem run_settled (hw : (machine T verify net).along (Wired T verify net) (deploy net g l)
    history) : Settled net g ((machine T verify net).run (deploy net g l) history) :=
  (machine T verify net).run_along (Settled net g) (Wired T verify net)
    (fun _ _ h hw => h.next T verify hw) history _
    ⟨⟨rfl,rfl,rfl,rfl,rfl⟩,PayoutVault.deployWorld_owing net.settlement g.poolAdmin
      g.triggerAdmin g.vaultAdmin net.policy g.token l,
      fun _ h => by simp [deploy,RiskPool.deploy] at h⟩ hw

/-- A pause stops payouts and never claims. Once the vault is paused, in a state that the five
contracts can reach with their own wiring, then whatever happens, until the vault's admin unpauses
it, no payout is recorded and no season of the pool pays out; what is owed less to somebody was
sent to them by their claims, and what is still owed is sent to them at anybody's call. -/
theorem paused_pays_claims_only (hT : T.Settles) (hvault : 0≤T.balance l g.token net.vault) :
    let M := machine T verify net
    let start := deploy net g l
    let v := M.run start history
    let w := M.run v later
    M.along (Wired T verify net) start (history++later) →
    PayoutVault.isPaused v.vault=true → (∀ a∈later, ¬Resumes g a) →
    PayoutVault.Rests v.vault w.vault ∧ w.riskPool.payoutsPaid=v.riskPool.payoutsPaid ∧
    PayoutVault.Sends T g.token net.vault v.vault w.vault (M.log (sendings T net) v later) ∧
    ∀ owner, 0 < PayoutVault.readClaim w.vault owner → owner≠net.vault → ∀ env,
      ∃ w', M.step w (env,.call (.vault (.claim owner)))=.ok w' ∧
        T.balance w'.ledger g.token owner=
          T.balance w.ledger g.token owner+PayoutVault.readClaim w.vault owner := by
  intro M start v w hwired hp hr
  obtain ⟨hbefore,hafter⟩ := (M.along_append start history later).mp hwired
  obtain ⟨hrests,hpool,hsends⟩ := run_rests T verify
    (run_settled T verify net g l history hbefore) hp later hr hafter
  obtain ⟨howing,hbacked⟩ := run_settlement hT hvault hwired
  rw [Machine.run_append] at howing hbacked
  exact ⟨hrests,hpool,hsends,fun _ hpos hne => claim_pays hT howing hbacked hpos hne⟩

end Runs

section Sample

/-- The vault is paused after the payouts of the dry season. -/
def pausedSeason : List (Env × Transaction) := drySeason++[(adminAt 1086400,.call (.vault .pause))]

/-- The admin pays and closes the batch, a stranger unpauses, and another one deposits. -/
def attempts : List (Env × Transaction) := [
  (adminAt 1086500,.call (.vault (.payBatch 0 7 1 1 [⟨3,⟨7⟩,50⟩]))),
  (⟨1086500,[⟨3⟩]⟩,.call (.vault .unpause)),
  (RiskPool.plainEnv,.call (.riskPool (.deposit 1 .junior ⟨3⟩ 20))),
  (adminAt 1086600,.call (.vault (.closeBatch 0 7)))]

theorem attempts_wired : (machine TokenHost.ledger OracleAdapter.signedAll plainNet).along
    (Wired TokenHost.ledger OracleAdapter.signedAll plainNet)
    (deploy plainNet plainGenesis RiskPool.plainFunds) (pausedSeason++attempts) := by
  let M := machine TokenHost.ledger OracleAdapter.signedAll plainNet
  rw [pausedSeason,List.append_assoc,M.along_append]
  refine ⟨drySeason_wired,wired trivial,wired ?_,wired trivial,wired trivial,
    wired trivial,trivial⟩
  change Option.map RiskPool.PoolConfig.token _=_
  decide +kernel

theorem paused_pays_claims_only_dry :
    let M := machine TokenHost.ledger OracleAdapter.signedAll plainNet
    let v := M.run (deploy plainNet plainGenesis RiskPool.plainFunds) pausedSeason
    let w := M.run v attempts
    w.vault.payout 3=none ∧ PayoutVault.readClaim w.vault ⟨7⟩=30 ∧
    ∃ w', M.step w (⟨1090000,[]⟩,.call (.vault (.claim ⟨7⟩)))=.ok w' ∧
      TokenHost.ledger.balance w'.ledger plainGenesis.token ⟨7⟩=
        TokenHost.ledger.balance w.ledger plainGenesis.token ⟨7⟩+30 := by
  intro M v w
  have hclaim : PayoutVault.readClaim w.vault ⟨7⟩=30 := by
    decide +kernel
  have hpos : 0 < PayoutVault.readClaim w.vault ⟨7⟩ := by
    rw [hclaim]; decide
  have hkept : ∀ a∈attempts, ¬Resumes plainGenesis a := by
    simp [attempts,Resumes,plainGenesis]
  have h := paused_pays_claims_only TokenHost.ledger OracleAdapter.signedAll plainNet plainGenesis
    RiskPool.plainFunds pausedSeason attempts TokenHost.ledger_settles (by decide) attempts_wired
    (by decide +kernel) hkept
  obtain ⟨hrests,-,-,hsent⟩ := h
  have hnone : v.vault.payout 3=none := by
    decide +kernel
  obtain ⟨w',hstep,hpaid⟩ := hsent ⟨7⟩ hpos (by decide) ⟨1090000,[]⟩
  change _=_+PayoutVault.readClaim w.vault ⟨7⟩ at hpaid
  rw [hclaim] at hpaid
  refine ⟨?_,hclaim,w',hstep,?_⟩
  · have hsame : w.vault.payout=v.vault.payout := by
      with_reducible exact hrests.payout
    rw [hsame]
    exact hnone
  · with_reducible exact hpaid

end Sample

end Mvua.Protocol
