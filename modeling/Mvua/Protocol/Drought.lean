import Mvua.PayoutVault.Progress
import Mvua.Protocol.Evidence
import Mvua.Protocol.Solvency
import Mvua.TriggerEngine.Evaluation

namespace Mvua.Protocol

open PayoutVault (PayoutEntry owed owedTo share readBatch readClaim)

section Droughts

variable {L : Type} (net : Network) (g : Genesis)

/-- What a batch of payouts asks of the state, whether its window is final or not: the pool is
wired to the vault and its season pays, with reserves for all entries; the vault takes batches for
the window; no entry was paid before; and every sum fits its type. -/
structure Fundable (w : World L) (i n p z : Nat) (severity : Bps) (entries : List PayoutEntry) :
    Prop where
  vault : w.riskPool.payoutVault=some net.vault
  season : ∃ y, w.riskPool.season (p,z)=some y ∧ (y.state=.active ∨ y.state=.closed) ∧
    y.payoutsPaid+owed severity entries<2^127
  reserves : owed severity entries≤(w.riskPool.book p).reserves
  unpaused : PayoutVault.isPaused w.vault=false
  incomplete : (readBatch w.vault i n).state≠.complete
  size : 0<entries.length ∧ entries.length≤ PayoutVault.maxBatch
  coverage : ∀ entry∈entries, 0<entry.coverage ∧ entry.coverage*(severity : Int)<2^127
  unpaid : ∀ entry∈entries, w.vault.payout entry.policyId=none
  distinct : (entries.map PayoutEntry.policyId).Nodup
  claims : ∀ entry∈entries, readClaim w.vault entry.owner+owed severity entries<2^127
  disbursed : (readBatch w.vault i n).totalDisbursed+owed severity entries<2^127
  counted : (readBatch w.vault i n).policiesPaid+entries.length<2^32

/-- The three calls that settle a window: anyone evaluates it, the admin of the engine makes it
final, and the admin of the vault orders the batch. -/
def settleWindow (i n p z t1 t2 t3 : Nat) (entries : List PayoutEntry) :
    List (Env × Transaction) := [
  (⟨t1,[]⟩,.call (.triggerEngine (.evaluate i n))),
  (⟨t2,[g.triggerAdmin]⟩,.call (.triggerEngine (.finalize i n))),
  (⟨t3,[g.vaultAdmin]⟩,.call (.vault (.payBatch i n p z entries)))]

end Droughts

section Steps

variable {L : Type} {T : TokenHost L}
  {verify : BytesN 32 → OracleAdapter.ObservationPayload → BytesN 64 → Bool} {net : Network}
  {g : Genesis} {w : World L} {i n p z : Nat} {severity : Bps} {entries : List PayoutEntry}

theorem mem_outside_of {a : Address} (hout : a∉net.contracts) (t : Nat) :
    a∈(net.outside ⟨t,[a]⟩).signers := by
  simp [Network.outside,hout]

/-- A batch that is fundable is ready once nothing but the engine has moved. -/
theorem Fundable.ready (h : Fundable net w i n p z severity entries)
    (howing : PayoutVault.Owing net.settlement g.token w.settlement)
    (hfunded : Policy.Funded T net.market w.market) (hdisbursing : PayoutVault.Disbursing w.vault)
    {s : TriggerEngine.State} (hs : s.Sound) :
    let v : PayoutVault.World L := { w.settlement with triggerEngine := s }
    PayoutVault.Ready T net.settlement ⟨v,readBatch w.vault i n,0⟩ p z severity entries where
  sound := ⟨howing.sound.pools,howing.sound.uncommitted,hs,howing.sound.poolRef,
    howing.sound.triggerRef⟩
  bounded := hfunded.bounded
  covers := hfunded.covers
  vault := h.vault
  season := h.season
  reserves := h.reserves
  coverage := h.coverage
  unpaid := h.unpaid
  distinct := h.distinct
  claims entry he := ⟨howing.nonneg entry.owner,h.claims entry he⟩
  disbursed := ⟨hdisbursing (i,n),h.disbursed⟩
  counted := by
    have hsize := h.size.2
    refine ⟨h.counted,?_⟩
    change 0+entries.length<2^32
    unfold PayoutVault.maxBatch at hsize
    omega

theorem Step.disbursing {w' : World L} {a : Env × Transaction} (h : Step T verify net w a w')
    (hd : PayoutVault.Disbursing w.vault) : PayoutVault.Disbursing w'.vault := by
  cases h with
  | vault env c v hc => exact PayoutVault.invoke_disbursing (w := w.settlement) hd hc
  | riskPool | policy | oracle | triggerEngine | transfer => exact hd

variable (verify) in
theorem settleWindow_pays (hT : T.Settles) (hgoverned : Governed g w)
    (hout : g.triggerAdmin∉net.contracts ∧ g.vaultAdmin∉net.contracts)
    (howing : PayoutVault.Owing net.settlement g.token w.settlement)
    (hfunded : Policy.Funded T net.market w.market) (hdisbursing : PayoutVault.Disbursing w.vault)
    {d : TriggerEngine.IndexDefinition} (hd : w.triggerEngine.indexDef i=some d)
    (hcomplete :
      d.params.windowLen≤(TriggerEngine.readAccumulator w.triggerEngine i n).daysRecorded)
    (hst : TriggerEngine.readState w.triggerEngine i n=.healthy)
    (hv : TriggerEngine.evalIndex d.params (TriggerEngine.readAccumulator w.triggerEngine i n)=
      .ok (true,severity))
    (h : Fundable net w i n p z severity entries) {t1 t2 : Nat} (t3 : Nat)
    (hwait : t1+TriggerEngine.challengeWindowSecs≤t2)
    (hfits : t1+TriggerEngine.challengeWindowSecs<2^64) :
    let w' := (machine T verify net).run w (settleWindow g i n p z t1 t2 t3 entries)
    (∀ entry∈entries, 0 < share severity entry →
      w'.vault.payout entry.policyId=some ⟨entry.owner,share severity entry,t3⟩) ∧
    ∀ owner, readClaim w'.vault owner=readClaim w.vault owner+owedTo severity entries owner := by
  intro w'
  let M := machine T verify net
  let env3 := net.outside ⟨t3,[g.vaultAdmin]⟩
  obtain ⟨s1,s2,hevaluate,hfinalize,hsound,hfinal⟩ := TriggerEngine.window_settles
    (net.outside ⟨t1,[]⟩) (net.outside ⟨t2,[g.triggerAdmin]⟩) howing.sound.triggers
    hgoverned.triggerEngine (mem_outside_of hout.1 t2) hd hcomplete hst hv hfits hwait
  have hself : net.settlement.riskPool∉(env3.invokedBy net.settlement.vault).signers := by
    have hne := net.vault_ne.1
    simp [env3,Env.invokedBy,Network.outside,Network.contracts,Network.settlement,Ne.symm hne]
  have hvault : PayoutVault.requireAdmin env3 w.vault=.ok () :=
    (requireStored_iff hgoverned.vault).mpr (mem_outside_of hout.2 t3)
  obtain ⟨paid,v,hbatch,hpays⟩ := PayoutVault.payBatch_succeeds
    hT hself hvault h.unpaused h.incomplete h.size.1 h.size.2 hfinal
    (h.ready howing hfunded hdisbursing hsound)
  let w1 : World L := { w with triggerEngine := s1 }
  let w2 : World L := { w with triggerEngine := s2 }
  have hbatch' : PayoutVault.invoke T net.settlement env3 w2.settlement
      (.payBatch i n p z entries)=.ok v := (except_map_eq_ok ..).mpr ⟨(paid,v),hbatch,rfl⟩
  have h1 : Step T verify net w _ w1 := .triggerEngine ⟨t1,[]⟩ (.evaluate i n) s1 hevaluate
  have h2 : Step T verify net w1 _ w2 :=
    .triggerEngine ⟨t2,[g.triggerAdmin]⟩ (.finalize i n) s2 hfinalize
  have h3 : Step T verify net w2 _ (w2.withSettlement v) :=
    .vault ⟨t3,[g.vaultAdmin]⟩ (.payBatch i n p z entries) v hbatch'
  have hrun : w'=w2.withSettlement v := by
    change M.next (M.next (M.next w _) _) _=_
    rw [M.next_of_ok h1.executes,M.next_of_ok h2.executes,M.next_of_ok h3.executes]
  rw [hrun]
  exact ⟨hpays.paid,hpays.claims⟩

variable (T verify net w) in
theorem next_engine_frame (env : Env) (c : TriggerEngine.Call) :
    let v := (machine T verify net).next w (env,.call (.triggerEngine c))
    v.riskPool=w.riskPool ∧ v.vault=w.vault := by
  intro v
  rcases (machine T verify net).next_cases w (env,.call (.triggerEngine c)) with hn | hn
  · exact ⟨congrArg World.riskPool hn,congrArg World.vault hn⟩
  · have hv : v=(machine T verify net).next w (env,.call (.triggerEngine c)) := rfl
    rw [← hv] at hn
    generalize v=u at hn
    cases execute_step T verify net hn with
    | triggerEngine => exact ⟨rfl,rfl⟩

theorem settleWindow_wired {token : Address} (ht : w.vault.token=some token)
    (htoken : (w.riskPool.poolConfig p).map RiskPool.PoolConfig.token=some token)
    (t1 t2 t3 : Nat) : (machine T verify net).along (Wired T verify net) w
      (settleWindow g i n p z t1 t2 t3 entries) := by
  refine ⟨fun _ => trivial,fun _ => trivial,fun _ => ?_,trivial⟩
  obtain ⟨hpool,hvault⟩ := next_engine_frame T verify net w
    ⟨t1,[]⟩ (.evaluate i n)
  obtain ⟨hpool',hvault'⟩ := next_engine_frame T verify net
    ((machine T verify net).next w (⟨t1,[]⟩,.call (.triggerEngine (.evaluate i n))))
    ⟨t2,[g.triggerAdmin]⟩ (.finalize i n)
  simp only [Transaction.Wires]
  rw [hpool',hpool,hvault',hvault,htoken,ht]

end Steps

section Runs

variable {L : Type} (T : TokenHost L)
  (verify : BytesN 32 → OracleAdapter.ObservationPayload → BytesN 64 → Bool) (net : Network)
  (g : Genesis) (l : L) (transactions : List (Env × Transaction))

theorem run_disbursing :
    PayoutVault.Disbursing ((machine T verify net).run (deploy net g l) transactions).vault :=
  (machine T verify net).run_invariant (fun w => PayoutVault.Disbursing w.vault)
    (fun _ _ _ hd h => (execute_step T verify net h).disbursing hd) transactions (deploy net g l)
    (fun _ => le_rfl)

/-- A drought is paid. From every state that the five contracts can reach with their own wiring, in
which a window is complete, breached and not yet triggered, three calls settle any batch that is
fundable: every entry whose share is positive is paid that share and no owner is credited anything
else. After that everybody's call sends an owner all that the vault owes. -/
theorem drought_is_paid (hT : T.Settles) (hpool : ∀ token, 0≤T.balance l token net.riskPool)
    (hvault : 0≤T.balance l g.token net.vault)
    (hout : g.triggerAdmin∉net.contracts ∧ g.vaultAdmin∉net.contracts)
    (i n p z : Nat) (severity : Bps) (entries : List PayoutEntry)
    (d : TriggerEngine.IndexDefinition) (t1 t2 t3 : Nat) :
    let M := machine T verify net
    let start := deploy net g l
    let w := M.run start transactions
    let acc := TriggerEngine.readAccumulator w.triggerEngine i n
    M.along (Wired T verify net) start transactions →
    (w.riskPool.poolConfig p).map RiskPool.PoolConfig.token=some g.token →
    w.triggerEngine.indexDef i=some d → d.params.windowLen≤acc.daysRecorded →
    TriggerEngine.readState w.triggerEngine i n=.healthy →
    TriggerEngine.evalIndex d.params acc=.ok (true,severity) →
    Fundable net w i n p z severity entries →
    t1+TriggerEngine.challengeWindowSecs≤t2 → t1+TriggerEngine.challengeWindowSecs<2^64 →
    let w' := M.run w (settleWindow g i n p z t1 t2 t3 entries)
    (∀ entry∈entries, 0 < share severity entry →
      w'.vault.payout entry.policyId=some ⟨entry.owner,share severity entry,t3⟩) ∧
    (∀ owner, readClaim w'.vault owner=readClaim w.vault owner+owedTo severity entries owner) ∧
    ∀ owner, 0 < readClaim w'.vault owner → owner≠net.vault → ∀ env,
      ∃ w'', M.step w' (env,.call (.vault (.claim owner)))=.ok w'' ∧
        T.balance w''.ledger g.token owner=
          T.balance w'.ledger g.token owner+readClaim w'.vault owner := by
  intro M start w acc hwired htoken hd hcomplete hst hv hfundable hwait hfits w'
  have hgoverned := run_governed T verify net g l transactions
  have hfunded := run_market hT hpool hwired
  obtain ⟨howing,-⟩ := run_settlement hT hvault hwired
  have hpays := settleWindow_pays verify hT hgoverned hout howing hfunded
    (run_disbursing T verify net g l transactions) hd hcomplete hst hv hfundable t3 hwait hfits
  refine ⟨hpays.1,hpays.2,fun owner hpos hne => ?_⟩
  have hrun : w'=M.run start (transactions++settleWindow g i n p z t1 t2 t3 entries) :=
    (M.run_append start transactions _).symm
  have hwired' : M.along (Wired T verify net) start
      (transactions++settleWindow g i n p z t1 t2 t3 entries) :=
    (M.along_append start transactions _).mpr
      ⟨hwired,settleWindow_wired howing.token htoken t1 t2 t3⟩
  obtain ⟨howing',hbacked'⟩ := run_settlement hT hvault hwired'
  rw [← hrun] at howing' hbacked'
  exact claim_pays hT howing' hbacked' hpos hne

end Runs

section Sample

/-- The dry season up to its last recorded day. -/
def recordedSeason : List (Env × Transaction) := drySeason.take 20

theorem recordedSeason_wired :
    (machine TokenHost.ledger OracleAdapter.signedAll plainNet).along
      (Wired TokenHost.ledger OracleAdapter.signedAll plainNet)
      (deploy plainNet plainGenesis RiskPool.plainFunds) recordedSeason := by
  have hsplit := List.take_append_drop 20 drySeason
  have hall := drySeason_wired
  rw [← hsplit,Machine.along_append] at hall
  exact hall.1

/-- Both certificates of the dry season are paid, and their owners can have the money sent. -/
theorem drought_is_paid_dry :
    let M := machine TokenHost.ledger OracleAdapter.signedAll plainNet
    let w := M.run (deploy plainNet plainGenesis RiskPool.plainFunds) recordedSeason
    let w' := M.run w (settleWindow plainGenesis 0 7 1 1 1000000 1086400 1086400
      [⟨1,⟨6⟩,60⟩,⟨2,⟨7⟩,30⟩])
    w'.vault.payout 2=some ⟨⟨7⟩,30,1086400⟩ ∧
    readClaim w'.vault ⟨6⟩=readClaim w.vault ⟨6⟩+60 := by
  intro M w w'
  have hdef : w.triggerEngine.indexDef 0=some ⟨0,TriggerEngine.dryIndex⟩ := by decide +kernel
  have hseason : w.riskPool.season (1,1)=some ⟨.active,1000,1100,185,0,0⟩ := by decide +kernel
  have hvault : w.vault.claim ⟨6⟩=none ∧ w.vault.claim ⟨7⟩=none ∧ w.vault.payout 1=none ∧
      w.vault.payout 2=none ∧ w.vault.paused=some false ∧ w.vault.batch (0,7)=none := by
    decide +kernel
  obtain ⟨hclaim6,hclaim7,hpaid1,hpaid2,hpaused,hbatch⟩ := hvault
  have hfundable : Fundable plainNet w 0 7 1 1 10000 [⟨1,⟨6⟩,60⟩,⟨2,⟨7⟩,30⟩] := by
    have hprogress : readBatch w.vault 0 7=⟨0,0,.opened⟩ := by rw [readBatch,hbatch]; rfl
    refine ⟨by decide +kernel,⟨_,hseason,.inl rfl,by decide⟩,by decide +kernel,?_,?_,by decide,
      by decide,?_,by decide,?_,?_,?_⟩
    · rw [PayoutVault.isPaused,hpaused]
      rfl
    · rw [hprogress]
      decide
    · simp [hpaid1,hpaid2]
    · have howed : owed 10000 [⟨1,⟨6⟩,60⟩,⟨2,⟨7⟩,30⟩]=90 := by decide
      simp [readClaim,hclaim6,hclaim7,howed]
    · rw [hprogress]
      decide
    · rw [hprogress]
      decide
  have h := drought_is_paid TokenHost.ledger OracleAdapter.signedAll plainNet plainGenesis
    RiskPool.plainFunds recordedSeason TokenHost.ledger_settles (fun _ => le_rfl) (by decide)
    (by decide) 0 7 1 1 10000 [⟨1,⟨6⟩,60⟩,⟨2,⟨7⟩,30⟩] ⟨0,TriggerEngine.dryIndex⟩ 1000000 1086400
    1086400 recordedSeason_wired
  obtain ⟨hpaid,hclaims,-⟩ := h (by decide +kernel) (by with_reducible exact hdef)
    (by decide +kernel) (by decide +kernel) (by decide +kernel)
    (by with_reducible exact hfundable) (by decide) (by decide)
  have hsecond := hpaid ⟨2,⟨7⟩,30⟩ (by simp) (by decide)
  have hfirst := hclaims ⟨6⟩
  have hdue : owedTo 10000 [⟨1,⟨6⟩,60⟩,⟨2,⟨7⟩,30⟩] ⟨6⟩=60 := by decide
  have hshare : share 10000 ⟨2,⟨7⟩,30⟩=30 := by decide
  rw [hdue] at hfirst
  rw [hshare] at hsecond
  refine ⟨?_,?_⟩
  · with_reducible exact hsecond
  · with_reducible exact hfirst

end Sample

end Mvua.Protocol
