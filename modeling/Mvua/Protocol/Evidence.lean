import Mvua.OracleAdapter.Attestation
import Mvua.Protocol.Governance

namespace Mvua.Protocol

/-- A day as it was recorded on a window: who signed, what the oracle adapter held, and which
contract was asked for the value, if any. -/
structure Recording where
  env : Env
  oracle : OracleAdapter.State
  asked : Option Address
  day : Nat
  value : Int

section Recordings

variable {L : Type} (verify : BytesN 32 → OracleAdapter.ObservationPayload → BytesN 64 → Bool)
  (net : Network)

def engineCalls (w : World L) : Env × Transaction → List (Env × TriggerEngine.Call)
  | (env,.call (.triggerEngine c)) =>
      [(net.outside env,Feed.linked net.oracle (net.outside env) w.oracle c)]
  | _ => []

/-- The days that a transaction records on a window. -/
def recordings (i n : Nat) (w : World L) (a : Env × Transaction) : List Recording :=
  (engineCalls net w a).flatMap fun b =>
    (TriggerEngine.recorded i n w.triggerEngine b).map fun x =>
      ⟨b.1,w.oracle,b.2.asks w.triggerEngine,x.1,x.2⟩

/-- The admin of the engine signed for the value, and if the oracle adapter was asked for it, then
it is attested there. -/
structure Recording.Vouched (g : Genesis) (params : TriggerEngine.IndexParams) (x : Recording) :
    Prop where
  signed : g.triggerAdmin∈x.env.signers
  attested : x.asked=some net.oracle →
    OracleAdapter.Attested verify x.env x.oracle params.region params.metric x.value

/-- The engine's account of a window, with what vouches for each day of it. -/
structure Evident (g : Genesis) (i n : Nat) (w : World L) (log : List Recording) : Prop where
  governed : Governed g w
  ring : w.oracle.Ring
  signed : w.oracle.Signed verify
  engine : w.triggerEngine.Sound
  accumulated : TriggerEngine.Accumulated w.triggerEngine i n (log.map fun x => (x.day,x.value))
  vouched : ∀ x∈log, ∃ d, w.triggerEngine.indexDef i=some d ∧ x.Vouched verify net g d.params

/-- What a payout rests on: an entry of a batch that the admin of the vault signed, and the
severity of a window that is final. -/
structure Grounds (g : Genesis) (w : World L) (history : List (Env × Transaction)) (id : Nat)
    (record : PayoutVault.PayoutRecord) (i n : Nat) (coverage : Int) (severity : Bps) : Prop where
  ordered : ∃ env p z entries, (env,.call (.vault (.payBatch i n p z entries)))∈history ∧
    g.vaultAdmin∈env.signers ∧ ⟨id,record.owner,coverage⟩∈entries
  final : ∃ t, TriggerEngine.readState w.triggerEngine i n=.finalized t severity
  share : record.amount=(coverage*severity).tdiv 10000
  positive : 0<record.amount
  bounded : record.amount≤coverage

structure Grounded (g : Genesis) (w : World L) (history : List (Env × Transaction)) : Prop where
  governed : Governed g w
  engine : w.triggerEngine.Sound
  paid : ∀ id record, w.vault.payout id=some record →
    ∃ i n coverage severity, Grounds g w history id record i n coverage severity

end Recordings

section Steps

variable {L : Type} {T : TokenHost L}
  {verify : BytesN 32 → OracleAdapter.ObservationPayload → BytesN 64 → Bool} {net : Network}
  {g : Genesis} {i n : Nat} {w w' : World L} {a : Env × Transaction}

theorem Step.engine_kept (h : Step T verify net w a w') (hnone : engineCalls net w a=[]) :
    w'.triggerEngine=w.triggerEngine := by
  cases h with
  | triggerEngine => simp [engineCalls] at hnone
  | vault env c v hc => exact vault_engine hc
  | riskPool | policy | oracle | transfer => rfl

theorem next_engine : ((machine T verify net).next w a).triggerEngine=
    TriggerEngine.machine.run w.triggerEngine (engineCalls net w a) := by
  let M := machine T verify net
  have other (hnone : engineCalls net w a=[]) : (M.next w a).triggerEngine=w.triggerEngine := by
    rcases M.next_cases w a with hn | hn
    · rw [hn]
    · exact (execute_step T verify net hn).engine_kept hnone
  obtain ⟨env,a⟩ := a
  cases a with
  | transfer => exact other rfl
  | call c =>
    cases c with
    | riskPool | policy | oracle | vault => exact other rfl
    | triggerEngine c =>
      simp only [Machine.next,machine,invoke,engineCalls,Machine.run_cons,Machine.run_nil,
        TriggerEngine.machine]
      rcases TriggerEngine.invoke (net.outside env) w.triggerEngine
        (Feed.linked net.oracle (net.outside env) w.oracle c) with (e | t) | s <;> rfl

theorem next_engine_sound (hs : w.triggerEngine.Sound) (a : Env × Transaction) :
    ((machine T verify net).next w a).triggerEngine.Sound := by
  rw [next_engine]
  exact TriggerEngine.run_sound hs _

/-- The log of a window follows what the engine saw. -/
theorem next_recorded {series : List (Nat × Int)} (hs : w.triggerEngine.Sound)
    (h : TriggerEngine.Accumulated w.triggerEngine i n series) :
    TriggerEngine.Accumulated ((machine T verify net).next w a).triggerEngine i n
      (series++(recordings net i n w a).map fun x => (x.day,x.value)) := by
  rw [next_engine]
  have hmap : (recordings net i n w a).map (fun x => (x.day,x.value))=
      (engineCalls net w a).flatMap (TriggerEngine.recorded i n w.triggerEngine) := by
    simp only [recordings,List.map_flatMap,List.map_map,Function.comp_def,List.map_id']
  rw [hmap]
  obtain ⟨env,a⟩ := a
  cases a with
  | transfer => simpa [engineCalls] using h
  | call c =>
    cases c with
    | riskPool | policy | oracle | vault => simpa [engineCalls] using h
    | triggerEngine c =>
      rw [engineCalls,List.flatMap_singleton]
      exact TriggerEngine.next_accumulated hs h _

theorem Step.oracle_kept (h : Step T verify net w a w') (hr : w.oracle.Ring)
    (hs : w.oracle.Signed verify) : w'.oracle.Ring ∧ w'.oracle.Signed verify := by
  cases h with
  | oracle env c s' hc =>
    exact ⟨OracleAdapter.invoke_ring verify hr hc,OracleAdapter.invoke_signed hs hc⟩
  | riskPool | policy | triggerEngine | vault | transfer => exact ⟨hr,hs⟩

/-- A day is recorded of an index on record, as the admin allowed; a value that the oracle adapter
was asked for is its median. -/
theorem recordings_answered {x : Recording} (hx : x∈recordings net i n w a) :
    ∃ d, w.triggerEngine.indexDef i=some d ∧
      TriggerEngine.requireAdmin x.env w.triggerEngine=.ok () ∧ x.oracle=w.oracle ∧
      (x.asked=some net.oracle →
        OracleAdapter.median x.env x.oracle d.params.region d.params.metric=.ok x.value) := by
  obtain ⟨b,hb,hx⟩ := List.mem_flatMap.mp hx
  obtain ⟨y,hy,rfl⟩ := List.mem_map.mp hx
  obtain ⟨env,a⟩ := a
  cases a with
  | transfer => simp [engineCalls] at hb
  | call c =>
    cases c with
    | riskPool | policy | oracle | vault => simp [engineCalls] at hb
    | triggerEngine c =>
      rw [engineCalls,List.mem_singleton] at hb
      subst hb
      obtain ⟨d,hd,hadmin,hanswer⟩ := TriggerEngine.mem_recorded hy
      refine ⟨d,hd,hadmin,rfl,fun hasked => ?_⟩
      obtain ⟨day,oracle,hc,hvalue⟩ := hanswer _ hasked
      cases c with
      | recordDayFromOracle j v day' elsewhere =>
        simp only [Feed.linked,TriggerEngine.Call.recordDayFromOracle.injEq] at hc
        obtain ⟨-,-,-,rfl⟩ := hc
        simpa only [Feed.answer,if_true,subcall_eq_ok] using hvalue
      | createIndex | recordDay | setOracle | evaluate | finalize => cases hc

/-- A day that a transaction records is vouched for. -/
theorem recordings_vouched {log : List Recording} (h : Evident verify net g i n w log)
    {x : Recording} (hx : x∈recordings net i n w a) :
    ∃ d, w.triggerEngine.indexDef i=some d ∧ x.Vouched verify net g d.params := by
  obtain ⟨d,hd,hadmin,horacle,hanswer⟩ := recordings_answered hx
  refine ⟨d,hd,(requireStored_iff h.governed.triggerEngine).mp hadmin,fun hasked => ?_⟩
  have hvalue := hanswer hasked
  rw [horacle] at hvalue ⊢
  exact OracleAdapter.median_attested h.ring h.signed hvalue

theorem next_indexDef (hs : w.triggerEngine.Sound) {d : TriggerEngine.IndexDefinition}
    (hd : w.triggerEngine.indexDef i=some d) :
    ((machine T verify net).next w a).triggerEngine.indexDef i=some d := by
  rw [next_engine]
  exact (TriggerEngine.run_keepsAll hs _ i 0).indexDef d hd

theorem Evident.next {log : List Recording} (h : Evident verify net g i n w log)
    (a : Env × Transaction) :
    Evident verify net g i n ((machine T verify net).next w a) (log++recordings net i n w a) := by
  let M := machine T verify net
  have horacle : (M.next w a).oracle.Ring ∧ (M.next w a).oracle.Signed verify := by
    rcases M.next_cases w a with hn | hn
    · rw [hn]
      exact ⟨h.ring,h.signed⟩
    · exact (execute_step T verify net hn).oracle_kept h.ring h.signed
  refine ⟨h.governed.next T verify net a,horacle.1,horacle.2,next_engine_sound h.engine a,?_,
    fun x hx => ?_⟩
  · rw [List.map_append]
    exact next_recorded h.engine h.accumulated
  · rcases List.mem_append.mp hx with hx | hx
    · obtain ⟨d,hd,hv⟩ := h.vouched x hx
      exact ⟨d,next_indexDef h.engine hd,hv⟩
    · obtain ⟨d,hd,hv⟩ := recordings_vouched h hx
      exact ⟨d,next_indexDef h.engine hd,hv⟩

/-- Grounds are for good. -/
theorem Grounds.later {history : List (Env × Transaction)} {id : Nat}
    {record : PayoutVault.PayoutRecord} {coverage : Int} {severity : Bps}
    (h : Grounds g w history id record i n coverage severity) (hs : w.triggerEngine.Sound)
    (a : Env × Transaction) : Grounds g ((machine T verify net).next w a) (history++[a]) id record
      i n coverage severity := by
  obtain ⟨env,p,z,entries,hmem,hsigned,hentry⟩ := h.ordered
  obtain ⟨t,ht⟩ := h.final
  have hstatus := (TriggerEngine.run_keepsAll hs (engineCalls net w a) i n).status
  have hnext : ((machine T verify net).next w a).triggerEngine=_ := next_engine
  rw [ht,← hnext] at hstatus
  exact ⟨⟨env,p,z,entries,List.mem_append_left _ hmem,hsigned,hentry⟩,
    ⟨t,TriggerEngine.finalized_stays hstatus⟩,h.share,h.positive,h.bounded⟩

theorem Grounded.next {history : List (Env × Transaction)} (h : Grounded g w history)
    (a : Env × Transaction) :
    Grounded g ((machine T verify net).next w a) (history++[a]) := by
  let M := machine T verify net
  have old : ∀ id record, w.vault.payout id=some record → ∃ i n coverage severity,
      Grounds g (M.next w a) (history++[a]) id record i n coverage severity := by
    intro id record hid
    obtain ⟨i,n,coverage,severity,hgrounds⟩ := h.paid id record hid
    exact ⟨i,n,coverage,severity,hgrounds.later h.engine a⟩
  refine ⟨h.governed.next T verify net a,next_engine_sound h.engine a,?_⟩
  rcases M.next_cases w a with hn | hn
  · rw [hn] at old ⊢
    exact old
  · generalize M.next w a=w' at hn old
    cases execute_step T verify net hn with
    | riskPool | policy | oracle | triggerEngine | transfer => exact old
    | vault env c v hc =>
      intro id record hid
      rcases PayoutVault.invoke_paid (w := w.settlement) h.governed.vault hc with hsame |
        ⟨hsigned,i,n,p,z,entries,paid,rfl,hpay⟩
      · exact old id record (hsame ▸ hid)
      · rcases PayoutVault.payBatch_paid hpay id record hid with hbefore |
          ⟨coverage,hentry,hcov,hpos,hamount⟩
        · exact old id record hbefore
        · obtain ⟨t,severity,ht,hshare,hle⟩ := PayoutVault.payoutFor_ok h.engine hcov hamount
          refine ⟨i,n,coverage,severity,⟨env,p,z,entries,by simp,?_,hentry⟩,⟨t,?_⟩,hshare,hpos,
            hle⟩
          · exact (List.mem_filter.mp hsigned).1
          · rw [← ht]
            exact congrArg (TriggerEngine.readState · i n) (vault_engine hc)

end Steps

section Runs

variable {L : Type} (T : TokenHost L)
  (verify : BytesN 32 → OracleAdapter.ObservationPayload → BytesN 64 → Bool) (net : Network)
  (g : Genesis) (l : L) (transactions : List (Env × Transaction))

theorem run_evident (i n : Nat) : let M := machine T verify net
    Evident verify net g i n (M.run (deploy net g l) transactions)
      (M.log (recordings net i n) (deploy net g l) transactions) :=
  (machine T verify net).run_log (Evident verify net g i n) (recordings net i n)
    (fun _ a _ h => h.next a) transactions (deploy net g l) []
    ⟨⟨rfl,rfl,rfl,rfl,rfl⟩,OracleAdapter.deploy_ring g.oracleAdmin,
      OracleAdapter.deploy_signed g.oracleAdmin,TriggerEngine.deploy_sound g.triggerAdmin,
      TriggerEngine.deploy_accumulated g.triggerAdmin i n,List.forall_mem_nil _⟩

theorem run_grounded :
    Grounded g ((machine T verify net).run (deploy net g l) transactions) transactions := by
  let M := machine T verify net
  have h := M.run_log (Grounded g) (fun _ a => [a]) (fun _ a _ h => h.next a) transactions
    (deploy net g l) [] ⟨⟨rfl,rfl,rfl,rfl,rfl⟩,TriggerEngine.deploy_sound g.triggerAdmin,
      fun _ _ h => absurd h (Option.some_ne_none _).symm⟩
  rwa [List.nil_append,M.log_calls] at h

/-- Every payout of every run rests on evidence. The admin of the vault signed a batch with its
entry; the window of the batch is final, and its severity is what the index makes of exactly the
days recorded on that window, one for each day of its length and in order; and every such value
was signed by the admin of the engine, who either entered it or took it from the oracle. A value
of the oracle adapter lies between fresh, unchallenged observations, signed by at least two
registered publishers. -/
theorem payouts_rest_on_evidence (id : Nat) (record : PayoutVault.PayoutRecord) :
    let M := machine T verify net
    let start := deploy net g l
    let w := M.run start transactions
    w.vault.payout id=some record →
    ∃ i n d coverage severity, Grounds g w transactions id record i n coverage severity ∧
      w.triggerEngine.indexDef i=some d ∧
      let days := M.log (recordings net i n) start transactions
      days.length=d.params.windowLen ∧ (days.map Recording.day).Pairwise (·<·) ∧
      TriggerEngine.evalIndex d.params
        (TriggerEngine.accumulate d.params (days.map Recording.value))=.ok (true,severity) ∧
      ∀ x∈days, x.Vouched verify net g d.params := by
  intro M start w hid
  have hgrounded := run_grounded T verify net g l transactions
  obtain ⟨i,n,coverage,severity,hgrounds⟩ := hgrounded.paid id record hid
  obtain ⟨t,ht⟩ := hgrounds.final
  have hevident := run_evident T verify net g l transactions i n
  obtain ⟨d,severity',hd,hcomplete,hverdict,hsame⟩ :=
    hgrounded.engine.locked i n (by rw [ht]; simp)
  obtain rfl := hsame t severity ht
  have hacc := hevident.accumulated.eq_accumulate hd
  have hdays := hevident.accumulated.days
  rw [List.length_map] at hdays
  rw [List.map_map] at hacc
  refine ⟨i,n,d,coverage,severity,hgrounds,hd,hdays.symm.trans hcomplete,?_,?_,?_⟩
  · have horder := hevident.accumulated.order
    rwa [List.map_map] at horder
  · rw [hacc] at hverdict
    exact hverdict
  · intro x hx
    obtain ⟨d',hd',hvouched⟩ := hevident.vouched x hx
    rw [hd,Option.some.injEq] at hd'
    exact hd' ▸ hvouched

end Runs

section Sample

/-- The payout of certificate 1: the two days on its window are vouched for. -/
theorem payouts_rest_on_evidence_dry :
    let M := machine TokenHost.ledger OracleAdapter.signedAll plainNet
    let start := deploy plainNet plainGenesis RiskPool.plainFunds
    let w := M.run start drySeason
    w.vault.payout 1=some ⟨⟨6⟩,60,1086400⟩ ∧
    ∃ i n coverage severity, ∃ d : TriggerEngine.IndexDefinition,
      Grounds plainGenesis w drySeason 1 ⟨⟨6⟩,60,1086400⟩ i n coverage severity ∧
      ∀ x∈M.log (recordings plainNet i n) start drySeason,
        x.Vouched OracleAdapter.signedAll plainNet plainGenesis d.params := by
  intro M start w
  have hpaid : w.vault.payout 1=some ⟨⟨6⟩,60,1086400⟩ := by
    decide +kernel
  have h := payouts_rest_on_evidence TokenHost.ledger OracleAdapter.signedAll plainNet plainGenesis
    RiskPool.plainFunds drySeason 1 ⟨⟨6⟩,60,1086400⟩
  obtain ⟨i,n,d,coverage,severity,hgrounds,-,-,-,-,hvouched⟩ := h (by with_reducible exact hpaid)
  refine ⟨hpaid,i,n,coverage,severity,d,?_,?_⟩
  · with_reducible exact hgrounds
  · with_reducible exact hvouched

end Sample

end Mvua.Protocol
