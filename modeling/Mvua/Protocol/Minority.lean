import Mvua.Protocol.Evidence
import Mvua.TriggerEngine.Monotone

namespace Mvua.Protocol

def Recording.counted (params : TriggerEngine.IndexParams) (x : Recording) :
    List OracleAdapter.Observation :=
  OracleAdapter.counted x.env x.oracle params.region params.metric OracleAdapter.stalenessSecs

/-- The value of a day was asked from the oracle adapter, where the faulty publishers had less than
half of what counted, and the others reported values between two bounds. -/
structure Recording.Outnumbered (net : Network) (faulty : BytesN 32 → Bool)
    (low high : Recording → Int) (params : TriggerEngine.IndexParams) (x : Recording) : Prop where
  asked : x.asked=some net.oracle
  minority : 2*(x.counted params).countP (fun o => faulty o.publisher)<(x.counted params).length
  others : ∀ o∈x.counted params, faulty o.publisher=false → low x ≤ o.value ∧ o.value≤high x

instance {net : Network} {faulty : BytesN 32 → Bool} {low high : Recording → Int}
    {params : TriggerEngine.IndexParams} {x : Recording} :
    Decidable (x.Outnumbered net faulty low high params) :=
  decidable_of_iff (x.asked=some net.oracle ∧
    2*(x.counted params).countP (fun o => faulty o.publisher)<(x.counted params).length ∧
    ∀ o∈x.counted params, faulty o.publisher=false → low x ≤ o.value ∧ o.value≤high x)
    ⟨fun h => ⟨h.1,h.2.1,h.2.2⟩,fun h => ⟨h.asked,h.minority,h.others⟩⟩

/-- A value that the oracle adapter was asked for is its median. -/
structure Recording.Answered (net : Network) (params : TriggerEngine.IndexParams) (x : Recording) :
    Prop where
  ring : x.oracle.Ring
  median : x.asked=some net.oracle →
    OracleAdapter.median x.env x.oracle params.region params.metric=.ok x.value

theorem Recording.Outnumbered.between {net : Network} {faulty : BytesN 32 → Bool}
    {low high : Recording → Int} {params : TriggerEngine.IndexParams} {x : Recording}
    (h : x.Outnumbered net faulty low high params) (ha : x.Answered net params) :
    low x≤x.value ∧ x.value≤high x :=
  OracleAdapter.median_between ha.ring (ha.median h.asked) h.minority h.others

/-- A verdict on what was recorded lies between the verdicts on lower and on higher values. -/
theorem Evident.verdict_between {L : Type}
    {verify : BytesN 32 → OracleAdapter.ObservationPayload → BytesN 64 → Bool} {net : Network}
    {g : Genesis} {i n : Nat} {w : World L} {days : List Recording}
    {d : TriggerEngine.IndexDefinition} {low high : Recording → Int} {dry wet breached : Bool}
    {most least severity : Bps} (h : Evident verify net g i n w days)
    (hd : w.triggerEngine.indexDef i=some d) (hdays : ∀ x∈days, low x≤x.value ∧ x.value≤high x)
    (hlow : TriggerEngine.evalIndex d.params
      (TriggerEngine.accumulate d.params (days.map low))=.ok (dry,most))
    (hhigh : TriggerEngine.evalIndex d.params
      (TriggerEngine.accumulate d.params (days.map high))=.ok (wet,least))
    (hv : TriggerEngine.evalIndex d.params
      (TriggerEngine.readAccumulator w.triggerEngine i n)=.ok (breached,severity)) :
    (breached=true → dry=true) ∧ (wet=true → breached=true) ∧
      least ≤ severity ∧ severity ≤ most := by
  have hvalid := h.engine.valid i d hd
  have hacc := h.accumulated.eq_accumulate hd
  rw [List.map_map] at hacc
  rw [hacc] at hv
  have ordered {f f' : Recording → Int} (hle : ∀ x∈days, f x≤f' x) :
      d.params.depth (TriggerEngine.accumulate d.params (days.map f'))≤
        d.params.depth (TriggerEngine.accumulate d.params (days.map f)) := by
    apply TriggerEngine.accumulate_depth_mono hvalid
    rw [List.forall₂_map_left_iff,List.forall₂_map_right_iff,List.forall₂_same]
    exact hle
  obtain ⟨hdry,hmost⟩ := TriggerEngine.evalIndex_mono hvalid
    (ordered fun x hx => (hdays x hx).1) hlow hv
  obtain ⟨hwet,hleast⟩ := TriggerEngine.evalIndex_mono hvalid
    (ordered fun x hx => (hdays x hx).2) hv hhigh
  exact ⟨hdry,hwet,hleast,hmost⟩

section Runs

variable {L : Type} (T : TokenHost L)
  (verify : BytesN 32 → OracleAdapter.ObservationPayload → BytesN 64 → Bool) (net : Network)
  (g : Genesis) (l : L) (transactions : List (Env × Transaction))

theorem run_answered (i n : Nat) {d : TriggerEngine.IndexDefinition} :
    let M := machine T verify net
    let start := deploy net g l
    (M.run start transactions).triggerEngine.indexDef i=some d →
    ∀ x∈M.log (recordings net i n) start transactions, x.Answered net d.params := by
  intro M start hd
  let I (w : World L) (log : List Recording) : Prop := Evident verify net g i n w log ∧
    ∀ x∈log, ∃ d, w.triggerEngine.indexDef i=some d ∧ x.Answered net d.params
  have h : I (M.run start transactions) (M.log (recordings net i n) start transactions) := by
    refine M.run_log I (recordings net i n) (fun w a log hI => ?_) transactions start []
      ⟨run_evident T verify net g l [] i n,List.forall_mem_nil _⟩
    obtain ⟨hevident,hlog⟩ := hI
    refine ⟨hevident.next a,fun x hx => ?_⟩
    rcases List.mem_append.mp hx with hx | hx
    · obtain ⟨d,hd,hx⟩ := hlog x hx
      exact ⟨d,next_indexDef hevident.engine hd,hx⟩
    · obtain ⟨d,hd,-,horacle,hmedian⟩ := recordings_answered hx
      exact ⟨d,next_indexDef hevident.engine hd,horacle ▸ hevident.ring,hmedian⟩
  intro x hx
  obtain ⟨d',hd',hanswered⟩ := h.2 x hx
  rw [hd,Option.some.injEq] at hd'
  exact hd' ▸ hanswered

/-- A dishonest minority moves no payout beyond what the honest readings justify. If, whenever a
day was recorded on a window, the faulty publishers had less than half of the observations that
counted, then the window is triggered only if the lowest honest readings would trigger it, it does
not stay healthy if the highest would, its severity lies between the two, and so does every payout
that rests on it. -/
theorem minority_moves_no_payout (faulty : BytesN 32 → Bool) (low high : Recording → Int)
    (i n : Nat) (d : TriggerEngine.IndexDefinition) (dry wet : Bool) (most least : Bps) :
    let M := machine T verify net
    let start := deploy net g l
    let w := M.run start transactions
    let days := M.log (recordings net i n) start transactions
    let verdict (f : Recording → Int) := TriggerEngine.evalIndex d.params
      (TriggerEngine.accumulate d.params (days.map f))
    w.triggerEngine.indexDef i=some d →
    (∀ x∈days, x.Outnumbered net faulty low high d.params) →
    verdict low=.ok (dry,most) → verdict high=.ok (wet,least) →
    (TriggerEngine.readState w.triggerEngine i n≠.healthy → dry=true) ∧
    (wet=true → ∀ env status s',
      TriggerEngine.evaluate env w.triggerEngine i n=.ok (status,s') → status≠.healthy) ∧
    (∀ t severity, TriggerEngine.readState w.triggerEngine i n=.finalized t severity →
      least ≤ severity ∧ severity ≤ most) ∧
    ∀ id record coverage severity, Grounds g w transactions id record i n coverage severity →
      (coverage*least).tdiv 10000≤ record.amount ∧ record.amount≤(coverage*most).tdiv 10000 := by
  intro M start w days verdict hd hdays hlow hhigh
  have hevident := run_evident T verify net g l transactions i n
  have hs : w.triggerEngine.Sound := hevident.engine
  have hanswered := run_answered T verify net g l transactions i n hd
  have hverdict {b : Bool} {severity : Bps} (hv : TriggerEngine.evalIndex d.params
      (TriggerEngine.readAccumulator w.triggerEngine i n)=.ok (b,severity)) :=
    hevident.verdict_between hd (fun x hx => (hdays x hx).between (hanswered x hx)) hlow hhigh hv
  have hfinal : ∀ t severity, TriggerEngine.readState w.triggerEngine i n=.finalized t severity →
      least ≤ severity ∧ severity ≤ most := by
    intro t severity ht
    obtain ⟨d',severity',hd',-,hv,hsame⟩ := hs.locked i n (by rw [ht]; simp)
    rw [hd,Option.some.injEq] at hd'
    subst d'
    rw [← hsame t severity ht] at hv
    exact (hverdict hv).2.2
  refine ⟨fun hstate => ?_,fun hwet env status s' heval => ?_,hfinal,?_⟩
  · obtain ⟨d',severity,hd',-,hv,-⟩ := hs.locked i n hstate
    rw [hd,Option.some.injEq] at hd'
    subst d'
    exact (hverdict hv).1 rfl
  · obtain ⟨b,severity,hv,hstatus⟩ := TriggerEngine.evaluate_verdict hs hd heval
    exact hstatus.mpr ((hverdict hv).2.1 hwet)
  · intro id record coverage severity hgrounds
    obtain ⟨t,ht⟩ := hgrounds.final
    obtain ⟨hleast,hmost⟩ := hfinal t severity ht
    have hcov : 0≤coverage := (hgrounds.positive.le).trans hgrounds.bounded
    rw [hgrounds.share]
    exact ⟨Int.tdiv_le_tdiv (by omega) (mul_le_mul_of_nonneg_left (by exact_mod_cast hleast) hcov),
      Int.tdiv_le_tdiv (by omega) (mul_le_mul_of_nonneg_left (by exact_mod_cast hmost) hcov)⟩

end Runs

section Sample

/-- Whatever the second publisher reports in the dry season, the others report no rain. -/
theorem minority_moves_no_payout_dry :
    let M := machine TokenHost.ledger OracleAdapter.signedAll plainNet
    let start := deploy plainNet plainGenesis RiskPool.plainFunds
    let w := M.run start drySeason
    (M.log (recordings plainNet 0 7) start drySeason).map Recording.value=[0,0] ∧
    ∀ id record coverage severity,
      Grounds plainGenesis w drySeason id record 0 7 coverage severity →
      record.amount=(coverage*10000).tdiv 10000 := by
  intro M start w
  have h := minority_moves_no_payout TokenHost.ledger OracleAdapter.signedAll plainNet plainGenesis
    RiskPool.plainFunds drySeason (fun p => p=2) (fun _ => 0) (fun _ => 0) 0 7
    ⟨0,TriggerEngine.dryIndex⟩ true true 10000 10000 (by decide +kernel) (by decide +kernel)
    (by decide +kernel) (by decide +kernel)
  refine ⟨by decide +kernel,fun id record coverage severity hgrounds => ?_⟩
  obtain ⟨hleast,hmost⟩ := h.2.2.2 id record coverage severity hgrounds
  exact le_antisymm hmost hleast

end Sample

end Mvua.Protocol
