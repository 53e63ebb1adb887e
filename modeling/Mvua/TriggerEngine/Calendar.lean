import Mvua.TriggerEngine.Accumulation

namespace Mvua.TriggerEngine

/-- What the call records for the window, if anything, is the day after the last recorded one. -/
def NextDay (i w : Nat) (s : State) (a : Env × Call) : Prop :=
  ∀ day value last, recorded i w s a=[(day,value)] → readCursor s i w=some last → day=last+1

section Runs

variable {s : State} {i w : Nat} {series : List (Nat × Int)}

theorem recorded_consecutive_iff (hs : s.Sound) (h : Accumulated s i w series)
    (hc : (series.map Prod.fst).IsChain fun a b => b=a+1) (a : Env × Call) :
    ((series++recorded i w s a).map Prod.fst).IsChain (fun a b => b=a+1) ↔ NextDay i w s a := by
  have silent (hr : recorded i w s a=[]) :
      ((series++recorded i w s a).map Prod.fst).IsChain (fun a b => b=a+1) ↔
        NextDay i w s a := by
    rw [hr,List.append_nil]
    apply iff_of_true hc
    intro day value last he
    rw [hr] at he
    cases he
  obtain ⟨env,c⟩ := a
  cases hok : invoke env s c with
  | error e => exact silent (recorded_of_error hok)
  | ok t =>
    rcases invoke_recorded hs hok i w with ⟨d,day,value,-,-,hr⟩ | ⟨hr,-⟩
    · rw [hr,List.map_append,List.isChain_append,← h.cursor]
      constructor
      · intro hall day' value' last he hlast
        rw [hr,List.cons.injEq,Prod.mk.injEq] at he
        rw [← he.1.1]
        exact hall.2.2 last hlast day rfl
      · intro hnext
        refine ⟨hc,by simp,?_⟩
        intro last hlast day' hday
        simp only [List.map_cons,List.head?_cons,Option.mem_some_iff] at hday
        rw [← hday]
        exact hnext day value last hr hlast
    · exact silent hr

theorem days_consecutive_iff (admin : Address) (calls : List (Env × Call)) (i w : Nat) :
    machine.along (NextDay i w) (deploy admin) calls ↔
      ((machine.log (recorded i w) (deploy admin) calls).map Prod.fst).IsChain
        (fun a b => b=a+1) :=
  machine.along_iff_log (fun s series => s.Sound ∧ Accumulated s i w series)
    (fun series => (series.map Prod.fst).IsChain fun a b => b=a+1) (NextDay i w) (recorded i w)
    (fun _ a _ hs => ⟨next_sound hs.1 a,next_accumulated hs.1 hs.2 a⟩)
    (fun _ _ h => by
      rw [List.map_append] at h
      exact h.left_of_append)
    (fun _ a _ hs hc => recorded_consecutive_iff hs.1 hs.2 hc a) calls (deploy admin) []
    ⟨deploy_sound admin,deploy_accumulated admin i w⟩ List.isChain_nil

theorem evaluate_complete {env : Env} {d : IndexDefinition} {r : TriggerStatus × State}
    (hd : s.indexDef i=some d) (h : evaluate env s i w=.ok r) :
    d.params.windowLen≤(readAccumulator s i w).daysRecorded := by
  obtain ⟨status,u⟩ := r
  have complete : ∃ d', s.indexDef i=some d' ∧
      d'.params.windowLen≤(readAccumulator s i w).daysRecorded := by
    cases evaluate_ok h with
    | trigger d' _ hd' hdays => exact ⟨d',hd',hdays⟩
    | healthy d' _ hd' hdays => exact ⟨d',hd',hdays⟩
    | settled d' hd' hdays => exact ⟨d',hd',hdays⟩
  obtain ⟨d',hd',hdays⟩ := complete
  rw [hd,Option.some.injEq] at hd'
  exact hd' ▸ hdays

/-- On a window that `evaluate` accepts, the recorded days are consecutive calendar days, and
the longest run is the longest dry spell of the calendar, exactly when no call skipped a day. -/
theorem dry_spell_iff (admin : Address) (calls : List (Env × Call)) (i w : Nat)
    (d : IndexDefinition) (env : Env) (r : TriggerStatus × State) :
    let s := machine.run (deploy admin) calls
    let series := machine.log (recorded i w) (deploy admin) calls
    s.indexDef i=some d → evaluate env s i w=.ok r →
    (machine.along (NextDay i w) (deploy admin) calls ↔
      (∃ first, series.map Prod.fst=List.range' first d.params.windowLen) ∧
      IsLongestSpell d.params.Dry series (readAccumulator s i w).maxRun) := by
  intro s series hd hr
  have h : Accumulated s i w series := run_accumulated admin calls i w
  have hlen : series.length=d.params.windowLen := by
    have hcomplete := evaluate_complete hd hr
    rw [h.days] at hcomplete
    exact le_antisymm (h.room d hd) hcomplete
  rw [days_consecutive_iff,isChain_succ_iff,List.length_map]
  change (∃ first, series.map Prod.fst=List.range' first series.length) ↔ _
  rw [← hlen]
  constructor
  · intro hrange
    obtain ⟨first,hdays⟩ := hrange
    exact ⟨⟨first,hdays⟩,(h.block d hd).spell hdays⟩
  · exact fun hspec => hspec.1

end Runs

section Sample

def skippedDay : List (Env × Call) := [
  (⟨100,[⟨0⟩]⟩,.createIndex dryIndex),
  (⟨100,[⟨0⟩]⟩,.recordDay 0 7 1 0),
  (⟨100,[⟨0⟩]⟩,.recordDay 0 7 3 0)]

/-- Two dry days apart count as a run of two, and the window triggers. -/
theorem skipped_day_counts_as_run :
    let s := machine.run (deploy ⟨0⟩) skippedDay
    let series := machine.log (recorded 0 7) (deploy ⟨0⟩) skippedDay
    (evaluate ⟨100,[]⟩ s 0 7).map (fun r => r.1)=.ok (.triggered 100) ∧
    s.indexDef 0=some ⟨0,dryIndex⟩ ∧ series=[(1,0),(3,0)] ∧ (readAccumulator s 0 7).maxRun=2 ∧
    (¬∃ first, series.map Prod.fst=List.range' first dryIndex.windowLen) ∧
    ¬IsLongestSpell dryIndex.Dry series (readAccumulator s 0 7).maxRun := by
  intro s series
  have hseries : series=[(1,0),(3,0)] := by
    decide +kernel
  have hrun : (readAccumulator s 0 7).maxRun=2 := by
    decide +kernel
  refine ⟨by decide +kernel,by decide +kernel,hseries,hrun,?_,?_⟩
  · intro h
    obtain ⟨first,h⟩ := h
    rw [hseries] at h
    simp [dryIndex,List.range'_succ] at h
    omega
  · intro h
    rw [hseries,hrun] at h
    obtain ⟨day,hday⟩ := h.attained
    obtain ⟨_,h0,-⟩ := hday 0 (by omega)
    obtain ⟨_,h1,-⟩ := hday 1 (by omega)
    simp at h0 h1
    omega

theorem dry_spell_successive :
    let calls := drySpell.take 3
    let s := machine.run (deploy ⟨0⟩) calls
    IsLongestSpell dryIndex.Dry (machine.log (recorded 0 7) (deploy ⟨0⟩) calls)
      (readAccumulator s 0 7).maxRun := by
  intro calls s
  have hdef : s.indexDef 0=some ⟨0,dryIndex⟩ := by
    decide +kernel
  have heval : (evaluate ⟨100,[]⟩ s 0 7).map (fun r => r.1)=.ok (.triggered 100) := by
    decide +kernel
  rw [except_map_eq_ok] at heval
  obtain ⟨r,hr,-⟩ := heval
  refine ((dry_spell_iff ⟨0⟩ calls 0 7 _ _ _ hdef hr).mp ?_).2
  rw [days_consecutive_iff]
  have hdays : (machine.log (recorded 0 7) (deploy ⟨0⟩) calls).map Prod.fst=[1,2] := by
    decide +kernel
  rw [hdays]
  decide

end Sample

end Mvua.TriggerEngine
