import Mvua.TriggerEngine.Lifecycle
import Mvua.Math.Runs

namespace Mvua.TriggerEngine

def IndexParams.Dry (params : IndexParams) (value : Int) : Prop := value≤params.dryFloor

instance (params : IndexParams) : DecidablePred params.Dry :=
  fun value => inferInstanceAs (Decidable (value≤params.dryFloor))

/-- The accumulator after one more day. -/
def WindowAccumulator.fold (acc : WindowAccumulator) (params : IndexParams) (value : Int) :
    WindowAccumulator where
  daysRecorded := acc.daysRecorded+1
  rainSum := acc.rainSum+value
  currentRun := if params.Dry value then acc.currentRun+1 else 0
  maxRun := max acc.maxRun (if params.Dry value then acc.currentRun+1 else 0)

section Fold

variable {s s' : State} {d : IndexDefinition} {i w day : Nat} {value : Int}

theorem foldRun_ok {params : IndexParams} {acc acc' : WindowAccumulator}
    (h : foldRun params acc value=.ok acc') : acc'={ acc with
      currentRun := if params.Dry value then acc.currentRun+1 else 0
      maxRun := max acc.maxRun (if params.Dry value then acc.currentRun+1 else 0) } := by
  unfold foldRun at h
  by_cases hdry : value≤params.dryFloor
  · have hd : params.Dry value := hdry
    simp only [if_pos hdry,bind_eq_ok,U32.increment,orTrap_eq_ok,Unsigned.checkedAdd_eq_some,
      pure_eq_ok] at h
    obtain ⟨_,⟨-,rfl⟩,rfl⟩ := h
    simp only [if_pos hd]
    split_ifs with hmax
    · rw [max_eq_right hmax.le]
    · rw [max_eq_left (by omega)]
  · have hd : ¬params.Dry value := hdry
    rw [if_neg hdry,pure_eq_ok] at h
    subst h
    simp [hd]

/-- An accepted day comes after the last one, into a window with room, and is folded in. -/
theorem foldDay_ok (h : foldDay s d i w day value=.ok s') :
    0≤value ∧ (∀ last, readCursor s i w=some last → last<day) ∧
      (readAccumulator s i w).daysRecorded<d.params.windowLen ∧
      s'=((s.writeAccumulator i w ((readAccumulator s i w).fold d.params value)).writeCursor i w
        day).publish (.dayRecorded i w day) := by
  simp only [foldDay,bind_eq_ok,failIf_eq_ok] at h
  obtain ⟨-,hval,h⟩ := h
  cases hc : readCursor s i w with
  | none =>
    simp only [hc,bind_eq_ok,pure_eq_ok,failIf_eq_ok,okOr_eq_ok,U32.increment,orTrap_eq_ok,
      Unsigned.checkedAdd_eq_some,Signed.checkedAdd_eq_some] at h
    obtain ⟨_,hroom,_,⟨-,rfl⟩,acc,hacc,_,⟨-,rfl⟩,rfl⟩ := h
    refine ⟨by omega,by simp,by omega,?_⟩
    rw [foldRun_ok hacc]
    rfl
  | some last =>
    simp only [hc,bind_eq_ok,pure_eq_ok,failIf_eq_ok,okOr_eq_ok,U32.increment,orTrap_eq_ok,
      Unsigned.checkedAdd_eq_some,Signed.checkedAdd_eq_some] at h
    obtain ⟨_,hlast,_,hroom,_,⟨-,rfl⟩,acc,hacc,_,⟨-,rfl⟩,rfl⟩ := h
    refine ⟨by omega,?_,by omega,?_⟩
    · intro last' he
      rw [Option.some.injEq] at he
      omega
    · rw [foldRun_ok hacc]
      rfl

/-- What a day is rejected for as input. -/
theorem foldDay_rejected (h : foldDay s d i w day value=.error (.error .nonDeterministicInput)) :
    value<0 ∨ (∃ last, readCursor s i w=some last ∧ day≤last) ∨
      d.params.windowLen≤(readAccumulator s i w).daysRecorded := by
  by_contra hno
  have hno := not_or.mp hno
  have hlater : ∀ last, readCursor s i w=some last → ¬day≤last := fun last hl hle =>
    hno.2 (.inl ⟨last,hl,hle⟩)
  have hroom : ¬(readAccumulator s i w).daysRecorded≥d.params.windowLen := fun hle =>
    hno.2 (.inr hle)
  have hfails : FailsOnly (fun e => e≠.error .nonDeterministicInput)
      (foldDay s d i w day value) := by
    unfold foldDay
    refine .bind (.failIf fun hneg => absurd hneg hno.1) fun _ _ => ?_
    cases hc : readCursor s i w
    case' some last => refine .bind (.failIf fun hle => absurd hle (hlater last hc)) fun _ _ => ?_
    all_goals
      refine .bind (.failIf fun hfull => absurd hfull hroom) fun _ _ => ?_
      refine .bind (.okOr fun _ => by simp) fun rainSum _ => ?_
      refine .bind ?_ fun acc _ => ?_
      · unfold foldRun
        split_ifs
        · exact .bind (.orTrap fun _ => by simp) fun _ _ => .ok _
        · exact .ok _
      · exact .bind (.orTrap fun _ => by simp) fun _ _ => .ok _
  exact hfails _ h rfl

end Fold

/-- The day and the value that a successful call folds into a window. -/
def recorded (i w : Nat) (s : State) : Env × Call → List (Nat × Int)
  | (env,.recordDay j v day value) =>
      match recordDay env s j v day value with
      | .ok _ => if j=i ∧ v=w then [(day,value)] else []
      | .error _ => []
  | (env,.recordDayFromOracle j v day oracle) =>
      match recordDayFromOracle oracle env s j v day with
      | .ok (value,_) => if j=i ∧ v=w then [(day,value)] else []
      | .error _ => []
  | _ => []

def Call.asks (s : State) : Call → Option Address
  | .recordDayFromOracle .. => s.oracleRef
  | _ => none

section Calls

variable {env : Env} {s s' : State} {i w : Nat}

theorem readCursor_writeCursor (s : State) (i w day j v : Nat) :
    readCursor (s.writeCursor i w day) j v=
      if j=i ∧ v=w then some day else readCursor s j v := by
  by_cases h : j=i ∧ v=w
  · obtain ⟨rfl,rfl⟩ := h
    simp [readCursor,State.writeCursor]
  · have hne : (j,v)≠(i,w) := by simpa using h
    simp [readCursor,State.writeCursor,h]

/-- What a call that records nothing for a window leaves of it. -/
structure Untouched (s s' : State) (i w : Nat) : Prop where
  accumulator : readAccumulator s' i w=readAccumulator s i w
  cursor : readCursor s' i w=readCursor s i w
  indexDef : s'.indexDef i=s.indexDef i ∨ s.indexDef i=none

theorem evaluate_frame {j v : Nat} {status : TriggerStatus}
    (h : evaluate env s j v=.ok (status,s')) :
    ∃ f e, s'={ s with triggerState := f, events := e } := by
  cases evaluate_ok h with
  | trigger => exact ⟨_,_,rfl⟩
  | healthy => exact ⟨_,_,rfl⟩
  | settled => exact ⟨_,_,rfl⟩

theorem finalize_frame {j v : Nat} {status : TriggerStatus}
    (h : finalize env s j v=.ok (status,s')) :
    ∃ f e, s'={ s with triggerState := f, events := e } := by
  obtain ⟨_,_,_,_,-,-,-,-,-,rfl⟩ := finalize_ok h
  exact ⟨_,_,rfl⟩

/-- The severity that `finalize` writes is that of the accumulator as it is. -/
theorem finalize_severity {t : Nat} {severity : Bps}
    (h : finalize env s i w=.ok (.finalized t severity,s')) : ∃ d, s.indexDef i=some d ∧
      severityOf d.params (readAccumulator s i w)=.ok severity := by
  obtain ⟨d,_,_,severity',hd,-,-,hv,hstatus,-⟩ := finalize_ok h
  rw [TriggerStatus.finalized.injEq] at hstatus
  rw [hstatus.2]
  exact ⟨d,hd,by rw [severityOf,hv]; rfl⟩

theorem foldDay_untouched {d : IndexDefinition} {j v day : Nat} {value : Int}
    (h : foldDay s d j v day value=.ok s') (hne : ¬(j=i ∧ v=w)) : Untouched s s' i w := by
  obtain ⟨-,-,-,rfl⟩ := foldDay_ok h
  have hne' : ¬(i=j ∧ w=v) := fun he => hne ⟨he.1.symm,he.2.symm⟩
  refine ⟨?_,?_,.inl rfl⟩
  · rw [readAccumulator_publish,readAccumulator_writeCursor,readAccumulator_writeAccumulator,
      if_neg hne']
  · exact (readCursor_writeCursor _ j v day i w).trans (if_neg hne')

/-- A day folded into some window is recorded for that window, and touches no other. -/
theorem foldDay_recorded {c : Call} {d : IndexDefinition} {i w j v day : Nat} {value : Int}
    (hd : s.indexDef j=some d) (hf : foldDay s d j v day value=.ok s')
    (hrec : recorded i w s (env,c)=if j=i ∧ v=w then [(day,value)] else []) :
    (∃ d day value, s.indexDef i=some d ∧ foldDay s d i w day value=.ok s' ∧
      recorded i w s (env,c)=[(day,value)]) ∨
    (recorded i w s (env,c)=[] ∧ Untouched s s' i w) := by
  rw [hrec]
  split_ifs with he
  · obtain ⟨rfl,rfl⟩ := he
    exact .inl ⟨d,day,value,hd,hf,rfl⟩
  · exact .inr ⟨rfl,foldDay_untouched hf he⟩

/-- A successful call folds one recorded day into the window, or records nothing there. -/
theorem invoke_recorded {c : Call} (hs : s.Sound) (h : invoke env s c=.ok s') (i w : Nat) :
    (∃ d day value, s.indexDef i=some d ∧ foldDay s d i w day value=.ok s' ∧
      recorded i w s (env,c)=[(day,value)]) ∨
    (recorded i w s (env,c)=[] ∧ Untouched s s' i w) := by
  cases c with
  | createIndex params =>
    simp only [invoke,createIndex,except_map_eq_ok,bind_eq_ok,pure_eq_ok,okOr_eq_ok,
      Unsigned.checkedAdd_eq_some] at h
    obtain ⟨_,⟨_,-,_,-,_,⟨-,rfl⟩,rfl⟩,rfl⟩ := h
    refine .inr ⟨rfl,rfl,rfl,?_⟩
    by_cases hi : i=s.indexCount.getD 0
    · subst i
      exact .inr hs.fresh
    · exact .inl (Function.update_of_ne hi _ _)
  | recordDay j v n value =>
    have hok : recordDay env s j v n value=.ok s' := h
    simp only [invoke,recordDay,bind_eq_ok,readDef,okOr_eq_ok] at h
    obtain ⟨-,-,d,hd,hf⟩ := h
    exact foldDay_recorded hd hf (by simp [recorded,hok])
  | recordDayFromOracle j v n oracle =>
    simp only [invoke,except_map_eq_ok,Prod.exists] at h
    obtain ⟨value,u,hok,rfl⟩ := h
    have hf := hok
    simp only [recordDayFromOracle,bind_eq_ok,readDef,okOr_eq_ok,pure_eq_ok,Prod.mk.injEq] at hf
    obtain ⟨-,-,d,hd,_,-,_,-,_,hf,rfl,rfl⟩ := hf
    exact foldDay_recorded hd hf (by simp [recorded,hok])
  | setOracle oracle =>
    simp only [invoke,setOracle,bind_eq_ok,pure_eq_ok] at h
    obtain ⟨-,-,rfl⟩ := h
    exact .inr ⟨rfl,rfl,rfl,.inl rfl⟩
  | evaluate j v =>
    simp only [invoke,except_map_eq_ok,Prod.exists] at h
    obtain ⟨status,u,hu,rfl⟩ := h
    obtain ⟨f,e,rfl⟩ := evaluate_frame hu
    exact .inr ⟨rfl,rfl,rfl,.inl rfl⟩
  | finalize j v =>
    simp only [invoke,except_map_eq_ok,Prod.exists] at h
    obtain ⟨status,u,hu,rfl⟩ := h
    obtain ⟨f,e,rfl⟩ := finalize_frame hu
    exact .inr ⟨rfl,rfl,rfl,.inl rfl⟩

theorem invoke_indexDef {c : Call} (h : invoke env s c=.ok s') : s'.indexDef=s.indexDef ∨
    ∃ params, c=.createIndex params ∧ s'.indexDef=Function.update s.indexDef
      (s.indexCount.getD 0) (some ⟨s.indexCount.getD 0,params⟩) := by
  cases c with
  | createIndex params =>
    simp only [invoke,createIndex,except_map_eq_ok,bind_eq_ok,pure_eq_ok,okOr_eq_ok,
      Unsigned.checkedAdd_eq_some] at h
    obtain ⟨_,⟨_,-,_,-,_,⟨-,rfl⟩,rfl⟩,rfl⟩ := h
    exact .inr ⟨params,rfl,rfl⟩
  | recordDay j v n value =>
    simp only [invoke,recordDay,bind_eq_ok,readDef,okOr_eq_ok] at h
    obtain ⟨-,-,d,-,hf⟩ := h
    obtain ⟨-,-,-,rfl⟩ := foldDay_ok hf
    exact .inl rfl
  | recordDayFromOracle j v n oracle =>
    simp only [invoke,recordDayFromOracle,except_map_eq_ok,bind_eq_ok,readDef,okOr_eq_ok,
      pure_eq_ok] at h
    obtain ⟨_,⟨_,-,d,-,_,-,_,-,u,hf,rfl⟩,rfl⟩ := h
    obtain ⟨-,-,-,rfl⟩ := foldDay_ok hf
    exact .inl rfl
  | setOracle oracle =>
    simp only [invoke,setOracle,bind_eq_ok,pure_eq_ok] at h
    obtain ⟨-,-,rfl⟩ := h
    exact .inl rfl
  | evaluate j v =>
    simp only [invoke,except_map_eq_ok,Prod.exists] at h
    obtain ⟨status,u,hu,rfl⟩ := h
    obtain ⟨f,e,rfl⟩ := evaluate_frame hu
    exact .inl rfl
  | finalize j v =>
    simp only [invoke,except_map_eq_ok,Prod.exists] at h
    obtain ⟨status,u,hu,rfl⟩ := h
    obtain ⟨f,e,rfl⟩ := finalize_frame hu
    exact .inl rfl

theorem recorded_of_error {c : Call} {e : Abort Error} (h : invoke env s c=.error e) :
    recorded i w s (env,c)=[] := by
  cases c with
  | recordDay j v n value =>
    have hr : recordDay env s j v n value=.error e := h
    simp [recorded,hr]
  | recordDayFromOracle j v n oracle =>
    cases hr : recordDayFromOracle oracle env s j v n with
    | error e' => simp [recorded,hr]
    | ok r => simp [invoke,hr,Except.map] at h
  | _ => rfl

/-- A recorded day is one that the admin allowed, of an index on record; if its value was asked
for, it is the answer. -/
theorem mem_recorded {c : Call} {x : Nat × Int}
    (h : x∈recorded i w s (env,c)) : ∃ d, s.indexDef i=some d ∧ requireAdmin env s=.ok () ∧
    ∀ address, c.asks s=some address → ∃ day oracle, c=.recordDayFromOracle i w day oracle ∧
      oracle address d.params.region d.params.metric=.ok x.2 := by
  cases c with
  | recordDay j v day value =>
    simp only [recorded] at h
    cases hc : recordDay env s j v day value with
    | error e => simp [hc] at h
    | ok s' =>
      simp only [hc] at h
      split_ifs at h with hat
      · obtain ⟨rfl,rfl⟩ := hat
        simp only [recordDay,bind_eq_ok,readDef,okOr_eq_ok] at hc
        obtain ⟨_,hadmin,d,hd,-⟩ := hc
        exact ⟨d,hd,hadmin,fun _ ha => absurd ha (by simp [Call.asks])⟩
      · simp at h
  | recordDayFromOracle j v day oracle =>
    simp only [recorded] at h
    cases hc : recordDayFromOracle oracle env s j v day with
    | error e => simp [hc] at h
    | ok y =>
      obtain ⟨value,s'⟩ := y
      simp only [hc] at h
      split_ifs at h with hat
      · obtain ⟨rfl,rfl⟩ := hat
        rw [List.mem_singleton] at h
        subst h
        simp only [recordDayFromOracle,bind_eq_ok,readDef,okOr_eq_ok,liftTrap_eq_ok,pure_eq_ok,
          Prod.mk.injEq] at hc
        obtain ⟨_,hadmin,d,hd,address,haddress,answer,hanswer,_,-,rfl,-⟩ := hc
        refine ⟨d,hd,hadmin,fun asked ha => ⟨day,oracle,rfl,?_⟩⟩
        change s.oracleRef=some asked at ha
        rw [haddress,Option.some.injEq] at ha
        exact ha ▸ hanswer
      · simp at h
  | createIndex | setOracle | evaluate | finalize => simp [recorded] at h

end Calls

/-- The accumulator of a window is the reduction of the days and values accepted for it. -/
structure Accumulated (s : State) (i w : Nat) (series : List (Nat × Int)) : Prop where
  days : (readAccumulator s i w).daysRecorded=series.length
  rain : (readAccumulator s i w).rainSum=(series.map Prod.snd).sum
  cursor : readCursor s i w=(series.map Prod.fst).getLast?
  order : (series.map Prod.fst).Pairwise (·<·)
  room : ∀ d, s.indexDef i=some d → series.length≤d.params.windowLen
  block : ∀ d, s.indexDef i=some d →
    IsLongestBlock d.params.Dry (series.map Prod.snd) (readAccumulator s i w).maxRun
  suffix : ∀ d, s.indexDef i=some d →
    IsLongestSuffix d.params.Dry (series.map Prod.snd) (readAccumulator s i w).currentRun
  unborn : s.indexDef i=none → readAccumulator s i w=⟨0,0,0,0⟩

section Steps

variable {s s' : State} {i w : Nat} {series : List (Nat × Int)}

theorem deploy_accumulated (admin : Address) (i w : Nat) :
    Accumulated (deploy admin) i w [] where
  days := rfl
  rain := rfl
  cursor := rfl
  order := List.Pairwise.nil
  room _ h := by simp [deploy] at h
  block _ h := by simp [deploy] at h
  suffix _ h := by simp [deploy] at h
  unborn _ := rfl

/-- Before its index exists, nothing was accepted for a window. -/
theorem Accumulated.unborn_nil (h : Accumulated s i w series) (hd : s.indexDef i=none) :
    series=[] := by
  have hlen := h.days
  rw [h.unborn hd] at hlen
  exact List.eq_nil_of_length_eq_zero hlen.symm

theorem Accumulated.untouched (h : Accumulated s i w series) (hu : Untouched s s' i w) :
    Accumulated s' i w series := by
  have known : ∀ d, s'.indexDef i=some d → s.indexDef i=some d ∨
      series=[] ∧ readAccumulator s i w=⟨0,0,0,0⟩ := by
    intro d hd
    rcases hu.indexDef with he | hnone
    · exact .inl (he ▸ hd)
    · exact .inr ⟨h.unborn_nil hnone,h.unborn hnone⟩
  refine ⟨by rw [hu.accumulator]; exact h.days,by rw [hu.accumulator]; exact h.rain,
    by rw [hu.cursor]; exact h.cursor,h.order,?_,?_,?_,?_⟩
  · intro d hd
    rcases known d hd with hd | ⟨rfl,-⟩
    · exact h.room d hd
    · exact Nat.zero_le _
  · intro d hd
    rw [hu.accumulator]
    rcases known d hd with hd | ⟨rfl,hacc⟩
    · exact h.block d hd
    · rw [hacc]
      exact .nil
  · intro d hd
    rw [hu.accumulator]
    rcases known d hd with hd | ⟨rfl,hacc⟩
    · exact h.suffix d hd
    · rw [hacc]
      exact .nil
  · intro hd
    rw [hu.accumulator]
    rcases hu.indexDef with he | hnone
    · exact h.unborn (he ▸ hd)
    · exact h.unborn hnone

theorem order_concat {days : List Nat} {day : Nat} (h : days.Pairwise (·<·))
    (hlast : ∀ last, days.getLast?=some last → last<day) : (days++[day]).Pairwise (·<·) := by
  refine List.pairwise_append.mpr ⟨h,by simp,?_⟩
  intro a ha b hb
  rw [List.mem_singleton] at hb
  subst b
  have hne : days≠[] := List.ne_nil_of_mem ha
  have hend := hlast _ (List.getLast?_eq_some_getLast hne)
  rcases List.mem_iff_getElem.mp ha with ⟨k,hk,rfl⟩
  have hle : days[k]≤days.getLast hne := by
    rw [List.getLast_eq_getElem]
    rcases Nat.lt_or_ge k (days.length-1) with hlt | hge
    · exact (List.pairwise_iff_getElem.mp h _ _ hk (by omega) hlt).le
    · have hkeq : k=days.length-1 := by omega
      subst hkeq
      exact le_rfl
  omega

/-- Folding a day in extends the series by it. -/
theorem Accumulated.fold {d : IndexDefinition} {day : Nat} {value : Int}
    (h : Accumulated s i w series) (hd : s.indexDef i=some d)
    (hf : foldDay s d i w day value=.ok s') : Accumulated s' i w (series++[(day,value)]) := by
  obtain ⟨-,hlast,hroom,hs'⟩ := foldDay_ok hf
  have hdef : s'.indexDef=s.indexDef := by rw [hs']; rfl
  have hacc : readAccumulator s' i w=(readAccumulator s i w).fold d.params value := by
    rw [hs',readAccumulator_publish,readAccumulator_writeCursor,
      readAccumulator_writeAccumulator,if_pos ⟨rfl,rfl⟩]
  have hcursor : readCursor s' i w=some day := by
    rw [hs']
    exact (readCursor_writeCursor _ i w day i w).trans (if_pos ⟨rfl,rfl⟩)
  have only : ∀ d', s'.indexDef i=some d' → d'=d := by
    intro d' hd'
    rw [hdef,hd,Option.some.injEq] at hd'
    exact hd'.symm
  have hsuffix : IsLongestSuffix d.params.Dry (series.map Prod.snd++[value])
      (if d.params.Dry value then (readAccumulator s i w).currentRun+1 else 0) := by
    split_ifs with hdry
    · exact (h.suffix d hd).concat hdry
    · exact .concat_not hdry
  refine ⟨?_,?_,?_,?_,?_,?_,?_,?_⟩
  · rw [hacc,List.length_append,List.length_singleton,← h.days]
    rfl
  · rw [hacc,List.map_append,List.sum_append,← h.rain]
    simp [WindowAccumulator.fold]
  · rw [hcursor,List.map_append,List.map_singleton,List.getLast?_concat]
  · rw [List.map_append,List.map_singleton]
    exact order_concat h.order (fun last he => hlast last (h.cursor.trans he))
  · intro d' hd'
    rw [only d' hd',List.length_append,List.length_singleton,← h.days]
    exact hroom
  · intro d' hd'
    rw [only d' hd',hacc,List.map_append,List.map_singleton]
    exact (h.block d hd).concat hsuffix
  · intro d' hd'
    rw [only d' hd',hacc,List.map_append,List.map_singleton]
    exact hsuffix
  · intro hnone
    rw [hdef,hd] at hnone
    cases hnone

theorem next_accumulated (hs : s.Sound) (h : Accumulated s i w series) (a : Env × Call) :
    Accumulated (machine.next s a) i w (series++recorded i w s a) := by
  obtain ⟨env,c⟩ := a
  cases hc : invoke env s c with
  | error e =>
    rw [machine.next_of_error (s := s) (a := (env,c)) hc,recorded_of_error hc,List.append_nil]
    exact h
  | ok t =>
    rw [machine.next_of_ok (s := s) (a := (env,c)) hc]
    rcases invoke_recorded hs hc i w with ⟨d,day,value,hd,hf,hrec⟩ | ⟨hrec,hu⟩
    · rw [hrec]
      exact h.fold hd hf
    · rw [hrec,List.append_nil]
      exact h.untouched hu

theorem next_sound (hs : s.Sound) (a : Env × Call) : (machine.next s a).Sound := by
  rcases machine.next_cases s a with h | h
  · rw [h]; exact hs
  · exact (invoke_effect h).sound hs

theorem run_accumulated (admin : Address) (calls : List (Env × Call)) (i w : Nat) :
    Accumulated (machine.run (deploy admin) calls) i w
      (machine.log (recorded i w) (deploy admin) calls) := by
  have h := machine.run_log (fun s series => s.Sound ∧ Accumulated s i w series) (recorded i w)
    (fun s a series hs => ⟨next_sound hs.1 a,next_accumulated hs.1 hs.2 a⟩) calls (deploy admin) []
    ⟨deploy_sound admin,deploy_accumulated admin i w⟩
  exact h.2

end Steps

section Series

variable {s : State} {i w : Nat} {series : List (Nat × Int)} {d : IndexDefinition}

def accumulate (params : IndexParams) (values : List Int) : WindowAccumulator :=
  values.foldl (fun acc value => acc.fold params value) ⟨0,0,0,0⟩

theorem accumulate_spec (params : IndexParams) (values : List Int) :
    (accumulate params values).daysRecorded=values.length ∧
    (accumulate params values).rainSum=values.sum ∧
    IsLongestBlock params.Dry values (accumulate params values).maxRun ∧
    IsLongestSuffix params.Dry values (accumulate params values).currentRun := by
  induction values using List.reverseRecOn with
  | nil => exact ⟨rfl,rfl,.nil,.nil⟩
  | append_singleton values value ih =>
    obtain ⟨hdays,hrain,hblock,hsuffix⟩ := ih
    have hfold : accumulate params (values++[value])=(accumulate params values).fold params value :=
      List.foldl_concat _ _ _ _
    have hnext : IsLongestSuffix params.Dry (values++[value])
        ((accumulate params values).fold params value).currentRun := by
      simp only [WindowAccumulator.fold]
      split_ifs with hdry
      · exact hsuffix.concat hdry
      · exact .concat_not hdry
    rw [hfold]
    refine ⟨?_,?_,hblock.concat hnext,hnext⟩
    · rw [List.length_append,List.length_singleton,← hdays]
      rfl
    · rw [List.sum_append,List.sum_singleton,← hrain]
      rfl

/-- A window keeps exactly the accumulator of the values accepted for it. -/
theorem Accumulated.eq_accumulate (h : Accumulated s i w series) (hd : s.indexDef i=some d) :
    readAccumulator s i w=accumulate d.params (series.map Prod.snd) := by
  obtain ⟨hdays,hrain,hblock,hsuffix⟩ := accumulate_spec d.params (series.map Prod.snd)
  have hlength := h.days
  rw [← List.length_map (f := Prod.snd),← hdays] at hlength
  have hsum := h.rain.trans hrain.symm
  have hmax := (h.block d hd).unique hblock
  have hrun := (h.suffix d hd).unique hsuffix
  calc readAccumulator s i w=⟨(readAccumulator s i w).daysRecorded,
        (readAccumulator s i w).rainSum,(readAccumulator s i w).currentRun,
        (readAccumulator s i w).maxRun⟩ := rfl
    _=accumulate d.params (series.map Prod.snd) := by rw [hlength,hsum,hrun,hmax]

end Series

section Overflow

variable {s : State} {i w : Nat} {series : List (Nat × Int)} {d : IndexDefinition}

theorem increment_fits {n : Nat} (h : UnsignedFits 32 (n+1)) :
    (U32.increment n : Result Error Nat)=.ok (n+1) := by
  simp only [U32.increment,orTrap_eq_ok,Unsigned.checkedAdd_eq_some]
  exact ⟨h,trivial⟩

/-- The counters of a window stay below its length, so no increment of them carries. -/
theorem Accumulated.foldDay_fails (h : Accumulated s i w series) (hd : s.indexDef i=some d)
    (hfit : UnsignedFits 32 d.params.windowLen) (day : Nat) (value : Int) :
    FailsOnly (fun e => e≠.trap .arithmetic) (foldDay s d i w day value) := by
  have hrun := (h.suffix d hd).le_block (h.block d hd)
  have hmax := (h.block d hd).le_length
  rw [List.length_map,← h.days] at hmax
  unfold foldDay
  refine .bind (.failIf fun _ => by simp) fun _ _ => ?_
  -- with or without a cursor, the same rounds of checked arithmetic follow
  cases readCursor s i w
  case' some last => refine .bind (.failIf fun _ => by simp) fun _ _ => ?_
  all_goals
    refine .bind (.failIf fun _ => by simp) fun _ hroom => ?_
    rw [failIf_eq_ok] at hroom
    refine .bind (.okOr fun _ => by simp) fun rainSum _ => ?_
    refine .bind ?_ fun acc hacc => ?_
    · unfold foldRun
      split_ifs
      · rw [increment_fits (by unfold UnsignedFits at *; dsimp only; omega),ok_bind]
        exact .ok _
      · exact .ok _
    · have hdays : acc.daysRecorded=(readAccumulator s i w).daysRecorded := by
        rw [foldRun_ok hacc]
      rw [increment_fits (by unfold UnsignedFits at *; omega),ok_bind]
      exact .ok _

end Overflow

section Reduction

/-- The window length of a new index is a `u32`. -/
def Call.Typed : Call → Prop
  | .createIndex params => UnsignedFits 32 params.windowLen
  | _ => True

def State.Typed (s : State) : Prop :=
  ∀ i d, s.indexDef i=some d → UnsignedFits 32 d.params.windowLen

theorem next_typed {s : State} (hs : s.Typed) {a : Env × Call} (ha : a.2.Typed) :
    (machine.next s a).Typed := by
  rcases machine.next_cases s a with h | h
  · rw [h]; exact hs
  · rcases invoke_indexDef h with hdef | ⟨params,hc,hdef⟩
    · rw [State.Typed,hdef]
      exact hs
    · rw [hc] at ha
      intro i d hd
      rw [hdef] at hd
      by_cases hi : i=s.indexCount.getD 0
      · subst i
        rw [Function.update_self,Option.some.injEq] at hd
        rw [← hd]
        exact ha
      · rw [Function.update_of_ne hi] at hd
        exact hs i d hd

theorem run_typed (admin : Address) (calls : List (Env × Call))
    (typed : ∀ a∈calls, a.2.Typed) : (machine.run (deploy admin) calls).Typed :=
  machine.run_along State.Typed (fun _ a => a.2.Typed) (fun _ _ hs ha => next_typed hs ha) calls
    (deploy admin) (fun _ _ h => by simp [deploy] at h)
    (machine.along_of_mem calls (fun a ha _ => typed a ha) _)

/-- After every run, the accumulator of a window is the reduction of the values accepted for it,
in order, and no counter of the next day can overflow. -/
theorem accumulator_is_reduction (admin : Address) (calls : List (Env × Call))
    (typed : ∀ a∈calls, a.2.Typed) (i w : Nat) :
    let s := machine.run (deploy admin) calls
    let series := machine.log (recorded i w) (deploy admin) calls
    let values := series.map Prod.snd
    let acc := readAccumulator s i w
    acc.daysRecorded=values.length ∧ acc.rainSum=values.sum ∧
    (series.map Prod.fst).Pairwise (·<·) ∧
    acc.currentRun≤acc.maxRun ∧ acc.maxRun≤acc.daysRecorded ∧
    ∀ d, s.indexDef i=some d → acc.daysRecorded≤d.params.windowLen ∧
      IsLongestBlock d.params.Dry values acc.maxRun ∧
      IsLongestSuffix d.params.Dry values acc.currentRun ∧
      ∀ day value, FailsOnly (fun e => e≠.trap .arithmetic) (foldDay s d i w day value) := by
  intro s series values acc
  have h : Accumulated s i w series := run_accumulated admin calls i w
  have hdays : acc.daysRecorded=values.length := by
    rw [List.length_map]
    exact h.days
  have hruns : acc.currentRun≤acc.maxRun ∧ acc.maxRun≤acc.daysRecorded := by
    cases hd : s.indexDef i with
    | none =>
      have hzero : acc=⟨0,0,0,0⟩ := h.unborn hd
      rw [hzero]
      exact ⟨le_rfl,le_rfl⟩
    | some d =>
      rw [hdays]
      exact ⟨(h.suffix d hd).le_block (h.block d hd),(h.block d hd).le_length⟩
  refine ⟨hdays,h.rain,h.order,hruns.1,hruns.2,?_⟩
  intro d hd
  refine ⟨h.days.trans_le (h.room d hd),h.block d hd,h.suffix d hd,?_⟩
  exact h.foldDay_fails hd (run_typed admin calls typed i d hd)

end Reduction

section Sample

/-- A window of five days, of which the first four are recorded. -/
def mixedDays : List (Env × Call) := [
  (⟨100,[⟨0⟩]⟩,.createIndex { dryIndex with windowLen := 5 }),
  (⟨100,[⟨0⟩]⟩,.recordDay 0 7 1 0),
  (⟨100,[⟨0⟩]⟩,.recordDay 0 7 2 0),
  (⟨100,[⟨0⟩]⟩,.recordDay 0 7 2 9),
  (⟨100,[⟨0⟩]⟩,.recordDay 0 8 4 9),
  (⟨100,[⟨0⟩]⟩,.recordDay 0 7 3 6),
  (⟨100,[⟨0⟩]⟩,.recordDay 0 7 4 0)]

theorem accumulator_is_reduction_mixed :
    let acc := readAccumulator (machine.run (deploy ⟨0⟩) mixedDays) 0 7
    acc=⟨4,6,1,2⟩ ∧ acc.rainSum=[(0 : Int),0,6,0].sum ∧
    IsLongestBlock ({ dryIndex with windowLen := 5 } : IndexParams).Dry [0,0,6,0] acc.maxRun := by
  intro acc
  have hacc : acc=⟨4,6,1,2⟩ := by
    decide +kernel
  have hseries : machine.log (recorded 0 7) (deploy ⟨0⟩) mixedDays=[(1,0),(2,0),(3,6),(4,0)] := by
    decide +kernel
  have hdef : (machine.run (deploy ⟨0⟩) mixedDays).indexDef 0=
      some ⟨0,{ dryIndex with windowLen := 5 }⟩ := by
    decide +kernel
  have h := accumulator_is_reduction ⟨0⟩ mixedDays
    (by simp [mixedDays,Call.Typed,UnsignedFits]) 0 7
  rw [hseries] at h
  exact ⟨hacc,h.2.1,(h.2.2.2.2.2 _ hdef).2.1⟩

end Sample

end Mvua.TriggerEngine
