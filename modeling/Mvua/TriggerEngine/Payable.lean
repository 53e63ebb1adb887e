import Mvua.TriggerEngine.Evaluation

namespace Mvua.TriggerEngine

def foldSeries (d : IndexDefinition) (i w : Nat) (s : State) (series : List (Nat × Int)) :
    Result Error State :=
  series.foldlM (fun s x => foldDay s d i w x.1 x.2) s

/-- Some complete series of nonnegative values triggers the index with a severity above zero. -/
def CanPay (d : IndexDefinition) (s : State) (i w : Nat) : Prop :=
  ∃ series s' severity, series.length=d.params.windowLen ∧ (∀ x∈series, (0 : Int)≤x.2) ∧
    foldSeries d i w s series=.ok s' ∧
    evalIndex d.params (readAccumulator s' i w)=.ok (true,severity) ∧ 0<severity

/-- What the validator leaves open: a dry-day index counts the driest day there is as dry, and the
longest run there is reaches far enough up its ramp to show in basis points. -/
def IndexParams.Payable (params : IndexParams) : Prop :=
  match params.kind with
  | .rainfallShortfall => True
  | .consecutiveDryDays => 0≤params.dryFloor ∧
      (params.exhaustionDays-params.triggerDays : Int)≤
        (params.windowLen-params.triggerDays)*10000

section Series

variable {s s' : State} {d : IndexDefinition} {i w : Nat}

theorem foldDay_total {day : Nat} {value : Int} (h0 : 0≤value)
    (hlast : ∀ last, readCursor s i w=some last → last<day)
    (hroom : (readAccumulator s i w).daysRecorded<d.params.windowLen)
    (hrain : SignedFits 128 ((readAccumulator s i w).rainSum+value))
    (hrun : UnsignedFits 32 ((readAccumulator s i w).currentRun+1))
    (hlen : UnsignedFits 32 d.params.windowLen) : ∃ s', foldDay s d i w day value=.ok s' := by
  have hsum : I128.checkedAdd (readAccumulator s i w).rainSum value=
      some ((readAccumulator s i w).rainSum+value) :=
    (Signed.checkedAdd_eq_some _ _ _ _).mpr ⟨hrain,rfl⟩
  have hdays : (U32.increment (readAccumulator s i w).daysRecorded : Result Error Nat)=
      .ok ((readAccumulator s i w).daysRecorded+1) := by
    apply increment_fits
    unfold UnsignedFits at *
    omega
  have hfold : ∃ acc, foldRun d.params { readAccumulator s i w with
      rainSum := (readAccumulator s i w).rainSum+value } value=.ok acc ∧
      acc.daysRecorded=(readAccumulator s i w).daysRecorded := by
    unfold foldRun
    split_ifs
    · rw [increment_fits hrun,ok_bind]
      exact ⟨_,rfl,rfl⟩
    · exact ⟨_,rfl,rfl⟩
  obtain ⟨acc,hacc,hsame⟩ := hfold
  have hvalue : failIf (value<0) Error.nonDeterministicInput=.ok () :=
    (failIf_eq_ok _ _ _).mpr (by omega)
  have hspace : failIf ((readAccumulator s i w).daysRecorded≥d.params.windowLen)
      Error.nonDeterministicInput=.ok () := (failIf_eq_ok _ _ _).mpr (by omega)
  unfold foldDay
  rw [hvalue,ok_bind]
  -- with or without a cursor, the same checked steps follow
  cases hc : readCursor s i w
  case' none => dsimp only
  case' some last =>
    have hlater : failIf (day≤last) Error.nonDeterministicInput=.ok () :=
      (failIf_eq_ok _ _ _).mpr (hlast last hc).not_ge
    dsimp only
    rw [hlater,ok_bind]
  all_goals
    rw [hspace,ok_bind,hsum,okOr,ok_bind,hacc,ok_bind,hsame,hdays,ok_bind]
    exact ⟨_,rfl⟩

def IndexParams.drought (params : IndexParams) (n : Nat) : Nat :=
  if params.Dry 0 then n else 0

theorem fold_drought (params : IndexParams) (n : Nat) :
    (⟨n,0,params.drought n,params.drought n⟩ : WindowAccumulator).fold params 0=
      ⟨n+1,0,params.drought (n+1),params.drought (n+1)⟩ := by
  unfold WindowAccumulator.fold IndexParams.drought
  split_ifs with hdry
  · simp
  · simp

/-- A window that has seen no rain can be folded over more days without any. -/
theorem foldSeries_drought (hlen : UnsignedFits 32 d.params.windowLen) (n : Nat) :
    ∀ (s : State) (k : Nat),
      readAccumulator s i w=⟨k,0,d.params.drought k,d.params.drought k⟩ →
      (∀ last, readCursor s i w=some last → last<k) → k+n≤d.params.windowLen →
      ∃ s', foldSeries d i w s ((List.range' k n).map fun day => (day,0))=.ok s' ∧
        readAccumulator s' i w=⟨k+n,0,d.params.drought (k+n),d.params.drought (k+n)⟩ := by
  induction n with
  | zero =>
    intro s k hacc _ _
    exact ⟨s,rfl,hacc⟩
  | succ n ih =>
    intro s k hacc hcursor hroom
    have hrun : d.params.drought k≤k := by
      unfold IndexParams.drought
      split_ifs <;> omega
    have hnone : SignedFits 128 (0+0) := by decide
    obtain ⟨s1,hfold⟩ := @foldDay_total s d i w k 0 le_rfl hcursor
      (by rw [hacc]; dsimp only; omega) (by rw [hacc]; exact hnone)
      (by rw [hacc]; unfold UnsignedFits at *; dsimp only; omega) hlen
    obtain ⟨-,-,-,hs1⟩ := foldDay_ok hfold
    have hacc1 : readAccumulator s1 i w=
        ⟨k+1,0,d.params.drought (k+1),d.params.drought (k+1)⟩ := by
      rw [hs1,readAccumulator_publish,readAccumulator_writeCursor,
        readAccumulator_writeAccumulator,if_pos ⟨rfl,rfl⟩,hacc,fold_drought]
    have hcursor1 : ∀ last, readCursor s1 i w=some last → last<k+1 := by
      intro last hc
      rw [hs1] at hc
      have hday := (readCursor_writeCursor _ i w k i w).symm.trans hc
      rw [if_pos ⟨rfl,rfl⟩,Option.some.injEq] at hday
      omega
    obtain ⟨s',hrest,hacc'⟩ := ih s1 (k+1) hacc1 hcursor1 (by omega)
    refine ⟨s',?_,by rw [hacc',Nat.add_assoc,Nat.add_comm 1]⟩
    rw [foldSeries,List.range'_succ,List.map_cons,List.foldlM_cons,bind_eq_ok]
    exact ⟨s1,hfold,hrest⟩

/-- What the counters of a window can be, whatever was folded into it. -/
structure Bounded (d : IndexDefinition) (acc : WindowAccumulator) : Prop where
  run : acc.currentRun≤acc.daysRecorded
  longest : acc.maxRun≤acc.daysRecorded
  days : acc.daysRecorded≤d.params.windowLen
  wet : d.params.dryFloor<0 → acc.maxRun=0

theorem Bounded.fold {day : Nat} {value : Int} (h : Bounded d (readAccumulator s i w))
    (hf : foldDay s d i w day value=.ok s') : Bounded d (readAccumulator s' i w) := by
  obtain ⟨hvalue,-,hroom,rfl⟩ := foldDay_ok hf
  rw [readAccumulator_publish,readAccumulator_writeCursor,readAccumulator_writeAccumulator,
    if_pos ⟨rfl,rfl⟩]
  have hrun := h.run
  have hlongest := h.longest
  refine ⟨?_,?_,?_,?_⟩
  · simp only [WindowAccumulator.fold]
    split_ifs <;> omega
  · simp only [WindowAccumulator.fold]
    split_ifs <;> omega
  · simp only [WindowAccumulator.fold]
    omega
  · intro hfloor
    have hwet : ¬d.params.Dry value := fun hdry => (hdry.trans_lt hfloor).not_ge hvalue
    simp only [WindowAccumulator.fold,if_neg hwet,h.wet hfloor,max_self]

theorem foldSeries_bounded {series : List (Nat × Int)} (h : Bounded d (readAccumulator s i w))
    (hf : foldSeries d i w s series=.ok s') : Bounded d (readAccumulator s' i w) :=
  foldlM_invariant (fun s => Bounded d (readAccumulator s i w)) (fun _ _ _ h hf => h.fold hf)
    series s s' h hf

theorem pays_iff {acc : WindowAccumulator} {breached : Bool} {severity : Bps}
    (hv : validateParams d.params=.ok ())
    (h : evalIndex d.params acc=.ok (breached,severity)) :
    breached=true ∧ 0<severity ↔ d.params.span≤d.params.depth acc*10000 := by
  obtain ⟨hbreach,hsev⟩ := evalIndex_ramp hv h
  have hspan := span_pos hv
  have hpos := @ramp_pos_iff 10000 _ (d.params.depth acc) (by decide) hspan
  rw [← hpos,← hsev,Int.natCast_pos]
  apply and_iff_right_of_imp
  intro hlt
  rw [← Int.natCast_pos,hsev,hpos] at hlt
  rw [hbreach]
  unfold IndexParams.Breach
  cases d.params.kind with
  | rainfallShortfall =>
    dsimp only
    omega
  | consecutiveDryDays =>
    dsimp only
    omega

theorem CanPay.payable (h : CanPay d s i w) (hv : validateParams d.params=.ok ())
    (hfresh : s.accumulator (i,w)=none) : d.params.Payable := by
  obtain ⟨series,s',severity,-,-,hf,heval,hpos⟩ := h
  have hspan := span_pos hv
  have hb : Bounded d (readAccumulator s' i w) := by
    apply foldSeries_bounded _ hf
    rw [readAccumulator,hfresh]
    exact ⟨le_rfl,le_rfl,Nat.zero_le _,fun _ => rfl⟩
  have hreach := (pays_iff hv heval).mp ⟨rfl,hpos⟩
  unfold IndexParams.Payable
  cases hk : d.params.kind with
  | rainfallShortfall => trivial
  | consecutiveDryDays =>
    simp only [IndexParams.span,IndexParams.depth,hk] at hspan hreach ⊢
    have hmax := hb.longest.trans hb.days
    refine ⟨?_,by omega⟩
    by_contra hfloor
    have hnone := hb.wet (not_le.mp hfloor)
    omega

end Series

section Sample

/-- A dry-day index whose floor no recorded value meets. -/
def frozenIndex : IndexParams := ⟨.consecutiveDryDays,⟨1⟩,⟨1⟩,3,0,0,0,1,2,-1,0⟩

/-- A dry-day index whose ramp starts at the end of its window. -/
def lateIndex : IndexParams := ⟨.consecutiveDryDays,⟨1⟩,⟨1⟩,3,0,0,0,3,4,0,0⟩

/-- Both are stored, and neither ever pays. -/
theorem accepted_indices_never_pay :
    let env : Env := ⟨100,[⟨0⟩]⟩
    ((createIndex env (deploy ⟨0⟩) frozenIndex).isOk ∧
      ¬CanPay ⟨0,frozenIndex⟩ (deploy ⟨0⟩) 0 7) ∧
    (createIndex env (deploy ⟨0⟩) lateIndex).isOk ∧
      ¬CanPay ⟨0,lateIndex⟩ (deploy ⟨0⟩) 0 7 := by
  intro env
  have hfrozen : ¬frozenIndex.Payable := by
    intro h
    exact absurd h.1 (by decide)
  have hlate : ¬lateIndex.Payable := by
    intro h
    exact absurd h.2 (by decide)
  refine ⟨⟨rfl,fun h => hfrozen ?_⟩,rfl,fun h => hlate ?_⟩
  · exact h.payable rfl rfl
  · exact h.payable rfl rfl

end Sample

/-- An index can pay under some season iff it is a rainfall index, or a dry-day index with a floor
that a dry day meets and an exhaustion point that the window is long enough to approach. -/
theorem can_pay_iff (d : IndexDefinition) (s : State) (i w : Nat)
    (hv : validateParams d.params=.ok ()) (hlen : UnsignedFits 32 d.params.windowLen)
    (hdays : UnsignedFits 32 d.params.exhaustionDays) (hfresh : s.accumulator (i,w)=none)
    (hcursor : s.evalCursor (i,w)=none) : CanPay d s i w ↔ d.params.Payable := by
  constructor
  · intro h
    exact h.payable hv hfresh
  · intro h
    have hstart : readAccumulator s i w=⟨0,0,d.params.drought 0,d.params.drought 0⟩ := by
      rw [readAccumulator,hfresh,IndexParams.drought,ite_self]
      rfl
    obtain ⟨s',hf,hacc'⟩ := foldSeries_drought hlen d.params.windowLen s 0 hstart
      (by simp [readCursor,hcursor]) (by omega)
    have total : ∃ breached severity,
        evalIndex d.params (readAccumulator s' i w)=.ok (breached,severity) := by
      unfold evalIndex
      cases hk : d.params.kind with
      | rainfallShortfall =>
        apply evalRainfall_total hv hk
        · rw [hacc']
        · rw [hacc']
          exact (by decide : (0 : Int)*10000<2^127)
      | consecutiveDryDays => exact evalDryDays_total hdays
    obtain ⟨breached,severity,heval⟩ := total
    have hreach : d.params.span≤d.params.depth (readAccumulator s' i w)*10000 := by
      unfold IndexParams.Payable at h
      unfold IndexParams.span IndexParams.depth
      rw [hacc',IndexParams.drought]
      cases hk : d.params.kind with
      | rainfallShortfall =>
        simp only [zero_mul,Int.zero_tdiv]
        omega
      | consecutiveDryDays =>
        rw [hk] at h
        have hdry : d.params.Dry 0 := h.1
        rw [if_pos hdry]
        dsimp only
        omega
    obtain ⟨rfl,hpos⟩ := (pays_iff hv heval).mpr hreach
    refine ⟨_,s',severity,by simp,?_,hf,heval,hpos⟩
    intro x hx
    obtain ⟨day,-,rfl⟩ := List.mem_map.mp hx
    exact le_rfl

/-- Two dry days of three are enough to be paid under this index. -/
theorem can_pay_iff_dry : CanPay ⟨0,dryIndex⟩ (deploy ⟨0⟩) 0 7 := by
  have h := can_pay_iff ⟨0,dryIndex⟩ (deploy ⟨0⟩) 0 7 rfl (by decide) (by decide) rfl rfl
  exact h.mpr ⟨by decide,by decide⟩

end Mvua.TriggerEngine
