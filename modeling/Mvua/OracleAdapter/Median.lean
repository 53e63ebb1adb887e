import Mvua.OracleAdapter.Influence
import Mvua.OracleAdapter.Challenge
import Mvua.TriggerEngine.Accumulation

namespace Mvua.OracleAdapter

section Indexing

/-- `values[i]`: an index outside the array panics. -/
def load (values : List Int) (i : Nat) : Result Error Int := orTrap values[i]? .host

/-- `values[i] = v`. -/
def store (values : List Int) (i : Nat) (v : Int) : Result Error (List Int) := do
  trapIf (i≥values.length) .host
  return values.set i v

/-- `shiftInsert` with every index checked. -/
def shiftInsertIndexed (key : Int) : Nat → List Int → Result Error (List Int)
  | 0,values => store values 0 key
  | j+1,values => do
      let left ← load values j
      if left>key then
        let values ← store values (j+1) left
        shiftInsertIndexed key j values
      else store values (j+1) key

/-- One round of the outer loop of the sort. -/
def sortRoundIndexed (values : List Int) (i : Nat) : Result Error (List Int) := do
  let key ← load values i
  shiftInsertIndexed key i values

def sortAscendingIndexed (values : List Int) (len : Nat) : Result Error (List Int) :=
  (List.range' 1 (len-1)).foldlM sortRoundIndexed values

/-- The last step of `median` on the filled array; `mid - 1` is a subtraction of a `usize`. -/
def middleIndexed (values : List Int) (len : Nat) : Result Error Int := do
  let values ← sortAscendingIndexed values len
  let mid := len/2
  if len%2=1 then load values mid
  else
    trapIf (mid=0) .arithmetic
    let low ← load values (mid-1)
    let high ← load values mid
    let sum ← okOr (I128.checkedAdd low high) .overflow
    return sum.tdiv 2

/-- `median` with every index checked. -/
def medianIndexed (env : Env) (s : State) (region metric : Symbol) : Result Error Int := do
  let head := readHead s region metric
  failIf (head.count=0) .observationStale
  let boundSecs ← okOr (U64.checkedMul (readStalenessHours s) secondsPerHour) .overflow
  let g ← (List.range head.count).foldlM (gatherSlot env s region metric boundSecs)
    ⟨List.replicate ringSize 0,0,[]⟩
  failIf (g.len=0 ∨ g.publishers.length < minPublishers) .observationStale
  middleIndexed g.values g.len

variable {values : List Int} {key : Int} {i j len : Nat}

theorem load_eq (h : i<values.length) : load values i=.ok (values.getD i 0) := by
  rw [load,orTrap_eq_ok,List.getElem?_eq_getElem h,List.getD_eq_getElem _ _ h]

theorem store_eq (h : i<values.length) (v : Int) : store values i v=.ok (values.set i v) := by
  rw [store,trapIf,if_neg (by omega)]
  rfl

@[simp] theorem shiftInsert_length (key : Int) (j : Nat) (values : List Int) :
    (shiftInsert key j values).length=values.length := by
  induction j generalizing values with
  | zero => exact List.length_set
  | succ j ih =>
    rw [shiftInsert]
    split_ifs
    · rw [ih,List.length_set]
    · exact List.length_set

theorem shiftInsertIndexed_eq (h : j<values.length) :
    shiftInsertIndexed key j values=.ok (shiftInsert key j values) := by
  induction j generalizing values with
  | zero => exact store_eq h key
  | succ j ih =>
    rw [shiftInsertIndexed,load_eq (by omega),ok_bind,shiftInsert]
    split_ifs
    · rw [store_eq h,ok_bind]
      exact ih (by rw [List.length_set]; omega)
    · exact store_eq h key

/-- Rounds at positions of the array stay inside it. -/
theorem sortRoundsIndexed_eq (is : List Nat) (h : ∀ i∈is, i<values.length) :
    is.foldlM sortRoundIndexed values=
      .ok (is.foldl (fun values i => shiftInsert (values.getD i 0) i values) values) := by
  induction is generalizing values with
  | nil => rfl
  | cons i is ih =>
    obtain ⟨hi,his⟩ := List.forall_mem_cons.mp h
    have hround : sortRoundIndexed values i=.ok (shiftInsert (values.getD i 0) i values) := by
      rw [sortRoundIndexed,load_eq hi,ok_bind]
      exact shiftInsertIndexed_eq hi
    rw [List.foldlM_cons,hround,ok_bind,List.foldl_cons]
    exact ih (by simpa using his)

theorem sortAscendingIndexed_eq (h : len≤values.length) :
    sortAscendingIndexed values len=.ok (sortAscending values len) := by
  apply sortRoundsIndexed_eq
  intro i hi
  have := List.mem_range'_1.mp hi
  omega

theorem sortAscending_length (values : List Int) (len : Nat) :
    (sortAscending values len).length=values.length := by
  unfold sortAscending
  generalize List.range' 1 (len-1)=is
  induction is generalizing values with
  | nil => rfl
  | cons i is ih => rw [List.foldl_cons,ih,shiftInsert_length]

theorem middleIndexed_eq (fit : len≤values.length) (pos : 0<len) :
    middleIndexed values len=medianOf (values.take len) := by
  have hlen := sortAscending_length values len
  rw [← middle_eq_medianOf fit pos,middleIndexed,sortAscendingIndexed_eq fit,ok_bind]
  split_ifs with hodd
  · exact load_eq (by omega)
  · have hpos : (trapIf (len/2=0) .arithmetic : Result Error Unit)=.ok () := if_neg (by omega)
    dsimp only
    rw [hpos,ok_bind,load_eq (by omega),ok_bind,load_eq (by omega),ok_bind]

/-- No index that `median` uses is out of bounds. -/
theorem State.Ring.medianIndexed_eq {s : State} (hr : s.Ring) (env : Env) (r m : Symbol) :
    medianIndexed env s r m=median env s r m := by
  rw [hr.median_eq]
  exact gather_then (hr.count_le r m) hr.bound_secs fun _ _ => middleIndexed_eq

end Indexing

section Values

variable {os : List Observation} {values : List Int}

/-- The middle value of an odd list; the floor of half the sum of the middle two of an even one,
where that sum is in range. -/
theorem medianOf_spec (hnn : ∀ x∈values, 0≤x) (hne : values≠[]) :
    let low := statistic 0 values (values.length/2-1)
    let high := statistic 0 values (values.length/2)
    medianOf values=if values.length%2=1 then .ok high
      else if low+high≤2^127-1 then .ok ((low+high)/2) else .error (.error .overflow) := by
  intro low high
  have hpos := List.length_pos_iff.mpr hne
  have hlow : 0≤low := hnn _ (statistic_mem 0 (show values.length/2-1<values.length by omega))
  have hhigh : 0≤high := hnn _ (statistic_mem 0 (show values.length/2<values.length by omega))
  have heven : medianOf values=if values.length%2=1 then .ok high else do
      let sum ← okOr (I128.checkedAdd low high) .overflow
      return sum.tdiv 2 := rfl
  rw [heven]
  split_ifs with hodd hfit
  · rfl
  · have hsum : I128.checkedAdd low high=some (low+high) := by
      rw [Signed.checkedAdd_eq_some]
      exact ⟨.of_nonneg (by omega) (by omega),rfl⟩
    rw [hsum,okOr,ok_bind,Int.tdiv_eq_ediv_of_nonneg (by omega)]
    rfl
  · have hsum : I128.checkedAdd low high=none := by
      rw [Option.eq_none_iff_forall_ne_some]
      intro c hc
      rw [Signed.checkedAdd_eq_some] at hc
      have hlt : low+high<2^127 := hc.1.2
      omega
    rw [hsum,okOr,error_bind]

theorem aggregate_of_two (h : minPublishers≤distinctPublishers os) :
    aggregate os=medianOf (os.map Observation.value) := by
  have hne : os≠[] := by
    intro he
    rw [he] at h
    exact absurd h (by decide)
  rw [aggregate,failIf,if_neg (not_or.mpr ⟨hne,by omega⟩),ok_bind]

theorem medianOf_ne_stale : medianOf values≠.error (.error .observationStale) := by
  have h : FailsOnly (fun e => e≠.error .observationStale) (medianOf values) := by
    unfold medianOf
    split_ifs
    · exact .ok _
    · exact .bind (.okOr fun _ => by simp) fun _ _ => .ok _
  exact fun he => h _ he rfl

theorem aggregate_stale_iff : aggregate os=.error (.error .observationStale) ↔
    distinctPublishers os < minPublishers := by
  refine ⟨fun h => ?_,aggregate_stale⟩
  by_contra hge
  rw [aggregate_of_two (by omega)] at h
  exact medianOf_ne_stale h

end Values

section Runs

variable (verify : BytesN 32 → ObservationPayload → BytesN 64 → Bool)

/-- After every run, for each region and metric at each time, `median` is stale exactly when what
counts comes from fewer than two publishers, and otherwise the median of the values that count:
never negative, between the least and the greatest, the same for the same observations in other
slots, and read without an index out of bounds. No day is refused for it as a negative value. -/
theorem median_of_counted (admin : Address) (calls : List (Env × Call)) (env : Env)
    (r m : Symbol) :
    let s := (machine verify).run (deploy admin) calls
    let os := counted env s r m stalenessSecs
    let C := os.map Observation.value
    let low := statistic 0 C (C.length/2-1)
    let high := statistic 0 C (C.length/2)
    (median env s r m=.error (.error .observationStale) ↔ distinctPublishers os < 2) ∧
    (2≤distinctPublishers os → median env s r m=
      if C.length%2=1 then .ok high
      else if low+high≤2^127-1 then .ok ((low+high)/2) else .error (.error .overflow)) ∧
    (∀ v, median env s r m=.ok v → 0≤v ∧ (∀ lo, IsLeast {x | x∈C} lo → lo≤v) ∧
      (∀ hi, IsGreatest {x | x∈C} hi → v≤hi) ∧
      ∀ (t : TriggerEngine.State) (d : TriggerEngine.IndexDefinition) (i w day : Nat),
        TriggerEngine.foldDay t d i w day v=.error (.error .nonDeterministicInput) →
        (∃ last, TriggerEngine.readCursor t i w=some last ∧ day≤last) ∨
          d.params.windowLen≤(TriggerEngine.readAccumulator t i w).daysRecorded) ∧
    (∀ (admin' : Address) (calls' : List (Env × Call)) (env' : Env) (r' m' : Symbol),
      let s' := (machine verify).run (deploy admin') calls'
      (counted env' s' r' m' stalenessSecs).Perm os → median env' s' r' m'=median env s r m) ∧
    medianIndexed env s r m=median env s r m := by
  intro s os C low high
  have hr : s.Ring := run_ring verify admin calls
  have hnn : ∀ x∈C, 0≤x := by
    intro x hx
    obtain ⟨o,ho,rfl⟩ := List.mem_map.mp hx
    obtain ⟨k,hk⟩ := mem_counted ho
    exact (hr.obs r m k o hk).1
  refine ⟨?_,?_,?_,?_,hr.medianIndexed_eq env r m⟩
  · rw [hr.median_eq]
    exact aggregate_stale_iff
  · intro htwo
    have hne : C≠[] := by
      intro he
      have hzero : distinctPublishers os=0 := by
        rw [distinctPublishers,List.map_eq_nil_iff.mp he]
        rfl
      omega
    rw [hr.median_eq,aggregate_of_two htwo]
    exact medianOf_spec hnn hne
  · intro v hv
    rw [hr.median_eq] at hv
    obtain ⟨hne,-,rfl⟩ := aggregate_eq_ok hv
    have hv0 : 0≤ middle C := middle_nonneg hnn (by simpa [C] using hne)
    refine ⟨hv0,fun lo hlo => least_le_middle hnn hlo.1 hlo.2,
      fun hi hhi => middle_le_greatest hnn hhi.1 hhi.2,?_⟩
    intro t d i w day hrej
    exact (TriggerEngine.foldDay_rejected hrej).resolve_left (not_lt.mpr hv0)
  · intro admin' calls' env' r' m' s' hperm
    have hr' : s'.Ring := run_ring verify admin' calls'
    rw [hr.median_eq,hr'.median_eq]
    exact aggregate_perm hperm

end Runs

/-- Of the values 10, 20, 900 and 14 the middle two are 14 and 20. -/
theorem median_of_counted_outlier :
    let s := (machine signedAll).run (deploy ⟨0⟩) outlierRun
    median ⟨1000000,[]⟩ s ⟨1⟩ ⟨1⟩=.ok 17 ∧ medianIndexed ⟨1000000,[]⟩ s ⟨1⟩ ⟨1⟩=.ok 17 := by
  intro s
  have hcounted : (counted ⟨1000000,[]⟩ s ⟨1⟩ ⟨1⟩ stalenessSecs).map Observation.value=
      [10,20,900,14] := by
    decide +kernel
  have htwo : 2≤distinctPublishers (counted ⟨1000000,[]⟩ s ⟨1⟩ ⟨1⟩ stalenessSecs) := by
    decide +kernel
  obtain ⟨-,hmedian,-,-,hindexed⟩ := median_of_counted signedAll ⟨0⟩ outlierRun ⟨1000000,[]⟩ ⟨1⟩ ⟨1⟩
  have hvalue := hmedian htwo
  rw [hcounted] at hvalue
  exact ⟨hvalue.trans (by decide +kernel),hindexed.trans (hvalue.trans (by decide +kernel))⟩

end Mvua.OracleAdapter
