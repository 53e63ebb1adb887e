import Mvua.OracleAdapter.Contract
import Mvua.Math.OrderStatistics
import Mathlib.Data.List.Induction
import Mathlib.Data.Finset.Card

namespace Mvua.OracleAdapter

section Sorting

/-- The inner loop puts `key` where it belongs in the sorted part before it. -/
theorem shiftInsert_spec (key x : Int) (pre post : List Int) :
    ∃ P, shiftInsert key pre.length (pre++x::post)=P++post ∧ P.Perm (key::pre) ∧
      (pre.Pairwise (·≤·) → P.Pairwise (·≤·)) := by
  induction pre using List.reverseRecOn generalizing x post with
  | nil => exact ⟨[key],by simp [shiftInsert],List.Perm.refl _,fun _ => by simp⟩
  | append_singleton pre y ih =>
    have hget : ((pre++[y])++x::post).getD pre.length 0=y := by
      simp [List.getD_eq_getElem?_getD]
    have hset (v : Int) : ((pre++[y])++x::post).set (pre.length+1) v=pre++y::v::post := by
      simp
    rw [List.length_append,List.length_singleton,shiftInsert,hget,hset,hset]
    split_ifs with hy
    · obtain ⟨P,hP,perm,sorted⟩ := ih y (y::post)
      refine ⟨P++[y],by simpa using hP,?_,?_⟩
      · exact perm.append_right [y]
      · intro hs
        obtain ⟨hpre,-,hle⟩ := List.pairwise_append.mp hs
        refine List.pairwise_append.mpr ⟨sorted hpre,by simp,?_⟩
        intro a ha b hb
        rw [List.mem_singleton] at hb
        subst b
        rcases List.mem_cons.mp (perm.mem_iff.mp ha) with rfl | ha
        · omega
        · exact hle a ha y (by simp)
    · refine ⟨pre++[y]++[key],by simp,List.perm_append_comm,?_⟩
      intro hs
      refine List.pairwise_append.mpr ⟨hs,by simp,?_⟩
      intro a ha b hb
      rw [List.mem_singleton] at hb
      subst b
      obtain ⟨-,-,hle⟩ := List.pairwise_append.mp hs
      rcases List.mem_append.mp ha with ha | ha
      · have := hle a ha y (by simp)
        omega
      · rw [List.mem_singleton] at ha
        omega

/-- After `k` rounds of the outer loop, the first `k+1` values are in order. -/
theorem sortRounds_spec (values : List Int) (k : Nat) (hk : k<values.length) :
    ∃ P, (List.range' 1 k).foldl (fun values i => shiftInsert (values.getD i 0) i values) values=
      P++values.drop (k+1) ∧ P.Perm (values.take (k+1)) ∧ P.Pairwise (·≤·) := by
  induction k with
  | zero =>
    obtain ⟨x,xs,rfl⟩ := List.exists_cons_of_length_pos hk
    exact ⟨[x],by simp,by simp,by simp⟩
  | succ k ih =>
    obtain ⟨P,hP,perm,sorted⟩ := ih (by omega)
    have hlen : P.length=k+1 := by
      rw [perm.length_eq,List.length_take]
      omega
    have hdrop : values.drop (k+1)=values[k+1]::values.drop (k+2) :=
      List.drop_eq_getElem_cons hk
    have hget (x : Int) (post : List Int) : (P++x::post).getD P.length 0=x := by
      simp [List.getD_eq_getElem?_getD]
    obtain ⟨Q,hQ,perm',sorted'⟩ := shiftInsert_spec values[k+1] values[k+1] P (values.drop (k+2))
    refine ⟨Q,?_,?_,sorted' sorted⟩
    · rw [List.range'_concat,List.foldl_append,hP,hdrop,List.foldl_cons,List.foldl_nil,
        show 1+1*k=P.length by omega,hget]
      exact hQ
    · rw [List.take_add_one (i := k+1),List.getElem?_eq_getElem hk]
      exact perm'.trans ((perm.cons _).trans (List.perm_append_singleton _ _).symm)

theorem sortAscending_take (values : List Int) (len : Nat) (h : len≤values.length) :
    (sortAscending values len).take len=(values.take len).insertionSort (·≤·) := by
  cases len with
  | zero => simp
  | succ k =>
    obtain ⟨P,hP,perm,sorted⟩ := sortRounds_spec values k h
    have hlen : P.length=k+1 := by
      rw [perm.length_eq,List.length_take]
      omega
    rw [sortAscending,Nat.add_sub_cancel,hP,← hlen,List.take_left,hlen]
    exact (perm.trans (List.perm_insertionSort _ _).symm).eq_of_pairwise' sorted
      (List.pairwise_insertionSort _ _)

/-- Below `len`, the sorted array holds the order statistics of the first `len` values. -/
theorem sortAscending_getD {values : List Int} {len i : Nat} (h : len≤values.length)
    (hi : i<len) : (sortAscending values len).getD i 0=statistic 0 (values.take len) i := by
  rw [statistic,← sortAscending_take values len h]
  simp [List.getD_eq_getElem?_getD,hi]

end Sorting

/-- The observation in a slot, if it is one that counts: accepted, fresh and unchallenged. -/
def countedAt (env : Env) (s : State) (region metric : Symbol) (boundSecs slot : Nat) :
    Option Observation :=
  (s.obs (region,metric,slot)).filter fun o =>
    o.accepted && decide (env.timestamp-o.timestamp≤boundSecs) &&
      !isChallenged s region metric slot

/-- The observations that count, in ring order. -/
def counted (env : Env) (s : State) (region metric : Symbol) (boundSecs : Nat) :
    List Observation :=
  (List.range (readHead s region metric).count).filterMap
    (countedAt env s region metric boundSecs)

def distinctPublishers (os : List Observation) : Nat :=
  (os.map Observation.publisher).toFinset.card

def medianOf (values : List Int) : Result Error Int :=
  let mid := values.length/2
  if values.length%2=1 then .ok (statistic 0 values mid)
  else do
    let sum ← okOr (I128.checkedAdd (statistic 0 values (mid-1)) (statistic 0 values mid))
      .overflow
    return sum.tdiv 2

def aggregate (os : List Observation) : Result Error Int := do
  failIf (os=[] ∨ distinctPublishers os < minPublishers) .observationStale
  medianOf (os.map Observation.value)

theorem medianOf_perm {l m : List Int} (h : l.Perm m) : medianOf l=medianOf m := by
  simp only [medianOf,h.length_eq,statistic_perm 0 h]

/-- Only the counted observations matter, not the slots that hold them. -/
theorem aggregate_perm {os ps : List Observation} (h : os.Perm ps) : aggregate os=aggregate ps := by
  have hn : os=[] ↔ ps=[] := by rw [← List.length_eq_zero_iff,h.length_eq,List.length_eq_zero_iff]
  have hd : distinctPublishers os=distinctPublishers ps := by
    rw [distinctPublishers,List.toFinset_eq_of_perm _ _ (h.map _),distinctPublishers]
  simp only [aggregate,hn,hd,medianOf_perm (h.map _)]

section Gathering

variable (env : Env) (s : State) (region metric : Symbol) (boundSecs : Nat)

/-- The loop's accumulator after it counted the observations `os`. -/
structure Gathered.Holds (g : Gathered) (os : List Observation) : Prop where
  size : g.values.length=ringSize
  len : g.len=os.length
  values : g.values.take g.len=os.map Observation.value
  nodup : g.publishers.Nodup
  publishers : ∀ p, p∈g.publishers ↔ p∈os.map Observation.publisher

theorem gatherSlot_holds {g : Gathered} {os : List Observation} (h : g.Holds os) (slot : Nat)
    (room : os.length < ringSize) :
    ∃ g', gatherSlot env s region metric boundSecs g slot=.ok g' ∧
      g'.Holds (os++(countedAt env s region metric boundSecs slot).toList) := by
  unfold gatherSlot countedAt
  cases s.obs (region,metric,slot) with
  | none => exact ⟨g,rfl,by simpa using h⟩
  | some o =>
    by_cases hc : o.accepted ∧ decide (env.timestamp-o.timestamp≤boundSecs) ∧
        ¬isChallenged s region metric slot
    · have hfit : g.len<g.values.length := by rw [h.len,h.size]; exact room
      have hf : (o.accepted && decide (env.timestamp-o.timestamp≤boundSecs) &&
          !isChallenged s region metric slot)=true := by simpa [and_assoc] using hc
      simp only [if_pos hc,Option.filter_some,if_pos hf,trapIf,if_neg (Nat.not_le.mpr hfit),
        Option.toList_some]
      refine ⟨_,rfl,?_,?_,?_,?_,?_⟩
      · simpa using h.size
      · simp [h.len]
      · rw [List.map_append,← h.values,List.take_add_one,List.getElem?_set_self hfit,
          List.take_set_of_le (le_refl _)]
        simp
      · split_ifs with hp
        · exact h.nodup
        · simpa [List.concat_eq_append] using h.nodup.concat hp
      · intro p
        split_ifs with hp
        · have hmem := (h.publishers _).mp hp
          rw [h.publishers,List.map_append,List.mem_append]
          refine ⟨.inl,fun h => h.elim id ?_⟩
          intro hp'
          simp only [List.map_cons,List.map_nil,List.mem_singleton] at hp'
          exact hp' ▸ hmem
        · simp only [List.mem_append,h.publishers,List.map_append,List.map_cons,List.map_nil]
    · have hf : ¬(o.accepted && decide (env.timestamp-o.timestamp≤boundSecs) &&
          !isChallenged s region metric slot)=true := by simpa [and_assoc] using hc
      simp only [if_neg hc,Option.filter_some,if_neg hf]
      exact ⟨g,rfl,by simpa using h⟩

/-- The loop counts what the slots hold, and never writes past the array. -/
theorem gather_holds {g : Gathered} {os : List Observation} (h : g.Holds os) (slots : List Nat)
    (room : os.length+slots.length ≤ ringSize) :
    ∃ g', slots.foldlM (gatherSlot env s region metric boundSecs) g=.ok g' ∧
      g'.Holds (os++slots.filterMap (countedAt env s region metric boundSecs)) := by
  induction slots generalizing g os with
  | nil => exact ⟨g,rfl,by simpa using h⟩
  | cons slot slots ih =>
    rw [List.length_cons] at room
    obtain ⟨g1,h1,hg1⟩ := gatherSlot_holds env s region metric boundSecs h slot (by omega)
    have hlen : (countedAt env s region metric boundSecs slot).toList.length≤1 := by
      cases countedAt env s region metric boundSecs slot <;> simp
    obtain ⟨g2,h2,hg2⟩ := ih hg1 (by rw [List.length_append]; omega)
    refine ⟨g2,by rw [List.foldlM_cons,h1]; exact h2,?_⟩
    rw [List.append_assoc] at hg2
    cases hc : countedAt env s region metric boundSecs slot with
    | none => simpa [hc] using hg2
    | some o => simpa [hc] using hg2

theorem Gathered.Holds.distinct {g : Gathered} {os : List Observation} (h : g.Holds os) :
    g.publishers.length=distinctPublishers os := by
  rw [distinctPublishers,← List.toFinset_card_of_nodup h.nodup]
  congr 1
  ext p
  rw [List.mem_toFinset,List.mem_toFinset,h.publishers]

theorem start_holds : (⟨List.replicate ringSize 0,0,[]⟩ : Gathered).Holds [] :=
  ⟨by simp,rfl,rfl,List.nodup_nil,by simp⟩

/-- The last step of `median` reads the middle of the sorted array. -/
theorem middle_eq_medianOf {values : List Int} {len : Nat} (fit : len≤values.length)
    (pos : 0<len) :
    (if len%2=1 then return (sortAscending values len).getD (len/2) 0
      else do
        let sum ← okOr (I128.checkedAdd ((sortAscending values len).getD (len/2-1) 0)
          ((sortAscending values len).getD (len/2) 0)) .overflow
        return sum.tdiv 2 : Result Error Int)=medianOf (values.take len) := by
  have hlen : (values.take len).length=len := by simp [fit]
  simp only [medianOf,hlen]
  rw [sortAscending_getD fit (show len/2<len by omega),
    sortAscending_getD fit (show len/2-1<len by omega)]
  rfl

variable {env s region metric boundSecs}

theorem gather_then (room : (readHead s region metric).count ≤ ringSize)
    (bound : U64.checkedMul (readStalenessHours s) secondsPerHour=some boundSecs)
    {finish : List Int → Nat → Result Error Int}
    (hfinish : ∀ values len, len≤values.length → 0<len →
      finish values len=medianOf (values.take len)) :
    (do
      failIf ((readHead s region metric).count=0) .observationStale
      let boundSecs ← okOr (U64.checkedMul (readStalenessHours s) secondsPerHour) .overflow
      let g ← (List.range (readHead s region metric).count).foldlM
        (gatherSlot env s region metric boundSecs) ⟨List.replicate ringSize 0,0,[]⟩
      failIf (g.len=0 ∨ g.publishers.length < minPublishers) .observationStale
      finish g.values g.len)=aggregate (counted env s region metric boundSecs) := by
  by_cases hzero : (readHead s region metric).count=0
  · have hnone : counted env s region metric boundSecs=[] := by simp [counted,hzero]
    simp only [hnone,aggregate,failIf,hzero,if_true,true_or]
    rfl
  · obtain ⟨g,hg,h⟩ := gather_holds env s region metric boundSecs start_holds
      (List.range (readHead s region metric).count) (by simpa using room)
    rw [List.nil_append] at h
    change g.Holds (counted env s region metric boundSecs) at h
    have hfit : g.len≤g.values.length := by
      rw [h.len,← List.length_map (f := Observation.value),← h.values]
      exact List.length_take_le' _ _
    have hempty : g.len=0 ↔ counted env s region metric boundSecs=[] := by
      rw [h.len,List.length_eq_zero_iff]
    have hok : (failIf ((readHead s region metric).count=0) .observationStale :
        Result Error Unit)=.ok () := if_neg hzero
    rw [hok,ok_bind,bound,okOr,ok_bind,hg,ok_bind,aggregate]
    have hgates : (g.len=0 ∨ g.publishers.length < minPublishers) ↔
        (counted env s region metric boundSecs=[] ∨
          distinctPublishers (counted env s region metric boundSecs) < minPublishers) := by
      rw [hempty,h.distinct]
    by_cases hgate : g.len=0 ∨ g.publishers.length < minPublishers
    · rw [failIf,if_pos hgate,failIf,if_pos (hgates.mp hgate),error_bind,error_bind]
    · rw [failIf,if_neg hgate,failIf,if_neg (mt hgates.mpr hgate),ok_bind,ok_bind,← h.values]
      exact hfinish _ _ hfit (by omega)

theorem median_eq_aggregate (room : (readHead s region metric).count ≤ ringSize)
    (bound : U64.checkedMul (readStalenessHours s) secondsPerHour=some boundSecs) :
    median env s region metric=aggregate (counted env s region metric boundSecs) :=
  gather_then room bound fun _ _ => middle_eq_medianOf

end Gathering

end Mvua.OracleAdapter
