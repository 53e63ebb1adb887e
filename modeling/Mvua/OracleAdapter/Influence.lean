import Mvua.OracleAdapter.Ring
import Mathlib.Order.Bounds.Basic

namespace Mvua.OracleAdapter

theorem medianOf_eq_ok {l : List Int} {v : Int} (h : medianOf l=.ok v) : v=middle l := by
  unfold medianOf at h
  unfold middle
  split_ifs at h ⊢ with hodd
  · rw [Except.ok.injEq] at h
    exact h.symm
  · simp only [bind_eq_ok,okOr_eq_ok,pure_eq_ok,Signed.checkedAdd_eq_some] at h
    obtain ⟨_,⟨-,rfl⟩,rfl⟩ := h
    rfl

theorem aggregate_eq_ok {os : List Observation} {v : Int} (h : aggregate os=.ok v) :
    os≠[] ∧ minPublishers≤distinctPublishers os ∧ v=middle (os.map Observation.value) := by
  simp only [aggregate,bind_eq_ok,failIf_eq_ok,not_or] at h
  obtain ⟨-,⟨hne,hp⟩,hv⟩ := h
  exact ⟨hne,by omega,medianOf_eq_ok hv⟩

theorem aggregate_stale {os : List Observation} (h : distinctPublishers os < minPublishers) :
    aggregate os=.error (.error .observationStale) := by
  rw [aggregate,failIf,if_pos (.inr h),error_bind]

theorem distinctPublishers_le {os ps : List Observation} (h : ∀ o∈os, o∈ps) :
    distinctPublishers os≤distinctPublishers ps := by
  refine Finset.card_le_card fun p hp => ?_
  simp only [List.mem_toFinset,List.mem_map] at hp ⊢
  obtain ⟨o,ho,rfl⟩ := hp
  exact ⟨o,h o ho,rfl⟩

theorem mem_counted {env : Env} {s : State} {r m : Symbol} {b : Nat} {o : Observation}
    (h : o∈counted env s r m b) : ∃ k, s.obs (r,m,k)=some o := by
  obtain ⟨k,-,hk⟩ := List.mem_filterMap.mp h
  exact ⟨k,(Option.filter_eq_some_iff.mp hk).1⟩

section Publisher

/-- Observations of one publisher below, and above, a bound. -/
def below (p : BytesN 32) (lo : Int) (os : List Observation) : Nat :=
  os.countP fun o => o.publisher=p ∧ o.value<lo

def above (p : BytesN 32) (hi : Int) (os : List Observation) : Nat :=
  os.countP fun o => o.publisher=p ∧ hi<o.value

/-- The values of the other publishers. -/
def othersValues (p : BytesN 32) (os : List Observation) : Set Int :=
  {x | ∃ o∈os, o.publisher≠p ∧ o.value=x}

variable {p : BytesN 32} {os : List Observation} {lo hi : Int}

theorem below_eq (h : lo∈lowerBounds (othersValues p os)) :
    below p lo os=(os.map Observation.value).countP (·<lo) := by
  rw [List.countP_map]
  refine List.countP_congr fun o ho => ?_
  simp only [decide_eq_true_eq,Function.comp_apply]
  refine ⟨fun hb => hb.2,fun hlt => ⟨?_,hlt⟩⟩
  by_contra hne
  exact absurd (h ⟨o,ho,hne,rfl⟩) (not_le.mpr hlt)

theorem above_eq (h : hi∈upperBounds (othersValues p os)) :
    above p hi os=(os.map Observation.value).countP (hi<·) := by
  rw [List.countP_map]
  refine List.countP_congr fun o ho => ?_
  simp only [decide_eq_true_eq,Function.comp_apply]
  refine ⟨fun hb => hb.2,fun hlt => ⟨?_,hlt⟩⟩
  by_contra hne
  exact absurd (h ⟨o,ho,hne,rfl⟩) (not_le.mpr hlt)

theorem othersValues_subset {x : Int} (h : x∈othersValues p os) :
    x∈os.map Observation.value := by
  obtain ⟨o,ho,-,rfl⟩ := h
  exact List.mem_map_of_mem ho

end Publisher

/-- While the publishers that nobody vouches for are outnumbered among what counts, the median
stays within what the others report. -/
theorem median_between {env : Env} {s : State} {r m : Symbol} {v lo hi : Int}
    {faulty : BytesN 32 → Bool} (hr : s.Ring) (h : median env s r m=.ok v)
    (hfew : 2*(counted env s r m stalenessSecs).countP (fun o => faulty o.publisher)<
      (counted env s r m stalenessSecs).length)
    (hothers : ∀ o∈counted env s r m stalenessSecs, faulty o.publisher=false →
      lo≤o.value ∧ o.value≤hi) : lo≤v ∧ v≤hi := by
  rw [hr.median_eq] at h
  obtain ⟨-,-,rfl⟩ := aggregate_eq_ok h
  refine middle_of_minority (fun o ho => ?_) hfew (fun o ho hf => (hothers o ho hf).1)
    fun o ho hf => (hothers o ho hf).2
  obtain ⟨k,hk⟩ := mem_counted ho
  exact (hr.obs r m k o hk).1

section Runs

variable (verify : BytesN 32 → ObservationPayload → BytesN 64 → Bool)

/-- The median lies between the other publishers' least and greatest values exactly when
less than half of what counts is `p`'s below them and less than half is `p`'s above them,
or half is above and begins right above. -/
theorem within_others_iff (admin : Address) (calls : List (Env × Call)) (env : Env)
    (r m : Symbol) (p : BytesN 32) {v lo hi : Int} :
    let s := (machine verify).run (deploy admin) calls
    let os := counted env s r m stalenessSecs
    2≤distinctPublishers (os.filter (·.publisher≠p)) → median env s r m=.ok v →
    IsLeast (othersValues p os) lo → IsGreatest (othersValues p os) hi →
    ((lo≤v ∧ v≤hi) ↔ 2*below p lo os<os.length ∧
      (2*above p hi os<os.length ∨
        (2*above p hi os=os.length ∧ hi+1∈os.map Observation.value))) := by
  intro s os _ hv hlo hhi
  have hr : s.Ring := run_ring verify admin calls
  rw [hr.median_eq] at hv
  obtain ⟨-,-,rfl⟩ := aggregate_eq_ok hv
  have hnn : ∀ x∈os.map Observation.value, 0≤x := by
    intro x hx
    obtain ⟨o,ho,rfl⟩ := List.mem_map.mp hx
    obtain ⟨k,hk⟩ := mem_counted ho
    exact (hr.obs r m k o hk).1
  have hl := le_middle_iff hnn (othersValues_subset hlo.1)
  have hh := middle_le_iff hnn (othersValues_subset hhi.1)
  rw [List.length_map,← below_eq hlo.2] at hl
  rw [List.length_map,← above_eq hhi.2] at hh
  exact and_congr hl hh

end Runs

/-- One publisher's three high values against one zero from each of two others. -/
def outweighed : List (Env × Call) := threePublishers++[
  sampleSubmit 999001 1000 1,sampleSubmit 999002 1000 1,sampleSubmit 999003 1000 1,
  sampleSubmit 999001 0 2,sampleSubmit 999001 0 3]

theorem one_publisher_sets_median :
    let s := (machine signedAll).run sampleStart outweighed
    let os := counted ⟨1000000,[]⟩ s ⟨1⟩ ⟨1⟩ stalenessSecs
    median ⟨1000000,[]⟩ s ⟨1⟩ ⟨1⟩=.ok 1000 ∧
    distinctPublishers (os.filter (·.publisher≠1))=2 ∧
    ∀ o∈os, o.publisher≠1 → o.value=0 := by
  decide +kernel

/-- One value each. -/
def balanced : List (Env × Call) := threePublishers++[
  sampleSubmit 999001 1000 1,sampleSubmit 999001 10 2,sampleSubmit 999001 20 3]

theorem within_others_balanced :
    let s := (machine signedAll).run sampleStart balanced
    let os := counted ⟨1000000,[]⟩ s ⟨1⟩ ⟨1⟩ stalenessSecs
    ((10:Int)≤20 ∧ (20:Int)≤20) ↔ 2*below 1 10 os<os.length ∧
      (2*above 1 20 os<os.length ∨
        (2*above 1 20 os=os.length ∧ (20:Int)+1∈os.map Observation.value)) := by
  intro s os
  have hlow : ∀ o∈os, o.publisher≠1 → 10≤o.value := by decide +kernel
  have hhigh : ∀ o∈os, o.publisher≠1 → o.value≤20 := by decide +kernel
  refine within_others_iff signedAll ⟨0⟩ balanced ⟨1000000,[]⟩ ⟨1⟩ ⟨1⟩ 1
    (by decide +kernel) (by decide +kernel) ⟨?_,?_⟩ ⟨?_,?_⟩
  · exact ⟨⟨10,999001,2,true⟩,by decide +kernel,by decide,rfl⟩
  · intro v hv
    obtain ⟨o,ho,hp,rfl⟩ := hv
    exact hlow o ho hp
  · exact ⟨⟨20,999001,3,true⟩,by decide +kernel,by decide,rfl⟩
  · intro v hv
    obtain ⟨o,ho,hp,rfl⟩ := hv
    exact hhigh o ho hp

section Stale

variable (verify : BytesN 32 → ObservationPayload → BytesN 64 → Bool)

/-- After a stale submission, what counts is what counted in the other slots. -/
theorem stale_counted {s s' : State} (hr : s.Ring) {env : Env} {region metric : Symbol}
    {timestamp slot : Nat} {value : Int} {publisher : BytesN 32} {signature : BytesN 64}
    (h : submit verify env s region metric timestamp value publisher signature=.ok (slot,s'))
    (stale : stalenessSecs<env.timestamp-timestamp) :
    (counted env s' region metric stalenessSecs).Perm
      (countedBut env s region metric stalenessSecs slot) := by
  have hnew : countedAt env s' region metric stalenessSecs slot=none := by
    rw [submit_countedAt h]
    simp [Nat.not_le.mpr stale]
  have hafter := (hr.submit h).counted_split env region metric stalenessSecs (hr.slot_lt h).1
  rw [hnew,submit_countedBut h,Option.toList_none,List.nil_append] at hafter
  exact hafter

/-- A stale submission leaves what counts the same exactly when the slot that it overwrites
holds nothing that counts. Then no median changes; with fewer than two publishers there is no
median to change. -/
theorem stale_submit_keeps_median (admin : Address) (calls : List (Env × Call)) {env : Env}
    {region metric : Symbol} {timestamp slot : Nat} {value : Int} {publisher : BytesN 32}
    {signature : BytesN 64} {s' : State}
    (h : submit verify env ((machine verify).run (deploy admin) calls) region metric timestamp
      value publisher signature=.ok (slot,s'))
    (stale : stalenessSecs<env.timestamp-timestamp) :
    let s := (machine verify).run (deploy admin) calls
    let overwritten := countedAt env s region metric stalenessSecs
      ((readHead s region metric).nextSeq%ringSize)
    ((counted env s' region metric stalenessSecs).Perm (counted env s region metric stalenessSecs) ↔
      overwritten=none) ∧
    (overwritten=none ∨
      distinctPublishers (counted env s region metric stalenessSecs) < minPublishers →
        ∀ r m, median env s' r m=median env s r m) := by
  intro s overwritten
  have hr : s.Ring := run_ring verify admin calls
  have hr' : s'.Ring := hr.submit h
  obtain ⟨-,-,-,-,hslot,-⟩ := submit_ok h
  have hafter := stale_counted verify hr h stale
  have hbefore := hr.counted_split env region metric stalenessSecs (hr.slot_lt h).1
  rw [show countedAt env s region metric stalenessSecs slot=overwritten by rw [hslot]] at hbefore
  have hiff : (counted env s' region metric stalenessSecs).Perm
      (counted env s region metric stalenessSecs) ↔ overwritten=none := by
    constructor
    · intro hperm
      have hlen := ((hafter.symm.trans hperm).trans hbefore).length_eq
      rw [List.length_append] at hlen
      have hnil : overwritten.toList=[] := List.eq_nil_of_length_eq_zero (by omega)
      exact Option.toList_eq_nil_iff.mp hnil
    · intro hnone
      rw [hnone,Option.toList_none,List.nil_append] at hbefore
      exact hafter.trans hbefore.symm
  refine ⟨hiff,fun hfree r m => ?_⟩
  rw [hr.median_eq,hr'.median_eq]
  by_cases he : r=region ∧ m=metric
  · obtain ⟨rfl,rfl⟩ := he
    rcases hfree with hfree | hfew
    · exact aggregate_perm (hiff.mpr hfree)
    · -- a part of what counted has no more publishers than all of it
      have hsub : ∀ o∈counted env s' r m stalenessSecs, o∈counted env s r m stalenessSecs := by
        intro o ho
        have hrest := hafter.mem_iff.mp ho
        exact hbefore.mem_iff.mpr (List.mem_append_right _ hrest)
      have hle := distinctPublishers_le hsub
      have hfew' := hle.trans_lt hfew
      rw [aggregate_stale hfew,aggregate_stale hfew']
  · rw [submit_counted_other h env r m _ he]

end Stale

/-- A full ring whose oldest slot holds the only observation of the first publisher. -/
def fullRing : List (Env × Call) :=
  threePublishers++sampleSubmit 999000 10 1::
    (List.range 15).map fun i => sampleSubmit (999001+i) 20 2

/-- An observation of time zero evicts that slot, and the median is lost. -/
theorem stale_submit_evicts :
    let s := (machine signedAll).run sampleStart fullRing
    median ⟨1000000,[]⟩ s ⟨1⟩ ⟨1⟩=.ok 20 ∧
    (submit signedAll ⟨1000000,[]⟩ s ⟨1⟩ ⟨1⟩ 0 20 2 0).map
      (fun x => median ⟨1000000,[]⟩ x.2 ⟨1⟩ ⟨1⟩)=.ok (.error (.error .observationStale)) := by
  decide +kernel

/-- Into a free slot, the same submission changes nothing. -/
theorem stale_submit_keeps_median_balanced :
    let s := (machine signedAll).run sampleStart balanced
    ∃ s', submit signedAll ⟨1000000,[]⟩ s ⟨1⟩ ⟨1⟩ 0 20 2 0=.ok (3,s') ∧
      ∀ r m, median ⟨1000000,[]⟩ s' r m=median ⟨1000000,[]⟩ s r m := by
  intro s
  have hslot : (submit signedAll ⟨1000000,[]⟩ s ⟨1⟩ ⟨1⟩ 0 20 2 0).map (fun x => x.1)=.ok 3 := by
    decide +kernel
  rw [except_map_eq_ok] at hslot
  obtain ⟨⟨slot,s'⟩,h,rfl⟩ := hslot
  have hkeeps := (stale_submit_keeps_median signedAll ⟨0⟩ balanced h (by decide)).2
  exact ⟨s',h,hkeeps (.inl (by decide +kernel))⟩

end Mvua.OracleAdapter
