import Mvua.OracleAdapter.Ring

namespace Mvua.OracleAdapter

/-- No two live slots of a ring hold the same publisher and timestamp. -/
def State.NoDuplicate (s : State) : Prop :=
  ∀ r m k k' o o', k<(readHead s r m).count → k'<(readHead s r m).count →
    s.obs (r,m,k)=some o → s.obs (r,m,k')=some o' →
    o.publisher=o'.publisher → o.timestamp=o'.timestamp → k=k'

/-- No live slot but the one to be overwritten holds this publisher and timestamp. -/
def Unseen (s : State) (r m : Symbol) (timestamp : Nat) (p : BytesN 32) : Prop :=
  ∀ k o, k<(readHead s r m).count → k≠(readHead s r m).nextSeq%ringSize →
    s.obs (r,m,k)=some o → ¬(o.publisher=p ∧ o.timestamp=timestamp)

/-- What the slot to be overwritten contributes is what the submission will contribute. -/
def Neutral (env : Env) (s : State) (r m : Symbol) (timestamp : Nat) (value : Int)
    (p : BytesN 32) : Prop :=
  countedAt env s r m stalenessSecs ((readHead s r m).nextSeq%ringSize)=
    if env.timestamp-timestamp ≤ stalenessSecs then some ⟨value,timestamp,p,true⟩ else none

private theorem eq_of_toList_perm {α : Type} {o p : Option α} (h : o.toList.Perm p.toList) :
    o=p := by
  cases o with
  | none =>
    rw [Option.toList_none,List.nil_perm,Option.toList_eq_nil_iff] at h
    exact h.symm
  | some a =>
    cases p with
    | none => simp at h
    | some b => simpa using h

section Submit

variable {verify : BytesN 32 → ObservationPayload → BytesN 64 → Bool} {env : Env} {s s' : State}
  {region metric : Symbol} {timestamp slot : Nat} {value : Int} {publisher : BytesN 32}
  {signature : BytesN 64}

theorem submit_noDuplicate_iff (hr : s.Ring) (hn : s.NoDuplicate)
    (h : submit verify env s region metric timestamp value publisher signature=.ok (slot,s')) :
    s'.NoDuplicate ↔ Unseen s region metric timestamp publisher := by
  have hr' := hr.submit h
  have hobs := submit_obs h
  obtain ⟨-,-,-,-,hslot,-⟩ := submit_ok h
  have hnew : s'.obs (region,metric,slot)=some ⟨value,timestamp,publisher,true⟩ := by
    rw [hobs,if_pos ⟨rfl,rfl,rfl⟩]
  constructor
  · intro hn' k o _ hne ho hsame
    obtain ⟨hp,ht⟩ := hsame
    rw [← hslot] at hne
    have ho' : s'.obs (region,metric,k)=some o := by
      rw [hobs,if_neg (fun hc => hne hc.2.2)]
      exact ho
    exact hne (hn' region metric k slot o _ (hr'.lt_of_obs ho') (hr'.lt_of_obs hnew) ho' hnew
      hp ht)
  · intro hu
    -- the new observation against one that was in the ring before
    have fresh : ∀ k o, k≠slot → s'.obs (region,metric,k)=some o → o.publisher=publisher →
        o.timestamp≠timestamp := by
      intro k o hne ho hp ht
      rw [hobs,if_neg (fun hc => hne hc.2.2)] at ho
      exact hu k o (hr.lt_of_obs ho) (hslot ▸ hne) ho ⟨hp,ht⟩
    intro r m k k' o o' _ _ ho ho' hp ht
    by_cases hk : r=region ∧ m=metric ∧ k=slot
    · obtain ⟨rfl,rfl,rfl⟩ := hk
      by_contra hne
      rw [hnew,Option.some.injEq] at ho
      subst o
      exact fresh k' o' (Ne.symm hne) ho' hp.symm ht.symm
    · by_cases hk' : r=region ∧ m=metric ∧ k'=slot
      · obtain ⟨rfl,rfl,rfl⟩ := hk'
        rw [hnew,Option.some.injEq] at ho'
        subst o'
        exact absurd ht (fresh k o (fun hc => hk ⟨rfl,rfl,hc⟩) ho hp)
      · rw [hobs,if_neg hk] at ho
        rw [hobs,if_neg hk'] at ho'
        exact hn r m k k' o o' (hr.lt_of_obs ho) (hr.lt_of_obs ho') ho ho' hp ht

theorem submit_counted_iff (hr : s.Ring)
    (h : submit verify env s region metric timestamp value publisher signature=.ok (slot,s')) :
    (counted env s' region metric stalenessSecs).Perm (counted env s region metric stalenessSecs) ↔
      Neutral env s region metric timestamp value publisher := by
  have hafter := (hr.submit h).counted_split env region metric stalenessSecs (hr.slot_lt h).1
  have hbefore := hr.counted_split env region metric stalenessSecs (hr.slot_lt h).1
  obtain ⟨-,-,-,-,hslot,-⟩ := submit_ok h
  rw [submit_countedBut h,submit_countedAt h,if_pos ⟨rfl,rfl,rfl⟩] at hafter
  rw [Neutral,← hslot]
  constructor
  · intro hperm
    have hparts := (hbefore.symm.trans hperm.symm).trans hafter
    have hslots := (List.perm_append_right_iff _).mp hparts
    exact eq_of_toList_perm hslots
  · intro hneutral
    rw [← hneutral] at hafter
    exact hafter.trans hbefore.symm

theorem Neutral.keeps_median (hr : s.Ring)
    (h : submit verify env s region metric timestamp value publisher signature=.ok (slot,s'))
    (hn : Neutral env s region metric timestamp value publisher) (r m : Symbol) :
    median env s' r m=median env s r m := by
  rw [hr.median_eq,(hr.submit h).median_eq]
  by_cases he : r=region ∧ m=metric
  · obtain ⟨rfl,rfl⟩ := he
    exact aggregate_perm ((submit_counted_iff hr h).mpr hn)
  · rw [submit_counted_other h env r m _ he]

end Submit

section Runs

variable (verify : BytesN 32 → ObservationPayload → BytesN 64 → Bool)

/-- A successful submission brings a publisher and timestamp that its ring does not hold. -/
def Novel (s : State) (a : Env × Call) : Prop :=
  ∀ r m timestamp value p signature s', a.2=.submit r m timestamp value p signature →
    (machine verify).step s a=.ok s' → Unseen s r m timestamp p

theorem next_noDuplicate_iff {s : State} (hr : s.Ring) (hn : s.NoDuplicate) (a : Env × Call) :
    ((machine verify).next s a).NoDuplicate ↔ Novel verify s a := by
  obtain ⟨env,c⟩ := a
  cases h : (machine verify).step s (env,c) with
  | error e =>
    rw [(machine verify).next_of_error h]
    apply iff_of_true hn
    intro _ _ _ _ _ _ _ _ hok
    rw [h] at hok
    cases hok
  | ok t =>
    rw [(machine verify).next_of_ok h]
    rcases invoke_cases verify h with ⟨r,m,ts,v,p,sig,slot,rfl,hs⟩ | ⟨hobs,hhead,-⟩
    · rw [submit_noDuplicate_iff hr hn hs]
      constructor
      · intro hu r' m' ts' v' p' sig' u hc _
        cases hc
        exact hu
      · intro hnovel
        exact hnovel r m ts v p sig t rfl h
    · have hsame : t.NoDuplicate := by
        unfold State.NoDuplicate readHead
        rw [hobs,hhead]
        exact hn
      apply iff_of_true hsame
      intro r m ts v p sig u hcall hu
      subst hcall
      have hc : invoke verify env s (.submit r m ts v p sig)=.ok t := h
      simp only [invoke,except_map_eq_ok,Prod.exists] at hc
      obtain ⟨slot,w,hw,rfl⟩ := hc
      have hnew := submit_head hw r m
      rw [if_pos ⟨rfl,rfl⟩,readHead,hhead] at hnew
      have hseq := congrArg Head.nextSeq hnew
      simp only [readHead] at hseq
      omega

theorem deploy_noDuplicate (admin : Address) : (deploy admin).NoDuplicate := by
  intro r m k k' o o' hk
  cases hk

/-- Over every run: the rings stay free of duplicates exactly when each accepted submission is
novel, and a submission, old or new, that is neutral leaves what counts and every median the
same. -/
theorem replay_harmless (admin : Address) (calls : List (Env × Call)) :
    let M := machine verify
    let s := M.run (deploy admin) calls
    (M.along (Novel verify) (deploy admin) calls ↔
      ∀ before, before<+:calls → (M.run (deploy admin) before).NoDuplicate) ∧
    ∀ env r m timestamp value p signature slot s',
      submit verify env s r m timestamp value p signature=.ok (slot,s') →
      ((counted env s' r m stalenessSecs).Perm (counted env s r m stalenessSecs) ↔
        Neutral env s r m timestamp value p) ∧
      (Neutral env s r m timestamp value p →
        ∀ r' m', median env s' r' m'=median env s r' m') := by
  intro M s
  have hr : s.Ring := run_ring verify admin calls
  refine ⟨?_,?_⟩
  · refine M.along_iff_prefixes State.Ring State.NoDuplicate (Novel verify) (fun _ _ => True) ?_ ?_
      calls _ (deploy_ring admin) (deploy_noDuplicate admin)
      (M.along_of_forall (fun _ _ => trivial) _ calls)
    · intro s a hs
      rcases M.next_cases s a with h | h
      · rw [h]; exact hs
      · exact invoke_ring verify hs h
    · exact fun s a hs _ hn => next_noDuplicate_iff verify hs hn a
  · intro env r m ts v p sig slot s' h
    exact ⟨submit_counted_iff hr h,fun hn => hn.keeps_median hr h⟩

end Runs

def twoObservations : List (Env × Call) := threePublishers++[
  sampleSubmit 999001 10 1,sampleSubmit 999001 20 2]

/-- Handing in the first again counts it twice. -/
theorem replay_counts_twice :
    let s := (machine signedAll).run sampleStart twoObservations
    let t := (machine signedAll).next s (sampleSubmit 999001 10 1)
    median ⟨1000000,[]⟩ s ⟨1⟩ ⟨1⟩=.ok 15 ∧ median ⟨1000000,[]⟩ t ⟨1⟩ ⟨1⟩=.ok 10 ∧
    (readHead t ⟨1⟩ ⟨1⟩).count=3 ∧
    t.obs (⟨1⟩,⟨1⟩,0)=some ⟨10,999001,1,true⟩ ∧ t.obs (⟨1⟩,⟨1⟩,2)=some ⟨10,999001,1,true⟩ := by
  decide +kernel

/-- A ring of sixteen observations, the oldest in the slot that comes next. -/
def wrapped : List (Env × Call) := threePublishers++
  (List.range 16).map fun i => sampleSubmit (999000+i) (10+i) (1+BitVec.ofNat 256 (i%2))

/-- Handing in the oldest again only rewrites it. -/
theorem replay_harmless_wrapped :
    let s := (machine signedAll).run sampleStart wrapped
    ∃ s', submit signedAll ⟨1000000,[]⟩ s ⟨1⟩ ⟨1⟩ 999000 10 1 0=.ok (0,s') ∧
      ∀ r m, median ⟨1000000,[]⟩ s' r m=median ⟨1000000,[]⟩ s r m := by
  intro s
  have hslot : (submit signedAll ⟨1000000,[]⟩ s ⟨1⟩ ⟨1⟩ 999000 10 1 0).map (fun x => x.1)=
      .ok 0 := by
    decide +kernel
  rw [except_map_eq_ok] at hslot
  obtain ⟨⟨slot,s'⟩,h,rfl⟩ := hslot
  have hneutral : Neutral ⟨1000000,[]⟩ s ⟨1⟩ ⟨1⟩ 999000 10 1 := by
    unfold Neutral
    decide +kernel
  exact ⟨s',h,((replay_harmless signedAll ⟨0⟩ wrapped).2 _ _ _ _ _ _ _ _ _ h).2 hneutral⟩

end Mvua.OracleAdapter
