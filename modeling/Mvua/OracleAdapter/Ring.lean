import Mvua.OracleAdapter.Aggregate

namespace Mvua.OracleAdapter

/-- The invariant of the rings: a ring fills its slots from zero on, and what it holds was
accepted with a nonnegative value. -/
structure State.Ring (s : State) : Prop where
  count : ∀ r m, (readHead s r m).count=min (readHead s r m).nextSeq ringSize
  empty : ∀ r m k, (readHead s r m).count≤k → s.obs (r,m,k)=none
  obs : ∀ r m k o, s.obs (r,m,k)=some o → 0≤o.value ∧ o.accepted
  bound : s.stalenessBound=some defaultStalenessHours

/-- The staleness bound of every reachable state, in seconds. -/
def stalenessSecs : Nat := defaultStalenessHours*secondsPerHour

theorem State.Ring.count_le {s : State} (h : s.Ring) (r m : Symbol) :
    (readHead s r m).count ≤ ringSize := by
  rw [h.count]
  exact min_le_right _ _

theorem State.Ring.bound_secs {s : State} (h : s.Ring) :
    U64.checkedMul (readStalenessHours s) secondsPerHour=some stalenessSecs := by
  rw [readStalenessHours,h.bound,Option.getD_some,Unsigned.checkedMul_eq_some]
  exact ⟨by decide,rfl⟩

theorem State.Ring.median_eq {s : State} (h : s.Ring) (env : Env) (r m : Symbol) :
    median env s r m=aggregate (counted env s r m stalenessSecs) :=
  median_eq_aggregate (h.count_le r m) h.bound_secs

/-- Slots beyond the count are empty, so the whole ring may be read. -/
theorem State.Ring.counted_eq {s : State} (h : s.Ring) (env : Env) (r m : Symbol) (b : Nat) :
    counted env s r m b=(List.range ringSize).filterMap (countedAt env s r m b) := by
  have hsplit : List.range ringSize=List.range (readHead s r m).count++
      (List.range' (readHead s r m).count (ringSize-(readHead s r m).count)) := by
    have hc := h.count_le r m
    have happ := List.range'_append_1 (s := 0) (m := (readHead s r m).count)
      (n := ringSize-(readHead s r m).count)
    rw [Nat.zero_add,Nat.add_sub_cancel' hc] at happ
    rw [List.range_eq_range',List.range_eq_range',happ]
  have hnone : (List.range' (readHead s r m).count
      (ringSize-(readHead s r m).count)).filterMap (countedAt env s r m b)=[] := by
    rw [List.filterMap_eq_nil_iff]
    intro k hk
    rw [countedAt,h.empty r m k (List.mem_range'_1.mp hk).1]
    rfl
  rw [hsplit,List.filterMap_append,hnone,List.append_nil,counted]

theorem State.Ring.lt_of_obs {s : State} (hr : s.Ring) {r m : Symbol} {k : Nat} {o : Observation}
    (h : s.obs (r,m,k)=some o) : k<(readHead s r m).count := by
  by_contra hge
  rw [hr.empty r m k (by omega)] at h
  cases h

section Submit

variable {verify : BytesN 32 → ObservationPayload → BytesN 64 → Bool} {env : Env} {s s' : State}
  {region metric : Symbol} {timestamp slot : Nat} {value : Int} {publisher : BytesN 32}
  {signature : BytesN 64}

theorem submit_ok
    (h : submit verify env s region metric timestamp value publisher signature=.ok (slot,s')) :
    (s.publisher publisher).map PublisherInfo.active=some true ∧ 0≤value ∧
      timestamp≤env.timestamp ∧ verify publisher ⟨region,metric,timestamp,value⟩ signature ∧
      slot=(readHead s region metric).nextSeq%ringSize ∧
      s'={ s with
        obs := Function.update s.obs (region,metric,slot) (some ⟨value,timestamp,publisher,true⟩)
        challenge := Function.update s.challenge (region,metric,slot) none
        obsHead := Function.update s.obsHead (region,metric)
          (some ⟨(readHead s region metric).nextSeq+1,
            if (readHead s region metric).count < ringSize then (readHead s region metric).count+1
            else (readHead s region metric).count⟩)
        events := s.events++[.observationSubmitted region metric slot publisher] } := by
  simp only [submit,bind_eq_ok,okOr_eq_ok,failIf_eq_ok,trapIf_eq_ok,
    Unsigned.checkedAdd_eq_some] at h
  obtain ⟨info,hinfo,-,hact,-,hval,-,hver,_,⟨-,rfl⟩,h⟩ := h
  have hact' : (s.publisher publisher).map PublisherInfo.active=some true := by
    simpa [hinfo] using hact
  have hver' : verify publisher ⟨region,metric,timestamp,value⟩ signature := by
    simpa using hver
  split_ifs at h ⊢ with hlt
  · simp only [U32.increment,bind_eq_ok,orTrap_eq_ok,Unsigned.checkedAdd_eq_some,pure_eq_ok,
      Prod.mk.injEq] at h
    obtain ⟨_,⟨-,rfl⟩,rfl,rfl⟩ := h
    exact ⟨hact',by omega,by omega,hver',rfl,rfl⟩
  · simp only [bind_eq_ok,pure_eq_ok,Prod.mk.injEq] at h
    obtain ⟨_,rfl,rfl,rfl⟩ := h
    exact ⟨hact',by omega,by omega,hver',rfl,rfl⟩

/-- Reading the ring after a submission. -/
theorem submit_head
    (h : submit verify env s region metric timestamp value publisher signature=.ok (slot,s'))
    (r m : Symbol) : readHead s' r m=
      if r=region ∧ m=metric then ⟨(readHead s region metric).nextSeq+1,
        if (readHead s region metric).count < ringSize then (readHead s region metric).count+1
        else (readHead s region metric).count⟩
      else readHead s r m := by
  obtain ⟨-,-,-,-,-,rfl⟩ := submit_ok h
  by_cases he : r=region ∧ m=metric
  · obtain ⟨rfl,rfl⟩ := he
    simp [readHead]
  · have hne : (r,m)≠(region,metric) := by simpa using he
    simp [readHead,he]

theorem submit_obs
    (h : submit verify env s region metric timestamp value publisher signature=.ok (slot,s'))
    (r m : Symbol) (k : Nat) : s'.obs (r,m,k)=
      if r=region ∧ m=metric ∧ k=slot then some ⟨value,timestamp,publisher,true⟩
      else s.obs (r,m,k) := by
  obtain ⟨-,-,-,-,-,rfl⟩ := submit_ok h
  by_cases he : r=region ∧ m=metric ∧ k=slot
  · obtain ⟨rfl,rfl,rfl⟩ := he
    simp
  · have hne : (r,m,k)≠(region,metric,slot) := by simpa using he
    simp [he]

theorem submit_challenge
    (h : submit verify env s region metric timestamp value publisher signature=.ok (slot,s'))
    (r m : Symbol) (k : Nat) : s'.challenge (r,m,k)=
      if r=region ∧ m=metric ∧ k=slot then none else s.challenge (r,m,k) := by
  obtain ⟨-,-,-,-,-,rfl⟩ := submit_ok h
  by_cases he : r=region ∧ m=metric ∧ k=slot
  · obtain ⟨rfl,rfl,rfl⟩ := he
    simp
  · have hne : (r,m,k)≠(region,metric,slot) := by simpa using he
    simp [he]

/-- The written slot is always one of the ring, and the count covers it afterwards. -/
theorem State.Ring.slot_lt (hr : s.Ring)
    (h : submit verify env s region metric timestamp value publisher signature=.ok (slot,s')) :
    slot < ringSize ∧ slot≤(readHead s region metric).count := by
  obtain ⟨-,-,-,-,rfl,-⟩ := submit_ok h
  have hlt := Nat.mod_lt (readHead s region metric).nextSeq (show 0 < ringSize by decide)
  have hle := Nat.mod_le (readHead s region metric).nextSeq ringSize
  refine ⟨hlt,?_⟩
  rw [hr.count]
  omega

theorem State.Ring.submit (hr : s.Ring)
    (h : submit verify env s region metric timestamp value publisher signature=.ok (slot,s')) :
    s'.Ring := by
  have hhead := submit_head h
  have hobs := submit_obs h
  obtain ⟨hlt,hle⟩ := hr.slot_lt h
  obtain ⟨-,hval,-,-,-,hs⟩ := submit_ok h
  refine ⟨?_,?_,?_,by rw [hs]; exact hr.bound⟩
  · intro r m
    rw [hhead]
    split_ifs with he hc
    · have := hr.count region metric
      dsimp only
      omega
    · have := hr.count region metric
      dsimp only
      omega
    · exact hr.count r m
  · intro r m k hk
    rw [hhead] at hk
    rw [hobs]
    by_cases he : r=region ∧ m=metric
    · obtain ⟨rfl,rfl⟩ := he
      have hc := hr.count_le r m
      rw [if_pos ⟨rfl,rfl⟩] at hk
      have hge : (readHead s r m).count≤k ∧ k≠slot := by
        split_ifs at hk with hlt'
        · exact ⟨by dsimp only at hk; omega,by dsimp only at hk; omega⟩
        · exact ⟨hk,by dsimp only at hk; omega⟩
      simp only [hge.2,and_false,if_false]
      exact hr.empty r m k hge.1
    · rw [if_neg he] at hk
      rw [if_neg (fun hc => he ⟨hc.1,hc.2.1⟩)]
      exact hr.empty r m k hk
  · intro r m k o ho
    rw [hobs] at ho
    split_ifs at ho with he
    · rw [Option.some.injEq] at ho
      subst o
      exact ⟨hval,rfl⟩
    · exact hr.obs r m k o ho

/-- What counts at another time, slot by slot, after a submission. -/
theorem submit_countedAt
    (h : submit verify env s region metric timestamp value publisher signature=.ok (slot,s'))
    (now : Env) (r m : Symbol) (b k : Nat) : countedAt now s' r m b k=
      if r=region ∧ m=metric ∧ k=slot then
        if now.timestamp-timestamp≤b then some ⟨value,timestamp,publisher,true⟩ else none
      else countedAt now s r m b k := by
  rw [countedAt,countedAt,isChallenged,isChallenged,submit_obs h,submit_challenge h]
  by_cases he : r=region ∧ m=metric ∧ k=slot
  · simp [he,Option.filter]
  · simp [he]

/-- The ring apart from the slot `slot`. -/
def countedBut (now : Env) (s : State) (r m : Symbol) (b slot : Nat) : List Observation :=
  ((List.range ringSize).erase slot).filterMap (countedAt now s r m b)

theorem State.Ring.counted_split (hr : s.Ring) (now : Env) (r m : Symbol) (b : Nat)
    (hslot : slot < ringSize) : (counted now s r m b).Perm
      ((countedAt now s r m b slot).toList++countedBut now s r m b slot) := by
  rw [hr.counted_eq]
  have hperm := (List.perm_cons_erase (List.mem_range.mpr hslot)).filterMap
    (countedAt now s r m b)
  apply hperm.trans
  rw [List.filterMap_cons]
  cases countedAt now s r m b slot with
  | none => exact List.Perm.refl _
  | some o => exact List.Perm.refl _

/-- A submission leaves the other slots of its ring alone. -/
theorem submit_countedBut
    (h : submit verify env s region metric timestamp value publisher signature=.ok (slot,s'))
    (now : Env) (b : Nat) :
    countedBut now s' region metric b slot=countedBut now s region metric b slot := by
  refine List.filterMap_congr fun k hk => ?_
  have hne : k≠slot := ((List.nodup_range).mem_erase_iff.mp hk).1
  rw [submit_countedAt h,if_neg (fun hc => hne hc.2.2)]

/-- A submission leaves every other ring alone. -/
theorem submit_counted_other
    (h : submit verify env s region metric timestamp value publisher signature=.ok (slot,s'))
    (now : Env) (r m : Symbol) (b : Nat) (hne : ¬(r=region ∧ m=metric)) :
    counted now s' r m b=counted now s r m b := by
  rw [counted,counted,submit_head h,if_neg hne]
  refine List.filterMap_congr fun k _ => ?_
  rw [submit_countedAt h,if_neg (fun hc => hne ⟨hc.1,hc.2.1⟩)]

end Submit

section Runs

variable (verify : BytesN 32 → ObservationPayload → BytesN 64 → Bool)

/-- The calls that change the registry of publishers. -/
def Call.OfRegistry : Call → Prop
  | .proposePublisher .. | .executePublisher _ | .cancelPublisher _ => True
  | _ => False

variable {verify} in
/-- A change of the registry leaves the rings, their challenges and the staleness bound alone. -/
theorem registry_frame {env : Env} {s s' : State} {c : Call}
    (h : invoke verify env s c=.ok s') (hc : c.OfRegistry) : s'.obs=s.obs ∧
      s'.obsHead=s.obsHead ∧ s'.challenge=s.challenge ∧ s'.stalenessBound=s.stalenessBound := by
  cases c with
  | proposePublisher p add =>
    simp only [invoke,proposePublisher,except_map_eq_ok,bind_eq_ok,pure_eq_ok] at h
    obtain ⟨_,⟨_,-,_,-,_,-,_,-,_,-,rfl⟩,rfl⟩ := h
    exact ⟨rfl,rfl,rfl,rfl⟩
  | executePublisher p =>
    simp only [invoke,executePublisher,bind_eq_ok] at h
    obtain ⟨_,-,pending,-,_,-,h⟩ := h
    split_ifs at h
    · simp only [bind_eq_ok,pure_eq_ok] at h
      obtain ⟨_,rfl,rfl⟩ := h
      exact ⟨rfl,rfl,rfl,rfl⟩
    · simp only [bind_eq_ok,pure_eq_ok] at h
      obtain ⟨_,-,_,rfl,rfl⟩ := h
      exact ⟨rfl,rfl,rfl,rfl⟩
  | cancelPublisher p =>
    simp only [invoke,cancelPublisher,bind_eq_ok,pure_eq_ok] at h
    obtain ⟨_,-,_,-,rfl⟩ := h
    exact ⟨rfl,rfl,rfl,rfl⟩
  | _ => exact hc.elim

/-- A successful call is a submission, or it leaves rings and staleness bound alone. -/
theorem invoke_cases {env : Env} {s s' : State} {c : Call} (h : invoke verify env s c=.ok s') :
    (∃ r m t v p sig slot, c=.submit r m t v p sig ∧
      submit verify env s r m t v p sig=.ok (slot,s')) ∨
    (s'.obs=s.obs ∧ s'.obsHead=s.obsHead ∧ s'.stalenessBound=s.stalenessBound) := by
  cases c with
  | submit r m t v p sig =>
    simp only [invoke,except_map_eq_ok,Prod.exists] at h
    obtain ⟨slot,u,hu,rfl⟩ := h
    exact .inl ⟨r,m,t,v,p,sig,slot,rfl,hu⟩
  | challenge r m k reason =>
    simp only [invoke,challenge,bind_eq_ok,pure_eq_ok] at h
    obtain ⟨_,-,_,-,_,-,rfl⟩ := h
    exact .inr ⟨rfl,rfl,rfl⟩
  | unchallenge r m k =>
    simp only [invoke,unchallenge,bind_eq_ok,pure_eq_ok] at h
    obtain ⟨_,-,rfl⟩ := h
    exact .inr ⟨rfl,rfl,rfl⟩
  | _ =>
    obtain ⟨hobs,hhead,-,hbound⟩ := registry_frame h trivial
    exact .inr ⟨hobs,hhead,hbound⟩

theorem deploy_ring (admin : Address) : (deploy admin).Ring where
  count _ _ := rfl
  empty _ _ _ _ := rfl
  obs _ _ _ _ h := nomatch h
  bound := rfl

theorem invoke_ring {env : Env} {s s' : State} {c : Call} (hr : s.Ring)
    (h : invoke verify env s c=.ok s') : s'.Ring := by
  rcases invoke_cases verify h with ⟨r,m,t,v,p,sig,slot,-,hs⟩ | ⟨hobs,hhead,hbound⟩
  · exact hr.submit hs
  · refine ⟨?_,?_,?_,hbound.trans hr.bound⟩
    · intro r m; rw [readHead,hhead]; exact hr.count r m
    · intro r m k; rw [readHead,hhead,hobs]; exact hr.empty r m k
    · rw [hobs]; exact hr.obs

theorem run_ring (admin : Address) (calls : List (Env × Call)) :
    ((machine verify).run (deploy admin) calls).Ring :=
  (machine verify).run_invariant State.Ring (fun _ _ _ hr h => invoke_ring verify hr h) calls _
    (deploy_ring admin)

end Runs

section Sample

/-- A signature check under which every message was signed. -/
def signedAll : BytesN 32 → ObservationPayload → BytesN 64 → Bool := fun _ _ _ => true

def sampleStart : State := deploy ⟨0⟩

/-- Three publishers registered through the timelock. -/
def threePublishers : List (Env × Call) := [
  (⟨0,[⟨0⟩]⟩,.proposePublisher 1 true),
  (⟨0,[⟨0⟩]⟩,.proposePublisher 2 true),
  (⟨0,[⟨0⟩]⟩,.proposePublisher 3 true),
  (⟨604800,[⟨0⟩]⟩,.executePublisher 1),
  (⟨604800,[⟨0⟩]⟩,.executePublisher 2),
  (⟨604800,[⟨0⟩]⟩,.executePublisher 3)]

/-- A submission at ledger time 1000000 for one region and metric. -/
def sampleSubmit (timestamp : Nat) (value : Int) (publisher : BytesN 32) : Env × Call :=
  (⟨1000000,[]⟩,.submit ⟨1⟩ ⟨1⟩ timestamp value publisher 0)

end Sample

end Mvua.OracleAdapter
