import Mvua.OracleAdapter.Challenge
import Mvua.Math.Queue

namespace Mvua.OracleAdapter

/-- An accepted observation, the time it was submitted at and whether its publisher was active
in the registry then. -/
structure Accepted where
  observation : Observation
  time : Nat
  active : Bool
  deriving DecidableEq, Repr

/-- What happens to one ring. -/
inductive RingEvent where
  | accept (a : Accepted)
  | challenge (slot : Nat)
  | unchallenge (slot : Nat)
  deriving DecidableEq, Repr

/-- The observations of a history, in order: the abstract queue of a ring. -/
def accepted : List RingEvent → List Accepted
  | [] => []
  | .accept a::events => a::accepted events
  | .challenge _::events => accepted events
  | .unchallenge _::events => accepted events

/-- Slot `k` was challenged after its current observation was accepted, and not unchallenged
since. -/
def ChallengedSince (events : List RingEvent) (k : Nat) : Prop :=
  ∃ before after q, events=before++[.challenge k]++after ∧ .unchallenge k∉after ∧
    IsLatest ringSize (accepted events).length k q ∧ q<(accepted before).length

/-- The storage of a ring stands for its history: a queue of the last sixteen observations, of
which some are flagged. -/
structure Represents (s : State) (r m : Symbol) (events : List RingEvent) : Prop where
  nextSeq : (readHead s r m).nextSeq=(accepted events).length
  count : (readHead s r m).count=min (accepted events).length ringSize
  latest : ∀ k<(readHead s r m).count, ∃ q a, IsLatest ringSize (accepted events).length k q ∧
    (accepted events)[q]?=some a ∧ s.obs (r,m,k)=some a.observation
  window : ∀ q a, (accepted events)[q]?=some a → (accepted events).length≤q+ringSize →
    s.obs (r,m,q%ringSize)=some a.observation
  empty : ∀ k, (readHead s r m).count≤k → s.obs (r,m,k)=none
  flagged : ∀ k, isChallenged s r m k ↔ ChallengedSince events k
  stored : ∀ k o, s.obs (r,m,k)=some o → ∃ a∈accepted events, a.observation=o ∧
    0≤o.value ∧ o.timestamp≤a.time ∧ a.active

section Histories

variable {events more : List RingEvent} {k q : Nat}

@[simp] theorem accepted_append : accepted (events++more)=accepted events++accepted more := by
  induction events with
  | nil => rfl
  | cons e events ih =>
    cases e with
    | accept a => simp [accepted,ih]
    | challenge j => simpa [accepted] using ih
    | unchallenge j => simpa [accepted] using ih

/-- Whether an event rewrites slot `k` of the ring. -/
def Rewrites (events : List RingEvent) (k : Nat) (e : RingEvent) : Prop :=
  accepted [e]≠[] ∧ k=(accepted events).length%ringSize

theorem isLatest_event_iff {e : RingEvent} (h : ¬Rewrites events k e) :
    IsLatest ringSize (accepted (events++[e])).length k q ↔
      IsLatest ringSize (accepted events).length k q := by
  rw [accepted_append,List.length_append]
  cases e with
  | accept a =>
    have hk : k≠(accepted events).length%ringSize := fun hk => h ⟨by simp [accepted],hk⟩
    exact isLatest_concat_iff hk
  | challenge j => exact Iff.rfl
  | unchallenge j => exact Iff.rfl

/-- What one more event makes of the challenge of a slot. -/
theorem challengedSince_concat_iff (e : RingEvent) : ChallengedSince (events++[e]) k ↔
    (e=.challenge k ∧ ∃ q, IsLatest ringSize (accepted events).length k q) ∨
    (e≠.unchallenge k ∧ ¬Rewrites events k e ∧ ChallengedSince events k) := by
  constructor
  · intro h
    obtain ⟨before,after,q,hsplit,hafter,hq,hbefore⟩ := h
    rcases List.eq_nil_or_concat after with rfl | ⟨rest,x,rfl⟩
    · -- the challenge is the new event
      rw [List.append_nil] at hsplit
      obtain ⟨rfl,he⟩ := List.append_inj' hsplit rfl
      rw [List.singleton_inj] at he
      subst he
      exact .inl ⟨rfl,q,by simpa [accepted] using hq⟩
    · rw [List.concat_eq_append] at hsplit hafter
      rw [← List.append_assoc] at hsplit
      obtain ⟨rfl,he⟩ := List.append_inj' hsplit rfl
      rw [List.singleton_inj] at he
      subst he
      have hkeep : ¬Rewrites (before++[.challenge k]++rest) k e := by
        intro hw
        obtain ⟨hw,hk⟩ := hw
        cases e with
        | accept a =>
          have hnew := hq.greatest (accepted (before++[.challenge k]++rest)).length
            (by simp [accepted]) hk.symm
          simp only [accepted_append,List.length_append] at hnew
          omega
        | challenge j => exact hw rfl
        | unchallenge j => exact hw rfl
      rw [isLatest_event_iff hkeep] at hq
      refine .inr ⟨?_,hkeep,before,rest,q,rfl,?_,hq,hbefore⟩
      · intro he
        exact hafter (by simp [he])
      · intro hmem
        exact hafter (List.mem_append_left _ hmem)
  · intro h
    rcases h with ⟨rfl,q,hq⟩ | ⟨hun,hkeep,before,after,q,rfl,hafter,hq,hbefore⟩
    · refine ⟨events,[],q,by simp,by simp,?_,hq.lt⟩
      simpa [accepted] using hq
    · refine ⟨before,after++[e],q,by simp,?_,(isLatest_event_iff hkeep).mpr hq,hbefore⟩
      intro hmem
      rcases List.mem_append.mp hmem with hmem | hmem
      · exact hafter hmem
      · exact hun (List.mem_singleton.mp hmem).symm

end Histories

/-- A submission as its ring keeps it, with the time and the registry it is accepted under. -/
def acceptance (env : Env) (s : State) (timestamp : Nat) (value : Int) (publisher : BytesN 32) :
    Accepted where
  observation := ⟨value,timestamp,publisher,true⟩
  time := env.timestamp
  active := ((s.publisher publisher).map PublisherInfo.active).getD false

/-- What a successful call does to the ring of a region and metric. -/
def ringEvents (verify : BytesN 32 → ObservationPayload → BytesN 64 → Bool) (r m : Symbol)
    (s : State) : Env × Call → List RingEvent
  | (env,.submit region metric timestamp value publisher signature) =>
      match submit verify env s region metric timestamp value publisher signature with
      | .ok _ => if region=r ∧ metric=m then
          [.accept (acceptance env s timestamp value publisher)] else []
      | .error _ => []
  | (env,.challenge region metric seq reason) =>
      match challenge env s region metric seq reason with
      | .ok _ => if region=r ∧ metric=m then [.challenge seq] else []
      | .error _ => []
  | (env,.unchallenge region metric seq) =>
      match unchallenge env s region metric seq with
      | .ok _ => if region=r ∧ metric=m then [.unchallenge seq] else []
      | .error _ => []
  | _ => []

section Calls

variable {verify : BytesN 32 → ObservationPayload → BytesN 64 → Bool} {env : Env} {s s' : State}
  {r m : Symbol} {k : Nat}

theorem challenge_frame {reason : Nat} (h : challenge env s r m k reason=.ok s') :
    s'.obsHead=s.obsHead ∧ (s.obs (r,m,k)).isSome := by
  simp only [challenge,bind_eq_ok,pure_eq_ok,failIf_eq_ok] at h
  obtain ⟨-,-,-,hobs,-,-,rfl⟩ := h
  exact ⟨rfl,by simpa [Option.isSome_iff_ne_none] using hobs⟩

theorem unchallenge_frame (h : unchallenge env s r m k=.ok s') : s'.obsHead=s.obsHead := by
  simp only [unchallenge,bind_eq_ok,pure_eq_ok] at h
  obtain ⟨-,-,rfl⟩ := h
  rfl

/-- The ring of a region and metric is as before. -/
structure SameRing (s s' : State) (r m : Symbol) : Prop where
  head : readHead s' r m=readHead s r m
  obs : ∀ k, s'.obs (r,m,k)=s.obs (r,m,k)
  flag : ∀ k, isChallenged s' r m k=isChallenged s r m k

/-- A successful call brings one event to a ring, or leaves it alone. -/
inductive RingStep (verify : BytesN 32 → ObservationPayload → BytesN 64 → Bool) (env : Env)
    (s s' : State) (r m : Symbol) : List RingEvent → Prop where
  | accept (timestamp : Nat) (value : Int) (publisher : BytesN 32) (signature : BytesN 64)
      (slot : Nat)
      (call : submit verify env s r m timestamp value publisher signature=.ok (slot,s')) :
      RingStep verify env s s' r m [.accept (acceptance env s timestamp value publisher)]
  | challenge (k reason : Nat) (call : challenge env s r m k reason=.ok s') :
      RingStep verify env s s' r m [.challenge k]
  | unchallenge (k : Nat) (call : unchallenge env s r m k=.ok s') :
      RingStep verify env s s' r m [.unchallenge k]
  | same (h : SameRing s s' r m) : RingStep verify env s s' r m []

theorem submit_ringStep {r' m' : Symbol} {t slot : Nat} {v : Int} {p : BytesN 32}
    {sig : BytesN 64} (h : submit verify env s r' m' t v p sig=.ok (slot,s')) :
    RingStep verify env s s' r m (ringEvents verify r m s (env,.submit r' m' t v p sig)) := by
  simp only [ringEvents,h]
  split_ifs with he
  · obtain ⟨rfl,rfl⟩ := he
    exact .accept t v p sig slot h
  · have hne : ¬(r=r' ∧ m=m') := fun hc => he ⟨hc.1.symm,hc.2.symm⟩
    refine .same ⟨?_,fun k => ?_,fun k => ?_⟩
    · rw [submit_head h,if_neg hne]
    · rw [submit_obs h,if_neg (fun hc => hne ⟨hc.1,hc.2.1⟩)]
    · rw [isChallenged,submit_challenge h,if_neg (fun hc => hne ⟨hc.1,hc.2.1⟩),isChallenged]

theorem challenge_ringStep {r' m' : Symbol} {reason : Nat}
    (h : challenge env s r' m' k reason=.ok s') :
    RingStep verify env s s' r m (ringEvents verify r m s (env,.challenge r' m' k reason)) := by
  obtain ⟨hobs,hflag⟩ := challenge_ok h
  simp only [ringEvents,h]
  split_ifs with he
  · obtain ⟨rfl,rfl⟩ := he
    exact .challenge k reason h
  · have hne : ¬(r=r' ∧ m=m') := fun hc => he ⟨hc.1.symm,hc.2.symm⟩
    refine .same ⟨by rw [readHead,readHead,(challenge_frame h).1],fun j => by rw [hobs],?_⟩
    intro j
    rw [hflag,if_neg (fun hc => hne ⟨hc.1,hc.2.1⟩)]

theorem unchallenge_ringStep {r' m' : Symbol} (h : unchallenge env s r' m' k=.ok s') :
    RingStep verify env s s' r m (ringEvents verify r m s (env,.unchallenge r' m' k)) := by
  obtain ⟨hobs,hflag⟩ := unchallenge_ok h
  simp only [ringEvents,h]
  split_ifs with he
  · obtain ⟨rfl,rfl⟩ := he
    exact .unchallenge k h
  · have hne : ¬(r=r' ∧ m=m') := fun hc => he ⟨hc.1.symm,hc.2.symm⟩
    refine .same ⟨by rw [readHead,readHead,unchallenge_frame h],fun j => by rw [hobs],?_⟩
    intro j
    rw [hflag,if_neg (fun hc => hne ⟨hc.1,hc.2.1⟩)]

theorem invoke_ringStep {c : Call} (h : invoke verify env s c=.ok s') (r m : Symbol) :
    RingStep verify env s s' r m (ringEvents verify r m s (env,c)) := by
  cases c with
  | submit r' m' t v p sig =>
    simp only [invoke,except_map_eq_ok,Prod.exists] at h
    obtain ⟨slot,u,hu,rfl⟩ := h
    exact submit_ringStep hu
  | challenge r' m' k reason => exact challenge_ringStep h
  | unchallenge r' m' k => exact unchallenge_ringStep h
  | _ =>
    obtain ⟨hobs,hhead,hflag,-⟩ := registry_frame h trivial
    refine .same ⟨by rw [readHead,readHead,hhead],fun k => by rw [hobs],fun k => ?_⟩
    rw [isChallenged,isChallenged,hflag]

theorem ringEvents_of_error {c : Call} {e : Abort Error} (h : invoke verify env s c=.error e)
    (r m : Symbol) : ringEvents verify r m s (env,c)=[] := by
  cases c with
  | submit r' m' t v p sig =>
    cases hr : submit verify env s r' m' t v p sig with
    | error e' => simp [ringEvents,hr]
    | ok x => simp [invoke,hr,Except.map] at h
  | challenge r' m' k reason =>
    have hr : challenge env s r' m' k reason=.error e := h
    simp [ringEvents,hr]
  | unchallenge r' m' k =>
    have hr : unchallenge env s r' m' k=.error e := h
    simp [ringEvents,hr]
  | _ => rfl

end Calls

/-- What the storage of a ring and its history keep in step from call to call. -/
structure Queue (s : State) (r m : Symbol) (events : List RingEvent) : Prop where
  nextSeq : (readHead s r m).nextSeq=(accepted events).length
  latest : ∀ k q a, IsLatest ringSize (accepted events).length k q →
    (accepted events)[q]?=some a → s.obs (r,m,k)=some a.observation
  flagged : ∀ k, isChallenged s r m k ↔ ChallengedSince events k
  good : ∀ a∈accepted events,
    0≤a.observation.value ∧ a.observation.timestamp≤a.time ∧ a.active

section Steps

variable {verify : BytesN 32 → ObservationPayload → BytesN 64 → Bool} {env : Env} {s s' : State}
  {r m : Symbol} {events more : List RingEvent}

/-- Slots below the count are those of some accepted observation. -/
theorem Queue.slot_iff (hr : s.Ring) (h : Queue s r m events) (k : Nat) :
    (∃ q, IsLatest ringSize (accepted events).length k q) ↔ (s.obs (r,m,k)).isSome := by
  constructor
  · intro hq
    obtain ⟨q,hq⟩ := hq
    rw [h.latest k q _ hq (List.getElem?_eq_getElem hq.lt)]
    rfl
  · intro ho
    obtain ⟨o,ho⟩ := Option.isSome_iff_exists.mp ho
    have hlt := hr.lt_of_obs ho
    rw [hr.count,h.nextSeq] at hlt
    exact IsLatest.of_lt hlt

theorem Queue.accept {timestamp slot : Nat} {value : Int} {publisher : BytesN 32}
    {signature : BytesN 64} (h : Queue s r m events)
    (hc : submit verify env s r m timestamp value publisher signature=.ok (slot,s')) :
    Queue s' r m (events++[.accept (acceptance env s timestamp value publisher)]) := by
  obtain ⟨hact,hval,htime,-,hslot,-⟩ := submit_ok hc
  rw [h.nextSeq] at hslot
  -- only the slot of the next sequence number is written
  have hwrites : ∀ k, Rewrites events k (.accept (acceptance env s timestamp value publisher)) ↔
      k=slot := by
    intro k
    simp [Rewrites,accepted,hslot]
  refine ⟨?_,?_,?_,?_⟩
  · rw [submit_head hc,if_pos ⟨rfl,rfl⟩,h.nextSeq]
    simp [accepted]
  · intro k q a hq ha
    rw [submit_obs hc]
    by_cases hk : k=slot
    · have hq' : q=(accepted events).length := by
        apply hq.unique
        rw [hk,hslot,accepted_append,List.length_append]
        exact .concat_self
      rw [hq',accepted_append,List.getElem?_append_right le_rfl,Nat.sub_self] at ha
      simp only [accepted,List.getElem?_cons_zero,Option.some.injEq] at ha
      rw [if_pos ⟨rfl,rfl,hk⟩,← ha]
      rfl
    · have hkeep := fun hw => hk ((hwrites k).mp hw)
      rw [isLatest_event_iff hkeep] at hq
      rw [accepted_append,List.getElem?_append_left hq.lt] at ha
      rw [if_neg (fun he => hk he.2.2)]
      exact h.latest k q a hq ha
  · intro k
    rw [isChallenged,submit_challenge hc,challengedSince_concat_iff,hwrites]
    by_cases hk : k=slot
    · rw [if_pos ⟨rfl,rfl,hk⟩]
      simp [hk]
    · have hflag := h.flagged k
      rw [isChallenged] at hflag
      rw [if_neg (fun he => hk he.2.2),hflag]
      simp [hk]
  · intro a ha
    rw [accepted_append] at ha
    rcases List.mem_append.mp ha with ha | ha
    · exact h.good a ha
    · simp only [accepted,List.mem_singleton] at ha
      subst ha
      refine ⟨hval,htime,?_⟩
      rw [acceptance,hact]
      rfl

/-- An event that accepts nothing leaves the observations alone. -/
theorem Queue.flag {e : RingEvent} (h : Queue s r m events) (he : accepted [e]=[])
    (hhead : readHead s' r m=readHead s r m) (hobs : ∀ k, s'.obs (r,m,k)=s.obs (r,m,k))
    (hflag : ∀ k, isChallenged s' r m k ↔ ChallengedSince (events++[e]) k) :
    Queue s' r m (events++[e]) := by
  have hsame : accepted (events++[e])=accepted events := by
    rw [accepted_append,he,List.append_nil]
  refine ⟨by rw [hhead,hsame]; exact h.nextSeq,?_,hflag,by rw [hsame]; exact h.good⟩
  intro k q a hq ha
  rw [hsame] at hq ha
  rw [hobs]
  exact h.latest k q a hq ha

theorem Queue.challenge {k reason : Nat} (hr : s.Ring) (h : Queue s r m events)
    (hc : challenge env s r m k reason=.ok s') : Queue s' r m (events++[.challenge k]) := by
  obtain ⟨hobs,hflag⟩ := challenge_ok hc
  obtain ⟨hhead,hheld⟩ := challenge_frame hc
  apply h.flag rfl (by rw [readHead,readHead,hhead]) (fun j => by rw [hobs])
  intro j
  rw [hflag,challengedSince_concat_iff]
  by_cases hj : j=k
  · subst hj
    rw [if_pos ⟨rfl,rfl,rfl⟩]
    exact iff_of_true rfl (.inl ⟨rfl,(h.slot_iff hr j).mpr hheld⟩)
  · have hne : k≠j := fun he => hj he.symm
    rw [if_neg (fun he => hj he.2.2),h.flagged]
    simp [Rewrites,accepted,hne]

theorem Queue.unchallenge {k : Nat} (h : Queue s r m events)
    (hc : unchallenge env s r m k=.ok s') : Queue s' r m (events++[.unchallenge k]) := by
  obtain ⟨hobs,hflag⟩ := unchallenge_ok hc
  apply h.flag rfl (by rw [readHead,readHead,unchallenge_frame hc]) (fun j => by rw [hobs])
  intro j
  rw [hflag,challengedSince_concat_iff]
  by_cases hj : j=k
  · subst hj
    simp
  · have hne : k≠j := fun he => hj he.symm
    rw [if_neg (fun he => hj he.2.2),h.flagged]
    simp [Rewrites,accepted,hne]

theorem Queue.step (hr : s.Ring) (h : Queue s r m events)
    (hstep : RingStep verify env s s' r m more) : Queue s' r m (events++more) := by
  cases hstep with
  | accept t v p sig slot hc => exact h.accept hc
  | challenge k reason hc => exact h.challenge hr hc
  | unchallenge k hc => exact h.unchallenge hc
  | same hs =>
    rw [List.append_nil]
    refine ⟨by rw [hs.head]; exact h.nextSeq,?_,?_,h.good⟩
    · intro k q a hq ha
      rw [hs.obs]
      exact h.latest k q a hq ha
    · intro k
      rw [hs.flag]
      exact h.flagged k

theorem Queue.represents (hr : s.Ring) (h : Queue s r m events) :
    Represents s r m events where
  nextSeq := h.nextSeq
  count := by rw [hr.count,h.nextSeq]
  latest k hk := by
    rw [hr.count,h.nextSeq] at hk
    obtain ⟨q,hq⟩ := IsLatest.of_lt hk
    have ha := List.getElem?_eq_getElem hq.lt
    exact ⟨q,_,hq,ha,h.latest k q _ hq ha⟩
  window q a ha hlast := by
    obtain ⟨hq,-⟩ := List.getElem?_eq_some_iff.mp ha
    exact h.latest _ q a ((isLatest_iff_window (by decide)).mpr ⟨hq,hlast⟩) ha
  empty k hk := hr.empty r m k hk
  flagged := h.flagged
  stored k o ho := by
    obtain ⟨q,hq⟩ := (h.slot_iff hr k).mpr (Option.isSome_iff_exists.mpr ⟨o,ho⟩)
    have ha := List.getElem?_eq_getElem hq.lt
    have hsame := ho.symm.trans (h.latest k q _ hq ha)
    rw [Option.some.injEq] at hsame
    have hmem := List.getElem_mem hq.lt
    obtain ⟨hval,htime,hact⟩ := h.good _ hmem
    rw [← hsame] at hval htime
    exact ⟨_,hmem,hsame.symm,hval,htime,hact⟩

end Steps

section Runs

variable (verify : BytesN 32 → ObservationPayload → BytesN 64 → Bool)

theorem deploy_queue (admin : Address) (r m : Symbol) : Queue (deploy admin) r m [] where
  nextSeq := rfl
  latest _ _ _ hq _ := absurd hq.lt (Nat.not_lt_zero _)
  flagged k := by
    apply iff_of_false (by simp [isChallenged,deploy])
    intro h
    obtain ⟨before,after,-,hsplit,-⟩ := h
    simp at hsplit
  good := by simp [accepted]

theorem next_queue {s : State} {r m : Symbol} {events : List RingEvent} (hr : s.Ring)
    (h : Queue s r m events) (a : Env × Call) :
    Queue ((machine verify).next s a) r m (events++ringEvents verify r m s a) := by
  obtain ⟨env,c⟩ := a
  cases hc : invoke verify env s c with
  | error e =>
    rw [(machine verify).next_of_error (s := s) (a := (env,c)) hc,ringEvents_of_error hc,
      List.append_nil]
    exact h
  | ok t =>
    rw [(machine verify).next_of_ok (s := s) (a := (env,c)) hc]
    exact h.step hr (invoke_ringStep hc r m)

theorem next_ring {s : State} (hr : s.Ring) (a : Env × Call) :
    ((machine verify).next s a).Ring := by
  rcases (machine verify).next_cases s a with h | h
  · rw [h]; exact hr
  · exact invoke_ring verify hr h

/-- After every run, the storage of every ring represents its history. -/
theorem ring_refines_queue (admin : Address) (calls : List (Env × Call)) (r m : Symbol) :
    let M := machine verify
    Represents (M.run (deploy admin) calls) r m
      (M.log (ringEvents verify r m) (deploy admin) calls) := by
  intro M
  have h := M.run_log (fun s events => s.Ring ∧ Queue s r m events) (ringEvents verify r m)
    (fun s a events hs => ⟨next_ring verify hs.1 a,next_queue verify hs.1 hs.2 a⟩) calls
    (deploy admin) [] ⟨deploy_ring admin,deploy_queue admin r m⟩
  exact h.2.represents h.1

end Runs

/-- The seventeenth observation takes slot 0 and drops the challenge of the first one. -/
example : let s := (machine signedAll).run sampleStart (threePublishers++
      sampleSubmit 999000 5 1::(⟨1000000,[⟨0⟩]⟩,.challenge ⟨1⟩ ⟨1⟩ 0 7)::
      (List.range 16).map fun n => sampleSubmit (999001+n) n 2)
    readHead s ⟨1⟩ ⟨1⟩=⟨17,16⟩ ∧ s.obs (⟨1⟩,⟨1⟩,0)=some ⟨15,999016,2,true⟩ ∧
    isChallenged s ⟨1⟩ ⟨1⟩ 0=false := by
  decide +kernel

end Mvua.OracleAdapter
