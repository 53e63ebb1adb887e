import Mvua.OracleAdapter.Ring

namespace Mvua.OracleAdapter

/-- Two observations of one ring that say the same: timestamp, value and publisher. -/
def Observation.Same (o o' : Observation) : Prop :=
  o.timestamp=o'.timestamp ∧ o.value=o'.value ∧ o.publisher=o'.publisher

/-- No unchallenged slot of the ring holds the observation. -/
def State.Silenced (s : State) (r m : Symbol) (o : Observation) : Prop :=
  ∀ k o', s.obs (r,m,k)=some o' → o'.Same o → isChallenged s r m k

/-- Every other slot of the ring that holds the observation of slot `k` is challenged. -/
def State.Alone (s : State) (r m : Symbol) (k : Nat) (o : Observation) : Prop :=
  ∀ k' o', k'≠k → s.obs (r,m,k')=some o' → o'.Same o → isChallenged s r m k'

section Calls

variable {env : Env} {s s' : State} {r m : Symbol} {k reason : Nat}

theorem challenge_ok (h : challenge env s r m k reason=.ok s') :
    s'.obs=s.obs ∧ ∀ r' m' k', isChallenged s' r' m' k'=
      if r'=r ∧ m'=m ∧ k'=k then true else isChallenged s r' m' k' := by
  simp only [challenge,bind_eq_ok,pure_eq_ok] at h
  obtain ⟨-,-,-,-,-,-,rfl⟩ := h
  refine ⟨rfl,fun r' m' k' => ?_⟩
  by_cases he : r'=r ∧ m'=m ∧ k'=k
  · obtain ⟨rfl,rfl,rfl⟩ := he
    simp [isChallenged,State.publish]
  · have hne : (r',m',k')≠(r,m,k) := by simpa using he
    simp [isChallenged,State.publish,he]

theorem unchallenge_ok (h : unchallenge env s r m k=.ok s') :
    s'.obs=s.obs ∧ ∀ r' m' k', isChallenged s' r' m' k'=
      if r'=r ∧ m'=m ∧ k'=k then false else isChallenged s r' m' k' := by
  simp only [unchallenge,bind_eq_ok,pure_eq_ok] at h
  obtain ⟨-,-,rfl⟩ := h
  refine ⟨rfl,fun r' m' k' => ?_⟩
  by_cases he : r'=r ∧ m'=m ∧ k'=k
  · obtain ⟨rfl,rfl,rfl⟩ := he
    simp [isChallenged,State.publish]
  · have hne : (r',m',k')≠(r,m,k) := by simpa using he
    simp [isChallenged,State.publish,he]

/-- Flagging a slot unsilences nothing; unflagging one does so in its own ring only. -/
theorem State.Silenced.reflag {r₁ m₁ : Symbol} {flag : Bool} {o : Observation}
    (hs : s.Silenced r m o) (hobs : s'.obs=s.obs)
    (hflag : ∀ r' m' k', isChallenged s' r' m' k'=
      if r'=r₁ ∧ m'=m₁ ∧ k'=k then flag else isChallenged s r' m' k')
    (hring : flag=true ∨ ¬(r=r₁ ∧ m=m₁)) : s'.Silenced r m o := by
  intro k' o' ho hsame
  rw [hobs] at ho
  rw [hflag]
  split_ifs with hk
  · rcases hring with hset | hother
    · exact hset
    · exact absurd ⟨hk.1,hk.2.1⟩ hother
  · exact hs k' o' ho hsame

/-- What a challenge silences: everything, unless another unchallenged slot holds a copy. -/
theorem challenge_silenced_iff {o : Observation} (h : challenge env s r m k reason=.ok s') :
    s'.Silenced r m o ↔ s.Alone r m k o := by
  obtain ⟨hobs,hflag⟩ := challenge_ok h
  unfold State.Silenced State.Alone
  rw [hobs]
  constructor
  · intro hs k' o' hne ho hsame
    have hc := hs k' o' ho hsame
    rwa [hflag,if_neg (fun hk => hne hk.2.2)] at hc
  · intro ha k' o' ho hsame
    rw [hflag]
    split_ifs with hk
    · rfl
    · exact ha k' o' (fun he => hk ⟨rfl,rfl,he⟩) ho hsame

theorem submit_silenced_iff {verify : BytesN 32 → ObservationPayload → BytesN 64 → Bool}
    {region metric : Symbol} {timestamp slot : Nat} {value : Int} {publisher : BytesN 32}
    {signature : BytesN 64} {o : Observation} (hs : s.Silenced r m o)
    (h : submit verify env s region metric timestamp value publisher signature=.ok (slot,s')) :
    s'.Silenced r m o ↔ ¬((r=region ∧ m=metric) ∧
      (⟨value,timestamp,publisher,true⟩ : Observation).Same o) := by
  have hobs := submit_obs h
  have hflag := submit_challenge h
  constructor
  · intro hs' hc
    obtain ⟨⟨rfl,rfl⟩,hsame⟩ := hc
    have hnew := hs' slot _ (by rw [hobs,if_pos ⟨rfl,rfl,rfl⟩]) hsame
    rw [isChallenged,hflag,if_pos ⟨rfl,rfl,rfl⟩] at hnew
    cases hnew
  · intro hne k o' ho hsame
    rw [hobs] at ho
    rw [isChallenged,hflag]
    split_ifs at ho ⊢ with hk
    · rw [Option.some.injEq] at ho
      subst o'
      exact absurd ⟨⟨hk.1,hk.2.1⟩,hsame⟩ hne
    · exact hs k o' ho hsame

theorem State.Silenced.not_counted {o : Observation} (hs : s.Silenced r m o) (b : Nat) :
    ∀ o'∈counted env s r m b, ¬o'.Same o := by
  intro o' ho' hsame
  obtain ⟨k,-,hk⟩ := List.mem_filterMap.mp ho'
  rw [countedAt,Option.filter_eq_some_iff] at hk
  have hc := hs k o' hk.1 hsame
  simp [hc] at hk

end Calls

section Runs

variable (verify : BytesN 32 → ObservationPayload → BytesN 64 → Bool)

def NoUnchallenge (r m : Symbol) (s : State) (a : Env × Call) : Prop :=
  ∀ k s', a.2=.unchallenge r m k → (machine verify).step s a≠.ok s'

def NotResubmitted (r m : Symbol) (o : Observation) (s : State) (a : Env × Call) : Prop :=
  ∀ signature s', a.2=.submit r m o.timestamp o.value o.publisher signature →
    (machine verify).step s a≠.ok s'

theorem invoke_flag_cases {env : Env} {s s' : State} {c : Call}
    (h : invoke verify env s c=.ok s') :
    (∃ r m t v p sig slot, c=.submit r m t v p sig ∧
      submit verify env s r m t v p sig=.ok (slot,s')) ∨
    (∃ r m k reason, c=.challenge r m k reason ∧ challenge env s r m k reason=.ok s') ∨
    (∃ r m k, c=.unchallenge r m k ∧ unchallenge env s r m k=.ok s') ∨
    (s'.obs=s.obs ∧ s'.challenge=s.challenge) := by
  cases c with
  | submit r m t v p sig =>
    simp only [invoke,except_map_eq_ok,Prod.exists] at h
    obtain ⟨slot,u,hu,rfl⟩ := h
    exact .inl ⟨r,m,t,v,p,sig,slot,rfl,hu⟩
  | challenge r m k reason => exact .inr (.inl ⟨r,m,k,reason,rfl,h⟩)
  | unchallenge r m k => exact .inr (.inr (.inl ⟨r,m,k,rfl,h⟩))
  | _ =>
    obtain ⟨hobs,-,hflag,-⟩ := registry_frame h trivial
    exact .inr (.inr (.inr ⟨hobs,hflag⟩))

/-- One call, apart from `unchallenge`, keeps an observation silenced exactly when it is not an
accepted resubmission. -/
theorem next_silenced_iff {r m : Symbol} {o : Observation} {s : State} {a : Env × Call}
    (hq : NoUnchallenge verify r m s a) (hs : s.Silenced r m o) :
    ((machine verify).next s a).Silenced r m o ↔ NotResubmitted verify r m o s a := by
  obtain ⟨env,c⟩ := a
  cases h : (machine verify).step s (env,c) with
  | error e =>
    rw [(machine verify).next_of_error h]
    apply iff_of_true hs
    intro _ _ _ hok
    rw [h] at hok
    cases hok
  | ok t =>
    rw [(machine verify).next_of_ok h]
    rcases invoke_flag_cases verify h with ⟨r1,m1,ts,v,p,sig,slot,rfl,hc⟩ | ⟨r1,m1,k,e,rfl,hc⟩ |
      ⟨r1,m1,k,rfl,hc⟩ | ⟨hobs,hflag⟩
    · rw [submit_silenced_iff hs hc]
      constructor
      · intro hne sig' s' he _
        cases he
        exact hne ⟨⟨rfl,rfl⟩,rfl,rfl,rfl⟩
      · intro hn hsame
        obtain ⟨⟨rfl,rfl⟩,rfl,rfl,rfl⟩ := hsame
        exact hn sig t rfl h
    · obtain ⟨hobs,hflag⟩ := challenge_ok hc
      exact iff_of_true (hs.reflag hobs hflag (.inl rfl)) (fun _ _ he => by simp at he)
    · obtain ⟨hobs,hflag⟩ := unchallenge_ok hc
      have hring : ¬(r=r1 ∧ m=m1) := by
        intro hsame
        obtain ⟨rfl,rfl⟩ := hsame
        exact hq k t rfl h
      exact iff_of_true (hs.reflag hobs hflag (.inr hring)) (fun _ _ he => by simp at he)
    · have hsame : t.Silenced r m o := by
        unfold State.Silenced isChallenged
        rw [hobs,hflag]
        exact hs
      apply iff_of_true hsame
      intro sig u he _
      cases he
      simp only [machine,invoke,except_map_eq_ok,Prod.exists] at h
      obtain ⟨slot,w,hw,rfl⟩ := h
      -- a submission always leaves its slot unchallenged and holding what it brought
      have hnew := hsame slot ⟨o.value,o.timestamp,o.publisher,true⟩
        (by rw [submit_obs hw,if_pos ⟨rfl,rfl,rfl⟩]) ⟨rfl,rfl,rfl⟩
      rw [isChallenged,submit_challenge hw,if_pos ⟨rfl,rfl,rfl⟩] at hnew
      cases hnew

/-- Over every run after a successful challenge and without a successful `unchallenge` of that
ring: the observation stays silenced in every state exactly when no unchallenged copy was left
and no later call is an accepted resubmission; while it is silenced, the median never counts it. -/
theorem challenge_lasts_iff (admin : Address) (history : List (Env × Call)) (env : Env)
    (r m : Symbol) (k reason : Nat) (o : Observation) (later : List (Env × Call)) :
    let M := machine verify
    let s := M.run (deploy admin) history
    ∀ t, M.step s (env,.challenge r m k reason)=.ok t → s.obs (r,m,k)=some o →
      M.along (NoUnchallenge verify r m) t later →
      (s.Alone r m k o ∧ M.along (NotResubmitted verify r m o) t later ↔
        ∀ before, before<+:later → (M.run t before).Silenced r m o ∧
          ∀ now, ∀ o'∈counted now (M.run t before) r m stalenessSecs, ¬o'.Same o) := by
  intro M s t h _ hq
  have hfirst := challenge_silenced_iff (o := o) h
  have hrun (hi : t.Silenced r m o) := M.along_iff_prefixes (fun _ => True)
    (fun u => u.Silenced r m o) (NotResubmitted verify r m o) (NoUnchallenge verify r m)
    (fun _ _ _ => trivial) (fun _ _ _ hq hs => next_silenced_iff verify hq hs) later t trivial hi hq
  constructor
  · intro hcond before hb
    have hs := (hrun (hfirst.mpr hcond.1)).mp hcond.2 before hb
    exact ⟨hs,fun now => hs.not_counted stalenessSecs⟩
  · intro hall
    have hi : t.Silenced r m o := (hall [] (by simp)).1
    exact ⟨hfirst.mp hi,(hrun hi).mpr fun before hb => (hall before hb).1⟩

end Runs

/-- Four observations of three publishers, the third far off. -/
def outlierRun : List (Env × Call) := threePublishers++[
  sampleSubmit 999001 10 1,sampleSubmit 999002 20 2,sampleSubmit 999003 900 3,
  sampleSubmit 999004 14 1]

/-- The signed payload of the challenged outlier is handed in again, by anybody. -/
theorem resubmission_escapes_challenge :
    let M := machine signedAll
    let s := M.run sampleStart outlierRun
    let guardian : Env := ⟨1000000,[⟨0⟩]⟩
    let t := M.next s (guardian,.challenge ⟨1⟩ ⟨1⟩ 2 7)
    let u := M.next t (sampleSubmit 999003 900 3)
    (M.step s (guardian,.challenge ⟨1⟩ ⟨1⟩ 2 7)).isOk ∧
    s.obs (⟨1⟩,⟨1⟩,2)=some ⟨900,999003,3,true⟩ ∧
    median ⟨1000000,[]⟩ t ⟨1⟩ ⟨1⟩=.ok 14 ∧
    u.obs (⟨1⟩,⟨1⟩,4)=some ⟨900,999003,3,true⟩ ∧ isChallenged u ⟨1⟩ ⟨1⟩ 4=false ∧
    median ⟨1000000,[]⟩ u ⟨1⟩ ⟨1⟩=.ok 17 := by
  decide +kernel

theorem outlier_alone : ((machine signedAll).run (deploy ⟨0⟩) outlierRun).Alone ⟨1⟩ ⟨1⟩ 2
    ⟨900,999003,3,true⟩ := by
  have hothers : ∀ k<(readHead ((machine signedAll).run (deploy ⟨0⟩) outlierRun) ⟨1⟩ ⟨1⟩).count,
      k≠2 → ∀ o∈((machine signedAll).run (deploy ⟨0⟩) outlierRun).obs (⟨1⟩,⟨1⟩,k),
        o.value≠900 := by
    decide +kernel
  have hr : ((machine signedAll).run (deploy ⟨0⟩) outlierRun).Ring := run_ring signedAll ⟨0⟩ _
  generalize (machine signedAll).run (deploy ⟨0⟩) outlierRun=s at hothers hr
  intro k o hne ho hsame
  exact absurd hsame.2.1 (hothers k (hr.lt_of_obs ho) hne o ho)

/-- Other submissions, of the same publisher too, leave the outlier out. -/
theorem challenge_lasts_outlier :
    let M := machine signedAll
    let t := M.next (M.run (deploy ⟨0⟩) outlierRun) (⟨1000000,[⟨0⟩]⟩,.challenge ⟨1⟩ ⟨1⟩ 2 7)
    ∀ before, before<+:[sampleSubmit 999005 16 3,sampleSubmit 999006 900 3] →
      (M.run t before).Silenced ⟨1⟩ ⟨1⟩ ⟨900,999003,3,true⟩ := by
  intro M t before hb
  have hok : M.step (M.run (deploy ⟨0⟩) outlierRun)
      (⟨1000000,[⟨0⟩]⟩,.challenge ⟨1⟩ ⟨1⟩ 2 7)=.ok t :=
    M.step_of_isOk (by decide +kernel)
  clear_value t
  have hquiet : M.along (NoUnchallenge signedAll ⟨1⟩ ⟨1⟩) t
      [sampleSubmit 999005 16 3,sampleSubmit 999006 900 3] := by
    simp only [Machine.along,NoUnchallenge,sampleSubmit,reduceCtorEq,false_implies,implies_true,
      and_self]
  have hnew : M.along (NotResubmitted signedAll ⟨1⟩ ⟨1⟩ ⟨900,999003,3,true⟩) t
      [sampleSubmit 999005 16 3,sampleSubmit 999006 900 3] := by
    simp [Machine.along,NotResubmitted,sampleSubmit]
  exact ((challenge_lasts_iff signedAll ⟨0⟩ outlierRun ⟨1000000,[⟨0⟩]⟩ ⟨1⟩ ⟨1⟩ 2 7
    ⟨900,999003,3,true⟩ _ t hok (by decide +kernel) hquiet).mp ⟨outlier_alone,hnew⟩ before hb).1

end Mvua.OracleAdapter
