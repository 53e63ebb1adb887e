import Mvua.OracleAdapter.Registry
import Mvua.OracleAdapter.Influence
import Mathlib.Data.Finset.Max

namespace Mvua.OracleAdapter

variable (verify : BytesN 32 → ObservationPayload → BytesN 64 → Bool)

/-- A publisher on the register signed the observation, for the pair it is stored under. -/
structure Observation.Signed (o : Observation) (s : State) (region metric : Symbol) : Prop where
  registered : (s.publisher o.publisher).isSome
  signature : ∃ signature, verify o.publisher ⟨region,metric,o.timestamp,o.value⟩ signature

/-- Everything in the rings is signed. -/
def State.Signed (s : State) : Prop :=
  ∀ r m k o, s.obs (r,m,k)=some o → o.Signed verify s r m

/-- An observation that `median` counts. -/
structure Observation.Standing (o : Observation) (env : Env) (s : State) (region metric : Symbol) :
    Prop extends o.Signed verify s region metric where
  fresh : env.timestamp-o.timestamp≤ stalenessSecs
  unchallenged : ∃ k, s.obs (region,metric,k)=some o ∧ isChallenged s region metric k=false

/-- Observations of at least two publishers stand for the value: none of them alone is behind it,
and it lies between two of them. -/
def Attested (env : Env) (s : State) (region metric : Symbol) (v : Int) : Prop :=
  ∃ os : List Observation, (∀ o∈os, o.Standing verify env s region metric) ∧
    minPublishers≤distinctPublishers os ∧ ∃ lo∈os, ∃ hi∈os, lo.value≤v ∧ v≤hi.value

section Steps

variable {verify} {env : Env} {s s' : State} {r m : Symbol}

/-- A registration is for good, so a signed observation stays signed. -/
theorem Observation.Signed.mono {o : Observation} (h : o.Signed verify s r m)
    (hstays : ∀ key, (s.publisher key).isSome → (s'.publisher key).isSome) :
    o.Signed verify s' r m :=
  ⟨hstays _ h.registered,h.signature⟩

theorem invoke_registered {c : Call} (h : invoke verify env s c=.ok s') (key : BytesN 32)
    (hkey : (s.publisher key).isSome) : (s'.publisher key).isSome := by
  have hrun := record_stays verify s [(env,c)] key hkey
  have hnext : (machine verify).next s (env,c)=s' := (machine verify).next_of_ok h
  rwa [Machine.run_cons,hnext] at hrun

theorem deploy_signed (admin : Address) : (deploy admin).Signed verify :=
  fun _ _ _ _ h => absurd h (Option.some_ne_none _).symm

theorem invoke_signed {c : Call} (hs : s.Signed verify) (h : invoke verify env s c=.ok s') :
    s'.Signed verify := by
  intro r m k o ho
  have stays := invoke_registered h
  rcases invoke_cases verify h with ⟨r',m',t,v,p,sig,slot,-,hu⟩ | ⟨hobs,-,-⟩
  · rw [submit_obs hu] at ho
    split_ifs at ho with hat
    · -- the slot that this submission wrote
      obtain ⟨rfl,rfl,rfl⟩ := hat
      rw [Option.some.injEq] at ho
      subst ho
      obtain ⟨hactive,-,-,hverify,-⟩ := submit_ok hu
      have hknown : (s.publisher p).isSome := by
        cases hp : s.publisher p with
        | none => simp [hp] at hactive
        | some info => rfl
      exact ⟨stays p hknown,sig,hverify⟩
    · exact (hs r m k o ho).mono stays
  · rw [hobs] at ho
    exact (hs r m k o ho).mono stays

theorem counted_standing (hs : s.Signed verify) {o : Observation}
    (h : o∈counted env s r m stalenessSecs) : o.Standing verify env s r m := by
  obtain ⟨k,-,hk⟩ := List.mem_filterMap.mp h
  obtain ⟨hobs,hcounts⟩ := Option.filter_eq_some_iff.mp hk
  simp only [Bool.and_eq_true,decide_eq_true_eq,Bool.not_eq_true'] at hcounts
  obtain ⟨⟨-,hfresh⟩,hunchallenged⟩ := hcounts
  exact { hs r m k o hobs with
    fresh := hfresh
    unchallenged := ⟨k,hobs,hunchallenged⟩ }

/-- What `median` answers is attested. -/
theorem median_attested (hr : s.Ring) (hs : s.Signed verify) {v : Int}
    (h : median env s r m=.ok v) : Attested verify env s r m v := by
  let os := counted env s r m stalenessSecs
  rw [hr.median_eq] at h
  obtain ⟨hne,htwo,rfl⟩ := aggregate_eq_ok h
  have hnn : ∀ x∈os.map Observation.value, 0≤x := by
    intro x hx
    obtain ⟨o,ho,rfl⟩ := List.mem_map.mp hx
    obtain ⟨k,hk⟩ := mem_counted ho
    exact (hr.obs r m k o hk).1
  have hsome : os.toFinset.Nonempty := by
    rw [List.toFinset_nonempty_iff]
    exact hne
  obtain ⟨lo,hlo,hleast⟩ := os.toFinset.exists_min_image Observation.value hsome
  obtain ⟨hi,hhi,hgreatest⟩ := os.toFinset.exists_max_image Observation.value hsome
  rw [List.mem_toFinset] at hlo hhi
  refine ⟨os,fun o ho => counted_standing hs ho,htwo,lo,hlo,hi,hhi,?_,?_⟩
  · refine least_le_middle hnn (List.mem_map_of_mem hlo) fun x hx => ?_
    obtain ⟨o,ho,rfl⟩ := List.mem_map.mp hx
    exact hleast o (List.mem_toFinset.mpr ho)
  · refine middle_le_greatest hnn (List.mem_map_of_mem hhi) fun x hx => ?_
    obtain ⟨o,ho,rfl⟩ := List.mem_map.mp hx
    exact hgreatest o (List.mem_toFinset.mpr ho)

end Steps

/-- An observation was in the rings of a state, or a publisher that was active there signed it. -/
def Vetted (s : State) (region metric : Symbol) (o : Observation) : Prop :=
  (∃ k, s.obs (region,metric,k)=some o) ∨
    isActive s o.publisher=true ∧
      ∃ signature, verify o.publisher ⟨region,metric,o.timestamp,o.value⟩ signature=true

/-- Up to a deadline nothing has come of what was proposed: the register is that of an earlier
state, and so is the origin of every observation. -/
structure Frozen (deadline : Nat) (s s' : State) : Prop where
  publisher : s'.publisher=s.publisher
  pending : ∀ key change, s'.pendingPublisher key=some change → deadline ≤ change.eta
  obs : ∀ r m k o, s'.obs (r,m,k)=some o → Vetted verify s r m o

section Frozen

variable {verify} {env : Env} {s s' u : State} {deadline : Nat}

theorem Frozen.refl (h : ∀ key change, s.pendingPublisher key=some change → deadline ≤ change.eta) :
    Frozen verify deadline s s :=
  ⟨rfl,h,fun _ _ k _ ho => .inl ⟨k,ho⟩⟩

/-- A change that is proposed within one timelock of the deadline cannot be executed before it. -/
theorem Frozen.next {c : Call} (h : Frozen verify deadline s s') (hbefore : env.timestamp<deadline)
    (hsoon : deadline≤env.timestamp+registryTimelockSecs) (hc : invoke verify env s' c=.ok u) :
    Frozen verify deadline s u := by
  refine ⟨funext fun key => ?_,fun key change hchange => ?_,fun r m k o ho => ?_⟩
  · rw [← h.publisher]
    cases invoke_registryStep hc key with
    | propose _ _ _ hpublisher _ => exact hpublisher
    | execute change info hpending hwaited _ _ _ =>
      have heta := h.pending key change hpending
      omega
    | cancel hpublisher _ => exact hpublisher
    | other _ _ _ hpublisher _ => exact hpublisher
  · cases invoke_registryStep hc key with
    | propose add _ _ _ hpending =>
      rw [hpending,Option.some.injEq] at hchange
      subst hchange
      exact hsoon
    | execute _ _ _ _ _ _ hdone | cancel _ hdone =>
      rw [hdone] at hchange
      cases hchange
    | other _ _ _ _ hpending =>
      rw [hpending] at hchange
      exact h.pending key change hchange
  · rcases invoke_cases verify hc with ⟨r',m',t,v,p,sig,slot,-,hu⟩ | ⟨hobs,-,-⟩
    · rw [submit_obs hu] at ho
      split_ifs at ho with hat
      · -- the slot that this submission wrote
        obtain ⟨rfl,rfl,rfl⟩ := hat
        rw [Option.some.injEq] at ho
        subst ho
        obtain ⟨hactive,-,-,hverify,-⟩ := submit_ok hu
        refine .inr ⟨?_,sig,hverify⟩
        rw [isActive,← h.publisher,hactive]
        rfl
      · exact h.obs r m k o ho
    · rw [hobs] at ho
      exact h.obs r m k o ho

end Frozen

end Mvua.OracleAdapter
