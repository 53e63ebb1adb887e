import Mvua.OracleAdapter.Ring

namespace Mvua.OracleAdapter

/-- Whether a key may submit observations. -/
def isActive (s : State) (key : BytesN 32) : Bool :=
  ((s.publisher key).map PublisherInfo.active).getD false

theorem isActive_of_record {s : State} {key : BytesN 32} {info : PublisherInfo}
    (h : s.publisher key=some info) : isActive s key=info.active := by
  rw [isActive,h]
  rfl

/-- What a successful call does to the registry entry of a key and its pending change. -/
inductive RegistryStep (env : Env) (s s' : State) (key : BytesN 32) : Call → Prop where
  | propose (add : Bool) (none_pending : s.pendingPublisher key=none)
      (change : add≠isActive s key) (publisher : s'.publisher key=s.publisher key)
      (pending : s'.pendingPublisher key=some ⟨add,env.timestamp+registryTimelockSecs⟩) :
      RegistryStep env s s' key (.proposePublisher key add)
  | execute (change : PendingRegistry) (info : PublisherInfo)
      (pending : s.pendingPublisher key=some change) (waited : change.eta≤env.timestamp)
      (publisher : s'.publisher key=some info) (active : info.active=change.add)
      (done : s'.pendingPublisher key=none) : RegistryStep env s s' key (.executePublisher key)
  | cancel (publisher : s'.publisher key=s.publisher key)
      (done : s'.pendingPublisher key=none) : RegistryStep env s s' key (.cancelPublisher key)
  | other (c : Call) (not_execute : c≠.executePublisher key) (not_cancel : c≠.cancelPublisher key)
      (publisher : s'.publisher key=s.publisher key)
      (pending : s'.pendingPublisher key=s.pendingPublisher key) : RegistryStep env s s' key c

section Calls

variable {verify : BytesN 32 → ObservationPayload → BytesN 64 → Bool} {env : Env} {s s' : State}
  {key p : BytesN 32}

theorem proposePublisher_step {add : Bool} {eta : Nat}
    (h : proposePublisher env s p add=.ok (eta,s')) :
    RegistryStep env s s' key (.proposePublisher p add) := by
  simp only [proposePublisher,bind_eq_ok,pure_eq_ok,failIf_eq_ok,okOr_eq_ok,
    Unsigned.checkedAdd_eq_some,Prod.mk.injEq] at h
  obtain ⟨-,-,-,hnone,-,hadd,-,hremove,_,⟨-,rfl⟩,-,rfl⟩ := h
  by_cases hp : key=p
  · subst hp
    refine .propose add ?_ ?_ rfl (Function.update_self _ _ _)
    · simpa using hnone
    · intro he
      unfold isActive at he
      cases add with
      | true => exact hadd ⟨rfl,he.symm⟩
      | false => exact hremove ⟨by simp,by simp [← he]⟩
  · exact .other _ (by simp) (by simp) rfl (Function.update_of_ne hp _ _)

theorem executePublisher_step (h : executePublisher env s p=.ok s') :
    RegistryStep env s s' key (.executePublisher p) := by
  simp only [executePublisher,bind_eq_ok,failIf_eq_ok,okOr_eq_ok] at h
  obtain ⟨-,-,change,hpending,-,hwait,h⟩ := h
  have written : ∃ info e, info.active=change.add ∧ s'={ s with
      publisher := Function.update s.publisher p (some info)
      pendingPublisher := Function.update s.pendingPublisher p none
      events := e } := by
    split_ifs at h with hadd
    · simp only [bind_eq_ok,pure_eq_ok] at h
      obtain ⟨_,rfl,rfl⟩ := h
      exact ⟨_,_,hadd.symm,rfl⟩
    · simp only [bind_eq_ok,okOr_eq_ok,pure_eq_ok] at h
      obtain ⟨info,-,_,rfl,rfl⟩ := h
      exact ⟨_,_,by simpa using hadd,rfl⟩
  obtain ⟨info,e,hactive,rfl⟩ := written
  by_cases hp : key=p
  · subst hp
    exact .execute change info hpending (by omega) (Function.update_self _ _ _) hactive
      (Function.update_self _ _ _)
  · refine .other _ ?_ (by simp) (Function.update_of_ne hp _ _) (Function.update_of_ne hp _ _)
    intro he
    rw [Call.executePublisher.injEq] at he
    exact hp he.symm

theorem cancelPublisher_step (h : cancelPublisher env s p=.ok s') :
    RegistryStep env s s' key (.cancelPublisher p) := by
  simp only [cancelPublisher,bind_eq_ok,pure_eq_ok] at h
  obtain ⟨-,-,-,-,rfl⟩ := h
  by_cases hp : key=p
  · subst hp
    exact .cancel rfl (Function.update_self _ _ _)
  · refine .other _ (by simp) ?_ rfl (Function.update_of_ne hp _ _)
    intro he
    rw [Call.cancelPublisher.injEq] at he
    exact hp he.symm

theorem invoke_registryStep {c : Call} (h : invoke verify env s c=.ok s') (key : BytesN 32) :
    RegistryStep env s s' key c := by
  cases c with
  | proposePublisher p add =>
    simp only [invoke,except_map_eq_ok,Prod.exists] at h
    obtain ⟨eta,u,hu,rfl⟩ := h
    exact proposePublisher_step hu
  | executePublisher p => exact executePublisher_step h
  | cancelPublisher p => exact cancelPublisher_step h
  | submit r m t v p sig =>
    simp only [invoke,except_map_eq_ok,Prod.exists] at h
    obtain ⟨slot,u,hu,rfl⟩ := h
    obtain ⟨-,-,-,-,-,rfl⟩ := submit_ok hu
    exact .other _ (by simp) (by simp) rfl rfl
  | challenge r m k reason =>
    simp only [invoke,challenge,bind_eq_ok,pure_eq_ok] at h
    obtain ⟨-,-,-,-,-,-,rfl⟩ := h
    exact .other _ (by simp) (by simp) rfl rfl
  | unchallenge r m k =>
    simp only [invoke,unchallenge,bind_eq_ok,pure_eq_ok] at h
    obtain ⟨-,-,rfl⟩ := h
    exact .other _ (by simp) (by simp) rfl rfl

end Calls

/-- A pending addition is of a key that is not active, a pending removal of one that is. -/
def State.Registry (s : State) : Prop :=
  ∀ key change, s.pendingPublisher key=some change → change.add≠isActive s key

/-- The call neither cancels nor executes a change of the key. -/
def LeavesPending (verify : BytesN 32 → ObservationPayload → BytesN 64 → Bool) (key : BytesN 32)
    (s : State) (a : Env × Call) : Prop :=
  ∀ t, (machine verify).step s a=.ok t → a.2≠.cancelPublisher key ∧ a.2≠.executePublisher key

/-- The pending change of a key was proposed in a run, and neither cancelled nor executed since. -/
def Proposed (verify : BytesN 32 → ObservationPayload → BytesN 64 → Bool) (start : State)
    (calls : List (Env × Call)) (key : BytesN 32) (add : Bool) (time : Nat) : Prop :=
  ∃ before env later, calls=before++(env,.proposePublisher key add)::later ∧
    ((machine verify).step ((machine verify).run start before)
      (env,.proposePublisher key add)).isOk ∧ env.timestamp=time ∧
    (machine verify).along (LeavesPending verify key)
      ((machine verify).run start (before++[(env,.proposePublisher key add)])) later

section Steps

variable {verify : BytesN 32 → ObservationPayload → BytesN 64 → Bool} {env : Env} {s s' : State}
  {key : BytesN 32} {c : Call}

theorem isActive_congr (h : s'.publisher key=s.publisher key) :
    isActive s' key=isActive s key := by
  rw [isActive,h,isActive]

theorem RegistryStep.registry (hs : s.Registry) (h : ∀ key, RegistryStep env s s' key c) :
    s'.Registry := by
  intro key change hc
  cases h key with
  | propose add hnone hchange hpub hpending =>
    rw [hpending,Option.some.injEq] at hc
    rw [isActive_congr hpub,← hc]
    exact hchange
  | execute change' info hpending hwaited hpub hactive hdone =>
    rw [hdone] at hc
    cases hc
  | cancel hpub hdone =>
    rw [hdone] at hc
    cases hc
  | other _ _ _ hpub hpending =>
    rw [hpending] at hc
    rw [isActive_congr hpub]
    exact hs key change hc

/-- The status of a key only changes by executing its pending change. -/
theorem RegistryStep.status (h : RegistryStep env s s' key c)
    (hne : isActive s' key≠isActive s key) :
    ∃ change, s.pendingPublisher key=some change ∧ change.eta≤env.timestamp ∧
      change.add=isActive s' key := by
  cases h with
  | propose add hnone hchange hpub hpending => exact absurd (isActive_congr hpub) hne
  | execute change info hpending hwaited hpub hactive hdone =>
    exact ⟨change,hpending,hwaited,((isActive_of_record hpub).trans hactive).symm⟩
  | cancel hpub hdone => exact absurd (isActive_congr hpub) hne
  | other _ _ _ hpub hpending => exact absurd (isActive_congr hpub) hne

/-- Execution of a pending change always changes the status. -/
theorem executePublisher_changes (hs : s.Registry) (h : executePublisher env s key=.ok s') :
    isActive s' key≠isActive s key := by
  have hstep : RegistryStep env s s' key (.executePublisher key) := executePublisher_step h
  cases hstep with
  | execute change info hpending hwaited hpub hactive hdone =>
    rw [isActive_of_record hpub,hactive]
    exact hs key change hpending
  | other _ hexec _ _ _ => exact absurd rfl hexec

/-- A pending removal finds its record. -/
theorem executePublisher_known (hs : s.Registry) :
    FailsOnly (fun e => e≠.error .unknownPublisher) (executePublisher env s key) := by
  unfold executePublisher requireAdmin
  refine .bind (.requireStored (by simp) (by simp)) fun _ _ => ?_
  refine .bind (.okOr fun _ => by simp) fun change hpending => ?_
  rw [okOr_eq_ok] at hpending
  refine .bind (.failIf fun _ => by simp) fun _ _ => ?_
  split_ifs with hadd
  · exact .ok _
  · refine .bind (.okOr fun hnone => ?_) fun _ _ => .ok _
    have hchange := hs key change hpending
    rw [isActive,hnone] at hchange
    exact absurd (by simpa using hadd) hchange

end Steps

section Runs

variable (verify : BytesN 32 → ObservationPayload → BytesN 64 → Bool)

theorem deploy_registry (admin : Address) : (deploy admin).Registry :=
  fun _ _ h => nomatch h

theorem run_registry {s : State} (hs : s.Registry) (calls : List (Env × Call)) :
    ((machine verify).run s calls).Registry :=
  (machine verify).run_invariant State.Registry
    (fun _ _ _ hs h => RegistryStep.registry hs (fun key => invoke_registryStep h key)) calls s hs

variable {verify} in
/-- A call that leaves the pending change alone leaves its proposal the last word on the key. -/
theorem Proposed.concat {start : State} {calls : List (Env × Call)} {key : BytesN 32} {add : Bool}
    {time : Nat} {a : Env × Call} (h : Proposed verify start calls key add time)
    (ha : LeavesPending verify key ((machine verify).run start calls) a) :
    Proposed verify start (calls++[a]) key add time := by
  obtain ⟨before,env,later,rfl,hok,htime,halong⟩ := h
  refine ⟨before,env,later++[a],by simp,hok,htime,?_⟩
  rw [Machine.along_concat]
  refine ⟨halong,?_⟩
  rwa [← Machine.run_append,List.append_assoc]

/-- Every pending change was proposed one timelock before it may be executed. -/
theorem pending_proposed (start : State) (hstart : ∀ key, start.pendingPublisher key=none)
    (calls : List (Env × Call)) (key : BytesN 32) (change : PendingRegistry)
    (h : ((machine verify).run start calls).pendingPublisher key=some change) :
    ∃ time, Proposed verify start calls key change.add time ∧
      change.eta=time+registryTimelockSecs := by
  induction calls using List.reverseRecOn generalizing change with
  | nil =>
    rw [Machine.run_nil,hstart] at h
    cases h
  | append_singleton calls a ih =>
    rw [Machine.run_concat] at h
    cases hs : (machine verify).step ((machine verify).run start calls) a with
    | error e =>
      rw [(machine verify).next_of_error hs] at h
      obtain ⟨time,hp,heta⟩ := ih change h
      have hleave : LeavesPending verify key ((machine verify).run start calls) a := by
        intro t ht
        rw [hs] at ht
        cases ht
      exact ⟨time,hp.concat hleave,heta⟩
    | ok t =>
      rw [(machine verify).next_of_ok hs] at h
      obtain ⟨env,c⟩ := a
      have hstep := invoke_registryStep hs key
      cases hstep with
      | propose add hnone hchange hpub hpending =>
        rw [hpending,Option.some.injEq] at h
        subst h
        refine ⟨env.timestamp,⟨calls,env,[],rfl,?_,rfl,trivial⟩,rfl⟩
        rw [hs]
        rfl
      | execute change' info hpending hwaited hpub hactive hdone =>
        rw [hdone] at h
        cases h
      | cancel hpub hdone =>
        rw [hdone] at h
        cases h
      | other c hexec hcancel hpub hpending =>
        rw [hpending] at h
        obtain ⟨time,hp,heta⟩ := ih change h
        exact ⟨time,hp.concat (fun _ _ => ⟨hcancel,hexec⟩),heta⟩

/-- A record is never deleted. -/
theorem record_stays (s : State) (calls : List (Env × Call)) (key : BytesN 32)
    (h : (s.publisher key).isSome) :
    (((machine verify).run s calls).publisher key).isSome := by
  apply (machine verify).run_invariant (fun s => (s.publisher key).isSome) ?_ calls s h
  intro s a t hs ha
  obtain ⟨env,c⟩ := a
  have hstep := invoke_registryStep ha key
  cases hstep with
  | propose add hnone hchange hpub hpending => rw [hpub]; exact hs
  | execute change info hpending hwaited hpub hactive hdone => rw [hpub]; rfl
  | cancel hpub hdone => rw [hpub]; exact hs
  | other c hexec hcancel hpub hpending => rw [hpub]; exact hs

/-- In every run, a change of a key's status was proposed one timelock before, in the same
direction, with no cancellation or execution for the key since; what is pending is always a
change; and no record is deleted. -/
theorem registry_waits_timelock (admin : Address) (calls : List (Env × Call)) (key : BytesN 32) :
    let M := machine verify
    let s := M.run (deploy admin) calls
    (∀ a, isActive (M.next s a) key≠isActive s key →
      ∃ time, Proposed verify (deploy admin) calls key (isActive (M.next s a) key) time ∧
        time+604800≤a.1.timestamp) ∧
    (∀ change, s.pendingPublisher key=some change → (change.add=true ↔ isActive s key=false)) ∧
    (∀ env t, executePublisher env s key=.ok t → isActive t key≠isActive s key) ∧
    (∀ env, executePublisher env s key≠.error (.error .unknownPublisher)) ∧
    ∀ later, (s.publisher key).isSome → ((M.run s later).publisher key).isSome := by
  intro M s
  have hs : s.Registry := run_registry verify (deploy_registry admin) calls
  refine ⟨?_,?_,?_,?_,?_⟩
  · intro a hne
    rcases M.next_cases s a with h | h
    · rw [h] at hne
      exact absurd rfl hne
    · obtain ⟨change,hpending,hwaited,hadd⟩ := (invoke_registryStep h key).status hne
      obtain ⟨time,hp,heta⟩ := pending_proposed verify (deploy admin) (fun _ => rfl) calls key
        change hpending
      rw [hadd] at hp
      exact ⟨time,hp,heta ▸ hwaited⟩
  · intro change hpending
    have hchange := hs key change hpending
    revert hchange
    cases change.add <;> cases isActive s key <;> simp
  · exact fun env t h => executePublisher_changes hs h
  · exact fun env h => executePublisher_known hs _ h rfl
  · exact fun later h => record_stays verify s later key h

end Runs

/-- A removed key is proposed again, and stays inactive until it has waited again. -/
example : let s := (machine signedAll).run sampleStart (threePublishers++[
      (⟨700000,[⟨0⟩]⟩,.proposePublisher 1 false),(⟨1304800,[⟨0⟩]⟩,.executePublisher 1),
      (⟨1304800,[⟨0⟩]⟩,.proposePublisher 1 true),(⟨1909599,[⟨0⟩]⟩,.executePublisher 1)])
    isActive s 1=false ∧ s.pendingPublisher 1=some ⟨true,1909600⟩ ∧
    isActive ((machine signedAll).next s (⟨1909600,[⟨0⟩]⟩,.executePublisher 1)) 1=true := by
  decide +kernel

end Mvua.OracleAdapter
