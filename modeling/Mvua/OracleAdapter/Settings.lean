import Mvua.OracleAdapter.Ring

namespace Mvua.OracleAdapter

/-- What only the admin of the oracle adapter decides. -/
structure Settings where
  admin : Option Address
  publisher : BytesN 32 → Option PublisherInfo
  pendingPublisher : BytesN 32 → Option PendingRegistry
  stalenessBound : Option Nat

def State.settings (s : State) : Settings :=
  ⟨s.admin,s.publisher,s.pendingPublisher,s.stalenessBound⟩

/-- The slot that a call writes, if it is a submission that is accepted. -/
def written (verify : BytesN 32 → ObservationPayload → BytesN 64 → Bool) (env : Env) (s : State) :
    Call → List (Symbol × Symbol × Nat)
  | .submit r m timestamp value publisher signature =>
      match submit verify env s r m timestamp value publisher signature with
      | .ok (slot,_) => [(r,m,slot)]
      | .error _ => []
  | _ => []

section Calls

variable {verify : BytesN 32 → ObservationPayload → BytesN 64 → Bool} {admin : Address}
  {env : Env} {s s' : State}

theorem invoke_admin {c : Call} (h : invoke verify env s c=.ok s') : s'.admin=s.admin := by
  cases c with
  | proposePublisher p add =>
    simp only [invoke,proposePublisher,except_map_eq_ok,bind_eq_ok,pure_eq_ok] at h
    obtain ⟨_,⟨-,-,-,-,-,-,-,-,_,-,rfl⟩,rfl⟩ := h
    rfl
  | executePublisher p =>
    simp only [invoke,executePublisher,bind_eq_ok] at h
    obtain ⟨-,-,change,-,-,-,h⟩ := h
    split_ifs at h
    all_goals
      simp only [bind_eq_ok,pure_eq_ok] at h
    · obtain ⟨_,-,rfl⟩ := h
      rfl
    · obtain ⟨_,-,_,-,rfl⟩ := h
      rfl
  | cancelPublisher p =>
    simp only [invoke,cancelPublisher,bind_eq_ok,pure_eq_ok] at h
    obtain ⟨-,-,-,-,rfl⟩ := h
    rfl
  | challenge r m k reason =>
    simp only [invoke,challenge,bind_eq_ok,pure_eq_ok] at h
    obtain ⟨-,-,-,-,-,-,rfl⟩ := h
    rfl
  | unchallenge r m k =>
    simp only [invoke,unchallenge,bind_eq_ok,pure_eq_ok] at h
    obtain ⟨-,-,rfl⟩ := h
    rfl
  | submit r m t v p sig =>
    simp only [invoke,except_map_eq_ok,Prod.exists] at h
    obtain ⟨slot,_,h,rfl⟩ := h
    obtain ⟨-,-,-,-,-,rfl⟩ := submit_ok h
    rfl

theorem written_of_error {c : Call} {e : Abort Error} (h : invoke verify env s c=.error e) :
    written verify env s c=[] := by
  cases c with
  | submit r m t v p sig =>
    rw [invoke] at h
    rw [written]
    cases hc : submit verify env s r m t v p sig with
    | error e => rfl
    | ok x => simp [hc,Except.map] at h
  | proposePublisher | executePublisher | cancelPublisher | challenge | unchallenge => rfl

/-- Without the admin the register stays, and a challenge ends only in a slot that an accepted
submission writes. -/
theorem invoke_settings {c : Call} (ha : s.admin=some admin) (hu : admin∉env.signers)
    (h : invoke verify env s c=.ok s') : s'.settings=s.settings ∧
    ∀ k, s'.challenge k=if k∈written verify env s c then none else s.challenge k := by
  cases c with
  | proposePublisher p add =>
    simp only [invoke,except_map_eq_ok] at h
    obtain ⟨_,h,-⟩ := h
    exact absurd h (unauthorized ha hu)
  | executePublisher p => exact absurd h (unauthorized ha hu)
  | cancelPublisher p => exact absurd h (unauthorized ha hu)
  | challenge r m k reason => exact absurd h (unauthorized ha hu)
  | unchallenge r m k => exact absurd h (unauthorized ha hu)
  | submit r m t v p sig =>
    simp only [invoke,except_map_eq_ok,Prod.exists] at h
    obtain ⟨slot,_,h,rfl⟩ := h
    obtain ⟨-,-,-,-,-,hs⟩ := submit_ok h
    refine ⟨by rw [hs]; rfl,fun k => ?_⟩
    obtain ⟨r',m',k⟩ := k
    rw [submit_challenge h,written,h]
    simp only [List.mem_singleton,Prod.mk.injEq]

end Calls

end Mvua.OracleAdapter
