import Mvua.TriggerEngine.Accumulation

namespace Mvua.TriggerEngine

/-- What only the admin of the trigger engine decides. -/
structure Settings where
  admin : Option Address
  indexCount : Option Nat
  oracleRef : Option Address
  indexDef : Nat → Option IndexDefinition
  accumulator : Nat × Nat → Option WindowAccumulator
  evalCursor : Nat × Nat → Option Nat

def State.settings (s : State) : Settings :=
  ⟨s.admin,s.indexCount,s.oracleRef,s.indexDef,s.accumulator,s.evalCursor⟩

/-- A window stays as it is, or is found triggered. -/
def Detects (s s' : State) : Prop :=
  ∀ i n, readState s' i n=readState s i n ∨
    readState s i n=.healthy ∧ ∃ time, readState s' i n=.triggered time

theorem Detects.refl (s : State) : Detects s s := fun _ _ => .inl rfl

theorem Detects.trans {s s' s'' : State} (h : Detects s s') (h' : Detects s' s'') :
    Detects s s'' := by
  intro i n
  rcases h i n with he | ⟨hs,time,hs'⟩
  · rw [← he]
    exact h' i n
  · rcases h' i n with he' | ⟨hs'',-⟩
    · exact .inr ⟨hs,time,he'.trans hs'⟩
    · rw [hs'] at hs''
      cases hs''

section Calls

variable {admin : Address} {env : Env} {s s' : State}

theorem invoke_admin {c : Call} (h : invoke env s c=.ok s') : s'.admin=s.admin := by
  cases c with
  | createIndex params =>
    simp only [invoke,createIndex,except_map_eq_ok,bind_eq_ok,pure_eq_ok] at h
    obtain ⟨_,⟨_,-,_,-,_,-,rfl⟩,rfl⟩ := h
    rfl
  | recordDay i n day value =>
    simp only [invoke,recordDay,bind_eq_ok] at h
    obtain ⟨-,-,d,-,hf⟩ := h
    obtain ⟨-,-,-,rfl⟩ := foldDay_ok hf
    rfl
  | recordDayFromOracle i n day oracle =>
    simp only [invoke,recordDayFromOracle,except_map_eq_ok,bind_eq_ok,pure_eq_ok] at h
    obtain ⟨_,⟨_,-,d,-,_,-,_,-,u,hf,rfl⟩,rfl⟩ := h
    obtain ⟨-,-,-,rfl⟩ := foldDay_ok hf
    rfl
  | setOracle oracle =>
    simp only [invoke,setOracle,bind_eq_ok,pure_eq_ok] at h
    obtain ⟨-,-,rfl⟩ := h
    rfl
  | evaluate i n =>
    simp only [invoke,except_map_eq_ok,Prod.exists] at h
    obtain ⟨status,u,hu,rfl⟩ := h
    obtain ⟨f,e,rfl⟩ := evaluate_frame hu
    rfl
  | finalize i n =>
    simp only [invoke,except_map_eq_ok,Prod.exists] at h
    obtain ⟨status,u,hu,rfl⟩ := h
    obtain ⟨_,_,_,_,-,-,-,-,-,rfl⟩ := finalize_ok hu
    rfl

/-- Without the admin a window is at most found triggered. -/
theorem invoke_settings {c : Call} (ha : s.admin=some admin) (hu : admin∉env.signers)
    (h : invoke env s c=.ok s') : s'.settings=s.settings ∧ Detects s s' := by
  cases c with
  | recordDay i n day v => exact absurd h (unauthorized ha hu)
  | setOracle oracle => exact absurd h (unauthorized ha hu)
  | createIndex | recordDayFromOracle | finalize =>
    simp only [invoke,except_map_eq_ok] at h
    obtain ⟨_,h,-⟩ := h
    exact absurd h (unauthorized ha hu)
  | evaluate i n =>
    simp only [invoke,except_map_eq_ok,Prod.exists] at h
    obtain ⟨status,_,h,rfl⟩ := h
    cases evaluate_ok h with
    | trigger d severity hd hdays hs hv =>
      refine ⟨rfl,fun j k => ?_⟩
      by_cases hk : (j,k)=(i,n)
      · obtain ⟨rfl,rfl⟩ := Prod.mk.inj hk
        refine .inr ⟨hs,env.timestamp,?_⟩
        simp [readState,State.writeState,State.publish]
      · refine .inl ?_
        simp only [readState,State.writeState,State.publish]
        rw [Function.update_of_ne hk]
    | _ => exact ⟨rfl,.refl _⟩

end Calls

end Mvua.TriggerEngine
