import Mvua.Framework.Machine

namespace Mvua.Machine

variable {σ α ε τ β δ : Type}

/-- Seen through `view`, a successful step of `M` is a run of `N`, and if the step meets `P` then
the calls of that run meet `Q`. -/
structure Simulates (N : Machine τ β δ) (M : Machine σ α ε) (view : σ → τ) (P : σ → α → Prop)
    (Q : τ → β → Prop) : Prop where
  step : ∀ s a t, M.step s a=.ok t →
    ∃ bs, N.run (view s) bs=view t ∧ (P s a → N.along Q (view s) bs)

namespace Simulates

variable {N : Machine τ β δ} {M : Machine σ α ε} {view : σ → τ} {P : σ → α → Prop}
  {Q : τ → β → Prop}

theorem next (h : N.Simulates M view P Q) (s : σ) (a : α) :
    ∃ bs, N.run (view s) bs=view (M.next s a) ∧ (P s a → N.along Q (view s) bs) := by
  rcases M.next_cases s a with hs | hs
  · rw [hs]
    exact ⟨[],rfl,fun _ => trivial⟩
  · exact h.step s a _ hs

/-- A run of `M` is, seen through `view`, a run of `N`. -/
theorem run (h : N.Simulates M view P Q) (calls : List α) (s : σ) :
    ∃ bs, N.run (view s) bs=view (M.run s calls) ∧
      (M.along P s calls → N.along Q (view s) bs) := by
  induction calls generalizing s with
  | nil => exact ⟨[],rfl,fun _ => trivial⟩
  | cons a calls ih =>
    obtain ⟨bs,hbs,hq⟩ := h.next s a
    obtain ⟨cs,hcs,hqs⟩ := ih (M.next s a)
    rw [← hbs] at hcs hqs
    refine ⟨bs++cs,?_,fun hp => ?_⟩
    · rw [N.run_append]
      exact hcs
    · exact (N.along_append _ bs cs).mpr ⟨hq hp.1,hqs hp.2⟩

theorem forget (h : N.Simulates M view P Q) :
    N.Simulates M view (fun _ _ => True) (fun _ _ => True) where
  step s a t hs := by
    obtain ⟨bs,hbs,-⟩ := h.step s a t hs
    exact ⟨bs,hbs,fun _ => N.along_of_forall (fun _ _ => trivial) _ bs⟩

theorem trans {ρ γ κ : Type} {O : Machine ρ γ κ} {view' : τ → ρ} {R : ρ → γ → Prop}
    (h : N.Simulates M view P Q) (h' : O.Simulates N view' Q R) :
    O.Simulates M (fun s => view' (view s)) P R where
  step s a t hs := by
    obtain ⟨bs,hbs,hq⟩ := h.step s a t hs
    obtain ⟨cs,hcs,hr⟩ := h'.run bs (view s)
    rw [hbs] at hcs
    exact ⟨cs,hcs,fun hp => hr (hq hp)⟩

/-- What every run of `N` under `Q` has, every run of `M` under `P` has. -/
theorem transfer (h : N.Simulates M view P Q) {J : τ → Prop} {s : σ}
    (hJ : ∀ bs, N.along Q (view s) bs → J (N.run (view s) bs)) (calls : List α)
    (hp : M.along P s calls) : J (view (M.run s calls)) := by
  obtain ⟨bs,hbs,hq⟩ := h.run calls s
  rw [← hbs]
  exact hJ bs (hq hp)

end Simulates

/-- If each successful step of `M` is, seen through `view`, a round of `N` that is related to its
call, then a run of `M` is a run of `N` in rounds, and the two agree after every one of them. -/
theorem run_rounds {N : Machine τ β δ} {M : Machine σ α ε} {view : σ → τ} {P : σ → α → Prop}
    {Q : τ → β → Prop} {K : α → List β → Prop} (idle : ∀ a, K a [])
    (step : ∀ s a t, M.step s a=.ok t →
      ∃ bs, N.run (view s) bs=view t ∧ K a bs ∧ (P s a → N.along Q (view s) bs))
    (calls : List α) (s : σ) :
    ∃ rounds, List.Forall₂ K calls rounds ∧
      (∀ k, N.run (view s) (rounds.take k).flatten=view (M.run s (calls.take k))) ∧
      (M.along P s calls → N.along Q (view s) rounds.flatten) := by
  induction calls generalizing s with
  | nil => exact ⟨[],.nil,fun k => by simp,fun _ => trivial⟩
  | cons a calls ih =>
    obtain ⟨bs,hbs,hk,hq⟩ : ∃ bs, N.run (view s) bs=view (M.next s a) ∧ K a bs ∧
        (P s a → N.along Q (view s) bs) := by
      rcases M.next_cases s a with hs | hs
      · rw [hs]
        exact ⟨[],rfl,idle a,fun _ => trivial⟩
      · exact step s a _ hs
    obtain ⟨rounds,hks,hrun,hqs⟩ := ih (M.next s a)
    rw [← hbs] at hrun hqs
    refine ⟨bs::rounds,.cons hk hks,fun k => ?_,fun hp => ?_⟩
    · cases k with
      | zero => rfl
      | succ k =>
        rw [List.take_succ_cons,List.take_succ_cons,List.flatten_cons,N.run_append,M.run_cons]
        exact hrun k
    · rw [List.flatten_cons]
      exact (N.along_append _ bs _).mpr ⟨hq hp.1,hqs hp.2⟩

end Mvua.Machine
