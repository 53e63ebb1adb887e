import Mvua.Framework.Atomic

namespace Mvua

section Agreement

variable {ε α β σ τ : Type} {R : α → β → Prop}

theorem Agrees.map {S : σ → τ → Prop} {x : Except ε α} {y : Except ε β} {f : α → σ} {k : β → τ}
    (h : Agrees id R x y) (hk : ∀ a b, R a b → S (f a) (k b)) : Agrees id S (x.map f) (y.map k) := by
  cases h with
  | ok h => exact .ok (hk _ _ h)
  | error e => exact .error e

/-- Dropping what calls return keeps their agreement about the state. -/
theorem Agrees.returned {S : σ → σ → Prop} {x : Except ε (α × σ)} {y : Except ε (α × σ)}
    (h : Agrees id (fun x y => S x.2 y.2) x y) :
    Agrees id S (x.map fun r => r.2) (y.map fun r => r.2) :=
  h.map fun _ _ hr => hr

theorem Agrees.subcalls {x : Result ε α} {y : Result ε β} (h : Agrees id R x y) (code : ε → Nat) :
    Agrees id R (Mvua.subcall code x) (Mvua.subcall code y) :=
  (h.subcall code).subcall_left code

end Agreement

namespace Machine

variable {σ α ε τ : Type} {M : Machine σ α ε}

theorem next_agrees {σ' α' ε' : Type} {N : Machine σ' α' ε'} {g : ε → ε'} {R : σ → σ' → Prop}
    {s : σ} {t : σ'} {a : α} {b : α'} (hr : R s t) (h : Agrees g R (M.step s a) (N.step t b)) :
    R (M.next s a) (N.next t b) := by
  cases hs : M.step s a with
  | ok u =>
    rw [hs] at h
    obtain ⟨v,hv,huv⟩ := h.of_ok
    rw [M.next_of_ok hs,N.next_of_ok hv]
    exact huv
  | error e =>
    cases ht : N.step t b with
    | error e' =>
      rw [M.next_of_error hs,N.next_of_error ht]
      exact hr
    | ok v =>
      have hok := h.isOk_eq
      rw [hs,ht] at hok
      cases hok

/-- The calls that concern `view` move what it shows by that alone, and the others leave it. -/
structure Isolates (M : Machine σ α ε) (J : σ → Prop) (view : σ → τ) (concerns : α → Bool) :
    Prop where
  keep : ∀ s a, J s → J (M.next s a)
  other : ∀ s a, J s → concerns a=false → view (M.next s a)=view s
  own : ∀ s t a, J s → J t → view s=view t → concerns a → view (M.next s a)=view (M.next t a)

namespace Isolates

variable {J : σ → Prop} {view : σ → τ} {concerns : α → Bool}

/-- What a view shows after a run, the calls that concern it show alone. -/
theorem run (h : M.Isolates J view concerns) (calls : List α) {s t : σ} (hs : J s) (ht : J t)
    (hv : view s=view t) :
    view (M.run s calls)=view (M.run t (calls.filter concerns)) := by
  induction calls generalizing s t with
  | nil => exact hv
  | cons a calls ih =>
    rw [run_cons]
    cases ha : concerns a with
    | false =>
      rw [List.filter_cons_of_neg (by simp [ha])]
      exact ih (h.keep s a hs) ht ((h.other s a hs ha).trans hv)
    | true =>
      rw [List.filter_cons_of_pos ha,run_cons]
      exact ih (h.keep s a hs) (h.keep t a ht) (h.own s t a hs ht hv ha)

/-- Runs with the same calls of concern, in the same order, show the same. -/
theorem run_congr (h : M.Isolates J view concerns) {as bs : List α} {s : σ} (hs : J s)
    (hc : as.filter concerns=bs.filter concerns) : view (M.run s as)=view (M.run s bs) := by
  rw [h.run as hs hs rfl,h.run bs hs hs rfl,hc]

end Isolates

end Machine

end Mvua
