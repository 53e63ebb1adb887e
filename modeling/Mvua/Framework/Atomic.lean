import Mvua.Framework.Machine
import Mvua.Framework.Result
import Mathlib.Data.List.Forall2

namespace Mvua

section Agreement

variable {ε ε' α β γ δ : Type} {g : ε → ε'} {R : α → β → Prop} {S : γ → δ → Prop}

/-- Two computations agree: both give related values, or both fail with the same error, which `g`
translates. -/
inductive Agrees (g : ε → ε') (R : α → β → Prop) : Except ε α → Except ε' β → Prop where
  | ok {a : α} {b : β} (h : R a b) : Agrees g R (.ok a) (.ok b)
  | error (e : ε) : Agrees g R (.error e) (.error (g e))

namespace Agrees

theorem same (x : Except ε α) : Agrees id (·=·) x x := by
  cases x with
  | ok a => exact .ok rfl
  | error e => exact .error e

theorem bind {x : Except ε α} {y : Except ε' β} {f : α → Except ε γ} {k : β → Except ε' δ}
    (h : Agrees g R x y) (hf : ∀ a b, R a b → Agrees g S (f a) (k b)) :
    Agrees g S (x >>= f) (y >>= k) := by
  cases h with
  | ok h => exact hf _ _ h
  | error e => exact .error e

theorem map_left {x : Except ε α} {y : Except ε' β} {f : α → γ} {S : γ → β → Prop}
    (h : Agrees g R x y) (hf : ∀ a b, R a b → S (f a) b) : Agrees g S (x.map f) y := by
  cases h with
  | ok h => exact .ok (hf _ _ h)
  | error e => exact .error e

theorem map_right {x : Except ε α} {y : Except ε' β} {k : β → δ} {S : α → δ → Prop}
    (h : Agrees g R x y) (hk : ∀ a b, R a b → S a (k b)) : Agrees g S x (y.map k) := by
  cases h with
  | ok h => exact .ok (hk _ _ h)
  | error e => exact .error e

/-- Two loops over lists that correspond element by element agree if their rounds do. -/
theorem foldlM {K : γ → δ → Prop} {f : α → γ → Except ε α} {k : β → δ → Except ε' β}
    {xs : List γ} {ys : List δ} (hxs : List.Forall₂ K xs ys)
    (round : ∀ a b x y, R a b → K x y → Agrees g R (f a x) (k b y)) {a : α} {b : β} (h : R a b) :
    Agrees g R (xs.foldlM f a) (ys.foldlM k b) := by
  induction hxs generalizing a b with
  | nil => exact .ok h
  | cons hxy _ ih =>
    rw [List.foldlM_cons,List.foldlM_cons]
    exact (round a b _ _ h hxy).bind fun _ _ h => ih h

theorem of_ok {a : α} {y : Except ε' β} (h : Agrees g R (.ok a) y) : ∃ b, y=.ok b ∧ R a b := by
  cases h with
  | ok h => exact ⟨_,rfl,h⟩

theorem of_error {x : Except ε α} {e' : ε'} (h : Agrees g R x (.error e')) :
    ∃ e, x=.error e ∧ g e=e' := by
  cases h with
  | error e => exact ⟨e,rfl,rfl⟩

theorem isOk_eq {x : Except ε α} {y : Except ε' β} (h : Agrees g R x y) : x.isOk=y.isOk := by
  cases h <;> rfl

end Agrees

/-- What the caller of a sub-call traps with when the callee ends so. -/
def Abort.toTrap (code : ε → Nat) : Abort ε → Trap
  | .error e => .contract (code e)
  | .trap t => t

theorem Agrees.subcall {x : Result ε α} {y : Result ε β} (code : ε → Nat) (h : Agrees id R x y) :
    Agrees (Abort.toTrap code) R x (Mvua.subcall code y) := by
  cases h with
  | ok h => exact .ok h
  | error e => cases e <;> exact .error _

theorem Agrees.subcall_left {σ : Type} {x : Result ε α} {y : Except Trap σ} {R : α → σ → Prop}
    (code : ε → Nat) (h : Agrees (Abort.toTrap code) R x y) :
    Agrees id R (Mvua.subcall code x) y := by
  cases h with
  | ok h => exact .ok h
  | error e => cases e <;> exact .error _

theorem Agrees.liftTrap {x : Except Trap α} {y : Except Trap β} (h : Agrees id R x y) :
    Agrees id R (Mvua.liftTrap x : Result ε α) (Mvua.liftTrap y : Result ε β) := by
  cases h with
  | ok h => exact .ok h
  | error e => exact .error _

end Agreement

namespace Machine

variable {σ α ε : Type} (M : Machine σ α ε)

/-- Every call of the run succeeds. -/
def succeeds (s : σ) (calls : List α) : Prop := M.along (fun s a => (M.step s a).isOk) s calls

/-- The calls as one, which fails as soon as one of them does. -/
def atomic (s : σ) (calls : List α) : Except ε σ := calls.foldlM M.step s

@[simp] theorem atomic_cons (s : σ) (a : α) (calls : List α) :
    M.atomic s (a::calls)=M.step s a >>= fun t => M.atomic t calls := List.foldlM_cons

/-- The calls succeed as one exactly when each does, and they leave the same state. -/
theorem atomic_eq_ok {s t : σ} {calls : List α} :
    M.atomic s calls=.ok t ↔ M.succeeds s calls ∧ M.run s calls=t := by
  induction calls generalizing s with
  | nil => simp [atomic,succeeds,along,pure,Except.pure]
  | cons a calls ih =>
    rw [atomic_cons,run_cons]
    cases h : M.step s a with
    | error e => simp [succeeds,along,h,bind,Except.bind,Except.isOk,Except.toBool]
    | ok u =>
      rw [M.next_of_ok h]
      change M.atomic u calls=.ok t ↔ _
      rw [ih]
      simp [succeeds,along,h,M.next_of_ok h,Except.isOk,Except.toBool]

theorem atomic_isOk {s : σ} {calls : List α} :
    (M.atomic s calls).isOk ↔ M.succeeds s calls := by
  cases h : M.atomic s calls with
  | ok t => exact ⟨fun _ => (M.atomic_eq_ok.mp h).1,fun _ => rfl⟩
  | error e =>
    constructor
    · intro hok
      cases hok
    · intro hs
      have hok := M.atomic_eq_ok.mpr ⟨hs,rfl⟩
      rw [h] at hok
      cases hok

/-- The first call that fails is how they fail as one. -/
theorem atomic_error {s : σ} {a : α} {before after : List α} {e : ε}
    (hs : M.succeeds s before) (h : M.step (M.run s before) a=.error e) :
    M.atomic s (before++a::after)=.error e := by
  have hbefore : M.atomic s before=.ok (M.run s before) := M.atomic_eq_ok.mpr ⟨hs,rfl⟩
  rw [atomic,List.foldlM_append]
  rw [atomic] at hbefore
  rw [hbefore]
  change M.atomic (M.run s before) (a::after)=.error e
  rw [atomic_cons,h]
  rfl

end Machine

end Mvua
