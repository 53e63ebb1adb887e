import Mathlib.Tactic.Common
import Mathlib.Order.Basic

namespace Mvua

/-- How a host call ends without a typed error of the contract that runs it.
`contract` carries the code of the error that a sub-call returned. -/
inductive Trap where
  | auth
  | host
  | arithmetic
  | contract (code : Nat)
  deriving DecidableEq, Repr

/-- A contract call fails with one of its own errors or because the host traps. -/
inductive Abort (ε : Type) where
  | error (e : ε)
  | trap (t : Trap)
  deriving DecidableEq, Repr

abbrev Result (ε α : Type) := Except (Abort ε) α

instance {ε α : Type} [DecidableEq ε] [DecidableEq α] : DecidableEq (Result ε α)
  | .ok a, .ok b => decidable_of_iff (a = b) (by simp)
  | .error a, .error b => decidable_of_iff (a = b) (by simp)
  | .ok _, .error _ => isFalse nofun
  | .error _, .ok _ => isFalse nofun

variable {ε ε' α β : Type}

/-- `if c { return Err(e) }`. -/
def failIf (c : Prop) [Decidable c] (e : ε) : Result ε Unit :=
  if c then .error (.error e) else .ok ()

/-- The host traps when `c` holds. -/
def trapIf (c : Prop) [Decidable c] (t : Trap) : Result ε Unit :=
  if c then .error (.trap t) else .ok ()

/-- `o.ok_or(e)?`. -/
def okOr (o : Option α) (e : ε) : Result ε α :=
  match o with
  | some a => .ok a
  | none => .error (.error e)

/-- A panicking operation: arithmetic checked by the build profile, an index. -/
def orTrap (o : Option α) (t : Trap) : Result ε α :=
  match o with
  | some a => .ok a
  | none => .error (.trap t)

/-- A sub-call through a generated client: an error of the callee traps the caller. -/
def subcall (code : ε → Nat) (r : Result ε α) : Except Trap α :=
  match r with
  | .ok a => .ok a
  | .error (.error e) => .error (.contract (code e))
  | .error (.trap t) => .error t

/-- The caller's side of a sub-call. -/
def liftTrap (r : Except Trap α) : Result ε α :=
  match r with
  | .ok a => .ok a
  | .error t => .error (.trap t)

@[simp] theorem ok_bind (a : α) (f : α → Result ε β) :
    ((.ok a : Result ε α) >>= f)=f a := rfl

@[simp] theorem error_bind (e : Abort ε) (f : α → Result ε β) :
    ((.error e : Result ε α) >>= f)=.error e := rfl

@[simp] theorem bind_eq_ok (r : Result ε α) (f : α → Result ε β) (b : β) :
    (r >>= f)=.ok b ↔ ∃ a, r=.ok a ∧ f a=.ok b := by
  cases r with
  | ok a => simp [bind,Except.bind]
  | error e => simp [bind,Except.bind]

@[simp] theorem pure_eq_ok (a b : α) : (pure a : Result ε α)=.ok b ↔ a=b := by
  simp [pure,Except.pure]

@[simp] theorem except_map_eq_ok {τ : Type} (r : Except τ α) (f : α → β) (b : β) :
    r.map f=.ok b ↔ ∃ a, r=.ok a ∧ f a=b := by
  cases r <;> simp [Except.map]

@[simp] theorem failIf_eq_ok (c : Prop) [Decidable c] (e : ε) (u : Unit) :
    failIf c e=.ok u ↔ ¬c := by
  unfold failIf
  split_ifs with h <;> simp [h]

@[simp] theorem trapIf_eq_ok (c : Prop) [Decidable c] (t : Trap) (u : Unit) :
    (trapIf c t : Result ε Unit)=.ok u ↔ ¬c := by
  unfold trapIf
  split_ifs with h <;> simp [h]

@[simp] theorem okOr_eq_ok (o : Option α) (e : ε) (a : α) : okOr o e=.ok a ↔ o=some a := by
  cases o <;> simp [okOr]

@[simp] theorem orTrap_eq_ok (o : Option α) (t : Trap) (a : α) :
    (orTrap o t : Result ε α)=.ok a ↔ o=some a := by
  cases o <;> simp [orTrap]

@[simp] theorem subcall_eq_ok (code : ε → Nat) (r : Result ε α) (a : α) :
    subcall code r=.ok a ↔ r=.ok a := by
  rcases r with (e | t) | a <;> simp [subcall]

@[simp] theorem liftTrap_eq_ok (r : Except Trap α) (a : α) :
    (liftTrap r : Result ε α)=.ok a ↔ r=.ok a := by
  cases r <;> simp [liftTrap]

section Failure

/-- The result is a success, or its failure has a property. -/
def FailsOnly (P : Abort ε → Prop) (r : Result ε α) : Prop := ∀ e, r=.error e → P e

variable {P : Abort ε → Prop}

theorem FailsOnly.ok (a : α) : FailsOnly P (.ok a : Result ε α) := nofun

theorem FailsOnly.bind {r : Result ε α} {f : α → Result ε β} (h : FailsOnly P r)
    (hf : ∀ a, r=.ok a → FailsOnly P (f a)) : FailsOnly P (r >>= f) := by
  intro e he
  cases r with
  | ok a => exact hf a rfl e he
  | error e' =>
    rw [error_bind,Except.error.injEq] at he
    exact he ▸ h e' rfl

theorem FailsOnly.failIf {c : Prop} [Decidable c] {e : ε} (h : c → P (.error e)) :
    FailsOnly P (failIf c e) := by
  intro a ha
  unfold Mvua.failIf at ha
  split_ifs at ha with hc
  rw [Except.error.injEq] at ha
  exact ha ▸ h hc

theorem FailsOnly.trapIf {c : Prop} [Decidable c] {t : Trap} (h : c → P (.trap t)) :
    FailsOnly P (trapIf c t : Result ε Unit) := by
  intro a ha
  unfold Mvua.trapIf at ha
  split_ifs at ha with hc
  rw [Except.error.injEq] at ha
  exact ha ▸ h hc

theorem FailsOnly.okOr {o : Option α} {e : ε} (h : o=none → P (.error e)) :
    FailsOnly P (okOr o e) := by
  cases o with
  | none =>
    intro a ha
    rw [Mvua.okOr,Except.error.injEq] at ha
    exact ha ▸ h rfl
  | some a => exact .ok a

theorem FailsOnly.orTrap {o : Option α} {t : Trap} (h : o=none → P (.trap t)) :
    FailsOnly P (orTrap o t : Result ε α) := by
  cases o with
  | none =>
    intro a ha
    rw [Mvua.orTrap,Except.error.injEq] at ha
    exact ha ▸ h rfl
  | some a => exact .ok a

/-- A sub-call passes the callee's traps on, and its errors as their codes. -/
theorem FailsOnly.subcall {code : ε' → Nat} {r : Result ε' α} {Q : Abort ε' → Prop}
    (h : FailsOnly Q r) (he : ∀ e, Q (.error e) → P (.trap (.contract (code e))))
    (ht : ∀ t, Q (.trap t) → P (.trap t)) :
    FailsOnly P (liftTrap (subcall code r) : Result ε α) := by
  intro a ha
  rcases r with (e | t) | x
  · simp only [Mvua.subcall,liftTrap,Except.error.injEq] at ha
    exact ha ▸ he e (h _ rfl)
  · simp only [Mvua.subcall,liftTrap,Except.error.injEq] at ha
    exact ha ▸ ht t (h _ rfl)
  · cases ha

theorem FailsOnly.liftMap {r : Except Trap α} {f : α → β}
    (h : FailsOnly P (liftTrap r : Result ε α)) : FailsOnly P (liftTrap (r.map f) : Result ε β) := by
  cases r with
  | ok a => exact .ok (f a)
  | error t =>
    intro e he
    cases he
    exact h _ rfl

end Failure

/-- A property that no successful round over an element breaks holds after the whole loop. -/
theorem foldlM_invariant_mem {f : β → α → Result ε β} (I : β → Prop) (xs : List α)
    (step : ∀ r, ∀ x∈xs, ∀ r', I r → f r x=.ok r' → I r') (r r' : β) (h : I r)
    (hf : xs.foldlM f r=.ok r') : I r' := by
  induction xs generalizing r with
  | nil =>
    rw [List.foldlM_nil,pure_eq_ok] at hf
    exact hf ▸ h
  | cons x xs ih =>
    rw [List.foldlM_cons,bind_eq_ok] at hf
    obtain ⟨r1,h1,hf⟩ := hf
    have hstep := List.forall_mem_cons.mp (fun x hx r => step r x hx)
    exact ih (fun r x hx => hstep.2 x hx r) r1 (hstep.1 r r1 h h1) hf

theorem foldlM_invariant {f : β → α → Result ε β} (I : β → Prop)
    (step : ∀ r x r', I r → f r x=.ok r' → I r') (xs : List α) (r r' : β) (h : I r)
    (hf : xs.foldlM f r=.ok r') : I r' :=
  foldlM_invariant_mem I xs (fun r x _ => step r x) r r' h hf

end Mvua
