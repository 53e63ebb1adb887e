import Mathlib.Tactic.Common
import Mathlib.Algebra.Order.Ring.Int

namespace Mvua

/-- `x` is a value of the signed integer type of `w` bits. -/
def SignedFits (w : Nat) (x : Int) : Prop := -2^(w-1)≤x ∧ x<2^(w-1)

instance (w : Nat) (x : Int) : Decidable (SignedFits w x) :=
  inferInstanceAs (Decidable (_ ∧ _))

theorem SignedFits.of_nonneg {w : Nat} {x : Int} (h0 : 0≤x) (h : x<2^(w-1)) : SignedFits w x :=
  ⟨(neg_nonpos.mpr (pow_nonneg (by decide) _)).trans h0,h⟩

/-- `n` is a value of the unsigned integer type of `w` bits. -/
def UnsignedFits (w n : Nat) : Prop := n<2^w

instance (w n : Nat) : Decidable (UnsignedFits w n) :=
  inferInstanceAs (Decidable (_<_))

namespace Signed

def fit (w : Nat) (x : Int) : Option Int := if SignedFits w x then some x else none

def checkedAdd (w : Nat) (a b : Int) : Option Int := fit w (a+b)
def checkedSub (w : Nat) (a b : Int) : Option Int := fit w (a-b)
def checkedMul (w : Nat) (a b : Int) : Option Int := fit w (a*b)
def checkedNeg (w : Nat) (a : Int) : Option Int := fit w (-a)

/-- Division truncates toward zero; a zero divisor and a quotient out of range have no result. -/
def checkedDiv (w : Nat) (a b : Int) : Option Int :=
  if b=0 then none else fit w (a.tdiv b)

@[simp] theorem fit_eq_some (w : Nat) (x c : Int) :
    fit w x=some c ↔ SignedFits w x ∧ x=c := by
  unfold fit
  split_ifs with h <;> simp [h]

@[simp] theorem checkedAdd_eq_some (w : Nat) (a b c : Int) :
    checkedAdd w a b=some c ↔ SignedFits w (a+b) ∧ a+b=c := fit_eq_some ..

/-- A sum in range is what the checked addition gives. -/
theorem checkedAdd_ne_none {w : Nat} {a b : Int} (h : SignedFits w (a+b)) :
    checkedAdd w a b≠none := by
  rw [(checkedAdd_eq_some w a b (a+b)).mpr ⟨h,rfl⟩]
  exact Option.some_ne_none _

@[simp] theorem checkedSub_eq_some (w : Nat) (a b c : Int) :
    checkedSub w a b=some c ↔ SignedFits w (a-b) ∧ a-b=c := fit_eq_some ..

@[simp] theorem checkedMul_eq_some (w : Nat) (a b c : Int) :
    checkedMul w a b=some c ↔ SignedFits w (a*b) ∧ a*b=c := fit_eq_some ..

@[simp] theorem checkedNeg_eq_some (w : Nat) (a c : Int) :
    checkedNeg w a=some c ↔ SignedFits w (-a) ∧ -a=c := fit_eq_some ..

@[simp] theorem checkedDiv_eq_some (w : Nat) (a b c : Int) :
    checkedDiv w a b=some c ↔ b≠0 ∧ SignedFits w (a.tdiv b) ∧ a.tdiv b=c := by
  unfold checkedDiv
  split_ifs with h <;> simp [h]

end Signed

namespace Unsigned

def checkedAdd (w a b : Nat) : Option Nat := if UnsignedFits w (a+b) then some (a+b) else none
def checkedMul (w a b : Nat) : Option Nat := if UnsignedFits w (a*b) then some (a*b) else none

@[simp] theorem checkedAdd_eq_some (w a b c : Nat) :
    checkedAdd w a b=some c ↔ UnsignedFits w (a+b) ∧ a+b=c := by
  unfold checkedAdd
  split_ifs with h <;> simp [h]

@[simp] theorem checkedMul_eq_some (w a b c : Nat) :
    checkedMul w a b=some c ↔ UnsignedFits w (a*b) ∧ a*b=c := by
  unfold checkedMul
  split_ifs with h <;> simp [h]

end Unsigned

/-- A truncated quotient of nonnegative integers is a floor. -/
theorem tdiv_bounds (a d : Int) (ha : 0≤a) (hd : 0<d) :
    0≤a.tdiv d ∧ a.tdiv d*d≤a ∧ a<(a.tdiv d+1)*d := by
  rw [Int.tdiv_eq_ediv_of_nonneg ha]
  refine ⟨Int.ediv_nonneg ha hd.le,Int.ediv_mul_le a hd.ne',?_⟩
  exact Int.lt_ediv_add_one_mul_self a hd

end Mvua
