import Mathlib.Algebra.Order.Ring.Int
import Mathlib.Tactic.Common

namespace Mvua

/-- A total held under a cap; a cap of zero is none. -/
def capped (cap total : Int) : Int := if cap=0 then total else min cap total

/-- What one more amount may still add under the cap. -/
def clamped (cap accrued amount : Int) : Int :=
  if cap=0 then amount else min amount (max (cap-accrued) 0)

variable {cap total amount : Int}

theorem capped_of_zero (h : 0≤cap) : capped cap 0=0 := by
  unfold capped
  split_ifs <;> omega

theorem capped_le (h : cap≠0) : capped cap total≤cap := by
  rw [capped,if_neg h]
  exact min_le_left _ _

theorem capped_nonneg (hcap : 0≤cap) (ht : 0≤total) : 0 ≤ capped cap total := by
  unfold capped
  split_ifs <;> omega

/-- Clamping every amount to the room that is left caps the total of all of them. -/
theorem capped_add (ha : 0≤amount) :
    capped cap total+clamped cap (capped cap total) amount=capped cap (total+amount) := by
  unfold clamped capped
  split_ifs
  · rfl
  · rcases le_total cap total with hle | hle
    · rw [min_eq_left hle]
      omega
    · rw [min_eq_right hle]
      omega

end Mvua
