import Mathlib.Tactic.Linarith
import Mathlib.Algebra.Order.Group.Int

namespace Mvua

/-- Capital that is held in shares. -/
@[ext] structure Fund where
  capital : Int
  shares : Int
  deriving DecidableEq

namespace Fund

/-- What `r` shares redeem, rounded down. -/
def value (f : Fund) (r : Int) : Int := r*f.capital/f.shares

/-- A share of `f` is worth no more than a share of `g`. -/
def PriceLe (f g : Fund) : Prop := f.capital*g.shares≤g.capital*f.shares

variable {f g k : Fund} {a m r : Int}

theorem PriceLe.refl (f : Fund) : f.PriceLe f := le_rfl

theorem PriceLe.trans (hg : 0<g.shares) (hf : 0≤f.shares) (hk : 0≤k.shares) (h : f.PriceLe g)
    (h' : g.PriceLe k) : f.PriceLe k := by
  have left : f.capital*g.shares*k.shares≤g.capital*f.shares*k.shares :=
    mul_le_mul_of_nonneg_right h hk
  have right : g.capital*k.shares*f.shares≤k.capital*g.shares*f.shares :=
    mul_le_mul_of_nonneg_right h' hf
  have scaled : f.capital*k.shares*g.shares≤k.capital*f.shares*g.shares := by linarith
  exact le_of_mul_le_mul_right scaled hg

/-- Capital brought in for no more than its worth in shares. -/
theorem priceLe_mint (h : m*f.capital≤a*f.shares) :
    f.PriceLe ⟨f.capital+a,f.shares+m⟩ := by
  unfold PriceLe
  linarith

/-- Shares given up for no more than their worth. -/
theorem priceLe_burn (h : a*f.shares ≤ r*f.capital) :
    f.PriceLe ⟨f.capital-a,f.shares-r⟩ := by
  unfold PriceLe
  linarith

/-- Capital that arrives without shares. -/
theorem priceLe_credit (hs : 0≤f.shares) (ha : 0≤a) : f.PriceLe ⟨f.capital+a,f.shares⟩ := by
  have h : 0≤a*f.shares := mul_nonneg ha hs
  unfold PriceLe
  linarith

theorem PriceLe.value_le (hf : 0<f.shares) (hg : 0<g.shares) (hr : 0 ≤ r) (h : f.PriceLe g) :
    f.value r ≤ g.value r := by
  have floor : f.value r*f.shares ≤ r*f.capital := Int.ediv_mul_le _ hf.ne'
  have scaled : r*(f.capital*g.shares) ≤ r*(g.capital*f.shares) := mul_le_mul_of_nonneg_left h hr
  have both : f.value r*g.shares*f.shares ≤ r*g.capital*f.shares := by
    have hm := mul_le_mul_of_nonneg_right floor hg.le
    linarith
  exact (Int.le_ediv_iff_mul_le hg).mpr (le_of_mul_le_mul_right both hf)

/-- With no share lost and none cheaper, no capital is lost. -/
theorem PriceLe.capital_le (hf : 0<f.shares) (hc : 0≤f.capital) (hs : f.shares≤g.shares)
    (h : f.PriceLe g) : f.capital≤g.capital := by
  have more : f.capital*f.shares≤f.capital*g.shares := mul_le_mul_of_nonneg_left hs hc
  exact le_of_mul_le_mul_right (more.trans h) hf

theorem value_all (hf : 0<f.shares) : f.value f.shares=f.capital :=
  Int.mul_ediv_cancel_left _ hf.ne'

theorem value_le_capital (hf : 0<f.shares) (hc : 0≤f.capital) (hr : r≤f.shares) :
    f.value r≤f.capital := by
  have h : r*f.capital≤f.shares*f.capital := mul_le_mul_of_nonneg_right hr hc
  calc
    f.value r≤f.value f.shares := Int.ediv_le_ediv hf h
    _=f.capital := value_all hf

/-- Fewer shares than all never redeem all the capital. -/
theorem value_lt_capital (hf : 0<f.shares) (hc : 0<f.capital) (hr : r < f.shares) :
    f.value r < f.capital := by
  have h : r*f.capital < f.shares*f.capital := mul_lt_mul_of_pos_right hr hc
  apply Int.ediv_lt_of_lt_mul hf
  linarith

end Fund

end Mvua
