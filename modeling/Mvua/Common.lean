import Mvua.Host

namespace Mvua

/-- Basis points: one hundredth of a percent, a `u32`. -/
abbrev Bps := Nat

def bpsDenominator : Int := 10000

/-- An amount times a basis point fraction; none on overflow. -/
def applyBps (amount : Int) (bps : Bps) : Option Int := do
  let scaled ← I128.checkedMul amount bps
  I128.checkedDiv scaled bpsDenominator

theorem applyBps_eq_some {amount v : Int} {bps : Bps} (h : applyBps amount bps=some v) :
    v=(amount*bps).tdiv 10000 := by
  simp only [applyBps,bind,Option.bind_eq_some_iff,Signed.checkedMul_eq_some,
    Signed.checkedDiv_eq_some] at h
  obtain ⟨x,⟨-,rfl⟩,-,-,rfl⟩ := h
  rfl

/-- A share of a nonnegative amount is a floor, and no more than the exact share. -/
theorem applyBps_bounds {amount v : Int} {bps : Bps} (h : applyBps amount bps=some v)
    (ha : 0≤amount) : 0≤v ∧ v*10000≤amount*bps ∧ amount*bps<(v+1)*10000 := by
  rw [applyBps_eq_some h]
  exact tdiv_bounds _ _ (mul_nonneg ha (by omega)) (by omega)

end Mvua
