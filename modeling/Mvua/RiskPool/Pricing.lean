import Mvua.RiskPool.Contract
import Mathlib.Tactic.Ring

namespace Mvua.RiskPool

/-- The rate of a coverage: one step up for each whole unit of it. -/
def PremiumParams.rate (premium : PremiumParams) (coverage : Int) : Int :=
  premium.baseBps+premium.coverageSlopeBps*(coverage/coverageUnit)

section Rate

variable {params : PremiumParams} {a b c : Int}

theorem rate_nonneg (hc : 0 ≤ c) : 0≤params.rate c := by
  have hunits : 0 ≤ c/coverageUnit := Int.ediv_nonneg hc (by decide)
  have hslope : 0≤(params.coverageSlopeBps : Int)*(c/coverageUnit) :=
    mul_nonneg (by omega) hunits
  unfold PremiumParams.rate
  omega

theorem rate_mono (h : a≤b) : params.rate a≤params.rate b := by
  have hunits : a/coverageUnit≤b/coverageUnit := Int.ediv_le_ediv (by decide) h
  have hslope : (params.coverageSlopeBps : Int)*(a/coverageUnit)≤
      params.coverageSlopeBps*(b/coverageUnit) := mul_le_mul_of_nonneg_left hunits (by omega)
  unfold PremiumParams.rate
  omega

theorem price_mono (ha : 0≤a) (h : a≤b) : a*params.rate a≤b*params.rate b :=
  mul_le_mul h (rate_mono h) (rate_nonneg ha) (ha.trans h)

theorem price_superadditive (ha : 0≤a) (hb : 0≤b) :
    a*params.rate a+b*params.rate b≤(a+b)*params.rate (a+b) := by
  have hfirst : a*params.rate a≤a*params.rate (a+b) :=
    mul_le_mul_of_nonneg_left (rate_mono (by omega)) ha
  have hsecond : b*params.rate b≤b*params.rate (a+b) :=
    mul_le_mul_of_nonneg_left (rate_mono (by omega)) hb
  rw [add_mul]
  omega

end Rate

section Premium

variable {params : PremiumParams} {c p : Int}

/-- A premium is the exact price rounded up, and its scaled form was in range. -/
theorem computePremium_ok (h : computePremium params c=.ok p) :
    0 < c ∧ c*params.rate c+9999<2^127 ∧ p=(c*params.rate c+9999)/10000 := by
  simp only [computePremium,bind_eq_ok,failIf_eq_ok,okOr_eq_ok,Signed.checkedMul_eq_some,
    Signed.checkedAdd_eq_some] at h
  obtain ⟨-,hc,_,⟨-,rfl⟩,_,⟨-,rfl⟩,h⟩ := h
  simp only [bind,Option.bind_eq_some_iff,Signed.checkedMul_eq_some,Signed.checkedAdd_eq_some,
    Signed.checkedDiv_eq_some] at h
  obtain ⟨_,⟨-,rfl⟩,_,⟨hfits,rfl⟩,-,-,rfl⟩ := h
  have hpos : 0 < c := by omega
  have hrate : (params.baseBps : Int)+params.coverageSlopeBps*c.tdiv coverageUnit=
      params.rate c := by
    rw [PremiumParams.rate,Int.tdiv_eq_ediv_of_nonneg hpos.le]
  have hprice : 0 ≤ c*params.rate c := mul_nonneg hpos.le (rate_nonneg hpos.le)
  rw [hrate] at hfits ⊢
  refine ⟨hpos,hfits.2,Int.tdiv_eq_ediv_of_nonneg ?_⟩
  simp only [bpsDenominator]
  omega

/-- As long as that is in range, no step before it overflows. -/
theorem computePremium_fits (hc : 0 < c) (hfit : c*params.rate c+9999<2^127) :
    computePremium params c=.ok ((c*params.rate c+9999)/10000) := by
  have hrate := @rate_nonneg params c hc.le
  have hprice : 0 ≤ c*params.rate c := mul_nonneg hc.le hrate
  have hbelow : params.rate c ≤ c*params.rate c := le_mul_of_one_le_left hrate hc
  have hunits : 0 ≤ c/coverageUnit := Int.ediv_nonneg hc.le (by decide)
  have hslope : 0≤(params.coverageSlopeBps : Int)*(c/coverageUnit) :=
    mul_nonneg (by omega) hunits
  have hsplit : (params.baseBps : Int)+params.coverageSlopeBps*(c/coverageUnit)=
      params.rate c := rfl
  have h1 : I128.checkedMul params.coverageSlopeBps (c/coverageUnit)=
      some (params.coverageSlopeBps*(c/coverageUnit)) :=
    (Signed.checkedMul_eq_some _ _ _ _).mpr ⟨.of_nonneg hslope (by omega),rfl⟩
  have h2 : I128.checkedAdd params.baseBps (params.coverageSlopeBps*(c/coverageUnit))=
      some (params.rate c) :=
    (Signed.checkedAdd_eq_some _ _ _ _).mpr ⟨.of_nonneg (by omega) (by omega),hsplit⟩
  have h3 : I128.checkedMul c (params.rate c)=some (c*params.rate c) :=
    (Signed.checkedMul_eq_some _ _ _ _).mpr ⟨.of_nonneg hprice (by omega),rfl⟩
  have h4 : I128.checkedAdd (c*params.rate c) (bpsDenominator-1)=some (c*params.rate c+9999) :=
    (Signed.checkedAdd_eq_some _ _ _ _).mpr ⟨.of_nonneg (by simp only [bpsDenominator]; omega)
      hfit,rfl⟩
  have h5 : I128.checkedDiv (c*params.rate c+9999) bpsDenominator=
      some ((c*params.rate c+9999)/10000) := by
    rw [Signed.checkedDiv_eq_some,Int.tdiv_eq_ediv_of_nonneg (by omega)]
    exact ⟨by decide,.of_nonneg (by simp only [bpsDenominator]; omega)
      (by simp only [bpsDenominator]; omega),rfl⟩
  simp only [computePremium,bind_eq_ok,failIf_eq_ok,okOr_eq_ok,Int.tdiv_eq_ediv_of_nonneg hc.le]
  refine ⟨(),hc.not_ge,_,h1,_,h2,?_⟩
  simp only [bind,Option.bind_eq_some_iff]
  exact ⟨_,h3,_,h4,h5⟩

theorem computePremium_fails (hc : 0 < c) :
    FailsOnly (fun e => e=.error .overflow) (computePremium params c) := by
  unfold computePremium
  refine .bind (.failIf fun h => absurd h hc.not_ge) fun _ _ => ?_
  refine .bind (.okOr fun _ => rfl) fun _ _ => ?_
  refine .bind (.okOr fun _ => rfl) fun _ _ => ?_
  exact .okOr fun _ => rfl

theorem computePremium_overflow_iff : computePremium params c=.error (.error .overflow) ↔
    0 < c ∧ 2^127-1 < c*params.rate c+9999 := by
  constructor
  · intro h
    have hpos : 0 < c := by
      by_contra hc
      have hguard : computePremium params c=.error (.error .invalidAmount) := by
        unfold computePremium
        rw [failIf,if_pos (not_lt.mp hc)]
        rfl
      rw [hguard] at h
      cases h
    refine ⟨hpos,?_⟩
    by_contra hfit
    rw [computePremium_fits hpos (by omega)] at h
    cases h
  · intro h
    obtain ⟨hpos,hbeyond⟩ := h
    cases hr : computePremium params c with
    | ok p =>
      have hrange := (computePremium_ok hr).2.1
      omega
    | error e => rw [computePremium_fails hpos e hr]

end Premium

/-- The premium curve is the exact price rounded up; it is monotone and, up to the one unit that
rounding twice can cost, superadditive, answers for all smaller coverages when it answers for one,
and overflows exactly where the scaled price leaves the range. -/
theorem premium_curve (params : PremiumParams) :
    (∀ c p, computePremium params c=.ok p →
      c*params.rate c≤10000*p ∧ 10000*p < c*params.rate c+10000) ∧
    (∀ c₁ c₂ p₂, 0 < c₁ → c₁ ≤ c₂ → computePremium params c₂=.ok p₂ →
      ∃ p₁, computePremium params c₁=.ok p₁ ∧ p₁≤p₂) ∧
    (∀ a b p, 0<a → 0<b → computePremium params (a+b)=.ok p →
      ∃ p₁ p₂, computePremium params a=.ok p₁ ∧ computePremium params b=.ok p₂ ∧ p₁+p₂≤p+1) ∧
    ∀ c, computePremium params c=.error (.error .overflow) ↔
      0 < c ∧ 2^127-1 < c*params.rate c+9999 := by
  refine ⟨?_,?_,?_,fun c => computePremium_overflow_iff⟩
  · intro c p h
    obtain ⟨hc,-,rfl⟩ := computePremium_ok h
    omega
  · intro c₁ c₂ p₂ h0 hle h
    obtain ⟨hc,hfit,rfl⟩ := computePremium_ok h
    have hprice := @price_mono params c₁ c₂ h0.le hle
    exact ⟨_,computePremium_fits h0 (by omega),by omega⟩
  · intro a b p ha hb h
    obtain ⟨hc,hfit,rfl⟩ := computePremium_ok h
    have hprice := @price_superadditive params a b ha.le hb.le
    have hfirst : 0≤a*params.rate a := mul_nonneg ha.le (rate_nonneg ha.le)
    have hsecond : 0≤b*params.rate b := mul_nonneg hb.le (rate_nonneg hb.le)
    exact ⟨_,_,computePremium_fits ha (by omega),computePremium_fits hb (by omega),by omega⟩

/-- Two coverages of half a unit together cross into the next step of the rate. -/
theorem premium_curve_halves :
    computePremium ⟨100,10⟩ 10000000=.ok 110000 ∧
    ∃ p₁ p₂, computePremium ⟨100,10⟩ 5000000=.ok p₁ ∧ computePremium ⟨100,10⟩ 5000000=.ok p₂ ∧
      p₁+p₂≤110001 := by
  have hwhole : computePremium ⟨100,10⟩ (5000000+5000000)=.ok 110000 := by decide +kernel
  exact ⟨hwhole,(premium_curve ⟨100,10⟩).2.2.1 5000000 5000000 110000 (by decide) (by decide)
    hwhole⟩

end Mvua.RiskPool
