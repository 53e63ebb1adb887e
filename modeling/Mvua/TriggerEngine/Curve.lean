import Mvua.TriggerEngine.Evaluation

namespace Mvua.TriggerEngine

/-- The linear severity of a rainfall index at a ratio in basis points, as a fraction. -/
def IndexParams.curve (params : IndexParams) (ratio : ℚ) : ℚ :=
  if params.triggerRatioBps≤ratio then 0
  else if ratio≤params.exhaustionRatioBps then 1
  else (params.triggerRatioBps-ratio)/(params.triggerRatioBps-params.exhaustionRatioBps)

/-- The unrounded share of its baseline that a window got, in basis points. -/
def IndexParams.ratio (params : IndexParams) (acc : WindowAccumulator) : ℚ :=
  acc.rainSum*10000/params.baseline

section Rounding

variable {params : IndexParams} {acc : WindowAccumulator}

theorem curve_eq_unitRamp (hk : params.kind=.rainfallShortfall) (ratio : ℚ) :
    params.curve ratio=unitRamp params.span (params.triggerRatioBps-ratio) := by
  rw [span_of_rainfall hk,Int.cast_sub,Int.cast_natCast,Int.cast_natCast]
  simp only [IndexParams.curve,unitRamp,sub_nonpos,sub_le_sub_iff_left]

theorem ratio_eq (params : IndexParams) (acc : WindowAccumulator) :
    params.ratio acc=(acc.rainSum*10000 : Int)/params.baseline := by
  rw [IndexParams.ratio]
  push_cast
  rfl

theorem floor_ratio (hv : validateParams params=.ok ())
    (hk : params.kind=.rainfallShortfall) :
    ⌊params.ratio acc⌋=acc.rainSum*10000/params.baseline := by
  rw [ratio_eq,Int.floor_div_cast_of_nonneg (baseline_pos hv hk).le,Int.floor_intCast]

theorem depth_of_floor (hv : validateParams params=.ok ())
    (hk : params.kind=.rainfallShortfall) (hrain : 0≤acc.rainSum) :
    params.depth acc=params.triggerRatioBps-⌊params.ratio acc⌋ := by
  rw [floor_ratio hv hk,depth_of_rainfall hk hrain]

theorem severity_le_curve {breached : Bool} {severity : Bps}
    (hv : validateParams params=.ok ()) (hk : params.kind=.rainfallShortfall)
    (hrain : 0≤acc.rainSum) (h : evalRainfall params acc=.ok (breached,severity)) :
    (severity : ℚ)≤10000*params.curve ⌊params.ratio acc⌋ := by
  have hsev := (evalRainfall_ramp hk h).2
  have hle := @ramp_le_unitRamp 10000 _ (params.depth acc) (by decide) (span_pos hv)
  rw [← hsev,depth_of_floor hv hk hrain] at hle
  rw [curve_eq_unitRamp hk]
  push_cast at hle
  exact hle

/-- Reading the curve at the floor of a ratio gains at most the slope times what was dropped. -/
theorem curve_floor_le (hv : validateParams params=.ok ())
    (hk : params.kind=.rainfallShortfall) (ratio : ℚ) :
    params.curve ⌊ratio⌋≤params.curve ratio+Int.fract ratio/params.span := by
  have hspan : (0 : ℚ)<params.span := by exact_mod_cast span_pos hv
  have hgain := @unitRamp_add_le _ (params.triggerRatioBps-ratio) _ hspan (Int.fract_nonneg ratio)
  rw [curve_eq_unitRamp hk,curve_eq_unitRamp hk]
  have hback : (params.triggerRatioBps : ℚ)-⌊ratio⌋=
      params.triggerRatioBps-ratio+Int.fract ratio := by
    rw [Int.fract]
    ring
  rwa [hback]

/-- When the rounding of the severity makes up for that of the ratio. -/
theorem severity_le_exact_iff {breached : Bool} {severity : Bps}
    (hv : validateParams params=.ok ()) (hk : params.kind=.rainfallShortfall)
    (hrain : 0≤acc.rainSum) (h : evalRainfall params acc=.ok (breached,severity)) :
    (severity : ℚ)≤10000*params.curve (params.ratio acc) ↔
      (params.triggerRatioBps : Int)≤⌊params.ratio acc⌋ ∨
      params.ratio acc≤params.exhaustionRatioBps ∨
      (params.exhaustionRatioBps : Int)<⌊params.ratio acc⌋ ∧
        10000*Int.fract (params.ratio acc)≤
          ((params.triggerRatioBps-⌊params.ratio acc⌋)*10000%params.span : Int) := by
  have hsev := (evalRainfall_ramp hk h).2
  have hspan := span_of_rainfall hk
  have hstart : 0<params.triggerRatioBps-⌊params.ratio acc⌋ →
      0<(params.triggerRatioBps : ℚ)-params.ratio acc := by
    intro hpos
    have hfloor : ⌊params.ratio acc⌋<params.triggerRatioBps := by omega
    have hlt := Int.floor_lt.mp hfloor
    rw [Int.cast_natCast] at hlt
    exact sub_pos.mpr hlt
  rw [depth_of_floor hv hk hrain] at hsev
  have hiff := @ramp_le_unitRamp_iff 10000 _ _ _ (by decide) (span_pos hv) hstart
  have hcast : (10000 : ℚ)*params.curve (params.ratio acc)=
      (10000 : Int)*params.curve (params.ratio acc) := by norm_num
  rw [← hsev,← curve_eq_unitRamp hk,Int.cast_natCast,← hcast] at hiff
  have hlate : params.triggerRatioBps-⌊params.ratio acc⌋≤0 ↔
      (params.triggerRatioBps : Int)≤⌊params.ratio acc⌋ := sub_nonpos
  have hfull : (params.span : ℚ)≤params.triggerRatioBps-params.ratio acc ↔
      params.ratio acc≤params.exhaustionRatioBps := by
    rw [hspan,Int.cast_sub,Int.cast_natCast,Int.cast_natCast,sub_le_sub_iff_left]
  have hinside : params.triggerRatioBps-⌊params.ratio acc⌋<params.span ↔
      (params.exhaustionRatioBps : Int)<⌊params.ratio acc⌋ := by
    rw [hspan,sub_lt_sub_iff_left]
  have hdropped : ((params.triggerRatioBps-⌊params.ratio acc⌋ : Int) : ℚ)-
      (params.triggerRatioBps-params.ratio acc)=Int.fract (params.ratio acc) := by
    rw [Int.fract,Int.cast_sub,Int.cast_natCast]
    ring
  rw [hiff,hlate,hfull,hinside,hdropped]
  norm_num

theorem payoutFor_floor {s : State} {i w t : Nat} {severity : Bps} {c p : Int}
    (hst : readState s i w=.finalized t severity) (hle : severity≤10000) (hc : 0 ≤ c)
    (h : payoutFor s i w c=.ok p) : p=c*severity/10000 := by
  obtain ⟨t',severity',hst',rfl⟩ := payoutFor_share h
  rw [hst,TriggerStatus.finalized.injEq] at hst'
  rw [← hst'.2]
  have hscaled : 0 ≤ c*severity := mul_nonneg hc (by omega)
  have hbound : c*severity ≤ c*10000 := mul_le_mul_of_nonneg_left (by exact_mod_cast hle) hc
  rw [Int.tdiv_eq_ediv_of_nonneg hscaled]
  apply min_eq_left
  omega

end Rounding

/-- Rainfall payouts follow the linear curve at the ratio rounded down: against the curve at the
exact ratio that gains less than the slope of the curve, and nothing at all iff the window is not
triggered, is exhausted at the exact ratio too, or loses as much in the rounding of its severity. -/
theorem rainfall_payout_curve (params : IndexParams) (acc : WindowAccumulator) (breached : Bool)
    (severity : Bps) (hv : validateParams params=.ok ()) (hk : params.kind=.rainfallShortfall)
    (hrain : 0≤acc.rainSum) (h : evalRainfall params acc=.ok (breached,severity)) :
    let r := params.ratio acc
    let payout := fun c : Int => c*severity/10000
    (∀ s i w t c p, readState s i w=.finalized t severity → 0 ≤ c →
      payoutFor s i w c=.ok p → p=payout c) ∧
    (∀ c : Int, 0 ≤ c → (payout c : ℚ) ≤ c*params.curve ⌊r⌋ ∧
      (payout c : ℚ) ≤ c*(params.curve r+Int.fract r/params.span) ∧
      (0 < c → (payout c : ℚ) < c*params.curve r+c/params.span)) ∧
    ((∀ c : Int, 0 ≤ c → (payout c : ℚ) ≤ c*params.curve r) ↔
      (params.triggerRatioBps : Int)≤⌊r⌋ ∨ r≤params.exhaustionRatioBps ∨
      (params.exhaustionRatioBps : Int)<⌊r⌋ ∧
        10000*Int.fract r≤((params.triggerRatioBps-⌊r⌋)*10000%params.span : Int)) := by
  intro r payout
  have hspan : (0 : ℚ)<params.span := by exact_mod_cast span_pos hv
  have hsev := severity_le_curve hv hk hrain h
  have hfloor := curve_floor_le hv hk r
  have share : ∀ c : Int, 0 ≤ c → ∀ part : ℚ, (severity : ℚ)≤10000*part →
      (payout c : ℚ) ≤ c*part := by
    intro c hc part hpart
    have hdiv : payout c*10000 ≤ c*severity := Int.ediv_mul_le _ (by decide)
    have hcast : (payout c : ℚ)*10000 ≤ c*severity := by exact_mod_cast hdiv
    have hmul : (c : ℚ)*severity ≤ c*(10000*part) :=
      mul_le_mul_of_nonneg_left hpart (by exact_mod_cast hc)
    linarith
  refine ⟨?_,?_,?_⟩
  · intro s i w t c p hst hc hp
    have hle : severity≤10000 := by
      have heval : evalIndex params acc=.ok (breached,severity) := by rw [evalIndex,hk]; exact h
      exact evalIndex_severity heval
    exact payoutFor_floor hst hle hc hp
  · intro c hc
    have hcast : (0 : ℚ)≤c := by exact_mod_cast hc
    have hcurve := share c hc _ hsev
    refine ⟨hcurve,hcurve.trans (mul_le_mul_of_nonneg_left hfloor hcast),?_⟩
    intro hpos
    have hpos' : (0 : ℚ)<c := by exact_mod_cast hpos
    have hslope : Int.fract r/params.span<1/params.span :=
      div_lt_div_of_pos_right (Int.fract_lt_one r) hspan
    have hgain : params.curve ⌊r⌋<params.curve r+1/params.span := by linarith
    calc
      (payout c : ℚ) ≤ c*params.curve ⌊r⌋ := hcurve
      _ < c*(params.curve r+1/params.span) := mul_lt_mul_of_pos_left hgain hpos'
      _ = c*params.curve r+c/params.span := by ring
  · rw [← severity_le_exact_iff hv hk hrain h]
    constructor
    · intro hall
      have hwhole := hall 10000 (by decide)
      have hpaid : payout 10000=severity := Int.mul_ediv_cancel_left _ (by decide)
      rw [hpaid] at hwhole
      exact_mod_cast hwhole
    · intro hexact c hc
      exact share c hc _ hexact

section Sample

/-- An index whose ramp is one basis point wide, over a baseline of three. -/
def steepIndex : IndexParams := ⟨.rainfallShortfall,⟨1⟩,⟨1⟩,1,3,6667,6666,0,0,0,0⟩

def steepSeason : List (Env × Call) := [
  (⟨100,[⟨0⟩]⟩,.createIndex steepIndex),
  (⟨100,[⟨0⟩]⟩,.recordDay 0 7 1 2),
  (⟨100,[]⟩,.evaluate 0 7),
  (⟨86500,[⟨0⟩]⟩,.finalize 0 7)]

/-- Two thirds of the baseline is a third of the way down the ramp, and pays the whole. -/
theorem rainfall_payout_exceeds_exact :
    let s := machine.run (deploy ⟨0⟩) steepSeason
    let acc := readAccumulator s 0 7
    validateParams steepIndex=.ok () ∧ 0≤acc.rainSum ∧
    evalRainfall steepIndex acc=.ok (true,10000) ∧ payoutFor s 0 7 10000=.ok 10000 ∧
    10000*steepIndex.curve (steepIndex.ratio acc)=10000/3 ∧
    ¬((10000 : Int) : ℚ)≤10000*steepIndex.curve (steepIndex.ratio acc) := by
  intro s acc
  have hexact : 10000*steepIndex.curve (steepIndex.ratio acc)=10000/3 := by
    decide +kernel
  refine ⟨by decide,by decide +kernel,by decide +kernel,by decide +kernel,hexact,?_⟩
  rw [hexact]
  norm_num

/-- At the rounded ratio the index is exhausted, and the whole coverage is due. -/
theorem rainfall_payout_curve_steep :
    ((10000*10000/10000 : Int) : ℚ) ≤ 10000*steepIndex.curve ⌊steepIndex.ratio ⟨1,2,0,0⟩⌋ := by
  have h := rainfall_payout_curve steepIndex ⟨1,2,0,0⟩ true 10000 (by decide) rfl (by decide)
    (by decide +kernel)
  exact (h.2.1 10000 (by decide)).1

end Sample

end Mvua.TriggerEngine
