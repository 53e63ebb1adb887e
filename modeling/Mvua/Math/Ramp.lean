import Mathlib.Tactic.Linarith
import Mathlib.Algebra.Order.Ring.Int
import Mathlib.Data.Rat.Floor
import Mathlib.Tactic.Ring

namespace Mvua

/-- A linear ramp, rounded down: nothing before its start, the whole from its end on. -/
def ramp (whole span part : Int) : Int :=
  if part≤0 then 0 else if span≤part then whole else (part*whole).tdiv span

section Ramp

variable {whole span part part' : Int}

theorem ramp_of_nonpos (h : part≤0) : ramp whole span part=0 := if_pos h

theorem ramp_of_full (hpos : 0<part) (h : span≤part) : ramp whole span part=whole := by
  rw [ramp,if_neg (by omega),if_pos h]

theorem ramp_of_between (hpos : 0<part) (h : part<span) :
    ramp whole span part=(part*whole).tdiv span := by
  rw [ramp,if_neg (by omega),if_neg (by omega)]

/-- The start of the ramp may be read off the line as well. -/
theorem ramp_of_line (hpos : 0≤part) (h : part<span) :
    ramp whole span part=(part*whole).tdiv span := by
  by_cases h0 : part=0
  · subst h0
    rw [ramp_of_nonpos le_rfl,zero_mul,Int.zero_tdiv]
  · exact ramp_of_between (by omega) h

theorem ramp_nonneg (hw : 0≤whole) (hs : 0<span) : 0 ≤ ramp whole span part := by
  unfold ramp
  split_ifs with h0 h1
  · exact le_rfl
  · exact hw
  · apply Int.tdiv_nonneg _ hs.le
    exact mul_nonneg (by omega) hw

theorem ramp_le (hw : 0≤whole) (hs : 0<span) : ramp whole span part≤whole := by
  unfold ramp
  split_ifs with h0 h1
  · exact hw
  · exact le_rfl
  · have hle : part*whole ≤ span*whole := mul_le_mul_of_nonneg_right (by omega) hw
    have hq := Int.tdiv_le_tdiv hs hle
    rwa [Int.mul_tdiv_cancel_left _ hs.ne'] at hq

/-- Short of its end, the ramp is short of the whole. -/
theorem ramp_lt (hw : 0<whole) (hs : 0<span) (h : part<span) : ramp whole span part<whole := by
  unfold ramp
  split_ifs with h0 h1
  · exact hw
  · omega
  · have hlt : part*whole<whole*span := by
      rw [mul_comm whole]
      exact mul_lt_mul_of_pos_right h hw
    rw [Int.tdiv_eq_ediv_of_nonneg (mul_nonneg (by omega) hw.le)]
    exact Int.ediv_lt_of_lt_mul hs hlt

/-- The ramp shows after rounding as soon as the whole of the part reaches the span. -/
theorem ramp_pos_iff (hw : 0<whole) (hs : 0<span) :
    0 < ramp whole span part ↔ span≤part*whole := by
  by_cases h0 : part≤0
  · rw [ramp_of_nonpos h0]
    have hle : part*whole≤0 := mul_nonpos_of_nonpos_of_nonneg h0 hw.le
    exact iff_of_false (lt_irrefl 0) (by omega)
  have hpart : part≤part*whole := le_mul_of_one_le_right (by omega) hw
  by_cases h1 : span≤part
  · rw [ramp_of_full (by omega) h1]
    exact iff_of_true hw (h1.trans hpart)
  · have hquotient := Int.le_ediv_iff_mul_le (a := 1) (b := part*whole) hs
    rw [one_mul] at hquotient
    rw [ramp_of_between (by omega) (by omega),Int.tdiv_eq_ediv_of_nonneg (by omega),← hquotient]
    exact Int.lt_iff_add_one_le

/-- Further along the ramp is no lower on it. -/
theorem ramp_mono (hw : 0≤whole) (hs : 0<span) (h : part≤part') :
    ramp whole span part ≤ ramp whole span part' := by
  by_cases h0 : part≤0
  · rw [ramp_of_nonpos h0]
    exact ramp_nonneg hw hs
  by_cases h1 : span≤part'
  · rw [ramp_of_full (by omega) h1]
    exact ramp_le hw hs
  · rw [ramp_of_between (by omega) (by omega),ramp_of_between (by omega) (by omega)]
    exact Int.tdiv_le_tdiv hs (mul_le_mul_of_nonneg_right h hw)

end Ramp

/-- The ramp before rounding, with a whole of one. -/
def unitRamp (span part : ℚ) : ℚ :=
  if part≤0 then 0 else if span≤part then 1 else part/span

section UnitRamp

variable {span part ahead : ℚ}

theorem unitRamp_nonneg (hs : 0<span) : 0 ≤ unitRamp span part := by
  unfold unitRamp
  split_ifs with h0 h1
  · exact le_rfl
  · exact zero_le_one
  · exact div_nonneg (not_le.mp h0).le hs.le

/-- Being ahead on the ramp gains at most the slope for each unit. -/
theorem unitRamp_add_le (hs : 0<span) (ha : 0≤ahead) :
    unitRamp span (part+ahead) ≤ unitRamp span part+ahead/span := by
  have hgain : 0≤ahead/span := div_nonneg ha hs.le
  have hsplit : (part+ahead)/span=part/span+ahead/span := add_div part ahead span
  by_cases h0 : part+ahead≤0
  · rw [unitRamp,if_pos h0]
    exact add_nonneg (unitRamp_nonneg hs) hgain
  rw [unitRamp,if_neg h0]
  have hbelow : (if span≤part+ahead then 1 else (part+ahead)/span)≤(part+ahead)/span := by
    split_ifs with h1
    · exact (one_le_div hs).mpr h1
    · exact le_rfl
  unfold unitRamp
  split_ifs at hbelow ⊢ with h1 h2 h3 h4
  · have hneg : part/span≤0 := div_nonpos_of_nonpos_of_nonneg h2 hs.le
    linarith
  · linarith
  · linarith
  · have hneg : part/span≤0 := div_nonpos_of_nonpos_of_nonneg h4 hs.le
    linarith
  · linarith
  · linarith

end UnitRamp

section Rounding

variable {whole span part : Int}

/-- The integer ramp is the floor of the exact one. -/
theorem ramp_eq_floor (hw : 0≤whole) (hs : 0<span) :
    ramp whole span part=⌊(whole : ℚ)*unitRamp span part⌋ := by
  have hspan : (0 : ℚ)<span := by exact_mod_cast hs
  by_cases h0 : part≤0
  · have hcast : (part : ℚ)≤0 := by exact_mod_cast h0
    rw [ramp_of_nonpos h0,unitRamp,if_pos hcast,mul_zero,Int.floor_zero]
  have hpart : ¬(part : ℚ)≤0 := by exact_mod_cast h0
  by_cases h1 : span≤part
  · have hcast : (span : ℚ)≤part := by exact_mod_cast h1
    rw [ramp_of_full (by omega) h1,unitRamp,if_neg hpart,if_pos hcast,mul_one,Int.floor_intCast]
  · have hcast : ¬(span : ℚ)≤part := by exact_mod_cast h1
    have hprod : 0≤part*whole := mul_nonneg (by omega) hw
    have hline : (whole : ℚ)*(part/span)=(part*whole : Int)/span := by
      push_cast
      ring
    rw [ramp_of_between (by omega) (by omega),unitRamp,if_neg hpart,if_neg hcast,hline,
      Int.floor_div_cast_of_nonneg hs.le,Int.floor_intCast,Int.tdiv_eq_ediv_of_nonneg hprod]

theorem ramp_le_unitRamp (hw : 0≤whole) (hs : 0<span) :
    (ramp whole span part : ℚ) ≤ whole*unitRamp span part := by
  rw [ramp_eq_floor hw hs]
  exact Int.floor_le _

/-- A ramp taken at a part rounded up stays below the exact one iff it starts late, the exact
one is full as well, or its own rounding makes up for that of the part. -/
theorem ramp_le_unitRamp_iff {exact : ℚ} (hw : 0<whole) (hs : 0<span)
    (hstart : 0<part → 0<exact) :
    (ramp whole span part : ℚ) ≤ whole*unitRamp span exact ↔
      part≤0 ∨ (span : ℚ)≤exact ∨
        part<span ∧ (whole : ℚ)*(part-exact)≤(part*whole%span : Int) := by
  have hspan : (0 : ℚ)<span := by exact_mod_cast hs
  have hwhole : (0 : ℚ)<whole := by exact_mod_cast hw
  by_cases h0 : part≤0
  · rw [ramp_of_nonpos h0,Int.cast_zero]
    exact iff_of_true (mul_nonneg hwhole.le (unitRamp_nonneg hspan)) (Or.inl h0)
  have hexact := hstart (by omega)
  by_cases h1 : (span : ℚ)≤exact
  · rw [unitRamp,if_neg hexact.not_ge,if_pos h1,mul_one]
    have hle : ramp whole span part≤whole := ramp_le hw.le hs
    exact iff_of_true (by exact_mod_cast hle) (Or.inr (Or.inl h1))
  rw [unitRamp,if_neg hexact.not_ge,if_neg h1,or_iff_right h0,or_iff_right h1,
    ← mul_div_assoc,le_div_iff₀ hspan]
  by_cases h2 : span≤part
  · rw [ramp_of_full (by omega) h2]
    refine iff_of_false (fun h => h1 ?_) (fun h => ?_)
    · exact le_of_mul_le_mul_left h hwhole
    · omega
  · have hprod : 0≤part*whole := mul_nonneg (by omega) hw.le
    have hdiv : part*whole/span*span=part*whole-part*whole%span := by
      have hsplit := Int.mul_ediv_add_emod (part*whole) span
      linarith
    rw [ramp_of_between (by omega) (by omega),Int.tdiv_eq_ediv_of_nonneg hprod,
      and_iff_right (not_le.mp h2)]
    have hcast : ((part*whole/span : Int) : ℚ)*span=part*whole-(part*whole%span : Int) := by
      exact_mod_cast hdiv
    rw [hcast]
    constructor
    · intro h
      linarith
    · intro h
      linarith

end Rounding

end Mvua
