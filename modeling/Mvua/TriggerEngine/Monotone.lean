import Mvua.TriggerEngine.Accumulation
import Mvua.Math.Ramp
import Mathlib.Algebra.Order.BigOperators.Group.List

namespace Mvua.TriggerEngine

/-- How far a window is past the trigger point of its index. -/
def IndexParams.depth (params : IndexParams) (acc : WindowAccumulator) : Int :=
  match params.kind with
  | .rainfallShortfall =>
      params.triggerRatioBps-(acc.rainSum*bpsDenominator).tdiv params.baseline
  | .consecutiveDryDays => acc.maxRun-params.triggerDays

/-- How far the exhaustion point of an index lies beyond its trigger point. -/
def IndexParams.span (params : IndexParams) : Int :=
  match params.kind with
  | .rainfallShortfall => params.triggerRatioBps-params.exhaustionRatioBps
  | .consecutiveDryDays => params.exhaustionDays-params.triggerDays

/-- A rainfall window must be strictly past the trigger point, a dry one at it. -/
def IndexParams.Breach (params : IndexParams) (depth : Int) : Prop :=
  match params.kind with
  | .rainfallShortfall => 0<depth
  | .consecutiveDryDays => 0≤depth

section Verdict

variable {params : IndexParams} {acc acc' : WindowAccumulator}

theorem span_pos (hv : validateParams params=.ok ()) : 0<params.span := by
  unfold IndexParams.span
  cases hk : params.kind with
  | rainfallShortfall =>
    simp only [validateParams,hk,bind_eq_ok,failIf_eq_ok] at hv
    obtain ⟨-,-,-,-,-,-,hlt⟩ := hv
    have hcast : (params.exhaustionRatioBps : Int)<params.triggerRatioBps := by
      exact_mod_cast not_le.mp hlt
    exact Int.sub_pos.mpr hcast
  | consecutiveDryDays =>
    simp only [validateParams,hk,bind_eq_ok,failIf_eq_ok] at hv
    obtain ⟨-,-,-,-,hlt⟩ := hv
    dsimp only
    omega

theorem baseline_pos (hv : validateParams params=.ok ())
    (hk : params.kind=.rainfallShortfall) : 0<params.baseline := by
  simp only [validateParams,hk,bind_eq_ok,failIf_eq_ok] at hv
  obtain ⟨-,-,-,hb,-⟩ := hv
  omega

theorem Breach.mono {n m : Int} (h : params.Breach n) (hle : n ≤ m) : params.Breach m := by
  cases hk : params.kind with
  | rainfallShortfall =>
    simp only [IndexParams.Breach,hk] at h ⊢
    exact lt_of_lt_of_le h hle
  | consecutiveDryDays =>
    simp only [IndexParams.Breach,hk] at h ⊢
    exact h.trans hle

theorem asBps_ramp {part span : Int} (h0 : 0≤part) (h : part<span) :
    (asBps ((part*bpsDenominator).tdiv span) : Int)=ramp 10000 span part := by
  rw [ramp_of_line h0 h]
  obtain ⟨hr0,hr⟩ := ramp_bounds h0 h
  exact asBps_of_bounds hr0 hr

theorem evalRainfall_ramp {breached : Bool} {severity : Bps}
    (hk : params.kind=.rainfallShortfall) (h : evalRainfall params acc=.ok (breached,severity)) :
    (breached=true ↔ params.Breach (params.depth acc)) ∧
      (severity : Int)=ramp 10000 params.span (params.depth acc) := by
  simp only [evalRainfall,bind_eq_ok,okOr_eq_ok,Signed.checkedMul_eq_some,
    Signed.checkedDiv_eq_some] at h
  obtain ⟨_,⟨-,rfl⟩,ratio,⟨-,-,hratio⟩,h⟩ := h
  simp only [IndexParams.Breach,IndexParams.depth,IndexParams.span,hk,hratio]
  split_ifs at h with h1 h2
  · rw [pure_eq_ok,Prod.mk.injEq] at h
    obtain ⟨rfl,rfl⟩ := h
    rw [ramp_of_nonpos (by omega)]
    exact ⟨iff_of_false (by simp) (by omega),rfl⟩
  · rw [pure_eq_ok,Prod.mk.injEq] at h
    obtain ⟨rfl,rfl⟩ := h
    rw [ramp_of_full (by omega) (by omega)]
    exact ⟨iff_of_true rfl (by omega),rfl⟩
  · simp only [bind_eq_ok,orTrap_eq_ok,okOr_eq_ok,Signed.checkedSub_eq_some,
      Signed.checkedMul_eq_some,Signed.checkedDiv_eq_some,pure_eq_ok,Prod.mk.injEq] at h
    obtain ⟨_,⟨-,rfl⟩,_,⟨-,rfl⟩,_,⟨-,rfl⟩,_,⟨-,-,rfl⟩,rfl,rfl⟩ := h
    exact ⟨iff_of_true rfl (by omega),asBps_ramp (by omega) (by omega)⟩

theorem evalDryDays_ramp {breached : Bool} {severity : Bps}
    (hk : params.kind=.consecutiveDryDays)
    (h : evalDryDays params acc=.ok (breached,severity)) (hs : 0<params.span) :
    (breached=true ↔ params.Breach (params.depth acc)) ∧
      (severity : Int)=ramp 10000 params.span (params.depth acc) := by
  simp only [evalDryDays] at h
  simp only [IndexParams.Breach,IndexParams.depth,IndexParams.span,hk] at hs ⊢
  split_ifs at h with h1 h2
  · rw [pure_eq_ok,Prod.mk.injEq] at h
    obtain ⟨rfl,rfl⟩ := h
    rw [ramp_of_nonpos (by omega)]
    exact ⟨iff_of_false (by simp) (by omega),rfl⟩
  · rw [pure_eq_ok,Prod.mk.injEq] at h
    obtain ⟨rfl,rfl⟩ := h
    rw [ramp_of_full (by omega) (by omega)]
    exact ⟨iff_of_true rfl (by omega),rfl⟩
  · simp only [bind_eq_ok,okOr_eq_ok,Signed.checkedMul_eq_some,Signed.checkedDiv_eq_some,
      pure_eq_ok,Prod.mk.injEq] at h
    obtain ⟨_,⟨-,rfl⟩,_,⟨-,-,rfl⟩,rfl,rfl⟩ := h
    have hpart : (0 : Int)≤acc.maxRun-params.triggerDays := by omega
    have hshort :
        (acc.maxRun : Int)-params.triggerDays<params.exhaustionDays-params.triggerDays := by
      omega
    have hline := asBps_ramp hpart hshort
    refine ⟨iff_of_true rfl (by omega),?_⟩
    rw [← hline,Nat.cast_sub (by omega),Nat.cast_sub (by omega)]

/-- The verdict on a window depends on its depth only, along one ramp. -/
theorem evalIndex_ramp {breached : Bool} {severity : Bps} (hv : validateParams params=.ok ())
    (h : evalIndex params acc=.ok (breached,severity)) :
    (breached=true ↔ params.Breach (params.depth acc)) ∧
      (severity : Int)=ramp 10000 params.span (params.depth acc) := by
  unfold evalIndex at h
  cases hk : params.kind with
  | rainfallShortfall =>
    rw [hk] at h
    exact evalRainfall_ramp hk h
  | consecutiveDryDays =>
    rw [hk] at h
    exact evalDryDays_ramp hk h (span_pos hv)

theorem depth_mono (hv : validateParams params=.ok ()) (hrain : acc.rainSum≤acc'.rainSum)
    (hrun : acc'.maxRun≤acc.maxRun) : params.depth acc'≤params.depth acc := by
  unfold IndexParams.depth
  cases hk : params.kind with
  | rainfallShortfall =>
    have hscaled : acc.rainSum*bpsDenominator≤acc'.rainSum*bpsDenominator :=
      mul_le_mul_of_nonneg_right hrain (by decide)
    have hratio := Int.tdiv_le_tdiv (baseline_pos hv hk) hscaled
    dsimp only
    omega
  | consecutiveDryDays =>
    dsimp only
    omega

/-- Of two series, the one that is nowhere wetter is deeper. -/
theorem accumulate_depth_mono {lower upper : List Int} (hv : validateParams params=.ok ())
    (hle : List.Forall₂ (·≤·) lower upper) :
    params.depth (accumulate params upper)≤params.depth (accumulate params lower) := by
  obtain ⟨-,hrain,hblock,-⟩ := accumulate_spec params lower
  obtain ⟨-,hrain',hblock',-⟩ := accumulate_spec params upper
  apply depth_mono hv
  · rw [hrain,hrain']
    exact hle.sum_le_sum
  · apply hblock.mono hblock'
    -- a day that is dry in the wetter season is dry in the other
    apply List.Forall₂.flip
    exact hle.imp fun _ _ h hdry => h.trans hdry

theorem evalIndex_mono {b b' : Bool} {sev sev' : Bps} (hv : validateParams params=.ok ())
    (hdepth : params.depth acc'≤params.depth acc) (h : evalIndex params acc=.ok (b,sev))
    (h' : evalIndex params acc'=.ok (b',sev')) : (b'=true → b=true) ∧ sev' ≤ sev := by
  obtain ⟨hb,hsev⟩ := evalIndex_ramp hv h
  obtain ⟨hb',hsev'⟩ := evalIndex_ramp hv h'
  have hwhole : (0 : Int)≤10000 := by decide
  have hle := ramp_mono hwhole (span_pos hv) hdepth
  rw [← hsev,← hsev'] at hle
  refine ⟨?_,by exact_mod_cast hle⟩
  intro hbreach
  rw [hb'] at hbreach
  exact hb.mpr (Breach.mono hbreach hdepth)

end Verdict

section Seasons

variable {s : State} {i w x y : Nat} {d : IndexDefinition} {c : Int}

/-- A payout is the finalized share of the coverage, rounded down and never more than all. -/
theorem payoutFor_share {p : Int} (h : payoutFor s i w c=.ok p) :
    ∃ t severity, readState s i w=.finalized t severity ∧
      p=min ((c*(severity : Nat)).tdiv 10000) c := by
  unfold payoutFor at h
  cases hst : readState s i w with
  | healthy => simp [hst] at h
  | triggered t => simp [hst] at h
  | finalized t severity =>
    simp only [hst,bind_eq_ok,okOr_eq_ok,pure_eq_ok] at h
    obtain ⟨scaled,hscaled,rfl⟩ := h
    exact ⟨t,severity,rfl,by rw [applyBps_eq_some hscaled]⟩

theorem share_mono_severity {sev sev' : Nat} (hc : 0 ≤ c) (h : sev' ≤ sev) :
    min ((c*sev').tdiv 10000) c ≤ min ((c*sev).tdiv 10000) c := by
  have hmul : c*sev' ≤ c*sev := mul_le_mul_of_nonneg_left (by exact_mod_cast h) hc
  exact min_le_min_right _ (Int.tdiv_le_tdiv (by omega) hmul)

theorem share_mono_coverage {sev : Nat} {c' : Int} (h : c ≤ c') :
    min ((c*sev).tdiv 10000) c ≤ min ((c'*sev).tdiv 10000) c' := by
  have hmul : c*sev ≤ c'*sev := mul_le_mul_of_nonneg_right h (by omega)
  exact min_le_min (Int.tdiv_le_tdiv (by omega) hmul) h

/-- Only the recorded values of two windows decide which of them is deeper. -/
theorem Accumulated.depth_mono {lower upper : List (Nat × Int)} (hs : s.Sound)
    (hd : s.indexDef i=some d) (hx : Accumulated s i x lower) (hy : Accumulated s i y upper)
    (hle : List.Forall₂ (·≤·) (lower.map Prod.snd) (upper.map Prod.snd)) :
    d.params.depth (readAccumulator s i y)≤d.params.depth (readAccumulator s i x) := by
  rw [hx.eq_accumulate hd,hy.eq_accumulate hd]
  exact accumulate_depth_mono (hs.valid i d hd) hle

/-- A successful evaluation reports the verdict of the index formula, which it could compute. -/
theorem evaluate_verdict {env : Env} {r : TriggerStatus × State} (hs : s.Sound)
    (hd : s.indexDef i=some d) (h : evaluate env s i w=.ok r) :
    ∃ breached severity, evalIndex d.params (readAccumulator s i w)=.ok (breached,severity) ∧
      (r.1≠.healthy ↔ breached=true) := by
  obtain ⟨status,u⟩ := r
  have verdict : ∃ breached severity,
      evalIndex d.params (readAccumulator s i w)=.ok (breached,severity) := by
    cases evaluate_ok h with
    | trigger d' severity hd' _ _ hv =>
      rw [hd,Option.some.injEq] at hd'
      exact ⟨true,severity,hd' ▸ hv⟩
    | healthy d' severity hd' _ _ hv =>
      rw [hd,Option.some.injEq] at hd'
      exact ⟨false,severity,hd' ▸ hv⟩
    | settled _ _ _ hst =>
      obtain ⟨d',severity,hd',-,hv,-⟩ := hs.locked i w hst
      rw [hd,Option.some.injEq] at hd'
      exact ⟨true,severity,hd' ▸ hv⟩
  obtain ⟨breached,severity,hv⟩ := verdict
  exact ⟨breached,severity,hv,hs.evaluate_iff hd hv h⟩

theorem payoutFor_verdict {p : Int} (hs : s.Sound) (hd : s.indexDef i=some d)
    (h : payoutFor s i w c=.ok p) :
    ∃ severity, evalIndex d.params (readAccumulator s i w)=.ok (true,severity) ∧
      p=min ((c*(severity : Nat)).tdiv 10000) c := by
  obtain ⟨t,severity,hst,hp⟩ := payoutFor_share h
  obtain ⟨d',severity',hd',-,hv,hfin⟩ := hs.locked i w (by rw [hst]; simp)
  rw [hd,Option.some.injEq] at hd'
  subst d'
  rw [← hfin t severity hst] at hv
  exact ⟨severity,hv,hp⟩

/-- Two windows of one index, the first no wetter than the second on any day: if the second
triggers, so does the first and no less severely, and the first never pays less. -/
theorem worse_season_pays_no_less (admin : Address) (calls : List (Env × Call)) (i x y : Nat)
    (d : IndexDefinition) :
    let s := machine.run (deploy admin) calls
    let values := fun w => (machine.log (recorded i w) (deploy admin) calls).map Prod.snd
    s.indexDef i=some d → List.Forall₂ (·≤·) (values x) (values y) →
    (∀ envx envy rx ry, evaluate envx s i x=.ok rx → evaluate envy s i y=.ok ry →
      ry.1≠.healthy → rx.1≠.healthy ∧ ∃ sx sy,
        severityOf d.params (readAccumulator s i x)=.ok sx ∧
        severityOf d.params (readAccumulator s i y)=.ok sy ∧ sy ≤ sx ∧ sx≤10000) ∧
    (∀ c px py, 0 ≤ c → payoutFor s i x c=.ok px → payoutFor s i y c=.ok py →
      0≤py ∧ py≤px ∧ px ≤ c) ∧
    ∀ w c c' p p', c ≤ c' → payoutFor s i w c=.ok p → payoutFor s i w c'=.ok p' → p≤p' := by
  intro s values hd hle
  have hs : s.Sound := run_sound (deploy_sound admin) calls
  have hvalid := hs.valid i d hd
  have hdepth := Accumulated.depth_mono hs hd (run_accumulated admin calls i x)
    (run_accumulated admin calls i y) hle
  refine ⟨?_,?_,?_⟩
  · intro envx envy rx ry hx hy htrig
    obtain ⟨breached,sx,hvx,hbx⟩ := evaluate_verdict hs hd hx
    obtain ⟨breached',sy,hvy,hby⟩ := evaluate_verdict hs hd hy
    obtain ⟨hbreach,hsev⟩ := evalIndex_mono hvalid hdepth hvx hvy
    refine ⟨hbx.mpr (hbreach (hby.mp htrig)),sx,sy,?_,?_,hsev,evalIndex_severity hvx⟩
    · rw [severityOf,hvx]
      rfl
    · rw [severityOf,hvy]
      rfl
  · intro c px py hc hpx hpy
    obtain ⟨sx,hvx,rfl⟩ := payoutFor_verdict hs hd hpx
    obtain ⟨sy,hvy,rfl⟩ := payoutFor_verdict hs hd hpy
    obtain ⟨-,hsev⟩ := evalIndex_mono hvalid hdepth hvx hvy
    have hnonneg : 0≤(c*sy).tdiv 10000 :=
      Int.tdiv_nonneg (mul_nonneg hc (by omega)) (by omega)
    exact ⟨le_min hnonneg hc,share_mono_severity hc hsev,min_le_right _ _⟩
  · intro w c c' p p' hc hp hp'
    obtain ⟨t,sev,hst,rfl⟩ := payoutFor_share hp
    obtain ⟨t',sev',hst',rfl⟩ := payoutFor_share hp'
    have hsame := hst.symm.trans hst'
    rw [TriggerStatus.finalized.injEq] at hsame
    rw [← hsame.2]
    exact share_mono_coverage hc

end Seasons

section Sample

/-- Two windows of one rainfall index, the first with a little less rain on its first day. -/
def rainSeasons : List (Env × Call) := [
  (⟨100,[⟨0⟩]⟩,.createIndex ⟨.rainfallShortfall,⟨1⟩,⟨1⟩,2,100,7500,4000,0,0,0,0⟩),
  (⟨100,[⟨0⟩]⟩,.recordDay 0 7 1 30),
  (⟨100,[⟨0⟩]⟩,.recordDay 0 7 2 35),
  (⟨100,[⟨0⟩]⟩,.recordDay 0 8 1 35),
  (⟨100,[⟨0⟩]⟩,.recordDay 0 8 2 35),
  (⟨100,[]⟩,.evaluate 0 7),
  (⟨100,[]⟩,.evaluate 0 8),
  (⟨86500,[⟨0⟩]⟩,.finalize 0 7),
  (⟨86500,[⟨0⟩]⟩,.finalize 0 8)]

theorem worse_season_pays_no_less_rain :
    let s := machine.run (deploy ⟨0⟩) rainSeasons
    readState s 0 7=.finalized 86500 2857 ∧ readState s 0 8=.finalized 86500 1428 ∧
    payoutFor s 0 7 100=.ok 28 ∧ payoutFor s 0 8 100=.ok 14 ∧
    (0 : Int)≤14 ∧ (14 : Int)≤28 ∧ (28 : Int)≤100 := by
  intro s
  have hdef : s.indexDef 0=
      some ⟨0,⟨.rainfallShortfall,⟨1⟩,⟨1⟩,2,100,7500,4000,0,0,0,0⟩⟩ := by
    decide +kernel
  have hdrier : (machine.log (recorded 0 7) (deploy ⟨0⟩) rainSeasons).map Prod.snd=[30,35] := by
    decide +kernel
  have hwetter : (machine.log (recorded 0 8) (deploy ⟨0⟩) rainSeasons).map Prod.snd=[35,35] := by
    decide +kernel
  have hx : payoutFor s 0 7 100=.ok 28 := by
    decide +kernel
  have hy : payoutFor s 0 8 100=.ok 14 := by
    decide +kernel
  have h := worse_season_pays_no_less ⟨0⟩ rainSeasons 0 7 8 _ hdef
    (by simp only [hdrier,hwetter]; decide)
  exact ⟨by decide +kernel,by decide +kernel,hx,hy,h.2.1 100 28 14 (by decide) hx hy⟩

end Sample

end Mvua.TriggerEngine
