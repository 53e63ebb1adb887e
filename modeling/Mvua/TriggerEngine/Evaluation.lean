import Mvua.TriggerEngine.Monotone

namespace Mvua.TriggerEngine

section Total

variable {params : IndexParams} {acc : WindowAccumulator}

/-- The ratio test of the code is the exact comparison with the trigger point. -/
theorem ratio_lt_iff (hv : validateParams params=.ok ())
    (hk : params.kind=.rainfallShortfall) (bound : Int) :
    acc.rainSum*10000/params.baseline<bound ↔ acc.rainSum*10000<bound*params.baseline :=
  Int.ediv_lt_iff_lt_mul (baseline_pos hv hk)

theorem depth_of_rainfall (hk : params.kind=.rainfallShortfall) (hrain : 0≤acc.rainSum) :
    params.depth acc=params.triggerRatioBps-acc.rainSum*10000/params.baseline := by
  have hscaled : 0≤acc.rainSum*10000 := mul_nonneg hrain (by decide)
  rw [IndexParams.depth,hk]
  simp only [bpsDenominator,Int.tdiv_eq_ediv_of_nonneg hscaled]

theorem span_of_rainfall (hk : params.kind=.rainfallShortfall) :
    params.span=params.triggerRatioBps-params.exhaustionRatioBps := by
  rw [IndexParams.span,hk]

/-- What the validator promises about the two ratios. -/
theorem ratio_order (hv : validateParams params=.ok ())
    (hk : params.kind=.rainfallShortfall) :
    (params.exhaustionRatioBps : Int)<params.triggerRatioBps ∧
      (params.triggerRatioBps : Int)≤10000 := by
  simp only [validateParams,hk,bind_eq_ok,failIf_eq_ok] at hv
  obtain ⟨-,-,-,-,-,hle,hlt⟩ := hv
  exact ⟨by exact_mod_cast not_le.mp hlt,by exact_mod_cast not_lt.mp hle⟩

/-- A share of a ramp that starts at a small number of units is computed without overflow. -/
theorem checked_ramp {part span : Int} (h0 : 0≤part) (h : part<span) (hfit : part<2^32) :
    I128.checkedMul part bpsDenominator=some (part*bpsDenominator) ∧
    I128.checkedDiv (part*bpsDenominator) span=some ((part*bpsDenominator).tdiv span) := by
  obtain ⟨hr0,hr⟩ := ramp_bounds h0 h
  simp only [Signed.checkedMul_eq_some,Signed.checkedDiv_eq_some,and_true]
  refine ⟨.of_nonneg ?_ ?_,by omega,.of_nonneg hr0 (by omega)⟩
  · exact mul_nonneg h0 (by decide)
  · simp only [bpsDenominator]
    omega

theorem evalRainfall_total (hv : validateParams params=.ok ())
    (hk : params.kind=.rainfallShortfall) (hrain : 0≤acc.rainSum)
    (hfit : acc.rainSum*10000<2^127) :
    ∃ breached severity, evalRainfall params acc=.ok (breached,severity) := by
  have hbaseline := baseline_pos hv hk
  obtain ⟨horder,hT⟩ := ratio_order hv hk
  have hscaled : 0≤acc.rainSum*10000 := mul_nonneg hrain (by decide)
  have hratio : 0≤acc.rainSum*10000/params.baseline := Int.ediv_nonneg hscaled hbaseline.le
  have hratio' : acc.rainSum*10000/params.baseline≤acc.rainSum*10000 :=
    Int.ediv_le_self _ hscaled
  have hmul : I128.checkedMul acc.rainSum bpsDenominator=some (acc.rainSum*10000) := by
    rw [Signed.checkedMul_eq_some]
    exact ⟨.of_nonneg hscaled hfit,rfl⟩
  have hdiv : I128.checkedDiv (acc.rainSum*10000) params.baseline=
      some (acc.rainSum*10000/params.baseline) := by
    rw [Signed.checkedDiv_eq_some,Int.tdiv_eq_ediv_of_nonneg hscaled]
    exact ⟨hbaseline.ne',.of_nonneg hratio (hratio'.trans_lt hfit),rfl⟩
  simp only [evalRainfall,hmul,hdiv,okOr,ok_bind]
  split_ifs with h1 h2
  · exact ⟨_,_,rfl⟩
  · exact ⟨_,_,rfl⟩
  · generalize acc.rainSum*10000/params.baseline=ratio at *
    have hshort : I128.checkedSub params.triggerRatioBps ratio=
        some (params.triggerRatioBps-ratio) := by
      rw [Signed.checkedSub_eq_some]
      exact ⟨.of_nonneg (by omega) (by omega),rfl⟩
    have hspan : I128.checkedSub params.triggerRatioBps params.exhaustionRatioBps=
        some ((params.triggerRatioBps : Int)-params.exhaustionRatioBps) := by
      rw [Signed.checkedSub_eq_some]
      exact ⟨.of_nonneg (by omega) (by omega),rfl⟩
    have hramp := @checked_ramp (params.triggerRatioBps-ratio)
      (params.triggerRatioBps-params.exhaustionRatioBps) (by omega) (by omega) (by omega)
    simp only [hshort,hspan,orTrap,ok_bind,hramp.1,hramp.2]
    exact ⟨_,_,rfl⟩

theorem evalRainfall_overflow (h : 2^127≤acc.rainSum*10000) :
    evalRainfall params acc=.error (.error .overflow) := by
  have hmul : I128.checkedMul acc.rainSum bpsDenominator=none := by
    apply if_neg
    intro hfits
    exact hfits.2.not_ge h
  simp only [evalRainfall,hmul,okOr,error_bind]

theorem evalDryDays_total (hdays : UnsignedFits 32 params.exhaustionDays) :
    ∃ breached severity, evalDryDays params acc=.ok (breached,severity) := by
  have hdays' : (params.exhaustionDays : Int)<2^32 := by exact_mod_cast hdays
  unfold evalDryDays
  dsimp only
  split_ifs with h1 h2
  · exact ⟨_,_,rfl⟩
  · exact ⟨_,_,rfl⟩
  · have hlt : ((acc.maxRun-params.triggerDays : Nat) : Int)<
        (params.exhaustionDays-params.triggerDays : Nat) := by omega
    have hsmall : ((acc.maxRun-params.triggerDays : Nat) : Int)<2^32 := by omega
    obtain ⟨hmul,hdiv⟩ := checked_ramp (Int.natCast_nonneg _) hlt hsmall
    rw [hmul,okOr,ok_bind,hdiv,okOr,ok_bind]
    exact ⟨_,_,rfl⟩

/-- The three pieces of a severity that lies on a ramp. -/
theorem severity_on_ramp {severity : Bps} {span part : Int} (hs : 0<span)
    (h : (severity : Int)=ramp 10000 span part) :
    (part≤0 → severity=0) ∧ (span≤part → severity=10000) ∧
      (0≤part → part<span → (severity : Int)=part*10000/span ∧ severity<10000) ∧
      severity≤10000 := by
  have hwhole : (0 : Int)≤10000 := by decide
  refine ⟨?_,?_,?_,?_⟩
  · intro hpart
    rw [ramp_of_nonpos hpart] at h
    exact_mod_cast h
  · intro hpart
    rw [ramp_of_full (by omega) hpart] at h
    exact_mod_cast h
  · intro h0 hpart
    have hlt := ramp_lt (by decide : (0 : Int)<10000) hs hpart
    rw [← h] at hlt
    rw [h,ramp_of_line h0 hpart,Int.tdiv_eq_ediv_of_nonneg (mul_nonneg h0 hwhole)]
    exact ⟨rfl,by exact_mod_cast hlt⟩
  · have hle := @ramp_le 10000 _ part hwhole hs
    rw [← h] at hle
    exact_mod_cast hle

end Total

/-- Every accepted index evaluates every window as the specification says. A rainfall index fails
only when the scaled sum is out of range, a dry-day index never; each reports a breach exactly at
its trigger point, and a severity that is none before it, the whole from the exhaustion point on,
and in between the floor over the integers, with no borrow and nothing lost in the cast. -/
theorem evaluation_meets_specification (params : IndexParams) (acc : WindowAccumulator)
    (hv : validateParams params=.ok ()) (hrain : 0≤acc.rainSum)
    (hdays : UnsignedFits 32 params.exhaustionDays) :
    (params.kind=.rainfallShortfall →
      let ratio := acc.rainSum*10000/params.baseline
      let trigger : Int := params.triggerRatioBps
      let exhaustion : Int := params.exhaustionRatioBps
      (2^127-1<acc.rainSum*10000 → evalRainfall params acc=.error (.error .overflow)) ∧
      (acc.rainSum*10000≤2^127-1 → ∃ severity,
        evalRainfall params acc=
          .ok (decide (acc.rainSum*10000<trigger*params.baseline),severity) ∧
        (trigger*params.baseline≤acc.rainSum*10000 → severity=0) ∧
        (ratio≤exhaustion → severity=10000) ∧
        (exhaustion<ratio → ratio<trigger →
          (severity : Int)=(trigger-ratio)*10000/(trigger-exhaustion) ∧ severity<10000) ∧
        severity≤10000)) ∧
    (params.kind=.consecutiveDryDays →
      let maxRun : Int := acc.maxRun
      let trigger : Int := params.triggerDays
      let exhaustion : Int := params.exhaustionDays
      ∃ severity, evalDryDays params acc=.ok (decide (trigger≤ maxRun),severity) ∧
        (maxRun<trigger → severity=0) ∧ (exhaustion≤ maxRun → severity=10000) ∧
        (trigger≤ maxRun → maxRun<exhaustion →
          ((acc.maxRun-params.triggerDays : Nat) : Int)=maxRun-trigger ∧
          ((params.exhaustionDays-params.triggerDays : Nat) : Int)=exhaustion-trigger ∧
          (severity : Int)=(maxRun-trigger)*10000/(exhaustion-trigger) ∧ severity<10000) ∧
        severity≤10000) := by
  have hspan := span_pos hv
  constructor
  · intro hk ratio trigger exhaustion
    refine ⟨fun h => evalRainfall_overflow (by omega),fun h => ?_⟩
    obtain ⟨breached,severity,heval⟩ := evalRainfall_total hv hk hrain (by omega)
    obtain ⟨hbreach,hsev⟩ := evalRainfall_ramp hk heval
    have hdepth : params.depth acc=trigger-ratio := depth_of_rainfall hk hrain
    have hwidth : params.span=trigger-exhaustion := span_of_rainfall hk
    have htest : ratio<trigger ↔ acc.rainSum*10000<trigger*params.baseline :=
      ratio_lt_iff hv hk trigger
    have hverdict : breached=decide (acc.rainSum*10000<trigger*params.baseline) := by
      rw [Bool.eq_iff_iff,hbreach,decide_eq_true_iff,← htest,IndexParams.Breach,hk,hdepth]
      exact sub_pos
    obtain ⟨hnone,hfull,hinside,hle⟩ := severity_on_ramp hspan hsev
    rw [hdepth,hwidth] at hfull hinside
    rw [hdepth] at hnone
    refine ⟨severity,hverdict ▸ heval,?_,fun _ => hfull (by omega),?_,hle⟩
    · intro hat
      have hratio : ¬ratio<trigger := fun hlt => (htest.mp hlt).not_ge hat
      exact hnone (by omega)
    · intro hlow hhigh
      exact hinside (by omega) (by omega)
  · intro hk maxRun trigger exhaustion
    obtain ⟨breached,severity,heval⟩ := @evalDryDays_total params acc hdays
    obtain ⟨hbreach,hsev⟩ := evalDryDays_ramp hk heval hspan
    have hdepth : params.depth acc=maxRun-trigger := by rw [IndexParams.depth,hk]
    have hwidth : params.span=exhaustion-trigger := by rw [IndexParams.span,hk]
    have hverdict : breached=decide (trigger≤ maxRun) := by
      rw [Bool.eq_iff_iff,hbreach,decide_eq_true_iff,IndexParams.Breach,hk,hdepth]
      exact sub_nonneg
    obtain ⟨hnone,hfull,hinside,hle⟩ := severity_on_ramp hspan hsev
    rw [hdepth,hwidth] at hfull hinside
    rw [hdepth] at hnone
    refine ⟨severity,hverdict ▸ heval,fun _ => hnone (by omega),fun _ => hfull (by omega),?_,hle⟩
    intro hlow hhigh
    obtain ⟨hvalue,hlt⟩ := hinside (by omega) (by omega)
    exact ⟨by omega,by omega,hvalue,hlt⟩

/-- A run of 26 days on a ramp from 21 to 35 days. -/
theorem evaluation_meets_specification_dry :
    evalDryDays ⟨.consecutiveDryDays,⟨1⟩,⟨1⟩,90,0,0,0,21,35,10,0⟩ ⟨90,400,3,26⟩=
      .ok (true,3571) := by
  obtain ⟨severity,heval,-,-,hinside,-⟩ := (evaluation_meets_specification
    ⟨.consecutiveDryDays,⟨1⟩,⟨1⟩,90,0,0,0,21,35,10,0⟩ ⟨90,400,3,26⟩ (by decide) (by decide)
    (by decide)).2 rfl
  obtain ⟨-,-,hvalue,-⟩ := hinside (by decide) (by decide)
  have hcast : (severity : Int)=3571 := hvalue
  have hseverity : severity=3571 := by exact_mod_cast hcast
  rw [heval,hseverity]
  rfl

section Calls

variable {env : Env} {s : State} {i w t : Nat} {d : IndexDefinition} {breached : Bool}
  {severity : Bps}

theorem evaluate_triggers (hd : s.indexDef i=some d)
    (hcomplete : d.params.windowLen≤(readAccumulator s i w).daysRecorded)
    (hst : readState s i w=.healthy)
    (hv : evalIndex d.params (readAccumulator s i w)=.ok (true,severity)) :
    evaluate env s i w=.ok (.triggered env.timestamp,
      (s.writeState i w (.triggered env.timestamp)).publish (.triggered i w env.timestamp)) := by
  have hdays : ¬(readAccumulator s i w).daysRecorded < d.params.windowLen := by omega
  simp [evaluate,readDef,okOr,hd,failIf,hdays,hst,hv]

/-- Once the challenge window is over, the admin can make a triggered window final. -/
theorem finalize_succeeds (hadmin : requireAdmin env s=.ok ())
    (hst : readState s i w=.triggered t) (hfits : t+challengeWindowSecs<2^64)
    (hwait : t+challengeWindowSecs≤env.timestamp) (hd : s.indexDef i=some d)
    (hv : evalIndex d.params (readAccumulator s i w)=.ok (breached,severity)) :
    finalize env s i w=.ok (.finalized env.timestamp severity,
      (s.writeState i w (.finalized env.timestamp severity)).publish
        (.finalized i w env.timestamp severity)) := by
  have hready : U64.checkedAdd t challengeWindowSecs=some (t+challengeWindowSecs) :=
    (Unsigned.checkedAdd_eq_some ..).mpr ⟨hfits,rfl⟩
  have hnow : ¬env.timestamp < t+challengeWindowSecs := not_lt.mpr hwait
  have hseverity : severityOf d.params (readAccumulator s i w)=.ok severity := by
    rw [severityOf,hv]
    rfl
  -- step by step, or the kernel unfolds the checked sum second by second
  unfold finalize
  rw [hadmin,ok_bind,hst]
  dsimp only
  rw [hready,okOr,ok_bind,failIf,if_neg hnow]
  simp [readDef,okOr,hd,hseverity]

/-- Evaluated and, once the challenge window is over, finalized by the admin, a complete and
breached window is final at its severity. -/
theorem window_settles (env env' : Env) {admin : Address} (hs : s.Sound) (ha : s.admin=some admin)
    (hsigned : admin∈env'.signers) (hd : s.indexDef i=some d)
    (hcomplete : d.params.windowLen≤(readAccumulator s i w).daysRecorded)
    (hst : readState s i w=.healthy)
    (hv : evalIndex d.params (readAccumulator s i w)=.ok (true,severity))
    (hfits : env.timestamp+challengeWindowSecs<2^64)
    (hwait : env.timestamp+challengeWindowSecs≤env'.timestamp) :
    ∃ s₁ s₂, invoke env s (.evaluate i w)=.ok s₁ ∧ invoke env' s₁ (.finalize i w)=.ok s₂ ∧
      s₂.Sound ∧ readState s₂ i w=.finalized env'.timestamp severity := by
  let s₁ := (s.writeState i w (.triggered env.timestamp)).publish (.triggered i w env.timestamp)
  let s₂ := (s₁.writeState i w (.finalized env'.timestamp severity)).publish
    (.finalized i w env'.timestamp severity)
  have hevaluate : invoke env s (.evaluate i w)=.ok s₁ := by
    simp only [invoke,evaluate_triggers hd hcomplete hst hv,Except.map]
    rfl
  have htriggered : readState s₁ i w=.triggered env.timestamp := by
    simp [s₁,readState_writeState]
  have hauth : requireAdmin env' s₁=.ok () := (requireStored_iff ha).mpr hsigned
  have hd₁ : s₁.indexDef i=some d := hd
  have hv₁ : evalIndex d.params (readAccumulator s₁ i w)=.ok (true,severity) := hv
  have hfinalize : invoke env' s₁ (.finalize i w)=.ok s₂ := by
    simp only [invoke,finalize_succeeds hauth htriggered hfits hwait hd₁ hv₁,Except.map]
    rfl
  refine ⟨s₁,s₂,hevaluate,hfinalize,?_,?_⟩
  · exact (invoke_effect hfinalize).sound ((invoke_effect hevaluate).sound hs)
  · simp [s₂,readState_writeState]

end Calls

end Mvua.TriggerEngine
