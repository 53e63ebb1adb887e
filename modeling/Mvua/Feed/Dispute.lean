import Mvua.Feed.World

namespace Mvua.Feed

/-- A value folded into a window, and the median that the oracle would have given for it without
a disputed submission: none if the others give no median, or if the guardian asserted the value. -/
structure Reading where
  value : Int
  without : Option Int
  deriving DecidableEq, Repr

section Readings

variable (verify : BytesN 32 → OracleAdapter.ObservationPayload → BytesN 64 → Bool)
  (adapter : Address) (r m : Symbol) (p i w : Nat)

def medianWithout (env : Env) (v : World) : TriggerEngine.Call → Option Int
  | .recordDayFromOracle j _ _ elsewhere =>
      match v.engine.indexDef j,v.engine.oracleRef with
      | some d,some address => (answer adapter env (OracleAdapter.without v.oracle r m p) elsewhere
          address d.params.region d.params.metric).toOption
      | _,_ => none
  | _ => none

/-- What a transaction folds into the window. -/
def readings (v : World) : Env × Action → List Reading
  | (_,.oracle _) => []
  | (env,.engine c) =>
      (TriggerEngine.recorded i w v.engine (env,linked adapter env v.oracle c)).map
        fun x => ⟨x.2,medianWithout adapter r m p env v c⟩

/-- Leaving submission `p` out would not change the median that a transaction records. -/
def Unmoved (v : World) : Env × Action → Prop
  | (env,.engine (.recordDayFromOracle j x day elsewhere)) => j=i → x=w →
      (TriggerEngine.recordDayFromOracle (answer adapter env v.oracle elsewhere) env v.engine j x
        day).isOk → v.engine.oracleRef=some adapter → ∀ d∈v.engine.indexDef j,
        OracleAdapter.median env (OracleAdapter.without v.oracle r m p) d.params.region
          d.params.metric=OracleAdapter.median env v.oracle d.params.region d.params.metric
  | _ => True

instance (v : World) : (a : Env × Action) → Decidable (Unmoved adapter r m p i w v a)
  | (_,.oracle _) => .isTrue trivial
  | (_,.engine (.createIndex _)) => .isTrue trivial
  | (_,.engine (.recordDay ..)) => .isTrue trivial
  | (_,.engine (.recordDayFromOracle ..)) => inferInstanceAs (Decidable (_ → _))
  | (_,.engine (.setOracle _)) => .isTrue trivial
  | (_,.engine (.evaluate ..)) => .isTrue trivial
  | (_,.engine (.finalize ..)) => .isTrue trivial

def Upheld (v : World) : Env × Action → Prop
  | (env,.oracle c) => OracleAdapter.Upheld verify r m p v.oracle (env,c)
  | (_,.engine _) => True

instance (v : World) : (a : Env × Action) → Decidable (Upheld verify r m p v a)
  | (_,.oracle _) => inferInstanceAs (Decidable (_ → _))
  | (_,.engine _) => .isTrue trivial

variable {verify adapter r m p i w} {v : World} {a : Env × Action}

theorem unmoved_of_excluded (h : OracleAdapter.Excluded v.oracle r m p) :
    Unmoved adapter r m p i w v a := by
  unfold Unmoved
  split
  · intro _ _ _ _ d _
    exact h.median_without _ _ _
  · trivial

theorem reading_of_unmoved (h : Unmoved adapter r m p i w v a) :
    ∀ x∈readings adapter r m p i w v a, ∀ y, x.without=some y → y=x.value := by
  obtain ⟨env,c⟩ := a
  intro x hx y hy
  cases c with
  | oracle c => simp [readings] at hx
  | engine c =>
    obtain ⟨z,hz,rfl⟩ := List.mem_map.mp hx
    cases c with
    | recordDayFromOracle j x day elsewhere =>
      simp only [linked,TriggerEngine.recorded] at hz
      cases hrec : TriggerEngine.recordDayFromOracle (answer adapter env v.oracle elsewhere) env
          v.engine j x day with
      | error e => simp [hrec] at hz
      | ok res =>
        obtain ⟨value,u⟩ := res
        simp only [hrec] at hz
        split_ifs at hz with he
        · rw [List.mem_singleton.mp hz]
          have hok := hrec
          simp only [TriggerEngine.recordDayFromOracle,bind_eq_ok,TriggerEngine.readDef,okOr_eq_ok,
            liftTrap_eq_ok,pure_eq_ok,Prod.mk.injEq] at hok
          obtain ⟨-,-,d,hd,address,haddr,value',hans,-,-,rfl,-⟩ := hok
          have hsame : answer adapter env (OracleAdapter.without v.oracle r m p) elsewhere address
              d.params.region d.params.metric=.ok value' := by
            rw [← hans]
            unfold answer
            split_ifs with hat
            · rw [h he.1 he.2 (by rw [hrec]; rfl) (by rw [haddr,hat]) d hd]
            · rfl
          simp only [medianWithout,hd,haddr,hsame] at hy
          exact (Option.some.inj hy).symm
        · simp at hz
    | _ => simp [medianWithout] at hy

theorem excluded_next (h : OracleAdapter.Excluded v.oracle r m p) (hu : Upheld verify r m p v a) :
    OracleAdapter.Excluded ((machine verify adapter).next v a).oracle r m p := by
  obtain ⟨env,c⟩ := a
  rw [next_eq]
  cases c with
  | oracle c => exact h.next hu
  | engine c => exact h

theorem readings_value (v : World) (calls : List (Env × Action)) :
    ((machine verify adapter).log (readings adapter r m p i w) v calls).map Reading.value=
      (TriggerEngine.machine.log (TriggerEngine.recorded i w) v.engine
        ((machine verify adapter).log (engineCalls adapter) v calls)).map Prod.snd := by
  rw [log_engine,← Machine.log_map,← Machine.log_map]
  congr 1
  funext v a
  obtain ⟨env,c⟩ := a
  cases c with
  | oracle c => rfl
  | engine c => simp [readings,engineCalls,Machine.log]

private theorem values_of_without {log : List Reading} {medians : List Int}
    (h : log.map Reading.without=medians.map some)
    (same : ∀ x∈log, ∀ y, x.without=some y → y=x.value) : medians=log.map Reading.value := by
  induction log generalizing medians with
  | nil => simpa using h.symm
  | cons x log ih =>
    cases medians with
    | nil => simp at h
    | cons y medians =>
      obtain ⟨hx,hrest⟩ := List.cons.inj h
      obtain ⟨hsame,hlog⟩ := List.forall_mem_cons.mp same
      rw [List.map_cons,hsame y hx,ih hrest hlog]

end Readings

section Runs

variable (verify : BytesN 32 → OracleAdapter.ObservationPayload → BytesN 64 → Bool)
  (adapter : Address)

/-- A successful challenge excludes the submission that its slot holds. -/
theorem excluded_of_challenge (oracleAdmin triggerAdmin : Address) (before : List (Env × Action))
    (guardian : Env) (r m : Symbol) (k reason : Nat) :
    let M := machine verify adapter
    let v := M.run (deployWorld oracleAdmin triggerAdmin) before
    let dispute := (guardian,Action.oracle (.challenge r m k reason))
    (M.step v dispute).isOk → OracleAdapter.Excluded (M.next v dispute).oracle r m
      (OracleAdapter.heldBy v.oracle r m k) := by
  intro M v dispute hok
  have hstep := M.step_of_isOk hok
  simp only [M,dispute,machine,execute,except_map_eq_ok,subcall_eq_ok] at hstep
  obtain ⟨o,hchallenge,hnext⟩ := hstep
  have horacle : (M.next v dispute).oracle=o := (congrArg World.oracle hnext).symm
  obtain ⟨hhead,hobs⟩ := OracleAdapter.challenge_frame hchallenge
  obtain ⟨-,hflag⟩ := OracleAdapter.challenge_ok hchallenge
  obtain ⟨held,hheld⟩ := Option.isSome_iff_exists.mp hobs
  have hring := OracleAdapter.ring_refines_queue verify oracleAdmin
    (M.log oracleCalls (deployWorld oracleAdmin triggerAdmin) before) r m
  have hrun : v.oracle=(OracleAdapter.machine verify).run (OracleAdapter.deploy oracleAdmin)
      (M.log oracleCalls (deployWorld oracleAdmin triggerAdmin) before) := by
    simp only [v,M,run_eq]
    rfl
  dsimp only at hring
  rw [← hrun] at hring
  obtain ⟨hin,hslot⟩ := hring.heldBy_inRing hheld
  rw [horacle,OracleAdapter.Excluded,OracleAdapter.readHead,hhead,hflag,hslot,
    if_pos ⟨rfl,rfl,rfl⟩]
  exact ⟨hin.1,fun _ => rfl⟩

/-- The severity that `finalize` writes is the severity of the medians without the challenged
observation, in every run in which the observation moved none of the medians recorded for the
window before it was challenged. -/
theorem disputed_severity (oracleAdmin triggerAdmin : Address) (before after : List (Env × Action))
    (guardian : Env) (r m : Symbol) (k reason i w : Nat) :
    let M := machine verify adapter
    let start := deployWorld oracleAdmin triggerAdmin
    let dispute := (guardian,Action.oracle (.challenge r m k reason))
    let p := OracleAdapter.heldBy (M.run start before).oracle r m k
    let final := M.run start (before++dispute::after)
    (M.step (M.run start before) dispute).isOk →
    M.along (Upheld verify r m p) (M.run start (before++[dispute])) after →
    M.along (Unmoved adapter r m p i w) start before →
    ∀ medians : List Int,
      (M.log (readings adapter r m p i w) start (before++dispute::after)).map Reading.without=
        medians.map some →
      ∀ env t severity u, TriggerEngine.finalize env final.engine i w=
          .ok (.finalized t severity,u) →
        ∃ d, final.engine.indexDef i=some d ∧ TriggerEngine.severityOf d.params
          (TriggerEngine.accumulate d.params medians)=.ok severity := by
  intro M start dispute p final hok hupheld hunmoved medians hmedians env t severity u hfinal
  have hexcluded : OracleAdapter.Excluded (M.run start (before++[dispute])).oracle r m p := by
    rw [Machine.run_concat]
    exact excluded_of_challenge verify adapter oracleAdmin triggerAdmin before guardian r m k
      reason hok
  have hlater : M.along (Unmoved adapter r m p i w) (M.run start (before++[dispute])) after :=
    M.along_of_invariant (fun v => OracleAdapter.Excluded v.oracle r m p)
      (fun _ _ h hu => excluded_next h hu) (fun _ _ h _ => unmoved_of_excluded h) after _
      hexcluded hupheld
  have hall : M.along (Unmoved adapter r m p i w) start (before++dispute::after) := by
    rw [Machine.run_concat] at hlater
    exact (M.along_append _ _ _).mpr ⟨hunmoved,trivial,hlater⟩
  have hsame := M.forall_mem_log (R := fun x => ∀ y, x.without=some y → y=x.value)
    (readings adapter r m p i w) start (before++dispute::after)
    (M.along_of_invariant (fun _ => True) (fun _ _ _ _ => trivial)
      (fun _ _ _ h => reading_of_unmoved h) _ _ trivial hall)
  have hvalues := (values_of_without hmedians hsame).trans
    (readings_value start (before++dispute::after))
  obtain ⟨d,hd,hseverity⟩ := TriggerEngine.finalize_severity hfinal
  have hacc := TriggerEngine.run_accumulated triggerAdmin
    (M.log (engineCalls adapter) start (before++dispute::after)) i w
  have hrun : final.engine=TriggerEngine.machine.run (TriggerEngine.deploy triggerAdmin)
      (M.log (engineCalls adapter) start (before++dispute::after)) := by
    simp only [final,M,run_eq]
    rfl
  rw [← hrun] at hacc
  refine ⟨d,hd,?_⟩
  rw [hvalues,← hseverity,hacc.eq_accumulate hd]
  rfl

end Runs

section Sample

/-- A window of two days with an expected 2000. -/
def rainIndex : TriggerEngine.IndexParams :=
  ⟨.rainfallShortfall,⟨1⟩,⟨1⟩,2,2000,8000,0,0,0,0,0⟩

def recordFromOracle (day : Nat) : Env × Action :=
  (⟨1000000,[⟨0⟩]⟩,.engine (.recordDayFromOracle 0 7 day fun _ _ _ => .error .host))

/-- The first day is recorded from two observations; then a third one, of no rain, arrives. -/
def outlierArrives : List (Env × Action) :=
  (OracleAdapter.threePublishers.map fun a => (a.1,.oracle a.2))++[
    (⟨1000000,[⟨0⟩]⟩,.engine (.createIndex rainIndex)),
    (⟨1000000,[⟨0⟩]⟩,.engine (.setOracle ⟨9⟩)),
    (⟨1000000,[]⟩,.oracle (OracleAdapter.sampleSubmit 999001 1000 1).2),
    (⟨1000000,[]⟩,.oracle (OracleAdapter.sampleSubmit 999001 500 2).2),
    recordFromOracle 1,
    (⟨1000000,[]⟩,.oracle (OracleAdapter.sampleSubmit 999001 0 3).2)]

def secondDay : List (Env × Action) :=
  [recordFromOracle 2,(⟨1000000,[]⟩,.engine (.evaluate 0 7))]

/-- The guardian challenges the third observation. -/
def disputeOutlier : Env × Action := (⟨1000100,[⟨0⟩]⟩,.oracle (.challenge ⟨1⟩ ⟨1⟩ 2 7))

/-- Challenged after the second day was recorded and a day before finalization, the observation
still makes the severity 2187; without it the medians are 750 on both days, a severity of 625. -/
theorem late_dispute_has_no_effect :
    let M := machine OracleAdapter.signedAll ⟨9⟩
    let start := deployWorld ⟨0⟩ ⟨0⟩
    let before := outlierArrives++secondDay
    let p := OracleAdapter.heldBy (M.run start before).oracle ⟨1⟩ ⟨1⟩ 2
    let final := M.run start (before++[disputeOutlier])
    (M.step (M.run start before) disputeOutlier).isOk ∧
    M.log (readings ⟨9⟩ ⟨1⟩ ⟨1⟩ p 0 7) start (before++[disputeOutlier])=
      [⟨750,some 750⟩,⟨500,some 750⟩] ∧
    (TriggerEngine.finalize ⟨1086500,[⟨0⟩]⟩ final.engine 0 7).map Prod.fst=
      .ok (.finalized 1086500 2187) ∧
    TriggerEngine.severityOf rainIndex (TriggerEngine.accumulate rainIndex [750,750])=.ok 625 := by
  decide +kernel

/-- Challenged before the second day is recorded, it does not count. -/
theorem disputed_severity_in_time :
    let final := (machine OracleAdapter.signedAll ⟨9⟩).run (deployWorld ⟨0⟩ ⟨0⟩)
      (outlierArrives++disputeOutlier::secondDay)
    (TriggerEngine.finalize ⟨1086500,[⟨0⟩]⟩ final.engine 0 7).map Prod.fst=
      .ok (.finalized 1086500 625) ∧
    ∃ d, final.engine.indexDef 0=some d ∧ TriggerEngine.severityOf d.params
      (TriggerEngine.accumulate d.params [750,750])=.ok 625 := by
  intro final
  have hstatus : (TriggerEngine.finalize ⟨1086500,[⟨0⟩]⟩ final.engine 0 7).map Prod.fst=
      .ok (.finalized 1086500 625) := by
    decide +kernel
  obtain ⟨⟨status,u⟩,hfinal,hu⟩ := (except_map_eq_ok ..).mp hstatus
  have hsame : status=.finalized 1086500 625 := hu
  subst hsame
  have hsettled := disputed_severity OracleAdapter.signedAll ⟨9⟩ ⟨0⟩ ⟨0⟩ outlierArrives secondDay
    ⟨1000100,[⟨0⟩]⟩ ⟨1⟩ ⟨1⟩ 2 7 0 7 (by decide +kernel) (by decide +kernel) (by decide +kernel)
    [750,750] (by decide +kernel) ⟨1086500,[⟨0⟩]⟩ 1086500 625 u
  refine ⟨hstatus,?_⟩
  simp only [final,disputeOutlier] at hfinal ⊢
  with_reducible exact hsettled hfinal

end Sample

end Mvua.Feed
