import Mvua.TriggerEngine.Contract
import Mathlib.Logic.Relation

namespace Mvua.TriggerEngine

/-- What a successful call does to the records of indexes and windows. -/
inductive Effect (env : Env) (s : State) : State → Prop where
  | create (params : IndexParams) (valid : validateParams params=.ok ()) (e : Event) :
      Effect env s ({ s with
        indexCount := some (s.indexCount.getD 0+1)
        indexDef := Function.update s.indexDef (s.indexCount.getD 0)
          (some ⟨s.indexCount.getD 0,params⟩) }.publish e)
  | fold (i w day : Nat) (d : IndexDefinition) (acc : WindowAccumulator) (e : Event)
      (stored : s.indexDef i=some d)
      (room : (readAccumulator s i w).daysRecorded<d.params.windowLen)
      (day_more : acc.daysRecorded=(readAccumulator s i w).daysRecorded+1) :
      Effect env s (((s.writeAccumulator i w acc).writeCursor i w day).publish e)
  | trigger (i w : Nat) (d : IndexDefinition) (severity : Bps) (e : Event)
      (stored : s.indexDef i=some d)
      (complete : d.params.windowLen≤(readAccumulator s i w).daysRecorded)
      (status : readState s i w=.healthy)
      (breached : evalIndex d.params (readAccumulator s i w)=.ok (true,severity)) :
      Effect env s ((s.writeState i w (.triggered env.timestamp)).publish e)
  | finalize (i w : Nat) (d : IndexDefinition) (triggeredAt : Nat) (breached : Bool)
      (severity : Bps) (e : Event) (stored : s.indexDef i=some d)
      (status : readState s i w=.triggered triggeredAt)
      (waited : triggeredAt+challengeWindowSecs≤env.timestamp)
      (verdict : evalIndex d.params (readAccumulator s i w)=.ok (breached,severity)) :
      Effect env s ((s.writeState i w (.finalized env.timestamp severity)).publish e)
  | keep (s' : State) (indexCount : s'.indexCount=s.indexCount) (indexDef : s'.indexDef=s.indexDef)
      (accumulator : s'.accumulator=s.accumulator) (triggerState : s'.triggerState=s.triggerState) :
      Effect env s s'

section Effects

variable {env : Env} {s s' : State}

theorem foldRun_days {params : IndexParams} {acc acc' : WindowAccumulator} {value : Int}
    (h : foldRun params acc value=.ok acc') : acc'.daysRecorded=acc.daysRecorded := by
  unfold foldRun at h
  split_ifs at h
  · simp only [bind_eq_ok,pure_eq_ok] at h
    obtain ⟨_,-,rfl⟩ := h
    rfl
  · rw [pure_eq_ok] at h
    rw [← h]

theorem foldDay_effect {d : IndexDefinition} {i w day : Nat} {value : Int}
    (hd : s.indexDef i=some d) (h : foldDay s d i w day value=.ok s') : Effect env s s' := by
  simp only [foldDay,bind_eq_ok,failIf_eq_ok] at h
  obtain ⟨-,-,h⟩ := h
  have rest : ∃ acc : WindowAccumulator, (readAccumulator s i w).daysRecorded<d.params.windowLen ∧
      acc.daysRecorded=(readAccumulator s i w).daysRecorded+1 ∧
      s'=((s.writeAccumulator i w acc).writeCursor i w day).publish (.dayRecorded i w day) := by
    cases hc : readCursor s i w with
    | none =>
      simp only [hc,bind_eq_ok,pure_eq_ok,failIf_eq_ok,okOr_eq_ok,U32.increment,orTrap_eq_ok,
        Unsigned.checkedAdd_eq_some] at h
      obtain ⟨_,hroom,_,-,acc,hacc,_,⟨-,rfl⟩,rfl⟩ := h
      exact ⟨_,by omega,by rw [foldRun_days hacc],rfl⟩
    | some last =>
      simp only [hc,bind_eq_ok,pure_eq_ok,failIf_eq_ok,okOr_eq_ok,U32.increment,orTrap_eq_ok,
        Unsigned.checkedAdd_eq_some] at h
      obtain ⟨_,-,_,hroom,_,-,acc,hacc,_,⟨-,rfl⟩,rfl⟩ := h
      exact ⟨_,by omega,by rw [foldRun_days hacc],rfl⟩
  obtain ⟨acc,hroom,hmore,rfl⟩ := rest
  exact .fold i w day d acc _ hd hroom hmore

/-- What a successful `evaluate` answers and leaves. -/
inductive Evaluated (env : Env) (s : State) (i w : Nat) : TriggerStatus → State → Prop where
  | trigger (d : IndexDefinition) (severity : Bps) (stored : s.indexDef i=some d)
      (complete : d.params.windowLen≤(readAccumulator s i w).daysRecorded)
      (status : readState s i w=.healthy)
      (breached : evalIndex d.params (readAccumulator s i w)=.ok (true,severity)) :
      Evaluated env s i w (.triggered env.timestamp)
        ((s.writeState i w (.triggered env.timestamp)).publish (.triggered i w env.timestamp))
  | healthy (d : IndexDefinition) (severity : Bps) (stored : s.indexDef i=some d)
      (complete : d.params.windowLen≤(readAccumulator s i w).daysRecorded)
      (status : readState s i w=.healthy)
      (sound : evalIndex d.params (readAccumulator s i w)=.ok (false,severity)) :
      Evaluated env s i w .healthy s
  | settled (d : IndexDefinition) (stored : s.indexDef i=some d)
      (complete : d.params.windowLen≤(readAccumulator s i w).daysRecorded)
      (status : readState s i w≠.healthy) : Evaluated env s i w (readState s i w) s

theorem evaluate_ok {i w : Nat} {status : TriggerStatus}
    (h : evaluate env s i w=.ok (status,s')) : Evaluated env s i w status s' := by
  simp only [evaluate,bind_eq_ok,readDef,okOr_eq_ok,failIf_eq_ok] at h
  obtain ⟨d,hd,-,hcomplete,h⟩ := h
  have hdays : d.params.windowLen≤(readAccumulator s i w).daysRecorded := by omega
  by_cases hs : readState s i w=.healthy
  · simp only [hs,bind_eq_ok,Prod.exists] at h
    obtain ⟨breached,severity,hv,h⟩ := h
    cases breached with
    | true =>
      simp only [if_true,pure_eq_ok,Prod.mk.injEq] at h
      obtain ⟨rfl,rfl⟩ := h
      exact .trigger d severity hd hdays hs hv
    | false =>
      simp only [Bool.false_eq_true,if_false,pure_eq_ok,Prod.mk.injEq] at h
      obtain ⟨rfl,rfl⟩ := h
      exact .healthy d severity hd hdays hs hv
  · have hsame : readState s i w=status ∧ s=s' := by
      split at h
      · rename_i hst
        exact absurd hst hs
      · simpa only [pure_eq_ok,Prod.mk.injEq] using h
    obtain ⟨rfl,rfl⟩ := hsame
    exact .settled d hd hdays hs

/-- A successful `finalize` waited out the challenge window of a triggered window, and writes the
severity of the accumulator as it is. -/
theorem finalize_ok {i w : Nat} {status : TriggerStatus}
    (h : finalize env s i w=.ok (status,s')) :
    ∃ d t breached severity, s.indexDef i=some d ∧ readState s i w=.triggered t ∧
      t+challengeWindowSecs≤env.timestamp ∧
      evalIndex d.params (readAccumulator s i w)=.ok (breached,severity) ∧
      status=.finalized env.timestamp severity ∧
      s'=(s.writeState i w (.finalized env.timestamp severity)).publish
        (.finalized i w env.timestamp severity) := by
  simp only [finalize,bind_eq_ok] at h
  obtain ⟨-,-,h⟩ := h
  cases hs : readState s i w with
  | healthy => simp [hs] at h
  | finalized t severity => simp [hs] at h
  | triggered t =>
    simp only [hs,bind_eq_ok,okOr_eq_ok,Unsigned.checkedAdd_eq_some,failIf_eq_ok,readDef,
      severityOf,pure_eq_ok,Prod.mk.injEq,Prod.exists] at h
    obtain ⟨_,⟨-,rfl⟩,-,hwait,d,hd,_,⟨breached,severity,hv,rfl⟩,rfl,rfl⟩ := h
    exact ⟨d,t,breached,severity,hd,rfl,by omega,hv,rfl,rfl⟩

theorem evaluate_effect {i w : Nat} {status : TriggerStatus}
    (h : evaluate env s i w=.ok (status,s')) : Effect env s s' := by
  cases evaluate_ok h with
  | trigger d severity hd hdays hs hv => exact .trigger i w d severity _ hd hdays hs hv
  | healthy => exact .keep _ rfl rfl rfl rfl
  | settled => exact .keep _ rfl rfl rfl rfl

theorem finalize_effect {i w : Nat} {status : TriggerStatus}
    (h : finalize env s i w=.ok (status,s')) : Effect env s s' := by
  obtain ⟨d,t,breached,severity,hd,hs,hwait,hv,-,rfl⟩ := finalize_ok h
  exact .finalize i w d t breached severity _ hd hs hwait hv

/-- Every successful call has one of the effects. -/
theorem invoke_effect {c : Call} (h : invoke env s c=.ok s') : Effect env s s' := by
  cases c with
  | createIndex params =>
    simp only [invoke,createIndex,except_map_eq_ok,bind_eq_ok,pure_eq_ok,okOr_eq_ok,
      Unsigned.checkedAdd_eq_some] at h
    obtain ⟨_,⟨_,-,_,hv,_,⟨-,rfl⟩,rfl⟩,rfl⟩ := h
    exact .create params hv _
  | recordDay i w day value =>
    simp only [invoke,recordDay,bind_eq_ok,readDef,okOr_eq_ok] at h
    obtain ⟨-,-,d,hd,h⟩ := h
    exact foldDay_effect hd h
  | recordDayFromOracle i w day oracle =>
    simp only [invoke,recordDayFromOracle,except_map_eq_ok,bind_eq_ok,readDef,okOr_eq_ok,
      pure_eq_ok] at h
    obtain ⟨_,⟨_,-,d,hd,_,-,value,-,u,hu,rfl⟩,rfl⟩ := h
    exact foldDay_effect hd hu
  | setOracle oracle =>
    simp only [invoke,setOracle,bind_eq_ok,pure_eq_ok] at h
    obtain ⟨-,-,rfl⟩ := h
    exact .keep _ rfl rfl rfl rfl
  | evaluate i w =>
    simp only [invoke,except_map_eq_ok,Prod.exists] at h
    obtain ⟨status,u,hu,rfl⟩ := h
    exact evaluate_effect hu
  | finalize i w =>
    simp only [invoke,except_map_eq_ok,Prod.exists] at h
    obtain ⟨status,u,hu,rfl⟩ := h
    exact finalize_effect hu

end Effects

/-- The only moves of a window's status. -/
inductive TriggerStatus.Advances : TriggerStatus → TriggerStatus → Prop where
  | trigger (t : Nat) : Advances .healthy (.triggered t)
  | finalize (t t' : Nat) (severity : Bps) (waited : t+challengeWindowSecs≤t') :
      Advances (.triggered t) (.finalized t' severity)

/-- The window is complete and breached, and a severity on record is the computed one. -/
def Locked (s : State) (i w : Nat) : Prop :=
  ∃ d severity, s.indexDef i=some d ∧
    (readAccumulator s i w).daysRecorded=d.params.windowLen ∧
    evalIndex d.params (readAccumulator s i w)=.ok (true,severity) ∧
    ∀ t severity', readState s i w=.finalized t severity' → severity'=severity

/-- The invariant of definitions, accumulators and trigger states. -/
structure State.Sound (s : State) : Prop where
  ids : ∀ i d, s.indexDef i=some d → i<s.indexCount.getD 0
  valid : ∀ i d, s.indexDef i=some d → validateParams d.params=.ok ()
  defined : ∀ i w acc, s.accumulator (i,w)=some acc → (s.indexDef i).isSome
  days : ∀ i w d, s.indexDef i=some d →
    (readAccumulator s i w).daysRecorded≤d.params.windowLen
  locked : ∀ i w, readState s i w≠.healthy → Locked s i w

section Reads

variable (s : State) (i j w v : Nat)

theorem readState_writeState (st : TriggerStatus) :
    readState (s.writeState i w st) j v=if j=i ∧ v=w then st else readState s j v := by
  by_cases h : j=i ∧ v=w
  · obtain ⟨rfl,rfl⟩ := h
    simp [readState,State.writeState]
  · have hne : (j,v)≠(i,w) := by simpa using h
    simp [readState,State.writeState,h]

theorem readAccumulator_writeAccumulator (acc : WindowAccumulator) :
    readAccumulator (s.writeAccumulator i w acc) j v=
      if j=i ∧ v=w then acc else readAccumulator s j v := by
  by_cases h : j=i ∧ v=w
  · obtain ⟨rfl,rfl⟩ := h
    simp [readAccumulator,State.writeAccumulator]
  · have hne : (j,v)≠(i,w) := by simpa using h
    simp [readAccumulator,State.writeAccumulator,h]

@[simp] theorem readState_publish (e : Event) :
    readState (s.publish e) j v=readState s j v := rfl

@[simp] theorem readAccumulator_publish (e : Event) :
    readAccumulator (s.publish e) j v=readAccumulator s j v := rfl

@[simp] theorem readAccumulator_writeCursor (day : Nat) :
    readAccumulator (s.writeCursor i w day) j v=readAccumulator s j v := rfl

end Reads

theorem deploy_sound (admin : Address) : (deploy admin).Sound where
  ids _ _ h := nomatch h
  valid _ _ h := nomatch h
  defined _ _ _ h := nomatch h
  days _ _ _ h := nomatch h
  locked _ _ h := absurd rfl h

/-- What later steps leave of a window: its definition, and its accumulator once complete. -/
structure Keeps (s s' : State) (i w : Nat) : Prop where
  status : readState s' i w=readState s i w ∨
    (readState s i w).Advances (readState s' i w)
  indexDef : ∀ d, s.indexDef i=some d → s'.indexDef i=some d
  accumulator : ∀ d, s.indexDef i=some d →
    (readAccumulator s i w).daysRecorded=d.params.windowLen →
    readAccumulator s' i w=readAccumulator s i w

section Steps

variable {env : Env} {s s' : State}

/-- A locked window stays locked while definition, accumulator and status stay. -/
theorem Locked.congr {i w : Nat} (h : Locked s i w)
    (hdef : ∀ d, s.indexDef i=some d → s'.indexDef i=some d)
    (hacc : readAccumulator s' i w=readAccumulator s i w)
    (hst : readState s' i w=readState s i w) : Locked s' i w := by
  obtain ⟨d,severity,hd,hdays,hv,hfin⟩ := h
  refine ⟨d,severity,hdef d hd,by rw [hacc]; exact hdays,by rw [hacc]; exact hv,?_⟩
  intro t severity' ht
  exact hfin t severity' (hst ▸ ht)

theorem State.Sound.fresh (hs : s.Sound) : s.indexDef (s.indexCount.getD 0)=none := by
  cases h : s.indexDef (s.indexCount.getD 0) with
  | none => rfl
  | some d => exact absurd (hs.ids _ d h) (lt_irrefl _)

/-- A status write that advances its own window leaves every other window's status. -/
theorem advances_of_write {j v : Nat} {st : TriggerStatus} {e : Event}
    (h : (readState s j v).Advances st) (i w : Nat) :
    readState ((s.writeState j v st).publish e) i w=readState s i w ∨
      (readState s i w).Advances (readState ((s.writeState j v st).publish e) i w) := by
  rw [readState_publish,readState_writeState]
  by_cases he : i=j ∧ w=v
  · obtain ⟨rfl,rfl⟩ := he
    rw [if_pos ⟨rfl,rfl⟩]
    exact .inr h
  · rw [if_neg he]
    exact .inl rfl

theorem Effect.keeps (hs : s.Sound) (h : Effect env s s') (i w : Nat) : Keeps s s' i w := by
  cases h with
  | create params hv e =>
    refine ⟨.inl rfl,?_,fun _ _ _ => rfl⟩
    intro d hd
    have hne : i≠s.indexCount.getD 0 := by
      intro hi
      subst hi
      rw [hs.fresh] at hd
      cases hd
    simpa [State.publish,hne] using hd
  | fold j v day d acc e hd hroom hmore =>
    refine ⟨.inl rfl,fun _ h => h,?_⟩
    intro d' hd' hfull
    apply (readAccumulator_writeAccumulator s j i v w acc).trans
    apply if_neg
    intro hsame
    obtain ⟨rfl,rfl⟩ := hsame
    rw [hd,Option.some.injEq] at hd'
    subst d'
    omega
  | trigger j v d severity e hd hcomplete hst hbreach =>
    have hadvances : (readState s j v).Advances (.triggered env.timestamp) := by
      rw [hst]
      exact .trigger _
    exact ⟨advances_of_write hadvances i w,fun _ h => h,fun _ _ _ => rfl⟩
  | finalize j v d t breached severity e hd hst hwait hv =>
    have hadvances : (readState s j v).Advances (.finalized env.timestamp severity) := by
      rw [hst]
      exact .finalize _ _ _ hwait
    exact ⟨advances_of_write hadvances i w,fun _ h => h,fun _ _ _ => rfl⟩
  | keep _ _ hdef hacc hst =>
    refine ⟨.inl ?_,fun d h => by rw [hdef]; exact h,fun _ _ _ => ?_⟩
    · rw [readState,readState,hst]
    · rw [readAccumulator,readAccumulator,hacc]

/-- A window whose status is as before stays locked. -/
theorem State.Sound.stays_locked (hs : s.Sound) {i w : Nat} (hk : Keeps s s' i w)
    (hst : readState s' i w=readState s i w) (hne : readState s' i w≠.healthy) :
    Locked s' i w := by
  have hl := hs.locked i w (hst ▸ hne)
  have ⟨d,_,hd,hdays,_,_⟩ := hl
  exact hl.congr hk.indexDef (hk.accumulator d hd hdays) hst

theorem State.Sound.create (hs : s.Sound) {params : IndexParams}
    (hv : validateParams params=.ok ()) (e : Event) :
    ({ s with
        indexCount := some (s.indexCount.getD 0+1)
        indexDef := Function.update s.indexDef (s.indexCount.getD 0)
          (some ⟨s.indexCount.getD 0,params⟩) }.publish e).Sound := by
  have heffect : Effect ⟨0,[]⟩ s _ := .create params hv e
  have hkeeps := heffect.keeps hs
  have hcases : ∀ i d, Function.update s.indexDef (s.indexCount.getD 0)
      (some ⟨s.indexCount.getD 0,params⟩) i=some d →
      (i=s.indexCount.getD 0 ∧ d.params=params) ∨ s.indexDef i=some d := by
    intro i d hd
    by_cases hi : i=s.indexCount.getD 0
    · subst i
      rw [Function.update_self,Option.some.injEq] at hd
      exact .inl ⟨rfl,by rw [← hd]⟩
    · rw [Function.update_of_ne hi] at hd
      exact .inr hd
  refine ⟨?_,?_,?_,?_,fun i w => hs.stays_locked (hkeeps i w) rfl⟩
  · intro i d hd
    rcases hcases i d hd with ⟨rfl,-⟩ | hd
    · exact Nat.lt_succ_self _
    · exact (hs.ids i d hd).trans (Nat.lt_succ_self _)
  · intro i d hd
    rcases hcases i d hd with ⟨-,rfl⟩ | hd
    · exact hv
    · exact hs.valid i d hd
  · intro i w acc hacc
    obtain ⟨d,hd⟩ := Option.isSome_iff_exists.mp (hs.defined i w acc hacc)
    exact Option.isSome_iff_exists.mpr ⟨d,(hkeeps i w).indexDef d hd⟩
  · intro i w d hd
    rcases hcases i d hd with ⟨rfl,-⟩ | hd
    · have hnone : s.accumulator (s.indexCount.getD 0,w)=none := by
        cases hacc : s.accumulator (s.indexCount.getD 0,w) with
        | none => rfl
        | some acc =>
          have := hs.defined _ _ acc hacc
          rw [hs.fresh] at this
          cases this
      have hzero : readAccumulator s (s.indexCount.getD 0) w=⟨0,0,0,0⟩ := by
        rw [readAccumulator,hnone]
        rfl
      exact (congrArg WindowAccumulator.daysRecorded hzero).le.trans (Nat.zero_le _)
    · exact hs.days i w d hd

theorem State.Sound.fold (hs : s.Sound) {j v day : Nat} {d : IndexDefinition}
    {acc : WindowAccumulator} (e : Event) (hd : s.indexDef j=some d)
    (hroom : (readAccumulator s j v).daysRecorded<d.params.windowLen)
    (hmore : acc.daysRecorded=(readAccumulator s j v).daysRecorded+1) :
    (((s.writeAccumulator j v acc).writeCursor j v day).publish e).Sound := by
  have heffect : Effect ⟨0,[]⟩ s _ := .fold j v day d acc e hd hroom hmore
  have hkeeps := heffect.keeps hs
  have hread := fun i w => readAccumulator_writeAccumulator s j i v w acc
  refine ⟨hs.ids,hs.valid,?_,?_,fun i w => hs.stays_locked (hkeeps i w) rfl⟩
  · intro i w acc' hacc'
    by_cases he : (i,w)=(j,v)
    · cases he
      exact Option.isSome_iff_exists.mpr ⟨d,hd⟩
    · simp only [State.publish,State.writeCursor,State.writeAccumulator,
        Function.update_of_ne he] at hacc'
      exact hs.defined i w acc' hacc'
  · intro i w d' hd'
    rw [readAccumulator_publish,readAccumulator_writeCursor,hread]
    split_ifs with he
    · obtain ⟨rfl,rfl⟩ := he
      have hsame := hd.symm.trans hd'
      rw [Option.some.injEq] at hsame
      subst d'
      omega
    · exact hs.days i w d' hd'

/-- A status may be written to a window that is locked with it. -/
theorem State.Sound.write (hs : s.Sound) {j v : Nat} {st : TriggerStatus} {e : Event}
    (hl : Locked ((s.writeState j v st).publish e) j v) :
    ((s.writeState j v st).publish e).Sound := by
  refine ⟨hs.ids,hs.valid,hs.defined,hs.days,?_⟩
  intro i w hne
  have hread := readState_writeState s j i v w st
  by_cases he : i=j ∧ w=v
  · obtain ⟨rfl,rfl⟩ := he
    exact hl
  · rw [if_neg he] at hread
    rw [readState_publish,hread] at hne
    exact (hs.locked i w hne).congr (fun _ h => h) rfl hread

theorem Effect.sound (hs : s.Sound) (h : Effect env s s') : s'.Sound := by
  have hkeeps := h.keeps hs
  cases h with
  | create params hv e => exact hs.create hv e
  | fold j v day d acc e hd hroom hmore => exact hs.fold e hd hroom hmore
  | trigger j v d severity e hd hcomplete hst hbreach =>
    refine hs.write ⟨d,severity,hd,le_antisymm (hs.days j v d hd) hcomplete,hbreach,?_⟩
    intro t severity' ht
    rw [readState_publish,readState_writeState,if_pos ⟨rfl,rfl⟩] at ht
    cases ht
  | finalize j v d t breached severity e hd hst hwait hv =>
    -- the severity written is the one the trigger was based on
    obtain ⟨d',severity₀,hd',hdays,hv',-⟩ := hs.locked j v (by rw [hst]; simp)
    have hsame := hd.symm.trans hd'
    rw [Option.some.injEq] at hsame
    subst d'
    refine hs.write ⟨d,severity₀,hd,hdays,hv',?_⟩
    intro t' severity' ht
    rw [readState_publish,readState_writeState,if_pos ⟨rfl,rfl⟩,
      TriggerStatus.finalized.injEq] at ht
    have hverdict := hv.symm.trans hv'
    rw [Except.ok.injEq,Prod.mk.injEq] at hverdict
    rw [← ht.2,hverdict.2]
  | keep _ hcount hdef hacc hst =>
    have hread : ∀ i w, readAccumulator s' i w=readAccumulator s i w := by
      intro i w
      rw [readAccumulator,readAccumulator,hacc]
    refine ⟨?_,?_,?_,?_,fun i w => hs.stays_locked (hkeeps i w) (by rw [readState,readState,hst])⟩
    · rw [hdef,hcount]; exact hs.ids
    · rw [hdef]; exact hs.valid
    · rw [hdef,hacc]; exact hs.defined
    · intro i w d hd
      rw [hread]
      exact hs.days i w d (hdef ▸ hd)

end Steps

section Severity

theorem asBps_of_bounds {x : Int} (h0 : 0≤x) (h : x≤10000) : (asBps x : Int)=x := by
  unfold asBps
  omega

/-- A ramp between its two ends stays within the whole. -/
theorem ramp_bounds {part span : Int} (h0 : 0≤part) (h : part<span) :
    0≤(part*bpsDenominator).tdiv span ∧ (part*bpsDenominator).tdiv span≤10000 := by
  have hb := tdiv_bounds (part*bpsDenominator) span (mul_nonneg h0 (by decide)) (by omega)
  refine ⟨hb.1,?_⟩
  have hle : part*bpsDenominator ≤ span*10000 := by
    simp only [bpsDenominator]
    omega
  have hq := hb.2.1.trans hle
  rw [mul_comm span] at hq
  exact le_of_mul_le_mul_right hq (by omega)

theorem evalIndex_severity {params : IndexParams} {acc : WindowAccumulator} {breached : Bool}
    {severity : Nat} (h : evalIndex params acc=.ok (breached,severity)) : severity≤10000 := by
  have ramp : ∀ part span : Int, 0≤part → part<span →
      asBps ((part*bpsDenominator).tdiv span)≤10000 := by
    intro part span h0 hlt
    obtain ⟨hr0,hr⟩ := ramp_bounds h0 hlt
    have hcast := asBps_of_bounds hr0 hr
    omega
  unfold evalIndex at h
  split at h
  · simp only [evalRainfall,bind_eq_ok,okOr_eq_ok] at h
    obtain ⟨_,-,ratio,-,h⟩ := h
    split_ifs at h with h1 h2
    · rw [pure_eq_ok,Prod.mk.injEq] at h
      rw [← h.2]
      exact Nat.zero_le _
    · rw [pure_eq_ok,Prod.mk.injEq] at h
      rw [← h.2]
      exact le_refl 10000
    · simp only [bind_eq_ok,orTrap_eq_ok,okOr_eq_ok,Signed.checkedSub_eq_some,
        Signed.checkedMul_eq_some,Signed.checkedDiv_eq_some,pure_eq_ok,Prod.mk.injEq] at h
      obtain ⟨_,⟨-,rfl⟩,_,⟨-,rfl⟩,_,⟨-,rfl⟩,_,⟨-,-,rfl⟩,-,rfl⟩ := h
      exact ramp _ _ (by omega) (by omega)
  · simp only [evalDryDays] at h
    split_ifs at h with h1 h2
    · rw [pure_eq_ok,Prod.mk.injEq] at h
      rw [← h.2]
      exact Nat.zero_le _
    · rw [pure_eq_ok,Prod.mk.injEq] at h
      rw [← h.2]
      exact le_refl 10000
    · simp only [bind_eq_ok,okOr_eq_ok,Signed.checkedMul_eq_some,Signed.checkedDiv_eq_some,
        pure_eq_ok,Prod.mk.injEq] at h
      obtain ⟨_,⟨-,rfl⟩,_,⟨-,-,rfl⟩,-,rfl⟩ := h
      exact ramp _ _ (by omega) (by omega)

end Severity

section Runs

theorem run_sound {s : State} (hs : s.Sound) (calls : List (Env × Call)) :
    (machine.run s calls).Sound :=
  machine.run_invariant State.Sound (fun _ _ _ hs h => (invoke_effect h).sound hs) calls s hs

/-- Over a run, statuses advance, definitions stay, and complete accumulators stay. -/
structure KeepsAll (s s' : State) (i w : Nat) : Prop where
  status : Relation.ReflTransGen TriggerStatus.Advances (readState s i w) (readState s' i w)
  indexDef : ∀ d, s.indexDef i=some d → s'.indexDef i=some d
  accumulator : ∀ d, s.indexDef i=some d →
    (readAccumulator s i w).daysRecorded=d.params.windowLen →
    readAccumulator s' i w=readAccumulator s i w

theorem KeepsAll.trans {s t u : State} {i w : Nat} (h : KeepsAll s t i w)
    (h' : KeepsAll t u i w) : KeepsAll s u i w := by
  refine ⟨h.status.trans h'.status,fun d hd => h'.indexDef d (h.indexDef d hd),?_⟩
  intro d hd hdays
  have hacc := h.accumulator d hd hdays
  rw [h'.accumulator d (h.indexDef d hd) (by rw [hacc]; exact hdays),hacc]

theorem Keeps.all {s s' : State} {i w : Nat} (h : Keeps s s' i w) : KeepsAll s s' i w := by
  refine ⟨?_,h.indexDef,h.accumulator⟩
  rcases h.status with hst | hst
  · rw [hst]
  · exact .single hst

theorem run_keepsAll {s : State} (hs : s.Sound) (calls : List (Env × Call)) (i w : Nat) :
    KeepsAll s (machine.run s calls) i w :=
  machine.run_relation State.Sound (fun s s' => KeepsAll s s' i w)
    (fun _ => ⟨.refl,fun _ h => h,fun _ _ _ => rfl⟩) (fun _ _ _ => KeepsAll.trans)
    (fun _ _ _ hs h => (invoke_effect h).sound hs)
    (fun _ _ _ hs h => ((invoke_effect h).keeps hs i w).all) calls s hs

theorem finalized_stays {t : Nat} {severity : Bps} {st : TriggerStatus}
    (h : Relation.ReflTransGen TriggerStatus.Advances (.finalized t severity) st) :
    st=.finalized t severity := by
  rcases h.cases_head with h | ⟨_,hstep,-⟩
  · exact h.symm
  · cases hstep

/-- On a complete window, `evaluate` answers by the index formula alone. -/
theorem State.Sound.evaluate_iff {s u : State} (hs : s.Sound) {env : Env} {i w : Nat}
    {d : IndexDefinition} {status : TriggerStatus} {breached : Bool} {severity : Bps}
    (hd : s.indexDef i=some d)
    (hv : evalIndex d.params (readAccumulator s i w)=.ok (breached,severity))
    (h : evaluate env s i w=.ok (status,u)) : status≠.healthy ↔ breached=true := by
  have verdict {d' : IndexDefinition} {breached' : Bool} {severity' : Bps}
      (hd' : s.indexDef i=some d')
      (hv' : evalIndex d'.params (readAccumulator s i w)=.ok (breached',severity')) :
      breached=breached' := by
    rw [hd,Option.some.injEq] at hd'
    subst d'
    rw [hv,Except.ok.injEq,Prod.mk.injEq] at hv'
    exact hv'.1
  cases evaluate_ok h with
  | trigger d' severity' hd' _ _ hv' => simp [verdict hd' hv']
  | healthy d' severity' hd' _ _ hv' => simp [verdict hd' hv']
  | settled _ _ _ hst =>
    obtain ⟨d',_,hd',-,hv',-⟩ := hs.locked i w hst
    exact iff_of_true hst (verdict hd' hv')

/-- The lifecycle of a window over any run, and from any state of a run to any later one. -/
structure Lifecycle (s s' : State) (i w : Nat) : Prop where
  moves : Relation.ReflTransGen TriggerStatus.Advances (readState s i w) (readState s' i w)
  final : ∀ t severity, readState s i w=.finalized t severity →
    readState s' i w=.finalized t severity
  definitions : ∀ d, s.indexDef i=some d → s'.indexDef i=some d
  locked : readState s i w≠.healthy →
    Locked s i w ∧ readAccumulator s' i w=readAccumulator s i w
  verdict : ∀ d breached severity, s.indexDef i=some d →
    (readAccumulator s i w).daysRecorded=d.params.windowLen →
    evalIndex d.params (readAccumulator s i w)=.ok (breached,severity) →
    evalIndex d.params (readAccumulator s' i w)=.ok (breached,severity) ∧
    ∀ env status u, evaluate env s' i w=.ok (status,u) → (status≠.healthy ↔ breached=true)

theorem trigger_lifecycle (admin : Address) (calls later : List (Env × Call)) (i w : Nat) :
    let s := machine.run (deploy admin) calls
    Lifecycle s (machine.run s later) i w := by
  intro s
  have hs : s.Sound := run_sound (deploy_sound admin) calls
  have hs' := run_sound hs later
  have hk := run_keepsAll hs later i w
  refine ⟨hk.status,?_,hk.indexDef,?_,?_⟩
  · intro t severity ht
    have hstatus := hk.status
    rw [ht] at hstatus
    exact finalized_stays hstatus
  · intro hne
    have hl := hs.locked i w hne
    have ⟨d,_,hd,hdays,_,_⟩ := hl
    exact ⟨hl,hk.accumulator d hd hdays⟩
  · intro d breached severity hd hdays hv
    have hv' : evalIndex d.params (readAccumulator (machine.run s later) i w)=
        .ok (breached,severity) := by
      rw [hk.accumulator d hd hdays]
      exact hv
    exact ⟨hv',fun env status u h => hs'.evaluate_iff (hk.indexDef d hd) hv' h⟩

end Runs

section Sample

/-- Two dry days are a full payout. -/
def dryIndex : IndexParams := ⟨.consecutiveDryDays,⟨1⟩,⟨1⟩,2,0,0,0,1,2,0,0⟩

/-- A window that records two dry days, triggers and is finalized a day later. -/
def drySpell : List (Env × Call) := [
  (⟨100,[⟨0⟩]⟩,.createIndex dryIndex),
  (⟨100,[⟨0⟩]⟩,.recordDay 0 7 1 0),
  (⟨100,[⟨0⟩]⟩,.recordDay 0 7 2 0),
  (⟨100,[]⟩,.evaluate 0 7),
  (⟨86500,[⟨0⟩]⟩,.finalize 0 7)]

/-- Whatever is tried afterwards, the window stays finalized. -/
theorem trigger_lifecycle_dry :
    let s := machine.run (deploy ⟨0⟩) drySpell
    readState s 0 7=.finalized 86500 10000 ∧
    readState (machine.run s [(⟨90000,[⟨0⟩]⟩,.recordDay 0 7 3 50),(⟨90000,[]⟩,.evaluate 0 7),
      (⟨200000,[⟨0⟩]⟩,.finalize 0 7)]) 0 7=.finalized 86500 10000 := by
  intro s
  have hs : readState s 0 7=.finalized 86500 10000 := by decide +kernel
  exact ⟨hs,(trigger_lifecycle ⟨0⟩ drySpell _ 0 7).final _ _ hs⟩

end Sample

end Mvua.TriggerEngine
