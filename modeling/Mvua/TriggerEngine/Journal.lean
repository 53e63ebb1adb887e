import Mvua.Framework.Journal
import Mvua.TriggerEngine.Accumulation

namespace Mvua.TriggerEngine

/-- What a reader of the events keeps. The daily values are not published, only their number. -/
@[ext] structure Register where
  count : Nat
  oracle : Option Address
  days : Nat × Nat → Nat
  cursor : Nat × Nat → Option Nat
  status : Nat × Nat → TriggerStatus

namespace Register

def blank : Register := ⟨0,none,fun _ => 0,fun _ => none,fun _ => .healthy⟩

def post (r : Register) : Event → Register
  | .indexCreated i => { r with count := i+1 }
  | .dayRecorded i w day =>
      { r with
        days := Function.update r.days (i,w) (r.days (i,w)+1)
        cursor := Function.update r.cursor (i,w) (some day) }
  | .triggered i w t => { r with status := Function.update r.status (i,w) (.triggered t) }
  | .finalized i w t severity =>
      { r with status := Function.update r.status (i,w) (.finalized t severity) }
  | .oracleSet oracle => { r with oracle := some oracle }

/-- The guards that an event passed, read off what was published before it. -/
def Fits (defs : Nat → Option IndexDefinition) (r : Register) : Event → Prop
  | .indexCreated i =>
      i=r.count ∧ (∃ params, defs i=some ⟨i,params⟩ ∧ validateParams params=.ok ()) ∧
        ∀ w, r.days (i,w)=0 ∧ r.status (i,w)=.healthy
  | .dayRecorded i w day =>
      (∃ d, defs i=some d ∧ r.days (i,w)<d.params.windowLen) ∧
        (∀ last, r.cursor (i,w)=some last → last<day) ∧ r.status (i,w)=.healthy
  | .triggered i w _ =>
      (∃ d, defs i=some d ∧ r.days (i,w)=d.params.windowLen) ∧ r.status (i,w)=.healthy
  | .finalized i w t severity =>
      severity≤10000 ∧ ∃ t₀, r.status (i,w)=.triggered t₀ ∧ t₀+challengeWindowSecs≤t
  | .oracleSet _ => True

/-- What fits some definitions fits once there are more. -/
theorem Fits.grow {defs defs' : Nat → Option IndexDefinition} {r : Register} {e : Event}
    (h : r.Fits defs e) (hgrow : ∀ i d, defs i=some d → defs' i=some d) : r.Fits defs' e := by
  cases e with
  | indexCreated i =>
    obtain ⟨hi,⟨params,hd,hv⟩,hfresh⟩ := h
    exact ⟨hi,⟨params,hgrow _ _ hd,hv⟩,hfresh⟩
  | dayRecorded i w day =>
    obtain ⟨⟨d,hd,hroom⟩,hrest⟩ := h
    exact ⟨⟨d,hgrow _ _ hd,hroom⟩,hrest⟩
  | triggered i w t =>
    obtain ⟨⟨d,hd,hcomplete⟩,hrest⟩ := h
    exact ⟨⟨d,hgrow _ _ hd,hcomplete⟩,hrest⟩
  | finalized | oracleSet => exact h

end Register

def journal (defs : Nat → Option IndexDefinition) : Journal Register Event where
  post := Register.post
  Fits := Register.Fits defs

def State.register (s : State) : Register where
  count := s.indexCount.getD 0
  oracle := s.oracleRef
  days := fun k => (readAccumulator s k.1 k.2).daysRecorded
  cursor := fun k => readCursor s k.1 k.2
  status := fun k => readState s k.1 k.2

/-- What readers see, and what they are to know from it. -/
def State.published (s : State) : List Event × Register := (s.events,s.register)

section Steps

variable {env : Env} {s s' : State}

theorem ite_window {α : Type} (k : Nat × Nat) (i w : Nat) (a b : α) :
    (if k.1=i ∧ k.2=w then a else b)=if k=(i,w) then a else b := by
  obtain ⟨j,v⟩ := k
  simp only [Prod.mk.injEq]

theorem State.writeState_register (i w : Nat) (st : TriggerStatus) :
    (s.writeState i w st).register=
      { s.register with status := Function.update s.register.status (i,w) st } := by
  ext1
  · rfl
  · rfl
  · rfl
  · rfl
  · funext k
    change readState (s.writeState i w st) k.1 k.2=Function.update s.register.status (i,w) st k
    rw [readState_writeState,Function.update_apply,ite_window]
    rfl

theorem State.fold_register (i w day : Nat) (acc : WindowAccumulator)
    (hmore : acc.daysRecorded=(readAccumulator s i w).daysRecorded+1) :
    ((s.writeAccumulator i w acc).writeCursor i w day).register=
      s.register.post (.dayRecorded i w day) := by
  ext1
  · rfl
  · rfl
  · funext k
    change (readAccumulator (s.writeAccumulator i w acc) k.1 k.2).daysRecorded=
      Function.update s.register.days (i,w) ((readAccumulator s i w).daysRecorded+1) k
    rw [readAccumulator_writeAccumulator,Function.update_apply,← hmore,
      apply_ite WindowAccumulator.daysRecorded,ite_window]
    rfl
  · funext k
    change readCursor ((s.writeAccumulator i w acc).writeCursor i w day) k.1 k.2=
      Function.update s.register.cursor (i,w) (some day) k
    rw [readCursor_writeCursor,Function.update_apply,ite_window]
    rfl
  · rfl

/-- A window with room is healthy: any other was complete when it was triggered. -/
theorem State.Sound.healthy (hs : s.Sound) {i w : Nat} {d : IndexDefinition}
    (hd : s.indexDef i=some d) (hroom : (readAccumulator s i w).daysRecorded<d.params.windowLen) :
    readState s i w=.healthy := by
  by_contra hne
  obtain ⟨d',_,hd',hdays,-⟩ := hs.locked i w hne
  rw [hd,Option.some.injEq] at hd'
  subst hd'
  omega

theorem foldDay_publishes {d : IndexDefinition} {i w day : Nat} {value : Int} (hs : s.Sound)
    (hd : s.indexDef i=some d) (h : foldDay s d i w day value=.ok s') :
    (journal s.indexDef).Publishes s.published s'.published [.dayRecorded i w day] := by
  obtain ⟨-,hlater,hroom,rfl⟩ := foldDay_ok h
  exact .one rfl ⟨⟨d,hd,hroom⟩,hlater,hs.healthy hd hroom⟩ (s.fold_register i w day _ rfl)

theorem createIndex_publishes {params : IndexParams} {i : Nat} (hs : s.Sound)
    (h : createIndex env s params=.ok (i,s')) :
    (journal s'.indexDef).Publishes s.published s'.published [.indexCreated i] := by
  simp only [createIndex,bind_eq_ok,pure_eq_ok,okOr_eq_ok,Unsigned.checkedAdd_eq_some,
    Prod.mk.injEq] at h
  obtain ⟨_,-,_,hv,_,⟨-,rfl⟩,rfl,rfl⟩ := h
  have hfresh := hs.fresh
  refine .one rfl ⟨rfl,⟨params,Function.update_self ..,hv⟩,fun w => ⟨?_,?_⟩⟩ rfl
  · have hnone : s.accumulator (s.indexCount.getD 0,w)=none := by
      cases hacc : s.accumulator (s.indexCount.getD 0,w) with
      | none => rfl
      | some acc =>
        have hdefined := hs.defined _ w acc hacc
        rw [hfresh] at hdefined
        cases hdefined
    change ((s.accumulator (s.indexCount.getD 0,w)).getD ⟨0,0,0,0⟩).daysRecorded=0
    rw [hnone]
    rfl
  · by_contra hne
    obtain ⟨d,_,hd,-⟩ := hs.locked _ w hne
    rw [hfresh] at hd
    cases hd

theorem evaluate_publishes {i w : Nat} {status : TriggerStatus} (hs : s.Sound)
    (h : evaluate env s i w=.ok (status,s')) :
    ∃ entries, (journal s.indexDef).Publishes s.published s'.published entries := by
  cases evaluate_ok h with
  | trigger d severity hd hcomplete hhealthy _ =>
    have hdays := le_antisymm (hs.days i w d hd) hcomplete
    exact ⟨[.triggered i w env.timestamp],.one rfl ⟨⟨d,hd,hdays⟩,hhealthy⟩
      (s.writeState_register i w _)⟩
  | healthy => exact ⟨[],.silent rfl⟩
  | settled => exact ⟨[],.silent rfl⟩

theorem finalize_publishes {i w : Nat} {status : TriggerStatus}
    (h : finalize env s i w=.ok (status,s')) :
    ∃ entries, (journal s.indexDef).Publishes s.published s'.published entries := by
  obtain ⟨d,t,breached,severity,-,hst,hwaited,hv,-,rfl⟩ := finalize_ok h
  exact ⟨[.finalized i w env.timestamp severity],.one rfl
    ⟨evalIndex_severity hv,t,hst,hwaited⟩ (s.writeState_register i w _)⟩

/-- A successful call publishes events that fit and account for what it did, and drops no
definition. -/
theorem invoke_publishes {c : Call} (hs : s.Sound) (h : invoke env s c=.ok s') :
    ∃ entries, (journal s'.indexDef).Publishes s.published s'.published entries := by
  cases c <;> simp only [invoke,except_map_eq_ok,Prod.exists] at h
  case createIndex params =>
    obtain ⟨i,_,hu,rfl⟩ := h
    exact ⟨_,createIndex_publishes hs hu⟩
  case recordDay i w day value =>
    simp only [recordDay,bind_eq_ok,readDef,okOr_eq_ok] at h
    obtain ⟨_,-,d,hd,hf⟩ := h
    have hp := foldDay_publishes hs hd hf
    obtain ⟨-,-,-,rfl⟩ := foldDay_ok hf
    exact ⟨_,hp⟩
  case recordDayFromOracle i w day oracle =>
    obtain ⟨value,_,hu,rfl⟩ := h
    simp only [recordDayFromOracle,bind_eq_ok,readDef,okOr_eq_ok,pure_eq_ok,Prod.mk.injEq] at hu
    obtain ⟨_,-,d,hd,_,-,_,-,_,hf,-,rfl⟩ := hu
    have hp := foldDay_publishes hs hd hf
    obtain ⟨-,-,-,rfl⟩ := foldDay_ok hf
    exact ⟨_,hp⟩
  case setOracle oracle =>
    simp only [setOracle,bind_eq_ok,pure_eq_ok] at h
    obtain ⟨_,-,rfl⟩ := h
    exact ⟨[.oracleSet oracle],.one rfl trivial rfl⟩
  case evaluate i w =>
    obtain ⟨status,_,hu,rfl⟩ := h
    obtain ⟨entries,hp⟩ := evaluate_publishes hs hu
    obtain ⟨f,e,rfl⟩ := evaluate_frame hu
    exact ⟨entries,hp⟩
  case finalize i w =>
    obtain ⟨status,_,hu,rfl⟩ := h
    obtain ⟨entries,hp⟩ := finalize_publishes hu
    obtain ⟨f,e,rfl⟩ := finalize_frame hu
    exact ⟨entries,hp⟩

end Steps

/-- After every run, whoever starts from nothing and reads the published events with the index
definitions knows how many days every window has, its last day and its status; in the order of the
events days come in ascending order into windows with room, a window triggers once, when it is
complete, and it is finalized once, a day later at the earliest. -/
theorem events_account_for_windows (admin : Address) (calls : List (Env × Call)) :
    let s := machine.run (deploy admin) calls
    (journal s.indexDef).Records Register.blank s.events s.register := by
  intro s
  refine machine.run_records (fun s => journal s.indexDef) (fun _ => True) State.Sound
    State.published Register.blank ?_ ?_ ?_ calls (fun _ _ => trivial) _ (deploy_sound admin)
    (.nil Register.blank)
  · intro s a s' hs h
    exact (invoke_effect h).sound hs
  · intro s a s' _ hs h r e
    have hgrow := fun i d hd => ((invoke_effect h).keeps hs i 0).indexDef d hd
    exact ⟨rfl,fun hfits => Register.Fits.grow hfits hgrow⟩
  · intro s a s' _ hs h
    exact invoke_publishes hs h

end Mvua.TriggerEngine
