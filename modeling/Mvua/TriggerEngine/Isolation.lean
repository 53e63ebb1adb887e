import Mvua.TriggerEngine.Accumulation
import Mvua.Framework.Isolation

namespace Mvua.TriggerEngine

/-- What the calls on one window read and write. -/
structure WindowView where
  admin : Option Address
  oracleRef : Option Address
  indexDef : Option IndexDefinition
  accumulator : Option WindowAccumulator
  triggerState : Option TriggerStatus
  evalCursor : Option Nat

def State.window (s : State) (i w : Nat) : WindowView where
  admin := s.admin
  oracleRef := s.oracleRef
  indexDef := s.indexDef i
  accumulator := s.accumulator (i,w)
  triggerState := s.triggerState (i,w)
  evalCursor := s.evalCursor (i,w)

/-- The calls that a window is settled by. -/
def Call.concerns (i w : Nat) : Call → Bool
  | .createIndex _ => false
  | .setOracle _ => true
  | .recordDay j v _ _ | .recordDayFromOracle j v _ _ | .evaluate j v | .finalize j v =>
      decide (j=i ∧ v=w)

/-- The same call; an oracle may answer differently for other pairs. -/
inductive Call.Alike (region metric : Symbol) : Call → Call → Prop where
  | same (c : Call) : Alike region metric c c
  | oracle (i w day : Nat) {f g : Address → Symbol → Symbol → Except Trap Int}
      (answers : ∀ address, f address region metric=g address region metric) :
      Alike region metric (.recordDayFromOracle i w day f) (.recordDayFromOracle i w day g)

section Other

variable {env : Env} {s s' : State} {i w j v : Nat}

theorem key_ne (hne : ¬(j=i ∧ v=w)) : (i,w)≠(j,v) := by
  simp only [ne_eq,Prod.mk.injEq]
  exact fun he => hne ⟨he.1.symm,he.2.symm⟩

theorem foldDay_window {d : IndexDefinition} {day : Nat} {value : Int}
    (h : foldDay s d j v day value=.ok s') (hne : ¬(j=i ∧ v=w)) :
    s'.window i w=s.window i w := by
  obtain ⟨-,-,-,rfl⟩ := foldDay_ok h
  simp [State.window,State.publish,State.writeCursor,State.writeAccumulator,key_ne hne]

theorem writeState_window (st : TriggerStatus) (e : Event) (hne : ¬(j=i ∧ v=w)) :
    ((s.writeState j v st).publish e).window i w=s.window i w := by
  simp [State.window,State.publish,State.writeState,key_ne hne]

/-- A call that does not concern a window of an index on record leaves it. -/
theorem invoke_window {c : Call} (hs : s.Sound) (hd : (s.indexDef i).isSome)
    (hc : c.concerns i w=false) (h : invoke env s c=.ok s') : s'.window i w=s.window i w := by
  cases c with
  | createIndex params =>
    simp only [invoke,createIndex,except_map_eq_ok,bind_eq_ok,pure_eq_ok,okOr_eq_ok,
      Unsigned.checkedAdd_eq_some] at h
    obtain ⟨_,⟨_,-,_,-,_,⟨-,rfl⟩,rfl⟩,rfl⟩ := h
    obtain ⟨d,hd⟩ := Option.isSome_iff_exists.mp hd
    have hne : i≠s.indexCount.getD 0 := (hs.ids i d hd).ne
    simp [State.window,State.publish,hne]
  | recordDay j v day value =>
    simp only [Call.concerns,decide_eq_false_iff_not] at hc
    simp only [invoke,recordDay,bind_eq_ok] at h
    obtain ⟨-,-,d,-,h⟩ := h
    exact foldDay_window h hc
  | recordDayFromOracle j v day oracle =>
    simp only [Call.concerns,decide_eq_false_iff_not] at hc
    simp only [invoke,recordDayFromOracle,except_map_eq_ok,bind_eq_ok,pure_eq_ok] at h
    obtain ⟨_,⟨_,-,d,-,_,-,_,-,u,hu,rfl⟩,rfl⟩ := h
    exact foldDay_window hu hc
  | setOracle oracle => cases hc
  | evaluate j v =>
    simp only [Call.concerns,decide_eq_false_iff_not] at hc
    simp only [invoke,except_map_eq_ok,Prod.exists] at h
    obtain ⟨status,u,hu,rfl⟩ := h
    cases evaluate_ok hu with
    | trigger => exact writeState_window _ _ hc
    | healthy | settled => rfl
  | finalize j v =>
    simp only [Call.concerns,decide_eq_false_iff_not] at hc
    simp only [invoke,except_map_eq_ok,Prod.exists] at h
    obtain ⟨status,u,hu,rfl⟩ := h
    obtain ⟨_,_,_,_,-,-,-,-,-,rfl⟩ := finalize_ok hu
    exact writeState_window _ _ hc

end Other

section Own

variable {env : Env} {s t : State} {i w : Nat}

theorem readState_congr (h : s.window i w=t.window i w) : readState s i w=readState t i w := by
  have hst : s.triggerState (i,w)=t.triggerState (i,w) := congrArg WindowView.triggerState h
  rw [readState,readState,hst]

theorem readAccumulator_congr (h : s.window i w=t.window i w) :
    readAccumulator s i w=readAccumulator t i w := by
  have hacc : s.accumulator (i,w)=t.accumulator (i,w) := congrArg WindowView.accumulator h
  rw [readAccumulator,readAccumulator,hacc]

theorem requireAdmin_congr (h : s.window i w=t.window i w) :
    requireAdmin env s=requireAdmin env t := by
  have hadmin : s.admin=t.admin := congrArg WindowView.admin h
  rw [requireAdmin,requireAdmin,hadmin]

theorem readDef_congr (h : s.window i w=t.window i w) : readDef s i=readDef t i := by
  have hdef : s.indexDef i=t.indexDef i := congrArg WindowView.indexDef h
  rw [readDef,readDef,hdef]

/-- What a window pays is read off the window. -/
theorem payoutFor_congr (h : s.window i w=t.window i w) (coverage : Int) :
    payoutFor s i w coverage=payoutFor t i w coverage := by
  rw [payoutFor,payoutFor,readState_congr h]

theorem writeState_congr (h : s.window i w=t.window i w) (st : TriggerStatus) (e : Event) :
    ((s.writeState i w st).publish e).window i w=((t.writeState i w st).publish e).window i w := by
  simp only [State.window,WindowView.mk.injEq] at h
  simp [State.window,State.publish,State.writeState,h]

/-- Calls that agree leave a window alike. -/
def SameWindow (i w : Nat) (s t : State) : Prop := s.window i w=t.window i w

theorem foldDay_agrees (h : SameWindow i w s t) (d : IndexDefinition) (day : Nat) (value : Int) :
    Agrees id (SameWindow i w) (foldDay s d i w day value) (foldDay t d i w day value) := by
  have hcursor : readCursor s i w=readCursor t i w := congrArg WindowView.evalCursor h
  have rest (acc : WindowAccumulator) (e : Event) : SameWindow i w
      (((s.writeAccumulator i w acc).writeCursor i w day).publish e)
      (((t.writeAccumulator i w acc).writeCursor i w day).publish e) := by
    simp only [SameWindow,State.window,WindowView.mk.injEq] at h ⊢
    simp [State.publish,State.writeCursor,State.writeAccumulator,h]
  unfold foldDay
  rw [hcursor,readAccumulator_congr h]
  refine (Agrees.same _).bind fun _ _ _ => ?_
  cases readCursor t i w
  case' some last => refine (Agrees.same _).bind fun _ _ _ => ?_
  all_goals
    refine (Agrees.same _).bind fun _ _ _ => (Agrees.same _).bind fun rain rain' hrain => ?_
    subst hrain
    refine (Agrees.same _).bind fun acc acc' hacc => ?_
    subst hacc
    refine (Agrees.same _).bind fun n n' hn => ?_
    subst hn
    exact .ok (rest _ _)

theorem recordDayFromOracle_agrees {d : IndexDefinition} {day : Nat}
    {f g : Address → Symbol → Symbol → Except Trap Int} (h : SameWindow i w s t)
    (hd : s.indexDef i=some d)
    (hanswers : ∀ address, f address d.params.region d.params.metric=
      g address d.params.region d.params.metric) :
    Agrees id (fun x y => SameWindow i w x.2 y.2) (recordDayFromOracle f env s i w day)
      (recordDayFromOracle g env t i w day) := by
  have horacle : s.oracleRef=t.oracleRef := congrArg WindowView.oracleRef h
  have hread : readDef s i=.ok d := by simp [readDef,hd,okOr]
  have hread' : readDef t i=.ok d := by rw [← readDef_congr h,hread]
  unfold recordDayFromOracle
  rw [requireAdmin_congr h,hread,hread',horacle]
  simp only [ok_bind]
  refine (Agrees.same _).bind fun _ _ _ => (Agrees.same _).bind fun address address' he => ?_
  subst he
  rw [hanswers]
  refine (Agrees.same _).bind fun value value' he => ?_
  subst he
  exact (foldDay_agrees h d day value).bind fun _ _ h => .ok h

theorem evaluate_agrees (h : SameWindow i w s t) :
    Agrees id (fun x y => SameWindow i w x.2 y.2) (evaluate env s i w) (evaluate env t i w) := by
  unfold evaluate
  rw [readDef_congr h,readAccumulator_congr h,readState_congr h]
  refine (Agrees.same _).bind fun d d' he => ?_
  subst he
  refine (Agrees.same _).bind fun _ _ _ => ?_
  cases readState t i w with
  | healthy =>
    refine (Agrees.same _).bind fun verdict verdict' he => ?_
    subst he
    obtain ⟨breached,severity⟩ := verdict
    cases breached with
    | true => exact .ok (writeState_congr h _ _)
    | false => exact .ok h
  | triggered | finalized => exact .ok h

theorem finalize_agrees (h : SameWindow i w s t) :
    Agrees id (fun x y => SameWindow i w x.2 y.2) (finalize env s i w) (finalize env t i w) := by
  unfold finalize
  rw [requireAdmin_congr h,readDef_congr h,readAccumulator_congr h,readState_congr h]
  refine (Agrees.same _).bind fun _ _ _ => ?_
  cases readState t i w with
  | healthy | finalized => exact .error _
  | triggered triggeredAt =>
    refine (Agrees.same _).bind fun ready ready' he => ?_
    subst he
    refine (Agrees.same _).bind fun _ _ _ => (Agrees.same _).bind fun d d' he => ?_
    subst he
    refine (Agrees.same _).bind fun severity severity' he => ?_
    subst he
    exact .ok (writeState_congr h _ _)

/-- A call that concerns a window does to it what the window alone determines. -/
theorem invoke_agrees {d : IndexDefinition} {c c' : Call} (h : SameWindow i w s t)
    (hd : s.indexDef i=some d) (hc : c.concerns i w)
    (halike : c.Alike d.params.region d.params.metric c') :
    Agrees id (SameWindow i w) (invoke env s c) (invoke env t c') := by
  cases halike with
  | oracle j v day hanswers =>
    obtain ⟨rfl,rfl⟩ := of_decide_eq_true hc
    exact (recordDayFromOracle_agrees h hd hanswers).returned
  | same =>
    cases c with
    | createIndex params => cases hc
    | recordDay j v day value =>
      obtain ⟨rfl,rfl⟩ := of_decide_eq_true hc
      simp only [invoke,recordDay]
      rw [requireAdmin_congr h,readDef_congr h]
      refine (Agrees.same _).bind fun _ _ _ => (Agrees.same _).bind fun d d' he => ?_
      subst he
      exact foldDay_agrees h d day value
    | recordDayFromOracle j v day oracle =>
      obtain ⟨rfl,rfl⟩ := of_decide_eq_true hc
      exact (recordDayFromOracle_agrees h hd fun _ => rfl).returned
    | setOracle oracle =>
      simp only [invoke,setOracle]
      rw [requireAdmin_congr h]
      refine (Agrees.same _).bind fun _ _ _ => .ok ?_
      simp only [SameWindow,State.window,WindowView.mk.injEq] at h ⊢
      simp [State.publish,h]
    | evaluate j v =>
      obtain ⟨rfl,rfl⟩ := of_decide_eq_true hc
      exact (evaluate_agrees h).returned
    | finalize j v =>
      obtain ⟨rfl,rfl⟩ := of_decide_eq_true hc
      exact (finalize_agrees h).returned

end Own

end Mvua.TriggerEngine
