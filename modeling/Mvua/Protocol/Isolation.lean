import Mvua.OracleAdapter.Isolation
import Mvua.Protocol.Evidence
import Mvua.TriggerEngine.Isolation

namespace Mvua.Protocol

/-- The calls that settle window `n` of index `i`, and those that its oracle reads depend on. -/
def concerns (i n : Nat) (d : TriggerEngine.IndexDefinition) : Env × Transaction → Bool
  | (_,.call (.oracle c)) => c.concerns d.params.region d.params.metric
  | (_,.call (.triggerEngine c)) => c.concerns i n
  | _ => false

/-- What these calls read and write. -/
def World.exposure {L : Type} (i n : Nat) (d : TriggerEngine.IndexDefinition) (w : World L) :
    OracleAdapter.PairView × TriggerEngine.WindowView :=
  (w.oracle.pair d.params.region d.params.metric,w.triggerEngine.window i n)

/-- The index is on record. -/
structure Indexed {L : Type} (i : Nat) (d : TriggerEngine.IndexDefinition) (w : World L) :
    Prop where
  sound : w.triggerEngine.Sound
  stored : w.triggerEngine.indexDef i=some d

section Steps

variable {L : Type} {T : TokenHost L}
  {verify : BytesN 32 → OracleAdapter.ObservationPayload → BytesN 64 → Bool} {net : Network}
  {i n : Nat} {d : TriggerEngine.IndexDefinition} {w w' : World L} {a : Env × Transaction}

theorem Indexed.next (h : Indexed i d w) (a : Env × Transaction) :
    Indexed i d ((machine T verify net).next w a) where
  sound := next_engine_sound h.sound a
  stored := by
    rw [next_engine]
    exact (TriggerEngine.run_keepsAll h.sound _ i 0).indexDef d h.stored

/-- The calls of the engine as it sees them concern the windows that they name. -/
theorem linked_concerns (env : Env) (o : OracleAdapter.State) (c : TriggerEngine.Call) :
    (Feed.linked net.oracle env o c).concerns i n=c.concerns i n := by
  cases c <;> rfl

theorem Step.exposure (h : Step T verify net w a w') (hi : Indexed i d w)
    (hc : concerns i n d a=false) : w'.exposure i n d=w.exposure i n d := by
  cases h with
  | oracle env c s' hs =>
    exact congrArg (fun v => (v,w.triggerEngine.window i n)) (OracleAdapter.invoke_pair hc hs)
  | triggerEngine env c s' hs =>
    have hc' : (Feed.linked net.oracle (net.outside env) w.oracle c).concerns i n=false := by
      rw [linked_concerns]
      exact hc
    have hd : (w.triggerEngine.indexDef i).isSome := by rw [hi.stored]; rfl
    exact congrArg (fun v => (w.oracle.pair d.params.region d.params.metric,v))
      (TriggerEngine.invoke_window hi.sound hd hc' hs)
  | vault env c v hs =>
    have hengine : (w.withSettlement v).triggerEngine=w.triggerEngine := vault_engine hs
    exact congrArg (fun s => (w.oracle.pair d.params.region d.params.metric,
      TriggerEngine.State.window s i n)) hengine
  | riskPool | policy | transfer => rfl

/-- What the engine asks the oracle adapter for is the same wherever the pair is. -/
theorem linked_alike {env : Env} {o o' : OracleAdapter.State} {region metric : Symbol}
    (h : OracleAdapter.SamePair region metric o o') (c : TriggerEngine.Call) :
    (Feed.linked net.oracle env o c).Alike region metric (Feed.linked net.oracle env o' c) := by
  cases c with
  | recordDayFromOracle j v day elsewhere =>
    refine .oracle j v day fun address => ?_
    simp only [Feed.answer,h.median env]
  | createIndex | recordDay | setOracle | evaluate | finalize => exact .same _

theorem next_exposure {v : World L} (hi : Indexed i d w) (hv : w.exposure i n d=v.exposure i n d)
    (hc : concerns i n d a) : ((machine T verify net).next w a).exposure i n d=
      ((machine T verify net).next v a).exposure i n d := by
  obtain ⟨hpair,hwindow⟩ := Prod.mk.inj hv
  obtain ⟨env,a⟩ := a
  let R (x y : World L) : Prop := x.exposure i n d=y.exposure i n d
  refine Machine.next_agrees (g := id) (R := R) hv ?_
  match a with
  | .transfer .. => cases hc
  | .call (.riskPool _) => cases hc
  | .call (.policy _) => cases hc
  | .call (.vault _) => cases hc
  | .call (.oracle c) =>
    have h : Agrees id (OracleAdapter.SamePair d.params.region d.params.metric)
        (OracleAdapter.invoke verify (net.outside env) w.oracle c)
        (OracleAdapter.invoke verify (net.outside env) v.oracle c) :=
      OracleAdapter.invoke_agrees hpair hc
    exact (h.subcalls _).map fun _ _ ho => Prod.ext ho hwindow
  | .call (.triggerEngine c) =>
    have hc' : (Feed.linked net.oracle (net.outside env) w.oracle c).concerns i n := by
      rw [linked_concerns]
      exact hc
    have h : Agrees id (TriggerEngine.SameWindow i n)
        (TriggerEngine.invoke (net.outside env) w.triggerEngine
          (Feed.linked net.oracle (net.outside env) w.oracle c))
        (TriggerEngine.invoke (net.outside env) v.triggerEngine
          (Feed.linked net.oracle (net.outside env) v.oracle c)) :=
      TriggerEngine.invoke_agrees hwindow hi.stored hc' (linked_alike hpair c)
    exact (h.subcalls _).map fun _ _ hs => Prod.ext hpair hs

theorem isolates : (machine T verify net).Isolates (Indexed i d) (World.exposure (L := L) i n d)
    (concerns i n d) where
  keep w a h := h.next a
  other w a h hc := by
    rcases (machine T verify net).next_cases w a with hn | hn
    · rw [hn]
    · exact (execute_step T verify net hn).exposure h hc
  own w v a hw _ hv hc := next_exposure hw hv hc

end Steps

section Runs

variable {L : Type} (T : TokenHost L)
  (verify : BytesN 32 → OracleAdapter.ObservationPayload → BytesN 64 → Bool) (net : Network)
  (g : Genesis) (l : L) (transactions : List (Env × Transaction))

/-- Windows do not disturb each other. Once an index is on record, what one of its windows has
recorded, where it stands and what it pays, and the median of its pair, depend only on the calls
that concern the window and the pair: in two runs with these calls in the same order they are the
same, whatever else happens in pools, policies, claims, tokens and on every other window and pair. -/
theorem windows_isolated (i n : Nat) (d : TriggerEngine.IndexDefinition)
    (as bs : List (Env × Transaction)) :
    let M := machine T verify net
    let w := M.run (deploy net g l) transactions
    let u := M.run w as
    let v := M.run w bs
    w.triggerEngine.indexDef i=some d →
    as.filter (concerns i n d)=bs.filter (concerns i n d) →
    TriggerEngine.readState u.triggerEngine i n=TriggerEngine.readState v.triggerEngine i n ∧
    TriggerEngine.readAccumulator u.triggerEngine i n=
      TriggerEngine.readAccumulator v.triggerEngine i n ∧
    (∀ coverage, TriggerEngine.payoutFor u.triggerEngine i n coverage=
      TriggerEngine.payoutFor v.triggerEngine i n coverage) ∧
    ∀ now, OracleAdapter.median now u.oracle d.params.region d.params.metric=
      OracleAdapter.median now v.oracle d.params.region d.params.metric := by
  intro M w u v hd hcalls
  have hsound : w.triggerEngine.Sound :=
    M.run_invariant (fun w => w.triggerEngine.Sound)
      (fun w a t hs ht => by rw [← M.next_of_ok ht]; exact next_engine_sound hs a) transactions _
      (TriggerEngine.deploy_sound g.triggerAdmin)
  have hexposed : u.exposure i n d=v.exposure i n d :=
    isolates.run_congr ⟨hsound,hd⟩ hcalls
  obtain ⟨hpair,hwindow⟩ := Prod.mk.inj hexposed
  exact ⟨TriggerEngine.readState_congr hwindow,TriggerEngine.readAccumulator_congr hwindow,
    TriggerEngine.payoutFor_congr hwindow,OracleAdapter.SamePair.median hpair⟩

end Runs

section Sample

/-- The dry window among calls on another pair and another window, and a deposit. -/
def busyWindow : List (Env × Transaction) := [
  (⟨1000000,[]⟩,.call (.oracle (OracleAdapter.sampleSubmit 999001 0 1).2)),
  (⟨1000000,[]⟩,.call (.oracle (.submit ⟨2⟩ ⟨2⟩ 999001 900 ⟨1⟩ 0))),
  (⟨1000000,[]⟩,.call (.oracle (OracleAdapter.sampleSubmit 999001 5 2).2)),
  (RiskPool.plainEnv,.call (.riskPool (.deposit 1 .senior ⟨3⟩ 200))),
  (⟨1000000,[]⟩,.call (.oracle (OracleAdapter.sampleSubmit 999001 0 3).2)),
  (adminAt 1000000,.call (.triggerEngine (.recordDay 0 8 1 700))),
  recordDay 1,recordDay 2,
  (⟨1000000,[]⟩,.call (.triggerEngine (.evaluate 0 8))),
  (⟨1000000,[]⟩,.call (.triggerEngine (.evaluate 0 7))),
  (adminAt 1086400,.call (.triggerEngine (.finalize 0 7)))]

theorem windows_isolated_busy :
    let M := machine TokenHost.ledger OracleAdapter.signedAll plainNet
    let w := M.run (deploy plainNet plainGenesis RiskPool.plainFunds) setUp
    let d : TriggerEngine.IndexDefinition := ⟨0,TriggerEngine.dryIndex⟩
    let alone := busyWindow.filter (concerns 0 7 d)
    alone.length=7 ∧
    TriggerEngine.payoutFor (M.run w alone).triggerEngine 0 7 60=.ok 60 ∧
    TriggerEngine.payoutFor (M.run w busyWindow).triggerEngine 0 7 60=
      TriggerEngine.payoutFor (M.run w alone).triggerEngine 0 7 60 := by
  intro M w d alone
  have hd : w.triggerEngine.indexDef 0=some d := by
    decide +kernel
  have hfilter : busyWindow.filter (concerns 0 7 d)=alone.filter (concerns 0 7 d) := by
    rw [List.filter_filter]
    simp only [Bool.and_self]
  have h := windows_isolated TokenHost.ledger OracleAdapter.signedAll plainNet plainGenesis
    RiskPool.plainFunds setUp 0 7 d busyWindow alone (by with_reducible exact hd) hfilter
  refine ⟨by decide +kernel,by decide +kernel,?_⟩
  obtain ⟨-,-,hpays,-⟩ := h
  with_reducible exact hpays 60

end Sample

end Mvua.Protocol
