import Mvua.Common
import Mvua.Framework.Machine
import Mathlib.Logic.Function.Basic

namespace Mvua.TriggerEngine

def challengeWindowSecs : Nat := 24*60*60

inductive IndexKind where
  | rainfallShortfall
  | consecutiveDryDays
  deriving DecidableEq, Repr

/-- The lifecycle of one window: `finalized` carries its time and severity. -/
inductive TriggerStatus where
  | healthy
  | triggered (time : Nat)
  | finalized (time : Nat) (severity : Bps)
  deriving DecidableEq, Repr

structure IndexParams where
  kind : IndexKind
  region : Symbol
  metric : Symbol
  windowLen : Nat
  baseline : Int
  triggerRatioBps : Bps
  exhaustionRatioBps : Bps
  triggerDays : Nat
  exhaustionDays : Nat
  dryFloor : Int
  dataSourceRef : BytesN 32
  deriving DecidableEq, Repr

structure IndexDefinition where
  indexId : Nat
  params : IndexParams
  deriving DecidableEq, Repr

/-- What a window keeps of its daily series. -/
structure WindowAccumulator where
  daysRecorded : Nat
  rainSum : Int
  currentRun : Nat
  maxRun : Nat
  deriving DecidableEq, Repr

inductive Error where
  | indexNotFound
  | staleIndex
  | alreadyFinalized
  | notTriggered
  | nonDeterministicInput
  | invalidIndexDef
  | oracleNotConfigured
  | unauthorized
  | timelockPending
  | notInitialized
  | overflow
  deriving DecidableEq, Repr

def Error.code : Error → Nat
  | .indexNotFound => 400
  | .staleIndex => 401
  | .alreadyFinalized => 402
  | .notTriggered => 403
  | .nonDeterministicInput => 404
  | .invalidIndexDef => 405
  | .oracleNotConfigured => 406
  | .unauthorized => 900
  | .timelockPending => 901
  | .notInitialized => 902
  | .overflow => 903

inductive Event where
  | indexCreated (indexId : Nat)
  | dayRecorded (indexId windowId day : Nat)
  | triggered (indexId windowId time : Nat)
  | finalized (indexId windowId time : Nat) (severity : Bps)
  | oracleSet (oracle : Address)
  deriving DecidableEq, Repr

structure State where
  admin : Option Address
  indexCount : Option Nat
  oracleRef : Option Address
  indexDef : Nat → Option IndexDefinition
  accumulator : Nat × Nat → Option WindowAccumulator
  triggerState : Nat × Nat → Option TriggerStatus
  evalCursor : Nat × Nat → Option Nat
  events : List Event

namespace State

def writeAccumulator (s : State) (indexId windowId : Nat) (v : WindowAccumulator) : State :=
  { s with accumulator := Function.update s.accumulator (indexId,windowId) (some v) }

def writeState (s : State) (indexId windowId : Nat) (v : TriggerStatus) : State :=
  { s with triggerState := Function.update s.triggerState (indexId,windowId) (some v) }

def writeCursor (s : State) (indexId windowId day : Nat) : State :=
  { s with evalCursor := Function.update s.evalCursor (indexId,windowId) (some day) }

def publish (s : State) (e : Event) : State := { s with events := s.events++[e] }

end State

/-- The state the constructor leaves. -/
def deploy (admin : Address) : State where
  admin := some admin
  indexCount := none
  oracleRef := none
  indexDef := fun _ => none
  accumulator := fun _ => none
  triggerState := fun _ => none
  evalCursor := fun _ => none
  events := []

def readDef (s : State) (indexId : Nat) : Result Error IndexDefinition :=
  okOr (s.indexDef indexId) .indexNotFound

def readAccumulator (s : State) (indexId windowId : Nat) : WindowAccumulator :=
  (s.accumulator (indexId,windowId)).getD ⟨0,0,0,0⟩

def readState (s : State) (indexId windowId : Nat) : TriggerStatus :=
  (s.triggerState (indexId,windowId)).getD .healthy

def readCursor (s : State) (indexId windowId : Nat) : Option Nat :=
  s.evalCursor (indexId,windowId)

def requireAdmin (env : Env) (s : State) : Result Error Unit :=
  requireStored env s.admin .notInitialized

def validateParams (params : IndexParams) : Result Error Unit := do
  failIf (params.windowLen=0) .invalidIndexDef
  match params.kind with
  | .rainfallShortfall =>
      failIf (params.baseline≤0) .invalidIndexDef
      failIf (params.triggerRatioBps>bpsDenominator.toNat) .invalidIndexDef
      failIf (params.exhaustionRatioBps≥params.triggerRatioBps) .invalidIndexDef
  | .consecutiveDryDays =>
      failIf (params.triggerDays=0 ∨ params.triggerDays>params.windowLen) .invalidIndexDef
      failIf (params.exhaustionDays≤params.triggerDays) .invalidIndexDef

def createIndex (env : Env) (s : State) (params : IndexParams) : Result Error (Nat × State) := do
  requireAdmin env s
  validateParams params
  let indexId := s.indexCount.getD 0
  let next ← okOr (U64.checkedAdd indexId 1) .overflow
  let s := { s with indexCount := some next }
  let s := { s with
    indexDef := Function.update s.indexDef indexId (some ⟨indexId,params⟩) }
  return (indexId,s.publish (.indexCreated indexId))

/-- The dry run counters after one day. -/
def foldRun (params : IndexParams) (acc : WindowAccumulator) (value : Int) :
    Result Error WindowAccumulator :=
  if value≤params.dryFloor then do
    let currentRun ← U32.increment acc.currentRun
    pure { acc with currentRun, maxRun := if currentRun>acc.maxRun then currentRun else acc.maxRun }
  else
    pure { acc with currentRun := 0 }

/-- Folds one day's value into a window, from either source of the value. -/
def foldDay (s : State) (definition : IndexDefinition) (indexId windowId day : Nat)
    (value : Int) : Result Error State := do
  failIf (value<0) .nonDeterministicInput
  match readCursor s indexId windowId with
  | some last => failIf (day≤last) .nonDeterministicInput
  | none => pure ()
  let acc := readAccumulator s indexId windowId
  failIf (acc.daysRecorded≥definition.params.windowLen) .nonDeterministicInput
  let rainSum ← okOr (I128.checkedAdd acc.rainSum value) .overflow
  let acc ← foldRun definition.params { acc with rainSum } value
  let daysRecorded ← U32.increment acc.daysRecorded
  let s := s.writeAccumulator indexId windowId { acc with daysRecorded }
  let s := s.writeCursor indexId windowId day
  return s.publish (.dayRecorded indexId windowId day)

def recordDay (env : Env) (s : State) (indexId windowId day : Nat) (medianValue : Int) :
    Result Error State := do
  requireAdmin env s
  let definition ← readDef s indexId
  foldDay s definition indexId windowId day medianValue

/-- `oracle` answers the sub-call `median` at an address, or traps. -/
def recordDayFromOracle (oracle : Address → Symbol → Symbol → Except Trap Int) (env : Env)
    (s : State) (indexId windowId day : Nat) : Result Error (Int × State) := do
  requireAdmin env s
  let definition ← readDef s indexId
  let address ← okOr s.oracleRef .oracleNotConfigured
  let value ← liftTrap (oracle address definition.params.region definition.params.metric)
  let s ← foldDay s definition indexId windowId day value
  return (value,s)

def setOracle (env : Env) (s : State) (oracle : Address) : Result Error State := do
  requireAdmin env s
  let s := { s with oracleRef := some oracle }
  return s.publish (.oracleSet oracle)

/-- `severity as Bps`: the low 32 bits. -/
def asBps (severity : Int) : Nat := (severity%2^32).toNat

def evalRainfall (params : IndexParams) (acc : WindowAccumulator) : Result Error (Bool × Bps) := do
  let scaled ← okOr (I128.checkedMul acc.rainSum bpsDenominator) .overflow
  let ratio ← okOr (I128.checkedDiv scaled params.baseline) .overflow
  let trigger : Int := params.triggerRatioBps
  let exhaustion : Int := params.exhaustionRatioBps
  if ratio≥trigger then
    return (false,0)
  else if ratio≤exhaustion then
    return (true,bpsDenominator.toNat)
  else do
    let short ← orTrap (I128.checkedSub trigger ratio) .arithmetic
    let span ← orTrap (I128.checkedSub trigger exhaustion) .arithmetic
    let scaled ← okOr (I128.checkedMul short bpsDenominator) .overflow
    let severity ← okOr (I128.checkedDiv scaled span) .overflow
    return (true,asBps severity)

def evalDryDays (params : IndexParams) (acc : WindowAccumulator) : Result Error (Bool × Bps) :=
  let maxRun := acc.maxRun
  if maxRun<params.triggerDays then
    return (false,0)
  else if maxRun≥params.exhaustionDays then
    return (true,bpsDenominator.toNat)
  else do
    let numerator : Int := (maxRun-params.triggerDays : Nat)
    let denominator : Int := (params.exhaustionDays-params.triggerDays : Nat)
    let scaled ← okOr (I128.checkedMul numerator bpsDenominator) .overflow
    let severity ← okOr (I128.checkedDiv scaled denominator) .overflow
    return (true,asBps severity)

/-- Whether a complete window is breached, and how severely; a pure function. -/
def evalIndex (params : IndexParams) (acc : WindowAccumulator) : Result Error (Bool × Bps) :=
  match params.kind with
  | .rainfallShortfall => evalRainfall params acc
  | .consecutiveDryDays => evalDryDays params acc

def severityOf (params : IndexParams) (acc : WindowAccumulator) : Result Error Bps := do
  let (_,severity) ← evalIndex params acc
  return severity

/-- Anyone may evaluate a window, at any time and any number of times. -/
def evaluate (env : Env) (s : State) (indexId windowId : Nat) :
    Result Error (TriggerStatus × State) := do
  let definition ← readDef s indexId
  let acc := readAccumulator s indexId windowId
  failIf (acc.daysRecorded<definition.params.windowLen) .staleIndex
  match readState s indexId windowId with
  | .healthy => do
      let (breached,_) ← evalIndex definition.params acc
      if breached then
        let now := env.timestamp
        let s := s.writeState indexId windowId (.triggered now)
        return (.triggered now,s.publish (.triggered indexId windowId now))
      else
        return (.healthy,s)
  | other => return (other,s)

def finalize (env : Env) (s : State) (indexId windowId : Nat) :
    Result Error (TriggerStatus × State) := do
  requireAdmin env s
  match readState s indexId windowId with
  | .finalized _ _ => .error (.error .alreadyFinalized)
  | .healthy => .error (.error .notTriggered)
  | .triggered triggeredAt => do
      let now := env.timestamp
      let ready ← okOr (U64.checkedAdd triggeredAt challengeWindowSecs) .overflow
      failIf (now < ready) .timelockPending
      let definition ← readDef s indexId
      let acc := readAccumulator s indexId windowId
      let severity ← severityOf definition.params acc
      let s := s.writeState indexId windowId (.finalized now severity)
      return (.finalized now severity,s.publish (.finalized indexId windowId now severity))

/-- What a finalized window pays for a coverage amount. -/
def payoutFor (s : State) (indexId windowId : Nat) (coverage : Int) : Result Error Int :=
  match readState s indexId windowId with
  | .finalized _ severity => do
      let scaled ← okOr (applyBps coverage severity) .overflow
      return min scaled coverage
  | _ => .error (.error .notTriggered)

/-- The state-changing entry points with their arguments. -/
inductive Call where
  | createIndex (params : IndexParams)
  | recordDay (indexId windowId day : Nat) (medianValue : Int)
  | recordDayFromOracle (indexId windowId day : Nat)
      (oracle : Address → Symbol → Symbol → Except Trap Int)
  | setOracle (oracle : Address)
  | evaluate (indexId windowId : Nat)
  | finalize (indexId windowId : Nat)

def invoke (env : Env) (s : State) : Call → Result Error State
  | .createIndex params => (createIndex env s params).map fun r => r.2
  | .recordDay i w day value => recordDay env s i w day value
  | .recordDayFromOracle i w day oracle =>
      (recordDayFromOracle oracle env s i w day).map fun r => r.2
  | .setOracle oracle => setOracle env s oracle
  | .evaluate i w => (evaluate env s i w).map fun r => r.2
  | .finalize i w => (finalize env s i w).map fun r => r.2

/-- A call with what the host says about it; an oracle read carries the oracle's answers. -/
def machine : Machine State (Env × Call) (Abort Error) where
  step s a := invoke a.1 s a.2

end Mvua.TriggerEngine
