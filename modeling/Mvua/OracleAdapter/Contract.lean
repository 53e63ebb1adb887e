import Mvua.Host
import Mvua.Framework.Machine

namespace Mvua.OracleAdapter

/-- Observations kept for each region and metric. -/
def ringSize : Nat := 16
def minPublishers : Nat := 2
def defaultStalenessHours : Nat := 48
def registryTimelockSecs : Nat := 7*24*60*60
def secondsPerHour : Nat := 3600

structure PublisherInfo where
  active : Bool
  addedAt : Nat
  deriving DecidableEq, Repr

structure PendingRegistry where
  add : Bool
  eta : Nat
  deriving DecidableEq, Repr

structure Observation where
  value : Int
  timestamp : Nat
  publisher : BytesN 32
  accepted : Bool
  deriving DecidableEq, Repr

/-- The ring cursor: the next write goes to slot `nextSeq % ringSize`. -/
structure Head where
  nextSeq : Nat
  count : Nat
  deriving DecidableEq, Repr

/-- What a publisher signs. -/
structure ObservationPayload where
  region : Symbol
  metric : Symbol
  timestamp : Nat
  value : Int
  deriving DecidableEq, Repr

inductive Error where
  | unknownPublisher
  | badSignature
  | observationStale
  | challenged
  | registryTimelock
  | publisherExists
  | noPendingChange
  | pendingExists
  | invalidObservation
  | unauthorized
  | timelockPending
  | notInitialized
  | overflow
  deriving DecidableEq, Repr

def Error.code : Error → Nat
  | .unknownPublisher => 300
  | .badSignature => 301
  | .observationStale => 302
  | .challenged => 303
  | .registryTimelock => 304
  | .publisherExists => 305
  | .noPendingChange => 306
  | .pendingExists => 307
  | .invalidObservation => 308
  | .unauthorized => 900
  | .timelockPending => 901
  | .notInitialized => 902
  | .overflow => 903

inductive Event where
  | publisherProposed (publisher : BytesN 32) (add : Bool) (eta : Nat)
  | publisherRegistered (publisher : BytesN 32)
  | publisherRemoved (publisher : BytesN 32)
  | publisherProposalCancelled (publisher : BytesN 32)
  | observationSubmitted (region metric : Symbol) (seq : Nat) (publisher : BytesN 32)
  | observationChallenged (region metric : Symbol) (seq reason : Nat)
  | observationUnchallenged (region metric : Symbol) (seq : Nat)
  deriving DecidableEq, Repr

structure State where
  admin : Option Address
  publisher : BytesN 32 → Option PublisherInfo
  pendingPublisher : BytesN 32 → Option PendingRegistry
  obs : Symbol × Symbol × Nat → Option Observation
  obsHead : Symbol × Symbol → Option Head
  challenge : Symbol × Symbol × Nat → Option Nat
  stalenessBound : Option Nat
  events : List Event

def State.publish (s : State) (e : Event) : State := { s with events := s.events++[e] }

/-- The state the constructor leaves. -/
def deploy (admin : Address) : State where
  admin := some admin
  publisher := fun _ => none
  pendingPublisher := fun _ => none
  obs := fun _ => none
  obsHead := fun _ => none
  challenge := fun _ => none
  stalenessBound := some defaultStalenessHours
  events := []

def readHead (s : State) (region metric : Symbol) : Head :=
  (s.obsHead (region,metric)).getD ⟨0,0⟩

def isChallenged (s : State) (region metric : Symbol) (seq : Nat) : Bool :=
  (s.challenge (region,metric,seq)).isSome

def readStalenessHours (s : State) : Nat := s.stalenessBound.getD defaultStalenessHours

def requireAdmin (env : Env) (s : State) : Result Error Unit :=
  requireStored env s.admin .notInitialized

def proposePublisher (env : Env) (s : State) (publisher : BytesN 32) (add : Bool) :
    Result Error (Nat × State) := do
  requireAdmin env s
  failIf (s.pendingPublisher publisher).isSome .pendingExists
  let active := ((s.publisher publisher).map PublisherInfo.active).getD false
  failIf (add ∧ active) .publisherExists
  failIf (¬add ∧ ¬active) .unknownPublisher
  let eta ← okOr (U64.checkedAdd env.timestamp registryTimelockSecs) .overflow
  let s := { s with
    pendingPublisher := Function.update s.pendingPublisher publisher (some ⟨add,eta⟩) }
  return (eta,s.publish (.publisherProposed publisher add eta))

/-- A removal keeps the record, so that old observations have an author. -/
def executePublisher (env : Env) (s : State) (publisher : BytesN 32) : Result Error State := do
  requireAdmin env s
  let pending ← okOr (s.pendingPublisher publisher) .noPendingChange
  failIf (env.timestamp<pending.eta) .registryTimelock
  let info ← if pending.add then pure ⟨true,env.timestamp⟩
    else do
      let info ← okOr (s.publisher publisher) .unknownPublisher
      pure { info with active := false }
  let s := { s with publisher := Function.update s.publisher publisher (some info) }
  let s := { s with pendingPublisher := Function.update s.pendingPublisher publisher none }
  return s.publish (if pending.add then .publisherRegistered publisher
    else .publisherRemoved publisher)

def cancelPublisher (env : Env) (s : State) (publisher : BytesN 32) : Result Error State := do
  requireAdmin env s
  failIf (s.pendingPublisher publisher).isNone .noPendingChange
  let s := { s with pendingPublisher := Function.update s.pendingPublisher publisher none }
  return s.publish (.publisherProposalCancelled publisher)

/-- Anyone may submit: the signature over the payload authenticates it. `verify` is the
host's ed25519 check of a key, a message and a signature. -/
def submit (verify : BytesN 32 → ObservationPayload → BytesN 64 → Bool) (env : Env) (s : State)
    (region metric : Symbol) (timestamp : Nat) (value : Int) (publisher : BytesN 32)
    (signature : BytesN 64) : Result Error (Nat × State) := do
  let info ← okOr (s.publisher publisher) .unknownPublisher
  failIf (¬info.active) .unknownPublisher
  failIf (value<0 ∨ timestamp>env.timestamp) .invalidObservation
  trapIf (¬verify publisher ⟨region,metric,timestamp,value⟩ signature) .host
  let head := readHead s region metric
  let slot := head.nextSeq%ringSize
  let s := { s with
    obs := Function.update s.obs (region,metric,slot) (some ⟨value,timestamp,publisher,true⟩) }
  let s := { s with challenge := Function.update s.challenge (region,metric,slot) none }
  let nextSeq ← okOr (U32.checkedAdd head.nextSeq 1) .overflow
  let count ← if head.count < ringSize then U32.increment head.count else pure head.count
  let s := { s with obsHead := Function.update s.obsHead (region,metric) (some ⟨nextSeq,count⟩) }
  return (slot,s.publish (.observationSubmitted region metric slot publisher))

def challenge (env : Env) (s : State) (region metric : Symbol) (seq reason : Nat) :
    Result Error State := do
  requireAdmin env s
  failIf (s.obs (region,metric,seq)).isNone .invalidObservation
  failIf (isChallenged s region metric seq) .challenged
  let s := { s with challenge := Function.update s.challenge (region,metric,seq) (some reason) }
  return s.publish (.observationChallenged region metric seq reason)

def unchallenge (env : Env) (s : State) (region metric : Symbol) (seq : Nat) :
    Result Error State := do
  requireAdmin env s
  let s := { s with challenge := Function.update s.challenge (region,metric,seq) none }
  return s.publish (.observationUnchallenged region metric seq)

/-- The inner loop of the sort: larger values move up until `key` fits. -/
def shiftInsert (key : Int) : Nat → List Int → List Int
  | 0,values => values.set 0 key
  | j+1,values =>
      if values.getD j 0>key then shiftInsert key j (values.set (j+1) (values.getD j 0))
      else values.set (j+1) key

/-- In-place insertion sort of the first `len` values. -/
def sortAscending (values : List Int) (len : Nat) : List Int :=
  (List.range' 1 (len-1)).foldl (fun values i => shiftInsert (values.getD i 0) i values) values

/-- The values that count, in a fixed array with its fill, and their distinct publishers. -/
structure Gathered where
  values : List Int
  len : Nat
  publishers : List (BytesN 32)
  deriving DecidableEq, Repr

/-- One round of the loop over the ring; a write outside the array panics. -/
def gatherSlot (env : Env) (s : State) (region metric : Symbol) (boundSecs : Nat) (g : Gathered)
    (slot : Nat) : Result Error Gathered :=
  match s.obs (region,metric,slot) with
  | none => pure g
  | some obs =>
      let fresh := decide (env.timestamp-obs.timestamp≤boundSecs)
      if obs.accepted ∧ fresh ∧ ¬isChallenged s region metric slot then do
        trapIf (g.values.length≤g.len) .host
        pure {
          values := g.values.set g.len obs.value
          len := g.len+1
          publishers :=
            if obs.publisher∈g.publishers then g.publishers else g.publishers++[obs.publisher] }
      else pure g

def median (env : Env) (s : State) (region metric : Symbol) : Result Error Int := do
  let head := readHead s region metric
  failIf (head.count=0) .observationStale
  let boundSecs ← okOr (U64.checkedMul (readStalenessHours s) secondsPerHour) .overflow
  let g ← (List.range head.count).foldlM (gatherSlot env s region metric boundSecs)
    ⟨List.replicate ringSize 0,0,[]⟩
  failIf (g.len=0 ∨ g.publishers.length < minPublishers) .observationStale
  let values := sortAscending g.values g.len
  let mid := g.len/2
  if g.len%2=1 then
    return values.getD mid 0
  else
    let sum ← okOr (I128.checkedAdd (values.getD (mid-1) 0) (values.getD mid 0)) .overflow
    return sum.tdiv 2

/-- The state-changing entry points with their arguments. -/
inductive Call where
  | proposePublisher (publisher : BytesN 32) (add : Bool)
  | executePublisher (publisher : BytesN 32)
  | cancelPublisher (publisher : BytesN 32)
  | submit (region metric : Symbol) (timestamp : Nat) (value : Int) (publisher : BytesN 32)
      (signature : BytesN 64)
  | challenge (region metric : Symbol) (seq reason : Nat)
  | unchallenge (region metric : Symbol) (seq : Nat)
  deriving DecidableEq, Repr

def invoke (verify : BytesN 32 → ObservationPayload → BytesN 64 → Bool) (env : Env) (s : State) :
    Call → Result Error State
  | .proposePublisher p add => (proposePublisher env s p add).map fun r => r.2
  | .executePublisher p => executePublisher env s p
  | .cancelPublisher p => cancelPublisher env s p
  | .submit r m t v p sig => (submit verify env s r m t v p sig).map fun x => x.2
  | .challenge r m k reason => challenge env s r m k reason
  | .unchallenge r m k => unchallenge env s r m k

/-- A call and what the host says about it: any caller, at any ledger time. -/
def machine (verify : BytesN 32 → ObservationPayload → BytesN 64 → Bool) :
    Machine State (Env × Call) (Abort Error) where
  step s a := invoke verify a.1 s a.2

end Mvua.OracleAdapter
