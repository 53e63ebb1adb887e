import Mvua.RiskPool.Contract

namespace Mvua.Policy

inductive PolicyState where
  | active
  | triggered
  | paid
  | expired
  | cancelled
  deriving DecidableEq, Repr

/-- A policy certificate: `premiumPaid` is the gross premium, `netReserved` what the pool credited
to its reserves for it. -/
structure PolicyRecord where
  owner : Address
  poolId : Nat
  seasonId : Nat
  region : Symbol
  coverage : Int
  indexRef : Nat
  windowStart : Nat
  windowEnd : Nat
  severityCurve : Nat
  premiumPaid : Int
  netReserved : Int
  state : PolicyState
  deriving DecidableEq, Repr

/-- The terms a buyer specifies. -/
structure PolicyTerms where
  region : Symbol
  coverage : Int
  indexRef : Nat
  windowStart : Nat
  windowEnd : Nat
  severityCurve : Nat
  deriving DecidableEq, Repr

/-- One line of a cooperative purchase. -/
structure BatchEntry where
  owner : Address
  terms : PolicyTerms
  maxPremium : Int
  metadata : BytesN 32
  deriving DecidableEq

/-- The most policies in one `mint_batch` call. -/
def maxBatch : Nat := 20

inductive Error where
  | policyNotFound
  | invalidState
  | windowStarted
  | notTransferable
  | quoteMismatch
  | invalidCoverage
  | invalidWindow
  | notExpired
  | invalidBatch
  | unauthorized
  | notInitialized
  | overflow
  deriving DecidableEq, Repr

def Error.code : Error → Nat
  | .policyNotFound => 200
  | .invalidState => 201
  | .windowStarted => 202
  | .notTransferable => 203
  | .quoteMismatch => 204
  | .invalidCoverage => 205
  | .invalidWindow => 206
  | .notExpired => 207
  | .invalidBatch => 208
  | .unauthorized => 900
  | .notInitialized => 902
  | .overflow => 903

inductive Event where
  | policyMinted (policyId : Nat) (owner : Address) (poolId seasonId : Nat)
      (coverage premiumPaid : Int)
  | policyStateChanged (policyId : Nat) (state : PolicyState)
  | policyCancelled (policyId : Nat) (owner : Address) (refunded : Int)
  | batchMinted (payer : Address) (poolId seasonId count : Nat)
  | policyTransferred (policyId : Nat) (src dst : Address)
  | transferabilitySet (poolId : Nat) (allowed : Bool)
  deriving DecidableEq, Repr

structure State where
  admin : Option Address
  riskPool : Option Address
  policyCounter : Option Nat
  policy : Nat → Option PolicyRecord
  metaPointer : Nat → Option (BytesN 32)
  transferable : Nat → Option Bool
  events : List Event

namespace State

def writePolicy (s : State) (policyId : Nat) (v : PolicyRecord) : State :=
  { s with policy := Function.update s.policy policyId (some v) }

def writeMetaPointer (s : State) (policyId : Nat) (v : BytesN 32) : State :=
  { s with metaPointer := Function.update s.metaPointer policyId (some v) }

def writeTransferable (s : State) (poolId : Nat) (v : Bool) : State :=
  { s with transferable := Function.update s.transferable poolId (some v) }

def publish (s : State) (e : Event) : State := { s with events := s.events++[e] }

end State

/-- The state the constructor leaves. -/
def deploy (admin riskPool : Address) : State where
  admin := some admin
  riskPool := some riskPool
  policyCounter := none
  policy := fun _ => none
  metaPointer := fun _ => none
  transferable := fun _ => none
  events := []

def readTransferable (s : State) (poolId : Nat) : Bool := (s.transferable poolId).getD false

def readPolicy (s : State) (policyId : Nat) : Result Error PolicyRecord :=
  okOr (s.policy policyId) .policyNotFound

def readRiskPool (s : State) : Result Error Address := okOr s.riskPool .notInitialized

def requireAdmin (env : Env) (s : State) : Result Error Unit :=
  requireStored env s.admin .notInitialized

/-- A forward transition, rejected from any state other than `src`. -/
def transition (s : State) (policyId : Nat) (src dst : PolicyState) : Result Error State := do
  let record ← readPolicy s policyId
  failIf (record.state≠src) .invalidState
  let s := s.writePolicy policyId { record with state := dst }
  return s.publish (.policyStateChanged policyId dst)

def markTriggered (env : Env) (s : State) (policyId : Nat) : Result Error State := do
  requireAdmin env s
  transition s policyId .active .triggered

def markPaid (env : Env) (s : State) (policyId : Nat) : Result Error State := do
  requireAdmin env s
  transition s policyId .triggered .paid

/-- Anyone may expire a policy whose coverage window is over. -/
def expire (env : Env) (s : State) (policyId : Nat) : Result Error State := do
  let record ← readPolicy s policyId
  failIf (env.timestamp < record.windowEnd) .notExpired
  transition s policyId .active .expired

def setMetadata (env : Env) (s : State) (policyId : Nat) (pointer : BytesN 32) :
    Result Error State := do
  let record ← readPolicy s policyId
  requireAuth env record.owner
  return s.writeMetaPointer policyId pointer

def setTransferable (env : Env) (s : State) (poolId : Nat) (allowed : Bool) :
    Result Error State := do
  requireAdmin env s
  let s := s.writeTransferable poolId allowed
  return s.publish (.transferabilitySet poolId allowed)

def transfer (env : Env) (s : State) (policyId : Nat) (dst : Address) : Result Error State := do
  let record ← readPolicy s policyId
  requireAuth env record.owner
  failIf (readTransferable s record.poolId=false) .notTransferable
  failIf (record.state≠.active) .invalidState
  let src := record.owner
  let s := s.writePolicy policyId { record with owner := dst }
  return s.publish (.policyTransferred policyId src dst)

/-- The addresses at which the two contracts run. -/
structure Network where
  riskPool : Address
  policy : Address
  deriving DecidableEq, Repr

/-- The storage of the two contracts and the token ledger. -/
structure World (L : Type) where
  riskPool : RiskPool.State
  policy : State
  ledger : L

section Calls

variable {L : Type} (T : TokenHost L) (net : Network)

/-- `RiskPoolClient::premium_for` at an address; nothing else answers it. -/
def callPremiumFor (rp : Address) (w : World L) (poolId : Nat) (coverage : Int) :
    Except Trap Int :=
  if rp=net.riskPool then
    subcall RiskPool.Error.code (RiskPool.premiumFor w.riskPool poolId coverage)
  else .error .host

/-- `RiskPoolClient::collect_premium` at an address, called by the policy contract. -/
def callCollectPremium (env : Env) (rp : Address) (w : World L) (poolId seasonId : Nat)
    (src : Address) (amount : Int) : Except Trap (Int × World L) :=
  if rp=net.riskPool then
    (subcall RiskPool.Error.code (RiskPool.collectPremium T net.riskPool
      (env.invokedBy net.policy) w.riskPool w.ledger poolId seasonId src amount)).map
      fun r => (r.1,{ w with riskPool := r.2.1, ledger := r.2.2 })
  else .error .host

/-- `RiskPoolClient::refund_premium` at an address, called by the policy contract. -/
def callRefundPremium (env : Env) (rp : Address) (w : World L) (poolId seasonId : Nat)
    (dst : Address) (amount : Int) : Except Trap (Int × World L) :=
  if rp=net.riskPool then
    (subcall RiskPool.Error.code (RiskPool.refundPremium T net.riskPool
      (env.invokedBy net.policy) w.riskPool w.ledger poolId seasonId dst amount)).map
      fun r => (r.1,{ w with riskPool := r.2.1, ledger := r.2.2 })
  else .error .host

def quote (w : World L) (poolId : Nat) (coverage : Int) : Result Error Int := do
  let rp ← readRiskPool w.policy
  liftTrap (callPremiumFor net rp w poolId coverage)

/-- The purchase of one policy, shared by `mint` and `mint_batch`. -/
def mintOne (env : Env) (rp : Address) (w : World L) (owner payer : Address)
    (poolId seasonId : Nat) (terms : PolicyTerms) (maxPremium : Int) (metadata : BytesN 32) :
    Result Error (Nat × World L) := do
  failIf (terms.coverage≤0) .invalidCoverage
  failIf (terms.windowEnd≤terms.windowStart) .invalidWindow
  let premium ← liftTrap (callPremiumFor net rp w poolId terms.coverage)
  failIf (premium>maxPremium) .quoteMismatch
  let (netReserved,w) ← liftTrap (callCollectPremium T net env rp w poolId seasonId payer premium)
  let policyId ← okOr (U64.checkedAdd (w.policy.policyCounter.getD 0) 1) .overflow
  let s := { w.policy with policyCounter := some policyId }
  let record : PolicyRecord := {
    owner
    poolId
    seasonId
    region := terms.region
    coverage := terms.coverage
    indexRef := terms.indexRef
    windowStart := terms.windowStart
    windowEnd := terms.windowEnd
    severityCurve := terms.severityCurve
    premiumPaid := premium
    netReserved
    state := .active }
  let s := s.writePolicy policyId record
  let s := s.writeMetaPointer policyId metadata
  let s := s.publish (.policyMinted policyId owner poolId seasonId terms.coverage premium)
  return (policyId,{ w with policy := s })

def mint (env : Env) (w : World L) (buyer : Address) (poolId seasonId : Nat)
    (terms : PolicyTerms) (maxPremium : Int) (metadata : BytesN 32) :
    Result Error (Nat × World L) := do
  requireAuth env buyer
  let rp ← readRiskPool w.policy
  mintOne T net env rp w buyer buyer poolId seasonId terms maxPremium metadata

/-- One round of the loop over a batch, with the ids handed out so far. -/
def mintEntry (env : Env) (rp payer : Address) (poolId seasonId : Nat) (r : List Nat × World L)
    (entry : BatchEntry) : Result Error (List Nat × World L) := do
  let (id,w) ← mintOne T net env rp r.2 entry.owner payer poolId seasonId entry.terms
    entry.maxPremium entry.metadata
  return (r.1++[id],w)

def mintBatch (env : Env) (w : World L) (payer : Address) (poolId seasonId : Nat)
    (entries : List BatchEntry) : Result Error (List Nat × World L) := do
  requireAuth env payer
  let count := entries.length
  failIf (count=0 ∨ count>maxBatch) .invalidBatch
  let rp ← readRiskPool w.policy
  let (ids,w) ← entries.foldlM (mintEntry T net env rp payer poolId seasonId) ([],w)
  return (ids,{ w with policy := w.policy.publish (.batchMinted payer poolId seasonId count) })

/-- The owner cancels before the coverage window opens and gets the net premium back. -/
def cancel (env : Env) (w : World L) (policyId : Nat) : Result Error (Int × World L) := do
  let record ← readPolicy w.policy policyId
  requireAuth env record.owner
  failIf (record.state≠.active) .invalidState
  failIf (env.timestamp≥record.windowStart) .windowStarted
  let rp ← readRiskPool w.policy
  let (refunded,w) ← liftTrap (callRefundPremium T net env rp w record.poolId record.seasonId
    record.owner record.netReserved)
  let s := w.policy.writePolicy policyId { record with state := .cancelled }
  let s := s.publish (.policyCancelled policyId record.owner refunded)
  return (refunded,{ w with policy := s })

end Calls

/-- The state-changing entry points with their arguments. -/
inductive Call where
  | mint (buyer : Address) (poolId seasonId : Nat) (terms : PolicyTerms) (maxPremium : Int)
      (metadata : BytesN 32)
  | mintBatch (payer : Address) (poolId seasonId : Nat) (entries : List BatchEntry)
  | markTriggered (policyId : Nat)
  | markPaid (policyId : Nat)
  | expire (policyId : Nat)
  | cancel (policyId : Nat)
  | setMetadata (policyId : Nat) (pointer : BytesN 32)
  | setTransferable (poolId : Nat) (allowed : Bool)
  | transfer (policyId : Nat) (dst : Address)
  deriving DecidableEq

/-- A top-level call of one of the two contracts. -/
inductive Action where
  | riskPool (c : RiskPool.Call)
  | policy (c : Call)

/-- Outside a sub-call no contract is authorized for itself. -/
def Network.outside (net : Network) (env : Env) : Env :=
  { env with signers := env.signers.filter fun a => a≠net.riskPool ∧ a≠net.policy }

/-- How a transaction fails: the error code or trap of the contract it called. -/
abbrev Failure := Trap

section Machine

variable {L : Type} (T : TokenHost L) (net : Network)

def invoke (env : Env) (w : World L) : Call → Result Error (World L)
  | .mint buyer p z terms maxPremium metadata =>
      (mint T net env w buyer p z terms maxPremium metadata).map fun r => r.2
  | .mintBatch payer p z entries => (mintBatch T net env w payer p z entries).map fun r => r.2
  | .markTriggered id => (markTriggered env w.policy id).map fun s => { w with policy := s }
  | .markPaid id => (markPaid env w.policy id).map fun s => { w with policy := s }
  | .expire id => (expire env w.policy id).map fun s => { w with policy := s }
  | .cancel id => (cancel T net env w id).map fun r => r.2
  | .setMetadata id pointer =>
      (setMetadata env w.policy id pointer).map fun s => { w with policy := s }
  | .setTransferable p allowed =>
      (setTransferable env w.policy p allowed).map fun s => { w with policy := s }
  | .transfer id dst => (transfer env w.policy id dst).map fun s => { w with policy := s }

def execute (env : Env) (w : World L) : Action → Except Failure (World L)
  | .riskPool c =>
      (subcall RiskPool.Error.code (RiskPool.invoke T net.riskPool (net.outside env) c w.riskPool
        w.ledger)).map fun r => { w with riskPool := r.1, ledger := r.2 }
  | .policy c => subcall Error.code (invoke T net (net.outside env) w c)

/-- Transactions against the two contracts, in any order and at any ledger time. -/
def machine : Machine (World L) (Env × Action) Failure where
  step w a := execute T net a.1 w a.2

/-- The two contracts right after deployment, the policy contract wired to the pool. -/
def deployWorld (poolAdmin policyAdmin : Address) (l : L) : World L where
  riskPool := RiskPool.deploy poolAdmin
  policy := deploy policyAdmin net.riskPool
  ledger := l

end Machine

end Mvua.Policy
