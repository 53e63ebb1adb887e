import Mvua.RiskPool.Contract
import Mvua.TriggerEngine.Contract

namespace Mvua.PayoutVault

/-- The most entries in one `pay_batch` call. -/
def maxBatch : Nat := 20

inductive BatchState where
  | opened
  | inProgress
  | complete
  deriving DecidableEq, Repr

structure PayoutEntry where
  policyId : Nat
  owner : Address
  coverage : Int
  deriving DecidableEq, Repr

structure PayoutRecord where
  owner : Address
  amount : Int
  paidAt : Nat
  deriving DecidableEq, Repr

structure BatchProgress where
  policiesPaid : Nat
  totalDisbursed : Int
  state : BatchState
  deriving DecidableEq, Repr

inductive Error where
  | paused
  | batchComplete
  | noFinalizedTrigger
  | payoutExists
  | nothingToClaim
  | invalidBatch
  | invalidEntry
  | unauthorized
  | notInitialized
  | overflow
  deriving DecidableEq, Repr

def Error.code : Error → Nat
  | .paused => 500
  | .batchComplete => 501
  | .noFinalizedTrigger => 502
  | .payoutExists => 503
  | .nothingToClaim => 504
  | .invalidBatch => 505
  | .invalidEntry => 506
  | .unauthorized => 900
  | .notInitialized => 902
  | .overflow => 903

inductive Event where
  | payoutRecorded (policyId : Nat) (owner : Address) (amount : Int)
  | claimed (owner : Address) (amount : Int)
  | pauseSet (paused : Bool)
  deriving DecidableEq, Repr

structure State where
  admin : Option Address
  paused : Option Bool
  batch : Nat × Nat → Option BatchProgress
  payout : Nat → Option PayoutRecord
  poolRef : Option Address
  policyRef : Option Address
  triggerRef : Option Address
  token : Option Address
  claim : Address → Option Int
  events : List Event

namespace State

def writeBatch (s : State) (indexId windowId : Nat) (v : BatchProgress) : State :=
  { s with batch := Function.update s.batch (indexId,windowId) (some v) }

def writePayout (s : State) (policyId : Nat) (v : PayoutRecord) : State :=
  { s with payout := Function.update s.payout policyId (some v) }

def writeClaim (s : State) (owner : Address) (v : Int) : State :=
  { s with claim := Function.update s.claim owner (some v) }

def publish (s : State) (e : Event) : State := { s with events := s.events++[e] }

end State

/-- The state the constructor leaves. -/
def deploy (admin pool policy trigger token : Address) : State where
  admin := some admin
  paused := some false
  batch := fun _ => none
  payout := fun _ => none
  poolRef := some pool
  policyRef := some policy
  triggerRef := some trigger
  token := some token
  claim := fun _ => none
  events := []

def requireAdmin (env : Env) (s : State) : Result Error Unit :=
  requireStored env s.admin .notInitialized

def isPaused (s : State) : Bool := s.paused.getD false

def readClaim (s : State) (owner : Address) : Int := (s.claim owner).getD 0

def readBatch (s : State) (indexId windowId : Nat) : BatchProgress :=
  (s.batch (indexId,windowId)).getD ⟨0,0,.opened⟩

/-- The addresses at which the three contracts run. -/
structure Network where
  riskPool : Address
  triggerEngine : Address
  vault : Address
  deriving DecidableEq, Repr

/-- The storage of the three contracts and the token ledger. -/
structure World (L : Type) where
  riskPool : RiskPool.State
  triggerEngine : TriggerEngine.State
  vault : State
  ledger : L

def pause (env : Env) (s : State) : Result Error State := do
  requireAdmin env s
  let s := { s with paused := some true }
  return s.publish (.pauseSet true)

def unpause (env : Env) (s : State) : Result Error State := do
  requireAdmin env s
  let s := { s with paused := some false }
  return s.publish (.pauseSet false)

def closeBatch (env : Env) (s : State) (indexId windowId : Nat) : Result Error State := do
  requireAdmin env s
  let progress := readBatch s indexId windowId
  return s.writeBatch indexId windowId { progress with state := .complete }

section Calls

variable {L : Type} (T : TokenHost L) (net : Network)

/-- `TriggerEngineClient::payout_for` at an address; nothing else answers it. -/
def callPayoutFor (trigger : Address) (w : World L) (indexId windowId : Nat) (coverage : Int) :
    Except Trap Int :=
  if trigger=net.triggerEngine then
    subcall TriggerEngine.Error.code
      (TriggerEngine.payoutFor w.triggerEngine indexId windowId coverage)
  else .error .host

/-- `RiskPoolClient::pay_out` at an address, called by the vault. -/
def callPayOut (env : Env) (pool : Address) (w : World L) (poolId seasonId : Nat) (dst : Address)
    (amount : Int) : Except Trap (World L) :=
  if pool=net.riskPool then
    (subcall RiskPool.Error.code (RiskPool.payOut T net.riskPool (env.invokedBy net.vault)
      w.riskPool w.ledger poolId seasonId dst amount)).map
      fun r => { w with riskPool := r.2.1, ledger := r.2.2 }
  else .error .host

/-- The locals of the loop over a batch, with the storage it works on. -/
structure BatchRun (L : Type) where
  world : World L
  progress : BatchProgress
  paid : Nat

/-- One round of the loop. -/
def payEntry (env : Env) (pool trigger : Address) (indexId windowId poolId seasonId : Nat)
    (r : BatchRun L) (entry : PayoutEntry) : Result Error (BatchRun L) :=
  if (r.world.vault.payout entry.policyId).isSome then
    return r
  else do
    failIf (entry.coverage≤0) .invalidEntry
    let amount ← liftTrap (callPayoutFor net trigger r.world indexId windowId entry.coverage)
    if amount≤0 then
      return r
    else do
      let w ← liftTrap (callPayOut T net env pool r.world poolId seasonId net.vault amount)
      let credited ← okOr (I128.checkedAdd (readClaim w.vault entry.owner) amount) .overflow
      let vault := w.vault.writeClaim entry.owner credited
      let record : PayoutRecord := ⟨entry.owner,amount,env.timestamp⟩
      let vault := vault.writePayout entry.policyId record
      let totalDisbursed ← okOr (I128.checkedAdd r.progress.totalDisbursed amount) .overflow
      let policiesPaid ← U32.increment r.progress.policiesPaid
      let paid ← U32.increment r.paid
      let vault := vault.publish (.payoutRecorded entry.policyId entry.owner amount)
      return {
        world := { w with vault }
        progress := { r.progress with totalDisbursed, policiesPaid }
        paid }

def payBatch (env : Env) (w : World L) (indexId windowId poolId seasonId : Nat)
    (entries : List PayoutEntry) : Result Error (Nat × World L) := do
  requireAdmin env w.vault
  failIf (isPaused w.vault) .paused
  failIf (entries.length=0 ∨ entries.length>maxBatch) .invalidBatch
  let progress := readBatch w.vault indexId windowId
  failIf (progress.state=.complete) .batchComplete
  let pool ← okOr w.vault.poolRef .notInitialized
  let trigger ← okOr w.vault.triggerRef .notInitialized
  let r ← entries.foldlM (payEntry T net env pool trigger indexId windowId poolId seasonId)
    ⟨w,progress,0⟩
  let progress := if r.paid>0 then { r.progress with state := .inProgress } else r.progress
  let vault := r.world.vault.writeBatch indexId windowId progress
  return (r.paid,{ r.world with vault })

/-- Anyone may push a holder's balance to the holder, also while payouts are paused. -/
def claim (w : World L) (owner : Address) : Result Error (Int × World L) := do
  let amount := readClaim w.vault owner
  failIf (amount≤0) .nothingToClaim
  let token ← okOr w.vault.token .notInitialized
  let vault := w.vault.writeClaim owner 0
  let ledger ← T.send w.ledger token net.vault owner amount
  return (amount,{ w with vault := vault.publish (.claimed owner amount), ledger })

end Calls

/-- The state-changing entry points with their arguments. -/
inductive Call where
  | pause
  | unpause
  | payBatch (indexId windowId poolId seasonId : Nat) (entries : List PayoutEntry)
  | closeBatch (indexId windowId : Nat)
  | claim (owner : Address)
  deriving DecidableEq, Repr

/-- A top-level call of one of the three contracts. -/
inductive Action where
  | riskPool (c : RiskPool.Call)
  | triggerEngine (c : TriggerEngine.Call)
  | vault (c : Call)

/-- Outside a sub-call no contract is authorized for itself. -/
def Network.outside (net : Network) (env : Env) : Env :=
  { env with signers := env.signers.filter fun a =>
      a≠net.riskPool ∧ a≠net.triggerEngine ∧ a≠net.vault }

/-- How a transaction fails: the error code or trap of the contract it called. -/
abbrev Failure := Trap

section Machine

variable {L : Type} (T : TokenHost L) (net : Network)

def invoke (env : Env) (w : World L) : Call → Result Error (World L)
  | .pause => (pause env w.vault).map fun vault => { w with vault }
  | .unpause => (unpause env w.vault).map fun vault => { w with vault }
  | .payBatch i n p z entries => (payBatch T net env w i n p z entries).map fun r => r.2
  | .closeBatch i n => (closeBatch env w.vault i n).map fun vault => { w with vault }
  | .claim owner => (claim T net w owner).map fun r => r.2

def execute (env : Env) (w : World L) : Action → Except Failure (World L)
  | .riskPool c =>
      (subcall RiskPool.Error.code (RiskPool.invoke T net.riskPool (net.outside env) c w.riskPool
        w.ledger)).map fun r => { w with riskPool := r.1, ledger := r.2 }
  | .triggerEngine c =>
      (subcall TriggerEngine.Error.code (TriggerEngine.invoke (net.outside env)
        w.triggerEngine c)).map fun s => { w with triggerEngine := s }
  | .vault c => subcall Error.code (invoke T net (net.outside env) w c)

/-- Transactions against the three contracts, in any order and at any ledger time. -/
def machine : Machine (World L) (Env × Action) Failure where
  step w a := execute T net a.1 w a.2

/-- The three contracts right after deployment, the vault wired to the other two. -/
def deployWorld (poolAdmin triggerAdmin vaultAdmin policy token : Address) (l : L) : World L where
  riskPool := RiskPool.deploy poolAdmin
  triggerEngine := TriggerEngine.deploy triggerAdmin
  vault := deploy vaultAdmin net.riskPool policy net.triggerEngine token
  ledger := l

end Machine

end Mvua.PayoutVault
