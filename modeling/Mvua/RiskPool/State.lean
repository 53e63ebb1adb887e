import Mvua.Common
import Mathlib.Logic.Function.Basic

namespace Mvua.RiskPool

inductive Tier where
  | junior
  | senior
  deriving DecidableEq, Repr

structure PremiumParams where
  baseBps : Nat
  coverageSlopeBps : Nat
  deriving DecidableEq, Repr

/-- A cap of zero means the tranche is uncapped. -/
structure TrancheConfig where
  juniorCap : Int
  seniorCap : Int
  deriving DecidableEq, Repr

/-- Rates in basis points of the gross premium; a cap of zero means uncapped. -/
structure FeeConfig where
  protocolBps : Nat
  publisherBps : Nat
  protocolCap : Int
  publisherCap : Int
  deriving DecidableEq, Repr

structure PoolConfig where
  token : Address
  regions : List Symbol
  seasonLength : Nat
  premium : PremiumParams
  tranche : TrancheConfig
  fee : FeeConfig
  transferable : Bool
  deriving DecidableEq, Repr

structure TrancheState where
  deposited : Int
  supply : Int
  deriving DecidableEq, Repr

inductive SeasonState where
  | opened
  | active
  | closed
  | settled
  deriving DecidableEq, Repr

structure Season where
  state : SeasonState
  openedAt : Nat
  closesAt : Nat
  premiumsIn : Int
  payoutsCommitted : Int
  payoutsPaid : Int
  deriving DecidableEq, Repr

structure SolvencyState where
  reserves : Int
  committed : Int
  deriving DecidableEq, Repr

structure TreasuryState where
  protocolFees : Int
  publisherFees : Int
  deriving DecidableEq, Repr

inductive Error where
  | poolNotFound
  | insufficientReserves
  | solvencyViolated
  | seasonNotOpen
  | trancheWithdrawBlocked
  | feeCapExceeded
  | invalidConfig
  | invalidAmount
  | insufficientReceipts
  | trancheCapExceeded
  | invalidSeasonState
  | seasonNotFound
  | unauthorized
  | timelockPending
  | notInitialized
  | overflow
  deriving DecidableEq, Repr

/-- The codes by which another contract sees these errors. -/
def Error.code : Error → Nat
  | .poolNotFound => 100
  | .insufficientReserves => 101
  | .solvencyViolated => 102
  | .seasonNotOpen => 103
  | .trancheWithdrawBlocked => 104
  | .feeCapExceeded => 105
  | .invalidConfig => 106
  | .invalidAmount => 107
  | .insufficientReceipts => 108
  | .trancheCapExceeded => 109
  | .invalidSeasonState => 110
  | .seasonNotFound => 111
  | .unauthorized => 900
  | .timelockPending => 901
  | .notInitialized => 902
  | .overflow => 903

theorem Error.code_injective : Function.Injective Error.code := by
  intro a b h
  cases a <;> cases b <;> first | rfl | simp [Error.code] at h

inductive Event where
  | poolCreated (poolId : Nat)
  | deposited (poolId : Nat) (tier : Tier) (src : Address) (amount minted : Int)
  | withdrawn (poolId : Nat) (tier : Tier) (holder : Address) (receiptAmount underlying : Int)
  | seasonOpened (poolId seasonId openedAt closesAt : Nat)
  | seasonStateChanged (poolId seasonId : Nat) (state : SeasonState)
  | premiumCollected (poolId seasonId : Nat) (src : Address)
      (gross net protocolFee publisherFee : Int)
  | seasonSettled (poolId seasonId : Nat) (premiumsIn payoutsPaid net : Int)
  | premiumRefunded (poolId seasonId : Nat) (dst : Address) (net : Int)
  | payoutReleased (poolId seasonId : Nat) (dst : Address) (amount : Int)
  deriving DecidableEq, Repr

/-- The contract's storage, one map for each key of `DataKey`, and the events it published. -/
structure State where
  admin : Option Address
  policyContract : Option Address
  payoutVault : Option Address
  poolCount : Option Nat
  seasonCount : Nat → Option Nat
  poolConfig : Nat → Option PoolConfig
  tranche : Nat × Tier → Option TrancheState
  receipt : Nat × Tier × Address → Option Int
  season : Nat × Nat → Option Season
  treasury : Nat → Option TreasuryState
  solvency : Nat → Option SolvencyState
  events : List Event

namespace State

def writeTranche (s : State) (poolId : Nat) (tier : Tier) (v : TrancheState) : State :=
  { s with tranche := Function.update s.tranche (poolId,tier) (some v) }

def writeReceipt (s : State) (poolId : Nat) (tier : Tier) (holder : Address) (v : Int) : State :=
  { s with receipt := Function.update s.receipt (poolId,tier,holder) (some v) }

def writeSeason (s : State) (poolId seasonId : Nat) (v : Season) : State :=
  { s with season := Function.update s.season (poolId,seasonId) (some v) }

def writeTreasury (s : State) (poolId : Nat) (v : TreasuryState) : State :=
  { s with treasury := Function.update s.treasury poolId (some v) }

def writeSolvency (s : State) (poolId : Nat) (v : SolvencyState) : State :=
  { s with solvency := Function.update s.solvency poolId (some v) }

def publish (s : State) (e : Event) : State := { s with events := s.events++[e] }

end State

def readConfig (s : State) (poolId : Nat) : Result Error PoolConfig :=
  okOr (s.poolConfig poolId) .poolNotFound

def readTranche (s : State) (poolId : Nat) (tier : Tier) : TrancheState :=
  (s.tranche (poolId,tier)).getD ⟨0,0⟩

def readReceipt (s : State) (poolId : Nat) (tier : Tier) (holder : Address) : Int :=
  (s.receipt (poolId,tier,holder)).getD 0

def readSolvency (s : State) (poolId : Nat) : Result Error SolvencyState :=
  okOr (s.solvency poolId) .poolNotFound

def readSeason (s : State) (poolId seasonId : Nat) : Result Error Season :=
  okOr (s.season (poolId,seasonId)) .seasonNotFound

def readTreasury (s : State) (poolId : Nat) : Result Error TreasuryState :=
  okOr (s.treasury poolId) .poolNotFound

section Reads

variable (s : State) (p i : Nat) (t : Tier)

@[simp] theorem readConfig_eq_ok (c : PoolConfig) :
    readConfig s p=.ok c ↔ s.poolConfig p=some c := okOr_eq_ok ..

@[simp] theorem readSolvency_eq_ok (v : SolvencyState) :
    readSolvency s p=.ok v ↔ s.solvency p=some v := okOr_eq_ok ..

@[simp] theorem readSeason_eq_ok (z : Season) :
    readSeason s p i=.ok z ↔ s.season (p,i)=some z := okOr_eq_ok ..

@[simp] theorem readTreasury_eq_ok (v : TreasuryState) :
    readTreasury s p=.ok v ↔ s.treasury p=some v := okOr_eq_ok ..

end Reads

end Mvua.RiskPool
