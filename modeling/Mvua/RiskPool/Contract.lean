import Mvua.RiskPool.State
import Mvua.Framework.Machine

namespace Mvua.RiskPool

/-- One unit of coverage in the settlement token's smallest denomination. -/
def coverageUnit : Int := 10000000

/-- The state the constructor leaves. -/
def deploy (admin : Address) : State where
  admin := some admin
  policyContract := none
  payoutVault := none
  poolCount := none
  seasonCount := fun _ => none
  poolConfig := fun _ => none
  tranche := fun _ => none
  receipt := fun _ => none
  season := fun _ => none
  treasury := fun _ => none
  solvency := fun _ => none
  events := []

def requireAdmin (env : Env) (s : State) : Result Error Unit :=
  requireStored env s.admin .notInitialized

/-- No caller is authorized before governance configured the policy contract. -/
def requirePolicyContract (env : Env) (s : State) : Result Error Unit :=
  requireStored env s.policyContract .unauthorized

def requirePayoutVault (env : Env) (s : State) : Result Error Unit :=
  requireStored env s.payoutVault .unauthorized

def setPolicyContract (env : Env) (s : State) (policy : Address) : Result Error State := do
  requireAdmin env s
  return { s with policyContract := some policy }

def setPayoutVault (env : Env) (s : State) (vault : Address) : Result Error State := do
  requireAdmin env s
  return { s with payoutVault := some vault }

/-- The parameters that `create_pool` accepts. -/
def validateConfig (config : PoolConfig) : Result Error Unit := do
  failIf (config.regions=[] ∨ config.seasonLength=0) .invalidConfig
  failIf (config.premium.baseBps>10000 ∨ config.premium.coverageSlopeBps>10000) .invalidConfig
  failIf (config.tranche.juniorCap<0 ∨ config.tranche.seniorCap<0) .invalidConfig
  failIf (config.fee.protocolCap<0 ∨ config.fee.publisherCap<0) .invalidConfig
  failIf (config.fee.protocolBps>10000 ∨ config.fee.publisherBps>10000) .invalidConfig
  failIf (config.fee.protocolBps+config.fee.publisherBps>10000) .invalidConfig

def createPool (env : Env) (s : State) (config : PoolConfig) : Result Error (Nat × State) := do
  requireAdmin env s
  validateConfig config
  let id ← okOr (U64.checkedAdd (s.poolCount.getD 0) 1) .overflow
  let s := { s with poolCount := some id }
  let s := { s with poolConfig := Function.update s.poolConfig id (some config) }
  let s := s.writeTranche id .junior ⟨0,0⟩
  let s := s.writeTranche id .senior ⟨0,0⟩
  let s := s.writeSolvency id ⟨0,0⟩
  let s := s.writeTreasury id ⟨0,0⟩
  return (id,s.publish (.poolCreated id))

def mulDiv (a b denom : Int) : Option Int := do
  let p ← I128.checkedMul a b
  I128.checkedDiv p denom

def trancheCap (config : PoolConfig) : Tier → Int
  | .junior => config.tranche.juniorCap
  | .senior => config.tranche.seniorCap

/-- Receipts for a deposit: one to one into an empty tranche, else pro rata. -/
def mintedFor (tranche : TrancheState) (amount : Int) : Result Error Int :=
  if tranche.supply=0 then .ok amount
  else okOr (mulDiv amount tranche.supply tranche.deposited) .overflow

section Tokens

variable {L : Type} (T : TokenHost L) (self : Address)

def deposit (env : Env) (s : State) (l : L) (poolId : Nat) (tier : Tier) (src : Address)
    (amount : Int) : Result Error (Int × State × L) := do
  requireAuth env src
  failIf (amount≤0) .invalidAmount
  let config ← readConfig s poolId
  let cap := trancheCap config tier
  let tranche := readTranche s poolId tier
  let newDeposited ← okOr (I128.checkedAdd tranche.deposited amount) .overflow
  failIf (cap>0 ∧ newDeposited>cap) .trancheCapExceeded
  let minted ← mintedFor tranche amount
  failIf (minted≤0) .invalidAmount
  let l ← T.send l config.token src self amount
  let supply ← okOr (I128.checkedAdd tranche.supply minted) .overflow
  let s := s.writeTranche poolId tier ⟨newDeposited,supply⟩
  let newBalance ← okOr (I128.checkedAdd (readReceipt s poolId tier src) minted) .overflow
  let s := s.writeReceipt poolId tier src newBalance
  let solvency ← readSolvency s poolId
  let reserves ← okOr (I128.checkedAdd solvency.reserves amount) .overflow
  let s := s.writeSolvency poolId { solvency with reserves }
  return (minted,s.publish (.deposited poolId tier src amount minted),l)

def withdraw (env : Env) (s : State) (l : L) (poolId : Nat) (tier : Tier) (holder : Address)
    (receiptAmount : Int) : Result Error (Int × State × L) := do
  requireAuth env holder
  failIf (receiptAmount≤0) .invalidAmount
  let config ← readConfig s poolId
  let balance := readReceipt s poolId tier holder
  failIf (receiptAmount>balance) .insufficientReceipts
  let tranche := readTranche s poolId tier
  failIf (tranche.supply≤0) .insufficientReceipts
  let underlying ← okOr (mulDiv receiptAmount tranche.deposited tranche.supply) .overflow
  failIf (underlying≤0) .invalidAmount
  let solvency ← readSolvency s poolId
  failIf (tier=.senior ∧ solvency.committed>0) .trancheWithdrawBlocked
  failIf (underlying>solvency.reserves) .insufficientReserves
  let newReserves ← okOr (I128.checkedSub solvency.reserves underlying) .overflow
  failIf (newReserves<solvency.committed) .solvencyViolated
  let deposited ← okOr (I128.checkedSub tranche.deposited underlying) .overflow
  let supply ← okOr (I128.checkedSub tranche.supply receiptAmount) .overflow
  let s := s.writeTranche poolId tier ⟨deposited,supply⟩
  let newBalance ← okOr (I128.checkedSub balance receiptAmount) .overflow
  let s := s.writeReceipt poolId tier holder newBalance
  let s := s.writeSolvency poolId { solvency with reserves := newReserves }
  let l ← T.send l config.token self holder underlying
  return (underlying,s.publish (.withdrawn poolId tier holder receiptAmount underlying),l)

end Tokens

/-- The provisional premium curve, rounded up. -/
def computePremium (premium : PremiumParams) (coverage : Int) : Result Error Int := do
  failIf (coverage≤0) .invalidAmount
  let units := coverage.tdiv coverageUnit
  let slopeComponent ← okOr (I128.checkedMul premium.coverageSlopeBps units) .overflow
  let rateBps ← okOr (I128.checkedAdd premium.baseBps slopeComponent) .overflow
  okOr (do
    let n ← I128.checkedMul coverage rateBps
    let n ← I128.checkedAdd n (bpsDenominator-1)
    I128.checkedDiv n bpsDenominator) .overflow

def premiumFor (s : State) (poolId : Nat) (coverage : Int) : Result Error Int := do
  let config ← readConfig s poolId
  computePremium config.premium coverage

def openSeason (env : Env) (s : State) (poolId : Nat) : Result Error (Nat × State) := do
  requireAdmin env s
  let config ← readConfig s poolId
  let seasonId ← okOr (U64.checkedAdd ((s.seasonCount poolId).getD 0) 1) .overflow
  let s := { s with seasonCount := Function.update s.seasonCount poolId (some seasonId) }
  let openedAt := env.timestamp
  let closesAt ← okOr (U64.checkedAdd openedAt config.seasonLength) .overflow
  let season : Season := ⟨.opened,openedAt,closesAt,0,0,0⟩
  let s := s.writeSeason poolId seasonId season
  return (seasonId,s.publish (.seasonOpened poolId seasonId openedAt closesAt))

/-- A forward transition, rejected from any state other than `src`. -/
def transitionSeason (env : Env) (s : State) (poolId seasonId : Nat) (src dst : SeasonState) :
    Result Error State := do
  requireAdmin env s
  let season ← readSeason s poolId seasonId
  failIf (season.state≠src) .invalidSeasonState
  let s := s.writeSeason poolId seasonId { season with state := dst }
  return s.publish (.seasonStateChanged poolId seasonId dst)

def activateSeason (env : Env) (s : State) (poolId seasonId : Nat) : Result Error State :=
  transitionSeason env s poolId seasonId .opened .active

def closeSeason (env : Env) (s : State) (poolId seasonId : Nat) : Result Error State :=
  transitionSeason env s poolId seasonId .active .closed

/-- The fee on `amount`, clamped to the room left under the cap; a cap of zero is none. -/
def accrueFee (amount : Int) (bps : Nat) (accrued cap : Int) : Result Error Int := do
  let desired ← okOr (applyBps amount bps) .overflow
  if cap=0 then
    return desired
  else
    let room := max ((I128.checkedSub cap accrued).getD 0) 0
    return min desired room

section Tokens

variable {L : Type} (T : TokenHost L) (self : Address)

def collectPremium (env : Env) (s : State) (l : L) (poolId seasonId : Nat) (src : Address)
    (amount : Int) : Result Error (Int × State × L) := do
  requireAuth env src
  failIf (amount≤0) .invalidAmount
  let config ← readConfig s poolId
  let season ← readSeason s poolId seasonId
  failIf (season.state≠.opened ∧ season.state≠.active) .seasonNotOpen
  let treasury ← readTreasury s poolId
  let protocolFee ← accrueFee amount config.fee.protocolBps treasury.protocolFees
    config.fee.protocolCap
  let publisherFee ← accrueFee amount config.fee.publisherBps treasury.publisherFees
    config.fee.publisherCap
  let net ← okOr (do
    let v ← I128.checkedSub amount protocolFee
    I128.checkedSub v publisherFee) .overflow
  let l ← T.send l config.token src self amount
  let protocolFees ← okOr (I128.checkedAdd treasury.protocolFees protocolFee) .overflow
  let publisherFees ← okOr (I128.checkedAdd treasury.publisherFees publisherFee) .overflow
  let s := s.writeTreasury poolId ⟨protocolFees,publisherFees⟩
  let premiumsIn ← okOr (I128.checkedAdd season.premiumsIn net) .overflow
  let s := s.writeSeason poolId seasonId { season with premiumsIn }
  let solvency ← readSolvency s poolId
  let reserves ← okOr (I128.checkedAdd solvency.reserves net) .overflow
  let s := s.writeSolvency poolId { solvency with reserves }
  return (net,s.publish (.premiumCollected poolId seasonId src amount net protocolFee publisherFee),l)

def refundPremium (env : Env) (s : State) (l : L) (poolId seasonId : Nat) (dst : Address)
    (net : Int) : Result Error (Int × State × L) := do
  requirePolicyContract env s
  failIf (net≤0) .invalidAmount
  let config ← readConfig s poolId
  let season ← readSeason s poolId seasonId
  failIf (season.state≠.opened ∧ season.state≠.active) .seasonNotOpen
  failIf (net>season.premiumsIn) .invalidAmount
  let solvency ← readSolvency s poolId
  failIf (net>solvency.reserves) .insufficientReserves
  let newReserves ← okOr (I128.checkedSub solvency.reserves net) .overflow
  failIf (newReserves<solvency.committed) .solvencyViolated
  let premiumsIn ← okOr (I128.checkedSub season.premiumsIn net) .overflow
  let s := s.writeSeason poolId seasonId { season with premiumsIn }
  let s := s.writeSolvency poolId { solvency with reserves := newReserves }
  let l ← T.send l config.token self dst net
  return (net,s.publish (.premiumRefunded poolId seasonId dst net),l)

def payOut (env : Env) (s : State) (l : L) (poolId seasonId : Nat) (dst : Address)
    (amount : Int) : Result Error (Int × State × L) := do
  requirePayoutVault env s
  failIf (amount≤0) .invalidAmount
  let config ← readConfig s poolId
  let season ← readSeason s poolId seasonId
  failIf (season.state≠.active ∧ season.state≠.closed) .invalidSeasonState
  let solvency ← readSolvency s poolId
  failIf (amount>solvency.reserves) .insufficientReserves
  let newReserves ← okOr (I128.checkedSub solvency.reserves amount) .overflow
  failIf (newReserves<solvency.committed) .solvencyViolated
  let payoutsPaid ← okOr (I128.checkedAdd season.payoutsPaid amount) .overflow
  let s := s.writeSeason poolId seasonId { season with payoutsPaid }
  let s := s.writeSolvency poolId { solvency with reserves := newReserves }
  let l ← T.send l config.token self dst amount
  return (amount,s.publish (.payoutReleased poolId seasonId dst amount),l)

end Tokens

def creditJuniorSurplus (s : State) (poolId : Nat) (surplus : Int) : Result Error State := do
  let junior := readTranche s poolId .junior
  let deposited ← okOr (I128.checkedAdd junior.deposited surplus) .overflow
  return s.writeTranche poolId .junior { junior with deposited }

/-- Junior capital first, then senior; what is left beyond both stays unabsorbed. -/
def absorbLoss (s : State) (poolId : Nat) (loss : Int) : Result Error State := do
  let junior := readTranche s poolId .junior
  let fromJunior := min loss junior.deposited
  let deposited ← okOr (I128.checkedSub junior.deposited fromJunior) .overflow
  let s := s.writeTranche poolId .junior { junior with deposited }
  let remainder ← okOr (I128.checkedSub loss fromJunior) .overflow
  if remainder>0 then
    let senior := readTranche s poolId .senior
    let fromSenior := min remainder senior.deposited
    let deposited ← okOr (I128.checkedSub senior.deposited fromSenior) .overflow
    return s.writeTranche poolId .senior { senior with deposited }
  else
    return s

/-- The settlement waterfall for a signed season result. -/
def distribute (s : State) (poolId : Nat) (net : Int) : Result Error State :=
  if net>0 then creditJuniorSurplus s poolId net
  else if net<0 then do
    let loss ← okOr (I128.checkedNeg net) .overflow
    absorbLoss s poolId loss
  else .ok s

def settleSeason (env : Env) (s : State) (poolId seasonId : Nat) : Result Error (Int × State) := do
  requireAdmin env s
  let season ← readSeason s poolId seasonId
  failIf (season.state≠.closed) .invalidSeasonState
  let net ← okOr (I128.checkedSub season.premiumsIn season.payoutsPaid) .overflow
  let s ← distribute s poolId net
  let s := s.writeSeason poolId seasonId { season with state := .settled }
  return (net,s.publish (.seasonSettled poolId seasonId season.premiumsIn season.payoutsPaid net))

/-- The state-changing entry points with their arguments. -/
inductive Call where
  | setPolicyContract (policy : Address)
  | setPayoutVault (vault : Address)
  | createPool (config : PoolConfig)
  | deposit (poolId : Nat) (tier : Tier) (src : Address) (amount : Int)
  | withdraw (poolId : Nat) (tier : Tier) (holder : Address) (receiptAmount : Int)
  | openSeason (poolId : Nat)
  | activateSeason (poolId seasonId : Nat)
  | closeSeason (poolId seasonId : Nat)
  | collectPremium (poolId seasonId : Nat) (src : Address) (amount : Int)
  | refundPremium (poolId seasonId : Nat) (dst : Address) (net : Int)
  | payOut (poolId seasonId : Nat) (dst : Address) (amount : Int)
  | settleSeason (poolId seasonId : Nat)
  deriving DecidableEq, Repr

section Machine

variable {L : Type} (T : TokenHost L) (self : Address)

/-- One call of the contract, its return value dropped. -/
def invoke (env : Env) (c : Call) (s : State) (l : L) : Result Error (State × L) :=
  match c with
  | .setPolicyContract policy => (setPolicyContract env s policy).map fun s => (s,l)
  | .setPayoutVault vault => (setPayoutVault env s vault).map fun s => (s,l)
  | .createPool config => (createPool env s config).map fun r => (r.2,l)
  | .deposit p t src amount => (deposit T self env s l p t src amount).map fun r => r.2
  | .withdraw p t holder n => (withdraw T self env s l p t holder n).map fun r => r.2
  | .openSeason p => (openSeason env s p).map fun r => (r.2,l)
  | .activateSeason p i => (activateSeason env s p i).map fun s => (s,l)
  | .closeSeason p i => (closeSeason env s p i).map fun s => (s,l)
  | .collectPremium p i src amount =>
      (collectPremium T self env s l p i src amount).map fun r => r.2
  | .refundPremium p i dst net => (refundPremium T self env s l p i dst net).map fun r => r.2
  | .payOut p i dst amount => (payOut T self env s l p i dst amount).map fun r => r.2
  | .settleSeason p i => (settleSeason env s p i).map fun r => (r.2,l)

/-- A step of a run: a call, or the tests' direct write of a pool's committed figure. -/
inductive Action where
  | call (env : Env) (c : Call)
  | setCommitted (poolId : Nat) (committed : Int)
  deriving DecidableEq, Repr

/-- The commitment path that no function writes yet, within what the reserves cover. -/
def setCommitted (s : State) (poolId : Nat) (committed : Int) : Result Error State := do
  let solvency ← readSolvency s poolId
  failIf (committed<0 ∨ committed>solvency.reserves) .solvencyViolated
  return s.writeSolvency poolId { solvency with committed }

def machine : Machine (State × L) Action (Abort Error) where
  step
    | (s,l),.call env c => invoke T self env c s l
    | (s,l),.setCommitted p n => (setCommitted s p n).map fun s => (s,l)

end Machine

end Mvua.RiskPool
