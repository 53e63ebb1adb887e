import Mvua.RiskPool.Contract
import Mvua.Math.Total
import Mvua.Math.Waterfall

namespace Mvua.RiskPool

/-- The books of one pool, apart from storage keys and calls. -/
@[ext] structure Book where
  deposited : Tier → Int
  supply : Tier → Int
  receipt : Tier → Address → Int
  seasons : Nat
  season : Nat → Option Season
  protocolFees : Int
  publisherFees : Int
  reserves : Int
  committed : Int

def Book.blank : Book where
  deposited := fun _ => 0
  supply := fun _ => 0
  receipt := fun _ _ => 0
  seasons := 0
  season := fun _ => none
  protocolFees := 0
  publisherFees := 0
  reserves := 0
  committed := 0

/-- What a successful call writes into the books of its pool. -/
inductive Entry where
  | deposit (tier : Tier) (holder : Address) (amount minted : Int)
  | withdraw (tier : Tier) (holder : Address) (receipts underlying : Int)
  | openSeason (season : Season)
  | advance (id : Nat) (dst : SeasonState)
  | premium (id : Nat) (gross protocolFee publisherFee : Int)
  | refund (id : Nat) (net : Int)
  | payout (id : Nat) (amount : Int)
  | settle (id : Nat)
  | commit (amount : Int)

def Season.net (z : Season) : Int := z.premiumsIn-z.payoutsPaid

namespace Book

def onSeason (b : Book) (id : Nat) (f : Season → Season) : Book :=
  { b with season := Function.update b.season id ((b.season id).map f) }

def onReceipt (b : Book) (tier : Tier) (holder : Address) (v : Int) : Book :=
  { b with
    receipt := Function.update b.receipt tier (Function.update (b.receipt tier) holder v) }

def onTranche (b : Book) (tier : Tier) (deposited supply : Int) : Book :=
  { b with
    deposited := Function.update b.deposited tier deposited
    supply := Function.update b.supply tier supply }

/-- Tranche capital after a season result: a surplus is junior's, a loss runs down the
waterfall. -/
def settled (b : Book) (net : Int) : Tier → Int
  | .junior =>
      if 0≤net then b.deposited .junior+net
      else b.deposited .junior-min (-net) (b.deposited .junior)
  | .senior =>
      if 0≤net then b.deposited .senior
      else b.deposited .senior-
        min (-net-min (-net) (b.deposited .junior)) (b.deposited .senior)

def netOf (b : Book) (id : Nat) : Int := ((b.season id).map Season.net).getD 0

def post (b : Book) : Entry → Book
  | .deposit tier holder amount minted =>
      let c := b.onTranche tier (b.deposited tier+amount) (b.supply tier+minted)
      let c := c.onReceipt tier holder (b.receipt tier holder+minted)
      { c with reserves := b.reserves+amount }
  | .withdraw tier holder receipts underlying =>
      let c := b.onTranche tier (b.deposited tier-underlying) (b.supply tier-receipts)
      let c := c.onReceipt tier holder (b.receipt tier holder-receipts)
      { c with reserves := b.reserves-underlying }
  | .openSeason season =>
      { b with
        seasons := b.seasons+1
        season := Function.update b.season (b.seasons+1) (some season) }
  | .advance id dst => b.onSeason id fun z => { z with state := dst }
  | .premium id gross protocolFee publisherFee =>
      let net := gross-protocolFee-publisherFee
      let c := b.onSeason id fun z => { z with premiumsIn := z.premiumsIn+net }
      { c with
        protocolFees := b.protocolFees+protocolFee
        publisherFees := b.publisherFees+publisherFee
        reserves := b.reserves+net }
  | .refund id net =>
      let c := b.onSeason id fun z => { z with premiumsIn := z.premiumsIn-net }
      { c with reserves := b.reserves-net }
  | .payout id amount =>
      let c := b.onSeason id fun z => { z with payoutsPaid := z.payoutsPaid+amount }
      { c with reserves := b.reserves-amount }
  | .settle id =>
      let c := b.onSeason id fun z => { z with state := .settled }
      { c with deposited := b.settled (b.netOf id) }
  | .commit amount => { b with committed := amount }

/-- The season `id` exists and is in one of two states. -/
def SeasonIn (b : Book) (id : Nat) (s t : SeasonState) : Prop :=
  ∃ z, b.season id=some z ∧ (z.state=s ∨ z.state=t)

end Book

/-- A season in a state before settlement is not settled. -/
theorem Book.SeasonIn.unsettled {b : Book} {id : Nat} {s t : SeasonState} (h : b.SeasonIn id s t)
    (hs : s≠.settled) (ht : t≠.settled) : ∃ z, b.season id=some z ∧ z.state≠.settled := by
  obtain ⟨z,hz,hst⟩ := h
  refine ⟨z,hz,?_⟩
  rcases hst with h | h
  · rw [h]; exact hs
  · rw [h]; exact ht

/-- The guards under which the contract makes an entry. -/
def Entry.Admits (config : PoolConfig) (b : Book) : Entry → Prop
  | .deposit tier _ amount minted =>
      0<amount ∧ 0 < minted ∧ (b.supply tier=0 → minted=amount) ∧
      (b.supply tier≠0 → b.deposited tier≠0 ∧
        minted=(amount*b.supply tier).tdiv (b.deposited tier)) ∧
      (0<trancheCap config tier → b.deposited tier+amount≤trancheCap config tier)
  | .withdraw tier holder receipts underlying =>
      0 < receipts ∧ receipts≤b.receipt tier holder ∧ 0<b.supply tier ∧ 0<underlying ∧
      underlying=(receipts*b.deposited tier).tdiv (b.supply tier) ∧
      (tier=.senior → b.committed≤0) ∧ underlying≤b.reserves ∧
      b.committed≤b.reserves-underlying
  | .openSeason season =>
      season.state=.opened ∧ season.premiumsIn=0 ∧ season.payoutsCommitted=0 ∧
      season.payoutsPaid=0
  | .advance id dst =>
      (b.SeasonIn id .opened .opened ∧ dst=.active) ∨ (b.SeasonIn id .active .active ∧ dst=.closed)
  | .premium id gross protocolFee publisherFee =>
      b.SeasonIn id .opened .active ∧ 0<gross ∧
      accrueFee gross config.fee.protocolBps b.protocolFees config.fee.protocolCap=
        .ok protocolFee ∧
      accrueFee gross config.fee.publisherBps b.publisherFees config.fee.publisherCap=
        .ok publisherFee
  | .refund id net =>
      b.SeasonIn id .opened .active ∧ 0<net ∧ (∀ z, b.season id=some z → net≤z.premiumsIn) ∧
      net≤b.reserves ∧ b.committed≤b.reserves-net
  | .payout id amount =>
      b.SeasonIn id .active .closed ∧ 0<amount ∧ amount≤b.reserves ∧
      b.committed≤b.reserves-amount
  | .settle id => b.SeasonIn id .closed .closed
  | .commit amount => 0≤amount ∧ amount≤b.reserves

/-- The books that the storage keeps for a pool. -/
def State.book (s : State) (poolId : Nat) : Book where
  deposited := fun t => (readTranche s poolId t).deposited
  supply := fun t => (readTranche s poolId t).supply
  receipt := fun t h => readReceipt s poolId t h
  seasons := (s.seasonCount poolId).getD 0
  season := fun i => s.season (poolId,i)
  protocolFees := ((s.treasury poolId).map TreasuryState.protocolFees).getD 0
  publisherFees := ((s.treasury poolId).map TreasuryState.publisherFees).getD 0
  reserves := ((s.solvency poolId).map SolvencyState.reserves).getD 0
  committed := ((s.solvency poolId).map SolvencyState.committed).getD 0

end Mvua.RiskPool
