import Mvua.RiskPool.Reachable

namespace Mvua.RiskPool

/-- What only the admin of the pools decides. -/
structure Settings where
  admin : Option Address
  policyContract : Option Address
  payoutVault : Option Address
  poolCount : Option Nat
  poolConfig : Nat → Option PoolConfig
  seasonCount : Nat → Option Nat
  schedule : Nat × Nat → Option (SeasonState × Nat × Nat)

def Season.schedule (z : Season) : SeasonState × Nat × Nat := (z.state,z.openedAt,z.closesAt)

def State.settings (s : State) : Settings where
  admin := s.admin
  policyContract := s.policyContract
  payoutVault := s.payoutVault
  poolCount := s.poolCount
  poolConfig := s.poolConfig
  seasonCount := s.seasonCount
  schedule k := (s.season k).map Season.schedule

section Calls

variable {L : Type} {T : TokenHost L} {self admin : Address} {env : Env} {s s' : State} {l l' : L}

/-- No entry point replaces the admin. -/
theorem invoke_admin {c : Call} (h : invoke T self env c s l=.ok (s',l')) : s'.admin=s.admin := by
  cases invoke_ran h with
  | setPolicyContract policy hu =>
    obtain ⟨-,rfl⟩ := setPolicyContract_ok hu
    rfl
  | setPayoutVault vault hu =>
    obtain ⟨-,rfl⟩ := setPayoutVault_ok hu
    rfl
  | createPool config p hu =>
    obtain ⟨-,-,-,rfl⟩ := createPool_ok hu
    rfl
  | deposit p t src n m hu =>
    obtain ⟨_,_,-,-,-,-,-,-,-,-,rfl⟩ := deposit_ok hu
    rfl
  | withdraw p t holder n m hu =>
    obtain ⟨_,_,-,-,-,-,-,-,-,-,-,-,-,-,rfl⟩ := withdraw_ok hu
    rfl
  | openSeason p i hu =>
    obtain ⟨_,-,-,-,rfl⟩ := openSeason_ok hu
    rfl
  | activateSeason p i hu | closeSeason p i hu =>
    obtain ⟨_,-,-,-,rfl⟩ := transitionSeason_ok hu
    rfl
  | collectPremium p i src n m hu =>
    obtain ⟨_,_,_,_,_,_,-,-,-,-,-,-,-,-,-,-,-,rfl⟩ := collectPremium_ok hu
    rfl
  | refundPremium p i dst n m hu =>
    obtain ⟨_,_,_,-,-,-,-,-,-,-,-,-,-,-,rfl⟩ := refundPremium_ok hu
    rfl
  | payOut p i dst n m hu =>
    obtain ⟨_,_,_,-,-,-,-,-,-,-,-,-,-,rfl⟩ := payOut_ok hu
    rfl
  | settleSeason p i net hu =>
    obtain ⟨_,_,-,-,-,-,hd,rfl⟩ := settleSeason_ok hu
    obtain ⟨f,rfl⟩ := distribute_frame hd
    rfl

/-- The figures of a season are no part of its schedule. -/
theorem schedule_update {k : Nat × Nat} {z y : Season} (hz : s.season k=some z)
    (hy : y.schedule=z.schedule) :
    (fun j => (Function.update s.season k (some y) j).map Season.schedule)=
      fun j => (s.season j).map Season.schedule := by
  funext j
  by_cases hj : j=k
  · subst hj
    rw [Function.update_self,hz,Option.map_some,Option.map_some,hy]
  · rw [Function.update_of_ne hj]

theorem invoke_settings {c : Call} (ha : s.admin=some admin) (hu : admin∉env.signers)
    (h : invoke T self env c s l=.ok (s',l')) : s'.settings=s.settings := by
  have denied : requireAdmin env s≠.ok () := fun h => hu ((requireStored_iff ha).mp h)
  cases invoke_ran h with
  | setPolicyContract policy hu => exact absurd (setPolicyContract_ok hu).1 denied
  | setPayoutVault vault hu => exact absurd (setPayoutVault_ok hu).1 denied
  | createPool config p hu => exact absurd (createPool_ok hu).1 denied
  | openSeason p i hu =>
    obtain ⟨c,-,hadmin,-⟩ := openSeason_ok hu
    exact absurd hadmin denied
  | activateSeason p i hu | closeSeason p i hu =>
    obtain ⟨z,-,hadmin,-⟩ := transitionSeason_ok hu
    exact absurd hadmin denied
  | settleSeason p i net hu =>
    obtain ⟨z,u,-,hadmin,-⟩ := settleSeason_ok hu
    exact absurd hadmin denied
  | deposit p t src n m hu =>
    obtain ⟨_,_,-,-,-,-,-,-,-,-,rfl⟩ := deposit_ok hu
    rfl
  | withdraw p t holder n m hu =>
    obtain ⟨_,_,-,-,-,-,-,-,-,-,-,-,-,-,rfl⟩ := withdraw_ok hu
    rfl
  | collectPremium p i src n m hu =>
    obtain ⟨_,z,_,_,_,_,-,hz,-,-,-,-,-,-,-,-,-,rfl⟩ := collectPremium_ok hu
    exact congrArg (fun f => { s.settings with schedule := f })
      (schedule_update (y := { z with premiumsIn := z.premiumsIn+m }) hz rfl)
  | refundPremium p i dst n m hu =>
    obtain ⟨_,z,_,-,hz,-,-,-,-,-,-,-,-,-,rfl⟩ := refundPremium_ok hu
    exact congrArg (fun f => { s.settings with schedule := f })
      (schedule_update (y := { z with premiumsIn := z.premiumsIn-n }) hz rfl)
  | payOut p i dst n m hu =>
    obtain ⟨_,z,_,-,hz,-,-,-,-,-,-,-,-,rfl⟩ := payOut_ok hu
    exact congrArg (fun f => { s.settings with schedule := f })
      (schedule_update (y := { z with payoutsPaid := z.payoutsPaid+n }) hz rfl)

end Calls

end Mvua.RiskPool
