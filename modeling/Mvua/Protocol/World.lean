import Mvua.Policy.Market
import Mvua.PayoutVault.Backing
import Mvua.Feed.World

namespace Mvua.Protocol

/-- The addresses at which the five contracts run. -/
structure Network where
  riskPool : Address
  policy : Address
  oracle : Address
  triggerEngine : Address
  vault : Address
  distinct : [riskPool,policy,oracle,triggerEngine,vault].Nodup

namespace Network

variable (net : Network)

def contracts : List Address :=
  [net.riskPool,net.policy,net.oracle,net.triggerEngine,net.vault]

/-- The policy contract and its pool. -/
def market : Policy.Network := ⟨net.riskPool,net.policy⟩

/-- The vault with the two contracts that it calls. -/
def settlement : PayoutVault.Network := ⟨net.riskPool,net.triggerEngine,net.vault⟩

/-- Outside a sub-call no contract is authorized for itself. -/
def outside (env : Env) : Env :=
  { env with signers := env.signers.filter fun a => a∉net.contracts }

end Network

/-- The storage of the five contracts and the token ledger. -/
structure World (L : Type) where
  riskPool : RiskPool.State
  policy : Policy.State
  oracle : OracleAdapter.State
  triggerEngine : TriggerEngine.State
  vault : PayoutVault.State
  ledger : L

namespace World

variable {L : Type} (w : World L)

def market : Policy.World L := ⟨w.riskPool,w.policy,w.ledger⟩

def settlement : PayoutVault.World L := ⟨w.riskPool,w.triggerEngine,w.vault,w.ledger⟩

def feed : Feed.World := ⟨w.oracle,w.triggerEngine⟩

def withMarket (v : Policy.World L) : World L :=
  { w with riskPool := v.riskPool, policy := v.policy, ledger := v.ledger }

def withSettlement (v : PayoutVault.World L) : World L :=
  { w with
    riskPool := v.riskPool
    triggerEngine := v.triggerEngine
    vault := v.vault
    ledger := v.ledger }

end World

/-- A top-level call of one of the five contracts. -/
inductive Call where
  | riskPool (c : RiskPool.Call)
  | policy (c : Policy.Call)
  | oracle (c : OracleAdapter.Call)
  | triggerEngine (c : TriggerEngine.Call)
  | vault (c : PayoutVault.Call)

/-- A call of a contract, or a token transfer that its sender signed. -/
inductive Transaction where
  | call (c : Call)
  | transfer (token src dst : Address) (amount : Int)

section Machine

variable {L : Type} (T : TokenHost L)
  (verify : BytesN 32 → OracleAdapter.ObservationPayload → BytesN 64 → Bool) (net : Network)

/-- Each contract reaches the others by its own sub-calls: the policy contract its pool, the vault
the pool and the engine, and the engine the oracle adapter. -/
def invoke (env : Env) (w : World L) : Call → Except Trap (World L)
  | .riskPool c =>
      (subcall RiskPool.Error.code (RiskPool.invoke T net.riskPool env c w.riskPool w.ledger)).map
        fun r => { w with riskPool := r.1, ledger := r.2 }
  | .policy c =>
      (subcall Policy.Error.code (Policy.invoke T net.market env w.market c)).map w.withMarket
  | .oracle c =>
      (subcall OracleAdapter.Error.code (OracleAdapter.invoke verify env w.oracle c)).map
        fun s => { w with oracle := s }
  | .triggerEngine c =>
      (subcall TriggerEngine.Error.code (TriggerEngine.invoke env w.triggerEngine
        (Feed.linked net.oracle env w.oracle c))).map fun s => { w with triggerEngine := s }
  | .vault c =>
      (subcall PayoutVault.Error.code (PayoutVault.invoke T net.settlement env w.settlement c)).map
        w.withSettlement

/-- Transactions against the five contracts and their tokens, in any order and at any time. -/
def machine : Machine (World L) (Env × Transaction) Trap where
  step
    | w,(env,.call c) => invoke T verify net (net.outside env) w c
    | w,(env,.transfer token src dst amount) =>
        if src∈(net.outside env).signers then
          match T.transfer w.ledger token src dst amount with
          | some ledger => .ok { w with ledger }
          | none => .error .host
        else .error .auth

/-- Who governs each contract, and the token that the vault settles in. -/
structure Genesis where
  poolAdmin : Address
  policyAdmin : Address
  oracleAdmin : Address
  triggerAdmin : Address
  vaultAdmin : Address
  token : Address

/-- The five contracts right after deployment, wired to each other. -/
def deploy (g : Genesis) (l : L) : World L where
  riskPool := RiskPool.deploy g.poolAdmin
  policy := Policy.deploy g.policyAdmin net.riskPool
  oracle := OracleAdapter.deploy g.oracleAdmin
  triggerEngine := TriggerEngine.deploy g.triggerAdmin
  vault := PayoutVault.deploy g.vaultAdmin net.riskPool net.policy net.triggerEngine g.token
  ledger := l

end Machine

section Signers

variable {net : Network} {env : Env}

/-- No contract signs for itself from outside. -/
theorem mem_outside {a : Address} (h : a∈(net.outside env).signers) : a∉net.contracts := by
  simp only [Network.outside,List.mem_filter,decide_eq_true_eq] at h
  exact h.2

theorem Network.vault_ne (net : Network) : net.vault≠net.riskPool ∧ net.vault≠net.policy ∧
    net.vault≠net.triggerEngine := by
  have hne := net.distinct
  simp only [List.nodup_cons,List.mem_cons,not_or] at hne
  exact ⟨Ne.symm hne.1.2.2.2.1,Ne.symm hne.2.1.2.2.1,Ne.symm hne.2.2.2.1.1⟩

theorem Network.policy_ne (net : Network) : net.policy≠net.riskPool ∧
    net.policy≠net.triggerEngine ∧ net.policy≠net.vault := by
  have hne := net.distinct
  simp only [List.nodup_cons,List.mem_cons,not_or] at hne
  exact ⟨Ne.symm hne.1.1,hne.2.1.2.1,hne.2.1.2.2.1⟩

theorem outside_ne {a : Address} (h : a∈(net.outside env).signers) :
    a≠net.riskPool ∧ a≠net.policy ∧ a≠net.triggerEngine ∧ a≠net.vault := by
  have hout := mem_outside h
  simp only [Network.contracts,List.mem_cons,not_or] at hout
  exact ⟨hout.1,hout.2.1,hout.2.2.2.1,hout.2.2.2.2.1⟩

end Signers

section Steps

variable {L : Type} (T : TokenHost L)
  (verify : BytesN 32 → OracleAdapter.ObservationPayload → BytesN 64 → Bool) (net : Network)

/-- The call that a successful transaction ran, with what it left. -/
inductive Step (w : World L) : Env × Transaction → World L → Prop where
  | riskPool (env : Env) (c : RiskPool.Call) (s' : RiskPool.State) (l' : L)
      (h : RiskPool.invoke T net.riskPool (net.outside env) c w.riskPool w.ledger=.ok (s',l')) :
      Step w (env,.call (.riskPool c)) { w with riskPool := s', ledger := l' }
  | policy (env : Env) (c : Policy.Call) (v : Policy.World L)
      (h : Policy.invoke T net.market (net.outside env) w.market c=.ok v) :
      Step w (env,.call (.policy c)) (w.withMarket v)
  | oracle (env : Env) (c : OracleAdapter.Call) (s' : OracleAdapter.State)
      (h : OracleAdapter.invoke verify (net.outside env) w.oracle c=.ok s') :
      Step w (env,.call (.oracle c)) { w with oracle := s' }
  | triggerEngine (env : Env) (c : TriggerEngine.Call) (s' : TriggerEngine.State)
      (h : TriggerEngine.invoke (net.outside env) w.triggerEngine
        (Feed.linked net.oracle (net.outside env) w.oracle c)=.ok s') :
      Step w (env,.call (.triggerEngine c)) { w with triggerEngine := s' }
  | vault (env : Env) (c : PayoutVault.Call) (v : PayoutVault.World L)
      (h : PayoutVault.invoke T net.settlement (net.outside env) w.settlement c=.ok v) :
      Step w (env,.call (.vault c)) (w.withSettlement v)
  | transfer (env : Env) (token src dst : Address) (amount : Int) (l' : L)
      (signed : src∈(net.outside env).signers)
      (h : T.transfer w.ledger token src dst amount=some l') :
      Step w (env,.transfer token src dst amount) { w with ledger := l' }

theorem execute_step {w w' : World L} {a : Env × Transaction}
    (h : (machine T verify net).step w a=.ok w') : Step T verify net w a w' := by
  obtain ⟨env,a⟩ := a
  cases a with
  | transfer token src dst amount =>
    simp only [machine] at h
    split_ifs at h with hsigned
    cases hl : T.transfer w.ledger token src dst amount with
    | none => simp [hl] at h
    | some l' =>
      simp only [hl,Except.ok.injEq] at h
      subst h
      exact .transfer env token src dst amount l' hsigned hl
  | call c =>
    change invoke T verify net (net.outside env) w c=.ok w' at h
    cases c <;> simp only [invoke,except_map_eq_ok,subcall_eq_ok,Prod.exists] at h
    case riskPool c =>
      obtain ⟨s',l',hc,rfl⟩ := h
      exact .riskPool env c s' l' hc
    case policy c =>
      obtain ⟨v,hc,rfl⟩ := h
      exact .policy env c v hc
    case oracle c =>
      obtain ⟨s',hc,rfl⟩ := h
      exact .oracle env c s' hc
    case triggerEngine c =>
      obtain ⟨s',hc,rfl⟩ := h
      exact .triggerEngine env c s' hc
    case vault c =>
      obtain ⟨v,hc,rfl⟩ := h
      exact .vault env c v hc

variable {T verify net} in
/-- What ran, the machine runs. -/
theorem Step.executes {w w' : World L} {a : Env × Transaction} (h : Step T verify net w a w') :
    (machine T verify net).step w a=.ok w' := by
  cases h with
  | transfer env token src dst amount l' hsigned hl => simp [machine,hsigned,hl]
  | riskPool env c s' l' hc =>
    change invoke T verify net (net.outside env) w (.riskPool c)=_
    simp only [invoke,hc,subcall,Except.map]
  | policy env c v hc =>
    change invoke T verify net (net.outside env) w (.policy c)=_
    simp only [invoke,hc,subcall,Except.map]
  | oracle env c s' hc =>
    change invoke T verify net (net.outside env) w (.oracle c)=_
    simp only [invoke,hc,subcall,Except.map]
  | triggerEngine env c s' hc =>
    change invoke T verify net (net.outside env) w (.triggerEngine c)=_
    simp only [invoke,hc,subcall,Except.map]
  | vault env c v hc =>
    change invoke T verify net (net.outside env) w (.vault c)=_
    simp only [invoke,hc,subcall,Except.map]

end Steps

section Sample

def plainNet : Network := ⟨⟨10⟩,⟨20⟩,⟨30⟩,⟨11⟩,⟨12⟩,by decide⟩

def plainGenesis : Genesis := ⟨⟨0⟩,⟨0⟩,⟨0⟩,⟨0⟩,⟨0⟩,⟨9⟩⟩

def plainWorld : World (Address → Address → Int) := deploy plainNet plainGenesis RiskPool.plainFunds

/-- The admin of all five contracts. -/
def adminAt (timestamp : Nat) : Env := ⟨timestamp,[⟨0⟩]⟩

/-- The contracts are wired, a pool opens a season, and three publishers are registered. -/
def setUp : List (Env × Transaction) := [
  (adminAt 0,.call (.riskPool (.setPolicyContract ⟨20⟩))),
  (adminAt 0,.call (.riskPool (.setPayoutVault ⟨12⟩))),
  (adminAt 0,.call (.riskPool (.createPool Policy.feeConfig))),
  (RiskPool.plainEnv,.call (.riskPool (.deposit 1 .junior ⟨3⟩ 500))),
  (adminAt 1000,.call (.riskPool (.openSeason 1))),
  (adminAt 1000,.call (.triggerEngine (.createIndex TriggerEngine.dryIndex))),
  (adminAt 1000,.call (.triggerEngine (.setOracle ⟨30⟩)))]++
  OracleAdapter.threePublishers.map fun a => (a.1,.call (.oracle a.2))

/-- A day recorded from what the oracle adapter says, in window 7. -/
def recordDay (day : Nat) : Env × Transaction :=
  (adminAt 1000000,.call (.triggerEngine
    (.recordDayFromOracle 0 7 day fun _ _ _ => .error .host)))

/-- Two certificates are bought, their window is dry, and one payout reaches its owner. -/
def drySeason : List (Env × Transaction) := setUp++[
  (RiskPool.plainEnv,.call (.policy (.mintBatch ⟨3⟩ 1 1
    [⟨⟨6⟩,Policy.laterTerms,100,0⟩,⟨⟨7⟩,Policy.laterTerms,100,0⟩]))),
  (adminAt 1000,.call (.riskPool (.activateSeason 1 1))),
  (⟨1000000,[]⟩,.call (.oracle (OracleAdapter.sampleSubmit 999001 0 1).2)),
  (⟨1000000,[]⟩,.call (.oracle (OracleAdapter.sampleSubmit 999001 5 2).2)),
  (⟨1000000,[]⟩,.call (.oracle (OracleAdapter.sampleSubmit 999001 0 3).2)),
  recordDay 1,recordDay 2,
  (⟨1000000,[]⟩,.call (.triggerEngine (.evaluate 0 7))),
  (adminAt 1086400,.call (.triggerEngine (.finalize 0 7))),
  (adminAt 1086400,.call (.vault (.payBatch 0 7 1 1 [⟨1,⟨6⟩,60⟩,⟨2,⟨7⟩,30⟩]))),
  (⟨1086400,[]⟩,.call (.vault (.claim ⟨6⟩)))]

end Sample

end Mvua.Protocol
