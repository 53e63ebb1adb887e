import Mvua.Framework.Simulation
import Mvua.Policy.Lifecycle
import Mvua.Protocol.World

namespace Mvua.Protocol

section Signers

theorem filter_signers {env : Env} {p : Address → Bool} (h : ∀ a∈env.signers, p a=true) :
    ({ env with signers := env.signers.filter p } : Env)=env := by
  rw [List.filter_eq_self.mpr h]

variable (net : Network) (env : Env)

/-- Who signs from outside signs for the contracts of the market too, and so does the vault. -/
theorem market_outside : net.market.outside (net.outside env)=net.outside env := by
  apply filter_signers
  intro a ha
  obtain ⟨hpool,hpolicy,-⟩ := outside_ne ha
  exact decide_eq_true ⟨hpool,hpolicy⟩

theorem market_vault : net.market.outside ((net.outside env).invokedBy net.vault)=
    (net.outside env).invokedBy net.vault := by
  apply filter_signers
  intro a ha
  rcases List.mem_cons.mp ha with rfl | ha
  · exact decide_eq_true ⟨net.vault_ne.1,net.vault_ne.2.1⟩
  · obtain ⟨hpool,hpolicy,-⟩ := outside_ne ha
    exact decide_eq_true ⟨hpool,hpolicy⟩

/-- Who signs from outside signs for the contracts of the settlement too, and so does the policy
contract. -/
theorem settlement_outside : net.settlement.outside (net.outside env)=net.outside env := by
  apply filter_signers
  intro a ha
  obtain ⟨hpool,-,hengine,hvault⟩ := outside_ne ha
  exact decide_eq_true ⟨hpool,hengine,hvault⟩

theorem settlement_policy : net.settlement.outside ((net.outside env).invokedBy net.policy)=
    (net.outside env).invokedBy net.policy := by
  apply filter_signers
  intro a ha
  rcases List.mem_cons.mp ha with rfl | ha
  · exact decide_eq_true net.policy_ne
  · obtain ⟨hpool,-,hengine,hvault⟩ := outside_ne ha
    exact decide_eq_true ⟨hpool,hengine,hvault⟩

end Signers

section Wiring

/-- Only who signed the transaction, and the contracts themselves, sign for its sub-calls. -/
def Within (net : Network) (env env' : Env) : Prop :=
  ∀ a∈env'.signers, a∈env.signers ∨ a∈net.contracts

theorem within_outside (net : Network) (env : Env) : Within net env (net.outside env) := by
  intro a ha
  exact .inl (List.mem_filter.mp ha).1

theorem within_invokedBy {net : Network} {caller : Address} (env : Env) (h : caller∈net.contracts) :
    Within net env ((net.outside env).invokedBy caller) := by
  intro a ha
  rcases List.mem_cons.mp ha with rfl | ha
  · exact .inr h
  · exact within_outside net env a ha

variable {L : Type} (T : TokenHost L)
  (verify : BytesN 32 → OracleAdapter.ObservationPayload → BytesN 64 → Bool) (net : Network)

/-- The pool is told of no other policy contract or vault, and a batch draws on a pool in the
vault's token. -/
def Transaction.Wires (w : World L) : Transaction → Prop
  | .call (.riskPool (.setPolicyContract policy)) => policy=net.policy
  | .call (.riskPool (.setPayoutVault vault)) => vault=net.vault
  | .call (.vault (.payBatch _ _ p _ _)) =>
      (w.riskPool.poolConfig p).map RiskPool.PoolConfig.token=w.vault.token
  | _ => True

/-- What a transaction wires if it goes through; one that fails may ask for anything. -/
def Wired (w : World L) (a : Env × Transaction) : Prop :=
  ((machine T verify net).step w a).isOk → a.2.Wires net w

variable {T verify net} in
theorem wired {w : World L} {a : Env × Transaction} (h : a.2.Wires net w) :
    Wired T verify net w a := fun _ => h

end Wiring

section Steps

variable {L : Type} {T : TokenHost L}
  {verify : BytesN 32 → OracleAdapter.ObservationPayload → BytesN 64 → Bool} {net : Network}
  {env : Env}

/-- A call of the pool, as a transaction of the market. -/
theorem market_step {w : Policy.World L} {c : RiskPool.Call} {s' : RiskPool.State} {l' : L}
    (henv : net.market.outside env=env)
    (h : RiskPool.invoke T net.riskPool env c w.riskPool w.ledger=.ok (s',l')) :
    (Policy.market T net.market).step w (env,.call (.riskPool c))=
      .ok { w with riskPool := s', ledger := l' } := by
  change Policy.execute T net.market env w (.riskPool c)=_
  have hpool : RiskPool.invoke T net.market.riskPool env c w.riskPool w.ledger=.ok (s',l') := h
  simp only [Policy.execute,henv,hpool,subcall,Except.map]

/-- A call of the pool, as a transaction of the settlement. -/
theorem settlement_step {w : PayoutVault.World L} {c : RiskPool.Call} {s' : RiskPool.State}
    {l' : L} (henv : net.settlement.outside env=env)
    (h : RiskPool.invoke T net.riskPool env c w.riskPool w.ledger=.ok (s',l')) :
    (PayoutVault.settlement T net.settlement).step w (env,.call (.riskPool c))=
      .ok { w with riskPool := s', ledger := l' } := by
  change PayoutVault.execute T net.settlement env w (.riskPool c)=_
  have hpool : RiskPool.invoke T net.settlement.riskPool env c w.riskPool w.ledger=.ok (s',l') := h
  simp only [PayoutVault.execute,henv,hpool,subcall,Except.map]

/-- What the rounds of a batch do to the pool, as transactions of the market. -/
theorem payEntries_market {pool trigger : Address} {i n p z : Nat}
    {entries : List PayoutVault.PayoutEntry} {r r' : PayoutVault.BatchRun L} (s : Policy.State)
    (h : entries.foldlM (PayoutVault.payEntry T net.settlement (net.outside env) pool trigger i n p
      z) r=.ok r') :
    let N := Policy.market T net.market
    let v : Policy.World L := ⟨r.world.riskPool,s,r.world.ledger⟩
    ∃ bs, N.along (Policy.OnlyOwnPolicy T net.market) v bs ∧
      N.run v bs=⟨r'.world.riskPool,s,r'.world.ledger⟩ ∧
      ∀ b∈bs, b.1=(net.outside env).invokedBy net.vault := by
  induction entries generalizing r with
  | nil =>
    rw [List.foldlM_nil,pure_eq_ok] at h
    subst h
    exact ⟨[],trivial,rfl,List.forall_mem_nil _⟩
  | cons entry entries ih =>
    rw [List.foldlM_cons,bind_eq_ok] at h
    obtain ⟨r1,hentry,hrest⟩ := h
    rcases PayoutVault.payEntry_ok hentry with rfl |
      ⟨amount,m,s',l',-,-,-,-,hpay,-,hworld⟩
    · exact ih hrest
    · obtain ⟨bs,hq,hbs,henv⟩ := ih hrest
      rw [hworld] at hq hbs
      have hcall : RiskPool.invoke T net.riskPool ((net.outside env).invokedBy net.vault)
          (.payOut p z net.vault amount) r.world.riskPool r.world.ledger=.ok (s',l') := by
        have hpaid : RiskPool.payOut T net.riskPool ((net.outside env).invokedBy net.vault)
            r.world.riskPool r.world.ledger p z net.vault amount=.ok (m,s',l') := hpay
        simp only [RiskPool.invoke,hpaid,Except.map]
      have hstep := market_step (w := ⟨r.world.riskPool,s,r.world.ledger⟩)
        (market_vault net env) hcall
      refine ⟨((net.outside env).invokedBy net.vault,.call (.riskPool (.payOut p z net.vault
        amount)))::bs,⟨?_,?_⟩,?_,List.forall_mem_cons.mpr ⟨rfl,henv⟩⟩
      · intro policy w' he
        cases he
      · rw [Machine.next_of_ok _ hstep]
        exact hq
      · rw [Machine.run_cons,Machine.next_of_ok _ hstep]
        exact hbs

/-- A purchase, as the pool's share of it in the settlement. -/
theorem mintOne_settlement {rp owner payer : Address} {v v' : Policy.World L} {p z id : Nat}
    {terms : Policy.PolicyTerms} {maxPremium : Int} {metadata : BytesN 32}
    (s : TriggerEngine.State) (u : PayoutVault.State)
    (h : Policy.mintOne T net.market (net.outside env) rp v owner payer p z terms maxPremium
      metadata=.ok (id,v')) :
    ∃ b : Env × PayoutVault.Transaction, b.1=(net.outside env).invokedBy net.policy ∧
      PayoutVault.DrawsOwnToken T net.settlement ⟨v.riskPool,s,u,v.ledger⟩ b ∧
      (PayoutVault.settlement T net.settlement).step ⟨v.riskPool,s,u,v.ledger⟩ b=
        .ok ⟨v'.riskPool,s,u,v'.ledger⟩ := by
  obtain ⟨premium,m,s',l',-,-,-,-,hcollect,-,rfl⟩ := Policy.mintOne_ok h
  have hcall : RiskPool.invoke T net.riskPool ((net.outside env).invokedBy net.policy)
      (.collectPremium p z payer premium) v.riskPool v.ledger=.ok (s',l') := by
    have hpaid : RiskPool.collectPremium T net.riskPool ((net.outside env).invokedBy net.policy)
        v.riskPool v.ledger p z payer premium=.ok (m,s',l') := hcollect
    simp only [RiskPool.invoke,hpaid,Except.map]
  exact ⟨((net.outside env).invokedBy net.policy,.call (.riskPool (.collectPremium p z payer
    premium))),rfl,trivial,settlement_step (w := ⟨v.riskPool,s,u,v.ledger⟩)
    (settlement_policy net env) hcall⟩

theorem entries_settlement {rp payer : Address} {p z : Nat} {entries : List Policy.BatchEntry}
    {r r' : List Nat × Policy.World L} (s : TriggerEngine.State) (u : PayoutVault.State)
    (h : entries.foldlM (Policy.mintEntry T net.market (net.outside env) rp payer p z) r=.ok r') :
    let N := PayoutVault.settlement T net.settlement
    let v : PayoutVault.World L := ⟨r.2.riskPool,s,u,r.2.ledger⟩
    ∃ bs, N.along (PayoutVault.DrawsOwnToken T net.settlement) v bs ∧
      N.run v bs=⟨r'.2.riskPool,s,u,r'.2.ledger⟩ ∧
      ∀ b∈bs, b.1=(net.outside env).invokedBy net.policy := by
  induction entries generalizing r with
  | nil =>
    rw [List.foldlM_nil,pure_eq_ok] at h
    subst h
    exact ⟨[],trivial,rfl,List.forall_mem_nil _⟩
  | cons entry entries ih =>
    rw [List.foldlM_cons,bind_eq_ok] at h
    obtain ⟨r1,hentry,hrest⟩ := h
    obtain ⟨id,-,hm⟩ := Policy.mintEntry_ok hentry
    obtain ⟨b,hsigner,hb,hstep⟩ := mintOne_settlement s u hm
    obtain ⟨bs,hq,hbs,henv⟩ := ih hrest
    refine ⟨b::bs,⟨hb,?_⟩,?_,List.forall_mem_cons.mpr ⟨hsigner,henv⟩⟩
    · rw [Machine.next_of_ok _ hstep]
      exact hq
    · rw [Machine.run_cons,Machine.next_of_ok _ hstep]
      exact hbs

/-- What the vault does, as transactions of the market: the payments out of the pool by a batch,
and the transfer of a claim. -/
theorem vault_market {w : World L} {c : PayoutVault.Call} {v : PayoutVault.World L}
    (h : PayoutVault.invoke T net.settlement (net.outside env) w.settlement c=.ok v) :
    let N := Policy.market T net.market
    ∃ bs, N.along (Policy.OnlyOwnPolicy T net.market) w.market bs ∧
      N.run w.market bs=(w.withSettlement v).market ∧
      ∀ b∈bs, b.1=(net.outside env).invokedBy net.vault := by
  intro N
  cases c <;> simp only [PayoutVault.invoke,except_map_eq_ok,Prod.exists] at h
  case pause | unpause | closeBatch =>
    obtain ⟨u,-,rfl⟩ := h
    exact ⟨[],trivial,rfl,List.forall_mem_nil _⟩
  case payBatch i n p z entries =>
    obtain ⟨paid,_,hu,rfl⟩ := h
    obtain ⟨pool,trigger,r,-,-,hr,-,rfl⟩ := PayoutVault.payBatch_loop hu
    exact payEntries_market w.policy hr
  case claim owner =>
    obtain ⟨amount,_,hu,rfl⟩ := h
    simp only [PayoutVault.claim,bind_eq_ok,failIf_eq_ok,okOr_eq_ok,pure_eq_ok,
      TokenHost.send_eq_ok,Prod.mk.injEq] at hu
    obtain ⟨-,-,token,-,l',hl,-,rfl⟩ := hu
    have hsent : T.transfer w.market.ledger token net.vault owner
        (PayoutVault.readClaim w.settlement.vault owner)=some l' := hl
    have hstep : N.step w.market ((net.outside env).invokedBy net.vault,.transfer token net.vault
        owner (PayoutVault.readClaim w.settlement.vault owner))=.ok ⟨w.riskPool,w.policy,l'⟩ := by
      have hsigned : net.vault∈(net.market.outside ((net.outside env).invokedBy
          net.vault)).signers := by
        rw [market_vault]
        exact List.mem_cons_self
      simp only [N,Policy.market,if_pos hsigned,hsent]
      rfl
    refine ⟨[((net.outside env).invokedBy net.vault,.transfer token net.vault owner
      (PayoutVault.readClaim w.settlement.vault owner))],⟨trivial,trivial⟩,?_,by simp⟩
    rw [Machine.run_cons,N.next_of_ok hstep]
    rfl

/-- What the policy contract does, as transactions of the settlement: the pool's collections and
refunds of premiums. -/
theorem policy_settlement {w : World L} {c : Policy.Call} {v : Policy.World L}
    (h : Policy.invoke T net.market (net.outside env) w.market c=.ok v) :
    let N := PayoutVault.settlement T net.settlement
    ∃ bs, N.along (PayoutVault.DrawsOwnToken T net.settlement) w.settlement bs ∧
      N.run w.settlement bs=(w.withMarket v).settlement ∧
      ∀ b∈bs, b.1=(net.outside env).invokedBy net.policy := by
  intro N
  cases c <;> simp only [Policy.invoke,except_map_eq_ok,Prod.exists] at h
  case mint buyer p z terms maxPremium metadata =>
    obtain ⟨id,_,hu,rfl⟩ := h
    obtain ⟨rp,hm⟩ := Policy.mint_ok hu
    obtain ⟨b,hsigner,hb,hstep⟩ := mintOne_settlement w.triggerEngine w.vault hm
    refine ⟨[b],⟨hb,trivial⟩,?_,by simpa using hsigner⟩
    rw [Machine.run_cons]
    exact N.next_of_ok hstep
  case mintBatch payer p z entries =>
    obtain ⟨ids,_,hu,rfl⟩ := h
    simp only [Policy.mintBatch,bind_eq_ok,pure_eq_ok,Prod.exists,Prod.mk.injEq] at hu
    obtain ⟨-,-,-,-,rp,-,ids',w1,hm,-,rfl⟩ := hu
    exact entries_settlement w.triggerEngine w.vault hm
  case cancel id =>
    obtain ⟨refunded,_,hu,rfl⟩ := h
    obtain ⟨r,s',l',-,-,-,-,hrefund,rfl⟩ := Policy.cancel_ok hu
    have hcall : RiskPool.invoke T net.riskPool ((net.outside env).invokedBy net.policy)
        (.refundPremium r.poolId r.seasonId r.owner r.netReserved) w.settlement.riskPool
        w.settlement.ledger=.ok (s',l') := by
      have hrefunded : RiskPool.refundPremium T net.riskPool ((net.outside env).invokedBy
          net.policy) w.settlement.riskPool w.settlement.ledger r.poolId r.seasonId r.owner
          r.netReserved=.ok (refunded,s',l') := hrefund
      simp only [RiskPool.invoke,hrefunded,Except.map]
    have hstep := settlement_step (settlement_policy net env) hcall
    refine ⟨[((net.outside env).invokedBy net.policy,.call (.riskPool (.refundPremium r.poolId
      r.seasonId r.owner r.netReserved)))],⟨trivial,trivial⟩,?_,by simp⟩
    rw [Machine.run_cons]
    exact N.next_of_ok hstep
  all_goals
    obtain ⟨u,-,rfl⟩ := h
    exact ⟨[],trivial,rfl,List.forall_mem_nil _⟩

/-- The vault only reads the engine. -/
theorem vault_engine {w v : PayoutVault.World L} {net : PayoutVault.Network} {env : Env}
    {c : PayoutVault.Call} (h : PayoutVault.invoke T net env w c=.ok v) :
    v.triggerEngine=w.triggerEngine := by
  cases c <;> simp only [PayoutVault.invoke,except_map_eq_ok,Prod.exists] at h
  case pause | unpause | closeBatch =>
    obtain ⟨_,-,rfl⟩ := h
    rfl
  case payBatch i n p z entries =>
    obtain ⟨paid,_,hu,rfl⟩ := h
    obtain ⟨pool,trigger,r,-,-,hr,-,rfl⟩ := PayoutVault.payBatch_loop hu
    refine foldlM_invariant (fun r : PayoutVault.BatchRun L => r.world.triggerEngine=
      w.triggerEngine) ?_ entries _ r rfl hr
    intro r entry r' ht hpay
    rcases PayoutVault.payEntry_ok hpay with rfl | ⟨_,_,_,_,-,-,-,-,-,-,hw⟩
    · exact ht
    · rw [hw]
      exact ht
  case claim owner =>
    obtain ⟨amount,_,hu,rfl⟩ := h
    obtain ⟨-,l',rfl⟩ := PayoutVault.claim_ok hu
    rfl

variable {w w' : World L} {a : Env × Transaction}

/-- A transaction of the protocol is a run of the market, and one that wires only its own contracts
sets no other policy contract there. -/
theorem Step.market (h : Step T verify net w a w') :
    let N := Policy.market T net.market
    ∃ bs, N.run w.market bs=w'.market ∧ (∀ b∈bs, Within net a.1 b.1) ∧
      (a.2.Wires net w → N.along (Policy.OnlyOwnPolicy T net.market) w.market bs) := by
  intro N
  cases h with
  | riskPool env c s' l' hc =>
    have hstep := market_step (w := w.market) (market_outside net env) hc
    refine ⟨[(net.outside env,.call (.riskPool c))],?_,
      List.forall_mem_singleton.mpr (within_outside net env),fun hwires => ⟨?_,trivial⟩⟩
    · rw [Machine.run_cons]
      exact N.next_of_ok hstep
    · intro policy _ he _
      cases he
      exact hwires
  | policy env c v hc =>
    have hstep : N.step w.market (net.outside env,.call (.policy c))=.ok v := by
      change Policy.execute T net.market (net.outside env) w.market (.policy c)=_
      simp only [Policy.execute,market_outside,hc,subcall]
    refine ⟨[(net.outside env,.call (.policy c))],?_,
      List.forall_mem_singleton.mpr (within_outside net env),fun _ => ⟨?_,trivial⟩⟩
    · rw [Machine.run_cons]
      exact N.next_of_ok hstep
    · intro policy _ he
      cases he
  | oracle | triggerEngine => exact ⟨[],rfl,List.forall_mem_nil _,fun _ => trivial⟩
  | vault env c v hc =>
    obtain ⟨bs,hq,hbs,henv⟩ := vault_market hc
    refine ⟨bs,hbs,fun b hb => ?_,fun _ => hq⟩
    rw [henv b hb]
    exact within_invokedBy env (by simp [Network.contracts])
  | transfer env token src dst amount l' hsigned hl =>
    have hstep : N.step w.market (net.outside env,.transfer token src dst amount)=
        .ok ⟨w.riskPool,w.policy,l'⟩ := by
      have hsame : T.transfer w.market.ledger token src dst amount=some l' := hl
      simp only [N,Policy.market,market_outside,if_pos hsigned,hsame]
      rfl
    refine ⟨[(net.outside env,.transfer token src dst amount)],?_,
      List.forall_mem_singleton.mpr (within_outside net env),fun _ => ⟨trivial,trivial⟩⟩
    rw [Machine.run_cons]
    exact N.next_of_ok hstep

/-- A transaction of the protocol is a run of the settlement, and one that wires only its own
contracts draws on pools in the vault's token there. -/
theorem Step.settlement (h : Step T verify net w a w') :
    let N := PayoutVault.settlement T net.settlement
    ∃ bs, N.run w.settlement bs=w'.settlement ∧ (∀ b∈bs, Within net a.1 b.1) ∧
      (a.2.Wires net w → N.along (PayoutVault.DrawsOwnToken T net.settlement) w.settlement bs) := by
  intro N
  cases h with
  | riskPool env c s' l' hc =>
    have hstep := settlement_step (w := w.settlement) (settlement_outside net env) hc
    refine ⟨[(net.outside env,.call (.riskPool c))],?_,
      List.forall_mem_singleton.mpr (within_outside net env),fun _ => ⟨trivial,trivial⟩⟩
    rw [Machine.run_cons]
    exact N.next_of_ok hstep
  | policy env c v hc =>
    obtain ⟨bs,hq,hbs,henv⟩ := policy_settlement hc
    refine ⟨bs,hbs,fun b hb => ?_,fun _ => hq⟩
    rw [henv b hb]
    exact within_invokedBy env (by simp [Network.contracts])
  | oracle env c s' hc => exact ⟨[],rfl,List.forall_mem_nil _,fun _ => trivial⟩
  | triggerEngine env c s' hc =>
    have hstep : N.step w.settlement (net.outside env,.call (.triggerEngine
        (Feed.linked net.oracle (net.outside env) w.oracle c)))=
        .ok { w.settlement with triggerEngine := s' } := by
      change PayoutVault.execute T net.settlement (net.outside env) w.settlement (.triggerEngine
        (Feed.linked net.oracle (net.outside env) w.oracle c))=_
      have hsame : TriggerEngine.invoke (net.outside env) w.settlement.triggerEngine
          (Feed.linked net.oracle (net.outside env) w.oracle c)=.ok s' := hc
      simp only [PayoutVault.execute,settlement_outside,hsame,subcall,Except.map]
    refine ⟨[(net.outside env,.call (.triggerEngine
      (Feed.linked net.oracle (net.outside env) w.oracle c)))],?_,
      List.forall_mem_singleton.mpr (within_outside net env),fun _ => ⟨trivial,trivial⟩⟩
    rw [Machine.run_cons]
    exact N.next_of_ok hstep
  | vault env c v hc =>
    have hstep : N.step w.settlement (net.outside env,.call (.vault c))=.ok v := by
      change PayoutVault.execute T net.settlement (net.outside env) w.settlement (.vault c)=_
      simp only [PayoutVault.execute,settlement_outside,hc,subcall]
    refine ⟨[(net.outside env,.call (.vault c))],?_,
      List.forall_mem_singleton.mpr (within_outside net env),fun hwires => ⟨?_,trivial⟩⟩
    · rw [Machine.run_cons]
      exact N.next_of_ok hstep
    · cases c with
      | payBatch i n p z entries => exact fun _ _ => hwires
      | pause | unpause | closeBatch | claim => trivial
  | transfer env token src dst amount l' hsigned hl =>
    have hstep : N.step w.settlement (net.outside env,.transfer token src dst amount)=
        .ok { w.settlement with ledger := l' } := by
      have hsame : T.transfer w.settlement.ledger token src dst amount=some l' := hl
      simp only [N,PayoutVault.settlement,settlement_outside,if_pos hsigned,hsame]
    refine ⟨[(net.outside env,.transfer token src dst amount)],?_,
      List.forall_mem_singleton.mpr (within_outside net env),fun _ => ⟨trivial,trivial⟩⟩
    rw [Machine.run_cons]
    exact N.next_of_ok hstep

/-- A transaction of the protocol is at most one of the feed. -/
theorem Step.feed (h : Step T verify net w a w') :
    let N := Feed.machine verify net.oracle
    ∃ bs, N.run w.feed bs=w'.feed ∧ (∀ b∈bs, Within net a.1 b.1) ∧ bs.length≤1 := by
  intro N
  cases h with
  | oracle env c s' hc =>
    have hstep : N.step w.feed (net.outside env,.oracle c)=.ok ⟨s',w.triggerEngine⟩ := by
      have hsame : OracleAdapter.invoke verify (net.outside env) w.feed.oracle c=.ok s' := hc
      simp only [N,Feed.machine,Feed.execute,hsame,subcall,Except.map]
      rfl
    refine ⟨[(net.outside env,.oracle c)],?_,
      List.forall_mem_singleton.mpr (within_outside net env),le_rfl⟩
    rw [Machine.run_cons]
    exact N.next_of_ok hstep
  | triggerEngine env c s' hc =>
    have hstep : N.step w.feed (net.outside env,.engine c)=.ok ⟨w.oracle,s'⟩ := by
      have hsame : TriggerEngine.invoke (net.outside env) w.feed.engine
          (Feed.linked net.oracle (net.outside env) w.feed.oracle c)=.ok s' := hc
      simp only [N,Feed.machine,Feed.execute,hsame,subcall,Except.map]
      rfl
    refine ⟨[(net.outside env,.engine c)],?_,
      List.forall_mem_singleton.mpr (within_outside net env),le_rfl⟩
    rw [Machine.run_cons]
    exact N.next_of_ok hstep
  | riskPool | policy | transfer => exact ⟨[],rfl,List.forall_mem_nil _,Nat.zero_le _⟩
  | vault env c v hc =>
    refine ⟨[],?_,List.forall_mem_nil _,Nat.zero_le _⟩
    change w.feed=⟨w.oracle,v.triggerEngine⟩
    rw [vault_engine hc]
    rfl

end Steps

section Runs

variable {L : Type} (T : TokenHost L)
  (verify : BytesN 32 → OracleAdapter.ObservationPayload → BytesN 64 → Bool) (net : Network)

/-- Who signs in the round that a transaction makes for a part of the protocol. -/
def Signed {β : Type} (net : Network) (a : Env × Transaction) (round : List (Env × β)) : Prop :=
  ∀ b∈round, Within net a.1 b.1

theorem market_round (w : World L) (a : Env × Transaction) (w' : World L)
    (h : (machine T verify net).step w a=.ok w') : let N := Policy.market T net.market
    ∃ bs, N.run w.market bs=w'.market ∧ Signed net a bs ∧
      (Wired T verify net w a → N.along (Policy.OnlyOwnPolicy T net.market) w.market bs) := by
  obtain ⟨bs,hbs,hsigned,hq⟩ := (execute_step T verify net h).market
  exact ⟨bs,hbs,hsigned,fun hw => hq (hw (by rw [h]; rfl))⟩

theorem settlement_round (w : World L) (a : Env × Transaction) (w' : World L)
    (h : (machine T verify net).step w a=.ok w') :
    let N := PayoutVault.settlement T net.settlement
    ∃ bs, N.run w.settlement bs=w'.settlement ∧ Signed net a bs ∧ (Wired T verify net w a →
      N.along (PayoutVault.DrawsOwnToken T net.settlement) w.settlement bs) := by
  obtain ⟨bs,hbs,hsigned,hq⟩ := (execute_step T verify net h).settlement
  exact ⟨bs,hbs,hsigned,fun hw => hq (hw (by rw [h]; rfl))⟩

theorem feed_round (w : World L) (a : Env × Transaction) (w' : World L)
    (h : (machine T verify net).step w a=.ok w') : let N := Feed.machine verify net.oracle
    ∃ bs, N.run w.feed bs=w'.feed ∧ (Signed net a bs ∧ bs.length≤1) ∧
      (True → N.along (fun _ _ => True) w.feed bs) := by
  obtain ⟨bs,hbs,hround⟩ := (execute_step T verify net h).feed
  exact ⟨bs,hbs,hround,fun _ => Machine.along_of_forall _ (fun _ _ => trivial) _ bs⟩

theorem market_simulates : (Policy.market T net.market).Simulates (machine T verify net)
    World.market (Wired T verify net) (Policy.OnlyOwnPolicy T net.market) where
  step w a w' h := by
    obtain ⟨bs,hbs,-,hq⟩ := market_round T verify net w a w' h
    exact ⟨bs,hbs,hq⟩

theorem settlement_simulates : (PayoutVault.settlement T net.settlement).Simulates
    (machine T verify net) World.settlement (Wired T verify net)
    (PayoutVault.DrawsOwnToken T net.settlement) where
  step w a w' h := by
    obtain ⟨bs,hbs,-,hq⟩ := settlement_round T verify net w a w' h
    exact ⟨bs,hbs,hq⟩

/-- Every run of the five contracts is, seen from the policy contract and its pool, a run of these
two among other users; seen from the vault, a run of the vault, the pool and the engine; and seen
from the oracle adapter and the engine, a run of the feed. Each transaction makes one round of each
of these runs, in which nobody signs but who signed the transaction and the contracts, and after
every round they stand where the five contracts do. What is proved of the three runs holds of the
protocol, and if every transaction that goes through wires only the protocol's own contracts, then
so do they. -/
theorem run_projects (g : Genesis) (l : L) (transactions : List (Env × Transaction)) :
    let M := machine T verify net
    let start := deploy net g l
    let reached (k : Nat) := M.run start (transactions.take k)
    let wired := M.along (Wired T verify net) start transactions
    (∃ rounds, let N := Policy.market T net.market
      let v := Policy.deployWorld net.market g.poolAdmin g.policyAdmin l
      List.Forall₂ (Signed net) transactions rounds ∧
      (∀ k, let w := reached k
        N.run v (rounds.take k).flatten=⟨w.riskPool,w.policy,w.ledger⟩) ∧
      (wired → N.along (Policy.OnlyOwnPolicy T net.market) v rounds.flatten)) ∧
    (∃ rounds, let N := PayoutVault.settlement T net.settlement
      let v := PayoutVault.deployWorld net.settlement g.poolAdmin g.triggerAdmin g.vaultAdmin
        net.policy g.token l
      List.Forall₂ (Signed net) transactions rounds ∧
      (∀ k, let w := reached k
        N.run v (rounds.take k).flatten=⟨w.riskPool,w.triggerEngine,w.vault,w.ledger⟩) ∧
      (wired → N.along (PayoutVault.DrawsOwnToken T net.settlement) v rounds.flatten)) ∧
    ∃ rounds, let N := Feed.machine verify net.oracle
      let v := Feed.deployWorld g.oracleAdmin g.triggerAdmin
      List.Forall₂ (fun a bs => Signed net a bs ∧ bs.length≤1) transactions rounds ∧
      ∀ k, let w := reached k
        N.run v (rounds.take k).flatten=⟨w.oracle,w.triggerEngine⟩ := by
  intro M start reached wired
  have idle {β : Type} (a : Env × Transaction) : Signed (β := β) net a [] := List.forall_mem_nil _
  obtain ⟨rounds,hsigned,hfeed,-⟩ := Machine.run_rounds (fun a => ⟨idle a,Nat.zero_le 1⟩)
    (feed_round T verify net) transactions start
  exact ⟨Machine.run_rounds idle (market_round T verify net) transactions start,
    Machine.run_rounds idle (settlement_round T verify net) transactions start,
    rounds,hsigned,hfeed⟩

end Runs

section Sample

theorem drySeason_wired : (machine TokenHost.ledger OracleAdapter.signedAll plainNet).along
    (Wired TokenHost.ledger OracleAdapter.signedAll plainNet) plainWorld drySeason := by
  refine ⟨wired rfl,wired rfl,?_⟩
  refine ⟨wired trivial,wired trivial,wired trivial,wired trivial,wired trivial,?_⟩
  refine ⟨wired trivial,wired trivial,wired trivial,wired trivial,wired trivial,
    wired trivial,?_⟩
  refine ⟨wired trivial,wired trivial,wired trivial,wired trivial,wired trivial,
    wired trivial,wired trivial,wired trivial,wired trivial,?_⟩
  refine ⟨wired ?_,wired trivial,trivial⟩
  change Option.map RiskPool.PoolConfig.token _=_
  decide +kernel

/-- The market and the settlement of the dry season, with nobody else's contracts in them. -/
theorem run_projects_dry :
    let M := machine TokenHost.ledger OracleAdapter.signedAll plainNet
    let w := M.run (deploy plainNet plainGenesis RiskPool.plainFunds) drySeason
    (∃ rounds : List (List (Env × Policy.Transaction)),
      let N := Policy.market TokenHost.ledger plainNet.market
      let v := Policy.deployWorld plainNet.market ⟨0⟩ ⟨0⟩ RiskPool.plainFunds
      rounds.length=drySeason.length ∧ N.run v rounds.flatten=⟨w.riskPool,w.policy,w.ledger⟩ ∧
      N.along (Policy.OnlyOwnPolicy TokenHost.ledger plainNet.market) v rounds.flatten) ∧
    ∃ rounds : List (List (Env × PayoutVault.Transaction)),
      let N := PayoutVault.settlement TokenHost.ledger plainNet.settlement
      let v := PayoutVault.deployWorld plainNet.settlement ⟨0⟩ ⟨0⟩ ⟨0⟩ plainNet.policy ⟨9⟩
        RiskPool.plainFunds
      rounds.length=drySeason.length ∧
      N.run v rounds.flatten=⟨w.riskPool,w.triggerEngine,w.vault,w.ledger⟩ ∧
      N.along (PayoutVault.DrawsOwnToken TokenHost.ledger plainNet.settlement) v
        rounds.flatten := by
  intro M w
  obtain ⟨⟨market,hmarket,hsold,hown⟩,⟨settled,hsettled,hpaid,htoken⟩,-⟩ :=
    run_projects TokenHost.ledger OracleAdapter.signedAll plainNet plainGenesis RiskPool.plainFunds
      drySeason
  have hlast := hsold drySeason.length
  have hlast' := hpaid drySeason.length
  dsimp only at hlast hlast'
  rw [List.take_length,hmarket.length_eq,List.take_length] at hlast
  rw [List.take_length,hsettled.length_eq,List.take_length] at hlast'
  exact ⟨⟨market,hmarket.length_eq.symm,hlast,hown drySeason_wired⟩,
    settled,hsettled.length_eq.symm,hlast',htoken drySeason_wired⟩

end Sample

end Mvua.Protocol
