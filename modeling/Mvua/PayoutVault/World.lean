import Mvua.PayoutVault.Contract
import Mvua.RiskPool.Reachable
import Mvua.TriggerEngine.Lifecycle

namespace Mvua.PayoutVault

/-- No pool has committed funds: no entry point of the pool contract writes the figure. -/
def Uncommitted (s : RiskPool.State) : Prop := ∀ p, (s.book p).committed=0

/-- The invariant of the three contracts together. -/
structure World.Sound {L : Type} (net : Network) (w : World L) : Prop where
  pools : w.riskPool.WellFormed
  uncommitted : Uncommitted w.riskPool
  triggers : w.triggerEngine.Sound
  poolRef : w.vault.poolRef=some net.riskPool
  triggerRef : w.vault.triggerRef=some net.triggerEngine

theorem Uncommitted.posts {s s' : RiskPool.State} {p : Nat} {e : RiskPool.Entry}
    (h : Uncommitted s) (hp : s.Posts s' p e) (he : ∀ n, e≠.commit n) : Uncommitted s' := by
  intro q
  by_cases hq : q=p
  · subst q
    rw [hp.book]
    cases e with
    | commit n => exact absurd rfl (he n)
    | _ => exact h p
  · rw [hp.frame q hq]
    exact h q

section Steps

variable {L : Type} {T : TokenHost L} {net : Network} {env : Env}

/-- The pool part of the invariant is kept by every call of the pool contract. -/
theorem riskPool_invoke_sound {s s' : RiskPool.State} {l l' : L} {self : Address}
    {c : RiskPool.Call} (hw : s.WellFormed) (hu : Uncommitted s)
    (h : RiskPool.invoke T self env c s l=.ok (s',l')) : s'.WellFormed ∧ Uncommitted s' := by
  have hstep : (RiskPool.machine T self).step (s,l) (.call env c)=.ok (s',l') := h
  refine ⟨RiskPool.step_wellFormed T self hw hstep,?_⟩
  rcases RiskPool.step_cases T self hw hstep with ⟨hk,-⟩ | ⟨p,e,hm,hp⟩
  · intro q
    rw [hk.book]
    exact hu q
  · apply hu.posts hp
    intro n he
    subst he
    cases hm

/-- No contract signs for itself from outside. -/
theorem signer_outside {a : Address} (h : a∈(net.outside env).signers) :
    a≠net.riskPool ∧ a≠net.triggerEngine ∧ a≠net.vault := by
  simp only [Network.outside,List.mem_filter,decide_eq_true_eq] at h
  exact h.2

theorem World.Sound.congr {w w' : World L} (hs : w.Sound net) (hpool : w'.riskPool=w.riskPool)
    (htrigger : w'.triggerEngine=w.triggerEngine) (hpoolRef : w'.vault.poolRef=w.vault.poolRef)
    (htriggerRef : w'.vault.triggerRef=w.vault.triggerRef) : w'.Sound net := by
  refine ⟨?_,?_,?_,hpoolRef.trans hs.poolRef,htriggerRef.trans hs.triggerRef⟩
  · rw [hpool]
    exact hs.pools
  · rw [hpool]
    exact hs.uncommitted
  · rw [htrigger]
    exact hs.triggers

theorem callPayOut_ok {pool dst : Address} {w w' : World L} {p z : Nat} {amount : Int}
    (h : callPayOut T net env pool w p z dst amount=.ok w') :
    ∃ m s' l', w'={ w with riskPool := s', ledger := l' } ∧
      RiskPool.payOut T net.riskPool (env.invokedBy net.vault) w.riskPool w.ledger p z dst amount=
        .ok (m,s',l') := by
  unfold callPayOut at h
  split_ifs at h
  cases hr : RiskPool.payOut T net.riskPool (env.invokedBy net.vault) w.riskPool w.ledger p z dst
      amount with
  | ok r =>
    obtain ⟨m,s',l'⟩ := r
    simp only [hr,subcall,Except.map,Except.ok.injEq] at h
    exact ⟨m,s',l',h.symm,rfl⟩
  | error e =>
    cases e <;> simp [hr,subcall,Except.map] at h

theorem callPayoutFor_ok {trigger : Address} {w : World L} {i n : Nat} {coverage amount : Int}
    (h : callPayoutFor net trigger w i n coverage=.ok amount) :
    TriggerEngine.payoutFor w.triggerEngine i n coverage=.ok amount := by
  unfold callPayoutFor at h
  split_ifs at h
  exact (subcall_eq_ok _ _ _).mp h

/-- The storage of the vault after it paid an entry. -/
def State.credit (s : State) (env : Env) (entry : PayoutEntry) (amount : Int) : State :=
  ((s.writeClaim entry.owner (readClaim s entry.owner+amount)).writePayout entry.policyId
    ⟨entry.owner,amount,env.timestamp⟩).publish
    (.payoutRecorded entry.policyId entry.owner amount)

/-- A round of the loop skips a policy that was paid before or for which the window pays nothing,
or it pays the policy. -/
theorem payEntry_cases {pool trigger : Address} {i n p z : Nat} {r r' : BatchRun L}
    {entry : PayoutEntry} (h : payEntry T net env pool trigger i n p z r entry=.ok r') :
    r'=r ∧ (r.world.vault.payout entry.policyId).isSome ∨
    ∃ amount, 0<entry.coverage ∧
      TriggerEngine.payoutFor r.world.triggerEngine i n entry.coverage=.ok amount ∧
      (r'=r ∧ amount≤0 ∨ ∃ m s' l', r.world.vault.payout entry.policyId=none ∧ 0<amount ∧
        RiskPool.payOut T net.riskPool (env.invokedBy net.vault) r.world.riskPool r.world.ledger p
          z net.vault amount=.ok (m,s',l') ∧
        r'=⟨⟨s',r.world.triggerEngine,r.world.vault.credit env entry amount,l'⟩,
          { r.progress with
            totalDisbursed := r.progress.totalDisbursed+amount
            policiesPaid := r.progress.policiesPaid+1 },r.paid+1⟩) := by
  unfold payEntry at h
  split_ifs at h with hpaid
  · rw [pure_eq_ok] at h
    exact .inl ⟨h.symm,hpaid⟩
  · simp only [bind_eq_ok,failIf_eq_ok,liftTrap_eq_ok] at h
    obtain ⟨-,hcov,amount,hamount,h⟩ := h
    have hcoverage : 0<entry.coverage := by omega
    refine .inr ⟨amount,hcoverage,callPayoutFor_ok hamount,?_⟩
    split_ifs at h with hzero
    · rw [pure_eq_ok] at h
      exact .inl ⟨h.symm,hzero⟩
    · simp only [bind_eq_ok,liftTrap_eq_ok,okOr_eq_ok,Signed.checkedAdd_eq_some,U32.increment,
        orTrap_eq_ok,Unsigned.checkedAdd_eq_some,pure_eq_ok] at h
      obtain ⟨w,hw,_,⟨-,rfl⟩,_,⟨-,rfl⟩,_,⟨-,rfl⟩,_,⟨-,rfl⟩,rfl⟩ := h
      obtain ⟨m,s',l',rfl,hpay⟩ := callPayOut_ok hw
      have hunpaid : r.world.vault.payout entry.policyId=none := by simpa using hpaid
      have hpositive : 0<amount := by omega
      exact .inr ⟨m,s',l',hunpaid,hpositive,hpay,rfl⟩

/-- A round of the loop pays its entry, or does nothing. -/
theorem payEntry_ok {pool trigger : Address} {i n p z : Nat} {r r' : BatchRun L}
    {entry : PayoutEntry} (h : payEntry T net env pool trigger i n p z r entry=.ok r') :
    r'=r ∨ ∃ amount m s' l', r.world.vault.payout entry.policyId=none ∧ 0<entry.coverage ∧
      0<amount ∧ TriggerEngine.payoutFor r.world.triggerEngine i n entry.coverage=.ok amount ∧
      RiskPool.payOut T net.riskPool (env.invokedBy net.vault) r.world.riskPool r.world.ledger p z
        net.vault amount=.ok (m,s',l') ∧
      r'.progress={ r.progress with
        totalDisbursed := r.progress.totalDisbursed+amount
        policiesPaid := r.progress.policiesPaid+1 } ∧
      r'.world=⟨s',r.world.triggerEngine,r.world.vault.credit env entry amount,l'⟩ := by
  rcases payEntry_cases h with ⟨hr,-⟩ | ⟨amount,hcov,hamount,⟨hr,-⟩ | ⟨m,s',l',hnone,hpos,hpay,hr⟩⟩
  · exact .inl hr
  · exact .inl hr
  · subst hr
    exact .inr ⟨amount,m,s',l',hnone,hcov,hpos,hamount,hpay,rfl,rfl⟩

theorem payEntry_sound {pool trigger : Address} {i n p z : Nat} {r r' : BatchRun L}
    {entry : PayoutEntry} (hs : r.world.Sound net)
    (h : payEntry T net env pool trigger i n p z r entry=.ok r') : r'.world.Sound net := by
  rcases payEntry_ok h with rfl | ⟨amount,m,s',l',-,-,-,-,hpay,-,hw⟩
  · exact hs
  · rw [hw]
    have hp := RiskPool.payOut_posts hpay
    exact ⟨hp.wellFormed hs.pools,hs.uncommitted.posts hp nofun,hs.triggers,hs.poolRef,
      hs.triggerRef⟩

/-- The progress that a batch writes at its end. -/
def BatchRun.checkpoint (r : BatchRun L) : BatchProgress :=
  if r.paid>0 then { r.progress with state := .inProgress } else r.progress

/-- A batch is its loop, with the checkpoint written afterwards. -/
theorem payBatch_loop {w w' : World L} {i n p z paid : Nat} {entries : List PayoutEntry}
    (h : payBatch T net env w i n p z entries=.ok (paid,w')) :
    ∃ pool trigger r, w.vault.poolRef=some pool ∧ w.vault.triggerRef=some trigger ∧
      entries.foldlM (payEntry T net env pool trigger i n p z) ⟨w,readBatch w.vault i n,0⟩=
        .ok r ∧ paid=r.paid ∧
      w'={ r.world with vault := r.world.vault.writeBatch i n r.checkpoint } := by
  simp only [payBatch,bind_eq_ok,failIf_eq_ok,okOr_eq_ok,pure_eq_ok,Prod.mk.injEq] at h
  obtain ⟨_,-,_,-,_,-,_,-,pool,hpool,trigger,htrigger,r,hr,rfl,rfl⟩ := h
  exact ⟨pool,trigger,r,hpool,htrigger,hr,rfl,rfl⟩

theorem payBatch_ok {w w' : World L} {i n p z paid : Nat} {entries : List PayoutEntry}
    (h : payBatch T net env w i n p z entries=.ok (paid,w')) :
    ∃ pool trigger r progress, w.vault.poolRef=some pool ∧ w.vault.triggerRef=some trigger ∧
      entries.foldlM (payEntry T net env pool trigger i n p z) ⟨w,readBatch w.vault i n,0⟩=
        .ok r ∧ progress.totalDisbursed=r.progress.totalDisbursed ∧
      progress.policiesPaid=r.progress.policiesPaid ∧
      w'={ r.world with vault := r.world.vault.writeBatch i n progress } := by
  obtain ⟨pool,trigger,r,hpool,htrigger,hr,-,rfl⟩ := payBatch_loop h
  refine ⟨pool,trigger,r,r.checkpoint,hpool,htrigger,hr,?_,?_,rfl⟩
  · unfold BatchRun.checkpoint
    split_ifs <;> rfl
  · unfold BatchRun.checkpoint
    split_ifs <;> rfl

theorem claim_ok {w w' : World L} {owner : Address} {amount : Int}
    (h : claim T net w owner=.ok (amount,w')) : amount=readClaim w.vault owner ∧
      ∃ l', w'={ w with
        vault := (w.vault.writeClaim owner 0).publish (.claimed owner amount), ledger := l' } := by
  simp only [claim,bind_eq_ok,failIf_eq_ok,okOr_eq_ok,pure_eq_ok,Prod.mk.injEq] at h
  obtain ⟨-,-,_,-,l',-,rfl,rfl⟩ := h
  exact ⟨rfl,l',rfl⟩

/-- What payouts keep of a pool, the vault keeps. -/
theorem invoke_pool {c : Call} {w w' : World L} (K : RiskPool.State → Prop)
    (pay : ∀ {env s s' l l' p z dst n m}, K s →
      RiskPool.payOut T net.riskPool env s l p z dst n=.ok (m,s',l') → K s')
    (hk : K w.riskPool) (h : invoke T net env w c=.ok w') : K w'.riskPool := by
  cases c <;> simp only [invoke,except_map_eq_ok,Prod.exists] at h
  case payBatch i n p z entries =>
    obtain ⟨paid,_,hu,rfl⟩ := h
    obtain ⟨pool,trigger,r,-,-,hr,-,rfl⟩ := payBatch_loop hu
    refine foldlM_invariant (fun r : BatchRun L => K r.world.riskPool) ?_ entries _ r hk hr
    intro r entry r' hr hentry
    rcases payEntry_ok hentry with rfl | ⟨_,_,_,_,-,-,-,-,hpay,-,hw⟩
    · exact hr
    · rw [hw]
      exact pay hr hpay
  case claim owner =>
    obtain ⟨amount,_,hu,rfl⟩ := h
    obtain ⟨-,l',rfl⟩ := claim_ok hu
    exact hk
  all_goals
    obtain ⟨u,-,rfl⟩ := h
    exact hk

end Steps

section Executions

variable {L : Type} (T : TokenHost L) (net : Network)

/-- What a successful transaction does to the world, contract by contract. -/
inductive Step (w : World L) : Env × Action → World L → Prop where
  | riskPool (env : Env) (c : RiskPool.Call) (s' : RiskPool.State) (l' : L)
      (h : RiskPool.invoke T net.riskPool (net.outside env) c w.riskPool w.ledger=.ok (s',l')) :
      Step w (env,.riskPool c) { w with riskPool := s', ledger := l' }
  | triggerEngine (env : Env) (c : TriggerEngine.Call) (s' : TriggerEngine.State)
      (h : TriggerEngine.invoke (net.outside env) w.triggerEngine c=.ok s') :
      Step w (env,.triggerEngine c) { w with triggerEngine := s' }
  | payBatch (env : Env) (i n p z paid : Nat) (entries : List PayoutEntry) (w' : World L)
      (h : payBatch T net (net.outside env) w i n p z entries=.ok (paid,w')) :
      Step w (env,.vault (.payBatch i n p z entries)) w'
  | claim (env : Env) (owner : Address) (amount : Int) (w' : World L)
      (h : claim T net w owner=.ok (amount,w')) : Step w (env,.vault (.claim owner)) w'
  | manage (env : Env) (c : Call) (v : State) (notBatch : ∀ i n p z es, c≠.payBatch i n p z es)
      (notClaim : ∀ owner, c≠.claim owner) (payout : v.payout=w.vault.payout)
      (claim : v.claim=w.vault.claim) (poolRef : v.poolRef=w.vault.poolRef)
      (triggerRef : v.triggerRef=w.vault.triggerRef) :
      Step w (env,.vault c) { w with vault := v }

theorem execute_step {w w' : World L} {a : Env × Action} (h : (machine T net).step w a=.ok w') :
    Step T net w a w' := by
  obtain ⟨env,a⟩ := a
  change execute T net env w a=.ok w' at h
  cases a with
  | riskPool c =>
    simp only [execute,except_map_eq_ok,subcall_eq_ok,Prod.exists] at h
    obtain ⟨s',l',hc,rfl⟩ := h
    exact .riskPool env c s' l' hc
  | triggerEngine c =>
    simp only [execute,except_map_eq_ok,subcall_eq_ok] at h
    obtain ⟨s',hc,rfl⟩ := h
    exact .triggerEngine env c s' hc
  | vault c =>
    simp only [execute,subcall_eq_ok] at h
    cases c with
    | pause =>
      simp only [invoke,pause,except_map_eq_ok,bind_eq_ok,pure_eq_ok] at h
      obtain ⟨_,⟨_,-,rfl⟩,rfl⟩ := h
      exact .manage env .pause _ (by simp) (by simp) rfl rfl rfl rfl
    | unpause =>
      simp only [invoke,unpause,except_map_eq_ok,bind_eq_ok,pure_eq_ok] at h
      obtain ⟨_,⟨_,-,rfl⟩,rfl⟩ := h
      exact .manage env .unpause _ (by simp) (by simp) rfl rfl rfl rfl
    | payBatch i n p z entries =>
      simp only [invoke,except_map_eq_ok,Prod.exists] at h
      obtain ⟨paid,u,hu,rfl⟩ := h
      exact .payBatch env i n p z paid entries _ hu
    | closeBatch i n =>
      simp only [invoke,closeBatch,except_map_eq_ok,bind_eq_ok,pure_eq_ok] at h
      obtain ⟨_,⟨_,-,rfl⟩,rfl⟩ := h
      exact .manage env (.closeBatch i n) _ (by simp) (by simp) rfl rfl rfl rfl
    | claim owner =>
      simp only [invoke,except_map_eq_ok,Prod.exists] at h
      obtain ⟨amount,u,hu,rfl⟩ := h
      exact .claim env owner amount _ hu

variable {T net}

theorem Step.sound {w w' : World L} {a : Env × Action} (hs : w.Sound net)
    (h : Step T net w a w') : w'.Sound net := by
  cases h with
  | riskPool env c s' l' h =>
    obtain ⟨hw,hu⟩ := riskPool_invoke_sound hs.pools hs.uncommitted h
    exact ⟨hw,hu,hs.triggers,hs.poolRef,hs.triggerRef⟩
  | triggerEngine env c s' h =>
    exact ⟨hs.pools,hs.uncommitted,(TriggerEngine.invoke_effect h).sound hs.triggers,hs.poolRef,
      hs.triggerRef⟩
  | payBatch env i n p z paid entries _ h =>
    obtain ⟨pool,trigger,r,progress,-,-,hr,-,-,rfl⟩ := payBatch_ok h
    have hr' := foldlM_invariant (fun r : BatchRun L => r.world.Sound net)
      (fun _ _ _ hs h => payEntry_sound hs h) entries _ r hs hr
    exact hr'.congr rfl rfl rfl rfl
  | claim env owner amount _ h =>
    obtain ⟨-,l',rfl⟩ := claim_ok h
    exact hs.congr rfl rfl rfl rfl
  | manage env c v _ _ _ _ hpool htrigger =>
    exact hs.congr rfl rfl hpool htrigger

theorem deployWorld_sound (poolAdmin triggerAdmin vaultAdmin policy token : Address) (l : L) :
    (deployWorld net poolAdmin triggerAdmin vaultAdmin policy token l).Sound net where
  pools := RiskPool.deploy_wellFormed poolAdmin
  uncommitted _ := rfl
  triggers := TriggerEngine.deploy_sound triggerAdmin
  poolRef := rfl
  triggerRef := rfl

theorem run_sound {w : World L} (hs : w.Sound net) (actions : List (Env × Action)) :
    ((machine T net).run w actions).Sound net :=
  (machine T net).run_invariant (World.Sound net) (fun _ _ _ hs h => (execute_step T net h).sound hs)
    actions w hs

end Executions

end Mvua.PayoutVault
