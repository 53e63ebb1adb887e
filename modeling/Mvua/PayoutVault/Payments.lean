import Mvua.PayoutVault.World
import Mvua.RiskPool.Reconciliation

namespace Mvua.PayoutVault

/-- What one round of a batch wrote: the record of a policy and the change of its owner's
claim, with the window it was paid for and that window's status. -/
structure Payment where
  indexId : Nat
  windowId : Nat
  entry : PayoutEntry
  status : TriggerEngine.TriggerStatus
  record : PayoutRecord
  credited : Int
  deriving DecidableEq, Repr

/-- A change of the claim ledger. -/
inductive Movement where
  | credit (payment : Payment)
  | debit (owner : Address) (amount : Int)
  deriving DecidableEq, Repr

namespace Movement

def payment? : Movement → Option Payment
  | .credit payment => some payment
  | .debit _ _ => none

/-- What a movement adds to the claim of an owner. -/
def on (owner : Address) : Movement → Int
  | .credit payment => if payment.entry.owner=owner then payment.credited else 0
  | .debit who amount => if who=owner then -amount else 0

end Movement

/-- The payments of a policy, in order. -/
def paymentsOf (policyId : Nat) (log : List Movement) : List Payment :=
  (log.filterMap Movement.payment?).filter fun payment => payment.entry.policyId=policyId

section Logs

variable {L : Type} (T : TokenHost L) (net : Network)

/-- The payment of one round: the record appeared during the round. -/
def paymentOf (indexId windowId : Nat) (entry : PayoutEntry) (r r' : BatchRun L) :
    List Movement :=
  match r.world.vault.payout entry.policyId,r'.world.vault.payout entry.policyId with
  | none,some record => [.credit {
      indexId, windowId, entry, record
      status := TriggerEngine.readState r.world.triggerEngine indexId windowId
      credited := readClaim r'.world.vault entry.owner-readClaim r.world.vault entry.owner }]
  | _,_ => []

/-- The payments of a batch, round by round. -/
def batchPayments (env : Env) (pool trigger : Address) (indexId windowId poolId seasonId : Nat) :
    BatchRun L → List PayoutEntry → List Movement
  | _,[] => []
  | r,entry::entries =>
      match payEntry T net env pool trigger indexId windowId poolId seasonId r entry with
      | .ok r' => paymentOf indexId windowId entry r r'++
          batchPayments env pool trigger indexId windowId poolId seasonId r' entries
      | .error _ => []

/-- The movements of the claim ledger in one call of the vault; none if it fails. -/
def callMovements (env : Env) (w : World L) : Call → List Movement
  | .payBatch i n p z entries =>
      match payBatch T net env w i n p z entries,w.vault.poolRef,w.vault.triggerRef with
      | .ok _,some pool,some trigger =>
          batchPayments T net env pool trigger i n p z ⟨w,readBatch w.vault i n,0⟩ entries
      | _,_,_ => []
  | .claim owner =>
      match claim T net w owner with
      | .ok (amount,_) => [.debit owner amount]
      | .error _ => []
  | _ => []

def movements (w : World L) (a : Env × Action) : List Movement :=
  match a.2 with
  | .vault c => callMovements T net (net.outside a.1) w c
  | _ => []

end Logs

/-- A payment is a positive share of the coverage, at the severity of a finalized window, and
credits its owner by its amount. -/
structure Payment.Proper (payment : Payment) : Prop where
  owner : payment.record.owner=payment.entry.owner
  credited : payment.credited=payment.record.amount
  positive : 0<payment.record.amount
  bounded : payment.record.amount≤payment.entry.coverage
  share : ∃ t severity, payment.status=.finalized t severity ∧
    payment.record.amount=(payment.entry.coverage*severity).tdiv 10000

/-- A window whose status is final. -/
def Final : TriggerEngine.TriggerStatus → Prop
  | .finalized _ _ => True
  | _ => False

theorem Payment.Proper.final {payment : Payment} (h : payment.Proper) : Final payment.status := by
  obtain ⟨t,severity,hst,-⟩ := h.share
  rw [hst]
  trivial

theorem not_final_of_advances {st st' : TriggerEngine.TriggerStatus} (h : st.Advances st') :
    ¬Final st := by
  cases h <;> exact id

/-- The log of a world: every record has exactly one payment, every payment is proper and its
window is still final, and every claim is the sum of its movements. -/
structure Accounted {L : Type} (w : World L) (log : List Movement) : Prop where
  paid : ∀ id record, w.vault.payout id=some record →
    ∃ payment, paymentsOf id log=[payment] ∧ payment.record=record
  unpaid : ∀ id, w.vault.payout id=none → paymentsOf id log=[]
  proper : ∀ payment, .credit payment∈log → payment.Proper ∧
    TriggerEngine.readState w.triggerEngine payment.indexId payment.windowId=payment.status
  claims : ∀ owner, readClaim w.vault owner=(log.map (Movement.on owner)).sum

section Accounting

variable {L : Type} {T : TokenHost L} {net : Network}

theorem paymentsOf_append (id : Nat) (log more : List Movement) :
    paymentsOf id (log++more)=paymentsOf id log++paymentsOf id more := by
  simp [paymentsOf]

theorem paymentsOf_credit (id : Nat) (payment : Payment) :
    paymentsOf id [.credit payment]=if payment.entry.policyId=id then [payment] else [] := by
  by_cases h : payment.entry.policyId=id <;> simp [paymentsOf,Movement.payment?,h]

theorem paymentsOf_debit (id : Nat) (owner : Address) (amount : Int) :
    paymentsOf id [.debit owner amount]=[] := rfl

theorem Accounted.congr {w w' : World L} {log : List Movement} (h : Accounted w log)
    (hpayout : w'.vault.payout=w.vault.payout) (hclaim : w'.vault.claim=w.vault.claim)
    (hfinal : ∀ i n, Final (TriggerEngine.readState w.triggerEngine i n) →
      TriggerEngine.readState w'.triggerEngine i n=
        TriggerEngine.readState w.triggerEngine i n) : Accounted w' log := by
  refine ⟨?_,?_,?_,?_⟩
  · rw [hpayout]; exact h.paid
  · rw [hpayout]; exact h.unpaid
  · intro payment hp
    obtain ⟨hproper,hst⟩ := h.proper payment hp
    refine ⟨hproper,?_⟩
    rw [hfinal _ _ (by rw [hst]; exact hproper.final),hst]
  · intro owner
    rw [readClaim,hclaim]
    exact h.claims owner

/-- A first payment for a policy is recorded, credited and logged. -/
theorem Accounted.credit {w w' : World L} {log : List Movement} {payment : Payment}
    (ha : Accounted w log) (hnone : w.vault.payout payment.entry.policyId=none)
    (hpayout : ∀ id, w'.vault.payout id=if id=payment.entry.policyId then some payment.record
      else w.vault.payout id)
    (hclaim : ∀ owner, readClaim w'.vault owner=if owner=payment.entry.owner then
      readClaim w.vault payment.entry.owner+payment.credited else readClaim w.vault owner)
    (hengine : w'.triggerEngine=w.triggerEngine) (hproper : payment.Proper)
    (hst : TriggerEngine.readState w.triggerEngine payment.indexId payment.windowId=
      payment.status) : Accounted w' (log++[.credit payment]) := by
  refine ⟨?_,?_,?_,?_⟩
  · intro id record hid
    rw [hpayout] at hid
    rw [paymentsOf_append,paymentsOf_credit]
    by_cases he : id=payment.entry.policyId
    · subst he
      rw [if_pos rfl,Option.some.injEq] at hid
      rw [ha.unpaid _ hnone,if_pos rfl]
      exact ⟨payment,rfl,hid⟩
    · rw [if_neg he] at hid
      rw [if_neg (Ne.symm he),List.append_nil]
      exact ha.paid id record hid
  · intro id hid
    rw [hpayout] at hid
    rw [paymentsOf_append,paymentsOf_credit]
    by_cases he : id=payment.entry.policyId
    · rw [if_pos he] at hid
      cases hid
    · rw [if_neg he] at hid
      rw [if_neg (Ne.symm he),List.append_nil]
      exact ha.unpaid id hid
  · intro payment' hp
    rw [hengine]
    rcases List.mem_append.mp hp with hp | hp
    · exact ha.proper payment' hp
    · rw [List.mem_singleton,Movement.credit.injEq] at hp
      subst hp
      exact ⟨hproper,hst⟩
  · intro owner
    rw [hclaim,List.map_append,List.sum_append,← ha.claims]
    by_cases he : owner=payment.entry.owner
    · subst he
      simp [Movement.on]
    · simp [Movement.on,he,Ne.symm he]

/-- A claim is paid out and logged. -/
theorem Accounted.debit {w w' : World L} {log : List Movement} {owner : Address} {amount : Int}
    (ha : Accounted w log) (hpayout : w'.vault.payout=w.vault.payout)
    (hclaim : ∀ who, readClaim w'.vault who=readClaim w.vault who+
      if who=owner then -amount else 0)
    (hengine : w'.triggerEngine=w.triggerEngine) : Accounted w' (log++[.debit owner amount]) := by
  refine ⟨?_,?_,?_,?_⟩
  · intro id record hid
    rw [hpayout] at hid
    rw [paymentsOf_append,paymentsOf_debit,List.append_nil]
    exact ha.paid id record hid
  · intro id hid
    rw [hpayout] at hid
    rw [paymentsOf_append,paymentsOf_debit,List.append_nil]
    exact ha.unpaid id hid
  · intro payment hp
    rw [hengine]
    rcases List.mem_append.mp hp with hp | hp
    · exact ha.proper payment hp
    · rw [List.mem_singleton] at hp
      cases hp
  · intro who
    rw [hclaim,List.map_append,List.sum_append,← ha.claims]
    simp [Movement.on,eq_comm]

/-- A finalized window pays the floor of the share, which is at most the coverage. -/
theorem payoutFor_ok {s : TriggerEngine.State} (hs : s.Sound) {i n : Nat} {coverage amount : Int}
    (hc : 0<coverage) (h : TriggerEngine.payoutFor s i n coverage=.ok amount) :
    ∃ t severity, TriggerEngine.readState s i n=.finalized t severity ∧
      amount=(coverage*severity).tdiv 10000 ∧ amount ≤ coverage := by
  unfold TriggerEngine.payoutFor at h
  cases hst : TriggerEngine.readState s i n with
  | healthy => simp [hst] at h
  | triggered t => simp [hst] at h
  | finalized t severity =>
    simp only [hst,bind_eq_ok,okOr_eq_ok,pure_eq_ok] at h
    obtain ⟨scaled,hscaled,rfl⟩ := h
    obtain ⟨d,severity',-,-,hv,hsame⟩ := hs.locked i n (by rw [hst]; simp)
    have hle := TriggerEngine.evalIndex_severity hv
    rw [← hsame t severity hst] at hle
    have hb := applyBps_bounds hscaled hc.le
    have hmul : coverage*severity ≤ coverage*10000 :=
      mul_le_mul_of_nonneg_left (by exact_mod_cast hle) hc.le
    refine ⟨t,severity,rfl,?_,min_le_right _ _⟩
    rw [← applyBps_eq_some hscaled]
    omega

theorem readClaim_credit (s : State) (env : Env) (entry : PayoutEntry) (amount : Int)
    (owner : Address) : readClaim (s.credit env entry amount) owner=
      if owner=entry.owner then readClaim s entry.owner+amount else readClaim s owner := by
  by_cases h : owner=entry.owner
  · subst h
    simp [readClaim,State.credit,State.writeClaim,State.writePayout,State.publish]
  · simp [readClaim,State.credit,State.writeClaim,State.writePayout,State.publish,h]

theorem payout_credit (s : State) (env : Env) (entry : PayoutEntry) (amount : Int) (id : Nat) :
    (s.credit env entry amount).payout id=if id=entry.policyId then
      some ⟨entry.owner,amount,env.timestamp⟩ else s.payout id := by
  by_cases h : id=entry.policyId
  · subst h
    simp [State.credit,State.writePayout,State.publish]
  · simp [State.credit,State.writeClaim,State.writePayout,State.publish,h]

/-- One round keeps the account, with its payment added to the log. -/
theorem payEntry_accounted {env : Env} {pool trigger : Address} {i n p z : Nat}
    {r r' : BatchRun L} {entry : PayoutEntry} {log : List Movement} (hs : r.world.Sound net)
    (ha : Accounted r.world log)
    (h : payEntry T net env pool trigger i n p z r entry=.ok r') :
    Accounted r'.world (log++paymentOf i n entry r r') := by
  rcases payEntry_ok h with rfl | ⟨amount,m,s',l',hnone,hcov,hpos,hamount,-,-,hw⟩
  · have hnil : paymentOf i n entry r' r'=[] := by
      unfold paymentOf
      cases r'.world.vault.payout entry.policyId <;> rfl
    rw [hnil,List.append_nil]
    exact ha
  · obtain ⟨t,severity,hst,hshare,hle⟩ := payoutFor_ok hs.triggers hcov hamount
    have hpayout : ∀ id, r'.world.vault.payout id=if id=entry.policyId then
        some ⟨entry.owner,amount,env.timestamp⟩ else r.world.vault.payout id := by
      intro id
      rw [hw]
      exact payout_credit ..
    have hclaim : ∀ owner, readClaim r'.world.vault owner=if owner=entry.owner then
        readClaim r.world.vault entry.owner+amount else readClaim r.world.vault owner := by
      intro owner
      rw [hw]
      exact readClaim_credit ..
    have hengine : r'.world.triggerEngine=r.world.triggerEngine := by rw [hw]
    have hlog : paymentOf i n entry r r'=[.credit ⟨i,n,entry,.finalized t severity,
        ⟨entry.owner,amount,env.timestamp⟩,amount⟩] := by
      unfold paymentOf
      rw [hnone,hpayout,if_pos rfl,hclaim,if_pos rfl,hst,add_sub_cancel_left]
    rw [hlog]
    apply ha.credit hnone hpayout hclaim hengine ?_ hst
    exact ⟨rfl,rfl,hpos,hle,t,severity,rfl,hshare⟩

/-- A whole loop keeps the account. -/
theorem batch_accounted {env : Env} {pool trigger : Address} {i n p z : Nat}
    {entries : List PayoutEntry} {r r' : BatchRun L} {log : List Movement}
    (hs : r.world.Sound net) (ha : Accounted r.world log)
    (h : entries.foldlM (payEntry T net env pool trigger i n p z) r=.ok r') :
    Accounted r'.world (log++batchPayments T net env pool trigger i n p z r entries) := by
  induction entries generalizing r log with
  | nil =>
    rw [List.foldlM_nil,pure_eq_ok] at h
    subst h
    simpa [batchPayments] using ha
  | cons entry entries ih =>
    rw [List.foldlM_cons,bind_eq_ok] at h
    obtain ⟨r1,h1,h⟩ := h
    have hall := ih (payEntry_sound hs h1) (payEntry_accounted hs ha h1) h
    rw [List.append_assoc] at hall
    simpa [batchPayments,h1] using hall

/-- A finalized window stays as it is under every call of the trigger engine. -/
theorem engine_final {env : Env} {s s' : TriggerEngine.State} {c : TriggerEngine.Call}
    (hs : s.Sound) (h : TriggerEngine.invoke env s c=.ok s') (i n : Nat)
    (hf : Final (TriggerEngine.readState s i n)) :
    TriggerEngine.readState s' i n=TriggerEngine.readState s i n := by
  rcases ((TriggerEngine.invoke_effect h).keeps hs i n).status with hst | hst
  · exact hst
  · exact absurd hf (not_final_of_advances hst)

/-- A call that fails moves nothing. -/
theorem callMovements_of_fail {env : Env} {w : World L} {c : Call}
    (h : ∀ w', invoke T net env w c≠.ok w') : callMovements T net env w c=[] := by
  cases c with
  | payBatch i n p z entries =>
    cases hb : payBatch T net env w i n p z entries with
    | error e => simp [callMovements,hb]
    | ok r => exact absurd (by simp [invoke,hb,Except.map]) (h r.2)
  | claim owner =>
    cases hc : claim T net w owner with
    | error e => simp [callMovements,hc]
    | ok r => exact absurd (by simp [invoke,hc,Except.map]) (h r.2)
  | _ => rfl

/-- A transaction that fails moves nothing. -/
theorem movements_of_error {w : World L} {a : Env × Action} {e : Failure}
    (h : (machine T net).step w a=.error e) : movements T net w a=[] := by
  obtain ⟨env,a⟩ := a
  cases a with
  | riskPool | triggerEngine => rfl
  | vault c =>
    apply callMovements_of_fail
    intro w' hok
    have hstep : (machine T net).step w (env,.vault c)=.ok w' :=
      (subcall_eq_ok Error.code _ w').mpr hok
    rw [h] at hstep
    cases hstep

/-- One transaction keeps the account, with its movements added to the log. -/
theorem next_accounted {w : World L} {log : List Movement} (hs : w.Sound net)
    (ha : Accounted w log) (a : Env × Action) :
    Accounted ((machine T net).next w a) (log++movements T net w a) := by
  cases h : (machine T net).step w a with
  | error e =>
    rw [(machine T net).next_of_error h]
    rw [movements_of_error h,List.append_nil]
    exact ha
  | ok w' =>
    rw [(machine T net).next_of_ok h]
    cases execute_step T net h with
    | riskPool env c s' l' hc =>
      rw [show movements T net w (env,.riskPool c)=[] from rfl,List.append_nil]
      exact ha.congr rfl rfl fun _ _ _ => rfl
    | triggerEngine env c s' hc =>
      rw [show movements T net w (env,.triggerEngine c)=[] from rfl,List.append_nil]
      exact ha.congr rfl rfl (engine_final hs.triggers hc)
    | payBatch env i n p z paid entries _ hb =>
      obtain ⟨pool,trigger,r,progress,hpool,htrigger,hr,-,-,rfl⟩ := payBatch_ok hb
      have hall := batch_accounted hs ha hr
      simp only [movements,callMovements,hb,hpool,htrigger]
      exact hall.congr rfl rfl fun _ _ _ => rfl
    | claim env owner amount _ hc =>
      obtain ⟨hamount,l',rfl⟩ := claim_ok hc
      simp only [movements,callMovements,hc]
      refine ha.debit rfl (fun who => ?_) rfl
      by_cases he : who=owner
      · subst he
        simp [readClaim,State.writeClaim,State.publish,hamount]
      · simp [readClaim,State.writeClaim,State.publish,he]
    | manage env c v hbatch hclaim hpayout hledger _ _ =>
      have hnil : movements T net w (env,.vault c)=[] := by
        cases c with
        | payBatch => exact absurd rfl (hbatch _ _ _ _ _)
        | claim => exact absurd rfl (hclaim _)
        | _ => rfl
      rw [hnil,List.append_nil]
      exact ha.congr hpayout hledger fun _ _ _ => rfl

/-- A payout record never changes. -/
theorem next_payout {w : World L} {id : Nat} {record : PayoutRecord}
    (h : w.vault.payout id=some record) (a : Env × Action) :
    ((machine T net).next w a).vault.payout id=some record := by
  rcases (machine T net).next_cases w a with hsame | hstep
  · rw [hsame]; exact h
  · generalize (machine T net).next w a=w' at hstep
    cases execute_step T net hstep with
    | riskPool | triggerEngine => exact h
    | payBatch env i n p z paid entries _ hb =>
      obtain ⟨pool,trigger,r,progress,-,-,hr,-,-,rfl⟩ := payBatch_ok hb
      refine foldlM_invariant (fun r : BatchRun L => r.world.vault.payout id=some record)
        (fun r entry r' hrec hpay => ?_) entries _ r h hr
      rcases payEntry_ok hpay with rfl | ⟨amount,m,s',l',hnone,-,-,-,-,-,hw⟩
      · exact hrec
      · have hne : id≠entry.policyId := by
          intro hid
          rw [hid,hnone] at hrec
          cases hrec
        rw [hw]
        exact (payout_credit _ _ _ _ _).trans ((if_neg hne).trans hrec)
    | claim env owner amount _ hc =>
      obtain ⟨-,l',rfl⟩ := claim_ok hc
      exact h
    | manage env c v _ _ hpayout _ _ _ =>
      exact (congrFun hpayout id).trans h

theorem run_payout {w : World L} {id : Nat} {record : PayoutRecord}
    (h : w.vault.payout id=some record) (later : List (Env × Action)) :
    ((machine T net).run w later).vault.payout id=some record := by
  induction later generalizing w with
  | nil => exact h
  | cons a later ih => exact ih (next_payout h a)

theorem deployWorld_accounted (poolAdmin triggerAdmin vaultAdmin policy token : Address) (l : L) :
    Accounted (deployWorld net poolAdmin triggerAdmin vaultAdmin policy token l) [] where
  paid _ _ h := nomatch h
  unpaid _ _ := rfl
  proper _ h := nomatch h
  claims _ := rfl

theorem run_accounted {w : World L} {log : List Movement} (hs : w.Sound net)
    (ha : Accounted w log) (actions : List (Env × Action)) :
    Accounted ((machine T net).run w actions)
      (log++(machine T net).log (movements T net) w actions) := by
  refine ((machine T net).run_log (fun w log => w.Sound net ∧ Accounted w log)
    (movements T net) ?_ actions w log ⟨hs,ha⟩).2
  intro w a log h
  obtain ⟨hs,ha⟩ := h
  exact ⟨run_sound hs [a],next_accounted hs ha a⟩

theorem mem_log_of_paymentsOf {id : Nat} {payment : Payment} {log : List Movement}
    (h : payment∈paymentsOf id log) : .credit payment∈log := by
  simp only [paymentsOf,List.mem_filter,List.mem_filterMap] at h
  obtain ⟨⟨m,hm,hp⟩,-⟩ := h
  cases m with
  | credit payment' =>
    rw [Movement.payment?,Option.some.injEq] at hp
    exact hp ▸ hm
  | debit => cases hp

end Accounting

section Runs

variable {L : Type} (T : TokenHost L) (net : Network)

/-- A record was written by one payment on a window that is still final, and stays. -/
structure PaidOnce (w : World L) (log : List Movement) (id : Nat) (record : PayoutRecord)
    (payment : Payment) : Prop where
  only : paymentsOf id log=[payment]
  wrote : payment.record=record
  proper : payment.Proper
  status : TriggerEngine.readState w.triggerEngine payment.indexId payment.windowId=
    payment.status
  stays : ∀ later, ((machine T net).run w later).vault.payout id=some record

/-- Every record of a run has one payment, and the claims are the sums of the movements. -/
theorem payout_exactly_once (poolAdmin triggerAdmin vaultAdmin policy token : Address) (l : L)
    (actions : List (Env × Action)) :
    let start := deployWorld net poolAdmin triggerAdmin vaultAdmin policy token l
    let w := (machine T net).run start actions
    let log := (machine T net).log (movements T net) start actions
    (∀ id record, w.vault.payout id=some record → ∃ payment, PaidOnce T net w log id record payment) ∧
    ∀ owner, readClaim w.vault owner=(log.map (Movement.on owner)).sum := by
  intro start w log
  have hs : start.Sound net := deployWorld_sound ..
  have ha : Accounted w log := run_accounted hs (deployWorld_accounted ..) actions
  refine ⟨fun id record h => ?_,ha.claims⟩
  obtain ⟨payment,honly,hrecord⟩ := ha.paid id record h
  have hmem : payment∈paymentsOf id log := by simp [honly]
  obtain ⟨hproper,hst⟩ := ha.proper payment (mem_log_of_paymentsOf hmem)
  exact ⟨payment,honly,hrecord,hproper,hst,fun later => run_payout h later⟩

end Runs

section Sample

def plainNet : Network := ⟨⟨10⟩,⟨11⟩,⟨12⟩⟩

def plainWorld : World (Address → Address → Int) :=
  deployWorld plainNet ⟨0⟩ ⟨0⟩ ⟨0⟩ ⟨2⟩ ⟨9⟩ RiskPool.plainFunds

/-- A pool with capital 100 in each tranche, an active season, and a window that pays in full. -/
def insuredWindow : List (Env × Action) := [
  (RiskPool.plainEnv,.riskPool (.setPayoutVault ⟨12⟩)),
  (RiskPool.plainEnv,.riskPool (.createPool RiskPool.plainConfig)),
  (RiskPool.plainEnv,.riskPool (.deposit 1 .junior ⟨3⟩ 100)),
  (RiskPool.plainEnv,.riskPool (.deposit 1 .senior ⟨3⟩ 100)),
  (RiskPool.plainEnv,.riskPool (.openSeason 1)),
  (RiskPool.plainEnv,.riskPool (.activateSeason 1 1))]++
  TriggerEngine.drySpell.map fun a => (a.1,.triggerEngine a.2)

/-- A batch that lists one policy twice, and its retry. -/
def repeatedBatch : List (Env × Action) := insuredWindow++[
  (⟨90000,[⟨0⟩]⟩,.vault (.payBatch 0 7 1 1 [⟨5,⟨6⟩,60⟩,⟨5,⟨8⟩,90⟩,⟨6,⟨6⟩,30⟩])),
  (⟨90000,[⟨0⟩]⟩,.vault (.payBatch 0 7 1 1 [⟨5,⟨6⟩,60⟩]))]

theorem payout_exactly_once_repeated :
    let M := machine TokenHost.ledger plainNet
    let w := M.run plainWorld repeatedBatch
    let log := M.log (movements TokenHost.ledger plainNet) plainWorld repeatedBatch
    (∃ payment, PaidOnce TokenHost.ledger plainNet w log 5 ⟨⟨6⟩,60,90000⟩ payment) ∧
    readClaim w.vault ⟨6⟩=90 ∧ (log.map (Movement.on ⟨6⟩)).sum=90 := by
  intro M w log
  have h := payout_exactly_once TokenHost.ledger plainNet ⟨0⟩ ⟨0⟩ ⟨0⟩ ⟨2⟩ ⟨9⟩
    RiskPool.plainFunds repeatedBatch
  have hc : readClaim w.vault ⟨6⟩=90 := by decide +kernel
  exact ⟨h.1 5 _ (by decide +kernel),hc,(h.2 ⟨6⟩).symm.trans hc⟩

end Sample

end Mvua.PayoutVault
