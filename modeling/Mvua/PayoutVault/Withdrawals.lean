import Mvua.PayoutVault.Payments

namespace Mvua.PayoutVault

/-- What a window of this severity pays for the entries. -/
def owed (severity : Bps) (entries : List PayoutEntry) : Int :=
  (entries.map fun entry => (entry.coverage*(severity : Int)).tdiv 10000).sum

/-- A holder's request to redeem receipts of a tranche. -/
structure Withdrawal where
  env : Env
  poolId : Nat
  tier : RiskPool.Tier
  holder : Address
  receiptAmount : Int
  deriving DecidableEq, Repr

def Withdrawal.action (x : Withdrawal) : Env × Action :=
  (x.env,.riskPool (.withdraw x.poolId x.tier x.holder x.receiptAmount))

/-- The two errors by which the pool says that it cannot fund a payout. -/
def Unfunded (e : Abort Error) : Prop :=
  e=.trap (.contract RiskPool.Error.insufficientReserves.code) ∨
  e=.trap (.contract RiskPool.Error.solvencyViolated.code)

section Funding

variable {L : Type} {T : TokenHost L} {net : Network} {env : Env}

/-- The ways `pay_out` can fail when the reserves cover the amount. -/
def FundedFailure : Abort RiskPool.Error → Prop
  | .error e => e≠.insufficientReserves ∧ e≠.solvencyViolated
  | .trap t => ∀ code, t≠.contract code

theorem payOut_funded {s : RiskPool.State} {l : L} {self dst : Address} {p z : Nat} {amount : Int}
    (hcommitted : (s.book p).committed=0) (hcovered : amount≤(s.book p).reserves) :
    FailsOnly FundedFailure (RiskPool.payOut T self env s l p z dst amount) := by
  unfold RiskPool.payOut RiskPool.requirePayoutVault
  refine .bind (.requireStored (by simp [FundedFailure]) (by simp [FundedFailure])) fun _ _ => ?_
  refine .bind (.failIf fun _ => by simp [FundedFailure]) fun _ _ => ?_
  refine .bind (.okOr fun _ => by simp [FundedFailure]) fun config _ => ?_
  refine .bind (.okOr fun _ => by simp [FundedFailure]) fun season _ => ?_
  refine .bind (.failIf fun _ => by simp [FundedFailure]) fun _ _ => ?_
  refine .bind (.okOr fun _ => by simp [FundedFailure]) fun solvency hv => ?_
  rw [RiskPool.readSolvency_eq_ok] at hv
  have hr := RiskPool.State.book_reserves hv
  have hc := RiskPool.State.book_committed hv
  refine .bind (.failIf fun h => absurd h (by omega)) fun _ _ => ?_
  refine .bind (.okOr fun _ => by simp [FundedFailure]) fun newReserves hn => ?_
  rw [okOr_eq_ok,Signed.checkedSub_eq_some] at hn
  refine .bind (.failIf fun h => absurd h (by omega)) fun _ _ => ?_
  refine .bind (.okOr fun _ => by simp [FundedFailure]) fun _ _ => ?_
  exact .bind (.orTrap fun _ => by simp [FundedFailure]) fun _ _ => .ok _

theorem payoutFor_fails (s : TriggerEngine.State) (i n : Nat) (coverage : Int) :
    FailsOnly (fun e => ∃ c, e=.error c) (TriggerEngine.payoutFor s i n coverage) := by
  unfold TriggerEngine.payoutFor
  split
  · exact .bind (.okOr fun _ => ⟨_,rfl⟩) fun _ _ => .ok _
  · intro e he
    cases he
    exact ⟨_,rfl⟩

theorem not_unfunded_error (e : Error) : ¬Unfunded (.error e) := by
  simp [Unfunded]

theorem not_unfunded_engine (e : TriggerEngine.Error) : ¬Unfunded (.trap (.contract e.code)) := by
  cases e <;> simp [Unfunded,TriggerEngine.Error.code,RiskPool.Error.code]

theorem not_unfunded_pool {e : RiskPool.Error} (h : FundedFailure (.error e)) :
    ¬Unfunded (.trap (.contract e.code)) := by
  intro hu
  simp only [Unfunded,Abort.trap.injEq,Trap.contract.injEq] at hu
  rcases hu with hu | hu
  · exact h.1 (RiskPool.Error.code_injective hu)
  · exact h.2 (RiskPool.Error.code_injective hu)

theorem not_unfunded_trap {t : Trap} (h : ∀ code, t≠.contract code) : ¬Unfunded (.trap t) := by
  intro hu
  simp only [Unfunded,Abort.trap.injEq] at hu
  rcases hu with hu | hu
  · exact h _ hu
  · exact h _ hu

theorem callPayoutFor_funded (trigger : Address) (w : World L) (i n : Nat) (coverage : Int) :
    FailsOnly (fun e => ¬Unfunded e)
      (liftTrap (callPayoutFor net trigger w i n coverage) : Result Error Int) := by
  unfold callPayoutFor
  split_ifs
  · exact .subcall (payoutFor_fails _ _ _ _) (fun e _ => not_unfunded_engine e)
      (fun t h => by obtain ⟨e,he⟩ := h; cases he)
  · intro e he
    cases he
    exact not_unfunded_trap (by simp)

theorem callPayOut_funded {pool dst : Address} {w : World L} {p z : Nat} {amount : Int}
    (hcommitted : (w.riskPool.book p).committed=0)
    (hcovered : amount≤(w.riskPool.book p).reserves) :
    FailsOnly (fun e => ¬Unfunded e)
      (liftTrap (callPayOut T net env pool w p z dst amount) : Result Error (World L)) := by
  unfold callPayOut
  split_ifs
  · have hpay : FailsOnly FundedFailure (RiskPool.payOut T net.riskPool (env.invokedBy net.vault)
        w.riskPool w.ledger p z dst amount) := payOut_funded hcommitted hcovered
    exact .liftMap (.subcall hpay (fun _ h => not_unfunded_pool h) fun _ h => not_unfunded_trap h)
  · intro e he
    cases he
    exact not_unfunded_trap (by simp)

/-- The pool can pay a batch of entries of a final window. -/
structure Funded (net : Network) (w : World L) (i n p : Nat) (severity : Bps)
    (entries : List PayoutEntry) : Prop where
  sound : w.Sound net
  final : ∃ t, TriggerEngine.readState w.triggerEngine i n=.finalized t severity
  positive : ∀ entry∈entries, 0<entry.coverage
  covered : owed severity entries≤(w.riskPool.book p).reserves

theorem owed_nonneg {severity : Bps} {entries : List PayoutEntry}
    (h : ∀ entry∈entries, 0<entry.coverage) : 0≤owed severity entries := by
  apply List.sum_nonneg
  intro x hx
  obtain ⟨entry,he,rfl⟩ := List.mem_map.mp hx
  exact Int.tdiv_nonneg (mul_nonneg (h entry he).le (by omega)) (by omega)

theorem owed_cons (severity : Bps) (entry : PayoutEntry) (entries : List PayoutEntry) :
    owed severity (entry::entries)=
      (entry.coverage*(severity : Int)).tdiv 10000+owed severity entries := by
  simp [owed]

/-- What a final window pays for an entry. -/
theorem payoutFor_severity {w : World L} {i n p : Nat} {severity : Bps} {entry : PayoutEntry}
    {entries : List PayoutEntry} (h : Funded net w i n p severity (entry::entries)) {amount : Int}
    (ha : TriggerEngine.payoutFor w.triggerEngine i n entry.coverage=.ok amount) :
    amount=(entry.coverage*(severity : Int)).tdiv 10000 := by
  obtain ⟨t,ht⟩ := h.final
  obtain ⟨t',severity',ht',hamount,-⟩ :=
    payoutFor_ok h.sound.triggers (h.positive entry (by simp)) ha
  rw [ht,TriggerEngine.TriggerStatus.finalized.injEq] at ht'
  rw [hamount,ht'.2]

theorem payEntry_keeps_funded {pool trigger : Address} {i n p z : Nat} {severity : Bps}
    {r r' : BatchRun L} {entry : PayoutEntry} {entries : List PayoutEntry}
    (h : Funded net r.world i n p severity (entry::entries))
    (hr : payEntry T net env pool trigger i n p z r entry=.ok r') :
    Funded net r'.world i n p severity entries := by
  have hpos : ∀ e∈entries, 0<e.coverage := fun e he => h.positive e (by simp [he])
  have hcov := h.covered
  have hshare : 0≤(entry.coverage*(severity : Int)).tdiv 10000 :=
    Int.tdiv_nonneg (mul_nonneg (h.positive entry (by simp)).le (by omega)) (by omega)
  rw [owed_cons] at hcov
  refine ⟨payEntry_sound h.sound hr,?_,hpos,?_⟩
  all_goals
    rcases payEntry_ok hr with rfl | ⟨amount,m,s',l',-,-,-,hamount,hpay,-,hw⟩
  · exact h.final
  · rw [hw]; exact h.final
  · omega
  · have hbook := (RiskPool.payOut_posts hpay).book
    rw [hw,hbook]
    have ha := payoutFor_severity h hamount
    change owed severity entries≤(r.world.riskPool.book p).reserves-amount
    omega

theorem payEntry_funded {pool trigger : Address} {i n p z : Nat} {severity : Bps}
    {r : BatchRun L} {entry : PayoutEntry} {entries : List PayoutEntry}
    (h : Funded net r.world i n p severity (entry::entries)) :
    FailsOnly (fun e => ¬Unfunded e) (payEntry T net env pool trigger i n p z r entry) := by
  have howed : 0≤owed severity entries := owed_nonneg fun e he => h.positive e (by simp [he])
  have hcov := h.covered
  rw [owed_cons] at hcov
  unfold payEntry
  split_ifs
  · exact .ok r
  · refine .bind (.failIf fun _ => not_unfunded_error _) fun _ _ => ?_
    refine .bind (callPayoutFor_funded _ _ _ _ _) fun amount hamount => ?_
    rw [liftTrap_eq_ok] at hamount
    have ha := payoutFor_severity h (callPayoutFor_ok hamount)
    split_ifs
    · exact .ok r
    · refine .bind (callPayOut_funded (h.sound.uncommitted p) (by omega)) fun w _ => ?_
      refine .bind (.okOr fun _ => not_unfunded_error _) fun _ _ => ?_
      refine .bind (.okOr fun _ => not_unfunded_error _) fun _ _ => ?_
      refine .bind (.orTrap fun _ => not_unfunded_trap (by simp)) fun _ _ => ?_
      exact .bind (.orTrap fun _ => not_unfunded_trap (by simp)) fun _ _ => .ok _

theorem entries_funded {pool trigger : Address} {i n p z : Nat} {severity : Bps}
    {entries : List PayoutEntry} {r : BatchRun L}
    (h : Funded net r.world i n p severity entries) :
    FailsOnly (fun e => ¬Unfunded e)
      (entries.foldlM (payEntry T net env pool trigger i n p z) r) := by
  induction entries generalizing r with
  | nil => exact .ok r
  | cons entry entries ih =>
    rw [List.foldlM_cons]
    exact .bind (payEntry_funded h) fun r' hr => ih (payEntry_keeps_funded h hr)

/-- A batch that the reserves cover is not rejected for lack of funds. -/
theorem payBatch_funded {w : World L} {i n p z : Nat} {severity : Bps}
    {entries : List PayoutEntry} (h : Funded net w i n p severity entries) :
    FailsOnly (fun e => ¬Unfunded e) (payBatch T net env w i n p z entries) := by
  unfold payBatch requireAdmin
  refine .bind (.requireStored (not_unfunded_error _) (not_unfunded_trap (by simp)))
    fun _ _ => ?_
  refine .bind (.failIf fun _ => not_unfunded_error _) fun _ _ => ?_
  refine .bind (.failIf fun _ => not_unfunded_error _) fun _ _ => ?_
  refine .bind (.failIf fun _ => not_unfunded_error _) fun _ _ => ?_
  refine .bind (.okOr fun _ => not_unfunded_error _) fun pool _ => ?_
  refine .bind (.okOr fun _ => not_unfunded_error _) fun trigger _ => ?_
  exact .bind (entries_funded h) fun _ _ => .ok _

end Funding

section Runs

variable {L : Type} (T : TokenHost L) (net : Network)

/-- A withdrawal that the pool accepts redeems at most what the reserves hold beyond `total`. -/
def Affordable (p : Nat) (total : Int) (w : World L) : Env × Action → Prop
  | (env,.riskPool (.withdraw q tier holder receiptAmount)) =>
      q=p → ((machine T net).step w (env,.riskPool (.withdraw q tier holder receiptAmount))).isOk →
        receiptAmount*(w.riskPool.book p).deposited tier<
          ((w.riskPool.book p).reserves-total+1)*(w.riskPool.book p).supply tier
  | _ => True

variable {T net}

/-- A share of `n` receipts is at most `room` exactly when it rounds down to that. -/
theorem share_le_iff (room : Int) {n deposited supply : Int} (hn : 0≤n*deposited)
    (hs : 0<supply) :
    (n*deposited).tdiv supply ≤ room ↔ n*deposited<(room+1)*supply := by
  rw [Int.tdiv_eq_ediv_of_nonneg hn,← Int.lt_add_one_iff,Int.ediv_lt_iff_lt_mul hs]

/-- A withdrawal is rejected and changes nothing, or redeems its share of the tranche. -/
theorem withdrawal_cases {w : World L} (hs : w.Sound net) (x : Withdrawal) (p : Nat) :
    let w' := (machine T net).next w x.action
    (¬((machine T net).step w x.action).isOk ∧ w'=w) ∨
    (x.poolId≠p ∧ w'.riskPool.book p=w.riskPool.book p) ∨
    (x.poolId=p ∧ ((machine T net).step w x.action).isOk ∧
      ∃ underlying, 0<underlying ∧ 0<(w.riskPool.book p).supply x.tier ∧
        underlying=(x.receiptAmount*(w.riskPool.book p).deposited x.tier).tdiv
          ((w.riskPool.book p).supply x.tier) ∧
        0≤x.receiptAmount*(w.riskPool.book p).deposited x.tier ∧
        (w'.riskPool.book p).reserves=(w.riskPool.book p).reserves-underlying) := by
  intro w'
  cases h : (machine T net).step w x.action with
  | error e => exact .inl ⟨nofun,(machine T net).next_of_error h⟩
  | ok u =>
    have hu : w'=u := (machine T net).next_of_ok h
    rw [hu]
    obtain ⟨env,q,tier,holder,n⟩ := x
    cases execute_step T net h with
    | riskPool _ _ s' l' hc =>
      cases RiskPool.invoke_ran hc with
      | withdraw _ _ _ _ underlying hc =>
        have hp := RiskPool.withdraw_posts hc
        by_cases hq : q=p
        · subst q
          obtain ⟨c,-,hn,hbal,hsup,hpos,hshare,-⟩ := hp.admits
          refine .inr (.inr ⟨rfl,rfl,underlying,hpos,hsup,hshare,?_,?_⟩)
          · exact mul_nonneg hn.le ((hs.pools.sound p).deposited tier)
          · rw [hp.book]; rfl
        · exact .inr (.inl ⟨hq,hp.frame p (Ne.symm hq)⟩)

theorem next_sound {w : World L} (hs : w.Sound net) (a : Env × Action) :
    ((machine T net).next w a).Sound net := run_sound hs [a]

theorem withdrawal_reflects {w : World L} (hs : w.Sound net) {p : Nat} {total : Int}
    (x : Withdrawal)
    (h : total≤(((machine T net).next w x.action).riskPool.book p).reserves) :
    total≤(w.riskPool.book p).reserves := by
  rcases withdrawal_cases (T := T) hs x p with ⟨-,hw⟩ | ⟨-,hb⟩ | ⟨-,-,u,hpos,-,-,-,hr⟩
  · rwa [hw] at h
  · rwa [hb] at h
  · omega

theorem withdrawal_covered_iff {w : World L} (hs : w.Sound net) {p : Nat} {total : Int}
    (x : Withdrawal) (h : total≤(w.riskPool.book p).reserves) :
    total≤(((machine T net).next w x.action).riskPool.book p).reserves ↔
      Affordable T net p total w x.action := by
  obtain ⟨env,q,tier,holder,n⟩ := x
  rcases withdrawal_cases (T := T) hs ⟨env,q,tier,holder,n⟩ p with
    ⟨hfail,hw⟩ | ⟨hq,hb⟩ | ⟨hq,hok,u,hpos,hsup,hu,hnum,hr⟩
  · rw [hw]
    exact iff_of_true h fun _ hok => absurd hok hfail
  · rw [hb]
    exact iff_of_true h fun heq => absurd heq hq
  · have hiff := share_le_iff ((w.riskPool.book p).reserves-total) hnum hsup
    rw [← hu] at hiff
    rw [hr]
    calc total≤(w.riskPool.book p).reserves-u
        ↔ u≤(w.riskPool.book p).reserves-total := by omega
      _ ↔ _ := hiff
      _ ↔ Affordable T net p total w (Withdrawal.action ⟨env,q,tier,holder,n⟩) :=
          ⟨fun h _ _ => h,fun h => h hq hok⟩

theorem next_riskPool_engine (w : World L) (env : Env) (c : RiskPool.Call) :
    ((machine T net).next w (env,.riskPool c)).triggerEngine=w.triggerEngine := by
  rcases (machine T net).next_cases w (env,.riskPool c) with h | h
  · rw [h]
  · generalize (machine T net).next w (env,.riskPool c)=w' at h
    cases execute_step T net h with
    | riskPool => rfl

theorem withdrawals_engine (w : World L) (withdraws : List Withdrawal) :
    ((machine T net).run w (withdraws.map Withdrawal.action)).triggerEngine=w.triggerEngine := by
  induction withdraws generalizing w with
  | nil => rfl
  | cons x withdraws ih => exact (ih _).trans (next_riskPool_engine ..)

variable (T net)

/-- The reserves cover what the window owes for the entries, and no batch of them is rejected
for lack of funds. -/
def Payable (w : World L) (i n p : Nat) (severity : Bps) (entries : List PayoutEntry) : Prop :=
  owed severity entries≤(w.riskPool.book p).reserves ∧
  ∀ env z, FailsOnly (fun e => ¬Unfunded e) (payBatch T net env w i n p z entries)

/-- Withdrawals leave a finalized and covered payout payable exactly when each of them is
affordable. -/
theorem withdrawals_keep_payable_iff (poolAdmin triggerAdmin vaultAdmin policy token : Address)
    (l : L) (actions : List (Env × Action)) (withdraws : List Withdrawal) (i n p t : Nat)
    (severity : Bps) (entries : List PayoutEntry) :
    let w := (machine T net).run
      (deployWorld net poolAdmin triggerAdmin vaultAdmin policy token l) actions
    TriggerEngine.readState w.triggerEngine i n=.finalized t severity →
    (∀ entry∈entries, 0<entry.coverage) →
    owed severity entries≤(w.riskPool.book p).reserves →
    (Payable T net ((machine T net).run w (withdraws.map Withdrawal.action)) i n p severity
        entries ↔
      (machine T net).along (Affordable T net p (owed severity entries)) w
        (withdraws.map Withdrawal.action)) := by
  intro w hfinal hpos hcov
  have hs : w.Sound net := run_sound (deployWorld_sound ..) actions
  have hiff : (machine T net).along (Affordable T net p (owed severity entries)) w
        (withdraws.map Withdrawal.action) ↔
      owed severity entries≤
        (((machine T net).run w (withdraws.map Withdrawal.action)).riskPool.book p).reserves := by
    apply (machine T net).along_iff_last (K := fun a => ∃ x : Withdrawal, x.action=a)
      (J := World.Sound net) (I := fun w => owed severity entries≤(w.riskPool.book p).reserves)
    · exact fun w a hw => next_sound hw a
    · intro w a ha hw h
      obtain ⟨x,rfl⟩ := ha
      exact withdrawal_reflects hw x h
    · intro w a ha hw h
      obtain ⟨x,rfl⟩ := ha
      exact withdrawal_covered_iff hw x h
    · exact fun a ha => (List.mem_map.mp ha).imp fun x hx => hx.2
    · exact hs
    · exact hcov
  rw [hiff]
  constructor
  · exact fun h => h.1
  · intro h
    have hfinal' : TriggerEngine.readState
        ((machine T net).run w (withdraws.map Withdrawal.action)).triggerEngine i n=
          .finalized t severity := by
      rw [withdrawals_engine]
      exact hfinal
    exact ⟨h,fun env z => payBatch_funded ⟨run_sound hs _,⟨t,hfinal'⟩,hpos,h⟩⟩

end Runs

section Sample

/-- Junior leaves once the window is final, and the pool cannot fund the payout. -/
theorem withdrawal_starves_payout :
    let M := machine TokenHost.ledger plainNet
    let w := M.run plainWorld insuredWindow
    let w' := M.run w [Withdrawal.action ⟨RiskPool.plainEnv,1,.junior,⟨3⟩,100⟩]
    let entries : List PayoutEntry := [⟨5,⟨6⟩,150⟩]
    TriggerEngine.readState w.triggerEngine 0 7=.finalized 86500 10000 ∧
    (w.riskPool.season (1,1)).map RiskPool.Season.state=some .active ∧
    w.vault.payout 5=none ∧ owed 10000 entries=150 ∧ (w.riskPool.book 1).reserves=200 ∧
    (w'.riskPool.book 1).reserves=100 ∧
    (payBatch TokenHost.ledger plainNet ⟨90000,[⟨0⟩]⟩ w 0 7 1 1 entries).map (fun r => r.1)=
      .ok 1 ∧
    (payBatch TokenHost.ledger plainNet ⟨90000,[⟨0⟩]⟩ w' 0 7 1 1 entries).map (fun r => r.1)=
      .error (.trap (.contract RiskPool.Error.insufficientReserves.code)) := by
  decide +kernel

/-- Junior and part of senior leave, and the rest still pays. -/
theorem withdrawals_keep_payable_rest :
    let M := machine TokenHost.ledger plainNet
    let w := M.run plainWorld insuredWindow
    let w' := M.run w ([(⟨RiskPool.plainEnv,1,.junior,⟨3⟩,100⟩ : Withdrawal),
      ⟨RiskPool.plainEnv,1,.senior,⟨3⟩,40⟩].map Withdrawal.action)
    Payable TokenHost.ledger plainNet w' 0 7 1 10000 [⟨5,⟨6⟩,60⟩] := by
  intro M w w'
  refine (withdrawals_keep_payable_iff TokenHost.ledger plainNet ⟨0⟩ ⟨0⟩ ⟨0⟩ ⟨2⟩ ⟨9⟩
    RiskPool.plainFunds insuredWindow _ 0 7 1 86500 10000 [⟨5,⟨6⟩,60⟩] ?_ ?_ ?_).mpr ?_
  · decide +kernel
  · decide
  · decide +kernel
  · exact ⟨fun _ _ => by decide +kernel,fun _ _ => by decide +kernel,trivial⟩

end Sample

end Mvua.PayoutVault
