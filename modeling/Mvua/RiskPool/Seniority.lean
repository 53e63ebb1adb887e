import Mvua.RiskPool.Reconciliation

namespace Mvua.RiskPool

/-- A payout of season `i` of pool `p`, or a settlement of any season of that pool. -/
def Action.PaysOrSettles (p i : Nat) : Action → Prop
  | .call _ (.payOut q j _ _) => q=p ∧ j=i
  | .call _ (.settleSeason q _) => q=p
  | _ => False

section Runs

variable {L : Type} (T : TokenHost L) (self : Address)

/-- No payout of the season and no settlement in the pool succeeds here. -/
def Interlude (p i : Nat) (x : State × L) (a : Action) : Prop :=
  a.PaysOrSettles p i → ∀ y, (machine T self).step x a≠.ok y

/-- What holders of a tranche bring into it with one call; a withdrawal counts against it. -/
def inflow (p : Nat) (t : Tier) (x : State × L) : Action → Int
  | .call env (.deposit q u src n) =>
      match deposit T self env x.1 x.2 q u src n with
      | .ok _ => if q=p ∧ u=t then n else 0
      | .error _ => 0
  | .call env (.withdraw q u holder n) =>
      match withdraw T self env x.1 x.2 q u holder n with
      | .ok (underlying,_) => if q=p ∧ u=t then -underlying else 0
      | .error _ => 0
  | _ => 0

variable {p i : Nat} {t : Tier} {x : State × L}

theorem next_deposited (hw : x.1.WellFormed) (a : Action)
    (ha : ∀ y e, (machine T self).step x a=.ok y → a.Makes p e →
      ∀ b : Book, (b.post e).deposited t=b.deposited t) :
    (((machine T self).next x a).1.book p).deposited t=(x.1.book p).deposited t := by
  rcases next_book T self hw a p with h | ⟨c,e,he,h,-,hpost⟩
  · rw [h]
  · rw [hpost]
    exact ha _ e h he _

theorem post_deposit_deposited (b : Book) (u : Tier) (a : Address) (n m : Int) :
    (b.post (.deposit u a n m)).deposited t=b.deposited t+if u=t then n else 0 := by
  by_cases hu : u=t
  · subst u; simp [Book.post,Book.onTranche,Book.onReceipt]
  · simp [Book.post,Book.onTranche,Book.onReceipt,hu,Ne.symm hu]

theorem post_withdraw_deposited (b : Book) (u : Tier) (a : Address) (n m : Int) :
    (b.post (.withdraw u a n m)).deposited t=b.deposited t+if u=t then -m else 0 := by
  by_cases hu : u=t
  · subst u; simp [Book.post,Book.onTranche,Book.onReceipt]; omega
  · simp [Book.post,Book.onTranche,Book.onReceipt,hu,Ne.symm hu]

theorem State.Posts.deposited_add {s s' : State} {q : Nat} {e : Entry} {d : Int}
    (hp : s.Posts s' q e)
    (hd : ∀ b : Book, (b.post e).deposited t=b.deposited t+d) :
    (s'.book p).deposited t=(s.book p).deposited t+if q=p then d else 0 := by
  by_cases hq : q=p
  · subst q
    rw [hp.book,hd,if_pos rfl]
  · rw [hp.frame p (Ne.symm hq),if_neg hq,add_zero]

/-- Away from settlements, only its holders move a tranche's capital. -/
theorem next_inflow (hw : x.1.WellFormed) (a : Action) (ha : Interlude T self p i x a) :
    (((machine T self).next x a).1.book p).deposited t=
      (x.1.book p).deposited t+inflow T self p t x a := by
  obtain ⟨s,l⟩ := x
  have same : inflow T self p t (s,l) a=0 →
      (∀ y e, (machine T self).step (s,l) a=.ok y → a.Makes p e →
        ∀ b : Book, (b.post e).deposited t=b.deposited t) →
      (((machine T self).next (s,l) a).1.book p).deposited t=
        (s.book p).deposited t+inflow T self p t (s,l) a := by
    intro hz he
    rw [hz,add_zero]
    exact next_deposited T self hw a he
  cases a with
  | setCommitted q n =>
    apply same rfl
    intro y e hy he b
    cases he
    rfl
  | call env c =>
    cases c with
    | deposit q u src n =>
      cases h : deposit T self env s l q u src n with
      | error e =>
        rw [(machine T self).next_of_error (e := e) (by simp [machine,invoke,h,Except.map])]
        simp [inflow,h]
      | ok r =>
        obtain ⟨m,s',l'⟩ := r
        have hp := deposit_posts h
        rw [(machine T self).next_of_ok (t := (s',l')) (by simp [machine,invoke,h,Except.map]),
          hp.deposited_add fun b => post_deposit_deposited b u src n m]
        simp [inflow,h,ite_and]
    | withdraw q u holder n =>
      cases h : withdraw T self env s l q u holder n with
      | error e =>
        rw [(machine T self).next_of_error (e := e) (by simp [machine,invoke,h,Except.map])]
        simp [inflow,h]
      | ok r =>
        obtain ⟨m,s',l'⟩ := r
        have hp := withdraw_posts h
        rw [(machine T self).next_of_ok (t := (s',l')) (by simp [machine,invoke,h,Except.map]),
          hp.deposited_add fun b => post_withdraw_deposited b u holder n m]
        simp [inflow,h,ite_and]
    | settleSeason q j =>
      apply same rfl
      intro y e hy he
      cases he
      exact absurd hy (ha rfl y)
    | _ =>
      apply same rfl
      intro y e hy he b
      cases he <;> rfl

/-- Over a run without settlements, a tranche's capital changes by what its holders move. -/
theorem run_inflow (hw : x.1.WellFormed) (actions : List Action)
    (h : (machine T self).along (Interlude T self p i) x actions) :
    (((machine T self).run x actions).1.book p).deposited t=
      (x.1.book p).deposited t+(machine T self).tally (inflow T self p t) x actions := by
  have hrun := (machine T self).run_along_tally
    (fun y u => y.1.WellFormed ∧ (y.1.book p).deposited t=(x.1.book p).deposited t+u)
    (Interlude T self p i) (inflow T self p t)
    (fun y a u hy ha => ⟨next_wellFormed T self hy.1 a,by
      rw [next_inflow T self hy.1 a ha,hy.2,Int.add_assoc]⟩)
    actions x 0 ⟨hw,by omega⟩ h
  simpa using hrun.2

/-- A season's last payout, at the state `x` it leaves, and later its settlement at a loss:
senior gives up no more than the loss beyond the junior capital at the payout exactly when
junior holders took out no more than junior had beyond the loss, or senior had no more. -/
theorem senior_protected_iff (admin : Address) (l : L) (before between : List Action)
    {payEnv env : Env} {dst : Address} {amount net : Int} {s' : State}
    (hpay : (machine T self).step ((machine T self).run (deploy admin,l) before)
      (.call payEnv (.payOut p i dst amount))=.ok x)
    (hquiet : (machine T self).along (Interlude T self p i) x between)
    (hsettle : settleSeason env ((machine T self).run x between).1 p i=.ok (net,s'))
    (hloss : net<0) :
    let b := ((machine T self).run x between).1.book p
    let J := (x.1.book p).deposited .junior
    let loss := -net
    b.deposited .senior-(s'.book p).deposited .senior ≤ max 0 (loss-J) ↔
      -(machine T self).tally (inflow T self p .junior) x between ≤ max 0 (J-loss) ∨
      b.deposited .senior ≤ max 0 (loss-J) := by
  intro b J loss
  have hx : x.1.WellFormed :=
    step_wellFormed T self (run_wellFormed T self admin l before) hpay
  have hw : ((machine T self).run x between).1.WellFormed :=
    (machine T self).run_along (fun y => y.1.WellFormed) _
      (fun _ a h _ => next_wellFormed T self h a) between x hx hquiet
  have hflow := run_inflow T self (t := .junior) hx between hquiet
  have hJ : 0≤J := (hx.sound p).deposited .junior
  have hjunior : 0≤b.deposited .junior := (hw.sound p).deposited .junior
  have hsenior : 0≤b.deposited .senior := (hw.sound p).deposited .senior
  have hS := settle_book hw hsettle .senior
  simp only [Book.settled,show ¬0≤net by omega,if_false] at hS
  simp only [b,J,loss] at *
  omega

end Runs

section Withdrawn

/-- Junior leaves after the payout, and senior bears the loss that junior had covered. -/
def juniorLeaves : List Action := [.call plainEnv (.closeSeason 1 1),
  .call plainEnv (.withdraw 1 .junior ⟨3⟩ 100)]

theorem junior_leaves_senior_pays :
    let M := machine TokenHost.ledger ⟨1⟩
    let x := M.next (M.run plainStart twoSeasons) (.call plainEnv (.payOut 1 1 ⟨4⟩ 50))
    let s := (M.run x juniorLeaves).1
    (x.1.book 1).deposited .junior=100 ∧ (x.1.season (1,1)).map Season.payoutsPaid=some 50 ∧
    (settleSeason plainEnv s 1 1).map (fun r =>
      (r.1,(s.book 1).deposited .senior-(r.2.book 1).deposited .senior))=.ok (-50,50) := by
  decide +kernel

/-- Half of junior may leave: the other half still bears the whole loss. -/
theorem senior_protected_half :
    let M := machine TokenHost.ledger ⟨1⟩
    let x := M.next (M.run plainStart twoSeasons) (.call plainEnv (.payOut 1 1 ⟨4⟩ 50))
    let s := (M.run x [.call plainEnv (.withdraw 1 .junior ⟨3⟩ 50),
      .call plainEnv (.closeSeason 1 1)]).1
    ∃ s', settleSeason plainEnv s 1 1=.ok (-50,s') ∧
      (s.book 1).deposited .senior-(s'.book 1).deposited .senior ≤ max 0 (50-100) := by
  intro M x s
  have hpay : M.step (M.run plainStart twoSeasons) (.call plainEnv (.payOut 1 1 ⟨4⟩ 50))=.ok x :=
    M.step_of_isOk (by decide +kernel)
  have hnet : (settleSeason plainEnv s 1 1).map (fun r => r.1)=.ok (-50) := by
    decide +kernel
  have hJ : (x.1.book 1).deposited .junior=100 := by
    decide +kernel
  have hflow : -M.tally (inflow TokenHost.ledger ⟨1⟩ 1 .junior) x
      [.call plainEnv (.withdraw 1 .junior ⟨3⟩ 50),.call plainEnv (.closeSeason 1 1)]=50 := by
    decide +kernel
  rw [except_map_eq_ok] at hnet
  obtain ⟨⟨net,s'⟩,h,rfl⟩ := hnet
  refine ⟨s',h,?_⟩
  have hiff := senior_protected_iff TokenHost.ledger ⟨1⟩ ⟨0⟩ plainFunds twoSeasons
    [.call plainEnv (.withdraw 1 .junior ⟨3⟩ 50),.call plainEnv (.closeSeason 1 1)]
    hpay ⟨fun h => h.elim,fun h => h.elim,trivial⟩ h (by omega)
  simp only [hJ] at hiff
  exact hiff.mpr (.inl (by rw [hflow]; decide))

end Withdrawn

end Mvua.RiskPool
