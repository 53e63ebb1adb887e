import Mvua.RiskPool.Shares

namespace Mvua.RiskPool

/-- A tranche with receipts outstanding and no capital behind them. -/
def Book.Wiped (b : Book) (t : Tier) : Prop := 0<b.supply t ∧ b.deposited t=0

def Book.mint (b : Book) (t : Tier) (amount : Int) : Int :=
  if b.supply t=0 then amount else amount*b.supply t/b.deposited t

/-- The amounts that a deposit into a tranche adds up are in range, and within its cap. -/
structure Book.Holds (b : Book) (config : PoolConfig) (t : Tier) (amount : Int) : Prop where
  cap : 0<trancheCap config t → b.deposited t+amount≤trancheCap config t
  scaled : SignedFits 128 (amount*b.supply t)
  deposited : SignedFits 128 (b.deposited t+amount)
  supply : SignedFits 128 (b.supply t+b.mint t amount)
  reserves : SignedFits 128 (b.reserves+amount)

section Deposit

variable {L : Type} {T : TokenHost L} {self src : Address} {env : Env} {s : State} {l : L}
variable {p : Nat} {t : Tier} {c : PoolConfig} {amount : Int}

theorem mintedFor_of_open (hb : (s.book p).Sound) (h : (s.book p).Holds c t amount)
    (hn : 0<amount) (hopen : ¬(s.book p).Wiped t) :
    mintedFor (readTranche s p t) amount=.ok ((s.book p).mint t amount) := by
  have hsupply := hb.supply_nonneg t
  have hdeposited := hb.deposited t
  have hscaled := h.scaled
  unfold mintedFor Book.mint
  change (if (s.book p).supply t=0 then _ else _)=_
  split_ifs with h0
  · rfl
  · have hpos : 0<(s.book p).deposited t := by
      unfold Book.Wiped at hopen
      omega
    have hproduct : 0≤amount*(s.book p).supply t := mul_nonneg hn.le hsupply
    have hquotient : 0≤amount*(s.book p).supply t/(s.book p).deposited t :=
      Int.ediv_nonneg hproduct hpos.le
    have hle : amount*(s.book p).supply t/(s.book p).deposited t≤amount*(s.book p).supply t :=
      Int.ediv_le_self _ hproduct
    rw [okOr_eq_ok]
    simp only [mulDiv,bind,Option.bind_eq_some_iff]
    refine ⟨amount*(s.book p).supply t,(Signed.checkedMul_eq_some _ _ _ _).mpr ⟨hscaled,rfl⟩,?_⟩
    rw [Signed.checkedDiv_eq_some]
    change (s.book p).deposited t≠0 ∧ SignedFits 128 (Int.tdiv _ ((s.book p).deposited t)) ∧
      Int.tdiv _ ((s.book p).deposited t)=_
    rw [Int.tdiv_eq_ediv_of_nonneg hproduct]
    exact ⟨hpos.ne',.of_nonneg hquotient (hle.trans_lt hscaled.2),rfl⟩

/-- An open tranche takes every deposit that fits without overflow. -/
theorem deposit_open (hw : s.WellFormed) (h : (s.book p).Holds c t amount) (hn : 0<amount)
    (hopen : ¬(s.book p).Wiped t) :
    FailsOnly (fun e => e≠.error .overflow) (deposit T self env s l p t src amount) := by
  have hb := hw.sound p
  have hminted := mintedFor_of_open hb h hn hopen
  unfold deposit
  refine .bind (.trapIf fun _ => by simp) fun _ _ => ?_
  refine .bind (.failIf fun _ => by simp) fun _ _ => ?_
  refine .bind (.okOr fun _ => by simp) fun config _ => ?_
  refine .bind (.okOr fun hnone => absurd hnone ?_) fun deposited _ => ?_
  · exact Signed.checkedAdd_ne_none h.deposited
  refine .bind (.failIf fun _ => by simp) fun _ _ => ?_
  rw [hminted,ok_bind]
  refine .bind (.failIf fun _ => by simp) fun _ hpos => ?_
  refine .bind (.orTrap fun _ => by simp) fun l' _ => ?_
  refine .bind (.okOr fun hnone => absurd hnone ?_) fun supply _ => ?_
  · exact Signed.checkedAdd_ne_none h.supply
  refine .bind (.okOr fun hnone => absurd hnone ?_) fun balance _ => ?_
  · -- no holder has more receipts than there are
    rw [failIf_eq_ok] at hpos
    have hreceipt := hb.receipt t src
    have hle := hb.receipt_le_supply t src
    have hupper : (s.book p).supply t+(s.book p).mint t amount<2^127 := h.supply.2
    apply Signed.checkedAdd_ne_none
    change SignedFits 128 ((s.book p).receipt t src+(s.book p).mint t amount)
    exact .of_nonneg (by omega) (by omega)
  refine .bind (.okOr fun _ => by simp) fun solvency hsolvency => ?_
  refine .bind (.okOr fun hnone => absurd hnone ?_) fun reserves _ => ?_
  · have hv : s.solvency p=some solvency := (readSolvency_eq_ok _ _ _).mp hsolvency
    apply Signed.checkedAdd_ne_none
    rw [← State.book_reserves hv]
    exact h.reserves
  exact .ok _

/-- Into a wiped tranche no deposit gets, since its share is a division by zero. -/
theorem deposit_wiped (hc : s.poolConfig p=some c) (h : (s.book p).Holds c t amount)
    (hn : 0<amount) (hsrc : src∈env.signers) (hwiped : (s.book p).Wiped t) :
    deposit T self env s l p t src amount=.error (.error .overflow) := by
  obtain ⟨hsupply,hzero⟩ := hwiped
  have hminted : mintedFor (readTranche s p t) amount=.error (.error .overflow) := by
    unfold mintedFor
    change (if (s.book p).supply t=0 then _ else _)=_
    rw [if_neg hsupply.ne']
    have hnone : mulDiv amount (readTranche s p t).supply (readTranche s p t).deposited=none := by
      change mulDiv amount ((s.book p).supply t) ((s.book p).deposited t)=none
      rw [hzero]
      unfold mulDiv
      cases I128.checkedMul amount ((s.book p).supply t) <;> rfl
    rw [hnone]
    rfl
  have hauth : (requireAuth env src : Result Error Unit)=.ok () := requireAuth_of_mem hsrc
  have hpositive : failIf (amount≤0) Error.invalidAmount=.ok () :=
    (failIf_eq_ok _ _ _).mpr hn.not_ge
  have hsum : I128.checkedAdd (readTranche s p t).deposited amount=
      some ((s.book p).deposited t+amount) :=
    (Signed.checkedAdd_eq_some _ _ _ _).mpr ⟨h.deposited,rfl⟩
  have hcap : failIf (trancheCap c t>0 ∧ (s.book p).deposited t+amount>trancheCap c t)
      Error.trancheCapExceeded=.ok () := by
    rw [failIf_eq_ok]
    intro hover
    exact hover.2.not_ge (h.cap hover.1)
  unfold deposit
  rw [hauth,ok_bind,hpositive,ok_bind,readConfig,hc,okOr,ok_bind]
  dsimp only
  rw [hsum,okOr,ok_bind,hcap,ok_bind,hminted,error_bind]

end Deposit

section Runs

variable {c : PoolConfig} {b : Book} {e : Entry} {t : Tier}

theorem Book.wiped_iff_fund : b.Wiped t ↔ 0<(b.fund t).shares ∧ (b.fund t).capital=0 := Iff.rfl

theorem Entry.wipes (hb : b.Sound) (h : e.Admits c b) (hopen : ¬b.Wiped t)
    (hwiped : (b.post e).Wiped t) : ∃ id, e=.settle id ∧ 0<b.deposited t := by
  have hdeposited := hb.deposited t
  cases e with
  | settle id =>
    refine ⟨id,rfl,?_⟩
    have hsupply : 0<b.supply t := hwiped.1
    unfold Book.Wiped at hopen
    omega
  | deposit u a amount minted =>
    obtain ⟨hpos,-⟩ := h
    rw [Book.wiped_iff_fund,post_deposit_fund] at hwiped
    split_ifs at hwiped with hu
    · have hzero : b.deposited t+amount=0 := hwiped.2
      omega
    · exact absurd hwiped hopen
  | withdraw u a receipts underlying =>
    obtain ⟨hpos,-,-,-,hu,-⟩ := h
    rw [Book.wiped_iff_fund,post_withdraw_fund] at hwiped
    split_ifs at hwiped with htier
    · subst u
      have hrest : 0<b.supply t-receipts := hwiped.1
      have hnone : b.deposited t-underlying=0 := hwiped.2
      have hcapital : 0<b.deposited t := by
        unfold Book.Wiped at hopen
        omega
      -- what the remaining receipts are worth stays behind
      have hvalue : underlying=(b.fund t).value receipts := by
        rw [hu,Int.tdiv_eq_ediv_of_nonneg (mul_nonneg hpos.le hdeposited)]
        rfl
      have hlt : (b.fund t).value receipts<b.deposited t := by
        apply Fund.value_lt_capital _ hcapital
        · change receipts<b.supply t
          omega
        · change 0<b.supply t
          omega
      omega
    · exact absurd hwiped hopen
  | openSeason | advance | premium | refund | payout | commit => exact absurd hwiped hopen

variable {L : Type} (T : TokenHost L) (self : Address)

theorem next_wiped {x : State × L} (hw : x.1.WellFormed) (a : Action) {p : Nat}
    (hopen : ¬(x.1.book p).Wiped t) (hwiped : (((machine T self).next x a).1.book p).Wiped t) :
    ∃ env i, a=.call env (.settleSeason p i) ∧ 0<(x.1.book p).deposited t := by
  rcases next_book T self hw a p with hsame | ⟨c,e,hmakes,-,hadm,hpost⟩
  · rw [hsame] at hwiped
    exact absurd hwiped hopen
  · rw [hpost] at hwiped
    obtain ⟨id,rfl,hpos⟩ := Entry.wipes (hw.sound p) hadm hopen hwiped
    cases hmakes with
    | settle env => exact ⟨env,id,rfl,hpos⟩

/-- Where a tranche is wiped, a settlement on the way took the last of its capital. -/
theorem run_wiped (admin : Address) (l : L) (calls : List Action) (p : Nat) (t : Tier)
    (h : (((machine T self).run (deploy admin,l) calls).1.book p).Wiped t) :
    ∃ before env i after, calls=before++.call env (.settleSeason p i)::after ∧
      let x := (machine T self).run (deploy admin,l) before
      let y := (machine T self).next x (.call env (.settleSeason p i))
      0<(x.1.book p).deposited t ∧ (y.1.book p).Wiped t := by
  induction calls using List.reverseRecOn with
  | nil => exact absurd h.1 (lt_irrefl 0)
  | append_singleton calls a ih =>
    rw [Machine.run_concat] at h
    by_cases hopen : (((machine T self).run (deploy admin,l) calls).1.book p).Wiped t
    · obtain ⟨before,env,i,after,rfl,hloss⟩ := ih hopen
      exact ⟨before,env,i,after++[a],by simp,hloss⟩
    · have hw := run_wellFormed T self admin l calls
      obtain ⟨env,i,rfl,hpos⟩ := next_wiped T self hw a hopen h
      exact ⟨calls,env,i,[],rfl,hpos,h⟩

end Runs

/-- A deposit that fits overflows exactly when its tranche has receipts outstanding and no capital,
and a tranche gets there only through a settlement that takes the last of its capital: no other
call makes one of a tranche that was open. -/
theorem deposit_overflow_iff {L : Type} (T : TokenHost L) (self admin : Address) (l : L)
    (calls : List Action) (p : Nat) (t : Tier) (c : PoolConfig) (amount : Int)
    (hc : ((machine T self).run (deploy admin,l) calls).1.poolConfig p=some c)
    (hn : 0<amount)
    (hfits : (((machine T self).run (deploy admin,l) calls).1.book p).Holds c t amount) :
    let x := (machine T self).run (deploy admin,l) calls
    (∀ env l' src, src∈env.signers →
      (deposit T self env x.1 l' p t src amount=.error (.error .overflow) ↔
        (x.1.book p).Wiped t)) ∧
    ((x.1.book p).Wiped t → ∃ before env i after,
      calls=before++.call env (.settleSeason p i)::after ∧
      let y := (machine T self).run (deploy admin,l) before
      let z := (machine T self).next y (.call env (.settleSeason p i))
      0<(y.1.book p).deposited t ∧ (z.1.book p).Wiped t) ∧
    ∀ before a, let y := (machine T self).run (deploy admin,l) before
      ¬(y.1.book p).Wiped t → (((machine T self).next y a).1.book p).Wiped t →
        ∃ env i, a=.call env (.settleSeason p i) ∧ 0<(y.1.book p).deposited t := by
  intro x
  have hw : x.1.WellFormed := run_wellFormed T self admin l calls
  refine ⟨fun env l' src hsrc => ⟨fun h => ?_,fun hwiped => ?_⟩,
    run_wiped T self admin l calls p t,fun before a => ?_⟩
  · by_contra hopen
    exact deposit_open hw hfits hn hopen _ h rfl
  · exact deposit_wiped hc hfits hn hsrc hwiped
  · exact next_wiped T self (run_wellFormed T self admin l before) a

section Sample

def totalLoss : List Action := twoSeasons++[
  .call plainEnv (.payOut 1 1 ⟨4⟩ 200),
  .call plainEnv (.closeSeason 1 1),
  .call plainEnv (.settleSeason 1 1)]

/-- After a total loss the junior tranche takes no capital any more. -/
theorem wiped_tranche_overflows :
    let M := machine TokenHost.ledger ⟨1⟩
    let x := M.run plainStart totalLoss
    x.1.poolConfig 1=some plainConfig ∧ (x.1.book 1).Holds plainConfig .junior 10 ∧
    (x.1.book 1).supply .junior=100 ∧ (x.1.book 1).deposited .junior=0 ∧
    deposit TokenHost.ledger ⟨1⟩ plainEnv x.1 x.2 1 .junior ⟨3⟩ 10=.error (.error .overflow) := by
  intro M x
  have hconfig : x.1.poolConfig 1=some plainConfig := by decide +kernel
  have hsupply : (x.1.book 1).supply .junior=100 := by decide +kernel
  have hcapital : (x.1.book 1).deposited .junior=0 := by decide +kernel
  have hfits : (x.1.book 1).Holds plainConfig .junior 10 := by
    refine ⟨?_,?_,?_,?_,?_⟩
    · decide +kernel
    · decide +kernel
    · decide +kernel
    · decide +kernel
    · decide +kernel
  have hwiped : (x.1.book 1).Wiped .junior := ⟨by rw [hsupply]; decide,hcapital⟩
  exact ⟨hconfig,hfits,hsupply,hcapital,
    deposit_wiped hconfig hfits (by decide) (by decide) hwiped⟩

theorem deposit_overflow_iff_open :
    let M := machine TokenHost.ledger ⟨1⟩
    let x := M.run plainStart twoSeasons
    deposit TokenHost.ledger ⟨1⟩ plainEnv x.1 x.2 1 .junior ⟨3⟩ 10≠.error (.error .overflow) := by
  intro M x
  have hconfig : x.1.poolConfig 1=some plainConfig := by decide +kernel
  have hfits : (x.1.book 1).Holds plainConfig .junior 10 := by
    refine ⟨?_,?_,?_,?_,?_⟩
    · decide +kernel
    · decide +kernel
    · decide +kernel
    · decide +kernel
    · decide +kernel
  have h := deposit_overflow_iff TokenHost.ledger ⟨1⟩ ⟨0⟩ plainFunds twoSeasons 1 .junior
    plainConfig 10 hconfig (by decide) hfits
  intro hover
  have hwiped := (h.1 plainEnv x.2 ⟨3⟩ (by decide)).mp hover
  have hcapital : (x.1.book 1).deposited .junior=100 := by decide +kernel
  have hzero : (x.1.book 1).deposited .junior=0 := hwiped.2
  rw [hzero] at hcapital
  cases hcapital

end Sample

end Mvua.RiskPool
