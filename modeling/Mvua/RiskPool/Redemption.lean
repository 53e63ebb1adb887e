import Mvua.Framework.Atomic
import Mvua.Math.Redemption
import Mvua.RiskPool.Holdings
import Mvua.RiskPool.Shares

namespace Mvua.RiskPool

/-- A holder's request to redeem receipts, and when it is made. -/
structure Redemption where
  tier : Tier
  holder : Address
  receipts : Int
  timestamp : Nat
  deriving DecidableEq

def Redemption.call (p : Nat) (r : Redemption) : Call := .withdraw p r.tier r.holder r.receipts

def Redemption.env (r : Redemption) : Env := ⟨r.timestamp,[r.holder]⟩

def Redemption.action (p : Nat) (r : Redemption) : Action := .call r.env (r.call p)

/-- What an account is paid at least, if it would rather be first. -/
def Book.floorOf (b : Book) (rs : List Redemption) (a : Address) : Int :=
  Fund.floorOf Redemption.tier Redemption.receipts (fun r => r.holder=a) b.fund rs

/-- The receipts of one holder that are given up. -/
def redeemed (t : Tier) (a : Address) (rs : List Redemption) : Int :=
  Fund.requested (fun r => (r.tier,r.holder)) Redemption.receipts (t,a) rs

/-- A pool whose reserves cover its capital, and requests of its holders that are worth at least
one unit each. -/
structure Redeems {L : Type} (T : TokenHost L) (pool : Address) (p : Nat) (c : PoolConfig)
    (s : State) (l : L) (rs : List Redemption) : Prop where
  wellFormed : s.WellFormed
  covers : Covers T pool s l
  config : s.poolConfig p=some c
  uncommitted : (s.book p).committed=0
  capital : (s.book p).capital≤(s.book p).reserves
  reserves : (s.book p).reserves<2^127
  outside : ∀ r∈rs, r.holder≠pool
  held : ∀ t a, redeemed t a rs≤(s.book p).receipt t a
  worth : ∀ r∈rs, 1≤((s.book p).fund r.tier).value r.receipts
  fits : ∀ r∈rs, r.receipts*(s.book p).deposited r.tier<2^127

section Steps

variable {L : Type} {T : TokenHost L} {self : Address} {env : Env} {s : State} {l : L} {p : Nat}
  {c : PoolConfig} {r : Redemption} {rs : List Redemption}

variable (env) in
/-- A withdrawal that is worth something goes through if the reserves have it. -/
theorem withdraw_succeeds (hT : T.Settles) (hw : s.WellFormed) (hcov : Covers T self s l)
    {t : Tier} {a : Address} {n : Int} (hsigned : a∈env.signers) (hc : s.poolConfig p=some c)
    (hn : 0<n) (hheld : n≤(s.book p).receipt t a) (hworth : 0<((s.book p).fund t).value n)
    (hfits : n*(s.book p).deposited t<2^127) (hfree : (s.book p).committed=0)
    (hreserves : ((s.book p).fund t).value n≤(s.book p).reserves)
    (hrange : (s.book p).reserves<2^127) :
    ∃ s' l', withdraw T self env s l p t a n=.ok (((s.book p).fund t).value n,s',l') := by
  obtain ⟨v,hv⟩ := hw.solvency_of_config hc
  have hb := hw.sound p
  have hbalance := hcov.reserves_le hw hc
  have hsupply := hheld.trans (hb.receipt_le_supply t a)
  let u := ((s.book p).fund t).value n
  let S := (s.book p).supply t
  let D := (s.book p).deposited t
  have hS : 0<S := hn.trans_le hsupply
  have hD : 0≤D := hb.deposited t
  have hu : u≤D := Fund.value_le_capital (f := (s.book p).fund t) hS hD hsupply
  have hprod : u*S≤n*D := Fund.value_mul_le (f := (s.book p).fund t) hS
  have hDn : D≤n*D := le_mul_of_one_le_left hD hn
  have hSu : S≤u*S := le_mul_of_one_le_left hS.le hworth
  have hsmall : n*D<2^127 := hfits
  have hquotient : (n*D).tdiv S=u := Int.tdiv_eq_ediv_of_nonneg (mul_nonneg hn.le hD)
  have hvalue : mulDiv n D S=some u := by
    simp only [mulDiv,bind,Option.bind_eq_some_iff,Signed.checkedMul_eq_some,
      Signed.checkedDiv_eq_some]
    exact ⟨_,⟨⟨by omega,hsmall⟩,rfl⟩,by omega,⟨by omega,by omega⟩,hquotient⟩
  rw [State.book_reserves hv] at hreserves hbalance hrange
  rw [State.book_committed hv] at hfree
  obtain ⟨l',hl⟩ := Option.isSome_iff_exists.mp
    (hT.pays l c.token self a u hworth.le (hreserves.trans hbalance))
  have howned : ¬n>readReceipt s p t a := not_lt.mpr hheld
  have hissued : ¬(readTranche s p t).supply≤0 := not_le.mpr hS
  have hrest : SignedFits 128 (v.reserves-u) := ⟨by omega,by omega⟩
  have hcapital : SignedFits 128 ((readTranche s p t).deposited-u) := by
    change SignedFits 128 (D-u)
    exact ⟨by omega,by omega⟩
  have hreceipts : SignedFits 128 ((readTranche s p t).supply-n) := by
    change SignedFits 128 (S-n)
    exact ⟨by omega,by omega⟩
  have hown : SignedFits 128 (readReceipt s p t a-n) := by
    change SignedFits 128 ((s.book p).receipt t a-n)
    have hle := hb.receipt_le_supply t a
    exact ⟨by omega,by omega⟩
  refine ⟨(((s.writeTranche p t ⟨D-u,S-n⟩).writeReceipt p t a
    (readReceipt s p t a-n)).writeSolvency p { v with reserves := v.reserves-u }).publish
      (.withdrawn p t a n u),l',?_⟩
  simp only [withdraw,bind_eq_ok,pure_eq_ok,failIf_eq_ok,okOr_eq_ok,readConfig_eq_ok,
    requireAuth_eq_ok,TokenHost.send_eq_ok,readSolvency_eq_ok,Signed.checkedSub_eq_some,
    Prod.mk.injEq]
  exact ⟨(),hsigned,(),by omega,c,hc,(),howned,(),hissued,u,hvalue,(),by omega,v,hv,(),by omega,
    (),by omega,_,⟨hrest,rfl⟩,(),by omega,_,⟨hcapital,rfl⟩,_,⟨hreceipts,rfl⟩,_,⟨hown,rfl⟩,l',hl,
    rfl,rfl,rfl⟩

theorem Redeems.positive (h : Redeems T self p c s l rs) :
    ∀ r∈rs, 0 < r.receipts := by
  intro r hr
  have hb := h.wellFormed.sound p
  have hworth := h.worth r hr
  by_contra hneg
  have hcapital : 0≤(s.book p).deposited r.tier := hb.deposited r.tier
  have hshares : 0≤(s.book p).supply r.tier := hb.supply_nonneg r.tier
  have hprod : r.receipts*(s.book p).deposited r.tier≤0 :=
    mul_nonpos_of_nonpos_of_nonneg (by omega) hcapital
  rcases hshares.eq_or_lt with hS | hS
  · have hzero : ((s.book p).fund r.tier).value r.receipts=0 := by
      simp [Fund.value,Book.fund,← hS]
    omega
  · have hzero : ((s.book p).fund r.tier).value r.receipts≤0 :=
      Int.ediv_nonpos_of_nonpos_of_neg hprod hS
    omega

/-- The requests are within the tranches. -/
theorem Redeems.redeemable (h : Redeems T self p c s l rs) :
    Fund.Redeemable Redemption.tier Redemption.receipts (s.book p).fund rs where
  capital := (h.wellFormed.sound p).deposited
  positive := h.positive
  within t := Fund.requested_le_total ((h.wellFormed.sound p).supply t) h.positive
    (fun a => h.held t a) ((h.wellFormed.sound p).receipt t)

theorem post_withdraw_receipt (b : Book) (t u : Tier) (a holder : Address) (n m : Int) :
    (b.post (.withdraw u holder n m)).receipt t a=
      b.receipt t a-if (u,holder)=(t,a) then n else 0 := by
  by_cases hu : t=u
  · subst u
    by_cases ha : a=holder
    · subst a; simp [Book.post,Book.onTranche,Book.onReceipt]
    · have hne : holder≠a := Ne.symm ha
      simp [Book.post,Book.onTranche,Book.onReceipt,ha,hne]
  · have hne : u≠t := Ne.symm hu
    simp [Book.post,Book.onTranche,Book.onReceipt,hu,hne]

theorem post_withdraw_capital (b : Book) (u : Tier) (holder : Address) (n m : Int) :
    (b.post (.withdraw u holder n m)).capital=b.capital-m := by
  cases u <;> simp [Book.capital,Book.post,Book.onTranche,Book.onReceipt] <;> omega

theorem Redeems.first_held (h : Redeems T self p c s l (r::rs)) :
    r.receipts≤(s.book p).receipt r.tier r.holder := by
  have hrs := (List.forall_mem_cons.mp h.positive).2
  have hle := h.held r.tier r.holder
  have hmore := Fund.requested_nonneg (fun r : Redemption => (r.tier,r.holder)) hrs
    (r.tier,r.holder)
  rw [redeemed,Fund.requested_cons,if_pos rfl] at hle
  change _≤(s.book p).receipt r.tier r.holder at hle
  omega

/-- The reserves have what the first request is worth, since they have the capital. -/
theorem Redeems.first_covered (h : Redeems T self p c s l (r::rs)) :
    ((s.book p).fund r.tier).value r.receipts≤(s.book p).reserves := by
  have hb : (s.book p).Sound := h.wellFormed.sound p
  have hsupply := h.first_held.trans (hb.receipt_le_supply r.tier r.holder)
  have hshares : 0<((s.book p).fund r.tier).shares := (h.positive r (by simp)).trans_le hsupply
  have hin : ((s.book p).fund r.tier).value r.receipts≤(s.book p).deposited r.tier :=
    Fund.value_le_capital hshares (hb.deposited _) hsupply
  have hcapital : (s.book p).deposited r.tier≤(s.book p).capital := by
    have hJ := hb.deposited .junior
    have hS := hb.deposited .senior
    unfold Book.capital
    cases r.tier <;> omega
  exact hin.trans (hcapital.trans h.capital)

section Withdrawal

variable {s' : State} {l' : L}

theorem withdraw_fund (h : withdraw T self r.env s l p r.tier r.holder r.receipts=
    .ok (((s.book p).fund r.tier).value r.receipts,s',l')) :
    (s'.book p).fund=Fund.after Redemption.tier Redemption.receipts (s.book p).fund r := by
  funext t
  rw [(withdraw_posts h).book,post_withdraw_fund]
  by_cases ht : t=r.tier
  · subst ht
    rw [if_pos rfl,Fund.after_same]
    rfl
  · rw [if_neg ht,Fund.after_other (Ne.symm ht)]

theorem withdraw_balance (hT : T.Settles) (hc : s.poolConfig p=some c) {t : Tier}
    {holder a : Address} {n m : Int} (h : withdraw T self env s l p t holder n=.ok (m,s',l'))
    (hne : holder≠self) (ha : a≠self) :
    T.balance l' c.token a=T.balance l c.token a+if holder=a then m else 0 := by
  obtain ⟨c',_,hc',-,-,-,-,-,-,-,-,-,-,hl,-⟩ := withdraw_ok h
  have hsame : c'=c := Option.some.inj (hc'.symm.trans hc)
  subst hsame
  by_cases hholder : holder=a
  · subst hholder
    rw [if_pos rfl,hT.received hl hne.symm,if_pos rfl]
  · rw [if_neg hholder,add_zero]
    exact hT.frame _ _ _ _ _ _ _ _ hl fun _ => ⟨ha,Ne.symm hholder⟩

/-- Once the first request is served, the others can still be. -/
theorem Redeems.rest (hT : T.Settles) (h : Redeems T self p c s l (r::rs))
    (hpaid : withdraw T self r.env s l p r.tier r.holder r.receipts=
      .ok (((s.book p).fund r.tier).value r.receipts,s',l')) : Redeems T self p c s' l' rs := by
  have hposts := withdraw_posts hpaid
  have hbook := hposts.book
  have hfund := withdraw_fund hpaid
  have hworth : 1≤((s.book p).fund r.tier).value r.receipts := h.worth r (by simp)
  have hreserves : (s'.book p).reserves=
      (s.book p).reserves-((s.book p).fund r.tier).value r.receipts := by
    rw [hbook]
    rfl
  have hless (t : Tier) : (s'.book p).deposited t≤(s.book p).deposited t := by
    change ((s'.book p).fund t).capital≤_
    rw [hbook,post_withdraw_fund]
    split_ifs with ht
    · subst ht
      exact sub_le_self _ (by omega)
    · exact le_rfl
  have hran : invoke T self r.env (r.call p) s l=.ok (s',l') := by
    simp only [Redemption.call,invoke,hpaid,Except.map]
  have hself : self∉r.env.signers := by
    simpa [Redemption.env] using Ne.symm (h.outside r (by simp))
  refine ⟨hposts.wellFormed h.wellFormed,invoke_covers hT h.wellFormed hself h.covers hran,
    ?_,?_,?_,?_,fun x hx => h.outside x (by simp [hx]),fun t a => ?_,fun x hx => ?_,
    fun x hx => ?_⟩
  · exact (congrFun hposts.poolConfig p).trans h.config
  · rw [hbook]
    exact h.uncommitted
  · have hle : (s.book p).capital≤(s.book p).reserves := h.capital
    change (s'.book p).capital≤(s'.book p).reserves
    rw [hreserves,hbook,post_withdraw_capital]
    omega
  · have hbound : (s.book p).reserves<2^127 := h.reserves
    change (s'.book p).reserves<2^127
    omega
  · have hle := h.held t a
    rw [redeemed,Fund.requested_cons] at hle
    rw [hbook,post_withdraw_receipt,redeemed]
    omega
  · have hle := h.redeemable.value_le hx
    rw [hfund]
    exact (h.worth x (by simp [hx])).trans hle
  · have hbefore := h.fits x (by simp [hx])
    have hpos := h.positive x (by simp [hx])
    have hle := mul_le_mul_of_nonneg_left (hless x.tier) hpos.le
    omega

end Withdrawal

/-- The first request is paid what it is worth, and the others can still be served. -/
theorem Redeems.next (hT : T.Settles) (h : Redeems T self p c s l (r::rs)) :
    ∃ s' l', (machine T self).step (s,l) (r.action p)=.ok (s',l') ∧
      Redeems T self p c s' l' rs ∧
      (s'.book p).fund=Fund.after Redemption.tier Redemption.receipts (s.book p).fund r ∧
      ∀ a, a≠self → T.balance l' c.token a=T.balance l c.token a+
        if r.holder=a then ((s.book p).fund r.tier).value r.receipts else 0 := by
  obtain ⟨s',l',hpaid⟩ := withdraw_succeeds r.env hT h.wellFormed h.covers
    (List.mem_singleton.mpr rfl) h.config (h.positive r (by simp)) h.first_held
    (h.worth r (by simp)) (h.fits r (by simp)) h.uncommitted h.first_covered h.reserves
  have hran : invoke T self r.env (r.call p) s l=.ok (s',l') := by
    simp only [Redemption.call,invoke,hpaid,Except.map]
  exact ⟨s',l',hran,h.rest hT hpaid,withdraw_fund hpaid,
    fun a => withdraw_balance hT h.config hpaid (h.outside r (by simp))⟩

/-- An account is paid what it would be paid first, and at most one unit more for each request of
the whole list. -/
theorem Redeems.paid_bounds (h : Redeems T self p c s l rs) (a : Address) :
    (s.book p).floorOf rs a≤Fund.paidTo Redemption.tier Redemption.receipts
      (fun r => r.holder=a) (s.book p).fund rs ∧
    Fund.paidTo Redemption.tier Redemption.receipts (fun r => r.holder=a) (s.book p).fund rs≤
      (s.book p).floorOf rs a+rs.length := by
  let F := (s.book p).fund
  let own (r : Redemption) : Bool := r.holder=a
  let first (r : Redemption) : Bool := r.tier=.junior
  have hr : Fund.Redeemable Redemption.tier Redemption.receipts F rs := h.redeemable
  have hjunior := hr.paidTo_le (k := .junior) (fun r => own r && first r) fun r hr => by
    simp only [first,Bool.and_eq_true,decide_eq_true_eq] at hr
    exact hr.2
  have hsenior := hr.paidTo_le (k := .senior) (fun r => own r && !first r) fun r hr => by
    simp only [first,Bool.and_eq_true,Bool.not_eq_true',decide_eq_false_iff_not] at hr
    cases ht : r.tier with
    | junior => exact absurd ht hr.2
    | senior => rfl
  have hpaid := Fund.paidTo_split Redemption.tier Redemption.receipts own first F rs
  have hfloor := Fund.floorOf_split Redemption.tier Redemption.receipts own first F rs
  have hcount : rs.length=
      (rs.countP fun r => r.tier=.junior)+rs.countP fun r => r.tier=.senior := by
    rw [List.length_eq_countP_add_countP fun r : Redemption => r.tier=.junior]
    congr 2
    funext r
    cases r.tier <;> rfl
  refine ⟨hr.floorOf_le own,?_⟩
  change Fund.paidTo _ _ own F rs≤Fund.floorOf _ _ own F rs+_
  omega

/-- Requests that can be served are all served, in the order they come. -/
theorem Redeems.run (hT : T.Settles) (h : Redeems T self p c s l rs) :
    (machine T self).succeeds (s,l) (rs.map (Redemption.action p)) ∧
    let x := (machine T self).run (s,l) (rs.map (Redemption.action p))
    (x.1.book p).fund=Fund.left Redemption.tier Redemption.receipts (s.book p).fund rs ∧
    ∀ a, a≠self → T.balance x.2 c.token a=T.balance l c.token a+
      Fund.paidTo Redemption.tier Redemption.receipts (fun r => r.holder=a) (s.book p).fund rs := by
  induction rs generalizing s l with
  | nil => exact ⟨trivial,rfl,fun a _ => (add_zero _).symm⟩
  | cons r rs ih =>
    obtain ⟨s',l',hstep,hnext,hfund,hpaid⟩ := h.next hT
    obtain ⟨hsucceeds,hleft,hrest⟩ := ih hnext
    have hmoved := (machine T self).next_of_ok hstep
    rw [List.map_cons,Machine.run_cons,hmoved]
    refine ⟨⟨?_,?_⟩,?_,fun a ha => ?_⟩
    · change ((machine T self).step (s,l) (r.action p)).isOk=true
      rw [hstep]
      rfl
    · rw [hmoved]
      exact hsucceeds
    · rw [hleft,hfund]
      rfl
    · rw [hrest a ha,hpaid a ha,hfund,Fund.paidTo,add_assoc]
      simp only [decide_eq_true_eq]

end Steps

end Mvua.RiskPool
