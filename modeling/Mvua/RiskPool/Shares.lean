import Mvua.RiskPool.Seniority
import Mvua.Math.Fund

namespace Mvua.RiskPool

/-- A tranche as capital held in receipts. -/
def Book.fund (b : Book) (t : Tier) : Fund := ⟨b.deposited t,b.supply t⟩

def Entry.holder : Entry → Option Address
  | .deposit _ a _ _ => some a
  | .withdraw _ a _ _ => some a
  | _ => none

section Entries

variable {c : PoolConfig} {b : Book} {e : Entry} {t : Tier}

theorem Entry.receipt_other {a : Address} (h : e.holder≠some a) :
    (b.post e).receipt t a=b.receipt t a := by
  cases e with
  | deposit u x amount minted =>
    have hx : a≠x := fun he => h (congrArg some he.symm)
    by_cases hu : t=u
    · subst u; simp [Book.post,Book.onTranche,Book.onReceipt,hx]
    · simp [Book.post,Book.onTranche,Book.onReceipt,hu]
  | withdraw u x receipts underlying =>
    have hx : a≠x := fun he => h (congrArg some he.symm)
    by_cases hu : t=u
    · subst u; simp [Book.post,Book.onTranche,Book.onReceipt,hx]
    · simp [Book.post,Book.onTranche,Book.onReceipt,hu]
  | _ => rfl

theorem post_deposit_fund (u : Tier) (a : Address) (n m : Int) :
    (b.post (.deposit u a n m)).fund t=
      if t=u then ⟨b.deposited t+n,b.supply t+m⟩ else b.fund t := by
  by_cases hu : t=u
  · subst u; simp [Book.fund,Book.post,Book.onTranche,Book.onReceipt]
  · simp [Book.fund,Book.post,Book.onTranche,Book.onReceipt,hu]

theorem post_withdraw_fund (u : Tier) (a : Address) (n m : Int) :
    (b.post (.withdraw u a n m)).fund t=
      if t=u then ⟨b.deposited t-m,b.supply t-n⟩ else b.fund t := by
  by_cases hu : t=u
  · subst u; simp [Book.fund,Book.post,Book.onTranche,Book.onReceipt]
  · simp [Book.fund,Book.post,Book.onTranche,Book.onReceipt,hu]

/-- Apart from a settlement at a loss, no entry lowers what a receipt of a tranche is worth. -/
theorem Entry.priceLe (hb : b.Sound) (h : e.Admits c b) (hs : 0<b.supply t)
    (hgain : ∀ id, e=.settle id → 0≤b.netOf id) : (b.fund t).PriceLe ((b.post e).fund t) := by
  have hd := hb.deposited t
  cases e with
  | deposit u a amount minted =>
    obtain ⟨hpos,-,-,pro,-⟩ := h
    rw [post_deposit_fund]
    split_ifs with hu
    · subst u
      obtain ⟨hd0,rfl⟩ := pro hs.ne'
      have hfloor := tdiv_bounds (amount*b.supply t) (b.deposited t)
        (mul_nonneg hpos.le hs.le) (by omega)
      exact Fund.priceLe_mint hfloor.2.1
    · exact .refl _
  | withdraw u a receipts underlying =>
    obtain ⟨hpos,-,hsu,-,rfl,-⟩ := h
    rw [post_withdraw_fund]
    split_ifs with hu
    · subst u
      have hfloor := tdiv_bounds (receipts*b.deposited t) (b.supply t)
        (mul_nonneg hpos.le hd) hsu
      exact Fund.priceLe_burn hfloor.2.1
    · exact .refl _
  | settle id =>
    have hnet := hgain id rfl
    cases t with
    | junior =>
      have hj : (b.post (.settle id)).fund .junior=
          ⟨b.deposited .junior+b.netOf id,b.supply .junior⟩ := by
        simp [Book.fund,Book.post,Book.onSeason,Book.settled,hnet]
      rw [hj]
      exact Fund.priceLe_credit hs.le hnet
    | senior =>
      have hS : (b.post (.settle id)).fund .senior=b.fund .senior := by
        simp [Book.fund,Book.post,Book.onSeason,Book.settled,hnet]
      rw [hS]
      exact .refl _
  | _ => exact .refl _

end Entries

section Redemption

variable {L : Type} {T : TokenHost L} {self : Address} {env : Env} {s s' : State} {l l' : L}
  {p : Nat} {t : Tier} {holder : Address} {n u : Int}

theorem withdraw_value (hw : s.WellFormed)
    (h : withdraw T self env s l p t holder n=.ok (u,s',l')) :
    0<n ∧ n≤(s.book p).supply t ∧ 0<u ∧ u=((s.book p).fund t).value n := by
  obtain ⟨c,v,-,-,-,hn,hle,hs,hu,hq,-⟩ := withdraw_ok h
  have hb := hw.sound p
  refine ⟨hn,hle.trans (hb.receipt_le_supply t holder),hu,?_⟩
  rw [hq]
  exact Int.tdiv_eq_ediv_of_nonneg (mul_nonneg hn.le (hb.deposited t))

/-- No withdrawal releases more than its tranche holds, the last one releases all, and any
other leaves something. -/
theorem withdraw_within (hw : s.WellFormed)
    (h : withdraw T self env s l p t holder n=.ok (u,s',l')) :
    u≤(s.book p).deposited t ∧ (n=(s.book p).supply t → u=(s.book p).deposited t) ∧
      (n<(s.book p).supply t → 1≤(s'.book p).deposited t) := by
  have hb := hw.sound p
  have hd : 0≤((s.book p).fund t).capital := hb.deposited t
  obtain ⟨hn,hle,hu,rfl⟩ := withdraw_value hw h
  have hs : 0<((s.book p).fund t).shares := by
    change 0<(s.book p).supply t
    omega
  have hcap : ((s.book p).fund t).value n≤(s.book p).deposited t :=
    Fund.value_le_capital hs hd hle
  refine ⟨hcap,?_,?_⟩
  · intro he
    subst he
    exact Fund.value_all hs
  · intro hlt
    have hrest : ((s.book p).fund t).value n<(s.book p).deposited t :=
      Fund.value_lt_capital hs (lt_of_lt_of_le hu hcap) hlt
    have hafter := (withdraw_posts h).deposited_add (p := p) fun b =>
      post_withdraw_deposited (t := t) b t holder n _
    rw [if_pos rfl,if_pos rfl] at hafter
    omega

end Redemption

section Runs

variable {L : Type} (T : TokenHost L) (self : Address)

/-- In every reachable state the receipts of a tranche add up to its supply, and what a
withdrawal releases stays within the tranche. -/
theorem receipts_conserved (admin : Address) (l : L) (actions : List Action) (p : Nat)
    (t : Tier) :
    let s := ((machine T self).run (deploy admin,l) actions).1
    HasTotal (fun holder => readReceipt s p t holder) (readTranche s p t).supply ∧
    ∀ env l₁ holder n u s' l₂, withdraw T self env s l₁ p t holder n=.ok (u,s',l₂) →
      u≤(readTranche s p t).deposited ∧
      (n=(readTranche s p t).supply → u=(readTranche s p t).deposited) ∧
      (n<(readTranche s p t).supply → 1≤(readTranche s' p t).deposited) := by
  intro s
  have hw : s.WellFormed := run_wellFormed T self admin l actions
  refine ⟨(hw.sound p).supply t,?_⟩
  intro env l₁ holder n u s' l₂ h
  exact withdraw_within hw h

/-- The call is no settlement of the pool with a negative result. -/
def NoLoss (p : Nat) (x : State × L) (a : Action) : Prop :=
  ∀ env i net s', a=.call env (.settleSeason p i) → settleSeason env x.1 p i=.ok (net,s') → 0≤net

def Action.Unsigned (holder : Address) : Action → Prop
  | .call env _ => holder∉env.signers
  | .setCommitted _ _ => True

variable {p : Nat} {t : Tier} {holder : Address} {x : State × L}

theorem Action.Makes.signed {y : State × L} {a : Action} {e : Entry} (ha : a.Makes p e)
    (h : (machine T self).step x a=.ok y) (he : e.holder=some holder) :
    ¬a.Unsigned holder := by
  obtain ⟨s,l⟩ := x
  cases ha with
  | deposit env _ u src n m =>
    simp only [machine,invoke,except_map_eq_ok,Prod.exists] at h
    obtain ⟨_,_,_,hu,-⟩ := h
    obtain ⟨-,-,-,-,hsrc,-⟩ := deposit_ok hu
    simp only [Entry.holder,Option.some.injEq] at he
    subst he
    exact fun hn => hn hsrc
  | withdraw env _ u src n m =>
    simp only [machine,invoke,except_map_eq_ok,Prod.exists] at h
    obtain ⟨_,_,_,hu,-⟩ := h
    obtain ⟨-,-,-,-,hsrc,-⟩ := withdraw_ok hu
    simp only [Entry.holder,Option.some.injEq] at he
    subst he
    exact fun hn => hn hsrc
  | _ => simp [Entry.holder] at he

theorem next_receipt_unsigned (hw : x.1.WellFormed) (a : Action) (ha : a.Unsigned holder) :
    (((machine T self).next x a).1.book p).receipt t holder=(x.1.book p).receipt t holder := by
  rcases next_book T self hw a p with h | ⟨c,e,hm,h,-,hpost⟩
  · rw [h]
  · rw [hpost]
    exact Entry.receipt_other (fun he => hm.signed T self h he ha)

theorem next_priceLe (hw : x.1.WellFormed) (hs : 0<(x.1.book p).supply t) (a : Action)
    (ha : NoLoss p x a) :
    ((x.1.book p).fund t).PriceLe ((((machine T self).next x a).1.book p).fund t) := by
  rcases next_book T self hw a p with h | ⟨c,e,hm,h,hadm,hpost⟩
  · rw [h]
    exact .refl _
  · rw [hpost]
    apply Entry.priceLe (hw.sound p) hadm hs
    intro id he
    subst he
    cases hm with
    | settle env _ _ =>
      obtain ⟨s,l⟩ := x
      simp only [machine,invoke,except_map_eq_ok,Prod.exists] at h
      obtain ⟨net,u,hu,-⟩ := h
      rw [(settleSeason_posts hw hu).1]
      exact ha env id net u rfl hu

/-- Whoever holds receipts and takes no part in a run without losing settlements of the pool
can redeem at least as much after it as before. -/
theorem passive_not_diluted (admin : Address) (l : L) (history later : List Action) (p : Nat)
    (t : Tier) (holder : Address) :
    let M := machine T self
    let x := M.run (deploy admin,l) history
    let y := M.run x later
    0 < readReceipt x.1 p t holder →
    M.along (fun z a => a.Unsigned holder ∧ NoLoss p z a) x later →
    readReceipt y.1 p t holder=readReceipt x.1 p t holder ∧
    ((x.1.book p).fund t).value (readReceipt x.1 p t holder) ≤
      ((y.1.book p).fund t).value (readReceipt y.1 p t holder) := by
  intro M x y hr hcalls
  have hw : x.1.WellFormed := run_wellFormed T self admin l history
  have supply_pos (z : State × L) (hz : z.1.WellFormed)
      (he : (z.1.book p).receipt t holder=readReceipt x.1 p t holder) :
      0<(z.1.book p).supply t := by
    have := (hz.sound p).receipt_le_supply t holder
    omega
  have hrun := M.run_along
    (fun z => z.1.WellFormed ∧ (z.1.book p).receipt t holder=readReceipt x.1 p t holder ∧
      ((x.1.book p).fund t).PriceLe ((z.1.book p).fund t)) _
    (fun z a hz ha => by
      obtain ⟨hzw,hzr,hzp⟩ := hz
      have hpos := supply_pos z hzw hzr
      have hnw := next_wellFormed T self hzw a
      have hnr := (next_receipt_unsigned T self (p := p) (t := t) hzw a ha.1).trans hzr
      have hstep := next_priceLe T self hzw hpos a ha.2
      exact ⟨hnw,hnr,hzp.trans hpos (supply_pos x hw rfl).le (supply_pos _ hnw hnr).le hstep⟩)
    later x ⟨hw,rfl,.refl _⟩ hcalls
  obtain ⟨hyw,hyr,hprice⟩ := hrun
  have hsame : readReceipt y.1 p t holder=readReceipt x.1 p t holder := hyr
  refine ⟨hsame,?_⟩
  rw [hsame]
  exact hprice.value_le (supply_pos x hw rfl) (supply_pos y hyw hyr) hr.le

def Action.Solo (p : Nat) (t : Tier) (holder : Address) : Action → Prop
  | .call _ (.deposit q u src _) => q=p ∧ u=t ∧ src=holder
  | .call _ (.withdraw q u a _) => q=p ∧ u=t ∧ a=holder
  | _ => False

/-- The tranche holds capital that nobody has receipts for. -/
def Book.Ownerless (b : Book) (t : Tier) : Prop := b.supply t=0 ∧ 0<b.deposited t

/-- Some deposit of the holder goes through: its amount fits, the cap leaves room for it, and the
token moves it. -/
def Enterable (x : State × L) (p : Nat) (t : Tier) (holder : Address) : Prop :=
  ∃ c n l', x.1.poolConfig p=some c ∧ 0<n ∧ SignedFits 128 ((x.1.book p).deposited t+n) ∧
    SignedFits 128 ((x.1.book p).reserves+n) ∧
    (0<trancheCap c t → (x.1.book p).deposited t+n≤trancheCap c t) ∧
    T.transfer x.2 c.token holder self n=some l'

theorem enterable_of_deposit {env : Env} {n m : Int} {y : State × L}
    (h : deposit T self env x.1 x.2 p t holder n=.ok (m,y)) : Enterable T self x p t holder := by
  simp only [deposit,bind_eq_ok,pure_eq_ok,failIf_eq_ok,okOr_eq_ok,readConfig_eq_ok,
    requireAuth_eq_ok,TokenHost.send_eq_ok,readSolvency_eq_ok,Signed.checkedAdd_eq_some] at h
  obtain ⟨-,-,-,hn,c,hc,_,⟨hfit,rfl⟩,-,hcap,_,-,-,-,l',hl,_,-,_,-,v,hv,_,⟨hfit',rfl⟩,-⟩ := h
  have hv' : x.1.solvency p=some v := hv
  refine ⟨c,n,l',hc,not_le.mp hn,hfit,?_,fun hpos => ?_,hl⟩
  · rw [State.book_reserves hv']
    exact hfit'
  · exact not_lt.mp fun hover => hcap ⟨hpos,hover⟩

/-- A holder without receipts who can deposit nothing changes nothing. -/
theorem run_stuck (hr : (x.1.book p).receipt t holder=0) (hne : ¬Enterable T self x p t holder)
    (actions : List Action) (hsolo : ∀ a∈actions, a.Solo p t holder) :
    (machine T self).run x actions=x := by
  refine (machine T self).run_along (fun y => y=x) (fun _ a => a.Solo p t holder) (fun y a hy ha =>
    ?_) actions x rfl ((machine T self).along_of_mem actions (fun a ha _ => hsolo a ha) x)
  subst hy
  rcases (machine T self).next_cases y a with hn | hn
  · exact hn
  · cases a with
    | setCommitted q n => cases ha
    | call env c =>
      have hran : invoke T self env c y.1 y.2=.ok _ := hn
      cases c with
      | deposit q u src n =>
        obtain ⟨rfl,rfl,rfl⟩ := ha
        simp only [invoke,except_map_eq_ok] at hran
        obtain ⟨r,hr,-⟩ := hran
        exact absurd (enterable_of_deposit T self hr) hne
      | withdraw q u b n =>
        obtain ⟨rfl,rfl,rfl⟩ := ha
        simp only [invoke,except_map_eq_ok] at hran
        obtain ⟨⟨m,s',l'⟩,hu,-⟩ := hran
        obtain ⟨_,_,-,-,-,hpos,hheld,-⟩ := withdraw_ok hu
        change n≤(y.1.book q).receipt u b at hheld
        omega
      | _ => cases ha

theorem Action.Solo.noLoss {a : Action} (h : a.Solo p t holder) : NoLoss p x a := by
  intro env i net s' ha
  subst ha
  cases h

theorem Action.Solo.interlude {a : Action} (h : a.Solo p t holder) (i : Nat) :
    Interlude T self p i x a := by
  intro hp
  cases a with
  | setCommitted q n => cases hp
  | call env c =>
    cases c with
    | deposit q u src n => cases hp
    | withdraw q u b n => cases hp
    | _ => cases h

theorem next_outside (hw : x.1.WellFormed) {a : Action} (ha : a.Solo p t holder) :
    (((machine T self).next x a).1.book p).supply t-
      (((machine T self).next x a).1.book p).receipt t holder=
    (x.1.book p).supply t-(x.1.book p).receipt t holder := by
  rcases next_book T self hw a p with h | ⟨c,e,hm,-,-,hpost⟩
  · rw [h]
  · rw [hpost]
    cases hm with
    | deposit env _ u src n m =>
      obtain ⟨-,rfl,rfl⟩ := ha
      simp [Book.post,Book.onTranche,Book.onReceipt]
    | withdraw env _ u a n m =>
      obtain ⟨-,rfl,rfl⟩ := ha
      simp [Book.post,Book.onTranche,Book.onReceipt]
    | _ => cases ha

/-- Unless the tranche is ownerless at the start, one holder alone never lowers its capital. -/
theorem solo_capital (hw : x.1.WellFormed) (hr : (x.1.book p).receipt t holder=0)
    (ho : ¬(x.1.book p).Ownerless t) (actions : List Action)
    (hsolo : ∀ a∈actions, a.Solo p t holder) :
    (x.1.book p).deposited t≤(((machine T self).run x actions).1.book p).deposited t := by
  have hb := hw.sound p
  have hd := hb.deposited t
  by_cases hs : (x.1.book p).supply t=0
  · have hz : (x.1.book p).deposited t≤0 := by
      by_contra hn
      exact ho ⟨hs,by omega⟩
    have hw' : ((machine T self).run x actions).1.WellFormed :=
      (machine T self).run_along (fun y => y.1.WellFormed) (fun _ _ => True)
        (fun _ a h _ => next_wellFormed T self h a) actions x hw
        ((machine T self).along_of_forall (fun _ _ => trivial) x actions)
    exact hz.trans ((hw'.sound p).deposited t)
  · have hpos : 0<(x.1.book p).supply t := by
      have := hb.supply_nonneg t
      omega
    have keeps (z : State × L) (hz : z.1.WellFormed)
        (he : (z.1.book p).supply t-(z.1.book p).receipt t holder=(x.1.book p).supply t) :
        (x.1.book p).supply t≤(z.1.book p).supply t := by
      have := (hz.sound p).receipt t holder
      omega
    have hrun := (machine T self).run_along
      (fun z => z.1.WellFormed ∧
        (z.1.book p).supply t-(z.1.book p).receipt t holder=(x.1.book p).supply t ∧
        ((x.1.book p).fund t).PriceLe ((z.1.book p).fund t))
      (fun _ a => a.Solo p t holder)
      (fun z a hz ha => by
        obtain ⟨hzw,hze,hzp⟩ := hz
        have hzs := keeps z hzw hze
        have hnw := next_wellFormed T self hzw a
        have hne := (next_outside T self hzw ha).trans hze
        have hns := keeps _ hnw hne
        have hstep := next_priceLe T self hzw (hpos.trans_le hzs) a ha.noLoss
        exact ⟨hnw,hne,hzp.trans (hpos.trans_le hzs) hpos.le (hpos.le.trans hns) hstep⟩)
      actions x ⟨hw,by omega,.refl _⟩
      ((machine T self).along_of_mem actions (fun a ha _ => hsolo a ha) x)
    obtain ⟨hyw,hye,hprice⟩ := hrun
    exact hprice.capital_le hpos hd (keeps _ hyw hye)

def takeOver (env : Env) (p : Nat) (t : Tier) (holder : Address) : List Action := [
  .call env (.deposit p t holder 1),.call env (.withdraw p t holder 1)]

/-- What lets a withdrawal of all the capital of a tranche, and one unit more, go through. -/
structure Payable (x : State × L) (env : Env) (p : Nat) (t : Tier) (holder : Address) : Prop where
  signed : holder∈env.signers
  fits : SignedFits 128 ((x.1.book p).deposited t+1) ∧ SignedFits 128 ((x.1.book p).reserves+1)
  unblocked : t=.senior → (x.1.book p).committed≤0
  covered : (x.1.book p).committed≤(x.1.book p).reserves-(x.1.book p).deposited t
  room : ∃ c l₁ l₂, x.1.poolConfig p=some c ∧
    (0<trancheCap c t → (x.1.book p).deposited t+1≤trancheCap c t) ∧
    T.transfer x.2 c.token holder self 1=some l₁ ∧
    T.transfer l₁ c.token self holder ((x.1.book p).deposited t+1)=some l₂

/-- The first unit put into a tranche without receipts is worth one receipt. -/
theorem deposit_ownerless {env : Env} {s : State} {l l₁ : L} {c : PoolConfig} {v : SolvencyState}
    {D : Int} (hsigned : holder∈env.signers) (hc : s.poolConfig p=some c)
    (hS : readTranche s p t=⟨D,0⟩) (hR : readReceipt s p t holder=0)
    (hv : s.solvency p=some v) (hfit : SignedFits 128 (D+1))
    (hfit' : SignedFits 128 (v.reserves+1)) (hcap : 0<trancheCap c t → D+1≤trancheCap c t)
    (ht : T.transfer l c.token holder self 1=some l₁) :
    ∃ s', deposit T self env s l p t holder 1=.ok (1,s',l₁) ∧
      s'.poolConfig p=some c ∧ readTranche s' p t=⟨D+1,1⟩ ∧ readReceipt s' p t holder=1 ∧
      s'.solvency p=some ⟨v.reserves+1,v.committed⟩ := by
  have one : SignedFits 128 1 := by decide
  let s' := (((s.writeTranche p t ⟨D+1,1⟩).writeReceipt p t holder 1).writeSolvency p
    ⟨v.reserves+1,v.committed⟩).publish (.deposited p t holder 1 1)
  refine ⟨s',?_,hc,?_,?_,?_⟩
  · simp only [deposit,bind_eq_ok,pure_eq_ok,failIf_eq_ok,okOr_eq_ok,readConfig_eq_ok,
      requireAuth_eq_ok,TokenHost.send_eq_ok,readSolvency_eq_ok,Signed.checkedAdd_eq_some,
      Prod.mk.injEq,hS]
    refine ⟨(),hsigned,(),by omega,c,hc,D+1,⟨hfit,rfl⟩,(),by omega,1,rfl,(),by omega,l₁,ht,1,
      ⟨one,rfl⟩,1,⟨?_,?_⟩,v,hv,v.reserves+1,⟨hfit',rfl⟩,rfl,rfl,rfl⟩
    · change SignedFits 128 (readReceipt s p t holder+1)
      rw [hR]
      exact one
    · change readReceipt s p t holder+1=1
      rw [hR]
      rfl
  · simp [s',readTranche,State.publish,State.writeSolvency,State.writeReceipt,State.writeTranche]
  · simp [s',readReceipt,State.publish,State.writeSolvency,State.writeReceipt]
  · simp [s',State.publish,State.writeSolvency]

theorem withdraw_only {env : Env} {s : State} {l l₂ : L} {c : PoolConfig} {v : SolvencyState}
    {D : Int} (hsigned : holder∈env.signers) (hc : s.poolConfig p=some c) (hpos : 0<D)
    (hS : readTranche s p t=⟨D,1⟩) (hR : readReceipt s p t holder=1)
    (hv : s.solvency p=some v) (hfit : SignedFits 128 D) (hfit' : SignedFits 128 v.reserves)
    (hcommitted : 0≤v.committed) (hblocked : t=.senior → v.committed≤0)
    (hcovered : v.committed≤v.reserves-D)
    (ht : T.transfer l c.token self holder D=some l₂) :
    ∃ s', withdraw T self env s l p t holder 1=.ok (D,s',l₂) := by
  have zero : SignedFits 128 0 := by decide
  have hrest : SignedFits 128 (v.reserves-D) := by
    unfold SignedFits at hfit' ⊢
    omega
  have hall : mulDiv 1 D 1=some D := by
    simp [mulDiv,Signed.checkedMul,Signed.checkedDiv,Signed.fit,hfit]
  apply Exists.intro
  simp only [withdraw,bind_eq_ok,pure_eq_ok,failIf_eq_ok,okOr_eq_ok,readConfig_eq_ok,
    requireAuth_eq_ok,TokenHost.send_eq_ok,readSolvency_eq_ok,Signed.checkedSub_eq_some,
    Prod.mk.injEq,hS,hR]
  refine ⟨(),hsigned,(),by omega,c,hc,(),by omega,(),by omega,D,hall,(),by omega,_,hv,(),?_,
    (),by omega,_,⟨hrest,rfl⟩,(),by omega,_,⟨?_,rfl⟩,_,⟨zero,rfl⟩,_,⟨zero,rfl⟩,l₂,ht,rfl,rfl,
    rfl⟩
  · intro h
    have := hblocked h.1
    have := h.2
    omega
  · rw [sub_self]
    exact zero

/-- Whoever comes first to an ownerless tranche takes all of it for nothing. -/
theorem takeOver_inflow {env : Env} (hw : x.1.WellFormed)
    (hr : (x.1.book p).receipt t holder=0) (ho : (x.1.book p).Ownerless t)
    (hpay : Payable T self x env p t holder) :
    (machine T self).tally (inflow T self p t) x (takeOver env p t holder)=
      -(x.1.book p).deposited t := by
  obtain ⟨s,l⟩ := x
  obtain ⟨hsign,⟨hfit,hfit'⟩,hsen,hcov,c,l₁,l₂,hc,hcap,h₁,h₂⟩ := hpay
  obtain ⟨hs,hD⟩ := ho
  have hcommitted := (hw.sound p).committed
  obtain ⟨v,hv⟩ := Option.isSome_iff_exists.mp ((hw.solvency p).trans (by rw [hc]; rfl))
  rw [State.book_reserves hv] at hfit' hcov
  rw [State.book_committed hv] at hsen hcov hcommitted
  generalize hd : (s.book p).deposited t=D at hfit hcov hcap h₂ hD ⊢
  have hS : readTranche s p t=⟨D,0⟩ := by
    have htr : readTranche s p t=⟨(s.book p).deposited t,(s.book p).supply t⟩ := rfl
    rw [htr,hd,hs]
  obtain ⟨s',hdep,hc',hS',hR',hv'⟩ := deposit_ownerless T self hsign hc hS hr hv hfit hfit' hcap h₁
  obtain ⟨s'',hwd⟩ : ∃ s'', withdraw T self env s' l₁ p t holder 1=.ok (D+1,s'',l₂) := by
    apply withdraw_only T self hsign hc' (by omega) hS' hR' hv' hfit hfit' hcommitted hsen _ h₂
    dsimp only
    omega
  have hnext : (machine T self).next (s,l) (.call env (.deposit p t holder 1))=(s',l₁) :=
    (machine T self).next_of_ok (by simp [machine,invoke,hdep,Except.map])
  simp only [takeOver,Machine.tally,hnext,inflow,hdep,hwd,and_self,if_true]
  omega

theorem takeOver_solo (env : Env) (p : Nat) (t : Tier) (holder : Address) :
    ∀ a∈takeOver env p t holder, a.Solo p t holder := by
  intro a ha
  simp only [takeOver,List.mem_cons,List.not_mem_nil,or_false] at ha
  rcases ha with rfl | rfl
  · exact ⟨rfl,rfl,rfl⟩
  · exact ⟨rfl,rfl,rfl⟩

/-- A holder without receipts who acts alone never takes out more than he brings in, unless the
tranche is ownerless and some deposit of his goes through; where all the capital can be paid out,
exactly those tranches fail this. -/
theorem solo_never_profits_iff (admin : Address) (l : L) (history : List Action) (p : Nat)
    (t : Tier) (holder : Address) :
    let M := machine T self
    let x := M.run (deploy admin,l) history
    let Safe := ∀ actions : List Action, (∀ a∈actions, a.Solo p t holder) →
      0≤M.tally (inflow T self p t) x actions
    readReceipt x.1 p t holder=0 →
    let Claimable := (x.1.book p).Ownerless t ∧ Enterable T self x p t holder
    (¬Claimable → Safe) ∧ ∀ env, Payable T self x env p t holder → (Safe ↔ ¬Claimable) := by
  intro M x Safe hr Claimable
  have hw : x.1.WellFormed := run_wellFormed T self admin l history
  have safe : ¬Claimable → Safe := by
    intro hno actions hsolo
    have hup : (x.1.book p).deposited t≤((M.run x actions).1.book p).deposited t := by
      by_cases ho : (x.1.book p).Ownerless t
      · have hstuck : M.run x actions=x :=
          run_stuck T self hr (fun henter => hno ⟨ho,henter⟩) actions hsolo
        rw [hstuck]
      · exact solo_capital T self hw hr ho actions hsolo
    have hflow := run_inflow T self (i := 0) (t := t) hw actions
      (M.along_of_mem actions (fun a ha _ => (hsolo a ha).interlude T self 0) x)
    simp only [M] at *
    omega
  refine ⟨safe,fun env hpay => ⟨?_,safe⟩⟩
  rintro hs ⟨ho,-⟩
  have htake := takeOver_inflow T self hw hr ho hpay
  have hpos := hs _ (takeOver_solo env p t holder)
  have hD := ho.2
  simp only [M] at *
  omega

end Runs

section Sample

def unclaimedSurplus : List Action := [
  .call plainEnv (.createPool plainConfig),
  .call plainEnv (.openSeason 1),
  .call plainEnv (.activateSeason 1 1),
  .call plainEnv (.collectPremium 1 1 ⟨3⟩ 1000),
  .call plainEnv (.closeSeason 1 1),
  .call plainEnv (.settleSeason 1 1)]

/-- The first junior deposit of one unit buys the whole surplus. -/
theorem first_depositor_takes_surplus :
    let M := machine TokenHost.ledger ⟨1⟩
    let x := M.run plainStart unclaimedSurplus
    let y := M.next x (.call plainEnv (.deposit 1 .junior ⟨3⟩ 1))
    readReceipt x.1 1 .junior ⟨3⟩=0 ∧ (x.1.book 1).supply .junior=0 ∧
    (x.1.book 1).deposited .junior=1000 ∧
    (deposit TokenHost.ledger ⟨1⟩ plainEnv x.1 x.2 1 .junior ⟨3⟩ 1).map (fun r => r.1)=.ok 1 ∧
    (withdraw TokenHost.ledger ⟨1⟩ plainEnv y.1 y.2 1 .junior ⟨3⟩ 1).map (fun r => r.1)=
      .ok 1001 := by
  decide +kernel

def openStart : State × (Address → Address → Int) := (deploy ⟨0⟩,fun _ _ => 1000000)

/-- The pool's operators and one more account, without holder 3. -/
def othersEnv : Env := ⟨1000,[⟨0⟩,⟨2⟩,⟨4⟩]⟩

theorem receipts_conserved_half :
    let s := ((machine TokenHost.ledger ⟨1⟩).run openStart twoSeasons).1
    ∃ s' l', withdraw TokenHost.ledger ⟨1⟩ plainEnv s (fun _ _ => 1000) 1 .junior ⟨3⟩ 50=
        .ok (50,s',l') ∧
      50≤(readTranche s 1 .junior).deposited ∧ 1≤(readTranche s' 1 .junior).deposited := by
  intro s
  have hout : (withdraw TokenHost.ledger ⟨1⟩ plainEnv s (fun _ _ => 1000) 1 .junior ⟨3⟩ 50).map
      (fun r => r.1)=.ok 50 := by
    decide +kernel
  have hsupply : (readTranche s 1 .junior).supply=100 := by
    decide +kernel
  rw [except_map_eq_ok] at hout
  obtain ⟨⟨u,s',l'⟩,h,rfl⟩ := hout
  have hw := (receipts_conserved TokenHost.ledger ⟨1⟩ ⟨0⟩ _ twoSeasons 1 .junior).2 _ _ _ _ _ _ _ h
  exact ⟨s',l',h,hw.1,hw.2.2 (lt_of_lt_of_eq (by decide) hsupply.symm)⟩

def busySeason : List Action := [
  .call othersEnv (.deposit 1 .junior ⟨4⟩ 50),
  .call othersEnv (.collectPremium 1 1 ⟨4⟩ 33),
  .call othersEnv (.closeSeason 1 1),
  .call othersEnv (.settleSeason 1 1)]

theorem passive_not_diluted_busy :
    let M := machine TokenHost.ledger ⟨1⟩
    let x := M.run openStart twoSeasons
    ((x.1.book 1).fund .junior).value (readReceipt x.1 1 .junior ⟨3⟩) ≤
      (((M.run x busySeason).1.book 1).fund .junior).value
        (readReceipt (M.run x busySeason).1 1 .junior ⟨3⟩) := by
  intro M x
  have hother : (⟨3⟩ : Address)∉othersEnv.signers := by decide
  have hnet : (settleSeason othersEnv (M.run x [.call othersEnv (.deposit 1 .junior ⟨4⟩ 50),
      .call othersEnv (.collectPremium 1 1 ⟨4⟩ 33),.call othersEnv (.closeSeason 1 1)]).1 1 1).map
      (fun r => r.1)=.ok 33 := by
    decide +kernel
  simp only [Machine.run_cons,Machine.run_nil,M,x,openStart] at hnet
  refine (passive_not_diluted TokenHost.ledger ⟨1⟩ ⟨0⟩ _ twoSeasons busySeason 1 .junior ⟨3⟩
    (by decide +kernel) ?_).2
  refine ⟨⟨hother,by simp [NoLoss]⟩,⟨hother,by simp [NoLoss]⟩,⟨hother,by simp [NoLoss]⟩,
    ⟨hother,?_⟩,trivial⟩
  intro env i net s' ha hs
  cases ha
  rw [hs] at hnet
  cases hnet
  decide

/-- Two calls of a newcomer. -/
theorem solo_never_profits_newcomer :
    let M := machine TokenHost.ledger ⟨1⟩
    let x := M.run openStart twoSeasons
    0≤M.tally (inflow TokenHost.ledger ⟨1⟩ 1 .junior) x
      [.call othersEnv (.deposit 1 .junior ⟨4⟩ 70),.call othersEnv (.withdraw 1 .junior ⟨4⟩ 30)] := by
  intro M x
  have hsupply : (x.1.book 1).supply .junior=100 := by
    decide +kernel
  refine (solo_never_profits_iff TokenHost.ledger ⟨1⟩ ⟨0⟩ _ twoSeasons 1 .junior ⟨4⟩
    (by decide +kernel)).1 ?_ _ ?_
  · exact fun h => absurd (hsupply.symm.trans h.1.1) (by decide)
  · intro a ha
    simp only [List.mem_cons,List.not_mem_nil,or_false] at ha
    rcases ha with rfl | rfl
    · exact ⟨rfl,rfl,rfl⟩
    · exact ⟨rfl,rfl,rfl⟩

end Sample

end Mvua.RiskPool
