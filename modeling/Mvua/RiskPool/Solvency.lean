import Mvua.RiskPool.Book
import Mvua.Math.Fund

namespace Mvua.RiskPool

def PoolConfig.Accepted (c : PoolConfig) : Prop := validateConfig c=.ok ()

theorem PoolConfig.Accepted.fees {c : PoolConfig} (h : c.Accepted) :
    c.fee.protocolBps+c.fee.publisherBps≤10000 ∧ 0 ≤ c.fee.protocolCap ∧ 0 ≤ c.fee.publisherCap := by
  simp only [Accepted,validateConfig,bind_eq_ok,failIf_eq_ok,exists_and_left] at h
  omega

/-- A fee is no more than the exact share, and keeps the accrued total under its cap. -/
theorem accrueFee_bounds {amount accrued cap fee : Int} {bps : Nat}
    (h : accrueFee amount bps accrued cap=.ok fee) (ha : 0≤amount) :
    0≤fee ∧ fee*10000≤amount*bps ∧ (cap≠0 → fee ≤ max (cap-accrued) 0) := by
  simp only [accrueFee,bind_eq_ok,okOr_eq_ok] at h
  obtain ⟨desired,hd,h⟩ := h
  have hb := applyBps_bounds hd ha
  split_ifs at h with hcap
  · rw [pure_eq_ok] at h
    subst h
    exact ⟨hb.1,hb.2.1,fun hn => absurd hcap hn⟩
  · rw [pure_eq_ok] at h
    have room : (I128.checkedSub cap accrued).getD 0 ≤ max (cap-accrued) 0 := by
      cases hs : I128.checkedSub cap accrued with
      | none => simp
      | some v =>
        rw [Signed.checkedSub_eq_some] at hs
        simp [← hs.2]
    subst h
    exact ⟨by omega,by omega,fun _ => by omega⟩

/-- Two fees whose rates add up to at most the whole premium leave a nonnegative net. -/
theorem net_nonneg {gross p q : Int} {m n : Nat} (hg : 0≤gross) (hp : p*10000≤gross*m)
    (hq : q*10000≤gross*n) (hmn : m+n≤10000) : 0≤gross-p-q := by
  have hs : gross*(m+n : Nat)≤gross*10000 := mul_le_mul_of_nonneg_left (by omega) hg
  push_cast at hs
  nlinarith

namespace Book

/-- The invariant of a pool's books. -/
structure Sound (b : Book) : Prop where
  deposited : ∀ t, 0≤b.deposited t
  receipt : ∀ t h, 0≤b.receipt t h
  supply : ∀ t, HasTotal (b.receipt t) (b.supply t)
  premiums : ∀ i z, b.season i=some z → 0≤z.premiumsIn
  payouts : ∀ i z, b.season i=some z → 0≤z.payoutsPaid
  protocolFees : 0≤b.protocolFees
  publisherFees : 0≤b.publisherFees
  committed : 0≤b.committed
  covered : b.committed≤b.reserves
  fresh : ∀ i, b.seasons < i → b.season i=none

theorem blank_sound : blank.Sound where
  deposited _ := le_rfl
  receipt _ _ := le_rfl
  supply _ := HasTotal.zero
  premiums _ _ h := nomatch h
  payouts _ _ h := nomatch h
  protocolFees := le_rfl
  publisherFees := le_rfl
  committed := le_rfl
  covered := le_rfl
  fresh _ _ := rfl

variable {b : Book}

theorem Sound.receipt_le_supply (h : b.Sound) (t : Tier) (a : Address) :
    b.receipt t a≤b.supply t := (h.supply t).le (h.receipt t) a

theorem Sound.supply_nonneg (h : b.Sound) (t : Tier) : 0≤b.supply t := by
  rw [← (h.supply t).total]
  exact finsum_nonneg (h.receipt t)

/-- Burning receipts that exist releases no more than the tranche holds. -/
theorem Sound.underlying_le (h : b.Sound) {t : Tier} {receipts underlying : Int}
    (hr : 0 < receipts) (hle : receipts≤b.supply t) (hs : 0<b.supply t)
    (hu : underlying=(receipts*b.deposited t).tdiv (b.supply t)) :
    underlying≤b.deposited t := by
  have hd := h.deposited t
  let f : Fund := ⟨b.deposited t,b.supply t⟩
  have hvalue : underlying=f.value receipts := by
    rw [hu,Int.tdiv_eq_ediv_of_nonneg (mul_nonneg hr.le hd)]
    rfl
  rw [hvalue]
  exact f.value_le_capital hs hd hle

theorem onSeason_some {b : Book} {id i : Nat} {f : Season → Season} {z : Season}
    (h : (b.onSeason id f).season i=some z) :
    (i≠id ∧ b.season i=some z) ∨ (i=id ∧ ∃ y, b.season id=some y ∧ z=f y) := by
  by_cases hi : i=id
  · subst i
    simp only [onSeason,Function.update_self,Option.map_eq_some_iff] at h
    obtain ⟨y,hy,rfl⟩ := h
    exact .inr ⟨rfl,y,hy,rfl⟩
  · simp only [onSeason,Function.update_of_ne hi] at h
    exact .inl ⟨hi,h⟩

/-- A property of seasons that `f` keeps on season `id` holds after the update. -/
theorem onSeason_forall {P : Season → Prop} {id : Nat} {f : Season → Season}
    (h : ∀ i z, b.season i=some z → P z) (hf : ∀ z, b.season id=some z → P z → P (f z)) :
    ∀ i z, (b.onSeason id f).season i=some z → P z := by
  intro i z hz
  rcases onSeason_some hz with ⟨-,hz⟩ | ⟨-,y,hy,rfl⟩
  · exact h i z hz
  · exact hf y hy (h id y hy)

theorem onSeason_fresh {id : Nat} {f : Season → Season}
    (h : ∀ i, b.seasons < i → b.season i=none) :
    ∀ i, b.seasons < i → (b.onSeason id f).season i=none := by
  intro i hi
  by_cases he : i=id
  · subst i; simp [onSeason,h _ hi]
  · simp [onSeason,he,h i hi]

/-- Capital after a settlement is never negative. -/
theorem Sound.settled_nonneg (h : b.Sound) (net : Int) (t : Tier) : 0≤b.settled net t := by
  have hj := h.deposited .junior
  have hs := h.deposited .senior
  cases t <;> simp only [settled] <;> split_ifs <;> omega

/-- One holder's receipts and the supply of the tranche move by the same amount. -/
theorem Sound.receipts_move (h : b.Sound) (t : Tier) (a : Address) (n : Int)
    (hn : 0≤b.receipt t a+n) :
    (∀ u x, 0≤Function.update b.receipt t
      (Function.update (b.receipt t) a (b.receipt t a+n)) u x) ∧
    (∀ u, HasTotal (Function.update b.receipt t
      (Function.update (b.receipt t) a (b.receipt t a+n)) u)
      (Function.update b.supply t (b.supply t+n) u)) := by
  constructor
  · intro u x
    by_cases hu : u=t
    · subst u
      by_cases hx : x=a
      · subst x; simpa using hn
      · simpa [hx] using h.receipt t x
    · simpa [hu] using h.receipt u x
  · intro u
    by_cases hu : u=t
    · subst u
      have hm := (h.supply t).update a (b.receipt t a+n)
      have he : b.supply t-b.receipt t a+(b.receipt t a+n)=b.supply t+n := by omega
      rw [he] at hm
      simpa using hm
    · simpa [hu] using h.supply u

theorem deposited_move (h : ∀ t, 0≤b.deposited t) (t : Tier) (v : Int) (hv : 0≤v) :
    ∀ u, 0≤Function.update b.deposited t v u := by
  intro u
  by_cases hu : u=t
  · subst u; simpa using hv
  · simpa [hu] using h u

end Book

/-- What holds of every season and of a new one holds once that is opened. -/
theorem Book.openSeason_forall {b : Book} {z : Season} {P : Season → Prop}
    (h : ∀ i y, b.season i=some y → P y) (hz : P z) :
    ∀ i y, (b.post (.openSeason z)).season i=some y → P y := by
  intro i y hy
  simp only [Book.post] at hy
  by_cases hi : i=b.seasons+1
  · subst i
    simp only [Function.update_self,Option.some.injEq] at hy
    exact hy ▸ hz
  · rw [Function.update_of_ne hi] at hy
    exact h i y hy

/-- Every entry that the guards admit keeps the books sound. -/
theorem Entry.sound {c : PoolConfig} {b : Book} {e : Entry} (hc : c.Accepted)
    (h : e.Admits c b) (hb : b.Sound) : (b.post e).Sound := by
  cases e with
  | deposit t a amount minted =>
    obtain ⟨hpos,hmint,-⟩ := h
    have hd := hb.deposited t
    have hr := hb.receipt t a
    obtain ⟨hrec,hsup⟩ := hb.receipts_move t a minted (by omega)
    have hcov := hb.covered
    exact { hb with
      deposited := Book.deposited_move hb.deposited t _ (by omega)
      receipt := hrec
      supply := hsup
      covered := by simp only [Book.post,Book.onTranche,Book.onReceipt]; omega }
  | withdraw t a receipts underlying =>
    obtain ⟨hr,hle,hs,hu,hq,-,-,hcov⟩ := h
    have hout := hb.underlying_le hr (hle.trans (hb.receipt_le_supply t a)) hs hq
    obtain ⟨hrec,hsup⟩ := hb.receipts_move t a (-receipts) (by omega)
    exact { hb with
      deposited := Book.deposited_move hb.deposited t _ (by omega)
      receipt := hrec
      supply := hsup
      covered := hcov }
  | openSeason z =>
    obtain ⟨-,hp,-,ho⟩ := h
    exact { hb with
      premiums := Book.openSeason_forall hb.premiums (by omega)
      payouts := Book.openSeason_forall hb.payouts (by omega)
      fresh := by
        intro i hi
        simp only [Book.post] at hi ⊢
        rw [Function.update_of_ne (by omega)]
        exact hb.fresh i (by omega) }
  | advance id dst =>
    exact { hb with
      premiums := Book.onSeason_forall hb.premiums (fun _ _ hz => hz)
      payouts := Book.onSeason_forall hb.payouts (fun _ _ hz => hz)
      fresh := Book.onSeason_fresh hb.fresh }
  | premium id gross p q =>
    obtain ⟨-,hg,hp,hq⟩ := h
    have bp := accrueFee_bounds hp hg.le
    have bq := accrueFee_bounds hq hg.le
    have hn := net_nonneg hg.le bp.2.1 bq.2.1 hc.fees.1
    have hcov := hb.covered
    have hpf := hb.protocolFees
    have hqf := hb.publisherFees
    exact { hb with
      premiums := Book.onSeason_forall hb.premiums (fun _ _ hz => by dsimp only; omega)
      payouts := Book.onSeason_forall hb.payouts (fun _ _ hz => hz)
      protocolFees := by simp only [Book.post]; omega
      publisherFees := by simp only [Book.post]; omega
      covered := by simp only [Book.post,Book.onSeason]; omega
      fresh := Book.onSeason_fresh hb.fresh }
  | refund id net =>
    obtain ⟨-,-,hle,-,hcov⟩ := h
    exact { hb with
      premiums := Book.onSeason_forall hb.premiums (fun z hz _ => by
        have := hle z hz
        dsimp only
        omega)
      payouts := Book.onSeason_forall hb.payouts (fun _ _ hz => hz)
      covered := hcov
      fresh := Book.onSeason_fresh hb.fresh }
  | payout id amount =>
    obtain ⟨-,hpos,-,hcov⟩ := h
    exact { hb with
      premiums := Book.onSeason_forall hb.premiums (fun _ _ hz => hz)
      payouts := Book.onSeason_forall hb.payouts (fun _ _ hz => by dsimp only; omega)
      covered := hcov
      fresh := Book.onSeason_fresh hb.fresh }
  | settle id =>
    exact { hb with
      deposited := hb.settled_nonneg _
      premiums := Book.onSeason_forall hb.premiums (fun _ _ hz => hz)
      payouts := Book.onSeason_forall hb.payouts (fun _ _ hz => hz)
      fresh := Book.onSeason_fresh hb.fresh }
  | commit amount =>
    exact { hb with
      committed := h.1
      covered := h.2 }

end Mvua.RiskPool
