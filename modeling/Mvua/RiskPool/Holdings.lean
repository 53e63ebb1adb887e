import Mvua.RiskPool.Custody
import Mvua.RiskPool.Seasons

namespace Mvua.RiskPool

/-- The contract's balance of each token covers what its books hold in it. -/
def Covers {L : Type} (T : TokenHost L) (self : Address) (s : State) (l : L) : Prop :=
  ∀ token, ∃ n, HasTotal (s.held token) n ∧ n≤T.balance l token self

/-- Reserves and premiums are values of their storage type. -/
structure State.Bounded (s : State) : Prop where
  reserves : ∀ p, (s.book p).reserves<2^127
  premiums : ∀ k, s.premiumsIn k<2^127

/-- The checked sums of an entry that adds to reserves or premiums. -/
def Entry.Fits (b : Book) : Entry → Prop
  | .deposit _ _ amount _ => b.reserves+amount<2^127
  | .premium id gross protocolFee publisherFee =>
      b.reserves+(gross-protocolFee-publisherFee)<2^127 ∧
      b.premiumsIn id+(gross-protocolFee-publisherFee)<2^127
  | _ => True

theorem signedFits_upper {x : Int} (h : SignedFits 128 x) : x<2^127 := h.2

section Bounds

variable {s s' : State} {p : Nat} {e : Entry} {c : PoolConfig}

theorem Entry.post_reserves_lt {b : Book} (ha : e.Admits c b) (hf : e.Fits b)
    (hb : b.reserves<2^127) : (b.post e).reserves<2^127 := by
  cases e with
  | deposit tier holder amount minted => exact hf
  | premium id gross protocolFee publisherFee => exact hf.1
  | withdraw tier holder receipts underlying =>
    obtain ⟨-,-,-,hpos,-⟩ := ha
    change b.reserves-underlying<2^127
    omega
  | refund id net =>
    obtain ⟨-,hpos,-⟩ := ha
    change b.reserves-net<2^127
    omega
  | payout id amount =>
    obtain ⟨-,hpos,-⟩ := ha
    change b.reserves-amount<2^127
    omega
  | openSeason | advance | settle | commit => exact hb

theorem Entry.premiumAt_lt {b : Book} (ha : e.Admits c b) (hf : e.Fits b) (i : Nat)
    (hb : b.premiumsIn i<2^127) : b.premiumsIn i+e.premiumAt i<2^127 := by
  cases e with
  | premium id gross protocolFee publisherFee =>
    simp only [Entry.premiumAt]
    split_ifs with hi
    · rw [hi]
      exact hf.2
    · omega
  | refund id net =>
    obtain ⟨-,hpos,-⟩ := ha
    simp only [Entry.premiumAt]
    split_ifs <;> omega
  | _ =>
    simp only [Entry.premiumAt,add_zero]
    exact hb

theorem State.Posts.bounded (hp : s.Posts s' p e) (hw : s.WellFormed) (hf : e.Fits (s.book p))
    (hb : s.Bounded) : s'.Bounded := by
  obtain ⟨c,-,ha⟩ := hp.admits
  refine ⟨fun q => ?_,fun k => ?_⟩
  · by_cases hq : q=p
    · subst hq
      rw [hp.book]
      exact Entry.post_reserves_lt ha hf (hb.reserves _)
    · rw [hp.frame q hq]
      exact hb.reserves q
  · rw [hp.premiumsIn hw]
    split_ifs with hk
    · subst hk
      exact Entry.premiumAt_lt ha hf k.2 (hb.premiums k)
    · rw [add_zero]
      exact hb.premiums k

end Bounds

section Calls

variable {L : Type} {T : TokenHost L} {self : Address} {env : Env} {s s' : State} {l l' : L}

theorem deposit_fits {p : Nat} {t : Tier} {a : Address} {n m : Int}
    (h : deposit T self env s l p t a n=.ok (m,s',l')) :
    (Entry.deposit t a n m).Fits (s.book p) := by
  simp only [deposit,bind_eq_ok,pure_eq_ok,okOr_eq_ok,readSolvency_eq_ok,
    Signed.checkedAdd_eq_some] at h
  obtain ⟨_,-,_,-,_,-,_,-,_,-,_,-,_,-,_,-,_,-,_,-,v,hv,_,⟨hfits,-⟩,-⟩ := h
  have hsame : s.solvency p=some v := hv
  change (s.book p).reserves+n<2^127
  rw [State.book_reserves hsame]
  exact signedFits_upper hfits

theorem collectPremium_fits {p i : Nat} {a : Address} {n m : Int}
    (h : collectPremium T self env s l p i a n=.ok (m,s',l')) :
    ∃ pf qf, m=n-pf-qf ∧ s.Posts s' p (.premium i n pf qf) ∧
      (Entry.premium i n pf qf).Fits (s.book p) := by
  obtain ⟨pf,qf,hm,hp⟩ := collectPremium_posts h
  refine ⟨pf,qf,hm,hp,?_⟩
  simp only [collectPremium,bind_eq_ok,pure_eq_ok,okOr_eq_ok,readSolvency_eq_ok,
    readSeason_eq_ok,Signed.checkedAdd_eq_some,Prod.mk.injEq] at h
  obtain ⟨_,-,_,-,_,-,z,hz,_,-,_,-,_,-,_,-,_,-,_,-,_,-,_,-,_,⟨hpremiums,-⟩,v,hv,_,⟨hfits,-⟩,
    rfl,-⟩ := h
  have hsame : s.solvency p=some v := hv
  change (s.book p).reserves+(n-pf-qf)<2^127 ∧ (s.book p).premiumsIn i+(n-pf-qf)<2^127
  rw [State.book_reserves hsame,State.book_premiumsIn hz,← hm]
  exact ⟨signedFits_upper hfits,signedFits_upper hpremiums⟩

/-- No call takes reserves or premiums out of range. -/
theorem invoke_bounded {call : Call} (hw : s.WellFormed) (hb : s.Bounded)
    (h : invoke T self env call s l=.ok (s',l')) : s'.Bounded := by
  have hstep : (machine T self).step (s,l) (.call env call)=.ok (s',l') := h
  rcases step_cases T self hw hstep with ⟨hk,-⟩ | ⟨p,e,hm,hp⟩
  · refine ⟨fun p => ?_,fun k => ?_⟩
    · rw [hk.book]
      exact hb.reserves p
    · rw [State.premiumsIn,hk.book]
      exact hb.premiums k
  · cases hm with
    | deposit p t src n m =>
      cases invoke_ran h with
      | deposit _ _ _ _ m' hu => exact (deposit_posts hu).bounded hw (deposit_fits hu) hb
    | premium p i src n pf qf =>
      cases invoke_ran h with
      | collectPremium _ _ _ _ m' hu =>
        obtain ⟨_,_,-,hpost,hfits⟩ := collectPremium_fits hu
        exact hpost.bounded hw hfits hb
    | _ => exact hp.bounded hw trivial hb

/-- An entry is covered if the balance gains at least what the entry brings in. -/
theorem Covers.posts {p : Nat} {e : Entry} {c : PoolConfig} (hc : Covers T self s l)
    (hp : s.Posts s' p e) (hconfig : s.poolConfig p=some c)
    (hl : ∀ token, T.balance l token self+(if token=c.token then e.flow else 0)≤
      T.balance l' token self) : Covers T self s' l' := by
  intro token
  obtain ⟨n,ht,hle⟩ := hc token
  have hmoved := ht.move p (if token=c.token then e.flow else 0) (hp.held hconfig token)
  have hbalance := hl token
  exact ⟨_,hmoved,by omega⟩

theorem Covers.tracks (hc : Covers T self s l) (h : Tracks T self s s' l l') :
    Covers T self s' l' := by
  obtain ⟨p,d,hd⟩ := h
  intro token
  obtain ⟨n,ht,hle⟩ := hc token
  obtain ⟨hheld,hbalance⟩ := hd token
  exact ⟨n+d token,ht.move p (d token) hheld,by omega⟩

/-- What a covered pool holds, the balance has at least. -/
theorem Covers.reserves_le (hc : Covers T self s l) (hw : s.WellFormed) {p : Nat} {c : PoolConfig}
    (hconfig : s.poolConfig p=some c) : (s.book p).reserves≤T.balance l c.token self := by
  obtain ⟨n,ht,hle⟩ := hc c.token
  have nonneg : ∀ q, 0 ≤ s.held c.token q := by
    intro q
    have hq := hw.sound q
    have hreserves := hq.committed.trans hq.covered
    have hfees := add_nonneg hq.protocolFees hq.publisherFees
    unfold State.held
    split_ifs
    · unfold Book.funds
      omega
    · exact le_rfl
  have hheld := ht.le nonneg p
  have hown : s.held c.token p=(s.book p).funds := by
    rw [State.held,hconfig,Option.map_some,if_pos rfl]
  have hfees := add_nonneg (hw.sound p).protocolFees (hw.sound p).publisherFees
  rw [hown,Book.funds] at hheld
  omega

/-- A transfer to the contract itself takes nothing that its books do not also lose. -/
theorem transfer_itself (hT : T.Settles) {token : Address} {n : Int}
    (hl : T.transfer l token self self n=some l') (hn : 0<n) (token' : Address) :
    T.balance l token' self+(if token'=token then -n else 0) ≤ T.balance l' token' self := by
  by_cases ht : token'=token
  · subst ht
    rw [if_pos rfl,hT.own _ _ _ _ _ hl]
    omega
  · rw [if_neg ht,add_zero,hT.frame _ _ _ _ _ _ _ _ hl (fun he => absurd he ht)]

/-- A contract that does not sign for itself stays covered through all its calls; a payment to
itself only lowers what it holds. -/
theorem invoke_covers (hT : T.Settles) {call : Call} (hw : s.WellFormed)
    (hself : self∉env.signers) (hc : Covers T self s l)
    (h : invoke T self env call s l=.ok (s',l')) : Covers T self s' l' := by
  have hstep : (machine T self).step (s,l) (.call env call)=.ok (s',l') := h
  by_cases hparty : call.party=some self
  · cases invoke_ran h with
    | deposit p t src n m hu =>
      obtain ⟨_,_,-,-,hsigned,-⟩ := deposit_ok hu
      rw [Option.some.inj hparty] at hsigned
      exact absurd hsigned hself
    | withdraw p t holder n m hu =>
      obtain ⟨_,_,-,-,hsigned,-⟩ := withdraw_ok hu
      rw [Option.some.inj hparty] at hsigned
      exact absurd hsigned hself
    | collectPremium p i src n m hu =>
      obtain ⟨_,_,_,_,_,_,-,-,-,-,hsigned,-⟩ := collectPremium_ok hu
      rw [Option.some.inj hparty] at hsigned
      exact absurd hsigned hself
    | refundPremium p i dst n m hu =>
      obtain ⟨c,_,_,hconfig,-,-,-,-,hn,-,-,-,-,hl,-⟩ := refundPremium_ok hu
      rw [Option.some.inj hparty] at hl
      exact hc.posts (refundPremium_posts hu) hconfig (transfer_itself hT hl hn)
    | payOut p i dst n m hu =>
      obtain ⟨c,_,_,hconfig,-,-,-,-,hn,-,-,-,hl,-⟩ := payOut_ok hu
      rw [Option.some.inj hparty] at hl
      exact hc.posts (payOut_posts hu) hconfig (transfer_itself hT hl hn)
    | _ => cases hparty
  · apply hc.tracks
    apply step_tracks hT.toExact hw ?_ hstep
    intro env' c' he
    cases he
    exact hparty

theorem State.WellFormed.solvency_of_config (hw : s.WellFormed) {p : Nat} {c : PoolConfig}
    (hc : s.poolConfig p=some c) : ∃ v, s.solvency p=some v := by
  have hsome := hw.solvency p
  rw [hc] at hsome
  exact Option.isSome_iff_exists.mp hsome

theorem State.WellFormed.treasury_of_config (hw : s.WellFormed) {p : Nat} {c : PoolConfig}
    (hc : s.poolConfig p=some c) : ∃ y, s.treasury p=some y := by
  have hsome := hw.treasury p
  rw [hc] at hsome
  exact Option.isSome_iff_exists.mp hsome

/-- A refund that the season's premiums and the reserves cover goes through. -/
theorem refundPremium_succeeds (dst : Address) (hT : T.Settles) (hw : s.WellFormed)
    (hb : s.Bounded) (hcov : Covers T self s l) {p i : Nat} {n : Int} {z : Season}
    (hauth : requirePolicyContract env s=.ok ()) (hn : 0<n) (hz : s.season (p,i)=some z)
    (hst : z.state=.opened ∨ z.state=.active) (hpremiums : n≤z.premiumsIn)
    (hreserves : (s.book p).committed≤(s.book p).reserves-n) :
    ∃ s' l', refundPremium T self env s l p i dst n=.ok (n,s',l') := by
  obtain ⟨c,hc⟩ := hw.config_of_season hz
  obtain ⟨v,hv⟩ := hw.solvency_of_config hc
  have hbalance := hcov.reserves_le hw hc
  have hcommitted := (hw.sound p).committed
  have hrange := hb.reserves p
  have hseason := hb.premiums (p,i)
  rw [State.book_reserves hv] at hreserves hbalance hrange
  rw [State.book_committed hv] at hreserves hcommitted
  rw [State.premiumsIn,State.book_premiumsIn hz] at hseason
  obtain ⟨l',hl⟩ := Option.isSome_iff_exists.mp
    (hT.pays l c.token self dst n hn.le (by omega))
  have open' : ¬(z.state≠.opened ∧ z.state≠.active) := by tauto
  have fits : SignedFits 128 (v.reserves-n) := ⟨by omega,by omega⟩
  have fits' : SignedFits 128 (z.premiumsIn-n) := ⟨by omega,by omega⟩
  refine ⟨((s.writeSeason p i { z with premiumsIn := z.premiumsIn-n }).writeSolvency p
    { v with reserves := v.reserves-n }).publish (.premiumRefunded p i dst n),l',?_⟩
  simp only [refundPremium,bind_eq_ok,pure_eq_ok,failIf_eq_ok,okOr_eq_ok,readConfig_eq_ok,
    TokenHost.send_eq_ok,readSolvency_eq_ok,readSeason_eq_ok,Signed.checkedSub_eq_some,
    Prod.mk.injEq]
  exact ⟨(),hauth,(),by omega,c,hc,z,hz,(),open',(),by omega,v,hv,(),by omega,_,⟨fits,rfl⟩,(),
    by omega,_,⟨fits',rfl⟩,l',hl,trivial,rfl,rfl⟩

/-- A premium is not negative, and even its ten thousandfold is in range. -/
theorem computePremium_bounds {params : PremiumParams} {coverage premium : Int}
    (h : computePremium params coverage=.ok premium) :
    0<coverage ∧ 0≤premium ∧ premium*10000<2^127 := by
  simp only [computePremium,bind_eq_ok,failIf_eq_ok,okOr_eq_ok,Signed.checkedMul_eq_some,
    Signed.checkedAdd_eq_some] at h
  obtain ⟨-,hcov,_,⟨-,rfl⟩,_,⟨-,rfl⟩,h⟩ := h
  simp only [bind,Option.bind_eq_some_iff,Signed.checkedMul_eq_some,Signed.checkedAdd_eq_some,
    Signed.checkedDiv_eq_some,bpsDenominator] at h
  obtain ⟨_,⟨-,rfl⟩,_,⟨hfits,rfl⟩,-,-,rfl⟩ := h
  have hcoverage : 0<coverage := by omega
  have hunits : 0 ≤ coverage.tdiv coverageUnit :=
    Int.tdiv_nonneg hcoverage.le (by decide)
  have hslope : 0≤(params.coverageSlopeBps : Int)*coverage.tdiv coverageUnit :=
    mul_nonneg (by omega) hunits
  have hrate : 0≤(params.baseBps : Int)+params.coverageSlopeBps*coverage.tdiv coverageUnit := by
    omega
  have hproduct := mul_nonneg hcoverage.le hrate
  have hsum : 0 ≤ coverage*((params.baseBps : Int)+
      params.coverageSlopeBps*coverage.tdiv coverageUnit)+(10000-1) := by omega
  have hquotient := tdiv_bounds _ 10000 hsum (by decide)
  have hupper := hfits.2
  exact ⟨hcoverage,hquotient.1,lt_of_le_of_lt hquotient.2.1 hupper⟩

/-- A fee on an amount whose ten thousandfold is in range can be computed. -/
theorem accrueFee_total {amount : Int} {bps : Nat} (accrued cap : Int) (ha : 0≤amount)
    (hrange : amount*10000<2^127) (hbps : bps≤10000) :
    ∃ fee, accrueFee amount bps accrued cap=.ok fee := by
  have hle : amount*bps≤amount*10000 := mul_le_mul_of_nonneg_left (by omega) ha
  have hnonneg : 0≤amount*(bps : Int) := mul_nonneg ha (by omega)
  have hfits : SignedFits 128 (amount*bps) := ⟨by omega,by omega⟩
  have hquotient := tdiv_bounds (amount*bps) 10000 hnonneg (by decide)
  have hfits' : SignedFits 128 ((amount*bps).tdiv 10000) := ⟨by omega,by omega⟩
  have hshare : applyBps amount bps=some ((amount*bps).tdiv 10000) := by
    simp only [applyBps,bind,Option.bind_eq_some_iff,Signed.checkedMul_eq_some,
      Signed.checkedDiv_eq_some,bpsDenominator]
    exact ⟨_,⟨hfits,rfl⟩,by decide,hfits',rfl⟩
  simp only [accrueFee,hshare,okOr,ok_bind]
  split_ifs
  · exact ⟨_,rfl⟩
  · exact ⟨_,rfl⟩

/-- The checked sums of a premium payment. -/
structure Room (s : State) (p i : Nat) (protocolFee publisherFee net : Int) : Prop where
  protocolFees : SignedFits 128 ((s.book p).protocolFees+protocolFee)
  publisherFees : SignedFits 128 ((s.book p).publisherFees+publisherFee)
  premiums : SignedFits 128 ((s.book p).premiumsIn i+net)
  reserves : SignedFits 128 ((s.book p).reserves+net)

/-- A premium that the payer has goes through if the sums have room. -/
theorem collectPremium_succeeds (hT : T.Settles) (hw : s.WellFormed) {p i : Nat}
    {src : Address} {n pf qf : Int} {c : PoolConfig} {z : Season} (hsigned : src∈env.signers)
    (hn : 0<n) (hc : s.poolConfig p=some c) (hz : s.season (p,i)=some z)
    (hst : z.state=.opened ∨ z.state=.active) (hbalance : n≤T.balance l c.token src)
    (hp : accrueFee n c.fee.protocolBps (s.book p).protocolFees c.fee.protocolCap=.ok pf)
    (hq : accrueFee n c.fee.publisherBps (s.book p).publisherFees c.fee.publisherCap=.ok qf)
    (hfirst : SignedFits 128 (n-pf)) (hnet : SignedFits 128 (n-pf-qf))
    (room : Room s p i pf qf (n-pf-qf)) :
    ∃ s' l', collectPremium T self env s l p i src n=.ok (n-pf-qf,s',l') ∧
      T.transfer l c.token src self n=some l' := by
  obtain ⟨v,hv⟩ := hw.solvency_of_config hc
  obtain ⟨y,hy⟩ := hw.treasury_of_config hc
  have htreasury : (s.book p).protocolFees=y.protocolFees ∧
      (s.book p).publisherFees=y.publisherFees := by
    simp [State.book,hy]
  have protocolRoom := room.protocolFees
  have publisherRoom := room.publisherFees
  have premiumRoom := room.premiums
  have reserveRoom := room.reserves
  rw [htreasury.1] at hp protocolRoom
  rw [htreasury.2] at hq publisherRoom
  rw [State.book_premiumsIn hz] at premiumRoom
  rw [State.book_reserves hv] at reserveRoom
  obtain ⟨l',hl⟩ := Option.isSome_iff_exists.mp (hT.pays l c.token src self n hn.le hbalance)
  have open' : ¬(z.state≠.opened ∧ z.state≠.active) := by tauto
  refine ⟨(((s.writeTreasury p ⟨y.protocolFees+pf,y.publisherFees+qf⟩).writeSeason p i
    { z with premiumsIn := z.premiumsIn+(n-pf-qf) }).writeSolvency p
    { v with reserves := v.reserves+(n-pf-qf) }).publish
    (.premiumCollected p i src n (n-pf-qf) pf qf),l',?_,hl⟩
  have hsplit : (do
      let v ← I128.checkedSub n pf
      I128.checkedSub v qf)=some (n-pf-qf) := by
    simp only [bind,Option.bind_eq_some_iff,Signed.checkedSub_eq_some]
    exact ⟨n-pf,⟨hfirst,rfl⟩,hnet,rfl⟩
  simp only [collectPremium,bind_eq_ok,pure_eq_ok,failIf_eq_ok,okOr_eq_ok,readConfig_eq_ok,
    requireAuth_eq_ok,TokenHost.send_eq_ok,readSolvency_eq_ok,readSeason_eq_ok,
    readTreasury_eq_ok,Signed.checkedAdd_eq_some,Prod.mk.injEq]
  exact ⟨(),hsigned,(),by omega,c,hc,z,hz,(),open',y,hy,pf,hp,qf,hq,_,hsplit,l',hl,
    _,⟨protocolRoom,rfl⟩,_,⟨publisherRoom,rfl⟩,_,⟨premiumRoom,rfl⟩,v,hv,_,⟨reserveRoom,rfl⟩,
    rfl,rfl,rfl⟩

end Calls

end Mvua.RiskPool
