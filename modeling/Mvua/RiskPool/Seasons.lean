import Mvua.RiskPool.Reachable

namespace Mvua.RiskPool

namespace Book

/-- A figure of a season; a season that was not opened has none. -/
def figure (b : Book) (f : Season → Int) (i : Nat) : Int := ((b.season i).map f).getD 0

def premiumsIn (b : Book) (i : Nat) : Int := b.figure Season.premiumsIn i
def payoutsPaid (b : Book) (i : Nat) : Int := b.figure Season.payoutsPaid i

variable {b c : Book} {f : Season → Int} {g : Season → Season} {id : Nat}

theorem figure_congr (h : c.season=b.season) (i : Nat) : c.figure f i=b.figure f i := by
  rw [figure,figure,h]

/-- A season update moves a figure of that season only. -/
theorem figure_onSeason {z : Season} (hz : b.season id=some z) (i : Nat) :
    (b.onSeason id g).figure f i=b.figure f i+if i=id then f (g z)-f z else 0 := by
  by_cases hi : i=id
  · subst i; simp [figure,onSeason,hz]
  · simp [figure,onSeason,hi]

theorem figure_onSeason_same (hg : ∀ z, f (g z)=f z) (i : Nat) :
    (b.onSeason id g).figure f i=b.figure f i := by
  by_cases hi : i=id
  · subst hi
    cases hz : b.season i <;> simp [figure,onSeason,hz,hg]
  · simp [figure,onSeason,hi]

/-- A new season starts every figure that is zero in it. -/
theorem figure_openSeason (hb : b.Sound) {z : Season} (hz : f z=0) (i : Nat) :
    (b.post (.openSeason z)).figure f i=b.figure f i := by
  by_cases hi : i=b.seasons+1
  · subst i
    have hnone : b.season (b.seasons+1)=none := hb.fresh _ (by omega)
    simp [figure,post,hnone,hz]
  · simp [figure,post,hi]

end Book

/-- What an entry adds to the net premiums of a season. -/
def Entry.premiumAt (i : Nat) : Entry → Int
  | .premium id gross protocolFee publisherFee =>
      if i=id then gross-protocolFee-publisherFee else 0
  | .refund id net => if i=id then -net else 0
  | _ => 0

/-- What an entry adds to the payouts of a season. -/
def Entry.payoutAt (i : Nat) : Entry → Int
  | .payout id amount => if i=id then amount else 0
  | _ => 0

section Entries

variable {c : PoolConfig} {b : Book} {e : Entry}

theorem Entry.post_premiumsIn (hb : b.Sound) (h : e.Admits c b) (i : Nat) :
    (b.post e).premiumsIn i=b.premiumsIn i+e.premiumAt i := by
  cases e with
  | openSeason z => exact (Book.figure_openSeason hb h.2.1 i).trans (add_zero _).symm
  | premium id gross p q =>
    obtain ⟨⟨z,hz,-⟩,-⟩ := h
    have hpost := Book.figure_onSeason (f := Season.premiumsIn)
      (g := fun z => { z with premiumsIn := z.premiumsIn+(gross-p-q) }) hz i
    rw [add_sub_cancel_left] at hpost
    exact (Book.figure_congr rfl i).trans hpost
  | refund id net =>
    obtain ⟨⟨z,hz,-⟩,-⟩ := h
    have hpost := Book.figure_onSeason (f := Season.premiumsIn)
      (g := fun z => { z with premiumsIn := z.premiumsIn-net }) hz i
    rw [sub_sub_cancel_left] at hpost
    exact (Book.figure_congr rfl i).trans hpost
  | advance id dst =>
    simp only [Entry.premiumAt,add_zero]
    exact Book.figure_onSeason_same (g := fun z => { z with state := dst }) (fun _ => rfl) i
  | settle id =>
    simp only [Entry.premiumAt,add_zero]
    exact (Book.figure_congr rfl i).trans (Book.figure_onSeason_same
      (g := fun z => { z with state := .settled }) (fun _ => rfl) i)
  | payout id amount =>
    simp only [Entry.premiumAt,add_zero]
    exact (Book.figure_congr rfl i).trans (Book.figure_onSeason_same
      (g := fun z => { z with payoutsPaid := z.payoutsPaid+amount }) (fun _ => rfl) i)
  | deposit | withdraw | commit =>
    simp only [Entry.premiumAt,add_zero]
    exact Book.figure_congr rfl i

theorem Entry.post_payoutsPaid (hb : b.Sound) (h : e.Admits c b) (i : Nat) :
    (b.post e).payoutsPaid i=b.payoutsPaid i+e.payoutAt i := by
  cases e with
  | openSeason z => exact (Book.figure_openSeason hb h.2.2.2 i).trans (add_zero _).symm
  | payout id amount =>
    obtain ⟨⟨z,hz,-⟩,-⟩ := h
    have hpost := Book.figure_onSeason (f := Season.payoutsPaid)
      (g := fun z => { z with payoutsPaid := z.payoutsPaid+amount }) hz i
    rw [add_sub_cancel_left] at hpost
    exact (Book.figure_congr rfl i).trans hpost
  | advance id dst =>
    simp only [Entry.payoutAt,add_zero]
    exact Book.figure_onSeason_same (g := fun z => { z with state := dst }) (fun _ => rfl) i
  | settle id =>
    simp only [Entry.payoutAt,add_zero]
    exact (Book.figure_congr rfl i).trans (Book.figure_onSeason_same
      (g := fun z => { z with state := .settled }) (fun _ => rfl) i)
  | premium id gross p q =>
    simp only [Entry.payoutAt,add_zero]
    exact (Book.figure_congr rfl i).trans (Book.figure_onSeason_same
      (g := fun z => { z with premiumsIn := z.premiumsIn+(gross-p-q) }) (fun _ => rfl) i)
  | refund id net =>
    simp only [Entry.payoutAt,add_zero]
    exact (Book.figure_congr rfl i).trans (Book.figure_onSeason_same
      (g := fun z => { z with premiumsIn := z.premiumsIn-net }) (fun _ => rfl) i)
  | deposit | withdraw | commit =>
    simp only [Entry.payoutAt,add_zero]
    exact Book.figure_congr rfl i

end Entries

/-- The net premiums of every season of every pool. -/
def State.premiumsIn (s : State) (k : Nat × Nat) : Int := (s.book k.1).premiumsIn k.2

/-- The payouts of every season of every pool. -/
def State.payoutsPaid (s : State) (k : Nat × Nat) : Int := (s.book k.1).payoutsPaid k.2

theorem State.book_premiumsIn {s : State} {p i : Nat} {z : Season} (hz : s.season (p,i)=some z) :
    (s.book p).premiumsIn i=z.premiumsIn := by
  simp [Book.premiumsIn,Book.figure,State.book,hz]

section Postings

variable {s s' : State} {p : Nat} {e : Entry}

theorem State.Posts.premiumsIn (hp : s.Posts s' p e) (hw : s.WellFormed) (k : Nat × Nat) :
    s'.premiumsIn k=s.premiumsIn k+if k.1=p then e.premiumAt k.2 else 0 := by
  unfold State.premiumsIn
  by_cases hk : k.1=p
  · obtain ⟨c,-,hadm⟩ := hp.admits
    rw [hk,hp.book,Entry.post_premiumsIn (hw.sound p) hadm,if_pos rfl]
  · rw [hp.frame _ hk,if_neg hk,add_zero]

theorem State.Posts.payoutsPaid (hp : s.Posts s' p e) (hw : s.WellFormed) (k : Nat × Nat) :
    s'.payoutsPaid k=s.payoutsPaid k+if k.1=p then e.payoutAt k.2 else 0 := by
  unfold State.payoutsPaid
  by_cases hk : k.1=p
  · obtain ⟨c,-,hadm⟩ := hp.admits
    rw [hk,hp.book,Entry.post_payoutsPaid (hw.sound p) hadm,if_pos rfl]
  · rw [hp.frame _ hk,if_neg hk,add_zero]

end Postings

/-- The net of a premium lies between nothing and the gross. -/
theorem collectPremium_net {L : Type} {T : TokenHost L} {self src : Address} {env : Env}
    {s s' : State} {l l' : L} {p i : Nat} {n m : Int} (hw : s.WellFormed)
    (h : collectPremium T self env s l p i src n=.ok (m,s',l')) : 0 ≤ m ∧ m≤n := by
  obtain ⟨c,_,_,_,pf,qf,hc,-,-,-,-,hn,-,hp,hq,rfl,-,-⟩ := collectPremium_ok h
  have bp := accrueFee_bounds hp hn.le
  have bq := accrueFee_bounds hq hn.le
  have hnet := net_nonneg hn.le bp.2.1 bq.2.1 (hw.accepted p c hc).fees.1
  exact ⟨hnet,by omega⟩

/-- The fees accrued for protocol and publishers together. -/
def Book.treasury (b : Book) : Int := b.protocolFees+b.publisherFees

/-- A premium moves the season and the reserves by its net, which is what the treasury leaves of
the gross. -/
theorem collectPremium_moves {L : Type} {T : TokenHost L} {self src : Address} {env : Env}
    {s s' : State} {l l' : L} {p i : Nat} {n m : Int}
    (h : collectPremium T self env s l p i src n=.ok (m,s',l')) :
    s'.poolConfig=s.poolConfig ∧ (s'.book p).premiumsIn i=(s.book p).premiumsIn i+m ∧
      (s'.book p).reserves=(s.book p).reserves+m ∧
      m=n-((s'.book p).treasury-(s.book p).treasury) := by
  obtain ⟨pf,qf,rfl,hp⟩ := collectPremium_posts h
  obtain ⟨c,-,hadmits⟩ := hp.admits
  obtain ⟨⟨z,hz,-⟩,-⟩ := hadmits
  refine ⟨hp.poolConfig,?_,?_,?_⟩
  · rw [hp.book]
    have hmoved := Book.figure_onSeason (f := Season.premiumsIn)
      (g := fun z => { z with premiumsIn := z.premiumsIn+(n-pf-qf) }) hz i
    rw [if_pos rfl,add_sub_cancel_left] at hmoved
    exact hmoved
  · rw [hp.book]
    rfl
  · rw [hp.book]
    simp only [Book.treasury,Book.post]
    omega

section Configuration

variable {L : Type} {T : TokenHost L} {self : Address} {env : Env} {s s' : State} {l l' : L}

/-- The configured policy contract and payout vault change through their setters only. -/
theorem invoke_configured {c : Call} (h : invoke T self env c s l=.ok (s',l')) :
    (s'.policyContract=s.policyContract ∨
      ∃ a, c=.setPolicyContract a ∧ s'.policyContract=some a) ∧
    (s'.payoutVault=s.payoutVault ∨ ∃ a, c=.setPayoutVault a ∧ s'.payoutVault=some a) := by
  cases invoke_ran h with
  | setPolicyContract policy hu =>
    obtain ⟨-,rfl⟩ := setPolicyContract_ok hu
    exact ⟨.inr ⟨policy,rfl,rfl⟩,.inl rfl⟩
  | setPayoutVault vault hu =>
    obtain ⟨-,rfl⟩ := setPayoutVault_ok hu
    exact ⟨.inl rfl,.inr ⟨vault,rfl,rfl⟩⟩
  | createPool config p hu =>
    obtain ⟨-,-,-,rfl⟩ := createPool_ok hu
    exact ⟨.inl rfl,.inl rfl⟩
  | deposit p t src n m hu =>
    obtain ⟨_,_,-,-,-,-,-,-,-,-,rfl⟩ := deposit_ok hu
    exact ⟨.inl rfl,.inl rfl⟩
  | withdraw p t holder n m hu =>
    obtain ⟨_,_,-,-,-,-,-,-,-,-,-,-,-,-,rfl⟩ := withdraw_ok hu
    exact ⟨.inl rfl,.inl rfl⟩
  | openSeason p i hu =>
    obtain ⟨_,-,-,-,rfl⟩ := openSeason_ok hu
    exact ⟨.inl rfl,.inl rfl⟩
  | activateSeason p i hu | closeSeason p i hu =>
    obtain ⟨_,-,-,-,rfl⟩ := transitionSeason_ok hu
    exact ⟨.inl rfl,.inl rfl⟩
  | collectPremium p i src n m hu =>
    obtain ⟨_,_,_,_,_,_,-,-,-,-,-,-,-,-,-,-,-,rfl⟩ := collectPremium_ok hu
    exact ⟨.inl rfl,.inl rfl⟩
  | refundPremium p i dst n m hu =>
    obtain ⟨_,_,_,-,-,-,-,-,-,-,-,-,-,-,rfl⟩ := refundPremium_ok hu
    exact ⟨.inl rfl,.inl rfl⟩
  | payOut p i dst n m hu =>
    obtain ⟨_,_,_,-,-,-,-,-,-,-,-,-,-,rfl⟩ := payOut_ok hu
    exact ⟨.inl rfl,.inl rfl⟩
  | settleSeason p i net hu =>
    obtain ⟨_,v,-,-,-,-,hv,rfl⟩ := settleSeason_ok hu
    obtain ⟨f,rfl⟩ := distribute_frame hv
    exact ⟨.inl rfl,.inl rfl⟩

end Configuration

end Mvua.RiskPool
