import Mvua.RiskPool.Settlement

namespace Mvua.RiskPool

section Writes

variable (s : State) (p : Nat) (a b : TrancheState)

theorem writeTranche_same (t : Tier) :
    (s.writeTranche p t a).writeTranche p t b=s.writeTranche p t b := by
  simp [State.writeTranche]

/-- An earlier junior record is overwritten through a senior one. -/
theorem writeTranche_across (c : TrancheState) :
    ((s.writeTranche p .junior a).writeTranche p .senior b).writeTranche p .junior c=
      (s.writeTranche p .junior c).writeTranche p .senior b := by
  have hne : (p,Tier.senior)≠(p,Tier.junior) := by simp
  simp only [State.writeTranche]
  rw [Function.update_comm hne,Function.update_idem]

end Writes

section Loss

variable {s : State} {p : Nat}

def TrancheState.bear (v : TrancheState) (loss : Int) : TrancheState :=
  { v with deposited := v.deposited-min loss v.deposited }

/-- The storage after a loss: senior is written only for what junior cannot bear. -/
def State.absorbed (s : State) (p : Nat) (loss : Int) : State :=
  let junior := readTranche s p .junior
  let senior := readTranche s p .senior
  let t := s.writeTranche p .junior (junior.bear loss)
  if junior.deposited<loss then
    t.writeTranche p .senior (senior.bear (loss-junior.deposited))
  else t

/-- Both tranches hold a nonnegative amount of the token. -/
structure State.Stocked (s : State) (p : Nat) : Prop where
  nonneg : ∀ t, 0≤(readTranche s p t).deposited
  fits : ∀ t, SignedFits 128 (readTranche s p t).deposited

theorem absorbLoss_absorbed (h : s.Stocked p) {loss : Int} (h0 : 0≤loss)
    (hfit : SignedFits 128 loss) : absorbLoss s p loss=.ok (s.absorbed p loss) := by
  have hJ := h.nonneg .junior
  have hS := h.nonneg .senior
  have hJ' : (readTranche s p .junior).deposited<2^127 := (h.fits .junior).2
  have hS' : (readTranche s p .senior).deposited<2^127 := (h.fits .senior).2
  have hloss : loss<2^127 := hfit.2
  have hjunior : I128.checkedSub (readTranche s p .junior).deposited
      (min loss (readTranche s p .junior).deposited)=
      some ((readTranche s p .junior).bear loss).deposited :=
    (Signed.checkedSub_eq_some _ _ _ _).mpr ⟨.of_nonneg (by omega) (by omega),rfl⟩
  have hrest : I128.checkedSub loss (min loss (readTranche s p .junior).deposited)=
      some (loss-min loss (readTranche s p .junior).deposited) :=
    (Signed.checkedSub_eq_some _ _ _ _).mpr ⟨.of_nonneg (by omega) (by omega),rfl⟩
  unfold absorbLoss State.absorbed
  dsimp only
  rw [hjunior,okOr,ok_bind,hrest,okOr,ok_bind]
  by_cases hbeyond : (readTranche s p .junior).deposited<loss
  · have hmin : min loss (readTranche s p .junior).deposited=
        (readTranche s p .junior).deposited := min_eq_right hbeyond.le
    have hpos : loss-(readTranche s p .junior).deposited>0 := by omega
    have hsame : ∀ v, readTranche (s.writeTranche p .junior v) p .senior=
        readTranche s p .senior := by
      intro v
      rw [readTranche_writeTranche,if_neg (by simp)]
    have hsenior : I128.checkedSub (readTranche s p .senior).deposited
        (min (loss-(readTranche s p .junior).deposited) (readTranche s p .senior).deposited)=
        some ((readTranche s p .senior).bear
          (loss-(readTranche s p .junior).deposited)).deposited :=
      (Signed.checkedSub_eq_some _ _ _ _).mpr ⟨.of_nonneg (by omega) (by omega),rfl⟩
    rw [hmin,if_pos hpos,if_pos hbeyond,hsame,hsenior]
    rfl
  · have hmin : min loss (readTranche s p .junior).deposited=loss :=
      min_eq_left (not_lt.mp hbeyond)
    rw [hmin,sub_self,if_neg (lt_irrefl 0),if_neg hbeyond]
    rfl

theorem TrancheState.bear_bear (v : TrancheState) {x y : Int} (hy : 0≤y) :
    (v.bear x).bear y=v.bear (x+y) := by
  have hsum : v.deposited-min x v.deposited-min y (v.deposited-min x v.deposited)=
      v.deposited-min (x+y) v.deposited := by omega
  simp only [TrancheState.bear,hsum]

theorem readTranche_absorbed (s : State) (p : Nat) (loss : Int) :
    readTranche (s.absorbed p loss) p .junior=(readTranche s p .junior).bear loss ∧
    readTranche (s.absorbed p loss) p .senior=
      if (readTranche s p .junior).deposited<loss then
        (readTranche s p .senior).bear (loss-(readTranche s p .junior).deposited)
      else readTranche s p .senior := by
  unfold State.absorbed
  dsimp only
  split_ifs with h
  · constructor
    · simp [readTranche_writeTranche]
    · simp [readTranche_writeTranche]
  · constructor
    · simp [readTranche_writeTranche]
    · simp [readTranche_writeTranche]

theorem absorbed_absorbed (h : s.Stocked p) {x y : Int} (hy : 0≤y) :
    (s.absorbed p x).absorbed p y=s.absorbed p (x+y) := by
  obtain ⟨hj,hs⟩ := readTranche_absorbed s p x
  have hJ := h.nonneg .junior
  have hleft : ((readTranche s p .junior).bear x).deposited=
      (readTranche s p .junior).deposited-min x (readTranche s p .junior).deposited := rfl
  rw [State.absorbed,hj,hs,TrancheState.bear_bear _ hy,hleft]
  by_cases hfirst : (readTranche s p .junior).deposited<x
  · -- the first loss already took all of junior
    have hnone : (readTranche s p .junior).deposited-
        min x (readTranche s p .junior).deposited=0 := by omega
    have hboth : (readTranche s p .junior).deposited<x+y := by omega
    have hrest : x-(readTranche s p .junior).deposited+(y-0)=
        x+y-(readTranche s p .junior).deposited := by omega
    rw [hnone,State.absorbed,State.absorbed,if_pos hfirst,if_pos hfirst,if_pos hboth,
      writeTranche_across,TrancheState.bear_bear _ (by omega),hrest,writeTranche_same]
    split_ifs with hmore
    · rfl
    · have hy0 : y=0 := by omega
      rw [hy0,add_zero]
  · have hrest : (readTranche s p .junior).deposited-
        min x (readTranche s p .junior).deposited=(readTranche s p .junior).deposited-x := by
      omega
    have hover : y-((readTranche s p .junior).deposited-x)=
        x+y-(readTranche s p .junior).deposited := by omega
    have hiff : (readTranche s p .junior).deposited-x<y ↔
        (readTranche s p .junior).deposited<x+y := by omega
    rw [hrest,State.absorbed,State.absorbed,if_neg hfirst,if_neg hfirst,writeTranche_same,hover]
    simp only [hiff]

theorem State.Stocked.absorbed (h : s.Stocked p) {x : Int} (hx : 0≤x) :
    (s.absorbed p x).Stocked p := by
  obtain ⟨hj,hs⟩ := readTranche_absorbed s p x
  have bear : ∀ t loss, 0≤loss → 0≤((readTranche s p t).bear loss).deposited ∧
      SignedFits 128 ((readTranche s p t).bear loss).deposited := by
    intro t loss hloss
    have h0 := h.nonneg t
    have hfit : (readTranche s p t).deposited<2^127 := (h.fits t).2
    have hleft : 0≤((readTranche s p t).bear loss).deposited := by
      simp only [TrancheState.bear]
      omega
    refine ⟨hleft,.of_nonneg hleft ?_⟩
    simp only [TrancheState.bear]
    omega
  have both : ∀ t, 0≤(readTranche (s.absorbed p x) p t).deposited ∧
      SignedFits 128 (readTranche (s.absorbed p x) p t).deposited := by
    intro t
    cases t with
    | junior =>
      rw [hj]
      exact bear .junior x hx
    | senior =>
      rw [hs]
      split_ifs with hbeyond
      · exact bear .senior _ (by omega)
      · exact ⟨h.nonneg .senior,h.fits .senior⟩
  exact ⟨fun t => (both t).1,fun t => (both t).2⟩

/-- Two losses absorbed one after the other are their sum absorbed at once. -/
theorem absorbLoss_absorbLoss (h : s.Stocked p) {x y : Int} (hx : 0≤x) (hy : 0≤y)
    (hfit : SignedFits 128 (x+y)) :
    (absorbLoss s p x >>= fun u => absorbLoss u p y)=absorbLoss s p (x+y) := by
  have hsum : x+y<2^127 := hfit.2
  have hx' : SignedFits 128 x := .of_nonneg hx (by omega)
  have hy' : SignedFits 128 y := .of_nonneg hy (by omega)
  rw [absorbLoss_absorbed h hx hx',ok_bind,absorbLoss_absorbed (h.absorbed hx) hy hy',
    absorbed_absorbed h hy,absorbLoss_absorbed h (by omega) hfit]

end Loss

/-- A successful settlement returns the result of its season and moves exactly that between the
tranches: a surplus to junior, a loss to junior and then senior, down to nothing and no further.
It writes the season and the two capitals and nothing else, and losses absorbed one by one are
absorbed as their sum. -/
theorem settlement_is_exact (env : Env) (s s' : State) (p i : Nat) (net : Int)
    (hJ : 0≤(readTranche s p .junior).deposited) (hS : 0≤(readTranche s p .senior).deposited)
    (h : settleSeason env s p i=.ok (net,s')) :
    let J := (readTranche s p .junior).deposited
    let S := (readTranche s p .senior).deposited
    let J' := (readTranche s' p .junior).deposited
    let S' := (readTranche s' p .senior).deposited
    (∃ z f e, s.season (p,i)=some z ∧ z.state=.closed ∧ net=z.premiumsIn-z.payoutsPaid ∧
      s'={ s with
        tranche := f
        season := Function.update s.season (p,i) (some { z with state := .settled })
        events := e }) ∧
    (0≤net → J'=J+net ∧ S'=S) ∧
    (net<0 → J'=max 0 (J+net) ∧ S'=max 0 (S+min 0 (J+net))) ∧
    (S'<S → J'=0) ∧ J'+S'=max 0 (J+S+net) ∧
    (∀ q t, (readTranche s' q t).supply=(readTranche s q t).supply) ∧
    (∀ q t, q≠p → readTranche s' q t=readTranche s q t) ∧
    (SignedFits 128 J → SignedFits 128 S → ∀ x y, 0≤x → 0≤y → SignedFits 128 (x+y) →
      (absorbLoss s p x >>= fun u => absorbLoss u p y)=absorbLoss s p (x+y)) := by
  intro J S J' S'
  obtain ⟨z,u,hz,-,hst,rfl,hu,rfl⟩ := settleSeason_ok h
  have ht := distribute_tranche hS hu
  have hj : J'=(s.book p).settled z.net .junior := by
    change (readTranche u p .junior).deposited=_
    rw [ht p .junior,if_pos rfl]
  have hs : S'=(s.book p).settled z.net .senior := by
    change (readTranche u p .senior).deposited=_
    rw [ht p .senior,if_pos rfl]
  have hdj : (s.book p).deposited .junior=J := rfl
  have hds : (s.book p).deposited .senior=S := rfl
  simp only [Book.settled,hdj,hds] at hj hs
  refine ⟨?_,?_,?_,?_,?_,?_,?_,?_⟩
  · obtain ⟨f,rfl⟩ := distribute_frame hu
    exact ⟨z,f,_,hz,hst,rfl,rfl⟩
  · intro hnet
    rw [hj,hs,if_pos hnet,if_pos hnet]
    exact ⟨rfl,rfl⟩
  · intro hnet
    rw [hj,hs,if_neg hnet.not_ge,if_neg hnet.not_ge]
    omega
  · rw [hj,hs]
    split_ifs <;> omega
  · rw [hj,hs]
    split_ifs <;> omega
  · intro q t
    change (readTranche u q t).supply=_
    rw [ht q t]
    split_ifs with hq
    · rw [hq]
    · rfl
  · intro q t hq
    change readTranche u q t=_
    rw [ht q t,if_neg hq]
  · intro hfJ hfS x y hx hy hfit
    have hstock : s.Stocked p := by
      constructor
      · intro t
        cases t
        · exact hJ
        · exact hS
      · intro t
        cases t
        · exact hfJ
        · exact hfS
    exact absorbLoss_absorbLoss hstock hx hy hfit

/-- The loss of 150 takes all of junior and half of senior. -/
theorem settlement_is_exact_loss :
    let M := machine TokenHost.ledger ⟨1⟩
    let x := M.run plainStart (twoSeasons++[
      .call plainEnv (.payOut 1 1 ⟨4⟩ 150),.call plainEnv (.closeSeason 1 1)])
    ∃ s', settleSeason plainEnv x.1 1 1=.ok (-150,s') ∧
      (readTranche s' 1 .junior).deposited=0 ∧ (readTranche s' 1 .senior).deposited=50 := by
  intro M x
  have hJ : (readTranche x.1 1 .junior).deposited=100 := by decide +kernel
  have hS : (readTranche x.1 1 .senior).deposited=100 := by decide +kernel
  have hok : (settleSeason plainEnv x.1 1 1).map Prod.fst=.ok (-150) := by decide +kernel
  rw [except_map_eq_ok] at hok
  obtain ⟨⟨net,s'⟩,hr,rfl⟩ := hok
  have h := settlement_is_exact plainEnv x.1 s' 1 1 (-150) (by rw [hJ]; decide)
    (by rw [hS]; decide) hr
  obtain ⟨hj,hs⟩ := h.2.2.1 (by decide)
  rw [hJ] at hj hs
  rw [hS] at hs
  exact ⟨s',hr,hj,hs⟩

end Mvua.RiskPool
