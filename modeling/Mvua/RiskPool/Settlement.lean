import Mvua.RiskPool.Reconciliation
import Mvua.RiskPool.Seasons

namespace Mvua.RiskPool

namespace Book

variable (b : Book)

/-- The capital of both tranches, in the order in which they bear a loss. -/
def tranches : List Int := [b.deposited .junior,b.deposited .senior]

/-- Settling a season is settling its result down the waterfall. -/
theorem tranches_settle (i : Nat) :
    (b.post (.settle i)).tranches=Waterfall.settle b.tranches (b.netOf i) := by
  change [b.settled (b.netOf i) .junior,b.settled (b.netOf i) .senior]=_
  by_cases loss : b.netOf i<0
  · rw [settled_loss loss,tranches,Waterfall.settle,if_neg (by omega)]
  · have surplus : 0≤b.netOf i := by omega
    rw [tranches,Waterfall.settle,if_pos surplus,settled,settled,if_pos surplus,if_pos surplus]

theorem netOf_settle (i j : Nat) : (b.post (.settle i)).netOf j=b.netOf j := by
  have hfigure : (b.onSeason i fun z => { z with state := .settled }).figure Season.net j=
      b.figure Season.net j := by
    apply figure_onSeason_same
    intro z
    rfl
  exact hfigure

end Book

section Orders

variable {L : Type} (T : TokenHost L) (self : Address) {s u v : State} {p i j : Nat}
  {e₁ e₂ : Env} {a b : Int}

theorem settle_twice (hw : s.WellFormed) (h : settleSeason e₁ s p i=.ok (a,u))
    (h' : settleSeason e₂ u p j=.ok (b,v)) :
    a=(s.book p).netOf i ∧ b=(s.book p).netOf j ∧
      (v.book p).tranches=Waterfall.settle (Waterfall.settle (s.book p).tranches a) b ∧
      (v.book p).reserves=(s.book p).reserves := by
  obtain ⟨ha,hp⟩ := settleSeason_posts hw h
  obtain ⟨hb,hp'⟩ := settleSeason_posts (hp.wellFormed hw) h'
  rw [hp.book,Book.netOf_settle] at hb
  have hnet : ((s.book p).post (.settle i)).netOf j=b := by rw [Book.netOf_settle,hb]
  have htranches : (v.book p).tranches=
      Waterfall.settle (Waterfall.settle (s.book p).tranches a) b := by
    rw [hp'.book,hp.book,Book.tranches_settle,Book.tranches_settle,hnet,ha]
  have hreserves : (v.book p).reserves=(s.book p).reserves := by
    rw [hp'.book,hp.book]
    rfl
  exact ⟨ha.symm,hb.symm,htranches,hreserves⟩

/-- Two seasons of a pool settled in either order leave the same reserves, and they leave the same
junior and senior capital exactly when the results of the seasons do not clash at the junior
capital: one a surplus, the other a loss beyond it. -/
theorem settlement_order_iff (admin : Address) (l : L) (actions : List Action)
    {e₁ e₂ e₃ e₄ : Env} {a b a' b' : Int} {s₁ s₂ s₃ s₄ : State} :
    let s := ((machine T self).run (deploy admin,l) actions).1
    settleSeason e₁ s p i=.ok (a,s₁) → settleSeason e₂ s₁ p j=.ok (b,s₂) →
    settleSeason e₃ s p j=.ok (b',s₃) → settleSeason e₄ s₃ p i=.ok (a',s₄) →
    (s₂.book p).reserves=(s₄.book p).reserves ∧
      ((s₂.book p).deposited .junior=(s₄.book p).deposited .junior ∧
        (s₂.book p).deposited .senior=(s₄.book p).deposited .senior ↔
        ¬Waterfall.Clash ((s.book p).deposited .junior) a b) := by
  intro s h₁ h₂ h₃ h₄
  have hw : s.WellFormed := run_wellFormed T self admin l actions
  obtain ⟨ha,hb,hfirst,hreserves⟩ := settle_twice hw h₁ h₂
  obtain ⟨hb',ha',hsecond,hreserves'⟩ := settle_twice hw h₃ h₄
  have hsame : a'=a := ha'.trans ha.symm
  have hsame' : b'=b := hb'.trans hb.symm
  subst hsame hsame'
  have hJ : 0≤(s.book p).deposited .junior := (hw.sound p).deposited .junior
  have hS : 0≤(s.book p).deposited .senior := (hw.sound p).deposited .senior
  have horder := Waterfall.settle_comm_iff (a := a') (b := b') [(s.book p).deposited .senior] hJ
    (by simpa using hS)
  refine ⟨hreserves.trans hreserves'.symm,?_⟩
  rw [← horder]
  change _ ↔ Waterfall.settle (Waterfall.settle (s.book p).tranches a') b'=
    Waterfall.settle (Waterfall.settle (s.book p).tranches b') a'
  rw [← hfirst,← hsecond,Book.tranches,Book.tranches]
  simp

end Orders

section Samples

/-- A surplus of 1000 and a loss of 500 against 100 in each tranche: settled first, the surplus
bears the loss and senior keeps its capital; settled last, senior has lost it. -/
theorem settlement_order_decides :
    let s := ((machine TokenHost.ledger ⟨1⟩).run plainStart sharedReserves).1
    (settleSeason plainEnv s 1 1 >>= fun r => settleSeason plainEnv r.2 1 2).map
        (fun r => (r.2.book 1).tranches)=.ok [600,100] ∧
      (settleSeason plainEnv s 1 2 >>= fun r => settleSeason plainEnv r.2 1 1).map
        (fun r => (r.2.book 1).tranches)=.ok [1000,0] := by
  decide +kernel

def carriedLoss : List Action := twoSeasons++[
  .call plainEnv (.collectPremium 1 1 ⟨3⟩ 1000),
  .call plainEnv (.payOut 1 2 ⟨4⟩ 50),
  .call plainEnv (.closeSeason 1 1),
  .call plainEnv (.closeSeason 1 2)]

theorem settlement_order_carried :
    let s := ((machine TokenHost.ledger ⟨1⟩).run plainStart carriedLoss).1
    ∃ s₁ s₂ s₃ s₄, settleSeason plainEnv s 1 1=.ok (1000,s₁) ∧
      settleSeason plainEnv s₁ 1 2=.ok (-50,s₂) ∧ settleSeason plainEnv s 1 2=.ok (-50,s₃) ∧
      settleSeason plainEnv s₃ 1 1=.ok (1000,s₄) ∧
      (s₂.book 1).deposited .senior=(s₄.book 1).deposited .senior := by
  intro s
  have hfirst : (settleSeason plainEnv s 1 1 >>= fun r =>
      (settleSeason plainEnv r.2 1 2).map fun q => (r.1,q.1))=.ok (1000,-50) := by decide +kernel
  have hsecond : (settleSeason plainEnv s 1 2 >>= fun r =>
      (settleSeason plainEnv r.2 1 1).map fun q => (r.1,q.1))=.ok (-50,1000) := by decide +kernel
  have hJ : (s.book 1).deposited .junior=100 := by decide +kernel
  simp only [bind_eq_ok,except_map_eq_ok,Prod.mk.injEq,Prod.exists] at hfirst hsecond
  obtain ⟨_,s₁,h₁,_,s₂,h₂,rfl,rfl⟩ := hfirst
  obtain ⟨_,s₃,h₃,_,s₄,h₄,rfl,rfl⟩ := hsecond
  have h := settlement_order_iff TokenHost.ledger ⟨1⟩ ⟨0⟩ plainFunds carriedLoss h₁ h₂ h₃ h₄
  have hno : ¬Waterfall.Clash ((s.book 1).deposited .junior) 1000 (-50) := by
    rw [hJ,Waterfall.Clash]
    decide
  exact ⟨s₁,s₂,s₃,s₄,h₁,h₂,h₃,h₄,(h.2.mpr hno).2⟩

end Samples

end Mvua.RiskPool
