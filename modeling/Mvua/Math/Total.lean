import Mathlib.Algebra.BigOperators.Finprod
import Mathlib.Algebra.Order.BigOperators.Group.Finset
import Mathlib.Tactic.Linarith

namespace Mvua

variable {α : Type} {f : α → Int} {n : Int}

/-- `f` has finitely many nonzero values and they add up to `n`. -/
structure HasTotal (f : α → Int) (n : Int) : Prop where
  finite : f.HasFiniteSupport
  total : ∑ᶠ a, f a=n

theorem HasTotal.zero : HasTotal (fun _ : α => 0) 0 := by
  refine ⟨?_,by simp⟩
  simp [Function.HasFiniteSupport,Function.support]

theorem HasTotal.unique {m : Int} (h : HasTotal f n) (h' : HasTotal f m) : n=m :=
  h.total.symm.trans h'.total

theorem HasTotal.update [DecidableEq α] (h : HasTotal f n) (a : α) (v : Int) :
    HasTotal (Function.update f a v) (n-f a+v) := by
  have split : Function.update f a v=fun x => f x+(Pi.single a (v-f a) : α → Int) x := by
    funext x
    by_cases hx : x=a
    · subst x; simp
    · simp [hx]
  have single : (Pi.single a (v-f a) : α → Int).HasFiniteSupport :=
    (Set.finite_singleton a).subset Pi.support_single_subset
  have one : ∑ᶠ x, (Pi.single a (v-f a) : α → Int) x=v-f a := by
    rw [finsum_eq_single _ a (fun x hx => Pi.single_eq_of_ne hx _),Pi.single_eq_same]
  rw [split]
  refine ⟨h.finite.add single,?_⟩
  rw [finsum_add_distrib h.finite single,h.total,one]
  omega

/-- A function that differs at one place, by `d`, has a total that differs by `d`. -/
theorem HasTotal.move [DecidableEq α] {g : α → Int} (h : HasTotal f n) (a : α) (d : Int)
    (hg : ∀ x, g x=f x+if x=a then d else 0) : HasTotal g (n+d) := by
  have he : g=Function.update f a (f a+d) := by
    funext x
    rw [hg]
    by_cases hx : x=a
    · subst x; simp
    · simp [hx]
  have hm := h.update a (f a+d)
  rw [← he,show n-f a+(f a+d)=n+d by omega] at hm
  exact hm

/-- Writing one record changes the total of a figure of the records by what the record changes. -/
theorem HasTotal.record [DecidableEq α] {β : Type} {r : α → Option β} {g : β → Int}
    (h : HasTotal (fun a => ((r a).map g).getD 0) n) (a : α) (v : β) :
    HasTotal (fun x => ((Function.update r a (some v) x).map g).getD 0)
      (n-((r a).map g).getD 0+g v) := by
  have he : (fun x => ((Function.update r a (some v) x).map g).getD 0)=
      Function.update (fun a => ((r a).map g).getD 0) a (g v) := by
    funext x
    by_cases hx : x=a
    · subst x; simp
    · simp [hx]
  rw [he]
  exact h.update a (g v)

theorem HasTotal.le (h : HasTotal f n) (pos : ∀ a, 0≤f a) (a : α) : f a≤n := by
  rw [← h.total]
  exact single_le_finsum a h.finite pos

end Mvua
