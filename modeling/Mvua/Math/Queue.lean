import Mathlib.Data.List.Infix
import Mathlib.Data.Nat.ModEq
import Mathlib.Tactic.Common

namespace Mvua

/-- Position `q` is the last of `n` positions that a ring of `size` slots keeps in slot `k`. -/
structure IsLatest (size n k q : Nat) : Prop where
  lt : q<n
  slot : q%size=k
  greatest : ∀ j<n, j%size=k → j≤q

section Latest

variable {size n k q : Nat}

theorem IsLatest.unique {q' : Nat} (h : IsLatest size n k q) (h' : IsLatest size n k q') :
    q=q' :=
  le_antisymm (h'.greatest q h.lt h.slot) (h.greatest q' h'.lt h'.slot)

theorem IsLatest.concat_self : IsLatest size (n+1) (n%size) n where
  lt := Nat.lt_succ_self n
  slot := rfl
  greatest _ hj _ := Nat.le_of_lt_succ hj

theorem isLatest_concat_iff (hk : k≠n%size) :
    IsLatest size (n+1) k q ↔ IsLatest size n k q := by
  constructor
  · intro h
    have hne : q≠n := by
      intro he
      apply hk
      rw [← h.slot,he]
    have hlt := h.lt
    exact ⟨by omega,h.slot,fun j hj => h.greatest j (by omega)⟩
  · intro h
    refine ⟨h.lt.trans (Nat.lt_succ_self n),h.slot,?_⟩
    intro j hj hslot
    have hne : j≠n := by
      intro he
      apply hk
      rw [← hslot,he]
    exact h.greatest j (by omega) hslot

theorem IsLatest.of_lt (hk : k < min n size) : ∃ q, IsLatest size n k q := by
  induction n with
  | zero => omega
  | succ n ih =>
    by_cases he : k=n%size
    · subst he
      exact ⟨n,.concat_self⟩
    · have hne : k≠n := by
        intro hn
        apply he
        rw [← hn,Nat.mod_eq_of_lt (by omega)]
      obtain ⟨q,hq⟩ := ih (by omega)
      exact ⟨q,(isLatest_concat_iff he).mpr hq⟩

/-- The positions that a ring keeps are the last `size` ones. -/
theorem isLatest_iff_window (hs : 0 < size) :
    IsLatest size n (q%size) q ↔ q<n ∧ n≤q+size := by
  constructor
  · intro h
    refine ⟨h.lt,?_⟩
    by_contra hlt
    have hle := h.greatest (q+size) (by omega) (Nat.add_mod_right q size)
    omega
  · intro h
    refine ⟨h.1,rfl,?_⟩
    intro j hj hslot
    by_contra hlt
    have hdvd := Nat.dvd_of_mod_eq_zero (Nat.sub_mod_eq_zero_of_mod_eq hslot)
    have hle := Nat.le_of_dvd (by omega) hdvd
    omega

/-- The turn of a slot: how many more positions are taken before its own. -/
theorem IsLatest.turn (hs : 0 < size) (h : IsLatest size n k q) :
    (k+size-n%size)%size=q+size-n := by
  obtain ⟨hlt,hwin⟩ := (isLatest_iff_window hs).mp (h.slot.symm ▸ h)
  have hmod : n%size<size := Nat.mod_lt n hs
  have hcancel : k+size-n%size+n%size=k+size := Nat.sub_add_cancel (by omega)
  have hsame : Nat.ModEq size (k+size-n%size) (q+size-n) := by
    refine Nat.ModEq.add_right_cancel (Nat.mod_modEq n size) ?_
    rw [hcancel,Nat.sub_add_cancel hwin,← h.slot]
    exact (Nat.mod_modEq q size).add_right size
  calc (k+size-n%size)%size=(q+size-n)%size := hsame
    _=q+size-n := Nat.mod_eq_of_lt (by omega)

theorem IsLatest.kept (hs : 0 < size) (h : IsLatest size n k q) {c : Nat} (hc : n+c≤q+size) :
    IsLatest size (n+c) k q := by
  have hlt := h.lt
  rw [← h.slot]
  exact (isLatest_iff_window hs).mpr ⟨by omega,hc⟩

/-- From then on, the slot holds the last position of its residue. -/
theorem IsLatest.replaced (hs : 0 < size) (h : IsLatest size n k q) {c : Nat}
    (hc : q+size<n+c) :
    IsLatest size (n+c) k (q+size+size*((n+c-1-(q+size))/size)) := by
  have hle := Nat.mul_div_le (n+c-1-(q+size)) size
  have hgt := Nat.lt_mul_div_succ (n+c-1-(q+size)) hs
  have hslot : (q+size+size*((n+c-1-(q+size))/size))%size=k := by
    rw [Nat.add_mul_mod_self_left,Nat.add_mod_right,h.slot]
  rw [← hslot]
  rw [Nat.mul_add,Nat.mul_one] at hgt
  exact (isLatest_iff_window hs).mpr ⟨by omega,by omega⟩

end Latest

end Mvua
