import Mathlib.Data.List.Sort
import Mathlib.Data.List.GetD
import Mathlib.Tactic.Common
import Mathlib.Algebra.Order.Ring.Int

namespace Mvua

section Sorted

variable {α : Type} [Preorder α]

/-- In a sorted list, the elements with a downward closed property come first. -/
theorem sorted_getElem_iff {p : α → Prop} [DecidablePred p] (down : ∀ a b, a≤b → p b → p a)
    {l : List α} (h : l.Pairwise (·≤·)) {i : Nat} (hi : i<l.length) :
    p l[i] ↔ i<l.countP p := by
  induction l generalizing i with
  | nil => simp at hi
  | cons a l ih =>
    obtain ⟨ha,hl⟩ := List.pairwise_cons.mp h
    by_cases hp : p a
    · rw [List.countP_cons_of_pos (by simpa using hp)]
      cases i with
      | zero => simp [hp]
      | succ i =>
        have hi' : i<l.length := by simpa using hi
        rw [List.getElem_cons_succ,ih hl hi']
        omega
    · have none : ∀ b∈a::l, ¬p b := by
        intro b hb
        rcases List.mem_cons.mp hb with rfl | hb
        · exact hp
        · exact fun hpb => hp (down a b (ha b hb) hpb)
      have zero : (a::l).countP p=0 := by
        rw [List.countP_eq_zero]
        simpa using none
      rw [zero]
      exact iff_of_false (none _ (List.getElem_mem hi)) (by omega)

end Sorted

section Statistic

variable {α : Type} [LinearOrder α] (d : α)

/-- The `i`-th smallest element of a list, with `d` beyond its end. -/
def statistic (l : List α) (i : Nat) : α := (l.insertionSort (·≤·)).getD i d

theorem statistic_perm {l m : List α} (h : l.Perm m) (i : Nat) :
    statistic d l i=statistic d m i := by
  have hs : l.insertionSort (·≤·)=m.insertionSort (·≤·) :=
    (((List.perm_insertionSort _ l).trans h).trans
      (List.perm_insertionSort _ m).symm).eq_of_pairwise' (List.pairwise_insertionSort _ l)
      (List.pairwise_insertionSort _ m)
  rw [statistic,hs,statistic]

/-- Rank and count: the `i`-th smallest has a downward closed property exactly when more
than `i` elements have it. -/
theorem statistic_iff {p : α → Prop} [DecidablePred p] (down : ∀ a b, a≤b → p b → p a)
    {l : List α} {i : Nat} (hi : i<l.length) : p (statistic d l i) ↔ i<l.countP p := by
  have hi' : i<(l.insertionSort (·≤·)).length := by simpa using hi
  rw [statistic,List.getD_eq_getElem _ _ hi',
    sorted_getElem_iff down (List.pairwise_insertionSort _ l) hi',
    (List.perm_insertionSort _ l).countP_eq]

theorem statistic_mem {l : List α} {i : Nat} (hi : i<l.length) : statistic d l i∈l := by
  have hi' : i<(l.insertionSort (·≤·)).length := by simpa using hi
  rw [statistic,List.getD_eq_getElem _ _ hi']
  exact (List.mem_insertionSort _).mp (List.getElem_mem hi')

theorem statistic_mono {l : List α} {i j : Nat} (hij : i≤j) (hj : j<l.length) :
    statistic d l i ≤ statistic d l j := by
  rw [statistic_iff d (fun _ _ hab hb => hab.trans hb) (by omega)]
  have h := (statistic_iff d (p := (· ≤ statistic d l j)) (fun _ _ hab hb => hab.trans hb) hj).mp
    le_rfl
  omega

end Statistic

section Middle

/-- The middle value of a list, or the truncated mean of the two middle values. -/
def middle (l : List Int) : Int :=
  if l.length%2=1 then statistic 0 l (l.length/2)
  else (statistic 0 l (l.length/2-1)+statistic 0 l (l.length/2)).tdiv 2

private theorem countP_lt_of_mem {l : List Int} {p q : Int → Prop} [DecidablePred p]
    [DecidablePred q] (hpq : ∀ x, p x → q x) {x : Int} (hx : x∈l) (hp : ¬p x) (hq : q x) :
    l.countP p<l.countP q := by
  induction l with
  | nil => simp at hx
  | cons y l ih =>
    have hle : l.countP p≤l.countP q :=
      List.countP_mono_left fun z _ hz => by simpa using hpq z (by simpa using hz)
    by_cases hy : y=x
    · subst y
      rw [List.countP_cons_of_neg (by simpa using hp),List.countP_cons_of_pos (by simpa using hq)]
      omega
    · have hlt := ih ((List.mem_cons.mp hx).resolve_left (Ne.symm hy))
      have hstep : (if p y then 1 else 0) ≤ if q y then 1 else 0 := by
        split_ifs with h1 h2
        · exact le_rfl
        · exact absurd (hpq y h1) h2
        · exact Nat.zero_le _
        · exact le_rfl
      simp only [List.countP_cons,decide_eq_true_eq]
      omega

private theorem countP_le_add_gt (l : List Int) (x : Int) :
    l.countP (·≤x)+l.countP (x<·)=l.length := by
  rw [List.length_eq_countP_add_countP (fun y => decide (y≤x))]
  congr 1
  refine List.countP_congr fun y _ => ?_
  simp

variable {l : List Int} {lo hi : Int}

private theorem lt_down (x : Int) : ∀ a b : Int, a≤b → b<x → a<x := fun _ _ => lt_of_le_of_lt
private theorem le_down (x : Int) : ∀ a b : Int, a≤b → b≤x → a≤x := fun _ _ => le_trans

/-- An element is at most the middle exactly when less than half of the list is below it. -/
theorem le_middle_iff (hnn : ∀ x∈l, 0≤x) (hlo : lo∈l) :
    lo ≤ middle l ↔ 2*l.countP (·<lo)<l.length := by
  have hpos : 0<l.length := List.length_pos_of_mem hlo
  have hmid : l.length/2<l.length := by omega
  have hb := statistic_iff 0 (lt_down lo) hmid
  unfold middle
  split_ifs with hodd
  · omega
  · have ha := statistic_iff 0 (lt_down lo) (show l.length/2-1<l.length by omega)
    have hb' := statistic_iff 0 (le_down lo) hmid
    have hstrict := countP_lt_of_mem (p := (·<lo)) (q := (·≤lo)) (fun _ => le_of_lt) hlo
      (lt_irrefl _) le_rfl
    have hab := statistic_mono 0 (show l.length/2-1≤l.length/2 by omega) hmid
    have hna := hnn _ (statistic_mem 0 (show l.length/2-1<l.length by omega))
    have hnb := hnn _ (statistic_mem 0 hmid)
    rw [Int.tdiv_eq_ediv_of_nonneg (by omega)]
    omega

/-- An element is at least the middle exactly when less than half of the list is above it,
or half of the list is and begins right above it. -/
theorem middle_le_iff (hnn : ∀ x∈l, 0≤x) (hhi : hi∈l) :
    middle l≤hi ↔ 2*l.countP (hi<·)<l.length ∨ (2*l.countP (hi<·)=l.length ∧ hi+1∈l) := by
  have hpos : 0<l.length := List.length_pos_of_mem hhi
  have hmid : l.length/2<l.length := by omega
  have hsum := countP_le_add_gt l hi
  have hb := statistic_iff 0 (le_down hi) hmid
  unfold middle
  split_ifs with hodd
  · omega
  · have ha := statistic_iff 0 (le_down hi) (show l.length/2-1<l.length by omega)
    have ha' := statistic_iff 0 (lt_down hi) (show l.length/2-1<l.length by omega)
    have hb' := statistic_iff 0 (le_down (hi+1)) hmid
    have hstrict := countP_lt_of_mem (p := (·<hi)) (q := (·≤hi)) (fun _ => le_of_lt) hhi
      (lt_irrefl _) le_rfl
    have hnext : hi+1∈l → l.countP (·≤hi)<l.countP (·≤hi+1) := fun h =>
      countP_lt_of_mem (p := (·≤hi)) (q := (·≤hi+1)) (fun _ _ => by omega) h (by omega) le_rfl
    have hmem : statistic 0 l (l.length/2)=hi+1 → hi+1∈l := fun h =>
      h ▸ statistic_mem 0 hmid
    have hab := statistic_mono 0 (show l.length/2-1≤l.length/2 by omega) hmid
    have hna := hnn _ (statistic_mem 0 (show l.length/2-1<l.length by omega))
    have hnb := hnn _ (statistic_mem 0 hmid)
    rw [Int.tdiv_eq_ediv_of_nonneg (by omega)]
    constructor
    · intro h
      by_cases hhalf : 2*l.countP (hi<·)<l.length
      · exact .inl hhalf
      · exact .inr ⟨by omega,hmem (by omega)⟩
    · intro h
      rcases h with h | ⟨h,hm⟩
      · omega
      · have hgap := hnext hm
        omega

theorem least_le_middle (hnn : ∀ x∈l, 0≤x) (hlo : lo∈l) (least : ∀ x∈l, lo≤x) :
    lo≤ middle l := by
  have hpos : 0<l.length := List.length_pos_of_mem hlo
  have hbelow : l.countP (·<lo)=0 := by
    rw [List.countP_eq_zero]
    intro x hx
    simpa using least x hx
  exact (le_middle_iff hnn hlo).mpr (by omega)

theorem middle_le_greatest (hnn : ∀ x∈l, 0≤x) (hhi : hi∈l) (greatest : ∀ x∈l, x≤hi) :
    middle l≤hi := by
  have hpos : 0<l.length := List.length_pos_of_mem hhi
  have habove : l.countP (hi<·)=0 := by
    rw [List.countP_eq_zero]
    intro x hx
    simpa using greatest x hx
  exact (middle_le_iff hnn hhi).mpr (.inl (by omega))

/-- With less than half of a list below a bound, the middle is not below it. -/
theorem le_middle_of_few (hnn : ∀ x∈l, 0≤x) (h : 2*l.countP (·<lo)<l.length) : lo≤ middle l := by
  have hmid : l.length/2<l.length := by omega
  have hb := statistic_iff 0 (lt_down lo) hmid
  unfold middle
  split_ifs with hodd
  · omega
  · have ha := statistic_iff 0 (lt_down lo) (show l.length/2-1<l.length by omega)
    have hna := hnn _ (statistic_mem 0 (show l.length/2-1<l.length by omega))
    have hnb := hnn _ (statistic_mem 0 hmid)
    rw [Int.tdiv_eq_ediv_of_nonneg (by omega)]
    omega

theorem middle_le_of_few (hnn : ∀ x∈l, 0≤x) (h : 2*l.countP (hi<·)<l.length) : middle l≤hi := by
  have hmid : l.length/2<l.length := by omega
  have hsum := countP_le_add_gt l hi
  have hb := statistic_iff 0 (le_down hi) hmid
  unfold middle
  split_ifs with hodd
  · omega
  · have ha := statistic_iff 0 (le_down hi) (show l.length/2-1<l.length by omega)
    have hna := hnn _ (statistic_mem 0 (show l.length/2-1<l.length by omega))
    have hnb := hnn _ (statistic_mem 0 hmid)
    rw [Int.tdiv_eq_ediv_of_nonneg (by omega)]
    omega

/-- A minority moves the middle beyond no bound of the others. -/
theorem middle_of_minority {β : Type} {f : β → Int} {faulty : β → Bool} {os : List β}
    (hnn : ∀ o∈os, 0≤f o) (hfew : 2*os.countP faulty<os.length)
    (hlo : ∀ o∈os, faulty o=false → lo≤f o) (hhi : ∀ o∈os, faulty o=false → f o≤hi) :
    lo≤ middle (os.map f) ∧ middle (os.map f)≤hi := by
  have hnn' : ∀ x∈os.map f, 0≤x := List.forall_mem_map.mpr hnn
  have few {p : Int → Bool} (hp : ∀ o∈os, p (f o)=true → faulty o=true) :
      2*(os.map f).countP p<(os.map f).length := by
    have hle : (os.map f).countP p≤os.countP faulty := by
      rw [List.countP_map]
      exact List.countP_mono_left hp
    rw [List.length_map]
    omega
  constructor
  · refine le_middle_of_few hnn' (few fun o ho hp => ?_)
    by_contra hgood
    have hle := hlo o ho (by simpa using hgood)
    simp only [decide_eq_true_eq] at hp
    omega
  · refine middle_le_of_few hnn' (few fun o ho hp => ?_)
    by_contra hgood
    have hle := hhi o ho (by simpa using hgood)
    simp only [decide_eq_true_eq] at hp
    omega

theorem middle_nonneg (hnn : ∀ x∈l, 0≤x) (hne : l≠[]) : 0≤ middle l := by
  have hpos := List.length_pos_iff.mpr hne
  have hlow := hnn _ (statistic_mem 0 (show l.length/2-1<l.length by omega))
  have hhigh := hnn _ (statistic_mem 0 (show l.length/2<l.length by omega))
  unfold middle
  split_ifs
  · exact hhigh
  · exact Int.tdiv_nonneg (by omega) (by omega)

end Middle

end Mvua
