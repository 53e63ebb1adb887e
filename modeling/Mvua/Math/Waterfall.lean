import Mathlib.Tactic.Linarith
import Mathlib.Algebra.BigOperators.Group.List.Basic
import Mathlib.Algebra.Order.Group.Int

namespace Mvua.Waterfall

/-- The capitals that remain of a loss borne in order: each gives what it has
before the next is touched. -/
def bear : List Int → Int → List Int
  | [],_ => []
  | c::cs,loss => (c-min loss c)::bear cs (loss-min loss c)

def residual : List Int → Int → Int
  | [],loss => loss
  | c::cs,loss => residual cs (loss-min loss c)

theorem bear_sum (cs : List Int) (loss : Int) :
    (bear cs loss).sum+loss=cs.sum+residual cs loss := by
  induction cs generalizing loss with
  | nil => simp [bear,residual]
  | cons c cs ih =>
    have h := ih (loss-min loss c)
    simp only [bear,residual,List.sum_cons]
    omega

theorem residual_nonneg (cs : List Int) (loss : Int) (h : 0≤loss) : 0 ≤ residual cs loss := by
  induction cs generalizing loss with
  | nil => exact h
  | cons c cs ih => exact ih _ (by omega)

/-- A residual remains only when every capital is spent. -/
theorem bear_of_residual (cs : List Int) (loss : Int) (h : ∀ c∈cs, 0 ≤ c) (hl : 0≤loss)
    (pos : 0 < residual cs loss) : ∀ c∈bear cs loss, c=0 := by
  induction cs generalizing loss with
  | nil => simp [bear]
  | cons c cs ih =>
    have hc : 0 ≤ c := h c (by simp)
    have spent : loss-min loss c≠0 := by
      intro hz
      have zero : ∀ ds : List Int, (∀ d∈ds, 0≤d) → residual ds 0=0 := by
        intro ds hd
        induction ds with
        | nil => rfl
        | cons d ds hi =>
          have hd0 : 0≤d := hd d (by simp)
          simp only [residual,Int.min_eq_left hd0,sub_zero]
          exact hi (fun y hy => hd y (by simp [hy]))
      rw [residual,hz,zero cs (fun y hy => h y (by simp [hy]))] at pos
      omega
    intro x hx
    rcases List.mem_cons.mp hx with rfl | hx
    · omega
    · exact ih _ (fun y hy => h y (by simp [hy])) (by omega) pos x hx

theorem bear_zero (cs : List Int) (h : ∀ c∈cs, 0 ≤ c) : bear cs 0=cs := by
  induction cs with
  | nil => rfl
  | cons c cs ih =>
    obtain ⟨hc,hcs⟩ := List.forall_mem_cons.mp h
    rw [bear,Int.min_eq_left hc,sub_zero,sub_zero,ih hcs]

/-- Two losses borne one after the other are their sum borne at once. -/
theorem bear_bear (cs : List Int) (x y : Int) (h : ∀ c∈cs, 0 ≤ c) (hx : 0≤x) (hy : 0≤y) :
    bear (bear cs x) y=bear cs (x+y) := by
  induction cs generalizing x y with
  | nil => rfl
  | cons c cs ih =>
    obtain ⟨hc,hcs⟩ := List.forall_mem_cons.mp h
    have head : c-min x c-min y (c-min x c)=c-min (x+y) c := by omega
    have rest : x-min x c+(y-min y (c-min x c))=x+y-min (x+y) c := by omega
    have tail := ih (x-min x c) (y-min y (c-min x c)) hcs (by omega) (by omega)
    rw [rest] at tail
    simp only [bear,head,tail]

/-- The capitals after a result: a surplus goes to the first, a loss is borne in order. -/
def settle : List Int → Int → List Int
  | [],_ => []
  | c::cs,net => if 0≤net then (c+net)::cs else bear (c::cs) (-net)

/-- A surplus and a loss beyond the first capital: only the order of the two decides whether the
surplus helps to bear the loss. -/
def Clash (c a b : Int) : Prop := 0<a ∧ c < -b ∨ 0<b ∧ c < -a

section Settlements

variable {c a b : Int} (cs : List Int)

theorem settle_carried {net : Int} (h : ∀ d∈cs, 0≤d) (hn : -net ≤ c) :
    settle (c::cs) net=(c+net)::cs := by
  by_cases pos : 0≤net
  · rw [settle,if_pos pos]
  · rw [settle,if_neg pos,bear,Int.min_eq_left hn,sub_neg_eq_add,sub_self,bear_zero cs h]

theorem settle_both_carried (h : ∀ d∈cs, 0≤d) (ha : -a ≤ c) (hb : -b ≤ c+a) :
    settle (settle (c::cs) a) b=(c+a+b)::cs := by
  rw [settle_carried cs h ha,settle_carried cs h hb]

theorem settle_losses (hc : 0 ≤ c) (h : ∀ d∈cs, 0≤d) (ha : a<0) (hb : b<0) :
    settle (settle (c::cs) a) b=bear (c::cs) (-a+ -b) := by
  have all : ∀ d∈c::cs, 0≤d := List.forall_mem_cons.mpr ⟨hc,h⟩
  rw [← bear_bear (c::cs) (-a) (-b) all (by omega) (by omega),settle,if_neg (by omega),bear,
    settle,if_neg (by omega)]

/-- A surplus and a loss beyond the first capital: settled last, the surplus stays whole. -/
theorem settle_beyond_iff (hc : 0 ≤ c) (h : ∀ d∈cs, 0≤d) (ha : 0≤a) (hb : c < -b) :
    settle (settle (c::cs) a) b=settle (settle (c::cs) b) a ↔ a=0 := by
  have last : settle (settle (c::cs) b) a=a::bear cs (-b-c) := by
    rw [settle,if_neg (by omega),bear,Int.min_eq_right (by omega),sub_self,settle,if_pos ha,
      zero_add]
  have first : settle (settle (c::cs) a) b=
      (c+a-min (-b) (c+a))::bear cs (-b-min (-b) (c+a)) := by
    rw [settle_carried cs h (by omega),settle,if_neg (by omega),bear]
  rw [first,last]
  constructor
  · intro heq
    have head := (List.cons.inj heq).1
    omega
  · intro ha0
    subst ha0
    rw [add_zero,Int.min_eq_right (by omega),sub_self]

theorem settle_comm_iff (hc : 0 ≤ c) (h : ∀ d∈cs, 0≤d) :
    settle (settle (c::cs) a) b=settle (settle (c::cs) b) a ↔ ¬Clash c a b := by
  unfold Clash
  by_cases losses : a<0 ∧ b<0
  · obtain ⟨ha,hb⟩ := losses
    rw [settle_losses cs hc h ha hb,settle_losses cs hc h hb ha,add_comm]
    exact iff_of_true rfl (by omega)
  · by_cases carried : -a ≤ c ∧ -b ≤ c
    · rw [settle_both_carried cs h carried.1 (by omega),
        settle_both_carried cs h carried.2 (by omega),add_right_comm]
      exact iff_of_true rfl (by omega)
    · by_cases ha : 0≤a
      · rw [settle_beyond_iff cs hc h ha (by omega)]
        omega
      · rw [eq_comm,settle_beyond_iff cs hc h (by omega) (by omega)]
        omega

end Settlements

end Mvua.Waterfall
