import Mvua.Math.Fund
import Mvua.Math.Total
import Mathlib.Algebra.Order.BigOperators.Group.List
import Mathlib.Logic.Function.Basic

namespace Mvua.Fund

/-- The fund that is left when `n` shares are redeemed. -/
def redeem (f : Fund) (n : Int) : Fund := ⟨f.capital-f.value n,f.shares-n⟩

section Single

variable {f : Fund} {n m : Int}

theorem value_zero (f : Fund) : f.value 0=0 := by
  simp [value]

theorem value_mul_le (hf : 0<f.shares) : f.value n*f.shares≤n*f.capital :=
  Int.ediv_mul_le _ hf.ne'

theorem redeem_priceLe (hf : 0<f.shares) : f.PriceLe (f.redeem n) := priceLe_burn (value_mul_le hf)

theorem redeem_capital (hf : 0<f.shares) (hc : 0≤f.capital) (hn : n≤f.shares) :
    0≤(f.redeem n).capital := sub_nonneg.mpr (value_le_capital hf hc hn)

/-- Shares redeemed in two parts pay no more than at once. -/
theorem value_redeem_le (hn : 0<n) (hm : 0 ≤ m) (hle : n+m≤f.shares) :
    f.value n+(f.redeem n).value m≤f.value (n+m) := by
  have hf : 0<f.shares := by omega
  rcases hm.eq_or_lt with rfl | hm
  · rw [value_zero,add_zero,add_zero]
  · have hrest : 0<f.shares-n := by omega
    have first : f.value n*f.shares≤n*f.capital := value_mul_le hf
    have second : (f.redeem n).value m*(f.shares-n)≤ m*(f.capital-f.value n) :=
      value_mul_le (f := f.redeem n) hrest
    -- what rounding withheld from the first part is shared by all shares that are left
    have bonus : m*(n*f.capital-f.value n*f.shares)≤
        (f.shares-n)*(n*f.capital-f.value n*f.shares) :=
      mul_le_mul_of_nonneg_right (by omega) (by omega)
    have scaled := mul_le_mul_of_nonneg_left second hf.le
    have both : (f.redeem n).value m*f.shares*(f.shares-n)≤
        (m*f.capital+(n*f.capital-f.value n*f.shares))*(f.shares-n) := by linarith
    have hlast := le_of_mul_le_mul_right both hrest
    exact (Int.le_ediv_iff_mul_le hf).mpr (by linarith)

/-- Rounding together gains at most one unit over rounding apart. -/
theorem value_add_le (hf : 0<f.shares) : f.value (n+m)≤f.value n+f.value m+1 := by
  have first : n*f.capital < (f.value n+1)*f.shares := Int.lt_ediv_add_one_mul_self _ hf
  have second : m*f.capital < (f.value m+1)*f.shares := Int.lt_ediv_add_one_mul_self _ hf
  have both : f.value (n+m) < f.value n+f.value m+2 := by
    apply Int.ediv_lt_of_lt_mul hf
    linarith
  omega

end Single

section Queue

variable {κ ρ : Type} [DecidableEq κ] (key : ρ → κ) (amount : ρ → Int)

/-- The funds after one request to redeem. -/
def after (F : κ → Fund) (r : ρ) : κ → Fund :=
  Function.update F (key r) ((F (key r)).redeem (amount r))

/-- What the requests that `sel` selects are paid, when all are served in their order. -/
def paidTo (sel : ρ → Bool) : (κ → Fund) → List ρ → Int
  | _,[] => 0
  | F,r::rs => (if sel r then (F (key r)).value (amount r) else 0)+
      paidTo sel (after key amount F r) rs

/-- What they would be paid if each were served first. -/
def floorOf (sel : ρ → Bool) (F : κ → Fund) (rs : List ρ) : Int :=
  (rs.map fun r => if sel r then (F (key r)).value (amount r) else 0).sum

/-- The shares of one fund that the requests give up. -/
def requested (k : κ) (rs : List ρ) : Int := (rs.map fun r => if key r=k then amount r else 0).sum

/-- The funds when all requests are served. -/
def left (F : κ → Fund) (rs : List ρ) : κ → Fund := rs.foldl (after key amount) F

/-- Every request is for shares that exist. -/
structure Redeemable (F : κ → Fund) (rs : List ρ) : Prop where
  capital : ∀ k, 0≤(F k).capital
  positive : ∀ r∈rs, 0 < amount r
  within : ∀ k, requested key amount k rs≤(F k).shares

variable {key amount} {F : κ → Fund} {r : ρ} {rs : List ρ} {sel : ρ → Bool} {k : κ}

theorem after_same : after key amount F r (key r)=(F (key r)).redeem (amount r) :=
  Function.update_self ..

theorem after_other (h : key r≠k) : after key amount F r k=F k :=
  Function.update_of_ne (Ne.symm h) ..

theorem requested_cons : requested key amount k (r::rs)=
    (if key r=k then amount r else 0)+requested key amount k rs := by
  rw [requested,List.map_cons,List.sum_cons,requested]

omit [DecidableEq κ] in
theorem floorOf_cons : floorOf key amount sel F (r::rs)=
    (if sel r then (F (key r)).value (amount r) else 0)+floorOf key amount sel F rs := by
  rw [floorOf,List.map_cons,List.sum_cons,floorOf]

theorem requested_eq_zero (h : ∀ r∈rs, key r≠k) : requested key amount k rs=0 := by
  apply List.sum_eq_zero
  intro x hx
  obtain ⟨r,hr,rfl⟩ := List.mem_map.mp hx
  exact if_neg (h r hr)

variable (key) in
theorem requested_nonneg (h : ∀ r∈rs, 0 < amount r) (k : κ) : 0≤ requested key amount k rs := by
  apply List.sum_nonneg
  intro x hx
  obtain ⟨r,hr,rfl⟩ := List.mem_map.mp hx
  have := h r hr
  split_ifs <;> omega

variable (key) in
theorem le_requested (h : ∀ r∈rs, 0 < amount r) (hr : r∈rs) :
    amount r≤ requested key amount (key r) rs := by
  have hle := List.single_le_sum (l := rs.map fun x => if key x=key r then amount x else 0)
    (fun y hy => by
      obtain ⟨x,hx,rfl⟩ := List.mem_map.mp hy
      have := h x hx
      split_ifs <;> omega) (amount r) (List.mem_map.mpr ⟨r,hr,if_pos rfl⟩)
  exact hle

theorem Redeemable.head (h : Redeemable key amount F (r::rs)) :
    0 < amount r ∧ (∀ x∈rs, 0 < amount x) ∧
      amount r+requested key amount (key r) rs≤(F (key r)).shares := by
  obtain ⟨hr,hrs⟩ := List.forall_mem_cons.mp h.positive
  have hwithin := h.within (key r)
  rw [requested_cons,if_pos rfl] at hwithin
  exact ⟨hr,hrs,hwithin⟩

theorem Redeemable.next (h : Redeemable key amount F (r::rs)) :
    Redeemable key amount (after key amount F r) rs := by
  obtain ⟨hpos,hrs,hle⟩ := h.head
  have hrest := requested_nonneg key hrs (key r)
  refine ⟨fun k => ?_,hrs,fun k => ?_⟩
  · by_cases hk : key r=k
    · subst hk
      rw [after_same]
      exact redeem_capital (by omega) (h.capital _) (by omega)
    · rw [after_other hk]
      exact h.capital k
  · by_cases hk : key r=k
    · subst hk
      rw [after_same]
      change _≤(F (key r)).shares-amount r
      omega
    · have hwithin := h.within k
      rw [requested_cons,if_neg hk,zero_add] at hwithin
      rw [after_other hk]
      exact hwithin

/-- A request waits at no cost: once others are served it is worth at least as much. -/
theorem Redeemable.value_le (h : Redeemable key amount F (r::rs)) {x : ρ} (hx : x∈rs) :
    (F (key x)).value (amount x)≤(after key amount F r (key x)).value (amount x) := by
  obtain ⟨hpos,hrs,hle⟩ := h.head
  have hxpos := hrs x hx
  have hshares : 0<(after key amount F r (key x)).shares :=
    hxpos.trans_le ((le_requested key hrs hx).trans (h.next.within (key x)))
  by_cases hk : key r=key x
  · rw [← hk,after_same] at hshares ⊢
    have hf : 0<(F (key r)).shares := by
      change 0<(F (key r)).shares-amount r at hshares
      omega
    exact (redeem_priceLe hf).value_le hf hshares hxpos.le
  · rw [after_other hk]

variable (sel) in
/-- Whatever the order, a request is paid at least what it would be paid first. -/
theorem Redeemable.floorOf_le (h : Redeemable key amount F rs) :
    floorOf key amount sel F rs≤paidTo key amount sel F rs := by
  induction rs generalizing F with
  | nil => exact le_rfl
  | cons r rs ih =>
    have hrest : floorOf key amount sel F rs≤
        floorOf key amount sel (after key amount F r) rs := by
      apply List.sum_le_sum
      intro x hx
      have := h.value_le hx
      split_ifs <;> omega
    have hih := ih h.next
    rw [paidTo,floorOf_cons]
    omega

/-- Together they are paid at most what their shares would be paid at once. -/
theorem Redeemable.paidTo_key_le (h : Redeemable key amount F rs) :
    paidTo key amount (fun r => key r=k) F rs≤(F k).value (requested key amount k rs) := by
  induction rs generalizing F with
  | nil => simp [paidTo,requested,value_zero]
  | cons r rs ih =>
    obtain ⟨hpos,hrs,hle⟩ := h.head
    have hrest := requested_nonneg key hrs k
    have hih := ih h.next
    rw [paidTo,requested_cons]
    by_cases hk : key r=k
    · subst hk
      rw [after_same] at hih
      have hsplit := value_redeem_le hpos hrest hle
      simp only [decide_true,if_true]
      omega
    · rw [after_other hk] at hih
      simp only [hk,decide_false,Bool.false_eq_true,if_false,zero_add]
      exact hih

variable (key amount rs) in
/-- Rounding each request apart withholds at most one unit for each. -/
theorem value_requested_le (hf : 0≤(F k).shares) :
    (F k).value (requested key amount k rs)≤
      floorOf key amount (fun r => key r=k) F rs+(rs.countP fun r => key r=k) := by
  rcases hf.eq_or_lt with hzero | hf
  · have none (n : Int) : (F k).value n=0 := by simp [value,← hzero]
    rw [none]
    have hfloor : floorOf key amount (fun r => key r=k) F rs=0 := by
      apply List.sum_eq_zero
      intro x hx
      obtain ⟨r,-,rfl⟩ := List.mem_map.mp hx
      by_cases hk : key r=k
      · rw [hk,none,ite_self]
      · simp [hk]
    omega
  · induction rs with
    | nil => simp [requested,floorOf,value_zero]
    | cons r rs ih =>
      rw [requested_cons,floorOf_cons]
      by_cases hk : key r=k
      · have hadd := value_add_le (n := amount r) (m := requested key amount k rs) hf
        simp only [hk,decide_true,if_true,List.countP_cons]
        omega
      · simp only [hk,decide_false,Bool.false_eq_true,if_false,zero_add,List.countP_cons,add_zero]
        exact ih

variable (key amount sel) in
theorem paidTo_split (P : ρ → Bool) (F : κ → Fund) (rs : List ρ) :
    paidTo key amount sel F rs=paidTo key amount (fun r => sel r && P r) F rs+
      paidTo key amount (fun r => sel r && !P r) F rs := by
  induction rs generalizing F with
  | nil => rfl
  | cons r rs ih =>
    rw [paidTo,paidTo,paidTo,ih]
    cases sel r <;> cases P r <;> simp <;> omega

omit [DecidableEq κ] in
variable (key amount sel) in
theorem floorOf_split (P : ρ → Bool) (F : κ → Fund) (rs : List ρ) :
    floorOf key amount sel F rs=floorOf key amount (fun r => sel r && P r) F rs+
      floorOf key amount (fun r => sel r && !P r) F rs := by
  induction rs with
  | nil => rfl
  | cons r rs ih =>
    rw [floorOf_cons,floorOf_cons,floorOf_cons,ih]
    cases sel r <;> cases P r <;> simp <;> omega

variable (sel) in
/-- Whatever the order, requests to one fund are paid at most one unit for each of the fund's
requests more than they would be paid first. -/
theorem Redeemable.paidTo_le (h : Redeemable key amount F rs) (hsel : ∀ r, sel r → key r=k) :
    paidTo key amount sel F rs≤
      floorOf key amount sel F rs+(rs.countP fun r => key r=k) := by
  have hwithin := (requested_nonneg key h.positive k).trans (h.within k)
  have hall := h.paidTo_key_le (k := k)
  have hround := value_requested_le key amount rs hwithin
  have hothers := h.floorOf_le fun r => decide (key r=k) && !sel r
  have hsame : (fun r => decide (key r=k) && sel r)=sel := by
    funext r
    cases hr : sel r with
    | false => rw [Bool.and_false]
    | true => rw [Bool.and_true,decide_eq_true (hsel r hr)]
  have hpaid := paidTo_split key amount (fun r => key r=k) sel F rs
  have hfloor := floorOf_split key amount (fun r => key r=k) sel F rs
  rw [hsame] at hpaid hfloor
  omega

theorem left_other (h : ∀ r∈rs, key r≠k) : left key amount F rs k=F k := by
  induction rs generalizing F with
  | nil => rfl
  | cons r rs ih =>
    obtain ⟨hr,hrs⟩ := List.forall_mem_cons.mp h
    exact (ih hrs).trans (after_other hr)

/-- When all shares are redeemed, no capital is left. -/
theorem Redeemable.drained (h : Redeemable key amount F rs) (hpos : 0<(F k).shares)
    (hall : requested key amount k rs=(F k).shares) : left key amount F rs k=⟨0,0⟩ := by
  induction rs generalizing F with
  | nil =>
    simp only [requested,List.map_nil,List.sum_nil] at hall
    omega
  | cons r rs ih =>
    obtain ⟨hr,hrs,-⟩ := h.head
    rw [requested_cons] at hall
    by_cases hk : key r=k
    · subst hk
      rw [if_pos rfl] at hall
      have hrest := requested_nonneg key hrs (key r)
      rcases hrest.eq_or_lt with hzero | hmore
      · -- the last request to this fund
        have hlast : amount r=(F (key r)).shares := by omega
        have others : ∀ x∈rs, key x≠key r := by
          intro x hx hkx
          have hle := le_requested key hrs hx
          have hxpos := hrs x hx
          rw [hkx] at hle
          omega
        change left key amount (after key amount F r) rs (key r)=_
        rw [left_other others,after_same,redeem,hlast,value_all hpos,sub_self,sub_self]
      · refine ih h.next ?_ ?_ <;> rw [after_same]
        · change 0<(F (key r)).shares-amount r
          omega
        · change _=(F (key r)).shares-amount r
          omega
    · rw [if_neg hk,zero_add] at hall
      have hkept : after key amount F r k=F k := after_other hk
      exact ih h.next (by rw [hkept]; exact hpos) (by rw [hkept]; exact hall)

/-- Requests within what each holder has of a fund are within what all holders have of it. -/
theorem requested_le_total {α : Type} [DecidableEq α] {who : ρ → α} {held : α → Int} {n : Int}
    (h : HasTotal held n) (hpos : ∀ r∈rs, 0 < amount r)
    (hheld : ∀ a, requested (fun r => (key r,who r)) amount (k,a) rs≤held a)
    (nonneg : ∀ a, 0≤held a) : requested key amount k rs≤n := by
  induction rs generalizing held n with
  | nil =>
    have htotal : 0≤∑ᶠ a, held a := finsum_nonneg nonneg
    rw [h.total] at htotal
    exact htotal
  | cons r rs ih =>
    obtain ⟨hr,hrs⟩ := List.forall_mem_cons.mp hpos
    rw [requested_cons]
    by_cases hk : key r=k
    · have hmoved := h.update (who r) (held (who r)-amount r)
      have hrest (a : α) : requested (fun r => (key r,who r)) amount (k,a) rs≤
          Function.update held (who r) (held (who r)-amount r) a := by
        have ha := hheld a
        rw [requested_cons] at ha
        by_cases hw : who r=a
        · subst hw
          have he : (key r,who r)=(k,who r) := by rw [hk]
          rw [if_pos he] at ha
          rw [Function.update_self]
          omega
        · rw [if_neg (fun he => hw (congrArg Prod.snd he)),zero_add] at ha
          rwa [Function.update_of_ne (Ne.symm hw)]
      have hle := ih hmoved hrs hrest fun a =>
        (requested_nonneg (fun r => (key r,who r)) hrs (k,a)).trans (hrest a)
      rw [if_pos hk]
      omega
    · rw [if_neg hk,zero_add]
      refine ih h hrs (fun a => ?_) nonneg
      have ha := hheld a
      rwa [requested_cons,if_neg (fun he => hk (congrArg Prod.fst he)),zero_add] at ha

end Queue

end Mvua.Fund
