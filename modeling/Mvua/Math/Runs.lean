import Mathlib.Data.List.Chain
import Mathlib.Data.List.Range
import Mathlib.Data.List.Infix
import Mathlib.Data.List.Forall2
import Mathlib.Tactic.Common

namespace Mvua

variable {α : Type} {p : α → Prop} {xs : List α} {x : α} {m n : Nat}

/-- `n` is the length of the longest contiguous block of values with `p`. -/
structure IsLongestBlock (p : α → Prop) (xs : List α) (n : Nat) : Prop where
  attained : ∃ b, b<:+:xs ∧ (∀ x∈b, p x) ∧ b.length=n
  bound : ∀ b, b<:+:xs → (∀ x∈b, p x) → b.length≤n

/-- `n` is the length of the longest suffix of values with `p`. -/
structure IsLongestSuffix (p : α → Prop) (xs : List α) (n : Nat) : Prop where
  attained : ∃ b, b<:+xs ∧ (∀ x∈b, p x) ∧ b.length=n
  bound : ∀ b, b<:+xs → (∀ x∈b, p x) → b.length≤n

theorem IsLongestBlock.nil : IsLongestBlock p [] 0 where
  attained := ⟨[],List.infix_rfl,by simp,rfl⟩
  bound b hb _ := by simp [List.infix_nil.mp hb]

theorem IsLongestSuffix.nil : IsLongestSuffix p [] 0 where
  attained := ⟨[],List.suffix_rfl,by simp,rfl⟩
  bound b hb _ := by simp [List.suffix_nil.mp hb]

theorem IsLongestSuffix.le_block (h : IsLongestSuffix p xs m) (hb : IsLongestBlock p xs n) :
    m≤n := by
  obtain ⟨b,hsuffix,hall,rfl⟩ := h.attained
  exact hb.bound b hsuffix.isInfix hall

theorem IsLongestBlock.unique (h : IsLongestBlock p xs m) (h' : IsLongestBlock p xs n) : m=n := by
  obtain ⟨b,hb,hall,rfl⟩ := h.attained
  obtain ⟨c,hc,hall',rfl⟩ := h'.attained
  exact le_antisymm (h'.bound b hb hall) (h.bound c hc hall')

theorem IsLongestSuffix.unique (h : IsLongestSuffix p xs m) (h' : IsLongestSuffix p xs n) :
    m=n := by
  obtain ⟨b,hb,hall,rfl⟩ := h.attained
  obtain ⟨c,hc,hall',rfl⟩ := h'.attained
  exact le_antisymm (h'.bound b hb hall) (h.bound c hc hall')

theorem IsLongestBlock.le_length (h : IsLongestBlock p xs n) : n≤xs.length := by
  obtain ⟨b,hblock,-,rfl⟩ := h.attained
  exact hblock.length_le

/-- The longest suffix grows with a value that has `p`. -/
theorem IsLongestSuffix.concat (h : IsLongestSuffix p xs m) (hx : p x) :
    IsLongestSuffix p (xs++[x]) (m+1) where
  attained := by
    obtain ⟨b,hb,hall,hlen⟩ := h.attained
    refine ⟨b++[x],List.suffix_concat_iff.mpr (.inr ⟨b,rfl,hb⟩),?_,by simp [hlen]⟩
    intro y hy
    rcases List.mem_append.mp hy with hy | hy
    · exact hall y hy
    · exact (List.mem_singleton.mp hy) ▸ hx
  bound b hb hall := by
    rcases List.suffix_concat_iff.mp hb with rfl | ⟨t,rfl,ht⟩
    · exact Nat.zero_le _
    · have := h.bound t ht (fun y hy => hall y (List.mem_append_left _ hy))
      simpa using this

/-- A value without `p` leaves the empty suffix only. -/
theorem IsLongestSuffix.concat_not (hx : ¬p x) : IsLongestSuffix p (xs++[x]) 0 where
  attained := ⟨[],List.nil_suffix,by simp,rfl⟩
  bound b hb hall := by
    rcases List.suffix_concat_iff.mp hb with rfl | ⟨t,rfl,-⟩
    · exact le_rfl
    · exact absurd (hall x (by simp)) hx

/-- The longest block of a longer list is the old one or the new longest suffix. -/
theorem IsLongestBlock.concat (h : IsLongestBlock p xs n)
    (hs : IsLongestSuffix p (xs++[x]) m) : IsLongestBlock p (xs++[x]) (max n m) where
  attained := by
    rcases le_total n m with hle | hle
    · obtain ⟨b,hb,hall,hlen⟩ := hs.attained
      exact ⟨b,hb.isInfix,hall,by omega⟩
    · obtain ⟨b,hb,hall,hlen⟩ := h.attained
      exact ⟨b,List.infix_concat_iff.mpr (.inr hb),hall,by omega⟩
  bound b hb hall := by
    rcases List.infix_concat_iff.mp hb with hb | hb
    · exact (hs.bound b hb hall).trans (le_max_right _ _)
    · exact (h.bound b hb hall).trans (le_max_left _ _)

/-- Where every value with `p` stands against one with `q`, the longest block is no shorter. -/
theorem IsLongestBlock.mono {β : Type} {q : β → Prop} {ys : List β}
    (h : IsLongestBlock q ys n) (hp : IsLongestBlock p xs m)
    (hpq : List.Forall₂ (fun x y => p x → q y) xs ys) : m≤n := by
  obtain ⟨b,⟨pre,post,hb⟩,hall,rfl⟩ := hp.attained
  have hpart := List.forall₂_take b.length (List.forall₂_drop pre.length hpq)
  have hblock : (xs.drop pre.length).take b.length=b := by
    rw [← hb,List.append_assoc,List.drop_left,List.take_left]
  rw [hblock] at hpart
  have hbound := h.bound ((ys.drop pre.length).take b.length) ?_ ?_
  · rwa [← hpart.length_eq] at hbound
  · exact (List.take_prefix _ _).isInfix.trans (List.drop_suffix _ _).isInfix
  · intro y hy
    obtain ⟨k,hk,rfl⟩ := List.getElem_of_mem hy
    have hkb : k<b.length := by rwa [hpart.length_eq]
    exact hpart.get hkb hk (hall _ (List.getElem_mem hkb))

section Calendar

/-- Successive numbers are a range. -/
theorem isChain_succ_iff (days : List Nat) :
    days.IsChain (fun a b => b=a+1) ↔ ∃ first, days=List.range' first days.length := by
  induction days with
  | nil => simp
  | cons a days ih =>
    rw [List.isChain_cons,ih]
    constructor
    · intro h
      obtain ⟨hhead,first,hrange⟩ := h
      refine ⟨a,?_⟩
      cases days with
      | nil => rfl
      | cons b rest =>
        have hb : b=a+1 := hhead b rfl
        rw [List.length_cons,List.range'_succ,List.cons.injEq] at hrange
        rw [List.length_cons,List.length_cons,List.range'_succ,List.range'_succ,← hb,hrange.1,
          ← hrange.2]
    · intro h
      obtain ⟨first,hrange⟩ := h
      rw [List.length_cons,List.range'_succ,List.cons.injEq] at hrange
      obtain ⟨rfl,hrange⟩ := hrange
      refine ⟨?_,a+1,hrange⟩
      intro b hb
      rw [hrange] at hb
      cases hd : days.length with
      | zero => simp [hd] at hb
      | succ k => simpa [hd,List.range'_succ,eq_comm] using hb

/-- `n` is the length of the longest spell of consecutive days whose value has `p`. -/
structure IsLongestSpell (p : α → Prop) (series : List (Nat × α)) (n : Nat) : Prop where
  attained : ∃ day, ∀ i<n, ∃ x, (day+i,x)∈series ∧ p x
  bound : ∀ day k, (∀ i<k, ∃ x, (day+i,x)∈series ∧ p x) → k≤n

variable {series : List (Nat × α)} {first : Nat}

theorem series_getElem (h : series.map Prod.fst=List.range' first series.length) {i : Nat}
    (hi : i<series.length) : series[i]=(first+i,(series[i]).2) := by
  have hday : (series.map Prod.fst)[i]?=some (first+i) := by
    rw [h,List.getElem?_range' hi,Nat.one_mul]
  rw [List.getElem?_map,List.getElem?_eq_getElem hi,Option.map_some,Option.some.injEq] at hday
  rw [← hday]

/-- On successive days, the longest spell is the longest block of values. -/
theorem IsLongestBlock.spell (h : IsLongestBlock p (series.map Prod.snd) n)
    (hdays : series.map Prod.fst=List.range' first series.length) :
    IsLongestSpell p series n where
  attained := by
    obtain ⟨b,⟨pre,post,hb⟩,hall,rfl⟩ := h.attained
    refine ⟨first+pre.length,fun i hi => ?_⟩
    have hlen : pre.length+i<series.length := by
      have := congrArg List.length hb
      simp only [List.length_append,List.length_map] at this
      omega
    have hvalue : (series[pre.length+i]).2=b[i] := by
      have hget : (series.map Prod.snd)[pre.length+i]?=some b[i] := by
        rw [← hb,List.append_assoc,List.getElem?_append_right (by omega),Nat.add_sub_cancel_left,
          List.getElem?_append_left hi,List.getElem?_eq_getElem hi]
      rwa [List.getElem?_map,List.getElem?_eq_getElem hlen,Option.map_some,
        Option.some.injEq] at hget
    have hentry := series_getElem hdays hlen
    rw [hvalue,← Nat.add_assoc] at hentry
    exact ⟨b[i],hentry ▸ List.getElem_mem hlen,hall _ (List.getElem_mem hi)⟩
  bound day k hk := by
    -- each day of the spell is an entry of the series at its distance from the first
    have entry : ∀ i<k, ∃ j, ∃ hj : j<series.length, first+j=day+i ∧ p (series[j]).2 := by
      intro i hi
      obtain ⟨x,hmem,hx⟩ := hk i hi
      obtain ⟨j,hj,he⟩ := List.getElem_of_mem hmem
      have hentry := series_getElem hdays hj
      rw [he] at hentry
      refine ⟨j,hj,(congrArg Prod.fst hentry).symm,?_⟩
      rw [he]
      exact hx
    cases k with
    | zero => exact Nat.zero_le _
    | succ k =>
      obtain ⟨j₀,hj₀,hday,-⟩ := entry 0 (by omega)
      obtain ⟨jₖ,hjₖ,hend,-⟩ := entry k (by omega)
      have hlen : (((series.map Prod.snd).drop j₀).take (k+1)).length=k+1 := by
        simp only [List.length_take,List.length_drop,List.length_map]
        omega
      have hpart : ((series.map Prod.snd).drop j₀).take (k+1)<:+:series.map Prod.snd :=
        (List.take_prefix _ _).isInfix.trans (List.drop_suffix _ _).isInfix
      have hblock := h.bound _ hpart ?_
      · rwa [hlen] at hblock
      · intro x hx
        obtain ⟨i,hi,rfl⟩ := List.getElem_of_mem hx
        rw [hlen] at hi
        obtain ⟨j,hj,hd,hp⟩ := entry i hi
        have hji : j=j₀+i := by omega
        subst hji
        simpa using hp

end Calendar

end Mvua
