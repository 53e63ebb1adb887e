import Mathlib.Tactic.Common
import Mathlib.Algebra.BigOperators.Group.List.Basic

namespace Mvua

/-- A machine driven by calls; a call that fails is rolled back. -/
structure Machine (σ α ε : Type) where
  step : σ → α → Except ε σ

namespace Machine

variable {σ α ε γ : Type} (M : Machine σ α ε)

def next (s : σ) (a : α) : σ :=
  match M.step s a with
  | .ok t => t
  | .error _ => s

def run (s : σ) (calls : List α) : σ := calls.foldl M.next s

theorem next_of_ok {s t : σ} {a : α} (h : M.step s a=.ok t) : M.next s a=t := by
  simp [next,h]

theorem next_of_error {s : σ} {a : α} {e : ε} (h : M.step s a=.error e) : M.next s a=s := by
  simp [next,h]

theorem step_of_isOk {s : σ} {a : α} (h : (M.step s a).isOk) : M.step s a=.ok (M.next s a) := by
  cases hs : M.step s a with
  | ok t => rw [M.next_of_ok hs]
  | error e => rw [hs] at h; cases h

/-- A call either fails and changes nothing, or moves to its result. -/
theorem next_cases (s : σ) (a : α) : M.next s a=s ∨ M.step s a=.ok (M.next s a) := by
  cases h : M.step s a with
  | ok t => exact .inr (by rw [M.next_of_ok h])
  | error e => exact .inl (M.next_of_error h)

@[simp] theorem run_nil (s : σ) : M.run s []=s := rfl

@[simp] theorem run_cons (s : σ) (a : α) (calls : List α) :
    M.run s (a::calls)=M.run (M.next s a) calls := rfl

theorem run_append (s : σ) (as bs : List α) : M.run s (as++bs)=M.run (M.run s as) bs :=
  List.foldl_append

@[simp] theorem run_concat (s : σ) (as : List α) (a : α) :
    M.run s (as++[a])=M.next (M.run s as) a := by
  rw [run_append,run_cons,run_nil]

/-- A property that no successful call breaks holds after every run. -/
theorem run_invariant (I : σ → Prop) (step : ∀ s a t, I s → M.step s a=.ok t → I t)
    (calls : List α) (s : σ) (h : I s) : I (M.run s calls) := by
  induction calls generalizing s with
  | nil => exact h
  | cons a calls ih =>
    apply ih
    rcases M.next_cases s a with hs | hs
    · rw [hs]; exact h
    · exact step s a _ h hs

/-- What one successful call does to a state, a whole run does, under an invariant. -/
theorem run_relation (I : σ → Prop) (R : σ → σ → Prop) (refl : ∀ s, R s s)
    (trans : ∀ s t u, R s t → R t u → R s u)
    (keep : ∀ s a t, I s → M.step s a=.ok t → I t)
    (step : ∀ s a t, I s → M.step s a=.ok t → R s t)
    (calls : List α) (s : σ) (h : I s) : R s (M.run s calls) := by
  induction calls generalizing s with
  | nil => exact refl s
  | cons a calls ih =>
    rcases M.next_cases s a with hs | hs
    · rw [run_cons,hs]; exact ih s h
    · exact trans _ _ _ (step s a _ h hs) (ih _ (keep s a _ h hs))

/-- Every call of a run meets a condition at the state it is made in. -/
def along (P : σ → α → Prop) : σ → List α → Prop
  | _,[] => True
  | s,a::calls => P s a ∧ along P (M.next s a) calls

instance decidableAlong {P : σ → α → Prop} [∀ s a, Decidable (P s a)] :
    (s : σ) → (calls : List α) → Decidable (M.along P s calls)
  | _,[] => .isTrue trivial
  | s,a::calls => @instDecidableAnd _ _ _ (decidableAlong (M.next s a) calls)

theorem along_append {P : σ → α → Prop} (s : σ) (as bs : List α) :
    M.along P s (as++bs) ↔ M.along P s as ∧ M.along P (M.run s as) bs := by
  induction as generalizing s with
  | nil => simp [along]
  | cons a as ih => simp only [List.cons_append,along,ih,run_cons,and_assoc]

@[simp] theorem along_concat {P : σ → α → Prop} (s : σ) (as : List α) (a : α) :
    M.along P s (as++[a]) ↔ M.along P s as ∧ P (M.run s as) a := by
  simp [along_append,along]

/-- A condition that holds at every state needs only the calls themselves. -/
theorem along_of_mem {P : σ → α → Prop} (calls : List α) (h : ∀ a∈calls, ∀ s, P s a) (s : σ) :
    M.along P s calls := by
  induction calls generalizing s with
  | nil => trivial
  | cons a calls ih =>
    obtain ⟨ha,hcalls⟩ := List.forall_mem_cons.mp h
    exact ⟨ha s,ih hcalls _⟩

theorem along_of_forall {P : σ → α → Prop} (h : ∀ s a, P s a) (s : σ) (calls : List α) :
    M.along P s calls := M.along_of_mem calls (fun a _ s => h s a) s

theorem along_and {P Q : σ → α → Prop} (s : σ) (calls : List α) :
    M.along (fun s a => P s a ∧ Q s a) s calls ↔ M.along P s calls ∧ M.along Q s calls := by
  induction calls generalizing s with
  | nil => simp [along]
  | cons a calls ih => simp only [along,ih,and_and_and_comm]

/-- Everything that the calls of a run recorded, in order. -/
def log (f : σ → α → List γ) : σ → List α → List γ
  | _,[] => []
  | s,a::calls => f s a++log f (M.next s a) calls

theorem log_append (f : σ → α → List γ) (s : σ) (as bs : List α) :
    M.log f s (as++bs)=M.log f s as++M.log f (M.run s as) bs := by
  induction as generalizing s with
  | nil => rfl
  | cons a as ih => simp only [List.cons_append,log,ih,run_cons,List.append_assoc]

/-- The calls of a run are a log of it. -/
theorem log_calls (s : σ) (calls : List α) : M.log (fun _ a => [a]) s calls=calls := by
  induction calls generalizing s with
  | nil => rfl
  | cons a calls ih => rw [log,ih,List.singleton_append]

theorem log_map {δ : Type} (f : σ → α → List γ) (g : γ → δ) (s : σ) (calls : List α) :
    M.log (fun s a => (f s a).map g) s calls=(M.log f s calls).map g := by
  induction calls generalizing s with
  | nil => rfl
  | cons a calls ih => simp only [log,ih,List.map_append]

/-- What holds of everything that the calls record holds of the whole log. -/
theorem forall_mem_log {R : γ → Prop} (f : σ → α → List γ) (s : σ) (calls : List α)
    (h : M.along (fun s a => ∀ x∈f s a, R x) s calls) : ∀ x∈M.log f s calls, R x := by
  induction calls generalizing s with
  | nil => simp [log]
  | cons a calls ih => exact List.forall_mem_append.mpr ⟨h.1,ih _ h.2⟩

/-- A relation to the log that each call keeps under its condition holds after every run whose
calls meet the condition. -/
theorem run_along_log (I : σ → List γ → Prop) (P : σ → α → Prop) (f : σ → α → List γ)
    (step : ∀ s a log, I s log → P s a → I (M.next s a) (log++f s a)) (calls : List α) (s : σ)
    (log : List γ) (h : I s log) (hp : M.along P s calls) :
    I (M.run s calls) (log++M.log f s calls) := by
  induction calls generalizing s log with
  | nil => simpa [Machine.log] using h
  | cons a calls ih =>
    have ht := ih _ _ (step s a log h hp.1) hp.2
    rw [List.append_assoc] at ht
    exact ht

theorem run_log (I : σ → List γ → Prop) (f : σ → α → List γ)
    (step : ∀ s a log, I s log → I (M.next s a) (log++f s a)) (calls : List α) (s : σ)
    (log : List γ) (h : I s log) : I (M.run s calls) (log++M.log f s calls) :=
  M.run_along_log I (fun _ _ => True) f (fun s a log h _ => step s a log h) calls s log h
    (M.along_of_forall (fun _ _ => trivial) s calls)

/-- What one call does to a state and records, a whole run does, if its calls meet the condition
that the step needs. -/
theorem run_relation_log (I : σ → Prop) (P : σ → α → Prop) (R : σ → σ → List γ → Prop)
    (f : σ → α → List γ) (refl : ∀ s, R s s [])
    (trans : ∀ {s t u xs ys}, R s t xs → R t u ys → R s u (xs++ys))
    (keep : ∀ {s a}, I s → P s a → I (M.next s a))
    (step : ∀ {s a}, I s → P s a → R s (M.next s a) (f s a)) (calls : List α) (s : σ) (h : I s)
    (hp : M.along P s calls) : R s (M.run s calls) (M.log f s calls) := by
  induction calls generalizing s with
  | nil => exact refl s
  | cons a calls ih => exact trans (step h hp.1) (ih _ (keep h hp.1) hp.2)

/-- If a call keeps a property of the log exactly when it meets a condition, and no longer log
regains the property, then every call of a run meets the condition exactly when the whole log has
the property. -/
theorem along_iff_log (I : σ → List γ → Prop) (R : List γ → Prop) (P : σ → α → Prop)
    (f : σ → α → List γ) (keep : ∀ s a log, I s log → I (M.next s a) (log++f s a))
    (closed : ∀ log more, R (log++more) → R log)
    (step : ∀ s a log, I s log → R log → (R (log++f s a) ↔ P s a)) (calls : List α) (s : σ)
    (log : List γ) (hi : I s log) (hr : R log) :
    M.along P s calls ↔ R (log++M.log f s calls) := by
  induction calls generalizing s log with
  | nil =>
    rw [Machine.log,List.append_nil]
    exact ⟨fun _ => hr,fun _ => trivial⟩
  | cons a calls ih =>
    rw [Machine.log,← List.append_assoc]
    constructor
    · intro h
      obtain ⟨hp,hrest⟩ := h
      exact (ih _ _ (keep s a log hi) ((step s a log hi hr).mpr hp)).mp hrest
    · intro h
      have hn := closed _ _ h
      exact ⟨(step s a log hi hr).mp hn,(ih _ _ (keep s a log hi) hn).mpr h⟩

/-- The running total of an amount that each call contributes. -/
def tally (f : σ → α → Int) : σ → List α → Int
  | _,[] => 0
  | s,a::calls => f s a+tally f (M.next s a) calls

theorem tally_append (f : σ → α → Int) (s : σ) (as bs : List α) :
    M.tally f s (as++bs)=M.tally f s as+M.tally f (M.run s as) bs := by
  induction as generalizing s with
  | nil => simp [tally]
  | cons a as ih => simp only [List.cons_append,tally,ih,run_cons,Int.add_assoc]

@[simp] theorem tally_concat (f : σ → α → Int) (s : σ) (as : List α) (a : α) :
    M.tally f s (as++[a])=M.tally f s as+f (M.run s as) a := by
  simp [tally_append,tally]

/-- Let every call of a run meet `Q`. If such a call keeps `I` exactly when it also meets `P`,
then every call of the run meets `P` exactly when `I` holds in every state of the run. -/
theorem along_iff_prefixes (J I : σ → Prop) (P Q : σ → α → Prop)
    (keep : ∀ s a, J s → J (M.next s a))
    (step : ∀ s a, J s → Q s a → I s → (I (M.next s a) ↔ P s a)) (calls : List α) (s : σ)
    (hj : J s) (hi : I s) (hq : M.along Q s calls) :
    M.along P s calls ↔ ∀ before, before<+:calls → I (M.run s before) := by
  induction calls generalizing s with
  | nil =>
    refine ⟨fun _ before hb => ?_,fun _ => trivial⟩
    rw [List.prefix_nil.mp hb]
    exact hi
  | cons a calls ih =>
    have hstep := step s a hj hq.1 hi
    constructor
    · intro h before hb
      obtain ⟨hp,hrest⟩ := h
      cases before with
      | nil => exact hi
      | cons b before =>
        obtain ⟨rfl,hrest'⟩ := List.cons_prefix_cons.mp hb
        exact (ih _ (keep s b hj) (hstep.mpr hp) hq.2).mp hrest before hrest'
    · intro h
      have hn : I (M.next s a) := h [a] (by simp)
      refine ⟨hstep.mp hn,(ih _ (keep s a hj) hn hq.2).mpr fun before hb => ?_⟩
      exact h (a::before) (List.cons_prefix_cons.mpr ⟨rfl,hb⟩)

section Kinds

variable {K : α → Prop} {J I : σ → Prop}

/-- What no call of a kind can restore held before a run of that kind if it holds after it. -/
theorem run_reflects (keep : ∀ s a, J s → J (M.next s a))
    (back : ∀ s a, K a → J s → I (M.next s a) → I s) (calls : List α) (s : σ)
    (hk : ∀ a∈calls, K a) (hj : J s) (h : I (M.run s calls)) : I s := by
  induction calls generalizing s with
  | nil => exact h
  | cons a calls ih =>
    obtain ⟨hka,hks⟩ := List.forall_mem_cons.mp hk
    exact back s a hka hj (ih _ hks (keep s a hj) h)

/-- If no call of a kind can restore `I`, and each keeps it exactly when it meets a condition,
then `I` holds after a run of that kind exactly when every call met the condition. -/
theorem along_iff_last {P : σ → α → Prop} (keep : ∀ s a, J s → J (M.next s a))
    (back : ∀ s a, K a → J s → I (M.next s a) → I s)
    (step : ∀ s a, K a → J s → I s → (I (M.next s a) ↔ P s a)) (calls : List α) (s : σ)
    (hk : ∀ a∈calls, K a) (hj : J s) (hi : I s) :
    M.along P s calls ↔ I (M.run s calls) := by
  induction calls generalizing s with
  | nil => exact ⟨fun _ => hi,fun _ => trivial⟩
  | cons a calls ih =>
    obtain ⟨hka,hks⟩ := List.forall_mem_cons.mp hk
    constructor
    · intro h
      obtain ⟨hp,hrest⟩ := h
      exact (ih _ hks (keep s a hj) ((step s a hka hj hi).mpr hp)).mp hrest
    · intro h
      have hn := M.run_reflects keep back calls _ hks (keep s a hj) h
      exact ⟨(step s a hka hj hi).mp hn,(ih _ hks (keep s a hj) hn).mpr h⟩

end Kinds

/-- A relation to a running total that each call keeps under its condition holds after
every run whose calls meet the condition. -/
theorem run_along_tally (I : σ → Int → Prop) (P : σ → α → Prop) (f : σ → α → Int)
    (step : ∀ s a u, I s u → P s a → I (M.next s a) (u+f s a)) (calls : List α) (s : σ) (u : Int)
    (h : I s u) (hp : M.along P s calls) : I (M.run s calls) (u+M.tally f s calls) := by
  induction calls generalizing s u with
  | nil => simpa [tally] using h
  | cons a calls ih =>
    have ht := ih _ _ (step s a u h hp.1) hp.2
    rw [Int.add_assoc] at ht
    exact ht

theorem run_tally (I : σ → Int → Prop) (f : σ → α → Int)
    (step : ∀ s a u, I s u → I (M.next s a) (u+f s a)) (calls : List α) (s : σ) (u : Int)
    (h : I s u) : I (M.run s calls) (u+M.tally f s calls) :=
  M.run_along_tally I (fun _ _ => True) f (fun s a u h _ => step s a u h) calls s u h
    (M.along_of_forall (fun _ _ => trivial) s calls)

/-- Under an invariant that a condition keeps, what the condition implies holds along the run. -/
theorem along_of_invariant (I : σ → Prop) {P Q : σ → α → Prop}
    (step : ∀ s a, I s → P s a → I (M.next s a)) (holds : ∀ s a, I s → P s a → Q s a)
    (calls : List α) (s : σ) (h : I s) (hp : M.along P s calls) : M.along Q s calls := by
  induction calls generalizing s with
  | nil => trivial
  | cons a calls ih => exact ⟨holds s a h hp.1,ih _ (step s a h hp.1) hp.2⟩

/-- An invariant that each call keeps under its condition. -/
theorem run_along (I : σ → Prop) (P : σ → α → Prop) (step : ∀ s a, I s → P s a → I (M.next s a))
    (calls : List α) (s : σ) (h : I s) (hp : M.along P s calls) : I (M.run s calls) := by
  induction calls generalizing s with
  | nil => exact h
  | cons a calls ih => exact ih _ (step s a h hp.1) hp.2

end Machine

end Mvua
