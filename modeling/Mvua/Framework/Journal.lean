import Mvua.Framework.Machine

namespace Mvua

/-- How a reader keeps books from published entries: what an entry does to them, and which entries
fit the books as they are. -/
structure Journal (β η : Type) where
  post : β → η → β
  Fits : β → η → Prop

namespace Journal

variable {β η : Type} (J : Journal β η)

/-- The books after reading the entries in order. -/
def replay (b : β) (entries : List η) : β := entries.foldl J.post b

/-- Every entry fits the books that the entries before it left. -/
def Accepts : β → List η → Prop
  | _,[] => True
  | b,e::entries => J.Fits b e ∧ Accepts (J.post b e) entries

/-- The entries fit one after the other and account for the books. -/
def Records (start : β) (entries : List η) (b : β) : Prop :=
  J.Accepts start entries ∧ J.replay start entries=b

variable {J} {start b : β} {entries more : List η}

@[simp] theorem replay_append :
    J.replay start (entries++more)=J.replay (J.replay start entries) more :=
  List.foldl_append

theorem accepts_append :
    J.Accepts start (entries++more) ↔
      J.Accepts start entries ∧ J.Accepts (J.replay start entries) more := by
  induction entries generalizing start with
  | nil => simp [Accepts,replay]
  | cons e entries ih => simp only [List.cons_append,Accepts,ih,replay,List.foldl_cons,and_assoc]

theorem Records.nil (b : β) : J.Records b [] b := ⟨trivial,rfl⟩

theorem Records.append (h : J.Records start entries b) (hm : J.Accepts b more) :
    J.Records start (entries++more) (J.replay b more) := by
  obtain ⟨ha,rfl⟩ := h
  exact ⟨accepts_append.mpr ⟨ha,hm⟩,replay_append⟩

/-- A journal that posts alike and asks no more of an entry records what the other records. -/
theorem Records.mono {J' : Journal β η} (hpost : ∀ b e, J'.post b e=J.post b e)
    (hfits : ∀ b e, J.Fits b e → J'.Fits b e) (h : J.Records start entries b) :
    J'.Records start entries b := by
  induction entries generalizing start with
  | nil => exact ⟨trivial,h.2⟩
  | cons e entries ih =>
    obtain ⟨⟨hfit,haccepts⟩,hreplay⟩ := h
    have htail := ih ⟨haccepts,hreplay⟩
    rw [← hpost] at htail
    exact ⟨⟨hfits _ _ hfit,htail.1⟩,htail.2⟩

/-- Entries of other keys leave the books of a key alone, so its own entries give them. -/
theorem replay_filter {γ : Type} (view : β → γ) (own : η → Bool)
    (foreign : ∀ b e, own e=false → view (J.post b e)=view b)
    (same : ∀ b c e, view b=view c → view (J.post b e)=view (J.post c e)) (b c : β)
    (h : view b=view c) :
    view (J.replay b entries)=view (J.replay c (entries.filter own)) := by
  induction entries generalizing b c with
  | nil => exact h
  | cons e entries ih =>
    cases ho : own e with
    | true =>
      rw [List.filter_cons_of_pos ho]
      exact ih _ _ (same b c e h)
    | false =>
      rw [List.filter_cons_of_neg (by simp [ho])]
      exact ih _ _ ((foreign b e ho).trans h)

/-- From what was published and the books before to those after: the new entries fit the books and
account for how they changed. -/
structure Publishes (J : Journal β η) (before after : List η × β) (entries : List η) : Prop where
  events : after.1=before.1++entries
  accepts : J.Accepts before.2 entries
  books : after.2=J.replay before.2 entries

namespace Publishes

variable {x y z : List η × β}

theorem silent (h : y=x) : J.Publishes x y [] := by
  subst h
  exact ⟨by rw [List.append_nil],trivial,rfl⟩

theorem one {e : η} (events : y.1=x.1++[e]) (fits : J.Fits x.2 e) (books : y.2=J.post x.2 e) :
    J.Publishes x y [e] := ⟨events,⟨fits,trivial⟩,books⟩

theorem trans (h : J.Publishes x y entries) (h' : J.Publishes y z more) :
    J.Publishes x z (entries++more) := by
  refine ⟨?_,?_,?_⟩
  · rw [h'.events,h.events,List.append_assoc]
  · rw [accepts_append,← h.books]
    exact ⟨h.accepts,h'.accepts⟩
  · rw [h'.books,h.books,replay_append]

theorem records (h : J.Publishes x y entries) (hr : J.Records start x.1 x.2) :
    J.Records start y.1 y.2 := by
  rw [h.events,h.books]
  exact hr.append h.accepts

end Publishes

end Journal

namespace Machine

variable {σ α ε β η : Type} (M : Machine σ α ε)

/-- A machine whose successful steps of a kind publish what accounts for them publishes a complete
journal over every run of that kind. What fits may depend on the state, as long as no step rejects
what an earlier one published. -/
theorem run_records (J : σ → Journal β η) (K : α → Prop) (I : σ → Prop)
    (published : σ → List η × β) (start : β) (keep : ∀ s a t, I s → M.step s a=.ok t → I t)
    (grow : ∀ s a t, K a → I s → M.step s a=.ok t → ∀ b e,
      (J t).post b e=(J s).post b e ∧ ((J s).Fits b e → (J t).Fits b e))
    (step : ∀ s a t, K a → I s → M.step s a=.ok t →
      ∃ entries, (J t).Publishes (published s) (published t) entries)
    (calls : List α) (hk : ∀ a∈calls, K a) (s : σ) (hi : I s)
    (h : (J s).Records start (published s).1 (published s).2) :
    let t := M.run s calls
    (J t).Records start (published t).1 (published t).2 := by
  induction calls generalizing s with
  | nil => exact h
  | cons a calls ih =>
    obtain ⟨hka,hks⟩ := List.forall_mem_cons.mp hk
    rcases M.next_cases s a with hs | hs
    · rw [run_cons,hs]
      exact ih hks s hi h
    · refine ih hks _ (keep s a _ hi hs) ?_
      obtain ⟨entries,hp⟩ := step s a _ hka hi hs
      have hsame := grow s a _ hka hi hs
      exact hp.records (h.mono (fun b e => (hsame b e).1) (fun b e => (hsame b e).2))

end Machine

end Mvua
