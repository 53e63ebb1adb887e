import Mvua.PayoutVault.Books
import Mvua.PayoutVault.Sendings
import Mvua.PayoutVault.Settings

namespace Mvua.PayoutVault

/-- What a pause leaves as it is: it lasts, nobody is recorded as paid, and the figures of the
batches stand. -/
structure Rests (v v' : State) : Prop where
  paused : isPaused v=true → isPaused v'=true
  payout : v'.payout=v.payout
  disbursed : ∀ i n, (readBatch v' i n).totalDisbursed=(readBatch v i n).totalDisbursed
  counted : ∀ i n, (readBatch v' i n).policiesPaid=(readBatch v i n).policiesPaid

theorem Rests.refl (v : State) : Rests v v := ⟨id,rfl,fun _ _ => rfl,fun _ _ => rfl⟩

theorem Rests.trans {v v' v'' : State} (h : Rests v v') (h' : Rests v' v'') : Rests v v'' where
  paused hp := h'.paused (h.paused hp)
  payout := h'.payout.trans h.payout
  disbursed i n := (h'.disbursed i n).trans (h.disbursed i n)
  counted i n := (h'.counted i n).trans (h.counted i n)

theorem Rests.of_settings {v v' : State} (h : v'.settings=v.settings) : Rests v v' := by
  simp only [State.settings,Settings.mk.injEq] at h
  obtain ⟨-,hflag,hbatch,hpayout,-⟩ := h
  refine ⟨fun hp => ?_,hpayout,fun i n => ?_,fun i n => ?_⟩
  · rwa [isPaused,hflag]
  · rw [readBatch,readBatch,hbatch]
  · rw [readBatch,readBatch,hbatch]

section Calls

variable {L : Type} {T : TokenHost L} {net : Network} {env : Env} {w w' : World L}

/-- The flag is read before anything is written. -/
theorem payBatch_paused {i n p z : Nat} {entries : List PayoutEntry} {x : Nat × World L}
    (hp : isPaused w.vault=true) : payBatch T net env w i n p z entries≠.ok x := by
  intro h
  simp only [payBatch,bind_eq_ok,failIf_eq_ok] at h
  obtain ⟨_,-,_,hflag,-⟩ := h
  exact hflag hp

theorem invoke_paused_pool {c : Call} (hp : isPaused w.vault=true)
    (h : invoke T net env w c=.ok w') : w'.riskPool=w.riskPool := by
  cases c <;> simp only [invoke,except_map_eq_ok,Prod.exists] at h
  case payBatch i n p z entries =>
    obtain ⟨_,_,hu,-⟩ := h
    exact absurd hu (payBatch_paused hp)
  case claim owner =>
    obtain ⟨_,_,hu,rfl⟩ := h
    obtain ⟨-,l',rfl⟩ := claim_ok hu
    rfl
  all_goals
    obtain ⟨v,-,rfl⟩ := h
    rfl

/-- Closing a batch leaves its figures. -/
theorem closeBatch_figure {β : Type} {f : BatchProgress → β} {v v' : State} {i n : Nat}
    (hf : ∀ b : BatchProgress, f { b with state := .complete }=f b)
    (h : closeBatch env v i n=.ok v') (j m : Nat) : f (readBatch v' j m)=f (readBatch v j m) := by
  simp only [closeBatch,bind_eq_ok,pure_eq_ok] at h
  obtain ⟨_,-,rfl⟩ := h
  have hfigure := figure_writeBatch (s := v) (i := i) (n := n) (hf (readBatch v i n)) (j,m)
  have hsame : Function.update (batches v) (i,n) (batches v (i,n))=batches v :=
    Function.update_eq_self (i,n) (batches v)
  exact hfigure.trans (congrArg (fun g => f (g (j,m))) hsame)

theorem closeBatch_keeps {v v' : State} {i n : Nat} (h : closeBatch env v i n=.ok v') :
    v'.paused=v.paused ∧ v'.payout=v.payout := by
  simp only [closeBatch,bind_eq_ok,pure_eq_ok] at h
  obtain ⟨_,-,rfl⟩ := h
  exact ⟨rfl,rfl⟩

/-- A paused vault rests in every call but its admin's `unpause`, and sends what it owes. -/
theorem invoke_rests {c : Call} {admin token : Address} (ha : w.vault.admin=some admin)
    (ht : w.vault.token=some token) (hp : isPaused w.vault=true)
    (hc : c=.unpause → admin∉env.signers) (h : invoke T net env w c=.ok w') :
    Rests w.vault w'.vault ∧ Sends T token net.vault w.vault w'.vault (sendings T net w c) := by
  have hbatch (i n p z : Nat) (entries : List PayoutEntry) : c≠.payBatch i n p z entries := by
    intro he
    subst he
    simp only [invoke,except_map_eq_ok] at h
    obtain ⟨_,hu,-⟩ := h
    exact payBatch_paused hp hu
  refine ⟨?_,invoke_sends ht hbatch h⟩
  cases c with
  | unpause => exact .of_settings (invoke_settings ha (hc rfl) h).1
  | pause =>
    simp only [invoke,pause,except_map_eq_ok,bind_eq_ok,pure_eq_ok] at h
    obtain ⟨_,⟨_,-,rfl⟩,rfl⟩ := h
    exact ⟨fun _ => rfl,rfl,fun _ _ => rfl,fun _ _ => rfl⟩
  | payBatch i n p z entries => exact absurd rfl (hbatch i n p z entries)
  | closeBatch i n =>
    simp only [invoke,except_map_eq_ok] at h
    obtain ⟨v,hclose,rfl⟩ := h
    obtain ⟨hpaused,hpayout⟩ := closeBatch_keeps hclose
    refine ⟨fun hp => ?_,hpayout,fun j m => ?_,fun j m => ?_⟩
    · rwa [isPaused,hpaused]
    · exact closeBatch_figure (f := BatchProgress.totalDisbursed) (fun _ => rfl) hclose j m
    · exact closeBatch_figure (f := BatchProgress.policiesPaid) (fun _ => rfl) hclose j m
  | claim owner =>
    simp only [invoke,except_map_eq_ok,Prod.exists] at h
    obtain ⟨amount,_,h,rfl⟩ := h
    obtain ⟨-,l',rfl⟩ := claim_ok h
    exact .of_settings rfl

end Calls

end Mvua.PayoutVault
