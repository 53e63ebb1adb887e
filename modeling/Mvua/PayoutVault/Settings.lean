import Mvua.PayoutVault.Backing

namespace Mvua.PayoutVault

/-- What only the admin of the vault decides. -/
structure Settings where
  admin : Option Address
  paused : Option Bool
  batch : Nat × Nat → Option BatchProgress
  payout : Nat → Option PayoutRecord
  poolRef : Option Address
  policyRef : Option Address
  triggerRef : Option Address
  token : Option Address

def State.settings (s : State) : Settings :=
  ⟨s.admin,s.paused,s.batch,s.payout,s.poolRef,s.policyRef,s.triggerRef,s.token⟩

section Calls

variable {L : Type} {T : TokenHost L} {net : Network} {admin : Address} {env : Env}
  {w w' : World L}

theorem invoke_admin {c : Call} (h : invoke T net env w c=.ok w') :
    w'.vault.admin=w.vault.admin := by
  cases c with
  | pause | unpause | closeBatch =>
    simp only [invoke,pause,unpause,closeBatch,except_map_eq_ok,bind_eq_ok,pure_eq_ok] at h
    obtain ⟨_,⟨_,-,rfl⟩,rfl⟩ := h
    rfl
  | payBatch i n p z entries =>
    simp only [invoke,except_map_eq_ok,Prod.exists] at h
    obtain ⟨paid,_,hu,rfl⟩ := h
    obtain ⟨_,_,r,-,-,hr,-,rfl⟩ := payBatch_loop hu
    refine foldlM_invariant (fun r : BatchRun L => r.world.vault.admin=w.vault.admin) ?_ entries
      _ r rfl hr
    intro r entry r' ht hpay
    rcases payEntry_ok hpay with rfl | ⟨_,_,_,_,-,-,-,-,-,-,hw⟩
    · exact ht
    · rw [hw]
      exact ht
  | claim owner =>
    simp only [invoke,except_map_eq_ok,Prod.exists] at h
    obtain ⟨amount,_,hu,rfl⟩ := h
    obtain ⟨-,l',rfl⟩ := claim_ok hu
    rfl

/-- Without the admin the vault only pays what is owed. -/
theorem invoke_settings {c : Call} (ha : w.vault.admin=some admin) (hu : admin∉env.signers)
    (h : invoke T net env w c=.ok w') : w'.vault.settings=w.vault.settings ∧
    ∀ i n p z entries, c≠.payBatch i n p z entries := by
  cases c with
  | pause | unpause | closeBatch | payBatch =>
    simp only [invoke,except_map_eq_ok] at h
    obtain ⟨_,h,-⟩ := h
    exact absurd h (unauthorized ha hu)
  | claim owner =>
    simp only [invoke,except_map_eq_ok,Prod.exists] at h
    obtain ⟨amount,_,h,rfl⟩ := h
    obtain ⟨-,l',rfl⟩ := claim_ok h
    exact ⟨rfl,by simp⟩

/-- What a batch pays, it pays to its entries, at what the window is worth. -/
theorem payBatch_paid {i n p z paid : Nat} {entries : List PayoutEntry}
    (h : payBatch T net env w i n p z entries=.ok (paid,w')) (id : Nat) (record : PayoutRecord)
    (hid : w'.vault.payout id=some record) : w.vault.payout id=some record ∨
    ∃ coverage, ⟨id,record.owner,coverage⟩∈entries ∧ 0<coverage ∧ 0<record.amount ∧
      TriggerEngine.payoutFor w.triggerEngine i n coverage=.ok record.amount := by
  obtain ⟨pool,trigger,r,-,-,hr,-,rfl⟩ := payBatch_loop h
  let I (r : BatchRun L) : Prop := r.world.triggerEngine=w.triggerEngine ∧
    ∀ id record, r.world.vault.payout id=some record → w.vault.payout id=some record ∨
      ∃ coverage, ⟨id,record.owner,coverage⟩∈entries ∧ 0<coverage ∧ 0<record.amount ∧
        TriggerEngine.payoutFor w.triggerEngine i n coverage=.ok record.amount
  have hend : I r := by
    refine foldlM_invariant_mem I entries ?_ _ r ⟨rfl,fun _ _ hid => .inl hid⟩ hr
    intro r entry hentry r' hI hpay
    obtain ⟨hengine,hpaid⟩ := hI
    rcases payEntry_ok hpay with rfl | ⟨amount,m,s',l',-,hcov,hpos,hamount,-,-,hw⟩
    · exact ⟨hengine,hpaid⟩
    · refine ⟨by rw [hw]; exact hengine,fun id record hid => ?_⟩
      rw [hw,payout_credit] at hid
      split_ifs at hid with he
      · rw [Option.some.injEq] at hid
        subst hid he
        rw [hengine] at hamount
        exact .inr ⟨entry.coverage,hentry,hcov,hpos,hamount⟩
      · exact hpaid id record hid
  exact hend.2 id record hid

/-- Only a batch, ordered by the admin, writes payouts. -/
theorem invoke_paid {c : Call} {admin : Address} (ha : w.vault.admin=some admin)
    (h : invoke T net env w c=.ok w') : w'.vault.payout=w.vault.payout ∨
    admin∈env.signers ∧ ∃ i n p z entries paid, c=.payBatch i n p z entries ∧
      payBatch T net env w i n p z entries=.ok (paid,w') := by
  by_cases hu : admin∈env.signers
  · cases c with
    | pause | unpause | closeBatch =>
      simp only [invoke,pause,unpause,closeBatch,except_map_eq_ok,bind_eq_ok,pure_eq_ok] at h
      obtain ⟨_,⟨_,-,rfl⟩,rfl⟩ := h
      exact .inl rfl
    | payBatch i n p z entries =>
      simp only [invoke,except_map_eq_ok,Prod.exists] at h
      obtain ⟨paid,_,hpay,rfl⟩ := h
      exact .inr ⟨hu,i,n,p,z,entries,paid,rfl,hpay⟩
    | claim owner =>
      simp only [invoke,except_map_eq_ok,Prod.exists] at h
      obtain ⟨amount,_,hc,rfl⟩ := h
      obtain ⟨-,l',rfl⟩ := claim_ok hc
      exact .inl rfl
  · exact .inl (congrArg Settings.payout (invoke_settings ha hu h).1)

end Calls

end Mvua.PayoutVault
