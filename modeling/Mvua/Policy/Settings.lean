import Mvua.Policy.World

namespace Mvua.Policy

/-- What only the admin of the policy contract decides. -/
structure Settings where
  admin : Option Address
  riskPool : Option Address
  transferable : Nat → Option Bool

def State.settings (s : State) : Settings := ⟨s.admin,s.riskPool,s.transferable⟩

/-- No certificate is newly marked. -/
def Unmarked (s s' : State) : Prop :=
  ∀ id r, s'.policy id=some r → r.state=.triggered ∨ r.state=.paid → s.policy id=some r

theorem Unmarked.trans {s s' s'' : State} (h : Unmarked s s') (h' : Unmarked s' s'') :
    Unmarked s s'' := fun id r hr hst => h id r (h' id r hr hst) hst

/-- A certificate that is written in another state. -/
theorem Unmarked.write {s s' : State} {id : Nat} {r : PolicyRecord}
    (hs : ∀ j, s'.policy j=if j=id then some r else s.policy j)
    (hst : ¬(r.state=.triggered ∨ r.state=.paid)) : Unmarked s s' := by
  intro j v hv hmarked
  rw [hs] at hv
  split_ifs at hv with hj
  · rw [Option.some.injEq] at hv
    subst hv
    exact absurd hmarked hst
  · exact hv

section Calls

variable {L : Type} {T : TokenHost L} {net : Network} {admin : Address} {env : Env}
  {w w' : World L}

theorem mintOne_settings {rp owner payer : Address} {p z id : Nat} {terms : PolicyTerms}
    {maxPremium : Int} {metadata : BytesN 32}
    (h : mintOne T net env rp w owner payer p z terms maxPremium metadata=.ok (id,w')) :
    w'.policy.settings=w.policy.settings ∧ Unmarked w.policy w'.policy := by
  obtain ⟨premium,m,s',l',-,-,-,-,-,-,rfl⟩ := mintOne_ok h
  exact ⟨rfl,Unmarked.write (w.policy.issue_policy id (terms.record owner p z premium m) metadata)
    (by simp [PolicyTerms.record])⟩

theorem transition_settings {s s' : State} {id : Nat} {src dst : PolicyState}
    (hdst : ¬(dst=.triggered ∨ dst=.paid)) (h : transition s id src dst=.ok s') :
    s'.settings=s.settings ∧ Unmarked s s' := by
  obtain ⟨r,-,-,rfl⟩ := transition_ok h
  exact ⟨rfl,Unmarked.write (s.rewritten_policy id { r with state := dst }
    (.policyStateChanged id dst)) hdst⟩

/-- Without the admin certificates are bought, transferred, cancelled and expired only. -/
theorem invoke_settings {c : Call} (ha : w.policy.admin=some admin) (hu : admin∉env.signers)
    (h : invoke T net env w c=.ok w') :
    w'.policy.settings=w.policy.settings ∧ Unmarked w.policy w'.policy := by
  cases c with
  | markTriggered | markPaid | setTransferable =>
    simp only [invoke,except_map_eq_ok] at h
    obtain ⟨_,h,-⟩ := h
    exact absurd h (unauthorized ha hu)
  | mint buyer p z terms maxPremium metadata =>
    simp only [invoke,mint,except_map_eq_ok,bind_eq_ok,Prod.exists] at h
    obtain ⟨id,_,⟨-,-,rp,-,hm⟩,rfl⟩ := h
    exact mintOne_settings hm
  | mintBatch payer p z entries =>
    simp only [invoke,mintBatch,except_map_eq_ok,bind_eq_ok,pure_eq_ok,Prod.exists,
      Prod.mk.injEq] at h
    obtain ⟨_,_,⟨-,-,-,-,rp,-,ids,w1,hm,-,rfl⟩,rfl⟩ := h
    exact foldlM_invariant
      (fun r : List Nat × World L => r.2.policy.settings=w.policy.settings ∧
        Unmarked w.policy r.2.policy)
      (fun r entry r' hr hone => by
        obtain ⟨id,-,hone⟩ := mintEntry_ok hone
        obtain ⟨hsame,hmarks⟩ := mintOne_settings hone
        exact ⟨hsame.trans hr.1,hr.2.trans hmarks⟩)
      entries ([],w) (ids,w1) ⟨rfl,fun _ _ hr _ => hr⟩ hm
  | expire id =>
    simp only [invoke,expire,except_map_eq_ok,bind_eq_ok] at h
    obtain ⟨_,⟨_,-,-,-,h⟩,rfl⟩ := h
    exact transition_settings (by simp) h
  | cancel id =>
    simp only [invoke,except_map_eq_ok,Prod.exists] at h
    obtain ⟨refunded,_,h,rfl⟩ := h
    obtain ⟨r,s',l',-,-,-,-,-,rfl⟩ := cancel_ok h
    exact ⟨rfl,Unmarked.write (w.policy.rewritten_policy id { r with state := .cancelled }
      (.policyCancelled id r.owner refunded)) (by simp)⟩
  | setMetadata id pointer =>
    simp only [invoke,setMetadata,except_map_eq_ok,bind_eq_ok,pure_eq_ok] at h
    obtain ⟨_,⟨_,-,-,-,rfl⟩,rfl⟩ := h
    exact ⟨rfl,fun _ _ hr _ => hr⟩
  | transfer id dst =>
    simp only [invoke,transfer,except_map_eq_ok,bind_eq_ok,failIf_eq_ok,pure_eq_ok] at h
    obtain ⟨_,⟨r,-,-,-,-,-,-,hactive,rfl⟩,rfl⟩ := h
    refine ⟨rfl,Unmarked.write (w.policy.rewritten_policy id { r with owner := dst }
      (.policyTransferred id r.owner dst)) ?_⟩
    rw [not_not.mp hactive]
    simp

end Calls

end Mvua.Policy
