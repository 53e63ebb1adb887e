import Mvua.PayoutVault.Backing

namespace Mvua.PayoutVault

/-- What a claim that went through sent, with the ledgers around its transfer. -/
structure Sending (L : Type) where
  owner : Address
  amount : Int
  before : L
  after : L

/-- What the sendings of a list add up to for an owner. -/
def sentTo {L : Type} (owner : Address) (log : List (Sending L)) : Int :=
  (log.map fun x => if x.owner=owner then x.amount else 0).sum

/-- What is owed less than before was sent, transfer by transfer, from the vault to its owner. -/
structure Sends {L : Type} (T : TokenHost L) (token vault : Address) (v v' : State)
    (log : List (Sending L)) : Prop where
  paid : ∀ x∈log, 0<x.amount ∧ T.transfer x.before token vault x.owner x.amount=some x.after
  claims : ∀ owner, readClaim v' owner+sentTo owner log=readClaim v owner
  whole : ∀ owner, readClaim v' owner=readClaim v owner ∨ readClaim v' owner=0

section Calls

variable {L : Type} (T : TokenHost L) (net : Network)

/-- The sending of a call, if it is a claim that goes through. -/
def sendings (w : World L) : Call → List (Sending L)
  | .claim owner =>
      match claim T net w owner with
      | .ok (amount,w') => [⟨owner,amount,w.ledger,w'.ledger⟩]
      | .error _ => []
  | _ => []

variable {T net}
variable {token : Address} {env : Env} {w w' : World L}

theorem sentTo_append (owner : Address) (log more : List (Sending L)) :
    sentTo owner (log++more)=sentTo owner log+sentTo owner more := by
  simp [sentTo]

theorem Sends.of_claim {v v' : State} (vault : Address) (h : v'.claim=v.claim) :
    Sends T token vault v v' [] := by
  have hsame (owner : Address) : readClaim v' owner=readClaim v owner := by
    rw [readClaim,readClaim,h]
  exact ⟨List.forall_mem_nil _,fun owner => by simp [sentTo,hsame],fun owner => .inl (hsame owner)⟩

theorem Sends.trans {vault : Address} {v v' v'' : State} {log more : List (Sending L)}
    (h : Sends T token vault v v' log) (h' : Sends T token vault v' v'' more) :
    Sends T token vault v v'' (log++more) where
  paid := List.forall_mem_append.mpr ⟨h.paid,h'.paid⟩
  claims owner := by
    have hfirst := h.claims owner
    have hlast := h'.claims owner
    rw [sentTo_append]
    omega
  whole owner := by
    rcases h'.whole owner with he | hz
    · rw [he]
      exact h.whole owner
    · exact .inr hz

theorem claim_positive {owner : Address} {amount : Int} (h : claim T net w owner=.ok (amount,w')) :
    0<amount := by
  simp only [claim,bind_eq_ok,failIf_eq_ok,pure_eq_ok,Prod.mk.injEq] at h
  obtain ⟨-,hpos,_,-,l',-,rfl,-⟩ := h
  exact not_le.mp hpos

/-- A claim clears what is owed to its owner and sends it. -/
theorem claim_sends {owner : Address} {amount : Int} (ht : w.vault.token=some token)
    (h : claim T net w owner=.ok (amount,w')) :
    Sends T token net.vault w.vault w'.vault [⟨owner,amount,w.ledger,w'.ledger⟩] := by
  obtain ⟨hamount,-,hclaims,hl⟩ := claim_sent ht h
  refine ⟨?_,fun who => ?_,fun who => ?_⟩
  · rw [List.forall_mem_singleton]
    exact ⟨claim_positive h,hl⟩
  · rw [hclaims,sentTo,List.map_singleton,List.sum_singleton]
    by_cases hw : who=owner
    · subst hw
      simp [hamount]
    · simp [hw,Ne.symm hw]
  · rw [hclaims]
    split_ifs
    · exact .inr rfl
    · exact .inl rfl

theorem sendings_of_error {c : Call} {e : Abort Error} (h : invoke T net env w c=.error e) :
    sendings T net w c=[] := by
  cases c with
  | claim owner =>
    rw [invoke] at h
    rw [sendings]
    cases hc : claim T net w owner with
    | error e => rfl
    | ok x => simp [hc,Except.map] at h
  | pause | unpause | payBatch | closeBatch => rfl

/-- Apart from a batch, no call changes what is owed but by sending it. -/
theorem invoke_sends {c : Call} (ht : w.vault.token=some token)
    (hc : ∀ i n p z entries, c≠.payBatch i n p z entries) (h : invoke T net env w c=.ok w') :
    Sends T token net.vault w.vault w'.vault (sendings T net w c) := by
  cases c with
  | payBatch i n p z entries => exact absurd rfl (hc i n p z entries)
  | claim owner =>
    simp only [invoke,except_map_eq_ok,Prod.exists] at h
    obtain ⟨amount,_,h,rfl⟩ := h
    rw [sendings,h]
    exact claim_sends ht h
  | pause | unpause | closeBatch =>
    simp only [invoke,pause,unpause,closeBatch,except_map_eq_ok,bind_eq_ok,pure_eq_ok] at h
    obtain ⟨_,⟨_,-,rfl⟩,rfl⟩ := h
    exact .of_claim net.vault rfl

end Calls

end Mvua.PayoutVault
