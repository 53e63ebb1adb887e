import Mvua.Framework.Result
import Mvua.Framework.Checked
import Mathlib.Logic.Function.Basic

namespace Mvua

/-- An account or contract; contracts only compare addresses. -/
structure Address where
  id : Nat
  deriving DecidableEq, Repr

structure Symbol where
  code : Nat
  deriving DecidableEq, Repr

abbrev BytesN (n : Nat) := BitVec (8*n)

/-- What the host says about one call: the ledger time and the addresses whose
`require_auth` succeeds while it runs. -/
structure Env where
  timestamp : Nat
  signers : List Address
  deriving DecidableEq, Repr

def requireAuth {ε : Type} (env : Env) (who : Address) : Result ε Unit :=
  trapIf (who∉env.signers) .auth

/-- The shape of `require_admin` and its like: an address is read from the storage of the
contract, `missing` if there is none, and has to sign. -/
def requireStored {ε : Type} (env : Env) (who : Option Address) (missing : ε) :
    Result ε Unit := do
  let who ← okOr who missing
  requireAuth env who

/-- In a sub-call the calling contract is authorized for itself. -/
def Env.invokedBy (env : Env) (caller : Address) : Env :=
  { env with signers := caller::env.signers }

/-- The token contracts, which are not part of the repository: a ledger of balances
by token and holder, and a transfer that traps or gives the ledger after the move. -/
structure TokenHost (L : Type) where
  balance : L → Address → Address → Int
  transfer : L → Address → Address → Address → Int → Option L

/-- `TokenClient::new(&env, &token).transfer(&src, &dst, &amount)`. -/
def TokenHost.send {ε L : Type} (T : TokenHost L) (l : L) (token src dst : Address)
    (amount : Int) : Result ε L :=
  orTrap (T.transfer l token src dst amount) .host

/-- A token contract that only moves what the sender has. -/
def TokenHost.ledger : TokenHost (Address → Address → Int) where
  balance l token who := l token who
  transfer l token src dst amount :=
    if 0≤amount ∧ amount≤l token src then
      let debited := Function.update (l token) src (l token src-amount)
      some (Function.update l token (Function.update debited dst (debited dst+amount)))
    else none

/-- A transfer moves exactly the stated amount from one holder to another, or traps. -/
structure TokenHost.Exact {L : Type} (T : TokenHost L) : Prop where
  debit : ∀ l l' token src dst n, T.transfer l token src dst n=some l' → src≠dst →
    T.balance l' token src=T.balance l token src-n
  credit : ∀ l l' token src dst n, T.transfer l token src dst n=some l' → src≠dst →
    T.balance l' token dst=T.balance l token dst+n
  frame : ∀ l l' token src dst n token' who, T.transfer l token src dst n=some l' →
    (token'=token → who≠src ∧ who≠dst) → T.balance l' token' who=T.balance l token' who

/-- A token also takes no negative amount, pays whatever the sender has, and leaves balances alone
when a holder sends to itself. -/
structure TokenHost.Settles {L : Type} (T : TokenHost L) : Prop extends T.Exact where
  positive : ∀ l l' token src dst n, T.transfer l token src dst n=some l' → 0≤n
  pays : ∀ l token src dst n, 0≤n → n≤T.balance l token src →
    (T.transfer l token src dst n).isSome
  own : ∀ l l' token who n, T.transfer l token who who n=some l' →
    T.balance l' token who=T.balance l token who

namespace I128

abbrev checkedAdd := Signed.checkedAdd 128
abbrev checkedSub := Signed.checkedSub 128
abbrev checkedMul := Signed.checkedMul 128
abbrev checkedDiv := Signed.checkedDiv 128
abbrev checkedNeg := Signed.checkedNeg 128

end I128

namespace U64

abbrev checkedAdd := Unsigned.checkedAdd 64
abbrev checkedMul := Unsigned.checkedMul 64

end U64

namespace U32

abbrev checkedAdd := Unsigned.checkedAdd 32

/-- `x += 1` on a `u32`: the release profile checks it and a carry panics. -/
def increment {ε : Type} (n : Nat) : Result ε Nat := orTrap (checkedAdd n 1) .arithmetic

end U32

@[simp] theorem requireAuth_eq_ok {ε : Type} (env : Env) (who : Address) (u : Unit) :
    (requireAuth env who : Result ε Unit)=.ok u ↔ who∈env.signers := by
  simp [requireAuth]

theorem requireAuth_of_mem {ε : Type} {env : Env} {who : Address} (h : who∈env.signers) :
    (requireAuth env who : Result ε Unit)=.ok () := (requireAuth_eq_ok env who ()).mpr h

section Stored

variable {ε α : Type} {P : Abort ε → Prop} {env : Env} {stored : Option Address} {who : Address}
  {missing : ε}

theorem requireStored_eq_ok {u : Unit} :
    requireStored env stored missing=.ok u ↔ ∃ who, stored=some who ∧ who∈env.signers := by
  simp [requireStored]

theorem requireStored_iff (h : stored=some who) {u : Unit} :
    requireStored env stored missing=.ok u ↔ who∈env.signers := by
  simp [requireStored_eq_ok,h]

/-- Without the signature of the stored address nothing comes after the check. -/
theorem unauthorized {f : Unit → Result ε α} {x : α} (h : stored=some who)
    (hu : who∉env.signers) : requireStored env stored missing >>= f≠.ok x := by
  intro hf
  obtain ⟨u,hsigned,-⟩ := (bind_eq_ok _ _ _).mp hf
  exact hu ((requireStored_iff h).mp hsigned)

theorem FailsOnly.requireStored (hmissing : P (.error missing)) (hauth : P (.trap .auth)) :
    FailsOnly P (requireStored env stored missing) :=
  .bind (.okOr fun _ => hmissing) fun _ _ => .trapIf fun _ => hauth

end Stored

@[simp] theorem TokenHost.send_eq_ok {ε L : Type} (T : TokenHost L) (l l' : L)
    (token src dst : Address) (amount : Int) :
    (T.send l token src dst amount : Result ε L)=.ok l' ↔
      T.transfer l token src dst amount=some l' := by
  simp [TokenHost.send]

section Tokens

variable {L : Type} {T : TokenHost L} {l l' : L} {token src dst : Address} {n : Int}

/-- What the receiver of a transfer has afterwards, in each token. -/
theorem TokenHost.Exact.received (hT : T.Exact) (h : T.transfer l token src dst n=some l')
    (hne : src≠dst) (token' : Address) :
    T.balance l' token' dst=T.balance l token' dst+if token'=token then n else 0 := by
  by_cases ht : token'=token
  · subst ht
    rw [if_pos rfl]
    exact hT.credit _ _ _ _ _ _ h hne
  · rw [if_neg ht,add_zero]
    exact hT.frame _ _ _ _ _ _ _ _ h (fun he => absurd he ht)

/-- What the sender of a transfer has afterwards, in each token. -/
theorem TokenHost.Exact.sent (hT : T.Exact) (h : T.transfer l token src dst n=some l')
    (hne : src≠dst) (token' : Address) :
    T.balance l' token' src=T.balance l token' src+if token'=token then -n else 0 := by
  by_cases ht : token'=token
  · subst ht
    rw [if_pos rfl,← sub_eq_add_neg]
    exact hT.debit _ _ _ _ _ _ h hne
  · rw [if_neg ht,add_zero]
    exact hT.frame _ _ _ _ _ _ _ _ h (fun he => absurd he ht)

/-- A transfer lowers the balance of its sender only. -/
theorem TokenHost.Settles.kept (hT : T.Settles) (h : T.transfer l token src dst n=some l')
    (who : Address) (hne : src≠who) (token' : Address) :
    T.balance l token' who≤T.balance l' token' who := by
  have hn := hT.positive _ _ _ _ _ _ h
  by_cases hd : dst=who
  · subst hd
    rw [hT.received h hne]
    split_ifs <;> omega
  · rw [hT.frame _ _ _ _ _ _ _ _ h (fun _ => ⟨Ne.symm hne,Ne.symm hd⟩)]

theorem TokenHost.ledger_exact : TokenHost.ledger.Exact where
  debit l l' token src dst n h hne := by
    simp only [TokenHost.ledger,Option.ite_none_right_eq_some,Option.some.injEq] at h ⊢
    obtain ⟨-,rfl⟩ := h
    simp [hne]
  credit l l' token src dst n h hne := by
    simp only [TokenHost.ledger,Option.ite_none_right_eq_some,Option.some.injEq] at h ⊢
    obtain ⟨-,rfl⟩ := h
    simp [hne.symm]
  frame l l' token src dst n token' who h hother := by
    simp only [TokenHost.ledger,Option.ite_none_right_eq_some,Option.some.injEq] at h ⊢
    obtain ⟨-,rfl⟩ := h
    by_cases ht : token'=token
    · subst ht
      obtain ⟨hsrc,hdst⟩ := hother rfl
      simp [hsrc,hdst]
    · simp [ht]

theorem TokenHost.ledger_settles : TokenHost.ledger.Settles where
  toExact := TokenHost.ledger_exact
  positive l l' token src dst n h := by
    simp only [TokenHost.ledger,Option.ite_none_right_eq_some] at h
    exact h.1.1
  pays l token src dst n hn hb := by
    have hpaid : 0≤n ∧ n≤l token src := ⟨hn,hb⟩
    simp [TokenHost.ledger,hpaid]
  own l l' token who n h := by
    simp only [TokenHost.ledger,Option.ite_none_right_eq_some,Option.some.injEq] at h ⊢
    obtain ⟨-,rfl⟩ := h
    simp

end Tokens

end Mvua
