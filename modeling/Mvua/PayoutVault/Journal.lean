import Mvua.Framework.Journal
import Mvua.PayoutVault.Backing

namespace Mvua.PayoutVault

/-- What a reader of the events keeps: balances to claim, payouts by policy, the pause switch. -/
@[ext] structure Register where
  claim : Address → Int
  payout : Nat → Option (Address × Int)
  paused : Bool

namespace Register

def blank : Register := ⟨fun _ => 0,fun _ => none,false⟩

def post (r : Register) : Event → Register
  | .payoutRecorded id owner amount =>
      { r with
        claim := Function.update r.claim owner (r.claim owner+amount)
        payout := Function.update r.payout id (some (owner,amount)) }
  | .claimed owner amount =>
      { r with claim := Function.update r.claim owner (r.claim owner-amount) }
  | .pauseSet paused => { r with paused }

/-- A payout is the policy's only one and not made while paused; a claim takes the whole balance. -/
def Fits (r : Register) : Event → Prop
  | .payoutRecorded id _ amount => r.payout id=none ∧ 0<amount ∧ r.paused=false
  | .claimed owner amount => 0<amount ∧ amount=r.claim owner
  | .pauseSet _ => True

end Register

def journal : Journal Register Event where
  post := Register.post
  Fits := Register.Fits

def State.register (s : State) : Register where
  claim := readClaim s
  payout := fun id => (s.payout id).map fun r => (r.owner,r.amount)
  paused := isPaused s

/-- What readers see, and what they are to know from it. -/
def State.published (s : State) : List Event × Register := (s.events,s.register)

section Steps

variable {s s' : State}

theorem State.writeClaim_register (owner : Address) (n : Int) :
    (s.writeClaim owner n).register=
      { s.register with claim := Function.update s.register.claim owner n } := by
  ext1
  · funext who
    change (Function.update s.claim owner (some n) who).getD 0=
      Function.update (readClaim s) owner n who
    by_cases hw : who=owner
    · subst hw
      simp
    · rw [Function.update_of_ne hw,Function.update_of_ne hw]
      rfl
  · rfl
  · rfl

theorem State.writePayout_register (id : Nat) (r : PayoutRecord) :
    (s.writePayout id r).register=
      { s.register with
        payout := Function.update s.register.payout id (some (r.owner,r.amount)) } := by
  ext1
  · rfl
  · funext j
    change (Function.update s.payout id (some r) j).map _=
      Function.update s.register.payout id (some (r.owner,r.amount)) j
    by_cases hj : j=id
    · subst hj
      simp
    · rw [Function.update_of_ne hj,Function.update_of_ne hj]
      rfl
  · rfl

theorem credit_publishes (env : Env) {entry : PayoutEntry} {amount : Int}
    (hunpaid : s.payout entry.policyId=none) (hpos : 0<amount) (hpaused : isPaused s=false) :
    journal.Publishes s.published (s.credit env entry amount).published
      [.payoutRecorded entry.policyId entry.owner amount] := by
  refine .one rfl ⟨?_,hpos,hpaused⟩ ?_
  · change (s.payout entry.policyId).map _=none
    rw [hunpaid]
    rfl
  · change State.register ((s.writeClaim _ _).writePayout _ _)=_
    rw [State.writePayout_register,State.writeClaim_register]
    rfl

variable {L : Type} {T : TokenHost L} {net : Network} {env : Env} {w w' : World L}

/-- The rounds of a batch publish the payouts they make. -/
theorem payEntries_publish {pool trigger : Address} {i n p z : Nat} {entries : List PayoutEntry}
    {r r' : BatchRun L} (hpaused : isPaused r.world.vault=false)
    (h : entries.foldlM (payEntry T net env pool trigger i n p z) r=.ok r') :
    ∃ payouts, journal.Publishes r.world.vault.published r'.world.vault.published payouts := by
  induction entries generalizing r with
  | nil =>
    rw [List.foldlM_nil,pure_eq_ok] at h
    subst h
    exact ⟨[],.silent rfl⟩
  | cons entry entries ih =>
    rw [List.foldlM_cons,bind_eq_ok] at h
    obtain ⟨r1,hentry,hrest⟩ := h
    rcases payEntry_ok hentry with rfl | ⟨amount,_,_,_,hunpaid,-,hpos,-,-,-,hworld⟩
    · exact ih hpaused hrest
    · have hvault : r1.world.vault=r.world.vault.credit env entry amount := by rw [hworld]
      have hpaused' : isPaused r1.world.vault=false := by
        rw [hvault]
        exact hpaused
      obtain ⟨payouts,hp⟩ := ih hpaused' hrest
      have hone := credit_publishes env hunpaid hpos hpaused
      rw [← hvault] at hone
      exact ⟨_,hone.trans hp⟩

theorem payBatch_publishes {i n p z paid : Nat} {entries : List PayoutEntry}
    (h : payBatch T net env w i n p z entries=.ok (paid,w')) :
    ∃ payouts, journal.Publishes w.vault.published w'.vault.published payouts := by
  have hpaused : isPaused w.vault=false := by
    simp only [payBatch,bind_eq_ok,failIf_eq_ok] at h
    obtain ⟨-,-,-,hp,-⟩ := h
    simpa using hp
  obtain ⟨pool,trigger,r,-,-,hr,-,rfl⟩ := payBatch_loop h
  obtain ⟨payouts,hp⟩ := payEntries_publish hpaused hr
  exact ⟨payouts,hp⟩

theorem claim_publishes {owner : Address} {amount : Int} (h : claim T net w owner=.ok (amount,w')) :
    journal.Publishes w.vault.published w'.vault.published [.claimed owner amount] := by
  have hpos : 0<amount := by
    simp only [claim,bind_eq_ok,failIf_eq_ok,pure_eq_ok,Prod.mk.injEq] at h
    obtain ⟨-,hne,_,-,_,-,rfl,-⟩ := h
    omega
  obtain ⟨hamount,l',rfl⟩ := claim_ok h
  refine .one rfl ⟨hpos,hamount⟩ ?_
  change (w.vault.writeClaim owner 0).register=_
  rw [State.writeClaim_register]
  change _=({ w.vault.register with
    claim := Function.update (readClaim w.vault) owner
      (readClaim w.vault owner-amount) } : Register)
  rw [← hamount,sub_self]
  rfl

/-- Every successful call of the vault publishes events that fit and account for what it did. -/
theorem invoke_publishes {c : Call} (h : invoke T net env w c=.ok w') :
    ∃ entries, journal.Publishes w.vault.published w'.vault.published entries := by
  cases c <;> simp only [invoke,except_map_eq_ok,Prod.exists] at h
  case pause =>
    obtain ⟨_,hu,rfl⟩ := h
    simp only [pause,bind_eq_ok,pure_eq_ok] at hu
    obtain ⟨_,-,rfl⟩ := hu
    exact ⟨_,.one rfl trivial rfl⟩
  case unpause =>
    obtain ⟨_,hu,rfl⟩ := h
    simp only [unpause,bind_eq_ok,pure_eq_ok] at hu
    obtain ⟨_,-,rfl⟩ := hu
    exact ⟨_,.one rfl trivial rfl⟩
  case payBatch i n p z entries =>
    obtain ⟨paid,_,hu,rfl⟩ := h
    exact payBatch_publishes hu
  case closeBatch i n =>
    obtain ⟨_,hu,rfl⟩ := h
    simp only [closeBatch,bind_eq_ok,pure_eq_ok] at hu
    obtain ⟨_,-,rfl⟩ := hu
    exact ⟨[],.silent rfl⟩
  case claim owner =>
    obtain ⟨amount,_,hu,rfl⟩ := h
    exact ⟨_,claim_publishes hu⟩

theorem settlement_publishes {a : Env × Transaction} (h : (settlement T net).step w a=.ok w') :
    ∃ entries, journal.Publishes w.vault.published w'.vault.published entries := by
  obtain ⟨env,a⟩ := a
  match a with
  | .call (.vault c) =>
    change execute T net env w (.vault c)=.ok w' at h
    simp only [execute,subcall_eq_ok] at h
    exact invoke_publishes h
  | .call (.riskPool c) =>
    change execute T net env w (.riskPool c)=.ok w' at h
    simp only [execute,except_map_eq_ok] at h
    obtain ⟨_,-,rfl⟩ := h
    exact ⟨[],.silent rfl⟩
  | .call (.triggerEngine c) =>
    change execute T net env w (.triggerEngine c)=.ok w' at h
    simp only [execute,except_map_eq_ok] at h
    obtain ⟨_,-,rfl⟩ := h
    exact ⟨[],.silent rfl⟩
  | .transfer token src dst n =>
    obtain ⟨-,_,rfl,-⟩ := transfer_ok h
    exact ⟨[],.silent rfl⟩

end Steps

/-- After every run, whoever starts from nothing and reads the published events knows what each
owner can claim, what each policy was paid, and whether payouts are paused; in the order of the
events no policy is paid twice, none is paid while payouts are paused, and each claim takes the
whole balance. -/
theorem events_account_for_payouts {L : Type} (T : TokenHost L) (net : Network)
    (poolAdmin triggerAdmin vaultAdmin policy token : Address) (l : L)
    (transactions : List (Env × Transaction)) :
    let s := ((settlement T net).run
      (deployWorld net poolAdmin triggerAdmin vaultAdmin policy token l) transactions).vault
    journal.Records Register.blank s.events s.register := by
  intro s
  refine (settlement T net).run_records (fun _ => journal) (fun _ => True) (fun _ => True)
    (fun w => w.vault.published) Register.blank ?_ ?_ ?_ transactions (fun _ _ => trivial) _ trivial
    (.nil Register.blank)
  · intro w a w' _ h
    trivial
  · intro w a w' _ _ h r e
    exact ⟨rfl,id⟩
  · intro w a w' _ _ h
    exact settlement_publishes h

end Mvua.PayoutVault
