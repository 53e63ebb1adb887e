import Mvua.PayoutVault.Payments
import Mvua.RiskPool.Seasons

namespace Mvua.PayoutVault

def recordAmount (s : State) (id : Nat) : Int := ((s.payout id).map PayoutRecord.amount).getD 0

/-- The amount of a record that names the owner. -/
def recordFor (s : State) (owner : Address) (id : Nat) : Int :=
  ((s.payout id).map fun record => if record.owner=owner then record.amount else 0).getD 0

def recordCount (s : State) (id : Nat) : Int := if (s.payout id).isSome then 1 else 0

def batches (s : State) (k : Nat × Nat) : BatchProgress := readBatch s k.1 k.2

/-- What an owner has claimed, of a list of claims. -/
def claimedBy (owner : Address) (claims : List (Address × Int)) : Int :=
  (claims.map fun c => if c.1=owner then c.2 else 0).sum

/-- The ledgers of payouts agree: `total` was paid out in `count` records. `progress` is what
the batch records say, or will say at the end of the loop that is running. -/
structure Books (pool : RiskPool.State) (vault : State) (progress : Nat × Nat → BatchProgress)
    (claims : List (Address × Int)) (total count : Int) : Prop where
  payouts : HasTotal pool.payoutsPaid total
  disbursed : HasTotal (fun k => (progress k).totalDisbursed) total
  records : HasTotal (recordAmount vault) total
  owed : HasTotal (readClaim vault) (total-(claims.map Prod.snd).sum)
  owners : ∀ owner, HasTotal (recordFor vault owner)
    (readClaim vault owner+claimedBy owner claims)
  policies : HasTotal (fun k => ((progress k).policiesPaid : Int)) count
  counted : HasTotal (recordCount vault) count

section Vault

variable {pool pool' : RiskPool.State} {vault vault' : State}
  {progress progress' : Nat × Nat → BatchProgress} {claims : List (Address × Int)}
  {total count : Int}

theorem figures_congr (h : vault'.payout=vault.payout) : recordAmount vault'=recordAmount vault ∧
    recordFor vault'=recordFor vault ∧ recordCount vault'=recordCount vault := by
  refine ⟨?_,?_,?_⟩
  · funext id; rw [recordAmount,recordAmount,h]
  · funext owner id; rw [recordFor,recordFor,h]
  · funext id; rw [recordCount,recordCount,h]

theorem Books.congr (h : Books pool vault progress claims total count)
    (hpool : pool'.payoutsPaid=pool.payoutsPaid) (hpayout : vault'.payout=vault.payout)
    (hclaim : vault'.claim=vault.claim)
    (htotal : ∀ k, (progress' k).totalDisbursed=(progress k).totalDisbursed)
    (hcount : ∀ k, (progress' k).policiesPaid=(progress k).policiesPaid) :
    Books pool' vault' progress' claims total count := by
  obtain ⟨hamount,hfor,hone⟩ := figures_congr hpayout
  have howed : readClaim vault'=readClaim vault := by
    funext owner; rw [readClaim,readClaim,hclaim]
  refine ⟨by rw [hpool]; exact h.payouts,?_,by rw [hamount]; exact h.records,
    by rw [howed]; exact h.owed,by rw [hfor,howed]; exact h.owners,?_,
    by rw [hone]; exact h.counted⟩
  · simp only [htotal]
    exact h.disbursed
  · simp only [hcount]
    exact h.policies

/-- A payment raises every ledger by its amount, and the counters by one. -/
theorem Books.credit {env : Env} {entry : PayoutEntry} {p z : Nat} {k : Nat × Nat} {amount : Int}
    (h : Books pool vault progress claims total count)
    (hnone : vault.payout entry.policyId=none)
    (hpool : ∀ j, pool'.payoutsPaid j=pool.payoutsPaid j+if j=(p,z) then amount else 0)
    (hdisbursed : ∀ j, (progress' j).totalDisbursed=
      (progress j).totalDisbursed+if j=k then amount else 0)
    (hpolicies : ∀ j, ((progress' j).policiesPaid : Int)=
      (progress j).policiesPaid+if j=k then 1 else 0) :
    Books pool' (vault.credit env entry amount) progress' claims (total+amount) (count+1) := by
  have claim : ∀ owner, readClaim (vault.credit env entry amount) owner=
      readClaim vault owner+if owner=entry.owner then amount else 0 := by
    intro owner
    rw [readClaim_credit]
    split_ifs with ho
    · rw [ho]
    · rw [add_zero]
  let record : PayoutRecord := ⟨entry.owner,amount,env.timestamp⟩
  refine ⟨h.payouts.move (p,z) amount hpool,h.disbursed.move k amount hdisbursed,?_,?_,?_,
    h.policies.move k 1 hpolicies,h.counted.move entry.policyId 1 ?_⟩
  · have hm := h.records.record entry.policyId record
    rw [hnone,Option.map_none,Option.getD_none,sub_zero] at hm
    exact hm
  · have hm := h.owed.move entry.owner amount claim
    rwa [sub_add_eq_add_sub] at hm
  · intro owner
    have hm := (h.owners owner).record entry.policyId record
    rw [hnone,Option.map_none,Option.getD_none,sub_zero,add_right_comm] at hm
    rw [claim]
    simp only [eq_comm (a := owner)]
    exact hm
  · intro id
    rw [recordCount,recordCount,payout_credit]
    split_ifs with hid
    all_goals simp_all

/-- A claim moves an owner's balance into what was claimed. -/
theorem Books.claim {owner : Address}
    (h : Books pool vault progress claims total count)
    (hpayout : vault'.payout=vault.payout)
    (hclaim : ∀ who, readClaim vault' who=if who=owner then 0 else readClaim vault who) :
    Books pool vault' progress (claims++[(owner,readClaim vault owner)]) total count := by
  obtain ⟨hamount,hfor,hone⟩ := figures_congr hpayout
  refine ⟨h.payouts,h.disbursed,by rw [hamount]; exact h.records,?_,?_,h.policies,
    by rw [hone]; exact h.counted⟩
  · have hm := h.owed.move (g := readClaim vault') owner (-readClaim vault owner) ?_
    · rw [List.map_append,List.sum_append,List.map_singleton,List.sum_singleton,← sub_sub,
        sub_eq_add_neg]
      exact hm
    · intro who
      rw [hclaim]
      split_ifs with hw
      · rw [hw,add_neg_cancel]
      · rw [add_zero]
  · intro who
    have hsame : readClaim vault' who+claimedBy who (claims++[(owner,readClaim vault owner)])=
        readClaim vault who+claimedBy who claims := by
      rw [hclaim,claimedBy,claimedBy,List.map_append,List.sum_append,List.map_singleton,
        List.sum_singleton]
      by_cases hw : who=owner
      · subst hw
        simp only [if_true]
        omega
      · simp only [hw,Ne.symm hw,if_false,add_zero]
    rw [hfor,hsame]
    exact h.owners who

end Vault

section Steps

variable {L : Type} {T : TokenHost L} {net : Network} {env : Env} {w : World L}
  {claims : List (Address × Int)}

/-- The vault, if any, is what the pool has configured as its payout vault. -/
def OwnVault (net : Network) (s : RiskPool.State) : Prop :=
  ∀ vault, s.payoutVault=some vault → vault=net.vault

theorem payOut_outside {s s' : RiskPool.State} {l l' : L} {self dst : Address} {p z : Nat}
    {amount m : Int} (hv : OwnVault net s) :
    RiskPool.payOut T self (net.outside env) s l p z dst amount≠.ok (m,s',l') := by
  intro h
  obtain ⟨_,_,_,-,-,-,hauth,-⟩ := RiskPool.payOut_ok h
  obtain ⟨vault,hvault,hsigned⟩ := requireStored_eq_ok.mp hauth
  rw [hv vault hvault] at hsigned
  exact (signer_outside hsigned).2.2 rfl

theorem riskPool_payoutsPaid {s s' : RiskPool.State} {l l' : L} {self : Address}
    {c : RiskPool.Call} (hw : s.WellFormed) (hv : OwnVault net s)
    (h : RiskPool.invoke T self (net.outside env) c s l=.ok (s',l')) :
    s'.payoutsPaid=s.payoutsPaid := by
  have hstep : (RiskPool.machine T self).step (s,l) (.call (net.outside env) c)=.ok (s',l') := h
  funext k
  rcases RiskPool.step_cases T self hw hstep with ⟨hk,-⟩ | ⟨p,e,hm,hp⟩
  · rw [RiskPool.State.payoutsPaid,RiskPool.State.payoutsPaid,hk.book]
  · rw [hp.payoutsPaid hw]
    cases hm with
    | payout =>
      cases RiskPool.invoke_ran h with
      | payOut _ _ _ _ m hu => exact absurd hu (payOut_outside hv)
    | _ => simp [RiskPool.Entry.payoutAt]

theorem batches_writeBatch (s : State) (i n : Nat) (v : BatchProgress) :
    batches (s.writeBatch i n v)=Function.update (batches s) (i,n) v := by
  funext k
  by_cases hk : k=(i,n)
  · subst hk; simp [batches,readBatch,State.writeBatch]
  · simp [batches,readBatch,State.writeBatch,hk]

/-- A figure of the batches after one of them is written. -/
theorem figure_writeBatch {β : Type} {s : State} {i n : Nat} {u v : BatchProgress}
    {f : BatchProgress → β} (h : f v=f u) (k : Nat × Nat) :
    f (batches (s.writeBatch i n v) k)=f (Function.update (batches s) (i,n) u k) := by
  rw [batches_writeBatch]
  by_cases hk : k=(i,n)
  · subst hk
    rw [Function.update_self,Function.update_self,h]
  · rw [Function.update_of_ne hk,Function.update_of_ne hk]

/-- The claims that a transaction pays out. -/
def claimed (T : TokenHost L) (net : Network) (w : World L) (a : Env × Action) :
    List (Address × Int) :=
  match a.2 with
  | .vault (.claim owner) =>
      match claim T net w owner with
      | .ok (amount,_) => [(owner,amount)]
      | .error _ => []
  | _ => []

end Steps

section Runs

variable {L : Type} (T : TokenHost L) (net : Network)

end Runs

section Sample

end Sample

end Mvua.PayoutVault
