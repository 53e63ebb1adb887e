import Mvua.Framework.Simulation
import Mvua.Policy.Market
import Mvua.RiskPool.Shares

namespace Mvua.RiskPool

def Transaction.Without (user : Address) : Transaction → Prop
  | .act a => a.Unsigned user
  | .transfer _ src _ _ => src≠user

section Steps

variable {L : Type} {T : TokenHost L} {self user : Address} {x : State × L} {a : Transaction}

/-- A call lowers no balance of somebody who did not sign it. -/
theorem step_balance (hT : T.Settles) (hself : user≠self) {s s' : State} {l l' : L} {a : Action}
    (ha : a.Unsigned user) (h : (machine T self).step (s,l) a=.ok (s',l')) (token : Address) :
    T.balance l token user≤T.balance l' token user := by
  cases a with
  | setCommitted p n =>
    simp only [machine,except_map_eq_ok,Prod.mk.injEq] at h
    obtain ⟨_,-,-,rfl⟩ := h
    exact le_rfl
  | call env c =>
    rcases invoke_sender h with rfl | ⟨token',src,dst,n,hl,hsrc⟩
    · exact le_rfl
    · apply hT.kept hl user
      rcases hsrc with rfl | hsigned
      · exact Ne.symm hself
      · exact fun he => ha (he ▸ hsigned)

/-- What somebody holds in receipts stays as it is, and no balance of theirs falls, while they
sign nothing. -/
theorem next_without (hT : T.Settles) (hself : user≠self) (hw : x.1.WellFormed)
    (ha : a.Without user) :
    let y := (custody T self).next x a
    y.1.WellFormed ∧
    (∀ p t, (y.1.book p).receipt t user=(x.1.book p).receipt t user) ∧
    ∀ token, T.balance x.2 token user≤T.balance y.2 token user := by
  intro y
  rcases (custody T self).next_cases x a with hn | hn
  · rw [show y=x from hn]
    exact ⟨hw,fun _ _ => rfl,fun _ => le_rfl⟩
  · cases a with
    | act a =>
      have hy : (machine T self).next x a=y := rfl
      refine ⟨step_wellFormed T self hw hn,fun p t => ?_,step_balance hT hself ha hn⟩
      rw [← hy]
      exact next_receipt_unsigned T self hw a ha
    | transfer token src dst amount =>
      simp only [custody,except_map_eq_ok,TokenHost.send_eq_ok] at hn
      obtain ⟨l',hl,he⟩ := hn
      rw [show y=(x.1,l') from he.symm]
      exact ⟨hw,fun _ _ => rfl,hT.kept hl user ha⟩

theorem run_without (hT : T.Settles) (hself : user≠self) (hw : x.1.WellFormed)
    (transactions : List Transaction)
    (hrun : (custody T self).along (fun _ a => a.Without user) x transactions) :
    let y := (custody T self).run x transactions
    (∀ p t, (y.1.book p).receipt t user=(x.1.book p).receipt t user) ∧
    ∀ token, T.balance x.2 token user≤T.balance y.2 token user := by
  let I (y : State × L) : Prop := y.1.WellFormed ∧
    (∀ p t, (y.1.book p).receipt t user=(x.1.book p).receipt t user) ∧
    ∀ token, T.balance x.2 token user≤T.balance y.2 token user
  have h : I ((custody T self).run x transactions) := by
    refine (custody T self).run_along I _ ?_ transactions x ⟨hw,fun _ _ => rfl,fun _ => le_rfl⟩ hrun
    intro y a h ha
    obtain ⟨hy,hreceipts,hbalance⟩ := h
    obtain ⟨hnext,hsame,hle⟩ := next_without hT hself hy ha
    exact ⟨hnext,fun p t => (hsame p t).trans (hreceipts p t),
      fun token => (hbalance token).trans (hle token)⟩
  exact h.2

end Steps

end Mvua.RiskPool

namespace Mvua.Policy

section Steps

variable {L : Type} {T : TokenHost L} {net : Network} {env : Env} {user : Address}

theorem custody_step {s s' : RiskPool.State} {l l' : L} {c : RiskPool.Call}
    (h : RiskPool.invoke T net.riskPool env c s l=.ok (s',l')) :
    (RiskPool.custody T net.riskPool).step (s,l) (.act (.call env c))=.ok (s',l') := h

/-- A purchase, as its collection by the pool. -/
theorem mintOne_custody {rp owner payer : Address} {w w' : World L} {p z id : Nat}
    {terms : PolicyTerms} {maxPremium : Int} {metadata : BytesN 32}
    (h : mintOne T net env rp w owner payer p z terms maxPremium metadata=.ok (id,w')) :
    ∃ premium, (RiskPool.custody T net.riskPool).step (w.riskPool,w.ledger)
      (.act (.call (env.invokedBy net.policy) (.collectPremium p z payer premium)))=
        .ok (w'.riskPool,w'.ledger) := by
  obtain ⟨premium,m,s',l',-,-,-,-,hcollect,-,rfl⟩ := mintOne_ok h
  refine ⟨premium,custody_step ?_⟩
  simp [RiskPool.invoke,hcollect,Except.map]

theorem entries_custody {rp payer : Address} {p z : Nat} {entries : List BatchEntry}
    {r r' : List Nat × World L}
    (h : entries.foldlM (mintEntry T net env rp payer p z) r=.ok r') :
    ∃ premiums : List Int, (RiskPool.custody T net.riskPool).run (r.2.riskPool,r.2.ledger)
      (premiums.map fun premium =>
        .act (.call (env.invokedBy net.policy) (.collectPremium p z payer premium)))=
      (r'.2.riskPool,r'.2.ledger) := by
  induction entries generalizing r with
  | nil =>
    rw [List.foldlM_nil,pure_eq_ok] at h
    subst h
    exact ⟨[],rfl⟩
  | cons entry entries ih =>
    rw [List.foldlM_cons,bind_eq_ok] at h
    obtain ⟨r1,hentry,hrest⟩ := h
    obtain ⟨id,-,hone⟩ := mintEntry_ok hentry
    obtain ⟨premium,hstep⟩ := mintOne_custody hone
    obtain ⟨premiums,hrun⟩ := ih hrest
    refine ⟨premium::premiums,?_⟩
    rw [List.map_cons,Machine.run_cons,Machine.next_of_ok _ hstep]
    exact hrun

/-- A transaction of the market, as the pool and the token contracts see it. -/
theorem market_custody (hpolicy : user≠net.policy) {w w' : World L} {a : Env × Transaction}
    (h : (market T net).step w a=.ok w') :
    ∃ bs, (RiskPool.custody T net.riskPool).run (w.riskPool,w.ledger) bs=
        (w'.riskPool,w'.ledger) ∧
      (user∉a.1.signers → ∀ b∈bs, b.Without user) := by
  let N := RiskPool.custody T net.riskPool
  obtain ⟨env,a⟩ := a
  have unsigned : user∉env.signers → user∉(net.outside env).signers :=
    fun hu h => hu (List.mem_filter.mp h).1
  have invoked : user∉env.signers → user∉((net.outside env).invokedBy net.policy).signers := by
    intro hu h
    rcases List.mem_cons.mp h with he | h
    · exact hpolicy he
    · exact unsigned hu h
  cases a with
  | transfer token src dst n =>
    have hsigned : src∈(net.outside env).signers := by
      by_contra hn
      simp [market,hn] at h
    obtain ⟨-,l',rfl,hl⟩ := transfer_ok h
    refine ⟨[.transfer token src dst n],?_,fun hu => ?_⟩
    · rw [Machine.run_cons]
      apply N.next_of_ok
      simp [N,RiskPool.custody,TokenHost.send,hl,orTrap,Except.map]
    · exact List.forall_mem_singleton.mpr fun he => unsigned hu (he ▸ hsigned)
  | call a =>
    rw [market_call] at h
    cases execute_step T net h with
    | riskPool _ c s' l' hc =>
      refine ⟨[.act (.call (net.outside env) c)],?_,fun hu =>
        List.forall_mem_singleton.mpr (unsigned hu)⟩
      rw [Machine.run_cons]
      exact N.next_of_ok (custody_step hc)
    | mint _ buyer rp p z id terms maxPremium metadata _ hm =>
      obtain ⟨premium,hstep⟩ := mintOne_custody hm
      refine ⟨[.act (.call ((net.outside env).invokedBy net.policy)
        (.collectPremium p z buyer premium))],?_,fun hu =>
        List.forall_mem_singleton.mpr (invoked hu)⟩
      rw [Machine.run_cons]
      exact N.next_of_ok hstep
    | mintBatch _ payer rp p z entries ids w1 hm =>
      obtain ⟨premiums,hrun⟩ := entries_custody hm
      refine ⟨_,hrun,fun hu b hb => ?_⟩
      obtain ⟨premium,-,rfl⟩ := List.mem_map.mp hb
      exact invoked hu
    | cancel _ id refunded _ hc =>
      obtain ⟨r,s',l',-,-,-,-,hrefund,rfl⟩ := cancel_ok hc
      have hcall : RiskPool.invoke T net.riskPool ((net.outside env).invokedBy net.policy)
          (.refundPremium r.poolId r.seasonId r.owner r.netReserved) w.riskPool w.ledger=
          .ok (s',l') := by
        simp [RiskPool.invoke,hrefund,Except.map]
      refine ⟨[.act (.call ((net.outside env).invokedBy net.policy)
        (.refundPremium r.poolId r.seasonId r.owner r.netReserved))],?_,fun hu =>
        List.forall_mem_singleton.mpr (invoked hu)⟩
      rw [Machine.run_cons]
      exact N.next_of_ok (custody_step hcall)
    | move | metadata | transferable => exact ⟨[],rfl,fun _ => List.forall_mem_nil _⟩

variable (T net) in
theorem custody_simulates (hpolicy : user≠net.policy) :
    (RiskPool.custody T net.riskPool).Simulates (market T net)
      (fun w => (w.riskPool,w.ledger)) (fun _ a => user∉a.1.signers)
      (fun _ b => b.Without user) where
  step w a w' h := by
    obtain ⟨bs,hbs,hwithout⟩ := market_custody hpolicy h
    exact ⟨bs,hbs,fun hu =>
      Machine.along_of_mem _ bs (fun b hb _ => hwithout hu b hb) _⟩

end Steps

end Mvua.Policy
