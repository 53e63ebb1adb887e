import Mvua.Policy.Custody
import Mvua.Policy.Lifecycle
import Mvua.Protocol.Projection

namespace Mvua.Protocol

section Views

variable {L : Type} (T : TokenHost L)
  (verify : BytesN 32 → OracleAdapter.ObservationPayload → BytesN 64 → Bool) (net : Network)
  {user : Address}

theorem unsigned_of_within {env env' : Env} (hout : user∉net.contracts) (h : Within net env env')
    (hu : user∉env.signers) : user∉env'.signers :=
  fun hmem => (h user hmem).elim hu hout

/-- What runs without a user's signature runs without it in the market and in the settlement. -/
theorem market_unsigned (hout : user∉net.contracts) :
    (Policy.market T net.market).Simulates (machine T verify net) World.market
      (fun _ a => user∉a.1.signers) (fun _ b => user∉b.1.signers) where
  step w a w' h := by
    obtain ⟨bs,hbs,hwithin,-⟩ := (execute_step T verify net h).market
    exact ⟨bs,hbs,fun hu => Machine.along_of_mem _ bs
      (fun b hb _ => unsigned_of_within net hout (hwithin b hb) hu) _⟩

theorem settlement_unsigned (hout : user∉net.contracts) :
    (PayoutVault.settlement T net.settlement).Simulates (machine T verify net) World.settlement
      (fun _ a => user∉a.1.signers) (fun _ b => user∉b.1.signers) where
  step w a w' h := by
    obtain ⟨bs,hbs,hwithin,-⟩ := (execute_step T verify net h).settlement
    exact ⟨bs,hbs,fun hu => Machine.along_of_mem _ bs
      (fun b hb _ => unsigned_of_within net hout (hwithin b hb) hu) _⟩

/-- The pool and the ledger, as their custody sees a transaction of the protocol. -/
theorem pool_simulates (hout : user∉net.contracts) :
    (RiskPool.custody T net.riskPool).Simulates (machine T verify net)
      (fun w => (w.riskPool,w.ledger)) (fun _ a => user∉a.1.signers)
      (fun _ b => b.Without user) :=
  (market_unsigned T verify net hout).trans
    (Policy.custody_simulates T net.market fun he => hout (by
      simp [Network.contracts,he,Network.market]))

end Views

section Claims

variable {L : Type} {T : TokenHost L} {net : PayoutVault.Network} {env : Env}
  {user token : Address} {v v' : PayoutVault.World L}

/-- What a user has in a token, with what the vault still owes. -/
def entitled (T : TokenHost L) (token user : Address) (v : PayoutVault.World L) : Int :=
  T.balance v.ledger token user+PayoutVault.readClaim v.vault user

theorem payEntry_entitled (hT : T.Settles) (hpool : user≠net.riskPool) {pool trigger : Address}
    {i n p z : Nat} {r r' : PayoutVault.BatchRun L} {entry : PayoutVault.PayoutEntry}
    (h : PayoutVault.payEntry T net env pool trigger i n p z r entry=.ok r') :
    entitled T token user r.world≤entitled T token user r'.world := by
  rcases PayoutVault.payEntry_ok h with rfl | ⟨amount,m,s',l',-,-,hpos,-,hpay,-,hw⟩
  · exact le_rfl
  · obtain ⟨c,_,_,-,-,-,-,-,-,-,-,-,hl,-⟩ := RiskPool.payOut_ok hpay
    have hbalance := hT.kept hl user (Ne.symm hpool) token
    rw [hw]
    change T.balance r.world.ledger token user+PayoutVault.readClaim r.world.vault user≤
      T.balance l' token user+PayoutVault.readClaim (r.world.vault.credit env entry amount) user
    rw [PayoutVault.readClaim_credit]
    split_ifs with ho
    · rw [ho] at hbalance ⊢
      omega
    · omega

/-- No transaction that a user did not sign takes anything from them. -/
theorem settlement_entitled (hT : T.Settles) (hpool : user≠net.riskPool) (hvault : user≠net.vault)
    {a : Env × PayoutVault.Transaction} (ho : PayoutVault.Owing net token v)
    (hu : user∉a.1.signers) (h : (PayoutVault.settlement T net).step v a=.ok v') :
    entitled T token user v≤entitled T token user v' := by
  obtain ⟨env,a⟩ := a
  have unsigned : user∉(net.outside env).signers := fun hmem => hu (List.mem_filter.mp hmem).1
  cases a with
  | transfer token' src dst n =>
    have hsigned : src∈(net.outside env).signers := by
      by_contra hn
      simp [PayoutVault.settlement,hn] at h
    obtain ⟨-,l',rfl,hl⟩ := PayoutVault.transfer_ok h
    have hbalance := hT.kept hl user (fun he => unsigned (he ▸ hsigned)) token
    exact Int.add_le_add_right hbalance _
  | call a =>
    rw [PayoutVault.settlement_call] at h
    cases PayoutVault.execute_step T net h with
    | riskPool _ c s' l' hc =>
      have hbalance : T.balance v.ledger token user≤T.balance l' token user := by
        rcases RiskPool.invoke_sender hc with rfl | ⟨token',src,dst,n,hl,hsrc⟩
        · exact le_rfl
        · apply hT.kept hl user
          rcases hsrc with rfl | hsigned
          · exact Ne.symm hpool
          · exact fun he => unsigned (he ▸ hsigned)
      exact Int.add_le_add_right hbalance _
    | triggerEngine _ c s' hc => exact le_refl (entitled T token user v)
    | manage _ c u _ _ _ hclaim _ _ =>
      have hsame : PayoutVault.readClaim u user=PayoutVault.readClaim v.vault user := by
        rw [PayoutVault.readClaim,PayoutVault.readClaim,hclaim]
      exact Int.add_le_add_left hsame.ge _
    | payBatch _ i n p z paid entries _ hc =>
      obtain ⟨pool,trigger,r,-,-,hr,-,rfl⟩ := PayoutVault.payBatch_loop hc
      exact foldlM_invariant
        (fun r : PayoutVault.BatchRun L => entitled T token user v≤entitled T token user r.world)
        (fun _ _ _ hle hpay => hle.trans (payEntry_entitled hT hpool hpay)) entries _ r le_rfl hr
    | claim _ owner amount _ hc =>
      obtain ⟨-,-,hclaims,-⟩ := PayoutVault.claim_sent ho.token hc
      have hbalance := PayoutVault.claim_balance hT.toExact ho.token hc hvault
      unfold entitled
      rw [hbalance,hclaims]
      split_ifs with he
      · rw [he]
        omega
      · omega

end Claims

section Certificates

variable {L : Type} {T : TokenHost L} {net : Policy.Network} {ids : List Nat} {id : Nat}
  {r : Policy.PolicyRecord} {w w' : Policy.World L}

/-- What may become of a certificate while its owner signs nothing. -/
structure Held (r r' : Policy.PolicyRecord) : Prop where
  terms : r'={ r with state := r'.state }
  states : Relation.ReflTransGen Policy.PolicyState.Advances r.state r'.state
  cancelled : r'.state=.cancelled → r.state=.cancelled

theorem Held.refl (r : Policy.PolicyRecord) : Held r r := ⟨rfl,.refl,id⟩

theorem Held.trans {r r' r'' : Policy.PolicyRecord} (h : Held r r') (h' : Held r' r'') :
    Held r r'' := by
  refine ⟨?_,h.states.trans h'.states,fun hc => h.cancelled (h'.cancelled hc)⟩
  rw [h'.terms,h.terms]

theorem cancelled_by_owner {a : Env × Policy.Action} {r' : Policy.PolicyRecord}
    (hi : Policy.Issued w ids) (h : (Policy.machine T net).step w a=.ok w')
    (hr : w.policy.policy id=some r) (hr' : w'.policy.policy id=some r')
    (hc : r'.state=.cancelled) : r.state=.cancelled ∨ r.owner∈a.1.signers := by
  have same : w'.policy.policy id=w.policy.policy id → r.state=.cancelled := by
    intro he
    rw [he,hr,Option.some.injEq] at hr'
    rw [hr']
    exact hc
  cases Policy.execute_step T net h with
  | riskPool | metadata | transferable => exact .inl (same rfl)
  | mint env buyer rp p z id' terms maxPremium metadata _ hm =>
    exact .inl (same (((Policy.mintOne_issues hi hm).2.kept id r hr).trans hr.symm))
  | mintBatch env payer rp p z entries ids' w1 hm =>
    exact .inl (same (((Policy.entries_issue hi hm).2.kept id r hr).trans hr.symm))
  | cancel env id' refunded _ hm =>
    obtain ⟨r₀,s',l',hr₀,hsigned,-,-,-,rfl⟩ := Policy.cancel_ok hm
    by_cases hid : id=id'
    · subst hid
      rw [hr,Option.some.injEq] at hr₀
      subst hr₀
      exact .inr (List.mem_filter.mp hsigned).1
    · exact .inl (same (Function.update_of_ne hid _ _))
  | move env c id' r₀ r₁ e hr₀ hm =>
    by_cases hid : id=id'
    · subst hid
      have hwritten : ((w.policy.writePolicy id r₁).publish e).policy id=some r' := hr'
      rw [Policy.State.rewritten_policy,if_pos rfl,Option.some.injEq] at hwritten
      rw [← hwritten] at hc
      cases hm with
      | transfer dst signed allowed active => exact absurd (active.symm.trans hc) (by decide)
      | trigger | pay | expire => cases hc
    · exact .inl (same (Function.update_of_ne hid _ _))

theorem market_held {a : Env × Policy.Transaction} (hi : Policy.Issued w ids)
    (hr : w.policy.policy id=some r) (hu : r.owner∉a.1.signers) :
    let v := (Policy.market T net).next w a
    (∃ ids', Policy.Issued v ids') ∧ ∃ r', v.policy.policy id=some r' ∧ Held r r' := by
  intro v
  rcases (Policy.market T net).next_cases w a with hn | hn
  · rw [show v=w from hn]
    exact ⟨⟨ids,hi⟩,r,hr,.refl r⟩
  · obtain ⟨env,a⟩ := a
    cases a with
    | transfer token src dst n =>
      obtain ⟨-,l',hw,-⟩ := Policy.transfer_ok hn
      rw [show v={ w with ledger := l' } from hw]
      exact ⟨⟨ids,hi.ids,hi.records⟩,r,hr,.refl r⟩
    | call a =>
      rw [Policy.market_call] at hn
      obtain ⟨hissued,hsucceeds⟩ := Policy.step_succeeds hi hn
      obtain ⟨r',hr',hevolves⟩ := hsucceeds.kept id r hr
      have howner : r'.owner=r.owner := by
        rcases hevolves.owner with ho | ⟨-,hsigned,-⟩
        · exact ho
        · exact absurd (List.mem_filter.mp hsigned).1 hu
      refine ⟨⟨_,hissued⟩,r',hr',?_,hevolves.continues.states,fun hc => ?_⟩
      · rw [hevolves.terms,howner]
      · exact (cancelled_by_owner hi hn hr hr' hc).resolve_right hu

variable (T net) in
theorem market_issued (calls : List (Env × Policy.Transaction)) (hi : Policy.Issued w ids) :
    ∃ ids', Policy.Issued ((Policy.market T net).run w calls) ids' := by
  refine (Policy.market T net).run_invariant (fun w => ∃ ids', Policy.Issued w ids') ?_ calls w
    ⟨ids,hi⟩
  intro w a w' h hstep
  obtain ⟨ids,hi⟩ := h
  obtain ⟨env,a⟩ := a
  cases a with
  | transfer token src dst n =>
    obtain ⟨-,l',rfl,-⟩ := Policy.transfer_ok hstep
    exact ⟨ids,hi.ids,hi.records⟩
  | call a =>
    rw [Policy.market_call] at hstep
    exact ⟨_,(Policy.step_succeeds hi hstep).1⟩

theorem run_held (calls : List (Env × Policy.Transaction)) (hi : Policy.Issued w ids)
    (hr : w.policy.policy id=some r)
    (hrun : (Policy.market T net).along (fun _ a => r.owner∉a.1.signers) w calls) :
    ∃ r', ((Policy.market T net).run w calls).policy.policy id=some r' ∧ Held r r' := by
  let I (v : Policy.World L) : Prop :=
    (∃ ids', Policy.Issued v ids') ∧ ∃ r', v.policy.policy id=some r' ∧ Held r r'
  have h : I ((Policy.market T net).run w calls) := by
    refine (Policy.market T net).run_along I _ ?_ calls w ⟨⟨ids,hi⟩,r,hr,.refl r⟩ hrun
    intro v a h hu
    obtain ⟨⟨ids',hi'⟩,r',hr',hheld⟩ := h
    have howner : r'.owner=r.owner := by rw [hheld.terms]
    rw [← howner] at hu
    obtain ⟨hissued,r'',hr'',hmore⟩ := market_held hi' hr' hu
    exact ⟨hissued,r'',hr'',hheld.trans hmore⟩
  exact h.2

end Certificates

section Runs

variable {L : Type} (T : TokenHost L)
  (verify : BytesN 32 → OracleAdapter.ObservationPayload → BytesN 64 → Bool) (net : Network)

variable (g : Genesis) (l : L) (history : List (Env × Transaction))

theorem reached_market : let v := ((machine T verify net).run (deploy net g l) history).market
    v.Sound net.market ∧ ∃ ids, Policy.Issued v ids := by
  intro v
  obtain ⟨calls,hcalls,-⟩ := (market_simulates T verify net).run history (deploy net g l)
  have hsound : Policy.World.Sound net.market _ := Policy.market_run_sound (T := T)
    (Policy.deployWorld_sound g.poolAdmin g.policyAdmin l) calls
  have hissued := market_issued T net.market calls
    (Policy.deployWorld_issued net.market g.poolAdmin g.policyAdmin l)
  rw [show v=_ from hcalls.symm]
  exact ⟨hsound,hissued⟩

theorem reached_settlement : PayoutVault.Owing net.settlement g.token
    ((machine T verify net).run (deploy net g l) history).settlement := by
  obtain ⟨calls,hcalls,-⟩ := (settlement_simulates T verify net).run history (deploy net g l)
  rw [← hcalls]
  exact PayoutVault.run_owing T net.settlement (PayoutVault.deployWorld_owing net.settlement
    g.poolAdmin g.triggerAdmin g.vaultAdmin net.policy g.token l) calls

/-- Whoever signs nothing loses nothing. From every state that the five contracts can reach, a run
without a user's signature leaves the user's receipts in every pool as they are, lowers none of the
user's token balances, takes nothing of what the vault owes without paying it to the user, and
leaves the user's certificates in the user's name, under the same terms, and uncancelled. -/
theorem unsigned_loses_nothing (hT : T.Settles) (later : List (Env × Transaction)) (user : Address)
    (hout : user∉net.contracts) (hu : ∀ a∈later, user∉a.1.signers) :
    let M := machine T verify net
    let v := M.run (deploy net g l) history
    let w := M.run v later
    (∀ p t, RiskPool.readReceipt w.riskPool p t user=RiskPool.readReceipt v.riskPool p t user) ∧
    (∀ token, T.balance v.ledger token user≤T.balance w.ledger token user) ∧
    T.balance v.ledger g.token user+PayoutVault.readClaim v.vault user≤
      T.balance w.ledger g.token user+PayoutVault.readClaim w.vault user ∧
    ∀ id r, v.policy.policy id=some r → r.owner=user →
      ∃ r', w.policy.policy id=some r' ∧ Held r r' := by
  intro M v w
  have hunsigned : M.along (fun _ a => user∉a.1.signers) v later :=
    M.along_of_mem later (fun a ha _ => hu a ha) v
  obtain ⟨hsound,ids,hissued⟩ := reached_market T verify net g l history
  have hmarket := market_unsigned T verify net hout
  have hcustody := pool_simulates T verify net hout
  obtain ⟨hpool,-,-,hvault⟩ : user≠net.riskPool ∧ user≠net.policy ∧ user≠net.triggerEngine ∧
      user≠net.vault := by
    simp only [Network.contracts,List.mem_cons,not_or] at hout
    exact ⟨hout.1,hout.2.1,hout.2.2.2.1,hout.2.2.2.2.1⟩
  obtain ⟨hreceipts,hbalances⟩ := hcustody.transfer (s := v)
    (J := fun y => (∀ p t, (y.1.book p).receipt t user=(v.riskPool.book p).receipt t user) ∧
      ∀ token, T.balance v.ledger token user≤T.balance y.2 token user)
    (fun bs hbs => RiskPool.run_without hT hpool hsound.pools bs hbs) later hunsigned
  have hclaims := (settlement_unsigned T verify net hout).transfer (s := v)
    (J := fun u => PayoutVault.Owing net.settlement g.token u ∧
      entitled T g.token user v.settlement≤entitled T g.token user u) ?_ later hunsigned
  · refine ⟨hreceipts,hbalances,hclaims.2,fun id r hr howner => ?_⟩
    subst howner
    exact hmarket.transfer (s := v)
      (J := fun u => ∃ r', u.policy.policy id=some r' ∧ Held r r')
      (fun bs hbs => run_held bs hissued hr hbs) later hunsigned
  · intro bs hbs
    let N := PayoutVault.settlement T net.settlement
    refine N.run_along (fun u => PayoutVault.Owing net.settlement g.token u ∧
      entitled T g.token user v.settlement≤entitled T g.token user u) _ ?_ bs v.settlement
      ⟨reached_settlement T verify net g l history,le_rfl⟩ hbs
    intro u a h hunsigned
    obtain ⟨howing,hle⟩ := h
    rcases N.next_cases u a with hn | hn
    · rw [hn]
      exact ⟨howing,hle⟩
    · exact ⟨PayoutVault.step_owing howing hn,
        hle.trans (settlement_entitled hT hpool hvault howing hunsigned hn)⟩

end Runs

section Sample

/-- The season is closed, a certificate expires, and the cooperative sends tokens away. -/
def afterSeason : List (Env × Transaction) := [
  (adminAt 1090000,.call (.riskPool (.closeSeason 1 1))),
  (⟨1090000,[]⟩,.call (.policy (.expire 2))),
  (⟨1090000,[⟨3⟩]⟩,.call (.riskPool (.withdraw 1 .junior ⟨3⟩ 100))),
  (⟨1090000,[⟨3⟩]⟩,.transfer ⟨9⟩ ⟨3⟩ ⟨7⟩ 5)]

/-- The owner of the expired certificate has signed none of it. -/
theorem unsigned_loses_nothing_dry :
    let M := machine TokenHost.ledger OracleAdapter.signedAll plainNet
    let v := M.run (deploy plainNet plainGenesis RiskPool.plainFunds) drySeason
    let w := M.run v afterSeason
    PayoutVault.readClaim v.vault ⟨7⟩=30 ∧
    (v.policy.policy 2).map (fun r => (r.owner,r.state))=some (⟨7⟩,.active) ∧
    (w.policy.policy 2).map (fun r => (r.owner,r.state))=some (⟨7⟩,.expired) ∧
    TokenHost.ledger.balance v.ledger plainGenesis.token ⟨7⟩+PayoutVault.readClaim v.vault ⟨7⟩≤
      TokenHost.ledger.balance w.ledger plainGenesis.token ⟨7⟩+
        PayoutVault.readClaim w.vault ⟨7⟩ := by
  intro M v w
  have h := unsigned_loses_nothing TokenHost.ledger OracleAdapter.signedAll plainNet plainGenesis
    RiskPool.plainFunds drySeason TokenHost.ledger_settles afterSeason ⟨7⟩ (by decide) (by decide)
  refine ⟨by decide +kernel,by decide +kernel,by decide +kernel,?_⟩
  with_reducible exact h.2.2.1

end Sample

end Mvua.Protocol
