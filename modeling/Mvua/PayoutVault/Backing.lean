import Mvua.PayoutVault.Payments

namespace Mvua.PayoutVault

/-- A call of a contract, or a token transfer that its sender signed. -/
inductive Transaction where
  | call (a : Action)
  | transfer (token src dst : Address) (amount : Int)

section Machine

variable {L : Type} (T : TokenHost L) (net : Network)

/-- The contracts among other users of their tokens. -/
def settlement : Machine (World L) (Env × Transaction) Failure where
  step
    | w,(env,.call a) => execute T net env w a
    | w,(env,.transfer token src dst amount) =>
        if src∈(net.outside env).signers then
          match T.transfer w.ledger token src dst amount with
          | some ledger => .ok { w with ledger }
          | none => .error .host
        else .error .auth

/-- The window pays something for an entry whose policy has no record yet. -/
def Pays (w : World L) (i n : Nat) (entry : PayoutEntry) : Prop :=
  w.vault.payout entry.policyId=none ∧
    ∃ amount, 0<amount ∧ TriggerEngine.payoutFor w.triggerEngine i n entry.coverage=.ok amount

/-- A batch that goes through and pays somebody draws on a pool in the vault's own token. -/
def DrawsOwnToken (w : World L) : Env × Transaction → Prop
  | (env,.call (.vault (.payBatch i n p z entries))) =>
      (execute T net env w (.vault (.payBatch i n p z entries))).isOk →
      (∃ entry∈entries, Pays w i n entry) →
      (w.riskPool.poolConfig p).map RiskPool.PoolConfig.token=w.vault.token
  | _ => True

/-- The vault owes nobody a negative amount, in the token of its deployment. -/
structure Owing (net : Network) (token : Address) (w : World L) : Prop where
  sound : w.Sound net
  token : w.vault.token=some token
  nonneg : ∀ owner, 0 ≤ readClaim w.vault owner

/-- The vault holds what it owes. -/
def Backed (token : Address) (w : World L) : Prop :=
  ∃ owed, HasTotal (readClaim w.vault) owed ∧ owed≤T.balance w.ledger token net.vault

end Machine

section Steps

variable {L : Type} {T : TokenHost L} {net : Network} {env : Env} {token : Address} {w w' : World L}

theorem Owing.congr (h : Owing net token w) (hs : w'.Sound net)
    (ht : w'.vault.token=w.vault.token) (hc : w'.vault.claim=w.vault.claim) :
    Owing net token w' := by
  refine ⟨hs,ht.trans h.token,fun owner => ?_⟩
  rw [readClaim,hc]
  exact h.nonneg owner

theorem Backed.congr (h : Backed T net token w) (hc : w'.vault.claim=w.vault.claim)
    (hl : T.balance w.ledger token net.vault≤T.balance w'.ledger token net.vault) :
    Backed T net token w' := by
  obtain ⟨owed,ht,hle⟩ := h
  have hsame : readClaim w'.vault=readClaim w.vault := by
    funext owner; rw [readClaim,readClaim,hc]
  exact ⟨owed,by rw [hsame]; exact ht,hle.trans hl⟩

/-- What the loop over a batch that starts in `w` keeps. -/
structure LoopOwing (net : Network) (token : Address) (w : World L) (r : BatchRun L) : Prop where
  owing : Owing net token r.world
  engine : r.world.triggerEngine=w.triggerEngine
  configs : r.world.riskPool.poolConfig=w.riskPool.poolConfig
  unpaid : ∀ id, r.world.vault.payout id=none → w.vault.payout id=none

theorem payEntry_owing {pool trigger : Address} {i n p z : Nat} {r r' : BatchRun L}
    {entry : PayoutEntry} (hr : LoopOwing net token w r)
    (h : payEntry T net env pool trigger i n p z r entry=.ok r') : LoopOwing net token w r' := by
  have hsound := payEntry_sound hr.owing.sound h
  rcases payEntry_ok h with rfl | ⟨amount,m,s',l',-,-,hpos,-,hpay,-,hw⟩
  · exact hr
  · have hconfigs := (RiskPool.payOut_posts hpay).poolConfig
    rw [hw] at hsound
    refine ⟨⟨by rw [hw]; exact hsound,by rw [hw]; exact hr.owing.token,fun owner => ?_⟩,
      by rw [hw]; exact hr.engine,by rw [hw]; exact hconfigs.trans hr.configs,fun id hid => ?_⟩
    · have hown := hr.owing.nonneg owner
      have hentry := hr.owing.nonneg entry.owner
      rw [hw,readClaim_credit]
      split_ifs <;> omega
    · rw [hw,payout_credit] at hid
      split_ifs at hid
      exact hr.unpaid id hid

/-- A payment in the vault's token adds to its balance what it adds to the claims. -/
theorem payEntry_backed (hT : T.Exact) (hnet : net.riskPool≠net.vault) {pool trigger : Address}
    {i n p z : Nat} {r r' : BatchRun L} {entry : PayoutEntry} (hr : LoopOwing net token w r)
    (hb : Backed T net token r.world)
    (hown : Pays w i n entry →
      (w.riskPool.poolConfig p).map RiskPool.PoolConfig.token=some token)
    (h : payEntry T net env pool trigger i n p z r entry=.ok r') : Backed T net token r'.world := by
  rcases payEntry_ok h with rfl | ⟨amount,m,s',l',hnone,-,hpos,hamount,hpay,-,hw⟩
  · exact hb
  · obtain ⟨c,_,_,hc,-,-,-,-,-,-,-,-,hl,-⟩ := RiskPool.payOut_ok hpay
    rw [hr.engine] at hamount
    have htoken := hown ⟨hr.unpaid _ hnone,amount,hpos,hamount⟩
    rw [← hr.configs,hc,Option.map_some,Option.some.injEq] at htoken
    have hbalance := hT.received hl hnet token
    rw [htoken,if_pos rfl] at hbalance
    obtain ⟨owed,ht,hle⟩ := hb
    have hcredit : HasTotal (readClaim r'.world.vault) (owed+amount) := by
      refine ht.move entry.owner amount fun owner => ?_
      rw [hw,readClaim_credit]
      split_ifs with ho
      · rw [ho]
      · rw [add_zero]
    have hle' : owed+amount≤T.balance r'.world.ledger token net.vault := by
      rw [hw]
      change owed+amount≤T.balance l' token net.vault
      omega
    exact ⟨owed+amount,hcredit,hle'⟩

theorem payBatch_owing {i n p z paid : Nat} {entries : List PayoutEntry}
    (ho : Owing net token w) (h : payBatch T net env w i n p z entries=.ok (paid,w')) :
    Owing net token w' := by
  obtain ⟨pool,trigger,r,progress,-,-,hr,-,-,rfl⟩ := payBatch_ok h
  have hend := foldlM_invariant (LoopOwing net token w) (fun _ _ _ hr h => payEntry_owing hr h)
    entries _ r ⟨ho,rfl,rfl,fun _ h => h⟩ hr
  exact hend.owing.congr (hend.owing.sound.congr rfl rfl rfl rfl) rfl rfl

theorem payBatch_backed (hT : T.Exact) (hnet : net.riskPool≠net.vault) {i n p z paid : Nat}
    {entries : List PayoutEntry} (ho : Owing net token w) (hb : Backed T net token w)
    (hown : (∃ entry∈entries, Pays w i n entry) →
      (w.riskPool.poolConfig p).map RiskPool.PoolConfig.token=some token)
    (h : payBatch T net env w i n p z entries=.ok (paid,w')) : Backed T net token w' := by
  obtain ⟨pool,trigger,r,progress,-,-,hr,-,-,rfl⟩ := payBatch_ok h
  have hend := foldlM_invariant_mem
    (fun r : BatchRun L => LoopOwing net token w r ∧ Backed T net token r.world) entries
    (fun r entry he r' hinv hpay => by
      obtain ⟨hr,hb⟩ := hinv
      exact ⟨payEntry_owing hr hpay,
        payEntry_backed hT hnet hr hb (fun hpays => hown ⟨entry,he,hpays⟩) hpay⟩)
    _ r ⟨⟨ho,rfl,rfl,fun _ h => h⟩,hb⟩ hr
  exact hend.2.congr rfl le_rfl

/-- What a claim does: the owner's balance is cleared and sent. -/
theorem claim_sent {owner : Address} {amount : Int} (ht : w.vault.token=some token)
    (h : claim T net w owner=.ok (amount,w')) :
    amount=readClaim w.vault owner ∧ w'.vault.token=some token ∧
    (∀ who, readClaim w'.vault who=if who=owner then 0 else readClaim w.vault who) ∧
    T.transfer w.ledger token net.vault owner amount=some w'.ledger := by
  simp only [claim,bind_eq_ok,failIf_eq_ok,okOr_eq_ok,pure_eq_ok,ht,Option.some.injEq,
    TokenHost.send_eq_ok,Prod.mk.injEq] at h
  obtain ⟨-,-,_,rfl,l',hl,rfl,rfl⟩ := h
  refine ⟨rfl,ht,fun who => ?_,hl⟩
  by_cases hw : who=owner
  · subst hw; simp [readClaim,State.writeClaim,State.publish]
  · simp [readClaim,State.writeClaim,State.publish,hw]

/-- A claim pays its owner and nobody else. -/
theorem claim_balance (hT : T.Exact) {owner who : Address} {amount : Int}
    (ht : w.vault.token=some token) (h : claim T net w owner=.ok (amount,w'))
    (hne : who≠net.vault) : T.balance w'.ledger token who=
      T.balance w.ledger token who+if who=owner then readClaim w.vault who else 0 := by
  obtain ⟨hamount,-,-,hl⟩ := claim_sent ht h
  split_ifs with hw
  · rw [hw,← hamount]
    apply hT.credit _ _ _ _ _ _ hl
    rw [← hw]
    exact Ne.symm hne
  · rw [add_zero]
    exact hT.frame _ _ _ _ _ _ _ _ hl fun _ => ⟨hne,hw⟩

theorem claim_owing {owner : Address} {amount : Int} (ho : Owing net token w)
    (h : claim T net w owner=.ok (amount,w')) : Owing net token w' := by
  obtain ⟨-,ht,hclaim,-⟩ := claim_sent ho.token h
  obtain ⟨-,l',hw⟩ := claim_ok h
  refine ⟨?_,ht,fun who => ?_⟩
  · rw [hw]
    exact ⟨ho.sound.pools,ho.sound.uncommitted,ho.sound.triggers,ho.sound.poolRef,
      ho.sound.triggerRef⟩
  · have hown := ho.nonneg who
    rw [hclaim]
    split_ifs <;> omega

/-- A claim takes from the balance no more than it takes from the claims. -/
theorem claim_backed (hT : T.Settles) {owner : Address} {amount : Int} (ho : Owing net token w)
    (hb : Backed T net token w) (h : claim T net w owner=.ok (amount,w')) :
    Backed T net token w' := by
  obtain ⟨hamount,-,hclaim,hl⟩ := claim_sent ho.token h
  have hnonneg := ho.nonneg owner
  obtain ⟨owed,ht,hle⟩ := hb
  have hcleared : HasTotal (readClaim w'.vault) (owed-amount) := by
    refine ht.move owner (-amount) fun who => ?_
    rw [hclaim]
    split_ifs with hw
    · rw [hw,hamount,add_neg_cancel]
    · rw [add_zero]
  have hbalance : T.balance w.ledger token net.vault-amount≤
      T.balance w'.ledger token net.vault := by
    by_cases hself : owner=net.vault
    · rw [hself] at hl
      have hsame := hT.own _ _ _ _ _ hl
      omega
    · exact (hT.debit _ _ _ _ _ _ hl (Ne.symm hself)).ge
  exact ⟨owed-amount,hcleared,by omega⟩

theorem invoke_token {c : Call} (h : invoke T net env w c=.ok w') :
    w'.vault.token=w.vault.token := by
  cases c with
  | pause =>
    simp only [invoke,pause,except_map_eq_ok,bind_eq_ok,pure_eq_ok] at h
    obtain ⟨_,⟨_,-,rfl⟩,rfl⟩ := h
    rfl
  | unpause =>
    simp only [invoke,unpause,except_map_eq_ok,bind_eq_ok,pure_eq_ok] at h
    obtain ⟨_,⟨_,-,rfl⟩,rfl⟩ := h
    rfl
  | closeBatch i n =>
    simp only [invoke,closeBatch,except_map_eq_ok,bind_eq_ok,pure_eq_ok] at h
    obtain ⟨_,⟨_,-,rfl⟩,rfl⟩ := h
    rfl
  | payBatch i n p z entries =>
    simp only [invoke,except_map_eq_ok,Prod.exists] at h
    obtain ⟨paid,u,hu,rfl⟩ := h
    obtain ⟨_,_,r,_,-,-,hr,-,-,rfl⟩ := payBatch_ok hu
    refine foldlM_invariant (fun r : BatchRun L => r.world.vault.token=w.vault.token) ?_ entries
      _ r rfl hr
    intro r entry r' ht hpay
    rcases payEntry_ok hpay with rfl | ⟨_,_,_,_,-,-,-,-,-,-,hw⟩
    · exact ht
    · rw [hw]
      exact ht
  | claim owner =>
    simp only [invoke,except_map_eq_ok,Prod.exists] at h
    obtain ⟨amount,u,hu,rfl⟩ := h
    obtain ⟨-,l',rfl⟩ := claim_ok hu
    rfl

theorem settlement_call (w : World L) (env : Env) (a : Action) :
    (settlement T net).step w (env,.call a)=(machine T net).step w (env,a) := rfl

/-- A transfer that a user signed leaves the contracts' storage and the vault's balance. -/
theorem transfer_ok {token' src dst : Address} {n : Int}
    (h : (settlement T net).step w (env,.transfer token' src dst n)=.ok w') :
    src≠net.vault ∧ ∃ l', w'={ w with ledger := l' } ∧
      T.transfer w.ledger token' src dst n=some l' := by
  simp only [settlement] at h
  split_ifs at h with hsigned
  cases hl : T.transfer w.ledger token' src dst n with
  | none => simp [hl] at h
  | some l' =>
    simp only [hl,Except.ok.injEq] at h
    exact ⟨(signer_outside hsigned).2.2,l',h.symm,rfl⟩

theorem step_owing {a : Env × Transaction} (ho : Owing net token w)
    (h : (settlement T net).step w a=.ok w') : Owing net token w' := by
  obtain ⟨env,a⟩ := a
  cases a with
  | transfer token' src dst n =>
    obtain ⟨-,l',rfl,-⟩ := transfer_ok h
    exact ho.congr (ho.sound.congr rfl rfl rfl rfl) rfl rfl
  | call a =>
    rw [settlement_call] at h
    have hstep := execute_step T net h
    have hs := hstep.sound ho.sound
    cases hstep with
    | riskPool _ c s' l' hc => exact ho.congr hs rfl rfl
    | triggerEngine _ c s' hc => exact ho.congr hs rfl rfl
    | payBatch _ i n p z paid entries _ hc => exact payBatch_owing ho hc
    | claim _ owner amount _ hc => exact claim_owing ho hc
    | manage _ c v _ _ _ hclaim _ _ =>
      simp only [machine,execute,subcall_eq_ok] at h
      exact ho.congr hs (invoke_token h) hclaim

theorem step_backed (hT : T.Settles) (hnet : net.riskPool≠net.vault) {a : Env × Transaction}
    (ho : Owing net token w) (hb : Backed T net token w) (hown : DrawsOwnToken T net w a)
    (h : (settlement T net).step w a=.ok w') : Backed T net token w' := by
  obtain ⟨env,a⟩ := a
  cases a with
  | transfer token' src dst n =>
    obtain ⟨hsrc,l',rfl,hl⟩ := transfer_ok h
    exact hb.congr rfl (hT.kept hl net.vault hsrc token)
  | call a =>
    rw [settlement_call] at h
    cases execute_step T net h with
    | riskPool _ c s' l' hc =>
      refine hb.congr rfl ?_
      rcases RiskPool.invoke_sender hc with rfl | ⟨token',src,dst,n,hl,hsrc⟩
      · exact le_rfl
      · refine hT.kept hl net.vault ?_ token
        rcases hsrc with rfl | hsigned
        · exact hnet
        · exact (signer_outside hsigned).2.2
    | triggerEngine _ c s' hc => exact hb.congr rfl le_rfl
    | payBatch _ i n p z paid entries _ hc =>
      have hdraws : (∃ entry∈entries, Pays w i n entry) →
          (w.riskPool.poolConfig p).map RiskPool.PoolConfig.token=some token := by
        intro hpays
        have hok : (execute T net env w (.vault (.payBatch i n p z entries))).isOk := by
          simp only [machine] at h
          rw [h]; rfl
        rw [← ho.token]
        exact hown hok hpays
      exact payBatch_backed hT.toExact hnet ho hb hdraws hc
    | claim _ owner amount _ hc => exact claim_backed hT ho hb hc
    | manage _ c v _ _ _ hclaim _ _ => exact hb.congr hclaim le_rfl

end Steps

section Collection

variable {L : Type} {T : TokenHost L} {net : Network} {token : Address} {w : World L}

/-- Anybody's call that pushes the balance of an owner to it. -/
def collect (c : Env × Address) : Env × Transaction := (c.1,.call (.vault (.claim c.2)))

/-- A backed claim goes through, whoever makes it and whether or not payouts are paused. -/
theorem claim_collects (hT : T.Settles) (ho : Owing net token w) (hb : Backed T net token w)
    {owner : Address} (hpos : 0 < readClaim w.vault owner) :
    ∃ amount w', claim T net w owner=.ok (amount,w') := by
  let amount := readClaim w.vault owner
  obtain ⟨owed,ht,hle⟩ := hb
  have howed := ht.le ho.nonneg owner
  have hpaid := hT.pays w.ledger token net.vault owner (readClaim w.vault owner) hpos.le
    (howed.trans hle)
  obtain ⟨l',hl⟩ := Option.isSome_iff_exists.mp hpaid
  refine ⟨amount,{ w with
    vault := (w.vault.writeClaim owner 0).publish (.claimed owner amount), ledger := l' },?_⟩
  simp only [claim,bind_eq_ok,failIf_eq_ok,okOr_eq_ok,pure_eq_ok,TokenHost.send_eq_ok]
  exact ⟨(),by omega,token,ho.token,l',hl,rfl⟩

/-- Claims of different owners all go through, each clears the owner's claim, and nobody but
the owners receives anything. -/
theorem collect_all (hT : T.Settles) (claims : List (Env × Address)) (ho : Owing net token w)
    (hb : Backed T net token w) (hnodup : (claims.map Prod.snd).Nodup)
    (hpos : ∀ c∈claims, 0 < readClaim w.vault c.2) :
    let M := settlement T net
    let w' := M.run w (claims.map collect)
    M.along (fun w a => (M.step w a).isOk) w (claims.map collect) ∧
    ∀ who, (readClaim w'.vault who=
        if who∈claims.map Prod.snd then 0 else readClaim w.vault who) ∧
      (who≠net.vault → T.balance w'.ledger token who=T.balance w.ledger token who+
        if who∈claims.map Prod.snd then readClaim w.vault who else 0) := by
  intro M
  induction claims generalizing w with
  | nil => exact ⟨trivial,fun who => by simp⟩
  | cons c claims ih =>
    obtain ⟨env,owner⟩ := c
    obtain ⟨hfresh,hnodup⟩ := List.nodup_cons.mp hnodup
    obtain ⟨hown,hpos⟩ := List.forall_mem_cons.mp hpos
    obtain ⟨amount,w1,hclaim⟩ := claim_collects hT ho hb hown
    have hstep : M.step w (collect (env,owner))=.ok w1 := by
      simp [M,settlement,collect,execute,invoke,hclaim,subcall,Except.map]
    obtain ⟨-,-,hcleared,-⟩ := claim_sent ho.token hclaim
    have hsent : ∀ who, who≠net.vault → T.balance w1.ledger token who=
        T.balance w.ledger token who+if who=owner then readClaim w.vault who else 0 :=
      fun _ => claim_balance hT.toExact ho.token hclaim
    have hpos1 : ∀ c∈claims, 0 < readClaim w1.vault c.2 := by
      intro c hc
      have hne : c.2≠owner := fun he => hfresh (List.mem_map.mpr ⟨c,hc,he⟩)
      rw [hcleared,if_neg hne]
      exact hpos c hc
    obtain ⟨hall,hafter⟩ := ih (claim_owing ho hclaim) (claim_backed hT ho hb hclaim) hnodup hpos1
    rw [List.map_cons,M.run_cons,M.next_of_ok hstep]
    have hok : (M.step w (collect (env,owner))).isOk := by
      rw [hstep]; rfl
    refine ⟨⟨hok,by rw [M.next_of_ok hstep]; exact hall⟩,fun who => ?_⟩
    obtain ⟨hclaims,hbalance⟩ := hafter who
    simp only [List.map_cons,List.mem_cons]
    by_cases hw : who=owner
    · subst hw
      refine ⟨?_,fun hne => ?_⟩
      · rw [hclaims,hcleared]
        simp
      · rw [hbalance hne,hsent who hne,if_neg hfresh]
        simp
    · refine ⟨?_,fun hne => ?_⟩
      · rw [hclaims,hcleared]
        simp only [hw,false_or,if_false]
      · rw [hbalance hne,hsent who hne,hcleared]
        simp only [hw,false_or,if_false,add_zero]

end Collection

section Runs

variable {L : Type} (T : TokenHost L) (net : Network)

theorem deployWorld_owing (poolAdmin triggerAdmin vaultAdmin policy token : Address) (l : L) :
    Owing net token (deployWorld net poolAdmin triggerAdmin vaultAdmin policy token l) where
  sound := deployWorld_sound ..
  token := rfl
  nonneg _ := le_rfl

theorem run_owing {token : Address} {w : World L} (h : Owing net token w)
    (transactions : List (Env × Transaction)) :
    Owing net token ((settlement T net).run w transactions) :=
  (settlement T net).run_invariant (Owing net token) (fun _ _ _ ho h => step_owing ho h)
    transactions w h

/-- If every batch that pays somebody draws on a pool in the vault's token, the vault always holds
what it owes, and owners with a positive claim collect it in any order and at any time. -/
theorem claims_backed (hT : T.Settles) (hnet : net.riskPool≠net.vault)
    (poolAdmin triggerAdmin vaultAdmin policy token : Address) (l : L)
    (hfunds : 0≤T.balance l token net.vault) (transactions : List (Env × Transaction)) :
    let M := settlement T net
    let start := deployWorld net poolAdmin triggerAdmin vaultAdmin policy token l
    let w := M.run start transactions
    M.along (DrawsOwnToken T net) start transactions →
    (∃ owed, HasTotal (readClaim w.vault) owed ∧ owed≤T.balance w.ledger token net.vault) ∧
    ∀ claims : List (Env × Address), (claims.map Prod.snd).Nodup →
      (∀ c∈claims, 0 < readClaim w.vault c.2) →
      let w' := M.run w (claims.map collect)
      M.along (fun w a => (M.step w a).isOk) w (claims.map collect) ∧
      ∀ who, (readClaim w'.vault who=
          if who∈claims.map Prod.snd then 0 else readClaim w.vault who) ∧
        (who≠net.vault → T.balance w'.ledger token who=T.balance w.ledger token who+
          if who∈claims.map Prod.snd then readClaim w.vault who else 0) := by
  intro M start w hown
  have hstart : Backed T net token start := ⟨0,HasTotal.zero,hfunds⟩
  have h : Owing net token w ∧ Backed T net token w := by
    refine M.run_along (fun w => Owing net token w ∧ Backed T net token w) (DrawsOwnToken T net)
      ?_ transactions start ⟨deployWorld_owing net poolAdmin triggerAdmin vaultAdmin policy token l,
        hstart⟩ hown
    intro w a h hdraws
    obtain ⟨ho,hb⟩ := h
    rcases M.next_cases w a with hsame | hstep
    · rw [hsame]
      exact ⟨ho,hb⟩
    · exact ⟨step_owing ho hstep,step_backed hT hnet ho hb hdraws hstep⟩
  exact ⟨h.2,fun claims => collect_all hT claims h.1 h.2⟩

end Runs

section Sample

/-- The vault settles in token 9, and a batch draws on a second pool, in token 8. -/
def foreignPool : List (Env × Transaction) := [
  (RiskPool.plainEnv,.call (.riskPool (.setPayoutVault ⟨12⟩))),
  (RiskPool.plainEnv,.call (.riskPool (.createPool RiskPool.plainConfig))),
  (RiskPool.plainEnv,.call (.riskPool (.createPool { RiskPool.plainConfig with token := ⟨8⟩ }))),
  (RiskPool.plainEnv,.call (.riskPool (.deposit 2 .junior ⟨3⟩ 100))),
  (RiskPool.plainEnv,.call (.riskPool (.openSeason 2))),
  (RiskPool.plainEnv,.call (.riskPool (.activateSeason 2 1)))]++
  (TriggerEngine.drySpell.map fun a => (a.1,.call (.triggerEngine a.2)))++
  [(⟨90000,[⟨0⟩]⟩,.call (.vault (.payBatch 0 7 2 1 [⟨5,⟨6⟩,60⟩])))]

/-- The vault then owes 60 of a token that it does not hold, and the owner cannot collect. -/
theorem foreign_pool_unbacked :
    let w := (settlement TokenHost.ledger plainNet).run plainWorld foreignPool
    readClaim w.vault ⟨6⟩=60 ∧
    (¬∃ owed, HasTotal (readClaim w.vault) owed ∧
      owed≤TokenHost.ledger.balance w.ledger ⟨9⟩ plainNet.vault) ∧
    (claim TokenHost.ledger plainNet w ⟨6⟩).map (fun r => r.1)=.error (.trap .host) := by
  intro w
  have hclaim : readClaim w.vault ⟨6⟩=60 := by
    decide +kernel
  have hbalance : TokenHost.ledger.balance w.ledger ⟨9⟩ plainNet.vault=0 := by
    decide +kernel
  refine ⟨hclaim,?_,by decide +kernel⟩
  intro h
  obtain ⟨owed,ht,hle⟩ := h
  have ho : Owing plainNet ⟨9⟩ w := run_owing TokenHost.ledger plainNet
    (deployWorld_owing plainNet ⟨0⟩ ⟨0⟩ ⟨0⟩ ⟨2⟩ ⟨9⟩ RiskPool.plainFunds) foreignPool
  have hone := ht.le ho.nonneg ⟨6⟩
  omega

/-- Two owners are paid while a third account sends the vault 5 more. -/
def ownPool : List (Env × Transaction) :=
  (insuredWindow.map fun a => (a.1,.call a.2))++[
  (⟨90000,[⟨0⟩]⟩,.call (.vault (.payBatch 0 7 1 1 [⟨5,⟨6⟩,60⟩,⟨6,⟨4⟩,30⟩]))),
  (⟨90000,[⟨3⟩]⟩,.transfer ⟨9⟩ ⟨3⟩ ⟨12⟩ 5),
  (⟨90000,[⟨0⟩]⟩,.call (.vault .pause))]

def bothOwners : List (Env × Address) := [(⟨90001,[]⟩,⟨4⟩),(⟨90002,[]⟩,⟨6⟩)]

theorem claims_backed_own :
    let M := settlement TokenHost.ledger plainNet
    let w := M.run plainWorld ownPool
    let w' := M.run w (bothOwners.map collect)
    isPaused w.vault=true ∧ readClaim w.vault ⟨4⟩=30 ∧ readClaim w.vault ⟨6⟩=60 ∧
    M.along (fun w a => (M.step w a).isOk) w (bothOwners.map collect) ∧
    TokenHost.ledger.balance w'.ledger ⟨9⟩ ⟨4⟩=30 ∧
    TokenHost.ledger.balance w'.ledger ⟨9⟩ ⟨6⟩=60 := by
  intro M w w'
  have hpos : ∀ c∈bothOwners, 0 < readClaim w.vault c.2 := by
    decide +kernel
  have hall := (claims_backed TokenHost.ledger plainNet TokenHost.ledger_settles (by decide) ⟨0⟩
    ⟨0⟩ ⟨0⟩ ⟨2⟩ ⟨9⟩ RiskPool.plainFunds (by decide) ownPool
    ⟨trivial,trivial,trivial,trivial,trivial,trivial,trivial,trivial,trivial,trivial,trivial,
      fun _ _ => by decide +kernel,trivial,trivial,trivial⟩).2 bothOwners (by decide) hpos
  have haccepted : M.along (fun w a => (M.step w a).isOk) w (bothOwners.map collect) := hall.1
  exact ⟨by decide +kernel,by decide +kernel,by decide +kernel,haccepted,by decide +kernel,
    by decide +kernel⟩

end Sample

end Mvua.PayoutVault
