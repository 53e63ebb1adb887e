import Mvua.PayoutVault.Books

namespace Mvua.PayoutVault

def due (s : TriggerEngine.State) (i n : Nat) (entry : PayoutEntry) : Int :=
  match TriggerEngine.payoutFor s i n entry.coverage with
  | .ok amount => amount
  | .error _ => 0

/-- Batch calls for one window, pool and season. -/
def batchCalls (i n p z : Nat) (batches : List (Env × List PayoutEntry)) :
    List (Env × Action) :=
  batches.map fun b => (b.1,.vault (.payBatch i n p z b.2))

/-- The entries for which the window pays something. -/
def payable (s : TriggerEngine.State) (i n : Nat) (entries : List PayoutEntry) :
    List PayoutEntry :=
  entries.filter fun e => 0<due s i n e

def dueTo (s : TriggerEngine.State) (i n : Nat) (owner : Address) (done : List PayoutEntry) :
    Int :=
  (done.map fun e => if e.owner=owner then due s i n e else 0).sum

/-- World `v` is world `w` after payments for the entries of `done`. -/
structure Ahead {L : Type} (net : Network) (entries : List PayoutEntry) (i n p z : Nat)
    (w v : World L) (progress : BatchProgress) (done : List PayoutEntry) : Prop where
  sound : v.Sound net
  engine : v.triggerEngine=w.triggerEngine
  nodup : done.Nodup
  payable : ∀ e∈done, e∈entries ∧ 0<due w.triggerEngine i n e
  recorded : ∀ e∈done, ∃ t, v.vault.payout e.policyId=
    some ⟨e.owner,due w.triggerEngine i n e,t⟩
  others : ∀ id, (∀ e∈done, e.policyId≠id) → v.vault.payout id=w.vault.payout id
  claims : ∀ owner, v.vault.claim owner=if ∃ e∈done, e.owner=owner then
    some (readClaim w.vault owner+dueTo w.triggerEngine i n owner done) else w.vault.claim owner
  reserves : (v.riskPool.book p).reserves=
    (w.riskPool.book p).reserves-(done.map (due w.triggerEngine i n)).sum
  payouts : v.riskPool.payoutsPaid (p,z)=
    w.riskPool.payoutsPaid (p,z)+(done.map (due w.triggerEngine i n)).sum
  disbursed : progress.totalDisbursed=
    (readBatch w.vault i n).totalDisbursed+(done.map (due w.triggerEngine i n)).sum
  policies : progress.policiesPaid=(readBatch w.vault i n).policiesPaid+done.length

section Steps

variable {L : Type} {T : TokenHost L} {net : Network} {env : Env} {entries : List PayoutEntry}
  {i n p z : Nat} {w v : World L} {progress : BatchProgress} {done : List PayoutEntry}

theorem Ahead.refl (hs : w.Sound net) :
    Ahead net entries i n p z w w (readBatch w.vault i n) [] where
  sound := hs
  engine := rfl
  nodup := .nil
  payable e he := by simp at he
  recorded e he := by simp at he
  others _ _ := rfl
  claims owner := by simp
  reserves := by simp
  payouts := by simp
  disbursed := by simp
  policies := by simp

theorem dueTo_eq_zero {owner : Address} (h : ¬∃ e∈done, e.owner=owner) :
    dueTo w.triggerEngine i n owner done=0 := by
  apply List.sum_eq_zero
  simp only [List.mem_map]
  intro x hx
  obtain ⟨e,he,rfl⟩ := hx
  rw [if_neg]
  intro ho
  exact h ⟨e,he,ho⟩

/-- The claim ledger in every case: an owner's balance rose by what was due. -/
theorem Ahead.readClaim (h : Ahead net entries i n p z w v progress done) (owner : Address) :
    readClaim v.vault owner=
      PayoutVault.readClaim w.vault owner+dueTo w.triggerEngine i n owner done := by
  rw [PayoutVault.readClaim,h.claims]
  split_ifs with ho
  · rfl
  · rw [dueTo_eq_zero ho,add_zero]
    rfl

theorem Ahead.pay {entry : PayoutEntry} {s' : RiskPool.State} {l' : L} {m : Int}
    (h : Ahead net entries i n p z w v progress done) (hmem : entry∈entries)
    (hnone : v.vault.payout entry.policyId=none) (hpos : 0<due w.triggerEngine i n entry)
    (hpay : RiskPool.payOut T net.riskPool (env.invokedBy net.vault) v.riskPool v.ledger p z
      net.vault (due w.triggerEngine i n entry)=.ok (m,s',l')) :
    Ahead net entries i n p z w
      ⟨s',v.triggerEngine,v.vault.credit env entry (due w.triggerEngine i n entry),l'⟩
      { progress with
        totalDisbursed := progress.totalDisbursed+due w.triggerEngine i n entry
        policiesPaid := progress.policiesPaid+1 } (entry::done) := by
  have hposts := RiskPool.payOut_posts hpay
  have hpayout := payout_credit v.vault env entry (due w.triggerEngine i n entry)
  have hfresh : ∀ e∈done, e.policyId≠entry.policyId := by
    intro e he hid
    obtain ⟨t,ht⟩ := h.recorded e he
    rw [hid,hnone] at ht
    cases ht
  refine ⟨?_,h.engine,?_,?_,?_,?_,?_,?_,?_,?_,?_⟩
  · exact ⟨hposts.wellFormed h.sound.pools,h.sound.uncommitted.posts hposts nofun,
      h.sound.triggers,h.sound.poolRef,h.sound.triggerRef⟩
  · rw [List.nodup_cons]
    exact ⟨fun he => hfresh entry he rfl,h.nodup⟩
  · rw [List.forall_mem_cons]
    exact ⟨⟨hmem,hpos⟩,h.payable⟩
  · rw [List.forall_mem_cons]
    refine ⟨⟨env.timestamp,?_⟩,?_⟩
    · rw [hpayout,if_pos rfl]
    · intro e he
      rw [hpayout,if_neg (hfresh e he)]
      exact h.recorded e he
  · intro id hid
    obtain ⟨hentry,hdone⟩ := List.forall_mem_cons.mp hid
    rw [hpayout,if_neg (Ne.symm hentry)]
    exact h.others id hdone
  · intro owner
    have hclaim : (v.vault.credit env entry (due w.triggerEngine i n entry)).claim owner=
        if owner=entry.owner then
          some (PayoutVault.readClaim v.vault entry.owner+due w.triggerEngine i n entry)
        else v.vault.claim owner := Function.update_apply _ _ _ _
    rw [hclaim,dueTo,List.map_cons,List.sum_cons,← dueTo]
    by_cases ho : owner=entry.owner
    · subst ho
      rw [if_pos rfl,if_pos ⟨entry,List.mem_cons_self,rfl⟩,if_pos rfl,h.readClaim]
      congr 1
      omega
    · rw [if_neg ho,if_neg (Ne.symm ho),zero_add,h.claims]
      simp [Ne.symm ho]
  · rw [hposts.book,List.map_cons,List.sum_cons]
    change (v.riskPool.book p).reserves-_=_
    rw [h.reserves]
    omega
  · rw [hposts.payoutsPaid h.sound.pools,h.payouts,List.map_cons,List.sum_cons]
    simp only [RiskPool.Entry.payoutAt]
    simp
    omega
  · dsimp only
    rw [h.disbursed,List.map_cons,List.sum_cons]
    omega
  · dsimp only
    rw [h.policies,List.length_cons]
    omega

/-- A round of the loop pays its entry if the window pays something for it and it was not paid
before. -/
theorem Ahead.entry {pool trigger : Address} {r r' : BatchRun L} {entry : PayoutEntry}
    (distinct : (entries.map PayoutEntry.policyId).Nodup)
    (unpaid : ∀ e∈entries, w.vault.payout e.policyId=none)
    (h : Ahead net entries i n p z w r.world r.progress done) (hmem : entry∈entries)
    (hr : payEntry T net env pool trigger i n p z r entry=.ok r') :
    r'.progress.state=r.progress.state ∧ ∃ more,
      Ahead net entries i n p z w r'.world r'.progress (more++done) ∧
      r'.paid=r.paid+more.length ∧ (0<due w.triggerEngine i n entry → entry∈more++done) := by
  rcases payEntry_cases hr with ⟨rfl,hpaid⟩ | ⟨amount,-,hamount,hcase⟩
  · refine ⟨rfl,[],h,rfl,fun _ => ?_⟩
    by_contra hnot
    have hsame := h.others entry.policyId fun e he hid => hnot ?_
    · rw [hsame,unpaid entry hmem] at hpaid
      cases hpaid
    · have heq := List.inj_on_of_nodup_map distinct (h.payable e he).1 hmem hid
      rw [← heq]
      exact he
  · have hdue : due w.triggerEngine i n entry=amount := by
      rw [due,← h.engine,hamount]
    rcases hcase with ⟨rfl,hzero⟩ | ⟨m,s',l',hnone,hpos,hpay,rfl⟩
    · refine ⟨rfl,[],h,rfl,fun hpos => ?_⟩
      omega
    · subst hdue
      refine ⟨rfl,[entry],h.pay hmem hnone hpos hpay,rfl,fun _ => ?_⟩
      exact List.mem_cons_self

theorem Ahead.loop {pool trigger : Address} (distinct : (entries.map PayoutEntry.policyId).Nodup)
    (unpaid : ∀ e∈entries, w.vault.payout e.policyId=none) (batch : List PayoutEntry)
    {r r' : BatchRun L} {done : List PayoutEntry}
    (h : Ahead net entries i n p z w r.world r.progress done) (hmem : ∀ e∈batch, e∈entries)
    (hr : batch.foldlM (payEntry T net env pool trigger i n p z) r=.ok r') :
    r'.progress.state=r.progress.state ∧ ∃ more,
      Ahead net entries i n p z w r'.world r'.progress (more++done) ∧
      r'.paid=r.paid+more.length ∧
      ∀ e∈batch, 0<due w.triggerEngine i n e → e∈more++done := by
  induction batch generalizing r done with
  | nil =>
    rw [List.foldlM_nil,pure_eq_ok] at hr
    subst hr
    exact ⟨rfl,[],h,rfl,by simp⟩
  | cons e batch ih =>
    rw [List.foldlM_cons,bind_eq_ok] at hr
    obtain ⟨r₁,hr₁,hrest⟩ := hr
    obtain ⟨he,hbatch⟩ := List.forall_mem_cons.mp hmem
    obtain ⟨hstate,first,hfirst,hpaid,hin⟩ := h.entry distinct unpaid he hr₁
    obtain ⟨hstate',rest,hfinal,hpaid',hin'⟩ := ih hfirst hbatch hrest
    rw [← List.append_assoc] at hfinal hin'
    refine ⟨hstate'.trans hstate,rest++first,hfinal,?_,?_⟩
    · rw [hpaid',hpaid,List.length_append]
      omega
    · rw [List.forall_mem_cons]
      refine ⟨fun hpos => ?_,hin'⟩
      rw [List.append_assoc]
      exact List.mem_append_right _ (hin hpos)

theorem readBatch_writeBatch (s : State) (progress : BatchProgress) :
    readBatch (s.writeBatch i n progress) i n=progress := by
  simp [readBatch,State.writeBatch]

/-- Between two calls the batch record says what the payments were. -/
structure AtRest {L : Type} (net : Network) (entries : List PayoutEntry) (i n p z : Nat)
    (w v : World L) (done : List PayoutEntry) : Prop where
  ahead : Ahead net entries i n p z w v (readBatch v.vault i n) done
  state : (readBatch v.vault i n).state=
    if done=[] then (readBatch w.vault i n).state else .inProgress

theorem AtRest.batch {v' : World L} {paid : Nat} {batch : List PayoutEntry}
    (distinct : (entries.map PayoutEntry.policyId).Nodup)
    (unpaid : ∀ e∈entries, w.vault.payout e.policyId=none)
    (h : AtRest net entries i n p z w v done) (hmem : ∀ e∈batch, e∈entries)
    (hb : payBatch T net env v i n p z batch=.ok (paid,v')) :
    ∃ more, AtRest net entries i n p z w v' (more++done) ∧ paid=more.length ∧
      ∀ e∈batch, 0<due w.triggerEngine i n e → e∈more++done := by
  obtain ⟨pool,trigger,r,-,-,hr,rfl,rfl⟩ := payBatch_loop hb
  obtain ⟨hstate,more,hahead,hpaid,hin⟩ := Ahead.loop distinct unpaid batch
    (r := ⟨v,readBatch v.vault i n,0⟩) h.ahead hmem hr
  rw [Nat.zero_add] at hpaid
  have hsame : r.checkpoint.totalDisbursed=r.progress.totalDisbursed ∧
      r.checkpoint.policiesPaid=r.progress.policiesPaid := by
    unfold BatchRun.checkpoint
    split_ifs <;> exact ⟨rfl,rfl⟩
  have hrecord := readBatch_writeBatch (i := i) (n := n) r.world.vault r.checkpoint
  refine ⟨more,⟨?_,?_⟩,hpaid,hin⟩
  · rw [hrecord]
    exact ⟨hahead.sound.congr rfl rfl rfl rfl,hahead.engine,hahead.nodup,hahead.payable,
      hahead.recorded,hahead.others,hahead.claims,hahead.reserves,hahead.payouts,
      hsame.1.trans hahead.disbursed,hsame.2.trans hahead.policies⟩
  · rw [hrecord,BatchRun.checkpoint,hpaid]
    cases more with
    | nil =>
      rw [if_neg (by simp),hstate]
      exact h.state
    | cons e more => simp

end Steps

section Runs

variable {L : Type} {T : TokenHost L} {net : Network} {entries : List PayoutEntry}
  {i n p z : Nat} {w : World L}

def reported (T : TokenHost L) (net : Network) (w : World L) (a : Env × Action) : Int :=
  match a.2 with
  | .vault (.payBatch i n p z entries) =>
      match payBatch T net (net.outside a.1) w i n p z entries with
      | .ok r => r.1
      | .error _ => 0
  | _ => 0

/-- A call that the machine does not roll back. -/
def Succeeds (T : TokenHost L) (net : Network) (w : World L) (a : Env × Action) : Prop :=
  ((machine T net).step w a).isOk

instance (w : World L) (a : Env × Action) : Decidable (Succeeds T net w a) :=
  inferInstanceAs (Decidable (_=true))

theorem AtRest.run (distinct : (entries.map PayoutEntry.policyId).Nodup)
    (unpaid : ∀ e∈entries, w.vault.payout e.policyId=none)
    (batches : List (Env × List PayoutEntry)) {v : World L} {done : List PayoutEntry}
    (h : AtRest net entries i n p z w v done) (hmem : ∀ b∈batches, ∀ e∈b.2, e∈entries)
    (ok : (machine T net).along (Succeeds T net) v (batchCalls i n p z batches)) :
    ∃ more, AtRest net entries i n p z w
        ((machine T net).run v (batchCalls i n p z batches)) (more++done) ∧
      (machine T net).tally (reported T net) v (batchCalls i n p z batches)=more.length ∧
      ∀ b∈batches, ∀ e∈b.2, 0<due w.triggerEngine i n e → e∈more++done := by
  induction batches generalizing v done with
  | nil => exact ⟨[],h,rfl,by simp⟩
  | cons b batches ih =>
    obtain ⟨hb,hbatches⟩ := List.forall_mem_cons.mp hmem
    obtain ⟨hok,hrest⟩ := ok
    have hstep := (machine T net).step_of_isOk hok
    change execute T net b.1 v (.vault (.payBatch i n p z b.2))=.ok _ at hstep
    simp only [execute,subcall_eq_ok,invoke,except_map_eq_ok,Prod.exists] at hstep
    obtain ⟨paid,u,hpay,hu⟩ := hstep
    obtain ⟨first,hfirst,hpaid,hin⟩ := h.batch distinct unpaid hb hpay
    rw [hu] at hfirst
    obtain ⟨rest,hfinal,htally,hin'⟩ := ih hfirst hbatches hrest
    rw [← List.append_assoc] at hfinal hin'
    refine ⟨rest++first,hfinal,?_,?_⟩
    · have hreported : reported T net v (b.1,.vault (.payBatch i n p z b.2))=first.length := by
        simp only [reported,hpay,hpaid]
      rw [batchCalls,List.map_cons,Machine.tally,hreported,List.length_append,Nat.cast_add,
        add_comm]
      exact congrArg (· + _) htally
    · rw [List.forall_mem_cons]
      refine ⟨fun e he hpos => ?_,hin'⟩
      rw [List.append_assoc]
      exact List.mem_append_right _ (hin e he hpos)

/-- Once the batches covered every entry, the payments are those for the payable entries. -/
theorem AtRest.perm (distinct : (entries.map PayoutEntry.policyId).Nodup)
    {batches : List (Env × List PayoutEntry)} {v : World L} {done : List PayoutEntry}
    (h : AtRest net entries i n p z w v done)
    (covers : ∀ e∈entries, ∃ b∈batches, e∈b.2)
    (paid : ∀ b∈batches, ∀ e∈b.2, 0<due w.triggerEngine i n e → e∈done) :
    done.Perm (payable w.triggerEngine i n entries) := by
  have hnodup : entries.Nodup := distinct.of_map _
  apply (List.perm_ext_iff_of_nodup h.ahead.nodup (hnodup.filter _)).mpr
  intro e
  rw [List.mem_filter,decide_eq_true_iff]
  constructor
  · exact h.ahead.payable e
  · intro he
    obtain ⟨hmem,hpos⟩ := he
    obtain ⟨b,hb,heb⟩ := covers e hmem
    exact paid b hb e heb hpos

/-- Nothing that a batch run leaves behind distinguishes the worlds, times of payment apart. -/
structure SameOutcome (i n p z : Nat) (v v' : World L) : Prop where
  claims : v.vault.claim=v'.vault.claim
  records : ∀ id, (v.vault.payout id).map (fun r => (r.owner,r.amount))=
    (v'.vault.payout id).map fun r => (r.owner,r.amount)
  checkpoint : readBatch v.vault i n=readBatch v'.vault i n
  reserves : (v.riskPool.book p).reserves=(v'.riskPool.book p).reserves
  payouts : v.riskPool.payoutsPaid (p,z)=v'.riskPool.payoutsPaid (p,z)

/-- The order of the payments does not matter. -/
theorem AtRest.same {v v' : World L} {done done' : List PayoutEntry}
    (h : AtRest net entries i n p z w v done) (h' : AtRest net entries i n p z w v' done')
    (perm : done.Perm done') : SameOutcome i n p z v v' := by
  have hsum : (done.map (due w.triggerEngine i n)).sum=
      (done'.map (due w.triggerEngine i n)).sum := (perm.map _).sum_eq
  have hlength := perm.length_eq
  have hdisbursed := h.ahead.disbursed.trans ((congrArg _ hsum).trans h'.ahead.disbursed.symm)
  have hpolicies := h.ahead.policies.trans ((congrArg _ hlength).trans h'.ahead.policies.symm)
  refine ⟨?_,?_,?_,?_,?_⟩
  · funext owner
    have hdue : dueTo w.triggerEngine i n owner done=dueTo w.triggerEngine i n owner done' :=
      (perm.map _).sum_eq
    rw [h.ahead.claims,h'.ahead.claims,hdue]
    simp only [perm.mem_iff]
  · intro id
    by_cases hid : ∃ e∈done, e.policyId=id
    · obtain ⟨e,he,rfl⟩ := hid
      obtain ⟨t,ht⟩ := h.ahead.recorded e he
      obtain ⟨t',ht'⟩ := h'.ahead.recorded e (perm.mem_iff.mp he)
      rw [ht,ht',Option.map_some,Option.map_some]
    · have hnot : ∀ e∈done, e.policyId≠id := fun e he heq => hid ⟨e,he,heq⟩
      have hnot' : ∀ e∈done', e.policyId≠id := fun e he => hnot e (perm.mem_iff.mpr he)
      rw [h.ahead.others id hnot,h'.ahead.others id hnot']
  · have hstate : (readBatch v.vault i n).state=(readBatch v'.vault i n).state := by
      rw [h.state,h'.state]
      simp only [← List.length_eq_zero_iff,hlength]
    cases hv : readBatch v.vault i n
    cases hv' : readBatch v'.vault i n
    simp_all
  · rw [h.ahead.reserves,h'.ahead.reserves,hsum]
  · rw [h.ahead.payouts,h'.ahead.payouts,hsum]

end Runs

section Theorems

variable {L : Type} (T : TokenHost L) (net : Network)

/-- Two runs of successful batch calls from one reachable state, each of which names every one of
the entries and no others, end alike and report as many payments as there are payable entries,
however the entries are cut into batches, ordered and repeated. -/
theorem batches_order_independent (poolAdmin triggerAdmin vaultAdmin policy token : Address)
    (l : L) (history : List (Env × Action)) (i n p z : Nat) (entries : List PayoutEntry)
    (first second : List (Env × List PayoutEntry)) :
    let M := machine T net
    let w := M.run (deployWorld net poolAdmin triggerAdmin vaultAdmin policy token l) history
    (entries.map PayoutEntry.policyId).Nodup → (∀ e∈entries, w.vault.payout e.policyId=none) →
    (∀ batches∈[first,second], (∀ b∈batches, ∀ e∈b.2, e∈entries) ∧
      (∀ e∈entries, ∃ b∈batches, e∈b.2) ∧
      M.along (Succeeds T net) w (batchCalls i n p z batches)) →
    SameOutcome i n p z (M.run w (batchCalls i n p z first))
        (M.run w (batchCalls i n p z second)) ∧
      M.tally (reported T net) w (batchCalls i n p z first)=
        (payable w.triggerEngine i n entries).length ∧
      M.tally (reported T net) w (batchCalls i n p z second)=
        (payable w.triggerEngine i n entries).length := by
  intro M w distinct unpaid runs
  have hsound : w.Sound net := run_sound
    (deployWorld_sound poolAdmin triggerAdmin vaultAdmin policy token l) history
  have hrest : AtRest net entries i n p z w w [] := ⟨.refl hsound,by simp⟩
  have hrun : ∀ batches∈[first,second], ∃ done,
      AtRest net entries i n p z w (M.run w (batchCalls i n p z batches)) done ∧
      M.tally (reported T net) w (batchCalls i n p z batches)=done.length ∧
      done.Perm (payable w.triggerEngine i n entries) := by
    intro batches hb
    obtain ⟨hmem,covers,ok⟩ := runs batches hb
    obtain ⟨done,hdone,htally,hpaid⟩ := hrest.run distinct unpaid batches hmem ok
    rw [List.append_nil] at hdone hpaid
    exact ⟨done,hdone,htally,hdone.perm distinct covers hpaid⟩
  obtain ⟨done,hdone,htally,hperm⟩ := hrun first (by simp)
  obtain ⟨done',hdone',htally',hperm'⟩ := hrun second (by simp)
  refine ⟨hdone.same hdone' (hperm.trans hperm'.symm),?_,?_⟩
  · rw [htally,hperm.length_eq]
  · rw [htally',hperm'.length_eq]

end Theorems

section Sample

def threePolicies : List PayoutEntry := [⟨5,⟨6⟩,60⟩,⟨6,⟨6⟩,30⟩,⟨7,⟨8⟩,20⟩]

def overlappingBatches : List (Env × List PayoutEntry) := [
  (⟨90000,[⟨0⟩]⟩,[⟨5,⟨6⟩,60⟩,⟨6,⟨6⟩,30⟩]),
  (⟨90001,[⟨0⟩]⟩,[⟨6,⟨6⟩,30⟩,⟨7,⟨8⟩,20⟩]),
  (⟨90002,[⟨0⟩]⟩,[⟨5,⟨6⟩,60⟩,⟨6,⟨6⟩,30⟩])]

def singleBatch : List (Env × List PayoutEntry) := [
  (⟨95000,[⟨0⟩]⟩,[⟨7,⟨8⟩,20⟩,⟨5,⟨6⟩,60⟩,⟨6,⟨6⟩,30⟩])]

def payableWorld : World (Address → Address → Int) :=
  (machine TokenHost.ledger plainNet).run
    (deployWorld plainNet ⟨0⟩ ⟨0⟩ ⟨0⟩ ⟨2⟩ ⟨9⟩ RiskPool.plainFunds) insuredWindow

theorem batches_order_independent_overlapping :
    let M := machine TokenHost.ledger plainNet
    SameOutcome 0 7 1 1 (M.run payableWorld (batchCalls 0 7 1 1 overlappingBatches))
        (M.run payableWorld (batchCalls 0 7 1 1 singleBatch)) ∧
      M.tally (reported TokenHost.ledger plainNet) payableWorld
        (batchCalls 0 7 1 1 overlappingBatches)=3 := by
  have distinct : (threePolicies.map PayoutEntry.policyId).Nodup := by decide
  have unpaid : ∀ e∈threePolicies, payableWorld.vault.payout e.policyId=none := by decide +kernel
  have runs : ∀ batches∈[overlappingBatches,singleBatch],
      (∀ b∈batches, ∀ e∈b.2, e∈threePolicies) ∧ (∀ e∈threePolicies, ∃ b∈batches, e∈b.2) ∧
      (machine TokenHost.ledger plainNet).along (Succeeds TokenHost.ledger plainNet) payableWorld
        (batchCalls 0 7 1 1 batches) := by decide +kernel
  have hcount : (payable payableWorld.triggerEngine 0 7 threePolicies).length=3 := by
    decide +kernel
  have h := batches_order_independent TokenHost.ledger plainNet ⟨0⟩ ⟨0⟩ ⟨0⟩ ⟨2⟩ ⟨9⟩
    RiskPool.plainFunds insuredWindow 0 7 1 1 threePolicies overlappingBatches singleBatch
    distinct unpaid runs
  exact ⟨h.1,h.2.1.trans (congrArg _ hcount)⟩

end Sample

end Mvua.PayoutVault
