import Mvua.Framework.Atomic
import Mvua.Policy.Purchase

namespace Mvua.Policy

/-- What the contract stores; the events it publishes are not stored. -/
def State.storage (s : State) : State := { s with events := [] }

/-- The same storage of both contracts, and the same ledger. -/
structure Alike {L : Type} (w u : World L) : Prop where
  riskPool : w.riskPool=u.riskPool
  policy : w.policy.storage=u.policy.storage
  ledger : w.ledger=u.ledger

/-- A transaction in which the payer buys one entry alone: a batch of one, or a purchase of its own
if the policy is to be the payer's. -/
inductive Buys (net : Network) (payer : Address) (p z : Nat) :
    BatchEntry → Env × Action → Prop where
  | alone (env : Env) (entry : BatchEntry) (signed : payer∈(net.outside env).signers) :
      Buys net payer p z entry (env,.policy (.mintBatch payer p z [entry]))
  | own (env : Env) (terms : PolicyTerms) (maxPremium : Int) (metadata : BytesN 32)
      (signed : payer∈(net.outside env).signers) :
      Buys net payer p z ⟨payer,terms,maxPremium,metadata⟩
        (env,.policy (.mint payer p z terms maxPremium metadata))

section Agreement

variable {L : Type} {T : TokenHost L} {net : Network} {env env' : Env} {w u : World L}
  {payer rp : Address} {p z : Nat}

theorem Alike.counter (h : Alike w u) : w.policy.policyCounter=u.policy.policyCounter := by
  have hcounter := congrArg State.policyCounter h.policy
  exact hcounter

theorem Alike.poolRef (h : Alike w u) : w.policy.riskPool=u.policy.riskPool := by
  have hpool := congrArg State.riskPool h.policy
  exact hpool

theorem State.issue_storage (s : State) (id : Nat) (r : PolicyRecord) (metadata : BytesN 32) :
    (s.issue id r metadata).storage=(s.storage.issue id r metadata).storage := rfl

/-- A premium depends on who signs only through the payer. -/
theorem collectPremium_signed {self : Address} {s : RiskPool.State} {l : L} {amount : Int}
    (h : payer∈env.signers) (h' : payer∈env'.signers) :
    RiskPool.collectPremium T self env s l p z payer amount=
      RiskPool.collectPremium T self env' s l p z payer amount := by
  simp only [RiskPool.collectPremium,requireAuth_of_mem h,requireAuth_of_mem h']

theorem callCollectPremium_agree (ha : Alike w u) (h : payer∈env.signers)
    (h' : payer∈env'.signers) (amount : Int) :
    Agrees id (fun a b => a.1=b.1 ∧ a.2.policy=w.policy ∧ Alike a.2 b.2)
      (callCollectPremium T net env rp w p z payer amount)
      (callCollectPremium T net env' rp u p z payer amount) := by
  have hinvoked : payer∈(env.invokedBy net.policy).signers := List.mem_cons_of_mem _ h
  have hinvoked' : payer∈(env'.invokedBy net.policy).signers := List.mem_cons_of_mem _ h'
  unfold callCollectPremium
  split_ifs
  · rw [ha.riskPool,ha.ledger,collectPremium_signed hinvoked hinvoked']
    apply ((Agrees.same _).map_left _).map_right
    · intro a b hab
      exact hab
    · intro a b hab
      subst hab
      exact ⟨rfl,rfl,rfl,ha.policy,rfl⟩
  · exact .error _

/-- In worlds alike a purchase ends alike, whoever else signs and at whatever time. -/
theorem mintOne_agree (ha : Alike w u) (h : payer∈env.signers) (h' : payer∈env'.signers)
    (owner : Address) (terms : PolicyTerms) (maxPremium : Int) (metadata : BytesN 32) :
    Agrees id (fun a b => a.2.policy.riskPool=w.policy.riskPool ∧ Alike a.2 b.2)
      (mintOne T net env rp w owner payer p z terms maxPremium metadata)
      (mintOne T net env' rp u owner payer p z terms maxPremium metadata) := by
  have hquote : callPremiumFor net rp w p terms.coverage=
      callPremiumFor net rp u p terms.coverage := by
    rw [callPremiumFor,callPremiumFor,ha.riskPool]
  unfold mintOne
  rw [hquote]
  apply (Agrees.same _).bind
  intro _ _ _
  apply (Agrees.same _).bind
  intro _ _ _
  apply (Agrees.same _).bind
  intro premium _ hpremium
  subst hpremium
  apply (Agrees.same _).bind
  intro _ _ _
  apply (callCollectPremium_agree ha h h' premium).liftTrap.bind
  intro a b hab
  obtain ⟨m,v⟩ := a
  obtain ⟨_,v'⟩ := b
  obtain ⟨hm,hkept,hv⟩ := hab
  dsimp only at hm hkept hv ⊢
  subst hm
  rw [hv.counter]
  apply (Agrees.same _).bind
  intro id _ hid
  subst hid
  have hpool : v.policy.riskPool=w.policy.riskPool := congrArg State.riskPool hkept
  apply Agrees.ok
  refine ⟨hpool,hv.riskPool,?_,hv.ledger⟩
  change (v.policy.issue id (terms.record owner p z premium m) metadata).storage=
    (v'.policy.issue id (terms.record owner p z premium m) metadata).storage
  rw [State.issue_storage,hv.policy,← State.issue_storage]

/-- A batch of one is the purchase of its entry, announced once more. -/
theorem mintBatch_single (entry : BatchEntry) (h : payer∈env.signers)
    (hrp : w.policy.riskPool=some rp) :
    ((mintBatch T net env w payer p z [entry]).map fun r => r.2)=
      (mintOne T net env rp w entry.owner payer p z entry.terms entry.maxPremium
        entry.metadata).map fun r =>
          { r.2 with policy := r.2.policy.publish (.batchMinted payer p z 1) } := by
  simp only [mintBatch,requireAuth_of_mem h,readRiskPool,hrp,okOr,ok_bind,List.foldlM_cons,
    List.foldlM_nil,mintEntry]
  cases mintOne T net env rp w entry.owner payer p z entry.terms entry.maxPremium
    entry.metadata with
  | ok r => rfl
  | error e => rfl

theorem mint_eq {terms : PolicyTerms} {maxPremium : Int} {metadata : BytesN 32}
    (h : payer∈env.signers) (hrp : w.policy.riskPool=some rp) :
    mint T net env w payer p z terms maxPremium metadata=
      mintOne T net env rp w payer payer p z terms maxPremium metadata := by
  simp only [mint,requireAuth_of_mem h,readRiskPool,hrp,okOr,ok_bind]

/-- A purchase alone ends as its round in a batch does. -/
theorem Buys.agree {entry : BatchEntry} {a : Env × Action} (hb : Buys net payer p z entry a)
    (ha : Alike w u) (h : payer∈env.signers) (hrp : w.policy.riskPool=some rp) :
    Agrees (Abort.toTrap Error.code)
      (fun r v => r.2.policy.riskPool=some rp ∧ Alike r.2 v)
      (mintOne T net env rp w entry.owner payer p z entry.terms entry.maxPremium entry.metadata)
      ((machine T net).step u a) := by
  have hrp' : u.policy.riskPool=some rp := ha.poolRef.symm.trans hrp
  cases hb with
  | alone env' _ signed =>
    apply Agrees.subcall
    rw [invoke,mintBatch_single entry signed hrp']
    apply (mintOne_agree ha h signed _ _ _ _).map_right
    intro r v hr
    obtain ⟨hpool,halike⟩ := hr
    exact ⟨hpool.trans hrp,halike.riskPool,halike.policy,halike.ledger⟩
  | own env' terms maxPremium metadata signed =>
    apply Agrees.subcall
    rw [invoke,mint_eq signed hrp']
    apply (mintOne_agree ha h signed _ _ _ _).map_right
    intro r v hr
    exact ⟨hr.1.trans hrp,hr.2⟩

/-- A round of the loop ends as the purchase of its entry alone. -/
theorem mintEntry_agree {entry : BatchEntry} {a : Env × Action} {r : List Nat × World L}
    (h : payer∈env.signers) (hr : r.2.policy.riskPool=some rp ∧ Alike r.2 u)
    (hb : Buys net payer p z entry a) :
    Agrees (Abort.toTrap Error.code)
      (fun r v => r.2.policy.riskPool=some rp ∧ Alike r.2 v)
      (mintEntry T net env rp payer p z r entry) ((machine T net).step u a) := by
  change Agrees _ _ ((mintOne T net env rp r.2 entry.owner payer p z entry.terms entry.maxPremium
    entry.metadata).map fun x => (r.1++[x.1],x.2)) _
  apply (hb.agree hr.2 h hr.1).map_left
  intro x v hx
  exact hx

/-- Without a pool to buy from, no purchase succeeds. -/
theorem Buys.unset {entry : BatchEntry} {a : Env × Action} (hb : Buys net payer p z entry a)
    (hrp : u.policy.riskPool=none) :
    (machine T net).step u a=.error (.contract Error.notInitialized.code) := by
  cases hb with
  | alone env' _ signed =>
    simp only [machine,execute,invoke,mintBatch,requireAuth_of_mem signed,readRiskPool,hrp,okOr,
      ok_bind]
    rfl
  | own env' terms maxPremium metadata signed =>
    simp only [machine,execute,invoke,mint,requireAuth_of_mem signed,readRiskPool,hrp,okOr,ok_bind]
    rfl

/-- A batch ends as its purchases do one after the other, taken as one. -/
theorem mintBatch_agree {entries : List BatchEntry} {purchases : List (Env × Action)}
    (h : payer∈env.signers) (hpos : 0<entries.length) (hmax : entries.length ≤ maxBatch)
    (hbuys : List.Forall₂ (Buys net payer p z) entries purchases) :
    Agrees (Abort.toTrap Error.code) (fun r v => Alike r.2 v)
      (mintBatch T net env w payer p z entries) ((machine T net).atomic w purchases) := by
  have hcount : (failIf (entries.length=0 ∨ entries.length>maxBatch) .invalidBatch :
      Result Error Unit)=.ok () := by
    rw [failIf_eq_ok]
    omega
  simp only [mintBatch,requireAuth_of_mem h,hcount,ok_bind]
  cases hrp : w.policy.riskPool with
  | none =>
    cases hbuys with
    | nil => cases hpos
    | cons hb _ =>
      rw [Machine.atomic_cons,hb.unset hrp]
      simp only [readRiskPool,hrp,okOr,error_bind]
      exact .error _
  | some rp =>
    simp only [readRiskPool,hrp,okOr,ok_bind]
    change Agrees _ _ ((entries.foldlM (mintEntry T net env rp payer p z) ([],w)).map fun r =>
      (r.1,{ r.2 with policy := r.2.policy.publish (.batchMinted payer p z entries.length) })) _
    apply (Agrees.foldlM hbuys (fun _ _ _ _ hr hb => mintEntry_agree h hr hb) _).map_left
    · intro r v hr
      exact ⟨hr.2.riskPool,hr.2.policy,hr.2.ledger⟩
    · exact ⟨hrp,rfl,rfl,rfl⟩

theorem step_agree {entries : List BatchEntry} {purchases : List (Env × Action)}
    (h : payer∈(net.outside env).signers) (hpos : 0<entries.length)
    (hmax : entries.length ≤ maxBatch)
    (hbuys : List.Forall₂ (Buys net payer p z) entries purchases) :
    Agrees id Alike ((machine T net).step w (env,.policy (.mintBatch payer p z entries)))
      ((machine T net).atomic w purchases) := by
  apply Agrees.subcall_left
  apply (mintBatch_agree h hpos hmax hbuys).map_left
  intro r v hr
  exact hr

end Agreement

/-- What policies cost together, and what is reserved for them. -/
def grossOf (records : List PolicyRecord) : Int := (records.map PolicyRecord.premiumPaid).sum
def reservedFor (records : List PolicyRecord) : Int := (records.map PolicyRecord.netReserved).sum

/-- The record is the certificate of an entry, bought at the quoted price. -/
structure Certifies (s : RiskPool.State) (p z : Nat) (entry : BatchEntry) (r : PolicyRecord) :
    Prop where
  record : r=entry.terms.record entry.owner p z r.premiumPaid r.netReserved
  quoted : RiskPool.premiumFor s p entry.terms.coverage=.ok r.premiumPaid
  capped : r.premiumPaid ≤ entry.maxPremium

/-- The payer bought the entries: they have the next ids in order, each with its certificate and
metadata, and the money moved by what the certificates say. -/
structure Sold {L : Type} (T : TokenHost L) (c : RiskPool.PoolConfig) (payer : Address) (p z : Nat)
    (w w' : World L) (entries : List BatchEntry) (ids : List Nat) (records : List PolicyRecord) :
    Prop where
  consecutive : ids=List.range' (w.policy.policyCounter.getD 0+1) entries.length
  counter : w'.policy.policyCounter.getD 0=w.policy.policyCounter.getD 0+entries.length
  certified : List.Forall₂ (Certifies w.riskPool p z) entries records
  stored : ids.map w'.policy.policy=records.map some
  metadata : ids.map w'.policy.metaPointer=entries.map fun entry => some entry.metadata
  others : ∀ id, id∉ids → w'.policy.policy id=w.policy.policy id ∧
    w'.policy.metaPointer id=w.policy.metaPointer id
  config : w'.riskPool.poolConfig=w.riskPool.poolConfig
  debit : T.balance w'.ledger c.token payer=T.balance w.ledger c.token payer-grossOf records
  premiums : (w'.riskPool.book p).premiumsIn z=
    (w.riskPool.book p).premiumsIn z+reservedFor records
  reserves : (w'.riskPool.book p).reserves=(w.riskPool.book p).reserves+reservedFor records
  treasury : reservedFor records=grossOf records-
    ((w'.riskPool.book p).treasury-(w.riskPool.book p).treasury)

section Sales

variable {L : Type} {T : TokenHost L} {net : Network} {env : Env} {w w' w'' : World L}
  {c : RiskPool.PoolConfig} {payer rp : Address} {p z : Nat} {entries entries' : List BatchEntry}
  {ids ids' : List Nat} {records records' : List PolicyRecord}

@[simp] theorem grossOf_append (records records' : List PolicyRecord) :
    grossOf (records++records')=grossOf records+grossOf records' := by
  simp [grossOf]

@[simp] theorem reservedFor_append (records records' : List PolicyRecord) :
    reservedFor (records++records')=reservedFor records+reservedFor records' := by
  simp [reservedFor]

theorem Sold.refl (w : World L) : Sold T c payer p z w w [] [] [] := by
  constructor <;> simp [grossOf,reservedFor]

theorem Sold.apart (h : Sold T c payer p z w w' entries ids records)
    (h' : Sold T c payer p z w' w'' entries' ids' records') : ∀ id∈ids, id∉ids' := by
  intro id hid hid'
  rw [h.consecutive,List.mem_range'_1] at hid
  rw [h'.consecutive,List.mem_range'_1,h.counter] at hid'
  omega

/-- One sale after another. -/
theorem Sold.trans (h : Sold T c payer p z w w' entries ids records)
    (h' : Sold T c payer p z w' w'' entries' ids' records') :
    Sold T c payer p z w w'' (entries++entries') (ids++ids') (records++records') := by
  have hkept := fun id hid => h'.others id (h.apart h' id hid)
  refine ⟨?_,?_,?_,?_,?_,?_,h'.config.trans h.config,?_,?_,?_,?_⟩
  · rw [h'.consecutive,h.counter,h.consecutive,List.length_append,add_right_comm,
      List.range'_append_1]
  · rw [h'.counter,h.counter,List.length_append,add_assoc]
  · apply List.rel_append h.certified
    apply h'.certified.imp
    intro entry r hr
    have hquoted := hr.quoted
    rw [RiskPool.premiumFor,RiskPool.readConfig,h.config] at hquoted
    exact ⟨hr.record,hquoted,hr.capped⟩
  · have hfirst : ids.map w''.policy.policy=ids.map w'.policy.policy :=
      List.map_congr_left fun id hid => (hkept id hid).1
    rw [List.map_append,hfirst,h.stored,h'.stored,List.map_append]
  · have hfirst : ids.map w''.policy.metaPointer=ids.map w'.policy.metaPointer :=
      List.map_congr_left fun id hid => (hkept id hid).2
    rw [List.map_append,hfirst,h.metadata,h'.metadata,List.map_append]
  · intro id hid
    rw [List.mem_append,not_or] at hid
    have hsecond := h'.others id hid.2
    have hfirst := h.others id hid.1
    exact ⟨hsecond.1.trans hfirst.1,hsecond.2.trans hfirst.2⟩
  · rw [h'.debit,h.debit,grossOf_append,sub_sub]
  · rw [h'.premiums,h.premiums,reservedFor_append,add_assoc]
  · rw [h'.reserves,h.reserves,reservedFor_append,add_assoc]
  · have hfirst := h.treasury
    have hsecond := h'.treasury
    rw [grossOf_append,reservedFor_append]
    omega

/-- A single purchase sells its entry. -/
theorem mintOne_sold {entry : BatchEntry} {id : Nat} (hT : T.Exact) (hne : payer≠net.riskPool)
    (hc : w.riskPool.poolConfig p=some c)
    (h : mintOne T net env rp w entry.owner payer p z entry.terms entry.maxPremium
      entry.metadata=.ok (id,w')) :
    ∃ r, Sold T c payer p z w w' [entry] [id] [r] := by
  obtain ⟨premium,m,s',l',-,-,hquoted,hmax,hcollect,rfl,rfl⟩ := mintOne_ok h
  obtain ⟨hconfig,hpremiums,hreserves,htreasury⟩ := RiskPool.collectPremium_moves hcollect
  obtain ⟨d,_,_,_,_,_,hd,-,-,-,-,-,-,-,-,-,hl,-⟩ := RiskPool.collectPremium_ok hcollect
  rw [hc,Option.some.injEq] at hd
  subst hd
  let id := w.policy.policyCounter.getD 0+1
  let r := entry.terms.record entry.owner p z premium m
  have hgross : grossOf [r]=premium := by simp [grossOf,r,PolicyTerms.record]
  have hreserved : reservedFor [r]=m := by simp [reservedFor,r,PolicyTerms.record]
  refine ⟨r,rfl,rfl,?_,?_,?_,?_,hconfig,?_,?_,?_,?_⟩
  · exact .cons ⟨rfl,hquoted,hmax⟩ .nil
  · simp [State.issue_policy,r]
  · simp [State.issue,State.publish,State.writeMetaPointer]
  · intro j hj
    rw [List.mem_singleton] at hj
    rw [State.issue_policy,if_neg hj]
    refine ⟨rfl,?_⟩
    exact Function.update_of_ne hj _ _
  · rw [hgross]
    exact hT.debit _ _ _ _ _ _ hl hne
  · rw [hreserved]
    exact hpremiums
  · rw [hreserved]
    exact hreserves
  · rw [hgross,hreserved]
    exact htreasury

/-- The loop sells the entries one after the other. -/
theorem foldlM_sold (hT : T.Exact) (hne : payer≠net.riskPool)
    (hc : w.riskPool.poolConfig p=some c)
    (h : entries.foldlM (mintEntry T net env rp payer p z) (ids,w)=.ok (ids',w')) :
    ∃ sold records, ids'=ids++sold ∧ Sold T c payer p z w w' entries sold records := by
  induction entries generalizing ids w with
  | nil =>
    rw [List.foldlM_nil,pure_eq_ok,Prod.mk.injEq] at h
    obtain ⟨rfl,rfl⟩ := h
    exact ⟨[],[],(List.append_nil _).symm,.refl _⟩
  | cons entry entries ih =>
    rw [List.foldlM_cons,bind_eq_ok] at h
    obtain ⟨⟨ids1,w1⟩,hround,hrest⟩ := h
    obtain ⟨id,hids,hone⟩ := mintEntry_ok hround
    dsimp only at hids hone
    obtain ⟨r,hsold⟩ := mintOne_sold hT hne hc hone
    have hc1 : w1.riskPool.poolConfig p=some c := by rw [hsold.config,hc]
    obtain ⟨sold,records,hsplit,hothers⟩ := ih hc1 hrest
    refine ⟨id::sold,r::records,?_,hsold.trans hothers⟩
    rw [hsplit,hids,List.append_assoc,List.singleton_append]

theorem mintBatch_guards (h : mintBatch T net env w payer p z entries=.ok (ids,w')) :
    payer∈env.signers ∧ 0<entries.length ∧ entries.length ≤ maxBatch := by
  simp only [mintBatch,bind_eq_ok,requireAuth_eq_ok,failIf_eq_ok] at h
  obtain ⟨-,hsigned,-,hcount,-⟩ := h
  exact ⟨hsigned,by omega,by omega⟩

theorem mintBatch_sold (hT : T.Exact) (hne : payer≠net.riskPool)
    (h : mintBatch T net env w payer p z entries=.ok (ids,w')) :
    ∃ c records, w.riskPool.poolConfig p=some c ∧
      Sold T c payer p z w w' entries ids records := by
  obtain ⟨-,hpos,-⟩ := mintBatch_guards h
  obtain ⟨rp,w1,hloop,rfl⟩ := mintBatch_ok h
  have hconfig : ∃ c, w.riskPool.poolConfig p=some c := by
    cases entries with
    | nil => cases hpos
    | cons entry entries =>
      rw [List.foldlM_cons,bind_eq_ok] at hloop
      obtain ⟨r,hround,-⟩ := hloop
      obtain ⟨id,-,hone⟩ := mintEntry_ok hround
      obtain ⟨_,_,_,_,-,-,hquoted,-⟩ := mintOne_ok hone
      simp only [RiskPool.premiumFor,bind_eq_ok,RiskPool.readConfig_eq_ok] at hquoted
      obtain ⟨c,hc,-⟩ := hquoted
      exact ⟨c,hc⟩
  obtain ⟨c,hc⟩ := hconfig
  obtain ⟨sold,records,hids,hsold⟩ := foldlM_sold hT hne hc hloop
  rw [List.nil_append] at hids
  subst hids
  exact ⟨c,records,hc,hsold.consecutive,hsold.counter,hsold.certified,hsold.stored,hsold.metadata,
    hsold.others,hsold.config,hsold.debit,hsold.premiums,hsold.reserves,hsold.treasury⟩

end Sales

section Theorems

variable {L : Type} (T : TokenHost L) (net : Network)

/-- From any state a batch is its purchases made one at a time by the same payer, at whatever
times: it succeeds exactly when all of them do, with the same storage and balances, and sells the
entries as they do. If one of them fails, so does the batch, and leaves nothing. -/
theorem batch_is_its_purchases (hT : T.Exact) (w : World L) (env : Env) (payer : Address)
    (p z : Nat) (entries : List BatchEntry) (purchases : List (Env × Action))
    (hbuys : List.Forall₂ (Buys net payer p z) entries purchases) :
    let M := machine T net
    let batch := (env,Action.policy (.mintBatch payer p z entries))
    (∀ ids w', mintBatch T net (net.outside env) w payer p z entries=.ok (ids,w') →
      M.next w batch=w' ∧ M.succeeds w purchases ∧ Alike w' (M.run w purchases) ∧
      ∃ c records, w.riskPool.poolConfig p=some c ∧
        Sold T c payer p z w w' entries ids records) ∧
    (payer∈(net.outside env).signers → 0<entries.length → entries.length ≤ maxBatch →
      ((M.step w batch).isOk ↔ M.succeeds w purchases) ∧
      ∀ before a after e, purchases=before++a::after → M.succeeds w before →
        M.step (M.run w before) a=.error e →
        M.step w batch=.error e ∧ M.next w batch=w) := by
  intro M batch
  refine ⟨?_,?_⟩
  · intro ids w' h
    have hstep : M.step w batch=.ok w' := by
      change subcall Error.code
        ((mintBatch T net (net.outside env) w payer p z entries).map fun r => r.2)=.ok w'
      rw [h]
      rfl
    obtain ⟨hsigned,hpos,hmax⟩ := mintBatch_guards h
    have hagree : Agrees id Alike (M.step w batch) (M.atomic w purchases) :=
      step_agree hsigned hpos hmax hbuys
    rw [hstep] at hagree
    obtain ⟨u,hu,halike⟩ := hagree.of_ok
    obtain ⟨hsucceeds,hrun⟩ := M.atomic_eq_ok.mp hu
    rw [← hrun] at halike
    exact ⟨M.next_of_ok hstep,hsucceeds,halike,mintBatch_sold hT (signer_outside hsigned).1 h⟩
  · intro hsigned hpos hmax
    have hagree : Agrees id Alike (M.step w batch) (M.atomic w purchases) :=
      step_agree hsigned hpos hmax hbuys
    refine ⟨?_,?_⟩
    · rw [hagree.isOk_eq]
      exact M.atomic_isOk
    · intro before a after e hsplit hbefore ha
      rw [hsplit,M.atomic_error hbefore ha] at hagree
      obtain ⟨e',hfails,he⟩ := hagree.of_error
      rw [id] at he
      subst he
      exact ⟨hfails,M.next_of_error hfails⟩

end Theorems

section Sample

def threeEntries : List BatchEntry :=
  [⟨⟨6⟩,laterTerms,100,1⟩,⟨⟨3⟩,laterTerms,100,2⟩,⟨⟨7⟩,laterTerms,120,3⟩]

/-- The same entries one at a time, the second as a purchase of the payer's own. -/
def threePurchases : List (Env × Action) := [
  (RiskPool.plainEnv,.policy (.mintBatch ⟨3⟩ 1 1 [⟨⟨6⟩,laterTerms,100,1⟩])),
  (⟨1001,[⟨3⟩]⟩,.policy (.mint ⟨3⟩ 1 1 laterTerms 100 2)),
  (⟨1002,[⟨3⟩]⟩,.policy (.mintBatch ⟨3⟩ 1 1 [⟨⟨7⟩,laterTerms,120,3⟩]))]

/-- The fee of 10 on each premium of 100 reaches its cap of 15 in the second entry. -/
theorem batch_is_its_purchases_capped :
    ∃ w' records, mintBatch TokenHost.ledger plainNet (plainNet.outside RiskPool.plainEnv)
        pricedWorld ⟨3⟩ 1 1 threeEntries=.ok ([1,2,3],w') ∧
      Alike w' ((machine TokenHost.ledger plainNet).run pricedWorld threePurchases) ∧
      Sold TokenHost.ledger feeConfig ⟨3⟩ 1 1 pricedWorld w' threeEntries [1,2,3] records ∧
      records.map PolicyRecord.netReserved=[90,95,100] := by
  have hbuys : List.Forall₂ (Buys plainNet ⟨3⟩ 1 1) threeEntries threePurchases :=
    .cons (.alone _ _ (by decide)) (.cons (.own _ _ _ _ (by decide))
      (.cons (.alone _ _ (by decide)) .nil))
  have hbatch : (mintBatch TokenHost.ledger plainNet (plainNet.outside RiskPool.plainEnv)
      pricedWorld ⟨3⟩ 1 1 threeEntries).map (fun r =>
        (r.1,r.1.map fun id => (r.2.policy.policy id).map PolicyRecord.netReserved))=
      .ok ([1,2,3],[some 90,some 95,some 100]) := by
    decide +kernel
  have hfees : pricedWorld.riskPool.poolConfig 1=some feeConfig := by decide +kernel
  simp only [except_map_eq_ok,Prod.exists,Prod.mk.injEq] at hbatch
  obtain ⟨ids,w',hmint,rfl,hnets⟩ := hbatch
  have h := (batch_is_its_purchases TokenHost.ledger plainNet TokenHost.ledger_exact pricedWorld
    RiskPool.plainEnv ⟨3⟩ 1 1 threeEntries threePurchases hbuys).1 _ w' hmint
  obtain ⟨-,-,halike,c,records,hc,hsold⟩ := h
  rw [hfees,Option.some.injEq] at hc
  subst hc
  refine ⟨w',records,hmint,halike,hsold,?_⟩
  have hstored := congrArg (List.map (Option.map PolicyRecord.netReserved)) hsold.stored
  rw [List.map_map,List.map_map] at hstored
  have hsome : (records.map PolicyRecord.netReserved).map some=[some 90,some 95,some 100] := by
    rw [List.map_map,← hnets]
    exact hstored.symm
  exact List.map_injective_iff.mpr (Option.some_injective _) hsome

end Sample

end Mvua.Policy
