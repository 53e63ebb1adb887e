import Mvua.Policy.World
import Mathlib.Logic.Relation

namespace Mvua.Policy

/-- The only moves of a policy's state. -/
inductive PolicyState.Advances : PolicyState → PolicyState → Prop where
  | trigger : Advances .active .triggered
  | pay : Advances .triggered .paid
  | expire : Advances .active .expired
  | cancel : Advances .active .cancelled

/-- What one transaction may do to a certificate. -/
structure Evolves {L : Type} (net : Network) (w : World L) (a : Env × Action) (id : Nat)
    (r r' : PolicyRecord) : Prop where
  terms : r'={ r with owner := r'.owner, state := r'.state }
  state : r'.state=r.state ∨ r.state.Advances r'.state
  cancelled : r'.state=.cancelled → r.state=.cancelled ∨ a.1.timestamp < r.windowStart
  expired : r'.state=.expired → r.state=.expired ∨ r.windowEnd≤a.1.timestamp
  owner : r'.owner=r.owner ∨ a.2=.policy (.transfer id r'.owner) ∧
    r.owner∈(net.outside a.1).signers ∧ r.state=.active ∧
    readTransferable w.policy r.poolId=true

/-- What a whole run may do to a certificate. -/
structure Continues (r r' : PolicyRecord) : Prop where
  terms : r'={ r with owner := r'.owner, state := r'.state }
  states : Relation.ReflTransGen PolicyState.Advances r.state r'.state
  owner : r.state≠.active → r'.owner=r.owner

theorem Continues.refl (r : PolicyRecord) : Continues r r := ⟨rfl,.refl,fun _ => rfl⟩

/-- No state returns to active. -/
theorem PolicyState.Advances.left {st st' : PolicyState}
    (h : Relation.ReflTransGen PolicyState.Advances st st') (hne : st≠.active) : st'≠.active := by
  induction h with
  | refl => exact hne
  | tail _ hstep _ => cases hstep <;> simp

theorem Continues.trans {r r' r'' : PolicyRecord} (h : Continues r r') (h' : Continues r' r'') :
    Continues r r'' := by
  refine ⟨?_,h.states.trans h'.states,?_⟩
  · rw [h'.terms,h.terms]
  · intro hne
    rw [h'.owner (PolicyState.Advances.left h.states hne),h.owner hne]

/-- A policy that is paid, expired or cancelled never changes again. -/
theorem Continues.final {r r' : PolicyRecord} (h : Continues r r')
    (hf : r.state=.paid ∨ r.state=.expired ∨ r.state=.cancelled) : r'=r := by
  have hstate : r'.state=r.state := by
    rcases h.states.cases_head with he | ⟨_,hstep,-⟩
    · exact he.symm
    · rcases hf with hf | hf | hf
      all_goals
        rw [hf] at hstep
        cases hstep
  have howner : r'.owner=r.owner := by
    apply h.owner
    rcases hf with hf | hf | hf <;> simp [hf]
  rw [h.terms,hstate,howner]

section Evolution

variable {L : Type} {net : Network} {w : World L} {env : Env} {id : Nat} {r r' : PolicyRecord}

theorem Evolves.refl (a : Env × Action) : Evolves net w a id r r :=
  ⟨rfl,.inl rfl,fun h => .inl h,fun h => .inl h,.inl rfl⟩

theorem Evolves.continues {a : Env × Action} (h : Evolves net w a id r r') : Continues r r' := by
  refine ⟨h.terms,?_,?_⟩
  · rcases h.state with hst | hst
    · rw [hst]
    · exact .single hst
  · intro hne
    rcases h.owner with ho | ⟨-,-,hactive,-⟩
    · exact ho
    · exact absurd hactive hne

theorem Move.evolves {c : Call} (h : Move (net.outside env) w.policy id r c r') :
    Evolves net w (env,.policy c) id r r' := by
  cases h with
  | trigger admin active =>
    refine ⟨rfl,.inr ?_,by simp,by simp,.inl rfl⟩
    rw [active]
    exact .trigger
  | pay admin triggered =>
    refine ⟨rfl,.inr ?_,by simp,by simp,.inl rfl⟩
    rw [triggered]
    exact .pay
  | expire ended active =>
    refine ⟨rfl,.inr ?_,by simp,fun _ => .inr ended,.inl rfl⟩
    rw [active]
    exact .expire
  | transfer dst signed allowed active =>
    exact ⟨rfl,.inl rfl,fun h => .inl h,fun h => .inl h,.inr ⟨rfl,signed,active,allowed⟩⟩

theorem cancelled_evolves (hactive : r.state=.active) (hbefore : env.timestamp < r.windowStart) :
    Evolves net w (env,.policy (.cancel id)) id r { r with state := .cancelled } := by
  refine ⟨rfl,.inr ?_,fun _ => .inr hbefore,by simp,.inl rfl⟩
  rw [hactive]
  exact .cancel

end Evolution

section Minting

variable {L : Type} (T : TokenHost L) (net : Network)

/-- The policy ids that a transaction hands out. -/
def minted (w : World L) : Env × Action → List Nat
  | (env,.policy (.mint buyer p z terms maxPremium metadata)) =>
      match mint T net (net.outside env) w buyer p z terms maxPremium metadata with
      | .ok (id,_) => [id]
      | .error _ => []
  | (env,.policy (.mintBatch payer p z entries)) =>
      match mintBatch T net (net.outside env) w payer p z entries with
      | .ok (ids,_) => ids
      | .error _ => []
  | _ => []

/-- The records are those of the ids handed out so far, which were counted up. -/
structure Issued (w : World L) (ids : List Nat) : Prop where
  ids : ids=List.range' 1 (w.policy.policyCounter.getD 0)
  records : ∀ id, (w.policy.policy id).isSome ↔ 1 ≤ id ∧ id≤w.policy.policyCounter.getD 0

/-- Purchases leave the records there are, and add active ones. -/
structure Extends (w w' : World L) : Prop where
  kept : ∀ id r, w.policy.policy id=some r → w'.policy.policy id=some r
  born : ∀ id r, w'.policy.policy id=some r → w.policy.policy id=some r ∨
    w.policy.policy id=none ∧ r.state=.active

variable {T net}
variable {env : Env} {w w' : World L} {ids : List Nat}

theorem mint_ok {buyer : Address} {p z id : Nat} {terms : PolicyTerms} {maxPremium : Int}
    {metadata : BytesN 32} (h : mint T net env w buyer p z terms maxPremium metadata=.ok (id,w')) :
    ∃ rp, mintOne T net env rp w buyer buyer p z terms maxPremium metadata=.ok (id,w') := by
  simp only [mint,bind_eq_ok] at h
  obtain ⟨-,-,rp,-,hm⟩ := h
  exact ⟨rp,hm⟩

/-- What collections and refunds of premiums keep of a pool, the policy contract keeps. -/
theorem invoke_pool {c : Call} (K : RiskPool.State → Prop)
    (collect : ∀ {env s s' l l' p z src n m}, K s →
      RiskPool.collectPremium T net.riskPool env s l p z src n=.ok (m,s',l') → K s')
    (refund : ∀ {env s s' l l' p z dst n m}, K s →
      RiskPool.refundPremium T net.riskPool env s l p z dst n=.ok (m,s',l') → K s')
    (hk : K w.riskPool) (h : invoke T net env w c=.ok w') : K w'.riskPool := by
  have bought {rp owner payer : Address} {v v' : World L} {p z id : Nat} {terms : PolicyTerms}
      {maxPremium : Int} {metadata : BytesN 32} (hv : K v.riskPool)
      (h : mintOne T net env rp v owner payer p z terms maxPremium metadata=.ok (id,v')) :
      K v'.riskPool := by
    obtain ⟨_,_,_,_,-,-,-,-,hcollect,-,rfl⟩ := mintOne_ok h
    exact collect hv hcollect
  cases c <;> simp only [invoke,except_map_eq_ok,Prod.exists] at h
  case mint buyer p z terms maxPremium metadata =>
    obtain ⟨id,_,hu,rfl⟩ := h
    obtain ⟨rp,hm⟩ := mint_ok hu
    exact bought hk hm
  case mintBatch payer p z entries =>
    obtain ⟨ids,_,hu,rfl⟩ := h
    simp only [mintBatch,bind_eq_ok,pure_eq_ok,Prod.exists,Prod.mk.injEq] at hu
    obtain ⟨-,-,-,-,rp,-,ids',w1,hm,-,rfl⟩ := hu
    refine foldlM_invariant (fun r : List Nat × World L => K r.2.riskPool) ?_ entries _ _ hk hm
    intro r entry r' hr hentry
    obtain ⟨id,-,hone⟩ := mintEntry_ok hentry
    exact bought hr hone
  case cancel id =>
    obtain ⟨refunded,_,hu,rfl⟩ := h
    obtain ⟨r,s',l',-,-,-,-,hrefund,rfl⟩ := cancel_ok hu
    exact refund hk hrefund
  all_goals
    obtain ⟨u,-,rfl⟩ := h
    exact hk

theorem mintBatch_ok {payer : Address} {p z : Nat} {entries : List BatchEntry}
    (h : mintBatch T net env w payer p z entries=.ok (ids,w')) :
    ∃ rp w1, entries.foldlM (mintEntry T net env rp payer p z) ([],w)=.ok (ids,w1) ∧
      w'={ w1 with policy := w1.policy.publish (.batchMinted payer p z entries.length) } := by
  simp only [mintBatch,bind_eq_ok,pure_eq_ok,Prod.exists,Prod.mk.injEq] at h
  obtain ⟨-,-,-,-,rp,-,_,w1,hm,rfl,rfl⟩ := h
  exact ⟨rp,w1,hm,rfl⟩

theorem Issued.fresh (h : Issued w ids) :
    w.policy.policy (w.policy.policyCounter.getD 0+1)=none := by
  rw [← Option.not_isSome_iff_eq_none,h.records]
  omega

theorem Extends.refl (w : World L) : Extends w w := ⟨fun _ _ h => h,fun _ _ h => .inl h⟩

theorem Extends.trans {w'' : World L} (h : Extends w w') (h' : Extends w' w'') :
    Extends w w'' := by
  refine ⟨fun id r hr => h'.kept id r (h.kept id r hr),fun id r hr => ?_⟩
  rcases h'.born id r hr with hr | ⟨hnone,hactive⟩
  · exact h.born id r hr
  · refine .inr ⟨?_,hactive⟩
    cases hw : w.policy.policy id with
    | none => rfl
    | some r₀ =>
      rw [h.kept id r₀ hw] at hnone
      cases hnone

/-- A purchase hands out the next id. -/
theorem mintOne_issues {rp owner payer : Address} {p z id : Nat} {terms : PolicyTerms}
    {maxPremium : Int} {metadata : BytesN 32} (hi : Issued w ids)
    (h : mintOne T net env rp w owner payer p z terms maxPremium metadata=.ok (id,w')) :
    Issued w' (ids++[id]) ∧ Extends w w' := by
  have hfresh := hi.fresh
  obtain ⟨premium,m,s',l',-,-,-,-,-,rfl,rfl⟩ := mintOne_ok h
  refine ⟨⟨?_,?_⟩,?_,?_⟩
  · rw [hi.ids]
    change _=List.range' 1 (w.policy.policyCounter.getD 0+1)
    rw [List.range'_concat,Nat.one_mul,Nat.add_comm 1]
  · intro j
    change ((w.policy.issue _ _ metadata).policy j).isSome ↔
      1≤j ∧ j≤w.policy.policyCounter.getD 0+1
    rw [State.issue_policy]
    split_ifs with hj
    · simp [hj]
    · rw [hi.records]
      omega
  · intro j r hr
    change (w.policy.issue _ _ metadata).policy j=some r
    rw [State.issue_policy,if_neg]
    · exact hr
    · intro hj
      rw [hj,hfresh] at hr
      cases hr
  · intro j r hr
    change (w.policy.issue _ _ metadata).policy j=some r at hr
    rw [State.issue_policy] at hr
    split_ifs at hr with hj
    · rw [Option.some.injEq] at hr
      rw [hj,← hr]
      exact .inr ⟨hfresh,rfl⟩
    · exact .inl hr

/-- The loop over a batch hands out the ids after those handed out before. -/
theorem entries_issue {rp payer : Address} {p z : Nat} {entries : List BatchEntry}
    {more : List Nat} (hi : Issued w ids)
    (h : entries.foldlM (mintEntry T net env rp payer p z) ([],w)=.ok (more,w')) :
    Issued w' (ids++more) ∧ Extends w w' := by
  have hstart : Issued w (ids++[]) := by
    rw [List.append_nil]
    exact hi
  apply foldlM_invariant
    (fun r : List Nat × World L => Issued r.2 (ids++r.1) ∧ Extends w r.2) ?_
    entries _ (more,w') ⟨hstart,.refl w⟩ h
  intro r entry r' hr h
  obtain ⟨id,hids,hone⟩ := mintEntry_ok h
  obtain ⟨hissued,hext⟩ := mintOne_issues hr.1 hone
  rw [hids,← List.append_assoc]
  exact ⟨hissued,hr.2.trans hext⟩

theorem mintBatch_issues {payer : Address} {p z : Nat} {entries : List BatchEntry}
    {more : List Nat} (hi : Issued w ids)
    (h : mintBatch T net env w payer p z entries=.ok (more,w')) :
    Issued w' (ids++more) ∧ Extends w w' := by
  obtain ⟨rp,w1,hm,rfl⟩ := mintBatch_ok h
  obtain ⟨hissued,hext⟩ := entries_issue hi hm
  exact ⟨⟨hissued.ids,hissued.records⟩,hext.kept,hext.born⟩

variable (net) in
/-- Every record evolves, and new ones are active. -/
structure Succeeds (w w' : World L) (a : Env × Action) : Prop where
  kept : ∀ id r, w.policy.policy id=some r →
    ∃ r', w'.policy.policy id=some r' ∧ Evolves net w a id r r'
  born : ∀ id r, w'.policy.policy id=some r →
    (w.policy.policy id=none ∧ r.state=.active) ∨
      ∃ r₀, w.policy.policy id=some r₀ ∧ Evolves net w a id r₀ r

theorem Extends.succeeds (h : Extends w w') (a : Env × Action) : Succeeds net w w' a := by
  refine ⟨fun id r hr => ⟨r,h.kept id r hr,.refl a⟩,fun id r hr => ?_⟩
  rcases h.born id r hr with hr | hnew
  · exact .inr ⟨r,hr,.refl a⟩
  · exact .inl hnew

/-- A transaction that leaves certificates and counter alone. -/
theorem Issued.same {a : Env × Action} (hi : Issued w ids)
    (hp : w'.policy.policy=w.policy.policy)
    (hc : w'.policy.policyCounter=w.policy.policyCounter) :
    Issued w' ids ∧ Succeeds net w w' a := by
  refine ⟨⟨by rw [hc]; exact hi.ids,by rw [hp,hc]; exact hi.records⟩,?_⟩
  apply Extends.succeeds
  exact ⟨fun id r hr => by rw [hp]; exact hr,fun id r hr => .inl (by rw [← hp]; exact hr)⟩

/-- Overwriting one certificate by its evolution. -/
theorem rewrite_succeeds {a : Env × Action} {s' : RiskPool.State} {l' : L} {id : Nat}
    {r r' : PolicyRecord} {e : Event} (hr : w.policy.policy id=some r)
    (h : Evolves net w a id r r') :
    Succeeds net w ⟨s',(w.policy.writePolicy id r').publish e,l'⟩ a := by
  refine ⟨fun j v hv => ?_,fun j v hv => ?_⟩
  · rw [State.rewritten_policy]
    split_ifs with hj
    · subst hj
      rw [hr,Option.some.injEq] at hv
      subst hv
      exact ⟨r',rfl,h⟩
    · exact ⟨v,hv,.refl a⟩
  · rw [State.rewritten_policy] at hv
    split_ifs at hv with hj
    · subst hj
      rw [Option.some.injEq] at hv
      subst hv
      exact .inr ⟨r,hr,h⟩
    · exact .inr ⟨v,hv,.refl a⟩

theorem rewrite_issued {s' : RiskPool.State} {l' : L} {id : Nat} {r r' : PolicyRecord} {e : Event}
    (hi : Issued w ids) (hr : w.policy.policy id=some r) :
    Issued ⟨s',(w.policy.writePolicy id r').publish e,l'⟩ ids := by
  refine ⟨hi.ids,fun j => ?_⟩
  apply Iff.trans _ (hi.records j)
  rw [State.rewritten_policy]
  split_ifs with hj
  · subst hj
    simp [hr]
  · exact Iff.rfl

theorem minted_of_error {a : Env × Action} {e : Failure}
    (h : (machine T net).step w a=.error e) : minted T net w a=[] := by
  unfold minted
  split
  · next env buyer p z terms maxPremium metadata =>
    cases hm : mint T net (net.outside env) w buyer p z terms maxPremium metadata with
    | error e' => rfl
    | ok r => simp [machine,execute,invoke,hm,subcall,Except.map] at h
  · next env payer p z entries =>
    cases hm : mintBatch T net (net.outside env) w payer p z entries with
    | error e' => rfl
    | ok r => simp [machine,execute,invoke,hm,subcall,Except.map] at h
  · rfl

theorem step_succeeds {a : Env × Action} (hi : Issued w ids)
    (h : (machine T net).step w a=.ok w') :
    Issued w' (ids++minted T net w a) ∧ Succeeds net w w' a := by
  have hstep := execute_step T net h
  cases hstep with
  | riskPool env c s' l' hc =>
    rw [show minted T net w (env,.riskPool c)=[] from rfl,List.append_nil]
    exact hi.same rfl rfl
  | mint env buyer rp p z id terms maxPremium metadata _ hm =>
    simp only [machine,execute,invoke,subcall_eq_ok,except_map_eq_ok,Prod.exists] at h
    obtain ⟨id',u,hmint,rfl⟩ := h
    obtain ⟨rp',hone⟩ := mint_ok hmint
    obtain ⟨hissued,hext⟩ := mintOne_issues hi hone
    simp only [minted,hmint]
    exact ⟨hissued,hext.succeeds _⟩
  | mintBatch env payer rp p z entries _ w1 hm =>
    simp only [machine,execute,invoke,subcall_eq_ok,except_map_eq_ok,Prod.exists] at h
    obtain ⟨more,u,hbatch,hu⟩ := h
    obtain ⟨hissued,hext⟩ := mintBatch_issues hi hbatch
    simp only [minted,hbatch]
    rw [← hu]
    exact ⟨hissued,hext.succeeds _⟩
  | cancel env id refunded _ hc =>
    obtain ⟨r,s',l',hr,-,hactive,hbefore,-,rfl⟩ := cancel_ok hc
    rw [show minted T net w (env,.policy (.cancel id))=[] from rfl,List.append_nil]
    exact ⟨rewrite_issued hi hr,rewrite_succeeds hr (cancelled_evolves hactive hbefore)⟩
  | move env c id r r' e hr hm =>
    have hnil : minted T net w (env,.policy c)=[] := by
      cases hm <;> rfl
    rw [hnil,List.append_nil]
    exact ⟨rewrite_issued hi hr,rewrite_succeeds hr hm.evolves⟩
  | metadata env id pointer =>
    rw [show minted T net w (env,.policy (.setMetadata id pointer))=[] from rfl,List.append_nil]
    exact hi.same rfl rfl
  | transferable env p allowed =>
    rw [show minted T net w (env,.policy (.setTransferable p allowed))=[] from rfl,
      List.append_nil]
    exact hi.same rfl rfl

theorem next_succeeds (hi : Issued w ids) (a : Env × Action) :
    Issued ((machine T net).next w a) (ids++minted T net w a) ∧
      Succeeds net w ((machine T net).next w a) a := by
  cases h : (machine T net).step w a with
  | error e =>
    rw [(machine T net).next_of_error h,minted_of_error h,List.append_nil]
    exact ⟨hi,(Extends.refl w).succeeds a⟩
  | ok w' =>
    rw [(machine T net).next_of_ok h]
    exact step_succeeds hi h

end Minting

section Runs

variable {L : Type} (T : TokenHost L) (net : Network)

theorem deployWorld_issued (poolAdmin policyAdmin : Address) (l : L) :
    Issued (deployWorld net poolAdmin policyAdmin l) [] where
  ids := rfl
  records id := by
    simp only [deployWorld,deploy,Option.isSome_none,Bool.false_eq_true,Option.getD_none,false_iff]
    omega

theorem run_continues {w : World L} {ids : List Nat} (hi : Issued w ids)
    (later : List (Env × Action)) {id : Nat} {r : PolicyRecord}
    (hr : w.policy.policy id=some r) :
    ∃ r', ((machine T net).run w later).policy.policy id=some r' ∧ Continues r r' := by
  induction later generalizing w ids r with
  | nil => exact ⟨r,hr,.refl r⟩
  | cons a later ih =>
    obtain ⟨hissued,hnext⟩ : Issued ((machine T net).next w a) (ids++minted T net w a) ∧
        Succeeds net w ((machine T net).next w a) a := next_succeeds hi a
    obtain ⟨r₁,hr₁,hevolves⟩ := hnext.kept id r hr
    obtain ⟨r₂,hr₂,hcontinues⟩ := ih hissued hr₁
    exact ⟨r₂,hr₂,hevolves.continues.trans hcontinues⟩

/-- In every run, ids are counted up and each has its record from then on; a transaction only
adds active records and evolves the others; and a run keeps the terms of a certificate, moves its
state forward, and leaves it alone once it is paid, expired or cancelled. -/
theorem policy_lifecycle (poolAdmin policyAdmin : Address) (l : L)
    (actions : List (Env × Action)) :
    let M := machine T net
    let start := deployWorld net poolAdmin policyAdmin l
    let w := M.run start actions
    let ids := M.log (minted T net) start actions
    ids=List.range' 1 ids.length ∧
    (∀ id, id∈ids ↔ (w.policy.policy id).isSome) ∧
    (∀ a, Succeeds net w (M.next w a) a) ∧
    ∀ id r, w.policy.policy id=some r → r.windowStart < r.windowEnd ∧
      ∀ later, ∃ r', (M.run w later).policy.policy id=some r' ∧ Continues r r' ∧
        (r.state=.paid ∨ r.state=.expired ∨ r.state=.cancelled → r'=r) := by
  intro M start w ids
  have hi : Issued w ids := M.run_log Issued (minted T net)
    (fun w a ids hi => (next_succeeds hi a).1) actions start []
    (deployWorld_issued net poolAdmin policyAdmin l)
  have hs : w.Sound net := run_sound (deployWorld_sound poolAdmin policyAdmin l) actions
  refine ⟨?_,?_,fun a => (next_succeeds hi a).2,fun id r hr => ?_⟩
  · rw [hi.ids,List.length_range']
  · intro id
    rw [hi.ids,hi.records,List.mem_range'_1]
    omega
  · refine ⟨(hs.proper id r hr).window,fun later => ?_⟩
    obtain ⟨r',hr',hcontinues⟩ := run_continues T net hi later hr
    exact ⟨r',hr',hcontinues,hcontinues.final⟩

end Runs

end Mvua.Policy
