import Mvua.Policy.Premiums
import Mvua.RiskPool.Holdings

namespace Mvua.Policy

/-- A call of a contract, or a token transfer that its sender signed. -/
inductive Transaction where
  | call (a : Action)
  | transfer (token src dst : Address) (amount : Int)

section Machine

variable {L : Type} (T : TokenHost L) (net : Network)

/-- The contracts among other users of their tokens. -/
def market : Machine (World L) (Env × Transaction) Failure where
  step
    | w,(env,.call a) => execute T net env w a
    | w,(env,.transfer token src dst amount) =>
        if src∈(net.outside env).signers then
          match T.transfer w.ledger token src dst amount with
          | some ledger => .ok { w with ledger }
          | none => .error .host
        else .error .auth

/-- The transaction does not configure another policy contract. -/
def OnlyOwnPolicy (w : World L) : Env × Transaction → Prop
  | (env,.call a) => OnlyPolicy T net w (env,a)
  | (_,.transfer _ _ _ _) => True

/-- The invariant of a run: the certificates are accounted for, the figures of the pools are in
range, and the pool contract has the tokens that its books hold. -/
structure Funded (w : World L) : Prop where
  accounted : ∃ log, Accounted net w log
  bounded : w.riskPool.Bounded
  covers : RiskPool.Covers T net.riskPool w.riskPool w.ledger

end Machine

section Steps

variable {L : Type} {T : TokenHost L} {net : Network} {w w' : World L}

theorem riskPool_unsigned (env : Env) (hnet : net.riskPool≠net.policy) :
    net.riskPool∉((net.outside env).invokedBy net.policy).signers := by
  simp [Env.invokedBy,Network.outside,hnet]

/-- What every call of the pool keeps is kept by the policy contract's sub-calls too. -/
theorem Step.pool_invariant (I : RiskPool.State → L → Prop) (hnet : net.riskPool≠net.policy)
    (keep : ∀ env c s l s' l', net.riskPool∉env.signers → s.WellFormed → I s l →
      RiskPool.invoke T net.riskPool env c s l=.ok (s',l') → I s' l')
    {a : Env × Action} (hs : w.Sound net) (hi : I w.riskPool w.ledger)
    (h : Step T net w a w') : I w'.riskPool w'.ledger := by
  have hmint : ∀ {env : Env} {rp owner payer : Address} {v v' : World L} {p z id : Nat}
      {terms : PolicyTerms} {maxPremium : Int} {metadata : BytesN 32}, v.Sound net →
      I v.riskPool v.ledger →
      mintOne T net (net.outside env) rp v owner payer p z terms maxPremium metadata=
        .ok (id,v') → I v'.riskPool v'.ledger := by
    intro env rp owner payer v v' p z id terms maxPremium metadata hv hi hm
    obtain ⟨premium,m,s',l',-,-,-,-,hcollect,-,rfl⟩ := mintOne_ok hm
    apply keep _ (.collectPremium p z payer premium) _ _ _ _ (riskPool_unsigned env hnet) hv.pools
      hi
    simp [RiskPool.invoke,hcollect,Except.map]
  cases h with
  | riskPool env c s' l' hc =>
    exact keep _ c _ _ _ _ (fun hsigned => (signer_outside hsigned).1 rfl) hs.pools hi hc
  | mint env buyer rp p z id terms maxPremium metadata _ hm => exact hmint hs hi hm
  | mintBatch env payer rp p z entries ids w1 hm =>
    have hend := foldlM_invariant
      (fun r : List Nat × World L => r.2.Sound net ∧ I r.2.riskPool r.2.ledger) ?_ entries
      _ (ids,w1) ⟨hs,hi⟩ hm
    · exact hend.2
    · intro r entry r' hr hone
      obtain ⟨id,-,hentry⟩ := mintEntry_ok hone
      exact ⟨mintOne_sound hr.1 hentry,hmint hr.1 hr.2 hentry⟩
  | cancel env id refunded _ hc =>
    obtain ⟨r,s',l',-,-,-,-,hrefund,rfl⟩ := cancel_ok hc
    apply keep _ (.refundPremium r.poolId r.seasonId r.owner r.netReserved) _ _ _ _
      (riskPool_unsigned env hnet) hs.pools hi
    simp [RiskPool.invoke,hrefund,Except.map]
  | move | metadata | transferable => exact hi

theorem market_call (w : World L) (env : Env) (a : Action) :
    (market T net).step w (env,.call a)=(machine T net).step w (env,a) := rfl

theorem market_next_call (w : World L) (env : Env) (a : Action) :
    (market T net).next w (env,.call a)=(machine T net).next w (env,a) := rfl

/-- A transfer that a user signed leaves the contracts' storage. -/
theorem transfer_ok {env : Env} {token src dst : Address} {n : Int}
    (h : (market T net).step w (env,.transfer token src dst n)=.ok w') :
    src≠net.riskPool ∧ ∃ l', w'={ w with ledger := l' } ∧
      T.transfer w.ledger token src dst n=some l' := by
  simp only [market] at h
  split_ifs at h with hsigned
  cases hl : T.transfer w.ledger token src dst n with
  | none => simp [hl] at h
  | some l' =>
    simp only [hl,Except.ok.injEq] at h
    exact ⟨(signer_outside hsigned).1,l',h.symm,rfl⟩

theorem market_sound {a : Env × Transaction} (hs : w.Sound net)
    (h : (market T net).step w a=.ok w') : w'.Sound net := by
  obtain ⟨env,a⟩ := a
  cases a with
  | call a =>
    rw [market_call] at h
    exact (execute_step T net h).sound hs
  | transfer token src dst n =>
    obtain ⟨-,l',rfl,-⟩ := transfer_ok h
    exact hs.congr rfl rfl rfl rfl

theorem next_funded (hT : T.Settles) (hnet : net.riskPool≠net.policy) {a : Env × Transaction}
    (hf : Funded T net w) (ho : OnlyOwnPolicy T net w a) :
    Funded T net ((market T net).next w a) := by
  obtain ⟨log,ha⟩ := hf.accounted
  rcases (market T net).next_cases w a with hn | hstep
  · rw [hn]
    exact hf
  · obtain ⟨env,a⟩ := a
    cases a with
    | call a =>
      have haccounted := next_accounted ha ho
      rw [market_call,market_next_call] at hstep
      rw [market_next_call]
      have hpool := Step.pool_invariant
        (fun s l => s.Bounded ∧ RiskPool.Covers T net.riskPool s l) hnet
        (fun env c s l s' l' hself hw hi h => ⟨RiskPool.invoke_bounded hw hi.1 h,
          RiskPool.invoke_covers hT hw hself hi.2 h⟩)
        ha.sound ⟨hf.bounded,hf.covers⟩ (execute_step T net hstep)
      exact ⟨⟨_,haccounted⟩,hpool.1,hpool.2⟩
    | transfer token src dst n =>
      obtain ⟨hsrc,l',hw,hl⟩ := transfer_ok hstep
      rw [hw]
      have hs : World.Sound net { w with ledger := l' } := ha.sound.congr rfl rfl rfl rfl
      refine ⟨⟨log,hs,ha.own,ha.direct,ha.premiums,ha.refunds⟩,hf.bounded,fun token' => ?_⟩
      obtain ⟨total,ht,hle⟩ := hf.covers token'
      exact ⟨total,ht,hle.trans (hT.kept hl net.riskPool hsrc token')⟩

end Steps

section Runs

variable {L : Type} {T : TokenHost L} {net : Network}

theorem deployWorld_funded (poolAdmin policyAdmin : Address) (l : L)
    (hl : ∀ token, 0≤T.balance l token net.riskPool) :
    Funded T net (deployWorld net poolAdmin policyAdmin l) where
  accounted := ⟨[],deployWorld_accounted net poolAdmin policyAdmin l⟩
  bounded := by
    refine ⟨fun p => ?_,fun k => ?_⟩
    · change (0 : Int)<2^127
      decide
    · change (0 : Int)<2^127
      decide
  covers token := by
    refine ⟨0,?_,hl token⟩
    have hnone : (RiskPool.deploy poolAdmin).held token=fun _ => 0 := by
      funext p
      simp [RiskPool.State.held,RiskPool.deploy]
    rw [deployWorld,hnone]
    exact .zero

theorem run_funded (hT : T.Settles) (hnet : net.riskPool≠net.policy) {w : World L}
    (hf : Funded T net w) (actions : List (Env × Transaction))
    (ho : (market T net).along (OnlyOwnPolicy T net) w actions) :
    Funded T net ((market T net).run w actions) :=
  (market T net).run_along (Funded T net) (OnlyOwnPolicy T net)
    (fun _ _ hf ho => next_funded hT hnet hf ho) actions w hf ho

theorem market_run_sound {w : World L} (hs : w.Sound net) (actions : List (Env × Transaction)) :
    ((market T net).run w actions).Sound net :=
  (market T net).run_invariant (World.Sound net) (fun _ _ _ hs h => market_sound hs h) actions w hs

end Runs

end Mvua.Policy
