import Mvua.RiskPool.Reconciliation

namespace Mvua.RiskPool

/-- All that a pool accounts for: reserves and both fee treasuries. -/
def Book.funds (b : Book) : Int := b.reserves+b.protocolFees+b.publisherFees

/-- The tokens that an entry brings into the contract. -/
def Entry.flow : Entry → Int
  | .deposit _ _ amount _ => amount
  | .withdraw _ _ _ underlying => -underlying
  | .premium _ gross _ _ => gross
  | .refund _ net => -net
  | .payout _ amount => -amount
  | _ => 0

theorem post_funds (b : Book) (e : Entry) : (b.post e).funds=b.funds+e.flow := by
  cases e <;> simp only [Book.funds,Book.post,Book.onTranche,Book.onReceipt,Book.onSeason,
    Entry.flow] <;> omega

/-- What a pool accounts for in one token. -/
def State.held (s : State) (token : Address) (p : Nat) : Int :=
  if (s.poolConfig p).map PoolConfig.token=some token then (s.book p).funds else 0

/-- The account that exchanges tokens with the contract in a call. -/
def Call.party : Call → Option Address
  | .deposit _ _ src _ => some src
  | .withdraw _ _ holder _ => some holder
  | .collectPremium _ _ src _ => some src
  | .refundPremium _ _ dst _ => some dst
  | .payOut _ _ dst _ => some dst
  | _ => none

section Steps

variable {L : Type} {T : TokenHost L} {self : Address} {env : Env} {s s' : State} {l l' : L}

theorem State.Posts.held {p : Nat} {e : Entry} {c : PoolConfig} (hp : s.Posts s' p e)
    (hc : s.poolConfig p=some c) (token : Address) (q : Nat) :
    s'.held token q=s.held token q+if q=p then (if token=c.token then e.flow else 0) else 0 := by
  unfold State.held
  rw [hp.poolConfig]
  by_cases hq : q=p
  · subst q
    rw [hp.book,post_funds,hc]
    by_cases ht : token=c.token
    · simp [ht]
    · have hne : c.token≠token := Ne.symm ht
      simp [ht,hne]
  · rw [hp.frame q hq]
    simp [hq]

theorem State.Keeps.held (hk : s.Keeps s') (hc : s'.poolConfig=s.poolConfig) (token : Address)
    (q : Nat) : s'.held token q=s.held token q := by
  unfold State.held
  rw [hc,hk.book]

/-- A new pool accounts for nothing. -/
theorem createPool_held {c : PoolConfig} {p : Nat} (hw : s.WellFormed)
    (h : createPool env s c=.ok (p,s')) (token : Address) (q : Nat) :
    s'.held token q=s.held token q := by
  have hk := createPool_keeps hw h
  obtain ⟨-,-,hp,hs⟩ := createPool_ok h
  have hconfig : s'.poolConfig=Function.update s.poolConfig p (some c) := by rw [hs]; rfl
  unfold State.held
  rw [hk.book,hconfig]
  by_cases hq : q=p
  · have hnone : s.poolConfig q=none := by
      cases hc : s.poolConfig q with
      | none => rfl
      | some d => have := hw.ids _ _ hc; omega
    rw [hw.blank q hnone]
    simp [Book.funds,Book.blank]
  · rw [Function.update_of_ne hq]

/-- The contract's balance of each token moves by what the books of one pool gain in it. -/
def Tracks (T : TokenHost L) (self : Address) (s s' : State) (l l' : L) : Prop :=
  ∃ (p : Nat) (d : Address → Int), ∀ token,
    (∀ q, s'.held token q=s.held token q+if q=p then d token else 0) ∧
    T.balance l' token self=T.balance l token self+d token

theorem Tracks.still (h : ∀ token q, s'.held token q=s.held token q) :
    Tracks T self s s' l l := by
  refine ⟨0,fun _ => 0,fun token => ⟨fun q => ?_,by rw [add_zero]⟩⟩
  rw [h,ite_self,add_zero]

theorem State.Posts.tracks {p : Nat} {e : Entry} {c : PoolConfig} (hp : s.Posts s' p e)
    (hc : s.poolConfig p=some c) (hl : ∀ token, T.balance l' token self=
      T.balance l token self+if token=c.token then e.flow else 0) : Tracks T self s s' l l' :=
  ⟨p,fun token => if token=c.token then e.flow else 0,fun token => ⟨hp.held hc token,hl token⟩⟩

/-- An entry that brings nothing in needs no transfer. -/
theorem State.Posts.tracks_still {p : Nat} {e : Entry} (hp : s.Posts s' p e) (he : e.flow=0) :
    Tracks T self s s' l l := by
  obtain ⟨c,hc,-⟩ := hp.admits
  exact hp.tracks hc (fun token => by rw [he,ite_self,add_zero])

/-- Every successful step keeps the balance in line with the books. -/
theorem step_tracks (hT : T.Exact) {a : Action} (hw : s.WellFormed)
    (hparty : ∀ env c, a=.call env c → c.party≠some self)
    (h : (machine T self).step (s,l) a=.ok (s',l')) : Tracks T self s s' l l' := by
  cases a with
  | setCommitted p n =>
    simp only [machine,except_map_eq_ok,Prod.mk.injEq] at h
    obtain ⟨u,hu,rfl,rfl⟩ := h
    exact (setCommitted_posts hw hu).tracks_still rfl
  | call env c =>
    have hne := hparty env c rfl
    have hran : Ran T self env s l c s' l' := invoke_ran h
    cases hran with
    | setPolicyContract policy hu =>
      have hk := setPolicyContract_keeps hu
      obtain ⟨-,rfl⟩ := setPolicyContract_ok hu
      exact .still (hk.held rfl)
    | setPayoutVault vault hu =>
      have hk := setPayoutVault_keeps hu
      obtain ⟨-,rfl⟩ := setPayoutVault_ok hu
      exact .still (hk.held rfl)
    | createPool config p hu => exact .still (createPool_held hw hu)
    | deposit p t src n m hu =>
      obtain ⟨c,-,hc,-,-,-,-,-,-,hl,-⟩ := deposit_ok hu
      exact (deposit_posts hu).tracks hc (hT.received hl (fun he => hne (congrArg some he)))
    | withdraw p t holder n m hu =>
      obtain ⟨c,-,hc,-,-,-,-,-,-,-,-,-,-,hl,-⟩ := withdraw_ok hu
      exact (withdraw_posts hu).tracks hc (hT.sent hl (fun he => hne (congrArg some he.symm)))
    | openSeason p i hu =>
      obtain ⟨-,z,hz⟩ := openSeason_posts hu
      exact hz.tracks_still rfl
    | activateSeason p i hu =>
      exact (transitionSeason_posts hw hu (.inl ⟨rfl,rfl⟩)).tracks_still rfl
    | closeSeason p i hu =>
      exact (transitionSeason_posts hw hu (.inr ⟨rfl,rfl⟩)).tracks_still rfl
    | collectPremium p i src n m hu =>
      obtain ⟨c,-,-,-,-,-,hc,-,-,-,-,-,-,-,-,-,hl,-⟩ := collectPremium_ok hu
      obtain ⟨pf,qf,-,hp⟩ := collectPremium_posts hu
      exact hp.tracks hc (hT.received hl (fun he => hne (congrArg some he)))
    | refundPremium p i dst n m hu =>
      obtain ⟨c,-,-,hc,-,-,-,-,-,-,-,-,-,hl,-⟩ := refundPremium_ok hu
      exact (refundPremium_posts hu).tracks hc
        (hT.sent hl (fun he => hne (congrArg some he.symm)))
    | payOut p i dst n m hu =>
      obtain ⟨c,-,-,hc,-,-,-,-,-,-,-,-,hl,-⟩ := payOut_ok hu
      exact (payOut_posts hu).tracks hc (hT.sent hl (fun he => hne (congrArg some he.symm)))
    | settleSeason p i net hu => exact (settleSeason_posts hw hu).2.tracks_still rfl

end Steps

/-- A step of the contract, or a token transfer outside its functions. -/
inductive Transaction where
  | act (a : Action)
  | transfer (token src dst : Address) (amount : Int)
  deriving DecidableEq, Repr

/-- The contract `self` is not its own counterparty, and only its functions send its tokens. -/
def Transaction.Foreign (self : Address) : Transaction → Prop
  | .act (.call _ c) => c.party≠some self
  | .act (.setCommitted _ _) => True
  | .transfer _ src _ _ => src≠self

section Runs

variable {L : Type} (T : TokenHost L) (self : Address)

def custody : Machine (State × L) Transaction (Abort Error) where
  step
    | x,.act a => (machine T self).step x a
    | (s,l),.transfer token src dst amount =>
        (T.send l token src dst amount : Result Error L).map fun l => (s,l)

/-- What the contract receives in a token by a plain transfer. -/
def gift (token : Address) (x : State × L) : Transaction → Int
  | .act _ => 0
  | .transfer token' src dst amount =>
      if token'=token ∧ dst=self ∧ (T.transfer x.2 token' src dst amount).isSome then amount else 0

variable {x : State × L} {token : Address} {n : Int}

theorem Tracks.total {s s' : State} {l l' : L} (h : Tracks T self s s' l l')
    (ht : HasTotal (s.held token) (T.balance l token self-n)) :
    HasTotal (s'.held token) (T.balance l' token self-n) := by
  obtain ⟨p,d,hd⟩ := h
  obtain ⟨hheld,hbal⟩ := hd token
  have hm := ht.move p (d token) hheld
  rwa [show T.balance l token self-n+d token=T.balance l' token self-n by omega] at hm

/-- A plain transfer moves the balance by the gift. -/
theorem transfer_gift (hT : T.Exact) {s : State} {l l' : L} {token' src dst : Address}
    {amount : Int} (hne : src≠self) (h : T.transfer l token' src dst amount=some l') :
    T.balance l' token self=
      T.balance l token self+gift T self token (s,l) (.transfer token' src dst amount) := by
  simp only [gift,h,Option.isSome_some,and_true]
  by_cases hd : dst=self
  · subst hd
    rw [hT.received h hne]
    simp only [and_true,eq_comm]
  · rw [if_neg (fun hc => hd hc.2),add_zero]
    exact hT.frame _ _ _ _ _ _ _ _ h (fun _ => ⟨hne.symm,Ne.symm hd⟩)

theorem next_custody (hT : T.Exact) {a : Transaction} (hw : x.1.WellFormed)
    (ha : a.Foreign self) (ht : HasTotal (x.1.held token) (T.balance x.2 token self-n)) :
    let y := (custody T self).next x a
    y.1.WellFormed ∧
      HasTotal (y.1.held token) (T.balance y.2 token self-(n+gift T self token x a)) := by
  obtain ⟨s,l⟩ := x
  cases a with
  | act a =>
    have hgift : gift T self token (s,l) (.act a)=0 := rfl
    rw [hgift,add_zero]
    cases h : (machine T self).step (s,l) a with
    | error e =>
      rw [(custody T self).next_of_error (s := (s,l)) (a := .act a) h]
      exact ⟨hw,ht⟩
    | ok y =>
      obtain ⟨s',l'⟩ := y
      rw [(custody T self).next_of_ok (s := (s,l)) (a := .act a) h]
      have hparty : ∀ env c, a=.call env c → c.party≠some self := by
        intro env c he
        subst he
        exact ha
      exact ⟨step_wellFormed T self hw h,(step_tracks hT hw hparty h).total T self ht⟩
  | transfer token' src dst amount =>
    cases h : T.transfer l token' src dst amount with
    | none =>
      have hgift : gift T self token (s,l) (.transfer token' src dst amount)=0 := by
        simp [gift,h]
      rw [hgift,add_zero,(custody T self).next_of_error (e := .trap .host)
        (by simp [custody,TokenHost.send,h,orTrap,Except.map])]
      exact ⟨hw,ht⟩
    | some l' =>
      have hbal : T.balance l' token self=T.balance l token self+
          gift T self token (s,l) (.transfer token' src dst amount) := transfer_gift T self hT ha h
      rw [(custody T self).next_of_ok (t := (s,l'))
        (by simp [custody,TokenHost.send,h,orTrap,Except.map])]
      refine ⟨hw,?_⟩
      rw [show T.balance l' token self-(n+gift T self token (s,l)
        (.transfer token' src dst amount))=T.balance l token self-n by omega]
      exact ht

/-- Over every run, what the contract holds of a token beyond what it had at deployment and
what it got by plain transfers is what its pools in that token account for. -/
theorem custody_matches_books (hT : T.Exact) (admin : Address) (l : L)
    (transactions : List Transaction) (token : Address) :
    let M := custody T self
    let y := M.run (deploy admin,l) transactions
    (∀ a∈transactions, a.Foreign self) →
    HasTotal (fun p => if (y.1.poolConfig p).map PoolConfig.token=some token then
        ((y.1.solvency p).map SolvencyState.reserves).getD 0+
        ((y.1.treasury p).map TreasuryState.protocolFees).getD 0+
        ((y.1.treasury p).map TreasuryState.publisherFees).getD 0 else 0)
      (T.balance y.2 token self-
        (T.balance l token self+M.tally (gift T self token) (deploy admin,l) transactions)) := by
  intro M y hforeign
  have hstart : HasTotal ((deploy admin).held token)
      (T.balance l token self-T.balance l token self) := by
    rw [sub_self]
    exact HasTotal.zero
  exact (M.run_along_tally (fun z n => z.1.WellFormed ∧
      HasTotal (z.1.held token) (T.balance z.2 token self-n))
    (fun _ a => a.Foreign self) (gift T self token)
    (fun z a n hz ha => next_custody T self hT hz.1 ha hz.2) transactions (deploy admin,l) _
    ⟨deploy_wellFormed admin,hstart⟩
    (M.along_of_mem transactions (fun a ha _ => hforeign a ha) _)).2

end Runs

section Sample

/-- Two pools share a token, and a well-wisher sends 7 more. -/
def sharedToken : List Transaction := [
  .act (.call plainEnv (.createPool plainConfig)),
  .act (.call plainEnv (.createPool plainConfig)),
  .act (.call plainEnv (.deposit 1 .junior ⟨3⟩ 100)),
  .act (.call plainEnv (.deposit 2 .senior ⟨3⟩ 50)),
  .transfer ⟨9⟩ ⟨3⟩ ⟨1⟩ 7]

theorem custody_matches_books_shared :
    let y := (custody TokenHost.ledger ⟨1⟩).run plainStart sharedToken
    TokenHost.ledger.balance y.2 ⟨9⟩ ⟨1⟩=157 ∧
    HasTotal (fun p => if (y.1.poolConfig p).map PoolConfig.token=some ⟨9⟩ then
        ((y.1.solvency p).map SolvencyState.reserves).getD 0+
        ((y.1.treasury p).map TreasuryState.protocolFees).getD 0+
        ((y.1.treasury p).map TreasuryState.publisherFees).getD 0 else 0) 150 := by
  intro y
  have hbalance : TokenHost.ledger.balance y.2 ⟨9⟩ ⟨1⟩=157 := by
    decide +kernel
  have hgift : (custody TokenHost.ledger ⟨1⟩).tally (gift TokenHost.ledger ⟨1⟩ ⟨9⟩) plainStart
      sharedToken=7 := by
    decide +kernel
  have hstart : TokenHost.ledger.balance plainFunds ⟨9⟩ ⟨1⟩=0 := by
    decide
  refine ⟨hbalance,?_⟩
  have h := custody_matches_books TokenHost.ledger ⟨1⟩ TokenHost.ledger_exact ⟨0⟩ plainFunds
    sharedToken ⟨9⟩ (by simp [sharedToken,Transaction.Foreign,Call.party])
  rw [show (deploy ⟨0⟩,plainFunds)=plainStart from rfl,hgift,hstart,hbalance] at h
  exact h

end Sample

end Mvua.RiskPool
