import Mvua.Framework.Journal
import Mvua.RiskPool.Custody

namespace Mvua.RiskPool

def Event.pool : Event → Nat
  | .poolCreated p => p
  | .deposited p _ _ _ _ => p
  | .withdrawn p _ _ _ _ => p
  | .seasonOpened p _ _ _ => p
  | .seasonStateChanged p _ _ => p
  | .premiumCollected p _ _ _ _ _ _ => p
  | .seasonSettled p _ _ _ _ => p
  | .premiumRefunded p _ _ _ => p
  | .payoutReleased p _ _ _ => p

/-- The entry that an event stands for in the books of its pool. -/
def Event.entry : Event → Option Entry
  | .poolCreated _ => none
  | .deposited _ t src n m => some (.deposit t src n m)
  | .withdrawn _ t holder n u => some (.withdraw t holder n u)
  | .seasonOpened _ _ openedAt closesAt => some (.openSeason ⟨.opened,openedAt,closesAt,0,0,0⟩)
  | .seasonStateChanged _ i dst => some (.advance i dst)
  | .premiumCollected _ i _ gross _ pf qf => some (.premium i gross pf qf)
  | .seasonSettled _ i _ _ _ => some (.settle i)
  | .premiumRefunded _ i _ net => some (.refund i net)
  | .payoutReleased _ i _ n => some (.payout i n)

/-- What a reader of the events keeps: how many pools there are and the books of each. -/
@[ext] structure Register where
  pools : Nat
  book : Nat → Book

namespace Register

def blank : Register := ⟨0,fun _ => Book.blank⟩

def post (r : Register) (e : Event) : Register :=
  match e.entry with
  | some x => { r with book := Function.update r.book e.pool ((r.book e.pool).post x) }
  | none => { r with pools := r.pools+1 }

/-- The figures of an event that the books already determine. -/
def Figures (config : PoolConfig) (b : Book) : Event → Prop
  | .seasonOpened _ i openedAt closesAt =>
      i=b.seasons+1 ∧ closesAt=openedAt+config.seasonLength
  | .premiumCollected _ _ _ gross net pf qf => net=gross-pf-qf
  | .seasonSettled _ i premiumsIn payoutsPaid net =>
      ∃ z, b.season i=some z ∧ premiumsIn=z.premiumsIn ∧ payoutsPaid=z.payoutsPaid ∧ net=z.net
  | _ => True

/-- A pool is created under the next id; any other event, in a pool that exists, passes the guards
of its entry point that the books and the configuration decide, and its figures are theirs. -/
def Fits (config : Nat → Option PoolConfig) (r : Register) (e : Event) : Prop :=
  ∃ c, config e.pool=some c ∧
    match e.entry with
    | some x => e.pool ≤ r.pools ∧ x.Admits c (r.book e.pool) ∧ Figures c (r.book e.pool) e
    | none => e.pool=r.pools+1 ∧ c.Accepted ∧ r.book e.pool=Book.blank

end Register

def journal (config : Nat → Option PoolConfig) : Journal Register Event where
  post := Register.post
  Fits := Register.Fits config

def State.register (s : State) : Register := ⟨s.poolCount.getD 0,s.book⟩

/-- What readers see, and what they are to know from it. -/
def State.published (s : State) : List Event × Register := (s.events,s.register)

/-- One event that fits what was published before it, and accounts for the change of the books. -/
structure State.Publishes (s s' : State) (e : Event) : Prop where
  journal : (journal s'.poolConfig).Publishes s.published s'.published [e]
  config : ∀ q c, s.poolConfig q=some c → s'.poolConfig q=some c

/-- No event, and nothing that events are about has changed. -/
structure State.Silent (s s' : State) : Prop where
  published : s'.published=s.published
  poolConfig : s'.poolConfig=s.poolConfig

section Steps

variable {s s' : State}

theorem State.Posts.register {p : Nat} {x : Entry} (hp : s.Posts s' p x) :
    s'.register=
      ⟨s.register.pools,Function.update s.register.book p ((s.register.book p).post x)⟩ := by
  ext1
  · simp only [State.register,hp.poolCount]
  · funext q
    change s'.book q=Function.update s.book p ((s.book p).post x) q
    by_cases hq : q=p
    · subst hq
      rw [Function.update_self]
      exact hp.book
    · rw [Function.update_of_ne hq]
      exact hp.frame q hq

/-- An entry in the books is announced by an event that stands for it. -/
theorem State.Posts.publishes {e : Event} {x : Entry} (hw : s.WellFormed)
    (hp : s.Posts s' e.pool x) (hx : e.entry=some x) (events : s'.events=s.events++[e])
    (figures : ∀ c, s.poolConfig e.pool=some c → Register.Figures c (s.book e.pool) e) :
    s.Publishes s' e := by
  obtain ⟨c,hc,hadm⟩ := hp.admits
  have hfits : s.register.Fits s'.poolConfig e := by
    refine ⟨c,?_,?_⟩
    · rw [hp.poolConfig]
      exact hc
    · rw [hx]
      exact ⟨hw.ids _ c hc,hadm,figures c hc⟩
  have hbooks : s'.register=s.register.post e := by
    rw [hp.register,Register.post,hx]
  refine ⟨.one events hfits hbooks,?_⟩
  intro q d hd
  rw [hp.poolConfig]
  exact hd

variable {env : Env}

theorem createPool_publishes {c : PoolConfig} {p : Nat} (hw : s.WellFormed)
    (h : createPool env s c=.ok (p,s')) : s.Publishes s' (.poolCreated p) := by
  have hfresh := createPool_fresh hw h
  have hblank := hw.blank p hfresh
  have hbook := createPool_book hw h
  obtain ⟨-,haccepted,hp,rfl⟩ := createPool_ok h
  refine ⟨.one rfl ⟨c,?_,hp,haccepted,hblank⟩ ?_,?_⟩
  · exact Function.update_self ..
  · ext1
    · exact hp
    · funext q
      exact hbook q
  · intro q d hd
    have hq : q≠p := by
      rintro rfl
      rw [hfresh] at hd
      cases hd
    exact (Function.update_of_ne hq ..).trans hd

theorem openSeason_publishes {p i : Nat} (hw : s.WellFormed) (h : openSeason env s p=.ok (i,s')) :
    ∃ openedAt closesAt, s.Publishes s' (.seasonOpened p i openedAt closesAt) := by
  obtain ⟨hi,z,hp⟩ := openSeason_posts h
  obtain ⟨c,hc,-,-,rfl⟩ := openSeason_ok h
  have hz : z=⟨.opened,env.timestamp,env.timestamp+c.seasonLength,0,0,0⟩ := by
    have hbook := congrArg (fun b => Book.season b i) hp.book
    rw [hi] at hbook
    simp only [Book.post,Function.update_self,State.book,State.publish,State.writeSeason,
      Option.some.injEq] at hbook
    exact hbook.symm
  subst hz
  refine ⟨_,_,hp.publishes hw rfl rfl ?_⟩
  intro d hd
  have hcd : d=c := Option.some.inj (hd.symm.trans hc)
  exact ⟨hi,by rw [hcd]⟩

theorem transitionSeason_publishes {p i : Nat} {src dst : SeasonState} (hw : s.WellFormed)
    (h : transitionSeason env s p i src dst=.ok s')
    (hst : src=.opened ∧ dst=.active ∨ src=.active ∧ dst=.closed) :
    s.Publishes s' (.seasonStateChanged p i dst) := by
  have hp := transitionSeason_posts hw h hst
  obtain ⟨z,-,-,-,rfl⟩ := transitionSeason_ok h
  exact hp.publishes hw rfl rfl fun _ _ => trivial

theorem settleSeason_publishes {p i : Nat} {net : Int} (hw : s.WellFormed)
    (h : settleSeason env s p i=.ok (net,s')) :
    ∃ premiumsIn payoutsPaid, s.Publishes s' (.seasonSettled p i premiumsIn payoutsPaid net) := by
  have hp := (settleSeason_posts hw h).2
  obtain ⟨z,u,hz,-,-,hnet,hu,rfl⟩ := settleSeason_ok h
  obtain ⟨f,rfl⟩ := distribute_frame hu
  exact ⟨_,_,hp.publishes hw rfl rfl fun _ _ => ⟨z,hz,rfl,rfl,hnet⟩⟩

variable {L : Type} {T : TokenHost L} {self : Address} {l l' : L}

theorem collectPremium_publishes {p i : Nat} {src : Address} {n m : Int} (hw : s.WellFormed)
    (h : collectPremium T self env s l p i src n=.ok (m,s',l')) :
    ∃ pf qf, s.Publishes s' (.premiumCollected p i src n m pf qf) := by
  obtain ⟨pf,qf,hm,hp⟩ := collectPremium_posts h
  obtain ⟨c,_,y,_,pf',qf',hc,-,hy,-,-,-,-,hpf,hqf,-,-,rfl⟩ := collectPremium_ok h
  obtain ⟨d,hd,-,-,hpost,hqost⟩ := hp.admits
  have hcd : d=c := Option.some.inj (hd.symm.trans hc)
  have hfees : (s.book p).protocolFees=y.protocolFees ∧
      (s.book p).publisherFees=y.publisherFees := by simp [State.book,hy]
  rw [hcd,hfees.1,hpf,Except.ok.injEq] at hpost
  rw [hcd,hfees.2,hqf,Except.ok.injEq] at hqost
  subst hpost hqost
  exact ⟨_,_,hp.publishes hw rfl rfl fun _ _ => hm⟩

/-- A successful call publishes one event for what it did to the books, and a change of the
configured addresses publishes none. -/
theorem invoke_publishes {c : Call} (hw : s.WellFormed) (h : invoke T self env c s l=.ok (s',l')) :
    s.Silent s' ∨ ∃ e, s.Publishes s' e := by
  cases invoke_ran h with
  | setPolicyContract policy hu =>
    obtain ⟨-,rfl⟩ := setPolicyContract_ok hu
    exact .inl ⟨rfl,rfl⟩
  | setPayoutVault vault hu =>
    obtain ⟨-,rfl⟩ := setPayoutVault_ok hu
    exact .inl ⟨rfl,rfl⟩
  | createPool config p hu => exact .inr ⟨_,createPool_publishes hw hu⟩
  | deposit p t src n m hu =>
    have hp := deposit_posts hu
    obtain ⟨_,_,-,-,-,-,-,-,-,-,rfl⟩ := deposit_ok hu
    exact .inr ⟨.deposited p t src n m,hp.publishes hw rfl rfl fun _ _ => trivial⟩
  | withdraw p t holder n u hu =>
    have hp := withdraw_posts hu
    obtain ⟨_,_,-,-,-,-,-,-,-,-,-,-,-,-,rfl⟩ := withdraw_ok hu
    exact .inr ⟨.withdrawn p t holder n u,hp.publishes hw rfl rfl fun _ _ => trivial⟩
  | openSeason p i hu =>
    obtain ⟨_,_,hp⟩ := openSeason_publishes hw hu
    exact .inr ⟨_,hp⟩
  | activateSeason p i hu =>
    exact .inr ⟨_,transitionSeason_publishes hw hu (.inl ⟨rfl,rfl⟩)⟩
  | closeSeason p i hu => exact .inr ⟨_,transitionSeason_publishes hw hu (.inr ⟨rfl,rfl⟩)⟩
  | collectPremium p i src n m hu =>
    obtain ⟨_,_,hp⟩ := collectPremium_publishes hw hu
    exact .inr ⟨_,hp⟩
  | refundPremium p i dst n m hu =>
    have hp := refundPremium_posts hu
    obtain ⟨_,_,_,-,-,-,-,-,-,-,-,-,-,-,rfl⟩ := refundPremium_ok hu
    exact .inr ⟨.premiumRefunded p i dst n,hp.publishes hw rfl rfl fun _ _ => trivial⟩
  | payOut p i dst n m hu =>
    have hp := payOut_posts hu
    obtain ⟨_,_,_,-,-,-,-,-,-,-,-,-,-,rfl⟩ := payOut_ok hu
    exact .inr ⟨.payoutReleased p i dst n,hp.publishes hw rfl rfl fun _ _ => trivial⟩
  | settleSeason p i net hu =>
    obtain ⟨_,_,hp⟩ := settleSeason_publishes hw hu
    exact .inr ⟨_,hp⟩

/-- The contract's own steps change no configuration that exists. -/
theorem State.Silent.journal (h : s.Silent s') : journal s'.poolConfig=journal s.poolConfig := by
  rw [h.poolConfig]

end Steps

/-- What fits under some configurations fits once there are more. -/
theorem Register.Fits.grow {config config' : Nat → Option PoolConfig} {r : Register} {e : Event}
    (h : r.Fits config e) (hgrow : ∀ q c, config q=some c → config' q=some c) :
    r.Fits config' e := by
  obtain ⟨c,hc,hfits⟩ := h
  exact ⟨c,hgrow _ c hc,hfits⟩

/-- An event about another pool leaves the books of a pool alone. -/
theorem Register.post_foreign (r : Register) {e : Event} {p : Nat} (hp : e.pool≠p) :
    (r.post e).book p=r.book p := by
  unfold Register.post
  split
  · exact Function.update_of_ne (Ne.symm hp) ..
  · rfl

theorem Register.post_book (r : Register) (e : Event) (p : Nat) :
    (r.post e).book p=
      if e.pool=p then (e.entry.map (r.book p).post).getD (r.book p) else r.book p := by
  split_ifs with hp
  · subst hp
    unfold Register.post
    cases he : e.entry with
    | none => rfl
    | some x => exact Function.update_self ..
  · exact r.post_foreign hp

section Runs

variable {L : Type} (T : TokenHost L) (self : Address)

/-- The direct write of a committed figure, which no function makes, is not published. -/
def Transaction.Published : Transaction → Prop
  | .act (.setCommitted _ _) => False
  | _ => True

theorem custody_publishes {s t : State} {l m : L} {a : Transaction} (ha : a.Published)
    (hw : s.WellFormed) (h : (custody T self).step (s,l) a=.ok (t,m)) :
    s.Silent t ∨ ∃ e, s.Publishes t e := by
  match a, ha with
  | .act (.call env c), _ => exact invoke_publishes hw h
  | .transfer token src dst amount, _ =>
    simp only [custody,except_map_eq_ok,Prod.mk.injEq] at h
    obtain ⟨_,-,rfl,-⟩ := h
    exact .inl ⟨rfl,rfl⟩

theorem custody_wellFormed {s t : State} {l m : L} {a : Transaction} (hw : s.WellFormed)
    (h : (custody T self).step (s,l) a=.ok (t,m)) : t.WellFormed := by
  cases a with
  | act a => exact step_wellFormed T self hw h
  | transfer token src dst amount =>
    simp only [custody,except_map_eq_ok,Prod.mk.injEq] at h
    obtain ⟨_,-,rfl,-⟩ := h
    exact hw

/-- After every run, whoever starts from nothing and reads the published events with the pools'
configurations has the books that the contract keeps: where it stands, each event passes the guards
that the books and the configuration decide, and the events of a pool alone give the books of that
pool. The events tell neither who signed nor whether every sum was in range. -/
theorem events_account_for_books (admin : Address) (l : L) (transactions : List Transaction)
    (hpub : ∀ a∈transactions, a.Published) :
    let s := ((custody T self).run (deploy admin,l) transactions).1
    let J := journal s.poolConfig
    J.Records Register.blank s.events s.register ∧
      ∀ p, (J.replay Register.blank (s.events.filter (·.pool=p))).book p=s.book p := by
  intro s J
  have hrecords : J.Records Register.blank s.events s.register := by
    refine (custody T self).run_records (fun x => journal x.1.poolConfig) Transaction.Published
      (fun x => x.1.WellFormed) (fun x => x.1.published) Register.blank ?_ ?_ ?_ transactions hpub
      (deploy admin,l) (deploy_wellFormed admin) (.nil Register.blank)
    · intro x a y hw h
      exact custody_wellFormed T self hw h
    · intro x a y ha hw h r e
      refine ⟨rfl,fun hfits => ?_⟩
      rcases custody_publishes T self ha hw h with hs | ⟨_,hp⟩
      · rw [hs.journal]
        exact hfits
      · exact Register.Fits.grow hfits hp.config
    · intro x a y ha hw h
      rcases custody_publishes T self ha hw h with hs | ⟨e,hp⟩
      · exact ⟨[],.silent hs.published⟩
      · exact ⟨[e],hp.journal⟩
  refine ⟨hrecords,fun p => ?_⟩
  have hfilter : (J.replay Register.blank s.events).book p=(J.replay Register.blank
      (s.events.filter fun e => decide (e.pool=p))).book p := Journal.replay_filter
    (fun r : Register => r.book p) (fun e : Event => decide (e.pool=p))
    (fun r e he => r.post_foreign (of_decide_eq_false he))
    (fun r r' e h => by
      change (r.post e).book p=(r'.post e).book p
      rw [Register.post_book,Register.post_book,h])
    Register.blank Register.blank rfl
  rw [← hfilter,hrecords.2]
  rfl

end Runs

theorem events_account_for_books_shared :
    let s := ((custody TokenHost.ledger ⟨1⟩).run plainStart sharedToken).1
    let J := journal s.poolConfig
    s.events=[.poolCreated 1,.poolCreated 2,.deposited 1 .junior ⟨3⟩ 100 100,
      .deposited 2 .senior ⟨3⟩ 50 50] ∧
    J.Records Register.blank s.events s.register ∧
      ∀ p, (J.replay Register.blank (s.events.filter (·.pool=p))).book p=s.book p :=
  ⟨by decide +kernel,events_account_for_books TokenHost.ledger ⟨1⟩ ⟨0⟩ plainFunds sharedToken
    (by simp [sharedToken,Transaction.Published])⟩

end Mvua.RiskPool
