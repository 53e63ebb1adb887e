import Mvua.RiskPool.Reachable
import Mathlib.Logic.Relation

namespace Mvua.RiskPool

inductive SeasonState.Advances : SeasonState → SeasonState → Prop where
  | activate : Advances .opened .active
  | close : Advances .active .closed
  | settle : Advances .closed .settled

/-- What one call may do to a season record. -/
structure Season.Follows (z z' : Season) : Prop where
  record : z'={ z with
    state := z'.state, premiumsIn := z'.premiumsIn, payoutsPaid := z'.payoutsPaid }
  state : z'.state=z.state ∨ z.state.Advances z'.state
  premiums : z'.premiumsIn≠z.premiumsIn → z'.state=z.state ∧ (z.state=.opened ∨ z.state=.active)
  payouts : z'.payoutsPaid≠z.payoutsPaid → z'.state=z.state ∧ (z.state=.active ∨ z.state=.closed)

theorem Season.Follows.refl (z : Season) : z.Follows z :=
  ⟨rfl,.inl rfl,fun h => absurd rfl h,fun h => absurd rfl h⟩

theorem Season.Follows.settled {z z' : Season} (h : z.Follows z') (hz : z.state=.settled) :
    z'=z := by
  have hstate : z'.state=z.state := by
    rcases h.state with hst | hst
    · exact hst
    · rw [hz] at hst
      cases hst
  have hpremiums : z'.premiumsIn=z.premiumsIn := by
    by_contra hne
    have hst := (h.premiums hne).2
    simp [hz] at hst
  have hpayouts : z'.payoutsPaid=z.payoutsPaid := by
    by_contra hne
    have hst := (h.payouts hne).2
    simp [hz] at hst
  rw [h.record,hstate,hpremiums,hpayouts]

section Entries

variable {c : PoolConfig} {b : Book} {e : Entry} {i id : Nat} {z z' : Season}

theorem season_onSeason (f : Season → Season) :
    (b.onSeason id f).season i=if i=id then (b.season id).map f else b.season i := by
  by_cases hi : i=id
  · subst hi
    simp [Book.onSeason]
  · simp [Book.onSeason,hi]

/-- A season update that the season's own record may take. -/
theorem onSeason_follows (id : Nat) (f : Season → Season) (hz : b.season i=some z)
    (hf : i=id → z.Follows (f z)) :
    ∃ z', (b.onSeason id f).season i=some z' ∧ z.Follows z' := by
  rw [season_onSeason]
  by_cases hi : i=id
  · subst hi
    rw [if_pos rfl,hz]
    exact ⟨f z,rfl,hf rfl⟩
  · rw [if_neg hi]
    exact ⟨z,hz,.refl z⟩

/-- The state that the guard of an entry demands is that of the record. -/
theorem Book.SeasonIn.state {st st' : SeasonState} (h : b.SeasonIn id st st')
    (hz : b.season i=some z) (hi : i=id) : z.state=st ∨ z.state=st' := by
  obtain ⟨y,hy,hst⟩ := h
  subst hi
  rw [hz,Option.some.injEq] at hy
  exact hy ▸ hst

theorem post_openSeason (hb : b.Sound) (hz : b.season i=some z) (y : Season) :
    (b.post (.openSeason y)).season i=some z := by
  have hne : i≠b.seasons+1 := by
    intro hi
    rw [hb.fresh i (by omega)] at hz
    cases hz
  exact (Function.update_of_ne hne _ _).trans hz

/-- No entry loses a season record, and each record follows the lifecycle. -/
theorem Entry.post_season (hb : b.Sound) (h : e.Admits c b) (hz : b.season i=some z) :
    ∃ z', (b.post e).season i=some z' ∧ z.Follows z' := by
  cases e with
  | openSeason y => exact ⟨z,post_openSeason hb hz y,.refl z⟩
  | advance id dst =>
    apply onSeason_follows _ _ hz
    intro hi
    rcases h with ⟨hin,rfl⟩ | ⟨hin,rfl⟩
    · have hst : z.state=.opened := by simpa using hin.state hz hi
      refine ⟨rfl,.inr ?_,fun h => absurd rfl h,fun h => absurd rfl h⟩
      rw [hst]
      exact .activate
    · have hst : z.state=.active := by simpa using hin.state hz hi
      refine ⟨rfl,.inr ?_,fun h => absurd rfl h,fun h => absurd rfl h⟩
      rw [hst]
      exact .close
  | premium id gross pf qf =>
    refine onSeason_follows id (fun z => { z with premiumsIn := z.premiumsIn+(gross-pf-qf) }) hz ?_
    intro hi
    exact ⟨rfl,.inl rfl,fun _ => ⟨rfl,h.1.state hz hi⟩,fun h => absurd rfl h⟩
  | refund id net =>
    refine onSeason_follows id (fun z => { z with premiumsIn := z.premiumsIn-net }) hz ?_
    intro hi
    exact ⟨rfl,.inl rfl,fun _ => ⟨rfl,h.1.state hz hi⟩,fun h => absurd rfl h⟩
  | payout id amount =>
    refine onSeason_follows id (fun z => { z with payoutsPaid := z.payoutsPaid+amount }) hz ?_
    intro hi
    exact ⟨rfl,.inl rfl,fun h => absurd rfl h,fun _ => ⟨rfl,h.1.state hz hi⟩⟩
  | settle id =>
    refine onSeason_follows id (fun z => { z with state := .settled }) hz ?_
    intro hi
    have hst : z.state=.closed := by simpa using h.state hz hi
    refine ⟨rfl,.inr ?_,fun h => absurd rfl h,fun h => absurd rfl h⟩
    rw [hst]
    exact .settle
  | deposit | withdraw | commit => exact ⟨z,hz,.refl z⟩

/-- A record that appears is that of a season opened with nothing in it. -/
theorem Entry.post_born (h : e.Admits c b) (hnone : b.season i=none)
    (hz : (b.post e).season i=some z) :
    z.state=.opened ∧ z.premiumsIn=0 ∧ z.payoutsPaid=0 := by
  have untouched : ∀ id f, (b.onSeason id f).season i=some z → False := by
    intro id f hs
    rw [season_onSeason] at hs
    split_ifs at hs with hi
    · subst hi
      rw [hnone] at hs
      cases hs
    · rw [hnone] at hs
      cases hs
  cases e with
  | openSeason y =>
    by_cases hi : i=b.seasons+1
    · subst hi
      simp only [Book.post,Function.update_self,Option.some.injEq] at hz
      rw [← hz]
      exact ⟨h.1,h.2.1,h.2.2.2⟩
    · simp only [Book.post,Function.update_of_ne hi,hnone] at hz
      cases hz
  | advance id dst => exact (untouched id _ hz).elim
  | premium id gross pf qf => exact (untouched id _ hz).elim
  | refund id net => exact (untouched id _ hz).elim
  | payout id amount => exact (untouched id _ hz).elim
  | settle id => exact (untouched id _ hz).elim
  | deposit | withdraw | commit =>
    have hs : b.season i=some z := hz
    rw [hnone] at hs
    cases hs

/-- The result of a season that was distributed to the tranches, if it was. -/
def distributed : Option Season → List Int
  | some z => if z.state=.settled then [z.net] else []
  | none => []

/-- The season results that an entry distributes. -/
def Entry.distributes (b : Book) (i : Nat) : Entry → List Int
  | .settle id => if i=id then [b.netOf id] else []
  | _ => []

theorem onSeason_distributed {f : Season → Season} (hz : b.season id=some z)
    (h : z.state≠.settled) (hf : (f z).state≠.settled) :
    distributed ((b.onSeason id f).season i)=distributed (b.season i) := by
  rw [season_onSeason]
  split_ifs with hi
  · rw [hi,hz]
    simp [distributed,h,hf]
  · rfl

/-- Only a settlement distributes, and what it distributes stays on record. -/
theorem Entry.post_distributed (hb : b.Sound) (h : e.Admits c b) (i : Nat) :
    distributed ((b.post e).season i)=distributed (b.season i)++e.distributes b i := by
  cases e with
  | openSeason y =>
    simp only [Entry.distributes,List.append_nil]
    cases hz : b.season i with
    | some z => rw [post_openSeason hb hz]
    | none =>
      cases hz' : (b.post (.openSeason y)).season i with
      | none => rfl
      | some z' =>
        have hst := (Entry.post_born h hz hz').1
        simp [distributed,hst]
  | advance id dst =>
    simp only [Entry.distributes,List.append_nil]
    rcases h with ⟨hin,rfl⟩ | ⟨hin,rfl⟩
    · obtain ⟨z,hz,hne⟩ := hin.unsettled (by simp) (by simp)
      exact onSeason_distributed hz hne (by simp)
    · obtain ⟨z,hz,hne⟩ := hin.unsettled (by simp) (by simp)
      exact onSeason_distributed hz hne (by simp)
  | premium id gross pf qf =>
    simp only [Entry.distributes,List.append_nil]
    obtain ⟨z,hz,hne⟩ := h.1.unsettled (by simp) (by simp)
    exact onSeason_distributed hz hne hne
  | refund id net =>
    simp only [Entry.distributes,List.append_nil]
    obtain ⟨z,hz,hne⟩ := h.1.unsettled (by simp) (by simp)
    exact onSeason_distributed hz hne hne
  | payout id amount =>
    simp only [Entry.distributes,List.append_nil]
    obtain ⟨z,hz,hne⟩ := h.1.unsettled (by simp) (by simp)
    exact onSeason_distributed hz hne hne
  | settle id =>
    obtain ⟨z,hz,hst⟩ := h
    have hclosed : z.state=.closed := by simpa using hst
    change distributed ((b.onSeason id fun z => { z with state := .settled }).season i)=_
    rw [season_onSeason,Entry.distributes]
    split_ifs with hi
    · subst hi
      simp [hz,distributed,hclosed,Book.netOf,Season.net]
    · rw [List.append_nil]
  | deposit | withdraw | commit => exact (List.append_nil _).symm

end Entries

section Runs

variable {L : Type}

/-- The results that successful settlements of a season return. -/
def settlements (k : Nat × Nat) (x : State × L) : Action → List Int
  | .call env (.settleSeason p i) =>
      match settleSeason env x.1 p i with
      | .ok (net,_) => if k=(p,i) then [net] else []
      | .error _ => []
  | _ => []

variable (T : TokenHost L) (self : Address)

theorem next_follows {x : State × L} (hw : x.1.WellFormed) (a : Action) {p i : Nat} {z : Season}
    (hz : x.1.season (p,i)=some z) :
    ∃ z', ((machine T self).next x a).1.season (p,i)=some z' ∧ z.Follows z' := by
  have hz' : (x.1.book p).season i=some z := hz
  change ∃ z', (((machine T self).next x a).1.book p).season i=some z' ∧ z.Follows z'
  rcases next_book T self hw a p with hsame | ⟨c,e,-,-,hadm,hpost⟩
  · rw [hsame]
    exact ⟨z,hz',.refl z⟩
  · rw [hpost]
    exact Entry.post_season (hw.sound p) hadm hz'

theorem next_born {x : State × L} (hw : x.1.WellFormed) (a : Action) {p i : Nat} {z : Season}
    (hnone : x.1.season (p,i)=none)
    (hz : ((machine T self).next x a).1.season (p,i)=some z) :
    z.state=.opened ∧ z.premiumsIn=0 ∧ z.payoutsPaid=0 := by
  have hnone' : (x.1.book p).season i=none := hnone
  change (((machine T self).next x a).1.book p).season i=some z at hz
  rcases next_book T self hw a p with hsame | ⟨c,e,-,-,hadm,hpost⟩
  · rw [hsame,hnone'] at hz
    cases hz
  · rw [hpost] at hz
    exact Entry.post_born hadm hnone' hz

theorem settlements_of_not_settle {x : State × L} {a : Action} {k : Nat × Nat}
    (h : ∀ env p i, a≠.call env (.settleSeason p i)) : settlements k x a=[] := by
  unfold settlements
  split
  · next env p i => exact absurd rfl (h env p i)
  · rfl

theorem settlements_of_error {x : State × L} {a : Action} {e : Abort Error} {k : Nat × Nat}
    (h : (machine T self).step x a=.error e) : settlements k x a=[] := by
  unfold settlements
  split
  · next env q j =>
    cases hs : settleSeason env x.1 q j with
    | error e' => rfl
    | ok r => simp [machine,invoke,hs,Except.map] at h
  · rfl

/-- What settlements return is what stays on record as distributed. -/
theorem next_distributed {x : State × L} (hw : x.1.WellFormed) (a : Action) (k : Nat × Nat) :
    distributed (((machine T self).next x a).1.season k)=
      distributed (x.1.season k)++settlements k x a := by
  obtain ⟨p,i⟩ := k
  cases h : (machine T self).step x a with
  | error e =>
    rw [(machine T self).next_of_error h]
    rw [settlements_of_error T self h,List.append_nil]
  | ok y =>
    rw [(machine T self).next_of_ok h]
    rcases step_cases T self hw h with ⟨hk,hmakes⟩ | ⟨q,e,hmakes,hp⟩
    · have hother : ∀ env q j, a≠.call env (.settleSeason q j) := by
        intro env q j he
        apply hmakes q (.settle j)
        rw [he]
        exact .settle env q j
      rw [settlements_of_not_settle hother,List.append_nil]
      have hsame := congrArg (fun b => Book.season b i) (hk.book p)
      exact congrArg distributed hsame
    · have hsettles : settlements (p,i) x a=if p=q then e.distributes (x.1.book p) i else [] := by
        cases hmakes with
        | settle env q j =>
          obtain ⟨s,l⟩ := x
          have hran : Ran T self env s l (.settleSeason q j) y.1 y.2 := invoke_ran h
          obtain ⟨net,hu⟩ : ∃ net, settleSeason env s q j=.ok (net,y.1) := by
            cases hran with
            | settleSeason _ _ net hu => exact ⟨net,hu⟩
          have hnet := (settleSeason_posts hw hu).1
          simp only [settlements,hu,Entry.distributes,Prod.mk.injEq,ite_and]
          by_cases hq : p=q
          · subst hq
            simp [hnet]
          · simp [hq]
        | _ => simp [settlements,Entry.distributes]
      rw [hsettles]
      by_cases hq : p=q
      · subst hq
        obtain ⟨c,-,hadm⟩ := hp.admits
        have hpost := Entry.post_distributed (hw.sound p) hadm i
        rw [← hp.book] at hpost
        rw [if_pos rfl]
        exact hpost
      · have hsame := congrArg (fun b => Book.season b i) (hp.frame p hq)
        rw [if_neg hq,List.append_nil]
        exact congrArg distributed hsame

theorem next_openSeason {x : State × L} (hw : x.1.WellFormed) (env : Env) (q : Nat) {p i : Nat}
    {z : Season} (hz : x.1.season (p,i)=some z) :
    ((machine T self).next x (.call env (.openSeason q))).1.season (p,i)=some z := by
  have hz' : (x.1.book p).season i=some z := hz
  change (((machine T self).next x (.call env (.openSeason q))).1.book p).season i=some z
  rcases next_book T self hw (.call env (.openSeason q)) p with hsame | ⟨c,e,hmakes,-,-,hpost⟩
  · rw [hsame]
    exact hz'
  · rw [hpost]
    cases hmakes with
    | openSeason _ _ y => exact post_openSeason (hw.sound _) hz' y

theorem run_follows {x : State × L} (hw : x.1.WellFormed) (later : List Action) {p i : Nat}
    {z : Season} (hz : x.1.season (p,i)=some z) :
    ∃ z', ((machine T self).run x later).1.season (p,i)=some z' ∧
      Relation.ReflTransGen SeasonState.Advances z.state z'.state ∧
      (z.state=.settled → z'=z) := by
  induction later generalizing x z with
  | nil => exact ⟨z,hz,.refl,fun _ => rfl⟩
  | cons a later ih =>
    obtain ⟨y,hy,hfollows⟩ := next_follows T self hw a hz
    obtain ⟨z',hz',hstates,hsettled⟩ := ih (next_wellFormed T self hw a) hy
    refine ⟨z',hz',?_,?_⟩
    · rcases hfollows.state with hst | hst
      · rwa [hst] at hstates
      · exact .head hst hstates
    · intro hst
      have hyz := hfollows.settled hst
      rw [hyz] at hsettled
      exact hsettled hst

theorem distributed_length (o : Option Season) : (distributed o).length≤1 := by
  cases o with
  | none => exact Nat.zero_le _
  | some z => by_cases hst : z.state=.settled <;> simp [distributed,hst]

/-- In every run, a call moves a season record at most one step along the lifecycle and its
premiums and payouts only in the states for them; opening seasons overwrites none; a season is
settled at most once, and what was then distributed to the tranches stays on its record. -/
theorem season_lifecycle (admin : Address) (l : L) (actions : List Action) (p i : Nat) :
    let M := machine T self
    let start := (deploy admin,l)
    let x := M.run start actions
    (∀ a z', (M.next x a).1.season (p,i)=some z' →
      (x.1.season (p,i)=none ∧ z'.state=.opened ∧ z'.premiumsIn=0 ∧ z'.payoutsPaid=0) ∨
        ∃ z, x.1.season (p,i)=some z ∧ z.Follows z') ∧
    (∀ env q z, x.1.season (p,i)=some z →
      (M.next x (.call env (.openSeason q))).1.season (p,i)=some z) ∧
    (∀ later z, x.1.season (p,i)=some z → ∃ z', (M.run x later).1.season (p,i)=some z' ∧
      Relation.ReflTransGen SeasonState.Advances z.state z'.state ∧
      (z.state=.settled → z'=z)) ∧
    M.log (settlements (p,i)) start actions=distributed (x.1.season (p,i)) ∧
    (M.log (settlements (p,i)) start actions).length≤1 ∧
    ∀ env net s', settleSeason env x.1 p i=.ok (net,s') →
      (s'.book p).deposited=(x.1.book p).settled net ∧ distributed (s'.season (p,i))=[net] := by
  intro M start x
  have hw : x.1.WellFormed := run_wellFormed T self admin l actions
  have hlog := (M.run_log
    (fun x log => x.1.WellFormed ∧ distributed (x.1.season (p,i))=log) (settlements (p,i))
    (fun x a log h => ⟨next_wellFormed T self h.1 a,by rw [next_distributed T self h.1 a,h.2]⟩)
    actions start [] ⟨deploy_wellFormed admin,rfl⟩).2
  rw [List.nil_append] at hlog
  refine ⟨?_,fun env q z hz => next_openSeason T self hw env q hz,
    fun later z hz => run_follows T self hw later hz,hlog.symm,?_,?_⟩
  · intro a z' hz'
    cases hz : x.1.season (p,i) with
    | none => exact .inl ⟨rfl,next_born T self hw a hz hz'⟩
    | some z =>
      obtain ⟨y,hy,hfollows⟩ := next_follows T self hw a hz
      have hsame := hy.symm.trans hz'
      rw [Option.some.injEq] at hsame
      exact .inr ⟨z,rfl,hsame ▸ hfollows⟩
  · rw [← hlog]
    exact distributed_length _
  · intro env net s' h
    obtain ⟨hnet,hp⟩ := settleSeason_posts hw h
    obtain ⟨z,_,hz,-,hst,hz',-,rfl⟩ := settleSeason_ok h
    rw [hp.book,Book.post,hnet]
    refine ⟨rfl,?_⟩
    simp [State.publish,State.writeSeason,distributed,Season.net,hz']

end Runs

end Mvua.RiskPool
