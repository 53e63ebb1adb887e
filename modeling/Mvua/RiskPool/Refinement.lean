import Mvua.RiskPool.Calls

namespace Mvua.RiskPool

namespace State

variable (s : State) (p q : Nat)

theorem book_publish (e : Event) : (s.publish e).book q=s.book q := rfl

theorem book_writeTranche (t : Tier) (v : TrancheState) :
    (s.writeTranche p t v).book q=
      if q=p then (s.book q).onTranche t v.deposited v.supply else s.book q := by
  by_cases hq : q=p
  · subst q
    simp only [if_true]
    ext u
    all_goals simp only [book,Book.onTranche,readTranche,writeTranche]
    · by_cases hu : u=t
      · subst u; simp
      · simp [hu]
    · by_cases hu : u=t
      · subst u; simp
      · simp [hu]
    all_goals rfl
  · simp only [if_neg hq]
    ext u <;> simp [book,readTranche,writeTranche,hq]
    all_goals rfl

theorem book_writeReceipt (t : Tier) (a : Address) (v : Int) :
    (s.writeReceipt p t a v).book q=
      if q=p then (s.book q).onReceipt t a v else s.book q := by
  by_cases hq : q=p
  · subst q
    simp only [if_true]
    ext u x
    all_goals simp only [book,Book.onReceipt,readReceipt,writeReceipt]
    all_goals try rfl
    by_cases hu : u=t
    · subst u
      by_cases hx : x=a
      · subst x; simp
      · simp [hx]
    · simp [hu]
  · simp only [if_neg hq]
    ext u x <;> simp [book,readReceipt,writeReceipt,hq] <;> rfl

theorem book_writeSeason (i : Nat) (v : Season) :
    (s.writeSeason p i v).book q=
      if q=p then { s.book q with season := Function.update (s.book q).season i (some v) }
      else s.book q := by
  by_cases hq : q=p
  · subst q
    simp only [if_true]
    ext j z
    all_goals simp only [book,writeSeason]
    all_goals try rfl
    by_cases hj : j=i
    · subst j; simp
    · simp [hj]
  · simp only [if_neg hq]
    ext j z <;> simp [book,writeSeason,hq] <;> rfl

theorem book_writeTreasury (v : TreasuryState) :
    (s.writeTreasury p v).book q=
      if q=p then
        { s.book q with protocolFees := v.protocolFees, publisherFees := v.publisherFees }
      else s.book q := by
  by_cases hq : q=p
  · subst q
    simp only [if_true]
    ext <;> simp [book,writeTreasury] <;> rfl
  · simp only [if_neg hq]
    ext <;> simp [book,writeTreasury,hq] <;> rfl

theorem book_writeSolvency (v : SolvencyState) :
    (s.writeSolvency p v).book q=
      if q=p then { s.book q with reserves := v.reserves, committed := v.committed }
      else s.book q := by
  by_cases hq : q=p
  · subst q
    simp only [if_true]
    ext <;> simp [book,writeSolvency] <;> rfl
  · simp only [if_neg hq]
    ext <;> simp [book,writeSolvency,hq] <;> rfl

variable {s p}

theorem book_reserves {v : SolvencyState} (hv : s.solvency p=some v) :
    (s.book p).reserves=v.reserves := by
  simp [book,hv]

theorem book_committed {v : SolvencyState} (hv : s.solvency p=some v) :
    (s.book p).committed=v.committed := by
  simp [book,hv]

end State

/-- One entry in the books of pool `p`, with the books of every other pool left alone. -/
structure State.Posts (s s' : State) (p : Nat) (e : Entry) : Prop where
  admits : ∃ c, s.poolConfig p=some c ∧ e.Admits c (s.book p)
  book : s'.book p=(s.book p).post e
  frame : ∀ q, q≠p → s'.book q=s.book q
  poolConfig : s'.poolConfig=s.poolConfig
  poolCount : s'.poolCount=s.poolCount
  solvency : ∀ q, (s'.solvency q).isSome=(s.solvency q).isSome
  treasury : ∀ q, (s'.treasury q).isSome=(s.treasury q).isSome

/-- Overwriting a record that exists adds no key. -/
theorem isSome_update {α : Type} {f : Nat → Option α} {p : Nat} {w : α} (hw : f p=some w) (v : α)
    (q : Nat) : (Function.update f p (some v) q).isSome=(f q).isSome := by
  by_cases hq : q=p
  · subst q; simp [hw]
  · simp [hq]

section Posting

variable {L : Type} {T : TokenHost L} {self : Address} {env : Env} {s s' : State} {l l' : L}

theorem deposit_posts {p : Nat} {t : Tier} {a : Address} {n m : Int}
    (h : deposit T self env s l p t a n=.ok (m,s',l')) :
    s.Posts s' p (.deposit t a n m) := by
  obtain ⟨c,v,hc,hv,-,hn,hm,hmint,hcap,-,rfl⟩ := deposit_ok h
  obtain ⟨one,pro⟩ := mintedFor_eq_ok hmint
  refine ⟨⟨c,hc,hn,hm,one,pro,hcap⟩,?_,?_,?_,?_,isSome_update hv _,?_⟩
  · simp only [State.book_publish,State.book_writeSolvency,State.book_writeReceipt,
      State.book_writeTranche,if_true]
    simp [Book.post,Book.onTranche,Book.onReceipt,State.book,hv]
  · intro q hq
    simp only [State.book_publish,State.book_writeSolvency,State.book_writeReceipt,
      State.book_writeTranche,if_neg hq]
  all_goals simp [State.publish,State.writeSolvency,State.writeReceipt,State.writeTranche]

theorem withdraw_posts {p : Nat} {t : Tier} {a : Address} {n u : Int}
    (h : withdraw T self env s l p t a n=.ok (u,s',l')) :
    s.Posts s' p (.withdraw t a n u) := by
  obtain ⟨c,v,hc,hv,-,hn,hb,hs,hu,hq,hsen,hr,hcov,-,rfl⟩ := withdraw_ok h
  have er := State.book_reserves hv
  have ec := State.book_committed hv
  refine ⟨⟨c,hc,hn,hb,hs,hu,hq,?_,?_,?_⟩,?_,?_,?_,?_,isSome_update hv _,?_⟩
  · rw [ec]; exact hsen
  · rw [er]; exact hr
  · rw [er,ec]; exact hcov
  · simp only [State.book_publish,State.book_writeSolvency,State.book_writeReceipt,
      State.book_writeTranche,if_true]
    simp [Book.post,Book.onTranche,Book.onReceipt,State.book,hv]
  · intro q hq
    simp only [State.book_publish,State.book_writeSolvency,State.book_writeReceipt,
      State.book_writeTranche,if_neg hq]
  all_goals simp [State.publish,State.writeSolvency,State.writeReceipt,State.writeTranche]

theorem collectPremium_posts {p i : Nat} {a : Address} {n m : Int}
    (h : collectPremium T self env s l p i a n=.ok (m,s',l')) :
    ∃ pf qf, m=n-pf-qf ∧ s.Posts s' p (.premium i n pf qf) := by
  obtain ⟨c,z,y,v,pf,qf,hc,hz,hy,hv,-,hn,hst,hp,hq,rfl,-,rfl⟩ := collectPremium_ok h
  have ep : (s.book p).protocolFees=y.protocolFees := by simp [State.book,hy]
  have eq : (s.book p).publisherFees=y.publisherFees := by simp [State.book,hy]
  refine ⟨pf,qf,rfl,⟨c,hc,⟨z,hz,hst⟩,hn,?_,?_⟩,?_,?_,?_,?_,isSome_update hv _,
    isSome_update hy _⟩
  · rw [ep]; exact hp
  · rw [eq]; exact hq
  · simp only [State.book_publish,State.book_writeSolvency,State.book_writeSeason,
      State.book_writeTreasury,if_true]
    simp [Book.post,Book.onSeason,State.book,hv,hy,hz]
  · intro q hq
    simp only [State.book_publish,State.book_writeSolvency,State.book_writeSeason,
      State.book_writeTreasury,if_neg hq]
  all_goals simp [State.publish,State.writeSolvency,State.writeSeason,State.writeTreasury]

theorem refundPremium_posts {p i : Nat} {a : Address} {n m : Int}
    (h : refundPremium T self env s l p i a n=.ok (m,s',l')) :
    s.Posts s' p (.refund i n) := by
  obtain ⟨c,z,v,hc,hz,hv,-,-,hn,hst,hle,hr,hcov,-,rfl⟩ := refundPremium_ok h
  have er := State.book_reserves hv
  have ec := State.book_committed hv
  have hs : (s.book p).season i=some z := hz
  refine ⟨⟨c,hc,⟨z,hz,hst⟩,hn,?_,?_,?_⟩,?_,?_,?_,?_,isSome_update hv _,?_⟩
  · intro y hy
    rw [hs,Option.some.injEq] at hy
    exact hy ▸ hle
  · rw [er]; exact hr
  · rw [er,ec]; exact hcov
  · simp only [State.book_publish,State.book_writeSolvency,State.book_writeSeason,if_true]
    simp [Book.post,Book.onSeason,State.book,hv,hz]
  · intro q hq
    simp only [State.book_publish,State.book_writeSolvency,State.book_writeSeason,if_neg hq]
  all_goals simp [State.publish,State.writeSolvency,State.writeSeason]

theorem payOut_posts {p i : Nat} {a : Address} {n m : Int}
    (h : payOut T self env s l p i a n=.ok (m,s',l')) :
    s.Posts s' p (.payout i n) := by
  obtain ⟨c,z,v,hc,hz,hv,-,-,hn,hst,hr,hcov,-,rfl⟩ := payOut_ok h
  have er := State.book_reserves hv
  have ec := State.book_committed hv
  refine ⟨⟨c,hc,⟨z,hz,hst⟩,hn,?_,?_⟩,?_,?_,?_,?_,isSome_update hv _,?_⟩
  · rw [er]; exact hr
  · rw [er,ec]; exact hcov
  · simp only [State.book_publish,State.book_writeSolvency,State.book_writeSeason,if_true]
    simp [Book.post,Book.onSeason,State.book,hv,hz]
  · intro q hq
    simp only [State.book_publish,State.book_writeSolvency,State.book_writeSeason,if_neg hq]
  all_goals simp [State.publish,State.writeSolvency,State.writeSeason]

theorem openSeason_posts {p i : Nat} (h : openSeason env s p=.ok (i,s')) :
    i=(s.book p).seasons+1 ∧ ∃ z, s.Posts s' p (.openSeason z) := by
  obtain ⟨c,hc,-,hi,rfl⟩ := openSeason_ok h
  have hi' : i=(s.book p).seasons+1 := hi
  refine ⟨hi',⟨.opened,env.timestamp,env.timestamp+c.seasonLength,0,0,0⟩,
    ⟨c,hc,rfl,rfl,rfl,rfl⟩,?_,?_,rfl,rfl,fun _ => rfl,fun _ => rfl⟩
  · simp only [State.book_publish,State.book_writeSeason,if_true]
    rw [hi']
    ext <;> simp [Book.post,State.book] <;> rfl
  · intro q hq
    simp only [State.book_publish,State.book_writeSeason,if_neg hq]
    ext <;> simp [State.book,hq] <;> rfl

/-- The invariant of the storage: pools have consecutive ids, an accepted configuration and
sound books, and nothing is recorded for a pool that was not created. -/
structure State.WellFormed (s : State) : Prop where
  ids : ∀ p c, s.poolConfig p=some c → p ≤ s.poolCount.getD 0
  accepted : ∀ p c, s.poolConfig p=some c → c.Accepted
  blank : ∀ p, s.poolConfig p=none → s.book p=Book.blank
  sound : ∀ p, (s.book p).Sound
  solvency : ∀ p, (s.solvency p).isSome=(s.poolConfig p).isSome
  treasury : ∀ p, (s.treasury p).isSome=(s.poolConfig p).isSome

/-- A season belongs to a pool that was created. -/
theorem State.WellFormed.config_of_season (h : s.WellFormed) {p i : Nat} {z : Season}
    (hz : s.season (p,i)=some z) : ∃ c, s.poolConfig p=some c := by
  cases hc : s.poolConfig p with
  | some c => exact ⟨c,rfl⟩
  | none =>
    have hb := congrArg (fun b => Book.season b i) (h.blank p hc)
    have hn : s.season (p,i)=none := hb
    rw [hn] at hz
    cases hz

theorem transitionSeason_posts {p i : Nat} {src dst : SeasonState} (hw : s.WellFormed)
    (h : transitionSeason env s p i src dst=.ok s')
    (hst : src=.opened ∧ dst=.active ∨ src=.active ∧ dst=.closed) :
    s.Posts s' p (.advance i dst) := by
  obtain ⟨z,hz,-,rfl,rfl⟩ := transitionSeason_ok h
  obtain ⟨c,hc⟩ := hw.config_of_season hz
  refine ⟨⟨c,hc,?_⟩,?_,?_,rfl,rfl,fun _ => rfl,fun _ => rfl⟩
  · rcases hst with ⟨hs,hd⟩ | ⟨hs,hd⟩
    · exact .inl ⟨⟨z,hz,.inl hs⟩,hd⟩
    · exact .inr ⟨⟨z,hz,.inl hs⟩,hd⟩
  · simp only [State.book_publish,State.book_writeSeason,if_true]
    simp [Book.post,Book.onSeason,State.book,hz]
  · intro q hq
    simp only [State.book_publish,State.book_writeSeason,if_neg hq]

theorem settleSeason_posts {p i : Nat} {net : Int} (hw : s.WellFormed)
    (h : settleSeason env s p i=.ok (net,s')) :
    (s.book p).netOf i=net ∧ s.Posts s' p (.settle i) := by
  obtain ⟨z,u,hz,-,hst,rfl,hu,rfl⟩ := settleSeason_ok h
  obtain ⟨c,hc⟩ := hw.config_of_season hz
  have hn : (s.book p).netOf i=z.net := by simp [Book.netOf,State.book,hz]
  have ht := distribute_tranche ((hw.sound p).deposited .senior) hu
  obtain ⟨f,rfl⟩ := distribute_frame hu
  refine ⟨hn,⟨c,hc,⟨z,hz,.inl hst⟩⟩,?_,?_,rfl,rfl,fun _ => rfl,fun _ => rfl⟩
  · simp only [State.book_publish,State.book_writeSeason,if_true,Book.post,hn]
    ext t
    · simp [State.book,ht p t]
    · simp [State.book,ht p t,Book.onSeason]
    all_goals simp [State.book,Book.onSeason,hz] <;> rfl
  · intro q hq
    simp only [State.book_publish,State.book_writeSeason,if_neg hq]
    ext t
    · simp [State.book,ht q t,hq]
    · simp [State.book,ht q t,hq]
    all_goals rfl

theorem setCommitted_posts {p : Nat} {n : Int} (hw : s.WellFormed)
    (h : setCommitted s p n=.ok s') : s.Posts s' p (.commit n) := by
  obtain ⟨v,hv,hn,hle,rfl⟩ := setCommitted_ok h
  have er := State.book_reserves hv
  have hc : (s.poolConfig p).isSome := by rw [← hw.solvency,hv]; rfl
  obtain ⟨c,hc⟩ := Option.isSome_iff_exists.mp hc
  refine ⟨⟨c,hc,hn,er ▸ hle⟩,?_,?_,rfl,rfl,isSome_update hv _,fun _ => rfl⟩
  · simp only [State.book_writeSolvency,if_true]
    simp [Book.post,State.book,hv]
  · intro q hq
    simp only [State.book_writeSolvency,if_neg hq]

end Posting

end Mvua.RiskPool
