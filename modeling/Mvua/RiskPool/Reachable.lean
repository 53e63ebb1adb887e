import Mvua.RiskPool.Refinement

namespace Mvua.RiskPool

/-- The entry that a call makes when it succeeds. -/
inductive Action.Makes : Action → Nat → Entry → Prop where
  | deposit (env : Env) (p : Nat) (t : Tier) (a : Address) (n m : Int) :
      Makes (.call env (.deposit p t a n)) p (.deposit t a n m)
  | withdraw (env : Env) (p : Nat) (t : Tier) (a : Address) (n u : Int) :
      Makes (.call env (.withdraw p t a n)) p (.withdraw t a n u)
  | openSeason (env : Env) (p : Nat) (z : Season) :
      Makes (.call env (.openSeason p)) p (.openSeason z)
  | activate (env : Env) (p i : Nat) :
      Makes (.call env (.activateSeason p i)) p (.advance i .active)
  | close (env : Env) (p i : Nat) :
      Makes (.call env (.closeSeason p i)) p (.advance i .closed)
  | premium (env : Env) (p i : Nat) (a : Address) (n pf qf : Int) :
      Makes (.call env (.collectPremium p i a n)) p (.premium i n pf qf)
  | refund (env : Env) (p i : Nat) (a : Address) (n : Int) :
      Makes (.call env (.refundPremium p i a n)) p (.refund i n)
  | payout (env : Env) (p i : Nat) (a : Address) (n : Int) :
      Makes (.call env (.payOut p i a n)) p (.payout i n)
  | settle (env : Env) (p i : Nat) : Makes (.call env (.settleSeason p i)) p (.settle i)
  | commit (p : Nat) (n : Int) : Makes (.setCommitted p n) p (.commit n)

/-- Every book is as it was, and storage stays well formed. -/
structure State.Keeps (s s' : State) : Prop where
  book : ∀ q, s'.book q=s.book q
  wellFormed : s.WellFormed → s'.WellFormed

theorem deploy_wellFormed (admin : Address) : (deploy admin).WellFormed where
  ids _ _ h := nomatch h
  accepted _ _ h := nomatch h
  blank _ _ := rfl
  sound _ := Book.blank_sound
  solvency _ := rfl
  treasury _ := rfl

theorem State.Posts.wellFormed {s s' : State} {p : Nat} {e : Entry} (h : s.Posts s' p e)
    (hw : s.WellFormed) : s'.WellFormed := by
  obtain ⟨c,hc,hadm⟩ := h.admits
  refine ⟨?_,?_,?_,?_,?_,?_⟩
  · rw [h.poolConfig,h.poolCount]; exact hw.ids
  · rw [h.poolConfig]; exact hw.accepted
  · intro q hq
    rw [h.poolConfig] at hq
    have hne : q≠p := by
      intro he
      rw [he,hc] at hq
      cases hq
    rw [h.frame q hne]
    exact hw.blank q hq
  · intro q
    by_cases hq : q=p
    · subst q
      rw [h.book]
      exact Entry.sound (hw.accepted p c hc) hadm (hw.sound p)
    · rw [h.frame q hq]
      exact hw.sound q
  · intro q; rw [h.solvency,h.poolConfig]; exact hw.solvency q
  · intro q; rw [h.treasury,h.poolConfig]; exact hw.treasury q

/-- A change of the configured addresses leaves every book alone. -/
theorem setPolicyContract_keeps {env : Env} {s s' : State} {a : Address}
    (h : setPolicyContract env s a=.ok s') : s.Keeps s' := by
  obtain ⟨-,rfl⟩ := setPolicyContract_ok h
  exact ⟨fun _ => rfl,fun hw => ⟨hw.ids,hw.accepted,hw.blank,hw.sound,hw.solvency,hw.treasury⟩⟩

theorem setPayoutVault_keeps {env : Env} {s s' : State} {a : Address}
    (h : setPayoutVault env s a=.ok s') : s.Keeps s' := by
  obtain ⟨-,rfl⟩ := setPayoutVault_ok h
  exact ⟨fun _ => rfl,fun hw => ⟨hw.ids,hw.accepted,hw.blank,hw.sound,hw.solvency,hw.treasury⟩⟩

theorem createPool_fresh {env : Env} {s s' : State} {c : PoolConfig} {p : Nat}
    (hw : s.WellFormed) (h : createPool env s c=.ok (p,s')) : s.poolConfig p=none := by
  obtain ⟨-,-,hp,-⟩ := createPool_ok h
  cases hc : s.poolConfig p with
  | none => rfl
  | some c' =>
    have := hw.ids _ _ hc
    omega

/-- A new pool starts with the blank books that an unused id already had. -/
theorem createPool_book {env : Env} {s s' : State} {c : PoolConfig} {p : Nat}
    (hw : s.WellFormed) (h : createPool env s c=.ok (p,s')) (q : Nat) : s'.book q=s.book q := by
  have hblank := hw.blank p (createPool_fresh hw h)
  obtain ⟨-,-,-,rfl⟩ := createPool_ok h
  simp only [State.book_publish,State.book_writeTreasury,State.book_writeSolvency,
    State.book_writeTranche]
  split_ifs with hq
  · subst q
    rw [hblank,show State.book { s with
      poolCount := some p, poolConfig := Function.update s.poolConfig p (some c) } p=
      s.book p from rfl,hblank]
    ext u <;> simp [Book.blank,Book.onTranche]
  · rfl

theorem createPool_keeps {env : Env} {s s' : State} {c : PoolConfig} {p : Nat}
    (hw : s.WellFormed) (h : createPool env s c=.ok (p,s')) : s.Keeps s' := by
  have hblank := hw.blank p (createPool_fresh hw h)
  have hbook := createPool_book hw h
  obtain ⟨-,hacc,hp,hs⟩ := createPool_ok h
  have hconfig : s'.poolConfig=Function.update s.poolConfig p (some c) := by rw [hs]; rfl
  have hsolv : s'.solvency=Function.update s.solvency p (some ⟨0,0⟩) := by rw [hs]; rfl
  have htreas : s'.treasury=Function.update s.treasury p (some ⟨0,0⟩) := by rw [hs]; rfl
  have hcount : s'.poolCount=some p := by rw [hs]; rfl
  have config_cases : ∀ q d, s'.poolConfig q=some d → q=p ∧ d=c ∨ s.poolConfig q=some d := by
    intro q d hd
    rw [hconfig] at hd
    by_cases hq : q=p
    · subst q
      simp only [Function.update_self,Option.some.injEq] at hd
      exact .inl ⟨rfl,hd.symm⟩
    · rw [Function.update_of_ne hq] at hd
      exact .inr hd
  refine ⟨hbook,fun _ => ⟨?_,?_,?_,?_,?_,?_⟩⟩
  · intro q d hd
    rw [hcount,Option.getD_some]
    rcases config_cases q d hd with ⟨rfl,-⟩ | hd
    · exact le_rfl
    · have := hw.ids q d hd
      omega
  · intro q d hd
    rcases config_cases q d hd with ⟨-,rfl⟩ | hd
    · exact hacc
    · exact hw.accepted q d hd
  · intro q hq
    rw [hbook]
    by_cases he : q=p
    · subst q; exact hblank
    · rw [hconfig,Function.update_of_ne he] at hq
      exact hw.blank q hq
  · intro q; rw [hbook]; exact hw.sound q
  · intro q
    rw [hsolv,hconfig]
    by_cases he : q=p
    · subst q; simp
    · simp [he,hw.solvency]
  · intro q
    rw [htreas,hconfig]
    by_cases he : q=p
    · subst q; simp
    · simp [he,hw.treasury]

/-- What is committed is covered by reserves, and no amount on record is negative. -/
structure State.Solvent (s : State) (p : Nat) : Prop where
  covered : ∀ v, s.solvency p=some v → 0≤v.committed ∧ v.committed≤v.reserves
  tranche : ∀ t v, s.tranche (p,t)=some v → 0≤v.deposited ∧ 0≤v.supply
  receipt : ∀ t a n, s.receipt (p,t,a)=some n → 0≤n
  season : ∀ i z, s.season (p,i)=some z → 0≤z.premiumsIn ∧ 0≤z.payoutsPaid
  treasury : ∀ v, s.treasury p=some v → 0≤v.protocolFees ∧ 0≤v.publisherFees

theorem State.WellFormed.solvent {s : State} (hw : s.WellFormed) (p : Nat) : s.Solvent p := by
  have hb := hw.sound p
  refine ⟨?_,?_,?_,?_,?_⟩
  · intro v hv
    have h := And.intro hb.committed hb.covered
    simpa [State.book,hv] using h
  · intro t v hv
    have h := And.intro (hb.deposited t) (hb.supply_nonneg t)
    simpa [State.book,readTranche,hv] using h
  · intro t a n hn
    have h := hb.receipt t a
    simpa [State.book,readReceipt,hn] using h
  · intro i z hz
    exact ⟨hb.premiums i z hz,hb.payouts i z hz⟩
  · intro v hv
    have h := And.intro hb.protocolFees hb.publisherFees
    simpa [State.book,hv] using h

section Runs

variable {L : Type} (T : TokenHost L) (self : Address)

/-- A successful step posts one entry to one pool's books, or keeps every book. -/
theorem step_cases {s s' : State} {l l' : L} {a : Action} (hw : s.WellFormed)
    (h : (machine T self).step (s,l) a=.ok (s',l')) :
    (s.Keeps s' ∧ ∀ p e, ¬a.Makes p e) ∨ ∃ p e, a.Makes p e ∧ s.Posts s' p e := by
  cases a with
  | setCommitted p n =>
    simp only [machine,except_map_eq_ok,Prod.mk.injEq] at h
    obtain ⟨u,hu,rfl,-⟩ := h
    exact .inr ⟨p,_,.commit p n,setCommitted_posts hw hu⟩
  | call env c =>
    have hran : Ran T self env s l c s' l' := invoke_ran h
    cases hran with
    | setPolicyContract policy hu =>
      exact .inl ⟨setPolicyContract_keeps hu,fun q e he => by cases he⟩
    | setPayoutVault vault hu =>
      exact .inl ⟨setPayoutVault_keeps hu,fun q e he => by cases he⟩
    | createPool config p hu => exact .inl ⟨createPool_keeps hw hu,fun q e he => by cases he⟩
    | deposit p t src n m hu => exact .inr ⟨p,_,.deposit env p t src n m,deposit_posts hu⟩
    | withdraw p t holder n m hu =>
      exact .inr ⟨p,_,.withdraw env p t holder n m,withdraw_posts hu⟩
    | openSeason p i hu =>
      obtain ⟨-,z,hz⟩ := openSeason_posts hu
      exact .inr ⟨p,_,.openSeason env p z,hz⟩
    | activateSeason p i hu =>
      exact .inr ⟨p,_,.activate env p i,transitionSeason_posts hw hu (.inl ⟨rfl,rfl⟩)⟩
    | closeSeason p i hu =>
      exact .inr ⟨p,_,.close env p i,transitionSeason_posts hw hu (.inr ⟨rfl,rfl⟩)⟩
    | collectPremium p i src n m hu =>
      obtain ⟨pf,qf,-,hp⟩ := collectPremium_posts hu
      exact .inr ⟨p,_,.premium env p i src n pf qf,hp⟩
    | refundPremium p i dst n m hu =>
      exact .inr ⟨p,_,.refund env p i dst n,refundPremium_posts hu⟩
    | payOut p i dst n m hu => exact .inr ⟨p,_,.payout env p i dst n,payOut_posts hu⟩
    | settleSeason p i net hu =>
      exact .inr ⟨p,_,.settle env p i,(settleSeason_posts hw hu).2⟩

/-- What a call does to the books of a pool: nothing, or it makes an entry there. -/
theorem next_book {x : State × L} (hw : x.1.WellFormed) (a : Action) (p : Nat) :
    ((machine T self).next x a).1.book p=x.1.book p ∨
    ∃ c e, a.Makes p e ∧ (machine T self).step x a=.ok ((machine T self).next x a) ∧
      e.Admits c (x.1.book p) ∧ ((machine T self).next x a).1.book p=(x.1.book p).post e := by
  cases h : (machine T self).step x a with
  | error e =>
    rw [(machine T self).next_of_error h]
    exact .inl rfl
  | ok y =>
    rw [(machine T self).next_of_ok h]
    rcases step_cases T self hw h with ⟨hk,-⟩ | ⟨q,e,he,hp⟩
    · exact .inl (hk.book p)
    · by_cases hq : p=q
      · subst hq
        obtain ⟨c,-,hadm⟩ := hp.admits
        exact .inr ⟨c,e,he,rfl,hadm,hp.book⟩
      · exact .inl (hp.frame p hq)

theorem step_wellFormed {s s' : State} {l l' : L} {a : Action} (hw : s.WellFormed)
    (h : (machine T self).step (s,l) a=.ok (s',l')) : s'.WellFormed := by
  rcases step_cases T self hw h with ⟨hk,-⟩ | ⟨p,e,-,hp⟩
  · exact hk.wellFormed hw
  · exact hp.wellFormed hw

theorem next_wellFormed {x : State × L} (hw : x.1.WellFormed) (a : Action) :
    ((machine T self).next x a).1.WellFormed := by
  rcases (machine T self).next_cases x a with h | h
  · rw [h]; exact hw
  · exact step_wellFormed T self hw h

/-- Storage is well formed after every run from deployment. -/
theorem run_wellFormed (admin : Address) (l : L) (actions : List Action) :
    ((machine T self).run (deploy admin,l) actions).1.WellFormed := by
  apply (machine T self).run_invariant (fun x => x.1.WellFormed)
  · intro s a t hw h
    exact step_wellFormed T self hw h
  · exact deploy_wellFormed admin

/-- Solvency over whole runs from deployment. -/
theorem run_solvent (admin : Address) (l : L) (actions : List Action) (p : Nat) :
    ((machine T self).run (deploy admin,l) actions).1.Solvent p :=
  (run_wellFormed T self admin l actions).solvent p

end Runs

end Mvua.RiskPool
