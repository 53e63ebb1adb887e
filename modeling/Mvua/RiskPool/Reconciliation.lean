import Mvua.RiskPool.Reachable

namespace Mvua.RiskPool

/-- What a season that is not settled has earned so far. -/
def Season.openNet (z : Season) : Int := if z.state=.settled then 0 else z.net

namespace Book

def openNet (b : Book) (i : Nat) : Int := ((b.season i).map Season.openNet).getD 0

def capital (b : Book) : Int := b.deposited .junior+b.deposited .senior

/-- The part of a negative result beyond both tranches. -/
def residual (b : Book) (net : Int) : Int :=
  if net<0 then Waterfall.residual [b.deposited .junior,b.deposited .senior] (-net) else 0

/-- Reserves are the capital and the open seasons' results, less an amount `u`. -/
def Reconciles (b : Book) (u : Int) : Prop := HasTotal b.openNet (b.reserves-b.capital+u)

end Book

def Entry.residual (b : Book) : Entry → Int
  | .settle id => b.residual (b.netOf id)
  | _ => 0

namespace Book

variable {b : Book}

theorem settled_loss {net : Int} (h : net<0) : [b.settled net .junior,b.settled net .senior]=
    Waterfall.bear [b.deposited .junior,b.deposited .senior] (-net) := by
  simp [settled,Waterfall.bear,show ¬0≤net by omega]

/-- A settlement moves the result into capital, apart from the residual. -/
theorem settled_capital (b : Book) (net : Int) :
    b.settled net .junior+b.settled net .senior=b.capital+net+b.residual net := by
  by_cases h : net<0
  · have hs := Waterfall.bear_sum [b.deposited .junior,b.deposited .senior] (-net)
    rw [← settled_loss h] at hs
    simp only [List.sum_cons,List.sum_nil] at hs
    simp only [capital,residual,if_pos h]
    omega
  · simp only [capital,residual,settled,if_neg h,show 0≤net by omega,if_true]
    omega

theorem residual_nonneg (b : Book) (net : Int) : 0≤b.residual net := by
  unfold residual
  split_ifs with h
  · exact Waterfall.residual_nonneg _ _ (by omega)
  · exact le_rfl

/-- A residual remains only when the settlement leaves no capital in either tranche. -/
theorem Sound.settled_of_residual (hb : b.Sound) {net : Int} (pos : 0<b.residual net) (t : Tier) :
    b.settled net t=0 := by
  unfold residual at pos
  split_ifs at pos with h
  · have hc : ∀ c∈[b.deposited .junior,b.deposited .senior], 0 ≤ c := by
      simp [hb.deposited]
    have hz := Waterfall.bear_of_residual _ _ hc (by omega) pos
    rw [← settled_loss h] at hz
    cases t
    · exact hz _ (by simp)
    · exact hz _ (by simp)
  · omega

theorem blank_reconciles : blank.Reconciles 0 := HasTotal.zero

/-- A season update changes the open total by that season's difference. -/
theorem openNet_onSeason {id : Nat} {f : Season → Season} {z : Season} (hz : b.season id=some z) :
    (b.onSeason id f).openNet=Function.update b.openNet id (f z).openNet := by
  funext i
  by_cases hi : i=id
  · subst i; simp [openNet,onSeason,hz]
  · simp [openNet,onSeason,hi]

theorem openNet_of_some {id : Nat} {z : Season} (hz : b.season id=some z) :
    b.openNet id=z.openNet := by
  simp [openNet,hz]

theorem netOf_of_some {id : Nat} {z : Season} (hz : b.season id=some z) : b.netOf id=z.net := by
  simp [netOf,hz]

end Book

/-- Reserves and capital that change together, with the same open results. -/
theorem Book.Reconciles.same {b c : Book} {u v : Int} (h : b.Reconciles u)
    (hc : c.openNet=b.openNet) (hv : c.reserves-c.capital+v=b.reserves-b.capital+u) :
    c.Reconciles v := by
  unfold Book.Reconciles
  rw [hc,hv]
  exact h

/-- A season update that changes the open result by what the reserves change by. -/
theorem Book.Reconciles.onSeason {b c : Book} {u v : Int} {id : Nat} {f : Season → Season}
    {z : Season} (h : b.Reconciles u) (hz : b.season id=some z)
    (hc : c.openNet=(b.onSeason id f).openNet)
    (hv : c.reserves-c.capital+v=b.reserves-b.capital+u-z.openNet+(f z).openNet) :
    c.Reconciles v := by
  have hu := HasTotal.update h id (f z).openNet
  rw [Book.openNet_of_some hz] at hu
  unfold Book.Reconciles
  rw [hc,Book.openNet_onSeason hz,hv]
  exact hu

/-- Every admitted entry keeps the books reconciled, up to its residual. -/
theorem Entry.reconciles {c : PoolConfig} {b : Book} {e : Entry} {u : Int} (h : e.Admits c b)
    (hb : b.Sound) (hr : b.Reconciles u) : (b.post e).Reconciles (u+e.residual b) := by
  cases e with
  | deposit t a amount minted =>
    have hcap : (b.post (.deposit t a amount minted)).capital=b.capital+amount := by
      cases t <;> simp [Book.post,Book.capital,Book.onTranche,Book.onReceipt] <;> omega
    refine hr.same rfl ?_
    rw [hcap]
    simp only [Book.post,Entry.residual]
    omega
  | withdraw t a receipts underlying =>
    have hcap : (b.post (.withdraw t a receipts underlying)).capital=b.capital-underlying := by
      cases t <;> simp [Book.post,Book.capital,Book.onTranche,Book.onReceipt] <;> omega
    refine hr.same rfl ?_
    rw [hcap]
    simp only [Book.post,Entry.residual]
    omega
  | openSeason z =>
    obtain ⟨-,hp,-,ho⟩ := h
    have hnew : b.season (b.seasons+1)=none := hb.fresh _ (by omega)
    have hz : z.openNet=0 := by simp [Season.openNet,Season.net,hp,ho]
    have he : (b.post (.openSeason z)).openNet=b.openNet := by
      funext i
      by_cases hi : i=b.seasons+1
      · subst i; simp [Book.openNet,Book.post,hz,hnew]
      · simp [Book.openNet,Book.post,hi]
    apply hr.same he
    rw [show Entry.residual b (.openSeason z)=0 from rfl,add_zero]
    rfl
  | advance id dst =>
    have hz : ∃ z, b.season id=some z ∧ z.state≠.settled ∧ dst≠.settled := by
      rcases h with ⟨hs,rfl⟩ | ⟨hs,rfl⟩
      · obtain ⟨z,hz,hn⟩ := hs.unsettled (by simp) (by simp)
        exact ⟨z,hz,hn,by simp⟩
      · obtain ⟨z,hz,hn⟩ := hs.unsettled (by simp) (by simp)
        exact ⟨z,hz,hn,by simp⟩
    obtain ⟨z,hz,hn,hd⟩ := hz
    refine hr.onSeason hz (f := fun z => { z with state := dst }) rfl ?_
    simp only [Season.openNet,if_neg hn,if_neg hd,Season.net,Entry.residual,
      Book.post,Book.onSeason,Book.capital]
    omega
  | premium id gross p q =>
    obtain ⟨z,hz,hn⟩ := h.1.unsettled (by simp) (by simp)
    refine hr.onSeason hz
      (f := fun z => { z with premiumsIn := z.premiumsIn+(gross-p-q) }) rfl ?_
    simp only [Season.openNet,if_neg hn,Season.net,Entry.residual,Book.post,Book.onSeason,
      Book.capital]
    omega
  | refund id net =>
    obtain ⟨z,hz,hn⟩ := h.1.unsettled (by simp) (by simp)
    refine hr.onSeason hz (f := fun z => { z with premiumsIn := z.premiumsIn-net }) rfl ?_
    simp only [Season.openNet,if_neg hn,Season.net,Entry.residual,Book.post,Book.onSeason,
      Book.capital]
    omega
  | payout id amount =>
    obtain ⟨z,hz,hn⟩ := h.1.unsettled (by simp) (by simp)
    refine hr.onSeason hz (f := fun z => { z with payoutsPaid := z.payoutsPaid+amount }) rfl ?_
    simp only [Season.openNet,if_neg hn,Season.net,Entry.residual,Book.post,Book.onSeason,
      Book.capital]
    omega
  | settle id =>
    obtain ⟨z,hz,hn⟩ := Book.SeasonIn.unsettled h (by simp) (by simp)
    refine hr.onSeason hz (f := fun z => { z with state := .settled }) rfl ?_
    have hc := b.settled_capital (b.netOf id)
    rw [Book.netOf_of_some hz] at hc
    simp only [Season.openNet,if_neg hn,if_true,Entry.residual,Book.post,Book.onSeason,
      Book.netOf_of_some hz]
    simp only [Book.capital] at hc ⊢
    omega
  | commit amount =>
    refine hr.same rfl ?_
    rw [show Entry.residual b (.commit amount)=0 from rfl,add_zero]
    rfl

section Runs

variable {L : Type} (T : TokenHost L) (self : Address)

/-- The part of the loss that a settlement of pool `p` takes from neither tranche. -/
def unabsorbed (p : Nat) (x : State × L) : Action → Int
  | .call env (.settleSeason q i) =>
      match settleSeason env x.1 q i with
      | .ok (net,s') =>
          if q=p ∧ net<0 then -net-((x.1.book p).capital-(s'.book p).capital) else 0
      | .error _ => 0
  | _ => 0

variable {s s' : State} {l l' : L} {env : Env} {p i : Nat} {net : Int}

theorem settle_book (hw : s.WellFormed) (h : settleSeason env s p i=.ok (net,s')) (t : Tier) :
    (s'.book p).deposited t=(s.book p).settled net t := by
  obtain ⟨hn,hp⟩ := settleSeason_posts hw h
  rw [hp.book,Book.post,hn]

theorem settle_capital (hw : s.WellFormed) (h : settleSeason env s p i=.ok (net,s')) :
    (s'.book p).capital=(s.book p).capital+net+(s.book p).residual net := by
  rw [← Book.settled_capital,Book.capital,settle_book hw h,settle_book hw h]

theorem unabsorbed_settle (hw : s.WellFormed) (h : settleSeason env s p i=.ok (net,s')) :
    unabsorbed p (s,l) (.call env (.settleSeason p i))=(s.book p).residual net := by
  have hc := settle_capital hw h
  simp only [unabsorbed,h,true_and]
  split_ifs with hneg
  · omega
  · simp [Book.residual,hneg]

/-- An action is a settlement, or it leaves no loss unabsorbed. -/
theorem settles_or_absorbs (a : Action) : (∃ env q i, a=.call env (.settleSeason q i)) ∨
    (∀ p (x : State × L), unabsorbed p x a=0) ∧ ∀ p e, a.Makes p e → ∀ b, e.residual b=0 := by
  by_cases h : ∃ env q i, a=.call env (.settleSeason q i)
  · exact .inl h
  · refine .inr ⟨?_,?_⟩
    · intro p x
      unfold unabsorbed
      split
      · rename_i env q i
        exact absurd ⟨env,q,i,rfl⟩ h
      · rfl
    · intro p e he b
      cases he with
      | settle env q i => exact absurd ⟨env,_,i,rfl⟩ h
      | _ => rfl

/-- One step, successful or not, keeps a pool reconciled up to what it leaves unabsorbed. -/
theorem next_reconciles (hw : s.WellFormed) (a : Action) (u : Int) (hr : (s.book p).Reconciles u) :
    (((machine T self).next (s,l) a).1.book p).Reconciles (u+unabsorbed p (s,l) a) := by
  have posts : ∀ {s' : State} {q : Nat} {e : Entry}, s.Posts s' q e → q=p →
      (s'.book p).Reconciles (u+e.residual (s.book p)) := by
    intro s' q e hp hq
    subst hq
    obtain ⟨c,-,hadm⟩ := hp.admits
    rw [hp.book]
    exact Entry.reconciles hadm (hw.sound _) hr
  rcases settles_or_absorbs (L := L) a with ⟨env,q,i,rfl⟩ | ⟨hzero,hres⟩
  · cases h : settleSeason env s q i with
    | error e =>
      rw [(machine T self).next_of_error (e := e) (by simp [machine,invoke,h,Except.map])]
      simpa [unabsorbed,h] using hr
    | ok r =>
      obtain ⟨net,s'⟩ := r
      rw [(machine T self).next_of_ok (t := (s',l)) (by simp [machine,invoke,h,Except.map])]
      obtain ⟨hn,hp⟩ := settleSeason_posts hw h
      by_cases hq : q=p
      · subst q
        rw [unabsorbed_settle hw h]
        simpa only [Entry.residual,hn] using posts hp rfl
      · rw [show (s',l).1.book p=s.book p from hp.frame p (Ne.symm hq)]
        simpa [unabsorbed,h,hq] using hr
  · rw [hzero,add_zero]
    cases h : (machine T self).step (s,l) a with
    | error e => rw [(machine T self).next_of_error h]; exact hr
    | ok x =>
      obtain ⟨s',l'⟩ := x
      rw [(machine T self).next_of_ok h]
      rcases step_cases T self hw h with ⟨hk,-⟩ | ⟨q,e,he,hp⟩
      · rw [hk.book]; exact hr
      · by_cases hq : q=p
        · simpa [hres q e he] using posts hp hq
        · rw [hp.frame p (Ne.symm hq)]; exact hr

/-- After every run, reserves reconcile with capital, open seasons and what was unabsorbed. -/
theorem run_reconciles (admin : Address) (l : L) (actions : List Action) (p : Nat) :
    (((machine T self).run (deploy admin,l) actions).1.book p).Reconciles
      ((machine T self).tally (unabsorbed p) (deploy admin,l) actions) := by
  have h := (machine T self).run_tally
    (fun x u => x.1.WellFormed ∧ (x.1.book p).Reconciles u) (unabsorbed p)
    (fun x a u h => ⟨next_wellFormed T self h.1 a,next_reconciles T self h.1 a u h.2⟩)
    actions (deploy admin,l) 0 ⟨deploy_wellFormed admin,Book.blank_reconciles⟩
  simpa using h.2

theorem unabsorbed_nonneg {x : State × L} (hw : x.1.WellFormed) (a : Action) :
    0≤unabsorbed p x a := by
  obtain ⟨s,l⟩ := x
  rcases settles_or_absorbs (L := L) a with ⟨env,q,i,rfl⟩ | ⟨hzero,-⟩
  · cases h : settleSeason env s q i with
    | error e => simp [unabsorbed,h]
    | ok r =>
      by_cases hq : q=p
      · subst q
        rw [unabsorbed_settle hw h]
        exact Book.residual_nonneg _ _
      · simp [unabsorbed,h,hq]
  · rw [hzero]

/-- Only a settlement that leaves both tranches empty leaves a loss unabsorbed. -/
theorem drained_of_unabsorbed {x : State × L} (hw : x.1.WellFormed) (a : Action)
    (pos : 0<unabsorbed p x a) : (∃ env i, a=.call env (.settleSeason p i)) ∧
    ∀ t, (((machine T self).next x a).1.book p).deposited t=0 := by
  obtain ⟨s,l⟩ := x
  rcases settles_or_absorbs (L := L) a with ⟨env,q,i,rfl⟩ | ⟨hzero,-⟩
  · cases h : settleSeason env s q i with
    | error e => simp [unabsorbed,h] at pos
    | ok r =>
      obtain ⟨net,s'⟩ := r
      by_cases hq : q=p
      · subst q
        rw [unabsorbed_settle hw h] at pos
        refine ⟨⟨env,i,rfl⟩,fun t => ?_⟩
        rw [(machine T self).next_of_ok (t := (s',l)) (by simp [machine,invoke,h,Except.map]),
          settle_book hw h]
        exact (hw.sound _).settled_of_residual pos t
      · simp [unabsorbed,h,hq] at pos
  · rw [hzero] at pos
    omega

/-- Reserves are tranche capital plus the results of the seasons that are not settled, less
the losses that settlements could take from neither tranche; that total starts at zero and
grows only in a settlement that leaves both tranches empty. -/
theorem reserves_reconcile (admin : Address) (l : L) (actions : List Action) (p : Nat) :
    let U := fun as => (machine T self).tally (unabsorbed p) (deploy admin,l) as
    let b := fun as => ((machine T self).run (deploy admin,l) as).1.book p
    (∃ n, HasTotal (b actions).openNet n ∧
      (b actions).reserves=(b actions).capital+n-U actions) ∧
    U []=0 ∧
    ∀ a, U actions≤U (actions++[a]) ∧ (U actions<U (actions++[a]) →
      (∃ env i, a=.call env (.settleSeason p i)) ∧ ∀ t, (b (actions++[a])).deposited t=0) := by
  intro U b
  have hw := run_wellFormed T self admin l actions
  refine ⟨⟨_,run_reconciles T self admin l actions p,?_⟩,rfl,fun a => ?_⟩
  · simp only [U,b]
    omega
  · have hn := unabsorbed_nonneg (p := p) hw a
    simp only [U,b,Machine.tally_concat,Machine.run_concat]
    refine ⟨by omega,fun hlt => ?_⟩
    exact drained_of_unabsorbed T self hw a (by omega)

theorem run_unabsorbed_nonneg (admin : Address) (l : L) (actions : List Action) (p : Nat) :
    0≤(machine T self).tally (unabsorbed p) (deploy admin,l) actions := by
  have h := (machine T self).run_tally (fun x u => x.1.WellFormed ∧ 0≤u) (unabsorbed p)
    (fun x a u h => ⟨next_wellFormed T self h.1 a,add_nonneg h.2 (unabsorbed_nonneg h.1 a)⟩)
    actions (deploy admin,l) 0 ⟨deploy_wellFormed admin,le_rfl⟩
  simpa using h.2

/-- A season settled at a loss takes what it can from junior, then from senior. What is left
of the loss is covered by the results of the pool's other open seasons. -/
structure AbsorbsLoss (b b' : Book) (i : Nat) (loss U : Int) : Prop where
  junior : b.deposited .junior-b'.deposited .junior=min loss (b.deposited .junior)
  senior : b.deposited .senior-b'.deposited .senior=
    min (loss-min loss (b.deposited .junior)) (b.deposited .senior)
  residual : ∃ others, HasTotal (Function.update b.openNet i 0) others ∧
    (b.capital<loss → loss-b.capital+U≤others)
  alone : (∀ j z, j≠i → b.season j=some z → z.state=.settled) → b.capital-b'.capital=loss

/-- What settlements absorb, and what backs a pool at rest. -/
theorem settlement_absorbs (admin : Address) (l : L) (actions : List Action) (p : Nat) :
    let s := ((machine T self).run (deploy admin,l) actions).1
    let U := (machine T self).tally (unabsorbed p) (deploy admin,l) actions
    (∀ env i net s', settleSeason env s p i=.ok (net,s') → net<0 →
      AbsorbsLoss (s.book p) (s'.book p) i (-net) U) ∧
    ((∀ i z, s.season (p,i)=some z → z.state=.settled) →
      (s.book p).reserves=(s.book p).capital-U) := by
  intro s U
  have hw : s.WellFormed := run_wellFormed T self admin l actions
  have hr : (s.book p).Reconciles U := run_reconciles T self admin l actions p
  have hU : 0≤U := run_unabsorbed_nonneg T self admin l actions p
  have hj := (hw.sound p).deposited .junior
  have hs := (hw.sound p).deposited .senior
  have hres := (hw.sound p).committed.trans (hw.sound p).covered
  constructor
  · intro env i net s' h hneg
    have hJ := settle_book hw h .junior
    have hS := settle_book hw h .senior
    simp only [Book.settled,show ¬0≤net by omega,if_false] at hJ hS
    obtain ⟨z,-,hz,-,hst,rfl,-⟩ := settleSeason_ok h
    have hopen : (s.book p).openNet i=z.net := by
      rw [Book.openNet_of_some (show (s.book p).season i=some z from hz),Season.openNet,hst]
      simp
    have ho := HasTotal.update hr i 0
    rw [hopen] at ho
    refine ⟨by omega,by omega,⟨_,ho,fun _ => by omega⟩,fun halone => ?_⟩
    have hzero : Function.update (s.book p).openNet i 0=fun _ => 0 := by
      funext j
      by_cases hji : j=i
      · subst j; simp
      · cases hy : (s.book p).season j with
        | none => simp [hji,Book.openNet,hy]
        | some y => simp [hji,Book.openNet,hy,Season.openNet,halone j y hji hy]
    rw [hzero] at ho
    have ho := ho.unique HasTotal.zero
    simp only [Book.capital] at ho ⊢
    omega
  · intro hall
    have hzero : (s.book p).openNet=fun _ => 0 := by
      funext j
      cases hy : (s.book p).season j with
      | none => simp [Book.openNet,hy]
      | some y => simp [Book.openNet,hy,Season.openNet,hall j y hy]
    have ht : HasTotal (s.book p).openNet _ := hr
    rw [hzero] at ht
    have ht := ht.unique HasTotal.zero
    omega

end Runs

section Residual

/-- A pool without fees and caps, and a holder of both tranches. -/
def plainConfig : PoolConfig := ⟨⟨9⟩,[⟨1⟩],100,⟨0,0⟩,⟨0,0⟩,⟨0,0,0,0⟩,false⟩

def plainEnv : Env := ⟨1000,[⟨0⟩,⟨2⟩,⟨3⟩]⟩

def plainFunds : Address → Address → Int := fun _ who => if who=⟨3⟩ then 1000000 else 0

def plainStart : State × (Address → Address → Int) := (deploy ⟨0⟩,plainFunds)

/-- A pool with capital 100 in each tranche and two active seasons. -/
def twoSeasons : List Action := [
  .call plainEnv (.setPayoutVault ⟨2⟩),
  .call plainEnv (.createPool plainConfig),
  .call plainEnv (.deposit 1 .junior ⟨3⟩ 100),
  .call plainEnv (.deposit 1 .senior ⟨3⟩ 100),
  .call plainEnv (.openSeason 1),
  .call plainEnv (.openSeason 1),
  .call plainEnv (.activateSeason 1 1),
  .call plainEnv (.activateSeason 1 2)]

/-- The second season pays out of the premiums of the first. -/
def sharedReserves : List Action := twoSeasons++[
  .call plainEnv (.collectPremium 1 1 ⟨3⟩ 1000),
  .call plainEnv (.payOut 1 2 ⟨4⟩ 500),
  .call plainEnv (.closeSeason 1 1),
  .call plainEnv (.closeSeason 1 2)]

def bothSettled : List Action := sharedReserves++[
  .call plainEnv (.settleSeason 1 2),
  .call plainEnv (.settleSeason 1 1)]

/-- A loss of 500 takes 200 from the tranches, and at rest the capital exceeds the reserves. -/
theorem shared_reserves_leave_residual :
    let s := ((machine TokenHost.ledger ⟨1⟩).run plainStart sharedReserves).1
    let t := ((machine TokenHost.ledger ⟨1⟩).run plainStart bothSettled).1
    (settleSeason plainEnv s 1 2).map (fun r => (r.1,(s.book 1).capital-(r.2.book 1).capital))=
      .ok (-500,200) ∧
    t.seasonCount 1=some 2 ∧ (t.season (1,1)).map Season.state=some .settled ∧
    (t.season (1,2)).map Season.state=some .settled ∧
    (t.book 1).reserves=700 ∧ (t.book 1).capital=1000 := by
  decide +kernel

private theorem bothSettled_seasons (i : Nat) (z : Season)
    (hz : ((machine TokenHost.ledger ⟨1⟩).run plainStart bothSettled).1.season (1,i)=some z) :
    z.state=.settled := by
  have hb := (run_wellFormed TokenHost.ledger ⟨1⟩ ⟨0⟩ plainFunds bothSettled).sound 1
  have hcount : (((machine TokenHost.ledger ⟨1⟩).run plainStart bothSettled).1.book 1).seasons=2 := by
    decide +kernel
  have hst : ∀ j<3, ∀ s∈(((machine TokenHost.ledger ⟨1⟩).run plainStart bothSettled).1.season
      (1,j)).map Season.state, s=.settled := by
    decide +kernel
  by_cases hi : i<3
  · exact hst i hi _ (by rw [hz]; rfl)
  · have hnone := hb.fresh i (by have := hcount; simp only [plainStart] at this; omega)
    cases (show some z=none from hz.symm.trans hnone)

/-- The second season's loss takes all capital, and then reserves fall short by the rest. -/
theorem settlement_absorbs_shared :
    let s := ((machine TokenHost.ledger ⟨1⟩).run plainStart sharedReserves).1
    let t := ((machine TokenHost.ledger ⟨1⟩).run plainStart bothSettled).1
    (∃ s', settleSeason plainEnv s 1 2=.ok (-500,s') ∧
      AbsorbsLoss (s.book 1) (s'.book 1) 2 500 0) ∧
    (t.book 1).reserves=(t.book 1).capital-300 := by
  intro s t
  have hs := (settlement_absorbs TokenHost.ledger ⟨1⟩ ⟨0⟩ plainFunds sharedReserves 1).1
  have ht := (settlement_absorbs TokenHost.ledger ⟨1⟩ ⟨0⟩ plainFunds bothSettled 1).2
    bothSettled_seasons
  have hU : (machine TokenHost.ledger ⟨1⟩).tally (unabsorbed 1) plainStart sharedReserves=0 := by
    decide +kernel
  have hU' : (machine TokenHost.ledger ⟨1⟩).tally (unabsorbed 1) plainStart bothSettled=300 := by
    decide +kernel
  have hnet : (settleSeason plainEnv s 1 2).map (fun r => r.1)=.ok (-500) := by
    decide +kernel
  rw [except_map_eq_ok] at hnet
  obtain ⟨⟨net,s'⟩,h,rfl⟩ := hnet
  refine ⟨⟨s',h,?_⟩,?_⟩
  · have ha := hs _ _ _ _ h (by omega)
    rw [show (deploy ⟨0⟩,plainFunds)=plainStart from rfl,hU] at ha
    exact ha
  · rw [show (deploy ⟨0⟩,plainFunds)=plainStart from rfl,hU'] at ht
    exact ht

end Residual

end Mvua.RiskPool
