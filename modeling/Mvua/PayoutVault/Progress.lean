import Mvua.PayoutVault.Withdrawals
import Mvua.PayoutVault.Books
import Mvua.RiskPool.Holdings

namespace Mvua.RiskPool

theorem payOut_succeeds {L : Type} {T : TokenHost L} {self : Address} {env : Env} {s : State}
    {l : L} (dst : Address) (hT : T.Settles) (hw : s.WellFormed) (hb : s.Bounded)
    (hcov : Covers T self s l) {p i : Nat} {n : Int} {z : Season}
    (hauth : requirePayoutVault env s=.ok ()) (hn : 0<n) (hz : s.season (p,i)=some z)
    (hst : z.state=.active ∨ z.state=.closed) (hfits : z.payoutsPaid+n<2^127)
    (hreserves : (s.book p).committed≤(s.book p).reserves-n) :
    ∃ s' l', payOut T self env s l p i dst n=.ok (n,s',l') := by
  obtain ⟨c,hc⟩ := hw.config_of_season hz
  obtain ⟨v,hv⟩ := hw.solvency_of_config hc
  have hbalance := hcov.reserves_le hw hc
  have hcommitted := (hw.sound p).committed
  have hpaid := (hw.sound p).payouts i z hz
  have hrange := hb.reserves p
  rw [State.book_reserves hv] at hreserves hbalance hrange
  rw [State.book_committed hv] at hreserves hcommitted
  obtain ⟨l',hl⟩ := Option.isSome_iff_exists.mp
    (hT.pays l c.token self dst n hn.le (by omega))
  have paying : ¬(z.state≠.active ∧ z.state≠.closed) := by tauto
  have fits : SignedFits 128 (v.reserves-n) := ⟨by omega,by omega⟩
  have fits' : SignedFits 128 (z.payoutsPaid+n) := ⟨by omega,by omega⟩
  refine ⟨((s.writeSeason p i { z with payoutsPaid := z.payoutsPaid+n }).writeSolvency p
    { v with reserves := v.reserves-n }).publish (.payoutReleased p i dst n),l',?_⟩
  simp only [payOut,bind_eq_ok,pure_eq_ok,failIf_eq_ok,okOr_eq_ok,readConfig_eq_ok,
    TokenHost.send_eq_ok,readSolvency_eq_ok,readSeason_eq_ok,Signed.checkedSub_eq_some,
    Signed.checkedAdd_eq_some,Prod.mk.injEq]
  exact ⟨(),hauth,(),by omega,c,hc,z,hz,(),paying,v,hv,(),by omega,_,⟨fits,rfl⟩,(),by omega,_,
    ⟨fits',rfl⟩,l',hl,trivial,rfl,rfl⟩

end Mvua.RiskPool

namespace Mvua.PayoutVault

def share (severity : Bps) (entry : PayoutEntry) : Int :=
  (entry.coverage*(severity : Int)).tdiv 10000

def owedTo (severity : Bps) (entries : List PayoutEntry) (owner : Address) : Int :=
  owed severity (entries.filter fun entry => entry.owner=owner)

/-- The rest of a batch can be paid: its season pays out of reserves that cover the entries, none
of them was paid, and every sum has room. -/
structure Ready {L : Type} (T : TokenHost L) (net : Network) (r : BatchRun L) (p z : Nat)
    (severity : Bps) (entries : List PayoutEntry) : Prop where
  sound : r.world.Sound net
  bounded : r.world.riskPool.Bounded
  covers : RiskPool.Covers T net.riskPool r.world.riskPool r.world.ledger
  vault : r.world.riskPool.payoutVault=some net.vault
  season : ∃ y, r.world.riskPool.season (p,z)=some y ∧ (y.state=.active ∨ y.state=.closed) ∧
    y.payoutsPaid+owed severity entries<2^127
  reserves : owed severity entries≤(r.world.riskPool.book p).reserves
  coverage : ∀ entry∈entries, 0<entry.coverage ∧ entry.coverage*(severity : Int)<2^127
  unpaid : ∀ entry∈entries, r.world.vault.payout entry.policyId=none
  distinct : (entries.map PayoutEntry.policyId).Nodup
  claims : ∀ entry∈entries, 0 ≤ readClaim r.world.vault entry.owner ∧
    readClaim r.world.vault entry.owner+owed severity entries<2^127
  disbursed : 0≤r.progress.totalDisbursed ∧
    r.progress.totalDisbursed+owed severity entries<2^127
  counted : r.progress.policiesPaid+entries.length<2^32 ∧ r.paid+entries.length<2^32

section Entries

variable {L : Type} {T : TokenHost L} {net : Network} {env : Env} {r : BatchRun L}
  {i n p z t : Nat} {severity : Bps} {entry : PayoutEntry} {entries : List PayoutEntry}

variable (severity) in
theorem share_nonneg (h : 0<entry.coverage) : 0≤ share severity entry :=
  Int.tdiv_nonneg (mul_nonneg h.le (by omega)) (by omega)

theorem owedTo_cons (owner : Address) : owedTo severity (entry::entries) owner=
    (if entry.owner=owner then share severity entry else 0)+owedTo severity entries owner := by
  by_cases h : entry.owner=owner
  · simp only [owedTo,List.filter_cons,h,decide_true,if_true,owed_cons]
    rfl
  · simp only [owedTo,List.filter_cons,h,decide_false,if_false,zero_add]
    rfl

theorem payoutFor_succeeds {s : TriggerEngine.State} (hs : s.Sound)
    (hfinal : TriggerEngine.readState s i n=.finalized t severity) (hcov : 0<entry.coverage)
    (hfits : entry.coverage*(severity : Int)<2^127) :
    TriggerEngine.payoutFor s i n entry.coverage=.ok (share severity entry) := by
  have hprod : 0≤entry.coverage*(severity : Int) := mul_nonneg hcov.le (by omega)
  obtain ⟨hshare,hle,-⟩ := tdiv_bounds (entry.coverage*(severity : Int)) 10000 hprod (by omega)
  have hscaled : applyBps entry.coverage severity=some (share severity entry) := by
    simp only [applyBps,bind,Option.bind_eq_some_iff,Signed.checkedMul_eq_some,
      Signed.checkedDiv_eq_some,bpsDenominator]
    refine ⟨_,⟨⟨by omega,by omega⟩,rfl⟩,by omega,⟨?_,?_⟩,rfl⟩ <;> omega
  have hpays : TriggerEngine.payoutFor s i n entry.coverage=
      .ok (min (share severity entry) entry.coverage) := by
    simp only [TriggerEngine.payoutFor,hfinal,hscaled,okOr,ok_bind]
    rfl
  obtain ⟨t',severity',hsame,hamount,-⟩ := payoutFor_ok hs hcov hpays
  rw [hfinal,TriggerEngine.TriggerStatus.finalized.injEq] at hsame
  rw [hpays,hamount,← hsame.2]
  rfl

variable (env) in
/-- The pool pays the next entry of a batch that is ready. -/
theorem Ready.payOut_succeeds (hT : T.Settles) (h : Ready T net r p z severity (entry::entries))
    (hpos : 0 < share severity entry) : ∃ y s' l', r.world.riskPool.season (p,z)=some y ∧
      RiskPool.payOut T net.riskPool (env.invokedBy net.vault) r.world.riskPool r.world.ledger p z
        net.vault (share severity entry)=.ok (share severity entry,s',l') := by
  obtain ⟨y,hy,hst,hfits⟩ := h.season
  have hreserves := h.reserves
  have howed : 0≤owed severity entries := owed_nonneg fun e he => (h.coverage e (by simp [he])).1
  have hcommitted := h.sound.uncommitted p
  rw [owed_cons] at hfits hreserves
  change _+(share severity entry+_)<_ at hfits
  change share severity entry+_≤_ at hreserves
  have hauth : RiskPool.requirePayoutVault (env.invokedBy net.vault) r.world.riskPool=.ok () :=
    (requireStored_iff h.vault).mpr (by simp [Env.invokedBy])
  obtain ⟨s',l',hpay⟩ := RiskPool.payOut_succeeds net.vault hT h.sound.pools h.bounded h.covers
    hauth hpos hy hst (by omega) (by omega)
  exact ⟨y,s',l',hy,hpay⟩

theorem Ready.skip (h : Ready T net r p z severity (entry::entries))
    (hzero : share severity entry=0) : Ready T net r p z severity entries := by
  have howed : owed severity (entry::entries)=owed severity entries := by
    rw [owed_cons]
    change share severity entry+_=_
    omega
  obtain ⟨hpolicies,hpaid⟩ := h.counted
  rw [List.length_cons] at hpolicies hpaid
  have hseason := h.season
  have hreserves := h.reserves
  have hdisbursed := h.disbursed
  rw [howed] at hseason hreserves hdisbursed
  exact { h with
    season := hseason
    reserves := hreserves
    coverage := (List.forall_mem_cons.mp h.coverage).2
    unpaid := (List.forall_mem_cons.mp h.unpaid).2
    distinct := (List.nodup_cons.mp h.distinct).2
    claims := fun e he => howed ▸ (List.forall_mem_cons.mp h.claims).2 e he
    disbursed := hdisbursed
    counted := ⟨by omega,by omega⟩ }

theorem Ready.pay (hT : T.Settles) (hself : net.riskPool∉(env.invokedBy net.vault).signers)
    {r' : BatchRun L} {s' : RiskPool.State} {l' : L} {m : Int}
    (h : Ready T net r p z severity (entry::entries))
    (hsound : r'.world.Sound net)
    (hpay : RiskPool.payOut T net.riskPool (env.invokedBy net.vault) r.world.riskPool
      r.world.ledger p z net.vault (share severity entry)=.ok (m,s',l'))
    (hr : r'=⟨⟨s',r.world.triggerEngine,r.world.vault.credit env entry (share severity entry),l'⟩,
      { r.progress with
        totalDisbursed := r.progress.totalDisbursed+share severity entry
        policiesPaid := r.progress.policiesPaid+1 },r.paid+1⟩) :
    Ready T net r' p z severity entries := by
  subst hr
  have howed : owed severity (entry::entries)=share severity entry+owed severity entries :=
    owed_cons severity entry entries
  have hcall : RiskPool.invoke T net.riskPool (env.invokedBy net.vault)
      (.payOut p z net.vault (share severity entry)) r.world.riskPool r.world.ledger=
      .ok (s',l') := by
    simp [RiskPool.invoke,hpay,Except.map]
  obtain ⟨hnew,hdistinct⟩ := List.nodup_cons.mp h.distinct
  obtain ⟨hpolicies,hpaid⟩ := h.counted
  obtain ⟨hnonneg,hdisbursed⟩ := h.disbursed
  obtain ⟨y,hy,hst,hfits⟩ := h.season
  have hreserves := h.reserves
  have hbook := (RiskPool.payOut_posts hpay).book
  obtain ⟨_,y',v,-,hy',-,-,-,hpos,-,-,-,-,hs'⟩ := RiskPool.payOut_ok hpay
  rw [hy,Option.some.injEq] at hy'
  subst hy'
  rw [howed] at hfits hreserves hdisbursed
  rw [List.length_cons] at hpolicies hpaid
  refine ⟨hsound,RiskPool.invoke_bounded h.sound.pools h.bounded hcall,
    RiskPool.invoke_covers hT h.sound.pools hself h.covers hcall,?_,
    ⟨{ y with payoutsPaid := y.payoutsPaid+share severity entry },?_,hst,?_⟩,?_,
    (List.forall_mem_cons.mp h.coverage).2,?_,hdistinct,?_,⟨?_,?_⟩,⟨?_,?_⟩⟩
  · rw [hs']
    exact h.vault
  · rw [hs']
    simp [RiskPool.State.publish,RiskPool.State.writeSolvency,RiskPool.State.writeSeason]
  · change y.payoutsPaid+share severity entry+_<_
    omega
  · change _≤(s'.book p).reserves
    rw [hbook]
    change _≤(r.world.riskPool.book p).reserves-share severity entry
    omega
  · intro e he
    have hne : e.policyId≠entry.policyId := fun hsame =>
      hnew (List.mem_map.mpr ⟨e,he,hsame⟩)
    rw [payout_credit,if_neg hne]
    exact h.unpaid e (by simp [he])
  · intro e he
    obtain ⟨hclaim,hroom⟩ := h.claims e (by simp [he])
    obtain ⟨hclaim',hroom'⟩ := h.claims entry (by simp)
    rw [howed] at hroom hroom'
    rw [readClaim_credit]
    split_ifs <;> exact ⟨by omega,by omega⟩
  · change 0≤r.progress.totalDisbursed+share severity entry
    omega
  · change r.progress.totalDisbursed+share severity entry+_<_
    omega
  · change r.progress.policiesPaid+1+_<_
    omega
  · change r.paid+1+_<_
    omega

/-- What paying a list of entries does to the vault. -/
structure Disburses (r r' : BatchRun L) (env : Env) (severity : Bps) (entries : List PayoutEntry) :
    Prop where
  engine : r'.world.triggerEngine=r.world.triggerEngine
  token : r'.world.vault.token=r.world.vault.token
  claims : ∀ owner, readClaim r'.world.vault owner=
    readClaim r.world.vault owner+owedTo severity entries owner
  paid : ∀ entry∈entries, 0 < share severity entry →
    r'.world.vault.payout entry.policyId=some ⟨entry.owner,share severity entry,env.timestamp⟩
  others : ∀ id, id∉entries.map PayoutEntry.policyId →
    r'.world.vault.payout id=r.world.vault.payout id

/-- The next entry of a batch that is ready goes through, and the rest is ready. -/
theorem payEntry_succeeds (hT : T.Settles) (hself : net.riskPool∉(env.invokedBy net.vault).signers)
    (hfinal : TriggerEngine.readState r.world.triggerEngine i n=.finalized t severity)
    (h : Ready T net r p z severity (entry::entries)) :
    ∃ r', payEntry T net env net.riskPool net.triggerEngine i n p z r entry=.ok r' ∧
      Ready T net r' p z severity entries ∧ Disburses r r' env severity [entry] := by
  obtain ⟨hcov,hfits⟩ := h.coverage entry (by simp)
  have hnone := h.unpaid entry (by simp)
  have hamount := payoutFor_succeeds h.sound.triggers hfinal hcov hfits
  have hasked : callPayoutFor net net.triggerEngine r.world i n entry.coverage=
      .ok (share severity entry) := by
    simp [callPayoutFor,hamount,subcall]
  have hnonneg := share_nonneg severity hcov
  have hcov' : ¬entry.coverage≤0 := by omega
  rcases hnonneg.eq_or_lt with hzero | hpos
  · -- a share that rounds to zero is skipped
    have hpay : payEntry T net env net.riskPool net.triggerEngine i n p z r entry=.ok r := by
      simp [payEntry,hnone,failIf,hcov',hasked,liftTrap,← hzero]
    refine ⟨r,hpay,h.skip hzero.symm,rfl,rfl,fun owner => ?_,fun e he hp => ?_,fun _ _ => rfl⟩
    · rw [owedTo_cons,← hzero]
      simp [owedTo,owed]
    · rw [List.mem_singleton] at he
      subst he
      omega
  · obtain ⟨y,s',l',hy,hpayOut⟩ := h.payOut_succeeds env hT hpos
    have hcall : callPayOut T net env net.riskPool r.world p z net.vault (share severity entry)=
        .ok { r.world with riskPool := s', ledger := l' } := by
      simp [callPayOut,hpayOut,subcall,Except.map]
    obtain ⟨hclaim,hroom⟩ := h.claims entry (by simp)
    obtain ⟨hdisbursed,hspace⟩ := h.disbursed
    obtain ⟨hpolicies,hpaid⟩ := h.counted
    have howed : 0≤owed severity entries :=
      owed_nonneg fun e he => (h.coverage e (by simp [he])).1
    have hcons : owed severity (entry::entries)=share severity entry+owed severity entries :=
      owed_cons severity entry entries
    rw [hcons] at hroom hspace
    rw [List.length_cons] at hpolicies hpaid
    let r' : BatchRun L :=
      ⟨⟨s',r.world.triggerEngine,r.world.vault.credit env entry (share severity entry),l'⟩,
        { r.progress with
          totalDisbursed := r.progress.totalDisbursed+share severity entry
          policiesPaid := r.progress.policiesPaid+1 },r.paid+1⟩
    have hpay : payEntry T net env net.riskPool net.triggerEngine i n p z r entry=.ok r' := by
      have hsome : ¬(r.world.vault.payout entry.policyId).isSome := by simp [hnone]
      have credited : SignedFits 128 (readClaim r.world.vault entry.owner+share severity entry) :=
        ⟨by omega,by omega⟩
      have disbursed : SignedFits 128 (r.progress.totalDisbursed+share severity entry) :=
        ⟨by omega,by omega⟩
      have policies : UnsignedFits 32 (r.progress.policiesPaid+1) := by unfold UnsignedFits; omega
      have round : UnsignedFits 32 (r.paid+1) := by unfold UnsignedFits; omega
      unfold payEntry
      rw [if_neg hsome]
      simp only [bind_eq_ok,failIf_eq_ok,liftTrap_eq_ok]
      refine ⟨(),hcov',share severity entry,hasked,?_⟩
      rw [if_neg (by omega)]
      simp only [bind_eq_ok,liftTrap_eq_ok,okOr_eq_ok,Signed.checkedAdd_eq_some,U32.increment,
        orTrap_eq_ok,Unsigned.checkedAdd_eq_some,pure_eq_ok]
      exact ⟨_,hcall,_,⟨credited,rfl⟩,_,⟨disbursed,rfl⟩,_,⟨policies,rfl⟩,_,⟨round,rfl⟩,rfl⟩
    refine ⟨r',hpay,h.pay hT hself (payEntry_sound h.sound hpay) hpayOut rfl,rfl,rfl,
      fun owner => ?_,fun e he _ => ?_,fun id hid => ?_⟩
    · change readClaim (r.world.vault.credit env entry (share severity entry)) owner=_
      rw [readClaim_credit,owedTo_cons]
      by_cases ho : owner=entry.owner
      · rw [if_pos ho,if_pos ho.symm,ho]
        simp [owedTo,owed]
      · rw [if_neg ho,if_neg (Ne.symm ho)]
        simp [owedTo,owed]
    · rw [List.mem_singleton] at he
      subst he
      exact (payout_credit ..).trans (if_pos rfl)
    · have hne : id≠entry.policyId := by simpa using hid
      exact (payout_credit ..).trans (if_neg hne)

theorem Disburses.cons {r' r'' : BatchRun L}
    (hnew : entry.policyId∉entries.map PayoutEntry.policyId)
    (h : Disburses r r' env severity [entry]) (h' : Disburses r' r'' env severity entries) :
    Disburses r r'' env severity (entry::entries) where
  engine := h'.engine.trans h.engine
  token := h'.token.trans h.token
  claims owner := by
    have hempty : owedTo severity [] owner=0 := rfl
    rw [h'.claims,h.claims,owedTo_cons,owedTo_cons,hempty]
    omega
  paid e he hpos := by
    rcases List.mem_cons.mp he with rfl | he
    · rw [h'.others _ hnew]
      exact h.paid _ (by simp) hpos
    · exact h'.paid e he hpos
  others id hid := by
    rw [List.map_cons,List.mem_cons,not_or] at hid
    rw [h'.others id hid.2]
    exact h.others id (by simpa using hid.1)

/-- By induction on the entries: a batch that is ready is paid to its end. -/
theorem entries_succeed (hT : T.Settles) (hself : net.riskPool∉(env.invokedBy net.vault).signers)
    (hfinal : TriggerEngine.readState r.world.triggerEngine i n=.finalized t severity)
    (h : Ready T net r p z severity entries) :
    ∃ r', entries.foldlM (payEntry T net env net.riskPool net.triggerEngine i n p z) r=.ok r' ∧
      Disburses r r' env severity entries := by
  induction entries generalizing r with
  | nil =>
    refine ⟨r,rfl,rfl,rfl,fun owner => ?_,fun _ he => by simp at he,fun _ _ => rfl⟩
    simp [owedTo,owed]
  | cons entry entries ih =>
    have hnew := (List.nodup_cons.mp h.distinct).1
    obtain ⟨r',hentry,hready,hfirst⟩ := payEntry_succeeds hT hself hfinal h
    rw [← hfirst.engine] at hfinal
    obtain ⟨r'',hrest,hothers⟩ := ih hfinal hready
    refine ⟨r'',?_,hfirst.cons hnew hothers⟩
    rw [List.foldlM_cons,bind_eq_ok]
    exact ⟨r',hentry,hrest⟩

end Entries

section Batches

variable {L : Type} {T : TokenHost L} {net : Network} {env : Env} {w : World L}
  {i n p z t : Nat} {severity : Bps} {entries : List PayoutEntry}

/-- A batch of a final window goes through if it is ready and the vault takes batches. -/
theorem payBatch_succeeds (hT : T.Settles) (hself : net.riskPool∉(env.invokedBy net.vault).signers)
    (hadmin : requireAdmin env w.vault=.ok ()) (hpaused : isPaused w.vault=false)
    (hopen : (readBatch w.vault i n).state≠.complete) (hsome : 0<entries.length)
    (hfew : entries.length≤ maxBatch)
    (hfinal : TriggerEngine.readState w.triggerEngine i n=.finalized t severity)
    (h : Ready T net ⟨w,readBatch w.vault i n,0⟩ p z severity entries) :
    ∃ paid w', payBatch T net env w i n p z entries=.ok (paid,w') ∧
      Disburses ⟨w,readBatch w.vault i n,0⟩ ⟨w',readBatch w.vault i n,0⟩ env severity entries := by
  obtain ⟨r,hr,hd⟩ := entries_succeed hT hself hfinal h
  refine ⟨r.paid,{ r.world with vault := r.world.vault.writeBatch i n r.checkpoint },?_,
    hd.engine,hd.token,hd.claims,hd.paid,hd.others⟩
  have hsize : ¬(entries.length=0 ∨ entries.length>maxBatch) := by omega
  simp only [payBatch,bind_eq_ok,failIf_eq_ok,okOr_eq_ok,pure_eq_ok,Prod.mk.injEq]
  exact ⟨(),hadmin,(),by simp [hpaused],(),hsize,(),hopen,net.riskPool,h.sound.poolRef,
    net.triggerEngine,h.sound.triggerRef,r,hr,rfl,rfl⟩

def Disbursing (s : State) : Prop := ∀ k, 0≤(batches s k).totalDisbursed

theorem Disbursing.writeBatch {s : State} {v : BatchProgress} (h : Disbursing s)
    (hv : 0≤v.totalDisbursed) : Disbursing (s.writeBatch i n v) := by
  intro k
  rw [batches_writeBatch]
  by_cases hk : k=(i,n)
  · rw [hk,Function.update_self]
    exact hv
  · rw [Function.update_of_ne hk]
    exact h k

theorem invoke_disbursing {c : Call} {w' : World L} (h : Disbursing w.vault)
    (hc : invoke T net env w c=.ok w') : Disbursing w'.vault := by
  cases c with
  | pause | unpause =>
    simp only [invoke,pause,unpause,except_map_eq_ok,bind_eq_ok,pure_eq_ok] at hc
    obtain ⟨_,⟨_,-,rfl⟩,rfl⟩ := hc
    exact h
  | closeBatch i n =>
    simp only [invoke,closeBatch,except_map_eq_ok,bind_eq_ok,pure_eq_ok] at hc
    obtain ⟨_,⟨_,-,rfl⟩,rfl⟩ := hc
    exact h.writeBatch (h (i,n))
  | payBatch i n p z entries =>
    simp only [invoke,except_map_eq_ok,Prod.exists] at hc
    obtain ⟨paid,_,hu,rfl⟩ := hc
    obtain ⟨pool,trigger,r,progress,-,-,hr,htotal,-,rfl⟩ := payBatch_ok hu
    have hend := foldlM_invariant
      (fun r : BatchRun L => Disbursing r.world.vault ∧ 0≤r.progress.totalDisbursed) ?_ entries
      _ r ⟨h,h (i,n)⟩ hr
    · exact hend.1.writeBatch (htotal ▸ hend.2)
    · intro r entry r' hinv hpay
      rcases payEntry_ok hpay with rfl | ⟨amount,m,s',l',-,-,hpos,-,-,hprogress,hw⟩
      · exact hinv
      · rw [hw,hprogress]
        exact ⟨hinv.1,add_nonneg hinv.2 hpos.le⟩
  | claim owner =>
    simp only [invoke,except_map_eq_ok,Prod.exists] at hc
    obtain ⟨amount,_,hu,rfl⟩ := hc
    obtain ⟨-,l',rfl⟩ := claim_ok hu
    exact h

end Batches

end Mvua.PayoutVault
