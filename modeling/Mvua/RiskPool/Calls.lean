import Mvua.RiskPool.Solvency

namespace Mvua.RiskPool

/-- A quotient of checked operations is the truncated quotient. -/
theorem mulDiv_eq_some {a b d v : Int} (h : mulDiv a b d=some v) :
    d≠0 ∧ v=(a*b).tdiv d := by
  simp only [mulDiv,bind,Option.bind_eq_some_iff,Signed.checkedMul_eq_some,
    Signed.checkedDiv_eq_some] at h
  obtain ⟨x,⟨-,rfl⟩,hd,-,rfl⟩ := h
  exact ⟨hd,rfl⟩

theorem mintedFor_eq_ok {v : TrancheState} {n m : Int} (h : mintedFor v n=.ok m) :
    (v.supply=0 → m=n) ∧ (v.supply≠0 → v.deposited≠0 ∧ m=(n*v.supply).tdiv v.deposited) := by
  unfold mintedFor at h
  split_ifs at h with hs
  · rw [Except.ok.injEq] at h
    exact ⟨fun _ => h.symm,fun hn => absurd hs hn⟩
  · rw [okOr_eq_ok] at h
    exact ⟨fun he => absurd he hs,fun _ => mulDiv_eq_some h⟩

section Calls

variable {L : Type} {T : TokenHost L} {self : Address} {env : Env} {s s' : State} {l l' : L}

theorem deposit_ok {p : Nat} {t : Tier} {a : Address} {n m : Int}
    (h : deposit T self env s l p t a n=.ok (m,s',l')) :
    ∃ c v, s.poolConfig p=some c ∧ s.solvency p=some v ∧ a∈env.signers ∧ 0<n ∧ 0 < m ∧
      mintedFor (readTranche s p t) n=.ok m ∧
      (0<trancheCap c t → (readTranche s p t).deposited+n≤trancheCap c t) ∧
      T.transfer l c.token a self n=some l' ∧
      s'=(((s.writeTranche p t
          ⟨(readTranche s p t).deposited+n,(readTranche s p t).supply+m⟩).writeReceipt p t a
          (readReceipt s p t a+m)).writeSolvency p { v with reserves := v.reserves+n }).publish
          (.deposited p t a n m) := by
  simp only [deposit,bind_eq_ok,pure_eq_ok,failIf_eq_ok,okOr_eq_ok,readConfig_eq_ok,
    requireAuth_eq_ok,TokenHost.send_eq_ok,readSolvency_eq_ok,Signed.checkedAdd_eq_some,
    Prod.mk.injEq] at h
  obtain ⟨-,ha,-,hn,c,hc,_,⟨-,rfl⟩,-,hcap,m',hm,-,hpos,l1,hl,_,⟨-,rfl⟩,_,⟨-,rfl⟩,v,hv,_,⟨-,rfl⟩,
    rfl,rfl,rfl⟩ := h
  have hamount : 0<n := by omega
  have hminted : 0 < m' := by omega
  have hroom : 0<trancheCap c t → (readTranche s p t).deposited+n≤trancheCap c t := by omega
  exact ⟨c,v,hc,hv,ha,hamount,hminted,hm,hroom,hl,rfl⟩

theorem withdraw_ok {p : Nat} {t : Tier} {a : Address} {n u : Int}
    (h : withdraw T self env s l p t a n=.ok (u,s',l')) :
    ∃ c v, s.poolConfig p=some c ∧ s.solvency p=some v ∧ a∈env.signers ∧ 0<n ∧
      n ≤ readReceipt s p t a ∧ 0<(readTranche s p t).supply ∧ 0<u ∧
      u=(n*(readTranche s p t).deposited).tdiv (readTranche s p t).supply ∧
      (t=.senior → v.committed≤0) ∧ u≤v.reserves ∧ v.committed≤v.reserves-u ∧
      T.transfer l c.token self a u=some l' ∧
      s'=(((s.writeTranche p t
          ⟨(readTranche s p t).deposited-u,(readTranche s p t).supply-n⟩).writeReceipt p t a
          (readReceipt s p t a-n)).writeSolvency p { v with reserves := v.reserves-u }).publish
          (.withdrawn p t a n u) := by
  simp only [withdraw,bind_eq_ok,pure_eq_ok,failIf_eq_ok,okOr_eq_ok,readConfig_eq_ok,
    requireAuth_eq_ok,TokenHost.send_eq_ok,readSolvency_eq_ok,Signed.checkedSub_eq_some,
    Prod.mk.injEq] at h
  obtain ⟨-,ha,-,hn,c,hc,-,hb,-,hs,u',hu,-,hpos,v,hv,-,hsen,-,hr,_,⟨-,rfl⟩,-,hcov,_,⟨-,rfl⟩,
    _,⟨-,rfl⟩,_,⟨-,rfl⟩,l1,hl,rfl,rfl,rfl⟩ := h
  have hreceipts : 0<n := by omega
  have hbalance : n ≤ readReceipt s p t a := by omega
  have hsupply : 0<(readTranche s p t).supply := by omega
  have hreleased : 0<u' := by omega
  have hunblocked : t=.senior → v.committed≤0 := by
    intro ht
    simp only [ht,true_and] at hsen
    omega
  have hreserves : u'≤v.reserves := by omega
  have hcovered : v.committed≤v.reserves-u' := by omega
  exact ⟨c,v,hc,hv,ha,hreceipts,hbalance,hsupply,hreleased,(mulDiv_eq_some hu).2,hunblocked,
    hreserves,hcovered,hl,rfl⟩

theorem collectPremium_ok {p i : Nat} {a : Address} {n m : Int}
    (h : collectPremium T self env s l p i a n=.ok (m,s',l')) :
    ∃ c z y v pf qf, s.poolConfig p=some c ∧ s.season (p,i)=some z ∧ s.treasury p=some y ∧
      s.solvency p=some v ∧ a∈env.signers ∧ 0<n ∧ (z.state=.opened ∨ z.state=.active) ∧
      accrueFee n c.fee.protocolBps y.protocolFees c.fee.protocolCap=.ok pf ∧
      accrueFee n c.fee.publisherBps y.publisherFees c.fee.publisherCap=.ok qf ∧
      m=n-pf-qf ∧ T.transfer l c.token a self n=some l' ∧
      s'=(((s.writeTreasury p ⟨y.protocolFees+pf,y.publisherFees+qf⟩).writeSeason p i
          { z with premiumsIn := z.premiumsIn+m }).writeSolvency p
          { v with reserves := v.reserves+m }).publish (.premiumCollected p i a n m pf qf) := by
  simp only [collectPremium,bind_eq_ok,pure_eq_ok,failIf_eq_ok,okOr_eq_ok,readConfig_eq_ok,
    requireAuth_eq_ok,TokenHost.send_eq_ok,readSolvency_eq_ok,readSeason_eq_ok,
    readTreasury_eq_ok,Signed.checkedAdd_eq_some,Prod.mk.injEq] at h
  obtain ⟨-,ha,-,hn,c,hc,z,hz,-,hst,y,hy,pf,hp,qf,hq,m',hm,l1,hl,_,⟨-,rfl⟩,_,⟨-,rfl⟩,_,⟨-,rfl⟩,
    v,hv,_,⟨-,rfl⟩,rfl,rfl,rfl⟩ := h
  simp only [bind,Option.bind_eq_some_iff,Signed.checkedSub_eq_some] at hm
  obtain ⟨_,⟨-,rfl⟩,-,hm⟩ := hm
  have hgross : 0<n := by omega
  have hstate : z.state=.opened ∨ z.state=.active := by tauto
  exact ⟨c,z,y,v,pf,qf,hc,hz,hy,hv,ha,hgross,hstate,hp,hq,hm.symm,hl,rfl⟩

theorem refundPremium_ok {p i : Nat} {a : Address} {n m : Int}
    (h : refundPremium T self env s l p i a n=.ok (m,s',l')) :
    ∃ c z v, s.poolConfig p=some c ∧ s.season (p,i)=some z ∧ s.solvency p=some v ∧
      requirePolicyContract env s=.ok () ∧ m=n ∧ 0<n ∧ (z.state=.opened ∨ z.state=.active) ∧
      n≤z.premiumsIn ∧ n≤v.reserves ∧ v.committed≤v.reserves-n ∧
      T.transfer l c.token self a n=some l' ∧
      s'=((s.writeSeason p i { z with premiumsIn := z.premiumsIn-n }).writeSolvency p
          { v with reserves := v.reserves-n }).publish (.premiumRefunded p i a n) := by
  simp only [refundPremium,bind_eq_ok,pure_eq_ok,failIf_eq_ok,okOr_eq_ok,readConfig_eq_ok,
    TokenHost.send_eq_ok,readSolvency_eq_ok,readSeason_eq_ok,Signed.checkedSub_eq_some,
    Prod.mk.injEq] at h
  obtain ⟨_,ha,-,hn,c,hc,z,hz,-,hst,-,hp,v,hv,-,hr,_,⟨-,rfl⟩,-,hcov,_,⟨-,rfl⟩,l1,hl,
    rfl,rfl,rfl⟩ := h
  have hnet : 0<n := by omega
  have hstate : z.state=.opened ∨ z.state=.active := by tauto
  have hpremiums : n≤z.premiumsIn := by omega
  have hreserves : n≤v.reserves := by omega
  have hcovered : v.committed≤v.reserves-n := by omega
  exact ⟨c,z,v,hc,hz,hv,ha,rfl,hnet,hstate,hpremiums,hreserves,hcovered,hl,rfl⟩

theorem payOut_ok {p i : Nat} {a : Address} {n m : Int}
    (h : payOut T self env s l p i a n=.ok (m,s',l')) :
    ∃ c z v, s.poolConfig p=some c ∧ s.season (p,i)=some z ∧ s.solvency p=some v ∧
      requirePayoutVault env s=.ok () ∧ m=n ∧ 0<n ∧ (z.state=.active ∨ z.state=.closed) ∧
      n≤v.reserves ∧ v.committed≤v.reserves-n ∧ T.transfer l c.token self a n=some l' ∧
      s'=((s.writeSeason p i { z with payoutsPaid := z.payoutsPaid+n }).writeSolvency p
          { v with reserves := v.reserves-n }).publish (.payoutReleased p i a n) := by
  simp only [payOut,bind_eq_ok,pure_eq_ok,failIf_eq_ok,okOr_eq_ok,readConfig_eq_ok,
    TokenHost.send_eq_ok,readSolvency_eq_ok,readSeason_eq_ok,Signed.checkedSub_eq_some,
    Signed.checkedAdd_eq_some,Prod.mk.injEq] at h
  obtain ⟨_,ha,-,hn,c,hc,z,hz,-,hst,v,hv,-,hr,_,⟨-,rfl⟩,-,hcov,_,⟨-,rfl⟩,l1,hl,
    rfl,rfl,rfl⟩ := h
  have hamount : 0<n := by omega
  have hstate : z.state=.active ∨ z.state=.closed := by tauto
  have hreserves : n≤v.reserves := by omega
  have hcovered : v.committed≤v.reserves-n := by omega
  exact ⟨c,z,v,hc,hz,hv,ha,rfl,hamount,hstate,hreserves,hcovered,hl,rfl⟩

end Calls

section Governance

variable {env : Env} {s s' : State}

theorem setPolicyContract_ok {policy : Address} (h : setPolicyContract env s policy=.ok s') :
    requireAdmin env s=.ok () ∧ s'={ s with policyContract := some policy } := by
  simp only [setPolicyContract,bind_eq_ok,pure_eq_ok] at h
  obtain ⟨_,ha,rfl⟩ := h
  exact ⟨ha,rfl⟩

theorem setPayoutVault_ok {vault : Address} (h : setPayoutVault env s vault=.ok s') :
    requireAdmin env s=.ok () ∧ s'={ s with payoutVault := some vault } := by
  simp only [setPayoutVault,bind_eq_ok,pure_eq_ok] at h
  obtain ⟨_,ha,rfl⟩ := h
  exact ⟨ha,rfl⟩

theorem createPool_ok {c : PoolConfig} {p : Nat} (h : createPool env s c=.ok (p,s')) :
    requireAdmin env s=.ok () ∧ c.Accepted ∧ p=s.poolCount.getD 0+1 ∧
      s'=(((({ s with
          poolCount := some p
          poolConfig := Function.update s.poolConfig p (some c) }.writeTranche p .junior
          ⟨0,0⟩).writeTranche p .senior ⟨0,0⟩).writeSolvency p ⟨0,0⟩).writeTreasury p
          ⟨0,0⟩).publish (.poolCreated p) := by
  simp only [createPool,bind_eq_ok,pure_eq_ok,okOr_eq_ok,Unsigned.checkedAdd_eq_some,
    Prod.mk.injEq] at h
  obtain ⟨_,ha,_,hc,_,⟨-,rfl⟩,rfl,rfl⟩ := h
  exact ⟨ha,hc,rfl,rfl⟩

theorem openSeason_ok {p i : Nat} (h : openSeason env s p=.ok (i,s')) :
    ∃ c, s.poolConfig p=some c ∧ requireAdmin env s=.ok () ∧
      i=(s.seasonCount p).getD 0+1 ∧
      s'=({ s with
          seasonCount := Function.update s.seasonCount p (some i) }.writeSeason p i
          ⟨.opened,env.timestamp,env.timestamp+c.seasonLength,0,0,0⟩).publish
          (.seasonOpened p i env.timestamp (env.timestamp+c.seasonLength)) := by
  simp only [openSeason,bind_eq_ok,pure_eq_ok,okOr_eq_ok,readConfig_eq_ok,
    Unsigned.checkedAdd_eq_some,Prod.mk.injEq] at h
  obtain ⟨_,ha,c,hc,_,⟨-,rfl⟩,_,⟨-,rfl⟩,rfl,rfl⟩ := h
  exact ⟨c,hc,ha,rfl,rfl⟩

theorem transitionSeason_ok {p i : Nat} {src dst : SeasonState}
    (h : transitionSeason env s p i src dst=.ok s') :
    ∃ z, s.season (p,i)=some z ∧ requireAdmin env s=.ok () ∧ z.state=src ∧
      s'=(s.writeSeason p i { z with state := dst }).publish (.seasonStateChanged p i dst) := by
  simp only [transitionSeason,bind_eq_ok,pure_eq_ok,failIf_eq_ok,readSeason_eq_ok] at h
  obtain ⟨_,ha,z,hz,-,hs,rfl⟩ := h
  exact ⟨z,hz,ha,not_not.mp hs,rfl⟩

/-- The waterfall writes tranches only. -/
theorem distribute_frame {p : Nat} {net : Int} (h : distribute s p net=.ok s') :
    ∃ f, s'={ s with tranche := f } := by
  unfold distribute at h
  split_ifs at h with hpos hneg
  · simp only [creditJuniorSurplus,bind_eq_ok,pure_eq_ok] at h
    obtain ⟨-,-,rfl⟩ := h
    exact ⟨_,rfl⟩
  · simp only [absorbLoss,bind_eq_ok] at h
    obtain ⟨_,-,_,-,_,-,h⟩ := h
    split_ifs at h
    · simp only [bind_eq_ok,pure_eq_ok] at h
      obtain ⟨_,-,rfl⟩ := h
      exact ⟨_,rfl⟩
    · rw [pure_eq_ok] at h
      exact ⟨_,h.symm⟩
  · exact ⟨s.tranche,by rw [Except.ok.injEq] at h; rw [← h]⟩

theorem settleSeason_ok {p i : Nat} {net : Int} (h : settleSeason env s p i=.ok (net,s')) :
    ∃ z u, s.season (p,i)=some z ∧ requireAdmin env s=.ok () ∧ z.state=.closed ∧
      net=z.net ∧ distribute s p net=.ok u ∧
      s'=(u.writeSeason p i { z with state := .settled }).publish
        (.seasonSettled p i z.premiumsIn z.payoutsPaid net) := by
  simp only [settleSeason,bind_eq_ok,pure_eq_ok,failIf_eq_ok,okOr_eq_ok,readSeason_eq_ok,
    Signed.checkedSub_eq_some,Prod.mk.injEq] at h
  obtain ⟨_,ha,z,hz,-,hs,_,⟨-,rfl⟩,u,hu,rfl,rfl⟩ := h
  exact ⟨z,u,hz,ha,not_not.mp hs,rfl,hu,rfl⟩

theorem setCommitted_ok {p : Nat} {n : Int} (h : setCommitted s p n=.ok s') :
    ∃ v, s.solvency p=some v ∧ 0≤n ∧ n≤v.reserves ∧
      s'=s.writeSolvency p { v with committed := n } := by
  simp only [setCommitted,bind_eq_ok,pure_eq_ok,failIf_eq_ok,readSolvency_eq_ok] at h
  obtain ⟨v,hv,-,hn,rfl⟩ := h
  have hnonneg : 0≤n := by omega
  have hreserves : n≤v.reserves := by omega
  exact ⟨v,hv,hnonneg,hreserves,rfl⟩

end Governance

section Runs

variable {L : Type} (T : TokenHost L) (self : Address) (env : Env) (s : State) (l : L)

/-- The entry point that a successful call ran, with what it left. -/
inductive Ran : Call → State → L → Prop where
  | setPolicyContract (policy : Address) {s' : State} (h : setPolicyContract env s policy=.ok s') :
      Ran (.setPolicyContract policy) s' l
  | setPayoutVault (vault : Address) {s' : State} (h : setPayoutVault env s vault=.ok s') :
      Ran (.setPayoutVault vault) s' l
  | createPool (config : PoolConfig) (p : Nat) {s' : State}
      (h : createPool env s config=.ok (p,s')) : Ran (.createPool config) s' l
  | deposit (p : Nat) (t : Tier) (src : Address) (n m : Int) {s' : State} {l' : L}
      (h : deposit T self env s l p t src n=.ok (m,s',l')) : Ran (.deposit p t src n) s' l'
  | withdraw (p : Nat) (t : Tier) (holder : Address) (n m : Int) {s' : State} {l' : L}
      (h : withdraw T self env s l p t holder n=.ok (m,s',l')) : Ran (.withdraw p t holder n) s' l'
  | openSeason (p i : Nat) {s' : State} (h : openSeason env s p=.ok (i,s')) :
      Ran (.openSeason p) s' l
  | activateSeason (p i : Nat) {s' : State} (h : activateSeason env s p i=.ok s') :
      Ran (.activateSeason p i) s' l
  | closeSeason (p i : Nat) {s' : State} (h : closeSeason env s p i=.ok s') :
      Ran (.closeSeason p i) s' l
  | collectPremium (p i : Nat) (src : Address) (n m : Int) {s' : State} {l' : L}
      (h : collectPremium T self env s l p i src n=.ok (m,s',l')) :
      Ran (.collectPremium p i src n) s' l'
  | refundPremium (p i : Nat) (dst : Address) (n m : Int) {s' : State} {l' : L}
      (h : refundPremium T self env s l p i dst n=.ok (m,s',l')) :
      Ran (.refundPremium p i dst n) s' l'
  | payOut (p i : Nat) (dst : Address) (n m : Int) {s' : State} {l' : L}
      (h : payOut T self env s l p i dst n=.ok (m,s',l')) : Ran (.payOut p i dst n) s' l'
  | settleSeason (p i : Nat) (net : Int) {s' : State} (h : settleSeason env s p i=.ok (net,s')) :
      Ran (.settleSeason p i) s' l

variable {T self env s l} {s' : State} {l' : L}

theorem invoke_ran {c : Call} (h : invoke T self env c s l=.ok (s',l')) :
    Ran T self env s l c s' l' := by
  cases c <;> simp only [invoke,except_map_eq_ok,Prod.exists,Prod.mk.injEq] at h
  case setPolicyContract policy =>
    obtain ⟨_,hu,rfl,rfl⟩ := h
    exact .setPolicyContract policy hu
  case setPayoutVault vault =>
    obtain ⟨_,hu,rfl,rfl⟩ := h
    exact .setPayoutVault vault hu
  case createPool config =>
    obtain ⟨p,_,hu,rfl,rfl⟩ := h
    exact .createPool config p hu
  case deposit p t src n =>
    obtain ⟨m,_,_,hu,rfl,rfl⟩ := h
    exact .deposit p t src n m hu
  case withdraw p t holder n =>
    obtain ⟨m,_,_,hu,rfl,rfl⟩ := h
    exact .withdraw p t holder n m hu
  case openSeason p =>
    obtain ⟨i,_,hu,rfl,rfl⟩ := h
    exact .openSeason p i hu
  case activateSeason p i =>
    obtain ⟨_,hu,rfl,rfl⟩ := h
    exact .activateSeason p i hu
  case closeSeason p i =>
    obtain ⟨_,hu,rfl,rfl⟩ := h
    exact .closeSeason p i hu
  case collectPremium p i src n =>
    obtain ⟨m,_,_,hu,rfl,rfl⟩ := h
    exact .collectPremium p i src n m hu
  case refundPremium p i dst n =>
    obtain ⟨m,_,_,hu,rfl,rfl⟩ := h
    exact .refundPremium p i dst n m hu
  case payOut p i dst n =>
    obtain ⟨m,_,_,hu,rfl,rfl⟩ := h
    exact .payOut p i dst n m hu
  case settleSeason p i =>
    obtain ⟨net,_,hu,rfl,rfl⟩ := h
    exact .settleSeason p i net hu

/-- A call of the pool contract moves tokens of the contract or of a signer, if any. -/
theorem invoke_sender {c : Call} (h : invoke T self env c s l=.ok (s',l')) :
    l'=l ∨ ∃ token src dst n, T.transfer l token src dst n=some l' ∧
      (src=self ∨ src∈env.signers) := by
  cases invoke_ran h with
  | deposit p t src n m hu =>
    obtain ⟨c,_,-,-,hsigned,-,-,-,-,hl,-⟩ := deposit_ok hu
    exact .inr ⟨c.token,src,self,n,hl,.inr hsigned⟩
  | withdraw p t holder n m hu =>
    obtain ⟨c,_,-,-,-,-,-,-,-,-,-,-,-,hl,-⟩ := withdraw_ok hu
    exact .inr ⟨c.token,self,holder,m,hl,.inl rfl⟩
  | collectPremium p i src n m hu =>
    obtain ⟨c,_,_,_,_,_,-,-,-,-,hsigned,-,-,-,-,-,hl,-⟩ := collectPremium_ok hu
    exact .inr ⟨c.token,src,self,n,hl,.inr hsigned⟩
  | refundPremium p i dst n m hu =>
    obtain ⟨c,_,_,-,-,-,-,-,-,-,-,-,-,hl,-⟩ := refundPremium_ok hu
    exact .inr ⟨c.token,self,dst,n,hl,.inl rfl⟩
  | payOut p i dst n m hu =>
    obtain ⟨c,_,_,-,-,-,-,-,-,-,-,-,hl,-⟩ := payOut_ok hu
    exact .inr ⟨c.token,self,dst,n,hl,.inl rfl⟩
  | setPolicyContract | setPayoutVault | createPool | openSeason | activateSeason | closeSeason
  | settleSeason => exact .inl rfl

end Runs

theorem readTranche_writeTranche (s : State) (p q : Nat) (t u : Tier) (v : TrancheState) :
    readTranche (s.writeTranche p t v) q u=
      if q=p ∧ u=t then v else readTranche s q u := by
  by_cases h : q=p ∧ u=t
  · obtain ⟨rfl,rfl⟩ := h
    simp [readTranche,State.writeTranche]
  · rw [if_neg h]
    have hne : (q,u)≠(p,t) := by simpa using h
    simp [readTranche,State.writeTranche,hne]

/-- The tranche records after the waterfall. -/
theorem distribute_tranche {s s' : State} {p : Nat} {net : Int}
    (hS : 0≤(readTranche s p .senior).deposited)
    (h : distribute s p net=.ok s') (q : Nat) (t : Tier) :
    readTranche s' q t=
      if q=p then ⟨(s.book p).settled net t,(readTranche s p t).supply⟩
      else readTranche s q t := by
  have hd (t : Tier) : (s.book p).deposited t=(readTranche s p t).deposited := rfl
  unfold distribute at h
  split_ifs at h with hpos hneg
  · simp only [creditJuniorSurplus,bind_eq_ok,pure_eq_ok,okOr_eq_ok,
      Signed.checkedAdd_eq_some] at h
    obtain ⟨_,⟨-,rfl⟩,rfl⟩ := h
    rw [readTranche_writeTranche]
    by_cases hq : q=p
    · subst q
      cases t <;> simp [Book.settled,hd,hpos.le]
    · simp [hq]
  · simp only [bind_eq_ok,okOr_eq_ok,Signed.checkedNeg_eq_some,absorbLoss,
      Signed.checkedSub_eq_some] at h
    obtain ⟨_,⟨-,rfl⟩,_,⟨-,rfl⟩,_,⟨-,rfl⟩,h⟩ := h
    have hn : ¬0≤net := by omega
    split_ifs at h with hr
    · simp only [bind_eq_ok,pure_eq_ok,okOr_eq_ok,Signed.checkedSub_eq_some] at h
      obtain ⟨_,⟨-,rfl⟩,rfl⟩ := h
      simp only [readTranche_writeTranche]
      by_cases hq : q=p
      · subst q
        cases t <;> simp [Book.settled,hd,hn]
      · simp [hq]
    · rw [pure_eq_ok] at h
      subst h
      rw [readTranche_writeTranche]
      by_cases hq : q=p
      · subst q
        cases t
        · simp [Book.settled,hd,hn]
        · have hz : min (-net-min (-net) (readTranche s p .junior).deposited)
              (readTranche s p .senior).deposited=0 := by omega
          simp [Book.settled,hd,hn,hz]
      · simp [hq]
  · rw [Except.ok.injEq] at h
    have hz : net=0 := by omega
    subst h hz
    by_cases hq : q=p
    · subst q
      cases t <;> simp [Book.settled,hd]
    · simp [hq]

end Mvua.RiskPool
