import Mvua.RiskPool.Reconciliation
import Mvua.RiskPool.Seasons
import Mvua.Math.Cap

namespace Mvua.RiskPool

/-- A premium that was collected, and what of it was credited to its season. -/
structure CollectedPremium where
  season : Nat
  gross : Int
  net : Int
  deriving DecidableEq, Repr

/-- The uncapped fees on a list of premiums, each rounded down. -/
def sharesOf (bps : Nat) (log : List CollectedPremium) : Int :=
  (log.map fun r : CollectedPremium => (r.gross*bps/10000 : Int)).sum

section Fee

variable {amount cap accrued fee : Int} {bps : Nat}

/-- A fee is the share of the premium, clamped to the room under its cap. -/
theorem accrueFee_clamped (h : accrueFee amount bps accrued cap=.ok fee) (ha : 0≤amount)
    (h0 : 0≤accrued) (hle : cap≠0 → accrued≤cap) (hfit : SignedFits 128 cap) :
    fee=clamped cap accrued (amount*bps/10000) := by
  simp only [accrueFee,bind_eq_ok,okOr_eq_ok] at h
  obtain ⟨desired,hd,h⟩ := h
  have hshare : desired=amount*bps/10000 := by
    rw [applyBps_eq_some hd]
    exact Int.tdiv_eq_ediv_of_nonneg (mul_nonneg ha (by omega))
  have hupper : cap<2^127 := hfit.2
  unfold clamped
  split_ifs at h ⊢ with hzero
  · rw [pure_eq_ok] at h
    rw [← h,hshare]
  · have hroom := hle hzero
    have room : I128.checkedSub cap accrued=some (cap-accrued) :=
      (Signed.checkedSub_eq_some _ _ _ _).mpr ⟨.of_nonneg (by omega) (by omega),rfl⟩
    rw [room,Option.getD_some,pure_eq_ok] at h
    rw [← h,hshare]

end Fee

section Accrual

variable {c : PoolConfig} {log : List CollectedPremium} {i : Nat} {n pf qf : Int}

/-- The fees of a pool against the premiums it collected. -/
structure Accrued (c : PoolConfig) (protocolFees publisherFees : Int)
    (log : List CollectedPremium) : Prop where
  protocol : protocolFees=capped c.fee.protocolCap (sharesOf c.fee.protocolBps log)
  publisher : publisherFees=capped c.fee.publisherCap (sharesOf c.fee.publisherBps log)
  positive : ∀ r∈log, 0 < r.gross
  net : ∀ r∈log, 0 ≤ r.net
  total : (log.map CollectedPremium.gross).sum=
    (log.map CollectedPremium.net).sum+protocolFees+publisherFees

theorem sharesOf_concat (bps : Nat) (log : List CollectedPremium) (r : CollectedPremium) :
    sharesOf bps (log++[r])=sharesOf bps log+r.gross*bps/10000 := by
  simp [sharesOf]

theorem sharesOf_perm {log' : List CollectedPremium} (bps : Nat)
    (h : (log.map CollectedPremium.gross).Perm (log'.map CollectedPremium.gross)) :
    sharesOf bps log=sharesOf bps log' := by
  have hshares := (h.map fun n : Int => n*bps/10000).sum_eq
  unfold sharesOf
  simpa only [List.map_map,Function.comp_def] using hshares

theorem share_nonneg {bps : Nat} (hn : 0 < n) : 0≤n*bps/10000 :=
  Int.ediv_nonneg (mul_nonneg hn.le (by omega)) (by decide)

theorem sharesOf_nonneg (bps : Nat) (h : ∀ r∈log, 0 < r.gross) : 0 ≤ sharesOf bps log := by
  apply List.sum_nonneg
  intro x hx
  obtain ⟨r,hr,rfl⟩ := List.mem_map.mp hx
  exact share_nonneg (h r hr)

/-- One fee, accrued on what the cap left of all the earlier ones. -/
theorem accrueFee_capped {bps : Nat} {cap fee : Int} (hcap : 0 ≤ cap) (hfit : SignedFits 128 cap)
    (h : ∀ r∈log, 0 < r.gross) (hn : 0 < n) (m : Int)
    (hfee : accrueFee n bps (capped cap (sharesOf bps log)) cap=.ok fee) :
    capped cap (sharesOf bps log)+fee=capped cap (sharesOf bps (log++[⟨i,n,m⟩])) := by
  have hshares := sharesOf_nonneg bps h
  rw [accrueFee_clamped hfee hn.le (capped_nonneg hcap hshares) capped_le hfit,
    capped_add (share_nonneg hn),sharesOf_concat]

theorem Accrued.collect {protocolFees publisherFees : Int} (hc : c.Accepted)
    (hfit : SignedFits 128 c.fee.protocolCap) (hfit' : SignedFits 128 c.fee.publisherCap)
    (h : Accrued c protocolFees publisherFees log) (hn : 0 < n)
    (hp : accrueFee n c.fee.protocolBps protocolFees c.fee.protocolCap=.ok pf)
    (hq : accrueFee n c.fee.publisherBps publisherFees c.fee.publisherCap=.ok qf) :
    Accrued c (protocolFees+pf) (publisherFees+qf) (log++[⟨i,n,n-pf-qf⟩]) := by
  obtain ⟨hrates,hpcap,hqcap⟩ := hc.fees
  have bp := accrueFee_bounds hp hn.le
  have bq := accrueFee_bounds hq hn.le
  have hnet := net_nonneg hn.le bp.2.1 bq.2.1 hrates
  refine ⟨?_,?_,?_,?_,?_⟩
  · rw [h.protocol] at hp ⊢
    exact accrueFee_capped hpcap hfit h.positive hn _ hp
  · rw [h.publisher] at hq ⊢
    exact accrueFee_capped hqcap hfit' h.positive hn _ hq
  · intro r hr
    rcases List.mem_append.mp hr with hr | hr
    · exact h.positive r hr
    · rw [List.mem_singleton.mp hr]
      exact hn
  · intro r hr
    rcases List.mem_append.mp hr with hr | hr
    · exact h.net r hr
    · rw [List.mem_singleton.mp hr]
      exact hnet
  · rw [List.map_append,List.map_append,List.sum_append,List.sum_append,h.total]
    simp only [List.map_cons,List.map_nil,List.sum_cons,List.sum_nil]
    omega

end Accrual

section Runs

variable {L : Type} (T : TokenHost L) (self : Address)

/-- The premium that a successful call collects for a pool, with the net that it returns. -/
def collected (p : Nat) (x : State × L) : Action → List CollectedPremium
  | .call env (.collectPremium q i src n) =>
      match collectPremium T self env x.1 x.2 q i src n with
      | .ok (net,_,_) => if q=p then [⟨i,n,net⟩] else []
      | .error _ => []
  | _ => []

variable {T self} {x : State × L} {p : Nat}

theorem collected_of_other {a : Action}
    (h : ¬∃ env i src n, a=.call env (.collectPremium p i src n)) :
    collected T self p x a=[] := by
  unfold collected
  split
  · next env q i src n =>
    have hq : q≠p := fun he => h ⟨env,i,src,n,by rw [he]⟩
    split
    · exact if_neg hq
    · rfl
  · rfl

theorem Action.Makes.fees {a : Action} {e : Entry} (h : a.Makes p e) (b : Book)
    (hother : ¬∃ env i src n, a=.call env (.collectPremium p i src n)) :
    (b.post e).protocolFees=b.protocolFees ∧ (b.post e).publisherFees=b.publisherFees := by
  cases h with
  | premium env _ i src n pf qf => exact absurd ⟨env,i,src,n,rfl⟩ hother
  | _ => exact ⟨rfl,rfl⟩

theorem step_config {s s' : State} {l l' : L} {a : Action} (hw : s.WellFormed)
    (h : (machine T self).step (s,l) a=.ok (s',l')) (p : Nat) :
    s'.poolConfig p=s.poolConfig p ∨ s.poolConfig p=none := by
  rcases step_cases T self hw h with ⟨-,hnone⟩ | ⟨q,e,-,hp⟩
  · cases a with
    | setCommitted q n => exact absurd (.commit q n) (hnone _ _)
    | call env call =>
      have hran : Ran T self env s l call s' l' := invoke_ran h
      cases hran with
      | createPool config q hu =>
        obtain ⟨-,-,hq,rfl⟩ := createPool_ok hu
        by_cases he : p=q
        · subst p
          refine .inr ?_
          cases hc : s.poolConfig q with
          | none => rfl
          | some d =>
            have hid := hw.ids _ _ hc
            omega
        · exact .inl (Function.update_of_ne he _ _)
      | setPolicyContract policy hu =>
        obtain ⟨-,rfl⟩ := setPolicyContract_ok hu
        exact .inl rfl
      | setPayoutVault vault hu =>
        obtain ⟨-,rfl⟩ := setPayoutVault_ok hu
        exact .inl rfl
      | deposit q t src n => exact absurd (.deposit env q t src n 0) (hnone _ _)
      | withdraw q t holder n => exact absurd (.withdraw env q t holder n 0) (hnone _ _)
      | openSeason q i => exact absurd (.openSeason env q ⟨.opened,0,0,0,0,0⟩) (hnone _ _)
      | activateSeason q i => exact absurd (.activate env q i) (hnone _ _)
      | closeSeason q i => exact absurd (.close env q i) (hnone _ _)
      | collectPremium q i src n => exact absurd (.premium env q i src n 0 0) (hnone _ _)
      | refundPremium q i dst n => exact absurd (.refund env q i dst n) (hnone _ _)
      | payOut q i dst n => exact absurd (.payout env q i dst n) (hnone _ _)
      | settleSeason q i => exact absurd (.settle env q i) (hnone _ _)
  · rw [hp.poolConfig]
    exact .inl rfl

/-- A call either collects nothing for the pool and leaves its fees, or collects one premium and
accrues both fees on it. -/
theorem next_collected (hw : x.1.WellFormed) (a : Action) (p : Nat) :
    let y := (machine T self).next x a
    (collected T self p x a=[] ∧ (y.1.book p).protocolFees=(x.1.book p).protocolFees ∧
      (y.1.book p).publisherFees=(x.1.book p).publisherFees) ∨
    ∃ c i n pf qf, x.1.poolConfig p=some c ∧ 0 < n ∧
      accrueFee n c.fee.protocolBps (x.1.book p).protocolFees c.fee.protocolCap=.ok pf ∧
      accrueFee n c.fee.publisherBps (x.1.book p).publisherFees c.fee.publisherCap=.ok qf ∧
      collected T self p x a=[⟨i,n,n-pf-qf⟩] ∧
      (y.1.book p).protocolFees=(x.1.book p).protocolFees+pf ∧
      (y.1.book p).publisherFees=(x.1.book p).publisherFees+qf := by
  obtain ⟨s,l⟩ := x
  intro y
  by_cases hcollect : ∃ env i src n, a=.call env (.collectPremium p i src n)
  · obtain ⟨env,i,src,n,rfl⟩ := hcollect
    cases hr : collectPremium T self env s l p i src n with
    | error e =>
      have hstep : (machine T self).step (s,l) (.call env (.collectPremium p i src n))=
          .error e := by
        simp only [machine,invoke,hr,Except.map]
      have hy : y=(s,l) := (machine T self).next_of_error hstep
      refine .inl ⟨?_,by rw [hy],by rw [hy]⟩
      simp only [collected,hr]
    | ok r =>
      obtain ⟨net,s',l'⟩ := r
      have hstep : (machine T self).step (s,l) (.call env (.collectPremium p i src n))=
          .ok (s',l') := by
        simp only [machine,invoke,hr,Except.map]
      have hy : y=(s',l') := (machine T self).next_of_ok hstep
      obtain ⟨pf,qf,rfl,hp⟩ := collectPremium_posts hr
      obtain ⟨c,hc,-,hn,hpf,hqf⟩ := hp.admits
      refine .inr ⟨c,i,n,pf,qf,hc,hn,hpf,hqf,?_,?_,?_⟩
      · simp only [collected,hr,if_true]
      · rw [hy,hp.book]
        rfl
      · rw [hy,hp.book]
        rfl
  · refine .inl ⟨collected_of_other hcollect,?_⟩
    rcases next_book T self hw a p with hsame | ⟨c,e,hmakes,-,-,hpost⟩
    · have hy : y.1.book p=s.book p := hsame
      rw [hy]
      exact ⟨rfl,rfl⟩
    · have hy : y.1.book p=(s.book p).post e := hpost
      rw [hy]
      exact hmakes.fees _ hcollect

theorem next_config (hw : x.1.WellFormed) (a : Action) (p : Nat) :
    ((machine T self).next x a).1.poolConfig p=x.1.poolConfig p ∨ x.1.poolConfig p=none := by
  rcases (machine T self).next_cases x a with h | h
  · rw [h]
    exact .inl rfl
  · exact step_config hw h p

/-- The fees of a pool against the premiums logged for it; none before the pool exists. -/
structure Tallied (p : Nat) (x : State × L) (log : List CollectedPremium) : Prop where
  wellFormed : x.1.WellFormed
  unborn : x.1.poolConfig p=none → log=[]
  accrued : ∀ c, x.1.poolConfig p=some c → SignedFits 128 c.fee.protocolCap →
    SignedFits 128 c.fee.publisherCap →
    Accrued c (x.1.book p).protocolFees (x.1.book p).publisherFees log

theorem Accrued.nil {c : PoolConfig} (hc : c.Accepted) : Accrued c 0 0 [] where
  protocol := (capped_of_zero hc.fees.2.1).symm
  publisher := (capped_of_zero hc.fees.2.2).symm
  positive _ hr := by cases hr
  net _ hr := by cases hr
  total := rfl

theorem Tallied.next {log : List CollectedPremium} (h : Tallied p x log) (a : Action) :
    Tallied p ((machine T self).next x a) (log++collected T self p x a) := by
  have hw' := next_wellFormed T self h.wellFormed a
  have hconfig := @next_config L T self x h.wellFormed a p
  rcases next_collected h.wellFormed a p with
    ⟨hlog,hp,hq⟩ | ⟨c,i,n,pf,qf,hc,hn,hpf,hqf,hlog,hp,hq⟩
  · rw [hlog,List.append_nil]
    refine ⟨hw',?_,?_⟩
    · intro hnone
      rcases hconfig with he | he
      · exact h.unborn (he ▸ hnone)
      · exact h.unborn he
    · intro c hc hfit hfit'
      rw [hp,hq]
      rcases hconfig with he | he
      · exact h.accrued c (he ▸ hc) hfit hfit'
      · -- the pool was just created: its books are blank
        rw [h.unborn he,h.wellFormed.blank p he]
        exact .nil (hw'.accepted p c hc)
  · have hsame : ((machine T self).next x a).1.poolConfig p=some c := by
      rcases hconfig with he | he
      · exact he.trans hc
      · rw [hc] at he
        cases he
    rw [hlog]
    refine ⟨hw',fun hnone => ?_,fun d hd hfit hfit' => ?_⟩
    · rw [hsame] at hnone
      cases hnone
    · rw [hsame,Option.some.injEq] at hd
      subst d
      rw [hp,hq]
      exact (h.accrued c hc hfit hfit').collect (h.wellFormed.accepted p c hc) hfit hfit' hn hpf hqf

theorem run_tallied (admin : Address) (l : L) (calls : List Action) (p : Nat) :
    Tallied p ((machine T self).run (deploy admin,l) calls)
      ((machine T self).log (collected T self p) (deploy admin,l) calls) := by
  apply (machine T self).run_log (Tallied p) (collected T self p)
    (fun x a log h => Tallied.next h a) calls (deploy admin,l) []
  exact ⟨deploy_wellFormed admin,fun _ => rfl,fun c hc => by cases hc⟩

end Runs

/-- In every run the fees of a pool are the rounded shares of the premiums it collected, all added
up and then capped, whatever the order of the premiums and their seasons. No net is negative, each
is what its season is credited, and the gross is the nets and the treasury together. -/
theorem fees_in_closed_form {L : Type} (T : TokenHost L) (self admin : Address) (l : L)
    (calls : List Action) (p : Nat) (c : PoolConfig) :
    let x := (machine T self).run (deploy admin,l) calls
    let log := (machine T self).log (collected T self p) (deploy admin,l) calls
    let b := x.1.book p
    x.1.poolConfig p=some c → SignedFits 128 c.fee.protocolCap →
    SignedFits 128 c.fee.publisherCap →
    b.protocolFees=capped c.fee.protocolCap (sharesOf c.fee.protocolBps log) ∧
    b.publisherFees=capped c.fee.publisherCap (sharesOf c.fee.publisherBps log) ∧
    (0 < c.fee.protocolCap → b.protocolFees ≤ c.fee.protocolCap) ∧
    (0 < c.fee.publisherCap → b.publisherFees ≤ c.fee.publisherCap) ∧
    (∀ (admin' : Address) (l' : L) calls' p',
      let x' := (machine T self).run (deploy admin',l') calls'
      let log' := (machine T self).log (collected T self p') (deploy admin',l') calls'
      x'.1.poolConfig p'=some c →
      (log.map CollectedPremium.gross).Perm (log'.map CollectedPremium.gross) →
      (x'.1.book p').protocolFees=b.protocolFees ∧
        (x'.1.book p').publisherFees=b.publisherFees) ∧
    (∀ r∈log, 0 ≤ r.net) ∧
    (log.map CollectedPremium.gross).sum=
      (log.map CollectedPremium.net).sum+b.protocolFees+b.publisherFees ∧
    ∀ env i src n net s' l', collectPremium T self env x.1 x.2 p i src n=.ok (net,s',l') →
      ∀ k, s'.premiumsIn k=x.1.premiumsIn k+if k=(p,i) then net else 0 := by
  intro x log b hc hfit hfit'
  have htallied : Tallied p x log := run_tallied admin l calls p
  have h : Accrued c b.protocolFees b.publisherFees log := htallied.accrued c hc hfit hfit'
  refine ⟨h.protocol,h.publisher,?_,?_,?_,h.net,h.total,?_⟩
  · intro hpos
    rw [h.protocol]
    exact capped_le hpos.ne'
  · intro hpos
    rw [h.publisher]
    exact capped_le hpos.ne'
  · intro admin' l' calls' p' x' log' hc' hperm
    have h' := (@run_tallied L T self admin' l' calls' p').accrued c hc' hfit hfit'
    rw [h'.protocol,h'.publisher,← sharesOf_perm _ hperm,← sharesOf_perm _ hperm]
    exact ⟨h.protocol.symm,h.publisher.symm⟩
  · intro env i src n net s' l' hr k
    obtain ⟨pf,qf,rfl,hp⟩ := collectPremium_posts hr
    rw [hp.premiumsIn htallied.wellFormed]
    obtain ⟨q,j⟩ := k
    by_cases hq : q=p
    · simp [hq,Entry.premiumAt]
    · simp [hq]

section Sample

/-- A pool that takes a tenth for the protocol, up to 15, and a twentieth for the publishers. -/
def cappedConfig : PoolConfig :=
  { plainConfig with fee := {
      protocolBps := 1000, publisherBps := 500, protocolCap := 15, publisherCap := 0 } }

def twoPremiums : List Action := [
  .call plainEnv (.createPool cappedConfig),
  .call plainEnv (.openSeason 1),
  .call plainEnv (.openSeason 1),
  .call plainEnv (.collectPremium 1 1 ⟨3⟩ 99),
  .call plainEnv (.collectPremium 1 2 ⟨3⟩ 101)]

/-- The shares are 9 and 10, of which the second meets the cap, and 4 and 5. -/
theorem fees_in_closed_form_capped :
    let M := machine TokenHost.ledger ⟨1⟩
    let b := (M.run plainStart twoPremiums).1.book 1
    M.log (collected TokenHost.ledger ⟨1⟩ 1) plainStart twoPremiums=[⟨1,99,86⟩,⟨2,101,90⟩] ∧
    b.protocolFees=capped 15 (9+10) ∧ b.publisherFees=capped 0 (4+5) ∧
    (99 : Int)+101=86+90+b.protocolFees+b.publisherFees := by
  intro M b
  have hlog : M.log (collected TokenHost.ledger ⟨1⟩ 1) plainStart twoPremiums=
      [⟨1,99,86⟩,⟨2,101,90⟩] := by
    decide +kernel
  have hconfig : (M.run plainStart twoPremiums).1.poolConfig 1=some cappedConfig := by
    decide +kernel
  have h := fees_in_closed_form TokenHost.ledger ⟨1⟩ ⟨0⟩ plainFunds twoPremiums 1 cappedConfig
    hconfig (by decide) (by decide)
  obtain ⟨hp,hq,-,-,-,-,htotal,-⟩ := h
  exact ⟨hlog,hp.trans (by decide +kernel),hq.trans (by decide +kernel),
    Eq.trans (by decide +kernel) (htotal.trans (by decide +kernel))⟩

end Sample

end Mvua.RiskPool
