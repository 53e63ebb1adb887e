import Mvua.Protocol.Authority
import Mvua.OracleAdapter.Settings
import Mvua.PayoutVault.Sendings
import Mvua.PayoutVault.Settings
import Mvua.Policy.Housekeeping
import Mvua.Policy.Settings
import Mvua.RiskPool.Settings
import Mvua.TriggerEngine.Settings

namespace Mvua.Protocol

section Admins

variable {L : Type} {T : TokenHost L}
  {verify : BytesN 32 → OracleAdapter.ObservationPayload → BytesN 64 → Bool} {net : Network}
  {g : Genesis} {w w' : World L} {a : Env × Transaction}

/-- The admins of the deployment. -/
structure Governed (g : Genesis) (w : World L) : Prop where
  riskPool : w.riskPool.admin=some g.poolAdmin
  policy : w.policy.admin=some g.policyAdmin
  oracle : w.oracle.admin=some g.oracleAdmin
  triggerEngine : w.triggerEngine.admin=some g.triggerAdmin
  vault : w.vault.admin=some g.vaultAdmin

/-- No transaction of the market replaces the admin of the policy contract. -/
theorem market_admin {net : Policy.Network} {v v' : Policy.World L} {b : Env × Policy.Transaction}
    (h : (Policy.market T net).step v b=.ok v') : v'.policy.admin=v.policy.admin := by
  obtain ⟨env,b⟩ := b
  cases b with
  | transfer token src dst n =>
    obtain ⟨-,l',rfl,-⟩ := Policy.transfer_ok h
    rfl
  | call c =>
    rw [Policy.market_call] at h
    exact (Policy.execute_step T net h).admin

/-- Neither does one of the custody for the pool. -/
theorem custody_admin {self : Address} {x y : RiskPool.State × L} {b : RiskPool.Transaction}
    (h : (RiskPool.custody T self).step x b=.ok y) : y.1.admin=x.1.admin := by
  obtain ⟨s,l⟩ := x
  cases b with
  | transfer token src dst amount =>
    simp only [RiskPool.custody,except_map_eq_ok] at h
    obtain ⟨_,-,rfl⟩ := h
    rfl
  | act b =>
    cases b with
    | call env c => exact RiskPool.invoke_admin h
    | setCommitted p n =>
      simp only [RiskPool.custody,RiskPool.machine,except_map_eq_ok] at h
      obtain ⟨_,hu,rfl⟩ := h
      obtain ⟨v,-,-,-,rfl⟩ := RiskPool.setCommitted_ok hu
      rfl

theorem Step.governed (h : Step T verify net w a w') :
    w'.oracle.admin=w.oracle.admin ∧ w'.triggerEngine.admin=w.triggerEngine.admin ∧
      w'.vault.admin=w.vault.admin := by
  cases h with
  | oracle env c s' hc => exact ⟨OracleAdapter.invoke_admin hc,rfl,rfl⟩
  | triggerEngine env c s' hc => exact ⟨rfl,TriggerEngine.invoke_admin hc,rfl⟩
  | vault env c v hc =>
    exact ⟨rfl,congrArg TriggerEngine.State.admin (vault_engine hc),PayoutVault.invoke_admin hc⟩
  | riskPool | policy | transfer => exact ⟨rfl,rfl,rfl⟩

end Admins

section Logs

variable {L : Type} (T : TokenHost L)
  (verify : BytesN 32 → OracleAdapter.ObservationPayload → BytesN 64 → Bool) (net : Network)

/-- The slot that a transaction writes in the rings of the oracle adapter, if it is a submission
that is accepted. -/
def written (w : World L) : Env × Transaction → List (Symbol × Symbol × Nat)
  | (env,.call (.oracle c)) => OracleAdapter.written verify (net.outside env) w.oracle c
  | _ => []

/-- What a transaction makes the vault send, if it is a claim that goes through. -/
def sendings (w : World L) : Env × Transaction → List (PayoutVault.Sending L)
  | (_,.call (.vault c)) => PayoutVault.sendings T net.settlement w.settlement c
  | _ => []

/-- The oracle adapter moves only by its own calls. -/
theorem next_oracle (w : World L) (a : Env × Transaction) :
    (∃ env c, a=(env,.call (.oracle c)) ∧ OracleAdapter.invoke verify (net.outside env) w.oracle c=
      .ok ((machine T verify net).next w a).oracle) ∨
    ((machine T verify net).next w a).oracle=w.oracle ∧ written verify net w a=[] := by
  let M := machine T verify net
  cases hn : M.step w a with
  | ok u =>
    rw [M.next_of_ok hn]
    cases execute_step T verify net hn with
    | oracle env c s' hc => exact .inl ⟨env,c,rfl,hc⟩
    | riskPool | policy | triggerEngine | vault | transfer => exact .inr ⟨rfl,rfl⟩
  | error e =>
    rw [M.next_of_error hn]
    refine .inr ⟨rfl,?_⟩
    obtain ⟨env,(_ | _ | c | _ | _) | _⟩ := a
    case oracle =>
      cases hc : OracleAdapter.invoke verify (net.outside env) w.oracle c with
      | ok s' => simp [M,machine,invoke,hc,subcall,Except.map] at hn
      | error e => exact OracleAdapter.written_of_error hc
    all_goals rfl

/-- The vault moves only by its own calls. -/
theorem next_vault (w : World L) (a : Env × Transaction) :
    (∃ env c v, a=(env,.call (.vault c)) ∧ ((machine T verify net).next w a).vault=v.vault ∧
      PayoutVault.invoke T net.settlement (net.outside env) w.settlement c=.ok v) ∨
    ((machine T verify net).next w a).vault=w.vault ∧ sendings T net w a=[] := by
  let M := machine T verify net
  cases hn : M.step w a with
  | ok u =>
    rw [M.next_of_ok hn]
    cases execute_step T verify net hn with
    | vault env c v hc => exact .inl ⟨env,c,v,rfl,rfl,hc⟩
    | riskPool | policy | oracle | triggerEngine | transfer => exact .inr ⟨rfl,rfl⟩
  | error e =>
    rw [M.next_of_error hn]
    refine .inr ⟨rfl,?_⟩
    obtain ⟨env,(_ | _ | _ | _ | c) | _⟩ := a
    case vault =>
      cases hc : PayoutVault.invoke T net.settlement (net.outside env) w.settlement c with
      | ok v => simp [M,machine,invoke,hc,subcall,Except.map] at hn
      | error e => exact PayoutVault.sendings_of_error hc
    all_goals rfl

end Logs

section Unsigned

variable {L : Type} {T : TokenHost L}
  {verify : BytesN 32 → OracleAdapter.ObservationPayload → BytesN 64 → Bool} {net : Network}
  {admin : Address} {w w' : World L} {a : Env × Transaction}

theorem Step.engine_settings (ha : w.triggerEngine.admin=some admin) (hu : admin∉a.1.signers)
    (h : Step T verify net w a w') : w'.triggerEngine.settings=w.triggerEngine.settings ∧
    TriggerEngine.Detects w.triggerEngine w'.triggerEngine := by
  cases h with
  | triggerEngine env c s' hc =>
    exact TriggerEngine.invoke_settings ha (fun hmem => hu (List.mem_filter.mp hmem).1) hc
  | vault env c v hc =>
    have hsame : (w.withSettlement v).triggerEngine=w.triggerEngine := vault_engine hc
    rw [hsame]
    exact ⟨rfl,.refl _⟩
  | riskPool | policy | oracle | transfer => exact ⟨rfl,.refl _⟩

theorem Step.policy_settings (ha : w.policy.admin=some admin) (hu : admin∉a.1.signers)
    (h : Step T verify net w a w') : w'.policy.settings=w.policy.settings ∧
    Policy.Unmarked w.policy w'.policy := by
  cases h with
  | policy env c v hc =>
    exact Policy.invoke_settings (w := w.market) ha
      (fun hmem => hu (List.mem_filter.mp hmem).1) hc
  | riskPool | vault | oracle | triggerEngine | transfer => exact ⟨rfl,fun _ _ hr _ => hr⟩

variable (T verify net) in
theorem next_oracle_settings (ha : w.oracle.admin=some admin) (hu : admin∉a.1.signers) :
    let w' := (machine T verify net).next w a
    w'.oracle.settings=w.oracle.settings ∧ ∀ k, w'.oracle.challenge k=
      if k∈written verify net w a then none else w.oracle.challenge k := by
  intro w'
  rcases next_oracle T verify net w a with ⟨env,c,he,hc⟩ | ⟨hsame,hnone⟩
  · rw [he] at hu ⊢
    exact OracleAdapter.invoke_settings ha (fun hmem => hu (List.mem_filter.mp hmem).1) hc
  · simp [w',hsame,hnone]

variable (T verify net) in
theorem next_vault_settings {token : Address} (ha : w.vault.admin=some admin)
    (ht : w.vault.token=some token) (hu : admin∉a.1.signers) :
    let w' := (machine T verify net).next w a
    w'.vault.settings=w.vault.settings ∧
      PayoutVault.Sends T token net.vault w.vault w'.vault (sendings T net w a) := by
  intro w'
  rcases next_vault T verify net w a with ⟨env,c,v,he,hv,hc⟩ | ⟨hsame,hnone⟩
  · rw [show w'.vault=v.vault from hv,he]
    rw [he] at hu
    obtain ⟨hsettings,hbatch⟩ := PayoutVault.invoke_settings (w := w.settlement) ha
      (fun hmem => hu (List.mem_filter.mp hmem).1) hc
    exact ⟨hsettings,PayoutVault.invoke_sends (w := w.settlement) ht hbatch hc⟩
  · rw [show w'.vault=w.vault from hsame,hnone]
    exact ⟨rfl,.of_claim net.vault rfl⟩

/-- A transaction of the custody that the admin did not sign. -/
theorem custody_settings {self : Address} {x : RiskPool.State × L} {b : RiskPool.Transaction}
    (ha : x.1.admin=some admin) (hu : b.Without admin) :
    ((RiskPool.custody T self).next x b).1.settings=x.1.settings := by
  rcases (RiskPool.custody T self).next_cases x b with hn | hn
  · rw [hn]
  · obtain ⟨s,l⟩ := x
    cases b with
    | transfer token src dst amount =>
      simp only [RiskPool.custody,except_map_eq_ok] at hn
      obtain ⟨l',-,he⟩ := hn
      exact congrArg (fun y => y.1.settings) he.symm
    | act b =>
      cases b with
      | call env c => exact RiskPool.invoke_settings ha hu hn
      | setCommitted p n =>
        have hstep := hn
        simp only [RiskPool.custody,RiskPool.machine,except_map_eq_ok] at hstep
        obtain ⟨u,hset,he⟩ := hstep
        obtain ⟨v,-,-,-,rfl⟩ := RiskPool.setCommitted_ok hset
        exact congrArg (fun y => y.1.settings) he.symm

end Unsigned

section Runs

variable {L : Type} (T : TokenHost L)
  (verify : BytesN 32 → OracleAdapter.ObservationPayload → BytesN 64 → Bool) (net : Network)

theorem Governed.next {g : Genesis} {w : World L} (h : Governed g w) (a : Env × Transaction) :
    Governed g ((machine T verify net).next w a) := by
  let M := machine T verify net
  let C := RiskPool.custody T net.riskPool
  let N := Policy.market T net.market
  rcases M.next_cases w a with hn | hn
  · rw [hn]
    exact h
  · obtain ⟨horacle,hengine,hvault⟩ := (execute_step T verify net hn).governed
    obtain ⟨bs,hbs,-⟩ := (market_simulates T verify net).step w a _ hn
    have hseen := (market_simulates T verify net).forget.trans (Policy.custody_simulates
      T net.market (Ne.symm net.policy_ne.1)).forget
    obtain ⟨cs,hcs,-⟩ := hseen.step w a _ hn
    have hpolicy := N.run_invariant (fun v => v.policy.admin=some g.policyAdmin)
      (fun _ _ _ hv hs => (market_admin hs).trans hv) bs w.market h.policy
    have hpool := C.run_invariant (fun x => x.1.admin=some g.poolAdmin)
      (fun _ _ _ hx hs => (custody_admin hs).trans hx) cs (w.riskPool,w.ledger) h.riskPool
    rw [hbs] at hpolicy
    rw [show C.run (w.riskPool,w.ledger) cs=_ from hcs] at hpool
    exact ⟨hpool,hpolicy,horacle.trans h.oracle,hengine.trans h.triggerEngine,
      hvault.trans h.vault⟩

theorem run_governed (g : Genesis) (l : L) (transactions : List (Env × Transaction)) :
    Governed g ((machine T verify net).run (deploy net g l) transactions) :=
  (machine T verify net).run_along (Governed g) (fun _ _ => True)
    (fun _ a h _ => h.next T verify net a) transactions _ ⟨rfl,rfl,rfl,rfl,rfl⟩
    (Machine.along_of_forall _ (fun _ _ => trivial) _ _)

/-- What no transaction without somebody's signature does, a run without it does not do. -/
theorem run_unsigned {g : Genesis} {who : Address} (K : World L → World L → Prop)
    (refl : ∀ v, K v v) (trans : ∀ {u v w}, K u v → K v w → K u w)
    (step : ∀ {v w a}, Governed g v → who∉a.1.signers → Step T verify net v a w → K v w)
    {v : World L} (hv : Governed g v) (later : List (Env × Transaction))
    (hu : ∀ a∈later, who∉a.1.signers) : K v ((machine T verify net).run v later) := by
  let M := machine T verify net
  have h : Governed g (M.run v later) ∧ K v (M.run v later) := by
    refine M.run_along (fun u => Governed g u ∧ K v u) (fun _ a => who∉a.1.signers) ?_ later v
      ⟨hv,refl v⟩ (M.along_of_mem later (fun a ha _ => hu a ha) v)
    intro u a h hunsigned
    obtain ⟨hgoverned,hk⟩ := h
    refine ⟨hgoverned.next T verify net a,?_⟩
    rcases M.next_cases u a with hn | hn
    · rw [hn]
      exact hk
    · exact trans hk (step hgoverned hunsigned (execute_step T verify net hn))
  exact h.2

variable {g : Genesis} {v : World L}

theorem run_oracle_settings (ha : v.oracle.admin=some g.oracleAdmin)
    (later : List (Env × Transaction)) (hu : ∀ a∈later, g.oracleAdmin∉a.1.signers) :
    let M := machine T verify net
    let w := M.run v later
    w.oracle.settings=v.oracle.settings ∧ ∀ k, w.oracle.challenge k=
      if k∈M.log (written verify net) v later then none else v.oracle.challenge k := by
  intro M w
  refine M.run_relation_log (fun u => u.oracle.admin=some g.oracleAdmin)
    (fun _ a => g.oracleAdmin∉a.1.signers)
    (fun u w log => w.oracle.settings=u.oracle.settings ∧ ∀ k, w.oracle.challenge k=
      if k∈log then none else u.oracle.challenge k) (written verify net)
    (fun _ => ⟨rfl,by simp⟩) (fun h h' => ⟨h'.1.trans h.1,fun k => ?_⟩)
    (fun ha hu => ?_) (next_oracle_settings T verify net) later v ha
    (M.along_of_mem later (fun a ha _ => hu a ha) v)
  · rw [h'.2,h.2]
    simp only [List.mem_append]
    split_ifs <;> tauto
  · obtain ⟨hsettings,-⟩ := next_oracle_settings T verify net ha hu
    exact (congrArg OracleAdapter.Settings.admin hsettings).trans ha

theorem run_vault_settings {token : Address} (ha : v.vault.admin=some g.vaultAdmin)
    (ht : v.vault.token=some token) (later : List (Env × Transaction))
    (hu : ∀ a∈later, g.vaultAdmin∉a.1.signers) :
    let M := machine T verify net
    let w := M.run v later
    w.vault.settings=v.vault.settings ∧
      PayoutVault.Sends T token net.vault v.vault w.vault (M.log (sendings T net) v later) := by
  intro M w
  refine M.run_relation_log
    (fun u => u.vault.admin=some g.vaultAdmin ∧ u.vault.token=some token)
    (fun _ a => g.vaultAdmin∉a.1.signers)
    (fun u w log => w.vault.settings=u.vault.settings ∧
      PayoutVault.Sends T token net.vault u.vault w.vault log) (sendings T net)
    (fun _ => ⟨rfl,.of_claim net.vault rfl⟩) (fun h h' => ⟨h'.1.trans h.1,h.2.trans h'.2⟩)
    (fun h hu => ?_) (fun h hu => next_vault_settings T verify net h.1 h.2 hu) later v ⟨ha,ht⟩
    (M.along_of_mem later (fun a ha _ => hu a ha) v)
  obtain ⟨hsettings,-⟩ := next_vault_settings T verify net h.1 h.2 hu
  exact ⟨(congrArg PayoutVault.Settings.admin hsettings).trans h.1,
    (congrArg PayoutVault.Settings.token hsettings).trans h.2⟩

/-- The admins of the deployment are the admins for good, and each part of the protocol is governed
by its own admin alone. In a run without the signature of the pools' admin, which is none of the
contracts, from any state that they can reach, the pools, the wiring of their contract and the
schedules of the seasons stay as they are. Without the admin of the policy contract no certificate is marked as
triggered or paid. Without the admin of the oracle adapter its registry stays, and a challenge
ends exactly when an accepted submission writes its slot. Without the admin of the engine its
indexes and its records of the windows stay, and a window is at most found triggered. Without the
admin of the vault nobody is paid, and what is owed less was sent to its owner. -/
theorem admins_alone_govern (g : Genesis) (l : L) (history later : List (Env × Transaction)) :
    let M := machine T verify net
    let v := M.run (deploy net g l) history
    let w := M.run v later
    Governed g w ∧
    (g.poolAdmin∉net.contracts → (∀ a∈later, g.poolAdmin∉a.1.signers) →
      w.riskPool.settings=v.riskPool.settings) ∧
    ((∀ a∈later, g.policyAdmin∉a.1.signers) → w.policy.settings=v.policy.settings ∧
      Policy.Unmarked v.policy w.policy) ∧
    ((∀ a∈later, g.oracleAdmin∉a.1.signers) → w.oracle.settings=v.oracle.settings ∧
      ∀ k, w.oracle.challenge k=
        if k∈M.log (written verify net) v later then none else v.oracle.challenge k) ∧
    ((∀ a∈later, g.triggerAdmin∉a.1.signers) →
      w.triggerEngine.settings=v.triggerEngine.settings ∧
      TriggerEngine.Detects v.triggerEngine w.triggerEngine) ∧
    ((∀ a∈later, g.vaultAdmin∉a.1.signers) → w.vault.settings=v.vault.settings ∧
      PayoutVault.Sends T g.token net.vault v.vault w.vault (M.log (sendings T net) v later)) := by
  intro M v w
  have hv := run_governed T verify net g l history
  have htoken := (reached_settlement T verify net g l history).token
  refine ⟨?_,fun hout hu => ?_,?_,?_,?_,?_⟩
  · have hall := run_governed T verify net g l (history++later)
    rwa [Machine.run_append] at hall
  · refine (pool_simulates T verify net hout).transfer (s := v)
      (J := fun x => x.1.settings=v.riskPool.settings) (fun bs hbs => ?_) later
      (M.along_of_mem later (fun a ha _ => hu a ha) v)
    refine (RiskPool.custody T net.riskPool).run_along
      (fun x => x.1.settings=v.riskPool.settings) _ (fun x b hx hunsigned => ?_) bs _ rfl hbs
    have hadmin : x.1.admin=some g.poolAdmin :=
      (congrArg RiskPool.Settings.admin hx).trans hv.riskPool
    exact (custody_settings hadmin hunsigned).trans hx
  · exact run_unsigned T verify net (g := g)
      (fun v w => w.policy.settings=v.policy.settings ∧ Policy.Unmarked v.policy w.policy)
      (fun _ => ⟨rfl,fun _ _ hr _ => hr⟩)
      (fun h h' => ⟨h'.1.trans h.1,h.2.trans h'.2⟩)
      (fun hg hu h => h.policy_settings hg.policy hu) hv later
  · exact run_oracle_settings T verify net hv.oracle later
  · exact run_unsigned T verify net (g := g)
      (fun v w => w.triggerEngine.settings=v.triggerEngine.settings ∧
        TriggerEngine.Detects v.triggerEngine w.triggerEngine)
      (fun _ => ⟨rfl,.refl _⟩)
      (fun h h' => ⟨h'.1.trans h.1,h.2.trans h'.2⟩)
      (fun hg hu h => h.engine_settings hg.triggerEngine hu) hv later
  · exact run_vault_settings T verify net hv.vault htoken later

end Runs

section Sample

/-- After the dry season the ring is full, and the admin challenges its two oldest slots. -/
def disputedSeason : List (Env × Transaction) := drySeason++
  (List.range 13).map (fun i =>
    (⟨1000000,[]⟩,.call (.oracle (OracleAdapter.sampleSubmit (999002+i) 5 2).2)))++[
  (adminAt 1086400,.call (.oracle (.challenge ⟨1⟩ ⟨1⟩ 0 7))),
  (adminAt 1086400,.call (.oracle (.challenge ⟨1⟩ ⟨1⟩ 1 7)))]

/-- A stranger interferes, a publisher's observation takes the oldest slot, and somebody sends an
owner what the vault owes them. -/
def strangers : List (Env × Transaction) := [
  (⟨1086500,[⟨3⟩]⟩,.call (.oracle (.unchallenge ⟨1⟩ ⟨1⟩ 1))),
  (⟨1086500,[⟨3⟩]⟩,.call (.vault .pause)),
  (⟨1086500,[]⟩,.call (.oracle (OracleAdapter.sampleSubmit 1086400 5 1).2)),
  (⟨1086500,[]⟩,.call (.vault (.claim ⟨7⟩)))]

/-- The admin has signed none of it. -/
theorem admins_alone_govern_dry :
    let M := machine TokenHost.ledger OracleAdapter.signedAll plainNet
    let v := M.run (deploy plainNet plainGenesis RiskPool.plainFunds) disputedSeason
    let w := M.run v strangers
    M.log (written OracleAdapter.signedAll plainNet) v strangers=[(⟨1⟩,⟨1⟩,0)] ∧
    w.oracle.challenge (⟨1⟩,⟨1⟩,0)=none ∧ w.oracle.challenge (⟨1⟩,⟨1⟩,1)=some 7 ∧
    PayoutVault.sentTo ⟨7⟩ (M.log (sendings TokenHost.ledger plainNet) v strangers)=30 ∧
    PayoutVault.readClaim v.vault ⟨7⟩=30 ∧ PayoutVault.readClaim w.vault ⟨7⟩=0 := by
  intro M v w
  obtain ⟨-,-,-,horacle,-,hvault⟩ := admins_alone_govern TokenHost.ledger
    OracleAdapter.signedAll plainNet plainGenesis RiskPool.plainFunds disputedSeason strangers
  have horacle := horacle (by decide)
  have hvault := hvault (by decide)
  have hwritten : M.log (written OracleAdapter.signedAll plainNet) v strangers=
      [(⟨1⟩,⟨1⟩,0)] := by
    decide +kernel
  have hsent : PayoutVault.sentTo ⟨7⟩
      (M.log (sendings TokenHost.ledger plainNet) v strangers)=30 := by
    decide +kernel
  have howed : PayoutVault.readClaim v.vault ⟨7⟩=30 := by
    decide +kernel
  have hflag : v.oracle.challenge (⟨1⟩,⟨1⟩,1)=some 7 := by
    decide +kernel
  have hflags : ∀ k, w.oracle.challenge k=
      if k∈M.log (written OracleAdapter.signedAll plainNet) v strangers then none
      else v.oracle.challenge k := by
    with_reducible exact horacle.2
  have hclaim : PayoutVault.readClaim w.vault ⟨7⟩+PayoutVault.sentTo ⟨7⟩
      (M.log (sendings TokenHost.ledger plainNet) v strangers)=
        PayoutVault.readClaim v.vault ⟨7⟩ := by
    with_reducible exact hvault.2.claims ⟨7⟩
  refine ⟨hwritten,?_,?_,hsent,howed,by omega⟩
  · rw [hflags,hwritten,if_pos (by decide)]
  · rw [hflags,hwritten,if_neg (by decide)]
    exact hflag

end Sample

end Mvua.Protocol
