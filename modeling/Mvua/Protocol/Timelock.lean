import Mvua.Protocol.Minority

namespace Mvua.Protocol

section Runs

variable {L : Type} (T : TokenHost L)
  (verify : BytesN 32 → OracleAdapter.ObservationPayload → BytesN 64 → Bool) (net : Network)

theorem next_frozen {deadline : Nat} {s : OracleAdapter.State} {w : World L}
    {a : Env × Transaction} (h : OracleAdapter.Frozen verify deadline s w.oracle)
    (hbefore : a.1.timestamp<deadline)
    (hsoon : deadline≤a.1.timestamp+OracleAdapter.registryTimelockSecs) :
    OracleAdapter.Frozen verify deadline s ((machine T verify net).next w a).oracle := by
  let M := machine T verify net
  rcases M.next_cases w a with hn | hn
  · rw [hn]
    exact h
  · generalize M.next w a=w' at hn ⊢
    cases execute_step T verify net hn with
    | oracle env c s' hc =>
      have hlate : (net.outside env).timestamp<deadline := hbefore
      exact h.next hlate hsoon hc
    | riskPool | policy | triggerEngine | vault | transfer => exact h

/-- What a whole run before the deadline leaves as it was, also whenever it records a day. -/
theorem run_frozen {deadline : Nat} {s : OracleAdapter.State} {v : World L}
    (h : OracleAdapter.Frozen verify deadline s v.oracle) (later : List (Env × Transaction))
    (htimes : ∀ a∈later, a.1.timestamp<deadline ∧
      deadline≤a.1.timestamp+OracleAdapter.registryTimelockSecs) (i n : Nat) :
    let M := machine T verify net
    OracleAdapter.Frozen verify deadline s (M.run v later).oracle ∧
      ∀ x∈M.log (recordings net i n) v later, OracleAdapter.Frozen verify deadline s x.oracle := by
  intro M
  let P (_ : World L) (a : Env × Transaction) : Prop := a.1.timestamp<deadline ∧
    deadline≤a.1.timestamp+OracleAdapter.registryTimelockSecs
  refine M.run_along_log (fun w log => OracleAdapter.Frozen verify deadline s w.oracle ∧ ∀ x∈log,
    OracleAdapter.Frozen verify deadline s x.oracle) P (recordings net i n)
    (fun w a log hw hp => ?_) later v [] ⟨h,List.forall_mem_nil _⟩
    (M.along_of_mem later (fun a ha _ => htimes a ha) v)
  refine ⟨next_frozen T verify net hw.1 hp.1 hp.2,fun x hx => ?_⟩
  rcases List.mem_append.mp hx with hx | hx
  · exact hw.2 x hx
  · obtain ⟨_,-,-,horacle,-⟩ := recordings_answered hx
    rw [horacle]
    exact hw.1

/-- Stolen keys wait. Whoever signs as whatever admin, within one timelock nobody is added to the
publishers or removed: as long as nothing pending may be executed before a deadline, a run that
ends before it, and begins within one timelock of it, leaves the register as it was, and whatever
the oracle adapter counts when a day is recorded was in its rings before or is signed by a
publisher that was active before. -/
theorem stolen_keys_wait (g : Genesis) (l : L) (history later : List (Env × Transaction))
    (deadline : Nat) :
    let M := machine T verify net
    let v := M.run (deploy net g l) history
    (∀ key change, v.oracle.pendingPublisher key=some change → deadline ≤ change.eta) →
    (∀ a∈later, a.1.timestamp<deadline ∧
      deadline≤a.1.timestamp+OracleAdapter.registryTimelockSecs) →
    (M.run v later).oracle.publisher=v.oracle.publisher ∧
    ∀ i n, ∀ x∈M.log (recordings net i n) v later, ∀ params, ∀ o∈x.counted params,
      OracleAdapter.Vetted verify v.oracle params.region params.metric o := by
  intro M v hpending htimes
  have hrun := run_frozen T verify net (.refl hpending) later htimes
  refine ⟨(hrun 0 0).1.publisher,fun i n x hx params o ho => ?_⟩
  obtain ⟨k,hk⟩ := OracleAdapter.mem_counted ho
  exact ((hrun i n).2 x hx).obs params.region params.metric k o hk

end Runs

section Sample

/-- Whoever has the admin's key adds a publisher, tries to hurry, and submits as that publisher. -/
def theft : List (Env × Transaction) := [
  (adminAt 400000,.call (.oracle (.proposePublisher 4 true))),
  (adminAt 1004799,.call (.oracle (.executePublisher 4))),
  (⟨1004799,[]⟩,.call (.oracle (OracleAdapter.sampleSubmit 999001 9 4).2))]

theorem stolen_keys_wait_theft :
    let M := machine TokenHost.ledger OracleAdapter.signedAll plainNet
    let v := M.run plainWorld theft
    v.oracle.publisher 4=none ∧ v.oracle.pendingPublisher 4=some ⟨true,1004800⟩ := by
  intro M v
  have h := stolen_keys_wait TokenHost.ledger OracleAdapter.signedAll plainNet plainGenesis
    RiskPool.plainFunds [] theft 1004800
    (fun _ _ hchange => absurd hchange (Option.some_ne_none _).symm) (by decide)
  exact ⟨congrFun h.1 4,by decide +kernel⟩

end Sample

end Mvua.Protocol
