import Mvua.Framework.Journal
import Mvua.OracleAdapter.Registry

namespace Mvua.OracleAdapter

/-- What a reader of the events keeps; values and timestamps of observations are not published. -/
@[ext] structure Register where
  active : BytesN 32 → Bool
  pending : BytesN 32 → Option PendingRegistry
  sent : Symbol × Symbol → Nat
  author : Symbol × Symbol × Nat → Option (BytesN 32)
  challenge : Symbol × Symbol × Nat → Option Nat

namespace Register

def blank : Register := ⟨fun _ => false,fun _ => none,fun _ => 0,fun _ => none,fun _ => none⟩

def post (r : Register) : Event → Register
  | .publisherProposed key add eta =>
      { r with pending := Function.update r.pending key (some ⟨add,eta⟩) }
  | .publisherRegistered key =>
      { r with
        active := Function.update r.active key true
        pending := Function.update r.pending key none }
  | .publisherRemoved key =>
      { r with
        active := Function.update r.active key false
        pending := Function.update r.pending key none }
  | .publisherProposalCancelled key =>
      { r with pending := Function.update r.pending key none }
  | .observationSubmitted region metric slot key =>
      { r with
        sent := Function.update r.sent (region,metric) (r.sent (region,metric)+1)
        author := Function.update r.author (region,metric,slot) (some key)
        challenge := Function.update r.challenge (region,metric,slot) none }
  | .observationChallenged region metric slot reason =>
      { r with challenge := Function.update r.challenge (region,metric,slot) (some reason) }
  | .observationUnchallenged region metric slot =>
      { r with challenge := Function.update r.challenge (region,metric,slot) none }

/-- The guards that an event passed, read off what was published before it. -/
def Fits (r : Register) : Event → Prop
  | .publisherProposed key add _ => r.pending key=none ∧ add≠r.active key
  | .publisherRegistered key => r.active key=false ∧ ∃ eta, r.pending key=some ⟨true,eta⟩
  | .publisherRemoved key => r.active key=true ∧ ∃ eta, r.pending key=some ⟨false,eta⟩
  | .publisherProposalCancelled key => (r.pending key).isSome
  | .observationSubmitted region metric slot key =>
      r.active key=true ∧ slot=r.sent (region,metric)%ringSize
  | .observationChallenged region metric slot _ =>
      (r.author (region,metric,slot)).isSome ∧ r.challenge (region,metric,slot)=none
  | .observationUnchallenged _ _ _ => True

end Register

def journal : Journal Register Event where
  post := Register.post
  Fits := Register.Fits

def State.register (s : State) : Register where
  active := isActive s
  pending := s.pendingPublisher
  sent := fun k => (readHead s k.1 k.2).nextSeq
  author := fun k => (s.obs k).map Observation.publisher
  challenge := s.challenge

/-- What readers see, and what they are to know from it. -/
def State.published (s : State) : List Event × Register := (s.events,s.register)

section Steps

variable {verify : BytesN 32 → ObservationPayload → BytesN 64 → Bool} {env : Env} {s s' : State}
  {key : BytesN 32}

theorem proposePublisher_publishes {add : Bool} {eta : Nat}
    (h : proposePublisher env s key add=.ok (eta,s')) :
    journal.Publishes s.published s'.published [.publisherProposed key add eta] := by
  have hstep : RegistryStep env s s' key (.proposePublisher key add) := proposePublisher_step h
  simp only [proposePublisher,bind_eq_ok,pure_eq_ok,failIf_eq_ok,okOr_eq_ok,
    Unsigned.checkedAdd_eq_some,Prod.mk.injEq] at h
  obtain ⟨-,-,-,hfree,-,-,-,-,_,⟨-,rfl⟩,rfl,rfl⟩ := h
  cases hstep with
  | propose _ hnone hchange _ _ => exact .one rfl ⟨hnone,hchange⟩ rfl
  | other _ _ _ _ hpending =>
    rw [← hpending] at hfree
    simp [State.publish] at hfree

theorem executePublisher_publishes (hs : s.Registry) (h : executePublisher env s key=.ok s') :
    ∃ e, journal.Publishes s.published s'.published [e] := by
  simp only [executePublisher,bind_eq_ok,failIf_eq_ok,okOr_eq_ok] at h
  obtain ⟨-,-,change,hpending,-,-,h⟩ := h
  have hchange := hs key change hpending
  obtain ⟨add,eta⟩ := change
  have hregister (info : PublisherInfo) (hinfo : info.active=add) (e : Event) :
      (({ s with
        publisher := Function.update s.publisher key (some info)
        pendingPublisher := Function.update s.pendingPublisher key none } : State).publish
        e).register={ s.register with
        active := Function.update s.register.active key add
        pending := Function.update s.register.pending key none } := by
    ext1
    · funext j
      change ((Function.update s.publisher key (some info) j).map PublisherInfo.active).getD false=
        Function.update (isActive s) key add j
      by_cases hj : j=key
      · subst hj
        simp [hinfo]
      · rw [Function.update_of_ne hj,Function.update_of_ne hj]
        rfl
    all_goals rfl
  cases add with
  | true =>
    simp only [if_true,bind_eq_ok,pure_eq_ok] at h
    obtain ⟨_,rfl,rfl⟩ := h
    have hinactive : isActive s key=false := by simpa using hchange
    exact ⟨.publisherRegistered key,.one rfl ⟨hinactive,eta,hpending⟩ (hregister _ rfl _)⟩
  | false =>
    simp only [Bool.false_eq_true,if_false,bind_eq_ok,okOr_eq_ok,pure_eq_ok] at h
    obtain ⟨info,-,_,rfl,rfl⟩ := h
    have hactive : isActive s key=true := by simpa using hchange
    exact ⟨.publisherRemoved key,.one rfl ⟨hactive,eta,hpending⟩ (hregister _ rfl _)⟩

theorem cancelPublisher_publishes (h : cancelPublisher env s key=.ok s') :
    journal.Publishes s.published s'.published [.publisherProposalCancelled key] := by
  simp only [cancelPublisher,bind_eq_ok,pure_eq_ok,failIf_eq_ok] at h
  obtain ⟨-,-,-,hsome,rfl⟩ := h
  have hpending : (s.pendingPublisher key).isSome := by
    simpa [Option.isSome_iff_ne_none] using hsome
  exact .one rfl hpending rfl

theorem challenge_publishes {r m : Symbol} {k reason : Nat}
    (h : challenge env s r m k reason=.ok s') :
    journal.Publishes s.published s'.published [.observationChallenged r m k reason] := by
  simp only [challenge,bind_eq_ok,pure_eq_ok,failIf_eq_ok] at h
  obtain ⟨-,-,-,hobs,-,hclear,rfl⟩ := h
  have hauthor : ((s.obs (r,m,k)).map Observation.publisher).isSome := by
    simpa [Option.isSome_iff_ne_none] using hobs
  have hfree : s.challenge (r,m,k)=none := by simpa [isChallenged] using hclear
  exact .one rfl ⟨hauthor,hfree⟩ rfl

theorem submit_publishes {r m : Symbol} {timestamp slot : Nat} {value : Int}
    {signature : BytesN 64}
    (h : submit verify env s r m timestamp value key signature=.ok (slot,s')) :
    journal.Publishes s.published s'.published [.observationSubmitted r m slot key] := by
  have hhead := submit_head h
  have hobs := submit_obs h
  obtain ⟨hactive,-,-,-,hslot,hs⟩ := submit_ok h
  have hallowed : isActive s key=true := by rw [isActive,hactive]; rfl
  refine .one (by rw [hs]; rfl) ⟨hallowed,hslot⟩ ?_
  ext1
  · rw [hs]; rfl
  · rw [hs]; rfl
  · funext k
    obtain ⟨r',m'⟩ := k
    change (readHead s' r' m').nextSeq=Function.update s.register.sent (r,m)
      ((readHead s r m).nextSeq+1) (r',m')
    rw [hhead,Function.update_apply,apply_ite Head.nextSeq]
    simp only [Prod.mk.injEq]
    rfl
  · funext k
    obtain ⟨r',m',k'⟩ := k
    change (s'.obs (r',m',k')).map Observation.publisher=
      Function.update s.register.author (r,m,slot) (some key) (r',m',k')
    rw [hobs,Function.update_apply,apply_ite (Option.map Observation.publisher)]
    simp only [Prod.mk.injEq]
    rfl
  · rw [hs]; rfl

theorem unchallenge_publishes {r m : Symbol} {k : Nat} (h : unchallenge env s r m k=.ok s') :
    journal.Publishes s.published s'.published [.observationUnchallenged r m k] := by
  simp only [unchallenge,bind_eq_ok,pure_eq_ok] at h
  obtain ⟨-,-,rfl⟩ := h
  exact .one rfl trivial rfl

/-- Every successful call publishes one event that fits and accounts for what it did. -/
theorem invoke_publishes {c : Call} (hs : s.Registry) (h : invoke verify env s c=.ok s') :
    ∃ e, journal.Publishes s.published s'.published [e] := by
  cases c <;> simp only [invoke,except_map_eq_ok,Prod.exists] at h
  case proposePublisher key add =>
    obtain ⟨eta,_,hu,rfl⟩ := h
    exact ⟨_,proposePublisher_publishes hu⟩
  case executePublisher key => exact executePublisher_publishes hs h
  case cancelPublisher key => exact ⟨_,cancelPublisher_publishes h⟩
  case submit r m t v key signature =>
    obtain ⟨slot,_,hu,rfl⟩ := h
    exact ⟨_,submit_publishes hu⟩
  case challenge r m k reason => exact ⟨_,challenge_publishes h⟩
  case unchallenge r m k => exact ⟨_,unchallenge_publishes h⟩

end Steps

/-- After every run, whoever starts from nothing and reads the published events knows which keys
may submit, what changes are pending, how many observations every ring accepted, whose each slot is
and which are challenged; in the order of the events only pending changes take effect, only active
keys submit, and each submission takes the next slot of its ring. -/
theorem events_account_for_observations
    (verify : BytesN 32 → ObservationPayload → BytesN 64 → Bool) (admin : Address)
    (calls : List (Env × Call)) :
    let s := (machine verify).run (deploy admin) calls
    journal.Records Register.blank s.events s.register := by
  intro s
  refine (machine verify).run_records (fun _ => journal) (fun _ => True) State.Registry
    State.published Register.blank ?_ ?_ ?_ calls (fun _ _ => trivial) _ (deploy_registry admin)
    (.nil Register.blank)
  · intro s a t hs h
    exact RegistryStep.registry hs (fun key => invoke_registryStep h key)
  · intro s a t _ hs h r e
    exact ⟨rfl,id⟩
  · intro s a t _ hs h
    obtain ⟨e,hp⟩ := invoke_publishes hs h
    exact ⟨[e],hp⟩

end Mvua.OracleAdapter
