import Mvua.OracleAdapter.Ring
import Mvua.Framework.Isolation

namespace Mvua.OracleAdapter

/-- What the calls on the ring of one region and metric read and write. -/
structure PairView where
  admin : Option Address
  publisher : BytesN 32 → Option PublisherInfo
  pendingPublisher : BytesN 32 → Option PendingRegistry
  stalenessBound : Option Nat
  obsHead : Option Head
  obs : Nat → Option Observation
  challenge : Nat → Option Nat

def State.pair (s : State) (region metric : Symbol) : PairView where
  admin := s.admin
  publisher := s.publisher
  pendingPublisher := s.pendingPublisher
  stalenessBound := s.stalenessBound
  obsHead := s.obsHead (region,metric)
  obs := fun k => s.obs (region,metric,k)
  challenge := fun k => s.challenge (region,metric,k)

/-- The calls that a median is made of. -/
def Call.concerns (region metric : Symbol) : Call → Bool
  | .proposePublisher .. | .executePublisher _ | .cancelPublisher _ => true
  | .submit r m .. | .challenge r m .. | .unchallenge r m _ => decide (r=region ∧ m=metric)

section Other

variable {verify : BytesN 32 → ObservationPayload → BytesN 64 → Bool} {env : Env} {s s' : State}
  {r m : Symbol}

/-- A call that does not concern a pair leaves it. -/
theorem invoke_pair {c : Call} (hc : c.concerns r m=false) (h : invoke verify env s c=.ok s') :
    s'.pair r m=s.pair r m := by
  have apart {r' m' : Symbol} (hne : ¬(r'=r ∧ m'=m)) (k j : Nat) : (r,m,k)≠(r',m',j) := by
    simp only [ne_eq,Prod.mk.injEq,not_and]
    intro hr hm
    exact absurd ⟨hr.symm,hm.symm⟩ hne
  cases c with
  | proposePublisher p add => cases hc
  | executePublisher p => cases hc
  | cancelPublisher p => cases hc
  | submit r' m' t v p sig =>
    simp only [Call.concerns,decide_eq_false_iff_not] at hc
    have hhead : (r,m)≠(r',m') := by
      simp only [ne_eq,Prod.mk.injEq]
      exact fun he => hc ⟨he.1.symm,he.2.symm⟩
    simp only [invoke,except_map_eq_ok,Prod.exists] at h
    obtain ⟨slot,_,h,rfl⟩ := h
    obtain ⟨-,-,-,-,-,hs⟩ := submit_ok h
    rw [hs]
    simp [State.pair,hhead,apart hc]
  | challenge r' m' k reason =>
    simp only [Call.concerns,decide_eq_false_iff_not] at hc
    simp only [invoke,challenge,bind_eq_ok,pure_eq_ok] at h
    obtain ⟨-,-,-,-,-,-,rfl⟩ := h
    simp [State.pair,State.publish,apart hc]
  | unchallenge r' m' k =>
    simp only [Call.concerns,decide_eq_false_iff_not] at hc
    simp only [invoke,unchallenge,bind_eq_ok,pure_eq_ok] at h
    obtain ⟨-,-,rfl⟩ := h
    simp [State.pair,State.publish,apart hc]

end Other

section Own

variable {verify : BytesN 32 → ObservationPayload → BytesN 64 → Bool} {env : Env} {s t : State}
  {r m : Symbol}

/-- Calls that agree leave a pair alike. -/
def SamePair (r m : Symbol) (s t : State) : Prop := s.pair r m=t.pair r m

namespace SamePair

theorem admin (h : SamePair r m s t) : s.admin=t.admin := congrArg PairView.admin h

theorem publisher (h : SamePair r m s t) : s.publisher=t.publisher := congrArg PairView.publisher h

theorem pendingPublisher (h : SamePair r m s t) : s.pendingPublisher=t.pendingPublisher :=
  congrArg PairView.pendingPublisher h

theorem obsHead (h : SamePair r m s t) : s.obsHead (r,m)=t.obsHead (r,m) :=
  congrArg PairView.obsHead h

theorem obs (h : SamePair r m s t) (k : Nat) : s.obs (r,m,k)=t.obs (r,m,k) :=
  congrFun (congrArg PairView.obs h) k

theorem challenge (h : SamePair r m s t) (k : Nat) :
    s.challenge (r,m,k)=t.challenge (r,m,k) := congrFun (congrArg PairView.challenge h) k

theorem requireAdmin (h : SamePair r m s t) :
    OracleAdapter.requireAdmin env s=OracleAdapter.requireAdmin env t := by
  rw [OracleAdapter.requireAdmin,OracleAdapter.requireAdmin,h.admin]

theorem readHead (h : SamePair r m s t) :
    OracleAdapter.readHead s r m=OracleAdapter.readHead t r m := by
  rw [OracleAdapter.readHead,OracleAdapter.readHead,h.obsHead]

theorem isChallenged (h : SamePair r m s t) (k : Nat) :
    OracleAdapter.isChallenged s r m k=OracleAdapter.isChallenged t r m k := by
  rw [OracleAdapter.isChallenged,OracleAdapter.isChallenged,h.challenge]

theorem flagged (h : SamePair r m s t) (k : Nat) (flag : Option Nat) (e : Event) : SamePair r m
    ({ s with challenge := Function.update s.challenge (r,m,k) flag }.publish e)
    ({ t with challenge := Function.update t.challenge (r,m,k) flag }.publish e) := by
  have hflag := h.challenge
  simp only [SamePair,State.pair,PairView.mk.injEq] at h ⊢
  simp [State.publish,Function.update_apply,h,hflag]

/-- The median of a pair is read off the pair. -/
theorem median (h : SamePair r m s t) (now : Env) :
    OracleAdapter.median now s r m=OracleAdapter.median now t r m := by
  have hbound : s.stalenessBound=t.stalenessBound := congrArg PairView.stalenessBound h
  have hgather : gatherSlot now s r m=gatherSlot now t r m := by
    funext b g k
    simp only [gatherSlot,h.obs,h.isChallenged]
  simp only [OracleAdapter.median,h.readHead,readStalenessHours,hbound,hgather]

end SamePair

theorem submit_agrees (h : SamePair r m s t) (timestamp : Nat) (value : Int) (key : BytesN 32)
    (signature : BytesN 64) : Agrees id (fun x y => SamePair r m x.2 y.2)
      (submit verify env s r m timestamp value key signature)
      (submit verify env t r m timestamp value key signature) := by
  have stored (slot : Nat) (o : Observation) (head : Head) (e : Event) : SamePair r m
      ({ s with
        obs := Function.update s.obs (r,m,slot) (some o)
        challenge := Function.update s.challenge (r,m,slot) none
        obsHead := Function.update s.obsHead (r,m) (some head) }.publish e)
      ({ t with
        obs := Function.update t.obs (r,m,slot) (some o)
        challenge := Function.update t.challenge (r,m,slot) none
        obsHead := Function.update t.obsHead (r,m) (some head) }.publish e) := by
    have hobs := h.obs
    have hflag := h.challenge
    simp only [SamePair,State.pair,PairView.mk.injEq] at h ⊢
    simp [State.publish,Function.update_apply,h,hobs,hflag]
  have hinfo : s.publisher key=t.publisher key := congrFun h.publisher key
  unfold submit
  rw [hinfo,h.readHead]
  refine (Agrees.same _).bind fun info info' he => ?_
  subst he
  refine (Agrees.same _).bind fun _ _ _ => (Agrees.same _).bind fun _ _ _ => ?_
  refine (Agrees.same _).bind fun _ _ _ => (Agrees.same _).bind fun next next' he => ?_
  subst he
  dsimp only
  split_ifs
  · refine (Agrees.same _).bind fun count count' he => ?_
    subst he
    exact .ok (stored _ _ _ _)
  · exact .ok (stored _ _ _ _)

theorem challenge_agrees (h : SamePair r m s t) (k reason : Nat) : Agrees id (SamePair r m)
    (challenge env s r m k reason) (challenge env t r m k reason) := by
  unfold challenge
  rw [h.requireAdmin,h.obs,h.isChallenged]
  refine (Agrees.same _).bind fun _ _ _ => (Agrees.same _).bind fun _ _ _ => ?_
  exact (Agrees.same _).bind fun _ _ _ => .ok (h.flagged k _ _)

theorem unchallenge_agrees (h : SamePair r m s t) (k : Nat) : Agrees id (SamePair r m)
    (unchallenge env s r m k) (unchallenge env t r m k) := by
  unfold unchallenge
  rw [h.requireAdmin]
  exact (Agrees.same _).bind fun _ _ _ => .ok (h.flagged k _ _)

theorem proposePublisher_agrees (h : SamePair r m s t) (p : BytesN 32) (add : Bool) :
    Agrees id (fun x y => SamePair r m x.2 y.2) (proposePublisher env s p add)
      (proposePublisher env t p add) := by
  have hinfo : s.publisher p=t.publisher p := congrFun h.publisher p
  have hpending : s.pendingPublisher p=t.pendingPublisher p := congrFun h.pendingPublisher p
  unfold proposePublisher
  rw [h.requireAdmin,hinfo,hpending]
  refine (Agrees.same _).bind fun _ _ _ => (Agrees.same _).bind fun _ _ _ => ?_
  refine (Agrees.same _).bind fun _ _ _ => (Agrees.same _).bind fun _ _ _ => ?_
  refine (Agrees.same _).bind fun eta eta' he => ?_
  subst he
  refine .ok ?_
  simp only [SamePair,State.pair,PairView.mk.injEq] at h ⊢
  simp [State.publish,h]

theorem executePublisher_agrees (h : SamePair r m s t) (p : BytesN 32) :
    Agrees id (SamePair r m) (executePublisher env s p) (executePublisher env t p) := by
  have hinfo : s.publisher p=t.publisher p := congrFun h.publisher p
  have hpending : s.pendingPublisher p=t.pendingPublisher p := congrFun h.pendingPublisher p
  have executed (info : PublisherInfo) (e : Event) : SamePair r m
      ({ s with
        publisher := Function.update s.publisher p (some info)
        pendingPublisher := Function.update s.pendingPublisher p none }.publish e)
      ({ t with
        publisher := Function.update t.publisher p (some info)
        pendingPublisher := Function.update t.pendingPublisher p none }.publish e) := by
    simp only [SamePair,State.pair,PairView.mk.injEq] at h ⊢
    simp [State.publish,h]
  unfold executePublisher
  rw [h.requireAdmin,hinfo,hpending]
  refine (Agrees.same _).bind fun _ _ _ => (Agrees.same _).bind fun change change' he => ?_
  subst he
  refine (Agrees.same _).bind fun _ _ _ => ?_
  dsimp only
  split_ifs
  · refine (Agrees.same _).bind fun info info' he => ?_
    subst he
    exact .ok (executed _ _)
  · refine (Agrees.same _).bind fun info info' he => ?_
    subst he
    exact .ok (executed _ _)

theorem cancelPublisher_agrees (h : SamePair r m s t) (p : BytesN 32) :
    Agrees id (SamePair r m) (cancelPublisher env s p) (cancelPublisher env t p) := by
  have hpending : s.pendingPublisher p=t.pendingPublisher p := congrFun h.pendingPublisher p
  unfold cancelPublisher
  rw [h.requireAdmin,hpending]
  refine (Agrees.same _).bind fun _ _ _ => (Agrees.same _).bind fun _ _ _ => .ok ?_
  simp only [SamePair,State.pair,PairView.mk.injEq] at h ⊢
  simp [State.publish,h]

/-- A call that concerns a pair does to it what the pair alone determines. -/
theorem invoke_agrees {c : Call} (h : SamePair r m s t) (hc : c.concerns r m) :
    Agrees id (SamePair r m) (invoke verify env s c) (invoke verify env t c) := by
  cases c with
  | proposePublisher p add => exact (proposePublisher_agrees h p add).returned
  | executePublisher p => exact executePublisher_agrees h p
  | cancelPublisher p => exact cancelPublisher_agrees h p
  | submit r' m' timestamp value key signature =>
    obtain ⟨rfl,rfl⟩ := of_decide_eq_true hc
    exact (submit_agrees h timestamp value key signature).returned
  | challenge r' m' k reason =>
    obtain ⟨rfl,rfl⟩ := of_decide_eq_true hc
    exact challenge_agrees h k reason
  | unchallenge r' m' k =>
    obtain ⟨rfl,rfl⟩ := of_decide_eq_true hc
    exact unchallenge_agrees h k

end Own

end Mvua.OracleAdapter
