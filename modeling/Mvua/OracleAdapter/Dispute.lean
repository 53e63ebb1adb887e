import Mvua.OracleAdapter.Queue
import Mvua.OracleAdapter.Influence

namespace Mvua.OracleAdapter

/-- How many more submissions a ring accepts before the one that rewrites slot `k`. -/
def turnsBefore (s : State) (r m : Symbol) (k : Nat) : Nat :=
  (k+ringSize-(readHead s r m).nextSeq%ringSize)%ringSize

/-- The last of these submissions in a slot that the first `turns` of them pass by. -/
def lastInto (subs : List Accepted) (turns : Nat) : Option Accepted :=
  if subs.length≤turns then none
  else subs[turns+ringSize*((subs.length-1-turns)/ringSize)]?

section Slots

variable {s t : State} {r m : Symbol} {events more : List RingEvent} {k : Nat} {o : Observation}

/-- A slot keeps what it held until its turn comes, and has the last submission for it after. -/
theorem Represents.slot_after (hs : Represents s r m events) (ht : Represents t r m (events++more))
    (h : s.obs (r,m,k)=some o) : t.obs (r,m,k)=
      some ((lastInto (accepted more) (turnsBefore s r m k)).elim o Accepted.observation) := by
  have hpos : 0 < ringSize := by decide
  have hk : k<(readHead s r m).count := by
    by_contra hge
    rw [hs.empty k (by omega)] at h
    cases h
  obtain ⟨q,a,hq,ha,hobs⟩ := hs.latest k hk
  have ho : a.observation=o := by
    rw [h,Option.some.injEq] at hobs
    exact hobs.symm
  have hturn : turnsBefore s r m k=q+ringSize-(accepted events).length := by
    rw [turnsBefore,hs.nextSeq]
    exact hq.turn hpos
  -- whichever position has the slot now, its submission is what the slot holds
  have hslot (p : Nat) (b : Accepted)
      (hp : IsLatest ringSize (accepted events++accepted more).length k p)
      (hb : (accepted events++accepted more)[p]?=some b) : t.obs (r,m,k)=some b.observation := by
    have hlast := (isLatest_iff_window hpos).mp (hp.slot.symm ▸ hp)
    rw [← accepted_append] at hlast hb
    rw [← hp.slot]
    exact ht.window p b hb hlast.2
  have hwin := ((isLatest_iff_window hpos).mp (hq.slot.symm ▸ hq)).2
  rw [lastInto,hturn]
  rw [List.length_append] at hslot
  split_ifs with hle
  · have hkept := hq.kept hpos (c := (accepted more).length) (by omega)
    rw [Option.elim_none,← ho]
    exact hslot q a hkept (by rw [List.getElem?_append_left hq.lt]; exact ha)
  · have hrep := hq.replaced hpos (c := (accepted more).length) (by omega)
    have hsame : (accepted events).length+(accepted more).length-1-(q+ringSize)=
        (accepted more).length-1-(q+ringSize-(accepted events).length) := by omega
    rw [hsame] at hrep
    have hlt := hrep.lt
    have hlast : q+ringSize-(accepted events).length+ringSize*(((accepted more).length-1-
        (q+ringSize-(accepted events).length))/ringSize)<(accepted more).length := by omega
    rw [List.getElem?_eq_getElem hlast,Option.elim_some]
    refine hslot _ _ hrep ?_
    rw [List.getElem?_append_right (by omega),← List.getElem?_eq_getElem hlast]
    congr 1
    omega

end Slots

def heldBy (s : State) (r m : Symbol) (k : Nat) : Nat :=
  (readHead s r m).nextSeq+turnsBefore s r m k-ringSize

/-- The ring still holds its submission number `p`. -/
def InRing (s : State) (r m : Symbol) (p : Nat) : Prop :=
  p<(readHead s r m).nextSeq ∧ (readHead s r m).nextSeq≤p+ringSize

instance (s : State) (r m : Symbol) (p : Nat) : Decidable (InRing s r m p) :=
  inferInstanceAs (Decidable (_ ∧ _))

/-- The state as it would be had submission `p` been challenged; `median` reads of a challenge
only that it is there. -/
def without (s : State) (r m : Symbol) (p : Nat) : State :=
  if InRing s r m p then
    { s with challenge := Function.update s.challenge (r,m,p%ringSize) (some 0) }
  else s

/-- Submission `p` was accepted, and its slot is challenged for as long as it is there. -/
def Excluded (s : State) (r m : Symbol) (p : Nat) : Prop :=
  p<(readHead s r m).nextSeq ∧
    ((readHead s r m).nextSeq≤p+ringSize → isChallenged s r m (p%ringSize))

def Upheld (verify : BytesN 32 → ObservationPayload → BytesN 64 → Bool) (r m : Symbol) (p : Nat)
    (s : State) (a : Env × Call) : Prop :=
  .unchallenge (p%ringSize)∈ringEvents verify r m s a → ¬InRing s r m p

instance (verify : BytesN 32 → ObservationPayload → BytesN 64 → Bool) (r m : Symbol) (p : Nat)
    (s : State) (a : Env × Call) : Decidable (Upheld verify r m p s a) :=
  inferInstanceAs (Decidable (_ → _))

section Excluding

variable {s s' : State} {r m : Symbol} {p k : Nat}

theorem Represents.heldBy_inRing {events : List RingEvent} {o : Observation}
    (h : Represents s r m events) (ho : s.obs (r,m,k)=some o) :
    InRing s r m (heldBy s r m k) ∧ heldBy s r m k%ringSize=k := by
  have hpos : 0 < ringSize := by decide
  have hk : k<(readHead s r m).count := by
    by_contra hge
    rw [h.empty k (by omega)] at ho
    cases ho
  obtain ⟨q,-,hq,-⟩ := h.latest k hk
  obtain ⟨hlt,hwin⟩ := (isLatest_iff_window hpos).mp (hq.slot.symm ▸ hq)
  have hturn : turnsBefore s r m k=q+ringSize-(accepted events).length := by
    rw [turnsBefore,h.nextSeq]
    exact hq.turn hpos
  have hheld : heldBy s r m k=q := by
    rw [heldBy,hturn,h.nextSeq]
    omega
  rw [hheld,InRing,h.nextSeq]
  exact ⟨⟨hlt,hwin⟩,hq.slot⟩

/-- The median depends on challenges only by which slots have one. -/
theorem median_congr (env : Env) (hobs : s'.obs=s.obs) (hhead : s'.obsHead=s.obsHead)
    (hbound : s'.stalenessBound=s.stalenessBound)
    (hflag : ∀ k, isChallenged s' r m k=isChallenged s r m k) :
    median env s' r m=median env s r m := by
  have hgather : gatherSlot env s' r m=gatherSlot env s r m := by
    funext b g k
    simp only [gatherSlot,hobs,hflag]
  simp only [median,readHead,hhead,readStalenessHours,hbound,hgather]
  rfl

theorem Excluded.median_without (h : Excluded s r m p) (env : Env) (r' m' : Symbol) :
    median env (without s r m p) r' m'=median env s r' m' := by
  unfold without
  split_ifs with hin
  · refine median_congr env rfl rfl rfl fun k => ?_
    unfold isChallenged
    dsimp only
    by_cases he : (r',m',k)=(r,m,p%ringSize)
    · have hflag := h.2 hin.2
      rw [isChallenged] at hflag
      cases he
      rw [Function.update_self,hflag]
      rfl
    · rw [Function.update_of_ne he]
  · rfl

variable {verify : BytesN 32 → ObservationPayload → BytesN 64 → Bool} {env : Env}

theorem Excluded.step {events : List RingEvent} (h : Excluded s r m p)
    (hs : RingStep verify env s s' r m events)
    (upheld : .unchallenge (p%ringSize)∈events → ¬InRing s r m p) : Excluded s' r m p := by
  cases hs with
  | accept timestamp value publisher signature slot hcall =>
    obtain ⟨-,-,-,-,hslot,-⟩ := submit_ok hcall
    rw [Excluded,submit_head hcall,if_pos ⟨rfl,rfl⟩,isChallenged,submit_challenge hcall]
    refine ⟨h.1.trans (Nat.lt_succ_self _),fun hwin => ?_⟩
    have hne : p%ringSize≠slot := by
      have hlt := h.1
      dsimp only at hwin
      unfold ringSize at *
      omega
    rw [if_neg (fun hc => hne hc.2.2)]
    exact h.2 (by dsimp only at hwin; omega)
  | challenge k reason hcall =>
    have hhead := (challenge_frame hcall).1
    obtain ⟨-,hflag⟩ := challenge_ok hcall
    rw [Excluded,readHead,hhead,hflag]
    refine ⟨h.1,fun hwin => ?_⟩
    split_ifs
    · rfl
    · exact h.2 hwin
  | unchallenge k hcall =>
    have hhead := unchallenge_frame hcall
    obtain ⟨-,hflag⟩ := unchallenge_ok hcall
    rw [Excluded,readHead,hhead,hflag]
    refine ⟨h.1,fun hwin => ?_⟩
    have hne : p%ringSize≠k := by
      intro he
      exact upheld (by simp [he]) ⟨h.1,hwin⟩
    rw [if_neg (fun hc => hne hc.2.2)]
    exact h.2 hwin
  | same hsame =>
    rw [Excluded,hsame.head,hsame.flag]
    exact h

theorem Excluded.next (h : Excluded s r m p) {a : Env × Call} (upheld : Upheld verify r m p s a) :
    Excluded ((machine verify).next s a) r m p := by
  obtain ⟨env,c⟩ := a
  cases hc : invoke verify env s c with
  | error e =>
    rw [(machine verify).next_of_error (s := s) (a := (env,c)) hc]
    exact h
  | ok t =>
    rw [(machine verify).next_of_ok (s := s) (a := (env,c)) hc]
    exact h.step (invoke_ringStep hc r m) upheld

end Excluding

section Runs

variable (verify : BytesN 32 → ObservationPayload → BytesN 64 → Bool)

/-- A challenge names a slot: whatever calls come between the reading of an observation there and
the challenge, it flags what the slot holds by then. That is the observation as read exactly when
no later submission took the slot, or the last one that did says the same. -/
theorem challenge_flags_slot (admin : Address) (history later : List (Env × Call)) (env : Env)
    (r m : Symbol) (k reason : Nat) (o : Observation) :
    let M := machine verify
    let s := M.run (deploy admin) history
    let subs := accepted (M.log (ringEvents verify r m) s later)
    ∀ u, s.obs (r,m,k)=some o → M.step (M.run s later) (env,.challenge r m k reason)=.ok u →
      isChallenged u r m k ∧
      u.obs (r,m,k)=
        some ((lastInto subs (turnsBefore s r m k)).elim o Accepted.observation) ∧
      (u.obs (r,m,k)=some o ↔
        ∀ a, lastInto subs (turnsBefore s r m k)=some a → a.observation=o) := by
  intro M s subs u ho hu
  obtain ⟨hobs,hflag⟩ := challenge_ok hu
  have hs : Represents s r m (M.log (ringEvents verify r m) (deploy admin) history) :=
    ring_refines_queue verify admin history r m
  have ht := ring_refines_queue verify admin (history++later) r m
  dsimp only at ht
  rw [Machine.run_append,Machine.log_append] at ht
  have hslot := hs.slot_after ht ho
  refine ⟨by rw [hflag,if_pos ⟨rfl,rfl,rfl⟩],by rw [hobs]; exact hslot,?_⟩
  rw [hobs,hslot,Option.some.injEq]
  cases lastInto subs (turnsBefore s r m k) with
  | none => simp
  | some a => simp

end Runs

/-- The guardian reads an outlier in the oldest slot of a full ring, another publisher submits,
and the challenge excludes that submission. -/
theorem challenge_hits_another :
    let M := machine signedAll
    let s := M.run sampleStart fullRing
    let t := M.run s [sampleSubmit 999020 21 3]
    let u := M.next t (⟨1000000,[⟨0⟩]⟩,.challenge ⟨1⟩ ⟨1⟩ 0 7)
    s.obs (⟨1⟩,⟨1⟩,0)=some ⟨10,999000,1,true⟩ ∧
    (M.step t (⟨1000000,[⟨0⟩]⟩,.challenge ⟨1⟩ ⟨1⟩ 0 7)).isOk ∧
    u.obs (⟨1⟩,⟨1⟩,0)=some ⟨21,999020,3,true⟩ ∧ isChallenged u ⟨1⟩ ⟨1⟩ 0 := by
  decide +kernel

theorem challenge_flags_slot_next :
    let M := machine signedAll
    let s := M.run (deploy ⟨0⟩) fullRing
    ∃ u, M.step (M.run s [sampleSubmit 999020 21 3])
        (⟨1000000,[⟨0⟩]⟩,.challenge ⟨1⟩ ⟨1⟩ 1 7)=.ok u ∧
      isChallenged u ⟨1⟩ ⟨1⟩ 1 ∧ u.obs (⟨1⟩,⟨1⟩,1)=some ⟨20,999001,2,true⟩ := by
  intro M s
  have hok := M.step_of_isOk (s := M.run s [sampleSubmit 999020 21 3])
    (a := (⟨1000000,[⟨0⟩]⟩,.challenge ⟨1⟩ ⟨1⟩ 1 7)) (by decide +kernel)
  have hnone : lastInto (accepted (M.log (ringEvents signedAll ⟨1⟩ ⟨1⟩) s
      [sampleSubmit 999020 21 3])) (turnsBefore s ⟨1⟩ ⟨1⟩ 1)=none := by
    decide +kernel
  obtain ⟨hflag,hobs,-⟩ := challenge_flags_slot signedAll ⟨0⟩ fullRing
    [sampleSubmit 999020 21 3] ⟨1000000,[⟨0⟩]⟩ ⟨1⟩ ⟨1⟩ 1 7 ⟨20,999001,2,true⟩ _
    (by decide +kernel) hok
  rw [hnone] at hobs
  exact ⟨_,hok,hflag,hobs⟩

end Mvua.OracleAdapter
