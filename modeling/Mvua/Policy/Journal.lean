import Mvua.Framework.Journal
import Mvua.Policy.Market
import Mvua.Policy.Lifecycle

namespace Mvua.Policy

/-- What the events say of a certificate; its region, window and index are not published. -/
structure Certificate where
  owner : Address
  poolId : Nat
  seasonId : Nat
  coverage : Int
  premiumPaid : Int
  state : PolicyState

def PolicyRecord.certificate (r : PolicyRecord) : Certificate where
  owner := r.owner
  poolId := r.poolId
  seasonId := r.seasonId
  coverage := r.coverage
  premiumPaid := r.premiumPaid
  state := r.state

/-- What a reader of the events keeps. -/
@[ext] structure Register where
  issued : Nat
  certificate : Nat → Option Certificate
  transferable : Nat → Bool

namespace Register

def blank : Register := ⟨0,fun _ => none,fun _ => false⟩

def onCertificate (r : Register) (id : Nat) (f : Certificate → Certificate) : Register :=
  { r with certificate := Function.update r.certificate id ((r.certificate id).map f) }

def post (r : Register) : Event → Register
  | .policyMinted id owner p z coverage premiumPaid =>
      { r with
        issued := id
        certificate := Function.update r.certificate id
          (some ⟨owner,p,z,coverage,premiumPaid,.active⟩) }
  | .policyStateChanged id st => r.onCertificate id fun c => { c with state := st }
  | .policyCancelled id _ _ => r.onCertificate id fun c => { c with state := .cancelled }
  | .batchMinted _ _ _ _ => r
  | .policyTransferred id _ dst => r.onCertificate id fun c => { c with owner := dst }
  | .transferabilitySet p allowed =>
      { r with transferable := Function.update r.transferable p allowed }

/-- The last `n` certificates were just bought in the season. -/
def Bought (r : Register) (p z n : Nat) : Prop :=
  ∀ k < n, ∃ c, r.certificate (r.issued-k)=some c ∧ c.poolId=p ∧ c.seasonId=z ∧ c.state=.active

/-- The guards that an event passed, read off what was published before it. -/
def Fits (r : Register) : Event → Prop
  | .policyMinted id _ _ _ coverage premiumPaid => id=r.issued+1 ∧ 0<coverage ∧ 0<premiumPaid
  | .policyStateChanged id st =>
      ∃ c, r.certificate id=some c ∧ c.state.Advances st ∧ st≠.cancelled
  | .policyCancelled id owner refunded =>
      ∃ c, r.certificate id=some c ∧ c.owner=owner ∧ c.state=.active ∧ 0 < refunded ∧
        refunded ≤ c.premiumPaid
  | .batchMinted _ p z count => 1 ≤ count ∧ count ≤ maxBatch ∧ r.Bought p z count
  | .policyTransferred id src _ =>
      ∃ c, r.certificate id=some c ∧ c.owner=src ∧ c.state=.active ∧ r.transferable c.poolId=true
  | .transferabilitySet _ _ => True

theorem Bought.mint {r : Register} {p z n : Nat} (h : r.Bought p z n) (owner : Address)
    (coverage premiumPaid : Int) :
    (r.post (.policyMinted (r.issued+1) owner p z coverage premiumPaid)).Bought p z (n+1) := by
  intro k hk
  cases k with
  | zero => exact ⟨_,Function.update_self ..,rfl,rfl,rfl⟩
  | succ k =>
    obtain ⟨c,hc,hrest⟩ := h k (by omega)
    refine ⟨c,?_,hrest⟩
    change Function.update r.certificate (r.issued+1) _ (r.issued+1-(k+1))=some c
    rw [show r.issued+1-(k+1)=r.issued-k by omega,Function.update_of_ne (by omega)]
    exact hc

end Register

def journal : Journal Register Event where
  post := Register.post
  Fits := Register.Fits

def State.register (s : State) : Register where
  issued := s.policyCounter.getD 0
  certificate := fun id => (s.policy id).map PolicyRecord.certificate
  transferable := readTransferable s

/-- What readers see, and what they are to know from it. -/
def State.published (s : State) : List Event × Register := (s.events,s.register)

section Steps

variable {s s' : State}

theorem State.register_certificate {id : Nat} {r : PolicyRecord} (hr : s.policy id=some r) :
    s.register.certificate id=some r.certificate := by
  simp [State.register,hr]

/-- Overwriting a certificate posts as the event says if the event says how it changes. -/
theorem State.rewritten_register {id : Nat} {r : PolicyRecord} (r' : PolicyRecord) (e : Event)
    (f : Certificate → Certificate) (hr : s.policy id=some r)
    (hf : r'.certificate=f r.certificate) :
    ((s.writePolicy id r').publish e).register=s.register.onCertificate id f := by
  ext1
  · rfl
  · funext j
    change ((Function.update s.policy id (some r') j).map PolicyRecord.certificate)=
      Function.update s.register.certificate id ((s.register.certificate id).map f) j
    by_cases hj : j=id
    · subst hj
      rw [Function.update_self,Function.update_self]
      simp [State.register,hr,hf]
    · rw [Function.update_of_ne hj,Function.update_of_ne hj]
      rfl
  · rfl

theorem transition_publishes {id : Nat} {src dst : PolicyState}
    (h : transition s id src dst=.ok s') (hadvances : src.Advances dst) (hne : dst≠.cancelled) :
    journal.Publishes s.published s'.published [.policyStateChanged id dst] := by
  obtain ⟨r,hr,hst,rfl⟩ := transition_ok h
  have hadvance : r.certificate.state.Advances dst := by
    rw [show r.certificate.state=src from hst]
    exact hadvances
  exact .one rfl ⟨r.certificate,State.register_certificate hr,hadvance,hne⟩
    (State.rewritten_register _ _ _ hr rfl)

theorem transfer_publishes {env : Env} {id : Nat} {dst : Address}
    (h : transfer env s id dst=.ok s') :
    ∃ src, journal.Publishes s.published s'.published [.policyTransferred id src dst] := by
  simp only [transfer,readPolicy,bind_eq_ok,failIf_eq_ok,okOr_eq_ok,requireAuth_eq_ok,
    pure_eq_ok] at h
  obtain ⟨r,hr,-,-,-,hallowed,-,hst,rfl⟩ := h
  have hallow : readTransferable s r.poolId=true := by simpa using hallowed
  have hmoved := State.rewritten_register { r with owner := dst }
    (.policyTransferred id r.owner dst) (fun c => { c with owner := dst }) hr rfl
  exact ⟨r.owner,.one rfl ⟨r.certificate,State.register_certificate hr,rfl,not_not.mp hst,hallow⟩
    hmoved⟩

theorem setTransferable_publishes {env : Env} {p : Nat} {allowed : Bool}
    (h : setTransferable env s p allowed=.ok s') :
    journal.Publishes s.published s'.published [.transferabilitySet p allowed] := by
  simp only [setTransferable,bind_eq_ok,pure_eq_ok] at h
  obtain ⟨_,-,rfl⟩ := h
  refine .one rfl trivial ?_
  ext1
  · rfl
  · rfl
  · funext q
    change ((Function.update s.transferable p (some allowed) q).getD false)=
      Function.update s.register.transferable p allowed q
    by_cases hq : q=p
    · subst hq
      rw [Function.update_self,Function.update_self]
      rfl
    · rw [Function.update_of_ne hq,Function.update_of_ne hq]
      rfl

variable {L : Type} {T : TokenHost L} {net : Network} {env : Env} {w w' : World L}

theorem mintOne_publishes {rp owner payer : Address} {p z id : Nat} {terms : PolicyTerms}
    {maxPremium : Int} {metadata : BytesN 32}
    (h : mintOne T net env rp w owner payer p z terms maxPremium metadata=.ok (id,w')) :
    ∃ premium, journal.Publishes w.policy.published w'.policy.published
      [.policyMinted (w.policy.register.issued+1) owner p z terms.coverage premium] := by
  obtain ⟨premium,m,s',l',hcov,-,-,-,hcollect,rfl,rfl⟩ := mintOne_ok h
  obtain ⟨_,_,_,_,_,_,-,-,-,-,-,hpremium,-⟩ := RiskPool.collectPremium_ok hcollect
  refine ⟨premium,.one rfl ⟨rfl,hcov,hpremium⟩ ?_⟩
  ext1
  · rfl
  · funext j
    change ((w.policy.issue _ _ _).policy j).map PolicyRecord.certificate=
      Function.update w.policy.register.certificate (w.policy.policyCounter.getD 0+1) _ j
    rw [State.issue_policy,Function.update_apply]
    split_ifs
    · rfl
    · rfl
  · rfl

/-- The rounds of a batch publish one purchase each, all in the batch's season. -/
theorem entries_publish {rp payer : Address} {p z : Nat} {entries : List BatchEntry}
    {r r' : List Nat × World L} {n : Nat} (hr : r.2.policy.register.Bought p z n)
    (h : entries.foldlM (mintEntry T net env rp payer p z) r=.ok r') :
    ∃ mints, journal.Publishes r.2.policy.published r'.2.policy.published mints ∧
      r'.2.policy.register.Bought p z (n+entries.length) := by
  induction entries generalizing r n with
  | nil =>
    rw [List.foldlM_nil,pure_eq_ok] at h
    subst h
    exact ⟨[],.silent rfl,hr⟩
  | cons entry entries ih =>
    rw [List.foldlM_cons,bind_eq_ok] at h
    obtain ⟨r1,hentry,hrest⟩ := h
    obtain ⟨id,-,hm⟩ := mintEntry_ok hentry
    obtain ⟨premium,hp⟩ := mintOne_publishes hm
    have hbought : r1.2.policy.register.Bought p z (n+1) := by
      have hbooks : r1.2.policy.register=r.2.policy.register.post (.policyMinted
          (r.2.policy.register.issued+1) entry.owner p z entry.terms.coverage premium) := hp.books
      rw [hbooks]
      exact hr.mint entry.owner entry.terms.coverage premium
    obtain ⟨mints,hmints,hend⟩ := ih hbought hrest
    refine ⟨_,hp.trans hmints,?_⟩
    rw [List.length_cons,Nat.add_comm entries.length,← Nat.add_assoc]
    exact hend

theorem mintBatch_publishes {payer : Address} {p z : Nat} {entries : List BatchEntry}
    {ids : List Nat} (h : mintBatch T net env w payer p z entries=.ok (ids,w')) :
    ∃ mints, journal.Publishes w.policy.published w'.policy.published
      (mints++[.batchMinted payer p z entries.length]) := by
  simp only [mintBatch,bind_eq_ok,pure_eq_ok,failIf_eq_ok,Prod.exists,Prod.mk.injEq] at h
  obtain ⟨-,-,-,hcount,rp,-,ids',w1,hm,-,rfl⟩ := h
  obtain ⟨mints,hmints,hbought⟩ := entries_publish (n := 0) (fun k hk => absurd hk (by omega)) hm
  rw [Nat.zero_add] at hbought
  exact ⟨mints,hmints.trans (.one rfl ⟨by omega,by omega,hbought⟩ rfl)⟩

theorem cancel_publishes {id : Nat} {refunded : Int} (hs : w.Sound net)
    (h : cancel T net env w id=.ok (refunded,w')) :
    ∃ owner, journal.Publishes w.policy.published w'.policy.published
      [.policyCancelled id owner refunded] := by
  obtain ⟨r,s',l',hr,-,hst,-,hrefund,rfl⟩ := cancel_ok h
  obtain ⟨_,_,_,-,-,-,-,hnet,hpos,-⟩ := RiskPool.refundPremium_ok hrefund
  have hp := hs.proper id r hr
  have hle : refunded ≤ r.premiumPaid := by
    rw [hnet]
    exact hp.net
  have hmarked := State.rewritten_register { r with state := .cancelled }
    (.policyCancelled id r.owner refunded) (fun c => { c with state := .cancelled }) hr rfl
  exact ⟨r.owner,
    .one rfl ⟨r.certificate,State.register_certificate hr,rfl,hst,by omega,hle⟩ hmarked⟩

/-- Every successful call publishes events that fit and account for what it did. -/
theorem invoke_publishes {c : Call} (hs : w.Sound net) (h : invoke T net env w c=.ok w') :
    ∃ entries, journal.Publishes w.policy.published w'.policy.published entries := by
  cases c <;> simp only [invoke,except_map_eq_ok,Prod.exists] at h
  case mint buyer p z terms maxPremium metadata =>
    obtain ⟨id,_,hm,rfl⟩ := h
    obtain ⟨rp,hm⟩ := mint_ok hm
    obtain ⟨premium,hp⟩ := mintOne_publishes hm
    exact ⟨_,hp⟩
  case mintBatch payer p z entries =>
    obtain ⟨ids,_,hm,rfl⟩ := h
    obtain ⟨mints,hp⟩ := mintBatch_publishes hm
    exact ⟨_,hp⟩
  case markTriggered id =>
    obtain ⟨_,hm,rfl⟩ := h
    simp only [markTriggered,bind_eq_ok] at hm
    obtain ⟨_,-,ht⟩ := hm
    exact ⟨_,transition_publishes ht .trigger (by decide)⟩
  case markPaid id =>
    obtain ⟨_,hm,rfl⟩ := h
    simp only [markPaid,bind_eq_ok] at hm
    obtain ⟨_,-,ht⟩ := hm
    exact ⟨_,transition_publishes ht .pay (by decide)⟩
  case expire id =>
    obtain ⟨_,hm,rfl⟩ := h
    simp only [expire,bind_eq_ok] at hm
    obtain ⟨_,-,_,-,ht⟩ := hm
    exact ⟨_,transition_publishes ht .expire (by decide)⟩
  case cancel id =>
    obtain ⟨refunded,_,hc,rfl⟩ := h
    obtain ⟨owner,hp⟩ := cancel_publishes hs hc
    exact ⟨_,hp⟩
  case setMetadata id pointer =>
    obtain ⟨_,hm,rfl⟩ := h
    simp only [setMetadata,bind_eq_ok,pure_eq_ok] at hm
    obtain ⟨_,-,_,-,rfl⟩ := hm
    exact ⟨[],.silent rfl⟩
  case setTransferable p allowed =>
    obtain ⟨_,ht,rfl⟩ := h
    exact ⟨_,setTransferable_publishes ht⟩
  case transfer id dst =>
    obtain ⟨_,ht,rfl⟩ := h
    obtain ⟨src,hp⟩ := transfer_publishes ht
    exact ⟨_,hp⟩

theorem market_publishes {a : Env × Transaction} (hs : w.Sound net)
    (h : (market T net).step w a=.ok w') :
    ∃ entries, journal.Publishes w.policy.published w'.policy.published entries := by
  obtain ⟨env,a⟩ := a
  match a with
  | .call (.policy c) =>
    change execute T net env w (.policy c)=.ok w' at h
    simp only [execute,subcall_eq_ok] at h
    exact invoke_publishes hs h
  | .call (.riskPool c) =>
    change execute T net env w (.riskPool c)=.ok w' at h
    simp only [execute,except_map_eq_ok] at h
    obtain ⟨_,-,rfl⟩ := h
    exact ⟨[],.silent rfl⟩
  | .transfer token src dst n =>
    obtain ⟨-,_,rfl,-⟩ := transfer_ok h
    exact ⟨[],.silent rfl⟩

end Steps

/-- After every run, whoever starts from nothing and reads the published events knows of every
certificate its owner, season, coverage, premium and state, and which pools allow transfers; where
it stands, each event passes the guards that what was published before it decides, and a batch's
event follows the purchases it stands for. -/
theorem events_account_for_certificates {L : Type} (T : TokenHost L) (net : Network)
    (poolAdmin policyAdmin : Address) (l : L) (transactions : List (Env × Transaction)) :
    let s := ((market T net).run (deployWorld net poolAdmin policyAdmin l) transactions).policy
    journal.Records Register.blank s.events s.register := by
  intro s
  refine (market T net).run_records (fun _ => journal) (fun _ => True) (World.Sound net)
    (fun w => w.policy.published) Register.blank ?_ ?_ ?_ transactions
    (fun _ _ => trivial) _ (deployWorld_sound poolAdmin policyAdmin l) (.nil Register.blank)
  · intro w a w' hs h
    exact market_sound hs h
  · intro w a w' _ hs h r e
    exact ⟨rfl,id⟩
  · intro w a w' _ hs h
    exact market_publishes hs h

end Mvua.Policy
