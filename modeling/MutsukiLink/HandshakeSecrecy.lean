import MutsukiLink.HandshakeSafety

/-! First pairing shows nothing of the full protocol catalogue: two machines whose
configurations differ only there cannot be told apart. -/
namespace MutsukiLink
open WireBytes
open Std (ExtTreeSet)

def HandshakeConfig.withProtocols (config : HandshakeConfig) (protocols : List ProtocolOffer) :
    HandshakeConfig :=
  { config with policy := { config.policy with protocols } }

namespace HandshakeMachine

def withProtocols (m : HandshakeMachine) (protocols : List ProtocolOffer) : HandshakeMachine :=
  { m with config := m.config.withProtocols protocols }

/-- The same result, left on a machine with another catalogue. -/
def relabel {α : Type} (protocols : List ProtocolOffer) (r : HandshakeResult α) :
    HandshakeResult α :=
  (r.1, r.2.withProtocols protocols)

theorem ite_relabel {α : Type} {protocols : List ProtocolOffer} {c c' : Prop} [Decidable c]
    [Decidable c'] {r r' s s' : HandshakeResult α} (hc : c' ↔ c)
    (hpos : c → s = relabel protocols r) (hneg : ¬c → s' = relabel protocols r') :
    (if c' then s else s') = relabel protocols (if c then r else r') := by
  by_cases h : c
  · rw [if_pos h, if_pos (hc.mpr h), hpos h]
  · rw [if_neg h, if_neg (mt hc.mp h), hneg h]

/-- A call that cannot read the full catalogue in this machine. -/
structure Blind (m : HandshakeMachine) (call : HandshakeCall) : Prop where
  start : m.role = .initiator → m.state = .ready → call ≠ .start .trustedReconnect
  hello : ∀ identity linkVersions linkCapabilities offers, m.role = .responder →
    call = .receive (.hello identity linkVersions linkCapabilities offers .trustedReconnect) →
    identity.peerId ∉ m.config.policy.trustedPeers
  selection : m.role = .initiator → m.authPath ≠ some .trustedReconnect

theorem start_withProtocols (derive : String → String → ProtocolStableId) {m : HandshakeMachine}
    {authPath : AuthPath} (h : m.Blind (.start authPath)) (protocols : List ProtocolOffer) :
    (m.withProtocols protocols).start derive authPath =
      relabel protocols (m.start derive authPath) := by
  unfold start
  refine ite_relabel Iff.rfl (fun _ => rfl) fun hguard => ?_
  obtain ⟨hrole, hstate⟩ := not_or.mp hguard
  -- only the pairing catalogue is read, and it is the same on both sides
  obtain rfl : authPath = .firstPairing := by
    cases authPath with
    | firstPairing => rfl
    | trustedReconnect => exact absurd rfl (h.start (not_ne_iff.mp hrole) (not_ne_iff.mp hstate))
  refine ite_relabel Iff.rfl (fun _ => rfl) fun _ => ?_
  exact ite_relabel Iff.rfl (fun _ => rfl) fun _ => rfl

theorem receiveHello_withProtocols {m : HandshakeMachine} {identity : Identity}
    {linkVersions : VersionRange} {remoteCapabilities : LinkCapabilities}
    {offers : List ProtocolOffer} {requestedAuth : AuthPath}
    (h : requestedAuth = .trustedReconnect → identity.peerId ∉ m.config.policy.trustedPeers)
    (protocols : List ProtocolOffer) :
    (m.withProtocols protocols).receiveHello identity linkVersions remoteCapabilities offers
        requestedAuth =
      relabel protocols
        (m.receiveHello identity linkVersions remoteCapabilities offers requestedAuth) := by
  unfold receiveHello
  refine ite_relabel Iff.rfl (fun _ => rfl) fun _ => ?_
  have hversions : (m.withProtocols protocols).config.policy.linkVersions =
    m.config.policy.linkVersions := rfl
  rw [hversions]
  cases m.config.policy.linkVersions.negotiate linkVersions with
  | none => rfl
  | some linkVersion =>
    refine ite_relabel Iff.rfl (fun _ => rfl) fun _ => ?_
    refine ite_relabel Iff.rfl (fun _ => rfl) fun htrust => ?_
    -- an untrusted peer has been turned away, so this is the pairing catalogue
    have hcatalogue : (m.withProtocols protocols).config.policy.catalogue requestedAuth =
        m.config.policy.catalogue requestedAuth := by
      cases requestedAuth with
      | firstPairing => rfl
      | trustedReconnect =>
        refine absurd ⟨rfl, ?_⟩ htrust
        simpa [← ExtTreeSet.contains_iff_mem] using h rfl
    rw [hcatalogue]
    rcases negotiateProtocols (m.config.policy.catalogue requestedAuth) offers with
      _ | (_ | ⟨s, rest⟩)
    · rfl
    · rfl
    · rfl

theorem validateSelection_withProtocols {m : HandshakeMachine}
    (h : m.authPath ≠ some .trustedReconnect) (selected : List ProtocolSelection)
    (protocols : List ProtocolOffer) :
    (m.withProtocols protocols).validateSelection selected =
      relabel protocols (m.validateSelection selected) := by
  unfold validateSelection
  refine ite_relabel Iff.rfl (fun _ => rfl) fun _ => ?_
  have hauth : (m.withProtocols protocols).authPath = m.authPath := rfl
  rw [hauth]
  -- Without a path the call fails before a catalogue is read.
  rcases ha : m.authPath with _ | (_ | _)
  · rfl
  · have hcatalogue : (m.withProtocols protocols).config.policy.catalogue .firstPairing =
      m.config.policy.catalogue .firstPairing := rfl
    simp only [hcatalogue]
    rcases checkSelections (m.config.policy.catalogue .firstPairing) ∅ selected with
      ⟨kind, message⟩ | _
    · rfl
    · rfl
  · exact absurd ha h

/-- The last step of both roles reports the session, which has no trace of the catalogue. -/
theorem finish_withProtocols (m : HandshakeMachine) (protocols : List ProtocolOffer)
    (outputs : NegotiatedSession → List HandshakeOutput) :
    (match (m.withProtocols protocols).negotiatedSession with
      | .error fault => (.error fault, m.withProtocols protocols)
      | .ok session => (.ok (outputs session), m.withProtocols protocols)) =
    relabel protocols (match m.negotiatedSession with
      | .error fault => (.error fault, m)
      | .ok session => (.ok (outputs session), m)) := by
  have hsame : (m.withProtocols protocols).negotiatedSession = m.negotiatedSession := rfl
  rw [hsame]
  cases m.negotiatedSession <;> rfl

theorem receive_withProtocols {m : HandshakeMachine} {frame : HandshakeFrame}
    (h : m.Blind (.receive frame)) (protocols : List ProtocolOffer) :
    (m.withProtocols protocols).receive frame = relabel protocols (m.receive frame) := by
  unfold receive
  have hrole : (m.withProtocols protocols).role = m.role := rfl
  have hstate : (m.withProtocols protocols).state = m.state := rfl
  rw [hrole, hstate]
  split
  · next identity linkVersions linkCapabilities offers requestedAuth hr hs =>
    refine receiveHello_withProtocols (fun ha => ?_) protocols
    exact h.hello identity linkVersions linkCapabilities offers hr (by rw [ha])
  · exact ite_relabel Iff.rfl (fun _ => rfl) fun _ => rfl
  · refine ite_relabel Iff.rfl (fun _ => rfl) fun _ => ?_
    have hremote : (m.withProtocols protocols).remote = m.remote := rfl
    have hauth : (m.withProtocols protocols).authPath = m.authPath := rfl
    rw [hremote, hauth]
    rcases m.remote with _ | remote
    · rfl
    · rcases m.authPath with _ | authPath <;> rfl
  · next sessionId selected hr hs =>
    rw [validateSelection_withProtocols (h.selection hr)]
    rcases m.validateSelection selected with ⟨_ | _, m'⟩ <;> rfl
  · refine ite_relabel Iff.rfl (fun _ => rfl) fun _ => ?_
    exact finish_withProtocols { m with state := .established } protocols
      fun session => [.send (.confirmed _), .established session]
  · refine ite_relabel Iff.rfl (fun _ => rfl) fun _ => ?_
    exact finish_withProtocols { m with state := .established } protocols
      fun session => [.established session]
  · rfl
  · rfl

theorem decideIdentity_withProtocols (m : HandshakeMachine) (decision : ProofDecision)
    (protocols : List ProtocolOffer) :
    (m.withProtocols protocols).decideIdentity decision =
      relabel protocols (m.decideIdentity decision) := by
  unfold decideIdentity
  refine ite_relabel Iff.rfl (fun _ => rfl) fun _ => ?_
  refine ite_relabel Iff.rfl (fun _ => rfl) fun _ => ?_
  exact ite_relabel Iff.rfl (fun _ => rfl) fun _ => rfl

theorem step_withProtocols (derive : String → String → ProtocolStableId) {m : HandshakeMachine}
    {call : HandshakeCall} (h : m.Blind call) (protocols : List ProtocolOffer) :
    (m.withProtocols protocols).step derive call =
      ((m.step derive call).1, (m.step derive call).2.withProtocols protocols) := by
  cases call with
  | start authPath =>
    simp only [step, start_withProtocols derive h]
    rfl
  | receive frame => exact receive_withProtocols h protocols
  | decideIdentity decision => exact decideIdentity_withProtocols m decision protocols

theorem Accepts.wellFormed {derive : String → String → ProtocolStableId} {m m' : HandshakeMachine}
    {call : HandshakeCall} {outputs : List HandshakeOutput} (h : m.WellFormed)
    (ha : Accepts derive m call outputs m') : m'.WellFormed := by
  cases ha with
  | start => exact fun hs => absurd hs (by simp [settled])
  | hello => exact fun _ => ⟨_, _, _, rfl, rfl, rfl⟩
  | challenge _ _ _ auth => exact fun _ => ⟨_, _, _, rfl, rfl, auth⟩
  | proof _ state => exact fun _ => h (by rw [state]; rfl)
  | accept _ state => exact fun _ => h (by rw [state]; rfl)
  | selection _ state => exact fun _ => h (by rw [state]; rfl)
  | confirm _ state => exact fun _ => h (by rw [state]; rfl)
  | confirmed _ state => exact fun _ => h (by rw [state]; rfl)

/-- What a call may change of the fields that decide which catalogue is read. -/
theorem step_frame (derive : String → String → ProtocolStableId) {m : HandshakeMachine}
    (h : m.WellFormed) (call : HandshakeCall) :
    (m.step derive call).2.WellFormed ∧ (m.step derive call).2.role = m.role ∧
      (m.step derive call).2.config.policy = m.config.policy ∧
      (m.step derive call).2.state ≠ .ready ∧
      (m.role = .initiator → (m.step derive call).2.authPath = m.authPath ∨
        m.state = .ready ∧ ∃ authPath, call = .start authPath ∧
          (m.step derive call).2.authPath = some authPath) := by
  rcases step_cases derive h call with ⟨outputs, m', heq, ha⟩ | ⟨e, m', heq, pending, rfl⟩ <;>
    rw [heq]
  · refine ⟨ha.wellFormed h, ?_⟩
    cases ha <;> simp_all
  · exact ⟨fun hs => absurd hs (by simp [settled]), rfl, rfl, by simp, fun _ => .inl rfl⟩

/-- An initiator that has begun to pair, beside one with another catalogue. -/
structure PairingTwins (protocols : List ProtocolOffer) (m m' : HandshakeMachine) : Prop where
  twin : m' = m.withProtocols protocols
  wellFormed : m.WellFormed
  role : m.role = .initiator
  begun : m.state ≠ .ready
  path : m.authPath ≠ some .trustedReconnect

/-- A responder beside one with another catalogue. -/
structure ResponderTwins (policy : HandshakePolicy) (protocols : List ProtocolOffer)
    (m m' : HandshakeMachine) : Prop where
  twin : m' = m.withProtocols protocols
  wellFormed : m.WellFormed
  role : m.role = .responder
  policy_eq : m.config.policy = policy

theorem PairingTwins.step (derive : String → String → ProtocolStableId)
    {protocols : List ProtocolOffer} {m m' : HandshakeMachine} (h : PairingTwins protocols m m')
    (call : HandshakeCall) :
    (m.step derive call).1 = (m'.step derive call).1 ∧
      PairingTwins protocols (m.step derive call).2 (m'.step derive call).2 := by
  have hblind : m.Blind call :=
    -- It has been started, is no responder, and does not reconnect.
    ⟨fun _ hs => absurd hs h.begun, fun _ _ _ _ hr => by simp [h.role] at hr, fun _ => h.path⟩
  obtain ⟨hwf, hrole, -, hready, hpath⟩ := step_frame derive h.wellFormed call
  rw [h.twin, step_withProtocols derive hblind]
  refine ⟨rfl, rfl, hwf, hrole.trans h.role, hready, ?_⟩
  rcases hpath h.role with hsame | ⟨hs, -⟩
  · rw [hsame]
    exact h.path
  · exact absurd hs h.begun

/-- A hello asks for pairing or comes from a peer that is not trusted. -/
def PublicCall (policy : HandshakePolicy) : HandshakeCall → Prop
  | .receive (.hello identity _ _ _ requestedAuth) =>
    requestedAuth = .firstPairing ∨ identity.peerId ∉ policy.trustedPeers
  | _ => True

theorem ResponderTwins.step (derive : String → String → ProtocolStableId)
    {policy : HandshakePolicy} {protocols : List ProtocolOffer} {m m' : HandshakeMachine}
    (h : ResponderTwins policy protocols m m') {call : HandshakeCall}
    (hcall : PublicCall policy call) :
    (m.step derive call).1 = (m'.step derive call).1 ∧
      ResponderTwins policy protocols (m.step derive call).2 (m'.step derive call).2 := by
  have hblind : m.Blind call := by
    refine ⟨fun hr => by simp [h.role] at hr, ?_, fun hr => by simp [h.role] at hr⟩
    -- A public hello that asks to reconnect comes from a stranger.
    rintro identity linkVersions linkCapabilities offers - rfl
    rw [h.policy_eq]
    exact hcall.resolve_left (by simp)
  obtain ⟨hwf, hrole, hpolicy, -, -⟩ := step_frame derive h.wellFormed call
  rw [h.twin, step_withProtocols derive hblind]
  exact ⟨rfl, rfl, hwf, hrole.trans h.role, hpolicy.trans h.policy_eq⟩

/-- Two calls that answer alike and leave the same state, apart from the catalogue. -/
def Alike (protocols : List ProtocolOffer) (e f : HandshakeEvent) : Prop :=
  e.reply = f.reply ∧ e.post.state = f.post.state ∧ f.post = e.post.withProtocols protocols

/-- First pairing shows nothing of the full catalogue: initiators that start to pair, and
responders that are asked to pair or by strangers, behave alike whatever it holds. -/
theorem pairing_hides_the_catalogue (derive : String → String → ProtocolStableId)
    {first second : HandshakeConfig}
    (h : second = first.withProtocols second.policy.protocols) (calls : List HandshakeCall) :
    List.Forall₂ (Alike second.policy.protocols)
      (RunHistory.trace (HandshakeMachine.step derive) (initiator first)
        (.start .firstPairing :: calls))
      (RunHistory.trace (HandshakeMachine.step derive) (initiator second)
        (.start .firstPairing :: calls)) ∧
    ((∀ call ∈ calls, PublicCall first.policy call) →
      List.Forall₂ (Alike second.policy.protocols)
        (RunHistory.trace (HandshakeMachine.step derive) (responder first) calls)
        (RunHistory.trace (HandshakeMachine.step derive) (responder second) calls)) := by
  have hsecond (role : HandshakeRole) (state : HandshakeState) :
      new role state second = (new role state first).withProtocols second.policy.protocols :=
    congrArg (new role state) h
  have hfresh (role : HandshakeRole) (state : HandshakeState) (hs : settled state = false) :
      (new role state first).WellFormed := fun hset => by simp [new, hs] at hset
  constructor
  · have hblind : (initiator first).Blind (.start .firstPairing) :=
      ⟨by simp, by simp, by simp [initiator, new]⟩
    obtain ⟨hwf, hrole, -, hready, hpath⟩ :=
      step_frame derive (hfresh .initiator .ready rfl) (.start .firstPairing)
    -- The first call brings the two initiators into the relation that later calls keep.
    have htwins : PairingTwins second.policy.protocols
        ((initiator first).step derive (.start .firstPairing)).2
        ((initiator second).step derive (.start .firstPairing)).2 := by
      refine ⟨?_, hwf, hrole, hready, ?_⟩
      · rw [initiator, hsecond, ← initiator, step_withProtocols derive hblind]
      · rcases hpath rfl with hsame | ⟨-, authPath, hcall, hauth⟩
        · rw [initiator, hsame]
          simp [new]
        · obtain rfl : authPath = .firstPairing := by simpa using hcall.symm
          rw [initiator, hauth]
          simp
    refine .cons ⟨?_, ?_, htwins.twin⟩ ?_
    · simp only [RunHistory.event]
      rw [initiator, initiator, hsecond, ← initiator, step_withProtocols derive hblind]
    · simp only [RunHistory.event]
      rw [htwins.twin]
      rfl
    · refine (RunHistory.lockstep (Q := fun _ => True) (fun _ _ call _ hp => hp.step derive call)
        htwins calls fun _ _ => trivial).imp ?_
      rintro e f ⟨hr, hp⟩
      exact ⟨hr, by rw [hp.twin]; rfl, hp.twin⟩
  · intro hcalls
    have htwins : ResponderTwins first.policy second.policy.protocols (responder first)
        (responder second) :=
      ⟨hsecond _ _, hfresh _ _ rfl, rfl, rfl⟩
    refine (RunHistory.lockstep (fun _ _ _ hcall hp => hp.step derive hcall) htwins calls
      hcalls).imp ?_
    rintro e f ⟨hr, hp⟩
    exact ⟨hr, by rw [hp.twin]; rfl, hp.twin⟩

theorem sample_pairing_hides_the_catalogue :
    List.Forall₂ (Alike [Sample.offer])
      (RunHistory.trace (HandshakeMachine.step Sample.derive)
        (responder (Sample.handshakeConfig 2)) Sample.responderCalls)
      (RunHistory.trace (HandshakeMachine.step Sample.derive)
        (responder ((Sample.handshakeConfig 2).withProtocols [Sample.offer]))
        Sample.responderCalls) :=
  (@pairing_hides_the_catalogue Sample.derive (Sample.handshakeConfig 2)
    ((Sample.handshakeConfig 2).withProtocols [Sample.offer]) rfl Sample.responderCalls).2
    (by simp [Sample.responderCalls, PublicCall])

end HandshakeMachine

end MutsukiLink
