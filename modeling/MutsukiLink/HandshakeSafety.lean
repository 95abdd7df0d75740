import MutsukiLink.HandshakeCases
import MutsukiLink.RunHistory

/-! Safety of the handshake against an arbitrary peer. The accepted calls of a machine form one
fixed sequence for its role, and everything it reports as established was checked on the way. -/
namespace MutsukiLink
open WireBytes
open Std (ExtTreeSet)

abbrev HandshakeEvent := RunHistory.Event HandshakeMachine HandshakeCall HandshakeReply

/-- The accepted calls with their outputs, in order. -/
abbrev Transcript := List (HandshakeCall × List HandshakeOutput)

namespace HandshakeMachine

/-- A hello that the responder with this configuration has accepted. -/
structure Greeting (config : HandshakeConfig) where
  identity : Identity
  linkVersions : VersionRange
  linkCapabilities : LinkCapabilities
  protocols : List ProtocolOffer
  requestedAuth : AuthPath
  linkVersion : ProtocolVersion
  selected : List ProtocolSelection
  ok : (responder config).HelloOk identity linkVersions protocols requestedAuth linkVersion selected

namespace Greeting
variable {config : HandshakeConfig} (g : Greeting config)

def frame : HandshakeFrame :=
  .hello g.identity g.linkVersions g.linkCapabilities g.protocols g.requestedAuth

def challenge : HandshakeFrame :=
  .challenge config.identity g.linkVersion
    (config.policy.linkCapabilities.intersection g.linkCapabilities) g.requestedAuth
    config.challengeNonce

def request (proof : IdentityProof) : VerificationRequest :=
  ⟨g.identity.peerId, g.requestedAuth, config.challengeNonce, proof⟩

def machine (state : HandshakeState) (pending : Option VerificationRequest) : HandshakeMachine :=
  { role := .responder, state, config, remote := some g.identity
    authPath := some g.requestedAuth, linkVersion := some g.linkVersion
    linkCapabilities := config.policy.linkCapabilities.intersection g.linkCapabilities
    selectedProtocols := g.selected, pendingVerification := pending }

def session : NegotiatedSession :=
  { sessionId := config.sessionId, localIdentity := config.identity, remote := g.identity
    linkVersion := g.linkVersion
    linkCapabilities := config.policy.linkCapabilities.intersection g.linkCapabilities
    protocols := g.selected, authPath := g.requestedAuth }

/-- The four calls that a responder accepts. -/
def calls (proof : IdentityProof) : Transcript :=
  [(.receive g.frame, [.send g.challenge]),
    (.receive (.identityProof proof), [.verifyIdentity (g.request proof)]),
    (.decideIdentity .accept, [.send (.selection config.sessionId g.selected)]),
    (.receive (.confirm config.sessionId),
      [.send (.confirmed config.sessionId), .established g.session])]

end Greeting

/-- The responder after each accepted call. -/
inductive ResponderAt (config : HandshakeConfig) : HandshakeMachine → Transcript → Prop
  | fresh : ResponderAt config (responder config) []
  | greeted (g : Greeting config) (proof : IdentityProof) :
      ResponderAt config (g.machine .awaitingProof none) ((g.calls proof).take 1)
  | proved (g : Greeting config) (proof : IdentityProof) :
      ResponderAt config (g.machine .awaitingVerification (some (g.request proof)))
        ((g.calls proof).take 2)
  | decided (g : Greeting config) (proof : IdentityProof) :
      ResponderAt config (g.machine .awaitingConfirmation none) ((g.calls proof).take 3)
  | done (g : Greeting config) (proof : IdentityProof) :
      ResponderAt config (g.machine .established none) (g.calls proof)

theorem ResponderAt.step {derive : String → String → ProtocolStableId} {config : HandshakeConfig}
    {m m' : HandshakeMachine} {t : Transcript} {call : HandshakeCall}
    {outputs : List HandshakeOutput} (h : ResponderAt config m t)
    (ha : Accepts derive m call outputs m') : ResponderAt config m' (t ++ [(call, outputs)]) := by
  cases h with
  | fresh =>
    cases ha
    -- The proof is not known yet; the first call of the list does not mention it.
    case hello role state ok => exact .greeted ⟨_, _, _, _, _, _, _, ok⟩ ⟨[]⟩
    all_goals simp_all [responder, new]
  | greeted g proof =>
    cases ha
    -- What the responder verifies is what the greeting settled.
    case proof proof' remote authPath role state size peer auth =>
      obtain rfl := Option.some.inj peer
      obtain rfl := Option.some.inj auth
      exact .proved g proof'
    all_goals simp_all [Greeting.machine]
  | proved g proof =>
    cases ha
    case accept => exact .decided g proof
    all_goals simp_all [Greeting.machine]
  | decided g proof =>
    cases ha
    case confirm session role state negotiated =>
      obtain rfl := Except.ok.inj negotiated
      exact .done g proof
    all_goals simp_all [Greeting.machine]
  -- No transition leaves an established responder.
  | done g proof => cases ha <;> simp_all [Greeting.machine]

/-- The catalogue check with which the initiator starts. -/
structure Opening (derive : String → String → ProtocolStableId) (config : HandshakeConfig) where
  authPath : AuthPath
  count : (config.policy.catalogue authPath).length ≤ config.policy.maxProtocolOffers
  consistent : ∀ offer ∈ config.policy.catalogue authPath, consistentOffer derive offer = true

/-- A challenge that the initiator has accepted. -/
structure Answer (config : HandshakeConfig) where
  responder : Identity
  linkVersion : ProtocolVersion
  linkCapabilities : LinkCapabilities
  nonce : Nonce
  version : config.policy.linkVersions.Contains linkVersion
  capabilities : linkCapabilities.isSubsetOf config.policy.linkCapabilities = true

/-- A selection that the initiator has accepted on an authentication path. -/
structure Choice (config : HandshakeConfig) (authPath : AuthPath) where
  sessionId : SessionId
  protocols : List ProtocolSelection
  sound : SoundSelection (config.policy.catalogue authPath) protocols

section Initiator
variable {derive : String → String → ProtocolStableId} {config : HandshakeConfig}

def Opening.frame (o : Opening derive config) : HandshakeFrame :=
  .hello config.identity config.policy.linkVersions config.policy.linkCapabilities
    (config.policy.catalogue o.authPath) o.authPath

def Opening.machine (o : Opening derive config) : HandshakeMachine :=
  { initiator config with authPath := some o.authPath, state := .awaitingChallenge }

def Opening.calls (o : Opening derive config) : Transcript :=
  [(.start o.authPath, [.send o.frame])]

def Answer.frame (a : Answer config) (authPath : AuthPath) : HandshakeFrame :=
  .challenge a.responder a.linkVersion a.linkCapabilities authPath a.nonce

def Answer.machine (a : Answer config) (o : Opening derive config) : HandshakeMachine :=
  { o.machine with
    remote := some a.responder, linkVersion := some a.linkVersion
    linkCapabilities := a.linkCapabilities, state := .awaitingSelection }

def Answer.calls (a : Answer config) (o : Opening derive config) : Transcript :=
  o.calls ++ [(.receive (a.frame o.authPath), [.send (.identityProof config.identityProof)])]

def Choice.machine {o : Opening derive config} (c : Choice config o.authPath) (a : Answer config)
    (state : HandshakeState) : HandshakeMachine :=
  { a.machine o with
    config := { config with sessionId := c.sessionId }, selectedProtocols := c.protocols, state }

def Choice.calls {o : Opening derive config} (c : Choice config o.authPath) (a : Answer config) :
    Transcript :=
  a.calls o ++ [(.receive (.selection c.sessionId c.protocols), [.send (.confirm c.sessionId)])]

def Choice.session {o : Opening derive config} (c : Choice config o.authPath)
    (a : Answer config) : NegotiatedSession :=
  { sessionId := c.sessionId, localIdentity := config.identity, remote := a.responder
    linkVersion := a.linkVersion, linkCapabilities := a.linkCapabilities
    protocols := c.protocols, authPath := o.authPath }

end Initiator

/-- The initiator after each accepted call. -/
inductive InitiatorAt (derive : String → String → ProtocolStableId) (config : HandshakeConfig) :
    HandshakeMachine → Transcript → Prop
  | fresh : InitiatorAt derive config (initiator config) []
  | started (o : Opening derive config) : InitiatorAt derive config o.machine o.calls
  | challenged (o : Opening derive config) (a : Answer config) :
      InitiatorAt derive config (a.machine o) (a.calls o)
  | chosen (o : Opening derive config) (a : Answer config) (c : Choice config o.authPath) :
      InitiatorAt derive config (c.machine a .awaitingConfirmed) (c.calls a)
  | done (o : Opening derive config) (a : Answer config) (c : Choice config o.authPath) :
      InitiatorAt derive config (c.machine a .established)
        (c.calls a ++ [(.receive (.confirmed c.sessionId), [.established (c.session a)])])

theorem InitiatorAt.step {derive : String → String → ProtocolStableId} {config : HandshakeConfig}
    {m m' : HandshakeMachine} {t : Transcript} {call : HandshakeCall}
    {outputs : List HandshakeOutput} (h : InitiatorAt derive config m t)
    (ha : Accepts derive m call outputs m') :
    InitiatorAt derive config m' (t ++ [(call, outputs)]) := by
  cases h with
  | fresh =>
    cases ha
    case start authPath role state count consistent => exact .started ⟨authPath, count, consistent⟩
    all_goals simp_all [initiator, new]
  | started o =>
    cases ha
    -- The path is the one the initiator was started with.
    case challenge authPath nonce role state version auth capabilities =>
      obtain rfl := Option.some.inj auth
      exact .challenged o ⟨_, _, _, nonce, version, capabilities⟩
    all_goals simp_all [Opening.machine, initiator, new]
  | challenged o a =>
    cases ha
    case selection authPath role state auth count bounded sound =>
      obtain rfl := Option.some.inj auth
      exact .chosen o a ⟨_, _, sound⟩
    all_goals simp_all [Answer.machine, Opening.machine, initiator, new]
  | chosen o a c =>
    cases ha
    case confirmed session role state negotiated =>
      obtain rfl := Except.ok.inj negotiated
      exact .done o a c
    all_goals simp_all [Choice.machine, Answer.machine, Opening.machine, initiator, new]
  | done o a c =>
    cases ha <;> simp_all [Choice.machine, Answer.machine, Opening.machine, initiator, new]

/-- A description of a machine by its accepted calls that every transition keeps. -/
structure Describes (derive : String → String → ProtocolStableId)
    (At : HandshakeMachine → Transcript → Prop) : Prop where
  wellFormed : ∀ {m t}, At m t → m.WellFormed
  step : ∀ {m m' t call outputs}, At m t → Accepts derive m call outputs m' →
    At m' (t ++ [(call, outputs)])

/-- The machine is where its accepted calls have brought it, or has failed after them. -/
def Follows (At : HandshakeMachine → Transcript → Prop) (m : HandshakeMachine)
    (t : Transcript) : Prop :=
  At m t ∨ m.state = .failed ∧ ∃ m', At m' t

theorem responderAt_describes (derive : String → String → ProtocolStableId)
    (config : HandshakeConfig) : Describes derive (ResponderAt config) where
  wellFormed h := by
    cases h with
    | fresh => exact fun hs => absurd hs (by simp [responder, new, settled])
    | _ g _ => exact fun _ => ⟨_, _, _, rfl, rfl, rfl⟩
  step h ha := h.step ha

theorem initiatorAt_describes (derive : String → String → ProtocolStableId)
    (config : HandshakeConfig) : Describes derive (InitiatorAt derive config) where
  wellFormed h := by
    cases h with
    | fresh => exact fun hs => absurd hs (by simp [initiator, new, settled])
    | started o => exact fun hs => absurd hs (by simp [Opening.machine, settled])
    | challenged o a => exact fun _ => ⟨_, _, _, rfl, rfl, rfl⟩
    | chosen o a c => exact fun _ => ⟨_, _, _, rfl, rfl, rfl⟩
    | done o a c => exact fun _ => ⟨_, _, _, rfl, rfl, rfl⟩
  step h ha := h.step ha

theorem Accepts.not_failed {derive : String → String → ProtocolStableId}
    {m m' : HandshakeMachine} {call : HandshakeCall} {outputs : List HandshakeOutput}
    (h : Accepts derive m call outputs m') : m.state ≠ .failed := by
  cases h <;> simp_all

/-- One call either extends the accepted calls or is refused with an error. -/
theorem Describes.follows_step {derive : String → String → ProtocolStableId}
    {At : HandshakeMachine → Transcript → Prop} (hd : Describes derive At) {m : HandshakeMachine}
    {t : Transcript} (h : Follows At m t) (call : HandshakeCall) :
    (∃ outputs m', m.step derive call = (.ok outputs, m') ∧ m.state ≠ .failed ∧
      At m' (t ++ [(call, outputs)])) ∨
    ∃ e m', m.step derive call = (.error (.error e), m') ∧ m'.state = .failed ∧
      Follows At m' t := by
  -- A failed machine is well formed for want of settled fields.
  have hwf : m.WellFormed := by
    rcases h with h | ⟨hf, -⟩
    · exact hd.wellFormed h
    · exact fun hs => absurd hs (by simp [hf, settled])
  obtain ⟨m0, hm0⟩ : ∃ m0, At m0 t := h.elim (fun h => ⟨m, h⟩) (fun h => h.2)
  rcases step_cases derive hwf call with ⟨outputs, m', heq, ha⟩ | ⟨e, m', heq, pending, rfl⟩
  · rcases h with h | ⟨hf, -⟩
    · exact .inl ⟨outputs, m', heq, ha.not_failed, hd.step h ha⟩
    · exact absurd hf ha.not_failed
  · exact .inr ⟨e, _, heq, rfl, .inr ⟨rfl, m0, hm0⟩⟩

def transcript (hist : List HandshakeEvent) : List (HandshakeCall × HandshakeReply) :=
  hist.map fun e => (e.input, e.reply)

def okay (t : Transcript) : List (HandshakeCall × HandshakeReply) :=
  t.map fun p => (p.1, .ok p.2)

def Errors (rest : List (HandshakeCall × HandshakeReply)) : Prop :=
  ∀ r ∈ rest, ∃ e, r.2 = .error (.error e)

/-- A whole run: accepted calls first, then only errors. -/
theorem Describes.run {derive : String → String → ProtocolStableId}
    {At : HandshakeMachine → Transcript → Prop} (hd : Describes derive At) {m : HandshakeMachine}
    (h : At m []) (calls : List HandshakeCall) :
    ∃ t m' rest, At m' t ∧ Errors rest ∧
      transcript (RunHistory.trace (HandshakeMachine.step derive) m calls) = okay t ++ rest := by
  have hrun := RunHistory.run_history (HandshakeMachine.step derive) (P := fun hist s =>
    ∃ t rest, Follows At s t ∧ (rest = [] ∨ s.state = .failed ∧ Errors rest) ∧
      transcript hist = okay t ++ rest) (s := m) ?_ ?_ calls
  · obtain ⟨t, rest, hf, hrest, heq⟩ := hrun
    obtain ⟨m', hm'⟩ : ∃ m', At m' t := hf.elim (fun h => ⟨_, h⟩) (fun h => h.2)
    refine ⟨t, m', rest, hm', ?_, heq⟩
    rcases hrest with rfl | ⟨-, hrest⟩
    · exact fun r hr => absurd hr List.not_mem_nil
    · exact hrest
  · exact ⟨[], [], .inl h, .inl rfl, rfl⟩
  · rintro hist s call ⟨t, rest, hf, hrest, heq⟩
    obtain ⟨outputs, m', hstep, hok, hnext⟩ | ⟨e, m', hstep, hfail, hnext⟩ :=
      hd.follows_step hf call
    -- An accepted call cannot come after an error, since the machine would have failed.
    · obtain rfl : rest = [] := hrest.resolve_right fun hr => hok hr.1
      refine ⟨t ++ [(call, outputs)], [], ?_, .inl rfl, ?_⟩
      · rw [hstep]
        exact .inl hnext
      · have := heq
        simp only [transcript, okay, RunHistory.event, List.map_append, List.map_cons, List.map_nil,
          List.append_nil, hstep] at this ⊢
        rw [this]
    · refine ⟨t, rest ++ [(call, .error (.error e))], ?_, .inr ⟨?_, ?_⟩, ?_⟩
      · rw [hstep]
        exact hnext
      · rw [hstep]
        exact hfail
      · intro r hr
        rcases List.mem_append.mp hr with hr | hr
        · rcases hrest with rfl | ⟨-, hrest⟩
          · cases hr
          · exact hrest r hr
        · obtain rfl := List.mem_singleton.mp hr
          exact ⟨e, rfl⟩
      · have := heq
        simp only [transcript, RunHistory.event, List.map_append, List.map_cons, List.map_nil,
          hstep] at this ⊢
        rw [this, List.append_assoc]

/-- The run reports this session as established. -/
def Reports (hist : List HandshakeEvent) (session : NegotiatedSession) : Prop :=
  ∃ e ∈ hist, ∃ outputs, e.reply = .ok outputs ∧ .established session ∈ outputs

theorem Reports.mem_accepted {hist : List HandshakeEvent} {session : NegotiatedSession}
    {t : Transcript} {rest : List (HandshakeCall × HandshakeReply)} (h : Reports hist session)
    (heq : transcript hist = okay t ++ rest) (hrest : Errors rest) :
    ∃ p ∈ t, .established session ∈ p.2 := by
  obtain ⟨e, he, outputs, hreply, hmem⟩ := h
  have hin : (e.input, e.reply) ∈ transcript hist := List.mem_map_of_mem he
  rw [heq] at hin
  rcases List.mem_append.mp hin with hin | hin
  · obtain ⟨p, hp, heq⟩ := List.mem_map.mp hin
    rw [hreply] at heq
    -- Only accepted calls have outputs, so the report is in the transcript.
    obtain rfl : p.2 = outputs := by simpa using congrArg Prod.snd heq
    exact ⟨p, hp, hmem⟩
  · obtain ⟨err, herr⟩ := hrest _ hin
    simp [hreply] at herr

/-- What a machine with this configuration may rely on in a session it reports. -/
structure SoundSession (config : HandshakeConfig) (session : NegotiatedSession) : Prop where
  selection : SoundSelection (config.policy.catalogue session.authPath) session.protocols
  capabilities : session.linkCapabilities.isSubsetOf config.policy.linkCapabilities = true
  version : config.policy.linkVersions.Contains session.linkVersion

theorem Greeting.soundSession {config : HandshakeConfig} (g : Greeting config) :
    SoundSession config g.session where
  selection := by
    obtain ⟨hnodup, hsup⟩ := negotiateProtocols_ok g.ok.selected_eq
    refine ⟨g.ok.nonempty, hnodup, fun s hs => ?_⟩
    obtain ⟨offer, ho, remoteOffer, -, hsel⟩ := hsup s hs
    exact ⟨offer, ho, hsel.local_id, hsel.local_schema,
      (VersionRange.negotiate_contains hsel.version).1,
      ProtocolCapabilitySet.intersect_subset_left hsel.capabilities⟩
  capabilities := LinkCapabilities.intersection_subset_left _ _
  version := (VersionRange.negotiate_contains g.ok.version).1

theorem Choice.soundSession {derive : String → String → ProtocolStableId}
    {config : HandshakeConfig} {o : Opening derive config} (c : Choice config o.authPath)
    (a : Answer config) : SoundSession config (c.session a) :=
  ⟨c.sound, a.capabilities, a.version⟩

theorem ResponderAt.established {config : HandshakeConfig} {m : HandshakeMachine} {t : Transcript}
    {session : NegotiatedSession} (h : ResponderAt config m t)
    (hs : ∃ p ∈ t, .established session ∈ p.2) :
    ∃ (g : Greeting config) (proof : IdentityProof), t = g.calls proof ∧ session = g.session := by
  cases h with
  | fresh => simp at hs
  | greeted g proof => simp [Greeting.calls] at hs
  | proved g proof => simp [Greeting.calls] at hs
  | decided g proof => simp [Greeting.calls] at hs
  | done g proof => exact ⟨g, proof, rfl, by simpa [Greeting.calls] using hs⟩

theorem InitiatorAt.established {derive : String → String → ProtocolStableId}
    {config : HandshakeConfig} {m : HandshakeMachine} {t : Transcript}
    {session : NegotiatedSession} (h : InitiatorAt derive config m t)
    (hs : ∃ p ∈ t, .established session ∈ p.2) :
    ∃ (o : Opening derive config) (a : Answer config) (c : Choice config o.authPath),
      t = c.calls a ++ [(.receive (.confirmed c.sessionId), [.established (c.session a)])] ∧
        session = c.session a := by
  cases h with
  | fresh => simp at hs
  | started o => simp [Opening.calls] at hs
  | challenged o a => simp [Answer.calls, Opening.calls] at hs
  | chosen o a c => simp [Choice.calls, Answer.calls, Opening.calls] at hs
  | done o a c =>
    exact ⟨o, a, c, rfl, by simpa [Choice.calls, Answer.calls, Opening.calls] using hs⟩

theorem Describes.no_panic {derive : String → String → ProtocolStableId}
    {At : HandshakeMachine → Transcript → Prop} (hd : Describes derive At) {m : HandshakeMachine}
    (h : At m []) (calls : List HandshakeCall) :
    ∀ e ∈ RunHistory.trace (HandshakeMachine.step derive) m calls, ∀ message,
      e.reply ≠ .error (.panic message) := by
  obtain ⟨t, m', rest, -, hrest, heq⟩ := hd.run h calls
  intro e he message hp
  have hin : (e.input, e.reply) ∈ okay t ++ rest := heq ▸ List.mem_map_of_mem he
  rw [hp] at hin
  rcases List.mem_append.mp hin with hin | hin
  · obtain ⟨p, -, hpeq⟩ := List.mem_map.mp hin
    simp at hpeq
  · obtain ⟨err, herr⟩ := hrest _ hin
    simp at herr

/-- Against any peer and any order of calls: a responder reports a session only after a hello, a
proof, an accepting decision and its own session confirmed, in that order and without an error,
on a path its policy allows; both roles report only what their own catalogue and policy support,
the initiator on the path it was started with; and no call panics. -/
theorem established_session_is_safe (derive : String → String → ProtocolStableId)
    (config : HandshakeConfig) (calls : List HandshakeCall) :
    (∀ session, Reports (RunHistory.trace (HandshakeMachine.step derive) (responder config) calls)
        session →
      SoundSession config session ∧
      ∃ identity linkVersions linkCapabilities protocols proof challenge selection confirmation
          rest,
        transcript (RunHistory.trace (HandshakeMachine.step derive) (responder config) calls) =
          [(.receive (.hello identity linkVersions linkCapabilities protocols session.authPath),
              .ok challenge),
            (.receive (.identityProof proof), .ok [.verifyIdentity
              ⟨identity.peerId, session.authPath, config.challengeNonce, proof⟩]),
            (.decideIdentity .accept, .ok selection),
            (.receive (.confirm config.sessionId), .ok confirmation)] ++ rest ∧
        .established session ∈ confirmation ∧ Errors rest ∧ session.remote = identity ∧
        (session.authPath = .trustedReconnect → identity.peerId ∈ config.policy.trustedPeers) ∧
        (session.authPath = .firstPairing → config.policy.allowPairing = true)) ∧
    (∀ session, Reports (RunHistory.trace (HandshakeMachine.step derive) (initiator config) calls)
        session →
      SoundSession config session ∧
      ∃ hello rest,
        transcript (RunHistory.trace (HandshakeMachine.step derive) (initiator config) calls) =
          (.start session.authPath, .ok hello) :: rest) ∧
    ∀ m, m = responder config ∨ m = initiator config →
      ∀ e ∈ RunHistory.trace (HandshakeMachine.step derive) m calls, ∀ message,
        e.reply ≠ .error (.panic message) := by
  have hr := responderAt_describes derive config
  have hi := initiatorAt_describes derive config
  refine ⟨fun session hs => ?_, fun session hs => ?_, ?_⟩
  · -- A responder can report only at the end of its four accepted calls.
    obtain ⟨t, m', rest, hat, hrest, heq⟩ := hr.run .fresh calls
    obtain ⟨g, proof, rfl, rfl⟩ := hat.established (hs.mem_accepted heq hrest)
    exact ⟨g.soundSession, _, _, _, _, proof, _, _, _, rest, heq, by simp, hrest, rfl,
      g.ok.trusted, g.ok.pairing⟩
  · obtain ⟨t, m', rest, hat, hrest, heq⟩ := hi.run .fresh calls
    -- An initiator can report only after a sound selection has come.
    obtain ⟨o, a, c, rfl, rfl⟩ := hat.established (hs.mem_accepted heq hrest)
    exact ⟨c.soundSession a, _, _, heq⟩
  · rintro m (rfl | rfl)
    · exact hr.no_panic .fresh calls
    · exact hi.no_panic .fresh calls

end HandshakeMachine

namespace Sample

def derive (_ _ : String) : ProtocolStableId := ⟨FixedBytes.replicate 16 7⟩

def identity (n : UInt8) : Identity :=
  ⟨⟨FixedBytes.replicate 32 n⟩, ⟨FixedBytes.replicate 16 n⟩, ⟨FixedBytes.replicate 16 n⟩⟩

def offer : ProtocolOffer :=
  { stableId := ⟨FixedBytes.replicate 16 7⟩, debugIdentity := none
    versions := ⟨⟨1, 0⟩, ⟨1, 2⟩⟩
    schema := ⟨⟨FixedBytes.replicate 16 3⟩, 1, ⟨FixedBytes.replicate 32 4⟩⟩
    capabilities := ⟨⟨FixedBytes.replicate 16 7⟩, [5]⟩ }

def handshakeConfig (n : UInt8) : HandshakeConfig :=
  { identity := identity n
    policy := {
      linkVersions := ⟨⟨1, 0⟩, ⟨1, 0⟩⟩, linkCapabilities := ⟨33⟩, protocols := []
      pairingProtocols := [offer], allowPairing := true, trustedPeers := ∅
      maxProtocolOffers := 4, maxIdentityProofBytes := 8 }
    challengeNonce := FixedBytes.replicate 32 n, identityProof := ⟨[n]⟩
    sessionId := ⟨FixedBytes.replicate 16 n⟩ }

/-- The calls that an honest initiator with configuration 1 causes at a responder. -/
def responderCalls : List HandshakeCall :=
  [.receive (.hello (identity 1) ⟨⟨1, 0⟩, ⟨1, 0⟩⟩ ⟨33⟩ [offer] .firstPairing),
    .receive (.identityProof ⟨[1]⟩), .decideIdentity .accept,
    .receive (.confirm ⟨FixedBytes.replicate 16 2⟩)]

end Sample

namespace HandshakeMachine

theorem sample_responder_session_is_safe :
    ∃ session, Reports (RunHistory.trace (HandshakeMachine.step Sample.derive)
        (responder (Sample.handshakeConfig 2)) Sample.responderCalls) session ∧
      SoundSession (Sample.handshakeConfig 2) session := by
  have hreports : Reports (RunHistory.trace (HandshakeMachine.step Sample.derive)
      (responder (Sample.handshakeConfig 2)) Sample.responderCalls)
      { sessionId := ⟨FixedBytes.replicate 16 2⟩, localIdentity := Sample.identity 2
        remote := Sample.identity 1, linkVersion := ⟨1, 0⟩, linkCapabilities := ⟨33⟩
        protocols := [⟨Sample.offer.stableId, ⟨1, 2⟩, Sample.offer.schema,
          Sample.offer.capabilities⟩]
        authPath := .firstPairing } :=
    ⟨_, List.mem_of_getElem? (i := 3) rfl, _, rfl, by decide⟩
  exact ⟨_, hreports, ((established_session_is_safe Sample.derive (Sample.handshakeConfig 2)
    Sample.responderCalls).1 _ hreports).1⟩

end HandshakeMachine

end MutsukiLink
