import MutsukiLink.HandshakeSafety

/-! One initiator and one responder over a network that loses, repeats and reorders frames:
whatever both report they report alike, and an honest exchange runs to its end. -/
namespace MutsukiLink
open WireBytes
open Std (ExtTreeSet)
open HandshakeMachine

inductive Party where
  | initiator | responder
deriving DecidableEq, Repr

/-- The two machines with every frame they have sent and every session they have reported. A
sent frame stays available, so it may be delivered late, again or not at all. -/
structure Network where
  initiator : HandshakeMachine
  responder : HandshakeMachine
  fromInitiator : List HandshakeFrame
  fromResponder : List HandshakeFrame
  initiatorSessions : List NegotiatedSession
  responderSessions : List NegotiatedSession

inductive NetworkAction where
  | start (party : Party) (authPath : AuthPath)
  | decideIdentity (party : Party) (decision : ProofDecision)
  | deliver (party : Party) (index : ℕ)
deriving DecidableEq, Repr

def sentFrames (outputs : List HandshakeOutput) : List HandshakeFrame :=
  outputs.filterMap fun output => match output with
    | .send frame => some frame
    | _ => none

def reportedSessions (outputs : List HandshakeOutput) : List NegotiatedSession :=
  outputs.filterMap fun output => match output with
    | .established session => some session
    | _ => none

def replyOutputs : HandshakeReply → List HandshakeOutput
  | .ok outputs => outputs
  | .error _ => []

namespace Network

def fresh (initiatorConfig responderConfig : HandshakeConfig) : Network :=
  { initiator := HandshakeMachine.initiator initiatorConfig
    responder := HandshakeMachine.responder responderConfig
    fromInitiator := [], fromResponder := [], initiatorSessions := [], responderSessions := [] }

section Steps
variable (derive : String → String → ProtocolStableId)

def call (n : Network) : Party → HandshakeCall → HandshakeReply × Network
  | .initiator, call =>
    let (reply, initiator) := n.initiator.step derive call
    (reply, { n with
      initiator
      fromInitiator := n.fromInitiator ++ sentFrames (replyOutputs reply)
      initiatorSessions := n.initiatorSessions ++ reportedSessions (replyOutputs reply) })
  | .responder, call =>
    let (reply, responder) := n.responder.step derive call
    (reply, { n with
      responder
      fromResponder := n.fromResponder ++ sentFrames (replyOutputs reply)
      responderSessions := n.responderSessions ++ reportedSessions (replyOutputs reply) })

/-- The frames that may be delivered to a party: those that the other one has sent. -/
def inbox (n : Network) : Party → List HandshakeFrame
  | .initiator => n.fromResponder
  | .responder => n.fromInitiator

/-- One action; delivering a frame that does not exist is no call at all. -/
def step (n : Network) : NetworkAction → Option HandshakeReply × Network
  | .start party authPath => (n.call derive party (.start authPath)).map some id
  | .decideIdentity party decision => (n.call derive party (.decideIdentity decision)).map some id
  | .deliver party index =>
    match (n.inbox party)[index]? with
    | none => (none, n)
    | some frame => (n.call derive party (.receive frame)).map some id

end Steps

end Network

/-- The frames of the accepted calls that came over the network. -/
def receivedFrames (t : Transcript) : List HandshakeFrame :=
  t.filterMap fun p => match p.1 with
    | .receive frame => some frame
    | _ => none

def transcriptFrames (t : Transcript) : List HandshakeFrame := t.flatMap fun p => sentFrames p.2

def transcriptSessions (t : Transcript) : List NegotiatedSession :=
  t.flatMap fun p => reportedSessions p.2

namespace HandshakeMachine

theorem mem_transcriptSessions {t : Transcript} {session : NegotiatedSession} :
    session ∈ transcriptSessions t ↔ ∃ p ∈ t, .established session ∈ p.2 := by
  simp only [transcriptSessions, List.mem_flatMap, reportedSessions, List.mem_filterMap]
  refine exists_congr fun p => and_congr_right fun _ => ⟨?_, fun h => ⟨_, h, rfl⟩⟩
  rintro ⟨output, ho, heq⟩
  cases output <;> simp_all

theorem Follows.exists_at {At : HandshakeMachine → Transcript → Prop} {m : HandshakeMachine}
    {t : Transcript} (h : Follows At m t) : ∃ m', At m' t :=
  h.elim (fun h => ⟨m, h⟩) (fun h => h.2)

theorem Greeting.transcriptFrames_calls {config : HandshakeConfig} (g : Greeting config)
    (proof : IdentityProof) :
    transcriptFrames (g.calls proof) =
      [g.challenge, .selection config.sessionId g.selected, .confirmed config.sessionId] := rfl

theorem Choice.transcriptFrames_calls {derive : String → String → ProtocolStableId}
    {config : HandshakeConfig} {o : Opening derive config} (c : Choice config o.authPath)
    (a : Answer config)
    (rest : HandshakeCall × List HandshakeOutput) :
    transcriptFrames (c.calls a ++ [rest]) = [o.frame, .identityProof config.identityProof,
      .confirm c.sessionId] ++ sentFrames rest.2 := by
  simp [transcriptFrames, Choice.calls, Answer.calls, Opening.calls, sentFrames]

/-- A confirmed frame is the last thing a responder sends. -/
theorem ResponderAt.confirmed_sent {config : HandshakeConfig} {m : HandshakeMachine}
    {t : Transcript} {sessionId : SessionId} (h : ResponderAt config m t)
    (hf : .confirmed sessionId ∈ transcriptFrames t) :
    ∃ (g : Greeting config) (proof : IdentityProof), t = g.calls proof := by
  cases h with
  | done g proof => exact ⟨g, proof, rfl⟩
  | _ => simp [transcriptFrames, Greeting.calls, sentFrames, Greeting.challenge] at hf

end HandshakeMachine

namespace Network
variable {derive : String → String → ProtocolStableId}
  {initiatorConfig responderConfig : HandshakeConfig}

/-- Both machines follow their protocol, and each has received only what the other sent. -/
structure Linked (derive : String → String → ProtocolStableId)
    (initiatorConfig responderConfig : HandshakeConfig) (n : Network)
    (initiated responded : Transcript) : Prop where
  initiator : Follows (InitiatorAt derive initiatorConfig) n.initiator initiated
  responder : Follows (ResponderAt responderConfig) n.responder responded
  fromInitiator : n.fromInitiator = transcriptFrames initiated
  fromResponder : n.fromResponder = transcriptFrames responded
  initiatorSessions : n.initiatorSessions = transcriptSessions initiated
  responderSessions : n.responderSessions = transcriptSessions responded
  initiator_received : ∀ frame ∈ receivedFrames initiated, frame ∈ n.fromResponder
  responder_received : ∀ frame ∈ receivedFrames responded, frame ∈ n.fromInitiator

/-- A call that the network allows: a received frame was sent by the other party. -/
def Allowed (n : Network) (party : Party) (call : HandshakeCall) : Prop :=
  ∀ frame, call = .receive frame → frame ∈ n.inbox party

theorem mem_receivedFrames_concat {t : Transcript} {call : HandshakeCall}
    {outputs : List HandshakeOutput} {frame : HandshakeFrame}
    (h : frame ∈ receivedFrames (t ++ [(call, outputs)])) :
    frame ∈ receivedFrames t ∨ call = .receive frame := by
  simp only [receivedFrames, List.filterMap_append, List.mem_append] at h
  refine h.imp_right fun h => ?_
  cases call <;> simp_all

theorem Linked.call {n : Network} {initiated responded : Transcript}
    (h : Linked derive initiatorConfig responderConfig n initiated responded) {party : Party}
    {call : HandshakeCall} (ha : n.Allowed party call) :
    ∃ initiated' responded', Linked derive initiatorConfig responderConfig
      (n.call derive party call).2 initiated' responded' := by
  cases party with
  | initiator =>
    obtain ⟨outputs, m', hstep, -, hnext⟩ | ⟨e, m', hstep, -, hnext⟩ :=
      (initiatorAt_describes derive initiatorConfig).follows_step h.initiator call
    -- Accepted: the transcript of the initiator grows, and what it sent becomes available.
    · refine ⟨initiated ++ [(call, outputs)], responded, ?_⟩
      simp only [Network.call, hstep, replyOutputs]
      refine ⟨.inl hnext, h.responder, ?_, h.fromResponder, ?_, h.responderSessions, ?_, ?_⟩
      · simp [h.fromInitiator, transcriptFrames]
      · simp [h.initiatorSessions, transcriptSessions]
      · intro frame hf
        exact (mem_receivedFrames_concat hf).elim (h.initiator_received frame) (ha frame)
      · intro frame hf
        exact List.mem_append_left _ (h.responder_received frame hf)
    -- Refused: nothing is sent and both transcripts stay.
    · refine ⟨initiated, responded, ?_⟩
      simp only [Network.call, hstep, replyOutputs, sentFrames, reportedSessions,
        List.filterMap_nil, List.append_nil]
      exact { h with initiator := hnext }
  | responder =>
    obtain ⟨outputs, m', hstep, -, hnext⟩ | ⟨e, m', hstep, -, hnext⟩ :=
      (responderAt_describes derive responderConfig).follows_step h.responder call
    -- The same with the parties exchanged.
    · refine ⟨initiated, responded ++ [(call, outputs)], ?_⟩
      simp only [Network.call, hstep, replyOutputs]
      refine ⟨h.initiator, .inl hnext, h.fromInitiator, ?_, h.initiatorSessions, ?_, ?_, ?_⟩
      · simp [h.fromResponder, transcriptFrames]
      · simp [h.responderSessions, transcriptSessions]
      · intro frame hf
        exact List.mem_append_left _ (h.initiator_received frame hf)
      · intro frame hf
        exact (mem_receivedFrames_concat hf).elim (h.responder_received frame) (ha frame)
    · refine ⟨initiated, responded, ?_⟩
      simp only [Network.call, hstep, replyOutputs, sentFrames, reportedSessions,
        List.filterMap_nil, List.append_nil]
      exact { h with responder := hnext }

theorem Linked.step {n : Network}
    (h : ∃ initiated responded,
      Linked derive initiatorConfig responderConfig n initiated responded)
    (action : NetworkAction) :
    ∃ initiated responded, Linked derive initiatorConfig responderConfig
      (n.step derive action).2 initiated responded := by
  obtain ⟨initiated, responded, h⟩ := h
  cases action with
  | start party authPath => exact h.call fun frame hf => absurd hf (by simp)
  | decideIdentity party decision => exact h.call fun frame hf => absurd hf (by simp)
  | deliver party index =>
    simp only [Network.step]
    split
    · exact ⟨initiated, responded, h⟩
    next frame hframe =>
      refine h.call fun received hr => ?_
      obtain rfl : frame = received := by simpa using hr
      exact List.mem_of_getElem? hframe

theorem Linked.run (derive : String → String → ProtocolStableId)
    (initiatorConfig responderConfig : HandshakeConfig) (actions : List NetworkAction) :
    ∃ initiated responded, Linked derive initiatorConfig responderConfig
      (RunHistory.run (Network.step derive) (fresh initiatorConfig responderConfig) actions)
      initiated responded := by
  refine RunHistory.run_invariant (Network.step derive) (I := fun n => ∃ initiated responded,
    Linked derive initiatorConfig responderConfig n initiated responded)
    (fun n action hn => Linked.step hn action) ?_ actions
  exact ⟨[], [], .inl .fresh, .inl .fresh, rfl, rfl, rfl, rfl, by simp [receivedFrames],
    by simp [receivedFrames]⟩

/-- What the two sides of a completed exchange know of each other. -/
structure Paired (o : Opening derive initiatorConfig) (a : Answer initiatorConfig)
    (c : Choice initiatorConfig o.authPath) (g : Greeting responderConfig) : Prop where
  hello : g.frame = o.frame
  challenge : a.frame o.authPath = g.challenge
  session_id : c.sessionId = responderConfig.sessionId
  protocols : c.protocols = g.selected

/-- Once the initiator has reported a session, the responder has reported its own, and each
frame that either accepted is the one frame of its kind that the other sent. -/
theorem Linked.paired {n : Network} {initiated responded : Transcript}
    (h : Linked derive initiatorConfig responderConfig n initiated responded)
    {session : NegotiatedSession} (hs : session ∈ n.initiatorSessions) :
    ∃ (o : Opening derive initiatorConfig) (a : Answer initiatorConfig)
      (c : Choice initiatorConfig o.authPath) (g : Greeting responderConfig),
      session = c.session a ∧ n.responderSessions = [g.session] ∧ Paired o a c g := by
  obtain ⟨mi, hi⟩ := h.initiator.exists_at
  obtain ⟨mr, hr⟩ := h.responder.exists_at
  rw [h.initiatorSessions, mem_transcriptSessions] at hs
  obtain ⟨o, a, c, rfl, rfl⟩ := hi.established hs
  have hin := h.initiator_received
  rw [h.fromResponder] at hin
  -- The initiator received the last frame, so the responder has come to its end.
  obtain ⟨g, proof, rfl⟩ := hr.confirmed_sent
    (hin (.confirmed c.sessionId) (by simp [receivedFrames]))
  have hout := h.responder_received
  rw [h.fromInitiator, c.transcriptFrames_calls] at hout
  rw [g.transcriptFrames_calls] at hin
  -- Each side sends one frame of a kind, so a received frame is that one.
  have hhello := hout g.frame (by simp [receivedFrames, Greeting.calls])
  have hchallenge := hin (a.frame o.authPath)
    (by simp [receivedFrames, Choice.calls, Answer.calls])
  have hselection : c.sessionId = responderConfig.sessionId ∧ c.protocols = g.selected := by
    simpa [Greeting.challenge] using hin (.selection c.sessionId c.protocols)
      (by simp [receivedFrames, Choice.calls])
  refine ⟨o, a, c, g, rfl, h.responderSessions, ?_, ?_, hselection.1, hselection.2⟩
  · simpa [Greeting.frame, Opening.frame, sentFrames] using hhello
  · simpa [Answer.frame, Greeting.challenge] using hchallenge

/-- Two sessions that describe one connection from its two ends. -/
structure Agree (initiated responded : NegotiatedSession) : Prop where
  session_id : initiated.sessionId = responded.sessionId
  link_version : initiated.linkVersion = responded.linkVersion
  link_capabilities : initiated.linkCapabilities = responded.linkCapabilities
  protocols : initiated.protocols = responded.protocols
  auth_path : initiated.authPath = responded.authPath
  local_remote : initiated.localIdentity = responded.remote
  remote_local : initiated.remote = responded.localIdentity

theorem Paired.agree {o : Opening derive initiatorConfig} {a : Answer initiatorConfig}
    {c : Choice initiatorConfig o.authPath} {g : Greeting responderConfig}
    (h : Paired o a c g) : Agree (c.session a) g.session := by
  have hhello := h.hello
  have hchallenge := h.challenge
  simp only [Greeting.frame, Opening.frame, HandshakeFrame.hello.injEq] at hhello
  simp only [Answer.frame, Greeting.challenge, HandshakeFrame.challenge.injEq] at hchallenge
  obtain ⟨hidentity, -, -, -, hauth⟩ := hhello
  obtain ⟨hresponder, hversion, hcapabilities, -, -⟩ := hchallenge
  exact ⟨h.session_id, hversion, hcapabilities, h.protocols, hauth.symm, hidentity.symm, hresponder⟩

theorem opening_of_start {authPath : AuthPath} {hello : HandshakeFrame} {m : HandshakeMachine}
    (h : (HandshakeMachine.initiator initiatorConfig).start derive authPath = (.ok hello, m)) :
    ∃ o : Opening derive initiatorConfig, hello = o.frame ∧ m = o.machine := by
  have hstep : (HandshakeMachine.initiator initiatorConfig).step derive (.start authPath) =
      (.ok [.send hello], m) := by
    simp only [HandshakeMachine.step, h]
    rfl
  rcases start_cases derive (HandshakeMachine.initiator initiatorConfig) authPath with
    ⟨outputs, m', heq, ha⟩ | ⟨e, m', heq, -⟩ <;> rw [hstep] at heq <;> cases heq
  cases ha with
  | start role state count consistent => exact ⟨⟨authPath, count, consistent⟩, rfl, rfl⟩

theorem greeting_of_receive (derive : String → String → ProtocolStableId) {hello : HandshakeFrame}
    {outputs : List HandshakeOutput} {m : HandshakeMachine}
    (h : (HandshakeMachine.responder responderConfig).receive hello = (.ok outputs, m)) :
    ∃ g : Greeting responderConfig, hello = g.frame ∧ outputs = [.send g.challenge] ∧
      m = g.machine .awaitingProof none := by
  have hwf := (responderAt_describes derive responderConfig).wellFormed .fresh
  rcases receive_cases derive hwf hello with ⟨outputs', m', heq, ha⟩ | ⟨e, m', heq, -⟩ <;>
    rw [h] at heq <;> cases heq
  cases ha
  case hello role state ok => exact ⟨⟨_, _, _, _, _, _, _, ok⟩, rfl, rfl, rfl⟩
  all_goals simp_all [HandshakeMachine.responder, HandshakeMachine.new]

/-- Everything that negotiation can select from an initiator's own offers passes the
initiator's check of the selection. -/
theorem selection_passes {o : Opening derive initiatorConfig} {g : Greeting responderConfig}
    (h : g.frame = o.frame) :
    g.selected.length ≤ initiatorConfig.policy.maxProtocolOffers ∧
      (∀ s ∈ g.selected, s.capabilities.isBounded = true) ∧
      SoundSelection (initiatorConfig.policy.catalogue o.authPath) g.selected := by
  have hoffers : g.protocols = initiatorConfig.policy.catalogue o.authPath := by
    simp only [Greeting.frame, Opening.frame, HandshakeFrame.hello.injEq] at h
    exact h.2.2.2.1
  have hselected := g.ok.selected_eq
  rw [hoffers] at hselected
  obtain ⟨hnodup, hsup⟩ := negotiateProtocols_ok hselected
  refine ⟨(negotiateProtocols_length_le hselected).trans o.count, ?_, g.ok.nonempty, hnodup, ?_⟩
  · intro s hs
    obtain ⟨_, _, offer, ho, hsel⟩ := hsup s hs
    -- The initiator checked its own offers when it started.
    have hbounded : offer.capabilities.isBounded = true := by
      have := o.consistent offer ho
      simp only [consistentOffer, Bool.not_eq_true', Bool.or_eq_false_iff,
        Bool.not_eq_false'] at this
      exact this.1.2
    exact ProtocolCapabilitySet.intersect_bounded hsel.capabilities hbounded
  · intro s hs
    obtain ⟨_, _, offer, ho, hsel⟩ := hsup s hs
    exact ⟨offer, ho, hsel.remote_id, hsel.remote_schema,
      (VersionRange.negotiate_contains hsel.version).2,
      ProtocolCapabilitySet.intersect_subset_right hsel.capabilities⟩

/-- The challenge that answers an initiator's own hello. -/
def answerOf (o : Opening derive initiatorConfig) (g : Greeting responderConfig)
    (h : g.frame = o.frame) : Answer initiatorConfig where
  responder := responderConfig.identity
  linkVersion := g.linkVersion
  linkCapabilities := responderConfig.policy.linkCapabilities.intersection g.linkCapabilities
  nonce := responderConfig.challengeNonce
  version := by
    simp only [Greeting.frame, Opening.frame, HandshakeFrame.hello.injEq] at h
    exact h.2.1 ▸ (VersionRange.negotiate_contains g.ok.version).2
  capabilities := by
    simp only [Greeting.frame, Opening.frame, HandshakeFrame.hello.injEq] at h
    exact h.2.2.1 ▸ LinkCapabilities.intersection_subset_right _ _

def choiceOf (o : Opening derive initiatorConfig) (g : Greeting responderConfig)
    (h : g.frame = o.frame) : Choice initiatorConfig o.authPath where
  sessionId := responderConfig.sessionId
  protocols := g.selected
  sound := (selection_passes h).2.2

theorem paired_of_frame {o : Opening derive initiatorConfig} {g : Greeting responderConfig}
    (h : g.frame = o.frame) : Paired o (answerOf o g h) (choiceOf o g h) g := by
  have hauth : g.requestedAuth = o.authPath := by
    simp only [Greeting.frame, Opening.frame, HandshakeFrame.hello.injEq] at h
    exact h.2.2.2.2
  exact ⟨h, by rw [← hauth]; rfl, rfl, rfl⟩

/-- The rest of an exchange in which every frame arrives in order and the identity is accepted:
five calls, each of them accepted. -/
theorem exchange_completes (o : Opening derive initiatorConfig) (g : Greeting responderConfig)
    (h : g.frame = o.frame)
    (hproof : initiatorConfig.identityProof.payload.length ≤
      responderConfig.policy.maxIdentityProofBytes) :
    Accepts derive o.machine (.receive g.challenge)
        [.send (.identityProof initiatorConfig.identityProof)] ((answerOf o g h).machine o) ∧
      Accepts derive (g.machine .awaitingProof none)
        (.receive (.identityProof initiatorConfig.identityProof))
        [.verifyIdentity (g.request initiatorConfig.identityProof)]
        (g.machine .awaitingVerification (some (g.request initiatorConfig.identityProof))) ∧
      Accepts derive
        (g.machine .awaitingVerification (some (g.request initiatorConfig.identityProof)))
        (.decideIdentity .accept) [.send (.selection responderConfig.sessionId g.selected)]
        (g.machine .awaitingConfirmation none) ∧
      Accepts derive ((answerOf o g h).machine o)
        (.receive (.selection responderConfig.sessionId g.selected))
        [.send (.confirm responderConfig.sessionId)]
        ((choiceOf o g h).machine (answerOf o g h) .awaitingConfirmed) ∧
      Accepts derive (g.machine .awaitingConfirmation none)
        (.receive (.confirm responderConfig.sessionId))
        [.send (.confirmed responderConfig.sessionId), .established g.session]
        (g.machine .established none) ∧
      Accepts derive ((choiceOf o g h).machine (answerOf o g h) .awaitingConfirmed)
        (.receive (.confirmed responderConfig.sessionId))
        [.established ((choiceOf o g h).session (answerOf o g h))]
        ((choiceOf o g h).machine (answerOf o g h) .established) := by
  -- Of the six guards only the selection needs an argument; the others are the frames.
  obtain ⟨hcount, hbounded, hsound⟩ := selection_passes h
  refine ⟨?_, .proof rfl rfl hproof rfl rfl, .accept rfl rfl rfl,
    .selection rfl rfl rfl hcount hbounded hsound, .confirm rfl rfl rfl, .confirmed rfl rfl rfl⟩
  rw [← (paired_of_frame h).challenge]
  exact .challenge rfl rfl (answerOf o g h).version rfl (answerOf o g h).capabilities

/-- Over any network, two sessions that are reported agree, and the initiator reports one only
after the responder has; and once the responder has accepted an initiator's hello, in-order
delivery and an accepted proof bring both sides to agreeing sessions. -/
theorem handshake_agrees_and_completes (derive : String → String → ProtocolStableId)
    (initiatorConfig responderConfig : HandshakeConfig) :
    (∀ actions, (∀ initiated responded,
        initiated ∈ (RunHistory.run (Network.step derive)
          (fresh initiatorConfig responderConfig) actions).initiatorSessions →
        responded ∈ (RunHistory.run (Network.step derive)
          (fresh initiatorConfig responderConfig) actions).responderSessions →
        Agree initiated responded) ∧
      ((RunHistory.run (Network.step derive)
          (fresh initiatorConfig responderConfig) actions).initiatorSessions ≠ [] →
        (RunHistory.run (Network.step derive)
          (fresh initiatorConfig responderConfig) actions).responderSessions ≠ [])) ∧
    ∀ authPath hello i₁ outputs r₁,
      (HandshakeMachine.initiator initiatorConfig).start derive authPath = (.ok hello, i₁) →
      (HandshakeMachine.responder responderConfig).receive hello = (.ok outputs, r₁) →
      initiatorConfig.identityProof.payload.length ≤
        responderConfig.policy.maxIdentityProofBytes →
      ∃ challenge i₂ request r₂ selection r₃ confirm i₃ confirmed responded r₄ initiated i₄,
        outputs = [.send challenge] ∧
        i₁.receive challenge = (.ok [.send (.identityProof initiatorConfig.identityProof)], i₂) ∧
        r₁.receive (.identityProof initiatorConfig.identityProof) =
          (.ok [.verifyIdentity request], r₂) ∧
        r₂.decideIdentity .accept = (.ok [.send selection], r₃) ∧
        i₂.receive selection = (.ok [.send confirm], i₃) ∧
        r₃.receive confirm = (.ok [.send confirmed, .established responded], r₄) ∧
        i₃.receive confirmed = (.ok [.established initiated], i₄) ∧
        Agree initiated responded := by
  constructor
  · intro actions
    obtain ⟨ti, tr, hlinked⟩ := Linked.run derive initiatorConfig responderConfig actions
    constructor
    · intro initiated responded hi hr
      obtain ⟨o, a, c, g, rfl, hsessions, hpaired⟩ := hlinked.paired hi
      rw [hsessions, List.mem_singleton] at hr
      exact hr ▸ hpaired.agree
    · intro hne
      obtain ⟨initiated, hi⟩ := List.exists_mem_of_ne_nil _ hne
      obtain ⟨o, a, c, g, -, hsessions, -⟩ := hlinked.paired hi
      simp [hsessions]
  · -- Undisturbed, each frame is the one that the other side waits for.
    intro authPath hello i₁ outputs r₁ hstart hreceive hproof
    obtain ⟨o, rfl, rfl⟩ := opening_of_start hstart
    obtain ⟨g, hframe, rfl, rfl⟩ := greeting_of_receive derive hreceive
    obtain ⟨h1, h2, h3, h4, h5, h6⟩ := exchange_completes o g hframe.symm hproof
    exact ⟨_, _, _, _, _, _, _, _, _, _, _, _, _, rfl, h1.step_eq, h2.step_eq, h3.step_eq,
      h4.step_eq, h5.step_eq, h6.step_eq, (paired_of_frame hframe.symm).agree⟩

theorem sample_handshake_agrees_and_completes :
    ∃ hello i₁ outputs r₁,
      (HandshakeMachine.initiator (Sample.handshakeConfig 1)).start Sample.derive .firstPairing =
        (.ok hello, i₁) ∧
      (HandshakeMachine.responder (Sample.handshakeConfig 2)).receive hello = (.ok outputs, r₁) ∧
      ∃ challenge i₂, outputs = [.send challenge] ∧
        i₁.receive challenge = (.ok [.send (.identityProof ⟨[1]⟩)], i₂) := by
  obtain ⟨challenge, i₂, -, -, -, -, -, -, -, -, -, -, -, houtputs, hreceive, -⟩ :=
    (handshake_agrees_and_completes Sample.derive (Sample.handshakeConfig 1)
      (Sample.handshakeConfig 2)).2 .firstPairing _ _ _ _ rfl rfl (by decide)
  exact ⟨_, _, _, _, rfl, rfl, challenge, i₂, houtputs, hreceive⟩

end Network

end MutsukiLink
