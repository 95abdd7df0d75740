import MutsukiLink.NtpClock
import MutsukiLink.NtpFrameRates
import MutsukiLink.NtpWorld
import MutsukiLink.ReliableReceiver

/-! The data side of the subscriber (`ntp-mutsuki-link/lib.rs`): `poll_realtime`, what it counts,
and `reset_for_reconnect`. An error never follows a call of `on_compact`, so the compact frame that
is handed to it is part of what a poll returns. -/
namespace MutsukiLink
open WireBytes

def BindingConfig.maxResultAgeNs (config : BindingConfig) : UInt64 := .clamp config.maxResultAge

def BindingError.isProtocolViolation {ε : Type} : BindingError ε → Bool
  | .codec _ | .contract _ | .compact _ | .compactStream _ | .stream _ => true
  | .invalidFragment | .layoutMismatch | .payloadLimit => true
  | _ => false

/-- The frame of a message, or of the fragments that complete it. -/
structure AssembledFrame where
  generation : UInt32
  sequence : UInt64
  payload : Bytes
deriving DecidableEq, Repr

namespace ReassemblyOutcome

/-- The match of `note_reassembly_replacement`. -/
def replaced : ReassemblyOutcome → Bool
  | .pending replacedIncomplete => replacedIncomplete
  | .complete _ _ _ replacedIncomplete => replacedIncomplete
  | .ignoredOld => true

def completed : ReassemblyOutcome → Option AssembledFrame
  | .complete generation sequence payload _ => some ⟨generation, sequence, payload⟩
  | .pending _ | .ignoredOld => none

end ReassemblyOutcome

namespace Ntp

inductive ReceiveOutcome where
  | idle | progress
deriving DecidableEq, Repr

/-- A compact frame as the guard reads it. -/
structure CompactFrameRef (Body : Type) where
  generation : UInt32
  sequence : UInt64
  captureTimestampNs : UInt64
  body : Body

/-- What receiving uses of `nana_tracking_protocol` besides. -/
structure ReceivingProtocol extends TrackingProtocol where
  CompactBody : Type
  acceptCompact : CompactStreamGuard → Bytes → ProducerClockEstimate →
    Except Error (CompactFrameRef CompactBody) × CompactStreamGuard
  decodeResult : Bytes → Except Error (NanaTrackingResult ResultBody Landmark)
  /-- The answer is the number of sequences that are missing before the result. -/
  acceptResult : ResultStreamGuard → NanaTrackingResult ResultBody Landmark →
    Except Error UInt64 × ResultStreamGuard

/-- What receiving asks of a `Connection` besides. -/
structure ReceivingConnection (σ : Type) extends NtpConnection σ where
  tryReceive : σ → Except TransportError (Option Bytes) × σ
  tryReceiveRealtime : σ → Except TransportError (Option ReceivedRealtimeDatagram) × σ

/-- What a poll returns, with the frame that it hands to `on_compact`. -/
structure Received (P : ReceivingProtocol) where
  outcome : ReceiveOutcome
  result : Option P.Result
  frame : Option (CompactFrameRef P.CompactBody)

namespace Received
variable {P : ReceivingProtocol}

def idle : Received P := ⟨.idle, none, none⟩

/-- A message was taken, and nothing is handed over. -/
def progress : Received P := ⟨.progress, none, none⟩

end Received

namespace ReceiverReport

def noteDropped (report : ReceiverReport) : ReceiverReport :=
  { report with dropped := report.dropped.saturatingAdd 1 }

/-- The jitter of `note_age`. -/
def jitterAfter (report : ReceiverReport) (previousAgeNs : Option UInt64) (ageNs : UInt64) :
    UInt64 :=
  match previousAgeNs with
  | none => report.jitterNs
  | some previous =>
    let sample := if ageNs < previous then previous-ageNs else ageNs-previous
    if report.jitterNs = 0 then sample
    else ((report.jitterNs.saturatingMul 7).saturatingAdd sample)/8

end ReceiverReport

/-- A call of the control side; only `poll_control` answers with an event. -/
def Subscriber.perform {σ : Type} {P : TrackingProtocol} (connection : NtpConnection σ)
    (c : Subscriber P) (s : σ) : SubscriberCall →
    Except P.Failure (Option SubscriberEvent) × Subscriber P × σ
  | .trySendHello => sent (c.trySendHello connection s)
  | .trySendCommand command => sent (c.trySendCommand connection s command)
  | .tryRequestGeometry => sent (c.tryRequestGeometry connection s)
  | .trySendPing receiverNowNs => sent (c.trySendPing connection s receiverNowNs)
  | .trySendReceiverReport => sent (c.trySendReceiverReport connection s)
  | .pollControl receiverNowNs now => c.pollControl connection s receiverNowNs now
where
  sent (result : Except P.Failure Unit × Subscriber P × σ) :
      Except P.Failure (Option SubscriberEvent) × Subscriber P × σ :=
    (result.1.map fun _ => none, result.2)

/-- A subscriber with all that receiving reads. -/
structure RealtimeSubscriber (P : ReceivingProtocol) extends
    ReceivingSubscriber P.toTrackingProtocol where
  reliable : ReliableLatestReceiver
  protocolViolations : UInt16
  malformedFrames : UInt64
  fused : Bool

namespace RealtimeSubscriber
variable {σ : Type} {P : ReceivingProtocol}

def new (connection : NtpConnection σ) (s : σ) (metadata : ConnectionMetadata)
    (authorization : NtpAuthorization) (config : BindingConfig) (now later : ℕ) :
    Except P.Failure (RealtimeSubscriber P) :=
  match ReceivingSubscriber.new connection s metadata authorization config now later with
  | .error e => .error e
  | .ok c => .ok { c with
      reliable := {}, protocolViolations := 0, malformedFrames := 0, fused := false }

def withReport (c : RealtimeSubscriber P) (report : ReceiverReport) : RealtimeSubscriber P :=
  { c with report }

def noteDropped (c : RealtimeSubscriber P) : RealtimeSubscriber P :=
  c.withReport c.report.noteDropped

def noteAge (c : RealtimeSubscriber P) (ageNs : UInt64) : RealtimeSubscriber P :=
  { c with
    previousAgeNs := some ageNs
    report := { c.report with
      jitterNs := c.report.jitterAfter c.previousAgeNs ageNs
      resultAgeNs := ageNs } }

def noteViolation (c : RealtimeSubscriber P) : RealtimeSubscriber P :=
  let protocolViolations := UInt16.ofNat (min (c.protocolViolations.toNat+1) (2^16-1))
  { c with
    protocolViolations
    malformedFrames := c.malformedFrames.saturatingAdd 1
    fused := c.fused || decide (c.config.maxProtocolViolations ≤ protocolViolations) }

/-- The next message of either transport mode. -/
def nextMessage (connection : ReceivingConnection σ) (c : RealtimeSubscriber P) (s : σ)
    (readings : ℕ → ℕ) :
    Except P.Failure (Option ReceivedRealtimeDatagram) × RealtimeSubscriber P × σ :=
  if c.transportMode = .datagram then
    match connection.tryReceiveRealtime s with
    | (.ok message, s) => (.ok message, c, s)
    | (.error e, s) =>
      if e.kind = .wouldBlock then (.ok none, c, s) else (.error (.transport e), c, s)
  else
    match c.reliable.poll connection.tryReceive s c.config.maxTrackingFrameBytes
        c.config.maxReceiveFramesPerPoll readings with
    | (result, reliable, s) => (result, { c with reliable }, s)

/-- A compact frame needs a session and is counted before it is looked at. -/
def admitCompact (c : RealtimeSubscriber P) (message : ReceivedRealtimeDatagram) (now : ℕ) :
    Except P.Failure Unit × RealtimeSubscriber P :=
  if message.flow = compactRigFlow then
    match c.active with
    | none => (.error .invalidState, c)
    | some active =>
      match c.noteReceivedFrame now (P.layoutProposal active.layout).targetFps with
      | (admitted, noted) => (admitted, { c with toReceivingSubscriber := noted })
  else (.ok (), c)

def receiveCompact (c : RealtimeSubscriber P) (active : SubscriberSession P.toTrackingProtocol)
    (message : ReceivedRealtimeDatagram) (clock : ProducerClockEstimate) :
    Except P.Failure (Received P) × RealtimeSubscriber P :=
  if message.payload.length ≠ P.frameLen active.layout then
    (.error .layoutMismatch, c.noteDropped)
  else match P.acceptCompact active.compactGuard message.payload clock with
    | (.error e, compactGuard) =>
      (.error (.compactStream e), { c with active := some { active with compactGuard } })
    | (.ok frame, compactGuard) =>
      let c := { c with active := some { active with compactGuard } }
      -- The guard has taken the frame also when the message names another one.
      if frame.sequence ≠ message.sequence ∨ frame.generation ≠ message.generation then
        (.error .invalidFragment, c)
      else (.ok ⟨.progress, none, some frame⟩,
        c.noteAge (clock.nowNs.saturatingSub frame.captureTimestampNs))

/-- What `push` makes of a message, with the reassembler and the report after it. In the reliable
mode a message is a frame. -/
def assemble (c : RealtimeSubscriber P) (reassembler : Reassembler)
    (message : ReceivedRealtimeDatagram) :
    Except P.Failure (Option AssembledFrame) × Reassembler × ReceiverReport :=
  if c.transportMode = .reliableLatestOnly then
    (.ok (some ⟨message.generation, message.sequence, message.payload⟩), reassembler, c.report)
  else match reassembler.push message.generation message.sequence message.payload c.config with
    | (.error e, reassembler) => (.error e, reassembler, c.report)
    | (.ok outcome, reassembler) => (.ok outcome.completed, reassembler,
        if outcome.replaced then c.report.noteDropped else c.report)

/-- The result with the landmarks of the cache, where they belong to it. -/
def withLandmarks (c : RealtimeSubscriber P) (result : P.Result) : P.Result :=
  match c.geometryCache with
  | none => result
  | some cache =>
    if cache.sessionId = result.sessionId ∧ cache.generation = result.generation ∧
        cache.sequence ≤ result.sequence then { result with faceLandmarks := cache.landmarks }
    else result

/-- A complete core result. -/
def acceptCore (c : RealtimeSubscriber P) (frame : AssembledFrame) (clock : ProducerClockEstimate) :
    Except P.Failure (Received P) × RealtimeSubscriber P :=
  match P.decodeResult frame.payload with
  | .error e => (.error (.codec e), c)
  | .ok decoded =>
    if decoded.generation ≠ frame.generation ∨ decoded.sequence ≠ frame.sequence then
      (.error .invalidFragment, c)
    else
      let result := c.withLandmarks decoded
      let age := clock.nowNs.saturatingSub result.captureTimestampNs
      if c.config.maxResultAgeNs.saturatingAdd clock.uncertaintyNs < age then
        -- A stale result is counted before the guard sees it.
        (.ok .progress, (c.withReport
          { c.report with stale := c.report.stale.saturatingAdd 1 }).noteAge age)
      else match c.active with
        | none => (.error .invalidState, c)
        | some active =>
          match P.validateResult active.descriptor result with
          | .error e => (.error (.contract e), c)
          | .ok () =>
            match P.acceptResult active.resultGuard result with
            | (.error e, resultGuard) =>
              (.error (.stream e), { c with active := some { active with resultGuard } })
            | (.ok missingSequences, resultGuard) =>
              let c := { c with
                active := some { active with resultGuard }
                report := { c.report with
                  received := c.report.received.saturatingAdd 1
                  dropped := c.report.dropped.saturatingAdd missingSequences } }
              (.ok ⟨.progress, some result, none⟩, c.noteAge age)

def receiveCore (c : RealtimeSubscriber P) (message : ReceivedRealtimeDatagram)
    (clock : ProducerClockEstimate) : Except P.Failure (Received P) × RealtimeSubscriber P :=
  match c.assemble c.coreReassembly message with
  | (.error e, coreReassembly, report) => (.error e, { c with coreReassembly, report })
  | (.ok none, coreReassembly, report) => (.ok .progress, { c with coreReassembly, report })
  | (.ok (some frame), coreReassembly, report) =>
    { c with coreReassembly, report }.acceptCore frame clock

/-- A complete geometry replaces the cache. -/
def acceptGeometry (c : RealtimeSubscriber P) (frame : AssembledFrame) :
    Except P.Failure (Received P) × RealtimeSubscriber P :=
  match P.decodeResult frame.payload with
  | .error e => (.error (.codec e), c)
  | .ok result =>
    match c.active with
    | none => (.error .invalidState, c)
    | some active =>
      if result.sessionId ≠ active.sessionId ∨ result.generation ≠ frame.generation ∨
          result.sequence ≠ frame.sequence then (.error .invalidFragment, c)
      else match P.validateResult active.descriptor result with
        | .error e => (.error (.contract e), c)
        | .ok () =>
          let cache : GeometryCache P.toTrackingProtocol :=
            ⟨result.sessionId, frame.generation, frame.sequence, result.faceLandmarks⟩
          (.ok .progress, { c with geometryCache := some cache })

def receiveGeometry (c : RealtimeSubscriber P) (message : ReceivedRealtimeDatagram) :
    Except P.Failure (Received P) × RealtimeSubscriber P :=
  match c.assemble c.geometryReassembly message with
  | (.error e, geometryReassembly, report) => (.error e, { c with geometryReassembly, report })
  | (.ok none, geometryReassembly, report) => (.ok .progress, { c with geometryReassembly, report })
  | (.ok (some frame), geometryReassembly, report) =>
    { c with geometryReassembly, report }.acceptGeometry frame

/-- `poll_realtime_inner` from the message on. -/
def receive (c : RealtimeSubscriber P) (message : ReceivedRealtimeDatagram)
    (clock : ProducerClockEstimate) (now : ℕ) :
    Except P.Failure (Received P) × RealtimeSubscriber P :=
  match c.admitCompact message now with
  | (.error e, c) => (.error e, c)
  | (.ok (), c) =>
    if c.config.maxTrackingFrameBytes < message.payload.length then
      (.error .payloadLimit, c.noteDropped)
    else match c.active with
      | none => (.error .invalidState, c)
      | some active =>
        if message.generation ≠ active.generation then (.ok .progress, c.noteDropped)
        else if message.flow = compactRigFlow then c.receiveCompact active message clock
        else if message.flow = coreResultFlow then c.receiveCore message clock
        else if message.flow = geometryFlow then c.receiveGeometry message
        else (.ok .progress, c)

def pollRealtimeInner (connection : ReceivingConnection σ) (c : RealtimeSubscriber P) (s : σ)
    (clock : ProducerClockEstimate) (now : ℕ) (readings : ℕ → ℕ) :
    Except P.Failure (Received P) × RealtimeSubscriber P × σ :=
  match c.nextMessage connection s readings with
  | (.error e, c, s) => (.error e, c, s)
  | (.ok none, c, s) => (.ok .idle, c, s)
  | (.ok (some message), c, s) =>
    match c.receive message clock now with
    | (result, c) => (result, c, s)

/-- The clock is read for the frames of the reliable lane and for the frame rate. -/
def pollRealtime (connection : ReceivingConnection σ) (c : RealtimeSubscriber P) (s : σ)
    (clock : ProducerClockEstimate) (now : ℕ) (readings : ℕ → ℕ) :
    Except P.Failure (Received P) × RealtimeSubscriber P × σ :=
  if c.fused then (.error .channelFused, c, s)
  else match c.pollRealtimeInner connection s clock now readings with
    | (.ok received, c, s) => (.ok received, c, s)
    | (.error e, c, s) => (.error e, if e.isProtocolViolation then c.noteViolation else c, s)

/-- The new connection is `connection` in the state `fresh`; each frame window reads the clock. -/
def resetForReconnect (connection : NtpConnection σ) (c : RealtimeSubscriber P) (s fresh : σ)
    (metadata : ConnectionMetadata) (authorization : NtpAuthorization) (now later : ℕ) :
    Except P.Failure Unit × RealtimeSubscriber P × σ :=
  match validateConnectionAuthorization metadata authorization .subscriber with
  | .error e => (.error e, c, s)
  | .ok () =>
    if authorization.linkSessionId = c.authorization.linkSessionId then
      (.error .sessionBindingMismatch, c, s)
    else
      let c := { c with
        authorization, transportMode := Ntp.transportMode connection fresh, remoteHello := false }
      match P.newNegotiator with
      -- The new connection is in place by now.
      | .error e => (.error (.handshake e), c, fresh)
      | .ok negotiator => (.ok (), { c with
        negotiator, pending := none, active := none, outbox := []
        coreReassembly := c.coreReassembly.clear, geometryReassembly := c.geometryReassembly.clear
        -- The counters of the reliable receiver are kept.
        reliable := { c.reliable with pending := ∅ }
        geometryCache := none, report := {}, previousAgeNs := none, clock := {}
        reconfigureTimes := []
        receiveWindowStarted := now, receiveWindowCount := 0
        sustainedReceiveWindowStarted := later, sustainedReceiveCount := 0
        rateLimited := 0, protocolViolations := 0, malformedFrames := 0, fused := false }, fresh)

/-- A call of the control side leaves what only the data side reads. -/
def control (connection : NtpConnection σ) (c : RealtimeSubscriber P) (s : σ)
    (call : SubscriberCall) :
    Except P.Failure (Option SubscriberEvent) × RealtimeSubscriber P × σ :=
  match c.toSubscriber.perform connection s call with
  | (reply, subscriber, s) => (reply, { c with
      toReceivingSubscriber := { c.toReceivingSubscriber with toSubscriber := subscriber } }, s)

end RealtimeSubscriber

end Ntp

end MutsukiLink
