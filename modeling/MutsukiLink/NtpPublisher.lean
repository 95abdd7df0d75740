import MutsukiLink.NtpConnection

/-! The publisher (`ntp-mutsuki-link/lib.rs`) and its latest-only sender (`reliable.rs`). An
`Instant` is a number of nanoseconds and comes with the call that reads it. -/
namespace MutsukiLink.Ntp
open Std WireBytes

def reliableMagic : Bytes := [78, 84, 76, 70]
def reliableVersion : UInt8 := 1
def reliableHeaderLen : ℕ := 23

def compactRigFlow : RealtimeFlowId := ⟨0x4e10⟩
def coreResultFlow : RealtimeFlowId := ⟨0x4e11⟩
def geometryFlow : RealtimeFlowId := ⟨0x4e12⟩

structure PendingFrame where
  pending : Bool
  priority : RealtimePriority
  wire : Bytes
deriving DecidableEq, Repr

structure ReliableLatestSender where
  pending : ExtTreeMap RealtimeFlowId PendingFrame := ∅
  replacements : ℕ := 0

/-- A frame on the reliable data lane. -/
def reliableWire (flow : RealtimeFlowId) (generation : UInt32) (sequence : UInt64)
    (payload : Bytes) : Bytes :=
  reliableMagic ++ ([reliableVersion] ++ (beBytes 2 flow.val.toNat ++
    (beBytes 4 generation.toNat ++ (beBytes 8 sequence.toNat ++
      (beBytes 4 payload.length ++ payload)))))

namespace ReliableLatestSender
variable {σ ε : Type}

def enqueue (r : ReliableLatestSender) (flow : RealtimeFlowId) (generation : UInt32)
    (sequence : UInt64) (priority : RealtimePriority) (payload : Bytes) (maxFrameBytes : ℕ) :
    Except (BindingError ε) SendOutcome × ReliableLatestSender :=
  let wireLen := reliableHeaderLen+payload.length
  if 2^64 ≤ wireLen then (.error .payloadLimit, r)
  else if maxFrameBytes < wireLen ∨ 2^32-1 < payload.length then (.error .payloadLimit, r)
  else
    let pending := r.pending.insert flow
      ⟨true, priority, reliableWire flow generation sequence payload⟩
    if r.pending[flow]?.any PendingFrame.pending then
      (.ok .replacedOlder, ⟨pending, saturatingAdd r.replacements 1⟩)
    else (.ok .enqueued, { r with pending })

/-- The pending frame of the highest priority; `min_by_key` takes the first of several. -/
def next (r : ReliableLatestSender) : Option (RealtimeFlowId × PendingFrame) :=
  (r.pending.toList.filter fun entry => entry.2.pending).argmin fun entry => entry.2.priority.rank

/-- Every round sends one pending frame, so there are no more rounds than frames. -/
def flushRounds (connection : NtpConnection σ) :
    ℕ → ReliableLatestSender → σ → Except (BindingError ε) Unit × ReliableLatestSender × σ
  | 0, r, s => (.ok (), r, s)
  | rounds+1, r, s =>
    match r.next with
    | none => (.ok (), r, s)
    | some (flow, frame) =>
      match connection.trySend s frame.wire with
      | (.ok (), s) => flushRounds connection rounds
          { r with pending := r.pending.insert flow { frame with pending := false } } s
      | (.error e, s) =>
        -- The frame waits for the next flush in either case.
        if e.kind = .wouldBlock then (.ok (), r, s) else (.error (.transport e), r, s)

def flush (r : ReliableLatestSender) (connection : NtpConnection σ) (s : σ) :
    Except (BindingError ε) Unit × ReliableLatestSender × σ :=
  flushRounds connection r.pending.size r s

end ReliableLatestSender

inductive PlaybackState where
  | stopped | paused | running
deriving DecidableEq, Repr

inductive PublisherEvent where
  | helloAccepted
  | layoutAccepted
  | sessionReady
  | playbackChanged (command : SessionCommand)
  | receiverReport (report : ReceiverReport)
  | geometryRequested
  | remoteError (code : UInt16)
  | remoteClosed (code : UInt16)
deriving DecidableEq, Repr

structure PublishOutcome where
  compact : SendOutcome
  core : FragmentBatchOutcome
  geometry : Option FragmentBatchOutcome
deriving DecidableEq, Repr

def singleFrameBatch (outcome : SendOutcome) : FragmentBatchOutcome where
  fragments := 1
  enqueued := if outcome = .enqueued then 1 else 0
  replaced := if outcome = .replacedOlder then 1 else 0
  expired := if outcome = .droppedExpired then 1 else 0
  congested := if outcome = .droppedCongested ∨ outcome = .unsupported then 1 else 0

structure SessionDefinition (P : TrackingProtocol) where
  descriptor : P.Descriptor
  sessionId : NtpSessionId
  generation : UInt32
  layout : P.ActiveLayout
  topology : GeometryTopology

structure Publisher (P : TrackingProtocol) where
  authorization : NtpAuthorization
  transportMode : TrackingTransportMode
  config : BindingConfig
  remoteHello : Bool
  pending : Option (SessionDefinition P)
  pendingAccepted : Bool
  active : Option (SessionDefinition P)
  playback : PlaybackState
  outbox : List Bytes
  compactSamples : List P.Sample
  compactBytes : Bytes
  reliable : ReliableLatestSender
  reconfigureTimes : List ℕ
  frameWindowStarted : ℕ
  frameWindowCount : UInt16
  sustainedWindowStarted : ℕ
  sustainedFrameCount : UInt32
  rateLimited : ℕ
  lastPublishedSequence : Option UInt64
  geometryRequested : Bool
  lastReport : Option ReceiverReport

namespace Publisher
variable {σ : Type} {P : TrackingProtocol}

/-- Each frame window reads the clock. -/
def new (connection : NtpConnection σ) (s : σ) (metadata : ConnectionMetadata)
    (authorization : NtpAuthorization) (config : BindingConfig) (now later : ℕ) :
    Except P.Failure (Publisher P) :=
  match config.validate with
  | .error e => .error e
  | .ok config =>
    match validateConnectionAuthorization metadata authorization .publisher with
    | .error e => .error e
    | .ok () =>
      if !metadata.reliable then .error .invalidState
      else .ok {
        authorization, config, transportMode := Ntp.transportMode connection s
        remoteHello := false, pending := none, pendingAccepted := false, active := none
        playback := .stopped, outbox := [], compactSamples := [], compactBytes := []
        reliable := {}, reconfigureTimes := [], frameWindowStarted := now, frameWindowCount := 0
        sustainedWindowStarted := later, sustainedFrameCount := 0, rateLimited := 0
        lastPublishedSequence := none, geometryRequested := false, lastReport := none }

/-- `queue_control` on the outbox of the publisher. -/
def queue (p : Publisher P) (message : P.Message) : Except P.Failure Unit × Publisher P :=
  match queueControl p.outbox message p.config with
  | .error e => (.error e, p)
  | .ok outbox => (.ok (), { p with outbox })

/-- `flush_control` on the outbox of the publisher. -/
def flush (connection : NtpConnection σ) (p : Publisher P) (s : σ) :
    Except P.Failure Unit × Publisher P × σ :=
  match flushControl connection p.outbox s with
  | (result, outbox, s) => (result, { p with outbox }, s)

def trySendHello (connection : NtpConnection σ) (p : Publisher P) (s : σ) :
    Except P.Failure Unit × Publisher P × σ :=
  match p.queue (.hello (.new p.authorization.linkSessionId)) with
  | (.error e, p) => (.error e, p, s)
  | (.ok (), p) => p.flush connection s

def noteReconfigure (p : Publisher P) (now : ℕ) : Except P.Failure Unit × Publisher P :=
  match noteReconfigureTimes p.config p.reconfigureTimes now with
  | (.error e, reconfigureTimes) =>
    (.error e, { p with reconfigureTimes, rateLimited := saturatingAdd p.rateLimited 1 })
  | (.ok (), reconfigureTimes) => (.ok (), { p with reconfigureTimes })

/-- The part of `publish_descriptor` that notes a reconfiguration of an active session. -/
def noteIfActive (p : Publisher P) (now : ℕ) : Except P.Failure Unit × Publisher P :=
  if p.active.isSome then p.noteReconfigure now else (.ok (), p)

/-- `publish_descriptor` up to its flush. -/
def propose (p : Publisher P) (proposal : SessionProposal P.toTrackingTypes) (now : ℕ) :
    Except P.Failure Unit × Publisher P :=
  if !p.remoteHello || p.pending.isSome then (.error .invalidState, p)
  else if p.active.any fun active =>
      active.sessionId = proposal.sessionId && proposal.generation ≤ active.generation then
    (.error .invalidState, p)
  else if proposal.layout.targetFps = 0 ∨ p.config.maxTargetFps < proposal.layout.targetFps then
    (.error .rateLimited, p)
  else match p.noteIfActive now with
    | (.error e, p) => (.error e, p)
    | (.ok (), p) =>
      match P.negotiate proposal.layoutId proposal.layout proposal.descriptor with
      | .error e => (.error (.layout e), p)
      | .ok layout =>
        match p.queue (.sessionProposal proposal) with
        | (.error e, p) => (.error e, p)
        | (.ok (), p) => (.ok (), { p with
            pending := some ⟨proposal.descriptor, proposal.sessionId, proposal.generation, layout,
              proposal.topology⟩
            pendingAccepted := false })

def publishDescriptor (connection : NtpConnection σ) (p : Publisher P) (s : σ)
    (proposal : SessionProposal P.toTrackingTypes) (now : ℕ) :
    Except P.Failure Unit × Publisher P × σ :=
  match p.propose proposal now with
  | (.error e, p) => (.error e, p, s)
  | (.ok (), p) => p.flush connection s

/-- The answer to a layout is confirmed once. -/
def acceptLayout (p : Publisher P) (accept : LayoutAccept) :
    Except P.Failure (Option PublisherEvent) × Publisher P :=
  if p.pendingAccepted then (.error .invalidState, p)
  else match p.pending with
    | none => (.error .invalidState, p)
    | some pending =>
      if P.acceptConfirmation accept ≠ P.confirmation pending.layout ∨
          accept.parameterCount.toNat ≠ (P.signals pending.layout).length ∨
          accept.expectedPayloadLen.toNat ≠ P.frameLen pending.layout then
        (.error .invalidControl, p)
      else match p.queue (.layoutConfirmed (P.acceptConfirmation accept)) with
        | (.error e, p) => (.error e, p)
        | (.ok (), p) => (.ok (some .layoutAccepted), { p with pendingAccepted := true })

/-- The pending definition becomes active. -/
def ready (p : Publisher P) (sessionId : NtpSessionId) (generation layoutId : UInt32) :
    Except P.Failure (Option PublisherEvent) × Publisher P :=
  match p.pending with
  | none => (.error .invalidState, p)
  | some pending =>
    if !p.pendingAccepted ∨ pending.sessionId ≠ sessionId ∨ pending.generation ≠ generation ∨
        P.layoutId pending.layout ≠ layoutId then
      (.error .invalidControl, p)
    -- The sequences of the new definition start again.
    else (.ok (some .sessionReady), { p with
      pending := none
      pendingAccepted := false
      compactSamples := List.replicate (P.signals pending.layout).length P.unavailableSample
      compactBytes := (p.compactBytes.take (P.frameLen pending.layout)).rightpad
        (P.frameLen pending.layout) 0
      active := some pending
      lastPublishedSequence := none
      playback := .paused })

def playbackAfter : SessionCommand → PlaybackState
  | .start => .running
  | .resume => .running
  | .pause => .paused
  | .stop => .stopped

/-- The `match` of `poll_control`; a ping is answered without an event. -/
def handle (p : Publisher P) (producerNowNs : UInt64) :
    P.Message → Except P.Failure (Option PublisherEvent) × Publisher P
  | .hello hello =>
    match validateHello hello p.authorization.linkSessionId with
    | .error e => (.error e, p)
    | .ok () => (.ok (some .helloAccepted), { p with remoteHello := true })
  | .layoutAccepted accept => p.acceptLayout accept
  | .sessionReady sessionId generation layoutId => p.ready sessionId generation layoutId
  | .command command =>
    if p.active.isNone then (.error .invalidState, p)
    else (.ok (some (.playbackChanged command)), { p with playback := playbackAfter command })
  | .ping receiverSendNs =>
    match p.queue (.pong receiverSendNs producerNowNs) with
    | (.error e, p) => (.error e, p)
    | (.ok (), p) => (.ok none, p)
  | .receiverReport report =>
    (.ok (some (.receiverReport report)), { p with lastReport := some report })
  | .geometryRequest => (.ok (some .geometryRequested), { p with geometryRequested := true })
  | .error code _ => (.ok (some (.remoteError code)), p)
  | .close code _ => (.ok (some (.remoteClosed code)), p)
  | _ => (.error .invalidControl, p)

def flushReliable (connection : NtpConnection σ) (p : Publisher P) (s : σ) :
    Except P.Failure Unit × Publisher P × σ :=
  match p.reliable.flush connection s with
  | (result, reliable, s) => (result, { p with reliable }, s)

def pollControl (connection : NtpConnection σ) (p : Publisher P) (s : σ) (producerNowNs : UInt64) :
    Except P.Failure (Option PublisherEvent) × Publisher P × σ :=
  match p.flush connection s with
  | (.error e, p, s) => (.error e, p, s)
  | (.ok (), p, s) =>
    let flushed := if p.transportMode = .reliableLatestOnly then p.flushReliable connection s
      else (.ok (), p, s)
    match flushed with
    | (.error e, p, s) => (.error e, p, s)
    | (.ok (), p, s) =>
      match receiveControl connection p.config s with
      | (.error e, s) => (.error e, p, s)
      | (.ok none, s) => (.ok none, p, s)
      | (.ok (some message), s) =>
        match p.handle producerNowNs message with
        | (.error e, p) => (.error e, p, s)
        | (.ok event, p) =>
          match p.flush connection s with
          | (.error e, p, s) => (.error e, p, s)
          | (.ok (), p, s) => (.ok event, p, s)

def noteFrame (p : Publisher P) (now : ℕ) (targetFps : UInt16) :
    Except P.Failure Unit × Publisher P :=
  let p := if 1000000000 ≤ now-p.frameWindowStarted then
      { p with frameWindowStarted := now, frameWindowCount := 0 }
    else p
  -- The window that ends is forgotten even when the frame is refused.
  if p.config.maxBurstFps ≤ p.frameWindowCount then
    (.error .rateLimited, { p with rateLimited := saturatingAdd p.rateLimited 1 })
  else
    let p := if 10*1000000000 ≤ now-p.sustainedWindowStarted then
        { p with sustainedWindowStarted := now, sustainedFrameCount := 0 }
      else p
    -- Ten times a `u16` does not saturate a `u32`.
    if targetFps.toNat*10 ≤ p.sustainedFrameCount.toNat then
      (.error .rateLimited, { p with rateLimited := saturatingAdd p.rateLimited 1 })
    else (.ok (), { p with
      frameWindowCount := UInt16.ofNat (min (p.frameWindowCount.toNat+1) (2^16-1))
      sustainedFrameCount := UInt32.ofNat (min (p.sustainedFrameCount.toNat+1) (2^32-1)) })

/-- The loop over the samples and the signals of the layout, up to a signal that is missing. -/
def fillSamples (body : P.ResultBody) :
    List P.Sample → List P.SignalId → Except P.Failure Unit × List P.Sample
  | sample :: samples, signal :: signals =>
    match P.rigSample body signal with
    | none => (.error .invalidState, sample :: samples)
    | some filled => (fillSamples body samples signals).map id (filled :: ·)
  | samples, _ => (.ok (), samples)

/-- What is sent of one result. -/
structure EncodedResult where
  result : P.Result
  compact : Bytes
  core : Bytes
  geometry : Option Bytes

/-- The geometry is due by its cadence or was asked for. -/
def geometryDue (p : Publisher P) (sequence : UInt64) : Bool :=
  p.geometryRequested || p.config.geometryCadence.any fun cadence => sequence%cadence = 0

/-- The encoding of a result that the active definition allows. -/
def encodeResult (p : Publisher P) (active : SessionDefinition P) (result : P.Result) :
    Except P.Failure (EncodedResult (P := P)) × Publisher P :=
  match fillSamples result.body p.compactSamples (P.signals active.layout) with
  | (.error e, compactSamples) => (.error e, { p with compactSamples })
  | (.ok (), compactSamples) =>
    let p := { p with compactSamples }
    match P.encodeCompact active.layout {
        sessionId := result.sessionId, generation := result.generation
        sequence := result.sequence, captureTimestampNs := result.captureTimestampNs
        producedTimestampNs := result.producedTimestampNs, samples := p.compactSamples }
        p.compactBytes with
    | (.error e, compactBytes) => (.error (.compact e), { p with compactBytes })
    | (.ok (), compactBytes) =>
      let p := { p with compactBytes }
      match P.encodeResult { result with faceLandmarks := [] } with
      | .error e => (.error (.codec e), p)
      | .ok core =>
        if p.geometryDue result.sequence then
          -- The request is taken before the geometry is encoded.
          let p := { p with geometryRequested := false }
          match P.encodeResult result with
          | .error e => (.error (.codec e), p)
          | .ok geometry => (.ok ⟨result, compactBytes, core, some geometry⟩, p)
        else (.ok ⟨result, compactBytes, core, none⟩, p)

/-- `try_send_latest` before it sends anything. -/
def prepare (p : Publisher P) (result : P.Result) (now : ℕ) :
    Except P.Failure (EncodedResult (P := P)) × Publisher P :=
  if p.playback ≠ .running then (.error .invalidState, p)
  else match p.active with
    | none => (.error .invalidState, p)
    | some active =>
      match p.noteFrame now (P.layoutProposal active.layout).targetFps with
      | (.error e, p) => (.error e, p)
      | (.ok (), p) =>
        if result.sessionId ≠ active.sessionId ∨ result.generation ≠ active.generation then
          (.error .invalidState, p)
        else if p.lastPublishedSequence.any fun sequence => result.sequence ≤ sequence then
          (.error .replayOrDuplicate, p)
        else match P.validateResult active.descriptor result with
          | .error e => (.error (.contract e), p)
          | .ok () => p.encodeResult active result

/-- `self.reliable.enqueue` for one flow of a result. -/
def enqueueReliable (p : Publisher P) (result : P.Result) (flow : RealtimeFlowId)
    (priority : RealtimePriority) (payload : Bytes) :
    Except P.Failure SendOutcome × Publisher P :=
  match p.reliable.enqueue flow result.generation result.sequence priority payload
      p.config.maxTrackingFrameBytes with
  | (outcome, reliable) => (outcome, { p with reliable })

/-- The geometry of a result on the reliable lane, if it is due. -/
def enqueueGeometry (p : Publisher P) (result : P.Result) :
    Option Bytes → Except P.Failure (Option FragmentBatchOutcome) × Publisher P
  | none => (.ok none, p)
  | some payload =>
    match p.enqueueReliable result geometryFlow .disposable payload with
    | (.error e, p) => (.error e, p)
    | (.ok outcome, p) => (.ok (some (singleFrameBatch outcome)), p)

/-- The three flows of a result on the reliable lane. -/
def enqueueAll (p : Publisher P) (encoded : EncodedResult (P := P)) :
    Except P.Failure PublishOutcome × Publisher P :=
  match p.enqueueReliable encoded.result compactRigFlow .critical encoded.compact with
  | (.error e, p) => (.error e, p)
  | (.ok compact, p) =>
    match p.enqueueReliable encoded.result coreResultFlow .high encoded.core with
    | (.error e, p) => (.error e, p)
    | (.ok core, p) =>
      match p.enqueueGeometry encoded.result encoded.geometry with
      | (.error e, p) => (.error e, p)
      | (.ok geometry, p) => (.ok ⟨compact, singleFrameBatch core, geometry⟩, p)

/-- The end of `try_send_latest` without datagrams. -/
def sendReliable (connection : NtpConnection σ) (p : Publisher P) (s : σ)
    (encoded : EncodedResult (P := P)) : Except P.Failure PublishOutcome × Publisher P × σ :=
  match p.flushReliable connection s with
  | (.error e, p, s) => (.error e, p, s)
  | (.ok (), p, s) =>
    match p.enqueueAll encoded with
    | (.error e, p) => (.error e, p, s)
    | (.ok outcome, p) =>
      -- When this flush fails, what is left stays queued and the sequence is not recorded.
      match p.flushReliable connection s with
      | (.error e, p, s) => (.error e, p, s)
      | (.ok (), p, s) =>
        (.ok outcome, { p with lastPublishedSequence := some encoded.result.sequence }, s)

/-- `send_fragmented` for one flow of a result. -/
def sendFragments (connection : NtpConnection σ) (p : Publisher P) (s : σ) (result : P.Result)
    (flow : RealtimeFlowId) (deadline : ℕ) (priority : RealtimePriority) (payload : Bytes) :
    Except P.Failure FragmentBatchOutcome × σ :=
  sendFragmented connection.toLatestConnection s {
    flow, generation := result.generation, sequence := result.sequence, deadline, priority, payload
    config := p.config }

/-- The geometry of a result as fragments, if it is due. -/
def sendGeometry (connection : NtpConnection σ) (p : Publisher P) (s : σ) (result : P.Result)
    (deadline : ℕ) : Option Bytes → Except P.Failure (Option FragmentBatchOutcome) × σ
  | none => (.ok none, s)
  | some payload =>
    match p.sendFragments connection s result geometryFlow deadline .disposable payload with
    | (.error e, s) => (.error e, s)
    | (.ok outcome, s) => (.ok (some outcome), s)

/-- The end of `try_send_latest` with datagrams. -/
def sendDatagrams (connection : NtpConnection σ) (p : Publisher P) (s : σ)
    (encoded : EncodedResult (P := P)) (deadline : ℕ) :
    Except P.Failure PublishOutcome × Publisher P × σ :=
  let result := encoded.result
  match connection.maxDatagramPayload s with
  | none => (.error .datagramsUnsupported, p, s)
  | some maxPayload =>
    if maxPayload < encoded.compact.length then (.error .payloadLimit, p, s)
    else match connection.trySendLatest s {
        flow := compactRigFlow, generation := result.generation, sequence := result.sequence
        deadline, priority := .critical, payload := encoded.compact } with
      | (.error e, s) => (.error (.transport e), p, s)
      -- The compact frame cannot be taken back when the core or the geometry is refused.
      | (.ok compact, s) =>
        match p.sendFragments connection s result coreResultFlow deadline .high encoded.core with
        | (.error e, s) => (.error e, p, s)
        | (.ok core, s) =>
          match p.sendGeometry connection s result deadline encoded.geometry with
          | (.error e, s) => (.error e, p, s)
          | (.ok geometry, s) => (.ok ⟨compact, core, geometry⟩,
              { p with lastPublishedSequence := some result.sequence }, s)

/-- The clock is read for the rate and, later, for the deadline. -/
def trySendLatest (connection : NtpConnection σ) (p : Publisher P) (s : σ) (result : P.Result)
    (now later : ℕ) : Except P.Failure PublishOutcome × Publisher P × σ :=
  match p.prepare result now with
  | (.error e, p) => (.error e, p, s)
  | (.ok encoded, p) =>
    if p.transportMode = .reliableLatestOnly then p.sendReliable connection s encoded
    else p.sendDatagrams connection s encoded (later+p.config.resultDeadline)

/-- The new connection is `connection` in the state `fresh`; each frame window reads the clock. -/
def resetForReconnect (connection : NtpConnection σ) (p : Publisher P) (s fresh : σ)
    (metadata : ConnectionMetadata) (authorization : NtpAuthorization) (now later : ℕ) :
    Except P.Failure Unit × Publisher P × σ :=
  match validateConnectionAuthorization metadata authorization .publisher with
  | .error e => (.error e, p, s)
  | .ok () =>
    if authorization.linkSessionId = p.authorization.linkSessionId then
      (.error .sessionBindingMismatch, p, s)
    else (.ok (), { p with
      authorization, transportMode := Ntp.transportMode connection fresh, remoteHello := false
      pending := none, pendingAccepted := false, active := none, playback := .stopped, outbox := []
      -- The count of replaced frames and the scratch buffers are kept.
      reliable := { p.reliable with pending := ∅ }
      reconfigureTimes := []
      frameWindowStarted := now, frameWindowCount := 0
      sustainedWindowStarted := later, sustainedFrameCount := 0
      rateLimited := 0, lastPublishedSequence := none, geometryRequested := false
      lastReport := none }, fresh)

end Publisher

end MutsukiLink.Ntp
