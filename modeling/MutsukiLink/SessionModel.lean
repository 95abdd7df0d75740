import MutsukiLink.ControlModel
import MutsukiLink.DataCodec
import MutsukiLink.HandshakeModel
import MutsukiLink.RegistryModel

/-! An established session (`session.rs`) with its channel map (`control.rs`), its event bus and
its data plane over the multiplexer. -/
namespace MutsukiLink
open WireBytes
open Std (ExtTreeMap ExtTreeSet TransOrd TransCmp LawfulEqOrd)

def maxSessionChannelMappings : ℕ := 128

namespace LinkControlError

def invalidChannelMapping : LinkControlError :=
  ⟨.channel, 1, some .channelAccepted, .never, "session channel mapping is invalid"⟩

def duplicateChannelMapping : LinkControlError :=
  ⟨.channel, 2, some .channelAccepted, .never,
    "session channel mapping conflicts with an existing binding"⟩

def channelMappingLimit : LinkControlError :=
  ⟨.resource, 1, some .channelAccepted, .never, "session channel mapping limit exceeded"⟩

def sessionNotActive (operation : LinkControlOpcode) : LinkControlError :=
  ⟨.control, 9, some operation, .reconnect, "control operation requires an active session"⟩

end LinkControlError

structure SessionChannelBinding where
  channelId : ChannelId
  generation : ChannelGeneration
deriving DecidableEq, Repr

structure SessionChannelMap where
  maximum : ℕ
  byProtocol : ExtTreeMap (ProtocolStableId × ProtocolChannelId) SessionChannelBinding
  bySession : ExtTreeMap ChannelId (ProtocolStableId × ProtocolChannelId × ChannelGeneration)
  retired : ExtTreeSet ChannelId

namespace SessionChannelMap

def new (maximum : ℕ) : Except LinkControlError SessionChannelMap :=
  if maximum = 0 ∨ maxSessionChannelMappings < maximum then .error .limitExceeded
  else .ok { maximum, byProtocol := ∅, bySession := ∅, retired := ∅ }

def validateBind (m : SessionChannelMap) (accepted : AcceptChannel) :
    Except LinkControlError Unit :=
  if accepted.protocolChannelId.val = 0 ∨ accepted.sessionChannelId.val = 0 then
    .error .invalidChannelMapping
  else if m.byProtocol.contains (accepted.protocolId, accepted.protocolChannelId) ∨
      m.bySession.contains accepted.sessionChannelId ∨
      m.retired.contains accepted.sessionChannelId then
    .error .duplicateChannelMapping
  else if m.maximum ≤ m.byProtocol.size+m.retired.size then .error .channelMappingLimit
  else .ok ()

def bindValidated (m : SessionChannelMap) (accepted : AcceptChannel) :
    SessionChannelBinding × SessionChannelMap :=
  let binding : SessionChannelBinding := ⟨accepted.sessionChannelId, .initial⟩
  (binding, { m with
    byProtocol := m.byProtocol.insert (accepted.protocolId, accepted.protocolChannelId) binding
    bySession := m.bySession.insert accepted.sessionChannelId
      (accepted.protocolId, accepted.protocolChannelId, binding.generation) })

def unbind (m : SessionChannelMap) (sessionChannelId : ChannelId) :
    Option (ProtocolStableId × ProtocolChannelId) × SessionChannelMap :=
  match m.bySession[sessionChannelId]? with
  | none => (none, m)
  | some (protocolId, protocolChannelId, _) =>
    (some (protocolId, protocolChannelId), { m with
      byProtocol := m.byProtocol.erase (protocolId, protocolChannelId)
      bySession := m.bySession.erase sessionChannelId
      retired := m.retired.insert sessionChannelId })

end SessionChannelMap

inductive SessionState where
  | connecting | handshaking | established | draining | closed | failed
deriving DecidableEq, Repr

inductive CloseReason where
  | graceful | localAbort | remoteClosed | timeout | authenticationFailed | protocolViolation
  | transportFailure
deriving DecidableEq, Repr

inductive NewSessionReason where
  | noResumeRequested | tokenRejected | tokenExpired | peerMismatch | limitsExceeded
deriving DecidableEq, Repr

inductive SessionContinuity where
  | newSession (reason : NewSessionReason)
  | resumed (previousSessionId : SessionId)
deriving DecidableEq, Repr

inductive TransportKind where
  | localTransport | quic | tcp
  | custom (name : String)
deriving DecidableEq, Repr

inductive LivenessState where
  | healthy | latencyElevated | temporarilyUnreachable | dead | peerClosed
deriving DecidableEq, Repr

structure ConnectionQuality where
  roundTripMillis : Option UInt32 := none
  jitterMillis : Option UInt32 := none
  lossPerMillion : Option UInt32 := none
  retransmitPerMillion : Option UInt32 := none
  sendQueuePressurePerMillion : UInt32 := 0
  transmitBytesPerSecond : UInt64 := 0
  receiveBytesPerSecond : UInt64 := 0
  consecutiveFailures : UInt16 := 0
  transport : Option TransportKind := none
  liveness : LivenessState := .healthy
deriving DecidableEq, Repr

structure SessionInfo where
  sessionId : SessionId
  peerId : PeerId
  protocols : List ProtocolSelection
  continuity : SessionContinuity
  quality : ConnectionQuality
  closeReason : Option CloseReason
deriving DecidableEq, Repr

inductive SessionEvent where
  | stateChanged (state : SessionState)
  | continuityChanged (continuity : SessionContinuity)
  | qualityChanged (quality : ConnectionQuality)
  | closed (reason : CloseReason)
  | eventsDropped (count : ℕ)
deriving DecidableEq, Repr

structure EventSubscriberId where
  val : ℕ
deriving DecidableEq, Repr

instance : Ord EventSubscriberId := ⟨compareOn EventSubscriberId.val⟩

instance : TransOrd EventSubscriberId :=
  inferInstanceAs (TransCmp (compareOn EventSubscriberId.val))

instance : LawfulEqOrd EventSubscriberId :=
  OrderedMap.lawfulEq_compareOn (by rintro ⟨a⟩ ⟨b⟩ h; exact congrArg _ h)

structure Subscriber where
  queue : List SessionEvent
  capacity : ℕ
  dropped : ℕ
deriving DecidableEq, Repr

/-- `next_id` and the drop counts are `u64`: the first may not pass the maximum, the second stays
there. -/
structure SessionEventBus where
  maxSubscribers : ℕ
  nextId : ℕ
  subscribers : ExtTreeMap EventSubscriberId Subscriber

namespace SessionEventBus

def new (maxSubscribers : ℕ) : Except LinkError SessionEventBus :=
  if maxSubscribers = 0 then .error (.invalidInput "event subscriber limit must be positive")
  else .ok { maxSubscribers, nextId := 1, subscribers := ∅ }

def subscribe (b : SessionEventBus) (capacity : ℕ) :
    Except LinkError EventSubscriberId × SessionEventBus :=
  if capacity = 0 then (.error (.invalidInput "event queue capacity must be positive"), b)
  else if b.maxSubscribers ≤ b.subscribers.size then
    (.error (.limitExceeded .eventSubscribers b.maxSubscribers), b)
  else if b.nextId = u64Max then (.error .closed, b)
  else
    (.ok ⟨b.nextId⟩, { b with
      nextId := b.nextId+1
      subscribers := b.subscribers.insert ⟨b.nextId⟩ { queue := [], capacity, dropped := 0 } })

/-- The body of the loop in `publish`. -/
def deliver (event : SessionEvent) (s : Subscriber) : Subscriber :=
  -- A full queue gives up its oldest event and counts it.
  if s.queue.length = s.capacity then
    { s with queue := s.queue.tail ++ [event], dropped := min (s.dropped+1) u64Max }
  else { s with queue := s.queue ++ [event] }

def publish (b : SessionEventBus) (event : SessionEvent) : SessionEventBus :=
  { b with subscribers := b.subscribers.map fun _ s => deliver event s }

def next (b : SessionEventBus) (id : EventSubscriberId) : Option SessionEvent × SessionEventBus :=
  match b.subscribers[id]? with
  | none => (none, b)
  | some s =>
    -- What was lost is reported before what is left.
    if 0 < s.dropped then
      (some (.eventsDropped s.dropped),
        { b with subscribers := b.subscribers.insert id { s with dropped := 0 } })
    else
      (s.queue.head?,
        { b with subscribers := b.subscribers.insert id { s with queue := s.queue.tail } })

def unsubscribe (b : SessionEventBus) (id : EventSubscriberId) : Bool × SessionEventBus :=
  (b.subscribers.contains id, { b with subscribers := b.subscribers.erase id })

end SessionEventBus

inductive SessionChannelOpenError where
  | control (error : LinkControlError)
  | dataMode (error : DataCodecError)
  | multiplexer (error : LinkError)
deriving DecidableEq, Repr

structure Session where
  state : SessionState
  info : SessionInfo
  events : SessionEventBus
  multiplexer : Multiplexer
  controlMode : ControlModeGuard
  dataMode : DataModeGuard
  channelMappings : SessionChannelMap

def NegotiatedSession.controlModeGuard (n : NegotiatedSession) : ControlModeGuard :=
  ⟨ControlIdentityMode.negotiate n.linkCapabilities⟩

def DataModeGuard.validateLegacy (guard : DataModeGuard) : Except DataCodecError Unit :=
  if guard.mode = .legacyFullChannelKey then .ok ()
  else .error DataCodecErrorKind.modeMismatch.error

def ValidatedChannel.acceptedMapping (v : ValidatedChannel) : AcceptChannel :=
  ⟨v.protocolId, v.protocolChannelId, v.config.id⟩

namespace Session

def established (negotiated : NegotiatedSession) (muxLimits : MultiplexerLimits)
    (maxEventSubscribers : ℕ) : Except LinkError Session :=
  let controlMode := negotiated.controlModeGuard
  match SessionEventBus.new maxEventSubscribers with
  | .error e => .error e
  | .ok events =>
    match Multiplexer.restricted negotiated.sessionId muxLimits
        (negotiated.protocols.map fun protocol => (protocol.stableId, protocol.version)) with
    | .error e => .error e
    | .ok multiplexer =>
      match SessionChannelMap.new maxSessionChannelMappings with
      | .error _ => .error (.invalidInput "session channel mapping limits are invalid")
      | .ok channelMappings => .ok {
          state := .established
          info := {
            sessionId := negotiated.sessionId, peerId := negotiated.remote.peerId
            protocols := negotiated.protocols, continuity := .newSession .noResumeRequested
            quality := {}, closeReason := none }
          events, multiplexer, controlMode
          dataMode := ⟨DataIdentityMode.negotiate controlMode.mode negotiated.linkCapabilities⟩
          channelMappings }

def active (s : Session) : Bool := s.state == .established || s.state == .draining

def ensureActive (s : Session) : Except LinkError Unit :=
  if s.active then .ok () else .error .closed

def validatedChannelMatchesSession (s : Session) (v : ValidatedChannel) : Bool :=
  v.config.key.protocolId == v.protocolId &&
    v.config.key.protocolChannelId == v.protocolChannelId &&
    v.config.generation == .initial && v.config.maxFrameBytes == v.maxFrameBytes &&
    v.config.maxStreamBytes == v.maxStreamBytes && v.config.discardable == v.discardable &&
    s.info.protocols.any fun protocol =>
      protocol.stableId == v.protocolId && protocol.version == v.config.key.version &&
        protocol.schema == v.schema && protocol.capabilities == v.capabilities

/-- `channel descriptor` or `legacy channel descriptor` for the two ways to open one. -/
def descriptorNotBound (message : String) : SessionChannelOpenError :=
  .control ⟨.security, 2, some .openChannel, .never, message⟩

def openValidatedChannel (s : Session) (v : ValidatedChannel) :
    Except SessionChannelOpenError SessionChannelBinding × Session :=
  if !s.active then (.error (.control (.sessionNotActive .openChannel)), s)
  else match s.controlMode.validateTyped with
    | .error e => (.error (.control e), s)
    | .ok () =>
      match s.dataMode.validateCompact with
      | .error e => (.error (.dataMode e), s)
      | .ok () =>
        let accepted := v.acceptedMapping
        if !s.validatedChannelMatchesSession v then
          (.error (descriptorNotBound
            "channel descriptor is not bound to this negotiated session"), s)
        -- The map is asked before the multiplexer opens the channel and written after it.
        else match s.channelMappings.validateBind accepted with
          | .error e => (.error (.control e), s)
          | .ok () =>
            match s.multiplexer.openChannel v.config with
            | (.error e, multiplexer) => (.error (.multiplexer e), { s with multiplexer })
            | (.ok (), multiplexer) =>
              let (binding, channelMappings) := s.channelMappings.bindValidated accepted
              (.ok binding, { s with multiplexer, channelMappings })

def openLegacyValidatedChannel (s : Session) (v : ValidatedChannel) :
    Except SessionChannelOpenError Unit × Session :=
  if !s.active then (.error (.control (.sessionNotActive .openChannel)), s)
  else match s.dataMode.validateLegacy with
    | .error e => (.error (.dataMode e), s)
    | .ok () =>
      if !s.validatedChannelMatchesSession v then
        (.error (descriptorNotBound "legacy channel descriptor is not bound to this session"), s)
      else match s.multiplexer.openChannel v.config with
        | (.error e, multiplexer) => (.error (.multiplexer e), { s with multiplexer })
        | (.ok (), multiplexer) => (.ok (), { s with multiplexer })

def closeChannel (s : Session) (channelId : ChannelId) : Except LinkError ℕ × Session :=
  match s.multiplexer.closeChannel channelId with
  | (.error e, multiplexer) => (.error e, { s with multiplexer })
  -- A legacy channel has no mapping; `unbind` then changes nothing.
  | (.ok discarded, multiplexer) =>
    (.ok discarded,
      { s with multiplexer, channelMappings := (s.channelMappings.unbind channelId).2 })

def updateQuality (s : Session) (quality : ConnectionQuality) : Except LinkError Unit × Session :=
  match s.ensureActive with
  | .error e => (.error e, s)
  | .ok () => (.ok (), { s with
      info := { s.info with quality }, events := s.events.publish (.qualityChanged quality) })

def reportContinuity (s : Session) (continuity : SessionContinuity) :
    Except LinkError Unit × Session :=
  match s.ensureActive with
  | .error e => (.error e, s)
  | .ok () => (.ok (), { s with
      info := { s.info with continuity }
      events := s.events.publish (.continuityChanged continuity) })

def beginDrain (s : Session) : Except LinkError Unit × Session :=
  if s.state ≠ .established then
    (.error (.invalidState "only an established session can begin draining"), s)
  else (.ok (), { s with
    state := .draining, events := s.events.publish (.stateChanged .draining) })

def close (s : Session) (reason : CloseReason) (state : SessionState) : Session :=
  { s with
    state, info := { s.info with closeReason := some reason }
    events := (s.events.publish (.stateChanged state)).publish (.closed reason) }

def finishDrain (s : Session) : Except LinkError Unit × Session :=
  -- Nothing is discarded on this way to the end.
  if s.state ≠ .draining ∨ s.multiplexer.pendingFrames ≠ 0 then
    (.error (.invalidState "drain can finish only after all queued frames are sent"), s)
  else (.ok (), s.close .graceful .closed)

/-- `abort` and `fail`, which differ in the reason and the state they leave. -/
def terminate (s : Session) (reason : CloseReason) (state : SessionState) : Session :=
  -- A session ends once; later calls are silent.
  if s.state = .closed ∨ s.state = .failed then s
  else Session.close { s with multiplexer := (s.multiplexer.discardAll).2 } reason state

def abort (s : Session) : Session := s.terminate .localAbort .closed

def fail (s : Session) (reason : CloseReason) : Session := s.terminate reason .failed

end Session

/-- The calls of `SessionDataPlane`. -/
inductive DataPlaneOp where
  | enqueue (envelope : Envelope)
  | enqueueDiscardable (envelope : Envelope)
  | enqueueControl (payload : Bytes)
  | nextOutbound
  | cancelChannel (id : ChannelId)
deriving DecidableEq, Repr

/-- The calls of the bus behind `Session::events`. -/
inductive EventBusOp where
  | subscribe (capacity : ℕ)
  | publish (event : SessionEvent)
  | next (id : EventSubscriberId)
  | unsubscribe (id : EventSubscriberId)
deriving DecidableEq, Repr

inductive SessionCall where
  | openValidatedChannel (v : ValidatedChannel)
  | openLegacyValidatedChannel (v : ValidatedChannel)
  | closeChannel (id : ChannelId)
  | updateQuality (quality : ConnectionQuality)
  | reportContinuity (continuity : SessionContinuity)
  | beginDrain
  | finishDrain
  | abort
  | fail (reason : CloseReason)
  | dataPlane (op : DataPlaneOp)
  | events (op : EventBusOp)
deriving DecidableEq, Repr

inductive SessionReply where
  | bound (result : Except SessionChannelOpenError SessionChannelBinding)
  | opened (result : Except SessionChannelOpenError Unit)
  | removed (result : Except LinkError ℕ)
  | done (result : Except LinkError Unit)
  | admission (result : Except LinkError QueueAdmission)
  | outbound (frame : Option OutboundFrame)
  | subscribed (result : Except LinkError EventSubscriberId)
  | event (event : Option SessionEvent)
  | unsubscribed (known : Bool)
  | nothing

namespace Session

/-- A call of the data plane that asks for an active session first. -/
def whileActive {α : Type} (s : Session) (reply : Except LinkError α → SessionReply)
    (call : Multiplexer → Except LinkError α × Multiplexer) : SessionReply × Session :=
  match s.ensureActive with
  | .error e => (reply (.error e), s)
  | .ok () =>
    let (result, multiplexer) := call s.multiplexer
    (reply result, { s with multiplexer })

def dataPlane (s : Session) : DataPlaneOp → SessionReply × Session
  | .enqueue envelope => s.whileActive .done fun m => m.enqueue envelope
  | .enqueueDiscardable envelope => s.whileActive .admission fun m => m.enqueueDiscardable envelope
  | .enqueueControl payload => s.whileActive .done fun m => m.enqueueControl payload
  -- Frames leave in any state: a drain has to empty the queues.
  | .nextOutbound =>
    let (frame, multiplexer) := s.multiplexer.nextOutbound
    (.outbound frame, { s with multiplexer })
  | .cancelChannel id => s.whileActive .removed fun m => m.cancelChannel id

def eventBus (s : Session) : EventBusOp → SessionReply × Session
  | .subscribe capacity =>
    let (result, events) := s.events.subscribe capacity
    (.subscribed result, { s with events })
  | .publish event => (.nothing, { s with events := s.events.publish event })
  | .next id =>
    let (event, events) := s.events.next id
    (.event event, { s with events })
  | .unsubscribe id =>
    let (known, events) := s.events.unsubscribe id
    (.unsubscribed known, { s with events })

/-- One call of the public interface. -/
def step (s : Session) : SessionCall → SessionReply × Session
  | .openValidatedChannel v => (s.openValidatedChannel v).map .bound id
  | .openLegacyValidatedChannel v => (s.openLegacyValidatedChannel v).map .opened id
  | .closeChannel id => (s.closeChannel id).map .removed (fun s => s)
  | .updateQuality quality => (s.updateQuality quality).map .done id
  | .reportContinuity continuity => (s.reportContinuity continuity).map .done id
  | .beginDrain => s.beginDrain.map .done id
  | .finishDrain => s.finishDrain.map .done id
  | .abort => (.nothing, s.abort)
  | .fail reason => (.nothing, s.fail reason)
  | .dataPlane op => s.dataPlane op
  | .events op => s.eventBus op

end Session

end MutsukiLink
