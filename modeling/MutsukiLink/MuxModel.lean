import MutsukiLink.ProtocolTypes
import MutsukiLink.RunHistory
import Mathlib.Data.List.MinMax
import Mathlib.Data.Prod.Lex
import Std.Data.ExtTreeSet

/-! The bounded channel multiplexer (`mux.rs`). A method on `&mut self` takes the state to
its result and the state it leaves; deques are lists with their front first. -/
namespace MutsukiLink
open Std WireBytes

structure ChannelId where
  val : UInt32
deriving DecidableEq, Repr

instance : Ord ChannelId := ⟨compareOn ChannelId.val⟩

instance : TransOrd ChannelId := inferInstanceAs (TransCmp (compareOn ChannelId.val))

instance : LawfulEqOrd ChannelId :=
  OrderedMap.lawfulEq_compareOn (by rintro ⟨a⟩ ⟨b⟩ h; exact congrArg _ h)

def controlChannelId : ChannelId := ⟨0⟩

structure ChannelGeneration where
  val : UInt32
deriving DecidableEq, Repr

def ChannelGeneration.initial : ChannelGeneration := ⟨1⟩

structure ChannelKey where
  protocolId : ProtocolStableId
  version : ProtocolVersion
  protocolChannelId : ProtocolChannelId
deriving DecidableEq, Repr

instance : Ord ChannelKey := ⟨compareOn fun k => (k.protocolId, k.version, k.protocolChannelId)⟩

instance : TransOrd ChannelKey := inferInstanceAs
  (TransCmp (compareOn fun k : ChannelKey => (k.protocolId, k.version, k.protocolChannelId)))

instance : LawfulEqOrd ChannelKey :=
  OrderedMap.lawfulEq_compareOn (by
    rintro ⟨a, b, c⟩ ⟨d, e, f⟩ h
    simpa using h)

inductive ChannelMode where
  | requestResponse | event | stream
deriving DecidableEq, Repr

structure ChannelConfig where
  key : ChannelKey
  id : ChannelId
  generation : ChannelGeneration
  mode : ChannelMode
  priorityHint : UInt8
  capacity : ℕ
  maxFrameBytes : ℕ
  maxStreamBytes : Option UInt64
  discardable : Bool
deriving DecidableEq, Repr

structure EnvelopeFlags where
  endOfStream : Bool
  cancelled : Bool
deriving DecidableEq, Repr

structure Envelope where
  sessionId : SessionId
  channelId : ChannelId
  generation : ChannelGeneration
  sequence : UInt64
  nestingDepth : UInt16
  flags : EnvelopeFlags
  payload : Bytes
deriving DecidableEq, Repr

inductive OutboundFrame where
  | control (payload : Bytes)
  | data (envelope : Envelope)
deriving DecidableEq, Repr

inductive QueueAdmission where
  | enqueued | droppedDiscardable
deriving DecidableEq, Repr

structure MultiplexerLimits where
  maxFrameBytes : ℕ := 1024*1024
  maxNestingDepth : UInt16 := 32
  maxChannels : ℕ := 64
  controlQueueCapacity : ℕ := 32
  maxTotalPendingFrames : ℕ := 512
deriving DecidableEq, Repr

structure ChannelState where
  config : ChannelConfig
  queue : List Envelope
  cancelled : Bool
  streamBytes : ℕ
  virtualFinish : ℕ
deriving DecidableEq, Repr

structure Multiplexer where
  sessionId : SessionId
  limits : MultiplexerLimits
  channels : ExtTreeMap ChannelId ChannelState
  keys : ExtTreeMap ChannelKey (List ChannelId)
  retiredChannels : ExtTreeSet ChannelId
  control : List Bytes
  ready : List ChannelId
  virtualTime : ℕ
  totalPending : ℕ
  allowedProtocols : Option (ExtTreeSet (ProtocolStableId × ProtocolVersion))

def u64Max : ℕ := 2^64-1
def u128Max : ℕ := 2^128-1

def priorityBands : ℕ := 8

/-- `payload_len.max(1) * 8` over the weight of the priority band, rounded up. -/
def schedulingCost (payloadLen : ℕ) (priorityHint : UInt8) : ℕ :=
  let bytes := max payloadLen 1
  let bandWidth := (255+priorityBands-1)/priorityBands
  let weight := priorityHint.toNat/bandWidth+1
  (min (bytes*priorityBands) u128Max+weight-1)/weight

namespace Multiplexer

def new (sessionId : SessionId) (limits : MultiplexerLimits) : Except LinkError Multiplexer :=
  if limits.maxFrameBytes = 0 ∨ limits.maxChannels = 0 ∨ limits.controlQueueCapacity = 0 ∨
      limits.maxTotalPendingFrames = 0 then
    .error (.invalidInput "multiplexer limits must be positive")
  else
    .ok {
      sessionId, limits, channels := ∅, keys := ∅, retiredChannels := ∅, control := [],
      ready := [], virtualTime := 0, totalPending := 0, allowedProtocols := none }

def restricted (sessionId : SessionId) (limits : MultiplexerLimits)
    (protocols : List (ProtocolStableId × ProtocolVersion)) : Except LinkError Multiplexer :=
  match new sessionId limits with
  | .error e => .error e
  | .ok m => .ok { m with allowedProtocols := some (ExtTreeSet.ofList protocols) }

def openChannel (m : Multiplexer) (config : ChannelConfig) :
    Except LinkError Unit × Multiplexer :=
  if config.id = controlChannelId then
    (.error (.invalidInput "channel zero is reserved for control"), m)
  else if config.generation.val = 0 ∨ config.capacity = 0 ∨ config.maxFrameBytes = 0 then
    (.error (.invalidInput "channel generation and limits must be positive"), m)
  else if config.discardable = true ∧ config.mode ≠ .event then
    (.error (.invalidInput "only event channels may be discardable"), m)
  else if decide (config.mode = .stream) ≠ config.maxStreamBytes.isSome then
    (.error (.invalidInput "stream byte limits must match channel mode"), m)
  else if m.allowedProtocols.any fun allowed =>
      !allowed.contains (config.key.protocolId, config.key.version) then
    (.error .namespaceConflict, m)
  -- A closed channel keeps its place: its id is never used again.
  else if m.limits.maxChannels ≤ m.channels.size+m.retiredChannels.size then
    (.error (.limitExceeded .channels m.limits.maxChannels), m)
  else if m.retiredChannels.contains config.id then
    (.error (.closedChannel config.id.val), m)
  else if m.channels.contains config.id then
    (.error .namespaceConflict, m)
  else
    (.ok (), { m with
      keys := m.keys.insert config.key (m.keys[config.key]?.getD [] ++ [config.id])
      channels := m.channels.insert config.id {
        config, queue := [], cancelled := false, streamBytes := 0,
        virtualFinish := m.virtualTime } })

def validatePayload (m : Multiplexer) (payload : Bytes) (nestingDepth : UInt16) :
    Except LinkError Unit :=
  if m.limits.maxFrameBytes < payload.length then
    .error (.limitExceeded .frameBytes m.limits.maxFrameBytes)
  else if m.limits.maxNestingDepth < nestingDepth then
    .error (.limitExceeded .nestingDepth m.limits.maxNestingDepth.toNat)
  else .ok ()

def validateEnvelopeIdentity (m : Multiplexer) (envelope : Envelope) : Except LinkError Unit :=
  if envelope.sessionId ≠ m.sessionId then .error .sessionMismatch
  else if envelope.channelId = controlChannelId then
    .error (.invalidInput "channel zero cannot carry a data envelope")
  else if m.retiredChannels.contains envelope.channelId then
    .error (.closedChannel envelope.channelId.val)
  else m.validatePayload envelope.payload envelope.nestingDepth

def closedOrUnknown (m : Multiplexer) (id : ChannelId) : LinkError :=
  if m.retiredChannels.contains id then .closedChannel id.val else .unknownChannel id.val

def enqueueControl (m : Multiplexer) (payload : Bytes) : Except LinkError Unit × Multiplexer :=
  match m.validatePayload payload 0 with
  | .error e => (.error e, m)
  | .ok () =>
    -- Only the own capacity counts here; the limit on all pending frames is for data.
    if m.limits.controlQueueCapacity ≤ m.control.length then
      (.error (.backpressure controlChannelId.val m.limits.controlQueueCapacity), m)
    else
      (.ok (), { m with control := m.control ++ [payload], totalPending := m.totalPending+1 })

/-- The stream byte limit of a channel, charged before the frame is queued. -/
def chargeStream (state : ChannelState) (payloadLen : ℕ) : Except LinkError ChannelState :=
  match state.config.maxStreamBytes with
  | none => .ok state
  | some maxStreamBytes =>
    if u64Max < payloadLen then .error (.limitExceeded .streamBytes u64Max)
    else
      let nextStreamBytes := min (state.streamBytes+payloadLen) u64Max
      if maxStreamBytes.toNat < nextStreamBytes then
        .error (.limitExceeded .streamBytes maxStreamBytes.toNat)
      else .ok { state with streamBytes := nextStreamBytes }

/-- The common tail of the two data enqueues: a channel that becomes backlogged joins
`ready` with its tag brought up to the virtual time. -/
def pushFrame (m : Multiplexer) (state : ChannelState) (envelope : Envelope) : Multiplexer :=
  if state.queue = [] then
    { m with
      ready := m.ready ++ [envelope.channelId]
      channels := m.channels.insert envelope.channelId { state with
        virtualFinish := max state.virtualFinish m.virtualTime, queue := [envelope] }
      totalPending := m.totalPending+1 }
  else
    { m with
      channels := m.channels.insert envelope.channelId { state with
        queue := state.queue ++ [envelope] }
      totalPending := m.totalPending+1 }

def enqueue (m : Multiplexer) (envelope : Envelope) : Except LinkError Unit × Multiplexer :=
  match m.validateEnvelopeIdentity envelope with
  | .error e => (.error e, m)
  | .ok () =>
    if m.limits.maxTotalPendingFrames ≤ m.totalPending then
      (.error (.limitExceeded .pendingFrames m.limits.maxTotalPendingFrames), m)
    else match m.channels[envelope.channelId]? with
      | none => (.error (.unknownChannel envelope.channelId.val), m)
      | some state =>
        if state.config.generation ≠ envelope.generation then
          (.error (.channelGenerationMismatch envelope.channelId.val), m)
        else if state.config.maxFrameBytes < envelope.payload.length then
          (.error (.limitExceeded .frameBytes state.config.maxFrameBytes), m)
        else if state.cancelled then
          (.error (.channelCancelled envelope.channelId.val), m)
        else if state.config.capacity ≤ state.queue.length then
          (.error (.backpressure envelope.channelId.val state.config.capacity), m)
        else match chargeStream state envelope.payload.length with
          -- The bytes are charged last, so a frame that is refused costs the stream nothing.
          | .error e => (.error e, m)
          | .ok state => (.ok (), m.pushFrame state envelope)

def enqueueDiscardable (m : Multiplexer) (envelope : Envelope) :
    Except LinkError QueueAdmission × Multiplexer :=
  match m.validateEnvelopeIdentity envelope with
  | .error e => (.error e, m)
  | .ok () =>
    match m.channels[envelope.channelId]? with
    | none => (.error (.unknownChannel envelope.channelId.val), m)
    | some state =>
      if state.config.generation ≠ envelope.generation then
        (.error (.channelGenerationMismatch envelope.channelId.val), m)
      else if state.config.maxFrameBytes < envelope.payload.length then
        (.error (.limitExceeded .frameBytes state.config.maxFrameBytes), m)
      else if state.config.mode ≠ .event ∨ state.config.discardable = false then
        (.error (.invalidInput "only event channels may discard frames under pressure"), m)
      else if state.cancelled then
        (.error (.channelCancelled envelope.channelId.val), m)
      -- Pressure is not an error on this path, and no stream bytes are charged.
      else if m.limits.maxTotalPendingFrames ≤ m.totalPending ∨
          state.config.capacity ≤ state.queue.length then
        (.ok .droppedDiscardable, m)
      else (.ok .enqueued, m.pushFrame state envelope)

/-- The position in `ready` and the tag of every backlogged channel. -/
def readyCandidates (m : Multiplexer) : List (ℕ × ℕ) :=
  m.ready.zipIdx.filterMap fun p =>
    m.channels[p.1]?.bind fun state => state.queue.head?.map fun _ => (p.2, state.virtualFinish)

/-- `min_by_key` with the key `(virtual_finish, index)`. -/
def selectReady (m : Multiplexer) : Option (ℕ × ℕ) :=
  m.readyCandidates.argmin fun candidate => toLex (candidate.2, candidate.1)

/-- One round of the loop in `next_outbound`: `inl` goes round again, `inr` returns. -/
def nextOutboundBody (m : Multiplexer) : Multiplexer ⊕ (Option OutboundFrame × Multiplexer) :=
  match m.selectReady with
  | none => .inr (none, { m with ready := [] })
  | some (index, _) =>
    match m.ready[index]? with
    | none => .inl m
    | some channelId =>
      let m := { m with ready := m.ready.eraseIdx index }
      match m.channels[channelId]? with
      | none => .inl m
      | some state =>
        match state.queue with
        | [] => .inl m
        | envelope :: queue =>
          let start := max state.virtualFinish m.virtualTime
          let cost := schedulingCost envelope.payload.length state.config.priorityHint
          -- The channel pays for the frame and goes to the back as long as it has more.
          .inr (some (.data envelope), { m with
            virtualTime := start
            channels := m.channels.insert channelId { state with
              queue, virtualFinish := min (start+cost) u128Max }
            ready := if queue = [] then m.ready else m.ready ++ [channelId]
            totalPending := m.totalPending-1 })

def nextOutboundLoop : ℕ → Multiplexer → Option OutboundFrame × Multiplexer
  | 0, m => (none, m)
  | fuel+1, m =>
    match m.nextOutboundBody with
    | .inl m => nextOutboundLoop fuel m
    | .inr r => r

def nextOutbound (m : Multiplexer) : Option OutboundFrame × Multiplexer :=
  match m.control with
  | payload :: control =>
    -- Control frames go first and cost nothing.
    (some (.control payload), { m with control, totalPending := m.totalPending-1 })
  -- Every round that goes on has taken an entry from `ready`.
  | [] => nextOutboundLoop (m.ready.length+1) m

def cancelChannel (m : Multiplexer) (id : ChannelId) : Except LinkError ℕ × Multiplexer :=
  match m.channels[id]? with
  | none => (.error (.unknownChannel id.val), m)
  | some state =>
    -- The channel stays open with an empty queue and takes no more frames.
    (.ok state.queue.length, { m with
      channels := m.channels.insert id { state with cancelled := true, queue := [] }
      ready := m.ready.filter (· ≠ id)
      totalPending := m.totalPending-state.queue.length })

/-- The key index without one channel, and without a list that becomes empty. -/
def dropKey (keys : ExtTreeMap ChannelKey (List ChannelId)) (key : ChannelKey)
    (id : ChannelId) : ExtTreeMap ChannelKey (List ChannelId) :=
  match keys[key]? with
  | none => keys
  | some ids =>
    if ids.filter (· ≠ id) = [] then keys.erase key else keys.insert key (ids.filter (· ≠ id))

def closeChannel (m : Multiplexer) (id : ChannelId) : Except LinkError ℕ × Multiplexer :=
  match m.channels[id]? with
  | none => (.error (m.closedOrUnknown id), m)
  | some state =>
    (.ok state.queue.length, { m with
      channels := m.channels.erase id
      ready := m.ready.filter (· ≠ id)
      totalPending := m.totalPending-state.queue.length
      keys := dropKey m.keys state.config.key id
      retiredChannels := m.retiredChannels.insert id })

def pendingFrames (m : Multiplexer) : ℕ := m.totalPending

def discardAll (m : Multiplexer) : ℕ × Multiplexer :=
  (m.totalPending, { m with
    control := []
    ready := []
    channels := m.channels.map fun _ state => { state with queue := [] }
    totalPending := 0 })

end Multiplexer

inductive MuxOp where
  | openChannel (config : ChannelConfig)
  | enqueueControl (payload : Bytes)
  | enqueue (envelope : Envelope)
  | enqueueDiscardable (envelope : Envelope)
  | nextOutbound
  | cancelChannel (id : ChannelId)
  | closeChannel (id : ChannelId)
  | discardAll
deriving DecidableEq, Repr

inductive MuxReply where
  | done (result : Except LinkError Unit)
  | admission (result : Except LinkError QueueAdmission)
  | outbound (frame : Option OutboundFrame)
  | removed (result : Except LinkError ℕ)
  | discarded (count : ℕ)

namespace Multiplexer

/-- One call of the public interface. -/
def step (m : Multiplexer) : MuxOp → MuxReply × Multiplexer
  | .openChannel config => ((m.openChannel config).map .done id)
  | .enqueueControl payload => ((m.enqueueControl payload).map .done id)
  | .enqueue envelope => ((m.enqueue envelope).map .done id)
  | .enqueueDiscardable envelope => ((m.enqueueDiscardable envelope).map .admission id)
  | .nextOutbound => ((m.nextOutbound).map .outbound id)
  | .cancelChannel channel => ((m.cancelChannel channel).map .removed id)
  | .closeChannel channel => ((m.closeChannel channel).map .removed id)
  | .discardAll => ((m.discardAll).map .discarded id)

/-- A multiplexer as one of its two constructors returns it. -/
inductive Fresh : Multiplexer → Prop
  | new {sessionId limits m} : Multiplexer.new sessionId limits = .ok m → Fresh m
  | restricted {sessionId limits protocols m} :
      Multiplexer.restricted sessionId limits protocols = .ok m → Fresh m

/-- `usize` arithmetic: what a call takes away from `total_pending`. -/
def pendingDecrement (m : Multiplexer) : MuxOp → ℕ
  | .nextOutbound => if (m.nextOutbound).1.isSome then 1 else 0
  | .cancelChannel id => (m.channels[id]?.map fun state => state.queue.length).getD 0
  | .closeChannel id => (m.channels[id]?.map fun state => state.queue.length).getD 0
  | _ => 0

end Multiplexer

end MutsukiLink
