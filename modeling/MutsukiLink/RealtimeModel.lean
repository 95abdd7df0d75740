import Mathlib.Data.List.MinMax
import Mathlib.Data.Prod.Lex
import Mathlib.Data.UInt
import Mathlib.Order.OrderDual
import MutsukiLink.OrderedMap
import MutsukiLink.WireBytes

/-! The latest-only send queue and the datagram format (`realtime.rs`). An `Instant` is a number of
nanoseconds, and a deque is a list with its front first. -/
namespace MutsukiLink
open Std WireBytes

inductive TransportErrorKind where
  | wouldBlock | timedOut | cancelled | closed | aborted | messageTooLarge | unsupported
  | addressInUse | other
deriving DecidableEq, Repr

structure TransportError where
  kind : TransportErrorKind
  publicMessage : String
deriving DecidableEq, Repr

def invalidRealtime (message : String) : TransportError := ⟨.other, message⟩

def realtimeMagic : Bytes := [77, 76, 82, 68]
def realtimeVersion : UInt8 := 1
def realtimeDatagramHeaderLen : ℕ := 20

structure RealtimeFlowId where
  val : UInt16
deriving DecidableEq, Repr

instance : Ord RealtimeFlowId := ⟨compareOn RealtimeFlowId.val⟩

instance : TransOrd RealtimeFlowId := inferInstanceAs (TransCmp (compareOn RealtimeFlowId.val))

instance : LawfulEqOrd RealtimeFlowId :=
  OrderedMap.lawfulEq_compareOn (by rintro ⟨a⟩ ⟨b⟩ h; exact congrArg _ h)

inductive RealtimePriority where
  | critical | high | normal | disposable
deriving DecidableEq, Repr

namespace RealtimePriority

def code : RealtimePriority → UInt8
  | critical => 0
  | high => 1
  | normal => 2
  | disposable => 3

def fromCode : UInt8 → Except TransportError RealtimePriority
  | 0 => .ok critical
  | 1 => .ok high
  | 2 => .ok normal
  | 3 => .ok disposable
  | _ => .error (invalidRealtime "realtime priority is invalid")

/-- The derived order is the order of the codes. -/
def rank (p : RealtimePriority) : ℕ := p.code.toNat

def min (p q : RealtimePriority) : RealtimePriority := if q.rank < p.rank then q else p

end RealtimePriority

structure RealtimeDatagram where
  flow : RealtimeFlowId
  generation : UInt32
  sequence : UInt64
  deadline : ℕ
  priority : RealtimePriority
  payload : Bytes
deriving DecidableEq, Repr

structure QueuedRealtimeDatagram where
  flow : RealtimeFlowId
  generation : UInt32
  sequence : UInt64
  deadline : ℕ
  priority : RealtimePriority
  payload : Bytes
deriving DecidableEq, Repr

structure ReceivedRealtimeDatagram where
  flow : RealtimeFlowId
  generation : UInt32
  sequence : UInt64
  priority : RealtimePriority
  receivedAt : ℕ
  payload : Bytes
deriving DecidableEq, Repr

inductive SendOutcome where
  | enqueued | replacedOlder | droppedExpired | droppedCongested | unsupported
deriving DecidableEq, Repr

structure RealtimeQueueConfig where
  maxFlows : ℕ := 32
  maxDatagramsPerGroup : ℕ := 2048
  maxGroupBytes : ℕ := 8*1024*1024
deriving DecidableEq, Repr

def RealtimeQueueConfig.isValid (config : RealtimeQueueConfig) : Bool :=
  0 < config.maxFlows && 0 < config.maxDatagramsPerGroup && 0 < config.maxGroupBytes

/-- `u64::saturating_add`. -/
def saturatingAdd (a b : ℕ) : ℕ := min (a+b) (2^64-1)

/-- The counters of one flow that the send queue keeps. -/
structure RealtimeFlowTelemetry where
  queued : ℕ := 0
  sent : ℕ := 0
  sentBytes : ℕ := 0
  replaced : ℕ := 0
  expired : ℕ := 0
  congestionDropped : ℕ := 0
deriving DecidableEq, Repr

structure RealtimeTelemetry where
  queued : ℕ := 0
  pending : ℕ := 0
  sent : ℕ := 0
  sentBytes : ℕ := 0
  replaced : ℕ := 0
  expired : ℕ := 0
  congestionDropped : ℕ := 0
  rttUs : Option ℕ := none
  estimatedSendRateBps : Option ℕ := none
  congestionEvents : ℕ := 0
  currentDatagramPayload : Option ℕ := none
  maxDatagramPayload : ℕ := 0
  mtuChangeCount : ℕ := 0
  migrationCount : ℕ := 0
  reconnectCount : ℕ := 0
  flows : ExtTreeMap RealtimeFlowId RealtimeFlowTelemetry := ∅

structure PendingGroup where
  generation : UInt32
  sequence : UInt64
  deadline : ℕ
  priority : RealtimePriority
  datagrams : List Bytes
  payloadBytes : ℕ
  insertionOrder : UInt64
deriving DecidableEq, Repr

structure RealtimeSendQueue where
  config : RealtimeQueueConfig
  maxPayload : ℕ
  groups : ExtTreeMap RealtimeFlowId PendingGroup
  telemetry : RealtimeTelemetry
  nextInsertionOrder : UInt64
  transportCongestionEvents : ℕ

inductive DropReason where
  | replaced | expired | congested
deriving DecidableEq, Repr

inductive GroupOrder where
  | older | same | newer
deriving DecidableEq, Repr

def isNewerU32 (candidate current : UInt32) : Bool :=
  candidate-current ≠ 0 && candidate-current < 2^31

def isNewerU64 (candidate current : UInt64) : Bool :=
  candidate-current ≠ 0 && candidate-current < 2^63

def compareGroup (candidateGeneration : UInt32) (candidateSequence : UInt64)
    (currentGeneration : UInt32) (currentSequence : UInt64) : GroupOrder :=
  if candidateGeneration = currentGeneration then
    if candidateSequence = currentSequence then .same
    else if isNewerU64 candidateSequence currentSequence then .newer
    else .older
  else if isNewerU32 candidateGeneration currentGeneration then .newer
  else .older

/-- The length of a datagram on the wire, unless it overflows `usize`. -/
def wireLen (payload : Bytes) : Option ℕ :=
  if realtimeDatagramHeaderLen+payload.length < 2^64 then
    some (realtimeDatagramHeaderLen+payload.length)
  else none

namespace RealtimeSendQueue

def new (config : RealtimeQueueConfig) (maxPayload : ℕ) :
    Except TransportError RealtimeSendQueue :=
  if config.isValid = false ∨ maxPayload = 0 then
    .error (invalidRealtime "realtime queue limits must be positive")
  else .ok {
    config, maxPayload, groups := ∅, nextInsertionOrder := 0, transportCongestionEvents := 0
    telemetry := { currentDatagramPayload := some maxPayload, maxDatagramPayload := maxPayload } }

def pendingDatagrams (q : RealtimeSendQueue) : ℕ :=
  OrderedMap.sumBy (fun group => group.datagrams.length) q.groups

def congestionDroppedForFlow (q : RealtimeSendQueue) (flow : RealtimeFlowId) : ℕ :=
  (q.telemetry.flows[flow]?.map RealtimeFlowTelemetry.congestionDropped).getD 0

/-- A change of the counters, in total and of one flow, which may be its first. -/
def note (q : RealtimeSendQueue) (flow : RealtimeFlowId)
    (total : RealtimeTelemetry → RealtimeTelemetry)
    (stats : RealtimeFlowTelemetry → RealtimeFlowTelemetry) : RealtimeSendQueue :=
  let t := total q.telemetry
  { q with telemetry := { t with flows := t.flows.insert flow (stats (t.flows[flow]?.getD {})) } }

def noteQueued (q : RealtimeSendQueue) (flow : RealtimeFlowId) : RealtimeSendQueue :=
  q.note flow (fun t => { t with queued := saturatingAdd t.queued 1 })
    fun stats => { stats with queued := saturatingAdd stats.queued 1 }

def noteReplaced (q : RealtimeSendQueue) (flow : RealtimeFlowId) (count : ℕ) :
    RealtimeSendQueue :=
  q.note flow (fun t => { t with replaced := saturatingAdd t.replaced count })
    fun stats => { stats with replaced := saturatingAdd stats.replaced count }

def noteExpired (q : RealtimeSendQueue) (flow : RealtimeFlowId) (count : ℕ) : RealtimeSendQueue :=
  q.note flow (fun t => { t with expired := saturatingAdd t.expired count })
    fun stats => { stats with expired := saturatingAdd stats.expired count }

def noteCongestionDrop (q : RealtimeSendQueue) (flow : RealtimeFlowId) (count : ℕ) :
    RealtimeSendQueue :=
  q.note flow (fun t => { t with congestionDropped := saturatingAdd t.congestionDropped count })
    fun stats => { stats with congestionDropped := saturatingAdd stats.congestionDropped count }

def dropFlowGroup (q : RealtimeSendQueue) (flow : RealtimeFlowId) (reason : DropReason) :
    ℕ × RealtimeSendQueue :=
  match q.groups[flow]? with
  | none => (0, q)
  | some group =>
    let count := group.datagrams.length
    let q := { q with groups := q.groups.erase flow }
    (count, match reason with
      | .replaced => q.noteReplaced flow count
      | .expired => q.noteExpired flow count
      | .congested => q.noteCongestionDrop flow count)

/-- The groups of several flows are dropped one after the other. -/
def dropFlowGroups (q : RealtimeSendQueue) (flows : List RealtimeFlowId) (reason : DropReason) :
    ℕ × RealtimeSendQueue :=
  flows.foldl (fun (dropped, q) flow => ((q.dropFlowGroup flow reason).map (dropped+·) id)) (0, q)

/-- The flows whose group passes a test, in the order of the map. -/
def flowsWhere (q : RealtimeSendQueue) (test : PendingGroup → Bool) : List RealtimeFlowId :=
  (q.groups.toList.filter fun entry => test entry.2).map Prod.fst

def expire (q : RealtimeSendQueue) (now : ℕ) : ℕ × RealtimeSendQueue :=
  q.dropFlowGroups (q.flowsWhere fun group => group.deadline ≤ now) .expired

/-- `max_by_key` takes the last of several greatest. -/
def evictLowerPriority (q : RealtimeSendQueue) (incoming : RealtimePriority) :
    Bool × RealtimeSendQueue :=
  let lower := q.groups.toList.filter fun entry => incoming.rank < entry.2.priority.rank
  match lower.reverse.argmax fun entry =>
      toLex (entry.2.priority.rank, OrderDual.toDual entry.2.insertionOrder.toNat) with
  | some (flow, _) => (true, (q.dropFlowGroup flow .congested).2)
  | none => (false, q)

/-- The caller has found the group of the flow. -/
def appendToGroup (q : RealtimeSendQueue) (datagram : RealtimeDatagram) (group : PendingGroup) :
    Except TransportError SendOutcome × RealtimeSendQueue :=
  let payloadBytes := group.payloadBytes+datagram.payload.length
  if 2^64 ≤ payloadBytes then (.error (invalidRealtime "realtime group size overflow"), q)
  else if q.config.maxDatagramsPerGroup ≤ group.datagrams.length ∨
      q.config.maxGroupBytes < payloadBytes then
    -- The whole group is given up with the datagram, as an incomplete group is of no use.
    (.ok .droppedCongested, { q with groups := q.groups.erase datagram.flow }.noteCongestionDrop
      datagram.flow (group.datagrams.length+1))
  else
    (.ok .enqueued, { q with groups := q.groups.insert datagram.flow { group with
        deadline := min group.deadline datagram.deadline
        priority := group.priority.min datagram.priority
        datagrams := group.datagrams ++ [datagram.payload]
        payloadBytes } }.noteQueued datagram.flow)

/-- The end of `enqueue`: the datagram starts a group of its own. -/
def startGroup (q : RealtimeSendQueue) (datagram : RealtimeDatagram) :
    Except TransportError SendOutcome × RealtimeSendQueue :=
  let (replaced, q) := q.dropFlowGroup datagram.flow .replaced
  let q := { q with
    nextInsertionOrder := q.nextInsertionOrder+1
    groups := q.groups.insert datagram.flow {
      generation := datagram.generation, sequence := datagram.sequence
      deadline := datagram.deadline, priority := datagram.priority
      datagrams := [datagram.payload], payloadBytes := datagram.payload.length
      insertionOrder := q.nextInsertionOrder } }
  (.ok (if 0 < replaced then .replacedOlder else .enqueued), q.noteQueued datagram.flow)

def enqueue (q : RealtimeSendQueue) (datagram : RealtimeDatagram) (now : ℕ) :
    Except TransportError SendOutcome × RealtimeSendQueue :=
  let q := (q.expire now).2
  if q.maxPayload < datagram.payload.length then
    (.error ⟨.messageTooLarge, "realtime datagram exceeds path payload limit"⟩, q)
  else if datagram.deadline ≤ now then (.ok .droppedExpired, q.noteExpired datagram.flow 1)
  else match q.groups[datagram.flow]? with
    | some group =>
      match compareGroup datagram.generation datagram.sequence group.generation group.sequence with
      -- Late for its own flow; the source counts it as congestion.
      | .older => (.ok .droppedCongested, q.noteCongestionDrop datagram.flow 1)
      | .same => q.appendToGroup datagram group
      | .newer => q.startGroup datagram
    | none =>
      if q.config.maxFlows ≤ q.groups.size then
        -- Another flow has to go, but only one that is less urgent.
        match q.evictLowerPriority datagram.priority with
        | (false, q) => (.ok .droppedCongested, q.noteCongestionDrop datagram.flow 1)
        | (true, q) => q.startGroup datagram
      else q.startGroup datagram

/-- `min_by_key` takes the first of several smallest. -/
def nextFlow (q : RealtimeSendQueue) : Option RealtimeFlowId :=
  (q.groups.toList.argmin fun entry =>
    toLex (entry.2.priority.rank, toLex (entry.2.insertionOrder.toNat, entry.1.val.toNat))).map
      Prod.fst

def popFlow (q : RealtimeSendQueue) (flow : RealtimeFlowId) :
    Option QueuedRealtimeDatagram × RealtimeSendQueue :=
  match q.groups[flow]? with
  | none => (none, q)
  | some group =>
    match group.datagrams with
    | [] => (none, q)
    | payload :: datagrams =>
      (some {
        flow, generation := group.generation, sequence := group.sequence
        deadline := group.deadline, priority := group.priority, payload },
      { q with groups :=
          if datagrams = [] then q.groups.erase flow
          else q.groups.insert flow { group with datagrams } })

def peekNextWireLen (q : RealtimeSendQueue) (now : ℕ) : Option ℕ × RealtimeSendQueue :=
  let q := (q.expire now).2
  (do
    let flow ← q.nextFlow
    let group ← q.groups[flow]?
    let payload ← group.datagrams.head?
    wireLen payload, q)

def popNext (q : RealtimeSendQueue) (now : ℕ) :
    Option QueuedRealtimeDatagram × RealtimeSendQueue :=
  let q := (q.expire now).2
  match q.nextFlow with
  | none => (none, q)
  | some flow => q.popFlow flow

/-- The head of a group fits on the wire. -/
def headFits (maxWireLen : ℕ) (group : PendingGroup) : Bool :=
  (group.datagrams.head?.bind wireLen).any fun len => len ≤ maxWireLen

def popNextFitting (q : RealtimeSendQueue) (now maxWireLen : ℕ) :
    Option QueuedRealtimeDatagram × RealtimeSendQueue :=
  let q := (q.expire now).2
  match (q.groups.toList.map fun entry => entry.2.priority.rank).min? with
  | none => (none, q)
  | some priority =>
    -- Only the most urgent class is looked at: a group behind it does not overtake.
    let fitting := q.groups.toList.filter fun entry =>
      entry.2.priority.rank = priority && headFits maxWireLen entry.2
    match fitting.argmin fun entry =>
        toLex (entry.2.insertionOrder.toNat, entry.1.val.toNat) with
    | none => (none, q)
    | some (flow, _) => q.popFlow flow

def noteSent (q : RealtimeSendQueue) (datagram : QueuedRealtimeDatagram) : RealtimeSendQueue :=
  q.note datagram.flow
    (fun t => { t with
      sent := saturatingAdd t.sent 1
      sentBytes := saturatingAdd t.sentBytes datagram.payload.length })
    fun stats => { stats with
      sent := saturatingAdd stats.sent 1
      sentBytes := saturatingAdd stats.sentBytes datagram.payload.length }

def noteTransportCongestion (q : RealtimeSendQueue) : RealtimeSendQueue :=
  { q with telemetry := { q.telemetry with
      congestionEvents := saturatingAdd q.telemetry.congestionEvents 1 } }

def dropDisposableForCongestion (q : RealtimeSendQueue) : ℕ × RealtimeSendQueue :=
  q.dropFlowGroups (q.flowsWhere fun group => group.priority = .disposable) .congested

def setMaxPayload (q : RealtimeSendQueue) (maxPayload : ℕ) :
    Except TransportError Bool × RealtimeSendQueue :=
  if maxPayload = 0 then (.error (invalidRealtime "realtime payload limit must be positive"), q)
  else if maxPayload = q.maxPayload then (.ok false, q)
  else
    let previous := q.maxPayload
    let q := { q with
      maxPayload
      telemetry := { q.telemetry with
        currentDatagramPayload := some maxPayload
        maxDatagramPayload := max q.telemetry.maxDatagramPayload maxPayload
        mtuChangeCount := saturatingAdd q.telemetry.mtuChangeCount 1 } }
    -- A smaller path makes the groups with a longer datagram useless.
    if maxPayload < previous then
      (.ok true, (q.dropFlowGroups (q.flowsWhere fun group =>
        group.datagrams.any fun payload => maxPayload < payload.length) .congested).2)
    else (.ok true, q)

def noteNetworkMetrics (q : RealtimeSendQueue) (rttUs : ℕ) (estimatedSendRateBps : Option ℕ)
    (transportCongestionEvents : ℕ) : RealtimeSendQueue :=
  { q with
    telemetry := { q.telemetry with
      rttUs := some rttUs, estimatedSendRateBps
      congestionEvents := saturatingAdd q.telemetry.congestionEvents
        (transportCongestionEvents-q.transportCongestionEvents) }
    transportCongestionEvents }

def noteMigration (q : RealtimeSendQueue) : RealtimeSendQueue :=
  { q with telemetry := { q.telemetry with
      migrationCount := saturatingAdd q.telemetry.migrationCount 1 } }

def clearPending (q : RealtimeSendQueue) : RealtimeSendQueue := { q with groups := ∅ }

def resetForReconnect (q : RealtimeSendQueue) : RealtimeSendQueue :=
  let q := q.clearPending
  { q with telemetry := { q.telemetry with
      reconnectCount := saturatingAdd q.telemetry.reconnectCount 1, pending := 0 } }

end RealtimeSendQueue

def encodeRealtimeDatagram (datagram : QueuedRealtimeDatagram) : Except TransportError Bytes :=
  match wireLen datagram.payload with
  | none => .error (invalidRealtime "realtime datagram size overflow")
  | some _ => .ok (realtimeMagic ++ ([realtimeVersion] ++ ([datagram.priority.code] ++
      (beBytes 2 datagram.flow.val.toNat ++ (beBytes 4 datagram.generation.toNat ++
        (beBytes 8 datagram.sequence.toNat ++ datagram.payload))))))

def decodeRealtimeDatagram (encoded : Bytes) (receivedAt : ℕ) :
    Except TransportError ReceivedRealtimeDatagram :=
  if encoded.length < realtimeDatagramHeaderLen then
    .error (invalidRealtime "realtime datagram is truncated")
  else if encoded.take 4 ≠ realtimeMagic ∨ encoded.getD 4 0 ≠ realtimeVersion then
    .error (invalidRealtime "realtime datagram header is invalid")
  else match RealtimePriority.fromCode (encoded.getD 5 0) with
    | .error e => .error e
    | .ok priority => .ok {
        flow := ⟨.ofNat (ofBeBytes ((encoded.drop 6).take 2))⟩
        generation := .ofNat (ofBeBytes ((encoded.drop 8).take 4))
        sequence := .ofNat (ofBeBytes ((encoded.drop 12).take 8))
        priority, receivedAt, payload := encoded.drop realtimeDatagramHeaderLen }

def realtimeFlowFromWire (encoded : Bytes) : Option RealtimeFlowId :=
  if realtimeDatagramHeaderLen ≤ encoded.length ∧ encoded.take 4 = realtimeMagic ∧
      encoded.getD 4 0 = realtimeVersion then
    some ⟨.ofNat (ofBeBytes ((encoded.drop 6).take 2))⟩
  else none

end MutsukiLink
