import MutsukiLink.FramedModel
import MutsukiLink.RealtimeConservation

/-! The datagram half of a QUIC connection (`mutsuki-link-quic`): the options, the receive queue
that its reader task fills, and the loop that hands the send queue to the endpoint. What the
endpoint says about its path is an argument of every call. -/
namespace MutsukiLink
open Std WireBytes RunHistory

structure SocketAddr where
  ip : Bytes
  port : UInt16
deriving DecidableEq, Repr

structure QuicOptions where
  budget : TransportBudget := {}
  connectTimeout : ℕ := 10*1000000000
  enableDatagrams : Bool := true
  realtimeQueue : RealtimeQueueConfig := {}
  enableZeroRtt : Bool := false
deriving DecidableEq, Repr

def QuicOptions.validate (options : QuicOptions) : Except TransportError QuicOptions :=
  match options.budget.validate with
  | .error e => .error e
  | .ok _ =>
    if !options.realtimeQueue.isValid then
      .error ⟨.other, "realtime queue limits must be positive"⟩
    else if options.enableZeroRtt then
      .error ⟨.unsupported, "0-RTT is disabled for replay-sensitive Link control operations"⟩
    else .ok options

def unsupportedDatagram : TransportError := ⟨.unsupported, "QUIC datagrams are not available"⟩

inductive SendDatagramError where
  | tooLarge | unsupportedByPeer | disabled | connectionLost
deriving DecidableEq, Repr

def mapDatagramError : SendDatagramError → TransportError
  | .tooLarge => ⟨.messageTooLarge, "QUIC datagram exceeds path limit"⟩
  | .unsupportedByPeer | .disabled => unsupportedDatagram
  | .connectionLost => ⟨.closed, "QUIC connection is closed"⟩

/-- What the endpoint tells while a call runs. The free space of its send buffer and its answer to
a datagram may be others each time it is asked. -/
structure QuicPath where
  maxDatagramSize : Option ℕ
  remoteAddress : SocketAddr
  rttMicros : ℕ
  cwnd : ℕ
  congestionEvents : ℕ
  bufferSpace : ℕ → ℕ
  sendDatagram : ℕ → Option SendDatagramError

/-! ### The receive queue -/

/-- The counters of one flow that the receive queue keeps. -/
structure ReceiveFlowStats where
  received : ℕ := 0
  receivedBytes : ℕ := 0
  receiveQueueOverflow : ℕ := 0
deriving DecidableEq, Repr

structure RawReceivedDatagram where
  receivedAt : ℕ
  payload : Bytes
deriving DecidableEq, Repr

structure DatagramReceiveState where
  queue : List RawReceivedDatagram
  capacity : ℕ
  overflow : ℕ
  flowStats : ExtTreeMap RealtimeFlowId ReceiveFlowStats

namespace DatagramReceiveState

def new (capacity : ℕ) : DatagramReceiveState := ⟨[], capacity, 0, ∅⟩

/-- A change of the counters of the flow that a datagram names, if it names one. -/
def note (s : DatagramReceiveState) (payload : Bytes)
    (stats : ReceiveFlowStats → ReceiveFlowStats) : DatagramReceiveState :=
  match realtimeFlowFromWire payload with
  | none => s
  | some flow =>
    { s with flowStats := s.flowStats.insert flow (stats (s.flowStats[flow]?.getD {})) }

def noteReceived (s : DatagramReceiveState) (payload : Bytes) : DatagramReceiveState :=
  s.note payload fun stats => { stats with
    received := saturatingAdd stats.received 1
    receivedBytes := saturatingAdd stats.receivedBytes
      (payload.length-realtimeDatagramHeaderLen) }

def noteOverflow (s : DatagramReceiveState) (payload : Bytes) : DatagramReceiveState :=
  { s with overflow := saturatingAdd s.overflow 1 }.note payload fun stats => { stats with
    receiveQueueOverflow := saturatingAdd stats.receiveQueueOverflow 1 }

/-- A full queue gives up its oldest datagram. -/
def makeRoom (s : DatagramReceiveState) : DatagramReceiveState :=
  if s.capacity ≤ s.queue.length then
    match s.queue with
    | [] => s
    | dropped :: queue => { s with queue }.noteOverflow dropped.payload
  else s

def push (s : DatagramReceiveState) (payload : Bytes) (receivedAt : ℕ) : DatagramReceiveState :=
  let s := (s.noteReceived payload).makeRoom
  { s with queue := s.queue ++ [⟨receivedAt, payload⟩] }

def pop (s : DatagramReceiveState) : Option RawReceivedDatagram × DatagramReceiveState :=
  match s.queue with
  | [] => (none, s)
  | item :: queue => (some item, { s with queue })

def clear (s : DatagramReceiveState) : DatagramReceiveState := { s with queue := [] }

end DatagramReceiveState

/-! ### The connection -/

inductive RealtimeEvent where
  | datagramPayloadChanged (previous current : ℕ)
  | pathMigrated | sessionReset
deriving DecidableEq, Repr

/-- The fields that the datagram calls use, and the datagrams that the endpoint has accepted, from
the send queue and from the caller. -/
structure QuicConnection where
  datagramsEnabled : Bool
  maxDatagramBytes : ℕ
  realtimeSend : RealtimeSendQueue
  datagramReceive : DatagramReceiveState
  readerFinished : Bool
  realtimeEvents : List RealtimeEvent
  lastRemoteAddress : SocketAddr
  handed : List Bytes
  handedRaw : List Bytes

def maxRealtimeDatagramsPerPoll : ℕ := 64

namespace RealtimeSendQueue

/-! What is popped or dropped was pending, so the loop that drains the queue comes to an end. -/

theorem dropFlowGroup_pending (q : RealtimeSendQueue) (flow : RealtimeFlowId)
    (reason : DropReason) :
    (q.dropFlowGroup flow reason).2.pendingDatagrams+(q.dropFlowGroup flow reason).1 =
      q.pendingDatagrams := by
  unfold dropFlowGroup
  cases h : q.groups[flow]? with
  | none => rfl
  | some group =>
    have herase := OrderedMap.sumBy_erase (fun g => g.datagrams.length) q.groups h
    rw [← show _ = q.pendingDatagrams from herase, Nat.add_comm]
    cases reason <;> rfl

theorem dropFlowGroups_pending (q : RealtimeSendQueue) (flows : List RealtimeFlowId)
    (reason : DropReason) :
    (q.dropFlowGroups flows reason).2.pendingDatagrams+(q.dropFlowGroups flows reason).1 =
      q.pendingDatagrams := by
  unfold dropFlowGroups
  -- The accumulator counts what the flows before have lost.
  rw [← Nat.zero_add q.pendingDatagrams]
  generalize 0 = n
  induction flows generalizing n q with
  | nil => exact Nat.add_comm _ _
  | cons flow flows ih =>
    have hone := dropFlowGroup_pending q flow reason
    have hrest := ih (q.dropFlowGroup flow reason).2 (n+(q.dropFlowGroup flow reason).1)
    rw [Nat.add_assoc, Nat.add_comm _ (q.dropFlowGroup flow reason).2.pendingDatagrams,
      hone] at hrest
    exact hrest

theorem expire_pending (q : RealtimeSendQueue) (now : ℕ) :
    (q.expire now).2.pendingDatagrams ≤ q.pendingDatagrams := by
  have h := dropFlowGroups_pending q (q.flowsWhere fun group => group.deadline ≤ now) .expired
  exact (Nat.le_add_right _ _).trans h.le

theorem popFlow_pending (q : RealtimeSendQueue) (flow : RealtimeFlowId)
    {d : QueuedRealtimeDatagram} (h : (q.popFlow flow).1 = some d) :
    (q.popFlow flow).2.pendingDatagrams+1 = q.pendingDatagrams := by
  unfold popFlow at h ⊢
  cases hgroup : q.groups[flow]? with
  | none => simp [hgroup] at h
  | some group =>
    cases hpayload : group.datagrams with
    | nil => simp [hgroup, hpayload] at h
    | cons payload rest =>
      simp only [hpayload, pendingDatagrams]
      split
      · next hrest =>
        have herase := OrderedMap.sumBy_erase (fun g => g.datagrams.length) q.groups hgroup
        rw [hpayload, hrest] at herase
        simpa [Nat.add_comm] using herase
      · have hupdate := OrderedMap.sumBy_update (fun g => g.datagrams.length) q.groups
          { group with datagrams := rest } hgroup
        simp only [hpayload, List.length_cons] at hupdate
        omega

theorem popNextFitting_pending {q : RealtimeSendQueue} {now maxWireLen : ℕ}
    {d : QueuedRealtimeDatagram} (h : (q.popNextFitting now maxWireLen).1 = some d) :
    (q.popNextFitting now maxWireLen).2.pendingDatagrams < q.pendingDatagrams := by
  rw [popNextFitting_eq] at h ⊢
  cases hflow : (q.expire now).2.nextFittingFlow maxWireLen with
  | none => rw [hflow] at h; cases h
  | some flow =>
    rw [hflow] at h
    have hpop := popFlow_pending _ flow h
    have hexpire := expire_pending q now
    simp only [Option.elim_some]
    omega

theorem popNextFitting_pending_le (q : RealtimeSendQueue) (now maxWireLen : ℕ) :
    (q.popNextFitting now maxWireLen).2.pendingDatagrams ≤ q.pendingDatagrams := by
  cases h : (q.popNextFitting now maxWireLen).1 with
  | some d => exact (popNextFitting_pending h).le
  | none =>
    rw [popNextFitting_eq] at h ⊢
    cases hflow : (q.expire now).2.nextFittingFlow maxWireLen with
    | none => exact expire_pending q now
    | some flow =>
      rw [hflow] at h
      simp only [Option.elim_some] at h ⊢
      -- A group without a datagram is left where it is.
      have hsame : (q.expire now).2.popFlow flow = (none, (q.expire now).2) := by
        unfold popFlow at h ⊢
        split
        · rfl
        · split
          · rfl
          · next hgroup _ payload rest hpayload => simp [hgroup, hpayload] at h
      rw [hsame]
      exact expire_pending q now

theorem dropDisposable_pending (q : RealtimeSendQueue) :
    q.dropDisposableForCongestion.2.pendingDatagrams+q.dropDisposableForCongestion.1 =
      q.pendingDatagrams :=
  dropFlowGroups_pending q _ .congested

end RealtimeSendQueue

namespace QuicConnection

def currentRawDatagramLimit (c : QuicConnection) (path : QuicPath) : ℕ :=
  min (path.maxDatagramSize.getD 0) c.maxDatagramBytes

def currentRealtimePayloadLimit (c : QuicConnection) (path : QuicPath) : ℕ :=
  c.currentRawDatagramLimit path-realtimeDatagramHeaderLen

/-- The datagram part of `make_connection`. -/
def make (options : QuicOptions) (path : QuicPath) : Except TransportError QuicConnection :=
  let payload := min (path.maxDatagramSize.getD 0) options.budget.maxFrameBytes-
    realtimeDatagramHeaderLen
  match RealtimeSendQueue.new options.realtimeQueue (max payload 1) with
  | .error e => .error e
  | .ok realtimeSend => .ok {
      datagramsEnabled := options.enableDatagrams && path.maxDatagramSize.isSome
      maxDatagramBytes := options.budget.maxFrameBytes
      realtimeSend, datagramReceive := .new options.budget.receiveQueueCapacity
      readerFinished := false, realtimeEvents := [], lastRemoteAddress := path.remoteAddress
      handed := [], handedRaw := [] }

def pushEvent (c : QuicConnection) (event : RealtimeEvent) : QuicConnection :=
  { c with realtimeEvents := c.realtimeEvents ++ [event] }

/-- The part of `refresh_realtime_state` that compares the remote address. -/
def refreshAddress (c : QuicConnection) (path : QuicPath) : QuicConnection :=
  if path.remoteAddress ≠ c.lastRemoteAddress then
    { c with
      lastRemoteAddress := path.remoteAddress
      realtimeSend := c.realtimeSend.noteMigration }.pushEvent .pathMigrated
  else c

/-- The part of `refresh_realtime_state` that copies the statistics of the path. -/
def refreshMetrics (c : QuicConnection) (path : QuicPath) : QuicConnection :=
  let rttUs := min path.rttMicros (2^64-1)
  let rate := if 0 < rttUs then some (min (path.cwnd*8000000/rttUs) (2^64-1)) else none
  { c with realtimeSend := c.realtimeSend.noteNetworkMetrics rttUs rate path.congestionEvents }

def refreshRealtimeState (c : QuicConnection) (path : QuicPath) :
    Except TransportError Unit × QuicConnection :=
  if !c.datagramsEnabled then (.ok (), c)
  else
    let payloadLimit := c.currentRealtimePayloadLimit path
    if payloadLimit = 0 then (.error unsupportedDatagram, c)
    else
      let previous := c.realtimeSend.maxPayload
      match c.realtimeSend.setMaxPayload payloadLimit with
      | (.error e, realtimeSend) => (.error e, { c with realtimeSend })
      | (.ok changed, realtimeSend) =>
        let c := { c with realtimeSend }
        let c := if changed then c.pushEvent (.datagramPayloadChanged previous payloadLimit) else c
        (.ok (), (c.refreshAddress path).refreshMetrics path)

/-- The loop of `poll_realtime`. Every round but the last takes a datagram out of the queue. -/
def pollLoop (path : QuicPath) (now look sent : ℕ) (c : QuicConnection) :
    Except TransportError ℕ × QuicConnection :=
  if maxRealtimeDatagramsPerPoll ≤ sent then (.ok sent, c)
  else
    match _ : c.realtimeSend.popNextFitting now (path.bufferSpace look) with
    | (some datagram, realtimeSend) =>
      let c' := { c with realtimeSend }
      match encodeRealtimeDatagram datagram with
      | .error e => (.error e, c')
      | .ok encoded =>
        match path.sendDatagram look with
        -- The datagram has left the queue and is in no counter.
        | some e => (.error (mapDatagramError e), c')
        | none =>
          pollLoop path now (look+1) (sent+1) { c' with
            handed := c'.handed ++ [encoded], realtimeSend := realtimeSend.noteSent datagram }
    | (none, realtimeSend) =>
      if 0 < realtimeSend.pendingDatagrams then
        match _ : realtimeSend.noteTransportCongestion.dropDisposableForCongestion with
        | (dropped, rest) =>
          if 0 < dropped then pollLoop path now (look+1) sent { c with realtimeSend := rest }
          else (.ok sent, { c with realtimeSend := rest })
      else (.ok sent, { c with realtimeSend })
termination_by c.realtimeSend.pendingDatagrams
decreasing_by
  · next hpop =>
    have hless := RealtimeSendQueue.popNextFitting_pending (congrArg Prod.fst hpop)
    rwa [hpop] at hless
  · next hpop _ hdropped _ =>
    have hle := RealtimeSendQueue.popNextFitting_pending_le c.realtimeSend now
      (path.bufferSpace look)
    have hdrop := RealtimeSendQueue.dropDisposable_pending realtimeSend.noteTransportCongestion
    have hsame : realtimeSend.noteTransportCongestion.pendingDatagrams =
      realtimeSend.pendingDatagrams := rfl
    simp only [hpop, hdropped] at hle hdrop ⊢
    omega

def pollRealtime (c : QuicConnection) (path : QuicPath) (now : ℕ) :
    Except TransportError ℕ × QuicConnection :=
  if !c.datagramsEnabled then (.error unsupportedDatagram, c)
  else
    match c.refreshRealtimeState path with
    | (.error e, c) => (.error e, c)
    | (.ok (), c) => pollLoop path now 0 0 c

/-- The path is asked once before the datagram is queued and once more by the poll. -/
def trySendLatest (c : QuicConnection) (datagram : RealtimeDatagram) (path path' : QuicPath)
    (now : ℕ) : Except TransportError SendOutcome × QuicConnection :=
  if !c.datagramsEnabled then (.ok .unsupported, c)
  else
    match c.refreshRealtimeState path with
    | (.error e, c) => (.error e, c)
    | (.ok (), c) =>
      let dropsBefore := c.realtimeSend.congestionDroppedForFlow datagram.flow
      match c.realtimeSend.enqueue datagram now with
      | (.error e, realtimeSend) => (.error e, { c with realtimeSend })
      | (.ok outcome, realtimeSend) =>
        match { c with realtimeSend }.pollRealtime path' now with
        | (.error e, c) => (.error e, c)
        | (.ok _, c) =>
          let dropsAfter := c.realtimeSend.congestionDroppedForFlow datagram.flow
          (.ok (if dropsBefore < dropsAfter then .droppedCongested else outcome), c)

def trySendDatagram (c : QuicConnection) (message : Bytes) (path : QuicPath) :
    Except TransportError Unit × QuicConnection :=
  if !c.datagramsEnabled then (.error unsupportedDatagram, c)
  else if c.currentRawDatagramLimit path < message.length then
    (.error ⟨.messageTooLarge, "QUIC datagram exceeds configured limit"⟩, c)
  else
    match path.sendDatagram 0 with
    | some e => (.error (mapDatagramError e), c)
    | none => (.ok (), { c with handedRaw := c.handedRaw ++ [message] })

/-- The queue is looked at first and the reader after it. In between the reader may end, with a last
datagram queued that this call has not seen. -/
def popRawDatagram (c : QuicConnection) (endsMeanwhile : Bool) :
    Except TransportError (Option RawReceivedDatagram) × QuicConnection :=
  match c.datagramReceive.pop with
  | (some item, datagramReceive) => (.ok (some item), { c with datagramReceive })
  | (none, _) =>
    if c.readerFinished || endsMeanwhile then
      (.error ⟨.closed, "QUIC datagram receiver is closed"⟩, c)
    else (.error ⟨.wouldBlock, "no QUIC datagram is ready"⟩, c)

def tryReceiveDatagram (c : QuicConnection) (endsMeanwhile : Bool) :
    Except TransportError (Option Bytes) × QuicConnection :=
  if !c.datagramsEnabled then (.error unsupportedDatagram, c)
  else
    match c.popRawDatagram endsMeanwhile with
    | (.error e, c) => (.error e, c)
    | (.ok message, c) => (.ok (message.map RawReceivedDatagram.payload), c)

def tryReceiveRealtime (c : QuicConnection) (endsMeanwhile : Bool) :
    Except TransportError (Option ReceivedRealtimeDatagram) × QuicConnection :=
  if !c.datagramsEnabled then (.error unsupportedDatagram, c)
  else
    match c.popRawDatagram endsMeanwhile with
    | (.error e, c) => (.error e, c)
    | (.ok none, c) => (.ok none, c)
    | (.ok (some item), c) => ((decodeRealtimeDatagram item.payload item.receivedAt).map some, c)

def takeRealtimeEvents (c : QuicConnection) : List RealtimeEvent × QuicConnection :=
  (c.realtimeEvents, { c with realtimeEvents := [] })

def resetRealtimeSession (c : QuicConnection) : QuicConnection :=
  { c with
    realtimeSend := c.realtimeSend.resetForReconnect
    datagramReceive := c.datagramReceive.clear }.pushEvent .sessionReset

/-- The datagram part of `close_write`. -/
def closeWrite (c : QuicConnection) : QuicConnection :=
  { c with realtimeSend := c.realtimeSend.clearPending }

/-- The datagram part of `abort`. The reader task that it aborts ends in a step of its own, and may
queue a datagram before that. -/
def abort (c : QuicConnection) : QuicConnection :=
  { c with
    realtimeSend := c.realtimeSend.clearPending
    datagramReceive := c.datagramReceive.clear }

end QuicConnection

end MutsukiLink
