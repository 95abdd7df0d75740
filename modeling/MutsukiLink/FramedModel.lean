import MutsukiLink.RealtimeModel
import MutsukiLink.ProtocolTypes
import MutsukiLink.RunHistory

/-! One direction of a framed connection (`mutsuki-link-io`): the send queues and the writer of one
end, the byte stream, and the reader and the receive queues of the other. A step of a task is as
small as one byte, so that a run interleaves them as a scheduler may. Rates only delay a step. The
runs are those in which the stream does not fail and no read exceeds the idle timeout, which would
end the reader with an error. -/
namespace MutsukiLink
open WireBytes

structure TransportBudget where
  maxConnections : ℕ := 64
  maxConcurrentStreams : ℕ := 64
  controlQueueCapacity : ℕ := 32
  dataQueueCapacity : ℕ := 128
  receiveQueueCapacity : ℕ := 128
  maxFrameBytes : ℕ := 1024*1024
  controlBytesPerSecond : Option UInt64 := none
  dataBytesPerSecond : Option UInt64 := none
  receiveBytesPerSecond : Option UInt64 := none
  idleTimeout : Option ℕ := some (60*1000000000)
deriving DecidableEq, Repr

def TransportBudget.validate (budget : TransportBudget) : Except TransportError TransportBudget :=
  if budget.maxConnections = 0 ∨ budget.maxConcurrentStreams = 0 ∨
      budget.controlQueueCapacity = 0 ∨ budget.dataQueueCapacity = 0 ∨
      budget.receiveQueueCapacity = 0 ∨ budget.maxFrameBytes = 0 ∨
      budget.controlBytesPerSecond = some 0 ∨ budget.dataBytesPerSecond = some 0 ∨
      budget.receiveBytesPerSecond = some 0 then
    .error ⟨.other, "transport budget values must be positive"⟩
  else .ok budget

def controlStreamMagic : Bytes := [77, 76, 67, 83]
def controlStreamVersion : UInt8 := 1
def controlStreamHeaderLen : ℕ := 7

/-- `ControlStream::try_send` up to the call of `try_send_control`. -/
def controlFrame (protocol : String) (message : Bytes) : Except TransportError Bytes :=
  if 2^16 ≤ (utf8 protocol).length then
    .error ⟨.messageTooLarge, "control stream protocol identifier is too large"⟩
  else if 2^64 ≤ controlStreamHeaderLen+(utf8 protocol).length+message.length then
    .error ⟨.messageTooLarge, "control stream message is too large"⟩
  else .ok (controlStreamMagic ++ ([controlStreamVersion] ++
    (beBytes 2 (utf8 protocol).length ++ (utf8 protocol ++ message))))

/-- `message.starts_with(&CONTROL_STREAM_PREFIX)`: how the reader tells the lanes apart. -/
def isControl (message : Bytes) : Bool := controlStreamMagic.isPrefixOf message

/-- What is left of the frame that the writer is writing. -/
inductive FrameWriter where
  | running (rest : Bytes)
  | finished (error : TransportError)
deriving DecidableEq, Repr

/-- Where the reader is in a frame, or with a message that waits for room in its queue. -/
inductive FrameReader where
  | header (got : Bytes)
  | body (length : ℕ) (got : Bytes)
  | handing (message : Bytes)
  | finished (error : TransportError)
deriving DecidableEq, Repr

structure FramedLink where
  budget : TransportBudget
  control : List Bytes
  data : List Bytes
  writer : FrameWriter
  wire : Bytes
  reader : FrameReader
  controlReceive : List Bytes
  receive : List Bytes
deriving DecidableEq, Repr

inductive FramedCall where
  | trySend (message : Bytes)
  | controlSend (protocol : String) (message : Bytes)
  | takeNext
  | writeByte
  | readByte
  | forward
  | tryReceive
  | tryReceiveControl
deriving DecidableEq, Repr

inductive FramedReply where
  | sent (result : Except TransportError Unit)
  | stepped
  | received (result : Except TransportError (Option Bytes))
deriving DecidableEq

namespace FramedLink

/-- `spawn_framed_halves`, for the two ends of one direction. -/
def spawn (budget : TransportBudget) : Except TransportError FramedLink :=
  match budget.validate with
  | .error e => .error e
  | .ok budget => .ok {
      budget, control := [], data := [], writer := .running [], wire := [], reader := .header []
      controlReceive := [], receive := [] }

/-- `FramedConnection::enqueue` on one of the two send queues. -/
def enqueue (link : FramedLink) (queue : List Bytes) (capacity : ℕ) (message : Bytes) :
    Except TransportError (List Bytes) :=
  -- The size is checked before the writer, so it is reported even when that has ended.
  if link.budget.maxFrameBytes < message.length then
    .error ⟨.messageTooLarge, "message exceeds transport frame limit"⟩
  else match link.writer with
    | .finished _ => .error ⟨.closed, "transport write side is closed"⟩
    | .running _ =>
      if capacity ≤ queue.length then .error ⟨.wouldBlock, "transport send queue is full"⟩
      else .ok (queue ++ [message])

def trySend (link : FramedLink) (message : Bytes) : Except TransportError Unit × FramedLink :=
  match link.enqueue link.data link.budget.dataQueueCapacity message with
  | .error e => (.error e, link)
  | .ok data => (.ok (), { link with data })

def trySendControl (link : FramedLink) (message : Bytes) :
    Except TransportError Unit × FramedLink :=
  match link.enqueue link.control link.budget.controlQueueCapacity message with
  | .error e => (.error e, link)
  | .ok control => (.ok (), { link with control })

def controlSend (link : FramedLink) (protocol : String) (message : Bytes) :
    Except TransportError Unit × FramedLink :=
  match controlFrame protocol message with
  | .error e => (.error e, link)
  | .ok frame => link.trySendControl frame

/-- `write_frame` up to its first byte. A writer that ends drops both of its queues. -/
def startFrame (link : FramedLink) (message : Bytes) : FramedLink :=
  if 2^32 ≤ message.length then
    { link with control := [], data := [], writer := .finished ⟨.other, "transport I/O failed"⟩ }
  else { link with writer := .running (beBytes 4 message.length ++ message) }

/-- The writer has written a frame and takes the next message, from the control queue first. -/
def takeNext (link : FramedLink) : FramedLink :=
  match link.writer, link.control, link.data with
  | .running [], message :: control, _ => { link with control }.startFrame message
  | .running [], [], message :: data => { link with data }.startFrame message
  | _, _, _ => link

def writeByte (link : FramedLink) : FramedLink :=
  match link.writer with
  | .running (byte :: rest) => { link with writer := .running rest, wire := link.wire ++ [byte] }
  | _ => link

/-- The reader after one more byte. A frame without a body is complete at once. -/
def readerAfter (budget : TransportBudget) (byte : UInt8) : FrameReader → FrameReader
  | .header got =>
    let got := got ++ [byte]
    if got.length < 4 then .header got
    -- The length is checked before anything is read or reserved for the body.
    else if budget.maxFrameBytes < ofBeBytes got then
      .finished ⟨.messageTooLarge, "received frame exceeds transport limit"⟩
    else if ofBeBytes got = 0 then .handing []
    else .body (ofBeBytes got) []
  | .body length got =>
    let got := got ++ [byte]
    if got.length < length then .body length got else .handing got
  | reader => reader

def readByte (link : FramedLink) : FramedLink :=
  match link.wire, link.reader with
  | _, .handing _ => link
  | _, .finished _ => link
  | [], _ => link
  | byte :: wire, reader => { link with wire, reader := readerAfter link.budget byte reader }

/-- `target.send(message)`: the reader waits until its queue has room. -/
def forward (link : FramedLink) : FramedLink :=
  match link.reader with
  | .handing message =>
    -- The lane is found out from the bytes alone, not from the queue they came from.
    if isControl message then
      if link.budget.controlQueueCapacity ≤ link.controlReceive.length then link
      else { link with
        controlReceive := link.controlReceive ++ [message], reader := .header [] }
    else
      if link.budget.receiveQueueCapacity ≤ link.receive.length then link
      else { link with receive := link.receive ++ [message], reader := .header [] }
  | _ => link

/-- An empty receive queue: the error of the reader if it has ended. -/
def nothingReady (link : FramedLink) (message : String) : TransportError :=
  match link.reader with
  | .finished e => e
  | _ => ⟨.wouldBlock, message⟩

def tryReceive (link : FramedLink) : Except TransportError (Option Bytes) × FramedLink :=
  match link.receive with
  | [] => (.error (link.nothingReady "no transport message is ready"), link)
  | message :: receive => (.ok (some message), { link with receive })

def tryReceiveControl (link : FramedLink) : Except TransportError (Option Bytes) × FramedLink :=
  match link.controlReceive with
  | [] => (.error (link.nothingReady "no control message is ready"), link)
  | message :: controlReceive => (.ok (some message), { link with controlReceive })

def step (link : FramedLink) : FramedCall → FramedReply × FramedLink
  | .trySend message => (link.trySend message).map .sent id
  | .controlSend protocol message => (link.controlSend protocol message).map .sent id
  | .takeNext => (.stepped, link.takeNext)
  | .writeByte => (.stepped, link.writeByte)
  | .readByte => (.stepped, link.readByte)
  | .forward => (.stepped, link.forward)
  | .tryReceive => link.tryReceive.map .received id
  | .tryReceiveControl => link.tryReceiveControl.map .received id

end FramedLink

/-- The two connections of a QUIC connection, in one direction. -/
structure QuicLink where
  control : FramedLink
  data : FramedLink
deriving DecidableEq, Repr

/-- The calls of the application, and the steps of the tasks of the two connections. -/
inductive QuicCall where
  | trySend (message : Bytes)
  | controlSend (protocol : String) (message : Bytes)
  | controlTask (step : FramedCall)
  | dataTask (step : FramedCall)
  | tryReceive
  | tryReceiveControl
deriving DecidableEq, Repr

/-- The steps that are taken by a task and not by the application. -/
def FramedCall.isTask : FramedCall → Bool
  | .takeNext => true
  | .writeByte => true
  | .readByte => true
  | .forward => true
  | _ => false

namespace QuicLink

/-- The two connections are spawned with the same budget. -/
def spawn (budget : TransportBudget) : Except TransportError QuicLink :=
  match FramedLink.spawn budget with
  | .error e => .error e
  | .ok link => .ok ⟨link, link⟩

def tryReceive (link : QuicLink) : Except TransportError (Option Bytes) × QuicLink :=
  match link.control.tryReceive with
  | (.ok message, control) => (.ok message, { link with control })
  | (.error e, control) =>
    -- The message of either stream is handed out here, the control one first.
    if e.kind = .wouldBlock then link.data.tryReceive.map id fun data => ⟨control, data⟩
    else (.error e, { link with control })

def step (link : QuicLink) : QuicCall → FramedReply × QuicLink
  | .trySend message => (link.data.trySend message).map .sent fun data => { link with data }
  | .controlSend protocol message =>
    (link.control.controlSend protocol message).map .sent fun control => { link with control }
  | .controlTask call =>
    if call.isTask then (.stepped, { link with control := (link.control.step call).2 })
    else (.stepped, link)
  | .dataTask call =>
    if call.isTask then (.stepped, { link with data := (link.data.step call).2 })
    else (.stepped, link)
  | .tryReceive => link.tryReceive.map .received id
  | .tryReceiveControl =>
    link.control.tryReceiveControl.map .received fun control => { link with control }

end QuicLink

end MutsukiLink
