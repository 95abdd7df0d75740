import Mathlib.Logic.Function.Basic
import MutsukiLink.RealtimeModel
import MutsukiLink.RunHistory

/-! The in-memory transport (`memory_transport_pair`). Each end owns one side, and a send or a
receive takes the locks of the two sides one after the other; the other end may run in between. So
a call is a step that ends where the first lock is released and, where it goes on, a second step. -/
namespace MutsukiLink
open WireBytes

structure MemoryTransportConfig where
  queueCapacity : ℕ := 16
  maxMessageBytes : ℕ := 64*1024
  datagramCapacity : ℕ := 8
deriving DecidableEq, Repr

inductive MemoryLane where
  | control | reliable | datagram
deriving DecidableEq, Repr

structure MemorySide where
  control : List Bytes := []
  reliable : List Bytes := []
  datagrams : List Bytes := []
  writeClosed : Bool := false
  readClosed : Bool := false
  aborted : Bool := false
deriving DecidableEq, Repr

namespace MemorySide

def queue (s : MemorySide) : MemoryLane → List Bytes
  | .control => s.control
  | .reliable => s.reliable
  | .datagram => s.datagrams

def setQueue (s : MemorySide) (lane : MemoryLane) (q : List Bytes) : MemorySide :=
  match lane with
  | .control => { s with control := q }
  | .reliable => { s with reliable := q }
  | .datagram => { s with datagrams := q }

variable (s : MemorySide) (lane : MemoryLane) (q : List Bytes)

@[simp] theorem queue_setQueue : (s.setQueue lane q).queue lane = q := by cases lane <;> rfl

theorem queue_setQueue_of_ne {lane' : MemoryLane} (h : lane' ≠ lane) :
    (s.setQueue lane q).queue lane' = s.queue lane' := by
  cases lane <;> cases lane' <;> first | rfl | exact absurd rfl h

@[simp] theorem writeClosed_setQueue : (s.setQueue lane q).writeClosed = s.writeClosed := by
  cases lane <;> rfl

@[simp] theorem readClosed_setQueue : (s.setQueue lane q).readClosed = s.readClosed := by
  cases lane <;> rfl

@[simp] theorem aborted_setQueue : (s.setQueue lane q).aborted = s.aborted := by
  cases lane <;> rfl

end MemorySide

inductive MemoryEnd where
  | left | right
deriving DecidableEq, Repr

namespace MemoryEnd

def other : MemoryEnd → MemoryEnd
  | left => right
  | right => left

@[simp] theorem other_other (e : MemoryEnd) : e.other.other = e := by cases e <;> rfl

@[simp] theorem other_inj {e e' : MemoryEnd} : e.other = e'.other ↔ e = e' := by
  cases e <;> cases e' <;> decide

@[simp] theorem other_ne (e : MemoryEnd) : e.other ≠ e := by cases e <;> decide

@[simp] theorem ne_other (e : MemoryEnd) : e ≠ e.other := by cases e <;> decide

end MemoryEnd

/-- A call that has released the lock of its own side and waits for the other one. -/
inductive MemoryPending where
  | sending (lane : MemoryLane) (message : Bytes)
  | receiving (lane : MemoryLane)
deriving DecidableEq, Repr

inductive MemoryOp where
  | send (lane : MemoryLane) (message : Bytes)
  | receive (lane : MemoryLane)
  | closeWrite | closeRead | abort
deriving DecidableEq, Repr

inductive MemoryReply where
  | sent (result : Except TransportError Unit)
  | received (result : Except TransportError (Option Bytes))
  | done
deriving DecidableEq, Repr

/-- What may happen next at an end: a call starts, or the one under way takes its second lock. -/
inductive MemoryCall where
  | start (e : MemoryEnd) (op : MemoryOp)
  | proceed (e : MemoryEnd)
deriving DecidableEq, Repr

structure MemoryPair where
  config : MemoryTransportConfig
  sides : MemoryEnd → MemorySide
  pending : MemoryEnd → Option MemoryPending

/-- The two assertions of the source are a panic. -/
def memoryTransportPair (config : MemoryTransportConfig) : Option MemoryPair :=
  if config.queueCapacity = 0 ∨ config.maxMessageBytes = 0 then none
  else some ⟨config, fun _ => {}, fun _ => none⟩

def MemoryTransportConfig.capacity (c : MemoryTransportConfig) : MemoryLane → ℕ
  | .datagram => c.datagramCapacity
  | _ => c.queueCapacity

/-- Only the datagram calls ask whether their lane exists. -/
def MemoryTransportConfig.supports (c : MemoryTransportConfig) (lane : MemoryLane) : Bool :=
  lane ≠ .datagram || c.datagramCapacity ≠ 0

def datagramsUnsupported : TransportError := ⟨.unsupported, "datagrams are not supported"⟩

namespace MemoryPair
open Function

def setSide (s : MemoryPair) (e : MemoryEnd) (side : MemorySide) : MemoryPair :=
  { s with sides := update s.sides e side }

def setPending (s : MemoryPair) (e : MemoryEnd) (p : Option MemoryPending) : MemoryPair :=
  { s with pending := update s.pending e p }

/-- `send_to_remote` up to the release of the local lock: an answer, or the call goes on. -/
def sendStart (s : MemoryPair) (e : MemoryEnd) (lane : MemoryLane) (message : Bytes) :
    Option (Except TransportError Unit) × MemoryPair :=
  if !s.config.supports lane then (some (.error datagramsUnsupported), s)
  else if s.config.maxMessageBytes < message.length then
    (some (.error ⟨.messageTooLarge, "message exceeds transport limit"⟩), s)
  else if (s.sides e).writeClosed then (some (.error ⟨.closed, "write side is closed"⟩), s)
  else (none, s.setPending e (some (.sending lane message)))

/-- `send_to_remote` under the remote lock. -/
def sendFinish (s : MemoryPair) (e : MemoryEnd) (lane : MemoryLane) (message : Bytes) :
    Except TransportError Unit × MemoryPair :=
  -- The flag of the own side is not looked at again: a close in between goes unnoticed, and so
  -- does an abort at any time.
  let s := s.setPending e none
  let remote := s.sides e.other
  if remote.aborted then (.error ⟨.aborted, "remote connection aborted"⟩, s)
  else if remote.readClosed then (.error ⟨.closed, "remote read side is closed"⟩, s)
  else if s.config.capacity lane ≤ (remote.queue lane).length then
    (.error ⟨.wouldBlock, "transport queue is full"⟩, s)
  else (.ok (), s.setSide e.other (remote.setQueue lane (remote.queue lane ++ [message])))

/-- `receive_local` up to the release of the local lock. -/
def receiveStart (s : MemoryPair) (e : MemoryEnd) (lane : MemoryLane) :
    Option (Except TransportError (Option Bytes)) × MemoryPair :=
  let side := s.sides e
  if !s.config.supports lane then (some (.error datagramsUnsupported), s)
  else if side.aborted then (some (.error ⟨.aborted, "connection aborted"⟩), s)
  else if side.readClosed then (some (.error ⟨.closed, "read side is closed"⟩), s)
  else match side.queue lane with
    | message :: rest => (some (.ok (some message)), s.setSide e (side.setQueue lane rest))
    -- The lock is dropped here, so what the remote side says later is about a later state.
    | [] => (none, s.setPending e (some (.receiving lane)))

/-- `receive_local` under the remote lock. -/
def receiveFinish (s : MemoryPair) (e : MemoryEnd) :
    Except TransportError (Option Bytes) × MemoryPair :=
  let s := s.setPending e none
  if (s.sides e.other).writeClosed then (.ok none, s)
  else (.error ⟨.wouldBlock, "no message is ready"⟩, s)

/-- A send that the other end does not interrupt. -/
def sendToRemote (s : MemoryPair) (e : MemoryEnd) (lane : MemoryLane) (message : Bytes) :
    Except TransportError Unit × MemoryPair :=
  match s.sendStart e lane message with
  | (some result, s) => (result, s)
  | (none, s) => s.sendFinish e lane message

/-- A receive that the other end does not interrupt. -/
def receiveLocal (s : MemoryPair) (e : MemoryEnd) (lane : MemoryLane) :
    Except TransportError (Option Bytes) × MemoryPair :=
  match s.receiveStart e lane with
  | (some result, s) => (result, s)
  | (none, s) => s.receiveFinish e

/-- The methods take `&mut self`: no call starts at an end where another one is under way. -/
def step (s : MemoryPair) : MemoryCall → Option MemoryReply × MemoryPair
  | .start e op =>
    -- Not an answer of the source, only a step that does not happen.
    if (s.pending e).isSome then (none, s)
    else match op with
      | .send lane message =>
        let r := s.sendStart e lane message
        (r.1.map .sent, r.2)
      | .receive lane =>
        let r := s.receiveStart e lane
        (r.1.map .received, r.2)
      | .closeWrite => (some .done, s.setSide e { s.sides e with writeClosed := true })
      | .closeRead => (some .done, s.setSide e { s.sides e with readClosed := true })
      | .abort => (some .done, s.setSide e { s.sides e with aborted := true })
  | .proceed e =>
    match s.pending e with
    | some (.sending lane message) =>
      let r := s.sendFinish e lane message
      (some (.sent r.1), r.2)
    | some (.receiving _) =>
      let r := s.receiveFinish e
      (some (.received r.1), r.2)
    | none => (none, s)

end MemoryPair

end MutsukiLink
