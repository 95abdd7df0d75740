import MutsukiLink.FramedDelivery

/-! The graceful half-close of a framed connection. `close_write` drops the senders of both queues;
the writer goes on until they are empty and then shuts the stream down, and the reader ends without
an error when it finds the end of the stream between two frames. A receive call looks at its queue
and only then at the reader, which may hand over a message and end in between; and the end of the
reader is no single step either. -/
namespace MutsukiLink
open WireBytes RunHistory

/-- How far the task of the reader has come once its loop has returned: it drops its ends of the
receive queues, the last parameter first, and then counts as finished. -/
inductive ReaderExit where
  | reading
  | dataDropped
  | dropped
  | finished
deriving DecidableEq, Repr

def ReaderExit.next : ReaderExit → ReaderExit
  | .reading => .dataDropped
  | .dataDropped => .dropped
  | .dropped => .finished
  | .finished => .finished

/-- The receive queue of the lane has no sender any more. -/
def ReaderExit.disconnects : ReaderExit → Lane → Bool
  | .reading, _ => false
  | .dataDropped, .control => false
  | .dataDropped, .data => true
  | .dropped, _ => true
  | .finished, _ => true

namespace ReaderExit

theorem next_finishes (exit : ReaderExit) : exit.next.next.next = .finished := by
  cases exit <;> rfl

theorem disconnects_finished (lane : Lane) : finished.disconnects lane = true := by
  cases lane <;> rfl

theorem ne_reading_of_disconnects {exit : ReaderExit} {lane : Lane}
    (h : exit.disconnects lane = true) : exit ≠ .reading := by
  rintro rfl
  cases h

end ReaderExit

/-- One direction of a framed connection whose sending end may be closed. A receive call that has
found its queue empty and has yet to look at the reader is in `receiving`. -/
structure ClosingLink where
  link : FramedLink
  writeClosed : Bool := false
  shutdown : Bool := false
  readerDone : Bool := false
  exit : ReaderExit := .reading
  receiving : Option Lane := none
deriving DecidableEq, Repr

inductive ClosingCall where
  | framed (call : FramedCall)
  | answer
  | closeWrite
  | finishWrite
  | readEnd
  | exitReader
deriving DecidableEq, Repr

def writeClosedError : TransportError := ⟨.closed, "transport write side is closed"⟩

def readClosedError : TransportError := ⟨.closed, "transport read side is closed"⟩

def receiveCall : Lane → FramedCall
  | .control => .tryReceiveControl
  | .data => .tryReceive

def notReadyError : Lane → TransportError
  | .control => ⟨.wouldBlock, "no control message is ready"⟩
  | .data => ⟨.wouldBlock, "no transport message is ready"⟩

namespace ClosingLink

def spawn (budget : TransportBudget) : Except TransportError ClosingLink :=
  match FramedLink.spawn budget with
  | .error e => .error e
  | .ok link => .ok { link }

def trySend (c : ClosingLink) (message : Bytes) : Except TransportError Unit × ClosingLink :=
  if c.writeClosed then (.error writeClosedError, c)
  else (c.link.trySend message).map id fun link => { c with link }

def controlSend (c : ClosingLink) (protocol : String) (message : Bytes) :
    Except TransportError Unit × ClosingLink :=
  if c.writeClosed then
    match controlFrame protocol message with
    | .error e => (.error e, c)
    | .ok _ => (.error writeClosedError, c)
  else (c.link.controlSend protocol message).map id fun link => { c with link }

/-- The writer has found both queues closed and empty. -/
def finishWrite (c : ClosingLink) : ClosingLink :=
  if c.writeClosed ∧ c.link.control = [] ∧ c.link.data = [] ∧ c.link.writer = .running [] then
    { c with shutdown := true }
  else c

/-- The reader finds the end of the stream. In the length of a frame that is no error. -/
def readEnd (c : ClosingLink) : ClosingLink :=
  if c.shutdown ∧ c.link.wire = [] then
    match c.link.reader with
    | .header _ => { c with readerDone := true }
    | .body _ _ => { c with
        link := { c.link with reader := .finished ⟨.closed, "transport I/O failed"⟩ } }
    | _ => c
  else c

/-- The loop of the reader has returned, at the end of the stream or with an error. -/
def readEnded (c : ClosingLink) : Bool :=
  match c.link.reader with
  | .finished _ => true
  | _ => c.readerDone

def exitReader (c : ClosingLink) : ClosingLink :=
  if c.readEnded then { c with exit := c.exit.next } else c

def terminalOr (c : ClosingLink) (fallback : TransportError) : TransportError :=
  match c.link.reader with
  | .finished e => e
  | _ => fallback

/-- A receive call up to its look at the reader: `try_recv` has a message, or the queue has no
sender any more, or the reader has yet to be looked at. -/
def beginReceive (c : ClosingLink) (lane : Lane) : FramedReply × ClosingLink :=
  -- One call at a time, since each has the connection to itself.
  if c.receiving.isSome then (.stepped, c)
  else if c.link.receiveQueue lane = [] then
    if c.exit.disconnects lane then (.received (.error (c.terminalOr readClosedError)), c)
    else (.stepped, { c with receiving := some lane })
  else (c.link.step (receiveCall lane)).map id fun link => { c with link }

def tryReceive (c : ClosingLink) : FramedReply × ClosingLink := c.beginReceive .data

def tryReceiveControl (c : ClosingLink) : FramedReply × ClosingLink := c.beginReceive .control

/-- The receive call that found its queue empty asks whether the reader is finished, and answers. -/
def answer (c : ClosingLink) : FramedReply × ClosingLink :=
  match c.receiving with
  | none => (.stepped, c)
  | some lane =>
    (.received (.error (if c.exit = .finished then c.terminalOr readClosedError
      else notReadyError lane)), { c with receiving := none })

def step (c : ClosingLink) : ClosingCall → FramedReply × ClosingLink
  | .framed (.trySend message) => (c.trySend message).map .sent id
  | .framed (.controlSend protocol message) => (c.controlSend protocol message).map .sent id
  | .framed .tryReceive => c.tryReceive
  | .framed .tryReceiveControl => c.tryReceiveControl
  | .framed call => (.stepped, { c with link := (c.link.step call).2 })
  | .answer => c.answer
  | .closeWrite => (.sent (.ok ()), { c with writeClosed := true })
  | .finishWrite => (.stepped, c.finishWrite)
  | .readEnd => (.stepped, c.readEnd)
  | .exitReader => (.stepped, c.exitReader)

abbrev ClosingEvent := RunHistory.Event ClosingLink ClosingCall FramedReply

def sentOn (lane : Lane) (e : ClosingEvent) : List Bytes :=
  match lane, e.input, e.reply with
  | .data, .framed (.trySend message), .sent (.ok ()) => [message]
  | .control, .framed (.controlSend protocol message), .sent (.ok ()) =>
    (controlFrame protocol message).toOption.toList
  | _, _, _ => []

def receivedOn (lane : Lane) (e : ClosingEvent) : List Bytes :=
  match lane, e.input, e.reply with
  | .data, .framed .tryReceive, .received (.ok (some message)) => [message]
  | .control, .framed .tryReceiveControl, .received (.ok (some message)) => [message]
  | _, _, _ => []

/-- The steps by which messages move on and the end of the stream is passed on. -/
def delivers : ClosingCall → Bool
  | .framed call => call.delivers
  | .answer => true
  | .closeWrite => false
  | .finishWrite => true
  | .readEnd => true
  | .exitReader => true

/-- A call is one of the open connection, or it does nothing, or the closed ends answer it or are
found closed. -/
inductive StepCase (c : ClosingLink) : ClosingCall → FramedReply × ClosingLink → Prop
  | framed (call : FramedCall) (hopen : call.delivers = false → c.writeClosed = false)
    (hready : ∀ lane, call = receiveCall lane → c.link.receiveQueue lane ≠ []) :
    StepCase c (.framed call) ((c.link.step call).1, { c with link := (c.link.step call).2 })
  | idle (call : ClosingCall) (hdelivers : delivers call = true) : StepCase c call (.stepped, c)
  | refused (call : FramedCall) (e : TransportError) (hclosed : c.writeClosed = true)
    (hsends : call.delivers = false) : StepCase c (.framed call) (.sent (.error e), c)
  | drained (lane : Lane) (hfree : c.receiving = none) (hempty : c.link.receiveQueue lane = [])
    (hgone : c.exit.disconnects lane = true) :
    StepCase c (.framed (receiveCall lane)) (.received (.error (c.terminalOr readClosedError)), c)
  | looks (lane : Lane) (hfree : c.receiving = none) (hempty : c.link.receiveQueue lane = [])
    (hthere : c.exit.disconnects lane = false) :
    StepCase c (.framed (receiveCall lane)) (.stepped, { c with receiving := some lane })
  | answered (lane : Lane) (hlooks : c.receiving = some lane) : StepCase c .answer
    (.received (.error (if c.exit = .finished then c.terminalOr readClosedError
      else notReadyError lane)), { c with receiving := none })
  | closed : StepCase c .closeWrite (.sent (.ok ()), { c with writeClosed := true })
  | shut (hclosed : c.writeClosed = true) (hcontrol : c.link.control = [])
    (hdata : c.link.data = []) (hwriter : c.link.writer = .running []) :
    StepCase c .finishWrite (.stepped, { c with shutdown := true })
  | ended (got : Bytes) (hshut : c.shutdown = true) (hwire : c.link.wire = [])
    (hreader : c.link.reader = .header got) :
    StepCase c .readEnd (.stepped, { c with readerDone := true })
  | broken (length : ℕ) (got : Bytes) (hshut : c.shutdown = true) (hwire : c.link.wire = [])
    (hreader : c.link.reader = .body length got) : StepCase c .readEnd (.stepped, { c with
      link := { c.link with reader := .finished ⟨.closed, "transport I/O failed"⟩ } })
  | exits (hended : c.readEnded = true) :
    StepCase c .exitReader (.stepped, { c with exit := c.exit.next })

theorem receiveCall_delivers (lane : Lane) : (receiveCall lane).delivers = true := by
  cases lane <;> rfl

theorem receiveCall_inj {lane lane' : Lane} (h : receiveCall lane = receiveCall lane') :
    lane = lane' := by
  cases lane <;> cases lane' <;> first | rfl | cases h

/-- A receive call takes the first message of its queue. -/
theorem receiveCall_waiting {link : FramedLink} {lane : Lane} {message : Bytes}
    {waiting : List Bytes} (hqueue : link.receiveQueue lane = message :: waiting) :
    (link.step (receiveCall lane)).1 = .received (.ok (some message)) := by
  cases lane with
  | control =>
    have hreceive : link.controlReceive = message :: waiting := hqueue
    simp only [receiveCall, FramedLink.step, FramedLink.tryReceiveControl, hreceive, Prod.map]
  | data =>
    have hreceive : link.receive = message :: waiting := hqueue
    simp only [receiveCall, FramedLink.step, FramedLink.tryReceive, hreceive, Prod.map]

theorem step_receiveCall (c : ClosingLink) (lane : Lane) :
    c.step (.framed (receiveCall lane)) = c.beginReceive lane := by
  cases lane <;> rfl

theorem beginReceive_cases (c : ClosingLink) (lane : Lane) :
    StepCase c (.framed (receiveCall lane)) (c.beginReceive lane) := by
  unfold beginReceive
  split
  · exact .idle _ (receiveCall_delivers lane)
  next hbusy =>
    have hfree : c.receiving = none := Option.not_isSome_iff_eq_none.mp hbusy
    split
    next hempty =>
      split
      next hgone => exact .drained lane hfree hempty hgone
      next hthere => exact .looks lane hfree hempty (Bool.eq_false_iff.mpr hthere)
    next hready =>
      refine .framed (receiveCall lane) ?_ ?_
      · rw [receiveCall_delivers]
        nofun
      · intro lane' hlane
        obtain rfl := receiveCall_inj hlane
        exact hready

theorem answer_cases (c : ClosingLink) : StepCase c .answer c.answer := by
  unfold answer
  split
  · exact .idle .answer rfl
  next lane hlooks => exact .answered lane hlooks

theorem finishWrite_cases (c : ClosingLink) :
    StepCase c .finishWrite (.stepped, c.finishWrite) := by
  unfold finishWrite
  split
  next hshut => exact .shut hshut.1 hshut.2.1 hshut.2.2.1 hshut.2.2.2
  next => exact .idle .finishWrite rfl

theorem readEnd_cases (c : ClosingLink) : StepCase c .readEnd (.stepped, c.readEnd) := by
  unfold readEnd
  split
  next hend =>
    split
    next got hreader => exact .ended got hend.1 hend.2 hreader
    next length got hreader => exact .broken length got hend.1 hend.2 hreader
    next => exact .idle .readEnd rfl
  next => exact .idle .readEnd rfl

theorem exitReader_cases (c : ClosingLink) :
    StepCase c .exitReader (.stepped, c.exitReader) := by
  unfold exitReader
  split
  next hended => exact .exits hended
  next => exact .idle .exitReader rfl

theorem step_cases (c : ClosingLink) (call : ClosingCall) : StepCase c call (c.step call) := by
  cases call with
  | framed call =>
    -- Only a receive call looks at a receive queue.
    have hother {other : FramedCall} (hcontrol : other ≠ .tryReceiveControl)
        (hdata : other ≠ .tryReceive) (lane : Lane) (hlane : other = receiveCall lane) :
        c.link.receiveQueue lane ≠ [] := by
      cases lane with
      | control => exact absurd hlane hcontrol
      | data => exact absurd hlane hdata
    cases call with
    | trySend message =>
      simp only [step, trySend]
      split
      next hclosed => exact .refused (.trySend message) _ hclosed rfl
      next hopen =>
        exact .framed (.trySend message) (fun _ => Bool.eq_false_iff.mpr hopen)
          (hother nofun nofun)
    | controlSend protocol message =>
      simp only [step, controlSend]
      split
      next hclosed =>
        split
        · exact .refused (.controlSend protocol message) _ hclosed rfl
        · exact .refused (.controlSend protocol message) _ hclosed rfl
      next hopen =>
        exact .framed (.controlSend protocol message) (fun _ => Bool.eq_false_iff.mpr hopen)
          (hother nofun nofun)
    | tryReceive => exact beginReceive_cases c .data
    | tryReceiveControl => exact beginReceive_cases c .control
    | takeNext => exact .framed .takeNext nofun (hother nofun nofun)
    | writeByte => exact .framed .writeByte nofun (hother nofun nofun)
    | readByte => exact .framed .readByte nofun (hother nofun nofun)
    | forward => exact .framed .forward nofun (hother nofun nofun)
  | answer => exact answer_cases c
  | closeWrite => exact .closed
  | finishWrite => exact finishWrite_cases c
  | readEnd => exact readEnd_cases c
  | exitReader => exact exitReader_cases c

/-- The ledger of the open connection, and what the closed ends have found. -/
structure Ledger (c : ClosingLink) (sent received : Lane → List Bytes) : Prop where
  open_ledger : c.link.Ledger sent received
  written : c.shutdown = true → c.writeClosed = true ∧ c.link.control = [] ∧ c.link.data = [] ∧
    c.link.writer = .running []
  drained : c.readerDone = true → c.shutdown = true ∧ c.link.wire = [] ∧
    ∃ got, c.link.reader = .header got
  exited : c.exit ≠ .reading → c.readerDone = true

variable {c : ClosingLink} {sent received : Lane → List Bytes}

theorem takeNext_idle {link : FramedLink} (hcontrol : link.control = []) (hdata : link.data = [])
    (hwriter : link.writer = .running []) : (link.step .takeNext).2 = link := by
  simp only [FramedLink.step, FramedLink.takeNext, hcontrol, hdata, hwriter]

theorem writeByte_idle {link : FramedLink} (hwriter : link.writer = .running []) :
    (link.step .writeByte).2 = link := by
  simp only [FramedLink.step, FramedLink.writeByte, hwriter]

/-- With its queues empty and no frame begun the writer stays idle. -/
theorem writer_idle {link : FramedLink} {call : FramedCall} (hcall : call.delivers = true)
    (hcontrol : link.control = []) (hdata : link.data = []) (hwriter : link.writer = .running []) :
    (link.step call).2.control = [] ∧ (link.step call).2.data = [] ∧
      (link.step call).2.writer = .running [] := by
  cases call with
  | trySend message => cases hcall
  | controlSend protocol message => cases hcall
  | takeNext =>
    rw [takeNext_idle hcontrol hdata hwriter]
    exact ⟨hcontrol, hdata, hwriter⟩
  | writeByte =>
    rw [writeByte_idle hwriter]
    exact ⟨hcontrol, hdata, hwriter⟩
  | readByte =>
    simp only [FramedLink.step, FramedLink.readByte]
    split <;> exact ⟨hcontrol, hdata, hwriter⟩
  | forward =>
    simp only [FramedLink.step, FramedLink.forward]
    split
    · split <;> split <;> exact ⟨hcontrol, hdata, hwriter⟩
    · exact ⟨hcontrol, hdata, hwriter⟩
  | tryReceive =>
    simp only [FramedLink.step, FramedLink.tryReceive, Prod.map, id]
    split <;> exact ⟨hcontrol, hdata, hwriter⟩
  | tryReceiveControl =>
    simp only [FramedLink.step, FramedLink.tryReceiveControl, Prod.map, id]
    split <;> exact ⟨hcontrol, hdata, hwriter⟩

/-- Between two frames, with nothing to write or to read, the reader stays where it is. -/
theorem reader_idle {link : FramedLink} {call : FramedCall} {got : Bytes}
    (hcall : call.delivers = true) (hcontrol : link.control = []) (hdata : link.data = [])
    (hwriter : link.writer = .running []) (hwire : link.wire = [])
    (hreader : link.reader = .header got) :
    (link.step call).2.wire = [] ∧ (link.step call).2.reader = .header got := by
  cases call with
  | trySend message => cases hcall
  | controlSend protocol message => cases hcall
  | takeNext =>
    rw [takeNext_idle hcontrol hdata hwriter]
    exact ⟨hwire, hreader⟩
  | writeByte =>
    rw [writeByte_idle hwriter]
    exact ⟨hwire, hreader⟩
  | readByte =>
    have hsame : (link.step .readByte).2 = link := by
      simp only [FramedLink.step, FramedLink.readByte, hwire, hreader]
    rw [hsame]
    exact ⟨hwire, hreader⟩
  | forward =>
    have hsame : (link.step .forward).2 = link := by
      simp only [FramedLink.step, FramedLink.forward, hreader]
    rw [hsame]
    exact ⟨hwire, hreader⟩
  | tryReceive =>
    simp only [FramedLink.step, FramedLink.tryReceive, Prod.map, id]
    split <;> exact ⟨hwire, hreader⟩
  | tryReceiveControl =>
    simp only [FramedLink.step, FramedLink.tryReceiveControl, Prod.map, id]
    split <;> exact ⟨hwire, hreader⟩

/-- A framed call tells of the same messages on the connection that may be closed. -/
theorem sentOn_framed (lane : Lane) (c c' : ClosingLink) (link : FramedLink) (call : FramedCall) :
    sentOn lane ⟨c, .framed call, (link.step call).1, c'⟩ =
      FramedLink.sentOn lane (RunHistory.event FramedLink.step link call) := by
  simp only [RunHistory.event]
  generalize (link.step call).1 = reply
  rcases reply with (e | _) | _ | _ <;> cases lane <;> cases call <;> rfl

theorem receivedOn_framed (lane : Lane) (c c' : ClosingLink) (link : FramedLink)
    (call : FramedCall) : receivedOn lane ⟨c, .framed call, (link.step call).1, c'⟩ =
      FramedLink.receivedOn lane (RunHistory.event FramedLink.step link call) := by
  simp only [RunHistory.event]
  generalize (link.step call).1 = reply
  rcases reply with _ | _ | (e | (_ | message)) <;> cases lane <;> cases call <;> rfl

theorem sentOn_silent {c c' : ClosingLink} {call : ClosingCall} {reply : FramedReply} (lane : Lane)
    (h : reply ≠ .sent (.ok ()) ∨ call = .closeWrite) : sentOn lane ⟨c, call, reply, c'⟩ = [] := by
  unfold sentOn
  split
  next hinput hreply =>
    rcases h with hsent | hclose
    · exact absurd hreply hsent
    · rw [hclose] at hinput
      cases hinput
  next hinput hreply =>
    rcases h with hsent | hclose
    · exact absurd hreply hsent
    · rw [hclose] at hinput
      cases hinput
  next => rfl

theorem receivedOn_silent {c c' : ClosingLink} {call : ClosingCall} {reply : FramedReply}
    (lane : Lane) (h : ∀ message, reply ≠ .received (.ok (some message))) :
    receivedOn lane ⟨c, call, reply, c'⟩ = [] := by
  unfold receivedOn
  split
  next message hinput hreply => exact absurd hreply (h message)
  next message hinput hreply => exact absurd hreply (h message)
  next => rfl

theorem Ledger.silent {c' : ClosingLink} {e : ClosingEvent} (h : c'.Ledger sent received)
    (he : ∀ lane, sentOn lane e = [] ∧ receivedOn lane e = []) :
    c'.Ledger (fun lane => sent lane ++ sentOn lane e)
      fun lane => received lane ++ receivedOn lane e := by
  refine ⟨h.open_ledger.congr ?_ ?_, h.written, h.drained, h.exited⟩
  · intro lane
    rw [(he lane).1, List.append_nil]
  · intro lane
    rw [(he lane).2, List.append_nil]

/-- On a connection with a ledger the reader ends only at the end of the stream. -/
theorem Ledger.reader_alive (h : c.Ledger sent received) :
    c.readEnded = c.readerDone ∧ c.terminalOr readClosedError = readClosedError := by
  obtain ⟨stream, hcarries, -⟩ := h.open_ledger.lanes
  have hreading := hcarries.reading
  unfold readEnded terminalOr
  cases hreader : c.link.reader with
  | finished e =>
    rw [hreader] at hreading
    exact hreading.elim
  | header | body | handing => exact ⟨rfl, rfl⟩

/-- Every call keeps the ledger, also when the connection is being closed. -/
theorem Ledger.step (h : c.Ledger sent received)
    (hfits : ∀ lane, ∀ message ∈ sent lane, Fits lane message) (call : ClosingCall) :
    (c.step call).2.Ledger (fun lane => sent lane ++ sentOn lane (event step c call))
      fun lane => received lane ++ receivedOn lane (event step c call) := by
  have hcases := step_cases c call
  simp only [event]
  generalize c.step call = stepped at hcases ⊢
  cases hcases with
  | framed call hopen hready =>
    -- After the half-close only deliveries get this far.
    have hdelivers (hshut : c.shutdown = true) : call.delivers = true := by
      cases hcall : call.delivers with
      | true => rfl
      | false =>
        have hclosed := (h.written hshut).1
        rw [hopen hcall] at hclosed
        cases hclosed
    refine ⟨?_, ?_, ?_, h.exited⟩
    · simp only [sentOn_framed, receivedOn_framed]
      exact h.open_ledger.step hfits call
    · intro hshut
      obtain ⟨hclosed, hcontrol, hdata, hwriter⟩ := h.written hshut
      exact ⟨hclosed, writer_idle (hdelivers hshut) hcontrol hdata hwriter⟩
    · intro hdone
      obtain ⟨hshut, hwire, got, hreader⟩ := h.drained hdone
      obtain ⟨-, hcontrol, hdata, hwriter⟩ := h.written hshut
      obtain ⟨hwire', hreader'⟩ :=
        reader_idle (hdelivers hshut) hcontrol hdata hwriter hwire hreader
      exact ⟨hshut, hwire', got, hreader'⟩
  | idle | refused | drained =>
    exact h.silent fun lane =>
      ⟨sentOn_silent lane (Or.inl (by simp)), receivedOn_silent lane (by simp)⟩
  | looks | answered =>
    refine Ledger.silent ?_ fun lane =>
      ⟨sentOn_silent lane (Or.inl (by simp)), receivedOn_silent lane (by simp)⟩
    exact ⟨h.open_ledger, h.written, h.drained, h.exited⟩
  | closed =>
    refine Ledger.silent ?_ fun lane =>
      ⟨sentOn_silent lane (Or.inr rfl), receivedOn_silent lane (by simp)⟩
    exact ⟨h.open_ledger, fun hshut => ⟨rfl, (h.written hshut).2⟩, h.drained, h.exited⟩
  | shut hclosed hcontrol hdata hwriter =>
    refine Ledger.silent ?_ fun lane =>
      ⟨sentOn_silent lane (Or.inl (by simp)), receivedOn_silent lane (by simp)⟩
    exact ⟨h.open_ledger, fun _ => ⟨hclosed, hcontrol, hdata, hwriter⟩,
      fun hdone => ⟨rfl, (h.drained hdone).2⟩, h.exited⟩
  | ended got hshut hwire hreader =>
    refine Ledger.silent ?_ fun lane =>
      ⟨sentOn_silent lane (Or.inl (by simp)), receivedOn_silent lane (by simp)⟩
    exact ⟨h.open_ledger, h.written, fun _ => ⟨hshut, hwire, got, hreader⟩, fun _ => rfl⟩
  | broken length got hshut hwire hreader =>
    -- The stream does not end inside a frame that was written.
    obtain ⟨stream, hcarries, -⟩ := h.open_ledger.lanes
    have hstream := hcarries.stream_nil hwire (h.written hshut).2.2.2
    obtain ⟨rest, -, hbytes⟩ := hcarries.writing
    rw [hstream, hreader, FrameReader.consumed] at hbytes
    have hlen := congrArg List.length hbytes
    rw [List.length_append, List.length_append, length_beBytes, List.flatMap_nil,
      List.length_nil] at hlen
    omega
  | exits hended =>
    refine Ledger.silent ?_ fun lane =>
      ⟨sentOn_silent lane (Or.inl (by simp)), receivedOn_silent lane (by simp)⟩
    exact ⟨h.open_ledger, h.written, h.drained, fun _ => h.reader_alive.1.symm.trans hended⟩

theorem ledger_spawn {budget : TransportBudget} (h : spawn budget = .ok c) :
    c.Ledger (fun _ => []) fun _ => [] := by
  unfold spawn at h
  split at h
  · cases h
  next link hlink =>
    obtain rfl := Except.ok.inj h
    exact ⟨FramedLink.ledger_spawn hlink, nofun, nofun, fun hexit => absurd rfl hexit⟩

/-- A free connection takes what its receive queue holds as the link does. -/
theorem step_framed (hfree : c.receiving = none) {call : FramedCall}
    (hcall : call.isTask = true ∨ (call = .tryReceive ∧ c.link.receive ≠ []) ∨
      (call = .tryReceiveControl ∧ c.link.controlReceive ≠ [])) :
    (c.step (.framed call)).2 = { c with link := (c.link.step call).2 } := by
  have hreceives (lane : Lane) (hready : c.link.receiveQueue lane ≠ []) :
      (c.step (.framed (receiveCall lane))).2 =
        { c with link := (c.link.step (receiveCall lane)).2 } := by
    rw [step_receiveCall, beginReceive, hfree, if_neg (by simp), if_neg hready]
    rfl
  rcases hcall with htask | ⟨rfl, hreceive⟩ | ⟨rfl, hreceive⟩
  · cases call with
    | takeNext | writeByte | readByte | forward => rfl
    | _ => cases htask
  · exact hreceives .data hreceive
  · exact hreceives .control hreceive

/-- What deliveries have left to do. -/
def load (c : ClosingLink) : ℕ := c.link.load+if c.receiving = none then 0 else 1

theorem load_eq_zero : c.load = 0 ↔ c.link.load = 0 ∧ c.receiving = none := by
  unfold load
  split
  next hfree => simp [hfree]
  next hlooks => simp [hlooks]

theorem load_answer {lane : Lane} (h : c.receiving = some lane) :
    (c.step .answer).2.load < c.load := by
  simp only [step, answer, h, load, if_true, reduceCtorEq, if_false]
  omega

theorem keepsLedger : KeepsLedger step sentOn receivedOn delivers Ledger load where
  keeps h hfits call := h.step hfits call
  isPrefix h lane := h.open_ledger.received_isPrefix lane
  less {c _ _} h hfits hload := by
    cases hreceiving : c.receiving with
    | some lane => exact ⟨.answer, rfl, load_answer hreceiving⟩
    | none =>
      have hlink : c.link.load ≠ 0 := by
        rw [load, hreceiving, if_pos rfl] at hload
        exact hload
      obtain ⟨call, hless, hcall⟩ := h.open_ledger.exists_less hfits hlink
      refine ⟨.framed call, ?_, ?_⟩
      · rcases hcall with htask | ⟨rfl, -⟩ | ⟨rfl, -⟩
        · cases call <;> first | rfl | cases htask
        · rfl
        · rfl
      · rw [step_framed hreceiving hcall]
        simp only [load, hreceiving, if_true]
        exact hless
  all_received h hload lane := h.open_ledger.received_of_load_zero (load_eq_zero.mp hload).1 lane
  silent c call hcall lane := by
    have hcases := step_cases c call
    simp only [event]
    generalize c.step call = stepped at hcases ⊢
    cases hcases with
    | framed call hopen hready =>
      rw [sentOn_framed]
      exact FramedLink.delivers_silent c.link hcall lane
    | closed => cases hcall
    | idle | refused | drained | looks | answered | shut | ended | broken | exits =>
      exact sentOn_silent lane (Or.inl (by simp))
  frames e message hmessage := by
    unfold sentOn at hmessage
    split at hmessage
    next hlane hcall hreply => cases hlane
    next protocol sent hlane hcall hreply => exact laneOf_mem_controlFrame hmessage
    next => cases hmessage

/-- Once the writing end is closed, no call sends anything. -/
theorem closed_step (h : c.writeClosed = true) (call : ClosingCall) :
    (c.step call).2.writeClosed = true ∧ ∀ lane, sentOn lane (event step c call) = [] := by
  have hcases := step_cases c call
  simp only [event]
  generalize c.step call = stepped at hcases ⊢
  cases hcases with
  | framed call hopen hready =>
    refine ⟨h, fun lane => ?_⟩
    rw [sentOn_framed]
    apply FramedLink.delivers_silent
    cases hcall : call.delivers with
    | true => rfl
    | false =>
      rw [hopen hcall] at h
      cases h
  | closed => exact ⟨rfl, fun lane => sentOn_silent lane (Or.inr rfl)⟩
  | idle | refused | drained | looks | answered | shut | ended | broken | exits =>
    exact ⟨h, fun lane => sentOn_silent lane (Or.inl (by simp))⟩

theorem closed_trace (h : c.writeClosed = true) (calls : List ClosingCall) (lane : Lane) :
    (trace step c calls).flatMap (sentOn lane) = [] := by
  induction calls generalizing c with
  | nil => rfl
  | cons call calls ih =>
    obtain ⟨hnext, hsilent⟩ := closed_step h call
    rw [trace_cons, List.flatMap_cons, hsilent lane, List.nil_append]
    exact ih hnext

/-- A receive call answers that the read side is closed after the reader has ended. The answer may
come at once, when the call has found its queue empty. -/
theorem Ledger.closed_reply (h : c.Ledger sent received) {call : ClosingCall}
    (hreply : (c.step call).1 = .received (.error readClosedError)) :
    c.readerDone = true ∧ (c.step call).2 = { c with receiving := none } ∧
      ∀ lane, call = .framed (receiveCall lane) → c.link.receiveQueue lane = [] := by
  have hcases := step_cases c call
  generalize c.step call = stepped at hcases hreply ⊢
  cases hcases with
  | framed call hopen hready =>
    -- A receive call that finds a message answers with it.
    have hreceives (lane : Lane) (hcall : call = receiveCall lane) : False := by
      obtain ⟨message, waiting, hqueue⟩ := List.exists_cons_of_ne_nil (hready lane hcall)
      have hanswer := receiveCall_waiting hqueue
      rw [← hcall] at hanswer
      cases hanswer.symm.trans hreply
    cases call with
    | tryReceive => exact (hreceives .data rfl).elim
    | tryReceiveControl => exact (hreceives .control rfl).elim
    | _ => cases hreply
  | drained lane hfree hempty hgone =>
    refine ⟨h.exited (ReaderExit.ne_reading_of_disconnects hgone), ?_, ?_⟩
    · rw [← hfree]
    · intro lane' hlane
      obtain rfl := receiveCall_inj (ClosingCall.framed.inj hlane)
      exact hempty
  | answered lane hlooks =>
    refine ⟨?_, rfl, ?_⟩
    · by_cases hfinished : c.exit = .finished
      · exact h.exited (by simp [hfinished])
      · -- While the reader is at work an empty queue is no error but a message to come.
        rw [if_neg hfinished] at hreply
        cases lane <;> cases hreply
    · intro lane' hcall
      cases hcall
  | idle | refused | looks | closed | shut | ended | broken | exits => cases hreply

/-- With no receive call under way, one takes the message that its queue holds. -/
theorem receive_waiting (hfree : c.receiving = none) {lane : Lane} {message : Bytes}
    {waiting : List Bytes} (hqueue : c.link.receiveQueue lane = message :: waiting) :
    (c.step (.framed (receiveCall lane))).1 = .received (.ok (some message)) := by
  rw [step_receiveCall, beginReceive, hfree, hqueue, if_neg (by simp), if_neg (by simp)]
  exact receiveCall_waiting hqueue

/-- With nothing waiting and the reader gone, a receive call answers that the read side is closed.
-/
theorem Ledger.receive_closed (h : c.Ledger sent received) (hexit : c.exit = .finished)
    (hfree : c.receiving = none) {lane : Lane} (hqueue : c.link.receiveQueue lane = []) :
    (c.step (.framed (receiveCall lane))).1 = .received (.error readClosedError) := by
  have hgone : c.exit.disconnects lane = true := by
    rw [hexit]
    exact ReaderExit.disconnects_finished lane
  rw [step_receiveCall, beginReceive, hfree, if_neg (by simp), if_pos hqueue, if_pos hgone,
    h.reader_alive.2]

/-- When the reader has ended, nothing is under way: what was sent has been received or waits in
its receive queue. -/
theorem Ledger.drained_lane (h : c.Ledger sent received) (hdone : c.readerDone = true)
    (lane : Lane) : sent lane = received lane ++ c.link.receiveQueue lane := by
  obtain ⟨hshut, hwire, got, hreader⟩ := h.drained hdone
  obtain ⟨-, hcontrol, hdata, hwriter⟩ := h.written hshut
  obtain ⟨stream, hcarries, hlanes⟩ := h.open_ledger.lanes
  have hstream := hcarries.stream_nil hwire hwriter
  rw [hlanes lane, FramedLink.pending, hstream, hreader]
  cases lane <;> simp [FrameReader.inHand, FramedLink.sendQueue, hcontrol, hdata]

/-- The steps in which a closed connection ends. -/
def endingCalls : List ClosingCall :=
  [.finishWrite, .readEnd, .exitReader, .exitReader, .exitReader]

theorem endingCalls_deliver : ∀ call ∈ endingCalls, delivers call = true := by
  decide

/-- With nothing left to do the closed writer shuts down, and the reader finds the end between two
frames, drops its ends of both queues and is finished. -/
theorem Ledger.ends (h : c.Ledger sent received) (hclosed : c.writeClosed = true)
    (hload : c.link.load = 0) :
    run ClosingLink.step c endingCalls =
        { c with shutdown := true, readerDone := true, exit := .finished } ∧
      ∀ lane, c.link.receiveQueue lane = [] := by
  obtain ⟨stream, hcarries, -⟩ := h.open_ledger.lanes
  obtain ⟨rest, hwriter, hbytes⟩ := hcarries.writing
  have hzero := hload
  unfold FramedLink.load at hzero
  rw [hwriter] at hzero
  simp only [Nat.add_eq_zero_iff, List.length_eq_zero_iff, Nat.mul_eq_zero, OfNat.ofNat_ne_zero,
    false_or] at hzero
  obtain ⟨⟨⟨⟨hqueues, rfl⟩, hwire⟩, hhand⟩, hcontrolReceive, hreceive⟩ := hzero
  have hempty : c.link.control ++ c.link.data = [] := by
    cases hall : c.link.control ++ c.link.data with
    | nil => rfl
    | cons message more =>
      rw [hall, List.map_cons, List.sum_cons, FramedLink.cost] at hqueues
      omega
  obtain ⟨hcontrol, hdata⟩ := List.append_eq_nil_iff.mp hempty
  -- The reader has taken no byte of another frame.
  have hconsumed : c.link.reader.consumed = [] := by
    rw [hcarries.stream_nil hwire hwriter] at hbytes
    exact (List.append_eq_nil_iff.mp hbytes).1
  have hreader : ∃ got, c.link.reader = .header got := by
    have hreading := hcarries.reading
    cases hreader : c.link.reader with
    | header got => exact ⟨got, rfl⟩
    | body length got =>
      rw [hreader, FrameReader.consumed] at hconsumed
      have hlen := congrArg List.length hconsumed
      rw [List.length_append, length_beBytes, List.length_nil] at hlen
      omega
    | handing message =>
      rw [hreader] at hhand
      cases hhand
    | finished e =>
      rw [hreader] at hreading
      exact hreading.elim
  obtain ⟨got, hreader⟩ := hreader
  refine ⟨?_, fun lane => by cases lane <;> assumption⟩
  have hshut : c.finishWrite = { c with shutdown := true } :=
    if_pos ⟨hclosed, hcontrol, hdata, hwriter⟩
  have hend : readEnd { c with shutdown := true } =
      { c with shutdown := true, readerDone := true } := by
    unfold readEnd
    rw [if_pos ⟨rfl, hwire⟩]
    split
    next => rfl
    next length got' heq => exact absurd (hreader.symm.trans heq) (by simp)
    next hheader hbody => exact absurd hreader (hheader got)
  have hexit (exit : ReaderExit) :
      exitReader { c with shutdown := true, readerDone := true, exit } =
        { c with shutdown := true, readerDone := true, exit := exit.next } := by
    unfold exitReader readEnded
    rw [hreader]
    rfl
  show c.finishWrite.readEnd.exitReader.exitReader.exitReader = _
  rw [hshut, hend, hexit, hexit, hexit, c.exit.next_finishes]

section Run
variable {budget : TransportBudget} {calls : List ClosingCall}

/-- What a run has left when a receive call answers that the read side is closed. -/
theorem closed_reply_in_run (hspawn : spawn budget = .ok c)
    (hmarked : WellMarked step sentOn c calls) {before after : List ClosingEvent} {e : ClosingEvent}
    (hsplit : trace step c calls = before ++ e :: after)
    (hreply : e.reply = .received (.error readClosedError)) :
    (∀ lane, e.input = .framed (receiveCall lane) →
      before.flatMap (sentOn lane) = before.flatMap (receivedOn lane)) ∧
    (∀ lane, before.flatMap (sentOn lane) =
      before.flatMap (receivedOn lane) ++ e.pre.link.receiveQueue lane) ∧
    ∀ lane message waiting, e.pre.link.receiveQueue lane = message :: waiting →
      (e.post.step (.framed (receiveCall lane))).1 = .received (.ok (some message)) := by
  obtain ⟨js, call, ks, hcalls, rfl, rfl, rfl⟩ := trace_cut step hsplit
  have hbefore : (run step c js).Ledger (fun lane => (trace step c js).flatMap (sentOn lane))
      fun lane => (trace step c js).flatMap (receivedOn lane) := by
    refine keepsLedger.run (ledger_spawn hspawn) js ?_
    intro lane message hmessage
    refine keepsLedger.wellMarked_iff.mp hmarked lane message ?_
    rw [hsplit, List.flatMap_append]
    exact List.mem_append_left _ hmessage
  obtain ⟨hdone, hpost, hempty⟩ := hbefore.closed_reply hreply
  refine ⟨?_, hbefore.drained_lane hdone, ?_⟩
  · intro lane hlane
    rw [hbefore.drained_lane hdone lane, hempty lane hlane, List.append_nil]
  · intro lane message waiting hqueue
    show ((step (run step c js) call).2.step (.framed (receiveCall lane))).1 = _
    rw [hpost]
    exact receive_waiting rfl hqueue

/-- Deliveries bring a closed connection to its end. -/
theorem exists_ending (hspawn : spawn budget = .ok c) (hmarked : WellMarked step sentOn c calls)
    (hclosed : (run step c calls).writeClosed = true) :
    ∃ more, (∀ call ∈ more, delivers call = true) ∧
      (∀ lane, (trace step c (calls ++ more)).flatMap (receivedOn lane) =
        (trace step c calls).flatMap (sentOn lane)) ∧
      ∀ lane, ((run step c (calls ++ more)).step (.framed (receiveCall lane))).1 =
        .received (.error readClosedError) := by
  have h0 := ledger_spawn hspawn
  have hfits := keepsLedger.wellMarked_iff.mp hmarked
  obtain ⟨more, hmore, hload⟩ := keepsLedger.exists_delivery (keepsLedger.run h0 calls hfits) hfits
  have hclosed' : (run step c (calls ++ more)).writeClosed = true := by
    rw [run_append]
    exact run_invariant step (I := fun c => c.writeClosed = true)
      (fun c call h => (closed_step h call).1) hclosed more
  have hsent {more : List ClosingCall} (hmore : ∀ call ∈ more, delivers call = true)
      (lane : Lane) : (trace step c (calls ++ more)).flatMap (sentOn lane) =
        (trace step c calls).flatMap (sentOn lane) := by
    rw [trace_append, List.flatMap_append, keepsLedger.trace_silent hmore, List.append_nil]
  have hledger {more : List ClosingCall} (hmore : ∀ call ∈ more, delivers call = true) :=
    keepsLedger.run h0 (calls ++ more) fun lane => by
      rw [hsent hmore lane]
      exact hfits lane
  rw [← run_append] at hload
  obtain ⟨hlink, hfree⟩ := load_eq_zero.mp hload
  obtain ⟨hends, hqueues⟩ := (hledger hmore).ends hclosed' hlink
  have hmore' : ∀ call ∈ more ++ endingCalls, delivers call = true := by
    intro call hcall
    rcases List.mem_append.mp hcall with hcall | hcall
    · exact hmore call hcall
    · exact endingCalls_deliver call hcall
  have hended : run step c (calls ++ (more ++ endingCalls)) =
      { run step c (calls ++ more) with
        shutdown := true, readerDone := true, exit := .finished } := by
    rw [← List.append_assoc, run_append]
    exact hends
  refine ⟨more ++ endingCalls, hmore', ?_, ?_⟩
  · intro lane
    have hend : (trace step (run step c (calls ++ more)) endingCalls).flatMap
        (receivedOn lane) = [] := by
      cases lane <;> rfl
    rw [← List.append_assoc, trace_append, List.flatMap_append, hend, List.append_nil,
      ← keepsLedger.all_received (hledger hmore) hload lane, hsent hmore lane]
  · intro lane
    have hlast := hledger hmore'
    rw [hended] at hlast ⊢
    exact hlast.receive_closed rfl hfree (hqueues lane)

end Run

/-- Everything that was accepted before a half-close is delivered: no later call sends, what was
received is a front part of what was sent, and deliveries always bring a closed connection to where
all was received and every receive call answers that the read side is closed. A call that finds its
queue empty gives this answer at once only when its lane has been received whole. One that found it
empty while the reader was still at work may give it with messages waiting, but never with one
under way, and the next call takes the first of them. -/
theorem half_close_loses_nothing (budget : TransportBudget) (c : ClosingLink)
    (hspawn : spawn budget = .ok c) (calls : List ClosingCall)
    (hmarked : WellMarked step sentOn c calls) :
    (∀ lane, (trace step c calls).flatMap (receivedOn lane) <+:
      (trace step c calls).flatMap (sentOn lane)) ∧
    (∀ before e after, trace step c calls = before ++ e :: after →
      (e.input = .closeWrite → ∀ lane, after.flatMap (sentOn lane) = []) ∧
      (e.reply = .received (.error readClosedError) →
        (∀ lane, e.input = .framed (receiveCall lane) →
          before.flatMap (sentOn lane) = before.flatMap (receivedOn lane)) ∧
        (∀ lane, before.flatMap (sentOn lane) =
          before.flatMap (receivedOn lane) ++ e.pre.link.receiveQueue lane) ∧
        ∀ lane message waiting, e.pre.link.receiveQueue lane = message :: waiting →
          (e.post.step (.framed (receiveCall lane))).1 = .received (.ok (some message)))) ∧
    ((run step c calls).writeClosed = true → ∃ more, (∀ call ∈ more, delivers call = true) ∧
      (∀ lane, (trace step c (calls ++ more)).flatMap (receivedOn lane) =
        (trace step c calls).flatMap (sentOn lane)) ∧
      ∀ lane, ((run step c (calls ++ more)).step (.framed (receiveCall lane))).1 =
        .received (.error readClosedError)) := by
  have hfits := keepsLedger.wellMarked_iff.mp hmarked
  refine ⟨keepsLedger.isPrefix (keepsLedger.run (ledger_spawn hspawn) calls hfits), ?_,
    exists_ending hspawn hmarked⟩
  intro before e after hsplit
  refine ⟨?_, closed_reply_in_run hspawn hmarked hsplit⟩
  obtain ⟨js, call, ks, hcalls, rfl, rfl, rfl⟩ := trace_cut step hsplit
  intro hclose lane
  have hcall : call = .closeWrite := hclose
  subst hcall
  exact closed_trace rfl ks lane

/-- A message is accepted and the writing end closed at once. A receive call finds its queue empty,
and before it looks at the reader that hands the message over and ends. -/
def hastyCalls : List ClosingCall :=
  [.framed (.trySend [7]), .closeWrite, .framed (.trySend [8]), .framed .tryReceive,
    .framed .takeNext] ++ List.replicate 5 (.framed .writeByte) ++
    List.replicate 5 (.framed .readByte) ++ [.framed .forward, .finishWrite, .readEnd] ++
    List.replicate 3 .exitReader

/-- The receive call answers that the read side is closed, the next one takes the message, and only
that is ever received. -/
theorem half_close_of_hasty_sender : ∃ c, spawn {} = .ok c ∧
    ((run step c hastyCalls).step .answer).1 = .received (.error readClosedError) ∧
    (((run step c hastyCalls).step .answer).2.step (.framed .tryReceive)).1 =
      .received (.ok (some [7])) ∧
    ∃ more, (trace step c (hastyCalls ++ [.answer] ++ more)).flatMap (receivedOn .data) = [[7]] ∧
      ∀ lane, ((run step c (hastyCalls ++ [.answer] ++ more)).step
        (.framed (receiveCall lane))).1 = .received (.error readClosedError) := by
  obtain ⟨c, hc, hmarked, hclosed, hsent, hreply, hqueue⟩ : ∃ c, spawn {} = .ok c ∧
      WellMarked step sentOn c (hastyCalls ++ [.answer]) ∧
      (run step c (hastyCalls ++ [.answer])).writeClosed = true ∧
      (trace step c (hastyCalls ++ [.answer])).flatMap (sentOn .data) = [[7]] ∧
      ((run step c hastyCalls).step .answer).1 = .received (.error readClosedError) ∧
      (run step c hastyCalls).link.receiveQueue .data = [[7]] :=
    ⟨_, rfl, ⟨by decide, by decide⟩, by decide, by decide, by decide, by decide⟩
  obtain ⟨-, hevents, hmore⟩ :=
    half_close_loses_nothing {} c hc (hastyCalls ++ [.answer]) hmarked
  obtain ⟨-, hanswer⟩ := hevents (trace step c hastyCalls)
    (event step (run step c hastyCalls) .answer) [] (trace_append step c hastyCalls [.answer])
  obtain ⟨-, -, hnext⟩ := hanswer hreply
  obtain ⟨more, -, hreceived, hend⟩ := hmore hclosed
  refine ⟨c, hc, hreply, ?_, more, (hreceived .data).trans hsent, hend⟩
  exact hnext .data [7] [] hqueue

end ClosingLink

end MutsukiLink
