import MutsukiLink.FramedModel

/-! The lanes of a framed connection. The bytes under way are the frames of a list of messages, and
each lane is the part of that list between its two queues. -/
namespace MutsukiLink
open WireBytes

inductive Lane where
  | control | data
deriving DecidableEq, Repr

/-- The lane that the reader gives a message to. -/
def laneOf (message : Bytes) : Lane := if isControl message then .control else .data

/-- A message on the byte stream. -/
def frame (message : Bytes) : Bytes := beBytes 4 message.length ++ message

/-- The length at the front of a frame says how far it goes. -/
theorem frame_length_eq {n : ℕ} {message rest bytes : Bytes} (hn : n < 2^32)
    (hmessage : message.length < 2^32) (h : beBytes 4 n ++ bytes = frame message ++ rest) :
    n = message.length ∧ bytes = message ++ rest := by
  rw [frame, List.append_assoc] at h
  have hlen : (beBytes 4 n).length = (beBytes 4 message.length).length := by
    rw [length_beBytes, length_beBytes]
  obtain ⟨hhead, htail⟩ := List.append_inj h hlen
  have hvalue := congrArg ofBeBytes hhead
  rw [ofBeBytes_beBytes 4 n (by omega), ofBeBytes_beBytes 4 message.length (by omega)] at hvalue
  exact ⟨hvalue, htail⟩

namespace FrameReader

/-- The bytes of the unfinished frame that the reader has taken from the stream. -/
def consumed : FrameReader → Bytes
  | .header got => got
  | .body length got => beBytes 4 length ++ got
  | .handing _ => []
  | .finished _ => []

/-- The message that waits for room in its queue. -/
def inHand : FrameReader → List Bytes
  | .handing message => [message]
  | _ => []

/-- The reader has not ended and its frame is unfinished. -/
def Unfinished : FrameReader → Prop
  | .header got => got.length < 4
  | .body length got => got.length < length ∧ length < 2^32
  | .handing _ => True
  | .finished _ => False

end FrameReader

namespace FramedLink
variable {link : FramedLink} {stream : List Bytes} {lane : Lane} {message : Bytes}

def sendQueue (link : FramedLink) : Lane → List Bytes
  | .control => link.control
  | .data => link.data

def receiveQueue (link : FramedLink) : Lane → List Bytes
  | .control => link.controlReceive
  | .data => link.receive

/-- The bytes between the send queues and the receive queues are the frames of these messages. -/
structure Carries (link : FramedLink) (stream : List Bytes) : Prop where
  writing : ∃ rest, link.writer = .running rest ∧
    link.reader.consumed ++ (link.wire ++ rest) = stream.flatMap frame
  reading : link.reader.Unfinished
  fits : ∀ message ∈ stream, message.length ≤ link.budget.maxFrameBytes ∧ message.length < 2^32

/-- All messages of a lane that have been accepted and not yet received, in order. -/
def pending (link : FramedLink) (stream : List Bytes) (lane : Lane) : List Bytes :=
  link.receiveQueue lane ++
    ((link.reader.inHand ++ stream).filter (laneOf · = lane) ++ link.sendQueue lane)

/-- A queued message that the writer can write and the reader will give to its own lane. -/
def Sendable (link : FramedLink) (lane : Lane) (message : Bytes) : Prop :=
  laneOf message = lane ∧ message.length ≤ link.budget.maxFrameBytes ∧ message.length < 2^32

/-- The next frame on the stream, as far as the reader has not taken it. -/
theorem Carries.next {byte : UInt8} {wire : Bytes} (h : link.Carries stream)
    (hwire : link.wire = byte :: wire) :
    ∃ message rest, stream = message :: rest ∧ message.length < 2^32 ∧
      message.length ≤ link.budget.maxFrameBytes := by
  obtain ⟨written, -, hbytes⟩ := h.writing
  cases stream with
  | nil =>
    rw [hwire, List.flatMap_nil] at hbytes
    have hnil := (List.append_eq_nil_iff.mp (List.append_eq_nil_iff.mp hbytes).2).1
    cases hnil
  | cons message rest =>
    obtain ⟨hmax, hwidth⟩ := h.fits message List.mem_cons_self
    exact ⟨message, rest, rfl, hwidth, hmax⟩

/-- One byte read by a reader that is in the header of a frame. -/
theorem readerAfter_header {budget : TransportBudget} {byte : UInt8} {got tail message : Bytes}
    {rest : List Bytes} (hgot : got.length < 4) (hwidth : message.length < 2^32)
    (hmax : message.length ≤ budget.maxFrameBytes)
    (hbytes : got ++ (byte :: tail) = (message :: rest).flatMap frame) :
    let reader := readerAfter budget byte (.header got)
    reader.Unfinished ∧
      ((reader.inHand = [] ∧ reader.consumed ++ tail = (message :: rest).flatMap frame) ∨
        (reader.inHand = [message] ∧ reader.consumed ++ tail = rest.flatMap frame)) := by
  intro reader
  have hbytes' : (got ++ [byte]) ++ tail = frame message ++ rest.flatMap frame := by
    rw [List.append_assoc, List.singleton_append, hbytes, List.flatMap_cons]
  have hreader : reader = readerAfter budget byte (.header got) := rfl
  have hlength : (got ++ [byte]).length = got.length+1 := by simp
  by_cases hshort : (got ++ [byte]).length < 4
  · have hstate : reader = .header (got ++ [byte]) := by
      rw [hreader, readerAfter]
      simp only [hshort, if_true]
    rw [hstate]
    refine ⟨hshort, Or.inl ⟨rfl, ?_⟩⟩
    rw [FrameReader.consumed, hbytes', List.flatMap_cons]
  · -- The fourth byte completes the length of the frame.
    have hfour : (got ++ [byte]).length = 4 := by omega
    rw [frame, List.append_assoc (beBytes 4 message.length)] at hbytes'
    have hsame : (got ++ [byte]).length = (beBytes 4 message.length).length := by
      rw [hfour, length_beBytes]
    obtain ⟨hhead, htail⟩ := List.append_inj hbytes' hsame
    have hvalue : ofBeBytes (got ++ [byte]) = message.length := by
      rw [hhead, ofBeBytes_beBytes 4 message.length (by omega)]
    have hallowed : ¬budget.maxFrameBytes < message.length := by omega
    by_cases hempty : message.length = 0
    · have hstate : reader = .handing [] := by
        rw [hreader, readerAfter]
        simp only [hshort, hvalue, hempty, Nat.not_lt_zero, if_false, if_true]
      have hnil : message = [] := List.eq_nil_of_length_eq_zero hempty
      rw [hstate]
      refine ⟨trivial, Or.inr ⟨by rw [hnil]; rfl, ?_⟩⟩
      rw [FrameReader.consumed, List.nil_append, htail, hnil, List.nil_append]
    · have hstate : reader = .body message.length [] := by
        rw [hreader, readerAfter]
        simp only [hshort, hvalue, hallowed, hempty, if_false]
      rw [hstate]
      refine ⟨⟨Nat.pos_of_ne_zero hempty, hwidth⟩, Or.inl ⟨rfl, ?_⟩⟩
      rw [FrameReader.consumed, List.append_nil, htail, List.flatMap_cons, frame,
        List.append_assoc]

/-- One byte read by a reader that is in the body of a frame. -/
theorem readerAfter_body (budget : TransportBudget) {byte : UInt8} {n : ℕ}
    {got tail message : Bytes} {rest : List Bytes} (hgot : got.length < n) (hn : n < 2^32)
    (hwidth : message.length < 2^32)
    (hbytes : beBytes 4 n ++ got ++ (byte :: tail) = (message :: rest).flatMap frame) :
    let reader := readerAfter budget byte (.body n got)
    reader.Unfinished ∧
      ((reader.inHand = [] ∧ reader.consumed ++ tail = (message :: rest).flatMap frame) ∨
        (reader.inHand = [message] ∧ reader.consumed ++ tail = rest.flatMap frame)) := by
  intro reader
  have hreader : reader = readerAfter budget byte (.body n got) := rfl
  have hbytes' : beBytes 4 n ++ ((got ++ [byte]) ++ tail) =
      frame message ++ rest.flatMap frame := by
    rw [List.append_assoc got, List.singleton_append, ← List.append_assoc, hbytes,
      List.flatMap_cons]
  obtain ⟨hsize, hbody⟩ := frame_length_eq hn hwidth hbytes'
  have hlength : (got ++ [byte]).length = got.length+1 := by simp
  by_cases hshort : (got ++ [byte]).length < n
  · have hstate : reader = .body n (got ++ [byte]) := by
      rw [hreader, readerAfter]
      simp only [hshort, if_true]
    rw [hstate]
    refine ⟨⟨hshort, hn⟩, Or.inl ⟨rfl, ?_⟩⟩
    rw [FrameReader.consumed, List.append_assoc, hbytes', List.flatMap_cons]
  · have hstate : reader = .handing (got ++ [byte]) := by
      rw [hreader, readerAfter]
      simp only [hshort, if_false]
    have hsame : (got ++ [byte]).length = message.length := by omega
    obtain ⟨hmessage, htail⟩ := List.append_inj hbody hsame
    rw [hstate]
    refine ⟨trivial, Or.inr ⟨by rw [FrameReader.inHand, hmessage], ?_⟩⟩
    rw [htail]
    rfl

/-- Everything but the queues stays as it is. -/
structure SameStream (link link' : FramedLink) : Prop where
  budget : link'.budget = link.budget
  writer : link'.writer = link.writer
  wire : link'.wire = link.wire
  reader : link'.reader = link.reader

theorem Carries.sameStream {link' : FramedLink} (h : link.Carries stream)
    (hsame : SameStream link link') : link'.Carries stream := by
  refine ⟨?_, ?_, ?_⟩
  · rw [hsame.writer, hsame.wire, hsame.reader]
    exact h.writing
  · rw [hsame.reader]
    exact h.reading
  · rw [hsame.budget]
    exact h.fits

theorem enqueue_ok {queue queue' : List Bytes} {capacity : ℕ}
    (h : link.enqueue queue capacity message = .ok queue') :
    queue' = queue ++ [message] ∧ message.length ≤ link.budget.maxFrameBytes := by
  unfold enqueue at h
  split at h
  · cases h
  next hmax =>
  split at h
  · cases h
  · split at h
    · cases h
    · exact ⟨(Except.ok.inj h).symm, Nat.le_of_not_lt hmax⟩

abbrev Event := RunHistory.Event FramedLink FramedCall FramedReply

/-- What a call has sent on a lane. -/
def sentOn (lane : Lane) (e : Event) : List Bytes :=
  match lane, e.input, e.reply with
  | .data, .trySend message, .sent (.ok ()) => [message]
  | .control, .controlSend protocol message, .sent (.ok ()) =>
    (controlFrame protocol message).toOption.toList
  | _, _, _ => []

/-- What a call has received from a lane. -/
def receivedOn (lane : Lane) (e : Event) : List Bytes :=
  match lane, e.input, e.reply with
  | .data, .tryReceive, .received (.ok (some message)) => [message]
  | .control, .tryReceiveControl, .received (.ok (some message)) => [message]
  | _, _, _ => []

/-- What a call does: the messages under way, and the account of every lane. -/
structure Accounts (link : FramedLink) (stream : List Bytes) (call : FramedCall)
    (stream' : List Bytes) : Prop where
  carries : (link.step call).2.Carries stream'
  budget : (link.step call).2.budget = link.budget
  lanes : ∀ lane, link.pending stream lane ++ sentOn lane (RunHistory.event step link call) =
    receivedOn lane (RunHistory.event step link call) ++ (link.step call).2.pending stream' lane
  queued : ∀ lane, ∀ m ∈ (link.step call).2.sendQueue lane,
    m ∈ link.sendQueue lane ∨ m.length ≤ link.budget.maxFrameBytes

/-- A call that works on the outer ends of the queues only: what it has sent stands behind the
send queue, and what it has received stood in front of the receive queue. -/
theorem accounts_outer {call : FramedCall} {link' : FramedLink} (h : link.Carries stream)
    (hstep : (link.step call).2 = link') (hsame : SameStream link link')
    (hsend : ∀ lane, link'.sendQueue lane =
      link.sendQueue lane ++ sentOn lane (RunHistory.event step link call))
    (hreceive : ∀ lane, link.receiveQueue lane =
      receivedOn lane (RunHistory.event step link call) ++ link'.receiveQueue lane)
    (hfits : ∀ lane, ∀ m ∈ sentOn lane (RunHistory.event step link call),
      m.length ≤ link.budget.maxFrameBytes) :
    link.Accounts stream call stream := by
  subst hstep
  refine ⟨h.sameStream hsame, hsame.budget, fun lane => ?_, fun lane m hm => ?_⟩
  · rw [pending, pending, hsame.reader, hsend, hreceive]
    simp only [List.append_assoc]
  · rw [hsend] at hm
    rcases List.mem_append.mp hm with hold | hnew
    · exact Or.inl hold
    · exact Or.inr (hfits lane m hnew)

/-- A call that changes nothing and tells of no message. -/
theorem accounts_unchanged {call : FramedCall} (h : link.Carries stream)
    (hstep : (link.step call).2 = link)
    (hsent : ∀ lane, sentOn lane (RunHistory.event step link call) = [])
    (hreceived : ∀ lane, receivedOn lane (RunHistory.event step link call) = []) :
    link.Accounts stream call stream := by
  apply accounts_outer h hstep ⟨rfl, rfl, rfl, rfl⟩
  · intro lane
    rw [hsent, List.append_nil]
  · intro lane
    rw [hreceived, List.nil_append]
  · intro lane m hm
    rw [hsent] at hm
    cases hm

theorem sentOn_refused {lane : Lane} {e : Event} (h : e.reply ≠ .sent (.ok ())) :
    sentOn lane e = [] := by
  unfold sentOn
  split
  · next hreply => exact absurd hreply h
  · next hreply => exact absurd hreply h
  · rfl

theorem receivedOn_refused {lane : Lane} {e : Event}
    (h : ∀ message, e.reply ≠ .received (.ok (some message))) : receivedOn lane e = [] := by
  unfold receivedOn
  split
  · next message hcall hreply => exact absurd hreply (h message)
  · next message hcall hreply => exact absurd hreply (h message)
  · rfl

/-- A call that is refused changes nothing. -/
theorem accounts_refused {call : FramedCall} {reply : FramedReply} (h : link.Carries stream)
    (hstep : link.step call = (reply, link)) (hsent : reply ≠ .sent (.ok ()))
    (hreceived : ∀ message, reply ≠ .received (.ok (some message))) :
    link.Accounts stream call stream := by
  obtain rfl : (link.step call).1 = reply := congrArg Prod.fst hstep
  apply accounts_unchanged h
  · exact congrArg Prod.snd hstep
  · intro lane
    exact sentOn_refused hsent
  · intro lane
    exact receivedOn_refused hreceived

theorem accounts_trySend (h : link.Carries stream) (message : Bytes) :
    link.Accounts stream (.trySend message) stream := by
  cases hsend : link.enqueue link.data link.budget.dataQueueCapacity message with
  | error e =>
    have hstep : link.step (.trySend message) = (.sent (.error e), link) := by
      simp only [step, trySend, hsend, Prod.map, id]
    exact accounts_refused h hstep nofun nofun
  | ok data =>
    obtain ⟨hdata, hmax⟩ := enqueue_ok hsend
    have hstep : link.step (.trySend message) = (.sent (.ok ()), { link with data }) := by
      simp only [step, trySend, hsend, Prod.map, id]
    apply accounts_outer h (congrArg Prod.snd hstep) ⟨rfl, rfl, rfl, rfl⟩
    · intro lane
      cases lane with
      | control => simp only [sentOn, RunHistory.event, List.append_nil, sendQueue]
      | data => simp only [sentOn, RunHistory.event, hstep, sendQueue, hdata]
    · intro lane
      cases lane <;> simp only [receivedOn, RunHistory.event, List.nil_append, receiveQueue]
    · intro lane m hm
      cases lane with
      | control => simp only [sentOn, RunHistory.event, List.not_mem_nil] at hm
      | data =>
        simp only [sentOn, RunHistory.event, hstep, List.mem_singleton] at hm
        exact hm ▸ hmax

theorem accounts_controlSend (h : link.Carries stream) (protocol : String) (message : Bytes) :
    link.Accounts stream (.controlSend protocol message) stream := by
  have hrefused {e : TransportError}
      (hstep : link.step (.controlSend protocol message) = (.sent (.error e), link)) :
      link.Accounts stream (.controlSend protocol message) stream := by
    exact accounts_refused h hstep nofun nofun
  cases hframe : controlFrame protocol message with
  | error e =>
    apply hrefused (e := e)
    simp only [step, controlSend, hframe, Prod.map, id]
  | ok bytes =>
  cases hsend : link.enqueue link.control link.budget.controlQueueCapacity bytes with
  | error e =>
    apply hrefused (e := e)
    simp only [step, controlSend, hframe, trySendControl, hsend, Prod.map, id]
  | ok control =>
    obtain ⟨hcontrol, hmax⟩ := enqueue_ok hsend
    have hstep : link.step (.controlSend protocol message) =
        (.sent (.ok ()), { link with control }) := by
      simp only [step, controlSend, hframe, trySendControl, hsend, Prod.map, id]
    have hsent : (controlFrame protocol message).toOption.toList = [bytes] := by
      rw [hframe]
      rfl
    apply accounts_outer h (congrArg Prod.snd hstep) ⟨rfl, rfl, rfl, rfl⟩
    · intro lane
      cases lane with
      | control => simp only [sentOn, RunHistory.event, hstep, hsent, sendQueue, hcontrol]
      | data => simp only [sentOn, RunHistory.event, List.append_nil, sendQueue]
    · intro lane
      cases lane <;> simp only [receivedOn, RunHistory.event, List.nil_append, receiveQueue]
    · intro lane m hm
      cases lane with
      | control =>
        simp only [sentOn, RunHistory.event, hstep, hsent, List.mem_singleton] at hm
        exact hm ▸ hmax
      | data => simp only [sentOn, RunHistory.event, List.not_mem_nil] at hm

/-- A step of a task neither sends nor receives. -/
theorem task_silent (link : FramedLink) {call : FramedCall} (htask : call.isTask = true)
    (lane : Lane) :
    sentOn lane (RunHistory.event step link call) = [] ∧
      receivedOn lane (RunHistory.event step link call) = [] := by
  cases call with
  | takeNext => cases lane <;> exact ⟨rfl, rfl⟩
  | writeByte => cases lane <;> exact ⟨rfl, rfl⟩
  | readByte => cases lane <;> exact ⟨rfl, rfl⟩
  | forward => cases lane <;> exact ⟨rfl, rfl⟩
  | _ => cases htask

theorem accounts_task {call : FramedCall} {stream' : List Bytes} (htask : call.isTask = true)
    (hcarries : (link.step call).2.Carries stream')
    (hbudget : (link.step call).2.budget = link.budget)
    (hpending : ∀ lane, (link.step call).2.pending stream' lane = link.pending stream lane)
    (hqueued : ∀ lane, ∀ m ∈ (link.step call).2.sendQueue lane, m ∈ link.sendQueue lane) :
    link.Accounts stream call stream' := by
  refine ⟨hcarries, hbudget, fun lane => ?_, fun lane m hm => Or.inl (hqueued lane m hm)⟩
  obtain ⟨hsent, hreceived⟩ := task_silent link htask lane
  rw [hsent, hreceived, hpending, List.append_nil, List.nil_append]

/-- The link with the first message of a lane in the hands of the writer. -/
def taken (link : FramedLink) (rest : List Bytes) (message : Bytes) : Lane → FramedLink
  | .control => { link with control := rest, writer := .running (frame message) }
  | .data => { link with data := rest, writer := .running (frame message) }

theorem accounts_taken {rest : List Bytes} (h : link.Carries stream)
    (hbytes : link.reader.consumed ++ link.wire = stream.flatMap frame)
    (hqueue : link.sendQueue lane = message :: rest) (hmessage : link.Sendable lane message)
    (hstep : (link.step .takeNext).2 = link.taken rest message lane) :
    link.Accounts stream .takeNext (stream ++ [message]) := by
  obtain ⟨hlane, hmax, hwidth⟩ := hmessage
  have hfits : ∀ m ∈ stream ++ [message],
      m.length ≤ link.budget.maxFrameBytes ∧ m.length < 2^32 := by
    intro m hm
    rcases List.mem_append.mp hm with hm | hm
    · exact h.fits m hm
    · rw [List.mem_singleton.mp hm]
      exact ⟨hmax, hwidth⟩
  -- The frame goes to the end of the bytes under way.
  have hflat : link.reader.consumed ++ (link.wire ++ frame message) =
      (stream ++ [message]).flatMap frame := by
    rw [List.flatMap_append, List.flatMap_singleton, ← hbytes, List.append_assoc]
  apply accounts_task rfl
  · rw [hstep]
    cases lane <;> exact ⟨⟨frame message, rfl, hflat⟩, h.reading, hfits⟩
  · rw [hstep]
    cases lane <;> rfl
  · -- The message moves from the end of its lane's send queue to the end of the stream.
    intro other
    rw [hstep]
    cases lane <;> cases other <;> simp only [sendQueue] at hqueue <;>
      simp [pending, taken, receiveQueue, sendQueue, hqueue, hlane]
  · intro other m hm
    rw [hstep] at hm
    cases lane <;> cases other <;> simp only [sendQueue, taken] at hqueue hm ⊢
    · rw [hqueue]
      exact List.mem_cons_of_mem _ hm
    · exact hm
    · exact hm
    · rw [hqueue]
      exact List.mem_cons_of_mem _ hm

/-- A task that does not move. -/
theorem accounts_idle {call : FramedCall} (h : link.Carries stream) (htask : call.isTask = true)
    (hstep : (link.step call).2 = link) : link.Accounts stream call stream := by
  apply accounts_unchanged h hstep
  · intro lane
    exact (task_silent link htask lane).1
  · intro lane
    exact (task_silent link htask lane).2

/-- The next message leaves its send queue for the stream. -/
theorem accounts_takeNext (h : link.Carries stream)
    (hqueued : ∀ lane, ∀ m ∈ link.sendQueue lane, link.Sendable lane m) :
    ∃ stream', link.Accounts stream .takeNext stream' := by
  obtain ⟨rest, hwriter, hbytes⟩ := h.writing
  cases rest with
  | cons byte rest =>
    refine ⟨stream, accounts_idle h rfl ?_⟩
    simp only [step, takeNext, hwriter]
  | nil =>
  rw [List.append_nil] at hbytes
  cases hcontrol : link.control with
  | cons message rest =>
    have hqueue : link.sendQueue .control = message :: rest := hcontrol
    have hmessage := hqueued .control message (hqueue ▸ List.mem_cons_self)
    refine ⟨_, accounts_taken h hbytes hqueue hmessage ?_⟩
    simp only [step, takeNext, hwriter, hcontrol, startFrame, Nat.not_le.mpr hmessage.2.2, if_false]
    rfl
  | nil =>
  cases hdata : link.data with
  | nil =>
    refine ⟨stream, accounts_idle h rfl ?_⟩
    simp only [step, takeNext, hwriter, hcontrol, hdata]
  | cons message rest =>
    have hqueue : link.sendQueue .data = message :: rest := hdata
    have hmessage := hqueued .data message (hqueue ▸ List.mem_cons_self)
    refine ⟨_, accounts_taken h hbytes hqueue hmessage ?_⟩
    simp only [step, takeNext, hwriter, hcontrol, hdata, startFrame,
      Nat.not_le.mpr hmessage.2.2, if_false, taken, frame]

theorem accounts_writeByte (h : link.Carries stream) : link.Accounts stream .writeByte stream := by
  obtain ⟨rest, hwriter, hbytes⟩ := h.writing
  cases rest with
  | nil =>
    apply accounts_idle h rfl
    simp only [step, writeByte, hwriter]
  | cons byte rest =>
    have hstep : (link.step .writeByte).2 =
        { link with writer := .running rest, wire := link.wire ++ [byte] } := by
      simp only [step, writeByte, hwriter]
    apply accounts_task rfl
    · rw [hstep]
      refine ⟨⟨rest, rfl, ?_⟩, h.reading, h.fits⟩
      rw [← hbytes, List.append_assoc, List.singleton_append]
    · rw [hstep]
    · intro lane
      rw [hstep]
      cases lane <;> rfl
    · intro lane m hm
      rw [hstep] at hm
      cases lane <;> exact hm

/-- A byte is read: the message at the front of the stream may be complete with it. -/
theorem accounts_readByte (h : link.Carries stream) :
    ∃ stream', link.Accounts stream .readByte stream' := by
  cases hwire : link.wire with
  | nil =>
    refine ⟨stream, accounts_idle h rfl ?_⟩
    cases hreader : link.reader <;> simp only [step, readByte, hwire, hreader]
  | cons byte wire =>
  obtain ⟨rest, hwriter, hbytes⟩ := h.writing
  obtain ⟨message, more, hstream, hwidth, hmax⟩ := h.next hwire
  have hreading := h.reading
  rw [hwire] at hbytes
  -- A byte that is read belongs to the front message and completes it or does not.
  have hread (reader : FrameReader) (hstep : (link.step .readByte).2 = { link with wire, reader })
      (hhand : link.reader.inHand = []) (hunfinished : reader.Unfinished)
      (hcases : (reader.inHand = [] ∧ reader.consumed ++ (wire ++ rest) = stream.flatMap frame) ∨
        (reader.inHand = [message] ∧ reader.consumed ++ (wire ++ rest) = more.flatMap frame)) :
      ∃ stream', link.Accounts stream .readByte stream' := by
    rcases hcases with ⟨hempty, hflat⟩ | ⟨hfull, hflat⟩
    · refine ⟨stream, accounts_task rfl ?_ (by rw [hstep]) (fun lane => ?_) fun lane m hm => ?_⟩
      · rw [hstep]
        exact ⟨⟨rest, hwriter, hflat⟩, hunfinished, h.fits⟩
      · rw [hstep]
        cases lane <;> simp only [pending, receiveQueue, sendQueue, hempty, hhand]
      · rw [hstep] at hm
        cases lane <;> exact hm
    · refine ⟨more, accounts_task rfl ?_ (by rw [hstep]) (fun lane => ?_) fun lane m hm => ?_⟩
      · rw [hstep]
        refine ⟨⟨rest, hwriter, hflat⟩, hunfinished, fun m hm => h.fits m ?_⟩
        rw [hstream]
        exact List.mem_cons_of_mem _ hm
      · rw [hstep]
        cases lane <;> simp only [pending, receiveQueue, sendQueue, hfull, hhand, hstream,
          List.nil_append, List.singleton_append]
      · rw [hstep] at hm
        cases lane <;> exact hm
  cases hreader : link.reader with
  | finished e =>
    rw [hreader] at hreading
    exact hreading.elim
  | handing waiting =>
    refine ⟨stream, accounts_idle h rfl ?_⟩
    simp only [step, readByte, hreader]
  | header got =>
    rw [hreader] at hreading hbytes
    rw [hstream, FrameReader.consumed, List.cons_append] at hbytes
    obtain ⟨hunfinished, hcases⟩ := readerAfter_header hreading hwidth hmax hbytes
    refine hread _ ?_ (by rw [hreader]; rfl) hunfinished (by rw [hstream]; exact hcases)
    simp only [step, readByte, hwire, hreader]
  | body length got =>
    rw [hreader] at hreading hbytes
    rw [hstream, FrameReader.consumed, List.cons_append] at hbytes
    obtain ⟨hunfinished, hcases⟩ := readerAfter_body link.budget hreading.1 hreading.2 hwidth
      hbytes
    refine hread _ ?_ (by rw [hreader]; rfl) hunfinished (by rw [hstream]; exact hcases)
    simp only [step, readByte, hwire, hreader]

/-- The link with the message in hand behind the receive queue of a lane. -/
def handed (link : FramedLink) (message : Bytes) : Lane → FramedLink
  | .control =>
    { link with controlReceive := link.controlReceive ++ [message], reader := .header [] }
  | .data => { link with receive := link.receive ++ [message], reader := .header [] }

theorem accounts_handed (h : link.Carries stream) (hreader : link.reader = .handing message)
    (hlane : laneOf message = lane) (hstep : (link.step .forward).2 = link.handed message lane) :
    link.Accounts stream .forward stream := by
  obtain ⟨rest, hwriter, hbytes⟩ := h.writing
  rw [hreader, FrameReader.consumed, List.nil_append] at hbytes
  apply accounts_task rfl
  · rw [hstep]
    cases lane <;> exact ⟨⟨rest, hwriter, hbytes⟩, Nat.zero_lt_succ 3, h.fits⟩
  · rw [hstep]
    cases lane <;> rfl
  · -- The message moves from the front of the stream to the end of its lane's receive queue.
    intro other
    rw [hstep]
    cases lane <;> cases other <;>
      simp [pending, handed, receiveQueue, sendQueue, hreader, FrameReader.inHand, hlane]
  · intro other m hm
    rw [hstep] at hm
    cases lane <;> cases other <;> exact hm

/-- The message in hand goes to the queue of its lane, if there is room. -/
theorem accounts_forward (h : link.Carries stream) : link.Accounts stream .forward stream := by
  cases hreader : link.reader with
  | handing waiting =>
    by_cases hcontrol : isControl waiting = true
    · have hlane : laneOf waiting = .control := if_pos hcontrol
      by_cases hfull : link.budget.controlQueueCapacity ≤ link.controlReceive.length
      · apply accounts_idle h rfl
        simp only [step, forward, hreader, hcontrol, hfull, if_true]
      · apply accounts_handed h hreader hlane
        simp only [step, forward, hreader, hcontrol, hfull, if_true, if_false, handed]
    · have hlane : laneOf waiting = .data := if_neg hcontrol
      have hcontrol : isControl waiting = false := Bool.eq_false_iff.mpr hcontrol
      by_cases hfull : link.budget.receiveQueueCapacity ≤ link.receive.length
      · apply accounts_idle h rfl
        simp only [step, forward, hreader, hcontrol, hfull, if_true]
        rfl
      · apply accounts_handed h hreader hlane
        simp only [step, forward, hreader, hcontrol, hfull, if_false, handed]
        rfl
  | _ =>
    apply accounts_idle h rfl
    simp only [step, forward, hreader]

/-- A receive call takes the front of its lane, or nothing. -/
theorem accounts_tryReceive (h : link.Carries stream) :
    link.Accounts stream .tryReceive stream := by
  cases hreceive : link.receive with
  | nil =>
    have hstep : link.step .tryReceive = (.received (.error
        (link.nothingReady "no transport message is ready")), link) := by
      simp only [step, tryReceive, hreceive, Prod.map, id]
    exact accounts_refused h hstep nofun nofun
  | cons message receive =>
    have hstep : link.step .tryReceive =
        (.received (.ok (some message)), { link with receive }) := by
      simp only [step, tryReceive, hreceive, Prod.map, id]
    apply accounts_outer h (congrArg Prod.snd hstep) ⟨rfl, rfl, rfl, rfl⟩
    · intro lane
      cases lane <;> simp only [sentOn, RunHistory.event, List.append_nil, sendQueue]
    · intro lane
      cases lane <;> simp only [receivedOn, RunHistory.event, hstep, receiveQueue, hreceive,
        List.nil_append, List.singleton_append]
    · intro lane m hm
      cases lane <;> simp only [sentOn, RunHistory.event, List.not_mem_nil] at hm

theorem accounts_tryReceiveControl (h : link.Carries stream) :
    link.Accounts stream .tryReceiveControl stream := by
  cases hreceive : link.controlReceive with
  | nil =>
    have hstep : link.step .tryReceiveControl = (.received (.error
        (link.nothingReady "no control message is ready")), link) := by
      simp only [step, tryReceiveControl, hreceive, Prod.map, id]
    exact accounts_refused h hstep nofun nofun
  | cons message controlReceive =>
    have hstep : link.step .tryReceiveControl =
        (.received (.ok (some message)), { link with controlReceive }) := by
      simp only [step, tryReceiveControl, hreceive, Prod.map, id]
    apply accounts_outer h (congrArg Prod.snd hstep) ⟨rfl, rfl, rfl, rfl⟩
    · intro lane
      cases lane <;> simp only [sentOn, RunHistory.event, List.append_nil, sendQueue]
    · intro lane
      cases lane <;> simp only [receivedOn, RunHistory.event, hstep, receiveQueue, hreceive,
        List.nil_append, List.singleton_append]
    · intro lane m hm
      cases lane <;> simp only [sentOn, RunHistory.event, List.not_mem_nil] at hm

/-- Every call keeps the account of both lanes. -/
theorem accounts (h : link.Carries stream)
    (hqueued : ∀ lane, ∀ m ∈ link.sendQueue lane, link.Sendable lane m) (call : FramedCall) :
    ∃ stream', link.Accounts stream call stream' := by
  cases call with
  | trySend message => exact ⟨stream, accounts_trySend h message⟩
  | controlSend protocol message => exact ⟨stream, accounts_controlSend h protocol message⟩
  | takeNext => exact accounts_takeNext h hqueued
  | writeByte => exact ⟨stream, accounts_writeByte h⟩
  | readByte => exact accounts_readByte h
  | forward => exact ⟨stream, accounts_forward h⟩
  | tryReceive => exact ⟨stream, accounts_tryReceive h⟩
  | tryReceiveControl => exact ⟨stream, accounts_tryReceiveControl h⟩

end FramedLink

end MutsukiLink
