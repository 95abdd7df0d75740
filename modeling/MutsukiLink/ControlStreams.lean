import MutsukiLink.FifoLedger
import MutsukiLink.FramedModel
import MutsukiLink.MemoryLanes

/-! The control streams of a connection (`ControlStream`). All protocols share one control lane:
a stream marks its frames with its protocol, and takes whatever comes next from the lane. -/
namespace MutsukiLink
open WireBytes RunHistory FifoLedger

/-- `ControlStream::try_receive` after the call of `try_receive_control`. -/
def openControlFrame (protocol : String) (framed : Bytes) : Except TransportError Bytes :=
  if framed.length < controlStreamHeaderLen ∨ framed.take 4 ≠ controlStreamMagic ∨
      framed[4]? ≠ some controlStreamVersion then
    .error ⟨.other, "control stream frame is invalid"⟩
  else
    let protocolLen := ofBeBytes ((framed.drop 5).take 2)
    let payloadOffset := controlStreamHeaderLen+protocolLen
    if framed.length < payloadOffset then .error ⟨.other, "control stream frame is truncated"⟩
    else if (framed.drop controlStreamHeaderLen).take protocolLen ≠ utf8 protocol then
      .error ⟨.other, "control stream protocol does not match"⟩
    else .ok (framed.drop payloadOffset)

/-- A connection with a reliable control lane: what it accepts is handed out in order and once. It
may refuse a message, and it may answer that nothing is ready. -/
structure ControlLane (σ : Type) where
  trySendControl : σ → Bytes → Except TransportError Unit × σ
  tryReceiveControl : σ → Except TransportError (Option Bytes) × σ
  lane : σ → List Bytes
  send_ok : ∀ s message, (trySendControl s message).1 = .ok () →
    lane (trySendControl s message).2 = lane s ++ [message]
  send_error : ∀ s message error, (trySendControl s message).1 = .error error →
    lane (trySendControl s message).2 = lane s
  receive_some : ∀ s message, (tryReceiveControl s).1 = .ok (some message) →
    lane s = message :: lane (tryReceiveControl s).2
  receive_none : (s : σ) → (∀ message, (tryReceiveControl s).1 ≠ .ok (some message)) →
    lane (tryReceiveControl s).2 = lane s

inductive StreamCall where
  | send (protocol : String) (message : Bytes)
  | receive (protocol : String)
deriving DecidableEq, Repr

inductive StreamReply where
  | sent (result : Except TransportError Unit)
  | received (result : Except TransportError (Option Bytes))
deriving DecidableEq, Repr

section Streams
variable {σ : Type} (c : ControlLane σ)

def ControlStream.trySend (s : σ) (protocol : String) (message : Bytes) :
    Except TransportError Unit × σ :=
  match controlFrame protocol message with
  | .error e => (.error e, s)
  | .ok framed => c.trySendControl s framed

def ControlStream.tryReceive (s : σ) (protocol : String) :
    Except TransportError (Option Bytes) × σ :=
  match c.tryReceiveControl s with
  | (.ok (some framed), s) => ((openControlFrame protocol framed).map some, s)
  | (.ok none, s) => (.ok none, s)
  | (.error e, s) => (.error e, s)

/-- Sends at one end and receives at the other, on the streams of any protocols. -/
def ControlStream.step (s : σ) : StreamCall → StreamReply × σ
  | .send protocol message =>
    let r := trySend c s protocol message
    (.sent r.1, r.2)
  | .receive protocol =>
    let r := tryReceive c s protocol
    (.received r.1, r.2)

end Streams

namespace ControlStream

theorem utf8_injective {a b : String} (h : utf8 a = utf8 b) : a = b :=
  String.toByteArray_inj.mp (ByteArray.ext (Array.toList_inj.mp h))

/-- With the seven bytes of the header spelled out every field is a part of the frame. -/
theorem control_frame_fields {protocol : String} {message framed : Bytes}
    (h : controlFrame protocol message = .ok framed) :
    framed.length = 7+((utf8 protocol).length+message.length) ∧
      framed.take 4 = controlStreamMagic ∧ framed[4]? = some controlStreamVersion ∧
      ofBeBytes ((framed.drop 5).take 2) = (utf8 protocol).length ∧
      framed.drop 7 = utf8 protocol ++ message := by
  unfold controlFrame at h
  split at h
  · cases h
  next hshort =>
    split at h
    · cases h
    have hlength : (utf8 protocol).length < 256^2 := by omega
    obtain ⟨x, y, hbytes⟩ := List.length_eq_two.mp (length_beBytes 2 (utf8 protocol).length)
    have hdecode : ofBeBytes [x, y] = (utf8 protocol).length := by
      rw [← hbytes]
      exact ofBeBytes_beBytes 2 _ hlength
    rw [hbytes] at h
    obtain rfl := Except.ok.inj h
    refine ⟨?_, rfl, rfl, hdecode, rfl⟩
    simp [controlStreamMagic]
    omega

/-- A stream opens the frames of its own protocol and rejects the others. -/
theorem open_control_frame {sender : String} {message framed : Bytes}
    (h : controlFrame sender message = .ok framed) (protocol : String) :
    openControlFrame protocol framed = if sender = protocol then .ok message
      else .error ⟨.other, "control stream protocol does not match"⟩ := by
  obtain ⟨hlength, hmagic, hversion, hprotocol, hrest⟩ := control_frame_fields h
  have hpayload : framed.drop (7+(utf8 sender).length) = message := by
    rw [← List.drop_drop, hrest, List.drop_left]
  have hvalid : ¬(framed.length < controlStreamHeaderLen ∨ framed.take 4 ≠ controlStreamMagic ∨
      framed[4]? ≠ some controlStreamVersion) := by
    rw [hlength, hmagic, hversion, controlStreamHeaderLen]
    simp
  have hcomplete : ¬framed.length < controlStreamHeaderLen+(utf8 sender).length := by
    rw [hlength, controlStreamHeaderLen]
    omega
  rw [openControlFrame, if_neg hvalid]
  simp only [hprotocol, if_neg hcomplete]
  rw [controlStreamHeaderLen, hrest, hpayload, List.take_left]
  by_cases hsame : sender = protocol
  · simp [hsame]
  · rw [if_neg hsame, if_pos fun h => hsame (utf8_injective h)]

/-- A frame opens on the stream of its own protocol only. -/
theorem frame_protocol_unique {sender protocol : String} {message m framed : Bytes}
    (h : controlFrame sender message = .ok framed) (hm : controlFrame protocol m = .ok framed) :
    sender = protocol := by
  by_contra hne
  have hopen := open_control_frame hm protocol
  rw [open_control_frame h, if_neg hne, if_pos rfl] at hopen
  cases hopen

section Runs
variable {σ : Type} {c : ControlLane σ} {s : σ}

def acceptedMessage (x : Event σ StreamCall StreamReply) : Option (String × Bytes) :=
  match x.input, x.reply with
  | .send protocol message, .sent (.ok ()) => some (protocol, message)
  | _, _ => none

def deliveredMessage (x : Event σ StreamCall StreamReply) : Option (String × Bytes) :=
  match x.input, x.reply with
  | .receive protocol, .received (.ok (some message)) => some (protocol, message)
  | _, _ => none

/-- The message of a pair that belongs to a protocol. -/
def ofProtocol (protocol : String) (p : String × Bytes) : Option Bytes :=
  if p.1 = protocol then some p.2 else none

/-- The messages that were accepted on the stream of a protocol. -/
def sentOn (hist : List (Event σ StreamCall StreamReply)) (protocol : String) : List Bytes :=
  (hist.filterMap acceptedMessage).filterMap (ofProtocol protocol)

/-- The messages that were received on the stream of a protocol. -/
def receivedOn (hist : List (Event σ StreamCall StreamReply)) (protocol : String) : List Bytes :=
  (hist.filterMap deliveredMessage).filterMap (ofProtocol protocol)

/-- A receive takes no frame, or one of its own protocol. -/
def Addressed (c : ControlLane σ) (x : Event σ StreamCall StreamReply) : Prop :=
  ∀ protocol framed, x.input = .receive protocol →
    (c.tryReceiveControl x.pre).1 = .ok (some framed) →
      ∃ message, controlFrame protocol message = .ok framed

/-- The frame holds the message of its protocol. -/
def Frames (p : String × Bytes) (framed : Bytes) : Prop := controlFrame p.1 p.2 = .ok framed

/-- The account of the shared lane: a frame leaves it to a stream of its protocol or is lost to
another one. -/
def Accounted (c : ControlLane σ) (hist : List (Event σ StreamCall StreamReply)) (s : σ) : Prop :=
  ∃ lost waiting, Settled (hist.filterMap acceptedMessage) (hist.filterMap deliveredMessage) lost
      waiting ∧
    List.Forall₂ Frames waiting (c.lane s) ∧ ((∀ x ∈ hist, Addressed c x) → lost = [])

theorem filterMap_concat {α β : Type} (f : α → Option β) (l : List α) (a : α) :
    (l ++ [a]).filterMap f = l.filterMap f ++ (f a).toList := by
  rw [List.filterMap_append]
  cases h : f a <;> simp [h]

/-- A call that leaves the lane alone and passes no message. -/
theorem Accounted.idle {hist : List (Event σ StreamCall StreamReply)} (h : Accounted c hist s)
    {x : Event σ StreamCall StreamReply} {s' : σ} (haccepted : acceptedMessage x = none)
    (hdelivered : deliveredMessage x = none) (hlane : c.lane s' = c.lane s) :
    Accounted c (hist ++ [x]) s' := by
  obtain ⟨lost, waiting, hsettled, hframes, hlost⟩ := h
  refine ⟨lost, waiting, ?_, hlane ▸ hframes, fun hall => hlost fun y hy => ?_⟩
  · rw [filterMap_concat, filterMap_concat, haccepted, hdelivered]
    simpa using hsettled
  · exact hall y (List.mem_append_left _ hy)

theorem Accounted.send {hist : List (Event σ StreamCall StreamReply)} (h : Accounted c hist s)
    (protocol : String) (message : Bytes) :
    Accounted c (hist ++ [event (step c) s (.send protocol message)])
      (trySend c s protocol message).2 := by
  have hreply : (event (step c) s (.send protocol message)).reply =
      .sent (trySend c s protocol message).1 := rfl
  have hinput : (event (step c) s (.send protocol message)).input = .send protocol message := rfl
  generalize event (step c) s (.send protocol message) = x at hreply hinput ⊢
  have hdelivered : deliveredMessage x = none := by
    rw [deliveredMessage, hinput]
  cases hframe : controlFrame protocol message with
  | error e =>
    have hsend : trySend c s protocol message = (.error e, s) := by rw [trySend, hframe]
    rw [hsend] at hreply ⊢
    exact h.idle (by rw [acceptedMessage, hinput, hreply]) hdelivered rfl
  | ok framed =>
    have hsend : trySend c s protocol message = c.trySendControl s framed := by
      rw [trySend, hframe]
    rw [hsend] at hreply ⊢
    cases hresult : (c.trySendControl s framed).1 with
    | error e =>
      rw [hresult] at hreply
      exact h.idle (by rw [acceptedMessage, hinput, hreply]) hdelivered
        (c.send_error s framed e hresult)
    | ok _ =>
      rw [hresult] at hreply
      have haccepted : acceptedMessage x = some (protocol, message) := by
        rw [acceptedMessage, hinput, hreply]
      -- An accepted frame joins those that wait.
      obtain ⟨lost, waiting, hsettled, hframes, hlost⟩ := h
      refine ⟨lost, waiting ++ [(protocol, message)], ?_, ?_, fun hall => hlost fun y hy => ?_⟩
      · rw [filterMap_concat, filterMap_concat, haccepted, hdelivered]
        simpa using hsettled.move (.accept (protocol, message) waiting)
      · rw [c.send_ok s framed hresult]
        exact List.rel_append hframes (.cons hframe .nil)
      · exact hall y (List.mem_append_left _ hy)

theorem receive_of_some {framed : Bytes}
    (h : (c.tryReceiveControl s).1 = .ok (some framed)) (protocol : String) :
    tryReceive c s protocol =
      ((openControlFrame protocol framed).map some, (c.tryReceiveControl s).2) := by
  unfold tryReceive
  generalize c.tryReceiveControl s = r at h ⊢
  obtain ⟨result, s'⟩ := r
  rw [show result = .ok (some framed) from h]

theorem receive_of_none (h : ∀ framed, (c.tryReceiveControl s).1 ≠ .ok (some framed))
    (protocol : String) : (tryReceive c s protocol).2 = (c.tryReceiveControl s).2 ∧
      ∀ message, (tryReceive c s protocol).1 ≠ .ok (some message) := by
  unfold tryReceive
  generalize c.tryReceiveControl s = r at h ⊢
  obtain ⟨result, s'⟩ := r
  cases result with
  | error e => exact ⟨rfl, fun message h => by cases h⟩
  | ok got =>
    cases got with
    | none => exact ⟨rfl, fun message h => by cases h⟩
    | some framed => exact absurd rfl (h framed)

theorem delivered_eq_none {x : Event σ StreamCall StreamReply}
    (h : ∀ message, x.reply ≠ .received (.ok (some message))) : deliveredMessage x = none := by
  unfold deliveredMessage
  split
  · next protocol message hinput hreply => exact absurd hreply (h message)
  · rfl

/-- A receive passes the front of the lane on when it is of its protocol, and loses it else. -/
theorem Accounted.receive {hist : List (Event σ StreamCall StreamReply)} (h : Accounted c hist s)
    (protocol : String) :
    Accounted c (hist ++ [event (step c) s (.receive protocol)])
      (tryReceive c s protocol).2 := by
  have hreply : (event (step c) s (.receive protocol)).reply =
      .received (tryReceive c s protocol).1 := rfl
  have hinput : (event (step c) s (.receive protocol)).input = .receive protocol := rfl
  have hpre : (event (step c) s (.receive protocol)).pre = s := rfl
  generalize event (step c) s (.receive protocol) = x at hreply hinput hpre ⊢
  have haccepted : acceptedMessage x = none := by
    rw [acceptedMessage, hinput]
  by_cases hsome : ∃ framed, (c.tryReceiveControl s).1 = .ok (some framed)
  · obtain ⟨framed, hframed⟩ := hsome
    obtain ⟨lost, waiting, hsettled, hframes, hlost⟩ := h
    rw [receive_of_some hframed] at hreply ⊢
    rw [c.receive_some s framed hframed] at hframes
    -- The front of the lane is the frame of the message that was accepted before the others.
    obtain ⟨front, rest, hfront, hremaining, rfl⟩ := List.forall₂_cons_right_iff.mp hframes
    obtain ⟨sender, message⟩ := front
    rw [open_control_frame hfront] at hreply
    by_cases hsame : sender = protocol
    · subst hsame
      have hdelivered : deliveredMessage x = some (sender, message) := by
        rw [deliveredMessage, hinput, hreply, if_pos rfl]
        rfl
      refine ⟨lost, rest, ?_, hremaining, fun hall => hlost fun y hy => ?_⟩
      · rw [filterMap_concat, filterMap_concat, haccepted, hdelivered]
        simpa using hsettled.move (.deliver (sender, message) rest)
      · exact hall y (List.mem_append_left _ hy)
    · have hdelivered : deliveredMessage x = none := by
        apply delivered_eq_none
        intro m h
        rw [hreply, if_neg hsame] at h
        cases h
      -- The message joins the lost ones, against the assumption that every receive is addressed.
      refine ⟨lost ++ [(sender, message)], rest, ?_, hremaining, fun hall => ?_⟩
      · rw [filterMap_concat, filterMap_concat, haccepted, hdelivered]
        simpa using hsettled.reject
      · obtain ⟨m, hm⟩ := hall x (List.mem_append_right _ (List.mem_singleton_self x)) protocol
          framed hinput (hpre ▸ hframed)
        exact absurd (frame_protocol_unique hfront hm) hsame
  · have hnone : ∀ framed, (c.tryReceiveControl s).1 ≠ .ok (some framed) :=
      fun framed h => hsome ⟨framed, h⟩
    obtain ⟨hstate, hanswer⟩ := receive_of_none hnone protocol
    refine h.idle haccepted (delivered_eq_none fun message heq => ?_) ?_
    · rw [hreply] at heq
      exact hanswer message (StreamReply.received.inj heq)
    · rw [hstate]
      exact c.receive_none s hnone

theorem accounted_run (hempty : c.lane s = []) (calls : List StreamCall) :
    Accounted c (trace (step c) s calls) (run (step c) s calls) := by
  refine run_history (step c) (P := Accounted c) ⟨[], [], Settled.nil, ?_, fun _ => rfl⟩
    (fun hist s call h => ?_) calls
  · rw [hempty]
    exact .nil
  · cases call with
    | send protocol message => exact h.send protocol message
    | receive protocol => exact h.receive protocol

/-- What the streams of a lane owe to each other: each one passes on, in order and without loss,
what was sent on it, and no receive takes a frame of another protocol. -/
structure StreamsApart (c : ControlLane σ) (s : σ) (calls : List StreamCall) : Prop where
  in_order : ∀ protocol,
    receivedOn (trace (step c) s calls) protocol <+: sentOn (trace (step c) s calls) protocol
  not_consumed : ∀ x ∈ trace (step c) s calls, ∀ protocol sender message framed,
    x.input = .receive protocol → controlFrame sender message = .ok framed →
      (c.tryReceiveControl x.pre).1 = .ok (some framed) → sender = protocol

theorem receive_rejects (protocol : String) {sender : String} {message framed : Bytes}
    (hframe : controlFrame sender message = .ok framed)
    (htaken : (c.tryReceiveControl s).1 = .ok (some framed)) :
    c.lane s = framed :: c.lane (tryReceive c s protocol).2 ∧
      (tryReceive c s protocol).1 = if sender = protocol then .ok (some message)
        else .error ⟨.other, "control stream protocol does not match"⟩ := by
  rw [receive_of_some htaken, open_control_frame hframe]
  refine ⟨c.receive_some s framed htaken, ?_⟩
  split <;> rfl

/-- Whatever the interleaving, a receive hands out a message of its own protocol or, with an error,
loses the one of another protocol, so that each stream passes on some of its messages in order. The
streams keep apart exactly when every receive that takes a frame is on the stream of that frame. -/
theorem control_streams_apart_iff (c : ControlLane σ) (s : σ) (hempty : c.lane s = [])
    (calls : List StreamCall) :
    (∀ protocol, (receivedOn (trace (step c) s calls) protocol).Sublist
      (sentOn (trace (step c) s calls) protocol)) ∧
    (∀ x ∈ trace (step c) s calls, ∀ protocol framed, x.input = .receive protocol →
      (c.tryReceiveControl x.pre).1 = .ok (some framed) →
        ∃ sender message, controlFrame sender message = .ok framed ∧
          c.lane x.pre = framed :: c.lane x.post ∧
          x.reply = .received (if sender = protocol then .ok (some message)
            else .error ⟨.other, "control stream protocol does not match"⟩)) ∧
    (StreamsApart c s calls ↔ ∀ x ∈ trace (step c) s calls, Addressed c x) := by
  obtain ⟨lost, waiting, hsettled, hframes, hlost⟩ := accounted_run hempty calls
  have htakes : ∀ x ∈ trace (step c) s calls, ∀ protocol framed, x.input = .receive protocol →
      (c.tryReceiveControl x.pre).1 = .ok (some framed) →
        ∃ sender message, controlFrame sender message = .ok framed ∧
          c.lane x.pre = framed :: c.lane x.post ∧
          x.reply = .received (if sender = protocol then .ok (some message)
            else .error ⟨.other, "control stream protocol does not match"⟩) := by
    intro x hx protocol framed hinput htaken
    obtain ⟨before, call, after, -, rfl⟩ := event_split (step c) hx
    obtain rfl : call = .receive protocol := hinput
    have hpre : (c.tryReceiveControl (run (step c) s before)).1 = .ok (some framed) := htaken
    obtain ⟨-, front, -, hfront, -⟩ := accounted_run hempty before
    rw [c.receive_some _ framed hpre] at hfront
    obtain ⟨⟨sender, message⟩, -, hframe, -, -⟩ := List.forall₂_cons_right_iff.mp hfront
    obtain ⟨hlane, hreply⟩ := receive_rejects protocol hframe htaken
    exact ⟨sender, message, hframe, hlane, congrArg StreamReply.received hreply⟩
  -- Some messages in order at any rate; all of them when nothing is lost.
  refine ⟨fun protocol => ?_, htakes, fun h x hx protocol framed hinput htaken => ?_, fun h => ?_⟩
  · have hsublist := (List.sublist_append_left _ _).trans hsettled.sublist
    exact hsublist.filterMap _
  · obtain ⟨sender, message, hframe, -, -⟩ := htakes x hx protocol framed hinput htaken
    obtain rfl := h.not_consumed x hx protocol sender message framed hinput hframe htaken
    exact ⟨message, hframe⟩
  · obtain rfl := hlost h
    refine ⟨fun protocol => ?_, fun x hx protocol sender message framed hinput hframe htaken => ?_⟩
    · rw [sentOn, hsettled.eq_append, List.filterMap_append]
      exact List.prefix_append _ _
    · obtain ⟨m, hm⟩ := h x hx protocol framed hinput htaken
      exact frame_protocol_unique hframe hm

end Runs

end ControlStream

namespace MemoryPair

theorem send_start_cases (s : MemoryPair) (e : MemoryEnd) (lane : MemoryLane) (message : Bytes) :
    (∃ error, s.sendStart e lane message = (some (.error error), s)) ∨
      s.sendStart e lane message = (none, s.setPending e (some (.sending lane message))) := by
  unfold sendStart
  split
  · exact Or.inl ⟨_, rfl⟩
  · split
    · exact Or.inl ⟨_, rfl⟩
    · split
      · exact Or.inl ⟨_, rfl⟩
      · exact Or.inr rfl

theorem send_finish_cases (s : MemoryPair) (e : MemoryEnd) (lane : MemoryLane) (message : Bytes) :
    (∃ error, s.sendFinish e lane message = (.error error, s.setPending e none)) ∨
      s.sendFinish e lane message = (.ok (), (s.setPending e none).setSide e.other
        ((s.sides e.other).setQueue lane ((s.sides e.other).queue lane ++ [message]))) := by
  unfold sendFinish
  dsimp only [setPending]
  split
  · exact Or.inl ⟨_, rfl⟩
  · split
    · exact Or.inl ⟨_, rfl⟩
    · split
      · exact Or.inl ⟨_, rfl⟩
      · exact Or.inr rfl

/-- A whole send is refused with nothing changed on either side, or puts its message on the lane. -/
theorem send_to_remote_cases (s : MemoryPair) (e : MemoryEnd) (lane : MemoryLane)
    (message : Bytes) :
    ((s.sendToRemote e lane message).1 = .ok () ∧
      ((s.sendToRemote e lane message).2.sides e.other).queue lane =
        (s.sides e.other).queue lane ++ [message]) ∨
    ∃ error, (s.sendToRemote e lane message).1 = .error error ∧
      (s.sendToRemote e lane message).2.sides = s.sides := by
  unfold sendToRemote
  rcases send_start_cases s e lane message with ⟨error, hstart⟩ | hstart
  · rw [hstart]
    exact Or.inr ⟨error, rfl, rfl⟩
  · rw [hstart]
    dsimp only
    rcases send_finish_cases (s.setPending e (some (.sending lane message))) e lane message with
      ⟨error, hfinish⟩ | hfinish
    · rw [hfinish]
      exact Or.inr ⟨error, rfl, rfl⟩
    · rw [hfinish]
      refine Or.inl ⟨rfl, ?_⟩
      rw [sides_setSide, if_pos rfl]
      exact MemorySide.queue_setQueue _ _ _

/-- A whole receive takes the front of the lane, or leaves both sides as they are. -/
theorem receive_local_cases (s : MemoryPair) (e : MemoryEnd) (lane : MemoryLane) :
    (∃ message rest, (s.sides e).queue lane = message :: rest ∧
      (s.receiveLocal e lane).1 = .ok (some message) ∧
      ((s.receiveLocal e lane).2.sides e).queue lane = rest) ∨
    (∀ message, (s.receiveLocal e lane).1 ≠ .ok (some message)) ∧
      (s.receiveLocal e lane).2.sides = s.sides := by
  unfold receiveLocal receiveStart
  dsimp only
  by_cases hlane : (!s.config.supports lane) = true
  · rw [if_pos hlane]
    exact Or.inr ⟨by simp, rfl⟩
  by_cases haborted : (s.sides e).aborted = true
  · rw [if_neg hlane, if_pos haborted]
    exact Or.inr ⟨by simp, rfl⟩
  by_cases hclosed : (s.sides e).readClosed = true
  · rw [if_neg hlane, if_neg haborted, if_pos hclosed]
    exact Or.inr ⟨by simp, rfl⟩
  rw [if_neg hlane, if_neg haborted, if_neg hclosed]
  -- Only an open lane with a message in its queue gives one.
  cases hqueue : (s.sides e).queue lane with
  | cons message rest =>
    refine Or.inl ⟨message, rest, rfl, rfl, ?_⟩
    dsimp only
    rw [sides_setSide, if_pos rfl]
    exact MemorySide.queue_setQueue _ _ _
  | nil =>
    dsimp only
    unfold receiveFinish
    dsimp only
    refine Or.inr ⟨fun message => ?_, ?_⟩
    · split
      · exact fun h => by cases h
      · exact fun h => by cases h
    · split
      · rfl
      · rfl

/-- The control lane from an end to the other one, with calls that do not overlap. -/
def controlLane (e : MemoryEnd) : ControlLane MemoryPair where
  trySendControl s message := s.sendToRemote e .control message
  tryReceiveControl s := s.receiveLocal e.other .control
  lane s := (s.sides e.other).queue .control
  send_ok := by
    intro s message h
    rcases send_to_remote_cases s e .control message with ⟨-, hqueue⟩ | ⟨error, herror, -⟩
    · exact hqueue
    · rw [herror] at h
      cases h
  send_error := by
    intro s message error h
    rcases send_to_remote_cases s e .control message with ⟨hok, -⟩ | ⟨-, -, hsides⟩
    · rw [hok] at h
      cases h
    · rw [hsides]
  receive_some := by
    intro s message h
    rcases receive_local_cases s e.other .control with ⟨front, rest, hlane, hfront, hrest⟩ | hnone
    · obtain rfl : front = message := by
        rw [hfront] at h
        exact Option.some.inj (Except.ok.inj h)
      rw [hlane, hrest]
    · exact absurd h (hnone.1 message)
  receive_none := by
    intro s h
    rcases receive_local_cases s e.other .control with ⟨front, rest, -, hfront, -⟩ | hnone
    · exact absurd hfront (h front)
    · rw [hnone.2]

/-- Two protocols on one lane, received in the order of the frames. -/
def alternating : List StreamCall := [.send "mutsuki.ntp" [1], .send "mutsuki.files" [2],
  .receive "mutsuki.ntp", .receive "mutsuki.files"]

theorem streams_apart_alternating :
    (ControlStream.receivedOn (trace (ControlStream.step (controlLane .left)) freshPair alternating)
      "mutsuki.files").Sublist (ControlStream.sentOn
        (trace (ControlStream.step (controlLane .left)) freshPair alternating) "mutsuki.files") ∧
    (ControlStream.StreamsApart (controlLane .left) freshPair alternating ↔
      ∀ x ∈ trace (ControlStream.step (controlLane .left)) freshPair alternating,
        ControlStream.Addressed (controlLane .left) x) := by
  have h := ControlStream.control_streams_apart_iff (controlLane .left) freshPair rfl alternating
  exact ⟨h.1 "mutsuki.files", h.2.2⟩

example : ControlStream.receivedOn
    (trace (ControlStream.step (controlLane .left)) freshPair alternating) "mutsuki.files" =
      [[2]] := by
  decide +kernel

/-- The second protocol asks first: it takes the frame of the other one. -/
def crossing : List StreamCall := [.send "mutsuki.ntp" [1], .send "mutsuki.ntp" [2],
  .receive "mutsuki.files", .receive "mutsuki.ntp"]

theorem streams_apart_lost :
    ControlStream.receivedOn (trace (ControlStream.step (controlLane .left)) freshPair crossing)
      "mutsuki.ntp" = [[2]] ∧
    ControlStream.sentOn (trace (ControlStream.step (controlLane .left)) freshPair crossing)
      "mutsuki.ntp" = [[1], [2]] ∧
    ¬ControlStream.StreamsApart (controlLane .left) freshPair crossing := by
  have hreceived : ControlStream.receivedOn
      (trace (ControlStream.step (controlLane .left)) freshPair crossing) "mutsuki.ntp" =
        [[2]] := by
    decide +kernel
  have hsent : ControlStream.sentOn
      (trace (ControlStream.step (controlLane .left)) freshPair crossing) "mutsuki.ntp" =
        [[1], [2]] := by
    decide +kernel
  refine ⟨hreceived, hsent, fun h => ?_⟩
  have hstarts := h.in_order "mutsuki.ntp"
  rw [hreceived, hsent] at hstarts
  exact absurd hstarts (by decide)

end MemoryPair

end MutsukiLink
