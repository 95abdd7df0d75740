import MutsukiLink.LatestLedger
import MutsukiLink.NtpReceiveModel
import MutsukiLink.NtpRecording
import MutsukiLink.RealtimeConservation

/-! The reliable mode from one end to the other (`ntp-mutsuki-link/reliable.rs`): a sender that
keeps one frame for each flow, an ordered lane, and a receiver that keeps one frame for each flow.
-/
namespace MutsukiLink.Ntp
open WireBytes RunHistory LatestLedger OrderedMap
open RealtimeSendQueue (counterMax saturatingAdd_min)

/-- A connection with a reliable data lane: what it accepts is handed out in order and once. It may
refuse a message, and it may answer that nothing is ready. -/
structure ReliableLane (σ : Type) extends ReceivingConnection σ where
  lane : σ → List Bytes
  send_ok : ∀ s wire, (trySend s wire).1 = .ok () → lane (trySend s wire).2 = lane s ++ [wire]
  send_error : ∀ s wire e, (trySend s wire).1 = .error e → lane (trySend s wire).2 = lane s
  receive_some : ∀ s wire, (tryReceive s).1 = .ok (some wire) →
    lane s = wire :: lane (tryReceive s).2
  receive_none : (s : σ) → (∀ wire, (tryReceive s).1 ≠ .ok (some wire)) →
    lane (tryReceive s).2 = lane s

/-- What the sender is asked to send. -/
structure LatestFrame where
  flow : RealtimeFlowId
  generation : UInt32
  sequence : UInt64
  payload : Bytes
deriving DecidableEq, Repr

namespace LatestFrame

def wire (frame : LatestFrame) : Bytes :=
  reliableWire frame.flow frame.generation frame.sequence frame.payload

/-- The fields of a wire, as `decode` reads them. -/
def ofWire (wire : Bytes) : LatestFrame where
  flow := ⟨.ofNat (ofBeBytes ((wire.drop 5).take 2))⟩
  generation := .ofNat (ofBeBytes ((wire.drop 7).take 4))
  sequence := .ofNat (ofBeBytes ((wire.drop 11).take 8))
  payload := wire.drop reliableHeaderLen

def ofReceived (received : ReceivedRealtimeDatagram) : LatestFrame :=
  ⟨received.flow, received.generation, received.sequence, received.payload⟩

/-- The frames that get through `decode`. -/
structure Fits (maxFrameBytes : ℕ) (frame : LatestFrame) : Prop where
  flow : (flowPriority frame.flow).isSome
  size : reliableHeaderLen+frame.payload.length ≤ maxFrameBytes
  payload : frame.payload.length < 2^32

end LatestFrame

/-- The number of frames that wait (`ReliableLatestSender::pending`). -/
def ReliableLatestSender.pendingCount (r : ReliableLatestSender) : ℕ :=
  sumBy (fun frame => if frame.pending then 1 else 0) r.pending

/-- The wire that waits for a flow. -/
def ReliableLatestSender.waiting (r : ReliableLatestSender) (flow : RealtimeFlowId) :
    Option Bytes :=
  r.pending[flow]?.bind fun frame => if frame.pending then some frame.wire else none

/-- The limits on a frame at the two ends (`max_tracking_frame_bytes`), which are configured each on
its own. -/
structure LatestLimits where
  sender : ℕ
  receiver : ℕ

structure LatestLink (σ : Type) where
  sender : ReliableLatestSender
  receiver : ReliableLatestReceiver
  connection : σ

inductive LatestCall where
  | enqueue (frame : LatestFrame) (priority : RealtimePriority)
  | flush
  | poll (maxDrain : ℕ) (clock : ℕ → ℕ)

inductive LatestReply (ε : Type) where
  | enqueued (result : Except (BindingError ε) SendOutcome)
  | flushed (result : Except (BindingError ε) Unit)
  | polled (result : Except (BindingError ε) (Option ReceivedRealtimeDatagram))

namespace LatestLink
variable {σ ε : Type}

def start (s : σ) : LatestLink σ := ⟨{}, {}, s⟩

def step (ε : Type) (c : ReliableLane σ) (limits : LatestLimits) (w : LatestLink σ) :
    LatestCall → LatestReply ε × LatestLink σ
  | .enqueue frame priority =>
    let (result, sender) := w.sender.enqueue frame.flow frame.generation frame.sequence priority
      frame.payload limits.sender
    (.enqueued result, { w with sender })
  | .flush =>
    let (result, sender, connection) := w.sender.flush c.toNtpConnection w.connection
    (.flushed result, { w with sender, connection })
  | .poll maxDrain clock =>
    let (result, receiver, connection) := w.receiver.poll c.tryReceive w.connection limits.receiver
      maxDrain clock
    (.polled result, { w with receiver, connection })

abbrev LatestEvent (σ ε : Type) := Event (LatestLink σ) LatestCall (LatestReply ε)

/-- The frame that a call has made the sender take. -/
def acceptedBy (e : LatestEvent σ ε) : List LatestFrame :=
  match e.input, e.reply with
  | .enqueue frame _, .enqueued (.ok _) => [frame]
  | _, _ => []

def deliveredBy (e : LatestEvent σ ε) : List LatestFrame :=
  match e.reply with
  | .polled (.ok (some received)) => [.ofReceived received]
  | _ => []

/-- The frames of a flow that are under way, the oldest first. -/
def underWay (c : ReliableLane σ) (w : LatestLink σ) (flow : RealtimeFlowId) : List LatestFrame :=
  (w.receiver.pending[flow]?.map LatestFrame.ofReceived).toList ++
    ((((c.lane w.connection).map LatestFrame.ofWire).filter fun frame => frame.flow = flow) ++
      ((w.sender.waiting flow).map LatestFrame.ofWire).toList)

end LatestLink

namespace LatestFrame
variable {frame : LatestFrame} {maxFrameBytes : ℕ}

theorem length_wire (frame : LatestFrame) :
    frame.wire.length = reliableHeaderLen+frame.payload.length := by
  unfold wire reliableWire reliableMagic reliableHeaderLen
  simp only [List.length_append, length_beBytes, List.length_cons, List.length_nil]
  omega

/-- The wire, field by field. -/
theorem wire_fields (frame : LatestFrame) : frame.wire.take 4 = reliableMagic ∧
    frame.wire[4]? = some reliableVersion ∧
    (frame.wire.drop 5).take 2 = beBytes 2 frame.flow.val.toNat ∧
    (frame.wire.drop 7).take 4 = beBytes 4 frame.generation.toNat ∧
    (frame.wire.drop 11).take 8 = beBytes 8 frame.sequence.toNat ∧
    (frame.wire.drop 19).take 4 = beBytes 4 frame.payload.length ∧
    frame.wire.drop reliableHeaderLen = frame.payload := by
  have hpast {n k x : ℕ} (h : n ≤ k) : (beBytes n x).drop k = [] :=
    List.drop_eq_nil_of_le ((length_beBytes n x).trans_le h)
  unfold wire reliableWire reliableHeaderLen reliableMagic
  simp [List.drop_append, hpast]

theorem ofWire_wire (frame : LatestFrame) : ofWire frame.wire = frame := by
  obtain ⟨-, -, hflow, hgeneration, hsequence, -, hpayload⟩ := frame.wire_fields
  unfold ofWire
  rw [hflow, hgeneration, hsequence, hpayload]
  rw [ofBeBytes_beBytes 2 _ frame.flow.val.toNat_lt,
    ofBeBytes_beBytes 4 _ frame.generation.toNat_lt, ofBeBytes_beBytes 8 _ frame.sequence.toNat_lt]
  simp only [UInt16.ofNat_toNat, UInt32.ofNat_toNat, UInt64.ofNat_toNat]

/-- What `enqueue` has built gets through `decode`. -/
theorem Fits.decode {ε : Type} (h : frame.Fits maxFrameBytes) (receivedAt : ℕ) :
    ∃ received, decodeReliable (ε := ε) frame.wire maxFrameBytes receivedAt = .ok received ∧
      ofReceived received = frame := by
  obtain ⟨hmagic, hversion, -, -, -, hlength, -⟩ := frame.wire_fields
  obtain ⟨priority, hpriority⟩ := Option.isSome_iff_exists.mp h.flow
  have hwire := frame.ofWire_wire
  have hsize := frame.length_wire
  have hfit := h.size
  unfold ofWire at hwire
  refine ⟨⟨frame.flow, frame.generation, frame.sequence, priority, receivedAt, frame.payload⟩,
    ?_, rfl⟩
  have hguard : ¬(frame.wire.length < reliableHeaderLen ∨ maxFrameBytes < frame.wire.length ∨
      frame.wire.take 4 ≠ reliableMagic ∨ frame.wire[4]? ≠ some reliableVersion) := by
    simp only [hmagic, hversion, ne_eq, not_true_eq_false, or_false]
    omega
  have hflow := congrArg LatestFrame.flow hwire
  have hgeneration := congrArg LatestFrame.generation hwire
  have hsequence := congrArg LatestFrame.sequence hwire
  have hpayload := congrArg LatestFrame.payload hwire
  dsimp only at hflow hgeneration hsequence hpayload
  unfold decodeReliable
  rw [if_neg hguard]
  dsimp only
  rw [hlength, ofBeBytes_beBytes 4 _ h.payload, if_neg (by omega), hflow, hpriority]
  dsimp only
  rw [hgeneration, hsequence, hpayload]

end LatestFrame

theorem ReliableLatestReceiver.next_mem {r : ReliableLatestReceiver} {flow : RealtimeFlowId}
    {received : ReceivedRealtimeDatagram} (h : r.next = some (flow, received)) :
    r.pending[flow]? = some received :=
  Std.ExtTreeMap.mem_toList_iff_getElem?_eq_some.mp (List.argmin_mem h)

/-- A frame that is newer than the one that it meets is kept. -/
theorem ReliableLatestReceiver.accept_newer (r : ReliableLatestReceiver)
    {received : ReceivedRealtimeDatagram}
    (h : ∀ previous, r.pending[received.flow]? = some previous →
      previous.sequence < received.sequence) :
    r.accept received =
      { r with
        pending := r.pending.insert received.flow received
        replacements := if (r.pending[received.flow]?).isSome then saturatingAdd r.replacements 1
          else r.replacements } := by
  unfold accept
  cases hpending : r.pending[received.flow]? with
  | none => rfl
  | some previous => exact if_pos (h previous hpending)

namespace LatestLink
variable {σ ε : Type} {c : ReliableLane σ} {maxFrameBytes : ℕ} {w : LatestLink σ}
  {accepted delivered : List LatestFrame}

def onFlow (flow : RealtimeFlowId) (frames : List LatestFrame) : List LatestFrame :=
  frames.filter fun frame => frame.flow = flow

theorem onFlow_append (flow : RealtimeFlowId) (frames more : List LatestFrame) :
    onFlow flow (frames ++ more) = onFlow flow frames ++ onFlow flow more := List.filter_append ..

theorem onFlow_self {flow : RealtimeFlowId} {frame : LatestFrame} (h : frame.flow = flow) :
    onFlow flow [frame] = [frame] := by simp [onFlow, h]

theorem onFlow_other {flow : RealtimeFlowId} {frame : LatestFrame} (h : frame.flow ≠ flow) :
    onFlow flow [frame] = [] := by simp [onFlow, h]

/-- What holds between two calls when these frames have been accepted and delivered. The counters
stand for the frames that were superseded at the two ends. -/
structure Sound (c : ReliableLane σ) (maxFrameBytes : ℕ) (w : LatestLink σ)
    (accepted delivered : List LatestFrame) : Prop where
  current : ∀ flow, Current (onFlow flow accepted) (onFlow flow delivered ++ underWay c w flow)
  rising : ∀ flow, (onFlow flow accepted).Pairwise fun a b => a.sequence < b.sequence
  flying : ∀ wire ∈ c.lane w.connection, ∃ frame : LatestFrame,
    frame.Fits maxFrameBytes ∧ wire = frame.wire
  waits : ∀ flow wire, w.sender.waiting flow = some wire → ∃ frame : LatestFrame,
    frame.Fits maxFrameBytes ∧ frame.flow = flow ∧ wire = frame.wire
  held : ∀ (flow : RealtimeFlowId) received, w.receiver.pending[flow]? = some received →
    received.flow = flow
  stale : w.receiver.staleDiscarded = 0
  counted : ∃ a b, w.sender.replacements = min a counterMax ∧
    w.receiver.replacements = min b counterMax ∧
    accepted.length = delivered.length+w.receiver.pending.size+(c.lane w.connection).length+
      w.sender.pendingCount+a+b

/-- The frames under way on a flow when this frame comes next on the lane. -/
theorem underWay_next {frame : LatestFrame} {s : σ}
    (hlane : c.lane w.connection = frame.wire :: c.lane s) (flow : RealtimeFlowId) :
    underWay c w flow = (w.receiver.pending[flow]?.map LatestFrame.ofReceived).toList ++
      ((onFlow flow [frame] ++ onFlow flow ((c.lane s).map LatestFrame.ofWire)) ++
        ((w.sender.waiting flow).map LatestFrame.ofWire).toList) := by
  unfold underWay onFlow
  rw [hlane, List.map_cons, LatestFrame.ofWire_wire, ← List.filter_append, List.singleton_append]

/-- What the receiver holds on the flow of the next frame was accepted before that frame. -/
theorem Sound.next_newer (h : w.Sound c maxFrameBytes accepted delivered) {frame : LatestFrame}
    {s : σ} (hlane : c.lane w.connection = frame.wire :: c.lane s)
    {previous : ReceivedRealtimeDatagram}
    (hprevious : w.receiver.pending[frame.flow]? = some previous) :
    previous.sequence < frame.sequence := by
  have hrising := (h.current frame.flow).pairwise (h.rising frame.flow)
  rw [underWay_next hlane, hprevious, onFlow_self rfl] at hrising
  have htail := (List.pairwise_append.mp hrising).2.1
  exact (List.pairwise_append.mp htail).2.2 (.ofReceived previous) (by simp) frame (by simp)

/-- The receiver takes the frame that comes next on the lane. -/
theorem Sound.take (h : w.Sound c maxFrameBytes accepted delivered) {wire : Bytes} {s : σ}
    (hreceive : c.tryReceive w.connection = (.ok (some wire), s)) (receivedAt : ℕ) :
    ∃ received, decodeReliable (ε := ε) wire maxFrameBytes receivedAt = .ok received ∧
      Sound c maxFrameBytes ⟨w.sender, w.receiver.accept received, s⟩ accepted delivered := by
  have hlane := c.receive_some w.connection wire (by rw [hreceive])
  rw [hreceive] at hlane
  dsimp only at hlane
  obtain ⟨frame, hfits, rfl⟩ := h.flying wire (hlane ▸ List.mem_cons_self)
  obtain ⟨received, hdecode, hframe⟩ := hfits.decode receivedAt
  have hflow : received.flow = frame.flow := congrArg LatestFrame.flow hframe
  have hsequence : received.sequence = frame.sequence := congrArg LatestFrame.sequence hframe
  have haccept : w.receiver.accept received = _ := w.receiver.accept_newer (by
    intro previous hprevious
    rw [hflow] at hprevious
    rw [hsequence]
    exact h.next_newer hlane hprevious)
  refine ⟨received, hdecode, ?_, h.rising, ?_, h.waits, ?_, ?_, ?_⟩
  · intro flow
    have hcurrent := h.current flow
    rw [underWay_next hlane] at hcurrent
    unfold underWay
    dsimp only
    rw [haccept]
    dsimp only
    rw [lookup_insert]
    by_cases hmine : received.flow = flow
    · subst hmine
      rw [if_pos rfl, Option.map_some, hframe, Option.toList_some]
      rw [onFlow_self hflow.symm] at hcurrent
      cases hpending : w.receiver.pending[received.flow]? with
      | none =>
        rw [hpending] at hcurrent
        exact hcurrent
      | some previous =>
        rw [hpending] at hcurrent
        exact hcurrent.supersede
    · rw [onFlow_other (hflow ▸ hmine)] at hcurrent
      rw [if_neg hmine]
      exact hcurrent
  · intro wire hwire
    exact h.flying wire (hlane ▸ List.mem_cons_of_mem _ hwire)
  · intro flow other hother
    rw [haccept] at hother
    dsimp only at hother
    rw [lookup_insert] at hother
    by_cases hmine : received.flow = flow
    · rw [if_pos hmine] at hother
      rw [← Option.some.inj hother]
      exact hmine
    · rw [if_neg hmine] at hother
      exact h.held flow other hother
  · rw [haccept]
    exact h.stale
  · obtain ⟨a, b, ha, hb, htotal⟩ := h.counted
    rw [hlane, List.length_cons] at htotal
    rw [haccept]
    cases hpending : w.receiver.pending[received.flow]? with
    | none =>
      refine ⟨a, b, ha, by simpa [hpending] using hb, ?_⟩
      dsimp only
      rw [size_insert_new _ _ hpending]
      omega
    | some previous =>
      refine ⟨a, b+1, ha, ?_, ?_⟩
      · simp only [Option.isSome_some, if_true]
        rw [hb, saturatingAdd_min]
      · dsimp only
        rw [size_insert_live _ _ hpending]
        omega

/-- The receiver hands out a frame that it holds. -/
theorem Sound.deliver (h : w.Sound c maxFrameBytes accepted delivered) {flow : RealtimeFlowId}
    {received : ReceivedRealtimeDatagram} (hnext : w.receiver.next = some (flow, received)) :
    Sound c maxFrameBytes
      { w with receiver := { w.receiver with pending := w.receiver.pending.erase flow } }
      accepted (delivered ++ [.ofReceived received]) := by
  have hpending := ReliableLatestReceiver.next_mem hnext
  have hflow : (LatestFrame.ofReceived received).flow = flow := h.held flow received hpending
  refine ⟨?_, h.rising, h.flying, h.waits, ?_, h.stale, ?_⟩
  · intro other
    have hcurrent := h.current other
    unfold underWay at hcurrent ⊢
    dsimp only
    rw [lookup_erase, onFlow_append]
    by_cases hmine : flow = other
    · subst hmine
      rw [hpending, Option.map_some, Option.toList_some] at hcurrent
      rw [if_pos rfl, onFlow_self hflow, List.append_assoc]
      exact hcurrent
    · rw [if_neg hmine, onFlow_other (hflow ▸ hmine), List.append_nil]
      exact hcurrent
  · intro other frame hframe
    dsimp only at hframe
    rw [lookup_erase] at hframe
    by_cases hmine : flow = other
    · rw [if_pos hmine] at hframe
      cases hframe
    · rw [if_neg hmine] at hframe
      exact h.held other frame hframe
  · obtain ⟨a, b, ha, hb, htotal⟩ := h.counted
    have hsize := size_erase_add_one w.receiver.pending hpending
    refine ⟨a, b, ha, hb, ?_⟩
    rw [List.length_append, List.length_singleton]
    dsimp only
    omega

theorem waiting_insert (r : ReliableLatestSender) (flow other : RealtimeFlowId)
    (frame : PendingFrame) (n : ℕ) :
    (⟨r.pending.insert flow frame, n⟩ : ReliableLatestSender).waiting other =
      if flow = other then (if frame.pending then some frame.wire else none)
      else r.waiting other := by
  unfold ReliableLatestSender.waiting
  rw [lookup_insert]
  by_cases hmine : flow = other
  · rw [if_pos hmine, if_pos hmine, Option.bind_some]
  · rw [if_neg hmine, if_neg hmine]

/-- One more or one less frame waits, as the frame of the flow did before and does now. -/
theorem pendingCount_insert (r : ReliableLatestSender) (flow : RealtimeFlowId)
    (frame : PendingFrame) (n : ℕ) :
    (⟨r.pending.insert flow frame, n⟩ : ReliableLatestSender).pendingCount+
        (if (r.waiting flow).isSome then 1 else 0) =
      r.pendingCount+(if frame.pending then 1 else 0) := by
  have hwrite := sumBy_write (fun frame : PendingFrame => if frame.pending then 1 else 0) r.pending
    flow frame
  unfold ReliableLatestSender.pendingCount ReliableLatestSender.waiting
  rw [← hwrite]
  congr 1
  cases r.pending[flow]? with
  | none => rfl
  | some before => cases hpending : before.pending <;> simp [hpending]

/-- The connection takes the frame that is sent next. -/
theorem Sound.send (h : w.Sound c maxFrameBytes accepted delivered) {flow : RealtimeFlowId}
    {frame : PendingFrame} (hnext : w.sender.next = some (flow, frame)) {s : σ}
    (hsend : c.trySend w.connection frame.wire = (.ok (), s)) :
    Sound c maxFrameBytes
      ⟨{ w.sender with
          pending := w.sender.pending.insert flow { frame with pending := false } }, w.receiver, s⟩
      accepted delivered := by
  obtain ⟨hlookup, hpending⟩ := ReliableLatestSender.next_waits hnext
  have hwaits : w.sender.waiting flow = some frame.wire := by
    unfold ReliableLatestSender.waiting
    rw [hlookup, Option.bind_some, if_pos hpending]
  obtain ⟨sent, hfits, hflow, hwire⟩ := h.waits flow frame.wire hwaits
  have hlane := c.send_ok w.connection frame.wire (by rw [hsend])
  rw [hsend] at hlane
  dsimp only at hlane
  refine ⟨?_, h.rising, ?_, ?_, h.held, h.stale, ?_⟩
  · intro other
    have hcurrent := h.current other
    unfold underWay at hcurrent ⊢
    dsimp only
    rw [waiting_insert, hlane, List.map_append, List.filter_append, hwire, List.map_singleton,
      LatestFrame.ofWire_wire]
    -- On its flow the frame goes from the end of what waits to the end of the lane.
    by_cases hmine : flow = other
    · subst hmine
      rw [hwaits, hwire, Option.map_some, LatestFrame.ofWire_wire] at hcurrent
      have hself := onFlow_self hflow
      unfold onFlow at hself
      rw [hself, if_pos rfl]
      simpa using hcurrent
    · have hother := onFlow_other (hflow ▸ hmine : sent.flow ≠ other)
      unfold onFlow at hother
      rw [hother, if_neg hmine, List.append_nil]
      exact hcurrent
  · intro wire hmem
    dsimp only at hmem
    rw [hlane] at hmem
    rcases List.mem_append.mp hmem with hmem | hmem
    · exact h.flying wire hmem
    · exact ⟨sent, hfits, (List.mem_singleton.mp hmem).trans hwire⟩
  · intro other wire hother
    rw [waiting_insert] at hother
    by_cases hmine : flow = other
    · rw [if_pos hmine] at hother
      cases hother
    · rw [if_neg hmine] at hother
      exact h.waits other wire hother
  · obtain ⟨a, b, ha, hb, htotal⟩ := h.counted
    have hcount := pendingCount_insert w.sender flow { frame with pending := false }
      w.sender.replacements
    rw [hwaits] at hcount
    simp only [Option.isSome_some, if_true, Bool.false_eq_true, if_false, Nat.add_zero] at hcount
    refine ⟨a, b, ha, hb, ?_⟩
    dsimp only
    rw [hlane, List.length_append, List.length_singleton]
    omega

/-- A call of the connection that leaves the lane as it is. -/
theorem Sound.reconnected (h : w.Sound c maxFrameBytes accepted delivered) {s : σ}
    (hlane : c.lane s = c.lane w.connection) :
    Sound c maxFrameBytes { w with connection := s } accepted delivered := by
  refine ⟨?_, h.rising, ?_, h.waits, h.held, h.stale, ?_⟩
  · intro flow
    unfold underWay
    dsimp only
    rw [hlane]
    exact h.current flow
  · dsimp only
    rw [hlane]
    exact h.flying
  · dsimp only
    rw [hlane]
    exact h.counted

theorem waiting_isSome (r : ReliableLatestSender) (flow : RealtimeFlowId) :
    (r.waiting flow).isSome = r.pending[flow]?.any PendingFrame.pending := by
  unfold ReliableLatestSender.waiting
  cases r.pending[flow]? with
  | none => rfl
  | some frame => cases hpending : frame.pending <;> simp [hpending]

variable (maxFrameBytes) in
/-- A frame is refused for its size, or it takes the place of the one that waits. -/
theorem enqueue_latest (r : ReliableLatestSender) (frame : LatestFrame)
    (priority : RealtimePriority) :
    r.enqueue (ε := ε) frame.flow frame.generation frame.sequence priority frame.payload
        maxFrameBytes = (.error .payloadLimit, r) ∨
      reliableHeaderLen+frame.payload.length ≤ maxFrameBytes ∧ frame.payload.length < 2^32 ∧
      ∃ outcome, r.enqueue (ε := ε) frame.flow frame.generation frame.sequence priority
          frame.payload maxFrameBytes =
        (.ok outcome, ⟨r.pending.insert frame.flow ⟨true, priority, frame.wire⟩,
          if (r.waiting frame.flow).isSome then saturatingAdd r.replacements 1
            else r.replacements⟩) := by
  unfold ReliableLatestSender.enqueue
  dsimp only
  split
  · exact .inl rfl
  split
  · exact .inl rfl
  next hsize =>
  rw [not_or, Nat.not_lt, Nat.not_lt] at hsize
  refine .inr ⟨hsize.1, by omega, ?_⟩
  rw [waiting_isSome]
  split
  · exact ⟨_, rfl⟩
  · exact ⟨_, rfl⟩

/-- The sender takes a frame that is newer than those of its flow before. -/
theorem Sound.enqueue (h : w.Sound c maxFrameBytes accepted delivered) {frame : LatestFrame}
    (hfits : frame.Fits maxFrameBytes) (priority : RealtimePriority)
    (hrising : ∀ flow, (onFlow flow (accepted ++ [frame])).Pairwise
      fun a b => a.sequence < b.sequence) :
    Sound c maxFrameBytes
      { w with
        sender := ⟨w.sender.pending.insert frame.flow ⟨true, priority, frame.wire⟩,
          if (w.sender.waiting frame.flow).isSome then saturatingAdd w.sender.replacements 1
          else w.sender.replacements⟩ }
      (accepted ++ [frame]) delivered := by
  refine ⟨?_, hrising, h.flying, ?_, h.held, h.stale, ?_⟩
  · intro flow
    have hcurrent := h.current flow
    unfold underWay at hcurrent ⊢
    dsimp only
    rw [waiting_insert, onFlow_append]
    by_cases hmine : frame.flow = flow
    · subst hmine
      rw [if_pos rfl, if_pos rfl, onFlow_self rfl, Option.map_some, LatestFrame.ofWire_wire,
        Option.toList_some]
      simp only [← List.append_assoc] at hcurrent ⊢
      cases hwaiting : w.sender.waiting frame.flow with
      | none =>
        rw [hwaiting, Option.map_none, Option.toList_none, List.append_nil] at hcurrent
        exact hcurrent.offer frame
      | some wire =>
        rw [hwaiting, Option.map_some, Option.toList_some] at hcurrent
        exact hcurrent.replace frame
    · rw [if_neg hmine, onFlow_other hmine, List.append_nil]
      exact hcurrent
  · intro flow wire hwire
    rw [waiting_insert] at hwire
    by_cases hmine : frame.flow = flow
    · rw [if_pos hmine, if_pos rfl] at hwire
      exact ⟨frame, hfits, hmine, (Option.some.inj hwire).symm⟩
    · rw [if_neg hmine] at hwire
      exact h.waits flow wire hwire
  · obtain ⟨a, b, ha, hb, htotal⟩ := h.counted
    have hcount := pendingCount_insert w.sender frame.flow ⟨true, priority, frame.wire⟩
      (if (w.sender.waiting frame.flow).isSome then saturatingAdd w.sender.replacements 1
        else w.sender.replacements)
    rw [List.length_append, List.length_singleton]
    cases hwaiting : w.sender.waiting frame.flow with
    | none =>
      rw [hwaiting] at hcount
      simp only [Option.isSome_none, Bool.false_eq_true, if_false, if_true, Nat.add_zero] at hcount
      refine ⟨a, b, ha, hb, ?_⟩
      simp only [Option.isSome_none, Bool.false_eq_true, if_false]
      omega
    | some wire =>
      rw [hwaiting] at hcount
      simp only [Option.isSome_some, if_true] at hcount
      refine ⟨a+1, b, ?_, hb, ?_⟩
      · simp only [Option.isSome_some, if_true]
        rw [ha, saturatingAdd_min]
      · simp only [Option.isSome_some, if_true]
        omega

/-- The rounds of a flush. -/
theorem Sound.flushRounds (rounds : ℕ) (h : w.Sound c maxFrameBytes accepted delivered) :
    Sound c maxFrameBytes
      ⟨(ReliableLatestSender.flushRounds (ε := ε) c.toNtpConnection rounds w.sender
          w.connection).2.1, w.receiver,
        (ReliableLatestSender.flushRounds (ε := ε) c.toNtpConnection rounds w.sender
          w.connection).2.2⟩ accepted delivered := by
  induction rounds generalizing w with
  | zero => exact h
  | succ rounds ih =>
    unfold ReliableLatestSender.flushRounds
    split
    · exact h
    next flow frame hnext =>
    split
    next s hsend => exact ih (h.send hnext hsend)
    next e s hsend =>
      have hlane := c.send_error w.connection frame.wire e (by rw [hsend])
      rw [hsend] at hlane
      have hkept := h.reconnected hlane
      split
      · exact hkept
      · exact hkept

/-- The loop of a poll: every frame gets through, so it only fails where the connection does. -/
theorem Sound.drain (clock : ℕ → ℕ) (rounds : ℕ)
    (h : w.Sound c maxFrameBytes accepted delivered) :
    Sound c maxFrameBytes
      ⟨w.sender, (ReliableLatestReceiver.drain (ε := ε) c.tryReceive maxFrameBytes clock rounds
          w.receiver w.connection).2.1,
        (ReliableLatestReceiver.drain (ε := ε) c.tryReceive maxFrameBytes clock rounds w.receiver
          w.connection).2.2⟩ accepted delivered ∧
    ∀ e, (ReliableLatestReceiver.drain (ε := ε) c.tryReceive maxFrameBytes clock rounds w.receiver
      w.connection).1 = .error e → ∃ error, e = .transport error := by
  induction rounds generalizing w with
  | zero => exact ⟨h, nofun⟩
  | succ rounds ih =>
    have hquiet {s : σ} {answer : Except TransportError (Option Bytes)}
        (hreceive : c.tryReceive w.connection = (answer, s))
        (hnone : ∀ wire, answer ≠ .ok (some wire)) :
        Sound c maxFrameBytes ⟨w.sender, w.receiver, s⟩ accepted delivered := by
      have hlane := c.receive_none w.connection (by rw [hreceive]; exact hnone)
      rw [hreceive] at hlane
      exact h.reconnected hlane
    unfold ReliableLatestReceiver.drain
    split
    next wire s hreceive =>
      obtain ⟨received, hdecode, htaken⟩ := h.take (ε := ε) hreceive (clock rounds)
      rw [hdecode]
      exact ih htaken
    next s hreceive => exact ⟨hquiet hreceive nofun, nofun⟩
    next e s hreceive =>
      have hkept := hquiet hreceive nofun
      split
      · exact ⟨hkept, nofun⟩
      · refine ⟨hkept, ?_⟩
        rintro e' he
        exact ⟨e, (Except.error.inj he).symm⟩

end LatestLink

end MutsukiLink.Ntp
