import MutsukiLink.NtpFrames

/-! A connection that keeps the data frames that it has accepted, and what a flush of the reliable
lane does to the frames that wait. -/
namespace MutsukiLink.Ntp
open WireBytes

section Recording
variable {σ ε : Type}

/-- The connection with a list of the data frames that it has answered without an error. -/
def NtpConnection.recording (connection : NtpConnection σ) : NtpConnection (σ × List Frame) where
  maxDatagramPayload s := connection.maxDatagramPayload s.1
  trySendLatest s datagram :=
    let (result, s') := connection.trySendLatest s.1 datagram
    (result, s', if result.isOk then s.2 ++ [.realtime datagram] else s.2)
  sendControl s message :=
    let (result, s') := connection.sendControl s.1 message
    (result, s', s.2)
  receiveControl s :=
    let (result, s') := connection.receiveControl s.1
    (result, s', s.2)
  trySend s wire :=
    let (result, s') := connection.trySend s.1 wire
    (result, s', if result.isOk then s.2 ++ [.reliable wire] else s.2)

theorem recording_trySend {connection : NtpConnection σ} {s s' : σ} (log : List Frame)
    {wire : Bytes} {result : Except TransportError Unit}
    (h : connection.trySend s wire = (result, s')) :
    connection.recording.trySend (s, log) wire =
      (result, s', if result.isOk then log ++ [.reliable wire] else log) := by
  show ((connection.trySend s wire).1, (connection.trySend s wire).2,
    if (connection.trySend s wire).1.isOk then log ++ [Frame.reliable wire] else log) = _
  rw [h]

theorem recording_trySendLatest {connection : NtpConnection σ} {s s' : σ} (log : List Frame)
    {datagram : RealtimeDatagram} {result : Except TransportError SendOutcome}
    (h : connection.trySendLatest s datagram = (result, s')) :
    connection.recording.trySendLatest (s, log) datagram =
      (result, s', if result.isOk then log ++ [.realtime datagram] else log) := by
  show ((connection.trySendLatest s datagram).1, (connection.trySendLatest s datagram).2,
    if (connection.trySendLatest s datagram).1.isOk then log ++ [Frame.realtime datagram]
      else log) = _
  rw [h]

namespace ReliableLatestSender

/-- A frame that is still to be sent. -/
def Waits (r : ReliableLatestSender) (flow : RealtimeFlowId) (frame : PendingFrame) : Prop :=
  r.pending[flow]? = some frame ∧ frame.pending = true

/-- Every waiting frame is handed over or waits on, and nothing else is handed over. -/
structure Flushed (r r' : ReliableLatestSender) (handed : List Frame) : Prop where
  waited : ∀ sent ∈ handed, ∃ flow frame, r.Waits flow frame ∧ sent = .reliable frame.wire
  kept : ∀ flow frame, r'.Waits flow frame → r.Waits flow frame
  accounted : ∀ flow frame, r.Waits flow frame →
    Frame.reliable frame.wire ∈ handed ∨ r'.Waits flow frame

theorem Flushed.refl (r : ReliableLatestSender) : r.Flushed r [] where
  waited sent hsent := by cases hsent
  kept _ _ h := h
  accounted _ _ h := .inr h

theorem next_waits {r : ReliableLatestSender} {flow : RealtimeFlowId} {frame : PendingFrame}
    (h : r.next = some (flow, frame)) : r.Waits flow frame := by
  refine ⟨next_mem h, ?_⟩
  have hmem := List.argmin_mem h
  exact (List.mem_filter.mp hmem).2

/-- The frame that was sent is the only one that no longer waits. -/
theorem waits_sent (r : ReliableLatestSender) (flow other : RealtimeFlowId)
    (frame frame' : PendingFrame) :
    ({ r with pending := r.pending.insert flow { frame with pending := false } } :
      ReliableLatestSender).Waits other frame' ↔ other ≠ flow ∧ r.Waits other frame' := by
  unfold Waits
  rw [Std.ExtTreeMap.getElem?_insert]
  by_cases hflow : flow = other
  · subst hflow
    rw [if_pos (by simp)]
    constructor
    · intro hwaits
      obtain ⟨hframe, hpending⟩ := hwaits
      obtain rfl := Option.some.inj hframe
      cases hpending
    · intro hwaits
      exact absurd rfl hwaits.1
  · have hother : ¬compare flow other = .eq := by simpa using hflow
    rw [if_neg hother]
    exact ⟨fun hwaits => ⟨Ne.symm hflow, hwaits⟩, fun hwaits => hwaits.2⟩

theorem Flushed.sent {r r' : ReliableLatestSender} {flow : RealtimeFlowId} {frame : PendingFrame}
    {handed : List Frame} (hwaits : r.Waits flow frame)
    (h : Flushed { r with pending := r.pending.insert flow { frame with pending := false } }
      r' handed) : r.Flushed r' (.reliable frame.wire :: handed) where
  waited := by
    intro sent hsent
    rcases List.mem_cons.mp hsent with rfl | hsent
    · exact ⟨flow, frame, hwaits, rfl⟩
    · obtain ⟨other, frame', hother, hwire⟩ := h.waited sent hsent
      exact ⟨other, frame', ((waits_sent r flow other frame frame').mp hother).2, hwire⟩
  kept := by
    intro other frame' hother
    exact ((waits_sent r flow other frame frame').mp (h.kept other frame' hother)).2
  accounted := by
    intro other frame' hother
    -- The frame that was sent is accounted for here, the others by the rest of the rounds.
    by_cases hflow : other = flow
    · subst hflow
      have hsame : frame' = frame := Option.some.inj (hother.1.symm.trans hwaits.1)
      rw [hsame]
      exact .inl List.mem_cons_self
    · have hwaits' := (waits_sent r flow other frame frame').mpr ⟨hflow, hother⟩
      rcases h.accounted other frame' hwaits' with hsent | hkept
      · exact .inl (List.mem_cons_of_mem _ hsent)
      · exact .inr hkept

/-- The record changes nothing else, and a flush only hands over what waits. -/
theorem flushRounds_recording (connection : NtpConnection σ) (rounds : ℕ)
    (r : ReliableLatestSender) (s : σ) (log : List Frame) :
    ∃ handed, flushRounds (ε := ε) connection.recording rounds r (s, log) =
        ((flushRounds (ε := ε) connection rounds r s).1,
          (flushRounds (ε := ε) connection rounds r s).2.1,
          (flushRounds (ε := ε) connection rounds r s).2.2, log ++ handed) ∧
      r.Flushed (flushRounds (ε := ε) connection rounds r s).2.1 handed := by
  -- The rounds start from any sender and log, as each one hands both on to the next.
  induction rounds generalizing r s log with
  | zero => exact ⟨[], by rw [List.append_nil]; rfl, .refl r⟩
  | succ rounds ih =>
    simp only [flushRounds]
    cases hnext : r.next with
    | none => exact ⟨[], by rw [List.append_nil], .refl r⟩
    | some entry =>
    obtain ⟨flow, frame⟩ := entry
    rcases hsend : connection.trySend s frame.wire with ⟨e | done, s'⟩
    · have hrefused : connection.recording.trySend (s, log) frame.wire = (.error e, s', log) :=
        recording_trySend log hsend
      by_cases hblock : e.kind = .wouldBlock
      · simp only [hsend, hrefused, if_pos hblock]
        exact ⟨[], by rw [List.append_nil], .refl r⟩
      · simp only [hsend, hrefused, if_neg hblock]
        exact ⟨[], by rw [List.append_nil], .refl r⟩
    · have hdone : connection.recording.trySend (s, log) frame.wire =
          (.ok (), s', log ++ [.reliable frame.wire]) := recording_trySend log hsend
      simp only [hsend, hdone]
      obtain ⟨handed, hrun, hflushed⟩ := ih
        { r with pending := r.pending.insert flow { frame with pending := false } } s'
        (log ++ [.reliable frame.wire])
      refine ⟨.reliable frame.wire :: handed, ?_, hflushed.sent (next_waits hnext)⟩
      rw [List.append_assoc, List.singleton_append] at hrun
      exact hrun

end ReliableLatestSender

variable {request : FragmentSend} {size : ℕ}

/-- The loop over the chunks takes the same turns, and the record only grows. -/
theorem sendChunks_recording (connection : NtpConnection σ) (chunks : List (Bytes × ℕ)) (s : σ)
    (log : List Frame) (aggregate : FragmentBatchOutcome) :
    ∃ handed, sendChunks (ε := ε) connection.recording.toLatestConnection request size chunks
        (s, log) aggregate =
      ((sendChunks (ε := ε) connection.toLatestConnection request size chunks s aggregate).1,
        (sendChunks (ε := ε) connection.toLatestConnection request size chunks s aggregate).2,
        log ++ handed) := by
  induction chunks generalizing s log aggregate with
  | nil => exact ⟨[], by rw [List.append_nil]; rfl⟩
  | cons chunk rest ih =>
    obtain ⟨bytes, index⟩ := chunk
    rw [sendChunks, sendChunks]
    cases fragmentBytes (ε := ε) index (PieceAssembly.count request.payload size) (index*size)
      request.payload.length bytes with
    | error e => exact ⟨[], by rw [List.append_nil]⟩
    | ok payload =>
      simp only
      obtain ⟨result, s', hsend⟩ : ∃ result s', connection.trySendLatest s
        (request.datagram payload) = (result, s') := ⟨_, _, rfl⟩
      have hrecorded := recording_trySendLatest log hsend
      rw [FragmentSend.datagram] at hsend hrecorded
      simp only [hsend, hrecorded]
      cases result with
      | error e => exact ⟨[], by rw [List.append_nil]; rfl⟩
      | ok outcome =>
        -- The datagram is handed over, and two of the outcomes go on with the loop.
        have hone : (if (Except.ok outcome : Except TransportError SendOutcome).isOk then
            log ++ [Frame.realtime (request.datagram payload)] else log) =
            log ++ [Frame.realtime (request.datagram payload)] := rfl
        rw [FragmentSend.datagram] at hone
        rw [hone]
        have hmore (aggregate : FragmentBatchOutcome) := ih s'
          (log ++ [Frame.realtime (request.datagram payload)]) aggregate
        cases outcome with
        | enqueued =>
          obtain ⟨handed, hrun⟩ := hmore _
          rw [List.append_assoc] at hrun
          exact ⟨_, hrun⟩
        | replacedOlder =>
          obtain ⟨handed, hrun⟩ := hmore _
          rw [List.append_assoc] at hrun
          exact ⟨_, hrun⟩
        | _ => exact ⟨_, rfl⟩

theorem sendFragmented_recording (connection : NtpConnection σ) (s : σ) (log : List Frame)
    (request : FragmentSend) :
    ∃ handed, sendFragmented (ε := ε) connection.recording.toLatestConnection (s, log) request =
      ((sendFragmented (ε := ε) connection.toLatestConnection s request).1,
        (sendFragmented (ε := ε) connection.toLatestConnection s request).2, log ++ handed) := by
  have hnothing {α : Type} (answer : α) : ∃ handed,
      ((answer, s, log) : α × σ × List Frame) = (answer, s, log ++ handed) :=
    ⟨[], by rw [List.append_nil]⟩
  have hlimit : connection.recording.maxDatagramPayload (s, log) =
      connection.maxDatagramPayload s := rfl
  unfold sendFragmented
  rw [hlimit]
  split
  · exact hnothing _
  cases connection.maxDatagramPayload s with
  | none => exact hnothing _
  | some maxPayload =>
    simp only
    split
    · exact hnothing _
    split
    · exact hnothing _
    · exact sendChunks_recording connection _ s log {}

namespace Publisher
variable {P : TrackingProtocol}

theorem flushReliable_recording (connection : NtpConnection σ) (p : Publisher P) (s : σ)
    (log : List Frame) :
    ∃ handed, p.flushReliable connection.recording (s, log) =
        ((p.flushReliable connection s).1, (p.flushReliable connection s).2.1,
          (p.flushReliable connection s).2.2, log ++ handed) ∧
      p.reliable.Flushed (p.flushReliable connection s).2.1.reliable handed := by
  obtain ⟨handed, hrun, hflushed⟩ := ReliableLatestSender.flushRounds_recording (ε := P.Error)
    connection p.reliable.pending.size p.reliable s log
  refine ⟨handed, ?_, hflushed⟩
  simp only [flushReliable, ReliableLatestSender.flush, hrun]

theorem sendGeometry_recording (connection : NtpConnection σ) (p : Publisher P) (s : σ)
    (log : List Frame) (result : P.Result) (deadline : ℕ) (geometry : Option Bytes) :
    ∃ handed, p.sendGeometry connection.recording (s, log) result deadline geometry =
      ((p.sendGeometry connection s result deadline geometry).1,
        (p.sendGeometry connection s result deadline geometry).2, log ++ handed) := by
  cases geometry with
  | none => exact ⟨[], by rw [List.append_nil]; rfl⟩
  | some payload =>
    obtain ⟨handed, hrun⟩ := sendFragmented_recording (ε := P.Error) connection s log {
      flow := geometryFlow, generation := result.generation, sequence := result.sequence, deadline
      priority := .disposable, payload, config := p.config }
    refine ⟨handed, ?_⟩
    simp only [sendGeometry, sendFragments, hrun]
    rcases sendFragmented (ε := P.Error) connection.toLatestConnection s _ with ⟨e | outcome, s'⟩
    · rfl
    · rfl

end Publisher

end Recording

end MutsukiLink.Ntp
