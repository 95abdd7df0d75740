import MutsukiLink.FramedLanes

/-! The receiving end of a framed connection, whatever the bytes that it reads. -/
namespace MutsukiLink
open WireBytes

/-- A message that the writer can write and the reader gives to its own lane. -/
def Fits (lane : Lane) (message : Bytes) : Prop := laneOf message = lane ∧ message.length < 2^32

/-- Control frames start with the bytes that the reader looks for. -/
theorem laneOf_controlFrame {protocol : String} {message bytes : Bytes}
    (h : controlFrame protocol message = .ok bytes) : laneOf bytes = .control := by
  unfold controlFrame at h
  split at h
  · cases h
  split at h
  · cases h
  · obtain rfl := Except.ok.inj h
    rfl

theorem laneOf_mem_controlFrame {protocol : String} {message bytes : Bytes}
    (h : bytes ∈ (controlFrame protocol message).toOption.toList) : laneOf bytes = .control := by
  cases hframe : controlFrame protocol message with
  | error e =>
    rw [hframe] at h
    cases h
  | ok framed =>
    rw [hframe] at h
    obtain rfl := List.mem_singleton.mp h
    exact laneOf_controlFrame hframe

theorem laneOf_eq_data {message : Bytes} : laneOf message = .data ↔ isControl message = false := by
  unfold laneOf
  cases isControl message <;> simp

namespace FramedLink
variable {link : FramedLink}

/-- Whatever the stream carries, the reader only holds lengths of four bytes. -/
def Narrow : FrameReader → Prop
  | .header got => got.length < 4
  | .body length got => got.length < length ∧ length < 2^32
  | .handing message => message.length < 2^32
  | .finished _ => True

theorem narrow_readerAfter (budget : TransportBudget) (byte : UInt8) {reader : FrameReader}
    (h : Narrow reader) : Narrow (readerAfter budget byte reader) := by
  cases reader with
  | header got =>
    have hgot : got.length < 4 := h
    simp only [readerAfter]
    split
    · assumption
    next hlong =>
    split
    · trivial
    split
    · exact Nat.two_pow_pos 32
    next hpositive =>
    have hfour : (got ++ [byte]).length = 4 := by
      rw [List.length_append, List.length_singleton] at hlong ⊢
      omega
    refine ⟨Nat.pos_of_ne_zero hpositive, ?_⟩
    have hbound := ofBeBytes_lt (got ++ [byte])
    rw [hfour] at hbound
    omega
  | body length got =>
    obtain ⟨hgot, hlength⟩ := h
    simp only [readerAfter]
    split
    · exact ⟨by assumption, hlength⟩
    · change (got ++ [byte]).length < 2^32
      rw [List.length_append, List.length_singleton]
      omega
  | handing message => exact h
  | finished e => exact h

/-- The receiving end has every message in the lane that its first bytes name. -/
structure Classified (link : FramedLink) : Prop where
  reader : Narrow link.reader
  queued : ∀ lane, ∀ message ∈ link.receiveQueue lane, Fits lane message

/-- A call of the sending end does not touch the receiving end. -/
theorem receiving_end_eq (link : FramedLink) {call : FramedCall}
    (hcall : call ≠ .readByte ∧ call ≠ .forward ∧ call ≠ .tryReceive ∧
      call ≠ .tryReceiveControl) :
    (link.step call).2.reader = link.reader ∧
      ∀ lane, (link.step call).2.receiveQueue lane = link.receiveQueue lane := by
  -- The sending side and the receiving side share no field.
  have hstart (link : FramedLink) (message : Bytes) :
      (link.startFrame message).reader = link.reader ∧
        ∀ lane, (link.startFrame message).receiveQueue lane = link.receiveQueue lane := by
    unfold startFrame
    split <;> exact ⟨rfl, fun lane => by cases lane <;> rfl⟩
  cases call with
  | trySend message =>
    simp only [step, trySend]
    split <;> exact ⟨rfl, fun lane => by cases lane <;> rfl⟩
  | controlSend protocol message =>
    simp only [step, controlSend]
    split
    · exact ⟨rfl, fun lane => rfl⟩
    · simp only [trySendControl]
      split <;> exact ⟨rfl, fun lane => by cases lane <;> rfl⟩
  | takeNext =>
    simp only [step, takeNext]
    split
    next message control hwriter hcontrol =>
      obtain ⟨hreader, hqueue⟩ := hstart { link with control } message
      exact ⟨hreader, fun lane => (hqueue lane).trans (by cases lane <;> rfl)⟩
    next message data hwriter hcontrol hdata =>
      obtain ⟨hreader, hqueue⟩ := hstart { link with data } message
      exact ⟨hreader, fun lane => (hqueue lane).trans (by cases lane <;> rfl)⟩
    next => exact ⟨rfl, fun lane => rfl⟩
  | writeByte =>
    simp only [step, writeByte]
    split <;> exact ⟨rfl, fun lane => by cases lane <;> rfl⟩
  | readByte => exact absurd rfl hcall.1
  | forward => exact absurd rfl hcall.2.1
  | tryReceive => exact absurd rfl hcall.2.2.1
  | tryReceiveControl => exact absurd rfl hcall.2.2.2

theorem Classified.readByte (h : link.Classified) : link.readByte.Classified := by
  unfold FramedLink.readByte
  split
  · exact h
  · exact h
  · exact h
  · exact ⟨narrow_readerAfter link.budget _ h.reader, fun lane message hmessage =>
      h.queued lane message (by cases lane <;> exact hmessage)⟩

theorem Classified.forward (h : link.Classified) : link.forward.Classified := by
  unfold FramedLink.forward
  split
  next waiting hreader =>
    have hwidth : waiting.length < 2^32 := by
      have hnarrow := h.reader
      rw [hreader] at hnarrow
      exact hnarrow
    split
    next hcontrol =>
      split
      · exact h
      · refine ⟨Nat.zero_lt_succ 3, fun lane message hmessage => ?_⟩
        cases lane with
        | data => exact h.queued .data message hmessage
        | control =>
          rcases List.mem_append.mp hmessage with hold | hnew
          · exact h.queued .control message hold
          · rw [List.mem_singleton.mp hnew]
            exact ⟨if_pos hcontrol, hwidth⟩
    next hdata =>
      split
      · exact h
      · refine ⟨Nat.zero_lt_succ 3, fun lane message hmessage => ?_⟩
        cases lane with
        | control => exact h.queued .control message hmessage
        | data =>
          rcases List.mem_append.mp hmessage with hold | hnew
          · exact h.queued .data message hold
          · rw [List.mem_singleton.mp hnew]
            exact ⟨if_neg hdata, hwidth⟩
  next => exact h

theorem Classified.tail {link' : FramedLink} (h : link.Classified)
    (hreader : link'.reader = link.reader)
    (hqueue : ∀ lane, link'.receiveQueue lane ⊆ link.receiveQueue lane) : link'.Classified := by
  refine ⟨?_, ?_⟩
  · rw [hreader]
    exact h.reader
  · intro lane message hmessage
    exact h.queued lane message (hqueue lane hmessage)

theorem Classified.tryReceive (h : link.Classified) : link.tryReceive.2.Classified ∧
    ∀ message, link.tryReceive.1 = .ok (some message) → Fits .data message := by
  cases hreceive : link.receive with
  | nil =>
    simp only [FramedLink.tryReceive, hreceive]
    exact ⟨h, fun message hok => by cases hok⟩
  | cons front receive =>
    have hfront : front ∈ link.receiveQueue .data := by
      rw [receiveQueue, hreceive]
      exact List.mem_cons_self
    simp only [FramedLink.tryReceive, hreceive]
    refine ⟨h.tail rfl fun lane => ?_, fun message hok => ?_⟩
    · cases lane with
      | control => exact List.Subset.refl _
      | data =>
        rw [receiveQueue, receiveQueue, hreceive]
        exact List.subset_cons_self front receive
    · cases hok
      exact h.queued .data _ hfront

theorem Classified.tryReceiveControl (h : link.Classified) :
    link.tryReceiveControl.2.Classified ∧
      ∀ message, link.tryReceiveControl.1 = .ok (some message) → Fits .control message := by
  cases hreceive : link.controlReceive with
  | nil =>
    simp only [FramedLink.tryReceiveControl, hreceive]
    exact ⟨h, fun message hok => by cases hok⟩
  | cons front controlReceive =>
    have hfront : front ∈ link.receiveQueue .control := by
      rw [receiveQueue, hreceive]
      exact List.mem_cons_self
    simp only [FramedLink.tryReceiveControl, hreceive]
    refine ⟨h.tail rfl fun lane => ?_, fun message hok => ?_⟩
    · cases lane with
      | data => exact List.Subset.refl _
      | control =>
        rw [receiveQueue, receiveQueue, hreceive]
        exact List.subset_cons_self front controlReceive
    · cases hok
      exact h.queued .control _ hfront

theorem Classified.step (h : link.Classified) (call : FramedCall) :
    (link.step call).2.Classified := by
  have hsender (hcall : call ≠ .readByte ∧ call ≠ .forward ∧ call ≠ .tryReceive ∧
      call ≠ .tryReceiveControl) : (link.step call).2.Classified := by
    obtain ⟨hreader, hqueue⟩ := receiving_end_eq link hcall
    apply h.tail hreader
    intro lane
    rw [hqueue lane]
    exact List.Subset.refl _
  cases call with
  | readByte => exact h.readByte
  | forward => exact h.forward
  | tryReceive => exact h.tryReceive.1
  | tryReceiveControl => exact h.tryReceiveControl.1
  | _ => exact hsender (by simp)

theorem classified_spawn {budget : TransportBudget} (h : spawn budget = .ok link) :
    link.Classified := by
  unfold spawn at h
  split at h
  · cases h
  · obtain rfl := Except.ok.inj h
    refine ⟨Nat.zero_lt_succ 3, fun lane message hmessage => ?_⟩
    cases lane <;> cases hmessage

/-- A receive call gives a message of its own lane. -/
theorem Classified.receivedOn_fits (h : link.Classified) (call : FramedCall) (lane : Lane) :
    ∀ message ∈ receivedOn lane (RunHistory.event FramedLink.step link call),
      Fits lane message := by
  intro message hmessage
  unfold receivedOn at hmessage
  split at hmessage
  next hcall hreply =>
    obtain rfl : call = .tryReceive := hcall
    rw [List.mem_singleton.mp hmessage]
    exact h.tryReceive.2 _ (FramedReply.received.inj hreply)
  next hcall hreply =>
    obtain rfl : call = .tryReceiveControl := hcall
    rw [List.mem_singleton.mp hmessage]
    exact h.tryReceiveControl.2 _ (FramedReply.received.inj hreply)
  next => cases hmessage

end FramedLink

end MutsukiLink
