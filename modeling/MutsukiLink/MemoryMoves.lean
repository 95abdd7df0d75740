import MutsukiLink.MemoryModel

/-! What a step of the in-memory transport can do, and the account of each lane: the messages that
were accepted are those that were received, in order, and then those that wait. -/
namespace MutsukiLink
open WireBytes RunHistory

namespace MemoryPair

variable {s : MemoryPair}

/-- Every answer of a step with its reason, and the state it leaves. -/
inductive Moves (s : MemoryPair) : MemoryCall → Option MemoryReply → MemoryPair → Prop where
  | busy {e : MemoryEnd} {op : MemoryOp} (h : (s.pending e).isSome = true) :
      Moves s (.start e op) none s
  | nothing {e : MemoryEnd} (h : s.pending e = none) : Moves s (.proceed e) none s
  | sendRefused {e : MemoryEnd} {lane : MemoryLane} {message : Bytes} {error : TransportError}
      (hfree : s.pending e = none)
      (h : s.config.supports lane = false ∨ s.config.maxMessageBytes < message.length ∨
        (s.sides e).writeClosed = true) :
      Moves s (.start e (.send lane message)) (some (.sent (.error error))) s
  | sendWaits {e : MemoryEnd} {lane : MemoryLane} {message : Bytes} (hfree : s.pending e = none)
      (hopen : (s.sides e).writeClosed = false) :
      Moves s (.start e (.send lane message)) none (s.setPending e (some (.sending lane message)))
  | sendFails {e : MemoryEnd} {lane : MemoryLane} {message : Bytes} {error : TransportError}
      (hpending : s.pending e = some (.sending lane message))
      (h : (s.sides e.other).aborted = true ∨ (s.sides e.other).readClosed = true ∨
        s.config.capacity lane ≤ ((s.sides e.other).queue lane).length ∧
          error.kind = .wouldBlock) :
      Moves s (.proceed e) (some (.sent (.error error))) (s.setPending e none)
  | sendDone {e : MemoryEnd} {lane : MemoryLane} {message : Bytes}
      (hpending : s.pending e = some (.sending lane message))
      (haborted : (s.sides e.other).aborted = false)
      (hreading : (s.sides e.other).readClosed = false)
      (hroom : ((s.sides e.other).queue lane).length < s.config.capacity lane) :
      Moves s (.proceed e) (some (.sent (.ok ()))) ((s.setPending e none).setSide e.other
        ((s.sides e.other).setQueue lane ((s.sides e.other).queue lane ++ [message])))
  | receiveRefused {e : MemoryEnd} {lane : MemoryLane} {error : TransportError}
      (hfree : s.pending e = none)
      (h : s.config.supports lane = false ∨ (s.sides e).aborted = true ∨
        (s.sides e).readClosed = true) :
      Moves s (.start e (.receive lane)) (some (.received (.error error))) s
  | receiveTakes {e : MemoryEnd} {lane : MemoryLane} {message : Bytes} {rest : List Bytes}
      (hfree : s.pending e = none) (haborted : (s.sides e).aborted = false)
      (hqueue : (s.sides e).queue lane = message :: rest) :
      Moves s (.start e (.receive lane)) (some (.received (.ok (some message))))
        (s.setSide e ((s.sides e).setQueue lane rest))
  | receiveWaits {e : MemoryEnd} {lane : MemoryLane} (hfree : s.pending e = none)
      (haborted : (s.sides e).aborted = false) (hqueue : (s.sides e).queue lane = []) :
      Moves s (.start e (.receive lane)) none (s.setPending e (some (.receiving lane)))
  | receiveEnds {e : MemoryEnd} {lane : MemoryLane}
      (hpending : s.pending e = some (.receiving lane))
      (hclosed : (s.sides e.other).writeClosed = true) :
      Moves s (.proceed e) (some (.received (.ok none))) (s.setPending e none)
  | receiveBlocks {e : MemoryEnd} {lane : MemoryLane} {error : TransportError}
      (hpending : s.pending e = some (.receiving lane))
      (hopen : (s.sides e.other).writeClosed = false) :
      Moves s (.proceed e) (some (.received (.error error))) (s.setPending e none)
  | closesWrite {e : MemoryEnd} (hfree : s.pending e = none) :
      Moves s (.start e .closeWrite) (some .done)
        (s.setSide e { s.sides e with writeClosed := true })
  | closesRead {e : MemoryEnd} (hfree : s.pending e = none) :
      Moves s (.start e .closeRead) (some .done) (s.setSide e { s.sides e with readClosed := true })
  | aborts {e : MemoryEnd} (hfree : s.pending e = none) :
      Moves s (.start e .abort) (some .done) (s.setSide e { s.sides e with aborted := true })

theorem send_start_moves (hfree : s.pending e = none) (lane : MemoryLane) (message : Bytes) :
    Moves s (.start e (.send lane message)) ((s.sendStart e lane message).1.map .sent)
      (s.sendStart e lane message).2 := by
  unfold sendStart
  split
  · next h => exact .sendRefused hfree (Or.inl (by simpa using h))
  · split
    · next h => exact .sendRefused hfree (Or.inr (Or.inl h))
    · split
      · next h => exact .sendRefused hfree (Or.inr (Or.inr h))
      · next h => exact .sendWaits hfree (by simpa using h)

theorem send_finish_moves {e : MemoryEnd} {lane : MemoryLane} {message : Bytes}
    (hpending : s.pending e = some (.sending lane message)) :
    Moves s (.proceed e) (some (.sent (s.sendFinish e lane message).1))
      (s.sendFinish e lane message).2 := by
  unfold sendFinish
  dsimp only [setPending]
  split
  · next h => exact .sendFails hpending (Or.inl h)
  · next haborted =>
    split
    · next h => exact .sendFails hpending (Or.inr (Or.inl h))
    · next hreading =>
      split
      · next h => exact .sendFails hpending (Or.inr (Or.inr ⟨h, rfl⟩))
      · next hroom =>
        exact .sendDone hpending (by simpa using haborted) (by simpa using hreading)
          (Nat.not_le.mp hroom)

theorem receive_start_moves {e : MemoryEnd} (hfree : s.pending e = none) (lane : MemoryLane) :
    Moves s (.start e (.receive lane)) ((s.receiveStart e lane).1.map .received)
      (s.receiveStart e lane).2 := by
  unfold receiveStart
  dsimp only
  split
  · next h => exact .receiveRefused hfree (Or.inl (by simpa using h))
  · split
    · next h => exact .receiveRefused hfree (Or.inr (Or.inl h))
    · next haborted =>
      split
      · next h => exact .receiveRefused hfree (Or.inr (Or.inr h))
      · split
        · next message rest hqueue =>
          exact .receiveTakes hfree (by simpa using haborted) hqueue
        · next hqueue => exact .receiveWaits hfree (by simpa using haborted) hqueue

theorem receive_finish_moves {e : MemoryEnd} {lane : MemoryLane}
    (hpending : s.pending e = some (.receiving lane)) :
    Moves s (.proceed e) (some (.received (s.receiveFinish e).1)) (s.receiveFinish e).2 := by
  unfold receiveFinish
  dsimp only [setPending]
  split
  · next h => exact .receiveEnds hpending h
  · next h => exact .receiveBlocks hpending (by simpa using h)

theorem step_moves (s : MemoryPair) (call : MemoryCall) :
    Moves s call (step s call).1 (step s call).2 := by
  cases call with
  | start e op =>
    -- An end with a call under way starts no other.
    by_cases hbusy : (s.pending e).isSome = true
    · simp only [step, if_pos hbusy]
      exact .busy hbusy
    · have hfree : s.pending e = none := Option.not_isSome_iff_eq_none.mp hbusy
      cases op with
      | send lane message =>
        simp only [step, if_neg hbusy]
        exact send_start_moves hfree lane message
      | receive lane =>
        simp only [step, if_neg hbusy]
        exact receive_start_moves hfree lane
      | closeWrite =>
        simp only [step, if_neg hbusy]
        exact .closesWrite hfree
      | closeRead =>
        simp only [step, if_neg hbusy]
        exact .closesRead hfree
      | abort =>
        simp only [step, if_neg hbusy]
        exact .aborts hfree
  | proceed e =>
    cases hpending : s.pending e with
    | none =>
      simp only [step, hpending]
      exact .nothing hpending
    | some pending =>
      cases pending with
      | sending lane message =>
        simp only [step, hpending]
        exact send_finish_moves hpending
      | receiving lane =>
        simp only [step, hpending]
        exact receive_finish_moves hpending

/-- The message that an event puts on a lane of the other end. -/
def acceptedOn (e : MemoryEnd) (lane : MemoryLane)
    (x : Event MemoryPair MemoryCall (Option MemoryReply)) : Option Bytes :=
  match x.input, x.reply with
  | .proceed e', some (.sent (.ok ())) =>
    match x.pre.pending e' with
    | some (.sending lane' message) => if e' = e ∧ lane' = lane then some message else none
    | _ => none
  | _, _ => none

/-- The message that an event takes from a lane at its end. -/
def receivedOn (e : MemoryEnd) (lane : MemoryLane)
    (x : Event MemoryPair MemoryCall (Option MemoryReply)) : Option Bytes :=
  match x.input, x.reply with
  | .start e' (.receive lane'), some (.received (.ok (some message))) =>
    if e' = e ∧ lane' = lane then some message else none
  | _, _ => none

@[simp] theorem sides_setPending (s : MemoryPair) (e : MemoryEnd) (p : Option MemoryPending) :
    (s.setPending e p).sides = s.sides := rfl

@[simp] theorem pending_setSide (s : MemoryPair) (e : MemoryEnd) (side : MemorySide) :
    (s.setSide e side).pending = s.pending := rfl

@[simp] theorem config_setPending (s : MemoryPair) (e : MemoryEnd) (p : Option MemoryPending) :
    (s.setPending e p).config = s.config := rfl

@[simp] theorem config_setSide (s : MemoryPair) (e : MemoryEnd) (side : MemorySide) :
    (s.setSide e side).config = s.config := rfl

theorem sides_setSide (s : MemoryPair) (e e' : MemoryEnd) (side : MemorySide) :
    (s.setSide e side).sides e' = if e' = e then side else s.sides e' :=
  Function.update_apply _ _ _ _

theorem pending_setPending (s : MemoryPair) (e e' : MemoryEnd) (p : Option MemoryPending) :
    (s.setPending e p).pending e' = if e' = e then p else s.pending e' :=
  Function.update_apply _ _ _ _

/-- A change of a side that keeps its queues keeps all queues. -/
theorem queue_setSide_of_eq {e : MemoryEnd} {side : MemorySide}
    (h : ∀ lane, side.queue lane = (s.sides e).queue lane) (e' : MemoryEnd) (lane : MemoryLane) :
    ((s.setSide e side).sides e').queue lane = (s.sides e').queue lane := by
  rw [sides_setSide]
  split
  · next heq => rw [h, heq]
  · rfl

/-- A new queue on one lane of one side leaves the other queues alone. -/
theorem queue_setSide (e : MemoryEnd) (lane : MemoryLane) (q : List Bytes) (e' : MemoryEnd)
    (lane' : MemoryLane) :
    ((s.setSide e ((s.sides e).setQueue lane q)).sides e').queue lane' =
      if e' = e ∧ lane' = lane then q else (s.sides e').queue lane' := by
  rw [sides_setSide]
  by_cases he : e' = e
  · by_cases hlane : lane' = lane
    · simp [he, hlane]
    · simp [he, hlane, MemorySide.queue_setQueue_of_ne]
  · simp [he]

/-- What a step can do to one side: a queue that stays within its capacity, or one flag. -/
inductive SideMoves (s : MemoryPair) (call : MemoryCall) (e : MemoryEnd) : MemorySide → Prop where
  | same : SideMoves s call e (s.sides e)
  | queue {lane : MemoryLane} {q : List Bytes}
      (hbound : q.length ≤ max ((s.sides e).queue lane).length (s.config.capacity lane)) :
      SideMoves s call e ((s.sides e).setQueue lane q)
  | closesWrite (hcall : call = .start e .closeWrite) (hfree : s.pending e = none) :
      SideMoves s call e { s.sides e with writeClosed := true }
  | closesRead (hcall : call = .start e .closeRead) :
      SideMoves s call e { s.sides e with readClosed := true }
  | aborts (hcall : call = .start e .abort) : SideMoves s call e { s.sides e with aborted := true }

theorem moves_side {call : MemoryCall} {reply : Option MemoryReply} {s' : MemoryPair}
    (h : Moves s call reply s') (e : MemoryEnd) : SideMoves s call e (s'.sides e) := by
  -- A step changes at most one side, so the other one needs no case of its own.
  have hside {e' : MemoryEnd} {side : MemorySide} (hmove : SideMoves s call e' side) :
      SideMoves s call e ((s.setSide e' side).sides e) := by
    rw [sides_setSide]
    split
    · next heq => exact heq ▸ hmove
    · exact .same
  cases h with
  | busy => exact .same
  | nothing => exact .same
  | sendRefused => exact .same
  | sendWaits => exact .same
  | sendFails => exact .same
  | sendDone hpending haborted hreading hroom =>
    refine hside (.queue ?_)
    rw [List.length_append, List.length_singleton]
    exact hroom.trans_le (Nat.le_max_right _ _)
  | receiveRefused => exact .same
  | receiveTakes hfree haborted hqueue =>
    refine hside (.queue ?_)
    rw [hqueue, List.length_cons]
    omega
  | receiveWaits => exact .same
  | receiveEnds => exact .same
  | receiveBlocks => exact .same
  | closesWrite hfree => exact hside (.closesWrite rfl hfree)
  | closesRead => exact hside (.closesRead rfl)
  | aborts => exact hside (.aborts rfl)

/-- What a step can do to the call under way at an end: it stays, it is answered, or it starts. -/
inductive PendingMoves (s : MemoryPair) (call : MemoryCall) (e : MemoryEnd) :
    Option MemoryPending → Prop where
  | same : PendingMoves s call e (s.pending e)
  | answered (hcall : call = .proceed e) : PendingMoves s call e none
  | sends {lane : MemoryLane} {message : Bytes} (hcall : call = .start e (.send lane message))
      (hopen : (s.sides e).writeClosed = false) :
      PendingMoves s call e (some (.sending lane message))
  | receives {lane : MemoryLane} (hcall : call = .start e (.receive lane))
      (hqueue : (s.sides e).queue lane = []) :
      PendingMoves s call e (some (.receiving lane))

theorem moves_pending {call : MemoryCall} {reply : Option MemoryReply} {s' : MemoryPair}
    (h : Moves s call reply s') (e : MemoryEnd) : PendingMoves s call e (s'.pending e) := by
  -- Likewise for the call under way, which only a step of its own end touches.
  have hset {e' : MemoryEnd} {p : Option MemoryPending} (hmove : PendingMoves s call e' p) :
      PendingMoves s call e ((s.setPending e' p).pending e) := by
    rw [pending_setPending]
    split
    · next heq => exact heq ▸ hmove
    · exact .same
  cases h with
  | busy => exact .same
  | nothing => exact .same
  | sendRefused => exact .same
  | sendWaits hfree hopen => exact hset (.sends rfl hopen)
  | sendFails => exact hset (.answered rfl)
  | sendDone => exact hset (.answered rfl)
  | receiveRefused => exact .same
  | receiveTakes => exact .same
  | receiveWaits hfree haborted hqueue => exact hset (.receives rfl hqueue)
  | receiveEnds => exact hset (.answered rfl)
  | receiveBlocks => exact hset (.answered rfl)
  | closesWrite => exact .same
  | closesRead => exact .same
  | aborts => exact .same

/-- No call is under way at an end that has taken its second lock. -/
theorem proceed_pending (s : MemoryPair) (e : MemoryEnd) :
    (step s (.proceed e)).2.pending e = none := by
  have h := step_moves s (.proceed e)
  generalize (step s (.proceed e)).1 = reply at h
  generalize (step s (.proceed e)).2 = s' at h ⊢
  cases h with
  | nothing h => exact h
  | sendFails => exact Function.update_self _ _ _
  | sendDone => exact Function.update_self _ _ _
  | receiveEnds => exact Function.update_self _ _ _
  | receiveBlocks => exact Function.update_self _ _ _

theorem moves_config {call : MemoryCall} {reply : Option MemoryReply} {s' : MemoryPair}
    (h : Moves s call reply s') : s'.config = s.config := by
  cases h <;> rfl

/-- One step of the account of a lane. -/
theorem moves_account {call : MemoryCall} {reply : Option MemoryReply} {s' : MemoryPair}
    (h : Moves s call reply s') (e : MemoryEnd) (lane : MemoryLane) :
    (s.sides e.other).queue lane ++ (acceptedOn e lane ⟨s, call, reply, s'⟩).toList =
      (receivedOn e.other lane ⟨s, call, reply, s'⟩).toList ++ (s'.sides e.other).queue lane := by
  cases h with
  | @busy e' op h => cases op <;> simp [acceptedOn, receivedOn]
  | nothing h => simp [acceptedOn, receivedOn]
  | sendRefused => simp [acceptedOn, receivedOn]
  | sendWaits => simp [acceptedOn, receivedOn]
  | sendFails hpending => simp [acceptedOn, receivedOn]
  -- The one step that adds a message: it is on this lane, or it leaves this lane alone.
  | @sendDone e' lane' message hpending =>
    have hqueue := queue_setSide (s := s.setPending e' none) e'.other lane'
      ((s.sides e'.other).queue lane' ++ [message]) e.other lane
    simp only [acceptedOn, receivedOn, hpending]
    refine Eq.trans ?_ hqueue.symm
    by_cases hhere : e' = e ∧ lane' = lane
    · obtain ⟨rfl, rfl⟩ := hhere
      simp
    · have hthere : ¬(e.other = e'.other ∧ lane = lane') := by
        rw [MemoryEnd.other_inj]
        exact fun h => hhere ⟨h.1.symm, h.2.symm⟩
      rw [if_neg hhere, if_neg hthere]
      exact List.append_nil _
  | receiveRefused => simp [acceptedOn, receivedOn]
  -- The one step that removes a message, in the same two cases.
  | @receiveTakes e' lane' message rest hfree haborted hqueue =>
    have hqueue' := queue_setSide (s := s) e' lane' rest e.other lane
    simp only [acceptedOn, receivedOn]
    rw [hqueue', Option.toList_none, List.append_nil]
    by_cases hhere : e' = e.other ∧ lane' = lane
    · obtain ⟨rfl, rfl⟩ := hhere
      simp [hqueue]
    · have hthere : ¬(e.other = e' ∧ lane = lane') := fun h => hhere ⟨h.1.symm, h.2.symm⟩
      rw [if_neg hhere, if_neg hthere]
      rfl
  | receiveWaits => simp [acceptedOn, receivedOn]
  | receiveEnds => simp [acceptedOn, receivedOn]
  | receiveBlocks => simp [acceptedOn, receivedOn]
  -- The flags have no part in the account.
  | closesWrite =>
    refine (List.append_nil _).trans ?_
    exact (queue_setSide_of_eq (fun lane => by cases lane <;> rfl) e.other lane).symm
  | closesRead =>
    refine (List.append_nil _).trans ?_
    exact (queue_setSide_of_eq (fun lane => by cases lane <;> rfl) e.other lane).symm
  | aborts =>
    refine (List.append_nil _).trans ?_
    exact (queue_setSide_of_eq (fun lane => by cases lane <;> rfl) e.other lane).symm

theorem trace_account (s : MemoryPair) (calls : List MemoryCall)
    (e : MemoryEnd) (lane : MemoryLane) :
    (s.sides e.other).queue lane ++ (trace step s calls).filterMap (acceptedOn e lane) =
      (trace step s calls).filterMap (receivedOn e.other lane) ++
        ((run step s calls).sides e.other).queue lane := by
  induction calls generalizing s with
  | nil => simp
  | cons call calls ih =>
    have hstep := moves_account (step_moves s call) e lane
    have hcons (f : Event MemoryPair MemoryCall (Option MemoryReply) → Option Bytes) :
        (trace step s (call :: calls)).filterMap f =
          (f (event step s call)).toList ++ (trace step (step s call).2 calls).filterMap f := by
      rw [trace_cons, List.filterMap_cons]
      cases f (event step s call) <;> rfl
    -- What the first step accepts waits behind the queue, and what it takes comes before all else.
    rw [hcons, hcons, run_cons, List.append_assoc, ← ih, ← List.append_assoc, ← List.append_assoc]
    exact congrArg (· ++ _) hstep

end MemoryPair

end MutsukiLink
