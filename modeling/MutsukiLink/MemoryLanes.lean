import MutsukiLink.MemoryMoves

/-! The lanes of the in-memory transport over whole runs: bounded, in order, independent of each
other, and closed for good. The end of a lane is announced too early exactly when a receive that
found its lane empty is overtaken by a message and the close of the peer. -/
namespace MutsukiLink
open WireBytes RunHistory

namespace MemoryPair

variable {s : MemoryPair}

/-- What every step keeps: no lane exceeds its capacity, and an end that has closed its write side
has no send under way. -/
structure Sound (s : MemoryPair) : Prop where
  bounded : ∀ e lane, ((s.sides e).queue lane).length ≤ s.config.capacity lane
  quiet : ∀ e lane message, (s.sides e).writeClosed = true →
    s.pending e ≠ some (.sending lane message)

/-- Neither end has aborted or closed its read side. -/
def Listening (s : MemoryPair) : Prop :=
  ∀ e, (s.sides e).aborted = false ∧ (s.sides e).readClosed = false

/-- The calls of the claim: everything but an abort and a close of the read side. -/
def Orderly (call : MemoryCall) : Prop := ∀ e, call ≠ .start e .abort ∧ call ≠ .start e .closeRead

variable {call : MemoryCall} {reply : Option MemoryReply} {s' : MemoryPair}

/-- A closed write side stays closed. -/
theorem moves_writeClosed (h : Moves s call reply s') {e : MemoryEnd}
    (hclosed : (s.sides e).writeClosed = true) : (s'.sides e).writeClosed = true := by
  have hside := moves_side h e
  generalize s'.sides e = side at hside
  cases hside with
  | same => exact hclosed
  | queue => simpa using hclosed
  | closesWrite => rfl
  | closesRead => exact hclosed
  | aborts => exact hclosed

theorem moves_bounded (h : Moves s call reply s') (hs : Sound s) (e : MemoryEnd)
    (lane : MemoryLane) : ((s'.sides e).queue lane).length ≤ s.config.capacity lane := by
  have hside := moves_side h e
  have hbound := hs.bounded e lane
  generalize s'.sides e = side at hside
  cases hside with
  | same => exact hbound
  | @queue lane' q hq =>
    by_cases hlane : lane = lane'
    · subst hlane
      rw [MemorySide.queue_setQueue]
      omega
    · rw [MemorySide.queue_setQueue_of_ne _ _ _ hlane]
      exact hbound
  | closesWrite => cases lane <;> exact hbound
  | closesRead => cases lane <;> exact hbound
  | aborts => cases lane <;> exact hbound

/-- A send starts only while the write side is open, and the write side closes only between two
calls. -/
theorem moves_quiet (h : Moves s call reply s') (hs : Sound s) (e : MemoryEnd) (lane : MemoryLane)
    (message : Bytes) (hclosed : (s'.sides e).writeClosed = true) :
    s'.pending e ≠ some (.sending lane message) := by
  intro hsending
  have hside := moves_side h e
  have hpending := moves_pending h e
  rw [hsending] at hpending
  generalize hnew : s'.sides e = side at hside hclosed
  generalize hwait : some (MemoryPending.sending lane message) = p at hpending
  -- A send that was under way before the step cannot meet a close, which asks for a free end; one
  -- that starts in the step has found the side open, and the step does nothing else.
  cases hpending with
  | same =>
    cases hside with
    | same => exact hs.quiet e lane message hclosed hwait.symm
    | queue => exact hs.quiet e lane message (by simpa using hclosed) hwait.symm
    | closesWrite hcall hfree =>
      rw [hfree] at hwait
      cases hwait
    | closesRead => exact hs.quiet e lane message hclosed hwait.symm
    | aborts => exact hs.quiet e lane message hclosed hwait.symm
  | answered => cases hwait
  | sends hcall hopen =>
    cases hside with
    | same =>
      rw [hopen] at hclosed
      cases hclosed
    | queue =>
      rw [MemorySide.writeClosed_setQueue, hopen] at hclosed
      cases hclosed
    | closesWrite hcall' => cases hcall.symm.trans hcall'
    | closesRead hcall' => cases hcall.symm.trans hcall'
    | aborts hcall' => cases hcall.symm.trans hcall'
  | receives => cases hwait

theorem sound_step (hs : Sound s) (call : MemoryCall) : Sound (step s call).2 := by
  have h := step_moves s call
  refine ⟨fun e lane => ?_, fun e lane message => moves_quiet h hs e lane message⟩
  rw [moves_config h]
  exact moves_bounded h hs e lane

theorem listening_step (hs : Listening s) (horderly : Orderly call) :
    Listening (step s call).2 := by
  intro e
  have hside := moves_side (step_moves s call) e
  have hopen := hs e
  generalize (step s call).2.sides e = side at hside
  cases hside with
  | same => exact hopen
  | queue => simpa using hopen
  | closesWrite => exact hopen
  | closesRead hcall => exact absurd hcall (horderly e).2
  | aborts hcall => exact absurd hcall (horderly e).1

/-- The messages of an end that were accepted on a lane during a run. -/
def accepted (s : MemoryPair) (calls : List MemoryCall) (e : MemoryEnd) (lane : MemoryLane) :
    List Bytes :=
  (trace step s calls).filterMap (acceptedOn e lane)

/-- The messages that an end was handed on a lane during a run. -/
def received (s : MemoryPair) (calls : List MemoryCall) (e : MemoryEnd) (lane : MemoryLane) :
    List Bytes :=
  (trace step s calls).filterMap (receivedOn e lane)

/-- A send fails for a reason of its own end or because its own lane is full. -/
def OwnFailure (s : MemoryPair) (call : MemoryCall) (error : TransportError) : Prop :=
  (∃ e lane message, call = .start e (.send lane message) ∧
    (s.config.supports lane = false ∨ s.config.maxMessageBytes < message.length ∨
      (s.sides e).writeClosed = true)) ∨
  ∃ e lane message, call = .proceed e ∧ s.pending e = some (.sending lane message) ∧
    s.config.capacity lane ≤ ((s.sides e.other).queue lane).length ∧ error.kind = .wouldBlock

/-- What a run makes of the lanes from one end to the other. A call starts only at an end without a
call under way. -/
structure LanesHold (s : MemoryPair) (calls : List MemoryCall) : Prop where
  in_order : ∀ e lane, received s calls e.other lane <+: accepted s calls e lane
  bounded : ∀ x ∈ trace step s calls, ∀ e lane,
    ((x.post.sides e).queue lane).length ≤ s.config.capacity lane
  independent : ∀ x ∈ trace step s calls, ∀ error, x.reply = some (.sent (.error error)) →
    OwnFailure x.pre x.input error
  closed : ∀ before after e, calls = before ++ .start e .closeWrite :: after →
    (run step s before).pending e = none →
      ∀ x ∈ trace step (run step s (before ++ [.start e .closeWrite])) after,
        (∀ lane, acceptedOn e lane x = none) ∧
        ∀ lane message, x.input = .start e (.send lane message) → x.pre.pending e = none →
          ∃ error, x.reply = some (.sent (.error error))
  delivered : ∀ before after e lane, calls = before ++ .start e.other (.receive lane) :: after →
    (run step s before).pending e.other = none →
      accepted s before e lane ≠ received s before e.other lane →
        ∃ message, (step (run step s before) (.start e.other (.receive lane))).1 =
          some (.received (.ok (some message)))
  ends : ∀ before after e lane, calls = before ++ .proceed e.other :: after →
    (run step s before).pending e.other = some (.receiving lane) →
      ((step (run step s before) (.proceed e.other)).1 = some (.received (.ok none)) ↔
        ((run step s before).sides e).writeClosed = true) ∧
      ((step (run step s before) (.proceed e.other)).1 = some (.received (.ok none)) →
        accepted s before e lane = received s before e.other lane ∧
        ∀ x ∈ trace step (run step s (before ++ [.proceed e.other])) after,
          receivedOn e.other lane x = none)

/-- No receive that found its lane empty sees the peer closed with a message on the lane: the peer
did not get to send and to close between the two locks of the receive. -/
def NotOvertaken (s : MemoryPair) (calls : List MemoryCall) : Prop :=
  ∀ before after e lane, calls = before ++ .proceed e.other :: after →
    (run step s before).pending e.other = some (.receiving lane) →
      ((run step s before).sides e).writeClosed = true →
        ((run step s before).sides e.other).queue lane = []

theorem own_failure (h : Moves s call reply s') (hopen : Listening s) {error : TransportError}
    (hreply : reply = some (.sent (.error error))) : OwnFailure s call error := by
  subst hreply
  cases h with
  | @sendRefused e lane message error hfree h => exact Or.inl ⟨e, lane, message, rfl, h⟩
  -- The peer has neither aborted nor closed its read side, so only the full lane is left.
  | @sendFails e lane message error hpending h =>
    rw [(hopen e.other).1, (hopen e.other).2] at h
    exact Or.inr ⟨e, lane, message, rfl, hpending, by simpa using h⟩

theorem accepted_pending {x : Event MemoryPair MemoryCall (Option MemoryReply)} {e : MemoryEnd}
    {lane : MemoryLane} {message : Bytes} (h : acceptedOn e lane x = some message) :
    x.pre.pending e = some (.sending lane message) := by
  unfold acceptedOn at h
  split at h
  · next e' hinput hreply =>
    split at h
    · next lane' message' hpending =>
      split at h
      · next hhere =>
        obtain ⟨rfl, rfl⟩ := hhere
        rw [hpending, Option.some.inj h]
      · cases h
    · cases h
  · cases h

/-- An end that has closed its write side gets nothing accepted any more. -/
theorem not_accepted {x : Event MemoryPair MemoryCall (Option MemoryReply)}
    (hs : Sound x.pre) {e : MemoryEnd} (hclosed : (x.pre.sides e).writeClosed = true)
    (lane : MemoryLane) : acceptedOn e lane x = none := by
  cases h : acceptedOn e lane x with
  | none => rfl
  | some message => exact absurd (accepted_pending h) (hs.quiet e lane message hclosed)

theorem closed_send {e : MemoryEnd} (hfree : s.pending e = none)
    (hclosed : (s.sides e).writeClosed = true) (lane : MemoryLane) (message : Bytes) :
    ∃ error, (step s (.start e (.send lane message))).1 = some (.sent (.error error)) := by
  have h := step_moves s (.start e (.send lane message))
  generalize (step s (.start e (.send lane message))).1 = reply at h ⊢
  generalize (step s (.start e (.send lane message))).2 = s' at h
  cases h with
  | busy hbusy => simp [hfree] at hbusy
  | @sendRefused e' lane' message' error hfree' h => exact ⟨error, rfl⟩
  | sendWaits hfree' hopen =>
    rw [hopen] at hclosed
    cases hclosed

/-- With a message on its lane a receive takes it. -/
theorem receives_waiting (hs : Sound s) (hopen : Listening s) {e : MemoryEnd} {lane : MemoryLane}
    (hfree : s.pending e = none) (hqueue : (s.sides e).queue lane ≠ []) :
    ∃ message, (step s (.start e (.receive lane))).1 =
      some (.received (.ok (some message))) := by
  have h := step_moves s (.start e (.receive lane))
  generalize (step s (.start e (.receive lane))).1 = reply at h ⊢
  generalize (step s (.start e (.receive lane))).2 = s' at h
  cases h with
  | busy hbusy => simp [hfree] at hbusy
  | receiveRefused hfree' h =>
    rcases h with hlane | haborted | hread
    · -- A lane that is not supported has no room.
      have hbound := hs.bounded e lane
      have hzero : s.config.capacity lane = 0 := by
        cases lane <;> simp [MemoryTransportConfig.supports] at hlane
        exact hlane
      rw [hzero, Nat.le_zero, List.length_eq_zero_iff] at hbound
      exact absurd hbound hqueue
    · rw [(hopen e).1] at haborted
      cases haborted
    · rw [(hopen e).2] at hread
      cases hread
  | @receiveTakes e' lane' message rest hfree' haborted hq => exact ⟨message, rfl⟩
  | receiveWaits hfree' haborted hq => exact absurd hq hqueue

theorem proceed_ends_iff {e : MemoryEnd} {lane : MemoryLane}
    (hpending : s.pending e = some (.receiving lane)) :
    (step s (.proceed e)).1 = some (.received (.ok none)) ↔
      (s.sides e.other).writeClosed = true := by
  simp only [step, hpending, receiveFinish, sides_setPending]
  by_cases hclosed : (s.sides e.other).writeClosed = true
  · simp [hclosed]
  · simp [hclosed]

theorem memory_pair_sound {config : MemoryTransportConfig}
    (hnew : memoryTransportPair config = some s) : Sound s ∧ Listening s ∧
      (∀ e lane, (s.sides e).queue lane = []) ∧ ∀ e, s.pending e = none := by
  unfold memoryTransportPair at hnew
  split at hnew
  · cases hnew
  · obtain rfl := Option.some.inj hnew
    refine ⟨⟨fun e lane => ?_, fun e lane message h => by cases h⟩, fun e => ⟨rfl, rfl⟩, ?_,
      fun e => rfl⟩
    · cases lane <;> exact Nat.zero_le _
    · intro e lane
      cases lane <;> rfl

/-- What is known after any part of an orderly run. -/
theorem orderly_run (hsound : Sound s) (hopen : Listening s) {calls : List MemoryCall}
    (hcalls : ∀ call ∈ calls, Orderly call) :
    (run step s calls).config = s.config ∧ Sound (run step s calls) ∧
      Listening (run step s calls) := by
  induction calls generalizing s with
  | nil => exact ⟨rfl, hsound, hopen⟩
  | cons call calls ih =>
    obtain ⟨hcall, hcalls⟩ := List.forall_mem_cons.mp hcalls
    obtain ⟨hconfig, hrest⟩ := ih (sound_step hsound call) (listening_step hopen hcall) hcalls
    exact ⟨hconfig.trans (moves_config (step_moves s call)), hrest⟩

/-- The account from an empty lane. -/
theorem accepted_eq (hempty : ∀ e lane, (s.sides e).queue lane = []) (calls : List MemoryCall)
    (e : MemoryEnd) (lane : MemoryLane) : accepted s calls e lane =
      received s calls e.other lane ++ ((run step s calls).sides e.other).queue lane := by
  have h := trace_account s calls e lane
  rw [hempty, List.nil_append] at h
  exact h

/-- After the write side of an end is closed nothing is accepted and every send is refused. -/
theorem closed_trace (hsound : Sound s) {e : MemoryEnd} (hclosed : (s.sides e).writeClosed = true)
    (calls : List MemoryCall) : ∀ x ∈ trace step s calls,
      (∀ lane, acceptedOn e lane x = none) ∧
      ∀ lane message, x.input = .start e (.send lane message) → x.pre.pending e = none →
        ∃ error, x.reply = some (.sent (.error error)) := by
  intro x hx
  obtain ⟨⟨hs, hpre⟩, hevent⟩ := trace_invariant step
    (I := fun s => Sound s ∧ (s.sides e).writeClosed = true)
    (fun s call h => ⟨sound_step h.1 call, moves_writeClosed (step_moves s call) h.2⟩)
    ⟨hsound, hclosed⟩ calls x hx
  refine ⟨not_accepted hs hpre, fun lane message hinput hfree => ?_⟩
  have hreply : x.reply = (step x.pre x.input).1 := congrArg Event.reply hevent
  rw [hreply, hinput]
  exact closed_send hfree hpre lane message

/-- When a closed end has nothing left on a lane, the other end receives nothing on it any more. -/
theorem drained_trace (hsound : Sound s) {e : MemoryEnd} (hclosed : (s.sides e).writeClosed = true)
    {lane : MemoryLane} (hempty : (s.sides e.other).queue lane = []) (calls : List MemoryCall) :
    ∀ x ∈ trace step s calls, receivedOn e.other lane x = none := by
  have haccount := trace_account s calls e lane
  -- Nothing waits and nothing is accepted, so by the account nothing can be received.
  have hnone : (trace step s calls).filterMap (acceptedOn e lane) = [] := by
    rw [List.filterMap_eq_nil_iff]
    intro x hx
    exact (closed_trace hsound hclosed calls x hx).1 lane
  rw [hempty, hnone, List.append_nil] at haccount
  exact List.filterMap_eq_nil_iff.mp (List.append_eq_nil_iff.mp haccount.symm).1

theorem closeWrite_closes {e : MemoryEnd} (hfree : s.pending e = none) :
    ((step s (.start e .closeWrite)).2.sides e).writeClosed = true := by
  simp [step, hfree, setSide]

theorem proceed_receive_sides {e : MemoryEnd} {lane : MemoryLane}
    (hpending : s.pending e = some (.receiving lane)) :
    (step s (.proceed e)).2.sides = s.sides := by
  simp only [step, hpending, receiveFinish]
  split
  · rfl
  · rfl

/-- An operation that the other end does not interrupt. -/
def whole (op : MemoryEnd × MemoryOp) : List MemoryCall :=
  -- Where the first lock answers, nothing is left to proceed with and the second step is idle.
  [.start op.1 op.2, .proceed op.1]

theorem start_receiving {e : MemoryEnd} (hfree : s.pending e = none) {op : MemoryOp}
    {lane : MemoryLane} (h : (step s (.start e op)).2.pending e = some (.receiving lane)) :
    ((step s (.start e op)).2.sides e).queue lane = [] := by
  have hmoves := step_moves s (.start e op)
  generalize (step s (.start e op)).1 = reply at hmoves
  generalize (step s (.start e op)).2 = s' at hmoves h ⊢
  cases hmoves with
  | receiveWaits hfree' haborted hqueue =>
    rw [pending_setPending, if_pos rfl] at h
    cases h
    exact hqueue
  | sendWaits =>
    rw [pending_setPending, if_pos rfl] at h
    cases h
  | _ => simp [hfree] at h

theorem whole_free (hfree : ∀ e, s.pending e = none) (op : MemoryEnd × MemoryOp) (e : MemoryEnd) :
    (run step s (whole op)).pending e = none := by
  show (step (step s (.start op.1 op.2)).2 (.proceed op.1)).2.pending e = none
  -- The acting end has answered its call; the other one is not touched by either step.
  by_cases he : e = op.1
  · rw [he]
    exact proceed_pending _ _
  · have hfirst := moves_pending (step_moves s (.start op.1 op.2)) e
    have hsecond := moves_pending (step_moves (step s (.start op.1 op.2)).2 (.proceed op.1)) e
    have hkept : (step s (.start op.1 op.2)).2.pending e = none := by
      generalize (step s (.start op.1 op.2)).2.pending e = p at hfirst
      cases hfirst with
      | same => exact hfree e
      | answered => rfl
      | sends hcall => exact absurd (MemoryCall.start.inj hcall).1.symm he
      | receives hcall => exact absurd (MemoryCall.start.inj hcall).1.symm he
    generalize (step (step s (.start op.1 op.2)).2 (.proceed op.1)).2.pending e = p at hsecond
    cases hsecond with
    | same => exact hkept
    | answered => rfl
    | sends hcall => cases hcall
    | receives hcall => cases hcall

/-- In a run of whole operations no receive is overtaken. -/
theorem whole_not_overtaken (hfree : ∀ e, s.pending e = none) (ops : List (MemoryEnd × MemoryOp)) :
    NotOvertaken s (ops.flatMap whole) := by
  induction ops generalizing s with
  | nil =>
    intro before after e lane hsplit
    simp at hsplit
  | cons op ops ih =>
    intro before after e lane hsplit hpending hclosed
    have hlist : (op :: ops).flatMap whole =
        .start op.1 op.2 :: .proceed op.1 :: ops.flatMap whole := rfl
    rw [hlist] at hsplit
    -- The second lock is taken right after the first one, or in one of the later operations.
    rcases before with _ | ⟨first, _ | ⟨second, before⟩⟩
    · cases hsplit
    · obtain ⟨rfl, hrest⟩ := List.cons.inj hsplit
      have hend : op.1 = e.other := MemoryCall.proceed.inj (List.cons.inj hrest).1
      have hstart : (step s (.start e.other op.2)).2.pending e.other = some (.receiving lane) := by
        rw [hend] at hpending
        exact hpending
      have hempty := start_receiving (hfree e.other) hstart
      rw [hend]
      exact hempty
    · obtain ⟨rfl, hrest⟩ := List.cons.inj hsplit
      obtain ⟨rfl, hnext⟩ := List.cons.inj hrest
      exact ih (s := run step s (whole op)) (whole_free hfree op) before after e lane hnext hpending
        hclosed

/-- In a run without aborts and closed read sides the lanes keep all their promises exactly when no
receive is overtaken between its two locks. -/
theorem orderly_lanes_iff {config : MemoryTransportConfig}
    (hnew : memoryTransportPair config = some s) {calls : List MemoryCall}
    (hcalls : ∀ call ∈ calls, Orderly call) : LanesHold s calls ↔ NotOvertaken s calls := by
  obtain ⟨hsound, hopen, hempty, -⟩ := memory_pair_sound hnew
  have hbefore {before rest : List MemoryCall} (h : calls = before ++ rest) :
      (run step s before).config = s.config ∧ Sound (run step s before) ∧
        Listening (run step s before) :=
    orderly_run hsound hopen fun call hcall => hcalls call (h ▸ List.mem_append_left _ hcall)
  -- If the end of a lane is announced, all that was accepted has been received, so nothing waits.
  constructor
  · intro h before after e lane hsplit hpending hclosed
    obtain ⟨hends, hall⟩ := h.ends before after e lane hsplit hpending
    have haccepted := accepted_eq hempty before e lane
    rw [(hall (hends.mpr hclosed)).1] at haccepted
    exact List.self_eq_append_right.mp haccepted
  · intro h
    refine ⟨fun e lane => ?_, fun x hx e lane => ?_, fun x hx error hreply => ?_, ?_, ?_, ?_⟩
    · exact ⟨_, (accepted_eq hempty calls e lane).symm⟩
    · obtain ⟨before, call, after, hsplit, rfl⟩ := event_split step hx
      obtain ⟨hconfig, hs, -⟩ := hbefore hsplit
      have hbound := (sound_step hs call).bounded e lane
      rwa [moves_config (step_moves _ call), hconfig] at hbound
    · obtain ⟨before, call, after, hsplit, rfl⟩ := event_split step hx
      obtain ⟨-, -, hlistening⟩ := hbefore hsplit
      exact own_failure (step_moves _ call) hlistening hreply
    · intro before after e hsplit hfree x hx
      obtain ⟨-, hs, -⟩ := hbefore hsplit
      rw [run_concat] at hx
      exact closed_trace (sound_step hs _) (closeWrite_closes hfree) after x hx
    · intro before after e lane hsplit hfree hwaiting
      obtain ⟨-, hs, hlistening⟩ := hbefore hsplit
      refine receives_waiting hs hlistening hfree fun hnone => hwaiting ?_
      rw [accepted_eq hempty, hnone, List.append_nil]
    -- Only the end of the lane needs the condition: the queue is empty and the peer closed, and
    -- both stay so.
    · intro before after e lane hsplit hpending
      obtain ⟨-, hs, -⟩ := hbefore hsplit
      have hends := proceed_ends_iff hpending
      rw [MemoryEnd.other_other] at hends
      refine ⟨hends, fun hnone => ?_⟩
      have hclosed := hends.mp hnone
      have hqueue := h before after e lane hsplit hpending hclosed
      refine ⟨by rw [accepted_eq hempty, hqueue, List.append_nil], fun x hx => ?_⟩
      rw [run_concat] at hx
      refine drained_trace (sound_step hs _) (moves_writeClosed (step_moves _ _) hclosed) ?_ after x
        hx
      rw [proceed_receive_sides hpending]
      exact hqueue

theorem lanes_hold_iff {config : MemoryTransportConfig}
    (hnew : memoryTransportPair config = some s) :
    (∀ calls, (∀ call ∈ calls, Orderly call) → (LanesHold s calls ↔ NotOvertaken s calls)) ∧
    ∀ ops : List (MemoryEnd × MemoryOp), (∀ op ∈ ops, op.2 ≠ .abort ∧ op.2 ≠ .closeRead) →
      LanesHold s (ops.flatMap whole) := by
  obtain ⟨-, -, -, hfree⟩ := memory_pair_sound hnew
  refine ⟨fun calls hcalls => orderly_lanes_iff hnew hcalls, fun ops hops => ?_⟩
  refine (orderly_lanes_iff hnew fun call hcall => ?_).mpr (whole_not_overtaken hfree ops)
  obtain ⟨op, hop, hmem⟩ := List.mem_flatMap.mp hcall
  intro e
  simp only [whole, List.mem_cons, List.not_mem_nil, or_false] at hmem
  rcases hmem with rfl | rfl
  · exact ⟨fun h => (hops op hop).1 (MemoryCall.start.inj h).2,
      fun h => (hops op hop).2 (MemoryCall.start.inj h).2⟩
  · exact ⟨MemoryCall.noConfusion, MemoryCall.noConfusion⟩

def freshPair : MemoryPair := ⟨{}, fun _ => {}, fun _ => none⟩

/-- A message, the close behind it, and two receives at the other end. -/
theorem lanes_hold_half_close : LanesHold freshPair ([(.left, .send .control [7]),
    (.left, .closeWrite), (.right, .receive .control), (.right, .receive .control)].flatMap
      whole) := by
  have hnew : memoryTransportPair {} = some freshPair := rfl
  exact (lanes_hold_iff hnew).2 _ (by decide)

/-- The receive of the right end finds its lane empty; before it takes its second lock, the left end
sends and closes. -/
def overtaking : List MemoryCall := [.start .right (.receive .reliable),
  .start .left (.send .reliable [7]), .proceed .left, .start .left .closeWrite]

theorem lanes_hold_overtaken :
    memoryTransportPair {} = some freshPair ∧
    (step (run step freshPair overtaking) (.proceed .right)).1 = some (.received (.ok none)) ∧
    (step (run step freshPair (overtaking ++ [.proceed .right]))
      (.start .right (.receive .reliable))).1 = some (.received (.ok (some [7]))) ∧
    ¬LanesHold freshPair
      (overtaking ++ .proceed .right :: [.start .right (.receive .reliable)]) := by
  refine ⟨rfl, by decide, by decide, fun h => ?_⟩
  have hends := h.ends overtaking _ .left .reliable rfl (by decide)
  have hall := (hends.2 (by decide)).1
  exact absurd hall (by decide)

end MemoryPair

end MutsukiLink
