import MutsukiLink.MemoryLanes

/-! The abort of an end of the in-memory transport. The aborted end receives nothing more and the
peer sends nothing more to it, but a send of the aborted end itself looks at the flags of the peer
only. -/
namespace MutsukiLink
open WireBytes RunHistory

/-- The end at which a call is made. -/
def MemoryCall.side : MemoryCall → MemoryEnd
  | .start e _ => e
  | .proceed e => e

namespace MemoryPair

variable {s s' : MemoryPair} {call : MemoryCall} {reply : Option MemoryReply}

theorem moves_aborted (h : Moves s call reply s') {e : MemoryEnd}
    (haborted : (s.sides e).aborted = true) : (s'.sides e).aborted = true := by
  have hside := moves_side h e
  generalize s'.sides e = side at hside
  cases hside with
  | same => exact haborted
  | queue => simpa using haborted
  | closesWrite => exact haborted
  | closesRead => exact haborted
  | aborts => rfl

/-- Whether the second lock of a send finds a reason to refuse it. -/
def Blocks (s : MemoryPair) (e : MemoryEnd) (lane : MemoryLane) : Prop :=
  (s.sides e.other).aborted = true ∨ (s.sides e.other).readClosed = true ∨
    s.config.capacity lane ≤ ((s.sides e.other).queue lane).length

theorem proceed_send_error_iff {e : MemoryEnd} {lane : MemoryLane} {message : Bytes}
    (hpending : s.pending e = some (.sending lane message)) :
    (∃ error, (step s (.proceed e)).1 = some (.sent (.error error))) ↔ Blocks s e lane := by
  have h := step_moves s (.proceed e)
  generalize (step s (.proceed e)).1 = reply at h
  generalize (step s (.proceed e)).2 = s' at h
  cases h with
  | nothing hnone => cases hpending.symm.trans hnone
  -- The lane under way is the one of `hpending`, so the reasons of the two steps are the same.
  | @sendFails e' lane' message' error hpending' hwhy =>
    rw [hpending] at hpending'
    cases hpending'
    exact ⟨fun _ => hwhy.imp_right (Or.imp_right And.left), fun _ => ⟨error, rfl⟩⟩
  | sendDone hpending' haborted hreading hroom =>
    rw [hpending] at hpending'
    cases hpending'
    constructor
    · rintro ⟨error, h⟩
      cases h
    · rintro (h | h | h)
      · rw [haborted] at h
        cases h
      · rw [hreading] at h
        cases h
      · omega
  | receiveEnds hpending' => cases hpending.symm.trans hpending'
  | receiveBlocks hpending' => cases hpending.symm.trans hpending'

theorem proceed_send_answers {e : MemoryEnd} {lane : MemoryLane} {message : Bytes}
    (hpending : s.pending e = some (.sending lane message)) :
    ∃ result, (step s (.proceed e)).1 = some (.sent result) := by
  have h := step_moves s (.proceed e)
  generalize (step s (.proceed e)).1 = reply at h ⊢
  generalize (step s (.proceed e)).2 = s' at h
  cases h with
  | nothing hnone => cases hpending.symm.trans hnone
  | sendFails => exact ⟨_, rfl⟩
  | sendDone => exact ⟨_, rfl⟩
  | receiveEnds hpending' => cases hpending.symm.trans hpending'
  | receiveBlocks hpending' => cases hpending.symm.trans hpending'

/-- A send is answered by an error, or it is done under the lock of an end that has not aborted. -/
theorem send_answers (h : Moves s call reply s') {result : Except TransportError Unit}
    (hreply : reply = some (.sent result)) :
    (∃ error, result = .error error) ∨ ∃ e lane message, call = .proceed e ∧
      s.pending e = some (.sending lane message) ∧ ¬Blocks s e lane := by
  subst hreply
  cases h with
  | sendRefused => exact Or.inl ⟨_, rfl⟩
  | sendFails => exact Or.inl ⟨_, rfl⟩
  | @sendDone e lane message hpending haborted hreading hroom =>
    refine Or.inr ⟨e, lane, message, rfl, hpending, ?_⟩
    rw [Blocks, haborted, hreading]
    simpa using hroom

theorem aborted_receive_fails {e : MemoryEnd} (haborted : (s.sides e).aborted = true)
    (hfree : s.pending e = none) (lane : MemoryLane) :
    ∃ error, (step s (.start e (.receive lane))).1 = some (.received (.error error)) := by
  have h := step_moves s (.start e (.receive lane))
  generalize (step s (.start e (.receive lane))).1 = reply at h ⊢
  generalize (step s (.start e (.receive lane))).2 = s' at h
  cases h with
  | busy hbusy => simp [hfree] at hbusy
  | @receiveRefused e' lane' error => exact ⟨error, rfl⟩
  | receiveTakes hfree' hopen =>
    rw [haborted] at hopen
    cases hopen
  | receiveWaits hfree' hopen =>
    rw [haborted] at hopen
    cases hopen

/-- What an abort of an end means for the rest of a run, which starts with the call of it. -/
structure AbortFinal (s : MemoryPair) (before : List MemoryCall) (e : MemoryEnd)
    (after : List MemoryCall) : Prop where
  sends_fail : ∀ x ∈ trace step (run step s (before ++ [.start e .abort])) after,
    x.input.side = e → ∀ result, x.reply = some (.sent result) → ∃ error, result = .error error
  receives_fail : ∀ x ∈ trace step (run step s (before ++ [.start e .abort])) after, ∀ lane,
    x.input = .start e (.receive lane) → x.pre.pending e = none →
      ∃ error, x.reply = some (.received (.error error))
  peer_sends_fail : ∀ x ∈ trace step (run step s (before ++ [.start e .abort])) after,
    x.input.side = e.other → ∀ result, x.reply = some (.sent result) →
      ∃ error, result = .error error
  nothing_arrives : ∀ lane, received s (before ++ .start e .abort :: after) e.other lane <+:
    accepted s before e lane

/-- Each send of the aborted end is refused for a reason that has nothing to do with the abort, by
its first check or by the state in which it takes its second lock. -/
def SendsBlocked (s : MemoryPair) (before : List MemoryCall) (e : MemoryEnd)
    (after : List MemoryCall) : Prop :=
  ∀ done rest lane message, after = done ++ .proceed e :: rest →
    (run step s (before ++ .start e .abort :: done)).pending e = some (.sending lane message) →
      Blocks (run step s (before ++ .start e .abort :: done)) e lane

theorem abort_aborts {e : MemoryEnd} (hfree : s.pending e = none) :
    ((step s (.start e .abort)).2.sides e).aborted = true := by
  simp [step, hfree, setSide]

/-- What is known of an aborted end in any later event. -/
theorem aborted_event {e : MemoryEnd} (haborted : (s.sides e).aborted = true)
    {calls : List MemoryCall} {x : Event MemoryPair MemoryCall (Option MemoryReply)}
    (hx : x ∈ trace step s calls) :
    (x.pre.sides e).aborted = true ∧ x = event step x.pre x.input :=
  trace_invariant step (I := fun s => (s.sides e).aborted = true)
    (fun s call h => moves_aborted (step_moves s call) h) haborted calls x hx

theorem accepted_done {x : Event MemoryPair MemoryCall (Option MemoryReply)} {e : MemoryEnd}
    {lane : MemoryLane} {message : Bytes} (h : acceptedOn e lane x = some message) :
    x.input = .proceed e ∧ x.reply = some (.sent (.ok ())) := by
  unfold acceptedOn at h
  split at h
  · next e' hinput hreply =>
    split at h
    · split at h
      · next hhere => exact ⟨hhere.1 ▸ hinput, hreply⟩
      · cases h
    · cases h
  · cases h

/-- When every send of the aborted end fails, nothing that it sends arrives. -/
theorem nothing_arrives_of_fail (hempty : ∀ e lane, (s.sides e).queue lane = [])
    {before after : List MemoryCall} {e : MemoryEnd}
    (hfail : ∀ x ∈ trace step (run step s (before ++ [.start e .abort])) after,
      x.input.side = e → ∀ result, x.reply = some (.sent result) → ∃ error, result = .error error)
    (lane : MemoryLane) :
    received s (before ++ .start e .abort :: after) e.other lane <+: accepted s before e lane := by
  have hsplit : before ++ .start e .abort :: after = (before ++ [.start e .abort]) ++ after := by
    simp
  -- An accepted message is answered by `Ok`, which no later send of this end is.
  have hlater : (trace step (run step s (before ++ [.start e .abort])) after).filterMap
      (acceptedOn e lane) = [] := by
    rw [List.filterMap_eq_nil_iff]
    intro x hx
    cases h : acceptedOn e lane x with
    | none => rfl
    | some message =>
      obtain ⟨hinput, hreply⟩ := accepted_done h
      obtain ⟨error, herror⟩ := hfail x hx (congrArg MemoryCall.side hinput) _ hreply
      cases herror
  have hwhole : accepted s (before ++ .start e .abort :: after) e lane =
      accepted s before e lane := by
    rw [hsplit, accepted, trace_append, List.filterMap_append, hlater, trace_concat,
      List.filterMap_append, List.append_nil]
    exact List.append_nil _
  rw [← hwhole, accepted_eq hempty]
  exact List.prefix_append _ _

/-- The abort of an end is final exactly when each later send of that end is blocked by something
else. -/
theorem abort_final_iff {config : MemoryTransportConfig}
    (hnew : memoryTransportPair config = some s) (before after : List MemoryCall) (e : MemoryEnd)
    (hfree : (run step s before).pending e = none) :
    AbortFinal s before e after ↔ SendsBlocked s before e after := by
  have hempty := (memory_pair_sound hnew).2.2.1
  have haborted : ((run step s (before ++ [.start e .abort])).sides e).aborted = true := by
    rw [run_concat]
    exact abort_aborts hfree
  have hrun (done : List MemoryCall) : run step s (before ++ .start e .abort :: done) =
      run step (run step s (before ++ [.start e .abort])) done := by
    rw [← run_append, List.append_assoc]
    rfl
  -- A send that takes its second lock is answered there, and by finality with an error.
  constructor
  · intro h done rest lane message hsplit hpending
    rw [hrun] at hpending ⊢
    have hmem : event step (run step (run step s (before ++ [.start e .abort])) done) (.proceed e) ∈
        trace step (run step s (before ++ [.start e .abort])) after := by
      rw [hsplit]
      exact event_mem_trace step _ done _ rest
    obtain ⟨result, hreply⟩ := proceed_send_answers hpending
    obtain ⟨error, rfl⟩ := h.sends_fail _ hmem rfl result hreply
    exact (proceed_send_error_iff hpending).mp ⟨error, hreply⟩
  · intro h
    have hfail : ∀ x ∈ trace step (run step s (before ++ [.start e .abort])) after,
        x.input.side = e → ∀ result, x.reply = some (.sent result) →
          ∃ error, result = .error error := by
      intro x hx hside result hreply
      obtain ⟨done, call, rest, hsplit, rfl⟩ := event_split step hx
      rcases send_answers (step_moves _ call) hreply with
        herror | ⟨e', lane, message, hcall, hpending, hfree'⟩
      · exact herror
      · obtain rfl : call = .proceed e := by
          rw [hcall] at hside ⊢
          exact congrArg MemoryCall.proceed hside
        obtain rfl := MemoryCall.proceed.inj hcall
        rw [← hrun] at hpending hfree'
        exact absurd (h done rest lane message hsplit hpending) hfree'
    -- The other three parts need no condition: the receives of the end and the sends of its peer
    -- look at the flag of the aborted side.
    refine ⟨hfail, fun x hx lane hinput hfree' => ?_, fun x hx hside result hreply => ?_,
      nothing_arrives_of_fail hempty hfail⟩
    · obtain ⟨hpre, hevent⟩ := aborted_event haborted hx
      have hreply : x.reply = (step x.pre x.input).1 := congrArg Event.reply hevent
      rw [hreply, hinput]
      exact aborted_receive_fails hpre hfree' lane
    · obtain ⟨hpre, hevent⟩ := aborted_event haborted hx
      have hstep : (step x.pre x.input).1 = some (.sent result) :=
        (congrArg Event.reply hevent).symm.trans hreply
      rcases send_answers (step_moves x.pre x.input) hstep with
        herror | ⟨e', lane, message, hcall, hpending, hopen⟩
      · exact herror
      · have he : e' = e.other := by
          rw [hcall] at hside
          exact hside
        refine absurd (Or.inl ?_) hopen
        rw [he, MemoryEnd.other_other]
        exact hpre

/-- An abort after which the aborted end receives and the other one sends. -/
theorem abort_final_peer : AbortFinal freshPair [] .left [.start .left (.receive .reliable),
    .start .right (.send .control [7]), .proceed .right] := by
  have hnew : memoryTransportPair {} = some freshPair := rfl
  refine (abort_final_iff hnew [] _ .left rfl).mpr fun done rest lane message hsplit => ?_
  have hmem : MemoryCall.proceed .left ∈ done ++ .proceed .left :: rest := by simp
  rw [← hsplit] at hmem
  exact absurd hmem (by decide)

/-- The aborted end sends, and the other end receives it. -/
theorem abort_final_ignored :
    memoryTransportPair {} = some freshPair ∧
    (step (run step freshPair [.start .left .abort, .start .left (.send .reliable [7])])
      (.proceed .left)).1 = some (.sent (.ok ())) ∧
    (step (run step freshPair [.start .left .abort, .start .left (.send .reliable [7]),
      .proceed .left]) (.start .right (.receive .reliable))).1 =
        some (.received (.ok (some [7]))) ∧
    ¬AbortFinal freshPair [] .left [.start .left (.send .reliable [7]), .proceed .left,
      .start .right (.receive .reliable)] := by
  refine ⟨rfl, by decide, by decide, fun h => ?_⟩
  obtain ⟨error, herror⟩ := h.sends_fail _
    (event_mem_trace step (run step freshPair [.start .left .abort])
      [.start .left (.send .reliable [7])] (.proceed .left) [.start .right (.receive .reliable)])
    rfl (.ok ()) (by decide)
  cases herror

end MemoryPair

end MutsukiLink
