import MutsukiLink.NtpPublisher
import MutsukiLink.RunHistory

/-! The receiver of the reliable mode (`ReliableLatestReceiver`): it keeps one frame for each flow
and hands out the most urgent one. What a frame replaces is decided by its sequence alone. -/
namespace MutsukiLink.Ntp
open WireBytes RunHistory

structure ReliableLatestReceiver where
  pending : Std.ExtTreeMap RealtimeFlowId ReceivedRealtimeDatagram := ∅
  replacements : ℕ := 0
  staleDiscarded : ℕ := 0

/-- The priority that the receiver gives to a flow. -/
def flowPriority (flow : RealtimeFlowId) : Option RealtimePriority :=
  if flow = compactRigFlow then some .critical
  else if flow = coreResultFlow then some .high
  else if flow = geometryFlow then some .disposable
  else none

/-- `decode` of a frame on the reliable data lane. -/
def decodeReliable {ε : Type} (wire : Bytes) (maxFrameBytes receivedAt : ℕ) :
    Except (BindingError ε) ReceivedRealtimeDatagram :=
  if wire.length < reliableHeaderLen ∨ maxFrameBytes < wire.length ∨
      wire.take 4 ≠ reliableMagic ∨ wire[4]? ≠ some reliableVersion then .error .invalidFragment
  else
    let flow : RealtimeFlowId := ⟨.ofNat (ofBeBytes ((wire.drop 5).take 2))⟩
    let generation := UInt32.ofNat (ofBeBytes ((wire.drop 7).take 4))
    let sequence := UInt64.ofNat (ofBeBytes ((wire.drop 11).take 8))
    let payloadLen := ofBeBytes ((wire.drop 19).take 4)
    if payloadLen ≠ wire.length-reliableHeaderLen then .error .invalidFragment
    else match flowPriority flow with
      | none => .error .invalidFragment
      | some priority =>
        .ok ⟨flow, generation, sequence, priority, receivedAt, wire.drop reliableHeaderLen⟩

namespace ReliableLatestReceiver

/-- One decoded frame in the loop of `poll`. -/
def accept (r : ReliableLatestReceiver) (frame : ReceivedRealtimeDatagram) :
    ReliableLatestReceiver :=
  match r.pending[frame.flow]? with
  | none => { r with pending := r.pending.insert frame.flow frame }
  | some previous =>
    -- The generations are not compared.
    if previous.sequence < frame.sequence then
      { r with
        pending := r.pending.insert frame.flow frame
        replacements := saturatingAdd r.replacements 1 }
    else { r with staleDiscarded := saturatingAdd r.staleDiscarded 1 }

/-- The pending frame that `min_by_key` picks. -/
def next (r : ReliableLatestReceiver) : Option (RealtimeFlowId × ReceivedRealtimeDatagram) :=
  r.pending.toList.argmin fun entry => toLex (entry.2.priority.rank, entry.2.sequence.toNat)

section Poll
variable {σ ε : Type} (tryReceive : σ → Except TransportError (Option Bytes) × σ)

/-- The loop of `poll`, where the clock is read for each frame. -/
def drain (maxFrameBytes : ℕ) (clock : ℕ → ℕ) :
    ℕ → ReliableLatestReceiver → σ → Except (BindingError ε) Unit × ReliableLatestReceiver × σ
  | 0, r, s => (.ok (), r, s)
  | rounds+1, r, s =>
    match tryReceive s with
    | (.ok (some wire), s) =>
      match decodeReliable wire maxFrameBytes (clock rounds) with
      -- An invalid frame ends the poll; what was accepted before it stays pending.
      | .error e => (.error e, r, s)
      | .ok frame => drain maxFrameBytes clock rounds (r.accept frame) s
    | (.ok none, s) => (.ok (), r, s)
    | (.error e, s) =>
      -- Nothing is ready: the poll goes on to deliver.
      if e.kind = .wouldBlock then (.ok (), r, s) else (.error (.transport e), r, s)

def poll (r : ReliableLatestReceiver) (s : σ) (maxFrameBytes maxDrain : ℕ) (clock : ℕ → ℕ) :
    Except (BindingError ε) (Option ReceivedRealtimeDatagram) × ReliableLatestReceiver × σ :=
  match drain tryReceive maxFrameBytes clock maxDrain r s with
  | (.error e, r, s) => (.error e, r, s)
  | (.ok (), r, s) =>
    match r.next with
    | none => (.ok none, r, s)
    | some (flow, frame) => (.ok (some frame), { r with pending := r.pending.erase flow }, s)

/-- The frames that the loop takes from the connection and accepts. -/
def taken (maxFrameBytes : ℕ) (clock : ℕ → ℕ) : ℕ → σ → List ReceivedRealtimeDatagram
  | 0, _ => []
  | rounds+1, s =>
    match tryReceive s with
    | (.ok (some wire), s) =>
      match decodeReliable (ε := ε) wire maxFrameBytes (clock rounds) with
      | .error _ => []
      | .ok frame => frame :: taken maxFrameBytes clock rounds s
    | _ => []

end Poll

/-- What changes the pending frames: a frame from the connection, or a flow that is served. -/
inductive Move where
  | took (frame : ReceivedRealtimeDatagram)
  | delivered (flow : RealtimeFlowId)
deriving DecidableEq, Repr

def perform (r : ReliableLatestReceiver) : Move → ReliableLatestReceiver
  | .took frame => r.accept frame
  | .delivered flow => { r with pending := r.pending.erase flow }

def pendingAfter (moves : List Move) : ReliableLatestReceiver := moves.foldl perform {}

/-- The limits and the clock of one call of `poll`. -/
structure PollCall where
  maxFrameBytes : ℕ
  maxDrain : ℕ
  clock : ℕ → ℕ

section Runs
variable {σ : Type} (ε : Type) (tryReceive : σ → Except TransportError (Option Bytes) × σ)

def step (state : ReliableLatestReceiver × σ) (call : PollCall) :
    Except (BindingError ε) (Option ReceivedRealtimeDatagram) × ReliableLatestReceiver × σ :=
  poll tryReceive state.1 state.2 call.maxFrameBytes call.maxDrain call.clock

/-- The moves of one poll, in order. -/
def pollMoves (state : ReliableLatestReceiver × σ) (call : PollCall) : List Move :=
  (taken (ε := ε) tryReceive call.maxFrameBytes call.clock call.maxDrain state.2).map .took ++
    match drain (ε := ε) tryReceive call.maxFrameBytes call.clock call.maxDrain state.1 state.2 with
    | (.ok (), r, _) => (r.next.map fun entry => Move.delivered entry.1).toList
    | (.error _, _, _) => []

/-- The moves of a sequence of polls. -/
def moves (state : ReliableLatestReceiver × σ) (calls : List PollCall) : List Move :=
  (trace (step ε tryReceive) state calls).flatMap fun x => pollMoves ε tryReceive x.pre x.input

theorem drain_state (maxFrameBytes : ℕ) (clock : ℕ → ℕ) (rounds : ℕ) (r : ReliableLatestReceiver)
    (s : σ) : (drain (ε := ε) tryReceive maxFrameBytes clock rounds r s).2.1 =
      (taken (ε := ε) tryReceive maxFrameBytes clock rounds s).foldl accept r := by
  induction rounds generalizing r s with
  | zero => rfl
  | succ rounds ih =>
    unfold drain taken
    split
    · next wire s' heq =>
      rw [heq]
      dsimp only
      split
      · rfl
      · exact ih _ _
    · next s' heq => rw [heq]; rfl
    · next e s' heq =>
      rw [heq]
      split
      · rfl
      · rfl

theorem poll_state (state : ReliableLatestReceiver × σ) (call : PollCall) :
    (step ε tryReceive state call).2.1 =
      (pollMoves ε tryReceive state call).foldl perform state.1 := by
  have hdrain := drain_state ε tryReceive call.maxFrameBytes call.clock call.maxDrain state.1
    state.2
  rw [step, poll, pollMoves, List.foldl_append, List.foldl_map]
  show _ = List.foldl perform (List.foldl accept _ _) _
  rw [← hdrain]
  generalize drain (ε := ε) tryReceive call.maxFrameBytes call.clock call.maxDrain state.1
    state.2 = r
  obtain ⟨result, r, s⟩ := r
  cases result with
  | error e => rfl
  | ok _ =>
    dsimp only
    cases r.next with
    | none => rfl
    | some entry => rfl

theorem run_state (s : σ) (calls : List PollCall) :
    (run (step ε tryReceive) ({}, s) calls).1 =
      pendingAfter (moves ε tryReceive ({}, s) calls) := by
  refine run_history (step ε tryReceive) (P := fun hist state =>
    state.1 = pendingAfter (hist.flatMap fun x => pollMoves ε tryReceive x.pre x.input)) rfl
    (fun hist state call h => ?_) calls
  rw [List.flatMap_append, pendingAfter, List.foldl_append]
  show (step ε tryReceive state call).2.1 = _
  rw [poll_state, h]
  simp [pendingAfter, event]

end Runs

/-- Generation and sequence, in this order of weight. -/
def frameKey (frame : ReceivedRealtimeDatagram) : ℕ ×ₗ ℕ :=
  toLex (frame.generation.toNat, frame.sequence.toNat)

/-- The frames of a flow that were taken since it was served last. -/
def since (flow : RealtimeFlowId) (moves : List Move) : List ReceivedRealtimeDatagram :=
  moves.foldl (fun frames move => match move with
    | .took frame => if frame.flow = flow then frames ++ [frame] else frames
    | .delivered served => if served = flow then [] else frames) []

/-- What is pending is a newest one of the frames; nothing is pending when there are none. -/
def NewestOf (pending : Option ReceivedRealtimeDatagram) (frames : List ReceivedRealtimeDatagram) :
    Prop :=
  match pending with
  | none => frames = []
  | some frame => frame ∈ frames ∧ ∀ f ∈ frames, frameKey f ≤ frameKey frame

/-- For each flow the pending frame is a newest one of those taken since the flow was served. -/
def NewestKept (moves : List Move) : Prop :=
  ∀ flow, NewestOf (pendingAfter moves).pending[flow]? (since flow moves)

/-- Against the frame that is pending on its flow, the sequence of a frame decides as its generation
and sequence do. -/
def Comparable (moves : List Move) (frame : ReceivedRealtimeDatagram) : Prop :=
  ∀ previous, (pendingAfter moves).pending[frame.flow]? = some previous →
    (previous.sequence < frame.sequence ↔ frameKey previous < frameKey frame)

/-- What is pending on the flow of a frame after it was taken. -/
def keep (pending : Option ReceivedRealtimeDatagram) (frame : ReceivedRealtimeDatagram) :
    Option ReceivedRealtimeDatagram :=
  match pending with
  | none => some frame
  | some previous => if previous.sequence < frame.sequence then some frame else some previous

theorem accept_pending (r : ReliableLatestReceiver) (frame : ReceivedRealtimeDatagram)
    (flow : RealtimeFlowId) : (r.accept frame).pending[flow]? =
      if frame.flow = flow then keep r.pending[flow]? frame else r.pending[flow]? := by
  unfold accept
  by_cases hflow : frame.flow = flow
  · subst hflow
    cases hpending : r.pending[frame.flow]? with
    | none => simp [keep]
    | some previous =>
      simp only [keep, if_true]
      by_cases hnew : previous.sequence < frame.sequence
      · simp [hnew]
      · simp [hnew, hpending]
  · rw [if_neg hflow]
    split
    · rw [Std.ExtTreeMap.getElem?_insert, if_neg (by simpa using hflow)]
    · split
      · rw [Std.ExtTreeMap.getElem?_insert, if_neg (by simpa using hflow)]
      · rfl

/-- The rule of the receiver keeps the newest frame exactly when its comparison agrees with the one
of generation and sequence. -/
theorem newest_keep_iff {pending : Option ReceivedRealtimeDatagram}
    {frames : List ReceivedRealtimeDatagram} (h : NewestOf pending frames)
    (frame : ReceivedRealtimeDatagram) :
    NewestOf (keep pending frame) (frames ++ [frame]) ↔
      ∀ previous, pending = some previous →
        (previous.sequence < frame.sequence ↔ frameKey previous < frameKey frame) := by
  -- Only a pending frame can be preferred wrongly.
  cases pending with
  | none =>
    obtain rfl : frames = [] := h
    simp [keep, NewestOf]
  | some previous =>
    obtain ⟨hmem, hmax⟩ := h
    have hiff : (∀ p, some previous = some p →
        (p.sequence < frame.sequence ↔ frameKey p < frameKey frame)) ↔
          (previous.sequence < frame.sequence ↔ frameKey previous < frameKey frame) := by
      simp
    rw [hiff]
    by_cases hnew : previous.sequence < frame.sequence
    · -- Frames with different sequences have different keys.
      have hne : frameKey previous ≠ frameKey frame := by
        intro heq
        have hsequence := congrArg Prod.snd (toLex_inj.mp heq)
        exact absurd (UInt64.lt_iff_toNat_lt.mp hnew) (by simp_all)
      rw [iff_true_left hnew]
      simp only [keep, if_pos hnew, NewestOf]
      constructor
      · intro hkept
        exact lt_of_le_of_ne (hkept.2 previous (List.mem_append_left _ hmem)) hne
      · intro hlt
        refine ⟨List.mem_append_right _ (List.mem_singleton_self _), fun f hf => ?_⟩
        rcases List.mem_append.mp hf with hf | hf
        · exact (hmax f hf).trans hlt.le
        · rw [List.mem_singleton.mp hf]
    · rw [iff_false_left hnew]
      simp only [keep, if_neg hnew, NewestOf]
      constructor
      · intro hkept
        exact (hkept.2 frame (List.mem_append_right _ (List.mem_singleton_self _))).not_gt
      · intro hle
        refine ⟨List.mem_append_left _ hmem, fun f hf => ?_⟩
        rcases List.mem_append.mp hf with hf | hf
        · exact hmax f hf
        · rw [List.mem_singleton.mp hf]
          exact not_lt.mp hle

theorem pending_concat (moves : List Move) (move : Move) :
    pendingAfter (moves ++ [move]) = perform (pendingAfter moves) move := by
  rw [pendingAfter, List.foldl_append]
  rfl

theorem since_took (flow : RealtimeFlowId) (moves : List Move) (frame : ReceivedRealtimeDatagram) :
    since flow (moves ++ [.took frame]) =
      if frame.flow = flow then since flow moves ++ [frame] else since flow moves := by
  rw [since, List.foldl_append]
  rfl

theorem since_delivered (flow served : RealtimeFlowId) (moves : List Move) :
    since flow (moves ++ [.delivered served]) = if served = flow then [] else since flow moves := by
  rw [since, List.foldl_append]
  rfl

theorem took_newest_iff {moves : List Move} (h : NewestKept moves)
    (frame : ReceivedRealtimeDatagram) :
    NewestKept (moves ++ [.took frame]) ↔ Comparable moves frame := by
  have hpending (flow : RealtimeFlowId) : (pendingAfter (moves ++ [.took frame])).pending[flow]? =
      if frame.flow = flow then keep (pendingAfter moves).pending[flow]? frame
      else (pendingAfter moves).pending[flow]? := by
    rw [pending_concat]
    exact accept_pending _ _ _
  -- The other flows are not touched, so the flow of the frame decides.
  rw [Comparable, ← newest_keep_iff (h frame.flow) frame]
  constructor
  · intro hkept
    have hflow := hkept frame.flow
    rwa [hpending, since_took, if_pos rfl, if_pos rfl] at hflow
  · intro hkept flow
    rw [hpending, since_took]
    by_cases hflow : frame.flow = flow
    · subst hflow
      rwa [if_pos rfl, if_pos rfl]
    · rw [if_neg hflow, if_neg hflow]
      exact h flow

theorem delivered_newest {moves : List Move} (h : NewestKept moves) (served : RealtimeFlowId) :
    NewestKept (moves ++ [.delivered served]) := by
  intro flow
  rw [pending_concat, since_delivered]
  show NewestOf ((pendingAfter moves).pending.erase served)[flow]? _
  rw [Std.ExtTreeMap.getElem?_erase]
  by_cases hflow : served = flow
  · simp [hflow, NewestOf]
  · rw [if_neg (by simpa using hflow), if_neg hflow]
    exact h flow

/-- Along any moves the newest frames are kept exactly when every frame that was taken was
comparable with the pending one of its flow. -/
theorem newest_kept_iff (moves : List Move) :
    (∀ done, done <+: moves → NewestKept done) ↔
      ∀ done frame, done ++ [.took frame] <+: moves → Comparable done frame := by
  induction moves using List.reverseRecOn with
  | nil =>
    constructor
    · intro _ done frame hstarts
      simp at hstarts
    · intro _ done hstarts
      obtain rfl := List.prefix_nil.mp hstarts
      intro flow
      simp [pendingAfter, since, NewestOf]
  | append_singleton moves move ih =>
    constructor
    · intro h done frame hstarts
      have hdone := h done ((List.prefix_append done _).trans hstarts)
      exact (took_newest_iff hdone frame).mp (h _ hstarts)
    · intro h done hstarts
      have hbefore := ih.mpr fun done frame hstarts =>
        h done frame (hstarts.trans (List.prefix_append _ _))
      -- The last move is judged by the moves before it, which the induction knows to be kept.
      rcases List.prefix_concat_iff.mp hstarts with rfl | hstarts
      · have hkept := hbefore moves List.prefix_rfl
        cases move with
        | took frame => exact (took_newest_iff hkept frame).mpr (h moves frame List.prefix_rfl)
        | delivered served => exact delivered_newest hkept served
      · exact hbefore done hstarts

/-- Over any sequence of polls, from a new receiver and at every moment, each flow keeps a newest
frame exactly when every frame that arrives while another one of its flow is pending compares by its
sequence as it does by its generation and sequence. -/
theorem receiver_keeps_newest_iff {σ : Type} (ε : Type)
    (tryReceive : σ → Except TransportError (Option Bytes) × σ) (s : σ) (calls : List PollCall) :
    (run (step ε tryReceive) ({}, s) calls).1 = pendingAfter (moves ε tryReceive ({}, s) calls) ∧
    ((∀ done, done <+: moves ε tryReceive ({}, s) calls → NewestKept done) ↔
      ∀ done frame, done ++ [.took frame] <+: moves ε tryReceive ({}, s) calls →
        Comparable done frame) :=
  ⟨run_state ε tryReceive s calls, newest_kept_iff _⟩

/-- A connection that has these messages. -/
def fromWires : List Bytes → Except TransportError (Option Bytes) × List Bytes
  | [] => (.error ⟨.wouldBlock, "no message is ready"⟩, [])
  | wire :: wires => (.ok (some wire), wires)

def olderFrame : ReceivedRealtimeDatagram := ⟨compactRigFlow, 1, 10, .critical, 0, [7]⟩

/-- The first frame of the next generation, whose sequences start again. -/
def newerFrame : ReceivedRealtimeDatagram := ⟨compactRigFlow, 2, 1, .critical, 0, [8]⟩

def restarted : List Bytes :=
  [reliableWire compactRigFlow 1 10 [7], reliableWire compactRigFlow 2 1 [8]]

theorem receiver_discards_newer :
    (step Unit fromWires ({}, restarted) ⟨1024, 8, fun _ => 0⟩).1 = .ok (some olderFrame) ∧
    moves Unit fromWires ({}, restarted) [⟨1024, 8, fun _ => 0⟩] =
      [.took olderFrame, .took newerFrame, .delivered compactRigFlow] ∧
    ¬∀ done, done <+: moves Unit fromWires ({}, restarted) [⟨1024, 8, fun _ => 0⟩] →
      NewestKept done := by
  have hmoves : moves Unit fromWires ({}, restarted) [⟨1024, 8, fun _ => 0⟩] =
      [.took olderFrame, .took newerFrame, .delivered compactRigFlow] := by
    decide +kernel
  refine ⟨by decide +kernel, hmoves, fun h => ?_⟩
  rw [hmoves] at h
  have hpending : (pendingAfter [.took olderFrame, .took newerFrame]).pending[compactRigFlow]? =
      some olderFrame := by decide +kernel
  have hnewest := h [.took olderFrame, .took newerFrame] (by decide) compactRigFlow
  rw [hpending] at hnewest
  have hmem : newerFrame ∈ since compactRigFlow [.took olderFrame, .took newerFrame] := by
    decide +kernel
  exact absurd (hnewest.2 newerFrame hmem) (by decide +kernel)

end ReliableLatestReceiver

end MutsukiLink.Ntp
