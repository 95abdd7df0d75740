import MutsukiLink.NtpLatestLink

/-! What the reliable mode promises over whole runs: every frame that was accepted is delivered, is
under way, or was superseded by a newer one and counted; and the newest one arrives. -/
namespace MutsukiLink.Ntp
open WireBytes RunHistory LatestLedger OrderedMap
open RealtimeSendQueue (counterMax)

namespace LatestLink
variable {σ ε : Type} {c : ReliableLane σ} {limits : LatestLimits} {w : LatestLink σ}
  {accepted delivered : List LatestFrame}

/-- One call, where the sender takes only newer frames of the three flows. A poll fails only where
the connection does. -/
theorem Sound.step (h : w.Sound c limits.receiver accepted delivered)
    (hlimits : limits.sender ≤ limits.receiver) (call : LatestCall)
    (hknown : ∀ frame priority, call = .enqueue frame priority → (flowPriority frame.flow).isSome)
    (hrising : ∀ flow, (onFlow flow
      (accepted ++ acceptedBy (event (step ε c limits) w call))).Pairwise
        fun a b => a.sequence < b.sequence) :
    Sound c limits.receiver (w.step ε c limits call).2
        (accepted ++ acceptedBy (event (step ε c limits) w call))
        (delivered ++ deliveredBy (event (step ε c limits) w call)) ∧
      ∀ e, (w.step ε c limits call).1 = .polled (.error e) →
        ∃ error, e = .transport error := by
  cases call with
  | enqueue frame priority =>
    refine ⟨?_, nofun⟩
    unfold acceptedBy event LatestLink.step at hrising
    unfold acceptedBy deliveredBy event LatestLink.step
    dsimp only at hrising ⊢
    rcases enqueue_latest (ε := ε) limits.sender w.sender frame priority with
      heq | ⟨hsize, hpayload, outcome, heq⟩
    · rw [heq]
      dsimp only
      rw [List.append_nil, List.append_nil]
      exact h
    · rw [heq] at hrising ⊢
      dsimp only at hrising ⊢
      rw [List.append_nil]
      exact h.enqueue ⟨hknown frame priority rfl, hsize.trans hlimits, hpayload⟩ priority hrising
  | flush =>
    refine ⟨?_, nofun⟩
    unfold acceptedBy deliveredBy event LatestLink.step ReliableLatestSender.flush
    dsimp only
    rw [List.append_nil, List.append_nil]
    exact h.flushRounds (ε := ε) w.sender.pending.size
  | poll maxDrain clock =>
    obtain ⟨hdrained, herror⟩ := h.drain (ε := ε) clock maxDrain
    unfold acceptedBy deliveredBy event LatestLink.step ReliableLatestReceiver.poll
    dsimp only
    rw [List.append_nil]
    generalize ReliableLatestReceiver.drain (ε := ε) c.tryReceive limits.receiver clock maxDrain
      w.receiver w.connection = drained at hdrained herror
    obtain ⟨result, receiver, s⟩ := drained
    cases result with
    | error e =>
      dsimp only at hdrained herror ⊢
      rw [List.append_nil]
      refine ⟨hdrained, ?_⟩
      intro e' he
      injection he with he
      exact herror e' (congrArg Except.error (Except.error.inj he))
    | ok done =>
      dsimp only at hdrained ⊢
      cases hnext : receiver.next with
      | none =>
        rw [List.append_nil]
        exact ⟨hdrained, nofun⟩
      | some entry =>
        obtain ⟨flow, received⟩ := entry
        exact ⟨hdrained.deliver hnext, nofun⟩

theorem sound_start {s : σ} (hempty : c.lane s = []) : (start s).Sound c limits.receiver [] [] := by
  refine ⟨?_, ?_, ?_, ?_, ?_, rfl, 0, 0, rfl, rfl, ?_⟩
  · intro flow
    have hnothing : underWay c (start s) flow = [] := by
      unfold underWay start
      dsimp only
      rw [hempty]
      simp [ReliableLatestSender.waiting]
    rw [hnothing]
    exact .nil
  · intro flow
    exact .nil
  · intro wire hwire
    unfold start at hwire
    rw [hempty] at hwire
    cases hwire
  · intro flow wire hwire
    simp [start, ReliableLatestSender.waiting] at hwire
  · intro flow received hreceived
    simp [start] at hreceived
  · unfold start
    rw [hempty]
    simp [ReliableLatestSender.pendingCount]

/-- The frames that a history has accepted. -/
def acceptedIn (events : List (LatestEvent σ ε)) : List LatestFrame := events.flatMap acceptedBy

def deliveredIn (events : List (LatestEvent σ ε)) : List LatestFrame := events.flatMap deliveredBy

theorem deliveredIn_append (events more : List (LatestEvent σ ε)) :
    deliveredIn (events ++ more) = deliveredIn events ++ deliveredIn more := List.flatMap_append ..

theorem acceptedIn_concat (events : List (LatestEvent σ ε)) (e : LatestEvent σ ε) :
    acceptedIn (events ++ [e]) = acceptedIn events ++ acceptedBy e := by
  rw [acceptedIn, acceptedIn, List.flatMap_append, List.flatMap_singleton]

theorem deliveredIn_concat (events : List (LatestEvent σ ε)) (e : LatestEvent σ ε) :
    deliveredIn (events ++ [e]) = deliveredIn events ++ deliveredBy e := by
  rw [deliveredIn_append]
  exact congrArg _ (List.flatMap_singleton deliveredBy e)

/-- What the publisher keeps to: it uses the three flows, and the sequences of a flow rise. -/
structure WellSent (calls : List LatestCall) (events : List (LatestEvent σ ε)) : Prop where
  known : ∀ frame priority, .enqueue frame priority ∈ calls → (flowPriority frame.flow).isSome
  rising : ∀ flow, (onFlow flow (acceptedIn events)).Pairwise fun a b => a.sequence < b.sequence

theorem sound_run (hlimits : limits.sender ≤ limits.receiver) {s : σ} (hempty : c.lane s = [])
    (calls : List LatestCall)
    (hsent : WellSent calls (trace (step ε c limits) (start s) calls)) :
    Sound c limits.receiver (run (step ε c limits) (start s) calls)
        (acceptedIn (trace (step ε c limits) (start s) calls))
        (deliveredIn (trace (step ε c limits) (start s) calls)) ∧
      ∀ e ∈ trace (step ε c limits) (start s) calls, ∀ error,
        e.reply = .polled (.error error) → ∃ failure, error = .transport failure := by
  induction calls using List.reverseRecOn with
  | nil =>
    refine ⟨sound_start hempty, ?_⟩
    intro e he
    cases he
  | append_singleton calls call ih =>
    obtain ⟨hknown, hrising⟩ := hsent
    rw [trace_concat, acceptedIn_concat] at hrising
    rw [trace_concat, run_concat, acceptedIn_concat, deliveredIn_concat]
    have hbefore : WellSent calls (trace (step ε c limits) (start s) calls) := by
      refine ⟨fun frame priority hmem => hknown frame priority (List.mem_append_left _ hmem), ?_⟩
      intro flow
      have hall := hrising flow
      rw [onFlow_append] at hall
      exact (List.pairwise_append.mp hall).1
    obtain ⟨hsound, herrors⟩ := ih hbefore
    obtain ⟨hstep, herror⟩ := hsound.step hlimits call
      (fun frame priority heq => hknown frame priority (by simp [heq])) hrising
    refine ⟨hstep, ?_⟩
    intro e he error hreply
    rcases List.mem_append.mp he with he | he
    · exact herrors e he error hreply
    · rw [List.mem_singleton.mp he] at hreply
      exact herror error hreply

/-- Over any run on an ordered lane, when the receiver's limit on a frame is no smaller than the
sender's, the frames that are delivered on a flow are accepted ones in their order, and what is
delivered or under way ends with the one that was accepted last. No frame is discarded as stale or
fails to decode, and each one that was accepted is delivered, under way, or counted as replaced at
one of the ends. -/
theorem newest_frame_is_never_lost (c : ReliableLane σ) (limits : LatestLimits)
    (hlimits : limits.sender ≤ limits.receiver) (s : σ) (hempty : c.lane s = [])
    (calls : List LatestCall) (hsent : WellSent calls (trace (step ε c limits) (start s) calls)) :
    (∀ flow, Current (onFlow flow (acceptedIn (trace (step ε c limits) (start s) calls)))
      (onFlow flow (deliveredIn (trace (step ε c limits) (start s) calls)) ++
        underWay c (run (step ε c limits) (start s) calls) flow)) ∧
    (∀ e ∈ trace (step ε c limits) (start s) calls, ∀ error,
      e.reply = .polled (.error error) → ∃ failure, error = .transport failure) ∧
    (run (step ε c limits) (start s) calls).receiver.staleDiscarded = 0 ∧
    ∃ a b,
      (run (step ε c limits) (start s) calls).sender.replacements = min a counterMax ∧
      (run (step ε c limits) (start s) calls).receiver.replacements = min b counterMax ∧
      (acceptedIn (trace (step ε c limits) (start s) calls)).length =
        (deliveredIn (trace (step ε c limits) (start s) calls)).length+
          (run (step ε c limits) (start s) calls).receiver.pending.size+
          (c.lane (run (step ε c limits) (start s) calls).connection).length+
          (run (step ε c limits) (start s) calls).sender.pendingCount+a+b := by
  obtain ⟨hsound, herrors⟩ := sound_run hlimits hempty calls hsent
  exact ⟨hsound.current, herrors, hsound.stale, hsound.counted⟩

/-- From these states on the connection takes every message and hands out what it holds. -/
structure ServesFrom (c : ReliableLane σ) (live : σ → Prop) : Prop where
  sends : ∀ s wire, live s → (c.trySend s wire).1 = .ok ()
  sent : ∀ s wire, live s → live (c.trySend s wire).2
  receives : ∀ s, live s → c.lane s ≠ [] → ∃ wire, (c.tryReceive s).1 = .ok (some wire)
  waits : ∀ s, live s → c.lane s = [] → (c.tryReceive s).1 = .ok none ∨
    ∃ e, (c.tryReceive s).1 = .error e ∧ e.kind = .wouldBlock
  received : ∀ s, live s → live (c.tryReceive s).2

section Live
variable {live : σ → Prop} (hlive : ServesFrom c live)

theorem waits_of_next_none {r : ReliableLatestSender} (h : r.next = none) : r.pendingCount = 0 := by
  unfold ReliableLatestSender.next at h
  rw [List.argmin_eq_none, List.filter_eq_nil_iff] at h
  unfold ReliableLatestSender.pendingCount
  rw [sumBy_eq_zero_iff]
  intro flow frame hframe
  have hnot := h (flow, frame) (Std.ExtTreeMap.mem_toList_iff_getElem?_eq_some.mpr hframe)
  exact if_neg hnot

include hlive in
/-- With as many rounds as frames that wait, a flush sends them all. -/
theorem flushRounds_empties (rounds : ℕ) (r : ReliableLatestSender) (s : σ) (hs : live s)
    (hrounds : r.pendingCount ≤ rounds) :
    ∃ r' s', ReliableLatestSender.flushRounds (ε := ε) c.toNtpConnection rounds r s =
        (.ok (), r', s') ∧ r'.pendingCount = 0 ∧ live s' := by
  induction rounds generalizing r s with
  | zero => exact ⟨r, s, rfl, by omega, hs⟩
  | succ rounds ih =>
    unfold ReliableLatestSender.flushRounds
    cases hnext : r.next with
    | none => exact ⟨r, s, rfl, waits_of_next_none hnext, hs⟩
    | some entry =>
    obtain ⟨flow, frame⟩ := entry
    obtain ⟨hlookup, hpending⟩ := ReliableLatestSender.next_waits hnext
    have hcount := pendingCount_insert r flow { frame with pending := false } r.replacements
    have hwaiting : (r.waiting flow).isSome := by rw [waiting_isSome, hlookup]; exact hpending
    rw [if_pos hwaiting] at hcount
    simp only [Bool.false_eq_true, if_false, Nat.add_zero] at hcount
    have hsends := hlive.sends s frame.wire hs
    have hsent := hlive.sent s frame.wire hs
    dsimp only
    rcases hsend : c.trySend s frame.wire with ⟨answer, s'⟩
    rw [hsend] at hsends hsent
    dsimp only at hsends hsent
    subst hsends
    exact ih _ s' hsent (by omega)

theorem pendingCount_le_size (r : ReliableLatestSender) : r.pendingCount ≤ r.pending.size := by
  unfold ReliableLatestSender.pendingCount sumBy values
  have hsize : r.pending.size = (r.pending.toList.map Prod.snd).length := by
    rw [List.length_map, Std.ExtTreeMap.length_toList]
  rw [hsize]
  generalize r.pending.toList.map Prod.snd = frames
  induction frames with
  | nil => exact le_refl 0
  | cons frame frames ih =>
    rw [List.map_cons, List.sum_cons, List.length_cons]
    split
    · omega
    · omega

/-- A frame that is accepted leaves something pending, and at most one more than before. -/
theorem accept_size (r : ReliableLatestReceiver) (received : ReceivedRealtimeDatagram) :
    0 < (r.accept received).pending.size ∧ r.pending.size ≤ (r.accept received).pending.size ∧
      (r.accept received).pending.size ≤ r.pending.size+1 := by
  unfold ReliableLatestReceiver.accept
  split
  next hnone =>
    dsimp only
    rw [size_insert_new _ _ hnone]
    omega
  next previous hprevious =>
    have hsize := size_erase_add_one r.pending hprevious
    split
    · dsimp only
      rw [size_insert_live _ _ hprevious]
      omega
    · dsimp only
      omega

/-- The frames that the receiver has not handed out yet. -/
def backlog (c : ReliableLane σ) (w : LatestLink σ) : ℕ :=
  w.receiver.pending.size+(c.lane w.connection).length

include hlive in
/-- The loop of a poll on a connection that serves. -/
theorem Sound.drain_live (clock : ℕ → ℕ) (rounds : ℕ)
    (h : w.Sound c limits.receiver accepted delivered) (hs : live w.connection) :
    ∃ receiver s, ReliableLatestReceiver.drain (ε := ε) c.tryReceive limits.receiver clock rounds
        w.receiver w.connection = (.ok (), receiver, s) ∧ live s ∧
      backlog c ⟨w.sender, receiver, s⟩ ≤ backlog c w ∧
      w.receiver.pending.size ≤ receiver.pending.size ∧
      (0 < rounds → 0 < backlog c w → 0 < receiver.pending.size) := by
  induction rounds generalizing w with
  | zero =>
    exact ⟨w.receiver, w.connection, rfl, hs, le_refl _, le_refl _, fun h => absurd h (by omega)⟩
  | succ rounds ih =>
    have hreceived := hlive.received w.connection hs
    unfold ReliableLatestReceiver.drain
    cases hlane : c.lane w.connection with
    | nil =>
      -- Nothing is on the lane: the loop ends with what is pending.
      have hwaits := hlive.waits w.connection hs hlane
      have hkept := c.receive_none w.connection (by
        intro wire hwire
        rcases hwaits with hnone | ⟨e, he, -⟩
        · rw [hnone] at hwire
          cases hwire
        · rw [he] at hwire
          cases hwire)
      rcases hreceive : c.tryReceive w.connection with ⟨answer, s⟩
      rw [hreceive] at hwaits hreceived hkept
      dsimp only at hwaits hreceived hkept
      have hsame : backlog c ⟨w.sender, w.receiver, s⟩ = backlog c w := by
        unfold backlog
        rw [hkept]
      have hpending : 0 < backlog c w → 0 < w.receiver.pending.size := by
        unfold backlog
        rw [hlane, List.length_nil]
        omega
      refine ⟨w.receiver, s, ?_, hreceived, hsame.le, le_refl _, fun _ => hpending⟩
      rcases hwaits with hnone | ⟨e, he, hkind⟩
      · rw [hnone]
      · rw [he]
        exact if_pos hkind
    | cons head rest =>
      obtain ⟨wire, hwire⟩ := hlive.receives w.connection hs (hlane ▸ List.cons_ne_nil head rest)
      have hnext := c.receive_some w.connection wire hwire
      rcases hreceive : c.tryReceive w.connection with ⟨answer, s⟩
      rw [hreceive] at hwire hreceived hnext
      dsimp only at hwire hreceived hnext
      subst hwire
      obtain ⟨received, hdecode, htaken⟩ := h.take (ε := ε) hreceive (clock rounds)
      obtain ⟨hsome, hgrows, hone⟩ := accept_size w.receiver received
      obtain ⟨receiver, s', hdrain, hs', hbacklog, hsize, -⟩ := ih htaken hreceived
      dsimp only at hdrain hsize
      refine ⟨receiver, s', ?_, hs', ?_, hgrows.trans hsize, fun _ _ => hsome.trans_le hsize⟩
      · dsimp only
        rw [hdecode]
        exact hdrain
      · refine hbacklog.trans ?_
        unfold backlog
        dsimp only
        rw [hnext, List.length_cons]
        omega

include hlive in
/-- A poll on a connection that serves hands out a frame as long as there is one. -/
theorem Sound.poll_live (h : w.Sound c limits.receiver accepted delivered) (hs : live w.connection)
    (maxDrain : ℕ) (clock : ℕ → ℕ) :
    live (w.step ε c limits (.poll (maxDrain+1) clock)).2.connection ∧
      (w.step ε c limits (.poll (maxDrain+1) clock)).2.sender = w.sender ∧
      backlog c (w.step ε c limits (.poll (maxDrain+1) clock)).2 ≤ backlog c w-1 := by
  obtain ⟨receiver, s, hdrain, hs', hbacklog, -, hsome⟩ := h.drain_live (ε := ε) hlive clock
    (maxDrain+1) hs
  unfold LatestLink.step ReliableLatestReceiver.poll
  dsimp only
  rw [hdrain]
  dsimp only
  cases hnext : receiver.next with
  | none =>
    refine ⟨hs', rfl, ?_⟩
    have hnil : receiver.pending.size = 0 := by
      unfold ReliableLatestReceiver.next at hnext
      rw [List.argmin_eq_none] at hnext
      rw [← Std.ExtTreeMap.length_toList, hnext, List.length_nil]
    dsimp only
    by_contra hmore
    have hpositive : 0 < backlog c w := by omega
    have hpending := hsome (by omega) hpositive
    omega
  | some entry =>
    obtain ⟨flow, received⟩ := entry
    refine ⟨hs', rfl, ?_⟩
    have hsize := size_erase_add_one receiver.pending (ReliableLatestReceiver.next_mem hnext)
    unfold backlog at hbacklog ⊢
    dsimp only at hbacklog ⊢
    omega

/-- Calls that send nothing new. -/
theorem Sound.tail (h : w.Sound c limits.receiver accepted delivered)
    (hlimits : limits.sender ≤ limits.receiver) (calls : List LatestCall)
    (hquiet : ∀ frame priority, .enqueue frame priority ∉ calls) :
    Sound c limits.receiver (run (LatestLink.step ε c limits) w calls) accepted
      (delivered ++ deliveredIn (trace (LatestLink.step ε c limits) w calls)) := by
  induction calls using List.reverseRecOn with
  | nil =>
    show Sound c limits.receiver w accepted (delivered ++ [])
    rw [List.append_nil]
    exact h
  | append_singleton calls call ih =>
    have hbefore := ih fun frame priority hmem =>
      hquiet frame priority (List.mem_append_left _ hmem)
    generalize hw : run (LatestLink.step ε c limits) w calls = before at hbefore
    have hnone : acceptedBy (event (LatestLink.step ε c limits) before call) = [] := by
      cases call with
      | enqueue frame priority => exact absurd (by simp) (hquiet frame priority)
      | flush => rfl
      | poll maxDrain clock => rfl
    have hrising (flow : RealtimeFlowId) : (onFlow flow (accepted ++ acceptedBy
        (event (LatestLink.step ε c limits) before call))).Pairwise
          fun a b => a.sequence < b.sequence := by
      rw [hnone, List.append_nil]
      exact h.rising flow
    obtain ⟨hafter, -⟩ := hbefore.step hlimits call
      (fun frame priority heq => absurd (by simp [heq]) (hquiet frame priority)) hrising
    rw [hnone, List.append_nil] at hafter
    rw [run_concat, trace_concat, deliveredIn_concat, hw, ← List.append_assoc]
    exact hafter

include hlive in
/-- So many polls hand out everything that has left the sender. -/
theorem Sound.polls_live (maxDrain : ℕ) (clock : ℕ → ℕ) (n : ℕ)
    (h : w.Sound c limits.receiver accepted delivered)
    (hlimits : limits.sender ≤ limits.receiver) (hs : live w.connection) (hn : backlog c w ≤ n) :
    (run (LatestLink.step ε c limits) w
        (List.replicate n (.poll (maxDrain+1) clock))).sender = w.sender ∧
      backlog c (run (LatestLink.step ε c limits) w
        (List.replicate n (.poll (maxDrain+1) clock))) = 0 := by
  induction n generalizing w delivered with
  | zero => exact ⟨rfl, Nat.le_zero.mp hn⟩
  | succ n ih =>
    rw [List.replicate_succ, run_cons]
    obtain ⟨hs', hsender, hless⟩ := h.poll_live (ε := ε) hlive hs maxDrain clock
    have hpolled := h.tail (ε := ε) hlimits [.poll (maxDrain+1) clock] (by simp)
    obtain ⟨hsame, hnone⟩ := ih hpolled hs' (by
      show backlog c (w.step ε c limits (.poll (maxDrain+1) clock)).2 ≤ n
      omega)
    exact ⟨hsame.trans hsender, hnone⟩

theorem underWay_nil (hsender : w.sender.pendingCount = 0) (hbacklog : backlog c w = 0)
    (flow : RealtimeFlowId) : underWay c w flow = [] := by
  unfold backlog at hbacklog
  have hlane : c.lane w.connection = [] := List.eq_nil_of_length_eq_zero (by omega)
  have hwaiting : w.sender.waiting flow = none := by
    unfold ReliableLatestSender.pendingCount at hsender
    rw [sumBy_eq_zero_iff] at hsender
    unfold ReliableLatestSender.waiting
    cases hframe : w.sender.pending[flow]? with
    | none => rfl
    | some frame =>
      have hnot := hsender flow frame hframe
      rw [Option.bind_some]
      split at hnot
      · cases hnot
      next hpending => exact if_neg hpending
  have hreceiver : w.receiver.pending[flow]? = none := by
    cases hpending : w.receiver.pending[flow]? with
    | none => rfl
    | some received =>
      have hsize := size_erase_add_one w.receiver.pending hpending
      omega
  unfold underWay
  rw [hlane, hwaiting, hreceiver]
  rfl

/-- Where the connection serves from then on, and the receiver takes frames of every size that the
sender does, one flush and enough polls bring the newest frame of every flow: the last one that is
delivered on it is the last one that was accepted. -/
theorem newest_frame_arrives (c : ReliableLane σ) (limits : LatestLimits)
    (hlimits : limits.sender ≤ limits.receiver) (s : σ) (hempty : c.lane s = [])
    (calls : List LatestCall)
    (hsent : WellSent calls (trace (LatestLink.step ε c limits) (start s) calls))
    (hlive : ServesFrom c live)
    (hnow : live (run (LatestLink.step ε c limits) (start s) calls).connection)
    (maxDrain : ℕ) (clock : ℕ → ℕ) :
    ∃ n, ∀ flow, (onFlow flow (deliveredIn (trace (LatestLink.step ε c limits) (start s)
        (calls ++ .flush :: List.replicate n (.poll (maxDrain+1) clock))))).getLast? =
      (onFlow flow
        (acceptedIn (trace (LatestLink.step ε c limits) (start s) calls))).getLast? := by
  obtain ⟨hsound, -⟩ := sound_run hlimits hempty calls hsent
  generalize hw : run (LatestLink.step ε c limits) (start s) calls = w at hsound hnow
  obtain ⟨r, s', hflush, hwaits, hs'⟩ := flushRounds_empties (ε := ε) hlive w.sender.pending.size
    w.sender w.connection hnow (pendingCount_le_size w.sender)
  have hstep : (w.step ε c limits .flush).2 = ⟨r, w.receiver, s'⟩ := by
    unfold LatestLink.step ReliableLatestSender.flush
    dsimp only
    rw [hflush]
  have hflushed := hsound.tail (ε := ε) hlimits [.flush] (by simp)
  rw [run_cons, run_nil, hstep] at hflushed
  refine ⟨backlog c ⟨r, w.receiver, s'⟩, fun flow => ?_⟩
  obtain ⟨hsender, hbacklog⟩ :=
    hflushed.polls_live (ε := ε) hlive maxDrain clock _ hlimits hs' (le_refl _)
  have hall := hsound.tail (ε := ε) hlimits (.flush ::
    List.replicate (backlog c ⟨r, w.receiver, s'⟩) (.poll (maxDrain+1) clock)) (by simp)
  rw [run_cons, hstep] at hall
  have hcurrent := hall.current flow
  rw [underWay_nil (by rw [hsender]; exact hwaits) hbacklog, List.append_nil] at hcurrent
  rw [trace_append, deliveredIn_append, hw]
  exact hcurrent.newest

end Live

section Examples

/-- A lane that always has room. -/
def pipe : ReliableLane (List Bytes) where
  maxDatagramPayload _ := none
  trySendLatest s _ := (.ok .unsupported, s)
  sendControl s _ := (.ok (), s)
  receiveControl s := (.ok none, s)
  trySend s wire := (.ok (), s ++ [wire])
  tryReceive s := match s with
    | [] => (.error ⟨.wouldBlock, "no message is ready"⟩, [])
    | wire :: wires => (.ok (some wire), wires)
  tryReceiveRealtime s := (.ok none, s)
  lane s := s
  send_ok _ _ _ := rfl
  send_error _ _ _ h := by cases h
  receive_some s wire h := by
    cases s with
    | nil => cases h
    | cons head rest => rw [Option.some.inj (Except.ok.inj h)]
  receive_none s h := by
    cases s with
    | nil => rfl
    | cons head rest => exact absurd rfl (h head)

theorem pipe_serves : ServesFrom pipe fun _ => True where
  sends _ _ _ := rfl
  sent _ _ _ := trivial
  receives s _ h := by
    cases s with
    | nil => exact absurd rfl h
    | cons head rest => exact ⟨head, rfl⟩
  waits s _ h := by
    subst h
    exact .inr ⟨_, rfl, rfl⟩
  received _ _ := trivial

def frameAt (sequence : UInt64) : LatestFrame := ⟨coreResultFlow, 1, sequence, [7]⟩

/-- The receiver takes larger frames than the sender. -/
def pipeLimits : LatestLimits := ⟨64, 128⟩

/-- The first frame is replaced before it leaves, the second one where it arrives. -/
def latestCalls : List LatestCall := [.enqueue (frameAt 1) .high, .enqueue (frameAt 2) .high,
  .flush, .enqueue (frameAt 3) .high, .flush, .poll 8 fun _ => 0, .enqueue (frameAt 4) .high]

def latestEvents : List (LatestEvent (List Bytes) Unit) :=
  trace (LatestLink.step Unit pipe pipeLimits) (start []) latestCalls

def latestEnd : LatestLink (List Bytes) :=
  run (LatestLink.step Unit pipe pipeLimits) (start []) latestCalls

theorem latestCalls_sent : WellSent latestCalls latestEvents := by
  have haccepted : acceptedIn latestEvents = [frameAt 1, frameAt 2, frameAt 3, frameAt 4] := by
    decide +kernel
  refine ⟨?_, fun flow => ?_⟩
  · intro frame priority hmem
    simp only [latestCalls, List.mem_cons, LatestCall.enqueue.injEq, reduceCtorEq, false_or,
      or_false, List.not_mem_nil] at hmem
    rcases hmem with h | h | h | h <;> rw [h.1] <;> rfl
  · rw [haccepted]
    refine List.Pairwise.filter _ ?_
    decide

/-- Two frames were replaced, the third one was delivered and the last one waits. -/
theorem sample_newest_kept :
    Current (onFlow coreResultFlow (acceptedIn latestEvents)) [frameAt 3, frameAt 4] ∧
      latestEnd.receiver.staleDiscarded = 0 ∧
      ∃ a b, latestEnd.sender.replacements = min a counterMax ∧
        latestEnd.receiver.replacements = min b counterMax ∧ a+b = 2 := by
  obtain ⟨hcurrent, -, hstale, a, b, ha, hb, htotal⟩ :=
    newest_frame_is_never_lost pipe pipeLimits (by decide) [] rfl latestCalls latestCalls_sent
  have hnumbers : (acceptedIn latestEvents).length = 4 ∧ (deliveredIn latestEvents).length = 1 ∧
      latestEnd.receiver.pending.size = 0 ∧ (pipe.lane latestEnd.connection).length = 0 ∧
      latestEnd.sender.pendingCount = 1 := by decide +kernel
  have hleft : onFlow coreResultFlow (deliveredIn latestEvents) ++
      underWay pipe latestEnd coreResultFlow = [frameAt 3, frameAt 4] := by decide +kernel
  refine ⟨?_, hstale, a, b, ha, hb, ?_⟩
  · rw [← hleft]
    exact hcurrent coreResultFlow
  · unfold latestEvents latestEnd at hnumbers
    omega

theorem sample_newest_arrives : ∃ n, (onFlow coreResultFlow (deliveredIn
    (trace (LatestLink.step Unit pipe pipeLimits) (start [])
      (latestCalls ++ .flush :: List.replicate n (.poll 1 fun _ => 0))))).getLast? =
        some (frameAt 4) := by
  obtain ⟨n, hn⟩ := newest_frame_arrives (ε := Unit) pipe pipeLimits (by decide) [] rfl latestCalls
    latestCalls_sent pipe_serves trivial 0 fun _ => 0
  refine ⟨n, (hn coreResultFlow).trans ?_⟩
  decide +kernel

-- A receiver that takes only smaller frames than its peer sends fails on them.
example :
    ((run (LatestLink.step Unit pipe ⟨64, 23⟩) (start []) [.enqueue (frameAt 1) .high,
      .flush]).step Unit pipe ⟨64, 23⟩ (.poll 1 fun _ => 0)).1 =
        .polled (.error .invalidFragment) := by rfl

end Examples

end LatestLink

end MutsukiLink.Ntp
