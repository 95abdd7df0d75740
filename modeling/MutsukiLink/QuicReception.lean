import MutsukiLink.QuicHandover

/-! What a QUIC connection tells its caller over a whole run: the events of its path, and what
becomes of the datagrams that its reader task has queued. -/
namespace MutsukiLink
open Std WireBytes RunHistory
open RealtimeSendQueue (saturatingAdd_min)

/-! ### The events retell the telemetry -/

/-- What the telemetry says about the path and the session. -/
structure PathTotals where
  maxPayload : ℕ
  currentDatagramPayload : Option ℕ
  maxDatagramPayload : ℕ
  mtuChangeCount : ℕ
  migrationCount : ℕ
  reconnectCount : ℕ

def RealtimeEvent.isPayloadChange : RealtimeEvent → Bool
  | .datagramPayloadChanged .. => true
  | .pathMigrated | .sessionReset => false

namespace PathTotals

/-- The totals once a caller has seen the event. -/
def apply (t : PathTotals) : RealtimeEvent → PathTotals
  | .datagramPayloadChanged _ current => { t with
    maxPayload := current, currentDatagramPayload := some current
    maxDatagramPayload := max t.maxDatagramPayload current
    mtuChangeCount := saturatingAdd t.mtuChangeCount 1 }
  | .pathMigrated => { t with migrationCount := saturatingAdd t.migrationCount 1 }
  | .sessionReset => { t with reconnectCount := saturatingAdd t.reconnectCount 1 }

/-- A change starts from the limit before and leads to another one that is not zero. -/
def Allows (t : PathTotals) : RealtimeEvent → Prop
  | .datagramPayloadChanged previous current =>
    previous = t.maxPayload ∧ current ≠ previous ∧ 0 < current
  | .pathMigrated | .sessionReset => True

/-- The events lead, one after the other, from some totals to others. -/
inductive Replays : PathTotals → List RealtimeEvent → PathTotals → Prop
  | nil (t : PathTotals) : Replays t [] t
  | cons {t t' : PathTotals} {e : RealtimeEvent} {es : List RealtimeEvent} (hallows : t.Allows e)
      (hrest : Replays (t.apply e) es t') : Replays t (e :: es) t'

namespace Replays
variable {t t' t'' : PathTotals} {es fs : List RealtimeEvent}

theorem append (h : Replays t es t') (h' : Replays t' fs t'') : Replays t (es ++ fs) t'' := by
  induction h with
  | nil => exact h'
  | cons hallows _ ih => exact .cons hallows (ih h')

theorem single {e : RealtimeEvent} (h : t.Allows e) : Replays t [e] (t.apply e) :=
  .cons h (.nil _)

/-- A counter that one kind of event adds to counts these, up to its maximum. -/
theorem counts (f : PathTotals → ℕ) (kind : RealtimeEvent → Bool)
    (hadds : ∀ t e, f (t.apply e) = if kind e then saturatingAdd (f t) 1 else f t)
    (h : Replays t es t') (n : ℕ) (hn : f t = min n RealtimeSendQueue.counterMax) :
    f t' = min (n+es.countP kind) RealtimeSendQueue.counterMax := by
  induction h generalizing n with
  | nil => exact hn
  | @cons t t' e es hallows hrest ih =>
    cases hkind : kind e with
    | false =>
      rw [List.countP_cons_of_neg (by simp [hkind])]
      exact ih n ((hadds t e).trans (by rw [hkind]; exact hn))
    | true =>
      have hnext : f (t.apply e) = min (n+1) RealtimeSendQueue.counterMax := by
        rw [hadds, hkind, if_pos rfl, hn, saturatingAdd_min]
      rw [ih (n+1) hnext, List.countP_cons_of_pos hkind, Nat.add_assoc, Nat.add_comm 1]

end Replays
end PathTotals

namespace RealtimeSendQueue

def pathTotals (q : RealtimeSendQueue) : PathTotals where
  maxPayload := q.maxPayload
  currentDatagramPayload := q.telemetry.currentDatagramPayload
  maxDatagramPayload := q.telemetry.maxDatagramPayload
  mtuChangeCount := q.telemetry.mtuChangeCount
  migrationCount := q.telemetry.migrationCount
  reconnectCount := q.telemetry.reconnectCount

theorem pathTotals_of_steady {q q' : RealtimeSendQueue} (h : q'.steady = q.steady) :
    q'.pathTotals = q.pathTotals :=
  congrArg (fun s : ℕ × RealtimeTelemetry => (⟨s.1, s.2.currentDatagramPayload,
    s.2.maxDatagramPayload, s.2.mtuChangeCount, s.2.migrationCount, s.2.reconnectCount⟩ :
      PathTotals)) h

/-- Another limit changes the totals as its event says. -/
theorem setMaxPayload_totals (q : RealtimeSendQueue) {maxPayload : ℕ} (hpos : maxPayload ≠ 0)
    (hother : maxPayload ≠ q.maxPayload) :
    (q.setMaxPayload maxPayload).2.pathTotals =
      q.pathTotals.apply (.datagramPayloadChanged q.maxPayload maxPayload) := by
  unfold setMaxPayload
  rw [if_neg hpos, if_neg hother]
  dsimp only
  split
  · exact pathTotals_of_steady (q := { q with maxPayload, telemetry := _ })
      (dropFlowGroups_steady ..)
  · rfl

end RealtimeSendQueue

namespace QuicConnection

/-- The connection has only added events, and these lead from its totals to the new ones. What has
been received is the same. -/
structure Tells (c c' : QuicConnection) : Prop where
  events : ∃ es, c'.realtimeEvents = c.realtimeEvents ++ es ∧
    PathTotals.Replays c.realtimeSend.pathTotals es c'.realtimeSend.pathTotals
  receive : c'.datagramReceive = c.datagramReceive

namespace Tells
variable {c c' c'' : QuicConnection}

theorem trans (h : c.Tells c') (h' : c'.Tells c'') : c.Tells c'' := by
  obtain ⟨es, hes, hreplays⟩ := h.events
  obtain ⟨fs, hfs, hreplays'⟩ := h'.events
  refine ⟨⟨es ++ fs, ?_, hreplays.append hreplays'⟩, h'.receive.trans h.receive⟩
  rw [hfs, hes, List.append_assoc]

/-- Without an event the totals are the same. -/
theorem quiet (hevents : c'.realtimeEvents = c.realtimeEvents)
    (htotals : c'.realtimeSend.pathTotals = c.realtimeSend.pathTotals)
    (hreceive : c'.datagramReceive = c.datagramReceive) : c.Tells c' :=
  ⟨⟨[], by rw [hevents, List.append_nil], htotals ▸ .nil _⟩, hreceive⟩

theorem refl (c : QuicConnection) : c.Tells c := quiet rfl rfl rfl

/-- One event, with the change of the totals that it stands for. -/
theorem event {e : RealtimeEvent} (hallows : c.realtimeSend.pathTotals.Allows e)
    (hevents : c'.realtimeEvents = c.realtimeEvents ++ [e])
    (htotals : c'.realtimeSend.pathTotals = c.realtimeSend.pathTotals.apply e)
    (hreceive : c'.datagramReceive = c.datagramReceive) : c.Tells c' :=
  ⟨⟨[e], hevents, htotals ▸ .single hallows⟩, hreceive⟩

end Tells

theorem refreshAddress_tells (c : QuicConnection) (path : QuicPath) :
    c.Tells (c.refreshAddress path) := by
  unfold refreshAddress
  split
  · exact .event (e := .pathMigrated) trivial rfl rfl rfl
  · exact .refl c

theorem refreshRealtimeState_tells (c : QuicConnection) (path : QuicPath) :
    c.Tells (c.refreshRealtimeState path).2 := by
  unfold refreshRealtimeState
  split
  · exact .refl c
  dsimp only
  split
  · exact .refl c
  next hpos =>
  obtain ⟨hreply, -⟩ := c.realtimeSend.setMaxPayload_spec hpos
  generalize hset : c.realtimeSend.setMaxPayload (c.currentRealtimePayloadLimit path) = r at hreply
  obtain ⟨reply, q⟩ := r
  obtain rfl : reply = _ := hreply
  simp only [decide_eq_true_eq]
  -- The limit first, then the address; the metrics tell nothing.
  have hfirst : c.Tells (if c.currentRealtimePayloadLimit path ≠ c.realtimeSend.maxPayload then
      { c with realtimeSend := q }.pushEvent (.datagramPayloadChanged c.realtimeSend.maxPayload
        (c.currentRealtimePayloadLimit path))
      else { c with realtimeSend := q }) := by
    split
    · next hother =>
      have htotals := c.realtimeSend.setMaxPayload_totals hpos hother
      rw [hset] at htotals
      exact .event (e := .datagramPayloadChanged _ _) ⟨rfl, hother, Nat.pos_of_ne_zero hpos⟩ rfl
        htotals rfl
    · next hsame =>
      have hq : q = c.realtimeSend := by
        unfold RealtimeSendQueue.setMaxPayload at hset
        rw [if_neg hpos, if_pos (not_not.mp hsame)] at hset
        exact (congrArg Prod.snd hset).symm
      rw [hq]
      exact .refl c
  exact (hfirst.trans (refreshAddress_tells _ path)).trans (.quiet rfl rfl rfl)

theorem pollLoop_tells (path : QuicPath) (now look sent : ℕ) (c : QuicConnection) :
    c.Tells (pollLoop path now look sent c).2 := by
  have hpopped {c : QuicConnection} {q : RealtimeSendQueue} {look : ℕ}
      {o : Option QueuedRealtimeDatagram}
      (hpop : c.realtimeSend.popNextFitting now (path.bufferSpace look) = (o, q)) :
      q.steady = c.realtimeSend.steady := by
    rw [← RealtimeSendQueue.popNextFitting_steady c.realtimeSend now (path.bufferSpace look), hpop]
  have hdropped {q q' : RealtimeSendQueue} {n : ℕ}
      (hdrop : q.noteTransportCongestion.dropDisposableForCongestion = (n, q')) :
      q'.pathTotals = q.pathTotals := by
    have hsteady := RealtimeSendQueue.dropFlowGroups_steady q.noteTransportCongestion
      (q.noteTransportCongestion.flowsWhere fun group => group.priority = .disposable) .congested
    rw [show (q.noteTransportCongestion.dropFlowGroups _ _).2 = q' from congrArg Prod.snd hdrop]
      at hsteady
    have hnoted : q.noteTransportCongestion.pathTotals = q.pathTotals := rfl
    exact (RealtimeSendQueue.pathTotals_of_steady hsteady).trans hnoted
  fun_induction pollLoop path now look sent c with
  | case1 look sent c hsent => exact .refl c
  | case2 look sent c hsent d q hpop c' e hwire | case3 look sent c hsent d q hpop c' =>
    exact .quiet rfl (RealtimeSendQueue.pathTotals_of_steady (hpopped hpop)) rfl
  | case4 look sent c hsent d q hpop c' wire hwire hsend ih =>
    have hsame := RealtimeSendQueue.pathTotals_of_steady (hpopped hpop)
    have hnoted : (q.noteSent d).pathTotals = c.realtimeSend.pathTotals := hsame
    have hstep : c.Tells { c' with
        handed := c'.handed ++ [wire], realtimeSend := q.noteSent d } := .quiet rfl hnoted rfl
    exact hstep.trans ih
  | case5 look sent c hsent q hpop hpending n q' hdrop hn ih =>
    have hsame := RealtimeSendQueue.pathTotals_of_steady (hpopped hpop)
    have hstep : c.Tells { c with realtimeSend := q' } :=
      .quiet rfl ((hdropped hdrop).trans hsame) rfl
    exact hstep.trans ih
  | case6 look sent c hsent q hpop hpending n q' hdrop hn =>
    have hsame := RealtimeSendQueue.pathTotals_of_steady (hpopped hpop)
    exact .quiet rfl ((hdropped hdrop).trans hsame) rfl
  | case7 look sent c hsent q hpop hpending =>
    exact .quiet rfl (RealtimeSendQueue.pathTotals_of_steady (hpopped hpop)) rfl

theorem pollRealtime_tells (c : QuicConnection) (path : QuicPath) (now : ℕ) :
    c.Tells (c.pollRealtime path now).2 := by
  unfold pollRealtime
  have hrefresh := c.refreshRealtimeState_tells path
  split
  · exact .refl c
  · split
    · next heq => rwa [heq] at hrefresh
    · next c' heq =>
      rw [heq] at hrefresh
      exact hrefresh.trans (pollLoop_tells path now 0 0 c')

theorem trySendLatest_tells (c : QuicConnection) (d : RealtimeDatagram) (path path' : QuicPath)
    (now : ℕ) : c.Tells (c.trySendLatest d path path' now).2 := by
  unfold trySendLatest
  have hrefresh := c.refreshRealtimeState_tells path
  split
  · exact .refl c
  split
  · next heq => rwa [heq] at hrefresh
  next c' heq =>
  rw [heq] at hrefresh
  have henqueue := RealtimeSendQueue.pathTotals_of_steady (c'.realtimeSend.enqueue_steady d now)
  dsimp only
  split
  · next e q hoffer =>
    rw [hoffer] at henqueue
    exact hrefresh.trans (.quiet rfl henqueue rfl)
  next outcome q hoffer =>
  rw [hoffer] at henqueue
  have hoffered : c.Tells { c' with realtimeSend := q } := hrefresh.trans (.quiet rfl henqueue rfl)
  have hpoll := pollRealtime_tells { c' with realtimeSend := q } path' now
  split
  · next heq => exact hoffered.trans (by rwa [heq] at hpoll)
  · next heq => exact hoffered.trans (by rwa [heq] at hpoll)

theorem popRawDatagram_events (c : QuicConnection) (endsMeanwhile : Bool) :
    ∃ es, (c.popRawDatagram endsMeanwhile).2.realtimeEvents = c.realtimeEvents ++ es ∧
      PathTotals.Replays c.realtimeSend.pathTotals es
        (c.popRawDatagram endsMeanwhile).2.realtimeSend.pathTotals := by
  refine ⟨[], ?_, ?_⟩
  · unfold popRawDatagram
    rw [List.append_nil]
    split
    · rfl
    · split <;> rfl
  · rw [(c.popRawDatagram_untouched endsMeanwhile).queue]
    exact .nil _

end QuicConnection

/-! ### The account of the receive queue -/

/-- How a datagram has left the receive queue. -/
inductive ReceiveFate where
  | delivered | overflowed | cleared
deriving DecidableEq, Repr

/-- Those that have left in one way, in the order of their arrival. -/
def leftWith (fates : List (RawReceivedDatagram × ReceiveFate)) (fate : ReceiveFate) :
    List RawReceivedDatagram :=
  (fates.filter fun p => p.2 = fate).map Prod.fst

theorem leftWith_concat (fates : List (RawReceivedDatagram × ReceiveFate))
    (d : RawReceivedDatagram) (fate met : ReceiveFate) :
    leftWith (fates ++ [(d, met)]) fate =
      leftWith fates fate ++ if met = fate then [d] else [] := by
  by_cases hmet : met = fate <;> simp [leftWith, List.filter_append, hmet]

theorem leftWith_append (fates fates' : List (RawReceivedDatagram × ReceiveFate))
    (fate : ReceiveFate) :
    leftWith (fates ++ fates') fate = leftWith fates fate ++ leftWith fates' fate := by
  simp [leftWith, List.filter_append]

theorem leftWith_cleared (fates : List (RawReceivedDatagram × ReceiveFate))
    (queue : List RawReceivedDatagram) {fate : ReceiveFate} (h : fate ≠ .cleared) :
    leftWith (fates ++ queue.map fun d => (d, .cleared)) fate = leftWith fates fate := by
  simp [leftWith, List.filter_append, List.filter_map, Function.comp_def, h.symm]

/-- The datagrams that name a flow. -/
def namedFlow (flow : RealtimeFlowId) (ds : List RawReceivedDatagram) : List RawReceivedDatagram :=
  ds.filter fun d => realtimeFlowFromWire d.payload = some flow

theorem namedFlow_concat (flow : RealtimeFlowId) (ds : List RawReceivedDatagram)
    (d : RawReceivedDatagram) : namedFlow flow (ds ++ [d]) =
      namedFlow flow ds ++ if realtimeFlowFromWire d.payload = some flow then [d] else [] := by
  by_cases hflow : realtimeFlowFromWire d.payload = some flow <;>
    simp [namedFlow, List.filter_append, hflow]

/-- What the counters of a flow show for what has arrived and what was pushed out. -/
def ReceiveFlowStats.shown (flow : RealtimeFlowId) (arrived overflowed : List RawReceivedDatagram) :
    ReceiveFlowStats where
  received := min (namedFlow flow arrived).length RealtimeSendQueue.counterMax
  receivedBytes := min ((namedFlow flow arrived).map fun d =>
    d.payload.length-realtimeDatagramHeaderLen).sum RealtimeSendQueue.counterMax
  receiveQueueOverflow := min (namedFlow flow overflowed).length RealtimeSendQueue.counterMax

/-- Everything that has arrived has left or waits, in this order, and the counters show what has
arrived and what was pushed out. -/
structure ReceiveAccount (capacity : ℕ) (arrived : List RawReceivedDatagram)
    (fates : List (RawReceivedDatagram × ReceiveFate)) (s : DatagramReceiveState) : Prop where
  arrived_eq : arrived = fates.map Prod.fst ++ s.queue
  capacity_eq : s.capacity = capacity
  few : s.queue.length ≤ max capacity 1
  overflow_eq : s.overflow = min (leftWith fates .overflowed).length RealtimeSendQueue.counterMax
  stats_eq : ∀ flow : RealtimeFlowId, s.flowStats[flow]?.getD {} =
    .shown flow arrived (leftWith fates .overflowed)

namespace DatagramReceiveState

/-- What an arrival pushes out: the oldest datagram, if the queue is full. -/
def pushedOut (s : DatagramReceiveState) : List RawReceivedDatagram :=
  if s.capacity ≤ s.queue.length then s.queue.head?.toList else []

theorem note_stats (s : DatagramReceiveState) (payload : Bytes)
    (stats : ReceiveFlowStats → ReceiveFlowStats) (flow : RealtimeFlowId) :
    (s.note payload stats).flowStats[flow]?.getD {} =
      if realtimeFlowFromWire payload = some flow then stats (s.flowStats[flow]?.getD {})
      else s.flowStats[flow]?.getD {} := by
  unfold note
  cases hflow : realtimeFlowFromWire payload with
  | none => simp
  | some named =>
    simp only [OrderedMap.lookup_insert, Option.some.injEq]
    by_cases hsame : named = flow
    · rw [if_pos hsame, if_pos hsame, hsame, Option.getD_some]
    · rw [if_neg hsame, if_neg hsame]

theorem note_fields (s : DatagramReceiveState) (payload : Bytes)
    (stats : ReceiveFlowStats → ReceiveFlowStats) :
    (s.note payload stats).queue = s.queue ∧ (s.note payload stats).capacity = s.capacity ∧
      (s.note payload stats).overflow = s.overflow := by
  unfold note
  split <;> exact ⟨rfl, rfl, rfl⟩

theorem makeRoom_cases (s : DatagramReceiveState) :
    (s.makeRoom = s ∧ (s.queue = [] ∨ s.queue.length < s.capacity)) ∨
      ∃ dropped rest, s.queue = dropped :: rest ∧ s.capacity ≤ s.queue.length ∧
        s.makeRoom = { s with queue := rest }.noteOverflow dropped.payload := by
  unfold makeRoom
  by_cases hfull : s.capacity ≤ s.queue.length
  · rw [if_pos hfull]
    split
    · next hqueue => exact .inl ⟨rfl, .inl hqueue⟩
    · next dropped rest hqueue => exact .inr ⟨dropped, rest, hqueue, hfull, rfl⟩
  · rw [if_neg hfull]
    exact .inl ⟨rfl, .inr (Nat.not_le.mp hfull)⟩

end DatagramReceiveState

namespace ReceiveFlowStats
variable (flow : RealtimeFlowId) (arrived overflowed : List RawReceivedDatagram)
  (d : RawReceivedDatagram)

theorem shown_arrived : shown flow (arrived ++ [d]) overflowed =
    if realtimeFlowFromWire d.payload = some flow then
      { shown flow arrived overflowed with
        received := saturatingAdd (shown flow arrived overflowed).received 1
        receivedBytes := saturatingAdd (shown flow arrived overflowed).receivedBytes
          (d.payload.length-realtimeDatagramHeaderLen) }
    else shown flow arrived overflowed := by
  unfold shown
  rw [namedFlow_concat]
  split
  · rw [List.length_append, List.map_append, List.sum_append]
    simp only [List.length_singleton, List.map_singleton, List.sum_singleton, saturatingAdd_min]
  · rw [List.append_nil]

theorem shown_overflowed : shown flow arrived (overflowed ++ [d]) =
    if realtimeFlowFromWire d.payload = some flow then
      { shown flow arrived overflowed with
        receiveQueueOverflow :=
          saturatingAdd (shown flow arrived overflowed).receiveQueueOverflow 1 }
    else shown flow arrived overflowed := by
  unfold shown
  rw [namedFlow_concat]
  split
  · rw [List.length_append]
    simp only [List.length_singleton, saturatingAdd_min]
  · rw [List.append_nil]

end ReceiveFlowStats

namespace ReceiveAccount
variable {capacity : ℕ} {arrived : List RawReceivedDatagram}
  {fates : List (RawReceivedDatagram × ReceiveFate)} {s : DatagramReceiveState}

theorem new (capacity : ℕ) : ReceiveAccount capacity [] [] (.new capacity) where
  arrived_eq := rfl
  capacity_eq := rfl
  few := Nat.zero_le _
  overflow_eq := rfl
  stats_eq flow := by
    rw [show (DatagramReceiveState.new capacity).flowStats = ∅ from rfl, ExtTreeMap.getElem?_empty]
    rfl

theorem pop (h : ReceiveAccount capacity arrived fates s) {d : RawReceivedDatagram}
    {rest : List RawReceivedDatagram} (hqueue : s.queue = d :: rest) :
    ReceiveAccount capacity arrived (fates ++ [(d, .delivered)]) { s with queue := rest } where
  arrived_eq := by
    rw [h.arrived_eq, hqueue]
    simp
  capacity_eq := h.capacity_eq
  few := by
    have hfew := h.few
    rw [hqueue, List.length_cons] at hfew
    exact (Nat.le_succ _).trans hfew
  overflow_eq := by
    rw [leftWith_concat, if_neg (by decide), List.append_nil]
    exact h.overflow_eq
  stats_eq flow := by
    rw [leftWith_concat, if_neg (by decide), List.append_nil]
    exact h.stats_eq flow

theorem clear (h : ReceiveAccount capacity arrived fates s) :
    ReceiveAccount capacity arrived (fates ++ s.queue.map fun d => (d, .cleared)) s.clear where
  arrived_eq := by
    rw [h.arrived_eq]
    simp [DatagramReceiveState.clear, Function.comp_def]
  capacity_eq := h.capacity_eq
  few := Nat.zero_le _
  overflow_eq := by
    rw [leftWith_cleared _ _ (by decide)]
    exact h.overflow_eq
  stats_eq flow := by
    rw [leftWith_cleared _ _ (by decide)]
    exact h.stats_eq flow

/-- A datagram that arrives is noted, and where the queue is full the oldest one is pushed out. -/
theorem push (h : ReceiveAccount capacity arrived fates s) (payload : Bytes) (receivedAt : ℕ) :
    ReceiveAccount capacity (arrived ++ [⟨receivedAt, payload⟩])
      (fates ++ s.pushedOut.map fun d => (d, .overflowed)) (s.push payload receivedAt) := by
  obtain ⟨hqueue, hcapacity, hoverflow⟩ := s.note_fields payload fun stats => { stats with
    received := saturatingAdd stats.received 1
    receivedBytes := saturatingAdd stats.receivedBytes
      (payload.length-realtimeDatagramHeaderLen) }
  have hnoted (flow : RealtimeFlowId) : (s.noteReceived payload).flowStats[flow]?.getD {} =
      .shown flow (arrived ++ [⟨receivedAt, payload⟩]) (leftWith fates .overflowed) := by
    rw [DatagramReceiveState.noteReceived, DatagramReceiveState.note_stats, h.stats_eq,
      ReceiveFlowStats.shown_arrived]
  have hfew := h.few
  unfold DatagramReceiveState.push
  rw [← DatagramReceiveState.noteReceived] at hqueue hcapacity hoverflow
  generalize s.noteReceived payload = s₁ at hqueue hcapacity hoverflow hnoted
  rcases s₁.makeRoom_cases with ⟨hroom, hspace⟩ | ⟨dropped, rest, hfront, hfull, hroom⟩
  · have hnone : s.pushedOut = [] := by
      unfold DatagramReceiveState.pushedOut
      rw [← hqueue, ← hcapacity]
      rcases hspace with hempty | hless
      · simp [hempty]
      · rw [if_neg (Nat.not_le.mpr hless)]
    rw [hnone, List.map_nil, List.append_nil]
    simp only [hroom]
    refine ⟨?_, hcapacity.trans h.capacity_eq, ?_, ?_, hnoted⟩
    · rw [h.arrived_eq, hqueue, List.append_assoc]
    · rw [List.length_append, List.length_singleton]
      rcases hspace with hempty | hless
      · rw [hempty]
        exact Nat.le_max_right _ _
      · rw [hcapacity, h.capacity_eq] at hless
        exact hless.trans_le (Nat.le_max_left _ _)
    · exact hoverflow.trans h.overflow_eq
  · -- The oldest one goes, and the new one takes its place.
    have hone : s.pushedOut = [dropped] := by
      unfold DatagramReceiveState.pushedOut
      rw [← hqueue, ← hcapacity, if_pos hfull, hfront]
      rfl
    rw [hone, List.map_singleton]
    obtain ⟨hqueue', hcapacity', hoverflow'⟩ := DatagramReceiveState.note_fields
      { s₁ with queue := rest, overflow := saturatingAdd s₁.overflow 1 } dropped.payload
      fun stats => { stats with
        receiveQueueOverflow := saturatingAdd stats.receiveQueueOverflow 1 }
    have hlost : leftWith (fates ++ [(dropped, .overflowed)]) .overflowed =
        leftWith fates .overflowed ++ [dropped] := by rw [leftWith_concat, if_pos rfl]
    rw [hqueue] at hfront
    rw [hfront, List.length_cons] at hfew
    simp only [hroom, DatagramReceiveState.noteOverflow]
    refine ⟨?_, (hcapacity'.trans hcapacity).trans h.capacity_eq, ?_, ?_, fun flow => ?_⟩
    · rw [hqueue', h.arrived_eq, hfront]
      simp
    · rw [hqueue', List.length_append, List.length_singleton]
      exact hfew
    · rw [hoverflow', hlost, List.length_append, List.length_singleton]
      have hsum := saturatingAdd_min (leftWith fates .overflowed).length 1
      rwa [← h.overflow_eq, ← hoverflow] at hsum
    · rw [hlost, ReceiveFlowStats.shown_overflowed, ← hnoted]
      exact DatagramReceiveState.note_stats _ _ _ _

end ReceiveAccount

/-! ### Both over a run -/

def DatagramCall.arrival : DatagramCall → Option RawReceivedDatagram
  | .arrive payload receivedAt => some ⟨receivedAt, payload⟩
  | _ => none

/-- The events that an answer hands to the caller. -/
def DatagramReply.told : DatagramReply → List RealtimeEvent
  | .events es => es
  | _ => []

/-- The answers for which a datagram has left the receive queue. One that cannot be decoded has
left it too. -/
def DatagramReply.serves : DatagramReply → Bool
  | .raw (.ok _) | .realtime (.ok _) => true
  | .realtime (.error e) => e.kind = .other
  | _ => false

/-- What the caller gets for a datagram. -/
inductive Answers : DatagramCall → DatagramReply → RawReceivedDatagram → Prop
  | raw (d : RawReceivedDatagram) (endsMeanwhile : Bool) :
    Answers (.tryReceiveDatagram endsMeanwhile) (.raw (.ok (some d.payload))) d
  | realtime (d : RawReceivedDatagram) (endsMeanwhile : Bool) :
    Answers (.tryReceiveRealtime endsMeanwhile)
      (.realtime ((decodeRealtimeDatagram d.payload d.receivedAt).map some)) d

theorem decodeRealtimeDatagram_kind {encoded : Bytes} {receivedAt : ℕ} {e : TransportError}
    (h : decodeRealtimeDatagram encoded receivedAt = .error e) : e.kind = .other := by
  unfold decodeRealtimeDatagram at h
  split at h
  · rw [← Except.error.inj h, invalidRealtime]
  split at h
  · rw [← Except.error.inj h, invalidRealtime]
  split at h
  · next heq =>
    rw [← Except.error.inj h]
    unfold RealtimePriority.fromCode at heq
    split at heq
    · cases heq
    · cases heq
    · cases heq
    · cases heq
    · rw [← Except.error.inj heq, invalidRealtime]
  · cases h

theorem Answers.serves {call : DatagramCall} {reply : DatagramReply} {d : RawReceivedDatagram}
    (h : Answers call reply d) : reply.serves = true := by
  cases h with
  | raw => rfl
  | realtime =>
    cases hdecode : decodeRealtimeDatagram d.payload d.receivedAt with
    | ok => rfl
    | error e => exact decide_eq_true (decodeRealtimeDatagram_kind hdecode)

namespace QuicConnection

/-- What one call tells and what it leaves in the queue of events. -/
theorem step_retells (c : QuicConnection) (call : DatagramCall) :
    ∃ es, (c.step call).1.told ++ (c.step call).2.realtimeEvents = c.realtimeEvents ++ es ∧
      PathTotals.Replays c.realtimeSend.pathTotals es (c.step call).2.realtimeSend.pathTotals := by
  have hquiet {c' : QuicConnection} (h : c.Tells c') := h.events
  cases call with
  | trySendLatest d path path' now => exact hquiet (c.trySendLatest_tells d path path' now)
  | pollRealtime path now => exact hquiet (c.pollRealtime_tells path now)
  | trySendDatagram message path =>
    simp only [QuicConnection.step, trySendDatagram, Prod.map_snd, id]
    split
    · exact hquiet (.refl c)
    · split
      · exact hquiet (.refl c)
      · split
        · exact hquiet (.refl c)
        · exact hquiet (.quiet rfl rfl rfl)
  | tryReceiveDatagram endsMeanwhile =>
    have hpop := c.popRawDatagram_events endsMeanwhile
    simp only [QuicConnection.step, tryReceiveDatagram, Prod.map_snd, id]
    split
    · exact hquiet (.refl c)
    · split
      · next heq => rw [heq] at hpop; exact hpop
      · next heq => rw [heq] at hpop; exact hpop
  | tryReceiveRealtime endsMeanwhile =>
    have hpop := c.popRawDatagram_events endsMeanwhile
    simp only [QuicConnection.step, tryReceiveRealtime, Prod.map_snd, id]
    split
    · exact hquiet (.refl c)
    · split
      · next heq => rw [heq] at hpop; exact hpop
      · next heq => rw [heq] at hpop; exact hpop
      · next heq => rw [heq] at hpop; exact hpop
  | takeRealtimeEvents => exact ⟨[], rfl, .nil _⟩
  | resetRealtimeSession => exact ⟨[.sessionReset], rfl, .single trivial⟩
  | closeWrite | abort | arrive | readerEnds =>
    exact ⟨[], (List.append_nil _).symm, .nil _⟩

/-- What a receive call does to the queue: nothing, or the oldest datagram leaves it. -/
theorem popRawDatagram_cases (c : QuicConnection) (endsMeanwhile : Bool) :
    (∃ e, e.kind ≠ .other ∧ c.datagramReceive.queue = [] ∧
        c.popRawDatagram endsMeanwhile = (.error e, c)) ∨
      ∃ d rest, c.datagramReceive.queue = d :: rest ∧ c.popRawDatagram endsMeanwhile =
        (.ok (some d), { c with datagramReceive := { c.datagramReceive with queue := rest } }) := by
  unfold popRawDatagram DatagramReceiveState.pop
  cases hqueue : c.datagramReceive.queue with
  | nil =>
    refine .inl ?_
    simp only
    split
    · exact ⟨_, by decide, trivial, rfl⟩
    · exact ⟨_, by decide, trivial, rfl⟩
  | cons d rest => exact .inr ⟨d, rest, rfl, rfl⟩

/-- What leaves the receive queue by a call, and how: a receive call takes the oldest datagram, an
arrival pushes the oldest one out of a full queue, and a reset of the session or an abort clears
everything. No other call takes anything away, `close_write` neither. -/
def leaves (e : Event QuicConnection DatagramCall DatagramReply) :
    List (RawReceivedDatagram × ReceiveFate) :=
  match e.input with
  | .tryReceiveDatagram _ | .tryReceiveRealtime _ =>
    if e.pre.datagramsEnabled then
      e.pre.datagramReceive.queue.head?.toList.map fun d => (d, .delivered)
    else []
  | .arrive .. => e.pre.datagramReceive.pushedOut.map fun d => (d, .overflowed)
  | .resetRealtimeSession | .abort => e.pre.datagramReceive.queue.map fun d => (d, .cleared)
  | _ => []

section Receive
variable {capacity : ℕ} {arrived : List RawReceivedDatagram}
  {fates : List (RawReceivedDatagram × ReceiveFate)} {c : QuicConnection}

variable (capacity arrived fates c) in
/-- The account after a call, and the datagram that the answer is about. -/
def Received (call : DatagramCall) : Prop :=
  ReceiveAccount capacity (arrived ++ call.arrival.toList)
    (fates ++ leaves (RunHistory.event step c call)) (c.step call).2.datagramReceive ∧
  ((c.step call).1.serves = false ∧
      leftWith (leaves (RunHistory.event step c call)) .delivered = [] ∨
    ∃ d, leftWith (leaves (RunHistory.event step c call)) .delivered = [d] ∧
      Answers call (c.step call).1 d)

/-- A call that leaves the queue alone. -/
theorem Received.same (h : ReceiveAccount capacity arrived fates c.datagramReceive)
    {call : DatagramCall} (harrival : call.arrival = none)
    (hleaves : leaves (RunHistory.event step c call) = [])
    (hreceive : (c.step call).2.datagramReceive = c.datagramReceive)
    (hserves : (c.step call).1.serves = false) : Received capacity arrived fates c call := by
  unfold Received
  rw [harrival, hleaves, hreceive]
  exact ⟨by simpa using h, .inl ⟨hserves, rfl⟩⟩

/-- A call that takes the oldest datagram. -/
theorem Received.taken (h : ReceiveAccount capacity arrived fates c.datagramReceive)
    {call : DatagramCall} {d : RawReceivedDatagram} {rest : List RawReceivedDatagram}
    (harrival : call.arrival = none) (hqueue : c.datagramReceive.queue = d :: rest)
    (hleaves : leaves (RunHistory.event step c call) = [(d, .delivered)])
    (hreceive : (c.step call).2.datagramReceive = { c.datagramReceive with queue := rest })
    (hanswers : Answers call (c.step call).1 d) : Received capacity arrived fates c call := by
  have hpopped := h.pop hqueue
  unfold Received
  rw [harrival, hleaves, hreceive]
  exact ⟨by simpa using hpopped, .inr ⟨d, rfl, hanswers⟩⟩

theorem step_receives (h : ReceiveAccount capacity arrived fates c.datagramReceive)
    (call : DatagramCall) : Received capacity arrived fates c call := by
  cases call with
  | trySendLatest d path path' now =>
    exact .same h rfl rfl (c.trySendLatest_tells d path path' now).receive rfl
  | pollRealtime path now => exact .same h rfl rfl (c.pollRealtime_tells path now).receive rfl
  | trySendDatagram message path =>
    refine .same h rfl rfl ?_ rfl
    simp only [QuicConnection.step, trySendDatagram, Prod.map_snd, id]
    split
    · rfl
    · split
      · rfl
      · split <;> rfl
  | takeRealtimeEvents | closeWrite | readerEnds => exact .same h rfl rfl rfl rfl
  | resetRealtimeSession | abort =>
    refine ⟨?_, .inl ⟨rfl, ?_⟩⟩
    · rw [show arrived ++ (DatagramCall.arrival _).toList = arrived from List.append_nil _]
      exact h.clear
    · exact leftWith_cleared [] c.datagramReceive.queue (by decide)
  | arrive payload receivedAt =>
    refine ⟨h.push payload receivedAt, .inl ⟨rfl, ?_⟩⟩
    simp [leaves, RunHistory.event, leftWith, List.filter_map, Function.comp_def]
  | tryReceiveDatagram endsMeanwhile =>
    by_cases henabled : c.datagramsEnabled = true
    · rcases c.popRawDatagram_cases endsMeanwhile with
        ⟨e, he, hempty, hpop⟩ | ⟨d, rest, hqueue, hpop⟩
      · exact .same h rfl (by simp [leaves, RunHistory.event, hempty])
          (by simp [QuicConnection.step, tryReceiveDatagram, henabled, hpop])
          (by simp [QuicConnection.step, tryReceiveDatagram, henabled, hpop, DatagramReply.serves])
      · exact .taken h rfl hqueue (by simp [leaves, RunHistory.event, henabled, hqueue])
          (by simp [QuicConnection.step, tryReceiveDatagram, henabled, hpop])
          (by simpa [QuicConnection.step, tryReceiveDatagram, henabled, hpop] using
            Answers.raw d endsMeanwhile)
    · exact .same h rfl (by simp [leaves, RunHistory.event, henabled])
        (by simp [QuicConnection.step, tryReceiveDatagram, henabled])
        (by simp [QuicConnection.step, tryReceiveDatagram, henabled, DatagramReply.serves])
  | tryReceiveRealtime endsMeanwhile =>
    by_cases henabled : c.datagramsEnabled = true
    · rcases c.popRawDatagram_cases endsMeanwhile with
        ⟨e, he, hempty, hpop⟩ | ⟨d, rest, hqueue, hpop⟩
      · exact .same h rfl (by simp [leaves, RunHistory.event, hempty])
          (by simp [QuicConnection.step, tryReceiveRealtime, henabled, hpop])
          (by simp [QuicConnection.step, tryReceiveRealtime, henabled, hpop, DatagramReply.serves,
            he])
      · exact .taken h rfl hqueue (by simp [leaves, RunHistory.event, henabled, hqueue])
          (by simp [QuicConnection.step, tryReceiveRealtime, henabled, hpop])
          (by simpa [QuicConnection.step, tryReceiveRealtime, henabled, hpop] using
            Answers.realtime d endsMeanwhile)
    · exact .same h rfl (by simp [leaves, RunHistory.event, henabled])
        (by simp [QuicConnection.step, tryReceiveRealtime, henabled])
        (by simp [QuicConnection.step, tryReceiveRealtime, henabled, DatagramReply.serves,
          unsupportedDatagram])

end Receive

section Run
variable {options : QuicOptions} {path₀ : QuicPath} {c₀ : QuicConnection}

/-- What has left the receive queue in a run, in the order in which it left. -/
def leftIn (c₀ : QuicConnection) (calls : List DatagramCall) :
    List (RawReceivedDatagram × ReceiveFate) :=
  (trace step c₀ calls).flatMap leaves

/-- Over a whole run the datagrams that the reader has queued are those that have left, by a receive
call, by an arrival at a full queue, or by a reset or an abort, and after them those that wait. The
deliveries come in the order of arrival, one for each answer, and the counters of the connection and
of each flow show what has arrived and what was pushed out. -/
theorem received_datagrams_add_up (h : make options path₀ = .ok c₀) (calls : List DatagramCall) :
    ReceiveAccount options.budget.receiveQueueCapacity (calls.filterMap DatagramCall.arrival)
      (leftIn c₀ calls) (run step c₀ calls).datagramReceive ∧
    List.Forall₂ (fun e d => Answers e.input e.reply d)
      ((trace step c₀ calls).filter fun e => e.reply.serves)
      (leftWith (leftIn c₀ calls) .delivered) := by
  unfold leftIn
  induction calls using List.reverseRecOn with
  | nil =>
    obtain ⟨-, -, -, -, -, hreceive⟩ := make_spec h
    refine ⟨?_, .nil⟩
    rw [run_nil, hreceive]
    exact .new _
  | append_singleton calls call ih =>
    obtain ⟨haccount, hanswers⟩ := ih
    obtain ⟨haccount', hreply⟩ := step_receives haccount call
    rw [trace_concat, List.flatMap_append, List.flatMap_singleton]
    refine ⟨?_, ?_⟩
    · rw [run_concat, List.filterMap_append]
      cases harrival : call.arrival <;> simpa [harrival] using haccount'
    · rw [List.filter_append, leftWith_append]
      rcases hreply with ⟨hfalse, hnone⟩ | ⟨d, hone, hanswer⟩
      · rw [hnone]
        simpa [RunHistory.event, hfalse] using hanswers
      · refine List.rel_append hanswers ?_
        rw [List.filter_singleton, show (RunHistory.event step _ call).reply.serves = true from
          hanswer.serves, cond_true, hone]
        exact .cons hanswer .nil

/-- All the events of a run: those that the caller has taken and those that still wait. -/
def eventsOf (c₀ : QuicConnection) (calls : List DatagramCall) : List RealtimeEvent :=
  (trace step c₀ calls).flatMap (fun e => e.reply.told) ++ (run step c₀ calls).realtimeEvents

/-- The events of a run retell what the telemetry says about the path: from the totals at the start
they lead, each change from the limit before, to the present totals, and the three counters count
them. -/
theorem events_retell_the_path (h : make options path₀ = .ok c₀) (calls : List DatagramCall) :
    PathTotals.Replays c₀.realtimeSend.pathTotals (eventsOf c₀ calls)
      (run step c₀ calls).realtimeSend.pathTotals ∧
    (run step c₀ calls).realtimeSend.telemetry.mtuChangeCount =
      min ((eventsOf c₀ calls).countP RealtimeEvent.isPayloadChange) (2^64-1) ∧
    (run step c₀ calls).realtimeSend.telemetry.migrationCount =
      min ((eventsOf c₀ calls).countP (· = .pathMigrated)) (2^64-1) ∧
    (run step c₀ calls).realtimeSend.telemetry.reconnectCount =
      min ((eventsOf c₀ calls).countP (· = .sessionReset)) (2^64-1) := by
  have hreplays : PathTotals.Replays c₀.realtimeSend.pathTotals (eventsOf c₀ calls)
      (run step c₀ calls).realtimeSend.pathTotals := by
    unfold eventsOf
    induction calls using List.reverseRecOn with
    | nil =>
      obtain ⟨-, -, -, hnone, -⟩ := make_spec h
      simp only [trace_nil, run_nil, List.flatMap_nil, List.nil_append, hnone]
      exact .nil _
    | append_singleton calls call ih =>
      obtain ⟨es, hes, hreplays⟩ := (run step c₀ calls).step_retells call
      rw [trace_concat, run_concat, List.flatMap_append, List.append_assoc,
        List.flatMap_singleton]
      show PathTotals.Replays _ (_ ++ (((run step c₀ calls).step call).1.told ++ _)) _
      rw [hes, ← List.append_assoc]
      exact ih.append hreplays
  obtain ⟨maxPayload, hnew, -⟩ := make_spec h
  have hzero : c₀.realtimeSend.telemetry.mtuChangeCount = 0 ∧
      c₀.realtimeSend.telemetry.migrationCount = 0 ∧
      c₀.realtimeSend.telemetry.reconnectCount = 0 := by
    unfold RealtimeSendQueue.new at hnew
    split at hnew
    · cases hnew
    · rw [← Except.ok.inj hnew]
      exact ⟨rfl, rfl, rfl⟩
  refine ⟨hreplays, ?_, ?_, ?_⟩
  · have hcounts := hreplays.counts PathTotals.mtuChangeCount RealtimeEvent.isPayloadChange
      (fun t e => by cases e <;> rfl) 0 hzero.1
    rwa [Nat.zero_add] at hcounts
  · have hcounts := hreplays.counts PathTotals.migrationCount (· = .pathMigrated)
      (fun t e => by cases e <;> rfl) 0 hzero.2.1
    rwa [Nat.zero_add] at hcounts
  · have hcounts := hreplays.counts PathTotals.reconnectCount (· = .sessionReset)
      (fun t e => by cases e <;> rfl) 0 hzero.2.2
    rwa [Nat.zero_add] at hcounts

end Run

end QuicConnection

namespace Sample

/-- The queue takes one datagram. The second pushes the first out, the third waits when the session
is reset and the fourth when only the writing side is closed. -/
def receiveOptions : QuicOptions where
  budget := { receiveQueueCapacity := 1 }
  realtimeQueue := ⟨2, 8, 64⟩

def smallReceiver : QuicConnection := { quicConnection with datagramReceive := .new 1 }

theorem smallReceiver_make :
    QuicConnection.make receiveOptions (quicPath 0) = .ok smallReceiver := rfl

def receiveCalls : List DatagramCall :=
  [.arrive [1] 5, .arrive [2] 6, .tryReceiveDatagram false, .arrive [3] 7, .resetRealtimeSession,
    .arrive [4] 8, .closeWrite]

/-- A path that has become narrower, and one with another address. -/
def narrowPath : QuicPath := { quicPath 0 with maxDatagramSize := some 600 }

def movedPath : QuicPath := { narrowPath with remoteAddress := ⟨[127, 0, 0, 1], 9001⟩ }

def pathCalls : List DatagramCall :=
  [.pollRealtime narrowPath 1, .takeRealtimeEvents, .resetRealtimeSession,
    .pollRealtime movedPath 2]

end Sample

namespace QuicConnection
open Sample

theorem sample_received_add_up :
    leftIn smallReceiver receiveCalls =
      [(⟨5, [1]⟩, .overflowed), (⟨6, [2]⟩, .delivered), (⟨7, [3]⟩, .cleared)] ∧
    ReceiveAccount 1 [⟨5, [1]⟩, ⟨6, [2]⟩, ⟨7, [3]⟩, ⟨8, [4]⟩] (leftIn smallReceiver receiveCalls)
      (run step smallReceiver receiveCalls).datagramReceive ∧
    List.Forall₂ (fun e d => Answers e.input e.reply d)
      ((trace step smallReceiver receiveCalls).filter fun e => e.reply.serves) [⟨6, [2]⟩] := by
  have hleft : leftIn smallReceiver receiveCalls =
      [(⟨5, [1]⟩, .overflowed), (⟨6, [2]⟩, .delivered), (⟨7, [3]⟩, .cleared)] := by
    decide +kernel
  obtain ⟨haccount, hanswers⟩ := received_datagrams_add_up smallReceiver_make receiveCalls
  refine ⟨hleft, haccount, ?_⟩
  rwa [hleft] at hanswers

theorem sample_events_retell :
    eventsOf quicConnection pathCalls =
      [.datagramPayloadChanged 1180 580, .sessionReset, .pathMigrated] ∧
    PathTotals.Replays quicConnection.realtimeSend.pathTotals (eventsOf quicConnection pathCalls)
      (run step quicConnection pathCalls).realtimeSend.pathTotals ∧
    (run step quicConnection pathCalls).realtimeSend.telemetry.mtuChangeCount = 1 ∧
    (run step quicConnection pathCalls).realtimeSend.telemetry.migrationCount = 1 ∧
    (run step quicConnection pathCalls).realtimeSend.telemetry.reconnectCount = 1 := by
  have hevents : eventsOf quicConnection pathCalls =
      [.datagramPayloadChanged 1180 580, .sessionReset, .pathMigrated] := by decide +kernel
  obtain ⟨hreplays, hmtu, hmigration, hreconnect⟩ :=
    events_retell_the_path quicConnection_make pathCalls
  rw [hevents] at hmtu hmigration hreconnect
  exact ⟨hevents, hreplays, hmtu, hmigration, hreconnect⟩

end QuicConnection

end MutsukiLink
