import MutsukiLink.RealtimeEvents
import MutsukiLink.RunHistory

/-! Runs of the send queue: every operation with its answer, and the events of a call. -/
namespace MutsukiLink
open Std WireBytes RunHistory

namespace RealtimeSendQueue

/-- The flow that `pop_next_fitting` pops, among groups that have not expired. -/
def nextFittingFlow (q : RealtimeSendQueue) (maxWireLen : ℕ) : Option RealtimeFlowId :=
  (q.groups.toList.map fun entry => entry.2.priority.rank).min?.bind fun priority =>
    ((q.groups.toList.filter fun entry =>
      entry.2.priority.rank = priority && headFits maxWireLen entry.2).argmin fun entry =>
        toLex (entry.2.insertionOrder.toNat, entry.1.val.toNat)).map Prod.fst

end RealtimeSendQueue

inductive QueueOp where
  | enqueue (datagram : RealtimeDatagram) (now : ℕ)
  | peekNextWireLen (now : ℕ)
  | popNext (now : ℕ)
  | popNextFitting (now maxWireLen : ℕ)
  | noteSent (datagram : QueuedRealtimeDatagram)
  | noteTransportCongestion
  | dropDisposableForCongestion
  | setMaxPayload (maxPayload : ℕ)
  | noteNetworkMetrics (rttUs : ℕ) (estimatedSendRateBps : Option ℕ)
      (transportCongestionEvents : ℕ)
  | noteMigration
  | resetForReconnect
  | clearPending

inductive QueueReply where
  | enqueued (result : Except TransportError SendOutcome)
  | wireLen (len : Option ℕ)
  | popped (datagram : Option QueuedRealtimeDatagram)
  | dropped (count : ℕ)
  | changed (result : Except TransportError Bool)
  | done

namespace RealtimeSendQueue

def step (q : RealtimeSendQueue) : QueueOp → QueueReply × RealtimeSendQueue
  | .enqueue datagram now => (q.enqueue datagram now).map .enqueued id
  | .peekNextWireLen now => (q.peekNextWireLen now).map .wireLen id
  | .popNext now => (q.popNext now).map .popped id
  | .popNextFitting now maxWireLen => (q.popNextFitting now maxWireLen).map .popped id
  | .noteSent datagram => (.done, q.noteSent datagram)
  | .noteTransportCongestion => (.done, q.noteTransportCongestion)
  | .dropDisposableForCongestion => q.dropDisposableForCongestion.map .dropped id
  | .setMaxPayload maxPayload => (q.setMaxPayload maxPayload).map .changed id
  | .noteNetworkMetrics rttUs rate events => (.done, q.noteNetworkMetrics rttUs rate events)
  | .noteMigration => (.done, q.noteMigration)
  | .resetForReconnect => (.done, q.resetForReconnect)
  | .clearPending => (.done, q.clearPending)

end RealtimeSendQueue

abbrev QueueRecord := Event RealtimeSendQueue QueueOp QueueReply

abbrev QueueHistory := List QueueRecord

namespace QueueOp

/-- The time of a pop. -/
def popTime : QueueOp → Option ℕ
  | .popNext now | .popNextFitting now _ => some now
  | _ => none

def clears : QueueOp → Bool
  | .resetForReconnect | .clearPending => true
  | _ => false

/-- The operations that neither put a datagram in, nor take one out, nor empty the queue. -/
def quiet : QueueOp → Bool
  | .enqueue .. | .popNext _ | .popNextFitting .. | .resetForReconnect | .clearPending => false
  | _ => true

/-- The flow that a pop serves once expired groups are gone. -/
def choice (q : RealtimeSendQueue) : QueueOp → Option RealtimeFlowId
  | .popNext _ => q.nextFlow
  | .popNextFitting _ maxWireLen => q.nextFittingFlow maxWireLen
  | _ => none

theorem popTime_of_quiet {op : QueueOp} (h : op.quiet = true ∨ op.clears = true) :
    op.popTime = none := by
  cases op <;> first | rfl | (rcases h with h | h <;> cases h)

end QueueOp

/-- The events of one call, and how they show in its answer. -/
inductive OpEvents (q : RealtimeSendQueue) : QueueOp → QueueReply → List QueueEvent → Prop
  | enqueue {d : RealtimeDatagram} {now : ℕ} {result : Except TransportError SendOutcome}
      {drops es : List QueueEvent} (hdrops : ∀ e ∈ drops, e.quiet = true)
      (hcase : EnqueueCase (q.expire now).2 d now result es) :
      OpEvents q (.enqueue d now) (.enqueued result) (drops ++ es)
  | missed {op : QueueOp} {now : ℕ} {drops : List QueueEvent} (hop : op.popTime = some now)
      (hdrops : ∀ e ∈ drops, e.quiet = true) (hchoice : op.choice (q.expire now).2 = none) :
      OpEvents q op (.popped none) drops
  | popped {op : QueueOp} {now : ℕ} {drops : List QueueEvent} {flow : RealtimeFlowId}
      {group : PendingGroup} {payload : Bytes} {rest : List Bytes}
      (hop : op.popTime = some now) (hdrops : ∀ e ∈ drops, e.quiet = true)
      (hchoice : op.choice (q.expire now).2 = some flow)
      (hgroup : (q.expire now).2.groups[flow]? = some group)
      (hpayload : group.datagrams = payload :: rest) :
      OpEvents q op (.popped (some (group.queued flow payload)))
        (drops ++ [.popped now flow group payload rest])
  | cleared {op : QueueOp} (hop : op.clears = true) :
      OpEvents q op .done [.cleared q.groups, .noted]
  | limited {maxPayload : ℕ} {reply : QueueReply} {drops : List QueueEvent}
      (hdrops : ∀ e ∈ drops, e.quiet = true) :
      OpEvents q (.setMaxPayload maxPayload) reply (.limited maxPayload :: drops)
  | quiet {op : QueueOp} {reply : QueueReply} {es : List QueueEvent} (hop : op.quiet = true)
      (hes : ∀ e ∈ es, e.quiet = true) : OpEvents q op reply es

namespace RealtimeSendQueue
variable {q : RealtimeSendQueue}

theorem nextFlow_mem {flow : RealtimeFlowId} (h : q.nextFlow = some flow) :
    ∃ group, q.groups[flow]? = some group := by
  obtain ⟨⟨f, group⟩, hmin, rfl⟩ := Option.map_eq_some_iff.mp h
  exact ⟨group, ExtTreeMap.mem_toList_iff_getElem?_eq_some.mp (List.argmin_mem hmin)⟩

theorem nextFittingFlow_mem {maxWireLen : ℕ} {flow : RealtimeFlowId}
    (h : q.nextFittingFlow maxWireLen = some flow) :
    ∃ group, q.groups[flow]? = some group := by
  obtain ⟨priority, -, h⟩ := Option.bind_eq_some_iff.mp h
  obtain ⟨⟨f, group⟩, hmin, rfl⟩ := Option.map_eq_some_iff.mp h
  have hmem := (List.mem_filter.mp (List.argmin_mem hmin)).1
  exact ⟨group, ExtTreeMap.mem_toList_iff_getElem?_eq_some.mp hmem⟩

theorem popNext_eq (q : RealtimeSendQueue) (now : ℕ) :
    q.popNext now =
      (q.expire now).2.nextFlow.elim (none, (q.expire now).2) (q.expire now).2.popFlow := by
  unfold popNext
  simp only
  cases (q.expire now).2.nextFlow <;> rfl

theorem popNextFitting_eq (q : RealtimeSendQueue) (now maxWireLen : ℕ) :
    q.popNextFitting now maxWireLen =
      ((q.expire now).2.nextFittingFlow maxWireLen).elim (none, (q.expire now).2)
        (q.expire now).2.popFlow := by
  unfold popNextFitting nextFittingFlow
  generalize (q.expire now).2 = q
  simp only
  cases (q.groups.toList.map fun entry => entry.2.priority.rank).min? with
  | none => rfl
  | some priority =>
    simp only [Option.bind_some]
    split
    · next hmin =>
      rw [hmin]
      rfl
    · next hmin =>
      rw [hmin]
      rfl

/-- What is popped comes from the front of a group with time left. -/
theorem popFlow_change (hq : q.Bounded) {now : ℕ} {flow : RealtimeFlowId} {group : PendingGroup}
    (hgroup : q.groups[flow]? = some group) (hnow : now < group.deadline) :
    ∃ payload rest, group.datagrams = payload :: rest ∧
      (q.popFlow flow).1 = some (group.queued flow payload) ∧
      QueueChange q (.popped now flow group payload rest) (q.popFlow flow).2 := by
  obtain ⟨payload, rest, hpayload⟩ := List.exists_cons_of_ne_nil (hq.nonempty flow group hgroup)
  refine ⟨payload, rest, hpayload, ?_⟩
  unfold popFlow
  simp only [hgroup, hpayload]
  exact ⟨rfl, .popped hgroup hpayload hnow⟩

theorem choice_mem {op : QueueOp} {flow : RealtimeFlowId} (h : op.choice q = some flow) :
    ∃ group, q.groups[flow]? = some group := by
  cases op with
  | popNext now => exact nextFlow_mem h
  | popNextFitting now maxWireLen => exact nextFittingFlow_mem h
  | _ => cases h

theorem step_pop {op : QueueOp} {now : ℕ} (hop : op.popTime = some now) :
    q.step op = ((op.choice (q.expire now).2).elim (none, (q.expire now).2)
      (q.expire now).2.popFlow).map .popped id := by
  cases op with
  | popNext n =>
    obtain rfl := Option.some.inj hop
    exact congrArg (Prod.map QueueReply.popped id) (popNext_eq q n)
  | popNextFitting n maxWireLen =>
    obtain rfl := Option.some.inj hop
    exact congrArg (Prod.map QueueReply.popped id) (popNextFitting_eq q n maxWireLen)
  | _ => cases hop

theorem quiet_of_dropped {es : List QueueEvent} {reason : DropReason}
    (h : ∀ e ∈ es, ∃ flow group, e = .dropped flow group reason) : ∀ e ∈ es, e.quiet = true := by
  intro e he
  obtain ⟨flow, group, rfl⟩ := h e he
  rfl

theorem pop_events (hq : q.Bounded) {op : QueueOp} {now : ℕ} (hop : op.popTime = some now) :
    ∃ es, OpEvents q op (q.step op).1 es ∧ QueueChanges q es (q.step op).2 := by
  obtain ⟨drops, hdrops, hall⟩ := expire_changes q now
  have hquiet := quiet_of_dropped hall
  have hbounded := hq.changes hdrops
  rw [step_pop hop]
  cases hchoice : op.choice (q.expire now).2 with
  | none => exact ⟨drops, .missed hop hquiet hchoice, hdrops⟩
  | some flow =>
    obtain ⟨group, hgroup⟩ := choice_mem hchoice
    obtain ⟨payload, rest, hpayload, hreply, hchange⟩ :=
      popFlow_change hbounded hgroup (expire_live hgroup).2
    refine ⟨_, ?_, hdrops.append (.single hchange)⟩
    rw [Option.elim_some, Prod.map_fst, hreply]
    exact .popped hop hquiet hchoice hgroup hpayload

theorem setMaxPayload_events (q : RealtimeSendQueue) (maxPayload : ℕ) :
    ∃ es, OpEvents q (.setMaxPayload maxPayload) (.changed (q.setMaxPayload maxPayload).1) es ∧
      QueueChanges q es (q.setMaxPayload maxPayload).2 := by
  unfold setMaxPayload
  split
  · exact ⟨[], .quiet rfl (by simp), .nil q⟩
  split
  · exact ⟨[], .quiet rfl (by simp), .nil q⟩
  simp only
  split
  · have hdrops (q' : RealtimeSendQueue) := dropFlowGroups_changes q' (q'.flowsWhere fun group =>
      group.datagrams.any fun payload => maxPayload < payload.length) .congested
    obtain ⟨es, hes, hall⟩ := hdrops _
    refine ⟨.limited maxPayload :: es, .limited (quiet_of_dropped hall), .cons ?_ hes⟩
    exact .limited rfl rfl rfl ⟨rfl, rfl, rfl, rfl, rfl⟩
  · refine ⟨[.limited maxPayload], .limited (by simp), .single ?_⟩
    exact .limited rfl rfl rfl ⟨rfl, rfl, rfl, rfl, rfl⟩

/-- Every call is a list of events that its answer tells about. -/
theorem step_events (hq : q.Bounded) (op : QueueOp) :
    ∃ es, OpEvents q op (q.step op).1 es ∧ QueueChanges q es (q.step op).2 := by
  have hnoted : ∀ e ∈ [QueueEvent.noted], e.quiet = true := by simp [QueueEvent.quiet]
  cases op with
  | enqueue d now =>
    obtain ⟨drops, hdrops, hall⟩ := expire_changes q now
    obtain ⟨es, hcase, hes⟩ := enqueue_cases hq d now
    exact ⟨_, .enqueue (quiet_of_dropped hall) hcase, hdrops.append hes⟩
  | peekNextWireLen now =>
    obtain ⟨drops, hdrops, hall⟩ := expire_changes q now
    exact ⟨drops, .quiet rfl (quiet_of_dropped hall), hdrops⟩
  | popNext now => exact pop_events hq rfl
  | popNextFitting now maxWireLen => exact pop_events hq rfl
  | noteSent datagram =>
    exact ⟨_, .quiet rfl (by simp [QueueEvent.quiet]), .single (.sent datagram)⟩
  | dropDisposableForCongestion =>
    obtain ⟨drops, hdrops, hall⟩ := dropFlowGroups_changes q
      (q.flowsWhere fun group => group.priority = .disposable) .congested
    exact ⟨drops, .quiet rfl (quiet_of_dropped hall), hdrops⟩
  | setMaxPayload maxPayload => exact setMaxPayload_events q maxPayload
  | noteTransportCongestion | noteNetworkMetrics | noteMigration =>
    exact ⟨_, .quiet rfl hnoted, .single (.noted rfl rfl rfl ⟨rfl, rfl, rfl, rfl, rfl⟩)⟩
  | resetForReconnect | clearPending =>
    refine ⟨_, .cleared rfl, .cons .cleared (.single ?_)⟩
    exact .noted rfl rfl rfl ⟨rfl, rfl, rfl, rfl, rfl⟩

theorem Bounded.step (hq : q.Bounded) (op : QueueOp) : (q.step op).2.Bounded := by
  obtain ⟨es, -, hes⟩ := step_events hq op
  exact hq.changes hes

end RealtimeSendQueue

/-- A queue of one flow and four bytes. -/
def smallQueue : RealtimeSendQueue :=
  { config := ⟨1, 8, 4⟩, maxPayload := 4, groups := ∅, nextInsertionOrder := 0
    transportCongestionEvents := 0
    telemetry := { currentDatagramPayload := some 4, maxDatagramPayload := 4 } }

theorem smallQueue_new : RealtimeSendQueue.new ⟨1, 8, 4⟩ 4 = .ok smallQueue := rfl

def smallDatagram (sequence : UInt64) (payload : Bytes) : RealtimeDatagram :=
  ⟨⟨1⟩, 1, sequence, 10, .normal, payload⟩

def smallOps : List QueueOp :=
  [.enqueue (smallDatagram 1 [1, 2]) 0, .enqueue (smallDatagram 1 [3]) 0, .popNext 1,
    .enqueue (smallDatagram 2 [4]) 2, .popNextFitting 3 21]

end MutsukiLink
