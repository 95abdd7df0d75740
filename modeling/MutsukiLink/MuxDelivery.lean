import MutsukiLink.MuxInvariant
import MutsukiLink.FifoLedger

/-! Delivery over whole runs: no frame is lost or repeated, each queue is first in first
out, and what leaves is addressed to a live channel of this session. -/
namespace MutsukiLink
open WireBytes
open Std (ExtTreeMap ExtTreeSet)

abbrev MuxEvent := RunHistory.Event Multiplexer MuxOp MuxReply

namespace Multiplexer

def queueOf (m : Multiplexer) (id : ChannelId) : List Envelope :=
  (m.channels[id]?.map fun state => state.queue).getD []

end Multiplexer

namespace MuxEvent

def acceptedControl (e : MuxEvent) : List Bytes :=
  match e.input, e.reply with
  | .enqueueControl payload, .done (.ok _) => [payload]
  | _, _ => []

def emittedControl (e : MuxEvent) : List Bytes :=
  match e.reply with
  | .outbound (some (.control payload)) => [payload]
  | _ => []

/-- `discard_all` drops the control frames that were queued before it. -/
def droppedControl (e : MuxEvent) : List Bytes :=
  match e.input with
  | .discardAll => e.pre.control
  | _ => []

def acceptedData (id : ChannelId) (e : MuxEvent) : List Envelope :=
  match e.input, e.reply with
  | .enqueue envelope, .done (.ok _) => if envelope.channelId = id then [envelope] else []
  | .enqueueDiscardable envelope, .admission (.ok .enqueued) =>
    if envelope.channelId = id then [envelope] else []
  | _, _ => []

def emittedData (id : ChannelId) (e : MuxEvent) : List Envelope :=
  match e.reply with
  | .outbound (some (.data envelope)) => if envelope.channelId = id then [envelope] else []
  | _ => []

/-- What a successful cancel or close of the channel, or a `discard_all`, finds queued. -/
def discardedData (id : ChannelId) (e : MuxEvent) : List Envelope :=
  match e.input, e.reply with
  | .cancelChannel channel, .removed (.ok _) => if channel = id then e.pre.queueOf id else []
  | .closeChannel channel, .removed (.ok _) => if channel = id then e.pre.queueOf id else []
  | .discardAll, _ => e.pre.queueOf id
  | _, _ => []

def returnedCount (e : MuxEvent) : Option ℕ :=
  match e.reply with
  | .removed (.ok n) => some n
  | .discarded n => some n
  | _ => none

def discardedCount (e : MuxEvent) : ℕ :=
  match e.input with
  | .cancelChannel id => (e.discardedData id).length
  | .closeChannel id => (e.discardedData id).length
  | .discardAll => e.droppedControl.length+
      (e.pre.channels.toList.map fun p => (e.discardedData p.1).length).sum
  | _ => 0

end MuxEvent

namespace Multiplexer
open RunHistory (event)
open MuxEvent

/-- What is known of every queued envelope. -/
structure QueuedOk (m : Multiplexer) (id : ChannelId) (state : ChannelState)
    (envelope : Envelope) : Prop where
  session : envelope.sessionId = m.sessionId
  channel : envelope.channelId = id
  generation : envelope.generation = state.config.generation
  frame_le : envelope.payload.length ≤ m.limits.maxFrameBytes
  channel_frame_le : envelope.payload.length ≤ state.config.maxFrameBytes
  depth_le : envelope.nestingDepth ≤ m.limits.maxNestingDepth

def QueueInv (m : Multiplexer) : Prop :=
  ∀ id state, m.channels[id]? = some state → ∀ envelope ∈ state.queue,
    m.QueuedOk id state envelope

theorem pushFrame_channels (m : Multiplexer) (state : ChannelState) (envelope : Envelope) :
    ∃ tag, (m.pushFrame state envelope).channels = m.channels.insert envelope.channelId
      { state with virtualFinish := tag, queue := state.queue ++ [envelope] } := by
  unfold pushFrame
  split
  · next h => exact ⟨max state.virtualFinish m.virtualTime, by simp [h]⟩
  · exact ⟨state.virtualFinish, rfl⟩

theorem pushFrame_constants (m : Multiplexer) (state : ChannelState) (envelope : Envelope) :
    (m.pushFrame state envelope).sessionId = m.sessionId ∧
      (m.pushFrame state envelope).limits = m.limits ∧
      (m.pushFrame state envelope).control = m.control := by
  unfold pushFrame
  split <;> exact ⟨rfl, rfl, rfl⟩

theorem step_constants (m : Multiplexer) (op : MuxOp) :
    (m.step op).2.sessionId = m.sessionId ∧ (m.step op).2.limits = m.limits := by
  cases op <;> simp only [step, Prod.map_snd, id_eq]
  case openChannel config =>
    obtain ⟨e, he⟩ | ⟨-, he⟩ := openChannel_cases m config <;> rw [he] <;> exact ⟨rfl, rfl⟩
  case enqueueControl payload =>
    obtain ⟨e, he⟩ | ⟨-, -, he⟩ := enqueueControl_cases m payload <;> rw [he] <;> exact ⟨rfl, rfl⟩
  case enqueue envelope =>
    obtain ⟨e, he⟩ | ⟨_, charged, -, -, he⟩ := enqueue_cases m envelope <;> rw [he]
    · exact ⟨rfl, rfl⟩
    · obtain ⟨hsession, hlimits, -⟩ := m.pushFrame_constants charged envelope
      exact ⟨hsession, hlimits⟩
  case enqueueDiscardable envelope =>
    obtain ⟨e, he⟩ | he | ⟨state, -, he⟩ := enqueueDiscardable_cases m envelope <;> rw [he]
    · exact ⟨rfl, rfl⟩
    · exact ⟨rfl, rfl⟩
    · obtain ⟨hsession, hlimits, -⟩ := m.pushFrame_constants state envelope
      exact ⟨hsession, hlimits⟩
  case nextOutbound =>
    obtain ⟨_, _, _, he⟩ | ⟨-, -, he⟩ | ⟨_, _, _, _, _, _, _, he⟩ := nextOutbound_cases m <;>
      rw [he] <;> exact ⟨rfl, rfl⟩
  case cancelChannel id =>
    obtain ⟨e, he⟩ | ⟨_, -, he⟩ := cancelChannel_cases m id <;> rw [he] <;> exact ⟨rfl, rfl⟩
  case closeChannel id =>
    obtain ⟨e, he⟩ | ⟨_, -, he⟩ := closeChannel_cases m id <;> rw [he] <;> exact ⟨rfl, rfl⟩
  case discardAll => exact ⟨rfl, rfl⟩

/-- After a call a queue holds frames that were there before it and at most one new frame,
admitted to the channel it is queued on. -/
theorem step_queue {m : Multiplexer} {op : MuxOp} {id : ChannelId} {state' : ChannelState}
    (h : (m.step op).2.channels[id]? = some state') (envelope : Envelope)
    (he : envelope ∈ state'.queue) :
    ∃ state, m.channels[id]? = some state ∧ state'.config = state.config ∧
      (envelope ∈ state.queue ∨ envelope.channelId = id ∧ m.Admissible state envelope) := by
  -- The calls that leave every queue alone.
  have hsame (hm : (m.step op).2.channels = m.channels) :
      ∃ state, m.channels[id]? = some state ∧ state'.config = state.config ∧
        (envelope ∈ state.queue ∨ envelope.channelId = id ∧ m.Admissible state envelope) :=
    ⟨state', hm ▸ h, rfl, .inl he⟩
  -- The two data enqueues, which share the step that appends the frame.
  have hadmit {state charged : ChannelState} {added : Envelope} (ha : m.Admissible state added)
      (hq : charged.queue = state.queue) (hc : charged.config = state.config)
      (hm : (m.step op).2 = m.pushFrame charged added) :
      ∃ state, m.channels[id]? = some state ∧ state'.config = state.config ∧
        (envelope ∈ state.queue ∨ envelope.channelId = id ∧ m.Admissible state envelope) := by
    obtain ⟨tag, htag⟩ := m.pushFrame_channels charged added
    rw [hm, htag, ExtTreeMap.getElem?_insert] at h
    split at h
    · next hid =>
      obtain rfl := Std.compare_eq_iff_eq.mp hid
      obtain rfl := Option.some.inj h
      refine ⟨state, ha.live, hc, ?_⟩
      rcases List.mem_append.mp he with hold | hnew
      · exact .inl (hq ▸ hold)
      · obtain rfl := List.mem_singleton.mp hnew
        exact .inr ⟨rfl, ha⟩
    · exact ⟨state', h, rfl, .inl he⟩
  cases op <;> simp only [step, Prod.map_snd, id_eq] at h hsame hadmit
  case openChannel config =>
    obtain ⟨e, heq⟩ | ⟨-, heq⟩ := openChannel_cases m config <;> rw [heq] at h hsame
    · exact hsame rfl
    · grind
  case enqueueControl payload =>
    obtain ⟨e, heq⟩ | ⟨-, -, heq⟩ := enqueueControl_cases m payload <;> rw [heq] at hsame
    · exact hsame rfl
    · exact hsame rfl
  case enqueue added =>
    obtain ⟨e, heq⟩ | ⟨state, charged, ha, hs, heq⟩ := enqueue_cases m added <;>
      rw [heq] at hsame hadmit
    · exact hsame rfl
    · have hcharged := (chargeStream_ok hs).1
      exact hadmit ha (by rw [hcharged]) (by rw [hcharged]) rfl
  case enqueueDiscardable added =>
    obtain ⟨e, heq⟩ | heq | ⟨state, ha, heq⟩ := enqueueDiscardable_cases m added <;>
      rw [heq] at hsame hadmit
    · exact hsame rfl
    · exact hsame rfl
    · exact hadmit ha rfl rfl rfl
  case nextOutbound =>
    obtain ⟨_, _, _, heq⟩ | ⟨-, -, heq⟩ | ⟨index, served, state, sent, queue, -, hsel, heq⟩ :=
      nextOutbound_cases m <;> rw [heq] at h hsame
    · exact hsame rfl
    · exact hsame rfl
    · simp only [emitted] at h
      have := hsel.live
      have := hsel.queue_eq
      grind
  case cancelChannel channel =>
    obtain ⟨e, heq⟩ | ⟨state, hl, heq⟩ := cancelChannel_cases m channel <;> rw [heq] at h hsame
    · exact hsame rfl
    · grind
  case closeChannel channel =>
    obtain ⟨e, heq⟩ | ⟨state, hl, heq⟩ := closeChannel_cases m channel <;> rw [heq] at h hsame
    · exact hsame rfl
    · grind
  case discardAll =>
    simp only [discardAll, ExtTreeMap.getElem?_map, Option.map_eq_some_iff] at h
    obtain ⟨state, -, rfl⟩ := h
    exact absurd he List.not_mem_nil

theorem QueueInv.fresh {m : Multiplexer} (h : m.Fresh) : m.QueueInv := by
  rw [h.eq_empty]
  intro id state hs
  simp at hs

theorem QueueInv.step {m : Multiplexer} (h : m.QueueInv) (op : MuxOp) : (m.step op).2.QueueInv := by
  intro id state' hs envelope he
  obtain ⟨hsession, hlimits⟩ := m.step_constants op
  obtain ⟨state, hl, hconfig, hold | ⟨hid, hnew⟩⟩ := step_queue hs envelope he
  · have hok := h id state hl envelope hold
    exact ⟨hsession ▸ hok.session, hok.channel, hconfig ▸ hok.generation, hlimits ▸ hok.frame_le,
      hconfig ▸ hok.channel_frame_le, hlimits ▸ hok.depth_le⟩
  · exact ⟨hsession ▸ hnew.session, hid, hconfig ▸ hnew.generation.symm, hlimits ▸ hnew.frame_le,
      hconfig ▸ hnew.channel_frame_le, hlimits ▸ hnew.depth_le⟩

theorem queueOf_live {m : Multiplexer} {id : ChannelId} {state : ChannelState}
    (h : m.channels[id]? = some state) : m.queueOf id = state.queue := by
  simp [queueOf, h]

theorem queueOf_dead {m : Multiplexer} {id : ChannelId} (h : m.channels[id]? = none) :
    m.queueOf id = [] := by
  simp [queueOf, h]

theorem queueOf_insert {m m' : Multiplexer} {served : ChannelId} {state : ChannelState}
    (h : m'.channels = m.channels.insert served state) (id : ChannelId) :
    m'.queueOf id = if served = id then state.queue else m.queueOf id := by
  simp only [queueOf, h, ExtTreeMap.getElem?_insert, Std.compare_eq_iff_eq]
  split <;> rfl

theorem queueOf_pushFrame {m : Multiplexer} {state charged : ChannelState} {envelope : Envelope}
    (ha : m.Admissible state envelope) (hq : charged.queue = state.queue) (id : ChannelId) :
    (m.pushFrame charged envelope).queueOf id =
      m.queueOf id ++ if envelope.channelId = id then [envelope] else [] := by
  obtain ⟨tag, htag⟩ := m.pushFrame_channels charged envelope
  rw [queueOf_insert htag]
  split
  · next hid => rw [← hid, queueOf_live ha.live, hq]
  · rw [List.append_nil]

theorem queueOf_discardAll (m : Multiplexer) (id : ChannelId) :
    (m.discardAll).2.queueOf id = [] := by
  simp only [queueOf, discardAll, ExtTreeMap.getElem?_map]
  cases m.channels[id]? <;> rfl

/-- One call moves the control queue as a first-in first-out queue that may be emptied. -/
theorem control_move (m : Multiplexer) (op : MuxOp) :
    FifoLedger.Move (acceptedControl (event step m op)) (emittedControl (event step m op))
      (droppedControl (event step m op)) m.control (m.step op).2.control := by
  -- Only three calls touch the control queue: its entry, an emission and the discarding of all.
  cases op <;> simp only [event, step, Prod.map_fst, Prod.map_snd, id_eq, acceptedControl,
    emittedControl, droppedControl]
  case openChannel config =>
    obtain ⟨e, he⟩ | ⟨-, he⟩ := openChannel_cases m config <;> rw [he] <;> exact .idle _
  case enqueueControl payload =>
    obtain ⟨e, he⟩ | ⟨-, -, he⟩ := enqueueControl_cases m payload <;> rw [he]
    · exact .idle _
    · exact .accept payload _
  case enqueue envelope =>
    obtain ⟨e, he⟩ | ⟨_, charged, -, -, he⟩ := enqueue_cases m envelope <;> rw [he]
    · exact .idle _
    · simp only [(m.pushFrame_constants charged envelope).2.2]
      exact .idle _
  case enqueueDiscardable envelope =>
    obtain ⟨e, he⟩ | he | ⟨state, -, he⟩ := enqueueDiscardable_cases m envelope <;> rw [he]
    · exact .idle _
    · exact .idle _
    · simp only [(m.pushFrame_constants state envelope).2.2]
      exact .idle _
  case nextOutbound =>
    obtain ⟨payload, control, hc, he⟩ | ⟨-, -, he⟩ | ⟨_, _, _, _, _, _, -, he⟩ :=
      nextOutbound_cases m <;> rw [he]
    · simp only [hc]
      exact .deliver payload control
    · exact .idle _
    · exact .idle _
  case cancelChannel id =>
    obtain ⟨e, he⟩ | ⟨_, -, he⟩ := cancelChannel_cases m id <;> rw [he] <;> exact .idle _
  case closeChannel id =>
    obtain ⟨e, he⟩ | ⟨_, -, he⟩ := closeChannel_cases m id <;> rw [he] <;> exact .idle _
  case discardAll => exact .drop _

theorem move_of_eq {q q' : List Envelope} (h : q' = q) : FifoLedger.Move [] [] [] q q' :=
  h ▸ .idle q

theorem accept_move {m : Multiplexer} {state charged : ChannelState} {envelope : Envelope}
    (ha : m.Admissible state envelope) (hq : charged.queue = state.queue) (id : ChannelId) :
    FifoLedger.Move (if envelope.channelId = id then [envelope] else []) [] [] (m.queueOf id)
      ((m.pushFrame charged envelope).queueOf id) := by
  rw [queueOf_pushFrame ha hq]
  split
  · exact .accept envelope _
  · exact move_of_eq (List.append_nil _)

/-- Removing the frames of one channel, as cancel and close do. -/
theorem drop_move {m m' : Multiplexer} {removed : ChannelId}
    (hgone : m'.queueOf removed = []) (hrest : ∀ id, removed ≠ id → m'.queueOf id = m.queueOf id)
    (id : ChannelId) :
    FifoLedger.Move [] [] (if removed = id then m.queueOf id else []) (m.queueOf id)
      (m'.queueOf id) := by
  split
  · next h =>
    subst h
    rw [hgone]
    exact .drop _
  · next h => exact move_of_eq (hrest id h)

/-- One call moves the queue of every channel as a first-in first-out queue that may be emptied. -/
theorem data_move {m : Multiplexer} (h : m.QueueInv) (op : MuxOp) (id : ChannelId) :
    FifoLedger.Move (acceptedData id (event step m op)) (emittedData id (event step m op))
      (discardedData id (event step m op)) (m.queueOf id) ((m.step op).2.queueOf id) := by
  cases op <;> simp only [event, step, Prod.map_fst, Prod.map_snd, id_eq, acceptedData,
    emittedData, discardedData]
  case openChannel config =>
    obtain ⟨e, he⟩ | ⟨ho, he⟩ := openChannel_cases m config <;> rw [he]
    · exact .idle _
    · refine move_of_eq ?_
      rw [@queueOf_insert m _ config.id _ rfl id]
      split
      · next hid => rw [← hid, queueOf_dead ho.not_live]
      · rfl
  case enqueueControl payload =>
    obtain ⟨e, he⟩ | ⟨-, -, he⟩ := enqueueControl_cases m payload <;> rw [he] <;> exact .idle _
  case enqueue envelope =>
    obtain ⟨e, he⟩ | ⟨state, charged, ha, hs, he⟩ := enqueue_cases m envelope <;> rw [he]
    · exact .idle _
    · exact accept_move ha (by rw [(chargeStream_ok hs).1]) id
  case enqueueDiscardable envelope =>
    obtain ⟨e, he⟩ | he | ⟨state, ha, he⟩ := enqueueDiscardable_cases m envelope <;> rw [he]
    · exact .idle _
    · exact .idle _
    · exact accept_move ha rfl id
  case nextOutbound =>
    obtain ⟨_, _, _, he⟩ | ⟨-, -, he⟩ | ⟨index, served, state, sent, queue, -, hsel, he⟩ :=
      nextOutbound_cases m <;> rw [he]
    · exact .idle _
    · exact .idle _
    -- The invariant names the addressee: the frame left the queue of its own channel.
    · have hchannel : sent.channelId = served :=
        (h served state hsel.live sent (by simp [hsel.queue_eq])).channel
      simp only [@queueOf_insert m (m.emitted index served state sent queue) served _ rfl id,
        hchannel]
      split
      · next hid =>
        rw [← hid, queueOf_live hsel.live, hsel.queue_eq]
        exact .deliver sent queue
      · exact .idle _
  case cancelChannel channel =>
    obtain ⟨e, he⟩ | ⟨state, hl, he⟩ := cancelChannel_cases m channel <;> rw [he]
    · exact .idle _
    · refine drop_move ?_ (fun other ho => ?_) id
      · rw [@queueOf_insert m _ channel _ rfl, if_pos rfl]
      · rw [@queueOf_insert m _ channel _ rfl, if_neg ho]
  case closeChannel channel =>
    obtain ⟨e, he⟩ | ⟨state, hl, he⟩ := closeChannel_cases m channel <;> rw [he]
    · exact .idle _
    · refine drop_move ?_ (fun other ho => ?_) id
      -- A closed channel is no longer in the map, so it has no queue at all.
      · simp [queueOf]
      · simp [queueOf, ExtTreeMap.getElem?_erase, ho]
  case discardAll =>
    rw [queueOf_discardAll]
    exact .drop _

theorem sum_queueOf (m : Multiplexer) :
    (m.channels.toList.map fun p => (m.queueOf p.1).length).sum = m.queued := by
  simp only [queued, OrderedMap.sumBy, OrderedMap.values, List.map_map]
  refine congrArg List.sum (List.map_congr_left fun p hp => ?_)
  have hl : m.channels[p.1]? = some p.2 := ExtTreeMap.mem_toList_iff_getElem?_eq_some.mp hp
  rw [queueOf_live hl]
  rfl

theorem returned_eq_discarded {m : Multiplexer} (h : m.RepInv) (op : MuxOp) {n : ℕ}
    (hn : returnedCount (event step m op) = some n) : n = discardedCount (event step m op) := by
  cases op <;> simp only [event, step, Prod.map_fst, returnedCount, reduceCtorEq] at hn
  case cancelChannel id =>
    simp only [event, step, Prod.map_fst, discardedCount, discardedData]
    obtain ⟨e, he⟩ | ⟨state, hl, he⟩ := cancelChannel_cases m id <;> rw [he] at hn ⊢
    · cases hn
    · simpa [queueOf_live hl] using hn.symm
  case closeChannel id =>
    simp only [event, step, Prod.map_fst, discardedCount, discardedData]
    obtain ⟨e, he⟩ | ⟨state, hl, he⟩ := closeChannel_cases m id <;> rw [he] at hn ⊢
    · cases hn
    · simpa [queueOf_live hl] using hn.symm
  case discardAll =>
    obtain rfl := Option.some.inj hn
    simpa only [event, discardedCount, droppedControl, discardedData, sum_queueOf, discardAll]
      using h.pending_eq

/-- Nothing is pending exactly when there is neither a control frame nor a backlogged channel. -/
theorem RepInv.nextOutbound_none_iff {m : Multiplexer} (h : m.RepInv) :
    (m.nextOutbound).1 = none ↔ m.pendingFrames = 0 := by
  have hp := h.pending_eq
  obtain ⟨payload, control, hc, he⟩ | ⟨hc, hn, he⟩ |
    ⟨index, id, state, envelope, queue, -, hsel, he⟩ := nextOutbound_cases m <;> rw [he]
  · simp [pendingFrames, hp, hc]
  · have hzero : m.queued = 0 := by
      -- A backlogged channel would stand in `ready` and be a candidate.
      refine (OrderedMap.sumBy_eq_zero_iff _ _).mpr fun id state hs => ?_
      by_contra hq
      have hne : state.queue ≠ [] := fun hnil => hq (by simp [hnil])
      obtain ⟨i, hi⟩ := List.mem_iff_getElem?.mp ((h.mem_ready id).mpr ⟨state, hs, hne⟩)
      have := (mem_readyCandidates m i _).mpr ⟨id, state, hi, hs, hne, rfl⟩
      simp [hn] at this
    simp [pendingFrames, hp, hc, hzero]
  · obtain ⟨hle, hle'⟩ := h.queue_le_pending hsel.live
    rw [hsel.queue_eq, List.length_cons] at hle
    simp only [pendingFrames, reduceCtorEq, false_iff]
    omega

/-- A data frame that leaves in state `m`: no control frame was waiting, and the frame belongs
to a live channel and keeps every limit. -/
structure Emission (m : Multiplexer) (envelope : Envelope) : Prop where
  control_empty : m.control = []
  session : envelope.sessionId = m.sessionId
  channel : ∃ state, m.channels[envelope.channelId]? = some state ∧ state.cancelled = false ∧
    envelope.generation = state.config.generation ∧
    envelope.payload.length ≤ state.config.maxFrameBytes
  frame_le : envelope.payload.length ≤ m.limits.maxFrameBytes
  depth_le : envelope.nestingDepth ≤ m.limits.maxNestingDepth

theorem emission_of_reply {m : Multiplexer} (hrep : m.RepInv) (hqueue : m.QueueInv) {op : MuxOp}
    {envelope : Envelope} (h : (m.step op).1 = .outbound (some (.data envelope))) :
    m.Emission envelope := by
  cases op <;> simp only [step, Prod.map_fst, reduceCtorEq, MuxReply.outbound.injEq] at h
  obtain ⟨_, _, _, he⟩ | ⟨-, -, he⟩ | ⟨index, id, state, sent, queue, hc, hsel, he⟩ :=
    nextOutbound_cases m <;> rw [he] at h
  · cases h
  · cases h
  · cases h
    have hok := hqueue id state hsel.live envelope (by simp [hsel.queue_eq])
    -- A cancelled channel has an empty queue, and the served one has not.
    have hlive : state.cancelled = false := by
      by_contra hcan
      have := (hrep.channel_ok id state hsel.live).cancelled_empty (by simpa using hcan)
      simp [hsel.queue_eq] at this
    exact ⟨hc, hok.session, ⟨state, hok.channel ▸ hsel.live, hlive, hok.generation,
      hok.channel_frame_le⟩, hok.frame_le, hok.depth_le⟩

/-- What every state of a run keeps: both invariants, and the session and limits it began with. -/
structure RunInv (origin m : Multiplexer) : Prop where
  rep : m.RepInv
  queue : m.QueueInv
  session : m.sessionId = origin.sessionId
  limits : m.limits = origin.limits

theorem RunInv.fresh {m : Multiplexer} (h : m.Fresh) : RunInv m m :=
  ⟨RepInv.fresh h, QueueInv.fresh h, rfl, rfl⟩

theorem RunInv.step {origin m : Multiplexer} (h : RunInv origin m) (op : MuxOp) :
    RunInv origin (m.step op).2 :=
  ⟨h.rep.step op, h.queue.step op, (m.step_constants op).1.trans h.session,
    (m.step_constants op).2.trans h.limits⟩

theorem control_settled {m : Multiplexer} (h : m.Fresh) (ops : List MuxOp) :
    FifoLedger.Settled ((RunHistory.trace step m ops).flatMap acceptedControl)
      ((RunHistory.trace step m ops).flatMap emittedControl)
      ((RunHistory.trace step m ops).flatMap droppedControl)
      (RunHistory.run step m ops).control := by
  refine RunHistory.run_history step (P := fun hist s => FifoLedger.Settled
    (hist.flatMap acceptedControl) (hist.flatMap emittedControl) (hist.flatMap droppedControl)
    s.control) ?_ ?_ ops
  · rw [h.eq_empty]
    exact .nil
  · intro hist s op hs
    -- The history grows by one event, which is one move of the ledger.
    simpa only [List.flatMap_append, List.flatMap_singleton] using hs.move (s.control_move op)

theorem data_settled {m : Multiplexer} (h : m.Fresh) (ops : List MuxOp) (id : ChannelId) :
    FifoLedger.Settled ((RunHistory.trace step m ops).flatMap (acceptedData id))
      ((RunHistory.trace step m ops).flatMap (emittedData id))
      ((RunHistory.trace step m ops).flatMap (discardedData id))
      ((RunHistory.run step m ops).queueOf id) := by
  -- The queue invariant travels with the ledger: a delivery needs it to name the channel.
  have hrun := RunHistory.run_history step (P := fun hist s => s.QueueInv ∧ FifoLedger.Settled
    (hist.flatMap (acceptedData id)) (hist.flatMap (emittedData id))
    (hist.flatMap (discardedData id)) (s.queueOf id)) (s := m) ?_ ?_ ops
  · exact hrun.2
  · refine ⟨QueueInv.fresh h, ?_⟩
    rw [h.eq_empty, queueOf_dead (by simp)]
    exact .nil
  · rintro hist s op ⟨hinv, hs⟩
    refine ⟨hinv.step op, ?_⟩
    simpa only [List.flatMap_append, List.flatMap_singleton] using hs.move (data_move hinv op id)

/-- Over every run: nothing accepted is lost, repeated or reordered, the returned counts are
the numbers of discarded frames, an empty answer means an empty multiplexer, and control frames
go before data frames, which are addressed to live channels within all limits. -/
theorem run_delivers_every_frame {m : Multiplexer} (h : m.Fresh) (ops : List MuxOp) :
    FifoLedger.Settled ((RunHistory.trace step m ops).flatMap acceptedControl)
        ((RunHistory.trace step m ops).flatMap emittedControl)
        ((RunHistory.trace step m ops).flatMap droppedControl)
        (RunHistory.run step m ops).control ∧
      (∀ id, FifoLedger.Settled ((RunHistory.trace step m ops).flatMap (acceptedData id))
        ((RunHistory.trace step m ops).flatMap (emittedData id))
        ((RunHistory.trace step m ops).flatMap (discardedData id))
        ((RunHistory.run step m ops).queueOf id)) ∧
      (∀ e ∈ RunHistory.trace step m ops, ∀ n, returnedCount e = some n → n = discardedCount e) ∧
      (((RunHistory.run step m ops).nextOutbound).1 = none ↔
        (RunHistory.run step m ops).pendingFrames = 0) ∧
      ∀ e ∈ RunHistory.trace step m ops, ∀ envelope,
        e.reply = .outbound (some (.data envelope)) →
          e.pre.Emission envelope ∧ envelope.sessionId = m.sessionId := by
  have htrace := RunHistory.trace_invariant step (I := RunInv m) (fun _ op hs => hs.step op)
    (RunInv.fresh h) ops
  refine ⟨control_settled h ops, data_settled h ops, ?_,
    (RepInv.run h ops).nextOutbound_none_iff, ?_⟩
  · intro e he n hn
    obtain ⟨hinv, heq⟩ := htrace e he
    rw [heq] at hn ⊢
    exact returned_eq_discarded hinv.rep e.input hn
  · intro e he envelope hreply
    obtain ⟨hinv, heq⟩ := htrace e he
    rw [heq] at hreply
    have hem := emission_of_reply hinv.rep hinv.queue hreply
    exact ⟨hem, hem.session.trans hinv.session⟩

theorem sample_run_delivers_every_frame :
    ∃ m, Multiplexer.new Sample.sessionId {} = .ok m ∧
      (RunHistory.trace step m Sample.ops).flatMap (emittedData ⟨1⟩) = [Sample.envelope 1 1 3] ∧
      FifoLedger.Settled ((RunHistory.trace step m Sample.ops).flatMap (acceptedData ⟨1⟩))
        ((RunHistory.trace step m Sample.ops).flatMap (emittedData ⟨1⟩))
        ((RunHistory.trace step m Sample.ops).flatMap (discardedData ⟨1⟩))
        ((RunHistory.run step m Sample.ops).queueOf ⟨1⟩) :=
  ⟨_, rfl, rfl,
    (run_delivers_every_frame (@Fresh.new Sample.sessionId {} _ rfl) Sample.ops).2.1 ⟨1⟩⟩

end Multiplexer

end MutsukiLink
