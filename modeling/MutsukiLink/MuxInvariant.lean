import MutsukiLink.MuxCases
import Mathlib.Data.List.Nodup

/-! The representation invariant of the multiplexer: queues, `ready`, the counter, the key
index and the retired set describe one another in every reachable state. -/
namespace MutsukiLink
open WireBytes
open Std (ExtTreeMap ExtTreeSet)

/-- In a list without repetitions, removing a position removes its element. -/
theorem mem_eraseIdx_of_nodup {α : Type*} [DecidableEq α] {l : List α} (hl : l.Nodup) {i : ℕ}
    {a : α} (ha : l[i]? = some a) (b : α) : b ∈ l.eraseIdx i ↔ b ≠ a ∧ b ∈ l := by
  obtain ⟨hi, rfl⟩ := List.getElem?_eq_some_iff.mp ha
  rw [← hl.erase_getElem i hi, hl.mem_erase_iff]

namespace Multiplexer

/-- The number of queued data frames. -/
def queued (m : Multiplexer) : ℕ := OrderedMap.sumBy (fun state => state.queue.length) m.channels

/-- The identifiers listed under a key. -/
def listed (m : Multiplexer) (key : ChannelKey) : List ChannelId := m.keys[key]?.getD []

structure ChannelOk (id : ChannelId) (state : ChannelState) : Prop where
  id_eq : state.config.id = id
  queue_le : state.queue.length ≤ state.config.capacity
  cancelled_empty : state.cancelled = true → state.queue = []
  stream_le : ∀ b, state.config.maxStreamBytes = some b → state.streamBytes ≤ b.toNat

structure RepInv (m : Multiplexer) : Prop where
  pending_eq : m.totalPending = m.control.length+m.queued
  control_le : m.control.length ≤ m.limits.controlQueueCapacity
  queued_le : m.queued ≤ m.limits.maxTotalPendingFrames
  ready_nodup : m.ready.Nodup
  mem_ready : ∀ id, id ∈ m.ready ↔ ∃ state, m.channels[id]? = some state ∧ state.queue ≠ []
  channel_ok : ∀ id state, m.channels[id]? = some state → ChannelOk id state
  live_not_retired : ∀ id state, m.channels[id]? = some state → id ∉ m.retiredChannels
  zero_not_live : m.channels[controlChannelId]? = none
  zero_not_retired : controlChannelId ∉ m.retiredChannels
  lifetime_le : m.channels.size+m.retiredChannels.size ≤ m.limits.maxChannels
  listed_nonempty : ∀ (key : ChannelKey) (ids : List ChannelId), m.keys[key]? = some ids → ids ≠ []
  listed_live : ∀ id state key, m.channels[id]? = some state →
    (m.listed key).count id = if state.config.key = key then 1 else 0
  listed_dead : ∀ id key, m.channels[id]? = none → (m.listed key).count id = 0

theorem RepInv.fresh {m : Multiplexer} (h : m.Fresh) : m.RepInv := by
  rw [h.eq_empty]
  constructor <;> simp [queued, listed]

/-- Rewriting one live channel without touching its configuration. -/
theorem RepInv.update {m m' : Multiplexer} {id : ChannelId} {state state' : ChannelState}
    (h : m.RepInv) (hl : m.channels[id]? = some state)
    (hlimits : m'.limits = m.limits) (hcontrol : m'.control = m.control)
    (hkeys : m'.keys = m.keys) (hretired : m'.retiredChannels = m.retiredChannels)
    (hchannels : m'.channels = m.channels.insert id state')
    (hconfig : state'.config = state.config) (hok : ChannelOk id state')
    (hpending : m'.totalPending+state.queue.length = m.totalPending+state'.queue.length)
    (hroom : m.queued+state'.queue.length ≤ m.limits.maxTotalPendingFrames+state.queue.length)
    (hnodup : m'.ready.Nodup)
    (hready : ∀ other, other ∈ m'.ready ↔
      if other = id then state'.queue ≠ [] else other ∈ m.ready) : m'.RepInv := by
  have hsum : m'.queued+state.queue.length = m.queued+state'.queue.length := by
    simp only [queued, hchannels]
    exact OrderedMap.sumBy_update _ _ _ hl
  have hget (other : ChannelId) :
      m'.channels[other]? = if id = other then some state' else m.channels[other]? := by
    simp [hchannels, ExtTreeMap.getElem?_insert]
  have hsize : m'.channels.size = m.channels.size := by
    have hmem : id ∈ m.channels := by grind
    simp [hchannels, ExtTreeMap.size_insert, hmem]
  have hlist (key : ChannelKey) : m'.listed key = m.listed key := by simp only [listed, hkeys]
  constructor
  -- Only the counter, `ready` and one channel change; the other fields carry over.
  case pending_eq => rw [hcontrol]; have := h.pending_eq; omega
  case control_le => rw [hcontrol, hlimits]; exact h.control_le
  case queued_le => rw [hlimits]; omega
  case ready_nodup => exact hnodup
  case mem_ready =>
    intro other
    rw [hready, hget]
    have := h.mem_ready other
    grind
  case channel_ok =>
    intro other st hst
    rw [hget] at hst
    have := h.channel_ok other st
    grind
  case live_not_retired =>
    intro other st hst
    rw [hget] at hst
    rw [hretired]
    have := h.live_not_retired id state hl
    have := h.live_not_retired other st
    grind
  case zero_not_live =>
    rw [hget]
    have := h.zero_not_live
    grind
  case zero_not_retired => rw [hretired]; exact h.zero_not_retired
  case lifetime_le => rw [hsize, hretired, hlimits]; exact h.lifetime_le
  case listed_nonempty => rw [hkeys]; exact h.listed_nonempty
  case listed_live =>
    intro other st key hst
    rw [hget] at hst
    rw [hlist]
    -- The configuration is unchanged, and so is the key that lists the channel.
    have h1 := h.listed_live id state key hl
    have h2 := h.listed_live other st key
    grind
  case listed_dead =>
    intro other key hst
    rw [hget] at hst
    rw [hlist]
    exact h.listed_dead other key (by grind)

theorem RepInv.queue_le_pending {m : Multiplexer} (h : m.RepInv) {id : ChannelId}
    {state : ChannelState} (hl : m.channels[id]? = some state) :
    state.queue.length ≤ m.queued ∧ m.queued ≤ m.totalPending := by
  have := OrderedMap.le_sumBy (fun state => state.queue.length) m.channels hl
  have := h.pending_eq
  exact ⟨‹_›, by omega⟩

theorem RepInv.openChannel {m : Multiplexer} (h : m.RepInv) (config : ChannelConfig) :
    (m.openChannel config).2.RepInv := by
  obtain ⟨e, he⟩ | ⟨ho, he⟩ := openChannel_cases m config <;> rw [he]
  · exact h
  -- The new queue is empty, so the number of queued frames does not move.
  have hsum := OrderedMap.sumBy_insert_new (fun state => state.queue.length) m.channels
    { config, queue := [], cancelled := false, streamBytes := 0, virtualFinish := m.virtualTime }
    ho.not_live
  have hnew : config.id ∉ m.channels := by grind [ho.not_live]
  constructor <;> simp only [queued, hsum, List.length_nil, Nat.zero_add]
  case pending_eq => exact h.pending_eq
  case control_le => exact h.control_le
  case queued_le => exact h.queued_le
  case ready_nodup => exact h.ready_nodup
  case mem_ready => have := h.mem_ready; grind [ho.not_live]
  case channel_ok =>
    intro id state hs
    by_cases hid : config.id = id
    · obtain rfl : _ = state := by simpa [ExtTreeMap.getElem?_insert, hid] using hs
      exact ⟨hid, Nat.zero_le _, fun _ => rfl, fun b _ => Nat.zero_le _⟩
    · exact h.channel_ok id state (by simpa [ExtTreeMap.getElem?_insert, hid] using hs)
  case live_not_retired => have := h.live_not_retired; grind [ho.not_retired]
  case zero_not_live => grind [h.zero_not_live, ho.id_ne]
  case zero_not_retired => exact h.zero_not_retired
  case lifetime_le =>
    have := ho.room
    rw [ExtTreeMap.size_insert, if_neg (by rwa [ExtTreeMap.contains_iff_mem])]
    omega
  case listed_nonempty =>
    intro key ids hk
    rw [ExtTreeMap.getElem?_insert] at hk
    split at hk
    · obtain rfl := Option.some.inj hk
      simp
    · exact h.listed_nonempty key ids hk
  case listed_live =>
    intro id state key hs
    have hlive := h.listed_live id state key
    have hdead := h.listed_dead config.id key ho.not_live
    simp only [listed] at hlive hdead ⊢
    grind
  case listed_dead =>
    intro id key hs
    have hdead := h.listed_dead id key
    simp only [listed] at hdead ⊢
    grind

theorem RepInv.enqueueControl {m : Multiplexer} (h : m.RepInv) (payload : Bytes) :
    (m.enqueueControl payload).2.RepInv := by
  obtain ⟨e, he⟩ | ⟨-, hc, he⟩ := enqueueControl_cases m payload <;> rw [he]
  · exact h
  · refine { h with pending_eq := ?_, control_le := ?_ }
    · have := h.pending_eq
      simp only [queued, List.length_append, List.length_singleton] at this ⊢
      omega
    · simp only [List.length_append, List.length_singleton]
      omega

/-- A frame admitted to a channel whose state differs from the stored one at most in the
bytes charged to its stream. -/
theorem RepInv.pushFrame {m : Multiplexer} (h : m.RepInv) {state charged : ChannelState}
    {envelope : Envelope} (ha : m.Admissible state envelope) (hq : charged.queue = state.queue)
    (hcfg : charged.config = state.config) (hcan : charged.cancelled = state.cancelled)
    (hstream : ∀ b, state.config.maxStreamBytes = some b → charged.streamBytes ≤ b.toNat) :
    (m.pushFrame charged envelope).RepInv := by
  have hcount := h.queue_le_pending ha.live
  have hlt := ha.pending_lt
  have hok (n : ℕ) : ChannelOk envelope.channelId
      { charged with virtualFinish := n, queue := charged.queue ++ [envelope] } := by
    refine ⟨?_, ?_, ?_, ?_⟩
    · rw [hcfg]
      exact (h.channel_ok _ _ ha.live).id_eq
    · have := ha.room
      simp only [hq, hcfg, List.length_append, List.length_singleton]
      omega
    · intro hc
      simp [hcan, ha.not_cancelled] at hc
    · simpa only [hcfg] using hstream
  unfold Multiplexer.pushFrame
  split
  · next hnil =>
    -- An idle channel is not in `ready` yet: it joins at the end.
    have hnil' : state.queue = [] := hq ▸ hnil
    have hnot : envelope.channelId ∉ m.ready := by
      rw [h.mem_ready]
      rintro ⟨st, hst, hne⟩
      exact hne (Option.some.inj (ha.live.symm.trans hst) ▸ hnil')
    refine h.update ha.live rfl rfl rfl rfl rfl hcfg (by simpa [hnil] using hok _)
      (by simp [hnil']) (by simp [hnil']; omega) ?_ ?_
    · exact List.nodup_append.mpr ⟨h.ready_nodup, List.nodup_singleton _, fun a ha' b hb hab =>
        hnot (List.mem_singleton.mp hb ▸ hab ▸ ha')⟩
    · intro other
      by_cases ho : other = envelope.channelId <;> simp [ho]
  · next hne =>
    -- A backlogged channel keeps its place in `ready`.
    refine h.update ha.live rfl rfl rfl rfl rfl hcfg (hok _) (by simp [hq]; omega)
      (by simp [hq]; omega) h.ready_nodup ?_
    intro other
    by_cases ho : other = envelope.channelId
    · have : envelope.channelId ∈ m.ready := (h.mem_ready _).mpr ⟨state, ha.live, hq ▸ hne⟩
      simpa [ho] using this
    · simp [ho]

theorem RepInv.enqueue {m : Multiplexer} (h : m.RepInv) (envelope : Envelope) :
    (m.enqueue envelope).2.RepInv := by
  obtain ⟨e, he⟩ | ⟨state, charged, ha, hs, he⟩ := enqueue_cases m envelope <;> rw [he]
  · exact h
  · obtain ⟨heq, -, hle⟩ := chargeStream_ok hs
    exact h.pushFrame ha (by rw [heq]) (by rw [heq]) (by rw [heq]) hle

theorem RepInv.enqueueDiscardable {m : Multiplexer} (h : m.RepInv) (envelope : Envelope) :
    (m.enqueueDiscardable envelope).2.RepInv := by
  obtain ⟨e, he⟩ | he | ⟨state, ha, he⟩ := enqueueDiscardable_cases m envelope <;> rw [he]
  · exact h
  · exact h
  · exact h.pushFrame ha rfl rfl rfl (h.channel_ok _ _ ha.live).stream_le

/-- A list that is served keeps every other channel and keeps the served one exactly while it
has frames left. -/
theorem RepInv.emitted {m : Multiplexer} (h : m.RepInv) {index : ℕ} {id : ChannelId}
    {state : ChannelState} {envelope : Envelope} {queue : List Envelope}
    (hsel : m.Selected index id state envelope queue) :
    (m.emitted index id state envelope queue).RepInv := by
  have hchan := h.channel_ok _ _ hsel.live
  have hcount := h.queue_le_pending hsel.live
  have hlen : state.queue.length = queue.length+1 := by rw [hsel.queue_eq, List.length_cons]
  have hroom := h.queued_le
  -- `ready` has no repetitions, so removing the position removes the channel.
  have hmem := mem_eraseIdx_of_nodup h.ready_nodup hsel.at_index
  have hnodup : (m.ready.eraseIdx index).Nodup := h.ready_nodup.sublist (List.eraseIdx_sublist _ _)
  refine h.update hsel.live rfl rfl rfl rfl rfl rfl
    ⟨hchan.id_eq, ?_, ?_, hchan.stream_le⟩ ?_ ?_ ?_ ?_
  · have := hchan.queue_le
    simp only
    omega
  · intro hc
    have := hchan.cancelled_empty hc
    simp [this] at hlen
  · simp only [Multiplexer.emitted]
    omega
  · simp only
    omega
  · simp only [Multiplexer.emitted]
    split
    · exact hnodup
    · exact List.nodup_append.mpr ⟨hnodup, List.nodup_singleton _, fun a ha b hb hab =>
        ((hmem a).mp ha).1 (hab.trans (List.mem_singleton.mp hb))⟩
  · intro other
    simp only [Multiplexer.emitted]
    by_cases ho : other = id <;> split <;> simp_all

theorem RepInv.nextOutbound {m : Multiplexer} (h : m.RepInv) : (m.nextOutbound).2.RepInv := by
  obtain ⟨payload, control, hc, he⟩ | ⟨hc, hn, he⟩ |
    ⟨index, id, state, envelope, queue, hc, hsel, he⟩ := nextOutbound_cases m <;> rw [he]
  · have hp := h.pending_eq
    have hl := h.control_le
    rw [hc, List.length_cons] at hp hl
    refine { h with pending_eq := ?_, control_le := ?_ }
    · simp only [queued] at hp ⊢
      omega
    · simp only
      omega
  -- Without a candidate `ready` was empty already, since it lists backlogged channels only.
  · have hready : m.ready = [] := by
      by_contra hne
      obtain ⟨id, ids, hcons⟩ := List.exists_cons_of_ne_nil hne
      obtain ⟨state, hs, hq⟩ := (h.mem_ready id).mp (by simp [hcons])
      have := (mem_readyCandidates m 0 _).mpr ⟨id, state, by simp [hcons], hs, hq, rfl⟩
      simp [hn] at this
    rw [← hready]
    exact h
  · exact h.emitted hsel

theorem RepInv.cancelChannel {m : Multiplexer} (h : m.RepInv) (id : ChannelId) :
    (m.cancelChannel id).2.RepInv := by
  obtain ⟨e, he⟩ | ⟨state, hl, he⟩ := cancelChannel_cases m id <;> rw [he]
  · exact h
  have hchan := h.channel_ok _ _ hl
  have hcount := h.queue_le_pending hl
  have hroom := h.queued_le
  refine h.update hl rfl rfl rfl rfl rfl rfl
    ⟨hchan.id_eq, Nat.zero_le _, fun _ => rfl, hchan.stream_le⟩ ?_ ?_
    (h.ready_nodup.filter _) ?_
  · simp only [List.length_nil]
    omega
  · simp only [List.length_nil]
    omega
  · intro other
    by_cases ho : other = id <;> simp [ho]

theorem count_filter_ne (ids : List ChannelId) (id other : ChannelId) :
    (ids.filter (· ≠ id)).count other = if other = id then 0 else ids.count other := by
  split
  · next ho =>
    rw [List.count_eq_zero]
    simp [ho]
  · next ho => exact List.count_filter (by simpa using ho)

theorem dropKey_count (keys : ExtTreeMap ChannelKey (List ChannelId)) (key k : ChannelKey)
    (id other : ChannelId) :
    ((dropKey keys key id)[k]?.getD []).count other =
      if k = key ∧ other = id then 0 else (keys[k]?.getD []).count other := by
  unfold dropKey
  split
  · next hk => grind
  next ids hk =>
    -- Whether or not the list becomes empty, `id` is gone from it and nothing else is.
    have hcount := count_filter_ne ids id other
    split
    · next hnil =>
      rw [hnil] at hcount
      grind
    · grind

theorem dropKey_nonempty {keys : ExtTreeMap ChannelKey (List ChannelId)} {key : ChannelKey}
    {id : ChannelId}
    (h : ∀ (k : ChannelKey) (ids : List ChannelId), keys[k]? = some ids → ids ≠ [])
    (k : ChannelKey) (ids : List ChannelId) (hk : (dropKey keys key id)[k]? = some ids) :
    ids ≠ [] := by
  unfold dropKey at hk
  split at hk
  · exact h k ids hk
  · split at hk <;> grind

theorem RepInv.closeChannel {m : Multiplexer} (h : m.RepInv) (id : ChannelId) :
    (m.closeChannel id).2.RepInv := by
  obtain ⟨e, he⟩ | ⟨state, hl, he⟩ := closeChannel_cases m id <;> rw [he]
  · exact h
  have hsum := OrderedMap.sumBy_erase (fun state => state.queue.length) m.channels hl
  have hretired := h.live_not_retired _ _ hl
  constructor
  case pending_eq =>
    have := h.pending_eq
    simp only [queued] at this ⊢
    omega
  case control_le => exact h.control_le
  case queued_le =>
    have := h.queued_le
    simp only [queued] at this ⊢
    omega
  case ready_nodup => exact h.ready_nodup.filter _
  case mem_ready => have := h.mem_ready; grind
  case channel_ok => have := h.channel_ok; grind
  case live_not_retired => have := h.live_not_retired; grind
  case zero_not_live => have := h.zero_not_live; grind
  case zero_not_retired => have := h.zero_not_live; have := h.zero_not_retired; grind
  case lifetime_le =>
    -- One channel leaves the map and at most one identifier becomes retired.
    have hle := h.lifetime_le
    have hone := OrderedMap.size_erase_add_one m.channels hl
    have hinsert := ExtTreeSet.size_insert_le (t := m.retiredChannels) (k := id)
    simp only
    omega
  case listed_nonempty => exact dropKey_nonempty h.listed_nonempty
  case listed_live =>
    intro other st key hst
    have hother := h.listed_live other st key
    simp only [listed, dropKey_count] at hother ⊢
    grind
  case listed_dead =>
    intro other key hst
    have hdead := h.listed_dead other key
    have hlive := h.listed_live id state key hl
    simp only [listed, dropKey_count] at hdead hlive ⊢
    grind

theorem RepInv.discardAll {m : Multiplexer} (h : m.RepInv) : (m.discardAll).2.RepInv := by
  -- Every queue is empty afterwards, and so is their sum.
  have hzero : OrderedMap.sumBy (fun state => state.queue.length)
      (m.channels.map fun _ state => { state with queue := [] }) = 0 := by
    rw [OrderedMap.sumBy_eq_zero_iff]
    intro id state hs
    rw [ExtTreeMap.getElem?_map] at hs
    obtain ⟨st, -, rfl⟩ := Option.map_eq_some_iff.mp hs
    rfl
  have hget (id : ChannelId) (state : ChannelState)
      (hs : (m.discardAll).2.channels[id]? = some state) :
      ∃ st, m.channels[id]? = some st ∧ { st with queue := [] } = state := by
    simpa [Multiplexer.discardAll, ExtTreeMap.getElem?_map] using hs
  constructor
  case pending_eq => simp [Multiplexer.discardAll, queued, hzero]
  case control_le => exact Nat.zero_le _
  case queued_le => simp [Multiplexer.discardAll, queued, hzero]
  case ready_nodup => exact List.nodup_nil
  case mem_ready =>
    intro id
    refine ⟨fun hm => absurd hm (List.not_mem_nil), ?_⟩
    rintro ⟨state, hs, hq⟩
    obtain ⟨st, -, rfl⟩ := hget id state hs
    exact absurd rfl hq
  case channel_ok =>
    intro id state hs
    obtain ⟨st, hst, rfl⟩ := hget id state hs
    have := h.channel_ok id st hst
    exact ⟨this.id_eq, Nat.zero_le _, fun _ => rfl, this.stream_le⟩
  case live_not_retired =>
    intro id state hs
    obtain ⟨st, hst, -⟩ := hget id state hs
    exact h.live_not_retired id st hst
  case zero_not_live => simp [Multiplexer.discardAll, ExtTreeMap.getElem?_map, h.zero_not_live]
  case zero_not_retired => exact h.zero_not_retired
  case lifetime_le => simpa [Multiplexer.discardAll] using h.lifetime_le
  case listed_nonempty => exact h.listed_nonempty
  case listed_live =>
    intro id state key hs
    obtain ⟨st, hst, rfl⟩ := hget id state hs
    exact h.listed_live id st key hst
  case listed_dead =>
    intro id key hs
    exact h.listed_dead id key
      (by simpa [Multiplexer.discardAll, ExtTreeMap.getElem?_map] using hs)

theorem RepInv.step {m : Multiplexer} (h : m.RepInv) (op : MuxOp) : (m.step op).2.RepInv := by
  cases op with
  | openChannel config => exact h.openChannel config
  | enqueueControl payload => exact h.enqueueControl payload
  | enqueue envelope => exact h.enqueue envelope
  | enqueueDiscardable envelope => exact h.enqueueDiscardable envelope
  | nextOutbound => exact h.nextOutbound
  | cancelChannel id => exact h.cancelChannel id
  | closeChannel id => exact h.closeChannel id
  | discardAll => exact h.discardAll

theorem RepInv.run {m : Multiplexer} (h : m.Fresh) (ops : List MuxOp) :
    (RunHistory.run Multiplexer.step m ops).RepInv :=
  RunHistory.run_invariant _ (fun _ op hm => hm.step op) (RepInv.fresh h) ops

theorem RepInv.pendingDecrement_le {m : Multiplexer} (h : m.RepInv) (op : MuxOp) :
    m.pendingDecrement op ≤ m.totalPending := by
  have hlive (id : ChannelId) :
      (m.channels[id]?.map fun state => state.queue.length).getD 0 ≤ m.totalPending := by
    cases hs : m.channels[id]? with
    | none => exact Nat.zero_le _
    | some state => exact (h.queue_le_pending hs).1.trans (h.queue_le_pending hs).2
  cases op with
  | nextOutbound =>
    simp only [pendingDecrement]
    obtain ⟨payload, control, hc, he⟩ | ⟨-, -, he⟩ |
      ⟨index, id, state, envelope, queue, -, hsel, he⟩ := nextOutbound_cases m <;> rw [he]
    · have := h.pending_eq
      -- The control frame that leaves was counted.
      simp only [hc, List.length_cons] at this
      simp only [Option.isSome_some, if_true]
      omega
    · exact Nat.zero_le _
    -- The served queue has a frame, and all queued frames are counted.
    · obtain ⟨h1, h2⟩ := h.queue_le_pending hsel.live
      rw [hsel.queue_eq, List.length_cons] at h1
      simp only [Option.isSome_some, if_true]
      omega
  | cancelChannel id => exact hlive id
  | closeChannel id => exact hlive id
  | _ => exact Nat.zero_le _

/-- Every state reachable through the public interface keeps the five structures in step, and
in it no call takes more from `total_pending` than is there. -/
theorem reachable_state_is_consistent {m : Multiplexer} (h : m.Fresh) (ops : List MuxOp) :
    (RunHistory.run Multiplexer.step m ops).RepInv ∧
      ∀ op, (RunHistory.run Multiplexer.step m ops).pendingDecrement op ≤
        (RunHistory.run Multiplexer.step m ops).totalPending :=
  ⟨RepInv.run h ops, (RepInv.run h ops).pendingDecrement_le⟩

end Multiplexer

namespace Sample

def sessionId : SessionId := ⟨FixedBytes.replicate 16 1⟩

def protocolId : ProtocolStableId := ⟨FixedBytes.replicate 16 7⟩

def config (id : UInt32) (priorityHint : UInt8) : ChannelConfig :=
  { key := ⟨protocolId, ⟨1, 0⟩, ⟨1⟩⟩, id := ⟨id⟩, generation := .initial, mode := .event,
    priorityHint, capacity := 4, maxFrameBytes := 16, maxStreamBytes := none,
    discardable := true }

def envelope (id : UInt32) (sequence : UInt64) (size : ℕ) : Envelope :=
  { sessionId, channelId := ⟨id⟩, generation := .initial, sequence, nestingDepth := 0,
    flags := ⟨false, false⟩, payload := List.replicate size 0 }

/-- Two channels of the extreme priorities, a control frame, a cancellation and a close. -/
def ops : List MuxOp :=
  [.openChannel (config 1 0), .openChannel (config 2 255), .enqueue (envelope 1 1 3),
    .enqueue (envelope 1 2 3), .enqueueDiscardable (envelope 2 1 3), .enqueueControl [9],
    .nextOutbound, .nextOutbound, .nextOutbound, .cancelChannel ⟨1⟩, .closeChannel ⟨2⟩]

end Sample

namespace Multiplexer

theorem sample_run_is_consistent :
    ∃ m, Multiplexer.new Sample.sessionId {} = .ok m ∧
      (RunHistory.run Multiplexer.step m Sample.ops).RepInv ∧
      ∀ op, (RunHistory.run Multiplexer.step m Sample.ops).pendingDecrement op ≤
        (RunHistory.run Multiplexer.step m Sample.ops).totalPending :=
  ⟨_, rfl, reachable_state_is_consistent (@Fresh.new Sample.sessionId {} _ rfl) Sample.ops⟩

end Multiplexer

end MutsukiLink
