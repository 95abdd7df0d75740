import MutsukiLink.MuxModel

/-! What one call of the multiplexer can do. Every later fact about runs is derived from
these case lemmas; no other module unfolds the calls. -/
namespace MutsukiLink
open WireBytes
open Std (ExtTreeMap ExtTreeSet)

namespace Multiplexer

/-- The guards of `open_channel`. -/
structure Openable (m : Multiplexer) (config : ChannelConfig) : Prop where
  id_ne : config.id ≠ controlChannelId
  generation_ne : config.generation.val ≠ 0
  capacity_ne : config.capacity ≠ 0
  maxFrameBytes_ne : config.maxFrameBytes ≠ 0
  discardable_event : config.discardable = true → config.mode = .event
  stream_limit : decide (config.mode = .stream) = config.maxStreamBytes.isSome
  allowed : ∀ allowed, m.allowedProtocols = some allowed →
    (config.key.protocolId, config.key.version) ∈ allowed
  room : m.channels.size+m.retiredChannels.size < m.limits.maxChannels
  not_retired : config.id ∉ m.retiredChannels
  not_live : m.channels[config.id]? = none

theorem openChannel_cases (m : Multiplexer) (config : ChannelConfig) :
    (∃ e, m.openChannel config = (.error e, m)) ∨
    (m.Openable config ∧ m.openChannel config = (.ok (), { m with
      keys := m.keys.insert config.key (m.keys[config.key]?.getD [] ++ [config.id])
      channels := m.channels.insert config.id {
        config, queue := [], cancelled := false, streamBytes := 0,
        virtualFinish := m.virtualTime } })) := by
  unfold openChannel
  split
  · exact .inl ⟨_, rfl⟩
  split
  · exact .inl ⟨_, rfl⟩
  split
  · exact .inl ⟨_, rfl⟩
  split
  · exact .inl ⟨_, rfl⟩
  split
  · exact .inl ⟨_, rfl⟩
  split
  · exact .inl ⟨_, rfl⟩
  split
  · exact .inl ⟨_, rfl⟩
  split
  · exact .inl ⟨_, rfl⟩
  -- What the eight checks leave over is that the channel is openable.
  next hid hpos hdisc hstream hallowed hroom hretired hlive =>
    obtain ⟨hgen, hcap, hframe⟩ := not_or.mp hpos |>.imp_right not_or.mp
    refine .inr ⟨⟨hid, hgen, hcap, hframe, ?_, not_ne_iff.mp hstream, ?_, by omega, ?_, ?_⟩, rfl⟩
    · intro hd
      by_contra hm
      exact hdisc ⟨hd, hm⟩
    · intro allowed ha
      simpa [ha, ExtTreeSet.contains_iff_mem] using hallowed
    · simpa [ExtTreeSet.contains_iff_mem] using hretired
    · simpa [ExtTreeMap.contains_iff_mem] using hlive

/-- The guards are complete: nothing else can refuse a channel. -/
theorem openChannel_of_openable {m : Multiplexer} {config : ChannelConfig} (h : m.Openable config) :
    (m.openChannel config).1 = .ok () := by
  have hpositive : ¬(config.generation.val = 0 ∨ config.capacity = 0 ∨ config.maxFrameBytes = 0) :=
    not_or.mpr ⟨h.generation_ne, not_or.mpr ⟨h.capacity_ne, h.maxFrameBytes_ne⟩⟩
  have hdiscard : ¬(config.discardable = true ∧ config.mode ≠ .event) :=
    fun hd => hd.2 (h.discardable_event hd.1)
  have hallowed : ¬(m.allowedProtocols.any fun allowed =>
      !allowed.contains (config.key.protocolId, config.key.version)) = true := by
    cases ha : m.allowedProtocols with
    | none => simp
    | some allowed => simpa [ExtTreeSet.contains_iff_mem] using h.allowed allowed ha
  have hretired : ¬m.retiredChannels.contains config.id = true :=
    fun hc => h.not_retired (ExtTreeSet.contains_iff_mem.mp hc)
  have hlive : ¬m.channels.contains config.id = true := by
    simp [ExtTreeMap.contains_eq_isSome_getElem?, h.not_live]
  rw [openChannel, if_neg h.id_ne, if_neg hpositive, if_neg hdiscard,
    if_neg (not_not.mpr h.stream_limit), if_neg hallowed, if_neg (not_le.mpr h.room),
    if_neg hretired, if_neg hlive]

/-- What both data enqueues have checked once they add a frame. -/
structure Admissible (m : Multiplexer) (state : ChannelState) (envelope : Envelope) : Prop where
  session : envelope.sessionId = m.sessionId
  channel_ne : envelope.channelId ≠ controlChannelId
  not_retired : envelope.channelId ∉ m.retiredChannels
  frame_le : envelope.payload.length ≤ m.limits.maxFrameBytes
  depth_le : envelope.nestingDepth ≤ m.limits.maxNestingDepth
  live : m.channels[envelope.channelId]? = some state
  generation : state.config.generation = envelope.generation
  channel_frame_le : envelope.payload.length ≤ state.config.maxFrameBytes
  not_cancelled : state.cancelled = false
  room : state.queue.length < state.config.capacity
  pending_lt : m.totalPending < m.limits.maxTotalPendingFrames

theorem validatePayload_ok {m : Multiplexer} {payload : Bytes} {depth : UInt16}
    (h : m.validatePayload payload depth = .ok ()) :
    payload.length ≤ m.limits.maxFrameBytes ∧ depth ≤ m.limits.maxNestingDepth := by
  unfold validatePayload at h
  split at h
  · cases h
  split at h
  · cases h
  next hlen hdepth => exact ⟨not_lt.mp hlen, UInt16.not_lt.mp hdepth⟩

theorem validateEnvelopeIdentity_ok {m : Multiplexer} {envelope : Envelope}
    (h : m.validateEnvelopeIdentity envelope = .ok ()) :
    envelope.sessionId = m.sessionId ∧ envelope.channelId ≠ controlChannelId ∧
      envelope.channelId ∉ m.retiredChannels ∧
      envelope.payload.length ≤ m.limits.maxFrameBytes ∧
      envelope.nestingDepth ≤ m.limits.maxNestingDepth := by
  unfold validateEnvelopeIdentity at h
  split at h
  · cases h
  split at h
  · cases h
  split at h
  · cases h
  next hs hc hr =>
    exact ⟨not_ne_iff.mp hs, hc, by simpa [ExtTreeSet.contains_iff_mem] using hr,
      validatePayload_ok h⟩

theorem enqueueControl_cases (m : Multiplexer) (payload : Bytes) :
    (∃ e, m.enqueueControl payload = (.error e, m)) ∨
    (payload.length ≤ m.limits.maxFrameBytes ∧
      m.control.length < m.limits.controlQueueCapacity ∧
      m.enqueueControl payload = (.ok (), { m with
        control := m.control ++ [payload], totalPending := m.totalPending+1 })) := by
  unfold enqueueControl
  split
  · exact .inl ⟨_, rfl⟩
  next hv =>
    split
    · exact .inl ⟨_, rfl⟩
    next hc => exact .inr ⟨(validatePayload_ok hv).1, not_le.mp hc, rfl⟩

/-- Charging a stream moves only the byte count, which stays within its limit. -/
theorem chargeStream_ok {state charged : ChannelState} {n : ℕ}
    (h : chargeStream state n = .ok charged) :
    charged = { state with streamBytes := charged.streamBytes } ∧
      (state.config.maxStreamBytes = none → charged.streamBytes = state.streamBytes) ∧
      ∀ b, state.config.maxStreamBytes = some b → charged.streamBytes ≤ b.toNat := by
  unfold chargeStream at h
  split at h
  · next hn =>
    cases h
    exact ⟨rfl, fun _ => rfl, fun b hb => absurd (hn.symm.trans hb) (by simp)⟩
  next b hb =>
    split at h
    · cases h
    simp only at h
    split at h
    · cases h
    next hle =>
      cases h
      refine ⟨rfl, fun hn => absurd (hb.symm.trans hn) (by simp), fun b' hb' => ?_⟩
      -- The limit is the one that the new count was checked against.
      obtain rfl := Option.some.inj (hb.symm.trans hb')
      exact not_lt.mp hle

theorem enqueue_cases (m : Multiplexer) (envelope : Envelope) :
    (∃ e, m.enqueue envelope = (.error e, m)) ∨
    (∃ state charged, m.Admissible state envelope ∧
      chargeStream state envelope.payload.length = .ok charged ∧
      m.enqueue envelope = (.ok (), m.pushFrame charged envelope)) := by
  unfold enqueue
  split
  · exact .inl ⟨_, rfl⟩
  next hv =>
  split
  · exact .inl ⟨_, rfl⟩
  next hp =>
  split
  · exact .inl ⟨_, rfl⟩
  next state hl =>
  split
  · exact .inl ⟨_, rfl⟩
  split
  · exact .inl ⟨_, rfl⟩
  split
  · exact .inl ⟨_, rfl⟩
  split
  · exact .inl ⟨_, rfl⟩
  next hg hf hcan hroom =>
  split
  · exact .inl ⟨_, rfl⟩
  next charged hs =>
    obtain ⟨h1, h2, h3, h4, h5⟩ := validateEnvelopeIdentity_ok hv
    exact .inr ⟨state, charged, ⟨h1, h2, h3, h4, h5, hl, not_ne_iff.mp hg, not_lt.mp hf,
      Bool.eq_false_iff.mpr hcan, not_le.mp hroom, not_le.mp hp⟩, hs, rfl⟩

theorem enqueueDiscardable_cases (m : Multiplexer) (envelope : Envelope) :
    (∃ e, m.enqueueDiscardable envelope = (.error e, m)) ∨
    m.enqueueDiscardable envelope = (.ok .droppedDiscardable, m) ∨
    (∃ state, m.Admissible state envelope ∧
      m.enqueueDiscardable envelope = (.ok .enqueued, m.pushFrame state envelope)) := by
  unfold enqueueDiscardable
  split
  · exact .inl ⟨_, rfl⟩
  next hv =>
  split
  · exact .inl ⟨_, rfl⟩
  next state hl =>
  split
  · exact .inl ⟨_, rfl⟩
  split
  · exact .inl ⟨_, rfl⟩
  split
  · exact .inl ⟨_, rfl⟩
  split
  · exact .inl ⟨_, rfl⟩
  next hg hf _ hcan =>
  split
  · exact .inr (.inl rfl)
  next hroom =>
    obtain ⟨h1, h2, h3, h4, h5⟩ := validateEnvelopeIdentity_ok hv
    obtain ⟨hp, hr⟩ := not_or.mp hroom
    exact .inr (.inr ⟨state, ⟨h1, h2, h3, h4, h5, hl, not_ne_iff.mp hg, not_lt.mp hf,
      Bool.eq_false_iff.mpr hcan, not_le.mp hr, not_le.mp hp⟩, rfl⟩)

theorem mem_readyCandidates (m : Multiplexer) (index tag : ℕ) :
    (index, tag) ∈ m.readyCandidates ↔ ∃ id state, m.ready[index]? = some id ∧
      m.channels[id]? = some state ∧ state.queue ≠ [] ∧ state.virtualFinish = tag := by
  simp only [readyCandidates, List.mem_filterMap, Prod.exists, Option.bind_eq_some_iff,
    Option.map_eq_some_iff, List.mem_zipIdx_iff_getElem?, Prod.mk.injEq]
  constructor
  · rintro ⟨id, i, hi, state, hs, envelope, he, rfl, ht⟩
    exact ⟨id, state, hi, hs, fun hq => by simp [hq] at he, ht⟩
  · rintro ⟨id, state, hi, hs, hq, ht⟩
    exact ⟨id, index, hi, state, hs, _, List.head?_eq_some_head hq, rfl, ht⟩

/-- The channel that the scheduler serves: backlogged, with the least tag. -/
structure Selected (m : Multiplexer) (index : ℕ) (id : ChannelId) (state : ChannelState)
    (envelope : Envelope) (queue : List Envelope) : Prop where
  at_index : m.ready[index]? = some id
  live : m.channels[id]? = some state
  queue_eq : state.queue = envelope :: queue
  least : ∀ other state', other ∈ m.ready → m.channels[other]? = some state' →
    state'.queue ≠ [] → state.virtualFinish ≤ state'.virtualFinish

/-- The tag of a channel after it has sent `envelope`. -/
def nextTag (m : Multiplexer) (state : ChannelState) (envelope : Envelope) : ℕ :=
  min (max state.virtualFinish m.virtualTime+
    schedulingCost envelope.payload.length state.config.priorityHint) u128Max

def emitted (m : Multiplexer) (index : ℕ) (id : ChannelId) (state : ChannelState)
    (envelope : Envelope) (queue : List Envelope) : Multiplexer :=
  { m with
    virtualTime := max state.virtualFinish m.virtualTime
    channels := m.channels.insert id { state with
      queue, virtualFinish := m.nextTag state envelope }
    ready := if queue = [] then m.ready.eraseIdx index else m.ready.eraseIdx index ++ [id]
    totalPending := m.totalPending-1 }

/-- The loop of `next_outbound` never goes round: whatever the state, a selected position
holds a backlogged channel. -/
theorem nextOutboundBody_cases (m : Multiplexer) :
    (m.readyCandidates = [] ∧ m.nextOutboundBody = .inr (none, { m with ready := [] })) ∨
    (∃ index id state envelope queue, m.Selected index id state envelope queue ∧
      m.nextOutboundBody =
        .inr (some (.data envelope), m.emitted index id state envelope queue)) := by
  cases hsel : m.selectReady with
  | none =>
    refine .inl ⟨List.argmin_eq_none.mp hsel, ?_⟩
    simp only [nextOutboundBody, hsel]
  | some c =>
    obtain ⟨index, tag⟩ := c
    have hmem : (index, tag) ∈ m.readyCandidates := List.argmin_mem hsel
    obtain ⟨id, state, hi, hs, hq, ht⟩ := (mem_readyCandidates m index tag).mp hmem
    obtain ⟨envelope, queue, hcons⟩ := List.exists_cons_of_ne_nil hq
    refine .inr ⟨index, id, state, envelope, queue, ⟨hi, hs, hcons, ?_⟩, ?_⟩
    -- Every other backlogged channel is a candidate, so `argmin` has compared it.
    · intro other state' ho hs' hq'
      obtain ⟨i, hi'⟩ := List.mem_iff_getElem?.mp ho
      have hc : (i, state'.virtualFinish) ∈ m.readyCandidates :=
        (mem_readyCandidates m _ _).mpr ⟨other, state', hi', hs', hq', rfl⟩
      have hle := List.le_of_mem_argmin hc hsel
      rw [Prod.Lex.toLex_le_toLex] at hle
      simp only at hle
      omega
    · simp only [nextOutboundBody, hsel, hi, hs, hcons]
      rfl

/-- One round is enough, so the bound on the rounds is never reached. -/
theorem nextOutboundLoop_eq (m : Multiplexer) (fuel : ℕ) :
    ∃ r, m.nextOutboundBody = .inr r ∧ nextOutboundLoop (fuel+1) m = r := by
  obtain ⟨-, hb⟩ | ⟨index, id, state, envelope, queue, -, hb⟩ := nextOutboundBody_cases m
  · exact ⟨_, hb, by simp only [nextOutboundLoop, hb]⟩
  · exact ⟨_, hb, by simp only [nextOutboundLoop, hb]⟩

theorem nextOutbound_cases (m : Multiplexer) :
    (∃ payload control, m.control = payload :: control ∧
      m.nextOutbound = (some (.control payload), { m with
        control, totalPending := m.totalPending-1 })) ∨
    (m.control = [] ∧ m.readyCandidates = [] ∧
      m.nextOutbound = (none, { m with ready := [] })) ∨
    (∃ index id state envelope queue, m.control = [] ∧
      m.Selected index id state envelope queue ∧
      m.nextOutbound = (some (.data envelope), m.emitted index id state envelope queue)) := by
  unfold nextOutbound
  split
  · next payload control hc => exact .inl ⟨payload, control, hc, rfl⟩
  next hc =>
    -- The loop is its first round.
    obtain ⟨r, hr, hl⟩ := nextOutboundLoop_eq m m.ready.length
    rw [hl]
    obtain ⟨hn, hb⟩ | ⟨index, id, state, envelope, queue, hsel, hb⟩ := nextOutboundBody_cases m
    · exact .inr (.inl ⟨hc, hn, Sum.inr.inj (hr.symm.trans hb)⟩)
    · exact .inr (.inr ⟨index, id, state, envelope, queue, hc, hsel,
        Sum.inr.inj (hr.symm.trans hb)⟩)

theorem cancelChannel_cases (m : Multiplexer) (id : ChannelId) :
    (∃ e, m.cancelChannel id = (.error e, m)) ∨
    (∃ state, m.channels[id]? = some state ∧ m.cancelChannel id = (.ok state.queue.length,
      { m with
        channels := m.channels.insert id { state with cancelled := true, queue := [] }
        ready := m.ready.filter (· ≠ id)
        totalPending := m.totalPending-state.queue.length })) := by
  unfold cancelChannel
  split
  · exact .inl ⟨_, rfl⟩
  next state hs => exact .inr ⟨state, hs, rfl⟩

theorem closeChannel_of_live {m : Multiplexer} {id : ChannelId} {state : ChannelState}
    (hs : m.channels[id]? = some state) : m.closeChannel id = (.ok state.queue.length,
      { m with
        channels := m.channels.erase id
        ready := m.ready.filter (· ≠ id)
        totalPending := m.totalPending-state.queue.length
        keys := dropKey m.keys state.config.key id
        retiredChannels := m.retiredChannels.insert id }) := by
  rw [closeChannel, hs]

theorem closeChannel_cases (m : Multiplexer) (id : ChannelId) :
    (∃ e, m.closeChannel id = (.error e, m)) ∨
    (∃ state, m.channels[id]? = some state ∧ m.closeChannel id = (.ok state.queue.length,
      { m with
        channels := m.channels.erase id
        ready := m.ready.filter (· ≠ id)
        totalPending := m.totalPending-state.queue.length
        keys := dropKey m.keys state.config.key id
        retiredChannels := m.retiredChannels.insert id })) := by
  cases hs : m.channels[id]? with
  | none => exact .inl ⟨_, by rw [closeChannel, hs]⟩
  | some state => exact .inr ⟨state, rfl, closeChannel_of_live hs⟩

/-- Both constructors return the empty multiplexer over positive limits. -/
theorem Fresh.eq_empty {m : Multiplexer} (h : m.Fresh) :
    m = {
      sessionId := m.sessionId, limits := m.limits, channels := ∅, keys := ∅,
      retiredChannels := ∅, control := [], ready := [], virtualTime := 0, totalPending := 0,
      allowedProtocols := m.allowedProtocols } := by
  have hnew {sessionId limits m} (hm : Multiplexer.new sessionId limits = .ok m) :
      m = {
        sessionId := m.sessionId, limits := m.limits, channels := ∅, keys := ∅,
        retiredChannels := ∅, control := [], ready := [], virtualTime := 0, totalPending := 0,
        allowedProtocols := m.allowedProtocols } := by
    unfold Multiplexer.new at hm
    split at hm
    · cases hm
    · cases hm
      rfl
  cases h with
  | new hm => exact hnew hm
  -- Only the allowed protocols are added, which the empty multiplexer leaves open.
  | restricted hm =>
    unfold Multiplexer.restricted at hm
    split at hm
    · cases hm
    next m' hm' =>
      cases hm
      rw [hnew hm']

end Multiplexer

end MutsukiLink
