import MutsukiLink.DataCodec
import MutsukiLink.MuxInvariant

/-! What leaves the multiplexer, and what a refusal leaves alone. A frame is checked when it is
queued; the codec asks the same of it when it is sent. -/
namespace MutsukiLink
open Std WireBytes

/-- The call was refused, or a discardable frame was dropped. -/
def MuxReply.refuses : MuxReply → Bool
  | .done (.error _) => true
  | .admission (.error _) => true
  | .admission (.ok .droppedDiscardable) => true
  | .removed (.error _) => true
  | _ => false

namespace Multiplexer
variable {m : Multiplexer}

/-- A refused call has not touched any field. -/
theorem refused_call_changes_nothing (op : MuxOp) (h : (m.step op).1.refuses = true) :
    (m.step op).2 = m := by
  cases op with
  | openChannel config =>
    obtain ⟨e, he⟩ | ⟨-, he⟩ := openChannel_cases m config
    · simp only [step, he, Prod.map, id]
    · simp [step, he, MuxReply.refuses] at h
  | enqueueControl payload =>
    obtain ⟨e, he⟩ | ⟨-, -, he⟩ := enqueueControl_cases m payload
    · simp only [step, he, Prod.map, id]
    · simp [step, he, MuxReply.refuses] at h
  | enqueue envelope =>
    obtain ⟨e, he⟩ | ⟨state, charged, -, -, he⟩ := enqueue_cases m envelope
    · simp only [step, he, Prod.map, id]
    · simp [step, he, MuxReply.refuses] at h
  | enqueueDiscardable envelope =>
    obtain ⟨e, he⟩ | he | ⟨state, -, he⟩ := enqueueDiscardable_cases m envelope
    · simp only [step, he, Prod.map, id]
    · simp only [step, he, Prod.map, id]
    · simp [step, he, MuxReply.refuses] at h
  | nextOutbound => simp [step, MuxReply.refuses] at h
  | cancelChannel channel =>
    obtain ⟨e, he⟩ | ⟨state, -, he⟩ := cancelChannel_cases m channel
    · simp only [step, he, Prod.map, id]
    · simp [step, he, MuxReply.refuses] at h
  | closeChannel channel =>
    obtain ⟨e, he⟩ | ⟨state, -, he⟩ := closeChannel_cases m channel
    · simp only [step, he, Prod.map, id]
    · simp [step, he, MuxReply.refuses] at h
  | discardAll => simp [step, MuxReply.refuses] at h

/-- A frame for a channel that is closed again. -/
theorem sample_closed_channel_refuses : ∃ m, Multiplexer.new Sample.sessionId {} = .ok m ∧
    ((RunHistory.run Multiplexer.step m Sample.ops).step (.enqueue (Sample.envelope 2 2 3))).2 =
      RunHistory.run Multiplexer.step m Sample.ops :=
  ⟨_, rfl, refused_call_changes_nothing (.enqueue (Sample.envelope 2 2 3)) rfl⟩

/-- What the multiplexer has checked of a frame that it holds. -/
structure FrameOk (limits : MultiplexerLimits) (e : Envelope) : Prop where
  channel_ne : e.channelId ≠ controlChannelId
  generation_ne : e.generation.val ≠ 0
  frame_le : e.payload.length ≤ limits.maxFrameBytes
  depth_le : e.nestingDepth ≤ limits.maxNestingDepth

/-- A channel with its generation and its frames. -/
structure ChannelSendable (limits : MultiplexerLimits) (state : ChannelState) : Prop where
  generation_ne : state.config.generation.val ≠ 0
  queue_ok : ∀ e ∈ state.queue, FrameOk limits e

def Sendable (m : Multiplexer) : Prop :=
  ∀ (id : ChannelId) (state : ChannelState), m.channels[id]? = some state →
    ChannelSendable m.limits state

/-- One channel is put in place. -/
theorem Sendable.insert (h : m.Sendable) {m' : Multiplexer} {id : ChannelId}
    {state : ChannelState} (hlimits : m'.limits = m.limits)
    (hchannels : m'.channels = m.channels.insert id state)
    (hstate : ChannelSendable m.limits state) : m'.Sendable := by
  intro other state' hs
  rw [hchannels, ExtTreeMap.getElem?_insert] at hs
  rw [hlimits]
  split at hs
  · obtain rfl := Option.some.inj hs
    exact hstate
  · exact h other state' hs

/-- A frame is queued behind those of its channel. -/
theorem Sendable.pushFrame (h : m.Sendable) {state charged : ChannelState} {envelope : Envelope}
    (ha : m.Admissible state envelope) (hconfig : charged.config = state.config)
    (hqueue : charged.queue = state.queue) : (m.pushFrame charged envelope).Sendable ∧
      (m.pushFrame charged envelope).limits = m.limits := by
  have hold := h _ _ ha.live
  have hgeneration : charged.config.generation.val ≠ 0 := by
    rw [hconfig]
    exact hold.generation_ne
  have hnew : FrameOk m.limits envelope := by
    refine ⟨ha.channel_ne, ?_, ha.frame_le, ha.depth_le⟩
    rw [← ha.generation]
    exact hold.generation_ne
  unfold Multiplexer.pushFrame
  split
  · refine ⟨h.insert rfl rfl ⟨hgeneration, ?_⟩, rfl⟩
    intro e he
    rw [List.mem_singleton.mp he]
    exact hnew
  · refine ⟨h.insert rfl rfl ⟨hgeneration, ?_⟩, rfl⟩
    intro e he
    rcases List.mem_append.mp he with he | he
    · rw [hqueue] at he
      exact hold.queue_ok e he
    · rw [List.mem_singleton.mp he]
      exact hnew

/-- The frame that is served was the first of its channel. -/
theorem Sendable.emitted (h : m.Sendable) {index : ℕ} {id : ChannelId} {state : ChannelState}
    {envelope : Envelope} {queue : List Envelope}
    (hsel : m.Selected index id state envelope queue) :
    (m.emitted index id state envelope queue).Sendable ∧ FrameOk m.limits envelope := by
  have hold := h _ _ hsel.live
  have hframes := hold.queue_ok
  rw [hsel.queue_eq] at hframes
  obtain ⟨hfirst, hrest⟩ := List.forall_mem_cons.mp hframes
  exact ⟨h.insert rfl rfl ⟨hold.generation_ne, hrest⟩, hfirst⟩

theorem Sendable.fresh (h : m.Fresh) : m.Sendable := by
  intro id state hs
  rw [h.eq_empty] at hs
  simp at hs

/-- Every call keeps the frames that wait sendable. -/
theorem Sendable.step (h : m.Sendable) (op : MuxOp) :
    (m.step op).2.Sendable ∧ (m.step op).2.limits = m.limits := by
  cases op with
  | openChannel config =>
    simp only [Multiplexer.step, Prod.map, id]
    obtain ⟨e, he⟩ | ⟨ho, he⟩ := openChannel_cases m config
    · rw [he]
      exact ⟨h, rfl⟩
    · rw [he]
      exact ⟨h.insert rfl rfl ⟨ho.generation_ne, by simp⟩, rfl⟩
  | enqueueControl payload =>
    simp only [Multiplexer.step, Prod.map, id]
    obtain ⟨e, he⟩ | ⟨-, -, he⟩ := enqueueControl_cases m payload
    · rw [he]
      exact ⟨h, rfl⟩
    · rw [he]
      exact ⟨h, rfl⟩
  | enqueue envelope =>
    simp only [Multiplexer.step, Prod.map, id]
    obtain ⟨e, he⟩ | ⟨state, charged, ha, hcharged, he⟩ := enqueue_cases m envelope
    · rw [he]
      exact ⟨h, rfl⟩
    · rw [he]
      -- Only the byte count of the stream differs.
      obtain ⟨heq, -⟩ := chargeStream_ok hcharged
      exact h.pushFrame ha (by rw [heq]) (by rw [heq])
  | enqueueDiscardable envelope =>
    simp only [Multiplexer.step, Prod.map, id]
    obtain ⟨e, he⟩ | he | ⟨state, ha, he⟩ := enqueueDiscardable_cases m envelope
    · rw [he]
      exact ⟨h, rfl⟩
    · rw [he]
      exact ⟨h, rfl⟩
    · rw [he]
      exact h.pushFrame ha rfl rfl
  | nextOutbound =>
    simp only [Multiplexer.step, Prod.map, id]
    obtain ⟨payload, control, -, he⟩ | ⟨-, -, he⟩ |
      ⟨index, id, state, envelope, queue, -, hsel, he⟩ := nextOutbound_cases m
    · rw [he]
      exact ⟨h, rfl⟩
    · rw [he]
      exact ⟨h, rfl⟩
    · rw [he]
      exact ⟨(h.emitted hsel).1, rfl⟩
  | cancelChannel channel =>
    simp only [Multiplexer.step, Prod.map, id]
    obtain ⟨e, he⟩ | ⟨state, hs, he⟩ := cancelChannel_cases m channel
    · rw [he]
      exact ⟨h, rfl⟩
    · rw [he]
      exact ⟨h.insert rfl rfl ⟨(h _ _ hs).generation_ne, by simp⟩, rfl⟩
  | closeChannel channel =>
    simp only [Multiplexer.step, Prod.map, id]
    obtain ⟨e, he⟩ | ⟨state, hs, he⟩ := closeChannel_cases m channel
    · rw [he]
      exact ⟨h, rfl⟩
    · rw [he]
      refine ⟨?_, rfl⟩
      intro other state' hs'
      simp only [ExtTreeMap.getElem?_erase] at hs'
      split at hs'
      · cases hs'
      · exact h other state' hs'
  | discardAll =>
    refine ⟨?_, rfl⟩
    intro channel state hs
    simp only [Multiplexer.step, Multiplexer.discardAll, Prod.map, id,
      ExtTreeMap.getElem?_map] at hs
    obtain ⟨state', hs', rfl⟩ := Option.map_eq_some_iff.mp hs
    exact ⟨(h _ _ hs').generation_ne, by simp⟩

/-- What is returned for sending was one of the frames that waited. -/
theorem Sendable.outbound (h : m.Sendable) {op : MuxOp} {e : Envelope}
    (he : (m.step op).1 = .outbound (some (.data e))) : FrameOk m.limits e := by
  cases op with
  | nextOutbound =>
    have hframe : (m.nextOutbound).1 = some (.data e) := MuxReply.outbound.inj he
    obtain ⟨payload, control, -, hnext⟩ | ⟨-, -, hnext⟩ |
      ⟨index, id, state, envelope, queue, -, hsel, hnext⟩ := nextOutbound_cases m
    · rw [hnext] at hframe
      cases hframe
    · rw [hnext] at hframe
      cases hframe
    · rw [hnext] at hframe
      obtain rfl := OutboundFrame.data.inj (Option.some.inj hframe)
      exact (h.emitted hsel).2
  | _ => cases he

/-- A frame that the multiplexer holds is one that the codec allows under limits as wide. -/
theorem FrameOk.allowed {limits : MultiplexerLimits} {e : Envelope} (h : FrameOk limits e)
    {l : DataCodecLimits} (hpayload : limits.maxFrameBytes ≤ l.maxPayloadBytes)
    (hdepth : limits.maxNestingDepth ≤ l.maxNestingDepth)
    (hwidth : limits.maxFrameBytes ≤ 2^32-1) : DataAllowed l e := by
  have hframe := h.frame_le
  refine ⟨h.channel_ne, h.generation_ne, ?_, by omega, by omega⟩
  exact UInt16.not_lt.mpr (UInt16.le_trans h.depth_le hdepth)

/-- The codec takes every data frame that the multiplexer returns, and the receiver reads the same
frame. -/
theorem emitted_frames_are_encodable {m₀ : Multiplexer} (h : m₀.Fresh) (guard : DataModeGuard)
    (hguard : guard.mode = .compactV1) (l : DataCodecLimits)
    (hpayload : m₀.limits.maxFrameBytes ≤ l.maxPayloadBytes)
    (hdepth : m₀.limits.maxNestingDepth ≤ l.maxNestingDepth)
    (hwidth : m₀.limits.maxFrameBytes ≤ 2^32-1) (ops : List MuxOp) :
    ∀ event ∈ RunHistory.trace Multiplexer.step m₀ ops, ∀ e,
      event.reply = .outbound (some (.data e)) →
        ∃ wire, encodeDataEnvelope guard e l = .ok wire ∧
          ∃ b, decodeDataEnvelope guard wire l = .ok b ∧ b.intoOwned = e := by
  intro event hevent e he
  have hkeep (m : Multiplexer) (op : MuxOp) (hm : m.Sendable ∧ m.limits = m₀.limits) :
      (m.step op).2.Sendable ∧ (m.step op).2.limits = m₀.limits := by
    obtain ⟨hsendable, hlimits⟩ := hm.1.step op
    exact ⟨hsendable, hlimits.trans hm.2⟩
  obtain ⟨⟨hsendable, hlimits⟩, heq⟩ := RunHistory.trace_invariant Multiplexer.step
    (I := fun m => m.Sendable ∧ m.limits = m₀.limits) hkeep ⟨.fresh h, rfl⟩ ops event hevent
  rw [heq] at he
  have hframe := hsendable.outbound he
  rw [hlimits] at hframe
  have hallowed := hframe.allowed hpayload hdepth hwidth
  obtain ⟨mode⟩ := guard
  obtain rfl : mode = .compactV1 := hguard
  exact ⟨_, encode_ok_iff.mpr ⟨hallowed, rfl⟩, decode_of_allowed_data hallowed⟩

theorem sample_emitted_frame_is_encodable : ∃ m, Multiplexer.new Sample.sessionId {} = .ok m ∧
    ∃ e wire b, (∃ event ∈ RunHistory.trace Multiplexer.step m [.openChannel (Sample.config 1 0),
        .enqueue (Sample.envelope 1 1 3), .nextOutbound],
      event.reply = .outbound (some (.data e))) ∧
    encodeDataEnvelope ⟨.compactV1⟩ e {} = .ok wire ∧
    decodeDataEnvelope ⟨.compactV1⟩ wire {} = .ok b ∧ b.intoOwned = e := by
  refine ⟨_, rfl, Sample.envelope 1 1 3, ?_⟩
  have hlast {m : Multiplexer} (a b c : MuxOp) : RunHistory.event Multiplexer.step
      (RunHistory.run Multiplexer.step m [a, b]) c ∈
        RunHistory.trace Multiplexer.step m [a, b, c] :=
    List.mem_cons_of_mem _ (List.mem_cons_of_mem _ List.mem_cons_self)
  obtain ⟨wire, hwire, b, hb, hsame⟩ := emitted_frames_are_encodable
    (@Fresh.new Sample.sessionId {} _ rfl) ⟨.compactV1⟩ rfl {} (Nat.le_refl _) (UInt16.le_refl _)
    (by decide) _ _
    (hlast (.openChannel (Sample.config 1 0)) (.enqueue (Sample.envelope 1 1 3)) .nextOutbound)
    (Sample.envelope 1 1 3) rfl
  exact ⟨wire, b, ⟨_, hlast _ _ _, rfl⟩, hwire, hb, hsame⟩

end Multiplexer

end MutsukiLink
