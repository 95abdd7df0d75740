import MutsukiLink.MuxCases
import MutsukiLink.SessionModel

/-! What one call of a session does to its channels: most calls leave the set of channels alone,
one call opens a channel in each data mode, and one call closes a channel. -/
namespace MutsukiLink
open WireBytes
open Std (ExtTreeMap ExtTreeSet)

namespace Multiplexer

/-- A call that opens no channel and closes none. -/
structure SameChannels (m m' : Multiplexer) : Prop where
  limits : m'.limits = m.limits
  allowed : m'.allowedProtocols = m.allowedProtocols
  retired : m'.retiredChannels = m.retiredChannels
  configs : ∀ id : ChannelId, m'.channels[id]?.map ChannelState.config =
    m.channels[id]?.map ChannelState.config

theorem SameChannels.refl (m : Multiplexer) : m.SameChannels m := ⟨rfl, rfl, rfl, fun _ => rfl⟩

/-- Writing back the state of a live channel keeps the channels when it keeps the configuration. -/
theorem configs_insert {channels : ExtTreeMap ChannelId ChannelState} {id : ChannelId}
    {state state' : ChannelState} (hs : channels[id]? = some state)
    (hc : state'.config = state.config) (other : ChannelId) :
    (channels.insert id state')[other]?.map ChannelState.config =
      channels[other]?.map ChannelState.config := by
  rw [ExtTreeMap.getElem?_insert]
  split
  · next heq =>
    rw [← Std.compare_eq_iff_eq.mp heq, hs, Option.map_some, Option.map_some, hc]
  · rfl

theorem SameChannels.pushFrame {m : Multiplexer} {state charged : ChannelState}
    {envelope : Envelope}
    (hs : m.channels[envelope.channelId]? = some state) (hc : charged.config = state.config) :
    m.SameChannels (m.pushFrame charged envelope) := by
  unfold Multiplexer.pushFrame
  split
  · exact ⟨rfl, rfl, rfl, configs_insert hs hc⟩
  · exact ⟨rfl, rfl, rfl, configs_insert hs hc⟩

theorem SameChannels.enqueue (m : Multiplexer) (envelope : Envelope) :
    m.SameChannels (m.enqueue envelope).2 := by
  obtain ⟨e, heq⟩ | ⟨state, charged, hadm, hcharge, heq⟩ := enqueue_cases m envelope
  · exact heq ▸ .refl m
  · rw [heq]
    have hconfig : charged.config = state.config := by rw [(chargeStream_ok hcharge).1]
    exact .pushFrame hadm.live hconfig

theorem SameChannels.enqueueDiscardable (m : Multiplexer) (envelope : Envelope) :
    m.SameChannels (m.enqueueDiscardable envelope).2 := by
  obtain ⟨e, heq⟩ | heq | ⟨state, hadm, heq⟩ := enqueueDiscardable_cases m envelope
  · exact heq ▸ .refl m
  · exact heq ▸ .refl m
  · rw [heq]
    exact .pushFrame hadm.live rfl

theorem SameChannels.enqueueControl (m : Multiplexer) (payload : Bytes) :
    m.SameChannels (m.enqueueControl payload).2 := by
  obtain ⟨e, heq⟩ | ⟨-, -, heq⟩ := enqueueControl_cases m payload
  · exact heq ▸ .refl m
  · rw [heq]
    exact ⟨rfl, rfl, rfl, fun _ => rfl⟩

theorem SameChannels.nextOutbound (m : Multiplexer) : m.SameChannels m.nextOutbound.2 := by
  obtain ⟨payload, control, -, heq⟩ | ⟨-, -, heq⟩ |
      ⟨index, id, state, envelope, queue, -, hsel, heq⟩ :=
    nextOutbound_cases m
  · rw [heq]
    exact ⟨rfl, rfl, rfl, fun _ => rfl⟩
  · rw [heq]
    exact ⟨rfl, rfl, rfl, fun _ => rfl⟩
  · rw [heq]
    exact ⟨rfl, rfl, rfl, configs_insert hsel.live rfl⟩

theorem SameChannels.cancelChannel (m : Multiplexer) (id : ChannelId) :
    m.SameChannels (m.cancelChannel id).2 := by
  obtain ⟨e, heq⟩ | ⟨state, hs, heq⟩ := cancelChannel_cases m id
  · exact heq ▸ .refl m
  · rw [heq]
    exact ⟨rfl, rfl, rfl, configs_insert hs rfl⟩

theorem SameChannels.discardAll (m : Multiplexer) : m.SameChannels (m.discardAll).2 := by
  refine ⟨rfl, rfl, rfl, fun id => ?_⟩
  simp only [Multiplexer.discardAll, ExtTreeMap.getElem?_map, Option.map_map]
  rfl

end Multiplexer

namespace SessionChannelMap

/-- The guards of `validate_bind`. -/
structure Bindable (m : SessionChannelMap) (accepted : AcceptChannel) : Prop where
  protocol_channel_ne : accepted.protocolChannelId.val ≠ 0
  session_channel_ne : accepted.sessionChannelId.val ≠ 0
  key_new : (accepted.protocolId, accepted.protocolChannelId) ∉ m.byProtocol
  id_new : accepted.sessionChannelId ∉ m.bySession
  not_retired : accepted.sessionChannelId ∉ m.retired
  room : m.byProtocol.size+m.retired.size < m.maximum

theorem validateBind_ok_iff {m : SessionChannelMap} {accepted : AcceptChannel} :
    m.validateBind accepted = .ok () ↔ m.Bindable accepted := by
  constructor
  · intro h
    unfold validateBind at h
    split at h
    · cases h
    next hzero =>
    split at h
    · cases h
    next hdup =>
    split at h
    · cases h
    next hroom =>
    simp only [ExtTreeMap.contains_iff_mem, ExtTreeSet.contains_iff_mem, not_or] at hdup
    exact ⟨(not_or.mp hzero).1, (not_or.mp hzero).2, hdup.1, hdup.2.1, hdup.2.2, not_le.mp hroom⟩
  · intro h
    rw [validateBind, if_neg (not_or.mpr ⟨h.protocol_channel_ne, h.session_channel_ne⟩), if_neg ?_,
      if_neg (not_le.mpr h.room)]
    simp only [ExtTreeMap.contains_iff_mem, ExtTreeSet.contains_iff_mem, not_or]
    exact ⟨h.key_new, h.id_new, h.not_retired⟩

end SessionChannelMap

namespace Session

/-- The guards of `open_validated_channel`. -/
structure Opens (s : Session) (v : ValidatedChannel) : Prop where
  active : s.active = true
  typed : s.controlMode.mode = .typedV1
  compact : s.dataMode.mode = .compactV1
  bound : s.validatedChannelMatchesSession v = true
  bindable : s.channelMappings.Bindable v.acceptedMapping
  openable : s.multiplexer.Openable v.config

theorem openValidatedChannel_cases (s : Session) (v : ValidatedChannel) :
    (∃ e, s.openValidatedChannel v = (.error e, s)) ∨
    (s.Opens v ∧ s.openValidatedChannel v = (.ok ⟨v.config.id, .initial⟩, { s with
      multiplexer := (s.multiplexer.openChannel v.config).2
      channelMappings := (s.channelMappings.bindValidated v.acceptedMapping).2 })) := by
  unfold openValidatedChannel
  split
  · exact .inl ⟨_, rfl⟩
  next hactive =>
  split
  · exact .inl ⟨_, rfl⟩
  next htyped =>
  split
  · exact .inl ⟨_, rfl⟩
  next hcompact =>
  simp only
  split
  · exact .inl ⟨_, rfl⟩
  next hbound =>
  split
  · exact .inl ⟨_, rfl⟩
  next hbind =>
  -- Behind this call nothing fails, so a refusal has written nothing to the map.
  rcases Multiplexer.openChannel_cases s.multiplexer v.config with ⟨e, heq⟩ | ⟨hopen, heq⟩
  · rw [heq]
    exact .inl ⟨_, rfl⟩
  · rw [heq]
    refine .inr ⟨⟨by simpa using hactive, ?_, ?_, by simpa using hbound,
      SessionChannelMap.validateBind_ok_iff.mp hbind, hopen⟩, rfl⟩
    · unfold ControlModeGuard.validateTyped at htyped
      split at htyped
      · assumption
      · cases htyped
    · unfold DataModeGuard.validateCompact at hcompact
      split at hcompact
      · assumption
      · cases hcompact

theorem openValidatedChannel_of_opens {s : Session} {v : ValidatedChannel} (h : s.Opens v) :
    (s.openValidatedChannel v).1 = .ok ⟨v.config.id, .initial⟩ := by
  have hmux : s.multiplexer.openChannel v.config =
      (.ok (), (s.multiplexer.openChannel v.config).2) :=
    Prod.ext (Multiplexer.openChannel_of_openable h.openable) rfl
  rw [openValidatedChannel, if_neg (by simp [h.active]), ControlModeGuard.validateTyped,
    if_pos h.typed]
  simp only
  rw [DataModeGuard.validateCompact, if_pos h.compact]
  simp only
  rw [if_neg (by simp [h.bound]), SessionChannelMap.validateBind_ok_iff.mpr h.bindable]
  simp only
  rw [hmux]
  rfl

theorem openValidatedChannel_error_iff (s : Session) (v : ValidatedChannel) :
    (∃ e, (s.openValidatedChannel v).1 = .error e) ↔ ¬s.Opens v := by
  -- The guards are complete: the call fails exactly when one of them does.
  constructor
  · rintro ⟨e, he⟩ hopens
    rw [openValidatedChannel_of_opens hopens] at he
    cases he
  · intro hnot
    obtain ⟨e, heq⟩ | ⟨hopens, -⟩ := openValidatedChannel_cases s v
    · exact ⟨e, by rw [heq]⟩
    · exact absurd hopens hnot

theorem openLegacyValidatedChannel_cases (s : Session) (v : ValidatedChannel) :
    (∃ e, s.openLegacyValidatedChannel v = (.error e, s)) ∨
    (s.active = true ∧ s.dataMode.mode = .legacyFullChannelKey ∧
      s.validatedChannelMatchesSession v = true ∧ s.multiplexer.Openable v.config ∧
      s.openLegacyValidatedChannel v = (.ok (), { s with
        multiplexer := (s.multiplexer.openChannel v.config).2 })) := by
  unfold openLegacyValidatedChannel
  split
  · exact .inl ⟨_, rfl⟩
  next hactive =>
  split
  · exact .inl ⟨_, rfl⟩
  next hlegacy =>
  split
  · exact .inl ⟨_, rfl⟩
  next hbound =>
  rcases Multiplexer.openChannel_cases s.multiplexer v.config with ⟨e, heq⟩ | ⟨hopen, heq⟩
  · rw [heq]
    exact .inl ⟨_, rfl⟩
  · rw [heq]
    refine .inr ⟨by simpa using hactive, ?_, by simpa using hbound, hopen, rfl⟩
    unfold DataModeGuard.validateLegacy at hlegacy
    split at hlegacy
    · assumption
    · cases hlegacy

theorem closeChannel_cases (s : Session) (id : ChannelId) :
    (∃ e, s.closeChannel id = (.error e, s)) ∨
    (∃ state : ChannelState, s.multiplexer.channels[id]? = some state ∧
      s.closeChannel id = (.ok state.queue.length, { s with
        multiplexer := (s.multiplexer.closeChannel id).2
        channelMappings := (s.channelMappings.unbind id).2 })) := by
  unfold closeChannel
  rcases Multiplexer.closeChannel_cases s.multiplexer id with ⟨e, heq⟩ | ⟨state, hs, heq⟩
  · rw [heq]
    exact .inl ⟨e, rfl⟩
  · rw [heq]
    exact .inr ⟨state, hs, rfl⟩

/-- What was settled when the session was established. -/
structure SameTerms (s s' : Session) : Prop where
  protocols : s'.info.protocols = s.info.protocols
  controlMode : s'.controlMode = s.controlMode
  dataMode : s'.dataMode = s.dataMode

inductive ChannelStep (s : Session) : Session → Prop
  | keep {s' : Session} (channels : s.multiplexer.SameChannels s'.multiplexer)
      (map : s'.channelMappings = s.channelMappings) : ChannelStep s s'
  | opened {s' : Session} {v : ValidatedChannel} (opens : s.Opens v)
      (multiplexer : s'.multiplexer = (s.multiplexer.openChannel v.config).2)
      (map : s'.channelMappings = (s.channelMappings.bindValidated v.acceptedMapping).2) :
      ChannelStep s s'
  | openedLegacy {s' : Session} {v : ValidatedChannel}
      (legacy : s.dataMode.mode = .legacyFullChannelKey)
      (openable : s.multiplexer.Openable v.config)
      (multiplexer : s'.multiplexer = (s.multiplexer.openChannel v.config).2)
      (map : s'.channelMappings = s.channelMappings) : ChannelStep s s'
  | closed {s' : Session} {id : ChannelId} {state : ChannelState}
      (live : s.multiplexer.channels[id]? = some state)
      (multiplexer : s'.multiplexer = (s.multiplexer.closeChannel id).2)
      (map : s'.channelMappings = (s.channelMappings.unbind id).2) : ChannelStep s s'

/-- A step as the proofs about runs see it. -/
structure Moves (s s' : Session) : Prop where
  terms : s.SameTerms s'
  channels : s.ChannelStep s'

theorem Moves.refl (s : Session) : s.Moves s := ⟨⟨rfl, rfl, rfl⟩, .keep (.refl _) rfl⟩

theorem Moves.whileActive {α : Type} (s : Session) (reply : Except LinkError α → SessionReply)
    (call : Multiplexer → Except LinkError α × Multiplexer)
    (h : s.multiplexer.SameChannels (call s.multiplexer).2) :
    s.Moves (s.whileActive reply call).2 := by
  unfold Session.whileActive
  split
  · exact .refl s
  · exact ⟨⟨rfl, rfl, rfl⟩, .keep h rfl⟩

theorem Moves.terminate (s : Session) (reason : CloseReason) (state : SessionState) :
    s.Moves (s.terminate reason state) := by
  unfold Session.terminate
  split
  · exact .refl s
  · exact ⟨⟨rfl, rfl, rfl⟩, .keep (.discardAll _) rfl⟩

theorem Moves.dataPlane (s : Session) (op : DataPlaneOp) : s.Moves (s.dataPlane op).2 := by
  cases op with
  | enqueue envelope => exact .whileActive s _ _ (.enqueue _ envelope)
  | enqueueDiscardable envelope => exact .whileActive s _ _ (.enqueueDiscardable _ envelope)
  | enqueueControl payload => exact .whileActive s _ _ (.enqueueControl _ payload)
  | nextOutbound => exact ⟨⟨rfl, rfl, rfl⟩, .keep (.nextOutbound _) rfl⟩
  | cancelChannel id => exact .whileActive s _ _ (.cancelChannel _ id)

theorem moves_step (s : Session) (call : SessionCall) : s.Moves (s.step call).2 := by
  cases call with
  | openValidatedChannel v =>
    obtain ⟨e, heq⟩ | ⟨hopens, heq⟩ := openValidatedChannel_cases s v <;>
      simp only [step, heq, Prod.map_snd, id]
    · exact .refl s
    · exact ⟨⟨rfl, rfl, rfl⟩, .opened hopens rfl rfl⟩
  | openLegacyValidatedChannel v =>
    obtain ⟨e, heq⟩ | ⟨-, hlegacy, -, hopen, heq⟩ := openLegacyValidatedChannel_cases s v <;>
      simp only [step, heq, Prod.map_snd, id]
    · exact .refl s
    · exact ⟨⟨rfl, rfl, rfl⟩, .openedLegacy hlegacy hopen rfl rfl⟩
  | closeChannel channelId =>
    obtain ⟨e, heq⟩ | ⟨state, hs, heq⟩ := closeChannel_cases s channelId <;>
      simp only [step, heq, Prod.map_snd]
    · exact .refl s
    · exact ⟨⟨rfl, rfl, rfl⟩, .closed hs rfl rfl⟩
  | updateQuality quality =>
    simp only [step, updateQuality]
    split
    · exact .refl s
    · exact ⟨⟨rfl, rfl, rfl⟩, .keep (.refl _) rfl⟩
  | reportContinuity continuity =>
    simp only [step, reportContinuity]
    split
    · exact .refl s
    · exact ⟨⟨rfl, rfl, rfl⟩, .keep (.refl _) rfl⟩
  | beginDrain =>
    simp only [step, beginDrain]
    split
    · exact .refl s
    · exact ⟨⟨rfl, rfl, rfl⟩, .keep (.refl _) rfl⟩
  | finishDrain =>
    simp only [step, finishDrain]
    split
    · exact .refl s
    · exact ⟨⟨rfl, rfl, rfl⟩, .keep (.refl _) rfl⟩
  | abort => exact .terminate s _ _
  | fail reason => exact .terminate s _ _
  | dataPlane op => exact .dataPlane s op
  -- The bus is no part of the channels.
  | events op => cases op <;> exact ⟨⟨rfl, rfl, rfl⟩, .keep (.refl _) rfl⟩

end Session

end MutsukiLink
