import MutsukiLink.SessionCases
import MutsukiLink.RunHistory

/-! The channel map of a compact session and its multiplexer list the same channels, in every state
that calls can reach. -/
namespace MutsukiLink
open OrderedMap (Mirror Separates)
open Std (ExtTreeMap ExtTreeSet)

/-- The protocol channel that a live channel carries, with its generation. -/
def Multiplexer.carried (m : Multiplexer) (id : ChannelId) :
    Option (ProtocolStableId × ProtocolChannelId × ChannelGeneration) :=
  (m.channels[id]?.map ChannelState.config).map fun config =>
    (config.key.protocolId, config.key.protocolChannelId, config.generation)

theorem Multiplexer.isSome_carried (m : Multiplexer) (id : ChannelId) :
    (m.carried id).isSome = m.channels[id]?.isSome := by
  simp [carried]

/-- The entry of `by_session` that belongs to an entry of `by_protocol`. -/
def bindingEntry (key : ProtocolStableId × ProtocolChannelId) (binding : SessionChannelBinding) :
    ProtocolStableId × ProtocolChannelId × ChannelGeneration :=
  (key.1, key.2, binding.generation)

theorem bindingEntry_separates : Separates SessionChannelBinding.channelId bindingEntry := by
  rintro ⟨p, c⟩ ⟨p', c'⟩ ⟨id, g⟩ ⟨id', g'⟩ hid hentry
  simp_all [bindingEntry]

/-- Both indexes of the map and the multiplexer describe one set of channels. -/
structure InStep (map : SessionChannelMap) (m : Multiplexer) : Prop where
  live : ∀ id : ChannelId, map.bySession[id]? = m.carried id
  mirror : Mirror SessionChannelBinding.channelId bindingEntry map.byProtocol map.bySession
  initial : ∀ (id : ChannelId) (entry : ProtocolStableId × ProtocolChannelId × ChannelGeneration),
    map.bySession[id]? = some entry → entry.2.2 = .initial
  retired : map.retired = m.retiredChannels
  room : map.byProtocol.size+map.retired.size ≤ map.maximum

namespace InStep
variable {map : SessionChannelMap} {m m' : Multiplexer}

theorem same (h : InStep map m) (hsame : m.SameChannels m') : InStep map m' where
  live id := by rw [h.live, Multiplexer.carried, Multiplexer.carried, hsame.configs]
  mirror := h.mirror
  initial := h.initial
  retired := h.retired.trans hsame.retired.symm
  room := h.room

theorem opened (h : InStep map m) {v : ValidatedChannel} (hbind : map.Bindable v.acceptedMapping)
    (hopen : m.Openable v.config) (hprotocol : v.config.key.protocolId = v.protocolId)
    (hchannel : v.config.key.protocolChannelId = v.protocolChannelId)
    (hgeneration : v.config.generation = .initial) :
    InStep (map.bindValidated v.acceptedMapping).2 (m.openChannel v.config).2 := by
  have heq := (Multiplexer.openChannel_cases m v.config).resolve_left
    fun ⟨e, he⟩ => by simpa [he] using Multiplexer.openChannel_of_openable hopen
  rw [heq.2]
  constructor
  · intro id
    simp only [SessionChannelMap.bindValidated, Multiplexer.carried, ExtTreeMap.getElem?_insert,
      ValidatedChannel.acceptedMapping]
    split
    · simp [hprotocol, hchannel, hgeneration]
    · exact h.live id
  · exact h.mirror.insert bindingEntry_separates (ExtTreeMap.getElem?_eq_none hbind.key_new)
      (b := ⟨v.config.id, .initial⟩) (ExtTreeMap.getElem?_eq_none hbind.id_new)
  · intro id entry
    simp only [SessionChannelMap.bindValidated, ExtTreeMap.getElem?_insert]
    split
    · rintro ⟨⟩
      rfl
    · exact h.initial id entry
  · exact h.retired
  · have hroom := hbind.room
    have hsize : (map.bindValidated v.acceptedMapping).2.byProtocol.size ≤
        map.byProtocol.size+1 := ExtTreeMap.size_insert_le
    calc (map.bindValidated v.acceptedMapping).2.byProtocol.size+map.retired.size
        ≤ map.byProtocol.size+1+map.retired.size := by omega
      _ ≤ map.maximum := by omega

theorem closed (h : InStep map m) {id : ChannelId} {state : ChannelState}
    (hlive : m.channels[id]? = some state) : InStep (map.unbind id).2 (m.closeChannel id).2 := by
  have hentry : map.bySession[id]? = some (state.config.key.protocolId,
      state.config.key.protocolChannelId, .initial) := by
    have hid := h.live id
    rw [Multiplexer.carried, hlive, Option.map_some, Option.map_some] at hid
    rw [hid, show state.config.generation = .initial from h.initial id _ hid]
  have hkey : map.byProtocol[(state.config.key.protocolId, state.config.key.protocolChannelId)]? =
      some ⟨id, .initial⟩ := (h.mirror _ ⟨id, .initial⟩).mpr hentry
  rw [Multiplexer.closeChannel_of_live hlive, SessionChannelMap.unbind, hentry]
  constructor
  · intro other
    simp only [Multiplexer.carried, ExtTreeMap.getElem?_erase]
    split
    · rfl
    · exact h.live other
  · exact h.mirror.erase bindingEntry_separates hkey
  · intro other entry
    simp only [ExtTreeMap.getElem?_erase]
    split
    · nofun
    · exact h.initial other entry
  · simp only [h.retired]
  · have hroom := h.room
    have hone := OrderedMap.size_erase_add_one map.byProtocol hkey
    have hretired := ExtTreeSet.size_insert_le (t := map.retired) (k := id)
    simp only
    omega

theorem fresh (maximum : ℕ) {m : Multiplexer} (h : m.Fresh) :
    InStep { maximum, byProtocol := ∅, bySession := ∅, retired := ∅ } m := by
  rw [h.eq_empty]
  refine ⟨fun id => ?_, fun key binding => ?_, fun id entry => ?_, rfl, ?_⟩ <;>
    simp [Multiplexer.carried]

end InStep

namespace Session

/-- What holds of every state of a session that was established in compact mode. -/
structure Compact (negotiated : NegotiatedSession) (s : Session) : Prop where
  protocols : s.info.protocols = negotiated.protocols
  typed : s.controlMode.mode = .typedV1
  compact : s.dataMode.mode = .compactV1
  allowed : s.multiplexer.allowedProtocols = some (ExtTreeSet.ofList
    (negotiated.protocols.map fun protocol => (protocol.stableId, protocol.version)))
  maximum : s.channelMappings.maximum = maxSessionChannelMappings
  inStep : InStep s.channelMappings s.multiplexer

theorem Compact.established {negotiated : NegotiatedSession} {muxLimits : MultiplexerLimits}
    {maxEventSubscribers : ℕ} {s : Session}
    (h : Session.established negotiated muxLimits maxEventSubscribers = .ok s)
    (hmode : s.dataMode.mode = .compactV1) : Compact negotiated s := by
  unfold Session.established at h
  simp only at h
  split at h
  · cases h
  split at h
  · cases h
  next m hm =>
  split at h
  · cases h
  next map hmap =>
  cases h
  cases hmap
  refine ⟨rfl, ?_, hmode, ?_, rfl, InStep.fresh _ (.restricted hm)⟩
  · by_contra hne
    simp [DataIdentityMode.negotiate, hne] at hmode
  · unfold Multiplexer.restricted at hm
    split at hm
    · cases hm
    · cases hm
      rfl

/-- A channel step keeps what the multiplexer and the map were created with. -/
theorem ChannelStep.keeps {s s' : Session} (h : s.ChannelStep s') :
    s'.multiplexer.limits = s.multiplexer.limits ∧
      s'.multiplexer.allowedProtocols = s.multiplexer.allowedProtocols ∧
      s'.channelMappings.maximum = s.channelMappings.maximum := by
  have hopen (config : ChannelConfig) :
      (s.multiplexer.openChannel config).2.limits = s.multiplexer.limits ∧
        (s.multiplexer.openChannel config).2.allowedProtocols = s.multiplexer.allowedProtocols := by
    obtain ⟨e, heq⟩ | ⟨-, heq⟩ := Multiplexer.openChannel_cases s.multiplexer config <;>
      simp only [heq, and_self]
  cases h with
  | keep channels map => exact ⟨channels.limits, channels.allowed, by rw [map]⟩
  | opened opens multiplexer map =>
    rw [multiplexer, map]
    exact ⟨(hopen _).1, (hopen _).2, rfl⟩
  | openedLegacy legacy openable multiplexer map =>
    rw [multiplexer, map]
    exact ⟨(hopen _).1, (hopen _).2, rfl⟩
  | @closed id state live multiplexer map =>
    rw [multiplexer, map, Multiplexer.closeChannel_of_live live]
    refine ⟨rfl, rfl, ?_⟩
    unfold SessionChannelMap.unbind
    split <;> rfl

theorem Opens.identity {s : Session} {v : ValidatedChannel} (h : s.Opens v) :
    v.config.key.protocolId = v.protocolId ∧
      v.config.key.protocolChannelId = v.protocolChannelId ∧ v.config.generation = .initial := by
  have hbound := h.bound
  simp only [validatedChannelMatchesSession, Bool.and_eq_true, beq_iff_eq] at hbound
  exact ⟨hbound.1.1.1.1.1.1, hbound.1.1.1.1.1.2, hbound.1.1.1.1.2⟩

theorem Compact.step {negotiated : NegotiatedSession} {s : Session} (h : Compact negotiated s)
    (call : SessionCall) : Compact negotiated (s.step call).2 := by
  obtain ⟨hterms, hchannels⟩ := moves_step s call
  obtain ⟨-, hallowed, hmaximum⟩ := hchannels.keeps
  refine ⟨hterms.protocols.trans h.protocols, hterms.controlMode ▸ h.typed,
    hterms.dataMode ▸ h.compact, hallowed.trans h.allowed, hmaximum.trans h.maximum, ?_⟩
  cases hchannels with
  | keep channels map => exact map ▸ h.inStep.same channels
  | opened opens multiplexer map =>
    obtain ⟨hprotocol, hchannel, hgeneration⟩ := opens.identity
    rw [multiplexer, map]
    exact h.inStep.opened opens.bindable opens.openable hprotocol hchannel hgeneration
  | openedLegacy legacy openable multiplexer map =>
    exact absurd (legacy.symm.trans h.compact) (by decide)
  | closed live multiplexer map =>
    rw [multiplexer, map]
    exact h.inStep.closed live

theorem Compact.run {negotiated : NegotiatedSession} {s : Session} (h : Compact negotiated s)
    (calls : List SessionCall) : Compact negotiated (RunHistory.run Session.step s calls) :=
  RunHistory.run_invariant Session.step (fun _ call hs => hs.step call) h calls

/-- The two tables of a compact session as a reader of the source meets them. -/
structure ChannelsAgree (s : Session) : Prop where
  inverse : ∀ (protocolId : ProtocolStableId) (protocolChannelId : ProtocolChannelId)
    (id : ChannelId) (generation : ChannelGeneration),
    s.channelMappings.byProtocol[(protocolId, protocolChannelId)]? = some ⟨id, generation⟩ ↔
      s.channelMappings.bySession[id]? = some (protocolId, protocolChannelId, generation)
  initial : ∀ (id : ChannelId) (entry : ProtocolStableId × ProtocolChannelId × ChannelGeneration),
    s.channelMappings.bySession[id]? = some entry → entry.2.2 = ⟨1⟩
  live : ∀ id : ChannelId, id ∈ s.channelMappings.bySession ↔ id ∈ s.multiplexer.channels
  keys : ∀ (id : ChannelId) (state : ChannelState), s.multiplexer.channels[id]? = some state →
    s.channelMappings.bySession[id]? = some (state.config.key.protocolId,
      state.config.key.protocolChannelId, ⟨1⟩)
  distinct : ∀ (id id' : ChannelId) (state state' : ChannelState),
    s.multiplexer.channels[id]? = some state → s.multiplexer.channels[id']? = some state' →
    state.config.key.protocolId = state'.config.key.protocolId →
    state.config.key.protocolChannelId = state'.config.key.protocolChannelId → id = id'
  retired : s.channelMappings.retired = s.multiplexer.retiredChannels
  room : s.channelMappings.byProtocol.size+s.channelMappings.retired.size ≤ 128

theorem Compact.channelsAgree {negotiated : NegotiatedSession} {s : Session}
    (h : Compact negotiated s) : ChannelsAgree s := by
  have hlive (id : ChannelId) : id ∈ s.channelMappings.bySession ↔
      id ∈ s.multiplexer.channels := by
    rw [ExtTreeMap.mem_iff_isSome_getElem?, ExtTreeMap.mem_iff_isSome_getElem?, h.inStep.live,
      Multiplexer.isSome_carried]
  have hkeys (id : ChannelId) (state : ChannelState)
      (hs : s.multiplexer.channels[id]? = some state) :
      s.channelMappings.bySession[id]? = some (state.config.key.protocolId,
        state.config.key.protocolChannelId, .initial) := by
    have hid := h.inStep.live id
    rw [Multiplexer.carried, hs, Option.map_some, Option.map_some] at hid
    rw [hid, show state.config.generation = .initial from h.inStep.initial id _ hid]
  refine ⟨fun p c id g => h.inStep.mirror (p, c) ⟨id, g⟩, h.inStep.initial, hlive, hkeys, ?_,
    h.inStep.retired, h.inStep.room.trans (le_of_eq h.maximum)⟩
  intro id id' state state' hs hs' hprotocol hchannel
  -- Both ids are the one that the reverse index gives for the shared key.
  have hbound (id : ChannelId) (state : ChannelState)
      (hs : s.multiplexer.channels[id]? = some state) :
      s.channelMappings.byProtocol[(state.config.key.protocolId,
        state.config.key.protocolChannelId)]? = some ⟨id, .initial⟩ :=
    (h.inStep.mirror _ ⟨id, .initial⟩).mpr (hkeys id state hs)
  have hkey := hbound id' state' hs'
  rw [← hprotocol, ← hchannel, hbound id state hs] at hkey
  exact congrArg SessionChannelBinding.channelId (Option.some.inj hkey)

/-- What holds of every state of a session that was established in legacy mode. -/
structure Legacy (s : Session) : Prop where
  legacy : s.dataMode.mode = .legacyFullChannelKey
  byProtocol : s.channelMappings.byProtocol = ∅
  bySession : s.channelMappings.bySession = ∅
  retired : s.channelMappings.retired = ∅

theorem Legacy.established {negotiated : NegotiatedSession} {muxLimits : MultiplexerLimits}
    {maxEventSubscribers : ℕ} {s : Session}
    (h : Session.established negotiated muxLimits maxEventSubscribers = .ok s)
    (hmode : s.dataMode.mode = .legacyFullChannelKey) : Legacy s := by
  unfold Session.established at h
  simp only at h
  split at h
  · cases h
  split at h
  · cases h
  split at h
  · cases h
  next map hmap =>
  cases h
  cases hmap
  exact ⟨hmode, rfl, rfl, rfl⟩

theorem Legacy.step {s : Session} (h : Legacy s) (call : SessionCall) :
    Legacy (s.step call).2 := by
  obtain ⟨hterms, hchannels⟩ := moves_step s call
  have hmode := (congrArg DataModeGuard.mode hterms.dataMode).trans h.legacy
  have hsame (hmap : (s.step call).2.channelMappings = s.channelMappings) :
      Legacy (s.step call).2 := by
    refine ⟨hmode, ?_, ?_, ?_⟩ <;> rw [hmap]
    · exact h.byProtocol
    · exact h.bySession
    · exact h.retired
  cases hchannels with
  | keep channels map => exact hsame map
  | opened opens multiplexer map => exact absurd (h.legacy.symm.trans opens.compact) (by decide)
  | openedLegacy legacy openable multiplexer map => exact hsame map
  | @closed id state live multiplexer map =>
    -- Nothing is bound, so there is nothing to unbind and nothing to retire.
    have hunbound : s.channelMappings.bySession[id]? = none := by
      rw [h.bySession]
      exact ExtTreeMap.getElem?_empty
    refine hsame (map.trans ?_)
    rw [SessionChannelMap.unbind, hunbound]

theorem Legacy.run {s : Session} (h : Legacy s) (calls : List SessionCall) :
    Legacy (RunHistory.run Session.step s calls) :=
  RunHistory.run_invariant Session.step (fun _ call hs => hs.step call) h calls

/-- A refused open or close of a channel. -/
inductive ChannelCallFails (s : Session) : SessionCall → Prop
  | openValidated {v : ValidatedChannel} {e : SessionChannelOpenError}
      (h : (s.openValidatedChannel v).1 = .error e) : ChannelCallFails s (.openValidatedChannel v)
  | openLegacy {v : ValidatedChannel} {e : SessionChannelOpenError}
      (h : (s.openLegacyValidatedChannel v).1 = .error e) :
      ChannelCallFails s (.openLegacyValidatedChannel v)
  | close {id : ChannelId} {e : LinkError} (h : (s.closeChannel id).1 = .error e) :
      ChannelCallFails s (.closeChannel id)

theorem ChannelCallFails.unchanged {s : Session} {call : SessionCall}
    (h : s.ChannelCallFails call) : (s.step call).2 = s := by
  cases h with
  | @openValidated v e h =>
    obtain ⟨e', heq⟩ | ⟨-, heq⟩ := openValidatedChannel_cases s v <;> rw [heq] at h
    · simp only [step, heq, Prod.map_snd, id]
    · cases h
  | @openLegacy v e h =>
    obtain ⟨e', heq⟩ | ⟨-, -, -, -, heq⟩ := openLegacyValidatedChannel_cases s v <;>
      rw [heq] at h
    · simp only [step, heq, Prod.map_snd, id]
    · cases h
  | @close id e h =>
    obtain ⟨e', heq⟩ | ⟨state, -, heq⟩ := closeChannel_cases s id <;> rw [heq] at h
    · simp only [step, heq, Prod.map_snd]
    · cases h

/-- In every reachable state the channel map and the multiplexer describe the same channels, or
the map is empty for a session in legacy mode, and a refused call on a channel changes neither. -/
theorem channel_map_and_multiplexer_agree {negotiated : NegotiatedSession}
    {muxLimits : MultiplexerLimits} {maxEventSubscribers : ℕ} {s₀ : Session}
    (h : Session.established negotiated muxLimits maxEventSubscribers = .ok s₀)
    (calls : List SessionCall) :
    let s := RunHistory.run Session.step s₀ calls
    (s.dataMode.mode = .compactV1 → ChannelsAgree s) ∧
    (s.dataMode.mode = .legacyFullChannelKey → s.channelMappings.byProtocol = ∅ ∧
      s.channelMappings.bySession = ∅ ∧ s.channelMappings.retired = ∅) ∧
    ∀ call, ChannelCallFails s call →
      (s.step call).2.channelMappings = s.channelMappings ∧
      (s.step call).2.multiplexer = s.multiplexer := by
  intro s
  -- The mode was fixed when the session was established.
  have hmode : s.dataMode = s₀.dataMode :=
    RunHistory.run_invariant Session.step (I := fun t => t.dataMode = s₀.dataMode)
      (fun t call ht => (moves_step t call).terms.dataMode.trans ht) rfl calls
  refine ⟨fun hcompact => ?_, fun hlegacy => ?_, fun call hfails => ?_⟩
  · rw [hmode] at hcompact
    exact ((Compact.established h hcompact).run calls).channelsAgree
  · rw [hmode] at hlegacy
    have hrun := (Legacy.established h hlegacy).run calls
    exact ⟨hrun.byProtocol, hrun.bySession, hrun.retired⟩
  · rw [hfails.unchanged]
    exact ⟨rfl, rfl⟩

end Session

namespace Sample
open WireBytes

def terms : NegotiatedSession :=
  { sessionId := ⟨FixedBytes.replicate 16 2⟩
    localIdentity :=
      ⟨⟨FixedBytes.replicate 32 1⟩, ⟨FixedBytes.replicate 16 1⟩, ⟨FixedBytes.replicate 16 1⟩⟩
    remote :=
      ⟨⟨FixedBytes.replicate 32 2⟩, ⟨FixedBytes.replicate 16 2⟩, ⟨FixedBytes.replicate 16 2⟩⟩
    linkVersion := ⟨1, 0⟩, linkCapabilities := ⟨33⟩
    protocols := [⟨⟨FixedBytes.replicate 16 7⟩, ⟨1, 0⟩,
      ⟨⟨FixedBytes.replicate 16 3⟩, 1, ⟨FixedBytes.replicate 32 4⟩⟩,
      ⟨⟨FixedBytes.replicate 16 7⟩, [5]⟩⟩]
    authPath := .firstPairing }

def validated (id : UInt32) : ValidatedChannel :=
  { config := {
      key := ⟨⟨FixedBytes.replicate 16 7⟩, ⟨1, 0⟩, ⟨1⟩⟩, id := ⟨id⟩, generation := .initial
      mode := .event, priorityHint := 1, capacity := 4, maxFrameBytes := 16
      maxStreamBytes := none, discardable := true }
    protocolId := ⟨FixedBytes.replicate 16 7⟩, protocolChannelId := ⟨1⟩
    schema := ⟨⟨FixedBytes.replicate 16 3⟩, 1, ⟨FixedBytes.replicate 32 4⟩⟩
    capabilities := ⟨⟨FixedBytes.replicate 16 7⟩, [5]⟩, debugName := none, maxFrameBytes := 16
    maxStreamBytes := none, discardable := true }

/-- The channel is bound, refused a second time under another id, closed and bound again. -/
def channelCalls : List SessionCall :=
  [.openValidatedChannel (validated 5), .openValidatedChannel (validated 6),
    .closeChannel ⟨5⟩, .openValidatedChannel (validated 6)]

end Sample

theorem Session.sample_channel_map_and_multiplexer_agree :
    ∃ s₀, Session.established Sample.terms {} 4 = .ok s₀ ∧
      (RunHistory.run Session.step s₀ Sample.channelCalls).channelMappings.bySession.size = 1 ∧
      (RunHistory.run Session.step s₀ Sample.channelCalls).channelMappings.retired.size = 1 ∧
      ChannelsAgree (RunHistory.run Session.step s₀ Sample.channelCalls) := by
  refine ⟨_, rfl, rfl, rfl, ?_⟩
  have hestablished : Session.established Sample.terms {} 4 = .ok _ := rfl
  exact (channel_map_and_multiplexer_agree hestablished Sample.channelCalls).1 rfl

end MutsukiLink
