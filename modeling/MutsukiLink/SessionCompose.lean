import MutsukiLink.HandshakeAgreement
import MutsukiLink.RegistryActivation
import MutsukiLink.SessionChannels

/-! The registries, the handshake and the sessions of two peers together: what was negotiated is
activated on both sides alike, and a session refuses an admitted channel only for reasons of its
own state. -/
namespace MutsukiLink
open HandshakeMachine (SoundSelection)
open Std (ExtTreeMap ExtTreeSet)

/-- The protocols of an active set with their versions. -/
def ActiveProtocolSet.versions (a : ActiveProtocolSet) : Set (ProtocolStableId × ProtocolVersion) :=
  {p | ∃ (id : ProtocolStableId) (protocol : ActiveProtocol),
    a.active[id]? = some protocol ∧ p = (protocol.stableId, protocol.version)}

/-- The active set of a registry for a list of selections. -/
structure Activated (r : FrozenProtocolRegistry) (selected : List ProtocolSelection)
    (a : ActiveProtocolSet) : Prop where
  activate_eq : r.activate selected = .ok a
  active_iff : ∀ (id : ProtocolStableId) (p : ActiveProtocol), a.active[id]? = some p ↔
    ∃ s ∈ selected, ∃ d, s.stableId = id ∧ r.Activable s d ∧ p = .of d s
  activable : ∀ s ∈ selected, ∃ d, r.Activable s d

theorem activated_of_sound {r : FrozenProtocolRegistry} (hr : Catalogued r.descriptors)
    {selected : List ProtocolSelection} (hsound : SoundSelection r.offers selected)
    (hbounded : ∀ s ∈ selected, s.capabilities.isBounded = true) : ∃ a, Activated r selected a := by
  have hactivable : ∀ s ∈ selected, ∃ d, r.Activable s d := fun s hs =>
    FrozenProtocolRegistry.activable_of_admitted hr (hbounded s hs) (hsound.admitted s hs)
  obtain ⟨a, ha, hiff⟩ := FrozenProtocolRegistry.activate_ok hsound.nodup hactivable
  exact ⟨a, ha, hiff, hactivable⟩

theorem Activated.versions_eq {r : FrozenProtocolRegistry} {selected : List ProtocolSelection}
    {a : ActiveProtocolSet} (h : Activated r selected a) :
    a.versions = {p | ∃ s ∈ selected, p = (s.stableId, s.version)} := by
  ext p
  constructor
  · rintro ⟨id, protocol, hp, rfl⟩
    obtain ⟨s, hs, d, -, -, rfl⟩ := (h.active_iff id protocol).mp hp
    exact ⟨s, hs, rfl⟩
  · rintro ⟨s, hs, rfl⟩
    obtain ⟨d, hd⟩ := h.activable s hs
    exact ⟨s.stableId, .of d s, (h.active_iff _ _).mpr ⟨s, hs, d, rfl, hd, rfl⟩, rfl⟩

/-- The reasons for which a session may refuse a channel that its active protocols admit. -/
inductive Refusal (s : Session) (request : ChannelOpenRequest) : Prop
  | inactive (h : s.state ≠ .established ∧ s.state ≠ .draining)
  | controlChannel (h : request.channelId = controlChannelId)
  | live (h : request.channelId ∈ s.multiplexer.channels)
  | retired (h : request.channelId ∈ s.multiplexer.retiredChannels)
  | bound (h : (request.protocolId, request.protocolChannelId) ∈ s.channelMappings.byProtocol)
  | mappingLimit (h : 128 ≤ s.channelMappings.byProtocol.size+s.channelMappings.retired.size)
  | channelLimit (h : s.multiplexer.limits.maxChannels ≤
      s.multiplexer.channels.size+s.multiplexer.retiredChannels.size)

/-- A channel that a negotiated protocol defines, as the request asks for it. -/
structure Offered (protocols : List ProtocolSelection) (request : ChannelOpenRequest)
    (v : ValidatedChannel) (selection : ProtocolSelection) (channel : ProtocolChannelDescriptor) :
    Prop where
  selected : selection ∈ protocols
  protocol_eq : selection.stableId = request.protocolId
  channel_eq : channel.id = request.protocolChannelId
  valid : ValidChannel channel
  capacity_ne : request.capacity ≠ 0
  validated : ∃ d, v = .of (.of d selection) channel request

theorem Activated.offered {r : FrozenProtocolRegistry} {selected : List ProtocolSelection}
    {a : ActiveProtocolSet} (h : Activated r selected a) (hr : Catalogued r.descriptors)
    {request : ChannelOpenRequest} {v : ValidatedChannel} (hopen : a.openChannel request = .ok v) :
    ∃ selection channel, Offered selected request v selection channel := by
  obtain ⟨protocol, channel, hadmits⟩ := openChannel_ok hopen
  obtain ⟨s, hs, d, hid, hd, rfl⟩ := (h.active_iff _ _).mp hadmits.protocol_eq
  have hvalid : ValidDescriptor d := (hr _ _ hd.registered).2
  obtain ⟨hmem, hchannel⟩ := mem_of_channels hadmits.channel_eq
  exact ⟨s, channel, hs, hid, hchannel, hvalid.channels channel hmem, hadmits.capacity_ne, d,
    hadmits.validated⟩

namespace Offered
variable {negotiated : NegotiatedSession} {s : Session} {request : ChannelOpenRequest}
  {v : ValidatedChannel} {selection : ProtocolSelection} {channel : ProtocolChannelDescriptor}

theorem matches_session (h : Offered negotiated.protocols request v selection channel)
    (hs : s.Compact negotiated) : s.validatedChannelMatchesSession v = true := by
  obtain ⟨d, rfl⟩ := h.validated
  simp only [Session.validatedChannelMatchesSession, ValidatedChannel.of, beq_self_eq_true,
    Bool.and_self, Bool.true_and, List.any_eq_true, hs.protocols]
  exact ⟨selection, h.selected, by simp [ActiveProtocol.of]⟩

theorem bindable (h : Offered negotiated.protocols request v selection channel)
    (hs : s.Compact negotiated) (hfree : ¬Refusal s request) :
    s.channelMappings.Bindable v.acceptedMapping := by
  obtain ⟨d, rfl⟩ := h.validated
  have hkey : (selection.stableId, channel.id) = (request.protocolId, request.protocolChannelId) :=
    Prod.ext h.protocol_eq h.channel_eq
  constructor
  · exact h.valid.id_ne
  · intro hzero
    exact hfree (.controlChannel (congrArg ChannelId.mk hzero))
  · intro hmem
    exact hfree (.bound (hkey ▸ hmem))
  -- The map and the multiplexer list the same channels, so a bound one is live.
  · intro hmem
    have hlive : request.channelId ∈ s.channelMappings.bySession := hmem
    rw [ExtTreeMap.mem_iff_isSome_getElem?, hs.inStep.live, Multiplexer.isSome_carried] at hlive
    exact hfree (.live (ExtTreeMap.mem_iff_isSome_getElem?.mpr hlive))
  · rw [hs.inStep.retired]
    exact fun hmem => hfree (.retired hmem)
  · rw [hs.maximum]
    exact not_le.mp fun hle => hfree (.mappingLimit hle)

theorem openable (h : Offered negotiated.protocols request v selection channel)
    (hs : s.Compact negotiated) (hfree : ¬Refusal s request) : s.multiplexer.Openable v.config := by
  obtain ⟨d, rfl⟩ := h.validated
  constructor
  · exact fun hzero => hfree (.controlChannel hzero)
  · change ChannelGeneration.initial.val ≠ 0
    decide
  · exact h.capacity_ne
  · exact h.valid.frame_ne
  · exact h.valid.discard_mode
  · have hmode := h.valid.stream_mode
    exact Bool.eq_iff_iff.mpr ((decide_eq_true_iff).trans hmode)
  · intro allowed hallowed
    obtain rfl := Option.some.inj (hs.allowed.symm.trans hallowed)
    rw [ExtTreeSet.mem_ofList, List.contains_iff_mem]
    exact List.mem_map.mpr ⟨selection, h.selected, rfl⟩
  · exact not_le.mp fun hle => hfree (.channelLimit hle)
  · exact fun hmem => hfree (.retired hmem)
  · by_contra hsome
    exact hfree
      (.live (ExtTreeMap.mem_iff_isSome_getElem?.mpr (Option.isSome_iff_ne_none.mpr hsome)))

/-- The session opens an offered channel unless it has one of its own reasons not to. -/
theorem opens_iff (h : Offered negotiated.protocols request v selection channel)
    (hs : s.Compact negotiated) : s.Opens v ↔ ¬Refusal s request := by
  constructor
  · intro hopens hrefusal
    obtain ⟨d, rfl⟩ := h.validated
    have hkey : (selection.stableId, channel.id) =
        (request.protocolId, request.protocolChannelId) := Prod.ext h.protocol_eq h.channel_eq
    -- Each reason contradicts one guard of the session.
    cases hrefusal with
    | inactive hstate =>
      have hactive := hopens.active
      simp [Session.active, hstate.1, hstate.2] at hactive
    | controlChannel hzero => exact hopens.openable.id_ne hzero
    | live hmem =>
      exact absurd hopens.openable.not_live
        (Option.isSome_iff_ne_none.mp (ExtTreeMap.mem_iff_isSome_getElem?.mp hmem))
    | retired hmem => exact hopens.openable.not_retired hmem
    | bound hmem => exact hopens.bindable.key_new (hkey ▸ hmem)
    | mappingLimit hle =>
      have hroom := hopens.bindable.room
      rw [hs.maximum] at hroom
      exact absurd hle (not_le.mpr hroom)
    | channelLimit hle => exact absurd hle (not_le.mpr hopens.openable.room)
  · intro hfree
    refine ⟨?_, hs.typed, hs.compact, h.matches_session hs, h.bindable hs hfree,
      h.openable hs hfree⟩
    by_contra hinactive
    refine hfree (.inactive ?_)
    simpa [Session.active] using hinactive

end Offered

/-- In every state that a compact session over `negotiated` reaches, a channel that the active set
admits is refused for one of the listed reasons and for no other. -/
def OpensAdmitted (a : ActiveProtocolSet) (negotiated : NegotiatedSession) : Prop :=
  ∀ muxLimits maxEventSubscribers s₀,
    Session.established negotiated muxLimits maxEventSubscribers = .ok s₀ →
    s₀.dataMode.mode = .compactV1 → ∀ calls request v, a.openChannel request = .ok v →
      ((∃ e, ((RunHistory.run Session.step s₀ calls).openValidatedChannel v).1 = .error e) ↔
        Refusal (RunHistory.run Session.step s₀ calls) request)

theorem Activated.opensAdmitted {r : FrozenProtocolRegistry} {negotiated : NegotiatedSession}
    {a : ActiveProtocolSet} (h : Activated r negotiated.protocols a)
    (hr : Catalogued r.descriptors) : OpensAdmitted a negotiated := by
  intro muxLimits maxEventSubscribers s₀ hs₀ hmode calls request v hopen
  obtain ⟨selection, channel, hoffered⟩ := h.offered hr hopen
  have hs := (Session.Compact.established hs₀ hmode).run calls
  rw [Session.openValidatedChannel_error_iff, hoffered.opens_iff hs, not_not]

/-- Registry, handshake and session compose: when the catalogues of two peers are the offers of
registries and both report a session, each registry activates what was negotiated, to the same
protocols and versions, and neither session refuses an admitted channel without a reason of its
own. -/
theorem registry_handshake_and_session_compose (derive : String → String → ProtocolStableId)
    (initiatorConfig responderConfig : HandshakeConfig) (actions : List NetworkAction)
    {initiated responded : NegotiatedSession}
    (hinitiated : initiated ∈ (RunHistory.run (Network.step derive)
      (Network.fresh initiatorConfig responderConfig) actions).initiatorSessions)
    (hresponded : responded ∈ (RunHistory.run (Network.step derive)
      (Network.fresh initiatorConfig responderConfig) actions).responderSessions)
    {initiatorLimits responderLimits : ProtocolRegistryLimits} {i₀ r₀ : ProtocolRegistry}
    (hi₀ : ProtocolRegistry.new initiatorLimits = .ok i₀)
    (hr₀ : ProtocolRegistry.new responderLimits = .ok r₀)
    (initiatorDescriptors responderDescriptors : List ProtocolDescriptor)
    (hinitiator : initiatorConfig.policy.catalogue initiated.authPath =
      (RunHistory.run (ProtocolRegistry.register derive) i₀ initiatorDescriptors).freeze.offers)
    (hresponder : responderConfig.policy.catalogue responded.authPath =
      (RunHistory.run (ProtocolRegistry.register derive) r₀ responderDescriptors).freeze.offers) :
    ∃ ai ar,
      (RunHistory.run (ProtocolRegistry.register derive) i₀ initiatorDescriptors).freeze.activate
        initiated.protocols = .ok ai ∧
      (RunHistory.run (ProtocolRegistry.register derive) r₀ responderDescriptors).freeze.activate
        responded.protocols = .ok ar ∧
      ai.versions = ar.versions ∧ OpensAdmitted ai initiated ∧ OpensAdmitted ar responded := by
  -- Both sessions come from one opening, so they name the same selections.
  obtain ⟨ti, tr, hlinked⟩ := Network.Linked.run derive initiatorConfig responderConfig actions
  obtain ⟨o, a, c, g, rfl, hsessions, hpaired⟩ := hlinked.paired hinitiated
  rw [hsessions, List.mem_singleton] at hresponded
  subst hresponded
  have hsame : (c.session a).protocols = g.session.protocols := hpaired.agree.protocols
  have hbounded : ∀ s ∈ g.session.protocols, s.capabilities.isBounded = true :=
    (Network.selection_passes hpaired.hello).2.1
  have hi := (ProtocolRegistry.Registered.new hi₀).run derive initiatorDescriptors
  have hr := (ProtocolRegistry.Registered.new hr₀).run derive responderDescriptors
  -- Each registry offers what it has registered, and the selections were made among the offers.
  obtain ⟨ai, hai⟩ := activated_of_sound hi.catalogued
    (hinitiator ▸ (c.soundSession a).selection) (hsame ▸ hbounded)
  obtain ⟨ar, har⟩ := activated_of_sound hr.catalogued
    (hresponder ▸ g.soundSession.selection) hbounded
  refine ⟨ai, ar, hai.activate_eq, har.activate_eq, ?_, hai.opensAdmitted hi.catalogued,
    har.opensAdmitted hr.catalogued⟩
  rw [hai.versions_eq, har.versions_eq, hsame]

namespace Sample
open WireBytes

/-- Every frame in order, and the identity accepted. -/
def exchange : List NetworkAction :=
  [.start .initiator .firstPairing, .deliver .responder 0, .deliver .initiator 0,
    .deliver .responder 1, .decideIdentity .responder .accept, .deliver .initiator 1,
    .deliver .responder 2, .deliver .initiator 2]

def session (localIdentity remote : Identity) : NegotiatedSession :=
  { sessionId := ⟨FixedBytes.replicate 16 2⟩, localIdentity, remote, linkVersion := ⟨1, 0⟩
    linkCapabilities := ⟨33⟩
    protocols := [⟨offer.stableId, ⟨1, 2⟩, offer.schema, offer.capabilities⟩]
    authPath := .firstPairing }

def request : ChannelOpenRequest :=
  { protocolId := offer.stableId, protocolChannelId := ⟨1⟩, channelId := ⟨5⟩, capacity := 2 }

end Sample

theorem sample_peers_compose :
    ∃ ai ar s₀ v,
      Sample.registry.freeze.activate (Sample.session (Sample.identity 1)
        (Sample.identity 2)).protocols = .ok ai ∧
      Sample.registry.freeze.activate (Sample.session (Sample.identity 2)
        (Sample.identity 1)).protocols = .ok ar ∧
      ai.versions = ar.versions ∧
      Session.established (Sample.session (Sample.identity 1) (Sample.identity 2)) {} 4 = .ok s₀ ∧
      ai.openChannel Sample.request = .ok v ∧
      ((∃ e, ((RunHistory.run Session.step s₀ [.abort]).openValidatedChannel v).1 = .error e) ↔
        Refusal (RunHistory.run Session.step s₀ [.abort]) Sample.request) := by
  have hnew : ProtocolRegistry.new {} =
      .ok { limits := {}, descriptors := ∅, totalChannels := 0 } :=
    rfl
  have hinitiated : Sample.session (Sample.identity 1) (Sample.identity 2) ∈
      (RunHistory.run (Network.step Sample.derive) (Network.fresh (Sample.handshakeConfig 1)
        (Sample.handshakeConfig 2)) Sample.exchange).initiatorSessions :=
    List.mem_of_getElem? (i := 0) rfl
  have hresponded : Sample.session (Sample.identity 2) (Sample.identity 1) ∈
      (RunHistory.run (Network.step Sample.derive) (Network.fresh (Sample.handshakeConfig 1)
        (Sample.handshakeConfig 2)) Sample.exchange).responderSessions :=
    List.mem_of_getElem? (i := 0) rfl
  obtain ⟨ai, ar, hai, har, hversions, hopens, -⟩ := registry_handshake_and_session_compose
    Sample.derive (Sample.handshakeConfig 1) (Sample.handshakeConfig 2) Sample.exchange hinitiated
    hresponded hnew hnew [Sample.descriptor] [Sample.descriptor] rfl rfl
  obtain ⟨s₀, hs₀⟩ : ∃ s₀, Session.established
      (Sample.session (Sample.identity 1) (Sample.identity 2)) {} 4 = .ok s₀ := ⟨_, rfl⟩
  have hmode : s₀.dataMode.mode = .compactV1 := by
    obtain rfl := Except.ok.inj hs₀
    rfl
  obtain ⟨v, hv⟩ : ∃ v, ai.openChannel Sample.request = .ok v := by
    obtain rfl := Except.ok.inj hai
    exact ⟨_, rfl⟩
  exact ⟨ai, ar, s₀, v, hai, har, hversions, hs₀, hv, hopens _ _ s₀ hs₀ hmode _ _ v hv⟩

end MutsukiLink
