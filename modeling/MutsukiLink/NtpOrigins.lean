import MutsukiLink.NtpFuse
import MutsukiLink.NtpSources

/-! Where the results of a subscriber come from. As long as its messages are frames of published
results, what the subscriber holds and what it hands over was published. -/
namespace MutsukiLink.Ntp
open WireBytes

/-- What is encoded is decoded again. -/
def RoundTrips (P : ReceivingProtocol) : Prop :=
  ∀ (result : P.Result) bytes, P.encodeResult result = .ok bytes →
    P.decodeResult bytes = .ok result

section Origins
variable {P : ReceivingProtocol}

/-- A published result, without landmarks or with those of a published result of its session and
generation that is no newer. -/
def ResultFrom (S : Publication P.toTrackingProtocol → Prop) (result : P.Result) : Prop :=
  ∃ x landmarks, S x ∧ result = { x.result with faceLandmarks := landmarks } ∧
    (landmarks = [] ∨ ∃ y, S y ∧ y.result.sessionId = x.result.sessionId ∧
      y.result.generation = x.result.generation ∧ y.result.sequence ≤ x.result.sequence ∧
      landmarks = y.result.faceLandmarks)

/-- A compact frame that a guard has read from the compact part of a published result, under the
generation and the sequence of that result. -/
def FrameFrom (S : Publication P.toTrackingProtocol → Prop)
    (frame : CompactFrameRef P.CompactBody) : Prop :=
  ∃ x bytes guard clock, S x ∧ PartOf x.result compactRigFlow bytes ∧
    frame.generation = x.result.generation ∧ frame.sequence = x.result.sequence ∧
    (P.acceptCompact guard bytes clock).1 = .ok frame

/-- What a poll hands over was published. -/
structure RepliesFrom (S : Publication P.toTrackingProtocol → Prop)
    (reply : Except P.Failure (Received P)) : Prop where
  result : ∀ received result, reply = .ok received → received.result = some result →
    ResultFrom S result
  frame : ∀ received frame, reply = .ok received → received.frame = some frame →
    FrameFrom S frame

/-- What a subscriber holds was published. -/
structure Fed (S : Publication P.toTrackingProtocol → Prop) (config : BindingConfig)
    (c : RealtimeSubscriber P) : Prop where
  config_eq : c.config = config
  reliable : c.reliable.All fun received =>
    Genuine S received.flow received.generation received.sequence received.payload
  core : Reassembler.Sound (bookOf S config coreResultFlow) c.coreReassembly
  geometry : Reassembler.Sound (bookOf S config geometryFlow) c.geometryReassembly
  cache : ∀ cache, c.geometryCache = some cache → ∃ x, S x ∧ cache =
    ⟨x.result.sessionId, x.result.generation, x.result.sequence, x.result.faceLandmarks⟩

variable {S S' : Publication P.toTrackingProtocol → Prop} {config : BindingConfig}
  {c c' : RealtimeSubscriber P} {message : ReceivedRealtimeDatagram}
  {clock : ProducerClockEstimate}

theorem RepliesFrom.error (e : P.Failure) : RepliesFrom S (.error e) := by
  refine ⟨?_, ?_⟩
  · intro received result h
    cases h
  · intro received frame h
    cases h

/-- A reply that hands nothing over. -/
theorem RepliesFrom.quiet {received : Received P} (hresult : received.result = none)
    (hframe : received.frame = none) : RepliesFrom S (.ok received) := by
  refine ⟨?_, ?_⟩
  · intro received' result h hsome
    rw [← Except.ok.inj h, hresult] at hsome
    cases hsome
  · intro received' frame h hsome
    rw [← Except.ok.inj h, hframe] at hsome
    cases hsome

/-- A reply that hands over one result. -/
theorem RepliesFrom.ofResult {result : P.Result} (h : ResultFrom S result) :
    RepliesFrom S (.ok ⟨.progress, some result, none⟩) := by
  refine ⟨?_, ?_⟩
  · intro received result' hreceived hresult
    rw [← Except.ok.inj hreceived] at hresult
    obtain rfl := Option.some.inj hresult
    exact h
  · intro received frame hreceived hframe
    rw [← Except.ok.inj hreceived] at hframe
    cases hframe

/-- A reply that hands over one compact frame. -/
theorem RepliesFrom.ofFrame {frame : CompactFrameRef P.CompactBody} (h : FrameFrom S frame) :
    RepliesFrom S (.ok ⟨.progress, none, some frame⟩) := by
  refine ⟨?_, ?_⟩
  · intro received result hreceived hresult
    rw [← Except.ok.inj hreceived] at hresult
    cases hresult
  · intro received frame' hreceived hframe
    rw [← Except.ok.inj hreceived] at hframe
    obtain rfl := Option.some.inj hframe
    exact h

theorem Fed.mono (h : Fed S config c) (hle : ∀ x, S x → S' x) : Fed S' config c := by
  refine ⟨h.config_eq, ?_, h.core.mono (bookOf_mono hle), h.geometry.mono (bookOf_mono hle), ?_⟩
  · intro flow received hreceived
    exact (h.reliable flow received hreceived).mono hle
  · intro cache hcache
    obtain ⟨x, hx, heq⟩ := h.cache cache hcache
    exact ⟨x, hle x hx, heq⟩

/-- The other fields do not matter. -/
theorem Fed.congr (h : Fed S config c) (hconfig : c'.config = c.config)
    (hreliable : c'.reliable = c.reliable) (hcore : c'.coreReassembly = c.coreReassembly)
    (hgeometry : c'.geometryReassembly = c.geometryReassembly)
    (hcache : c'.geometryCache = c.geometryCache) : Fed S config c' := by
  refine ⟨hconfig.trans h.config_eq, ?_, ?_, ?_, ?_⟩
  · rw [hreliable]
    exact h.reliable
  · rw [hcore]
    exact h.core
  · rw [hgeometry]
    exact h.geometry
  · rw [hcache]
    exact h.cache

theorem Fed.admitCompact (h : Fed S config c) (message : ReceivedRealtimeDatagram) (now : ℕ) :
    Fed S config (c.admitCompact message now).2 ∧
      (c.admitCompact message now).2.transportMode = c.transportMode := by
  unfold RealtimeSubscriber.admitCompact
  split
  · split
    · exact ⟨h, rfl⟩
    next active hactive =>
    unfold ReceivingSubscriber.noteReceivedFrame
    rcases c.budgets.note c.config.maxBurstFps _ now with ⟨passed, budgets⟩
    cases passed with
    | true => exact ⟨h.congr rfl rfl rfl rfl rfl, rfl⟩
    | false => exact ⟨h.congr rfl rfl rfl rfl rfl, rfl⟩
  · exact ⟨h, rfl⟩

theorem Fed.receiveCompact (h : Fed S config c) (A : SubscriberSession P.toTrackingProtocol)
    (hgenuine : Genuine S compactRigFlow message.generation message.sequence message.payload) :
    Fed S config (c.receiveCompact A message clock).2 ∧
      RepliesFrom S (c.receiveCompact A message clock).1 := by
  unfold RealtimeSubscriber.receiveCompact
  split
  · exact ⟨h.congr rfl rfl rfl rfl rfl, .error _⟩
  split
  · exact ⟨h.congr rfl rfl rfl rfl rfl, .error _⟩
  next frame compactGuard haccept =>
  dsimp only
  split
  · exact ⟨h.congr rfl rfl rfl rfl rfl, .error _⟩
  next hsame =>
  rw [not_or, not_not, not_not] at hsame
  obtain ⟨x, hx, hgeneration, hsequence, hpart⟩ := hgenuine
  refine ⟨h.congr rfl rfl rfl rfl rfl, .ofFrame ?_⟩
  exact ⟨x, _, A.compactGuard, clock, hx, hpart, hsame.2.trans hgeneration.symm,
    hsame.1.trans hsequence.symm, by rw [haccept]⟩

/-- A frame that a message stands for or completes is a part of a published result. -/
theorem Fed.assemble (h : Fed S config c) (honce : OneCut S)
    (hcomes : Comes S c.transportMode message)
    (hflow : message.flow = coreResultFlow ∨ message.flow = geometryFlow)
    (reassembler : Reassembler)
    (hsound : Reassembler.Sound (bookOf S config message.flow) reassembler) :
    Reassembler.Sound (bookOf S config message.flow) (c.assemble reassembler message).2.1 ∧
      ∀ frame, (c.assemble reassembler message).1 = .ok (some frame) →
        Genuine S message.flow frame.generation frame.sequence frame.payload := by
  unfold RealtimeSubscriber.assemble
  split
  next hreliable =>
    rw [hreliable] at hcomes
    refine ⟨hsound, ?_⟩
    intro frame hframe
    obtain rfl := Option.some.inj (Except.ok.inj hframe)
    exact hcomes
  next hdatagram =>
  have hmode : c.transportMode = .datagram := by
    cases hother : c.transportMode with
    | reliableLatestOnly => exact absurd hother hdatagram
    | datagram => rfl
  rw [hmode] at hcomes
  obtain ⟨datagram, hshipped, hdelivers⟩ := hcomes
  have hcases := hshipped.datagram_cases
  rw [← hdelivers.flow, ← hdelivers.generation, ← hdelivers.sequence, ← hdelivers.payload]
    at hcases
  rcases hcases with ⟨hcompact, -⟩ | ⟨-, payload, size, config₀, hgenuine, hcuts, hfragment, hbook⟩
  · rw [hcompact] at hflow
    exact absurd hflow (by decide)
  have hpush := Reassembler.push_from (ε := P.Error) (bookOf_consistent honce config hflow) hsound
    hcuts hfragment (hbook config)
  rw [h.config_eq]
  split
  next e reassembler' heq =>
    rw [heq] at hpush
    refine ⟨hpush.1, ?_⟩
    intro frame hframe
    cases hframe
  next outcome reassembler' heq =>
    rw [heq] at hpush
    refine ⟨hpush.1, ?_⟩
    intro frame hframe
    rw [hpush.2 outcome frame rfl (Except.ok.inj hframe)]
    exact hgenuine

/-- The landmarks of a result are those of a published one. -/
theorem Fed.withLandmarks (h : Fed S config c) {x : Publication P.toTrackingProtocol} (hx : S x) :
    ResultFrom S (c.withLandmarks { x.result with faceLandmarks := [] }) := by
  unfold RealtimeSubscriber.withLandmarks
  split
  · exact ⟨x, [], hx, rfl, Or.inl rfl⟩
  next cache hcache =>
  split
  next hfits =>
    obtain ⟨y, hy, rfl⟩ := h.cache cache hcache
    exact ⟨x, y.result.faceLandmarks, hx, rfl, Or.inr ⟨y, hy, hfits.1, hfits.2.1, hfits.2.2, rfl⟩⟩
  · exact ⟨x, [], hx, rfl, Or.inl rfl⟩

theorem Fed.acceptCore (h : Fed S config c) (hcodec : RoundTrips P) {frame : AssembledFrame}
    (hgenuine : Genuine S coreResultFlow frame.generation frame.sequence frame.payload) :
    Fed S config (c.acceptCore frame clock).2 ∧ RepliesFrom S (c.acceptCore frame clock).1 := by
  obtain ⟨x, hx, -, -, hpart⟩ := hgenuine
  have hfrom := h.withLandmarks hx
  unfold RealtimeSubscriber.acceptCore
  rw [hcodec _ _ hpart.core_eq]
  dsimp only
  split
  · exact ⟨h, .error _⟩
  split
  · exact ⟨h.congr rfl rfl rfl rfl rfl, .quiet rfl rfl⟩
  split
  · exact ⟨h, .error _⟩
  split
  · exact ⟨h, .error _⟩
  split
  · exact ⟨h.congr rfl rfl rfl rfl rfl, .error _⟩
  exact ⟨h.congr rfl rfl rfl rfl rfl, .ofResult hfrom⟩

theorem Fed.acceptGeometry (h : Fed S config c) (hcodec : RoundTrips P) {frame : AssembledFrame}
    (hgenuine : Genuine S geometryFlow frame.generation frame.sequence frame.payload) :
    Fed S config (c.acceptGeometry frame).2 ∧ RepliesFrom S (c.acceptGeometry frame).1 := by
  obtain ⟨x, hx, hgeneration, hsequence, hpart⟩ := hgenuine
  unfold RealtimeSubscriber.acceptGeometry
  rw [hcodec _ _ hpart.geometry_eq]
  dsimp only
  split
  · exact ⟨h, .error _⟩
  split
  · exact ⟨h, .error _⟩
  split
  · exact ⟨h, .error _⟩
  refine ⟨⟨h.config_eq, h.reliable, h.core, h.geometry, ?_⟩, .quiet rfl rfl⟩
  intro cache hcache
  obtain rfl := Option.some.inj hcache
  exact ⟨x, hx, by rw [hgeneration, hsequence]⟩

theorem Fed.receiveCore (h : Fed S config c) (honce : OneCut S) (hcodec : RoundTrips P)
    (hcomes : Comes S c.transportMode message) (hflow : message.flow = coreResultFlow) :
    Fed S config (c.receiveCore message clock).2 ∧
      RepliesFrom S (c.receiveCore message clock).1 := by
  have hassembled := h.assemble honce hcomes (Or.inl hflow) c.coreReassembly (hflow ▸ h.core)
  rw [hflow] at hassembled
  unfold RealtimeSubscriber.receiveCore
  split
  next e reassembler report heq =>
    rw [heq] at hassembled
    exact ⟨⟨h.config_eq, h.reliable, hassembled.1, h.geometry, h.cache⟩, .error _⟩
  next reassembler report heq =>
    rw [heq] at hassembled
    exact ⟨⟨h.config_eq, h.reliable, hassembled.1, h.geometry, h.cache⟩, .quiet rfl rfl⟩
  next frame reassembler report heq =>
    rw [heq] at hassembled
    have hfed : Fed S config { c with coreReassembly := reassembler, report } :=
      ⟨h.config_eq, h.reliable, hassembled.1, h.geometry, h.cache⟩
    exact hfed.acceptCore hcodec (hassembled.2 frame rfl)

theorem Fed.receiveGeometry (h : Fed S config c) (honce : OneCut S) (hcodec : RoundTrips P)
    (hcomes : Comes S c.transportMode message) (hflow : message.flow = geometryFlow) :
    Fed S config (c.receiveGeometry message).2 ∧ RepliesFrom S (c.receiveGeometry message).1 := by
  have hassembled := h.assemble honce hcomes (Or.inr hflow) c.geometryReassembly
    (hflow ▸ h.geometry)
  rw [hflow] at hassembled
  unfold RealtimeSubscriber.receiveGeometry
  split
  next e reassembler report heq =>
    rw [heq] at hassembled
    exact ⟨⟨h.config_eq, h.reliable, h.core, hassembled.1, h.cache⟩, .error _⟩
  next reassembler report heq =>
    rw [heq] at hassembled
    exact ⟨⟨h.config_eq, h.reliable, h.core, hassembled.1, h.cache⟩, .quiet rfl rfl⟩
  next frame reassembler report heq =>
    rw [heq] at hassembled
    have hfed : Fed S config { c with geometryReassembly := reassembler, report } :=
      ⟨h.config_eq, h.reliable, h.core, hassembled.1, h.cache⟩
    exact hfed.acceptGeometry hcodec (hassembled.2 frame rfl)

/-- A compact message is whole in either mode. -/
theorem Comes.compact {mode : TrackingTransportMode} (h : Comes S mode message)
    (hflow : message.flow = compactRigFlow) :
    Genuine S compactRigFlow message.generation message.sequence message.payload := by
  cases mode with
  | reliableLatestOnly => exact hflow ▸ h
  | datagram =>
    obtain ⟨datagram, hshipped, hdelivers⟩ := h
    rcases hshipped.datagram_cases with ⟨-, hgenuine⟩ | ⟨hother, -⟩
    · rw [hdelivers.generation, hdelivers.sequence, hdelivers.payload]
      exact hgenuine
    · exact absurd (hdelivers.flow.symm.trans hflow) hother

theorem Fed.receive (h : Fed S config c) (honce : OneCut S) (hcodec : RoundTrips P)
    (hcomes : Comes S c.transportMode message) (clock : ProducerClockEstimate) (now : ℕ) :
    Fed S config (c.receive message clock now).2 ∧
      RepliesFrom S (c.receive message clock now).1 := by
  obtain ⟨hadmitted, hmode⟩ := h.admitCompact message now
  unfold RealtimeSubscriber.receive
  split
  next e c₁ heq =>
    rw [heq] at hadmitted
    exact ⟨hadmitted, .error _⟩
  next c₁ heq =>
  rw [heq] at hadmitted hmode
  rw [← hmode] at hcomes
  split
  · exact ⟨hadmitted.congr rfl rfl rfl rfl rfl, .error _⟩
  split
  · exact ⟨hadmitted, .error _⟩
  next active hactive =>
  split
  · exact ⟨hadmitted.congr rfl rfl rfl rfl rfl, .quiet rfl rfl⟩
  split
  next hflow => exact hadmitted.receiveCompact active (hcomes.compact hflow)
  split
  next hflow => exact hadmitted.receiveCore honce hcodec hcomes hflow
  split
  next hflow => exact hadmitted.receiveGeometry honce hcodec hcomes hflow
  · exact ⟨hadmitted, .quiet rfl rfl⟩

end Origins

section Calls
variable {σ : Type} {P : ReceivingProtocol} {S : Publication P.toTrackingProtocol → Prop}
  {config : BindingConfig} {c : RealtimeSubscriber P} {connection : ReceivingConnection σ}

/-- All that the connection hands out is a frame of one of the publications. -/
structure Brings (connection : ReceivingConnection σ)
    (S : Publication P.toTrackingProtocol → Prop) : Prop where
  reliable : ∀ s wire s', connection.tryReceive s = (.ok (some wire), s') →
    Shipped S (.reliable wire)
  realtime : ∀ s message s', connection.tryReceiveRealtime s = (.ok (some message), s') →
    ∃ datagram, Shipped S (.realtime datagram) ∧ Delivers datagram message

theorem Fed.nextMessage (h : Fed S config c) (hbrings : Brings connection S) (s : σ)
    (readings : ℕ → ℕ) :
    Fed S config (c.nextMessage connection s readings).2.1 ∧
      (c.nextMessage connection s readings).2.1.transportMode = c.transportMode ∧
      ∀ message, (c.nextMessage connection s readings).1 = .ok (some message) →
        Comes S c.transportMode message := by
  unfold RealtimeSubscriber.nextMessage
  split
  next hdatagram =>
    split
    next message s₁ hreceive =>
      refine ⟨h, rfl, ?_⟩
      intro message' hmessage
      obtain rfl := Except.ok.inj hmessage
      rw [hdatagram]
      exact hbrings.realtime s message' s₁ hreceive
    · split
      · refine ⟨h, rfl, ?_⟩
        intro message hmessage
        cases Except.ok.inj hmessage
      · refine ⟨h, rfl, ?_⟩
        intro message hmessage
        cases hmessage
  next hreliable =>
    have hmode : c.transportMode = .reliableLatestOnly := by
      cases hother : c.transportMode with
      | reliableLatestOnly => rfl
      | datagram => exact absurd hother hreliable
    have hgiven : ∀ s₀ wire s₁, connection.tryReceive s₀ = (.ok (some wire), s₁) →
        ∀ receivedAt received, decodeReliable (ε := P.Error) wire c.config.maxTrackingFrameBytes
          receivedAt = .ok received →
        Genuine S received.flow received.generation received.sequence received.payload := by
      intro s₀ wire s₁ hreceive receivedAt received hdecode
      obtain ⟨frame, rfl, hgenuine⟩ := (hbrings.reliable s₀ wire s₁ hreceive).wire_eq
      have hfields := ReliableLatestReceiver.ofReceived_eq hdecode
      rw [frame.ofWire_wire] at hfields
      rw [← hfields] at hgenuine
      exact hgenuine
    have hpolled := ReliableLatestReceiver.poll_all hgiven readings
      c.config.maxReceiveFramesPerPoll h.reliable s
    split
    next result reliable s₁ heq =>
    rw [heq] at hpolled
    refine ⟨⟨h.config_eq, hpolled.1, h.core, h.geometry, h.cache⟩, rfl, ?_⟩
    intro message hmessage
    rw [hmode]
    exact hpolled.2 message hmessage

theorem Fed.pollRealtime (h : Fed S config c) (hbrings : Brings connection S) (honce : OneCut S)
    (hcodec : RoundTrips P) (s : σ) (clock : ProducerClockEstimate) (now : ℕ)
    (readings : ℕ → ℕ) :
    Fed S config (c.pollRealtime connection s clock now readings).2.1 ∧
      RepliesFrom S (c.pollRealtime connection s clock now readings).1 := by
  have hinner : Fed S config (c.pollRealtimeInner connection s clock now readings).2.1 ∧
      RepliesFrom S (c.pollRealtimeInner connection s clock now readings).1 := by
    obtain ⟨htaken, hmode, hcomes⟩ := h.nextMessage hbrings s readings
    unfold RealtimeSubscriber.pollRealtimeInner
    split
    next e c₁ s₁ heq =>
      rw [heq] at htaken
      exact ⟨htaken, .error e⟩
    next c₁ s₁ heq =>
      rw [heq] at htaken
      exact ⟨htaken, .quiet rfl rfl⟩
    next message c₁ s₁ heq =>
      rw [heq] at htaken hmode hcomes
      exact htaken.receive honce hcodec (hmode.symm ▸ hcomes message rfl) clock now
  unfold RealtimeSubscriber.pollRealtime
  split
  · exact ⟨h, .error _⟩
  split
  next received c₁ s₁ heq =>
    rw [heq] at hinner
    exact hinner
  next e c₁ s₁ heq =>
    rw [heq] at hinner
    refine ⟨?_, .error e⟩
    dsimp only
    split
    · exact hinner.1.congr rfl rfl rfl rfl rfl
    · exact hinner.1

theorem Fed.control (h : Fed S config c) (connection : NtpConnection σ) (s : σ)
    (call : SubscriberCall) : Fed S config (c.control connection s call).2.1 := by
  have hmove := Subscriber.perform_move connection c.toSubscriber s call
  unfold RealtimeSubscriber.control
  generalize c.toSubscriber.perform connection s call = performed at hmove
  obtain ⟨reply, subscriber, s₁⟩ := performed
  have hconfig := hmove.books.config.trans h.config_eq
  rcases hmove.session with hsame | ⟨A, hopens⟩
  · exact h.congr hmove.books.config rfl hsame.coreReassembly hsame.geometryReassembly
      hsame.geometryCache
  · refine ⟨hconfig, h.reliable, ?_, ?_, ?_⟩
    · show Reassembler.Sound _ subscriber.coreReassembly
      rw [hopens.coreReassembly]
      exact Reassembler.sound_new
    · show Reassembler.Sound _ subscriber.geometryReassembly
      rw [hopens.geometryReassembly]
      exact Reassembler.sound_new
    · intro cache hcache
      have hnone : some cache = none := Eq.trans (Eq.symm hcache) hopens.geometryCache
      cases hnone

theorem Fed.resetForReconnect (h : Fed S config c) (connection : NtpConnection σ) (s fresh : σ)
    (metadata : ConnectionMetadata) (authorization : NtpAuthorization) (now later : ℕ) :
    Fed S config (c.resetForReconnect connection s fresh metadata authorization now later).2.1 := by
  unfold RealtimeSubscriber.resetForReconnect
  split
  · exact h
  split
  · exact h
  dsimp only
  split
  · exact h.congr rfl rfl rfl rfl rfl
  · refine ⟨h.config_eq, ReliableLatestReceiver.all_empty rfl, Reassembler.sound_new,
      Reassembler.sound_new, ?_⟩
    intro cache hcache
    cases hcache

/-- A call of the subscriber takes in and hands over what was published. -/
theorem Fed.receiverStep (h : Fed S config c) (hbrings : Brings connection S) (honce : OneCut S)
    (hcodec : RoundTrips P) (s : σ) (call : ReceiverCall σ) :
    Fed S config (Ntp.receiverStep connection (c, s) call).2.1 ∧
      ∀ reply, (Ntp.receiverStep connection (c, s) call).1 = .polled reply →
        RepliesFrom S reply := by
  cases call with
  | pollRealtime clock now readings =>
    obtain ⟨hfed, hreply⟩ := h.pollRealtime hbrings honce hcodec s clock now readings
    refine ⟨hfed, ?_⟩
    intro reply heq
    obtain rfl := ReceiverReply.polled.inj heq
    exact hreply
  | control call =>
    refine ⟨h.control connection.toNtpConnection s call, ?_⟩
    intro reply heq
    cases heq
  | resetForReconnect fresh metadata authorization now later =>
    refine ⟨h.resetForReconnect connection.toNtpConnection s fresh metadata authorization now
      later, ?_⟩
    intro reply heq
    cases heq

/-- A new subscriber holds nothing. -/
theorem Fed.start {connection : NtpConnection σ} {s : σ} {metadata : ConnectionMetadata}
    {authorization : NtpAuthorization} {now later : ℕ}
    (hnew : RealtimeSubscriber.new connection s metadata authorization config now later = .ok c)
    (S : Publication P.toTrackingProtocol → Prop) : Fed S config c := by
  obtain ⟨hconfig, -, -, -, -, -, -, -, hcache⟩ := RealtimeSubscriber.new_cases hnew
  have hempty : c.reliable = {} ∧ c.coreReassembly = .new ∧ c.geometryReassembly = .new := by
    unfold RealtimeSubscriber.new at hnew
    split at hnew
    · cases hnew
    next receiving hreceiving =>
    obtain rfl := Except.ok.inj hnew
    unfold ReceivingSubscriber.new at hreceiving
    split at hreceiving
    · cases hreceiving
    next subscriber hsubscriber =>
    obtain rfl := Except.ok.inj hreceiving
    unfold Subscriber.new at hsubscriber
    split at hsubscriber
    · cases hsubscriber
    split at hsubscriber
    · cases hsubscriber
    split at hsubscriber
    · cases hsubscriber
    split at hsubscriber
    · cases hsubscriber
    obtain rfl := Except.ok.inj hsubscriber
    exact ⟨rfl, rfl, rfl⟩
  obtain ⟨hreliable, hcore, hgeometry⟩ := hempty
  refine ⟨hconfig, ?_, ?_, ?_, ?_⟩
  · rw [hreliable]
    exact ReliableLatestReceiver.all_empty rfl
  · rw [hcore]
    exact Reassembler.sound_new
  · rw [hgeometry]
    exact Reassembler.sound_new
  · intro cache hsome
    rw [hcache] at hsome
    cases hsome

end Calls

end MutsukiLink.Ntp
