import MutsukiLink.NtpReceiveModel
import MutsukiLink.ReassemblerRuns

/-! What one poll of the data side can do. Everything that later modules say about received
messages rests on `pollRealtime_cases`. -/
namespace MutsukiLink
open WireBytes

namespace Reassembler
variable {ε : Type} {a : Reassembler}

/-- A push fails as an invalid fragment, or it completes nothing, or it completes the frame that the
fragment names. -/
theorem push_completed (ha : a.Wf) (generation : UInt32) (sequence : UInt64) (payload : Bytes)
    (config : BindingConfig) :
    ∃ a' result, a.push (ε := ε) generation sequence payload config = (result, a') ∧ a'.Wf ∧
      (result = .error .invalidFragment ∨ ∃ outcome, result = .ok outcome ∧
        (outcome.completed = none ∨ ∃ bytes,
          outcome.completed = some ⟨generation, sequence, bytes⟩)) := by
  have hwf := push_wf (ε := ε) ha generation sequence payload config
  have hcases := push_cases (ε := ε) ha generation sequence payload config
  generalize a.push (ε := ε) generation sequence payload config = pushed at hwf hcases
  obtain ⟨result, a'⟩ := pushed
  refine ⟨a', result, rfl, hwf, ?_⟩
  cases hcases with
  | old | older | repeated | stored => exact Or.inr ⟨_, rfl, Or.inl rfl⟩
  | refused | spoiled => exact Or.inl rfl
  | completed => exact Or.inr ⟨_, rfl, Or.inr ⟨_, rfl⟩⟩

end Reassembler

namespace Ntp

/-- The part of a session that results are checked against. -/
structure ResultSide (P : TrackingProtocol) where
  descriptor : P.Descriptor
  sessionId : NtpSessionId
  generation : UInt32
  resultGuard : P.ResultStreamGuard

def SubscriberSession.resultSide {P : TrackingProtocol} (A : SubscriberSession P) : ResultSide P :=
  ⟨A.descriptor, A.sessionId, A.generation, A.resultGuard⟩

/-- What the cache keeps of a geometry. -/
def cacheOf {P : ReceivingProtocol} (geometry : P.Result) : GeometryCache P.toTrackingProtocol :=
  ⟨geometry.sessionId, geometry.generation, geometry.sequence, geometry.faceLandmarks⟩

namespace RealtimeSubscriber
variable {σ : Type} {P : ReceivingProtocol}

def resultSide (c : RealtimeSubscriber P) : Option (ResultSide P.toTrackingProtocol) :=
  c.active.map SubscriberSession.resultSide

/-- The reassemblers are in a state that pushes leave. -/
structure Sound (c : RealtimeSubscriber P) : Prop where
  core : c.coreReassembly.Wf
  geometry : c.geometryReassembly.Wf

/-- What no message changes. -/
structure Kept (c c' : RealtimeSubscriber P) : Prop where
  config : c'.config = c.config
  authorization : c'.authorization = c.authorization
  protocolViolations : c'.protocolViolations = c.protocolViolations
  malformedFrames : c'.malformedFrames = c.malformedFrames
  fused : c'.fused = c.fused

theorem Kept.refl (c : RealtimeSubscriber P) : Kept c c := ⟨rfl, rfl, rfl, rfl, rfl⟩

theorem Kept.trans {c c' c'' : RealtimeSubscriber P} (h : Kept c c') (h' : Kept c' c'') :
    Kept c c'' :=
  ⟨h'.config.trans h.config, h'.authorization.trans h.authorization,
    h'.protocolViolations.trans h.protocolViolations, h'.malformedFrames.trans h.malformedFrames,
    h'.fused.trans h.fused⟩

/-- Neither the session nor the cache changes, and only what is dropped is counted. -/
structure Counts (c c' : RealtimeSubscriber P) : Prop where
  kept : c.Kept c'
  active : c'.active = c.active
  geometryCache : c'.geometryCache = c.geometryCache
  sound : c.Sound → c'.Sound
  received : c'.report.received = c.report.received
  dropped : c.report.dropped.toNat ≤ c'.report.dropped.toNat

theorem Counts.refl (c : RealtimeSubscriber P) : Counts c c :=
  ⟨.refl c, rfl, rfl, id, rfl, le_refl _⟩

/-- A result passes the age limit, the descriptor and the guard of the session. -/
structure Admits (c : RealtimeSubscriber P) (clock : ProducerClockEstimate)
    (decoded result : P.Result) (A : ResultSide P.toTrackingProtocol) (missing : UInt64)
    (resultGuard : P.ResultStreamGuard) : Prop where
  decodes : ∃ payload, P.decodeResult payload = .ok decoded
  session : c.resultSide = some A
  generation : decoded.generation = A.generation
  landmarks : result = c.withLandmarks decoded
  fresh : (clock.nowNs.saturatingSub result.captureTimestampNs).toNat ≤
    (c.config.maxResultAgeNs.saturatingAdd clock.uncertaintyNs).toNat
  valid : P.validateResult A.descriptor result = .ok ()
  accepted : P.acceptResult A.resultGuard result = (.ok missing, resultGuard)

/-- What a message does with the results of the session. -/
inductive ResultMove (c c' : RealtimeSubscriber P) (clock : ProducerClockEstimate) :
    Except P.Failure (Received P) → Prop
  | nothing {reply : Except P.Failure (Received P)}
    (hnone : ∀ received, reply = .ok received → received.result = none)
    (hside : c'.resultSide = c.resultSide) (hcache : c'.geometryCache = c.geometryCache)
    (hreceived : c'.report.received = c.report.received) : ResultMove c c' clock reply
  | refused (A : ResultSide P.toTrackingProtocol) (result : P.Result) (e : P.Error)
    (resultGuard : P.ResultStreamGuard) (hsession : c.resultSide = some A)
    (hrefused : P.acceptResult A.resultGuard result = (.error e, resultGuard))
    (hside : c'.resultSide = some { A with resultGuard })
    (hcache : c'.geometryCache = c.geometryCache)
    (hreceived : c'.report.received = c.report.received) :
    ResultMove c c' clock (.error (.stream e))
  | cached (A : ResultSide P.toTrackingProtocol) (result : P.Result)
    (hsession : c.resultSide = some A) (hside : c'.resultSide = c.resultSide)
    (hdecodes : ∃ payload, P.decodeResult payload = .ok result)
    (hid : result.sessionId = A.sessionId) (hgeneration : result.generation = A.generation)
    (hvalid : P.validateResult A.descriptor result = .ok ())
    (hcache : c'.geometryCache = some
      ⟨result.sessionId, result.generation, result.sequence, result.faceLandmarks⟩)
    (hreceived : c'.report.received = c.report.received) : ResultMove c c' clock (.ok .progress)
  | delivered (A : ResultSide P.toTrackingProtocol) (decoded result : P.Result) (missing : UInt64)
    (resultGuard : P.ResultStreamGuard) (hadmits : c.Admits clock decoded result A missing
      resultGuard) (hside : c'.resultSide = some { A with resultGuard })
    (hcache : c'.geometryCache = c.geometryCache)
    (hreceived : c'.report.received = c.report.received.saturatingAdd 1)
    (hdropped : min (c.report.dropped.toNat+missing.toNat) UInt64.maxNat ≤
      c'.report.dropped.toNat) : ResultMove c c' clock (.ok ⟨.progress, some result, none⟩)

/-- A reply to a message, and the subscriber after it. -/
structure Handled (c c' : RealtimeSubscriber P) (clock : ProducerClockEstimate)
    (reply : Except P.Failure (Received P)) : Prop where
  kept : c.Kept c'
  sound : c'.Sound
  notFused : reply ≠ .error .channelFused
  move : ResultMove c c' clock reply

section Messages
variable {c c' : RealtimeSubscriber P} {clock : ProducerClockEstimate}
  {message : ReceivedRealtimeDatagram}

/-- A reply that leaves the results alone. -/
theorem Handled.quiet {reply : Except P.Failure (Received P)} (hkept : c.Kept c')
    (hsound : c'.Sound)
    (hfused : reply ≠ .error .channelFused)
    (hnone : ∀ received, reply = .ok received → received.result = none)
    (hside : c'.resultSide = c.resultSide) (hcache : c'.geometryCache = c.geometryCache)
    (hreceived : c'.report.received = c.report.received) : Handled c c' clock reply :=
  ⟨hkept, hsound, hfused, .nothing hnone hside hcache hreceived⟩

/-- An error other than that of the fuse, with the results left alone. -/
theorem Handled.error {e : P.Failure} (hkept : c.Kept c') (hsound : c'.Sound)
    (hfused : e ≠ .channelFused) (hside : c'.resultSide = c.resultSide)
    (hcache : c'.geometryCache = c.geometryCache)
    (hreceived : c'.report.received = c.report.received) : Handled c c' clock (.error e) := by
  refine .quiet hkept hsound ?_ ?_ hside hcache hreceived
  · intro h
    exact hfused (Except.error.inj h)
  · intro received h
    cases h

theorem noteDropped_le (report : ReceiverReport) :
    report.dropped.toNat ≤ report.noteDropped.dropped.toNat := by
  show report.dropped.toNat ≤ (report.dropped.saturatingAdd 1).toNat
  have hle := report.dropped.toNat_le_maxNat
  rw [UInt64.toNat_saturatingAdd]
  omega

/-- Besides the frame rates, a compact frame changes what is dropped. -/
theorem admitCompact_cases (c : RealtimeSubscriber P) (message : ReceivedRealtimeDatagram)
    (now : ℕ) :
    (∃ e, c.admitCompact message now = (.error e, (c.admitCompact message now).2) ∧
      e ≠ .channelFused) ∨
        c.admitCompact message now = (.ok (), (c.admitCompact message now).2) := by
  unfold admitCompact
  split
  · split
    · exact Or.inl ⟨_, rfl, nofun⟩
    next active hactive =>
    unfold ReceivingSubscriber.noteReceivedFrame
    rcases c.budgets.note c.config.maxBurstFps _ now with ⟨passed, budgets⟩
    cases passed with
    | true => exact Or.inr rfl
    | false => exact Or.inl ⟨_, rfl, nofun⟩
  · exact Or.inr rfl

theorem admitCompact_counts (c : RealtimeSubscriber P) (message : ReceivedRealtimeDatagram)
    (now : ℕ) : c.Counts (c.admitCompact message now).2 := by
  unfold admitCompact
  split
  · split
    · exact .refl c
    next active hactive =>
    unfold ReceivingSubscriber.noteReceivedFrame
    rcases c.budgets.note c.config.maxBurstFps _ now with ⟨passed, budgets⟩
    cases passed with
    | true =>
      exact ⟨⟨rfl, rfl, rfl, rfl, rfl⟩, rfl, rfl, fun h => ⟨h.core, h.geometry⟩, rfl, le_refl _⟩
    | false => exact ⟨⟨rfl, rfl, rfl, rfl, rfl⟩, rfl, rfl, fun h => ⟨h.core, h.geometry⟩, rfl,
        noteDropped_le _⟩
  · exact .refl c

theorem receiveCompact_handled (hc : c.Sound) {A : SubscriberSession P.toTrackingProtocol}
    (hactive : c.active = some A) :
    Handled c (c.receiveCompact A message clock).2 clock (c.receiveCompact A message clock).1 := by
  have hside (compactGuard : P.CompactStreamGuard) :
      some (SubscriberSession.resultSide { A with compactGuard }) = c.resultSide := by
    rw [resultSide, hactive]
    rfl
  unfold receiveCompact
  split
  · exact .error ⟨rfl, rfl, rfl, rfl, rfl⟩ ⟨hc.core, hc.geometry⟩ nofun rfl rfl rfl
  split
  next e compactGuard haccept =>
    exact .error ⟨rfl, rfl, rfl, rfl, rfl⟩ ⟨hc.core, hc.geometry⟩ nofun (hside compactGuard) rfl rfl
  next frame compactGuard haccept =>
  simp only
  split
  · exact .error ⟨rfl, rfl, rfl, rfl, rfl⟩ ⟨hc.core, hc.geometry⟩ nofun (hside compactGuard) rfl rfl
  · refine .quiet ⟨rfl, rfl, rfl, rfl, rfl⟩ ⟨hc.core, hc.geometry⟩ nofun ?_ (hside compactGuard)
      rfl rfl
    intro received h
    rw [← Except.ok.inj h]

/-- A message stands for at most one frame, which has its generation and its sequence. -/
theorem assemble_cases (c : RealtimeSubscriber P) (message : ReceivedRealtimeDatagram)
    {reassembler : Reassembler} (h : reassembler.Wf) :
    ∃ result reassembler' report, c.assemble reassembler message = (result, reassembler', report) ∧
      reassembler'.Wf ∧ report.received = c.report.received ∧
      c.report.dropped.toNat ≤ report.dropped.toNat ∧
      (result = .error .invalidFragment ∨ result = .ok none ∨ ∃ payload,
        result = .ok (some ⟨message.generation, message.sequence, payload⟩)) := by
  unfold assemble
  split
  · exact ⟨_, _, _, rfl, h, rfl, le_refl _, Or.inr (Or.inr ⟨message.payload, rfl⟩)⟩
  obtain ⟨a', result, hpush, hwf, hresult⟩ := Reassembler.push_completed (ε := P.Error) h
    message.generation message.sequence message.payload c.config
  rw [hpush]
  rcases hresult with rfl | ⟨outcome, rfl, hcompleted⟩
  · exact ⟨_, _, _, rfl, hwf, rfl, le_refl _, Or.inl rfl⟩
  refine ⟨_, _, _, rfl, hwf, ?_, ?_, ?_⟩
  · split <;> rfl
  · split
    · exact noteDropped_le c.report
    · exact le_refl _
  · rcases hcompleted with hnone | ⟨bytes, hsome⟩
    · exact Or.inr (Or.inl (congrArg Except.ok hnone))
    · exact Or.inr (Or.inr ⟨bytes, congrArg Except.ok hsome⟩)

/-- What is counted before a message is handled does not matter to it. -/
theorem Handled.after {c₀ : RealtimeSubscriber P} {reply : Except P.Failure (Received P)}
    (h : Handled c c' clock reply) (h₀ : Counts c₀ c) : Handled c₀ c' clock reply := by
  have hside : c.resultSide = c₀.resultSide := by
    rw [resultSide, h₀.active]
    rfl
  refine ⟨h₀.kept.trans h.kept, h.sound, h.notFused, ?_⟩
  cases h.move with
  | nothing hnone hside' hcache hreceived =>
    exact .nothing hnone (hside'.trans hside) (hcache.trans h₀.geometryCache)
      (hreceived.trans h₀.received)
  | refused A result e resultGuard hsession hrefused hside' hcache hreceived =>
    exact .refused A result e resultGuard (hside ▸ hsession) hrefused hside'
      (hcache.trans h₀.geometryCache) (hreceived.trans h₀.received)
  | cached A result hsession hside' hdecodes hid hgeneration hvalid hcache hreceived =>
    exact .cached A result (hside ▸ hsession) (hside'.trans hside) hdecodes hid hgeneration hvalid
      hcache
      (hreceived.trans h₀.received)
  | delivered A decoded result missing resultGuard hadmits hside' hcache hreceived hdropped =>
    have hle := h₀.dropped
    refine .delivered A decoded result missing resultGuard ?_ hside'
      (hcache.trans h₀.geometryCache) (h₀.received ▸ hreceived) (by omega)
    obtain ⟨hdecodes, hsession, hgeneration, hlandmarks, hfresh, hvalid, haccepted⟩ := hadmits
    refine ⟨hdecodes, hside ▸ hsession, hgeneration, ?_, ?_, hvalid, haccepted⟩
    · rw [hlandmarks, withLandmarks, h₀.geometryCache]
      rfl
    · rw [← h₀.kept.config]
      exact hfresh

theorem acceptCore_handled (hc : c.Sound) {A : SubscriberSession P.toTrackingProtocol}
    (hactive : c.active = some A) {frame : AssembledFrame}
    (hgeneration : frame.generation = A.generation) :
    Handled c (c.acceptCore frame clock).2 clock (c.acceptCore frame clock).1 := by
  have hsession : c.resultSide = some A.resultSide := by
    rw [resultSide, hactive]
    rfl
  unfold acceptCore
  split
  · exact .error (.refl c) hc nofun rfl rfl rfl
  next decoded hdecode =>
  split
  · exact .error (.refl c) hc nofun rfl rfl rfl
  next hsame =>
  rw [not_or, not_not, not_not] at hsame
  dsimp only
  split
  · refine .quiet ⟨rfl, rfl, rfl, rfl, rfl⟩ ⟨hc.core, hc.geometry⟩ nofun ?_ rfl rfl rfl
    intro received h
    rw [← Except.ok.inj h]
    rfl
  next hfresh =>
  rw [hactive]
  dsimp only
  split
  · exact .error (.refl c) hc nofun rfl rfl rfl
  next hvalid =>
  split
  next e resultGuard haccept =>
    exact ⟨⟨rfl, rfl, rfl, rfl, rfl⟩, ⟨hc.core, hc.geometry⟩, nofun,
      .refused A.resultSide _ e resultGuard hsession haccept rfl rfl rfl⟩
  next missing resultGuard haccept =>
    refine ⟨⟨rfl, rfl, rfl, rfl, rfl⟩, ⟨hc.core, hc.geometry⟩, nofun,
      .delivered A.resultSide decoded _ missing resultGuard ?_ rfl rfl rfl ?_⟩
    · refine ⟨⟨_, hdecode⟩, hsession, hsame.1.trans hgeneration, rfl, ?_, hvalid, haccept⟩
      rw [UInt64.lt_iff_toNat_lt, Nat.not_lt] at hfresh
      exact hfresh
    · show _ ≤ (c.report.dropped.saturatingAdd missing).toNat
      rw [UInt64.toNat_saturatingAdd]

theorem receiveCore_handled (hc : c.Sound) {A : SubscriberSession P.toTrackingProtocol}
    (hactive : c.active = some A) (hgeneration : message.generation = A.generation) :
    Handled c (c.receiveCore message clock).2 clock (c.receiveCore message clock).1 := by
  unfold receiveCore
  obtain ⟨result, coreReassembly, report, hassemble, hwf, hreceived, hdropped, hresult⟩ :=
    c.assemble_cases message hc.core
  have hcounts : Counts c { c with coreReassembly, report } :=
    ⟨⟨rfl, rfl, rfl, rfl, rfl⟩, rfl, rfl, fun _ => ⟨hwf, hc.geometry⟩, hreceived, hdropped⟩
  rw [hassemble]
  rcases hresult with rfl | rfl | ⟨payload, rfl⟩
  · exact .error hcounts.kept (hcounts.sound hc) nofun rfl rfl hreceived
  · refine .quiet hcounts.kept (hcounts.sound hc) nofun ?_ rfl rfl hreceived
    intro received h
    rw [← Except.ok.inj h]
    rfl
  · exact (acceptCore_handled (hcounts.sound hc) hactive hgeneration).after hcounts

theorem acceptGeometry_handled (hc : c.Sound) {A : SubscriberSession P.toTrackingProtocol}
    (hactive : c.active = some A) {frame : AssembledFrame}
    (hgeneration : frame.generation = A.generation) :
    Handled c (c.acceptGeometry frame).2 clock (c.acceptGeometry frame).1 := by
  have hsession : c.resultSide = some A.resultSide := by
    rw [resultSide, hactive]
    rfl
  unfold acceptGeometry
  split
  · exact .error (.refl c) hc nofun rfl rfl rfl
  next result hdecode =>
  rw [hactive]
  dsimp only
  split
  · exact .error (.refl c) hc nofun rfl rfl rfl
  next hsame =>
  simp only [not_or, not_not] at hsame
  obtain ⟨hid, hgeneration', hsequence⟩ := hsame
  split
  · exact .error (.refl c) hc nofun rfl rfl rfl
  next hvalid =>
  refine ⟨⟨rfl, rfl, rfl, rfl, rfl⟩, ⟨hc.core, hc.geometry⟩, nofun,
    .cached A.resultSide result hsession hsession.symm ⟨_, hdecode⟩ hid
      (hgeneration'.trans hgeneration) hvalid ?_ rfl⟩
  · rw [hgeneration', hsequence]

theorem receiveGeometry_handled (hc : c.Sound) {A : SubscriberSession P.toTrackingProtocol}
    (hactive : c.active = some A) (hgeneration : message.generation = A.generation) :
    Handled c (c.receiveGeometry message).2 clock (c.receiveGeometry message).1 := by
  unfold receiveGeometry
  obtain ⟨result, geometryReassembly, report, hassemble, hwf, hreceived, hdropped, hresult⟩ :=
    c.assemble_cases message hc.geometry
  have hcounts : Counts c { c with geometryReassembly, report } :=
    ⟨⟨rfl, rfl, rfl, rfl, rfl⟩, rfl, rfl, fun _ => ⟨hc.core, hwf⟩, hreceived, hdropped⟩
  rw [hassemble]
  rcases hresult with rfl | rfl | ⟨payload, rfl⟩
  · exact .error hcounts.kept (hcounts.sound hc) nofun rfl rfl hreceived
  · refine .quiet hcounts.kept (hcounts.sound hc) nofun ?_ rfl rfl hreceived
    intro received h
    rw [← Except.ok.inj h]
    rfl
  · exact (acceptGeometry_handled (hcounts.sound hc) hactive hgeneration).after hcounts

theorem receive_handled (hc : c.Sound) (message : ReceivedRealtimeDatagram)
    (clock : ProducerClockEstimate) (now : ℕ) :
    Handled c (c.receive message clock now).2 clock (c.receive message clock now).1 := by
  have hcounts := c.admitCompact_counts message now
  unfold receive
  rcases c.admitCompact_cases message now with ⟨e, heq, hfused⟩ | heq
  · rw [heq]
    have hside : (c.admitCompact message now).2.resultSide = c.resultSide := by
      rw [resultSide, hcounts.active]
      rfl
    exact .error hcounts.kept (hcounts.sound hc) hfused hside hcounts.geometryCache
      hcounts.received
  rw [heq]
  generalize (c.admitCompact message now).2 = c₁ at hcounts
  have hsound := hcounts.sound hc
  refine Handled.after (c := c₁) ?_ hcounts
  dsimp only
  split
  · exact .error ⟨rfl, rfl, rfl, rfl, rfl⟩ ⟨hsound.core, hsound.geometry⟩ nofun rfl rfl rfl
  split
  · exact .error (.refl c₁) hsound nofun rfl rfl rfl
  next A hactive =>
  have hprogress {c₂ : RealtimeSubscriber P} (hkept : c₁.Kept c₂) (hsound : c₂.Sound)
      (hside : c₂.resultSide = c₁.resultSide) (hcache : c₂.geometryCache = c₁.geometryCache)
      (hreceived : c₂.report.received = c₁.report.received) :
      Handled c₁ c₂ clock (.ok .progress) := by
    refine .quiet hkept hsound nofun ?_ hside hcache hreceived
    intro received h
    rw [← Except.ok.inj h]
    rfl
  split
  · exact hprogress ⟨rfl, rfl, rfl, rfl, rfl⟩ ⟨hsound.core, hsound.geometry⟩ rfl rfl rfl
  next hgeneration =>
  rw [not_not] at hgeneration
  split
  · exact receiveCompact_handled hsound hactive
  split
  · exact receiveCore_handled hsound hactive hgeneration
  split
  · exact receiveGeometry_handled hsound hactive hgeneration
  · exact hprogress (.refl c₁) hsound rfl rfl rfl

/-! ### The geometry that a message completes -/

/-- The frame holds a geometry that belongs to the session and is valid in it. -/
structure HoldsGeometry (A : ResultSide P.toTrackingProtocol) (frame : AssembledFrame)
    (geometry : P.Result) : Prop where
  decodes : P.decodeResult frame.payload = .ok geometry
  generation : geometry.generation = frame.generation
  sequence : geometry.sequence = frame.sequence
  sessionId : geometry.sessionId = A.sessionId
  valid : P.validateResult A.descriptor geometry = .ok ()

/-- The message completes a geometry of the open session. -/
structure Completes (c : RealtimeSubscriber P) (message : ReceivedRealtimeDatagram)
    (A : ResultSide P.toTrackingProtocol) (geometry : P.Result) : Prop where
  flow : message.flow = geometryFlow
  short : message.payload.length ≤ c.config.maxTrackingFrameBytes
  session : c.resultSide = some A
  current : message.generation = A.generation
  frame : ∃ frame : AssembledFrame,
    (c.assemble c.geometryReassembly message).1 = .ok (some frame) ∧
      HoldsGeometry A frame geometry

theorem receiveCompact_cache (A : SubscriberSession P.toTrackingProtocol) :
    (c.receiveCompact A message clock).2.geometryCache = c.geometryCache := by
  unfold receiveCompact
  split
  · rfl
  split
  · rfl
  · dsimp only
    split <;> rfl

theorem acceptCore_cache (frame : AssembledFrame) :
    (c.acceptCore frame clock).2.geometryCache = c.geometryCache := by
  unfold acceptCore
  split
  · rfl
  split
  · rfl
  dsimp only
  split
  · rfl
  split
  · rfl
  split
  · rfl
  split <;> rfl

theorem receiveCore_cache :
    (c.receiveCore message clock).2.geometryCache = c.geometryCache := by
  unfold receiveCore
  split
  · rfl
  · rfl
  · exact acceptCore_cache _

/-- A message of another flow leaves the cache alone. -/
theorem receive_cache_other (hflow : message.flow ≠ geometryFlow) (now : ℕ) :
    (c.receive message clock now).2.geometryCache = c.geometryCache := by
  have hcounts := c.admitCompact_counts message now
  unfold receive
  rcases c.admitCompact_cases message now with ⟨e, heq, -⟩ | heq
  · rw [heq]
    exact hcounts.geometryCache
  rw [heq, ← hcounts.geometryCache]
  generalize (c.admitCompact message now).2 = c₁
  dsimp only
  split
  · rfl
  split
  · rfl
  split
  · rfl
  split
  · exact receiveCompact_cache _
  split
  · exact receiveCore_cache
  · rfl

theorem acceptGeometry_cache {A : SubscriberSession P.toTrackingProtocol}
    (hactive : c.active = some A) (frame : AssembledFrame) :
    (∃ geometry, HoldsGeometry A.resultSide frame geometry ∧
      (c.acceptGeometry frame).2.geometryCache = some (cacheOf geometry)) ∨
    ((∀ geometry, ¬HoldsGeometry A.resultSide frame geometry) ∧
      (c.acceptGeometry frame).2.geometryCache = c.geometryCache) := by
  unfold acceptGeometry
  cases hdecode : P.decodeResult frame.payload with
  | error e =>
    refine .inr ⟨fun geometry h => ?_, rfl⟩
    rw [h.decodes] at hdecode
    cases hdecode
  | ok result =>
    have hsame {geometry : P.Result} (h : HoldsGeometry A.resultSide frame geometry) :
        geometry = result := Except.ok.inj (h.decodes.symm.trans hdecode)
    rw [hactive]
    dsimp only
    split
    · next hother =>
      refine .inr ⟨fun geometry h => ?_, rfl⟩
      obtain rfl := hsame h
      rcases hother with hid | hgeneration | hsequence
      · exact hid h.sessionId
      · exact hgeneration h.generation
      · exact hsequence h.sequence
    next hkey =>
    simp only [not_or, not_not] at hkey
    obtain ⟨hid, hgeneration, hsequence⟩ := hkey
    split
    · next e hinvalid =>
      refine .inr ⟨fun geometry h => ?_, rfl⟩
      obtain rfl := hsame h
      have hvalid := h.valid.symm.trans hinvalid
      cases hvalid
    · next hvalid =>
      refine .inl ⟨result, ⟨hdecode, hgeneration, hsequence, hid, hvalid⟩, ?_⟩
      rw [cacheOf, hgeneration, hsequence]

theorem receiveGeometry_cache {A : SubscriberSession P.toTrackingProtocol}
    (hactive : c.active = some A) (message : ReceivedRealtimeDatagram) :
    (∃ frame geometry, (c.assemble c.geometryReassembly message).1 = .ok (some frame) ∧
      HoldsGeometry A.resultSide frame geometry ∧
      (c.receiveGeometry message).2.geometryCache = some (cacheOf geometry)) ∨
    ((∀ frame geometry, (c.assemble c.geometryReassembly message).1 = .ok (some frame) →
        ¬HoldsGeometry A.resultSide frame geometry) ∧
      (c.receiveGeometry message).2.geometryCache = c.geometryCache) := by
  unfold receiveGeometry
  obtain ⟨result, geometryReassembly, report⟩ := c.assemble c.geometryReassembly message
  rcases result with e | _ | frame
  · refine .inr ⟨fun frame geometry h => ?_, rfl⟩
    cases h
  · refine .inr ⟨fun frame geometry h => ?_, rfl⟩
    cases h
  · have hframe := acceptGeometry_cache (c := { c with geometryReassembly, report }) hactive frame
    rcases hframe with ⟨geometry, hholds, hcache⟩ | ⟨hnone, hcache⟩
    · exact .inl ⟨frame, geometry, rfl, hholds, hcache⟩
    · refine .inr ⟨fun frame' geometry h => ?_, hcache⟩
      obtain rfl := Option.some.inj (Except.ok.inj h)
      exact hnone geometry

/-- A message replaces the cache if and only if it completes a geometry. -/
theorem receive_cache (c : RealtimeSubscriber P) (message : ReceivedRealtimeDatagram)
    (clock : ProducerClockEstimate) (now : ℕ) :
    (∃ A geometry, c.Completes message A geometry ∧
      (c.receive message clock now).2.geometryCache = some (cacheOf geometry)) ∨
    ((∀ A geometry, ¬c.Completes message A geometry) ∧
      (c.receive message clock now).2.geometryCache = c.geometryCache) := by
  by_cases hflow : message.flow = geometryFlow
  swap
  · exact .inr ⟨fun A geometry h => hflow h.flow, receive_cache_other hflow now⟩
  have hcompact : message.flow ≠ compactRigFlow := by rw [hflow]; decide
  have hcore : message.flow ≠ coreResultFlow := by rw [hflow]; decide
  unfold receive
  rw [show c.admitCompact message now = (.ok (), c) from if_neg hcompact]
  dsimp only
  split
  · next hlong =>
    exact .inr ⟨fun A geometry h => absurd h.short (Nat.not_le.mpr hlong), rfl⟩
  next hshort =>
  cases hactive : c.active with
  | none =>
    refine .inr ⟨fun A geometry h => ?_, rfl⟩
    have hsession := h.session
    rw [resultSide, hactive] at hsession
    cases hsession
  | some A =>
    have hsession : c.resultSide = some A.resultSide := by
      rw [resultSide, hactive]
      rfl
    dsimp only
    split
    · next hgeneration =>
      refine .inr ⟨fun B geometry h => ?_, rfl⟩
      obtain rfl := Option.some.inj (h.session.symm.trans hsession)
      exact hgeneration h.current
    next hgeneration =>
    rcases receiveGeometry_cache hactive message with
      ⟨frame, geometry, hframe, hholds, hcache⟩ | ⟨hnone, hcache⟩
    · exact .inl ⟨A.resultSide, geometry, ⟨hflow, Nat.not_lt.mp hshort, hsession,
        not_not.mp hgeneration, frame, hframe, hholds⟩, hcache⟩
    · refine .inr ⟨fun B geometry h => ?_, hcache⟩
      obtain rfl := Option.some.inj (h.session.symm.trans hsession)
      obtain ⟨frame, hframe, hholds⟩ := h.frame
      exact hnone frame geometry hframe hholds

end Messages

end RealtimeSubscriber

end Ntp

end MutsukiLink
