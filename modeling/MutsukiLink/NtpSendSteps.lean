import MutsukiLink.NtpRecording

/-! The parts of `try_send_latest`: what has to hold for a result to be encoded, what a failed call
may leave behind, and what the reliable lane holds of a result. -/
namespace MutsukiLink.Ntp
open WireBytes

namespace Publisher
variable {σ : Type} {P : TrackingProtocol} {p p' : Publisher P} {result : P.Result} {now : ℕ}

section Encoding

/-- The fields that sending a result reads stay as they are. -/
structure SameData (p p' : Publisher P) : Prop where
  transportMode : p'.transportMode = p.transportMode
  config : p'.config = p.config
  reliable : p'.reliable = p.reliable
  lastPublishedSequence : p'.lastPublishedSequence = p.lastPublishedSequence
  geometryRequested : p'.geometryRequested = p.geometryRequested

/-- The result passes every check, and these are its compact frame and its core. -/
structure Encodes (p : Publisher P) (result : P.Result) (now : ℕ) (D : SessionDefinition P)
    (samples : List P.Sample) (compact core : Bytes) : Prop where
  running : p.playback = .running
  active : p.active = some D
  rate : (p.noteFrame now (P.layoutProposal D.layout).targetFps).1 = .ok ()
  session : result.sessionId = D.sessionId ∧ result.generation = D.generation
  newer : p.lastPublishedSequence.any (fun sequence => result.sequence ≤ sequence) = false
  valid : P.validateResult D.descriptor result = .ok ()
  filled : fillSamples result.body p.compactSamples (P.signals D.layout) = (.ok (), samples)
  compact : P.encodeCompact D.layout {
    sessionId := result.sessionId, generation := result.generation
    sequence := result.sequence, captureTimestampNs := result.captureTimestampNs
    producedTimestampNs := result.producedTimestampNs, samples } p.compactBytes = (.ok (), compact)
  core : P.encodeResult { result with faceLandmarks := [] } = .ok core

theorem Encodes.unique {D D' : SessionDefinition P} {samples samples' : List P.Sample}
    {compact compact' core core' : Bytes} (h : p.Encodes result now D samples compact core)
    (h' : p.Encodes result now D' samples' compact' core') : compact' = compact ∧ core' = core := by
  have hactive : D' = D := Option.some.inj (h'.active.symm.trans h.active)
  subst hactive
  have hsamples : samples' = samples := (Prod.mk.inj (h'.filled.symm.trans h.filled)).2
  subst hsamples
  exact ⟨(Prod.mk.inj (h'.compact.symm.trans h.compact)).2,
    Except.ok.inj (h'.core.symm.trans h.core)⟩

/-- The last part of the encoding, where the request for geometry is taken. -/
def encodeGeometry (p : Publisher P) (result : P.Result) (compact core : Bytes) :
    Except P.Failure (EncodedResult (P := P)) × Publisher P :=
  if p.geometryDue result.sequence then
    match P.encodeResult result with
    | .error e => (.error (.codec e), { p with geometryRequested := false })
    | .ok geometry =>
      (.ok ⟨result, compact, core, some geometry⟩, { p with geometryRequested := false })
  else (.ok ⟨result, compact, core, none⟩, p)

/-- The scratch buffers are not read by what follows. -/
theorem SameData.buffers (h : p.SameData p') (samples : List P.Sample) (bytes : Bytes) :
    p.SameData { p' with compactSamples := samples, compactBytes := bytes } where
  transportMode := h.transportMode
  config := h.config
  reliable := h.reliable
  lastPublishedSequence := h.lastPublishedSequence
  geometryRequested := h.geometryRequested

theorem noteFrame_data (p : Publisher P) (now : ℕ) (targetFps : UInt16) :
    p.SameData (p.noteFrame now targetFps).2 ∧
      (p.noteFrame now targetFps).2.compactSamples = p.compactSamples ∧
      (p.noteFrame now targetFps).2.compactBytes = p.compactBytes := by
  unfold noteFrame
  simp only
  repeat' split
  all_goals exact ⟨⟨rfl, rfl, rfl, rfl, rfl⟩, rfl, rfl⟩

/-- The preparation of a result stops in front of the geometry, or it has encoded the rest. -/
theorem prepare_data (p : Publisher P) (result : P.Result) (now : ℕ) :
    ((∀ D samples compact core, ¬p.Encodes result now D samples compact core) ∧
      ∃ e p₁, p.prepare result now = (.error e, p₁) ∧ p.SameData p₁) ∨
    ∃ D samples compact core p₁, p.Encodes result now D samples compact core ∧ p.SameData p₁ ∧
      p.prepare result now = p₁.encodeGeometry result compact core := by
  unfold prepare
  by_cases hrunning : p.playback ≠ .running
  · rw [if_pos hrunning]
    refine .inl ⟨fun D samples compact core h => ?_, _, p, rfl, ⟨rfl, rfl, rfl, rfl, rfl⟩⟩
    exact hrunning h.running
  rw [if_neg hrunning]
  cases hactive : p.active with
  | none =>
    refine .inl ⟨fun D samples compact core h => ?_, _, p, rfl, ⟨rfl, rfl, rfl, rfl, rfl⟩⟩
    rw [h.active] at hactive
    cases hactive
  | some D =>
  -- A definition that a result is encoded for is the active one.
  have hsame {D' : SessionDefinition P} {samples : List P.Sample} {compact core : Bytes}
      (h : p.Encodes result now D' samples compact core) : D' = D :=
    Option.some.inj (h.active.symm.trans hactive)
  simp only
  -- The frame is noted against the rate before the result is looked at; nothing else changes.
  obtain ⟨hdata, hsamples, hbytes⟩ := noteFrame_data p now (P.layoutProposal D.layout).targetFps
  rcases hrate : p.noteFrame now (P.layoutProposal D.layout).targetFps with ⟨e | done, p₁⟩
  · rw [hrate] at hdata
    refine .inl ⟨fun D' samples compact core h => ?_, e, p₁, rfl, hdata⟩
    obtain rfl := hsame h
    have hok := h.rate
    rw [hrate] at hok
    cases hok
  rw [hrate] at hdata hsamples hbytes
  simp only at hsamples hbytes ⊢
  have hdata : p.SameData p₁ := hdata
  by_cases hsession : result.sessionId ≠ D.sessionId ∨ result.generation ≠ D.generation
  · rw [if_pos hsession]
    refine .inl ⟨fun D' samples compact core h => ?_, _, p₁, rfl, hdata⟩
    obtain rfl := hsame h
    exact hsession.elim (fun hne => hne h.session.1) fun hne => hne h.session.2
  rw [if_neg hsession]
  by_cases hold : (p₁.lastPublishedSequence.any fun sequence => result.sequence ≤ sequence) = true
  · rw [if_pos hold]
    refine .inl ⟨fun D' samples compact core h => ?_, _, p₁, rfl, hdata⟩
    rw [hdata.lastPublishedSequence, h.newer] at hold
    cases hold
  rw [if_neg hold]
  cases hvalid : P.validateResult D.descriptor result with
  | error e =>
    refine .inl ⟨fun D' samples compact core h => ?_, _, p₁, rfl, hdata⟩
    obtain rfl := hsame h
    have hok := h.valid
    rw [hvalid] at hok
    cases hok
  | ok done =>
  simp only [encodeResult, hsamples, hbytes]
  rcases hfilled : fillSamples result.body p.compactSamples (P.signals D.layout) with
    ⟨e | done, samples⟩
  · refine .inl ⟨fun D' samples' compact core h => ?_, e, _, rfl, hdata.buffers _ _⟩
    obtain rfl := hsame h
    have hok := h.filled
    rw [hfilled] at hok
    cases hok
  simp only
  rcases hcompact : P.encodeCompact D.layout {
      sessionId := result.sessionId, generation := result.generation
      sequence := result.sequence, captureTimestampNs := result.captureTimestampNs
      producedTimestampNs := result.producedTimestampNs, samples } p.compactBytes with
    ⟨e | done, compact⟩
  · refine .inl ⟨fun D' samples' compact' core h => ?_, _, _, rfl, hdata.buffers _ _⟩
    obtain rfl := hsame h
    have hfilled' := h.filled
    rw [hfilled] at hfilled'
    obtain rfl := (Prod.mk.inj hfilled').2
    have hok := h.compact
    rw [hcompact] at hok
    cases hok
  cases hcore : P.encodeResult { result with faceLandmarks := [] } with
  | error e =>
    refine .inl ⟨fun D' samples' compact' core h => ?_, _, _, rfl, hdata.buffers _ _⟩
    have hok := h.core
    rw [hcore] at hok
    cases hok
  | ok core =>
    have hencodes : p.Encodes result now D samples compact core := by
      refine ⟨not_not.mp hrunning, hactive, ?_, ?_, ?_, hvalid, hfilled, hcompact, hcore⟩
      · rw [hrate]
      · exact ⟨not_not.mp fun hne => hsession (.inl hne), not_not.mp fun hne => hsession (.inr hne)⟩
      · rw [← hdata.lastPublishedSequence]
        exact Bool.eq_false_iff.mpr hold
    exact .inr ⟨D, samples, compact, core, _, hencodes, hdata.buffers samples compact, rfl⟩

/-- The geometry of a result, if it is due. -/
def GeometryOf (p : Publisher P) (result : P.Result) (geometry : Option Bytes) : Prop :=
  if p.geometryDue result.sequence then
    ∃ bytes, P.encodeResult result = .ok bytes ∧ geometry = some bytes
  else geometry = none

/-- The result is encoded in all its parts. -/
structure EncodedAs (p : Publisher P) (result : P.Result) (now : ℕ)
    (encoded : EncodedResult (P := P)) : Prop where
  result_eq : encoded.result = result
  parts : ∃ D samples, p.Encodes result now D samples encoded.compact encoded.core
  geometry : p.GeometryOf result encoded.geometry

theorem EncodedAs.unique {encoded encoded' : EncodedResult (P := P)}
    (h : p.EncodedAs result now encoded) (h' : p.EncodedAs result now encoded') :
    encoded' = encoded := by
  obtain ⟨D, samples, hencodes⟩ := h.parts
  obtain ⟨D', samples', hencodes'⟩ := h'.parts
  obtain ⟨hcompact, hcore⟩ := hencodes.unique hencodes'
  have hgeometry : encoded'.geometry = encoded.geometry := by
    have hsame := h.geometry
    have hsame' := h'.geometry
    unfold GeometryOf at hsame hsame'
    split at hsame
    next hdue =>
      rw [if_pos hdue] at hsame'
      obtain ⟨bytes, hok, hbytes⟩ := hsame
      obtain ⟨bytes', hok', hbytes'⟩ := hsame'
      rw [hbytes, hbytes', Except.ok.inj (hok'.symm.trans hok)]
    next hdue =>
      rw [if_neg hdue] at hsame'
      rw [hsame, hsame']
  have hresult := h'.result_eq.trans h.result_eq.symm
  cases encoded
  cases encoded'
  simp_all

end Encoding

section Traces

/-- A frame with the generation and the sequence of a result. -/
def OfResult (generation : UInt32) (sequence : UInt64) : Frame → Prop
  | .reliable wire => ∃ flow payload, wire = reliableWire flow generation sequence payload
  | .realtime datagram => datagram.generation = generation ∧ datagram.sequence = sequence

/-- No frame of the result is queued. -/
def NoneWaiting (p : Publisher P) (result : P.Result) : Prop :=
  ∀ flow frame, p.reliable.Waits flow frame →
    ¬OfResult result.generation result.sequence (.reliable frame.wire)

/-- No frame of the result is queued or has been handed over, and nothing is forgotten. -/
structure NothingSent (p p' : Publisher P) (result : P.Result) (handed : List Frame) : Prop where
  handed : ∀ frame ∈ handed, ¬OfResult result.generation result.sequence frame
  waiting : p'.NoneWaiting result
  lastPublishedSequence : p'.lastPublishedSequence = p.lastPublishedSequence
  geometryRequested : p'.geometryRequested = p.geometryRequested

variable {handed : List Frame}

/-- A call that has only flushed older frames. -/
theorem nothingSent_iff (hflushed : p.reliable.Flushed p'.reliable handed)
    (hlast : p'.lastPublishedSequence = p.lastPublishedSequence) :
    p.NothingSent p' result handed ↔
      p.NoneWaiting result ∧ p'.geometryRequested = p.geometryRequested := by
  constructor
  · intro h
    refine ⟨fun flow frame hwaits hof => ?_, h.geometryRequested⟩
    rcases hflushed.accounted flow frame hwaits with hsent | hkept
    · exact h.handed _ hsent hof
    · exact h.waiting flow frame hkept hof
  · intro h
    obtain ⟨hnone, hrequested⟩ := h
    refine ⟨fun sent hsent hof => ?_, fun flow frame hwaits => ?_, hlast, hrequested⟩
    · obtain ⟨flow, frame, hwaits, rfl⟩ := hflushed.waited sent hsent
      exact hnone flow frame hwaits hof
    · exact hnone flow frame (hflushed.kept flow frame hwaits)

/-- The compact frame of the result shows in what a later flush leaves. -/
theorem not_nothingSent {r : ReliableLatestSender} {frame : PendingFrame} {flow : RealtimeFlowId}
    {before after : List Frame} (hwaits : r.Waits flow frame)
    (hof : OfResult result.generation result.sequence (.reliable frame.wire))
    (hflushed : r.Flushed p'.reliable after) : ¬p.NothingSent p' result (before ++ after) := by
  intro h
  rcases hflushed.accounted flow frame hwaits with hsent | hkept
  · exact h.handed _ (List.mem_append_right _ hsent) hof
  · exact h.waiting flow frame hkept hof

end Traces

section Sending

/-- The size of a payload that the reliable lane takes. -/
def Fits (config : BindingConfig) (payload : Bytes) : Prop :=
  reliableHeaderLen+payload.length < 2^64 ∧
    reliableHeaderLen+payload.length ≤ config.maxTrackingFrameBytes ∧ payload.length ≤ 2^32-1

variable {flow : RealtimeFlowId} {priority : RealtimePriority} {payload : Bytes}
  {encoded : EncodedResult (P := P)}

def withReliable (p : Publisher P) (r : ReliableLatestSender) : Publisher P :=
  { p with reliable := r }

/-- The sender once it holds a frame of the result. -/
def holding (r : ReliableLatestSender) (result : P.Result) (flow : RealtimeFlowId)
    (priority : RealtimePriority) (payload : Bytes) (config : BindingConfig) :
    ReliableLatestSender :=
  (r.enqueue (ε := P.Error) flow result.generation result.sequence priority payload
    config.maxTrackingFrameBytes).2

theorem enqueueReliable_refused (result : P.Result) (flow : RealtimeFlowId)
    (priority : RealtimePriority) (h : ¬Fits p.config payload) :
    p.enqueueReliable result flow priority payload = (.error .payloadLimit, p) := by
  have hrefused : p.reliable.enqueue (ε := P.Error) flow result.generation result.sequence priority
      payload p.config.maxTrackingFrameBytes = (.error .payloadLimit, p.reliable) := by
    unfold ReliableLatestSender.enqueue
    simp only
    split
    · rfl
    next hword =>
    split
    · rfl
    next hsize =>
    exfalso
    apply h
    unfold Fits
    omega
  simp only [enqueueReliable, hrefused]

theorem enqueueReliable_fits (result : P.Result) (flow : RealtimeFlowId)
    (priority : RealtimePriority) (h : Fits p.config payload) :
    ∃ outcome, p.enqueueReliable result flow priority payload = (.ok outcome,
      p.withReliable (holding p.reliable result flow priority payload p.config)) := by
  obtain ⟨hword, hframe, hlength⟩ := h
  have hsize : ¬(p.config.maxTrackingFrameBytes < reliableHeaderLen+payload.length ∨
      2^32-1 < payload.length) := by omega
  simp only [enqueueReliable, holding, withReliable, ReliableLatestSender.enqueue,
    if_neg (Nat.not_le.mpr hword), if_neg hsize]
  split
  · exact ⟨_, rfl⟩
  · exact ⟨_, rfl⟩

theorem holding_pending (r : ReliableLatestSender) {config : BindingConfig}
    (h : Fits config payload) : (holding r result flow priority payload config).pending =
      r.pending.insert flow
        ⟨true, priority, reliableWire flow result.generation result.sequence payload⟩ := by
  obtain ⟨hword, hframe, hlength⟩ := h
  have hsize : ¬(config.maxTrackingFrameBytes < reliableHeaderLen+payload.length ∨
      2^32-1 < payload.length) := by omega
  simp only [holding, ReliableLatestSender.enqueue, if_neg (Nat.not_le.mpr hword), if_neg hsize]
  split <;> rfl

/-- A frame of another flow leaves a waiting frame alone. -/
theorem holding_waits {r : ReliableLatestSender} {config : BindingConfig} {other : RealtimeFlowId}
    {frame : PendingFrame} (result : P.Result) (priority : RealtimePriority)
    (hwaits : r.Waits other frame) (hflow : flow ≠ other) (h : Fits config payload) :
    (holding r result flow priority payload config).Waits other frame := by
  have hother : ¬compare flow other = .eq := by simpa using hflow
  refine ⟨?_, hwaits.2⟩
  rw [holding_pending r h, Std.ExtTreeMap.getElem?_insert, if_neg hother]
  exact hwaits.1

/-- The compact frame of a result as it waits to be sent. -/
def compactFrame (encoded : EncodedResult (P := P)) : PendingFrame :=
  ⟨true, .critical, reliableWire compactRigFlow encoded.result.generation encoded.result.sequence
    encoded.compact⟩

theorem holding_compact_waits (r : ReliableLatestSender) {config : BindingConfig}
    (h : Fits config encoded.compact) :
    (holding r encoded.result compactRigFlow .critical encoded.compact config).Waits
      compactRigFlow (compactFrame encoded) := by
  refine ⟨?_, rfl⟩
  rw [holding_pending r h, Std.ExtTreeMap.getElem?_insert_self]
  rfl

theorem compactFrame_ofResult (encoded : EncodedResult (P := P)) :
    OfResult encoded.result.generation encoded.result.sequence
      (.reliable (compactFrame encoded).wire) := ⟨compactRigFlow, encoded.compact, rfl⟩

/-- The sender once it holds all frames of a result. -/
def holdingAll (r : ReliableLatestSender) (encoded : EncodedResult (P := P))
    (config : BindingConfig) : ReliableLatestSender :=
  let r := holding r encoded.result compactRigFlow .critical encoded.compact config
  let r := holding r encoded.result coreResultFlow .high encoded.core config
  encoded.geometry.elim r fun geometry =>
    holding r encoded.result geometryFlow .disposable geometry config

/-- Every frame of the result fits. -/
structure AllFit (config : BindingConfig) (encoded : EncodedResult (P := P)) : Prop where
  compact : Fits config encoded.compact
  core : Fits config encoded.core
  geometry : ∀ geometry, encoded.geometry = some geometry → Fits config geometry

/-- A compact frame that fits is queued, and the rest is queued with it or refused. -/
theorem enqueueAll_cases (hcompact : Fits p.config encoded.compact) :
    (AllFit p.config encoded ∧ (∃ outcome, p.enqueueAll encoded = (.ok outcome,
        p.withReliable (holdingAll p.reliable encoded p.config))) ∧
      (holdingAll p.reliable encoded p.config).Waits compactRigFlow (compactFrame encoded)) ∨
    (¬AllFit p.config encoded ∧ ∃ e r, p.enqueueAll encoded = (.error e, p.withReliable r) ∧
      r.Waits compactRigFlow (compactFrame encoded)) := by
  obtain ⟨compact, hcompacted⟩ :=
    enqueueReliable_fits encoded.result compactRigFlow .critical hcompact
  have hwaits := holding_compact_waits p.reliable hcompact
  unfold enqueueAll
  simp only [hcompacted]
  generalize hr₁ : holding p.reliable encoded.result compactRigFlow .critical encoded.compact
    p.config = r₁ at hwaits ⊢
  -- The compact frame is on its lane by now and stays there, whatever the other two do.
  by_cases hcore : Fits p.config encoded.core
  swap
  · have hrefused := enqueueReliable_refused (p := p.withReliable r₁) encoded.result coreResultFlow
      .high hcore
    rw [hrefused]
    exact .inr ⟨fun hall => hcore hall.core, _, _, rfl, hwaits⟩
  obtain ⟨core, hcored⟩ := enqueueReliable_fits (p := p.withReliable r₁) encoded.result
    coreResultFlow .high hcore
  have hwaits := holding_waits encoded.result .high hwaits
    (show coreResultFlow ≠ compactRigFlow by decide) hcore
  simp only [hcored]
  cases hgeometry : encoded.geometry with
  | none =>
    have hall : AllFit p.config encoded := by
      refine ⟨hcompact, hcore, fun geometry h => ?_⟩
      rw [hgeometry] at h
      cases h
    have hheld : holdingAll p.reliable encoded p.config =
        holding r₁ encoded.result coreResultFlow .high encoded.core p.config := by
      rw [holdingAll, hgeometry, hr₁]
      rfl
    rw [hheld]
    exact .inl ⟨hall, ⟨_, rfl⟩, hwaits⟩
  | some geometry =>
    generalize hr₂ : holding r₁ encoded.result coreResultFlow .high encoded.core p.config = r₂
      at hwaits
    have hp₂ : (p.withReliable r₁).withReliable (holding (p.withReliable r₁).reliable encoded.result
        coreResultFlow .high encoded.core (p.withReliable r₁).config) = p.withReliable r₂ := by
      rw [← hr₂]
      rfl
    rw [hp₂]
    by_cases hfits : Fits p.config geometry
    · obtain ⟨outcome, hqueued⟩ := enqueueReliable_fits (p := p.withReliable r₂) encoded.result
        geometryFlow .disposable hfits
      have hall : AllFit p.config encoded := by
        refine ⟨hcompact, hcore, fun geometry' h => ?_⟩
        rw [hgeometry] at h
        obtain rfl := Option.some.inj h
        exact hfits
      have hheld : holdingAll p.reliable encoded p.config =
          holding r₂ encoded.result geometryFlow .disposable geometry p.config := by
        rw [holdingAll, hgeometry, hr₁, hr₂]
        rfl
      have hwaits := holding_waits encoded.result .disposable hwaits
        (show geometryFlow ≠ compactRigFlow by decide) hfits
      simp only [enqueueGeometry, hqueued]
      rw [hheld]
      exact .inl ⟨hall, ⟨_, rfl⟩, hwaits⟩
    · have hrefused := enqueueReliable_refused (p := p.withReliable r₂) encoded.result geometryFlow
        .disposable hfits
      simp only [enqueueGeometry, hrefused]
      exact .inr ⟨fun hall => hfits (hall.geometry geometry hgeometry), _, _, rfl, hwaits⟩

end Sending

end Publisher

end MutsukiLink.Ntp
