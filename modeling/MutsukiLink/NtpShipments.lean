import MutsukiLink.NtpMoves
import MutsukiLink.NtpSendSteps

/-! What the publisher gives to the connection for a result: one of its three flows, whole on the
reliable lane, or as the compact datagram and the fragments of the other two. -/
namespace MutsukiLink.Ntp
open WireBytes

section Definitions
variable {P : TrackingProtocol}

/-- The bytes of one flow of a result. -/
inductive PartOf (result : P.Result) : RealtimeFlowId → Bytes → Prop
  | compact (layout : P.ActiveLayout) (unfilled samples : List P.Sample) (buffer bytes : Bytes)
    (hfilled : Publisher.fillSamples result.body unfilled (P.signals layout) = (.ok (), samples))
    (hencode : P.encodeCompact layout {
      sessionId := result.sessionId, generation := result.generation
      sequence := result.sequence, captureTimestampNs := result.captureTimestampNs
      producedTimestampNs := result.producedTimestampNs, samples } buffer = (.ok (), bytes)) :
    PartOf result compactRigFlow bytes
  | core (bytes : Bytes)
    (hencode : P.encodeResult { result with faceLandmarks := [] } = .ok bytes) :
    PartOf result coreResultFlow bytes
  | geometry (bytes : Bytes) (hencode : P.encodeResult result = .ok bytes) :
    PartOf result geometryFlow bytes

/-- A frame of a result in either transport mode, for the limits of the sender and for the payload
that its path takes. -/
inductive Ships (config : BindingConfig) (maxPayload : Option ℕ) (result : P.Result) :
    TrackingTransportMode → Frame → Prop
  | whole (flow : RealtimeFlowId) (payload : Bytes) (hpart : PartOf result flow payload)
    (hsize : payload.length < 2^32) : Ships config maxPayload result .reliableLatestOnly
      (.reliable (reliableWire flow result.generation result.sequence payload))
  | compact (datagram : RealtimeDatagram) (hgeneration : datagram.generation = result.generation)
    (hsequence : datagram.sequence = result.sequence) (hflow : datagram.flow = compactRigFlow)
    (hpart : PartOf result compactRigFlow datagram.payload) :
    Ships config maxPayload result .datagram (.realtime datagram)
  | fragment (datagram : RealtimeDatagram) (payload : Bytes) (size : ℕ)
    (hgeneration : datagram.generation = result.generation)
    (hsequence : datagram.sequence = result.sequence) (hflow : datagram.flow ≠ compactRigFlow)
    (hpart : PartOf result datagram.flow payload) (hcuts : Cuts config payload size)
    (hlimit : maxPayload = some (size+fragmentHeaderLen))
    (hfragment : IsFragment payload size datagram.payload) :
    Ships config maxPayload result .datagram (.realtime datagram)

end Definitions

namespace Publisher
variable {P : TrackingProtocol} {F : Frame → Prop} {p p' : Publisher P} {s s' : End}
  {encoded : EncodedResult (P := P)} {result : P.Result}

/-- What is sent of a result are its flows. -/
structure PartsOf (encoded : EncodedResult (P := P)) : Prop where
  compact : PartOf encoded.result compactRigFlow encoded.compact
  core : PartOf encoded.result coreResultFlow encoded.core
  geometry : ∀ payload, encoded.geometry = some payload →
    PartOf encoded.result geometryFlow payload

/-- The frames that wait and those that were given away. -/
structure Keeps (F : Frame → Prop) (p : Publisher P) (s : End) : Prop where
  waiting : p.reliable.All F
  given : ∀ frame ∈ s.frames, F frame

theorem Encodes.partsOf {now : ℕ} {D : SessionDefinition P} {samples : List P.Sample}
    {compact core : Bytes} (h : p.Encodes result now D samples compact core)
    (hencoded : (p'.encodeGeometry result compact core).1 = .ok encoded) :
    encoded.result = result ∧ PartsOf encoded := by
  have hcompact := PartOf.compact _ _ _ _ _ h.filled h.compact
  have hcore := PartOf.core _ h.core
  unfold encodeGeometry at hencoded
  split at hencoded
  · split at hencoded
    · cases hencoded
    next geometry hgeometry =>
    obtain rfl := Except.ok.inj hencoded
    refine ⟨rfl, hcompact, hcore, ?_⟩
    intro payload hpayload
    obtain rfl := Option.some.inj hpayload
    exact .geometry _ hgeometry
  · obtain rfl := Except.ok.inj hencoded
    refine ⟨rfl, hcompact, hcore, ?_⟩
    intro payload hpayload
    cases hpayload

theorem encodeGeometry_data (h : p.SameData p') (result : P.Result) (compact core : Bytes) :
    (p'.encodeGeometry result compact core).2.reliable = p.reliable ∧
      (p'.encodeGeometry result compact core).2.config = p.config ∧
      (p'.encodeGeometry result compact core).2.transportMode = p.transportMode := by
  have hdata : ∀ geometryRequested, ({ p' with geometryRequested } : Publisher P).reliable =
      p.reliable ∧ ({ p' with geometryRequested } : Publisher P).config = p.config ∧
      ({ p' with geometryRequested } : Publisher P).transportMode = p.transportMode :=
    fun _ => ⟨h.reliable, h.config, h.transportMode⟩
  unfold encodeGeometry
  split
  · split
    · exact hdata false
    · exact hdata false
  · exact hdata _

section Reliable

/-- A frame that is too long is not queued. -/
theorem enqueueReliable_all (h : p.reliable.All F) (flow : RealtimeFlowId)
    (priority : RealtimePriority) (payload : Bytes)
    (hframe : payload.length < 2^32 →
      F (.reliable (reliableWire flow result.generation result.sequence payload))) :
    (p.enqueueReliable result flow priority payload).2.reliable.All F := by
  by_cases hfits : Fits p.config payload
  · obtain ⟨outcome, heq⟩ := enqueueReliable_fits (p := p) result flow priority hfits
    have hlength := hfits.2.2
    have hall := h.insert flow
      ⟨true, priority, reliableWire flow result.generation result.sequence payload⟩
      (hframe (by omega))
    rw [heq]
    intro other frame hlookup
    have hpending : (holding p.reliable result flow priority payload p.config).pending = _ :=
      holding_pending p.reliable hfits
    refine hall other frame ?_
    rw [← hlookup]
    exact congrArg (fun pending => pending[other]?) hpending.symm
  · rw [enqueueReliable_refused result flow priority hfits]
    exact h

variable (hframes : ∀ flow payload, PartOf encoded.result flow payload → payload.length < 2^32 →
  F (.reliable (reliableWire flow encoded.result.generation encoded.result.sequence payload)))
include hframes

theorem enqueueGeometry_all (h : p.reliable.All F) (hparts : PartsOf encoded) :
    (p.enqueueGeometry encoded.result encoded.geometry).2.reliable.All F := by
  cases hpayload : encoded.geometry with
  | none => exact h
  | some payload =>
    have hlast := enqueueReliable_all h geometryFlow .disposable _
      (hframes _ _ (hparts.geometry payload hpayload))
    simp only [enqueueGeometry]
    split
    next e p₁ heq =>
      rw [heq] at hlast
      exact hlast
    next outcome p₁ heq =>
      rw [heq] at hlast
      exact hlast

theorem enqueueAll_all (h : p.reliable.All F) (hparts : PartsOf encoded) :
    (p.enqueueAll encoded).2.reliable.All F := by
  have hcompact := enqueueReliable_all h compactRigFlow .critical _ (hframes _ _ hparts.compact)
  unfold enqueueAll
  split
  next e p₁ heq =>
    rw [heq] at hcompact
    exact hcompact
  next compact p₁ heq =>
  rw [heq] at hcompact
  have hcore := enqueueReliable_all hcompact coreResultFlow .high _ (hframes _ _ hparts.core)
  split
  next e p₂ heq =>
    rw [heq] at hcore
    exact hcore
  next core p₂ heq =>
  rw [heq] at hcore
  have hgeometry := enqueueGeometry_all hframes hcore hparts
  split
  next e p₃ heq =>
    rw [heq] at hgeometry
    exact hgeometry
  next geometry p₃ heq =>
    rw [heq] at hgeometry
    exact hgeometry

theorem sendReliable_keeps (h : p.Keeps F s) (hparts : PartsOf encoded) :
    (p.sendReliable endConnection s encoded).2.1.Keeps F
      (p.sendReliable endConnection s encoded).2.2 := by
  have hfirst := flushReliable_step h.waiting h.given
  unfold sendReliable
  split
  next e p₁ s₁ heq =>
    rw [heq] at hfirst
    exact ⟨hfirst.waiting, hfirst.given⟩
  next p₁ s₁ heq =>
  rw [heq] at hfirst
  have hall := enqueueAll_all hframes hfirst.waiting hparts
  split
  next e p₂ hqueue =>
    rw [hqueue] at hall
    exact ⟨hall, hfirst.given⟩
  next outcome p₂ hqueue =>
  rw [hqueue] at hall
  have hlast := flushReliable_step hall hfirst.given
  split
  next e p₃ s₃ hflush =>
    rw [hflush] at hlast
    exact ⟨hlast.waiting, hlast.given⟩
  next p₃ s₃ hflush =>
    rw [hflush] at hlast
    exact ⟨hlast.waiting, hlast.given⟩

end Reliable

section Datagrams

/-- Datagrams of one kind were given away, and the path is as before. -/
structure Gives (F : Frame → Prop) (s s' : End) : Prop where
  maxPayload : s'.conditions.maxPayload = s.conditions.maxPayload
  given : ∀ frame ∈ s'.frames, F frame

theorem Gives.datagram (h : Gives F s s') (datagram : RealtimeDatagram)
    (hdatagram : F (.realtime datagram)) :
    Gives F s (endConnection.trySendLatest s' datagram).2 := by
  refine ⟨?_, (trySendLatest_keeps s' datagram hdatagram h.given).2⟩
  rw [← h.maxPayload]
  simp only [endConnection, End.trySendLatest, End.answer]
  cases s'.conditions.answers.head?.join with
  | none => rfl
  | some e => rfl

variable (hframes : ∀ frame,
  Ships p.config s.conditions.maxPayload encoded.result .datagram frame → F frame)
include hframes

theorem Gives.fragments (h : Gives F s s') {flow : RealtimeFlowId} (hflow : flow ≠ compactRigFlow)
    {payload : Bytes} (hpart : PartOf encoded.result flow payload) (deadline : ℕ)
    (priority : RealtimePriority) :
    Gives F s (p.sendFragments endConnection s' encoded.result flow deadline priority
      payload).2 := by
  unfold sendFragments
  refine sendFragmented_keeps (I := Gives F s) ?_ h
  intro s₁ size bytes hcuts hlimit hfragment hgives
  refine hgives.datagram _ (hframes _ ?_)
  exact .fragment _ payload size rfl rfl hflow hpart hcuts (h.maxPayload.symm.trans hlimit)
    hfragment

theorem Gives.geometry (h : Gives F s s') (hparts : PartsOf encoded) (deadline : ℕ) :
    Gives F s (p.sendGeometry endConnection s' encoded.result deadline encoded.geometry).2 := by
  cases hpayload : encoded.geometry with
  | none => exact h
  | some payload =>
    have hlast := h.fragments hframes (by decide) (hparts.geometry payload hpayload) deadline
      .disposable
    simp only [sendGeometry]
    split
    next e s₁ heq =>
      rw [heq] at hlast
      exact hlast
    next outcome s₁ heq =>
      rw [heq] at hlast
      exact hlast

theorem sendDatagrams_keeps (h : p.Keeps F s) (hparts : PartsOf encoded) (deadline : ℕ) :
    (p.sendDatagrams endConnection s encoded deadline).2.1.Keeps F
      (p.sendDatagrams endConnection s encoded deadline).2.2 := by
  have hstart : Gives F s s := ⟨rfl, h.given⟩
  unfold sendDatagrams
  simp only
  split
  · exact h
  split
  · exact h
  have hfirst := hstart.datagram {
    flow := compactRigFlow, generation := encoded.result.generation
    sequence := encoded.result.sequence, deadline, priority := .critical
    payload := encoded.compact } (hframes _ (.compact _ rfl rfl rfl hparts.compact))
  split
  next e s₁ heq =>
    rw [heq] at hfirst
    exact ⟨h.waiting, hfirst.given⟩
  next compact s₁ heq =>
  rw [heq] at hfirst
  have hcore := hfirst.fragments hframes (by decide) hparts.core deadline .high
  split
  next e s₂ heq =>
    rw [heq] at hcore
    exact ⟨h.waiting, hcore.given⟩
  next core s₂ heq =>
  rw [heq] at hcore
  have hgeometry := hcore.geometry hframes hparts deadline
  split
  next e s₃ heq =>
    rw [heq] at hgeometry
    exact ⟨h.waiting, hgeometry.given⟩
  next geometry s₃ heq =>
    rw [heq] at hgeometry
    exact ⟨h.waiting, hgeometry.given⟩

end Datagrams

/-- The call publishes the result: it is encoded for the definition that is active. -/
def Publishes (p : Publisher P) (call : PublisherCall P) (result : P.Result) : Prop :=
  ∃ now later D samples compact core, call = .trySendLatest result now later ∧
    p.Encodes result now D samples compact core

/-- A call gives away frames of older publications and of the result that it publishes. -/
theorem call_keeps (h : p.Keeps F s) (call : PublisherCall P)
    (hframes : ∀ result, p.Publishes call result → ∀ frame,
      Ships p.config s.conditions.maxPayload result p.transportMode frame → F frame) :
    (p.call s call).1.Keeps F (p.call s call).2 := by
  cases call with
  | trySendHello =>
    have heffect := trySendHello_effect h.waiting h.given
    exact ⟨heffect.waiting, heffect.given⟩
  | publishDescriptor proposal now =>
    have heffect := publishDescriptor_effect h.waiting h.given proposal now
    exact ⟨heffect.waiting, heffect.given⟩
  | pollControl producerNowNs =>
    have heffect := pollControl_effect h.waiting h.given producerNowNs
    exact ⟨heffect.waiting, heffect.given⟩
  | trySendLatest result now later =>
    show (p.trySendLatest endConnection s result now later).2.1.Keeps F
      (p.trySendLatest endConnection s result now later).2.2
    unfold trySendLatest
    rcases prepare_data p result now with
      ⟨-, e, p₁, heq, hdata⟩ | ⟨D, samples, compact, core, p₁, hencodes, hdata, heq⟩
    · rw [heq]
      exact ⟨hdata.reliable ▸ h.waiting, h.given⟩
    obtain ⟨hreliable, hconfig, hmode⟩ := encodeGeometry_data hdata result compact core
    rw [heq]
    have hencoded (encoded) (hok : (p₁.encodeGeometry result compact core).1 = .ok encoded) :
        encoded.result = result ∧ PartsOf encoded := hencodes.partsOf hok
    generalize p₁.encodeGeometry result compact core = prepared at hreliable hconfig hmode hencoded
    obtain ⟨reply, p₂⟩ := prepared
    have hwaiting : p₂.reliable.All F := hreliable ▸ h.waiting
    cases reply with
    | error e => exact ⟨hwaiting, h.given⟩
    | ok encoded =>
      obtain ⟨rfl, hparts⟩ := hencoded encoded rfl
      have hships := hframes _ ⟨now, later, D, samples, compact, core, rfl, hencodes⟩
      rw [← hconfig, ← hmode] at hships
      dsimp only
      split
      next hreliable =>
        rw [hreliable] at hships
        exact sendReliable_keeps (fun flow payload hpart hsize =>
          hships _ (.whole flow payload hpart hsize)) ⟨hwaiting, h.given⟩ hparts
      next hdatagram =>
        have hmode : p₂.transportMode = .datagram := by
          cases hother : p₂.transportMode with
          | reliableLatestOnly => exact absurd hother hdatagram
          | datagram => rfl
        rw [hmode] at hships
        exact sendDatagrams_keeps hships ⟨hwaiting, h.given⟩ hparts _

end Publisher

end MutsukiLink.Ntp
