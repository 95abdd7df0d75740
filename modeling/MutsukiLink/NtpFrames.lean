import MutsukiLink.FragmentAssembly
import MutsukiLink.NtpWorld

/-! The data side of the publisher: what it gives to the connection besides control messages was
encoded for the definition that was active, and sending it leaves the control side alone. -/
namespace MutsukiLink.Ntp
open Std WireBytes

section Definitions
variable {P : TrackingProtocol}

/-- The definitions of the publisher stay as they are. -/
structure Publisher.SameControl (p p' : Publisher P) : Prop where
  pending : p'.pending = p.pending
  pendingAccepted : p'.pendingAccepted = p.pendingAccepted
  active : p'.active = p.active

theorem Publisher.SameControl.refl (p : Publisher P) : p.SameControl p := ⟨rfl, rfl, rfl⟩

theorem Publisher.SameControl.trans {p p' p'' : Publisher P} (h : p.SameControl p')
    (h' : p'.SameControl p'') : p.SameControl p'' :=
  ⟨h'.pending.trans h.pending, h'.pendingAccepted.trans h.pendingAccepted,
    h'.active.trans h.active⟩

/-- Neither the definitions nor the outbox change. -/
structure Publisher.ControlKept (p p' : Publisher P) : Prop extends p.SameControl p' where
  outbox : p'.outbox = p.outbox

theorem Publisher.ControlKept.refl (p : Publisher P) : p.ControlKept p := ⟨.refl p, rfl⟩

theorem Publisher.ControlKept.trans {p p' p'' : Publisher P} (h : p.ControlKept p')
    (h' : p'.ControlKept p'') : p.ControlKept p'' :=
  ⟨h.toSameControl.trans h'.toSameControl, h'.outbox.trans h.outbox⟩

/-- Neither control lane changes. -/
structure End.SameLanes (s s' : End) : Prop where
  outgoing : s'.outgoing = s.outgoing
  incoming : s'.incoming = s.incoming

theorem End.SameLanes.trans {s s' s'' : End} (h : s.SameLanes s') (h' : s'.SameLanes s'') :
    s.SameLanes s'' := ⟨h'.outgoing.trans h.outgoing, h'.incoming.trans h.incoming⟩

/-- A result of the session and generation of a definition, in the encodings that are sent. -/
structure EncodedFor (D : SessionDefinition P) (encoded : Publisher.EncodedResult (P := P)) :
    Prop where
  sessionId : encoded.result.sessionId = D.sessionId
  generation : encoded.result.generation = D.generation
  compact : ∃ samples buffer, P.encodeCompact D.layout {
    sessionId := D.sessionId, generation := D.generation
    sequence := encoded.result.sequence
    captureTimestampNs := encoded.result.captureTimestampNs
    producedTimestampNs := encoded.result.producedTimestampNs, samples } buffer =
      (.ok (), encoded.compact)
  core : P.encodeResult { encoded.result with faceLandmarks := [] } = .ok encoded.core
  geometry : ∀ geometry, encoded.geometry = some geometry →
    P.encodeResult encoded.result = .ok geometry

/-- The payloads of a result. -/
def Publisher.EncodedResult.payloads (encoded : Publisher.EncodedResult (P := P)) :
    List Bytes :=
  encoded.compact :: encoded.core :: encoded.geometry.toList

/-- A frame that carries a payload of the result, whole or as a fragment. -/
inductive Carries (encoded : Publisher.EncodedResult (P := P)) : Frame → Prop
  | reliable (flow : RealtimeFlowId) (payload : Bytes) (hpayload : payload ∈ encoded.payloads) :
    Carries encoded (.reliable
      (reliableWire flow encoded.result.generation encoded.result.sequence payload))
  | whole (datagram : RealtimeDatagram) (hgeneration : datagram.generation =
      encoded.result.generation) (hsequence : datagram.sequence = encoded.result.sequence)
    (hpayload : datagram.payload ∈ encoded.payloads) : Carries encoded (.realtime datagram)
  | fragment (datagram : RealtimeDatagram) (payload : Bytes) (size : ℕ)
    (hgeneration : datagram.generation = encoded.result.generation)
    (hsequence : datagram.sequence = encoded.result.sequence)
    (hpayload : payload ∈ encoded.payloads)
    (hfragment : IsFragment payload size datagram.payload) : Carries encoded (.realtime datagram)

/-- A frame of a definition. -/
def FrameOf (D : SessionDefinition P) (frame : Frame) : Prop :=
  ∃ encoded, EncodedFor D encoded ∧ Carries encoded frame

/-- All frames that wait to be sent. -/
def ReliableLatestSender.All (r : ReliableLatestSender) (F : Frame → Prop) : Prop :=
  ∀ (flow : RealtimeFlowId) (frame : PendingFrame), r.pending[flow]? = some frame →
    F (.reliable frame.wire)

end Definitions

section Sending
variable {P : TrackingProtocol} {F : Frame → Prop} {s : End} {ε : Type}

theorem ReliableLatestSender.All.insert {r : ReliableLatestSender} (h : r.All F)
    (flow : RealtimeFlowId) (frame : PendingFrame) (hframe : F (.reliable frame.wire)) :
    ({ r with pending := r.pending.insert flow frame } : ReliableLatestSender).All F := by
  intro other frame' hlookup
  simp only [ExtTreeMap.getElem?_insert] at hlookup
  split at hlookup
  · obtain rfl := Option.some.inj hlookup
    exact hframe
  · exact h other frame' hlookup

theorem ReliableLatestSender.next_mem {r : ReliableLatestSender} {flow : RealtimeFlowId}
    {frame : PendingFrame} (h : r.next = some (flow, frame)) :
    r.pending[flow]? = some frame := by
  have hmem := List.argmin_mem h
  exact ExtTreeMap.mem_toList_iff_getElem?_eq_some.mp (List.mem_filter.mp hmem).1

/-- A flush gives waiting frames to the connection. -/
theorem flushRounds_keeps (rounds : ℕ) {r : ReliableLatestSender} (h : r.All F)
    (hs : ∀ frame ∈ s.frames, F frame) :
    let (_, r', s') := ReliableLatestSender.flushRounds (ε := ε) endConnection rounds r s
    r'.All F ∧ s.SameLanes s' ∧ ∀ frame ∈ s'.frames, F frame := by
  induction rounds generalizing r s with
  | zero => exact ⟨h, ⟨rfl, rfl⟩, hs⟩
  | succ rounds ih =>
    simp only [ReliableLatestSender.flushRounds]
    cases hnext : r.next with
    | none => exact ⟨h, ⟨rfl, rfl⟩, hs⟩
    | some entry =>
    obtain ⟨flow, frame⟩ := entry
    -- The frame that is sent is one of those that the sender holds.
    have hframe := h flow frame (ReliableLatestSender.next_mem hnext)
    have hmore : ∀ f ∈ s.frames ++ [Frame.reliable frame.wire], F f := by
      intro f hf
      rcases List.mem_append.mp hf with hf | hf
      · exact hs f hf
      · rw [List.mem_singleton.mp hf]
        exact hframe
    simp only [endConnection, End.trySend, End.answer]
    cases s.conditions.answers.head?.join with
    | none =>
      simp only
      have hsent := ih (s := { s with
        frames := s.frames ++ [.reliable frame.wire]
        conditions := { s.conditions with answers := s.conditions.answers.tail } })
        (h.insert flow { frame with pending := false } hframe) hmore
      obtain ⟨hall, hlanes, hframes⟩ := hsent
      exact ⟨hall, ⟨hlanes.outgoing, hlanes.incoming⟩, hframes⟩
    | some e =>
      simp only
      split
      · exact ⟨h, ⟨rfl, rfl⟩, hmore⟩
      · exact ⟨h, ⟨rfl, rfl⟩, hmore⟩

/-- A frame that is queued takes the place of one frame. -/
theorem enqueue_keeps {r : ReliableLatestSender} (h : r.All F) {flow : RealtimeFlowId}
    {generation : UInt32} {sequence : UInt64} {priority : RealtimePriority} {payload : Bytes}
    (maxFrameBytes : ℕ)
    (hframe : F (.reliable (reliableWire flow generation sequence payload))) :
    (r.enqueue (ε := ε) flow generation sequence priority payload maxFrameBytes).2.All F := by
  have hnew := h.insert flow
    ⟨true, priority, reliableWire flow generation sequence payload⟩ hframe
  unfold ReliableLatestSender.enqueue
  simp only
  split
  · exact h
  split
  · exact h
  split
  · exact hnew
  · exact hnew

end Sending

namespace Publisher
variable {P : TrackingProtocol} {F : Frame → Prop} {p p' p'' : Publisher P} {s s' s'' : End}

/-- Neither the control side nor the frames that wait change. -/
structure OnlyEncodes (p p' : Publisher P) : Prop extends p.ControlKept p' where
  reliable : p'.reliable = p.reliable

theorem OnlyEncodes.refl (p : Publisher P) : p.OnlyEncodes p := ⟨.refl p, rfl⟩

theorem OnlyEncodes.trans (h : p.OnlyEncodes p') (h' : p'.OnlyEncodes p'') : p.OnlyEncodes p'' :=
  ⟨h.toControlKept.trans h'.toControlKept, h'.reliable.trans h.reliable⟩

/-- A step of the data side leaves the control side alone and handles frames of one kind. -/
structure DataStep (F : Frame → Prop) (p p' : Publisher P) (s s' : End) : Prop where
  kept : p.ControlKept p'
  lanes : s.SameLanes s'
  waiting : p'.reliable.All F
  given : ∀ frame ∈ s'.frames, F frame

theorem DataStep.trans (h : DataStep F p p' s s') (h' : DataStep F p' p'' s' s'') :
    DataStep F p p'' s s'' :=
  ⟨h.kept.trans h'.kept, h.lanes.trans h'.lanes, h'.waiting, h'.given⟩

theorem DataStep.refl (h : p.reliable.All F) (hs : ∀ frame ∈ s.frames, F frame) :
    DataStep F p p s s := ⟨.refl p, ⟨rfl, rfl⟩, h, hs⟩

theorem flushReliable_step (h : p.reliable.All F) (hs : ∀ frame ∈ s.frames, F frame) :
    DataStep F p (p.flushReliable endConnection s).2.1 s
      (p.flushReliable endConnection s).2.2 := by
  have hflush := flushRounds_keeps (ε := P.Error) p.reliable.pending.size h hs
  unfold flushReliable ReliableLatestSender.flush
  generalize ReliableLatestSender.flushRounds (ε := P.Error) endConnection
    p.reliable.pending.size p.reliable s = flushed at hflush ⊢
  obtain ⟨result, reliable, s'⟩ := flushed
  exact ⟨⟨⟨rfl, rfl, rfl⟩, rfl⟩, hflush.2.1, hflush.1, hflush.2.2⟩

theorem noteFrame_only (p : Publisher P) (now : ℕ) (targetFps : UInt16) :
    p.OnlyEncodes (p.noteFrame now targetFps).2 := by
  unfold noteFrame
  simp only
  repeat' split
  all_goals exact ⟨⟨⟨rfl, rfl, rfl⟩, rfl⟩, rfl⟩

/-- A result that is encoded has the session and the generation of the definition. -/
theorem encodeResult_cases (p : Publisher P) (D : SessionDefinition P) (result : P.Result)
    (hsession : result.sessionId = D.sessionId) (hgeneration : result.generation = D.generation) :
    p.OnlyEncodes (p.encodeResult D result).2 ∧
      ∀ encoded, (p.encodeResult D result).1 = .ok encoded → EncodedFor D encoded := by
  -- Whatever fails, only the encoder has moved.
  have hfail {p' : Publisher P} {e : P.Failure} (h : p.OnlyEncodes p') :
      p.OnlyEncodes p' ∧ ∀ encoded, (Except.error e : Except P.Failure _) = .ok encoded →
        EncodedFor D encoded := by
    refine ⟨h, ?_⟩
    intro encoded hencoded
    cases hencoded
  unfold encodeResult
  split
  · exact hfail ⟨⟨⟨rfl, rfl, rfl⟩, rfl⟩, rfl⟩
  next samples hsamples =>
  simp only
  split
  · exact hfail ⟨⟨⟨rfl, rfl, rfl⟩, rfl⟩, rfl⟩
  next compact hcompact =>
  split
  · exact hfail ⟨⟨⟨rfl, rfl, rfl⟩, rfl⟩, rfl⟩
  next core hcore =>
  rw [hsession, hgeneration] at hcompact
  split
  · -- The geometry is encoded when it is due.
    split
    · exact hfail ⟨⟨⟨rfl, rfl, rfl⟩, rfl⟩, rfl⟩
    next geometry hgeometry =>
    refine ⟨⟨⟨⟨rfl, rfl, rfl⟩, rfl⟩, rfl⟩, ?_⟩
    intro encoded hencoded
    obtain rfl := Except.ok.inj hencoded
    refine ⟨hsession, hgeneration, ⟨samples, _, hcompact⟩, hcore, ?_⟩
    intro payload hpayload
    obtain rfl := Option.some.inj hpayload
    exact hgeometry
  · refine ⟨⟨⟨⟨rfl, rfl, rfl⟩, rfl⟩, rfl⟩, ?_⟩
    intro encoded hencoded
    obtain rfl := Except.ok.inj hencoded
    refine ⟨hsession, hgeneration, ⟨samples, _, hcompact⟩, hcore, ?_⟩
    intro payload hpayload
    cases hpayload

/-- What is prepared was encoded for the active definition. -/
theorem prepare_cases (p : Publisher P) (result : P.Result) (now : ℕ) :
    p.OnlyEncodes (p.prepare result now).2 ∧
      ∀ encoded, (p.prepare result now).1 = .ok encoded →
        ∃ D, p.active = some D ∧ EncodedFor D encoded := by
  have hfail {p' : Publisher P} {e : P.Failure} (h : p.OnlyEncodes p') :
      p.OnlyEncodes p' ∧ ∀ encoded, (Except.error e : Except P.Failure _) = .ok encoded →
        ∃ D, p.active = some D ∧ EncodedFor D encoded := by
    refine ⟨h, ?_⟩
    intro encoded hencoded
    cases hencoded
  unfold prepare
  split
  · exact hfail (.refl p)
  split
  · exact hfail (.refl p)
  next D hactive =>
  have hnote := noteFrame_only p now (P.layoutProposal D.layout).targetFps
  split
  next e p₁ hrate =>
    rw [hrate] at hnote
    exact hfail hnote
  next p₁ hrate =>
  rw [hrate] at hnote
  split
  · exact hfail hnote
  next hsame =>
  push Not at hsame
  split
  · exact hfail hnote
  split
  · exact hfail hnote
  obtain ⟨honly, hencoded⟩ := encodeResult_cases p₁ D result hsame.1 hsame.2
  exact ⟨hnote.trans honly, fun encoded h => ⟨D, hactive, hencoded encoded h⟩⟩

theorem enqueueReliable_keeps (h : p.reliable.All F) {result : P.Result} {flow : RealtimeFlowId}
    {payload : Bytes} (priority : RealtimePriority)
    (hframe : F (.reliable (reliableWire flow result.generation result.sequence payload))) :
    p.ControlKept (p.enqueueReliable result flow priority payload).2 ∧
      (p.enqueueReliable result flow priority payload).2.reliable.All F :=
  ⟨⟨⟨rfl, rfl, rfl⟩, rfl⟩, enqueue_keeps h p.config.maxTrackingFrameBytes hframe⟩

theorem EncodedResult.geometry_mem {encoded : EncodedResult (P := P)} {payload : Bytes}
    (h : encoded.geometry = some payload) : payload ∈ encoded.payloads := by
  simp [EncodedResult.payloads, h]

theorem enqueueGeometry_keeps (h : p.reliable.All F) {encoded : EncodedResult (P := P)}
    (hframes : ∀ frame, Carries encoded frame → F frame) :
    p.ControlKept (p.enqueueGeometry encoded.result encoded.geometry).2 ∧
      (p.enqueueGeometry encoded.result encoded.geometry).2.reliable.All F := by
  cases hpayload : encoded.geometry with
  | none => exact ⟨.refl p, h⟩
  | some payload =>
    have hlast := enqueueReliable_keeps h .disposable
      (hframes _ (.reliable geometryFlow payload (EncodedResult.geometry_mem hpayload)))
    simp only [enqueueGeometry]
    split
    next e p₁ heq =>
      rw [heq] at hlast
      exact hlast
    next outcome p₁ heq =>
      rw [heq] at hlast
      exact hlast

/-- The frames of a result are queued one after the other, up to one that is refused. -/
theorem enqueueAll_keeps (h : p.reliable.All F) {encoded : EncodedResult (P := P)}
    (hframes : ∀ frame, Carries encoded frame → F frame) :
    p.ControlKept (p.enqueueAll encoded).2 ∧ (p.enqueueAll encoded).2.reliable.All F := by
  have hcarried (flow : RealtimeFlowId) {payload : Bytes} (hpayload : payload ∈ encoded.payloads) :=
    hframes _ (Carries.reliable flow payload hpayload)
  obtain ⟨hkept₁, hall₁⟩ := enqueueReliable_keeps h .critical
    (hcarried compactRigFlow List.mem_cons_self)
  unfold enqueueAll
  split
  next e p₁ hcompact =>
    rw [hcompact] at hkept₁ hall₁
    exact ⟨hkept₁, hall₁⟩
  next compact p₁ hcompact =>
  rw [hcompact] at hkept₁ hall₁
  obtain ⟨hkept₂, hall₂⟩ := enqueueReliable_keeps hall₁ .high
    (hcarried coreResultFlow (List.mem_cons_of_mem _ List.mem_cons_self))
  split
  next e p₂ hcore =>
    rw [hcore] at hkept₂ hall₂
    exact ⟨hkept₁.trans hkept₂, hall₂⟩
  next core p₂ hcore =>
  rw [hcore] at hkept₂ hall₂
  have hgeometry := enqueueGeometry_keeps hall₂ hframes
  split
  next e p₃ heq =>
    rw [heq] at hgeometry
    exact ⟨(hkept₁.trans hkept₂).trans hgeometry.1, hgeometry.2⟩
  next geometry p₃ heq =>
    rw [heq] at hgeometry
    exact ⟨(hkept₁.trans hkept₂).trans hgeometry.1, hgeometry.2⟩

theorem sendReliable_step (h : p.reliable.All F) (hs : ∀ frame ∈ s.frames, F frame)
    {encoded : EncodedResult (P := P)} (hframes : ∀ frame, Carries encoded frame → F frame) :
    DataStep F p (p.sendReliable endConnection s encoded).2.1 s
      (p.sendReliable endConnection s encoded).2.2 := by
  have hfirst := flushReliable_step h hs
  unfold sendReliable
  split
  next e p₁ s₁ heq =>
    rw [heq] at hfirst
    exact hfirst
  next p₁ s₁ heq =>
  rw [heq] at hfirst
  obtain ⟨hkept, hall⟩ := enqueueAll_keeps hfirst.waiting hframes
  split
  next e p₂ hqueue =>
    rw [hqueue] at hkept hall
    exact ⟨hfirst.kept.trans hkept, hfirst.lanes, hall, hfirst.given⟩
  next outcome p₂ hqueue =>
  rw [hqueue] at hkept hall
  have hlast := flushReliable_step hall hfirst.given
  have hqueued : DataStep F p p₂ s s₁ :=
    ⟨hfirst.kept.trans hkept, hfirst.lanes, hall, hfirst.given⟩
  split
  next e p₃ s₃ hflush =>
    rw [hflush] at hlast
    exact hqueued.trans hlast
  next p₃ s₃ hflush =>
    rw [hflush] at hlast
    obtain ⟨hkept', hlanes, hall', hgiven⟩ := hqueued.trans hlast
    exact ⟨⟨⟨hkept'.pending, hkept'.pendingAccepted, hkept'.active⟩, hkept'.outbox⟩, hlanes, hall',
      hgiven⟩

/-- A datagram joins the frames that were given to the connection. -/
theorem trySendLatest_keeps (s : End) (datagram : RealtimeDatagram)
    (hdatagram : F (.realtime datagram)) (hs : ∀ frame ∈ s.frames, F frame) :
    s.SameLanes (endConnection.trySendLatest s datagram).2 ∧
      ∀ frame ∈ (endConnection.trySendLatest s datagram).2.frames, F frame := by
  have hmore : ∀ frame ∈ s.frames ++ [Frame.realtime datagram], F frame := by
    intro frame hframe
    rcases List.mem_append.mp hframe with hframe | hframe
    · exact hs frame hframe
    · rw [List.mem_singleton.mp hframe]
      exact hdatagram
  simp only [endConnection, End.trySendLatest, End.answer]
  cases s.conditions.answers.head?.join with
  | none => exact ⟨⟨rfl, rfl⟩, hmore⟩
  | some e => exact ⟨⟨rfl, rfl⟩, hmore⟩

/-- The fragments of a payload of a result. -/
theorem sendFragments_keeps {encoded : EncodedResult (P := P)}
    (hframes : ∀ frame, Carries encoded frame → F frame) {payload : Bytes}
    (hpayload : payload ∈ encoded.payloads) (hs : ∀ frame ∈ s.frames, F frame)
    (flow : RealtimeFlowId) (deadline : ℕ) (priority : RealtimePriority) :
    s.SameLanes (p.sendFragments endConnection s encoded.result flow deadline priority payload).2 ∧
      ∀ frame ∈
        (p.sendFragments endConnection s encoded.result flow deadline priority payload).2.frames,
          F frame := by
  unfold sendFragments
  refine sendFragmented_keeps (I := fun s' => s.SameLanes s' ∧ ∀ frame ∈ s'.frames, F frame) ?_
    ⟨⟨rfl, rfl⟩, hs⟩
  intro s' size bytes hcuts hlimit hfragment hkept
  have hcarries : Carries encoded (.realtime (FragmentSend.datagram {
      flow, generation := encoded.result.generation, sequence := encoded.result.sequence, deadline
      priority, payload, config := p.config } bytes)) :=
    .fragment _ payload size rfl rfl hpayload hfragment
  have hdatagram := hframes _ hcarries
  obtain ⟨hlanes, hgiven⟩ := trySendLatest_keeps s' _ hdatagram hkept.2
  exact ⟨hkept.1.trans hlanes, hgiven⟩

theorem sendGeometry_keeps {encoded : EncodedResult (P := P)}
    (hframes : ∀ frame, Carries encoded frame → F frame) (hs : ∀ frame ∈ s.frames, F frame)
    (deadline : ℕ) :
    s.SameLanes (p.sendGeometry endConnection s encoded.result deadline encoded.geometry).2 ∧
      ∀ frame ∈
        (p.sendGeometry endConnection s encoded.result deadline encoded.geometry).2.frames,
          F frame := by
  cases hpayload : encoded.geometry with
  | none => exact ⟨⟨rfl, rfl⟩, hs⟩
  | some payload =>
    have hlast := sendFragments_keeps (p := p) hframes (EncodedResult.geometry_mem hpayload) hs
      geometryFlow deadline .disposable
    simp only [sendGeometry]
    split
    next e s₁ heq =>
      rw [heq] at hlast
      exact hlast
    next outcome s₁ heq =>
      rw [heq] at hlast
      exact hlast

theorem sendDatagrams_step (h : p.reliable.All F) (hs : ∀ frame ∈ s.frames, F frame)
    {encoded : EncodedResult (P := P)} (hframes : ∀ frame, Carries encoded frame → F frame)
    (deadline : ℕ) :
    DataStep F p (p.sendDatagrams endConnection s encoded deadline).2.1 s
      (p.sendDatagrams endConnection s encoded deadline).2.2 := by
  have hfail : DataStep F p p s s := .refl h hs
  unfold sendDatagrams
  simp only
  split
  · exact hfail
  split
  · exact hfail
  -- One datagram for the frame, then the fragments of the result, then those of the geometry.
  have hfirst := trySendLatest_keeps s {
    flow := compactRigFlow, generation := encoded.result.generation
    sequence := encoded.result.sequence, deadline, priority := .critical
    payload := encoded.compact } (hframes _ (.whole _ rfl rfl List.mem_cons_self)) hs
  split
  next e s₁ heq =>
    rw [heq] at hfirst
    exact ⟨.refl p, hfirst.1, h, hfirst.2⟩
  next compact s₁ heq =>
  rw [heq] at hfirst
  have hcore := sendFragments_keeps (p := p) hframes
    (List.mem_cons_of_mem _ List.mem_cons_self) hfirst.2 coreResultFlow deadline .high
  split
  next e s₂ heq =>
    rw [heq] at hcore
    exact ⟨.refl p, hfirst.1.trans hcore.1, h, hcore.2⟩
  next core s₂ heq =>
  rw [heq] at hcore
  have hgeometry := sendGeometry_keeps (p := p) hframes hcore.2 deadline
  have hlanes := hfirst.1.trans hcore.1
  split
  next e s₃ heq =>
    rw [heq] at hgeometry
    exact ⟨.refl p, hlanes.trans hgeometry.1, h, hgeometry.2⟩
  next geometry s₃ heq =>
    rw [heq] at hgeometry
    exact ⟨⟨⟨rfl, rfl, rfl⟩, rfl⟩, hlanes.trans hgeometry.1, h, hgeometry.2⟩

/-- Sending a result gives to the connection what waited and frames of the active definition. -/
theorem trySendLatest_step (h : p.reliable.All F) (hs : ∀ frame ∈ s.frames, F frame)
    (hactive : ∀ D, p.active = some D → ∀ frame, FrameOf D frame → F frame) (result : P.Result)
    (now later : ℕ) :
    DataStep F p (p.trySendLatest endConnection s result now later).2.1 s
      (p.trySendLatest endConnection s result now later).2.2 := by
  obtain ⟨honly, hprepared⟩ := prepare_cases p result now
  unfold trySendLatest
  split
  next e p₁ heq =>
    rw [heq] at honly
    exact ⟨honly.toControlKept, ⟨rfl, rfl⟩, honly.reliable ▸ h, hs⟩
  next encoded p₁ heq =>
  rw [heq] at honly hprepared
  obtain ⟨D, hD, hencoded⟩ := hprepared encoded rfl
  have hframes : ∀ frame, Carries encoded frame → F frame :=
    fun frame hframe => hactive D hD frame ⟨encoded, hencoded, hframe⟩
  have hstart : DataStep F p p₁ s s :=
    ⟨honly.toControlKept, ⟨rfl, rfl⟩, honly.reliable ▸ h, hs⟩
  split
  · exact hstart.trans (sendReliable_step hstart.waiting hs hframes)
  · exact hstart.trans (sendDatagrams_step hstart.waiting hs hframes _)

end Publisher

end MutsukiLink.Ntp
