import MutsukiLink.NtpLatestLink
import MutsukiLink.NtpShipments

/-! The frames of published results on their way to a subscriber. What is decoded from a wire, and
what is put together from fragments, is a part of such a result. -/
namespace MutsukiLink
open WireBytes PieceAssembly

section Fragments
variable {config config₀ : BindingConfig} {payload bytes : Bytes} {size : ℕ} {ε : Type}

/-- A fragment that was cut for other limits is refused, or its payload keeps these limits. -/
theorem decode_cut (hcuts : Cuts config₀ payload size) (h : IsFragment payload size bytes)
    (config : BindingConfig) :
    Cuts config payload size ∨
      Fragment.decode (ε := ε) bytes config = .error .invalidFragment := by
  by_cases hfits : count payload size ≤ config.maxFragments ∧
      payload.length ≤ config.maxReassemblyBytes
  · exact Or.inl ⟨hcuts.size_pos, hcuts.nonempty, hfits.2, hfits.1, hcuts.count_lt,
      hcuts.length_lt⟩
  refine Or.inr ?_
  obtain ⟨index, -, hdecode⟩ := decode_fragment (ε := ε) hcuts h
  -- Both decoders read the same numbers, and only the limits differ.
  unfold Fragment.decode at hdecode ⊢
  split at hdecode
  · cases hdecode
  next hheader =>
  rw [if_neg hheader]
  dsimp only at hdecode ⊢
  split at hdecode
  · cases hdecode
  have hfragment := Except.ok.inj hdecode
  have hcount := congrArg Fragment.count hfragment
  have htotal := congrArg Fragment.totalLen hfragment
  dsimp only [fragmentAt] at hcount htotal
  rw [hcount, htotal, if_pos (by omega)]

namespace Reassembler
variable {a : Reassembler} {book book' : Book} {g : UInt32} {s : UInt64}

theorem Sound.mono (h : Sound book a)
    (hle : ∀ g s payload size, book g s payload size → book' g s payload size) :
    Sound book' a := by
  intro r hr
  obtain ⟨hnew, payload, size, hbook, hassembles⟩ := h r hr
  exact ⟨hnew, payload, size, hle _ _ _ _ hbook, hassembles⟩

theorem sound_new : Sound book .new := by
  intro r hr
  cases hr

/-- A fragment completes nothing but its payload. -/
theorem push_from (hbook : book.Consistent config) (ha : Sound book a)
    (hcuts : Cuts config₀ payload size) (hfragment : IsFragment payload size bytes)
    (hpublished : Cuts config payload size → book g s payload size) :
    Sound book (a.push (ε := ε) g s bytes config).2 ∧
      ∀ outcome frame, (a.push (ε := ε) g s bytes config).1 = .ok outcome →
        outcome.completed = some frame → frame = ⟨g, s, payload⟩ := by
  rcases decode_cut (ε := ε) hcuts hfragment config with hfits | hdecode
  · obtain ⟨⟨hsound, hresult⟩, -⟩ := push_takes (ε := ε) hbook ha (hpublished hfits) hfragment
    refine ⟨hsound, ?_⟩
    intro outcome frame houtcome hcompleted
    rcases hresult with ⟨replaced, hok, -⟩ | ⟨hold | ⟨replaced, hpending⟩, -⟩
    · obtain rfl := Except.ok.inj (hok.symm.trans houtcome)
      exact (Option.some.inj hcompleted).symm
    · obtain rfl := Except.ok.inj (hold.symm.trans houtcome)
      cases hcompleted
    · obtain rfl := Except.ok.inj (hpending.symm.trans houtcome)
      cases hcompleted
  · unfold push
    split
    · refine ⟨ha, ?_⟩
      intro outcome frame houtcome hcompleted
      obtain rfl := Except.ok.inj houtcome
      cases hcompleted
    · rw [hdecode]
      refine ⟨ha, ?_⟩
      intro outcome frame houtcome
      cases houtcome

end Reassembler

end Fragments

namespace Ntp
open OrderedMap

section Publications
variable {P : TrackingProtocol}

/-- A result that is published, with what its frames depend on besides. -/
structure Publication (P : TrackingProtocol) where
  result : P.Result
  config : BindingConfig
  mode : TrackingTransportMode
  maxPayload : Option ℕ

/-- A frame of one of the publications. -/
def Shipped (S : Publication P → Prop) (frame : Frame) : Prop :=
  ∃ x, S x ∧ Ships x.config x.maxPayload x.result x.mode frame

/-- Datagrams of one generation and sequence are of one result, cut in one way. -/
def OneCut (S : Publication P → Prop) : Prop :=
  ∀ x y, S x → S y → x.mode = .datagram → y.mode = .datagram →
    x.result.generation = y.result.generation → x.result.sequence = y.result.sequence →
      x.result = y.result ∧ x.maxPayload = y.maxPayload

/-- The bytes are a part of a published result. -/
def Genuine (S : Publication P → Prop) (flow : RealtimeFlowId) (generation : UInt32)
    (sequence : UInt64) (payload : Bytes) : Prop :=
  ∃ x, S x ∧ x.result.generation = generation ∧ x.result.sequence = sequence ∧
    PartOf x.result flow payload

/-- What was published as fragments of a flow that these limits allow. -/
def bookOf (S : Publication P → Prop) (config : BindingConfig) (flow : RealtimeFlowId) : Book :=
  fun generation sequence payload size => ∃ x, S x ∧ x.mode = .datagram ∧
    x.result.generation = generation ∧ x.result.sequence = sequence ∧
    PartOf x.result flow payload ∧ x.maxPayload = some (size+fragmentHeaderLen) ∧
    Cuts config payload size

/-- What the receiver is told of a datagram. -/
structure Delivers (datagram : RealtimeDatagram) (message : ReceivedRealtimeDatagram) : Prop where
  flow : message.flow = datagram.flow
  generation : message.generation = datagram.generation
  sequence : message.sequence = datagram.sequence
  payload : message.payload = datagram.payload

/-- A message in either transport mode. -/
def Comes (S : Publication P → Prop) (mode : TrackingTransportMode)
    (message : ReceivedRealtimeDatagram) : Prop :=
  match mode with
  | .reliableLatestOnly =>
    Genuine S message.flow message.generation message.sequence message.payload
  | .datagram => ∃ datagram, Shipped S (.realtime datagram) ∧ Delivers datagram message

variable {S S' : Publication P → Prop} {result : P.Result} {bytes bytes' : Bytes}
  {flow : RealtimeFlowId}

theorem PartOf.core_eq (h : PartOf result coreResultFlow bytes) :
    P.encodeResult { result with faceLandmarks := [] } = .ok bytes := by
  generalize hflow : coreResultFlow = flow at h
  cases h with
  | compact => exact absurd hflow (by decide)
  | core _ hencode => exact hencode
  | geometry => exact absurd hflow (by decide)

theorem PartOf.geometry_eq (h : PartOf result geometryFlow bytes) :
    P.encodeResult result = .ok bytes := by
  generalize hflow : geometryFlow = flow at h
  cases h with
  | compact => exact absurd hflow (by decide)
  | core => exact absurd hflow (by decide)
  | geometry _ hencode => exact hencode

theorem PartOf.unique (h : PartOf result flow bytes) (h' : PartOf result flow bytes')
    (hflow : flow = coreResultFlow ∨ flow = geometryFlow) : bytes = bytes' := by
  rcases hflow with rfl | rfl
  · exact Except.ok.inj (h.core_eq.symm.trans h'.core_eq)
  · exact Except.ok.inj (h.geometry_eq.symm.trans h'.geometry_eq)

theorem bookOf_consistent (h : OneCut S) (config : BindingConfig)
    (hflow : flow = coreResultFlow ∨ flow = geometryFlow) :
    (bookOf S config flow).Consistent config where
  unique := by
    rintro g s payload payload' size size' ⟨x, hx, hmode, rfl, rfl, hpart, hlimit, -⟩
      ⟨y, hy, hmode', hgeneration, hsequence, hpart', hlimit', -⟩
    obtain ⟨hresult, hmax⟩ := h x y hx hy hmode hmode' hgeneration.symm hsequence.symm
    rw [← hresult] at hpart'
    rw [← hmax, hlimit] at hlimit'
    have hsize := Option.some.inj hlimit'
    exact ⟨hpart.unique hpart' hflow, by omega⟩
  cuts := by
    rintro g s payload size ⟨x, -, -, -, -, -, -, hcuts⟩
    exact hcuts

theorem OneCut.of_le (h : OneCut S') (hle : ∀ x, S x → S' x) : OneCut S := by
  intro x y hx hy
  exact h x y (hle x hx) (hle y hy)

theorem Genuine.mono (hle : ∀ x, S x → S' x) {generation : UInt32} {sequence : UInt64}
    (h : Genuine S flow generation sequence bytes) : Genuine S' flow generation sequence bytes := by
  obtain ⟨x, hx, hpart⟩ := h
  exact ⟨x, hle x hx, hpart⟩

theorem Shipped.mono (hle : ∀ x, S x → S' x) {frame : Frame} (h : Shipped S frame) :
    Shipped S' frame := by
  obtain ⟨x, hx, hships⟩ := h
  exact ⟨x, hle x hx, hships⟩

theorem bookOf_mono (hle : ∀ x, S x → S' x) {config : BindingConfig} (g : UInt32) (s : UInt64)
    (payload : Bytes) (size : ℕ) (h : bookOf S config flow g s payload size) :
    bookOf S' config flow g s payload size := by
  obtain ⟨x, hx, hpart⟩ := h
  exact ⟨x, hle x hx, hpart⟩

/-- A wire that is shipped is the one of a part. -/
theorem Shipped.wire_eq {wire : Bytes} (h : Shipped S (.reliable wire)) :
    ∃ frame : LatestFrame, wire = frame.wire ∧
      Genuine S frame.flow frame.generation frame.sequence frame.payload := by
  obtain ⟨⟨result, config, mode, maxPayload⟩, hx, hships⟩ := h
  cases hships with
  | whole flow payload hpart hsize =>
    exact ⟨⟨flow, result.generation, result.sequence, payload⟩, rfl, _, hx, rfl, rfl, hpart⟩

/-- A datagram that is shipped is a whole compact part or a fragment of another part. -/
theorem Shipped.datagram_cases {datagram : RealtimeDatagram} (h : Shipped S (.realtime datagram)) :
    (datagram.flow = compactRigFlow ∧
      Genuine S compactRigFlow datagram.generation datagram.sequence datagram.payload) ∨
    (datagram.flow ≠ compactRigFlow ∧ ∃ payload size config,
      Genuine S datagram.flow datagram.generation datagram.sequence payload ∧
      Cuts config payload size ∧ IsFragment payload size datagram.payload ∧
      ∀ config, Cuts config payload size →
        bookOf S config datagram.flow datagram.generation datagram.sequence payload size) := by
  obtain ⟨⟨result, config, mode, maxPayload⟩, hx, hships⟩ := h
  cases hships with
  | compact _ hgeneration hsequence hflow hpart =>
    exact Or.inl ⟨hflow, _, hx, hgeneration.symm, hsequence.symm, hpart⟩
  | fragment _ payload size hgeneration hsequence hflow hpart hcuts hlimit hfragment =>
    refine Or.inr ⟨hflow, payload, size, config, ⟨_, hx, hgeneration.symm, hsequence.symm, hpart⟩,
      hcuts, hfragment, ?_⟩
    intro config' hcuts'
    exact ⟨_, hx, rfl, hgeneration.symm, hsequence.symm, hpart, hlimit, hcuts'⟩

end Publications

namespace ReliableLatestReceiver
variable {σ ε : Type} {tryReceive : σ → Except TransportError (Option Bytes) × σ}
  {F : ReceivedRealtimeDatagram → Prop} {r : ReliableLatestReceiver}
  {received : ReceivedRealtimeDatagram} {maxFrameBytes : ℕ}

/-- All frames that wait to be handed out. -/
def All (r : ReliableLatestReceiver) (F : ReceivedRealtimeDatagram → Prop) : Prop :=
  ∀ (flow : RealtimeFlowId) received, r.pending[flow]? = some received → F received

theorem all_empty (h : r.pending = ∅) : r.All F := by
  intro flow received hreceived
  rw [h] at hreceived
  cases hreceived

theorem All.accept (h : r.All F) (hreceived : F received) : (r.accept received).All F := by
  have hinsert (replacements : ℕ) : ({ r with
      pending := r.pending.insert received.flow received, replacements } :
        ReliableLatestReceiver).All F := by
    intro flow other hother
    dsimp only at hother
    rw [lookup_insert] at hother
    split at hother
    · obtain rfl := Option.some.inj hother
      exact hreceived
    · exact h flow other hother
  unfold ReliableLatestReceiver.accept
  split
  · exact hinsert _
  · split
    · exact hinsert _
    · exact h

/-- A decoded frame has the fields of its wire. -/
theorem ofReceived_eq {wire : Bytes} {receivedAt : ℕ}
    (h : decodeReliable (ε := ε) wire maxFrameBytes receivedAt = .ok received) :
    LatestFrame.ofReceived received = LatestFrame.ofWire wire := by
  unfold decodeReliable at h
  dsimp only at h
  split at h
  · cases h
  split at h
  · cases h
  split at h
  · cases h
  · rw [← Except.ok.inj h]
    rfl

variable (hgiven : ∀ s wire s', tryReceive s = (.ok (some wire), s') → ∀ receivedAt received,
  decodeReliable (ε := ε) wire maxFrameBytes receivedAt = .ok received → F received)
include hgiven

theorem drain_all (clock : ℕ → ℕ) (rounds : ℕ) (h : r.All F) (s : σ) :
    (drain (ε := ε) tryReceive maxFrameBytes clock rounds r s).2.1.All F := by
  induction rounds generalizing r s with
  | zero => exact h
  | succ rounds ih =>
    unfold drain
    split
    next wire s₁ hreceive =>
      split
      · exact h
      next frame hdecode => exact ih (h.accept (hgiven s wire s₁ hreceive _ frame hdecode)) s₁
    · exact h
    · split
      · exact h
      · exact h

theorem poll_all (clock : ℕ → ℕ) (maxDrain : ℕ) (h : r.All F) (s : σ) :
    (r.poll (ε := ε) tryReceive s maxFrameBytes maxDrain clock).2.1.All F ∧
      ∀ received, (r.poll (ε := ε) tryReceive s maxFrameBytes maxDrain clock).1 =
        .ok (some received) → F received := by
  have hdrained := drain_all hgiven clock maxDrain h s
  unfold poll
  split
  next e r₁ s₁ heq =>
    rw [heq] at hdrained
    refine ⟨hdrained, ?_⟩
    intro received hreceived
    cases hreceived
  next r₁ s₁ heq =>
  rw [heq] at hdrained
  split
  · refine ⟨hdrained, ?_⟩
    intro received hreceived
    cases Except.ok.inj hreceived
  next flow frame hnext =>
    refine ⟨?_, ?_⟩
    · intro other received hother
      dsimp only at hother
      rw [lookup_erase] at hother
      split at hother
      · cases hother
      · exact hdrained other received hother
    · intro received hreceived
      obtain rfl := Option.some.inj (Except.ok.inj hreceived)
      exact hdrained flow frame (next_mem hnext)

end ReliableLatestReceiver

end Ntp

end MutsukiLink
