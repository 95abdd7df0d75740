import MutsukiLink.FragmentBounds
import MutsukiLink.NtpControlRoundTrip

/-! Which control messages survive the trip over the wire, and that decoding stays inside its
input. -/
namespace MutsukiLink.Ntp
open WireBytes WireCodec

section Checked
variable {T : TrackingTypes}

/-- `Reader::framed` with every slice and index checked. There is no result where the source would
stop because a bound is passed. -/
def framedChecked (bytes : Bytes) :
    Option (Except (BindingError T.Error) (UInt8 × WireCodec.Reader)) :=
  if bytes.length < headerLen ∨ maxControlBytes < bytes.length then some (.error .invalidControl)
  else do
    let front ← slice? bytes 0 4
    if front ≠ magic then return .error .invalidControl
    let found ← bytes[4]?
    if found ≠ version then return .error .invalidControl
    let payloadLen ← slice? bytes 6 10
    if ofBeBytes payloadLen ≠ bytes.length-headerLen then return .error .invalidControl
    let kind ← bytes[5]?
    let payload ← slice? bytes headerLen bytes.length
    return .ok (kind, .new payload)

/-- Behind the header all reads go through the cursor. -/
def ControlMessage.decodeChecked (bytes : Bytes) :
    Option (Except (BindingError T.Error) (ControlMessage T)) :=
  (framedChecked (T := T) bytes).map fun framed => framed.bind fun framed =>
    let read := Reader.message T.maxLayoutSignals framed.1 framed.2
    read.1.bind fun message =>
      if read.2.position = read.2.bytes.length then .ok message else .error .invalidControl

theorem decodeChecked_eq_decode (bytes : Bytes) :
    ControlMessage.decodeChecked (T := T) bytes = some (ControlMessage.decode bytes) := by
  unfold ControlMessage.decodeChecked ControlMessage.decode decodeWithin framedChecked
  by_cases hlength : bytes.length < headerLen ∨ maxControlBytes < bytes.length
  · have hbad : bytes.length < headerLen ∨ maxControlBytes < bytes.length ∨
        bytes.take 4 ≠ magic ∨ bytes.getD 4 0 ≠ version := by
      rcases hlength with h | h
      · exact .inl h
      · exact .inr (.inl h)
    rw [if_pos hlength, if_pos hbad]
    rfl
  rw [if_neg hlength]
  obtain ⟨hshort, hlong⟩ := not_or.mp hlength
  have hheader : 10 ≤ bytes.length := Nat.not_lt.mp hshort
  -- The header is long enough for each of the slices.
  have hfront : slice? bytes 0 4 = some (bytes.take 4) := slice?_of_le (by omega) (by omega)
  have hversion : bytes[4]? = some (bytes.getD 4 0) := getElem?_of_lt (by omega)
  have hcount : slice? bytes 6 10 = some ((bytes.drop 6).take 4) :=
    slice?_of_le (by omega) (by omega)
  have hkind : bytes[5]? = some (bytes.getD 5 0) := getElem?_of_lt (by omega)
  have hpayload : slice? bytes headerLen bytes.length = some (bytes.drop headerLen) := by
    have hwhole : (bytes.drop headerLen).take (bytes.length-headerLen) = bytes.drop headerLen := by
      apply List.take_of_length_le
      rw [List.length_drop]
    exact (slice?_of_le hheader le_rfl).trans (congrArg some hwhole)
  simp only [hfront, hversion, hcount, hkind, hpayload, Option.bind_eq_bind, Option.bind_some,
    hshort, hlong, false_or]
  by_cases hmagic : bytes.take 4 ≠ magic
  · rw [if_pos hmagic, if_pos (.inl hmagic)]
    rfl
  by_cases hother : bytes.getD 4 0 ≠ version
  · rw [if_neg hmagic, if_pos hother, if_pos (.inr hother)]
    rfl
  rw [if_neg hmagic, if_neg hother, if_neg (not_or.mpr ⟨hmagic, hother⟩)]
  by_cases hlen : ofBeBytes ((bytes.drop 6).take 4) ≠ bytes.length-headerLen
  · rw [if_pos hlen, if_pos hlen]
    rfl
  rw [if_neg hlen, if_neg hlen]
  show some (Except.bind _ _) = _
  rcases hread : Reader.message T.maxLayoutSignals (bytes.getD 5 0)
    (.new (bytes.drop headerLen)) with ⟨e | message, reader⟩
  · simp only [Except.bind, hread]
  · simp only [Except.bind, hread]

end Checked

section Exact
variable {T : TrackingTypes} {m : ControlMessage T} {bytes : Bytes} {maxSignals : ℕ}

/-- What a proposal needs on top of what its encoding checks. -/
def SessionProposal.Survives (proposal : SessionProposal T) : Prop :=
  proposal.layout.extraSignals.length ≤ T.maxLayoutSignals ∧
    proposal.layout.revisions = T.revisions proposal.descriptor

theorem SessionProposal.received_iff (proposal : SessionProposal T) :
    proposal.received = proposal ↔
      proposal.layout.revisions = T.revisions proposal.descriptor := by
  constructor
  · intro h
    have hlayout := congrArg (fun p => p.layout.revisions) h
    exact hlayout.symm
  · intro h
    rw [SessionProposal.received, ← h]

theorem ControlMessage.received_iff (m : ControlMessage T) : m.received = m ↔
    ∀ p, m = .sessionProposal p → p.layout.revisions = T.revisions p.descriptor := by
  constructor
  · rintro h p rfl
    apply p.received_iff.mp
    exact ControlMessage.sessionProposal.inj h
  · intro h
    cases m with
    | sessionProposal p =>
      have hp := p.received_iff.mpr (h p rfl)
      rw [ControlMessage.received, hp]
    | _ => rfl

/-- The reader refuses of what the writer accepts only a layout with too many signals. -/
theorem MessageAllowed.narrow_iff (h : MessageAllowed (2^16) m) : MessageAllowed maxSignals m ↔
    ∀ p, m = .sessionProposal p → p.layout.extraSignals.length ≤ maxSignals := by
  constructor
  · rintro hm p rfl
    exact hm.layout.2
  · intro hm
    cases m with
    | sessionProposal p => exact ⟨h.descriptor, h.layout.1, hm p rfl⟩
    | _ => exact h

theorem decode_encoded_iff (laws : T.CodecLaws) (h : m.encode = .ok bytes) :
    ControlMessage.decode bytes = .ok m ↔ bytes.length ≤ maxControlBytes ∧
      ∀ p, m = .sessionProposal p → p.Survives := by
  obtain ⟨hallowed, -, rfl⟩ := wire_of_encode h
  constructor
  · intro hdecode
    obtain ⟨hread, hreceived, -, hlength⟩ := wire_of_decode laws hdecode
    refine ⟨hlength, fun p hp => ⟨?_, ?_⟩⟩
    · exact hallowed.narrow_iff.mp hread p hp
    · exact m.received_iff.mp hreceived p hp
  · intro hsurvives
    obtain ⟨hlength, hp⟩ := hsurvives
    apply decode_wireImage laws
    · exact hallowed.narrow_iff.mpr fun p hm => (hp p hm).1
    · exact m.received_iff.mpr fun p hm => (hp p hm).2
    · exact hlength

theorem encode_of_decode (laws : T.CodecLaws) (h : ControlMessage.decode bytes = .ok m) :
    m.encode = .ok bytes := by
  obtain ⟨hallowed, -, rfl, hlength⟩ := wire_of_decode laws h
  have hwrite := (Writer.message_emits m []).1 hallowed.widen
  have hsize : ¬2^32 ≤ (messageImage m).length := by
    have hmax : maxControlBytes = 65536 := rfl
    rw [wireImage, List.length_append] at hlength
    omega
  rw [List.nil_append] at hwrite
  simp only [ControlMessage.encode, hwrite, if_neg hsize]
  rfl

/-- From the first byte of the payload on, the cursor only moves forward and never leaves it, also
when the message is refused. -/
theorem message_stays_inside (laws : T.CodecLaws) (kind : UInt8) (payload : Bytes) :
    (WireCodec.Reader.new payload).Advance
      (Reader.message (T := T) T.maxLayoutSignals kind (.new payload)).2 := by
  apply (Reader.message_recognises laws T.maxLayoutSignals kind).bounded
  exact Nat.zero_le _

/-- An encoded message is decoded to itself exactly when it is short enough and, for a proposal,
its layout is one that the wire can carry; every byte string that is decoded is the encoding of
its message; and decoding stays inside the bytes. -/
theorem tracking_control_codec_is_exact (laws : T.CodecLaws) :
    (∀ (m : ControlMessage T) (bytes : Bytes), m.encode = .ok bytes →
      (ControlMessage.decode bytes = .ok m ↔ bytes.length ≤ maxControlBytes ∧
        ∀ p, m = .sessionProposal p →
          p.layout.extraSignals.length ≤ T.maxLayoutSignals ∧
            p.layout.revisions = T.revisions p.descriptor)) ∧
    (∀ (bytes : Bytes) (m : ControlMessage T),
      ControlMessage.decode bytes = .ok m → m.encode = .ok bytes) ∧
    (∀ bytes : Bytes, ControlMessage.decodeChecked (T := T) bytes =
      some (ControlMessage.decode bytes)) ∧
    ∀ (kind : UInt8) (payload : Bytes), (WireCodec.Reader.new payload).Advance
      (Reader.message (T := T) T.maxLayoutSignals kind (.new payload)).2 := by
  refine ⟨?_, ?_, ?_, ?_⟩
  · intro m bytes h
    exact decode_encoded_iff laws h
  · intro bytes m h
    exact encode_of_decode laws h
  · exact decodeChecked_eq_decode
  · exact message_stays_inside laws

end Exact

namespace Sample

/-- A descriptor is a revision, sent in two bytes. -/
def revisionTypes : TrackingTypes where
  Error := Unit
  Descriptor := UInt16
  Revisions := UInt16
  SignalId := UInt16
  revisions := id
  encodeDescriptor descriptor := .ok (beBytes 2 descriptor.toNat)
  decodeDescriptor bytes :=
    if bytes.length = 2 then .ok (UInt16.ofNat (ofBeBytes bytes)) else .error ()
  newSignal := some
  signalCode := id
  maxLayoutSignals := 512

theorem revisionTypes_codec : revisionTypes.CodecLaws where
  decode_descriptor := by
    intro descriptor bytes h
    obtain rfl := Except.ok.inj h
    have hlength : (beBytes 2 (UInt16.toNat descriptor)).length = 2 := length_beBytes _ _
    have hvalue := ofBeBytes_beBytes 2 (UInt16.toNat descriptor) (UInt16.toNat_lt descriptor)
    simp only [revisionTypes, if_pos hlength, hvalue]
    exact congrArg Except.ok UInt16.ofNat_toNat
  encode_descriptor := by
    intro bytes descriptor h
    simp only [revisionTypes] at h ⊢
    split at h
    swap
    · cases h
    next hlength =>
    obtain rfl := Except.ok.inj h
    have hlt : ofBeBytes bytes < 2^16 := by
      have hall := ofBeBytes_lt bytes
      rwa [hlength] at hall
    have hword : (UInt16.ofNat (ofBeBytes bytes)).toNat = ofBeBytes bytes :=
      UInt16.toNat_ofNat_of_lt hlt
    rw [hword]
    have hbytes := beBytes_ofBeBytes bytes
    rw [hlength] at hbytes
    exact congrArg Except.ok hbytes
  new_signal _ := rfl
  signal_code := by
    intro code signal h
    exact (Option.some.inj h).symm

/-- A proposal with the given revisions in its layout, for a descriptor of revision 3. -/
def proposalWith (revisions : UInt16) : ControlMessage revisionTypes :=
  .sessionProposal {
    descriptor := (3 : UInt16)
    sessionId := .replicate 16 1
    generation := 2
    layoutId := 7
    layout := ⟨revisions, .basic, 1, [(5 : UInt16)], .i16Normalized, .none, 30⟩
    topology := {} }

end Sample

/-- The revisions of a layout arrive only if they are those of the descriptor. -/
theorem sample_revisions_are_replaced :
    (∃ bytes, (Sample.proposalWith 3).encode = .ok bytes ∧
      ControlMessage.decode bytes = .ok (Sample.proposalWith 3)) ∧
    ∃ bytes, (Sample.proposalWith 4).encode = .ok bytes ∧
      ControlMessage.decode bytes ≠ .ok (Sample.proposalWith 4) := by
  have hexact := (tracking_control_codec_is_exact Sample.revisionTypes_codec).1
  constructor
  · refine ⟨_, rfl, (hexact (Sample.proposalWith 3) _ rfl).mpr ⟨by decide, ?_⟩⟩
    intro p hp
    obtain rfl := ControlMessage.sessionProposal.inj hp
    exact ⟨by decide, rfl⟩
  · refine ⟨_, rfl, fun hdecode => ?_⟩
    have hsurvives := (hexact (Sample.proposalWith 4) _ rfl).mp hdecode
    have hrevisions : (4 : UInt16) = 3 := (hsurvives.2 _ rfl).2
    exact absurd hrevisions (by decide)

end MutsukiLink.Ntp
