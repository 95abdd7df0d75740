import MutsukiLink.NtpControlFormat

/-! The control codec of the tracking binding as a whole: the writer emits the allowed messages, and
what is decoded from encoded bytes is the message that was encoded. -/
namespace MutsukiLink.Ntp
open WireBytes WireCodec

namespace Writer
open Encoder (Emits)
variable {ε : Type} {T : TrackingTypes}

theorem u8_emits (value : UInt8) : Emits (u8 value : Writer ε Unit) True [value] := .push _

theorem u16_emits (value : UInt16) :
    Emits (u16 value : Writer ε Unit) True (beBytes 2 value.toNat) := .push _

theorem u32_emits (value : UInt32) :
    Emits (u32 value : Writer ε Unit) True (beBytes 4 value.toNat) := .push _

theorem u64_emits (value : UInt64) :
    Emits (u64 value : Writer ε Unit) True (beBytes 8 value.toNat) := .push _

theorem bytes_emits (value : Bytes) : Emits (bytes value : Writer ε Unit) True value := .push _

theorem sizedBytes_emits (value : Bytes) :
    Emits (sizedBytes value : Writer ε Unit) (value.length < 2^32) (sizedImage value) := by
  refine (Emits.guard _ ((u32_emits _).seq (bytes_emits _))).congr ?_ fun h => ?_
  · simp only [and_true, not_le]
  · have hlen : (UInt32.ofNat value.length).toNat = value.length :=
      UInt32.toNat_ofNat_of_lt (not_le.mp h.1)
    rw [sizedImage, hlen]

theorem string_emits (value : String) :
    Emits (string value : Writer ε Unit) (ReasonAllowed value) (stringImage value) := by
  refine (Emits.guard _ ((u16_emits _).seq (bytes_emits _))).congr ?_ fun h => ?_
  · simp only [ReasonAllowed, and_true, not_lt]
  · have hlen : (UInt16.ofNat (utf8 value).length).toNat = (utf8 value).length :=
      UInt16.toNat_ofNat_of_lt (lt_of_le_of_lt (not_lt.mp h.1) (by decide))
    rw [stringImage, hlen]

theorem signals_emits (l : List T.SignalId) :
    Emits (signals l : Writer T.Error Unit) True (signalsImage l) := by
  induction l with
  | nil => exact .nil
  | cons signal rest ih => exact ((u16_emits _).seq ih).congr (by simp) fun _ => rfl

theorem topology_emits (t : GeometryTopology) :
    Emits (topology t : Writer ε Unit) True (topologyImage t) :=
  ((u32_emits _).seq ((bytes_emits _).seq (u32_emits _))).congr (by simp) fun _ => rfl

theorem layout_emits (l : LayoutProposal T.Revisions T.SignalId) :
    Emits (layout l : Writer T.Error Unit) (LayoutAllowed (2^16) l) (layoutImage l) := by
  refine ((u8_emits _).seq ((u16_emits _).seq ((u8_emits _).seq ((u8_emits _).seq
    ((u16_emits _).seq (Emits.guard _ ((u16_emits _).seq (signals_emits _)))))))).congr ?_
    fun h => ?_
  · simp only [LayoutAllowed, true_and, and_true, not_le]
    exact ⟨fun h => h.1, fun h => ⟨h, h.le⟩⟩
  · have hlen : (UInt16.ofNat l.extraSignals.length).toNat = l.extraSignals.length :=
      UInt16.toNat_ofNat_of_lt (not_le.mp h.2.2.2.2.2.1)
    rw [layoutImage, hlen]

theorem descriptor_emits (d : T.Descriptor) :
    Emits (descriptor d : Writer T.Error Unit) (DescriptorAllowed d)
      (sizedImage (descriptorBytes d)) := by
  unfold descriptor
  cases hencode : T.encodeDescriptor d with
  | error e =>
    refine (Emits.fail _ _).congr ?_ fun _ => rfl
    simp only [DescriptorAllowed, hencode, reduceCtorEq, false_and]
  | ok encoded =>
    have hbytes : descriptorBytes d = encoded := by
      rw [descriptorBytes, hencode]
      rfl
    refine (sizedBytes_emits encoded).congr ?_ fun _ => by rw [hbytes]
    simp only [DescriptorAllowed, hencode, hbytes, true_and]

theorem proposal_emits (p : SessionProposal T) :
    Emits (proposal p : Writer T.Error Unit) (ProposalAllowed (2^16) p) (proposalImage p) := by
  refine ((bytes_emits _).seq ((u32_emits _).seq ((u32_emits _).seq ((descriptor_emits _).seq
    ((layout_emits _).seq (topology_emits _)))))).congr ?_ fun _ => rfl
  simp only [true_and, and_true]
  exact ⟨fun h => ⟨h.descriptor, h.layout⟩, fun h => ⟨h.1, h.2⟩⟩

theorem message_emits (m : ControlMessage T) :
    Emits (message m : Writer T.Error Unit) (MessageAllowed (2^16) m) (messageImage m) := by
  cases m with
  | hello h =>
    exact ((u16_emits _).seq ((u16_emits _).seq (bytes_emits _))).congr (by simp [MessageAllowed])
      fun _ => rfl
  | sessionProposal p => exact proposal_emits p
  | layoutAccepted a =>
    exact ((u32_emits _).seq ((bytes_emits _).seq ((u16_emits _).seq (u32_emits _)))).congr
      (by simp [MessageAllowed]) fun _ => rfl
  | layoutConfirmed c =>
    exact ((u32_emits _).seq (bytes_emits _)).congr (by simp [MessageAllowed]) fun _ => rfl
  | sessionReady sessionId generation layoutId =>
    exact ((bytes_emits _).seq ((u32_emits _).seq (u32_emits _))).congr (by simp [MessageAllowed])
      fun _ => rfl
  | command c => exact u8_emits _
  | receiverReport r =>
    exact ((u64_emits _).seq ((u64_emits _).seq ((u64_emits _).seq ((u64_emits _).seq
      ((u64_emits _).seq (u64_emits _)))))).congr (by simp [MessageAllowed]) fun _ => rfl
  | ping receiverSendNs => exact u64_emits _
  | pong receiverSendNs producerSendNs =>
    exact ((u64_emits _).seq (u64_emits _)).congr (by simp [MessageAllowed]) fun _ => rfl
  | geometryRequest => exact .nil
  | error code reason =>
    exact ((u16_emits _).seq (string_emits _)).congr (by simp [MessageAllowed]) fun _ => rfl
  | close code reason =>
    exact ((u16_emits _).seq (string_emits _)).congr (by simp [MessageAllowed]) fun _ => rfl

end Writer

section RoundTrip
variable {T : TrackingTypes} {m : ControlMessage T} {bytes : Bytes} {maxSignals : ℕ}

/-- The bytes of a message with its header. -/
def wireImage (m : ControlMessage T) : Bytes :=
  header m.kind (messageImage m).length ++ messageImage m

theorem wire_of_encode (h : m.encode = .ok bytes) :
    MessageAllowed (2^16) m ∧ (messageImage m).length < 2^32 ∧ bytes = wireImage m := by
  obtain ⟨hok, herr⟩ := Writer.message_emits m []
  unfold ControlMessage.encode at h
  by_cases hallowed : MessageAllowed (2^16) m
  · rw [hok hallowed, List.nil_append] at h
    simp only at h
    split at h
    · cases h
    next hlen => exact ⟨hallowed, not_le.mp hlen, (Except.ok.inj h).symm⟩
  · obtain ⟨e, he⟩ := herr hallowed
    rw [he] at h
    cases h

/-- The header is read back from the front of the bytes. -/
theorem header_fields (kind : UInt8) {n : ℕ} (hn : n < 2^32) (payload : Bytes) :
    let bytes := header kind n ++ payload
    bytes.take 4 = magic ∧ bytes.getD 4 0 = version ∧ bytes.getD 5 0 = kind ∧
      ofBeBytes ((bytes.drop 6).take 4) = n ∧ bytes.drop headerLen = payload ∧
      bytes.length = headerLen+payload.length := by
  have hlength : (beBytes 4 n).length = 4 := length_beBytes 4 n
  obtain ⟨a, b, c, d, hbytes⟩ : ∃ a b c d, beBytes 4 n = [a, b, c, d] :=
    ⟨_, _, _, _, rfl⟩
  have hvalue := ofBeBytes_beBytes 4 n (by omega)
  rw [hbytes] at hvalue
  refine ⟨?_, ?_, ?_, ?_, ?_, ?_⟩
  · rw [header, hbytes]
    rfl
  · rw [header, hbytes]
    rfl
  · rw [header, hbytes]
    rfl
  · rw [header, hbytes]
    exact hvalue
  · rw [header, hbytes]
    rfl
  · simp only [header, List.length_append, hlength]
    rfl

/-- A wire image of an allowed message in its received form is decoded to it. -/
theorem decode_wireImage (laws : T.CodecLaws) (hallowed : MessageAllowed maxSignals m)
    (hreceived : m.received = m) (hlength : (wireImage m).length ≤ maxControlBytes) :
    decodeWithin maxSignals (wireImage m) = .ok m := by
  have hsize : (messageImage m).length ≤ maxControlBytes := by
    rw [wireImage, List.length_append] at hlength
    omega
  have hwidth : (messageImage m).length < 2^32 := lt_of_le_of_lt hsize (by decide)
  obtain ⟨hmagic, hversion, hkind, hlen, hdrop, htotal⟩ :=
    header_fields m.kind hwidth (messageImage m)
  have hbody : Reader.message maxSignals m.kind (.new (messageImage m)) =
      (.ok m, ⟨messageImage m, (messageImage m).length⟩) := by
    refine (Reader.message_recognises laws maxSignals m.kind).reads m _ _
      ⟨rfl, hallowed, hreceived⟩ (Nat.zero_le _) ?_
    have hspan := Reader.Span.new (messageImage m) []
    rw [List.append_nil] at hspan
    exact hspan
  unfold decodeWithin
  have hgood : ¬((wireImage m).length < headerLen ∨ maxControlBytes < (wireImage m).length ∨
      (wireImage m).take 4 ≠ magic ∨ (wireImage m).getD 4 0 ≠ version) := by
    rintro (h | h | h | h)
    · rw [wireImage, htotal] at h
      omega
    · omega
    · exact h hmagic
    · exact h hversion
  have hcount : ¬ofBeBytes (((wireImage m).drop 6).take 4) ≠ (wireImage m).length-headerLen := by
    rw [wireImage, hlen, htotal, Nat.add_sub_cancel_left, ne_eq, not_not]
  rw [if_neg hgood, if_neg hcount]
  rw [wireImage, hkind, hdrop, hbody]
  simp only [if_true]

/-- The input is its header fields and its payload one after the other. -/
theorem split_header (h : headerLen ≤ bytes.length) :
    bytes = bytes.take 4 ++ ([bytes.getD 4 0] ++ ([bytes.getD 5 0] ++
      ((bytes.drop 6).take 4 ++ bytes.drop headerLen))) := by
  rcases bytes with _ | ⟨a, _ | ⟨b, _ | ⟨c, _ | ⟨d, _ | ⟨e, _ | ⟨f, rest⟩⟩⟩⟩⟩⟩ <;>
    simp [headerLen] at h ⊢

theorem wire_of_decode (laws : T.CodecLaws) (h : decodeWithin maxSignals bytes = .ok m) :
    MessageAllowed maxSignals m ∧ m.received = m ∧ bytes = wireImage m ∧
      bytes.length ≤ maxControlBytes := by
  unfold decodeWithin at h
  split at h
  · cases h
  next hgood =>
  split at h
  · cases h
  next hcount =>
  split at h
  · cases h
  next message reader hread =>
  split at h
  swap
  · cases h
  next hend =>
  obtain rfl := Except.ok.inj h
  push Not at hgood hcount
  obtain ⟨hshort, hlong, hmagic, hversion⟩ := hgood
  obtain ⟨⟨hkind, hallowed, hreceived⟩, hspan⟩ :=
    (Reader.message_recognises laws maxSignals _).sound _ _ _ hread
  have hremaining : reader.remaining = 0 := by
    rw [WireCodec.Reader.remaining, hend, Nat.sub_self]
  have hpayload := hspan.whole hremaining
  refine ⟨hallowed, hreceived, ?_, hlong⟩
  have hfield : ((bytes.drop 6).take 4).length = 4 := by
    rw [List.length_take, List.length_drop]
    unfold headerLen at hshort
    omega
  have hlen : (bytes.drop 6).take 4 = beBytes 4 (messageImage message).length := by
    have hvalue := beBytes_ofBeBytes ((bytes.drop 6).take 4)
    rw [hfield, hcount] at hvalue
    rw [← hpayload, List.length_drop, hvalue]
  rw [split_header hshort, hmagic, hversion, ← hkind, hlen, hpayload, wireImage, header]
  simp only [List.append_assoc]

theorem MessageAllowed.widen (h : MessageAllowed maxSignals m) : MessageAllowed (2^16) m := by
  cases m with
  | sessionProposal p => exact ⟨h.descriptor, h.layout.1, h.layout.1.le⟩
  | _ => exact h

theorem received_received (m : ControlMessage T) : m.received.received = m.received := by
  cases m <;> rfl

theorem wireImage_received (m : ControlMessage T) : wireImage m.received = wireImage m := by
  cases m <;> rfl

theorem MessageAllowed.received (h : MessageAllowed maxSignals m) :
    MessageAllowed maxSignals m.received := by
  cases m with
  | sessionProposal p => exact ⟨h.descriptor, h.layout⟩
  | _ => exact h

/-- What is decoded from the bytes of a message is that message, in its received form. -/
theorem decode_of_encode (laws : T.CodecLaws) {m' : ControlMessage T} (h : m.encode = .ok bytes)
    (h' : ControlMessage.decode bytes = .ok m') : m' = m.received := by
  obtain ⟨hallowed, -, hbytes⟩ := wire_of_encode h
  obtain ⟨hallowed', hreceived', hbytes', hlength⟩ := wire_of_decode laws h'
  -- Both are the message that a reader without a limit of its own finds in these bytes.
  have hread : decodeWithin (2^16) bytes = .ok m' := by
    rw [hbytes'] at hlength ⊢
    exact decode_wireImage laws hallowed'.widen hreceived' hlength
  have hwrite : decodeWithin (2^16) bytes = .ok m.received := by
    rw [hbytes, ← wireImage_received] at hlength ⊢
    exact decode_wireImage laws hallowed.received (received_received m) hlength
  exact Except.ok.inj (hread.symm.trans hwrite)

end RoundTrip

end MutsukiLink.Ntp
