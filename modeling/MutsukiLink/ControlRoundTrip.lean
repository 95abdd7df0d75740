import MutsukiLink.ControlFormat

/-! The control codec as a whole. The writer emits exactly the allowed payloads, the header is
recognised like any other part, and the envelope inherits both inverse laws. -/
namespace MutsukiLink
open WireBytes WireCodec
open Encoder (Emits)
open Std (ExtTreeSet)

namespace ControlWriter

theorem bytes_emits (out : Bytes) : Emits (bytes out) True out := .push out

theorem u8_emits (value : UInt8) : Emits (u8 value) True [value] := .push _

theorem u16_emits (value : UInt16) : Emits (u16 value) True (beBytes 2 value.toNat) := .push _

theorem u32_emits (value : UInt32) : Emits (u32 value) True (beBytes 4 value.toNat) := .push _

theorem u64_emits (value : UInt64) : Emits (u64 value) True (beBytes 8 value.toNat) := .push _

theorem count_emits {maximum : ℕ} (hmax : maximum ≤ 255) (value : ℕ) :
    Emits (count value maximum) (value ≤ maximum) (countImage value) := by
  refine (Emits.guard _ (u8_emits _)).congr ?_ fun _ => rfl
  simp only [not_or, not_lt, and_true]
  exact ⟨fun h => ⟨h, h.trans hmax⟩, fun h => h.1⟩

theorem version_emits (v : ProtocolVersion) : Emits (version v) True (versionImage v) :=
  ((u16_emits _).seq (u16_emits _)).congr (by simp) fun _ => rfl

theorem versionRange_emits (r : VersionRange) :
    Emits (versionRange r) True (versionRangeImage r) :=
  ((version_emits _).seq (version_emits _)).congr (by simp) fun _ => rfl

theorem schema_emits (s : SchemaRef) : Emits (schema s) True (schemaImage s) :=
  ((bytes_emits _).seq ((u32_emits _).seq (bytes_emits _))).congr (by simp) fun _ => rfl

theorem words_emits (l : List UInt64) : Emits (words l) True (wordsImage l) := by
  induction l with
  | nil => exact .nil
  | cons word rest ih => exact ((u64_emits word).seq ih).congr (by simp) fun _ => rfl

theorem capabilities_emits (c : ProtocolCapabilitySet) : Emits (capabilities c)
    (c.words.length ≤ maxProtocolCapabilityWords) (capabilitiesImage c) := by
  have hcount : Emits (count c.words.length maxProtocolCapabilityWords) _ _ :=
    count_emits (by decide) _
  exact ((bytes_emits _).seq (hcount.seq (words_emits _))).congr (by simp) fun _ => rfl

theorem string_emits (s : String) : Emits (string s) (StringAllowed s) (stringImage s) := by
  refine (Emits.guard _ ((u16_emits _).seq (bytes_emits _))).congr ?_ fun h => ?_
  · simp only [StringAllowed, not_or, not_lt, and_true, ne_eq]
  · have hle : (utf8 s).length ≤ maxControlDebugComponentBytes := not_lt.mp (not_or.mp h.1).2
    have hlen : (UInt16.ofNat (utf8 s).length).toNat = (utf8 s).length :=
      UInt16.toNat_ofNat_of_lt (lt_of_le_of_lt hle (by decide))
    rw [stringImage, hlen]

/-- The writer's own canonicity check is part of the check on the whole offer. -/
theorem debugIdentity_emits (debug : Option ProtocolDebugIdentity) :
    Emits (debugIdentity debug) ((∀ d, debug = some d → d.isCanonical = true) ∧ DebugAllowed debug)
      (debugImage debug) := by
  cases debug with
  | none => exact (u8_emits 0).congr (by simp [DebugAllowed]) fun _ => rfl
  | some d =>
    refine (Emits.guard _ ((u8_emits 1).seq ((string_emits _).seq (string_emits _)))).congr ?_
      fun _ => rfl
    simp [DebugAllowed]

theorem offer_emits (o : ProtocolOffer) : Emits (offer o)
    ((∀ d, o.debugIdentity = some d → d.isCanonical = true) ∧ DebugAllowed o.debugIdentity ∧
      o.capabilities.words.length ≤ maxProtocolCapabilityWords) (offerImage o) := by
  refine ((bytes_emits _).seq ((debugIdentity_emits _).seq ((versionRange_emits _).seq
    ((schema_emits _).seq (capabilities_emits _))))).congr ?_ fun _ => rfl
  simp only [true_and, and_assoc]

theorem selection_emits (s : ProtocolSelection) : Emits (selection s)
    (s.capabilities.words.length ≤ maxProtocolCapabilityWords) (selectionImage s) :=
  ((bytes_emits _).seq ((version_emits _).seq ((schema_emits _).seq
    (capabilities_emits _)))).congr (by simp) fun _ => rfl

end ControlWriter

theorem encodeDistinct_emits {α : Type} {item : α → ControlWriter} {key : α → ProtocolStableId}
    {consistent : α → Bool} {image : α → Bytes} {p : α → Prop}
    (hitem : ∀ a, Emits (item a) (p a) (image a)) (l : List α)
    (seen : ExtTreeSet ProtocolStableId) :
    Emits (encodeDistinct item key consistent seen l)
      (Distinct key (fun a => consistent a = true ∧ p a) seen l) (l.flatMap image) := by
  induction l generalizing seen with
  | nil => exact Emits.nil.congr (iff_of_true distinct_nil trivial) fun _ => rfl
  | cons a rest ih =>
    refine (Emits.guard _ ((hitem a).seq (ih (seen.insert (key a))))).congr ?_ fun _ => rfl
    rw [distinct_cons]
    simp only [ExtTreeSet.contains_iff_mem, Bool.not_eq_true', not_or, Bool.not_eq_false, and_assoc]

theorem matchesDebugIdentity_canonical {derive : String → String → ProtocolStableId}
    {stableId : ProtocolStableId} {debug : Option ProtocolDebugIdentity}
    (h : matchesDebugIdentity derive stableId debug = true) :
    ∀ d, debug = some d → d.isCanonical = true := by
  rintro d rfl
  simp only [matchesDebugIdentity, Option.any_some, Bool.not_or, Bool.and_eq_true,
    Bool.not_not] at h
  exact h.1

theorem encodeOffers_emits (derive : String → String → ProtocolStableId)
    (offers : List ProtocolOffer) : Emits (encodeOffers derive offers)
      (PayloadAllowed derive (.offerProtocols offers)) (payloadImage (.offerProtocols offers)) := by
  refine ((ControlWriter.count_emits (by decide) _).seq
    (encodeDistinct_emits ControlWriter.offer_emits offers ∅)).congr ?_ fun _ => rfl
  refine and_congr_right fun _ => distinct_congr fun o => ?_
  simp only [Bool.and_eq_true, bne_iff_ne, beq_iff_eq]
  constructor
  · intro h
    exact ⟨⟨⟨⟨h.versions, h.revision⟩, h.owner⟩, h.identity⟩,
      matchesDebugIdentity_canonical h.identity, h.debug, h.words⟩
  · rintro ⟨⟨⟨⟨hversions, hrevision⟩, howner⟩, hidentity⟩, -, hdebug, hwords⟩
    exact ⟨⟨hdebug, hversions, hrevision, hwords⟩, howner, hidentity⟩

theorem encodeSelections_emits (derive : String → String → ProtocolStableId)
    (selections : List ProtocolSelection) : Emits (encodeSelections selections)
      (PayloadAllowed derive (.selectProtocols selections))
      (payloadImage (.selectProtocols selections)) := by
  refine ((ControlWriter.count_emits (by decide) _).seq
    (encodeDistinct_emits ControlWriter.selection_emits selections ∅)).congr ?_ fun _ => rfl
  refine and_congr_right fun _ => distinct_congr fun s => ?_
  simp only [Bool.and_eq_true, bne_iff_ne, beq_iff_eq]
  exact ⟨fun h => ⟨⟨h.revision, h.owner⟩, h.words⟩, fun h => ⟨⟨h.1.1, h.2⟩, h.1.2⟩⟩

theorem encodePayload_emits (derive : String → String → ProtocolStableId) (p : ControlPayload) :
    Emits (encodePayload derive p) (PayloadAllowed derive p) (payloadImage p) := by
  cases p with
  | hello h =>
    refine (Emits.guard _ ((ControlWriter.bytes_emits _).seq ((ControlWriter.bytes_emits _).seq
      ((ControlWriter.bytes_emits _).seq ((ControlWriter.versionRange_emits _).seq
      ((ControlWriter.u64_emits _).seq (ControlWriter.u8_emits _))))))).congr ?_ fun _ => rfl
    simp [PayloadAllowed]
  | offerProtocols offers => exact encodeOffers_emits derive offers
  | selectProtocols selections => exact encodeSelections_emits derive selections
  | openChannel o =>
    refine (Emits.guard _ ((ControlWriter.bytes_emits _).seq ((ControlWriter.u16_emits _).seq
      ((ControlWriter.u32_emits _).seq (ControlWriter.u32_emits _))))).congr ?_ fun _ => rfl
    simp [PayloadAllowed, OpenChannelAllowed]
  | acceptChannel a =>
    refine (Emits.guard _ ((ControlWriter.bytes_emits _).seq ((ControlWriter.u16_emits _).seq
      (ControlWriter.u32_emits _)))).congr ?_ fun _ => rfl
    simp [PayloadAllowed, AcceptChannelAllowed]
  | closeChannel id =>
    refine (Emits.guard _ (ControlWriter.u32_emits _)).congr ?_ fun _ => rfl
    simp [PayloadAllowed]
  | ping nonce => exact ControlWriter.u64_emits nonce
  | pong nonce => exact ControlWriter.u64_emits nonce
  | beginDrain deadlineMillis => exact ControlWriter.u32_emits deadlineMillis
  | closeSession reasonCode => exact ControlWriter.u16_emits reasonCode
  | error e =>
    refine ((ControlWriter.u8_emits _).seq ((ControlWriter.u16_emits _).seq
      ((ControlWriter.u16_emits _).seq (ControlWriter.u8_emits _)))).congr ?_ fun _ => rfl
    simp [PayloadAllowed]

def ControlEnvelope.header (e : ControlEnvelope) (payloadLen : ℕ) : ControlHeader :=
  ⟨e.wireVersion, e.opcode, e.flags, e.requestId, e.sessionId, UInt32.ofNat payloadLen⟩

def envelopeImage (e : ControlEnvelope) : Bytes :=
  headerImage (e.header (payloadImage e.payload).length) ++ payloadImage e.payload

structure EnvelopeAllowed (derive : String → String → ProtocolStableId) (e : ControlEnvelope) :
    Prop where
  version : e.wireVersion = typedControlWireVersion
  opcode : e.payload.opcode = e.opcode
  payload : PayloadAllowed derive e.payload
  size : (payloadImage e.payload).length ≤ maxControlPayloadBytes

def ControlEnvelope.received (e : ControlEnvelope) : ControlEnvelope :=
  { e with payload := e.payload.received }

theorem length_sessionImage (s : Option SessionId) : (sessionImage s).length = 17 := by
  cases s with
  | none => rfl
  | some id => rw [sessionImage, List.length_append, id.size_eq, List.length_singleton]

theorem length_headerImage (h : ControlHeader) : (headerImage h).length = controlHeaderBytes := by
  simp only [headerImage, List.length_append, length_beBytes, length_sessionImage]
  rfl

/-- The header fields before the payload length. -/
def headerFront (h : ControlHeader) : Bytes :=
  controlMagic ++ (beBytes 2 h.wireVersion.toNat ++ (beBytes 2 h.opcode.toWire.toNat ++
    (beBytes 2 h.flags.bits.toNat ++ (beBytes 8 h.requestId.toNat ++ sessionImage h.sessionId))))

theorem headerImage_eq (h : ControlHeader) :
    headerImage h = headerFront h ++ beBytes 4 h.payloadLen.toNat := by
  simp only [headerImage, headerFront, List.append_assoc]

theorem length_headerFront (h : ControlHeader) :
    (headerFront h).length = controlPayloadLengthOffset := by
  simp only [headerFront, List.length_append, length_beBytes, length_sessionImage]
  rfl

theorem controlHeader_eq (e : ControlEnvelope) (payloadLen : ℕ) :
    controlHeader e = headerFront (e.header payloadLen) ++ beBytes 4 0 := by
  rcases e with ⟨_, _, _, _ | id, _, _⟩ <;>
    simp only [controlHeader, headerFront, ControlEnvelope.header, sessionImage, List.append_assoc,
      List.cons_append, List.nil_append]

theorem length_controlHeader (e : ControlEnvelope) :
    (controlHeader e).length = controlHeaderBytes := by
  rw [controlHeader_eq e 0, List.length_append, length_headerFront, length_beBytes]
  rfl

theorem toNat_payloadLen (e : ControlEnvelope) {n : ℕ} (hn : n ≤ maxControlPayloadBytes) :
    (e.header n).payloadLen.toNat = n :=
  UInt32.toNat_ofNat_of_lt (lt_of_le_of_lt hn (by decide))

/-- The length written over the four zero bytes completes the header. -/
theorem copyAt_controlHeader (e : ControlEnvelope) (out : Bytes) {n : ℕ}
    (hn : n ≤ maxControlPayloadBytes) :
    copyAt (controlHeader e ++ out) controlPayloadLengthOffset (beBytes 4 n) =
      headerImage (e.header n) ++ out := by
  have hend : controlPayloadLengthOffset+(beBytes 4 n).length = (controlHeader e).length := by
    rw [length_beBytes, length_controlHeader]
    rfl
  have htake : (controlHeader e ++ out).take controlPayloadLengthOffset =
      headerFront (e.header n) := by
    rw [controlHeader_eq e n, List.append_assoc, ← length_headerFront (e.header n), List.take_left]
  rw [copyAt, hend, List.drop_left, htake, headerImage_eq, toNat_payloadLen e hn]

section Envelope
variable {derive : String → String → ProtocolStableId} {e : ControlEnvelope} {wire : Bytes}

theorem envelope_of_encode (h : encodeControlEnvelope derive ⟨.typedV1⟩ e = .ok wire) :
    EnvelopeAllowed derive e ∧ wire = envelopeImage e := by
  simp only [encodeControlEnvelope, ControlModeGuard.validateTyped, if_true] at h
  split at h
  · cases h
  next hv =>
  split at h
  · cases h
  next ho =>
  obtain ⟨hok, herr⟩ := encodePayload_emits derive e.payload (controlHeader e)
  by_cases hp : PayloadAllowed derive e.payload
  · have hlen : (controlHeader e ++ payloadImage e.payload).length-controlHeaderBytes =
        (payloadImage e.payload).length := by
      rw [List.length_append, length_controlHeader, Nat.add_sub_cancel_left]
    simp only [hok hp, hlen] at h
    split at h
    · cases h
    next hs =>
    have hn := not_lt.mp hs
    rw [copyAt_controlHeader e _ hn] at h
    exact ⟨⟨not_not.mp hv, (not_not.mp ho).symm, hp, hn⟩, (Except.ok.inj h).symm⟩
  · obtain ⟨error, he⟩ := herr hp
    simp only [he] at h
    cases h

theorem encode_of_allowed (h : EnvelopeAllowed derive e) :
    encodeControlEnvelope derive ⟨.typedV1⟩ e = .ok (envelopeImage e) := by
  obtain ⟨hv, ho, hp, hs⟩ := h
  have hlen : (controlHeader e ++ payloadImage e.payload).length-controlHeaderBytes =
      (payloadImage e.payload).length := by
    rw [List.length_append, length_controlHeader, Nat.add_sub_cancel_left]
  have hpayload := (encodePayload_emits derive e.payload (controlHeader e)).1 hp
  simp only [encodeControlEnvelope, ControlModeGuard.validateTyped, if_true, hpayload, hlen]
  rw [if_neg (not_not.mpr hv), if_neg (not_not.mpr ho.symm), if_neg (not_lt.mpr hs),
    copyAt_controlHeader e _ hs]
  rfl

theorem takeControlPayload_ok {n : ℕ} {r r' : Reader} {bytes : Bytes}
    (h : takeControlPayload n r = (.ok bytes, r')) :
    n ≤ maxControlPayloadBytes ∧ r.remaining = n ∧ bytes = r.bytes.drop r.position := by
  unfold takeControlPayload at h
  split at h
  · cases h
  next hn =>
  split at h
  · cases h
  split at h
  · cases h
  next hrem =>
  have hrem := not_not.mp hrem
  refine ⟨not_lt.mp hn, hrem, ?_⟩
  obtain ⟨hlen, rfl, rest, hrest⟩ := (Recognises.take LinkControlError.truncated n).sound _ _ _ h
  have hdrop := congrArg List.length hrest
  rw [List.length_append, List.length_drop] at hdrop
  have hnil : rest = [] := by
    refine List.eq_nil_of_length_eq_zero ?_
    simp only [Reader.remaining] at hrem
    omega
  rw [hrest, hnil, List.append_nil]

theorem takeControlPayload_whole (front : Bytes) {out : Bytes}
    (hout : out.length ≤ maxControlPayloadBytes) :
    takeControlPayload out.length ⟨front ++ out, front.length⟩ =
      (.ok out, ⟨front ++ out, front.length+out.length⟩) := by
  have hrem : (⟨front ++ out, front.length⟩ : Reader).remaining = out.length := by
    simp [Reader.remaining]
  have hspan : (⟨front ++ out, front.length⟩ : Reader).Span out
      ⟨front ++ out, front.length+out.length⟩ := ⟨rfl, [], by simp⟩
  rw [takeControlPayload, if_neg (not_lt.mpr hout), hrem, if_neg (lt_irrefl _),
    if_neg (not_not.mpr rfl)]
  exact (Recognises.take LinkControlError.truncated out.length).reads _ _ _ rfl
    (by simp [Reader.InBounds]) hspan

theorem envelope_of_decode (h : decodeControlEnvelope derive ⟨.typedV1⟩ wire = .ok e) :
    EnvelopeAllowed derive e ∧ e.received = e ∧ wire = envelopeImage e := by
  simp only [decodeControlEnvelope, ControlModeGuard.validateTyped, if_true] at h
  split at h
  · cases h
  split at h
  · cases h
  next header reader hheader =>
  split at h
  · cases h
  next bytes reader' hslice =>
  split at h
  · cases h
  next payload payloadReader hpayload =>
  split at h
  · cases h
  next hrem =>
  obtain ⟨hversion, rfl, rest, hrest⟩ := decodeControlHeader_recognises.sound _ _ _ hheader
  obtain ⟨hsize, hremaining, rfl⟩ := takeControlPayload_ok hslice
  obtain ⟨⟨hopcode, hallowed, hreceived⟩, hspan⟩ :=
    (decodePayload_recognises derive header.opcode).sound _ _ _ hpayload
  have hbytes := hspan.whole (not_not.mp hrem)
  simp only [Reader.new, List.drop_zero, Nat.zero_add] at hrest hbytes hremaining
  rw [hrest, List.drop_left] at hbytes
  subst hbytes
  have hlen : header.payloadLen.toNat = (payloadImage payload).length := by
    rw [← hremaining, Reader.remaining, hrest, List.length_append, Nat.add_sub_cancel_left]
  obtain rfl := Except.ok.inj h
  refine ⟨⟨hversion, hopcode, hallowed, hlen ▸ hsize⟩, ?_, ?_⟩
  · simp only [ControlEnvelope.received, hreceived]
  · have hheader' : header.payloadLen = UInt32.ofNat (payloadImage payload).length := by
      rw [← hlen, UInt32.ofNat_toNat]
    rw [hrest, envelopeImage, ControlEnvelope.header, ← hheader']

theorem decode_of_allowed (h : EnvelopeAllowed derive e) (hr : e.received = e) :
    decodeControlEnvelope derive ⟨.typedV1⟩ (envelopeImage e) = .ok e := by
  obtain ⟨hv, ho, hp, hs⟩ := h
  have hlong : ¬(envelopeImage e).length < controlHeaderBytes := by
    rw [envelopeImage, List.length_append, length_headerImage]
    omega
  have hheader := decodeControlHeader_recognises.reads
    (e.header (payloadImage e.payload).length) _ _ hv (Nat.zero_le _)
    (Reader.Span.new _ (payloadImage e.payload))
  have hslice :=
    takeControlPayload_whole (headerImage (e.header (payloadImage e.payload).length)) hs
  have hreceived : e.payload.received = e.payload := congrArg ControlEnvelope.payload hr
  have hspan : (Reader.new (payloadImage e.payload)).Span (payloadImage e.payload)
      ⟨payloadImage e.payload, (payloadImage e.payload).length⟩ := by
    simpa only [List.append_nil] using Reader.Span.new (payloadImage e.payload) []
  have hpayload := (decodePayload_recognises derive e.opcode).reads e.payload _ _
    ⟨ho, hp, hreceived⟩ (Nat.zero_le _) hspan
  simp only [decodeControlEnvelope, ControlModeGuard.validateTyped, if_true]
  rw [if_neg hlong]
  simp only [envelopeImage, hheader, toNat_payloadLen e hs, hslice]
  simp [ControlEnvelope.header, hpayload, Reader.remaining]

theorem received_allowed (h : EnvelopeAllowed derive e) :
    EnvelopeAllowed derive e.received ∧ e.received.received = e.received ∧
      envelopeImage e.received = envelopeImage e := by
  obtain ⟨hv, ho, hp, hs⟩ := h
  rcases e with ⟨_, _, _, _, _, payload⟩
  cases payload with
  | error error => exact ⟨⟨hv, ho, hp, hs⟩, rfl, rfl⟩
  | _ => exact ⟨⟨hv, ho, hp, hs⟩, rfl, rfl⟩

/-- The length in the header fixes where a frame ends. -/
theorem envelopeImage_unextended {e' : ControlEnvelope} {rest : Bytes}
    (h : EnvelopeAllowed derive e) (h' : EnvelopeAllowed derive e')
    (heq : envelopeImage e ++ rest = envelopeImage e') : rest = [] := by
  simp only [envelopeImage, List.append_assoc] at heq
  have hspan := Reader.Span.new (headerImage (e'.header (payloadImage e'.payload).length))
    (payloadImage e'.payload)
  rw [← heq] at hspan
  have hread := decodeControlHeader_recognises.reads _ _ _ h.version (Nat.zero_le _)
    (Reader.Span.new (headerImage (e.header (payloadImage e.payload).length))
      (payloadImage e.payload ++ rest))
  have hread' := decodeControlHeader_recognises.reads _ _ _ h'.version (Nat.zero_le _) hspan
  have hheader : e.header (payloadImage e.payload).length =
      e'.header (payloadImage e'.payload).length := by
    simpa using congrArg Prod.fst (hread.symm.trans hread')
  have hlen : (payloadImage e.payload).length = (payloadImage e'.payload).length := by
    rw [← toNat_payloadLen e h.size, ← toNat_payloadLen e' h'.size, hheader]
  have htotal := congrArg List.length heq
  simp only [List.length_append, length_headerImage] at htotal
  exact List.eq_nil_of_length_eq_zero (by omega)

end Envelope

/-- No reader of a decoding leaves its input: the header reader and the payload slice stay inside
the wire, and the payload reader inside the slice. -/
structure CursorsInside (derive : String → String → ProtocolStableId) (wire : Bytes) : Prop where
  header : (Reader.new wire).Advance (decodeControlHeader (Reader.new wire)).2
  slice : ∀ header reader, decodeControlHeader (Reader.new wire) = (.ok header, reader) →
    reader.Advance (takeControlPayload header.payloadLen.toNat reader).2
  payload : ∀ header reader bytes reader',
    decodeControlHeader (Reader.new wire) = (.ok header, reader) →
    takeControlPayload header.payloadLen.toNat reader = (.ok bytes, reader') →
    bytes <:+ wire ∧
      (Reader.new bytes).Advance (decodePayload derive header.opcode (Reader.new bytes)).2

theorem takeControlPayload_bounded (n : ℕ) {r : Reader} (hr : r.InBounds) :
    r.Advance (takeControlPayload n r).2 := by
  unfold takeControlPayload
  split
  · exact .refl hr
  split
  · exact .refl hr
  split
  · exact .refl hr
  · exact (Recognises.take LinkControlError.truncated n).bounded r hr

theorem cursorsInside (derive : String → String → ProtocolStableId) (wire : Bytes) :
    CursorsInside derive wire := by
  have hheader := decodeControlHeader_recognises.bounded (Reader.new wire) (Nat.zero_le _)
  refine ⟨hheader, fun header reader h => ?_, fun header reader bytes reader' h hslice => ?_⟩
  · rw [h] at hheader
    exact takeControlPayload_bounded _ hheader.inside
  · rw [h] at hheader
    obtain ⟨-, -, rfl⟩ := takeControlPayload_ok hslice
    refine ⟨?_, (decodePayload_recognises derive header.opcode).bounded _ (Nat.zero_le _)⟩
    rw [hheader.bytes_eq]
    exact List.drop_suffix _ _

/-- Encoding and decoding of typed control envelopes are inverse to each other, up to the message
of an error, which is not sent; accepted frames are no extension of each other. -/
theorem typed_control_codec_is_bijective (derive : String → String → ProtocolStableId)
    (guard : ControlModeGuard) (hguard : guard.mode = .typedV1) :
    (∀ e wire, encodeControlEnvelope derive guard e = .ok wire →
      decodeControlEnvelope derive guard wire = .ok e.received) ∧
    (∀ wire e, decodeControlEnvelope derive guard wire = .ok e →
      encodeControlEnvelope derive guard e = .ok wire) ∧
    (∀ wire rest e e', decodeControlEnvelope derive guard wire = .ok e →
      decodeControlEnvelope derive guard (wire ++ rest) = .ok e' → rest = []) ∧
    ∀ wire, CursorsInside derive wire := by
  obtain ⟨mode⟩ := guard
  obtain rfl : mode = .typedV1 := hguard
  refine ⟨fun e wire h => ?_, fun wire e h => ?_, fun wire rest e e' h h' => ?_,
    cursorsInside derive⟩
  · obtain ⟨hallowed, rfl⟩ := envelope_of_encode h
    obtain ⟨hallowed', hreceived, himage⟩ := received_allowed hallowed
    rw [← himage]
    exact decode_of_allowed hallowed' hreceived
  · obtain ⟨hallowed, -, rfl⟩ := envelope_of_decode h
    exact encode_of_allowed hallowed
  · obtain ⟨hallowed, -, rfl⟩ := envelope_of_decode h
    obtain ⟨hallowed', -, heq⟩ := envelope_of_decode h'
    exact envelopeImage_unextended hallowed hallowed' heq

/-- A resource error that answers an `OpenChannel` inside a session. -/
def Sample.errorEnvelope : ControlEnvelope :=
  { wireVersion := 1, opcode := .error, requestId := 9
    sessionId := some ⟨FixedBytes.replicate 16 5⟩, flags := ⟨1, rfl⟩
    payload :=
      .error ⟨.resource, 300, some .openChannel, .retryAfterBackoff, "channel table is full"⟩ }

theorem sample_error_envelope_round_trips :
    ∃ wire, encodeControlEnvelope (fun _ _ => ⟨FixedBytes.replicate 16 0⟩) ⟨.typedV1⟩
        Sample.errorEnvelope = .ok wire ∧
      decodeControlEnvelope (fun _ _ => ⟨FixedBytes.replicate 16 0⟩) ⟨.typedV1⟩ wire =
        .ok Sample.errorEnvelope.received ∧
      Sample.errorEnvelope.received ≠ Sample.errorEnvelope :=
  ⟨_, rfl, (typed_control_codec_is_bijective _ ⟨.typedV1⟩ rfl).1 _ _ rfl, by decide⟩

end MutsukiLink
