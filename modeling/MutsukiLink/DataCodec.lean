import MutsukiLink.MuxModel

/-! The compact data frame and its codec (`data.rs`). The encoder appends field after field to a
buffer of the caller; the decoder reads the same fields at fixed offsets. -/
namespace MutsukiLink
open WireBytes

def compactDataWireVersion : UInt16 := 1
def compactDataHeaderBytes : ℕ := 47
def dataMagic : Bytes := [77, 76, 68, 84]
def dataFrameKind : UInt8 := 1

structure DataModeGuard where
  mode : DataIdentityMode
deriving DecidableEq, Repr

structure DataCodecLimits where
  maxPayloadBytes : ℕ := 1024*1024
  maxNestingDepth : UInt16 := 32
deriving DecidableEq, Repr

inductive DataCodecErrorKind where
  | modeMismatch | unsupportedVersion | unknownFrameKind | invalidHeader | invalidFlags
  | invalidChannel | limitExceeded | truncated | trailingBytes
deriving DecidableEq, Repr

structure DataCodecError where
  kind : DataCodecErrorKind
  publicMessage : String
deriving DecidableEq, Repr

def DataCodecErrorKind.error (kind : DataCodecErrorKind) : DataCodecError :=
  ⟨kind, match kind with
    | .modeMismatch => "data identity mode does not match negotiated session"
    | .unsupportedVersion => "unsupported compact data wire version"
    | .unknownFrameKind => "unknown Link frame kind"
    | .invalidHeader => "invalid compact data header"
    | .invalidFlags => "invalid compact data flags"
    | .invalidChannel => "compact data channel identity is invalid"
    | .limitExceeded => "compact data frame exceeds a resource limit"
    | .truncated => "truncated compact data frame"
    | .trailingBytes => "compact data frame contains trailing bytes"⟩

structure BorrowedDataEnvelope where
  sessionId : SessionId
  channelId : ChannelId
  generation : ChannelGeneration
  sequence : UInt64
  nestingDepth : UInt16
  flags : EnvelopeFlags
  payload : Bytes
deriving DecidableEq, Repr

def BorrowedDataEnvelope.intoOwned (b : BorrowedDataEnvelope) : Envelope :=
  ⟨b.sessionId, b.channelId, b.generation, b.sequence, b.nestingDepth, b.flags, b.payload⟩

def DataModeGuard.validateCompact (guard : DataModeGuard) : Except DataCodecError Unit :=
  if guard.mode = .compactV1 then .ok () else .error DataCodecErrorKind.modeMismatch.error

def validateLimits (envelope : Envelope) (limits : DataCodecLimits) : Except DataCodecError Unit :=
  if envelope.channelId = controlChannelId ∨ envelope.generation.val = 0 then
    .error DataCodecErrorKind.invalidChannel.error
  else if limits.maxPayloadBytes < envelope.payload.length ∨
      limits.maxNestingDepth < envelope.nestingDepth then
    .error DataCodecErrorKind.limitExceeded.error
  else .ok ()

def flagsToBits (flags : EnvelopeFlags) : UInt16 :=
  flags.endOfStream.toUInt16 ||| (flags.cancelled.toUInt16 <<< 1)

def flagsFromBits (bits : UInt16) : Except DataCodecError EnvelopeFlags :=
  if bits &&& ~~~3 ≠ 0 then .error DataCodecErrorKind.invalidFlags.error
  else .ok { endOfStream := bits &&& 1 != 0, cancelled := bits &&& 2 != 0 }

/-- The result and the buffer that the call leaves behind. -/
def encodeDataEnvelopeInto (guard : DataModeGuard) (envelope : Envelope)
    (limits : DataCodecLimits) (output : Bytes) : Except DataCodecError Unit × Bytes :=
  match guard.validateCompact with
  | .error e => (.error e, output)
  | .ok () =>
    match validateLimits envelope limits with
    | .error e => (.error e, output)
    | .ok () =>
      -- `u32::try_from(envelope.payload.len())`
      if 2^32 ≤ envelope.payload.length then
        (.error DataCodecErrorKind.limitExceeded.error, output)
      else
        let output : Bytes := []
        let output := output ++ dataMagic
        let output := output ++ beBytes 2 compactDataWireVersion.toNat
        let output := output ++ [dataFrameKind]
        let output := output ++ envelope.sessionId.bytes
        let output := output ++ beBytes 4 envelope.channelId.val.toNat
        let output := output ++ beBytes 4 envelope.generation.val.toNat
        let output := output ++ beBytes 8 envelope.sequence.toNat
        let output := output ++ beBytes 2 envelope.nestingDepth.toNat
        let output := output ++ beBytes 2 (flagsToBits envelope.flags).toNat
        let output := output ++ beBytes 4 envelope.payload.length
        (.ok (), output ++ envelope.payload)

def encodeDataEnvelope (guard : DataModeGuard) (envelope : Envelope) (limits : DataCodecLimits) :
    Except DataCodecError Bytes :=
  match encodeDataEnvelopeInto guard envelope limits [] with
  | (.ok (), output) => .ok output
  | (.error e, _) => .error e

def arrayAt (n : ℕ) (wire : Bytes) (offset : ℕ) : Except DataCodecError (FixedBytes n) :=
  if h : offset+n ≤ wire.length then
    .ok ⟨(wire.drop offset).take n, by rw [List.length_take, List.length_drop]; omega⟩
  else .error DataCodecErrorKind.truncated.error

/-- The single bytes at 4, 5 and 6 are inside the wire by the first check. -/
def decodeDataEnvelope (guard : DataModeGuard) (wire : Bytes) (limits : DataCodecLimits) :
    Except DataCodecError BorrowedDataEnvelope :=
  match guard.validateCompact with
  | .error e => .error e
  | .ok () =>
    if wire.length < compactDataHeaderBytes then .error DataCodecErrorKind.truncated.error
    else if wire.take 4 ≠ dataMagic then .error DataCodecErrorKind.invalidHeader.error
    else if UInt16.ofNat (ofBeBytes [wire.getD 4 0, wire.getD 5 0]) ≠ compactDataWireVersion then
      .error DataCodecErrorKind.unsupportedVersion.error
    else if wire.getD 6 0 ≠ dataFrameKind then .error DataCodecErrorKind.unknownFrameKind.error
    else do
      let sessionId ← arrayAt 16 wire 7
      let channelId ← arrayAt 4 wire 23
      let channelId : ChannelId := ⟨UInt32.ofNat (ofBeBytes channelId.bytes)⟩
      let generation ← arrayAt 4 wire 27
      let generation : ChannelGeneration := ⟨UInt32.ofNat (ofBeBytes generation.bytes)⟩
      if channelId = controlChannelId ∨ generation.val = 0 then
        .error DataCodecErrorKind.invalidChannel.error
      else do
        let sequence ← arrayAt 8 wire 31
        let sequence := UInt64.ofNat (ofBeBytes sequence.bytes)
        let nestingDepth ← arrayAt 2 wire 39
        let nestingDepth := UInt16.ofNat (ofBeBytes nestingDepth.bytes)
        if limits.maxNestingDepth < nestingDepth then .error DataCodecErrorKind.limitExceeded.error
        else do
          let bits ← arrayAt 2 wire 41
          let flags ← flagsFromBits (UInt16.ofNat (ofBeBytes bits.bytes))
          let payloadLen ← arrayAt 4 wire 43
          let payloadLen := (UInt32.ofNat (ofBeBytes payloadLen.bytes)).toNat
          if limits.maxPayloadBytes < payloadLen then .error DataCodecErrorKind.limitExceeded.error
          else
            let expected := compactDataHeaderBytes+payloadLen
            if wire.length < expected then .error DataCodecErrorKind.truncated.error
            else if wire.length ≠ expected then .error DataCodecErrorKind.trailingBytes.error
            else .ok {
              sessionId := ⟨sessionId⟩, channelId, generation, sequence, nestingDepth, flags
              payload := wire.drop compactDataHeaderBytes }

theorem flagsFromBits_flagsToBits (flags : EnvelopeFlags) :
    flagsFromBits (flagsToBits flags) = .ok flags := by
  rcases flags with ⟨_ | _, _ | _⟩ <;> rfl

/-- Only the two lowest bits may be set, so there are four cases. -/
theorem flagsToBits_of_flagsFromBits {bits : UInt16} {flags : EnvelopeFlags}
    (h : flagsFromBits bits = .ok flags) : flagsToBits flags = bits := by
  unfold flagsFromBits at h
  split at h
  · cases h
  next hbits =>
  obtain rfl := Except.ok.inj h
  have hmask : bits = bits &&& 3 := by
    have hsplit : bits = (bits &&& 3) ||| (bits &&& ~~~3) := by
      refine UInt16.toBitVec_inj.mp ?_
      simp only [UInt16.toBitVec_or, UInt16.toBitVec_and, UInt16.toBitVec_not,
        ← BitVec.and_or_distrib_left, BitVec.or_not_self, BitVec.and_allOnes]
    rw [not_not.mp hbits, UInt16.or_zero] at hsplit
    exact hsplit
  have hlt : bits.toNat ≤ 3 := by
    rw [hmask, UInt16.toNat_and]
    exact Nat.and_le_right
  have hcases : bits = 0 ∨ bits = 1 ∨ bits = 2 ∨ bits = 3 := by
    simp only [← UInt16.toNat_inj, UInt16.reduceToNat]
    omega
  rcases hcases with rfl | rfl | rfl | rfl <;> rfl

/-- The envelopes that may be sent as a data frame. -/
structure DataAllowed (limits : DataCodecLimits) (e : Envelope) : Prop where
  channel : e.channelId ≠ controlChannelId
  generation : e.generation.val ≠ 0
  depth : ¬limits.maxNestingDepth < e.nestingDepth
  size : e.payload.length ≤ limits.maxPayloadBytes
  width : e.payload.length < 2^32

def dataFields (e : Envelope) : List Bytes :=
  [dataMagic, beBytes 2 compactDataWireVersion.toNat, [dataFrameKind], e.sessionId.bytes,
    beBytes 4 e.channelId.val.toNat, beBytes 4 e.generation.val.toNat, beBytes 8 e.sequence.toNat,
    beBytes 2 e.nestingDepth.toNat, beBytes 2 (flagsToBits e.flags).toNat,
    beBytes 4 e.payload.length]

def dataImage (e : Envelope) : Bytes := (dataFields e ++ [e.payload]).flatten

def dataWidths : List ℕ := [4, 2, 1, 16, 4, 4, 8, 2, 2, 4]

theorem dataFields_widths (e : Envelope) : (dataFields e).map List.length = dataWidths := by
  simp only [dataFields, List.map_cons, length_beBytes, e.sessionId.size_eq]
  rfl

theorem cut_dataImage (e : Envelope) (rest : Bytes) :
    cut dataWidths (dataImage e ++ rest) = dataFields e ++ [e.payload ++ rest] := by
  have himage : dataImage e ++ rest = (dataFields e ++ [e.payload ++ rest]).flatten := by
    simp only [dataImage, List.flatten_append, List.flatten_singleton, List.append_assoc]
  rw [himage, ← dataFields_widths e, cut_flatten]

/-- The length field fixes where a frame ends. -/
theorem dataImage_unextended {limits : DataCodecLimits} {e e' : Envelope} {rest : Bytes}
    (h : DataAllowed limits e) (h' : DataAllowed limits e')
    (heq : dataImage e ++ rest = dataImage e') : rest = [] := by
  have hcut := cut_dataImage e rest
  rw [heq, ← List.append_nil (dataImage e'), cut_dataImage, List.append_nil] at hcut
  simp only [dataFields, List.cons_append, List.nil_append, List.cons.injEq, and_true] at hcut
  obtain ⟨-, -, -, -, -, -, -, -, -, hlen, hpayload⟩ := hcut
  have hvalue := congrArg ofBeBytes hlen
  rw [ofBeBytes_beBytes 4 _ h.width, ofBeBytes_beBytes 4 _ h'.width, hpayload,
    List.length_append] at hvalue
  exact List.eq_nil_of_length_eq_zero (by omega)

/-- The offsets of the decoder are the sums of the widths before them. -/
theorem cut_dataWidths (wire : Bytes) : cut dataWidths wire =
    [wire.take 4, (wire.drop 4).take 2, (wire.drop 6).take 1, (wire.drop 7).take 16,
      (wire.drop 23).take 4, (wire.drop 27).take 4, (wire.drop 31).take 8, (wire.drop 39).take 2,
      (wire.drop 41).take 2, (wire.drop 43).take 4, wire.drop 47] := by
  simp only [dataWidths, cut, List.drop_drop]

section Codec
variable {limits : DataCodecLimits} {e : Envelope}

theorem validateLimits_ok_iff : validateLimits e limits = .ok () ↔
    e.channelId ≠ controlChannelId ∧ e.generation.val ≠ 0 ∧
      ¬limits.maxNestingDepth < e.nestingDepth ∧ e.payload.length ≤ limits.maxPayloadBytes := by
  unfold validateLimits
  split
  · next h => simp only [reduceCtorEq, false_iff]; tauto
  split
  · next h => simp only [reduceCtorEq, false_iff, ← not_lt]; tauto
  · next h h' => simp only [true_iff, ← not_lt]; tauto

theorem encodeInto_of_allowed (h : DataAllowed limits e) (output : Bytes) :
    encodeDataEnvelopeInto ⟨.compactV1⟩ e limits output = (.ok (), dataImage e) := by
  have hlimits := validateLimits_ok_iff.mpr ⟨h.channel, h.generation, h.depth, h.size⟩
  simp only [encodeDataEnvelopeInto, DataModeGuard.validateCompact, if_true, hlimits]
  rw [if_neg (not_le.mpr h.width)]
  simp [dataImage, dataFields]

theorem encodeInto_of_refused (h : ¬DataAllowed limits e) :
    ∃ error, ∀ output,
      encodeDataEnvelopeInto ⟨.compactV1⟩ e limits output = (.error error, output) := by
  simp only [encodeDataEnvelopeInto, DataModeGuard.validateCompact, if_true]
  cases hlimits : validateLimits e limits with
  | error error => exact ⟨error, fun _ => rfl⟩
  | ok _ =>
    obtain ⟨hchannel, hgeneration, hdepth, hsize⟩ := validateLimits_ok_iff.mp hlimits
    have hwidth : 2^32 ≤ e.payload.length := by
      by_contra hlt
      exact h ⟨hchannel, hgeneration, hdepth, hsize, not_le.mp hlt⟩
    exact ⟨_, fun output => by rw [if_pos hwidth]⟩

theorem u16_field {bs : Bytes} (hbs : bs.length = 2) {v : UInt16} :
    UInt16.ofNat (ofBeBytes bs) = v ↔ beBytes 2 v.toNat = bs :=
  ofNat_ofBeBytes_eq_iff (fun v => v.toNat_lt) (fun _ => UInt16.ofNat_toNat)
    (fun _ hx => UInt16.toNat_ofNat_of_lt hx) hbs

theorem u32_field {bs : Bytes} (hbs : bs.length = 4) {v : UInt32} :
    UInt32.ofNat (ofBeBytes bs) = v ↔ beBytes 4 v.toNat = bs :=
  ofNat_ofBeBytes_eq_iff (fun v => v.toNat_lt) (fun _ => UInt32.ofNat_toNat)
    (fun _ hx => UInt32.toNat_ofNat_of_lt hx) hbs

theorem u64_field {bs : Bytes} (hbs : bs.length = 8) {v : UInt64} :
    UInt64.ofNat (ofBeBytes bs) = v ↔ beBytes 8 v.toNat = bs :=
  ofNat_ofBeBytes_eq_iff (fun v => v.toNat_lt) (fun _ => UInt64.ofNat_toNat)
    (fun _ hx => UInt64.toNat_ofNat_of_lt hx) hbs

theorem arrayAt_ok {n k : ℕ} {wire : Bytes} (h : k+n ≤ wire.length) :
    ∃ array, arrayAt n wire k = .ok array ∧ (wire.drop k).take n = array.bytes := by
  rw [arrayAt, dif_pos h]
  exact ⟨_, rfl, rfl⟩

theorem take_drop_one {k : ℕ} {wire : Bytes} (h : k < wire.length) :
    (wire.drop k).take 1 = [wire.getD k 0] := by
  rw [List.drop_eq_getElem_cons h, List.take_succ_cons, List.take_zero,
    List.getD_eq_getElem?_getD, List.getElem?_eq_getElem h, Option.getD_some]

theorem take_drop_two {k : ℕ} {wire : Bytes} (h : k+1 < wire.length) :
    (wire.drop k).take 2 = [wire.getD k 0, wire.getD (k+1) 0] := by
  rw [List.take_add (i := 1) (j := 1), List.drop_drop, take_drop_one (by omega), take_drop_one h]
  rfl

theorem image_of_decode {wire : Bytes} {b : BorrowedDataEnvelope}
    (h : decodeDataEnvelope ⟨.compactV1⟩ wire limits = .ok b) :
    DataAllowed limits b.intoOwned ∧ wire = dataImage b.intoOwned := by
  simp only [decodeDataEnvelope, DataModeGuard.validateCompact, if_true] at h
  split at h
  · cases h
  next hshort =>
  have hlong : 47 ≤ wire.length := not_lt.mp hshort
  split at h
  · cases h
  next hmagic =>
  split at h
  · cases h
  next hversion =>
  split at h
  · cases h
  next hkind =>
  obtain ⟨session, hsession, hsession'⟩ := @arrayAt_ok 16 7 wire (by omega)
  obtain ⟨channel, hchannel, hchannel'⟩ := @arrayAt_ok 4 23 wire (by omega)
  obtain ⟨generation, hgeneration, hgeneration'⟩ := @arrayAt_ok 4 27 wire (by omega)
  obtain ⟨sequence, hsequence, hsequence'⟩ := @arrayAt_ok 8 31 wire (by omega)
  obtain ⟨depth, hdepth, hdepth'⟩ := @arrayAt_ok 2 39 wire (by omega)
  obtain ⟨bits, hbits, hbits'⟩ := @arrayAt_ok 2 41 wire (by omega)
  obtain ⟨len, hlen, hlen'⟩ := @arrayAt_ok 4 43 wire (by omega)
  simp only [hsession, hchannel, hgeneration, hsequence, hdepth, hbits, hlen, bind,
    Except.bind] at h
  split at h
  · cases h
  next hidentity =>
  split at h
  · cases h
  next hnesting =>
  split at h
  · cases h
  next flags hflags =>
  split at h
  · cases h
  next hsize =>
  split at h
  · cases h
  split at h
  · cases h
  next htotal =>
  obtain rfl := Except.ok.inj h
  have hpayload : (UInt32.ofNat (ofBeBytes len.bytes)).toNat = (wire.drop 47).length := by
    have := not_not.mp htotal
    rw [List.length_drop, this]
    exact (Nat.add_sub_cancel_left ..).symm
  have hversion' := (u16_field rfl).mp (not_not.mp hversion)
  have hbits'' := (u16_field bits.size_eq).mp (flagsToBits_of_flagsFromBits hflags).symm
  have hlen'' := (u32_field len.size_eq).mp rfl
  refine ⟨⟨(not_or.mp hidentity).1, (not_or.mp hidentity).2, hnesting, ?_, ?_⟩, ?_⟩
  · exact hpayload ▸ not_lt.mp hsize
  · exact hpayload ▸ UInt32.toNat_lt _
  · -- each field of the image is the slice that the decoder read it from
    rw [dataImage, dataFields]
    simp only [BorrowedDataEnvelope.intoOwned, (u32_field channel.size_eq).mp rfl,
      (u32_field generation.size_eq).mp rfl, (u64_field sequence.size_eq).mp rfl,
      (u16_field depth.size_eq).mp rfl, hbits'', hversion']
    rw [show compactDataHeaderBytes = 47 from rfl, ← hpayload, hlen'', ← hsession', ← hchannel',
      ← hgeneration', ← hsequence', ← hdepth', ← hbits', ← hlen', ← not_not.mp hmagic,
      ← not_not.mp hkind, ← take_drop_two (by omega), ← take_drop_one (by omega)]
    exact (flatten_cut dataWidths wire).symm.trans (congrArg _ (cut_dataWidths wire))

theorem length_dataImage (e : Envelope) :
    (dataImage e).length = compactDataHeaderBytes+e.payload.length := by
  simp only [dataImage, List.length_flatten, List.map_append, dataFields_widths, List.sum_append,
    List.map_cons, List.map_nil, List.sum_singleton]
  rfl

theorem arrayAt_eq {n k : ℕ} {wire : Bytes} (array : FixedBytes n) (h : k+n ≤ wire.length)
    (hslice : (wire.drop k).take n = array.bytes) : arrayAt n wire k = .ok array := by
  obtain ⟨array', harray, hbytes⟩ := arrayAt_ok h
  rw [harray, FixedBytes.ext_bytes (hbytes.symm.trans hslice)]

theorem decode_of_allowed_data (h : DataAllowed limits e) :
    ∃ b, decodeDataEnvelope ⟨.compactV1⟩ (dataImage e) limits = .ok b ∧ b.intoOwned = e := by
  have htotal := length_dataImage e
  have hlong : 47 ≤ (dataImage e).length := htotal ▸ Nat.le_add_right _ _
  have hcut := cut_dataImage e []
  simp only [List.append_nil, cut_dataWidths, dataFields, List.cons_append, List.nil_append,
    List.cons.injEq, and_true] at hcut
  obtain ⟨hmagic, hversion, hkind, hsession, hchannel, hgeneration, hsequence, hdepth, hbits, hlen,
    hpayload⟩ := hcut
  rw [take_drop_two (by omega)] at hversion
  rw [take_drop_one (by omega), List.cons.injEq] at hkind
  -- Each slice of the image is the field that was written there.
  have hsession' := arrayAt_eq e.sessionId.toFixedBytes (by omega) hsession
  have hchannel' := arrayAt_eq ⟨_, length_beBytes 4 _⟩ (by omega) hchannel
  have hgeneration' := arrayAt_eq ⟨_, length_beBytes 4 _⟩ (by omega) hgeneration
  have hsequence' := arrayAt_eq ⟨_, length_beBytes 8 _⟩ (by omega) hsequence
  have hdepth' := arrayAt_eq ⟨_, length_beBytes 2 _⟩ (by omega) hdepth
  have hbits' := arrayAt_eq ⟨_, length_beBytes 2 _⟩ (by omega) hbits
  have hlen' := arrayAt_eq ⟨_, length_beBytes 4 _⟩ (by omega) hlen
  have hu32 (v : UInt32) : UInt32.ofNat (ofBeBytes (beBytes 4 v.toNat)) = v :=
    (u32_field (length_beBytes _ _)).mpr rfl
  have hu16 (v : UInt16) : UInt16.ofNat (ofBeBytes (beBytes 2 v.toNat)) = v :=
    (u16_field (length_beBytes _ _)).mpr rfl
  have hu64 (v : UInt64) : UInt64.ofNat (ofBeBytes (beBytes 8 v.toNat)) = v :=
    (u64_field (length_beBytes _ _)).mpr rfl
  have hsize :
      (UInt32.ofNat (ofBeBytes (beBytes 4 e.payload.length))).toNat = e.payload.length := by
    rw [ofBeBytes_beBytes 4 _ h.width]
    exact UInt32.toNat_ofNat_of_lt h.width
  refine ⟨⟨e.sessionId, e.channelId, e.generation, e.sequence, e.nestingDepth, e.flags, e.payload⟩,
    ?_, rfl⟩
  simp only [decodeDataEnvelope, DataModeGuard.validateCompact, if_true, hsession', hchannel',
    hgeneration', hsequence', hdepth', hbits', hlen', bind, Except.bind, hu16, hu32, hu64,
    flagsFromBits_flagsToBits, hsize, hversion]
  -- None of the checks refuses an allowed frame.
  have hshort : ¬(dataImage e).length < compactDataHeaderBytes := not_lt.mpr hlong
  rw [if_neg hshort, if_neg (not_not.mpr hmagic), if_neg (not_not.mpr rfl),
    if_neg (not_not.mpr hkind.1), if_neg (not_or.mpr ⟨h.channel, h.generation⟩), if_neg h.depth,
    if_neg (not_lt.mpr h.size), htotal, if_neg (lt_irrefl _), if_neg (not_not.mpr rfl)]
  rw [show compactDataHeaderBytes = 47 from rfl, hpayload]

theorem encode_ok_iff {wire : Bytes} : encodeDataEnvelope ⟨.compactV1⟩ e limits = .ok wire ↔
    DataAllowed limits e ∧ wire = dataImage e := by
  by_cases h : DataAllowed limits e
  · rw [encodeDataEnvelope, encodeInto_of_allowed h]
    simp [h, eq_comm]
  · obtain ⟨error, herror⟩ := encodeInto_of_refused h
    rw [encodeDataEnvelope, herror]
    simp [h]

end Codec

/-- Encoding and decoding of compact data frames are inverse to each other, accepted frames are no
extension of each other, and what the caller's buffer held before plays no part. -/
theorem compact_data_codec_is_bijective (guard : DataModeGuard) (hguard : guard.mode = .compactV1)
    (limits : DataCodecLimits) :
    (∀ e wire, encodeDataEnvelope guard e limits = .ok wire →
      ∃ b, decodeDataEnvelope guard wire limits = .ok b ∧ b.intoOwned = e) ∧
    (∀ wire b, decodeDataEnvelope guard wire limits = .ok b →
      encodeDataEnvelope guard b.intoOwned limits = .ok wire) ∧
    (∀ wire rest b b', decodeDataEnvelope guard wire limits = .ok b →
      decodeDataEnvelope guard (wire ++ rest) limits = .ok b' → rest = []) ∧
    ∀ e output, encodeDataEnvelopeInto guard e limits output =
      match encodeDataEnvelope guard e limits with
      | .ok wire => (.ok (), wire)
      | .error error => (.error error, output) := by
  obtain ⟨mode⟩ := guard
  obtain rfl : mode = .compactV1 := hguard
  refine ⟨fun e wire h => ?_, fun wire b h => ?_, fun wire rest b b' h h' => ?_,
    fun e output => ?_⟩
  · obtain ⟨hallowed, rfl⟩ := encode_ok_iff.mp h
    exact decode_of_allowed_data hallowed
  · exact encode_ok_iff.mpr (image_of_decode h)
  · obtain ⟨hallowed, rfl⟩ := image_of_decode h
    obtain ⟨hallowed', heq⟩ := image_of_decode h'
    exact dataImage_unextended hallowed hallowed' heq
  · by_cases h : DataAllowed limits e
    · rw [encodeDataEnvelope, encodeInto_of_allowed h, encodeInto_of_allowed h]
    · obtain ⟨error, herror⟩ := encodeInto_of_refused h
      rw [encodeDataEnvelope, herror, herror]

/-- The frame of the golden vector in the source's tests. -/
def Sample.dataFrame : Envelope :=
  { sessionId := ⟨FixedBytes.replicate 16 0xaa⟩, channelId := ⟨0x01020304⟩
    generation := ⟨0x05060708⟩, sequence := 0x1112131415161718, nestingDepth := 2
    flags := ⟨true, false⟩, payload := [0xde, 0xad, 0xbe, 0xef] }

theorem sample_data_frame_round_trips :
    ∃ wire, encodeDataEnvelope ⟨.compactV1⟩ Sample.dataFrame {} = .ok wire ∧
      wire.drop 43 = [0, 0, 0, 4, 0xde, 0xad, 0xbe, 0xef] ∧
      ∃ b, decodeDataEnvelope ⟨.compactV1⟩ wire {} = .ok b ∧ b.intoOwned = Sample.dataFrame :=
  ⟨_, rfl, rfl, (compact_data_codec_is_bijective ⟨.compactV1⟩ rfl {}).1 _ _ rfl⟩

end MutsukiLink
