import MutsukiLink.DataCodec
import MutsukiLink.RealtimeSelection

/-! The three functions that know the header of a realtime datagram agree: what is encoded is
read back, what is read was encoded so, and the flow that is told without reading is the flow
that is read. A vector holds less than half of the address space. -/
namespace MutsukiLink
open WireBytes

/-- What a receiver makes of a queued datagram. -/
def QueuedRealtimeDatagram.received (d : QueuedRealtimeDatagram) (receivedAt : ℕ) :
    ReceivedRealtimeDatagram :=
  { flow := d.flow, generation := d.generation, sequence := d.sequence, priority := d.priority
    receivedAt, payload := d.payload }

/-- The datagram that a receiver would send on. -/
def ReceivedRealtimeDatagram.queued (r : ReceivedRealtimeDatagram) (deadline : ℕ) :
    QueuedRealtimeDatagram :=
  { flow := r.flow, generation := r.generation, sequence := r.sequence, deadline
    priority := r.priority, payload := r.payload }

theorem RealtimePriority.code_of_fromCode {b : UInt8} {p : RealtimePriority}
    (h : fromCode b = .ok p) : p.code = b := by
  unfold fromCode at h
  split at h <;> cases h <;> rfl

/-- The bytes from which a datagram was read. -/
structure ReadFrom (wire : Bytes) (r : ReceivedRealtimeDatagram) : Prop where
  long : realtimeDatagramHeaderLen ≤ wire.length
  magic : wire.take 4 = realtimeMagic
  version : wire.getD 4 0 = realtimeVersion
  priority : r.priority.code = wire.getD 5 0
  flow : r.flow = ⟨.ofNat (ofBeBytes ((wire.drop 6).take 2))⟩
  generation : beBytes 4 r.generation.toNat = (wire.drop 8).take 4
  sequence : beBytes 8 r.sequence.toNat = (wire.drop 12).take 8
  payload : r.payload = wire.drop realtimeDatagramHeaderLen

theorem readFrom_of_decode {wire : Bytes} {receivedAt : ℕ} {r : ReceivedRealtimeDatagram}
    (h : decodeRealtimeDatagram wire receivedAt = .ok r) : ReadFrom wire r := by
  unfold decodeRealtimeDatagram at h
  split at h
  · cases h
  next hlong =>
  split at h
  · cases h
  next hheader =>
  split at h
  · cases h
  next priority hpriority =>
  obtain rfl := Except.ok.inj h
  simp only [not_or, not_not] at hheader
  have hlen : 20 ≤ wire.length := not_lt.mp hlong
  have hwidth (k n : ℕ) (hle : k+n ≤ 20) : ((wire.drop k).take n).length = n := by
    rw [List.length_take, List.length_drop]
    omega
  exact ⟨hlen, hheader.1, hheader.2, RealtimePriority.code_of_fromCode hpriority, rfl,
    (u32_field (hwidth 8 4 (by decide))).mp rfl, (u64_field (hwidth 12 8 (by decide))).mp rfl, rfl⟩

/-- The header is the first twenty bytes, cut at its fields. -/
theorem encode_of_readFrom {wire : Bytes} {r : ReceivedRealtimeDatagram} (h : ReadFrom wire r)
    (hsize : wire.length < 2^64) (deadline : ℕ) :
    encodeRealtimeDatagram (r.queued deadline) = .ok wire := by
  have hlen : 20 ≤ wire.length := h.long
  have hwire : wireLen r.payload = some wire.length := by
    have hsum : realtimeDatagramHeaderLen+(wire.drop realtimeDatagramHeaderLen).length =
        wire.length := by
      rw [List.length_drop]
      exact Nat.add_sub_of_le hlen
    rw [h.payload, wireLen, hsum, if_pos hsize]
  have hflow : beBytes 2 r.flow.val.toNat = (wire.drop 6).take 2 := by
    refine (u16_field ?_).mp (congrArg RealtimeFlowId.val h.flow).symm
    rw [List.length_take, List.length_drop]
    omega
  have hcut : wire.take 4 ++ ((wire.drop 4).take 1 ++ ((wire.drop 5).take 1 ++
      ((wire.drop 6).take 2 ++ ((wire.drop 8).take 4 ++ ((wire.drop 12).take 8 ++
        wire.drop 20))))) = wire := by
    have hfields := flatten_cut [4, 1, 1, 2, 4, 8] wire
    simpa only [cut, List.drop_drop, Nat.reduceAdd, List.flatten_cons, List.flatten_nil,
      List.append_nil] using hfields
  rw [take_drop_one (by omega), take_drop_one (by omega)] at hcut
  rw [encodeRealtimeDatagram]
  simp only [ReceivedRealtimeDatagram.queued, hwire, hflow, h.generation, h.sequence, h.priority]
  rw [← h.magic, ← h.version, h.payload]
  exact congrArg Except.ok hcut

theorem wireLen_of_vec {payload : Bytes} (h : payload.length < 2^63) :
    wireLen payload = some (realtimeDatagramHeaderLen+payload.length) := by
  rw [wireLen, if_pos]
  rw [realtimeDatagramHeaderLen]
  omega

/-- The codec of realtime datagrams, and the flow told from the header alone. -/
theorem realtime_codec_agrees :
    (∀ (d : QueuedRealtimeDatagram) (receivedAt : ℕ), d.payload.length < 2^63 →
      ∃ wire, encodeRealtimeDatagram d = .ok wire ∧
        decodeRealtimeDatagram wire receivedAt = .ok (d.received receivedAt)) ∧
    (∀ (wire : Bytes) (receivedAt : ℕ) (r : ReceivedRealtimeDatagram),
      decodeRealtimeDatagram wire receivedAt = .ok r →
        realtimeFlowFromWire wire = some r.flow ∧
        (wire.length < 2^63 → ∀ deadline, encodeRealtimeDatagram (r.queued deadline) = .ok wire)) ∧
    (∀ wire : Bytes, wire.length < realtimeDatagramHeaderLen ∨ wire.take 4 ≠ realtimeMagic ∨
      wire.getD 4 0 ≠ realtimeVersion → realtimeFlowFromWire wire = none) := by
  refine ⟨fun d receivedAt hd => ?_, fun wire receivedAt r hr => ?_, fun wire hbad => ?_⟩
  · obtain ⟨wire, hwire, -⟩ := (encode_length d _).mp (wireLen_of_vec hd)
    exact ⟨wire, hwire, decode_encode_realtime hwire receivedAt⟩
  · have hread := readFrom_of_decode hr
    refine ⟨?_, fun hsize deadline => encode_of_readFrom hread (by omega) deadline⟩
    rw [realtimeFlowFromWire, if_pos ⟨hread.long, hread.magic, hread.version⟩, hread.flow]
  · rw [realtimeFlowFromWire, if_neg]
    rintro ⟨hlong, hmagic, hversion⟩
    exact hbad.elim (not_lt.mpr hlong) fun h => h.elim (absurd hmagic) (absurd hversion)

/-- A datagram of one byte that goes out and comes back. -/
def oneByteDatagram : QueuedRealtimeDatagram :=
  { flow := ⟨7⟩, generation := 1, sequence := 2, deadline := 0, priority := .high, payload := [9] }

theorem one_byte_datagram_agrees :
    (∃ wire, encodeRealtimeDatagram oneByteDatagram = .ok wire ∧
      decodeRealtimeDatagram wire 5 = .ok (oneByteDatagram.received 5) ∧
        realtimeFlowFromWire wire = some ⟨7⟩ ∧
          encodeRealtimeDatagram ((oneByteDatagram.received 5).queued 8) = .ok wire) ∧
      realtimeFlowFromWire [77, 76, 82, 68] = none := by
  obtain ⟨wire, hwire, hread⟩ := realtime_codec_agrees.1 oneByteDatagram 5 (by decide)
  have hlen : wire.length < 2^63 := by
    obtain ⟨_, heq, hlen⟩ := (encode_length oneByteDatagram 21).mp (by decide)
    obtain rfl := Except.ok.inj (hwire.symm.trans heq)
    omega
  obtain ⟨hflow, hback⟩ := realtime_codec_agrees.2.1 wire 5 _ hread
  exact ⟨⟨wire, hwire, hread, hflow, hback hlen 8⟩,
    realtime_codec_agrees.2.2 _ (.inl (by decide))⟩

end MutsukiLink
