import MutsukiLink.TrustModel

/-! A stored record is read back as it was written: hexadecimal peer ids, arrays kept as byte
lists, and the set of permissions kept as a list. -/
namespace MutsukiLink
open WireBytes
open Std (ExtTreeMap ExtTreeSet)

theorem utf8_ofList (l : List Char) :
    utf8 (String.ofList l) = l.flatMap String.utf8EncodeChar := by
  rw [utf8, String.toByteArray_ofList, List.utf8Encode, List.data_toByteArray]

/-- The byte of one hexadecimal digit. -/
def hexByte (n : ℕ) : UInt8 := UInt8.ofNat (if n < 10 then 48+n else 87+n)

theorem utf8EncodeChar_hexDigit :
    ∀ n < 16, String.utf8EncodeChar (hexDigit n) = [hexByte n] := by
  decide

theorem digitValue_hexByte : ∀ n < 16, digitValue (hexByte n) = some n := by decide

theorem hexByte_ordinary : ∀ n < 16, isContinuation (hexByte n) = false ∧ hexByte n ≠ 43 := by
  decide

/-- The two digits of a byte. -/
def hexPair (b : UInt8) : Bytes := [hexByte (b.toNat/16), hexByte (b.toNat%16)]

theorem high_lt (b : UInt8) : b.toNat/16 < 16 := by
  have := b.toNat_lt
  omega

theorem low_lt (b : UInt8) : b.toNat%16 < 16 := Nat.mod_lt _ (by decide)

theorem utf8_encode (bytes : Bytes) : utf8 (encode bytes) = bytes.flatMap hexPair := by
  rw [encode, utf8_ofList, List.flatMap_assoc]
  refine List.flatMap_congr fun b _ => ?_
  simp only [List.flatMap_cons, List.flatMap_nil, List.append_nil, hexPair,
    utf8EncodeChar_hexDigit _ (high_lt b), utf8EncodeChar_hexDigit _ (low_lt b),
    List.singleton_append]

theorem fromStrRadix16_hexPair (b : UInt8) :
    fromStrRadix16 (hexByte (b.toNat/16)) (hexByte (b.toNat%16)) = some b := by
  have hbyte : UInt8.ofNat (b.toNat/16*16+b.toNat%16) = b := by
    rw [Nat.div_add_mod', UInt8.ofNat_toNat]
  rw [fromStrRadix16, if_neg (hexByte_ordinary _ (high_lt b)).2,
    digitValue_hexByte _ (high_lt b), digitValue_hexByte _ (low_lt b)]
  simp only [hbyte]

theorem head?_hexPairs (bytes : Bytes) :
    (bytes.flatMap hexPair).head?.any isContinuation = false := by
  cases bytes with
  | nil => rfl
  | cons b rest => exact (hexByte_ordinary _ (high_lt b)).1

theorem decodeHexPairs_hexPairs (bytes : Bytes) :
    decodeHexPairs (bytes.flatMap hexPair) = .ok bytes := by
  induction bytes with
  | nil => rfl
  | cons b rest ih =>
    rw [List.flatMap_cons, hexPair, List.cons_append, List.cons_append, List.nil_append,
      decodeHexPairs, (hexByte_ordinary _ (high_lt b)).1, head?_hexPairs,
      fromStrRadix16_hexPair, ih]
    rfl

theorem length_hexPairs (bytes : Bytes) : (bytes.flatMap hexPair).length = 2*bytes.length := by
  induction bytes with
  | nil => rfl
  | cons b rest ih =>
    rw [List.flatMap_cons, List.length_append, ih, List.length_cons]
    simp only [hexPair, List.length_cons, List.length_nil]
    omega

theorem tryIntoArray_bytes {n : ℕ} (a : FixedBytes n) : tryIntoArray n a.bytes = .ok a := by
  rw [tryIntoArray, dif_pos a.size_eq]

theorem decodeHex32_encode (a : FixedBytes 32) : decodeHex32 (encode a.bytes) = .ok a := by
  have hlen : (utf8 (encode a.bytes)).length = 64 := by
    rw [utf8_encode, length_hexPairs, a.size_eq]
  rw [decodeHex32, if_neg (not_not.mpr hlen), utf8_encode, decodeHexPairs_hexPairs]
  exact tryIntoArray_bytes a

theorem decodePeerId_encode (peerId : PeerId) :
    decodePeerId (encode peerId.bytes) = .ok peerId := by
  rw [decodePeerId, decodeHex32_encode]
  rfl

theorem encode_injective {a b : PeerId} (h : encode a.bytes = encode b.bytes) : a = b := by
  have hb := decodePeerId_encode b
  rw [← h, decodePeerId_encode a] at hb
  exact Except.ok.inj hb

theorem toKeyState_ofKeyState (state : KeyState) :
    (KeyStateDto.ofKeyState state).toKeyState = .ok state := by
  cases state with
  | active => rfl
  | revoked revokedAt => rfl
  | rotated rotatedAt newPeerId =>
    rw [KeyStateDto.ofKeyState, KeyStateDto.toKeyState, decodePeerId_encode]
    rfl

theorem toPermission_ofPermission (p : LinkPermission) :
    (PermissionDto.ofPermission p).toPermission = p := by
  cases p <;> rfl

/-- A set is rebuilt from the list of its elements. -/
theorem ofList_permissions (permissions : ExtTreeSet LinkPermission) :
    ExtTreeSet.ofList ((permissions.toList.map PermissionDto.ofPermission).map
      PermissionDto.toPermission) = permissions := by
  have hid : PermissionDto.toPermission ∘ PermissionDto.ofPermission = id :=
    funext toPermission_ofPermission
  rw [List.map_map, hid, List.map_id]
  apply ExtTreeSet.ext_mem
  intro p
  rw [ExtTreeSet.mem_ofList, List.contains_iff_mem, ExtTreeSet.mem_toList]

theorem mapM_decode32 (fingerprints : List (FixedBytes 32)) :
    (fingerprints.map FixedBytes.bytes).mapM decode32 = .ok fingerprints := by
  induction fingerprints with
  | nil => rfl
  | cons f rest ih =>
    rw [List.map_cons, List.mapM_cons, ih, decode32, tryIntoArray_bytes]
    rfl

/-- A record within the limits survives the way to its stored form and back. -/
theorem toRecord_ofRecord {r : TrustRecord} (h : validateRecord r = .ok ()) :
    (RecordDto.ofRecord r).toRecord = .ok r := by
  simp only [RecordDto.toRecord, RecordDto.ofRecord, decodePeerId_encode, decode32,
    tryIntoArray_bytes, mapM_decode32, toKeyState_ofKeyState, ofList_permissions, bind, Except.bind,
    h]

end MutsukiLink
