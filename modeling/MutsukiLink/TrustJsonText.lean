import MutsukiLink.JsonText
import MutsukiLink.TrustFormat
import MutsukiLink.TrustStoreModel

/-! The text that `serde_json` makes of the stored records: pretty in the file, compact in the
keyring. Variants of an enumeration are tagged from outside, and a byte is a number. -/
namespace MutsukiLink
open WireBytes JsonText

namespace TrustJsonText

def u8Format : Format UInt8 :=
  Format.number.via UInt8.toNat (fun n => if n < 256 then some (.ofNat n) else none) fun b => by
    rw [if_pos b.toNat_lt, UInt8.ofNat_toNat]

def u64Format : Format UInt64 :=
  Format.number.via UInt64.toNat (fun n => if n < 2^64 then some (.ofNat n) else none) fun n => by
    rw [if_pos n.toNat_lt, UInt64.ofNat_toNat]

def bytesFormat : Format Bytes := u8Format.array

/-- The name of a permission, or the namespace that stands in an object of its own. -/
def permissionParts : PermissionDto → String ⊕ String
  | .connect => .inl "Connect"
  | .openNamespace name => .inr name
  | .datagram => .inl "Datagram"
  | .trackingPublish => .inl "tracking.publish"
  | .trackingSubscribe => .inl "tracking.subscribe"
  | .trackingNegotiate => .inl "tracking.negotiate"
  | .trackingCalibrationWrite => .inl "tracking.calibration.write"

def permissionOfParts : String ⊕ String → Option PermissionDto
  | .inr name => some (.openNamespace name)
  | .inl name =>
    [.connect, .datagram, .trackingPublish, .trackingSubscribe, .trackingNegotiate,
      .trackingCalibrationWrite].find? fun p => permissionParts p = .inl name

def permissionFormat : Format PermissionDto :=
  (Format.text.either (Format.text.member "OpenNamespace").object fun _ _ _ => rfl).via
    permissionParts permissionOfParts fun p => by cases p <;> rfl

def revokedFormat : Format UInt64 :=
  ((u64Format.member "revoked_at_unix_ms").object.member "Revoked").object

def rotatedFormat : Format (UInt64 × String) :=
  (((u64Format.member "rotated_at_unix_ms").both
    (Format.text.member "new_peer_id")).object.member "Rotated").object

/-- The two tags differ in their third letter. -/
theorem revokedFormat_rotated (layout : Layout) (v : UInt64 × String) (rest : List Char) :
    revokedFormat.read layout (rotatedFormat.print layout v ++ rest) = none := by
  simp only [revokedFormat, rotatedFormat, Format.object, Format.member, List.cons_append,
    List.append_assoc, expect, if_pos, Option.bind_some, expect_append_left]
  rfl

def keyStateFormat : Format KeyStateDto :=
  (Format.text.either (revokedFormat.either rotatedFormat revokedFormat_rotated)
    fun _ v _ => by cases v <;> rfl).via
    (fun
      | .active => .inl "Active"
      | .revoked revokedAt => .inr (.inl revokedAt)
      | .rotated rotatedAt newPeerId => .inr (.inr (rotatedAt, newPeerId)))
    (fun
      | .inl name => if name = "Active" then some .active else none
      | .inr (.inl revokedAt) => some (.revoked revokedAt)
      | .inr (.inr (rotatedAt, newPeerId)) => some (.rotated rotatedAt newPeerId))
    fun state => by cases state <;> rfl

def recordFormat : Format RecordDto :=
  ((Format.text.member "peer_id").both <| (bytesFormat.member "public_key").both <|
    (Format.text.member "alias").both <| (u64Format.member "first_paired_at_unix_ms").both <|
    (permissionFormat.array.member "permissions").both <|
    (keyStateFormat.member "key_state").both <|
    (bytesFormat.member "last_pairing_challenge_hash").both <|
    bytesFormat.array.member "previous_key_fingerprints").object.via
    (fun dto => (dto.peerId, dto.publicKey, dto.aliasName, dto.firstPairedAtUnixMs,
      dto.permissions, dto.keyState, dto.lastPairingChallengeHash, dto.previousKeyFingerprints))
    (fun (peerId, publicKey, aliasName, firstPairedAtUnixMs, permissions, keyState,
        lastPairingChallengeHash, previousKeyFingerprints) =>
      some ⟨peerId, publicKey, aliasName, firstPairedAtUnixMs, permissions, keyState,
        lastPairingChallengeHash, previousKeyFingerprints⟩)
    fun _ => rfl

def isWhitespace (c : Char) : Bool := c = ' ' || c = '\n' || c = '\t' || c = '\r'

/-- A whole text holds one value; only blanks may follow it. -/
def readAll {α : Type} (f : Format α) (layout : Layout) (input : String) : Option α :=
  (f.read layout input.toList).bind fun (a, rest) =>
    if rest.all isWhitespace then some a else none

theorem readAll_print {α : Type} (f : Format α) (layout : Layout) (a : α) {rest : List Char}
    (hends : Ends rest) (hblank : rest.all isWhitespace = true) :
    readAll f layout (String.ofList (f.print layout a ++ rest)) = some a := by
  simp only [readAll, String.toList_ofList, f.read_print layout a rest hends, Option.bind_some,
    if_pos hblank]

def fromUtf8 (bytes : Bytes) : Option String := String.fromUTF8? ⟨bytes.toArray⟩

theorem fromUtf8_utf8 (s : String) : fromUtf8 (utf8 s) = some s := by
  have hbytes : (⟨(utf8 s).toArray⟩ : ByteArray) = s.toByteArray := rfl
  rw [fromUtf8, hbytes, String.fromUTF8?, dif_pos s.isValidUTF8]
  rfl

/-- The library on the texts that it prints itself. -/
def serdeJson : TrustJson where
  toWriterPretty dtos := utf8 (String.ofList (recordFormat.array.print (.pretty 0) dtos))
  fromReader bytes := (fromUtf8 bytes).bind (readAll recordFormat.array (.pretty 0))
  recordToString dto := String.ofList (recordFormat.print .compact dto)
  recordFromStr := readAll recordFormat .compact
  indexToString names := String.ofList (Format.text.array.print .compact names)
  indexFromStr := readAll Format.text.array .compact
  fromReader_toWriterPretty dtos := by
    have hline : utf8 (String.ofList (recordFormat.array.print (.pretty 0) dtos)) ++ [10] =
        utf8 (String.ofList (recordFormat.array.print (.pretty 0) dtos ++ ['\n'])) := by
      rw [utf8_ofList, utf8_ofList, List.flatMap_append]
      rfl
    rw [hline, fromUtf8_utf8, Option.bind_some]
    exact readAll_print _ _ dtos (.cons rfl []) rfl
  recordFromStr_toString dto := by
    rw [← List.append_nil (recordFormat.print .compact dto)]
    exact readAll_print _ _ dto nofun rfl
  indexFromStr_toString names := by
    rw [← List.append_nil (Format.text.array.print .compact names)]
    exact readAll_print _ _ names nofun rfl

end TrustJsonText

end MutsukiLink
