import MutsukiLink.ProtocolTypes

/-! Trust records, their limits and the form in which they are stored (`trust.rs`). SHA-256 is a
parameter wherever a fingerprint is taken. -/
namespace MutsukiLink
open WireBytes
open Std (ExtTreeMap ExtTreeSet TransOrd TransCmp LawfulEqOrd LawfulEqCmp)

def defaultMaxTrustRecords : ℕ := 1024

def maxTrustStoreFileBytes : ℕ := 16*1024*1024

def maxPublicKeyBytes : ℕ := 4*1024

def maxAliasBytes : ℕ := 256

def maxPermissions : ℕ := 128

def maxPermissionNamespaceBytes : ℕ := 128

def maxPreviousKeyFingerprints : ℕ := 64

inductive LinkPermission where
  | connect
  | openNamespace (name : String)
  | datagram | trackingPublish | trackingSubscribe | trackingNegotiate | trackingCalibrationWrite
deriving DecidableEq, Repr

namespace LinkPermission

/-- The derived order compares the variants first and the names of two namespaces next. -/
def sortKey : LinkPermission → ℕ × String
  | connect => (0, "")
  | openNamespace name => (1, name)
  | datagram => (2, "")
  | trackingPublish => (3, "")
  | trackingSubscribe => (4, "")
  | trackingNegotiate => (5, "")
  | trackingCalibrationWrite => (6, "")

theorem sortKey_injective : Function.Injective sortKey := by
  intro a b h
  cases a <;> cases b <;> simp_all [sortKey]

instance : Ord LinkPermission := ⟨compareOn sortKey⟩

instance : TransOrd LinkPermission := inferInstanceAs (TransCmp (compareOn sortKey))

instance : LawfulEqOrd LinkPermission := OrderedMap.lawfulEq_compareOn sortKey_injective

end LinkPermission

inductive KeyState where
  | active
  | revoked (revokedAtUnixMs : UInt64)
  | rotated (rotatedAtUnixMs : UInt64) (newPeerId : PeerId)
deriving DecidableEq, Repr

structure TrustRecord where
  peerId : PeerId
  publicKey : Bytes
  aliasName : String
  firstPairedAtUnixMs : UInt64
  permissions : ExtTreeSet LinkPermission
  keyState : KeyState
  lastPairingChallengeHash : FixedBytes 32
  previousKeyFingerprints : List (FixedBytes 32)

namespace TrustRecord

def publicKeyFingerprint (sha256 : Bytes → FixedBytes 32) (r : TrustRecord) : FixedBytes 32 :=
  sha256 r.publicKey

def isActive (r : TrustRecord) : Bool := r.keyState == .active

end TrustRecord

inductive TrustStoreErrorKind where
  | io | corrupt | unavailable | unknownPeer | revoked | rotated | identityMismatch | conflict
  | limitExceeded
deriving DecidableEq, Repr

structure TrustStoreError where
  kind : TrustStoreErrorKind
  publicMessage : String
deriving DecidableEq, Repr

/-- A call that does not return a value: it failed, or it panicked on a slice that cuts a
character. -/
inductive TrustFault where
  | panicked
  | failed (error : TrustStoreError)
deriving DecidableEq, Repr

def LinkPermission.oversized : LinkPermission → Bool
  | .openNamespace name => utf8 name = [] ∨ maxPermissionNamespaceBytes < (utf8 name).length
  | _ => false

def validateRecord (r : TrustRecord) : Except TrustStoreError Unit :=
  if r.publicKey = [] ∨ maxPublicKeyBytes < r.publicKey.length ∨ utf8 r.aliasName = [] ∨
      maxAliasBytes < (utf8 r.aliasName).length ∨ maxPermissions < r.permissions.size ∨
      maxPreviousKeyFingerprints < r.previousKeyFingerprints.length ∨
      r.permissions.toList.any LinkPermission.oversized then
    .error ⟨.limitExceeded, "trust record exceeds configured limits"⟩
  else .ok ()

/-- `authorize_trusted_reconnect` over what the store's `get` returned. -/
def authorizeTrustedReconnect (found : Except TrustFault (Option TrustRecord))
    (presentedPublicKey : Bytes) : Except TrustFault TrustRecord :=
  match found with
  | .error fault => .error fault
  | .ok none => .error (.failed ⟨.unknownPeer, "peer has no trust record"⟩)
  | .ok (some record) =>
    match validateRecord record with
    | .error e => .error (.failed e)
    | .ok () =>
      match record.keyState with
      | .revoked _ => .error (.failed ⟨.revoked, "peer trust has been revoked"⟩)
      | .rotated _ _ => .error (.failed ⟨.rotated, "peer identity key was rotated"⟩)
      | .active =>
        if record.publicKey ≠ presentedPublicKey then
          .error (.failed ⟨.identityMismatch, "peer public key does not match trust record"⟩)
        else .ok record

inductive PermissionDto where
  | connect
  | openNamespace (name : String)
  | datagram | trackingPublish | trackingSubscribe | trackingNegotiate | trackingCalibrationWrite
deriving DecidableEq, Repr

inductive KeyStateDto where
  | active
  | revoked (revokedAtUnixMs : UInt64)
  | rotated (rotatedAtUnixMs : UInt64) (newPeerId : String)
deriving DecidableEq, Repr

structure RecordDto where
  peerId : String
  publicKey : Bytes
  aliasName : String
  firstPairedAtUnixMs : UInt64
  permissions : List PermissionDto
  keyState : KeyStateDto
  lastPairingChallengeHash : Bytes
  previousKeyFingerprints : List Bytes
deriving DecidableEq, Repr

/-- One of the sixteen digits of `format!("{byte:02x}")`. -/
def hexDigit (n : ℕ) : Char := Char.ofNat (if n < 10 then 48+n else 87+n)

/-- Two lower-case digits for each byte. -/
def encode (bytes : Bytes) : String :=
  String.ofList (bytes.flatMap fun b => [hexDigit (b.toNat/16), hexDigit (b.toNat%16)])

def corruptData : TrustStoreError := ⟨.corrupt, "trust store data is invalid"⟩

/-- `char::to_digit(16)` of an ASCII character. -/
def digitValue (b : UInt8) : Option ℕ :=
  if 48 ≤ b.toNat ∧ b.toNat ≤ 57 then some (b.toNat-48)
  else if 97 ≤ b.toNat ∧ b.toNat ≤ 102 then some (b.toNat-87)
  else if 65 ≤ b.toNat ∧ b.toNat ≤ 70 then some (b.toNat-55)
  else none

/-- `u8::from_str_radix(_, 16)` of two bytes: a plus sign may stand before one digit. -/
def fromStrRadix16 (first second : UInt8) : Option UInt8 :=
  if first = 43 then (digitValue second).map UInt8.ofNat
  else match digitValue first, digitValue second with
    | some high, some low => some (UInt8.ofNat (high*16+low))
    | _, _ => none

/-- A byte inside a character: a slice may not begin there. -/
def isContinuation (b : UInt8) : Bool := 128 ≤ b.toNat && b.toNat < 192

/-- The loop of `decode_hex_32` over what is left of the string. -/
def decodeHexPairs : Bytes → Except TrustFault Bytes
  | first :: second :: rest =>
    if isContinuation first || rest.head?.any isContinuation then .error .panicked
    else match fromStrRadix16 first second with
      | none => .error (.failed corruptData)
      | some byte => (decodeHexPairs rest).map (byte :: ·)
  | _ => .ok []

/-- An array of a fixed size, as `try_into` makes it from a slice. -/
def tryIntoArray (n : ℕ) (bytes : Bytes) : Except TrustFault (FixedBytes n) :=
  if h : bytes.length = n then .ok ⟨bytes, h⟩ else .error (.failed corruptData)

def decodeHex32 (value : String) : Except TrustFault (FixedBytes 32) :=
  if (utf8 value).length ≠ 64 then .error (.failed corruptData)
  else match decodeHexPairs (utf8 value) with
    | .error fault => .error fault
    | .ok bytes => tryIntoArray 32 bytes

def decodePeerId (value : String) : Except TrustFault PeerId :=
  (decodeHex32 value).map OpaqueId.fromBytes

def decode32 (value : Bytes) : Except TrustFault (FixedBytes 32) := tryIntoArray 32 value

namespace PermissionDto

def toPermission : PermissionDto → LinkPermission
  | connect => .connect
  | openNamespace name => .openNamespace name
  | datagram => .datagram
  | trackingPublish => .trackingPublish
  | trackingSubscribe => .trackingSubscribe
  | trackingNegotiate => .trackingNegotiate
  | trackingCalibrationWrite => .trackingCalibrationWrite

def ofPermission : LinkPermission → PermissionDto
  | .connect => connect
  | .openNamespace name => openNamespace name
  | .datagram => datagram
  | .trackingPublish => trackingPublish
  | .trackingSubscribe => trackingSubscribe
  | .trackingNegotiate => trackingNegotiate
  | .trackingCalibrationWrite => trackingCalibrationWrite

end PermissionDto

namespace KeyStateDto

def toKeyState : KeyStateDto → Except TrustFault KeyState
  | active => .ok .active
  | revoked revokedAt => .ok (.revoked revokedAt)
  | rotated rotatedAt newPeerId => (decodePeerId newPeerId).map (.rotated rotatedAt)

def ofKeyState : KeyState → KeyStateDto
  | .active => active
  | .revoked revokedAt => revoked revokedAt
  | .rotated rotatedAt newPeerId => rotated rotatedAt (encode newPeerId.bytes)

end KeyStateDto

namespace RecordDto

/-- `TrustRecord::try_from`. -/
def toRecord (dto : RecordDto) : Except TrustFault TrustRecord := do
  let peerId ← decodePeerId dto.peerId
  let lastPairingChallengeHash ← decode32 dto.lastPairingChallengeHash
  let previousKeyFingerprints ← dto.previousKeyFingerprints.mapM decode32
  let keyState ← dto.keyState.toKeyState
  let record : TrustRecord := {
    peerId, publicKey := dto.publicKey, aliasName := dto.aliasName
    firstPairedAtUnixMs := dto.firstPairedAtUnixMs
    permissions := ExtTreeSet.ofList (dto.permissions.map PermissionDto.toPermission)
    keyState, lastPairingChallengeHash, previousKeyFingerprints }
  match validateRecord record with
  | .error e => .error (.failed e)
  | .ok () => .ok record

/-- `RecordDto::from`. -/
def ofRecord (r : TrustRecord) : RecordDto :=
  { peerId := encode r.peerId.bytes, publicKey := r.publicKey, aliasName := r.aliasName
    firstPairedAtUnixMs := r.firstPairedAtUnixMs
    permissions := r.permissions.toList.map PermissionDto.ofPermission
    keyState := .ofKeyState r.keyState
    lastPairingChallengeHash := r.lastPairingChallengeHash.bytes
    previousKeyFingerprints := r.previousKeyFingerprints.map FixedBytes.bytes }

end RecordDto

end MutsukiLink
