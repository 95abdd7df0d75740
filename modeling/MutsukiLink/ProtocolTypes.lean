import MutsukiLink.Identity

/-! Protocol identities, schemas, capability words and the offers built from them
(`control.rs`, first part of `handshake.rs`). Stable identifiers come out of SHA-256, which
is not part of the repository: `derive` stands for it wherever it is called. -/
namespace MutsukiLink
open Std WireBytes

abbrev ProtocolStableId := OpaqueId .protocolStable 16
abbrev SchemaId := OpaqueId .schema 16
abbrev SchemaFingerprint := OpaqueId .fingerprint 32

instance : TransOrd ProtocolStableId := inferInstanceAs (TransOrd (OpaqueId .protocolStable 16))

structure ProtocolChannelId where
  val : UInt16
deriving DecidableEq, Repr

instance : Ord ProtocolChannelId := ⟨compareOn ProtocolChannelId.val⟩

instance : TransOrd ProtocolChannelId :=
  inferInstanceAs (TransCmp (compareOn ProtocolChannelId.val))

instance : LawfulEqOrd ProtocolChannelId :=
  OrderedMap.lawfulEq_compareOn (by rintro ⟨a⟩ ⟨b⟩ h; exact congrArg _ h)

/-- The UTF-8 bytes of a string, as `str::as_bytes`. -/
def utf8 (s : String) : Bytes := s.toByteArray.data.toList

structure ProtocolDebugIdentity where
  authority : String
  name : String
deriving DecidableEq, Repr

def canonicalIdentityComponent (value : Bytes) : Bool :=
  !value.isEmpty && value.all fun byte =>
    (97 ≤ byte && byte ≤ 122) || (48 ≤ byte && byte ≤ 57) || byte == 45 || byte == 95

namespace ProtocolDebugIdentity

def stableId (derive : String → String → ProtocolStableId) (d : ProtocolDebugIdentity) :
    ProtocolStableId := derive d.authority d.name

def isCanonical (d : ProtocolDebugIdentity) : Bool :=
  !(utf8 d.authority).isEmpty &&
    ((utf8 d.authority).splitOn 46).all canonicalIdentityComponent &&
    canonicalIdentityComponent (utf8 d.name)

end ProtocolDebugIdentity

structure SchemaRef where
  id : SchemaId
  revision : UInt32
  fingerprint : SchemaFingerprint
deriving DecidableEq, Repr

structure LinkCapabilities where
  bits : UInt64
deriving DecidableEq, Repr

namespace LinkCapabilities

def compactChannelId : LinkCapabilities := ⟨1⟩
def typedControl : LinkCapabilities := ⟨32⟩

def contains (self capability : LinkCapabilities) : Bool :=
  self.bits &&& capability.bits == capability.bits

def intersection (self other : LinkCapabilities) : LinkCapabilities :=
  ⟨self.bits &&& other.bits⟩

def isSubsetOf (self other : LinkCapabilities) : Bool := self.bits &&& ~~~other.bits == 0

end LinkCapabilities

theorem u64_and_subset_right (a b : UInt64) : a &&& b &&& ~~~b = 0 := by
  rw [UInt64.and_assoc, UInt64.and_not_self, UInt64.and_zero]

theorem u64_and_subset_left (a b : UInt64) : a &&& b &&& ~~~a = 0 := by
  rw [UInt64.and_comm a b, u64_and_subset_right]

theorem u64_below_and {w u v : UInt64} (hu : w &&& ~~~u = 0) (hv : w &&& ~~~v = 0) :
    w &&& ~~~(u &&& v) = 0 := by
  simp only [← UInt64.toBitVec_inj, UInt64.toBitVec_and, UInt64.toBitVec_not,
    UInt64.toBitVec_zero] at hu hv ⊢
  rw [BitVec.not_and, BitVec.and_or_distrib_left, hu, hv, BitVec.or_zero]

namespace LinkCapabilities

theorem intersection_subset_left (a b : LinkCapabilities) :
    (a.intersection b).isSubsetOf a = true := by
  simp [intersection, isSubsetOf, u64_and_subset_left]

theorem intersection_subset_right (a b : LinkCapabilities) :
    (a.intersection b).isSubsetOf b = true := by
  simp [intersection, isSubsetOf, u64_and_subset_right]

end LinkCapabilities

def maxProtocolCapabilityWords : ℕ := 8

structure ProtocolCapabilitySet where
  protocolId : ProtocolStableId
  words : List UInt64
deriving DecidableEq, Repr

namespace ProtocolCapabilitySet

def isBounded (c : ProtocolCapabilitySet) : Bool :=
  decide (c.words.length ≤ maxProtocolCapabilityWords)

def intersect (self other : ProtocolCapabilitySet) : Option ProtocolCapabilitySet :=
  if self.protocolId = other.protocolId then
    some ⟨self.protocolId, (self.words.zip other.words).map fun p => p.1 &&& p.2⟩
  else none

def isSubsetOf (self other : ProtocolCapabilitySet) : Bool :=
  self.protocolId == other.protocolId &&
    self.words.zipIdx.all fun p => p.1 &&& ~~~(other.words[p.2]?.getD 0) == 0

theorem intersect_protocolId {a b c : ProtocolCapabilitySet} (h : a.intersect b = some c) :
    c.protocolId = a.protocolId ∧ a.protocolId = b.protocolId := by
  unfold intersect at h
  split at h
  · next he =>
    obtain rfl := Option.some.inj h
    exact ⟨rfl, he⟩
  · exact absurd h (by simp)

theorem intersect_words {a b c : ProtocolCapabilitySet} (h : a.intersect b = some c) :
    c.words = (a.words.zip b.words).map fun p => p.1 &&& p.2 := by
  unfold intersect at h
  split at h
  · obtain rfl := Option.some.inj h
    rfl
  · exact absurd h (by simp)

/-- A word list is below another one when each word is below the word at its index. -/
theorem isSubsetOf_iff (a b : ProtocolCapabilitySet) :
    a.isSubsetOf b = true ↔ a.protocolId = b.protocolId ∧
      ∀ (i : ℕ) (w : UInt64), a.words[i]? = some w → w &&& ~~~(b.words[i]?.getD 0) = 0 := by
  simp only [isSubsetOf, Bool.and_eq_true, beq_iff_eq, List.all_eq_true, Prod.forall,
    List.mem_zipIdx_iff_getElem?]
  exact and_congr_right fun _ => ⟨fun h i w => h w i, fun h w i => h i w⟩

theorem intersect_bounded {a b c : ProtocolCapabilitySet} (h : a.intersect b = some c)
    (hb : b.isBounded = true) : c.isBounded = true := by
  simp only [isBounded, decide_eq_true_eq, intersect_words h, List.length_map, List.length_zip]
    at hb ⊢
  omega

theorem intersect_getElem? {a b c : ProtocolCapabilitySet} (h : a.intersect b = some c)
    {i : ℕ} {w : UInt64} (hw : c.words[i]? = some w) :
    ∃ u v, a.words[i]? = some u ∧ b.words[i]? = some v ∧ w = u &&& v := by
  rw [intersect_words h, List.getElem?_map] at hw
  obtain ⟨⟨u, v⟩, hp, rfl⟩ := Option.map_eq_some_iff.mp hw
  obtain ⟨hu, hv⟩ := List.getElem?_zip_eq_some.mp hp
  exact ⟨u, v, hu, hv, rfl⟩

theorem intersect_subset_left {a b c : ProtocolCapabilitySet} (h : a.intersect b = some c) :
    c.isSubsetOf a = true := by
  refine (isSubsetOf_iff c a).mpr ⟨(intersect_protocolId h).1, fun i w hw => ?_⟩
  obtain ⟨u, v, hu, -, rfl⟩ := intersect_getElem? h hw
  simpa only [hu, Option.getD_some] using u64_and_subset_left u v

theorem intersect_subset_right {a b c : ProtocolCapabilitySet} (h : a.intersect b = some c) :
    c.isSubsetOf b = true := by
  obtain ⟨hc, hab⟩ := intersect_protocolId h
  refine (isSubsetOf_iff c b).mpr ⟨hc.trans hab, fun i w hw => ?_⟩
  obtain ⟨u, v, -, hv, rfl⟩ := intersect_getElem? h hw
  simpa only [hv, Option.getD_some] using u64_and_subset_right u v

theorem intersect_word {a b c : ProtocolCapabilitySet} (h : a.intersect b = some c) (i : ℕ) :
    c.words[i]?.getD 0 = a.words[i]?.getD 0 &&& b.words[i]?.getD 0 := by
  rw [intersect_words h, List.getElem?_map, List.zip, List.getElem?_zipWith]
  cases ha : a.words[i]? with
  | none => simp
  | some u =>
    cases hb : b.words[i]? with
    | none => simp
    | some v => simp

/-- The intersection is the greatest set below both. -/
theorem intersect_greatest {a b c d : ProtocolCapabilitySet} (h : a.intersect b = some c)
    (ha : d.isSubsetOf a = true) (hb : d.isSubsetOf b = true) : d.isSubsetOf c = true := by
  rw [isSubsetOf_iff] at ha hb ⊢
  refine ⟨ha.1.trans (intersect_protocolId h).1.symm, fun i w hw => ?_⟩
  rw [intersect_word h]
  exact u64_below_and (ha.2 i w hw) (hb.2 i w hw)

theorem intersect_isSome_iff (a b : ProtocolCapabilitySet) :
    (a.intersect b).isSome ↔ a.protocolId = b.protocolId := by
  unfold intersect
  split
  · next he => simp [he]
  · next he => simp [he]

theorem intersect_comm (a b : ProtocolCapabilitySet) : a.intersect b = b.intersect a := by
  have hwords : ((a.words.zip b.words).map fun p => p.1 &&& p.2) =
      (b.words.zip a.words).map fun p => p.1 &&& p.2 := by
    simp only [List.zip, List.map_zipWith]
    rw [List.zipWith_comm]
    simp only [UInt64.and_comm]
  unfold intersect
  by_cases he : a.protocolId = b.protocolId
  · rw [if_pos he, if_pos he.symm, he, hwords]
  · rw [if_neg he, if_neg (Ne.symm he)]

end ProtocolCapabilitySet

structure ProtocolOffer where
  stableId : ProtocolStableId
  debugIdentity : Option ProtocolDebugIdentity
  versions : VersionRange
  schema : SchemaRef
  capabilities : ProtocolCapabilitySet
deriving DecidableEq, Repr

structure ProtocolSelection where
  stableId : ProtocolStableId
  version : ProtocolVersion
  schema : SchemaRef
  capabilities : ProtocolCapabilitySet
deriving DecidableEq, Repr

inductive AuthPath where
  | firstPairing | trustedReconnect
deriving DecidableEq, Repr

inductive ControlIdentityMode where
  | legacyStringV1 | typedV1
deriving DecidableEq, Repr

def ControlIdentityMode.negotiate (capabilities : LinkCapabilities) : ControlIdentityMode :=
  if capabilities.contains LinkCapabilities.typedControl then .typedV1 else .legacyStringV1

inductive DataIdentityMode where
  | legacyFullChannelKey | compactV1
deriving DecidableEq, Repr

def DataIdentityMode.negotiate (controlMode : ControlIdentityMode)
    (capabilities : LinkCapabilities) : DataIdentityMode :=
  if controlMode = .typedV1 ∧ capabilities.contains LinkCapabilities.compactChannelId then
    .compactV1
  else .legacyFullChannelKey

end MutsukiLink
