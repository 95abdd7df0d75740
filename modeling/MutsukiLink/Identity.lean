import MutsukiLink.WireBytes

/-! Identities, versions and errors shared by every layer (`identity.rs`, `error.rs`).
Machine words keep their width; `usize` is a natural number. -/
namespace MutsukiLink
open Std WireBytes

inductive OpaqueKind where
  | peer | endpoint | connection | session | protocolStable | schema | fingerprint
deriving DecidableEq

/-- The `opaque_id!` family: equal byte arrays of different kinds are different types. -/
structure OpaqueId (kind : OpaqueKind) (size : ℕ) extends FixedBytes size
deriving DecidableEq, Repr

namespace OpaqueId
variable {kind : OpaqueKind} {size : ℕ}

theorem toFixedBytes_injective :
    Function.Injective (OpaqueId.toFixedBytes : OpaqueId kind size → FixedBytes size) := by
  rintro ⟨a⟩ ⟨b⟩ h
  exact congrArg _ h

instance : Ord (OpaqueId kind size) := ⟨compareOn OpaqueId.toFixedBytes⟩

instance : TransOrd (OpaqueId kind size) :=
  inferInstanceAs (TransCmp (compareOn OpaqueId.toFixedBytes))

instance : LawfulEqOrd (OpaqueId kind size) :=
  OrderedMap.lawfulEq_compareOn toFixedBytes_injective

def fromBytes (bytes : FixedBytes size) : OpaqueId kind size := ⟨bytes⟩

end OpaqueId

abbrev PeerId := OpaqueId .peer 32
abbrev EndpointId := OpaqueId .endpoint 16
abbrev ConnectionId := OpaqueId .connection 16
abbrev SessionId := OpaqueId .session 16

instance : TransOrd PeerId := inferInstanceAs (TransOrd (OpaqueId .peer 32))

structure ProtocolVersion where
  major : UInt16
  minor : UInt16
deriving DecidableEq, Repr

instance : Ord ProtocolVersion := ⟨compareOn fun v => (v.major, v.minor)⟩

instance : TransOrd ProtocolVersion :=
  inferInstanceAs (TransCmp (compareOn fun v : ProtocolVersion => (v.major, v.minor)))

instance : LawfulEqOrd ProtocolVersion :=
  OrderedMap.lawfulEq_compareOn (by
    rintro ⟨a, b⟩ ⟨c, d⟩ h
    simpa using h)

theorem u16_max_le (a b c : UInt16) : max a b ≤ c ↔ a ≤ c ∧ b ≤ c := by
  change (if a ≤ b then b else a) ≤ c ↔ _
  split <;> simp only [UInt16.le_iff_toNat_le] at * <;> omega

theorem u16_le_min (a b c : UInt16) : c ≤ min a b ↔ c ≤ a ∧ c ≤ b := by
  change c ≤ (if a ≤ b then a else b) ↔ _
  split <;> simp only [UInt16.le_iff_toNat_le] at * <;> omega

structure VersionRange where
  minimum : ProtocolVersion
  maximum : ProtocolVersion
deriving DecidableEq, Repr

namespace VersionRange

def isValid (r : VersionRange) : Bool :=
  r.minimum.major == r.maximum.major && decide (r.minimum.minor ≤ r.maximum.minor)

def negotiate (self other : VersionRange) : Option ProtocolVersion :=
  if !self.isValid || !other.isValid || self.minimum.major != other.minimum.major then none
  else
    let minimum := max self.minimum.minor other.minimum.minor
    let maximum := min self.maximum.minor other.maximum.minor
    if minimum ≤ maximum then some ⟨self.minimum.major, maximum⟩ else none

/-- A version inside a range of one major version. -/
def Contains (r : VersionRange) (v : ProtocolVersion) : Prop :=
  r.minimum.major = v.major ∧ r.maximum.major = v.major ∧
    r.minimum.minor ≤ v.minor ∧ v.minor ≤ r.maximum.minor

instance (r : VersionRange) (v : ProtocolVersion) : Decidable (r.Contains v) :=
  inferInstanceAs (Decidable (_ ∧ _ ∧ _ ∧ _))

theorem isValid_iff (r : VersionRange) :
    r.isValid = true ↔ r.minimum.major = r.maximum.major ∧ r.minimum.minor ≤ r.maximum.minor := by
  simp only [isValid, Bool.and_eq_true, beq_iff_eq, decide_eq_true_eq]

/-- What the two ranges settle on is inside both. -/
theorem negotiate_contains {a b : VersionRange} {v : ProtocolVersion}
    (h : a.negotiate b = some v) : a.Contains v ∧ b.Contains v := by
  unfold negotiate at h
  split at h
  · exact absurd h (by simp)
  · next hv =>
    simp only [Bool.or_eq_true, Bool.not_eq_true', bne_iff_ne, ne_eq, not_or,
      Bool.not_eq_false, not_not, isValid_iff] at hv
    -- Each range has one major version, and the two are equal.
    obtain ⟨⟨⟨ha, ha'⟩, hb, hb'⟩, hm⟩ := hv
    simp only at h
    split at h
    · next hle =>
      obtain rfl := Option.some.inj h
      obtain ⟨hla, hlb⟩ := (u16_max_le _ _ _).mp hle
      obtain ⟨hua, hub⟩ := (u16_le_min _ _ _).mp (UInt16.le_refl _)
      exact ⟨⟨rfl, ha.symm, hla, hua⟩, hm.symm, hb.symm.trans hm.symm, hlb, hub⟩
    · exact absurd h (by simp)

/-- Two ranges settle on the greatest version inside both, when there is one. -/
theorem negotiate_of_contains {a b : VersionRange} {v : ProtocolVersion} (ha : a.Contains v)
    (hb : b.Contains v) :
    ∃ w, a.negotiate b = some w ∧ v.major = w.major ∧ v.minor ≤ w.minor := by
  obtain ⟨ha1, ha2, ha3, ha4⟩ := ha
  obtain ⟨hb1, hb2, hb3, hb4⟩ := hb
  have hva : a.isValid = true := (isValid_iff a).mpr ⟨ha1.trans ha2.symm, UInt16.le_trans ha3 ha4⟩
  have hvb : b.isValid = true := (isValid_iff b).mpr ⟨hb1.trans hb2.symm, UInt16.le_trans hb3 hb4⟩
  have hlow : max a.minimum.minor b.minimum.minor ≤ v.minor := (u16_max_le _ _ _).mpr ⟨ha3, hb3⟩
  have hhigh : v.minor ≤ min a.maximum.minor b.maximum.minor := (u16_le_min _ _ _).mpr ⟨ha4, hb4⟩
  refine ⟨⟨a.minimum.major, min a.maximum.minor b.maximum.minor⟩, ?_, ha1.symm, hhigh⟩
  simp [negotiate, hva, hvb, ha1.trans hb1.symm, UInt16.le_trans hlow hhigh]

theorem negotiate_isSome_iff (a b : VersionRange) :
    (a.negotiate b).isSome ↔ ∃ v, a.Contains v ∧ b.Contains v := by
  constructor
  · intro h
    obtain ⟨v, hv⟩ := Option.isSome_iff_exists.mp h
    exact ⟨v, negotiate_contains hv⟩
  · rintro ⟨v, ha, hb⟩
    obtain ⟨w, hw, -⟩ := negotiate_of_contains ha hb
    exact Option.isSome_iff_exists.mpr ⟨w, hw⟩

theorem negotiate_eq_some_iff {a b : VersionRange} {v : ProtocolVersion} :
    a.negotiate b = some v ↔ (a.Contains v ∧ b.Contains v) ∧
      ∀ w, a.Contains w → b.Contains w → w.major = v.major ∧ w.minor ≤ v.minor := by
  constructor
  · intro h
    refine ⟨negotiate_contains h, fun w ha hb => ?_⟩
    obtain ⟨u, hu, hw⟩ := negotiate_of_contains ha hb
    obtain rfl := Option.some.inj (h.symm.trans hu)
    exact hw
  · rintro ⟨⟨ha, hb⟩, hmax⟩
    obtain ⟨w, hw, hmajor, hminor⟩ := negotiate_of_contains ha hb
    -- The settled version is inside both ranges, so it is not above `v` either.
    obtain ⟨hwa, hwb⟩ := negotiate_contains hw
    have hle : w.minor ≤ v.minor := (hmax w hwa hwb).2
    obtain ⟨vmajor, vminor⟩ := v
    obtain ⟨wmajor, wminor⟩ := w
    obtain rfl : vmajor = wmajor := hmajor
    obtain rfl : vminor = wminor := UInt16.le_antisymm hminor hle
    exact hw

/-- A one-version range is accepted exactly when the version is inside. -/
theorem negotiate_point_isSome (r : VersionRange) (v : ProtocolVersion) :
    (r.negotiate ⟨v, v⟩).isSome ↔ r.Contains v := by
  constructor
  · intro h
    obtain ⟨w, hw⟩ := Option.isSome_iff_exists.mp h
    obtain ⟨hr, hp⟩ := negotiate_contains hw
    -- The settled version is squeezed between the two ends of the point.
    have hv : w = v := by
      obtain ⟨h1, -, h2, h3⟩ := hp
      have hm : w.minor = v.minor := UInt16.le_antisymm h3 h2
      cases w
      cases v
      simp_all
    exact hv ▸ hr
  · rintro ⟨h1, h2, h3, h4⟩
    have hr : r.isValid = true := (isValid_iff r).mpr ⟨h1.trans h2.symm, UInt16.le_trans h3 h4⟩
    have hp : (⟨v, v⟩ : VersionRange).isValid = true := (isValid_iff _).mpr ⟨rfl, UInt16.le_refl _⟩
    have hmin : max r.minimum.minor v.minor ≤ min r.maximum.minor v.minor :=
      (u16_max_le _ _ _).mpr ⟨(u16_le_min _ _ _).mpr ⟨UInt16.le_trans h3 h4, h3⟩,
        (u16_le_min _ _ _).mpr ⟨h4, UInt16.le_refl _⟩⟩
    simp [negotiate, hr, hp, h1, hmin]

end VersionRange

structure Identity where
  peerId : PeerId
  endpointId : EndpointId
  connectionId : ConnectionId
deriving DecidableEq, Repr

inductive LimitKind where
  | frameBytes | streamBytes | nestingDepth | channels | pendingFrames | protocolOffers
  | identityProofBytes | eventSubscribers
deriving DecidableEq, Repr

inductive LinkError where
  | invalidInput (message : String)
  | invalidState (message : String)
  | limitExceeded (kind : LimitKind) (limit : ℕ)
  | backpressure (channel : UInt32) (capacity : ℕ)
  | unknownChannel (channel : UInt32)
  | closedChannel (channel : UInt32)
  | sessionMismatch
  | channelGenerationMismatch (channel : UInt32)
  | channelCancelled (channel : UInt32)
  | namespaceConflict
  | closed
deriving DecidableEq, Repr

inductive HandshakeErrorKind where
  | unexpectedMessage | incompatibleVersion | noSharedProtocol | protocolConflict
  | pairingDisabled | peerNotTrusted | identityRejected | limitExceeded | invalidConfirmation
deriving DecidableEq, Repr

structure HandshakeError where
  kind : HandshakeErrorKind
  publicMessage : String
deriving DecidableEq, Repr

end MutsukiLink
