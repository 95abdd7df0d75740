import MutsukiLink.TrustFormat

/-! Which record a stored form stands for, and that no form stands for a record that its own form
does not give back. -/
namespace MutsukiLink
open WireBytes
open Std (ExtTreeSet)

theorem tryIntoArray_eq_ok {n : ℕ} {bytes : Bytes} {a : FixedBytes n} :
    tryIntoArray n bytes = .ok a ↔ bytes = a.bytes := by
  constructor
  · intro h
    unfold tryIntoArray at h
    split_ifs at h
    exact congrArg FixedBytes.bytes (Except.ok.inj h)
  · intro h
    rw [h, tryIntoArray_bytes]

theorem mapM_decode32_eq_ok {stored : List Bytes} {fingerprints : List (FixedBytes 32)} :
    stored.mapM decode32 = .ok fingerprints ↔ stored = fingerprints.map FixedBytes.bytes := by
  constructor
  · intro h
    induction stored generalizing fingerprints with
    | nil =>
      obtain rfl : [] = fingerprints := Except.ok.inj h
      rfl
    | cons bytes stored ih =>
      rw [List.mapM_cons] at h
      cases hhead : decode32 bytes with
      | error fault =>
        rw [hhead] at h
        cases h
      | ok a =>
        cases hrest : stored.mapM decode32 with
        | error fault =>
          rw [hhead, hrest] at h
          cases h
        | ok rest =>
          rw [hhead, hrest] at h
          obtain rfl := Except.ok.inj h
          rw [List.map_cons, ← ih hrest, ← tryIntoArray_eq_ok.mp hhead]
  · intro h
    rw [h, mapM_decode32]

theorem toPermission_injective : Function.Injective PermissionDto.toPermission := by
  intro a b h
  cases a <;> cases b <;> simp_all [PermissionDto.toPermission]

/-- A permission is in the rebuilt set exactly when its form is in the list. -/
theorem mem_ofList_permissions (stored : List PermissionDto) (p : LinkPermission) :
    p ∈ ExtTreeSet.ofList (stored.map PermissionDto.toPermission) ↔
      PermissionDto.ofPermission p ∈ stored := by
  rw [ExtTreeSet.mem_ofList, List.contains_iff_mem, List.mem_map]
  constructor
  · intro h
    obtain ⟨dto, hdto, hp⟩ := h
    have hform : dto = PermissionDto.ofPermission p :=
      toPermission_injective (hp.trans (toPermission_ofPermission p).symm)
    exact hform ▸ hdto
  · intro h
    exact ⟨_, h, toPermission_ofPermission p⟩

namespace RecordDto

/-- The record that a form stands for, field by field. -/
structure Denotes (dto : RecordDto) (r : TrustRecord) : Prop where
  peerId : decodePeerId dto.peerId = .ok r.peerId
  publicKey : dto.publicKey = r.publicKey
  aliasName : dto.aliasName = r.aliasName
  firstPairedAtUnixMs : dto.firstPairedAtUnixMs = r.firstPairedAtUnixMs
  permissions : ∀ p, p ∈ r.permissions ↔ PermissionDto.ofPermission p ∈ dto.permissions
  keyState : dto.keyState.toKeyState = .ok r.keyState
  lastPairingChallengeHash : dto.lastPairingChallengeHash = r.lastPairingChallengeHash.bytes
  previousKeyFingerprints :
    dto.previousKeyFingerprints = r.previousKeyFingerprints.map FixedBytes.bytes

theorem denotes_ofRecord (r : TrustRecord) : (ofRecord r).Denotes r where
  peerId := decodePeerId_encode r.peerId
  publicKey := rfl
  aliasName := rfl
  firstPairedAtUnixMs := rfl
  permissions p := by
    have hset := mem_ofList_permissions (r.permissions.toList.map PermissionDto.ofPermission) p
    rwa [ofList_permissions] at hset
  keyState := toKeyState_ofKeyState r.keyState
  lastPairingChallengeHash := rfl
  previousKeyFingerprints := rfl

theorem Denotes.unique {dto : RecordDto} {r s : TrustRecord} (hr : dto.Denotes r)
    (hs : dto.Denotes s) : r = s := by
  have hfingerprints : r.previousKeyFingerprints = s.previousKeyFingerprints := by
    have hmap := hr.previousKeyFingerprints.symm.trans hs.previousKeyFingerprints
    exact List.map_injective_iff.mpr (fun _ _ => FixedBytes.ext_bytes) hmap
  have hpermissions : r.permissions = s.permissions := by
    apply ExtTreeSet.ext_mem
    intro p
    rw [hr.permissions, hs.permissions]
  -- The remaining fields are read from the form directly.
  cases r
  cases s
  congr 1
  · exact Except.ok.inj (hr.peerId.symm.trans hs.peerId)
  · exact hr.publicKey.symm.trans hs.publicKey
  · exact hr.aliasName.symm.trans hs.aliasName
  · exact hr.firstPairedAtUnixMs.symm.trans hs.firstPairedAtUnixMs
  · exact Except.ok.inj (hr.keyState.symm.trans hs.keyState)
  · exact FixedBytes.ext_bytes
      (hr.lastPairingChallengeHash.symm.trans hs.lastPairingChallengeHash)

/-- A form is accepted exactly when it stands for a record within the limits, and that record is
the answer. -/
theorem toRecord_eq_ok {dto : RecordDto} {r : TrustRecord} :
    dto.toRecord = .ok r ↔ dto.Denotes r ∧ validateRecord r = .ok () := by
  constructor
  · intro h
    simp only [toRecord, bind, Except.bind] at h
    -- The fields are decoded one after another, and the first that fails is the answer.
    cases hpeer : decodePeerId dto.peerId with
    | error fault => simp [hpeer] at h
    | ok peerId =>
      cases hchallenge : decode32 dto.lastPairingChallengeHash with
      | error fault => simp [hpeer, hchallenge] at h
      | ok challenge =>
        cases hprevious : dto.previousKeyFingerprints.mapM decode32 with
        | error fault => simp [hpeer, hchallenge, hprevious] at h
        | ok previous =>
          cases hstate : dto.keyState.toKeyState with
          | error fault => simp [hpeer, hchallenge, hprevious, hstate] at h
          | ok state =>
            simp only [hpeer, hchallenge, hprevious, hstate] at h
            split at h
            · cases h
            · rename_i hvalid
              obtain rfl := Except.ok.inj h
              exact ⟨⟨hpeer, rfl, rfl, rfl, mem_ofList_permissions dto.permissions, hstate,
                tryIntoArray_eq_ok.mp hchallenge, mapM_decode32_eq_ok.mp hprevious⟩, hvalid⟩
  · intro h
    obtain ⟨hdenotes, hvalid⟩ := h
    have hchallenge : decode32 dto.lastPairingChallengeHash = .ok r.lastPairingChallengeHash :=
      tryIntoArray_eq_ok.mpr hdenotes.lastPairingChallengeHash
    have hprevious := mapM_decode32_eq_ok.mpr hdenotes.previousKeyFingerprints
    -- The record that is built stands for the same form, so it is this one.
    have hbuilt := hdenotes.unique (s := {
      r with
      publicKey := dto.publicKey, aliasName := dto.aliasName
      firstPairedAtUnixMs := dto.firstPairedAtUnixMs
      permissions := ExtTreeSet.ofList (dto.permissions.map PermissionDto.toPermission) })
      ⟨hdenotes.peerId, rfl, rfl, rfl, mem_ofList_permissions dto.permissions, hdenotes.keyState,
        hdenotes.lastPairingChallengeHash, hdenotes.previousKeyFingerprints⟩
    simp only [toRecord, bind, Except.bind, hdenotes.peerId, hchallenge, hprevious,
      hdenotes.keyState, ← hbuilt, hvalid]

end RecordDto

/-- A record within the limits comes back from its form, and what any form gives is within the
limits and comes back from its own form. -/
theorem record_round_trip :
    (∀ r, validateRecord r = .ok () → (RecordDto.ofRecord r).toRecord = .ok r) ∧
    ∀ (dto : RecordDto) (r : TrustRecord), dto.toRecord = .ok r →
      validateRecord r = .ok () ∧ (RecordDto.ofRecord r).toRecord = .ok r := by
  have hback : ∀ r, validateRecord r = .ok () → (RecordDto.ofRecord r).toRecord = .ok r := by
    intro r hvalid
    exact RecordDto.toRecord_eq_ok.mpr ⟨RecordDto.denotes_ofRecord r, hvalid⟩
  refine ⟨hback, ?_⟩
  intro dto r h
  have hvalid := (RecordDto.toRecord_eq_ok.mp h).2
  exact ⟨hvalid, hback r hvalid⟩

/-- A form with upper-case digits and a repeated permission. -/
def rotatedDto : RecordDto where
  peerId := "ABCDEF0102030405060708090A0B0C0D0E0F101112131415161718191A1B1C1D"
  publicKey := [1, 2, 3]
  aliasName := "desk"
  firstPairedAtUnixMs := 5
  permissions := [.openNamespace "b", .connect, .openNamespace "a", .connect]
  keyState := .rotated 7 "0000000000000000000000000000000000000000000000000000000000000001"
  lastPairingChallengeHash := List.replicate 32 4
  previousKeyFingerprints := [List.replicate 32 6]

theorem record_round_trip_rotated :
    ∃ r, rotatedDto.toRecord = .ok r ∧ validateRecord r = .ok () ∧
      (RecordDto.ofRecord r).toRecord = .ok r := by
  obtain ⟨r, hr⟩ : ∃ r, rotatedDto.toRecord = .ok r := ⟨_, rfl⟩
  have hback := record_round_trip.2 rotatedDto r hr
  exact ⟨r, hr, hback.1, record_round_trip.1 r hback.1⟩

end MutsukiLink
