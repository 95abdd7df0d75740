import MutsukiLink.TrustJsonText
import MutsukiLink.RunHistory

/-! Runs of the file store: what each call can do, the limits that every reachable store keeps, and
a revocation that nothing but a new record for the same peer undoes. -/
namespace MutsukiLink
open WireBytes
open Std (ExtTreeMap ExtTreeSet)

def TrustStoreReply.failed : TrustStoreReply → Bool
  | .found (.error _) => true
  | .listed (.error _) => true
  | .done (.error _) => true
  | .removed (.error _) => true
  | .rotated (.error _) => true
  | _ => false

namespace FileTrustStore
variable {sha256 : Bytes → FixedBytes 32} {json : TrustJson}

/-- The store after a call that was persisted. -/
def saved (json : TrustJson) (s : FileTrustStore) (records : ExtTreeMap PeerId TrustRecord) :
    FileTrustStore :=
  { s with file := some (render json records), records }

theorem replace_cases (json : TrustJson) (s : FileTrustStore) (persists : PersistOutcome)
    (records : ExtTreeMap PeerId TrustRecord) :
    (∃ e, s.replace json persists records = (.error e, s)) ∨
    (persists = .saved ∧ s.replace json persists records = (.ok (), s.saved json records)) := by
  cases persists with
  | saved => exact .inr ⟨rfl, rfl⟩
  | renderFailed | ioFailed => exact .inl ⟨_, rfl⟩

theorem upsert_cases (json : TrustJson) (s : FileTrustStore) (persists : PersistOutcome)
    (record : TrustRecord) :
    (∃ e, s.upsert json persists record = (.error e, s)) ∨
    (persists = .saved ∧ validateRecord record = .ok () ∧
      (record.peerId ∈ s.records ∨ s.records.size < s.maxRecords) ∧
      s.upsert json persists record =
        (.ok (), s.saved json (s.records.insert record.peerId record))) := by
  unfold upsert
  split
  · exact .inl ⟨_, rfl⟩
  next hvalid =>
  split
  · exact .inl ⟨_, rfl⟩
  next hroom =>
  obtain ⟨e, heq⟩ | ⟨hpersists, heq⟩ :=
    replace_cases json s persists (s.records.insert record.peerId record)
  · exact .inl ⟨e, heq⟩
  · refine .inr ⟨hpersists, hvalid, ?_, heq⟩
    rw [not_and_or, Bool.not_eq_false, ExtTreeMap.contains_iff_mem, not_le] at hroom
    exact hroom

theorem remove_cases (json : TrustJson) (s : FileTrustStore) (persists : PersistOutcome)
    (peerId : PeerId) :
    (∃ e, s.remove json persists peerId = (.error e, s)) ∨
    (peerId ∉ s.records ∧ s.remove json persists peerId = (.ok false, s)) ∨
    (persists = .saved ∧ peerId ∈ s.records ∧
      s.remove json persists peerId = (.ok true, s.saved json (s.records.erase peerId))) := by
  unfold remove
  split
  · next hmem =>
    obtain ⟨e, heq⟩ | ⟨hpersists, heq⟩ := replace_cases json s persists (s.records.erase peerId)
    · rw [heq]
      exact .inl ⟨e, rfl⟩
    · rw [heq]
      exact .inr (.inr ⟨hpersists, ExtTreeMap.contains_iff_mem.mp hmem, rfl⟩)
  · next hmem => exact .inr (.inl ⟨mt ExtTreeMap.contains_iff_mem.mpr hmem, rfl⟩)

theorem revoke_cases (json : TrustJson) (s : FileTrustStore) (persists : PersistOutcome)
    (peerId : PeerId) (now : UInt64) :
    (∃ e, s.revoke json persists peerId now = (.error e, s)) ∨
    (∃ record, persists = .saved ∧ s.records[peerId]? = some record ∧
      s.revoke json persists peerId now = (.ok (), s.saved json
        (s.records.insert peerId { record with keyState := .revoked now }))) := by
  unfold revoke
  split
  · exact .inl ⟨_, rfl⟩
  next record hrecord =>
  obtain ⟨e, heq⟩ | ⟨hpersists, heq⟩ := replace_cases json s persists
    (s.records.insert peerId { record with keyState := .revoked now })
  · exact .inl ⟨e, heq⟩
  · exact .inr ⟨record, hpersists, hrecord, heq⟩

/-- The guards of `rotate` before it looks at the replacement. -/
structure Rotatable (s : FileTrustStore) (oldPeerId newPeerId : PeerId) (newPublicKey : Bytes)
    (old : TrustRecord) : Prop where
  key_ne : newPublicKey ≠ []
  peer_ne : newPeerId ≠ oldPeerId
  new_absent : newPeerId ∉ s.records
  room : s.records.size < s.maxRecords
  old_eq : s.records[oldPeerId]? = some old
  active : old.keyState = .active

/-- The records after a rotation. -/
def rotatedRecords (sha256 : Bytes → FixedBytes 32) (s : FileTrustStore)
    (oldPeerId newPeerId : PeerId) (newPublicKey : Bytes) (challengeHash : FixedBytes 32)
    (now : UInt64) (old : TrustRecord) : ExtTreeMap PeerId TrustRecord :=
  (s.records.insert oldPeerId { old with keyState := .rotated now newPeerId }).insert newPeerId
    (old.replacement sha256 newPeerId newPublicKey challengeHash)

/-- Past its guards, a rotation depends on the check of its replacement. -/
theorem Rotatable.rotate_eq {s : FileTrustStore} {oldPeerId newPeerId : PeerId}
    {newPublicKey : Bytes} {old : TrustRecord}
    (h : s.Rotatable oldPeerId newPeerId newPublicKey old) (challengeHash : FixedBytes 32)
    (now : UInt64) :
    s.rotate sha256 json .saved oldPeerId newPeerId newPublicKey challengeHash now =
      match validateRecord (old.replacement sha256 newPeerId newPublicKey challengeHash) with
      | .error e => (.error e, s)
      | .ok () => (.ok (old.replacement sha256 newPeerId newPublicKey challengeHash), s.saved json
          (s.rotatedRecords sha256 oldPeerId newPeerId newPublicKey challengeHash now old)) := by
  have hactive : old.isActive = true := by simp [TrustRecord.isActive, h.active]
  rw [rotate, if_neg (not_or.mpr ⟨h.key_ne, h.peer_ne⟩),
    if_neg (mt ExtTreeMap.contains_iff_mem.mp h.new_absent), if_neg (not_le.mpr h.room), h.old_eq]
  simp only [hactive, Bool.not_true, Bool.false_eq_true, if_false]
  rfl

theorem rotate_cases (sha256 : Bytes → FixedBytes 32) (json : TrustJson) (s : FileTrustStore)
    (persists : PersistOutcome) (oldPeerId newPeerId : PeerId) (newPublicKey : Bytes)
    (challengeHash : FixedBytes 32) (now : UInt64) :
    (∃ e, s.rotate sha256 json persists oldPeerId newPeerId newPublicKey challengeHash now =
      (.error e, s)) ∨
    (∃ old, persists = .saved ∧ s.Rotatable oldPeerId newPeerId newPublicKey old ∧
      validateRecord (old.replacement sha256 newPeerId newPublicKey challengeHash) = .ok () ∧
      s.rotate sha256 json persists oldPeerId newPeerId newPublicKey challengeHash now =
        (.ok (old.replacement sha256 newPeerId newPublicKey challengeHash), s.saved json
          (s.rotatedRecords sha256 oldPeerId newPeerId newPublicKey challengeHash now old))) := by
  unfold rotate
  split
  · exact .inl ⟨_, rfl⟩
  next hparameters =>
  split
  · exact .inl ⟨_, rfl⟩
  next habsent =>
  split
  · exact .inl ⟨_, rfl⟩
  next hroom =>
  split
  · exact .inl ⟨_, rfl⟩
  next old hold =>
  split
  · exact .inl ⟨_, rfl⟩
  next hactive =>
  simp only
  split
  · exact .inl ⟨_, rfl⟩
  next hvalid =>
  -- All checks have passed; what is left to fail is the writing of the file.
  obtain ⟨e, heq⟩ | ⟨hpersists, heq⟩ := replace_cases json s persists
    (s.rotatedRecords sha256 oldPeerId newPeerId newPublicKey challengeHash now old) <;>
    rw [rotatedRecords] at heq <;> rw [heq]
  · exact .inl ⟨e, rfl⟩
  · rw [ExtTreeMap.contains_iff_mem] at habsent
    exact .inr ⟨old, hpersists, ⟨(not_or.mp hparameters).1, (not_or.mp hparameters).2, habsent,
      not_le.mp hroom, hold, by simpa [TrustRecord.isActive] using hactive⟩, hvalid, rfl⟩

/-- The records that a successful call leaves in the place of those it found. -/
inductive Change (sha256 : Bytes → FixedBytes 32) (s : FileTrustStore) :
    TrustStoreOp → ExtTreeMap PeerId TrustRecord → Prop
  | upsert {record : TrustRecord} (valid : validateRecord record = .ok ())
      (room : record.peerId ∈ s.records ∨ s.records.size < s.maxRecords) :
      Change sha256 s (.upsert record) (s.records.insert record.peerId record)
  | remove {peerId : PeerId} (mem : peerId ∈ s.records) :
      Change sha256 s (.remove peerId) (s.records.erase peerId)
  | revoke {peerId : PeerId} {now : UInt64} {record : TrustRecord}
      (found : s.records[peerId]? = some record) : Change sha256 s (.revoke peerId now)
        (s.records.insert peerId { record with keyState := .revoked now })
  | rotate {oldPeerId newPeerId : PeerId} {newPublicKey : Bytes} {challengeHash : FixedBytes 32}
      {now : UInt64} {old : TrustRecord}
      (rotatable : s.Rotatable oldPeerId newPeerId newPublicKey old)
      (valid : validateRecord (old.replacement sha256 newPeerId newPublicKey challengeHash) =
        .ok ()) :
      Change sha256 s (.rotate oldPeerId newPeerId newPublicKey challengeHash now)
        (s.rotatedRecords sha256 oldPeerId newPeerId newPublicKey challengeHash now old)

/-- A call keeps the store, or succeeds and stores new records. -/
theorem step_cases (sha256 : Bytes → FixedBytes 32) (json : TrustJson) (s : FileTrustStore)
    (call : PersistOutcome × TrustStoreOp) :
    (s.step sha256 json call).2 = s ∨
    ∃ records, call.1 = .saved ∧ (s.step sha256 json call).1.failed = false ∧
      Change sha256 s call.2 records ∧ (s.step sha256 json call).2 = s.saved json records := by
  obtain ⟨persists, op⟩ := call
  cases op with
  | get peerId => exact .inl rfl
  | list => exact .inl rfl
  | upsert record =>
    obtain ⟨e, heq⟩ | ⟨hpersists, hvalid, hroom, heq⟩ := upsert_cases json s persists record <;>
      simp only [step, heq, Prod.map_fst, Prod.map_snd, id]
    · exact .inl trivial
    · exact .inr ⟨_, hpersists, rfl, .upsert hvalid hroom, rfl⟩
  | remove peerId =>
    obtain ⟨e, heq⟩ | ⟨-, heq⟩ | ⟨hpersists, hmem, heq⟩ := remove_cases json s persists peerId <;>
      simp only [step, heq, Prod.map_fst, Prod.map_snd, id]
    · exact .inl trivial
    · exact .inl trivial
    · exact .inr ⟨_, hpersists, rfl, .remove hmem, rfl⟩
  | revoke peerId now =>
    obtain ⟨e, heq⟩ | ⟨record, hpersists, hfound, heq⟩ :=
      revoke_cases json s persists peerId now <;>
      simp only [step, heq, Prod.map_fst, Prod.map_snd, id]
    · exact .inl trivial
    · exact .inr ⟨_, hpersists, rfl, .revoke hfound, rfl⟩
  | rotate oldPeerId newPeerId newPublicKey challengeHash now =>
    obtain ⟨e, heq⟩ | ⟨old, hpersists, hrotatable, hvalid, heq⟩ := rotate_cases sha256 json s
      persists oldPeerId newPeerId newPublicKey challengeHash now <;>
      simp only [step, heq, Prod.map_fst, Prod.map_snd, id]
    · exact .inl trivial
    · exact .inr ⟨_, hpersists, rfl, .rotate hrotatable hvalid, rfl⟩

/-- What every reachable store keeps. -/
structure StoreInv (s : FileTrustStore) : Prop where
  own_id : ∀ (peerId : PeerId) (r : TrustRecord), s.records[peerId]? = some r → r.peerId = peerId
  valid : ∀ (peerId : PeerId) (r : TrustRecord), s.records[peerId]? = some r →
    validateRecord r = .ok ()
  size_le : s.records.size ≤ s.maxRecords

theorem size_insert_of_mem (records : ExtTreeMap PeerId TrustRecord) {peerId : PeerId}
    (h : peerId ∈ records) (r : TrustRecord) : (records.insert peerId r).size = records.size := by
  rw [ExtTreeMap.size_insert, if_pos (ExtTreeMap.contains_iff_mem.mpr h)]

/-- Writing one record that is in its place and within its limits. -/
theorem StoreInv.insert {s : FileTrustStore} (h : s.StoreInv) {peerId : PeerId} {r : TrustRecord}
    (hid : r.peerId = peerId) (hvalid : validateRecord r = .ok ())
    (hroom : peerId ∈ s.records ∨ s.records.size < s.maxRecords) (file : Option Bytes) :
    StoreInv { s with file, records := s.records.insert peerId r } := by
  refine ⟨fun other r' hr => ?_, fun other r' hr => ?_, ?_⟩
  · simp only [ExtTreeMap.getElem?_insert] at hr
    split at hr
    · next heq => rw [← Option.some.inj hr, hid, Std.compare_eq_iff_eq.mp heq]
    · exact h.own_id other r' hr
  · simp only [ExtTreeMap.getElem?_insert] at hr
    split at hr
    · rwa [← Option.some.inj hr]
    · exact h.valid other r' hr
  · change (s.records.insert peerId r).size ≤ s.maxRecords
    rcases hroom with hmem | hlt
    · rw [size_insert_of_mem _ hmem]
      exact h.size_le
    · have := ExtTreeMap.size_insert_le (t := s.records) (k := peerId) (v := r)
      omega

theorem StoreInv.erase {s : FileTrustStore} (h : s.StoreInv) (peerId : PeerId)
    (file : Option Bytes) : StoreInv { s with file, records := s.records.erase peerId } := by
  -- What is left was there before.
  have hkept {other : PeerId} {r : TrustRecord} (hr : (s.records.erase peerId)[other]? = some r) :
      s.records[other]? = some r := by
    rw [ExtTreeMap.getElem?_erase] at hr
    split at hr
    · cases hr
    · exact hr
  exact ⟨fun other r hr => h.own_id other r (hkept hr),
    fun other r hr => h.valid other r (hkept hr), ExtTreeMap.size_erase_le.trans h.size_le⟩

theorem mem_of_getElem? {records : ExtTreeMap PeerId TrustRecord} {peerId : PeerId}
    {r : TrustRecord} (h : records[peerId]? = some r) : peerId ∈ records :=
  ExtTreeMap.mem_iff_isSome_getElem?.mpr (by rw [h]; rfl)

theorem StoreInv.change {s : FileTrustStore} (h : s.StoreInv) {op : TrustStoreOp}
    {records : ExtTreeMap PeerId TrustRecord} (hc : Change sha256 s op records) :
    (s.saved json records).StoreInv := by
  cases hc with
  | upsert valid room => exact h.insert rfl valid room _
  | @remove peerId mem => exact h.erase peerId _
  | @revoke peerId now record found =>
    exact h.insert (r := { record with keyState := .revoked now }) (h.own_id peerId record found)
      (h.valid peerId record found) (.inl (mem_of_getElem? found)) _
  | @rotate oldPeerId newPeerId newPublicKey challengeHash now old rotatable valid =>
    -- Two writes: the old record in its place, then the new one in the room that was left.
    have hold : oldPeerId ∈ s.records := mem_of_getElem? rotatable.old_eq
    have hfirst := h.insert (r := { old with keyState := .rotated now newPeerId })
      (h.own_id oldPeerId old rotatable.old_eq) (h.valid oldPeerId old rotatable.old_eq)
      (.inl hold) s.file
    refine hfirst.insert rfl valid (.inr ?_) _
    rw [size_insert_of_mem _ hold]
    exact rotatable.room

theorem StoreInv.step {s : FileTrustStore} (h : s.StoreInv) (call : PersistOutcome × TrustStoreOp) :
    (s.step sha256 json call).2.StoreInv := by
  obtain heq | ⟨records, -, -, hchange, heq⟩ := step_cases sha256 json s call
  · rwa [heq]
  · rw [heq]
    exact h.change hchange

theorem StoreInv.of_empty {s : FileTrustStore} (h : s.records = ∅) : s.StoreInv := by
  refine ⟨fun peerId r hr => ?_, fun peerId r hr => ?_, ?_⟩ <;> simp [h] at *

theorem maxRecords_step (s : FileTrustStore) (call : PersistOutcome × TrustStoreOp) :
    (s.step sha256 json call).2.maxRecords = s.maxRecords := by
  obtain heq | ⟨records, -, -, -, heq⟩ := step_cases sha256 json s call <;> rw [heq]
  rfl

/-- The limits, the own names and the validity of every record, all along a run. -/
theorem run_inv (sha256 : Bytes → FixedBytes 32) (json : TrustJson) {s : FileTrustStore}
    (h : s.StoreInv) (calls : List (PersistOutcome × TrustStoreOp)) :
    (RunHistory.run (FileTrustStore.step sha256 json) s calls).StoreInv ∧
      (RunHistory.run (FileTrustStore.step sha256 json) s calls).maxRecords = s.maxRecords :=
  RunHistory.run_invariant _ (I := fun t => t.StoreInv ∧ t.maxRecords = s.maxRecords)
    (fun t call ht => ⟨ht.1.step call, (maxRecords_step t call).trans ht.2⟩) ⟨h, rfl⟩ calls

/-- A peer whose key was withdrawn: it has a record, and the record is not active. -/
def Withdrawn (s : FileTrustStore) (peerId : PeerId) : Prop :=
  ∃ r, s.records[peerId]? = some r ∧ r.keyState ≠ .active

/-- A call that may give a peer a new record: it writes one, or makes room for a rotation to. -/
def Renews (peerId : PeerId) : TrustStoreOp → Prop
  | .upsert record => record.peerId = peerId
  | .remove removed => removed = peerId
  | _ => False

theorem Withdrawn.change {s : FileTrustStore} {peerId : PeerId} (h : s.Withdrawn peerId)
    {op : TrustStoreOp} (hop : ¬Renews peerId op) {records : ExtTreeMap PeerId TrustRecord}
    (hc : Change sha256 s op records) : (s.saved json records).Withdrawn peerId := by
  obtain ⟨r, hr, hstate⟩ := h
  -- Writing elsewhere keeps the record.
  have helse {other : PeerId} (hne : other ≠ peerId) (r' : TrustRecord) :
      (s.records.insert other r')[peerId]? = some r := by
    rw [ExtTreeMap.getElem?_insert, if_neg (mt Std.compare_eq_iff_eq.mp hne), hr]
  cases hc with
  | upsert valid room => exact ⟨r, helse hop _, hstate⟩
  | @remove removed mem =>
    refine ⟨r, ?_, hstate⟩
    rw [saved, ExtTreeMap.getElem?_erase, if_neg (mt Std.compare_eq_iff_eq.mp hop), hr]
  | @revoke revoked now record found =>
    by_cases hid : revoked = peerId
    · subst hid
      exact ⟨_, ExtTreeMap.getElem?_insert_self, nofun⟩
    · exact ⟨r, helse hid _, hstate⟩
  | @rotate oldPeerId newPeerId newPublicKey challengeHash now old rotatable valid =>
    have hnew : newPeerId ≠ peerId := fun heq =>
      rotatable.new_absent (heq ▸ mem_of_getElem? hr)
    have hold : oldPeerId ≠ peerId := by
      -- Only an active record rotates.
      rintro rfl
      rw [rotatable.old_eq] at hr
      exact hstate (Option.some.inj hr ▸ rotatable.active)
    refine ⟨r, ?_, hstate⟩
    rw [saved, rotatedRecords, ExtTreeMap.getElem?_insert,
      if_neg (mt Std.compare_eq_iff_eq.mp hnew)]
    exact helse hold _

theorem Withdrawn.run {s : FileTrustStore} {peerId : PeerId} (h : s.Withdrawn peerId)
    (calls : List (PersistOutcome × TrustStoreOp))
    (hcalls : ∀ call ∈ calls, ¬Renews peerId call.2) :
    (RunHistory.run (FileTrustStore.step sha256 json) s calls).Withdrawn peerId := by
  induction calls generalizing s with
  | nil => exact h
  | cons call rest ih =>
    refine ih ?_ fun c hc => hcalls c (List.mem_cons_of_mem _ hc)
    obtain heq | ⟨records, -, -, hchange, heq⟩ := step_cases sha256 json s call
    · rwa [heq]
    · rw [heq]
      exact h.change (hcalls call List.mem_cons_self) hchange

theorem Withdrawn.refused {s : FileTrustStore} {peerId : PeerId} (h : s.Withdrawn peerId)
    (key : Bytes) : ∃ fault, authorizeTrustedReconnect ((s.get peerId).mapError .failed) key =
      .error fault := by
  obtain ⟨r, hr, hstate⟩ := h
  simp only [get, hr, Except.mapError, authorizeTrustedReconnect]
  cases validateRecord r with
  | error e => exact ⟨_, rfl⟩
  | ok _ =>
    cases hkey : r.keyState with
    | active => exact absurd hkey hstate
    | revoked revokedAt => exact ⟨_, rfl⟩
    | rotated rotatedAt newPeerId => exact ⟨_, rfl⟩

/-- A call that withdraws the key of a peer when it succeeds. -/
inductive Withdraws (peerId : PeerId) : TrustStoreOp → Prop
  | revoke (now : UInt64) : Withdraws peerId (.revoke peerId now)
  | rotate (newPeerId : PeerId) (newPublicKey : Bytes) (challengeHash : FixedBytes 32)
      (now : UInt64) : Withdraws peerId (.rotate peerId newPeerId newPublicKey challengeHash now)

theorem Withdraws.withdrawn {s : FileTrustStore} {peerId : PeerId}
    {call : PersistOutcome × TrustStoreOp} (h : Withdraws peerId call.2)
    (hok : (s.step sha256 json call).1.failed = false) :
    (s.step sha256 json call).2.Withdrawn peerId := by
  obtain ⟨persists, op⟩ := call
  cases h with
  | revoke now =>
    obtain ⟨e, heq⟩ | ⟨record, -, hfound, heq⟩ := revoke_cases json s persists peerId now <;>
      simp only [step, heq, Prod.map_fst, Prod.map_snd, id] at hok ⊢
    · cases hok
    · exact ⟨_, ExtTreeMap.getElem?_insert_self, nofun⟩
  | rotate newPeerId newPublicKey challengeHash now =>
    obtain ⟨e, heq⟩ | ⟨old, -, hrotatable, hvalid, heq⟩ := rotate_cases sha256 json s
      persists peerId newPeerId newPublicKey challengeHash now <;>
      simp only [step, heq, Prod.map_fst, Prod.map_snd, id] at hok ⊢
    · cases hok
    · refine ⟨{ old with keyState := .rotated now newPeerId }, ?_, nofun⟩
      rw [saved, rotatedRecords, ExtTreeMap.getElem?_insert,
        if_neg (mt Std.compare_eq_iff_eq.mp hrotatable.peer_ne)]
      exact ExtTreeMap.getElem?_insert_self

/-- A rotation that succeeds writes the two records and nothing else. -/
theorem rotate_writes {s : FileTrustStore} {persists : PersistOutcome}
    {oldPeerId newPeerId : PeerId} {newPublicKey : Bytes} {challengeHash : FixedBytes 32}
    {now : UInt64}
    (hok : (s.step sha256 json
      (persists, .rotate oldPeerId newPeerId newPublicKey challengeHash now)).1.failed = false) :
    ∃ old, s.records[oldPeerId]? = some old ∧ newPeerId ≠ oldPeerId ∧ newPeerId ∉ s.records ∧
      ∀ peerId, (s.step sha256 json (persists,
          .rotate oldPeerId newPeerId newPublicKey challengeHash now)).2.records[peerId]? =
        if peerId = oldPeerId then some { old with keyState := .rotated now newPeerId }
        else if peerId = newPeerId then
          some (old.replacement sha256 newPeerId newPublicKey challengeHash)
        else s.records[peerId]? := by
  obtain ⟨e, heq⟩ | ⟨old, -, hrotatable, -, heq⟩ := rotate_cases sha256 json s
    persists oldPeerId newPeerId newPublicKey challengeHash now <;>
    simp only [step, heq, Prod.map_fst, Prod.map_snd, id] at hok ⊢
  · cases hok
  · refine ⟨old, hrotatable.old_eq, hrotatable.peer_ne, hrotatable.new_absent, fun peerId => ?_⟩
    rw [saved, rotatedRecords, ExtTreeMap.getElem?_insert, ExtTreeMap.getElem?_insert]
    simp only [Std.compare_eq_iff_eq]
    by_cases hold : peerId = oldPeerId
    · rw [if_pos hold, if_neg (hold ▸ hrotatable.peer_ne), if_pos hold.symm]
    · rw [if_neg hold, if_neg (Ne.symm hold)]
      by_cases hnew : peerId = newPeerId
      · rw [if_pos hnew, if_pos hnew.symm]
      · rw [if_neg hnew, if_neg (Ne.symm hnew)]

/-- Whatever calls are made on an empty store, and whichever of their writes fail. -/
theorem file_store_runs (sha256 : Bytes → FixedBytes 32) (json : TrustJson) {s₀ : FileTrustStore}
    (hempty : s₀.records = ∅) (calls : List (PersistOutcome × TrustStoreOp)) :
    let s := RunHistory.run (FileTrustStore.step sha256 json) s₀ calls
    (∀ (peerId : PeerId) (r : TrustRecord), s.records[peerId]? = some r →
      r.peerId = peerId ∧ validateRecord r = .ok ()) ∧
    s.records.size ≤ s₀.maxRecords ∧
    (∀ call, (s.step sha256 json call).1.failed = true → (s.step sha256 json call).2 = s) ∧
    (∀ peerId call more, Withdraws peerId call.2 → (s.step sha256 json call).1.failed = false →
      (∀ c ∈ more, ¬Renews peerId c.2) → ∀ key, ∃ fault, authorizeTrustedReconnect
        (((RunHistory.run (FileTrustStore.step sha256 json) (s.step sha256 json call).2
          more).get peerId).mapError .failed) key = .error fault) ∧
    (∀ persists oldPeerId newPeerId newPublicKey challengeHash now,
      let t := s.step sha256 json
        (persists, .rotate oldPeerId newPeerId newPublicKey challengeHash now)
      t.1.failed = false → ∃ old, s.records[oldPeerId]? = some old ∧ newPeerId ≠ oldPeerId ∧
        newPeerId ∉ s.records ∧ ∀ peerId, t.2.records[peerId]? =
          if peerId = oldPeerId then some { old with keyState := .rotated now newPeerId }
          else if peerId = newPeerId then some
            { peerId := newPeerId, publicKey := newPublicKey, keyState := .active
              lastPairingChallengeHash := challengeHash, aliasName := old.aliasName
              permissions := old.permissions, firstPairedAtUnixMs := old.firstPairedAtUnixMs
              previousKeyFingerprints :=
                old.previousKeyFingerprints ++ [sha256 old.publicKey] }
          else s.records[peerId]?) := by
  intro s
  obtain ⟨hinv, hmax⟩ := run_inv sha256 json (.of_empty hempty) calls
  refine ⟨fun peerId r hr => ⟨hinv.own_id peerId r hr, hinv.valid peerId r hr⟩,
    hmax ▸ hinv.size_le, fun call hfailed => ?_, fun peerId call more hw hok hmore key => ?_, ?_⟩
  · obtain heq | ⟨records, -, hok, -⟩ := step_cases sha256 json s call
    · exact heq
    · rw [hok] at hfailed
      cases hfailed
  · -- A withdrawn peer stays so until a call renews it.
    exact ((hw.withdrawn hok).run more hmore).refused key
  · intro persists oldPeerId newPeerId newPublicKey challengeHash now t hok
    exact rotate_writes hok

end FileTrustStore

namespace Sample

/-- The digest of the three letters of `trustedKey`. -/
def sha256 (_ : Bytes) : FixedBytes 32 :=
  ⟨[186, 120, 22, 191, 143, 1, 207, 234, 65, 65, 64, 222, 93, 174, 34, 35, 176, 3, 97, 163, 150, 23,
    122, 156, 180, 16, 255, 97, 242, 0, 21, 173], rfl⟩

def trustedKey : Bytes := [97, 98, 99]

def trustedPeer (n : UInt8) : PeerId := .fromBytes ⟨List.replicate 32 n, List.length_replicate⟩

def trustRecord (n : UInt8) : TrustRecord :=
  { peerId := trustedPeer n, publicKey := trustedKey, aliasName := "desk", firstPairedAtUnixMs := 5
    permissions := ExtTreeSet.ofList [LinkPermission.connect], keyState := .active
    lastPairingChallengeHash := ⟨List.replicate 32 0, List.length_replicate⟩
    previousKeyFingerprints := [] }

def emptyFileStore : FileTrustStore :=
  { file := some (FileTrustStore.render TrustJsonText.serdeJson ∅), records := ∅, maxRecords := 4 }

def rotation : TrustStoreOp :=
  .rotate (trustedPeer 1) (trustedPeer 2) [100]
    ⟨List.replicate 32 9, List.length_replicate⟩ 30

end Sample

namespace FileTrustStore

/-- A peer rotates to a second id; its first id stays refused when the second one is revoked. -/
theorem sample_rotation_withdraws_old_key :
    let step := FileTrustStore.step Sample.sha256 TrustJsonText.serdeJson
    let s := RunHistory.run step Sample.emptyFileStore [(.saved, .upsert (Sample.trustRecord 1))]
    s.records.size = 1 ∧ (step s (.saved, Sample.rotation)).1.failed = false ∧
    (step s (.ioFailed, Sample.rotation)).1.failed = true ∧
    (step s (.ioFailed, Sample.rotation)).2 = s ∧
    (∀ key, ∃ fault, authorizeTrustedReconnect
      (((RunHistory.run step (step s (.saved, Sample.rotation)).2
        [(.saved, .revoke (Sample.trustedPeer 2) 40)]).get (Sample.trustedPeer 1)).mapError
          .failed) key = .error fault) ∧
    (step s (.saved, Sample.rotation)).2.records[Sample.trustedPeer 1]? =
      some { Sample.trustRecord 1 with keyState := .rotated 30 (Sample.trustedPeer 2) } := by
  intro step s
  have hempty : Sample.emptyFileStore.records = ∅ := rfl
  obtain ⟨-, -, hfails, hwithdrawn, hrotated⟩ := file_store_runs Sample.sha256
    TrustJsonText.serdeJson hempty [(.saved, .upsert (Sample.trustRecord 1))]
  have hok : (step s (.saved, Sample.rotation)).1.failed = false := rfl
  obtain ⟨old, hold, -, -, hall⟩ := hrotated .saved _ _ _ _ _ hok
  have hold : old = Sample.trustRecord 1 := (Option.some.inj hold).symm
  refine ⟨rfl, hok, rfl, hfails (.ioFailed, Sample.rotation) rfl,
    hwithdrawn (Sample.trustedPeer 1) (.saved, Sample.rotation)
      [(.saved, .revoke (Sample.trustedPeer 2) 40)] (.rotate _ _ _ _) hok (by simp [Renews]), ?_⟩
  rw [← hold]
  exact (hall (Sample.trustedPeer 1)).trans (if_pos rfl)

end FileTrustStore

end MutsukiLink
