import MutsukiLink.FileTrustRuns

/-! The two stores driven by the same calls. They answer alike and hold the same records until a
rotation is refused for its replacement: the keyring has then already given up the old key. -/
namespace MutsukiLink
open WireBytes
open Std (ExtTreeMap ExtTreeSet)

/-- Both calls fail, or both succeed with the same value. -/
def SameOutcome {α : Type} : Except TrustFault α → Except TrustFault α → Prop
  | .ok a, .ok b => a = b
  | .error _, .error _ => True
  | _, _ => False

def TrustStoreReply.Agrees : TrustStoreReply → TrustStoreReply → Prop
  | .found a, .found b => SameOutcome a b
  | .listed a, .listed b => SameOutcome a b
  | .done a, .done b => SameOutcome a b
  | .removed a, .removed b => SameOutcome a b
  | .rotated a, .rotated b => SameOutcome a b
  | _, _ => False

/-- The stores hold the same records, one by one and as a list. -/
def SameRecords (json : TrustJson) (f : FileTrustStore) (k : SystemKeyringTrustStore) : Prop :=
  (∀ peerId, k.get json peerId = .ok f.records[peerId]?) ∧
    k.list json = .ok (OrderedMap.values f.records)

namespace SystemKeyringTrustStore
variable {sha256 : Bytes → FixedBytes 32} {json : TrustJson} {f : FileTrustStore}
  {k : SystemKeyringTrustStore}

/-- Sixty-four digits are not the name of the index. -/
theorem entryName_ne_indexName (peerId : PeerId) : entryName peerId ≠ indexName := by
  intro h
  have hlen : (utf8 (entryName peerId)).length = 64 := by
    rw [entryName, utf8_encode, length_hexPairs, peerId.size_eq]
  rw [h] at hlen
  exact absurd hlen (by decide)

theorem entryName_injective {a b : PeerId} (h : entryName a = entryName b) : a = b :=
  encode_injective h

/-- The keyring holds each record of the file under the name of its peer, and nothing else that
looks like one. -/
structure Mirrors (json : TrustJson) (f : FileTrustStore) (k : SystemKeyringTrustStore) : Prop where
  inv : f.StoreInv
  limit : k.maxRecords = f.maxRecords
  known : ∀ peerId, peerId ∈ k.knownPeers ↔ peerId ∈ f.records
  entries : ∀ peerId, k.entries[entryName peerId]? =
    f.records[peerId]?.map fun r => json.recordToString (.ofRecord r)

theorem Mirrors.get (h : Mirrors json f k) (peerId : PeerId) :
    k.get json peerId = .ok f.records[peerId]? := by
  rw [SystemKeyringTrustStore.get, h.entries]
  cases hr : f.records[peerId]? with
  | none => rfl
  | some r =>
    simp only [Option.map_some, json.recordFromStr_toString,
      toRecord_ofRecord (h.inv.valid peerId r hr)]
    rfl

theorem Mirrors.toList (h : Mirrors json f k) : k.knownPeers.toList = f.records.keys :=
  OrderedMap.toList_eq_keys _ _ h.known

theorem Mirrors.size (h : Mirrors json f k) : k.knownPeers.size = f.records.size := by
  rw [← ExtTreeSet.length_toList, h.toList, ExtTreeMap.length_keys]

theorem Mirrors.contains (h : Mirrors json f k) (peerId : PeerId) :
    k.knownPeers.contains peerId = f.records.contains peerId := by
  rw [Bool.eq_iff_iff, ExtTreeSet.contains_iff_mem, ExtTreeMap.contains_iff_mem, h.known]

theorem mapM_ok {α β : Type} {g : α → Except TrustFault β} {value : α → β}
    (h : ∀ a, g a = .ok (value a)) (l : List α) : l.mapM g = .ok (l.map value) := by
  induction l with
  | nil => rfl
  | cons a rest ih =>
    rw [List.mapM_cons, ih, h]
    rfl

theorem Mirrors.list (h : Mirrors json f k) :
    k.list json = .ok (OrderedMap.values f.records) := by
  rw [SystemKeyringTrustStore.list, mapM_ok h.get, h.toList]
  simp only [Except.map, List.filterMap_map, Function.id_comp, OrderedMap.filterMap_keys]

theorem Mirrors.sameRecords (h : Mirrors json f k) : SameRecords json f k := ⟨h.get, h.list⟩

/-- The keyring after a record was written. -/
def written (json : TrustJson) (k : SystemKeyringTrustStore) (record : TrustRecord) :
    SystemKeyringTrustStore :=
  { k with
    entries := (k.entries.insert (entryName record.peerId)
      (json.recordToString (.ofRecord record))).insert indexName
        (json.indexToString ((k.knownPeers.insert record.peerId).toList.map entryName))
    knownPeers := k.knownPeers.insert record.peerId }

theorem upsert_eq (h : Mirrors json f k) (record : TrustRecord) :
    k.upsert json record = match validateRecord record with
      | .error e => (.error (.failed e), k)
      | .ok () =>
        if f.records.contains record.peerId = false ∧ f.maxRecords ≤ f.records.size then
          (.error (.failed limitError), k)
        else (.ok (), k.written json record) := by
  rw [← h.contains, ← h.limit, ← h.size]
  rfl

theorem Mirrors.written (h : Mirrors json f k) {record : TrustRecord}
    (hvalid : validateRecord record = .ok ())
    (hroom : record.peerId ∈ f.records ∨ f.records.size < f.maxRecords) (file : Option Bytes) :
    Mirrors json { f with file, records := f.records.insert record.peerId record }
      (k.written json record) := by
  refine ⟨h.inv.insert rfl hvalid hroom file, h.limit, fun peerId => ?_, fun peerId => ?_⟩
  · simp only [SystemKeyringTrustStore.written, ExtTreeSet.mem_insert, ExtTreeMap.mem_insert,
      h.known]
  · simp only [SystemKeyringTrustStore.written, ExtTreeMap.getElem?_insert,
      Std.compare_eq_iff_eq, if_neg (entryName_ne_indexName peerId).symm]
    by_cases hid : record.peerId = peerId
    · rw [if_pos hid, if_pos (congrArg entryName hid)]
      rfl
    · rw [if_neg hid, if_neg (mt entryName_injective hid), h.entries]

theorem upsert_accepted (h : Mirrors json f k) {record : TrustRecord}
    (hvalid : validateRecord record = .ok ())
    (hroom : record.peerId ∈ f.records ∨ f.records.size < f.maxRecords) :
    k.upsert json record = (.ok (), k.written json record) := by
  rw [upsert_eq h, hvalid]
  simp only
  rw [if_neg]
  rintro ⟨habsent, hfull⟩
  rcases hroom with hmem | hlt
  · rw [ExtTreeMap.contains_iff_mem.mpr hmem] at habsent
    cases habsent
  · omega

/-- One call on both stores: the outcomes agree and the stores stay each other's mirror. -/
structure Together {α : Type} (json : TrustJson)
    (a : Except TrustStoreError α × FileTrustStore)
    (b : Except TrustFault α × SystemKeyringTrustStore) : Prop where
  outcome : SameOutcome (a.1.mapError .failed) b.1
  mirrors : Mirrors json a.2 b.2

theorem Mirrors.upsert (h : Mirrors json f k) (record : TrustRecord) :
    Together json (f.upsert json .saved record) (k.upsert json record) := by
  rw [upsert_eq h, FileTrustStore.upsert]
  cases hvalid : validateRecord record with
  | error e => exact ⟨trivial, h⟩
  | ok _ =>
    simp only
    split
    · exact ⟨trivial, h⟩
    · next hroom =>
      refine ⟨rfl, h.written hvalid ?_ _⟩
      rw [not_and_or, Bool.not_eq_false, ExtTreeMap.contains_iff_mem, not_le] at hroom
      exact hroom

theorem Mirrors.erased (h : Mirrors json f k) (peerId : PeerId) (file : Option Bytes) :
    Mirrors json { f with file, records := f.records.erase peerId }
      { k with
        entries := (k.entries.erase (entryName peerId)).insert indexName
          (json.indexToString ((k.knownPeers.erase peerId).toList.map entryName))
        knownPeers := k.knownPeers.erase peerId } := by
  refine ⟨h.inv.erase peerId file, h.limit, fun other => ?_, fun other => ?_⟩
  · simp only [ExtTreeSet.mem_erase, ExtTreeMap.mem_erase, h.known]
  · simp only [ExtTreeMap.getElem?_insert, ExtTreeMap.getElem?_erase, Std.compare_eq_iff_eq,
      if_neg (entryName_ne_indexName other).symm]
    by_cases hid : peerId = other
    · rw [if_pos hid, if_pos (congrArg entryName hid)]
      rfl
    · rw [if_neg hid, if_neg (mt entryName_injective hid), h.entries]

theorem Mirrors.remove (h : Mirrors json f k) (peerId : PeerId) :
    Together json (f.remove json .saved peerId) (k.remove json peerId) := by
  rw [FileTrustStore.remove, SystemKeyringTrustStore.remove, h.contains]
  simp only
  split
  · exact ⟨rfl, h.erased peerId _⟩
  · next hmem =>
    have hnone : f.records[peerId]? = none :=
      ExtTreeMap.getElem?_eq_none (mt ExtTreeMap.contains_iff_mem.mpr hmem)
    rw [h.get, hnone]
    exact ⟨rfl, h⟩

theorem Mirrors.revoke (h : Mirrors json f k) (peerId : PeerId) (now : UInt64) :
    Together json (f.revoke json .saved peerId now) (k.revoke json peerId now) := by
  rw [FileTrustStore.revoke, SystemKeyringTrustStore.revoke, h.get]
  cases hr : f.records[peerId]? with
  | none => exact ⟨trivial, h⟩
  | some r =>
    -- A record that is there passes its check again and needs no room.
    obtain rfl : r.peerId = peerId := h.inv.own_id peerId r hr
    have hvalid : validateRecord { r with keyState := .revoked now } = .ok () :=
      h.inv.valid r.peerId r hr
    have hmem : r.peerId ∈ f.records := FileTrustStore.mem_of_getElem? hr
    simp only [upsert_accepted h hvalid (.inl hmem)]
    exact ⟨rfl, h.written hvalid (.inl hmem) _⟩

/-- The keyring refuses what the file store refuses before it looks at the replacement. -/
theorem rotate_refused (h : Mirrors json f k) {oldPeerId newPeerId : PeerId}
    {newPublicKey : Bytes} (hnot : ¬∃ old, f.Rotatable oldPeerId newPeerId newPublicKey old)
    (challengeHash : FixedBytes 32) (now : UInt64) :
    ∃ fault, k.rotate sha256 json oldPeerId newPeerId newPublicKey challengeHash now =
      (.error fault, k) := by
  rw [SystemKeyringTrustStore.rotate, h.get]
  simp only
  split
  · exact ⟨_, rfl⟩
  next hfree =>
  split
  · exact ⟨_, rfl⟩
  next hroom =>
  rw [h.get]
  cases hold : f.records[oldPeerId]? with
  | none => exact ⟨_, rfl⟩
  | some old =>
    simp only
    split
    · exact ⟨_, rfl⟩
    next hactive =>
    rw [not_or, Bool.not_eq_true, Option.isSome_eq_false_iff, Option.isNone_iff_eq_none] at hfree
    rw [h.limit, h.size, not_le] at hroom
    refine absurd ⟨old, hfree.2, ?_, ?_, hroom, hold, ?_⟩ hnot
    · rintro rfl
      rw [hold] at hfree
      cases hfree.1
    · intro hmem
      rw [ExtTreeMap.mem_iff_isSome_getElem?, hfree.1] at hmem
      cases hmem
    · simpa [TrustRecord.isActive] using hactive

/-- The old record is written first. The replacement is checked when it is written next. -/
theorem rotate_rotatable (sha256 : Bytes → FixedBytes 32) (h : Mirrors json f k)
    {oldPeerId newPeerId : PeerId} {newPublicKey : Bytes} {old : TrustRecord}
    (hr : f.Rotatable oldPeerId newPeerId newPublicKey old) (challengeHash : FixedBytes 32)
    (now : UInt64) :
    let retired : TrustRecord := { old with keyState := .rotated now newPeerId }
    let replacement := old.replacement sha256 newPeerId newPublicKey challengeHash
    Mirrors json { f with records := f.records.insert oldPeerId retired } (k.written json retired) ∧
    k.rotate sha256 json oldPeerId newPeerId newPublicKey challengeHash now =
      match validateRecord replacement with
      | .error e => (.error (.failed e), k.written json retired)
      | .ok () => (.ok replacement, (k.written json retired).written json replacement) := by
  intro retired replacement
  obtain rfl : old.peerId = oldPeerId := h.inv.own_id _ old hr.old_eq
  have hvalid : validateRecord retired = .ok () := h.inv.valid _ old hr.old_eq
  have hmem : old.peerId ∈ f.records := FileTrustStore.mem_of_getElem? hr.old_eq
  have hnew : f.records[newPeerId]? = none := ExtTreeMap.getElem?_eq_none hr.new_absent
  have hfirst : Mirrors json { f with records := f.records.insert old.peerId retired }
      (k.written json retired) := h.written hvalid (.inl hmem) f.file
  refine ⟨hfirst, ?_⟩
  have hactive : old.isActive = true := by simp [TrustRecord.isActive, hr.active]
  have hfree : ¬((none : Option TrustRecord).isSome = true ∨ newPublicKey = []) := by
    simpa using hr.key_ne
  have hroom : ¬k.maxRecords ≤ k.knownPeers.size := by
    rw [h.limit, h.size, not_le]
    exact hr.room
  -- The retired record has taken no more room than the active one.
  have hsecond : newPeerId ∈ f.records.insert old.peerId retired ∨
      (f.records.insert old.peerId retired).size < f.maxRecords := by
    rw [FileTrustStore.size_insert_of_mem _ hmem]
    exact .inr hr.room
  rw [SystemKeyringTrustStore.rotate, h.get, hnew]
  simp only [if_neg hfree, if_neg hroom, h.get, hr.old_eq, hactive, Bool.not_true,
    Bool.false_eq_true, if_false]
  rw [upsert_accepted h hvalid (.inl hmem)]
  simp only
  cases hreplacement : validateRecord replacement with
  | error e =>
    rw [upsert_eq hfirst, hreplacement]
  | ok _ => rw [upsert_accepted hfirst hreplacement hsecond]

end SystemKeyringTrustStore

theorem validateRecord_eq_ok_iff (r : TrustRecord) : validateRecord r = .ok () ↔
    ¬(r.publicKey = [] ∨ maxPublicKeyBytes < r.publicKey.length ∨ utf8 r.aliasName = [] ∨
      maxAliasBytes < (utf8 r.aliasName).length ∨ maxPermissions < r.permissions.size ∨
      maxPreviousKeyFingerprints < r.previousKeyFingerprints.length ∨
      r.permissions.toList.any LinkPermission.oversized) := by
  unfold validateRecord
  split
  · next hbad => exact ⟨nofun, fun hgood => absurd hbad hgood⟩
  · next hgood => exact ⟨fun _ => hgood, fun _ => rfl⟩

/-- A replacement inherits the limits of the old record but for its key and one fingerprint more. -/
theorem validateRecord_replacement (sha256 : Bytes → FixedBytes 32) {old : TrustRecord}
    (hold : validateRecord old = .ok ()) {newPublicKey : Bytes} (hkey : newPublicKey ≠ [])
    (newPeerId : PeerId) (challengeHash : FixedBytes 32) :
    validateRecord (old.replacement sha256 newPeerId newPublicKey challengeHash) = .ok () ↔
      ¬(maxPublicKeyBytes < newPublicKey.length ∨
        old.previousKeyFingerprints.length = maxPreviousKeyFingerprints) := by
  rw [validateRecord_eq_ok_iff] at hold ⊢
  simp only [not_or, not_lt] at hold ⊢
  obtain ⟨-, -, halias, haliasLen, hpermissions, hprevious, hnames⟩ := hold
  simp only [TrustRecord.replacement, List.length_append, List.length_singleton]
  constructor
  · rintro ⟨-, hlen, -, -, -, hgrown, -⟩
    exact ⟨hlen, by omega⟩
  · rintro ⟨hlen, hgrown⟩
    exact ⟨hkey, hlen, halias, haliasLen, hpermissions, by omega, hnames⟩

/-- A rotation that passes every check but the one of its replacement: the new key is too long, or
the old identity has as many previous keys as a record may list. -/
def HalfRotation (f : FileTrustStore) : TrustStoreOp → Prop
  | .rotate oldPeerId newPeerId newPublicKey _ _ =>
    ∃ old, f.Rotatable oldPeerId newPeerId newPublicKey old ∧
      (maxPublicKeyBytes < newPublicKey.length ∨
        old.previousKeyFingerprints.length = maxPreviousKeyFingerprints)
  | _ => False

namespace SystemKeyringTrustStore
variable {sha256 : Bytes → FixedBytes 32} {json : TrustJson} {f : FileTrustStore}
  {k : SystemKeyringTrustStore}

theorem Mirrors.rotate (h : Mirrors json f k) {oldPeerId newPeerId : PeerId}
    {newPublicKey : Bytes} {challengeHash : FixedBytes 32} {now : UInt64}
    (hhalf : ¬HalfRotation f (.rotate oldPeerId newPeerId newPublicKey challengeHash now)) :
    Together json (f.rotate sha256 json .saved oldPeerId newPeerId newPublicKey challengeHash now)
      (k.rotate sha256 json oldPeerId newPeerId newPublicKey challengeHash now) := by
  by_cases hr : ∃ old, f.Rotatable oldPeerId newPeerId newPublicKey old
  · obtain ⟨old, hr⟩ := hr
    have hvalid : validateRecord (old.replacement sha256 newPeerId newPublicKey challengeHash) =
        .ok () := by
      rw [validateRecord_replacement sha256 (h.inv.valid _ old hr.old_eq) hr.key_ne]
      exact fun hbad => hhalf ⟨old, hr, hbad⟩
    obtain ⟨hfirst, heq⟩ := rotate_rotatable sha256 h hr challengeHash now
    have hmem : oldPeerId ∈ f.records := FileTrustStore.mem_of_getElem? hr.old_eq
    rw [heq, hr.rotate_eq, hvalid]
    refine ⟨rfl, hfirst.written hvalid (.inr ?_) _⟩
    rw [FileTrustStore.size_insert_of_mem _ hmem]
    exact hr.room
  · obtain ⟨fault, heq⟩ := rotate_refused h hr challengeHash now
    obtain ⟨e, hfile⟩ | ⟨old, -, hold, -⟩ := FileTrustStore.rotate_cases sha256 json f .saved
      oldPeerId newPeerId newPublicKey challengeHash now
    · rw [heq, hfile]
      exact ⟨trivial, h⟩
    · exact absurd ⟨old, hold⟩ hr

/-- Both stores refuse a rotation for its replacement. The file store has kept the old record; the
keyring has retired it. -/
theorem Mirrors.half_rotated (sha256 : Bytes → FixedBytes 32) (h : Mirrors json f k)
    {oldPeerId newPeerId : PeerId} {newPublicKey : Bytes} {old : TrustRecord}
    (hr : f.Rotatable oldPeerId newPeerId newPublicKey old)
    (hbad : maxPublicKeyBytes < newPublicKey.length ∨
      old.previousKeyFingerprints.length = maxPreviousKeyFingerprints)
    (challengeHash : FixedBytes 32) (now : UInt64) :
    let op := TrustStoreOp.rotate oldPeerId newPeerId newPublicKey challengeHash now
    (f.step sha256 json (.saved, op)).1.failed = true ∧ (f.step sha256 json (.saved, op)).2 = f ∧
    (k.step sha256 json op).1.failed = true ∧
    (k.step sha256 json op).2.get json oldPeerId =
      .ok (some { old with keyState := .rotated now newPeerId }) := by
  have hiff := validateRecord_replacement sha256 (h.inv.valid _ old hr.old_eq) hr.key_ne newPeerId
    challengeHash
  obtain ⟨hfirst, heq⟩ := rotate_rotatable sha256 h hr challengeHash now
  cases hvalid : validateRecord (old.replacement sha256 newPeerId newPublicKey challengeHash) with
  | ok _ => exact absurd hbad (hiff.mp hvalid)
  | error e =>
    simp only [FileTrustStore.step, SystemKeyringTrustStore.step, heq, hr.rotate_eq, hvalid,
      Prod.map, id]
    refine ⟨rfl, trivial, rfl, ?_⟩
    rw [hfirst.get, ExtTreeMap.getElem?_insert_self]

theorem Mirrors.parted (h : Mirrors json f k) {op : TrustStoreOp} (hhalf : HalfRotation f op) :
    ¬SameRecords json (f.step sha256 json (.saved, op)).2 (k.step sha256 json op).2 := by
  cases op with
  | rotate oldPeerId newPeerId newPublicKey challengeHash now =>
    obtain ⟨old, hr, hbad⟩ := hhalf
    obtain ⟨-, hkept, -, hretired⟩ := h.half_rotated sha256 hr hbad challengeHash now
    rintro ⟨hget, -⟩
    have hboth := hretired.symm.trans (hget oldPeerId)
    rw [hkept, hr.old_eq] at hboth
    have hstate := congrArg TrustRecord.keyState (Option.some.inj (Except.ok.inj hboth))
    rw [hr.active] at hstate
    cases hstate
  | _ => exact hhalf.elim

/-- One call on both stores. -/
theorem Mirrors.step (h : Mirrors json f k) {op : TrustStoreOp} (hop : ¬HalfRotation f op) :
    (f.step sha256 json (.saved, op)).1.Agrees (k.step sha256 json op).1 ∧
      Mirrors json (f.step sha256 json (.saved, op)).2 (k.step sha256 json op).2 := by
  have hcall {α : Type} {a : Except TrustStoreError α × FileTrustStore}
      {b : Except TrustFault α × SystemKeyringTrustStore} (hab : Together json a b) :
      SameOutcome (a.1.mapError .failed) b.1 ∧ Mirrors json a.2 b.2 := ⟨hab.outcome, hab.mirrors⟩
  cases op with
  | get peerId =>
    simp only [FileTrustStore.step, SystemKeyringTrustStore.step, h.get]
    exact ⟨rfl, h⟩
  | list =>
    simp only [FileTrustStore.step, SystemKeyringTrustStore.step, h.list]
    exact ⟨rfl, h⟩
  | upsert record => exact hcall (h.upsert record)
  | remove peerId => exact hcall (h.remove peerId)
  | revoke peerId now => exact hcall (h.revoke peerId now)
  | rotate oldPeerId newPeerId newPublicKey challengeHash now => exact hcall (h.rotate hop)

theorem Mirrors.opened {service : String} {maxRecords : ℕ}
    (hf : FileTrustStore.openWithLimit json .saved none maxRecords = .ok f)
    (hk : openWithLimit json service ∅ maxRecords = .ok k) : Mirrors json f k := by
  unfold FileTrustStore.openWithLimit at hf
  unfold openWithLimit at hk
  split at hf
  · cases hf
  split at hk
  · cases hk
  cases hf
  cases hk
  refine ⟨.of_empty rfl, rfl, fun peerId => ?_, fun peerId => ?_⟩
  · simp
  · simp

end SystemKeyringTrustStore

/-- The stores answer a call alike and hold the same records after it, and if they have refused it,
the records that they held before. -/
structure AnswerAlike (json : TrustJson)
    (e : RunHistory.Event FileTrustStore TrustStoreOp TrustStoreReply)
    (e' : RunHistory.Event SystemKeyringTrustStore TrustStoreOp TrustStoreReply) : Prop where
  reply : e.reply.Agrees e'.reply
  records : SameRecords json e.post e'.post
  unchanged : e.reply.failed = true → e.post.records = e.pre.records ∧
    (∀ peerId, e'.post.get json peerId = e'.pre.get json peerId) ∧
    e'.post.list json = e'.pre.list json

theorem SystemKeyringTrustStore.Mirrors.answerAlike {sha256 : Bytes → FixedBytes 32}
    {json : TrustJson} {f : FileTrustStore} {k : SystemKeyringTrustStore} (h : Mirrors json f k)
    {op : TrustStoreOp} (hop : ¬HalfRotation f op) : AnswerAlike json
      (RunHistory.event (fun f op => f.step sha256 json (.saved, op)) f op)
      (RunHistory.event (fun k op => k.step sha256 json op) k op) := by
  have hstep : (f.step sha256 json (.saved, op)).1.Agrees (k.step sha256 json op).1 ∧
      Mirrors json (f.step sha256 json (.saved, op)).2 (k.step sha256 json op).2 := h.step hop
  obtain ⟨hreplies, hnext⟩ := hstep
  refine ⟨hreplies, hnext.sameRecords, fun hfailed => ?_⟩
  have hsame : (f.step sha256 json (.saved, op)).2 = f := by
    obtain heq | ⟨records, -, hok, -⟩ := FileTrustStore.step_cases sha256 json f (.saved, op)
    · exact heq
    · have hrefused : (f.step sha256 json (.saved, op)).1.failed = true := hfailed
      rw [hok] at hrefused
      cases hrefused
  rw [hsame] at hnext
  refine ⟨congrArg FileTrustStore.records hsame, fun peerId => ?_, ?_⟩
  · exact (hnext.get peerId).trans (h.get peerId).symm
  · exact hnext.list.trans h.list.symm

/-- Two stores opened empty agree call by call, in what they answer and in what they hold, exactly
in the runs without a rotation that is refused for its replacement. In these every other call that
is refused, a rotation too, leaves the records of both stores as they were. -/
theorem trust_stores_agree_iff (sha256 : Bytes → FixedBytes 32) (json : TrustJson)
    {service : String} {maxRecords : ℕ} {f : FileTrustStore} {k : SystemKeyringTrustStore}
    (hf : FileTrustStore.openWithLimit json .saved none maxRecords = .ok f)
    (hk : SystemKeyringTrustStore.openWithLimit json service ∅ maxRecords = .ok k)
    (ops : List TrustStoreOp) :
    List.Forall₂ (AnswerAlike json)
      (RunHistory.trace (fun f op => f.step sha256 json (.saved, op)) f ops)
      (RunHistory.trace (fun k op => k.step sha256 json op) k ops) ↔
    ∀ e ∈ RunHistory.trace (fun f op => f.step sha256 json (.saved, op)) f ops,
      ¬HalfRotation e.pre e.input := by
  apply RunHistory.lockstep_iff (R := SystemKeyringTrustStore.Mirrors json)
    (G := fun f op => ¬HalfRotation f op)
  · intro f k op h hop
    exact ⟨h.answerAlike hop, (h.step hop).2⟩
  · intro f k op h hsame hhalf
    exact h.parted hhalf hsame.records
  · exact .opened hf hk

namespace Sample

def emptyKeyring : SystemKeyringTrustStore := { entries := ∅, knownPeers := ∅, maxRecords := 4 }

/-- One byte more than a key may have. -/
def longKey : Bytes := List.replicate 4097 7

def longRotation : TrustStoreOp :=
  .rotate (trustedPeer 1) (trustedPeer 2) longKey
    (.replicate 32 9) 30

theorem length_longKey : longKey.length = 4097 := List.length_replicate

theorem opened_file : FileTrustStore.openWithLimit TrustJsonText.serdeJson .saved none 4 =
    .ok emptyFileStore := rfl

theorem opened_keyring :
    SystemKeyringTrustStore.openWithLimit TrustJsonText.serdeJson "mutsuki" ∅ 4 =
      .ok emptyKeyring := rfl

def upsertedFile : FileTrustStore :=
  (emptyFileStore.step sha256 TrustJsonText.serdeJson (.saved, .upsert (trustRecord 1))).2

def upsertedKeyring : SystemKeyringTrustStore :=
  (emptyKeyring.step sha256 TrustJsonText.serdeJson (.upsert (trustRecord 1))).2

theorem mirrors_upserted :
    SystemKeyringTrustStore.Mirrors TrustJsonText.serdeJson upsertedFile upsertedKeyring := by
  have hupsert : ¬HalfRotation emptyFileStore (.upsert (trustRecord 1)) := id
  exact ((SystemKeyringTrustStore.Mirrors.opened opened_file opened_keyring).step hupsert).2

theorem rotatable_upserted :
    upsertedFile.Rotatable (trustedPeer 1) (trustedPeer 2) longKey (trustRecord 1) := by
  refine ⟨fun hnil => ?_, by decide, by decide, by decide, rfl, rfl⟩
  have hlen := length_longKey
  rw [hnil] at hlen
  cases hlen

end Sample

/-- A rotation that both stores carry out, and once more, when both refuse it. -/
theorem sample_trust_stores_agree :
    List.Forall₂ (AnswerAlike TrustJsonText.serdeJson)
      (RunHistory.trace (fun f op => f.step Sample.sha256 TrustJsonText.serdeJson (.saved, op))
        Sample.emptyFileStore [.upsert (Sample.trustRecord 1), Sample.rotation, Sample.rotation])
      (RunHistory.trace (fun k op => k.step Sample.sha256 TrustJsonText.serdeJson op)
        Sample.emptyKeyring
          [.upsert (Sample.trustRecord 1), Sample.rotation, Sample.rotation]) := by
  refine (trust_stores_agree_iff Sample.sha256 TrustJsonText.serdeJson Sample.opened_file
    Sample.opened_keyring
    [.upsert (Sample.trustRecord 1), Sample.rotation, Sample.rotation]).mpr ?_
  simp only [RunHistory.trace_cons, RunHistory.trace_nil, List.forall_mem_cons]
  refine ⟨fun hhalf => hhalf, ?_, ?_, fun e he => absurd he List.not_mem_nil⟩
  · rintro ⟨old, hr, hlong | hfull⟩
    · exact absurd hlong (by decide)
    · obtain rfl : Sample.trustRecord 1 = old := Option.some.inj hr.old_eq
      cases hfull
  · -- The key that is to be given up has been given up already.
    rintro ⟨old, hr, -⟩
    obtain rfl : { Sample.trustRecord 1 with keyState := .rotated 30 (Sample.trustedPeer 2) } =
      old := Option.some.inj hr.old_eq
    cases hr.active

/-- Both stores refuse the rotation, and the keyring has lost the active key all the same. -/
theorem sample_refused_rotation_parts_stores :
    let f := Sample.upsertedFile.step Sample.sha256 TrustJsonText.serdeJson
      (.saved, Sample.longRotation)
    let k := Sample.upsertedKeyring.step Sample.sha256 TrustJsonText.serdeJson Sample.longRotation
    f.1.failed = true ∧ f.2 = Sample.upsertedFile ∧ k.1.failed = true ∧
    Sample.upsertedKeyring.get TrustJsonText.serdeJson (Sample.trustedPeer 1) =
      .ok (some (Sample.trustRecord 1)) ∧
    k.2.get TrustJsonText.serdeJson (Sample.trustedPeer 1) =
      .ok (some { Sample.trustRecord 1 with keyState := .rotated 30 (Sample.trustedPeer 2) }) := by
  have hlong : maxPublicKeyBytes < Sample.longKey.length := by
    rw [Sample.length_longKey]
    decide
  obtain ⟨hfailed, hkept, hrefused, hretired⟩ := Sample.mirrors_upserted.half_rotated Sample.sha256
    Sample.rotatable_upserted (.inl hlong) (.replicate 32 9) 30
  refine ⟨hfailed, hkept, hrefused, ?_, hretired⟩
  rw [Sample.mirrors_upserted.get, Sample.rotatable_upserted.old_eq]

end MutsukiLink
