import MutsukiLink.TrustModel

/-! The two trust stores: one file that is replaced as a whole (`file_store.rs`), and one entry of
the system keyring for each peer with an index beside them (`keyring_store.rs`). The JSON library
is a parameter that reads back what it wrote, and so is SHA-256. -/
namespace MutsukiLink
open WireBytes
open Std (ExtTreeMap ExtTreeSet)

/-- What the stores use of `serde_json`. The reader of a file skips the newline after the value. -/
structure TrustJson where
  toWriterPretty : List RecordDto → Bytes
  fromReader : Bytes → Option (List RecordDto)
  recordToString : RecordDto → String
  recordFromStr : String → Option RecordDto
  indexToString : List String → String
  indexFromStr : String → Option (List String)
  fromReader_toWriterPretty : ∀ dtos, fromReader (toWriterPretty dtos ++ [10]) = some dtos
  recordFromStr_toString : ∀ dto, recordFromStr (recordToString dto) = some dto
  indexFromStr_toString : ∀ names, indexFromStr (indexToString names) = some names

/-- The record that `rotate` puts in the place of an active one. -/
def TrustRecord.replacement (sha256 : Bytes → FixedBytes 32) (old : TrustRecord)
    (newPeerId : PeerId) (newPublicKey : Bytes) (challengeHash : FixedBytes 32) : TrustRecord :=
  { peerId := newPeerId, publicKey := newPublicKey, aliasName := old.aliasName
    firstPairedAtUnixMs := old.firstPairedAtUnixMs, permissions := old.permissions
    keyState := .active, lastPairingChallengeHash := challengeHash
    previousKeyFingerprints :=
      old.previousKeyFingerprints ++ [old.publicKeyFingerprint sha256] }

/-- The calls of the `TrustStore` trait. -/
inductive TrustStoreOp where
  | get (peerId : PeerId)
  | list
  | upsert (record : TrustRecord)
  | remove (peerId : PeerId)
  | revoke (peerId : PeerId) (nowUnixMs : UInt64)
  | rotate (oldPeerId newPeerId : PeerId) (newPublicKey : Bytes) (challengeHash : FixedBytes 32)
      (nowUnixMs : UInt64)

inductive TrustStoreReply where
  | found (result : Except TrustFault (Option TrustRecord))
  | listed (result : Except TrustFault (List TrustRecord))
  | done (result : Except TrustFault Unit)
  | removed (result : Except TrustFault Bool)
  | rotated (result : Except TrustFault TrustRecord)

/-- What becomes of a `persist`: all of its steps go through, `to_writer_pretty` fails, or another
step does. -/
inductive PersistOutcome where
  | saved
  | renderFailed
  | ioFailed
deriving DecidableEq, Repr

/-- The store with the contents of its file; `none` when there is no file at the path. -/
structure FileTrustStore where
  file : Option Bytes
  records : ExtTreeMap PeerId TrustRecord
  maxRecords : ℕ

namespace FileTrustStore

def unknownPeer : TrustStoreError := ⟨.unknownPeer, "peer has no trust record"⟩

def limitError : TrustStoreError := ⟨.limitExceeded, "trust store limit exceeded"⟩

def ioError : TrustStoreError := ⟨.io, "trust store I/O failed"⟩

def invalidStore : TrustStoreError := ⟨.corrupt, "trust store file is invalid"⟩

def conflict (message : String) : TrustStoreError := ⟨.conflict, message⟩

section Calls
variable (sha256 : Bytes → FixedBytes 32) (json : TrustJson)

/-- What `persist` writes. -/
def render (records : ExtTreeMap PeerId TrustRecord) : Bytes :=
  json.toWriterPretty ((OrderedMap.values records).map RecordDto.ofRecord) ++ [10]

/-- `persist` either replaces the file or fails and leaves it. The bytes first go to a buffered
writer, so that an error of the disk may show while the records are rendered. -/
def persist (persists : PersistOutcome) (file : Option Bytes)
    (records : ExtTreeMap PeerId TrustRecord) : Except TrustStoreError Unit × Option Bytes :=
  match persists with
  | .saved => (.ok (), some (render json records))
  | .renderFailed => (.error invalidStore, file)
  | .ioFailed => (.error ioError, file)

/-- The records that a file of the right size holds. -/
def readRecords (contents : Bytes) (maxRecords : ℕ) :
    Except TrustFault (ExtTreeMap PeerId TrustRecord) :=
  if maxTrustStoreFileBytes < contents.length then .error (.failed limitError)
  else match json.fromReader contents with
    | none => .error (.failed invalidStore)
    | some dtos =>
      if maxRecords < dtos.length then .error (.failed limitError)
      else match dtos.mapM RecordDto.toRecord with
        | .error fault => .error fault
        | .ok records => .ok (ExtTreeMap.ofList (records.map fun r => (r.peerId, r)))

def openWithLimit (persists : PersistOutcome) (file : Option Bytes) (maxRecords : ℕ) :
    Except TrustFault FileTrustStore :=
  if maxRecords = 0 then .error (.failed limitError)
  else match file with
    | some contents =>
      match readRecords json contents maxRecords with
      | .error fault => .error fault
      | .ok records => .ok { file, records, maxRecords }
    | none =>
      match persist json persists none ∅ with
      | (.error e, _) => .error (.failed e)
      | (.ok (), file) => .ok { file, records := ∅, maxRecords }

def replace (s : FileTrustStore) (persists : PersistOutcome)
    (records : ExtTreeMap PeerId TrustRecord) : Except TrustStoreError Unit × FileTrustStore :=
  match persist json persists s.file records with
  | (.error e, file) => (.error e, { s with file })
  | (.ok (), file) => (.ok (), { s with file, records })

def get (s : FileTrustStore) (peerId : PeerId) : Except TrustStoreError (Option TrustRecord) :=
  .ok s.records[peerId]?

def list (s : FileTrustStore) : Except TrustStoreError (List TrustRecord) :=
  .ok (OrderedMap.values s.records)

def upsert (s : FileTrustStore) (persists : PersistOutcome) (record : TrustRecord) :
    Except TrustStoreError Unit × FileTrustStore :=
  match validateRecord record with
  | .error e => (.error e, s)
  | .ok () =>
    if s.records.contains record.peerId = false ∧ s.maxRecords ≤ s.records.size then
      (.error limitError, s)
    else s.replace json persists (s.records.insert record.peerId record)

def remove (s : FileTrustStore) (persists : PersistOutcome) (peerId : PeerId) :
    Except TrustStoreError Bool × FileTrustStore :=
  if s.records.contains peerId then
    match s.replace json persists (s.records.erase peerId) with
    | (.error e, s) => (.error e, s)
    | (.ok (), s) => (.ok true, s)
  else (.ok false, s)

def revoke (s : FileTrustStore) (persists : PersistOutcome) (peerId : PeerId) (nowUnixMs : UInt64) :
    Except TrustStoreError Unit × FileTrustStore :=
  match s.records[peerId]? with
  | none => (.error unknownPeer, s)
  | some record =>
    s.replace json persists (s.records.insert peerId { record with keyState := .revoked nowUnixMs })

def rotate (s : FileTrustStore) (persists : PersistOutcome) (oldPeerId newPeerId : PeerId)
    (newPublicKey : Bytes) (challengeHash : FixedBytes 32) (nowUnixMs : UInt64) :
    Except TrustStoreError TrustRecord × FileTrustStore :=
  if newPublicKey = [] ∨ newPeerId = oldPeerId then
    (.error (conflict "identity rotation parameters conflict"), s)
  else if s.records.contains newPeerId then
    (.error (conflict "new peer identity already exists"), s)
  else if s.maxRecords ≤ s.records.size then (.error limitError, s)
  else match s.records[oldPeerId]? with
    | none => (.error unknownPeer, s)
    | some old =>
      if !old.isActive then (.error (conflict "only an active identity can rotate"), s)
      else
        let replacement := old.replacement sha256 newPeerId newPublicKey challengeHash
        match validateRecord replacement with
        | .error e => (.error e, s)
        | .ok () =>
          let records := s.records.insert oldPeerId
            { old with keyState := .rotated nowUnixMs newPeerId }
          match s.replace json persists (records.insert newPeerId replacement) with
          | (.error e, s) => (.error e, s)
          | (.ok (), s) => (.ok replacement, s)

/-- One call of the trait, with what becomes of its `persist`. -/
def step (s : FileTrustStore) : PersistOutcome × TrustStoreOp → TrustStoreReply × FileTrustStore
  | (_, .get peerId) => (.found ((s.get peerId).mapError .failed), s)
  | (_, .list) => (.listed (s.list.mapError .failed), s)
  | (persists, .upsert record) =>
    (s.upsert json persists record).map (fun r => .done (r.mapError .failed)) id
  | (persists, .remove peerId) =>
    (s.remove json persists peerId).map (fun r => .removed (r.mapError .failed)) id
  | (persists, .revoke peerId now) =>
    (s.revoke json persists peerId now).map (fun r => .done (r.mapError .failed)) id
  | (persists, .rotate old new key challenge now) =>
    (s.rotate sha256 json persists old new key challenge now).map
      (fun r => .rotated (r.mapError .failed)) id

end Calls

end FileTrustStore

/-- The store with the entries of its keyring service, by user name. -/
structure SystemKeyringTrustStore where
  entries : ExtTreeMap String String
  knownPeers : ExtTreeSet PeerId
  maxRecords : ℕ

namespace SystemKeyringTrustStore

def indexName : String := "__mutsuki_link_peer_index"

def corrupt : TrustStoreError := ⟨.corrupt, "system credential trust record is invalid"⟩

def unknownPeer : TrustStoreError := ⟨.unknownPeer, "peer has no trust record"⟩

def limitError : TrustStoreError :=
  ⟨.limitExceeded, "system credential trust store limit exceeded"⟩

def conflict (message : String) : TrustStoreError := ⟨.conflict, message⟩

section Calls
variable (sha256 : Bytes → FixedBytes 32) (json : TrustJson)

/-- `service` is the name of the service whose entries are given. -/
def openWithLimit (service : String) (entries : ExtTreeMap String String) (maxRecords : ℕ) :
    Except TrustFault SystemKeyringTrustStore :=
  if service = "" ∨ maxRecords = 0 then
    .error (.failed ⟨.unavailable, "system keyring service name is empty"⟩)
  else match entries[indexName]? with
    | none => .ok { entries, knownPeers := ∅, maxRecords }
    | some encoded =>
      if maxRecords*70+2 < (utf8 encoded).length then .error (.failed limitError)
      else match json.indexFromStr encoded with
        | none => .error (.failed corrupt)
        | some values =>
          if maxRecords < values.length then .error (.failed limitError)
          else match values.mapM decodePeerId with
            | .error fault => .error fault
            | .ok peers => .ok { entries, knownPeers := ExtTreeSet.ofList peers, maxRecords }

/-- The user name of a peer's entry. -/
def entryName (peerId : PeerId) : String := encode peerId.bytes

def persistIndex (s : SystemKeyringTrustStore) (peers : ExtTreeSet PeerId) :
    SystemKeyringTrustStore :=
  { s with entries := s.entries.insert indexName (json.indexToString (peers.toList.map entryName)) }

def get (s : SystemKeyringTrustStore) (peerId : PeerId) :
    Except TrustFault (Option TrustRecord) :=
  match s.entries[entryName peerId]? with
  | none => .ok none
  | some encoded =>
    match json.recordFromStr encoded with
    | none => .error (.failed corrupt)
    | some dto => dto.toRecord.map some

def list (s : SystemKeyringTrustStore) : Except TrustFault (List TrustRecord) :=
  (s.knownPeers.toList.mapM (s.get json)).map (List.filterMap id)

def upsert (s : SystemKeyringTrustStore) (record : TrustRecord) :
    Except TrustFault Unit × SystemKeyringTrustStore :=
  match validateRecord record with
  | .error e => (.error (.failed e), s)
  | .ok () =>
    if s.knownPeers.contains record.peerId = false ∧ s.maxRecords ≤ s.knownPeers.size then
      (.error (.failed limitError), s)
    else
      let encoded := json.recordToString (.ofRecord record)
      let s := { s with entries := s.entries.insert (entryName record.peerId) encoded }
      let peers := s.knownPeers.insert record.peerId
      (.ok (), { s.persistIndex json peers with knownPeers := peers })

def remove (s : SystemKeyringTrustStore) (peerId : PeerId) :
    Except TrustFault Bool × SystemKeyringTrustStore :=
  let removeEntry : Except TrustFault Bool × SystemKeyringTrustStore :=
    let s := { s with entries := s.entries.erase (entryName peerId) }
    let peers := s.knownPeers.erase peerId
    (.ok true, { s.persistIndex json peers with knownPeers := peers })
  if s.knownPeers.contains peerId then removeEntry
  else match s.get json peerId with
    | .error fault => (.error fault, s)
    | .ok none => (.ok false, s)
    | .ok (some _) => removeEntry

def revoke (s : SystemKeyringTrustStore) (peerId : PeerId) (nowUnixMs : UInt64) :
    Except TrustFault Unit × SystemKeyringTrustStore :=
  match s.get json peerId with
  | .error fault => (.error fault, s)
  | .ok none => (.error (.failed unknownPeer), s)
  | .ok (some record) => s.upsert json { record with keyState := .revoked nowUnixMs }

def rotate (s : SystemKeyringTrustStore) (oldPeerId newPeerId : PeerId) (newPublicKey : Bytes)
    (challengeHash : FixedBytes 32) (nowUnixMs : UInt64) :
    Except TrustFault TrustRecord × SystemKeyringTrustStore :=
  match s.get json newPeerId with
  | .error fault => (.error fault, s)
  | .ok found =>
    if found.isSome ∨ newPublicKey = [] then
      (.error (.failed (conflict "new peer identity conflicts with trust store")), s)
    else if s.maxRecords ≤ s.knownPeers.size then (.error (.failed limitError), s)
    else match s.get json oldPeerId with
      | .error fault => (.error fault, s)
      | .ok none => (.error (.failed unknownPeer), s)
      | .ok (some old) =>
        if !old.isActive then
          (.error (.failed (conflict "only an active identity can rotate")), s)
        else
          let replacement := old.replacement sha256 newPeerId newPublicKey challengeHash
          -- The old key is written first, before the replacement has been checked.
          match s.upsert json { old with keyState := .rotated nowUnixMs newPeerId } with
          | (.error fault, s) => (.error fault, s)
          | (.ok (), s) =>
            match s.upsert json replacement with
            | (.error fault, s) => (.error fault, s)
            | (.ok (), s) => (.ok replacement, s)

/-- One call of the trait; the keyring never fails. -/
def step (s : SystemKeyringTrustStore) : TrustStoreOp → TrustStoreReply × SystemKeyringTrustStore
  | .get peerId => (.found (s.get json peerId), s)
  | .list => (.listed (s.list json), s)
  | .upsert record => (s.upsert json record).map .done id
  | .remove peerId => (s.remove json peerId).map .removed id
  | .revoke peerId now => (s.revoke json peerId now).map .done id
  | .rotate old new key challenge now =>
    (s.rotate sha256 json old new key challenge now).map .rotated id

end Calls

end SystemKeyringTrustStore

end MutsukiLink
