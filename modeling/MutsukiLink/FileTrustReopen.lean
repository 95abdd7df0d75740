import Mathlib.Algebra.Group.Action.Defs
import Mathlib.Algebra.Order.BigOperators.Group.List
import MutsukiLink.FileTrustRuns

/-! Opening the file again that a store has written. The records come back as they were unless the
file has outgrown the one limit that only the reader checks. -/
namespace MutsukiLink
open WireBytes
open Std (ExtTreeMap ExtTreeSet)

namespace FileTrustStore
variable {sha256 : Bytes → FixedBytes 32} {json : TrustJson}

theorem mapM_toRecord {records : List TrustRecord} (h : ∀ r ∈ records, validateRecord r = .ok ()) :
    (records.map RecordDto.ofRecord).mapM RecordDto.toRecord = .ok records := by
  induction records with
  | nil => rfl
  | cons r rest ih =>
    rw [List.map_cons, List.mapM_cons, toRecord_ofRecord (h r List.mem_cons_self),
      ih fun r' hr' => h r' (List.mem_cons_of_mem _ hr')]
    rfl

/-- What was read was checked. -/
theorem validateRecord_of_toRecord {dto : RecordDto} {r : TrustRecord}
    (h : dto.toRecord = .ok r) : validateRecord r = .ok () := by
  simp only [RecordDto.toRecord, bind, Except.bind] at h
  split at h
  · cases h
  split at h
  · cases h
  split at h
  · cases h
  split at h
  · cases h
  split at h
  · cases h
  next hvalid =>
  cases h
  exact hvalid

theorem mapM_toRecord_ok {dtos : List RecordDto} {records : List TrustRecord}
    (h : dtos.mapM RecordDto.toRecord = .ok records) :
    records.length = dtos.length ∧ ∀ r ∈ records, validateRecord r = .ok () := by
  induction dtos generalizing records with
  | nil =>
    cases h
    exact ⟨rfl, nofun⟩
  | cons dto rest ih =>
    rw [List.mapM_cons] at h
    cases hfirst : dto.toRecord with
    | error fault =>
      rw [hfirst] at h
      cases h
    | ok r =>
      cases hrest : rest.mapM RecordDto.toRecord with
      | error fault =>
        rw [hfirst, hrest] at h
        cases h
      | ok rs =>
        rw [hfirst, hrest] at h
        cases h
        obtain ⟨hlen, hvalid⟩ := ih hrest
        refine ⟨congrArg (·+1) hlen, fun r' hr' => ?_⟩
        rcases List.mem_cons.mp hr' with rfl | hmem
        · exact validateRecord_of_toRecord hfirst
        · exact hvalid r' hmem

/-- Under their own ids, the values of a store make up the store. -/
theorem StoreInv.ofList_values {s : FileTrustStore} (h : s.StoreInv) :
    ExtTreeMap.ofList ((OrderedMap.values s.records).map fun r => (r.peerId, r)) = s.records := by
  have hlist : (OrderedMap.values s.records).map (fun r => (r.peerId, r)) = s.records.toList := by
    rw [OrderedMap.values, List.map_map]
    refine (List.map_congr_left fun entry hentry => ?_).trans (List.map_id _)
    have hfound := ExtTreeMap.mem_toList_iff_getElem?_eq_some.mp hentry
    exact Prod.ext (h.own_id entry.1 entry.2 hfound) rfl
  rw [hlist, OrderedMap.ofList_toList]

theorem StoreInv.readRecords_render {s : FileTrustStore} (h : s.StoreInv) :
    readRecords json (render json s.records) s.maxRecords =
      if maxTrustStoreFileBytes < (render json s.records).length then .error (.failed limitError)
      else .ok s.records := by
  have hvalid : ∀ r ∈ OrderedMap.values s.records, validateRecord r = .ok () := fun r hr => by
    obtain ⟨peerId, hr⟩ := (OrderedMap.mem_values _ _).mp hr
    exact h.valid peerId r hr
  have hlen : ((OrderedMap.values s.records).map RecordDto.ofRecord).length ≤ s.maxRecords := by
    rw [List.length_map, OrderedMap.values, List.length_map, ExtTreeMap.length_toList]
    exact h.size_le
  unfold readRecords
  split
  · rfl
  · rw [render, json.fromReader_toWriterPretty]
    simp only
    rw [if_neg (not_lt.mpr hlen), mapM_toRecord hvalid]
    simp only [h.ofList_values]

/-- A file that was read leaves the store as its calls would. -/
theorem readRecords_ok {contents : Bytes} {maxRecords : ℕ}
    {records : ExtTreeMap PeerId TrustRecord}
    (h : readRecords json contents maxRecords = .ok records) :
    contents.length ≤ maxTrustStoreFileBytes ∧
      StoreInv { file := some contents, records, maxRecords } := by
  unfold readRecords at h
  split at h
  · cases h
  next hsize =>
  split at h
  · cases h
  split at h
  · cases h
  next dtos _ hcount =>
  split at h
  · cases h
  next found hfound =>
  cases h
  obtain ⟨hlen, hvalid⟩ := mapM_toRecord_ok hfound
  have hmem {peerId : PeerId} {r : TrustRecord}
      (hr : (ExtTreeMap.ofList (found.map fun r => (r.peerId, r)))[peerId]? = some r) :
      r ∈ found ∧ r.peerId = peerId := by
    obtain ⟨r', hr', heq⟩ := List.mem_map.mp (OrderedMap.mem_of_getElem?_ofList hr)
    obtain ⟨hid, rfl⟩ := Prod.mk.inj heq
    exact ⟨hr', hid⟩
  refine ⟨not_lt.mp hsize, ⟨fun peerId r hr => (hmem hr).2,
    fun peerId r hr => hvalid r (hmem hr).1, ?_⟩⟩
  have hroom : (found.map fun r => (r.peerId, r)).length ≤ maxRecords := by
    calc (found.map fun r => (r.peerId, r)).length = dtos.length := by rw [List.length_map, hlen]
      _ ≤ maxRecords := not_lt.mp hcount
  exact ExtTreeMap.size_ofList_le.trans hroom

/-- The two ways in which a store is opened. -/
theorem openWithLimit_ok {persists : PersistOutcome} {file : Option Bytes} {maxRecords : ℕ}
    {s : FileTrustStore} (h : openWithLimit json persists file maxRecords = .ok s) :
    maxRecords ≠ 0 ∧
    ((∃ contents, file = some contents ∧ readRecords json contents maxRecords = .ok s.records ∧
      s = { file, records := s.records, maxRecords }) ∨
    (file = none ∧ s = { file := some (render json ∅), records := ∅, maxRecords })) := by
  unfold openWithLimit at h
  split at h
  · cases h
  next hzero =>
  refine ⟨hzero, ?_⟩
  cases file with
  | some contents =>
    simp only at h
    split at h
    · cases h
    next records hread =>
    cases h
    exact .inl ⟨contents, rfl, hread, rfl⟩
  | none =>
    simp only [persist] at h
    cases persists with
    | saved =>
      cases h
      exact .inr ⟨rfl, rfl⟩
    | renderFailed | ioFailed => cases h

/-- The file of a store: what it wrote last, or the file it was opened from. -/
def Backed (json : TrustJson) (opened s : FileTrustStore) : Prop :=
  s.file = some (render json s.records) ∨ s.file = opened.file ∧ s.records = opened.records

theorem Backed.step {opened s : FileTrustStore} (h : Backed json opened s)
    (call : PersistOutcome × TrustStoreOp) : Backed json opened (s.step sha256 json call).2 := by
  obtain heq | ⟨records, -, -, -, heq⟩ := step_cases sha256 json s call
  · rwa [heq]
  · rw [heq]
    exact .inl rfl

/-- Opening a store's own file again comes down to reading its records. -/
theorem openWithLimit_file_iff {s : FileTrustStore} {contents : Bytes}
    (hfile : s.file = some contents) (hzero : s.maxRecords ≠ 0) (persists : PersistOutcome) :
    openWithLimit json persists s.file s.maxRecords = .ok s ↔
      readRecords json contents s.maxRecords = .ok s.records := by
  obtain ⟨file, records, maxRecords⟩ := s
  obtain rfl : file = some contents := hfile
  simp only [openWithLimit, if_neg hzero]
  cases hread : readRecords json contents maxRecords with
  | error fault => exact ⟨nofun, nofun⟩
  | ok found =>
    simp only [Except.ok.injEq, FileTrustStore.mk.injEq, true_and, and_true]

/-- The store is opened again as it was exactly when its file is not too large for the reader. -/
theorem reopens_iff_file_within_limit (sha256 : Bytes → FixedBytes 32) (json : TrustJson)
    {persists : PersistOutcome} {file : Option Bytes} {maxRecords : ℕ} {s₀ : FileTrustStore}
    (hopen : openWithLimit json persists file maxRecords = .ok s₀)
    (calls : List (PersistOutcome × TrustStoreOp)) :
    let s := RunHistory.run (FileTrustStore.step sha256 json) s₀ calls
    ∃ contents, s.file = some contents ∧ (contents = render json s.records ∨ file = some contents) ∧
      ∀ persists', openWithLimit json persists' s.file maxRecords = .ok s ↔
        contents.length ≤ maxTrustStoreFileBytes := by
  intro s
  obtain ⟨hzero, hcases⟩ := openWithLimit_ok hopen
  have hinv₀ : s₀.StoreInv ∧ s₀.maxRecords = maxRecords := by
    obtain ⟨contents, rfl, hread, heq⟩ | ⟨rfl, rfl⟩ := hcases
    · rw [heq]
      exact ⟨(readRecords_ok hread).2, rfl⟩
    · exact ⟨.of_empty rfl, rfl⟩
  obtain ⟨hinv, hmax⟩ := run_inv sha256 json hinv₀.1 calls
  rw [hinv₀.2] at hmax
  have hbacked : Backed json s₀ s := RunHistory.run_invariant _ (I := Backed json s₀)
    (fun t call ht => ht.step call) (.inr ⟨rfl, rfl⟩) calls
  -- A file that the store wrote is the one of its records; another has been read before.
  have hwritten (hfile : s.file = some (render json s.records)) (persists' : PersistOutcome) :
      openWithLimit json persists' s.file maxRecords = .ok s ↔
        (render json s.records).length ≤ maxTrustStoreFileBytes := by
    rw [← hmax] at hzero ⊢
    rw [openWithLimit_file_iff hfile hzero, hinv.readRecords_render]
    split
    · next hlt => exact ⟨nofun, fun hle => absurd hle (not_le.mpr hlt)⟩
    · next hle => exact ⟨fun _ => not_lt.mp hle, fun _ => rfl⟩
  rcases hbacked with hfile | ⟨hfile, hrecords⟩
  · exact ⟨_, hfile, .inl rfl, hwritten hfile⟩
  · obtain ⟨contents, rfl, hread, heq⟩ | ⟨rfl, rfl⟩ := hcases
    · have hfile : s.file = some contents := hfile.trans (congrArg FileTrustStore.file heq)
      refine ⟨contents, hfile, .inr rfl, fun persists' => ?_⟩
      rw [← hrecords, ← hmax] at hread
      rw [← hmax] at hzero ⊢
      exact ⟨fun _ => (readRecords_ok hread).1,
        fun _ => (openWithLimit_file_iff hfile hzero persists').mpr hread⟩
    · have hfile : s.file = some (render json s.records) := by rw [hfile, hrecords]
      exact ⟨_, hfile, .inl rfl, hwritten hfile⟩

end FileTrustStore

namespace TrustJsonText
open JsonText

/-- A character takes one to four bytes. -/
theorem length_utf8 (l : List Char) : l.length ≤ (utf8 (String.ofList l)).length ∧
    (utf8 (String.ofList l)).length ≤ 4*l.length := by
  rw [utf8_ofList]
  induction l with
  | nil => exact ⟨le_rfl, le_rfl⟩
  | cons c rest ih =>
    have hpos := c.utf8Size_pos
    have hfour := c.utf8Size_le_four
    rw [List.flatMap_cons, List.length_append, List.length_cons, String.length_utf8EncodeChar]
    omega

/-- In the file each byte of a key has a line of its own, under six blanks. -/
theorem length_key_le_print (key : Bytes) :
    8*key.length ≤ (bytesFormat.print (.pretty 2) key).length := by
  refine le_trans ?_ (u8Format.length_print_array (.pretty 2) key)
  have hsum := List.card_nsmul_le_sum (key.map fun b =>
    (Layout.pretty 3).newline.length+(u8Format.print (.pretty 3) b).length) 8 fun n hn => by
      obtain ⟨b, -, rfl⟩ := List.mem_map.mp hn
      obtain ⟨c, cs, heq, -⟩ := u8Format.opens (.pretty 3) b
      have hnewline : (Layout.pretty 3).newline.length = 7 := rfl
      rw [heq, hnewline, List.length_cons]
      omega
  rw [List.length_map, smul_eq_mul, mul_comm] at hsum
  exact hsum

theorem length_key_le_record (dto : RecordDto) :
    8*dto.publicKey.length ≤ (recordFormat.print (.pretty 1) dto).length := by
  -- The key is the second member of the object.
  refine le_trans ?_ (Format.length_le_object _ (.pretty 1) _)
  refine le_trans ?_ (Format.length_le_both_right _ _ (.pretty 2) _)
  refine le_trans ?_ (Format.length_le_both_left _ _ (.pretty 2) _)
  refine le_trans ?_ (Format.length_le_member _ _ (.pretty 2) _)
  exact length_key_le_print dto.publicKey

/-- A file of records with keys of at least `n` bytes. -/
theorem lt_length_render {records : ExtTreeMap PeerId TrustRecord} {n : ℕ}
    (h : ∀ r ∈ OrderedMap.values records, n ≤ r.publicKey.length) :
    records.size*(8*n) < (FileTrustStore.render serdeJson records).length := by
  have hlen : ((OrderedMap.values records).map RecordDto.ofRecord).length = records.size := by
    rw [List.length_map, OrderedMap.values, List.length_map, ExtTreeMap.length_toList]
  have hsum := List.card_nsmul_le_sum
    (((OrderedMap.values records).map RecordDto.ofRecord).map fun dto =>
      (Layout.pretty 1).newline.length+(recordFormat.print (.pretty 1) dto).length) (8*n)
    fun m hm => by
      obtain ⟨dto, hdto, rfl⟩ := List.mem_map.mp hm
      obtain ⟨r, hr, rfl⟩ := List.mem_map.mp hdto
      have hkey : 8*r.publicKey.length ≤ (recordFormat.print (.pretty 1) (.ofRecord r)).length :=
        length_key_le_record (.ofRecord r)
      have := h r hr
      omega
  rw [List.length_map, hlen, smul_eq_mul] at hsum
  have hitems := recordFormat.length_print_array (.pretty 0)
    ((OrderedMap.values records).map RecordDto.ofRecord)
  have hutf8 := (length_utf8 (recordFormat.array.print (.pretty 0)
    ((OrderedMap.values records).map RecordDto.ofRecord))).1
  rw [FileTrustStore.render, List.length_append, List.length_singleton]
  simp only [serdeJson]
  exact Nat.lt_succ_of_le ((hsum.trans hitems).trans hutf8)

end TrustJsonText

namespace Sample

def numberedPeer (i : ℕ) : PeerId := .fromBytes ⟨beBytes 32 i, length_beBytes 32 i⟩

/-- A record with the longest key that is allowed. -/
def largeRecord (i : ℕ) : TrustRecord :=
  { trustRecord 1 with peerId := numberedPeer i, publicKey := List.replicate 4096 7 }

def largeUpserts (n : ℕ) : List (PersistOutcome × TrustStoreOp) :=
  (List.range n).map fun i => (.saved, .upsert (largeRecord i))

def openedFileStore : FileTrustStore :=
  { file := some (FileTrustStore.render TrustJsonText.serdeJson ∅), records := ∅
    maxRecords := defaultMaxTrustRecords }

theorem numberedPeer_injective {i j : ℕ} (hi : i < 256^32) (hj : j < 256^32)
    (h : numberedPeer i = numberedPeer j) : i = j := by
  have hbytes : (numberedPeer i).bytes = (numberedPeer j).bytes := by rw [h]
  simp only [numberedPeer, OpaqueId.fromBytes] at hbytes
  rw [← ofBeBytes_beBytes 32 i hi, hbytes, ofBeBytes_beBytes 32 j hj]

theorem length_largeKey (i : ℕ) : (largeRecord i).publicKey.length = 4096 := List.length_replicate

theorem validateRecord_largeRecord (i : ℕ) : validateRecord (largeRecord i) = .ok () := by
  have hsmall : validateRecord (trustRecord 1) = .ok () := rfl
  unfold validateRecord at hsmall ⊢
  split at hsmall
  · cases hsmall
  next hlimits =>
  rw [if_neg]
  rintro (hkey | hkey | hrest)
  · have hlen := length_largeKey i
    rw [hkey] at hlen
    cases hlen
  · rw [length_largeKey] at hkey
    exact absurd hkey (by decide)
  · exact hlimits (.inr (.inr hrest))

/-- The store after the first `n` of the large records. -/
structure Filled (n : ℕ) (s : FileTrustStore) : Prop where
  size_eq : s.records.size = n
  keys : ∀ (peerId : PeerId) (r : TrustRecord), s.records[peerId]? = some r →
    (∃ i < n, peerId = numberedPeer i) ∧ r.publicKey.length = 4096
  limit : s.maxRecords = defaultMaxTrustRecords
  written : s.file = some (FileTrustStore.render TrustJsonText.serdeJson s.records)

theorem Filled.upsert {n : ℕ} (hn : n < 1024) {s : FileTrustStore} (h : Filled n s) :
    (s.step sha256 TrustJsonText.serdeJson (.saved, .upsert (largeRecord n))).1.failed = false ∧
      Filled (n+1) (s.step sha256 TrustJsonText.serdeJson (.saved, .upsert (largeRecord n))).2 := by
  have hnew : numberedPeer n ∉ s.records := fun hmem => by
    obtain ⟨r, hr⟩ := Option.isSome_iff_exists.mp (ExtTreeMap.mem_iff_isSome_getElem?.mp hmem)
    obtain ⟨i, hi, heq⟩ := (h.keys _ r hr).1
    have := numberedPeer_injective (by omega) (by omega) heq
    omega
  have hroom : ¬(s.records.contains (largeRecord n).peerId = false ∧
      s.maxRecords ≤ s.records.size) := by
    rintro ⟨-, hle⟩
    rw [h.limit, h.size_eq, defaultMaxTrustRecords] at hle
    omega
  have hstep : s.upsert TrustJsonText.serdeJson .saved (largeRecord n) =
      (.ok (), s.saved TrustJsonText.serdeJson
        (s.records.insert (numberedPeer n) (largeRecord n))) := by
    rw [FileTrustStore.upsert, validateRecord_largeRecord]
    simp only [if_neg hroom]
    rfl
  simp only [FileTrustStore.step, hstep, Prod.map_fst, Prod.map_snd, id]
  refine ⟨rfl, ?_, fun peerId r hr => ?_, h.limit, rfl⟩
  · simp only [FileTrustStore.saved]
    rw [ExtTreeMap.size_insert, if_neg (mt ExtTreeMap.contains_iff_mem.mp hnew), h.size_eq]
  · simp only [FileTrustStore.saved, ExtTreeMap.getElem?_insert] at hr
    split at hr
    · next heq =>
      obtain rfl := Option.some.inj hr
      exact ⟨⟨n, by omega, (Std.compare_eq_iff_eq.mp heq).symm⟩, length_largeKey n⟩
    · obtain ⟨⟨i, hi, hpeer⟩, hkey⟩ := h.keys peerId r hr
      exact ⟨⟨i, by omega, hpeer⟩, hkey⟩

theorem filled_largeUpserts {n : ℕ} (hn : n ≤ 1024) :
    (∀ e ∈ RunHistory.trace (FileTrustStore.step sha256 TrustJsonText.serdeJson) openedFileStore
      (largeUpserts n), e.reply.failed = false) ∧
    Filled n (RunHistory.run (FileTrustStore.step sha256 TrustJsonText.serdeJson) openedFileStore
      (largeUpserts n)) := by
  induction n with
  | zero =>
    have hnil : largeUpserts 0 = [] := rfl
    rw [hnil, RunHistory.trace_nil, RunHistory.run_nil]
    refine ⟨fun e he => absurd he List.not_mem_nil, ?_, fun peerId r hr => ?_, ?_, ?_⟩
    · rfl
    · simp [openedFileStore] at hr
    · rfl
    · rfl
  | succ n ih =>
    obtain ⟨hreplies, hfilled⟩ := ih (by omega)
    obtain ⟨hreply, hnext⟩ := hfilled.upsert (by omega)
    have hcalls : largeUpserts (n+1) = largeUpserts n ++ [(.saved, .upsert (largeRecord n))] := by
      rw [largeUpserts, List.range_succ, List.map_append]
      rfl
    rw [hcalls, RunHistory.trace_concat, RunHistory.run_concat]
    refine ⟨fun e he => ?_, hnext⟩
    rcases List.mem_append.mp he with he | he
    · exact hreplies e he
    · rw [List.mem_singleton.mp he]
      simp only [RunHistory.event, hreply]

/-- With 512 such records the file has outgrown its limit. -/
theorem Filled.refused {s : FileTrustStore} (h : Filled 512 s) :
    FileTrustStore.openWithLimit TrustJsonText.serdeJson .saved s.file defaultMaxTrustRecords =
      .error (.failed FileTrustStore.limitError) := by
  have hlarge : maxTrustStoreFileBytes <
      (FileTrustStore.render TrustJsonText.serdeJson s.records).length := by
    have hkeys : ∀ r ∈ OrderedMap.values s.records, 4096 ≤ r.publicKey.length := fun r hr => by
      obtain ⟨peerId, hr⟩ := (OrderedMap.mem_values _ _).mp hr
      exact (h.keys peerId r hr).2.ge
    have hlt := TrustJsonText.lt_length_render hkeys
    rw [h.size_eq] at hlt
    exact lt_of_le_of_lt (by decide) hlt
  rw [h.written, FileTrustStore.openWithLimit, if_neg (by decide)]
  simp only [FileTrustStore.readRecords, if_pos hlarge]

end Sample

namespace FileTrustStore

theorem sample_opened : openWithLimit TrustJsonText.serdeJson .saved none defaultMaxTrustRecords =
    .ok Sample.openedFileStore := rfl

/-- Half as many records as the default limit allows make a file that is never opened again. -/
theorem sample_full_store_does_not_reopen :
    openWithLimit TrustJsonText.serdeJson .saved none defaultMaxTrustRecords =
      .ok Sample.openedFileStore ∧
    (∀ e ∈ RunHistory.trace (FileTrustStore.step Sample.sha256 TrustJsonText.serdeJson)
      Sample.openedFileStore (Sample.largeUpserts 512), e.reply.failed = false) ∧
    openWithLimit TrustJsonText.serdeJson .saved
      (RunHistory.run (FileTrustStore.step Sample.sha256 TrustJsonText.serdeJson)
        Sample.openedFileStore (Sample.largeUpserts 512)).file defaultMaxTrustRecords =
      .error (.failed limitError) := by
  obtain ⟨hreplies, hfilled⟩ := Sample.filled_largeUpserts (n := 512) (by decide)
  exact ⟨sample_opened, hreplies, hfilled.refused⟩

/-- Two records come and one of them goes. A third one is not written. -/
def Sample.smallCalls : List (PersistOutcome × TrustStoreOp) :=
  [(.saved, .upsert (Sample.trustRecord 1)), (.saved, .upsert (Sample.trustRecord 2)),
    (.saved, .remove (Sample.trustedPeer 1)), (.renderFailed, .upsert (Sample.trustRecord 3))]

/-- The store is opened as it was, with the record that it holds. -/
theorem sample_small_store_reopens :
    let s := RunHistory.run (FileTrustStore.step Sample.sha256 TrustJsonText.serdeJson)
      Sample.openedFileStore Sample.smallCalls
    s.list = .ok [Sample.trustRecord 2] ∧
    openWithLimit TrustJsonText.serdeJson .saved s.file defaultMaxTrustRecords = .ok s := by
  intro s
  obtain ⟨contents, hfile, hwritten | hnone, hiff⟩ := reopens_iff_file_within_limit Sample.sha256
    TrustJsonText.serdeJson sample_opened Sample.smallCalls
  · have hvalues : OrderedMap.values s.records = [Sample.trustRecord 2] := rfl
    have hprint : (TrustJsonText.recordFormat.array.print (.pretty 0)
        [.ofRecord (Sample.trustRecord 2)]).length ≤ 2000 := by decide +kernel
    refine ⟨congrArg Except.ok hvalues, (hiff .saved).mpr ?_⟩
    rw [hwritten, render, hvalues, List.length_append, List.length_singleton]
    have hbytes := (TrustJsonText.length_utf8 (TrustJsonText.recordFormat.array.print (.pretty 0)
      [.ofRecord (Sample.trustRecord 2)])).2
    simp only [TrustJsonText.serdeJson, List.map_cons, List.map_nil, maxTrustStoreFileBytes]
    omega
  · cases hnone

end FileTrustStore

end MutsukiLink
