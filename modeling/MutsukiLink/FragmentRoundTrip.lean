import MutsukiLink.ReassemblerRuns

/-! The fragments of one payload, pushed in any order and any number of times, give the payload
back once. -/
namespace MutsukiLink
open WireBytes PieceAssembly RealtimeWorld

/-- A list that reaches all of some elements reaches the last missing one of them somewhere. -/
theorem exists_last_missing {α : Type} {required : List α} (hne : required ≠ []) {l : List α}
    (hall : ∀ x ∈ required, x ∈ l) :
    ∃ before x after, l = before ++ x :: after ∧ x ∈ required ∧ x ∉ before ∧
      ∀ y ∈ required, y ∈ before ++ [x] := by
  induction l using List.reverseRecOn with
  | nil =>
    obtain ⟨x, hx⟩ := List.exists_mem_of_ne_nil required hne
    exact absurd (hall x hx) List.not_mem_nil
  | append_singleton l z ih =>
    by_cases hearly : ∀ x ∈ required, x ∈ l
    · obtain ⟨before, x, after, rfl, hx, hnew, hcover⟩ := ih hearly
      refine ⟨before, x, after ++ [z], ?_, hx, hnew, hcover⟩
      rw [List.append_assoc, List.cons_append]
    · push Not at hearly
      obtain ⟨y, hy, hmissing⟩ := hearly
      have heq : y = z := by
        rcases List.mem_append.mp (hall y hy) with hmem | hmem
        · exact absurd hmem hmissing
        · exact List.mem_singleton.mp hmem
      exact ⟨l, z, [], rfl, heq ▸ hy, heq ▸ hmissing, hall⟩

section Sending
variable {σ : Type} (connection : LatestConnection σ)

/-- The connection with a record of the datagrams that it was asked to send. -/
def LatestConnection.recorded : LatestConnection (σ × List RealtimeDatagram) where
  maxDatagramPayload s := connection.maxDatagramPayload s.1
  trySendLatest s datagram :=
    let (result, s') := connection.trySendLatest s.1 datagram
    (result, s', s.2 ++ [datagram])

/-- The datagrams of one publication. -/
def sentFragments (ε : Type) (s : σ) (request : FragmentSend) : List RealtimeDatagram :=
  (sendFragmented (ε := ε) connection.recorded (s, []) request).2.2

variable {connection} {ε : Type} {request : FragmentSend} {size : ℕ} {s : σ}

theorem recorded_trySendLatest {datagram : RealtimeDatagram} (sent : List RealtimeDatagram)
    {result : Except TransportError SendOutcome} {s' : σ}
    (h : connection.trySendLatest s datagram = (result, s')) :
    connection.recorded.trySendLatest (s, sent) datagram = (result, s', sent ++ [datagram]) := by
  simp only [LatestConnection.recorded, h]

/-- The record changes nothing else. -/
theorem sendChunks_recorded (chunks : List (Bytes × ℕ)) (sent : List RealtimeDatagram)
    (aggregate : FragmentBatchOutcome) :
    (sendChunks (ε := ε) connection.recorded request size chunks (s, sent) aggregate).1 =
      (sendChunks (ε := ε) connection request size chunks s aggregate).1 := by
  induction chunks generalizing s sent aggregate with
  | nil => rfl
  | cons chunk rest ih =>
    obtain ⟨bytes, index⟩ := chunk
    rw [sendChunks, sendChunks]
    cases fragmentBytes (ε := ε) index (count request.payload size) (index*size)
      request.payload.length bytes with
    | error e => rfl
    | ok payload =>
      obtain ⟨result, s', hsend⟩ : ∃ result s',
          connection.trySendLatest s (request.datagram payload) = (result, s') := ⟨_, _, rfl⟩
      have hrecorded := recorded_trySendLatest sent hsend
      rw [FragmentSend.datagram] at hsend hrecorded
      simp only [hsend, hrecorded]
      cases result with
      | error e => rfl
      | ok result =>
        cases result with
        | enqueued | replacedOlder => exact ih _ _
        | _ => rfl

theorem sendFragmented_recorded (s : σ) (request : FragmentSend) :
    (sendFragmented (ε := ε) connection.recorded (s, []) request).1 =
      (sendFragmented (ε := ε) connection s request).1 := by
  unfold sendFragmented
  split
  · rfl
  have hlimit : connection.recorded.maxDatagramPayload (s, []) =
      connection.maxDatagramPayload s := rfl
  rw [hlimit]
  cases connection.maxDatagramPayload s with
  | none => rfl
  | some maxPayload =>
    simp only
    split
    · rfl
    split
    · rfl
    · exact sendChunks_recorded _ _ _

/-- A loop without drops sends every chunk, and every number has fitted its field. -/
theorem sendChunks_delivered {chunks : List (Bytes × ℕ)} {sent : List RealtimeDatagram}
    {aggregate outcome : FragmentBatchOutcome}
    (hchunks : ∀ chunk ∈ chunks, chunk.1 = piece request.payload size chunk.2)
    (hok : (sendChunks (ε := ε) connection.recorded request size chunks (s, sent) aggregate).1 =
      .ok outcome) (hall : outcome.expired = 0 ∧ outcome.congested = 0) :
    (sendChunks (ε := ε) connection.recorded request size chunks (s, sent) aggregate).2.2 =
        sent ++ chunks.map (fun chunk =>
          request.datagram (fragmentWire request.payload size chunk.2)) ∧
      (chunks ≠ [] → request.payload.length < 2^32) := by
  induction chunks generalizing s sent aggregate with
  | nil => exact ⟨(List.append_nil sent).symm, fun h => absurd rfl h⟩
  | cons chunk rest ih =>
    obtain ⟨bytes, index⟩ := chunk
    obtain ⟨hbytes, hrest⟩ := List.forall_mem_cons.mp hchunks
    simp only at hbytes
    subst hbytes
    rw [sendChunks] at hok ⊢
    by_cases hlarge : 2^16 ≤ index ∨ 2^16 ≤ count request.payload size ∨ 2^32 ≤ index*size ∨
        2^32 ≤ request.payload.length
    · rw [fragmentBytes, if_pos hlarge] at hok
      cases hok
    have hlength : request.payload.length < 2^32 := by omega
    have hwire : fragmentBytes (ε := ε) index (count request.payload size) (index*size)
        request.payload.length (piece request.payload size index) =
          .ok (fragmentWire request.payload size index) := if_neg hlarge
    obtain ⟨result, s', hsend⟩ : ∃ result s', connection.trySendLatest s
        (request.datagram (fragmentWire request.payload size index)) = (result, s') := ⟨_, _, rfl⟩
    have hrecorded := recorded_trySendLatest sent hsend
    have hmore : sent ++ (request.datagram (fragmentWire request.payload size index) ::
        rest.map fun chunk => request.datagram (fragmentWire request.payload size chunk.2)) =
        sent ++ [request.datagram (fragmentWire request.payload size index)] ++
          rest.map fun chunk => request.datagram (fragmentWire request.payload size chunk.2) := by
      rw [List.append_assoc, List.singleton_append]
    refine ⟨?_, fun _ => hlength⟩
    rw [List.map_cons, hmore]
    rw [FragmentSend.datagram] at hrecorded
    simp only [hwire, hrecorded] at hok ⊢
    cases result with
    | error e => cases hok
    | ok result =>
      cases result with
      | enqueued | replacedOlder => exact (ih hrest hok).1
      | unsupported => cases hok
      | droppedExpired | droppedCongested =>
        -- A drop is counted, and the counts are not zero.
        obtain rfl := Except.ok.inj hok
        simp only [saturatingAdd] at hall
        omega

theorem map_zipIdx_pieces {β : Type} (f : ℕ → β) (payload : Bytes) (size : ℕ) :
    (pieces payload size).zipIdx.map (fun chunk => f chunk.2) =
      (List.range (count payload size)).map f := by
  have hindices : (pieces payload size).zipIdx.map Prod.snd = List.range (count payload size) := by
    rw [List.zipIdx_map_snd, pieces, List.length_map, List.length_range, List.range_eq_range']
  rw [← hindices, List.map_map]
  rfl

/-- A publication without drops sends all fragments of its payload, at the size that the
connection leaves for them. -/
theorem sendFragmented_delivered {outcome : FragmentBatchOutcome}
    (hok : (sendFragmented (ε := ε) connection s request).1 = .ok outcome)
    (hall : outcome.deliveredToTransport = true) :
    ∃ size, connection.maxDatagramPayload s = some (size+fragmentHeaderLen) ∧
      Cuts request.config request.payload size ∧
      sentFragments connection ε s request = (List.range (count request.payload size)).map
        fun index => request.datagram (fragmentWire request.payload size index) := by
  simp only [FragmentBatchOutcome.deliveredToTransport, Bool.and_eq_true, decide_eq_true_eq] at hall
  rw [← sendFragmented_recorded] at hok
  unfold sentFragments
  unfold sendFragmented at hok ⊢
  -- The checks in front of the loop have passed, because the call succeeded.
  by_cases hsize : request.payload = [] ∨
      request.config.maxReassemblyBytes < request.payload.length
  · rw [if_pos hsize] at hok
    cases hok
  have hlimit : connection.recorded.maxDatagramPayload (s, []) =
      connection.maxDatagramPayload s := rfl
  rw [if_neg hsize, hlimit] at hok ⊢
  cases hmax : connection.maxDatagramPayload s with
  | none =>
    rw [hmax] at hok
    cases hok
  | some maxPayload =>
    simp only [hmax] at hok ⊢
    by_cases hsmall : maxPayload ≤ fragmentHeaderLen
    · rw [if_pos hsmall] at hok
      cases hok
    rw [if_neg hsmall] at hok ⊢
    by_cases hmany : request.config.maxFragments < count request.payload
        (maxPayload-fragmentHeaderLen) ∨
        2^16-1 < count request.payload (maxPayload-fragmentHeaderLen)
    · rw [if_pos hmany] at hok
      cases hok
    rw [if_neg hmany] at hok ⊢
    obtain ⟨hsent, hlength⟩ := sendChunks_delivered
      (fun chunk hchunk => (mem_zipIdx_pieces hchunk).2) hok ⟨hall.1.2, hall.2⟩
    have hpos : 0 < request.payload.length := List.length_pos_iff.mpr fun hnil => hsize (.inl hnil)
    -- There is a first piece, and to send it the length had to fit its field.
    have hsome : (pieces request.payload (maxPayload-fragmentHeaderLen)).zipIdx ≠ [] := by
      have hcount : 0 < count request.payload (maxPayload-fragmentHeaderLen) := by
        rw [lt_count_iff (by omega), Nat.zero_mul]
        exact hpos
      intro hnil
      have hzero := congrArg List.length hnil
      rw [List.length_zipIdx, pieces, List.length_map, List.length_range, List.length_nil] at hzero
      omega
    refine ⟨maxPayload-fragmentHeaderLen, by rw [Nat.sub_add_cancel (by omega)],
      ⟨by omega, hpos, by omega, by omega, by omega, hlength hsome⟩, ?_⟩
    rw [hsent, List.nil_append]
    exact map_zipIdx_pieces
      (fun index => request.datagram (fragmentWire request.payload _ index)) _ _

end Sending

section Gathering
variable {ε : Type} {config : BindingConfig} {payload : Bytes} {size index : ℕ} {g : UInt32}
  {s : UInt64} {a : Reassembler} {r : Reassembly} {seen : List Bytes}

theorem fragmentWire_inj (hcuts : Cuts config payload size) {i j : ℕ}
    (hi : i < count payload size) (hj : j < count payload size)
    (h : fragmentWire payload size i = fragmentWire payload size j) : i = j := by
  have hdecoded := decode_wire (ε := Empty) hcuts hi
  rw [h, decode_wire hcuts hj, Except.ok.injEq] at hdecoded
  exact (congrArg Fragment.index hdecoded).symm

theorem mem_fragments (bytes : Bytes) :
    bytes ∈ (List.range (count payload size)).map (fragmentWire payload size) ↔
      IsFragment payload size bytes := by
  rw [List.mem_map]
  constructor
  · intro h
    obtain ⟨index, hindex, rfl⟩ := h
    exact ⟨index, List.mem_range.mp hindex, rfl⟩
  · intro h
    obtain ⟨index, hindex, rfl⟩ := h
    exact ⟨index, List.mem_range.mpr hindex, rfl⟩

theorem length_fragmentWire (payload : Bytes) (size index : ℕ) :
    (fragmentWire payload size index).length ≤ size+fragmentHeaderLen := by
  have hpiece : (piece payload size index).length ≤ size := List.length_take_le _ _
  simp only [fragmentWire, List.length_append, length_beBytes, fragmentMagic, List.length_cons,
    List.length_nil, fragmentHeaderLen]
  omega

/-- Of the fragments of a payload the assembly has those that were seen. -/
structure Gathered (r : Reassembly) (payload : Bytes) (size : ℕ) (seen : List Bytes) : Prop where
  assembles : Assembles r payload size
  vacant_iff : ∀ i < count payload size,
    r.slots[i]? = some none ↔ fragmentWire payload size i ∉ seen

theorem Gathered.filledAt (h : Gathered r payload size seen) (hcuts : Cuts config payload size)
    (hindex : index < count payload size) (hnew : fragmentWire payload size index ∉ seen) :
    Gathered (r.filledAt payload size index) payload size
      (seen ++ [fragmentWire payload size index]) := by
  have hvacant := (h.vacant_iff index hindex).mpr hnew
  obtain ⟨hlt, -⟩ := List.getElem?_eq_some_iff.mp hvacant
  refine ⟨h.assembles.filledAt hcuts hvacant, fun i hi => ?_⟩
  simp only [Reassembly.filledAt, List.mem_append, List.mem_singleton, not_or]
  by_cases heq : i = index
  · subst heq
    rw [List.getElem?_set_self hlt]
    simp
  · have hother : fragmentWire payload size i ≠ fragmentWire payload size index :=
      fun h => heq (fragmentWire_inj hcuts hi hindex h)
    rw [List.getElem?_set_ne (Ne.symm heq), h.vacant_iff i hi]
    exact (and_iff_left hother).symm

/-- An assembly is complete when all fragments were seen, and not before. -/
theorem Gathered.received_lt_iff (h : Gathered r payload size seen) :
    r.received < r.fragmentCount ↔
      ∃ i < count payload size, fragmentWire payload size i ∉ seen := by
  have hcount : r.fragmentCount = r.slots.length := by
    rw [h.assembles.count_eq, h.assembles.slots_length]
  have hle : r.slots.countP Option.isSome ≤ r.slots.length := List.countP_le_length
  rw [h.assembles.received_eq, hcount, Nat.lt_iff_le_and_ne]
  constructor
  · rintro ⟨-, hne⟩
    rw [Ne, List.countP_eq_length] at hne
    push Not at hne
    obtain ⟨slot, hslot, hnone⟩ := hne
    obtain ⟨i, hi, rfl⟩ := List.mem_iff_getElem.mp hslot
    have hlt : i < count payload size := h.assembles.slots_length ▸ hi
    refine ⟨i, hlt, (h.vacant_iff i hlt).mp ?_⟩
    rw [List.getElem?_eq_getElem hi, Option.not_isSome_iff_eq_none.mp hnone]
  · rintro ⟨i, hi, hmissing⟩
    refine ⟨hle, fun hall => ?_⟩
    have hvacant := List.mem_of_getElem? ((h.vacant_iff i hi).mpr hmissing)
    cases List.countP_eq_length.mp hall none hvacant

/-- Nothing was completed yet, and the assembly has the fragments that were seen. -/
structure Gathers (a : Reassembler) (g : UInt32) (s : UInt64) (payload : Bytes) (size : ℕ)
    (seen : List Bytes) : Prop where
  last : a.lastCompleted = none
  wf : a.Wf
  state : (a.state = none ∧ seen = []) ∨
    ∃ r, a.state = some r ∧ r.key = (g, s) ∧ Gathered r payload size seen

theorem gathers_new : Gathers Reassembler.new g s payload size [] :=
  ⟨rfl, Reassembler.wf_new, .inl ⟨rfl, rfl⟩⟩

theorem Gathers.isOld (h : Gathers a g s payload size seen) (g' : UInt32) (s' : UInt64) :
    a.isOld g' s' = false := by
  rw [Reassembler.isOld, h.last]
  rfl

/-- A fragment that comes again changes nothing. -/
theorem Gathers.push_seen (h : Gathers a g s payload size seen) (hcuts : Cuts config payload size)
    (hindex : index < count payload size) (hseen : fragmentWire payload size index ∈ seen) :
    a.push (ε := ε) g s (fragmentWire payload size index) config = (.ok (.pending false), a) := by
  rcases h.state with ⟨-, hnil⟩ | ⟨r, hstate, hkey, hr⟩
  · rw [hnil] at hseen
    exact absurd hseen List.not_mem_nil
  have hlt : index < r.slots.length := hr.assembles.slots_length.symm ▸ hindex
  have hget := List.getElem?_eq_getElem hlt
  cases hslot : r.slots[index] with
  | none =>
    rw [hslot] at hget
    exact absurd hseen ((hr.vacant_iff index hindex).mp hget)
  | some slot =>
    rw [hslot] at hget
    have hinsert := hr.assembles.insert_again (ε := ε) hget
    rw [Reassembler.push_same (h.isOld g s) (decode_wire hcuts hindex) hstate hkey,
      Reassembler.pushInto_of_insert hr.assembles.count_eq hr.assembles.total_eq hinsert]
    exact Reassembler.settle_incomplete hstate (h.wf r hstate).2

/-- A fragment that was missing goes into the assembly. -/
theorem Gathers.push_unseen (h : Gathers a g s payload size seen)
    (hcuts : Cuts config payload size) (hindex : index < count payload size)
    (hnew : fragmentWire payload size index ∉ seen) :
    ∃ r, r.key = (g, s) ∧ Gathered r payload size (seen ++ [fragmentWire payload size index]) ∧
      a.push (ε := ε) g s (fragmentWire payload size index) config = a.settle r false := by
  have hdecode := decode_wire (ε := ε) hcuts hindex
  have hfits := (decode_fits hdecode).1
  rcases h.state with ⟨hstate, hnil⟩ | ⟨r, hstate, hkey, hr⟩
  · -- The first fragment: the assembly is a fresh one.
    subst hnil
    let r := Reassembly.empty g s (fragmentAt payload size index)
    have hr : Gathered r payload size [] := by
      refine ⟨assembles_empty payload size g s, fun i hi => ?_⟩
      simp only [r, Reassembly.empty, fragmentAt, List.getElem?_replicate, hi, if_true,
        List.not_mem_nil, not_false_eq_true]
    have hfills : a.Fills ε g s (fragmentWire payload size index) config
        (fragmentAt payload size index) r false := by
      refine ⟨h.isOld g s, hdecode, .inr ⟨rfl, ?_, ?_⟩, Reassembly.empty_vacant hfits g s⟩
      · rw [hstate]
        rfl
      · intro current hcurrent
        rw [hstate] at hcurrent
        cases hcurrent
    exact ⟨r.filledAt payload size index, rfl, hr.filledAt hcuts hindex hnew, hfills.push_eq h.wf⟩
  · have hfills : a.Fills ε g s (fragmentWire payload size index) config
        (fragmentAt payload size index) r false :=
      ⟨h.isOld g s, hdecode, .inl ⟨hstate, hkey, hr.assembles.count_eq, hr.assembles.total_eq, rfl⟩,
        (hr.vacant_iff index hindex).mpr hnew⟩
    exact ⟨r.filledAt payload size index, hkey, hr.filledAt hcuts hindex hnew,
      hfills.push_eq h.wf⟩

/-- While a fragment is missing a push is pending. -/
theorem Gathers.push_pending (h : Gathers a g s payload size seen)
    (hcuts : Cuts config payload size) (hindex : index < count payload size)
    (hmissing : ∃ j < count payload size,
      fragmentWire payload size j ∉ seen ++ [fragmentWire payload size index]) :
    (a.push (ε := ε) g s (fragmentWire payload size index) config).1 = .ok (.pending false) ∧
      Gathers (a.push (ε := ε) g s (fragmentWire payload size index) config).2 g s payload size
        (seen ++ [fragmentWire payload size index]) := by
  have hwf := Reassembler.push_wf (ε := ε) h.wf g s (fragmentWire payload size index) config
  by_cases hseen : fragmentWire payload size index ∈ seen
  · have hsame : ∀ bytes, bytes ∈ seen ++ [fragmentWire payload size index] ↔ bytes ∈ seen := by
      intro bytes
      rw [List.mem_append, List.mem_singleton]
      exact ⟨fun hor => hor.elim id fun heq => heq ▸ hseen, Or.inl⟩
    rw [h.push_seen hcuts hindex hseen]
    refine ⟨rfl, h.last, h.wf, ?_⟩
    rcases h.state with ⟨-, hnil⟩ | ⟨r, hstate, hkey, hr⟩
    · rw [hnil] at hseen
      exact absurd hseen List.not_mem_nil
    · refine .inr ⟨r, hstate, hkey, hr.assembles, fun i hi => ?_⟩
      rw [hr.vacant_iff i hi, hsame]
  · obtain ⟨r, hkey, hr, hpush⟩ := h.push_unseen (ε := ε) hcuts hindex hseen
    have hfalse : r.complete = false :=
      decide_eq_false (Nat.ne_of_lt (hr.received_lt_iff.mpr hmissing))
    rw [hpush, Reassembler.settle, if_pos hfalse] at hwf ⊢
    exact ⟨rfl, h.last, hwf, .inr ⟨r, rfl, hkey, hr⟩⟩

/-- The last missing fragment completes the payload. -/
theorem Gathers.push_last (h : Gathers a g s payload size seen) (hcuts : Cuts config payload size)
    (hindex : index < count payload size) (hnew : fragmentWire payload size index ∉ seen)
    (hall : ∀ j < count payload size,
      fragmentWire payload size j ∈ seen ++ [fragmentWire payload size index]) :
    a.push (ε := ε) g s (fragmentWire payload size index) config =
      (.ok (.complete g s payload false), ⟨none, some (g, s)⟩) := by
  obtain ⟨r, hkey, hr, hpush⟩ := h.push_unseen (ε := ε) hcuts hindex hnew
  obtain ⟨hg, hs⟩ := Prod.mk.inj hkey
  have hcomplete : r.complete = true := by
    apply decide_eq_true
    have hnot : ¬r.received < r.fragmentCount := by
      rw [hr.received_lt_iff]
      rintro ⟨j, hj, hmissing⟩
      exact hmissing (hall j hj)
    have hle : r.received ≤ r.fragmentCount := by
      rw [hr.assembles.received_eq, hr.assembles.count_eq, ← hr.assembles.slots_length]
      exact List.countP_le_length
    omega
  rw [hpush, Reassembler.settle, if_neg (by rw [hcomplete]; decide)]
  simp only [hr.assembles.finish (ε := ε) hcuts hcomplete, hg, hs]

/-- The events of such pushes and the byte strings. -/
theorem input_of_mem_trace {l : List Bytes} {e : ReassemblerEvent ε}
    (he : e ∈ RunHistory.trace Reassembler.step a (pushesOf g s config l)) :
    ∃ bytes ∈ l, e.input = .push g s bytes config := by
  have hmem := List.mem_map_of_mem (f := RunHistory.Event.input) he
  rw [RunHistory.map_input_trace, pushesOf, List.mem_map] at hmem
  obtain ⟨bytes, hbytes, heq⟩ := hmem
  exact ⟨bytes, hbytes, heq.symm⟩

theorem mem_trace_of_input (a : Reassembler) (g : UInt32) (s : UInt64) (config : BindingConfig)
    {l : List Bytes} {bytes : Bytes} (hbytes : bytes ∈ l) :
    ∃ e ∈ RunHistory.trace (Reassembler.step (ε := ε)) a (pushesOf g s config l),
      e.input = .push g s bytes config := by
  have hmem : ReassemblerCall.push g s bytes config ∈ pushesOf g s config l :=
    List.mem_map_of_mem hbytes
  rw [← RunHistory.map_input_trace (Reassembler.step (ε := ε)) a (pushesOf g s config l)] at hmem
  exact List.mem_map.mp hmem

/-- Until the last missing fragment comes, all pushes are pending. -/
theorem Gathers.run (h : Gathers a g s payload size seen) (hcuts : Cuts config payload size)
    {l : List Bytes} (hl : ∀ bytes ∈ l, IsFragment payload size bytes)
    (hmissing : ∃ j < count payload size, fragmentWire payload size j ∉ seen ++ l) :
    Gathers (RunHistory.run (Reassembler.step (ε := ε)) a (pushesOf g s config l)) g s payload size
        (seen ++ l) ∧
      ∀ e ∈ RunHistory.trace (Reassembler.step (ε := ε)) a (pushesOf g s config l),
        e.reply = .pushed (.ok (.pending false)) := by
  induction l generalizing a seen with
  | nil =>
    rw [List.append_nil]
    exact ⟨h, by simp [pushesOf]⟩
  | cons bytes rest ih =>
    -- Something is still missing after this fragment, so that it does not complete the payload.
    obtain ⟨⟨index, hindex, rfl⟩, hrest⟩ := List.forall_mem_cons.mp hl
    have hsplit : seen ++ fragmentWire payload size index :: rest =
        seen ++ [fragmentWire payload size index] ++ rest := by
      rw [List.append_assoc, List.singleton_append]
    have hnow : ∃ j < count payload size,
        fragmentWire payload size j ∉ seen ++ [fragmentWire payload size index] := by
      obtain ⟨j, hj, hnot⟩ := hmissing
      refine ⟨j, hj, fun hmem => hnot ?_⟩
      rw [hsplit]
      exact List.mem_append_left _ hmem
    change ∃ j < count payload size,
      _ ∉ seen ++ fragmentWire payload size index :: rest at hmissing
    rw [hsplit] at hmissing
    obtain ⟨hreply, hnext⟩ := h.push_pending (ε := ε) hcuts hindex hnow
    obtain ⟨hend, htrace⟩ := ih hnext hrest hmissing
    change Gathers _ g s payload size (seen ++ fragmentWire payload size index :: rest) ∧ _
    rw [hsplit]
    refine ⟨hend, ?_⟩
    change ∀ e ∈ RunHistory.event _ a _ :: RunHistory.trace _ _ (pushesOf g s config rest), _
    refine List.forall_mem_cons.mpr ⟨?_, htrace⟩
    exact congrArg ReassemblerReply.pushed hreply

/-- Pushes under a completed generation and sequence are ignored. -/
theorem trace_completed (g : UInt32) (s : UInt64) (config : BindingConfig) (l : List Bytes) :
    ∀ e ∈ RunHistory.trace (Reassembler.step (ε := ε)) ⟨none, some (g, s)⟩ (pushesOf g s config l),
      e.reply = .pushed (.ok .ignoredOld) := by
  have hold : (⟨none, some (g, s)⟩ : Reassembler).isOld g s = true := by
    simp [Reassembler.isOld]
  induction l with
  | nil => simp [pushesOf]
  | cons bytes rest ih =>
    have hpush : (⟨none, some (g, s)⟩ : Reassembler).push (ε := ε) g s bytes config =
        (.ok .ignoredOld, ⟨none, some (g, s)⟩) := if_pos hold
    have hstep : Reassembler.step (ε := ε) ⟨none, some (g, s)⟩ (.push g s bytes config) =
        (.pushed (.ok .ignoredOld), ⟨none, some (g, s)⟩) := by
      rw [Reassembler.step, hpush]
    rw [pushesOf, List.map_cons, RunHistory.trace_cons, RunHistory.event, hstep]
    exact List.forall_mem_cons.mpr ⟨rfl, ih⟩

/-- A run of pushes around one of them. -/
theorem trace_pushesOf (a : Reassembler) (g : UInt32) (s : UInt64) (config : BindingConfig)
    (before : List Bytes) (x : Bytes) (after : List Bytes) :
    RunHistory.trace (Reassembler.step (ε := ε)) a (pushesOf g s config (before ++ x :: after)) =
      RunHistory.trace (Reassembler.step (ε := ε)) a (pushesOf g s config before) ++
      RunHistory.event (Reassembler.step (ε := ε))
        (RunHistory.run (Reassembler.step (ε := ε)) a (pushesOf g s config before))
        (.push g s x config) ::
      RunHistory.trace (Reassembler.step (ε := ε))
        (Reassembler.step (ε := ε)
          (RunHistory.run (Reassembler.step (ε := ε)) a (pushesOf g s config before))
          (.push g s x config)).2 (pushesOf g s config after) := by
  rw [pushesOf, List.map_append, RunHistory.trace_append, List.map_cons, RunHistory.trace_cons]
  rfl

/-- The fragments of a payload in any order: pending until the last missing one, which completes
the payload, and ignored from there on. -/
theorem pushes_reassemble (hcuts : Cuts config payload size) (g : UInt32) (s : UInt64)
    {pushed : List Bytes} (hpushed : ∀ bytes, bytes ∈ pushed ↔ IsFragment payload size bytes) :
    ∃ before last after,
      RunHistory.trace (Reassembler.step (ε := ε)) Reassembler.new (pushesOf g s config pushed) =
        before ++ last :: after ∧
      last.reply = .pushed (.ok (.complete g s payload false)) ∧
      (∀ e ∈ before, e.reply = .pushed (.ok (.pending false)) ∧ e.input ≠ last.input) ∧
      (∀ e ∈ after, e.reply = .pushed (.ok .ignoredOld) ∧
        ∃ e' ∈ before ++ [last], e'.input = e.input) := by
  let required := (List.range (count payload size)).map (fragmentWire payload size)
  have hrequired : ∀ bytes, bytes ∈ required ↔ IsFragment payload size bytes := mem_fragments
  have hne : required ≠ [] := by
    have hcount : 0 < count payload size := by
      rw [lt_count_iff hcuts.size_pos, Nat.zero_mul]
      exact hcuts.nonempty
    exact List.ne_nil_of_mem ((hrequired _).mpr ⟨0, hcount, rfl⟩)
  obtain ⟨before, x, after, rfl, hx, hnew, hcover⟩ :=
    exists_last_missing hne fun bytes hbytes => (hpushed bytes).mpr ((hrequired bytes).mp hbytes)
  obtain ⟨index, hindex, hwire⟩ := (hrequired x).mp hx
  obtain rfl : x = fragmentWire payload size index := hwire
  -- All fragments but the last missing one, then this one, then the rest.
  obtain ⟨hgathers, hpending⟩ := gathers_new.run (ε := ε) (g := g) (s := s) hcuts (l := before)
    (fun bytes hbytes => (hpushed bytes).mp (List.mem_append_left _ hbytes)) ⟨index, hindex, hnew⟩
  have hlast := hgathers.push_last (ε := ε) hcuts hindex hnew fun j hj =>
    hcover _ ((hrequired _).mpr ⟨j, hj, rfl⟩)
  have hstep : Reassembler.step (ε := ε)
      (RunHistory.run (Reassembler.step (ε := ε)) Reassembler.new (pushesOf g s config before))
      (.push g s (fragmentWire payload size index) config) =
      (.pushed (.ok (.complete g s payload false)), ⟨none, some (g, s)⟩) := by
    rw [Reassembler.step, hlast]
  refine ⟨_, _, _, trace_pushesOf Reassembler.new g s config before _ after,
    congrArg Prod.fst hstep, fun e he => ⟨hpending e he, ?_⟩, fun e he => ?_⟩
  · obtain ⟨bytes, hbytes, hinput⟩ := input_of_mem_trace he
    rw [hinput]
    intro heq
    obtain rfl : bytes = fragmentWire payload size index := (ReassemblerCall.push.inj heq).2.2.1
    exact hnew hbytes
  · rw [hstep] at he
    refine ⟨trace_completed g s config after e he, ?_⟩
    obtain ⟨bytes, hbytes, hinput⟩ := input_of_mem_trace he
    have hfragment := (hpushed bytes).mp (List.mem_append_right _ (List.mem_cons_of_mem _ hbytes))
    rcases List.mem_append.mp (hcover bytes ((hrequired bytes).mpr hfragment)) with hmem | hmem
    · obtain ⟨e', he', hinput'⟩ := mem_trace_of_input (ε := ε) Reassembler.new g s config hmem
      exact ⟨e', List.mem_append_left _ he', hinput'.trans hinput.symm⟩
    · rw [List.mem_singleton] at hmem
      exact ⟨_, List.mem_append_right _ (List.mem_singleton_self _), by rw [hinput, hmem]; rfl⟩

end Gathering

/-- Whatever the connection is: when it takes all fragments of a payload, they fit its limit, and
pushing them in any order and any number of times into a fresh reassembler completes the payload
at the last missing fragment. Every push before that one is pending and every later one is
ignored. -/
theorem fragments_reassemble {σ ε : Type} (connection : LatestConnection σ) (s : σ)
    (request : FragmentSend) (outcome : FragmentBatchOutcome)
    (hok : (sendFragmented (ε := ε) connection s request).1 = .ok outcome)
    (hall : outcome.deliveredToTransport = true) (generation : UInt32) (sequence : UInt64)
    (pushed : List Bytes)
    (hpushed : ∀ bytes, bytes ∈ pushed ↔
      bytes ∈ (sentFragments connection ε s request).map RealtimeDatagram.payload) :
    (∃ limit, connection.maxDatagramPayload s = some limit ∧ fragmentHeaderLen < limit ∧
      ∀ datagram ∈ sentFragments connection ε s request, datagram.payload.length ≤ limit) ∧
    ∃ before last after,
      RunHistory.trace (Reassembler.step (ε := ε)) Reassembler.new
        (pushesOf generation sequence request.config pushed) = before ++ last :: after ∧
      last.reply = .pushed (.ok (.complete generation sequence request.payload false)) ∧
      (∀ e ∈ before, e.reply = .pushed (.ok (.pending false)) ∧ e.input ≠ last.input) ∧
      (∀ e ∈ after, e.reply = .pushed (.ok .ignoredOld) ∧
        ∃ e' ∈ before ++ [last], e'.input = e.input) := by
  obtain ⟨size, hlimit, hcuts, hsent⟩ := sendFragmented_delivered hok hall
  have hsize := hcuts.size_pos
  refine ⟨⟨_, hlimit, by omega, fun datagram hdatagram => ?_⟩,
    pushes_reassemble hcuts generation sequence fun bytes => ?_⟩
  · rw [hsent] at hdatagram
    obtain ⟨index, -, rfl⟩ := List.mem_map.mp hdatagram
    exact length_fragmentWire request.payload size index
  · rw [hpushed, hsent, List.map_map]
    exact mem_fragments bytes

/-- A connection with room for two bytes of a payload in a datagram. -/
def steadyConnection : LatestConnection Unit where
  maxDatagramPayload _ := some 20
  trySendLatest s _ := (.ok .enqueued, s)

def smallFragmentSend : FragmentSend where
  flow := ⟨3⟩
  generation := 1
  sequence := 5
  deadline := 100
  priority := .high
  payload := [7, 8, 9]
  config := {}

def smallFragments : List Bytes :=
  (sentFragments steadyConnection Unit () smallFragmentSend).map RealtimeDatagram.payload

theorem small_fragments_reassemble :
    (∃ limit, steadyConnection.maxDatagramPayload () = some limit ∧ fragmentHeaderLen < limit ∧
      ∀ datagram ∈ sentFragments steadyConnection Unit () smallFragmentSend,
        datagram.payload.length ≤ limit) ∧
    ∃ before last after,
      RunHistory.trace (Reassembler.step (ε := Unit)) Reassembler.new
        (pushesOf 1 5 {} (smallFragments.reverse ++ smallFragments)) = before ++ last :: after ∧
      last.reply = .pushed (.ok (.complete 1 5 [7, 8, 9] false)) ∧
      (∀ e ∈ before, e.reply = .pushed (.ok (.pending false)) ∧ e.input ≠ last.input) ∧
      (∀ e ∈ after, e.reply = .pushed (.ok .ignoredOld) ∧
        ∃ e' ∈ before ++ [last], e'.input = e.input) :=
  fragments_reassemble steadyConnection () smallFragmentSend
    { fragments := 2, enqueued := 2 } rfl rfl 1 5 (smallFragments.reverse ++ smallFragments)
    (fun bytes => by rw [List.mem_append, List.mem_reverse, or_self]; rfl)

end MutsukiLink
