import MutsukiLink.FragmentModel

/-! One reassembler fed with the fragments of many payloads. Whatever it holds is part of one
published payload, so what it completes is that payload. -/
namespace MutsukiLink
open WireBytes PieceAssembly

/-- The payload can be cut into fragments of a size and each of them is accepted. -/
structure Cuts (config : BindingConfig) (payload : Bytes) (size : ℕ) : Prop where
  size_pos : 0 < size
  nonempty : 0 < payload.length
  length_le : payload.length ≤ config.maxReassemblyBytes
  count_le : count payload size ≤ config.maxFragments
  count_lt : count payload size < 2^16
  length_lt : payload.length < 2^32

/-- The fragment with the given index, as the receiver decodes it. -/
def fragmentAt (payload : Bytes) (size index : ℕ) : Fragment :=
  ⟨index, count payload size, index*size, payload.length, piece payload size index⟩

/-- The bytes of the fragment with the given index. -/
def fragmentWire (payload : Bytes) (size index : ℕ) : Bytes :=
  fragmentMagic ++ ([fragmentVersion] ++ ([0] ++ (beBytes 2 index ++
    (beBytes 2 (count payload size) ++ (beBytes 4 (index*size) ++
      (beBytes 4 payload.length ++ piece payload size index))))))

/-- The bytes of one of the fragments. -/
def IsFragment (payload : Bytes) (size : ℕ) (bytes : Bytes) : Prop :=
  ∃ index < count payload size, bytes = fragmentWire payload size index

variable {config : BindingConfig} {payload bytes : Bytes} {size index : ℕ} {ε : Type}

/-- The numbers of a fragment stand where the decoder looks for them. -/
theorem fragment_numbers (index count offset totalLen : ℕ) (part : Bytes) :
    let tail := beBytes 2 index ++ (beBytes 2 count ++ (beBytes 4 offset ++
      (beBytes 4 totalLen ++ part)))
    tail.take 2 = beBytes 2 index ∧ (tail.drop 2).take 2 = beBytes 2 count ∧
      (tail.drop 4).take 4 = beBytes 4 offset ∧ (tail.drop 8).take 4 = beBytes 4 totalLen ∧
      tail.drop 12 = part := by
  intro tail
  have hcut : cut [2, 2, 4, 4] tail =
      [beBytes 2 index, beBytes 2 count, beBytes 4 offset, beBytes 4 totalLen, part] := by
    have hfields := cut_flatten [beBytes 2 index, beBytes 2 count, beBytes 4 offset,
      beBytes 4 totalLen] part
    simpa only [List.map_cons, List.map_nil, length_beBytes, List.flatten_append,
      List.flatten_cons, List.flatten_nil, List.append_nil, List.append_assoc, List.cons_append,
      List.nil_append] using hfields
  simp only [cut, List.drop_drop, Nat.reduceAdd, List.cons.injEq, and_true] at hcut
  exact hcut

theorem decode_wire (hcuts : Cuts config payload size) (hindex : index < count payload size) :
    Fragment.decode (ε := ε) (fragmentWire payload size index) config =
      .ok (fragmentAt payload size index) := by
  have hpiece := piece_ne_nil hcuts.size_pos hindex
  have hend := piece_end_le hcuts.size_pos hindex
  have hcount := hcuts.count_lt
  have hlength := hcuts.length_lt
  have hle := hcuts.count_le
  have hfit := hcuts.length_le
  have hpos := hcuts.nonempty
  obtain ⟨hi, hc, ho, ht, hp⟩ := fragment_numbers index (count payload size) (index*size)
    payload.length (piece payload size index)
  generalize hwire : fragmentWire payload size index = wire
  -- The six bytes before the numbers are literal, so the offsets count from behind them.
  replace hi : (wire.drop 6).take 2 = beBytes 2 index := hwire ▸ hi
  replace hc : (wire.drop 8).take 2 = beBytes 2 (count payload size) := hwire ▸ hc
  replace ho : (wire.drop 10).take 4 = beBytes 4 (index*size) := hwire ▸ ho
  replace ht : (wire.drop 14).take 4 = beBytes 4 payload.length := hwire ▸ ht
  replace hp : wire.drop fragmentHeaderLen = piece payload size index := hwire ▸ hp
  have hlong : fragmentHeaderLen < wire.length := by
    have hdrop := congrArg List.length hp
    rw [List.length_drop] at hdrop
    omega
  have hheader : wire.take 4 = fragmentMagic ∧ wire.getD 4 0 = fragmentVersion ∧
      wire.getD 5 0 = 0 := hwire ▸ ⟨rfl, rfl, rfl⟩
  have hvalid : ¬(count payload size = 0 ∨ config.maxFragments < count payload size ∨
      count payload size ≤ index ∨ payload.length = 0 ∨
      config.maxReassemblyBytes < payload.length ∨
      payload.length < index*size+(piece payload size index).length) := by omega
  rw [Fragment.decode, if_neg (by simp only [hheader, ne_eq, not_true_eq_false, or_false]; omega)]
  simp only [hi, hc, ho, ht, hp]
  rw [ofBeBytes_beBytes 2 index (by omega), ofBeBytes_beBytes 2 (count payload size) (by omega),
    ofBeBytes_beBytes 4 (index*size) (by omega), ofBeBytes_beBytes 4 payload.length (by omega),
    if_neg hvalid]
  rfl

theorem decode_fragment (hcuts : Cuts config payload size) (h : IsFragment payload size bytes) :
    ∃ index < count payload size,
      Fragment.decode (ε := ε) bytes config = .ok (fragmentAt payload size index) := by
  obtain ⟨index, hindex, rfl⟩ := h
  exact ⟨index, hindex, decode_wire hcuts hindex⟩

/-- The datagram of one fragment of a request. -/
def FragmentSend.datagram (request : FragmentSend) (payload : Bytes) : RealtimeDatagram where
  flow := request.flow
  generation := request.generation
  sequence := request.sequence
  deadline := request.deadline
  priority := request.priority
  payload := payload

section Sending
variable {σ : Type} {connection : LatestConnection σ} {request : FragmentSend} {I : σ → Prop}

/-- The loop sends fragments of the request and nothing else. -/
theorem sendChunks_keeps
    (hsend : count request.payload size < 2^16 → request.payload.length < 2^32 →
      ∀ s bytes, IsFragment request.payload size bytes → I s →
        I (connection.trySendLatest s (request.datagram bytes)).2)
    (chunks : List (Bytes × ℕ)) (hchunks : ∀ chunk ∈ chunks,
      chunk.2 < count request.payload size ∧ chunk.1 = piece request.payload size chunk.2)
    {s : σ} (h : I s) (aggregate : FragmentBatchOutcome) :
    I (sendChunks (ε := ε) connection request size chunks s aggregate).2 := by
  induction chunks generalizing s aggregate with
  | nil => exact h
  | cons chunk rest ih =>
    obtain ⟨bytes, index⟩ := chunk
    obtain ⟨⟨hindex, hbytes⟩, hrest⟩ := List.forall_mem_cons.mp hchunks
    simp only at hindex hbytes
    subst hbytes
    rw [sendChunks]
    split
    · exact h
    next payload hpayload =>
    unfold fragmentBytes at hpayload
    split at hpayload
    · cases hpayload
    next hsmall =>
    have hfragment : IsFragment request.payload size payload :=
      ⟨index, hindex, (Except.ok.inj hpayload).symm⟩
    have hsent := hsend (by omega) (by omega) s payload hfragment h
    simp only [FragmentSend.datagram] at hsent
    split
    · next e s' heq =>
      rw [heq] at hsent
      exact hsent
    · next outcome s' heq =>
      rw [heq] at hsent
      -- The loop goes on after two of the outcomes.
      cases outcome with
      | enqueued => exact ih hrest hsent _
      | replacedOlder => exact ih hrest hsent _
      | _ => exact hsent

/-- What every send of a fragment keeps is kept by the whole publication. -/
theorem sendFragmented_keeps {s₀ : σ}
    (hsend : ∀ s size bytes, Cuts request.config request.payload size →
      connection.maxDatagramPayload s₀ = some (size+fragmentHeaderLen) →
      IsFragment request.payload size bytes → I s →
        I (connection.trySendLatest s (request.datagram bytes)).2)
    (h : I s₀) : I (sendFragmented (ε := ε) connection s₀ request).2 := by
  unfold sendFragmented
  split
  · exact h
  next hsize =>
  split
  · exact h
  next maxPayload hlimit =>
  split
  · exact h
  next hmax =>
  simp only
  split
  · exact h
  next hcount =>
  have hpos := List.length_pos_iff.mpr fun hnil => hsize (Or.inl hnil)
  refine sendChunks_keeps (fun hlt hlength s bytes hfragment hs =>
    hsend s _ bytes ⟨by omega, hpos, by omega, by omega, hlt, hlength⟩ ?_ hfragment hs) _
    (fun chunk hchunk => mem_zipIdx_pieces hchunk) h _
  rw [hlimit, Nat.sub_add_cancel (by omega)]

end Sending

/-- A range of the buffer as a slot stores it. -/
def Fragment.range (f : Fragment) : ℕ × ℕ := (f.offset, f.payload.length)

namespace Reassembly
variable {r : Reassembly} {f : Fragment}

/-- The assembly with a fragment written into a vacant slot. -/
def taking (r : Reassembly) (f : Fragment) : Reassembly :=
  { r with
    bytes := patch r.bytes f.offset f.payload
    slots := r.slots.set f.index (some f.range)
    received := saturatingAdd r.received 1 }

theorem insert_vacant (hvacant : r.slots[f.index]? = some none) :
    r.insert (ε := ε) f = (.ok (), r.taking f) := by
  simp only [Reassembly.insert, hvacant, Reassembly.taking, Fragment.range]

theorem insert_repeated (hslot : r.slots[f.index]? = some (some f.range))
    (hbytes : (r.bytes.drop f.offset).take f.payload.length = f.payload) :
    r.insert (ε := ε) f = (.ok (), r) := by
  rw [Fragment.range] at hslot
  simp only [Reassembly.insert, hslot, hbytes, ne_eq, not_true_eq_false, or_self, if_false]

/-- The guard of `push` lets a fragment with the numbers of the assembly through. -/
theorem matches_fragment (hcount : r.fragmentCount = f.count) (htotal : r.totalLen = f.totalLen) :
    ¬(r.fragmentCount ≠ f.count ∨ r.totalLen ≠ f.totalLen) := by
  rw [hcount, htotal]
  simp

/-- There are too few slots for the counter to saturate. -/
theorem received_taking (hreceived : r.received = r.slots.countP Option.isSome)
    (hsmall : r.slots.length < 2^16) (hvacant : r.slots[f.index]? = some none) :
    (r.taking f).received = (r.taking f).slots.countP Option.isSome := by
  obtain ⟨hlt, hget⟩ := List.getElem?_eq_some_iff.mp hvacant
  have hle : r.slots.countP Option.isSome ≤ r.slots.length := List.countP_le_length
  simp only [taking, saturatingAdd, hreceived]
  rw [List.countP_set hlt, hget, min_eq_left (by omega)]
  rfl

end Reassembly

/-- An assembly that holds some of the fragments of a payload and nothing else. -/
structure Assembles (r : Reassembly) (payload : Bytes) (size : ℕ) : Prop where
  count_eq : r.fragmentCount = count payload size
  total_eq : r.totalLen = payload.length
  slots_length : r.slots.length = count payload size
  bytes_length : r.bytes.length = payload.length
  received_eq : r.received = r.slots.countP Option.isSome
  filled : ∀ (i : ℕ) (slot : ℕ × ℕ), r.slots[i]? = some (some slot) →
    slot = range payload size i ∧ Holds r.bytes payload size i

variable {r : Reassembly}

/-- A fragment that is there already is the same one. -/
theorem Assembles.insert_again (h : Assembles r payload size) {slot : ℕ × ℕ}
    (hslot : r.slots[index]? = some (some slot)) :
    r.insert (ε := ε) (fragmentAt payload size index) = (.ok (), r) := by
  obtain ⟨hrange, hholds⟩ := h.filled index slot hslot
  rw [hrange] at hslot
  exact Reassembly.insert_repeated hslot hholds.slice

/-- The assembly with one more fragment. -/
def Reassembly.filledAt (r : Reassembly) (payload : Bytes) (size index : ℕ) : Reassembly :=
  { r with
    bytes := patch r.bytes (index*size) (piece payload size index)
    slots := r.slots.set index (some (range payload size index))
    received := saturatingAdd r.received 1 }

theorem Assembles.insert_new (hslot : r.slots[index]? = some none) :
    r.insert (ε := ε) (fragmentAt payload size index) =
      (.ok (), r.filledAt payload size index) :=
  Reassembly.insert_vacant hslot

theorem Assembles.filledAt (h : Assembles r payload size) (hcuts : Cuts config payload size)
    (hslot : r.slots[index]? = some none) :
    Assembles (r.filledAt payload size index) payload size := by
  obtain ⟨hlt, -⟩ := List.getElem?_eq_some_iff.mp hslot
  have hindex : index < count payload size := h.slots_length ▸ hlt
  have hend := piece_end_le hcuts.size_pos hindex
  refine ⟨h.count_eq, h.total_eq, ?_, ?_, ?_, fun j slot hj => ?_⟩
  · exact (List.length_set ..).trans h.slots_length
  · exact (length_patch (by rw [h.bytes_length]; exact hend)).trans h.bytes_length
  · exact Reassembly.received_taking (f := fragmentAt payload size index) h.received_eq
      (h.slots_length.trans_lt hcuts.count_lt) hslot
  · simp only [Reassembly.filledAt] at hj ⊢
    by_cases hne : j = index
    · subst hne
      rw [List.getElem?_set_self hlt] at hj
      exact ⟨(Option.some.inj (Option.some.inj hj)).symm,
        holds_patch_self hcuts.size_pos hindex h.bytes_length⟩
    · rw [List.getElem?_set_ne (Ne.symm hne)] at hj
      obtain ⟨hrange, hholds⟩ := h.filled j slot hj
      exact ⟨hrange, hholds.patch_other hcuts.size_pos hindex h.bytes_length hne⟩

/-- A fragment of the payload is taken into the assembly. -/
theorem Assembles.insert (h : Assembles r payload size) (hcuts : Cuts config payload size)
    (hindex : index < count payload size) :
    ∃ r', r.insert (ε := ε) (fragmentAt payload size index) = (.ok (), r') ∧
      Assembles r' payload size ∧ r'.generation = r.generation ∧ r'.sequence = r.sequence := by
  have hlt : index < r.slots.length := h.slots_length.symm ▸ hindex
  cases hslot : r.slots[index] with
  | none =>
    have hget : r.slots[index]? = some none := List.getElem?_eq_some_iff.mpr ⟨hlt, hslot⟩
    exact ⟨_, insert_new hget, h.filledAt hcuts hget, rfl, rfl⟩
  | some slot =>
    have hget : r.slots[index]? = some (some slot) := List.getElem?_eq_some_iff.mpr ⟨hlt, hslot⟩
    exact ⟨r, h.insert_again hget, h, rfl, rfl⟩

/-- An assembly without fragments. -/
theorem assembles_empty (payload : Bytes) (size : ℕ) (generation : UInt32) (sequence : UInt64) :
    Assembles {
      generation, sequence, fragmentCount := count payload size, totalLen := payload.length
      slots := List.replicate (count payload size) none, received := 0
      bytes := List.replicate payload.length 0 } payload size := by
  refine ⟨rfl, rfl, List.length_replicate, List.length_replicate, ?_, fun i slot hi => ?_⟩
  · rw [List.countP_replicate]
    rfl
  · rw [List.getElem?_replicate] at hi
    split at hi <;> cases hi

/-- The first fragment starts an assembly of its payload. -/
theorem assembles_new (hcuts : Cuts config payload size) (hindex : index < count payload size)
    (generation : UInt32) (sequence : UInt64) :
    ∃ r, Reassembly.new (ε := ε) generation sequence (fragmentAt payload size index) = .ok r ∧
      Assembles r payload size ∧ r.generation = generation ∧ r.sequence = sequence := by
  have hempty := assembles_empty payload size generation sequence
  obtain ⟨r, hinsert, hr, hgeneration, hsequence⟩ := hempty.insert (ε := ε) hcuts hindex
  refine ⟨r, ?_, hr, hgeneration, hsequence⟩
  simp only [Reassembly.new, fragmentAt] at hinsert ⊢
  rw [hinsert]

/-- With all its fragments an assembly is its payload. -/
theorem Assembles.finish (h : Assembles r payload size) (hcuts : Cuts config payload size)
    (hcomplete : r.complete = true) : r.finish (ε := ε) = .ok payload := by
  have hall : ∀ slot ∈ r.slots, slot.isSome = true := by
    apply List.countP_eq_length.mp
    rw [← h.received_eq, of_decide_eq_true hcomplete, h.count_eq, h.slots_length]
  have hfilled : ∀ i < count payload size, ∃ slot, r.slots[i]? = some (some slot) := by
    intro i hi
    have hlt : i < r.slots.length := h.slots_length.symm ▸ hi
    obtain ⟨slot, hslot⟩ := Option.isSome_iff_exists.mp (hall _ (List.getElem_mem hlt))
    exact ⟨slot, by rw [List.getElem?_eq_getElem hlt, hslot]⟩
  have hslots : r.slots = (ranges payload size).map some := by
    apply List.ext_getElem?
    intro i
    by_cases hi : i < count payload size
    · obtain ⟨slot, hslot⟩ := hfilled i hi
      rw [hslot, (h.filled i slot hslot).1, ranges, List.map_map, List.getElem?_map,
        List.getElem?_range hi]
      rfl
    · rw [List.getElem?_eq_none (by rw [h.slots_length]; omega),
        List.getElem?_eq_none (by simp only [ranges, List.length_map, List.length_range]; omega)]
  have hbytes : r.bytes = payload := by
    refine eq_of_holds hcuts.size_pos h.bytes_length fun i hi => ?_
    obtain ⟨slot, hslot⟩ := hfilled i hi
    exact (h.filled i slot hslot).2
  have hranges : r.slots.mapM id = some (ranges payload size) := by
    rw [hslots, List.mapM_map]
    exact (List.mapM_pure (m := Option) (f := id)).trans (congrArg some (List.map_id _))
  simp only [Reassembly.finish, hranges, ranges_sorted, walk_ranges hcuts.size_pos, h.total_eq,
    ne_eq, not_true_eq_false, if_false, hbytes]

/-- Which payload was cut at which size under which generation and sequence. -/
abbrev Book := UInt32 → UInt64 → Bytes → ℕ → Prop

/-- One payload and one size for each generation and sequence, all of them acceptable. -/
structure Book.Consistent (book : Book) (config : BindingConfig) : Prop where
  unique : ∀ g s payload payload' size size', book g s payload size → book g s payload' size' →
    payload = payload' ∧ size = size'
  cuts : ∀ g s payload size, book g s payload size → Cuts config payload size

namespace Reassembler
variable {a : Reassembler} {book : Book} {g : UInt32} {s : UInt64}

/-- What the reassembler is working on was published, and is newer than what it completed. -/
def Sound (book : Book) (a : Reassembler) : Prop :=
  ∀ r, a.state = some r → a.isOld r.generation r.sequence = false ∧
    ∃ payload size, book r.generation r.sequence payload size ∧ Assembles r payload size

/-- A fragment of a published payload was taken: it completes the payload or it does not. -/
def Takes (book : Book) (a : Reassembler) (g : UInt32) (s : UInt64) (payload : Bytes)
    (result : Except (BindingError ε) ReassemblyOutcome × Reassembler) : Prop :=
  Sound book result.2 ∧
    ((∃ replaced, result.1 = .ok (.complete g s payload replaced) ∧
        result.2.lastCompleted = some (g, s)) ∨
      ((result.1 = .ok .ignoredOld ∨ ∃ replaced, result.1 = .ok (.pending replaced)) ∧
        result.2.lastCompleted = a.lastCompleted))

theorem pushInto_takes (hbook : book.Consistent config) (hpublished : book g s payload size)
    (hr : Assembles r payload size) (hg : r.generation = g) (hs : r.sequence = s)
    (hnew : a.isOld g s = false) (hindex : index < count payload size) (replaced : Bool) :
    Takes book a g s payload
      (a.pushInto (ε := ε) r (fragmentAt payload size index) replaced) := by
  have hcuts := hbook.cuts g s payload size hpublished
  obtain ⟨r', hinsert, hr', hg', hs'⟩ := hr.insert (ε := ε) hcuts hindex
  have hmatches := Reassembly.matches_fragment (f := fragmentAt payload size index) hr.count_eq
    hr.total_eq
  rw [hg] at hg'
  rw [hs] at hs'
  rw [pushInto, if_neg hmatches, hinsert]
  by_cases hcomplete : r'.complete = false
  · simp only [if_pos hcomplete]
    refine ⟨fun r'' h'' => ?_, .inr ⟨.inr ⟨replaced, rfl⟩, rfl⟩⟩
    obtain rfl := Option.some.inj h''
    rw [hg', hs']
    exact ⟨hnew, payload, size, hpublished, hr'⟩
  · simp only [if_neg hcomplete, hr'.finish (ε := ε) hcuts (Bool.not_eq_false _ ▸ hcomplete), hg',
      hs']
    exact ⟨nofun, .inl ⟨replaced, rfl, rfl⟩⟩

/-- Every fragment of a published payload is taken, ignored or completes its payload. -/
theorem push_takes (hbook : book.Consistent config) (ha : Sound book a)
    (hpublished : book g s payload size) (hfragment : IsFragment payload size bytes) :
    let result := a.push (ε := ε) g s bytes config
    Takes book a g s payload result ∧
      ((∃ replaced, result.1 = .ok (.complete g s payload replaced)) → a.isOld g s = false) := by
  intro result
  have hcuts := hbook.cuts g s payload size hpublished
  by_cases hold : a.isOld g s = true
  · have hresult : result = (.ok .ignoredOld, a) := if_pos hold
    rw [hresult]
    exact ⟨⟨ha, .inr ⟨.inl rfl, rfl⟩⟩, fun ⟨replaced, h⟩ => nomatch h⟩
  have hnew : a.isOld g s = false := Bool.eq_false_iff.mpr hold
  refine ⟨?_, fun _ => hnew⟩
  obtain ⟨index, hindex, hdecode⟩ := decode_fragment (ε := ε) hcuts hfragment
  obtain ⟨fresh, hfresh, hassembles, hg, hs⟩ := assembles_new (ε := ε) hcuts hindex g s
  have hreplace := pushInto_takes (ε := ε) (a := a) hbook hpublished hassembles hg hs hnew hindex
    a.state.isSome
  simp only [result, push, hold, hdecode, hfresh, Bool.false_eq_true, if_false]
  cases hstate : a.state with
  | none =>
    rw [hstate] at hreplace
    exact hreplace
  | some current =>
    rw [hstate] at hreplace
    have hignored : Takes (ε := ε) book a g s payload (.ok .ignoredOld, a) :=
      ⟨ha, .inr ⟨.inl rfl, rfl⟩⟩
    simp only
    split
    · exact hignored
    split
    · exact hignored
    split
    · next hsame =>
      -- The assembly under way is of the same payload, since its key was published once.
      obtain ⟨rfl, rfl⟩ := hsame
      obtain ⟨-, payload', size', hpublished', hassembles'⟩ := ha current hstate
      obtain ⟨rfl, rfl⟩ := hbook.unique _ _ _ _ _ _ hpublished hpublished'
      exact pushInto_takes hbook hpublished hassembles' rfl rfl hnew hindex false
    · exact hreplace

end Reassembler

end MutsukiLink
