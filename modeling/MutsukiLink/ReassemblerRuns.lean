import MutsukiLink.RangeTiling
import MutsukiLink.RealtimeDelivery

/-! What a push does to a reassembler, for any bytes, and runs of its operations. -/
namespace MutsukiLink
open WireBytes PieceAssembly RealtimeWorld

/-- The operations of `Reassembler`. -/
inductive ReassemblerCall where
  | push (generation : UInt32) (sequence : UInt64) (payload : Bytes) (config : BindingConfig)
  | clear
deriving DecidableEq, Repr

inductive ReassemblerReply (ε : Type) where
  | pushed (result : Except (BindingError ε) ReassemblyOutcome)
  | cleared
deriving DecidableEq

def Reassembler.step {ε : Type} (a : Reassembler) :
    ReassemblerCall → ReassemblerReply ε × Reassembler
  | .push generation sequence payload config =>
    let (result, a) := a.push generation sequence payload config
    (.pushed result, a)
  | .clear => (.cleared, a.clear)

abbrev ReassemblerEvent (ε : Type) :=
  RunHistory.Event Reassembler ReassemblerCall (ReassemblerReply ε)

/-- The pushes of some byte strings under one generation and sequence. -/
def pushesOf (g : UInt32) (s : UInt64) (config : BindingConfig) (l : List Bytes) :
    List ReassemblerCall :=
  l.map fun bytes => .push g s bytes config

/-- What the decoder has checked. -/
structure Fragment.Fits (f : Fragment) : Prop where
  index_lt : f.index < f.count
  count_lt : f.count < 2^16
  nonempty : 0 < f.payload.length
  end_le : f.offset+f.payload.length ≤ f.totalLen

variable {ε : Type} {f : Fragment} {bytes : Bytes} {config : BindingConfig}

theorem decode_fits (h : Fragment.decode (ε := ε) bytes config = .ok f) :
    f.Fits ∧ f.count ≤ config.maxFragments ∧ f.totalLen ≤ config.maxReassemblyBytes := by
  unfold Fragment.decode at h
  split at h
  · cases h
  next hheader =>
  simp only at h
  split at h
  · cases h
  next hnumbers =>
  have hlong : fragmentHeaderLen < bytes.length := by
    have hnot := not_or.mp hheader
    exact Nat.not_le.mp hnot.1
  have hcount : ofBeBytes ((bytes.drop 8).take 2) < 2^16 := by
    have hlt := ofBeBytes_lt ((bytes.drop 8).take 2)
    have hlength : ((bytes.drop 8).take 2).length ≤ 2 := List.length_take_le _ _
    have hpow : 256^((bytes.drop 8).take 2).length ≤ 256^2 :=
      Nat.pow_le_pow_right (by decide) hlength
    omega
  have hpayload : (bytes.drop fragmentHeaderLen).length = bytes.length-fragmentHeaderLen :=
    List.length_drop
  have hf := Except.ok.inj h
  subst hf
  simp only at hnumbers ⊢
  exact ⟨⟨by simp only; omega, hcount, by simp only; omega, by simp only; omega⟩, by omega,
    by omega⟩

namespace Reassembly

def key (r : Reassembly) : UInt32 × UInt64 := (r.generation, r.sequence)

/-- An assembly without fragments, as `Reassembly::new` begins. -/
def empty (generation : UInt32) (sequence : UInt64) (first : Fragment) : Reassembly where
  generation := generation
  sequence := sequence
  fragmentCount := first.count
  totalLen := first.totalLen
  slots := List.replicate first.count none
  received := 0
  bytes := List.replicate first.totalLen 0

/-- What holds of an assembly whatever was pushed. -/
structure Wf (r : Reassembly) : Prop where
  bytes_length : r.bytes.length = r.totalLen
  slots_length : r.slots.length = r.fragmentCount
  received_eq : r.received = r.slots.countP Option.isSome
  count_lt : r.fragmentCount < 2^16
  inside : ∀ range, some range ∈ r.slots → 0 < range.2 ∧ range.1+range.2 ≤ r.totalLen

variable {r : Reassembly}

theorem wf_empty (hf : f.Fits) (g : UInt32) (s : UInt64) : (empty g s f).Wf := by
  refine ⟨List.length_replicate, List.length_replicate, ?_, hf.count_lt, fun range hrange => ?_⟩
  · exact (List.countP_replicate (p := Option.isSome) (a := none) (n := f.count)).symm
  · cases (List.mem_replicate.mp hrange).2

theorem Wf.taking (h : r.Wf) (hf : f.Fits) (htotal : r.totalLen = f.totalLen)
    (hvacant : r.slots[f.index]? = some none) : (r.taking f).Wf := by
  have hend := hf.end_le
  refine ⟨?_, ?_, ?_, h.count_lt, fun range hrange => ?_⟩
  · exact (length_patch (by rw [h.bytes_length, htotal]; exact hend)).trans h.bytes_length
  · exact List.length_set.trans h.slots_length
  · exact received_taking h.received_eq (h.slots_length.trans_lt h.count_lt) hvacant
  · rcases List.mem_or_eq_of_mem_set hrange with hold | hnew
    · exact h.inside range hold
    · rw [Option.some.inj hnew]
      rw [← htotal] at hend
      exact ⟨hf.nonempty, hend⟩

/-- `Reassembly::new` inserts its fragment, and `push` inserts it once more. -/
theorem insert_taking (h : r.Wf) (hf : f.Fits) (htotal : r.totalLen = f.totalLen)
    (hvacant : r.slots[f.index]? = some none) :
    (r.taking f).insert (ε := ε) f = (.ok (), r.taking f) := by
  have hend := hf.end_le
  have hroom : f.offset+f.payload.length ≤ r.bytes.length := by
    rw [h.bytes_length, htotal]
    exact hend
  obtain ⟨hlt, -⟩ := List.getElem?_eq_some_iff.mp hvacant
  apply insert_repeated
  · exact List.getElem?_set_self hlt
  · exact slice_eq fun k hk => getElem?_patch_inside hroom hk

/-- An insertion fills a vacant slot, finds the same fragment there or is refused. -/
theorem insert_cases (r : Reassembly) (f : Fragment) :
    (r.slots[f.index]? = some none ∧ r.insert (ε := ε) f = (.ok (), r.taking f)) ∨
      r.insert (ε := ε) f = (.ok (), r) ∨
      r.insert (ε := ε) f = (.error .invalidFragment, r) := by
  cases hslot : r.slots[f.index]? with
  | none => exact .inr (.inr (by simp only [Reassembly.insert, hslot]))
  | some slot =>
    cases slot with
    | none => exact .inl ⟨rfl, insert_vacant hslot⟩
    | some existing =>
      simp only [Reassembly.insert, hslot]
      split
      · exact .inr (.inr rfl)
      · exact .inr (.inl rfl)

/-- A vacant slot of a fresh assembly. -/
theorem empty_vacant (hf : f.Fits) (g : UInt32) (s : UInt64) :
    (empty g s f).slots[f.index]? = some none := by
  simp only [empty, List.getElem?_replicate, hf.index_lt, if_true]

theorem new_eq (hf : f.Fits) (g : UInt32) (s : UInt64) :
    Reassembly.new (ε := ε) g s f = .ok ((empty g s f).taking f) := by
  have hinsert := insert_vacant (ε := ε) (empty_vacant hf g s)
  rw [empty] at hinsert ⊢
  rw [Reassembly.new]
  simp only [hinsert]

/-- The ranges of the slots that are filled. -/
def filled (r : Reassembly) : List (ℕ × ℕ) := r.slots.filterMap id

theorem Wf.received_le (h : r.Wf) : r.received ≤ r.fragmentCount := by
  rw [h.received_eq, ← h.slots_length]
  exact List.countP_le_length

theorem mapM_id_of_isSome {α : Type} {l : List (Option α)} (h : ∀ x ∈ l, x.isSome = true) :
    l.mapM id = some (l.filterMap id) := by
  induction l with
  | nil => rfl
  | cons x rest ih =>
    obtain ⟨hx, hrest⟩ := List.forall_mem_cons.mp h
    obtain ⟨y, rfl⟩ := Option.isSome_iff_exists.mp hx
    rw [List.mapM_cons, ih hrest]
    rfl

/-- Without a vacant slot `finish` decides whether the ranges tile the buffer. -/
theorem finish_eq (h : r.Wf) (hcomplete : r.received = r.fragmentCount) :
    r.finish (ε := ε) =
      if Tiles r.filled r.totalLen then .ok r.bytes else .error .invalidFragment := by
  have hall : ∀ slot ∈ r.slots, slot.isSome = true := by
    apply List.countP_eq_length.mp
    rw [← h.received_eq, hcomplete, h.slots_length]
  have hinside : ∀ range ∈ r.filled, 0 < range.2 ∧ range.1+range.2 ≤ r.totalLen := by
    intro range hrange
    obtain ⟨slot, hslot, heq⟩ := List.mem_filterMap.mp hrange
    obtain rfl : slot = some range := heq
    exact h.inside range hslot
  have htiles := walk_sorted_iff hinside
  simp only [finish, mapM_id_of_isSome hall]
  rw [filled] at htiles ⊢
  split
  · next hwalk =>
    rw [if_neg fun h => by rw [htiles.mpr h] at hwalk; cases hwalk]
  · next cursor hwalk =>
    rw [sorted, hwalk, Option.some.injEq] at htiles
    by_cases hend : cursor = r.totalLen
    · rw [if_neg (not_not_intro hend), if_pos (htiles.mp hend)]
    · rw [if_pos hend, if_neg fun h => hend (htiles.mpr h)]

end Reassembly

namespace Reassembler
variable {a : Reassembler} {r : Reassembly} {g : UInt32} {s : UInt64} {replaced : Bool}

/-- The assemblies that a reassembler keeps are in order and have a vacant slot. -/
def Wf (a : Reassembler) : Prop :=
  ∀ r, a.state = some r → r.Wf ∧ r.received < r.fragmentCount

/-- The assembly that a decoded fragment goes into: the current one, or an empty one when the
fragment is newer. -/
def Base (a : Reassembler) (g : UInt32) (s : UInt64) (f : Fragment) (r : Reassembly)
    (replaced : Bool) : Prop :=
  (a.state = some r ∧ r.key = (g, s) ∧ r.fragmentCount = f.count ∧ r.totalLen = f.totalLen ∧
      replaced = false) ∨
    (r = Reassembly.empty g s f ∧ replaced = a.state.isSome ∧
      ∀ current, a.state = some current → KeyLt current.key (g, s))

/-- A push that fills a vacant slot. -/
structure Fills (ε : Type) (a : Reassembler) (g : UInt32) (s : UInt64) (bytes : Bytes)
    (config : BindingConfig) (f : Fragment) (r : Reassembly) (replaced : Bool) : Prop where
  new : a.isOld g s = false
  decoded : Fragment.decode (ε := ε) bytes config = .ok f
  base : a.Base g s f r replaced
  vacant : r.slots[f.index]? = some none

/-- The end of `push` once the fragment is in its assembly. -/
def settle (a : Reassembler) (r : Reassembly) (replaced : Bool) :
    Except (BindingError ε) ReassemblyOutcome × Reassembler :=
  if r.complete = false then (.ok (.pending replaced), { a with state := some r })
  else
    let a : Reassembler := { state := none, lastCompleted := some (r.generation, r.sequence) }
    match r.finish with
    | .error e => (.error e, a)
    | .ok payload => (.ok (.complete r.generation r.sequence payload replaced), a)

theorem pushInto_of_insert {r' : Reassembly} (hcount : r.fragmentCount = f.count)
    (htotal : r.totalLen = f.totalLen) (hinsert : r.insert (ε := ε) f = (.ok (), r')) :
    a.pushInto (ε := ε) r f replaced = a.settle r' replaced := by
  rw [pushInto, if_neg (Reassembly.matches_fragment hcount htotal), hinsert]
  rfl

theorem restored (hstate : a.state = some r) : { a with state := some r } = a := by
  rw [← hstate]

theorem pushInto_of_error {e : BindingError ε} (hstate : a.state = some r)
    (hcount : r.fragmentCount = f.count) (htotal : r.totalLen = f.totalLen)
    (hinsert : r.insert f = (.error e, r)) : a.pushInto r f replaced = (.error e, a) := by
  rw [pushInto, if_neg (Reassembly.matches_fragment hcount htotal), hinsert]
  exact congrArg (Prod.mk _) (restored hstate)

/-- An assembly that lacks a fragment stays as it is. -/
theorem settle_incomplete (hstate : a.state = some r) (hlt : r.received < r.fragmentCount) :
    a.settle (ε := ε) r replaced = (.ok (.pending replaced), a) := by
  have hcomplete : r.complete = false := decide_eq_false (Nat.ne_of_lt hlt)
  rw [settle, if_pos hcomplete, restored hstate]

theorem keyLt_or_eq (k k' : UInt32 × UInt64) : KeyLt k k' ∨ k = k' ∨ KeyLt k' k := by
  obtain ⟨g, s⟩ := k
  obtain ⟨g', s'⟩ := k'
  simp only [KeyLt, Prod.mk.injEq, UInt32.lt_iff_toNat_lt, UInt64.lt_iff_toNat_lt,
    ← UInt32.toNat_inj, ← UInt64.toNat_inj]
  omega

theorem KeyLt.irrefl (k : UInt32 × UInt64) : ¬KeyLt k k := by
  intro h
  rcases h with h | ⟨-, h⟩
  · exact UInt32.lt_irrefl _ h
  · exact UInt64.lt_irrefl _ h

/-- A fragment older than the assembly under way is ignored. -/
theorem push_older (hnew : a.isOld g s = false)
    (hdecode : Fragment.decode (ε := ε) bytes config = .ok f) (hstate : a.state = some r)
    (hlt : KeyLt (g, s) r.key) : a.push (ε := ε) g s bytes config = (.ok .ignoredOld, a) := by
  rw [push, if_neg (Bool.eq_false_iff.mp hnew), hdecode]
  simp only [hstate]
  rcases hlt with hg | ⟨hg, hs⟩
  · exact if_pos hg
  · obtain rfl : g = r.generation := hg
    rw [if_neg (UInt32.lt_irrefl _), if_pos ⟨rfl, hs⟩]

/-- A fragment of the assembly under way goes into it. -/
theorem push_same (hnew : a.isOld g s = false)
    (hdecode : Fragment.decode (ε := ε) bytes config = .ok f) (hstate : a.state = some r)
    (hkey : r.key = (g, s)) : a.push (ε := ε) g s bytes config = a.pushInto r f false := by
  obtain ⟨hg, hs⟩ := Prod.mk.inj hkey
  rw [push, if_neg (Bool.eq_false_iff.mp hnew), hdecode]
  simp only [hstate, hg, hs]
  rw [if_neg (UInt32.lt_irrefl _), if_neg fun h => UInt64.lt_irrefl _ h.2,
    if_pos ⟨trivial, trivial⟩]

/-- A newer fragment starts an assembly of its own. -/
theorem push_fresh (hnew : a.isOld g s = false)
    (hdecode : Fragment.decode (ε := ε) bytes config = .ok f)
    (hnewer : ∀ current, a.state = some current → KeyLt current.key (g, s)) :
    a.push (ε := ε) g s bytes config =
      a.pushInto ((Reassembly.empty g s f).taking f) f a.state.isSome := by
  have hfits := (decode_fits hdecode).1
  rw [push, if_neg (Bool.eq_false_iff.mp hnew), hdecode]
  simp only [Reassembly.new_eq hfits]
  cases hstate : a.state with
  | none => rfl
  | some current =>
    have hlt := hnewer current hstate
    have holder : ¬KeyLt (g, s) current.key := fun h => KeyLt.irrefl _ (h.trans hlt)
    have hgeneration : ¬g < current.generation := fun h => holder (.inl h)
    have hsequence : ¬(g = current.generation ∧ s < current.sequence) := fun h => holder (.inr h)
    have hother : ¬(g = current.generation ∧ s = current.sequence) := by
      rintro ⟨rfl, rfl⟩
      exact KeyLt.irrefl _ hlt
    simp only [hgeneration, hsequence, hother, if_false]

/-- The base of a fragment is in order, and is meant for it. -/
theorem Base.wf (ha : a.Wf) (hfits : f.Fits) (h : a.Base g s f r replaced) :
    r.Wf ∧ r.key = (g, s) ∧ r.fragmentCount = f.count ∧ r.totalLen = f.totalLen := by
  rcases h with ⟨hstate, hkey, hcount, htotal, -⟩ | ⟨rfl, -, -⟩
  · exact ⟨(ha r hstate).1, hkey, hcount, htotal⟩
  · exact ⟨Reassembly.wf_empty hfits g s, rfl, rfl, rfl⟩

/-- What a push does that fills a slot. -/
theorem Fills.push_eq (ha : a.Wf) (h : Fills ε a g s bytes config f r replaced) :
    a.push (ε := ε) g s bytes config = a.settle (r.taking f) replaced := by
  have hfits := (decode_fits h.decoded).1
  obtain ⟨hwf, -, hcount, htotal⟩ := h.base.wf ha hfits
  rcases h.base with ⟨hstate, hkey, -, -, rfl⟩ | ⟨rfl, rfl, hnewer⟩
  · rw [push_same h.new h.decoded hstate hkey]
    exact pushInto_of_insert hcount htotal (Reassembly.insert_vacant h.vacant)
  · rw [push_fresh h.new h.decoded hnewer]
    apply pushInto_of_insert rfl rfl
    exact Reassembly.insert_taking hwf hfits rfl h.vacant

/-- The fragment leaves a vacant slot, or the ranges tile the buffer, or they do not. -/
theorem settle_cases (a : Reassembler) (h : r.Wf) (replaced : Bool) :
    (r.received < r.fragmentCount ∧
        a.settle (ε := ε) r replaced = (.ok (.pending replaced), { a with state := some r })) ∨
      (r.received = r.fragmentCount ∧ Tiles r.filled r.totalLen ∧
        a.settle (ε := ε) r replaced =
          (.ok (.complete r.generation r.sequence r.bytes replaced), ⟨none, some r.key⟩)) ∨
      (r.received = r.fragmentCount ∧ ¬Tiles r.filled r.totalLen ∧
        a.settle (ε := ε) r replaced = (.error .invalidFragment, ⟨none, some r.key⟩)) := by
  rcases Nat.lt_or_eq_of_le h.received_le with hlt | hcomplete
  · have hfalse : r.complete = false := decide_eq_false (Nat.ne_of_lt hlt)
    exact .inl ⟨hlt, by rw [settle, if_pos hfalse]⟩
  · have htrue : ¬r.complete = false := by simp only [Reassembly.complete, hcomplete]; decide
    rw [settle, if_neg htrue, Reassembly.finish_eq h hcomplete]
    by_cases htiles : Tiles r.filled r.totalLen
    · exact .inr (.inl ⟨hcomplete, htiles, by rw [if_pos htiles]; rfl⟩)
    · exact .inr (.inr ⟨hcomplete, htiles, by rw [if_neg htiles]; rfl⟩)

/-- The outcomes of a push, with the state it leaves. -/
inductive PushCase (a : Reassembler) (g : UInt32) (s : UInt64) (bytes : Bytes)
    (config : BindingConfig) :
    Except (BindingError ε) ReassemblyOutcome × Reassembler → Prop
  | old (h : a.isOld g s = true) : PushCase a g s bytes config (.ok .ignoredOld, a)
  | older {r : Reassembly} (hnew : a.isOld g s = false) (hstate : a.state = some r)
      (hlt : KeyLt (g, s) r.key) : PushCase a g s bytes config (.ok .ignoredOld, a)
  | refused (hnew : a.isOld g s = false) :
      PushCase a g s bytes config (.error .invalidFragment, a)
  | repeated {r : Reassembly} (hnew : a.isOld g s = false) (hstate : a.state = some r)
      (hkey : r.key = (g, s)) : PushCase a g s bytes config (.ok (.pending false), a)
  | stored {f : Fragment} {r : Reassembly} {replaced : Bool}
      (h : Fills ε a g s bytes config f r replaced)
      (hlt : (r.taking f).received < (r.taking f).fragmentCount) :
      PushCase a g s bytes config (.ok (.pending replaced), { a with state := some (r.taking f) })
  | completed {f : Fragment} {r : Reassembly} {replaced : Bool}
      (h : Fills ε a g s bytes config f r replaced)
      (hall : (r.taking f).received = (r.taking f).fragmentCount)
      (htiles : Tiles (r.taking f).filled (r.taking f).totalLen) :
      PushCase a g s bytes config
        (.ok (.complete g s (r.taking f).bytes replaced), ⟨none, some (g, s)⟩)
  | spoiled {f : Fragment} {r : Reassembly} {replaced : Bool}
      (h : Fills ε a g s bytes config f r replaced)
      (hall : (r.taking f).received = (r.taking f).fragmentCount)
      (htiles : ¬Tiles (r.taking f).filled (r.taking f).totalLen) :
      PushCase a g s bytes config (.error .invalidFragment, ⟨none, some (g, s)⟩)

theorem Fills.wf (ha : a.Wf) (h : Fills ε a g s bytes config f r replaced) :
    (r.taking f).Wf ∧ (r.taking f).key = (g, s) := by
  have hfits := (decode_fits h.decoded).1
  obtain ⟨hwf, hkey, -, htotal⟩ := h.base.wf ha hfits
  exact ⟨hwf.taking hfits htotal h.vacant, hkey⟩

theorem Fills.push_case (ha : a.Wf) (h : Fills ε a g s bytes config f r replaced) :
    PushCase (ε := ε) a g s bytes config (a.settle (r.taking f) replaced) := by
  obtain ⟨hwf, hkey⟩ := h.wf ha
  obtain ⟨hg, hs⟩ := Prod.mk.inj hkey
  rcases settle_cases (ε := ε) a hwf replaced with
    ⟨hlt, heq⟩ | ⟨hall, htiles, heq⟩ | ⟨hall, htiles, heq⟩
  · rw [heq]
    exact .stored h hlt
  · rw [heq, hkey, hg, hs]
    exact .completed h hall htiles
  · rw [heq, hkey]
    exact .spoiled h hall htiles

theorem decode_error {e : BindingError ε} (h : Fragment.decode bytes config = .error e) :
    e = .invalidFragment := by
  unfold Fragment.decode at h
  split at h
  · exact (Except.error.inj h).symm
  · simp only at h
    split at h
    · exact (Except.error.inj h).symm
    · cases h

theorem push_cases (ha : a.Wf) (g : UInt32) (s : UInt64) (bytes : Bytes)
    (config : BindingConfig) :
    PushCase a g s bytes config (a.push (ε := ε) g s bytes config) := by
  by_cases hold : a.isOld g s = true
  · rw [push, if_pos hold]
    exact .old hold
  have hnew : a.isOld g s = false := Bool.eq_false_iff.mpr hold
  cases hdecode : Fragment.decode (ε := ε) bytes config with
  | error e =>
    obtain rfl := decode_error hdecode
    rw [push, if_neg hold, hdecode]
    exact .refused hnew
  | ok f =>
    have hfits := (decode_fits hdecode).1
    -- Where no reassembly stands in the way, the fragment starts an empty one.
    have hfresh : (∀ current, a.state = some current → KeyLt current.key (g, s)) →
        PushCase a g s bytes config (a.push (ε := ε) g s bytes config) := by
      intro hnewer
      have hfills : Fills ε a g s bytes config f (Reassembly.empty g s f) a.state.isSome :=
        ⟨hnew, hdecode, .inr ⟨rfl, rfl, hnewer⟩, Reassembly.empty_vacant hfits g s⟩
      rw [hfills.push_eq ha]
      exact hfills.push_case ha
    cases hstate : a.state with
    | none => exact hfresh fun current h => by rw [hstate] at h; cases h
    | some r =>
      -- The key is older, the same or newer than that of the reassembly under way.
      rcases keyLt_or_eq (g, s) r.key with hlt | heq | hgt
      · rw [push_older hnew hdecode hstate hlt]
        exact .older hnew hstate hlt
      · rw [push_same hnew hdecode hstate heq.symm]
        by_cases hmatch : r.fragmentCount ≠ f.count ∨ r.totalLen ≠ f.totalLen
        · have hrestored : ({ a with state := some r } : Reassembler) = a := by
            rw [← hstate]
          rw [pushInto, if_pos hmatch, hrestored]
          exact .refused hnew
        obtain ⟨hcount, htotal⟩ := not_or.mp hmatch
        have hcount := Decidable.of_not_not hcount
        have htotal := Decidable.of_not_not htotal
        rcases r.insert_cases (ε := ε) f with ⟨hvacant, hinsert⟩ | hinsert | hinsert
        · rw [pushInto_of_insert hcount htotal hinsert]
          have hfills : Fills ε a g s bytes config f r false :=
            ⟨hnew, hdecode, .inl ⟨hstate, heq.symm, hcount, htotal, rfl⟩, hvacant⟩
          exact hfills.push_case ha
        · rw [pushInto_of_insert hcount htotal hinsert,
            settle_incomplete hstate (ha r hstate).2]
          exact .repeated hnew hstate heq.symm
        · rw [pushInto_of_error hstate hcount htotal hinsert]
          exact .refused hnew
      · exact hfresh fun current h => by
          rw [hstate] at h
          exact Option.some.inj h ▸ hgt

theorem push_wf (ha : a.Wf) (g : UInt32) (s : UInt64) (bytes : Bytes) (config : BindingConfig) :
    (a.push (ε := ε) g s bytes config).2.Wf := by
  have hcase := push_cases (ε := ε) ha g s bytes config
  generalize a.push (ε := ε) g s bytes config = result at hcase
  cases hcase with
  | stored h hlt =>
    intro r' hr'
    obtain rfl := Option.some.inj hr'
    exact ⟨(h.wf ha).1, hlt⟩
  | completed | spoiled =>
    intro r' hr'
    cases hr'
  | _ => exact ha

theorem step_wf (ha : a.Wf) (call : ReassemblerCall) : (a.step (ε := ε) call).2.Wf := by
  cases call with
  | push g s bytes config => exact push_wf ha g s bytes config
  | clear =>
    intro r hr
    cases hr

theorem wf_new : new.Wf := by
  intro r hr
  cases hr

end Reassembler

end MutsukiLink
