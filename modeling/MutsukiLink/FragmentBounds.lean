import MutsukiLink.ReassemblerRuns

/-! The receiver with every slice and index checked. Where the source would stop because a bound is
passed there is no result. -/
namespace MutsukiLink
open WireBytes PieceAssembly RealtimeWorld

variable {ε : Type}

/-- `bytes[start..stop]`. -/
def slice? (bytes : Bytes) (start stop : ℕ) : Option Bytes :=
  if start ≤ stop ∧ stop ≤ bytes.length then some ((bytes.drop start).take (stop-start)) else none

/-- `bytes[start..stop].copy_from_slice(part)`, where the lengths have to agree. -/
def copyFromSlice? (bytes : Bytes) (start stop : ℕ) (part : Bytes) : Option Bytes :=
  (slice? bytes start stop).bind fun target =>
    if target.length = part.length then some (patch bytes start part) else none

/-- The numbers are read after the header has been compared, each part only when the one before it
agrees. -/
def Fragment.decodeChecked (bytes : Bytes) (config : BindingConfig) :
    Option (Except (BindingError ε) Fragment) :=
  if bytes.length ≤ fragmentHeaderLen then some (.error .invalidFragment)
  else do
    let magic ← slice? bytes 0 4
    if magic ≠ fragmentMagic then return .error .invalidFragment
    let version ← bytes[4]?
    if version ≠ fragmentVersion then return .error .invalidFragment
    let reserved ← bytes[5]?
    if reserved ≠ 0 then return .error .invalidFragment
    let index ← slice? bytes 6 8
    let count ← slice? bytes 8 10
    let offset ← slice? bytes 10 14
    let totalLen ← slice? bytes 14 18
    let payload ← slice? bytes fragmentHeaderLen bytes.length
    if ofBeBytes count = 0 ∨ config.maxFragments < ofBeBytes count ∨
        ofBeBytes count ≤ ofBeBytes index ∨ ofBeBytes totalLen = 0 ∨
        config.maxReassemblyBytes < ofBeBytes totalLen ∨
        ofBeBytes totalLen < ofBeBytes offset+payload.length then
      return .error .invalidFragment
    return .ok ⟨ofBeBytes index, ofBeBytes count, ofBeBytes offset, ofBeBytes totalLen, payload⟩

namespace Reassembly

def insertChecked (r : Reassembly) (fragment : Fragment) :
    Option (Except (BindingError ε) Unit × Reassembly) :=
  match r.slots[fragment.index]? with
  | none => some (.error .invalidFragment, r)
  | some slot =>
    let range := (fragment.offset, fragment.payload.length)
    match slot with
    | some existing =>
      if existing ≠ range then some (.error .invalidFragment, r)
      else (slice? r.bytes fragment.offset (fragment.offset+fragment.payload.length)).bind
        fun present =>
          if present ≠ fragment.payload then some (.error .invalidFragment, r)
          else some (.ok (), r)
    | none =>
      (copyFromSlice? r.bytes fragment.offset (fragment.offset+fragment.payload.length)
        fragment.payload).map fun bytes =>
          (.ok (), { r with
            bytes
            slots := r.slots.set fragment.index (some range)
            received := saturatingAdd r.received 1 })

def newChecked (generation : UInt32) (sequence : UInt64) (first : Fragment) :
    Option (Except (BindingError ε) Reassembly) :=
  ((empty generation sequence first).insertChecked first).map fun inserted =>
    match inserted with
    | (.error e, _) => .error e
    | (.ok (), r) => .ok r

end Reassembly

namespace Reassembler

def pushIntoChecked (a : Reassembler) (r : Reassembly) (fragment : Fragment)
    (replacedIncomplete : Bool) :
    Option (Except (BindingError ε) ReassemblyOutcome × Reassembler) :=
  if r.fragmentCount ≠ fragment.count ∨ r.totalLen ≠ fragment.totalLen then
    some (.error .invalidFragment, { a with state := some r })
  else (r.insertChecked fragment).map fun inserted =>
    match inserted with
    | (.error e, r) => (.error e, { a with state := some r })
    | (.ok (), r) => a.settle r replacedIncomplete

def pushChecked (a : Reassembler) (generation : UInt32) (sequence : UInt64) (payload : Bytes)
    (config : BindingConfig) :
    Option (Except (BindingError ε) ReassemblyOutcome × Reassembler) :=
  if a.isOld generation sequence then some (.ok .ignoredOld, a)
  else (Fragment.decodeChecked payload config).bind fun decoded =>
    match decoded with
    | .error e => some (.error e, a)
    | .ok fragment =>
      let replace := (Reassembly.newChecked generation sequence fragment).bind fun created =>
        match created with
        | .error e => some (.error e, a)
        | .ok r => a.pushIntoChecked r fragment a.state.isSome
      match a.state with
      | none => replace
      | some current =>
        if generation < current.generation then some (.ok .ignoredOld, a)
        else if generation = current.generation ∧ sequence < current.sequence then
          some (.ok .ignoredOld, a)
        else if generation = current.generation ∧ sequence = current.sequence then
          a.pushIntoChecked current fragment false
        else replace

end Reassembler

variable {bytes : Bytes} {config : BindingConfig} {f : Fragment} {r : Reassembly}
  {a : Reassembler}

theorem slice?_of_le {start stop : ℕ} (hstart : start ≤ stop) (hstop : stop ≤ bytes.length) :
    slice? bytes start stop = some ((bytes.drop start).take (stop-start)) :=
  if_pos ⟨hstart, hstop⟩

theorem getElem?_of_lt {i : ℕ} (hi : i < bytes.length) : bytes[i]? = some (bytes.getD i 0) := by
  rw [List.getD_eq_getElem?_getD, List.getElem?_eq_getElem hi, Option.getD_some]

/-- The decoder reads inside its bytes. -/
theorem decodeChecked_eq (bytes : Bytes) (config : BindingConfig) :
    Fragment.decodeChecked (ε := ε) bytes config = some (Fragment.decode bytes config) := by
  unfold Fragment.decodeChecked Fragment.decode
  by_cases hshort : bytes.length ≤ fragmentHeaderLen
  · rw [if_pos hshort, if_pos (.inl hshort)]
  have hlong : 18 < bytes.length := Nat.not_le.mp hshort
  have hpayload : (bytes.drop fragmentHeaderLen).take (bytes.length-fragmentHeaderLen) =
      bytes.drop fragmentHeaderLen := by
    apply List.take_of_length_le
    rw [List.length_drop]
  rw [if_neg hshort]
  have hmagic : slice? bytes 0 4 = some (bytes.take 4) := slice?_of_le (by omega) (by omega)
  have hindex : slice? bytes 6 8 = some ((bytes.drop 6).take 2) :=
    slice?_of_le (by omega) (by omega)
  have hcount : slice? bytes 8 10 = some ((bytes.drop 8).take 2) :=
    slice?_of_le (by omega) (by omega)
  have hoffset : slice? bytes 10 14 = some ((bytes.drop 10).take 4) :=
    slice?_of_le (by omega) (by omega)
  have htotal : slice? bytes 14 18 = some ((bytes.drop 14).take 4) :=
    slice?_of_le (by omega) (by omega)
  have hrest : slice? bytes fragmentHeaderLen bytes.length = some (bytes.drop fragmentHeaderLen) :=
    (slice?_of_le (by omega) le_rfl).trans (congrArg some hpayload)
  have hversion := getElem?_of_lt (show 4 < bytes.length by omega)
  have hreserved := getElem?_of_lt (show 5 < bytes.length by omega)
  simp only [hmagic, hversion, hreserved, hindex, hcount, hoffset, htotal, hrest,
    Option.bind_eq_bind, Option.bind_some, hshort, false_or]
  -- The three comparisons of the header, in the order of the source.
  by_cases hmagic : bytes.take 4 ≠ fragmentMagic
  · rw [if_pos hmagic, if_pos (.inl hmagic)]
    rfl
  rw [if_neg hmagic]
  by_cases hversion : bytes.getD 4 0 ≠ fragmentVersion
  · rw [if_pos hversion, if_pos (.inr (.inl hversion))]
    rfl
  rw [if_neg hversion]
  by_cases hreserved : bytes.getD 5 0 ≠ 0
  · rw [if_pos hreserved, if_pos (.inr (.inr hreserved))]
    rfl
  have hheader : ¬(bytes.take 4 ≠ fragmentMagic ∨ bytes.getD 4 0 ≠ fragmentVersion ∨
      bytes.getD 5 0 ≠ 0) := not_or.mpr ⟨hmagic, not_or.mpr ⟨hversion, hreserved⟩⟩
  rw [if_neg hreserved, if_neg hheader]
  split
  · rfl
  · rfl

namespace Reassembly

/-- A decoded fragment lies inside the buffer of its assembly. -/
theorem insertChecked_eq (h : r.Wf) (hfits : f.Fits) (htotal : r.totalLen = f.totalLen) :
    r.insertChecked (ε := ε) f = some (r.insert f) := by
  have hroom : f.offset+f.payload.length ≤ r.bytes.length := by
    rw [h.bytes_length, htotal]
    exact hfits.end_le
  have hslice : slice? r.bytes f.offset (f.offset+f.payload.length) =
      some ((r.bytes.drop f.offset).take f.payload.length) := by
    rw [slice?_of_le (Nat.le_add_right _ _) hroom, Nat.add_sub_cancel_left]
  have hlength : ((r.bytes.drop f.offset).take f.payload.length).length = f.payload.length := by
    rw [List.length_take, List.length_drop]
    omega
  rw [insertChecked, Reassembly.insert]
  cases hslot : r.slots[f.index]? with
  | none => rfl
  | some slot =>
    cases slot with
    | none =>
      simp only [copyFromSlice?, hslice, Option.bind_some, hlength, if_true, Option.map_some]
    | some existing =>
      simp only [hslice, Option.bind_some]
      by_cases hrange : existing ≠ (f.offset, f.payload.length)
      · rw [if_pos hrange, if_pos (.inl hrange)]
      rw [if_neg hrange]
      by_cases hbytes : (r.bytes.drop f.offset).take f.payload.length ≠ f.payload
      · rw [if_pos hbytes, if_pos (.inr hbytes)]
      · rw [if_neg hbytes, if_neg (not_or.mpr ⟨hrange, hbytes⟩)]

theorem newChecked_eq (hfits : f.Fits) (g : UInt32) (s : UInt64) :
    newChecked (ε := ε) g s f = some (Reassembly.new g s f) := by
  have hinsert := insertChecked_eq (ε := ε) (wf_empty hfits g s) hfits rfl
  rw [newChecked, hinsert, insert_vacant (empty_vacant hfits g s), new_eq hfits]
  rfl

end Reassembly

namespace Reassembler

theorem pushIntoChecked_eq (a : Reassembler) (h : r.Wf) (hfits : f.Fits) (replaced : Bool) :
    a.pushIntoChecked (ε := ε) r f replaced = some (a.pushInto r f replaced) := by
  rw [pushIntoChecked, pushInto]
  by_cases hmatch : r.fragmentCount ≠ f.count ∨ r.totalLen ≠ f.totalLen
  · rw [if_pos hmatch, if_pos hmatch]
  have htotal : r.totalLen = f.totalLen := Decidable.of_not_not (not_or.mp hmatch).2
  rw [if_neg hmatch, if_neg hmatch, Reassembly.insertChecked_eq h hfits htotal, Option.map_some]
  rfl

/-- No bound is passed in a push, whatever bytes come. -/
theorem pushChecked_eq (ha : a.Wf) (g : UInt32) (s : UInt64) (bytes : Bytes)
    (config : BindingConfig) :
    a.pushChecked (ε := ε) g s bytes config = some (a.push g s bytes config) := by
  rw [pushChecked, push, decodeChecked_eq, Option.bind_some]
  by_cases hold : a.isOld g s = true
  · rw [if_pos hold, if_pos hold]
  rw [if_neg hold, if_neg hold]
  cases hdecode : Fragment.decode (ε := ε) bytes config with
  | error e => rfl
  | ok f =>
    have hfits := (decode_fits hdecode).1
    have hfresh : ((Reassembly.empty g s f).taking f).Wf :=
      (Reassembly.wf_empty hfits g s).taking hfits rfl (Reassembly.empty_vacant hfits g s)
    simp only [Reassembly.newChecked_eq hfits, Reassembly.new_eq hfits, Option.bind_some,
      pushIntoChecked_eq a hfresh hfits]
    cases hstate : a.state with
    | none => rfl
    | some current =>
      have hcurrent := (ha current hstate).1
      simp only [pushIntoChecked_eq a hcurrent hfits]
      split
      · rfl
      split
      · rfl
      split
      · rfl
      · rfl

end Reassembler

end MutsukiLink
