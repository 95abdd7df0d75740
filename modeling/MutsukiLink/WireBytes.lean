import Mathlib.Data.List.Induction
import Mathlib.Tactic.Ring
import MutsukiLink.OrderedMap

/-! Byte strings as a wire format sees them: arrays of a fixed size with their
lexicographic order, and big-endian integers. -/
namespace WireBytes
open Std

abbrev Bytes := List UInt8

/-- The array type `[u8; n]`. -/
structure FixedBytes (n : ℕ) where
  bytes : Bytes
  size_eq : bytes.length = n
deriving DecidableEq, Repr

theorem FixedBytes.ext_bytes {n : ℕ} {a b : FixedBytes n} (h : a.bytes = b.bytes) : a = b := by
  cases a
  cases b
  simpa only [FixedBytes.mk.injEq] using h

instance {n : ℕ} : Ord (FixedBytes n) := ⟨compareOn FixedBytes.bytes⟩

instance {n : ℕ} : TransOrd (FixedBytes n) :=
  inferInstanceAs (TransCmp (compareOn FixedBytes.bytes))

instance {n : ℕ} : LawfulEqOrd (FixedBytes n) :=
  OrderedMap.lawfulEq_compareOn (fun _ _ h => FixedBytes.ext_bytes h)

def FixedBytes.replicate (n : ℕ) (b : UInt8) : FixedBytes n :=
  ⟨List.replicate n b, List.length_replicate⟩

/-- `to_be_bytes` of an integer of `n` bytes. -/
def beBytes : ℕ → ℕ → Bytes
  | 0, _ => []
  | n+1, x => beBytes n (x/256) ++ [UInt8.ofNat (x%256)]

/-- `from_be_bytes`, before the result is cut to its integer type. -/
def ofBeBytes (bs : Bytes) : ℕ := bs.foldl (fun acc b => acc*256+b.toNat) 0

@[simp] theorem length_beBytes (n x : ℕ) : (beBytes n x).length = n := by
  induction n generalizing x with
  | zero => rfl
  | succ n ih => simp [beBytes, ih]

theorem ofBeBytes_concat (bs : Bytes) (b : UInt8) :
    ofBeBytes (bs ++ [b]) = ofBeBytes bs*256+b.toNat := by
  simp [ofBeBytes]

theorem ofBeBytes_beBytes (n x : ℕ) (hx : x < 256^n) : ofBeBytes (beBytes n x) = x := by
  induction n generalizing x with
  | zero =>
    obtain rfl : x = 0 := by simpa using hx
    rfl
  | succ n ih =>
    -- The last byte is the remainder; the induction speaks about the quotient.
    have hd : x/256 < 256^n := Nat.div_lt_of_lt_mul (by rw [pow_succ] at hx; omega)
    have hb : (UInt8.ofNat (x%256)).toNat = x%256 :=
      UInt8.toNat_ofNat_of_lt (Nat.mod_lt _ (by decide))
    rw [beBytes, ofBeBytes_concat, ih _ hd, hb]
    omega

theorem ofBeBytes_lt (bs : Bytes) : ofBeBytes bs < 256^bs.length := by
  induction bs using List.reverseRecOn with
  | nil => decide
  | append_singleton bs b ih =>
    have hb : b.toNat < 256 := b.toNat_lt
    rw [ofBeBytes_concat, List.length_append, List.length_singleton, pow_succ]
    omega

theorem beBytes_ofBeBytes (bs : Bytes) : beBytes bs.length (ofBeBytes bs) = bs := by
  induction bs using List.reverseRecOn with
  | nil => rfl
  | append_singleton bs b ih =>
    have hb : b.toNat < 256 := b.toNat_lt
    -- From the right, because `beBytes` writes the least significant byte last.
    have hd : (ofBeBytes bs*256+b.toNat)/256 = ofBeBytes bs := by omega
    have hm : (ofBeBytes bs*256+b.toNat)%256 = b.toNat := by omega
    rw [List.length_append, List.length_singleton, beBytes, ofBeBytes_concat, hd, hm, ih,
      UInt8.ofNat_toNat]

/-- A type filled by the integers of `n` bytes is read back from exactly one byte string. -/
theorem ofNat_ofBeBytes_eq_iff {α : Type} {n : ℕ} {ofNat : ℕ → α} {toNat : α → ℕ}
    (hlt : ∀ a, toNat a < 256^n) (hto : ∀ a, ofNat (toNat a) = a)
    (hof : ∀ x, x < 256^n → toNat (ofNat x) = x) {bs : Bytes} (hbs : bs.length = n) {a : α} :
    ofNat (ofBeBytes bs) = a ↔ beBytes n (toNat a) = bs := by
  constructor
  · rintro rfl
    rw [hof _ (hbs ▸ ofBeBytes_lt bs), ← hbs, beBytes_ofBeBytes]
  · rintro rfl
    rw [ofBeBytes_beBytes n _ (hlt a), hto]

/-- A byte string cut at fixed widths, with what is left over as its last piece. -/
def cut : List ℕ → Bytes → List Bytes
  | [], bs => [bs]
  | n :: ns, bs => bs.take n :: cut ns (bs.drop n)

theorem flatten_cut (ns : List ℕ) (bs : Bytes) : (cut ns bs).flatten = bs := by
  induction ns generalizing bs with
  | nil => simp [cut]
  | cons n ns ih => rw [cut, List.flatten_cons, ih, List.take_append_drop]

theorem cut_flatten (fields : List Bytes) (rest : Bytes) :
    cut (fields.map List.length) (fields ++ [rest]).flatten = fields ++ [rest] := by
  induction fields with
  | nil => simp [cut]
  | cons field fields ih =>
    rw [List.map_cons, cut, List.cons_append, List.flatten_cons, List.take_left, List.drop_left, ih]

end WireBytes
