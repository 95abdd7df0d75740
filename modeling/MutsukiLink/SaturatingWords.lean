import Mathlib.Data.Nat.Notation
import Mathlib.Data.UInt

/-! Arithmetic of machine words that stops at the bounds of the word instead of wrapping around. -/

namespace UInt64

/-- The greatest word. -/
def maxNat : ℕ := 2^64-1

/-- The word nearest to a number. -/
def clamp (n : ℕ) : UInt64 := UInt64.ofNat (min n maxNat)

def saturatingAdd (a b : UInt64) : UInt64 := clamp (a.toNat+b.toNat)

def saturatingSub (a b : UInt64) : UInt64 := clamp (a.toNat-b.toNat)

def saturatingMul (a b : UInt64) : UInt64 := clamp (a.toNat*b.toNat)

theorem toNat_le_maxNat (a : UInt64) : a.toNat ≤ maxNat := by
  have h := a.toNat_lt
  unfold maxNat
  omega

@[simp] theorem toNat_clamp (n : ℕ) : (clamp n).toNat = min n maxNat := by
  apply UInt64.toNat_ofNat_of_lt'
  have h : min n maxNat ≤ maxNat := Nat.min_le_right _ _
  unfold maxNat at h ⊢
  show min n (2^64-1) < 2^64
  omega

@[simp] theorem toNat_saturatingAdd (a b : UInt64) :
    (a.saturatingAdd b).toNat = min (a.toNat+b.toNat) maxNat := toNat_clamp _

@[simp] theorem toNat_saturatingMul (a b : UInt64) :
    (a.saturatingMul b).toNat = min (a.toNat*b.toNat) maxNat := toNat_clamp _

@[simp] theorem toNat_saturatingSub (a b : UInt64) :
    (a.saturatingSub b).toNat = a.toNat-b.toNat := by
  have h := a.toNat_le_maxNat
  rw [saturatingSub, toNat_clamp]
  omega

end UInt64

namespace UInt32

def saturatingAdd (a b : UInt32) : UInt32 := UInt32.ofNat (min (a.toNat+b.toNat) (2^32-1))

def saturatingMul (a b : UInt32) : UInt32 := UInt32.ofNat (min (a.toNat*b.toNat) (2^32-1))

theorem toNat_ofNat_min (n : ℕ) : (UInt32.ofNat (min n (2^32-1))).toNat = min n (2^32-1) := by
  apply UInt32.toNat_ofNat_of_lt'
  show min n (2^32-1) < 2^32
  omega

@[simp] theorem toNat_saturatingAdd (a b : UInt32) :
    (a.saturatingAdd b).toNat = min (a.toNat+b.toNat) (2^32-1) := toNat_ofNat_min _

@[simp] theorem toNat_saturatingMul (a b : UInt32) :
    (a.saturatingMul b).toNat = min (a.toNat*b.toNat) (2^32-1) := toNat_ofNat_min _

/-- Below some other word there is room for one more. -/
theorem toNat_saturatingAdd_one {a b : UInt32} (h : a < b) :
    (a.saturatingAdd 1).toNat = a.toNat+1 := by
  have hb := b.toNat_lt
  have hlt : a.toNat < b.toNat := UInt32.lt_iff_toNat_lt.mp h
  have hone : (1 : UInt32).toNat = 1 := rfl
  rw [saturatingAdd, hone, Nat.min_eq_left (by omega)]
  apply UInt32.toNat_ofNat_of_lt'
  show a.toNat+1 < 2^32
  omega

end UInt32
