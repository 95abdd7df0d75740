import Mathlib.Data.List.Sort

/-! A list cut into pieces of one size and put together again in any order. The buffer that
collects the pieces is correct on a piece as soon as that piece has been written. -/
namespace PieceAssembly

variable {α : Type*}

def count (l : List α) (size : ℕ) : ℕ := (l.length+size-1)/size

def piece (l : List α) (size i : ℕ) : List α := (l.drop (i*size)).take size

def pieces (l : List α) (size : ℕ) : List (List α) := (List.range (count l size)).map (piece l size)

/-- The buffer with one part overwritten. -/
def patch (l : List α) (offset : ℕ) (part : List α) : List α :=
  l.take offset ++ (part ++ l.drop (offset+part.length))

theorem length_piece (l : List α) (size i : ℕ) :
    (piece l size i).length = min size (l.length-i*size) := by
  rw [piece, List.length_take, List.length_drop]

theorem getElem?_piece (l : List α) {size i k : ℕ} (hk : k < size) :
    (piece l size i)[k]? = l[i*size+k]? := by
  rw [piece, List.getElem?_take_of_lt hk, List.getElem?_drop]

variable {l : List α} {size i : ℕ}

/-- The pieces before the last one end inside the list. -/
theorem lt_count_iff (hsize : 0 < size) : i < count l size ↔ i*size < l.length := by
  rw [count, Nat.lt_iff_add_one_le, Nat.le_div_iff_mul_le hsize, Nat.add_mul, Nat.one_mul]
  omega

theorem piece_ne_nil (hsize : 0 < size) (hi : i < count l size) : 0 < (piece l size i).length := by
  have hinside := (lt_count_iff hsize).mp hi
  rw [length_piece]
  omega

/-- The pieces with their numbers. -/
theorem mem_zipIdx_pieces {numbered : List α × ℕ} (h : numbered ∈ (pieces l size).zipIdx) :
    numbered.2 < count l size ∧ numbered.1 = piece l size numbered.2 := by
  obtain ⟨part, index⟩ := numbered
  have hget : (pieces l size)[index]? = some part := by
    simpa using List.mem_zipIdx_iff_getElem?.mp h
  obtain ⟨hlt, heq⟩ := List.getElem?_eq_some_iff.mp hget
  rw [pieces, List.length_map, List.length_range] at hlt
  refine ⟨hlt, heq.symm.trans ?_⟩
  simp only [pieces, List.getElem_map, List.getElem_range]

theorem piece_end_le (hsize : 0 < size) (hi : i < count l size) :
    i*size+(piece l size i).length ≤ l.length := by
  have hinside := (lt_count_iff hsize).mp hi
  rw [length_piece]
  omega

theorem length_patch {offset : ℕ} {part : List α} (h : offset+part.length ≤ l.length) :
    (patch l offset part).length = l.length := by
  rw [patch, List.length_append, List.length_append, List.length_take, List.length_drop]
  omega

theorem getElem?_patch_inside {offset : ℕ} {part : List α} (h : offset+part.length ≤ l.length)
    {k : ℕ} (hk : k < part.length) : (patch l offset part)[offset+k]? = part[k]? := by
  have htake : (l.take offset).length = offset := by
    rw [List.length_take]
    omega
  rw [patch, List.getElem?_append_right (by omega), htake, Nat.add_sub_cancel_left,
    List.getElem?_append_left hk]

theorem getElem?_patch_outside {offset : ℕ} {part : List α} (h : offset+part.length ≤ l.length)
    {k : ℕ} (hk : k < offset ∨ offset+part.length ≤ k) : (patch l offset part)[k]? = l[k]? := by
  have htake : (l.take offset).length = offset := by
    rw [List.length_take]
    omega
  rcases hk with hk | hk
  · rw [patch, List.getElem?_append_left (by omega), List.getElem?_take_of_lt hk]
  · rw [patch, List.getElem?_append_right (by omega), htake,
      List.getElem?_append_right (by omega), List.getElem?_drop]
    congr 1
    omega

/-- A part that the buffer has at each of its positions is a slice of the buffer. -/
theorem slice_eq {buffer part : List α} {offset : ℕ}
    (h : ∀ k < part.length, buffer[offset+k]? = part[k]?) :
    (buffer.drop offset).take part.length = part := by
  apply List.ext_getElem?
  intro k
  by_cases hk : k < part.length
  · rw [List.getElem?_take_of_lt hk, List.getElem?_drop, h k hk]
  · rw [List.getElem?_eq_none (Nat.le_of_not_lt hk), List.getElem?_take_eq_none (by omega)]

/-- The buffer holds a piece of the list where the list has it. -/
def Holds (buffer l : List α) (size i : ℕ) : Prop :=
  ∀ k < (piece l size i).length, buffer[i*size+k]? = l[i*size+k]?

theorem Holds.slice {buffer : List α} (h : Holds buffer l size i) :
    (buffer.drop (i*size)).take (piece l size i).length = piece l size i := by
  apply slice_eq
  intro k hk
  have hsize : k < size := by
    rw [length_piece] at hk
    omega
  rw [h k hk, getElem?_piece l hsize]

/-- A piece is held once it has been written. -/
theorem holds_patch_self {buffer : List α} (hsize : 0 < size) (hi : i < count l size)
    (hlength : buffer.length = l.length) :
    Holds (patch buffer (i*size) (piece l size i)) l size i := by
  intro k hk
  have hend := piece_end_le hsize hi
  have hlt : k < size := by
    rw [length_piece] at hk
    omega
  rw [getElem?_patch_inside (by omega) hk, getElem?_piece l hlt]

/-- Writing a piece keeps the others. -/
theorem Holds.patch_other {buffer : List α} {j : ℕ} (h : Holds buffer l size j) (hsize : 0 < size)
    (hi : i < count l size) (hlength : buffer.length = l.length) (hne : j ≠ i) :
    Holds (patch buffer (i*size) (piece l size i)) l size j := by
  intro k hk
  have hend := piece_end_le hsize hi
  rw [← h k hk]
  apply getElem?_patch_outside (by omega)
  -- Different pieces do not overlap.
  rw [length_piece] at hk ⊢
  rcases Nat.lt_or_gt_of_ne hne with hlt | hlt
  · left
    have hmul : (j+1)*size ≤ i*size := Nat.mul_le_mul_right size hlt
    rw [Nat.add_mul, Nat.one_mul] at hmul
    omega
  · right
    have hmul : (i+1)*size ≤ j*size := Nat.mul_le_mul_right size hlt
    rw [Nat.add_mul, Nat.one_mul] at hmul
    omega

/-- A buffer that holds every piece is the list. -/
theorem eq_of_holds {buffer : List α} (hsize : 0 < size) (hlength : buffer.length = l.length)
    (h : ∀ i < count l size, Holds buffer l size i) : buffer = l := by
  apply List.ext_getElem?
  intro k
  by_cases hk : k < l.length
  · have hdecompose : k/size*size+k%size = k := Nat.div_add_mod' k size
    have hmod : k%size < size := Nat.mod_lt k hsize
    have hi : k/size < count l size := by
      rw [lt_count_iff hsize]
      omega
    have hinside : k%size < (piece l size (k/size)).length := by
      rw [length_piece]
      omega
    have hheld := h (k/size) hi (k%size) hinside
    rwa [hdecompose] at hheld
  · rw [List.getElem?_eq_none (by omega), List.getElem?_eq_none (by omega)]

/-- Where the pieces lie. -/
def range (l : List α) (size i : ℕ) : ℕ × ℕ := (i*size, (piece l size i).length)

def ranges (l : List α) (size : ℕ) : List (ℕ × ℕ) := (List.range (count l size)).map (range l size)

/-- The ranges lie one behind the other already. -/
theorem ranges_sorted (l : List α) (size : ℕ) :
    (ranges l size).insertionSort (fun a b => a.1 ≤ b.1) = ranges l size := by
  apply List.Pairwise.insertionSort_eq
  rw [ranges, List.pairwise_map]
  refine List.pairwise_lt_range.imp fun {i j} hlt => ?_
  exact Nat.mul_le_mul_right size (Nat.le_of_lt hlt)

/-- A walk along ranges that have no gap, to the end of the last. -/
def walk : ℕ → List (ℕ × ℕ) → Option ℕ
  | cursor, [] => some cursor
  | cursor, (offset, length) :: rest => if offset ≠ cursor then none else walk (cursor+length) rest

theorem walk_append (cursor : ℕ) (xs ys : List (ℕ × ℕ)) :
    walk cursor (xs ++ ys) = (walk cursor xs).bind (walk · ys) := by
  induction xs generalizing cursor with
  | nil => rfl
  | cons x rest ih =>
    simp only [List.cons_append, walk]
    split
    · rfl
    · exact ih _

theorem walk_ranges (hsize : 0 < size) : walk 0 (ranges l size) = some l.length := by
  -- After `n` ranges the cursor stands at the end of the `n`th piece.
  have hwalk : ∀ n ≤ count l size,
      walk 0 ((List.range n).map (range l size)) = some (min (n*size) l.length) := by
    intro n hn
    induction n with
    | zero => simp [walk]
    | succ n ih =>
      have hinside := (lt_count_iff hsize).mp (Nat.lt_of_succ_le hn)
      rw [List.range_succ, List.map_append, walk_append, ih (Nat.le_of_succ_le hn),
        Option.bind_some, List.map_singleton, min_eq_left hinside.le]
      simp only [walk, range, ne_eq, not_true_eq_false, if_false, length_piece]
      rw [Nat.succ_mul]
      congr 1
      omega
  rw [ranges, hwalk _ le_rfl]
  congr 1
  apply min_eq_right
  by_contra hlt
  exact absurd ((lt_count_iff hsize).mpr (Nat.lt_of_not_le hlt)) (lt_irrefl _)

end PieceAssembly
