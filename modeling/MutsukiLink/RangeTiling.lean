import MutsukiLink.PieceAssembly

/-! Ranges of a buffer that come in any order. They tile the buffer when they do not overlap and
leave no gap. A walk along the sorted ranges finds this out. -/
namespace PieceAssembly

/-- The ranges do not overlap and reach every position below the end. -/
def Tiles (rs : List (ℕ × ℕ)) (total : ℕ) : Prop :=
  rs.Pairwise (fun a b => a.1+a.2 ≤ b.1 ∨ b.1+b.2 ≤ a.1) ∧
    ∀ k < total, ∃ r ∈ rs, r.1 ≤ k ∧ k < r.1+r.2

instance (rs : List (ℕ × ℕ)) (total : ℕ) : Decidable (Tiles rs total) :=
  inferInstanceAs (Decidable (_ ∧ _))

/-- The order of the sort. -/
abbrev sorted (rs : List (ℕ × ℕ)) : List (ℕ × ℕ) := rs.insertionSort fun a b => a.1 ≤ b.1

theorem pairwise_sorted (rs : List (ℕ × ℕ)) : (sorted rs).Pairwise fun a b => a.1 ≤ b.1 := by
  have htotal : Std.Total fun a b : ℕ × ℕ => a.1 ≤ b.1 := ⟨fun a b => Nat.le_total a.1 b.1⟩
  have htrans : IsTrans (ℕ × ℕ) fun a b => a.1 ≤ b.1 := ⟨fun _ _ _ => Nat.le_trans⟩
  exact List.pairwise_insertionSort _ rs

theorem Tiles.perm {rs rs' : List (ℕ × ℕ)} {total : ℕ} (h : Tiles rs total) (hperm : rs.Perm rs') :
    Tiles rs' total := by
  obtain ⟨hdisjoint, hcover⟩ := h
  refine ⟨hperm.pairwise hdisjoint fun h => h.symm, fun k hk => ?_⟩
  obtain ⟨r, hr, hinside⟩ := hcover k hk
  exact ⟨r, hperm.mem_iff.mp hr, hinside⟩

/-- The ranges of a walk lie one behind the other, between its two ends. -/
theorem walk_ordered {rs : List (ℕ × ℕ)} {start stop : ℕ} (h : walk start rs = some stop) :
    start ≤ stop ∧ rs.Pairwise (fun a b => a.1+a.2 ≤ b.1) ∧
      ∀ r ∈ rs, start ≤ r.1 ∧ r.1+r.2 ≤ stop := by
  induction rs generalizing start with
  | nil =>
    rw [walk, Option.some.injEq] at h
    exact ⟨h.le, .nil, by simp⟩
  | cons r rest ih =>
    obtain ⟨offset, length⟩ := r
    rw [walk] at h
    split at h
    · cases h
    next heq =>
    have hstart : offset = start := Decidable.of_not_not heq
    obtain ⟨hle, hpairwise, hinside⟩ := ih h
    refine ⟨by omega, List.pairwise_cons.mpr ⟨fun b hb => ?_, hpairwise⟩, fun b hb => ?_⟩
    · have hafter := hinside b hb
      simp only
      omega
    · rcases List.mem_cons.mp hb with rfl | hb
      · simp only
        omega
      · have hafter := hinside b hb
        omega

/-- The ranges of a walk leave no gap. -/
theorem walk_covers {rs : List (ℕ × ℕ)} {start stop : ℕ} (h : walk start rs = some stop) {k : ℕ}
    (hstart : start ≤ k) (hstop : k < stop) : ∃ r ∈ rs, r.1 ≤ k ∧ k < r.1+r.2 := by
  induction rs generalizing start with
  | nil =>
    rw [walk, Option.some.injEq] at h
    omega
  | cons r rest ih =>
    obtain ⟨offset, length⟩ := r
    rw [walk] at h
    split at h
    · cases h
    next heq =>
    have hoffset : offset = start := Decidable.of_not_not heq
    by_cases hk : k < start+length
    · exact ⟨(offset, length), List.mem_cons_self, by simp only; omega⟩
    · obtain ⟨r, hr, hinside⟩ := ih h (by omega)
      exact ⟨r, List.mem_cons_of_mem _ hr, hinside⟩

/-- A walk along sorted ranges that do not overlap and leave no gap reaches the end. -/
theorem walk_of_covers {rs : List (ℕ × ℕ)} {start stop : ℕ} (hle : start ≤ stop)
    (hsorted : rs.Pairwise fun a b => a.1 ≤ b.1)
    (hdisjoint : rs.Pairwise fun a b => a.1+a.2 ≤ b.1 ∨ b.1+b.2 ≤ a.1)
    (hinside : ∀ r ∈ rs, start ≤ r.1 ∧ 0 < r.2 ∧ r.1+r.2 ≤ stop)
    (hcover : ∀ k, start ≤ k → k < stop → ∃ r ∈ rs, r.1 ≤ k ∧ k < r.1+r.2) :
    walk start rs = some stop := by
  induction rs generalizing start with
  | nil =>
    have hend : ¬start < stop := by
      intro hlt
      obtain ⟨r, hr, -⟩ := hcover start le_rfl hlt
      exact absurd hr List.not_mem_nil
    rw [walk]
    congr 1
    omega
  | cons r rest ih =>
    obtain ⟨offset, length⟩ := r
    obtain ⟨hfirst, hrest⟩ := List.forall_mem_cons.mp hinside
    obtain ⟨hbefore, hsorted⟩ := List.pairwise_cons.mp hsorted
    obtain ⟨hapart, hdisjoint⟩ := List.pairwise_cons.mp hdisjoint
    simp only at hfirst hbefore hapart
    -- Some range starts where the walk stands, and the first one starts no later.
    have hoffset : offset = start := by
      obtain ⟨b, hb, hat⟩ := hcover start le_rfl (by omega)
      rcases List.mem_cons.mp hb with rfl | hb
      · simp only at hat
        omega
      · have hlater := hbefore b hb
        omega
    have hbehind : ∀ b ∈ rest, start+length ≤ b.1 ∧ 0 < b.2 ∧ b.1+b.2 ≤ stop := by
      intro b hb
      have hlater := hbefore b hb
      have hlong := hrest b hb
      rcases hapart b hb with hafter | hfront
      · omega
      · omega
    rw [walk, if_neg (by simpa using hoffset)]
    refine ih (by omega) hsorted hdisjoint hbehind fun k hk hstop => ?_
    obtain ⟨b, hb, hat⟩ := hcover k (by omega) hstop
    rcases List.mem_cons.mp hb with rfl | hb
    · simp only at hat
      omega
    · exact ⟨b, hb, hat⟩

/-- The walk along the sorted ranges decides whether they tile the buffer. -/
theorem walk_sorted_iff {rs : List (ℕ × ℕ)} {total : ℕ}
    (hinside : ∀ r ∈ rs, 0 < r.2 ∧ r.1+r.2 ≤ total) :
    walk 0 (sorted rs) = some total ↔ Tiles rs total := by
  have hperm : (sorted rs).Perm rs := List.perm_insertionSort _ rs
  constructor
  · intro h
    have hordered := (walk_ordered h).2.1
    have htiles : Tiles (sorted rs) total :=
      ⟨hordered.imp Or.inl, fun k hk => walk_covers h (Nat.zero_le k) hk⟩
    exact htiles.perm hperm
  · intro h
    have htiles := h.perm hperm.symm
    refine walk_of_covers (Nat.zero_le total) (pairwise_sorted rs) htiles.1 (fun r hr => ?_)
      fun k _ hk => htiles.2 k hk
    exact ⟨Nat.zero_le _, hinside r (hperm.mem_iff.mp hr)⟩

variable {α β : Type*}

/-- Parts that a buffer holds, in the order of a walk, are together the buffer between the ends of
the walk. -/
theorem flatMap_of_walk {offset : β → ℕ} {data : β → List α} {buffer : List α} {parts : List β}
    {start stop : ℕ} (h : walk start (parts.map fun p => (offset p, (data p).length)) = some stop)
    (hholds : ∀ p ∈ parts, ∀ k < (data p).length, buffer[offset p+k]? = (data p)[k]?) :
    parts.flatMap data = (buffer.drop start).take (stop-start) := by
  induction parts generalizing start with
  | nil =>
    rw [List.map_nil, walk, Option.some.injEq] at h
    rw [h, Nat.sub_self, List.take_zero]
    rfl
  | cons p rest ih =>
    obtain ⟨hfirst, hholds⟩ := List.forall_mem_cons.mp hholds
    rw [List.map_cons, walk] at h
    split at h
    · cases h
    next heq =>
    have hoffset : offset p = start := Decidable.of_not_not heq
    have hle := (walk_ordered h).1
    have hdata : (buffer.drop start).take (data p).length = data p := hoffset ▸ slice_eq hfirst
    have hsplit : stop-start = (data p).length+(stop-(start+(data p).length)) := by omega
    rw [List.flatMap_cons, ih h hholds, hsplit, List.take_add, hdata, List.drop_drop]

end PieceAssembly
