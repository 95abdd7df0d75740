import Mathlib.Data.List.Basic

/-! The account of a queue that is served from the front and emptied at once: what was
accepted, what was delivered, what was dropped and what still waits. -/
namespace FifoLedger

variable {α : Type*}

/-- What was accepted is, in order, what has left the queue and then what waits in it. Each
element that left carries its fate, so the delivered and the dropped elements part it and
keep the order of acceptance. -/
def Settled (accepted delivered dropped waiting : List α) : Prop :=
  ∃ fates : List (α × Bool), accepted = fates.map Prod.fst ++ waiting ∧
    delivered = (fates.filter fun p => p.2).map Prod.fst ∧
    dropped = (fates.filter fun p => !p.2).map Prod.fst

/-- What one call does to a queue: nothing, one element in, the front out, or all of it gone. -/
inductive Move : List α → List α → List α → List α → List α → Prop
  | idle (q : List α) : Move [] [] [] q q
  | accept (a : α) (q : List α) : Move [a] [] [] q (q ++ [a])
  | deliver (a : α) (q : List α) : Move [] [a] [] (a :: q) q
  | drop (q : List α) : Move [] [] q q []

theorem Settled.nil : Settled ([] : List α) [] [] [] := ⟨[], rfl, rfl, rfl⟩

theorem Settled.move {accepted delivered dropped pre a d x post : List α}
    (h : Settled accepted delivered dropped pre) (hm : Move a d x pre post) :
    Settled (accepted ++ a) (delivered ++ d) (dropped ++ x) post := by
  obtain ⟨fates, rfl, rfl, rfl⟩ := h
  cases hm with
  | idle => exact ⟨fates, by simp, by simp, by simp⟩
  -- Nothing leaves, so the fates stay and only the waiting list grows.
  | accept a => exact ⟨fates, by simp, by simp, by simp⟩
  | deliver a => exact ⟨fates ++ [(a, true)], by simp, by simp, by simp⟩
  | drop =>
    -- Everything that waited leaves at once, marked as dropped.
    refine ⟨fates ++ pre.map fun b => (b, false), by simp [Function.comp_def], ?_, ?_⟩
    · simp [List.filter_map, Function.comp_def]
    · simp [List.filter_map, Function.comp_def]

/-- The front may also be dropped alone. -/
theorem Settled.reject {accepted delivered dropped waiting : List α} {a : α}
    (h : Settled accepted delivered dropped (a :: waiting)) :
    Settled accepted delivered (dropped ++ [a]) waiting := by
  obtain ⟨fates, rfl, rfl, rfl⟩ := h
  exact ⟨fates ++ [(a, false)], by simp, by simp, by simp⟩

/-- Where nothing was dropped, what was delivered is what was accepted first. -/
theorem Settled.eq_append {accepted delivered waiting : List α}
    (h : Settled accepted delivered [] waiting) : accepted = delivered ++ waiting := by
  obtain ⟨fates, rfl, rfl, hdropped⟩ := h
  have hkept : fates.filter (fun p => p.2) = fates := by
    rw [List.filter_eq_self]
    intro p hp
    by_contra hfate
    have hmem : p ∈ fates.filter fun p => !p.2 := List.mem_filter.mpr ⟨hp, by simpa using hfate⟩
    rw [List.map_eq_nil_iff.mp hdropped.symm] at hmem
    exact absurd hmem List.not_mem_nil
  rw [hkept]

/-- What was delivered and what still waits are among what was accepted, in this order. -/
theorem Settled.sublist {accepted delivered dropped waiting : List α}
    (h : Settled accepted delivered dropped waiting) :
    (delivered ++ waiting).Sublist accepted := by
  obtain ⟨fates, rfl, rfl, -⟩ := h
  exact (List.filter_sublist.map Prod.fst).append (List.Sublist.refl _)

end FifoLedger
