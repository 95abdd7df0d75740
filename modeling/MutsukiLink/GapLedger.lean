import Mathlib.Data.List.Forall2

/-! The account of a bounded queue that gives up its oldest elements: the reader learns each
element or how many it has missed, and both together tell of all that was published. -/
namespace GapLedger

variable {α : Type*}

/-- What a reader learns: one element, or a number of elements that are gone. -/
inductive Notice (α : Type*) where
  | item (a : α)
  | missed (count : ℕ)

/-- The elements a notice stands for, known or not. -/
def Notice.places : Notice α → List (Option α)
  | .item a => [some a]
  | .missed count => List.replicate count none

/-- The notices speak of exactly these elements, one place for each of them in order. -/
def Tells (notices : List (Notice α)) (told : List α) : Prop :=
  List.Forall₂ (fun place a => ∀ x, place = some x → x = a) (notices.flatMap Notice.places) told

/-- What was published is, in order, what the reader was told of, what it has missed without being
told, and what waits. -/
def Settled (published : List α) (notices : List (Notice α)) (missed : ℕ) (waiting : List α) :
    Prop :=
  ∃ told lost, published = told ++ (lost ++ waiting) ∧ Tells notices told ∧ lost.length = missed

theorem Tells.append {ns ms : List (Notice α)} {as bs : List α} (h : Tells ns as)
    (h' : Tells ms bs) : Tells (ns ++ ms) (as ++ bs) := by
  unfold Tells
  rw [List.flatMap_append]
  exact List.rel_append h h'

theorem tells_item (a : α) : Tells [.item a] [a] := by
  refine List.Forall₂.cons ?_ List.Forall₂.nil
  intro x hx
  exact (Option.some.inj hx).symm

theorem tells_missed (lost : List α) : Tells [.missed lost.length] lost := by
  have hplaces : [Notice.missed (α := α) lost.length].flatMap Notice.places =
      List.replicate lost.length none := List.append_nil _
  rw [Tells, hplaces]
  induction lost with
  | nil => exact List.Forall₂.nil
  | cons a lost ih =>
    refine List.Forall₂.cons ?_ (ih (List.append_nil _))
    intro x hx
    cases hx

theorem Settled.nil : Settled ([] : List α) [] 0 [] := ⟨[], [], rfl, List.Forall₂.nil, rfl⟩

section Moves
variable {published waiting : List α} {notices : List (Notice α)} {missed : ℕ} {a b : α}

theorem Settled.push (h : Settled published notices missed waiting) :
    Settled (published ++ [a]) notices missed (waiting ++ [a]) := by
  obtain ⟨told, lost, rfl, htold, hlost⟩ := h
  exact ⟨told, lost, by simp only [List.append_assoc], htold, hlost⟩

/-- The element that makes room is the last of those the reader has missed: what was missed
before it is older, and the reader is told of both at once. -/
theorem Settled.overflow (h : Settled published notices missed (b :: waiting)) :
    Settled (published ++ [a]) notices (missed+1) (waiting ++ [a]) := by
  -- The oldest of the queue goes from its front to the end of the untold losses.
  obtain ⟨told, lost, rfl, htold, hlost⟩ := h
  refine ⟨told, lost ++ [b], by simp, htold, ?_⟩
  rw [List.length_append, hlost]
  rfl

theorem Settled.report (h : Settled published notices missed waiting) :
    Settled published (notices ++ [.missed missed]) 0 waiting := by
  obtain ⟨told, lost, rfl, htold, rfl⟩ := h
  refine ⟨told ++ lost, [], by simp, ?_, rfl⟩
  exact htold.append (tells_missed lost)

/-- An element may be handed out only when nothing older is left to report. -/
theorem Settled.handOut (h : Settled published notices 0 (a :: waiting)) :
    Settled published (notices ++ [.item a]) 0 waiting := by
  obtain ⟨told, lost, rfl, htold, hlost⟩ := h
  obtain rfl := List.length_eq_zero_iff.mp hlost
  exact ⟨told ++ [a], [], by simp, htold.append (tells_item a), rfl⟩

/-- The reader has been told of a first part of what was published. -/
theorem Settled.told (h : Settled published notices missed waiting) :
    ∃ told, Tells notices told ∧ told <+: published := by
  obtain ⟨told, lost, rfl, htold, -⟩ := h
  exact ⟨told, htold, List.prefix_append _ _⟩

theorem Settled.complete (h : Settled published notices 0 []) : Tells notices published := by
  obtain ⟨told, lost, rfl, htold, hlost⟩ := h
  obtain rfl := List.length_eq_zero_iff.mp hlost
  simpa only [List.append_nil] using htold

end Moves
end GapLedger
