import Mathlib.Data.Nat.Notation
import Mathlib.Logic.Basic

/-! Text that is read line by line, and numbers on lines of their own. A line feed ends a line, and
a carriage return right before it belongs to the end of the line. -/
namespace TextLines

/-- A line without the carriage return before its line feed. -/
def chomp (line : List Char) : List Char :=
  if line.getLast? = some '\r' then line.dropLast else line

/-- The lines of a text, with what has been read of the current line. An unfinished line at the end
is kept as it is. -/
def linesFrom : List Char → List Char → List (List Char)
  | current, [] => if current = [] then [] else [current]
  | current, c :: rest =>
    if c = '\n' then chomp current :: linesFrom [] rest else linesFrom (current ++ [c]) rest

def lines (text : List Char) : List (List Char) := linesFrom [] text

theorem linesFrom_append {line : List Char} (h : '\n' ∉ line) (current rest : List Char) :
    linesFrom current (line ++ '\n' :: rest) = chomp (current ++ line) :: lines rest := by
  induction line generalizing current with
  | nil =>
    rw [List.nil_append, linesFrom, if_pos rfl, List.append_nil]
    rfl
  | cons c line ih =>
    simp only [List.mem_cons, not_or] at h
    rw [List.cons_append, linesFrom, if_neg (Ne.symm h.1), ih h.2, List.append_assoc,
      List.singleton_append]

/-- A finished line comes first. -/
theorem lines_append {line : List Char} (h : '\n' ∉ line) (rest : List Char) :
    lines (line ++ '\n' :: rest) = chomp line :: lines rest :=
  linesFrom_append h [] rest

/-- A text that is one line and no part of a line end. -/
def Clean (text : List Char) : Prop := '\n' ∉ text ∧ text.getLast? ≠ some '\r'

theorem chomp_eq_self {line : List Char} : chomp line = line ↔ line.getLast? ≠ some '\r' := by
  unfold chomp
  split
  · next h =>
    refine iff_of_false (fun heq => ?_) (not_not.mpr h)
    have hlen := congrArg List.length heq
    have hpos : 0 < line.length := by
      refine List.length_pos_iff.mpr ?_
      rintro rfl
      cases h
    rw [List.length_dropLast] at hlen
    omega
  · next h => exact iff_of_true rfl h

theorem lines_clean {text : List Char} (h : Clean text) (rest : List Char) :
    lines (text ++ '\n' :: rest) = text :: lines rest := by
  rw [lines_append h.1, chomp_eq_self.mpr h.2]

/-- The first line of a text is the whole text exactly when that is clean. -/
theorem head?_lines_iff (text rest : List Char) :
    (lines (text ++ '\n' :: rest)).head? = some text ↔ Clean text := by
  by_cases h : '\n' ∈ text
  · refine iff_of_false (fun hhead => ?_) fun hclean => hclean.1 h
    obtain ⟨first, more, rfl, hfirst⟩ := List.eq_append_cons_of_mem h
    -- The first line ends at the first line feed and is too short.
    rw [List.append_assoc, List.cons_append, lines_append hfirst, List.head?_cons,
      Option.some.injEq] at hhead
    have hlen := congrArg List.length hhead
    have hle : (chomp first).length ≤ first.length := by
      unfold chomp
      split
      · rw [List.length_dropLast]
        omega
      · exact Nat.le_refl _
    simp only [List.length_append, List.length_cons] at hlen
    omega
  · rw [lines_append h, List.head?_cons, Option.some.injEq, chomp_eq_self]
    exact ⟨fun hlast => ⟨h, hlast⟩, fun hclean => hclean.2⟩

/-- Characters that are neither of those that end a line make a clean text. -/
theorem clean_of_forall {text : List Char} (h : ∀ c ∈ text, c ≠ '\n' ∧ c ≠ '\r') : Clean text :=
  ⟨fun hmem => (h _ hmem).1 rfl, fun hlast => (h _ (List.mem_of_getLast? hlast)).2 rfl⟩

/-- The digits of a number without a plus sign before them. -/
def unsigned (text : List Char) : List Char :=
  if text.head? = some '+' then text.tail else text

/-- `from_str` of an unsigned number below `size`. -/
def parseUnsigned (size : ℕ) (text : List Char) : Option ℕ :=
  if unsigned text = [] ∨ (unsigned text).all Char.isDigit = false then none
  else if Nat.ofDigitChars 10 (unsigned text) 0 < size then
    some (Nat.ofDigitChars 10 (unsigned text) 0)
  else none

theorem isDigit_toDigits {n : ℕ} {c : Char} (h : c ∈ Nat.toDigits 10 n) : c.isDigit = true :=
  Nat.isDigit_of_mem_toDigits (by decide) (by decide) h

theorem clean_toDigits (n : ℕ) : Clean (Nat.toDigits 10 n) := by
  refine clean_of_forall fun c hc => ⟨?_, ?_⟩
  · rintro rfl
    cases isDigit_toDigits hc
  · rintro rfl
    cases isDigit_toDigits hc

/-- A number that fits is read back from its digits. -/
theorem parseUnsigned_toDigits {size n : ℕ} (h : n < size) :
    parseUnsigned size (Nat.toDigits 10 n) = some n := by
  have hunsigned : unsigned (Nat.toDigits 10 n) = Nat.toDigits 10 n := by
    refine if_neg fun hplus => ?_
    cases isDigit_toDigits (List.mem_of_head? hplus)
  have hdigits : ¬(Nat.toDigits 10 n = [] ∨ (Nat.toDigits 10 n).all Char.isDigit = false) := by
    rw [not_or, Bool.not_eq_false, List.all_eq_true]
    exact ⟨Nat.toDigits_ne_nil, fun c => isDigit_toDigits⟩
  rw [parseUnsigned, hunsigned, if_neg hdigits, Nat.ofDigitChars_ten_toDigits, if_pos h]

end TextLines
