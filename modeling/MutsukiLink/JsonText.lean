import Mathlib.Algebra.GroupWithZero.Nat
import Mathlib.Data.List.Basic
import Mathlib.Data.Nat.Notation
import Mathlib.Logic.Function.Basic

/-! Texts of JSON values as a serializer lays them out. Each format is a printer with a reader that
takes back what was printed and leaves the text behind it. -/
namespace JsonText

/-- All on one line, or one item on a line with two blanks for each level. -/
inductive Layout where
  | compact
  | pretty (level : ℕ)

namespace Layout

def deeper : Layout → Layout
  | compact => compact
  | pretty level => pretty (level+1)

/-- What stands before each item and before the closing bracket. -/
def newline : Layout → List Char
  | compact => []
  | pretty level => '\n' :: List.replicate (2*level) ' '

def colon : Layout → List Char
  | compact => [':']
  | pretty _ => [':', ' ']

end Layout

/-- The text does not go on with a digit, so that a number before it is complete. -/
def Ends (rest : List Char) : Prop := ∀ c ∈ rest.head?, c.isDigit = false

theorem Ends.cons {c : Char} (h : c.isDigit = false) (rest : List Char) : Ends (c :: rest) := by
  intro d hd
  cases hd
  exact h

theorem Ends.newline (layout : Layout) {c : Char} (h : c.isDigit = false) (rest : List Char) :
    Ends (layout.newline ++ c :: rest) := by
  cases layout with
  | compact => exact .cons h rest
  | pretty level => exact .cons rfl _

/-- Takes a fixed text off the front. -/
def expect : List Char → List Char → Option (List Char)
  | [], input => some input
  | _ :: _, [] => none
  | c :: cs, d :: input => if c = d then expect cs input else none

theorem expect_append (text rest : List Char) : expect text (text ++ rest) = some rest := by
  induction text with
  | nil => rfl
  | cons c cs ih => rw [List.cons_append, expect, if_pos rfl, ih]

theorem expect_append_left (common text input : List Char) :
    expect (common ++ text) (common ++ input) = expect text input := by
  induction common with
  | nil => rfl
  | cons c cs ih => rw [List.cons_append, List.cons_append, expect, if_pos rfl, ih]

structure Format (α : Type*) where
  print : Layout → α → List Char
  read : Layout → List Char → Option (α × List Char)
  read_print : ∀ layout a rest, Ends rest → read layout (print layout a ++ rest) = some (a, rest)
  /-- An array tells an item from its closing bracket by the first character. -/
  opens : ∀ layout a, ∃ c cs, print layout a = c :: cs ∧ c ≠ ']'

namespace Format
variable {α β : Type*}

/-- A format of the values that stand for those of another type. -/
def via (f : Format β) (encode : α → β) (decode : β → Option α)
    (h : ∀ a, decode (encode a) = some a) : Format α where
  print layout a := f.print layout (encode a)
  read layout input :=
    (f.read layout input).bind fun (b, rest) => (decode b).map fun a => (a, rest)
  read_print layout a rest hrest := by
    simp only [f.read_print layout (encode a) rest hrest, Option.bind_some, h, Option.map_some]
  opens layout a := f.opens layout (encode a)

theorem takeWhile_digits {digits rest : List Char} (hdigits : ∀ c ∈ digits, c.isDigit)
    (hrest : Ends rest) : (digits ++ rest).takeWhile Char.isDigit = digits ∧
      (digits ++ rest).dropWhile Char.isDigit = rest := by
  have hstop : rest.takeWhile Char.isDigit = [] ∧ rest.dropWhile Char.isDigit = rest := by
    cases rest with
    | nil => exact ⟨rfl, rfl⟩
    | cons c rest =>
      have hc : c.isDigit = false := hrest c rfl
      simp [hc]
  rw [List.takeWhile_append_of_pos hdigits, List.dropWhile_append_of_pos hdigits, hstop.1, hstop.2,
    List.append_nil]
  exact ⟨rfl, rfl⟩

/-- A natural number in decimal digits. -/
def number : Format ℕ where
  print _ n := Nat.toDigits 10 n
  read _ input :=
    if input.takeWhile Char.isDigit = [] then none
    else some (Nat.ofDigitChars 10 (input.takeWhile Char.isDigit) 0, input.dropWhile Char.isDigit)
  read_print layout n rest hrest := by
    have hdigits : ∀ c ∈ Nat.toDigits 10 n, c.isDigit := fun c hc =>
      Nat.isDigit_of_mem_toDigits (by decide) (by decide) hc
    obtain ⟨htake, hdrop⟩ := takeWhile_digits hdigits hrest
    rw [htake, hdrop, if_neg Nat.toDigits_ne_nil, Nat.ofDigitChars_ten_toDigits]
  opens layout n := by
    obtain ⟨c, cs, heq⟩ := List.exists_cons_of_ne_nil (Nat.toDigits_ne_nil (n := n) (b := 10))
    refine ⟨c, cs, heq, ?_⟩
    rintro rfl
    have hdigit : Char.isDigit ']' := Nat.isDigit_of_mem_toDigits (b := 10) (n := n) (by decide)
      (by decide) (heq ▸ List.mem_cons_self)
    exact absurd hdigit (by decide)

end Format

/-- The letter after the backslash, for the characters that have one. -/
def shortEscape (c : Char) : Option Char :=
  if c = '"' then some '"' else if c = '\\' then some '\\'
  else if c = '\x08' then some 'b' else if c = '\t' then some 't'
  else if c = '\n' then some 'n' else if c = '\x0c' then some 'f'
  else if c = '\r' then some 'r' else none

def unescape (e : Char) : Option Char :=
  if e = '"' then some '"' else if e = '\\' then some '\\'
  else if e = 'b' then some '\x08' else if e = 't' then some '\t'
  else if e = 'n' then some '\n' else if e = 'f' then some '\x0c'
  else if e = 'r' then some '\r' else none

def escape (c : Char) : List Char :=
  match shortEscape c with
  | some e => ['\\', e]
  | none =>
    if c.toNat < 32 then ['\\', 'u', '0', '0', (c.toNat/16).digitChar, (c.toNat%16).digitChar]
    else [c]

def hexValue (c : Char) : ℕ := if c.isDigit then c.toNat-48 else c.toNat-87

/-- The characters up to the closing quote. -/
def readChars : List Char → Option (List Char × List Char)
  | [] => none
  | '"' :: rest => some ([], rest)
  | '\\' :: 'u' :: a :: b :: c :: d :: rest =>
    (readChars rest).map fun (cs, rest) =>
      (Char.ofNat (hexValue a*4096+hexValue b*256+hexValue c*16+hexValue d) :: cs, rest)
  | '\\' :: e :: rest =>
    (unescape e).bind fun c => (readChars rest).map fun (cs, rest) => (c :: cs, rest)
  | c :: rest => (readChars rest).map fun (cs, rest) => (c :: cs, rest)

theorem hexValue_digitChar : ∀ n < 16, hexValue n.digitChar = n := by decide

theorem readChars_escape (c : Char) (rest : List Char) :
    readChars (escape c ++ rest) = (readChars rest).map fun (cs, rest) => (c :: cs, rest) := by
  unfold escape
  cases hshort : shortEscape c with
  | some e =>
    -- One of the seven letters; each is turned back into its character.
    have hback : unescape e = some c ∧ e ≠ 'u' := by
      unfold shortEscape at hshort
      split_ifs at hshort <;> cases hshort <;> subst_vars <;> exact ⟨by decide, by decide⟩
    simp only [List.cons_append, List.nil_append]
    rw [readChars.eq_def]
    simp [hback]
  | none =>
    simp only
    split
    · next hlt =>
      have hchar : Char.ofNat (c.toNat/16*16+c.toNat%16) = c := by
        rw [Nat.div_add_mod', Char.ofNat_toNat]
      simp only [List.cons_append, List.nil_append]
      rw [readChars, hexValue_digitChar _ (by omega), hexValue_digitChar _ (by omega)]
      simp [hexValue, hchar]
    · have hne : c ≠ '"' ∧ c ≠ '\\' := by
        constructor <;> rintro rfl <;> exact absurd hshort (by decide)
      simp only [List.cons_append, List.nil_append]
      rw [readChars]
      · exact fun h => absurd h hne.1
      · exact fun _ _ _ _ _ h => absurd h hne.2
      · exact fun _ _ h => absurd h hne.2

theorem readChars_escaped (cs rest : List Char) :
    readChars (cs.flatMap escape ++ '"' :: rest) = some (cs, rest) := by
  induction cs with
  | nil => rfl
  | cons c cs ih =>
    rw [List.flatMap_cons, List.append_assoc, readChars_escape, ih]
    rfl

namespace Format
variable {α β : Type*}

/-- A string in quotes. -/
def text : Format String where
  print _ s := '"' :: (s.toList.flatMap escape ++ ['"'])
  read _ input :=
    (expect ['"'] input).bind fun rest =>
      (readChars rest).map fun (cs, rest) => (String.ofList cs, rest)
  read_print layout s rest _ := by
    rw [List.cons_append, List.append_assoc, expect, if_pos rfl, expect, Option.bind_some,
      List.singleton_append, readChars_escaped]
    simp
  opens layout s := ⟨'"', _, rfl, by decide⟩

/-- One member of an object, on a line of its own. -/
def member (name : String) (f : Format α) : Format α where
  print layout a :=
    layout.newline ++ (text.print layout name ++ layout.colon) ++ f.print layout a
  read layout input :=
    (expect (layout.newline ++ (text.print layout name ++ layout.colon)) input).bind
      (f.read layout)
  read_print layout a rest hrest := by
    rw [List.append_assoc, expect_append, Option.bind_some, f.read_print layout a rest hrest]
  opens layout a := by
    cases layout with
    | compact => exact ⟨'"', _, rfl, by decide⟩
    | pretty level => exact ⟨'\n', _, rfl, by decide⟩

/-- Two members, or two groups of members, of one object. -/
def both (f : Format α) (g : Format β) : Format (α × β) where
  print layout p := f.print layout p.1 ++ ',' :: g.print layout p.2
  read layout input :=
    (f.read layout input).bind fun (a, rest) =>
      (expect [','] rest).bind fun rest =>
        (g.read layout rest).map fun (b, rest) => ((a, b), rest)
  read_print layout p rest hrest := by
    have hcomma : Ends (',' :: (g.print layout p.2 ++ rest)) := .cons rfl _
    have hexpect : expect [','] (',' :: (g.print layout p.2 ++ rest)) =
        some (g.print layout p.2 ++ rest) := expect_append [','] _
    simp only [List.append_assoc, List.cons_append, f.read_print _ _ _ hcomma, Option.bind_some,
      hexpect, g.read_print _ _ _ hrest, Option.map_some]
  opens layout p := by
    obtain ⟨c, cs, heq, hc⟩ := f.opens layout p.1
    exact ⟨c, _, by rw [heq, List.cons_append], hc⟩

/-- The members of an object, in braces. -/
def object (f : Format α) : Format α where
  print layout a := '{' :: (f.print layout.deeper a ++ (layout.newline ++ ['}']))
  read layout input :=
    (expect ['{'] input).bind fun rest =>
      (f.read layout.deeper rest).bind fun (a, rest) =>
        (expect (layout.newline ++ ['}']) rest).map fun rest => (a, rest)
  read_print layout a rest _ := by
    have hclose : Ends (layout.newline ++ ['}'] ++ rest) := by
      rw [List.append_assoc]
      exact .newline layout rfl _
    rw [List.cons_append, expect, if_pos rfl, expect, Option.bind_some, List.append_assoc]
    simp only [f.read_print _ _ _ hclose, Option.bind_some, expect_append, Option.map_some]
  opens layout a := ⟨'{', _, rfl, by decide⟩

/-- A value of one of two kinds that the first reader tells apart. -/
def either (f : Format α) (g : Format β)
    (h : ∀ layout b rest, f.read layout (g.print layout b ++ rest) = none) : Format (α ⊕ β) where
  print layout
    | .inl a => f.print layout a
    | .inr b => g.print layout b
  read layout input :=
    match f.read layout input with
    | some (a, rest) => some (.inl a, rest)
    | none => (g.read layout input).map fun (b, rest) => (.inr b, rest)
  read_print layout v rest hrest := by
    cases v with
    | inl a => simp only [f.read_print layout a rest hrest]
    | inr b =>
      simp only [h, g.read_print layout b rest hrest]
      rfl
  opens layout v := by
    cases v with
    | inl a => exact f.opens layout a
    | inr b => exact g.opens layout b

/-- The items of an array that has some, each on a line of its own. -/
def printItems (f : Format α) (layout : Layout) : List α → List Char
  | [] => []
  | [a] => layout.newline ++ f.print layout a
  | a :: b :: rest =>
    layout.newline ++ f.print layout a ++ ',' :: f.printItems layout (b :: rest)

def readItems (f : Format α) (layout : Layout) : ℕ → List Char → Option (List α × List Char)
  | 0, _ => none
  | fuel+1, input =>
    (expect layout.newline input).bind fun rest =>
      (f.read layout rest).bind fun (a, rest) =>
        match expect [','] rest with
        | some rest => (f.readItems layout fuel rest).map fun (as, rest) => (a :: as, rest)
        | none => some ([a], rest)

/-- Every item takes its line and at least one character. -/
theorem length_printItems (f : Format α) (layout : Layout) (items : List α) :
    (items.map fun a => layout.newline.length+(f.print layout a).length).sum ≤
      (f.printItems layout items).length := by
  induction items with
  | nil => exact Nat.le_refl _
  | cons a rest ih =>
    cases rest with
    | nil => simp [printItems]
    | cons b rest =>
      rw [printItems, List.length_append, List.length_append, List.length_cons, List.map_cons,
        List.sum_cons]
      omega

theorem length_le_printItems (f : Format α) (layout : Layout) (items : List α) :
    items.length ≤ (f.printItems layout items).length := by
  refine Nat.le_trans ?_ (f.length_printItems layout items)
  induction items with
  | nil => exact Nat.le_refl _
  | cons a rest ih =>
    obtain ⟨c, cs, heq, -⟩ := f.opens layout a
    rw [List.map_cons, List.sum_cons, heq, List.length_cons, List.length_cons]
    omega

theorem opens_printItems (f : Format α) (layout : Layout) (a : α) (items : List α) :
    ∃ c cs, f.printItems layout (a :: items) = c :: cs ∧ c ≠ ']' := by
  have hline : ∃ c cs, layout.newline ++ f.print layout a = c :: cs ∧ c ≠ ']' := by
    cases layout with
    | compact => exact f.opens .compact a
    | pretty level => exact ⟨'\n', _, rfl, by decide⟩
  obtain ⟨c, cs, heq, hc⟩ := hline
  cases items with
  | nil => exact ⟨c, cs, heq, hc⟩
  | cons b items => exact ⟨c, _, by rw [printItems, heq, List.cons_append], hc⟩

/-- Text that does not go on with a comma closes the list of items. -/
theorem readItems_printItems (f : Format α) (layout : Layout) {rest : List Char}
    (hrest : Ends rest) (hclose : expect [','] rest = none) (a : α) (items : List α) (fuel : ℕ)
    (hfuel : items.length < fuel) :
    f.readItems layout fuel (f.printItems layout (a :: items) ++ rest) =
      some (a :: items, rest) := by
  induction items generalizing a fuel with
  | nil =>
    obtain ⟨fuel, rfl⟩ := Nat.exists_eq_succ_of_ne_zero (Nat.ne_of_gt hfuel)
    simp only [printItems, readItems, List.append_assoc, expect_append, Option.bind_some,
      f.read_print layout a rest hrest, hclose]
  | cons b items ih =>
    obtain ⟨fuel, rfl⟩ := Nat.exists_eq_succ_of_ne_zero (Nat.ne_zero_of_lt hfuel)
    have hcomma : Ends (',' :: (f.printItems layout (b :: items) ++ rest)) := .cons rfl _
    have hexpect : expect [','] (',' :: (f.printItems layout (b :: items) ++ rest)) =
        some (f.printItems layout (b :: items) ++ rest) := expect_append [','] _
    simp only [printItems, readItems, List.append_assoc, List.cons_append, expect_append,
      Option.bind_some, f.read_print layout a _ hcomma, hexpect,
      ih b fuel (Nat.lt_of_succ_lt_succ hfuel), Option.map_some]

/-- A list in square brackets; the empty list has no line of its own. -/
def array (f : Format α) : Format (List α) where
  print layout
    | [] => ['[', ']']
    | a :: items => '[' :: (f.printItems layout.deeper (a :: items) ++ (layout.newline ++ [']']))
  read layout input :=
    (expect ['['] input).bind fun rest =>
      match expect [']'] rest with
      | some rest => some ([], rest)
      | none =>
        (f.readItems layout.deeper rest.length rest).bind fun (items, rest) =>
          (expect (layout.newline ++ [']']) rest).map fun rest => (items, rest)
  read_print layout items rest _ := by
    cases items with
    | nil => rfl
    | cons a items =>
      have hclose : Ends (layout.newline ++ [']'] ++ rest) := by
        rw [List.append_assoc]
        exact .newline layout rfl _
      have hcomma : expect [','] (layout.newline ++ [']'] ++ rest) = none := by
        cases layout <;> rfl
      -- The first item does not look like the closing bracket.
      have hopen : expect [']'] (f.printItems layout.deeper (a :: items) ++
          (layout.newline ++ [']'] ++ rest)) = none := by
        obtain ⟨c, cs, heq, hc⟩ := f.opens_printItems layout.deeper a items
        rw [heq, List.cons_append, expect, if_neg (Ne.symm hc)]
      have hfuel : items.length < (f.printItems layout.deeper (a :: items) ++
          (layout.newline ++ [']'] ++ rest)).length := by
        have := f.length_le_printItems layout.deeper (a :: items)
        rw [List.length_append]
        rw [List.length_cons] at this
        omega
      rw [List.cons_append, expect, if_pos rfl, expect, Option.bind_some, List.append_assoc, hopen]
      simp only [f.readItems_printItems layout.deeper hclose hcomma a items _ hfuel,
        Option.bind_some, expect_append, Option.map_some]
  opens layout items := by
    cases items with
    | nil => exact ⟨'[', _, rfl, by decide⟩
    | cons a items => exact ⟨'[', _, rfl, by decide⟩

theorem length_print_array (f : Format α) (layout : Layout) (items : List α) :
    (items.map fun a => layout.deeper.newline.length+(f.print layout.deeper a).length).sum ≤
      (f.array.print layout items).length := by
  cases items with
  | nil => exact Nat.zero_le _
  | cons a items =>
    have := f.length_printItems layout.deeper (a :: items)
    simp only [array, List.length_cons, List.length_append]
    omega

theorem length_le_member (name : String) (f : Format α) (layout : Layout) (a : α) :
    (f.print layout a).length ≤ ((f.member name).print layout a).length := by
  simp only [member, List.length_append]
  exact Nat.le_add_left _ _

theorem length_le_both_left (f : Format α) (g : Format β) (layout : Layout) (p : α × β) :
    (f.print layout p.1).length ≤ ((f.both g).print layout p).length := by
  simp only [both, List.length_append]
  exact Nat.le_add_right _ _

theorem length_le_both_right (f : Format α) (g : Format β) (layout : Layout) (p : α × β) :
    (g.print layout p.2).length ≤ ((f.both g).print layout p).length := by
  simp only [both, List.length_append, List.length_cons]
  omega

theorem length_le_object (f : Format α) (layout : Layout) (a : α) :
    (f.print layout.deeper a).length ≤ (f.object.print layout a).length := by
  simp only [object, List.length_append, List.length_cons]
  omega

end Format

end JsonText
