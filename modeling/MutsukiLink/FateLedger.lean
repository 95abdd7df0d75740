import Mathlib.Data.List.Basic

/-! The account of a collection that elements leave at any place and in several at a time. The
account keeps every element for ever, with its fate once it has left. -/
namespace FateLedger

variable {α φ : Type*}

/-- The elements that have met a fate, in the order in which they came. -/
def fated [DecidableEq φ] (account : List (α × Option φ)) (fate : φ) : List α :=
  (account.filter fun e => e.2 = some fate).map Prod.fst

/-- The elements that have met none yet. -/
def waiting (account : List (α × Option φ)) : List α :=
  (account.filter fun e => e.2.isNone).map Prod.fst

/-- Those that wait meet the fate that is meant for them, if there is one. -/
def settle (account : List (α × Option φ)) (meant : α → Option φ) : List (α × Option φ) :=
  account.map fun e => (e.1, e.2 <|> meant e.1)

def accept (account : List (α × Option φ)) (a : α) : List (α × Option φ) := account ++ [(a, none)]

variable (account : List (α × Option φ)) (meant : α → Option φ) (fate : φ) (a : α)

theorem waiting_accept : waiting (accept account a) = waiting account ++ [a] := by
  simp [waiting, accept, List.filter_append]

theorem fated_accept [DecidableEq φ] : fated (accept account a) fate = fated account fate := by
  simp [fated, accept, List.filter_append]

theorem map_fst_settle : (settle account meant).map Prod.fst = account.map Prod.fst := by
  simp [settle, Function.comp_def]

theorem waiting_settle :
    waiting (settle account meant) = (waiting account).filter fun a => (meant a).isNone := by
  induction account with
  | nil => rfl
  | cons e account ih =>
    unfold waiting settle at ih ⊢
    rw [List.map_cons, List.filter_cons, List.filter_cons]
    cases he : e.2 with
    | some met => simpa [he] using ih
    | none =>
      cases hm : meant e.1 with
      | some met => simpa [hm] using ih
      | none => simpa [hm] using ih

/-- Whoever met the fate before has met it still. -/
theorem fated_settle_of_ne [DecidableEq φ] (hother : ∀ a, meant a ≠ some fate) :
    fated (settle account meant) fate = fated account fate := by
  induction account with
  | nil => rfl
  | cons e account ih =>
    unfold fated settle at ih ⊢
    rw [List.map_cons, List.filter_cons, List.filter_cons]
    -- A fate that is met is not changed by a later one.
    cases he : e.2 with
    | some met =>
      by_cases hmet : met = fate
      · simpa [hmet] using ih
      · simpa [hmet] using ih
    | none => simpa [hother e.1] using ih

/-- A fate that nobody has met is met by those it is meant for. -/
theorem fated_settle_of_new [DecidableEq φ] (hnew : ∀ e ∈ account, e.2 ≠ some fate) :
    fated (settle account meant) fate =
      (waiting account).filter fun a => meant a = some fate := by
  induction account with
  | nil => rfl
  | cons e account ih =>
    have hrest := ih fun x hx => hnew x (List.mem_cons_of_mem _ hx)
    have hhead := hnew e List.mem_cons_self
    unfold fated waiting settle at hrest ⊢
    rw [List.map_cons, List.filter_cons, List.filter_cons]
    cases he : e.2 with
    | some met =>
      rw [he] at hhead
      simpa [hhead] using hrest
    | none =>
      by_cases hm : meant e.1 = some fate
      · simpa [hm] using hrest
      · simpa [hm] using hrest

theorem mem_waiting {account : List (α × Option φ)} {a : α} :
    a ∈ waiting account ↔ (a, none) ∈ account := by
  simp [waiting]

/-- A fate of the settled account was met before or is one that was meant. -/
theorem mem_settle {account : List (α × Option φ)} {meant : α → Option φ} {a : α} {fate : φ}
    (h : (a, some fate) ∈ settle account meant) :
    (a, some fate) ∈ account ∨ (a ∈ waiting account ∧ meant a = some fate) := by
  obtain ⟨⟨b, met⟩, hb, heq⟩ := List.mem_map.mp h
  obtain ⟨rfl, hfate⟩ := Prod.mk.inj heq
  cases met with
  | some met =>
    obtain rfl := Option.some.inj hfate
    exact Or.inl hb
  | none => exact Or.inr ⟨mem_waiting.mpr hb, hfate⟩

end FateLedger
