import Mathlib.Data.List.Induction

/-! Values of which only the newest counts. A value may be superseded on its way by one that was
offered after it, so what is delivered or still under way is a part of what was offered, in the same
order, and ends with the newest. -/
namespace LatestLedger

variable {α : Type*} {offered kept before after : List α} {a b : α}

/-- What is left of the offered values. -/
structure Current (offered kept : List α) : Prop where
  sublist : kept.Sublist offered
  newest : kept.getLast? = offered.getLast?

theorem Current.nil : Current ([] : List α) [] := ⟨.slnil, rfl⟩

theorem Current.offer (h : Current offered kept) (a : α) : Current (offered ++ [a]) (kept ++ [a]) :=
  ⟨h.sublist.append_right [a], by rw [List.getLast?_concat, List.getLast?_concat]⟩

/-- The value that is offered takes the place of the newest one. -/
theorem Current.replace (h : Current offered (kept ++ [b])) (a : α) :
    Current (offered ++ [a]) (kept ++ [a]) := by
  refine ⟨?_, by rw [List.getLast?_concat, List.getLast?_concat]⟩
  exact ((List.sublist_append_left kept [b]).trans h.sublist).append_right [a]

/-- A value goes that is followed by a newer one. -/
theorem Current.supersede (h : Current offered (before ++ a :: b :: after)) :
    Current offered (before ++ b :: after) := by
  refine ⟨?_, ?_⟩
  · exact ((List.sublist_cons_self a (b :: after)).append_left before).trans h.sublist
  · rw [← h.newest, List.getLast?_append, List.getLast?_append, List.getLast?_cons_cons]

/-- An order in which the values were offered is that of those that are left. -/
theorem Current.pairwise {r : α → α → Prop} (h : Current offered kept) (hr : offered.Pairwise r) :
    kept.Pairwise r := hr.sublist h.sublist

/-- The front part that has been delivered. -/
theorem Current.delivered (h : Current offered (before ++ after)) : before.Sublist offered :=
  (List.sublist_append_left before after).trans h.sublist

end LatestLedger
