import Mathlib.Algebra.BigOperators.Group.List.Basic
import Mathlib.Algebra.GroupWithZero.Nat
import Std.Data.ExtTreeMap

/-! Ordered maps: keys compared through an injection, sums over the values as one key is written
or removed, and two maps that index the same pairs from both ends. -/
namespace OrderedMap
open Std

attribute [instance] lexOrd

variable {α β : Type*}

/-- A derived order on a record is the order of the tuple of its fields. -/
theorem lawfulEq_compareOn [Ord β] [LawfulEqOrd β] {f : α → β} (hf : Function.Injective f) :
    LawfulEqCmp (compareOn f) where
  compare_self := ReflOrd.compare_self (α := β)
  eq_of_compare h := hf (LawfulEqOrd.eq_of_compare h)

variable {cmp : α → α → Ordering} [TransCmp cmp]

/-- The values in key order. -/
def values (t : ExtTreeMap α β cmp) : List β := t.toList.map Prod.snd

def sumBy (f : β → ℕ) (t : ExtTreeMap α β cmp) : ℕ := ((values t).map f).sum

@[simp] theorem sumBy_empty (f : β → ℕ) : sumBy f (∅ : ExtTreeMap α β cmp) = 0 := by
  have h : (∅ : ExtTreeMap α β cmp).toList = [] := ExtTreeMap.toList_eq_nil_iff.mpr rfl
  simp [sumBy, values, h]

variable [LawfulEqCmp cmp]

theorem mem_values (t : ExtTreeMap α β cmp) (v : β) : v ∈ values t ↔ ∃ k : α, t[k]? = some v := by
  simp only [values, List.mem_map, Prod.exists, exists_eq_right,
    ExtTreeMap.mem_toList_iff_getElem?_eq_some]

/-- A map collected from pairs holds nothing else. -/
theorem mem_of_getElem?_ofList {l : List (α × β)} {k : α} {v : β}
    (h : (ExtTreeMap.ofList l cmp)[k]? = some v) : (k, v) ∈ l := by
  -- Pairs are inserted one after another on top of those collected before.
  have hfold (l : List (α × β)) (t : ExtTreeMap α β cmp)
      (h : (l.foldl (fun acc p => acc.insert p.1 p.2) t)[k]? = some v) :
      (k, v) ∈ l ∨ t[k]? = some v := by
    induction l generalizing t with
    | nil => exact .inr h
    | cons p rest ih =>
      rcases ih (t.insert p.1 p.2) h with hmem | hinsert
      · exact .inl (List.mem_cons_of_mem _ hmem)
      · rw [ExtTreeMap.getElem?_insert] at hinsert
        split at hinsert
        · next hk =>
          obtain rfl := Option.some.inj hinsert
          obtain rfl := LawfulEqCmp.eq_of_compare hk
          exact .inl List.mem_cons_self
        · exact .inr hinsert
  rw [ExtTreeMap.ofList_eq_foldl] at h
  rcases hfold l ∅ h with hmem | hnone
  · exact hmem
  · simp at hnone

theorem ofList_toList (t : ExtTreeMap α β cmp) :
    ExtTreeMap.ofList t.toList cmp = t := by
  apply ExtTreeMap.ext_getElem?
  intro k
  cases h : t[k]? with
  | some v =>
    exact ExtTreeMap.getElem?_ofList_of_mem ReflCmp.compare_self
      ExtTreeMap.distinct_keys_toList (ExtTreeMap.mem_toList_iff_getElem?_eq_some.mpr h)
  | none =>
    rw [Option.eq_none_iff_forall_ne_some]
    intro v hv
    have hmem := ExtTreeMap.mem_toList_iff_getElem?_eq_some.mp (mem_of_getElem?_ofList hv)
    rw [h] at hmem
    cases hmem

/-- A set lists its elements as a map with these keys does. -/
theorem toList_eq_keys (keys : ExtTreeSet α cmp) (t : ExtTreeMap α β cmp)
    (h : ∀ k, k ∈ keys ↔ k ∈ t) : keys.toList = t.keys := by
  have hset : keys.toList.Pairwise fun a b => cmp a b = .lt := ExtTreeSet.ordered_toList
  have hmap : t.keys.Pairwise fun a b => cmp a b = .lt := ExtTreeMap.ordered_keys
  have hne {a b : α} (hlt : cmp a b = .lt) : a ≠ b := by
    rintro rfl
    have hself : cmp a a = .eq := ReflCmp.compare_self
    rw [hself] at hlt
    cases hlt
  refine List.Perm.eq_of_pairwise (fun a b _ _ hab hba => ?_) hset hmap ?_
  · have hswap : cmp b a = (cmp a b).swap := OrientedCmp.eq_swap
    rw [hswap, hab] at hba
    cases hba
  · refine (List.perm_ext_iff_of_nodup (hset.imp hne) (hmap.imp hne)).mpr fun k => ?_
    rw [ExtTreeSet.mem_toList, ExtTreeMap.mem_keys, h]

theorem filterMap_keys (t : ExtTreeMap α β cmp) :
    t.keys.filterMap (fun k => t[k]?) = values t := by
  rw [← ExtTreeMap.map_fst_toList_eq_keys, List.filterMap_map, values]
  rw [← List.filterMap_eq_map]
  exact List.filterMap_congr fun entry hentry =>
    ExtTreeMap.mem_toList_iff_getElem?_eq_some.mp hentry

theorem nodup_toList (t : ExtTreeMap α β cmp) : t.toList.Nodup := by
  refine (ExtTreeMap.distinct_keys_toList (t := t)).imp ?_
  intro p q h he
  exact h (by rw [he]; exact ReflCmp.compare_self)

theorem toList_perm_of_getElem? (t : ExtTreeMap α β cmp) {k : α} {v : β} (h : t[k]? = some v) :
    t.toList.Perm ((k, v) :: (t.erase k).toList) := by
  have hk : (k, v) ∉ (t.erase k).toList := by
    simp [ExtTreeMap.mem_toList_iff_getElem?_eq_some]
  refine (List.perm_ext_iff_of_nodup (nodup_toList t)
    (List.nodup_cons.mpr ⟨hk, nodup_toList _⟩)).mpr ?_
  rintro ⟨a, b⟩
  simp only [List.mem_cons, ExtTreeMap.mem_toList_iff_getElem?_eq_some,
    ExtTreeMap.getElem?_erase, Prod.mk.injEq]
  by_cases hc : cmp k a = .eq
  · obtain rfl := LawfulEqCmp.eq_of_compare hc
    simp only [hc, h, Option.some.injEq, true_and, ↓reduceIte, reduceCtorEq, or_false]
    exact eq_comm
  · have hak : a ≠ k := fun he => hc (by rw [he]; exact ReflCmp.compare_self)
    simp only [hc, hak, false_and, false_or, ↓reduceIte]

theorem size_erase_add_one (t : ExtTreeMap α β cmp) {k : α} {v : β} (h : t[k]? = some v) :
    (t.erase k).size+1 = t.size := by
  simpa only [ExtTreeMap.length_toList, List.length_cons] using
    (toList_perm_of_getElem? t h).length_eq.symm

theorem lookup_insert [DecidableEq α] (t : ExtTreeMap α β cmp) (k a : α) (v : β) :
    (t.insert k v)[a]? = if k = a then some v else t[a]? := by
  rw [ExtTreeMap.getElem?_insert]
  by_cases h : k = a
  · rw [if_pos h, if_pos (h ▸ ReflCmp.compare_self)]
  · rw [if_neg h, if_neg (mt LawfulEqCmp.eq_of_compare h)]

theorem lookup_erase [DecidableEq α] (t : ExtTreeMap α β cmp) (k a : α) :
    (t.erase k)[a]? = if k = a then none else t[a]? := by
  rw [ExtTreeMap.getElem?_erase]
  by_cases h : k = a
  · rw [if_pos h, if_pos (h ▸ ReflCmp.compare_self)]
  · rw [if_neg h, if_neg (mt LawfulEqCmp.eq_of_compare h)]

omit [LawfulEqCmp cmp] in
theorem size_insert_new (t : ExtTreeMap α β cmp) {k : α} (v : β) (h : t[k]? = none) :
    (t.insert k v).size = t.size+1 := by
  have hk : ¬ t.contains k = true := by
    rw [ExtTreeMap.contains_iff_mem, ExtTreeMap.mem_iff_isSome_getElem?, h]
    simp
  rw [ExtTreeMap.size_insert]
  exact if_neg hk

omit [LawfulEqCmp cmp] in
theorem size_insert_live (t : ExtTreeMap α β cmp) {k : α} {v : β} (w : β) (h : t[k]? = some v) :
    (t.insert k w).size = t.size := by
  have hk : t.contains k = true := by
    rw [ExtTreeMap.contains_iff_mem, ExtTreeMap.mem_iff_isSome_getElem?, h]
    rfl
  rw [ExtTreeMap.size_insert]
  exact if_pos hk

theorem sumBy_erase (f : β → ℕ) (t : ExtTreeMap α β cmp) {k : α} {v : β} (h : t[k]? = some v) :
    f v + sumBy f (t.erase k) = sumBy f t := by
  have hp := ((toList_perm_of_getElem? t h).map Prod.snd).map f
  simpa only [sumBy, values, List.map_cons, List.sum_cons] using hp.sum_eq.symm

theorem sumBy_insert (f : β → ℕ) (t : ExtTreeMap α β cmp) (k : α) (v : β) :
    sumBy f (t.insert k v) = f v + sumBy f (t.erase k) := by
  have he : (t.insert k v).erase k = t.erase k := by
    apply ExtTreeMap.ext_getElem?
    intro a
    simp only [ExtTreeMap.getElem?_erase, ExtTreeMap.getElem?_insert]
    split <;> rfl
  have hs := sumBy_erase f (t.insert k v) (k := k) (v := v) (by simp)
  rw [he] at hs
  exact hs.symm

theorem sumBy_insert_new (f : β → ℕ) (t : ExtTreeMap α β cmp) {k : α} (v : β) (h : t[k]? = none) :
    sumBy f (t.insert k v) = f v + sumBy f t := by
  have he : t.erase k = t := by
    apply ExtTreeMap.ext_getElem?
    intro a
    rw [ExtTreeMap.getElem?_erase]
    split
    · next hk => rw [← LawfulEqCmp.eq_of_compare hk, h]
    · rfl
  rw [sumBy_insert, he]

/-- Overwriting the value at a live key moves the sum by the difference of the two values. -/
theorem sumBy_update (f : β → ℕ) (t : ExtTreeMap α β cmp) {k : α} {v : β} (w : β)
    (h : t[k]? = some v) : sumBy f (t.insert k w) + f v = sumBy f t + f w := by
  have h1 := sumBy_insert f t k w
  have h2 := sumBy_erase f t h
  omega

/-- Writing a key moves the sum from what was there, if anything, to the new value. -/
theorem sumBy_write (f : β → ℕ) (t : ExtTreeMap α β cmp) (k : α) (v : β) :
    sumBy f (t.insert k v)+(t[k]?.map f).getD 0 = sumBy f t+f v := by
  cases h : t[k]? with
  | none =>
    rw [sumBy_insert_new f t v h, Option.map_none, Option.getD_none, Nat.add_zero, Nat.add_comm]
  | some w => exact sumBy_update f t v h

theorem le_sumBy (f : β → ℕ) (t : ExtTreeMap α β cmp) {k : α} {v : β} (h : t[k]? = some v) :
    f v ≤ sumBy f t := by
  have := sumBy_erase f t h
  omega

theorem sumBy_eq_zero_iff (f : β → ℕ) (t : ExtTreeMap α β cmp) :
    sumBy f t = 0 ↔ ∀ (k : α) (v : β), t[k]? = some v → f v = 0 := by
  constructor
  · intro h k v hv
    have := le_sumBy f t hv
    omega
  · intro h
    apply List.sum_eq_zero
    intro n hn
    obtain ⟨v, hv, rfl⟩ := List.mem_map.mp hn
    obtain ⟨k, hk⟩ := (mem_values t v).mp hv
    exact h k v hk

section Mirror
variable {κ γ : Type*} {cmp' : κ → κ → Ordering} [TransCmp cmp'] [LawfulEqCmp cmp']
variable {key : β → κ} {entry : α → β → γ} {f : ExtTreeMap α β cmp} {g : ExtTreeMap κ γ cmp'}

/-- `g` lists the pairs of `f` from their other end: `f` sends `a` to `b` when `g` sends the key
of `b` to the entry made of the two. -/
def Mirror (key : β → κ) (entry : α → β → γ) (f : ExtTreeMap α β cmp) (g : ExtTreeMap κ γ cmp') :
    Prop :=
  ∀ (a : α) (b : β), f[a]? = some b ↔ g[key b]? = some (entry a b)

/-- Key and entry determine the pair they come from. -/
def Separates (key : β → κ) (entry : α → β → γ) : Prop :=
  ∀ {a a' b b'}, key b = key b' → entry a b = entry a' b' → a = a' ∧ b = b'

theorem Mirror.insert (h : Mirror key entry f g) (hsep : Separates key entry) {a : α} {b : β}
    (ha : f[a]? = none) (hb : g[key b]? = none) :
    Mirror key entry (f.insert a b) (g.insert (key b) (entry a b)) := by
  intro a' b'
  rw [ExtTreeMap.getElem?_insert, ExtTreeMap.getElem?_insert]
  by_cases haa : a = a' <;> by_cases hbb : key b = key b'
  · subst haa
    rw [if_pos ReflCmp.compare_self, if_pos (by rw [hbb]; exact ReflCmp.compare_self),
      Option.some.injEq, Option.some.injEq]
    exact ⟨fun heq => heq ▸ rfl, fun heq => (hsep hbb heq).2⟩
  · subst haa
    rw [if_pos ReflCmp.compare_self, if_neg (mt LawfulEqCmp.eq_of_compare hbb), ← h a b', ha]
    exact ⟨fun heq => absurd (congrArg key (Option.some.inj heq)) hbb, nofun⟩
  · rw [if_neg (mt LawfulEqCmp.eq_of_compare haa),
      if_pos (by rw [hbb]; exact ReflCmp.compare_self), h a' b', ← hbb, hb]
    exact ⟨nofun, fun heq => absurd (hsep hbb (Option.some.inj heq)).1 haa⟩
  · rw [if_neg (mt LawfulEqCmp.eq_of_compare haa), if_neg (mt LawfulEqCmp.eq_of_compare hbb)]
    exact h a' b'

theorem Mirror.erase (h : Mirror key entry f g) (hsep : Separates key entry) {a : α} {b : β}
    (ha : f[a]? = some b) : Mirror key entry (f.erase a) (g.erase (key b)) := by
  have hb := (h a b).mp ha
  intro a' b'
  rw [ExtTreeMap.getElem?_erase, ExtTreeMap.getElem?_erase]
  by_cases haa : a = a' <;> by_cases hbb : key b = key b'
  · subst haa
    rw [if_pos ReflCmp.compare_self, if_pos (by rw [hbb]; exact ReflCmp.compare_self)]
    exact ⟨nofun, nofun⟩
  · subst haa
    rw [if_pos ReflCmp.compare_self, if_neg (mt LawfulEqCmp.eq_of_compare hbb), ← h a b', ha]
    exact ⟨nofun, fun heq => absurd (congrArg key (Option.some.inj heq)) hbb⟩
  · rw [if_neg (mt LawfulEqCmp.eq_of_compare haa),
      if_pos (by rw [hbb]; exact ReflCmp.compare_self), h a' b', ← hbb, hb]
    exact ⟨fun heq => absurd (hsep hbb (Option.some.inj heq)).1 haa, nofun⟩
  · rw [if_neg (mt LawfulEqCmp.eq_of_compare haa), if_neg (mt LawfulEqCmp.eq_of_compare hbb)]
    exact h a' b'

end Mirror

end OrderedMap
