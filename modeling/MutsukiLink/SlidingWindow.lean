import Mathlib.Algebra.Order.BigOperators.Group.List
import Mathlib.Algebra.Order.Ring.Nat
import Mathlib.Data.Finset.Card
import Mathlib.Data.List.TakeWhile
import MutsukiLink.OrderedMap
import MutsukiLink.RunHistory

/-! Admission by a sliding window, for a bounded number of sources: a table of the times of recent
admissions, pruned lazily, decides as if all admissions of the past were known. -/
namespace SlidingWindow
open RunHistory
open Std (ExtTreeMap TransCmp LawfulEqCmp)

/-- How many admissions of one source a window may hold, how many sources, and its length. -/
structure Limits where
  maximum : ℕ
  maxSources : ℕ
  window : ℕ
deriving DecidableEq, Repr

inductive Verdict where
  | admitted | tooManySources | limited
deriving DecidableEq, Repr

variable {κ : Type*}

section Calls
variable {cmp : κ → κ → Ordering}

/-- Sources whose last admission is still in the window. -/
def retainRecent (window now : ℕ) (t : ExtTreeMap κ (List ℕ) cmp) [TransCmp cmp] :
    ExtTreeMap κ (List ℕ) cmp :=
  t.filter fun _ entries => entries.getLast?.any fun entry => decide (now-entry < window)

/-- The entries of a source without those that have left the window at the front. -/
def dropExpired (window now : ℕ) (entries : List ℕ) : List ℕ :=
  entries.dropWhile fun entry => decide (window ≤ now-entry)

/-- One call of a source at some time. -/
def attempt [TransCmp cmp] (l : Limits) (t : ExtTreeMap κ (List ℕ) cmp) (source : κ) (now : ℕ) :
    Verdict × ExtTreeMap κ (List ℕ) cmp :=
  let t := retainRecent l.window now t
  if ¬t.contains source ∧ l.maxSources ≤ t.size then (.tooManySources, t)
  else
    let entries := dropExpired l.window now (t.getD source [])
    if l.maximum ≤ entries.length then (.limited, t.insert source entries)
    else (.admitted, t.insert source (entries ++ [now]))

end Calls

section Purpose
variable [DecidableEq κ]

/-- The times at which a source was admitted, in order. -/
def timesOf (admissions : List (κ × ℕ)) (source : κ) : List ℕ :=
  (admissions.filter fun a => a.1 = source).map Prod.snd

/-- Time `e` lies in the window of this length that ends with `now`. -/
def InWindow (window now e : ℕ) : Prop := e ≤ now ∧ now < e+window

instance (window now e : ℕ) : Decidable (InWindow window now e) :=
  inferInstanceAs (Decidable (_ ∧ _))

/-- The admissions of a source in the window. -/
def recent (window now : ℕ) (admissions : List (κ × ℕ)) (source : κ) : List ℕ :=
  (timesOf admissions source).filter fun e => InWindow window now e

/-- The sources with an admission in the window. -/
def recentSources (window now : ℕ) (admissions : List (κ × ℕ)) : Finset κ :=
  ((admissions.filter fun a => InWindow window now a.2).map Prod.fst).toFinset

/-- What a sliding window is for: a source may be admitted as long as the window holds fewer than
the maximum of its admissions, and a new one as long as there is room for another source. -/
def Admissible (l : Limits) (admissions : List (κ × ℕ)) (source : κ) (now : ℕ) : Prop :=
  (recent l.window now admissions source).length < l.maximum ∧
    (recent l.window now admissions source ≠ [] ∨
      (recentSources l.window now admissions).card < l.maxSources)

theorem mem_timesOf {admissions : List (κ × ℕ)} {source : κ} {e : ℕ} :
    e ∈ timesOf admissions source ↔ (source, e) ∈ admissions := by
  unfold timesOf
  simp only [List.mem_map, List.mem_filter, decide_eq_true_eq]
  constructor
  · rintro ⟨⟨p, f⟩, ⟨hmem, rfl⟩, rfl⟩
    exact hmem
  · intro hmem
    exact ⟨(source, e), ⟨hmem, rfl⟩, rfl⟩

theorem timesOf_concat (admissions : List (κ × ℕ)) (source : κ) (now : ℕ) (p : κ) :
    timesOf (admissions ++ [(source, now)]) p =
      timesOf admissions p ++ if source = p then [now] else [] := by
  unfold timesOf
  rw [List.filter_append, List.map_append]
  by_cases h : source = p
  · simp [h]
  · simp [h]

theorem mem_recentSources {window now : ℕ} {admissions : List (κ × ℕ)} {p : κ} :
    p ∈ recentSources window now admissions ↔ recent window now admissions p ≠ [] := by
  unfold recentSources recent
  rw [List.mem_toFinset, List.mem_map]
  constructor
  · rintro ⟨⟨q, e⟩, hmem, rfl⟩
    obtain ⟨hmem, hwindow⟩ := List.mem_filter.mp hmem
    exact List.ne_nil_of_mem (List.mem_filter.mpr ⟨mem_timesOf.mpr hmem, hwindow⟩)
  · intro hne
    obtain ⟨e, he⟩ := List.exists_mem_of_ne_nil _ hne
    obtain ⟨hmem, hwindow⟩ := List.mem_filter.mp he
    exact ⟨(p, e), List.mem_filter.mpr ⟨mem_timesOf.mp hmem, hwindow⟩, rfl⟩

end Purpose

section Queue
variable {window now clock : ℕ} {accepted entries : List ℕ}

/-- In order of time what has left the window stands in front of what is in it. -/
theorem dropExpired_eq_filter (window now : ℕ) {entries : List ℕ}
    (hsorted : entries.Pairwise (· ≤ ·)) (hpast : ∀ e ∈ entries, e ≤ now) :
    dropExpired window now entries = entries.filter fun e => InWindow window now e := by
  unfold dropExpired
  induction entries with
  | nil => rfl
  | cons e entries ih =>
    obtain ⟨hle, hsorted⟩ := List.pairwise_cons.mp hsorted
    obtain ⟨hnow, hpast⟩ := List.forall_mem_cons.mp hpast
    by_cases hexpired : window ≤ now-e
    · have hout : ¬InWindow window now e := by
        unfold InWindow
        omega
      rw [List.dropWhile_cons_of_pos (by simpa using hexpired),
        List.filter_cons_of_neg (by simpa using hout), ih hsorted hpast]
    · -- The first entry in the window is followed by entries in the window only.
      have hin : ∀ f ∈ e :: entries, InWindow window now f := by
        intro f hf
        rcases List.mem_cons.mp hf with rfl | hf
        · unfold InWindow
          omega
        · have hef := hle f hf
          have hfnow := hpast f hf
          unfold InWindow
          omega
      rw [List.dropWhile_cons_of_neg (by simpa using hexpired)]
      exact (List.filter_eq_self.mpr fun f hf => by simpa using hin f hf).symm

/-- The queue holds the accepted times of the past but for some that have left the window. -/
structure Held (window : ℕ) (accepted : List ℕ) (clock : ℕ) (entries : List ℕ) : Prop where
  sorted : accepted.Pairwise (· ≤ ·)
  past : ∀ e ∈ accepted, e ≤ clock
  split : ∃ old, accepted = old ++ entries ∧ ∀ e ∈ old, e+window ≤ clock

theorem held_nil (window clock : ℕ) : Held window [] clock [] :=
  ⟨List.Pairwise.nil, fun _ he => absurd he List.not_mem_nil,
    [], rfl, fun _ he => absurd he List.not_mem_nil⟩

/-- What has left the window does not come back. -/
theorem Held.later (h : Held window accepted clock entries) (hle : clock ≤ now) :
    Held window accepted now entries := by
  obtain ⟨old, hsplit, hold⟩ := h.split
  exact ⟨h.sorted, fun e he => (h.past e he).trans hle,
    old, hsplit, fun e he => (hold e he).trans hle⟩

theorem Held.sublist (h : Held window accepted clock entries) : entries.Sublist accepted := by
  obtain ⟨old, rfl, -⟩ := h.split
  exact List.sublist_append_right _ _

/-- The window over the whole past is what the queue holds, pruned. -/
theorem Held.filter_eq (h : Held window accepted now entries) :
    (accepted.filter fun e => InWindow window now e) = dropExpired window now entries := by
  obtain ⟨old, hsplit, hold⟩ := h.split
  have hgone : (old.filter fun e => InWindow window now e) = [] := by
    apply List.filter_eq_nil_iff.mpr
    intro e he hwindow
    have hexpired := hold e he
    have hin : InWindow window now e := by simpa using hwindow
    unfold InWindow at hin
    omega
  have hentries : dropExpired window now entries =
      entries.filter fun e => InWindow window now e := by
    apply dropExpired_eq_filter window now (h.sorted.sublist h.sublist)
    intro e he
    exact h.past e (h.sublist.subset he)
  rw [hsplit, List.filter_append, hgone, List.nil_append, hentries]

/-- A queue whose entries have all left the window may be forgotten. -/
theorem Held.forget (h : Held window accepted now entries)
    (hgone : ∀ e ∈ entries, e+window ≤ now) : Held window accepted now [] := by
  obtain ⟨old, hsplit, hold⟩ := h.split
  refine ⟨h.sorted, h.past, accepted, (List.append_nil _).symm, ?_⟩
  intro e he
  rw [hsplit] at he
  rcases List.mem_append.mp he with he | he
  · exact hold e he
  · exact hgone e he

theorem Held.drop (h : Held window accepted now entries) :
    Held window accepted now (dropExpired window now entries) := by
  obtain ⟨old, hsplit, hold⟩ := h.split
  refine ⟨h.sorted, h.past, old ++ entries.takeWhile fun e => decide (window ≤ now-e), ?_, ?_⟩
  · rw [hsplit, dropExpired, List.append_assoc, List.takeWhile_append_dropWhile]
  · intro e he
    rcases List.mem_append.mp he with he | he
    · exact hold e he
    · have hexpired : window ≤ now-e := by simpa using List.mem_takeWhile_imp he
      have hnow := h.past e (h.sublist.subset ((List.takeWhile_sublist _).subset he))
      omega

theorem Held.push (h : Held window accepted now entries) :
    Held window (accepted ++ [now]) now (entries ++ [now]) := by
  obtain ⟨old, hsplit, hold⟩ := h.split
  refine ⟨?_, ?_, old, by rw [hsplit, List.append_assoc], hold⟩
  · refine List.pairwise_append.mpr ⟨h.sorted, List.pairwise_singleton _ _, ?_⟩
    intro e he f hf
    obtain rfl := List.mem_singleton.mp hf
    exact h.past e he
  · intro e he
    rcases List.mem_append.mp he with he | he
    · exact h.past e he
    · exact (List.mem_singleton.mp he).le

/-- No window of this length holds more than the maximum. -/
def Sparse (window maximum : ℕ) (accepted : List ℕ) : Prop :=
  ∀ t, (accepted.filter fun e => InWindow window t e).length ≤ maximum

theorem Sparse.push {maximum : ℕ} (h : Sparse window maximum accepted)
    (hpast : ∀ e ∈ accepted, e ≤ now)
    (hroom : (accepted.filter fun e => InWindow window now e).length < maximum) :
    Sparse window maximum (accepted ++ [now]) := by
  intro t
  rw [List.filter_append, List.length_append]
  by_cases hnow : InWindow window t now
  · -- A window that holds the newest time holds no more of the others than the one ending there.
    have hsub : (accepted.filter fun e => InWindow window t e).length ≤
        (accepted.filter fun e => InWindow window now e).length := by
      apply List.Sublist.length_le
      have hsame : (accepted.filter fun e => InWindow window t e) =
          (accepted.filter fun e => InWindow window now e).filter
            fun e => InWindow window t e := by
        rw [List.filter_filter]
        apply List.filter_congr
        intro e he
        have hle := hpast e he
        apply Bool.eq_iff_iff.mpr
        rw [Bool.and_eq_true, decide_eq_true_eq, decide_eq_true_eq]
        unfold InWindow at hnow ⊢
        omega
      rw [hsame]
      exact List.filter_sublist
    rw [List.filter_cons_of_pos (by simpa using hnow), List.filter_nil, List.length_singleton]
    omega
  · have hold := h t
    rw [List.filter_cons_of_neg (by simpa using hnow), List.filter_nil, List.length_nil]
    omega

end Queue

section Tracking
variable {cmp : κ → κ → Ordering} [TransCmp cmp] [LawfulEqCmp cmp] [DecidableEq κ]
variable {l : Limits} {admissions : List (κ × ℕ)} {clock now : ℕ} {source p : κ}
variable {t : ExtTreeMap κ (List ℕ) cmp}

/-- The table holds a queue for each source, and no more than it may hold. -/
structure Tracks (l : Limits) (admissions : List (κ × ℕ)) (clock : ℕ)
    (t : ExtTreeMap κ (List ℕ) cmp) : Prop where
  held : ∀ p, Held l.window (timesOf admissions p) clock (t.getD p [])
  bounded : ∀ (p : κ) (entries : List ℕ), t[p]? = some entries →
    entries ≠ [] ∧ entries.length ≤ l.maximum
  sources : t.size ≤ l.maxSources

omit [LawfulEqCmp cmp] in
theorem tracks_empty (l : Limits) (clock : ℕ) :
    Tracks l [] clock (∅ : ExtTreeMap κ (List ℕ) cmp) := by
  refine ⟨?_, ?_, Nat.zero_le _⟩
  · intro p
    rw [ExtTreeMap.getD_empty]
    exact held_nil l.window clock
  · intro p entries hp
    rw [ExtTreeMap.getElem?_empty] at hp
    cases hp

omit [LawfulEqCmp cmp] in
theorem Tracks.later (h : Tracks l admissions clock t) (hle : clock ≤ now) :
    Tracks l admissions now t :=
  ⟨fun p => (h.held p).later hle, h.bounded, h.sources⟩

omit [LawfulEqCmp cmp] in
theorem Tracks.recent_eq (h : Tracks l admissions now t) (p : κ) :
    recent l.window now admissions p = dropExpired l.window now (t.getD p []) :=
  (h.held p).filter_eq

omit [DecidableEq κ] in
theorem lookup_retainRecent (window now : ℕ) (t : ExtTreeMap κ (List ℕ) cmp) (p : κ) :
    (retainRecent window now t)[p]? =
      t[p]?.filter fun entries => entries.getLast?.any fun entry => decide (now-entry < window) :=
  ExtTreeMap.getElem?_filter'

/-- A source is retained as it is or, when all its entries have left the window, not at all. -/
theorem Tracks.retained_cases (h : Tracks l admissions now t) (p : κ) :
    ((retainRecent l.window now t)[p]? = none ∧ ∀ e ∈ t.getD p [], e+l.window ≤ now) ∨
    ∃ entries, t[p]? = some entries ∧ (retainRecent l.window now t)[p]? = some entries ∧
      ∃ e ∈ entries, InWindow l.window now e := by
  have hheld := h.held p
  rw [lookup_retainRecent]
  rw [ExtTreeMap.getD_eq_getD_getElem?] at hheld ⊢
  cases hp : t[p]? with
  | none => exact Or.inl ⟨rfl, by simp⟩
  | some entries =>
    rw [hp, Option.getD_some] at hheld
    obtain ⟨hne, -⟩ := h.bounded p entries hp
    have hlast := List.getLast?_eq_some_getLast hne
    have hmem := List.getLast_mem hne
    have hpast : entries.getLast hne ≤ now := hheld.past _ (hheld.sublist.subset hmem)
    rw [Option.filter_some, hlast]
    by_cases hfresh : now-entries.getLast hne < l.window
    · refine Or.inr ⟨entries, rfl, by simp [hfresh], entries.getLast hne, hmem, hpast, ?_⟩
      omega
    · refine Or.inl ⟨by simp [hfresh], ?_⟩
      -- The last entry is the youngest: with it the others have left the window too.
      intro e he
      have hmem' : e ∈ entries := he
      have hle : e ≤ entries.getLast hne := by
        have hsorted := hheld.sorted.sublist hheld.sublist
        have hsplit := List.dropLast_append_getLast hne
        rw [← hsplit] at hmem' hsorted
        rcases List.mem_append.mp hmem' with hfront | hback
        · exact (List.pairwise_append.mp hsorted).2.2 e hfront _ (List.mem_singleton_self _)
        · exact (List.mem_singleton.mp hback).le
      omega

theorem Tracks.retain (h : Tracks l admissions now t) :
    Tracks l admissions now (retainRecent l.window now t) := by
  refine ⟨?_, ?_, ExtTreeMap.size_filter_le_size.trans h.sources⟩
  · intro p
    rw [ExtTreeMap.getD_eq_getD_getElem?]
    rcases h.retained_cases p with ⟨hnone, hgone⟩ | ⟨entries, hp, hkept, -⟩
    · rw [hnone]
      exact (h.held p).forget hgone
    · have hheld := h.held p
      rw [ExtTreeMap.getD_eq_getD_getElem?, hp] at hheld
      rwa [hkept]
  · intro p entries hkept
    rcases h.retained_cases p with ⟨hnone, -⟩ | ⟨entries', hp, hkept', -⟩
    · rw [hnone] at hkept
      cases hkept
    · rw [hkept'] at hkept
      obtain rfl := Option.some.inj hkept
      exact h.bounded p _ hp

/-- The sources that are retained are those with an admission in the window. -/
theorem Tracks.mem_retained (h : Tracks l admissions now t) (p : κ) :
    p ∈ retainRecent l.window now t ↔ recent l.window now admissions p ≠ [] := by
  rw [ExtTreeMap.mem_iff_isSome_getElem?]
  rcases h.retained_cases p with ⟨hnone, hgone⟩ | ⟨entries, hp, hkept, e, he, hwindow⟩
  · have hempty : recent l.window now admissions p = [] := by
      rw [h.retain.recent_eq p, ExtTreeMap.getD_eq_getD_getElem?, hnone]
      rfl
    simp [hnone, hempty]
  · have hmem : e ∈ recent l.window now admissions p := by
      have hsub := (h.held p).sublist
      rw [ExtTreeMap.getD_eq_getD_getElem?, hp] at hsub
      exact List.mem_filter.mpr ⟨hsub.subset he, by simpa using hwindow⟩
    simp [hkept, List.ne_nil_of_mem hmem]

theorem Tracks.size_retained (h : Tracks l admissions now t) :
    (retainRecent l.window now t).size = (recentSources l.window now admissions).card := by
  have hkeys : recentSources l.window now admissions =
      (retainRecent l.window now t).keys.toFinset := by
    ext p
    rw [mem_recentSources, ← h.mem_retained p, List.mem_toFinset, ExtTreeMap.mem_keys]
  rw [hkeys, List.toFinset_card_of_nodup ExtTreeMap.nodup_keys, ExtTreeMap.length_keys]

/-- Writing the queue of one source, where nothing else was accepted in the meantime. -/
theorem Tracks.write (h : Tracks l admissions now t) {admissions' : List (κ × ℕ)}
    {entries : List ℕ} (hheld : Held l.window (timesOf admissions' source) now entries)
    (hothers : ∀ p, source ≠ p → timesOf admissions' p = timesOf admissions p)
    (hne : entries ≠ []) (hlength : entries.length ≤ l.maximum)
    (hroom : source ∈ t ∨ t.size < l.maxSources) :
    Tracks l admissions' now (t.insert source entries) := by
  refine ⟨?_, ?_, ?_⟩
  · intro p
    rw [ExtTreeMap.getD_eq_getD_getElem?, OrderedMap.lookup_insert]
    by_cases hp : source = p
    · subst hp
      rwa [if_pos rfl]
    · rw [if_neg hp, ← ExtTreeMap.getD_eq_getD_getElem?, hothers p hp]
      exact h.held p
  · intro p written hp
    rw [OrderedMap.lookup_insert] at hp
    split at hp
    · obtain rfl := Option.some.inj hp
      exact ⟨hne, hlength⟩
    · exact h.bounded p written hp
  · rw [ExtTreeMap.size_insert]
    split
    · exact h.sources
    · next hnew =>
      rcases hroom with hmem | hroom
      · exact absurd (ExtTreeMap.contains_iff_mem.mpr hmem) hnew
      · exact hroom

omit [LawfulEqCmp cmp] in
/-- The entries in the window are among those that the table holds. -/
theorem Tracks.length_recent_le (h : Tracks l admissions now t) (hmem : source ∈ t) :
    (recent l.window now admissions source).length ≤ l.maximum := by
  obtain ⟨entries, hentries⟩ := Option.isSome_iff_exists.mp
    (ExtTreeMap.mem_iff_isSome_getElem?.mp hmem)
  obtain ⟨-, hbounded⟩ := h.bounded source entries hentries
  rw [h.recent_eq, ExtTreeMap.getD_eq_getD_getElem?, hentries]
  exact ((List.dropWhile_sublist _).length_le).trans hbounded

/-- A source that is at its limit is written back without its expired entries. -/
theorem Tracks.writeLimited (h : Tracks l admissions now t) (hmem : source ∈ t)
    (hne : recent l.window now admissions source ≠ []) :
    Tracks l admissions now
      (t.insert source (dropExpired l.window now (t.getD source []))) := by
  have hlength := h.length_recent_le hmem
  rw [h.recent_eq] at hne hlength
  exact h.write (h.held source).drop (fun _ _ => rfl) hne hlength (Or.inl hmem)

theorem Tracks.writeAdmitted (h : Tracks l admissions now t)
    (hbelow : (recent l.window now admissions source).length < l.maximum)
    (hroom : source ∈ t ∨ t.size < l.maxSources) :
    Tracks l (admissions ++ [(source, now)]) now
      (t.insert source (dropExpired l.window now (t.getD source []) ++ [now])) := by
  have htimes := timesOf_concat admissions source now
  refine h.write ?_ ?_ (by simp) ?_ hroom
  · rw [htimes, if_pos rfl]
    exact (h.held source).drop.push
  · intro p hp
    rw [htimes, if_neg hp, List.append_nil]
  · rw [← h.recent_eq, List.length_append, List.length_singleton]
    omega

/-- The pruned table decides as the whole past would, and keeps track of it. -/
theorem Tracks.attempt (h : Tracks l admissions clock t) (hle : clock ≤ now)
    (hmaximum : 0 < l.maximum) (source : κ) :
    ((attempt l t source now).1 = .admitted ↔ Admissible l admissions source now) ∧
    Tracks l (admissions ++ if (attempt l t source now).1 = .admitted then [(source, now)] else [])
      now (attempt l t source now).2 := by
  have hnow := h.later hle
  have hkept := hnow.retain
  have hrecent := hkept.recent_eq source
  have hmem := hnow.mem_retained source
  have hsize := hnow.size_retained
  unfold SlidingWindow.attempt Admissible
  by_cases hfull : ¬(retainRecent l.window now t).contains source ∧
      l.maxSources ≤ (retainRecent l.window now t).size
  · -- A source without an admission in the window finds no room.
    have hempty : recent l.window now admissions source = [] := by
      by_contra hne
      exact hfull.1 (ExtTreeMap.contains_iff_mem.mpr (hmem.mpr hne))
    simp only [hfull, not_false_eq_true, and_self, if_true, reduceCtorEq, if_false,
      List.append_nil, false_iff]
    refine ⟨?_, hkept⟩
    rintro ⟨-, hne | hroom⟩
    · exact hne hempty
    · have hover := hfull.2
      omega
  · have hroom : source ∈ retainRecent l.window now t ∨
        (retainRecent l.window now t).size < l.maxSources := by
      by_cases hin : source ∈ retainRecent l.window now t
      · exact Or.inl hin
      · refine Or.inr (Nat.lt_of_not_le fun hover => hfull ⟨?_, hover⟩)
        rwa [ExtTreeMap.contains_iff_mem]
    rw [if_neg hfull]
    by_cases hlimit : l.maximum ≤
        (dropExpired l.window now ((retainRecent l.window now t).getD source [])).length
    · have hover : l.maximum ≤ (recent l.window now admissions source).length := hrecent ▸ hlimit
      have hne : recent l.window now admissions source ≠ [] := by
        apply List.ne_nil_of_length_pos
        omega
      simp only [hlimit, if_true, reduceCtorEq, if_false, List.append_nil, false_iff]
      refine ⟨fun hadmissible => ?_, hkept.writeLimited (hmem.mpr hne) hne⟩
      have hbelow := hadmissible.1
      omega
    · have hbelow : (recent l.window now admissions source).length < l.maximum := by
        rw [hrecent]
        omega
      simp only [hlimit, if_false, if_true, true_iff]
      exact ⟨⟨hbelow, by rwa [hmem, hsize] at hroom⟩, hkept.writeAdmitted hbelow hroom⟩

/-- A table that holds no more than it may. -/
def Bounded (l : Limits) (t : ExtTreeMap κ (List ℕ) cmp) : Prop :=
  t.size ≤ l.maxSources ∧ ∀ (p : κ) (entries : List ℕ), t[p]? = some entries →
    entries ≠ [] ∧ entries.length ≤ l.maximum

section Runs
variable {σ ι ρ : Type*} {step : σ → ι → ρ × σ} {table : σ → ExtTreeMap κ (List ℕ) cmp}
variable {call : ι → Option (κ × ℕ)} {accepted : ρ → Prop} [DecidablePred accepted]
variable {I : σ → Prop}

/-- The calls that were accepted, with their sources and times. -/
def admissionsOf (call : ι → Option (κ × ℕ)) (accepted : ρ → Prop) [DecidablePred accepted]
    (hist : List (Event σ ι ρ)) : List (κ × ℕ) :=
  hist.filterMap fun e => if accepted e.reply then call e.input else none

/-- An object that, as long as it satisfies its invariant, holds a table and puts some of its calls
to it. -/
structure Guards (I : σ → Prop) (l : Limits) (step : σ → ι → ρ × σ)
    (table : σ → ExtTreeMap κ (List ℕ) cmp) (call : ι → Option (κ × ℕ)) (accepted : ρ → Prop) :
    Prop where
  keeps : ∀ s i, I s → I (step s i).2
  other : ∀ s i, I s → call i = none → table (step s i).2 = table s
  asked : ∀ s i source now, I s → call i = some (source, now) →
    table (step s i).2 = (SlidingWindow.attempt l (table s) source now).2 ∧
      (accepted (step s i).1 ↔ (SlidingWindow.attempt l (table s) source now).1 = .admitted)

omit [LawfulEqCmp cmp] [DecidableEq κ] in
theorem admissionsOf_concat (hist : List (Event σ ι ρ)) (e : Event σ ι ρ) :
    admissionsOf call accepted (hist ++ [e]) =
      admissionsOf call accepted hist ++
        if accepted e.reply then (call e.input).toList else [] := by
  unfold admissionsOf
  rw [List.filterMap_append]
  by_cases h : accepted e.reply
  · cases hc : call e.input with
    | none => simp [h, hc]
    | some c => simp [h, hc]
  · simp [h]

/-- Along a run at times that do not decrease the table keeps track of what was accepted. -/
theorem Guards.tracks (hg : Guards I l step table call accepted) (hmaximum : 0 < l.maximum)
    {s : σ} (hI : I s) (hs : table s = ∅) (is : List ι)
    (hsorted : (is.filterMap call).Pairwise fun a b => a.2 ≤ b.2) (clock : ℕ)
    (hclock : ∀ c ∈ is.filterMap call, c.2 ≤ clock) :
    Tracks l (admissionsOf call accepted (trace step s is)) clock (table (run step s is)) := by
  induction is using List.reverseRecOn generalizing clock with
  | nil =>
    rw [run_nil, hs]
    exact tracks_empty l clock
  | append_singleton is i ih =>
    rw [List.filterMap_append] at hsorted hclock
    obtain ⟨hbefore, -, hlast⟩ := List.pairwise_append.mp hsorted
    have hrun := run_invariant step hg.keeps hI is
    rw [trace_concat, run_concat, admissionsOf_concat]
    cases hcall : call i with
    | none =>
      have htable := hg.other (run step s is) i hrun hcall
      have hold := ih hbefore clock fun c hc => hclock c (List.mem_append_left _ hc)
      rw [htable]
      simpa [event, hcall] using hold
    | some c =>
      obtain ⟨source, now⟩ := c
      have hmem : (source, now) ∈ [i].filterMap call := by simp [hcall]
      obtain ⟨htable, haccepted⟩ := hg.asked (run step s is) i source now hrun hcall
      -- No call before this one was later.
      have hold := ih hbefore now fun c hc => hlast c hc (source, now) hmem
      have hnow := (hold.attempt (le_refl now) hmaximum source).2
      have hlater := hnow.later (hclock _ (List.mem_append_right _ hmem))
      rw [htable]
      by_cases hok : accepted (step (run step s is) i).1
      · rw [if_pos (haccepted.mp hok)] at hlater
        simpa [event, hcall, hok] using hlater
      · rw [if_neg (mt haccepted.mpr hok)] at hlater
        simpa [event, hcall, hok] using hlater

/-- After any calls at times that do not decrease, the next one is accepted exactly when the whole
past admits it, and the table holds no more than it may. -/
theorem Guards.exact (hg : Guards I l step table call accepted) (hmaximum : 0 < l.maximum)
    {s : σ} (hI : I s) (hs : table s = ∅) (is : List ι) (i : ι)
    (hsorted : ((is ++ [i]).filterMap call).Pairwise fun a b => a.2 ≤ b.2) :
    (∀ source now, call i = some (source, now) → (accepted (step (run step s is) i).1 ↔
      Admissible l (admissionsOf call accepted (trace step s is)) source now)) ∧
    Bounded l (table (run step s (is ++ [i]))) := by
  have hclock : ∃ clock, ∀ c ∈ (is ++ [i]).filterMap call, c.2 ≤ clock := by
    refine ⟨(((is ++ [i]).filterMap call).map Prod.snd).sum, ?_⟩
    intro c hc
    exact List.le_sum_of_mem (List.mem_map_of_mem hc)
  obtain ⟨clock, hclock⟩ := hclock
  have hafter := hg.tracks hmaximum hI hs (is ++ [i]) hsorted clock hclock
  refine ⟨?_, hafter.sources, hafter.bounded⟩
  intro source now hcall
  rw [List.filterMap_append] at hsorted
  obtain ⟨hbefore, -, hlast⟩ := List.pairwise_append.mp hsorted
  have hmem : (source, now) ∈ [i].filterMap call := by simp [hcall]
  have hold := hg.tracks hmaximum hI hs is hbefore now fun c hc => hlast c hc (source, now) hmem
  have hrun := run_invariant step hg.keeps hI is
  rw [(hg.asked (run step s is) i source now hrun hcall).2]
  exact (hold.attempt (le_refl now) hmaximum source).1

end Runs
end Tracking
end SlidingWindow
