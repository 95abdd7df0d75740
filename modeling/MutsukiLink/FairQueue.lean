import Mathlib.Data.Set.Insert
import Mathlib.Algebra.BigOperators.Group.Finset.Basic
import Mathlib.Algebra.Order.BigOperators.Group.Finset
import Mathlib.Algebra.GroupWithZero.Nat
import Mathlib.Order.Lattice

/-! Start-time fair queuing over an arbitrary type of queues: a virtual clock, one tag for each
open queue, and the service bound between a queue that is always waiting and any other. -/
namespace FairQueue

variable {κ : Type*}

structure Clock (κ : Type*) where
  time : ℕ
  tag : κ → Option ℕ
  retired : Set κ

/-- No tag is ahead of the clock by more than the cap of its queue. -/
def Within (cap : κ → ℕ) (c : Clock κ) : Prop := ∀ k t, c.tag k = some t → t ≤ c.time+cap k

/-- An interval that began at clock value `start`, during which `i` waits at every service and
has received `si`, while `j` has received `sj`. The clock and the tag of `i` stay below what
`i` has been given, and what `j` has been given shows in its tag. -/
structure Interval (cap : κ → ℕ) (start : ℕ) (i j : κ) (si sj : ℕ) (c : Clock κ) : Prop where
  start_le : start ≤ c.time
  time_le : c.time ≤ start+cap i+si
  tag_le : ∀ t, c.tag i = some t → t ≤ start+cap i+si
  credit : ∀ t, c.tag j = some t → start+sj ≤ max t c.time
  known : sj ≠ 0 → c.tag j ≠ none ∨ j ∈ c.retired
  bound : sj ≤ si+cap i+cap j

theorem Interval.begin {cap : κ → ℕ} {c : Clock κ} (h : Within cap c) (i j : κ) :
    Interval cap c.time i j 0 0 c where
  start_le := le_rfl
  time_le := by omega
  tag_le t ht := by simpa using h i t ht
  credit t _ := by omega
  known h0 := absurd rfl h0
  bound := Nat.zero_le _

variable [DecidableEq κ]

/-- One call of the scheduler, with the services it gives as pairs of a queue and a cost. The
queues in `waiting` are those that have something to send. -/
inductive Step (waiting : Set κ) : Clock κ → List (κ × ℕ) → Clock κ → Prop
  | idle (c : Clock κ) : Step waiting c [] c
  | enter {c : Clock κ} (k : κ) (hk : c.tag k = none) (hr : k ∉ c.retired) :
      Step waiting c [] { c with tag := Function.update c.tag k (some c.time) }
  | join {c : Clock κ} (k : κ) (t : ℕ) (hk : c.tag k = some t) :
      Step waiting c [] { c with tag := Function.update c.tag k (some (max t c.time)) }
  | serve {c : Clock κ} (k : κ) (t cost : ℕ) (hk : c.tag k = some t)
      (least : ∀ other ∈ waiting, ∀ t', c.tag other = some t' → t ≤ t') :
      Step waiting c [(k, cost)] { c with
        time := max t c.time, tag := Function.update c.tag k (some (max t c.time+cost)) }
  | leave {c : Clock κ} (k : κ) : Step waiting c [] { c with
      tag := Function.update c.tag k none, retired := insert k c.retired }

theorem Step.congr {waiting : Set κ} {c d d' : Clock κ} {services : List (κ × ℕ)} (hd : d' = d)
    (hs : Step waiting c services d) : Step waiting c services d' :=
  hd ▸ hs

/-- The total cost of the services given to one queue. -/
def spent (k : κ) (services : List (κ × ℕ)) : ℕ :=
  ((services.filter fun p => p.1 = k).map Prod.snd).sum

@[simp] theorem spent_nil (k : κ) : spent k [] = 0 := rfl

theorem spent_append (k : κ) (xs ys : List (κ × ℕ)) :
    spent k (xs ++ ys) = spent k xs+spent k ys := by
  simp [spent]

theorem spent_singleton (k other : κ) (cost : ℕ) :
    spent k [(other, cost)] = if other = k then cost else 0 := by
  by_cases h : other = k <;> simp [spent, h]

theorem count_le_spent (k : κ) {services : List (κ × ℕ)} (hpos : ∀ p ∈ services, 0 < p.2) :
    (services.map Prod.fst).count k ≤ spent k services := by
  induction services with
  | nil => exact Nat.zero_le _
  | cons p services ih =>
    obtain ⟨other, cost⟩ := p
    have hc := hpos (other, cost) List.mem_cons_self
    have hrest := ih fun q hq => hpos q (List.mem_cons_of_mem _ hq)
    rw [← List.singleton_append, spent_append, spent_singleton, List.map_append, List.count_append]
    by_cases hk : other = k
    · simp only [hk, if_true, List.map_singleton, List.count_singleton_self]
      omega
    · simpa [hk] using hrest

/-- As many services as the queues they go to, times what each of them received. -/
theorem length_le_of_count_le {services : List (κ × ℕ)} {ks : Finset κ} {n : ℕ}
    (hmem : ∀ p ∈ services, p.1 ∈ ks) (hn : ∀ k, (services.map Prod.fst).count k ≤ n) :
    services.length ≤ ks.card*n := by
  have hsub : (services.map Prod.fst).toFinset ⊆ ks := by
    intro k hk
    obtain ⟨p, hp, rfl⟩ := List.mem_map.mp (List.mem_toFinset.mp hk)
    exact hmem p hp
  -- Count the services queue by queue.
  calc services.length
      = ∑ k ∈ (services.map Prod.fst).toFinset, (services.map Prod.fst).count k := by
        rw [List.sum_toFinset_count_eq_length, List.length_map]
    _ ≤ (services.map Prod.fst).toFinset.card*n := Finset.sum_le_card_nsmul _ _ _ fun k _ => hn k
    _ ≤ ks.card*n := Nat.mul_le_mul_right _ (Finset.card_le_card hsub)

theorem Within.step {cap : κ → ℕ} {waiting : Set κ} {c c' : Clock κ} {services : List (κ × ℕ)}
    (h : Within cap c) (hs : Step waiting c services c')
    (hcap : ∀ p ∈ services, p.2 ≤ cap p.1) : Within cap c' := by
  intro k t ht
  cases hs with
  | idle => exact h k t ht
  | enter entered =>
    by_cases hk : k = entered
    · subst hk
      obtain rfl : c.time = t := by simpa using ht
      exact Nat.le_add_right _ _
    · exact h k t (by simpa [hk] using ht)
  | join joined t' hj =>
    by_cases hk : k = joined
    · subst hk
      obtain rfl : max t' c.time = t := by simpa using ht
      have := h k t' hj
      simp only
      omega
    · exact h k t (by simpa [hk] using ht)
  | serve served t' cost hserved least =>
    -- The served tag moves by one cost from a clock value that is the new time.
    have hc := hcap (served, cost) (by simp)
    by_cases hk : k = served
    · subst hk
      obtain rfl : max t' c.time+cost = t := by simpa using ht
      simp only at hc ⊢
      omega
    · have := h k t (by simpa [hk] using ht)
      simp only
      omega
  | leave gone =>
    by_cases hk : k = gone
    · simp [hk] at ht
    · exact h k t (by simpa [hk] using ht)

/-- The step with a service: `i` waits, so the served tag is at most the tag of `i`, and so is
the new clock value. -/
theorem Interval.serve {cap : κ → ℕ} {start : ℕ} {i j : κ} {si sj : ℕ} {c : Clock κ}
    (h : Interval cap start i j si sj c) (hij : i ≠ j) {k : κ} {t ti cost : ℕ}
    (hk : c.tag k = some t) (hi : c.tag i = some ti) (hle : t ≤ ti) (hcap : cost ≤ cap k) :
    Interval cap start i j (si+if k = i then cost else 0) (sj+if k = j then cost else 0)
      { c with
        time := max t c.time, tag := Function.update c.tag k (some (max t c.time+cost)) } := by
  -- Every bound on the new clock follows from `t ≤ ti` and what `i` had been given.
  have hstart := h.start_le
  have htime := h.time_le
  have htag := h.tag_le ti hi
  have hbound := h.bound
  refine ⟨by simp only; omega, by simp only; omega, ?_, ?_, ?_, ?_⟩
  · intro t' ht'
    by_cases hki : k = i
    · subst hki
      obtain rfl : max t c.time+cost = t' := by simpa using ht'
      simp only [if_true]
      omega
    · have := h.tag_le t' (by simpa [Ne.symm hki] using ht')
      simp only [if_neg hki]
      omega
  · intro t' ht'
    by_cases hkj : k = j
    · subst hkj
      obtain rfl : max t c.time+cost = t' := by simpa using ht'
      have := h.credit t hk
      simp only [if_true]
      omega
    · have := h.credit t' (by simpa [Ne.symm hkj] using ht')
      simp only [if_neg hkj]
      omega
  · intro hne
    by_cases hkj : k = j
    · subst hkj
      exact .inl (by simp)
    · simpa [Ne.symm hkj] using h.known (by simpa [hkj] using hne)
  · by_cases hkj : k = j
    · subst hkj
      have := h.credit t hk
      simp only [if_true, if_neg (Ne.symm hij)]
      omega
    · simp only [if_neg hkj]
      omega

theorem Interval.step {cap : κ → ℕ} {start : ℕ} {i j : κ} {si sj : ℕ} {waiting : Set κ}
    {c c' : Clock κ} {services : List (κ × ℕ)} (h : Interval cap start i j si sj c) (hij : i ≠ j)
    (hs : Step waiting c services c') (hcap : ∀ p ∈ services, p.2 ≤ cap p.1)
    (hwait : services ≠ [] → i ∈ waiting ∧ c.tag i ≠ none) :
    Interval cap start i j (si+spent i services) (sj+spent j services) c' := by
  cases hs with
  | idle => exact h
  | enter k hk hr =>
    -- A queue that enters is neither open nor retired, so it has not been served before.
    have hnew : j = k → sj = 0 := by
      rintro rfl
      by_contra h0
      exact (h.known h0).elim (fun hn => hn hk) hr
    refine { h with tag_le := ?_, credit := ?_, known := ?_ }
    · intro t ht
      have := h.tag_le t
      have := h.time_le
      simp only [Function.update_apply, spent_nil] at ht ⊢
      grind
    · intro t ht
      have := h.credit t
      have := h.start_le
      simp only [Function.update_apply, spent_nil] at ht ⊢
      grind
    · intro h0
      have := h.known h0
      simp only [Function.update_apply]
      grind
  | join k t0 hk =>
    refine { h with tag_le := ?_, credit := ?_, known := ?_ }
    · intro t ht
      have := h.tag_le t
      have := h.tag_le t0
      have := h.time_le
      simp only [Function.update_apply, spent_nil] at ht ⊢
      grind
    · intro t ht
      have := h.credit t
      have := h.credit t0
      simp only [Function.update_apply, spent_nil] at ht ⊢
      grind
    · intro h0
      have := h.known h0
      simp only [Function.update_apply]
      grind
  | serve k t cost hk least =>
    -- The only service: `i` waits, so its tag bounds the tag that is served.
    obtain ⟨hi, htag⟩ := hwait (by simp)
    obtain ⟨ti, hti⟩ := Option.ne_none_iff_exists'.mp htag
    rw [spent_singleton, spent_singleton]
    exact h.serve hij hk hti (least i hi ti hti) (hcap (k, cost) (by simp))
  | leave k =>
    refine { h with tag_le := ?_, credit := ?_, known := ?_ }
    · intro t ht
      have := h.tag_le t
      simp only [Function.update_apply, spent_nil] at ht ⊢
      grind
    · intro t ht
      have := h.credit t
      simp only [Function.update_apply, spent_nil] at ht ⊢
      grind
    · intro h0
      have := h.known h0
      simp only [Function.update_apply, Set.mem_insert_iff]
      grind

end FairQueue
