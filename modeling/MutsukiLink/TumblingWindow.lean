import MutsukiLink.SlidingWindow

/-! Counting by windows that follow one another: a window ends when its length has passed and the
next call begins another one with its whole budget. Two such budgets can be asked together, the
second one behind the first. -/
namespace TumblingWindow
open SlidingWindow (InWindow)

/-- The window under way: when it began, and how much of its budget is used. -/
structure Window where
  started : ℕ
  count : ℕ
deriving DecidableEq, Repr

namespace Window

/-- A window whose length has passed gives way to another one. -/
def roll (length now : ℕ) (w : Window) : Window :=
  if length ≤ now-w.started then ⟨now, 0⟩ else w

def use (w : Window) : Window := { w with count := w.count+1 }

end Window

/-- Two budgets: the window of the second one is looked at only when the first one has let the call
through. -/
def allow (shortLength shortLimit longLength longLimit now : ℕ) (short long : Window) :
    Bool × Window × Window :=
  let short := short.roll shortLength now
  if shortLimit ≤ short.count then (false, short, long)
  else
    let long := long.roll longLength now
    if longLimit ≤ long.count then (false, short, long) else (true, short.use, long.use)

/-- No two instants of the set are a length apart, as in a half-open interval of this length. -/
def Short (length : ℕ) (S : ℕ → Prop) : Prop := ∀ a b, S a → S b → a < b+length

/-- What the window under way says of the instants that were accepted so far. -/
structure Counts (length limit : ℕ) (accepted : List ℕ) (clock : ℕ) (w : Window) : Prop where
  past : ∀ t ∈ accepted, t ≤ clock
  started : w.started ≤ clock
  bounded : w.count ≤ limit
  split : ∃ old current, accepted = old ++ current ∧ current.length = w.count ∧
    (∀ t ∈ old, t ≤ w.started) ∧ (∀ t ∈ current, w.started ≤ t) ∧
    (old.filter fun t => w.started < t+length).length ≤ limit
  spread : ∀ (S : ℕ → Prop) [DecidablePred S], Short length S →
    (accepted.filter fun t => S t).length ≤ 2*limit

variable {length limit clock now : ℕ} {accepted : List ℕ} {w : Window}

theorem counts_new (length limit : ℕ) {started : ℕ} (h : started ≤ clock) :
    Counts length limit [] clock ⟨started, 0⟩ :=
  ⟨by simp, h, Nat.zero_le _, ⟨[], [], by simp⟩, fun S _ _ => Nat.zero_le _⟩

theorem Counts.later (h : Counts length limit accepted clock w) (hle : clock ≤ now) :
    Counts length limit accepted now w :=
  ⟨fun t ht => (h.past t ht).trans hle, h.started.trans hle, h.bounded, h.split, h.spread⟩

theorem Counts.roll (h : Counts length limit accepted now w) :
    Counts length limit accepted now (w.roll length now) := by
  unfold Window.roll
  by_cases hover : length ≤ now-w.started
  · rw [if_pos hover]
    obtain ⟨old, current, hsplit, hcount, hold, hcurrent, -⟩ := h.split
    refine ⟨h.past, le_refl now, Nat.zero_le _, ⟨accepted, [], ?_, rfl, h.past, ?_, ?_⟩, h.spread⟩
    · exact (List.append_nil _).symm
    · intro t ht
      exact absurd ht List.not_mem_nil
    · -- What came before the window that ends is a length old: only its own instants are left.
      have hgone : (old.filter fun t => now < t+length) = [] := by
        apply List.filter_eq_nil_iff.mpr
        intro t ht hrecent
        have hbefore := hold t ht
        have hstarted := h.started
        have hlate : now < t+length := by simpa using hrecent
        omega
      have hown : (current.filter fun t => now < t+length).length ≤ current.length :=
        List.length_filter_le _ _
      have hbounded := h.bounded
      show (accepted.filter fun t => now < t+length).length ≤ limit
      rw [hsplit, List.filter_append, hgone, List.nil_append]
      omega
  · rw [if_neg hover]
    exact h

/-- The newest instant shares a short set with instants of the current window and of the one before
it only. -/
theorem Counts.use (h : Counts length limit accepted now w) (hroom : w.count < limit) :
    Counts length limit (accepted ++ [now]) now w.use := by
  obtain ⟨old, current, hsplit, hcount, hold, hcurrent, hrecent⟩ := h.split
  refine ⟨?_, h.started, hroom, ⟨old, current ++ [now], ?_, ?_, hold, ?_, hrecent⟩, ?_⟩
  · intro t ht
    rcases List.mem_append.mp ht with ht | ht
    · exact h.past t ht
    · exact (List.mem_singleton.mp ht).le
  · rw [hsplit, List.append_assoc]
  · rw [List.length_append, hcount]
    rfl
  · intro t ht
    rcases List.mem_append.mp ht with ht | ht
    · exact hcurrent t ht
    · rw [List.mem_singleton.mp ht]
      exact h.started
  · intro S _ hshort
    rw [List.filter_append, List.length_append]
    by_cases hnow : S now
    -- With the newest instant the set reaches back no further than a length before it: into the
    -- last window and, of what is older, into what one window could hold.
    · have hbefore : (old.filter fun t => S t).length ≤ limit := by
        refine le_trans (List.Sublist.length_le ?_) hrecent
        apply List.monotone_filter_right
        intro t ht
        have hlate := hshort now t hnow (by simpa using ht)
        have hstarted := h.started
        simp only [decide_eq_true_eq]
        omega
      have hown : (current.filter fun t => S t).length ≤ current.length :=
        List.length_filter_le _ _
      rw [List.filter_cons_of_pos (by simpa using hnow), List.filter_nil, List.length_singleton,
        hsplit, List.filter_append, List.length_append]
      omega
    · have hspread := h.spread S hshort
      rw [List.filter_cons_of_neg (by simpa using hnow), List.filter_nil, List.length_nil]
      omega

/-- What the current window has counted was accepted within its length. -/
theorem Counts.count_le_recent (h : Counts length limit accepted now w) :
    (w.roll length now).count ≤ (accepted.filter fun t => InWindow length now t).length := by
  unfold Window.roll
  by_cases hover : length ≤ now-w.started
  · rw [if_pos hover]
    exact Nat.zero_le _
  · rw [if_neg hover]
    obtain ⟨old, current, hsplit, hcount, -, hcurrent, -⟩ := h.split
    have hown : (current.filter fun t => InWindow length now t) = current := by
      apply List.filter_eq_self.mpr
      intro t ht
      have hstarted := hcurrent t ht
      have hpast : t ≤ now := by
        apply h.past t
        rw [hsplit]
        exact List.mem_append_right _ ht
      have hin : InWindow length now t := by
        unfold InWindow
        omega
      simpa using hin
    rw [hsplit, List.filter_append, List.length_append, hown]
    omega

section Pair
variable {shortLength shortLimit longLength longLimit : ℕ} {short long : Window}

/-- A call that is let through is counted by both windows, any other one by none. -/
theorem allow_counts (hs : Counts shortLength shortLimit accepted clock short)
    (hl : Counts longLength longLimit accepted clock long) (hle : clock ≤ now) :
    Counts shortLength shortLimit (accepted ++
      if (allow shortLength shortLimit longLength longLimit now short long).1 then [now] else [])
      now (allow shortLength shortLimit longLength longLimit now short long).2.1 ∧
    Counts longLength longLimit (accepted ++
      if (allow shortLength shortLimit longLength longLimit now short long).1 then [now] else [])
      now (allow shortLength shortLimit longLength longLimit now short long).2.2 := by
  have hshort := (hs.later hle).roll
  have hlong := (hl.later hle).roll
  unfold allow
  by_cases hfull : shortLimit ≤ (short.roll shortLength now).count
  · simp only [hfull, if_true, Bool.false_eq_true, if_false, List.append_nil]
    exact ⟨hshort, hl.later hle⟩
  · by_cases hfull' : longLimit ≤ (long.roll longLength now).count
    · simp only [hfull, hfull', if_true, Bool.false_eq_true, if_false, List.append_nil]
      exact ⟨hshort, hlong⟩
    · simp only [hfull, hfull', if_true, if_false]
      exact ⟨hshort.use (Nat.lt_of_not_le hfull), hlong.use (Nat.lt_of_not_le hfull')⟩

/-- A call is let through when both sliding windows have room. -/
theorem allow_of_recent (hs : Counts shortLength shortLimit accepted clock short)
    (hl : Counts longLength longLimit accepted clock long) (hle : clock ≤ now)
    (hshort : (accepted.filter fun t => InWindow shortLength now t).length < shortLimit)
    (hlong : (accepted.filter fun t => InWindow longLength now t).length < longLimit) :
    (allow shortLength shortLimit longLength longLimit now short long).1 = true := by
  have hcount := (hs.later hle).count_le_recent
  have hcount' := (hl.later hle).count_le_recent
  have hroom : ¬shortLimit ≤ (short.roll shortLength now).count := by omega
  have hroom' : ¬longLimit ≤ (long.roll longLength now).count := by omega
  unfold allow
  simp only [hroom, hroom', if_false]

/-- A window that a call has not used is the one from before, or a new one after its length. -/
def Spared (length now : ℕ) (before after : Window) : Prop :=
  after = before ∨ length ≤ now-before.started ∧ after = ⟨now, 0⟩

theorem spared_roll (length now : ℕ) (w : Window) : Spared length now w (w.roll length now) := by
  unfold Window.roll
  by_cases hover : length ≤ now-w.started
  · exact Or.inr ⟨hover, if_pos hover⟩
  · exact Or.inl (if_neg hover)

/-- A call that is refused uses neither budget. -/
theorem allow_refused
    (h : (allow shortLength shortLimit longLength longLimit now short long).1 = false) :
    Spared shortLength now short
      (allow shortLength shortLimit longLength longLimit now short long).2.1 ∧
    Spared longLength now long
      (allow shortLength shortLimit longLength longLimit now short long).2.2 := by
  unfold allow at h ⊢
  by_cases hfull : shortLimit ≤ (short.roll shortLength now).count
  · simp only [hfull, if_true]
    exact ⟨spared_roll _ _ _, Or.inl rfl⟩
  · by_cases hfull' : longLimit ≤ (long.roll longLength now).count
    · simp only [hfull, hfull', if_true, if_false]
      exact ⟨spared_roll _ _ _, spared_roll _ _ _⟩
    · simp [hfull, hfull'] at h

end Pair
end TumblingWindow
