import Mathlib.Data.List.Induction

/-! Finite runs of a deterministic object that answers every call. A call takes a state
and an input to a reply and a state, so that a failing call may still change the state. -/
namespace RunHistory

variable {σ τ ι ρ : Type*}

/-- One call of a run, with the states around it. -/
structure Event (σ ι ρ : Type*) where
  pre : σ
  input : ι
  reply : ρ
  post : σ

section Runs
variable (step : σ → ι → ρ × σ)

def event (s : σ) (i : ι) : Event σ ι ρ := ⟨s, i, (step s i).1, (step s i).2⟩

def run : σ → List ι → σ
  | s, [] => s
  | s, i :: is => run (step s i).2 is

def trace : σ → List ι → List (Event σ ι ρ)
  | _, [] => []
  | s, i :: is => event step s i :: trace (step s i).2 is

@[simp] theorem run_nil (s : σ) : run step s [] = s := rfl

@[simp] theorem trace_nil (s : σ) : trace step s [] = [] := rfl

@[simp] theorem run_cons (s : σ) (i : ι) (is : List ι) :
    run step s (i :: is) = run step (step s i).2 is := rfl

@[simp] theorem trace_cons (s : σ) (i : ι) (is : List ι) :
    trace step s (i :: is) = event step s i :: trace step (step s i).2 is := rfl

theorem run_append (s : σ) (is js : List ι) :
    run step s (is ++ js) = run step (run step s is) js := by
  induction is generalizing s with
  | nil => rfl
  | cons i is ih => simpa only [List.cons_append, run_cons] using ih (step s i).2

theorem trace_append (s : σ) (is js : List ι) :
    trace step s (is ++ js) = trace step s is ++ trace step (run step s is) js := by
  induction is generalizing s with
  | nil => rfl
  | cons i is ih => simp only [List.cons_append, trace_cons, run_cons, ih]

theorem run_concat (s : σ) (is : List ι) (i : ι) :
    run step s (is ++ [i]) = (step (run step s is) i).2 := by
  rw [run_append]
  rfl

theorem trace_concat (s : σ) (is : List ι) (i : ι) :
    trace step s (is ++ [i]) = trace step s is ++ [event step (run step s is) i] := by
  rw [trace_append]
  rfl

theorem length_trace (s : σ) (is : List ι) : (trace step s is).length = is.length := by
  induction is generalizing s with
  | nil => rfl
  | cons i is ih => rw [trace_cons, List.length_cons, List.length_cons, ih]

/-- A run whose history is cut in two is a run up to there and one from there on. -/
theorem trace_split {s : σ} {is : List ι} {xs ys : List (Event σ ι ρ)}
    (h : trace step s is = xs ++ ys) :
    ∃ js ks, is = js ++ ks ∧ trace step s js = xs ∧ trace step (run step s js) ks = ys := by
  refine ⟨is.take xs.length, is.drop xs.length, (List.take_append_drop _ _).symm, ?_⟩
  have hlength : xs.length ≤ is.length := by
    rw [← length_trace step s is, h, List.length_append]
    exact Nat.le_add_right _ _
  rw [← List.take_append_drop xs.length is, trace_append] at h
  apply List.append_inj h
  rw [length_trace, List.length_take, Nat.min_eq_left hlength]

/-- A history cut at an event is the history of the calls before it, the event of a call, and the
history of the calls after it. -/
theorem trace_cut {s : σ} {is : List ι} {before after : List (Event σ ι ρ)} {e : Event σ ι ρ}
    (h : trace step s is = before ++ e :: after) :
    ∃ js i ks, is = js ++ i :: ks ∧ trace step s js = before ∧
      e = event step (run step s js) i ∧ trace step (step (run step s js) i).2 ks = after := by
  obtain ⟨js, ks, his, hjs, hrest⟩ := trace_split step h
  cases ks with
  | nil => cases hrest
  | cons i ks =>
    obtain ⟨hevent, hafter⟩ := List.cons.inj hrest
    exact ⟨js, i, ks, his, hjs, hevent.symm, hafter⟩

/-- Every event of a run is a call made after some part of it. -/
theorem event_split {s : σ} {is : List ι} {e : Event σ ι ρ} (he : e ∈ trace step s is) :
    ∃ js i ks, is = js ++ i :: ks ∧ e = event step (run step s js) i := by
  obtain ⟨xs, ys, hsplit⟩ := List.append_of_mem he
  obtain ⟨js, i, ks, his, -, heq, -⟩ := trace_cut step hsplit
  exact ⟨js, i, ks, his, heq⟩

theorem event_mem_trace (s : σ) (is : List ι) (i : ι) (js : List ι) :
    event step (run step s is) i ∈ trace step s (is ++ i :: js) := by
  rw [trace_append]
  exact List.mem_append_right _ List.mem_cons_self

/-- The rule behind every whole-run fact: a statement about the history so far and the
current state holds at the end of a run when one more call keeps it. -/
theorem run_history {P : List (Event σ ι ρ) → σ → Prop} {s : σ} (h0 : P [] s)
    (hstep : ∀ hist s' i, P hist s' → P (hist ++ [event step s' i]) (step s' i).2)
    (is : List ι) : P (trace step s is) (run step s is) := by
  induction is using List.reverseRecOn with
  | nil => exact h0
  | append_singleton is i ih =>
    rw [trace_concat, run_concat]
    exact hstep _ _ i ih

theorem run_invariant {I : σ → Prop} (hstep : ∀ s i, I s → I (step s i).2) {s : σ}
    (h0 : I s) (is : List ι) : I (run step s is) :=
  run_history step (P := fun _ s => I s) h0 (fun _ s i h => hstep s i h) is

/-- Every event of a run is a call made in a state that satisfies the invariant. -/
theorem trace_invariant {I : σ → Prop} (hstep : ∀ s i, I s → I (step s i).2) {s : σ}
    (h0 : I s) (is : List ι) : ∀ e ∈ trace step s is, I e.pre ∧ e = event step e.pre e.input := by
  -- The invariant of the current state is carried along: it justifies the next event.
  have h := run_history step
    (P := fun hist s => I s ∧ ∀ e ∈ hist, I e.pre ∧ e = event step e.pre e.input)
    ⟨h0, by simp⟩
    (by
      rintro hist s i ⟨hs, hh⟩
      refine ⟨hstep s i hs, fun e he => ?_⟩
      rcases List.mem_append.mp he with he | he
      · exact hh e he
      · obtain rfl := List.mem_singleton.mp he
        exact ⟨hs, rfl⟩)
    is
  exact h.2

/-- When all its calls are good ones, every event of a run is a call made in a state with the
properties that good calls keep. -/
theorem trace_invariant_of {I : σ → Prop} {G : σ → ι → Prop}
    (hstep : ∀ s i, I s → G s i → I (step s i).2) {s : σ} (hI : I s) (is : List ι)
    (hgood : ∀ e ∈ trace step s is, G e.pre e.input) :
    ∀ e ∈ trace step s is, I e.pre ∧ e = event step e.pre e.input := by
  induction is generalizing s with
  | nil => simp
  | cons i is ih =>
    simp only [trace_cons, List.forall_mem_cons] at hgood ⊢
    exact ⟨⟨hI, rfl⟩, ih (hstep s i hI hgood.1) hgood.2⟩

/-- A property that a call keeps exactly when it is a good one holds all along a run exactly when
all its calls are good. -/
theorem trace_invariant_iff {I J : σ → Prop} {G : σ → ι → Prop}
    (hkeep : ∀ s i, J s → J (step s i).2)
    (hstep : ∀ s i, J s → I s → (I (step s i).2 ↔ G s i)) {s : σ} (hJ : J s) (hI : I s)
    (is : List ι) :
    (∀ e ∈ trace step s is, I e.post) ↔ ∀ e ∈ trace step s is, G e.pre e.input := by
  induction is generalizing s with
  | nil => simp
  | cons i is ih =>
    simp only [trace_cons, List.forall_mem_cons]
    have hfirst : I (event step s i).post ↔ G (event step s i).pre (event step s i).input :=
      hstep s i hJ hI
    constructor
    · intro h
      exact ⟨hfirst.mp h.1, (ih (hkeep s i hJ) h.1).mp h.2⟩
    · intro h
      have hnext := hfirst.mpr h.1
      exact ⟨hnext, (ih (hkeep s i hJ) hnext).mpr h.2⟩

/-- A history that grew by one event is split there or before. -/
theorem split_concat {hist before after : List (Event σ ι ρ)} {e x : Event σ ι ρ}
    (h : hist ++ [e] = before ++ x :: after) :
    (hist = before ∧ e = x) ∨ ∃ after', hist = before ++ x :: after' := by
  rcases List.eq_nil_or_concat after with rfl | ⟨after', last, rfl⟩
  · obtain ⟨hhist, he⟩ := List.append_inj' h rfl
    exact Or.inl ⟨hhist, List.singleton_inj.mp he⟩
  · rw [List.concat_eq_append, ← List.cons_append, ← List.append_assoc] at h
    exact Or.inr ⟨after', (List.append_inj' h rfl).1⟩

/-- A value that only some events set is the one that the last of them has set. -/
theorem value_kept {β : Type*} {f : σ → β} {A : Event σ ι ρ → β → Prop} {a : β}
    {s : σ} {is : List ι} {between after : List (Event σ ι ρ)} {e : Event σ ι ρ}
    (hcases : ∀ e ∈ trace step s is, f e.post = f e.pre ∨ ∃ b, A e b)
    (h : trace step s is = between ++ e :: after) (hnone : ∀ x ∈ between, ∀ b, ¬A x b)
    (hs : f s = a) : f e.pre = a := by
  induction between generalizing s is with
  | nil =>
    cases is with
    | nil => simp at h
    | cons i is =>
      obtain ⟨rfl, -⟩ := List.cons.inj h
      exact hs
  | cons x between ih =>
    cases is with
    | nil => simp at h
    | cons i is =>
      obtain ⟨rfl, hrest⟩ := List.cons.inj h
      obtain ⟨hfirst, hcases⟩ := List.forall_mem_cons.mp hcases
      obtain ⟨hnow, hnone⟩ := List.forall_mem_cons.mp hnone
      rcases hfirst with hsame | ⟨b, hb⟩
      · exact ih hcases hrest hnone (hsame.trans hs)
      · exact absurd hb (hnow b)

/-- Between two settings of a value with none in between it stays as it was set. -/
theorem value_set {β : Type*} {f : σ → β} {A : Event σ ι ρ → β → Prop} {a : β}
    {s : σ} {is : List ι} {before between after : List (Event σ ι ρ)} {e e' : Event σ ι ρ}
    (hcases : ∀ e ∈ trace step s is, f e.post = f e.pre ∨ ∃ b, A e b)
    (h : trace step s is = before ++ e :: (between ++ e' :: after))
    (hnone : ∀ x ∈ between, ∀ b, ¬A x b) (hset : f e.post = a) : f e'.pre = a := by
  induction before generalizing s is with
  | nil =>
    cases is with
    | nil => simp at h
    | cons i is =>
      obtain ⟨rfl, hrest⟩ := List.cons.inj h
      exact value_kept step (List.forall_mem_cons.mp hcases).2 hrest hnone hset
  | cons x before ih =>
    cases is with
    | nil => simp at h
    | cons i is =>
      obtain ⟨rfl, hrest⟩ := List.cons.inj h
      exact ih (List.forall_mem_cons.mp hcases).2 hrest

theorem map_input_trace (s : σ) (is : List ι) : (trace step s is).map Event.input = is := by
  induction is generalizing s with
  | nil => rfl
  | cons i is ih => exact congrArg (i :: ·) (ih _)

/-- The rule for runs whose calls are all of one kind. -/
theorem run_history_of {P : List (Event σ ι ρ) → σ → Prop} {Q : ι → Prop} {s : σ} (h0 : P [] s)
    (hstep : ∀ hist s' i, Q i → P hist s' → P (hist ++ [event step s' i]) (step s' i).2)
    (is : List ι) (hok : ∀ i ∈ is, Q i) : P (trace step s is) (run step s is) := by
  refine run_history step (P := fun hist s => (∀ e ∈ hist, Q e.input) → P hist s) (fun _ => h0)
    (fun hist s i ih hall => ?_) is fun e he => ?_
  · refine hstep hist s i (hall _ (List.mem_append_right _ (List.mem_singleton_self _))) (ih ?_)
    exact fun e he => hall e (List.mem_append_left _ he)
  · have hmem := List.mem_map_of_mem (f := Event.input) he
    rw [map_input_trace] at hmem
    exact hok _ hmem

/-- The rule for runs whose calls are all good ones in the states where they are made. -/
theorem run_history_good {P : List (Event σ ι ρ) → σ → Prop} {G : σ → ι → Prop} {s : σ}
    (h0 : P [] s)
    (hstep : ∀ hist s' i, P hist s' → G s' i → P (hist ++ [event step s' i]) (step s' i).2)
    (is : List ι) (hgood : ∀ e ∈ trace step s is, G e.pre e.input) :
    P (trace step s is) (run step s is) := by
  induction is using List.reverseRecOn with
  | nil => exact h0
  | append_singleton is i ih =>
    rw [trace_concat] at hgood
    have hlast : G (run step s is) i :=
      hgood (event step (run step s is) i) (List.mem_append_right _ (List.mem_singleton_self _))
    have hbefore := ih fun e he => hgood e (List.mem_append_left _ he)
    rw [trace_concat, run_concat]
    exact hstep _ _ i hbefore hlast

/-- The rule for emptying an object: while there is something left, some call of the kind leaves
less of it. -/
theorem exists_run_zero {I : σ → Prop} {Q : ι → Prop} (μ : σ → ℕ)
    (hkeep : ∀ s i, Q i → I s → I (step s i).2)
    (hless : ∀ s, I s → μ s ≠ 0 → ∃ i, Q i ∧ μ (step s i).2 < μ s) {s : σ} (h : I s) :
    ∃ is, (∀ i ∈ is, Q i) ∧ μ (run step s is) = 0 := by
  induction hn : μ s using Nat.strongRecOn generalizing s with
  | ind n ih =>
    by_cases hzero : μ s = 0
    · exact ⟨[], by simp, hzero⟩
    · obtain ⟨i, hi, hlt⟩ := hless s h hzero
      obtain ⟨is, his, hdone⟩ := ih _ (hn ▸ hlt) (hkeep s i hi h) rfl
      refine ⟨i :: is, ?_, hdone⟩
      intro j hj
      rcases List.mem_cons.mp hj with rfl | hj
      · exact hi
      · exact his j hj

end Runs

/-- Two objects driven by the same calls answer alike for the whole run when each allowed
call keeps a relation between their states and gives equal replies. -/
theorem lockstep {stepL : σ → ι → ρ × σ} {stepR : τ → ι → ρ × τ} {R : σ → τ → Prop}
    {Q : ι → Prop}
    (hstep : ∀ s t i, Q i → R s t →
      (stepL s i).1 = (stepR t i).1 ∧ R (stepL s i).2 (stepR t i).2)
    {s : σ} {t : τ} (h0 : R s t) (is : List ι) (hok : ∀ i ∈ is, Q i) :
    List.Forall₂ (fun e f => e.reply = f.reply ∧ R e.post f.post)
      (trace stepL s is) (trace stepR t is) := by
  induction is generalizing s t with
  | nil => exact .nil
  | cons i is ih =>
    -- Forward induction: both objects move on before the rest of the run is compared.
    obtain ⟨hr, hs⟩ := hstep s t i (hok i List.mem_cons_self) h0
    exact .cons ⟨hr, hs⟩ (ih hs fun j hj => hok j (List.mem_cons_of_mem _ hj))

/-- Two objects that stay related while their calls are good and part at the first call that is
not: they agree along a run exactly when all its calls are good. -/
theorem lockstep_iff {ρ' : Type*} {stepL : σ → ι → ρ × σ} {stepR : τ → ι → ρ' × τ}
    {R : σ → τ → Prop} {G : σ → ι → Prop} {Q : Event σ ι ρ → Event τ ι ρ' → Prop}
    (hgood : ∀ s t i, R s t → G s i →
      Q (event stepL s i) (event stepR t i) ∧ R (stepL s i).2 (stepR t i).2)
    (hbad : ∀ s t i, R s t → Q (event stepL s i) (event stepR t i) → G s i)
    {s : σ} {t : τ} (h0 : R s t) (is : List ι) :
    List.Forall₂ Q (trace stepL s is) (trace stepR t is) ↔
      ∀ e ∈ trace stepL s is, G e.pre e.input := by
  induction is generalizing s t with
  | nil => exact ⟨fun _ _ he => absurd he List.not_mem_nil, fun _ => .nil⟩
  | cons i is ih =>
    simp only [trace_cons, List.forall₂_cons, List.forall_mem_cons]
    constructor
    · rintro ⟨hq, hrest⟩
      have hi : G s i := hbad s t i h0 hq
      exact ⟨hi, (ih (hgood s t i h0 hi).2).mp hrest⟩
    · rintro ⟨hi, hrest⟩
      obtain ⟨hq, hnext⟩ := hgood s t i h0 hi
      exact ⟨hq, (ih hnext).mpr hrest⟩

end RunHistory
