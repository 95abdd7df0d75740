import MutsukiLink.ReconnectModel

/-! The budgets of a reconnect controller over whole runs. One lemma says what a failure report can
do; the numbering, the deadline and the finality of a cancellation follow from it. -/
namespace MutsukiLink
open RunHistory

namespace ReconnectController

variable (c : ReconnectController) (failure : ReconnectFailure) (now : UInt64) (sample : UInt16)

/-- The counted part of a report, with the delay that the policy asks for. -/
theorem schedule_reports {l : RetryLimit} (htoken : c.cancellation = false)
    (hcounts : c.counts failure = true) (hlimit : c.policy.limit = some l) :
    Reports c failure now sample
      ({ c with startedUnixMs := some (c.startedUnixMs.getD now) }.schedule now
        (c.startedUnixMs.getD now) (c.delay sample) l).1
      ({ c with startedUnixMs := some (c.startedUnixMs.getD now) }.schedule now
        (c.startedUnixMs.getD now) (c.delay sample) l).2 := by
  by_cases hattempts : l.maxAttempts ≤ c.attempts
  · simp only [schedule, if_pos hattempts]
    exact .refused (by simp) hcounts
  by_cases helapsed : l.maxElapsedMs ≤ now.saturatingSub (c.startedUnixMs.getD now) ∨
      l.maxElapsedMs < (now.saturatingSub (c.startedUnixMs.getD now)).saturatingAdd (c.delay sample)
  · simp only [schedule, if_neg hattempts, if_pos helapsed]
    exact .refused (by simp) hcounts
  · simp only [schedule, if_neg hattempts, if_neg helapsed]
    rw [not_or, UInt64.not_lt] at helapsed
    exact .scheduled htoken hcounts hlimit (UInt32.not_le.mp hattempts) helapsed.2

theorem after_failure_reports : Reports c failure now sample
    (c.afterFailure failure now sample).1 (c.afterFailure failure now sample).2 := by
  unfold afterFailure
  split
  · next hstop =>
    refine .ignored (by simp) (hstop.imp_right fun h => ?_)
    rw [h]
    rfl
  · next hgo =>
    rw [not_or, Bool.not_eq_true] at hgo
    split
    · next hpermanent => exact .ignored (by simp) (Or.inr (by simp [counts, hpermanent]))
    · next hretryable =>
      split
      · next hpaused => exact .ignored (by simp) (Or.inr (by simp [counts, hpaused]))
      · next hrunning =>
        have hcounts : c.counts failure = true := by simp [counts, hretryable, hrunning]
        -- The policies without a budget refuse, the other two schedule with their own delay.
        obtain ⟨policy, started, attempts, token, paused⟩ := c
        cases policy with
        | disabled => exact .refused (by intro t k h; cases h) hcounts
        | applicationControlled => exact .refused (by intro t k h; cases h) hcounts
        | immediate l => exact schedule_reports _ failure now sample hgo.1 hcounts rfl
        | exponentialBackoff config =>
          exact schedule_reports _ failure now sample hgo.1 hcounts rfl

/-- The number of the attempt that a call was answered with. -/
def attemptOf (e : Event ReconnectController ReconnectCall (Option ReconnectAction)) :
    Option UInt32 :=
  match e.reply with
  | some (.attemptAt _ attempt) => some attempt
  | _ => none

/-- The time of a failure that is neither permanent nor deferred by a pause. -/
def countedAt (e : Event ReconnectController ReconnectCall (Option ReconnectAction)) :
    Option UInt64 :=
  match e.input with
  | .afterFailure failure nowUnixMs _ => if e.pre.counts failure then some nowUnixMs else none
  | _ => none

/-- The controller as it is made or as a reset leaves it, at any point of its life. -/
def PeriodStart (c s : ReconnectController) : Prop :=
  s = c ∨ ∃ before, s = run step c (before ++ [.reset])

/-- The attempt is the next one, within the attempt budget, and the time is within the elapsed
budget of the failure that started the period. -/
def WithinBudget (policy : ReconnectPolicy) (started : Option UInt64) (unixMs : UInt64)
    (attempt : UInt32) : Prop :=
  ∃ limit start, policy.limit = some limit ∧ started = some start ∧ attempt ≤ limit.maxAttempts ∧
    unixMs.toNat ≤ start.toNat+limit.maxElapsedMs.toNat

variable {c}

theorem attempt_of_eq_none {e : Event ReconnectController ReconnectCall (Option ReconnectAction)}
    (h : ∀ t k, e.reply ≠ some (.attemptAt t k)) : attemptOf e = none := by
  unfold attemptOf
  split
  · next t k heq => exact absurd heq (h t k)
  · rfl

/-- The time is within the budget even where one of the two additions saturates: a saturated sum is
the greatest word, and then so is the budget. -/
theorem deadline_of_elapsed {start delay limit : UInt64}
    (h : (now.saturatingSub start).saturatingAdd delay ≤ limit) :
    (now.saturatingAdd delay).toNat ≤ start.toNat+limit.toNat := by
  rw [UInt64.le_iff_toNat_le, UInt64.toNat_saturatingAdd, UInt64.toNat_saturatingSub] at h
  have hlimit := limit.toNat_le_maxNat
  rw [UInt64.toNat_saturatingAdd]
  omega

/-- What holds between two resets: the attempts of the period are numbered without a gap, and while
the token is not cancelled the controller knows when the period started. -/
structure PeriodInv (policy : ReconnectPolicy)
    (hist : List (Event ReconnectController ReconnectCall (Option ReconnectAction)))
    (c : ReconnectController) : Prop where
  policy_eq : c.policy = policy
  started_eq : c.cancellation = false → c.startedUnixMs = (hist.filterMap countedAt).head?
  numbers : (hist.filterMap attemptOf).map UInt32.toNat = List.range' 1 c.attempts.toNat
  within : ∀ e ∈ hist, ∀ t k, e.reply = some (.attemptAt t k) →
    WithinBudget policy (hist.filterMap countedAt).head? t k

/-- A call that makes no attempt keeps the invariant when it leaves the policy and the attempts
alone and knows of the first counted failure. -/
theorem PeriodInv.quiet {policy : ReconnectPolicy}
    {hist : List (Event ReconnectController ReconnectCall (Option ReconnectAction))}
    (h : PeriodInv policy hist c)
    {e : Event ReconnectController ReconnectCall (Option ReconnectAction)}
    {c' : ReconnectController} (hquiet : ∀ t k, e.reply ≠ some (.attemptAt t k))
    (hpolicy : c'.policy = c.policy) (hattempts : c'.attempts = c.attempts)
    (hstarted : c'.cancellation = false →
      c'.startedUnixMs = ((hist ++ [e]).filterMap countedAt).head?) :
    PeriodInv policy (hist ++ [e]) c' where
  policy_eq := hpolicy.trans h.policy_eq
  started_eq := hstarted
  numbers := by
    rw [List.filterMap_append, List.filterMap_cons, attempt_of_eq_none hquiet, hattempts]
    simpa using h.numbers
  within := by
    intro e' he' t k hreply
    rcases List.mem_append.mp he' with he' | he'
    · obtain ⟨limit, start, hlimit, hstart, hbounds⟩ := h.within e' he' t k hreply
      refine ⟨limit, start, hlimit, ?_, hbounds⟩
      rw [List.filterMap_append, List.head?_append, hstart]
      rfl
    · obtain rfl := List.mem_singleton.mp he'
      exact absurd hreply (hquiet t k)

theorem head_counted_append
    (hist : List (Event ReconnectController ReconnectCall (Option ReconnectAction)))
    (e : Event ReconnectController ReconnectCall (Option ReconnectAction)) :
    ((hist ++ [e]).filterMap countedAt).head? =
      (hist.filterMap countedAt).head?.or (countedAt e) := by
  rw [List.filterMap_append, List.head?_append]
  congr 1
  cases h : countedAt e <;> simp [h]

theorem or_some_eq (o : Option UInt64) (t : UInt64) : o.or (some t) = some (o.getD t) := by
  cases o <;> rfl

/-- Only a failure report makes an attempt. -/
theorem PeriodInv.report {policy : ReconnectPolicy}
    {hist : List (Event ReconnectController ReconnectCall (Option ReconnectAction))}
    (h : PeriodInv policy hist c) (failure : ReconnectFailure) (now : UInt64) (sample : UInt16) :
    PeriodInv policy (hist ++ [event step c (.afterFailure failure now sample)])
      (c.afterFailure failure now sample).2 := by
  have hreply : (event step c (.afterFailure failure now sample)).reply =
      some (c.afterFailure failure now sample).1 := rfl
  have hcounted : countedAt (event step c (.afterFailure failure now sample)) =
      if c.counts failure then some now else none := rfl
  have hhead := head_counted_append hist (event step c (.afterFailure failure now sample))
  have hreports := after_failure_reports c failure now sample
  generalize event step c (.afterFailure failure now sample) = e at *
  generalize (c.afterFailure failure now sample).1 = action at *
  generalize (c.afterFailure failure now sample).2 = c' at *
  rw [hcounted] at hhead
  cases hreports with
  -- Nothing is counted; a cancelled controller need not know the start any more.
  | ignored haction hwhy =>
    refine h.quiet (fun t k => ?_) rfl rfl fun htoken => ?_
    · rw [hreply, ne_eq, Option.some_inj]
      exact haction t k
    · rw [hhead, h.started_eq htoken]
      rcases hwhy with hcancelled | hcounts
      · rw [htoken] at hcancelled
        cases hcancelled
      · rw [hcounts, if_neg Bool.false_ne_true, Option.or_none]
  -- The failure counts, so it fixes the start if it is the first one.
  | refused haction hcounts =>
    refine h.quiet (fun t k => ?_) rfl rfl fun htoken => ?_
    · rw [hreply, ne_eq, Option.some_inj]
      exact haction t k
    · rw [hhead, if_pos hcounts, or_some_eq]
      exact congrArg (fun o => some (o.getD now)) (h.started_eq htoken)
  -- The attempt is the next number, which does not saturate below the attempt budget.
  | @scheduled l htoken hcounts hlimit hattempts helapsed =>
    have hnext : (c.attempts.saturatingAdd 1).toNat = c.attempts.toNat+1 :=
      UInt32.toNat_saturatingAdd_one hattempts
    rw [if_pos hcounts, or_some_eq, ← h.started_eq htoken] at hhead
    have hnumber : attemptOf e = some (c.attempts.saturatingAdd 1) := by
      rw [attemptOf, hreply]
    refine ⟨h.policy_eq, fun _ => hhead.symm, ?_, ?_⟩
    · rw [List.filterMap_append, List.map_append, h.numbers, hnext, List.range'_concat]
      simp [hnumber, hnext, Nat.add_comm]
    · intro e' he' t k hreply'
      rcases List.mem_append.mp he' with he' | he'
      · obtain ⟨limit, start, hlimit', hstart, hbounds⟩ := h.within e' he' t k hreply'
        refine ⟨limit, start, hlimit', ?_, hbounds⟩
        rw [hhead, h.started_eq htoken, hstart]
        rfl
      · obtain rfl := List.mem_singleton.mp he'
        rw [hreply] at hreply'
        cases hreply'
        refine ⟨l, _, h.policy_eq ▸ hlimit, hhead, ?_, deadline_of_elapsed now helapsed⟩
        rw [UInt32.le_iff_toNat_le, hnext]
        exact UInt32.lt_iff_toNat_lt.mp hattempts

/-- Every other call of a period leaves the attempts and the start as they are. -/
theorem PeriodInv.step {policy : ReconnectPolicy}
    {hist : List (Event ReconnectController ReconnectCall (Option ReconnectAction))}
    (h : PeriodInv policy hist c) {call : ReconnectCall} (hcall : call ≠ .reset) :
    PeriodInv policy (hist ++ [event ReconnectController.step c call])
      (ReconnectController.step c call).2 := by
  cases call with
  | afterFailure failure now sample => exact h.report failure now sample
  | reset => exact absurd rfl hcall
  | pause =>
    refine h.quiet (fun t k hreply => by cases hreply) rfl rfl fun htoken => ?_
    rw [head_counted_append]
    exact (h.started_eq htoken).trans (Option.or_none).symm
  | resume =>
    refine h.quiet (fun t k hreply => by cases hreply) rfl rfl fun htoken => ?_
    rw [head_counted_append]
    exact (h.started_eq htoken).trans (Option.or_none).symm
  | cancel =>
    refine h.quiet (fun t k hreply => by cases hreply) rfl rfl fun htoken => ?_
    cases htoken

theorem eq_of_new {policy : ReconnectPolicy} {token : Bool} (hnew : new policy token = .ok c) :
    c = ⟨policy, none, 0, token, false⟩ := by
  unfold new at hnew
  split at hnew
  · cases hnew
  · exact (Except.ok.inj hnew).symm

/-- A period starts without attempts and without a start time. -/
theorem PeriodInv.start {policy : ReconnectPolicy} {token : Bool} (hnew : new policy token = .ok c)
    {s : ReconnectController} (hs : PeriodStart c s) : PeriodInv policy [] s := by
  have hc := eq_of_new hnew
  have hpolicy (calls : List ReconnectCall) :
      (run ReconnectController.step c calls).policy = policy := by
    refine run_invariant _ (I := fun c : ReconnectController => c.policy = policy)
      (fun c call h => ?_) (by rw [hc]) calls
    cases call with
    | afterFailure failure now sample =>
      show (c.afterFailure failure now sample).2.policy = policy
      have hreports := after_failure_reports c failure now sample
      generalize (c.afterFailure failure now sample).1 = action at hreports
      generalize (c.afterFailure failure now sample).2 = c' at hreports
      cases hreports <;> exact h
    | pause => exact h
    | resume => exact h
    | reset => exact h
    | cancel => exact h
  rcases hs with rfl | ⟨before, rfl⟩
  · exact ⟨by rw [hc], fun _ => by rw [hc]; rfl, by rw [hc]; rfl, by simp⟩
  · refine ⟨hpolicy _, fun _ => ?_, ?_, by simp⟩
    · rw [run_concat]
      rfl
    · rw [run_concat]
      rfl

/-- A cancelled controller makes no attempt and stays cancelled. -/
theorem cancelled_step (h : c.cancellation = true) (call : ReconnectCall) :
    (ReconnectController.step c call).2.cancellation = true ∧
      ∀ t k, (ReconnectController.step c call).1 ≠ some (.attemptAt t k) := by
  cases call with
  | afterFailure failure now sample =>
    have hstop : c.afterFailure failure now sample = (.stop .cancelled, c) := by
      rw [afterFailure, if_pos (Or.inl h)]
    refine ⟨(congrArg (fun r => r.2.cancellation) hstop).trans h, fun t k hreply => ?_⟩
    have haction := Option.some.inj hreply
    rw [hstop] at haction
    cases haction
  | pause => exact ⟨h, fun t k hreply => by cases hreply⟩
  | resume => exact ⟨h, fun t k hreply => by cases hreply⟩
  | reset => exact ⟨h, fun t k hreply => by cases hreply⟩
  | cancel => exact ⟨rfl, fun t k hreply => by cases hreply⟩

theorem cancelled_trace (h : c.cancellation = true) (calls : List ReconnectCall) :
    ∀ e ∈ trace ReconnectController.step c calls, ∀ t k, e.reply ≠ some (.attemptAt t k) := by
  intro e he
  obtain ⟨hpre, hevent⟩ := trace_invariant ReconnectController.step
    (I := fun c => c.cancellation = true) (fun c call hc => (cancelled_step hc call).1) h calls e he
  rw [hevent]
  exact (cancelled_step hpre e.input).2

theorem cancelled_of_mem {calls : List ReconnectCall} (hmem : .cancel ∈ calls) :
    (run ReconnectController.step c calls).cancellation = true := by
  obtain ⟨done, rest, rfl⟩ := List.append_of_mem hmem
  rw [run_append, run_cons]
  exact run_invariant ReconnectController.step (I := fun c => c.cancellation = true)
    (fun c call hc => (cancelled_step hc call).1) rfl rest

/-- Only a made attempt is taken from the budget. -/
theorem attempts_kept {call : ReconnectCall} (hcall : call ≠ .reset)
    (hquiet : ∀ t k, (ReconnectController.step c call).1 ≠ some (.attemptAt t k)) :
    (ReconnectController.step c call).2.attempts = c.attempts := by
  cases call with
  | afterFailure failure now sample =>
    have hquiet (t : UInt64) (k : UInt32) :
        (c.afterFailure failure now sample).1 ≠ .attemptAt t k :=
      fun h => hquiet t k (congrArg some h)
    have hreports := after_failure_reports c failure now sample
    show (c.afterFailure failure now sample).2.attempts = c.attempts
    generalize (c.afterFailure failure now sample).1 = action at hreports hquiet
    generalize (c.afterFailure failure now sample).2 = c' at hreports
    cases hreports with
    | ignored => rfl
    | refused => rfl
    | scheduled => exact absurd rfl (hquiet _ _)
  | reset => exact absurd rfl hcall
  | pause => rfl
  | resume => rfl
  | cancel => rfl

/-- Between two resets the attempts are numbered 1, 2, 3 and so on up to the attempt budget, none is
scheduled past the elapsed budget of the first counted failure, a call that is answered otherwise
takes nothing from the budget, and a cancellation ends all attempts for good. -/
theorem reconnect_budget {policy : ReconnectPolicy} {token : Bool} {c : ReconnectController}
    (hnew : new policy token = .ok c) :
    (∀ s calls, PeriodStart c s → .reset ∉ calls →
      (∃ n, ((trace ReconnectController.step s calls).filterMap attemptOf).map UInt32.toNat =
        List.range' 1 n) ∧
      (∀ e ∈ trace ReconnectController.step s calls, ∀ t k, e.reply = some (.attemptAt t k) →
        WithinBudget policy ((trace ReconnectController.step s calls).filterMap countedAt).head?
          t k) ∧
      (∀ e ∈ trace ReconnectController.step s calls, ∀ action, e.reply = some action →
        (action = .awaitApplication ∨ ∃ reason, action = .stop reason) →
        e.post.attempts = e.pre.attempts)) ∧
    ∀ before after, token = true ∨ .cancel ∈ before →
      ∀ e ∈ trace ReconnectController.step (run ReconnectController.step c before) after,
        ∀ t k, e.reply ≠ some (.attemptAt t k) := by
  constructor
  · intro s calls hs hcalls
    have hinv := run_history_of ReconnectController.step (P := PeriodInv policy)
      (Q := fun call => call ≠ .reset) (PeriodInv.start hnew hs)
      (fun hist s call hcall h => h.step hcall) calls
      fun call hcall heq => hcalls (heq ▸ hcall)
    refine ⟨⟨_, hinv.numbers⟩, hinv.within, fun e he action hreply haction => ?_⟩
    -- Only an attempt is counted, and the reply says that there was none.
    obtain ⟨-, hevent⟩ := trace_invariant ReconnectController.step (I := fun _ => True)
      (fun _ _ _ => trivial) trivial calls e he
    have hinput : e.input ≠ .reset := by
      have hmem := List.mem_map_of_mem (f := Event.input) he
      rw [map_input_trace] at hmem
      exact fun heq => hcalls (heq ▸ hmem)
    have hpost : e.post = (ReconnectController.step e.pre e.input).2 := congrArg Event.post hevent
    have hanswer : e.reply = (ReconnectController.step e.pre e.input).1 :=
      congrArg Event.reply hevent
    rw [hpost]
    apply attempts_kept hinput
    intro t k hattempt
    rw [← hanswer, hreply] at hattempt
    rcases haction with rfl | ⟨reason, rfl⟩
    · cases hattempt
    · cases hattempt
  · intro before after hcancel
    apply cancelled_trace
    rcases hcancel with rfl | hmem
    · refine run_invariant ReconnectController.step (I := fun c => c.cancellation = true)
        (fun c call hc => (cancelled_step hc call).1) ?_ before
      rw [eq_of_new hnew]
    · exact cancelled_of_mem hmem

def twoAttempts : ReconnectController := ⟨.immediate ⟨2, 100⟩, none, 0, false, false⟩

/-- Two failures, the second with an earlier time, and a cancellation before the third. -/
theorem reconnect_budget_two_attempts :
    (∃ n, ((trace ReconnectController.step twoAttempts
      [.afterFailure .transportClosed 5 0, .afterFailure .networkChanged 3 0]).filterMap
        attemptOf).map UInt32.toNat = List.range' 1 n) ∧
    ∀ e ∈ trace ReconnectController.step (run ReconnectController.step twoAttempts [.cancel])
      [.afterFailure .sleepWake 7 0], ∀ t k, e.reply ≠ some (.attemptAt t k) := by
  have hnew : new (.immediate ⟨2, 100⟩) false = .ok twoAttempts := rfl
  refine ⟨((reconnect_budget hnew).1 twoAttempts _ (Or.inl rfl) (by decide)).1, ?_⟩
  exact (reconnect_budget hnew).2 [.cancel] _ (Or.inr (by decide))

example : (trace ReconnectController.step twoAttempts
    [.afterFailure .transportClosed 5 0, .afterFailure .networkChanged 3 0]).filterMap attemptOf =
      [1, 2] := by decide

end ReconnectController

end MutsukiLink
