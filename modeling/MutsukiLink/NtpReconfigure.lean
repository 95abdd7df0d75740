import MutsukiLink.NtpRejections
import MutsukiLink.SlidingWindow

/-! The limit on reconfigurations of either end, over runs of `note_reconfigure`. -/
namespace MutsukiLink.Ntp
open RunHistory
open SlidingWindow (InWindow Held Sparse dropExpired held_nil)

def minute : ℕ := 60*1000000000

section Limit
variable {σ ρ : Type} {step : σ → ℕ → ρ × σ} {queue : σ → List ℕ} {ok : ρ → Prop}
variable [DecidablePred ok] {ε : Type} {config : BindingConfig} {I : σ → Prop} {s : σ}

/-- The instants of the calls that were accepted. -/
def acceptedTimes (ok : ρ → Prop) [DecidablePred ok] (hist : List (Event σ ℕ ρ)) : List ℕ :=
  hist.filterMap fun e => if ok e.reply then some e.input else none

/-- No window of a minute holds more than the maximum of accepted calls, and a call is refused only
when the minute before it holds that many. -/
def RespectsLimit (maximum : ℕ) (ok : ρ → Prop) [DecidablePred ok] (hist : List (Event σ ℕ ρ)) :
    Prop :=
  Sparse minute maximum (acceptedTimes ok hist) ∧
    ∀ before e after, hist = before ++ e :: after → ¬ok e.reply →
      maximum ≤ ((acceptedTimes ok before).filter fun t => InWindow minute e.input t).length

/-- An object that puts its calls to `note_reconfigure`. -/
structure Reconfigures (ε : Type) (config : BindingConfig) (I : σ → Prop)
    (step : σ → ℕ → ρ × σ) (queue : σ → List ℕ) (ok : ρ → Prop) : Prop where
  keeps : ∀ s now, I s → I (step s now).2
  asked : ∀ s now, I s →
    queue (step s now).2 = (noteReconfigureTimes (ε := ε) config (queue s) now).2 ∧
      (ok (step s now).1 ↔ (noteReconfigureTimes (ε := ε) config (queue s) now).1 = .ok ())

theorem noteReconfigureTimes_cases (config : BindingConfig) (times : List ℕ) (now : ℕ) :
    (config.maxReconfigurePerMinute.toNat ≤ (recentTimes times now).length ∧
      noteReconfigureTimes (ε := ε) config times now =
        (.error .rateLimited, recentTimes times now)) ∨
    ((recentTimes times now).length < config.maxReconfigurePerMinute.toNat ∧
      noteReconfigureTimes (ε := ε) config times now =
        (.ok (), recentTimes times now ++ [now])) := by
  by_cases hlimit : config.maxReconfigurePerMinute.toNat ≤ (recentTimes times now).length
  · exact Or.inl ⟨hlimit, if_pos hlimit⟩
  · exact Or.inr ⟨Nat.lt_of_not_le hlimit, if_neg hlimit⟩

/-- Once the clock has run for a minute, what is dropped is what has left the minute before. -/
theorem recentTimes_eq_dropExpired {times : List ℕ} {now : ℕ} (h : minute ≤ now ∨ times = []) :
    recentTimes times now = dropExpired minute now times := by
  rcases h with hminute | rfl
  · unfold recentTimes dropExpired
    congr 1
    funext t
    apply decide_eq_decide.mpr
    -- The cutoff is a real minute ago, and what lies at it is dropped by both.
    have hcutoff : minuteBefore now = now-minute := if_pos hminute
    rw [hcutoff]
    unfold minute at hminute ⊢
    omega
  · rfl

theorem acceptedTimes_concat (hist : List (Event σ ℕ ρ)) (e : Event σ ℕ ρ) :
    acceptedTimes ok (hist ++ [e]) =
      acceptedTimes ok hist ++ if ok e.reply then [e.input] else [] := by
  unfold acceptedTimes
  rw [List.filterMap_append]
  by_cases h : ok e.reply
  · simp [h]
  · simp [h]

theorem RespectsLimit.concat {maximum : ℕ} {hist : List (Event σ ℕ ρ)} {e : Event σ ℕ ρ}
    (h : RespectsLimit maximum ok hist)
    (hsparse : Sparse minute maximum (acceptedTimes ok (hist ++ [e])))
    (hrefused : ¬ok e.reply →
      maximum ≤ ((acceptedTimes ok hist).filter fun t => InWindow minute e.input t).length) :
    RespectsLimit maximum ok (hist ++ [e]) := by
  refine ⟨hsparse, ?_⟩
  intro before x after hsplit hno
  rcases split_concat hsplit with ⟨rfl, rfl⟩ | ⟨after', rfl⟩
  · exact hrefused hno
  · exact h.2 before x after' rfl hno

/-- One call that loses nothing keeps the queue to the accepted times of the last minute. -/
theorem Reconfigures.held_call (hg : Reconfigures ε config I step queue ok) {s : σ} (hI : I s)
    {hist : List (Event σ ℕ ρ)} {now : ℕ}
    (hheld : Held minute (acceptedTimes ok hist) now (queue s))
    (hrespects : RespectsLimit config.maxReconfigurePerMinute.toNat ok hist)
    (hloses : minute ≤ now ∨ queue s = []) :
    Held minute (acceptedTimes ok (hist ++ [event step s now])) now (queue (step s now).2) ∧
    RespectsLimit config.maxReconfigurePerMinute.toNat ok (hist ++ [event step s now]) := by
  have hrecent := recentTimes_eq_dropExpired hloses
  have hcount := hheld.filter_eq
  have hdrop := hheld.drop
  obtain ⟨hqueue, hok⟩ := hg.asked s now hI
  rw [hqueue]
  rcases noteReconfigureTimes_cases (ε := ε) config (queue s) now with
    ⟨hlimit, hnote⟩ | ⟨hroom, hnote⟩
  · have hno : ¬ok (step s now).1 := by
      rw [hok, hnote]
      simp
    -- A refused call is recorded nowhere, and the full minute is what refused it.
    have htimes : acceptedTimes ok (hist ++ [event step s now]) = acceptedTimes ok hist := by
      rw [acceptedTimes_concat]
      simp [event, hno]
    refine ⟨?_, hrespects.concat (htimes ▸ hrespects.1) ?_⟩
    · rw [htimes, hnote, hrecent]
      exact hdrop
    · intro _
      show config.maxReconfigurePerMinute.toNat ≤ List.length (List.filter
        (fun t => decide (InWindow minute now t)) (acceptedTimes ok hist))
      rwa [hcount, ← hrecent]
  · have hyes : ok (step s now).1 := by
      rw [hok, hnote]
    have htimes : acceptedTimes ok (hist ++ [event step s now]) =
        acceptedTimes ok hist ++ [now] := by
      rw [acceptedTimes_concat]
      simp [event, hyes]
    refine ⟨?_, hrespects.concat ?_ (fun hno => absurd hyes hno)⟩
    · rw [htimes, hnote, hrecent]
      exact hdrop.push
    · rw [htimes]
      apply hrespects.1.push hheld.past
      rwa [hcount, ← hrecent]

/-- A call behind the first minute of the clock, or one that finds no recorded time. -/
def LosesNothing (queue : σ → List ℕ) (e : Event σ ℕ ρ) : Prop :=
  minute ≤ e.input ∨ queue e.pre = []

theorem Reconfigures.held (hg : Reconfigures ε config I step queue ok) (hI : I s)
    (hs : queue s = []) (instants : List ℕ) (hsorted : instants.Pairwise (· ≤ ·))
    (hkept : ∀ e ∈ trace step s instants, LosesNothing queue e) (clock : ℕ)
    (hclock : ∀ now ∈ instants, now ≤ clock) :
    Held minute (acceptedTimes ok (trace step s instants)) clock (queue (run step s instants)) ∧
    RespectsLimit config.maxReconfigurePerMinute.toNat ok (trace step s instants) := by
  induction instants using List.reverseRecOn generalizing clock with
  | nil =>
    rw [trace_nil, run_nil, hs]
    refine ⟨held_nil minute clock, fun t => Nat.zero_le _, ?_⟩
    intro before e after hsplit
    exact absurd hsplit.symm (by simp)
  | append_singleton instants now ih =>
    obtain ⟨hbefore, -, hlast⟩ := List.pairwise_append.mp hsorted
    rw [trace_concat] at hkept
    have hnow := hclock now (List.mem_append_right _ (List.mem_singleton_self now))
    -- No call before this one was later.
    obtain ⟨hheld, hrespects⟩ := ih hbefore (fun e he => hkept e (List.mem_append_left _ he)) now
      fun t ht => hlast t ht now (List.mem_singleton_self now)
    have hloses : minute ≤ now ∨ queue (run step s instants) = [] :=
      hkept _ (List.mem_append_right _ (List.mem_singleton_self _))
    obtain ⟨hheld, hrespects⟩ :=
      hg.held_call (run_invariant step hg.keeps hI instants) hheld hrespects hloses
    rw [trace_concat, run_concat]
    exact ⟨hheld.later hnow, hrespects⟩

/-- Before the clock has run for a minute all recorded times are dropped, and a storm of calls at
one instant is let through. -/
theorem Reconfigures.storm (hg : Reconfigures ε config I step queue ok) (hI : I s) {now : ℕ}
    (hs : ∀ t ∈ queue s, t ≤ now) (hmaximum : 0 < config.maxReconfigurePerMinute.toNat)
    (hearly : now < minute) (n : ℕ) :
    acceptedTimes ok (trace step s (List.replicate n now)) = List.replicate n now := by
  induction n generalizing s with
  | zero => rfl
  | succ n ih =>
    -- There is no instant a minute ago: the cutoff falls back to the call's own instant.
    have hcutoff : minuteBefore now = now := if_neg (Nat.not_le.mpr hearly)
    have hgone : recentTimes (queue s) now = [] := by
      unfold recentTimes
      rw [List.dropWhile_eq_nil_iff, hcutoff]
      intro t ht
      exact decide_eq_true (hs t ht)
    obtain ⟨hqueue, hok⟩ := hg.asked s now hI
    have hnote : noteReconfigureTimes (ε := ε) config (queue s) now = (.ok (), [now]) := by
      rcases noteReconfigureTimes_cases (ε := ε) config (queue s) now with
        ⟨hlimit, -⟩ | ⟨-, hnote⟩
      · rw [hgone, List.length_nil] at hlimit
        omega
      · rwa [hgone] at hnote
    have hyes : ok (step s now).1 := by
      rw [hok, hnote]
    have hnext := ih (hg.keeps s now hI) (by rw [hqueue, hnote]; simp)
    have hhead : acceptedTimes ok (trace step s (List.replicate (n+1) now)) =
        now :: acceptedTimes ok (trace step (step s now).2 (List.replicate n now)) := by
      simp [acceptedTimes, List.replicate_succ, event, hyes]
    rw [hhead, hnext, List.replicate_succ]

theorem Reconfigures.not_respectsLimit (hg : Reconfigures ε config I step queue ok) (hI : I s)
    (hs : queue s = []) (hmaximum : 0 < config.maxReconfigurePerMinute.toNat) {now : ℕ}
    (hearly : now < minute) :
    ¬RespectsLimit config.maxReconfigurePerMinute.toNat ok
      (trace step s (List.replicate (config.maxReconfigurePerMinute.toNat+1) now)) := by
  intro h
  have hcount := h.1 now
  have hin : InWindow minute now now := by
    unfold InWindow minute
    omega
  rw [hg.storm hI (by simp [hs]) hmaximum hearly, List.filter_replicate,
    if_pos (by simpa using hin), List.length_replicate] at hcount
  omega

end Limit

section Ends
variable {P : TrackingProtocol}

/-- The reply of a call that was let through. -/
def Passed (reply : Except P.Failure Unit) : Prop := reply.isOk

instance : DecidablePred (Passed (P := P)) := fun reply => inferInstanceAs (Decidable (reply.isOk))

theorem passed_iff (reply : Except P.Failure Unit) : Passed reply ↔ reply = .ok () := by
  cases reply with
  | error e => simp [Passed, Except.isOk, Except.toBool]
  | ok u => simp [Passed, Except.isOk, Except.toBool]

theorem Publisher.reconfigures (config : BindingConfig) :
    Reconfigures P.Error config (fun p : Publisher P => p.config = config)
      Publisher.noteReconfigure Publisher.reconfigureTimes Passed := by
  have hcases (p : Publisher P) (now : ℕ) := noteReconfigureTimes_cases (ε := P.Error) p.config
    p.reconfigureTimes now
  refine ⟨?_, ?_⟩
  · intro p now hp
    unfold Publisher.noteReconfigure
    rcases hcases p now with ⟨-, hnote⟩ | ⟨-, hnote⟩
    · rw [hnote]
      exact hp
    · rw [hnote]
      exact hp
  · intro p now hp
    rw [passed_iff, ← hp]
    unfold Publisher.noteReconfigure
    rcases hcases p now with ⟨-, hnote⟩ | ⟨-, hnote⟩
    · simp [hnote]
    · simp [hnote]

theorem Subscriber.reconfigures (config : BindingConfig) :
    Reconfigures P.Error config (fun c : Subscriber P => c.config = config)
      Subscriber.noteReconfigure Subscriber.reconfigureTimes Passed := by
  have hcases (c : Subscriber P) (now : ℕ) := noteReconfigureTimes_cases (ε := P.Error) c.config
    c.reconfigureTimes now
  refine ⟨?_, ?_⟩
  · intro c now hc
    unfold Subscriber.noteReconfigure
    rcases hcases c now with ⟨-, hnote⟩ | ⟨-, hnote⟩
    · rw [hnote]
      exact hc
    · rw [hnote]
      exact hc
  · intro c now hc
    rw [passed_iff, ← hc]
    unfold Subscriber.noteReconfigure
    rcases hcases c now with ⟨-, hnote⟩ | ⟨-, hnote⟩
    · simp [hnote]
    · simp [hnote]

/-- The limit of either end holds along every run in which no call loses a recorded time, and at an
instant before the clock has run for a minute a storm of calls breaks it. -/
theorem reconfigure_limit_if_none_lost (p : Publisher P) (c : Subscriber P)
    (hp : p.reconfigureTimes = []) (hc : c.reconfigureTimes = []) :
    ((∀ instants : List ℕ, instants.Pairwise (· ≤ ·) →
      (∀ e ∈ trace Publisher.noteReconfigure p instants,
        LosesNothing Publisher.reconfigureTimes e) →
      RespectsLimit p.config.maxReconfigurePerMinute.toNat Passed
        (trace Publisher.noteReconfigure p instants)) ∧
      ∀ now < minute, 0 < p.config.maxReconfigurePerMinute.toNat →
        ¬RespectsLimit p.config.maxReconfigurePerMinute.toNat Passed
          (trace Publisher.noteReconfigure p
            (List.replicate (p.config.maxReconfigurePerMinute.toNat+1) now))) ∧
    (∀ instants : List ℕ, instants.Pairwise (· ≤ ·) →
      (∀ e ∈ trace Subscriber.noteReconfigure c instants,
        LosesNothing Subscriber.reconfigureTimes e) →
      RespectsLimit c.config.maxReconfigurePerMinute.toNat Passed
        (trace Subscriber.noteReconfigure c instants)) ∧
      ∀ now < minute, 0 < c.config.maxReconfigurePerMinute.toNat →
        ¬RespectsLimit c.config.maxReconfigurePerMinute.toNat Passed
          (trace Subscriber.noteReconfigure c
            (List.replicate (c.config.maxReconfigurePerMinute.toNat+1) now)) := by
  have hclock (instants : List ℕ) : ∃ clock, ∀ now ∈ instants, now ≤ clock :=
    ⟨instants.sum, fun now hnow => List.le_sum_of_mem hnow⟩
  have hpublisher := Publisher.reconfigures (P := P) p.config
  have hsubscriber := Subscriber.reconfigures (P := P) c.config
  refine ⟨⟨?_, ?_⟩, ?_, ?_⟩
  · intro instants hsorted hkept
    obtain ⟨clock, hle⟩ := hclock instants
    exact (hpublisher.held rfl hp instants hsorted hkept clock hle).2
  · intro now hearly hmaximum
    exact hpublisher.not_respectsLimit rfl hp hmaximum hearly
  · intro instants hsorted hkept
    obtain ⟨clock, hle⟩ := hclock instants
    exact (hsubscriber.held rfl hc instants hsorted hkept clock hle).2
  · intro now hearly hmaximum
    exact hsubscriber.not_respectsLimit rfl hc hmaximum hearly

end Ends

section Examples
open MutsukiLink.Ntp.Sample

/-- A minute of calls, one each ten seconds, and one more, from the second minute of the clock
on. -/
theorem reconfigure_limit_minute :
    ∃ p c, newPublisher = .ok p ∧ newSubscriber = .ok c ∧
      RespectsLimit 6 Passed (trace Publisher.noteReconfigure p
        ((List.range 7).map fun i => minute+i*10000000000)) ∧
      ¬RespectsLimit 6 Passed (trace Subscriber.noteReconfigure c (List.replicate 7 0)) := by
  obtain ⟨p, hpublisher, hp, hsix⟩ : ∃ p, newPublisher = .ok p ∧ p.reconfigureTimes = [] ∧
      p.config.maxReconfigurePerMinute = 6 := ⟨_, rfl, rfl, rfl⟩
  obtain ⟨c, hsubscriber, hc, hsix'⟩ : ∃ c, newSubscriber = .ok c ∧ c.reconfigureTimes = [] ∧
      c.config.maxReconfigurePerMinute = 6 := ⟨_, rfl, rfl, rfl⟩
  have hlimit := reconfigure_limit_if_none_lost p c hp hc
  rw [hsix, hsix'] at hlimit
  refine ⟨p, c, hpublisher, hsubscriber, hlimit.1.1 _ ?_ ?_, hlimit.2.2 0 (by decide) (by decide)⟩
  · decide
  · intro e he
    obtain ⟨js, now, ks, hsplit, rfl⟩ := event_split Publisher.noteReconfigure he
    have hmem : now ∈ (List.range 7).map fun i => minute+i*10000000000 := by
      rw [hsplit]
      exact List.mem_append_right _ List.mem_cons_self
    obtain ⟨i, -, rfl⟩ := List.mem_map.mp hmem
    exact Or.inl (Nat.le_add_right _ _)

/-- Seven calls at the start of the clock are all let through, where six are allowed a minute. -/
theorem reconfigure_limit_broken :
    ∃ p : Publisher trackingProtocol, newPublisher = .ok p ∧
      p.config.maxReconfigurePerMinute = 6 ∧
      ¬RespectsLimit 6 Passed (trace Publisher.noteReconfigure p (List.replicate 7 0)) := by
  have hpublisher := Publisher.reconfigures (P := trackingProtocol) {}
  refine ⟨_, rfl, rfl, ?_⟩
  exact hpublisher.not_respectsLimit rfl rfl (by decide) (by decide)

end Examples

end MutsukiLink.Ntp
