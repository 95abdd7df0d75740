import MutsukiLink.NtpReconfigure
import MutsukiLink.SaturatingWords
import MutsukiLink.TumblingWindow

/-! The frame rates of either end, over runs of `note_frame` and `note_received_frame`. -/
namespace MutsukiLink.Ntp
open RunHistory
open SlidingWindow (InWindow)
open TumblingWindow (Window Counts Short Spared allow)

def second : ℕ := 1000000000

/-- The two windows of either end. -/
structure FrameBudgets where
  frameStarted : ℕ
  frameCount : UInt16
  sustainedStarted : ℕ
  sustainedCount : UInt32

namespace FrameBudgets

/-- What `note_frame` and `note_received_frame` do with their windows. -/
def note (b : FrameBudgets) (maxBurstFps targetFps : UInt16) (now : ℕ) : Bool × FrameBudgets :=
  let b := if second ≤ now-b.frameStarted then { b with frameStarted := now, frameCount := 0 }
    else b
  -- The window that ends is forgotten even when the frame is refused.
  if maxBurstFps ≤ b.frameCount then (false, b)
  else
    let b := if 10*second ≤ now-b.sustainedStarted then
        { b with sustainedStarted := now, sustainedCount := 0 }
      else b
    -- Ten times a `u16` does not saturate a `u32`.
    if targetFps.toNat*10 ≤ b.sustainedCount.toNat then (false, b)
    else (true, { b with
      frameCount := UInt16.ofNat (min (b.frameCount.toNat+1) (2^16-1))
      sustainedCount := UInt32.ofNat (min (b.sustainedCount.toNat+1) (2^32-1)) })

end FrameBudgets

/-- A subscriber with the windows of the frames it receives. -/
structure ReceivingSubscriber (P : TrackingProtocol) extends Subscriber P where
  receiveWindowStarted : ℕ
  receiveWindowCount : UInt16
  sustainedReceiveWindowStarted : ℕ
  sustainedReceiveCount : UInt32

namespace ReceivingSubscriber
variable {σ : Type} {P : TrackingProtocol}

/-- Each frame window reads the clock. -/
def new (connection : NtpConnection σ) (s : σ) (metadata : ConnectionMetadata)
    (authorization : NtpAuthorization) (config : BindingConfig) (now later : ℕ) :
    Except P.Failure (ReceivingSubscriber P) :=
  match Subscriber.new connection s metadata authorization config with
  | .error e => .error e
  | .ok c => .ok { c with
      receiveWindowStarted := now, receiveWindowCount := 0
      sustainedReceiveWindowStarted := later, sustainedReceiveCount := 0 }

def budgets (c : ReceivingSubscriber P) : FrameBudgets :=
  ⟨c.receiveWindowStarted, c.receiveWindowCount, c.sustainedReceiveWindowStarted,
    c.sustainedReceiveCount⟩

def withBudgets (c : ReceivingSubscriber P) (b : FrameBudgets) : ReceivingSubscriber P :=
  { c with
    receiveWindowStarted := b.frameStarted, receiveWindowCount := b.frameCount
    sustainedReceiveWindowStarted := b.sustainedStarted
    sustainedReceiveCount := b.sustainedCount }

def noteReceivedFrame (c : ReceivingSubscriber P) (now : ℕ) (targetFps : UInt16) :
    Except P.Failure Unit × ReceivingSubscriber P :=
  match c.budgets.note c.config.maxBurstFps targetFps now with
  | (true, budgets) => (.ok (), c.withBudgets budgets)
  -- A refused frame is counted as limited and, in the report, as dropped.
  | (false, budgets) => (.error .rateLimited, { c.withBudgets budgets with
      rateLimited := saturatingAdd c.rateLimited 1
      report := { c.report with dropped := c.report.dropped.saturatingAdd 1 } })

end ReceivingSubscriber

namespace FrameBudgets

def frames (b : FrameBudgets) : Window := ⟨b.frameStarted, b.frameCount.toNat⟩

def sustained (b : FrameBudgets) : Window := ⟨b.sustainedStarted, b.sustainedCount.toNat⟩

theorem toNat_frameCount_succ {a b : UInt16} (h : ¬b ≤ a) :
    (UInt16.ofNat (min (a.toNat+1) (2^16-1))).toNat = a.toNat+1 := by
  have hb := b.toNat_lt
  have hlt : ¬b.toNat ≤ a.toNat := fun hle => h (UInt16.le_iff_toNat_le.mpr hle)
  rw [Nat.min_eq_left (by omega)]
  apply UInt16.toNat_ofNat_of_lt'
  show a.toNat+1 < 2^16
  omega

theorem toNat_sustainedCount_succ {a : UInt32} {targetFps : UInt16}
    (h : ¬targetFps.toNat*10 ≤ a.toNat) :
    (UInt32.ofNat (min (a.toNat+1) (2^32-1))).toNat = a.toNat+1 := by
  -- Ten times a 16-bit rate is far below the end of the 32-bit count.
  have hfps := targetFps.toNat_lt
  rw [Nat.min_eq_left (by omega)]
  apply UInt32.toNat_ofNat_of_lt'
  show a.toNat+1 < 2^32
  omega

/-- The counts stay below the ends of their words, so the words count as numbers do. -/
theorem note_eq_allow (b : FrameBudgets) (maxBurstFps targetFps : UInt16) (now : ℕ) :
    ((b.note maxBurstFps targetFps now).1, (b.note maxBurstFps targetFps now).2.frames,
      (b.note maxBurstFps targetFps now).2.sustained) =
    allow second maxBurstFps.toNat (10*second) (10*targetFps.toNat) now b.frames b.sustained := by
  obtain ⟨f, c, g, d⟩ := b
  -- The words after the windows have been rolled.
  obtain ⟨f', c', hroll, hframes⟩ : ∃ f' c',
      (if second ≤ now-f then FrameBudgets.mk now 0 g d else ⟨f, c, g, d⟩) = ⟨f', c', g, d⟩ ∧
      Window.roll second now ⟨f, c.toNat⟩ = ⟨f', c'.toNat⟩ := by
    by_cases hover : second ≤ now-f
    · exact ⟨now, 0, if_pos hover, if_pos hover⟩
    · exact ⟨f, c, if_neg hover, if_neg hover⟩
  obtain ⟨g', d', hroll', hsustained⟩ : ∃ g' d',
      (if 10*second ≤ now-g then FrameBudgets.mk f' c' now 0 else ⟨f', c', g, d⟩) =
        ⟨f', c', g', d'⟩ ∧
      Window.roll (10*second) now ⟨g, d.toNat⟩ = ⟨g', d'.toNat⟩ := by
    by_cases hover : 10*second ≤ now-g
    · exact ⟨now, 0, if_pos hover, if_pos hover⟩
    · exact ⟨g, d, if_neg hover, if_neg hover⟩
  unfold note allow frames sustained
  simp only [hroll, hroll', hframes, hsustained, UInt16.le_iff_toNat_le]
  by_cases hfull : maxBurstFps.toNat ≤ c'.toNat
  · simp only [hfull, if_true]
  · have hcount := toNat_frameCount_succ (mt UInt16.le_iff_toNat_le.mp hfull)
    rw [Nat.mul_comm 10 targetFps.toNat]
    by_cases hfull' : targetFps.toNat*10 ≤ d'.toNat
    · simp only [hfull, hfull', if_true, if_false]
    · have hcount' := toNat_sustainedCount_succ hfull'
      simp only [hfull, hfull', if_false, hcount, hcount', Window.use]

end FrameBudgets

section Ends
variable {P : TrackingProtocol}

def Publisher.budgets (p : Publisher P) : FrameBudgets :=
  ⟨p.frameWindowStarted, p.frameWindowCount, p.sustainedWindowStarted, p.sustainedFrameCount⟩

theorem Publisher.noteFrame_budgets (p : Publisher P) (now : ℕ) (targetFps : UInt16) :
    (Passed (p.noteFrame now targetFps).1 ↔
      (p.budgets.note p.config.maxBurstFps targetFps now).1 = true) ∧
    (p.noteFrame now targetFps).2.budgets =
      (p.budgets.note p.config.maxBurstFps targetFps now).2 ∧
    (p.noteFrame now targetFps).2.config = p.config := by
  -- The publisher after each of the two windows has been rolled, and its windows.
  have hroll (p : Publisher P) : ∃ p', (if 1000000000 ≤ now-p.frameWindowStarted then
        { p with frameWindowStarted := now, frameWindowCount := 0 } else p) = p' ∧
      (if second ≤ now-p.budgets.frameStarted then
        { p.budgets with frameStarted := now, frameCount := 0 } else p.budgets) = p'.budgets ∧
      p'.config = p.config := by
    by_cases hover : 1000000000 ≤ now-p.frameWindowStarted
    · exact ⟨_, if_pos hover, if_pos hover, rfl⟩
    · exact ⟨_, if_neg hover, if_neg hover, rfl⟩
  have hroll' (p : Publisher P) : ∃ p', (if 10*1000000000 ≤ now-p.sustainedWindowStarted then
        { p with sustainedWindowStarted := now, sustainedFrameCount := 0 } else p) = p' ∧
      (if 10*second ≤ now-p.budgets.sustainedStarted then
        { p.budgets with sustainedStarted := now, sustainedCount := 0 } else p.budgets) =
        p'.budgets ∧
      p'.config = p.config := by
    by_cases hover : 10*1000000000 ≤ now-p.sustainedWindowStarted
    · exact ⟨_, if_pos hover, if_pos hover, rfl⟩
    · exact ⟨_, if_neg hover, if_neg hover, rfl⟩
  obtain ⟨q, hq, hqbudgets, hqconfig⟩ := hroll p
  obtain ⟨r, hr, hrbudgets, hrconfig⟩ := hroll' q
  rw [passed_iff]
  unfold Publisher.noteFrame FrameBudgets.note
  rw [hq, hqbudgets, ← hqconfig]
  -- The short window refuses before the long one is rolled.
  by_cases hfull : q.config.maxBurstFps ≤ q.frameWindowCount
  · have hfull' : q.config.maxBurstFps ≤ q.budgets.frameCount := hfull
    simp only [if_pos hfull, if_pos hfull']
    exact ⟨by simp, rfl, trivial⟩
  · have hfull' : ¬q.config.maxBurstFps ≤ q.budgets.frameCount := hfull
    simp only [if_neg hfull, if_neg hfull']
    rw [hr, hrbudgets, ← hrconfig]
    by_cases hlimit : targetFps.toNat*10 ≤ r.sustainedFrameCount.toNat
    · have hlimit' : targetFps.toNat*10 ≤ r.budgets.sustainedCount.toNat := hlimit
      simp only [if_pos hlimit, if_pos hlimit']
      exact ⟨by simp, rfl, trivial⟩
    · have hlimit' : ¬targetFps.toNat*10 ≤ r.budgets.sustainedCount.toNat := hlimit
      simp only [if_neg hlimit, if_neg hlimit']
      exact ⟨by simp, rfl, trivial⟩

theorem ReceivingSubscriber.noteReceivedFrame_budgets (c : ReceivingSubscriber P) (now : ℕ)
    (targetFps : UInt16) :
    (Passed (c.noteReceivedFrame now targetFps).1 ↔
      (c.budgets.note c.config.maxBurstFps targetFps now).1 = true) ∧
    (c.noteReceivedFrame now targetFps).2.budgets =
      (c.budgets.note c.config.maxBurstFps targetFps now).2 ∧
    (c.noteReceivedFrame now targetFps).2.config = c.config := by
  rw [passed_iff]
  unfold ReceivingSubscriber.noteReceivedFrame
  rcases c.budgets.note c.config.maxBurstFps targetFps now with ⟨passed, budgets⟩
  cases passed with
  | true => exact ⟨by simp, rfl, rfl⟩
  | false => exact ⟨by simp, rfl, rfl⟩

end Ends

section Rates
variable {σ ρ : Type} {step : σ → ℕ → ρ × σ} {budgets : σ → FrameBudgets} {ok : ρ → Prop}
variable [DecidablePred ok] {burst targetFps : UInt16} {I : σ → Prop} {s : σ}

/-- An object that asks its two budgets at every call. -/
structure AsksBudgets (I : σ → Prop) (burst targetFps : UInt16) (step : σ → ℕ → ρ × σ)
    (budgets : σ → FrameBudgets) (ok : ρ → Prop) : Prop where
  keeps : ∀ s now, I s → I (step s now).2
  asked : ∀ s now, I s → (ok (step s now).1 ↔ ((budgets s).note burst targetFps now).1 = true) ∧
    budgets (step s now).2 = ((budgets s).note burst targetFps now).2

/-- No half-open interval of this length holds more of the instants. -/
def AtMostIn (length bound : ℕ) (accepted : List ℕ) : Prop :=
  ∀ a, (accepted.filter fun t => a ≤ t ∧ t < a+length).length ≤ bound ∧
    (accepted.filter fun t => a < t ∧ t ≤ a+length).length ≤ bound

/-- The frame rates over a history of calls. -/
structure KeepsRates (burst targetFps : ℕ) (ok : ρ → Prop) [DecidablePred ok]
    (budgets : σ → FrameBudgets) (hist : List (Event σ ℕ ρ)) : Prop where
  perSecond : AtMostIn second (2*burst) (acceptedTimes ok hist)
  perTenSeconds : AtMostIn (10*second) (20*targetFps) (acceptedTimes ok hist)
  refused : ∀ e ∈ hist, ¬ok e.reply →
    Spared second e.input (budgets e.pre).frames (budgets e.post).frames ∧
      Spared (10*second) e.input (budgets e.pre).sustained (budgets e.post).sustained
  accepted : ∀ before e after, hist = before ++ e :: after →
    ((acceptedTimes ok before).filter fun t => InWindow second e.input t).length < burst →
    ((acceptedTimes ok before).filter fun t => InWindow (10*second) e.input t).length <
      10*targetFps → ok e.reply

theorem Counts.atMostIn {length limit clock : ℕ} {accepted : List ℕ} {w : Window}
    (h : Counts length limit accepted clock w) : AtMostIn length (2*limit) accepted := by
  intro a
  refine ⟨h.spread _ ?_, h.spread _ ?_⟩
  · intro x y hx hy
    omega
  · intro x y hx hy
    omega

omit [DecidablePred ok] in
theorem AsksBudgets.allow_eq (hg : AsksBudgets I burst targetFps step budgets ok) (hI : I s)
    (now : ℕ) :
    (ok (step s now).1 ↔ (allow second burst.toNat (10*second) (10*targetFps.toNat) now
      (budgets s).frames (budgets s).sustained).1 = true) ∧
    (budgets (step s now).2).frames = (allow second burst.toNat (10*second) (10*targetFps.toNat)
      now (budgets s).frames (budgets s).sustained).2.1 ∧
    (budgets (step s now).2).sustained = (allow second burst.toNat (10*second)
      (10*targetFps.toNat) now (budgets s).frames (budgets s).sustained).2.2 := by
  obtain ⟨hok, hafter⟩ := hg.asked s now hI
  rw [hok, hafter, ← FrameBudgets.note_eq_allow]
  exact ⟨Iff.rfl, rfl, rfl⟩

/-- Along a run both windows count, and each call answers as they say. -/
theorem AsksBudgets.counts (hg : AsksBudgets I burst targetFps step budgets ok) (hI : I s)
    {clock : ℕ} (hframes : Counts second burst.toNat [] clock (budgets s).frames)
    (hsustained : Counts (10*second) (10*targetFps.toNat) [] clock (budgets s).sustained)
    (instants : List ℕ) (hsorted : (clock :: instants).Pairwise (· ≤ ·)) (now : ℕ)
    (hnow : ∀ t ∈ clock :: instants, t ≤ now) :
    Counts second burst.toNat (acceptedTimes ok (trace step s instants)) now
      (budgets (run step s instants)).frames ∧
    Counts (10*second) (10*targetFps.toNat) (acceptedTimes ok (trace step s instants)) now
      (budgets (run step s instants)).sustained := by
  induction instants using List.reverseRecOn generalizing now with
  | nil =>
    have hle := hnow clock List.mem_cons_self
    exact ⟨hframes.later hle, hsustained.later hle⟩
  | append_singleton instants last ih =>
    rw [← List.cons_append] at hsorted hnow
    obtain ⟨hbefore, -, hlast⟩ := List.pairwise_append.mp hsorted
    have hle := hnow last (List.mem_append_right _ (List.mem_singleton_self last))
    obtain ⟨hshort, hlong⟩ := ih hbefore last fun t ht =>
      hlast t ht last (List.mem_singleton_self last)
    obtain ⟨hok, hframes', hsustained'⟩ :=
      hg.allow_eq (run_invariant step hg.keeps hI instants) last
    have hcounts := TumblingWindow.allow_counts hshort hlong (le_refl last)
    have htimes : acceptedTimes ok (trace step s (instants ++ [last])) =
        acceptedTimes ok (trace step s instants) ++
          if ok (step (run step s instants) last).1 then [last] else [] := by
      rw [trace_concat, acceptedTimes_concat]
      rfl
    rw [run_concat, hframes', hsustained', htimes]
    simp only [hok]
    exact ⟨hcounts.1.later hle, hcounts.2.later hle⟩

theorem AsksBudgets.keepsRates (hg : AsksBudgets I burst targetFps step budgets ok) (hI : I s)
    {started later : ℕ} (hs : budgets s = ⟨started, 0, later, 0⟩) (instants : List ℕ)
    (hsorted : (started :: later :: instants).Pairwise (· ≤ ·)) :
    KeepsRates burst.toNat targetFps.toNat ok budgets (trace step s instants) := by
  obtain ⟨hfirst, hsorted⟩ := List.pairwise_cons.mp hsorted
  have hframes : Counts second burst.toNat [] later (budgets s).frames := by
    rw [hs]
    exact TumblingWindow.counts_new _ _ (hfirst later List.mem_cons_self)
  have hsustained : Counts (10*second) (10*targetFps.toNat) [] later (budgets s).sustained := by
    rw [hs]
    exact TumblingWindow.counts_new _ _ (le_refl later)
  have hclock : ∃ now, ∀ t ∈ later :: instants, t ≤ now :=
    ⟨(later :: instants).sum, fun t ht => List.le_sum_of_mem ht⟩
  obtain ⟨now, hnow⟩ := hclock
  obtain ⟨hshort, hlong⟩ := hg.counts hI hframes hsustained instants hsorted now hnow
  -- The bounds are read off the counts at the end of the run, the answers off those at each call.
  refine ⟨Counts.atMostIn hshort, ?_, ?_, ?_⟩
  · have hten : 2*(10*targetFps.toNat) = 20*targetFps.toNat := by omega
    rw [← hten]
    exact Counts.atMostIn hlong
  · intro e he hno
    obtain ⟨js, t, ks, -, rfl⟩ := event_split step he
    obtain ⟨hok, hframes', hsustained'⟩ := hg.allow_eq (run_invariant step hg.keeps hI js) t
    have hrefused := TumblingWindow.allow_refused (Bool.eq_false_iff.mpr (mt hok.mpr hno))
    rw [← hframes', ← hsustained'] at hrefused
    exact hrefused
  · intro before e after hsplit hsecond hten
    obtain ⟨js, t, ks, rfl, rfl, rfl, -⟩ := trace_cut step hsplit
    rw [← List.cons_append] at hsorted
    obtain ⟨hbefore, -, hlast⟩ := List.pairwise_append.mp hsorted
    obtain ⟨hshort', hlong'⟩ := hg.counts hI hframes hsustained js hbefore t fun x hx =>
      hlast x hx t List.mem_cons_self
    have hok := (hg.allow_eq (run_invariant step hg.keeps hI js) t).1
    exact hok.mpr (TumblingWindow.allow_of_recent hshort' hlong' (le_refl t) hsecond hten)

end Rates

section NewEnds
variable {σ : Type} {P : TrackingProtocol} {connection : NtpConnection σ} {s : σ}
variable {metadata : ConnectionMetadata} {authorization : NtpAuthorization}
variable {config : BindingConfig} {started later : ℕ}

theorem Publisher.asksBudgets (burst targetFps : UInt16) :
    AsksBudgets (fun p : Publisher P => p.config.maxBurstFps = burst) burst targetFps
      (fun p now => p.noteFrame now targetFps) Publisher.budgets Passed := by
  refine ⟨?_, ?_⟩
  · intro p now hp
    rw [(Publisher.noteFrame_budgets p now targetFps).2.2]
    exact hp
  · intro p now hp
    obtain ⟨hpassed, hbudgets, -⟩ := Publisher.noteFrame_budgets p now targetFps
    rw [← hp]
    exact ⟨hpassed, hbudgets⟩

theorem ReceivingSubscriber.asksBudgets (burst targetFps : UInt16) :
    AsksBudgets (fun c : ReceivingSubscriber P => c.config.maxBurstFps = burst) burst targetFps
      (fun c now => c.noteReceivedFrame now targetFps) ReceivingSubscriber.budgets Passed := by
  refine ⟨?_, ?_⟩
  · intro c now hc
    rw [(ReceivingSubscriber.noteReceivedFrame_budgets c now targetFps).2.2]
    exact hc
  · intro c now hc
    obtain ⟨hpassed, hbudgets, -⟩ :=
      ReceivingSubscriber.noteReceivedFrame_budgets c now targetFps
    rw [← hc]
    exact ⟨hpassed, hbudgets⟩

/-- A valid configuration is used as it is. -/
theorem validate_eq {valid : BindingConfig} {ε : Type}
    (h : config.validate = (.ok valid : Except (BindingError ε) BindingConfig)) :
    valid = config := by
  unfold BindingConfig.validate at h
  split at h
  · cases h
  · exact (Except.ok.inj h).symm

theorem Publisher.new_budgets {p : Publisher P}
    (h : Publisher.new connection s metadata authorization config started later = .ok p) :
    p.budgets = ⟨started, 0, later, 0⟩ ∧ p.config = config := by
  unfold Publisher.new at h
  split at h
  · cases h
  next valid hvalid =>
  split at h
  · cases h
  split at h
  · cases h
  · obtain rfl := Except.ok.inj h
    exact ⟨rfl, validate_eq hvalid⟩

theorem ReceivingSubscriber.new_budgets {c : ReceivingSubscriber P}
    (h : ReceivingSubscriber.new connection s metadata authorization config started later =
      .ok c) :
    c.budgets = ⟨started, 0, later, 0⟩ ∧ c.config = config := by
  unfold ReceivingSubscriber.new at h
  split at h
  · cases h
  next subscriber hsubscriber =>
  obtain rfl := Except.ok.inj h
  refine ⟨rfl, ?_⟩
  unfold Subscriber.new at hsubscriber
  split at hsubscriber
  · cases hsubscriber
  next valid hvalid =>
  split at hsubscriber
  · cases hsubscriber
  split at hsubscriber
  · cases hsubscriber
  split at hsubscriber
  · cases hsubscriber
  · obtain rfl := Except.ok.inj hsubscriber
    exact validate_eq hvalid

/-- The frame rates of a new publisher and of a new subscriber over any calls after it was made. -/
theorem frame_rates_are_kept (connection : NtpConnection σ) (s : σ) (metadata : ConnectionMetadata)
    (authorization : NtpAuthorization) (config : BindingConfig) (targetFps : UInt16)
    (started later : ℕ) (instants : List ℕ)
    (hsorted : (started :: later :: instants).Pairwise (· ≤ ·)) :
    (∀ p : Publisher P,
      Publisher.new connection s metadata authorization config started later = .ok p →
      KeepsRates config.maxBurstFps.toNat targetFps.toNat Passed Publisher.budgets
        (trace (fun p now => p.noteFrame now targetFps) p instants)) ∧
    ∀ c : ReceivingSubscriber P,
      ReceivingSubscriber.new connection s metadata authorization config started later = .ok c →
      KeepsRates config.maxBurstFps.toNat targetFps.toNat Passed ReceivingSubscriber.budgets
        (trace (fun c now => c.noteReceivedFrame now targetFps) c instants) := by
  constructor
  · intro p hnew
    obtain ⟨hbudgets, hconfig⟩ := Publisher.new_budgets hnew
    exact (Publisher.asksBudgets config.maxBurstFps targetFps).keepsRates
      (congrArg BindingConfig.maxBurstFps hconfig) hbudgets instants hsorted
  · intro c hnew
    obtain ⟨hbudgets, hconfig⟩ := ReceivingSubscriber.new_budgets hnew
    exact (ReceivingSubscriber.asksBudgets config.maxBurstFps targetFps).keepsRates
      (congrArg BindingConfig.maxBurstFps hconfig) hbudgets instants hsorted

end NewEnds

section Examples
open MutsukiLink.Ntp.Sample

/-- Three frames of a new publisher within a second. -/
theorem frame_rates_are_kept_three :
    ∃ p, newPublisher = .ok p ∧ KeepsRates 240 30 Passed Publisher.budgets
      (trace (fun p now => p.noteFrame now 30) p [0, 40000000, 80000000]) := by
  obtain ⟨p, hp⟩ : ∃ p, newPublisher = .ok p := ⟨_, rfl⟩
  exact ⟨p, hp, (frame_rates_are_kept endConnection connected ⟨some peer, true⟩
    ⟨peer, linkSession, .publisher⟩ {} 30 0 0 [0, 40000000, 80000000] (by decide)).1 p hp⟩

end Examples

end MutsukiLink.Ntp
