import MutsukiLink.NtpConnection
import MutsukiLink.RunHistory
import MutsukiLink.SaturatingWords

/-! The clock of the producer as the receiver of pongs estimates it (`ClockSynchronizer`). -/
namespace MutsukiLink.Ntp
open RunHistory

structure ProducerClockEstimate where
  nowNs : UInt64
  uncertaintyNs : UInt64
deriving DecidableEq, Repr

namespace ClockSynchronizer

def estimate (clock : ClockSynchronizer) (receiverNowNs : UInt64) :
    Option ProducerClockEstimate :=
  match clock.offset, clock.uncertainty with
  | some offset, some uncertainty =>
    -- A `u64` and the difference of two do not saturate an `i128`.
    let mapped := (receiverNowNs.toNat : ℤ)+offset
    some ⟨if mapped ≤ 0 then 0 else .clamp mapped.toNat, uncertainty⟩
  | _, _ => none

def uncertaintyNs (clock : ClockSynchronizer) : Option UInt64 := clock.uncertainty

end ClockSynchronizer

/-- A ping and its pong between two clocks without drift: the producer reads `offset` more than
the receiver, and it sends the pong when the receiver reads `moment`. -/
structure PingExchange where
  sent : UInt64
  received : UInt64
  producerSent : UInt64
  offset : ℤ
  moment : ℕ
  sent_le : sent.toNat ≤ moment
  le_received : moment ≤ received.toNat
  reads : (producerSent.toNat : ℤ) = moment+offset
  /-- The producer's reading at the receipt is estimated within a `u64`. -/
  fits : producerSent.toNat+(received.toNat-sent.toNat)/2 < 2^64

namespace PingExchange
variable (x : PingExchange)

/-- Half the round trip, rounded down. -/
def half : ℕ := (x.received.toNat-x.sent.toNat)/2

/-- What the exchange adds to a reading of the receiver. -/
def mapping : ℤ := (x.producerSent.toNat : ℤ)+x.half-x.received.toNat

variable {ε : Type}

/-- The clock after the exchange. -/
def exchanged (clock : ClockSynchronizer) :
    Except (BindingError ε) Unit × ClockSynchronizer :=
  (clock.notePing x.sent).notePong x.sent x.producerSent x.received

theorem exchanged_eq (clock : ClockSynchronizer) :
    x.exchanged (ε := ε) clock = (.ok (), {
      pendingPing := none
      offset := some x.mapping
      uncertainty := some (UInt64.ofNat x.half) }) := by
  have hle := x.sent_le.trans x.le_received
  -- The pong answers the ping that is pending and is not received before it was sent.
  have hguard : ¬((clock.notePing x.sent).pendingPing ≠ some x.sent ∨ x.received < x.sent) := by
    rintro (hother | horder)
    · exact hother rfl
    · rw [UInt64.lt_iff_toNat_lt] at horder
      omega
  have hsum : saturatingAdd x.producerSent.toNat x.half = x.producerSent.toNat+x.half := by
    have hfits := x.fits
    unfold half saturatingAdd
    omega
  unfold exchanged ClockSynchronizer.notePong
  rw [if_neg hguard]
  show (_, ClockSynchronizer.mk none
    (some ((saturatingAdd x.producerSent.toNat x.half : ℤ)-x.received.toNat)) _) = _
  rw [hsum, mapping, Int.natCast_add]
  rfl

theorem toNat_half : (UInt64.ofNat x.half).toNat = x.half := by
  apply UInt64.toNat_ofNat_of_lt'
  have hreceived := x.received.toNat_lt
  unfold half
  show (x.received.toNat-x.sent.toNat)/2 < 2^64
  omega

/-- Where nothing is clamped the estimate is the mapped reading. -/
theorem estimate_exchanged (clock : ClockSynchronizer) {t : UInt64}
    (hlow : 0 ≤ (t.toNat : ℤ)+x.mapping) (hhigh : (t.toNat : ℤ)+x.mapping < 2^64) :
    ∃ now : UInt64, (x.exchanged (ε := ε) clock).2.estimate t =
        some ⟨now, UInt64.ofNat x.half⟩ ∧ (now.toNat : ℤ) = t.toNat+x.mapping := by
  rw [exchanged_eq]
  refine ⟨_, rfl, ?_⟩
  -- Zero is reached by the clamp and by the reading alike.
  by_cases hzero : (t.toNat : ℤ)+x.mapping ≤ 0
  · rw [if_pos hzero]
    show (0 : ℤ) = _
    omega
  · rw [if_neg hzero, UInt64.toNat_clamp]
    unfold UInt64.maxNat
    omega

/-- The true time differs from the estimate by what the way back took more than half of the round
trip. -/
theorem error_le_half_iff (t : UInt64) :
    (((t.toNat : ℤ)+x.offset)-(t.toNat+x.mapping)).natAbs ≤ x.half ↔
      ¬((x.received.toNat-x.sent.toNat)%2 = 1 ∧ x.moment = x.sent.toNat) := by
  have hreads := x.reads
  have hsent := x.sent_le
  have hreceived := x.le_received
  unfold mapping half
  omega

end PingExchange

inductive ClockCall where
  | ping (receiverSendNs : UInt64)
  | pong (receiverSendNs producerSendNs receiverReceiveNs : UInt64)

namespace ClockSynchronizer
variable {ε : Type}

def step (ε : Type) (clock : ClockSynchronizer) :
    ClockCall → Except (BindingError ε) Unit × ClockSynchronizer
  | .ping s => (.ok (), clock.notePing s)
  | .pong s p r => clock.notePong s p r

/-- The latest ping of the history was sent at `s`, and no pong was accepted since. -/
def Unanswered (hist : List (Event ClockSynchronizer ClockCall (Except (BindingError ε) Unit)))
    (s : UInt64) : Prop :=
  ∃ before e between, hist = before ++ e :: between ∧ e.input = .ping s ∧
    ∀ x ∈ between, x.reply ≠ .ok ()

theorem notePong_cases (clock : ClockSynchronizer) (s p r : UInt64) :
    (clock.notePong (ε := ε) s p r = (.error .invalidControl, clock)) ∨
    (clock.pendingPing = some s ∧ (clock.notePong (ε := ε) s p r).1 = .ok () ∧
      (clock.notePong (ε := ε) s p r).2.pendingPing = none) := by
  unfold notePong
  by_cases hguard : clock.pendingPing ≠ some s ∨ r < s
  · exact Or.inl (if_pos hguard)
  · rw [if_neg hguard]
    push Not at hguard
    exact Or.inr ⟨hguard.1, rfl, rfl⟩

theorem pendingPing_unanswered (calls : List ClockCall) (s : UInt64)
    (h : (run (step ε) {} calls).pendingPing = some s) :
    Unanswered (trace (step ε) {} calls) s := by
  revert s
  refine run_history (step ε) (P := fun hist clock =>
    ∀ s, clock.pendingPing = some s → Unanswered hist s) ?_ ?_ calls
  · intro s hs
    cases hs
  · intro hist clock call ih s hs
    cases call with
    | ping sent =>
      obtain rfl := Option.some.inj hs
      refine ⟨hist, _, [], rfl, rfl, ?_⟩
      intro x hx
      exact absurd hx List.not_mem_nil
    | pong sent producerSent received =>
      rcases notePong_cases (ε := ε) clock sent producerSent received with hrefused | ⟨-, -, hnone⟩
      · -- A pong that is refused stands behind the ping that is still pending.
        have hclock : clock.pendingPing = some s := by
          simpa only [step, hrefused] using hs
        obtain ⟨before, e, between, rfl, hping, hbetween⟩ := ih s hclock
        refine ⟨before, e, between ++ [event (step ε) clock (.pong sent producerSent received)],
          by simp, hping, ?_⟩
        intro x hx
        rcases List.mem_append.mp hx with hx | hx
        · exact hbetween x hx
        · obtain rfl := List.mem_singleton.mp hx
          simp [event, step, hrefused]
      · have hgone : (clock.notePong (ε := ε) sent producerSent received).2.pendingPing =
            some s := hs
        rw [hnone] at hgone
        cases hgone

end ClockSynchronizer

/-- The estimate is off by no more than the uncertainty, unless the round trip is odd and the
producer answered at the very moment of the ping; and only an answer to the latest unanswered ping
changes it. -/
theorem clock_estimate_iff (ε : Type) :
    (∀ (x : PingExchange) (clock : ClockSynchronizer) (t : UInt64),
      0 ≤ (t.toNat : ℤ)+x.mapping → (t.toNat : ℤ)+x.mapping < 2^64 →
      ∃ estimate uncertaintyNs, (x.exchanged (ε := ε) clock).2.estimate t = some estimate ∧
        (x.exchanged (ε := ε) clock).2.uncertaintyNs = some uncertaintyNs ∧
        ((((t.toNat : ℤ)+x.offset)-estimate.nowNs.toNat).natAbs ≤ uncertaintyNs.toNat ↔
          ¬((x.received.toNat-x.sent.toNat)%2 = 1 ∧ x.moment = x.sent.toNat))) ∧
    ∀ calls s p r,
      ¬ClockSynchronizer.Unanswered (trace (ClockSynchronizer.step ε) {} calls) s →
      ((run (ClockSynchronizer.step ε) {} calls).notePong (ε := ε) s p r).2 =
        run (ClockSynchronizer.step ε) {} calls := by
  constructor
  · intro x clock t hlow hhigh
    obtain ⟨now, hestimate, hnow⟩ := x.estimate_exchanged (ε := ε) clock hlow hhigh
    refine ⟨_, UInt64.ofNat x.half, hestimate, ?_, ?_⟩
    · rw [x.exchanged_eq]
      rfl
    · rw [hnow, x.toNat_half]
      exact x.error_le_half_iff t
  · intro calls s p r hanswered
    rcases ClockSynchronizer.notePong_cases (ε := ε) (run (ClockSynchronizer.step ε) {} calls)
      s p r with hrefused | ⟨hpending, -, -⟩
    · rw [hrefused]
    · exact absurd (ClockSynchronizer.pendingPing_unanswered calls s hpending) hanswered

/-- A ping at 0, answered at 0 by a producer whose clock reads the same, with the pong received
at 1. -/
def answeredAtOnce : PingExchange where
  sent := 0
  received := 1
  producerSent := 0
  offset := 0
  moment := 0
  sent_le := by decide
  le_received := by decide
  reads := by decide
  fits := by decide

/-- The estimate at 1 is 0 with no uncertainty, and the producer's clock reads 1. -/
theorem clock_estimate_off_by_one :
    (answeredAtOnce.exchanged (ε := Unit) {}).2.estimate 1 = some ⟨0, 0⟩ ∧
      (answeredAtOnce.exchanged (ε := Unit) {}).2.uncertaintyNs = some 0 ∧
      ¬((((1 : UInt64).toNat : ℤ)+answeredAtOnce.offset)-(0 : UInt64).toNat).natAbs ≤
        (0 : UInt64).toNat := by
  refine ⟨?_, ?_, by decide⟩
  · decide
  · decide

/-- A ping at 0 that is answered at 2 by a producer whose clock reads 100 more, with the pong
received at 3. -/
def answeredLate : PingExchange where
  sent := 0
  received := 3
  producerSent := 102
  offset := 100
  moment := 2
  sent_le := by decide
  le_received := by decide
  reads := by decide
  fits := by decide

theorem clock_estimate_odd_round_trip :
    ∃ estimate uncertaintyNs, (answeredLate.exchanged (ε := Unit) {}).2.estimate 5 = some estimate ∧
      (answeredLate.exchanged (ε := Unit) {}).2.uncertaintyNs = some uncertaintyNs ∧
      ((((5 : UInt64).toNat : ℤ)+answeredLate.offset)-estimate.nowNs.toNat).natAbs ≤
        uncertaintyNs.toNat := by
  obtain ⟨estimate, uncertaintyNs, hestimate, huncertainty, hbound⟩ :=
    (clock_estimate_iff Unit).1 answeredLate {} 5 (by decide) (by decide)
  exact ⟨estimate, uncertaintyNs, hestimate, huncertainty, hbound.mpr (by decide)⟩

end MutsukiLink.Ntp
