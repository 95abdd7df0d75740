import Mathlib.Logic.Function.Iterate
import MutsukiLink.ReconnectBudget

/-! The delays of the exponential backoff (`exponential_delay`, `jittered_delay`) as numbers, and
exactly when they grow and stay below the configured maximum. -/
namespace MutsukiLink
open UInt64

/-- One round of the growth, before anything is rounded to a word: the product saturates before the
division, so that no round leads above the greatest word divided by 1000. -/
def growth (config : ExponentialBackoff) (delay : ℕ) : ℕ :=
  min (delay*config.multiplierPerThousand.toNat/1000)
    (min (maxNat/1000) config.maximumDelayMs.toNat)

/-- The delay before jitter. -/
def nominalDelay (config : ExponentialBackoff) (attempts : ℕ) : ℕ :=
  (growth config)^[attempts] config.initialDelayMs.toNat

/-- How far below its nominal value the jitter can take a delay. -/
def jitterSpan (config : ExponentialBackoff) (base : ℕ) : ℕ :=
  min (base*config.jitterPerThousand.toNat) maxNat/1000

/-- How far a sample takes a delay up again from its lowest value. -/
def jitterOffset (config : ExponentialBackoff) (base : ℕ) (sample : UInt16) : ℕ :=
  min (2*(jitterSpan config base*min sample.toNat 1000)) maxNat/1000

theorem toNat_min (a b : UInt64) : (min a b).toNat = min a.toNat b.toNat := by
  show (if a ≤ b then a else b).toNat = _
  rcases Nat.le_total a.toNat b.toNat with h | h
  · rw [if_pos (UInt64.le_iff_toNat_le.mpr h), Nat.min_eq_left h]
  · split
    · next hab => exact (Nat.min_eq_left (UInt64.le_iff_toNat_le.mp hab)).symm
    · exact (Nat.min_eq_right h).symm

theorem toNat_min_sample (sample : UInt16) :
    (min sample 1000).toNat = min sample.toNat 1000 := by
  show (if sample ≤ 1000 then sample else 1000).toNat = _
  rcases Nat.lt_or_ge 1000 sample.toNat with h | h
  · have hgreat : ¬sample ≤ 1000 := UInt16.not_le.mpr (UInt16.lt_iff_toNat_lt.mpr h)
    rw [if_neg hgreat, Nat.min_eq_right h.le]
    rfl
  · rw [if_pos (UInt16.le_iff_toNat_le.mpr h), Nat.min_eq_left h]

theorem toNat_div_thousand (a : UInt64) : (a/1000).toNat = a.toNat/1000 := UInt64.toNat_div _ _

theorem min_div_thousand (a b : ℕ) : min a b/1000 = min (a/1000) (b/1000) := by omega

variable {config : ExponentialBackoff}

theorem exponential_delay_eq (config : ExponentialBackoff) (attempts : ℕ) :
    (exponentialDelay config attempts).toNat = nominalDelay config attempts := by
  induction attempts with
  | zero => rfl
  | succ n ih =>
    rw [nominalDelay, Function.iterate_succ_apply', ← nominalDelay, ← ih, exponentialDelay,
      toNat_min, toNat_div_thousand, toNat_saturatingMul, min_div_thousand, growth, min_assoc]
    rfl

/-- A round shrinks a delay exactly when the product saturates in spite of its small factor. -/
theorem le_growth_iff (hvalid : config.isValid = true) {delay : ℕ}
    (hmax : delay ≤ config.maximumDelayMs.toNat) :
    delay ≤ growth config delay ↔ delay ≤ maxNat/1000 := by
  simp only [ExponentialBackoff.isValid, Bool.and_eq_true, decide_eq_true_eq] at hvalid
  obtain ⟨⟨⟨⟨-, -⟩, hmultiplier⟩, -⟩, -⟩ := hvalid
  have hfactor : 1000 ≤ config.multiplierPerThousand.toNat := UInt32.le_iff_toNat_le.mp hmultiplier
  have hgrown : delay ≤ delay*config.multiplierPerThousand.toNat/1000 := by
    rw [Nat.le_div_iff_mul_le (by omega)]
    exact Nat.mul_le_mul_left delay hfactor
  unfold growth
  omega

theorem nominal_le_maximum (hvalid : config.isValid = true) (attempts : ℕ) :
    nominalDelay config attempts ≤ config.maximumDelayMs.toNat := by
  cases attempts with
  | zero =>
    simp only [ExponentialBackoff.isValid, Bool.and_eq_true, decide_eq_true_eq] at hvalid
    exact UInt64.le_iff_toNat_le.mp hvalid.1.1.1.2
  | succ n =>
    rw [nominalDelay, Function.iterate_succ_apply', growth]
    omega

/-- Only the configured first delay can be above the greatest saturated quotient. -/
theorem nominal_mono_iff (hvalid : config.isValid = true) (attempts : ℕ) :
    nominalDelay config attempts ≤ nominalDelay config (attempts+1) ↔
      0 < attempts ∨ config.initialDelayMs.toNat ≤ maxNat/1000 := by
  have hstep : nominalDelay config (attempts+1) = growth config (nominalDelay config attempts) :=
    Function.iterate_succ_apply' _ _ _
  rw [hstep, le_growth_iff hvalid (nominal_le_maximum hvalid attempts)]
  cases attempts with
  | zero =>
    show config.initialDelayMs.toNat ≤ maxNat/1000 ↔ _
    simp
  | succ n =>
    have hsmall : nominalDelay config (n+1) ≤ maxNat/1000 := by
      rw [nominalDelay, Function.iterate_succ_apply', growth]
      omega
    simp [hsmall]

theorem jitter_span_le (config : ExponentialBackoff) (base : ℕ) :
    jitterSpan config base ≤ base*config.jitterPerThousand.toNat/1000 := by
  rw [jitterSpan, min_div_thousand]
  exact Nat.min_le_left _ _

/-- The jitter in numbers: down by the whole span and up again by the share that the sample picks.
Without jitter both are zero. -/
theorem backoff_delay_eq (config : ExponentialBackoff) (attempts : ℕ) (sample : UInt16) :
    (backoffDelay config attempts sample).toNat =
      min (nominalDelay config attempts-jitterSpan config (nominalDelay config attempts)+
        jitterOffset config (nominalDelay config attempts) sample) maxNat := by
  have hbase := exponential_delay_eq config attempts
  have hword := (exponentialDelay config attempts).toNat_le_maxNat
  rw [backoffDelay, jitteredDelay]
  generalize exponentialDelay config attempts = base at hbase hword ⊢
  rw [← hbase]
  -- The early return of the source agrees with the general formula.
  by_cases hjitter : config.jitterPerThousand = 0
  · have hspan : jitterSpan config base.toNat = 0 := by
      rw [jitterSpan, hjitter]
      simp
    have hoffset : jitterOffset config base.toNat sample = 0 := by
      rw [jitterOffset, hspan]
      simp
    rw [if_pos hjitter, hspan, hoffset]
    omega
  · have hspan : (base.saturatingMul config.jitterPerThousand.toUInt64/1000).toNat =
        jitterSpan config base.toNat := by
      rw [toNat_div_thousand, toNat_saturatingMul]
      rfl
    have htwo : (2 : UInt64).toNat = 2 := rfl
    rw [if_neg hjitter, toNat_saturatingAdd, toNat_saturatingSub, hspan, toNat_div_thousand,
      toNat_saturatingMul, toNat_saturatingMul, hspan, UInt16.toNat_toUInt64, toNat_min_sample,
      htwo, jitterOffset]
    -- The two saturations of the product by the sample and by 2 are one.
    generalize jitterSpan config base.toNat*min sample.toNat 1000 = product
    congr 3
    omega

/-- The delays grow, stay below the maximum, and with their jitter neither go below what the
symmetric variation allows nor above the maximum. -/
structure RespectsCap (config : ExponentialBackoff) (attempts : ℕ) (sample : UInt16) : Prop where
  grows : exponentialDelay config attempts ≤ exponentialDelay config (attempts+1)
  capped : exponentialDelay config (attempts+1) ≤ config.maximumDelayMs
  above : (exponentialDelay config attempts).toNat-
    (exponentialDelay config attempts).toNat*config.jitterPerThousand.toNat/1000 ≤
      (backoffDelay config attempts sample).toNat
  below : backoffDelay config attempts sample ≤ config.maximumDelayMs

/-- The part of the jitter that goes up from the nominal delay fits under the maximum. -/
def JitterFits (config : ExponentialBackoff) (attempts : ℕ) (sample : UInt16) : Prop :=
  jitterOffset config (nominalDelay config attempts) sample ≤
    jitterSpan config (nominalDelay config attempts)+
      (config.maximumDelayMs.toNat-nominalDelay config attempts)

instance (config : ExponentialBackoff) (attempts : ℕ) (sample : UInt16) :
    Decidable (JitterFits config attempts sample) := inferInstanceAs (Decidable (_ ≤ _))

theorem backoff_le_maximum_iff (hvalid : config.isValid = true) (attempts : ℕ) (sample : UInt16) :
    backoffDelay config attempts sample ≤ config.maximumDelayMs ↔
      JitterFits config attempts sample ∨ config.maximumDelayMs.toNat = maxNat := by
  have hbase := nominal_le_maximum hvalid attempts
  have hword := config.maximumDelayMs.toNat_le_maxNat
  have hspan : jitterSpan config (nominalDelay config attempts) ≤ nominalDelay config attempts := by
    simp only [ExponentialBackoff.isValid, Bool.and_eq_true, decide_eq_true_eq] at hvalid
    have hjitter : config.jitterPerThousand.toNat ≤ 1000 := UInt16.le_iff_toNat_le.mp hvalid.1.2
    apply (jitter_span_le config _).trans
    exact Nat.div_le_of_le_mul (by rw [Nat.mul_comm]; exact Nat.mul_le_mul_right _ hjitter)
  rw [UInt64.le_iff_toNat_le, backoff_delay_eq, JitterFits]
  omega

theorem backoff_ge (config : ExponentialBackoff) (attempts : ℕ) (sample : UInt16) :
    nominalDelay config attempts-
        nominalDelay config attempts*config.jitterPerThousand.toNat/1000 ≤
      (backoffDelay config attempts sample).toNat := by
  have hspan := jitter_span_le config (nominalDelay config attempts)
  have hword := (exponentialDelay config attempts).toNat_le_maxNat
  rw [exponential_delay_eq] at hword
  rw [backoff_delay_eq]
  omega

theorem respects_cap_iff (hvalid : config.isValid = true) (attempts : ℕ) (sample : UInt16) :
    RespectsCap config attempts sample ↔
      (0 < attempts ∨ config.initialDelayMs.toNat ≤ maxNat/1000) ∧
      (JitterFits config attempts sample ∨ config.maximumDelayMs.toNat = maxNat) := by
  have hgrows : exponentialDelay config attempts ≤ exponentialDelay config (attempts+1) ↔
      0 < attempts ∨ config.initialDelayMs.toNat ≤ maxNat/1000 := by
    rw [UInt64.le_iff_toNat_le, exponential_delay_eq, exponential_delay_eq]
    exact nominal_mono_iff hvalid attempts
  rw [← hgrows, ← backoff_le_maximum_iff hvalid]
  constructor
  · intro h
    exact ⟨h.grows, h.below⟩
  · intro ⟨hmono, hbelow⟩
    refine ⟨hmono, ?_, ?_, hbelow⟩
    · rw [UInt64.le_iff_toNat_le, exponential_delay_eq]
      exact nominal_le_maximum hvalid (attempts+1)
    · rw [exponential_delay_eq]
      exact backoff_ge config attempts sample

/-- The delay of `RespectsCap` is the one that a report of a failure adds to the time. -/
theorem scheduled_delay {c : ReconnectController} {failure : ReconnectFailure} {now : UInt64}
    {sample : UInt16} {t : UInt64} {k : UInt32} (hpolicy : c.policy = .exponentialBackoff config)
    (h : (c.afterFailure failure now sample).1 = .attemptAt t k) :
    k.toNat = c.attempts.toNat+1 ∧
      t = now.saturatingAdd (backoffDelay config c.attempts.toNat sample) := by
  have hdelay : c.delay sample = backoffDelay config c.attempts.toNat sample := by
    rw [ReconnectController.delay, hpolicy]
  have hreports := ReconnectController.after_failure_reports c failure now sample
  rw [h] at hreports
  generalize (c.afterFailure failure now sample).2 = c' at hreports
  cases hreports with
  | ignored haction => exact absurd rfl (haction t k)
  | refused haction => exact absurd rfl (haction t k)
  | scheduled htoken hcounts hlimit hattempts helapsed =>
    exact ⟨UInt32.toNat_saturatingAdd_one hattempts, by rw [hdelay]⟩

/-- The exact condition for a valid configuration: only the first growth can shrink a delay, by
saturating, and only the jitter, which comes after the cap, can lead above the maximum. -/
theorem backoff_respects_cap_iff (config : ExponentialBackoff) (hvalid : config.isValid = true) :
    (∀ c : ReconnectController, c.policy = .exponentialBackoff config →
      ∀ failure now sample t k, (c.afterFailure failure now sample).1 = .attemptAt t k →
        k.toNat = c.attempts.toNat+1 ∧
          t = now.saturatingAdd (backoffDelay config c.attempts.toNat sample)) ∧
    ∀ attempts sample, RespectsCap config attempts sample ↔
      (0 < attempts ∨ config.initialDelayMs.toNat ≤ maxNat/1000) ∧
      (JitterFits config attempts sample ∨ config.maximumDelayMs.toNat = maxNat) := by
  refine ⟨fun c hpolicy failure now sample t k h => scheduled_delay hpolicy h, ?_⟩
  intro attempts sample
  exact respects_cap_iff hvalid attempts sample

/-- Full jitter on a delay that is already at the maximum. -/
def fullJitter : ExponentialBackoff := ⟨100, 100, 1000, 1000, ⟨10, 1000⟩⟩

theorem backoff_respects_cap_full_jitter : RespectsCap fullJitter 3 500 :=
  ((backoff_respects_cap_iff fullJitter (by decide)).2 3 500).mpr
    ⟨Or.inl (by decide), Or.inl (by decide)⟩

/-- A valid configuration whose first delay is so long that the product with 1000 saturates. -/
def longestDelay : ExponentialBackoff :=
  ⟨18446744073709551615, 18446744073709551615, 1000, 0, ⟨1, 18446744073709551615⟩⟩

theorem backoff_exceeds_cap :
    fullJitter.isValid = true ∧
    ((⟨.exponentialBackoff fullJitter, none, 0, false, false⟩ : ReconnectController).afterFailure
      .transportClosed 0 1000).1 = .attemptAt 200 1 ∧
    ¬RespectsCap fullJitter 0 1000 ∧
    longestDelay.isValid = true ∧
    exponentialDelay longestDelay 1 < exponentialDelay longestDelay 0 ∧
    ¬RespectsCap longestDelay 0 0 := by
  refine ⟨by decide, by decide, fun h => ?_, by decide, by decide, fun h => ?_⟩
  · exact absurd h.below (by decide)
  · exact absurd h.grows (by decide)

end MutsukiLink
