import MutsukiLink.RunHistory
import MutsukiLink.SaturatingWords
import MutsukiLink.SessionModel

/-! The quality accumulator (`liveness.rs`) and whether its running averages stay among the values
that they average. A weighted sum that reaches the top of a word is cut there, so that no average
exceeds an eighth of the greatest word. -/
namespace MutsukiLink
open RunHistory

structure QualityObservation where
  roundTripMillis : Option UInt32 := none
  sentPackets : UInt32 := 0
  lostPackets : UInt32 := 0
  retransmittedPackets : UInt32 := 0
  transmittedBytes : UInt64 := 0
  receivedBytes : UInt64 := 0
  elapsedMs : UInt64 := 0
  sendQueueDepth : UInt64 := 0
  sendQueueCapacity : UInt64 := 0
  consecutiveFailures : UInt16 := 0
  liveness : LivenessState := .healthy
deriving DecidableEq, Repr

structure QualityAccumulator where
  transport : TransportKind
  rttEwma : Option UInt32
  jitterEwma : Option UInt32
  totalSentPackets : UInt64
  totalLostPackets : UInt64
  totalRetransmittedPackets : UInt64
deriving DecidableEq, Repr

def ewma (previous sample : UInt32) : UInt32 :=
  (previous.saturatingMul 7).saturatingAdd sample/8

/-- `u32::abs_diff`. -/
def absDiff (a b : UInt32) : UInt32 := if a < b then b-a else a-b

def ratioPerMillion (numerator denominator : UInt64) : Option UInt32 :=
  if 0 < denominator then
    some (.ofNat (min (numerator.saturatingMul 1000000/denominator).toNat (2^32-1)))
  else none

def queuePressure (depth capacity : UInt64) : UInt32 :=
  if capacity = 0 then 0
  else .ofNat (min (depth.saturatingMul 1000000/capacity).toNat 1000000)

def rate (bytes elapsedMs : UInt64) : UInt64 :=
  if elapsedMs = 0 then 0 else bytes.saturatingMul 1000/elapsedMs

namespace QualityAccumulator

def new (transport : TransportKind) : QualityAccumulator := ⟨transport, none, none, 0, 0, 0⟩

/-- How far a sample is from the average before it; the first one is its own average. -/
def deviation (a : QualityAccumulator) (rtt : UInt32) : UInt32 :=
  absDiff (a.rttEwma.getD rtt) rtt

def observe (a : QualityAccumulator) (sample : QualityObservation) :
    ConnectionQuality × QualityAccumulator :=
  let averaged : QualityAccumulator := match sample.roundTripMillis with
    | none => a
    | some rtt => { a with
        rttEwma := some (ewma (a.rttEwma.getD rtt) rtt)
        jitterEwma := some (ewma (a.jitterEwma.getD (a.deviation rtt)) (a.deviation rtt)) }
  let a : QualityAccumulator := { averaged with
    totalSentPackets := a.totalSentPackets.saturatingAdd sample.sentPackets.toUInt64
    totalLostPackets := a.totalLostPackets.saturatingAdd sample.lostPackets.toUInt64
    totalRetransmittedPackets :=
      a.totalRetransmittedPackets.saturatingAdd sample.retransmittedPackets.toUInt64 }
  ({ roundTripMillis := a.rttEwma
     jitterMillis := a.jitterEwma
     lossPerMillion := ratioPerMillion a.totalLostPackets a.totalSentPackets
     retransmitPerMillion := ratioPerMillion a.totalRetransmittedPackets a.totalSentPackets
     sendQueuePressurePerMillion := queuePressure sample.sendQueueDepth sample.sendQueueCapacity
     transmitBytesPerSecond := rate sample.transmittedBytes sample.elapsedMs
     receiveBytesPerSecond := rate sample.receivedBytes sample.elapsedMs
     consecutiveFailures := sample.consecutiveFailures
     transport := some a.transport
     liveness := sample.liveness }, a)

/-- One call of `observe`, with the accumulator before and after it. -/
abbrev Observed := Event QualityAccumulator QualityObservation ConnectionQuality

/-- The round trips measured in a history. -/
def roundTrips (hist : List Observed) : List UInt32 :=
  hist.filterMap fun e => e.input.roundTripMillis

/-- How far each of them was from the average before it. -/
def deviations (hist : List Observed) : List UInt32 :=
  hist.filterMap fun e => e.input.roundTripMillis.map e.pre.deviation

end QualityAccumulator

/-- A report lies between the least and the greatest of some values; of no values there is none. -/
def Within (values : List UInt32) : Option UInt32 → Prop
  | none => values = []
  | some v => (∃ x ∈ values, x ≤ v) ∧ ∃ x ∈ values, v ≤ x

section Average

/-- The greatest average that a word can hold before it is divided. -/
def greatestAverage : UInt32 := 536870911

theorem toNat_ewma (previous sample : UInt32) :
    (ewma previous sample).toNat =
      min (min (previous.toNat*7) (2^32-1)+sample.toNat) (2^32-1)/8 := by
  simp only [ewma, UInt32.toNat_div, UInt32.toNat_saturatingAdd, UInt32.toNat_saturatingMul]
  rfl

theorem ewma_le_greatest (previous sample : UInt32) :
    ewma previous sample ≤ greatestAverage := by
  have hgreatest : greatestAverage.toNat = 536870911 := rfl
  rw [UInt32.le_iff_toNat_le, toNat_ewma, hgreatest]
  omega

theorem ewma_le_of_le {previous sample bound : UInt32} (hprevious : previous ≤ bound)
    (hsample : sample ≤ bound) : ewma previous sample ≤ bound := by
  rw [UInt32.le_iff_toNat_le] at hprevious hsample ⊢
  rw [toNat_ewma]
  omega

theorem le_ewma_of_le {previous sample bound : UInt32} (hprevious : bound ≤ previous)
    (hsample : bound ≤ sample) (hbound : bound ≤ greatestAverage) :
    bound ≤ ewma previous sample := by
  have hgreatest : greatestAverage.toNat = 536870911 := rfl
  rw [UInt32.le_iff_toNat_le] at hprevious hsample hbound ⊢
  rw [toNat_ewma]
  omega

theorem absDiff_self (a : UInt32) : absDiff a a = 0 := by
  rw [absDiff, if_neg (UInt32.lt_irrefl a), UInt32.sub_self]

end Average

section Averages
variable {values : List UInt32} {v sample : UInt32}

/-- A step of the average stays among the values, because neither the average nor the value below
it has been cut. -/
theorem Within.extend (h : Within values (some v)) (hv : v ≤ greatestAverage) (sample : UInt32) :
    Within (values ++ [sample]) (some (ewma v sample)) := by
  obtain ⟨⟨low, hlow, hlowv⟩, high, hhigh, hvhigh⟩ := h
  have hlast : sample ∈ values ++ [sample] := List.mem_append_right _ List.mem_cons_self
  constructor
  -- Below: the least value so far, or the sample if that is less.
  · by_cases hle : low ≤ sample
    · have hsmall : low ≤ greatestAverage := UInt32.le_trans hlowv hv
      exact ⟨low, List.mem_append_left _ hlow, le_ewma_of_le hlowv hle hsmall⟩
    · have hlt : sample ≤ low := UInt32.le_of_lt (UInt32.not_le.mp hle)
      have hsv : sample ≤ v := UInt32.le_trans hlt hlowv
      exact ⟨sample, hlast, le_ewma_of_le hsv (UInt32.le_refl _) (UInt32.le_trans hsv hv)⟩
  -- Above: the greatest value so far, or the sample if that is greater.
  · by_cases hle : sample ≤ high
    · exact ⟨high, List.mem_append_left _ hhigh, ewma_le_of_le hvhigh hle⟩
    · have hlt : high ≤ sample := UInt32.le_of_lt (UInt32.not_le.mp hle)
      exact ⟨sample, hlast, ewma_le_of_le (UInt32.le_trans hvhigh hlt) (UInt32.le_refl _)⟩

theorem within_first (h : sample ≤ greatestAverage) :
    Within [sample] (some (ewma sample sample)) := by
  have hrefl : sample ≤ sample := UInt32.le_refl _
  exact ⟨⟨sample, List.mem_cons_self, le_ewma_of_le hrefl hrefl h⟩,
    sample, List.mem_cons_self, ewma_le_of_le hrefl hrefl⟩

/-- The first average of a value above the bound is below it. -/
theorem not_within_first (h : ¬sample ≤ greatestAverage) :
    ¬Within [sample] (some (ewma sample sample)) := by
  rintro ⟨⟨low, hlow, hle⟩, -⟩
  obtain rfl := List.mem_singleton.mp hlow
  exact h (UInt32.le_trans hle (ewma_le_greatest _ _))

end Averages

namespace QualityAccumulator
variable {a : QualityAccumulator} {hist : List Observed}

theorem rttEwma_observe (a : QualityAccumulator) (sample : QualityObservation) :
    (a.observe sample).2.rttEwma =
      (sample.roundTripMillis.map fun rtt => ewma (a.rttEwma.getD rtt) rtt).or a.rttEwma := by
  cases h : sample.roundTripMillis <;> simp [observe, h]

theorem jitterEwma_observe (a : QualityAccumulator) (sample : QualityObservation) :
    (a.observe sample).2.jitterEwma =
      (sample.roundTripMillis.map fun rtt =>
        ewma (a.jitterEwma.getD (a.deviation rtt)) (a.deviation rtt)).or a.jitterEwma := by
  cases h : sample.roundTripMillis <;> simp [observe, h]

/-- The averages of a history. -/
structure Averages (hist : List Observed) (a : QualityAccumulator) : Prop where
  measured : a.rttEwma = none ↔ roundTrips hist = []
  together : a.jitterEwma = none ↔ a.rttEwma = none
  rtt_le : ∀ v, a.rttEwma = some v → v ≤ greatestAverage
  jitter_le : ∀ v, a.jitterEwma = some v → v ≤ greatestAverage
  jitter : Within (deviations hist) a.jitterEwma
  rtt : (∀ r, (roundTrips hist).head? = some r → r ≤ greatestAverage) →
    Within (roundTrips hist) a.rttEwma

theorem averages_new (transport : TransportKind) : Averages [] (new transport) where
  measured := by simp [new, roundTrips]
  together := by simp [new]
  rtt_le := by simp [new]
  jitter_le := by simp [new]
  jitter := rfl
  rtt := fun _ => rfl

theorem roundTrips_concat (hist : List Observed) (e : Observed) :
    roundTrips (hist ++ [e]) = roundTrips hist ++ e.input.roundTripMillis.toList := by
  rw [roundTrips, List.filterMap_append, roundTrips]
  cases h : e.input.roundTripMillis <;> simp [h]

theorem deviations_concat (hist : List Observed) (e : Observed) :
    deviations (hist ++ [e]) =
      deviations hist ++ (e.input.roundTripMillis.map e.pre.deviation).toList := by
  rw [deviations, List.filterMap_append, deviations]
  cases h : e.input.roundTripMillis <;> simp [h]

/-- Only the averages and what was measured count. -/
theorem Averages.congr {a' : QualityAccumulator} {hist' : List Observed} (h : Averages hist a)
    (hrtt : a'.rttEwma = a.rttEwma) (hjitter : a'.jitterEwma = a.jitterEwma)
    (htrips : roundTrips hist' = roundTrips hist)
    (hdeviations : deviations hist' = deviations hist) : Averages hist' a' where
  measured := by
    rw [hrtt, htrips]
    exact h.measured
  together := by
    rw [hrtt, hjitter]
    exact h.together
  rtt_le := by
    rw [hrtt]
    exact h.rtt_le
  jitter_le := by
    rw [hjitter]
    exact h.jitter_le
  jitter := by
    rw [hjitter, hdeviations]
    exact h.jitter
  rtt := by
    rw [hrtt, htrips]
    exact h.rtt

/-- The jitter with one more deviation; the first one is zero, because the first sample is its own
average. -/
theorem Averages.jitter_extend (h : Averages hist a) (rtt : UInt32) :
    Within (deviations hist ++ [a.deviation rtt])
      (some (ewma (a.jitterEwma.getD (a.deviation rtt)) (a.deviation rtt))) := by
  cases hbefore : a.jitterEwma with
  | none =>
    have hnone : Within (deviations hist) none := hbefore ▸ h.jitter
    have hzero : a.deviation rtt = 0 := by
      rw [deviation, h.together.mp hbefore, Option.getD_none, absDiff_self]
    rw [show deviations hist = [] from hnone, hzero]
    exact within_first (by decide)
  | some v => exact Within.extend (hbefore ▸ h.jitter) (h.jitter_le v hbefore) _

/-- The round trip with one more sample. Only the first sample can be too long, because from then
on the average is short itself. -/
theorem Averages.rtt_extend (h : Averages hist a) (rtt : UInt32)
    (hfirst : ∀ r, (roundTrips hist ++ [rtt]).head? = some r → r ≤ greatestAverage) :
    Within (roundTrips hist ++ [rtt]) (some (ewma (a.rttEwma.getD rtt) rtt)) := by
  cases hbefore : a.rttEwma with
  | none =>
    rw [h.measured.mp hbefore] at hfirst ⊢
    exact within_first (hfirst rtt rfl)
  | some v =>
    have hne : roundTrips hist ≠ [] := fun hnil => by
      rw [h.measured.mpr hnil] at hbefore
      cases hbefore
    refine Within.extend (hbefore ▸ h.rtt fun r hr => hfirst r ?_) (h.rtt_le v hbefore) _
    rw [List.head?_append_of_ne_nil _ hne, hr]

/-- A sample moves both averages, and the first sample starts them. -/
theorem Averages.step (h : Averages hist a) (sample : QualityObservation) :
    Averages (hist ++ [event observe a sample]) (a.observe sample).2 := by
  have hrtt := rttEwma_observe a sample
  have hjitter := jitterEwma_observe a sample
  have htrips : roundTrips (hist ++ [event observe a sample]) =
      roundTrips hist ++ sample.roundTripMillis.toList := roundTrips_concat _ _
  have hdeviations : deviations (hist ++ [event observe a sample]) =
      deviations hist ++ (sample.roundTripMillis.map a.deviation).toList := deviations_concat _ _
  cases hsample : sample.roundTripMillis with
  | none =>
    simp only [hsample, Option.map_none, Option.none_or, Option.toList_none, List.append_nil]
      at hrtt hjitter htrips hdeviations
    exact h.congr hrtt hjitter htrips hdeviations
  | some rtt =>
    simp only [hsample, Option.map_some, Option.some_or, Option.toList_some]
      at hrtt hjitter htrips hdeviations
    -- A sample makes both averages known, and neither exceeds what a word leaves after division.
    refine ⟨?_, ?_, ?_, ?_, ?_, ?_⟩
    · rw [hrtt, htrips]
      simp
    · rw [hrtt, hjitter]
      simp
    · rw [hrtt]
      intro v hv
      obtain rfl := Option.some.inj hv
      exact ewma_le_greatest _ _
    · rw [hjitter]
      intro v hv
      obtain rfl := Option.some.inj hv
      exact ewma_le_greatest _ _
    · rw [hjitter, hdeviations]
      exact h.jitter_extend rtt
    · rw [hrtt, htrips]
      exact h.rtt_extend rtt

theorem averages_run (transport : TransportKind) (samples : List QualityObservation) :
    Averages (trace observe (new transport) samples) (run observe (new transport) samples) :=
  run_history observe (averages_new transport) (fun _ _ sample h => h.step sample) samples

theorem roundTrips_trace (transport : TransportKind) (samples : List QualityObservation) :
    roundTrips (trace observe (new transport) samples) =
      samples.filterMap QualityObservation.roundTripMillis := by
  have hinputs := map_input_trace observe (new transport) samples
  conv_rhs => rw [← hinputs, List.filterMap_map]
  rfl

/-- Every report of a run lies among what it averages: the round trip among the samples so far,
the jitter among their deviations. -/
def ReportsWithin (transport : TransportKind) (samples : List QualityObservation) : Prop :=
  ∀ before e after, trace observe (new transport) samples = before ++ e :: after →
    Within (roundTrips (before ++ [e])) e.reply.roundTripMillis ∧
      Within (deviations (before ++ [e])) e.reply.jitterMillis

/-- The jitter needs no condition: the first deviation is zero, which is never cut. -/
theorem jitter_within (transport : TransportKind) (samples : List QualityObservation)
    {before after : List Observed} {e : Observed}
    (h : trace observe (new transport) samples = before ++ e :: after) :
    Within (deviations (before ++ [e])) e.reply.jitterMillis := by
  obtain ⟨js, i, ks, rfl, rfl, rfl, -⟩ := trace_cut observe h
  exact ((averages_run transport js).step i).jitter

/-- The reports of a run lie among what they average exactly when the first round trip is at most
the greatest average. -/
theorem reportsWithin_iff (transport : TransportKind) (samples : List QualityObservation) :
    ReportsWithin transport samples ↔
      ∀ r, (samples.filterMap QualityObservation.roundTripMillis).head? = some r →
        r ≤ greatestAverage := by
  constructor
  · intro h r hr
    rw [List.head?_filterMap, List.findSome?_eq_some_iff] at hr
    obtain ⟨js, i, ks, rfl, hi, hnone⟩ := hr
    -- The run up to the first measurement, which is its own average, cut if it is too long.
    have hbefore : roundTrips (trace observe (new transport) js) = [] := by
      rw [roundTrips_trace, List.filterMap_eq_nil_iff]
      exact hnone
    have hreport := (h _ _ _ (trace_append observe _ js (i :: ks))).1
    have hfirst : (event observe (run observe (new transport) js) i).reply.roundTripMillis =
        some (ewma r r) := by
      refine (rttEwma_observe _ i).trans ?_
      rw [(averages_run transport js).measured.mpr hbefore, hi]
      rfl
    rw [roundTrips_concat, hbefore, hfirst] at hreport
    by_contra hlarge
    refine not_within_first hlarge ?_
    have hlist : i.roundTripMillis.toList = [r] := by rw [hi, Option.toList_some]
    exact hlist ▸ hreport
  · intro hfirst before e after hsplit
    refine ⟨?_, jitter_within transport samples hsplit⟩
    obtain ⟨js, i, ks, rfl, rfl, rfl, -⟩ := trace_cut observe hsplit
    refine ((averages_run transport js).step i).rtt fun r hr => hfirst r ?_
    -- What was measured first stays first in a longer run.
    rw [← roundTrips_trace transport, hsplit, List.append_cons, roundTrips, List.filterMap_append,
      List.head?_append, show (List.filterMap _ _).head? = some r from hr, Option.some_or]

/-- One sample of a million seconds is reported as little more than half of it. -/
theorem long_round_trip_reported :
    ((new .tcp).observe { roundTripMillis := some 1000000000 }).1.roundTripMillis =
        some 536870911 ∧
      ¬ReportsWithin .tcp [{ roundTripMillis := some 1000000000 }] := by
  have hreport : ((new .tcp).observe { roundTripMillis := some 1000000000 }).1.roundTripMillis =
      some 536870911 := by decide
  refine ⟨hreport, fun h => ?_⟩
  obtain ⟨⟨x, hx, hle⟩, -⟩ := (h [] _ [] rfl).1
  obtain rfl := List.mem_singleton.mp hx
  exact absurd hle (by decide)

end QualityAccumulator

end MutsukiLink
