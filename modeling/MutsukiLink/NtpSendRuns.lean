import MutsukiLink.NtpSendSteps

/-! What the two ends of `try_send_latest` do, step by step, with the frames that they hand over. -/
namespace MutsukiLink.Ntp
open WireBytes

namespace Publisher
variable {σ : Type} {P : TrackingProtocol} {p : Publisher P} {connection : NtpConnection σ} {s : σ}

/-- The datagram of the compact frame. -/
def compactDatagram (encoded : EncodedResult (P := P)) (deadline : ℕ) : RealtimeDatagram where
  flow := compactRigFlow
  generation := encoded.result.generation
  sequence := encoded.result.sequence
  deadline := deadline
  priority := .critical
  payload := encoded.compact

theorem flushReliable_eq {r : ReliableLatestSender} {s₁ : σ} {answer : Except P.Failure Unit}
    (h : p.reliable.flush connection s = (answer, r, s₁)) :
    p.flushReliable connection s = (answer, p.withReliable r, s₁) := by
  simp only [flushReliable, h]
  rfl

/-- What the end of a call on the reliable lane does, with the frames that it hands over. -/
inductive ReliableRun (connection : NtpConnection σ) (p : Publisher P) (s : σ)
    (encoded : EncodedResult (P := P)) :
    Except P.Failure PublishOutcome × Publisher P × σ → List Frame → Prop
  | flushRefused {e : P.Failure} {r : ReliableLatestSender} {s₁ : σ} {handed : List Frame}
    (hflush : p.reliable.flush connection s = (.error e, r, s₁))
    (hflushed : p.reliable.Flushed r handed) :
    ReliableRun connection p s encoded (.error e, p.withReliable r, s₁) handed
  | compactRefused {r : ReliableLatestSender} {s₁ : σ} {handed : List Frame}
    (hflush : p.reliable.flush (ε := P.Error) connection s = (.ok (), r, s₁))
    (hflushed : p.reliable.Flushed r handed) (hlarge : ¬Fits p.config encoded.compact) :
    ReliableRun connection p s encoded (.error .payloadLimit, p.withReliable r, s₁) handed
  | restRefused {e : P.Failure} {r r' : ReliableLatestSender} {s₁ : σ} {handed : List Frame}
    (hflush : p.reliable.flush (ε := P.Error) connection s = (.ok (), r, s₁))
    (hcompact : Fits p.config encoded.compact) (hlarge : ¬AllFit p.config encoded)
    (hwaits : r'.Waits compactRigFlow (compactFrame encoded)) :
    ReliableRun connection p s encoded (.error e, p.withReliable r', s₁) handed
  | stopped {e : P.Failure} {r r₂ : ReliableLatestSender} {s₁ s₂ : σ} {handed handed₂ : List Frame}
    (hflush : p.reliable.flush (ε := P.Error) connection s = (.ok (), r, s₁))
    (hall : AllFit p.config encoded)
    (hsecond : (holdingAll r encoded p.config).flush connection s₁ = (.error e, r₂, s₂))
    (hwaits : (holdingAll r encoded p.config).Waits compactRigFlow (compactFrame encoded))
    (hflushed : (holdingAll r encoded p.config).Flushed r₂ handed₂) :
    ReliableRun connection p s encoded (.error e, p.withReliable r₂, s₂) (handed ++ handed₂)
  | sent {outcome : PublishOutcome} {p₁ : Publisher P} {r r₂ : ReliableLatestSender} {s₁ s₂ : σ}
    {handed : List Frame} (hflush : p.reliable.flush (ε := P.Error) connection s = (.ok (), r, s₁))
    (hall : AllFit p.config encoded)
    (hsecond : (holdingAll r encoded p.config).flush (ε := P.Error) connection s₁ =
      (.ok (), r₂, s₂)) :
    ReliableRun connection p s encoded (.ok outcome, p₁, s₂) handed

/-- The record is all that the recording connection adds. -/
def SameAnswer {α : Type} (plain : α × Publisher P × σ)
    (recorded : α × Publisher P × σ × List Frame) (handed : List Frame) : Prop :=
  recorded = (plain.1, plain.2.1, plain.2.2, handed)

theorem sendReliable_run (connection : NtpConnection σ) (p : Publisher P) (s : σ)
    (encoded : EncodedResult (P := P)) :
    ∃ handed, ReliableRun connection p s encoded (p.sendReliable connection s encoded) handed ∧
      SameAnswer (p.sendReliable connection s encoded)
        (p.sendReliable connection.recording (s, []) encoded) handed := by
  obtain ⟨handed, hfirst, hflushed⟩ := flushReliable_recording connection p s []
  rw [List.nil_append] at hfirst
  rcases hflush : p.reliable.flush (ε := P.Error) connection s with ⟨e | done, r, s₁⟩
  · have hplain := flushReliable_eq hflush
    rw [hplain] at hfirst hflushed
    have hanswer : p.sendReliable connection s encoded = (.error e, p.withReliable r, s₁) := by
      simp only [sendReliable, hplain]
    rw [hanswer]
    refine ⟨handed, .flushRefused hflush hflushed, ?_⟩
    simp only [SameAnswer, sendReliable, hfirst]
  have hplain := flushReliable_eq hflush
  rw [hplain] at hfirst hflushed
  by_cases hcompact : Fits p.config encoded.compact
  swap
  · have hrefused : (p.withReliable r).enqueueAll encoded =
        (.error .payloadLimit, p.withReliable r) := by
      have hfirst := enqueueReliable_refused (p := p.withReliable r) encoded.result compactRigFlow
        .critical hcompact
      simp only [enqueueAll, hfirst]
    have hanswer : p.sendReliable connection s encoded =
        (.error .payloadLimit, p.withReliable r, s₁) := by
      simp only [sendReliable, hplain, hrefused]
    rw [hanswer]
    refine ⟨handed, .compactRefused hflush hflushed hcompact, ?_⟩
    simp only [SameAnswer, sendReliable, hfirst, hrefused]
  -- A core or a geometry that does not fit is found out with the compact frame already queued.
  rcases enqueueAll_cases (p := p.withReliable r) hcompact with
    ⟨hall, ⟨outcome, hqueued⟩, hwaits⟩ | ⟨hrefused, e, r', hqueued, hwaits⟩
  swap
  · have hanswer : p.sendReliable connection s encoded = (.error e, p.withReliable r', s₁) := by
      simp only [sendReliable, hplain, hqueued]
      rfl
    rw [hanswer]
    refine ⟨handed, .restRefused hflush hcompact hrefused hwaits, ?_⟩
    simp only [SameAnswer, sendReliable, hfirst, hqueued]
    rfl
  -- Everything is queued, and the second flush decides.
  have hqueued : (p.withReliable r).enqueueAll encoded =
      (.ok outcome, p.withReliable (holdingAll r encoded p.config)) := hqueued
  obtain ⟨handed₂, hlast, hflushed₂⟩ := flushReliable_recording connection
    (p.withReliable (holdingAll r encoded p.config)) s₁ handed
  rcases hsecond : (holdingAll r encoded p.config).flush (ε := P.Error) connection s₁ with
    ⟨e | done₂, r₂, s₂⟩
  · have hplain₂ : (p.withReliable (holdingAll r encoded p.config)).flushReliable connection s₁ =
        (.error e, p.withReliable r₂, s₂) := flushReliable_eq hsecond
    rw [hplain₂] at hlast hflushed₂
    have hanswer : p.sendReliable connection s encoded = (.error e, p.withReliable r₂, s₂) := by
      simp only [sendReliable, hplain, hqueued, hplain₂]
    rw [hanswer]
    refine ⟨handed ++ handed₂, .stopped hflush hall hsecond hwaits hflushed₂, ?_⟩
    simp only [SameAnswer, sendReliable, hfirst, hqueued, hlast]
  · have hplain₂ : (p.withReliable (holdingAll r encoded p.config)).flushReliable connection s₁ =
        (.ok (), p.withReliable r₂, s₂) := flushReliable_eq hsecond
    rw [hplain₂] at hlast
    have hanswer : p.sendReliable connection s encoded = (.ok outcome, { p.withReliable r₂ with
        lastPublishedSequence := some encoded.result.sequence }, s₂) := by
      simp only [sendReliable, hplain, hqueued, hplain₂]
    rw [hanswer]
    refine ⟨handed ++ handed₂, .sent hflush hall hsecond, ?_⟩
    simp only [SameAnswer, sendReliable, hfirst, hqueued, hlast]

/-- What the end of a call with datagrams does, with the frames that it hands over. -/
inductive DatagramRun (connection : NtpConnection σ) (p : Publisher P) (s : σ)
    (encoded : EncodedResult (P := P)) (deadline : ℕ) :
    Except P.Failure PublishOutcome × Publisher P × σ → List Frame → Prop
  | unlimited (hlimit : connection.maxDatagramPayload s = none) :
    DatagramRun connection p s encoded deadline (.error .datagramsUnsupported, p, s) []
  | tooLarge {limit : ℕ} (hlimit : connection.maxDatagramPayload s = some limit)
    (hlarge : limit < encoded.compact.length) :
    DatagramRun connection p s encoded deadline (.error .payloadLimit, p, s) []
  | compactRefused {e : TransportError} {s₁ : σ}
    (hsend : connection.trySendLatest s (compactDatagram encoded deadline) = (.error e, s₁)) :
    DatagramRun connection p s encoded deadline (.error (.transport e), p, s₁) []
  | coreRefused {limit : ℕ} {outcome : SendOutcome} {e : P.Failure} {s₁ s₂ : σ}
    {handed : List Frame} (hlimit : connection.maxDatagramPayload s = some limit)
    (hfits : encoded.compact.length ≤ limit)
    (hsend : connection.trySendLatest s (compactDatagram encoded deadline) = (.ok outcome, s₁))
    (hcore : p.sendFragments connection s₁ encoded.result coreResultFlow deadline .high
      encoded.core = (.error e, s₂)) :
    DatagramRun connection p s encoded deadline (.error e, p, s₂)
      (.realtime (compactDatagram encoded deadline) :: handed)
  | geometryRefused {limit : ℕ} {outcome : SendOutcome} {core : FragmentBatchOutcome}
    {e : P.Failure} {s₁ s₂ s₃ : σ} {handed : List Frame}
    (hlimit : connection.maxDatagramPayload s = some limit)
    (hfits : encoded.compact.length ≤ limit)
    (hsend : connection.trySendLatest s (compactDatagram encoded deadline) = (.ok outcome, s₁))
    (hcore : p.sendFragments connection s₁ encoded.result coreResultFlow deadline .high
      encoded.core = (.ok core, s₂))
    (hgeometry : p.sendGeometry connection s₂ encoded.result deadline encoded.geometry =
      (.error e, s₃)) :
    DatagramRun connection p s encoded deadline (.error e, p, s₃)
      (.realtime (compactDatagram encoded deadline) :: handed)
  | sent {limit : ℕ} {compact : SendOutcome} {core : FragmentBatchOutcome}
    {geometry : Option FragmentBatchOutcome} {outcome : PublishOutcome} {p₁ : Publisher P}
    {s₁ s₂ s₃ : σ} {handed : List Frame}
    (hlimit : connection.maxDatagramPayload s = some limit)
    (hfits : encoded.compact.length ≤ limit)
    (hsend : connection.trySendLatest s (compactDatagram encoded deadline) = (.ok compact, s₁))
    (hcore : p.sendFragments connection s₁ encoded.result coreResultFlow deadline .high
      encoded.core = (.ok core, s₂))
    (hgeometry : p.sendGeometry connection s₂ encoded.result deadline encoded.geometry =
      (.ok geometry, s₃)) :
    DatagramRun connection p s encoded deadline (.ok outcome, p₁, s₃) handed

theorem sendDatagrams_run (connection : NtpConnection σ) (p : Publisher P) (s : σ)
    (encoded : EncodedResult (P := P)) (deadline : ℕ) :
    ∃ handed, DatagramRun connection p s encoded deadline
        (p.sendDatagrams connection s encoded deadline) handed ∧
      SameAnswer (p.sendDatagrams connection s encoded deadline)
        (p.sendDatagrams connection.recording (s, []) encoded deadline) handed := by
  have hpayload : connection.recording.maxDatagramPayload (s, []) =
      connection.maxDatagramPayload s := rfl
  cases hlimit : connection.maxDatagramPayload s with
  | none =>
    have hanswer : p.sendDatagrams connection s encoded deadline =
        (.error .datagramsUnsupported, p, s) := by
      simp only [sendDatagrams, hlimit]
    rw [hanswer]
    refine ⟨[], .unlimited hlimit, ?_⟩
    simp only [SameAnswer, sendDatagrams, hpayload, hlimit]
  | some limit =>
  by_cases hlarge : limit < encoded.compact.length
  · have hanswer : p.sendDatagrams connection s encoded deadline =
        (.error .payloadLimit, p, s) := by
      simp only [sendDatagrams, hlimit, if_pos hlarge]
    rw [hanswer]
    refine ⟨[], .tooLarge hlimit hlarge, ?_⟩
    simp only [SameAnswer, sendDatagrams, hpayload, hlimit, if_pos hlarge]
  have hfits := Nat.not_lt.mp hlarge
  rcases hsend : connection.trySendLatest s (compactDatagram encoded deadline) with
    ⟨e | outcome, s₁⟩
  · have hrefused : connection.recording.trySendLatest (s, []) (compactDatagram encoded deadline) =
        (.error e, s₁, []) := recording_trySendLatest [] hsend
    rw [compactDatagram] at hrefused
    have hanswer : p.sendDatagrams connection s encoded deadline =
        (.error (.transport e), p, s₁) := by
      rw [compactDatagram] at hsend
      simp only [sendDatagrams, hlimit, if_neg hlarge, hsend]
    rw [hanswer]
    refine ⟨[], .compactRefused hsend, ?_⟩
    simp only [SameAnswer, sendDatagrams, hpayload, hlimit, if_neg hlarge, hrefused]
  -- The compact frame is handed over before the fragments.
  have hhanded : connection.recording.trySendLatest (s, []) (compactDatagram encoded deadline) =
      (.ok outcome, s₁, [.realtime (compactDatagram encoded deadline)]) :=
    recording_trySendLatest [] hsend
  generalize hlog : [Frame.realtime (compactDatagram encoded deadline)] = log at hhanded
  have hplain := hsend
  rw [compactDatagram] at hhanded hplain
  obtain ⟨handed, hcored⟩ : ∃ handed, p.sendFragments connection.recording (s₁, log)
      encoded.result coreResultFlow deadline .high encoded.core =
        ((p.sendFragments connection s₁ encoded.result coreResultFlow deadline .high
            encoded.core).1,
          (p.sendFragments connection s₁ encoded.result coreResultFlow deadline .high
            encoded.core).2, log ++ handed) := sendFragmented_recording connection s₁ log _
  rcases hcore : p.sendFragments connection s₁ encoded.result coreResultFlow deadline .high
    encoded.core with ⟨e | core, s₂⟩
  · rw [hcore] at hcored
    have hanswer : p.sendDatagrams connection s encoded deadline = (.error e, p, s₂) := by
      simp only [sendDatagrams, hlimit, if_neg hlarge, hplain, hcore]
    have hrun : DatagramRun connection p s encoded deadline (.error e, p, s₂)
        (.realtime (compactDatagram encoded deadline) :: handed) :=
      .coreRefused hlimit hfits hsend hcore
    rw [hanswer]
    refine ⟨_, hrun, ?_⟩
    simp only [SameAnswer, sendDatagrams, hpayload, hlimit, if_neg hlarge, hhanded, hcored]
    rw [← hlog, List.singleton_append]
  rw [hcore] at hcored
  obtain ⟨handed₂, hlast⟩ := sendGeometry_recording connection p s₂ (log ++ handed) encoded.result
    deadline encoded.geometry
  rcases hgeometry : p.sendGeometry connection s₂ encoded.result deadline encoded.geometry with
    ⟨e | geometry, s₃⟩
  · rw [hgeometry] at hlast
    have hanswer : p.sendDatagrams connection s encoded deadline = (.error e, p, s₃) := by
      simp only [sendDatagrams, hlimit, if_neg hlarge, hplain, hcore, hgeometry]
    have hrun : DatagramRun connection p s encoded deadline (.error e, p, s₃)
        (.realtime (compactDatagram encoded deadline) :: (handed ++ handed₂)) :=
      .geometryRefused hlimit hfits hsend hcore hgeometry
    rw [hanswer]
    refine ⟨_, hrun, ?_⟩
    simp only [SameAnswer, sendDatagrams, hpayload, hlimit, if_neg hlarge, hhanded, hcored, hlast]
    rw [← hlog, List.append_assoc, List.singleton_append]
  · rw [hgeometry] at hlast
    have hanswer : p.sendDatagrams connection s encoded deadline =
        (.ok ⟨outcome, core, geometry⟩, { p with
          lastPublishedSequence := some encoded.result.sequence }, s₃) := by
      simp only [sendDatagrams, hlimit, if_neg hlarge, hplain, hcore, hgeometry]
    rw [hanswer]
    refine ⟨log ++ handed ++ handed₂, .sent hlimit hfits hsend hcore hgeometry, ?_⟩
    simp only [SameAnswer, sendDatagrams, hpayload, hlimit, if_neg hlarge, hhanded, hcored, hlast]

end Publisher

end MutsukiLink.Ntp
