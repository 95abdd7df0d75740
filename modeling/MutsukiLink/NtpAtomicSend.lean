import MutsukiLink.NtpAgreement
import MutsukiLink.NtpSendRuns

/-! When a failing `try_send_latest` has neither sent nor forgotten anything. -/
namespace MutsukiLink.Ntp
open WireBytes

namespace Publisher
variable {σ : Type} {P : TrackingProtocol} {p p' : Publisher P} {result : P.Result} {now : ℕ}

section Sending

/-- The first step of the sending is refused: the flush of older frames or the compact frame. -/
def StopsFirst (connection : NtpConnection σ) (p : Publisher P) (s : σ)
    (encoded : EncodedResult (P := P)) (deadline : ℕ) : Prop :=
  if p.transportMode = .reliableLatestOnly then
    (∃ e r s₁, p.reliable.flush (ε := P.Error) connection s = (.error e, r, s₁)) ∨
      ¬Fits p.config encoded.compact
  else ∀ maxPayload, connection.maxDatagramPayload s = some maxPayload →
    encoded.compact.length ≤ maxPayload →
      ∃ e s₁, connection.trySendLatest s (compactDatagram encoded deadline) = (.error e, s₁)

/-- No step of the sending is refused. -/
def SendsAll (connection : NtpConnection σ) (p : Publisher P) (s : σ)
    (encoded : EncodedResult (P := P)) (deadline : ℕ) : Prop :=
  if p.transportMode = .reliableLatestOnly then
    ∃ r s₁, p.reliable.flush (ε := P.Error) connection s = (.ok (), r, s₁) ∧
      AllFit p.config encoded ∧
      ∃ r₂ s₂, (holdingAll r encoded p.config).flush (ε := P.Error) connection s₁ =
        (.ok (), r₂, s₂)
  else ∃ maxPayload outcome s₁ core s₂ geometry s₃,
    connection.maxDatagramPayload s = some maxPayload ∧ encoded.compact.length ≤ maxPayload ∧
    connection.trySendLatest s (compactDatagram encoded deadline) = (.ok outcome, s₁) ∧
    p.sendFragments connection s₁ encoded.result coreResultFlow deadline .high encoded.core =
      (.ok core, s₂) ∧
    p.sendGeometry connection s₂ encoded.result deadline encoded.geometry = (.ok geometry, s₃)

/-- The publisher with a result encoded: the request for geometry is answered by it. -/
structure Prepared (p p' : Publisher P) : Prop where
  transportMode : p'.transportMode = p.transportMode
  config : p'.config = p.config
  reliable : p'.reliable = p.reliable
  lastPublishedSequence : p'.lastPublishedSequence = p.lastPublishedSequence
  geometryRequested : p'.geometryRequested = false

/-- The call leaves no trace of the result when it fails. -/
def FailsClean (p : Publisher P) (result : P.Result)
    (answer : Except P.Failure PublishOutcome × Publisher P × σ × List Frame) : Prop :=
  ∀ e, answer.1 = .error e → p.NothingSent answer.2.1 result answer.2.2.2

variable {connection : NtpConnection σ} {s : σ}

theorem failsClean_error_iff {e : P.Failure} {s' : σ} {handed : List Frame} :
    p.FailsClean result (.error e, p', s', handed) ↔ p.NothingSent p' result handed := by
  constructor
  · intro h
    exact h e rfl
  · intro h e' _
    exact h

theorem failsClean_ok {outcome : PublishOutcome} {s' : σ} {handed : List Frame} :
    p.FailsClean result (.ok outcome, p', s', handed) := by
  intro e h
  cases h

/-- A failure behind a flush of older frames is clean if none of them is of the result and no
geometry was asked for. -/
theorem failsClean_flushed_iff {r : ReliableLatestSender} {e : P.Failure} {s' : σ}
    {handed : List Frame} (h : p.Prepared p') (hflushed : p.reliable.Flushed r handed) :
    p.FailsClean result (.error e, p'.withReliable r, s', handed) ↔
      p.NoneWaiting result ∧ p.geometryRequested = false := by
  have hsent : p.NothingSent (p'.withReliable r) result handed ↔ p.NoneWaiting result ∧
      (p'.withReliable r).geometryRequested = p.geometryRequested :=
    nothingSent_iff hflushed h.lastPublishedSequence
  rw [failsClean_error_iff, hsent]
  have hrequested : (p'.withReliable r).geometryRequested = false := h.geometryRequested
  rw [hrequested, @eq_comm _ false]

theorem sendReliable_clean_iff (h : p.Prepared p') (hmode : p.transportMode = .reliableLatestOnly)
    (encoded : EncodedResult (P := P)) (deadline : ℕ) :
    p.FailsClean encoded.result (p'.sendReliable connection.recording (s, []) encoded) ↔
      (p.StopsFirst connection s encoded deadline ∧ p.NoneWaiting encoded.result ∧
        p.geometryRequested = false) ∨ p.SendsAll connection s encoded deadline := by
  unfold StopsFirst SendsAll
  rw [if_pos hmode, if_pos hmode]
  obtain ⟨handed, hrun, hanswer⟩ := sendReliable_run connection p' s encoded
  rw [hanswer]
  generalize p'.sendReliable connection s encoded = answer at hrun
  cases hrun with
  | flushRefused hflush hflushed =>
    rw [h.reliable] at hflush hflushed
    rw [failsClean_flushed_iff h hflushed]
    constructor
    · intro hclean
      exact .inl ⟨.inl ⟨_, _, _, hflush⟩, hclean⟩
    · intro hcase
      rcases hcase with ⟨-, hclean⟩ | ⟨r, s₁, hok, -⟩
      · exact hclean
      · cases (Prod.mk.inj (hflush.symm.trans hok)).1
  | compactRefused hflush hflushed hlarge =>
    rw [h.reliable] at hflush hflushed
    rw [h.config] at hlarge
    rw [failsClean_flushed_iff h hflushed]
    constructor
    · intro hclean
      exact .inl ⟨.inr hlarge, hclean⟩
    · intro hcase
      rcases hcase with ⟨-, hclean⟩ | ⟨r, s₁, -, hall, -⟩
      · exact hclean
      · exact absurd hall.compact hlarge
  -- The compact frame is queued already, so neither of the two cases can be the one.
  | @restRefused e r r' s₁ handed hflush hcompact hlarge hwaits =>
    rw [h.config] at hcompact hlarge
    rw [h.reliable] at hflush
    rw [failsClean_error_iff]
    apply iff_of_false
    · have hdirty : ¬p.NothingSent (p'.withReliable r') encoded.result (handed ++ []) :=
        not_nothingSent hwaits (compactFrame_ofResult encoded) (.refl r')
      rwa [List.append_nil] at hdirty
    · intro hcase
      rcases hcase with ⟨hstops, -⟩ | ⟨r, s₁, -, hall, -⟩
      · rcases hstops with ⟨e, r, s₁, herror⟩ | hrefused
        · cases (Prod.mk.inj (hflush.symm.trans herror)).1
        · exact hrefused hcompact
      · exact hlarge hall
  -- The second flush has handed the compact frame over or left it queued.
  | stopped hflush hall hsecond hwaits hflushed =>
    rw [h.config] at hall hsecond hwaits hflushed
    rw [h.reliable] at hflush
    rw [failsClean_error_iff]
    apply iff_of_false
    · exact not_nothingSent hwaits (compactFrame_ofResult encoded) hflushed
    · intro hcase
      rcases hcase with ⟨hstops, -⟩ | ⟨r, s₁, hok, -, r₂, s₂, hok₂⟩
      · rcases hstops with ⟨e, r, s₁, herror⟩ | hrefused
        · cases (Prod.mk.inj (hflush.symm.trans herror)).1
        · exact hrefused hall.compact
      · obtain ⟨-, hsame⟩ := Prod.mk.inj (hflush.symm.trans hok)
        obtain ⟨rfl, rfl⟩ := Prod.mk.inj hsame
        cases (Prod.mk.inj (hsecond.symm.trans hok₂)).1
  | sent hflush hall hsecond =>
    rw [h.config] at hall hsecond
    rw [h.reliable] at hflush
    exact iff_of_true failsClean_ok (.inr ⟨_, _, hflush, hall, _, _, hsecond⟩)

/-- A failure in front of the first frame. -/
theorem failsClean_unsent_iff {e : P.Failure} {s' : σ} (h : p.Prepared p') :
    p.FailsClean result (.error e, p', s', []) ↔
      p.NoneWaiting result ∧ p.geometryRequested = false := by
  have hkept : p'.withReliable p.reliable = p' := by rw [← h.reliable]; rfl
  have hclean : p.FailsClean result (.error e, p'.withReliable p.reliable, s', []) ↔
      p.NoneWaiting result ∧ p.geometryRequested = false :=
    failsClean_flushed_iff h (.refl p.reliable)
  rwa [hkept] at hclean

/-- A datagram of the compact frame that was handed over cannot be taken back. -/
theorem not_failsClean_handed {encoded : EncodedResult (P := P)} {e : P.Failure} {s' : σ}
    (deadline : ℕ) (after : List Frame) : ¬p.FailsClean encoded.result
      (.error e, p', s', Frame.realtime (compactDatagram encoded deadline) :: after) := by
  intro h
  have hsent := failsClean_error_iff.mp h
  exact hsent.handed _ List.mem_cons_self ⟨rfl, rfl⟩

/-- The fragments depend on the publisher through its configuration only. -/
theorem Prepared.fragments (h : p.Prepared p') (s : σ) (result : P.Result) (flow : RealtimeFlowId)
    (deadline : ℕ) (priority : RealtimePriority) (payload : Bytes) :
    p'.sendFragments connection s result flow deadline priority payload =
      p.sendFragments connection s result flow deadline priority payload := by
  simp only [sendFragments, h.config]

theorem Prepared.geometry (h : p.Prepared p') (s : σ) (result : P.Result) (deadline : ℕ)
    (geometry : Option Bytes) : p'.sendGeometry connection s result deadline geometry =
      p.sendGeometry connection s result deadline geometry := by
  cases geometry with
  | none => rfl
  | some payload => simp only [sendGeometry, h.fragments]

theorem sendDatagrams_clean_iff (h : p.Prepared p') (hmode : p.transportMode ≠ .reliableLatestOnly)
    (encoded : EncodedResult (P := P)) (deadline : ℕ) :
    p.FailsClean encoded.result (p'.sendDatagrams connection.recording (s, []) encoded deadline) ↔
      (p.StopsFirst connection s encoded deadline ∧ p.NoneWaiting encoded.result ∧
        p.geometryRequested = false) ∨ p.SendsAll connection s encoded deadline := by
  unfold StopsFirst SendsAll
  rw [if_neg hmode, if_neg hmode]
  obtain ⟨handed, hrun, hanswer⟩ := sendDatagrams_run connection p' s encoded deadline
  rw [hanswer]
  generalize p'.sendDatagrams connection s encoded deadline = answer at hrun
  -- A connection that takes the compact frame does not refuse it as well.
  have hlate {limit : ℕ} {outcome : SendOutcome} {s₁ : σ}
      (hlimit : connection.maxDatagramPayload s = some limit)
      (hfits : encoded.compact.length ≤ limit)
      (hsend : connection.trySendLatest s (compactDatagram encoded deadline) = (.ok outcome, s₁)) :
      ¬∀ maxPayload, connection.maxDatagramPayload s = some maxPayload →
        encoded.compact.length ≤ maxPayload → ∃ e s₂, connection.trySendLatest s
          (compactDatagram encoded deadline) = (.error e, s₂) := by
    intro hstops
    obtain ⟨e, s₂, herror⟩ := hstops limit hlimit hfits
    cases (Prod.mk.inj (hsend.symm.trans herror)).1
  cases hrun with
  | unlimited hlimit =>
    rw [failsClean_unsent_iff h]
    constructor
    · intro hclean
      refine .inl ⟨fun maxPayload hsome => ?_, hclean⟩
      cases hlimit.symm.trans hsome
    · intro hcase
      rcases hcase with ⟨-, hclean⟩ | ⟨limit, outcome, s₁, core, s₂, geometry, s₃, hsome, -⟩
      · exact hclean
      · cases hlimit.symm.trans hsome
  | tooLarge hlimit hlarge =>
    rw [failsClean_unsent_iff h]
    constructor
    · intro hclean
      refine .inl ⟨fun maxPayload hsome hle => ?_, hclean⟩
      obtain rfl := Option.some.inj (hlimit.symm.trans hsome)
      omega
    · intro hcase
      rcases hcase with ⟨-, hclean⟩ | ⟨limit, outcome, s₁, core, s₂, geometry, s₃, hsome, hle, -⟩
      · exact hclean
      · obtain rfl := Option.some.inj (hlimit.symm.trans hsome)
        omega
  | compactRefused hsend =>
    rw [failsClean_unsent_iff h]
    constructor
    · intro hclean
      exact .inl ⟨fun _ _ _ => ⟨_, _, hsend⟩, hclean⟩
    · intro hcase
      rcases hcase with ⟨-, hclean⟩ | ⟨limit, outcome, s₁, core, s₂, geometry, s₃, -, -, hok, -⟩
      · exact hclean
      · cases (Prod.mk.inj (hsend.symm.trans hok)).1
  | coreRefused hlimit hfits hsend hcore =>
    rw [h.fragments] at hcore
    apply iff_of_false
    · exact not_failsClean_handed deadline _
    · intro hcase
      rcases hcase with
        ⟨hstops, -⟩ | ⟨limit, outcome, s₁, core, s₂, geometry, s₃, -, -, hok, hok₂, -⟩
      · exact hlate hlimit hfits hsend hstops
      · obtain ⟨-, rfl⟩ := Prod.mk.inj (hsend.symm.trans hok)
        cases (Prod.mk.inj (hcore.symm.trans hok₂)).1
  | geometryRefused hlimit hfits hsend hcore hgeometry =>
    rw [h.fragments] at hcore
    rw [h.geometry] at hgeometry
    apply iff_of_false
    · exact not_failsClean_handed deadline _
    · intro hcase
      rcases hcase with
        ⟨hstops, -⟩ | ⟨limit, outcome, s₁, core, s₂, geometry, s₃, -, -, hok, hok₂, hok₃⟩
      · exact hlate hlimit hfits hsend hstops
      · obtain ⟨-, rfl⟩ := Prod.mk.inj (hsend.symm.trans hok)
        obtain ⟨-, rfl⟩ := Prod.mk.inj (hcore.symm.trans hok₂)
        cases (Prod.mk.inj (hgeometry.symm.trans hok₃)).1
  | sent hlimit hfits hsend hcore hgeometry =>
    rw [h.fragments] at hcore
    rw [h.geometry] at hgeometry
    exact iff_of_true failsClean_ok
      (.inr ⟨_, _, _, _, _, _, _, hlimit, hfits, hsend, hcore, hgeometry⟩)

end Sending

section Calls

/-- So it is for a whole call. -/
theorem trySendLatest_recording (connection : NtpConnection σ) (p : Publisher P) (s : σ)
    (result : P.Result) (now later : ℕ) :
    ∃ handed, p.trySendLatest connection.recording (s, []) result now later =
      ((p.trySendLatest connection s result now later).1,
        (p.trySendLatest connection s result now later).2.1,
        (p.trySendLatest connection s result now later).2.2, handed) := by
  rcases hprepare : p.prepare result now with ⟨e | encoded, p₁⟩
  · exact ⟨[], by simp only [trySendLatest, hprepare]⟩
  by_cases hmode : p₁.transportMode = .reliableLatestOnly
  · obtain ⟨handed, -, hsend⟩ := sendReliable_run connection p₁ s encoded
    refine ⟨handed, ?_⟩
    simp only [trySendLatest, hprepare, if_pos hmode]
    exact hsend
  · obtain ⟨handed, -, hsend⟩ := sendDatagrams_run connection p₁ s encoded
      (later+p₁.config.resultDeadline)
    refine ⟨handed, ?_⟩
    simp only [trySendLatest, hprepare, if_neg hmode]
    exact hsend

/-- A failure comes before anything of the result is sent and no request for geometry is dropped,
or nothing fails once the first frame is out. -/
inductive AtomicWhen (connection : NtpConnection σ) (p : Publisher P) (s : σ) (result : P.Result)
    (now later : ℕ) : Prop
  | refused (hrefused : ∀ D samples compact core, ¬p.Encodes result now D samples compact core)
    (hwaiting : p.NoneWaiting result) : AtomicWhen connection p s result now later
  | geometryRefused {D : SessionDefinition P} {samples : List P.Sample} {compact core : Bytes}
    {e : P.Error} (hencodes : p.Encodes result now D samples compact core)
    (hdue : p.geometryDue result.sequence = true) (herror : P.encodeResult result = .error e)
    (hwaiting : p.NoneWaiting result) (hrequested : p.geometryRequested = false) :
    AtomicWhen connection p s result now later
  | stopsFirst {encoded : EncodedResult (P := P)} (hencoded : p.EncodedAs result now encoded)
    (hstops : p.StopsFirst connection s encoded (later+p.config.resultDeadline))
    (hwaiting : p.NoneWaiting result) (hrequested : p.geometryRequested = false) :
    AtomicWhen connection p s result now later
  | sendsAll {encoded : EncodedResult (P := P)} (hencoded : p.EncodedAs result now encoded)
    (hsends : p.SendsAll connection s encoded (later+p.config.resultDeadline)) :
    AtomicWhen connection p s result now later

variable {connection : NtpConnection σ} {s : σ} {later : ℕ}

/-- A result that is encoded fails cleanly when its sending does. -/
theorem encoded_clean_iff {encoded : EncodedResult (P := P)} (h : p.Prepared p')
    (hencoded : p.EncodedAs result now encoded) (hprepare : p.prepare result now =
      (.ok encoded, p')) :
    p.FailsClean result (p.trySendLatest connection.recording (s, []) result now later) ↔
      p.AtomicWhen connection s result now later := by
  -- The statement speaks of the publisher before the call, the sending uses the one behind it.
  have hdeadline : later+p'.config.resultDeadline = later+p.config.resultDeadline := by
    rw [h.config]
  have hclean : p.FailsClean result (p.trySendLatest connection.recording (s, []) result now
      later) ↔ (p.StopsFirst connection s encoded (later+p.config.resultDeadline) ∧
        p.NoneWaiting result ∧ p.geometryRequested = false) ∨
      p.SendsAll connection s encoded (later+p.config.resultDeadline) := by
    have hresult := hencoded.result_eq
    subst hresult
    by_cases hmode : p.transportMode = .reliableLatestOnly
    · have hmode' : p'.transportMode = .reliableLatestOnly := h.transportMode.trans hmode
      simp only [trySendLatest, hprepare, if_pos hmode']
      exact sendReliable_clean_iff h hmode encoded _
    · have hmode' : ¬p'.transportMode = .reliableLatestOnly := by rwa [h.transportMode]
      simp only [trySendLatest, hprepare, if_neg hmode', hdeadline]
      exact sendDatagrams_clean_iff h hmode encoded _
  rw [hclean]
  constructor
  · intro hcase
    rcases hcase with ⟨hstops, hwaiting, hrequested⟩ | hsends
    · exact .stopsFirst hencoded hstops hwaiting hrequested
    · exact .sendsAll hencoded hsends
  · intro hcase
    obtain ⟨D, samples, hencodes⟩ := hencoded.parts
    cases hcase with
    | refused hrefused hwaiting => exact absurd hencodes (hrefused D samples _ _)
    | geometryRefused hencodes' hdue herror hwaiting hrequested =>
      have hgeometry := hencoded.geometry
      rw [GeometryOf, if_pos hdue] at hgeometry
      obtain ⟨bytes, hok, -⟩ := hgeometry
      rw [herror] at hok
      cases hok
    | stopsFirst hencoded' hstops hwaiting hrequested =>
      rw [hencoded.unique hencoded'] at hstops
      exact .inl ⟨hstops, hwaiting, hrequested⟩
    | sendsAll hencoded' hsends =>
      rw [hencoded.unique hencoded'] at hsends
      exact .inr hsends

/-- A call whose result is not encoded. -/
theorem unencoded_clean_iff (connection : NtpConnection σ) (s : σ) (later : ℕ) {e : P.Failure}
    (hprepare : p.prepare result now = (.error e, p')) (hreliable : p'.reliable = p.reliable)
    (hlast : p'.lastPublishedSequence = p.lastPublishedSequence) :
    p.FailsClean result (p.trySendLatest connection.recording (s, []) result now later) ↔
      p.NoneWaiting result ∧ p'.geometryRequested = p.geometryRequested := by
  have hanswer : p.trySendLatest connection.recording (s, []) result now later =
      (.error e, p', s, []) := by
    simp only [trySendLatest, hprepare]
  have hflushed : p.reliable.Flushed p'.reliable [] := by
    rw [hreliable]
    exact .refl p.reliable
  rw [hanswer, failsClean_error_iff]
  exact nothingSent_iff hflushed hlast

/-- For every publisher, connection and result: a failing call leaves no frame of the result queued
or handed over and forgets nothing, exactly in these cases. -/
theorem failed_send_is_clean_iff (connection : NtpConnection σ) (p : Publisher P) (s : σ)
    (result : P.Result) (now later : ℕ) :
    (∃ handed, p.trySendLatest connection.recording (s, []) result now later =
      ((p.trySendLatest connection s result now later).1,
        (p.trySendLatest connection s result now later).2.1,
        (p.trySendLatest connection s result now later).2.2, handed)) ∧
    ((∀ e, (p.trySendLatest connection.recording (s, []) result now later).1 = .error e →
        p.NothingSent (p.trySendLatest connection.recording (s, []) result now later).2.1 result
          (p.trySendLatest connection.recording (s, []) result now later).2.2.2) ↔
      p.AtomicWhen connection s result now later) := by
  refine ⟨trySendLatest_recording connection p s result now later, ?_⟩
  rcases prepare_data p result now with
    ⟨hrefused, e, p₁, hprepare, hdata⟩ | ⟨D, samples, compact, core, p₁, hencodes, hdata, hprepare⟩
  · have hclean := unencoded_clean_iff connection s later hprepare hdata.reliable
      hdata.lastPublishedSequence
    refine hclean.trans ⟨fun h => .refused hrefused h.1, fun hcase => ?_⟩
    cases hcase with
    | refused _ hwaiting => exact ⟨hwaiting, hdata.geometryRequested⟩
    | geometryRefused hencodes => exact absurd hencodes (hrefused _ _ _ _)
    | stopsFirst hencoded =>
      obtain ⟨D, samples, hencodes⟩ := hencoded.parts
      exact absurd hencodes (hrefused _ _ _ _)
    | sendsAll hencoded =>
      obtain ⟨D, samples, hencodes⟩ := hencoded.parts
      exact absurd hencodes (hrefused _ _ _ _)
  -- Whether the geometry is due is decided before the request is taken.
  have hsame : p₁.geometryDue result.sequence = p.geometryDue result.sequence := by
    rw [geometryDue, geometryDue, hdata.geometryRequested, hdata.config]
  by_cases hdue : p.geometryDue result.sequence = true
  swap
  · have hprepare : p.prepare result now = (.ok ⟨result, compact, core, none⟩, p₁) := by
      rw [hprepare, encodeGeometry, hsame, if_neg hdue]
    have hrequested : p.geometryRequested = false := by
      cases h : p.geometryRequested with
      | false => rfl
      | true => exact absurd (by rw [geometryDue, h, Bool.true_or]) hdue
    apply encoded_clean_iff ⟨hdata.transportMode, hdata.config, hdata.reliable,
      hdata.lastPublishedSequence, hdata.geometryRequested.trans hrequested⟩ ?_ hprepare
    refine ⟨rfl, ⟨D, samples, hencodes⟩, ?_⟩
    rw [GeometryOf, if_neg hdue]
  cases hgeometry : P.encodeResult result with
  | ok geometry =>
    have hprepare : p.prepare result now = (.ok ⟨result, compact, core, some geometry⟩,
        { p₁ with geometryRequested := false }) := by
      simp only [hprepare, encodeGeometry, hsame, if_pos hdue, hgeometry]
    have hprepared : p.Prepared { p₁ with geometryRequested := false } :=
      ⟨hdata.transportMode, hdata.config, hdata.reliable, hdata.lastPublishedSequence, rfl⟩
    apply encoded_clean_iff hprepared ?_ hprepare
    refine ⟨rfl, ⟨D, samples, hencodes⟩, ?_⟩
    rw [GeometryOf, if_pos hdue]
    exact ⟨geometry, hgeometry, rfl⟩
  | error e =>
    -- The request was taken before the geometry was encoded.
    have hprepare : p.prepare result now =
        (.error (.codec e), { p₁ with geometryRequested := false }) := by
      simp only [hprepare, encodeGeometry, hsame, if_pos hdue, hgeometry]
    have hclean := unencoded_clean_iff connection s later hprepare hdata.reliable
      hdata.lastPublishedSequence
    refine hclean.trans ⟨fun h => ?_, fun hcase => ?_⟩
    · exact .geometryRefused hencodes hdue hgeometry h.1 h.2.symm
    -- No result counts as encoded whose geometry cannot be.
    have hnever {encoded : EncodedResult (P := P)} (hencoded : p.EncodedAs result now encoded) :
        False := by
      have hgood := hencoded.geometry
      rw [GeometryOf, if_pos hdue] at hgood
      obtain ⟨bytes, hok, -⟩ := hgood
      rw [hgeometry] at hok
      cases hok
    cases hcase with
    | refused hrefused => exact absurd hencodes (hrefused _ _ _ _)
    | geometryRefused _ _ _ hwaiting hrequested => exact ⟨hwaiting, hrequested.symm⟩
    | stopsFirst hencoded => exact (hnever hencoded).elim
    | sendsAll hencoded => exact (hnever hencoded).elim

end Calls

end Publisher

namespace Sample

/-- The session is activated, started and asked for geometry. -/
def runningCalls : List (WorldCall trackingProtocol) :=
  activationCalls ++ [.subscriber (.trySendCommand .start) {}, .subscriber .tryRequestGeometry {},
    .publisher (.pollControl 0) {}, .publisher (.pollControl 0) {}]

def trackingResult : trackingProtocol.Result where
  sessionId := trackingSession
  generation := 1
  sequence := 1
  captureTimestampNs := 0
  producedTimestampNs := 0
  faceLandmarks := []
  body := ()

/-- A connection that refuses the next frame. -/
def refusing : End := { connected with
  conditions := { answers := [some ⟨.timedOut, "write timed out"⟩] } }

def compactWire : Bytes := reliableWire compactRigFlow 1 1 [0, 0, 0, 0]

/-- The result is sent on a connection that refuses it, and then again. -/
def resends (w : World trackingProtocol) : Bool :=
  let p := (RunHistory.run World.step w runningCalls).publisher
  let first := p.trySendLatest endConnection.recording (refusing, []) trackingResult 0 0
  let second := first.2.1.trySendLatest endConnection.recording (connected, []) trackingResult 0 0
  p.geometryRequested && !first.1.isOk && !first.2.1.geometryRequested && second.1.isOk &&
    second.2.2.2.count (.reliable compactWire) == 2

theorem resends_initialWorld : initialWorld.any resends = true := by decide +kernel

end Sample

/-- A result that is sent again after an error arrives as two compact frames. -/
theorem retry_sends_two_compact_frames : ∃ w : World Sample.trackingProtocol, w.Initial ∧
    ∃ e p₁ s₁ handed outcome p₂ s₂ handed₂,
      (RunHistory.run World.step w Sample.runningCalls).publisher.trySendLatest
        endConnection.recording (Sample.refusing, []) Sample.trackingResult 0 0 =
          (.error e, p₁, s₁, handed) ∧
      ¬(RunHistory.run World.step w Sample.runningCalls).publisher.NothingSent p₁
        Sample.trackingResult handed ∧
      p₁.trySendLatest endConnection.recording (Sample.connected, []) Sample.trackingResult 0 0 =
        (.ok outcome, p₂, s₂, handed₂) ∧
      handed₂.count (.reliable Sample.compactWire) = 2 := by
  obtain ⟨w, hstart, hresends⟩ := (Option.any_eq_true ..).mp Sample.resends_initialWorld
  refine ⟨w, Sample.initial_of_initialWorld hstart, ?_⟩
  simp only [Sample.resends, Bool.and_eq_true] at hresends
  generalize (RunHistory.run World.step w Sample.runningCalls).publisher = p at hresends ⊢
  obtain ⟨⟨⟨⟨hrequested, hfirst⟩, hforgotten⟩, hsecond⟩, hcount⟩ := hresends
  rcases hsend : p.trySendLatest endConnection.recording (Sample.refusing, [])
    Sample.trackingResult 0 0 with ⟨e | outcome, p₁, s₁, handed⟩
  swap
  · rw [hsend] at hfirst
    cases hfirst
  rw [hsend] at hforgotten hsecond hcount
  rcases hretry : p₁.trySendLatest endConnection.recording (Sample.connected, [])
    Sample.trackingResult 0 0 with ⟨e₂ | outcome, p₂, s₂, handed₂⟩
  · rw [hretry] at hsecond
    cases hsecond
  rw [hretry] at hcount
  refine ⟨e, p₁, s₁, handed, outcome, p₂, s₂, handed₂, rfl, fun hsent => ?_, hretry, ?_⟩
  · have hkept := hsent.geometryRequested
    rw [hrequested] at hkept
    rw [hkept] at hforgotten
    cases hforgotten
  · exact of_decide_eq_true hcount

end MutsukiLink.Ntp
