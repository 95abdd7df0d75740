import MutsukiLink.NtpReceiveRuns

/-! The fuse of the data side over runs: it goes off at the last violation that the configuration
allows, and from then on nothing is taken in before the subscriber is reset. -/
namespace MutsukiLink.Ntp
open WireBytes RunHistory

variable {σ : Type} {P : ReceivingProtocol} {connection : ReceivingConnection σ}
  {c c' : RealtimeSubscriber P} {s : σ}

/-- The reply of a reset that was carried out. -/
def ReceiverReply.isReset : ReceiverReply P → Bool
  | .reset (.ok ()) => true
  | _ => false

def ReceiverReply.isViolation : ReceiverReply P → Bool
  | .polled reply => RealtimeSubscriber.violates reply
  | _ => false

/-- The result that a poll hands over. -/
def ReceiverReply.result : ReceiverReply P → Option P.Result
  | .polled (.ok received) => received.result
  | _ => none

/-- The replies since the last reset. -/
def sinceReset (hist : List (ReceiverEvent σ P)) : List (ReceiverReply P) :=
  hist.foldl (fun replies e => if e.reply.isReset then [] else replies ++ [e.reply]) []

def violations (hist : List (ReceiverEvent σ P)) : ℕ :=
  (sinceReset hist).countP ReceiverReply.isViolation

def deliveries (hist : List (ReceiverEvent σ P)) : ℕ :=
  (sinceReset hist).countP fun reply => reply.result.isSome

theorem sinceReset_concat (hist : List (ReceiverEvent σ P)) (e : ReceiverEvent σ P) :
    sinceReset (hist ++ [e]) =
      if e.reply.isReset then [] else sinceReset hist ++ [e.reply] := by
  rw [sinceReset, List.foldl_append]
  rfl

/-- The counters of the subscriber since its last reset. -/
structure Counted (limit : ℕ) (hist : List (ReceiverEvent σ P)) (c : RealtimeSubscriber P) :
    Prop where
  protocolViolations : c.protocolViolations.toNat = violations hist
  malformedFrames : c.malformedFrames.toNat = violations hist
  within : violations hist ≤ limit
  fused : c.fused = true ↔ violations hist = limit
  received : c.report.received.toNat = min (deliveries hist) UInt64.maxNat

namespace RealtimeSubscriber

/-- A reset that is refused leaves what the data side counts; one that is carried out clears it. -/
theorem resetForReconnect_cases (connection : NtpConnection σ) (c : RealtimeSubscriber P)
    (s fresh : σ) (metadata : ConnectionMetadata) (authorization : NtpAuthorization)
    (now later : ℕ) :
    ∃ reply c' s', c.resetForReconnect connection s fresh metadata authorization now later =
        (reply, c', s') ∧ c'.config = c.config ∧
      ((∃ e, reply = .error e ∧ c'.protocolViolations = c.protocolViolations ∧
          c'.malformedFrames = c.malformedFrames ∧ c'.fused = c.fused ∧ c'.report = c.report ∧
          c'.toSubscriber.SameSession c.toSubscriber) ∨
        (reply = .ok () ∧ c'.protocolViolations = 0 ∧ c'.malformedFrames = 0 ∧ c'.fused = false ∧
          c'.report = {} ∧ c'.active = none ∧ c'.geometryCache = none ∧
          c'.coreReassembly = .new ∧ c'.geometryReassembly = .new)) := by
  unfold resetForReconnect
  split
  · exact ⟨_, _, _, rfl, rfl, Or.inl ⟨_, rfl, rfl, rfl, rfl, rfl, .refl _⟩⟩
  split
  · exact ⟨_, _, _, rfl, rfl, Or.inl ⟨_, rfl, rfl, rfl, rfl, rfl, .refl _⟩⟩
  dsimp only
  split
  · exact ⟨_, _, _, rfl, rfl, Or.inl ⟨_, rfl, rfl, rfl, rfl, rfl, ⟨rfl, rfl, rfl, rfl⟩⟩⟩
  · exact ⟨_, _, _, rfl, rfl, Or.inr ⟨rfl, rfl, rfl, rfl, rfl, rfl, rfl, rfl, rfl⟩⟩

/-- The count of violations ends at the limit. -/
theorem noteViolation_counts {limit : ℕ} (hlimit : c.config.maxProtocolViolations.toNat = limit)
    {n : ℕ} (hviolations : c.protocolViolations.toNat = n)
    (hmalformed : c.malformedFrames.toNat = n) (hlt : n < limit) (hfused : c.fused = false) :
    c.noteViolation.protocolViolations.toNat = n+1 ∧
      c.noteViolation.malformedFrames.toNat = n+1 ∧
      (c.noteViolation.fused = true ↔ n+1 = limit) := by
  have hbound := c.config.maxProtocolViolations.toNat_lt
  have hword : (UInt16.ofNat (min (c.protocolViolations.toNat+1) (2^16-1))).toNat = n+1 := by
    rw [Nat.min_eq_left (by omega), hviolations]
    apply UInt16.toNat_ofNat_of_lt'
    show n+1 < 2^16
    omega
  refine ⟨hword, ?_, ?_⟩
  · show (c.malformedFrames.saturatingAdd 1).toNat = n+1
    have hone : (1 : UInt64).toNat = 1 := rfl
    rw [UInt64.toNat_saturatingAdd, hmalformed, hone]
    unfold UInt64.maxNat
    omega
  · show (c.fused || decide (c.config.maxProtocolViolations ≤ _)) = true ↔ _
    rw [hfused, Bool.false_or, decide_eq_true_iff, UInt16.le_iff_toNat_le, hword, hlimit]
    omega

theorem Handled.received {clock : ProducerClockEstimate} {reply : Except P.Failure (Received P)}
    (h : Handled c c' clock reply) : c'.report.received.toNat =
      min (c.report.received.toNat+
        if (ReceiverReply.polled reply).result.isSome then 1 else 0) UInt64.maxNat := by
  have hle := c.report.received.toNat_le_maxNat
  cases h.move with
  | nothing hnone hside hcache hreceived =>
    have hresult : (ReceiverReply.polled reply).result = none := by
      cases reply with
      | error e => rfl
      | ok received => exact hnone received rfl
    rw [hreceived, hresult]
    exact (Nat.min_eq_left hle).symm
  | refused A result e resultGuard hsession hrefused hside hcache hreceived =>
    rw [hreceived]
    exact (Nat.min_eq_left hle).symm
  | cached A result hsession hside hdecodes hid hgeneration hvalid hcache hreceived =>
    rw [hreceived]
    exact (Nat.min_eq_left hle).symm
  | delivered A decoded result missing resultGuard hadmits hside hcache hreceived hdropped =>
    rw [hreceived, UInt64.toNat_saturatingAdd]
    rfl

end RealtimeSubscriber

section Runs
variable {hist : List (ReceiverEvent σ P)} {e : ReceiverEvent σ P} {limit : ℕ}

theorem violations_concat (h : e.reply.isReset = false) :
    violations (hist ++ [e]) = violations hist+if e.reply.isViolation then 1 else 0 := by
  rw [violations, sinceReset_concat, h]
  show List.countP _ (_ ++ [_]) = _
  rw [List.countP_append, List.countP_singleton]
  rfl

theorem deliveries_concat (h : e.reply.isReset = false) :
    deliveries (hist ++ [e]) = deliveries hist+if e.reply.result.isSome then 1 else 0 := by
  rw [deliveries, sinceReset_concat, h]
  show List.countP _ (_ ++ [_]) = _
  rw [List.countP_append, List.countP_singleton]
  rfl

/-- A reply that neither resets nor counts, and the counters as they were. -/
theorem Counted.same (h : Counted limit hist c) (hreset : e.reply.isReset = false)
    (hviolation : e.reply.isViolation = false) (hresult : e.reply.result = none)
    (hviolations : c'.protocolViolations = c.protocolViolations)
    (hmalformed : c'.malformedFrames = c.malformedFrames) (hfused : c'.fused = c.fused)
    (hreceived : c'.report.received = c.report.received) : Counted limit (hist ++ [e]) c' := by
  have hv : violations (hist ++ [e]) = violations hist := by
    rw [violations_concat hreset, hviolation]
    rfl
  have hd : deliveries (hist ++ [e]) = deliveries hist := by
    rw [deliveries_concat hreset, hresult]
    rfl
  refine ⟨?_, ?_, ?_, ?_, ?_⟩
  · rw [hviolations, hv]
    exact h.protocolViolations
  · rw [hmalformed, hv]
    exact h.malformedFrames
  · rw [hv]
    exact h.within
  · rw [hfused, hv]
    exact h.fused
  · rw [hreceived, hd]
    exact h.received

theorem Counted.reset (hlimit : 0 < limit) (hreset : e.reply.isReset = true)
    (hviolations : c'.protocolViolations = 0) (hmalformed : c'.malformedFrames = 0)
    (hfused : c'.fused = false) (hreceived : c'.report.received = 0) :
    Counted limit (hist ++ [e]) c' := by
  have hv : violations (hist ++ [e]) = 0 := by
    rw [violations, sinceReset_concat, hreset]
    rfl
  have hd : deliveries (hist ++ [e]) = 0 := by
    rw [deliveries, sinceReset_concat, hreset]
    rfl
  refine ⟨?_, ?_, ?_, ?_, ?_⟩
  · rw [hviolations, hv]
    rfl
  · rw [hmalformed, hv]
    rfl
  · omega
  · rw [hfused, hv]
    simp only [Bool.false_eq_true, false_iff]
    omega
  · rw [hreceived, hd]
    rfl

/-- What a poll that is not stopped by the fuse counts. -/
theorem Counted.polled (h : Counted limit hist c) {clock : ProducerClockEstimate}
    {reply : Except P.Failure (Received P)} {c₁ : RealtimeSubscriber P}
    (hlimit : c.config.maxProtocolViolations.toNat = limit)
    (hhandled : RealtimeSubscriber.Handled c c₁ clock reply) (hfused : c.fused = false)
    (he : e.reply = .polled reply) :
    Counted limit (hist ++ [e])
      (if RealtimeSubscriber.violates reply then c₁.noteViolation else c₁) := by
  have hreset : e.reply.isReset = false := by
    rw [he]
    rfl
  obtain ⟨hconfig, -, hviolations, hmalformed, hfused'⟩ := hhandled.kept
  have hreceived : c₁.report.received.toNat = min (deliveries (hist ++ [e])) UInt64.maxNat := by
    rw [hhandled.received, h.received, deliveries_concat hreset, he]
    omega
  -- The fuse is intact, so the limit is not reached yet.
  have hlt : violations hist < limit := by
    have hne : violations hist ≠ limit := fun heq => by
      rw [h.fused.mpr heq] at hfused
      cases hfused
    exact Nat.lt_of_le_of_ne h.within hne
  have hcount : violations (hist ++ [e]) =
      violations hist+if RealtimeSubscriber.violates reply then 1 else 0 := by
    rw [violations_concat hreset, he]
    rfl
  by_cases hv : RealtimeSubscriber.violates reply = true
  · rw [if_pos hv] at hcount ⊢
    obtain ⟨hviolations', hmalformed', hfused''⟩ := RealtimeSubscriber.noteViolation_counts
      (c := c₁) (hconfig ▸ hlimit) (hviolations ▸ h.protocolViolations)
      (hmalformed ▸ h.malformedFrames) hlt (hfused'.trans hfused)
    refine ⟨hviolations'.trans hcount.symm, hmalformed'.trans hcount.symm, ?_, ?_, hreceived⟩
    · rw [hcount]
      exact hlt
    · rw [hcount]
      exact hfused''
  · rw [if_neg hv] at hcount ⊢
    refine ⟨?_, ?_, ?_, ?_, hreceived⟩
    · rw [hviolations, hcount]
      exact h.protocolViolations
    · rw [hmalformed, hcount]
      exact h.malformedFrames
    · rw [hcount]
      exact h.within
    · rw [hfused', hcount]
      exact h.fused

/-- The invariant of a run. -/
structure Tracks (config : BindingConfig) (hist : List (ReceiverEvent σ P))
    (state : RealtimeSubscriber P × σ) : Prop where
  sound : state.1.Sound
  config_eq : state.1.config = config
  counted : Counted config.maxProtocolViolations.toNat hist state.1

theorem RealtimeSubscriber.Sound.control {subscriber : Subscriber P.toTrackingProtocol}
    (h : c.Sound) (hmove : Subscriber.ControlMove c.toSubscriber subscriber)
    (hc' : c'.toSubscriber = subscriber) : c'.Sound := by
  subst hc'
  rcases hmove.session with hsame | ⟨A, hopens⟩
  · refine ⟨?_, ?_⟩
    · rw [hsame.coreReassembly]
      exact h.core
    · rw [hsame.geometryReassembly]
      exact h.geometry
  · refine ⟨?_, ?_⟩
    · rw [hopens.coreReassembly]
      exact Reassembler.wf_new
    · rw [hopens.geometryReassembly]
      exact Reassembler.wf_new

theorem Tracks.step {config : BindingConfig} (hlimit : 0 < config.maxProtocolViolations.toNat)
    {state : RealtimeSubscriber P × σ} (h : Tracks config hist state) (call : ReceiverCall σ) :
    Tracks config (hist ++ [event (receiverStep connection) state call])
      (receiverStep connection state call).2 := by
  obtain ⟨c, s⟩ := state
  obtain ⟨hsound, hconfig, hcounted⟩ := h
  cases call with
  | pollRealtime clock now readings =>
    rcases RealtimeSubscriber.pollRealtime_cases connection hsound s clock now
      readings with ⟨hfused, heq⟩ | ⟨hfused, reply, c₁, s₁, hhandled, heq⟩
    · simp only [event, receiverStep, heq]
      exact ⟨hsound, hconfig, hcounted.same rfl rfl rfl rfl rfl rfl rfl⟩
    · have hcount := hcounted.polled (e := event (receiverStep connection) (c, s)
        (.pollRealtime clock now readings)) (by rw [hconfig]) hhandled hfused (by
          simp only [event, receiverStep, heq])
      refine ⟨?_, ?_, ?_⟩
      · simp only [receiverStep, heq]
        split
        · exact ⟨hhandled.sound.core, hhandled.sound.geometry⟩
        · exact hhandled.sound
      · simp only [receiverStep, heq]
        rw [← hconfig, ← hhandled.kept.config]
        split <;> rfl
      · simpa only [receiverStep, heq] using hcount
  | control call =>
    have hmove := Subscriber.perform_move connection.toNtpConnection c.toSubscriber s call
    simp only [event, receiverStep, RealtimeSubscriber.control]
    generalize c.toSubscriber.perform connection.toNtpConnection s call = performed at hmove
    obtain ⟨reply, subscriber, s₁⟩ := performed
    refine ⟨hsound.control hmove rfl, ?_, hcounted.same rfl rfl rfl rfl rfl rfl ?_⟩
    · exact hmove.books.config.trans hconfig
    · exact hmove.books.received
  | resetForReconnect fresh metadata authorization now later =>
    obtain ⟨reply, c₁, s₁, heq, hconfig', hcases⟩ := RealtimeSubscriber.resetForReconnect_cases
      connection.toNtpConnection c s fresh metadata authorization now later
    simp only [event, receiverStep, heq]
    refine ⟨?_, hconfig'.trans hconfig, ?_⟩
    · rcases hcases with ⟨e, -, -, -, -, -, hsame⟩ | ⟨-, -, -, -, -, -, -, hcore, hgeometry⟩
      · refine ⟨?_, ?_⟩
        · rw [← hsame.coreReassembly]
          exact hsound.core
        · rw [← hsame.geometryReassembly]
          exact hsound.geometry
      · refine ⟨?_, ?_⟩
        · rw [hcore]
          exact Reassembler.wf_new
        · rw [hgeometry]
          exact Reassembler.wf_new
    · rcases hcases with ⟨e, rfl, hviolations, hmalformed, hfused, hreport, -⟩ |
        ⟨rfl, hviolations, hmalformed, hfused, hreport, -⟩
      · exact hcounted.same rfl rfl rfl hviolations hmalformed hfused (by rw [hreport])
      · exact .reset hlimit rfl hviolations hmalformed hfused (by rw [hreport])

end Runs

/-- A new subscriber has its configuration, which allows at least one violation. -/
theorem RealtimeSubscriber.new_cases {connection : NtpConnection σ} {metadata : ConnectionMetadata}
    {authorization : NtpAuthorization} {config : BindingConfig} {now later : ℕ}
    (h : RealtimeSubscriber.new connection s metadata authorization config now later = .ok c) :
    c.config = config ∧ 0 < config.maxProtocolViolations.toNat ∧ c.Sound ∧
      c.protocolViolations = 0 ∧ c.malformedFrames = 0 ∧ c.fused = false ∧ c.report = {} ∧
      c.active = none ∧ c.geometryCache = none := by
  unfold RealtimeSubscriber.new ReceivingSubscriber.new Subscriber.new at h
  cases hvalidate : (config.validate : Except P.Failure BindingConfig) with
  | error e =>
    rw [hvalidate] at h
    cases h
  | ok valid =>
  have hpositive : 0 < config.maxProtocolViolations.toNat := by
    have hok := hvalidate
    unfold BindingConfig.validate at hok
    split at hok
    · cases hok
    next hlimits =>
    simp only [not_or] at hlimits
    have hne : config.maxProtocolViolations ≠ 0 := by tauto
    rw [Nat.pos_iff_ne_zero]
    intro hzero
    exact hne (UInt16.toNat_inj.mp hzero)
  obtain rfl := validate_eq hvalidate
  rw [hvalidate] at h
  dsimp only at h
  cases hauthorized : (validateConnectionAuthorization metadata authorization .subscriber :
      Except P.Failure Unit) with
  | error e =>
    rw [hauthorized] at h
    cases h
  | ok _ =>
  rw [hauthorized] at h
  dsimp only at h
  by_cases hreliable : (!metadata.reliable) = true
  · rw [if_pos hreliable] at h
    cases h
  rw [if_neg hreliable] at h
  cases hnegotiator : P.newNegotiator with
  | error e =>
    rw [hnegotiator] at h
    cases h
  | ok negotiator =>
  rw [hnegotiator] at h
  obtain rfl := Except.ok.inj h
  exact ⟨rfl, hpositive, ⟨Reassembler.wf_new, Reassembler.wf_new⟩, rfl, rfl, rfl, rfl, rfl, rfl⟩

theorem tracks_trace {connection : ReceivingConnection σ} {metadata : ConnectionMetadata}
    {authorization : NtpAuthorization} {config : BindingConfig} {now later : ℕ}
    (hnew : RealtimeSubscriber.new connection.toNtpConnection s metadata authorization config now
      later = .ok c) (calls : List (ReceiverCall σ)) :
    Tracks config (trace (receiverStep connection) (c, s) calls)
      (run (receiverStep connection) (c, s) calls) := by
  obtain ⟨hconfig, hpositive, hsound, hviolations, hmalformed, hfused, hreport, -⟩ :=
    RealtimeSubscriber.new_cases hnew
  have hstart : Tracks config [] (c, s) := by
    refine ⟨hsound, hconfig, ?_, ?_, Nat.zero_le _, ?_, ?_⟩
    · rw [hviolations]
      rfl
    · rw [hmalformed]
      rfl
    · rw [hfused]
      simp only [Bool.false_eq_true, false_iff]
      exact hpositive.ne
    · rw [hreport]
      rfl
  exact run_history (receiverStep connection) (P := Tracks config) hstart
    (fun hist state call h => h.step hpositive call) calls

/-- The violations since the last reset are counted exactly and never exceed the limit. A poll
answers that the channel is fused exactly when they have reached it, and then changes nothing. -/
theorem fuse_is_exact (connection : ReceivingConnection σ) (s : σ) (metadata : ConnectionMetadata)
    (authorization : NtpAuthorization) (config : BindingConfig) (now later : ℕ)
    (c : RealtimeSubscriber P)
    (hnew : RealtimeSubscriber.new connection.toNtpConnection s metadata authorization config now
      later = .ok c) (calls : List (ReceiverCall σ)) :
    Counted config.maxProtocolViolations.toNat (trace (receiverStep connection) (c, s) calls)
        (run (receiverStep connection) (c, s) calls).1 ∧
      ∀ before e after, trace (receiverStep connection) (c, s) calls = before ++ e :: after →
        ∀ reply, e.reply = .polled reply →
          (reply = .error .channelFused ↔
            violations before = config.maxProtocolViolations.toNat) ∧
          (reply = .error .channelFused → e.post = e.pre) := by
  refine ⟨(tracks_trace hnew calls).counted, ?_⟩
  intro before e after hsplit reply hreply
  obtain ⟨js, call, ks, -, rfl, rfl, -⟩ := trace_cut (receiverStep connection) hsplit
  have hbefore := tracks_trace hnew js
  generalize run (receiverStep connection) (c, s) js = state at hbefore hreply ⊢
  obtain ⟨c₀, s₀⟩ := state
  rw [← hbefore.counted.fused]
  cases call with
  | pollRealtime clock now readings =>
    rcases RealtimeSubscriber.pollRealtime_cases connection hbefore.sound s₀ clock
      now readings with ⟨hfused, heq⟩ | ⟨hfused, reply', c₁, s₁, hhandled, heq⟩
    · simp only [event, receiverStep, heq, ReceiverReply.polled.injEq] at hreply ⊢
      subst hreply
      exact ⟨iff_of_true rfl hfused, fun _ => trivial⟩
    · simp only [event, receiverStep, heq, ReceiverReply.polled.injEq] at hreply
      subst hreply
      have hne := hhandled.notFused
      exact ⟨iff_of_false hne (Bool.eq_false_iff.mp hfused), fun h => absurd h hne⟩
  | control call => cases hreply
  | resetForReconnect fresh metadata authorization now later => cases hreply

namespace Sample

/-- A result is its sequence and one byte for each landmark, and the guard remembers the last
sequence of its session. -/
def receivingProtocol : ReceivingProtocol where
  toTrackingProtocol := { trackingProtocol with
    ResultStreamGuard := NtpSessionId × UInt32 × Option UInt64
    newResultGuard := fun sessionId generation => (sessionId, generation, none) }
  CompactBody := Unit
  acceptCompact _ bytes _ := match bytes with
    | [] => (.error (), ())
    | sequence :: _ => (.ok ⟨1, sequence.toUInt64, 0, ()⟩, ())
  decodeResult bytes := match bytes with
    | [] => .error ()
    | sequence :: landmarks =>
      .ok ⟨trackingSession, 1, sequence.toUInt64, 0, 0, landmarks.map fun _ => (), ()⟩
  acceptResult guard result :=
    if result.sessionId ≠ guard.1 ∨ result.generation ≠ guard.2.1 then (.error (), guard)
    else match guard.2.2 with
      | none => (.ok 0, (guard.1, guard.2.1, some result.sequence))
      | some last =>
        if result.sequence ≤ last then (.error (), guard)
        else (.ok (result.sequence-last-1), (guard.1, guard.2.1, some result.sequence))

/-- The control lane of an end, and what waits on the data lanes. -/
structure Inlet where
  lanes : End
  wires : List Bytes := []
  datagrams : List ReceivedRealtimeDatagram := []

def inletConnection : ReceivingConnection Inlet where
  maxDatagramPayload s := s.lanes.conditions.maxPayload
  trySendLatest s datagram := (s.lanes.trySendLatest datagram).map id fun lanes => { s with lanes }
  sendControl s message := (s.lanes.sendControl message).map id fun lanes => { s with lanes }
  receiveControl s := s.lanes.receiveControl.map id fun lanes => { s with lanes }
  trySend s wire := (s.lanes.trySend wire).map id fun lanes => { s with lanes }
  tryReceive s := match s.wires with
    | [] => (.ok none, s)
    | wire :: wires => (.ok (some wire), { s with wires })
  tryReceiveRealtime s := match s.datagrams with
    | [] => (.ok none, s)
    | datagram :: datagrams => (.ok (some datagram), { s with datagrams })

/-- Two wires that are no frames. -/
def spoiltInlet : Inlet := ⟨connected, [[1], [2]], []⟩

def newReceiver (config : BindingConfig) (s : Inlet) :
    Except receivingProtocol.Failure (RealtimeSubscriber receivingProtocol) :=
  RealtimeSubscriber.new inletConnection.toNtpConnection s ⟨some peer, true⟩
    ⟨peer, linkSession, .subscriber⟩ config 0 0

def pollAt (now : ℕ) : ReceiverCall Inlet := .pollRealtime ⟨0, 0⟩ now fun _ => now

/-- Two violations blow a fuse for two, and the third poll finds it blown. -/
theorem sample_fuse_is_exact : ∃ c, newReceiver { maxProtocolViolations := 2 } spoiltInlet = .ok c ∧
    violations (trace (receiverStep inletConnection) (c, spoiltInlet)
      [pollAt 0, pollAt 1, pollAt 2]) = 2 ∧
    (run (receiverStep inletConnection) (c, spoiltInlet)
      [pollAt 0, pollAt 1, pollAt 2]).1.fused = true := by
  obtain ⟨c, hc, htwo⟩ : ∃ c, newReceiver { maxProtocolViolations := 2 } spoiltInlet = .ok c ∧
      violations (trace (receiverStep inletConnection) (c, spoiltInlet)
        [pollAt 0, pollAt 1, pollAt 2]) = 2 := ⟨_, rfl, by decide +kernel⟩
  have hcounted := (fuse_is_exact inletConnection spoiltInlet ⟨some peer, true⟩
    ⟨peer, linkSession, .subscriber⟩ { maxProtocolViolations := 2 } 0 0 c hc
    [pollAt 0, pollAt 1, pollAt 2]).1
  exact ⟨c, hc, htwo, hcounted.fused.mpr htwo⟩

end Sample

end MutsukiLink.Ntp
