import MutsukiLink.NtpReceiveCases

/-! The calls of a subscriber with its connection, and what each does to the session, to the
landmarks it keeps and to the fuse of the data side. -/
namespace MutsukiLink.Ntp
open WireBytes RunHistory

section Control
variable {σ : Type} {P : TrackingProtocol}

namespace Subscriber

/-- What the control side never changes. -/
structure SameBooks (c c' : Subscriber P) : Prop where
  config : c'.config = c.config
  authorization : c'.authorization = c.authorization
  received : c'.report.received = c.report.received
  dropped : c'.report.dropped = c.report.dropped

theorem SameBooks.refl (c : Subscriber P) : SameBooks c c := ⟨rfl, rfl, rfl, rfl⟩

theorem SameBooks.trans {c c' c'' : Subscriber P} (h : SameBooks c c') (h' : SameBooks c' c'') :
    SameBooks c c'' :=
  ⟨h'.config.trans h.config, h'.authorization.trans h.authorization, h'.received.trans h.received,
    h'.dropped.trans h.dropped⟩

/-- The session and what was received for it stay as they are. -/
structure SameSession (c c' : Subscriber P) : Prop where
  active : c'.active = c.active
  geometryCache : c'.geometryCache = c.geometryCache
  coreReassembly : c'.coreReassembly = c.coreReassembly
  geometryReassembly : c'.geometryReassembly = c.geometryReassembly

theorem SameSession.refl (c : Subscriber P) : SameSession c c := ⟨rfl, rfl, rfl, rfl⟩

theorem SameSession.trans {c c' c'' : Subscriber P} (h : SameSession c c')
    (h' : SameSession c' c'') : SameSession c c'' :=
  ⟨h'.active.trans h.active, h'.geometryCache.trans h.geometryCache,
    h'.coreReassembly.trans h.coreReassembly, h'.geometryReassembly.trans h.geometryReassembly⟩

/-- The pending proposal stays as well. -/
structure Beside (c c' : Subscriber P) : Prop where
  books : SameBooks c c'
  session : SameSession c c'
  pending : c'.pending = c.pending

theorem Beside.refl (c : Subscriber P) : Beside c c := ⟨.refl c, .refl c, rfl⟩

/-- The session of the pending proposal has begun, and nothing has been received for it. -/
structure Opens (c c' : Subscriber P) (A : SubscriberSession P) : Prop where
  proposed : ∃ proposal layout guard, c.pending = some proposal ∧
    A = confirmedSession proposal layout guard
  taken : c'.pending = none
  active : c'.active = some A
  geometryCache : c'.geometryCache = none
  coreReassembly : c'.coreReassembly = c.coreReassembly.clear
  geometryReassembly : c'.geometryReassembly = c.geometryReassembly.clear

/-- What a call of the control side does to the session. -/
structure ControlMove (c c' : Subscriber P) : Prop where
  books : SameBooks c c'
  session : SameSession c c' ∨ ∃ A, Opens c c' A

variable {c c' c'' : Subscriber P}

theorem ControlMove.same (hbooks : SameBooks c c') (h : SameSession c c') : ControlMove c c' :=
  ⟨hbooks, Or.inl h⟩

theorem Beside.move (h : Beside c c') : ControlMove c c' := .same h.books h.session

theorem ControlMove.left (h : ControlMove c' c'') (hbeside : Beside c c') : ControlMove c c'' := by
  obtain ⟨hbooks, hsame, hpending⟩ := hbeside
  refine ⟨hbooks.trans h.books, ?_⟩
  rcases h.session with hkept | ⟨A, hproposed, htaken, hactive, hcache, hcore, hgeometry⟩
  · exact Or.inl (hsame.trans hkept)
  · rw [hpending] at hproposed
    rw [hsame.coreReassembly] at hcore
    rw [hsame.geometryReassembly] at hgeometry
    exact Or.inr ⟨A, hproposed, htaken, hactive, hcache, hcore, hgeometry⟩

theorem ControlMove.right (h : ControlMove c c') (hbeside : Beside c' c'') : ControlMove c c'' := by
  obtain ⟨hbooks, hsame, hpending⟩ := hbeside
  refine ⟨h.books.trans hbooks, ?_⟩
  rcases h.session with hkept | ⟨A, hproposed, htaken, hactive, hcache, hcore, hgeometry⟩
  · exact Or.inl (hkept.trans hsame)
  · exact Or.inr ⟨A, hproposed, hpending.trans htaken, hsame.active.trans hactive,
      hsame.geometryCache.trans hcache, hsame.coreReassembly.trans hcore,
      hsame.geometryReassembly.trans hgeometry⟩

theorem queue_beside (c : Subscriber P) (m : P.Message) : Beside c (c.queue m).2 := by
  unfold queue
  split <;> exact ⟨⟨rfl, rfl, rfl, rfl⟩, ⟨rfl, rfl, rfl, rfl⟩, rfl⟩

theorem flush_beside (connection : NtpConnection σ) (c : Subscriber P) (s : σ) :
    Beside c (c.flush connection s).2.1 := ⟨⟨rfl, rfl, rfl, rfl⟩, ⟨rfl, rfl, rfl, rfl⟩, rfl⟩

theorem noteIfActive_beside (c : Subscriber P) (now : ℕ) : Beside c (c.noteIfActive now).2 := by
  unfold noteIfActive
  split
  · unfold noteReconfigure
    split <;> exact ⟨⟨rfl, rfl, rfl, rfl⟩, ⟨rfl, rfl, rfl, rfl⟩, rfl⟩
  · exact .refl c

theorem send_move (connection : NtpConnection σ) (c : Subscriber P) (s : σ) (m : P.Message) :
    ControlMove c (c.send connection s m).2.1 := by
  have hqueued := queue_beside c m
  unfold send
  split
  next e c₁ heq =>
    rw [heq] at hqueued
    exact hqueued.move
  next c₁ heq =>
    rw [heq] at hqueued
    exact (flush_beside connection c₁ s).move.left hqueued

theorem receiveProposal_move (c : Subscriber P) (proposal : SessionProposal P.toTrackingTypes)
    (receiverNowNs : UInt64) (now : ℕ) :
    ControlMove c (c.receiveProposal proposal receiverNowNs now).2 := by
  have hnoted := noteIfActive_beside c now
  unfold receiveProposal
  split
  · exact (Beside.refl c).move
  split
  next e c₁ hnote =>
    rw [hnote] at hnoted
    exact hnoted.move
  next c₁ hnote =>
  rw [hnote] at hnoted
  refine ControlMove.left (?_ : ControlMove c₁ _) hnoted
  split
  · exact (Beside.refl c₁).move
  split
  · exact .same ⟨rfl, rfl, rfl, rfl⟩ ⟨rfl, rfl, rfl, rfl⟩
  next accept negotiator hreceive =>
  have hqueued := queue_beside { c₁ with negotiator } (.layoutAccepted accept)
  have hkept : Beside c₁ { c₁ with negotiator } :=
    ⟨⟨rfl, rfl, rfl, rfl⟩, ⟨rfl, rfl, rfl, rfl⟩, rfl⟩
  refine ControlMove.left ?_ hkept
  split
  next e c₂ hqueue =>
    rw [hqueue] at hqueued
    exact hqueued.move
  next c₂ hqueue =>
    rw [hqueue] at hqueued
    exact .same (hqueued.books.trans ⟨rfl, rfl, rfl, rfl⟩)
      (hqueued.session.trans ⟨rfl, rfl, rfl, rfl⟩)

theorem receiveConfirm_move (c : Subscriber P) (confirm : LayoutConfirm) :
    ControlMove c (c.receiveConfirm confirm).2 := by
  unfold receiveConfirm
  split
  · exact (Beside.refl c).move
  next proposal hpending =>
  dsimp only
  split
  · exact .same ⟨rfl, rfl, rfl, rfl⟩ ⟨rfl, rfl, rfl, rfl⟩
  next layout negotiator hconfirm =>
  split
  · exact .same ⟨rfl, rfl, rfl, rfl⟩ ⟨rfl, rfl, rfl, rfl⟩
  next guard hguard =>
  -- The session stays open when its readiness cannot be told.
  generalize hopen : ({ c with
    pending := none, negotiator, active := some (confirmedSession proposal layout guard)
    coreReassembly := c.coreReassembly.clear, geometryReassembly := c.geometryReassembly.clear
    geometryCache := none, previousAgeNs := none } : Subscriber P) = c₁
  have hmove : ControlMove c c₁ := by
    subst hopen
    exact ⟨⟨rfl, rfl, rfl, rfl⟩,
      Or.inr ⟨_, ⟨proposal, layout, guard, hpending, rfl⟩, rfl, rfl, rfl, rfl, rfl⟩⟩
  have hqueued := queue_beside c₁
    (.sessionReady proposal.sessionId proposal.generation proposal.layoutId)
  split
  next e c₂ hqueue =>
    rw [hqueue] at hqueued
    exact hmove.right hqueued
  next c₂ hqueue =>
    rw [hqueue] at hqueued
    exact hmove.right hqueued

theorem handle_move (c : Subscriber P) (receiverNowNs : UInt64) (now : ℕ) (m : P.Message) :
    ControlMove c (c.handle receiverNowNs now m).2 := by
  cases m with
  | sessionProposal proposal => exact receiveProposal_move c proposal receiverNowNs now
  | layoutConfirmed confirm => exact receiveConfirm_move c confirm
  | hello hello =>
    simp only [handle]
    split <;> exact .same ⟨rfl, rfl, rfl, rfl⟩ ⟨rfl, rfl, rfl, rfl⟩
  | pong receiverSendNs producerSendNs =>
    simp only [handle, receivePong]
    split <;> exact .same ⟨rfl, rfl, rfl, rfl⟩ ⟨rfl, rfl, rfl, rfl⟩
  | _ => exact (Beside.refl c).move

theorem pollControl_move (connection : NtpConnection σ) (c : Subscriber P) (s : σ)
    (receiverNowNs : UInt64) (now : ℕ) :
    ControlMove c (c.pollControl connection s receiverNowNs now).2.1 := by
  have hflushed := flush_beside connection c s
  unfold pollControl
  split
  next e c₁ s₁ heq =>
    rw [heq] at hflushed
    exact hflushed.move
  next c₁ s₁ heq =>
  rw [heq] at hflushed
  refine ControlMove.left (?_ : ControlMove c₁ _) hflushed
  split
  · exact (Beside.refl c₁).move
  · exact (Beside.refl c₁).move
  next message s₂ hreceive =>
  have hmove := handle_move c₁ receiverNowNs now message
  split
  next e c₂ hhandle =>
    rw [hhandle] at hmove
    exact hmove
  next event c₂ hhandle =>
    rw [hhandle] at hmove
    have hlast := flush_beside connection c₂ s₂
    split
    next e c₃ s₃ hflush =>
      rw [hflush] at hlast
      exact hmove.right hlast
    next c₃ s₃ hflush =>
      rw [hflush] at hlast
      exact hmove.right hlast

theorem perform_move (connection : NtpConnection σ) (c : Subscriber P) (s : σ)
    (call : SubscriberCall) : ControlMove c (c.perform connection s call).2.1 := by
  cases call with
  | trySendHello => exact send_move connection c s _
  | trySendCommand command =>
    simp only [perform, perform.sent, trySendCommand]
    split
    · exact (Beside.refl c).move
    · exact send_move connection c s _
  | tryRequestGeometry =>
    simp only [perform, perform.sent, tryRequestGeometry]
    split
    · exact (Beside.refl c).move
    · exact send_move connection c s _
  | trySendPing receiverNowNs =>
    have hclock : Beside c { c with clock := c.clock.notePing receiverNowNs } :=
      ⟨⟨rfl, rfl, rfl, rfl⟩, ⟨rfl, rfl, rfl, rfl⟩, rfl⟩
    exact (send_move connection { c with clock := c.clock.notePing receiverNowNs } s _).left hclock
  | trySendReceiverReport => exact send_move connection c s _
  | pollControl receiverNowNs now => exact pollControl_move connection c s receiverNowNs now

end Subscriber

end Control

namespace ReliableLatestReceiver
variable {σ ε : Type} {tryReceive : σ → Except TransportError (Option Bytes) × σ}

/-- A poll fails with an error of the connection or with that of an invalid frame. -/
theorem poll_error {r r' : ReliableLatestReceiver} {s s' : σ} {maxFrameBytes maxDrain : ℕ}
    {clock : ℕ → ℕ} {e : BindingError ε}
    (h : r.poll tryReceive s maxFrameBytes maxDrain clock = (.error e, r', s')) :
    e ≠ .channelFused := by
  have hdrain (rounds : ℕ) (r : ReliableLatestReceiver) (s : σ) (e : BindingError ε)
      (h : (drain tryReceive maxFrameBytes clock rounds r s).1 = .error e) :
      e ≠ .channelFused := by
    induction rounds generalizing r s with
    | zero => cases h
    | succ rounds ih =>
      unfold drain at h
      split at h
      · split at h
        next wire s₁ hreceive e' hdecode =>
          obtain rfl := Except.error.inj h
          unfold decodeReliable at hdecode
          dsimp only at hdecode
          split at hdecode
          · obtain rfl := Except.error.inj hdecode
            simp
          split at hdecode
          · obtain rfl := Except.error.inj hdecode
            simp
          split at hdecode
          · obtain rfl := Except.error.inj hdecode
            simp
          · cases hdecode
        · exact ih _ _ h
      · cases h
      · split at h
        · cases h
        · obtain rfl := Except.error.inj h
          simp
  unfold poll at h
  split at h
  next e' r₁ s₁ heq =>
    obtain rfl := Except.error.inj (Prod.mk.inj h).1
    exact hdrain maxDrain r s e' (by rw [heq])
  · split at h <;> cases (Prod.mk.inj h).1

end ReliableLatestReceiver

namespace RealtimeSubscriber
variable {σ : Type} {P : ReceivingProtocol}

/-- The reply is an error that counts as a violation. -/
def violates (reply : Except P.Failure (Received P)) : Bool :=
  match reply with
  | .error e => e.isProtocolViolation
  | .ok _ => false

section Poll
variable {connection : ReceivingConnection σ} {c : RealtimeSubscriber P}

theorem nextMessage_counts (connection : ReceivingConnection σ) (c : RealtimeSubscriber P) (s : σ)
    (readings : ℕ → ℕ) :
    c.Counts (c.nextMessage connection s readings).2.1 ∧
      ∀ e, (c.nextMessage connection s readings).1 = .error e → e ≠ .channelFused := by
  unfold nextMessage
  split
  · split
    · exact ⟨.refl c, nofun⟩
    · split
      · exact ⟨.refl c, nofun⟩
      · refine ⟨.refl c, ?_⟩
        intro e h
        obtain rfl := Except.error.inj h
        nofun
  · split
    next result reliable s' heq =>
    refine ⟨⟨⟨rfl, rfl, rfl, rfl, rfl⟩, rfl, rfl, fun h => ⟨h.core, h.geometry⟩, rfl, le_refl _⟩,
      ?_⟩
    rintro e rfl
    exact ReliableLatestReceiver.poll_error heq

variable (connection) in
theorem pollRealtimeInner_handled (hc : c.Sound) (s : σ) (clock : ProducerClockEstimate) (now : ℕ)
    (readings : ℕ → ℕ) :
    Handled c (c.pollRealtimeInner connection s clock now readings).2.1 clock
      (c.pollRealtimeInner connection s clock now readings).1 := by
  obtain ⟨hcounts, herror⟩ := nextMessage_counts connection c s readings
  unfold pollRealtimeInner
  generalize c.nextMessage connection s readings = taken at hcounts herror
  obtain ⟨result, c₁, s₁⟩ := taken
  have hsound : c₁.Sound := hcounts.sound hc
  cases result with
  | error e =>
    have hquiet : Handled c₁ c₁ clock (.error e) :=
      .error (.refl c₁) hsound (herror e rfl) rfl rfl rfl
    exact hquiet.after hcounts
  | ok message =>
    cases message with
    | none =>
      have hquiet : Handled c₁ c₁ clock (.ok .idle) := by
        refine .quiet (.refl c₁) hsound nofun ?_ rfl rfl rfl
        intro received h
        rw [← Except.ok.inj h]
        rfl
      exact hquiet.after hcounts
    | some message => exact (receive_handled hsound message clock now).after hcounts

variable (connection) in
/-- A fused channel takes nothing in. Otherwise the message is handled, and a violation counted. -/
theorem pollRealtime_cases (hc : c.Sound) (s : σ) (clock : ProducerClockEstimate) (now : ℕ)
    (readings : ℕ → ℕ) :
    (c.fused = true ∧
      c.pollRealtime connection s clock now readings = (.error .channelFused, c, s)) ∨
    (c.fused = false ∧ ∃ reply c₁ s₁, Handled c c₁ clock reply ∧
      c.pollRealtime connection s clock now readings =
        (reply, if violates reply then c₁.noteViolation else c₁, s₁)) := by
  have hhandled := pollRealtimeInner_handled connection hc s clock now readings
  unfold pollRealtime
  by_cases hfused : c.fused = true
  · exact Or.inl ⟨hfused, if_pos hfused⟩
  rw [if_neg hfused]
  generalize c.pollRealtimeInner connection s clock now readings = polled at hhandled
  obtain ⟨reply, c₁, s₁⟩ := polled
  refine Or.inr ⟨Bool.eq_false_iff.mpr hfused, reply, c₁, s₁, hhandled, ?_⟩
  cases reply with
  | error e => rfl
  | ok received => rfl

end Poll

end RealtimeSubscriber

inductive ReceiverCall (σ : Type) where
  | pollRealtime (clock : ProducerClockEstimate) (now : ℕ) (readings : ℕ → ℕ)
  | control (call : SubscriberCall)
  | resetForReconnect (fresh : σ) (metadata : ConnectionMetadata)
    (authorization : NtpAuthorization) (now later : ℕ)

inductive ReceiverReply (P : ReceivingProtocol) where
  | polled (reply : Except P.Failure (Received P))
  | control (reply : Except P.Failure (Option SubscriberEvent))
  | reset (reply : Except P.Failure Unit)

abbrev ReceiverEvent (σ : Type) (P : ReceivingProtocol) :=
  Event (RealtimeSubscriber P × σ) (ReceiverCall σ) (ReceiverReply P)

/-- One call of the subscriber on its connection. -/
def receiverStep {σ : Type} {P : ReceivingProtocol} (connection : ReceivingConnection σ)
    (state : RealtimeSubscriber P × σ) :
    ReceiverCall σ → ReceiverReply P × RealtimeSubscriber P × σ
  | .pollRealtime clock now readings =>
    match state.1.pollRealtime connection state.2 clock now readings with
    | (reply, state) => (.polled reply, state)
  | .control call =>
    match state.1.control connection.toNtpConnection state.2 call with
    | (reply, state) => (.control reply, state)
  | .resetForReconnect fresh metadata authorization now later =>
    match state.1.resetForReconnect connection.toNtpConnection state.2 fresh metadata authorization
        now later with
    | (reply, state) => (.reset reply, state)

end MutsukiLink.Ntp
