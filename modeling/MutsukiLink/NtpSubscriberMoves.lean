import MutsukiLink.NtpMoves

/-! What one call of the subscriber can do, in the same terms. -/
namespace MutsukiLink.Ntp
open WireBytes

section SubscriberMoves
variable {P : TrackingProtocol}

/-- What the subscriber has agreed to stays as it is. -/
structure Subscriber.SameControl (c c' : Subscriber P) : Prop where
  pending : c'.pending = c.pending
  negotiator : c'.negotiator = c.negotiator
  active : c'.active = c.active

theorem Subscriber.SameControl.refl (c : Subscriber P) : c.SameControl c := ⟨rfl, rfl, rfl⟩

/-- The subscriber has taken its pending proposal and activated the session of it. -/
structure Subscriber.Activates (c c' : Subscriber P) (proposal : SessionProposal P.toTrackingTypes)
    (confirm : LayoutConfirm) (S : SubscriberSession P) : Prop where
  pending : c.pending = some proposal
  taken : c'.pending = none
  confirmed : P.confirm c.negotiator confirm = (.ok S.layout, c'.negotiator)
  session : ∃ guard, S = Subscriber.confirmedSession proposal S.layout guard
  active : c'.active = some S

/-- What a call of the subscriber does with its session. -/
inductive SubscriberMove (c c' : Subscriber P) : Option P.Message → Option P.Message → Prop
  | other {received queued : Option P.Message} (hpending : c'.pending = c.pending)
    (hactive : c'.active = c.active)
    (hnegotiator : c.pending.isSome → c'.negotiator = c.negotiator) (hplain : Plain queued) :
    SubscriberMove c c' received queued
  | offered (proposal : SessionProposal P.toTrackingTypes) (accept : LayoutAccept) (now : UInt64)
    (hnone : c.pending = none)
    (hlater : ∀ A, c.active = some A → A.sessionId = proposal.sessionId →
      A.generation < proposal.generation)
    (hreceived : P.receiveProposal c.negotiator proposal.layoutId proposal.layout
      proposal.descriptor now = (.ok accept, c'.negotiator))
    (hpending : c'.pending = some proposal) (hactive : c'.active = c.active) :
    SubscriberMove c c' (some (.sessionProposal proposal)) (some (.layoutAccepted accept))
  | dropped (proposal : SessionProposal P.toTrackingTypes) (confirm : LayoutConfirm)
    (hpending : c.pending = some proposal) (hnone : c'.pending = none)
    (hactive : c'.active = c.active) :
    SubscriberMove c c' (some (.layoutConfirmed confirm)) none
  | activated (proposal : SessionProposal P.toTrackingTypes) (confirm : LayoutConfirm)
    (S : SubscriberSession P) {queued : Option P.Message}
    (hactivates : c.Activates c' proposal confirm S)
    (hqueued : ∀ m, queued = some m →
      m = .sessionReady proposal.sessionId proposal.generation proposal.layoutId) :
    SubscriberMove c c' (some (.layoutConfirmed confirm)) queued

variable {c c' : Subscriber P} {received queued : Option P.Message}

theorem SubscriberMove.same (h : c.SameControl c') (hplain : Plain queued) :
    SubscriberMove c c' received queued :=
  .other h.pending h.active (fun _ => h.negotiator) hplain

/-- A subscriber that differs from another in its other fields only. -/
theorem SubscriberMove.left (h : SubscriberMove c c' received queued) {c₀ : Subscriber P}
    (hsame : c₀.SameControl c) : SubscriberMove c₀ c' received queued := by
  cases h with
  | other hpending hactive hnegotiator hplain =>
    refine .other (hpending.trans hsame.pending) (hactive.trans hsame.active) ?_ hplain
    intro hsome
    rw [← hsame.pending] at hsome
    exact (hnegotiator hsome).trans hsame.negotiator
  | offered proposal accept now hnone hlater hreceived hpending hactive =>
    rw [hsame.negotiator] at hreceived
    exact .offered proposal accept now (hsame.pending.symm.trans hnone)
      (fun A hA => hlater A (hsame.active.trans hA)) hreceived hpending
      (hactive.trans hsame.active)
  | dropped proposal confirm hpending hnone hactive =>
    exact .dropped proposal confirm (hsame.pending.symm.trans hpending) hnone
      (hactive.trans hsame.active)
  | activated proposal confirm S hactivates hqueued =>
    obtain ⟨hpending, htaken, hconfirmed, hsession, hactive⟩ := hactivates
    rw [hsame.negotiator] at hconfirmed
    exact .activated proposal confirm S
      ⟨hsame.pending.symm.trans hpending, htaken, hconfirmed, hsession, hactive⟩ hqueued

theorem SubscriberMove.right (h : SubscriberMove c c' received queued) {c₁ : Subscriber P}
    (hsame : c'.SameControl c₁) : SubscriberMove c c₁ received queued := by
  cases h with
  | other hpending hactive hnegotiator hplain =>
    exact .other (hsame.pending.trans hpending) (hsame.active.trans hactive)
      (fun hsome => hsame.negotiator.trans (hnegotiator hsome)) hplain
  | offered proposal accept now hnone hlater hreceived hpending hactive =>
    rw [← hsame.negotiator] at hreceived
    exact .offered proposal accept now hnone hlater hreceived (hsame.pending.trans hpending)
      (hsame.active.trans hactive)
  | dropped proposal confirm hpending hnone hactive =>
    exact .dropped proposal confirm hpending (hsame.pending.trans hnone)
      (hsame.active.trans hactive)
  | activated proposal confirm S hactivates hqueued =>
    obtain ⟨hpending, htaken, hconfirmed, hsession, hactive⟩ := hactivates
    rw [← hsame.negotiator] at hconfirmed
    exact .activated proposal confirm S ⟨hpending, hsame.pending.trans htaken, hconfirmed, hsession,
      hsame.active.trans hactive⟩ hqueued

namespace Subscriber

/-- A message that is queued is the only change. -/
theorem queue_cases (c : Subscriber P) (m : P.Message) :
    (∃ e, c.queue m = (.error e, c)) ∨
      ∃ bytes, m.encode = .ok bytes ∧
        c.queue m = (.ok (), { c with outbox := c.outbox ++ [bytes] }) := by
  unfold queue
  cases h : queueControl c.outbox m c.config with
  | error e => exact Or.inl ⟨e, rfl⟩
  | ok outbox =>
    obtain ⟨bytes, hencode, houtbox⟩ := queueControl_ok h
    rw [houtbox]
    exact Or.inr ⟨bytes, hencode, rfl⟩

theorem noteIfActive_same (c : Subscriber P) (now : ℕ) :
    c.SameControl (c.noteIfActive now).2 ∧ (c.noteIfActive now).2.outbox = c.outbox := by
  unfold noteIfActive
  split
  · unfold noteReconfigure
    split <;> exact ⟨⟨rfl, rfl, rfl⟩, rfl⟩
  · exact ⟨.refl c, rfl⟩

/-- A proposal becomes pending with its answer, or at most the negotiator changes. -/
theorem receiveProposal_cases (c : Subscriber P) (proposal : SessionProposal P.toTrackingTypes)
    (receiverNowNs : UInt64) (now : ℕ) :
    ∃ queued, SubscriberMove c (c.receiveProposal proposal receiverNowNs now).2
        (some (.sessionProposal proposal)) queued ∧
      Joined c.outbox (c.receiveProposal proposal receiverNowNs now).2.outbox queued := by
  have hkeep {c' : Subscriber P} (hsame : c.SameControl c') (houtbox : c'.outbox = c.outbox) :
      ∃ queued : Option P.Message, SubscriberMove c c' (some (.sessionProposal proposal)) queued ∧
        Joined c.outbox c'.outbox queued := by
    refine ⟨none, .same hsame plain_none, ?_⟩
    rw [houtbox]
    exact .nothing _
  unfold receiveProposal
  split
  · exact hkeep (.refl c) rfl
  next hstate =>
  rw [Bool.or_eq_true, not_or] at hstate
  have hnone : c.pending = none := by
    cases hpending : c.pending with
    | none => rfl
    | some D => simp [hpending] at hstate
  obtain ⟨hsame, houtbox⟩ := noteIfActive_same c now
  split
  next e c₁ hnote =>
    rw [hnote] at hsame houtbox
    exact hkeep hsame houtbox
  next c₁ hnote =>
  rw [hnote] at hsame houtbox
  have houtbox : c₁.outbox = c.outbox := houtbox
  split
  · exact hkeep hsame houtbox
  next hgeneration =>
  -- A negotiator that has seen a proposal does not matter as long as none is pending.
  have hrefused {c' : Subscriber P} (hpending : c'.pending = c₁.pending)
      (hactive : c'.active = c₁.active) (hlane : c'.outbox = c₁.outbox) :
      ∃ queued : Option P.Message, SubscriberMove c c' (some (.sessionProposal proposal)) queued ∧
        Joined c.outbox c'.outbox queued := by
    refine ⟨none, .other (hpending.trans hsame.pending) (hactive.trans hsame.active) ?_
      plain_none, ?_⟩
    · intro hsome
      rw [hnone] at hsome
      cases hsome
    · rw [hlane, houtbox]
      exact .nothing _
  split
  · exact hrefused rfl rfl rfl
  next accept negotiator hreceive =>
  rcases queue_cases { c₁ with negotiator } (.layoutAccepted accept) with
    ⟨e, hqueue⟩ | ⟨bytes, hencode, hqueue⟩
  · simp only [hqueue]
    exact hrefused rfl rfl rfl
  · simp only [hqueue]
    refine ⟨some (.layoutAccepted accept), .offered proposal accept receiverNowNs hnone ?_ ?_ rfl
      hsame.active, ?_⟩
    · intro A hA hsession
      have hlate : ¬(decide (A.sessionId = proposal.sessionId) &&
          decide (proposal.generation ≤ A.generation)) = true := by
        intro h
        apply hgeneration
        rw [hsame.active, hA]
        exact h
      simp only [Bool.and_eq_true, decide_eq_true_eq, not_and] at hlate
      exact UInt32.not_le.mp (hlate hsession)
    · have hneg : c₁.negotiator = c.negotiator := hsame.negotiator
      rw [← hneg]
      exact hreceive
    · rw [← houtbox]
      exact .message _ bytes _ hencode

/-- A confirmation takes the pending proposal, and activates its session unless it is refused. -/
theorem receiveConfirm_cases (c : Subscriber P) (confirm : LayoutConfirm) :
    ∃ queued, SubscriberMove c (c.receiveConfirm confirm).2 (some (.layoutConfirmed confirm))
        queued ∧ Joined c.outbox (c.receiveConfirm confirm).2.outbox queued := by
  unfold receiveConfirm
  split
  · exact ⟨none, .same (.refl c) plain_none, .nothing _⟩
  next proposal hpending =>
  simp only
  split
  next e negotiator hconfirm =>
    exact ⟨none, .dropped proposal confirm hpending rfl rfl, .nothing _⟩
  next layout negotiator hconfirm =>
  split
  · exact ⟨none, .dropped proposal confirm hpending rfl rfl, .nothing _⟩
  next guard hguard =>
  -- From here on the session is active, whether or not its readiness can be told.
  generalize hactive : ({ c with
    pending := none, negotiator, active := some (confirmedSession proposal layout guard)
    coreReassembly := c.coreReassembly.clear, geometryReassembly := c.geometryReassembly.clear
    geometryCache := none, previousAgeNs := none } : Subscriber P) = c₁
  have hactivates {c₂ : Subscriber P} (hsame : c₁.SameControl c₂) :
      c.Activates c₂ proposal confirm (confirmedSession proposal layout guard) := by
    subst hactive
    exact ⟨hpending, hsame.pending, hsame.negotiator ▸ hconfirm, ⟨guard, rfl⟩, hsame.active⟩
  have houtbox : c₁.outbox = c.outbox := by
    rw [← hactive]
  -- An answer that cannot be queued leaves the session active.
  rcases queue_cases c₁ (.sessionReady proposal.sessionId proposal.generation proposal.layoutId)
    with ⟨e, hqueue⟩ | ⟨bytes, hencode, hqueue⟩
  · simp only [hqueue]
    refine ⟨none, .activated proposal confirm _ (hactivates (.refl c₁)) ?_, ?_⟩
    · intro m hm
      cases hm
    · rw [houtbox]
      exact .nothing _
  · simp only [hqueue]
    refine ⟨some (.sessionReady proposal.sessionId proposal.generation proposal.layoutId),
      .activated proposal confirm _ (hactivates ⟨rfl, rfl, rfl⟩) ?_, ?_⟩
    · intro m hm
      exact (Option.some.inj hm).symm
    · rw [← houtbox]
      exact .message _ bytes _ hencode

/-- Every message is handled by one move. -/
theorem handle_cases (c : Subscriber P) (receiverNowNs : UInt64) (now : ℕ) (m : P.Message) :
    ∃ queued, SubscriberMove c (c.handle receiverNowNs now m).2 (some m) queued ∧
      Joined c.outbox (c.handle receiverNowNs now m).2.outbox queued := by
  have hkeep {c' : Subscriber P} (hsame : c.SameControl c') (houtbox : c'.outbox = c.outbox) :
      ∃ queued : Option P.Message, SubscriberMove c c' (some m) queued ∧
        Joined c.outbox c'.outbox queued := by
    refine ⟨none, .same hsame plain_none, ?_⟩
    rw [houtbox]
    exact .nothing _
  cases m with
  | sessionProposal proposal => exact receiveProposal_cases c proposal receiverNowNs now
  | layoutConfirmed confirm => exact receiveConfirm_cases c confirm
  | hello hello =>
    simp only [handle]
    split <;> exact hkeep ⟨rfl, rfl, rfl⟩ rfl
  | pong receiverSendNs producerSendNs =>
    simp only [handle, receivePong]
    split <;> exact hkeep ⟨rfl, rfl, rfl⟩ rfl
  | _ => exact hkeep ⟨rfl, rfl, rfl⟩ rfl

end Subscriber

end SubscriberMoves

section SubscriberCalls
variable {P : TrackingProtocol}

/-- A flush of the subscriber. -/
structure Subscriber.Quiet (c c' : Subscriber P) (s s' : End) : Prop where
  same : c.SameControl c'
  way : s'.outgoing ++ c'.outbox = s.outgoing ++ c.outbox
  incoming : s'.incoming = s.incoming
  frames : s'.frames = s.frames

/-- What a call of the subscriber does to the lanes and to its session. It sends no frames. -/
structure Subscriber.Effect (c c' : Subscriber P) (s s' : End) : Prop where
  exchange : ∃ received queued, Taken s.incoming s'.incoming received ∧
    Joined (s.outgoing ++ c.outbox) (s'.outgoing ++ c'.outbox) queued ∧
    SubscriberMove c c' received queued
  frames : s'.frames = s.frames

namespace Subscriber
variable {c c' c'' : Subscriber P} {s s' s'' : End}

theorem Quiet.effect (h : Quiet c c' s s') : Effect c c' s s' where
  exchange := by
    refine ⟨none, none, ?_, ?_, .same h.same plain_none⟩
    · rw [h.incoming]
      exact .nothing _
    · rw [h.way]
      exact .nothing _
  frames := h.frames

theorem Quiet.then (h : Quiet c c' s s') (h' : Effect c' c'' s' s'') : Effect c c'' s s'' where
  exchange := by
    obtain ⟨received, queued, htaken, hjoined, hmove⟩ := h'.exchange
    refine ⟨received, queued, ?_, ?_, hmove.left h.same⟩
    · rw [← h.incoming]
      exact htaken
    · rw [← h.way]
      exact hjoined
  frames := h'.frames.trans h.frames

theorem Effect.quietly (h : Effect c c' s s') (h' : Quiet c' c'' s' s'') :
    Effect c c'' s s'' where
  exchange := by
    obtain ⟨received, queued, htaken, hjoined, hmove⟩ := h.exchange
    refine ⟨received, queued, ?_, ?_, hmove.right h'.same⟩
    · rw [h'.incoming]
      exact htaken
    · rw [h'.way]
      exact hjoined
  frames := h'.frames.trans h.frames

theorem flush_quiet (c : Subscriber P) (s : End) :
    Quiet c (c.flush endConnection s).2.1 s (c.flush endConnection s).2.2 := by
  have hway := flushControl_way (ε := P.Error) c.outbox s
  unfold flush
  generalize flushControl (ε := P.Error) endConnection c.outbox s = flushed at hway ⊢
  obtain ⟨result, outbox, s'⟩ := flushed
  exact ⟨⟨rfl, rfl, rfl⟩, hway.1, hway.2.1, hway.2.2⟩

/-- A message outside the negotiation is queued and flushed. -/
theorem send_effect (c : Subscriber P) (s : End) {m : P.Message} (h : m.isNegotiation = false) :
    Effect c (c.send endConnection s m).2.1 s (c.send endConnection s m).2.2 := by
  unfold send
  rcases queue_cases c m with ⟨e, hqueue⟩ | ⟨bytes, hencode, hqueue⟩
  · simp only [hqueue]
    exact (Quiet.mk (.refl c) rfl rfl rfl).effect
  · simp only [hqueue]
    have hqueued : Effect c { c with outbox := c.outbox ++ [bytes] } s s := by
      refine ⟨⟨none, some m, .nothing _, ?_, .same ⟨rfl, rfl, rfl⟩ (plain_some h)⟩, rfl⟩
      exact (Joined.message _ bytes _ hencode).append_left _
    exact hqueued.quietly (flush_quiet _ s)

/-- A message is received and handled between two flushes. -/
theorem pollControl_effect (c : Subscriber P) (s : End) (receiverNowNs : UInt64) (now : ℕ) :
    Effect c (c.pollControl endConnection s receiverNowNs now).2.1 s
      (c.pollControl endConnection s receiverNowNs now).2.2 := by
  -- A poll flushes, takes one message and flushes the answer to it.
  have hfirst := flush_quiet c s
  unfold pollControl
  split
  next e c₁ s₁ heq =>
    rw [heq] at hfirst
    exact hfirst.effect
  next c₁ s₁ heq =>
  rw [heq] at hfirst
  refine hfirst.then ?_
  obtain ⟨received, htaken, houtgoing, hframes, hreceived⟩ :=
    receiveControl_taken (T := P.toTrackingTypes) c₁.config s₁
  have hidle : Effect c₁ c₁ s₁
      (receiveControl (T := P.toTrackingTypes) endConnection c₁.config s₁).2 := by
    refine ⟨⟨received, none, htaken, ?_, .same (.refl c₁) plain_none⟩, hframes⟩
    rw [houtgoing]
    exact .nothing _
  split
  next e s₂ heq =>
    rw [heq] at hidle
    exact hidle
  next s₂ heq =>
    rw [heq] at hidle
    exact hidle
  next message s₂ heq =>
  rw [heq] at htaken houtgoing hframes hreceived
  rw [hreceived message rfl] at htaken
  obtain ⟨queued, hmove, hjoined⟩ := handle_cases c₁ receiverNowNs now message
  have hhandled : Effect c₁ (c₁.handle receiverNowNs now message).2 s₁ s₂ := by
    refine ⟨⟨some message, queued, htaken, ?_, hmove⟩, hframes⟩
    rw [houtgoing]
    exact hjoined.append_left _
  split
  next e c₂ hhandle =>
    rw [hhandle] at hhandled
    exact hhandled
  next event c₂ hhandle =>
    rw [hhandle] at hhandled
    have hlast := flush_quiet c₂ s₂
    split
    next e c₃ s₃ hflush =>
      rw [hflush] at hlast
      exact hhandled.quietly hlast
    next c₃ s₃ hflush =>
      rw [hflush] at hlast
      exact hhandled.quietly hlast

theorem call_effect (c : Subscriber P) (s : End) (call : SubscriberCall) :
    Effect c (c.call s call).1 s (c.call s call).2 := by
  have hnothing : Effect c c s s := (Quiet.mk (.refl c) rfl rfl rfl).effect
  cases call with
  | trySendHello => exact send_effect c s rfl
  | trySendCommand command =>
    simp only [call, trySendCommand]
    split
    · exact hnothing
    · exact send_effect c s rfl
  | tryRequestGeometry =>
    simp only [call, tryRequestGeometry]
    split
    · exact hnothing
    · exact send_effect c s rfl
  | trySendPing receiverNowNs =>
    have hclock : Quiet c { c with clock := c.clock.notePing receiverNowNs } s s :=
      ⟨⟨rfl, rfl, rfl⟩, rfl, rfl, rfl⟩
    exact hclock.then (send_effect _ s rfl)
  | trySendReceiverReport => exact send_effect c s rfl
  | pollControl receiverNowNs now => exact pollControl_effect c s receiverNowNs now

end Subscriber

end SubscriberCalls

end MutsukiLink.Ntp
