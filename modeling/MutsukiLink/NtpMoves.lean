import MutsukiLink.NtpFrames

/-! What one call of either end can do: which message it takes from its lane, which one it queues,
and how its definitions change with them. -/
namespace MutsukiLink.Ntp
open WireBytes

/-- The messages by which the two ends agree on a definition. -/
def ControlMessage.isNegotiation {T : TrackingTypes} : ControlMessage T → Bool
  | .sessionProposal _ => true
  | .layoutAccepted _ => true
  | .layoutConfirmed _ => true
  | .sessionReady _ _ _ => true
  | _ => false

/-- The front of a lane is taken, as a message or as bytes that are refused. -/
inductive Taken {T : TrackingTypes} : List Bytes → List Bytes → Option (ControlMessage T) → Prop
  | nothing (lane : List Bytes) : Taken lane lane none
  | refused (bytes : Bytes) (lane : List Bytes) : Taken (bytes :: lane) lane none
  | message (bytes : Bytes) (lane : List Bytes) (m : ControlMessage T)
      (hdecode : ControlMessage.decode bytes = .ok m) : Taken (bytes :: lane) lane (some m)

/-- At most one message joins the way to the other end. -/
inductive Joined {T : TrackingTypes} : List Bytes → List Bytes → Option (ControlMessage T) → Prop
  | nothing (way : List Bytes) : Joined way way none
  | message (way : List Bytes) (bytes : Bytes) (m : ControlMessage T)
      (hencode : m.encode = .ok bytes) : Joined way (way ++ [bytes]) (some m)

theorem Joined.append_left {T : TrackingTypes} {way way' : List Bytes}
    {queued : Option (ControlMessage T)} (h : Joined way way' queued) (before : List Bytes) :
    Joined (before ++ way) (before ++ way') queued := by
  cases h with
  | nothing => exact .nothing _
  | message bytes m hencode =>
    rw [← List.append_assoc]
    exact .message _ bytes m hencode

/-- What is queued is not a negotiation message. -/
def Plain {T : TrackingTypes} (queued : Option (ControlMessage T)) : Prop :=
  ∀ m, queued = some m → m.isNegotiation = false

theorem plain_none {T : TrackingTypes} : Plain (none : Option (ControlMessage T)) := by
  intro m hm
  cases hm

theorem plain_some {T : TrackingTypes} {m : ControlMessage T} (h : m.isNegotiation = false) :
    Plain (some m) := by
  intro m' hm'
  obtain rfl := Option.some.inj hm'
  exact h

section Lanes
variable {T : TrackingTypes} {ε : Type}

theorem answer_frame (s : End) : s.answer.2.outgoing = s.outgoing ∧
    s.answer.2.incoming = s.incoming ∧ s.answer.2.frames = s.frames := ⟨rfl, rfl, rfl⟩

/-- A flush moves messages along their way. -/
theorem flushControl_way (outbox : List Bytes) (s : End) :
    let (_, outbox', s') := flushControl (ε := ε) endConnection outbox s
    s'.outgoing ++ outbox' = s.outgoing ++ outbox ∧ s'.incoming = s.incoming ∧
      s'.frames = s.frames := by
  induction outbox generalizing s with
  | nil => exact ⟨rfl, rfl, rfl⟩
  | cons message outbox ih =>
    obtain ⟨houtgoing, hincoming, hframes⟩ := answer_frame s
    simp only [flushControl, endConnection, End.sendControl]
    rcases hanswer : s.answer with ⟨_ | e, s'⟩
    · rw [hanswer] at houtgoing hincoming hframes
      simp only at houtgoing hincoming hframes ⊢
      obtain ⟨hway, hin, hout⟩ := ih { s' with outgoing := s'.outgoing ++ [message] }
      refine ⟨hway.trans ?_, hin.trans hincoming, hout.trans hframes⟩
      rw [houtgoing, List.append_assoc, List.singleton_append]
    · rw [hanswer] at houtgoing hincoming hframes
      simp only at houtgoing hincoming hframes ⊢
      split
      · exact ⟨by rw [houtgoing], hincoming, hframes⟩
      · exact ⟨by rw [houtgoing], hincoming, hframes⟩

theorem queueControl_ok {outbox outbox' : List Bytes} {m : ControlMessage T}
    {config : BindingConfig} (h : queueControl outbox m config = .ok outbox') :
    ∃ bytes, m.encode = .ok bytes ∧ outbox' = outbox ++ [bytes] := by
  unfold queueControl at h
  split at h
  · cases h
  split at h
  · cases h
  next bytes hencode =>
    split at h
    · cases h
    · exact ⟨bytes, hencode, (Except.ok.inj h).symm⟩

/-- A message that is received was the front of the lane. -/
theorem receiveControl_taken (config : BindingConfig) (s : End) :
    ∃ received : Option (ControlMessage T),
      Taken s.incoming (receiveControl (T := T) endConnection config s).2.incoming received ∧
      (receiveControl (T := T) endConnection config s).2.outgoing = s.outgoing ∧
      (receiveControl (T := T) endConnection config s).2.frames = s.frames ∧
      ∀ m, (receiveControl (T := T) endConnection config s).1 = .ok (some m) →
        received = some m := by
  obtain ⟨houtgoing, hincoming, hframes⟩ := answer_frame s
  simp only [receiveControl, endConnection, End.receiveControl]
  -- The connection may fail first; else the next message is read, and refused if it is too long.
  rcases hanswer : s.answer with ⟨_ | e, s'⟩
  · rw [hanswer] at houtgoing hincoming hframes
    simp only at houtgoing hincoming hframes ⊢
    rw [← hincoming]
    cases hlane : s'.incoming with
    | nil =>
      refine ⟨none, ?_, houtgoing, hframes, by simp⟩
      simp only [hlane]
      exact .nothing []
    | cons bytes incoming =>
      simp only
      split
      · cases hdecode : ControlMessage.decode (T := T) bytes with
        | error e => exact ⟨none, .refused _ _, houtgoing, hframes, by simp⟩
        | ok m => exact ⟨some m, .message _ _ m hdecode, houtgoing, hframes, by simp⟩
      · exact ⟨none, .refused _ _, houtgoing, hframes, by simp⟩
  · rw [hanswer] at houtgoing hincoming hframes
    simp only at houtgoing hincoming hframes ⊢
    split
    · refine ⟨none, ?_, houtgoing, hframes, by simp⟩
      rw [hincoming]
      exact .nothing _
    · refine ⟨none, ?_, houtgoing, hframes, by simp⟩
      rw [hincoming]
      exact .nothing _

end Lanes

section PublisherMoves
variable {P : TrackingProtocol}

/-- A definition that is proposed with this message. -/
structure SessionDefinition.Proposes (D : SessionDefinition P)
    (proposal : SessionProposal P.toTrackingTypes) : Prop where
  descriptor : D.descriptor = proposal.descriptor
  sessionId : D.sessionId = proposal.sessionId
  generation : D.generation = proposal.generation
  topology : D.topology = proposal.topology
  layout : P.negotiate proposal.layoutId proposal.layout proposal.descriptor = .ok D.layout

/-- What a call of the publisher does with its definitions. -/
inductive PublisherMove (p p' : Publisher P) : Option P.Message → Option P.Message → Prop
  | other {received queued : Option P.Message} (hsame : p.SameControl p') (hplain : Plain queued) :
    PublisherMove p p' received queued
  | proposed (proposal : SessionProposal P.toTrackingTypes) (D : SessionDefinition P)
    (hnone : p.pending = none)
    (hlater : ∀ A, p.active = some A → A.sessionId = D.sessionId → A.generation < D.generation)
    (hproposes : D.Proposes proposal) (hpending : p'.pending = some D)
    (haccepted : p'.pendingAccepted = false) (hactive : p'.active = p.active) :
    PublisherMove p p' none (some (.sessionProposal proposal))
  | accepted (accept : LayoutAccept) (D : SessionDefinition P) (hpending : p.pending = some D)
    (hsame : p'.pending = p.pending) (haccepted : p'.pendingAccepted = true)
    (hactive : p'.active = p.active) :
    PublisherMove p p' (some (.layoutAccepted accept))
      (some (.layoutConfirmed (P.confirmation D.layout)))
  | ready (D : SessionDefinition P) (hpending : p.pending = some D)
    (hnone : p'.pending = none) (haccepted : p'.pendingAccepted = false)
    (hactive : p'.active = some D) :
    PublisherMove p p'
      (some (.sessionReady D.sessionId D.generation (P.layoutId D.layout))) none

variable {p p' : Publisher P} {received queued : Option P.Message}

/-- A publisher that differs from another in its other fields only. -/
theorem PublisherMove.left (h : PublisherMove p p' received queued) {p₀ : Publisher P}
    (hsame : p₀.SameControl p) : PublisherMove p₀ p' received queued := by
  cases h with
  | other hkeep hplain => exact .other (hsame.trans hkeep) hplain
  | proposed proposal D hnone hlater hproposes hpending haccepted hactive =>
    exact .proposed proposal D (hsame.pending.symm.trans hnone)
      (fun A hA => hlater A (hsame.active.trans hA)) hproposes hpending haccepted
      (hactive.trans hsame.active)
  | accepted accept D hpending hkeep haccepted hactive =>
    exact .accepted accept D (hsame.pending.symm.trans hpending) (hkeep.trans hsame.pending)
      haccepted (hactive.trans hsame.active)
  | ready D hpending hnone haccepted hactive =>
    exact .ready D (hsame.pending.symm.trans hpending) hnone haccepted hactive

theorem PublisherMove.right (h : PublisherMove p p' received queued) {p₁ : Publisher P}
    (hsame : p'.SameControl p₁) : PublisherMove p p₁ received queued := by
  cases h with
  | other hkeep hplain => exact .other (hkeep.trans hsame) hplain
  | proposed proposal D hnone hlater hproposes hpending haccepted hactive =>
    exact .proposed proposal D hnone hlater hproposes (hsame.pending.trans hpending)
      (hsame.pendingAccepted.trans haccepted) (hsame.active.trans hactive)
  | accepted accept D hpending hkeep haccepted hactive =>
    exact .accepted accept D hpending (hsame.pending.trans hkeep)
      (hsame.pendingAccepted.trans haccepted) (hsame.active.trans hactive)
  | ready D hpending hnone haccepted hactive =>
    exact .ready D hpending (hsame.pending.trans hnone) (hsame.pendingAccepted.trans haccepted)
      (hsame.active.trans hactive)

namespace Publisher

/-- A message that is queued is the only change. -/
theorem queue_cases (p : Publisher P) (m : P.Message) :
    (∃ e, p.queue m = (.error e, p)) ∨
      ∃ bytes, m.encode = .ok bytes ∧
        p.queue m = (.ok (), { p with outbox := p.outbox ++ [bytes] }) := by
  unfold queue
  cases h : queueControl p.outbox m p.config with
  | error e => exact Or.inl ⟨e, rfl⟩
  | ok outbox =>
    obtain ⟨bytes, hencode, houtbox⟩ := queueControl_ok h
    rw [houtbox]
    exact Or.inr ⟨bytes, hencode, rfl⟩

theorem noteIfActive_same (p : Publisher P) (now : ℕ) :
    p.SameControl (p.noteIfActive now).2 ∧ (p.noteIfActive now).2.outbox = p.outbox := by
  unfold noteIfActive
  split
  · unfold noteReconfigure
    split <;> exact ⟨⟨rfl, rfl, rfl⟩, rfl⟩
  · exact ⟨.refl p, rfl⟩

/-- A proposal is queued and becomes pending, or nothing changes that matters. -/
theorem propose_cases (p : Publisher P) (proposal : SessionProposal P.toTrackingTypes) (now : ℕ) :
    ∃ queued, PublisherMove p (p.propose proposal now).2 none queued ∧
      Joined p.outbox (p.propose proposal now).2.outbox queued := by
  -- A call that stops early queues nothing and keeps what matters.
  have hkeep {p' : Publisher P} (hsame : p.SameControl p') (houtbox : p'.outbox = p.outbox) :
      ∃ queued : Option P.Message, PublisherMove p p' none queued ∧
        Joined p.outbox p'.outbox queued := by
    refine ⟨none, .other hsame plain_none, ?_⟩
    rw [houtbox]
    exact .nothing _
  unfold propose
  split
  · exact hkeep (.refl p) rfl
  next hstate =>
  split
  · exact hkeep (.refl p) rfl
  next hgeneration =>
  split
  · exact hkeep (.refl p) rfl
  obtain ⟨hsame, houtbox⟩ := noteIfActive_same p now
  split
  next e p₁ hnote =>
    rw [hnote] at hsame houtbox
    exact hkeep hsame houtbox
  next p₁ hnote =>
  rw [hnote] at hsame houtbox
  split
  · exact hkeep hsame houtbox
  next layout hlayout =>
  rcases queue_cases p₁ (.sessionProposal proposal) with ⟨e, hqueue⟩ | ⟨bytes, hencode, hqueue⟩
  · simp only [hqueue]
    exact hkeep hsame houtbox
  · simp only [hqueue]
    rw [Bool.or_eq_true, not_or] at hstate
    have hnone : p.pending = none := by
      cases hpending : p.pending with
      | none => rfl
      | some D => simp [hpending] at hstate
    refine ⟨some (.sessionProposal proposal), .proposed proposal _ hnone ?_
      ⟨rfl, rfl, rfl, rfl, hlayout⟩ rfl rfl hsame.active, ?_⟩
    · -- A proposal for the active session comes with a later generation.
      intro A hA hsession
      have hlate : ¬(decide (A.sessionId = proposal.sessionId) &&
          decide (proposal.generation ≤ A.generation)) = true := by
        intro h
        apply hgeneration
        rw [hA]
        exact h
      simp only [Bool.and_eq_true, decide_eq_true_eq, not_and] at hlate
      exact UInt32.not_le.mp (hlate hsession)
    · have houtbox : p₁.outbox = p.outbox := houtbox
      rw [← houtbox]
      exact .message _ bytes _ hencode

theorem acceptLayout_cases (p : Publisher P) (accept : LayoutAccept) :
    ∃ queued, PublisherMove p (p.acceptLayout accept).2 (some (.layoutAccepted accept)) queued ∧
      Joined p.outbox (p.acceptLayout accept).2.outbox queued := by
  have hkeep : ∃ queued : Option P.Message,
      PublisherMove p p (some (.layoutAccepted accept)) queued ∧ Joined p.outbox p.outbox queued :=
    ⟨none, .other (.refl p) plain_none, .nothing _⟩
  unfold acceptLayout
  split
  · exact hkeep
  split
  · exact hkeep
  next D hpending =>
  split
  · exact hkeep
  next hmatch =>
  push Not at hmatch
  rcases queue_cases p (.layoutConfirmed (P.acceptConfirmation accept)) with
    ⟨e, hqueue⟩ | ⟨bytes, hencode, hqueue⟩
  · simp only [hqueue]
    exact hkeep
  · simp only [hqueue]
    refine ⟨some (.layoutConfirmed (P.confirmation D.layout)),
      .accepted accept D hpending rfl rfl rfl, ?_⟩
    rw [← hmatch.1]
    exact .message _ bytes _ hencode

theorem ready_cases (p : Publisher P) (sessionId : NtpSessionId) (generation layoutId : UInt32) :
    PublisherMove p (p.ready sessionId generation layoutId).2
        (some (.sessionReady sessionId generation layoutId)) none ∧
      (p.ready sessionId generation layoutId).2.outbox = p.outbox := by
  unfold ready
  split
  · exact ⟨.other (.refl p) plain_none, rfl⟩
  next D hpending =>
  split
  · exact ⟨.other (.refl p) plain_none, rfl⟩
  next hmatch =>
    push Not at hmatch
    obtain ⟨-, rfl, rfl, rfl⟩ := hmatch
    exact ⟨.ready D hpending rfl rfl rfl, rfl⟩

/-- Every message is handled by one move. -/
theorem handle_cases (p : Publisher P) (producerNowNs : UInt64) (m : P.Message) :
    ∃ queued, PublisherMove p (p.handle producerNowNs m).2 (some m) queued ∧
      Joined p.outbox (p.handle producerNowNs m).2.outbox queued := by
  have hkeep {p' : Publisher P} (hsame : p.SameControl p') (houtbox : p'.outbox = p.outbox) :
      ∃ queued : Option P.Message, PublisherMove p p' (some m) queued ∧
        Joined p.outbox p'.outbox queued := by
    refine ⟨none, .other hsame plain_none, ?_⟩
    rw [houtbox]
    exact .nothing _
  cases m with
  | layoutAccepted accept => exact acceptLayout_cases p accept
  | sessionReady sessionId generation layoutId =>
    obtain ⟨hmove, houtbox⟩ := ready_cases p sessionId generation layoutId
    refine ⟨none, hmove, ?_⟩
    simp only [handle, houtbox]
    exact .nothing _
  | ping receiverSendNs =>
    rcases queue_cases p (.pong receiverSendNs producerNowNs) with
      ⟨e, hqueue⟩ | ⟨bytes, hencode, hqueue⟩
    · simp only [handle, hqueue]
      exact hkeep (.refl p) rfl
    · simp only [handle, hqueue]
      exact ⟨some _, .other ⟨rfl, rfl, rfl⟩ (plain_some rfl), .message _ bytes _ hencode⟩
  | hello hello =>
    simp only [handle]
    split <;> exact hkeep ⟨rfl, rfl, rfl⟩ rfl
  | command command =>
    simp only [handle]
    split <;> exact hkeep ⟨rfl, rfl, rfl⟩ rfl
  | _ => exact hkeep ⟨rfl, rfl, rfl⟩ rfl

theorem propose_reliable (p : Publisher P) (proposal : SessionProposal P.toTrackingTypes)
    (now : ℕ) : (p.propose proposal now).2.reliable = p.reliable := by
  have hnote : (p.noteIfActive now).2.reliable = p.reliable := by
    unfold noteIfActive noteReconfigure
    split
    · split <;> rfl
    · rfl
  unfold propose
  split
  · rfl
  split
  · rfl
  split
  · rfl
  split
  next e p₁ heq =>
    rw [heq] at hnote
    exact hnote
  next p₁ heq =>
  rw [heq] at hnote
  split
  · exact hnote
  rcases queue_cases p₁ (.sessionProposal proposal) with ⟨e, hqueue⟩ | ⟨bytes, -, hqueue⟩
  · simp only [hqueue]
    exact hnote
  · simp only [hqueue]
    exact hnote

theorem handle_reliable (p : Publisher P) (producerNowNs : UInt64) (m : P.Message) :
    (p.handle producerNowNs m).2.reliable = p.reliable := by
  cases m with
  | layoutAccepted accept =>
    simp only [handle, acceptLayout]
    split
    · rfl
    split
    · rfl
    split
    · rfl
    rcases queue_cases p (.layoutConfirmed (P.acceptConfirmation accept)) with
      ⟨e, hqueue⟩ | ⟨bytes, -, hqueue⟩
    · simp only [hqueue]
    · simp only [hqueue]
  | sessionReady sessionId generation layoutId =>
    simp only [handle, ready]
    split
    · rfl
    split <;> rfl
  | ping receiverSendNs =>
    rcases queue_cases p (.pong receiverSendNs producerNowNs) with
      ⟨e, hqueue⟩ | ⟨bytes, -, hqueue⟩
    · simp only [handle, hqueue]
    · simp only [handle, hqueue]
  | hello hello =>
    simp only [handle]
    split <;> rfl
  | command command =>
    simp only [handle]
    split <;> rfl
  | _ => rfl

end Publisher

end PublisherMoves

section PublisherCalls
variable {P : TrackingProtocol} {F : Frame → Prop}

/-- A part of a call that moves messages along their way and changes no definition. -/
structure Publisher.Quiet (F : Frame → Prop) (p p' : Publisher P) (s s' : End) : Prop where
  same : p.SameControl p'
  way : s'.outgoing ++ p'.outbox = s.outgoing ++ p.outbox
  incoming : s'.incoming = s.incoming
  waiting : p'.reliable.All F
  given : ∀ frame ∈ s'.frames, F frame

/-- What a call of the publisher does to the lanes, to its definitions and with frames. -/
structure Publisher.Effect (F : Frame → Prop) (p p' : Publisher P) (s s' : End) : Prop where
  exchange : ∃ received queued, Taken s.incoming s'.incoming received ∧
    Joined (s.outgoing ++ p.outbox) (s'.outgoing ++ p'.outbox) queued ∧
    PublisherMove p p' received queued
  waiting : p'.reliable.All F
  given : ∀ frame ∈ s'.frames, F frame

namespace Publisher
variable {p p' p'' : Publisher P} {s s' s'' : End}

theorem DataStep.quiet (h : DataStep F p p' s s') : Quiet F p p' s s' where
  same := h.kept.toSameControl
  way := by rw [h.lanes.outgoing, h.kept.outbox]
  incoming := h.lanes.incoming
  waiting := h.waiting
  given := h.given

theorem Quiet.effect (h : Quiet F p p' s s') : Effect F p p' s s' where
  exchange := by
    refine ⟨none, none, ?_, ?_, .other h.same plain_none⟩
    · rw [h.incoming]
      exact .nothing _
    · rw [h.way]
      exact .nothing _
  waiting := h.waiting
  given := h.given

theorem Quiet.then (h : Quiet F p p' s s') (h' : Effect F p' p'' s' s'') :
    Effect F p p'' s s'' where
  exchange := by
    obtain ⟨received, queued, htaken, hjoined, hmove⟩ := h'.exchange
    refine ⟨received, queued, ?_, ?_, hmove.left h.same⟩
    · rw [← h.incoming]
      exact htaken
    · rw [← h.way]
      exact hjoined
  waiting := h'.waiting
  given := h'.given

theorem Effect.quietly (h : Effect F p p' s s') (h' : Quiet F p' p'' s' s'') :
    Effect F p p'' s s'' where
  exchange := by
    obtain ⟨received, queued, htaken, hjoined, hmove⟩ := h.exchange
    refine ⟨received, queued, ?_, ?_, hmove.right h'.same⟩
    · rw [h'.incoming]
      exact htaken
    · rw [h'.way]
      exact hjoined
  waiting := h'.waiting
  given := h'.given

theorem flush_quiet (h : p.reliable.All F) (hs : ∀ frame ∈ s.frames, F frame) :
    Quiet F p (p.flush endConnection s).2.1 s (p.flush endConnection s).2.2 := by
  have hway := flushControl_way (ε := P.Error) p.outbox s
  unfold flush
  generalize flushControl (ε := P.Error) endConnection p.outbox s = flushed at hway ⊢
  obtain ⟨result, outbox, s'⟩ := flushed
  obtain ⟨houtgoing, hincoming, hframes⟩ := hway
  refine ⟨⟨rfl, rfl, rfl⟩, houtgoing, hincoming, h, ?_⟩
  rw [hframes]
  exact hs

theorem trySendHello_effect (h : p.reliable.All F) (hs : ∀ frame ∈ s.frames, F frame) :
    Effect F p (p.trySendHello endConnection s).2.1 s (p.trySendHello endConnection s).2.2 := by
  unfold trySendHello
  rcases queue_cases p (.hello (.new p.authorization.linkSessionId)) with
    ⟨e, hqueue⟩ | ⟨bytes, hencode, hqueue⟩
  · simp only [hqueue]
    exact (Quiet.mk (.refl p) rfl rfl h hs).effect
  · simp only [hqueue]
    have hqueued : Effect F p { p with outbox := p.outbox ++ [bytes] } s s := by
      refine ⟨⟨none, some (.hello (.new p.authorization.linkSessionId)), .nothing _, ?_,
        .other ⟨rfl, rfl, rfl⟩ (plain_some rfl)⟩, h, hs⟩
      exact (Joined.message _ bytes _ hencode).append_left _
    exact hqueued.quietly (flush_quiet h hs)

theorem publishDescriptor_effect (h : p.reliable.All F) (hs : ∀ frame ∈ s.frames, F frame)
    (proposal : SessionProposal P.toTrackingTypes) (now : ℕ) :
    Effect F p (p.publishDescriptor endConnection s proposal now).2.1 s
      (p.publishDescriptor endConnection s proposal now).2.2 := by
  obtain ⟨queued, hmove, hjoined⟩ := propose_cases p proposal now
  have hall : (p.propose proposal now).2.reliable.All F := by
    rw [propose_reliable]
    exact h
  have hproposed : Effect F p (p.propose proposal now).2 s s :=
    ⟨⟨none, queued, .nothing _, hjoined.append_left _, hmove⟩, hall, hs⟩
  unfold publishDescriptor
  split
  next e p₁ heq =>
    rw [heq] at hproposed
    exact hproposed
  next p₁ heq =>
    rw [heq] at hproposed
    exact hproposed.quietly (flush_quiet hproposed.waiting hs)

/-- A message is received and handled between flushes. -/
theorem pollControl_effect (h : p.reliable.All F) (hs : ∀ frame ∈ s.frames, F frame)
    (producerNowNs : UInt64) :
    Effect F p (p.pollControl endConnection s producerNowNs).2.1 s
      (p.pollControl endConnection s producerNowNs).2.2 := by
  have hfirst := flush_quiet h hs
  unfold pollControl
  split
  next e p₁ s₁ heq =>
    rw [heq] at hfirst
    exact hfirst.effect
  next p₁ s₁ heq =>
  rw [heq] at hfirst
  simp only
  have hdata : ∀ result p₂ s₂, (if p₁.transportMode = .reliableLatestOnly then
      p₁.flushReliable endConnection s₁ else (.ok (), p₁, s₁)) = (result, p₂, s₂) →
      Quiet F p₁ p₂ s₁ s₂ := by
    intro result p₂ s₂ hflushed
    split at hflushed
    · have hstep := flushReliable_step hfirst.waiting hfirst.given
      rw [hflushed] at hstep
      exact hstep.quiet
    · obtain ⟨-, rfl, rfl⟩ := hflushed
      exact ⟨.refl _, rfl, rfl, hfirst.waiting, hfirst.given⟩
  split
  next e p₂ s₂ heq =>
    exact hfirst.then (hdata _ _ _ heq).effect
  next p₂ s₂ heq =>
  have hsecond := hdata _ _ _ heq
  refine hfirst.then (hsecond.then ?_)
  obtain ⟨received, htaken, houtgoing, hframes, hreceived⟩ :=
    receiveControl_taken (T := P.toTrackingTypes) p₂.config s₂
  -- Without a message to handle the lane may still have lost its front.
  have hidle : Effect F p₂ p₂ s₂
      (receiveControl (T := P.toTrackingTypes) endConnection p₂.config s₂).2 := by
    refine ⟨⟨received, none, htaken, ?_, .other (.refl p₂) plain_none⟩, hsecond.waiting, ?_⟩
    · rw [houtgoing]
      exact .nothing _
    · rw [hframes]
      exact hsecond.given
  split
  next e s₃ heq =>
    rw [heq] at hidle
    exact hidle
  next s₃ heq =>
    rw [heq] at hidle
    exact hidle
  next message s₃ heq =>
  rw [heq] at htaken houtgoing hframes hreceived
  rw [hreceived message rfl] at htaken
  obtain ⟨queued, hmove, hjoined⟩ := handle_cases p₂ producerNowNs message
  have hhandled : Effect F p₂ (p₂.handle producerNowNs message).2 s₂ s₃ := by
    refine ⟨⟨some message, queued, htaken, ?_, hmove⟩, ?_, ?_⟩
    · rw [houtgoing]
      exact hjoined.append_left _
    · rw [handle_reliable]
      exact hsecond.waiting
    · rw [hframes]
      exact hsecond.given
  split
  next e p₃ hhandle =>
    rw [hhandle] at hhandled
    exact hhandled
  next event p₃ hhandle =>
    rw [hhandle] at hhandled
    have hlast := flush_quiet hhandled.waiting hhandled.given
    split
    next e p₄ s₄ hflush =>
      rw [hflush] at hlast
      exact hhandled.quietly hlast
    next p₄ s₄ hflush =>
      rw [hflush] at hlast
      exact hhandled.quietly hlast

/-- One call takes at most one message, queues at most one, and moves the definitions with them. -/
theorem call_effect (h : p.reliable.All F) (hs : ∀ frame ∈ s.frames, F frame)
    (hactive : ∀ D, p.active = some D → ∀ frame, FrameOf D frame → F frame)
    (call : PublisherCall P) : Effect F p (p.call s call).1 s (p.call s call).2 := by
  cases call with
  | trySendHello => exact trySendHello_effect h hs
  | publishDescriptor proposal now => exact publishDescriptor_effect h hs proposal now
  | pollControl producerNowNs => exact pollControl_effect h hs producerNowNs
  | trySendLatest result now later =>
    exact (trySendLatest_step h hs hactive result now later).quiet.effect

end Publisher

end PublisherCalls

end MutsukiLink.Ntp
