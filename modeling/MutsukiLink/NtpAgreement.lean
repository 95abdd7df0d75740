import MutsukiLink.NtpActivation

/-! Runs of the two ends: the subscriber never has a session that the publisher does not know, the
publisher follows it, and only then sends frames. -/
namespace MutsukiLink.Ntp
open WireBytes

section Runs
variable {P : TrackingProtocol}

abbrev WorldEvent (P : TrackingProtocol) := RunHistory.Event (World P) (WorldCall P) (List Frame)

/-- Both ends are new and nothing is under way. -/
structure World.Initial (w : World P) : Prop where
  publisher : ∃ (s : End) (metadata : ConnectionMetadata) (authorization : NtpAuthorization)
    (config : BindingConfig) (now later : ℕ),
    Publisher.new endConnection s metadata authorization config now later = .ok w.publisher
  subscriber : ∃ (s : End) (metadata : ConnectionMetadata) (authorization : NtpAuthorization)
    (config : BindingConfig),
    Subscriber.new endConnection s metadata authorization config = .ok w.subscriber
  toSubscriber : w.toSubscriber = []
  toPublisher : w.toPublisher = []

/-- In this call the publisher receives the readiness for its pending definition and activates
it. -/
structure PublisherActivates (e : WorldEvent P) (D : SessionDefinition P) : Prop where
  pending : e.pre.publisher.pending = some D
  taken : e.post.publisher.pending = none
  active : e.post.publisher.active = some D
  received : ∃ bytes, e.pre.toPublisher = bytes :: e.post.toPublisher ∧
    ControlMessage.decode (T := P.toTrackingTypes) bytes =
      .ok (.sessionReady D.sessionId D.generation (P.layoutId D.layout))

/-- In this call the subscriber activates the session of its pending proposal. -/
def SubscriberActivates (e : WorldEvent P) (S : SubscriberSession P) : Prop :=
  ∃ proposal confirm, e.pre.subscriber.Activates e.post.subscriber proposal confirm S

/-- A generation that follows another one of the same session is greater. -/
def Publisher.Increasing (p : Publisher P) : Prop :=
  ∀ D A, p.pending = some D → p.active = some A → A.sessionId = D.sessionId →
    A.generation < D.generation

def Subscriber.Increasing (c : Subscriber P) : Prop :=
  ∀ proposal A, c.pending = some proposal → c.active = some A →
    A.sessionId = proposal.sessionId → A.generation < proposal.generation

/-- The messages on the two ways are those of one stage of the exchange. -/
def World.Staged (w : World P) : Prop :=
  ∃ down up, Carried (w.toSubscriber ++ w.publisher.outbox) down ∧
    Carried (w.toPublisher ++ w.subscriber.outbox) up ∧
    Stage w.publisher w.subscriber (negotiation down) (negotiation up)

/-- What holds of every state of a run, with the frames that the publisher has waiting. -/
structure World.Sound (F : Frame → Prop) (w : World P) : Prop where
  staged : w.Staged
  publisher : w.publisher.Increasing
  subscriber : w.subscriber.Increasing
  waiting : w.publisher.reliable.All F

/-- What one event of a run does with the definitions and which frames it sends. -/
structure WorldEvent.Follows (F : Frame → Prop) (e : WorldEvent P) : Prop where
  publisher : e.post.publisher.active = e.pre.publisher.active ∨ ∃ D, PublisherActivates e D
  subscriber : e.post.subscriber.active = e.pre.subscriber.active ∨ ∃ S, SubscriberActivates e S
  agreed : ∀ D, PublisherActivates e D →
    ∃ S, e.pre.subscriber.active = some S ∧ SameDefinition S D
  frames : ∀ frame ∈ e.reply, F frame

variable {F : Frame → Prop} {p p' : Publisher P} {c c' : Subscriber P}
  {received queued : Option P.Message} {w : World P}

theorem PublisherMove.increasing (h : PublisherMove p p' received queued) (hp : p.Increasing) :
    p'.Increasing := by
  cases h with
  | other hsame hplain =>
    intro D A hD hA
    exact hp D A (hsame.pending ▸ hD) (hsame.active ▸ hA)
  | proposed proposal D hnone hlater hproposes hpending haccepted hactive =>
    intro D' A hD hA
    obtain rfl := Option.some.inj (hpending.symm.trans hD)
    exact hlater A (hactive ▸ hA)
  | accepted accept D hpending hsame haccepted hactive =>
    intro D' A hD hA
    exact hp D' A (hsame ▸ hD) (hactive ▸ hA)
  | ready D hpending hnone haccepted hactive =>
    intro D' A hD
    cases hnone.symm.trans hD

theorem SubscriberMove.increasing (h : SubscriberMove c c' received queued) (hc : c.Increasing) :
    c'.Increasing := by
  cases h with
  | other hpending hactive hnegotiator hplain =>
    intro proposal A hproposal hA
    exact hc proposal A (hpending ▸ hproposal) (hactive ▸ hA)
  | offered proposal accept now hnone hlater hreceived hpending hactive =>
    intro proposal' A hproposal hA
    obtain rfl := Option.some.inj (hpending.symm.trans hproposal)
    exact hlater A (hactive ▸ hA)
  | dropped proposal confirm hpending hnone hactive =>
    intro proposal' A hproposal
    cases hnone.symm.trans hproposal
  | activated proposal confirm S hactivates hqueued =>
    intro proposal' A hproposal
    cases hactivates.taken.symm.trans hproposal

/-- The bytes of a message that was taken. -/
theorem Taken.bytes {T : TrackingTypes} {lane lane' : List Bytes} {m : ControlMessage T}
    (h : Taken lane lane' (some m)) :
    ∃ bytes, lane = bytes :: lane' ∧ ControlMessage.decode bytes = .ok m := by
  cases h with
  | message bytes _ _ hdecode => exact ⟨bytes, rfl, hdecode⟩

theorem SubscriberMove.active_cases (h : SubscriberMove c c' received queued) :
    c'.active = c.active ∨ ∃ S proposal confirm, c.Activates c' proposal confirm S := by
  cases h with
  | other hpending hactive => exact Or.inl hactive
  | offered proposal accept now hnone hlater hreceived hpending hactive => exact Or.inl hactive
  | dropped proposal confirm hpending hnone hactive => exact Or.inl hactive
  | activated proposal confirm S hactivates => exact Or.inr ⟨S, proposal, confirm, hactivates⟩

/-- A publisher without a pending definition any more has received its readiness. -/
theorem PublisherMove.of_taken (h : PublisherMove p p' received queued) {D : SessionDefinition P}
    (hpending : p.pending = some D) (hnone : p'.pending = none) :
    p'.active = some D ∧
      received = some (.sessionReady D.sessionId D.generation (P.layoutId D.layout)) := by
  cases h with
  | other hsame => cases hnone.symm.trans (hsame.pending.trans hpending)
  | proposed proposal D' hnone' => cases hnone'.symm.trans hpending
  | accepted accept D' hpending' hsame => cases hnone.symm.trans (hsame.trans hpending)
  | ready D' hpending' hnone' haccepted hactive =>
    obtain rfl := Option.some.inj (hpending.symm.trans hpending')
    exact ⟨hactive, rfl⟩

theorem PublisherMove.active_cases (h : PublisherMove p p' received queued) :
    p'.active = p.active ∨ ∃ D, p.pending = some D ∧ p'.pending = none := by
  cases h with
  | other hsame => exact Or.inl hsame.active
  | proposed proposal D hnone hlater hproposes hpending haccepted hactive => exact Or.inl hactive
  | accepted accept D hpending hsame haccepted hactive => exact Or.inl hactive
  | ready D hpending hnone => exact Or.inr ⟨D, hpending, hnone⟩

/-- A call of the publisher. -/
theorem World.Sound.publisher_call (codec : P.CodecLaws) (h : w.Sound F)
    (hactive : ∀ D, w.publisher.active = some D → ∀ frame, FrameOf D frame → F frame)
    (call : PublisherCall P) (conditions : Conditions) :
    (w.step (.publisher call conditions)).2.Sound F ∧
      WorldEvent.Follows F (RunHistory.event World.step w (.publisher call conditions)) := by
  obtain ⟨⟨down, up, hdown, hup, hstage⟩, hp, hc, hall⟩ := h
  have heffect := Publisher.call_effect (s := ⟨w.toSubscriber, w.toPublisher, [], conditions⟩) hall
    (by simp) hactive call
  obtain ⟨⟨received, queued, htaken, hjoined, hmove⟩, hwaiting, hgiven⟩ := heffect
  obtain ⟨up', hup', hfetched⟩ := htaken.fetched codec hup
  obtain ⟨down', hdown', hadded⟩ := hjoined.carried hdown
  have hnext := hstage.publisher_step hmove hfetched
  rw [← hadded] at hnext
  refine ⟨⟨⟨down', up', hdown', hup', hnext⟩, hmove.increasing hp, hc, hwaiting⟩, ?_⟩
  constructor
  · rcases hmove.active_cases with hsame | ⟨D, hpending, hnone⟩
    · exact Or.inl hsame
    · obtain ⟨hnow, hreceived⟩ := hmove.of_taken hpending hnone
      exact Or.inr ⟨D, hpending, hnone, hnow, (hreceived ▸ htaken).bytes⟩
  · exact Or.inl rfl
  · intro D hactivates
    obtain ⟨-, hreceived⟩ := hmove.of_taken hactivates.pending hactivates.taken
    rw [hreceived] at hfetched
    obtain ⟨sent, hsent, hready⟩ := hfetched.of_negotiation rfl
    rw [hsent, received_eq_ready hready] at hstage
    exact (hstage.of_ready hactivates.pending).2.2.2
  · exact hgiven

/-- A call of the subscriber. -/
theorem World.Sound.subscriber_call (codec : P.CodecLaws) (laws : P.NegotiationLaws)
    (h : w.Sound F) (call : SubscriberCall) (conditions : Conditions) :
    (w.step (.subscriber call conditions)).2.Sound F ∧
      WorldEvent.Follows F (RunHistory.event World.step w (.subscriber call conditions)) := by
  obtain ⟨⟨down, up, hdown, hup, hstage⟩, hp, hc, hall⟩ := h
  obtain ⟨⟨received, queued, htaken, hjoined, hmove⟩, hframes⟩ := Subscriber.call_effect
    w.subscriber ⟨w.toPublisher, w.toSubscriber, [], conditions⟩ call
  obtain ⟨down', hdown', hfetched⟩ := htaken.fetched codec hdown
  obtain ⟨up', hup', hadded⟩ := hjoined.carried hup
  have hnext := hstage.subscriber_step laws hmove hfetched
  rw [← hadded] at hnext
  refine ⟨⟨⟨down', up', hdown', hup', hnext⟩, hp, hmove.increasing hc, hall⟩, ?_⟩
  constructor
  · exact Or.inl rfl
  · rcases hmove.active_cases with hsame | ⟨S, hactivates⟩
    · exact Or.inl hsame
    · exact Or.inr ⟨S, hactivates⟩
  · intro D hactivates
    -- The publisher is not called, so it keeps its pending definition.
    cases hactivates.pending.symm.trans hactivates.taken
  · intro frame hframe
    have hnone : (w.subscriber.call ⟨w.toPublisher, w.toSubscriber, [], conditions⟩ call).2.frames =
        [] := hframes
    have hmem : frame ∈
        (w.subscriber.call ⟨w.toPublisher, w.toSubscriber, [], conditions⟩ call).2.frames := hframe
    rw [hnone] at hmem
    cases hmem

theorem World.Sound.mono (h : w.Sound F) {F' : Frame → Prop} (hF : ∀ frame, F frame → F' frame) :
    w.Sound F' :=
  ⟨h.staged, h.publisher, h.subscriber, fun flow frame hframe => hF _ (h.waiting flow frame hframe)⟩

theorem World.Initial.sound (h : w.Initial) : w.Sound F ∧ w.publisher.active = none ∧
    w.subscriber.active = none := by
  obtain ⟨⟨s, metadata, authorization, config, now, later, hp⟩, ⟨s', metadata', authorization',
    config', hc⟩, hdown, hup⟩ := h
  -- A new end is idle: nothing is pending, active or queued.
  have hpublisher : w.publisher.pending = none ∧ w.publisher.active = none ∧
      w.publisher.outbox = [] ∧ w.publisher.reliable = {} := by
    unfold Publisher.new at hp
    split at hp
    · cases hp
    split at hp
    · cases hp
    split at hp
    · cases hp
    · rw [← Except.ok.inj hp]
      exact ⟨rfl, rfl, rfl, rfl⟩
  have hsubscriber : w.subscriber.pending = none ∧ w.subscriber.active = none ∧
      w.subscriber.outbox = [] := by
    unfold Subscriber.new at hc
    split at hc
    · cases hc
    split at hc
    · cases hc
    split at hc
    · cases hc
    split at hc
    · cases hc
    · rw [← Except.ok.inj hc]
      exact ⟨rfl, rfl, rfl⟩
  obtain ⟨hpending, hactive, houtbox, hreliable⟩ := hpublisher
  obtain ⟨hpending', hactive', houtbox'⟩ := hsubscriber
  refine ⟨⟨⟨[], [], ?_, ?_, .idle hpending hpending' ?_⟩, ?_, ?_, ?_⟩, hactive, hactive'⟩
  · rw [hdown, houtbox]
    exact .nil
  · rw [hup, houtbox']
    exact .nil
  · rw [hactive, hactive']
    exact .none
  · intro D A hD
    cases hpending.symm.trans hD
  · intro proposal A hproposal
    cases hpending'.symm.trans hproposal
  · intro flow frame hframe
    rw [hreliable] at hframe
    simp at hframe

/-- A frame of a definition that was activated in these events. -/
def SentFor (hist : List (WorldEvent P)) (frame : Frame) : Prop :=
  ∃ e ∈ hist, ∃ D, PublisherActivates e D ∧ FrameOf D frame

theorem SentFor.mono {hist : List (WorldEvent P)} {frame : Frame} (h : SentFor hist frame)
    (hist' : List (WorldEvent P)) : SentFor (hist ++ hist') frame := by
  obtain ⟨e, he, D, hactivates, hframe⟩ := h
  exact ⟨e, List.mem_append_left _ he, D, hactivates, hframe⟩

/-- An event of a run, with the history before it. -/
structure WorldEvent.Fits (before : List (WorldEvent P)) (e : WorldEvent P) : Prop where
  follows : WorldEvent.Follows (SentFor before) e
  activated : ∀ S, e.pre.subscriber.active = some S → ∃ x ∈ before, SubscriberActivates x S

/-- What the history of a run says at its end. -/
structure Told (hist : List (WorldEvent P)) (w : World P) : Prop where
  sound : w.Sound (SentFor hist)
  publisher : ∀ D, w.publisher.active = some D → ∃ e ∈ hist, PublisherActivates e D
  subscriber : ∀ S, w.subscriber.active = some S → ∃ e ∈ hist, SubscriberActivates e S
  fits : ∀ before e after, hist = before ++ e :: after → WorldEvent.Fits before e

/-- A call in a sound state is one of either end. -/
theorem World.Sound.step (codec : P.CodecLaws) (laws : P.NegotiationLaws) (h : w.Sound F)
    (hactive : ∀ D, w.publisher.active = some D → ∀ frame, FrameOf D frame → F frame)
    (call : WorldCall P) : (w.step call).2.Sound F ∧
      WorldEvent.Follows F (RunHistory.event World.step w call) := by
  cases call with
  | publisher call conditions => exact h.publisher_call codec hactive call conditions
  | subscriber call conditions => exact h.subscriber_call codec laws call conditions

theorem Told.step (codec : P.CodecLaws) (laws : P.NegotiationLaws) {hist : List (WorldEvent P)}
    (h : Told hist w) (call : WorldCall P) :
    Told (hist ++ [RunHistory.event World.step w call]) (w.step call).2 := by
  have hactive : ∀ D, w.publisher.active = some D → ∀ frame, FrameOf D frame →
      SentFor hist frame := by
    intro D hD frame hframe
    obtain ⟨e, he, hactivates⟩ := h.publisher D hD
    exact ⟨e, he, D, hactivates, hframe⟩
  obtain ⟨hsound, hfollows⟩ := h.sound.step codec laws hactive call
  have hlast : RunHistory.event World.step w call ∈
      hist ++ [RunHistory.event World.step w call] :=
    List.mem_append_right _ (List.mem_singleton_self _)
  refine ⟨hsound.mono fun frame hframe => hframe.mono _, ?_, ?_, ?_⟩
  · intro D hD
    rcases hfollows.publisher with hsame | ⟨D', hactivates⟩
    · obtain ⟨e, he, hactivates⟩ := h.publisher D (hsame.symm.trans hD)
      exact ⟨e, List.mem_append_left _ he, hactivates⟩
    · obtain rfl := Option.some.inj (hactivates.active.symm.trans hD)
      exact ⟨_, hlast, hactivates⟩
  · intro S hS
    rcases hfollows.subscriber with hsame | ⟨S', hactivates⟩
    · obtain ⟨e, he, hactivates⟩ := h.subscriber S (hsame.symm.trans hS)
      exact ⟨e, List.mem_append_left _ he, hactivates⟩
    · obtain ⟨proposal, confirm, hnow⟩ := id hactivates
      obtain rfl := Option.some.inj (hnow.active.symm.trans hS)
      exact ⟨_, hlast, hactivates⟩
  · intro before e after heq
    rcases RunHistory.split_concat heq with ⟨rfl, rfl⟩ | ⟨after', hhist⟩
    · exact ⟨hfollows, h.subscriber⟩
    · exact h.fits before e after' hhist

theorem World.Initial.told (h : w.Initial) : Told [] w := by
  obtain ⟨hsound, hactive, hnone⟩ := h.sound (F := SentFor [])
  refine ⟨hsound, ?_, ?_, ?_⟩
  · intro D hD
    cases hactive.symm.trans hD
  · intro S hS
    cases hnone.symm.trans hS
  · intro before e after heq
    simp at heq

/-- Every state of a run is sound, whatever the frames are. -/
theorem World.Initial.sound_trace (codec : P.CodecLaws) (laws : P.NegotiationLaws) (h : w.Initial)
    (calls : List (WorldCall P)) :
    ∀ e ∈ RunHistory.trace World.step w calls, e.pre.Sound (fun _ => True) ∧
      WorldEvent.Follows (fun _ => True) e := by
  intro e he
  obtain ⟨hpre, heq⟩ := RunHistory.trace_invariant World.step
    (I := fun w : World P => w.Sound fun _ => True)
    (fun w call hw => (hw.step codec laws (fun _ _ _ _ => trivial) call).1) h.sound.1 calls e he
  refine ⟨hpre, ?_⟩
  rw [heq]
  exact (hpre.step codec laws (fun _ _ _ _ => trivial) e.input).2

/-- Two activations of one session by the publisher, one after the other. -/
theorem publisher_generations (codec : P.CodecLaws) (laws : P.NegotiationLaws) (hw : w.Initial)
    {calls : List (WorldCall P)} {before between after : List (WorldEvent P)}
    {e e' : WorldEvent P} {A D : SessionDefinition P}
    (h : RunHistory.trace World.step w calls = before ++ e :: (between ++ e' :: after))
    (hA : PublisherActivates e A) (hD : PublisherActivates e' D)
    (hnone : ∀ x ∈ between, ∀ B, ¬PublisherActivates x B) (hsession : A.sessionId = D.sessionId) :
    A.generation < D.generation := by
  have hsound := hw.sound_trace codec laws calls
  have hactive := RunHistory.value_set (f := fun w : World P => w.publisher.active)
    (A := fun e active => ∃ D, active = some D ∧ PublisherActivates e D) (a := some A) World.step
    (fun e he => (hsound e he).2.publisher.imp_right fun ⟨D, hD⟩ => ⟨some D, D, rfl, hD⟩) h
    (fun x hx b ⟨B, _, hB⟩ => hnone x hx B hB) hA.active
  have hmem : e' ∈ RunHistory.trace World.step w calls := by
    rw [h]
    simp
  exact (hsound e' hmem).1.publisher D A hD.pending hactive hsession

theorem subscriber_generations (codec : P.CodecLaws) (laws : P.NegotiationLaws) (hw : w.Initial)
    {calls : List (WorldCall P)} {before between after : List (WorldEvent P)}
    {e e' : WorldEvent P} {A S : SubscriberSession P}
    (h : RunHistory.trace World.step w calls = before ++ e :: (between ++ e' :: after))
    (hA : SubscriberActivates e A) (hS : SubscriberActivates e' S)
    (hnone : ∀ x ∈ between, ∀ B, ¬SubscriberActivates x B) (hsession : A.sessionId = S.sessionId) :
    A.generation < S.generation := by
  have hsound := hw.sound_trace codec laws calls
  obtain ⟨_, _, hearlier⟩ := hA
  have hactive := RunHistory.value_set (f := fun w : World P => w.subscriber.active)
    (A := fun e active => ∃ S, active = some S ∧ SubscriberActivates e S) (a := some A) World.step
    (fun e he => (hsound e he).2.subscriber.imp_right fun ⟨S, hS⟩ => ⟨some S, S, rfl, hS⟩) h
    (fun x hx b ⟨B, _, hB⟩ => hnone x hx B hB) hearlier.active
  have hmem : e' ∈ RunHistory.trace World.step w calls := by
    rw [h]
    simp
  obtain ⟨proposal, confirm, hactivates⟩ := hS
  obtain ⟨guard, hS⟩ := hactivates.session
  rw [hS] at hsession ⊢
  exact (hsound e' hmem).1.subscriber proposal A hactivates.pending hactive hsession

/-- The two ends agree on what they activate, in this order: the subscriber activates a definition
that the publisher has pending, the publisher activates it when it has received the readiness, and
then it sends frames of it. -/
theorem session_activation_agreement (codec : P.CodecLaws) (laws : P.NegotiationLaws)
    (hw : w.Initial) (calls : List (WorldCall P)) :
    (∀ S, (RunHistory.run World.step w calls).subscriber.active = some S →
      ∃ D, ((RunHistory.run World.step w calls).publisher.active = some D ∨
        (RunHistory.run World.step w calls).publisher.pending = some D) ∧ SameDefinition S D) ∧
    (∀ before e after, RunHistory.trace World.step w calls = before ++ e :: after →
      (e.post.publisher.active = e.pre.publisher.active ∨ ∃ D, PublisherActivates e D) ∧
      (e.post.subscriber.active = e.pre.subscriber.active ∨ ∃ S, SubscriberActivates e S) ∧
      (∀ D, PublisherActivates e D → ∃ S, e.pre.subscriber.active = some S ∧ SameDefinition S D ∧
        ∃ x ∈ before, SubscriberActivates x S) ∧
      ∀ frame ∈ e.reply, ∃ x ∈ before, ∃ D, PublisherActivates x D ∧ FrameOf D frame) ∧
    ∀ before e between e' after,
      RunHistory.trace World.step w calls = before ++ e :: (between ++ e' :: after) →
      (∀ A D, PublisherActivates e A → PublisherActivates e' D →
        (∀ x ∈ between, ∀ B, ¬PublisherActivates x B) → A.sessionId = D.sessionId →
          A.generation < D.generation) ∧
      ∀ A S, SubscriberActivates e A → SubscriberActivates e' S →
        (∀ x ∈ between, ∀ B, ¬SubscriberActivates x B) → A.sessionId = S.sessionId →
          A.generation < S.generation := by
  -- The whole run keeps what the history has told, from which each part is read off.
  have htold := RunHistory.run_history World.step (P := Told) hw.told
    (fun hist w call h => h.step codec laws call) calls
  refine ⟨?_, ?_, ?_⟩
  · intro S hS
    obtain ⟨down, up, -, -, hstage⟩ := htold.sound.staged
    exact hstage.agreement hS
  · intro before e after h
    obtain ⟨hfollows, hactivated⟩ := htold.fits before e after h
    refine ⟨hfollows.publisher, hfollows.subscriber, ?_, hfollows.frames⟩
    intro D hD
    obtain ⟨S, hS, hsame⟩ := hfollows.agreed D hD
    exact ⟨S, hS, hsame, hactivated S hS⟩
  · intro before e between e' after h
    refine ⟨?_, ?_⟩
    · intro A D hA hD hnone hsession
      exact publisher_generations codec laws hw h hA hD hnone hsession
    · intro A S hA hS hnone hsession
      exact subscriber_generations codec laws hw h hA hS hnone hsession

end Runs

namespace Sample

/-- One descriptor, one signal for each number, and a negotiator that remembers the layout that it
has accepted last. -/
def trackingProtocol : TrackingProtocol where
  Error := Unit
  Descriptor := Unit
  Revisions := Unit
  SignalId := UInt16
  revisions _ := ()
  encodeDescriptor _ := .ok []
  decodeDescriptor bytes := if bytes = [] then .ok () else .error ()
  newSignal := some
  signalCode := id
  maxLayoutSignals := 512
  ActiveLayout := UInt32 × LayoutProposal Unit UInt16
  LayoutNegotiator := Option (UInt32 × LayoutProposal Unit UInt16)
  CompactStreamGuard := Unit
  ResultStreamGuard := Unit
  Sample := Unit
  Landmark := Unit
  ResultBody := Unit
  negotiate layoutId layout _ := .ok (layoutId, layout)
  layoutId := Prod.fst
  layoutProposal := Prod.snd
  confirmation layout := ⟨layout.1, .replicate 32 0⟩
  signals layout := layout.2.extraSignals
  frameLen _ := 4
  acceptConfirmation accept := ⟨accept.layoutId, accept.layoutHash⟩
  newNegotiator := .ok none
  receiveProposal _ layoutId layout _ _ :=
    (.ok ⟨layoutId, .replicate 32 0, UInt16.ofNat layout.extraSignals.length, 4⟩,
      some (layoutId, layout))
  confirm negotiator confirm := match negotiator with
    | none => (.error (), none)
    | some layout => if confirm = ⟨layout.1, .replicate 32 0⟩ then (.ok layout, none)
      else (.error (), some layout)
  confirmedGuard _ _ _ _ := .ok ()
  newResultGuard _ _ := ()
  unavailableSample := ()
  rigSample _ _ := some ()
  encodeCompact _ _ bytes := (.ok (), bytes)
  encodeResult _ := .ok [0]
  validateResult _ _ := .ok ()

theorem trackingProtocol_codec : trackingProtocol.CodecLaws where
  decode_descriptor := by
    intro descriptor bytes h
    obtain rfl := Except.ok.inj h
    rfl
  encode_descriptor := by
    intro bytes descriptor h
    simp only [trackingProtocol] at h ⊢
    split at h
    · next hnil => rw [hnil]
    · cases h
  new_signal _ := rfl
  signal_code := by
    intro code signal h
    exact (Option.some.inj h).symm

theorem trackingProtocol_negotiation : trackingProtocol.NegotiationLaws where
  layoutId_negotiate := by
    intro layoutId layout descriptor active h
    obtain rfl := Except.ok.inj h
    rfl
  confirm_received := by
    intro negotiator layoutId layout descriptor now accept accepted confirm active confirmed h h'
    obtain ⟨-, rfl⟩ := Prod.mk.inj h
    simp only [trackingProtocol] at h' ⊢
    split at h'
    · next hconfirm =>
      obtain ⟨hactive, -⟩ := Prod.mk.inj h'
      obtain rfl := Except.ok.inj hactive
      exact ⟨rfl, hconfirm.symm⟩
    · cases (Prod.mk.inj h').1

def peer : PeerId := ⟨.replicate 32 1⟩

def linkSession : SessionId := ⟨.replicate 16 2⟩

def trackingSession : NtpSessionId := .replicate 16 3

def connected : End := ⟨[], [], [], {}⟩

def newPublisher : Except trackingProtocol.Failure (Publisher trackingProtocol) :=
  Publisher.new endConnection connected ⟨some peer, true⟩ ⟨peer, linkSession, .publisher⟩ {} 0 0

def newSubscriber : Except trackingProtocol.Failure (Subscriber trackingProtocol) :=
  Subscriber.new endConnection connected ⟨some peer, true⟩ ⟨peer, linkSession, .subscriber⟩ {}

def trackingProposal : SessionProposal trackingProtocol.toTrackingTypes where
  descriptor := ()
  sessionId := trackingSession
  generation := 1
  layoutId := 7
  layout := ⟨(), .basic, 1, [(5 : UInt16)], .i16Normalized, .none, 30⟩
  topology := {}

/-- Both ends greet each other and then exchange the four messages of one activation. -/
def activationCalls : List (WorldCall trackingProtocol) :=
  [.publisher .trySendHello {}, .subscriber .trySendHello {}, .publisher (.pollControl 0) {},
    .subscriber (.pollControl 0 0) {}, .publisher (.publishDescriptor trackingProposal 0) {},
    .subscriber (.pollControl 0 0) {}, .publisher (.pollControl 0) {},
    .subscriber (.pollControl 0 0) {}, .publisher (.pollControl 0) {}]

def initialWorld : Option (World trackingProtocol) :=
  match newPublisher, newSubscriber with
  | .ok publisher, .ok subscriber => some ⟨publisher, subscriber, [], []⟩
  | _, _ => none

theorem initial_of_initialWorld {w : World trackingProtocol} (h : initialWorld = some w) :
    w.Initial := by
  unfold initialWorld at h
  split at h
  · next publisher subscriber hp hc =>
    obtain rfl := Option.some.inj h
    exact ⟨⟨_, _, _, _, _, _, hp⟩, ⟨_, _, _, _, hc⟩, rfl, rfl⟩
  · cases h

def activated (w : World trackingProtocol) : Bool :=
  let w := RunHistory.run World.step w activationCalls
  w.publisher.active.isSome && w.publisher.pending.isNone && w.subscriber.active.isSome

theorem activated_initialWorld : initialWorld.any activated = true := by decide +kernel

end Sample

/-- Both ends of a connection end up with the same definition. -/
theorem sample_session_is_activated : ∃ w : World Sample.trackingProtocol, w.Initial ∧
    ∃ S D, (RunHistory.run World.step w Sample.activationCalls).subscriber.active = some S ∧
      (RunHistory.run World.step w Sample.activationCalls).publisher.active = some D ∧
      SameDefinition S D := by
  obtain ⟨w, hstart, hactivated⟩ := (Option.any_eq_true ..).mp Sample.activated_initialWorld
  have hw := Sample.initial_of_initialWorld hstart
  simp only [Sample.activated, Bool.and_eq_true, Option.isNone_iff_eq_none] at hactivated
  obtain ⟨⟨hactive, hpending⟩, hsession⟩ := hactivated
  obtain ⟨S, hS⟩ := Option.isSome_iff_exists.mp hsession
  obtain ⟨D, hD, hsame⟩ := (session_activation_agreement Sample.trackingProtocol_codec
    Sample.trackingProtocol_negotiation hw Sample.activationCalls).1 S hS
  rcases hD with hD | hD
  · exact ⟨w, hw, S, D, hS, hD, hsame⟩
  · cases hpending.symm.trans hD

end MutsukiLink.Ntp
