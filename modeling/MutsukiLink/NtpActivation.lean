import MutsukiLink.NtpControlRoundTrip
import MutsukiLink.NtpSubscriberMoves

/-! The exchange of proposal, acceptance, confirmation and readiness. At most one of its messages is
under way, and which one it is says how far the two ends have got. -/
namespace MutsukiLink.Ntp
open WireBytes

/-- The bytes on a way are messages in their encoding. -/
def Carried {T : TrackingTypes} (way : List Bytes) (messages : List (ControlMessage T)) : Prop :=
  List.Forall₂ (fun bytes m => m.encode = .ok bytes) way messages

/-- The negotiation messages among these. -/
def negotiation {T : TrackingTypes} (messages : List (ControlMessage T)) :
    List (ControlMessage T) := messages.filter ControlMessage.isNegotiation

/-- The negotiation messages on a way before and after its other end took something from it. -/
inductive Fetched {T : TrackingTypes} :
    List (ControlMessage T) → List (ControlMessage T) → Option (ControlMessage T) → Prop
  | kept (messages : List (ControlMessage T)) {received : Option (ControlMessage T)}
    (hplain : Plain received) : Fetched messages messages received
  | lost (m : ControlMessage T) (messages : List (ControlMessage T)) :
    Fetched (m :: messages) messages none
  | taken (m : ControlMessage T) (messages : List (ControlMessage T)) :
    Fetched (m :: messages) messages (some m.received)

section Ways
variable {T : TrackingTypes} {lane lane' way way' : List Bytes} {messages : List (ControlMessage T)}
  {received queued : Option (ControlMessage T)}

theorem isNegotiation_received (m : ControlMessage T) :
    m.received.isNegotiation = m.isNegotiation := by
  cases m <;> rfl

/-- The end of a lane takes the oldest message of the way, in its received form. -/
theorem Taken.fetched (laws : T.CodecLaws) (h : Taken lane lane' received)
    (hcarried : Carried (lane ++ way) messages) :
    ∃ messages', Carried (lane' ++ way) messages' ∧
      Fetched (negotiation messages) (negotiation messages') received := by
  cases h with
  | nothing => exact ⟨messages, hcarried, .kept _ plain_none⟩
  | refused bytes =>
    obtain ⟨m, rest, hm, hrest, rfl⟩ := List.forall₂_cons_left_iff.mp hcarried
    refine ⟨rest, hrest, ?_⟩
    cases hnegotiation : m.isNegotiation with
    | true =>
      rw [negotiation, List.filter_cons_of_pos hnegotiation]
      exact .lost m _
    | false =>
      rw [negotiation, List.filter_cons_of_neg (by simp [hnegotiation])]
      exact .kept _ plain_none
  | message bytes _ m' hdecode =>
    obtain ⟨m, rest, hm, hrest, rfl⟩ := List.forall₂_cons_left_iff.mp hcarried
    obtain rfl := decode_of_encode laws hm hdecode
    refine ⟨rest, hrest, ?_⟩
    cases hnegotiation : m.isNegotiation with
    | true =>
      rw [negotiation, List.filter_cons_of_pos hnegotiation]
      exact .taken m _
    | false =>
      rw [negotiation, List.filter_cons_of_neg (by simp [hnegotiation])]
      exact .kept _ (plain_some ((isNegotiation_received m).trans hnegotiation))

/-- A message that joins a way is the last one on it. -/
theorem Joined.carried (h : Joined way way' queued) (hcarried : Carried way messages) :
    ∃ messages', Carried way' messages' ∧
      negotiation messages' = negotiation messages ++ negotiation queued.toList := by
  cases h with
  | nothing => exact ⟨messages, hcarried, (List.append_nil _).symm⟩
  | message bytes m hencode =>
    refine ⟨messages ++ [m], ?_, List.filter_append ..⟩
    exact List.rel_append hcarried (.cons hencode .nil)

theorem Plain.negotiation_eq_nil (h : Plain queued) : negotiation queued.toList = [] := by
  cases queued with
  | none => rfl
  | some m => simp [negotiation, h m rfl]

end Ways

section Stages
variable {P : TrackingProtocol}

/-- The session of the subscriber is the definition of the publisher. -/
structure SameDefinition (S : SubscriberSession P) (D : SessionDefinition P) : Prop where
  sessionId : S.sessionId = D.sessionId
  generation : S.generation = D.generation
  layoutId : P.layoutId S.layout = P.layoutId D.layout
  descriptor : S.descriptor = D.descriptor
  topology : S.topology = D.topology

/-- A negotiator that has accepted the received form of a proposal last. -/
def Accepted (negotiator : P.LayoutNegotiator) (proposal : SessionProposal P.toTrackingTypes) :
    Prop :=
  ∃ before now accept, P.receiveProposal before proposal.layoutId proposal.received.layout
    proposal.descriptor now = (.ok accept, negotiator)

/-- How far an exchange has got, with the negotiation messages on the two ways. A message of it that
is lost stops it for good, since the pending definition of the publisher stays. -/
inductive Stage (p : Publisher P) (c : Subscriber P) :
    List P.Message → List P.Message → Prop
  | idle (hp : p.pending = none) (hc : c.pending = none)
    (hagree : Option.Rel SameDefinition c.active p.active) : Stage p c [] []
  | proposed (proposal : SessionProposal P.toTrackingTypes) (D : SessionDefinition P)
    (hp : p.pending = some D) (hproposes : D.Proposes proposal)
    (hc : c.pending = none) (hagree : Option.Rel SameDefinition c.active p.active) :
    Stage p c [.sessionProposal proposal] []
  | offered (proposal : SessionProposal P.toTrackingTypes) (D : SessionDefinition P)
    (accept : LayoutAccept) (hp : p.pending = some D) (hproposes : D.Proposes proposal)
    (hc : c.pending = some proposal.received) (haccepted : Accepted c.negotiator proposal)
    (hagree : Option.Rel SameDefinition c.active p.active) :
    Stage p c [] [.layoutAccepted accept]
  | confirmed (proposal : SessionProposal P.toTrackingTypes) (D : SessionDefinition P)
    (hp : p.pending = some D) (hproposes : D.Proposes proposal)
    (hc : c.pending = some proposal.received) (haccepted : Accepted c.negotiator proposal)
    (hagree : Option.Rel SameDefinition c.active p.active) :
    Stage p c [.layoutConfirmed (P.confirmation D.layout)] []
  | activated (D : SessionDefinition P) (S : SubscriberSession P) (hp : p.pending = some D)
    (hc : c.pending = none) (hactive : c.active = some S) (hsame : SameDefinition S D) :
    Stage p c [] [.sessionReady D.sessionId D.generation (P.layoutId D.layout)]
  | stalled (D : SessionDefinition P) (hp : p.pending = some D)
    (hagree : Option.Rel SameDefinition c.active p.active ∨
      ∃ S, c.active = some S ∧ SameDefinition S D) : Stage p c [] []

variable {p p' : Publisher P} {c c' : Subscriber P} {down down' up up' : List P.Message}
  {received queued : Option P.Message} {m : P.Message}

/-- The subscriber never has a session that the publisher does not know. -/
theorem Stage.agreement (h : Stage p c down up) {S : SubscriberSession P}
    (hS : c.active = some S) :
    ∃ D, (p.active = some D ∨ p.pending = some D) ∧ SameDefinition S D := by
  have hactive (hagree : Option.Rel SameDefinition c.active p.active) :
      ∃ D, (p.active = some D ∨ p.pending = some D) ∧ SameDefinition S D := by
    rw [hS] at hagree
    generalize hp : p.active = active at hagree
    cases hagree with
    | some hsame => exact ⟨_, Or.inl rfl, hsame⟩
  cases h with
  | idle hp hc hagree => exact hactive hagree
  | proposed proposal D hp hproposes hc hagree => exact hactive hagree
  | offered proposal D accept hp hproposes hc haccepted hagree => exact hactive hagree
  | confirmed proposal D hp hproposes hc haccepted hagree => exact hactive hagree
  | activated D S' hp hc hsession hsame =>
    obtain rfl := Option.some.inj (hS.symm.trans hsession)
    exact ⟨D, Or.inr hp, hsame⟩
  | stalled D hp hagree =>
    rcases hagree with hagree | ⟨S', hsession, hsame⟩
    · exact hactive hagree
    · obtain rfl := Option.some.inj (hS.symm.trans hsession)
      exact ⟨D, Or.inr hp, hsame⟩

theorem Stage.publisher_same (h : Stage p c down up) (hsame : p.SameControl p') :
    Stage p' c down up := by
  obtain ⟨hpending, -, hactive⟩ := hsame
  cases h with
  | idle hp hc hagree => exact .idle (hpending.trans hp) hc (hactive ▸ hagree)
  | proposed proposal D hp hproposes hc hagree =>
    exact .proposed proposal D (hpending.trans hp) hproposes hc (hactive ▸ hagree)
  | offered proposal D accept hp hproposes hc haccepted hagree =>
    exact .offered proposal D accept (hpending.trans hp) hproposes hc haccepted (hactive ▸ hagree)
  | confirmed proposal D hp hproposes hc haccepted hagree =>
    exact .confirmed proposal D (hpending.trans hp) hproposes hc haccepted (hactive ▸ hagree)
  | activated D S hp hc hsession hsame => exact .activated D S (hpending.trans hp) hc hsession hsame
  | stalled D hp hagree => exact .stalled D (hpending.trans hp) (hactive ▸ hagree)

theorem Stage.subscriber_same (h : Stage p c down up) (hpending : c'.pending = c.pending)
    (hactive : c'.active = c.active)
    (hnegotiator : c.pending.isSome → c'.negotiator = c.negotiator) : Stage p c' down up := by
  cases h with
  | idle hp hc hagree => exact .idle hp (hpending.trans hc) (hactive ▸ hagree)
  | proposed proposal D hp hproposes hc hagree =>
    exact .proposed proposal D hp hproposes (hpending.trans hc) (hactive ▸ hagree)
  | offered proposal D accept hp hproposes hc haccepted hagree =>
    have hsame := hnegotiator (Option.isSome_of_eq_some hc)
    exact .offered proposal D accept hp hproposes (hpending.trans hc) (hsame ▸ haccepted)
      (hactive ▸ hagree)
  | confirmed proposal D hp hproposes hc haccepted hagree =>
    have hsame := hnegotiator (Option.isSome_of_eq_some hc)
    exact .confirmed proposal D hp hproposes (hpending.trans hc) (hsame ▸ haccepted)
      (hactive ▸ hagree)
  | activated D S hp hc hsession hsame =>
    exact .activated D S hp (hpending.trans hc) (hactive.trans hsession) hsame
  | stalled D hp hagree => exact .stalled D hp (hactive ▸ hagree)

/-- A message that is lost on its way to the subscriber. -/
theorem Stage.lost_down (h : Stage p c (m :: down) up) : Stage p c down up := by
  cases h with
  | proposed proposal D hp hproposes hc hagree => exact .stalled D hp (Or.inl hagree)
  | confirmed proposal D hp hproposes hc haccepted hagree => exact .stalled D hp (Or.inl hagree)

theorem Stage.lost_up (h : Stage p c down (m :: up)) : Stage p c down up := by
  cases h with
  | offered proposal D accept hp hproposes hc haccepted hagree =>
    exact .stalled D hp (Or.inl hagree)
  | activated D S hp hc hsession hsame => exact .stalled D hp (Or.inr ⟨S, hsession, hsame⟩)

/-- What the publisher handles as readiness was sent by a subscriber that has activated. -/
theorem Stage.of_ready {sessionId : NtpSessionId} {generation layoutId : UInt32}
    (h : Stage p c down (.sessionReady sessionId generation layoutId :: up))
    {D : SessionDefinition P} (hD : p.pending = some D) :
    down = [] ∧ up = [] ∧ c.pending = none ∧ ∃ S, c.active = some S ∧ SameDefinition S D := by
  cases h with
  | activated D' S hp hc hsession hsame =>
    obtain rfl := Option.some.inj (hp.symm.trans hD)
    exact ⟨rfl, rfl, hc, S, hsession, hsame⟩

/-- A received message came from the message of the same kind. -/
theorem received_eq_ready {sessionId : NtpSessionId} {generation layoutId : UInt32}
    (h : m.received = .sessionReady sessionId generation layoutId) :
    m = .sessionReady sessionId generation layoutId := by
  cases m with
  | sessionReady => exact h
  | sessionProposal => cases h
  | _ => cases h

/-- A negotiation message that is handled was the only one on its way. -/
theorem Fetched.of_negotiation {messages messages' : List P.Message}
    (h : Fetched messages messages' (some m)) (hm : m.isNegotiation = true) :
    ∃ sent : P.Message, messages = sent :: messages' ∧ sent.received = m := by
  generalize hsome : some m = received at h
  cases h with
  | kept messages hplain =>
    have hfalse := hplain m hsome.symm
    rw [hm] at hfalse
    cases hfalse
  | lost => cases hsome
  | taken sent messages => exact ⟨sent, rfl, (Option.some.inj hsome).symm⟩

/-- A call of the publisher takes the exchange one step further, or stops it, or leaves it. -/
theorem Stage.publisher_step (h : Stage p c down up) (hmove : PublisherMove p p' received queued)
    (hfetched : Fetched up up' received) : Stage p' c (down ++ negotiation queued.toList) up' := by
  cases hmove with
  | other hsame hplain =>
    rw [hplain.negotiation_eq_nil, List.append_nil]
    refine Stage.publisher_same ?_ hsame
    cases hfetched with
    | kept => exact h
    | lost => exact h.lost_up
    | taken => exact h.lost_up
  | proposed proposal D hnone hlater hproposes hpending haccepted hactive =>
    -- Without a pending definition the exchange is idle.
    have hidle : down = [] ∧ up = [] ∧ c.pending = none ∧
        Option.Rel SameDefinition c.active p.active := by
      cases h with
      | idle hp hc hagree => exact ⟨rfl, rfl, hc, hagree⟩
      | proposed _ _ hp => cases hnone.symm.trans hp
      | offered _ _ _ hp => cases hnone.symm.trans hp
      | confirmed _ _ hp => cases hnone.symm.trans hp
      | activated _ _ hp => cases hnone.symm.trans hp
      | stalled _ hp => cases hnone.symm.trans hp
    obtain ⟨rfl, rfl, hc, hagree⟩ := hidle
    cases hfetched with
    | kept => exact .proposed proposal D hpending hproposes hc (hactive ▸ hagree)
  | accepted accept D hpending hsame haccepted hactive =>
    obtain ⟨sent, rfl, hsent⟩ := hfetched.of_negotiation rfl
    cases h with
    | offered proposal D' accept' hp hproposes hc hnegotiator hagree =>
      obtain rfl := Option.some.inj (hp.symm.trans hpending)
      exact .confirmed proposal _ (hsame.trans hp) hproposes hc hnegotiator (hactive ▸ hagree)
    | activated => cases hsent
  | ready D hpending hnone haccepted hactive =>
    obtain ⟨sent, rfl, hsent⟩ := hfetched.of_negotiation rfl
    obtain rfl := received_eq_ready hsent
    obtain ⟨rfl, rfl, hc, S, hsession, hsame⟩ := h.of_ready hpending
    refine .idle hnone hc ?_
    rw [hsession, hactive]
    exact .some hsame

/-- The session of a confirmed proposal is the definition that was proposed. -/
theorem Subscriber.Activates.same (laws : P.NegotiationLaws)
    {proposal : SessionProposal P.toTrackingTypes} {D : SessionDefinition P}
    {S : SubscriberSession P} {confirm : LayoutConfirm}
    (h : c.Activates c' proposal.received confirm S) (hproposes : D.Proposes proposal)
    (haccepted : Accepted c.negotiator proposal) : SameDefinition S D := by
  obtain ⟨before, now, accept, hreceived⟩ := haccepted
  obtain ⟨hlayout, -⟩ := laws.confirm_received _ _ _ _ _ _ _ _ _ _ hreceived h.confirmed
  have hproposed := laws.layoutId_negotiate _ _ _ _ hproposes.layout
  obtain ⟨guard, hS⟩ := h.session
  constructor
  · rw [hS, hproposes.sessionId]
    rfl
  · rw [hS, hproposes.generation]
    rfl
  · rw [hlayout, hproposed]
  · rw [hS, hproposes.descriptor]
    rfl
  · rw [hS, hproposes.topology]
    rfl

/-- The same for a call of the subscriber. -/
theorem Stage.subscriber_step (laws : P.NegotiationLaws) (h : Stage p c down up)
    (hmove : SubscriberMove c c' received queued) (hfetched : Fetched down down' received) :
    Stage p c' down' (up ++ negotiation queued.toList) := by
  cases hmove with
  | other hpending hactive hnegotiator hplain =>
    rw [hplain.negotiation_eq_nil, List.append_nil]
    refine Stage.subscriber_same ?_ hpending hactive hnegotiator
    cases hfetched with
    | kept => exact h
    | lost => exact h.lost_down
    | taken => exact h.lost_down
  | offered proposal' accept now hnone hlater hreceived hpending hactive =>
    obtain ⟨sent, rfl, hsent⟩ := hfetched.of_negotiation rfl
    cases h with
    | proposed proposal D hp hproposes hc hagree =>
      obtain rfl := ControlMessage.sessionProposal.inj hsent
      exact .offered proposal D accept hp hproposes hpending ⟨_, _, _, hreceived⟩
        (hactive ▸ hagree)
    | confirmed => cases hsent
  | dropped proposal' confirm hpending hnone hactive =>
    obtain ⟨sent, rfl, hsent⟩ := hfetched.of_negotiation rfl
    cases h with
    | proposed => cases hsent
    | confirmed proposal D hp hproposes hc haccepted hagree =>
      exact .stalled D hp (Or.inl (hactive ▸ hagree))
  | activated proposal' confirm S hactivates hqueued =>
    obtain ⟨sent, rfl, hsent⟩ := hfetched.of_negotiation rfl
    cases h with
    | proposed => cases hsent
    | confirmed proposal D hp hproposes hc haccepted hagree =>
      obtain rfl := Option.some.inj (hactivates.pending.symm.trans hc)
      have hsame := hactivates.same laws hproposes haccepted
      cases hready : queued with
      | none => exact .stalled D hp (Or.inr ⟨S, hactivates.active, hsame⟩)
      | some ready =>
        -- The readiness names the session of the proposal, which is the one of the definition.
        have hlayout := laws.layoutId_negotiate _ _ _ _ hproposes.layout
        have heq := hqueued ready hready
        have hnames : ready =
            .sessionReady D.sessionId D.generation (P.layoutId D.layout) := by
          rw [heq, hproposes.sessionId, hproposes.generation, hlayout]
          rfl
        rw [hnames]
        exact .activated D S hp hactivates.taken hactivates.active hsame

end Stages

end MutsukiLink.Ntp
