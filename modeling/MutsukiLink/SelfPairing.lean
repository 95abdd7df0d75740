import MutsukiLink.PairingAgreement

/-! How a session comes to pair with itself: it accepts its own identity as the peer's, and its own
confirmation is delivered back to it. -/
namespace MutsukiLink
open RunHistory WireBytes

/-- The other party of a pairing goes by the key or by the id of the session's own. -/
def NamesItself (own other : LongTermIdentity) : Prop :=
  other.publicKey = own.publicKey ∨ other.peerId = own.peerId

instance (own other : LongTermIdentity) : Decidable (NamesItself own other) :=
  inferInstanceAs (Decidable (_ ∨ _))

/-- An offer from which a responder is made. -/
structure OfferAccepted (localIdentity : LongTermIdentity) (offer : PairingOffer)
    (nowUnixMs : UInt64) (alreadyTrusted : Bool) (eventCapacity : ℕ) : Prop where
  local_valid : validateIdentity localIdentity = .ok ()
  initiator_valid : validateIdentity offer.initiator = .ok ()
  new_valid : validateNew alreadyTrusted offer.expiresAtUnixMs eventCapacity = .ok ()
  time : nowUnixMs < offer.expiresAtUnixMs

namespace PairingSession
variable {sha256 : Bytes → FixedBytes 32} {s t : PairingSession}

/-- The peer of a session is the session's own identity. -/
def KnowsItself (s : PairingSession) : Prop :=
  ∃ remote, s.remote = some remote ∧ NamesItself s.localIdentity remote

def PairedWithItself (s : PairingSession) : Prop := s.state = .paired ∧ s.KnowsItself

/-- A response that is accepted, with all that is checked. -/
structure ResponseAccepted (sha256 : Bytes → FixedBytes 32) (s : PairingSession)
    (response : PairingResponse) (nowUnixMs : UInt64) : Prop where
  time : nowUnixMs < s.expiresAtUnixMs
  role : s.role = .initiator
  awaiting : s.state = .awaitingResponse
  pairing : response.pairingId = s.pairingId
  responder_valid : validateIdentity response.responder = .ok ()
  hash_eq : response.transcriptHash = MutsukiLink.transcriptHash sha256 s.localIdentity
    response.responder s.protocolVersion s.challenge s.method
  code_eq : response.shortCode = MutsukiLink.shortCode (MutsukiLink.transcriptHash sha256
    s.localIdentity response.responder s.protocolVersion s.challenge s.method)

@[simp] theorem setState_remote (s : PairingSession) (state : PairingState) :
    (s.setState state).remote = s.remote := emit_remote _ _

@[simp] theorem setState_shortCode (s : PairingSession) (state : PairingState) :
    (s.setState state).shortCode = s.shortCode := emit_shortCode _ _

/-- The peer changes exactly when a response is accepted. -/
theorem receiveResponse_remote (sha256 : Bytes → FixedBytes 32) (s : PairingSession)
    (response : PairingResponse) (now : UInt64) :
    (s.ResponseAccepted sha256 response now ∧
      (s.receiveResponse sha256 response now).2.remote = some response.responder) ∨
    (¬s.ResponseAccepted sha256 response now ∧
      (s.receiveResponse sha256 response now).2.remote = s.remote) := by
  unfold receiveResponse
  by_cases hlate : s.expiresAtUnixMs ≤ now
  · refine Or.inr ⟨fun h => absurd hlate (UInt64.not_le.mpr h.time), ?_⟩
    -- A late response may end the session, which leaves the peer as it was.
    rw [checkTime_late hlate]
    dsimp only
    split
    · rfl
    · exact setState_remote _ _
  · rw [checkTime_early hlate]
    dsimp only
    by_cases hunexpected : s.role ≠ .initiator ∨ s.state ≠ .awaitingResponse ∨
        response.pairingId ≠ s.pairingId
    · refine Or.inr ⟨fun h => ?_, ?_⟩
      · rcases hunexpected with hrole | hstate | hpairing
        · exact hrole h.role
        · exact hstate h.awaiting
        · exact hpairing h.pairing
      · rw [if_pos hunexpected]
        exact setState_remote _ _
    · rw [if_neg hunexpected]
      obtain ⟨hrole, hstate, hpairing⟩ : s.role = .initiator ∧ s.state = .awaitingResponse ∧
          response.pairingId = s.pairingId := by simpa [not_or] using hunexpected
      cases hvalid : validateIdentity response.responder with
      | error e =>
        refine Or.inr ⟨fun h => ?_, rfl⟩
        cases hvalid.symm.trans h.responder_valid
      -- The hash is computed over the responder's identity before that becomes the peer's.
      | ok =>
        dsimp only
        split
        · next hmismatch =>
          refine Or.inr ⟨fun h => ?_, setState_remote _ _⟩
          exact hmismatch.elim (fun hhash => hhash h.hash_eq) fun hcode => hcode h.code_eq
        · next hmatch =>
          obtain ⟨hhash, hcode⟩ := not_or.mp hmatch
          refine Or.inl ⟨⟨UInt64.not_le.mp hlate, hrole, hstate, hpairing, hvalid,
            not_not.mp hhash, not_not.mp hcode⟩, ?_⟩
          simp [presentation]

theorem localIdentity_eq_of_unbuffered (h : s.unbuffered = t.unbuffered) :
    s.localIdentity = t.localIdentity := by
  change s.unbuffered.localIdentity = t.unbuffered.localIdentity
  rw [h]

theorem localIdentity_step (sha256 : Bytes → FixedBytes 32) (s : PairingSession)
    (call : PairingCall) : (s.step sha256 call).2.localIdentity = s.localIdentity := by
  obtain ⟨events, t, -, hmove, heq⟩ := step_unbuffered sha256 s call
  rw [localIdentity_eq_of_unbuffered heq]
  cases hmove <;> rfl

theorem remote_step_of_ne (sha256 : Bytes → FixedBytes 32) (s : PairingSession)
    (call : PairingCall) (hcall : ∀ response now, call ≠ .receiveResponse response now) :
    (s.step sha256 call).2.remote = s.remote := by
  obtain ⟨events, t, -, hmove, heq⟩ := step_unbuffered sha256 s call
  have hremote := (fields_eq_of_unbuffered heq).2.2.1
  rw [hremote]
  -- An accepted response is the one move that sets the peer.
  cases hmove with
  | answer answered => exact absurd rfl (hcall _ _)
  | _ => rfl

theorem not_knowsItself_initiator {localIdentity : LongTermIdentity} {pairingId : PairingId}
    {version : ProtocolVersion} {challenge : FixedBytes 32} {method : PairingMethod}
    {expiresAt : UInt64} {trusted : Bool} {capacity : ℕ}
    (h : PairingSession.initiator localIdentity pairingId version challenge method expiresAt trusted
      capacity = .ok s) : ¬s.KnowsItself := by
  simp only [PairingSession.initiator, bind, Except.bind] at h
  split at h
  · cases h
  · split at h
    · cases h
    · cases h
      rintro ⟨remote, hremote, -⟩
      cases hremote

/-- A responder takes the initiator of an accepted offer for its peer. -/
theorem responder_cases (sha256 : Bytes → FixedBytes 32) (localIdentity : LongTermIdentity)
    (offer : PairingOffer) (now : UInt64) (trusted : Bool) (capacity : ℕ) :
    (¬OfferAccepted localIdentity offer now trusted capacity ∧
      ∃ e, PairingSession.responder sha256 localIdentity offer now trusted capacity = .error e) ∨
    (OfferAccepted localIdentity offer now trusted capacity ∧ ∃ s response,
      PairingSession.responder sha256 localIdentity offer now trusted capacity =
        .ok (s, response) ∧
      s.remote = some offer.initiator ∧ s.localIdentity = localIdentity) := by
  simp only [PairingSession.responder, bind, Except.bind]
  cases hlocal : validateIdentity localIdentity with
  | error e => exact Or.inl ⟨fun h => absurd h.local_valid (by simp [hlocal]), e, rfl⟩
  | ok =>
    cases hinitiator : validateIdentity offer.initiator with
    | error e => exact Or.inl ⟨fun h => absurd h.initiator_valid (by simp [hinitiator]), e, rfl⟩
    | ok =>
      cases hnew : validateNew trusted offer.expiresAtUnixMs capacity with
      | error e => exact Or.inl ⟨fun h => absurd h.new_valid (by simp [hnew]), e, rfl⟩
      | ok =>
        dsimp only
        split
        · next hlate =>
          exact Or.inl ⟨fun h => absurd hlate (UInt64.not_le.mpr h.time), _, rfl⟩
        · next hearly =>
          refine Or.inr ⟨⟨hlocal, hinitiator, hnew, UInt64.not_le.mp hearly⟩, _, _, rfl, ?_, ?_⟩
          · exact emit_remote _ _
          · exact localIdentity_eq_of_unbuffered (unbuffered_emit _ _)

/-- Whoever has taken its own key for the peer's pairs with itself: its user confirms, and what it
sends then is delivered back. -/
theorem reflected_confirmation_pairs {code : String} {crypto : PairingCrypto} {now : UInt64}
    {hash : FixedBytes 32} {signature : Bytes} {remote : LongTermIdentity}
    (h : s.Confirms code crypto now hash signature) (hwaiting : s.remoteConfirmed = false)
    (hremote : s.remote = some remote) (hkey : remote.publicKey = s.localIdentity.publicKey)
    (hverified : crypto.verifyTranscript s.localIdentity.publicKey hash signature = true) :
    (run (step sha256) s [.confirm code crypto now,
      .receiveConfirmation ⟨s.pairingId, remote.peerId, hash, signature⟩ crypto
        now]).PairedWithItself := by
  let confirmed := { s with localConfirmed := true }.setState .awaitingPeerConfirmation
  have hconfirmed : (s.step sha256 (.confirm code crypto now)).2 = confirmed := by
    rw [h.step_eq, if_neg (by simp [hwaiting])]
  have hunbuffered : confirmed.unbuffered = { s.unbuffered with
      localConfirmed := true, state := .awaitingPeerConfirmation } := unbuffered_emit _ _
  have hfield {β : Type} (f : PairingSession → β) (hf : ∀ s, f s.unbuffered = f s) :
      f confirmed = f { s.unbuffered with
        localConfirmed := true, state := .awaitingPeerConfirmation } := by
    rw [← hf confirmed, hunbuffered]
  -- The reflected confirmation passes every check of one that the peer has signed.
  have hattested : confirmed.Attested ⟨s.pairingId, remote.peerId, hash, signature⟩ crypto now
      remote hash := by
    refine ⟨?_, Or.inr ?_, ?_, ?_, ?_, rfl, rfl, ?_⟩
    · rw [hfield expiresAtUnixMs fun _ => rfl]
      exact h.time
    · exact hfield state fun _ => rfl
    · rw [hfield PairingSession.remote fun _ => rfl]
      exact hremote
    · rw [hfield transcriptHash fun _ => rfl]
      exact h.hash_eq
    · exact (hfield pairingId fun _ => rfl).symm
    · rw [hkey]
      exact hverified
  have hready : confirmed.localConfirmed = true := hfield localConfirmed fun _ => rfl
  rw [run_cons, run_cons, run_nil, hconfirmed, hattested.step_eq, if_pos hready]
  have hend := unbuffered_foldl confirmed.completion
    { confirmed with state := .paired, remoteConfirmed := true }
  refine ⟨state_eq_of_unbuffered hend, remote, ?_, Or.inl ?_⟩
  · rw [(fields_eq_of_unbuffered hend).2.2.1]
    exact hattested.remote_eq
  · rw [localIdentity_eq_of_unbuffered hend, hkey]
    exact congrArg LongTermIdentity.publicKey
      (hfield PairingSession.localIdentity fun _ => rfl).symm

end PairingSession

namespace PairingWorld
variable {sha256 : Bytes → FixedBytes 32} {w : List PairingSession}

/-- The offers and the responses that are accepted name another party than the session's own. -/
def NamesAnother (sha256 : Bytes → FixedBytes 32) (w : List PairingSession) :
    PairingAction → Prop
  | .respond localIdentity offer now trusted capacity =>
    OfferAccepted localIdentity offer now trusted capacity →
      ¬NamesItself localIdentity offer.initiator
  | .call index (.receiveResponse response now) => ∀ s, w[index]? = some s →
    s.ResponseAccepted sha256 response now → ¬NamesItself s.localIdentity response.responder
  | _ => True

theorem forall_mem_concat_iff {P : PairingSession → Prop} {s : PairingSession}
    (h : ∀ s ∈ w, P s) : (∀ s' ∈ w ++ [s], P s') ↔ P s := by
  constructor
  · intro hall
    exact hall s (List.mem_append_right _ (List.mem_singleton_self s))
  · intro hs s' hs'
    rcases List.mem_append.mp hs' with hs' | hs'
    · exact h s' hs'
    · rwa [List.mem_singleton.mp hs']

theorem forall_mem_set_iff {P : PairingSession → Prop} {s t : PairingSession} {index : ℕ}
    (h : ∀ s ∈ w, P s) (hs : w[index]? = some s) : (∀ s' ∈ w.set index t, P s') ↔ P t := by
  constructor
  · intro hall
    obtain ⟨hlt, -⟩ := List.getElem?_eq_some_iff.mp hs
    exact hall t (List.mem_set hlt t)
  · intro ht s' hs'
    rcases List.mem_or_eq_of_mem_set hs' with hs' | rfl
    · exact h s' hs'
    · exact ht

theorem knowsItself_call {index : ℕ} {call : PairingCall} {s : PairingSession}
    (hs : w[index]? = some s) (hnot : ¬s.KnowsItself) :
    ¬(s.step sha256 call).2.KnowsItself ↔ NamesAnother sha256 w (.call index call) := by
  have hlocal := PairingSession.localIdentity_step sha256 s call
  by_cases hresponse : ∃ response now, call = .receiveResponse response now
  · obtain ⟨response, now, rfl⟩ := hresponse
    have hsame : NamesAnother sha256 w (.call index (.receiveResponse response now)) ↔
        (s.ResponseAccepted sha256 response now →
          ¬NamesItself s.localIdentity response.responder) := by
      dsimp only [NamesAnother]
      rw [hs]
      simp only [Option.some.injEq, forall_eq']
    rw [hsame]
    rcases PairingSession.receiveResponse_remote sha256 s response now with
      ⟨haccepted, hremote⟩ | ⟨hrefused, hremote⟩
    · have hremote : (s.step sha256 (.receiveResponse response now)).2.remote =
          some response.responder := hremote
      -- The peer is the responder from now on, so what is known is what was named.
      unfold PairingSession.KnowsItself
      rw [hremote, hlocal]
      simp only [Option.some.injEq, exists_eq_left', haccepted, forall_const]
    · have hremote : (s.step sha256 (.receiveResponse response now)).2.remote = s.remote := hremote
      have hkept : ¬(s.step sha256 (.receiveResponse response now)).2.KnowsItself := by
        unfold PairingSession.KnowsItself
        rw [hremote, hlocal]
        exact hnot
      exact ⟨fun _ haccepted => absurd haccepted hrefused, fun _ => hkept⟩
  -- Any other call leaves the peer alone, and asks nothing of the names.
  · have hremote := PairingSession.remote_step_of_ne sha256 s call
      fun response now h => hresponse ⟨response, now, h⟩
    have hkept : ¬(s.step sha256 call).2.KnowsItself := by
      unfold PairingSession.KnowsItself
      rw [hremote, hlocal]
      exact hnot
    have hother : NamesAnother sha256 w (.call index call) := by
      unfold NamesAnother
      split
      · next heq => cases heq
      · next heq =>
        cases heq
        exact absurd ⟨_, _, rfl⟩ hresponse
      · trivial
    exact ⟨fun _ => hother, fun _ => hkept⟩

/-- One action lets no session take itself for its peer exactly when it names another party. -/
theorem knowsItself_step (sha256 : Bytes → FixedBytes 32) (hnone : ∀ s ∈ w, ¬s.KnowsItself)
    (action : PairingAction) :
    (∀ s ∈ (step sha256 w action).2, ¬s.KnowsItself) ↔ NamesAnother sha256 w action := by
  cases action with
  | initiate localIdentity pairingId version challenge method expiresAt trusted capacity =>
    simp only [step]
    split
    · exact iff_of_true hnone trivial
    · next s hs =>
      rw [forall_mem_concat_iff hnone]
      exact iff_of_true (PairingSession.not_knowsItself_initiator hs) trivial
  | respond localIdentity offer now trusted capacity =>
    simp only [step]
    rcases PairingSession.responder_cases sha256 localIdentity offer now trusted capacity with
      ⟨hrefused, e, he⟩ | ⟨haccepted, s, response, hs, hremote, hlocal⟩
    · rw [he]
      exact iff_of_true hnone fun haccepted => absurd haccepted hrefused
    · -- The new session has the local identity for its own and the offer's for the peer.
      rw [hs]
      dsimp only
      rw [forall_mem_concat_iff hnone, PairingSession.KnowsItself, hremote, hlocal]
      simp only [NamesAnother, Option.some.injEq, exists_eq_left', haccepted, forall_const]
  | call index call =>
    simp only [step]
    cases hs : w[index]? with
    | none =>
      refine iff_of_true hnone ?_
      unfold NamesAnother
      split
      · next heq => cases heq
      · next heq =>
        cases heq
        intro _ hsome
        cases hs.symm.trans hsome
      · trivial
    | some s =>
      -- Only the session that is called can change its peer.
      rw [forall_mem_set_iff hnone hs]
      exact knowsItself_call hs (hnone s (List.mem_of_getElem? hs))

/-- No session of a run ever takes itself for its peer exactly when all that is accepted names
another party. -/
theorem knowsItself_run_iff (sha256 : Bytes → FixedBytes 32) (actions : List PairingAction) :
    (∀ e ∈ trace (step sha256) [] actions, ∀ s ∈ e.post, ¬s.KnowsItself) ↔
      ∀ e ∈ trace (step sha256) [] actions, NamesAnother sha256 e.pre e.input :=
  trace_invariant_iff (step sha256) (I := fun w => ∀ s ∈ w, ¬s.KnowsItself) (J := fun _ => True)
    (fun _ _ _ => trivial) (fun _ action _ h => knowsItself_step sha256 h action) trivial
    (fun _ hs => absurd hs List.not_mem_nil) actions

/-- While all that is accepted names another party, no session is paired with itself, whatever else
is delivered. -/
theorem no_pairing_with_itself (sha256 : Bytes → FixedBytes 32) (actions : List PairingAction)
    (hanother : ∀ e ∈ trace (step sha256) [] actions, NamesAnother sha256 e.pre e.input) :
    ∀ e ∈ trace (step sha256) [] actions, ∀ s ∈ e.post, ¬s.PairedWithItself := by
  have hnone := (knowsItself_run_iff sha256 actions).mpr hanother
  intro e he s hs hpaired
  exact hnone e he s hs hpaired.2

end PairingWorld

namespace Sample

/-- The transcript of a session whose peer is the session's own identity. -/
def selfTranscript : Bytes :=
  transcriptBytes pairingInitiator pairingInitiator ⟨1, 0⟩ (.replicate 32 7) .shortCode

def selfDigest (bytes : Bytes) : FixedBytes 32 :=
  if bytes = selfTranscript then
    ⟨[181, 229, 199, 210, 98, 91, 157, 181, 136, 95, 39, 86, 6, 209, 48, 139, 98, 115, 49, 255, 59,
      178, 208, 186, 81, 220, 222, 181, 210, 103, 248, 205], rfl⟩
  else pairingDigest bytes

def selfHash : FixedBytes 32 := selfDigest selfTranscript

/-- What anyone can answer who has seen the offer. -/
def selfResponse : PairingResponse :=
  { pairingId := ⟨.replicate 16 3⟩, responder := pairingInitiator, transcriptHash := selfHash
    shortCode := "734994" }

/-- What the session itself sends when its user confirms. -/
def selfConfirmation : PairingConfirmation :=
  { pairingId := ⟨.replicate 16 3⟩, signerPeerId := pairingInitiator.peerId
    transcriptHash := selfHash, signature := pairingInitiator.publicKey ++ selfHash.bytes }

def selfConfirm : PairingAction :=
  .call 0 (.confirm "734994" (pairingCrypto pairingInitiator.publicKey) 30)

def selfReceive : PairingAction :=
  .call 0 (.receiveConfirmation selfConfirmation (pairingCrypto pairingInitiator.publicKey) 40)

/-- The session's own offer comes back as the offer of a peer. -/
def selfRespond : List PairingAction := [.respond pairingInitiator pairingOffer 10 false 8]

def selfInitiate : List PairingAction :=
  [.initiate pairingInitiator ⟨.replicate 16 3⟩ ⟨1, 0⟩ (.replicate 32 7) .shortCode 100 false 8,
    .call 0 (.receiveResponse selfResponse 20)]

/-- The session before its user confirms. -/
def selfSession (role : PairingRole) (events : List PairingEvent) : PairingSession :=
  { role, state := .awaitingUserConfirmation, localIdentity := pairingInitiator
    remote := some pairingInitiator, pairingId := ⟨.replicate 16 3⟩, protocolVersion := ⟨1, 0⟩
    challenge := .replicate 32 7, method := .shortCode, expiresAtUnixMs := 100
    transcriptHash := some selfHash, shortCode := some "734994", localConfirmed := false
    remoteConfirmed := false, events, eventCapacity := 8, droppedEvents := 0 }

example : ((selfSession .initiator []).confirm "734994" (pairingCrypto pairingInitiator.publicKey)
    30).1 = .ok selfConfirmation := rfl

theorem self_opened :
    (run (PairingWorld.step selfDigest) [] selfInitiate)[0]? = some (selfSession .initiator
      [.stateChanged .awaitingUserConfirmation,
        .present (presentation selfDigest pairingInitiator "734994")]) ∧
    (run (PairingWorld.step selfDigest) [] selfRespond)[0]? = some (selfSession .responder
      [.present (presentation selfDigest pairingInitiator "734994")]) := by
  constructor <;> decide +kernel

theorem self_paired :
    ((run (PairingWorld.step selfDigest) [] (selfInitiate ++ [selfConfirm] ++ [selfReceive])).map
      fun s => (s.role, s.state, s.localIdentity, s.remote)) =
        [(.initiator, .paired, pairingInitiator, some pairingInitiator)] ∧
    ((run (PairingWorld.step selfDigest) [] (selfRespond ++ [selfConfirm] ++ [selfReceive])).map
      fun s => (s.role, s.state, s.localIdentity, s.remote)) =
        [(.responder, .paired, pairingInitiator, some pairingInitiator)] := by
  constructor <;> decide +kernel

/-- The confirmation of the initiator. -/
def initiatorConfirmation : PairingConfirmation :=
  { pairingId := ⟨.replicate 16 3⟩, signerPeerId := pairingInitiator.peerId
    transcriptHash := pairingHash, signature := pairingInitiator.publicKey ++ pairingHash.bytes }

def responderReceive : PairingAction :=
  .call 0 (.receiveConfirmation initiatorConfirmation (pairingCrypto pairingResponder.publicKey) 40)

def otherActions : List PairingAction :=
  [.respond pairingResponder pairingOffer 10 false 8,
    .call 0 (.confirm "073795" (pairingCrypto pairingResponder.publicKey) 30), responderReceive]

theorem other_paired :
    ((event (PairingWorld.step pairingDigest) (run (PairingWorld.step pairingDigest) []
      (otherActions.take 2)) responderReceive).post.any fun s => s.state = .paired) = true := by
  decide +kernel

end Sample

namespace PairingWorld

def isReceiveConfirmation : PairingAction → Bool
  | .call _ (.receiveConfirmation _ _ _) => true
  | _ => false

/-- Nothing is forged before a confirmation is delivered. -/
theorem unforgeable_of_none {step : List PairingSession → PairingAction →
      PairingWorldReply × List PairingSession} {actions : List PairingAction}
    (hnone : actions.all fun a => !isReceiveConfirmation a) :
    Unforgeable (trace step [] actions) := by
  intro past e future heq index confirmation crypto now hinput
  have hmem : e ∈ trace step [] actions := heq ▸ List.mem_append_right _ List.mem_cons_self
  have haction := List.mem_map_of_mem (f := Event.input) hmem
  rw [map_input_trace, hinput] at haction
  have hno := List.all_eq_true.mp hnone _ haction
  cases hno

/-- The confirmation that the session itself has made is delivered back to it. -/
theorem unforgeable_reflected {opening : List PairingAction} {role : PairingRole}
    {events : List PairingEvent} (hnone : opening.all fun a => !isReceiveConfirmation a)
    (hopened : (run (step Sample.selfDigest) [] opening)[0]? =
      some (Sample.selfSession role events)) :
    Unforgeable (trace (step Sample.selfDigest) []
      (opening ++ [Sample.selfConfirm] ++ [Sample.selfReceive])) := by
  rw [trace_concat]
  refine Unforgeable.concat (unforgeable_of_none ?_) ?_
  · rw [List.all_append, hnone]
    rfl
  · intro index confirmation crypto now hinput publicKey hash hverified
    cases hinput
    -- The sample backend signs by writing the key before the hash, so the key of a signature
    -- that verifies can be read from it.
    have heq := of_decide_eq_true hverified
    obtain ⟨hkey, hbytes⟩ := List.append_inj' heq (by rw [hash.size_eq, Sample.selfHash.size_eq])
    obtain rfl : Sample.selfHash = hash := FixedBytes.ext_bytes hbytes
    rw [← hkey, trace_concat]
    exact ⟨_, List.mem_append_right _ (List.mem_singleton_self _), 0, "734994", _, 30, _,
      Sample.selfSession role events, rfl, hopened, rfl, (by decide : (30 : UInt64) < 100), rfl,
      rfl, rfl, rfl⟩

theorem exists_paired_with_itself {w : List PairingSession} {role : PairingRole}
    (h : (w.map fun s => (s.role, s.state, s.localIdentity, s.remote)) =
      [(role, .paired, Sample.pairingInitiator, some Sample.pairingInitiator)]) :
    ∃ s ∈ w, s.role = role ∧ s.PairedWithItself := by
  have hmem : (role, PairingState.paired, Sample.pairingInitiator, some Sample.pairingInitiator) ∈
      w.map fun s => (s.role, s.state, s.localIdentity, s.remote) := by
    rw [h]
    exact List.mem_singleton_self _
  obtain ⟨s, hs, heq⟩ := List.mem_map.mp hmem
  simp only [Prod.mk.injEq] at heq
  obtain ⟨hrole, hstate, hlocal, hremote⟩ := heq
  refine ⟨s, hs, hrole, hstate, _, hremote, Or.inl ?_⟩
  rw [hlocal]

/-- A responder that is offered to by another party pairs with that party. -/
theorem no_pairing_with_itself_responder :
    ∃ e ∈ trace (step Sample.pairingDigest) [] Sample.otherActions, ∃ s ∈ e.post,
      s.state = .paired ∧ ¬s.PairedWithItself := by
  have hanother : ∀ e ∈ trace (step Sample.pairingDigest) [] Sample.otherActions,
      NamesAnother Sample.pairingDigest e.pre e.input := by
    intro e he
    simp only [Sample.otherActions, trace_cons, trace_nil, List.mem_cons, List.not_mem_nil,
      or_false] at he
    rcases he with rfl | rfl | rfl
    · exact fun _ hself => absurd hself (by decide)
    · trivial
    · trivial
  have hlast : event (step Sample.pairingDigest) (run (step Sample.pairingDigest) []
      (Sample.otherActions.take 2)) Sample.responderReceive ∈
        trace (step Sample.pairingDigest) [] Sample.otherActions :=
    event_mem_trace (step Sample.pairingDigest) [] (Sample.otherActions.take 2)
      Sample.responderReceive []
  obtain ⟨s, hs, hstate⟩ := List.any_eq_true.mp Sample.other_paired
  refine ⟨_, hlast, s, hs, of_decide_eq_true hstate, ?_⟩
  exact no_pairing_with_itself Sample.pairingDigest Sample.otherActions hanother _ hlast s hs

/-- In either role a session pairs with itself when its own confirmation comes back to it. -/
theorem no_pairing_with_itself_broken :
    (Unforgeable (trace (step Sample.selfDigest) []
        (Sample.selfInitiate ++ [Sample.selfConfirm] ++ [Sample.selfReceive])) ∧
      ∃ s ∈ run (step Sample.selfDigest) []
        (Sample.selfInitiate ++ [Sample.selfConfirm] ++ [Sample.selfReceive]),
        s.role = .initiator ∧ s.PairedWithItself) ∧
    (Unforgeable (trace (step Sample.selfDigest) []
        (Sample.selfRespond ++ [Sample.selfConfirm] ++ [Sample.selfReceive])) ∧
      ∃ s ∈ run (step Sample.selfDigest) []
        (Sample.selfRespond ++ [Sample.selfConfirm] ++ [Sample.selfReceive]),
        s.role = .responder ∧ s.PairedWithItself) := by
  refine ⟨⟨?_, exists_paired_with_itself Sample.self_paired.1⟩,
    ?_, exists_paired_with_itself Sample.self_paired.2⟩
  · exact unforgeable_reflected rfl Sample.self_opened.1
  · exact unforgeable_reflected rfl Sample.self_opened.2

end PairingWorld
end MutsukiLink
