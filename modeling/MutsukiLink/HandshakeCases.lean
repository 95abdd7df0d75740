import MutsukiLink.HandshakeModel
import Mathlib.Data.List.Nodup
import Mathlib.Data.List.Perm.Subperm

/-! What one call of the handshake can do: a successful call is one of eight transitions, any
other call fails the machine, and no call reaches an `expect`. -/
namespace MutsukiLink
open WireBytes
open Std (ExtTreeSet)

/-- A selection that two offers support. -/
structure SelectedFrom (localOffer remoteOffer : ProtocolOffer) (s : ProtocolSelection) : Prop where
  local_id : localOffer.stableId = s.stableId
  remote_id : remoteOffer.stableId = s.stableId
  local_schema : localOffer.schema = s.schema
  remote_schema : remoteOffer.schema = s.schema
  version : localOffer.versions.negotiate remoteOffer.versions = some s.version
  capabilities : localOffer.capabilities.intersect remoteOffer.capabilities = some s.capabilities

theorem negotiateOffer_cases (remote : List ProtocolOffer)
    (acc : ExtTreeSet ProtocolStableId × List ProtocolSelection) (offer : ProtocolOffer) :
    negotiateOffer remote acc offer = .error () ∨
    (∃ seen, negotiateOffer remote acc offer = .ok (seen, acc.2) ∧
      ∀ id, id ∈ seen ↔ id ∈ acc.1 ∨ id = offer.stableId) ∨
    (∃ remoteOffer s, remoteOffer ∈ remote ∧ SelectedFrom offer remoteOffer s ∧
      offer.stableId ∉ acc.1 ∧
      negotiateOffer remote acc offer = .ok (acc.1.insert offer.stableId, acc.2 ++ [s])) := by
  -- The identifier is marked as seen whether or not the offer is selected.
  have hins (id : ProtocolStableId) :
      id ∈ acc.1.insert offer.stableId ↔ id ∈ acc.1 ∨ id = offer.stableId := by
    rw [ExtTreeSet.mem_insert, Std.compare_eq_iff_eq, or_comm, eq_comm]
  unfold negotiateOffer
  split
  · next hc =>
    refine .inr (.inl ⟨acc.1, rfl, fun id => ⟨.inl, ?_⟩⟩)
    rintro (h | rfl)
    · exact h
    · rwa [ExtTreeSet.contains_iff_mem] at hc
  next hc =>
  rw [ExtTreeSet.contains_iff_mem] at hc
  simp only
  split
  · exact .inr (.inl ⟨_, rfl, hins⟩)
  next remoteOffer hr =>
  -- `find` returns the first remote offer with the identifier.
  have hid : remoteOffer.stableId = offer.stableId := by simpa using List.find?_some hr
  split
  · exact .inl rfl
  next hconf =>
  have hschema : offer.schema = remoteOffer.schema := not_ne_iff.mp (not_or.mp hconf).1
  split
  · exact .inr (.inl ⟨_, rfl, hins⟩)
  next version hv =>
  split
  · exact .inl rfl
  next capabilities hcap =>
    exact .inr (.inr ⟨remoteOffer, _, List.mem_of_find?_eq_some hr,
      ⟨rfl, hid, rfl, hschema.symm, hv, hcap⟩, hc, rfl⟩)

/-- The loop invariant of `negotiate_protocols`: distinct selections of seen identifiers, each
supported by a local and a remote offer. -/
structure NegotiationInv (localOffers remote : List ProtocolOffer)
    (acc : ExtTreeSet ProtocolStableId × List ProtocolSelection) : Prop where
  seen : ∀ s ∈ acc.2, s.stableId ∈ acc.1
  nodup : (acc.2.map fun s => s.stableId).Nodup
  supported : ∀ s ∈ acc.2, ∃ localOffer ∈ localOffers, ∃ remoteOffer ∈ remote,
    SelectedFrom localOffer remoteOffer s

theorem NegotiationInv.offer {localOffers remote : List ProtocolOffer}
    {acc acc' : ExtTreeSet ProtocolStableId × List ProtocolSelection} {offer : ProtocolOffer}
    (h : NegotiationInv localOffers remote acc) (ho : offer ∈ localOffers)
    (hs : negotiateOffer remote acc offer = .ok acc') : NegotiationInv localOffers remote acc' := by
  obtain he | ⟨seen, he, hseen⟩ | ⟨remoteOffer, s, hr, hsel, hnew, he⟩ :=
    negotiateOffer_cases remote acc offer <;> rw [he] at hs <;> cases hs
  · exact ⟨fun s hs => (hseen _).mpr (.inl (h.seen s hs)), h.nodup, h.supported⟩
  · refine ⟨fun t ht => ?_, ?_, fun t ht => ?_⟩
    · rw [ExtTreeSet.mem_insert, Std.compare_eq_iff_eq]
      rcases List.mem_append.mp ht with ht | ht
      · exact .inr (h.seen t ht)
      · obtain rfl := List.mem_singleton.mp ht
        exact .inl hsel.local_id
    · rw [List.map_append, List.nodup_append]
      -- An identifier selected earlier has been seen, and this one has not.
      refine ⟨h.nodup, by simp, fun a ha b hb hab => ?_⟩
      obtain ⟨t, ht, rfl⟩ := List.mem_map.mp ha
      obtain rfl : b = s.stableId := by simpa using hb
      exact hnew (hsel.local_id ▸ hab ▸ h.seen t ht)
    · rcases List.mem_append.mp ht with ht | ht
      · exact h.supported t ht
      · obtain rfl := List.mem_singleton.mp ht
        exact ⟨offer, ho, remoteOffer, hr, hsel⟩

theorem NegotiationInv.fold {localOffers remote offers : List ProtocolOffer}
    {acc acc' : ExtTreeSet ProtocolStableId × List ProtocolSelection}
    (h : NegotiationInv localOffers remote acc) (ho : ∀ offer ∈ offers, offer ∈ localOffers)
    (hs : offers.foldlM (negotiateOffer remote) acc = .ok acc') :
    NegotiationInv localOffers remote acc' := by
  induction offers generalizing acc with
  | nil =>
    cases hs
    exact h
  | cons offer offers ih =>
    rw [List.foldlM_cons] at hs
    -- An offer that conflicts ends the loop, so every earlier one went through.
    cases hstep : negotiateOffer remote acc offer with
    | error e => simp [hstep, bind, Except.bind] at hs
    | ok next =>
      simp only [hstep, bind, Except.bind] at hs
      exact ih (h.offer (ho offer List.mem_cons_self) hstep)
        (fun o hm => ho o (List.mem_cons_of_mem _ hm)) hs

/-- What `negotiate_protocols` selects is distinct and supported on both sides. -/
theorem negotiateProtocols_ok {localOffers remote : List ProtocolOffer}
    {selected : List ProtocolSelection}
    (h : negotiateProtocols localOffers remote = .ok selected) :
    (selected.map fun s => s.stableId).Nodup ∧ ∀ s ∈ selected, ∃ localOffer ∈ localOffers,
      ∃ remoteOffer ∈ remote, SelectedFrom localOffer remoteOffer s := by
  unfold negotiateProtocols at h
  split at h
  · cases h
  next acc hacc =>
    cases h
    have hinv : NegotiationInv localOffers remote acc :=
      NegotiationInv.fold ⟨by simp, by simp, by simp⟩ (fun _ ho => ho) hacc
    exact ⟨hinv.nodup, hinv.supported⟩

theorem negotiateProtocols_length_le {localOffers remote : List ProtocolOffer}
    {selected : List ProtocolSelection}
    (h : negotiateProtocols localOffers remote = .ok selected) :
    selected.length ≤ remote.length := by
  obtain ⟨hnodup, hsup⟩ := negotiateProtocols_ok h
  -- Distinct identifiers, each of them offered by the peer.
  have hsub : (selected.map fun s => s.stableId) ⊆ remote.map fun o => o.stableId := by
    intro id hid
    obtain ⟨s, hs, rfl⟩ := List.mem_map.mp hid
    obtain ⟨_, _, remoteOffer, hr, hsel⟩ := hsup s hs
    exact List.mem_map.mpr ⟨remoteOffer, hr, hsel.remote_id⟩
  simpa only [List.length_map] using (hnodup.subperm hsub).length_le

namespace HandshakeMachine

/-- What an offer says of a selection it admits. -/
structure Admitted (offer : ProtocolOffer) (s : ProtocolSelection) : Prop where
  stable_id : offer.stableId = s.stableId
  schema : offer.schema = s.schema
  version : offer.versions.Contains s.version
  capabilities : s.capabilities.isSubsetOf offer.capabilities = true

theorem admitsSelection_iff (s : ProtocolSelection) (offer : ProtocolOffer) :
    admitsSelection s offer = true ↔ Admitted offer s ∧ s.capabilities.isBounded = true := by
  simp only [admitsSelection, Bool.and_eq_true, beq_iff_eq, VersionRange.negotiate_point_isSome]
  constructor
  · rintro ⟨⟨⟨⟨⟨h1, h2⟩, -⟩, h4⟩, h5⟩, h6⟩
    exact ⟨⟨h1, h2, h6, h5⟩, h4⟩
  · rintro ⟨⟨h1, h2, h6, h5⟩, h4⟩
    exact ⟨⟨⟨⟨⟨h1, h2⟩, ((ProtocolCapabilitySet.isSubsetOf_iff _ _).mp h5).1.symm⟩, h4⟩, h5⟩, h6⟩

/-- A selection list that a catalogue supports, as the two roles settle on it. -/
structure SoundSelection (catalogue : List ProtocolOffer) (selected : List ProtocolSelection) :
    Prop where
  nonempty : selected ≠ []
  nodup : (selected.map fun s => s.stableId).Nodup
  admitted : ∀ s ∈ selected, ∃ offer ∈ catalogue, Admitted offer s

theorem checkSelections_ok_iff (catalogue : List ProtocolOffer)
    (seen : ExtTreeSet ProtocolStableId) (selected : List ProtocolSelection) :
    checkSelections catalogue seen selected = .ok () ↔
      (selected.map fun s => s.stableId).Nodup ∧ (∀ s ∈ selected, s.stableId ∉ seen) ∧
        ∀ s ∈ selected,
          s.capabilities.isBounded = true ∧ ∃ offer ∈ catalogue, Admitted offer s := by
  induction selected generalizing seen with
  | nil => simp [checkSelections]
  | cons s rest ih =>
    unfold checkSelections
    split
    · next hc =>
      rw [ExtTreeSet.contains_iff_mem] at hc
      simp only [reduceCtorEq, false_iff, not_and]
      exact fun _ hseen => absurd hc (hseen s List.mem_cons_self)
    next hc =>
    rw [ExtTreeSet.contains_iff_mem] at hc
    -- The bound on the capabilities is checked inside `any`, but does not depend on the offer.
    have hany : (!catalogue.any (admitsSelection s)) = true ↔
        ¬(s.capabilities.isBounded = true ∧ ∃ offer ∈ catalogue, Admitted offer s) := by
      rw [Bool.not_eq_true', ← Bool.not_eq_true, List.any_eq_true]
      refine not_congr ⟨?_, ?_⟩
      · rintro ⟨offer, ho, ha⟩
        obtain ⟨h1, h2⟩ := (admitsSelection_iff s offer).mp ha
        exact ⟨h2, offer, ho, h1⟩
      · rintro ⟨h2, offer, ho, h1⟩
        exact ⟨offer, ho, (admitsSelection_iff s offer).mpr ⟨h1, h2⟩⟩
    split
    · next hbad =>
      rw [hany] at hbad
      simp only [reduceCtorEq, false_iff, not_and]
      exact fun _ _ hall => hbad (hall s List.mem_cons_self)
    next hgood =>
    rw [hany, not_not] at hgood
    rw [ih]
    simp only [ExtTreeSet.mem_insert, Std.compare_eq_iff_eq, List.map_cons, List.nodup_cons,
      List.mem_map, not_exists, not_and, List.forall_mem_cons, not_or]
    grind

/-- The guards of `receive_hello`, with what it settles on. -/
structure HelloOk (m : HandshakeMachine) (identity : Identity) (linkVersions : VersionRange)
    (protocols : List ProtocolOffer) (requestedAuth : AuthPath) (linkVersion : ProtocolVersion)
    (selected : List ProtocolSelection) : Prop where
  count : protocols.length ≤ m.config.policy.maxProtocolOffers
  version : m.config.policy.linkVersions.negotiate linkVersions = some linkVersion
  pairing : requestedAuth = .firstPairing → m.config.policy.allowPairing = true
  trusted : requestedAuth = .trustedReconnect → identity.peerId ∈ m.config.policy.trustedPeers
  selected_eq :
    negotiateProtocols (m.config.policy.catalogue requestedAuth) protocols = .ok selected
  nonempty : selected ≠ []

/-- The eight transitions of the protocol: the successful calls. -/
inductive Accepts (derive : String → String → ProtocolStableId) :
    HandshakeMachine → HandshakeCall → List HandshakeOutput → HandshakeMachine → Prop
  | start {m : HandshakeMachine} {authPath : AuthPath} (role : m.role = .initiator)
      (state : m.state = .ready)
      (count : (m.config.policy.catalogue authPath).length ≤ m.config.policy.maxProtocolOffers)
      (consistent : ∀ offer ∈ m.config.policy.catalogue authPath,
        consistentOffer derive offer = true) :
      Accepts derive m (.start authPath)
        [.send (.hello m.config.identity m.config.policy.linkVersions
          m.config.policy.linkCapabilities (m.config.policy.catalogue authPath) authPath)]
        { m with authPath := some authPath, state := .awaitingChallenge }
  | hello {m : HandshakeMachine} {identity : Identity} {linkVersions : VersionRange}
      {remoteCapabilities : LinkCapabilities} {protocols : List ProtocolOffer}
      {requestedAuth : AuthPath} {linkVersion : ProtocolVersion}
      {selected : List ProtocolSelection} (role : m.role = .responder)
      (state : m.state = .awaitingHello)
      (ok : m.HelloOk identity linkVersions protocols requestedAuth linkVersion selected) :
      Accepts derive m
        (.receive (.hello identity linkVersions remoteCapabilities protocols requestedAuth))
        [.send (.challenge m.config.identity linkVersion
          (m.config.policy.linkCapabilities.intersection remoteCapabilities) requestedAuth
          m.config.challengeNonce)]
        { m with
          remote := some identity, authPath := some requestedAuth
          linkVersion := some linkVersion
          linkCapabilities := m.config.policy.linkCapabilities.intersection remoteCapabilities
          selectedProtocols := selected, state := .awaitingProof }
  | challenge {m : HandshakeMachine} {responder : Identity} {linkVersion : ProtocolVersion}
      {linkCapabilities : LinkCapabilities} {authPath : AuthPath} {nonce : Nonce}
      (role : m.role = .initiator) (state : m.state = .awaitingChallenge)
      (version : m.config.policy.linkVersions.Contains linkVersion)
      (auth : m.authPath = some authPath)
      (capabilities : linkCapabilities.isSubsetOf m.config.policy.linkCapabilities = true) :
      Accepts derive m
        (.receive (.challenge responder linkVersion linkCapabilities authPath nonce))
        [.send (.identityProof m.config.identityProof)]
        { m with
          remote := some responder, linkVersion := some linkVersion, linkCapabilities
          state := .awaitingSelection }
  | proof {m : HandshakeMachine} {proof : IdentityProof} {remote : Identity}
      {authPath : AuthPath} (role : m.role = .responder) (state : m.state = .awaitingProof)
      (size : proof.payload.length ≤ m.config.policy.maxIdentityProofBytes)
      (peer : m.remote = some remote) (auth : m.authPath = some authPath) :
      Accepts derive m (.receive (.identityProof proof))
        [.verifyIdentity ⟨remote.peerId, authPath, m.config.challengeNonce, proof⟩]
        { m with
          pendingVerification := some ⟨remote.peerId, authPath, m.config.challengeNonce, proof⟩
          state := .awaitingVerification }
  | accept {m : HandshakeMachine} {request : VerificationRequest} (role : m.role = .responder)
      (state : m.state = .awaitingVerification)
      (pending : m.pendingVerification = some request) :
      Accepts derive m (.decideIdentity .accept)
        [.send (.selection m.config.sessionId m.selectedProtocols)]
        { m with pendingVerification := none, state := .awaitingConfirmation }
  | selection {m : HandshakeMachine} {sessionId : SessionId} {protocols : List ProtocolSelection}
      {authPath : AuthPath} (role : m.role = .initiator) (state : m.state = .awaitingSelection)
      (auth : m.authPath = some authPath)
      (count : protocols.length ≤ m.config.policy.maxProtocolOffers)
      (bounded : ∀ s ∈ protocols, s.capabilities.isBounded = true)
      (sound : SoundSelection (m.config.policy.catalogue authPath) protocols) :
      Accepts derive m (.receive (.selection sessionId protocols)) [.send (.confirm sessionId)]
        { m with
          config := { m.config with sessionId }, selectedProtocols := protocols
          state := .awaitingConfirmed }
  | confirm {m : HandshakeMachine} {session : NegotiatedSession} (role : m.role = .responder)
      (state : m.state = .awaitingConfirmation)
      (negotiated : { m with state := .established }.negotiatedSession = .ok session) :
      Accepts derive m (.receive (.confirm m.config.sessionId))
        [.send (.confirmed m.config.sessionId), .established session]
        { m with state := .established }
  | confirmed {m : HandshakeMachine} {session : NegotiatedSession} (role : m.role = .initiator)
      (state : m.state = .awaitingConfirmed)
      (negotiated : { m with state := .established }.negotiatedSession = .ok session) :
      Accepts derive m (.receive (.confirmed m.config.sessionId)) [.established session]
        { m with state := .established }

/-- A machine after a failed call: only the state and the pending request may have changed. -/
def Failed (m m' : HandshakeMachine) : Prop :=
  ∃ pending, m' = { m with state := .failed, pendingVerification := pending }

/-- The states in which the identity, the version and the path of the peer are settled. -/
def settled : HandshakeState → Bool
  | .awaitingProof | .awaitingVerification | .awaitingSelection | .awaitingConfirmation
  | .awaitingConfirmed | .established => true
  | _ => false

/-- The optional fields are present wherever an `expect` reads them. -/
def WellFormed (m : HandshakeMachine) : Prop :=
  settled m.state = true → ∃ remote linkVersion authPath, m.remote = some remote ∧
    m.linkVersion = some linkVersion ∧ m.authPath = some authPath

/-- A call that is not one of the transitions fails the machine with an error. -/
def Refused (m : HandshakeMachine) (r : HandshakeReply × HandshakeMachine) : Prop :=
  ∃ e m', r = (.error (.error e), m') ∧ Failed m m'

theorem refused_fail (m : HandshakeMachine) (kind : HandshakeErrorKind) (message : String) :
    m.Refused (m.fail kind message) :=
  ⟨_, _, rfl, m.pendingVerification, rfl⟩

theorem negotiatedSession_ok {m : HandshakeMachine} {remote : Identity}
    {linkVersion : ProtocolVersion} {authPath : AuthPath} (hr : m.remote = some remote)
    (hv : m.linkVersion = some linkVersion) (ha : m.authPath = some authPath) :
    m.negotiatedSession = .ok {
      sessionId := m.config.sessionId, localIdentity := m.config.identity, remote, linkVersion
      linkCapabilities := m.linkCapabilities, protocols := m.selectedProtocols, authPath } := by
  simp only [negotiatedSession, hr, hv, ha]

theorem start_cases (derive : String → String → ProtocolStableId) (m : HandshakeMachine)
    (authPath : AuthPath) :
    (∃ outputs m', m.step derive (.start authPath) = (.ok outputs, m') ∧
      Accepts derive m (.start authPath) outputs m') ∨
    m.Refused (m.step derive (.start authPath)) := by
  have hfail (kind : HandshakeErrorKind) (message : String) : m.Refused
      ((m.fail kind message : HandshakeResult HandshakeFrame).map
        (Except.map fun frame => [.send frame]) id) :=
    ⟨_, _, rfl, m.pendingVerification, rfl⟩
  simp only [step, start]
  split
  · exact .inr (hfail _ _)
  next hrole =>
  split
  · exact .inr (hfail _ _)
  next hcount =>
  split
  · exact .inr (hfail _ _)
  next hoffers =>
    obtain ⟨hr, hs⟩ := not_or.mp hrole
    refine .inl ⟨_, _, rfl, .start (not_ne_iff.mp hr) (not_ne_iff.mp hs) (not_lt.mp hcount) ?_⟩
    intro offer ho
    by_contra hc
    exact hoffers (List.any_eq_true.mpr ⟨offer, ho, by simpa using hc⟩)

theorem receiveHello_cases (derive : String → String → ProtocolStableId) {m : HandshakeMachine}
    (hrole : m.role = .responder) (hstate : m.state = .awaitingHello) (identity : Identity)
    (linkVersions : VersionRange) (remoteCapabilities : LinkCapabilities)
    (protocols : List ProtocolOffer) (requestedAuth : AuthPath) :
    (∃ outputs m', m.receiveHello identity linkVersions remoteCapabilities protocols requestedAuth =
        (.ok outputs, m') ∧ Accepts derive m
      (.receive (.hello identity linkVersions remoteCapabilities protocols requestedAuth))
      outputs m') ∨
    m.Refused
      (m.receiveHello identity linkVersions remoteCapabilities protocols requestedAuth) := by
  unfold receiveHello
  split
  · exact .inr (m.refused_fail _ _)
  next hcount =>
  split
  · exact .inr (m.refused_fail _ _)
  next linkVersion hversion =>
  split
  · exact .inr (m.refused_fail _ _)
  next hpair =>
  split
  · exact .inr (m.refused_fail _ _)
  next htrust =>
  split
  · exact .inr (m.refused_fail _ _)
  · exact .inr (m.refused_fail _ _)
  next selected hne hsel =>
    refine .inl ⟨_, _, rfl, .hello hrole hstate
      ⟨not_lt.mp hcount, hversion, fun ha => ?_, fun ha => ?_, hsel, fun hnil => hne (hnil ▸ rfl)⟩⟩
    · by_contra hp
      exact hpair ⟨ha, by simpa using hp⟩
    · by_contra ht
      exact htrust ⟨ha, by simpa [← ExtTreeSet.contains_iff_mem] using ht⟩

theorem validateSelection_cases (m : HandshakeMachine) (protocols : List ProtocolSelection) :
    (m.validateSelection protocols = (.ok (), m) ∧ ∃ authPath, m.authPath = some authPath ∧
      protocols.length ≤ m.config.policy.maxProtocolOffers ∧
      (∀ s ∈ protocols, s.capabilities.isBounded = true) ∧
      SoundSelection (m.config.policy.catalogue authPath) protocols) ∨
    ∃ kind message, m.validateSelection protocols = m.fail kind message := by
  unfold validateSelection
  split
  · exact .inr ⟨_, _, rfl⟩
  next hlen =>
  split
  · exact .inr ⟨_, _, rfl⟩
  next authPath hauth =>
  split
  · exact .inr ⟨_, _, rfl⟩
  next hcheck =>
    obtain ⟨hne, hle⟩ := not_or.mp hlen
    obtain ⟨hnodup, -, hall⟩ := (checkSelections_ok_iff _ _ _).mp hcheck
    exact .inl ⟨rfl, authPath, hauth, not_lt.mp hle, fun s hs => (hall s hs).1, hne, hnodup,
      fun s hs => (hall s hs).2⟩

theorem receive_cases (derive : String → String → ProtocolStableId) {m : HandshakeMachine}
    (h : m.WellFormed) (frame : HandshakeFrame) :
    (∃ outputs m', m.receive frame = (.ok outputs, m') ∧
      Accepts derive m (.receive frame) outputs m') ∨ m.Refused (m.receive frame) := by
  unfold receive
  split
  · next hrole hstate => exact receiveHello_cases derive hrole hstate _ _ _ _ _
  · next hrole hstate =>
    split
    · exact .inr (m.refused_fail _ _)
    next hguard =>
      obtain ⟨hversion, hauth, hcap⟩ := not_or.mp hguard |>.imp_right not_or.mp
      refine .inl ⟨_, _, rfl,
        .challenge hrole hstate ?_ (not_ne_iff.mp hauth) (by simpa using hcap)⟩
      exact (VersionRange.negotiate_point_isSome _ _).mp
        (Option.isSome_iff_ne_none.mpr (by simpa using hversion))
  · next hrole hstate =>
    split
    · exact .inr (m.refused_fail _ _)
    next hsize =>
      -- Both `expect`s of this branch find their value in a settled state.
      obtain ⟨remote, linkVersion, authPath, hr, -, ha⟩ := h (by rw [hstate]; rfl)
      refine .inl ⟨_, _, ?_, .proof hrole hstate (not_lt.mp hsize) hr ha⟩
      simp only [hr, ha]
  · next sessionId protocols hrole hstate =>
    obtain ⟨he, authPath, hauth, hle, hbounded, hsound⟩ | ⟨kind, message, he⟩ :=
      m.validateSelection_cases protocols
    · simp only [he]
      exact .inl ⟨_, _, rfl, .selection hrole hstate hauth hle hbounded hsound⟩
    · simp only [he]
      exact .inr (m.refused_fail kind message)
  · next hrole hstate =>
    split
    · exact .inr (m.refused_fail _ _)
    next hid =>
      obtain ⟨remote, linkVersion, authPath, hr, hv, ha⟩ := h (by rw [hstate]; rfl)
      -- The three `expect`s of `negotiated_session` cannot fail in a settled state.
      have hsession := @negotiatedSession_ok { m with state := .established } _ _ _ hr hv ha
      obtain rfl := not_ne_iff.mp hid
      simp only [hsession]
      exact .inl ⟨_, _, rfl, .confirm hrole hstate hsession⟩
  · next hrole hstate =>
    split
    · exact .inr (m.refused_fail _ _)
    next hid =>
      obtain ⟨remote, linkVersion, authPath, hr, hv, ha⟩ := h (by rw [hstate]; rfl)
      have hsession := @negotiatedSession_ok { m with state := .established } _ _ _ hr hv ha
      obtain rfl := not_ne_iff.mp hid
      simp only [hsession]
      exact .inl ⟨_, _, rfl, .confirmed hrole hstate hsession⟩
  · exact .inr (m.refused_fail _ _)
  · exact .inr (m.refused_fail _ _)

theorem decideIdentity_cases (derive : String → String → ProtocolStableId) (m : HandshakeMachine)
    (decision : ProofDecision) :
    (∃ outputs m', m.decideIdentity decision = (.ok outputs, m') ∧
      Accepts derive m (.decideIdentity decision) outputs m') ∨
    m.Refused (m.decideIdentity decision) := by
  unfold decideIdentity
  split
  · exact .inr (m.refused_fail _ _)
  next hrole =>
  simp only
  split
  · exact .inr ⟨_, _, rfl, none, rfl⟩
  next hpending =>
  split
  · exact .inr ⟨_, _, rfl, none, rfl⟩
  next hdecision =>
    obtain ⟨hr, hs⟩ := not_or.mp hrole
    -- What is left is the accepting decision on a pending request.
    obtain ⟨request, hreq⟩ := Option.ne_none_iff_exists'.mp (by simpa using hpending)
    obtain rfl : decision = .accept := by cases decision <;> simp_all
    exact .inl ⟨_, _, rfl, .accept (not_ne_iff.mp hr) (not_ne_iff.mp hs) hreq⟩

theorem step_cases (derive : String → String → ProtocolStableId) {m : HandshakeMachine}
    (h : m.WellFormed) (call : HandshakeCall) :
    (∃ outputs m', m.step derive call = (.ok outputs, m') ∧ Accepts derive m call outputs m') ∨
    m.Refused (m.step derive call) := by
  cases call with
  | start authPath => exact start_cases derive m authPath
  | receive frame => exact receive_cases derive h frame
  | decideIdentity decision => exact decideIdentity_cases derive m decision

theorem validateSelection_ok {m : HandshakeMachine} {protocols : List ProtocolSelection}
    {authPath : AuthPath} (hauth : m.authPath = some authPath)
    (hcount : protocols.length ≤ m.config.policy.maxProtocolOffers)
    (hbounded : ∀ s ∈ protocols, s.capabilities.isBounded = true)
    (hsound : SoundSelection (m.config.policy.catalogue authPath) protocols) :
    m.validateSelection protocols = (.ok (), m) := by
  have hcheck : checkSelections (m.config.policy.catalogue authPath) ∅ protocols = .ok () :=
    (checkSelections_ok_iff _ _ _).mpr
      ⟨hsound.nodup, by simp, fun s hs => ⟨hbounded s hs, hsound.admitted s hs⟩⟩
  rw [validateSelection, if_neg (not_or.mpr ⟨hsound.nonempty, not_lt.mpr hcount⟩), hauth]
  simp only [hcheck]

/-- Each transition is taken whenever its guards hold. -/
theorem Accepts.step_eq {derive : String → String → ProtocolStableId} {m m' : HandshakeMachine}
    {call : HandshakeCall} {outputs : List HandshakeOutput} (h : Accepts derive m call outputs m') :
    m.step derive call = (.ok outputs, m') := by
  -- Each rule holds the guards of its branch, so that the call can be followed to its end.
  cases h with
  | @start authPath role state count consistent =>
    have hall :
        ¬((m.config.policy.catalogue authPath).any fun offer => !consistentOffer derive offer) :=
      fun hany => by
        obtain ⟨offer, ho, hc⟩ := List.any_eq_true.mp hany
        simp [consistent offer ho] at hc
    simp only [step, HandshakeMachine.start, role, state, ne_eq, not_true_eq_false, or_self,
      if_false, if_neg (not_lt.mpr count), if_neg hall]
    rfl
  | @hello identity linkVersions _ protocols requestedAuth linkVersion selected role state ok =>
    have hpair : ¬(requestedAuth = .firstPairing ∧ m.config.policy.allowPairing = false) :=
      fun h => by simp [ok.pairing h.1] at h
    have htrust : ¬(requestedAuth = .trustedReconnect ∧
        !m.config.policy.trustedPeers.contains identity.peerId) := fun h => by
      have := ExtTreeSet.contains_iff_mem.mpr (ok.trusted h.1)
      simp [this] at h
    obtain ⟨s, rest, hcons⟩ := List.exists_cons_of_ne_nil ok.nonempty
    simp only [step, receive, role, state, receiveHello, if_neg (not_lt.mpr ok.count), ok.version,
      if_neg hpair, if_neg htrust, ok.selected_eq, hcons]
  | @challenge responder linkVersion linkCapabilities authPath nonce role state version auth caps =>
    have hversion := Option.isSome_iff_ne_none.mp
      ((VersionRange.negotiate_point_isSome _ _).mpr version)
    have hguard : ¬((m.config.policy.linkVersions.negotiate ⟨linkVersion, linkVersion⟩).isNone ∨
        m.authPath ≠ some authPath ∨
        !linkCapabilities.isSubsetOf m.config.policy.linkCapabilities) := by
      simp [hversion, auth, caps]
    simp only [step, receive, role, state, if_neg hguard]
  | proof role state size peer auth =>
    simp only [step, receive, role, state, if_neg (not_lt.mpr size), peer, auth]
  | accept role state pending =>
    simp [step, decideIdentity, role, state, pending]
  | selection role state auth count bounded sound =>
    simp only [step, receive, role, state, validateSelection_ok auth count bounded sound]
  | confirm role state negotiated =>
    simp only [role] at negotiated
    simp only [step, receive, role, state, ne_eq, not_true_eq_false, if_false, negotiated]
  | confirmed role state negotiated =>
    simp only [role] at negotiated
    simp only [step, receive, role, state, ne_eq, not_true_eq_false, if_false, negotiated]

end HandshakeMachine

end MutsukiLink
