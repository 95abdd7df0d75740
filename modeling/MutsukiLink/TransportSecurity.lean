import MutsukiLink.TransportSelection

/-! Acceptance of a transport by the evidence of its security (`security.rs`). -/
namespace MutsukiLink
open WireBytes

inductive IdentityStatus where
  | active (validUntilUnixMs : UInt64)
  | revoked | rotated
deriving DecidableEq, Repr

structure IdentityEvidence where
  peerId : PeerId
  publicKeyFingerprint : FixedBytes 32
  keyEpoch : UInt64
  status : IdentityStatus
deriving DecidableEq, Repr

/-- The key itself is not part of it: `key_id` is an identifier of the backend. -/
structure SessionKeyBinding where
  keyId : FixedBytes 32
  forwardSecure : Bool
  handshakeTranscriptHash : FixedBytes 32
  localEndpoint : EndpointAddress
  remoteEndpoint : EndpointAddress
  linkVersion : ProtocolVersion
deriving DecidableEq, Repr

structure TransportSecurityEvidence where
  transport : TransportKind
  securityLevel : SecurityLevel
  mutuallyAuthenticated : Bool
  localPeerCredentialVerified : Bool
  developmentPlaintext : Bool
  identity : IdentityEvidence
  sessionKey : Option SessionKeyBinding
deriving DecidableEq, Repr

structure SecurityExpectation where
  peerId : PeerId
  publicKeyFingerprint : FixedBytes 32
  minimumKeyEpoch : UInt64
  handshakeTranscriptHash : FixedBytes 32
  localEndpoint : EndpointAddress
  remoteEndpoint : EndpointAddress
  linkVersion : ProtocolVersion
  nowUnixMs : UInt64
deriving DecidableEq, Repr

inductive RemoteSecurityPolicy where
  | authenticatedEncrypted | allowExplicitDevelopmentPlaintext
deriving DecidableEq, Repr

inductive ForwardSecrecyPolicy where
  | required | optional
deriving DecidableEq, Repr

inductive LocalPeerCredentialPolicy where
  | required | optional
deriving DecidableEq, Repr

structure SecurityPolicy where
  remote : RemoteSecurityPolicy
  forwardSecrecy : ForwardSecrecyPolicy
  localPeerCredential : LocalPeerCredentialPolicy
deriving DecidableEq, Repr

/-- The default is the strictest policy. -/
instance : Inhabited SecurityPolicy := ⟨⟨.authenticatedEncrypted, .required, .required⟩⟩

inductive SecurityErrorKind where
  | plaintextForbidden | encryptionRequired | mutualAuthenticationRequired
  | forwardSecrecyRequired | localPeerCredentialRequired | peerMismatch | keyMismatch | keyRotated
  | identityRevoked | identityExpired | transcriptMismatch | endpointMismatch | protocolMismatch
  | missingSessionKey
deriving DecidableEq, Repr

structure SecurityError where
  kind : SecurityErrorKind
  publicMessage : String
deriving DecidableEq, Repr

namespace SecurityErrorKind

def error (kind : SecurityErrorKind) : SecurityError where
  kind
  publicMessage := match kind with
    | .plaintextForbidden => "plaintext transport is not permitted"
    | .encryptionRequired => "encrypted transport is required"
    | .mutualAuthenticationRequired => "mutual authentication is required"
    | .forwardSecrecyRequired => "forward-secure session keys are required"
    | .localPeerCredentialRequired => "local peer credential is required"
    | .peerMismatch => "authenticated peer does not match"
    | .keyMismatch => "authenticated identity key does not match"
    | .keyRotated => "authenticated identity key has been rotated"
    | .identityRevoked => "authenticated identity has been revoked"
    | .identityExpired => "authenticated identity has expired"
    | .transcriptMismatch => "session key is not bound to this handshake"
    | .endpointMismatch => "session key is not bound to these endpoints"
    | .protocolMismatch => "session key is not bound to this protocol version"
    | .missingSessionKey => "session key binding is missing"

end SecurityErrorKind

def requiresForwardSecrecy (policy : SecurityPolicy) : Bool := policy.forwardSecrecy = .required

def validateBinding (evidence : TransportSecurityEvidence) (expected : SecurityExpectation)
    (remoteRequiresKey requireForwardSecrecy : Bool) : Except SecurityError Unit :=
  match evidence.sessionKey with
  | none =>
    if remoteRequiresKey ∨ requireForwardSecrecy then
      .error SecurityErrorKind.missingSessionKey.error
    else .ok ()
  -- A binding that nobody asks for has to fit all the same when there is one.
  | some binding =>
    if requireForwardSecrecy ∧ !binding.forwardSecure then
      .error SecurityErrorKind.forwardSecrecyRequired.error
    else if binding.handshakeTranscriptHash ≠ expected.handshakeTranscriptHash then
      .error SecurityErrorKind.transcriptMismatch.error
    else if binding.localEndpoint ≠ expected.localEndpoint ∨
        binding.remoteEndpoint ≠ expected.remoteEndpoint then
      .error SecurityErrorKind.endpointMismatch.error
    else if binding.linkVersion ≠ expected.linkVersion then
      .error SecurityErrorKind.protocolMismatch.error
    else .ok ()

/-- The part of `validate_transport_security` below the identity. -/
def validateTransport (evidence : TransportSecurityEvidence) (expected : SecurityExpectation)
    (policy : SecurityPolicy) : Except SecurityError Unit :=
  if evidence.transport = .localTransport then
    if policy.localPeerCredential = .required ∧ !evidence.localPeerCredentialVerified then
      .error SecurityErrorKind.localPeerCredentialRequired.error
    else validateBinding evidence expected false (requiresForwardSecrecy policy)
  else if evidence.securityLevel = .plaintext then
    if policy.remote ≠ .allowExplicitDevelopmentPlaintext ∨ !evidence.developmentPlaintext then
      .error SecurityErrorKind.plaintextForbidden.error
    -- There is no key to be forward secure: the policy on that is passed over.
    else validateBinding evidence expected false false
  -- The level between the two is let through by the policy alone, without the marker.
  else if policy.remote = .authenticatedEncrypted ∧
      evidence.securityLevel ≠ .authenticatedEncrypted then
    .error SecurityErrorKind.encryptionRequired.error
  else validateBinding evidence expected true (requiresForwardSecrecy policy)

def validateTransportSecurity (evidence : TransportSecurityEvidence)
    (expected : SecurityExpectation) (policy : SecurityPolicy) : Except SecurityError Unit :=
  if evidence.identity.peerId ≠ expected.peerId then .error SecurityErrorKind.peerMismatch.error
  else if evidence.identity.publicKeyFingerprint ≠ expected.publicKeyFingerprint then
    .error SecurityErrorKind.keyMismatch.error
  else if evidence.identity.keyEpoch < expected.minimumKeyEpoch then
    .error SecurityErrorKind.keyRotated.error
  else match evidence.identity.status with
  | .revoked => .error SecurityErrorKind.identityRevoked.error
  | .rotated => .error SecurityErrorKind.keyRotated.error
  | .active validUntilUnixMs =>
    if expected.nowUnixMs ≥ validUntilUnixMs then .error SecurityErrorKind.identityExpired.error
    else if !evidence.mutuallyAuthenticated then
      .error SecurityErrorKind.mutualAuthenticationRequired.error
    else validateTransport evidence expected policy

structure AuthenticatedSession where
  session : SessionInfo
  evidence : TransportSecurityEvidence
deriving DecidableEq, Repr

def authenticateSession (session : SessionInfo) (evidence : TransportSecurityEvidence)
    (expected : SecurityExpectation) (policy : SecurityPolicy) :
    Except SecurityError AuthenticatedSession :=
  if session.peerId ≠ expected.peerId then .error SecurityErrorKind.peerMismatch.error
  else (validateTransportSecurity evidence expected policy).map fun _ => ⟨session, evidence⟩

/-- The peer is the expected one, holds its current key, and both sides are authenticated. -/
structure TrustedPeer (evidence : TransportSecurityEvidence) (expected : SecurityExpectation) :
    Prop where
  peerId : evidence.identity.peerId = expected.peerId
  publicKeyFingerprint : evidence.identity.publicKeyFingerprint = expected.publicKeyFingerprint
  keyEpoch : expected.minimumKeyEpoch ≤ evidence.identity.keyEpoch
  active : ∃ validUntil, evidence.identity.status = .active validUntil ∧
    expected.nowUnixMs < validUntil
  mutuallyAuthenticated : evidence.mutuallyAuthenticated = true

structure SessionKeyBinding.Bound (binding : SessionKeyBinding) (expected : SecurityExpectation) :
    Prop where
  transcript : binding.handshakeTranscriptHash = expected.handshakeTranscriptHash
  localEndpoint : binding.localEndpoint = expected.localEndpoint
  remoteEndpoint : binding.remoteEndpoint = expected.remoteEndpoint
  linkVersion : binding.linkVersion = expected.linkVersion

theorem refuse_eq_ok {ε α : Type*} {p : Prop} [Decidable p] {e : ε} {x : Except ε α} {a : α} :
    (if p then .error e else x) = .ok a ↔ ¬p ∧ x = .ok a := by
  by_cases hp : p
  · simp [hp]
  · simp [hp]

theorem validateBinding_eq_ok (evidence : TransportSecurityEvidence)
    (expected : SecurityExpectation) (key secrecy : Bool) :
    validateBinding evidence expected key secrecy = .ok () ↔
      (key ∨ secrecy → ∃ binding, evidence.sessionKey = some binding) ∧
      ∀ binding, evidence.sessionKey = some binding →
        (secrecy → binding.forwardSecure) ∧ binding.Bound expected := by
  unfold validateBinding
  cases evidence.sessionKey with
  | none => simp
  | some binding =>
    simp only [refuse_eq_ok, Option.some.injEq, exists_eq', implies_true, true_and, forall_eq',
      and_true]
    constructor
    · intro h
      obtain ⟨hsecrecy, htranscript, hendpoints, hversion⟩ := h
      refine ⟨by simpa using hsecrecy, not_not.mp htranscript, ?_, ?_, not_not.mp hversion⟩
      · exact not_not.mp fun h => hendpoints (Or.inl h)
      · exact not_not.mp fun h => hendpoints (Or.inr h)
    · intro h
      obtain ⟨hsecrecy, hbound⟩ := h
      refine ⟨by simpa using hsecrecy, not_not.mpr hbound.transcript, ?_,
        not_not.mpr hbound.linkVersion⟩
      simp [hbound.localEndpoint, hbound.remoteEndpoint]

/-- What the transport itself has to show. -/
structure TransportAdmitted (evidence : TransportSecurityEvidence)
    (expected : SecurityExpectation) (policy : SecurityPolicy) : Prop where
  bound : ∀ binding, evidence.sessionKey = some binding → binding.Bound expected
  credential : evidence.transport = .localTransport → policy.localPeerCredential = .required →
    evidence.localPeerCredentialVerified = true
  plaintext : evidence.transport ≠ .localTransport → evidence.securityLevel = .plaintext →
    policy.remote = .allowExplicitDevelopmentPlaintext ∧ evidence.developmentPlaintext = true
  authenticated : evidence.transport ≠ .localTransport →
    evidence.securityLevel = .authenticated → policy.remote = .allowExplicitDevelopmentPlaintext
  key : evidence.transport ≠ .localTransport → evidence.securityLevel ≠ .plaintext →
    ∃ binding, evidence.sessionKey = some binding
  secrecy : policy.forwardSecrecy = .required →
    evidence.transport = .localTransport ∨ evidence.securityLevel ≠ .plaintext →
      ∃ binding, evidence.sessionKey = some binding ∧ binding.forwardSecure = true

theorem requiresForwardSecrecy_iff (policy : SecurityPolicy) :
    requiresForwardSecrecy policy = true ↔ policy.forwardSecrecy = .required := by
  simp [requiresForwardSecrecy]

section Transport
variable {evidence : TransportSecurityEvidence} {expected : SecurityExpectation}
variable {policy : SecurityPolicy}

/-- A key that a forward-secure one must be is the only one there is. -/
theorem TransportAdmitted.forwardSecure (h : TransportAdmitted evidence expected policy)
    (hrequired : policy.forwardSecrecy = .required)
    (hkeyed : evidence.transport = .localTransport ∨ evidence.securityLevel ≠ .plaintext)
    {binding : SessionKeyBinding} (hbinding : evidence.sessionKey = some binding) :
    binding.forwardSecure = true := by
  obtain ⟨b, hb, hforward⟩ := h.secrecy hrequired hkeyed
  obtain rfl := Option.some.inj (hbinding.symm.trans hb)
  exact hforward

theorem validateTransport_local (hlocal : evidence.transport = .localTransport) :
    validateTransport evidence expected policy = .ok () ↔
      TransportAdmitted evidence expected policy := by
  unfold validateTransport
  rw [if_pos hlocal, refuse_eq_ok, validateBinding_eq_ok]
  simp only [Bool.false_eq_true, false_or, requiresForwardSecrecy_iff]
  constructor
  · intro h
    obtain ⟨hcredential, hkey, hbound⟩ := h
    refine ⟨fun b hb => (hbound b hb).2, fun _ h => ?_, fun h => absurd hlocal h,
      fun h => absurd hlocal h, fun h => absurd hlocal h, fun h _ => ?_⟩
    · simpa [h] using hcredential
    · obtain ⟨b, hb⟩ := hkey h
      exact ⟨b, hb, (hbound b hb).1 h⟩
  · intro h
    refine ⟨fun hrefused => ?_, fun hrequired => ?_, fun b hb => ⟨fun hrequired => ?_, ?_⟩⟩
    · have hverified := h.credential hlocal hrefused.1
      simp [hverified] at hrefused
    · obtain ⟨b, hb, -⟩ := h.secrecy hrequired (Or.inl hlocal)
      exact ⟨b, hb⟩
    -- Forward secrecy is asked of the binding that `secrecy` names, which is the only one.
    · exact h.forwardSecure hrequired (Or.inl hlocal) hb
    · exact h.bound b hb

theorem validateTransport_plaintext (hremote : evidence.transport ≠ .localTransport)
    (hplain : evidence.securityLevel = .plaintext) :
    validateTransport evidence expected policy = .ok () ↔
      TransportAdmitted evidence expected policy := by
  unfold validateTransport
  rw [if_neg hremote, if_pos hplain, refuse_eq_ok, validateBinding_eq_ok]
  constructor
  · intro h
    obtain ⟨hmarked, -, hbound⟩ := h
    refine ⟨fun b hb => (hbound b hb).2, fun h => absurd h hremote, fun _ _ => ?_, fun _ h => ?_,
      fun _ h => absurd hplain h, fun _ h => ?_⟩
    · simpa using hmarked
    · rw [hplain] at h
      cases h
    · exact absurd h fun h => h.elim hremote fun h => h hplain
  · intro h
    have hopted := h.plaintext hremote hplain
    have hmarked : ¬(policy.remote ≠ .allowExplicitDevelopmentPlaintext ∨
        (!evidence.developmentPlaintext) = true) := by simp [hopted.1, hopted.2]
    exact ⟨hmarked, by simp, fun b hb => ⟨by simp, h.bound b hb⟩⟩

theorem validateTransport_keyed (hremote : evidence.transport ≠ .localTransport)
    (hplain : evidence.securityLevel ≠ .plaintext) :
    validateTransport evidence expected policy = .ok () ↔
      TransportAdmitted evidence expected policy := by
  unfold validateTransport
  rw [if_neg hremote, if_neg hplain, refuse_eq_ok, validateBinding_eq_ok]
  simp only [true_or, forall_const, requiresForwardSecrecy_iff]
  constructor
  · intro h
    obtain ⟨hlevel, hkey, hbound⟩ := h
    refine ⟨fun b hb => (hbound b hb).2, fun h => absurd h hremote, fun _ h => absurd h hplain,
      fun _ h => ?_, fun _ _ => hkey, fun hrequired _ => ?_⟩
    · cases hpolicy : policy.remote with
      | allowExplicitDevelopmentPlaintext => rfl
      | authenticatedEncrypted => exact absurd ⟨hpolicy, by simp [h]⟩ hlevel
    · obtain ⟨b, hb⟩ := hkey
      exact ⟨b, hb, (hbound b hb).1 hrequired⟩
  · intro h
    refine ⟨fun hrefused => ?_, h.key hremote hplain, fun b hb => ⟨fun hrequired => ?_, ?_⟩⟩
    -- The strict policy refuses the middle level, so only an encrypted one is left.
    · cases hlevel : evidence.securityLevel with
      | plaintext => exact hplain hlevel
      | authenticated =>
        have hallow := h.authenticated hremote hlevel
        rw [hrefused.1] at hallow
        cases hallow
      | authenticatedEncrypted => exact hrefused.2 hlevel
    · exact h.forwardSecure hrequired (Or.inr hplain) hb
    · exact h.bound b hb

theorem validateTransport_eq_ok : validateTransport evidence expected policy = .ok () ↔
    TransportAdmitted evidence expected policy := by
  by_cases hlocal : evidence.transport = .localTransport
  · exact validateTransport_local hlocal
  · by_cases hplain : evidence.securityLevel = .plaintext
    · exact validateTransport_plaintext hlocal hplain
    · exact validateTransport_keyed hlocal hplain

theorem validateTransportSecurity_eq_ok :
    validateTransportSecurity evidence expected policy = .ok () ↔
      TrustedPeer evidence expected ∧ TransportAdmitted evidence expected policy := by
  rw [← validateTransport_eq_ok]
  unfold validateTransportSecurity
  rw [refuse_eq_ok, refuse_eq_ok, refuse_eq_ok, not_not, not_not, UInt64.not_lt]
  cases hstatus : evidence.identity.status with
  | active validUntil =>
    rw [refuse_eq_ok, refuse_eq_ok, ge_iff_le, UInt64.not_le]
    constructor
    · intro h
      obtain ⟨hpeer, hkey, hepoch, htime, hauthenticated, htransport⟩ := h
      exact ⟨⟨hpeer, hkey, hepoch, ⟨validUntil, hstatus, htime⟩, by simpa using hauthenticated⟩,
        htransport⟩
    · intro h
      obtain ⟨htrusted, htransport⟩ := h
      obtain ⟨until', huntil, htime⟩ := htrusted.active
      obtain rfl := IdentityStatus.active.inj (hstatus.symm.trans huntil)
      exact ⟨htrusted.peerId, htrusted.publicKeyFingerprint, htrusted.keyEpoch, htime,
        by simp [htrusted.mutuallyAuthenticated], htransport⟩
  | revoked =>
    refine ⟨fun h => absurd h.2.2.2 (by simp), fun h => ?_⟩
    obtain ⟨until', huntil, -⟩ := h.1.active
    cases hstatus.symm.trans huntil
  | rotated =>
    refine ⟨fun h => absurd h.2.2.2 (by simp), fun h => ?_⟩
    obtain ⟨until', huntil, -⟩ := h.1.active
    cases hstatus.symm.trans huntil

/-- What an accepted transport promises: without the explicit development marker a remote one is
encrypted. -/
structure SecureTransport (evidence : TransportSecurityEvidence) (expected : SecurityExpectation)
    (policy : SecurityPolicy) : Prop where
  trusted : TrustedPeer evidence expected
  bound : ∀ binding, evidence.sessionKey = some binding → binding.Bound expected
  encrypted : evidence.transport ≠ .localTransport →
    ¬(policy.remote = .allowExplicitDevelopmentPlaintext ∧
      evidence.developmentPlaintext = true) →
    evidence.securityLevel = .authenticatedEncrypted ∧
      ∃ binding, evidence.sessionKey = some binding ∧
        (policy.forwardSecrecy = .required → binding.forwardSecure = true)
  credential : evidence.transport = .localTransport → policy.localPeerCredential = .required →
    evidence.localPeerCredentialVerified = true

/-- A remote transport that is authenticated and not encrypted, with no development marker, of a
trusted peer and with the session key that an encrypted one would need. -/
structure UnmarkedCleartext (evidence : TransportSecurityEvidence)
    (expected : SecurityExpectation) (policy : SecurityPolicy) : Prop where
  remote : evidence.transport ≠ .localTransport
  level : evidence.securityLevel = .authenticated
  allowed : policy.remote = .allowExplicitDevelopmentPlaintext
  unmarked : evidence.developmentPlaintext = false
  trusted : TrustedPeer evidence expected
  key : ∃ binding, evidence.sessionKey = some binding ∧ binding.Bound expected ∧
    (policy.forwardSecrecy = .required → binding.forwardSecure = true)

theorem UnmarkedCleartext.accepted (h : UnmarkedCleartext evidence expected policy) :
    validateTransportSecurity evidence expected policy = .ok () := by
  obtain ⟨binding, hbinding, hbound, hforward⟩ := h.key
  rw [validateTransportSecurity_eq_ok]
  refine ⟨h.trusted, fun b hb => ?_, fun hlocal => absurd hlocal h.remote, fun _ hplain => ?_,
    fun _ _ => h.allowed, fun _ _ => ⟨binding, hbinding⟩,
    fun hrequired _ => ⟨binding, hbinding, hforward hrequired⟩⟩
  · obtain rfl := Option.some.inj (hbinding.symm.trans hb)
    exact hbound
  · rw [h.level] at hplain
    cases hplain

/-- Every other transport that is accepted keeps the promise. -/
theorem secureTransport_of_ok (hok : validateTransportSecurity evidence expected policy = .ok ())
    (hmarked : ¬UnmarkedCleartext evidence expected policy) :
    SecureTransport evidence expected policy := by
  obtain ⟨htrusted, h⟩ := validateTransportSecurity_eq_ok.mp hok
  refine ⟨htrusted, h.bound, ?_, h.credential⟩
  intro hremote hopted
  have hplain : evidence.securityLevel ≠ .plaintext :=
    fun hplain => hopted (h.plaintext hremote hplain)
  obtain ⟨binding, hbinding⟩ := h.key hremote hplain
  have hforward := fun hrequired => h.forwardSecure hrequired (Or.inr hplain) hbinding
  refine ⟨?_, binding, hbinding, hforward⟩
  cases hlevel : evidence.securityLevel with
  | authenticatedEncrypted => rfl
  | plaintext => exact absurd hlevel hplain
  | authenticated =>
    -- The policy has opted in and the promise does not apply, unless the marker is missing.
    have hallow := h.authenticated hremote hlevel
    have hunmarked : evidence.developmentPlaintext = false := by
      by_contra hmarker
      exact hopted ⟨hallow, by simpa using hmarker⟩
    exact absurd ⟨hremote, hlevel, hallow, hunmarked, htrusted, binding, hbinding,
      h.bound binding hbinding, hforward⟩ hmarked

/-- One field of the policy is relaxed. -/
inductive SecurityPolicy.Relaxed (policy : SecurityPolicy) : SecurityPolicy → Prop
  | remote : policy.Relaxed { policy with remote := .allowExplicitDevelopmentPlaintext }
  | forwardSecrecy : policy.Relaxed { policy with forwardSecrecy := .optional }
  | localPeerCredential : policy.Relaxed { policy with localPeerCredential := .optional }

theorem TransportAdmitted.relaxed (h : TransportAdmitted evidence expected policy)
    {relaxed : SecurityPolicy} (hrelaxed : policy.Relaxed relaxed) :
    TransportAdmitted evidence expected relaxed := by
  cases hrelaxed with
  | remote =>
    exact { h with
      plaintext := fun hremote hplain => ⟨rfl, (h.plaintext hremote hplain).2⟩
      authenticated := fun _ _ => rfl }
  -- What the relaxed field asks for is asked by no other one.
  | forwardSecrecy => exact { h with secrecy := fun hrequired => by cases hrequired }
  | localPeerCredential => exact { h with credential := fun _ hrequired => by cases hrequired }

/-- Acceptance keeps its promise on all inputs but one kind, and relaxing the policy refuses
nothing that was accepted. -/
theorem transport_acceptance_iff (evidence : TransportSecurityEvidence)
    (expected : SecurityExpectation) (policy : SecurityPolicy) :
    ((validateTransportSecurity evidence expected policy = .ok () →
        SecureTransport evidence expected policy) ↔
      ¬UnmarkedCleartext evidence expected policy) ∧
    ∀ relaxed, policy.Relaxed relaxed →
      validateTransportSecurity evidence expected policy = .ok () →
        validateTransportSecurity evidence expected relaxed = .ok () := by
  refine ⟨⟨fun hpromise hunmarked => ?_, fun hmarked hok => ?_⟩, fun relaxed hrelaxed hok => ?_⟩
  · have hsecure := hpromise hunmarked.accepted
    have hlevel := (hsecure.encrypted hunmarked.remote fun hopted => ?_).1
    · rw [hunmarked.level] at hlevel
      cases hlevel
    · rw [hunmarked.unmarked] at hopted
      cases hopted.2
  · exact secureTransport_of_ok hok hmarked
  · obtain ⟨htrusted, hadmitted⟩ := validateTransportSecurity_eq_ok.mp hok
    exact validateTransportSecurity_eq_ok.mpr ⟨htrusted, hadmitted.relaxed hrelaxed⟩

end Transport

def expectedPeer : SecurityExpectation where
  peerId := ⟨FixedBytes.replicate 32 2⟩
  publicKeyFingerprint := FixedBytes.replicate 32 5
  minimumKeyEpoch := 1
  handshakeTranscriptHash := FixedBytes.replicate 32 7
  localEndpoint := ⟨"tcp", "local"⟩
  remoteEndpoint := ⟨"tcp", "remote"⟩
  linkVersion := ⟨1, 0⟩
  nowUnixMs := 1000

/-- What a backend reports of an unencrypted connection to the expected peer that nobody has
configured for development. -/
def cleartextEvidence : TransportSecurityEvidence where
  transport := .tcp
  securityLevel := .authenticated
  mutuallyAuthenticated := true
  localPeerCredentialVerified := false
  developmentPlaintext := false
  identity := ⟨expectedPeer.peerId, expectedPeer.publicKeyFingerprint, 1, .active 2000⟩
  sessionKey := some ⟨FixedBytes.replicate 32 9, true, expectedPeer.handshakeTranscriptHash,
    expectedPeer.localEndpoint, expectedPeer.remoteEndpoint, expectedPeer.linkVersion⟩

theorem transport_acceptance_unmarked :
    validateTransportSecurity cleartextEvidence expectedPeer
        ⟨.allowExplicitDevelopmentPlaintext, .required, .required⟩ = .ok () ∧
      ¬SecureTransport cleartextEvidence expectedPeer
        ⟨.allowExplicitDevelopmentPlaintext, .required, .required⟩ := by
  refine ⟨by decide, fun hsecure => ?_⟩
  have hlevel := (hsecure.encrypted (by decide) (by decide)).1
  cases hlevel

/-- An encrypted connection to the same peer passes the default policy, also when that is
relaxed. -/
theorem transport_acceptance_encrypted :
    SecureTransport { cleartextEvidence with securityLevel := .authenticatedEncrypted }
        expectedPeer default ∧
      validateTransportSecurity
        { cleartextEvidence with securityLevel := .authenticatedEncrypted } expectedPeer
        ⟨.authenticatedEncrypted, .optional, .required⟩ = .ok () := by
  have h := transport_acceptance_iff
    { cleartextEvidence with securityLevel := .authenticatedEncrypted } expectedPeer default
  have hok : validateTransportSecurity
      { cleartextEvidence with securityLevel := .authenticatedEncrypted } expectedPeer default =
        .ok () := by decide
  refine ⟨h.1.mpr ?_ hok, h.2 _ .forwardSecrecy hok⟩
  intro hunmarked
  have hlevel := hunmarked.level
  cases hlevel

end MutsukiLink
