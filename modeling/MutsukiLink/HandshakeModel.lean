import MutsukiLink.ProtocolTypes
import Std.Data.ExtTreeSet

/-! The two-role handshake (`handshake.rs`). A method on `&mut self` returns its result with
the machine it leaves; `expect` is a fault of its own, so that a panic is visible. -/
namespace MutsukiLink
open WireBytes
open Std (ExtTreeSet)

abbrev Nonce := FixedBytes 32

structure IdentityProof where
  payload : Bytes
deriving DecidableEq, Repr

inductive HandshakeFrame where
  | hello (identity : Identity) (linkVersions : VersionRange)
      (linkCapabilities : LinkCapabilities) (protocols : List ProtocolOffer)
      (requestedAuth : AuthPath)
  | challenge (responder : Identity) (linkVersion : ProtocolVersion)
      (linkCapabilities : LinkCapabilities) (authPath : AuthPath) (nonce : Nonce)
  | identityProof (proof : IdentityProof)
  | selection (sessionId : SessionId) (protocols : List ProtocolSelection)
  | confirm (sessionId : SessionId)
  | confirmed (sessionId : SessionId)
  | reject (kind : HandshakeErrorKind)
deriving DecidableEq, Repr

inductive HandshakeRole where
  | initiator | responder
deriving DecidableEq, Repr

inductive HandshakeState where
  | ready | awaitingHello | awaitingChallenge | awaitingProof | awaitingVerification
  | awaitingSelection | awaitingConfirmation | awaitingConfirmed | established | failed
deriving DecidableEq, Repr

structure VerificationRequest where
  peerId : PeerId
  authPath : AuthPath
  nonce : Nonce
  proof : IdentityProof
deriving DecidableEq, Repr

inductive ProofDecision where
  | accept | reject
deriving DecidableEq, Repr

structure NegotiatedSession where
  sessionId : SessionId
  localIdentity : Identity
  remote : Identity
  linkVersion : ProtocolVersion
  linkCapabilities : LinkCapabilities
  protocols : List ProtocolSelection
  authPath : AuthPath
deriving DecidableEq, Repr

inductive HandshakeOutput where
  | send (frame : HandshakeFrame)
  | verifyIdentity (request : VerificationRequest)
  | established (session : NegotiatedSession)
deriving DecidableEq, Repr

structure HandshakePolicy where
  linkVersions : VersionRange
  linkCapabilities : LinkCapabilities
  protocols : List ProtocolOffer
  pairingProtocols : List ProtocolOffer
  allowPairing : Bool
  trustedPeers : ExtTreeSet PeerId
  maxProtocolOffers : ℕ
  maxIdentityProofBytes : ℕ

/-- The offers that one authentication path may show. -/
def HandshakePolicy.catalogue (policy : HandshakePolicy) : AuthPath → List ProtocolOffer
  | .firstPairing => policy.pairingProtocols
  | .trustedReconnect => policy.protocols

structure HandshakeConfig where
  identity : Identity
  policy : HandshakePolicy
  challengeNonce : Nonce
  identityProof : IdentityProof
  sessionId : SessionId

structure HandshakeMachine where
  role : HandshakeRole
  state : HandshakeState
  config : HandshakeConfig
  remote : Option Identity
  authPath : Option AuthPath
  linkVersion : Option ProtocolVersion
  linkCapabilities : LinkCapabilities
  selectedProtocols : List ProtocolSelection
  pendingVerification : Option VerificationRequest

/-- How a call can end without a result. -/
inductive HandshakeFault where
  | error (e : HandshakeError)
  | panic (message : String)
deriving DecidableEq, Repr

abbrev HandshakeResult (α : Type) := Except HandshakeFault α × HandshakeMachine

/-- The body of the loop in `negotiate_protocols`, over the identifiers seen so far and the
selections made so far. -/
def negotiateOffer (remote : List ProtocolOffer)
    (acc : ExtTreeSet ProtocolStableId × List ProtocolSelection) (localOffer : ProtocolOffer) :
    Except Unit (ExtTreeSet ProtocolStableId × List ProtocolSelection) :=
  if acc.1.contains localOffer.stableId then .ok acc
  else
    let stableIds := acc.1.insert localOffer.stableId
    match remote.find? fun remoteOffer => remoteOffer.stableId = localOffer.stableId with
    | none => .ok (stableIds, acc.2)
    | some remoteOffer =>
      if localOffer.schema ≠ remoteOffer.schema ∨
          (localOffer.debugIdentity.isSome ∧ remoteOffer.debugIdentity.isSome ∧
            localOffer.debugIdentity ≠ remoteOffer.debugIdentity) then .error ()
      else match localOffer.versions.negotiate remoteOffer.versions with
        | none => .ok (stableIds, acc.2)
        | some version =>
          match localOffer.capabilities.intersect remoteOffer.capabilities with
          | none => .error ()
          | some capabilities => .ok (stableIds, acc.2 ++
              [⟨localOffer.stableId, version, localOffer.schema, capabilities⟩])

def negotiateProtocols (localOffers remote : List ProtocolOffer) :
    Except Unit (List ProtocolSelection) :=
  match localOffers.foldlM (negotiateOffer remote) (∅, []) with
  | .error () => .error ()
  | .ok acc => .ok acc.2

namespace HandshakeMachine

def new (role : HandshakeRole) (state : HandshakeState) (config : HandshakeConfig) :
    HandshakeMachine :=
  { role, state, config, remote := none, authPath := none, linkVersion := none,
    linkCapabilities := ⟨0⟩, selectedProtocols := [], pendingVerification := none }

def initiator (config : HandshakeConfig) : HandshakeMachine := new .initiator .ready config

def responder (config : HandshakeConfig) : HandshakeMachine := new .responder .awaitingHello config

def fail {α : Type} (m : HandshakeMachine) (kind : HandshakeErrorKind) (message : String) :
    HandshakeResult α :=
  (.error (.error ⟨kind, message⟩), { m with state := .failed })

/-- The internal consistency that `start` asks of a local offer. -/
def consistentOffer (derive : String → String → ProtocolStableId) (offer : ProtocolOffer) : Bool :=
  !(offer.schema.revision == 0 || offer.capabilities.protocolId != offer.stableId ||
    !offer.capabilities.isBounded ||
    offer.debugIdentity.any fun identity => identity.stableId derive != offer.stableId)

def start (derive : String → String → ProtocolStableId) (m : HandshakeMachine)
    (authPath : AuthPath) : HandshakeResult HandshakeFrame :=
  if m.role ≠ .initiator ∨ m.state ≠ .ready then
    m.fail .unexpectedMessage "handshake cannot be started in the current state"
  else if m.config.policy.maxProtocolOffers < (m.config.policy.catalogue authPath).length then
    m.fail .limitExceeded "too many local protocol offers"
  else if (m.config.policy.catalogue authPath).any fun offer => !consistentOffer derive offer then
    m.fail .protocolConflict "upper protocol offer is internally inconsistent"
  else
    (.ok (.hello m.config.identity m.config.policy.linkVersions m.config.policy.linkCapabilities
        (m.config.policy.catalogue authPath) authPath),
      { m with authPath := some authPath, state := .awaitingChallenge })

def receiveHello (m : HandshakeMachine) (identity : Identity) (linkVersions : VersionRange)
    (remoteCapabilities : LinkCapabilities) (protocols : List ProtocolOffer)
    (requestedAuth : AuthPath) : HandshakeResult (List HandshakeOutput) :=
  if m.config.policy.maxProtocolOffers < protocols.length then
    m.fail .limitExceeded "too many protocol offers"
  else match m.config.policy.linkVersions.negotiate linkVersions with
    | none => m.fail .incompatibleVersion "link protocol versions are incompatible"
    | some linkVersion =>
      if requestedAuth = .firstPairing ∧ m.config.policy.allowPairing = false then
        m.fail .pairingDisabled "first pairing is disabled"
      else if requestedAuth = .trustedReconnect ∧
          !m.config.policy.trustedPeers.contains identity.peerId then
        m.fail .peerNotTrusted "peer is not trusted"
      else match negotiateProtocols (m.config.policy.catalogue requestedAuth) protocols with
        | .error () => m.fail .protocolConflict "upper protocol identity or schema conflicts"
        -- A conflict of one protocol ends the handshake; a protocol that is not shared does not.
        | .ok [] => m.fail .noSharedProtocol "no shared upper protocol"
        | .ok selected =>
          let linkCapabilities := m.config.policy.linkCapabilities.intersection remoteCapabilities
          (.ok [.send (.challenge m.config.identity linkVersion linkCapabilities requestedAuth
              m.config.challengeNonce)],
            { m with
              remote := some identity, authPath := some requestedAuth
              linkVersion := some linkVersion, linkCapabilities
              selectedProtocols := selected, state := .awaitingProof })

/-- One local offer admits a selection. -/
def admitsSelection (selection : ProtocolSelection) (offer : ProtocolOffer) : Bool :=
  offer.stableId == selection.stableId && offer.schema == selection.schema &&
    offer.capabilities.protocolId == selection.capabilities.protocolId &&
    selection.capabilities.isBounded && selection.capabilities.isSubsetOf offer.capabilities &&
    (offer.versions.negotiate ⟨selection.version, selection.version⟩).isSome

/-- The loop of `validate_selection`, over the identifiers seen so far. -/
def checkSelections (localProtocols : List ProtocolOffer) :
    ExtTreeSet ProtocolStableId → List ProtocolSelection →
      Except (HandshakeErrorKind × String) Unit
  | _, [] => .ok ()
  | stableIds, selection :: rest =>
    if stableIds.contains selection.stableId then
      .error (.protocolConflict, "responder selected a protocol more than once")
    else if !localProtocols.any (admitsSelection selection) then
      .error (.protocolConflict, "responder selected an unsupported protocol")
    else checkSelections localProtocols (stableIds.insert selection.stableId) rest

def validateSelection (m : HandshakeMachine) (selected : List ProtocolSelection) :
    HandshakeResult Unit :=
  if selected = [] ∨ m.config.policy.maxProtocolOffers < selected.length then
    m.fail .noSharedProtocol "invalid protocol selection"
  else match m.authPath with
    | none => m.fail .unexpectedMessage "authentication path is not negotiated"
    | some authPath =>
      match checkSelections (m.config.policy.catalogue authPath) ∅ selected with
      | .error (kind, message) => m.fail kind message
      | .ok () => (.ok (), m)

def negotiatedSession (m : HandshakeMachine) : Except HandshakeFault NegotiatedSession :=
  match m.remote, m.linkVersion, m.authPath with
  | none, _, _ => .error (.panic "remote identity negotiated")
  | some _, none, _ => .error (.panic "link version negotiated")
  | some _, some _, none => .error (.panic "auth path negotiated")
  | some remote, some linkVersion, some authPath =>
    .ok {
      sessionId := m.config.sessionId, localIdentity := m.config.identity, remote, linkVersion
      linkCapabilities := m.linkCapabilities, protocols := m.selectedProtocols, authPath }

def receive (m : HandshakeMachine) (frame : HandshakeFrame) :
    HandshakeResult (List HandshakeOutput) :=
  match m.role, m.state, frame with
  | .responder, .awaitingHello,
      .hello identity linkVersions linkCapabilities protocols requestedAuth =>
    m.receiveHello identity linkVersions linkCapabilities protocols requestedAuth
  | .initiator, .awaitingChallenge, .challenge responder linkVersion linkCapabilities authPath _ =>
    if (m.config.policy.linkVersions.negotiate ⟨linkVersion, linkVersion⟩).isNone ∨
        m.authPath ≠ some authPath ∨
        !linkCapabilities.isSubsetOf m.config.policy.linkCapabilities then
      m.fail .incompatibleVersion "responder selected an incompatible handshake"
    else
      (.ok [.send (.identityProof m.config.identityProof)],
        { m with
          remote := some responder, linkVersion := some linkVersion, linkCapabilities
          state := .awaitingSelection })
  | .responder, .awaitingProof, .identityProof proof =>
    if m.config.policy.maxIdentityProofBytes < proof.payload.length then
      m.fail .limitExceeded "identity proof exceeds configured limit"
    else match m.remote, m.authPath with
      | none, _ => (.error (.panic "remote set after hello"), m)
      | some _, none => (.error (.panic "auth path set after hello"), m)
      | some remote, some authPath =>
        let request := ⟨remote.peerId, authPath, m.config.challengeNonce, proof⟩
        (.ok [.verifyIdentity request],
          { m with pendingVerification := some request, state := .awaitingVerification })
  | .initiator, .awaitingSelection, .selection sessionId protocols =>
    match m.validateSelection protocols with
    | (.error e, m) => (.error e, m)
    | (.ok (), m) =>
      (.ok [.send (.confirm sessionId)],
        -- The initiator takes over the session identifier of the responder.
        { m with
          config := { m.config with sessionId }, selectedProtocols := protocols
          state := .awaitingConfirmed })
  | .responder, .awaitingConfirmation, .confirm sessionId =>
    -- The state is written before the session is put together.
    if sessionId ≠ m.config.sessionId then
      m.fail .invalidConfirmation "session confirmation does not match"
    else
      let m := { m with state := .established }
      match m.negotiatedSession with
      | .error fault => (.error fault, m)
      | .ok session => (.ok [.send (.confirmed sessionId), .established session], m)
  | .initiator, .awaitingConfirmed, .confirmed sessionId =>
    if sessionId ≠ m.config.sessionId then
      m.fail .invalidConfirmation "session confirmation does not match"
    else
      let m := { m with state := .established }
      match m.negotiatedSession with
      | .error fault => (.error fault, m)
      | .ok session => (.ok [.established session], m)
  -- A rejection ends the handshake in every state, also in one that is over.
  | _, _, .reject kind => m.fail kind "peer rejected handshake"
  | _, _, _ => m.fail .unexpectedMessage "unexpected handshake message"

def decideIdentity (m : HandshakeMachine) (decision : ProofDecision) :
    HandshakeResult (List HandshakeOutput) :=
  if m.role ≠ .responder ∨ m.state ≠ .awaitingVerification then
    m.fail .unexpectedMessage "identity decision is not expected"
  else
    let pending := m.pendingVerification
    -- `take()` empties the request before it is looked at.
    let m := { m with pendingVerification := none }
    if pending.isNone then m.fail .unexpectedMessage "identity decision is not expected"
    else if decision = .reject then m.fail .identityRejected "peer identity was rejected"
    else
      (.ok [.send (.selection m.config.sessionId m.selectedProtocols)],
        { m with state := .awaitingConfirmation })

end HandshakeMachine

inductive HandshakeCall where
  | start (authPath : AuthPath)
  | receive (frame : HandshakeFrame)
  | decideIdentity (decision : ProofDecision)
deriving DecidableEq, Repr

abbrev HandshakeReply := Except HandshakeFault (List HandshakeOutput)

/-- One call of the public interface. The frame that `start` returns is for the caller to send. -/
def HandshakeMachine.step (derive : String → String → ProtocolStableId) (m : HandshakeMachine) :
    HandshakeCall → HandshakeReply × HandshakeMachine
  | .start authPath => (m.start derive authPath).map (Except.map fun frame => [.send frame]) id
  | .receive frame => m.receive frame
  | .decideIdentity decision => m.decideIdentity decision

end MutsukiLink
