import MutsukiLink.TrustModel

/-! The pairing ceremony (`ceremony.rs`). SHA-256 is a parameter, and the owner of an identity
passes the signature backend to each call that needs it. -/
namespace MutsukiLink
open WireBytes
open Std (ExtTreeSet)

structure PairingId where
  bytes : FixedBytes 16
deriving DecidableEq, Repr

/-- A vector holds less than half of the address space. -/
structure LongTermIdentity where
  peerId : PeerId
  publicKey : Bytes
  displayName : String
  size_lt : publicKey.length < 2^63
deriving DecidableEq, Repr

inductive PairingMethod where
  | shortCode | qrCode | bilateralConfirmation
deriving DecidableEq, Repr

structure PairingOffer where
  pairingId : PairingId
  initiator : LongTermIdentity
  protocolVersion : ProtocolVersion
  challenge : FixedBytes 32
  method : PairingMethod
  expiresAtUnixMs : UInt64
deriving DecidableEq, Repr

structure PairingResponse where
  pairingId : PairingId
  responder : LongTermIdentity
  transcriptHash : FixedBytes 32
  shortCode : String
deriving DecidableEq, Repr

structure PairingConfirmation where
  pairingId : PairingId
  signerPeerId : PeerId
  transcriptHash : FixedBytes 32
  signature : Bytes
deriving DecidableEq, Repr

inductive PairingTerminationReason where
  | rejected | cancelled
deriving DecidableEq, Repr

structure PairingTermination where
  pairingId : PairingId
  reason : PairingTerminationReason
deriving DecidableEq, Repr

structure PairingPresentation where
  peerName : String
  peerFingerprint : FixedBytes 32
  shortCode : String
deriving DecidableEq, Repr

inductive PairingRole where
  | initiator | responder
deriving DecidableEq, Repr

inductive PairingState where
  | awaitingResponse | awaitingUserConfirmation | awaitingPeerConfirmation | paired | rejected
  | timedOut | cancelled | failed
deriving DecidableEq, Repr

inductive PairingEvent where
  | stateChanged (state : PairingState)
  | present (presentation : PairingPresentation)
  | completed (peerId : PeerId)
  | eventsDropped (count : ℕ)
deriving DecidableEq, Repr

inductive PairingErrorKind where
  | invalidInput | invalidState | duplicatePairing | timedOut | cancelled | rejected | codeMismatch
  | transcriptMismatch | identityProofRejected | replayDetected | rateLimited
deriving DecidableEq, Repr

structure PairingError where
  kind : PairingErrorKind
  publicMessage : String
deriving DecidableEq, Repr

/-- The signature backend of an identity owner. -/
structure PairingCrypto where
  signTranscript : FixedBytes 32 → Except PairingError Bytes
  verifyTranscript : Bytes → FixedBytes 32 → Bytes → Bool

def invalidState : PairingError :=
  ⟨.invalidState, "pairing command is invalid in the current state"⟩

def isTerminal : PairingState → Bool
  | .paired | .rejected | .timedOut | .cancelled | .failed => true
  | _ => false

def validateIdentity (identity : LongTermIdentity) : Except PairingError Unit :=
  if identity.publicKey.length < 16 ∨ identity.displayName = "" then
    .error ⟨.invalidInput, "long-term identity is invalid"⟩
  else .ok ()

def validateNew (alreadyTrusted : Bool) (expiresAtUnixMs : UInt64) (eventCapacity : ℕ) :
    Except PairingError Unit :=
  if alreadyTrusted then .error ⟨.duplicatePairing, "peer is already paired"⟩
  else if expiresAtUnixMs = 0 ∨ eventCapacity = 0 then
    .error ⟨.invalidInput, "pairing limits are invalid"⟩
  else .ok ()

/-- What `update_sized` feeds to the hash: the length in eight bytes, then the bytes. -/
def sized (value : Bytes) : Bytes := beBytes 8 (min value.length (2^64-1)) ++ value

def PairingMethod.tag : PairingMethod → UInt8
  | .shortCode => 1
  | .qrCode => 2
  | .bilateralConfirmation => 3

/-- The bytes that `transcript_hash` feeds to the hash. -/
def transcriptBytes (initiator responder : LongTermIdentity) (version : ProtocolVersion)
    (challenge : FixedBytes 32) (method : PairingMethod) : Bytes :=
  utf8 "mutsuki-link-pairing-v1" ++ (initiator.peerId.bytes ++ (sized initiator.publicKey ++
    (responder.peerId.bytes ++ (sized responder.publicKey ++ (beBytes 2 version.major.toNat ++
      (beBytes 2 version.minor.toNat ++ (challenge.bytes ++ [method.tag])))))))

section Hash
variable (sha256 : Bytes → FixedBytes 32)

def transcriptHash (initiator responder : LongTermIdentity) (version : ProtocolVersion)
    (challenge : FixedBytes 32) (method : PairingMethod) : FixedBytes 32 :=
  sha256 (transcriptBytes initiator responder version challenge method)

/-- Six decimal digits of the first four bytes. -/
def shortCode (transcriptHash : FixedBytes 32) : String :=
  let value := ofBeBytes (transcriptHash.bytes.take 4)%1000000
  String.ofList (List.leftpad 6 '0' (Nat.toDigits 10 value))

def presentation (identity : LongTermIdentity) (shortCode : String) : PairingPresentation :=
  { peerName := identity.displayName, peerFingerprint := sha256 identity.publicKey, shortCode }

end Hash

structure PairingSession where
  role : PairingRole
  state : PairingState
  localIdentity : LongTermIdentity
  remote : Option LongTermIdentity
  pairingId : PairingId
  protocolVersion : ProtocolVersion
  challenge : FixedBytes 32
  method : PairingMethod
  expiresAtUnixMs : UInt64
  transcriptHash : Option (FixedBytes 32)
  shortCode : Option String
  localConfirmed : Bool
  remoteConfirmed : Bool
  events : List PairingEvent
  eventCapacity : ℕ
  droppedEvents : ℕ
deriving DecidableEq, Repr

namespace PairingSession

def emit (s : PairingSession) (event : PairingEvent) : PairingSession :=
  if s.events.length = s.eventCapacity then
    { s with events := s.events.tail ++ [event], droppedEvents := min (s.droppedEvents+1) (2^64-1) }
  else { s with events := s.events ++ [event] }

def setState (s : PairingSession) (state : PairingState) : PairingSession :=
  { s with state }.emit (.stateChanged state)

def fail (s : PairingSession) (kind : PairingErrorKind) (message : String) :
    PairingError × PairingSession :=
  (⟨kind, message⟩, s.setState .failed)

def complete (s : PairingSession) : PairingSession :=
  let s := s.setState .paired
  match s.remote with
  | some remote => s.emit (.completed remote.peerId)
  | none => s

def checkTime (s : PairingSession) (nowUnixMs : UInt64) :
    Except PairingError Unit × PairingSession :=
  if s.expiresAtUnixMs ≤ nowUnixMs then
    (.error ⟨.timedOut, "pairing session timed out"⟩,
      -- A session that has ended keeps its state.
      if isTerminal s.state then s else s.setState .timedOut)
  else (.ok (), s)

def ensureNonterminal (s : PairingSession) : Except PairingError Unit :=
  if isTerminal s.state then .error invalidState else .ok ()

def initiator (localIdentity : LongTermIdentity) (pairingId : PairingId)
    (protocolVersion : ProtocolVersion) (challenge : FixedBytes 32) (method : PairingMethod)
    (expiresAtUnixMs : UInt64) (alreadyTrusted : Bool) (eventCapacity : ℕ) :
    Except PairingError PairingSession := do
  validateIdentity localIdentity
  validateNew alreadyTrusted expiresAtUnixMs eventCapacity
  return {
    role := .initiator, state := .awaitingResponse, localIdentity, remote := none, pairingId
    protocolVersion, challenge, method, expiresAtUnixMs, transcriptHash := none, shortCode := none
    localConfirmed := false, remoteConfirmed := false, events := [], eventCapacity
    droppedEvents := 0 }

section Hash
variable (sha256 : Bytes → FixedBytes 32)

def responder (localIdentity : LongTermIdentity) (offer : PairingOffer) (nowUnixMs : UInt64)
    (alreadyTrusted : Bool) (eventCapacity : ℕ) :
    Except PairingError (PairingSession × PairingResponse) := do
  validateIdentity localIdentity
  validateIdentity offer.initiator
  validateNew alreadyTrusted offer.expiresAtUnixMs eventCapacity
  if offer.expiresAtUnixMs ≤ nowUnixMs then .error ⟨.timedOut, "pairing offer expired"⟩
  else
    let hash := MutsukiLink.transcriptHash sha256 offer.initiator localIdentity
      offer.protocolVersion offer.challenge offer.method
    let code := MutsukiLink.shortCode hash
    let session : PairingSession := {
      role := .responder, state := .awaitingUserConfirmation, localIdentity
      remote := some offer.initiator, pairingId := offer.pairingId
      protocolVersion := offer.protocolVersion, challenge := offer.challenge
      method := offer.method, expiresAtUnixMs := offer.expiresAtUnixMs
      transcriptHash := some hash, shortCode := some code, localConfirmed := false
      remoteConfirmed := false, events := [], eventCapacity, droppedEvents := 0 }
    return (session.emit (.present (MutsukiLink.presentation sha256 offer.initiator code)),
      { pairingId := offer.pairingId, responder := localIdentity, transcriptHash := hash
        shortCode := code })

def offer (s : PairingSession) : Except PairingError PairingOffer :=
  if s.role ≠ .initiator ∨ s.state ≠ .awaitingResponse then .error invalidState
  else .ok {
    pairingId := s.pairingId, initiator := s.localIdentity, protocolVersion := s.protocolVersion
    challenge := s.challenge, method := s.method, expiresAtUnixMs := s.expiresAtUnixMs }

def presentation (s : PairingSession) : Except PairingError PairingPresentation :=
  match s.remote, s.shortCode with
  | some remote, some code => .ok (MutsukiLink.presentation sha256 remote code)
  | _, _ => .error invalidState

def receiveResponse (s : PairingSession) (response : PairingResponse) (nowUnixMs : UInt64) :
    Except PairingError Unit × PairingSession :=
  match s.checkTime nowUnixMs with
  | (.error e, s) => (.error e, s)
  | (.ok (), s) =>
    if s.role ≠ .initiator ∨ s.state ≠ .awaitingResponse ∨ response.pairingId ≠ s.pairingId then
      (s.fail .invalidState "pairing response is not expected").map .error id
    else match validateIdentity response.responder with
      -- An invalid identity is refused without ending the session.
      | .error e => (.error e, s)
      | .ok () =>
        let expected := MutsukiLink.transcriptHash sha256 s.localIdentity response.responder
          s.protocolVersion s.challenge s.method
        if response.transcriptHash ≠ expected ∨
            response.shortCode ≠ MutsukiLink.shortCode expected then
          (s.fail .transcriptMismatch "pairing transcript does not match").map .error id
        else
          let s := { s with
            remote := some response.responder, transcriptHash := some expected
            shortCode := some response.shortCode }
          let s := s.setState .awaitingUserConfirmation
          match s.presentation sha256 with
          | .error e => (.error e, s)
          | .ok shown => (.ok (), s.emit (.present shown))

def confirm (s : PairingSession) (displayedCode : String) (crypto : PairingCrypto)
    (nowUnixMs : UInt64) : Except PairingError PairingConfirmation × PairingSession :=
  match s.checkTime nowUnixMs with
  | (.error e, s) => (.error e, s)
  | (.ok (), s) =>
    if s.state ≠ .awaitingUserConfirmation then (.error invalidState, s)
    else if s.shortCode ≠ some displayedCode then
      (s.fail .codeMismatch "pairing short code does not match").map .error id
    else match s.transcriptHash with
      | none => (.error invalidState, s)
      | some hash =>
        match crypto.signTranscript hash with
        | .error e => (.error e, s)
        | .ok signature =>
          let s := { s with localConfirmed := true }
          -- Whichever confirmation comes second completes the pairing.
          let s := if s.remoteConfirmed then s.complete else s.setState .awaitingPeerConfirmation
          (.ok { pairingId := s.pairingId, signerPeerId := s.localIdentity.peerId
                 transcriptHash := hash, signature }, s)

def receiveConfirmation (s : PairingSession) (confirmation : PairingConfirmation)
    (crypto : PairingCrypto) (nowUnixMs : UInt64) : Except PairingError Unit × PairingSession :=
  match s.checkTime nowUnixMs with
  | (.error e, s) => (.error e, s)
  | (.ok (), s) =>
    if s.state ≠ .awaitingUserConfirmation ∧ s.state ≠ .awaitingPeerConfirmation then
      (.error invalidState, s)
    else match s.remote, s.transcriptHash with
      | some remote, some hash =>
        if confirmation.pairingId ≠ s.pairingId ∨ confirmation.signerPeerId ≠ remote.peerId ∨
            confirmation.transcriptHash ≠ hash then
          (s.fail .transcriptMismatch "pairing confirmation does not match transcript").map
            .error id
        else if !crypto.verifyTranscript remote.publicKey hash confirmation.signature then
          (s.fail .identityProofRejected "pairing identity proof was rejected").map .error id
        else
          let s := { s with remoteConfirmed := true }
          -- The state does not tell that the peer has confirmed, only the flag does.
          (.ok (), if s.localConfirmed then s.complete else s)
      | _, _ => (.error invalidState, s)

/-- `reject` and `cancel`, which differ in the state and the reason they give. -/
def terminate (s : PairingSession) (state : PairingState) (reason : PairingTerminationReason) :
    Except PairingError PairingTermination × PairingSession :=
  match s.ensureNonterminal with
  | .error e => (.error e, s)
  | .ok () => (.ok { pairingId := s.pairingId, reason }, s.setState state)

def reject (s : PairingSession) : Except PairingError PairingTermination × PairingSession :=
  s.terminate .rejected .rejected

def cancel (s : PairingSession) : Except PairingError PairingTermination × PairingSession :=
  s.terminate .cancelled .cancelled

def receiveTermination (s : PairingSession) (termination : PairingTermination) :
    Except PairingError Unit × PairingSession :=
  match s.ensureNonterminal with
  | .error e => (.error e, s)
  | .ok () =>
    -- A termination is not authenticated: the identifier is all that is compared.
    if termination.pairingId ≠ s.pairingId then
      (s.fail .transcriptMismatch "pairing termination does not match session").map .error id
    else (.ok (), s.setState (match termination.reason with
      | .rejected => .rejected
      | .cancelled => .cancelled))

def tick (s : PairingSession) (nowUnixMs : UInt64) : Except PairingError Unit × PairingSession :=
  s.checkTime nowUnixMs

def trustRecord (s : PairingSession) (aliasName : String)
    (permissions : ExtTreeSet LinkPermission) (nowUnixMs : UInt64) :
    Except PairingError TrustRecord :=
  if s.state ≠ .paired ∨ aliasName = "" then .error invalidState
  else match s.remote with
    | none => .error invalidState
    | some remote => .ok {
        peerId := remote.peerId, publicKey := remote.publicKey, aliasName
        firstPairedAtUnixMs := nowUnixMs, permissions, keyState := .active
        lastPairingChallengeHash := sha256 s.challenge.bytes, previousKeyFingerprints := [] }

def drainEvents (s : PairingSession) : List PairingEvent × PairingSession :=
  ((if 0 < s.droppedEvents then [.eventsDropped s.droppedEvents] else []) ++ s.events,
    { s with events := [], droppedEvents := 0 })

end Hash

end PairingSession

/-- The calls of a session. -/
inductive PairingCall where
  | offer
  | receiveResponse (response : PairingResponse) (nowUnixMs : UInt64)
  | presentation
  | confirm (displayedCode : String) (crypto : PairingCrypto) (nowUnixMs : UInt64)
  | receiveConfirmation (confirmation : PairingConfirmation) (crypto : PairingCrypto)
      (nowUnixMs : UInt64)
  | reject
  | cancel
  | receiveTermination (termination : PairingTermination)
  | tick (nowUnixMs : UInt64)
  | trustRecord (aliasName : String) (permissions : ExtTreeSet LinkPermission) (nowUnixMs : UInt64)
  | drainEvents

inductive PairingReply where
  | offered (result : Except PairingError PairingOffer)
  | presented (result : Except PairingError PairingPresentation)
  | done (result : Except PairingError Unit)
  | confirmed (result : Except PairingError PairingConfirmation)
  | terminated (result : Except PairingError PairingTermination)
  | recorded (result : Except PairingError TrustRecord)
  | drained (events : List PairingEvent)

namespace PairingSession

def step (sha256 : Bytes → FixedBytes 32) (s : PairingSession) :
    PairingCall → PairingReply × PairingSession
  | .offer => (.offered s.offer, s)
  | .receiveResponse response now => (s.receiveResponse sha256 response now).map .done id
  | .presentation => (.presented (s.presentation sha256), s)
  | .confirm code crypto now => (s.confirm code crypto now).map .confirmed id
  | .receiveConfirmation confirmation crypto now =>
    (s.receiveConfirmation confirmation crypto now).map .done id
  | .reject => s.reject.map .terminated id
  | .cancel => s.cancel.map .terminated id
  | .receiveTermination termination => (s.receiveTermination termination).map .done id
  | .tick now => (s.tick now).map .done id
  | .trustRecord aliasName permissions now =>
    (.recorded (s.trustRecord sha256 aliasName permissions now), s)
  | .drainEvents => s.drainEvents.map .drained id

end PairingSession

end MutsukiLink
