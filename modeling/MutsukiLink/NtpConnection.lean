import MutsukiLink.FragmentModel
import MutsukiLink.NtpControlModel

/-! What the two ends of the tracking binding share (`ntp-mutsuki-link/lib.rs`): the tracking
protocol library, the connection, the control outbox, the reconfiguration limit and the clock. -/
namespace MutsukiLink.Ntp
open WireBytes

structure NanaTrackingResult (ResultBody Landmark : Type) where
  sessionId : NtpSessionId
  generation : UInt32
  sequence : UInt64
  captureTimestampNs : UInt64
  producedTimestampNs : UInt64
  faceLandmarks : List Landmark
  body : ResultBody

structure CompactFrameInput (Sample : Type) where
  sessionId : NtpSessionId
  generation : UInt32
  sequence : UInt64
  captureTimestampNs : UInt64
  producedTimestampNs : UInt64
  samples : List Sample

/-- What the binding uses of `nana_tracking_protocol`. A method that takes `&mut self` answers with
the object after the call as well. -/
structure TrackingProtocol extends TrackingTypes where
  ActiveLayout : Type
  LayoutNegotiator : Type
  CompactStreamGuard : Type
  ResultStreamGuard : Type
  Sample : Type
  Landmark : Type
  ResultBody : Type
  negotiate : UInt32 → LayoutProposal Revisions SignalId → Descriptor → Except Error ActiveLayout
  layoutId : ActiveLayout → UInt32
  layoutProposal : ActiveLayout → LayoutProposal Revisions SignalId
  confirmation : ActiveLayout → LayoutConfirm
  signals : ActiveLayout → List SignalId
  frameLen : ActiveLayout → ℕ
  acceptConfirmation : LayoutAccept → LayoutConfirm
  newNegotiator : Except Error LayoutNegotiator
  receiveProposal : LayoutNegotiator → UInt32 → LayoutProposal Revisions SignalId → Descriptor →
    UInt64 → Except Error LayoutAccept × LayoutNegotiator
  confirm : LayoutNegotiator → LayoutConfirm → Except Error ActiveLayout × LayoutNegotiator
  confirmedGuard : NtpSessionId → UInt32 → ActiveLayout → LayoutConfirm →
    Except Error CompactStreamGuard
  newResultGuard : NtpSessionId → UInt32 → ResultStreamGuard
  unavailableSample : Sample
  rigSample : ResultBody → SignalId → Option Sample
  encodeCompact : ActiveLayout → CompactFrameInput Sample → Bytes → Except Error Unit × Bytes
  encodeResult : NanaTrackingResult ResultBody Landmark → Except Error Bytes
  validateResult : Descriptor → NanaTrackingResult ResultBody Landmark → Except Error Unit

namespace TrackingProtocol
variable (P : TrackingProtocol)

abbrev Layout := LayoutProposal P.Revisions P.SignalId
abbrev Result := NanaTrackingResult P.ResultBody P.Landmark
abbrev Failure := BindingError P.Error
abbrev Message := ControlMessage P.toTrackingTypes

/-- A layout carries the identifier that it was negotiated with. A negotiator confirms the layout of
the proposal that it accepted last, and only with the confirmation of that layout. -/
structure NegotiationLaws : Prop where
  layoutId_negotiate : ∀ layoutId layout descriptor active,
    P.negotiate layoutId layout descriptor = .ok active → P.layoutId active = layoutId
  confirm_received : ∀ negotiator layoutId layout descriptor now accept accepted confirm active
      confirmed,
    P.receiveProposal negotiator layoutId layout descriptor now = (.ok accept, accepted) →
    P.confirm accepted confirm = (.ok active, confirmed) →
      P.layoutId active = layoutId ∧ P.confirmation active = confirm

end TrackingProtocol

/-- What the binding asks of a `Connection`. The control stream is the one of `CONTROL_PROTOCOL`. -/
structure NtpConnection (σ : Type) extends LatestConnection σ where
  sendControl : σ → Bytes → Except TransportError Unit × σ
  receiveControl : σ → Except TransportError (Option Bytes) × σ
  trySend : σ → Bytes → Except TransportError Unit × σ

inductive TrackingTransportMode where
  | reliableLatestOnly | datagram
deriving DecidableEq, Repr

inductive NtpRole where
  | publisher | subscriber
deriving DecidableEq, Repr

structure NtpAuthorization where
  peerId : PeerId
  linkSessionId : SessionId
  role : NtpRole
deriving DecidableEq, Repr

structure ConnectionMetadata where
  peerHint : Option PeerId
  reliable : Bool
deriving DecidableEq, Repr

section Shared
variable {σ ε : Type} {T : TrackingTypes}

def validateConnectionAuthorization (metadata : ConnectionMetadata)
    (authorization : NtpAuthorization) (expectedRole : NtpRole) : Except (BindingError ε) Unit :=
  if authorization.role ≠ expectedRole then .error .unauthorized
  else if metadata.peerHint.any fun peer => peer ≠ authorization.peerId then
    .error .sessionBindingMismatch
  else .ok ()

def transportMode (connection : NtpConnection σ) (s : σ) : TrackingTransportMode :=
  if (connection.maxDatagramPayload s).isSome then .datagram else .reliableLatestOnly

def validateHello (hello : ProtocolHello) (expected : SessionId) : Except (BindingError ε) Unit :=
  if 2 < hello.minimumVersion ∨ hello.maximumVersion < 2 then .error .incompatibleVersion
  else if hello.linkSessionId ≠ expected then .error .sessionBindingMismatch
  else .ok ()

def queueControl (outbox : List Bytes) (message : ControlMessage T) (config : BindingConfig) :
    Except (BindingError T.Error) (List Bytes) :=
  if config.maxPendingControl ≤ outbox.length then .error .controlLimit
  else match message.encode with
    | .error e => .error e
    | .ok encoded =>
      if config.maxControlBytes < encoded.length then .error .controlLimit
      else .ok (outbox ++ [encoded])

/-- The connection takes messages from the front of the outbox until it refuses one. -/
def flushControl (connection : NtpConnection σ) :
    List Bytes → σ → Except (BindingError ε) Unit × List Bytes × σ
  | [], s => (.ok (), [], s)
  | message :: outbox, s =>
    match connection.sendControl s message with
    | (.ok (), s) => flushControl connection outbox s
    | (.error e, s) =>
      if e.kind = .wouldBlock then (.ok (), message :: outbox, s)
      else (.error (.transport e), message :: outbox, s)

def receiveControl (connection : NtpConnection σ) (config : BindingConfig) (s : σ) :
    Except (BindingError T.Error) (Option (ControlMessage T)) × σ :=
  match connection.receiveControl s with
  | (.ok (some bytes), s) =>
    if bytes.length ≤ config.maxControlBytes then
      match ControlMessage.decode bytes with
      | .error e => (.error e, s)
      | .ok message => (.ok (some message), s)
    else (.error .controlLimit, s)
  | (.ok none, s) => (.ok none, s)
  | (.error e, s) => if e.kind = .wouldBlock then (.ok none, s) else (.error (.transport e), s)

/-- `note_reconfigure` of either end: the accepted times of the last minute, or a refusal, after
which the old times are gone as well. -/
def noteReconfigureTimes (config : BindingConfig) (times : List ℕ) (now : ℕ) :
    Except (BindingError ε) Unit × List ℕ :=
  -- `checked_sub` of a clock that starts at zero.
  let cutoff := if 60*1000000000 ≤ now then now-60*1000000000 else now
  let times := times.dropWhile fun timestamp => timestamp ≤ cutoff
  if config.maxReconfigurePerMinute.toNat ≤ times.length then (.error .rateLimited, times)
  else (.ok (), times ++ [now])

end Shared

structure ClockSynchronizer where
  pendingPing : Option UInt64 := none
  offset : Option ℤ := none
  uncertainty : Option UInt64 := none
deriving DecidableEq, Repr

namespace ClockSynchronizer

def notePing (clock : ClockSynchronizer) (receiverSendNs : UInt64) : ClockSynchronizer :=
  { clock with pendingPing := some receiverSendNs }

/-- The offset is the difference of two `u64`, which no `i128` subtraction saturates. -/
def notePong {ε : Type} (clock : ClockSynchronizer)
    (receiverSendNs producerSendNs receiverReceiveNs : UInt64) :
    Except (BindingError ε) Unit × ClockSynchronizer :=
  if clock.pendingPing ≠ some receiverSendNs ∨ receiverReceiveNs < receiverSendNs then
    (.error .invalidControl, clock)
  else
    let uncertaintyNs := (receiverReceiveNs.toNat-receiverSendNs.toNat)/2
    let producerAtReceive := saturatingAdd producerSendNs.toNat uncertaintyNs
    (.ok (), {
      pendingPing := none
      offset := some ((producerAtReceive : ℤ)-receiverReceiveNs.toNat)
      uncertainty := some (UInt64.ofNat uncertaintyNs) })

end ClockSynchronizer

end MutsukiLink.Ntp
