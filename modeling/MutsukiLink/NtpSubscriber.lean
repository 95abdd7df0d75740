import MutsukiLink.NtpConnection

/-! The control side of the subscriber (`ntp-mutsuki-link/lib.rs`). What only `poll_realtime` reads
is left out. -/
namespace MutsukiLink.Ntp
open WireBytes

inductive SubscriberEvent where
  | helloAccepted
  | proposalAccepted
  | sessionReady
  | clockSynchronized
  | remoteError (code : UInt16)
  | remoteClosed (code : UInt16)
deriving DecidableEq, Repr

structure SubscriberSession (P : TrackingProtocol) where
  descriptor : P.Descriptor
  sessionId : NtpSessionId
  generation : UInt32
  layout : P.ActiveLayout
  topology : GeometryTopology
  compactGuard : P.CompactStreamGuard
  resultGuard : P.ResultStreamGuard

structure GeometryCache (P : TrackingProtocol) where
  sessionId : NtpSessionId
  generation : UInt32
  sequence : UInt64
  landmarks : List P.Landmark

structure Subscriber (P : TrackingProtocol) where
  authorization : NtpAuthorization
  transportMode : TrackingTransportMode
  config : BindingConfig
  remoteHello : Bool
  negotiator : P.LayoutNegotiator
  pending : Option (SessionProposal P.toTrackingTypes)
  active : Option (SubscriberSession P)
  outbox : List Bytes
  coreReassembly : Reassembler
  geometryReassembly : Reassembler
  geometryCache : Option (GeometryCache P)
  report : ReceiverReport
  previousAgeNs : Option UInt64
  clock : ClockSynchronizer
  reconfigureTimes : List ℕ
  rateLimited : ℕ

namespace Subscriber
variable {σ : Type} {P : TrackingProtocol}

def new (connection : NtpConnection σ) (s : σ) (metadata : ConnectionMetadata)
    (authorization : NtpAuthorization) (config : BindingConfig) :
    Except P.Failure (Subscriber P) :=
  match config.validate with
  | .error e => .error e
  | .ok config =>
    match validateConnectionAuthorization metadata authorization .subscriber with
    | .error e => .error e
    | .ok () =>
      if !metadata.reliable then .error .invalidState
      else match P.newNegotiator with
        | .error e => .error (.handshake e)
        | .ok negotiator => .ok {
          authorization, config, negotiator, transportMode := Ntp.transportMode connection s
          remoteHello := false, pending := none, active := none, outbox := []
          coreReassembly := .new, geometryReassembly := .new, geometryCache := none
          report := {}, previousAgeNs := none, clock := {}, reconfigureTimes := []
          rateLimited := 0 }

def queue (c : Subscriber P) (message : P.Message) : Except P.Failure Unit × Subscriber P :=
  match queueControl c.outbox message c.config with
  | .error e => (.error e, c)
  | .ok outbox => (.ok (), { c with outbox })

def flush (connection : NtpConnection σ) (c : Subscriber P) (s : σ) :
    Except P.Failure Unit × Subscriber P × σ :=
  match flushControl connection c.outbox s with
  | (result, outbox, s) => (result, { c with outbox }, s)

/-- `queue_control` and then `flush_control`, the end of every sending call. -/
def send (connection : NtpConnection σ) (c : Subscriber P) (s : σ) (message : P.Message) :
    Except P.Failure Unit × Subscriber P × σ :=
  match c.queue message with
  | (.error e, c) => (.error e, c, s)
  | (.ok (), c) => c.flush connection s

def trySendHello (connection : NtpConnection σ) (c : Subscriber P) (s : σ) :
    Except P.Failure Unit × Subscriber P × σ :=
  c.send connection s (.hello (.new c.authorization.linkSessionId))

def trySendCommand (connection : NtpConnection σ) (c : Subscriber P) (s : σ)
    (command : SessionCommand) : Except P.Failure Unit × Subscriber P × σ :=
  if c.active.isNone then (.error .invalidState, c, s)
  else c.send connection s (.command command)

def tryRequestGeometry (connection : NtpConnection σ) (c : Subscriber P) (s : σ) :
    Except P.Failure Unit × Subscriber P × σ :=
  if c.active.isNone then (.error .invalidState, c, s)
  else c.send connection s .geometryRequest

def trySendPing (connection : NtpConnection σ) (c : Subscriber P) (s : σ)
    (receiverNowNs : UInt64) : Except P.Failure Unit × Subscriber P × σ :=
  -- The clock waits for the answer even when the ping is not sent.
  { c with clock := c.clock.notePing receiverNowNs }.send connection s (.ping receiverNowNs)

def trySendReceiverReport (connection : NtpConnection σ) (c : Subscriber P) (s : σ) :
    Except P.Failure Unit × Subscriber P × σ :=
  c.send connection s (.receiverReport c.report)

def noteReconfigure (c : Subscriber P) (now : ℕ) : Except P.Failure Unit × Subscriber P :=
  match noteReconfigureTimes c.config c.reconfigureTimes now with
  | (.error e, reconfigureTimes) =>
    (.error e, { c with reconfigureTimes, rateLimited := saturatingAdd c.rateLimited 1 })
  | (.ok (), reconfigureTimes) => (.ok (), { c with reconfigureTimes })

/-- A proposal over an active session counts as a reconfiguration. -/
def noteIfActive (c : Subscriber P) (now : ℕ) : Except P.Failure Unit × Subscriber P :=
  if c.active.isSome then c.noteReconfigure now else (.ok (), c)

/-- A proposal becomes pending when its layout is accepted and the answer is queued. -/
def receiveProposal (c : Subscriber P) (proposal : SessionProposal P.toTrackingTypes)
    (receiverNowNs : UInt64) (now : ℕ) : Except P.Failure SubscriberEvent × Subscriber P :=
  if !c.remoteHello || c.pending.isSome then (.error .invalidState, c)
  else match c.noteIfActive now with
    | (.error e, c) => (.error e, c)
    | (.ok (), c) =>
      if c.active.any fun active =>
          active.sessionId = proposal.sessionId && proposal.generation ≤ active.generation then
        (.error .invalidState, c)
      -- From here on the recorded time and the negotiator keep what a refusal leaves.
      else match P.receiveProposal c.negotiator proposal.layoutId proposal.layout
          proposal.descriptor receiverNowNs with
        | (.error e, negotiator) => (.error (.handshake e), { c with negotiator })
        | (.ok accept, negotiator) =>
          match { c with negotiator }.queue (.layoutAccepted accept) with
          | (.error e, c) => (.error e, c)
          | (.ok (), c) => (.ok .proposalAccepted, { c with pending := some proposal })

/-- The session of a confirmed proposal. -/
def confirmedSession (proposal : SessionProposal P.toTrackingTypes) (layout : P.ActiveLayout)
    (compactGuard : P.CompactStreamGuard) : SubscriberSession P where
  descriptor := proposal.descriptor
  sessionId := proposal.sessionId
  generation := proposal.generation
  layout := layout
  topology := proposal.topology
  compactGuard := compactGuard
  resultGuard := P.newResultGuard proposal.sessionId proposal.generation

/-- A confirmation takes the pending proposal, also when it is refused. -/
def receiveConfirm (c : Subscriber P) (confirm : LayoutConfirm) :
    Except P.Failure SubscriberEvent × Subscriber P :=
  match c.pending with
  | none => (.error .invalidState, c)
  | some proposal =>
    let c := { c with pending := none }
    match P.confirm c.negotiator confirm with
    | (.error e, negotiator) => (.error (.handshake e), { c with negotiator })
    | (.ok layout, negotiator) =>
      let c := { c with negotiator }
      match P.confirmedGuard proposal.sessionId proposal.generation layout confirm with
      | .error e => (.error (.compactStream e), c)
      | .ok compactGuard =>
        let c := { c with
          active := some (confirmedSession proposal layout compactGuard)
          coreReassembly := c.coreReassembly.clear
          geometryReassembly := c.geometryReassembly.clear
          geometryCache := none
          previousAgeNs := none }
        -- The session is active by now, whether or not the message finds room.
        match c.queue (.sessionReady proposal.sessionId proposal.generation proposal.layoutId) with
        | (.error e, c) => (.error e, c)
        | (.ok (), c) => (.ok .sessionReady, c)

def receivePong (c : Subscriber P) (receiverSendNs producerSendNs receiverNowNs : UInt64) :
    Except P.Failure SubscriberEvent × Subscriber P :=
  match c.clock.notePong receiverSendNs producerSendNs receiverNowNs with
  | (.error e, clock) => (.error e, { c with clock })
  | (.ok (), clock) => (.ok .clockSynchronized, { c with
      clock
      report := { c.report with clockUncertaintyNs := clock.uncertainty.getD 0 } })

/-- The `match` of `poll_control`. -/
def handle (c : Subscriber P) (receiverNowNs : UInt64) (now : ℕ) :
    P.Message → Except P.Failure SubscriberEvent × Subscriber P
  | .hello hello =>
    match validateHello hello c.authorization.linkSessionId with
    | .error e => (.error e, c)
    | .ok () => (.ok .helloAccepted, { c with remoteHello := true })
  | .sessionProposal proposal => c.receiveProposal proposal receiverNowNs now
  | .layoutConfirmed confirm => c.receiveConfirm confirm
  | .pong receiverSendNs producerSendNs =>
    c.receivePong receiverSendNs producerSendNs receiverNowNs
  | .error code _ => (.ok (.remoteError code), c)
  | .close code _ => (.ok (.remoteClosed code), c)
  | _ => (.error .invalidControl, c)

def pollControl (connection : NtpConnection σ) (c : Subscriber P) (s : σ)
    (receiverNowNs : UInt64) (now : ℕ) :
    Except P.Failure (Option SubscriberEvent) × Subscriber P × σ :=
  match c.flush connection s with
  | (.error e, c, s) => (.error e, c, s)
  | (.ok (), c, s) =>
    match receiveControl connection c.config s with
    | (.error e, s) => (.error e, c, s)
    | (.ok none, s) => (.ok none, c, s)
    | (.ok (some message), s) =>
      match c.handle receiverNowNs now message with
      -- The message is gone from the connection, also when it is refused.
      | (.error e, c) => (.error e, c, s)
      | (.ok event, c) =>
        match c.flush connection s with
        | (.error e, c, s) => (.error e, c, s)
        | (.ok (), c, s) => (.ok (some event), c, s)

end Subscriber

end MutsukiLink.Ntp
