import MutsukiLink.NtpTypes
import MutsukiLink.ProtocolTypes
import MutsukiLink.WireCodec

/-! The control messages of the tracking binding and their codec (`ntp-mutsuki-link/control.rs`).
The tracking protocol library is a parameter. -/
namespace MutsukiLink.Ntp
open WireBytes WireCodec

inductive TrackingProfile where
  | partialRig | basic | spatial | full
deriving DecidableEq, Repr

inductive ValueEncoding where
  | i16Normalized
deriving DecidableEq, Repr

inductive QualityEncoding where
  | none | stateAndConfidenceU8
deriving DecidableEq, Repr

def TrackingProfile.code : TrackingProfile → UInt8
  | partialRig => 0
  | basic => 1
  | spatial => 2
  | full => 3

def ValueEncoding.code : ValueEncoding → UInt8
  | i16Normalized => 1

def QualityEncoding.code : QualityEncoding → UInt8
  | none => 0
  | stateAndConfidenceU8 => 1

/-- The session of the tracking protocol, not the one of the Link. -/
abbrev NtpSessionId := FixedBytes 16

structure LayoutProposal (Revisions SignalId : Type) where
  revisions : Revisions
  profile : TrackingProfile
  baseLayoutVersion : UInt16
  extraSignals : List SignalId
  valueEncoding : ValueEncoding
  qualityEncoding : QualityEncoding
  targetFps : UInt16

structure LayoutAccept where
  layoutId : UInt32
  layoutHash : FixedBytes 32
  parameterCount : UInt16
  expectedPayloadLen : UInt32
deriving DecidableEq, Repr

structure LayoutConfirm where
  layoutId : UInt32
  layoutHash : FixedBytes 32
deriving DecidableEq, Repr

/-- What the control messages take from `nana_tracking_protocol`. -/
structure TrackingTypes where
  Error : Type
  Descriptor : Type
  Revisions : Type
  SignalId : Type
  revisions : Descriptor → Revisions
  encodeDescriptor : Descriptor → Except Error Bytes
  decodeDescriptor : Bytes → Except Error Descriptor
  newSignal : UInt16 → Option SignalId
  signalCode : SignalId → UInt16
  maxLayoutSignals : ℕ

/-- The descriptor codec and the numbering of signals are mutually inverse. -/
structure TrackingTypes.CodecLaws (T : TrackingTypes) : Prop where
  decode_descriptor : ∀ descriptor bytes, T.encodeDescriptor descriptor = .ok bytes →
    T.decodeDescriptor bytes = .ok descriptor
  encode_descriptor : ∀ bytes descriptor, T.decodeDescriptor bytes = .ok descriptor →
    T.encodeDescriptor descriptor = .ok bytes
  new_signal : ∀ signal, T.newSignal (T.signalCode signal) = some signal
  signal_code : ∀ code signal, T.newSignal code = some signal → T.signalCode signal = code

structure GeometryTopology where
  schemaRevision : UInt32 := 1
  topologyHash : FixedBytes 32 := .replicate 32 0
  landmarkCount : UInt32 := 0
deriving DecidableEq, Repr

structure ReceiverReport where
  received : UInt64 := 0
  dropped : UInt64 := 0
  stale : UInt64 := 0
  jitterNs : UInt64 := 0
  resultAgeNs : UInt64 := 0
  clockUncertaintyNs : UInt64 := 0
deriving DecidableEq, Repr

structure ProtocolHello where
  minimumVersion : UInt16
  maximumVersion : UInt16
  linkSessionId : SessionId
deriving DecidableEq, Repr

def ProtocolHello.new (linkSessionId : SessionId) : ProtocolHello := ⟨2, 2, linkSessionId⟩

inductive SessionCommand where
  | start | stop | pause | resume
deriving DecidableEq, Repr

def SessionCommand.code : SessionCommand → UInt8
  | start => 1
  | stop => 2
  | pause => 3
  | resume => 4

structure SessionProposal (T : TrackingTypes) where
  descriptor : T.Descriptor
  sessionId : NtpSessionId
  generation : UInt32
  layoutId : UInt32
  layout : LayoutProposal T.Revisions T.SignalId
  topology : GeometryTopology

inductive ControlMessage (T : TrackingTypes) where
  | hello (hello : ProtocolHello)
  | sessionProposal (proposal : SessionProposal T)
  | layoutAccepted (accept : LayoutAccept)
  | layoutConfirmed (confirm : LayoutConfirm)
  | sessionReady (sessionId : NtpSessionId) (generation layoutId : UInt32)
  | command (command : SessionCommand)
  | receiverReport (report : ReceiverReport)
  | ping (receiverSendNs : UInt64)
  | pong (receiverSendNs producerSendNs : UInt64)
  | geometryRequest
  | error (code : UInt16) (reason : String)
  | close (code : UInt16) (reason : String)

def magic : Bytes := [78, 84, 76, 67]
def version : UInt8 := 1
def headerLen : ℕ := 10
def maxReasonBytes : ℕ := 256
def maxControlBytes : ℕ := 64*1024

def ControlMessage.kind {T : TrackingTypes} : ControlMessage T → UInt8
  | .hello _ => 1
  | .sessionProposal _ => 2
  | .layoutAccepted _ => 3
  | .layoutConfirmed _ => 4
  | .sessionReady _ _ _ => 5
  | .command _ => 6
  | .receiverReport _ => 7
  | .ping _ => 8
  | .pong _ _ => 9
  | .geometryRequest => 10
  | .error _ _ => 11
  | .close _ _ => 12

section Write
variable {ε : Type}

/-- `Writer`, without the header that it starts with. -/
abbrev Writer (ε : Type) := Encoder (BindingError ε)

namespace Writer

def u8 (value : UInt8) : Writer ε Unit := Encoder.push [value]
def u16 (value : UInt16) : Writer ε Unit := Encoder.push (beBytes 2 value.toNat)
def u32 (value : UInt32) : Writer ε Unit := Encoder.push (beBytes 4 value.toNat)
def u64 (value : UInt64) : Writer ε Unit := Encoder.push (beBytes 8 value.toNat)
def bytes (value : Bytes) : Writer ε Unit := Encoder.push value

def sizedBytes (value : Bytes) : Writer ε Unit :=
  if 2^32 ≤ value.length then Encoder.fail .controlLimit
  else do
    u32 (UInt32.ofNat value.length)
    bytes value

def string (value : String) : Writer ε Unit :=
  if maxReasonBytes < (utf8 value).length then Encoder.fail .controlLimit
  else do
    u16 (UInt16.ofNat (utf8 value).length)
    bytes (utf8 value)

def signals {T : TrackingTypes} : List T.SignalId → Writer T.Error Unit
  | [] => pure ()
  | signal :: rest => do
    u16 (T.signalCode signal)
    signals rest

def topology (topology : GeometryTopology) : Writer ε Unit := do
  u32 topology.schemaRevision
  bytes topology.topologyHash.bytes
  u32 topology.landmarkCount

def layout {T : TrackingTypes} (layout : LayoutProposal T.Revisions T.SignalId) :
    Writer T.Error Unit := do
  u8 layout.profile.code
  u16 layout.baseLayoutVersion
  u8 layout.valueEncoding.code
  u8 layout.qualityEncoding.code
  u16 layout.targetFps
  if 2^16 ≤ layout.extraSignals.length then Encoder.fail .controlLimit
  else do
    u16 (UInt16.ofNat layout.extraSignals.length)
    signals layout.extraSignals

def descriptor {T : TrackingTypes} (descriptor : T.Descriptor) : Writer T.Error Unit :=
  match T.encodeDescriptor descriptor with
  | .error e => Encoder.fail (.codec e)
  | .ok encoded => sizedBytes encoded

def proposal {T : TrackingTypes} (proposal : SessionProposal T) : Writer T.Error Unit := do
  bytes proposal.sessionId.bytes
  u32 proposal.generation
  u32 proposal.layoutId
  descriptor proposal.descriptor
  layout proposal.layout
  topology proposal.topology

def report (report : ReceiverReport) : Writer ε Unit := do
  u64 report.received
  u64 report.dropped
  u64 report.stale
  u64 report.jitterNs
  u64 report.resultAgeNs
  u64 report.clockUncertaintyNs

def message {T : TrackingTypes} : ControlMessage T → Writer T.Error Unit
  | .hello hello => do
    u16 hello.minimumVersion
    u16 hello.maximumVersion
    bytes hello.linkSessionId.bytes
  | .sessionProposal proposal => Writer.proposal proposal
  | .layoutAccepted accept => do
    u32 accept.layoutId
    bytes accept.layoutHash.bytes
    u16 accept.parameterCount
    u32 accept.expectedPayloadLen
  | .layoutConfirmed confirm => do
    u32 confirm.layoutId
    bytes confirm.layoutHash.bytes
  | .sessionReady sessionId generation layoutId => do
    bytes sessionId.bytes
    u32 generation
    u32 layoutId
  | .command command => u8 command.code
  | .receiverReport report => Writer.report report
  | .ping receiverSendNs => u64 receiverSendNs
  | .pong receiverSendNs producerSendNs => do
    u64 receiverSendNs
    u64 producerSendNs
  | .geometryRequest => pure ()
  | .error code reason => do
    u16 code
    string reason
  | .close code reason => do
    u16 code
    string reason

end Writer

/-- The header, with the length that `finish` writes into it. -/
def header (kind : UInt8) (payloadLen : ℕ) : Bytes :=
  magic ++ ([version] ++ ([kind] ++ beBytes 4 payloadLen))

def ControlMessage.encode {T : TrackingTypes} (message : ControlMessage T) :
    Except (BindingError T.Error) Bytes :=
  match Writer.message message [] with
  | .error e => .error e
  | .ok ((), payload) =>
    if 2^32 ≤ payload.length then .error .controlLimit
    else .ok (header message.kind payload.length ++ payload)

end Write

abbrev Reader (ε : Type) := Decoder (BindingError ε)

namespace Reader
variable {ε : Type} {T : TrackingTypes}

def take (length : ℕ) : Reader ε Bytes := Decoder.take .invalidControl length

def array (n : ℕ) : Reader ε (FixedBytes n) := Decoder.takeArray .invalidControl n

def u8 : Reader ε UInt8 := do
  let bytes ← array 1
  pure (UInt8.ofNat (ofBeBytes bytes.bytes))

def u16 : Reader ε UInt16 := do
  let bytes ← array 2
  pure (UInt16.ofNat (ofBeBytes bytes.bytes))

def u32 : Reader ε UInt32 := do
  let bytes ← array 4
  pure (UInt32.ofNat (ofBeBytes bytes.bytes))

def u64 : Reader ε UInt64 := do
  let bytes ← array 8
  pure (UInt64.ofNat (ofBeBytes bytes.bytes))

def sizedBytes : Reader ε Bytes := do
  let length ← u32
  take length.toNat

def string : Reader ε String := do
  let length ← u16
  if maxReasonBytes < length.toNat then Decoder.fail .controlLimit
  else do
    let value ← take length.toNat
    match String.fromUTF8? ⟨value.toArray⟩ with
    | none => Decoder.fail .invalidControl
    | some value => pure value

def profile : Reader ε TrackingProfile := do
  let value ← u8
  if value = 0 then pure .partialRig
  else if value = 1 then pure .basic
  else if value = 2 then pure .spatial
  else if value = 3 then pure .full
  else Decoder.fail .invalidControl

def valueEncoding : Reader ε ValueEncoding := do
  let value ← u8
  if value = 1 then pure .i16Normalized else Decoder.fail .invalidControl

def qualityEncoding : Reader ε QualityEncoding := do
  let value ← u8
  if value = 0 then pure .none
  else if value = 1 then pure .stateAndConfidenceU8
  else Decoder.fail .invalidControl

def command : Reader ε SessionCommand := do
  let value ← u8
  if value = 1 then pure .start
  else if value = 2 then pure .stop
  else if value = 3 then pure .pause
  else if value = 4 then pure .resume
  else Decoder.fail .invalidControl

def signals : ℕ → Reader T.Error (List T.SignalId)
  | 0 => pure []
  | n+1 => do
    let code ← u16
    match T.newSignal code with
    | none => Decoder.fail .invalidControl
    | some signal => do
      let rest ← signals n
      pure (signal :: rest)

def topology : Reader ε GeometryTopology := do
  let schemaRevision ← u32
  let topologyHash ← array 32
  let landmarkCount ← u32
  pure ⟨schemaRevision, topologyHash, landmarkCount⟩

/-- The revisions of a layout are not on the wire. -/
def layout (maxSignals : ℕ) (revisions : T.Revisions) :
    Reader T.Error (LayoutProposal T.Revisions T.SignalId) := do
  let profile ← profile
  let baseLayoutVersion ← u16
  let valueEncoding ← valueEncoding
  let qualityEncoding ← qualityEncoding
  let targetFps ← u16
  let extraCount ← u16
  if maxSignals < extraCount.toNat then Decoder.fail .invalidControl
  else do
    let extraSignals ← signals extraCount.toNat
    pure ⟨revisions, profile, baseLayoutVersion, extraSignals, valueEncoding, qualityEncoding,
      targetFps⟩

def descriptor : Reader T.Error T.Descriptor := do
  let encoded ← sizedBytes
  match T.decodeDescriptor encoded with
  | .error e => Decoder.fail (.codec e)
  | .ok descriptor => pure descriptor

/-- The layout takes the revisions of the descriptor. -/
def proposal (maxSignals : ℕ) : Reader T.Error (SessionProposal T) := do
  let sessionId ← array 16
  let generation ← u32
  let layoutId ← u32
  let descriptor ← descriptor
  let layout ← layout maxSignals (T.revisions descriptor)
  let topology ← topology
  pure ⟨descriptor, sessionId, generation, layoutId, layout, topology⟩

def hello : Reader ε ProtocolHello := do
  let minimumVersion ← u16
  let maximumVersion ← u16
  let linkSessionId ← array 16
  pure ⟨minimumVersion, maximumVersion, OpaqueId.fromBytes linkSessionId⟩

def layoutAccept : Reader ε LayoutAccept := do
  let layoutId ← u32
  let layoutHash ← array 32
  let parameterCount ← u16
  let expectedPayloadLen ← u32
  pure ⟨layoutId, layoutHash, parameterCount, expectedPayloadLen⟩

def layoutConfirm : Reader ε LayoutConfirm := do
  let layoutId ← u32
  let layoutHash ← array 32
  pure ⟨layoutId, layoutHash⟩

def sessionReady : Reader ε (NtpSessionId × UInt32 × UInt32) := do
  let sessionId ← array 16
  let generation ← u32
  let layoutId ← u32
  pure (sessionId, generation, layoutId)

def report : Reader ε ReceiverReport := do
  let received ← u64
  let dropped ← u64
  let stale ← u64
  let jitterNs ← u64
  let resultAgeNs ← u64
  let clockUncertaintyNs ← u64
  pure ⟨received, dropped, stale, jitterNs, resultAgeNs, clockUncertaintyNs⟩

def pong : Reader ε (UInt64 × UInt64) := do
  let receiverSendNs ← u64
  let producerSendNs ← u64
  pure (receiverSendNs, producerSendNs)

/-- The code and the reason of an error or a close message. -/
def reason : Reader ε (UInt16 × String) := do
  let code ← u16
  let reason ← string
  pure (code, reason)

def message (maxSignals : ℕ) (kind : UInt8) : Reader T.Error (ControlMessage T) :=
  if kind = 1 then do
    let hello ← hello
    pure (.hello hello)
  else if kind = 2 then do
    let proposal ← proposal maxSignals
    pure (.sessionProposal proposal)
  else if kind = 3 then do
    let accept ← layoutAccept
    pure (.layoutAccepted accept)
  else if kind = 4 then do
    let confirm ← layoutConfirm
    pure (.layoutConfirmed confirm)
  else if kind = 5 then do
    let ready ← sessionReady
    pure (.sessionReady ready.1 ready.2.1 ready.2.2)
  else if kind = 6 then do
    let command ← command
    pure (.command command)
  else if kind = 7 then do
    let report ← report
    pure (.receiverReport report)
  else if kind = 8 then do
    let receiverSendNs ← u64
    pure (.ping receiverSendNs)
  else if kind = 9 then do
    let pong ← pong
    pure (.pong pong.1 pong.2)
  else if kind = 10 then pure .geometryRequest
  else if kind = 11 then do
    let reason ← reason
    pure (.error reason.1 reason.2)
  else if kind = 12 then do
    let reason ← reason
    pure (.close reason.1 reason.2)
  else Decoder.fail .invalidControl

end Reader

/-- `Reader::framed`, the body and `Reader::finish`. -/
def decodeWithin {T : TrackingTypes} (maxSignals : ℕ) (bytes : Bytes) :
    Except (BindingError T.Error) (ControlMessage T) :=
  if bytes.length < headerLen ∨ maxControlBytes < bytes.length ∨ bytes.take 4 ≠ magic ∨
      bytes.getD 4 0 ≠ version then
    .error .invalidControl
  else if ofBeBytes ((bytes.drop 6).take 4) ≠ bytes.length-headerLen then .error .invalidControl
  else match Reader.message maxSignals (bytes.getD 5 0) (.new (bytes.drop headerLen)) with
    | (.error e, _) => .error e
    | (.ok message, reader) =>
      if reader.position = reader.bytes.length then .ok message else .error .invalidControl

def ControlMessage.decode {T : TrackingTypes} (bytes : Bytes) :
    Except (BindingError T.Error) (ControlMessage T) :=
  decodeWithin T.maxLayoutSignals bytes

end MutsukiLink.Ntp
