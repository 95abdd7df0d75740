import MutsukiLink.MuxModel
import MutsukiLink.WireCodec

/-! The typed control envelope and its codec (`control.rs`). The writer and the reader keep the
method names of the source; `usize` additions do not overflow on natural numbers. -/
namespace MutsukiLink
open WireBytes WireCodec
open Std (ExtTreeSet)

def maxControlPayloadBytes : ℕ := 64*1024
def maxControlProtocols : ℕ := 32
def maxControlDebugComponentBytes : ℕ := 128
def typedControlWireVersion : UInt16 := 1
def controlMagic : Bytes := [77, 76, 67, 84]
def controlHeaderBytes : ℕ := 39
def controlPayloadLengthOffset : ℕ := controlHeaderBytes-4

inductive LinkControlOpcode where
  | hello | protocolOffer | protocolSelect | openChannel | channelAccepted | closeChannel
  | ping | pong | beginDrain | closeSession | error
deriving DecidableEq, Repr

inductive ErrorDomain where
  | control | protocol | channel | security | resource
deriving DecidableEq, Repr

inductive Retryability where
  | never | retryAfterBackoff | reconnect
deriving DecidableEq, Repr

structure LinkControlError where
  domain : ErrorDomain
  code : UInt16
  operation : Option LinkControlOpcode
  retryability : Retryability
  publicMessage : String
deriving DecidableEq, Repr

namespace LinkControlError

def malformed (code : UInt16) (message : String) : LinkControlError :=
  { domain := .control, code, operation := none, retryability := .never, publicMessage := message }

def unknownOpcode : LinkControlError := malformed 1 "unknown Link control opcode"
def modeMismatch : LinkControlError :=
  malformed 2 "control identity mode does not match negotiated session"
def unsupportedVersion : LinkControlError := malformed 3 "unsupported typed control wire version"
def truncated : LinkControlError := malformed 4 "truncated typed control frame"
def limitExceeded : LinkControlError := malformed 5 "typed control frame exceeds a resource limit"
def invalidPayload : LinkControlError := malformed 6 "invalid typed control payload"
def opcodeMismatch : LinkControlError := malformed 7 "typed control opcode does not match payload"
def trailingBytes : LinkControlError := malformed 8 "typed control frame contains trailing bytes"

end LinkControlError

namespace LinkControlOpcode

/-- The discriminant, `opcode as u16`. -/
def toWire : LinkControlOpcode → UInt16
  | .hello => 0x0001
  | .protocolOffer => 0x0002
  | .protocolSelect => 0x0003
  | .openChannel => 0x0010
  | .channelAccepted => 0x0011
  | .closeChannel => 0x0012
  | .ping => 0x0020
  | .pong => 0x0021
  | .beginDrain => 0x0022
  | .closeSession => 0x0023
  | .error => 0x00ff

def tryFrom (value : UInt16) : Except LinkControlError LinkControlOpcode :=
  if value = 0x0001 then .ok .hello
  else if value = 0x0002 then .ok .protocolOffer
  else if value = 0x0003 then .ok .protocolSelect
  else if value = 0x0010 then .ok .openChannel
  else if value = 0x0011 then .ok .channelAccepted
  else if value = 0x0012 then .ok .closeChannel
  else if value = 0x0020 then .ok .ping
  else if value = 0x0021 then .ok .pong
  else if value = 0x0022 then .ok .beginDrain
  else if value = 0x0023 then .ok .closeSession
  else if value = 0x00ff then .ok .error
  else .error .unknownOpcode

end LinkControlOpcode

/-- Only the response bit is known; the field is private in the source, so no other value exists. -/
structure ControlFlags where
  bits : UInt16
  known : bits &&& ~~~1 = 0
deriving DecidableEq, Repr

def ControlFlags.fromBits (bits : UInt16) : Option ControlFlags :=
  if h : bits &&& ~~~1 = 0 then some ⟨bits, h⟩ else none

structure HelloControl where
  identity : Identity
  linkVersions : VersionRange
  linkCapabilities : LinkCapabilities
  requestedAuth : AuthPath
deriving DecidableEq, Repr

structure OpenChannel where
  protocolId : ProtocolStableId
  protocolChannelId : ProtocolChannelId
  requestedSessionChannelId : ChannelId
  capacity : UInt32
deriving DecidableEq, Repr

structure AcceptChannel where
  protocolId : ProtocolStableId
  protocolChannelId : ProtocolChannelId
  sessionChannelId : ChannelId
deriving DecidableEq, Repr

inductive ControlPayload where
  | hello (hello : HelloControl)
  | offerProtocols (offers : List ProtocolOffer)
  | selectProtocols (selections : List ProtocolSelection)
  | openChannel (request : OpenChannel)
  | acceptChannel (accepted : AcceptChannel)
  | closeChannel (sessionChannelId : ChannelId)
  | ping (nonce : UInt64)
  | pong (nonce : UInt64)
  | beginDrain (deadlineMillis : UInt32)
  | closeSession (reasonCode : UInt16)
  | error (error : LinkControlError)
deriving DecidableEq, Repr

def ControlPayload.opcode : ControlPayload → LinkControlOpcode
  | .hello _ => .hello
  | .offerProtocols _ => .protocolOffer
  | .selectProtocols _ => .protocolSelect
  | .openChannel _ => .openChannel
  | .acceptChannel _ => .channelAccepted
  | .closeChannel _ => .closeChannel
  | .ping _ => .ping
  | .pong _ => .pong
  | .beginDrain _ => .beginDrain
  | .closeSession _ => .closeSession
  | .error _ => .error

structure ControlEnvelope where
  wireVersion : UInt16
  opcode : LinkControlOpcode
  requestId : UInt64
  sessionId : Option SessionId
  flags : ControlFlags
  payload : ControlPayload
deriving DecidableEq, Repr

structure ControlModeGuard where
  mode : ControlIdentityMode
deriving DecidableEq, Repr

def ControlModeGuard.validateTyped (guard : ControlModeGuard) : Except LinkControlError Unit :=
  if guard.mode = .typedV1 then .ok () else .error .modeMismatch

def authPathToWire : AuthPath → UInt8
  | .firstPairing => 0
  | .trustedReconnect => 1

def errorDomainToWire : ErrorDomain → UInt8
  | .control => 0
  | .protocol => 1
  | .channel => 2
  | .security => 3
  | .resource => 4

def retryabilityToWire : Retryability → UInt8
  | .never => 0
  | .retryAfterBackoff => 1
  | .reconnect => 2

/-- `u16::MAX` stands for no operation. -/
def operationToWire (operation : Option LinkControlOpcode) : UInt16 :=
  (operation.map LinkControlOpcode.toWire).getD 0xffff

abbrev ControlWriter := Encoder LinkControlError Unit

namespace ControlWriter

def bytes (out : Bytes) : ControlWriter := Encoder.push out
def u8 (value : UInt8) : ControlWriter := Encoder.push [value]
def u16 (value : UInt16) : ControlWriter := Encoder.push (beBytes 2 value.toNat)
def u32 (value : UInt32) : ControlWriter := Encoder.push (beBytes 4 value.toNat)
def u64 (value : UInt64) : ControlWriter := Encoder.push (beBytes 8 value.toNat)

def count (value maximum : ℕ) : ControlWriter :=
  if maximum < value ∨ 255 < value then Encoder.fail .limitExceeded else u8 (UInt8.ofNat value)

def version (version : ProtocolVersion) : ControlWriter := do
  u16 version.major
  u16 version.minor

def versionRange (versions : VersionRange) : ControlWriter := do
  version versions.minimum
  version versions.maximum

def protocolId (id : ProtocolStableId) : ControlWriter := bytes id.bytes

def schema (schema : SchemaRef) : ControlWriter := do
  bytes schema.id.bytes
  u32 schema.revision
  bytes schema.fingerprint.bytes

def words : List UInt64 → ControlWriter
  | [] => pure ()
  | word :: rest => do
    u64 word
    words rest

def capabilities (capabilities : ProtocolCapabilitySet) : ControlWriter := do
  protocolId capabilities.protocolId
  count capabilities.words.length maxProtocolCapabilityWords
  words capabilities.words

def string (value : String) : ControlWriter :=
  if utf8 value = [] ∨ maxControlDebugComponentBytes < (utf8 value).length then
    Encoder.fail .limitExceeded
  else do
    u16 (UInt16.ofNat (utf8 value).length)
    bytes (utf8 value)

def debugIdentity : Option ProtocolDebugIdentity → ControlWriter
  | none => u8 0
  | some identity =>
    if !identity.isCanonical then Encoder.fail .invalidPayload
    else do
      u8 1
      string identity.authority
      string identity.name

/-- The fields of one offer, in the body of the loop. -/
def offer (offer : ProtocolOffer) : ControlWriter := do
  protocolId offer.stableId
  debugIdentity offer.debugIdentity
  versionRange offer.versions
  schema offer.schema
  capabilities offer.capabilities

def selection (selection : ProtocolSelection) : ControlWriter := do
  protocolId selection.stableId
  version selection.version
  schema selection.schema
  capabilities selection.capabilities

end ControlWriter

section Encode
variable (derive : String → String → ProtocolStableId)

/-- A debug identity is canonical and derives the identifier it is sent with. -/
def matchesDebugIdentity (stableId : ProtocolStableId) (debug : Option ProtocolDebugIdentity) :
    Bool :=
  !(debug.any fun identity => !identity.isCanonical || identity.stableId derive != stableId)

/-- The loop over offers or selections, with the identifiers written so far. -/
def encodeDistinct {α : Type} (item : α → ControlWriter) (key : α → ProtocolStableId)
    (consistent : α → Bool) : ExtTreeSet ProtocolStableId → List α → ControlWriter
  | _, [] => pure ()
  | stableIds, a :: rest =>
    if stableIds.contains (key a) ∨ !consistent a then Encoder.fail .invalidPayload
    else do
      item a
      encodeDistinct item key consistent (stableIds.insert (key a)) rest

def encodeOffers (offers : List ProtocolOffer) : ControlWriter := do
  ControlWriter.count offers.length maxControlProtocols
  encodeDistinct ControlWriter.offer ProtocolOffer.stableId (fun offer =>
    offer.versions.isValid && offer.schema.revision != 0 &&
      offer.capabilities.protocolId == offer.stableId &&
      matchesDebugIdentity derive offer.stableId offer.debugIdentity) ∅ offers

def encodeSelections (selections : List ProtocolSelection) : ControlWriter := do
  ControlWriter.count selections.length maxControlProtocols
  encodeDistinct ControlWriter.selection ProtocolSelection.stableId (fun selection =>
    selection.schema.revision != 0 && selection.capabilities.protocolId == selection.stableId)
    ∅ selections

def encodePayload : ControlPayload → ControlWriter
  | .hello hello =>
    if !hello.linkVersions.isValid then Encoder.fail .invalidPayload
    else do
      ControlWriter.bytes hello.identity.peerId.bytes
      ControlWriter.bytes hello.identity.endpointId.bytes
      ControlWriter.bytes hello.identity.connectionId.bytes
      ControlWriter.versionRange hello.linkVersions
      ControlWriter.u64 hello.linkCapabilities.bits
      ControlWriter.u8 (authPathToWire hello.requestedAuth)
  | .offerProtocols offers => encodeOffers derive offers
  | .selectProtocols selections => encodeSelections selections
  | .openChannel request =>
    if request.protocolChannelId.val = 0 ∨ request.requestedSessionChannelId.val = 0 ∨
        request.capacity = 0 then Encoder.fail .invalidPayload
    else do
      ControlWriter.protocolId request.protocolId
      ControlWriter.u16 request.protocolChannelId.val
      ControlWriter.u32 request.requestedSessionChannelId.val
      ControlWriter.u32 request.capacity
  | .acceptChannel accepted =>
    if accepted.protocolChannelId.val = 0 ∨ accepted.sessionChannelId.val = 0 then
      Encoder.fail .invalidPayload
    else do
      ControlWriter.protocolId accepted.protocolId
      ControlWriter.u16 accepted.protocolChannelId.val
      ControlWriter.u32 accepted.sessionChannelId.val
  | .closeChannel sessionChannelId =>
    if sessionChannelId.val = 0 then Encoder.fail .invalidPayload
    else ControlWriter.u32 sessionChannelId.val
  | .ping nonce => ControlWriter.u64 nonce
  | .pong nonce => ControlWriter.u64 nonce
  | .beginDrain deadlineMillis => ControlWriter.u32 deadlineMillis
  | .closeSession reasonCode => ControlWriter.u16 reasonCode
  | .error error => do
    ControlWriter.u8 (errorDomainToWire error.domain)
    ControlWriter.u16 error.code
    ControlWriter.u16 (operationToWire error.operation)
    ControlWriter.u8 (retryabilityToWire error.retryability)

/-- The header as it is first written, with a length of zero. -/
def controlHeader (envelope : ControlEnvelope) : Bytes :=
  controlMagic ++ beBytes 2 envelope.wireVersion.toNat ++ beBytes 2 envelope.opcode.toWire.toNat ++
    beBytes 2 envelope.flags.bits.toNat ++ beBytes 8 envelope.requestId.toNat ++
    (match envelope.sessionId with
      | some sessionId => 1 :: sessionId.bytes
      | none => 0 :: List.replicate 16 0) ++
    beBytes 4 0

/-- `bytes[offset..offset + patch.len()].copy_from_slice(patch)`. -/
def copyAt (bytes : Bytes) (offset : ℕ) (patch : Bytes) : Bytes :=
  bytes.take offset ++ patch ++ bytes.drop (offset+patch.length)

def encodeControlEnvelope (guard : ControlModeGuard) (envelope : ControlEnvelope) :
    Except LinkControlError Bytes :=
  match guard.validateTyped with
  | .error e => .error e
  | .ok () =>
    if envelope.wireVersion ≠ typedControlWireVersion then .error .unsupportedVersion
    else if envelope.opcode ≠ envelope.payload.opcode then .error .opcodeMismatch
    else match encodePayload derive envelope.payload (controlHeader envelope) with
      | .error e => .error e
      | .ok (_, wire) =>
        let payloadLen := wire.length-controlHeaderBytes
        if maxControlPayloadBytes < payloadLen then .error .limitExceeded
        else .ok (copyAt wire controlPayloadLengthOffset (beBytes 4 payloadLen))

end Encode

abbrev ControlReader := Decoder LinkControlError

namespace ControlReader

def take (len : ℕ) : ControlReader Bytes := Decoder.take .truncated len

def takeArray (n : ℕ) : ControlReader (FixedBytes n) := Decoder.takeArray .truncated n

def u8 : ControlReader UInt8 := do
  let array ← takeArray 1
  pure (UInt8.ofNat (ofBeBytes array.bytes))

def u16 : ControlReader UInt16 := do
  let array ← takeArray 2
  pure (UInt16.ofNat (ofBeBytes array.bytes))

def u32 : ControlReader UInt32 := do
  let array ← takeArray 4
  pure (UInt32.ofNat (ofBeBytes array.bytes))

def u64 : ControlReader UInt64 := do
  let array ← takeArray 8
  pure (UInt64.ofNat (ofBeBytes array.bytes))

def boundedCount (maximum : ℕ) : ControlReader ℕ := do
  let count ← u8
  if maximum < count.toNat then Decoder.fail .limitExceeded else pure count.toNat

def version : ControlReader ProtocolVersion := do
  let major ← u16
  let minor ← u16
  pure ⟨major, minor⟩

def versionRange : ControlReader VersionRange := do
  let minimum ← version
  let maximum ← version
  if !(VersionRange.mk minimum maximum).isValid then Decoder.fail .invalidPayload
  else pure ⟨minimum, maximum⟩

def opaqueId (kind : OpaqueKind) (size : ℕ) : ControlReader (OpaqueId kind size) := do
  let array ← takeArray size
  pure (OpaqueId.fromBytes array)

def protocolId : ControlReader ProtocolStableId := opaqueId _ _

def schema : ControlReader SchemaRef := do
  let id ← opaqueId .schema 16
  let revision ← u32
  let fingerprint ← opaqueId .fingerprint 32
  if revision = 0 then Decoder.fail .invalidPayload else pure ⟨id, revision, fingerprint⟩

def words : ℕ → ControlReader (List UInt64)
  | 0 => pure []
  | n+1 => do
    let word ← u64
    let rest ← words n
    pure (word :: rest)

def capabilities : ControlReader ProtocolCapabilitySet := do
  let id ← protocolId
  let count ← boundedCount maxProtocolCapabilityWords
  let words ← words count
  pure ⟨id, words⟩

def string : ControlReader String := do
  let len ← u16
  if len.toNat = 0 ∨ maxControlDebugComponentBytes < len.toNat then Decoder.fail .limitExceeded
  else do
    let value ← take len.toNat
    match String.fromUTF8? ⟨value.toArray⟩ with
    | none => Decoder.fail .invalidPayload
    | some value => pure value

def debugIdentity : ControlReader (Option ProtocolDebugIdentity) := do
  let present ← u8
  if present = 0 then pure none
  else if present = 1 then do
    let authority ← string
    let name ← string
    pure (some ⟨authority, name⟩)
  else Decoder.fail .invalidPayload

/-- The fields of one offer, in the body of the loop. -/
def offer : ControlReader ProtocolOffer := do
  let stableId ← protocolId
  let debugIdentity ← debugIdentity
  let versions ← versionRange
  let schema ← schema
  let capabilities ← capabilities
  pure ⟨stableId, debugIdentity, versions, schema, capabilities⟩

def selection : ControlReader ProtocolSelection := do
  let stableId ← protocolId
  let version ← version
  let schema ← schema
  let capabilities ← capabilities
  pure ⟨stableId, version, schema, capabilities⟩

def authPath : ControlReader AuthPath := do
  let value ← u8
  if value = 0 then pure .firstPairing
  else if value = 1 then pure .trustedReconnect
  else Decoder.fail .invalidPayload

def errorDomain : ControlReader ErrorDomain := do
  let value ← u8
  if value = 0 then pure .control
  else if value = 1 then pure .protocol
  else if value = 2 then pure .channel
  else if value = 3 then pure .security
  else if value = 4 then pure .resource
  else Decoder.fail .invalidPayload

def retryability : ControlReader Retryability := do
  let value ← u8
  if value = 0 then pure .never
  else if value = 1 then pure .retryAfterBackoff
  else if value = 2 then pure .reconnect
  else Decoder.fail .invalidPayload

def opcode : ControlReader LinkControlOpcode := do
  let value ← u16
  match LinkControlOpcode.tryFrom value with
  | .error e => Decoder.fail e
  | .ok opcode => pure opcode

def operation : ControlReader (Option LinkControlOpcode) := do
  let value ← u16
  if value = 0xffff then pure none
  else match LinkControlOpcode.tryFrom value with
    | .error e => Decoder.fail e
    | .ok opcode => pure (some opcode)

end ControlReader

section Decode
variable (derive : String → String → ProtocolStableId)

/-- The loop over offers or selections, with the identifiers read so far. -/
def decodeDistinct {α : Type} (item : ControlReader α) (key : α → ProtocolStableId)
    (consistent : α → Bool) : ℕ → ExtTreeSet ProtocolStableId → ControlReader (List α)
  | 0, _ => pure []
  | n+1, stableIds => do
    let a ← item
    if stableIds.contains (key a) ∨ !consistent a then Decoder.fail .invalidPayload
    else do
      let rest ← decodeDistinct item key consistent n (stableIds.insert (key a))
      pure (a :: rest)

def decodeOffers : ControlReader (List ProtocolOffer) := do
  let count ← ControlReader.boundedCount maxControlProtocols
  decodeDistinct ControlReader.offer ProtocolOffer.stableId (fun offer =>
    offer.capabilities.protocolId == offer.stableId &&
      matchesDebugIdentity derive offer.stableId offer.debugIdentity) count ∅

def decodeSelections : ControlReader (List ProtocolSelection) := do
  let count ← ControlReader.boundedCount maxControlProtocols
  decodeDistinct ControlReader.selection ProtocolSelection.stableId (fun selection =>
    selection.capabilities.protocolId == selection.stableId) count ∅

def remoteErrorMessage : String := "remote returned a structured control error"

namespace ControlReader

def hello : ControlReader HelloControl := do
  let peerId ← opaqueId .peer 32
  let endpointId ← opaqueId .endpoint 16
  let connectionId ← opaqueId .connection 16
  let linkVersions ← versionRange
  let linkCapabilities ← u64
  let requestedAuth ← authPath
  pure ⟨⟨peerId, endpointId, connectionId⟩, linkVersions, ⟨linkCapabilities⟩, requestedAuth⟩

def openChannel : ControlReader OpenChannel := do
  let protocolId ← protocolId
  let protocolChannelId ← u16
  let requestedSessionChannelId ← u32
  let capacity ← u32
  if protocolChannelId = 0 ∨ requestedSessionChannelId = 0 ∨ capacity = 0 then
    Decoder.fail .invalidPayload
  else pure ⟨protocolId, ⟨protocolChannelId⟩, ⟨requestedSessionChannelId⟩, capacity⟩

def acceptChannel : ControlReader AcceptChannel := do
  let protocolId ← protocolId
  let protocolChannelId ← u16
  let sessionChannelId ← u32
  if protocolChannelId = 0 ∨ sessionChannelId = 0 then Decoder.fail .invalidPayload
  else pure ⟨protocolId, ⟨protocolChannelId⟩, ⟨sessionChannelId⟩⟩

def closeChannel : ControlReader ChannelId := do
  let sessionChannelId ← u32
  if sessionChannelId = 0 then Decoder.fail .invalidPayload else pure ⟨sessionChannelId⟩

/-- The public message of a remote error is never taken from the wire. -/
def error : ControlReader LinkControlError := do
  let domain ← errorDomain
  let code ← u16
  let operation ← operation
  let retryability ← retryability
  pure ⟨domain, code, operation, retryability, remoteErrorMessage⟩

end ControlReader

def decodePayload : LinkControlOpcode → ControlReader ControlPayload
  | .hello => do
    let hello ← ControlReader.hello
    pure (.hello hello)
  | .protocolOffer => do
    let offers ← decodeOffers derive
    pure (.offerProtocols offers)
  | .protocolSelect => do
    let selections ← decodeSelections
    pure (.selectProtocols selections)
  | .openChannel => do
    let request ← ControlReader.openChannel
    pure (.openChannel request)
  | .channelAccepted => do
    let accepted ← ControlReader.acceptChannel
    pure (.acceptChannel accepted)
  | .closeChannel => do
    let sessionChannelId ← ControlReader.closeChannel
    pure (.closeChannel sessionChannelId)
  | .ping => do
    let nonce ← ControlReader.u64
    pure (.ping nonce)
  | .pong => do
    let nonce ← ControlReader.u64
    pure (.pong nonce)
  | .beginDrain => do
    let deadlineMillis ← ControlReader.u32
    pure (.beginDrain deadlineMillis)
  | .closeSession => do
    let reasonCode ← ControlReader.u16
    pure (.closeSession reasonCode)
  | .error => do
    let error ← ControlReader.error
    pure (.error error)

structure ControlHeader where
  wireVersion : UInt16
  opcode : LinkControlOpcode
  flags : ControlFlags
  requestId : UInt64
  sessionId : Option SessionId
  payloadLen : UInt32
deriving DecidableEq, Repr

namespace ControlReader

def magic : ControlReader Unit := do
  let magic ← takeArray 4
  if magic.bytes ≠ controlMagic then Decoder.fail .invalidPayload else pure ()

def wireVersion : ControlReader UInt16 := do
  let wireVersion ← u16
  if wireVersion ≠ typedControlWireVersion then Decoder.fail .unsupportedVersion
  else pure wireVersion

def flags : ControlReader ControlFlags := do
  let bits ← u16
  match ControlFlags.fromBits bits with
  | none => Decoder.fail .invalidPayload
  | some flags => pure flags

/-- An absent session leaves sixteen zero bytes, which are checked. -/
def sessionId : ControlReader (Option SessionId) := do
  let sessionPresent ← u8
  let sessionBytes ← takeArray 16
  if sessionPresent = 0 ∧ sessionBytes = FixedBytes.replicate 16 0 then pure none
  else if sessionPresent = 1 then pure (some ⟨sessionBytes⟩)
  else Decoder.fail .invalidPayload

end ControlReader

/-- The header fields of `decode_control_envelope`, up to and with the payload length. -/
def decodeControlHeader : ControlReader ControlHeader := do
  ControlReader.magic
  let wireVersion ← ControlReader.wireVersion
  let opcode ← ControlReader.opcode
  let flags ← ControlReader.flags
  let requestId ← ControlReader.u64
  let sessionId ← ControlReader.sessionId
  let payloadLen ← ControlReader.u32
  pure ⟨wireVersion, opcode, flags, requestId, sessionId, payloadLen⟩

/-- The checks on the length and the slice that the payload is read from. -/
def takeControlPayload (payloadLen : ℕ) : ControlReader Bytes := fun reader =>
  if maxControlPayloadBytes < payloadLen then (.error .limitExceeded, reader)
  else if reader.remaining < payloadLen then (.error .truncated, reader)
  else if reader.remaining ≠ payloadLen then (.error .trailingBytes, reader)
  else ControlReader.take payloadLen reader

def decodeControlEnvelope (guard : ControlModeGuard) (wire : Bytes) :
    Except LinkControlError ControlEnvelope :=
  match guard.validateTyped with
  | .error e => .error e
  | .ok () =>
    if wire.length < controlHeaderBytes then .error .truncated
    else match decodeControlHeader (Reader.new wire) with
      | (.error e, _) => .error e
      | (.ok header, reader) =>
        match takeControlPayload header.payloadLen.toNat reader with
        | (.error e, _) => .error e
        | (.ok payloadBytes, _) =>
          match decodePayload derive header.opcode (Reader.new payloadBytes) with
          | (.error e, _) => .error e
          | (.ok payload, payloadReader) =>
            if payloadReader.remaining ≠ 0 then .error .trailingBytes
            else .ok {
              wireVersion := header.wireVersion, opcode := header.opcode
              requestId := header.requestId, sessionId := header.sessionId
              flags := header.flags, payload }

end Decode

end MutsukiLink
