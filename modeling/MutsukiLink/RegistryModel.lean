import MutsukiLink.MuxModel

/-! The protocol registry and the sets it activates (`protocol.rs`). -/
namespace MutsukiLink
open WireBytes
open Std (ExtTreeMap ExtTreeSet)

def maxProtocolIdBytes : ℕ := 128
def maxChannelNameBytes : ℕ := 64

structure ProtocolChannelDescriptor where
  id : ProtocolChannelId
  debugName : Option String
  mode : ChannelMode
  priority : UInt8
  maxFrameBytes : ℕ
  maxStreamBytes : Option UInt64
  maxInFlightFrames : ℕ
  discardable : Bool
deriving DecidableEq, Repr

structure ProtocolDescriptor where
  stableId : ProtocolStableId
  debugIdentity : Option ProtocolDebugIdentity
  versions : VersionRange
  schema : SchemaRef
  capabilities : ProtocolCapabilitySet
  channels : List ProtocolChannelDescriptor
deriving DecidableEq, Repr

structure ProtocolRegistryLimits where
  maxProtocols : ℕ := 16
  maxChannelsPerProtocol : ℕ := 32
  maxTotalChannels : ℕ := 128
  maxProtocolIdBytes : ℕ := MutsukiLink.maxProtocolIdBytes
  maxChannelNameBytes : ℕ := MutsukiLink.maxChannelNameBytes
deriving DecidableEq, Repr

def ProtocolRegistryLimits.isValid (limits : ProtocolRegistryLimits) : Bool :=
  decide (0 < limits.maxProtocols) && decide (0 < limits.maxChannelsPerProtocol) &&
    decide (0 < limits.maxTotalChannels) && decide (0 < limits.maxProtocolIdBytes) &&
    decide (limits.maxProtocolIdBytes ≤ MutsukiLink.maxProtocolIdBytes) &&
    decide (0 < limits.maxChannelNameBytes) &&
    decide (limits.maxChannelNameBytes ≤ MutsukiLink.maxChannelNameBytes)

inductive ProtocolRegistryErrorKind where
  | invalidLimits | invalidProtocolId | invalidVersionRange | invalidSchema | invalidCapabilities
  | invalidChannel | duplicateProtocol | duplicateChannel | identityConflict | schemaConflict
  | registryLimitExceeded | unknownProtocol | protocolNotNegotiated | versionNotSupported
  | channelNotDefined | channelCapacityExceeded | frameLimitExceeded | streamLimitExceeded
deriving DecidableEq, Repr

structure ProtocolRegistryError where
  kind : ProtocolRegistryErrorKind
  publicMessage : String
deriving DecidableEq, Repr

def ProtocolRegistryErrorKind.error (kind : ProtocolRegistryErrorKind) : ProtocolRegistryError :=
  ⟨kind, match kind with
    | .invalidLimits => "protocol registry limits must be positive"
    | .invalidProtocolId => "protocol debug identity is invalid"
    | .invalidVersionRange => "protocol version range is invalid"
    | .invalidSchema => "protocol schema reference is invalid"
    | .invalidCapabilities => "protocol capability set is invalid"
    | .invalidChannel => "protocol channel definition is invalid"
    | .duplicateProtocol => "protocol id is already registered"
    | .duplicateChannel => "protocol channel is already defined"
    | .identityConflict => "protocol stable id conflicts with debug identity"
    | .schemaConflict => "protocol stable id has a conflicting schema"
    | .registryLimitExceeded => "protocol registry limit exceeded"
    | .unknownProtocol => "protocol is not registered"
    | .protocolNotNegotiated => "protocol was not negotiated"
    | .versionNotSupported => "protocol version is not supported"
    | .channelNotDefined => "protocol channel is not defined"
    | .channelCapacityExceeded => "channel capacity exceeds protocol limit"
    | .frameLimitExceeded => "frame exceeds protocol limit"
    | .streamLimitExceeded => "stream exceeds protocol limit"⟩

def validComponent (value : String) : Bool :=
  !(utf8 value).isEmpty && (utf8 value).all fun byte =>
    (97 ≤ byte && byte ≤ 122) || (48 ≤ byte && byte ≤ 57) || byte == 45 || byte == 95

structure ProtocolRegistry where
  limits : ProtocolRegistryLimits
  descriptors : ExtTreeMap ProtocolStableId ProtocolDescriptor
  totalChannels : ℕ

structure FrozenProtocolRegistry where
  descriptors : ExtTreeMap ProtocolStableId ProtocolDescriptor
  maxRemoteOffers : ℕ

namespace ProtocolRegistry

def new (limits : ProtocolRegistryLimits) : Except ProtocolRegistryError ProtocolRegistry :=
  if !limits.isValid then .error ProtocolRegistryErrorKind.invalidLimits.error
  else .ok { limits, descriptors := ∅, totalChannels := 0 }

/-- The first check in the loop over channels. -/
def invalidChannel (limits : ProtocolRegistryLimits) (channel : ProtocolChannelDescriptor) : Bool :=
  channel.id.val == 0 ||
    (channel.debugName.any fun name =>
      decide (limits.maxChannelNameBytes < (utf8 name).length) || !validComponent name) ||
    channel.maxFrameBytes == 0 || channel.maxInFlightFrames == 0 ||
    channel.maxStreamBytes == some 0 ||
    ((channel.mode == .stream) != channel.maxStreamBytes.isSome) ||
    (channel.mode != .event && channel.discardable)

/-- The loop over channels, with the identifiers and names seen so far. -/
def validateChannels (limits : ProtocolRegistryLimits) : ExtTreeSet ProtocolChannelId →
    ExtTreeSet String → List ProtocolChannelDescriptor → Except ProtocolRegistryError Unit
  | _, _, [] => .ok ()
  | channelIds, channelNames, channel :: rest =>
    if invalidChannel limits channel then .error ProtocolRegistryErrorKind.invalidChannel.error
    else if channelIds.contains channel.id ||
        channel.debugName.any fun name => channelNames.contains name then
      .error ProtocolRegistryErrorKind.duplicateChannel.error
    else validateChannels limits (channelIds.insert channel.id)
      (match channel.debugName with
        | none => channelNames
        | some name => channelNames.insert name) rest

section Register
variable (derive : String → String → ProtocolStableId)

def validateDescriptor (limits : ProtocolRegistryLimits) (descriptor : ProtocolDescriptor) :
    Except ProtocolRegistryError Unit :=
  if descriptor.debugIdentity.any fun identity => !identity.isCanonical ||
      decide (limits.maxProtocolIdBytes <
        (utf8 identity.authority).length+(utf8 identity.name).length) ||
      identity.stableId derive != descriptor.stableId then
    .error ProtocolRegistryErrorKind.invalidProtocolId.error
  else if !descriptor.versions.isValid then
    .error ProtocolRegistryErrorKind.invalidVersionRange.error
  else if descriptor.schema.revision = 0 then .error ProtocolRegistryErrorKind.invalidSchema.error
  else if descriptor.capabilities.protocolId ≠ descriptor.stableId ∨
      !descriptor.capabilities.isBounded then
    .error ProtocolRegistryErrorKind.invalidCapabilities.error
  else if descriptor.channels = [] ∨ limits.maxChannelsPerProtocol < descriptor.channels.length then
    .error ProtocolRegistryErrorKind.registryLimitExceeded.error
  else validateChannels limits ∅ ∅ descriptor.channels

def register (r : ProtocolRegistry) (descriptor : ProtocolDescriptor) :
    Except ProtocolRegistryError Unit × ProtocolRegistry :=
  match r.descriptors[descriptor.stableId]? with
  -- The new descriptor is compared with the one that is there before it is looked at on its own.
  | some existing =>
    if existing.debugIdentity ≠ descriptor.debugIdentity then
      (.error ProtocolRegistryErrorKind.identityConflict.error, r)
    else if existing.schema ≠ descriptor.schema then
      (.error ProtocolRegistryErrorKind.schemaConflict.error, r)
    else (.error ProtocolRegistryErrorKind.duplicateProtocol.error, r)
  | none =>
    match validateDescriptor derive r.limits descriptor with
    | .error e => (.error e, r)
    | .ok () =>
      if r.limits.maxProtocols ≤ r.descriptors.size ∨
          r.limits.maxTotalChannels < r.totalChannels+descriptor.channels.length then
        (.error ProtocolRegistryErrorKind.registryLimitExceeded.error, r)
      else
        (.ok (), { r with
          totalChannels := r.totalChannels+descriptor.channels.length
          descriptors := r.descriptors.insert descriptor.stableId descriptor })

end Register

def freeze (r : ProtocolRegistry) : FrozenProtocolRegistry :=
  { descriptors := r.descriptors, maxRemoteOffers := r.limits.maxProtocols }

end ProtocolRegistry

abbrev ProtocolDescriptor.offer (d : ProtocolDescriptor) : ProtocolOffer :=
  { stableId := d.stableId, debugIdentity := d.debugIdentity, versions := d.versions
    schema := d.schema, capabilities := d.capabilities }

structure ActiveProtocol where
  stableId : ProtocolStableId
  debugIdentity : Option ProtocolDebugIdentity
  version : ProtocolVersion
  schema : SchemaRef
  capabilities : ProtocolCapabilitySet
  channels : ExtTreeMap ProtocolChannelId ProtocolChannelDescriptor

def ActiveProtocol.of (descriptor : ProtocolDescriptor) (selection : ProtocolSelection) :
    ActiveProtocol :=
  { stableId := selection.stableId, debugIdentity := descriptor.debugIdentity
    version := selection.version, schema := selection.schema
    capabilities := selection.capabilities
    channels := ExtTreeMap.ofList (descriptor.channels.map fun channel => (channel.id, channel)) }

structure ActiveProtocolSet where
  active : ExtTreeMap ProtocolStableId ActiveProtocol

namespace FrozenProtocolRegistry

def offers (r : FrozenProtocolRegistry) : List ProtocolOffer :=
  (OrderedMap.values r.descriptors).map ProtocolDescriptor.offer

/-- The body of the loop in `negotiate`. -/
def negotiateDescriptor (remote : List ProtocolOffer) (selections : List ProtocolSelection)
    (descriptor : ProtocolDescriptor) : Except ProtocolRegistryError (List ProtocolSelection) :=
  match remote.find? fun offer => offer.stableId = descriptor.stableId with
  | none => .ok selections
  | some offer =>
    -- A missing name conflicts with none.
    if descriptor.debugIdentity.isSome ∧ offer.debugIdentity.isSome ∧
        descriptor.debugIdentity ≠ offer.debugIdentity then
      .error ProtocolRegistryErrorKind.identityConflict.error
    else if descriptor.schema ≠ offer.schema then
      .error ProtocolRegistryErrorKind.schemaConflict.error
    else match descriptor.versions.negotiate offer.versions with
      -- No common version: the protocol is passed over; no common capabilities: an error.
      | none => .ok selections
      | some version =>
        match descriptor.capabilities.intersect offer.capabilities with
        | none => .error ProtocolRegistryErrorKind.invalidCapabilities.error
        | some capabilities =>
          .ok (selections ++ [⟨descriptor.stableId, version, descriptor.schema, capabilities⟩])

def negotiate (r : FrozenProtocolRegistry) (remote : List ProtocolOffer) :
    Except ProtocolRegistryError (List ProtocolSelection) :=
  if r.maxRemoteOffers < remote.length then
    .error ProtocolRegistryErrorKind.registryLimitExceeded.error
  else (OrderedMap.values r.descriptors).foldlM (negotiateDescriptor remote) []

/-- The loop of `activate`, over the protocols activated so far. -/
def activateSelections (r : FrozenProtocolRegistry) :
    ExtTreeMap ProtocolStableId ActiveProtocol → List ProtocolSelection →
      Except ProtocolRegistryError (ExtTreeMap ProtocolStableId ActiveProtocol)
  | active, [] => .ok active
  | active, selection :: rest =>
    if active.contains selection.stableId then
      .error ProtocolRegistryErrorKind.duplicateProtocol.error
    else match r.descriptors[selection.stableId]? with
      | none => .error ProtocolRegistryErrorKind.unknownProtocol.error
      | some descriptor =>
        if descriptor.schema ≠ selection.schema then
          .error ProtocolRegistryErrorKind.schemaConflict.error
        else if selection.capabilities.protocolId ≠ selection.stableId ∨
            !selection.capabilities.isBounded ∨
            !selection.capabilities.isSubsetOf descriptor.capabilities then
          .error ProtocolRegistryErrorKind.invalidCapabilities.error
        -- The version is in the range, asked as a range of one version.
        else if (descriptor.versions.negotiate ⟨selection.version, selection.version⟩).isNone then
          .error ProtocolRegistryErrorKind.versionNotSupported.error
        else r.activateSelections
          (active.insert selection.stableId (ActiveProtocol.of descriptor selection)) rest

def activate (r : FrozenProtocolRegistry) (negotiated : List ProtocolSelection) :
    Except ProtocolRegistryError ActiveProtocolSet :=
  if r.descriptors.size < negotiated.length then
    .error ProtocolRegistryErrorKind.registryLimitExceeded.error
  else match r.activateSelections ∅ negotiated with
    | .error e => .error e
    | .ok active => .ok ⟨active⟩

end FrozenProtocolRegistry

structure ChannelOpenRequest where
  protocolId : ProtocolStableId
  protocolChannelId : ProtocolChannelId
  channelId : ChannelId
  capacity : ℕ
deriving DecidableEq, Repr

structure ValidatedChannel where
  config : ChannelConfig
  protocolId : ProtocolStableId
  protocolChannelId : ProtocolChannelId
  schema : SchemaRef
  capabilities : ProtocolCapabilitySet
  debugName : Option String
  maxFrameBytes : ℕ
  maxStreamBytes : Option UInt64
  discardable : Bool
deriving DecidableEq, Repr

def ValidatedChannel.of (protocol : ActiveProtocol) (channel : ProtocolChannelDescriptor)
    (request : ChannelOpenRequest) : ValidatedChannel :=
  { config := {
      key := ⟨protocol.stableId, protocol.version, channel.id⟩, id := request.channelId
      generation := .initial, mode := channel.mode, priorityHint := channel.priority
      capacity := request.capacity, maxFrameBytes := channel.maxFrameBytes
      maxStreamBytes := channel.maxStreamBytes, discardable := channel.discardable }
    protocolId := protocol.stableId, protocolChannelId := channel.id, schema := protocol.schema
    capabilities := protocol.capabilities, debugName := channel.debugName
    maxFrameBytes := channel.maxFrameBytes, maxStreamBytes := channel.maxStreamBytes
    discardable := channel.discardable }

def ActiveProtocolSet.openChannel (a : ActiveProtocolSet) (request : ChannelOpenRequest) :
    Except ProtocolRegistryError ValidatedChannel :=
  match a.active[request.protocolId]? with
  | none => .error ProtocolRegistryErrorKind.protocolNotNegotiated.error
  | some protocol =>
    match protocol.channels[request.protocolChannelId]? with
    | none => .error ProtocolRegistryErrorKind.channelNotDefined.error
    | some channel =>
      if request.capacity = 0 ∨ channel.maxInFlightFrames < request.capacity then
        .error ProtocolRegistryErrorKind.channelCapacityExceeded.error
      else .ok (.of protocol channel request)

end MutsukiLink
