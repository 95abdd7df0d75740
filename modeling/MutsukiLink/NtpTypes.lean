import MutsukiLink.RealtimeModel

/-! Configuration and errors of the tracking binding (`ntp-mutsuki-link/lib.rs`). A `Duration` is a
number of nanoseconds; the errors of the tracking protocol library are of a type of their own. -/
namespace MutsukiLink

structure BindingConfig where
  resultDeadline : ℕ := 50*1000000
  maxResultAge : ℕ := 100*1000000
  maxReassemblyBytes : ℕ := 8*1024*1024
  maxFragments : ℕ := 8192
  maxControlBytes : ℕ := 64*1024
  maxPendingControl : ℕ := 16
  maxTrackingFrameBytes : ℕ := 8*1024*1024
  maxTargetFps : UInt16 := 120
  maxBurstFps : UInt16 := 240
  maxReconfigurePerMinute : UInt16 := 6
  maxReceiveFramesPerPoll : ℕ := 32
  maxProtocolViolations : UInt16 := 8
  geometryCadence : Option UInt64 := some 15
deriving DecidableEq, Repr

inductive BindingError (ε : Type) where
  | transport (error : TransportError)
  | codec (error : ε)
  | contract (error : ε)
  | layout (error : ε)
  | handshake (error : ε)
  | compact (error : ε)
  | compactStream (error : ε)
  | stream (error : ε)
  | invalidConfig | invalidControl | invalidFragment | invalidState | incompatibleVersion
  | controlLimit | payloadLimit | datagramsUnsupported | unauthorized | sessionBindingMismatch
  | layoutMismatch | rateLimited | channelFused | peerRevoked | replayOrDuplicate | staleResult
deriving DecidableEq, Repr

def BindingConfig.validate {ε : Type} (config : BindingConfig) :
    Except (BindingError ε) BindingConfig :=
  if config.resultDeadline = 0 ∨ config.maxResultAge = 0 ∨ config.maxReassemblyBytes = 0 ∨
      2^32-1 < config.maxReassemblyBytes ∨ config.maxFragments = 0 ∨
      2^16-1 < config.maxFragments ∨ config.maxControlBytes = 0 ∨ config.maxPendingControl = 0 ∨
      config.maxTrackingFrameBytes = 0 ∨ 2^32-1 < config.maxTrackingFrameBytes ∨
      config.maxTargetFps = 0 ∨ config.maxBurstFps < config.maxTargetFps ∨
      config.maxReconfigurePerMinute = 0 ∨ config.maxReceiveFramesPerPoll = 0 ∨
      config.maxProtocolViolations = 0 ∨ config.geometryCadence = some 0 then
    .error .invalidConfig
  else .ok config

structure FragmentBatchOutcome where
  fragments : ℕ := 0
  enqueued : ℕ := 0
  replaced : ℕ := 0
  expired : ℕ := 0
  congested : ℕ := 0
deriving DecidableEq, Repr

def FragmentBatchOutcome.deliveredToTransport (outcome : FragmentBatchOutcome) : Bool :=
  0 < outcome.fragments && outcome.expired = 0 && outcome.congested = 0

end MutsukiLink
