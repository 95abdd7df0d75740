import MutsukiLink.RunHistory
import MutsukiLink.SaturatingWords

/-! The reconnect controller (`reconnect.rs`): it schedules attempts and owns neither a timer nor
a source of randomness. -/
namespace MutsukiLink

inductive ReconnectFailure where
  | temporarilyUnreachable | networkChanged | sleepWake | transportClosed | authenticationFailed
  | identityExpired | pairingRevoked | protocolIncompatible | resourceExhausted | cancelled
deriving DecidableEq, Repr

def ReconnectFailure.isPermanent : ReconnectFailure → Bool
  | .authenticationFailed | .identityExpired | .pairingRevoked | .protocolIncompatible
  | .cancelled => true
  | _ => false

structure RetryLimit where
  maxAttempts : UInt32
  maxElapsedMs : UInt64
deriving DecidableEq, Repr

def RetryLimit.isValid (l : RetryLimit) : Bool := 0 < l.maxAttempts && 0 < l.maxElapsedMs

structure ExponentialBackoff where
  initialDelayMs : UInt64
  maximumDelayMs : UInt64
  multiplierPerThousand : UInt32
  jitterPerThousand : UInt16
  limit : RetryLimit
deriving DecidableEq, Repr

def ExponentialBackoff.isValid (c : ExponentialBackoff) : Bool :=
  0 < c.initialDelayMs && c.initialDelayMs ≤ c.maximumDelayMs && 1000 ≤ c.multiplierPerThousand &&
    c.jitterPerThousand ≤ 1000 && c.limit.isValid

inductive ReconnectPolicy where
  | disabled
  | immediate (limit : RetryLimit)
  | exponentialBackoff (config : ExponentialBackoff)
  | applicationControlled
deriving DecidableEq, Repr

/-- The `valid` of the constructor. -/
def ReconnectPolicy.isValid : ReconnectPolicy → Bool
  | .disabled | .applicationControlled => true
  | .immediate limit => limit.isValid
  | .exponentialBackoff config => config.isValid

/-- The budgets of the policies that make attempts on their own. -/
def ReconnectPolicy.limit : ReconnectPolicy → Option RetryLimit
  | .disabled | .applicationControlled => none
  | .immediate limit => some limit
  | .exponentialBackoff config => some config.limit

inductive ReconnectStopReason where
  | disabled
  | permanentFailure (failure : ReconnectFailure)
  | attemptsExhausted | deadlineExceeded | cancelled
deriving DecidableEq, Repr

inductive ReconnectAction where
  | attemptAt (unixMs : UInt64) (attempt : UInt32)
  | awaitApplication
  | stop (reason : ReconnectStopReason)
deriving DecidableEq, Repr

/-- The token is shared with the host, which may cancel it between two calls. -/
structure ReconnectController where
  policy : ReconnectPolicy
  startedUnixMs : Option UInt64
  attempts : UInt32
  cancellation : Bool
  paused : Bool
deriving DecidableEq, Repr

/-- Rust's `for _ in 0..attempt` with `delay` as its accumulator. -/
def exponentialDelay (config : ExponentialBackoff) : ℕ → UInt64
  | 0 => config.initialDelayMs
  | attempt+1 =>
    min ((exponentialDelay config attempt).saturatingMul
      config.multiplierPerThousand.toUInt64/1000) config.maximumDelayMs

def jitteredDelay (base : UInt64) (jitter sample : UInt16) : UInt64 :=
  if jitter = 0 then base
  else
    let span := base.saturatingMul jitter.toUInt64/1000
    let offset := ((span.saturatingMul sample.toUInt64).saturatingMul 2)/1000
    (base.saturatingSub span).saturatingAdd offset

/-- The `delay` that `after_failure` computes before it schedules an attempt. -/
def backoffDelay (config : ExponentialBackoff) (attempts : ℕ) (jitterSample : UInt16) : UInt64 :=
  jitteredDelay (exponentialDelay config attempts) config.jitterPerThousand (min jitterSample 1000)

namespace ReconnectController

def new (policy : ReconnectPolicy) (cancellation : Bool) : Except String ReconnectController :=
  if !policy.isValid then .error "reconnect policy limits must be positive and bounded"
  else .ok ⟨policy, none, 0, cancellation, false⟩

def pause (c : ReconnectController) : ReconnectController := { c with paused := true }

def resume (c : ReconnectController) : ReconnectController := { c with paused := false }

def reset (c : ReconnectController) : ReconnectController :=
  { c with startedUnixMs := none, attempts := 0 }

/-- `CancellationToken::cancel` on the shared token. -/
def cancel (c : ReconnectController) : ReconnectController := { c with cancellation := true }

def schedule (c : ReconnectController) (nowUnixMs startedUnixMs delayMs : UInt64)
    (limit : RetryLimit) : ReconnectAction × ReconnectController :=
  if limit.maxAttempts ≤ c.attempts then (.stop .attemptsExhausted, c)
  else
    let elapsed := nowUnixMs.saturatingSub startedUnixMs
    if limit.maxElapsedMs ≤ elapsed ∨ limit.maxElapsedMs < elapsed.saturatingAdd delayMs then
      (.stop .deadlineExceeded, c)
    else
      let attempts := c.attempts.saturatingAdd 1
      (.attemptAt (nowUnixMs.saturatingAdd delayMs) attempts, { c with attempts })

def afterFailure (c : ReconnectController) (failure : ReconnectFailure) (nowUnixMs : UInt64)
    (jitterSample : UInt16) : ReconnectAction × ReconnectController :=
  if c.cancellation ∨ failure = .cancelled then (.stop .cancelled, c)
  else if failure.isPermanent then (.stop (.permanentFailure failure), c)
  else if c.paused then (.awaitApplication, c)
  else
    let started := c.startedUnixMs.getD nowUnixMs
    -- `get_or_insert` fixes the start at the first failure that gets this far.
    let c := { c with startedUnixMs := some started }
    match c.policy with
    | .disabled => (.stop .disabled, c)
    | .applicationControlled => (.awaitApplication, c)
    | .immediate limit => c.schedule nowUnixMs started 0 limit
    | .exponentialBackoff config =>
      c.schedule nowUnixMs started (backoffDelay config c.attempts.toNat jitterSample) config.limit

end ReconnectController

/-- What a host does with a controller and with the token it shares. -/
inductive ReconnectCall where
  | afterFailure (failure : ReconnectFailure) (nowUnixMs : UInt64) (jitterSample : UInt16)
  | pause | resume | reset | cancel
deriving DecidableEq, Repr

namespace ReconnectController

def step (c : ReconnectController) : ReconnectCall → Option ReconnectAction × ReconnectController
  | .afterFailure failure nowUnixMs jitterSample =>
    let r := c.afterFailure failure nowUnixMs jitterSample
    (some r.1, r.2)
  | .pause => (none, c.pause)
  | .resume => (none, c.resume)
  | .reset => (none, c.reset)
  | .cancel => (none, c.cancel)

/-- The delay that its policy asks for before the next attempt. -/
def delay (c : ReconnectController) (jitterSample : UInt16) : UInt64 :=
  match c.policy with
  | .exponentialBackoff config => backoffDelay config c.attempts.toNat jitterSample
  | _ => 0

/-- Neither a permanent failure nor one that the pause defers. -/
def counts (c : ReconnectController) (failure : ReconnectFailure) : Bool :=
  !failure.isPermanent && !c.paused

/-- What a failure report does: a controller that is cancelled, paused or told of a permanent
failure stays as it was, a failure that counts fixes the start, and an attempt is made only within
both budgets. -/
inductive Reports (c : ReconnectController) (failure : ReconnectFailure) (nowUnixMs : UInt64)
    (jitterSample : UInt16) : ReconnectAction → ReconnectController → Prop where
  | ignored {action : ReconnectAction} (haction : ∀ t k, action ≠ .attemptAt t k)
      (hwhy : c.cancellation = true ∨ c.counts failure = false) :
      Reports c failure nowUnixMs jitterSample action c
  | refused {action : ReconnectAction} (haction : ∀ t k, action ≠ .attemptAt t k)
      (hcounts : c.counts failure = true) :
      Reports c failure nowUnixMs jitterSample action
        { c with startedUnixMs := some (c.startedUnixMs.getD nowUnixMs) }
  | scheduled {l : RetryLimit} (htoken : c.cancellation = false)
      (hcounts : c.counts failure = true) (hlimit : c.policy.limit = some l)
      (hattempts : c.attempts < l.maxAttempts)
      (helapsed : ((nowUnixMs.saturatingSub (c.startedUnixMs.getD nowUnixMs)).saturatingAdd
        (c.delay jitterSample)) ≤ l.maxElapsedMs) :
      Reports c failure nowUnixMs jitterSample
        (.attemptAt (nowUnixMs.saturatingAdd (c.delay jitterSample))
          (c.attempts.saturatingAdd 1))
        { c with
          startedUnixMs := some (c.startedUnixMs.getD nowUnixMs)
          attempts := c.attempts.saturatingAdd 1 }

end ReconnectController

end MutsukiLink
