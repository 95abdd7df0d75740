import MutsukiLink.PairingModel
import MutsukiLink.SlidingWindow

/-! The attempt limiters of pairing (`rate_limit.rs`) and of discovery (`lib.rs`). Their times,
milliseconds of a `u64` and instants, are numbers: they are compared and subtracted only, and the
subtraction stops at zero. -/
namespace MutsukiLink
open RunHistory
open SlidingWindow (Limits Verdict Admissible Bounded Guards admissionsOf)
open Std (ExtTreeMap)

structure PairingRateLimit where
  maxAttempts : ℕ
  maxFailures : ℕ
  maxPeers : ℕ
  windowMs : ℕ
deriving DecidableEq, Repr

structure PairingAttemptLimiter where
  limit : PairingRateLimit
  attempts : ExtTreeMap PeerId (List ℕ)
  failures : ExtTreeMap PeerId (List ℕ)

def rateError (message : String) : PairingError := ⟨.rateLimited, message⟩

/-- `admit`: the limiter's two tables are served alike. -/
def admitPeer (peers : ExtTreeMap PeerId (List ℕ)) (peerId : PeerId)
    (maximum maxPeers windowMs nowUnixMs : ℕ) :
    Except PairingError Unit × ExtTreeMap PeerId (List ℕ) :=
  let (verdict, peers) :=
    SlidingWindow.attempt ⟨maximum, maxPeers, windowMs⟩ peers peerId nowUnixMs
  match verdict with
  | .admitted => (.ok (), peers)
  | .tooManySources => (.error (rateError "pairing peer limit was reached"), peers)
  | .limited => (.error (rateError "pairing request was rate limited"), peers)

namespace PairingAttemptLimiter

def new (limit : PairingRateLimit) : Except PairingError PairingAttemptLimiter :=
  if limit.maxAttempts = 0 ∨ limit.maxFailures = 0 ∨ limit.maxPeers = 0 ∨ limit.windowMs = 0 then
    .error (rateError "pairing rate limit must be positive")
  else .ok { limit, attempts := ∅, failures := ∅ }

def begin (p : PairingAttemptLimiter) (peerId : PeerId) (nowUnixMs : ℕ) :
    Except PairingError Unit × PairingAttemptLimiter :=
  let (result, attempts) :=
    admitPeer p.attempts peerId p.limit.maxAttempts p.limit.maxPeers p.limit.windowMs nowUnixMs
  (result, { p with attempts })

def recordFailure (p : PairingAttemptLimiter) (peerId : PeerId) (nowUnixMs : ℕ) :
    Except PairingError Unit × PairingAttemptLimiter :=
  let (result, failures) :=
    admitPeer p.failures peerId p.limit.maxFailures p.limit.maxPeers p.limit.windowMs nowUnixMs
  (result, { p with failures })

end PairingAttemptLimiter

inductive DiscoveryErrorKind where
  | invalidInput | rateLimited | alreadyRunning | notRunning | providerFailure
deriving DecidableEq, Repr

structure DiscoveryError where
  kind : DiscoveryErrorKind
  publicMessage : String
deriving DecidableEq, Repr

structure RateLimit where
  attempts : ℕ
  window : ℕ
  maxSources : ℕ
  maxCandidates : ℕ
deriving DecidableEq, Repr

def RateLimit.limits (limit : RateLimit) : Limits :=
  ⟨limit.attempts, limit.maxSources, limit.window⟩

structure AttemptRateLimiter where
  limit : RateLimit
  attempts : ExtTreeMap String (List ℕ)

namespace AttemptRateLimiter

def new (limit : RateLimit) : Except DiscoveryError AttemptRateLimiter :=
  if limit.attempts = 0 ∨ limit.window = 0 ∨ limit.maxSources = 0 ∨ limit.maxCandidates = 0 then
    .error ⟨.invalidInput, "rate limit must be positive"⟩
  else .ok { limit, attempts := ∅ }

def allow (r : AttemptRateLimiter) (source : String) (now : ℕ) : Bool × AttemptRateLimiter :=
  let (verdict, attempts) := SlidingWindow.attempt r.limit.limits r.attempts source now
  (verdict == .admitted, { r with attempts })

end AttemptRateLimiter

/-- The two calls of the pairing limiter. -/
inductive AttemptKind where
  | attempt | failure
deriving DecidableEq, Repr

structure PairingLimiterCall where
  kind : AttemptKind
  peerId : PeerId
  nowUnixMs : ℕ

def PairingRateLimit.of (limit : PairingRateLimit) : AttemptKind → Limits
  -- The tables share the number of peers and the window, and differ in the maximum.
  | .attempt => ⟨limit.maxAttempts, limit.maxPeers, limit.windowMs⟩
  | .failure => ⟨limit.maxFailures, limit.maxPeers, limit.windowMs⟩

/-- What a call of this kind asks for. -/
def PairingLimiterCall.asked (kind : AttemptKind) (c : PairingLimiterCall) : Option (PeerId × ℕ) :=
  if c.kind = kind then some (c.peerId, c.nowUnixMs) else none

namespace PairingAttemptLimiter

def table (p : PairingAttemptLimiter) : AttemptKind → ExtTreeMap PeerId (List ℕ)
  | .attempt => p.attempts
  | .failure => p.failures

def step (p : PairingAttemptLimiter) (c : PairingLimiterCall) :
    Except PairingError Unit × PairingAttemptLimiter :=
  match c.kind with
  | .attempt => p.begin c.peerId c.nowUnixMs
  | .failure => p.recordFailure c.peerId c.nowUnixMs

end PairingAttemptLimiter

theorem admitPeer_eq (peers : ExtTreeMap PeerId (List ℕ)) (peerId : PeerId)
    (maximum maxPeers windowMs nowUnixMs : ℕ) :
    (admitPeer peers peerId maximum maxPeers windowMs nowUnixMs).2 =
        (SlidingWindow.attempt ⟨maximum, maxPeers, windowMs⟩ peers peerId nowUnixMs).2 ∧
      ((admitPeer peers peerId maximum maxPeers windowMs nowUnixMs).1.isOk ↔
        (SlidingWindow.attempt ⟨maximum, maxPeers, windowMs⟩ peers peerId nowUnixMs).1 =
          .admitted) := by
  unfold admitPeer
  cases h : SlidingWindow.attempt ⟨maximum, maxPeers, windowMs⟩ peers peerId nowUnixMs with
  | mk verdict peers' =>
    cases verdict with
    | _ => simp [Except.isOk, Except.toBool]

namespace PairingAttemptLimiter

variable {limit : PairingRateLimit} {p : PairingAttemptLimiter}

theorem limit_step (p : PairingAttemptLimiter) (c : PairingLimiterCall) :
    (p.step c).2.limit = p.limit := by
  unfold step
  cases c.kind with
  | _ => rfl

/-- A call asks one table and leaves the other as it is. -/
theorem step_table (p : PairingAttemptLimiter) (c : PairingLimiterCall) :
    (∀ kind, kind ≠ c.kind → (p.step c).2.table kind = p.table kind) ∧
    (p.step c).2.table c.kind = (SlidingWindow.attempt (p.limit.of c.kind) (p.table c.kind)
      c.peerId c.nowUnixMs).2 ∧
    ((p.step c).1.isOk ↔ (SlidingWindow.attempt (p.limit.of c.kind) (p.table c.kind)
      c.peerId c.nowUnixMs).1 = .admitted) := by
  unfold step
  cases hkind : c.kind with
  | attempt =>
    have hadmit := admitPeer_eq p.attempts c.peerId p.limit.maxAttempts p.limit.maxPeers
      p.limit.windowMs c.nowUnixMs
    refine ⟨?_, hadmit⟩
    intro kind hne
    cases kind with
    | attempt => exact absurd rfl hne
    | failure => rfl
  | failure =>
    have hadmit := admitPeer_eq p.failures c.peerId p.limit.maxFailures p.limit.maxPeers
      p.limit.windowMs c.nowUnixMs
    refine ⟨?_, hadmit⟩
    intro kind hne
    cases kind with
    | attempt => rfl
    | failure => exact absurd rfl hne

theorem guards (limit : PairingRateLimit) (kind : AttemptKind) :
    Guards (fun p => p.limit = limit) (limit.of kind) step (fun p => p.table kind)
      (PairingLimiterCall.asked kind) (fun reply => reply.isOk) := by
  refine ⟨fun p c hp => (limit_step p c).trans hp, ?_, ?_⟩
  -- A call that asks nothing of this table is one of the other kind.
  · intro p c hp hother
    apply (step_table p c).1
    rintro rfl
    simp [PairingLimiterCall.asked] at hother
  · intro p c source now hp hasked
    unfold PairingLimiterCall.asked at hasked
    split at hasked
    · next hkind =>
      subst hkind hp
      obtain ⟨rfl, rfl⟩ := Prod.mk.inj (Option.some.inj hasked)
      exact (step_table p c).2
    · cases hasked

theorem new_ok (h : new limit = .ok p) :
    p = { limit, attempts := ∅, failures := ∅ } ∧ ∀ kind, 0 < (limit.of kind).maximum := by
  unfold new at h
  split at h
  · cases h
  · next hpositive =>
    refine ⟨(Except.ok.inj h).symm, ?_⟩
    intro kind
    cases kind with
    | attempt =>
      show 0 < limit.maxAttempts
      omega
    | failure =>
      show 0 < limit.maxFailures
      omega

end PairingAttemptLimiter

namespace AttemptRateLimiter

def step (r : AttemptRateLimiter) (call : String × ℕ) : Bool × AttemptRateLimiter :=
  r.allow call.1 call.2

theorem guards (limit : RateLimit) :
    Guards (fun r => r.limit = limit) limit.limits step attempts some
      (fun allowed => allowed = true) := by
  refine ⟨fun r c hr => hr, ?_, ?_⟩
  · intro r c hr hnone
    cases hnone
  · intro r c source now hr hcall
    obtain rfl := Option.some.inj hcall
    subst hr
    exact ⟨rfl, beq_iff_eq⟩

theorem new_ok {limit : RateLimit} {r : AttemptRateLimiter} (h : new limit = .ok r) :
    r = { limit, attempts := ∅ } ∧ 0 < limit.attempts := by
  unfold new at h
  split at h
  · cases h
  · next hpositive =>
    refine ⟨(Except.ok.inj h).symm, ?_⟩
    omega

end AttemptRateLimiter

/-- Each table of the pairing limiter and the one of discovery admits a call exactly when a sliding
window over the whole past does, and stays within its bounds. -/
theorem sliding_window_admission_is_exact :
    (∀ limit limiter, PairingAttemptLimiter.new limit = .ok limiter → ∀ kind calls c,
      (((calls ++ [c]).filterMap (PairingLimiterCall.asked kind)).Pairwise
        fun a b => a.2 ≤ b.2) →
      (c.kind = kind → ((PairingAttemptLimiter.step
          (run PairingAttemptLimiter.step limiter calls) c).1.isOk ↔
        Admissible (limit.of kind) (admissionsOf (PairingLimiterCall.asked kind)
          (fun reply => reply.isOk) (trace PairingAttemptLimiter.step limiter calls))
          c.peerId c.nowUnixMs)) ∧
      Bounded (limit.of kind)
        ((run PairingAttemptLimiter.step limiter (calls ++ [c])).table kind)) ∧
    ∀ limit limiter, AttemptRateLimiter.new limit = .ok limiter → ∀ calls source now,
      ((calls ++ [(source, now)]).Pairwise fun a b => a.2 ≤ b.2) →
      (((run AttemptRateLimiter.step limiter calls).allow source now).1 = true ↔
        Admissible limit.limits (admissionsOf some (fun allowed => allowed = true)
          (trace AttemptRateLimiter.step limiter calls)) source now) ∧
      Bounded limit.limits (run AttemptRateLimiter.step limiter
        (calls ++ [(source, now)])).attempts := by
  constructor
  · intro limit limiter hnew kind calls c hsorted
    obtain ⟨rfl, hmaximum⟩ := PairingAttemptLimiter.new_ok hnew
    -- Both tables start empty, so one argument serves for either kind.
    have hempty : PairingAttemptLimiter.table ⟨limit, ∅, ∅⟩ kind = ∅ := by
      cases kind with
      | _ => rfl
    have hexact := (PairingAttemptLimiter.guards limit kind).exact (hmaximum kind) rfl hempty
      calls c hsorted
    refine ⟨?_, hexact.2⟩
    intro hkind
    exact hexact.1 c.peerId c.nowUnixMs (if_pos hkind)
  · intro limit limiter hnew calls source now hsorted
    obtain ⟨rfl, hmaximum⟩ := AttemptRateLimiter.new_ok hnew
    have hexact := (AttemptRateLimiter.guards limit).exact (s := ⟨limit, ∅⟩) hmaximum rfl rfl
      calls (source, now) (by rwa [List.filterMap_some])
    exact ⟨hexact.1 source now rfl, hexact.2⟩

/-- One attempt of a peer, and a source that asks twice within the window. -/
theorem sliding_window_admission_is_exact_twice :
    Bounded ⟨1, 1, 100⟩ ((run PairingAttemptLimiter.step ⟨⟨1, 1, 1, 100⟩, ∅, ∅⟩
      [⟨.attempt, ⟨.replicate 32 1⟩, 0⟩]).table .attempt) ∧
    (((run AttemptRateLimiter.step ⟨⟨1, 100, 1, 1⟩, ∅⟩ [("lan", 0)]).allow "lan" 99).1 = true ↔
      Admissible ⟨1, 1, 100⟩ [("lan", 0)] "lan" 99) := by
  constructor
  · have hfirst := sliding_window_admission_is_exact.1 ⟨1, 1, 1, 100⟩ ⟨⟨1, 1, 1, 100⟩, ∅, ∅⟩ rfl
      .attempt [] ⟨.attempt, ⟨.replicate 32 1⟩, 0⟩ (List.pairwise_singleton _ _)
    exact hfirst.2
  · have hsecond := sliding_window_admission_is_exact.2 ⟨1, 100, 1, 1⟩ ⟨⟨1, 100, 1, 1⟩, ∅⟩ rfl
      [("lan", 0)] "lan" 99 (by simp)
    exact hsecond.1

end MutsukiLink
