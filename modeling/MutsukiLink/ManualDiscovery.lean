import MutsukiLink.RateLimiters
import MutsukiLink.TransportSelection

/-! The manual discovery provider (`lib.rs` of the discovery crate). A map of expiries and a queue
of announcements are pruned together: by the loop over what has expired and by the loop over the
queue, which share the budget of one poll. Instants and durations are numbers, and `latest` is the
last instant that the clock can express. -/
namespace MutsukiLink
open WireBytes
open Std (ExtTreeMap TransOrd TransCmp LawfulEqOrd)

structure DiscoveryId where
  bytes : FixedBytes 16
deriving DecidableEq, Repr

instance : Ord DiscoveryId := ⟨compareOn DiscoveryId.bytes⟩

instance : TransOrd DiscoveryId := inferInstanceAs (TransCmp (compareOn DiscoveryId.bytes))

instance : LawfulEqOrd DiscoveryId :=
  OrderedMap.lawfulEq_compareOn (by rintro ⟨a⟩ ⟨b⟩ h; exact congrArg _ h)

structure DiscoveredEndpoint where
  address : EndpointAddress
  priority : UInt16
  advertisedSecurity : SecurityLevel
deriving DecidableEq, Repr

structure DiscoveredPeer where
  discoveryId : DiscoveryId
  serviceType : String
  endpoints : List DiscoveredEndpoint
  expiresAt : ℕ
deriving DecidableEq, Repr

inductive DiscoveryEvent where
  | found (peer : DiscoveredPeer)
  | expired (id : DiscoveryId)
  | stopped
deriving DecidableEq, Repr

/-- An announcement of this candidate. -/
def DiscoveryEvent.announces (id : DiscoveryId) : DiscoveryEvent → Bool
  | found peer => peer.discoveryId = id
  | _ => false

structure DiscoveryRequest where
  serviceType : String
  maxResultsPerPoll : ℕ
deriving DecidableEq, Repr

def validateRequest (request : DiscoveryRequest) : Except DiscoveryError Unit :=
  if request.serviceType = "" ∨ request.maxResultsPerPoll = 0 then
    .error ⟨.invalidInput, "discovery request is invalid"⟩
  else .ok ()

/-- A call that does not return a value: it failed, or it panicked on an instant that is too late
to be expressed. -/
inductive DiscoveryFault where
  | panicked
  | failed (error : DiscoveryError)
deriving DecidableEq, Repr

structure ManualDiscovery where
  request : Option DiscoveryRequest
  pending : List DiscoveryEvent
  active : ExtTreeMap DiscoveryId ℕ
  limiter : AttemptRateLimiter

def discoveryNotRunning : DiscoveryError := ⟨.notRunning, "manual discovery is not running"⟩

namespace ManualDiscovery

def new (limit : RateLimit) : Except DiscoveryError ManualDiscovery :=
  (AttemptRateLimiter.new limit).map fun limiter =>
    { request := none, pending := [], active := ∅, limiter }

def rejected (kind : DiscoveryErrorKind) : DiscoveryFault :=
  .failed ⟨kind, "manual discovery candidate was rejected"⟩

/-- The announcements of a candidate, if any, leave the queue. -/
def forget (m : ManualDiscovery) (id : DiscoveryId) : List DiscoveryEvent :=
  m.pending.filter fun event => !event.announces id

def addAddress (latest : ℕ) (m : ManualDiscovery) (source : String) (discoveryId : DiscoveryId)
    (endpoint : DiscoveredEndpoint) (ttl now : ℕ) : Except DiscoveryFault Unit × ManualDiscovery :=
  match m.request with
  | none => (.error (.failed discoveryNotRunning), m)
  | some request =>
    if ttl = 0 then (.error (rejected .invalidInput), m)
    else if ¬m.active.contains discoveryId ∧ m.limiter.limit.maxCandidates ≤ m.active.size then
      (.error (rejected .rateLimited), m)
    else
      -- The limiter is asked last, and it keeps books of refusals, too.
      let (allowed, limiter) := m.limiter.allow source now
      let m := { m with limiter }
      if !allowed then (.error (rejected .rateLimited), m)
      else if latest < now+ttl then (.error .panicked, m)
      else (.ok (), { m with
        pending := m.forget discoveryId ++
          [.found ⟨discoveryId, request.serviceType, [endpoint], now+ttl⟩]
        active := m.active.insert discoveryId (now+ttl) })

def start (m : ManualDiscovery) (request : DiscoveryRequest) :
    Except DiscoveryFault Unit × ManualDiscovery :=
  if m.request.isSome then
    (.error (.failed ⟨.alreadyRunning, "manual discovery is already running"⟩), m)
  else match validateRequest request with
    | .error e => (.error (.failed e), m)
    | .ok () => (.ok (), { m with request := some request })

/-- The candidates whose time is over, in the order of the map, as many as a poll may return. -/
def expiredIds (m : ManualDiscovery) (now budget : ℕ) : List DiscoveryId :=
  ((m.active.toList.filter fun entry => entry.2 ≤ now).map Prod.fst).take budget

/-- The body of the loop over the expired candidates. -/
def expire (m : ManualDiscovery) (id : DiscoveryId) : ManualDiscovery :=
  { m with active := m.active.erase id, pending := m.forget id }

/-- The loop over the queue, with what is left of the budget. -/
def drain (now : ℕ) : ℕ → ManualDiscovery → List DiscoveryEvent × ManualDiscovery
  | 0, m => ([], m)
  | budget+1, m =>
    match m.pending with
    | [] => ([], m)
    | .found peer :: rest =>
      -- An announcement that waited too long is turned into an expiry.
      if peer.expiresAt ≤ now then
        let (events, m) := drain now budget
          { m with pending := rest, active := m.active.erase peer.discoveryId }
        (.expired peer.discoveryId :: events, m)
      else
        let (events, m) := drain now budget { m with pending := rest }
        (.found peer :: events, m)
    | event :: rest =>
      let (events, m) := drain now budget { m with pending := rest }
      (event :: events, m)

def poll (m : ManualDiscovery) (now : ℕ) :
    Except DiscoveryFault (List DiscoveryEvent) × ManualDiscovery :=
  match m.request with
  | none => (.error (.failed discoveryNotRunning), m)
  | some request =>
    let expired := m.expiredIds now request.maxResultsPerPoll
    let (events, m) := drain now (request.maxResultsPerPoll-expired.length)
      (expired.foldl expire m)
    (.ok (expired.map .expired ++ events), m)

def stop (m : ManualDiscovery) : Except DiscoveryFault Unit × ManualDiscovery :=
  if m.request.isNone then (.error (.failed discoveryNotRunning), m)
  else (.ok (), { m with request := none, pending := [], active := ∅ })

end ManualDiscovery

/-- The calls of a provider. -/
inductive DiscoveryCall where
  | start (request : DiscoveryRequest)
  | addAddress (source : String) (discoveryId : DiscoveryId) (endpoint : DiscoveredEndpoint)
    (ttl now : ℕ)
  | poll (now : ℕ)
  | stop

namespace ManualDiscovery

/-- One call; only a poll returns events. -/
def step (latest : ℕ) (m : ManualDiscovery) :
    DiscoveryCall → Except DiscoveryFault (List DiscoveryEvent) × ManualDiscovery
  | .start request => ((m.start request).1.map fun _ => [], (m.start request).2)
  | .addAddress source id endpoint ttl now =>
    ((m.addAddress latest source id endpoint ttl now).1.map fun _ => [],
      (m.addAddress latest source id endpoint ttl now).2)
  | .poll now => m.poll now
  | .stop => (m.stop.1.map fun _ => [], m.stop.2)

end ManualDiscovery

end MutsukiLink
