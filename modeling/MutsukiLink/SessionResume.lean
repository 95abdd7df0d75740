import MutsukiLink.FateLedger
import MutsukiLink.RunHistory
import MutsukiLink.SessionModel

/-! The requests that a lost connection has left unacknowledged (`resume.rs`). -/
namespace MutsukiLink
open FateLedger RunHistory WireBytes

inductive RequestReplay where
  | never | idempotent | applicationDecides
deriving DecidableEq, Repr

structure ChannelCursor where
  channel : ChannelKey
  cursor : Bytes
deriving DecidableEq, Repr

structure ResumeOffer where
  token : Bytes
  peerId : PeerId
  previousSessionId : SessionId
  expiresAtUnixMs : UInt64
  channelCursors : List ChannelCursor
deriving DecidableEq, Repr

structure ResumeLimits where
  maxTokenBytes : ℕ := 512
  maxChannels : ℕ := 64
  maxCursorBytes : ℕ := 256
  maxPendingRequests : ℕ := 128
deriving DecidableEq, Repr

def ResumeLimits.isValid (limits : ResumeLimits) : Bool :=
  0 < limits.maxTokenBytes && 0 < limits.maxChannels && 0 < limits.maxCursorBytes &&
    0 < limits.maxPendingRequests

example : ({} : ResumeLimits).isValid = true := rfl

inductive ResumeErrorKind where
  | invalidLimits | tokenTooLarge | tooManyChannels | cursorTooLarge | tooManyPendingRequests
  | duplicateRequest
deriving DecidableEq, Repr

structure ResumeError where
  kind : ResumeErrorKind
  publicMessage : String
deriving DecidableEq, Repr

def ResumeErrorKind.error (kind : ResumeErrorKind) : ResumeError where
  kind
  publicMessage := match kind with
    | .invalidLimits => "resume limits must be positive"
    | .tokenTooLarge => "resume token exceeds configured limit"
    | .tooManyChannels => "resume channel count exceeds configured limit"
    | .cursorTooLarge => "resume cursor exceeds configured limit"
    | .tooManyPendingRequests => "pending request count exceeds configured limit"
    | .duplicateRequest => "request is already awaiting acknowledgement"

structure PendingRequest where
  id : UInt64
  replay : RequestReplay
deriving DecidableEq, Repr

structure ReplayPlan where
  automaticallyRetry : List UInt64 := []
  applicationDecision : List UInt64 := []
  failWithoutRetry : List UInt64 := []
deriving DecidableEq, Repr

structure ResumeCoordinator where
  limits : ResumeLimits
  pending : List PendingRequest
deriving DecidableEq, Repr

namespace ResumeCoordinator

def new (limits : ResumeLimits) : Except ResumeError ResumeCoordinator :=
  if !limits.isValid then .error ResumeErrorKind.invalidLimits.error
  else .ok { limits, pending := [] }

/-- `verify` is the verifier of the tokens. -/
def validateOffer (c : ResumeCoordinator) (offer : ResumeOffer) (expectedPeer : PeerId)
    (nowUnixMs : UInt64) (verify : ResumeOffer → Bool) : SessionContinuity :=
  if offer.peerId ≠ expectedPeer then .newSession .peerMismatch
  else if offer.expiresAtUnixMs ≤ nowUnixMs then .newSession .tokenExpired
  else if offer.token = [] ∨ c.limits.maxTokenBytes < offer.token.length ∨
      c.limits.maxChannels < offer.channelCursors.length ∨
      offer.channelCursors.any fun cursor => c.limits.maxCursorBytes < cursor.cursor.length then
    .newSession .limitsExceeded
  -- The verifier is asked last and about offers of bounded size only.
  else if !verify offer then .newSession .tokenRejected
  else .resumed offer.previousSessionId

def recordUnacknowledged (c : ResumeCoordinator) (requestId : UInt64) (replay : RequestReplay) :
    Except ResumeError Unit × ResumeCoordinator :=
  -- A duplicate is reported as such also when there is no room.
  if c.pending.any fun request => request.id = requestId then
    (.error ResumeErrorKind.duplicateRequest.error, c)
  else if c.limits.maxPendingRequests ≤ c.pending.length then
    (.error ResumeErrorKind.tooManyPendingRequests.error, c)
  else (.ok (), { c with pending := c.pending ++ [⟨requestId, replay⟩] })

def acknowledge (c : ResumeCoordinator) (requestId : UInt64) : Bool × ResumeCoordinator :=
  match c.pending.findIdx? fun request => request.id = requestId with
  | none => (false, c)
  | some index => (true, { c with pending := c.pending.eraseIdx index })

/-- One turn of the loop for each request that is popped. -/
def replayLoop (continuity : SessionContinuity) : List PendingRequest → ReplayPlan → ReplayPlan
  | [], plan => plan
  | request :: pending, plan =>
    replayLoop continuity pending <| match continuity, request.replay with
      | .resumed _, .idempotent =>
        { plan with automaticallyRetry := plan.automaticallyRetry ++ [request.id] }
      | _, .applicationDecides =>
        { plan with applicationDecision := plan.applicationDecision ++ [request.id] }
      | _, _ => { plan with failWithoutRetry := plan.failWithoutRetry ++ [request.id] }

def planAfterReconnect (c : ResumeCoordinator) (continuity : SessionContinuity) :
    ReplayPlan × ResumeCoordinator :=
  (replayLoop continuity c.pending {}, { c with pending := [] })

def pendingRequests (c : ResumeCoordinator) : ℕ := c.pending.length

end ResumeCoordinator

inductive ResumeCall where
  | recordUnacknowledged (requestId : UInt64) (replay : RequestReplay)
  | acknowledge (requestId : UInt64)
  | planAfterReconnect (continuity : SessionContinuity)
deriving DecidableEq, Repr

inductive ResumeReply where
  | recorded (result : Except ResumeError Unit)
  | acknowledged (found : Bool)
  | planned (plan : ReplayPlan)

/-- The three lists of a plan. -/
inductive ReplayBucket where
  | automaticallyRetry | applicationDecision | failWithoutRetry
deriving DecidableEq, Repr

def ReplayPlan.bucket (plan : ReplayPlan) : ReplayBucket → List UInt64
  | .automaticallyRetry => plan.automaticallyRetry
  | .applicationDecision => plan.applicationDecision
  | .failWithoutRetry => plan.failWithoutRetry

/-- The list that a request goes to. -/
def ReplayBucket.of (continuity : SessionContinuity) (replay : RequestReplay) : ReplayBucket :=
  match continuity, replay with
  | .resumed _, .idempotent => .automaticallyRetry
  | _, .applicationDecides => .applicationDecision
  | _, _ => .failWithoutRetry

theorem ReplayBucket.of_eq_automaticallyRetry (continuity : SessionContinuity)
    (replay : RequestReplay) : ReplayBucket.of continuity replay = .automaticallyRetry ↔
      replay = .idempotent ∧ ∃ previous, continuity = .resumed previous := by
  cases continuity <;> cases replay <;> simp [ReplayBucket.of]

theorem ReplayBucket.of_eq_applicationDecision (continuity : SessionContinuity)
    (replay : RequestReplay) : ReplayBucket.of continuity replay = .applicationDecision ↔
      replay = .applicationDecides := by
  cases continuity <;> cases replay <;> simp [ReplayBucket.of]

namespace ResumeCoordinator

def step (c : ResumeCoordinator) : ResumeCall → ResumeReply × ResumeCoordinator
  | .recordUnacknowledged requestId replay =>
    (.recorded (c.recordUnacknowledged requestId replay).1,
      (c.recordUnacknowledged requestId replay).2)
  | .acknowledge requestId =>
    (.acknowledged (c.acknowledge requestId).1, (c.acknowledge requestId).2)
  | .planAfterReconnect continuity =>
    (.planned (c.planAfterReconnect continuity).1, (c.planAfterReconnect continuity).2)

abbrev ResumeEvent := Event ResumeCoordinator ResumeCall ResumeReply

theorem bucket_replayLoop (continuity : SessionContinuity) (pending : List PendingRequest)
    (plan : ReplayPlan) (bucket : ReplayBucket) :
    (replayLoop continuity pending plan).bucket bucket = plan.bucket bucket ++
      (pending.filter fun r => ReplayBucket.of continuity r.replay = bucket).map
        PendingRequest.id := by
  induction pending generalizing plan with
  | nil => exact (List.append_nil _).symm
  | cons request pending ih =>
    unfold replayLoop
    rw [ih]
    -- One list grows by one, the other two stay.
    cases continuity <;> cases hreplay : request.replay <;> cases bucket <;>
      simp [ReplayPlan.bucket, ReplayBucket.of, hreplay]

/-- Where the keys are distinct, the first element with a key is the only one. -/
theorem eraseIdx_findIdx?_eq_filter {α κ : Type*} [DecidableEq κ] (key : α → κ) {list : List α}
    (hdistinct : (list.map key).Nodup) {k : κ} {index : ℕ}
    (hfound : (list.findIdx? fun a => key a = k) = some index) :
    list.eraseIdx index = (list.filter fun a => key a ≠ k) ∧
      (list.filter fun a => key a = k).map key = [k] := by
  induction list generalizing index with
  | nil => cases hfound
  | cons a list ih =>
    rw [List.map_cons, List.nodup_cons] at hdistinct
    rw [List.findIdx?_cons] at hfound
    by_cases ha : key a = k
    -- The key is found at the head, and by distinctness nowhere behind it.
    · have hrest : ∀ b ∈ list, key b ≠ k := by
        intro b hb hkey
        exact hdistinct.1 (List.mem_map.mpr ⟨b, hb, hkey.trans ha.symm⟩)
      have hindex : 0 = index := by simpa [ha] using hfound
      have hkeep : (list.filter fun b => key b ≠ k) = list := by
        rw [List.filter_eq_self]
        simpa using hrest
      have hnone : (list.filter fun b => key b = k) = [] := by
        rw [List.filter_eq_nil_iff]
        simpa using hrest
      subst hindex
      constructor
      · rw [List.filter_cons, if_neg (by simp [ha]), hkeep]
        rfl
      · rw [List.filter_cons, if_pos (by simp [ha]), hnone, ← ha]
        rfl
    -- The head stays, and the rest erases the same key one place earlier.
    · obtain ⟨index', hfound', rfl⟩ :
          ∃ i, (list.findIdx? fun b => key b = k) = some i ∧ i+1 = index := by
        simpa [ha] using hfound
      obtain ⟨herase, hmap⟩ := ih hdistinct.2 hfound'
      constructor
      · rw [List.filter_cons, if_pos (by simp [ha]), ← herase]
        rfl
      · rw [List.filter_cons, if_neg (by simp [ha]), hmap]

theorem acknowledge_cases (c : ResumeCoordinator) (requestId : UInt64)
    (hdistinct : (c.pending.map PendingRequest.id).Nodup) :
    c.acknowledge requestId = (false, c) ∨
    (c.acknowledge requestId =
        (true, { c with pending := c.pending.filter fun r => r.id ≠ requestId }) ∧
      (c.pending.filter fun r => r.id = requestId).map PendingRequest.id = [requestId]) := by
  unfold acknowledge
  cases hfound : c.pending.findIdx? fun request => request.id = requestId with
  | none => exact Or.inl rfl
  | some index =>
    obtain ⟨herase, hmap⟩ := eraseIdx_findIdx?_eq_filter PendingRequest.id hdistinct hfound
    refine Or.inr ⟨?_, hmap⟩
    dsimp only
    rw [herase]

theorem recordUnacknowledged_cases (c : ResumeCoordinator) (requestId : UInt64)
    (replay : RequestReplay) :
    (∃ kind : ResumeErrorKind,
      c.recordUnacknowledged requestId replay = (.error kind.error, c)) ∨
    (requestId ∉ c.pending.map PendingRequest.id ∧
      c.pending.length < c.limits.maxPendingRequests ∧
      c.recordUnacknowledged requestId replay =
        (.ok (), { c with pending := c.pending ++ [⟨requestId, replay⟩] })) := by
  unfold recordUnacknowledged
  split_ifs with hany hfull
  · exact Or.inl ⟨.duplicateRequest, rfl⟩
  · exact Or.inl ⟨.tooManyPendingRequests, rfl⟩
  · refine Or.inr ⟨?_, not_le.mp hfull, rfl⟩
    simpa using hany

/-- The bound and the distinct ids that every coordinator keeps. -/
structure WellFormed (limits : ResumeLimits) (c : ResumeCoordinator) : Prop where
  limits_eq : c.limits = limits
  distinct : (c.pending.map PendingRequest.id).Nodup
  bounded : c.pending.length ≤ limits.maxPendingRequests

theorem WellFormed.step {limits : ResumeLimits} {c : ResumeCoordinator} (h : WellFormed limits c)
    (call : ResumeCall) : WellFormed limits (c.step call).2 := by
  cases call with
  | recordUnacknowledged requestId replay =>
    rcases recordUnacknowledged_cases c requestId replay with ⟨kind, hrefused⟩ | ⟨hnew, hroom, hok⟩
    · rw [ResumeCoordinator.step, hrefused]
      exact h
    · rw [ResumeCoordinator.step, hok]
      refine ⟨h.limits_eq, ?_, ?_⟩
      · rw [List.map_append, List.nodup_append]
        refine ⟨h.distinct, List.pairwise_singleton _ _, ?_⟩
        intro a ha b hb hab
        obtain rfl := List.mem_singleton.mp hb
        exact hnew (hab ▸ ha)
      · rw [List.length_append, ← h.limits_eq]
        exact hroom
  | acknowledge requestId =>
    rcases acknowledge_cases c requestId h.distinct with hnone | ⟨hfound, -⟩
    · rw [ResumeCoordinator.step, hnone]
      exact h
    · rw [ResumeCoordinator.step, hfound]
      refine ⟨h.limits_eq, ?_, (List.length_filter_le _ _).trans h.bounded⟩
      exact h.distinct.sublist (List.filter_sublist.map _)
  -- A plan leaves nothing behind.
  | planAfterReconnect continuity => exact ⟨h.limits_eq, List.nodup_nil, Nat.zero_le _⟩

/-- An offer resumes its session exactly when it is fresh, of the expected peer, within the limits
and verified. -/
theorem validateOffer_eq_resumed (c : ResumeCoordinator) (offer : ResumeOffer)
    (expectedPeer : PeerId) (nowUnixMs : UInt64) (verify : ResumeOffer → Bool)
    (previous : SessionId) :
    c.validateOffer offer expectedPeer nowUnixMs verify = .resumed previous ↔
      offer.peerId = expectedPeer ∧ nowUnixMs < offer.expiresAtUnixMs ∧
      (offer.token ≠ [] ∧ offer.token.length ≤ c.limits.maxTokenBytes ∧
        offer.channelCursors.length ≤ c.limits.maxChannels ∧
        ∀ cursor ∈ offer.channelCursors, cursor.cursor.length ≤ c.limits.maxCursorBytes) ∧
      verify offer = true ∧ offer.previousSessionId = previous := by
  have hrefuse : ∀ {p : Prop} [Decidable p] {reason : NewSessionReason} {x : SessionContinuity},
      (if p then .newSession reason else x) = .resumed previous ↔ ¬p ∧ x = .resumed previous := by
    intro p _ reason x
    by_cases hp : p
    · simp [hp]
    · simp [hp]
  unfold validateOffer
  rw [hrefuse, hrefuse, hrefuse, hrefuse, not_not, UInt64.not_le]
  simp [not_or]

end ResumeCoordinator
end MutsukiLink
