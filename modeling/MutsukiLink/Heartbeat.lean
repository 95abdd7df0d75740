import MutsukiLink.RunHistory
import MutsukiLink.SaturatingWords
import MutsukiLink.SessionModel

/-! The heartbeat controller (`liveness.rs`) and what its calls say about the peer. The controller
keeps one state and the time of the last sign of life; the verdict on the peer is a function of all
the calls so far. -/
namespace MutsukiLink
open RunHistory

inductive ConnectionActivityProfile where
  | idle | active | mobile | background | localIpc
deriving DecidableEq, Repr

structure HeartbeatPolicy where
  idleIntervalMs : UInt64 := 30000
  activeIntervalMs : UInt64 := 10000
  mobileIntervalMs : UInt64 := 45000
  backgroundIntervalMs : UInt64 := 120000
  localIpcIntervalMs : UInt64 := 60000
  unreachableAfterMs : UInt64 := 90000
  deadAfterMs : UInt64 := 180000
deriving DecidableEq, Repr

namespace HeartbeatPolicy

def isValid (p : HeartbeatPolicy) : Bool :=
  0 < p.idleIntervalMs && 0 < p.activeIntervalMs && 0 < p.mobileIntervalMs &&
    0 < p.backgroundIntervalMs && 0 < p.localIpcIntervalMs &&
    p.unreachableAfterMs < p.deadAfterMs && 0 < p.unreachableAfterMs

def interval (p : HeartbeatPolicy) : ConnectionActivityProfile → UInt64
  | .idle => p.idleIntervalMs
  | .active => p.activeIntervalMs
  | .mobile => p.mobileIntervalMs
  | .background => p.backgroundIntervalMs
  | .localIpc => p.localIpcIntervalMs

end HeartbeatPolicy

inductive HeartbeatAction where
  | none | sendProbe | suppressedByTransport
  | stateChanged (state : LivenessState)
deriving DecidableEq, Repr

structure HeartbeatController where
  policy : HeartbeatPolicy
  lastLivenessUnixMs : UInt64
  lastTransportAckUnixMs : Option UInt64
  nextProbeUnixMs : UInt64
  state : LivenessState
  paused : Bool
deriving DecidableEq, Repr

namespace HeartbeatController

def new (policy : HeartbeatPolicy) (nowUnixMs : UInt64) : Except String HeartbeatController :=
  if !policy.isValid then .error "heartbeat intervals must be positive and ordered"
  else .ok ⟨policy, nowUnixMs, none, nowUnixMs.saturatingAdd policy.idleIntervalMs, .healthy, false⟩

def pause (c : HeartbeatController) : HeartbeatController := { c with paused := true }

def resume (c : HeartbeatController) (nowUnixMs : UInt64) (profile : ConnectionActivityProfile) :
    HeartbeatController :=
  { c with
    paused := false
    nextProbeUnixMs := nowUnixMs.saturatingAdd (c.policy.interval profile) }

def observeLiveness (c : HeartbeatController) (nowUnixMs : UInt64) : HeartbeatController :=
  { c with lastLivenessUnixMs := nowUnixMs, state := .healthy }

def observeTransportAck (c : HeartbeatController) (nowUnixMs : UInt64) : HeartbeatController :=
  { c with lastTransportAckUnixMs := some nowUnixMs }.observeLiveness nowUnixMs

def observeProbeAck (c : HeartbeatController) (nowUnixMs : UInt64) : HeartbeatController :=
  c.observeLiveness nowUnixMs

def observeLatency (c : HeartbeatController) (nowUnixMs : UInt64)
    (roundTripMillis elevatedAtMillis : UInt32) : HeartbeatAction × HeartbeatController :=
  -- A sample is a sign of life, however late it is.
  let c := { c with lastLivenessUnixMs := nowUnixMs }
  let next := if elevatedAtMillis ≤ roundTripMillis then .latencyElevated else .healthy
  if next = c.state then (.none, c) else (.stateChanged next, { c with state := next })

def observePeerClose (c : HeartbeatController) : HeartbeatAction × HeartbeatController :=
  (.stateChanged .peerClosed, { c with state := .peerClosed })

/-- The state that a tick compares with the one it finds. -/
def nextState (c : HeartbeatController) (nowUnixMs : UInt64) : LivenessState :=
  let silence := nowUnixMs.saturatingSub c.lastLivenessUnixMs
  if c.policy.deadAfterMs ≤ silence then .dead
  else if c.policy.unreachableAfterMs ≤ silence then .temporarilyUnreachable
  else .healthy

def tick (c : HeartbeatController) (nowUnixMs : UInt64) (profile : ConnectionActivityProfile) :
    HeartbeatAction × HeartbeatController :=
  -- A close is final for the tick, but not for the observers.
  if c.paused ∨ c.state = .peerClosed then (.none, c)
  else
    let nextState := c.nextState nowUnixMs
    -- A change of the state comes before a probe that is due.
    if nextState ≠ c.state then (.stateChanged nextState, { c with state := nextState })
    else if nowUnixMs < c.nextProbeUnixMs then (.none, c)
    else
      let interval := c.policy.interval profile
      let action := if c.lastTransportAckUnixMs.any (nowUnixMs.saturatingSub · ≤ interval) then
        HeartbeatAction.suppressedByTransport else .sendProbe
      (action, { c with nextProbeUnixMs := nowUnixMs.saturatingAdd interval })

end HeartbeatController

inductive HeartbeatCall where
  | observeTransportAck (nowUnixMs : UInt64)
  | observeProbeAck (nowUnixMs : UInt64)
  | observeLatency (nowUnixMs : UInt64) (roundTripMillis elevatedAtMillis : UInt32)
  | observePeerClose
  | pause
  | resume (nowUnixMs : UInt64) (profile : ConnectionActivityProfile)
  | tick (nowUnixMs : UInt64) (profile : ConnectionActivityProfile)
deriving DecidableEq, Repr

namespace HeartbeatController

def step (c : HeartbeatController) : HeartbeatCall → Option HeartbeatAction × HeartbeatController
  | .observeTransportAck now => (none, c.observeTransportAck now)
  | .observeProbeAck now => (none, c.observeProbeAck now)
  | .observeLatency now roundTrip elevatedAt =>
    let r := c.observeLatency now roundTrip elevatedAt
    (some r.1, r.2)
  | .observePeerClose =>
    let r := c.observePeerClose
    (some r.1, r.2)
  | .pause => (none, c.pause)
  | .resume now profile => (none, c.resume now profile)
  | .tick now profile =>
    let r := c.tick now profile
    (some r.1, r.2)

end HeartbeatController

/-- What a call says about the peer: a sign of life at some time, with an elevated latency or not,
or its close. -/
inductive PeerSignal where
  | heard (unixMs : UInt64) (elevated : Bool)
  | closed
deriving DecidableEq, Repr

def HeartbeatCall.signal : HeartbeatCall → Option PeerSignal
  | .observeTransportAck now => some (.heard now false)
  | .observeProbeAck now => some (.heard now false)
  | .observeLatency now roundTrip elevatedAt => some (.heard now (elevatedAt ≤ roundTrip))
  | .observePeerClose => some .closed
  | _ => none

def PeerSignal.sign : PeerSignal → Option (UInt64 × Bool)
  | .heard unixMs elevated => some (unixMs, elevated)
  | .closed => none

/-- The signals of a history, the latest one last. -/
def signals (calls : List HeartbeatCall) : List PeerSignal := calls.filterMap HeartbeatCall.signal

/-- The latest sign of life; the creation of the controller counts as one. -/
def lastSign (created : UInt64) (calls : List HeartbeatCall) : UInt64 × Bool :=
  (((signals calls).filterMap PeerSignal.sign).getLast?).getD (created, false)

def silence (created : UInt64) (calls : List HeartbeatCall) (now : UInt64) : ℕ :=
  now.toNat-(lastSign created calls).1.toNat

/-- The state that the whole history asks for at a time. -/
def verdict (policy : HeartbeatPolicy) (created : UInt64) (calls : List HeartbeatCall)
    (now : UInt64) : LivenessState :=
  if .closed ∈ signals calls then .peerClosed
  else if policy.deadAfterMs.toNat ≤ silence created calls now then .dead
  else if policy.unreachableAfterMs.toNat ≤ silence created calls now then .temporarilyUnreachable
  else if (lastSign created calls).2 then .latencyElevated
  else .healthy

/-- No sign of life came after the close of the peer; and without a close the latest sign of life
was no elevated latency, unless it is so old that the peer counts as unreachable. -/
def Undisturbed (policy : HeartbeatPolicy) (created : UInt64) (calls : List HeartbeatCall)
    (now : UInt64) : Prop :=
  (.closed ∈ signals calls → (signals calls).getLast? = some .closed) ∧
  (.closed ∉ signals calls → (lastSign created calls).2 = true →
    policy.unreachableAfterMs.toNat ≤ silence created calls now)

namespace HeartbeatController

variable {c : HeartbeatController} {policy : HeartbeatPolicy} {created : UInt64}

/-- What the controller remembers of its history: the time of the latest sign of life, and whether
the latest signal was a close. -/
structure Remembers (policy : HeartbeatPolicy) (created : UInt64) (calls : List HeartbeatCall)
    (c : HeartbeatController) : Prop where
  policy_eq : c.policy = policy
  last_eq : c.lastLivenessUnixMs = (lastSign created calls).1
  closed_iff : c.state = .peerClosed ↔ (signals calls).getLast? = some .closed

theorem signals_concat (calls : List HeartbeatCall) (call : HeartbeatCall) :
    signals (calls ++ [call]) = signals calls ++ call.signal.toList := by
  rw [signals, List.filterMap_append]
  cases h : call.signal <;> simp [signals, h]

/-- A call without a signal changes nothing that is remembered. -/
theorem Remembers.silent {calls : List HeartbeatCall} (h : Remembers policy created calls c)
    {call : HeartbeatCall} (hcall : call.signal = none) {c' : HeartbeatController}
    (hpolicy : c'.policy = c.policy) (hlast : c'.lastLivenessUnixMs = c.lastLivenessUnixMs)
    (hstate : c'.state = .peerClosed ↔ c.state = .peerClosed) :
    Remembers policy created (calls ++ [call]) c' := by
  have hsignals : signals (calls ++ [call]) = signals calls := by
    rw [signals_concat, hcall]
    exact List.append_nil _
  refine ⟨hpolicy.trans h.policy_eq, ?_, ?_⟩
  · rw [hlast, h.last_eq, lastSign, lastSign, hsignals]
  · rw [hstate, h.closed_iff, hsignals]

/-- A sign of life sets the time and leaves any state but the closed one. -/
theorem Remembers.sign {calls : List HeartbeatCall} (h : Remembers policy created calls c)
    {call : HeartbeatCall} {now : UInt64} {elevated : Bool}
    (hcall : call.signal = some (.heard now elevated)) {c' : HeartbeatController}
    (hpolicy : c'.policy = c.policy) (hlast : c'.lastLivenessUnixMs = now)
    (hstate : c'.state ≠ .peerClosed) : Remembers policy created (calls ++ [call]) c' := by
  have hsignals : signals (calls ++ [call]) = signals calls ++ [.heard now elevated] := by
    rw [signals_concat, hcall]
    rfl
  refine ⟨hpolicy.trans h.policy_eq, ?_, ?_⟩
  · rw [hlast, lastSign, hsignals, List.filterMap_append]
    simp [PeerSignal.sign]
  · rw [hsignals]
    simp [hstate]

theorem Remembers.close {calls : List HeartbeatCall} (h : Remembers policy created calls c) :
    Remembers policy created (calls ++ [.observePeerClose]) c.observePeerClose.2 := by
  have hsignals : signals (calls ++ [.observePeerClose]) = signals calls ++ [.closed] :=
    signals_concat _ _
  refine ⟨h.policy_eq, ?_, ?_⟩
  · rw [lastSign, hsignals, List.filterMap_append]
    simpa [PeerSignal.sign, observePeerClose, lastSign] using h.last_eq
  · rw [hsignals]
    simp [observePeerClose]

/-- An unpaused tick decides by the silence, unless it finds the closed state. -/
theorem tick_state (hpaused : c.paused = false) (now : UInt64)
    (profile : ConnectionActivityProfile) :
    (c.tick now profile).2.state =
      if c.state = .peerClosed then .peerClosed else c.nextState now := by
  by_cases hclosed : c.state = .peerClosed
  · rw [tick, if_pos (Or.inr hclosed), if_pos hclosed]
    exact hclosed
  · have hgo : ¬(c.paused = true ∨ c.state = .peerClosed) := by simp [hpaused, hclosed]
    rw [tick, if_neg hgo, if_neg hclosed]
    by_cases hsame : c.nextState now = c.state
    · simp only [hsame, ne_eq, not_true_eq_false, if_false]
      split <;> rfl
    · simp only [ne_eq, hsame, not_false_eq_true, if_true]

theorem next_state_ne_closed (c : HeartbeatController) (now : UInt64) :
    c.nextState now ≠ .peerClosed := by
  unfold nextState
  dsimp only
  split
  · simp
  · split <;> simp

theorem tick_frame (c : HeartbeatController) (now : UInt64) (profile : ConnectionActivityProfile) :
    (c.tick now profile).2.policy = c.policy ∧
      (c.tick now profile).2.lastLivenessUnixMs = c.lastLivenessUnixMs ∧
      (c.tick now profile).2.paused = c.paused := by
  unfold tick
  split
  · exact ⟨rfl, rfl, rfl⟩
  · dsimp only
    split
    · exact ⟨rfl, rfl, rfl⟩
    · split
      · exact ⟨rfl, rfl, rfl⟩
      · exact ⟨rfl, rfl, rfl⟩

/-- Whether the state changes or is the same already, it is the one for the latency. -/
theorem observe_latency_eq (c : HeartbeatController) (now : UInt64)
    (roundTrip elevatedAt : UInt32) :
    (c.observeLatency now roundTrip elevatedAt).2 = { c with
      lastLivenessUnixMs := now
      state := if elevatedAt ≤ roundTrip then .latencyElevated else .healthy } := by
  unfold observeLatency
  dsimp only
  generalize (if elevatedAt ≤ roundTrip then LivenessState.latencyElevated else .healthy) = next
  split
  · next hsame => rw [hsame]
  · rfl

theorem Remembers.step {calls : List HeartbeatCall} (h : Remembers policy created calls c)
    (call : HeartbeatCall) :
    Remembers policy created (calls ++ [call]) (HeartbeatController.step c call).2 := by
  cases call with
  | observeTransportAck now => exact h.sign rfl rfl rfl (by simp [HeartbeatController.step,
      observeTransportAck, observeLiveness])
  | observeProbeAck now => exact h.sign rfl rfl rfl (by simp [HeartbeatController.step,
      observeProbeAck, observeLiveness])
  | observeLatency now roundTrip elevatedAt =>
    have heq := c.observe_latency_eq now roundTrip elevatedAt
    show Remembers policy created _ (c.observeLatency now roundTrip elevatedAt).2
    rw [heq]
    refine h.sign rfl rfl rfl ?_
    split <;> simp
  | observePeerClose => exact h.close
  | pause => exact h.silent rfl rfl rfl Iff.rfl
  | resume now profile => exact h.silent rfl rfl rfl Iff.rfl
  | tick now profile =>
    have hframe := c.tick_frame now profile
    refine h.silent rfl hframe.1 hframe.2.1 ?_
    show (c.tick now profile).2.state = .peerClosed ↔ _
    cases hpaused : c.paused with
    | true => rw [tick, if_pos (Or.inl hpaused)]
    | false =>
      rw [tick_state hpaused]
      split
      · next hclosed => simp [hclosed]
      · next hopen => simp [hopen, c.next_state_ne_closed now]

theorem eq_of_new {now : UInt64} (hnew : new policy now = .ok c) : policy.isValid = true ∧
    c = ⟨policy, now, none, now.saturatingAdd policy.idleIntervalMs, .healthy, false⟩ := by
  unfold new at hnew
  split at hnew
  · cases hnew
  · next hvalid => exact ⟨by simpa using hvalid, (Except.ok.inj hnew).symm⟩

theorem remembers_run (hnew : new policy created = .ok c) (calls : List HeartbeatCall) :
    Remembers policy created calls (run HeartbeatController.step c calls) := by
  obtain ⟨-, rfl⟩ := eq_of_new hnew
  induction calls using List.reverseRecOn with
  | nil => exact ⟨rfl, rfl, by simp [signals]⟩
  | append_singleton calls call ih =>
    rw [run_concat]
    exact ih.step call

/-- What the silence alone says. -/
theorem Remembers.next_state {calls : List HeartbeatCall} (h : Remembers policy created calls c)
    (now : UInt64) : c.nextState now =
      if policy.deadAfterMs.toNat ≤ silence created calls now then .dead
      else if policy.unreachableAfterMs.toNat ≤ silence created calls now then
        .temporarilyUnreachable
      else .healthy := by
  simp only [nextState, UInt64.le_iff_toNat_le, UInt64.toNat_saturatingSub, h.policy_eq, h.last_eq]
  rfl

/-- After a tick that is not paused the state is the one that the whole history asks for exactly
when the history is undisturbed, whatever the order of the calls and of their times. -/
theorem liveness_verdict_iff (hnew : new policy created = .ok c) (calls : List HeartbeatCall)
    (now : UInt64) (profile : ConnectionActivityProfile)
    (hpaused : (run HeartbeatController.step c calls).paused = false) :
    (run HeartbeatController.step c (calls ++ [.tick now profile])).state =
        verdict policy created calls now ↔
      Undisturbed policy created calls now := by
  have hinv := remembers_run hnew calls
  obtain ⟨hvalid, -⟩ := eq_of_new hnew
  have horder : policy.unreachableAfterMs.toNat < policy.deadAfterMs.toNat := by
    simp only [HeartbeatPolicy.isValid, Bool.and_eq_true, decide_eq_true_eq] at hvalid
    exact UInt64.lt_iff_toNat_lt.mp hvalid.1.2
  rw [run_concat]
  generalize run HeartbeatController.step c calls = s at hinv hpaused
  show (s.tick now profile).2.state = _ ↔ _
  have hiff := hinv.closed_iff
  rw [tick_state hpaused, verdict, Undisturbed]
  by_cases hclosed : .closed ∈ signals calls
  · -- The verdict is final; the controller keeps to it while no sign of life follows.
    simp only [hclosed, if_true, true_implies, not_true_eq_false, false_implies, and_true]
    constructor
    · intro h
      by_contra hlast
      rw [if_neg (mt hiff.mp hlast)] at h
      exact s.next_state_ne_closed now h
    · intro hlast
      rw [if_pos (hiff.mpr hlast)]
  · -- Without a close both sides go by the silence, and only the fresh sign of life differs.
    have hlast : (signals calls).getLast? ≠ some .closed := fun h =>
      hclosed (List.mem_of_getLast? h)
    rw [if_neg (mt hiff.mp hlast), hinv.next_state]
    simp only [hclosed, if_false, false_implies, true_and, not_false_eq_true, true_implies]
    by_cases hdead : policy.deadAfterMs.toNat ≤ silence created calls now
    · rw [if_pos hdead, if_pos hdead]
      simp only [true_iff]
      omega
    · rw [if_neg hdead, if_neg hdead]
      by_cases hunreachable : policy.unreachableAfterMs.toNat ≤ silence created calls now
      · simp [hunreachable]
      · rw [if_neg hunreachable, if_neg hunreachable]
        cases (lastSign created calls).2 <;> simp [hunreachable]

def defaultHeartbeat : HeartbeatController := ⟨{}, 0, none, 30000, .healthy, false⟩

/-- An acknowledgement, a tick in time, an elevated latency and a long silence after it. -/
theorem liveness_verdict_silence :
    (run HeartbeatController.step defaultHeartbeat
      ([.observeTransportAck 5, .tick 10 .idle, .observeLatency 20 250 200] ++
        [.tick 100000 .idle])).state =
      verdict {} 0 [.observeTransportAck 5, .tick 10 .idle, .observeLatency 20 250 200] 100000 :=
  (liveness_verdict_iff (c := defaultHeartbeat) rfl _ 100000 .idle rfl).mpr
    ⟨by decide, by decide⟩

/-- A tick in time clears an elevated latency, and a late acknowledgement revives a closed peer. -/
theorem liveness_verdict_lost :
    new {} 0 = .ok defaultHeartbeat ∧
    ((run HeartbeatController.step defaultHeartbeat
        ([.observeLatency 20 250 200] ++ [.tick 30 .idle])).state = .healthy ∧
      verdict {} 0 [.observeLatency 20 250 200] 30 = .latencyElevated) ∧
    ((run HeartbeatController.step defaultHeartbeat
        ([.observePeerClose, .observeProbeAck 20] ++ [.tick 30 .idle])).state = .healthy ∧
      verdict {} 0 [.observePeerClose, .observeProbeAck 20] 30 = .peerClosed) := by
  refine ⟨rfl, ⟨by decide, by decide⟩, by decide, by decide⟩

end HeartbeatController

end MutsukiLink
