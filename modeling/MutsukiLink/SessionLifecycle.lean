import MutsukiLink.MuxDelivery
import MutsukiLink.SessionChannels

/-! The life of a session over whole runs: it ends once and for all, it says so once, and a session
that was closed gracefully has let every accepted frame go. -/
namespace MutsukiLink
open WireBytes
open Std (ExtTreeMap ExtTreeSet)

abbrev SessionRecord := RunHistory.Event Session SessionCall SessionReply

def SessionState.Terminal (state : SessionState) : Prop := state = .closed ∨ state = .failed

instance (state : SessionState) : Decidable state.Terminal :=
  inferInstanceAs (Decidable (_ ∨ _))

namespace SessionRecord

def acceptedControl (e : SessionRecord) : List Bytes :=
  match e.input, e.reply with
  | .dataPlane (.enqueueControl payload), .done (.ok _) => [payload]
  | _, _ => []

def emittedControl (e : SessionRecord) : List Bytes :=
  match e.reply with
  | .outbound (some (.control payload)) => [payload]
  | _ => []

def acceptedData (id : ChannelId) (e : SessionRecord) : List Envelope :=
  match e.input, e.reply with
  | .dataPlane (.enqueue envelope), .done (.ok _) =>
    if envelope.channelId = id then [envelope] else []
  | .dataPlane (.enqueueDiscardable envelope), .admission (.ok .enqueued) =>
    if envelope.channelId = id then [envelope] else []
  | _, _ => []

def emittedData (id : ChannelId) (e : SessionRecord) : List Envelope :=
  match e.reply with
  | .outbound (some (.data envelope)) => if envelope.channelId = id then [envelope] else []
  | _ => []

/-- What a successful `cancel_channel` or `close_channel` finds queued on the channel. -/
def discardedData (id : ChannelId) (e : SessionRecord) : List Envelope :=
  match e.input, e.reply with
  | .dataPlane (.cancelChannel channel), .removed (.ok _) =>
    if channel = id then e.pre.multiplexer.queueOf id else []
  | .closeChannel channel, .removed (.ok _) =>
    if channel = id then e.pre.multiplexer.queueOf id else []
  | _, _ => []

end SessionRecord

def SessionEvent.isTerminalState : SessionEvent → Bool
  | .stateChanged .closed => true
  | .stateChanged .failed => true
  | _ => false

def SessionEvent.isClosed : SessionEvent → Bool
  | .closed _ => true
  | _ => false

def SessionReply.failed : SessionReply → Bool
  | .bound (.error _) => true
  | .opened (.error _) => true
  | .removed (.error _) => true
  | .done (.error _) => true
  | .admission (.error _) => true
  | .subscribed (.error _) => true
  | _ => false

namespace Multiplexer

/-- Nothing waits in any queue. -/
structure Idle (m : Multiplexer) : Prop where
  control : m.control = []
  data : ∀ id, m.queueOf id = []

theorem RepInv.idle_iff {m : Multiplexer} (h : m.RepInv) : m.Idle ↔ m.pendingFrames = 0 := by
  have hpending : m.pendingFrames = m.control.length+m.queued := h.pending_eq
  constructor
  · intro hidle
    have hqueued : m.queued = 0 := by
      refine (OrderedMap.sumBy_eq_zero_iff _ _).mpr fun id state hs => ?_
      rw [← queueOf_live hs, hidle.data id, List.length_nil]
    rw [hpending, hidle.control, hqueued, List.length_nil]
  · intro hzero
    rw [hpending, Nat.add_eq_zero_iff] at hzero
    refine ⟨List.length_eq_zero_iff.mp hzero.1, fun id => ?_⟩
    cases hs : m.channels[id]? with
    | none => exact queueOf_dead hs
    | some state =>
      rw [queueOf_live hs]
      exact List.length_eq_zero_iff.mp ((OrderedMap.sumBy_eq_zero_iff _ _).mp hzero.2 id state hs)

end Multiplexer

namespace Session
open RunHistory (event)
open SessionRecord

/-- The events that a call publishes on behalf of the session. -/
def publications (s : Session) : SessionCall → List SessionEvent
  | .updateQuality quality => if s.active then [.qualityChanged quality] else []
  | .reportContinuity continuity => if s.active then [.continuityChanged continuity] else []
  | .beginDrain => if s.state = .established then [.stateChanged .draining] else []
  | .finishDrain =>
    if s.state = .draining ∧ s.multiplexer.pendingFrames = 0 then
      [.stateChanged .closed, .closed .graceful]
    else []
  | .abort => if s.state.Terminal then [] else [.stateChanged .closed, .closed .localAbort]
  | .fail reason => if s.state.Terminal then [] else [.stateChanged .failed, .closed reason]
  | _ => []

theorem terminate_of_terminal {s : Session} (h : s.state.Terminal) (reason : CloseReason)
    (state : SessionState) : s.terminate reason state = s := if_pos h

theorem terminate_of_alive {s : Session} (h : ¬s.state.Terminal) (reason : CloseReason)
    (state : SessionState) : s.terminate reason state =
      Session.close { s with multiplexer := (s.multiplexer.discardAll).2 } reason state := if_neg h

theorem terminate_events (s : Session) (reason : CloseReason) (state : SessionState) :
    (s.terminate reason state).events = (if s.state.Terminal then []
      else [SessionEvent.stateChanged state, .closed reason]).foldl SessionEventBus.publish
        s.events := by
  by_cases h : s.state.Terminal
  · rw [terminate_of_terminal h, if_pos h]
    rfl
  · rw [terminate_of_alive h, if_neg h]
    rfl

/-- The bus after a call is the bus before it with the call's own events published on it. -/
theorem step_events (s : Session) {call : SessionCall} (h : ∀ op, call ≠ .events op) :
    (s.step call).2.events = (s.publications call).foldl SessionEventBus.publish s.events := by
  cases call with
  | openValidatedChannel v =>
    obtain ⟨e, heq⟩ | ⟨-, heq⟩ := openValidatedChannel_cases s v <;>
      simp only [step, heq, Prod.map_snd, id] <;> rfl
  | openLegacyValidatedChannel v =>
    obtain ⟨e, heq⟩ | ⟨-, -, -, -, heq⟩ := openLegacyValidatedChannel_cases s v <;>
      simp only [step, heq, Prod.map_snd, id] <;> rfl
  | closeChannel channelId =>
    obtain ⟨e, heq⟩ | ⟨state, -, heq⟩ := closeChannel_cases s channelId <;>
      simp only [step, heq, Prod.map_snd] <;> rfl
  | updateQuality quality =>
    simp only [step, updateQuality, ensureActive, publications]
    cases s.active <;> rfl
  | reportContinuity continuity =>
    simp only [step, reportContinuity, ensureActive, publications]
    cases s.active <;> rfl
  | beginDrain =>
    by_cases hstate : s.state = .established <;>
      simp [step, beginDrain, publications, hstate]
  | finishDrain =>
    by_cases hstate : s.state = .draining ∧ s.multiplexer.pendingFrames = 0
    · simp [step, finishDrain, publications, hstate, Session.close]
    · have hnot : s.state ≠ .draining ∨ s.multiplexer.pendingFrames ≠ 0 := not_and_or.mp hstate
      simp [step, finishDrain, publications, hstate, hnot]
  | abort => exact terminate_events s _ _
  | fail reason => exact terminate_events s _ _
  | dataPlane op =>
    cases op <;> simp only [step, dataPlane, whileActive, ensureActive, publications] <;>
      cases s.active <;> rfl
  | events op => exact absurd rfl (h op)

/-- How one call can move a session through its life. -/
inductive LifeStep (s s' : Session) (published : List SessionEvent) : Prop
  | stays (state : s'.state = s.state) (reason : s'.info.closeReason = s.info.closeReason)
      (state_quiet : published.filter SessionEvent.isTerminalState = [])
      (closed_quiet : published.filter SessionEvent.isClosed = [])
  | drains (established : s.state = .established) (state : s'.state = .draining)
      (reason : s'.info.closeReason = s.info.closeReason)
      (published_eq : published = [.stateChanged .draining])
  | finishes (draining : s.state = .draining) (empty : s.multiplexer.pendingFrames = 0)
      (state : s'.state = .closed) (reason : s'.info.closeReason = some .graceful)
      (multiplexer : s'.multiplexer = s.multiplexer)
      (published_eq : published = [.stateChanged .closed, .closed .graceful])
  | terminates {final : SessionState} {cause : CloseReason} (alive : ¬s.state.Terminal)
      (terminal : final = .closed ∧ cause = .localAbort ∨ final = .failed)
      (state : s'.state = final) (reason : s'.info.closeReason = some cause)
      (multiplexer : s'.multiplexer = (s.multiplexer.discardAll).2)
      (published_eq : published = [.stateChanged final, .closed cause])

theorem LifeStep.terminate (s : Session) {reason : CloseReason} {state : SessionState}
    (h : state = .closed ∧ reason = .localAbort ∨ state = .failed) :
    LifeStep s (s.terminate reason state) (if s.state.Terminal then []
      else [.stateChanged state, .closed reason]) := by
  by_cases hend : s.state.Terminal
  · rw [terminate_of_terminal hend, if_pos hend]
    exact .stays rfl rfl rfl rfl
  · rw [terminate_of_alive hend, if_neg hend]
    exact .terminates hend h rfl rfl rfl rfl

theorem LifeStep.dataPlane (s : Session) (op : DataPlaneOp) :
    LifeStep s (s.dataPlane op).2 [] := by
  cases op <;> simp only [Session.dataPlane, whileActive, ensureActive] <;> cases s.active <;>
    exact .stays rfl rfl rfl rfl

theorem lifeStep (s : Session) (call : SessionCall) :
    LifeStep s (s.step call).2 (s.publications call) := by
  -- Only draining, its end and a termination move the life of a session.
  cases call with
  | openValidatedChannel v =>
    obtain ⟨e, heq⟩ | ⟨-, heq⟩ := openValidatedChannel_cases s v <;>
      simp only [step, heq, Prod.map_snd, id] <;> exact .stays rfl rfl rfl rfl
  | openLegacyValidatedChannel v =>
    obtain ⟨e, heq⟩ | ⟨-, -, -, -, heq⟩ := openLegacyValidatedChannel_cases s v <;>
      simp only [step, heq, Prod.map_snd, id] <;> exact .stays rfl rfl rfl rfl
  | closeChannel channelId =>
    obtain ⟨e, heq⟩ | ⟨state, -, heq⟩ := closeChannel_cases s channelId <;>
      simp only [step, heq, Prod.map_snd] <;> exact .stays rfl rfl rfl rfl
  | updateQuality quality =>
    simp only [step, updateQuality, ensureActive, publications]
    cases s.active <;> exact .stays rfl rfl rfl rfl
  | reportContinuity continuity =>
    simp only [step, reportContinuity, ensureActive, publications]
    cases s.active <;> exact .stays rfl rfl rfl rfl
  | beginDrain =>
    simp only [step, beginDrain, publications]
    split
    · exact .stays rfl rfl rfl rfl
    · next hstate =>
      rw [if_pos (not_ne_iff.mp hstate)]
      exact .drains (not_ne_iff.mp hstate) rfl rfl rfl
  | finishDrain =>
    simp only [step, finishDrain, publications]
    split
    · next hnot =>
      rw [if_neg (not_and_or.mpr hnot)]
      exact .stays rfl rfl rfl rfl
    · next hready =>
      have hstate : s.state = .draining ∧ s.multiplexer.pendingFrames = 0 := by
        simpa only [ne_eq, not_or, not_not] using hready
      rw [if_pos hstate]
      exact .finishes hstate.1 hstate.2 rfl rfl rfl rfl
  | abort => exact .terminate s (.inl ⟨rfl, rfl⟩)
  | fail reason => exact .terminate s (.inr rfl)
  | dataPlane op => exact .dataPlane s op
  | events op => cases op <;> exact .stays rfl rfl rfl rfl

/-- A session that has ended stays as it ended. -/
theorem step_of_terminal {s : Session} (h : s.state.Terminal) (call : SessionCall) :
    (s.step call).2.state = s.state ∧
      (s.step call).2.info.closeReason = s.info.closeReason := by
  cases lifeStep s call with
  | stays state reason => exact ⟨state, reason⟩
  | drains established => rcases h with h | h <;> cases established.symm.trans h
  | finishes draining => rcases h with h | h <;> cases draining.symm.trans h
  | terminates alive => exact absurd h alive

theorem run_of_terminal {s : Session} (h : s.state.Terminal) (calls : List SessionCall) :
    (RunHistory.run step s calls).state = s.state ∧
      (RunHistory.run step s calls).info.closeReason = s.info.closeReason := by
  refine RunHistory.run_invariant step (I := fun t => t.state = s.state ∧
    t.info.closeReason = s.info.closeReason) ?_ ⟨rfl, rfl⟩ calls
  rintro t call ⟨hstate, hreason⟩
  obtain ⟨hstate', hreason'⟩ := step_of_terminal (hstate ▸ h) call
  exact ⟨hstate'.trans hstate, hreason'.trans hreason⟩

theorem run_not_established {s : Session} (h : s.state ≠ .established)
    (calls : List SessionCall) : (RunHistory.run step s calls).state ≠ .established := by
  refine RunHistory.run_invariant step (I := fun t => t.state ≠ .established) ?_ h calls
  intro t call ht
  cases lifeStep t call with
  | stays state => rwa [state]
  | drains established => exact absurd established ht
  | finishes _ _ state => simp [state]
  | terminates _ terminal state =>
    rw [state]
    rcases terminal with ⟨rfl, -⟩ | rfl <;> nofun

/-- The call reached the multiplexer as `op`, and both records tell of the same frames. -/
structure Forwards (s : Session) (call : SessionCall) (op : MuxOp) : Prop where
  multiplexer : (s.step call).2.multiplexer = (s.multiplexer.step op).2
  acceptedControl : SessionRecord.acceptedControl (event step s call) =
    MuxEvent.acceptedControl (event Multiplexer.step s.multiplexer op)
  emittedControl : SessionRecord.emittedControl (event step s call) =
    MuxEvent.emittedControl (event Multiplexer.step s.multiplexer op)
  droppedControl : MuxEvent.droppedControl (event Multiplexer.step s.multiplexer op) = []
  acceptedData : ∀ id, SessionRecord.acceptedData id (event step s call) =
    MuxEvent.acceptedData id (event Multiplexer.step s.multiplexer op)
  emittedData : ∀ id, SessionRecord.emittedData id (event step s call) =
    MuxEvent.emittedData id (event Multiplexer.step s.multiplexer op)
  discardedData : ∀ id, SessionRecord.discardedData id (event step s call) =
    MuxEvent.discardedData id (event Multiplexer.step s.multiplexer op)

/-- The call left the multiplexer alone, and its record tells of no frame. -/
structure Silent (s : Session) (call : SessionCall) : Prop where
  multiplexer : (s.step call).2.multiplexer = s.multiplexer
  acceptedControl : SessionRecord.acceptedControl (event step s call) = []
  emittedControl : SessionRecord.emittedControl (event step s call) = []
  acceptedData : ∀ id, SessionRecord.acceptedData id (event step s call) = []
  emittedData : ∀ id, SessionRecord.emittedData id (event step s call) = []
  discardedData : ∀ id, SessionRecord.discardedData id (event step s call) = []

theorem Silent.whileActive {s : Session} (h : s.active = false) {op : DataPlaneOp}
    (hop : op ≠ .nextOutbound) : Silent s (.dataPlane op) := by
  cases op with
  | nextOutbound => exact absurd rfl hop
  | _ =>
    constructor <;> intros <;> simp only [event, step, dataPlane, Session.whileActive,
      ensureActive, h, Bool.false_eq_true, if_false] <;> rfl

theorem forwards_enqueue {s : Session} (h : s.active = true) (envelope : Envelope) :
    Forwards s (.dataPlane (.enqueue envelope)) (.enqueue envelope) := by
  constructor <;> intros <;> simp only [event, step, dataPlane, whileActive, ensureActive, h,
    if_true, Multiplexer.step, Prod.map_fst, Prod.map_snd, id] <;>
    rcases (s.multiplexer.enqueue envelope).1 with e | u <;> rfl

theorem forwards_enqueueDiscardable {s : Session} (h : s.active = true) (envelope : Envelope) :
    Forwards s (.dataPlane (.enqueueDiscardable envelope)) (.enqueueDiscardable envelope) := by
  constructor <;> intros <;> simp only [event, step, dataPlane, whileActive, ensureActive, h,
    if_true, Multiplexer.step, Prod.map_fst, Prod.map_snd, id] <;>
    rcases (s.multiplexer.enqueueDiscardable envelope).1 with e | (_ | _) <;> rfl

theorem forwards_enqueueControl {s : Session} (h : s.active = true) (payload : Bytes) :
    Forwards s (.dataPlane (.enqueueControl payload)) (.enqueueControl payload) := by
  constructor <;> intros <;> simp only [event, step, dataPlane, whileActive, ensureActive, h,
    if_true, Multiplexer.step, Prod.map_fst, Prod.map_snd, id] <;>
    rcases (s.multiplexer.enqueueControl payload).1 with e | u <;> rfl

theorem forwards_cancelChannel {s : Session} (h : s.active = true) (channel : ChannelId) :
    Forwards s (.dataPlane (.cancelChannel channel)) (.cancelChannel channel) := by
  constructor <;> intros <;> simp only [event, step, dataPlane, whileActive, ensureActive, h,
    if_true, Multiplexer.step, Prod.map_fst, Prod.map_snd, id] <;>
    rcases (s.multiplexer.cancelChannel channel).1 with e | n <;> rfl

theorem forwards_nextOutbound (s : Session) :
    Forwards s (.dataPlane .nextOutbound) .nextOutbound := by
  constructor <;> intros <;> simp only [event, step, dataPlane, Multiplexer.step, Prod.map_fst,
    Prod.map_snd, id] <;> rcases (s.multiplexer.nextOutbound).1 with _ | (_ | _) <;> rfl

theorem dataPlane_reaches (s : Session) (op : DataPlaneOp) :
    Silent s (.dataPlane op) ∨ ∃ muxOp, Forwards s (.dataPlane op) muxOp := by
  by_cases hop : op = .nextOutbound
  · subst hop
    exact .inr ⟨_, forwards_nextOutbound s⟩
  cases hactive : s.active with
  | false => exact .inl (.whileActive hactive hop)
  | true =>
    cases op with
    | enqueue envelope => exact .inr ⟨_, forwards_enqueue hactive envelope⟩
    | enqueueDiscardable envelope => exact .inr ⟨_, forwards_enqueueDiscardable hactive envelope⟩
    | enqueueControl payload => exact .inr ⟨_, forwards_enqueueControl hactive payload⟩
    | nextOutbound => exact absurd rfl hop
    | cancelChannel channel => exact .inr ⟨_, forwards_cancelChannel hactive channel⟩

theorem forwards_closeChannel (s : Session) (channel : ChannelId) :
    Forwards s (.closeChannel channel) (.closeChannel channel) := by
  constructor <;> intros <;> simp only [event, step, Session.closeChannel, Multiplexer.step] <;>
    rcases s.multiplexer.closeChannel channel with ⟨e | n, m⟩ <;> rfl

/-- Every call that does not end the session by force reaches the multiplexer as at most one
call, and the frames it accepts, emits and discards are those of that call. -/
theorem reaches (s : Session) (call : SessionCall)
    (h : call = .abort ∨ (∃ reason, call = .fail reason) → s.state.Terminal) :
    Silent s call ∨ ∃ op, Forwards s call op := by
  -- Channels and data reach the multiplexer; the other calls leave it alone.
  cases call with
  | openValidatedChannel v =>
    obtain ⟨e, heq⟩ | ⟨-, heq⟩ := openValidatedChannel_cases s v
    · left
      constructor <;> intros <;> simp only [event, step, heq] <;> rfl
    · right
      refine ⟨.openChannel v.config, ?_⟩
      constructor <;> intros <;> simp only [event, step, heq] <;> rfl
  | openLegacyValidatedChannel v =>
    obtain ⟨e, heq⟩ | ⟨-, -, -, -, heq⟩ := openLegacyValidatedChannel_cases s v
    · left
      constructor <;> intros <;> simp only [event, step, heq] <;> rfl
    · right
      refine ⟨.openChannel v.config, ?_⟩
      constructor <;> intros <;> simp only [event, step, heq] <;> rfl
  | closeChannel channel => exact .inr ⟨_, forwards_closeChannel s channel⟩
  | updateQuality quality =>
    left
    constructor <;> intros <;> simp only [event, step, updateQuality] <;>
      cases s.ensureActive <;> rfl
  | reportContinuity continuity =>
    left
    constructor <;> intros <;> simp only [event, step, reportContinuity] <;>
      cases s.ensureActive <;> rfl
  | beginDrain =>
    left
    constructor <;> intros <;> simp only [event, step, beginDrain] <;> split <;> rfl
  | finishDrain =>
    left
    constructor <;> intros <;> simp only [event, step, finishDrain] <;> split <;> rfl
  | abort =>
    left
    have hend := h (.inl rfl)
    constructor <;> intros <;> simp only [event, step, abort, terminate_of_terminal hend] <;> rfl
  | fail reason =>
    left
    have hend := h (.inr ⟨reason, rfl⟩)
    constructor <;> intros <;> simp only [event, step, fail, terminate_of_terminal hend] <;> rfl
  | dataPlane op => exact dataPlane_reaches s op
  | events op =>
    left
    cases op <;> constructor <;> intros <;> rfl

/-- The calls that a session answers only while it is active. -/
inductive NeedsActive : SessionCall → Prop
  | enqueue (envelope : Envelope) : NeedsActive (.dataPlane (.enqueue envelope))
  | enqueueDiscardable (envelope : Envelope) :
      NeedsActive (.dataPlane (.enqueueDiscardable envelope))
  | enqueueControl (payload : Bytes) : NeedsActive (.dataPlane (.enqueueControl payload))
  | cancelChannel (id : ChannelId) : NeedsActive (.dataPlane (.cancelChannel id))
  | openValidatedChannel (v : ValidatedChannel) : NeedsActive (.openValidatedChannel v)
  | openLegacyValidatedChannel (v : ValidatedChannel) :
      NeedsActive (.openLegacyValidatedChannel v)

theorem inactive_of_terminal {s : Session} (h : s.state.Terminal) : s.active = false := by
  rcases h with h | h <;> simp [Session.active, h]

theorem NeedsActive.refused {s : Session} (h : s.state.Terminal) {call : SessionCall}
    (hcall : NeedsActive call) : (s.step call).1.failed = true ∧ (s.step call).2 = s := by
  have hactive := inactive_of_terminal h
  cases hcall <;> simp [step, dataPlane, whileActive, ensureActive, hactive, SessionReply.failed,
    Session.openValidatedChannel, Session.openLegacyValidatedChannel]

theorem accepts_nothing {s : Session} (h : s.state.Terminal) (call : SessionCall) :
    acceptedControl (event step s call) = [] ∧
      ∀ id, acceptedData id (event step s call) = [] := by
  have hactive := inactive_of_terminal h
  cases call with
  | dataPlane op =>
    cases op <;> simp only [event, step, dataPlane, whileActive, ensureActive, hactive,
      Bool.false_eq_true, if_false] <;> exact ⟨rfl, fun _ => rfl⟩
  | _ => exact ⟨rfl, fun _ => rfl⟩

theorem move_nil {α : Type*} {d x post : List α} (h : FifoLedger.Move [] d x [] post) :
    post = [] := by
  cases h <;> rfl

/-- A session that accepts nothing more keeps its empty queues empty. -/
theorem idle_step {s : Session} (h : s.state.Terminal) (hq : s.multiplexer.QueueInv)
    (hidle : s.multiplexer.Idle) (call : SessionCall) : (s.step call).2.multiplexer.Idle := by
  obtain hsilent | ⟨op, hop⟩ := reaches s call fun _ => h
  · rw [hsilent.multiplexer]
    exact hidle
  · obtain ⟨hcontrol, hdata⟩ := accepts_nothing h call
    rw [hop.multiplexer]
    constructor
    · have hmove := s.multiplexer.control_move op
      rw [← hop.acceptedControl, hcontrol, hidle.control] at hmove
      exact move_nil hmove
    · intro id
      have hmove := Multiplexer.data_move hq op id
      rw [← hop.acceptedData, hdata, hidle.data] at hmove
      exact move_nil hmove

/-- No call has thrown frames away by ending the session. -/
structure Kept (s : Session) : Prop where
  not_failed : s.state ≠ .failed
  not_aborted : s.info.closeReason ≠ some .localAbort

/-- What the calls so far say about the session they have led to. -/
structure LifeInv (hist : List SessionRecord) (s : Session) : Prop where
  rep : s.multiplexer.RepInv
  queue : s.multiplexer.QueueInv
  reason_iff : s.info.closeReason.isSome ↔ s.state.Terminal
  idle : s.state.Terminal → s.multiplexer.Idle
  state_published : (hist.flatMap fun e => e.pre.publications e.input).filter
    SessionEvent.isTerminalState = if s.state.Terminal then [.stateChanged s.state] else []
  reason_published : (hist.flatMap fun e => e.pre.publications e.input).filter
    SessionEvent.isClosed = s.info.closeReason.toList.map SessionEvent.closed
  control_kept : s.Kept → FifoLedger.Settled (hist.flatMap acceptedControl)
    (hist.flatMap emittedControl) [] s.multiplexer.control
  data_kept : s.Kept → ∀ id, FifoLedger.Settled (hist.flatMap (acceptedData id))
    (hist.flatMap (emittedData id)) (hist.flatMap (discardedData id)) (s.multiplexer.queueOf id)

theorem LifeInv.established {negotiated : NegotiatedSession} {muxLimits : MultiplexerLimits}
    {maxEventSubscribers : ℕ} {s : Session}
    (h : Session.established negotiated muxLimits maxEventSubscribers = .ok s) :
    LifeInv [] s := by
  unfold Session.established at h
  simp only at h
  split at h
  · cases h
  split at h
  · cases h
  next m hm =>
  split at h
  · cases h
  cases h
  have hfresh : m.Fresh := .restricted hm
  refine ⟨.fresh hfresh, .fresh hfresh, ?_, ?_, rfl, rfl, fun _ => ?_, fun _ id => ?_⟩
  · simp [SessionState.Terminal]
  · simp [SessionState.Terminal]
  · rw [hfresh.eq_empty]
    exact .nil
  · rw [hfresh.eq_empty, Multiplexer.queueOf_dead (by simp)]
    exact .nil

/-- Frames are thrown away only on the way to a terminal state, so a session that has kept them
had kept them before the call, which then reached the multiplexer as an ordinary call. -/
theorem kept_of_step {s : Session} (hreason : s.info.closeReason.isSome ↔ s.state.Terminal)
    {call : SessionCall} (h : (s.step call).2.Kept) :
    s.Kept ∧ (Silent s call ∨ ∃ op, Forwards s call op) := by
  by_cases hend : s.state.Terminal
  · obtain ⟨hstate, hsame⟩ := step_of_terminal hend call
    exact ⟨⟨hstate ▸ h.not_failed, hsame ▸ h.not_aborted⟩, reaches s call fun _ => hend⟩
  · have hnone : s.info.closeReason = none := by
      rw [← Option.not_isSome_iff_eq_none, hreason]
      exact hend
    refine ⟨⟨fun hfailed => hend (.inr hfailed), by simp [hnone]⟩, reaches s call ?_⟩
    rintro (rfl | ⟨reason, rfl⟩)
    · exact absurd (by simp [step, abort, terminate_of_alive hend, Session.close]) h.not_aborted
    · exact absurd (by simp [step, fail, terminate_of_alive hend, Session.close]) h.not_failed

theorem LifeInv.mux_step {hist : List SessionRecord} {s : Session} (h : LifeInv hist s)
    (call : SessionCall) : (s.step call).2.multiplexer.RepInv ∧
      (s.step call).2.multiplexer.QueueInv := by
  have hforward (hr : Silent s call ∨ ∃ op, Forwards s call op) :
      (s.step call).2.multiplexer.RepInv ∧ (s.step call).2.multiplexer.QueueInv := by
    obtain hsilent | ⟨op, hop⟩ := hr
    · rw [hsilent.multiplexer]
      exact ⟨h.rep, h.queue⟩
    · rw [hop.multiplexer]
      exact ⟨h.rep.step op, h.queue.step op⟩
  by_cases hend : s.state.Terminal
  · exact hforward (reaches s call fun _ => hend)
  by_cases hforced : call = .abort ∨ ∃ reason, call = .fail reason
  · have hmux : (s.step call).2.multiplexer = (s.multiplexer.step .discardAll).2 := by
      obtain rfl | ⟨reason, rfl⟩ := hforced <;>
        simp only [step, abort, fail, terminate_of_alive hend] <;> rfl
    rw [hmux]
    exact ⟨h.rep.step _, h.queue.step _⟩
  · exact hforward (reaches s call fun hf => absurd hf hforced)

theorem LifeInv.step {hist : List SessionRecord} {s : Session} (h : LifeInv hist s)
    (call : SessionCall) : LifeInv (hist ++ [event Session.step s call]) (s.step call).2 := by
  obtain ⟨hrep, hqueue⟩ := h.mux_step call
  -- The two parts that ask what the call published and where the session stands after it.
  have hlife : ((s.step call).2.info.closeReason.isSome ↔ (s.step call).2.state.Terminal) ∧
      ((s.step call).2.state.Terminal → (s.step call).2.multiplexer.Idle) ∧
      ((hist ++ [event Session.step s call]).flatMap fun e => e.pre.publications e.input).filter
        SessionEvent.isTerminalState =
          (if (s.step call).2.state.Terminal then [.stateChanged (s.step call).2.state] else []) ∧
      ((hist ++ [event Session.step s call]).flatMap fun e => e.pre.publications e.input).filter
        SessionEvent.isClosed =
          (s.step call).2.info.closeReason.toList.map SessionEvent.closed := by
    have hidle := h.idle
    have hnone (hend : ¬s.state.Terminal) : s.info.closeReason = none := by
      rw [← Option.not_isSome_iff_eq_none, h.reason_iff]
      exact hend
    simp only [List.flatMap_append, List.flatMap_singleton, List.filter_append, event,
      h.state_published, h.reason_published]
    cases lifeStep s call with
    | stays state reason state_quiet closed_quiet =>
      rw [state, reason, state_quiet, closed_quiet, List.append_nil, List.append_nil]
      exact ⟨h.reason_iff, fun hend => idle_step hend h.queue (hidle hend) call, rfl, rfl⟩
    | drains established state reason published_eq =>
      have halive : ¬s.state.Terminal := by simp [SessionState.Terminal, established]
      rw [state, reason, published_eq, hnone halive, if_neg halive]
      refine ⟨by simp [SessionState.Terminal], ?_, rfl, rfl⟩
      rintro (hend | hend) <;> cases hend
    | finishes draining empty state reason multiplexer published_eq =>
      have halive : ¬s.state.Terminal := by simp [SessionState.Terminal, draining]
      rw [state, reason, published_eq, hnone halive, if_neg halive, multiplexer]
      exact ⟨by simp [SessionState.Terminal], fun _ => h.rep.idle_iff.mpr empty, rfl, rfl⟩
    | @terminates final cause alive terminal state reason multiplexer published_eq =>
      have hfinal : final.Terminal := terminal.imp And.left id
      rw [state, reason, published_eq, hnone alive, if_neg alive, if_pos hfinal, multiplexer]
      refine ⟨by simp [hfinal], fun _ => ⟨rfl, s.multiplexer.queueOf_discardAll⟩, ?_, rfl⟩
      rcases hfinal with rfl | rfl <;> rfl
  obtain ⟨hreason, hidle, hstates, hcloses⟩ := hlife
  refine ⟨hrep, hqueue, hreason, hidle, hstates, hcloses, fun hkept => ?_, fun hkept id => ?_⟩
  · obtain ⟨hs, hsilent | ⟨op, hop⟩⟩ := kept_of_step h.reason_iff hkept
    · simpa only [List.flatMap_append, List.flatMap_singleton, hsilent.acceptedControl,
        hsilent.emittedControl, List.append_nil, hsilent.multiplexer] using h.control_kept hs
    · have hmove := (h.control_kept hs).move (s.multiplexer.control_move op)
      simpa only [List.flatMap_append, List.flatMap_singleton, hop.acceptedControl,
        hop.emittedControl, hop.droppedControl, List.append_nil, hop.multiplexer] using hmove
  · obtain ⟨hs, hsilent | ⟨op, hop⟩⟩ := kept_of_step h.reason_iff hkept
    · simpa only [List.flatMap_append, List.flatMap_singleton, hsilent.acceptedData,
        hsilent.emittedData, hsilent.discardedData, List.append_nil, hsilent.multiplexer]
        using h.data_kept hs id
    · have hmove := (h.data_kept hs id).move (Multiplexer.data_move h.queue op id)
      simpa only [List.flatMap_append, List.flatMap_singleton, hop.acceptedData,
        hop.emittedData, hop.discardedData, hop.multiplexer] using hmove

/-- The frames that the calls so far have accepted have all gone out or were discarded on purpose,
with their channel. -/
structure AllSettled (hist : List SessionRecord) : Prop where
  control : hist.flatMap acceptedControl = hist.flatMap emittedControl
  data : ∀ id, FifoLedger.Settled (hist.flatMap (acceptedData id)) (hist.flatMap (emittedData id))
    (hist.flatMap (discardedData id)) []

theorem LifeInv.allSettled {hist : List SessionRecord} {s : Session} (h : LifeInv hist s)
    (hclosed : s.state = .closed) (hgraceful : s.info.closeReason = some .graceful) :
    AllSettled hist := by
  have hkept : s.Kept := ⟨by simp [hclosed], by simp [hgraceful]⟩
  have hidle := h.idle (.inl hclosed)
  constructor
  · obtain ⟨fates, haccepted, hemitted, hdropped⟩ := h.control_kept hkept
    -- Control frames are never dropped here, so every fate is a delivery.
    have hall : fates.filter (fun p => p.2) = fates := by
      refine List.filter_eq_self.mpr fun p hp => ?_
      by_contra hfalse
      have hmem : p.1 ∈ (fates.filter fun p => !p.2).map Prod.fst :=
        List.mem_map_of_mem (List.mem_filter.mpr ⟨hp, by simpa using hfalse⟩)
      rw [← hdropped] at hmem
      exact absurd hmem List.not_mem_nil
    rw [haccepted, hemitted, hall, hidle.control, List.append_nil]
  · intro id
    rw [← hidle.data id]
    exact h.data_kept hkept id

/-- What a session that has ended answers from then on. -/
structure Ended (s : Session) : Prop where
  pending : s.multiplexer.pendingFrames = 0
  outbound : (s.multiplexer.nextOutbound).1 = none
  refuses : ∀ call, NeedsActive call → (s.step call).1.failed = true ∧
    (s.step call).2.multiplexer = s.multiplexer ∧
    (s.step call).2.channelMappings = s.channelMappings

theorem LifeInv.ended {hist : List SessionRecord} {s : Session} (h : LifeInv hist s)
    (hend : s.state.Terminal) : Ended s := by
  have hpending := h.rep.idle_iff.mp (h.idle hend)
  refine ⟨hpending, h.rep.nextOutbound_none_iff.mpr hpending, fun call hcall => ?_⟩
  obtain ⟨hfailed, hsame⟩ := hcall.refused hend
  rw [hsame]
  exact ⟨hfailed, rfl, rfl⟩

/-- Over every run of a session: an end is final and has a reason, the session reports it exactly
once, draining is not undone, a graceful close has let every accepted frame go, and an ended
session holds no frame and takes none. -/
theorem lifecycle_is_final {negotiated : NegotiatedSession} {muxLimits : MultiplexerLimits}
    {maxEventSubscribers : ℕ} {s₀ : Session}
    (h : Session.established negotiated muxLimits maxEventSubscribers = .ok s₀)
    (calls : List SessionCall) :
    let s := RunHistory.run step s₀ calls
    let hist := RunHistory.trace step s₀ calls
    (s.state.Terminal → ∀ more, (RunHistory.run step s more).state = s.state ∧
      (RunHistory.run step s more).info.closeReason = s.info.closeReason) ∧
    (s.info.closeReason.isSome ↔ s.state.Terminal) ∧
    (∀ e ∈ hist, (∀ op, e.input ≠ .events op) → e.post.events =
      (e.pre.publications e.input).foldl SessionEventBus.publish e.pre.events) ∧
    (hist.flatMap fun e => e.pre.publications e.input).filter SessionEvent.isTerminalState =
      (if s.state.Terminal then [.stateChanged s.state] else []) ∧
    (hist.flatMap fun e => e.pre.publications e.input).filter SessionEvent.isClosed =
      s.info.closeReason.toList.map SessionEvent.closed ∧
    (∀ more, (RunHistory.run step (s.step .beginDrain).2 more).state ≠ .established) ∧
    (s.state = .closed → s.info.closeReason = some .graceful → AllSettled hist) ∧
    (s.state.Terminal → ∀ more, Ended (RunHistory.run step s more)) := by
  intro s hist
  have hrun (calls : List SessionCall) :
      LifeInv (RunHistory.trace step s₀ calls) (RunHistory.run step s₀ calls) :=
    RunHistory.run_history step (.established h) (fun _ _ call hs => hs.step call) calls
  have hinv : LifeInv hist s := hrun calls
  refine ⟨fun hend => run_of_terminal hend, hinv.reason_iff, ?_, hinv.state_published,
    hinv.reason_published, ?_, hinv.allSettled, ?_⟩
  · intro e he hcall
    have heq := (RunHistory.trace_invariant step (I := fun _ => True) (fun _ _ _ => trivial)
      trivial calls e he).2
    have hevents := step_events e.pre hcall
    rw [heq]
    exact hevents
  · intro more
    refine run_not_established ?_ more
    cases lifeStep s .beginDrain with
    | drains _ state => simp [state]
    | stays state =>
      -- An established session would have moved on.
      intro hestablished
      simp [step, beginDrain, state ▸ hestablished] at state
    | finishes _ _ state => simp [state]
    | terminates _ terminal state =>
      rw [state]
      rcases terminal with ⟨rfl, -⟩ | rfl <;> exact SessionState.noConfusion
  · intro hend more
    have hlater := hrun (calls ++ more)
    rw [RunHistory.run_append] at hlater
    exact hlater.ended ((run_of_terminal hend more).1 ▸ hend)

theorem sample_drained_session_is_final :
    ∃ s₀, Session.established Sample.terms {} 4 = .ok s₀ ∧
      (RunHistory.run step s₀ [.dataPlane (.enqueueControl [1]), .beginDrain,
        .dataPlane .nextOutbound, .finishDrain]).info.closeReason = some .graceful ∧
      AllSettled (RunHistory.trace step s₀ [.dataPlane (.enqueueControl [1]), .beginDrain,
        .dataPlane .nextOutbound, .finishDrain]) := by
  refine ⟨_, rfl, rfl, ?_⟩
  have hestablished : Session.established Sample.terms {} 4 = .ok _ := rfl
  exact (lifecycle_is_final hestablished [.dataPlane (.enqueueControl [1]), .beginDrain,
    .dataPlane .nextOutbound, .finishDrain]).2.2.2.2.2.2.1 rfl rfl

/-- `fail` records the reason it is given, so a failed session can carry `Graceful` although a
frame that it accepted was neither sent nor discarded with its channel. -/
theorem sample_failure_reported_as_graceful :
    ∃ s₀, Session.established Sample.terms {} 4 = .ok s₀ ∧
      (RunHistory.run step s₀ [.dataPlane (.enqueueControl [1]),
        .fail .graceful]).info.closeReason = some .graceful ∧
      ¬AllSettled (RunHistory.trace step s₀ [.dataPlane (.enqueueControl [1]),
        .fail .graceful]) := by
  refine ⟨_, rfl, rfl, fun hsettled => ?_⟩
  exact absurd hsettled.control (by decide)

end Session

end MutsukiLink
