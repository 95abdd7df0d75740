import MutsukiLink.GapLedger
import MutsukiLink.RunHistory
import MutsukiLink.SessionModel

/-! What the subscribers of a session event bus are told over whole runs of the bus. -/
namespace MutsukiLink
open RunHistory
open GapLedger (Notice Tells Settled)
open Std (ExtTreeMap)

/-- A drop report speaks of events that are gone, any other event of itself. -/
def SessionEvent.notice : SessionEvent → Notice SessionEvent
  | .eventsDropped count => .missed count
  | event => .item event

/-- The events a caller publishes; drop reports are made by the bus. -/
def SessionEvent.Plain (event : SessionEvent) : Prop := ∀ count, event ≠ .eventsDropped count

theorem SessionEvent.Plain.notice_eq {event : SessionEvent} (h : event.Plain) :
    event.notice = .item event := by
  cases event with
  | eventsDropped count => exact absurd rfl (h count)
  | _ => rfl

/-- What one subscriber notices of the calls of the bus. -/
inductive SubscriberOp where
  | hear (event : SessionEvent)
  | next
  | leave
deriving DecidableEq, Repr

def EventBusOp.concerning (id : EventSubscriberId) : EventBusOp → Option SubscriberOp
  | .publish event => some (.hear event)
  | .next i => if i = id then some .next else none
  | .unsubscribe i => if i = id then some .leave else none
  | .subscribe _ => none

def EventBusOp.publication : EventBusOp → Option SessionEvent
  | .publish event => some event
  | _ => none

namespace Subscriber

/-- The body of `next`. -/
def read (s : Subscriber) : Option SessionEvent × Subscriber :=
  if 0 < s.dropped then (some (.eventsDropped s.dropped), { s with dropped := 0 })
  else (s.queue.head?, { s with queue := s.queue.tail })

/-- A subscriber by itself, as long as it is one. -/
def alone : Option Subscriber → SubscriberOp → Option SessionEvent × Option Subscriber
  | none, _ => (none, none)
  | some s, .hear event => (none, some (SessionEventBus.deliver event s))
  | some s, .next => (s.read.1, some s.read.2)
  | some _, .leave => (none, none)

end Subscriber

namespace SessionEventBus

def step (b : SessionEventBus) : EventBusOp → SessionReply × SessionEventBus
  | .subscribe capacity => (.subscribed (b.subscribe capacity).1, (b.subscribe capacity).2)
  | .publish event => (.nothing, b.publish event)
  | .next id => (.event (b.next id).1, (b.next id).2)
  | .unsubscribe id => (.unsubscribed (b.unsubscribe id).1, (b.unsubscribe id).2)

end SessionEventBus

/-- The bus behind a session takes its calls one after another. -/
theorem Session.eventBus_eq_step (s : Session) (op : EventBusOp) :
    s.eventBus op = ((s.events.step op).1, { s with events := (s.events.step op).2 }) := by
  cases op with
  | _ => rfl

abbrev BusEvent := Event SessionEventBus EventBusOp SessionReply

namespace BusEvent

def obtained (id : EventSubscriberId) (e : BusEvent) : Option SessionEvent :=
  match e.input, e.reply with
  | .next i, .event event => if i = id then event else none
  | _, _ => none

def issued (e : BusEvent) : Option EventSubscriberId :=
  match e.reply with
  | .subscribed (.ok id) => some id
  | _ => none

end BusEvent

namespace SessionEventBus

def published (hist : List BusEvent) : List SessionEvent :=
  hist.filterMap fun e => e.input.publication

def obtained (id : EventSubscriberId) (hist : List BusEvent) : List SessionEvent :=
  hist.filterMap (BusEvent.obtained id)

def issued (hist : List BusEvent) : List EventSubscriberId := hist.filterMap BusEvent.issued

/-- The history holds a subscription that gave out this id, and `since` is what came after it. -/
def Subscribed (hist : List BusEvent) (id : EventSubscriberId) (capacity : ℕ)
    (since : List BusEvent) : Prop :=
  ∃ before e, hist = before ++ e :: since ∧ e.input = .subscribe capacity ∧
    e.reply = .subscribed (.ok id)

/-- No drop count has reached the end of its word. -/
def Counting (b : SessionEventBus) : Prop :=
  ∀ (id : EventSubscriberId) (s : Subscriber), b.subscribers[id]? = some s → s.dropped < u64Max

theorem next_of_lookup {b : SessionEventBus} {id : EventSubscriberId} {s : Subscriber}
    (h : b.subscribers[id]? = some s) :
    b.next id = (s.read.1, { b with subscribers := b.subscribers.insert id s.read.2 }) := by
  unfold next Subscriber.read
  rw [h]
  by_cases hdropped : 0 < s.dropped
  · simp only [hdropped, if_true]
  · simp only [hdropped, if_false]

theorem next_of_unknown {b : SessionEventBus} {id : EventSubscriberId}
    (h : b.subscribers[id]? = none) : b.next id = (none, b) := by
  unfold next
  rw [h]

/-- A subscription that succeeds writes one new record under the next id. -/
theorem subscribe_cases (b : SessionEventBus) (capacity : ℕ) :
    (∃ error, b.subscribe capacity = (.error error, b)) ∨
    0 < capacity ∧ b.subscribe capacity = (.ok ⟨b.nextId⟩, { b with
      nextId := b.nextId+1
      subscribers :=
        b.subscribers.insert ⟨b.nextId⟩ { queue := [], capacity, dropped := 0 } }) := by
  unfold subscribe
  by_cases hcapacity : capacity = 0
  · exact Or.inl ⟨_, if_pos hcapacity⟩
  rw [if_neg hcapacity]
  by_cases hfull : b.maxSubscribers ≤ b.subscribers.size
  · exact Or.inl ⟨_, if_pos hfull⟩
  rw [if_neg hfull]
  by_cases hlast : b.nextId = u64Max
  · exact Or.inl ⟨_, if_pos hlast⟩
  · rw [if_neg hlast]
    exact Or.inr ⟨Nat.pos_of_ne_zero hcapacity, rfl⟩

theorem nextId_le_step (b : SessionEventBus) (op : EventBusOp) :
    b.nextId ≤ (b.step op).2.nextId := by
  cases op with
  | subscribe capacity =>
    rcases subscribe_cases b capacity with ⟨error, h⟩ | ⟨-, h⟩
    · simp only [step, h, le_refl]
    · simp only [step, h]
      omega
  | publish event => exact le_refl _
  | next id =>
    cases h : b.subscribers[id]? with
    | none => simp only [step, next_of_unknown h, le_refl]
    | some s => simp only [step, next_of_lookup h, le_refl]
  | unsubscribe id => exact le_refl _

theorem lookup_publish (b : SessionEventBus) (event : SessionEvent) (id : EventSubscriberId) :
    (b.step (.publish event)).2.subscribers[id]? = (b.subscribers[id]?).map (deliver event) :=
  ExtTreeMap.getElem?_map

theorem lookup_unsubscribe (b : SessionEventBus) (i id : EventSubscriberId) :
    (b.step (.unsubscribe i)).2.subscribers[id]? =
      if i = id then none else b.subscribers[id]? :=
  OrderedMap.lookup_erase _ _ _

/-- What a call does to one subscriber is what the subscriber does by itself: the calls of the
others leave its record as it is. -/
theorem step_lookup (b : SessionEventBus) (op : EventBusOp) {id : EventSubscriberId}
    (hid : id.val < b.nextId) :
    (b.step op).2.subscribers[id]? =
      (op.concerning id).elim b.subscribers[id]?
        fun o => (Subscriber.alone b.subscribers[id]? o).2 := by
  cases op with
  | subscribe capacity =>
    -- A new subscriber gets an id that is above all that were given out.
    have hne : (⟨b.nextId⟩ : EventSubscriberId) ≠ id := by
      intro he
      have hval : b.nextId = id.val := congrArg EventSubscriberId.val he
      omega
    rcases subscribe_cases b capacity with ⟨error, h⟩ | ⟨-, h⟩
    · simp only [step, h, EventBusOp.concerning, Option.elim]
    · simp only [step, h, EventBusOp.concerning, Option.elim]
      rw [OrderedMap.lookup_insert, if_neg hne]
  | publish event =>
    rw [lookup_publish]
    cases h : b.subscribers[id]? with
    | none => rfl
    | some s => rfl
  | next i =>
    -- Reading writes the record of its own subscriber back and touches no other.
    by_cases hi : i = id
    · subst hi
      simp only [EventBusOp.concerning, if_true, Option.elim]
      cases h : b.subscribers[i]? with
      | none =>
        simp only [step, next_of_unknown h, Subscriber.alone, h]
      | some s =>
        simp only [step, next_of_lookup h, Subscriber.alone]
        rw [OrderedMap.lookup_insert, if_pos rfl]
    · simp only [EventBusOp.concerning, hi, if_false, Option.elim]
      cases h : b.subscribers[i]? with
      | none => simp only [step, next_of_unknown h]
      | some s =>
        simp only [step, next_of_lookup h]
        rw [OrderedMap.lookup_insert, if_neg hi]
  | unsubscribe i =>
    rw [lookup_unsubscribe]
    by_cases hi : i = id
    · simp only [EventBusOp.concerning, hi, if_true, Option.elim]
      cases b.subscribers[id]? with
      | none => rfl
      | some s => rfl
    · simp only [EventBusOp.concerning, hi, if_false, Option.elim]

theorem step_obtained (b : SessionEventBus) (op : EventBusOp) (id : EventSubscriberId) :
    BusEvent.obtained id (event step b op) =
      (op.concerning id).bind fun o => (Subscriber.alone b.subscribers[id]? o).1 := by
  cases op with
  | subscribe capacity => rfl
  | publish event =>
    cases h : b.subscribers[id]? with
    | none => rfl
    | some s => rfl
  | next i =>
    by_cases hi : i = id
    · subst hi
      cases h : b.subscribers[i]? with
      | none =>
        simp only [BusEvent.obtained, event, step, next_of_unknown h, EventBusOp.concerning,
          if_true, Option.bind, Subscriber.alone]
      | some s =>
        simp only [BusEvent.obtained, event, step, next_of_lookup h, EventBusOp.concerning,
          if_true, Option.bind, Subscriber.alone]
    · simp only [BusEvent.obtained, event, step, EventBusOp.concerning, hi, if_false, Option.bind]
  | unsubscribe i =>
    by_cases hi : i = id
    · simp only [EventBusOp.concerning, hi, if_true]
      cases h : b.subscribers[id]? with
      | none => rfl
      | some s => rfl
    · simp only [EventBusOp.concerning, hi, if_false]
      rfl

end SessionEventBus

namespace Subscriber

/-- A subscriber whose queue and drop count account for what it has not been told of. -/
structure Account (capacity : ℕ) (published obtained : List SessionEvent) (s : Subscriber) :
    Prop where
  capacity_eq : s.capacity = capacity
  bounded : s.queue.length ≤ capacity
  settled : Settled published (obtained.map SessionEvent.notice) s.dropped s.queue

variable {capacity : ℕ} {published obtained : List SessionEvent} {s : Subscriber}

theorem Account.deliver (h : Account capacity published obtained s) (hpos : 0 < capacity)
    {event : SessionEvent} (hcount : (SessionEventBus.deliver event s).dropped < u64Max) :
    Account capacity (published ++ [event]) obtained (SessionEventBus.deliver event s) := by
  unfold SessionEventBus.deliver at hcount ⊢
  by_cases hfull : s.queue.length = s.capacity
  · rw [if_pos hfull] at hcount ⊢
    have hlength : s.queue.length = capacity := hfull.trans h.capacity_eq
    obtain ⟨oldest, rest, hqueue⟩ : ∃ oldest rest, s.queue = oldest :: rest := by
      apply List.exists_cons_of_length_pos
      omega
    -- Below the end of the word the count has gone up by one.
    have hdropped : min (s.dropped+1) u64Max = s.dropped+1 := by
      have hlt : min (s.dropped+1) u64Max < u64Max := hcount
      omega
    have hsettled := h.settled
    rw [hqueue] at hsettled
    refine ⟨h.capacity_eq, ?_, ?_⟩
    · show (s.queue.tail ++ [event]).length ≤ capacity
      rw [List.length_append, List.length_tail, List.length_singleton]
      omega
    · show Settled _ _ (min (s.dropped+1) u64Max) (s.queue.tail ++ [event])
      rw [hdropped, hqueue]
      exact hsettled.overflow
  · rw [if_neg hfull]
    have hbounded := h.bounded
    have hcapacity := h.capacity_eq
    refine ⟨hcapacity, ?_, h.settled.push⟩
    show (s.queue ++ [event]).length ≤ capacity
    rw [List.length_append, List.length_singleton]
    omega

theorem Account.read (h : Account capacity published obtained s)
    (hplain : ∀ event ∈ published, event.Plain) :
    Account capacity published (obtained ++ s.read.1.toList) s.read.2 := by
  have hsettled := h.settled
  unfold Subscriber.read
  by_cases hdropped : 0 < s.dropped
  -- The drop report is handed out before what waits, which is younger.
  · rw [if_pos hdropped]
    refine ⟨h.capacity_eq, h.bounded, ?_⟩
    rw [List.map_append]
    exact hsettled.report
  · rw [if_neg hdropped]
    have hzero : s.dropped = 0 := by omega
    have hbounded : s.queue.tail.length ≤ capacity := by
      have := h.bounded
      rw [List.length_tail]
      omega
    refine ⟨h.capacity_eq, hbounded, ?_⟩
    show Settled published _ s.dropped s.queue.tail
    rw [hzero] at hsettled ⊢
    cases hqueue : s.queue with
    | nil =>
      rw [hqueue] at hsettled
      simpa only [List.head?_nil, Option.toList_none, List.append_nil, List.tail_nil] using hsettled
    | cons event rest =>
      rw [hqueue] at hsettled
      -- What waits was published, so it is not itself a drop report.
      have hmem : event ∈ published := by
        obtain ⟨told, lost, rfl, -, -⟩ := hsettled
        simp
      rw [List.head?_cons, Option.toList_some, List.map_append, List.map_singleton,
        (hplain event hmem).notice_eq]
      exact hsettled.handOut

/-- A subscriber that has nothing to hand out has been told of everything. -/
theorem Account.complete (h : Account capacity published obtained s) (hread : s.read.1 = none) :
    Tells (obtained.map SessionEvent.notice) published := by
  have hsettled := h.settled
  unfold Subscriber.read at hread
  by_cases hdropped : 0 < s.dropped
  · rw [if_pos hdropped] at hread
    cases hread
  · rw [if_neg hdropped] at hread
    have hzero : s.dropped = 0 := by omega
    have hqueue : s.queue = [] := List.head?_eq_none_iff.mp hread
    rw [hzero, hqueue] at hsettled
    exact hsettled.complete

end Subscriber

end MutsukiLink
