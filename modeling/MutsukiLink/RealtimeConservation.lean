import Mathlib.Algebra.Order.BigOperators.Group.List
import MutsukiLink.RealtimeRuns

/-! The counters of the send queue: every datagram that was offered has been popped, is pending, or
is in one of the counters, for each flow and in total. -/
namespace MutsukiLink
open Std WireBytes RunHistory

inductive QueueCounter where
  | queued | replaced | expired | congestionDropped
deriving DecidableEq, Repr

namespace QueueCounter

def total : QueueCounter → RealtimeTelemetry → ℕ
  | queued, t => t.queued
  | replaced, t => t.replaced
  | expired, t => t.expired
  | congestionDropped, t => t.congestionDropped

def ofFlow : QueueCounter → RealtimeFlowTelemetry → ℕ
  | queued, s => s.queued
  | replaced, s => s.replaced
  | expired, s => s.expired
  | congestionDropped, s => s.congestionDropped

theorem ofFlow_default (c : QueueCounter) : c.ofFlow {} = 0 := by
  cases c <;> rfl

end QueueCounter

def DropReason.counter : DropReason → QueueCounter
  | .replaced => .replaced
  | .expired => .expired
  | .congested => .congestionDropped

/-- One flow, or all of them. -/
abbrev FlowScope := Option RealtimeFlowId

def FlowScope.covers (scope : FlowScope) (flow : RealtimeFlowId) : Bool := scope.all (· == flow)

/-- The datagrams in the groups of a scope. -/
def pendingIn (groups : ExtTreeMap RealtimeFlowId PendingGroup) : FlowScope → ℕ
  | none => OrderedMap.sumBy (fun group => group.datagrams.length) groups
  | some flow => (groups[flow]?.map fun group => group.datagrams.length).getD 0

theorem pendingIn_insert (groups : ExtTreeMap RealtimeFlowId PendingGroup)
    (flow : RealtimeFlowId) (group : PendingGroup) (scope : FlowScope) :
    pendingIn (groups.insert flow group) scope+
        (if scope.covers flow then pendingIn groups (some flow) else 0) =
      pendingIn groups scope+if scope.covers flow then group.datagrams.length else 0 := by
  cases scope with
  | none => exact OrderedMap.sumBy_write (fun group => group.datagrams.length) groups flow group
  | some f =>
    simp only [pendingIn, OrderedMap.lookup_insert, FlowScope.covers, Option.all_some,
      beq_iff_eq]
    by_cases hf : flow = f
    · subst hf
      simp [Nat.add_comm]
    · have hne : ¬ f = flow := fun h => hf h.symm
      simp [hf, hne]

theorem pendingIn_erase (groups : ExtTreeMap RealtimeFlowId PendingGroup)
    (flow : RealtimeFlowId) (scope : FlowScope) :
    pendingIn (groups.erase flow) scope+
      (if scope.covers flow then pendingIn groups (some flow) else 0) =
        pendingIn groups scope := by
  cases scope with
  | none =>
    simp only [pendingIn, FlowScope.covers, Option.all_none, if_true]
    cases h : groups[flow]? with
    | none =>
      have he : groups.erase flow = groups := by
        apply ExtTreeMap.ext_getElem?
        intro f
        rw [OrderedMap.lookup_erase]
        split
        · next hf => rw [← hf, h]
        · rfl
      simp [he]
    | some group =>
      rw [← OrderedMap.sumBy_erase (fun group => group.datagrams.length) groups h, Nat.add_comm]
      rfl
  | some f =>
    simp only [pendingIn, OrderedMap.lookup_erase, FlowScope.covers, Option.all_some,
      beq_iff_eq]
    by_cases hf : flow = f
    · subst hf
      simp
    · have hne : ¬ f = flow := fun h => hf h.symm
      simp [hf, hne]

namespace QueueEvent

/-- The counter that an event notes, with the flow and the number. -/
@[simp] def noted? : QueueEvent → Option (RealtimeFlowId × QueueCounter × ℕ)
  | dropped flow group reason => some (flow, reason.counter, group.datagrams.length)
  | refused flow reason => some (flow, reason.counter, 1)
  | overflowed flow group => some (flow, .congestionDropped, group.datagrams.length+1)
  | appended d _ | started d => some (d.flow, .queued, 1)
  | _ => none

/-- The number that a counter of a scope grows by, unless it is saturated. -/
@[simp] def amount (scope : FlowScope) (c : QueueCounter) (e : QueueEvent) : ℕ :=
  match e.noted? with
  | some (flow, c', n) => if scope.covers flow ∧ c = c' then n else 0
  | none => 0

/-- The datagrams of a scope that are offered to the queue. -/
@[simp] def offered (scope : FlowScope) : QueueEvent → ℕ
  | refused flow _ | overflowed flow _ => if scope.covers flow then 1 else 0
  | appended d _ | started d => if scope.covers d.flow then 1 else 0
  | _ => 0

@[simp] def taken (scope : FlowScope) : QueueEvent → ℕ
  | popped _ flow _ _ _ => if scope.covers flow then 1 else 0
  | _ => 0

@[simp] def removed (scope : FlowScope) : QueueEvent → ℕ
  | cleared groups => pendingIn groups scope
  | _ => 0

/-- The datagrams of a scope that an event notes as lost. -/
@[simp] def lost (scope : FlowScope) (e : QueueEvent) : ℕ :=
  e.amount scope .replaced+e.amount scope .expired+e.amount scope .congestionDropped

end QueueEvent

/-- Of the counters of lost datagrams exactly one is noted. -/
theorem lost_of_reason (reason : DropReason) (n : ℕ) :
    (if QueueCounter.replaced = reason.counter then n else 0)+
      (if QueueCounter.expired = reason.counter then n else 0)+
      (if QueueCounter.congestionDropped = reason.counter then n else 0) = n := by
  cases reason <;> simp [DropReason.counter]

theorem pendingIn_flow {groups : ExtTreeMap RealtimeFlowId PendingGroup} {flow : RealtimeFlowId}
    {group : PendingGroup} (h : groups[flow]? = some group) :
    pendingIn groups (some flow) = group.datagrams.length := by
  simp [pendingIn, h]

/-- No event loses a datagram without noting it. -/
theorem QueueChange.conserves {q q' : RealtimeSendQueue} {e : QueueEvent}
    (h : QueueChange q e q') (scope : FlowScope) :
    pendingIn q.groups scope+e.offered scope =
      pendingIn q'.groups scope+e.taken scope+e.removed scope+e.lost scope := by
  -- A group that leaves takes its datagrams with it, and each of them is noted.
  cases h with
  | dropped reason hgroup =>
    rename_i flow group
    have herase := pendingIn_erase q.groups flow scope
    have hlost := lost_of_reason reason group.datagrams.length
    rw [pendingIn_flow hgroup] at herase
    rw [RealtimeSendQueue.noteDropped_groups]
    by_cases hc : scope.covers flow = true <;>
      simp [hc] at herase ⊢ <;> omega
  | refused flow reason =>
    have hlost := lost_of_reason reason 1
    rw [RealtimeSendQueue.noteDropped_groups]
    by_cases hc : scope.covers flow = true <;> simp [hc]
    omega
  | overflowed hgroup =>
    rename_i flow group
    have herase := pendingIn_erase q.groups flow scope
    rw [pendingIn_flow hgroup] at herase
    rw [RealtimeSendQueue.noteDropped_groups]
    by_cases hc : scope.covers flow = true <;>
      simp [hc] at herase ⊢ <;> omega
  | appended hgroup hgeneration hsequence hroom hbytes =>
    rename_i d group
    have hinsert := pendingIn_insert q.groups d.flow (group.extend d) scope
    rw [pendingIn_flow hgroup] at hinsert
    change _ = pendingIn (q.groups.insert d.flow (group.extend d)) scope+_+_+_
    by_cases hc : scope.covers d.flow = true <;>
      simp [PendingGroup.extend, hc] at hinsert ⊢ <;> omega
  | started hnone hroom =>
    rename_i d
    have hinsert := pendingIn_insert q.groups d.flow (d.group q.nextInsertionOrder) scope
    have hzero : pendingIn q.groups (some d.flow) = 0 := by simp [pendingIn, hnone]
    rw [hzero] at hinsert
    change _ = pendingIn (q.groups.insert d.flow (d.group q.nextInsertionOrder)) scope+_+_+_
    by_cases hc : scope.covers d.flow = true <;>
      simp [RealtimeDatagram.group, hc] at hinsert ⊢ <;> omega
  | popped hgroup hpayload hnow =>
    rename_i now flow group payload rest
    have hlen := pendingIn_flow hgroup
    rw [hpayload, List.length_cons] at hlen
    -- One datagram leaves, and the last one takes its group along.
    have hafter : pendingIn (if rest = [] then q.groups.erase flow
        else q.groups.insert flow { group with datagrams := rest }) scope+
        (if scope.covers flow then rest.length+1 else 0) =
        pendingIn q.groups scope+if scope.covers flow then rest.length else 0 := by
      rw [← hlen]
      by_cases hrest : rest = []
      · rw [if_pos hrest, pendingIn_erase, hrest]
        simp
      · rw [if_neg hrest]
        exact pendingIn_insert q.groups flow { group with datagrams := rest } scope
    by_cases hc : scope.covers flow = true <;>
      simp [hc] at hafter ⊢ <;> omega
  | cleared =>
    have hempty : pendingIn ∅ scope = 0 := by
      cases scope with
      | none => exact OrderedMap.sumBy_empty _
      | some flow => simp [pendingIn]
    simp [hempty]
  | sent datagram => rfl
  | limited hgroups | noted hgroups =>
    rw [hgroups]
    rfl

/-! ### The counters -/

namespace RealtimeSendQueue
variable {q q' : RealtimeSendQueue}

def count (q : RealtimeSendQueue) (c : QueueCounter) : FlowScope → ℕ
  | none => c.total q.telemetry
  | some flow => c.ofFlow (q.telemetry.flows[flow]?.getD {})

/-- A change of the counters of one flow that does `g` to each of them, here and in total. -/
structure Acts (g : QueueCounter → ℕ → ℕ) (total : RealtimeTelemetry → RealtimeTelemetry)
    (stats : RealtimeFlowTelemetry → RealtimeFlowTelemetry) : Prop where
  in_total : ∀ c t, c.total (total t) = g c (c.total t)
  same_flows : ∀ t, (total t).flows = t.flows
  in_flow : ∀ c s, c.ofFlow (stats s) = g c (c.ofFlow s)

variable {g : QueueCounter → ℕ → ℕ} {total : RealtimeTelemetry → RealtimeTelemetry}
  {stats : RealtimeFlowTelemetry → RealtimeFlowTelemetry}

theorem count_note (h : Acts g total stats) (q : RealtimeSendQueue) (flow : RealtimeFlowId)
    (c : QueueCounter) (scope : FlowScope) :
    (q.note flow total stats).count c scope =
      if scope.covers flow then g c (q.count c scope) else q.count c scope := by
  cases scope with
  | none =>
    have htotal : (q.note flow total stats).count c none = c.total (total q.telemetry) := by
      cases c <;> rfl
    rw [htotal, h.in_total]
    rfl
  | some f =>
    simp only [count, note, OrderedMap.lookup_insert, h.same_flows, FlowScope.covers,
      Option.all_some, beq_iff_eq]
    by_cases hf : flow = f
    · subst hf
      simp [h.in_flow]
    · have hne : ¬ f = flow := fun he => hf he.symm
      simp [hf, hne]

theorem sumBy_note (h : Acts g total stats) (q : RealtimeSendQueue) (flow : RealtimeFlowId)
    (c : QueueCounter) :
    OrderedMap.sumBy c.ofFlow (q.note flow total stats).telemetry.flows+q.count c (some flow) =
      OrderedMap.sumBy c.ofFlow q.telemetry.flows+g c (q.count c (some flow)) := by
  have hwrite := OrderedMap.sumBy_write c.ofFlow q.telemetry.flows flow
    (stats (q.telemetry.flows[flow]?.getD {}))
  have hcount : q.count c (some flow) =
      (q.telemetry.flows[flow]?.map c.ofFlow).getD 0 := by
    rw [count]
    cases q.telemetry.flows[flow]? with
    | none => exact c.ofFlow_default
    | some s => rfl
  rw [← hcount, h.in_flow] at hwrite
  rw [note, h.same_flows]
  exact hwrite

/-- One counter grows, up to the largest number it can hold. -/
def raise (c₀ : QueueCounter) (n : ℕ) (c : QueueCounter) (x : ℕ) : ℕ :=
  if c = c₀ then saturatingAdd x n else x

theorem noteQueued_eq (q : RealtimeSendQueue) (flow : RealtimeFlowId) :
    ∃ total stats, q.noteQueued flow = q.note flow total stats ∧
      Acts (raise .queued 1) total stats :=
  ⟨_, _, rfl, fun c _ => by cases c <;> rfl, fun _ => rfl, fun c _ => by cases c <;> rfl⟩

theorem noteDropped_eq (q : RealtimeSendQueue) (flow : RealtimeFlowId) (reason : DropReason)
    (n : ℕ) : ∃ total stats, q.noteDropped flow reason n = q.note flow total stats ∧
      Acts (raise reason.counter n) total stats := by
  cases reason with
  | replaced =>
    exact ⟨_, _, show q.noteReplaced flow n = q.note flow _ _ from rfl,
      fun c _ => by cases c <;> rfl, fun _ => rfl, fun c _ => by cases c <;> rfl⟩
  | expired =>
    exact ⟨_, _, show q.noteExpired flow n = q.note flow _ _ from rfl,
      fun c _ => by cases c <;> rfl, fun _ => rfl, fun c _ => by cases c <;> rfl⟩
  | congested =>
    exact ⟨_, _, show q.noteCongestionDrop flow n = q.note flow _ _ from rfl,
      fun c _ => by cases c <;> rfl, fun _ => rfl, fun c _ => by cases c <;> rfl⟩

theorem noteSent_eq (q : RealtimeSendQueue) (datagram : QueuedRealtimeDatagram) :
    ∃ total stats, q.noteSent datagram = q.note datagram.flow total stats ∧
      Acts (fun _ x => x) total stats :=
  ⟨_, _, rfl, fun c _ => by cases c <;> rfl, fun _ => rfl, fun c _ => by cases c <;> rfl⟩

/-- The counters, as functions of the flows, are those of the telemetry. -/
theorem count_congr (htelemetry : SameCounters q.telemetry q'.telemetry) (c : QueueCounter)
    (scope : FlowScope) : q'.count c scope = q.count c scope := by
  obtain ⟨h1, h2, h3, h4, hflows⟩ := htelemetry
  cases scope with
  | none => cases c <;> assumption
  | some flow => rw [count, hflows, count]

/-- The largest number that a counter can hold. -/
def counterMax : ℕ := 2^64-1

/-- A count that is held at the maximum goes on as if it had not been. -/
theorem saturatingAdd_min (n m : ℕ) :
    saturatingAdd (min n counterMax) m = min (n+m) counterMax := by
  unfold saturatingAdd counterMax
  omega

/-- While no counter is at its maximum, each total is the sum over the flows. -/
def Balanced (q : RealtimeSendQueue) : Prop :=
  ∀ c, q.count c none < counterMax →
    OrderedMap.sumBy c.ofFlow q.telemetry.flows = q.count c none

theorem Balanced.raise (h : q.Balanced) {flow : RealtimeFlowId} {c₀ : QueueCounter} {n : ℕ}
    (hacts : Acts (RealtimeSendQueue.raise c₀ n) total stats) :
    (q.note flow total stats).Balanced := by
  intro c hmax
  have hsum := sumBy_note hacts q flow c
  have hle : q.count c (some flow) ≤ OrderedMap.sumBy c.ofFlow q.telemetry.flows := by
    cases hf : q.telemetry.flows[flow]? with
    | none =>
      have hzero : q.count c (some flow) = 0 := by
        rw [count, hf]
        exact c.ofFlow_default
      omega
    | some s =>
      have hcount : q.count c (some flow) = c.ofFlow s := by rw [count, hf, Option.getD_some]
      rw [hcount]
      exact OrderedMap.le_sumBy c.ofFlow _ hf
  rw [count_note hacts q flow c none] at hmax ⊢
  simp only [FlowScope.covers, Option.all_none, if_true] at hmax ⊢
  by_cases hc : c = c₀
  · -- Neither the total nor the part of the flow has reached the maximum.
    simp only [RealtimeSendQueue.raise, hc, if_true, saturatingAdd, counterMax] at hmax hsum ⊢
    rw [hc] at hle
    have hold := h c₀ (by rw [counterMax]; omega)
    omega
  · simp only [RealtimeSendQueue.raise, hc, if_false] at hmax hsum ⊢
    have hold := h c hmax
    omega

theorem Balanced.sent (h : q.Balanced) (datagram : QueuedRealtimeDatagram) :
    (q.noteSent datagram).Balanced := by
  obtain ⟨total, stats, he, hacts⟩ := noteSent_eq q datagram
  rw [he]
  intro c hmax
  have hsum := sumBy_note hacts q datagram.flow c
  rw [count_note hacts, ite_self] at hmax ⊢
  have hold := h c hmax
  omega

end RealtimeSendQueue

theorem QueueChange.balanced {q q' : RealtimeSendQueue} {e : QueueEvent}
    (h : QueueChange q e q') (hq : q.Balanced) : q'.Balanced := by
  have hdropped (groups : ExtTreeMap RealtimeFlowId PendingGroup) (flow : RealtimeFlowId)
      (reason : DropReason) (n : ℕ) :
      ({ q with groups }.noteDropped flow reason n).Balanced := by
    obtain ⟨total, stats, he, hacts⟩ :=
      RealtimeSendQueue.noteDropped_eq { q with groups } flow reason n
    rw [he]
    exact RealtimeSendQueue.Balanced.raise (q := { q with groups }) hq hacts
  cases h with
  | dropped reason hgroup => exact hdropped _ _ _ _
  | refused flow reason => exact hdropped q.groups _ _ _
  | overflowed hgroup => exact hdropped _ _ _ _
  | appended hgroup hgeneration hsequence hroom hbytes =>
    obtain ⟨total, stats, he, hacts⟩ := RealtimeSendQueue.noteQueued_eq _ _
    rw [he]
    exact RealtimeSendQueue.Balanced.raise (q := { q with groups := _ }) hq hacts
  | started hnone hroom =>
    obtain ⟨total, stats, he, hacts⟩ := RealtimeSendQueue.noteQueued_eq _ _
    rw [he]
    exact RealtimeSendQueue.Balanced.raise
      (q := { q with nextInsertionOrder := _, groups := _ }) hq hacts
  | popped | cleared => exact hq
  | sent datagram => exact RealtimeSendQueue.Balanced.sent hq datagram
  | limited hgroups hconfig hlimit hcounters | noted hgroups hconfig hlimit hcounters =>
    intro c hmax
    rw [RealtimeSendQueue.count_congr hcounters] at hmax ⊢
    rw [hcounters.2.2.2.2]
    exact hq c hmax

/-- A counter is what its events add up to, cut off at the maximum. -/
theorem QueueChange.count_min {q q' : RealtimeSendQueue} {e : QueueEvent}
    (h : QueueChange q e q') {c : QueueCounter} {scope : FlowScope} {n : ℕ}
    (hn : q.count c scope = min n RealtimeSendQueue.counterMax) :
    q'.count c scope = min (n+e.amount scope c) RealtimeSendQueue.counterMax := by
  -- An event notes one counter of one flow.
  have hraised {q₁ : RealtimeSendQueue} {flow : RealtimeFlowId} {c₀ : QueueCounter} {k : ℕ}
      {total : RealtimeTelemetry → RealtimeTelemetry}
      {stats : RealtimeFlowTelemetry → RealtimeFlowTelemetry}
      (hacts : RealtimeSendQueue.Acts (RealtimeSendQueue.raise c₀ k) total stats)
      (hq₁ : q₁.count c scope = q.count c scope) :
      (q₁.note flow total stats).count c scope =
        min (n+if scope.covers flow ∧ c = c₀ then k else 0) RealtimeSendQueue.counterMax := by
    rw [RealtimeSendQueue.count_note hacts, hq₁, hn]
    by_cases hf : scope.covers flow = true <;> by_cases hc : c = c₀ <;>
      simp only [hf, hc, RealtimeSendQueue.raise, saturatingAdd, RealtimeSendQueue.counterMax,
        if_true, if_false, and_self, and_true, and_false, Bool.false_eq_true, Nat.add_zero]
    omega
  have hdropped (groups : ExtTreeMap RealtimeFlowId PendingGroup) (flow : RealtimeFlowId)
      (reason : DropReason) (k : ℕ) :
      ({ q with groups }.noteDropped flow reason k).count c scope =
        min (n+if scope.covers flow ∧ c = reason.counter then k else 0)
          RealtimeSendQueue.counterMax := by
    obtain ⟨total, stats, he, hacts⟩ :=
      RealtimeSendQueue.noteDropped_eq { q with groups } flow reason k
    rw [he]
    exact hraised hacts rfl
  cases h with
  | dropped reason hgroup => exact hdropped _ _ _ _
  | refused flow reason => exact hdropped q.groups _ _ _
  | overflowed hgroup => exact hdropped _ _ .congested _
  | appended hgroup hgeneration hsequence hroom hbytes =>
    obtain ⟨total, stats, he, hacts⟩ := RealtimeSendQueue.noteQueued_eq _ _
    rw [he]
    exact hraised hacts rfl
  | started hnone hroom =>
    obtain ⟨total, stats, he, hacts⟩ := RealtimeSendQueue.noteQueued_eq _ _
    rw [he]
    exact hraised hacts rfl
  | popped | cleared => exact hn
  | sent datagram =>
    obtain ⟨total, stats, he, hacts⟩ := RealtimeSendQueue.noteSent_eq q datagram
    rw [he, RealtimeSendQueue.count_note hacts, ite_self]
    exact hn
  | limited hgroups hconfig hlimit hcounters | noted hgroups hconfig hlimit hcounters =>
    rw [RealtimeSendQueue.count_congr hcounters]
    exact hn

/-! ### Calls and runs -/

/-- What several events amount to. -/
def tally (f : QueueEvent → ℕ) (es : List QueueEvent) : ℕ := (es.map f).sum

theorem tally_append (f : QueueEvent → ℕ) (es fs : List QueueEvent) :
    tally f (es ++ fs) = tally f es+tally f fs := by
  rw [tally, List.map_append, List.sum_append]
  rfl

theorem tally_cons (f : QueueEvent → ℕ) (e : QueueEvent) (es : List QueueEvent) :
    tally f (e :: es) = f e+tally f es := by
  rw [tally, List.map_cons, List.sum_cons]
  rfl

theorem tally_zero {f : QueueEvent → ℕ} {es : List QueueEvent} (h : ∀ e ∈ es, f e = 0) :
    tally f es = 0 := by
  apply List.sum_eq_zero
  intro n hn
  obtain ⟨e, he, rfl⟩ := List.mem_map.mp hn
  exact h e he

theorem tally_lost (scope : FlowScope) (es : List QueueEvent) :
    tally (QueueEvent.lost scope) es =
      tally (QueueEvent.amount scope .replaced) es+tally (QueueEvent.amount scope .expired) es+
        tally (QueueEvent.amount scope .congestionDropped) es := by
  induction es with
  | nil => rfl
  | cons e es ih =>
    simp only [tally_cons, ih, QueueEvent.lost]
    omega

section Changes
variable {q q' : RealtimeSendQueue} {es : List QueueEvent}

theorem QueueChanges.conserves (h : QueueChanges q es q') (scope : FlowScope) :
    pendingIn q.groups scope+tally (QueueEvent.offered scope) es =
      pendingIn q'.groups scope+tally (QueueEvent.taken scope) es+
        tally (QueueEvent.removed scope) es+tally (QueueEvent.lost scope) es := by
  induction h with
  | nil => rfl
  | cons hfirst _ ih =>
    have hone := hfirst.conserves scope
    simp only [tally_cons]
    omega

theorem QueueChanges.count_min (h : QueueChanges q es q') {c : QueueCounter} {scope : FlowScope}
    {n : ℕ} (hn : q.count c scope = min n RealtimeSendQueue.counterMax) :
    q'.count c scope =
      min (n+tally (QueueEvent.amount scope c) es) RealtimeSendQueue.counterMax := by
  induction h generalizing n with
  | nil => exact hn
  | cons hfirst _ ih =>
    rw [ih (hfirst.count_min hn), tally_cons, Nat.add_assoc]

end Changes

/-- An `enqueue` of the scope that returned `Ok`. -/
def offeredBy (scope : FlowScope) : QueueOp → QueueReply → ℕ
  | .enqueue d _, .enqueued (.ok _) => if scope.covers d.flow then 1 else 0
  | _, _ => 0

/-- An `enqueue` of the scope that returned `Enqueued` or `ReplacedOlder`. -/
def queuedBy (scope : FlowScope) : QueueOp → QueueReply → ℕ
  | .enqueue d _, .enqueued (.ok .enqueued) | .enqueue d _, .enqueued (.ok .replacedOlder) =>
    if scope.covers d.flow then 1 else 0
  | _, _ => 0

/-- A pop that returned a datagram of the scope. -/
def takenBy (scope : FlowScope) (op : QueueOp) : QueueReply → ℕ
  | .popped (some d) => if op.popTime.isSome ∧ scope.covers d.flow then 1 else 0
  | _ => 0

/-- The datagrams of the scope that a call removes without a trace. -/
def removedBy (scope : FlowScope) (q : RealtimeSendQueue) (op : QueueOp) : ℕ :=
  if op.clears then pendingIn q.groups scope else 0

theorem takenBy_of_popTime {op : QueueOp} (h : op.popTime = none) (scope : FlowScope)
    (reply : QueueReply) : takenBy scope op reply = 0 := by
  unfold takenBy
  split
  · simp [h]
  · rfl

/-- A quiet event puts nothing in and takes nothing out but what it notes as lost. -/
theorem tally_quiet {es : List QueueEvent} (h : ∀ e ∈ es, e.quiet = true) (scope : FlowScope) :
    tally (QueueEvent.offered scope) es = 0 ∧
      tally (QueueEvent.amount scope .queued) es = 0 ∧
      tally (QueueEvent.taken scope) es = 0 ∧ tally (QueueEvent.removed scope) es = 0 := by
  have hzero : ∀ e ∈ es, e.offered scope = 0 ∧ e.amount scope .queued = 0 ∧
      e.taken scope = 0 ∧ e.removed scope = 0 := by
    intro e he
    have hquiet := h e he
    cases e with
    | dropped flow group reason => cases reason <;> simp [DropReason.counter]
    | sent | noted => simp
    | _ => cases hquiet
  exact ⟨tally_zero fun e he => (hzero e he).1, tally_zero fun e he => (hzero e he).2.1,
    tally_zero fun e he => (hzero e he).2.2.1, tally_zero fun e he => (hzero e he).2.2.2⟩

theorem EnqueueCase.adds_up {q : RealtimeSendQueue} {d : RealtimeDatagram} {now : ℕ}
    {result : Except TransportError SendOutcome} {es : List QueueEvent}
    (h : EnqueueCase q d now result es) (scope : FlowScope) :
    tally (QueueEvent.offered scope) es = offeredBy scope (.enqueue d now) (.enqueued result) ∧
      tally (QueueEvent.amount scope .queued) es =
        queuedBy scope (.enqueue d now) (.enqueued result) ∧
      tally (QueueEvent.taken scope) es = 0 ∧ tally (QueueEvent.removed scope) es = 0 := by
  cases h <;> simp [tally, offeredBy, queuedBy, DropReason.counter]

/-- The events of a call add up to what its answer tells. -/
theorem OpEvents.adds_up {q : RealtimeSendQueue} {op : QueueOp} {reply : QueueReply}
    {es : List QueueEvent} (h : OpEvents q op reply es) (scope : FlowScope) :
    tally (QueueEvent.offered scope) es = offeredBy scope op reply ∧
      tally (QueueEvent.amount scope .queued) es = queuedBy scope op reply ∧
      tally (QueueEvent.taken scope) es = takenBy scope op reply ∧
      tally (QueueEvent.removed scope) es = removedBy scope q op := by
  -- The drops before an operation count for none of the four; what is left is one event or none.
  cases h with
  | enqueue hdrops hcase =>
    obtain ⟨h1, h2, h3, h4⟩ := tally_quiet hdrops scope
    obtain ⟨g1, g2, g3, g4⟩ := hcase.adds_up scope
    rw [tally_append, tally_append, tally_append, tally_append, h1, h2, h3, h4, g1, g2, g3, g4,
      Nat.zero_add, Nat.zero_add]
    exact ⟨rfl, rfl, rfl, rfl⟩
  | missed hop hdrops hchoice =>
    rw [(tally_quiet hdrops scope).1, (tally_quiet hdrops scope).2.1,
      (tally_quiet hdrops scope).2.2.1, (tally_quiet hdrops scope).2.2.2]
    cases op <;> first | exact ⟨rfl, rfl, rfl, rfl⟩ | cases hop
  | popped hop hdrops hchoice hgroup hpayload =>
    obtain ⟨h1, h2, h3, h4⟩ := tally_quiet hdrops scope
    simp only [tally_append, h1, h2, h3, h4, Nat.zero_add]
    cases op with
    | popNext now | popNextFitting now maxWireLen =>
      simp [tally, offeredBy, queuedBy, takenBy, removedBy, QueueOp.popTime,
        QueueOp.clears, PendingGroup.queued]
    | _ => cases hop
  | cleared hop =>
    cases op with
    | resetForReconnect | clearPending =>
      simp [tally, offeredBy, queuedBy, takenBy, removedBy, QueueOp.clears]
    | _ => cases hop
  | limited hdrops =>
    obtain ⟨h1, h2, h3, h4⟩ := tally_quiet hdrops scope
    rw [takenBy_of_popTime rfl, tally_cons, tally_cons, tally_cons, tally_cons, h1, h2, h3, h4]
    exact ⟨rfl, rfl, rfl, rfl⟩
  | quiet hop hes =>
    obtain ⟨h1, h2, h3, h4⟩ := tally_quiet hes scope
    rw [takenBy_of_popTime (QueueOp.popTime_of_quiet (.inl hop)), h1, h2, h3, h4]
    cases op <;> first | exact ⟨rfl, rfl, rfl, rfl⟩ | cases hop

/-! ### The account of a run -/

def offeredIn (scope : FlowScope) (hist : QueueHistory) : ℕ :=
  (hist.map fun e => offeredBy scope e.input e.reply).sum

def queuedIn (scope : FlowScope) (hist : QueueHistory) : ℕ :=
  (hist.map fun e => queuedBy scope e.input e.reply).sum

def takenIn (scope : FlowScope) (hist : QueueHistory) : ℕ :=
  (hist.map fun e => takenBy scope e.input e.reply).sum

def removedIn (scope : FlowScope) (hist : QueueHistory) : ℕ :=
  (hist.map fun e => removedBy scope e.pre e.input).sum

/-- The account so far, with what the counters would hold without a maximum. -/
structure QueueAccount (hist : QueueHistory) (q : RealtimeSendQueue) : Prop where
  bounded : q.Bounded
  balanced : q.Balanced
  noted : ∃ exact : QueueCounter → FlowScope → ℕ,
    (∀ c scope, q.count c scope = min (exact c scope) RealtimeSendQueue.counterMax) ∧
    ∀ scope, exact .queued scope = queuedIn scope hist ∧
      offeredIn scope hist = takenIn scope hist+pendingIn q.groups scope+
        (exact .replaced scope+exact .expired scope+exact .congestionDropped scope)+
        removedIn scope hist

theorem QueueAccount.step {hist : QueueHistory} {q : RealtimeSendQueue}
    (h : QueueAccount hist q) (op : QueueOp) :
    QueueAccount (hist ++ [event RealtimeSendQueue.step q op]) (q.step op).2 := by
  obtain ⟨es, hevents, hchanges⟩ := RealtimeSendQueue.step_events h.bounded op
  obtain ⟨exact, hcount, hledger⟩ := h.noted
  refine ⟨h.bounded.step op, hchanges.invariant QueueChange.balanced h.balanced, ?_⟩
  refine ⟨fun c scope => exact c scope+tally (QueueEvent.amount scope c) es,
    fun c scope => hchanges.count_min (hcount c scope), fun scope => ?_⟩
  obtain ⟨hoffered, hqueued, htaken, hremoved⟩ := hevents.adds_up scope
  obtain ⟨hold, hbalance⟩ := hledger scope
  have hconserves := hchanges.conserves scope
  rw [tally_lost, hoffered, htaken, hremoved] at hconserves
  have hsum (f : QueueRecord → ℕ) (e : QueueRecord) :
      ((hist ++ [e]).map f).sum = (hist.map f).sum+f e := by simp
  simp only [offeredIn, queuedIn, takenIn, removedIn, hsum] at hold hbalance ⊢
  simp only [event]
  refine ⟨by rw [hold, hqueued], ?_⟩
  omega

section Run
variable {config : RealtimeQueueConfig} {maxPayload : ℕ} {q : RealtimeSendQueue}

theorem queueAccount_run (h : RealtimeSendQueue.new config maxPayload = .ok q)
    (ops : List QueueOp) :
    QueueAccount (trace RealtimeSendQueue.step q ops) (run RealtimeSendQueue.step q ops) := by
  refine run_history _ ?_ (fun _ _ op h => h.step op) ops
  obtain ⟨hgroups, -, hflows, -⟩ := RealtimeSendQueue.new_spec h
  have hzero (c : QueueCounter) (scope : FlowScope) : q.count c scope = 0 := by
    cases scope with
    | none =>
      unfold RealtimeSendQueue.new at h
      split at h
      · cases h
      · obtain rfl := Except.ok.inj h
        cases c <;> rfl
    | some flow =>
      rw [RealtimeSendQueue.count, hflows, ExtTreeMap.getElem?_empty]
      exact c.ofFlow_default
  have hpending (scope : FlowScope) : pendingIn q.groups scope = 0 := by
    rw [hgroups]
    cases scope with
    | none => exact OrderedMap.sumBy_empty _
    | some flow => simp [pendingIn]
  refine ⟨RealtimeSendQueue.bounded_new h, fun c _ => ?_, fun _ _ => 0, fun c scope => ?_,
    fun scope => ⟨rfl, ?_⟩⟩
  · rw [hzero, hflows]
    exact OrderedMap.sumBy_empty _
  · rw [hzero]
    rfl
  · rw [hpending]
    rfl

/-- A call offers and queues one datagram at most, so no counter passes the number of calls. -/
theorem count_le_length (h : RealtimeSendQueue.new config maxPayload = .ok q)
    (ops : List QueueOp) (c : QueueCounter) (scope : FlowScope) :
    (run RealtimeSendQueue.step q ops).count c scope ≤ ops.length := by
  have hlength := congrArg List.length (map_input_trace RealtimeSendQueue.step q ops)
  rw [List.length_map] at hlength
  rw [← hlength]
  have haccount := queueAccount_run h ops
  generalize trace RealtimeSendQueue.step q ops = hist at haccount ⊢
  generalize run RealtimeSendQueue.step q ops = last at haccount ⊢
  have hsum (f : QueueRecord → ℕ) (hf : ∀ e, f e ≤ 1) : (hist.map f).sum ≤ hist.length := by
    have hle := List.sum_le_card_nsmul (hist.map f) 1 (by simpa using fun e _ => hf e)
    simpa using hle
  have hoffered : offeredIn scope hist ≤ hist.length := hsum _ fun e => by
    unfold offeredBy
    split
    · split <;> omega
    · omega
  have hqueued : queuedIn scope hist ≤ hist.length := hsum _ fun e => by
    unfold queuedBy
    split
    · split <;> omega
    · split <;> omega
    · omega
  obtain ⟨exact, hcount, hledger⟩ := haccount.noted
  obtain ⟨hold, hbalance⟩ := hledger scope
  rw [hcount]
  cases c <;> omega

/-- While the counters are below their maximum, every datagram of an accepted call, of one flow or
of all, has been popped, is pending, was replaced, expired or dropped, or was removed with the
whole queue; `queued` counts the calls that queued one; and the totals are the sums over the
flows. -/
theorem telemetry_accounts_for_datagrams (h : RealtimeSendQueue.new config maxPayload = .ok q)
    (ops : List QueueOp)
    (hbelow : ∀ c scope, (run RealtimeSendQueue.step q ops).count c scope < 2^64-1) :
    (∀ scope, offeredIn scope (trace RealtimeSendQueue.step q ops) =
      takenIn scope (trace RealtimeSendQueue.step q ops)+
        pendingIn (run RealtimeSendQueue.step q ops).groups scope+
        ((run RealtimeSendQueue.step q ops).count .replaced scope+
          (run RealtimeSendQueue.step q ops).count .expired scope+
          (run RealtimeSendQueue.step q ops).count .congestionDropped scope)+
        removedIn scope (trace RealtimeSendQueue.step q ops)) ∧
    (∀ scope, (run RealtimeSendQueue.step q ops).count .queued scope =
      queuedIn scope (trace RealtimeSendQueue.step q ops)) ∧
    ∀ c, (run RealtimeSendQueue.step q ops).count c none =
      OrderedMap.sumBy c.ofFlow (run RealtimeSendQueue.step q ops).telemetry.flows := by
  have haccount := queueAccount_run h ops
  generalize trace RealtimeSendQueue.step q ops = hist at haccount ⊢
  generalize run RealtimeSendQueue.step q ops = last at haccount hbelow ⊢
  obtain ⟨exact, hcount, hledger⟩ := haccount.noted
  -- Below the maximum a counter is exact.
  have hexact (c : QueueCounter) (scope : FlowScope) : last.count c scope = exact c scope := by
    have hlt := hbelow c scope
    rw [hcount, RealtimeSendQueue.counterMax] at hlt ⊢
    omega
  refine ⟨fun scope => ?_, fun scope => ?_, fun c => (haccount.balanced c (hbelow c none)).symm⟩
  · simp only [hexact]
    exact (hledger scope).2
  · rw [hexact]
    exact (hledger scope).1

end Run

theorem small_run_is_accounted :
    (run RealtimeSendQueue.step smallQueue smallOps).count .queued none =
      queuedIn none (trace RealtimeSendQueue.step smallQueue smallOps) :=
  (telemetry_accounts_for_datagrams smallQueue_new smallOps fun c scope =>
    (count_le_length smallQueue_new smallOps c scope).trans_lt (by decide)).2.1 none

end MutsukiLink
