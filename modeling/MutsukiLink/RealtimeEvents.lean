import MutsukiLink.RealtimeCases

/-! The operations of the send queue as lists of events: a group is dropped, a datagram is refused,
appended to its group, given a group of its own, or popped. -/
namespace MutsukiLink
open Std WireBytes

namespace PendingGroup

/-- The group after `append_to_group`. -/
def extend (group : PendingGroup) (datagram : RealtimeDatagram) : PendingGroup :=
  { group with
    deadline := min group.deadline datagram.deadline
    priority := group.priority.min datagram.priority
    datagrams := group.datagrams ++ [datagram.payload]
    payloadBytes := group.payloadBytes+datagram.payload.length }

/-- What a group hands out with one of its payloads. -/
def queued (group : PendingGroup) (flow : RealtimeFlowId) (payload : Bytes) :
    QueuedRealtimeDatagram :=
  { flow, generation := group.generation, sequence := group.sequence
    deadline := group.deadline, priority := group.priority, payload }

end PendingGroup

/-- The group that a datagram starts. -/
def RealtimeDatagram.group (datagram : RealtimeDatagram) (insertionOrder : UInt64) : PendingGroup :=
  { generation := datagram.generation, sequence := datagram.sequence
    deadline := datagram.deadline, priority := datagram.priority
    datagrams := [datagram.payload], payloadBytes := datagram.payload.length, insertionOrder }

namespace RealtimeSendQueue

/-- The counter that a reason for dropping is noted in. -/
def noteDropped (q : RealtimeSendQueue) (flow : RealtimeFlowId) (reason : DropReason) (count : ℕ) :
    RealtimeSendQueue :=
  match reason with
  | .replaced => q.noteReplaced flow count
  | .expired => q.noteExpired flow count
  | .congested => q.noteCongestionDrop flow count

/-- The four counters that follow the datagrams are the same. -/
def SameCounters (t t' : RealtimeTelemetry) : Prop :=
  t'.queued = t.queued ∧ t'.replaced = t.replaced ∧ t'.expired = t.expired ∧
    t'.congestionDropped = t.congestionDropped ∧ t'.flows = t.flows

end RealtimeSendQueue

inductive QueueEvent where
  | dropped (flow : RealtimeFlowId) (group : PendingGroup) (reason : DropReason)
  | refused (flow : RealtimeFlowId) (reason : DropReason)
  | overflowed (flow : RealtimeFlowId) (group : PendingGroup)
  | appended (datagram : RealtimeDatagram) (group : PendingGroup)
  | started (datagram : RealtimeDatagram)
  | popped (now : ℕ) (flow : RealtimeFlowId) (group : PendingGroup) (payload : Bytes)
      (rest : List Bytes)
  | cleared (groups : ExtTreeMap RealtimeFlowId PendingGroup)
  | sent (datagram : QueuedRealtimeDatagram)
  | limited (maxPayload : ℕ)
  | noted

/-- One event, where it is possible. -/
inductive QueueChange (q : RealtimeSendQueue) : QueueEvent → RealtimeSendQueue → Prop
  | dropped {flow : RealtimeFlowId} {group : PendingGroup} (reason : DropReason)
      (hgroup : q.groups[flow]? = some group) :
      QueueChange q (.dropped flow group reason)
        ({ q with groups := q.groups.erase flow }.noteDropped flow reason group.datagrams.length)
  | refused (flow : RealtimeFlowId) (reason : DropReason) :
      QueueChange q (.refused flow reason) (q.noteDropped flow reason 1)
  | overflowed {flow : RealtimeFlowId} {group : PendingGroup}
      (hgroup : q.groups[flow]? = some group) :
      QueueChange q (.overflowed flow group)
        ({ q with groups := q.groups.erase flow }.noteDropped flow .congested
          (group.datagrams.length+1))
  | appended {datagram : RealtimeDatagram} {group : PendingGroup}
      (hgroup : q.groups[datagram.flow]? = some group)
      (hgeneration : datagram.generation = group.generation)
      (hsequence : datagram.sequence = group.sequence)
      (hroom : group.datagrams.length < q.config.maxDatagramsPerGroup)
      (hbytes : group.payloadBytes+datagram.payload.length ≤ q.config.maxGroupBytes) :
      QueueChange q (.appended datagram group)
        ({ q with groups := q.groups.insert datagram.flow (group.extend datagram) }.noteQueued
          datagram.flow)
  | started {datagram : RealtimeDatagram} (hnone : q.groups[datagram.flow]? = none)
      (hroom : q.groups.size < q.config.maxFlows) :
      QueueChange q (.started datagram)
        ({ q with
          nextInsertionOrder := q.nextInsertionOrder+1
          groups := q.groups.insert datagram.flow (datagram.group q.nextInsertionOrder)
          }.noteQueued datagram.flow)
  | popped {now : ℕ} {flow : RealtimeFlowId} {group : PendingGroup} {payload : Bytes}
      {rest : List Bytes} (hgroup : q.groups[flow]? = some group)
      (hpayload : group.datagrams = payload :: rest) (hnow : now < group.deadline) :
      QueueChange q (.popped now flow group payload rest)
        { q with groups := if rest = [] then q.groups.erase flow
          else q.groups.insert flow { group with datagrams := rest } }
  | cleared : QueueChange q (.cleared q.groups) { q with groups := ∅ }
  | sent (datagram : QueuedRealtimeDatagram) : QueueChange q (.sent datagram) (q.noteSent datagram)
  | limited {q' : RealtimeSendQueue} {maxPayload : ℕ} (hgroups : q'.groups = q.groups)
      (hconfig : q'.config = q.config) (hlimit : q'.maxPayload = maxPayload)
      (hcounters : RealtimeSendQueue.SameCounters q.telemetry q'.telemetry) :
      QueueChange q (.limited maxPayload) q'
  | noted {q' : RealtimeSendQueue} (hgroups : q'.groups = q.groups) (hconfig : q'.config = q.config)
      (hlimit : q'.maxPayload = q.maxPayload)
      (hcounters : RealtimeSendQueue.SameCounters q.telemetry q'.telemetry) :
      QueueChange q .noted q'

inductive QueueChanges : RealtimeSendQueue → List QueueEvent → RealtimeSendQueue → Prop
  | nil (q : RealtimeSendQueue) : QueueChanges q [] q
  | cons {q q' q'' : RealtimeSendQueue} {e : QueueEvent} {es : List QueueEvent}
      (hfirst : QueueChange q e q') (hrest : QueueChanges q' es q'') : QueueChanges q (e :: es) q''

namespace QueueChanges
variable {q q' q'' : RealtimeSendQueue} {e : QueueEvent} {es fs : List QueueEvent}

theorem single (h : QueueChange q e q') : QueueChanges q [e] q' := .cons h (.nil q')

theorem append (h : QueueChanges q es q') (h' : QueueChanges q' fs q'') :
    QueueChanges q (es ++ fs) q'' := by
  induction h with
  | nil => exact h'
  | cons hfirst _ ih => exact .cons hfirst (ih h')

/-- The last of several events. -/
theorem concat (h : QueueChanges q (es ++ [e]) q'') :
    ∃ q', QueueChanges q es q' ∧ QueueChange q' e q'' := by
  induction es generalizing q with
  | nil =>
    cases h with
    | cons hfirst hrest =>
      cases hrest
      exact ⟨q, .nil q, hfirst⟩
  | cons f es ih =>
    cases h with
    | cons hfirst hrest =>
      obtain ⟨q', hes, hlast⟩ := ih hrest
      exact ⟨q', .cons hfirst hes, hlast⟩

/-- What every event keeps holds after all of them. -/
theorem invariant {I : RealtimeSendQueue → Prop}
    (hkeep : ∀ {q q' : RealtimeSendQueue} {e : QueueEvent}, QueueChange q e q' → I q → I q')
    (h : QueueChanges q es q') (hq : I q) : I q' := by
  induction h with
  | nil => exact hq
  | cons hfirst _ ih => exact ih (hkeep hfirst hq)

end QueueChanges

namespace QueueEvent

/-- Events that only take groups away, or touch none. -/
def quiet : QueueEvent → Bool
  | dropped .. | sent _ | noted => true
  | _ => false

end QueueEvent

namespace RealtimeSendQueue
variable {q q' : RealtimeSendQueue}

/-- The limits that a queue keeps to, apart from the payload limit. -/
structure Bounded (q : RealtimeSendQueue) : Prop where
  flows : q.groups.size ≤ q.config.maxFlows
  nonempty : ∀ (flow : RealtimeFlowId) (group : PendingGroup), q.groups[flow]? = some group →
    group.datagrams ≠ []
  short : ∀ (flow : RealtimeFlowId) (group : PendingGroup), q.groups[flow]? = some group →
    group.datagrams.length ≤ q.config.maxDatagramsPerGroup
  positive : 0 < q.config.maxDatagramsPerGroup

theorem noteDropped_groups (q : RealtimeSendQueue) (flow : RealtimeFlowId) (reason : DropReason)
    (count : ℕ) : (q.noteDropped flow reason count).groups = q.groups := by
  cases reason <;> rfl

theorem noteDropped_maxPayload (q : RealtimeSendQueue) (flow : RealtimeFlowId)
    (reason : DropReason) (count : ℕ) :
    (q.noteDropped flow reason count).maxPayload = q.maxPayload := by
  cases reason <;> rfl

theorem noteDropped_config (q : RealtimeSendQueue) (flow : RealtimeFlowId) (reason : DropReason)
    (count : ℕ) : (q.noteDropped flow reason count).config = q.config := by
  cases reason <;> rfl

end RealtimeSendQueue

theorem QueueChange.config_eq {q q' : RealtimeSendQueue} {e : QueueEvent}
    (h : QueueChange q e q') : q'.config = q.config := by
  cases h with
  | dropped reason => exact RealtimeSendQueue.noteDropped_config _ _ _ _
  | refused flow reason => exact RealtimeSendQueue.noteDropped_config _ _ _ _
  | limited hgroups hconfig | noted hgroups hconfig => exact hconfig
  | overflowed | appended | started | popped | cleared | sent => rfl

theorem QueueChanges.config_eq {q q' : RealtimeSendQueue} {es : List QueueEvent}
    (h : QueueChanges q es q') : q'.config = q.config := by
  induction h with
  | nil => rfl
  | cons hfirst _ ih => exact ih.trans hfirst.config_eq

/-- Only the event made for it changes the payload limit. -/
theorem QueueChange.maxPayload_eq {q q' : RealtimeSendQueue} {e : QueueEvent}
    (h : QueueChange q e q') (he : ∀ maxPayload, e ≠ .limited maxPayload) :
    q'.maxPayload = q.maxPayload := by
  cases h with
  | dropped reason => exact RealtimeSendQueue.noteDropped_maxPayload _ _ _ _
  | refused flow reason => exact RealtimeSendQueue.noteDropped_maxPayload _ _ _ _
  | limited => exact absurd rfl (he _)
  | noted hgroups hconfig hlimit => exact hlimit
  | overflowed | appended | started | popped | cleared | sent => rfl

theorem QueueChanges.maxPayload_eq {q q' : RealtimeSendQueue} {es : List QueueEvent}
    (h : QueueChanges q es q') (hes : ∀ e ∈ es, ∀ maxPayload, e ≠ .limited maxPayload) :
    q'.maxPayload = q.maxPayload := by
  induction h with
  | nil => rfl
  | cons hfirst _ ih =>
    obtain ⟨he, hes⟩ := List.forall_mem_cons.mp hes
    exact (ih hes).trans (hfirst.maxPayload_eq he)

namespace RealtimeSendQueue
variable {q q' : RealtimeSendQueue} {e : QueueEvent} {es : List QueueEvent}

/-- Where a group is written, the limits hold of it. -/
theorem Bounded.insert (h : q.Bounded) {flow : RealtimeFlowId} {group : PendingGroup}
    (hsize : (q.groups.insert flow group).size ≤ q.config.maxFlows)
    (hne : group.datagrams ≠ [])
    (hlen : group.datagrams.length ≤ q.config.maxDatagramsPerGroup)
    (hgroups : q'.groups = q.groups.insert flow group) (hconfig : q'.config = q.config) :
    q'.Bounded := by
  refine ⟨by rwa [hgroups, hconfig], fun f g hg => ?_, fun f g hg => ?_, hconfig ▸ h.positive⟩
  · rw [hgroups, OrderedMap.lookup_insert] at hg
    split at hg
    · obtain rfl := Option.some.inj hg
      exact hne
    · exact h.nonempty f g hg
  · rw [hgroups, OrderedMap.lookup_insert] at hg
    rw [hconfig]
    split at hg
    · obtain rfl := Option.some.inj hg
      exact hlen
    · exact h.short f g hg

theorem Bounded.fewer (h : q.Bounded) (hfewer : Fewer q q')
    (hsize : q'.groups.size ≤ q.groups.size) (hconfig : q'.config = q.config) : q'.Bounded :=
  ⟨hconfig ▸ hsize.trans h.flows, fun f g hg => h.nonempty f g (hfewer f g hg),
    fun f g hg => hconfig ▸ h.short f g (hfewer f g hg), hconfig ▸ h.positive⟩

theorem Bounded.erase (h : q.Bounded) {flow : RealtimeFlowId}
    (hgroups : q'.groups = q.groups.erase flow) (hconfig : q'.config = q.config) :
    q'.Bounded := by
  refine h.fewer ((Fewer.erase q flow).trans (.of_groups hgroups)) ?_ hconfig
  rw [hgroups]
  exact ExtTreeMap.size_erase_le

theorem Bounded.change (h : q.Bounded) (hchange : QueueChange q e q') : q'.Bounded := by
  cases hchange with
  | dropped reason hgroup =>
    exact h.erase (noteDropped_groups _ _ _ _) (noteDropped_config _ _ _ _)
  | refused flow reason =>
    exact h.fewer (.of_groups (noteDropped_groups _ _ _ _))
      (by rw [noteDropped_groups]) (noteDropped_config _ _ _ _)
  | overflowed hgroup => exact h.erase rfl rfl
  | appended hgroup hgeneration hsequence hroom hbytes =>
    refine h.insert ?_ ?_ ?_ rfl rfl
    · rw [OrderedMap.size_insert_live _ _ hgroup]
      exact h.flows
    · simp [PendingGroup.extend]
    · rw [PendingGroup.extend, List.length_append, List.length_singleton]
      exact hroom
  | started hnone hroom =>
    refine h.insert ?_ ?_ ?_ rfl rfl
    · rw [OrderedMap.size_insert_new _ _ hnone]
      exact hroom
    · simp [RealtimeDatagram.group]
    · exact h.positive
  | popped hgroup hpayload hnow =>
    rename_i now flow group payload rest
    -- An empty group would break the invariant, and it is not kept.
    by_cases hrest : rest = []
    · exact h.erase (if_pos hrest) rfl
    · have hshort := h.short flow group hgroup
      rw [hpayload, List.length_cons] at hshort
      refine h.insert ?_ hrest (by simpa using by omega) (if_neg hrest) rfl
      rw [OrderedMap.size_insert_live _ _ hgroup]
      exact h.flows
  | cleared =>
    refine ⟨?_, fun f g hg => ?_, fun f g hg => ?_, h.positive⟩
    · simp
    · simp at hg
    · simp at hg
  | sent datagram => exact h.fewer (.of_groups rfl) le_rfl rfl
  | limited hgroups hconfig | noted hgroups hconfig =>
    exact h.fewer (.of_groups hgroups) (by rw [hgroups]) hconfig

theorem Bounded.changes (h : q.Bounded) (hchanges : QueueChanges q es q') : q'.Bounded :=
  hchanges.invariant (fun hchange hq => Bounded.change hq hchange) h

theorem new_spec {config : RealtimeQueueConfig} {maxPayload : ℕ}
    (h : RealtimeSendQueue.new config maxPayload = .ok q) :
    q.groups = ∅ ∧ q.config = config ∧ q.telemetry.flows = ∅ ∧ config.isValid = true := by
  unfold RealtimeSendQueue.new at h
  split at h
  · cases h
  · next hvalid =>
    obtain rfl := Except.ok.inj h
    rw [not_or, Bool.not_eq_false] at hvalid
    exact ⟨rfl, rfl, rfl, hvalid.1⟩

theorem bounded_new {config : RealtimeQueueConfig} {maxPayload : ℕ}
    (h : RealtimeSendQueue.new config maxPayload = .ok q) : q.Bounded := by
  obtain ⟨hgroups, hconfig, -, hvalid⟩ := new_spec h
  simp only [RealtimeQueueConfig.isValid, Bool.and_eq_true, decide_eq_true_eq] at hvalid
  refine ⟨?_, ?_, ?_, ?_⟩
  · simp [hgroups]
  · simp [hgroups]
  · simp [hgroups]
  · rw [hconfig]
    exact hvalid.1.2

/-! ### Groups dropped together -/

theorem dropFlowGroup_change {flow : RealtimeFlowId} {group : PendingGroup} (reason : DropReason)
    (h : q.groups[flow]? = some group) :
    QueueChange q (.dropped flow group reason) (q.dropFlowGroup flow reason).2 := by
  have he : (q.dropFlowGroup flow reason).2 =
      { q with groups := q.groups.erase flow }.noteDropped flow reason
        group.datagrams.length := by
    simp only [dropFlowGroup, h]
    cases reason <;> rfl
  rw [he]
  exact .dropped reason h

theorem dropFlowGroup_groups (q : RealtimeSendQueue) (flow : RealtimeFlowId)
    (reason : DropReason) : (q.dropFlowGroup flow reason).2.groups = q.groups.erase flow := by
  cases h : q.groups[flow]? with
  | some group =>
    simp only [dropFlowGroup, h]
    cases reason <;> rfl
  | none =>
    simp only [dropFlowGroup, h]
    apply ExtTreeMap.ext_getElem?
    intro f
    rw [OrderedMap.lookup_erase]
    by_cases hf : flow = f
    · rw [if_pos hf, ← hf, h]
    · rw [if_neg hf]

/-- Every drop of a list of flows is an event, and nothing else happens. -/
theorem dropFlowGroups_changes (q : RealtimeSendQueue) (flows : List RealtimeFlowId)
    (reason : DropReason) :
    ∃ es, QueueChanges q es (q.dropFlowGroups flows reason).2 ∧
      ∀ e ∈ es, ∃ flow group, e = .dropped flow group reason := by
  unfold dropFlowGroups
  generalize 0 = dropped
  induction flows generalizing q dropped with
  | nil => exact ⟨[], .nil q, by simp⟩
  | cons flow rest ih =>
    obtain ⟨es, hes, hall⟩ := ih (q.dropFlowGroup flow reason).2
      (dropped+(q.dropFlowGroup flow reason).1)
    cases h : q.groups[flow]? with
    | none =>
      have hsame : q.dropFlowGroup flow reason = (0, q) := by simp only [dropFlowGroup, h]
      rw [hsame] at hes
      exact ⟨es, by simpa [hsame] using hes, hall⟩
    | some group =>
      refine ⟨.dropped flow group reason :: es, .cons (dropFlowGroup_change reason h) hes, ?_⟩
      exact List.forall_mem_cons.mpr ⟨⟨flow, group, rfl⟩, hall⟩

theorem dropFlowGroups_lookup (q : RealtimeSendQueue) (flows : List RealtimeFlowId)
    (reason : DropReason) (flow : RealtimeFlowId) :
    (q.dropFlowGroups flows reason).2.groups[flow]? =
      if flow ∈ flows then none else q.groups[flow]? := by
  unfold dropFlowGroups
  generalize 0 = dropped
  induction flows generalizing q dropped with
  | nil => simp
  | cons f rest ih =>
    refine (ih (q.dropFlowGroup f reason).2 _).trans ?_
    rw [dropFlowGroup_groups, OrderedMap.lookup_erase]
    by_cases hf : f = flow
    · simp [hf]
    · have hne : ¬ flow = f := fun he => hf he.symm
      simp [hf, hne]

theorem mem_flowsWhere {test : PendingGroup → Bool} {flow : RealtimeFlowId} :
    flow ∈ q.flowsWhere test ↔ ∃ group, q.groups[flow]? = some group ∧ test group = true := by
  simp [flowsWhere, ExtTreeMap.mem_toList_iff_getElem?_eq_some]

/-- Dropping the groups that pass a test leaves the others as they are. -/
theorem dropWhere_lookup (q : RealtimeSendQueue) (test : PendingGroup → Bool)
    (reason : DropReason) (flow : RealtimeFlowId) :
    (q.dropFlowGroups (q.flowsWhere test) reason).2.groups[flow]? =
      q.groups[flow]?.filter fun group => !test group := by
  rw [dropFlowGroups_lookup]
  cases h : q.groups[flow]? with
  | none => simp
  | some group =>
    by_cases ht : test group = true
    · rw [if_pos (mem_flowsWhere.mpr ⟨group, h, ht⟩), Option.filter_some, ht]
      rfl
    · have hkept : flow ∉ q.flowsWhere test := by
        intro hmem
        obtain ⟨g, hg, htest⟩ := mem_flowsWhere.mp hmem
        obtain rfl := Option.some.inj (h.symm.trans hg)
        exact ht htest
      rw [if_neg hkept, Option.filter_some, Bool.eq_false_of_not_eq_true ht]
      rfl

/-- After expiry the groups are those with time left. -/
theorem expire_lookup (q : RealtimeSendQueue) (now : ℕ) (flow : RealtimeFlowId) :
    (q.expire now).2.groups[flow]? = q.groups[flow]?.filter fun group => now < group.deadline := by
  rw [expire, dropWhere_lookup]
  refine congrArg (Option.filter · _) (funext fun group => ?_)
  rw [← decide_not, decide_eq_decide]
  exact Nat.not_le

theorem expire_live {now : ℕ} {flow : RealtimeFlowId} {group : PendingGroup}
    (h : (q.expire now).2.groups[flow]? = some group) :
    q.groups[flow]? = some group ∧ now < group.deadline := by
  rw [expire_lookup, Option.filter_eq_some_iff, decide_eq_true_eq] at h
  exact h

theorem expire_changes (q : RealtimeSendQueue) (now : ℕ) :
    ∃ es, QueueChanges q es (q.expire now).2 ∧
      ∀ e ∈ es, ∃ flow group, e = .dropped flow group .expired :=
  dropFlowGroups_changes _ _ _

theorem Bounded.expire (hq : q.Bounded) (now : ℕ) : (q.expire now).2.Bounded := by
  obtain ⟨drops, hdrops, -⟩ := expire_changes q now
  exact hq.changes hdrops

theorem expire_config (q : RealtimeSendQueue) (now : ℕ) : (q.expire now).2.config = q.config := by
  obtain ⟨drops, hdrops, -⟩ := expire_changes q now
  exact hdrops.config_eq

theorem expire_maxPayload (q : RealtimeSendQueue) (now : ℕ) :
    (q.expire now).2.maxPayload = q.maxPayload := by
  obtain ⟨drops, hdrops, hall⟩ := expire_changes q now
  refine hdrops.maxPayload_eq fun e he maxPayload => ?_
  obtain ⟨flow, group, rfl⟩ := hall e he
  simp

/-! ### Enqueueing -/

theorem evictLowerPriority_cases (q : RealtimeSendQueue) (incoming : RealtimePriority) :
    (q.evictLowerPriority incoming = (false, q) ∧
      ∀ (flow : RealtimeFlowId) (group : PendingGroup), q.groups[flow]? = some group →
        ¬ incoming.rank < group.priority.rank) ∨
    ∃ (flow : RealtimeFlowId) (group : PendingGroup), q.groups[flow]? = some group ∧
      incoming.rank < group.priority.rank ∧
      q.evictLowerPriority incoming = (true, (q.dropFlowGroup flow .congested).2) := by
  unfold evictLowerPriority
  simp only
  split
  · next flow group hmax =>
    have hmem := List.mem_filter.mp (List.mem_reverse.mp (List.argmax_mem hmax))
    rw [ExtTreeMap.mem_toList_iff_getElem?_eq_some, decide_eq_true_eq] at hmem
    exact .inr ⟨flow, group, hmem.1, hmem.2, rfl⟩
  · next hmax =>
    rw [List.argmax_eq_none, List.reverse_eq_nil_iff, List.filter_eq_nil_iff] at hmax
    refine .inl ⟨rfl, fun flow group hgroup hlower => ?_⟩
    exact hmax (flow, group) (ExtTreeMap.mem_toList_iff_getElem?_eq_some.mpr hgroup)
      (decide_eq_true hlower)

end RealtimeSendQueue

/-- What `enqueue` answers and does once expired groups are gone. -/
inductive EnqueueCase (q : RealtimeSendQueue) (d : RealtimeDatagram) (now : ℕ) :
    Except TransportError SendOutcome → List QueueEvent → Prop
  | tooLarge (hlarge : q.maxPayload < d.payload.length) :
      EnqueueCase q d now
        (.error ⟨.messageTooLarge, "realtime datagram exceeds path payload limit"⟩) []
  | late (hfits : d.payload.length ≤ q.maxPayload) (hlate : d.deadline ≤ now) :
      EnqueueCase q d now (.ok .droppedExpired) [.refused d.flow .expired]
  | older {group : PendingGroup} (hgroup : q.groups[d.flow]? = some group)
      (hcompare : compareGroup d.generation d.sequence group.generation group.sequence = .older) :
      EnqueueCase q d now (.ok .droppedCongested) [.refused d.flow .congested]
  | unbounded {group : PendingGroup} (hgroup : q.groups[d.flow]? = some group)
      (hsame : d.generation = group.generation ∧ d.sequence = group.sequence)
      (hsize : 2^64 ≤ group.payloadBytes+d.payload.length) :
      EnqueueCase q d now (.error (invalidRealtime "realtime group size overflow")) []
  | overflowed {group : PendingGroup} (hgroup : q.groups[d.flow]? = some group)
      (hsame : d.generation = group.generation ∧ d.sequence = group.sequence)
      (hfull : q.config.maxDatagramsPerGroup ≤ group.datagrams.length ∨
        q.config.maxGroupBytes < group.payloadBytes+d.payload.length) :
      EnqueueCase q d now (.ok .droppedCongested) [.overflowed d.flow group]
  | appended {group : PendingGroup} (hgroup : q.groups[d.flow]? = some group)
      (hsame : d.generation = group.generation ∧ d.sequence = group.sequence)
      (hfits : d.payload.length ≤ q.maxPayload) (hlive : now < d.deadline) :
      EnqueueCase q d now (.ok .enqueued) [.appended d group]
  | replaced {group : PendingGroup} (hgroup : q.groups[d.flow]? = some group)
      (hcompare : compareGroup d.generation d.sequence group.generation group.sequence = .newer)
      (hfits : d.payload.length ≤ q.maxPayload) (hlive : now < d.deadline) :
      EnqueueCase q d now (.ok .replacedOlder) [.dropped d.flow group .replaced, .started d]
  | crowded (hnone : q.groups[d.flow]? = none) (hfull : q.config.maxFlows ≤ q.groups.size)
      (hkeep : ∀ (flow : RealtimeFlowId) (group : PendingGroup), q.groups[flow]? = some group →
        ¬ d.priority.rank < group.priority.rank) :
      EnqueueCase q d now (.ok .droppedCongested) [.refused d.flow .congested]
  | evicted {flow : RealtimeFlowId} {group : PendingGroup} (hnone : q.groups[d.flow]? = none)
      (hfull : q.config.maxFlows ≤ q.groups.size) (hgroup : q.groups[flow]? = some group)
      (hlower : d.priority.rank < group.priority.rank)
      (hfits : d.payload.length ≤ q.maxPayload) (hlive : now < d.deadline) :
      EnqueueCase q d now (.ok .enqueued) [.dropped flow group .congested, .started d]
  | started (hnone : q.groups[d.flow]? = none) (hroom : q.groups.size < q.config.maxFlows)
      (hfits : d.payload.length ≤ q.maxPayload) (hlive : now < d.deadline) :
      EnqueueCase q d now (.ok .enqueued) [.started d]

namespace RealtimeSendQueue
variable {q q' : RealtimeSendQueue} {d : RealtimeDatagram} {now : ℕ}

/-- Without a group of its flow and with room for one, the datagram starts one. -/
theorem startGroup_new (hnone : q.groups[d.flow]? = none)
    (hroom : q.groups.size < q.config.maxFlows) :
    (q.startGroup d).1 = .ok .enqueued ∧ QueueChange q (.started d) (q.startGroup d).2 := by
  have hdrop : q.dropFlowGroup d.flow .replaced = (0, q) := by simp only [dropFlowGroup, hnone]
  unfold startGroup
  rw [hdrop]
  exact ⟨rfl, .started hnone hroom⟩

theorem startGroup_replaces (hq : q.Bounded) {group : PendingGroup}
    (hgroup : q.groups[d.flow]? = some group) :
    (q.startGroup d).1 = .ok .replacedOlder ∧
      QueueChanges q [.dropped d.flow group .replaced, .started d] (q.startGroup d).2 := by
  have hchange := dropFlowGroup_change .replaced hgroup
  have hcount : (q.dropFlowGroup d.flow .replaced).1 = group.datagrams.length := by
    simp only [dropFlowGroup, hgroup]
  have hpos : 0 < group.datagrams.length := List.length_pos_iff.mpr (hq.nonempty _ _ hgroup)
  have hgroups := dropFlowGroup_groups q d.flow .replaced
  have hconfig := hchange.config_eq
  generalize hdrop : q.dropFlowGroup d.flow .replaced = r at hchange hcount hgroups hconfig
  obtain ⟨count, q'⟩ := r
  simp only at hcount hgroups hchange hconfig
  refine ⟨?_, .cons hchange (.single ?_)⟩
  · unfold startGroup
    rw [hdrop]
    simp only [hcount, if_pos hpos]
  · -- The old group is gone, and there is room where it was.
    have hnone : q'.groups[d.flow]? = none := by
      rw [hgroups, OrderedMap.lookup_erase, if_pos rfl]
    have hroom : q'.groups.size < q'.config.maxFlows := by
      have hsize := OrderedMap.size_erase_add_one q.groups hgroup
      have hflows := hq.flows
      rw [hgroups, hconfig]
      omega
    unfold startGroup
    rw [hdrop]
    exact .started hnone hroom

theorem appendToGroup_cases {group : PendingGroup} (hgroup : q.groups[d.flow]? = some group)
    (hsame : d.generation = group.generation ∧ d.sequence = group.sequence)
    (hfits : d.payload.length ≤ q.maxPayload) (hlive : now < d.deadline) :
    ∃ es, EnqueueCase q d now (q.appendToGroup d group).1 es ∧
      QueueChanges q es (q.appendToGroup d group).2 := by
  unfold appendToGroup
  simp only
  split
  · next hsize => exact ⟨[], .unbounded hgroup hsame hsize, .nil q⟩
  split
  · next hfull =>
    exact ⟨_, .overflowed hgroup hsame hfull, .single (.overflowed hgroup)⟩
  · next hroom =>
    rw [not_or, Nat.not_le, Nat.not_lt] at hroom
    exact ⟨_, .appended hgroup hsame hfits hlive,
      .single (.appended hgroup hsame.1 hsame.2 hroom.1 hroom.2)⟩

/-- One call of `enqueue`: expired groups go, then one of ten cases. -/
theorem enqueue_cases (hq : q.Bounded) (d : RealtimeDatagram) (now : ℕ) :
    ∃ es, EnqueueCase (q.expire now).2 d now (q.enqueue d now).1 es ∧
      QueueChanges (q.expire now).2 es (q.enqueue d now).2 := by
  have hbounded := hq.expire now
  unfold enqueue
  generalize (q.expire now).2 = q at hbounded ⊢
  simp only
  split
  · next hlarge => exact ⟨[], .tooLarge hlarge, .nil q⟩
  next hfits =>
  rw [Nat.not_lt] at hfits
  split
  · next hlate => exact ⟨_, .late hfits hlate, .single (.refused d.flow .expired)⟩
  next hlive =>
  rw [Nat.not_le] at hlive
  split
  · next group hgroup =>
    split
    · next hcompare => exact ⟨_, .older hgroup hcompare, .single (.refused d.flow .congested)⟩
    · next hcompare => exact appendToGroup_cases hgroup (compareGroup_same hcompare) hfits hlive
    · next hcompare =>
      obtain ⟨hreply, hchanges⟩ := startGroup_replaces hbounded hgroup
      rw [hreply]
      exact ⟨_, .replaced hgroup hcompare hfits hlive, hchanges⟩
  · next hnone =>
    split
    · next hfull =>
      rcases evictLowerPriority_cases q d.priority with
        ⟨he, hkeep⟩ | ⟨flow, group, hgroup, hlower, he⟩
      · simp only [he]
        exact ⟨_, .crowded hnone hfull hkeep, .single (.refused d.flow .congested)⟩
      · simp only [he]
        have hgroups := dropFlowGroup_groups q flow .congested
        have hchange := dropFlowGroup_change .congested hgroup
        -- The victim is another flow, and it has made room.
        have hnone' : (q.dropFlowGroup flow .congested).2.groups[d.flow]? = none := by
          rw [hgroups, OrderedMap.lookup_erase, hnone, ite_self]
        have hroom : (q.dropFlowGroup flow .congested).2.groups.size <
            (q.dropFlowGroup flow .congested).2.config.maxFlows := by
          have hsize := OrderedMap.size_erase_add_one q.groups hgroup
          have hflows := hbounded.flows
          rw [hgroups, hchange.config_eq]
          omega
        obtain ⟨hreply, hstart⟩ := startGroup_new hnone' hroom
        rw [hreply]
        exact ⟨_, .evicted hnone hfull hgroup hlower hfits hlive, .cons hchange (.single hstart)⟩
    · next hroom =>
      rw [Nat.not_le] at hroom
      obtain ⟨hreply, hstart⟩ := startGroup_new hnone hroom
      rw [hreply]
      exact ⟨_, .started hnone hroom hfits hlive, .single hstart⟩

end RealtimeSendQueue

end MutsukiLink
