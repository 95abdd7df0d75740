import MutsukiLink.RealtimeRuns

/-! The byte count of a pending group. A pop leaves it as it is, and the first datagram of a group
is not checked against the limit, so the count follows the queued datagrams only in runs that do
neither. -/
namespace MutsukiLink
open Std WireBytes RunHistory

namespace PendingGroup

/-- The bytes that are really queued. -/
def queuedBytes (group : PendingGroup) : ℕ := (group.datagrams.map List.length).sum

theorem queuedBytes_extend (group : PendingGroup) (d : RealtimeDatagram) :
    (group.extend d).queuedBytes = group.queuedBytes+d.payload.length := by
  simp [queuedBytes, extend]

end PendingGroup

namespace RealtimeSendQueue
variable {q q' : RealtimeSendQueue} {e : QueueEvent} {es : List QueueEvent}

/-- Every group counts the bytes that are queued, within the limit. -/
def Accounted (q : RealtimeSendQueue) : Prop :=
  ∀ (flow : RealtimeFlowId) (group : PendingGroup), q.groups[flow]? = some group →
    group.payloadBytes = group.queuedBytes ∧ group.payloadBytes ≤ q.config.maxGroupBytes

theorem Accounted.fewer (h : q.Accounted) (hfewer : Fewer q q') (hconfig : q'.config = q.config) :
    q'.Accounted := by
  intro flow group hgroup
  rw [hconfig]
  exact h flow group (hfewer flow group hgroup)

/-- Where one group is written, the count has to be right for it. -/
theorem Accounted.insert (h : q.Accounted) (flow : RealtimeFlowId) (group : PendingGroup)
    (hgroups : q'.groups = q.groups.insert flow group) (hconfig : q'.config = q.config) :
    q'.Accounted ↔ group.payloadBytes = group.queuedBytes ∧
      group.payloadBytes ≤ q.config.maxGroupBytes := by
  have hlookup (f : RealtimeFlowId) := OrderedMap.lookup_insert q.groups flow f group
  rw [← hgroups] at hlookup
  constructor
  · intro h'
    have hnew := h' flow group ((hlookup flow).trans (if_pos rfl))
    rwa [hconfig] at hnew
  · intro hnew f g hg
    rw [hconfig]
    rw [hlookup] at hg
    split at hg
    · obtain rfl := Option.some.inj hg
      exact hnew
    · exact h f g hg

end RealtimeSendQueue

/-- The events that keep the count right. -/
def QueueEvent.Exact (limit : ℕ) : QueueEvent → Prop
  | .started d => d.payload.length ≤ limit
  | .popped _ _ _ payload rest => payload = [] ∨ rest = []
  | _ => True

theorem QueueEvent.exact_of_quiet {e : QueueEvent} (h : e.quiet = true) (limit : ℕ) :
    e.Exact limit := by
  cases e <;> trivial

namespace RealtimeSendQueue
variable {q q' : RealtimeSendQueue} {e : QueueEvent} {es : List QueueEvent}

theorem Accounted.change (h : q.Accounted) (hchange : QueueChange q e q') :
    q'.Accounted ↔ e.Exact q.config.maxGroupBytes := by
  have hconfig := hchange.config_eq
  have hkept (hfewer : Fewer q q') : q'.Accounted ↔ True :=
    iff_true_intro (h.fewer hfewer hconfig)
  cases hchange with
  | dropped reason hgroup =>
    exact hkept ((Fewer.erase q _).trans (.of_groups (noteDropped_groups _ _ _ _)))
  | refused flow reason => exact hkept (.of_groups (noteDropped_groups _ _ _ _))
  | overflowed hgroup => exact hkept ((Fewer.erase q _).trans (.of_groups rfl))
  | appended hgroup hgeneration hsequence hroom hbytes =>
    rename_i d group
    have hold := (h d.flow group hgroup).1
    refine (h.insert d.flow (group.extend d) ?_ ?_).trans ?_
    · rfl
    · rfl
    · rw [PendingGroup.queuedBytes_extend]
      exact iff_true_intro ⟨congrArg (·+d.payload.length) hold, hbytes⟩
  | started hnone hroom =>
    rename_i d
    refine (h.insert d.flow (d.group q.nextInsertionOrder) ?_ ?_).trans ?_
    · rfl
    · rfl
    · simp [QueueEvent.Exact, RealtimeDatagram.group, PendingGroup.queuedBytes]
  | popped hgroup hpayload hnow =>
    rename_i now flow group payload rest
    obtain ⟨hold, hlimit⟩ := h flow group hgroup
    rw [PendingGroup.queuedBytes, hpayload, List.map_cons, List.sum_cons] at hold
    by_cases hrest : rest = []
    · refine iff_of_true (h.fewer ?_ rfl) (.inr hrest)
      exact (Fewer.erase q flow).trans (.of_groups (if_pos hrest))
    · -- The group stays, with its old count and without the popped payload.
      refine (h.insert flow { group with datagrams := rest } ?_ ?_).trans ?_
      · exact if_neg hrest
      · rfl
      · simp only [QueueEvent.Exact, hrest, or_false, PendingGroup.queuedBytes]
        rw [← List.length_eq_zero_iff]
        omega
  | cleared => exact hkept (clearPending_fewer q)
  | sent datagram => exact hkept (.of_groups rfl)
  | limited hgroups | noted hgroups => exact hkept (.of_groups hgroups)

theorem Accounted.changes (h : q.Accounted) (hchanges : QueueChanges q es q')
    (hes : ∀ e ∈ es, e.Exact q.config.maxGroupBytes) : q'.Accounted := by
  induction hchanges with
  | nil => exact h
  | cons hfirst _ ih =>
    obtain ⟨he, hes⟩ := List.forall_mem_cons.mp hes
    refine ih ((h.change hfirst).mpr he) ?_
    rwa [hfirst.config_eq]

/-- Only the last of several events may break the count. -/
theorem Accounted.changes_iff (h : q.Accounted) (hchanges : QueueChanges q (es ++ [e]) q')
    (hes : ∀ e ∈ es, e.Exact q.config.maxGroupBytes) :
    q'.Accounted ↔ e.Exact q.config.maxGroupBytes := by
  obtain ⟨middle, hfirst, hlast⟩ := hchanges.concat
  rw [(h.changes hfirst hes).change hlast, hfirst.config_eq]

/-- The datagram is going to have a group of its own, once expired groups are gone. -/
def StartsGroup (q : RealtimeSendQueue) (d : RealtimeDatagram) (now : ℕ) : Prop :=
  d.payload.length ≤ q.maxPayload ∧ now < d.deadline ∧
    ((∃ group : PendingGroup, q.groups[d.flow]? = some group ∧
        compareGroup d.generation d.sequence group.generation group.sequence = .newer) ∨
      (q.groups[d.flow]? = none ∧ (q.groups.size < q.config.maxFlows ∨
        ∃ (flow : RealtimeFlowId) (group : PendingGroup), q.groups[flow]? = some group ∧
          d.priority.rank < group.priority.rank)))

/-- The call starts no group above the byte limit, and pops no bytes from a group that stays. -/
def KeepsAccount (q : RealtimeSendQueue) (op : QueueOp) : Prop :=
  (∀ d now, op = .enqueue d now → StartsGroup (q.expire now).2 d now →
    d.payload.length ≤ q.config.maxGroupBytes) ∧
  ∀ now flow group payload rest, op.popTime = some now →
    op.choice (q.expire now).2 = some flow → (q.expire now).2.groups[flow]? = some group →
      group.datagrams = payload :: rest → payload = [] ∨ rest = []

theorem EnqueueCase.started_iff {d : RealtimeDatagram} {now : ℕ}
    {result : Except TransportError SendOutcome} (h : EnqueueCase q d now result es) :
    ((∀ e ∈ es, ∀ limit, e.Exact limit) ∧ ¬ StartsGroup q d now) ∨
    ∃ fs, es = fs ++ [.started d] ∧ (∀ e ∈ fs, ∀ limit, e.Exact limit) ∧ StartsGroup q d now := by
  have hgroup_eq {a b : PendingGroup} (ha : q.groups[d.flow]? = some a)
      (hb : q.groups[d.flow]? = some b) : a = b := Option.some.inj (ha.symm.trans hb)
  have hself {group : PendingGroup}
      (hsame : d.generation = group.generation ∧ d.sequence = group.sequence) :
      compareGroup d.generation d.sequence group.generation group.sequence = .same := by
    simp [compareGroup, hsame.1, hsame.2]
  -- A group that stays refutes both ways to start one.
  have hkept {group : PendingGroup} {order : GroupOrder} (hgroup : q.groups[d.flow]? = some group)
      (hcompare : compareGroup d.generation d.sequence group.generation group.sequence = order)
      (hne : order ≠ .newer) : ¬ StartsGroup q d now := by
    intro hstarts
    obtain ⟨-, -, ⟨g, hg, hnewer⟩ | ⟨hnone, -⟩⟩ := hstarts
    · obtain rfl := hgroup_eq hgroup hg
      exact hne (hcompare.symm.trans hnewer)
    · exact absurd (hgroup.symm.trans hnone) (by simp)
  cases h with
  | tooLarge hlarge => exact .inl ⟨by simp, fun h => absurd h.1 (Nat.not_le.mpr hlarge)⟩
  | late hfits hlate =>
    exact .inl ⟨by simp [QueueEvent.Exact], fun h => absurd h.2.1 (Nat.not_lt.mpr hlate)⟩
  | older hgroup hcompare =>
    exact .inl ⟨by simp [QueueEvent.Exact], hkept hgroup hcompare (by simp)⟩
  | unbounded hgroup hsame hsize => exact .inl ⟨by simp, hkept hgroup (hself hsame) (by simp)⟩
  | overflowed hgroup hsame hfull =>
    exact .inl ⟨by simp [QueueEvent.Exact], hkept hgroup (hself hsame) (by simp)⟩
  | appended hgroup hsame hfits hlive =>
    exact .inl ⟨by simp [QueueEvent.Exact], hkept hgroup (hself hsame) (by simp)⟩
  | replaced hgroup hcompare hfits hlive =>
    exact .inr ⟨[_], rfl, by simp [QueueEvent.Exact], hfits, hlive, .inl ⟨_, hgroup, hcompare⟩⟩
  | crowded hnone hfull hkeep =>
    refine .inl ⟨by simp [QueueEvent.Exact], fun hstarts => ?_⟩
    obtain ⟨-, -, ⟨g, hg, -⟩ | ⟨-, hroom | ⟨flow, group, hgroup, hlower⟩⟩⟩ := hstarts
    · exact absurd (hnone.symm.trans hg) (by simp)
    · exact absurd hroom (Nat.not_lt.mpr hfull)
    · exact hkeep flow group hgroup hlower
  | evicted hnone hfull hgroup hlower hfits hlive =>
    refine .inr ⟨[_], rfl, by simp [QueueEvent.Exact], hfits, hlive, .inr ⟨hnone, .inr ?_⟩⟩
    exact ⟨_, _, hgroup, hlower⟩
  | started hnone hroom hfits hlive =>
    exact .inr ⟨[], rfl, by simp, hfits, hlive, .inr ⟨hnone, .inl hroom⟩⟩

/-- All events of a call are exact, but for the last one when the call is not a good one. -/
theorem OpEvents.exact_or {op : QueueOp} {reply : QueueReply} (h : OpEvents q op reply es) :
    ((∀ e ∈ es, e.Exact q.config.maxGroupBytes) ∧ q.KeepsAccount op) ∨
    ∃ fs e, es = fs ++ [e] ∧ (∀ e ∈ fs, e.Exact q.config.maxGroupBytes) ∧
      (e.Exact q.config.maxGroupBytes ↔ q.KeepsAccount op) := by
  have hquiet {fs : List QueueEvent} (hfs : ∀ e ∈ fs, e.quiet = true) :
      ∀ e ∈ fs, e.Exact q.config.maxGroupBytes :=
    fun e he => QueueEvent.exact_of_quiet (hfs e he) _
  -- The condition is about `enqueue` and the pops alone.
  have hother (hop : op.quiet = true ∨ op.clears = true) : q.KeepsAccount op := by
    refine ⟨fun d now he => ?_, fun now flow group payload rest ht => ?_⟩
    · subst he
      rcases hop with hop | hop <;> cases hop
    · rw [QueueOp.popTime_of_quiet hop] at ht
      cases ht
  cases h with
  | enqueue hdrops hcase =>
    rename_i d now result drops es
    have hnotpop : ∀ now' flow group payload rest,
        (QueueOp.enqueue d now).popTime = some now' →
        (QueueOp.enqueue d now).choice (q.expire now').2 = some flow →
        (q.expire now').2.groups[flow]? = some group →
        group.datagrams = payload :: rest → payload = [] ∨ rest = [] :=
      fun _ _ _ _ _ ht => by cases ht
    rcases EnqueueCase.started_iff hcase with ⟨hexact, hstarts⟩ | ⟨fs, rfl, hexact, hstarts⟩
    · refine .inl ⟨List.forall_mem_append.mpr ⟨hquiet hdrops, fun e he => hexact e he _⟩, ?_,
        hnotpop⟩
      intro d' now' he hs
      obtain ⟨rfl, rfl⟩ := QueueOp.enqueue.inj he
      exact absurd hs hstarts
    · refine .inr ⟨drops ++ fs, .started d, (List.append_assoc _ _ _).symm, ?_, ?_⟩
      · exact List.forall_mem_append.mpr ⟨hquiet hdrops, fun e he => hexact e he _⟩
      · constructor
        · intro hfits
          refine ⟨fun d' now' he _ => ?_, hnotpop⟩
          obtain ⟨rfl, rfl⟩ := QueueOp.enqueue.inj he
          exact hfits
        · intro hkeeps
          exact hkeeps.1 d now rfl hstarts
  | missed hop hdrops hchoice =>
    refine .inl ⟨hquiet hdrops, fun d now he => ?_, fun now flow group payload rest ht hc => ?_⟩
    · subst he
      cases hop
    · obtain rfl := Option.some.inj (hop.symm.trans ht)
      exact absurd (hchoice.symm.trans hc) (by simp)
  | popped hop hdrops hchoice hgroup hpayload =>
    refine .inr ⟨_, _, rfl, hquiet hdrops, ?_⟩
    constructor
    · intro hexact
      refine ⟨fun d now he => ?_, fun now flow group payload rest ht hc hg hd => ?_⟩
      · subst he
        cases hop
      · obtain rfl := Option.some.inj (hop.symm.trans ht)
        obtain rfl := Option.some.inj (hchoice.symm.trans hc)
        obtain rfl := Option.some.inj (hgroup.symm.trans hg)
        obtain ⟨rfl, rfl⟩ := List.cons.inj (hpayload.symm.trans hd)
        exact hexact
    · intro hkeeps
      exact hkeeps.2 _ _ _ _ _ hop hchoice hgroup hpayload
  | cleared hop => exact .inl ⟨by simp [QueueEvent.Exact], hother (.inr hop)⟩
  | limited hdrops =>
    exact .inl ⟨List.forall_mem_cons.mpr ⟨trivial, hquiet hdrops⟩, hother (.inl rfl)⟩
  | quiet hop hes => exact .inl ⟨hquiet hes, hother (.inl hop)⟩

/-- A call keeps the count exactly under the condition on it. -/
theorem Accounted.step (h : q.Accounted) (hq : q.Bounded) (op : QueueOp) :
    (q.step op).2.Accounted ↔ q.KeepsAccount op := by
  obtain ⟨es, hevents, hchanges⟩ := step_events hq op
  rcases OpEvents.exact_or hevents with ⟨hexact, hkeeps⟩ | ⟨fs, e, rfl, hexact, hiff⟩
  · exact iff_of_true (h.changes hchanges hexact) hkeeps
  · exact (h.changes_iff hchanges hexact).trans hiff

end RealtimeSendQueue

/-- A call that drops a group for congestion as it appends finds too many datagrams or too many
bytes really queued. -/
def DropsFullGroup (e : QueueRecord) : Prop :=
  ∀ d now group, e.input = .enqueue d now →
    (e.pre.expire now).2.groups[d.flow]? = some group →
    d.generation = group.generation → d.sequence = group.sequence →
    e.reply = .enqueued (.ok .droppedCongested) →
      e.pre.config.maxGroupBytes < group.queuedBytes+d.payload.length ∨
        e.pre.config.maxDatagramsPerGroup < group.datagrams.length+1

theorem dropsFullGroup_of_accounted {q : RealtimeSendQueue} (hq : q.Bounded)
    (h : q.Accounted) (op : QueueOp) : DropsFullGroup (event RealtimeSendQueue.step q op) := by
  intro d now group hinput hgroup hgeneration hsequence hreply
  have hop : op = .enqueue d now := hinput
  subst hop
  obtain ⟨es, hcase, -⟩ := RealtimeSendQueue.enqueue_cases hq d now
  have hdropped : (q.enqueue d now).1 = .ok .droppedCongested := QueueReply.enqueued.inj hreply
  rw [hdropped] at hcase
  have hcount := (h d.flow group (RealtimeSendQueue.expire_live hgroup).1).1
  have hsame : compareGroup d.generation d.sequence group.generation group.sequence = .same := by
    simp [compareGroup, hgeneration, hsequence]
  cases hcase with
  | older hg hcompare =>
    obtain rfl := Option.some.inj (hgroup.symm.trans hg)
    exact absurd (hsame.symm.trans hcompare) (by simp)
  | overflowed hg _ hfull =>
    obtain rfl := Option.some.inj (hgroup.symm.trans hg)
    rw [RealtimeSendQueue.expire_config, hcount] at hfull
    rcases hfull with hmany | hlong
    · exact .inr (Nat.lt_succ_of_le hmany)
    · exact .inl hlong
  | crowded hnone => exact absurd (hgroup.symm.trans hnone) (by simp)

section Run
variable {config : RealtimeQueueConfig} {maxPayload : ℕ} {q : RealtimeSendQueue}

theorem accounted_new (h : RealtimeSendQueue.new config maxPayload = .ok q) : q.Accounted := by
  obtain ⟨hgroups, -, -, -⟩ := RealtimeSendQueue.new_spec h
  intro flow group hgroup
  rw [hgroups] at hgroup
  simp at hgroup

/-- Along a run every state counts the queued bytes exactly when no call starts a group above the
byte limit or pops bytes from a group that stays, and in such runs only full groups are dropped. -/
theorem byte_count_is_exact_iff (h : RealtimeSendQueue.new config maxPayload = .ok q)
    (ops : List QueueOp) :
    ((∀ e ∈ trace RealtimeSendQueue.step q ops, e.post.Accounted) ↔
      ∀ e ∈ trace RealtimeSendQueue.step q ops, e.pre.KeepsAccount e.input) ∧
    ((∀ e ∈ trace RealtimeSendQueue.step q ops, e.pre.KeepsAccount e.input) →
      ∀ e ∈ trace RealtimeSendQueue.step q ops, DropsFullGroup e) := by
  have hbounded := RealtimeSendQueue.bounded_new h
  have hiff := trace_invariant_iff RealtimeSendQueue.step (I := RealtimeSendQueue.Accounted)
    (fun _ op hq => RealtimeSendQueue.Bounded.step hq op)
    (fun _ op hq ha => RealtimeSendQueue.Accounted.step ha hq op) hbounded (accounted_new h) ops
  refine ⟨hiff, fun hgood e he => ?_⟩
  obtain ⟨⟨hpre, haccounted⟩, heq⟩ := trace_invariant_of RealtimeSendQueue.step
    (I := fun q => q.Bounded ∧ q.Accounted) (fun q op hq hop => ⟨hq.1.step op,
      (hq.2.step hq.1 op).mpr hop⟩) ⟨hbounded, accounted_new h⟩ ops hgood e he
  rw [heq]
  exact dropsFullGroup_of_accounted hpre haccounted e.input

end Run

/-- Three bytes are queued and popped while a fourth waits, and a fifth is to join it. -/
def drainedOps : List QueueOp :=
  [.enqueue (smallDatagram 1 [1, 2, 3]) 0, .enqueue (smallDatagram 1 [4]) 0] ++
    [.popNext 1, .enqueue (smallDatagram 1 [5]) 1]

def filledQueue : RealtimeSendQueue :=
  run RealtimeSendQueue.step smallQueue
    [.enqueue (smallDatagram 1 [1, 2, 3]) 0, .enqueue (smallDatagram 1 [4]) 0]

/-- The group after the pop: one byte is queued, and four are counted. -/
def drainedGroup : PendingGroup := ⟨1, 1, 10, .normal, [[4]], 4, 0⟩

/-- The pop leaves one byte queued and four counted, so the last call drops the group though two
bytes of four are in use. -/
theorem popped_bytes_stay_counted :
    ¬ (∀ e ∈ trace RealtimeSendQueue.step smallQueue drainedOps, e.post.Accounted) ∧
    ¬ ∀ e ∈ trace RealtimeSendQueue.step smallQueue drainedOps, DropsFullGroup e := by
  have hgroup : (filledQueue.popNext 1).2.groups[(⟨1⟩ : RealtimeFlowId)]? = some drainedGroup := by
    decide +kernel
  have htail : trace RealtimeSendQueue.step filledQueue
      [.popNext 1, .enqueue (smallDatagram 1 [5]) 1] =
      [event RealtimeSendQueue.step filledQueue (.popNext 1),
        event RealtimeSendQueue.step (filledQueue.popNext 1).2
          (.enqueue (smallDatagram 1 [5]) 1)] := rfl
  rw [drainedOps, trace_append]
  change ¬ (∀ e ∈ _ ++ trace RealtimeSendQueue.step filledQueue _, e.post.Accounted) ∧
    ¬ ∀ e ∈ _ ++ trace RealtimeSendQueue.step filledQueue _, DropsFullGroup e
  rw [htail]
  constructor
  · intro h
    have hpop := h (event RealtimeSendQueue.step filledQueue (.popNext 1))
      (List.mem_append_right _ List.mem_cons_self)
    exact absurd (hpop ⟨1⟩ drainedGroup hgroup).1 (by decide)
  · intro h
    have hlast := h _ (List.mem_append_right _ (List.mem_cons_of_mem _ List.mem_cons_self))
    have hdropped : ((filledQueue.popNext 1).2.enqueue (smallDatagram 1 [5]) 1).1 =
        .ok .droppedCongested := by decide +kernel
    have hconfig : (filledQueue.popNext 1).2.config = ⟨1, 8, 4⟩ := by decide +kernel
    generalize (filledQueue.popNext 1).2 = drained at hgroup hlast hdropped hconfig
    have hlive : (drained.expire 1).2.groups[(⟨1⟩ : RealtimeFlowId)]? = some drainedGroup := by
      rw [RealtimeSendQueue.expire_lookup, hgroup]
      rfl
    have hfull := hlast (smallDatagram 1 [5]) 1 drainedGroup rfl hlive rfl rfl
      (congrArg QueueReply.enqueued hdropped)
    change drained.config.maxGroupBytes < _ ∨ drained.config.maxDatagramsPerGroup < _ at hfull
    rw [hconfig] at hfull
    exact absurd hfull (by decide)

/-- A group of three bytes, to which two more are to be added. -/
def groupedOps : List QueueOp :=
  [.enqueue (smallDatagram 1 [1, 2]) 0, .enqueue (smallDatagram 1 [3]) 0,
    .enqueue (smallDatagram 1 [4, 5]) 0]

/-- The bytes are counted as they are queued, and the group is dropped when it is full. -/
theorem small_run_counts_exactly :
    (∀ e ∈ trace RealtimeSendQueue.step smallQueue groupedOps, e.post.Accounted) ∧
    (∀ e ∈ trace RealtimeSendQueue.step smallQueue groupedOps, DropsFullGroup e) ∧
    (trace RealtimeSendQueue.step smallQueue groupedOps).map Event.reply =
      [.enqueued (.ok .enqueued), .enqueued (.ok .enqueued),
        .enqueued (.ok .droppedCongested)] := by
  have hkeeps : ∀ e ∈ trace RealtimeSendQueue.step smallQueue groupedOps,
      e.pre.KeepsAccount e.input := by
    simp only [groupedOps, trace_cons, trace_nil, List.forall_mem_cons]
    refine ⟨⟨?_, nofun⟩, ⟨?_, nofun⟩, ⟨?_, nofun⟩, by simp⟩
    · rintro d now ⟨⟩ -
      decide
    · rintro d now ⟨⟩ -
      decide +kernel
    · rintro d now ⟨⟩ -
      decide +kernel
  obtain ⟨hiff, hdrops⟩ := byte_count_is_exact_iff smallQueue_new groupedOps
  exact ⟨hiff.mpr hkeeps, hdrops hkeeps, rfl⟩

end MutsukiLink
