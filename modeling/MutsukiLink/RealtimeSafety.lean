import MutsukiLink.FifoLedger
import MutsukiLink.RealtimeRuns

/-! Runs of the send queue keep its limits, and every popped datagram was enqueued before, under
the same key and with time left. -/
namespace MutsukiLink
open Std WireBytes RunHistory

namespace QueueEvent

/-- The datagram that an event puts into the group of a flow. -/
def accepts (flow : RealtimeFlowId) : QueueEvent → Option RealtimeDatagram
  | appended d _ | started d => if d.flow = flow then some d else none
  | _ => none

/-- The datagram that an event pops from the group of a flow, with the time. -/
def pops (flow : RealtimeFlowId) : QueueEvent → Option (ℕ × QueuedRealtimeDatagram)
  | popped now flow' group payload _ =>
    if flow' = flow then some (now, group.queued flow' payload) else none
  | _ => none

theorem accepts_of_quiet {e : QueueEvent} (h : e.quiet = true) (flow : RealtimeFlowId) :
    e.accepts flow = none := by
  cases e <;> first | rfl | cases h

theorem pops_of_quiet {e : QueueEvent} (h : e.quiet = true) (flow : RealtimeFlowId) :
    e.pops flow = none := by
  cases e <;> first | rfl | cases h

theorem not_limited_of_quiet {e : QueueEvent} (h : e.quiet = true) (maxPayload : ℕ) :
    e ≠ .limited maxPayload := by
  intro he
  rw [he] at h
  cases h

end QueueEvent

theorem RealtimePriority.rank_min_le (p p' : RealtimePriority) :
    (p.min p').rank ≤ p.rank ∧ (p.min p').rank ≤ p'.rank := by
  unfold RealtimePriority.min
  split <;> omega

/-- A waiting datagram, tagged with the call that put it there. Its group is as urgent as the most
urgent datagram it was given, and ends with the first. -/
structure Waits (flow : RealtimeFlowId) (group : PendingGroup) (x : ℕ × RealtimeDatagram)
    (payload : Bytes) : Prop where
  flow : x.2.flow = flow
  generation : x.2.generation = group.generation
  sequence : x.2.sequence = group.sequence
  deadline : group.deadline ≤ x.2.deadline
  priority : group.priority.rank ≤ x.2.priority.rank
  payload : x.2.payload = payload

/-- The datagrams of a group are these, in this order. -/
inductive WaitingIn (flow : RealtimeFlowId) :
    Option PendingGroup → List (ℕ × RealtimeDatagram) → Prop
  | none : WaitingIn flow none []
  | some {group : PendingGroup} {waiting : List (ℕ × RealtimeDatagram)}
      (h : List.Forall₂ (Waits flow group) waiting group.datagrams) :
      WaitingIn flow (some group) waiting

/-- A popped datagram is one that an earlier call enqueued, and its time is not over. It is no less
urgent than it was enqueued, and has no more time. -/
structure Served (x : ℕ × RealtimeDatagram) (p : ℕ × ℕ × QueuedRealtimeDatagram) : Prop where
  earlier : x.1 < p.1
  flow : x.2.flow = p.2.2.flow
  generation : x.2.generation = p.2.2.generation
  sequence : x.2.sequence = p.2.2.sequence
  payload : x.2.payload = p.2.2.payload
  alive : p.2.1 < x.2.deadline
  deadline : p.2.2.deadline ≤ x.2.deadline
  priority : p.2.2.priority.rank ≤ x.2.priority.rank

/-- The account of one flow: what was accepted has been popped, in order, or has been dropped, or
waits in the group of the flow. -/
def FlowLedger (flow : RealtimeFlowId) (accepted : List (ℕ × RealtimeDatagram))
    (popped : List (ℕ × ℕ × QueuedRealtimeDatagram)) (q : RealtimeSendQueue) : Prop :=
  ∃ delivered dropped waiting, FifoLedger.Settled accepted delivered dropped waiting ∧
    List.Forall₂ Served delivered popped ∧ WaitingIn flow q.groups[flow]? waiting

namespace FlowLedger
variable {flow : RealtimeFlowId} {accepted : List (ℕ × RealtimeDatagram)}
  {popped : List (ℕ × ℕ × QueuedRealtimeDatagram)} {q q' : RealtimeSendQueue} {e : QueueEvent}
  {es : List QueueEvent}

theorem same (h : FlowLedger flow accepted popped q)
    (hgroup : q'.groups[flow]? = q.groups[flow]?) : FlowLedger flow accepted popped q' := by
  obtain ⟨delivered, dropped, waiting, hsettled, hserved, hwaiting⟩ := h
  exact ⟨delivered, dropped, waiting, hsettled, hserved, hgroup ▸ hwaiting⟩

/-- The group of the flow is dropped. -/
theorem drop (h : FlowLedger flow accepted popped q) (hgroup : q'.groups[flow]? = none) :
    FlowLedger flow accepted popped q' := by
  obtain ⟨delivered, dropped, waiting, hsettled, hserved, -⟩ := h
  have hmove := hsettled.move (.drop waiting)
  rw [List.append_nil, List.append_nil] at hmove
  exact ⟨delivered, _, [], hmove, hserved, hgroup ▸ .none⟩

/-- A group is gone, of this flow or another. -/
theorem erase (h : FlowLedger flow accepted popped q) {flow' : RealtimeFlowId}
    (hgroups : q'.groups = q.groups.erase flow') : FlowLedger flow accepted popped q' := by
  have hlookup := OrderedMap.lookup_erase q.groups flow' flow
  rw [← hgroups] at hlookup
  by_cases hf : flow' = flow
  · exact h.drop (by rw [hlookup, if_pos hf])
  · exact h.same (by rw [hlookup, if_neg hf])

/-- A datagram of the flow is put at the end of its group, or starts one. -/
theorem accept (h : FlowLedger flow accepted popped q) (n : ℕ) {d : RealtimeDatagram}
    {group : PendingGroup} (hgroup : q'.groups[flow]? = some group)
    (hwaits : ∀ waiting, WaitingIn flow q.groups[flow]? waiting →
      List.Forall₂ (Waits flow group) (waiting ++ [(n, d)]) group.datagrams) :
    FlowLedger flow (accepted ++ [(n, d)]) popped q' := by
  obtain ⟨delivered, dropped, waiting, hsettled, hserved, hwaiting⟩ := h
  have hmove := hsettled.move (.accept (n, d) waiting)
  rw [List.append_nil, List.append_nil] at hmove
  exact ⟨delivered, dropped, _, hmove, hserved, hgroup ▸ .some (hwaits waiting hwaiting)⟩

/-- The front of the group is popped. -/
theorem pop (h : FlowLedger flow accepted popped q) {n now : ℕ} (hn : ∀ x ∈ accepted, x.1 < n)
    {group : PendingGroup} {payload : Bytes} {rest : List Bytes}
    (hgroup : q.groups[flow]? = some group) (hpayload : group.datagrams = payload :: rest)
    (hnow : now < group.deadline)
    (hafter : q'.groups[flow]? =
      if rest = [] then none else some { group with datagrams := rest }) :
    FlowLedger flow accepted (popped ++ [(n, now, group.queued flow payload)]) q' := by
  obtain ⟨delivered, dropped, waiting, hsettled, hserved, hwaiting⟩ := h
  rw [hgroup] at hwaiting
  obtain ⟨x, waiting, hx, hrest, rfl⟩ : ∃ x l, Waits flow group x payload ∧
      List.Forall₂ (Waits flow group) l rest ∧ waiting = x :: l := by
    cases hwaiting with
    | some hall =>
      rw [hpayload] at hall
      cases hall with
      | cons hx hrest => exact ⟨_, _, hx, hrest, rfl⟩
  have hmove := hsettled.move (.deliver x waiting)
  rw [List.append_nil, List.append_nil] at hmove
  refine ⟨delivered ++ [x], dropped, waiting, hmove, ?_, ?_⟩
  · -- The datagram at the front was accepted by an earlier call.
    have hmem : x ∈ accepted := by
      obtain ⟨fates, rfl, -, -⟩ := hsettled
      exact List.mem_append_right _ List.mem_cons_self
    refine List.rel_append hserved (.cons ⟨hn x hmem, hx.flow, hx.generation, hx.sequence,
      hx.payload, hnow.trans_le hx.deadline, hx.deadline, hx.priority⟩ .nil)
  · rw [hafter]
    cases hrest with
    | nil => exact .none
    | cons hy hrest => exact .some (.cons ⟨hy.flow, hy.generation, hy.sequence, hy.deadline,
        hy.priority, hy.payload⟩ (hrest.imp fun _ _ h => ⟨h.flow, h.generation, h.sequence,
        h.deadline, h.priority, h.payload⟩))

theorem waits_extend {group : PendingGroup} {d : RealtimeDatagram} {n : ℕ}
    {waiting : List (ℕ × RealtimeDatagram)}
    (hgeneration : d.generation = group.generation) (hsequence : d.sequence = group.sequence)
    (h : WaitingIn d.flow (some group) waiting) :
    List.Forall₂ (Waits d.flow (group.extend d)) (waiting ++ [(n, d)])
      (group.extend d).datagrams := by
  cases h with
  | some hall =>
    refine List.rel_append (hall.imp fun x payload hx => ?_) (.cons ?_ .nil)
    · exact ⟨hx.flow, hx.generation, hx.sequence, (min_le_left _ _).trans hx.deadline,
        (RealtimePriority.rank_min_le _ _).1.trans hx.priority, hx.payload⟩
    · exact ⟨rfl, hgeneration, hsequence, min_le_right _ _, (RealtimePriority.rank_min_le _ _).2,
        rfl⟩

/-- The account goes along with every event. Only a pop asks that its call be a later one. -/
theorem change (h : FlowLedger flow accepted popped q) (hchange : QueueChange q e q') (n : ℕ)
    (hn : ∀ p, e.pops flow = some p → ∀ x ∈ accepted, x.1 < n) :
    FlowLedger flow (accepted ++ (e.accepts flow).toList.map (n, ·))
      (popped ++ (e.pops flow).toList.map (n, ·)) q' := by
  -- Only what happens to the group of this flow matters.
  cases hchange with
  | dropped reason hgroup =>
    simpa [QueueEvent.accepts, QueueEvent.pops] using
      h.erase (RealtimeSendQueue.noteDropped_groups _ _ _ _)
  | refused flow' reason =>
    simpa [QueueEvent.accepts, QueueEvent.pops] using
      h.same (by rw [RealtimeSendQueue.noteDropped_groups])
  | overflowed hgroup =>
    simpa [QueueEvent.accepts, QueueEvent.pops] using h.erase rfl
  | appended hgroup hgeneration hsequence hroom hbytes =>
    rename_i d group
    have hlookup := OrderedMap.lookup_insert q.groups d.flow flow (group.extend d)
    by_cases hf : d.flow = flow
    · subst hf
      simp only [QueueEvent.accepts, QueueEvent.pops, if_true, Option.toList_some,
        Option.toList_none, List.map_cons, List.map_nil, List.append_nil]
      refine h.accept n (hlookup.trans (if_pos rfl)) fun waiting hwaiting => ?_
      rw [hgroup] at hwaiting
      exact waits_extend hgeneration hsequence hwaiting
    · simpa [QueueEvent.accepts, QueueEvent.pops, hf] using
        h.same (hlookup.trans (if_neg hf))
  | started hnone hroom =>
    rename_i d
    have hlookup := OrderedMap.lookup_insert q.groups d.flow flow (d.group q.nextInsertionOrder)
    by_cases hf : d.flow = flow
    · subst hf
      simp only [QueueEvent.accepts, QueueEvent.pops, if_true, Option.toList_some,
        Option.toList_none, List.map_cons, List.map_nil, List.append_nil]
      refine h.accept n (hlookup.trans (if_pos rfl)) fun waiting hwaiting => ?_
      rw [hnone] at hwaiting
      cases hwaiting with
      | none => exact .cons ⟨rfl, rfl, rfl, le_rfl, le_rfl, rfl⟩ .nil
    · simpa [QueueEvent.accepts, QueueEvent.pops, hf] using
        h.same (hlookup.trans (if_neg hf))
  | popped hgroup hpayload hnow =>
    rename_i now flow' group payload rest
    have hlookup : (if rest = [] then q.groups.erase flow'
        else q.groups.insert flow' { group with datagrams := rest })[flow]? =
        if flow' = flow then (if rest = [] then none else some { group with datagrams := rest })
        else q.groups[flow]? := by
      split
      · rw [OrderedMap.lookup_erase]
      · rw [OrderedMap.lookup_insert]
    by_cases hf : flow' = flow
    · subst hf
      simp only [QueueEvent.accepts, QueueEvent.pops, if_true, Option.toList_some,
        Option.toList_none, List.map_cons, List.map_nil, List.append_nil]
      refine h.pop (hn (now, group.queued flow' payload) ?_) hgroup hpayload hnow ?_
      · simp [QueueEvent.pops]
      · exact hlookup.trans (if_pos rfl)
    · simpa [QueueEvent.accepts, QueueEvent.pops, hf] using
        h.same (hlookup.trans (if_neg hf))
  | cleared =>
    simpa [QueueEvent.accepts, QueueEvent.pops] using h.drop ExtTreeMap.getElem?_empty
  | sent datagram =>
    have hsent : (q.noteSent datagram).groups[flow]? = q.groups[flow]? := rfl
    simpa [QueueEvent.accepts, QueueEvent.pops] using h.same hsent
  | limited hgroups | noted hgroups =>
    simpa [QueueEvent.accepts, QueueEvent.pops] using h.same (by rw [hgroups])

/-- Events without a pop only add what they accept. -/
theorem changes (h : FlowLedger flow accepted popped q) (hchanges : QueueChanges q es q') (n : ℕ)
    (hes : ∀ e ∈ es, e.pops flow = none) :
    FlowLedger flow (accepted ++ (es.filterMap (QueueEvent.accepts flow)).map (n, ·))
      popped q' := by
  induction hchanges generalizing accepted with
  | nil => simpa using h
  | cons hfirst _ ih =>
    rename_i e es _
    obtain ⟨he, hes⟩ := List.forall_mem_cons.mp hes
    have hnext := h.change hfirst n (by simp [he])
    rw [he, Option.toList_none, List.map_nil, List.append_nil] at hnext
    have hrest := ih hnext hes
    rw [List.append_assoc, ← List.map_append] at hrest
    cases ha : e.accepts flow with
    | none => simpa [ha, List.filterMap_cons] using hrest
    | some d => simpa [ha, List.filterMap_cons] using hrest

/-- Events that put nothing in and pop nothing leave the account as it is. -/
theorem idle (h : FlowLedger flow accepted popped q) (hchanges : QueueChanges q es q')
    (hes : ∀ e ∈ es, e.accepts flow = none ∧ e.pops flow = none) :
    FlowLedger flow accepted popped q' := by
  have hnone : es.filterMap (QueueEvent.accepts flow) = [] :=
    List.filterMap_eq_nil_iff.mpr fun e he => (hes e he).1
  have hchanged := h.changes hchanges 0 fun e he => (hes e he).2
  rwa [hnone, List.map_nil, List.append_nil] at hchanged

end FlowLedger

/-- The datagram that a call has put into the group of a flow. -/
def acceptedBy (flow : RealtimeFlowId) : QueueOp → QueueReply → Option RealtimeDatagram
  | .enqueue d _, .enqueued (.ok .enqueued) | .enqueue d _, .enqueued (.ok .replacedOlder) =>
    if d.flow = flow then some d else none
  | _, _ => none

/-- The datagram of a flow that a call has popped, and the time of the pop. -/
def poppedBy (flow : RealtimeFlowId) (op : QueueOp) :
    QueueReply → Option (ℕ × QueuedRealtimeDatagram)
  | .popped (some d) =>
    if d.flow = flow then op.popTime.map fun now => (now, d) else none
  | _ => none

theorem EnqueueCase.accepts {q : RealtimeSendQueue} {d : RealtimeDatagram} {now : ℕ}
    {result : Except TransportError SendOutcome} {es : List QueueEvent}
    (h : EnqueueCase q d now result es) (flow : RealtimeFlowId) :
    es.filterMap (QueueEvent.accepts flow) =
      (acceptedBy flow (.enqueue d now) (.enqueued result)).toList ∧
    ∀ e ∈ es, e.pops flow = none := by
  cases h <;> by_cases hf : d.flow = flow <;>
    simp [QueueEvent.accepts, QueueEvent.pops, acceptedBy, hf, List.filterMap_cons]

theorem acceptedBy_of_quiet {op : QueueOp} (h : op.quiet = true ∨ op.clears = true)
    (flow : RealtimeFlowId) (reply : QueueReply) : acceptedBy flow op reply = none := by
  cases op <;> first | rfl | (rcases h with h | h <;> cases h)

theorem poppedBy_of_popTime {op : QueueOp} (h : op.popTime = none) (flow : RealtimeFlowId)
    (reply : QueueReply) : poppedBy flow op reply = none := by
  unfold poppedBy
  split
  · rw [h, Option.map_none, ite_self]
  · rfl

/-- One call, made as the `n`-th of a run, in the account of a flow. -/
theorem FlowLedger.step {flow : RealtimeFlowId} {accepted : List (ℕ × RealtimeDatagram)}
    {popped : List (ℕ × ℕ × QueuedRealtimeDatagram)} {q : RealtimeSendQueue}
    (h : FlowLedger flow accepted popped q) (hq : q.Bounded) (op : QueueOp) {n : ℕ}
    (hn : ∀ x ∈ accepted, x.1 < n) :
    FlowLedger flow
      (accepted ++ (acceptedBy flow op (q.step op).1).toList.map (n, ·))
      (popped ++ (poppedBy flow op (q.step op).1).toList.map (n, ·)) (q.step op).2 := by
  obtain ⟨es, hevents, hchanges⟩ := RealtimeSendQueue.step_events hq op
  generalize q.step op = r at hevents hchanges ⊢
  obtain ⟨reply, q'⟩ := r
  simp only at hevents hchanges ⊢
  have hidle {fs : List QueueEvent} (hfs : ∀ e ∈ fs, e.quiet = true) :
      ∀ e ∈ fs, e.accepts flow = none ∧ e.pops flow = none := fun e he =>
    ⟨QueueEvent.accepts_of_quiet (hfs e he) flow, QueueEvent.pops_of_quiet (hfs e he) flow⟩
  -- Apart from `enqueue` and the pops, nothing enters and nothing leaves by the front.
  have hother (hop : op.quiet = true ∨ op.clears = true)
      (hes : ∀ e ∈ es, e.accepts flow = none ∧ e.pops flow = none) :
      FlowLedger flow (accepted ++ (acceptedBy flow op reply).toList.map (n, ·))
        (popped ++ (poppedBy flow op reply).toList.map (n, ·)) q' := by
    rw [acceptedBy_of_quiet hop, poppedBy_of_popTime (QueueOp.popTime_of_quiet hop)]
    simpa using h.idle hchanges hes
  cases hevents with
  | enqueue hdrops hcase =>
    rename_i d now result drops es
    obtain ⟨haccepts, hpops⟩ := hcase.accepts flow
    have hnone : drops.filterMap (QueueEvent.accepts flow) = [] :=
      List.filterMap_eq_nil_iff.mpr fun e he => (hidle hdrops e he).1
    have hall : ∀ e ∈ drops ++ es, e.pops flow = none := by
      intro e he
      rcases List.mem_append.mp he with he | he
      · exact (hidle hdrops e he).2
      · exact hpops e he
    have hchanged := h.changes hchanges n hall
    rw [List.filterMap_append, hnone, List.nil_append, haccepts] at hchanged
    simpa [poppedBy] using hchanged
  | missed hop hdrops hchoice =>
    have haccepted : acceptedBy flow op (.popped none) = none := by
      cases op <;> rfl
    rw [haccepted]
    simpa [poppedBy] using h.idle hchanges (hidle hdrops)
  | popped hop hdrops hchoice hgroup hpayload =>
    rename_i now drops flow' group payload rest
    obtain ⟨middle, hfirst, hlast⟩ := hchanges.concat
    have hpop := (h.idle hfirst (hidle hdrops)).change hlast n fun _ _ => hn
    have haccepted : acceptedBy flow op (.popped (some (group.queued flow' payload))) = none := by
      cases op <;> rfl
    rw [haccepted]
    by_cases hf : flow' = flow
    · simpa [poppedBy, QueueEvent.accepts, QueueEvent.pops, PendingGroup.queued, hf, hop] using hpop
    · simpa [poppedBy, QueueEvent.accepts, QueueEvent.pops, PendingGroup.queued, hf] using hpop
  | cleared hop => exact hother (.inr hop) (by simp [QueueEvent.accepts, QueueEvent.pops])
  | limited hdrops =>
    exact hother (.inl rfl) (List.forall_mem_cons.mpr ⟨⟨rfl, rfl⟩, hidle hdrops⟩)
  | quiet hop hes => exact hother (.inl hop) (hidle hes)

/-! ### The limit on payloads -/

namespace RealtimeSendQueue
variable {q q' : RealtimeSendQueue} {es : List QueueEvent}

/-- No queued payload is longer than the current limit. -/
def Short (q : RealtimeSendQueue) : Prop :=
  Carries (fun _ _ _ payload => payload.length ≤ q.maxPayload) q

theorem Carries.change {P : RealtimeFlowId → UInt32 → UInt64 → Bytes → Prop} {e : QueueEvent}
    (h : Carries P q) (hchange : QueueChange q e q')
    (he : ∀ flow d, e.accepts flow = some d → P d.flow d.generation d.sequence d.payload) :
    Carries P q' := by
  cases hchange with
  | dropped reason hgroup =>
    exact h.fewer ((Fewer.erase q _).trans (.of_groups (noteDropped_groups _ _ _ _)))
  | refused flow reason => exact h.fewer (.of_groups (noteDropped_groups _ _ _ _))
  | overflowed hgroup => exact h.fewer ((Fewer.erase q _).trans (.of_groups rfl))
  | appended hgroup hgeneration hsequence hroom hbytes =>
    rename_i d group
    refine h.insert (fun payload hpayload => ?_) rfl
    rcases List.mem_append.mp hpayload with hold | hnew
    · exact h d.flow group hgroup payload hold
    · obtain rfl := List.mem_singleton.mp hnew
      have hd := he d.flow d (if_pos rfl)
      rwa [hgeneration, hsequence] at hd
  | started hnone hroom =>
    rename_i d
    refine h.insert (fun payload hpayload => ?_) rfl
    obtain rfl := List.mem_singleton.mp hpayload
    exact he d.flow d (if_pos rfl)
  | popped hgroup hpayload hnow =>
    rename_i now flow group payload rest
    have hmem := h flow group hgroup
    rw [hpayload] at hmem
    by_cases hrest : rest = []
    · exact h.fewer ((Fewer.erase q flow).trans (.of_groups (if_pos hrest)))
    · refine Carries.insert h ?_ (if_neg hrest)
      exact fun p hp => hmem p (List.mem_cons_of_mem _ hp)
  | cleared => exact h.fewer (clearPending_fewer q)
  | sent datagram => exact h.fewer (.of_groups rfl)
  | limited hgroups | noted hgroups => exact h.fewer (.of_groups hgroups)

theorem Carries.changes {P : RealtimeFlowId → UInt32 → UInt64 → Bytes → Prop}
    (h : Carries P q) (hchanges : QueueChanges q es q')
    (hes : ∀ e ∈ es, ∀ flow d, e.accepts flow = some d →
      P d.flow d.generation d.sequence d.payload) : Carries P q' := by
  induction hchanges with
  | nil => exact h
  | cons hfirst _ ih =>
    obtain ⟨he, hes⟩ := List.forall_mem_cons.mp hes
    exact ih (h.change hfirst he) hes

/-- A new payload limit removes every group with a payload above it. -/
theorem Short.setMaxPayload (h : q.Short) (maxPayload : ℕ) :
    (q.setMaxPayload maxPayload).2.Short := by
  unfold RealtimeSendQueue.setMaxPayload
  split
  · exact h
  split
  · exact h
  simp only
  split
  · have hlimit (q' : RealtimeSendQueue) (test : PendingGroup → Bool) :
        (q'.dropFlowGroups (q'.flowsWhere test) .congested).2.maxPayload = q'.maxPayload := by
      obtain ⟨drops, hdrops, hall⟩ := dropFlowGroups_changes q' (q'.flowsWhere test) .congested
      refine hdrops.maxPayload_eq fun e he limit => ?_
      obtain ⟨flow, group, rfl⟩ := hall e he
      simp
    intro flow group hgroup payload hpayload
    rw [dropWhere_lookup, Option.filter_eq_some_iff] at hgroup
    have hfits := hgroup.2
    simp only [Bool.not_eq_true', List.any_eq_false, decide_eq_true_eq, Nat.not_lt] at hfits
    rw [hlimit]
    exact hfits payload hpayload
  · next hlarger =>
    -- A larger limit admits what the old one did.
    rw [Nat.not_lt] at hlarger
    exact fun flow group hgroup payload hpayload =>
      (h flow group hgroup payload hpayload).trans hlarger

theorem EnqueueCase.fits {d : RealtimeDatagram} {now : ℕ}
    {result : Except TransportError SendOutcome} (h : EnqueueCase q d now result es) :
    ∀ e ∈ es, (∀ maxPayload, e ≠ .limited maxPayload) ∧
      ∀ flow d', e.accepts flow = some d' → d'.payload.length ≤ q.maxPayload := by
  cases h <;> simp_all [QueueEvent.accepts]

theorem Short.step (h : q.Short) (hq : q.Bounded) (op : QueueOp) : (q.step op).2.Short := by
  by_cases hset : ∃ maxPayload, op = .setMaxPayload maxPayload
  · obtain ⟨maxPayload, rfl⟩ := hset
    exact h.setMaxPayload maxPayload
  obtain ⟨es, hevents, hchanges⟩ := step_events hq op
  generalize q.step op = r at hevents hchanges ⊢
  obtain ⟨reply, q'⟩ := r
  simp only at hevents hchanges ⊢
  -- No event changes the limit, and whatever is accepted keeps to it.
  have hfits : ∀ e ∈ es, (∀ maxPayload, e ≠ .limited maxPayload) ∧
      ∀ flow d, e.accepts flow = some d → d.payload.length ≤ q.maxPayload := by
    have hquiet {fs : List QueueEvent} (hfs : ∀ e ∈ fs, e.quiet = true) :
        ∀ e ∈ fs, (∀ maxPayload, e ≠ .limited maxPayload) ∧
          ∀ flow d, e.accepts flow = some d → d.payload.length ≤ q.maxPayload := by
      intro e he
      refine ⟨QueueEvent.not_limited_of_quiet (hfs e he), fun flow d hd => ?_⟩
      rw [QueueEvent.accepts_of_quiet (hfs e he)] at hd
      cases hd
    cases hevents with
    | enqueue hdrops hcase =>
      have hall := EnqueueCase.fits hcase
      rw [expire_maxPayload] at hall
      exact List.forall_mem_append.mpr ⟨hquiet hdrops, hall⟩
    | missed hop hdrops hchoice => exact hquiet hdrops
    | popped hop hdrops hchoice hgroup hpayload =>
      exact List.forall_mem_append.mpr ⟨hquiet hdrops, by simp [QueueEvent.accepts]⟩
    | cleared hop => simp [QueueEvent.accepts]
    | limited hdrops => exact absurd ⟨_, rfl⟩ hset
    | quiet hop hes => exact hquiet hes
  have hlimit := hchanges.maxPayload_eq fun e he => (hfits e he).1
  have hkept := Carries.changes h hchanges fun e he => (hfits e he).2
  intro flow group hgroup payload hpayload
  rw [hlimit]
  exact hkept flow group hgroup payload hpayload

end RealtimeSendQueue

/-! ### What replaces a group -/

/-- Two groups of one generation and sequence. -/
def SameKey (a b : PendingGroup) : Prop := a.generation = b.generation ∧ a.sequence = b.sequence

/-- A group was there before, but for datagrams that it has lost; or it has been given one more, or
was started. -/
theorem QueueChange.group_cases {q q' : RealtimeSendQueue} {e : QueueEvent}
    (h : QueueChange q e q') {flow : RealtimeFlowId} {new : PendingGroup}
    (hnew : q'.groups[flow]? = some new) :
    (∃ old rest, q.groups[flow]? = some old ∧ new = { old with datagrams := rest }) ∨
      (∃ d old, e = .appended d old ∧ d.flow = flow ∧ q.groups[flow]? = some old ∧
        d.generation = old.generation ∧ d.sequence = old.sequence ∧ new = old.extend d) ∨
      ∃ d order, e = .started d ∧ d.flow = flow ∧ new = d.group order := by
  have hsame {group : PendingGroup} (hgroup : q.groups[flow]? = some group) :
      ∃ old rest, q.groups[flow]? = some old ∧ group = { old with datagrams := rest } :=
    ⟨group, group.datagrams, hgroup, rfl⟩
  -- An event that only removes groups leaves the others as they were.
  have hfewer (hf : RealtimeSendQueue.Fewer q q') := hsame (hf flow new hnew)
  cases h with
  | dropped reason hgroup =>
    exact .inl (hfewer ((RealtimeSendQueue.Fewer.erase q _).trans
      (.of_groups (RealtimeSendQueue.noteDropped_groups _ _ _ _))))
  | refused flow' reason =>
    exact .inl (hfewer (.of_groups (RealtimeSendQueue.noteDropped_groups _ _ _ _)))
  | overflowed hgroup =>
    exact .inl (hfewer ((RealtimeSendQueue.Fewer.erase q _).trans (.of_groups rfl)))
  | appended hgroup hgeneration hsequence hroom hbytes =>
    rename_i d group
    have hlookup := OrderedMap.lookup_insert q.groups d.flow flow (group.extend d)
    replace hnew := hlookup.symm.trans hnew
    split at hnew
    · next hf =>
      obtain rfl := Option.some.inj hnew
      exact .inr (.inl ⟨d, group, rfl, hf, hf ▸ hgroup, hgeneration, hsequence, rfl⟩)
    · exact .inl (hsame hnew)
  | started hnone hroom =>
    rename_i d
    have hlookup := OrderedMap.lookup_insert q.groups d.flow flow (d.group q.nextInsertionOrder)
    replace hnew := hlookup.symm.trans hnew
    split at hnew
    · next hf =>
      obtain rfl := Option.some.inj hnew
      exact .inr (.inr ⟨d, _, rfl, hf, rfl⟩)
    · exact .inl (hsame hnew)
  | popped hgroup hpayload hnow =>
    rename_i now flow' group payload rest
    -- The last datagram takes its group along.
    by_cases hrest : rest = []
    · exact .inl (hfewer ((RealtimeSendQueue.Fewer.erase q flow').trans
        (.of_groups (if_pos hrest))))
    · have hlookup := OrderedMap.lookup_insert q.groups flow' flow { group with datagrams := rest }
      rw [show _ = q.groups.insert flow' { group with datagrams := rest } from if_neg hrest,
        hlookup] at hnew
      split at hnew
      · next hf =>
        obtain rfl := Option.some.inj hnew
        exact .inl ⟨group, rest, hf ▸ hgroup, rfl⟩
      · exact .inl (hsame hnew)
  | cleared => exact .inl (hfewer (RealtimeSendQueue.clearPending_fewer q))
  | sent datagram => exact .inl (hfewer (.of_groups rfl))
  | limited hgroups | noted hgroups => exact .inl (hfewer (.of_groups hgroups))

/-- A group is an older one of the same key, or it was started. -/
theorem QueueChange.origin {q q' : RealtimeSendQueue} {e : QueueEvent} (h : QueueChange q e q')
    {flow : RealtimeFlowId} {new : PendingGroup} (hnew : q'.groups[flow]? = some new) :
    (∃ old, q.groups[flow]? = some old ∧ SameKey old new) ∨
      ∃ d, e = .started d ∧ d.flow = flow ∧ d.generation = new.generation ∧
        d.sequence = new.sequence := by
  rcases h.group_cases hnew with ⟨old, rest, hold, rfl⟩ |
    ⟨d, old, -, -, hold, -, -, rfl⟩ | ⟨d, order, he, hflow, rfl⟩
  · exact .inl ⟨old, hold, rfl, rfl⟩
  · exact .inl ⟨old, hold, rfl, rfl⟩
  · exact .inr ⟨d, he, hflow, rfl, rfl⟩

theorem QueueChanges.origin {q q' : RealtimeSendQueue} {es : List QueueEvent}
    (h : QueueChanges q es q') {flow : RealtimeFlowId} {new : PendingGroup}
    (hnew : q'.groups[flow]? = some new) :
    (∃ old, q.groups[flow]? = some old ∧ SameKey old new) ∨
      ∃ d, .started d ∈ es ∧ d.flow = flow ∧ d.generation = new.generation ∧
        d.sequence = new.sequence := by
  induction h with
  | nil => exact .inl ⟨new, hnew, rfl, rfl⟩
  | cons hfirst _ ih =>
    rcases ih hnew with ⟨middle, hmiddle, hkey⟩ | ⟨d, hd, hrest⟩
    · rcases hfirst.origin hmiddle with ⟨old, hold, hkey'⟩ | ⟨d, rfl, hflow, hg, hs⟩
      · exact .inl ⟨old, hold, hkey'.1.trans hkey.1, hkey'.2.trans hkey.2⟩
      · exact .inr ⟨d, List.mem_cons_self, hflow, hg.trans hkey.1, hs.trans hkey.2⟩
    · exact .inr ⟨d, List.mem_cons_of_mem _ hd, hrest⟩

namespace RealtimeSendQueue
variable {q : RealtimeSendQueue}

/-- A call that puts another group in the place of one with time left brings a newer datagram. -/
theorem step_replaces (hq : q.Bounded) (op : QueueOp) {flow : RealtimeFlowId}
    {old new : PendingGroup} (hold : q.groups[flow]? = some old)
    (hnew : (q.step op).2.groups[flow]? = some new) :
    SameKey old new ∨ ∃ d now, op = .enqueue d now ∧ d.flow = flow ∧
      d.generation = new.generation ∧ d.sequence = new.sequence ∧
      (old.deadline ≤ now ∨
        compareGroup d.generation d.sequence old.generation old.sequence = .newer) := by
  obtain ⟨es, hevents, hchanges⟩ := step_events hq op
  rcases hchanges.origin hnew with ⟨middle, hmiddle, hkey⟩ | ⟨d, hd, hflow, hg, hs⟩
  · obtain rfl := Option.some.inj (hold.symm.trans hmiddle)
    exact .inl hkey
  refine .inr ?_
  have hquiet {fs : List QueueEvent} (hfs : ∀ e ∈ fs, e.quiet = true) : .started d ∉ fs :=
    fun hmem => absurd (hfs _ hmem) (by simp [QueueEvent.quiet])
  generalize (q.step op).1 = reply at hevents
  cases hevents with
  | enqueue hdrops hcase =>
    rename_i d' now result drops es
    have hmem := (List.mem_append.mp hd).resolve_left (hquiet hdrops)
    -- Without a group left after expiry the old one had no time left.
    have hexpired (hnone : (q.expire now).2.groups[d.flow]? = none) : old.deadline ≤ now := by
      rw [expire_lookup, hflow, hold, Option.filter_some] at hnone
      by_contra hlive
      rw [Nat.not_le] at hlive
      simp [hlive] at hnone
    cases hcase with
    | replaced hgroup hcompare =>
      obtain rfl : d = d' := by simpa using hmem
      obtain ⟨hgroup, -⟩ := expire_live hgroup
      obtain rfl := Option.some.inj (hold.symm.trans (hflow ▸ hgroup))
      exact ⟨d, now, rfl, hflow, hg, hs, .inr hcompare⟩
    | evicted hnone =>
      obtain rfl : d = d' := by simpa using hmem
      exact ⟨d, now, rfl, hflow, hg, hs, .inl (hexpired hnone)⟩
    | started hnone =>
      obtain rfl : d = d' := by simpa using hmem
      exact ⟨d, now, rfl, hflow, hg, hs, .inl (hexpired hnone)⟩
    | _ => simp at hmem
  | missed hop hdrops hchoice => exact absurd hd (hquiet hdrops)
  | popped hop hdrops hchoice hgroup hpayload =>
    rcases List.mem_append.mp hd with hmem | hmem
    · exact absurd hmem (hquiet hdrops)
    · simp at hmem
  | cleared hop => simp at hd
  | limited hdrops =>
    rcases List.mem_cons.mp hd with he | hmem
    · cases he
    · exact absurd hmem (hquiet hdrops)
  | quiet hop hes => exact absurd hd (hquiet hes)

theorem replacedOlder_newer (hq : q.Bounded) {d : RealtimeDatagram} {now : ℕ}
    (h : (q.enqueue d now).1 = .ok .replacedOlder) :
    ∃ old, q.groups[d.flow]? = some old ∧ now < old.deadline ∧
      compareGroup d.generation d.sequence old.generation old.sequence = .newer := by
  obtain ⟨es, hcase, -⟩ := enqueue_cases hq d now
  rw [h] at hcase
  cases hcase with
  | replaced hgroup hcompare =>
    obtain ⟨hgroup, hlive⟩ := expire_live hgroup
    exact ⟨_, hgroup, hlive, hcompare⟩

end RealtimeSendQueue

/-- The datagrams of a flow that were accepted, each with the number of its call. -/
def acceptedIn (flow : RealtimeFlowId) (hist : QueueHistory) : List (ℕ × RealtimeDatagram) :=
  hist.zipIdx.flatMap fun p => (acceptedBy flow p.1.input p.1.reply).toList.map (p.2, ·)

/-- The datagrams of a flow that were popped, each with the number and the time of its call. -/
def poppedIn (flow : RealtimeFlowId) (hist : QueueHistory) :
    List (ℕ × ℕ × QueuedRealtimeDatagram) :=
  hist.zipIdx.flatMap fun p => (poppedBy flow p.1.input p.1.reply).toList.map (p.2, ·)

theorem acceptedIn_concat (flow : RealtimeFlowId) (hist : QueueHistory)
    (e : QueueRecord) :
    acceptedIn flow (hist ++ [e]) =
      acceptedIn flow hist ++ (acceptedBy flow e.input e.reply).toList.map (hist.length, ·) := by
  simp [acceptedIn, List.zipIdx_append]

theorem poppedIn_concat (flow : RealtimeFlowId) (hist : QueueHistory)
    (e : QueueRecord) :
    poppedIn flow (hist ++ [e]) =
      poppedIn flow hist ++ (poppedBy flow e.input e.reply).toList.map (hist.length, ·) := by
  simp [poppedIn, List.zipIdx_append]

theorem acceptedIn_lt {flow : RealtimeFlowId} {hist : QueueHistory} {x : ℕ × RealtimeDatagram}
    (h : x ∈ acceptedIn flow hist) : x.1 < hist.length := by
  obtain ⟨⟨e, i⟩, hi, hx⟩ := List.mem_flatMap.mp h
  obtain ⟨d, -, rfl⟩ := List.mem_map.mp hx
  simpa using (List.mem_zipIdx hi).2.1

/-- What holds along a run of the queue. -/
structure QueueSafe (config : RealtimeQueueConfig) (flow : RealtimeFlowId) (hist : QueueHistory)
    (q : RealtimeSendQueue) : Prop where
  config : q.config = config
  bounded : q.Bounded
  short : q.Short
  ledger : FlowLedger flow (acceptedIn flow hist) (poppedIn flow hist) q

theorem QueueSafe.step {config : RealtimeQueueConfig} {flow : RealtimeFlowId}
    {hist : QueueHistory} {q : RealtimeSendQueue} (h : QueueSafe config flow hist q)
    (op : QueueOp) :
    QueueSafe config flow (hist ++ [event RealtimeSendQueue.step q op]) (q.step op).2 where
  config := by
    obtain ⟨es, -, hchanges⟩ := RealtimeSendQueue.step_events h.bounded op
    exact hchanges.config_eq.trans h.config
  bounded := h.bounded.step op
  short := h.short.step h.bounded op
  ledger := by
    rw [acceptedIn_concat, poppedIn_concat]
    exact h.ledger.step h.bounded op fun x hx => acceptedIn_lt hx

section Run
variable {config : RealtimeQueueConfig} {maxPayload : ℕ} {q : RealtimeSendQueue}

theorem queueSafe_run (h : RealtimeSendQueue.new config maxPayload = .ok q)
    (flow : RealtimeFlowId) (ops : List QueueOp) :
    QueueSafe config flow (trace RealtimeSendQueue.step q ops)
      (run RealtimeSendQueue.step q ops) := by
  obtain ⟨hgroups, hconfig, -, -⟩ := RealtimeSendQueue.new_spec h
  have hnone : q.groups[flow]? = none := by
    rw [hgroups]
    exact ExtTreeMap.getElem?_empty
  refine run_history _ ⟨hconfig, RealtimeSendQueue.bounded_new h, ?_, ?_⟩
    (fun _ _ op h => h.step op) ops
  · exact RealtimeSendQueue.carries_new h
  · exact ⟨[], [], [], .nil, .nil, hnone ▸ .none⟩

theorem bounded_of_mem_trace (h : RealtimeSendQueue.new config maxPayload = .ok q)
    (ops : List QueueOp) : ∀ e ∈ trace RealtimeSendQueue.step q ops,
      e.pre.Bounded ∧ e = event RealtimeSendQueue.step e.pre e.input :=
  trace_invariant _ (fun _ op hq => hq.step op) (RealtimeSendQueue.bounded_new h) ops

/-- A run of the send queue keeps every limit; each flow pops, in order, datagrams that earlier
calls accepted, under their keys and before their deadlines; and only a newer datagram takes the
place of a group with time left. -/
theorem send_queue_is_safe (h : RealtimeSendQueue.new config maxPayload = .ok q)
    (ops : List QueueOp) :
    ((run RealtimeSendQueue.step q ops).groups.size ≤ config.maxFlows ∧
      ∀ (flow : RealtimeFlowId) (group : PendingGroup),
        (run RealtimeSendQueue.step q ops).groups[flow]? = some group →
          group.datagrams ≠ [] ∧ group.datagrams.length ≤ config.maxDatagramsPerGroup ∧
          ∀ payload ∈ group.datagrams,
            payload.length ≤ (run RealtimeSendQueue.step q ops).maxPayload) ∧
    (∀ flow : RealtimeFlowId, ∃ delivered waiting,
      (delivered ++ waiting).Sublist (acceptedIn flow (trace RealtimeSendQueue.step q ops)) ∧
      List.Forall₂ Served delivered (poppedIn flow (trace RealtimeSendQueue.step q ops)) ∧
      WaitingIn flow (run RealtimeSendQueue.step q ops).groups[flow]? waiting) ∧
    ∀ e ∈ trace RealtimeSendQueue.step q ops,
      (∀ (flow : RealtimeFlowId) (old new : PendingGroup), e.pre.groups[flow]? = some old →
        e.post.groups[flow]? = some new →
          SameKey old new ∨ ∃ d now, e.input = .enqueue d now ∧ d.flow = flow ∧
            d.generation = new.generation ∧ d.sequence = new.sequence ∧
            (old.deadline ≤ now ∨
              compareGroup d.generation d.sequence old.generation old.sequence = .newer)) ∧
      ∀ d now, e.input = .enqueue d now → e.reply = .enqueued (.ok .replacedOlder) →
        ∃ old, e.pre.groups[d.flow]? = some old ∧ now < old.deadline ∧
          compareGroup d.generation d.sequence old.generation old.sequence = .newer := by
  refine ⟨⟨?_, fun flow group hgroup => ?_⟩, fun flow => ?_, fun e he => ⟨?_, ?_⟩⟩
  · have hsafe := queueSafe_run h ⟨0⟩ ops
    exact hsafe.config ▸ hsafe.bounded.flows
  · have hsafe := queueSafe_run h flow ops
    refine ⟨hsafe.bounded.nonempty flow group hgroup, ?_, hsafe.short flow group hgroup⟩
    exact hsafe.config ▸ hsafe.bounded.short flow group hgroup
  · obtain ⟨delivered, dropped, waiting, hsettled, hserved, hwaiting⟩ :=
      (queueSafe_run h flow ops).ledger
    exact ⟨delivered, waiting, hsettled.sublist, hserved, hwaiting⟩
  · -- A call replaces a group only after its deadline, or by a newer one.
    obtain ⟨hbounded, heq⟩ := bounded_of_mem_trace h ops e he
    intro flow old new hold hnew
    rw [heq] at hnew
    exact RealtimeSendQueue.step_replaces hbounded e.input hold hnew
  · obtain ⟨hbounded, heq⟩ := bounded_of_mem_trace h ops e he
    intro d now hinput hreply
    rw [heq, hinput] at hreply
    exact RealtimeSendQueue.replacedOlder_newer hbounded (QueueReply.enqueued.inj hreply)

end Run

/-- The first datagram is popped, the next one of its group gives way to a newer group, and that is
popped too. -/
theorem small_run_is_safe :
    (run RealtimeSendQueue.step smallQueue smallOps).groups.size ≤ 1 ∧
    (∃ delivered waiting, (delivered ++ waiting).Sublist
        (acceptedIn ⟨1⟩ (trace RealtimeSendQueue.step smallQueue smallOps)) ∧
      List.Forall₂ Served delivered
        (poppedIn ⟨1⟩ (trace RealtimeSendQueue.step smallQueue smallOps)) ∧
      delivered.map (fun x => x.2.payload) = [[1, 2], [4]]) ∧
    ∃ old, (run RealtimeSendQueue.step smallQueue (smallOps.take 3)).groups[(⟨1⟩ : RealtimeFlowId)]?
        = some old ∧ 2 < old.deadline ∧ compareGroup 1 2 old.generation old.sequence = .newer := by
  obtain ⟨⟨hsize, -⟩, hflows, hevents⟩ := send_queue_is_safe smallQueue_new smallOps
  refine ⟨hsize, ?_, ?_⟩
  · obtain ⟨delivered, waiting, hsublist, hserved, -⟩ := hflows ⟨1⟩
    refine ⟨delivered, waiting, hsublist, hserved, ?_⟩
    have hpopped : (poppedIn ⟨1⟩ (trace RealtimeSendQueue.step smallQueue smallOps)).map
        (fun p => p.2.2.payload) = [[1, 2], [4]] := by decide +kernel
    rw [← hpopped, ← List.forall₂_eq_eq_eq, List.forall₂_map_left_iff, List.forall₂_map_right_iff]
    exact hserved.imp fun _ _ h => h.payload
  · have hreplaced : ((run RealtimeSendQueue.step smallQueue (smallOps.take 3)).enqueue
        (smallDatagram 2 [4]) 2).1 = .ok .replacedOlder := by decide +kernel
    obtain ⟨-, hnewer⟩ := hevents _ (event_mem_trace RealtimeSendQueue.step smallQueue
      (smallOps.take 3) (.enqueue (smallDatagram 2 [4]) 2) [.popNextFitting 3 21])
    generalize run RealtimeSendQueue.step smallQueue (smallOps.take 3) = q at hreplaced hnewer ⊢
    exact hnewer (smallDatagram 2 [4]) 2 rfl (congrArg QueueReply.enqueued hreplaced)

end MutsukiLink
