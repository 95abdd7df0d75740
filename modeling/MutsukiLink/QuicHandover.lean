import MutsukiLink.QuicRealtimeRuns

/-! What a QUIC connection hands to its endpoint over a whole run, and what the answers of
`try_send_latest` say about it. -/
namespace MutsukiLink
open Std WireBytes RunHistory

/-! ### The counters of what was sent -/

namespace RealtimeSendQueue

/-- The limit and the telemetry without the counters of what is offered and lost. -/
def steady (q : RealtimeSendQueue) : ℕ × RealtimeTelemetry :=
  (q.maxPayload, { q.telemetry with
    queued := 0, pending := 0, replaced := 0, expired := 0, congestionDropped := 0, flows := ∅ })

/-- The counters that only `note_sent` touches. -/
def sentTotals (q : RealtimeSendQueue) : ℕ × ℕ := (q.telemetry.sent, q.telemetry.sentBytes)

theorem sentTotals_of_steady {q q' : RealtimeSendQueue} (h : q'.steady = q.steady) :
    q'.sentTotals = q.sentTotals :=
  congrArg (fun s => (s.2.sent, s.2.sentBytes)) h

theorem dropFlowGroup_steady (q : RealtimeSendQueue) (flow : RealtimeFlowId) (reason : DropReason) :
    (q.dropFlowGroup flow reason).2.steady = q.steady := by
  unfold dropFlowGroup
  split
  · rfl
  · cases reason <;> rfl

theorem dropFlowGroups_steady (q : RealtimeSendQueue) (flows : List RealtimeFlowId)
    (reason : DropReason) : (q.dropFlowGroups flows reason).2.steady = q.steady := by
  unfold dropFlowGroups
  generalize 0 = dropped
  induction flows generalizing q dropped with
  | nil => rfl
  | cons flow flows ih =>
    exact (ih (q.dropFlowGroup flow reason).2 _).trans (dropFlowGroup_steady ..)

theorem expire_steady (q : RealtimeSendQueue) (now : ℕ) :
    (q.expire now).2.steady = q.steady := dropFlowGroups_steady ..

theorem popFlow_steady (q : RealtimeSendQueue) (flow : RealtimeFlowId) :
    (q.popFlow flow).2.steady = q.steady := by
  unfold popFlow
  split
  · rfl
  · split <;> rfl

theorem appendToGroup_steady (q : RealtimeSendQueue) (datagram : RealtimeDatagram)
    (group : PendingGroup) : (q.appendToGroup datagram group).2.steady = q.steady := by
  unfold appendToGroup
  dsimp only
  split
  · rfl
  · split <;> rfl

theorem startGroup_steady (q : RealtimeSendQueue) (datagram : RealtimeDatagram) :
    (q.startGroup datagram).2.steady = q.steady :=
  dropFlowGroup_steady q datagram.flow .replaced

theorem evictLowerPriority_steady (q : RealtimeSendQueue) (incoming : RealtimePriority) :
    (q.evictLowerPriority incoming).2.steady = q.steady := by
  rcases evictLowerPriority_cases q incoming with ⟨he, -⟩ | ⟨flow, group, -, -, he⟩
  · rw [he]
  · rw [he]
    exact dropFlowGroup_steady ..

theorem enqueue_steady (q : RealtimeSendQueue) (datagram : RealtimeDatagram) (now : ℕ) :
    (q.enqueue datagram now).2.steady = q.steady := by
  rw [← expire_steady q now]
  unfold enqueue
  generalize (q.expire now).2 = q
  dsimp only
  split
  · rfl
  split
  · rfl
  split
  · split
    · rfl
    · exact appendToGroup_steady ..
    · exact startGroup_steady ..
  · split
    · have hevict := evictLowerPriority_steady q datagram.priority
      split
      · next heq =>
        rw [heq] at hevict
        exact hevict
      · next heq =>
        rw [heq] at hevict
        exact (startGroup_steady ..).trans hevict
    · exact startGroup_steady ..

theorem pop_steady (q : RealtimeSendQueue) (choice : Option RealtimeFlowId) :
    (choice.elim (none, q) q.popFlow).2.steady = q.steady := by
  cases choice with
  | none => rfl
  | some flow => exact popFlow_steady q flow

theorem popNextFitting_steady (q : RealtimeSendQueue) (now maxWireLen : ℕ) :
    (q.popNextFitting now maxWireLen).2.steady = q.steady := by
  rw [popNextFitting_eq]
  exact (pop_steady ..).trans (expire_steady ..)

theorem dropFlowGroups_sent (q : RealtimeSendQueue) (flows : List RealtimeFlowId)
    (reason : DropReason) : (q.dropFlowGroups flows reason).2.sentTotals = q.sentTotals :=
  sentTotals_of_steady (dropFlowGroups_steady q flows reason)

theorem setMaxPayload_sent (q : RealtimeSendQueue) (maxPayload : ℕ) :
    (q.setMaxPayload maxPayload).2.sentTotals = q.sentTotals := by
  unfold setMaxPayload
  split
  · rfl
  split
  · rfl
  dsimp only
  split
  · exact dropFlowGroups_sent ..
  · rfl

/-- Only the note of a sent datagram changes the counters, for this datagram. -/
theorem step_sent (q : RealtimeSendQueue) (op : QueueOp) :
    (q.step op).2.sentTotals = (match op.sends with
      | none => q.sentTotals
      | some d => (saturatingAdd q.sentTotals.1 1,
        saturatingAdd q.sentTotals.2 d.payload.length)) := by
  cases op with
  | enqueue datagram now => exact sentTotals_of_steady (enqueue_steady ..)
  | peekNextWireLen now => exact sentTotals_of_steady (expire_steady ..)
  | popNext now =>
    simp only [step, Prod.map_snd, id, popNext_eq, QueueOp.sends]
    exact sentTotals_of_steady ((pop_steady ..).trans (expire_steady ..))
  | popNextFitting now maxWireLen =>
    simp only [step, Prod.map_snd, id, QueueOp.sends]
    exact sentTotals_of_steady (popNextFitting_steady ..)
  | dropDisposableForCongestion => exact dropFlowGroups_sent ..
  | setMaxPayload maxPayload => exact setMaxPayload_sent ..
  | noteSent | noteTransportCongestion | noteNetworkMetrics | noteMigration | resetForReconnect
  | clearPending => rfl

/-- After a run the counters hold what was noted, up to their maximum. -/
theorem run_sent {q : RealtimeSendQueue} (hq : q.sentTotals = (0, 0)) (ops : List QueueOp) :
    (run step q ops).sentTotals = (min (ops.filterMap QueueOp.sends).length counterMax,
      min ((ops.filterMap QueueOp.sends).map fun d => d.payload.length).sum counterMax) := by
  induction ops using List.reverseRecOn with
  | nil => simpa using hq
  | append_singleton ops op ih =>
    rw [run_concat, step_sent, ih, List.filterMap_append, List.length_append, List.map_append,
      List.sum_append]
    cases hop : op.sends with
    | none => simp [hop]
    | some d =>
      simp only [hop, List.filterMap_cons, List.filterMap_nil, List.length_singleton, List.map_cons,
        List.map_nil, List.sum_cons, List.sum_nil, saturatingAdd, counterMax]
      refine Prod.ext ?_ ?_ <;> simp only <;> omega

end RealtimeSendQueue

/-! ### In the order of the offers -/

theorem popTime_of_pops (q : RealtimeSendQueue) (op : QueueOp)
    (h : (q.step op).1.pops.isSome = true) : op.popTime.isSome = true := by
  cases op <;> first | rfl | cases h

/-- A datagram that was handed over is the offered one. -/
structure SameDatagram (s : QueuedRealtimeDatagram) (d : RealtimeDatagram) : Prop where
  flow : s.flow = d.flow
  generation : s.generation = d.generation
  sequence : s.sequence = d.sequence
  payload : s.payload = d.payload

/-- A datagram that was handed over is the offered one, with the priority and the deadline of its
group: no less urgent than it was offered, and with no more time. -/
structure HandedAs (s : QueuedRealtimeDatagram) (d : RealtimeDatagram) : Prop extends
    SameDatagram s d where
  deadline : s.deadline ≤ d.deadline
  priority : s.priority.rank ≤ d.priority.rank

/-- Both belong to one group. -/
def GroupMate (s : QueuedRealtimeDatagram) (d : RealtimeDatagram) : Prop :=
  d.flow = s.flow ∧ d.generation = s.generation ∧ d.sequence = s.sequence

/-- The deadline and the priority come from offered datagrams of the same group. -/
structure Mated (offered : List RealtimeDatagram) (s : QueuedRealtimeDatagram) : Prop where
  deadline : ∃ d ∈ offered, GroupMate s d ∧ s.deadline = d.deadline
  priority : ∃ d ∈ offered, GroupMate s d ∧ s.priority = d.priority

theorem Mated.mono {offered offered' : List RealtimeDatagram} {s : QueuedRealtimeDatagram}
    (h : Mated offered s) (hsub : offered ⊆ offered') : Mated offered' s := by
  obtain ⟨⟨d, hd, hdeadline⟩, ⟨d', hd', hpriority⟩⟩ := h
  exact ⟨⟨d, hsub hd, hdeadline⟩, ⟨d', hsub hd', hpriority⟩⟩

namespace RealtimeSendQueue
variable {q q' : RealtimeSendQueue} {offered : List RealtimeDatagram} {e : QueueEvent}
  {es : List QueueEvent}

/-- Every group has its deadline and its priority from datagrams that were offered for it. -/
def MatedGroups (offered : List RealtimeDatagram) (q : RealtimeSendQueue) : Prop :=
  ∀ (flow : RealtimeFlowId) (group : PendingGroup), q.groups[flow]? = some group →
    ∀ payload, Mated offered (group.queued flow payload)

theorem mated_extend {group : PendingGroup} {d : RealtimeDatagram} {payload : Bytes}
    (h : Mated offered (group.queued d.flow payload)) (hd : d ∈ offered)
    (hgeneration : d.generation = group.generation) (hsequence : d.sequence = group.sequence) :
    Mated offered ((group.extend d).queued d.flow payload) where
  deadline := by
    rcases min_choice group.deadline d.deadline with hmin | hmin
    · obtain ⟨old, hold, hmate, hdeadline⟩ := h.deadline
      exact ⟨old, hold, hmate, hmin.trans hdeadline⟩
    · exact ⟨d, hd, ⟨rfl, hgeneration, hsequence⟩, hmin⟩
  priority := by
    by_cases hless : d.priority.rank < group.priority.rank
    · exact ⟨d, hd, ⟨rfl, hgeneration, hsequence⟩, if_pos hless⟩
    · obtain ⟨old, hold, hmate, hpriority⟩ := h.priority
      exact ⟨old, hold, hmate, (if_neg hless).trans hpriority⟩

theorem MatedGroups.change (h : MatedGroups offered q) (hchange : QueueChange q e q')
    (he : ∀ flow d, e.accepts flow = some d → d ∈ offered) : MatedGroups offered q' := by
  intro flow new hnew payload
  rcases hchange.group_cases hnew with ⟨old, rest, hold, rfl⟩ |
    ⟨d, old, rfl, rfl, hold, hgeneration, hsequence, rfl⟩ | ⟨d, order, rfl, rfl, rfl⟩
  · exact ⟨(h flow old hold payload).deadline, (h flow old hold payload).priority⟩
  · exact mated_extend (h d.flow old hold payload) (he d.flow d (if_pos rfl)) hgeneration hsequence
  · have hd := he d.flow d (if_pos rfl)
    exact ⟨⟨d, hd, ⟨rfl, rfl, rfl⟩, rfl⟩, ⟨d, hd, ⟨rfl, rfl, rfl⟩, rfl⟩⟩

theorem MatedGroups.changes (h : MatedGroups offered q) (hchanges : QueueChanges q es q')
    (hes : ∀ e ∈ es, ∀ flow d, e.accepts flow = some d → d ∈ offered) :
    MatedGroups offered q' := by
  induction hchanges with
  | nil => exact h
  | cons hfirst _ ih =>
    obtain ⟨he, hes⟩ := List.forall_mem_cons.mp hes
    exact ih (h.change hfirst he) hes

/-- A call accepts only the datagram that it offers. -/
theorem accepts_offered {op : QueueOp} {reply : QueueReply} (h : OpEvents q op reply es) :
    ∀ e ∈ es, ∀ flow d, e.accepts flow = some d → op.offers = some d := by
  have hquiet {fs : List QueueEvent} (hfs : ∀ e ∈ fs, e.quiet = true) :
      ∀ e ∈ fs, ∀ flow d, e.accepts flow = some d → op.offers = some d := by
    intro e he flow d hd
    rw [QueueEvent.accepts_of_quiet (hfs e he)] at hd
    cases hd
  cases h with
  | enqueue hdrops hcase =>
    refine List.forall_mem_append.mpr ⟨hquiet hdrops, fun e he flow d hd => ?_⟩
    have hmem := List.mem_filterMap.mpr ⟨e, he, hd⟩
    rw [(hcase.accepts flow).1, Option.mem_toList] at hmem
    unfold acceptedBy at hmem
    split at hmem
    · next heq _ =>
      cases heq
      exact (Option.ite_none_right_eq_some.mp hmem).2
    · next heq _ =>
      cases heq
      exact (Option.ite_none_right_eq_some.mp hmem).2
    · cases hmem
  | missed hop hdrops => exact hquiet hdrops
  | popped hop hdrops =>
    exact List.forall_mem_append.mpr ⟨hquiet hdrops, by simp [QueueEvent.accepts]⟩
  | cleared hop => simp [QueueEvent.accepts]
  | limited hdrops =>
    exact List.forall_mem_cons.mpr ⟨by simp [QueueEvent.accepts], hquiet hdrops⟩
  | quiet hop hes => exact hquiet hes

theorem MatedGroups.step (h : MatedGroups offered q) (hq : q.Bounded) (op : QueueOp) :
    MatedGroups (offered ++ op.offers.toList) (q.step op).2 ∧
      ∀ s, (q.step op).1.pops = some s → Mated offered s := by
  obtain ⟨es, hevents, hchanges⟩ := step_events hq op
  have hmore : MatedGroups (offered ++ op.offers.toList) q := fun flow group hgroup payload =>
    (h flow group hgroup payload).mono (List.subset_append_left _ _)
  refine ⟨hmore.changes hchanges fun e he flow d hd => ?_, fun s hs => ?_⟩
  · rw [accepts_offered hevents e he flow d hd]
    exact List.mem_append_right _ List.mem_cons_self
  · have htime := popTime_of_pops q op (by rw [hs]; rfl)
    generalize (q.step op).1 = reply at hevents hs
    cases hevents with
    | popped hop hdrops hchoice hgroup hpayload =>
      obtain rfl := Option.some.inj hs
      exact h _ _ (expire_live hgroup).1 _
    | enqueue | missed | cleared => cases hs
    | limited hdrops => cases htime
    | quiet hop hes =>
      rw [QueueOp.popTime_of_quiet (.inl hop)] at htime
      cases htime

end RealtimeSendQueue

/-- Related lists stay related when elements of the first are left out. -/
theorem sublistForall₂_of_sublist {α β : Type*} {R : α → β → Prop} {l l' : List α} {m n : List β}
    (hl : l'.Sublist l) (h : List.Forall₂ R l m) (hm : m.Sublist n) :
    List.SublistForall₂ R l' n := by
  have hpart : ∃ m', List.Forall₂ R l' m' ∧ m'.Sublist m := by
    induction hl generalizing m n with
    | slnil => exact ⟨[], .nil, List.nil_sublist _⟩
    | cons a _ ih =>
      cases h with
      | cons hab hrest =>
        obtain ⟨m', hm', hsub⟩ := ih hrest (List.Sublist.refl _)
        exact ⟨m', hm', hsub.cons _⟩
    | cons_cons a _ ih =>
      cases h with
      | cons hab hrest =>
        obtain ⟨m', hm', hsub⟩ := ih hrest (List.Sublist.refl _)
        exact ⟨_, .cons hab hm', hsub.cons_cons _⟩
  obtain ⟨m', hm', hsub⟩ := hpart
  exact List.sublistForall₂_iff.mpr ⟨m', hm', hsub.trans hm⟩

theorem acceptedIn_sublist (flow : RealtimeFlowId) (hist : QueueHistory) :
    ((acceptedIn flow hist).map Prod.snd).Sublist
      (((hist.map Event.input).filterMap QueueOp.offers).filter fun d => d.flow = flow) := by
  induction hist using List.reverseRecOn with
  | nil => exact List.nil_sublist _
  | append_singleton hist e ih =>
    rw [acceptedIn_concat, List.map_append, List.map_append, List.filterMap_append,
      List.filter_append]
    refine ih.append ?_
    unfold acceptedBy
    split
    · next d now hinput hreply =>
      by_cases hf : d.flow = flow <;> simp [hf, hinput, QueueOp.offers]
    · next d now hinput hreply =>
      by_cases hf : d.flow = flow <;> simp [hf, hinput, QueueOp.offers]
    · exact List.nil_sublist _

/-- Only the pops answer with a datagram. -/
theorem poppedIn_eq (flow : RealtimeFlowId) (hist : QueueHistory)
    (hpops : ∀ e ∈ hist, e.reply.pops.isSome = true → e.input.popTime.isSome = true) :
    (poppedIn flow hist).map (fun p => p.2.2) =
      (hist.filterMap fun e => e.reply.pops).filter fun d => d.flow = flow := by
  induction hist using List.reverseRecOn with
  | nil => rfl
  | append_singleton hist e ih =>
    rw [poppedIn_concat, List.map_append, List.filterMap_append, List.filter_append,
      ih fun e he => hpops e (List.mem_append_left _ he)]
    refine (List.append_right_inj _).mpr ?_
    have htime := hpops e (List.mem_append_right _ (List.mem_singleton_self e))
    unfold poppedBy
    split
    · next d hreply =>
      rw [hreply] at htime
      obtain ⟨now, hnow⟩ := Option.isSome_iff_exists.mp (htime rfl)
      by_cases hf : d.flow = flow <;> simp [hf, hreply, hnow, QueueReply.pops]
    · next hreply =>
      have hnone : e.reply.pops = none := by
        cases he : e.reply with
        | popped o =>
          cases o with
          | none => rfl
          | some d => exact absurd he (hreply d)
        | _ => rfl
      simp [hnone]

/-- What was noted as sent is, flow by flow, part of what was offered, in the same order. -/
theorem QueueMoves.in_order {config : RealtimeQueueConfig} {maxPayload : ℕ}
    {q q' : RealtimeSendQueue} (h : RealtimeSendQueue.new config maxPayload = .ok q)
    {offered : List RealtimeDatagram} {sent : List QueuedRealtimeDatagram}
    (hmoves : QueueMoves q offered sent q') (flow : RealtimeFlowId) :
    List.SublistForall₂ HandedAs (sent.filter fun d => d.flow = flow)
      (offered.filter fun d => d.flow = flow) := by
  obtain ⟨ops, -, rfl, -, hpopped⟩ := hmoves
  obtain ⟨delivered, dropped, waiting, hsettled, hserved, -⟩ := (queueSafe_run h flow ops).ledger
  have haccepted := acceptedIn_sublist flow (trace RealtimeSendQueue.step q ops)
  rw [map_input_trace] at haccepted
  have hpops := poppedIn_eq flow (trace RealtimeSendQueue.step q ops) fun e he => by
    rw [(bounded_of_mem_trace h ops e he).2]
    exact popTime_of_pops _ _
  -- The popped datagrams of the flow are delivered ones, and these were accepted.
  have hdelivered : (delivered.map Prod.snd).Sublist
      ((ops.filterMap QueueOp.offers).filter fun d => d.flow = flow) :=
    (((List.sublist_append_left _ _).trans hsettled.sublist).map Prod.snd).trans haccepted
  have hsame : List.Forall₂ HandedAs
      ((poppedIn flow (trace RealtimeSendQueue.step q ops)).map fun p => p.2.2)
      (delivered.map Prod.snd) := by
    rw [List.forall₂_map_left_iff, List.forall₂_map_right_iff]
    exact hserved.flip.imp fun p x hx =>
      ⟨⟨hx.flow.symm, hx.generation.symm, hx.sequence.symm, hx.payload.symm⟩, hx.deadline,
        hx.priority⟩
  rw [hpops] at hsame
  exact sublistForall₂_of_sublist (hpopped.filter _) hsame hdelivered

/-- What was noted as sent has its deadline and its priority from what was offered. -/
theorem QueueMoves.mated {config : RealtimeQueueConfig} {maxPayload : ℕ}
    {q q' : RealtimeSendQueue} (h : RealtimeSendQueue.new config maxPayload = .ok q)
    {offered : List RealtimeDatagram} {sent : List QueuedRealtimeDatagram}
    (hmoves : QueueMoves q offered sent q') : ∀ s ∈ sent, Mated offered s := by
  obtain ⟨ops, -, rfl, -, hpopped⟩ := hmoves
  have hnone : RealtimeSendQueue.MatedGroups [] q := fun flow group hgroup => by
    rw [(RealtimeSendQueue.new_spec h).1, ExtTreeMap.getElem?_empty] at hgroup
    cases hgroup
  have hall : RealtimeSendQueue.MatedGroups (ops.filterMap QueueOp.offers)
      (run RealtimeSendQueue.step q ops) ∧
      ∀ s ∈ (trace RealtimeSendQueue.step q ops).filterMap fun e => e.reply.pops,
        Mated (ops.filterMap QueueOp.offers) s := by
    clear hpopped
    induction ops using List.reverseRecOn with
    | nil => exact ⟨hnone, by simp⟩
    | append_singleton ops op ih =>
      obtain ⟨hgroups, hpops⟩ := ih
      have hbounded := (queueSafe_run h ⟨0⟩ ops).bounded
      obtain ⟨hgroups', hpops'⟩ := hgroups.step hbounded op
      have hoffers : (ops ++ [op]).filterMap QueueOp.offers =
          ops.filterMap QueueOp.offers ++ op.offers.toList := by
        rw [List.filterMap_append]
        cases hop : op.offers <;> simp [hop]
      rw [run_concat, hoffers]
      refine ⟨hgroups', fun s hs => ?_⟩
      refine Mated.mono ?_ (List.subset_append_left _ _)
      rw [trace_append, List.filterMap_append] at hs
      rcases List.mem_append.mp hs with hs | hs
      · exact hpops s hs
      · have hlast : ((run RealtimeSendQueue.step q ops).step op).1.pops = some s := by
          simpa [event] using hs
        exact hpops' s hlast
  exact fun s hs => hall.2 s (hpopped.subset hs)

/-! ### Runs of a connection -/

namespace QuicConnection

section Run
variable {options : QuicOptions} {path₀ : QuicPath} {c₀ : QuicConnection}

theorem make_spec (h : make options path₀ = .ok c₀) :
    ∃ maxPayload, RealtimeSendQueue.new options.realtimeQueue maxPayload = .ok c₀.realtimeSend ∧
      c₀.handed = [] ∧ c₀.realtimeEvents = [] ∧
      c₀.maxDatagramBytes = options.budget.maxFrameBytes ∧
      c₀.datagramReceive = .new options.budget.receiveQueueCapacity := by
  unfold make at h
  dsimp only at h
  split at h
  · cases h
  · next q hnew =>
    obtain rfl := Except.ok.inj h
    exact ⟨_, hnew, rfl, rfl, rfl, rfl⟩

/-- A run of the connection is a run of its queue. -/
theorem run_advances (h : make options path₀ = .ok c₀) (calls : List DatagramCall) :
    ∃ offered ds, offered.Sublist (calls.filterMap DatagramCall.datagram) ∧
      c₀.Advances offered ds (run step c₀ calls) := by
  obtain ⟨maxPayload, hnew, -⟩ := make_spec h
  have hq₀ := RealtimeSendQueue.bounded_new hnew
  have hs₀ : c₀.realtimeSend.Short := RealtimeSendQueue.carries_new hnew
  induction calls using List.reverseRecOn with
  | nil => exact ⟨[], [], List.Sublist.refl _, .refl c₀⟩
  | append_singleton calls call ih =>
    obtain ⟨offered, ds, hoffered, hadvances⟩ := ih
    obtain ⟨offered', ds', hoffered', hadvances'⟩ := (run step c₀ calls).step_advances call
      (hadvances.moves.bounded hq₀) (hadvances.moves.short hq₀ hs₀)
    rw [run_concat, List.filterMap_append]
    refine ⟨_, _, hoffered.append ?_, hadvances.trans hadvances'⟩
    cases hcall : call.datagram <;> simpa [hcall] using hoffered'

theorem run_bounded (h : make options path₀ = .ok c₀) (calls : List DatagramCall) :
    (run step c₀ calls).realtimeSend.Bounded ∧ (run step c₀ calls).realtimeSend.Short := by
  obtain ⟨maxPayload, hnew, -⟩ := make_spec h
  obtain ⟨offered, ds, -, hadvances⟩ := run_advances h calls
  have hq₀ := RealtimeSendQueue.bounded_new hnew
  exact ⟨hadvances.moves.bounded hq₀,
    hadvances.moves.short hq₀ (RealtimeSendQueue.carries_new hnew)⟩

/-- What one poll does to a connection: the datagrams that the endpoint takes are the front of what
waits in their flows, the more urgent classes first, each encoded, with time left, and short enough
for the path and for the free space that the endpoint told in its round. A poll that stops early has
no front of the best class left that fits into the free space told last. -/
structure HandsOver (c : QuicConnection) (path : QuicPath) (now maxFrameBytes : ℕ)
    (ds : List (QueuedRealtimeDatagram × Bytes)) : Prop where
  handed : (c.pollRealtime path now).2.handed = c.handed ++ ds.map Prod.snd
  few : ds.length ≤ 64
  front : ∀ flow : RealtimeFlowId,
    (ds.map Prod.fst).filter (fun d => d.flow = flow) <+: c.realtimeSend.waiting flow
  urgent : (ds.map Prod.fst).Pairwise fun d d' => d.priority.rank ≤ d'.priority.rank
  well : ∀ i x, ds[i]? = some x →
    x.2.length ≤ min (path.maxDatagramSize.getD 0) maxFrameBytes ∧
      ∃ k ≤ 1, HandedWell path now (c.currentRealtimePayloadLimit path) (i+k) x
  ok : ∀ n, (c.pollRealtime path now).1 = .ok n → n = ds.length ∧ (n < 64 →
    ∃ k ≤ 1, PollRounds.Exhausted path now (n+k) (c.pollRealtime path now).2.realtimeSend)
  error : ∀ e, (c.pollRealtime path now).1 = .error e →
    (¬c.Open path ∧ e = unsupportedDatagram) ∨
      ∃ k ≤ 1, ∃ err, path.sendDatagram (ds.length+k) = some err ∧ e = mapDatagramError err

/-- At any point of a run a poll hands over what fits, from the front of its flows. -/
theorem poll_hands_over_what_fits (h : make options path₀ = .ok c₀) (calls : List DatagramCall)
    (path : QuicPath) (now : ℕ) :
    ∃ ds, (run step c₀ calls).HandsOver path now options.budget.maxFrameBytes ds := by
  obtain ⟨hq, hs⟩ := run_bounded h calls
  have hbytes : (run step c₀ calls).maxDatagramBytes = options.budget.maxFrameBytes := by
    obtain ⟨-, -, -, -, hmax, -⟩ := make_spec h
    obtain ⟨offered, ds, -, hadvances⟩ := run_advances h calls
    exact hadvances.bytes.trans hmax
  generalize run step c₀ calls = c at hq hs hbytes
  obtain ⟨ds, hpolled⟩ := c.pollRealtime_polled path now hq hs
  refine ⟨ds, hpolled.handed, hpolled.few, hpolled.front, hpolled.urgent, fun i x hx => ?_,
    hpolled.ok, hpolled.error⟩
  obtain ⟨k, hk, hwell⟩ := hpolled.well i x hx
  refine ⟨?_, k, hk, hwell⟩
  have hopen : c.Open path := by
    by_contra hclosed
    have hnothing := hpolled.handed
    rw [hpolled.closed hclosed, List.self_eq_append_right, List.map_eq_nil_iff] at hnothing
    rw [hnothing] at hx
    cases hx
  -- The header fits on top of a payload within the limit.
  have hshort := hwell.short
  have hpositive := hopen.2
  have hlen : x.2.length = realtimeDatagramHeaderLen+x.1.payload.length := by
    have hwireLen := (encode_length x.1 x.2.length).mpr ⟨_, hwell.encoded, rfl⟩
    unfold wireLen at hwireLen
    split at hwireLen
    · exact (Option.some.inj hwireLen).symm
    · cases hwireLen
  unfold currentRealtimePayloadLimit currentRawDatagramLimit at hshort hpositive
  rw [hbytes] at hshort hpositive
  omega

/-- Over a whole run the datagrams that the endpoint has taken are encodings of offered ones, each
with the priority of its group. Flow by flow they come in the order of the offers, each at most
once, and the telemetry counts them and their payload bytes. -/
theorem handed_datagrams_were_offered (h : make options path₀ = .ok c₀)
    (calls : List DatagramCall) :
    ∃ sent : List QueuedRealtimeDatagram,
      List.Forall₂ (fun d wire => encodeRealtimeDatagram d = .ok wire) sent
        (run step c₀ calls).handed ∧
      (∀ flow : RealtimeFlowId, List.SublistForall₂ HandedAs
        (sent.filter fun d => d.flow = flow)
        ((calls.filterMap DatagramCall.datagram).filter fun d => d.flow = flow)) ∧
      (∀ s ∈ sent, Mated (calls.filterMap DatagramCall.datagram) s) ∧
      (run step c₀ calls).realtimeSend.telemetry.sent = min sent.length (2^64-1) ∧
      (run step c₀ calls).realtimeSend.telemetry.sentBytes =
        min (sent.map fun d => d.payload.length).sum (2^64-1) := by
  obtain ⟨maxPayload, hnew, hnone, -⟩ := make_spec h
  obtain ⟨offered, ds, hoffered, hadvances⟩ := run_advances h calls
  refine ⟨ds.map Prod.fst, ?_, fun flow => ?_, fun s hs => ?_, ?_⟩
  · rw [hadvances.handed, hnone, List.nil_append, List.forall₂_map_left_iff,
      List.forall₂_map_right_iff]
    exact List.forall₂_same.mpr hadvances.encoded
  · have horder := hadvances.moves.in_order hnew flow
    rw [List.sublistForall₂_iff] at horder ⊢
    obtain ⟨part, hpart, hsub⟩ := horder
    exact ⟨part, hpart, hsub.trans (hoffered.filter _)⟩
  · exact (hadvances.moves.mated hnew s hs).mono hoffered.subset
  · have hzero : c₀.realtimeSend.sentTotals = (0, 0) := by
      unfold RealtimeSendQueue.new at hnew
      split at hnew
      · cases hnew
      · rw [← Except.ok.inj hnew]
        rfl
    obtain ⟨ops, hrun, -, hsent, -⟩ := hadvances.moves
    have htotals := RealtimeSendQueue.run_sent hzero ops
    rw [hrun, hsent] at htotals
    exact ⟨congrArg Prod.fst htotals, congrArg Prod.snd htotals⟩

end Run

end QuicConnection

namespace Sample

/-- A path whose send buffer takes this many bytes, each time it is asked. -/
def quicPath (space : ℕ) : QuicPath where
  maxDatagramSize := some 1200
  remoteAddress := ⟨[127, 0, 0, 1], 9000⟩
  rttMicros := 25000
  cwnd := 12000
  congestionEvents := 0
  bufferSpace := fun _ => space
  sendDatagram := fun _ => none

def quicQueue : RealtimeSendQueue :=
  { config := ⟨2, 8, 64⟩, maxPayload := 1180, groups := ∅, nextInsertionOrder := 0
    transportCongestionEvents := 0
    telemetry := { currentDatagramPayload := some 1180, maxDatagramPayload := 1180 } }

def quicConnection : QuicConnection where
  datagramsEnabled := true
  maxDatagramBytes := 1024*1024
  realtimeSend := quicQueue
  datagramReceive := .new 128
  readerFinished := false
  realtimeEvents := []
  lastRemoteAddress := ⟨[127, 0, 0, 1], 9000⟩
  handed := []
  handedRaw := []

theorem quicConnection_make :
    QuicConnection.make { realtimeQueue := ⟨2, 8, 64⟩ } (quicPath 0) = .ok quicConnection := rfl

def quicDatagram : RealtimeDatagram := ⟨⟨1⟩, 0, 1, 50, .normal, [1, 2, 3]⟩

/-- Two datagrams of one group, the second more urgent, and one of another flow. They are sent while
the buffer is full. -/
def waitingCalls : List DatagramCall :=
  [.trySendLatest ⟨⟨2⟩, 0, 1, 50, .normal, [9]⟩ (quicPath 0) (quicPath 0) 1,
    .trySendLatest quicDatagram (quicPath 0) (quicPath 0) 1,
    .trySendLatest { quicDatagram with priority := .critical, deadline := 40, payload := [4] }
      (quicPath 0) (quicPath 0) 1]

/-- They are polled when the buffer has room again. -/
def quicCalls : List DatagramCall := waitingCalls ++ [.pollRealtime (quicPath 4096) 2]

end Sample

namespace QuicConnection
open Sample

theorem sample_poll_hands_over : ∃ ds : List (QueuedRealtimeDatagram × Bytes),
    (run step quicConnection waitingCalls).HandsOver (quicPath 4096) 2 (1024*1024) ds ∧
      ds.map (fun x => x.2.length) = [23, 21, 21] := by
  obtain ⟨ds, hds⟩ := poll_hands_over_what_fits quicConnection_make waitingCalls (quicPath 4096) 2
  refine ⟨ds, hds, ?_⟩
  have hbefore : (run step quicConnection waitingCalls).handed = [] := by decide +kernel
  have hafter : ((run step quicConnection waitingCalls).pollRealtime (quicPath 4096) 2).2.handed.map
      List.length = [23, 21, 21] := by decide +kernel
  rwa [hds.handed, hbefore, List.nil_append, List.map_map] at hafter

/-- The most urgent class alone decides: its front is too long for 22 bytes, so nothing is handed
over, though the other flow has a front of 21. -/
example : ((run step quicConnection waitingCalls).pollRealtime (quicPath 22) 2).1 = .ok 0 := by
  decide +kernel

theorem sample_was_offered : ∃ sent : List QueuedRealtimeDatagram,
    List.Forall₂ (fun d wire => encodeRealtimeDatagram d = .ok wire) sent
      (run step quicConnection quicCalls).handed ∧
    (∀ flow : RealtimeFlowId, List.SublistForall₂ HandedAs
      (sent.filter fun d => d.flow = flow)
      ((quicCalls.filterMap DatagramCall.datagram).filter fun d => d.flow = flow)) ∧
    (∀ s ∈ sent, Mated (quicCalls.filterMap DatagramCall.datagram) s) ∧ sent.length = 3 := by
  obtain ⟨sent, hencoded, horder, hmated, -⟩ := handed_datagrams_were_offered quicConnection_make
    quicCalls
  have hthree : (run step quicConnection quicCalls).handed.length = 3 := by decide +kernel
  exact ⟨sent, hencoded, horder, hmated, hencoded.length_eq.trans hthree⟩

/-- The first datagram of the group was offered as normal, and leaves as critical. -/
example : (run step quicConnection quicCalls).realtimeSend.telemetry.sentBytes = 5 ∧
    (run step quicConnection quicCalls).handed.map (fun wire =>
      (decodeRealtimeDatagram wire 3).toOption.map fun r => (r.priority, r.payload)) =
      [some (.critical, [1, 2, 3]), some (.critical, [4]), some (.normal, [9])] := by
  decide +kernel

end QuicConnection
end MutsukiLink
