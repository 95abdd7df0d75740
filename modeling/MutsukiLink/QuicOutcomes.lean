import MutsukiLink.QuicHandover

/-! The answers of `try_send_latest`: an accepted datagram has been handed over or waits at the end
of its group, and one that is reported as dropped has left nothing behind. -/
namespace MutsukiLink
open Std WireBytes RunHistory

namespace RealtimeSendQueue

/-- What the telemetry says was lost to congestion in a flow. -/
abbrev drops (q : RealtimeSendQueue) (flow : RealtimeFlowId) : ℕ :=
  q.count .congestionDropped (some flow)

theorem congestionDroppedForFlow_eq (q : RealtimeSendQueue) (flow : RealtimeFlowId) :
    q.congestionDroppedForFlow flow = q.drops flow := by
  show (q.telemetry.flows[flow]?.map RealtimeFlowTelemetry.congestionDropped).getD 0 =
    QueueCounter.congestionDropped.ofFlow (q.telemetry.flows[flow]?.getD {})
  cases q.telemetry.flows[flow]? <;> rfl

/-- No counter is above its maximum. -/
def Counted (q : RealtimeSendQueue) : Prop :=
  ∀ (c : QueueCounter) (scope : FlowScope), q.count c scope ≤ counterMax

theorem Counted.drops_le {q : RealtimeSendQueue} (h : q.Counted) (flow : RealtimeFlowId) :
    q.drops flow ≤ counterMax := h .congestionDropped (some flow)

/-- The datagram stands at the end of the group of its flow, which has time left. -/
structure Awaits (d : RealtimeDatagram) (now : ℕ) (q : RealtimeSendQueue) (group : PendingGroup) :
    Prop where
  lookup : q.groups[d.flow]? = some group
  generation : group.generation = d.generation
  sequence : group.sequence = d.sequence
  last : group.datagrams.getLast? = some d.payload
  alive : now < group.deadline

end RealtimeSendQueue

theorem QueueChanges.counted {q q' : RealtimeSendQueue} {es : List QueueEvent}
    (h : QueueChanges q es q') (hq : q.Counted) : q'.Counted := by
  intro c scope
  have hcount := h.count_min (Nat.min_eq_left (hq c scope)).symm
  omega

/-- The counter of what a flow has lost grows by what the events note, up to its maximum. -/
theorem QueueChanges.drops_eq {q q' : RealtimeSendQueue} {es : List QueueEvent}
    (h : QueueChanges q es q') (hq : q.Counted) (flow : RealtimeFlowId) :
    q'.drops flow = min (q.drops flow+
      tally (QueueEvent.amount (some flow) .congestionDropped) es) RealtimeSendQueue.counterMax :=
  h.count_min (Nat.min_eq_left (hq .congestionDropped (some flow))).symm

theorem QueueChanges.only {q q' : RealtimeSendQueue} {e : QueueEvent}
    (h : QueueChanges q [e] q') : QueueChange q e q' := by
  cases h with
  | cons hfirst hrest =>
    cases hrest
    exact hfirst

/-! ### Queues that nothing is offered to -/

/-- An event of a call that offers a datagram. -/
def QueueEvent.offering : QueueEvent → Bool
  | .refused .. | .overflowed .. | .appended .. | .started _ => true
  | _ => false

/-- What a queue that is offered nothing does to a flow: losses only add up, a loss leaves the flow
without a group, and a group that is there was there before. -/
structure Ebbs (flow : RealtimeFlowId) (q q' : RealtimeSendQueue) : Prop where
  le : q.drops flow ≤ q'.drops flow
  lost : q.drops flow < q'.drops flow → q'.groups[flow]? = none
  origin : ∀ new : PendingGroup, q'.groups[flow]? = some new →
    ∃ old, q.groups[flow]? = some old ∧ SameKey old new

theorem Ebbs.refl (flow : RealtimeFlowId) (q : RealtimeSendQueue) : Ebbs flow q q :=
  ⟨le_rfl, fun h => absurd h (lt_irrefl _), fun new hnew => ⟨new, hnew, rfl, rfl⟩⟩

theorem Ebbs.trans {flow : RealtimeFlowId} {q q' q'' : RealtimeSendQueue} (h : Ebbs flow q q')
    (h' : Ebbs flow q' q'') : Ebbs flow q q'' where
  le := h.le.trans h'.le
  lost := by
    intro hless
    by_cases hsecond : q'.drops flow < q''.drops flow
    · exact h'.lost hsecond
    · -- The loss came first, and no group has appeared since.
      have hnone := h.lost (hless.trans_le (Nat.not_lt.mp hsecond))
      rw [Option.eq_none_iff_forall_ne_some]
      intro new hnew
      obtain ⟨old, hold, -⟩ := h'.origin new hnew
      rw [hnone] at hold
      cases hold
  origin := by
    intro new hnew
    obtain ⟨middle, hmiddle, hkey'⟩ := h'.origin new hnew
    obtain ⟨old, hold, hkey⟩ := h.origin middle hmiddle
    exact ⟨old, hold, hkey.1.trans hkey'.1, hkey.2.trans hkey'.2⟩

theorem QueueChange.ebbs {q q' : RealtimeSendQueue} {e : QueueEvent} (h : QueueChange q e q')
    (hq : q.Counted) (he : e.offering = false) (flow : RealtimeFlowId) : Ebbs flow q q' := by
  have hcount := (QueueChanges.single h).drops_eq hq flow
  rw [tally, List.map_singleton, List.sum_singleton] at hcount
  have hmax := hq.drops_le flow
  refine ⟨by omega, fun hless => ?_, fun new hnew => ?_⟩
  · -- Only a group dropped for congestion adds to the counter.
    have hamount : 0 < e.amount (some flow) .congestionDropped := by
      omega
    cases h with
    | @dropped flow' group reason hgroup =>
      simp only [QueueEvent.amount, QueueEvent.noted?, FlowScope.covers, Option.all_some,
        beq_iff_eq] at hamount
      split at hamount
      · next hflow =>
        rw [RealtimeSendQueue.noteDropped_groups, OrderedMap.lookup_erase, if_pos hflow.1.symm]
      · exact absurd hamount (lt_irrefl 0)
    | refused | overflowed | appended | started => cases he
    | popped | cleared | sent | limited | noted => simp [QueueEvent.amount] at hamount
  · rcases h.origin hnew with hold | ⟨d, rfl, -⟩
    · exact hold
    · cases he

theorem QueueChanges.ebbs {q q' : RealtimeSendQueue} {es : List QueueEvent}
    (h : QueueChanges q es q') (hq : q.Counted) (hes : ∀ e ∈ es, e.offering = false)
    (flow : RealtimeFlowId) : Ebbs flow q q' := by
  induction h with
  | nil => exact .refl flow _
  | cons hfirst hrest ih =>
    obtain ⟨he, hes⟩ := List.forall_mem_cons.mp hes
    exact (hfirst.ebbs hq he flow).trans (ih ((QueueChanges.single hfirst).counted hq) hes)

theorem OpEvents.not_offering {q : RealtimeSendQueue} {op : QueueOp} {reply : QueueReply}
    {es : List QueueEvent} (h : OpEvents q op reply es) (hop : op.offers = none) :
    ∀ e ∈ es, e.offering = false := by
  have hquiet {fs : List QueueEvent} (hfs : ∀ e ∈ fs, e.quiet = true) :
      ∀ e ∈ fs, e.offering = false := by
    intro e he
    have hq := hfs e he
    cases e <;> first | rfl | cases hq
  cases h with
  | enqueue => cases hop
  | missed hpop hdrops => exact hquiet hdrops
  | popped hpop hdrops =>
    exact List.forall_mem_append.mpr ⟨hquiet hdrops, by simp [QueueEvent.offering]⟩
  | cleared => simp [QueueEvent.offering]
  | limited hdrops => exact List.forall_mem_cons.mpr ⟨rfl, hquiet hdrops⟩
  | quiet hop hes => exact hquiet hes

theorem QueueMoves.counted {q q' : RealtimeSendQueue} {offered : List RealtimeDatagram}
    {sent : List QueuedRealtimeDatagram} (h : QueueMoves q offered sent q') (hq : q.Bounded)
    (hc : q.Counted) : q'.Counted :=
  (h.keep (I := fun q => q.Bounded ∧ q.Counted) (fun q op hq => by
    obtain ⟨es, -, hchanges⟩ := RealtimeSendQueue.step_events hq.1 op
    exact ⟨hq.1.step op, hchanges.counted hq.2⟩) ⟨hq, hc⟩).2

theorem QueueMoves.ebbs {q q' : RealtimeSendQueue} {sent : List QueuedRealtimeDatagram}
    (h : QueueMoves q [] sent q') (hq : q.Bounded) (hc : q.Counted) (flow : RealtimeFlowId) :
    Ebbs flow q q' := by
  obtain ⟨ops, rfl, hoffers, -⟩ := h
  induction ops generalizing q with
  | nil => exact .refl flow q
  | cons op ops ih =>
    obtain ⟨es, hevents, hchanges⟩ := RealtimeSendQueue.step_events hq op
    have hop := List.filterMap_eq_nil_iff.mp hoffers op List.mem_cons_self
    refine (hchanges.ebbs hc (hevents.not_offering hop) flow).trans ?_
    exact ih (hq.step op) (hchanges.counted hc) (by simpa [hop] using hoffers)

/-! ### The datagram that waits -/

namespace RealtimeSendQueue
variable {q q' : RealtimeSendQueue} {d : RealtimeDatagram} {now : ℕ} {group : PendingGroup}

theorem Awaits.congr (h : q.Awaits d now group) (hgroups : q'.groups = q.groups) :
    q'.Awaits d now group :=
  ⟨hgroups ▸ h.lookup, h.generation, h.sequence, h.last, h.alive⟩

theorem expire_drops (hc : q.Counted) (now : ℕ) (flow : RealtimeFlowId) :
    (q.expire now).2.drops flow = q.drops flow := by
  obtain ⟨es, hes, hall⟩ := expire_changes q now
  have hcount := hes.drops_eq hc flow
  have hzero : tally (QueueEvent.amount (some flow) .congestionDropped) es = 0 :=
    tally_zero fun e he => by
      obtain ⟨f, g, rfl⟩ := hall e he
      simp [QueueEvent.amount, DropReason.counter]
  have hmax := hc.drops_le flow
  omega

theorem Awaits.expire (h : q.Awaits d now group) : (q.expire now).2.Awaits d now group where
  lookup := by
    rw [expire_lookup, h.lookup, Option.filter_some, decide_eq_true h.alive]
    rfl
  generation := h.generation
  sequence := h.sequence
  last := h.last
  alive := h.alive

/-- A pop takes the datagram or leaves it at the end of its group. -/
theorem Awaits.pop (h : q.Awaits d now group) {maxWireLen : ℕ}
    {o : Option QueuedRealtimeDatagram} (hpop : q.popNextFitting now maxWireLen = (o, q')) :
    (∃ x, o = some x ∧ SameDatagram x d) ∨ ∃ group', q'.Awaits d now group' := by
  have hexpired := h.expire
  rw [popNextFitting_eq] at hpop
  generalize (q.expire now).2 = q₁ at hexpired hpop
  cases hflow : q₁.nextFittingFlow maxWireLen with
  | none =>
    rw [hflow] at hpop
    obtain rfl : q₁ = q' := congrArg Prod.snd hpop
    exact .inr ⟨group, hexpired⟩
  | some flow =>
    rw [hflow, Option.elim_some] at hpop
    obtain ⟨front, hfront⟩ := nextFittingFlow_mem hflow
    unfold popFlow at hpop
    rw [hfront] at hpop
    cases hpayload : front.datagrams with
    | nil =>
      simp only [hpayload] at hpop
      obtain rfl : q₁ = q' := congrArg Prod.snd hpop
      exact .inr ⟨group, hexpired⟩
    | cons payload rest =>
      simp only [hpayload] at hpop
      obtain rfl := congrArg Prod.fst hpop
      obtain rfl := congrArg Prod.snd hpop
      by_cases hother : flow = d.flow
      · subst hother
        obtain rfl := Option.some.inj (hfront.symm.trans hexpired.lookup)
        have hlast := hexpired.last
        by_cases hrest : rest = []
        · rw [hpayload, hrest] at hlast
          exact .inl ⟨_, rfl, rfl, hexpired.generation, hexpired.sequence,
            Option.some.inj hlast⟩
        · -- The front goes, and the end of the group stays.
          refine .inr ⟨{ front with datagrams := rest }, ?_, hexpired.generation,
            hexpired.sequence, ?_, hexpired.alive⟩
          · simp only [if_neg hrest, OrderedMap.lookup_insert, if_true]
          · rw [hpayload, List.getLast?_cons_of_ne_nil hrest] at hlast
            exact hlast
      · refine .inr ⟨group, ?_, hexpired.generation, hexpired.sequence, hexpired.last,
          hexpired.alive⟩
        dsimp only
        split
        · rw [OrderedMap.lookup_erase, if_neg hother, hexpired.lookup]
        · rw [OrderedMap.lookup_insert, if_neg hother, hexpired.lookup]

/-- Dropping groups for congestion spares the group of the datagram, or the counter of the flow
tells, unless it is at its maximum. -/
theorem Awaits.drop (h : q.Awaits d now group) (hc : q.Counted) (test : PendingGroup → Bool) :
    (q.dropFlowGroups (q.flowsWhere test) .congested).2.Awaits d now group ∨
      q.drops d.flow < (q.dropFlowGroups (q.flowsWhere test) .congested).2.drops d.flow ∨
      (q.dropFlowGroups (q.flowsWhere test) .congested).2.drops d.flow = counterMax := by
  have hlookup := dropWhere_lookup q test .congested d.flow
  rw [h.lookup, Option.filter_some] at hlookup
  cases htest : test group with
  | false =>
    rw [htest] at hlookup
    exact .inl ⟨hlookup, h.generation, h.sequence, h.last, h.alive⟩
  | true =>
    rw [htest] at hlookup
    obtain ⟨es, hes, hall⟩ := dropFlowGroups_changes q (q.flowsWhere test) .congested
    have hcount := hes.drops_eq hc d.flow
    have hconserves := hes.conserves (some d.flow)
    -- All that left the flow is in this one counter.
    have hzero (f : QueueEvent → ℕ) (hf : ∀ flow group, f (.dropped flow group .congested) = 0) :
        tally f es = 0 := tally_zero fun e he => by
      obtain ⟨flow, group, rfl⟩ := hall e he
      exact hf flow group
    rw [tally_lost, hzero (QueueEvent.offered _) fun _ _ => rfl,
      hzero (QueueEvent.taken _) fun _ _ => rfl, hzero (QueueEvent.removed _) fun _ _ => rfl,
      hzero (QueueEvent.amount _ .replaced) fun _ _ => by simp [DropReason.counter],
      hzero (QueueEvent.amount _ .expired) fun _ _ => by simp [DropReason.counter]] at hconserves
    have hbefore : 0 < pendingIn q.groups (some d.flow) := by
      rw [pendingIn_flow h.lookup, List.length_pos_iff]
      intro hnil
      have hlast := h.last
      rw [hnil] at hlast
      cases hlast
    have hafter : pendingIn (q.dropFlowGroups (q.flowsWhere test) .congested).2.groups
        (some d.flow) = 0 := by
      simp only [pendingIn, hlookup]
      rfl
    right
    omega

theorem noteSent_drops (q : RealtimeSendQueue) (x : QueuedRealtimeDatagram)
    (flow : RealtimeFlowId) : (q.noteSent x).drops flow = q.drops flow := by
  obtain ⟨total, stats, he, hacts⟩ := noteSent_eq q x
  rw [he, drops, count_note hacts, ite_self]

end RealtimeSendQueue

/-- The datagram still waits in `q'`, or the counter of its flow has grown since `q`, or it cannot
grow any more. -/
def AwaitsOrLost (d : RealtimeDatagram) (now : ℕ) (q q' : RealtimeSendQueue) : Prop :=
  (∃ group, q'.Awaits d now group) ∨ q.drops d.flow < q'.drops d.flow ∨
    q'.drops d.flow = RealtimeSendQueue.counterMax

namespace RealtimeSendQueue
variable {q q' q'' : RealtimeSendQueue} {d : RealtimeDatagram} {now : ℕ} {group : PendingGroup}

/-- What came before a queue that is offered nothing does not matter once the counter has grown. -/
theorem awaits_of_lost (hebbs : Ebbs d.flow q' q'') (hc : q''.Counted)
    (h : q.drops d.flow < q'.drops d.flow ∨ q'.drops d.flow = counterMax) :
    AwaitsOrLost d now q q'' := by
  have hle := hebbs.le
  have hmax := hc.drops_le d.flow
  unfold AwaitsOrLost drops at *
  omega

/-- The same with other fields of the queue changed before the drop. -/
theorem Awaits.awaitsOrLost (h : q.Awaits d now group) (hc : q.Counted)
    (hgroups : q'.groups = q.groups)
    (hcounters : SameCounters q.telemetry q'.telemetry) (test : PendingGroup → Bool) :
    AwaitsOrLost d now q (q'.dropFlowGroups (q'.flowsWhere test) .congested).2 := by
  have hsame := count_congr hcounters
  have hdrop := (h.congr hgroups).drop (fun c scope => (hsame c scope).le.trans (hc c scope)) test
  rw [drops, hsame] at hdrop
  exact hdrop.imp_left fun hwaits => ⟨group, hwaits⟩

theorem Awaits.refresh (h : q.Awaits d now group) (hc : q.Counted) {op : QueueOp}
    (hop : op.refreshes = true) : AwaitsOrLost d now q (q.step op).2 := by
  cases op with
  | setMaxPayload maxPayload =>
    show AwaitsOrLost d now q (q.setMaxPayload maxPayload).2
    unfold setMaxPayload
    split
    · exact .inl ⟨group, h⟩
    split
    · exact .inl ⟨group, h⟩
    dsimp only
    split
    · refine h.awaitsOrLost hc ?_ ?_ _
      · rfl
      · exact ⟨rfl, rfl, rfl, rfl, rfl⟩
    · exact .inl ⟨group, h.congr rfl⟩
  | noteMigration | noteNetworkMetrics => exact .inl ⟨group, h.congr rfl⟩
  | _ => cases hop

/-- A pop that finds nothing and a drop of the disposable groups. -/
theorem Awaits.relieve (hq : q.Bounded) (hc : q.Counted)
    (hwaits : ∃ group, q.Awaits d now group) {maxWireLen n : ℕ}
    (hpop : q.popNextFitting now maxWireLen = (none, q'))
    (hdrop : q'.noteTransportCongestion.dropDisposableForCongestion = (n, q'')) :
    AwaitsOrLost d now q q'' := by
  obtain ⟨group, hgroup⟩ := hwaits
  have hmoves := QueueMoves.pop hpop
  have hle := (hmoves.ebbs hq hc d.flow).le
  rcases hgroup.pop hpop with ⟨y, hy, -⟩ | ⟨group', hgroup'⟩
  · cases hy
  have hfate := hgroup'.awaitsOrLost (hmoves.counted hq hc)
    (show q'.noteTransportCongestion.groups = _ from rfl) ⟨rfl, rfl, rfl, rfl, rfl⟩
    fun group => group.priority = .disposable
  rw [show (q'.noteTransportCongestion.dropFlowGroups _ _).2 = q'' from congrArg Prod.snd hdrop]
    at hfate
  rcases hfate with hstay | hgrown | hfull
  · exact .inl hstay
  · exact .inr (.inl (hle.trans_lt hgrown))
  · exact .inr (.inr hfull)

end RealtimeSendQueue

/-- Taking over what the path says spares the datagram or tells. -/
theorem RefreshMoves.awaitsOrLost {q q' : RealtimeSendQueue} {d : RealtimeDatagram} {now : ℕ}
    (h : RefreshMoves q q') (hq : q.Bounded) (hc : q.Counted)
    (hwaits : ∃ group, q.Awaits d now group) : AwaitsOrLost d now q q' := by
  obtain ⟨ops, hops, rfl⟩ := h
  induction ops using List.reverseRecOn with
  | nil => exact .inl hwaits
  | append_singleton ops op ih =>
    obtain ⟨hops, hop⟩ := List.forall_mem_append.mp hops
    have hmoves : RefreshMoves q (run RealtimeSendQueue.step q ops) := ⟨ops, hops, rfl⟩
    have hc' := hmoves.moves.counted hq hc
    have hlast := RefreshMoves.single (run RealtimeSendQueue.step q ops) op
      (hop op (List.mem_singleton_self op))
    rw [run_concat]
    have hebbs := hlast.moves.ebbs (hmoves.moves.bounded hq) hc' d.flow
    have hc'' := hlast.moves.counted (hmoves.moves.bounded hq) hc'
    rcases ih hops with ⟨group, hgroup⟩ | hlost
    · have hbefore := (hmoves.moves.ebbs hq hc d.flow).le
      rcases RealtimeSendQueue.Awaits.refresh hgroup hc' (hop op (List.mem_singleton_self op)) with
        hstay | hgrown | hfull
      · exact .inl hstay
      · exact .inr (.inl (hbefore.trans_lt hgrown))
      · exact .inr (.inr hfull)
    · exact RealtimeSendQueue.awaits_of_lost hebbs hc'' hlost

/-- After the rounds of a poll that did not fail, the datagram has been handed over, or it still
waits or was lost. -/
theorem PollRounds.fate {path : QuicPath} {now look sent n : ℕ} {q q' : RealtimeSendQueue}
    {ds : List (QueuedRealtimeDatagram × Bytes)} {r : Except TransportError ℕ}
    (h : PollRounds path now look sent q ds r q') (hr : r = .ok n) (hq : q.Bounded)
    (hc : q.Counted) {d : RealtimeDatagram} (hwaits : ∃ group, q.Awaits d now group) :
    (∃ x ∈ ds, SameDatagram x.1 d) ∨ AwaitsOrLost d now q q' := by
  induction h with
  | full => exact .inr (.inl hwaits)
  | @handed look sent q q' q'' x wire ds r hsent hpop hwire hsend hrest ih =>
    obtain ⟨group, hgroup⟩ := hwaits
    rcases hgroup.pop hpop with ⟨y, hy, hsame⟩ | ⟨group', hgroup'⟩
    · obtain rfl := Option.some.inj hy
      exact .inl ⟨_, List.mem_cons_self, hsame⟩
    · have hmoves := QueueMoves.pop_sent hpop
      have hle := (QueueMoves.pop hpop).ebbs hq hc d.flow
      have hdrops := hle.le.trans_eq (q'.noteSent_drops x d.flow).symm
      rcases ih hr (hmoves.bounded hq) (hmoves.counted hq hc)
        ⟨group', hgroup'.congr rfl⟩ with ⟨y, hy, hsame⟩ | hstay | hgrown | hfull
      · exact .inl ⟨y, List.mem_cons_of_mem _ hy, hsame⟩
      · exact .inr (.inl hstay)
      · exact .inr (.inr (.inl (hdrops.trans_lt hgrown)))
      · exact .inr (.inr (.inr hfull))
  | failed => cases hr
  | @relieved look sent m q q' q'' q₃ ds r hsent hpop hdrop hm hrest ih =>
    have hmoves := (QueueMoves.pop hpop).trans (.relieve hdrop)
    have hc'' := hmoves.counted hq hc
    have hle := (hmoves.ebbs hq hc d.flow).le
    rcases RealtimeSendQueue.Awaits.relieve hq hc hwaits hpop hdrop with hstay | hlost
    · rcases ih hr (hmoves.bounded hq) hc'' hstay with hsent | hstay | hgrown | hfull
      · exact .inl hsent
      · exact .inr (.inl hstay)
      · exact .inr (.inr (.inl (hle.trans_lt hgrown)))
      · exact .inr (.inr (.inr hfull))
    · have hrest' := hrest.moves
      exact .inr (RealtimeSendQueue.awaits_of_lost (hrest'.ebbs (hmoves.bounded hq) hc'' d.flow)
        (hrest'.counted (hmoves.bounded hq) hc'') hlost)
  | @blocked look sent q q' q'' hsent hpop hdrop =>
    exact .inr (RealtimeSendQueue.Awaits.relieve hq hc hwaits hpop hdrop)
  | @drained look sent q q' hsent hpop hpending =>
    obtain ⟨group, hgroup⟩ := hwaits
    rcases hgroup.pop hpop with ⟨y, hy, -⟩ | hstay
    · cases hy
    · exact .inr (.inl hstay)

/-! ### What the answer of the queue says -/

theorem compareGroup_self (g : UInt32) (s : UInt64) : compareGroup g s g s = .same := by
  simp [compareGroup]

/-- The answer of `enqueue` and where it leaves the datagram. -/
structure EnqueueTells (q : RealtimeSendQueue) (d : RealtimeDatagram) (now : ℕ)
    (outcome : SendOutcome) (q' : RealtimeSendQueue) : Prop where
  accepted : outcome = .enqueued ∨ outcome = .replacedOlder → ∃ group, q'.Awaits d now group
  congested : outcome = .droppedCongested → ∀ group : PendingGroup,
    q'.groups[d.flow]? = some group →
      ¬(group.generation = d.generation ∧ group.sequence = d.sequence)
  expired : outcome = .droppedExpired → d.deadline ≤ now
  supported : outcome ≠ .unsupported
  drops_le : q.drops d.flow ≤ q'.drops d.flow
  drops_eq : outcome ≠ .droppedCongested → q'.drops d.flow = q.drops d.flow

namespace RealtimeSendQueue
variable {q q' : RealtimeSendQueue} {d : RealtimeDatagram} {now : ℕ}

theorem awaits_of_started (es : List QueueEvent) (h : QueueChanges q (es ++ [.started d]) q')
    (hlive : now < d.deadline) : ∃ group, q'.Awaits d now group := by
  obtain ⟨q₁, -, hlast⟩ := h.concat
  cases hlast with
  | started hnone hroom =>
    refine ⟨d.group q₁.nextInsertionOrder, ?_, rfl, rfl, rfl, hlive⟩
    show (q₁.groups.insert d.flow _)[d.flow]? = _
    rw [OrderedMap.lookup_insert, if_pos rfl]

theorem awaits_of_appended {group : PendingGroup} (h : QueueChanges q [.appended d group] q')
    (hlive : now < d.deadline) (hgroup : now < group.deadline) :
    ∃ group, q'.Awaits d now group := by
  cases h.only with
  | appended _ hgeneration hsequence hroom hbytes =>
    refine ⟨group.extend d, ?_, hgeneration.symm, hsequence.symm, ?_, lt_min hgroup hlive⟩
    · show (q.groups.insert d.flow _)[d.flow]? = _
      rw [OrderedMap.lookup_insert, if_pos rfl]
    · simp [PendingGroup.extend]

theorem groups_of_refused {flow : RealtimeFlowId} {reason : DropReason}
    (h : QueueChanges q [.refused flow reason] q') : q'.groups = q.groups := by
  cases h.only
  exact noteDropped_groups ..

theorem groups_of_overflowed {flow : RealtimeFlowId} {group : PendingGroup}
    (h : QueueChanges q [.overflowed flow group] q') : q'.groups = q.groups.erase flow := by
  cases h.only
  exact noteDropped_groups ..

theorem enqueue_tells (hq : q.Bounded) (hc : q.Counted) {outcome : SendOutcome}
    (h : (q.enqueue d now).1 = .ok outcome) :
    EnqueueTells q d now outcome (q.enqueue d now).2 := by
  obtain ⟨es, hcase, hchanges⟩ := enqueue_cases hq d now
  have hexpire := expire_drops hc now d.flow
  obtain ⟨drops, hdrops, -⟩ := expire_changes q now
  have hcount := hchanges.drops_eq (hdrops.counted hc) d.flow
  have hmax := hc.drops_le d.flow
  have hle : q.drops d.flow ≤ (q.enqueue d now).2.drops d.flow := by omega
  -- Unless a loss of this flow is noted, the counter is as it was.
  have hsame (hzero : tally (QueueEvent.amount (some d.flow) .congestionDropped) es = 0) :
      (q.enqueue d now).2.drops d.flow = q.drops d.flow := by omega
  generalize q.enqueue d now = r at h hcase hchanges hle hsame
  obtain ⟨result, q'⟩ := r
  obtain rfl : result = .ok outcome := h
  have hgone (hnone : q'.groups[d.flow]? = none) (group : PendingGroup)
      (hgroup : q'.groups[d.flow]? = some group) :
      ¬(group.generation = d.generation ∧ group.sequence = d.sequence) := by
    rw [hnone] at hgroup
    cases hgroup
  cases hcase with
  | late hfits hlate =>
    refine ⟨by simp, by simp, fun _ => hlate, by simp, hle, fun _ => hsame ?_⟩
    exact tally_zero fun e he => by
      rw [List.mem_singleton.mp he]
      simp [QueueEvent.amount, DropReason.counter]
  | @older group hgroup hcompare =>
    refine ⟨by simp, fun _ group' hgroup' hkey => ?_, by simp, by simp, hle, by simp⟩
    -- The group is still the one that was newer.
    rw [groups_of_refused hchanges] at hgroup'
    obtain rfl := Option.some.inj (hgroup.symm.trans hgroup')
    rw [hkey.1, hkey.2, compareGroup_self] at hcompare
    cases hcompare
  | @overflowed group hgroup hkey hfull =>
    refine ⟨by simp, fun _ => hgone ?_, by simp, by simp, hle, by simp⟩
    rw [groups_of_overflowed hchanges, OrderedMap.lookup_erase, if_pos rfl]
  | @appended group hgroup hkey hfits hlive =>
    refine ⟨fun _ => awaits_of_appended hchanges hlive (expire_live hgroup).2, by simp, by simp,
      by simp, hle, fun _ => hsame ?_⟩
    exact tally_zero fun e he => by
      rw [List.mem_singleton.mp he]
      simp [QueueEvent.amount]
  | @replaced group hgroup hcompare hfits hlive =>
    refine ⟨fun _ => awaits_of_started [_] hchanges hlive, by simp, by simp, by simp, hle,
      fun _ => hsame ?_⟩
    simp [QueueEvent.amount, DropReason.counter, tally]
  | crowded hnone hfull hkeep =>
    refine ⟨by simp, fun _ => hgone ?_, by simp, by simp, hle, by simp⟩
    rw [groups_of_refused hchanges, hnone]
  | @evicted flow group hnone hfull hgroup hlower hfits hlive =>
    refine ⟨fun _ => awaits_of_started [_] hchanges hlive, by simp, by simp, by simp, hle,
      fun _ => hsame ?_⟩
    -- The evicted group is one of another flow.
    have hother : d.flow ≠ flow := by
      rintro rfl
      rw [hnone] at hgroup
      cases hgroup
    simp [QueueEvent.amount, DropReason.counter, tally, FlowScope.covers, hother]
  | started hnone hroom hfits hlive =>
    refine ⟨fun _ => awaits_of_started [] hchanges hlive, by simp, by simp, by simp, hle,
      fun _ => hsame ?_⟩
    simp [QueueEvent.amount, tally]

theorem counted_new {config : RealtimeQueueConfig} {maxPayload : ℕ}
    (h : new config maxPayload = .ok q) : q.Counted := by
  intro c scope
  obtain ⟨exact, hcount, -⟩ := (queueAccount_run h []).noted
  exact (hcount c scope).trans_le (Nat.min_le_right _ _)

end RealtimeSendQueue

namespace QuicConnection

/-- What waits in the queue before a poll that does not fail is handed over or spared. -/
theorem poll_fate (c : QuicConnection) {path : QuicPath} {now n : ℕ}
    (hq : c.realtimeSend.Bounded) (hs : c.realtimeSend.Short) (hc : c.realtimeSend.Counted)
    (hok : (c.pollRealtime path now).1 = .ok n) :
    ∃ ds : List (QueuedRealtimeDatagram × Bytes),
      (c.pollRealtime path now).2.handed = c.handed ++ ds.map Prod.snd ∧
      (∀ x ∈ ds, encodeRealtimeDatagram x.1 = .ok x.2) ∧
      ∀ d : RealtimeDatagram, (∃ group, c.realtimeSend.Awaits d now group) →
        (∃ x ∈ ds, SameDatagram x.1 d) ∨
          AwaitsOrLost d now c.realtimeSend (c.pollRealtime path now).2.realtimeSend := by
  unfold pollRealtime at hok ⊢
  cases henabled : c.datagramsEnabled with
  | false =>
    rw [henabled] at hok
    cases hok
  | true =>
    rw [henabled, Bool.not_true, if_neg Bool.false_ne_true] at hok
    rw [Bool.not_true, if_neg Bool.false_ne_true]
    rcases c.refresh_cases path henabled with ⟨-, hrefresh⟩ | ⟨-, c', hrefresh, hkept, -⟩
    · rw [hrefresh] at hok
      cases hok
    rw [hrefresh] at hok ⊢
    have hq' := hkept.moves.moves.bounded hq
    have hs' := hkept.moves.moves.short hq hs
    have hc' := hkept.moves.moves.counted hq hc
    obtain ⟨ds, r, q', hrounds, heq⟩ := c'.pollLoop_rounds path now 0 0 hq'
    simp only [heq] at hok ⊢
    refine ⟨ds, ?_, fun x hx => (hrounds.alive hq' hs' x hx).1, fun d hwaits => ?_⟩
    · show c'.handed ++ _ = _
      rw [hkept.handed]
    have hbefore := (hkept.moves.moves.ebbs hq hc d.flow).le
    rcases hkept.moves.awaitsOrLost hq hc hwaits with hstay | hlost
    · rcases hrounds.fate hok hq' hc' hstay with hsent | hstay | hgrown | hfull
      · exact .inl hsent
      · exact .inr (.inl hstay)
      · exact .inr (.inr (.inl (hbefore.trans_lt hgrown)))
      · exact .inr (.inr (.inr hfull))
    · exact .inr (RealtimeSendQueue.awaits_of_lost (hrounds.moves.ebbs hq' hc' d.flow)
        (hrounds.moves.counted hq' hc') hlost)

/-- The parts of a call that answers: the refresh, the offer to the queue and the poll. -/
theorem trySendLatest_ok {c : QuicConnection} {d : RealtimeDatagram} {path path' : QuicPath}
    {now : ℕ} {outcome : SendOutcome} (h : (c.trySendLatest d path path' now).1 = .ok outcome) :
    (c.datagramsEnabled = false ∧ outcome = .unsupported ∧
      (c.trySendLatest d path path' now).2 = c) ∨
    ∃ c' q first n, c.datagramsEnabled = true ∧ c.Kept (c.refreshEvents path) c' ∧
      c'.realtimeSend.enqueue d now = (.ok first, q) ∧
      ({ c' with realtimeSend := q } : QuicConnection).pollRealtime path' now =
        (.ok n, (c.trySendLatest d path path' now).2) ∧
      outcome = if c'.realtimeSend.congestionDroppedForFlow d.flow <
          (c.trySendLatest d path path' now).2.realtimeSend.congestionDroppedForFlow d.flow
        then .droppedCongested else first := by
  unfold trySendLatest at h ⊢
  cases henabled : c.datagramsEnabled with
  | false =>
    rw [henabled] at h
    exact .inl ⟨rfl, (Except.ok.inj h).symm, rfl⟩
  | true =>
    rw [henabled, Bool.not_true, if_neg Bool.false_ne_true] at h
    rw [Bool.not_true, if_neg Bool.false_ne_true]
    rcases c.refresh_cases path henabled with ⟨-, hrefresh⟩ | ⟨-, c', hrefresh, hkept, -⟩
    · rw [hrefresh] at h
      cases h
    rw [hrefresh] at h ⊢
    cases henqueue : c'.realtimeSend.enqueue d now with
    | mk result q =>
      cases result with
      | error e =>
        simp only [henqueue] at h
        cases h
      | ok first =>
        simp only [henqueue] at h ⊢
        refine .inr ⟨c', q, first, ?_⟩
        generalize hpoll : ({ c' with realtimeSend := q } : QuicConnection).pollRealtime path' now =
          poll at h ⊢
        obtain ⟨polled, c₂⟩ := poll
        cases polled with
        | error e => cases h
        | ok n => exact ⟨n, trivial, hkept, henqueue, rfl, (Except.ok.inj h).symm⟩

section Run
variable {options : QuicOptions} {path₀ : QuicPath} {c₀ : QuicConnection}

theorem run_counted (h : make options path₀ = .ok c₀) (calls : List DatagramCall) :
    (run step c₀ calls).realtimeSend.Counted := by
  obtain ⟨maxPayload, hnew, -⟩ := make_spec h
  obtain ⟨offered, ds, -, hadvances⟩ := run_advances h calls
  exact hadvances.moves.counted (RealtimeSendQueue.bounded_new hnew)
    (RealtimeSendQueue.counted_new hnew)

/-- What `try_send_latest` answers at any point of a run, unless the counter of lost datagrams has
reached its maximum. An accepted datagram has been handed over by this call or stands at the end of
the group of its flow. After `DroppedCongested` nothing waits under its key any more, and
`DroppedExpired` only comes at or after the deadline. -/
theorem try_send_latest_tells_the_fate (h : make options path₀ = .ok c₀)
    (calls : List DatagramCall) (d : RealtimeDatagram) (path path' : QuicPath) (now : ℕ)
    {outcome : SendOutcome}
    (hreply : ((run step c₀ calls).trySendLatest d path path' now).1 = .ok outcome)
    (hbelow : ((run step c₀ calls).trySendLatest d path path'
      now).2.realtimeSend.congestionDroppedForFlow d.flow < 2^64-1) :
    ∃ ds : List (QueuedRealtimeDatagram × Bytes),
      ((run step c₀ calls).trySendLatest d path path' now).2.handed =
        (run step c₀ calls).handed ++ ds.map Prod.snd ∧
      (∀ x ∈ ds, encodeRealtimeDatagram x.1 = .ok x.2) ∧
      (outcome = .enqueued ∨ outcome = .replacedOlder → (∃ x ∈ ds, SameDatagram x.1 d) ∨
        ∃ group, ((run step c₀ calls).trySendLatest d path path' now).2.realtimeSend.Awaits d now
          group) ∧
      (outcome = .droppedCongested → ∀ group : PendingGroup,
        ((run step c₀ calls).trySendLatest d path path' now).2.realtimeSend.groups[d.flow]? =
          some group → ¬(group.generation = d.generation ∧ group.sequence = d.sequence)) ∧
      (outcome = .droppedExpired → d.deadline ≤ now) ∧
      (outcome = .unsupported ↔ (run step c₀ calls).datagramsEnabled = false) := by
  obtain ⟨hq, hs⟩ := run_bounded h calls
  have hc := run_counted h calls
  generalize run step c₀ calls = c at hq hs hc hreply hbelow ⊢
  rcases trySendLatest_ok hreply with ⟨hdisabled, rfl, hsame⟩ |
    ⟨c', q₁, first, n, henabled, hkept, henqueue, hpoll, rfl⟩
  · exact ⟨[], by rw [hsame]; simp, by simp, by simp, by simp, by simp, by simp [hdisabled]⟩
  simp only [RealtimeSendQueue.congestionDroppedForFlow_eq] at hbelow ⊢
  generalize (c.trySendLatest d path path' now).2 = c₂ at hbelow hpoll ⊢
  have hq' := hkept.moves.moves.bounded hq
  have hc' := hkept.moves.moves.counted hq hc
  have hoffer : QueueMoves c'.realtimeSend [d] [] (c'.realtimeSend.enqueue d now).2 :=
    .single (.enqueue d now) rfl
  have htells := RealtimeSendQueue.enqueue_tells hq' hc' (congrArg Prod.fst henqueue)
  rw [henqueue] at hoffer htells
  have hq₁ := hoffer.bounded hq'
  have hs₁ := hoffer.short hq' (hkept.moves.moves.short hq hs)
  have hc₁ := hoffer.counted hq' hc'
  simp only at hq₁ hs₁ hc₁ htells
  -- The poll hands the datagram over, leaves it, or drops it and counts the loss.
  obtain ⟨ds, hhanded, hencoded, hfate⟩ :=
    poll_fate { c' with realtimeSend := q₁ } hq₁ hs₁ hc₁ (congrArg Prod.fst hpoll)
  obtain ⟨others, hpolled⟩ :=
    pollRealtime_polled { c' with realtimeSend := q₁ } path' now hq₁ hs₁
  have hebbs := hpolled.moves.ebbs hq₁ hc₁ d.flow
  rw [hpoll] at hhanded hfate hebbs
  simp only at hhanded hfate hebbs
  have hle := hebbs.le
  have hfirst := htells.drops_le
  refine ⟨ds, by rw [hhanded, hkept.handed], hencoded, fun haccepted => ?_,
    fun hcongested group hgroup hkey => ?_, fun hexpired => ?_, ?_⟩
  · split at haccepted
    · simp at haccepted
    next hsame =>
    rcases hfate d (htells.accepted haccepted) with hsent | hstay | hgrown | hfull
    · exact .inl hsent
    · exact .inr hstay
    · exact absurd (hfirst.trans_lt hgrown) hsame
    · exact absurd hbelow (by rw [hfull]; exact lt_irrefl _)
  · obtain ⟨old, hold, hgeneration, hsequence⟩ := hebbs.origin group hgroup
    have hlast : first = .droppedCongested := by
      by_contra hother
      have hsame := htells.drops_eq hother
      split at hcongested
      · next hgrown =>
        rw [← hsame] at hgrown
        rw [hebbs.lost hgrown] at hgroup
        cases hgroup
      · exact hother hcongested
    exact htells.congested hlast old hold
      ⟨hgeneration.trans hkey.1, hsequence.trans hkey.2⟩
  · split at hexpired
    · cases hexpired
    · exact htells.expired hexpired
  · have hsupported : ¬(if c'.realtimeSend.drops d.flow < c₂.realtimeSend.drops d.flow then
        SendOutcome.droppedCongested else first) = .unsupported := by
      split
      · simp
      · exact htells.supported
    simp [hsupported, henabled]

end Run

open Sample in
theorem sample_tells_the_fate : ∃ ds : List (QueuedRealtimeDatagram × Bytes),
    (quicConnection.trySendLatest quicDatagram (quicPath 0) (quicPath 0) 1).2.handed =
      ds.map Prod.snd ∧
    ((∃ x ∈ ds, SameDatagram x.1 quicDatagram) ∨
      ∃ group, (quicConnection.trySendLatest quicDatagram (quicPath 0) (quicPath 0)
        1).2.realtimeSend.Awaits quicDatagram 1 group) := by
  have hreply : ((run step quicConnection []).trySendLatest quicDatagram (quicPath 0) (quicPath 0)
      1).1 = .ok .enqueued := by decide +kernel
  obtain ⟨ds, hhanded, -, haccepted, -⟩ := try_send_latest_tells_the_fate quicConnection_make []
    quicDatagram (quicPath 0) (quicPath 0) 1 hreply (by decide +kernel)
  exact ⟨ds, hhanded, haccepted (.inl rfl)⟩

end QuicConnection
end MutsukiLink
