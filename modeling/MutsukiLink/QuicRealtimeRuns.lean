import MutsukiLink.QuicRealtimeModel
import MutsukiLink.RealtimeSafety
import MutsukiLink.RealtimeSelection

/-! The poll loop round by round, and runs of the datagram calls of a connection. To the send queue
a run is a list of its own operations, so what holds of every run of the queue holds here. -/
namespace MutsukiLink
open Std WireBytes RunHistory

/-- The rounds of `poll_realtime`: the datagrams that the endpoint takes, the answer, and the queue
that is left. -/
inductive PollRounds (path : QuicPath) (now : ℕ) : ℕ → ℕ → RealtimeSendQueue →
    List (QueuedRealtimeDatagram × Bytes) → Except TransportError ℕ → RealtimeSendQueue → Prop
  | full {look sent : ℕ} {q : RealtimeSendQueue} (hsent : maxRealtimeDatagramsPerPoll ≤ sent) :
      PollRounds path now look sent q [] (.ok sent) q
  | handed {look sent : ℕ} {q q' q'' : RealtimeSendQueue} {d : QueuedRealtimeDatagram}
      {wire : Bytes} {ds : List (QueuedRealtimeDatagram × Bytes)} {r : Except TransportError ℕ}
      (hsent : sent < maxRealtimeDatagramsPerPoll)
      (hpop : q.popNextFitting now (path.bufferSpace look) = (some d, q'))
      (hwire : encodeRealtimeDatagram d = .ok wire) (hsend : path.sendDatagram look = none)
      (hrest : PollRounds path now (look+1) (sent+1) (q'.noteSent d) ds r q'') :
      PollRounds path now look sent q ((d, wire) :: ds) r q''
  | failed {look sent : ℕ} {q q' : RealtimeSendQueue} {d : QueuedRealtimeDatagram}
      {e : SendDatagramError} (hsent : sent < maxRealtimeDatagramsPerPoll)
      (hpop : q.popNextFitting now (path.bufferSpace look) = (some d, q'))
      (hsend : path.sendDatagram look = some e) :
      PollRounds path now look sent q [] (.error (mapDatagramError e)) q'
  | relieved {look sent n : ℕ} {q q' q'' q₃ : RealtimeSendQueue}
      {ds : List (QueuedRealtimeDatagram × Bytes)} {r : Except TransportError ℕ}
      (hsent : sent < maxRealtimeDatagramsPerPoll)
      (hpop : q.popNextFitting now (path.bufferSpace look) = (none, q'))
      (hdrop : q'.noteTransportCongestion.dropDisposableForCongestion = (n, q''))
      (hn : 0 < n) (hrest : PollRounds path now (look+1) sent q'' ds r q₃) :
      PollRounds path now look sent q ds r q₃
  | blocked {look sent : ℕ} {q q' q'' : RealtimeSendQueue}
      (hsent : sent < maxRealtimeDatagramsPerPoll)
      (hpop : q.popNextFitting now (path.bufferSpace look) = (none, q'))
      (hdrop : q'.noteTransportCongestion.dropDisposableForCongestion = (0, q'')) :
      PollRounds path now look sent q [] (.ok sent) q''
  | drained {look sent : ℕ} {q q' : RealtimeSendQueue}
      (hsent : sent < maxRealtimeDatagramsPerPoll)
      (hpop : q.popNextFitting now (path.bufferSpace look) = (none, q'))
      (hpending : q'.pendingDatagrams = 0) : PollRounds path now look sent q [] (.ok sent) q'

namespace RealtimeSendQueue
variable {q q' : RealtimeSendQueue} {now maxWireLen n : ℕ} {o : Option QueuedRealtimeDatagram}

theorem Bounded.pop (hq : q.Bounded) (h : q.popNextFitting now maxWireLen = (o, q')) :
    q'.Bounded := by
  have hstep := hq.step (.popNextFitting now maxWireLen)
  rwa [show q.step (.popNextFitting now maxWireLen) = (.popped o, q') by
    rw [RealtimeSendQueue.step, h]; rfl] at hstep

theorem Bounded.relieve (hq : q.Bounded)
    (h : q.noteTransportCongestion.dropDisposableForCongestion = (n, q')) : q'.Bounded := by
  have hstep := (hq.step .noteTransportCongestion).step .dropDisposableForCongestion
  have hdrop : (q.step .noteTransportCongestion).2.step .dropDisposableForCongestion =
      (.dropped n, q') := by
    show q.noteTransportCongestion.dropDisposableForCongestion.map QueueReply.dropped id = _
    rw [h]
    rfl
  rwa [hdrop] at hstep

end RealtimeSendQueue

namespace QuicConnection

/-- The connection with another send queue and some more datagrams handed over. -/
def settled (c : QuicConnection) (realtimeSend : RealtimeSendQueue) (wires : List Bytes) :
    QuicConnection :=
  { c with realtimeSend, handed := c.handed ++ wires }

theorem settled_nil (c : QuicConnection) (q : RealtimeSendQueue) :
    c.settled q [] = { c with realtimeSend := q } := by
  rw [settled, List.append_nil]

/-- The loop is its rounds. A datagram that fits can be encoded, so no round fails there. -/
theorem pollLoop_rounds (path : QuicPath) (now look sent : ℕ) (c : QuicConnection)
    (hq : c.realtimeSend.Bounded) :
    ∃ ds r q', PollRounds path now look sent c.realtimeSend ds r q' ∧
      pollLoop path now look sent c = (r, c.settled q' (ds.map Prod.snd)) := by
  fun_induction pollLoop path now look sent c with
  | case1 look sent c hsent => exact ⟨[], _, _, .full hsent, by rw [List.map_nil, settled_nil]⟩
  | case2 look sent c hsent d q' hpop c' e hwire =>
    obtain ⟨⟨wire, hok, -⟩, -⟩ :=
      RealtimeSendQueue.popNextFitting_some hq (congrArg Prod.fst hpop)
    rw [hok] at hwire
    cases hwire
  | case3 look sent c hsent d q' hpop c' wire hwire e hsend =>
    exact ⟨[], _, q', .failed (Nat.not_le.mp hsent) hpop hsend, by rw [List.map_nil, settled_nil]⟩
  | case4 look sent c hsent d q' hpop c' wire hwire hsend ih =>
    obtain ⟨ds, r, q'', hrounds, heq⟩ := ih ((hq.pop hpop).step (.noteSent d))
    refine ⟨_, r, q'', .handed (Nat.not_le.mp hsent) hpop hwire hsend hrounds, ?_⟩
    rw [heq]
    simp only [settled, c', List.map_cons, List.append_assoc, List.singleton_append]
  | case5 look sent c hsent q' hpop hpending n q'' hdrop hn ih =>
    obtain ⟨ds, r, q₃, hrounds, heq⟩ := ih ((hq.pop hpop).relieve hdrop)
    exact ⟨ds, r, q₃, .relieved (Nat.not_le.mp hsent) hpop hdrop hn hrounds, heq⟩
  | case6 look sent c hsent q' hpop hpending n q'' hdrop hn =>
    obtain rfl := Nat.eq_zero_of_not_pos hn
    exact ⟨[], _, q'', .blocked (Nat.not_le.mp hsent) hpop hdrop, by rw [List.map_nil, settled_nil]⟩
  | case7 look sent c hsent q' hpop hpending =>
    exact ⟨[], _, q', .drained (Nat.not_le.mp hsent) hpop (Nat.eq_zero_of_not_pos hpending),
      by rw [List.map_nil, settled_nil]⟩

end QuicConnection

/-! ### The send queue under the calls -/

namespace QueueOp

def offers : QueueOp → Option RealtimeDatagram
  | .enqueue datagram _ => some datagram
  | _ => none

def sends : QueueOp → Option QueuedRealtimeDatagram
  | .noteSent datagram => some datagram
  | _ => none

end QueueOp

def QueueReply.pops : QueueReply → Option QueuedRealtimeDatagram
  | .popped datagram => datagram
  | _ => none

/-- The queue goes from `q` to `q'` by operations of its own. These datagrams are offered to it and
these are noted as sent, each after it was popped. -/
def QueueMoves (q : RealtimeSendQueue) (offered : List RealtimeDatagram)
    (sent : List QueuedRealtimeDatagram) (q' : RealtimeSendQueue) : Prop :=
  ∃ ops, run RealtimeSendQueue.step q ops = q' ∧ ops.filterMap QueueOp.offers = offered ∧
    ops.filterMap QueueOp.sends = sent ∧
    sent.Sublist ((trace RealtimeSendQueue.step q ops).filterMap fun e => e.reply.pops)

namespace QueueMoves
variable {q q' q'' : RealtimeSendQueue} {offered offered' : List RealtimeDatagram}
  {sent sent' : List QueuedRealtimeDatagram}

theorem refl (q : RealtimeSendQueue) : QueueMoves q [] [] q := ⟨[], rfl, rfl, rfl, .slnil⟩

theorem trans (h : QueueMoves q offered sent q') (h' : QueueMoves q' offered' sent' q'') :
    QueueMoves q (offered ++ offered') (sent ++ sent') q'' := by
  obtain ⟨ops, rfl, hoffered, hsent, hpopped⟩ := h
  obtain ⟨ops', rfl, hoffered', hsent', hpopped'⟩ := h'
  refine ⟨ops ++ ops', run_append _ _ _ _, ?_, ?_, ?_⟩
  · rw [List.filterMap_append, hoffered, hoffered']
  · rw [List.filterMap_append, hsent, hsent']
  · rw [trace_append, List.filterMap_append]
    exact hpopped.append hpopped'

/-- An operation that is no note of a sent datagram. -/
theorem single (op : QueueOp) (hop : op.sends = none) :
    QueueMoves q op.offers.toList [] (q.step op).2 := by
  refine ⟨[op], rfl, ?_, ?_, List.nil_sublist _⟩
  · cases h : op.offers <;> simp [h]
  · simp [hop]

/-- A pop and the note that its datagram was sent. -/
theorem pop_sent {now maxWireLen : ℕ} {d : QueuedRealtimeDatagram}
    (h : q.popNextFitting now maxWireLen = (some d, q')) :
    QueueMoves q [] [d] (q'.noteSent d) := by
  have hstep : q.step (.popNextFitting now maxWireLen) = (.popped (some d), q') := by
    rw [RealtimeSendQueue.step, h]
    rfl
  refine ⟨[.popNextFitting now maxWireLen, .noteSent d], ?_, rfl, rfl, ?_⟩
  · rw [run_cons, hstep]
    rfl
  · simp [event, hstep, QueueReply.pops]

theorem pop {now maxWireLen : ℕ} {o : Option QueuedRealtimeDatagram}
    (h : q.popNextFitting now maxWireLen = (o, q')) : QueueMoves q [] [] q' := by
  have hmove := single (q := q) (.popNextFitting now maxWireLen) rfl
  rwa [show (q.step (.popNextFitting now maxWireLen)).2 = q' from congrArg Prod.snd h] at hmove

theorem relieve {n : ℕ} (h : q.noteTransportCongestion.dropDisposableForCongestion = (n, q')) :
    QueueMoves q [] [] q' := by
  have hmove := (single (q := q) .noteTransportCongestion rfl).trans
    (single .dropDisposableForCongestion rfl)
  have heq : ((q.step .noteTransportCongestion).2.step .dropDisposableForCongestion).2 = q' :=
    congrArg Prod.snd h
  rwa [heq] at hmove

/-- What every operation of a queue keeps. -/
theorem keep {I : RealtimeSendQueue → Prop} (h : QueueMoves q offered sent q')
    (hstep : ∀ q op, I q → I (RealtimeSendQueue.step q op).2) (hq : I q) : I q' := by
  obtain ⟨ops, rfl, -⟩ := h
  exact run_invariant _ hstep hq ops

theorem bounded (h : QueueMoves q offered sent q') (hq : q.Bounded) : q'.Bounded :=
  h.keep (fun _ op hq => hq.step op) hq

theorem short (h : QueueMoves q offered sent q') (hq : q.Bounded) (hs : q.Short) : q'.Short :=
  (h.keep (I := fun q => q.Bounded ∧ q.Short)
    (fun _ op hq => ⟨hq.1.step op, hq.2.step hq.1 op⟩) ⟨hq, hs⟩).2

end QueueMoves

/-- The operations by which a connection takes over what its path says. -/
def QueueOp.refreshes : QueueOp → Bool
  | .setMaxPayload _ | .noteMigration | .noteNetworkMetrics .. => true
  | _ => false

def RefreshMoves (q q' : RealtimeSendQueue) : Prop :=
  ∃ ops, (∀ op ∈ ops, QueueOp.refreshes op = true) ∧ run RealtimeSendQueue.step q ops = q'

namespace RefreshMoves
variable {q q' q'' : RealtimeSendQueue}

theorem refl (q : RealtimeSendQueue) : RefreshMoves q q := ⟨[], by simp, rfl⟩

theorem single (q : RealtimeSendQueue) (op : QueueOp) (hop : op.refreshes = true) :
    RefreshMoves q (q.step op).2 := ⟨[op], by simpa using hop, rfl⟩

theorem trans (h : RefreshMoves q q') (h' : RefreshMoves q' q'') : RefreshMoves q q'' := by
  obtain ⟨ops, hops, rfl⟩ := h
  obtain ⟨ops', hops', rfl⟩ := h'
  exact ⟨ops ++ ops', List.forall_mem_append.mpr ⟨hops, hops'⟩, run_append _ _ _ _⟩

/-- Such operations bring no group. -/
theorem fewer (h : RefreshMoves q q') : RealtimeSendQueue.Fewer q q' := by
  obtain ⟨ops, hops, rfl⟩ := h
  induction ops generalizing q with
  | nil => exact .refl q
  | cons op ops ih =>
    obtain ⟨hop, hops⟩ := List.forall_mem_cons.mp hops
    have hfirst : RealtimeSendQueue.Fewer q (q.step op).2 := by
      cases op with
      | setMaxPayload maxPayload => exact RealtimeSendQueue.setMaxPayload_fewer q maxPayload
      | noteMigration | noteNetworkMetrics => exact .of_groups rfl
      | _ => cases hop
    exact hfirst.trans (ih hops)

/-- Such operations offer nothing and send nothing. -/
theorem moves (h : RefreshMoves q q') : QueueMoves q [] [] q' := by
  obtain ⟨ops, hops, hrun⟩ := h
  have hnone {α : Type} (f : QueueOp → Option α) (hf : ∀ op, QueueOp.refreshes op = true →
      f op = none) : ops.filterMap f = [] :=
    List.filterMap_eq_nil_iff.mpr fun op hop => hf op (hops op hop)
  refine ⟨ops, hrun, hnone _ fun op hop => ?_, hnone _ fun op hop => ?_, List.nil_sublist _⟩
  · cases op <;> first | rfl | cases hop
  · cases op <;> first | rfl | cases hop

end RefreshMoves

namespace PollRounds
variable {path : QuicPath} {now look sent : ℕ} {q q' : RealtimeSendQueue}
  {ds : List (QueuedRealtimeDatagram × Bytes)} {r : Except TransportError ℕ}

theorem moves (h : PollRounds path now look sent q ds r q') :
    QueueMoves q [] (ds.map Prod.fst) q' := by
  induction h with
  | full => exact .refl _
  | handed hsent hpop hwire hsend hrest ih => exact (QueueMoves.pop_sent hpop).trans ih
  | failed hsent hpop hsend => exact .pop hpop
  | relieved hsent hpop hdrop hn hrest ih =>
    exact ((QueueMoves.pop hpop).trans (.relieve hdrop)).trans ih
  | blocked hsent hpop hdrop => exact (QueueMoves.pop hpop).trans (.relieve hdrop)
  | drained hsent hpop hpending => exact .pop hpop

/-- The answer counts the datagrams, and one poll hands over at most so many. -/
theorem count (h : PollRounds path now look sent q ds r q')
    (hsent : sent ≤ maxRealtimeDatagramsPerPoll) :
    sent+ds.length ≤ maxRealtimeDatagramsPerPoll ∧ ∀ n, r = .ok n → n = sent+ds.length := by
  induction h with
  | full | blocked | drained => exact ⟨hsent, by rintro n ⟨⟩; rfl⟩
  | handed hlt hpop hwire hsend hrest ih =>
    obtain ⟨hle, hok⟩ := ih hlt
    refine ⟨by rw [List.length_cons]; omega, fun n hn => ?_⟩
    rw [hok n hn, List.length_cons]
    omega
  | failed => exact ⟨hsent, by rintro n ⟨⟩⟩
  | relieved hlt hpop hdrop hn hrest ih => exact ih hsent

end PollRounds

/-! ### What is handed over -/

namespace RealtimeSendQueue
variable {q q' : RealtimeSendQueue} {now maxWireLen n : ℕ}

theorem popFlow_maxPayload (q : RealtimeSendQueue) (flow : RealtimeFlowId) :
    (q.popFlow flow).2.maxPayload = q.maxPayload := by
  unfold popFlow
  split
  · rfl
  · split <;> rfl

theorem popNextFitting_maxPayload (q : RealtimeSendQueue) (now maxWireLen : ℕ) :
    (q.popNextFitting now maxWireLen).2.maxPayload = q.maxPayload := by
  rw [popNextFitting_eq]
  cases (q.expire now).2.nextFittingFlow maxWireLen with
  | none => exact expire_maxPayload q now
  | some flow => exact (popFlow_maxPayload _ flow).trans (expire_maxPayload q now)

theorem dropDisposable_maxPayload (q : RealtimeSendQueue) :
    q.dropDisposableForCongestion.2.maxPayload = q.maxPayload := by
  obtain ⟨drops, hdrops, hall⟩ := dropFlowGroups_changes q
    (q.flowsWhere fun group => group.priority = .disposable) .congested
  refine hdrops.maxPayload_eq fun e he maxPayload => ?_
  obtain ⟨flow, group, rfl⟩ := hall e he
  simp

theorem dropFlowGroups_le (q : RealtimeSendQueue) (flows : List RealtimeFlowId)
    (reason : DropReason) (m : ℕ) :
    m ≤ (flows.foldl (fun (dropped, q) flow =>
      ((q.dropFlowGroup flow reason).map (dropped+·) id)) (m, q)).1 := by
  induction flows generalizing m q with
  | nil => exact Nat.le_refl m
  | cons flow flows ih => exact (Nat.le_add_right _ _).trans (ih (q.dropFlowGroup flow reason).2 _)

/-- What a flow would hand out if nothing more came to it, in order. -/
def waiting (q : RealtimeSendQueue) (flow : RealtimeFlowId) : List QueuedRealtimeDatagram :=
  q.groups[flow]?.elim [] fun group => group.datagrams.map (group.queued flow)

theorem waiting_of_group {flow : RealtimeFlowId} {group : PendingGroup}
    (h : q.groups[flow]? = some group) :
    q.waiting flow = group.datagrams.map (group.queued flow) := by
  rw [waiting, h, Option.elim_some]

theorem mem_waiting {flow : RealtimeFlowId} {d : QueuedRealtimeDatagram} :
    d ∈ q.waiting flow ↔ ∃ group payload, q.groups[flow]? = some group ∧
      payload ∈ group.datagrams ∧ d = group.queued flow payload := by
  unfold waiting
  cases q.groups[flow]? with
  | none => simp
  | some group => simp [eq_comm]

theorem Fewer.waiting (h : Fewer q q') (flow : RealtimeFlowId) :
    q'.waiting flow <+: q.waiting flow := by
  cases hgroup : q'.groups[flow]? with
  | none =>
    rw [RealtimeSendQueue.waiting, hgroup]
    exact List.nil_prefix
  | some group => rw [waiting_of_group hgroup, waiting_of_group (h flow group hgroup)]

theorem waiting_alive (q : RealtimeSendQueue) (now : ℕ) (flow : RealtimeFlowId) :
    ∀ d ∈ (q.expire now).2.waiting flow, now < d.deadline := by
  intro d hd
  obtain ⟨group, payload, hgroup, -, rfl⟩ := mem_waiting.mp hd
  exact (expire_live hgroup).2

theorem expire_waiting (q : RealtimeSendQueue) {flow : RealtimeFlowId} {d : QueuedRealtimeDatagram}
    (hd : d ∈ q.waiting flow) (hlive : now < d.deadline) :
    d ∈ (q.expire now).2.waiting flow := by
  obtain ⟨group, payload, hgroup, hpayload, rfl⟩ := mem_waiting.mp hd
  refine mem_waiting.mpr ⟨group, payload, ?_, hpayload, rfl⟩
  have hgroupLive : now < group.deadline := hlive
  rw [expire_lookup, hgroup, Option.filter_some, decide_eq_true hgroupLive]
  rfl

/-- The best class in terms of what waits. -/
theorem bestClass_iff (hq : q.Bounded) (group : PendingGroup) : q.BestClass group ↔
    ∀ flow, ∀ d ∈ q.waiting flow, group.priority.rank ≤ d.priority.rank := by
  constructor
  · intro h flow d hd
    obtain ⟨group', payload, hgroup', -, rfl⟩ := mem_waiting.mp hd
    exact h flow group' hgroup'
  · intro h flow group' hgroup'
    obtain ⟨payload, rest, hpayload⟩ :=
      List.exists_cons_of_ne_nil (hq.nonempty flow group' hgroup')
    have hmem : payload ∈ group'.datagrams := hpayload ▸ List.mem_cons_self
    exact h flow _ (mem_waiting.mpr ⟨group', payload, hgroup', hmem, rfl⟩)

theorem popFlow_waiting {flow : RealtimeFlowId} {group : PendingGroup} {payload : Bytes}
    {rest : List Bytes} (hgroup : q.groups[flow]? = some group)
    (hpayload : group.datagrams = payload :: rest) (flow' : RealtimeFlowId) :
    (if flow = flow' then [group.queued flow payload] else []) ++
      (q.popFlow flow).2.waiting flow' = q.waiting flow' := by
  simp only [popFlow, hgroup, hpayload, waiting]
  by_cases hf : flow = flow'
  · subst hf
    rw [if_pos rfl, hgroup, Option.elim_some, hpayload, List.map_cons, List.singleton_append]
    by_cases hrest : rest = []
    · simp [hrest]
    · simp only [if_neg hrest, OrderedMap.lookup_insert, if_true, Option.elim_some]
      rfl
  · rw [if_neg hf, List.nil_append]
    split
    · rw [OrderedMap.lookup_erase, if_neg hf]
    · rw [OrderedMap.lookup_insert, if_neg hf]

/-- A pop takes the front of its flow. The others only lose what is too late. -/
theorem popNextFitting_waiting (hq : q.Bounded) {o : Option QueuedRealtimeDatagram}
    (h : q.popNextFitting now maxWireLen = (o, q')) (flow : RealtimeFlowId) :
    o.toList.filter (fun d => d.flow = flow) ++ q'.waiting flow <+: q.waiting flow := by
  have hexpired := (expire_fewer q now).waiting flow
  rw [popNextFitting_eq] at h
  cases hchoice : (q.expire now).2.nextFittingFlow maxWireLen with
  | none =>
    rw [hchoice] at h
    obtain rfl := congrArg Prod.fst h
    obtain rfl := congrArg Prod.snd h
    exact hexpired
  | some flow' =>
    rw [hchoice, Option.elim_some] at h
    obtain ⟨group, hgroup⟩ := nextFittingFlow_mem hchoice
    obtain ⟨payload, rest, hpayload⟩ :=
      List.exists_cons_of_ne_nil ((hq.expire now).nonempty flow' group hgroup)
    have hfront := popFlow_front hgroup hpayload
    have hwaiting := popFlow_waiting hgroup hpayload flow
    rw [h] at hfront hwaiting
    obtain rfl := hfront
    rw [← hwaiting] at hexpired
    by_cases hf : flow' = flow
    · simpa [PendingGroup.queued, hf] using hexpired
    · simpa [PendingGroup.queued, hf] using hexpired

/-- What is popped fits, has time left, and keeps to the payload limit. Nothing more urgent with
time left has waited. -/
theorem popNextFitting_within (hq : q.Bounded) (hs : q.Short) {d : QueuedRealtimeDatagram}
    (h : q.popNextFitting now maxWireLen = (some d, q')) :
    EncodesWithin d maxWireLen ∧ now < d.deadline ∧ d.payload.length ≤ q.maxPayload ∧
      ∀ flow, ∀ d' ∈ q.waiting flow, now < d'.deadline →
        d.priority.rank ≤ d'.priority.rank := by
  have hsome := congrArg Prod.fst h
  obtain ⟨hencodes, best, -, hpriority, hbest⟩ := popNextFitting_some hq hsome
  rw [bestUnexpired_iff, bestClass_iff (hq.expire now)] at hbest
  rw [popNextFitting_eq] at hsome
  obtain ⟨flow, group, payload, rest, -, hgroup, hpayload, rfl⟩ :=
    (pop_chosen (hq.expire now) fun _ => nextFittingFlow_mem).2 d hsome
  obtain ⟨hold, hlive⟩ := expire_live hgroup
  refine ⟨hencodes, hlive, hs flow group hold payload (hpayload ▸ List.mem_cons_self), ?_⟩
  intro flow' d' hd' hlive'
  rw [hpriority]
  exact hbest flow' d' (expire_waiting q hd' hlive')

/-- The flows whose front is of the best class have a front that is too long for so many bytes. -/
def Unfit (q : RealtimeSendQueue) (maxWireLen : ℕ) : Prop :=
  ∀ flow d rest, q.waiting flow = d :: rest →
    (∀ flow', ∀ d' ∈ q.waiting flow', d.priority.rank ≤ d'.priority.rank) →
      ¬EncodesWithin d maxWireLen

/-- A pop that finds nothing leaves what has time left. No front of the best class fits. -/
theorem popNextFitting_miss (hq : q.Bounded) (h : q.popNextFitting now maxWireLen = (none, q')) :
    q' = (q.expire now).2 ∧ q'.Unfit maxWireLen := by
  have hnone := congrArg Prod.fst h
  have hqueue := congrArg Prod.snd h
  rw [popNextFitting_eq] at hnone hqueue
  have hchoice := (pop_chosen (hq.expire now) fun _ => nextFittingFlow_mem).1.mp hnone
  rw [hchoice, Option.elim_none] at hqueue
  dsimp only at hqueue
  subst hqueue
  refine ⟨rfl, fun flow d rest hwaiting hbest hencodes => ?_⟩
  obtain ⟨group, payload, hgroup, -, rfl⟩ :=
    mem_waiting.mp (show d ∈ (q.expire now).2.waiting flow from hwaiting ▸ List.mem_cons_self)
  have hclass := (bestClass_iff (hq.expire now) group).mpr hbest
  have hunfit := nextFittingFlow_eq_none_iff.mp hchoice flow group hgroup hclass
  -- The front of the flow is the front of its group.
  rw [waiting_of_group hgroup] at hwaiting
  obtain ⟨front, others, hdatagrams, hfront, -⟩ := List.map_eq_cons_iff.mp hwaiting
  have hfits := (headFits_iff flow group maxWireLen).mpr
    ⟨front, others, hdatagrams, hfront ▸ hencodes⟩
  rw [hunfit] at hfits
  cases hfits

/-- Nothing disposable waits. -/
def Calm (q : RealtimeSendQueue) : Prop := ∀ flow, ∀ d ∈ q.waiting flow, d.priority ≠ .disposable

theorem Calm.of_waiting (h : q.Calm)
    (hsub : ∀ flow, ∀ d ∈ q'.waiting flow, d ∈ q.waiting flow) : q'.Calm :=
  fun flow d hd => h flow d (hsub flow d hd)

theorem dropDisposable_calm (q : RealtimeSendQueue) : q.dropDisposableForCongestion.2.Calm := by
  intro flow d hd
  obtain ⟨group, payload, hgroup, -, rfl⟩ := mem_waiting.mp hd
  rw [dropDisposableForCongestion, dropWhere_lookup, Option.filter_eq_some_iff] at hgroup
  have hother : group.priority ≠ .disposable := by simpa using hgroup.2
  exact hother

/-- Without a disposable group there is no loss, and nothing changes. -/
theorem dropDisposable_of_calm (hq : q.Bounded) (h : q.Calm) :
    q.dropDisposableForCongestion = (0, q) := by
  have hnone : q.flowsWhere (fun group => group.priority = .disposable) = [] := by
    rw [List.eq_nil_iff_forall_not_mem]
    intro flow hmem
    obtain ⟨group, hgroup, hdisposable⟩ := mem_flowsWhere.mp hmem
    obtain ⟨payload, rest, hpayload⟩ :=
      List.exists_cons_of_ne_nil (hq.nonempty flow group hgroup)
    have hfront : payload ∈ group.datagrams := hpayload ▸ List.mem_cons_self
    exact h flow _ (mem_waiting.mpr ⟨group, payload, hgroup, hfront, rfl⟩)
      (of_decide_eq_true hdisposable)
  rw [dropDisposableForCongestion, hnone]
  rfl

theorem dropDisposable_zero (hq : q.Bounded) (h : q.dropDisposableForCongestion = (0, q')) :
    q' = q ∧ q.Calm := by
  by_cases hcalm : q.Calm
  · rw [dropDisposable_of_calm hq hcalm] at h
    exact ⟨(congrArg Prod.snd h).symm, hcalm⟩
  · -- The first disposable group alone would have been a loss.
    simp only [Calm, not_forall, not_not] at hcalm
    obtain ⟨flow, d, hd, hdisposable⟩ := hcalm
    obtain ⟨group, payload, hgroup, -, rfl⟩ := mem_waiting.mp hd
    have hmem : flow ∈ q.flowsWhere (fun group => group.priority = .disposable) :=
      mem_flowsWhere.mpr ⟨group, hgroup, decide_eq_true hdisposable⟩
    unfold dropDisposableForCongestion at h
    cases hflows : q.flowsWhere (fun group => group.priority = .disposable) with
    | nil =>
      rw [hflows] at hmem
      cases hmem
    | cons first flows =>
      obtain ⟨group, hgroup, -⟩ := mem_flowsWhere.mp (hflows ▸ List.mem_cons_self)
      rw [hflows] at h
      have hle := dropFlowGroups_le (q.dropFlowGroup first .congested).2 flows .congested
        (0+(q.dropFlowGroup first .congested).1)
      have hzero : (q.dropFlowGroups (first :: flows) .congested).1 = 0 := congrArg Prod.fst h
      have hone : (q.dropFlowGroup first .congested).1 = group.datagrams.length := by
        simp only [dropFlowGroup, hgroup]
      have hpos := List.length_pos_iff.mpr (hq.nonempty first group hgroup)
      replace hle := hle.trans_eq hzero
      omega

/-- The drop in a round that found nothing. -/
theorem relieve_fewer (h : q.noteTransportCongestion.dropDisposableForCongestion = (n, q')) :
    Fewer q q' := by
  have hdropped := dropFlowGroups_fewer q.noteTransportCongestion
    (q.noteTransportCongestion.flowsWhere fun group => group.priority = .disposable) .congested
  rw [show (q.noteTransportCongestion.dropFlowGroups _ .congested).2 = q' from
    congrArg Prod.snd h] at hdropped
  exact Fewer.trans (.of_groups rfl) hdropped

theorem waiting_of_drained (h : q.pendingDatagrams = 0) (flow : RealtimeFlowId) :
    q.waiting flow = [] := by
  rw [List.eq_nil_iff_forall_not_mem]
  intro d hd
  obtain ⟨group, payload, hgroup, hpayload, -⟩ := mem_waiting.mp hd
  have hzero := (OrderedMap.sumBy_eq_zero_iff _ _).mp h flow group hgroup
  rw [List.length_eq_zero_iff.mp hzero] at hpayload
  cases hpayload

end RealtimeSendQueue

/-- A datagram that a poll has handed over, with its bytes: it fits into the free space that the
endpoint told in this round, its time is not over and it keeps to the payload limit. -/
structure HandedWell (path : QuicPath) (now maxPayload look : ℕ)
    (x : QueuedRealtimeDatagram × Bytes) : Prop where
  encoded : encodeRealtimeDatagram x.1 = .ok x.2
  taken : path.sendDatagram look = none
  room : x.2.length ≤ path.bufferSpace look
  alive : now < x.1.deadline
  short : x.1.payload.length ≤ maxPayload

namespace PollRounds
variable {path : QuicPath} {now look sent : ℕ} {q q' : RealtimeSendQueue}
  {ds : List (QueuedRealtimeDatagram × Bytes)} {r : Except TransportError ℕ}

/-- What is handed over of a flow is the front of what waited in it. -/
theorem from_front (h : PollRounds path now look sent q ds r q') (hq : q.Bounded)
    (flow : RealtimeFlowId) :
    (ds.map Prod.fst).filter (fun d => d.flow = flow) <+: q.waiting flow := by
  induction h with
  | full | failed | blocked | drained => exact List.nil_prefix
  | @handed look sent q q' q'' d wire ds r hsent hpop hwire hsend hrest ih =>
    have hnext := ih ((QueueMoves.pop_sent hpop).bounded hq)
    have hpopped := RealtimeSendQueue.popNextFitting_waiting hq hpop flow
    rw [List.map_cons, List.filter_cons]
    rw [Option.toList_some, List.filter_cons, List.filter_nil] at hpopped
    split
    · next hf =>
      rw [if_pos hf] at hpopped
      exact (List.prefix_append_right_inj _).mpr hnext |>.trans hpopped
    · next hf =>
      rw [if_neg hf] at hpopped
      exact hnext.trans hpopped
  | relieved hsent hpop hdrop hn hrest ih =>
    have hnext := ih (((QueueMoves.pop hpop).trans (.relieve hdrop)).bounded hq)
    have hdropped := (RealtimeSendQueue.relieve_fewer hdrop).waiting flow
    exact (hnext.trans hdropped).trans (RealtimeSendQueue.popNextFitting_waiting hq hpop flow)

/-- A round that drops the disposable groups leaves nothing disposable, so it was the first to do
so. -/
theorem calm_of_relieved {b n maxWireLen : ℕ} {q q' q'' : RealtimeSendQueue} (hq : q.Bounded)
    (hcalm : b = 0 → q.Calm) (hpop : q.popNextFitting now maxWireLen = (none, q'))
    (hdrop : q'.noteTransportCongestion.dropDisposableForCongestion = (n, q'')) (hn : 0 < n) :
    0 < b ∧ q''.Calm := by
  have hafter := q'.noteTransportCongestion.dropDisposable_calm
  rw [hdrop] at hafter
  refine ⟨?_, hafter⟩
  by_contra hb
  have hcalm' : q'.noteTransportCongestion.Calm :=
    (hcalm (Nat.eq_zero_of_not_pos hb)).of_waiting fun flow d hd =>
      (RealtimeSendQueue.popNextFitting_waiting hq hpop flow).subset hd
  have hbounded : q'.noteTransportCongestion.Bounded := (hq.pop hpop).step .noteTransportCongestion
  rw [RealtimeSendQueue.dropDisposable_of_calm hbounded hcalm'] at hdrop
  exact hn.ne (congrArg Prod.fst hdrop)

theorem calm_of_handed {maxWireLen : ℕ} {q q' : RealtimeSendQueue} {d : QueuedRealtimeDatagram}
    (hq : q.Bounded) (hcalm : q.Calm) (hpop : q.popNextFitting now maxWireLen = (some d, q')) :
    (q'.noteSent d).Calm :=
  hcalm.of_waiting fun flow _ hd =>
    (RealtimeSendQueue.popNextFitting_waiting hq hpop flow).subset (List.mem_append_right _ hd)

/-- Each datagram belongs to a round: as many came before it as datagrams were handed over, and the
one that has dropped the disposable groups, unless there were none. -/
theorem handed_well (h : PollRounds path now look sent q ds r q') (hq : q.Bounded)
    (hs : q.Short) {b : ℕ} (hcalm : b = 0 → q.Calm) : ∀ i x, ds[i]? = some x →
      ∃ k ≤ b, HandedWell path now q.maxPayload (look+i+k) x := by
  induction h generalizing b with
  | full | failed | blocked | drained => simp
  | @handed look sent q q' q'' d wire ds r hsent hpop hwire hsend hrest ih =>
    obtain ⟨⟨wire', hok, hroom⟩, halive, hshort, -⟩ :=
      RealtimeSendQueue.popNextFitting_within hq hs hpop
    obtain rfl := Except.ok.inj (hok.symm.trans hwire)
    have hmoves := QueueMoves.pop_sent hpop
    have hlimit : (q'.noteSent d).maxPayload = q.maxPayload := by
      rw [← RealtimeSendQueue.popNextFitting_maxPayload q now (path.bufferSpace look), hpop]
      rfl
    intro i x hx
    cases i with
    | zero =>
      obtain rfl := Option.some.inj hx
      exact ⟨0, Nat.zero_le b, hwire, hsend, hroom, halive, hshort⟩
    | succ i =>
      obtain ⟨k, hk, hwell⟩ := ih (hmoves.bounded hq) (hmoves.short hq hs)
        (fun hb => calm_of_handed hq (hcalm hb) hpop) i x hx
      rw [hlimit, Nat.add_right_comm look 1 i] at hwell
      exact ⟨k, hk, hwell⟩
  | @relieved look sent n q q' q'' q₃ ds r hsent hpop hdrop hn hrest ih =>
    have hmoves := (QueueMoves.pop hpop).trans (.relieve hdrop)
    obtain ⟨hb, hafter⟩ := calm_of_relieved hq hcalm hpop hdrop hn
    have hlimit : q''.maxPayload = q.maxPayload := by
      rw [← RealtimeSendQueue.popNextFitting_maxPayload q now (path.bufferSpace look), hpop,
        ← congrArg (fun r => r.2.maxPayload) hdrop]
      exact RealtimeSendQueue.dropDisposable_maxPayload _
    intro i x hx
    obtain ⟨k, hk, hwell⟩ := ih (hmoves.bounded hq) (hmoves.short hq hs) (b := b-1)
      (fun _ => hafter) i x hx
    rw [hlimit, show look+1+i+k = look+i+(k+1) by omega] at hwell
    exact ⟨k+1, by omega, hwell⟩

theorem alive (h : PollRounds path now look sent q ds r q') (hq : q.Bounded) (hs : q.Short) :
    ∀ x ∈ ds, encodeRealtimeDatagram x.1 = .ok x.2 ∧ now < x.1.deadline := by
  intro x hx
  obtain ⟨i, hi⟩ := List.mem_iff_getElem?.mp hx
  obtain ⟨k, -, hwell⟩ := h.handed_well hq hs (b := 1) (by simp) i x hi
  exact ⟨hwell.encoded, hwell.alive⟩

/-- The more urgent classes go first. -/
theorem urgent_first (h : PollRounds path now look sent q ds r q') (hq : q.Bounded)
    (hs : q.Short) :
    (ds.map Prod.fst).Pairwise fun d d' => d.priority.rank ≤ d'.priority.rank := by
  induction h with
  | full | failed | blocked | drained => exact .nil
  | @handed look sent q q' q'' d wire ds r hsent hpop hwire hsend hrest ih =>
    have hmoves := QueueMoves.pop_sent hpop
    have hq' := hmoves.bounded hq
    have hs' := hmoves.short hq hs
    rw [List.map_cons]
    refine .cons (fun d' hd' => ?_) (ih hq' hs')
    obtain ⟨-, -, -, hurgent⟩ := RealtimeSendQueue.popNextFitting_within hq hs hpop
    obtain ⟨x, hx, rfl⟩ := List.mem_map.mp hd'
    -- The later one waited in the queue of this round, too.
    have hfront := (hrest.from_front hq' x.1.flow).subset
      (List.mem_filter.mpr ⟨hd', decide_eq_true rfl⟩)
    have hwaited := (RealtimeSendQueue.popNextFitting_waiting hq hpop x.1.flow).subset
      (List.mem_append_right _ hfront)
    exact hurgent x.1.flow x.1 hwaited (hrest.alive hq' hs' x hx).2
  | relieved hsent hpop hdrop hn hrest ih =>
    have hmoves := (QueueMoves.pop hpop).trans (.relieve hdrop)
    exact ih (hmoves.bounded hq) (hmoves.short hq hs)

/-- How a poll that stops early leaves the queue: everything has time left, no front of the best
class fits into the free space that the endpoint told last, and nothing disposable waits. -/
structure Exhausted (path : QuicPath) (now look : ℕ) (q : RealtimeSendQueue) : Prop where
  alive : ∀ flow, ∀ d ∈ q.waiting flow, now < d.deadline
  unfit : q.Unfit (path.bufferSpace look)
  calm : q.Calm

theorem exhausted (h : PollRounds path now look sent q ds r q') (hq : q.Bounded) {b n : ℕ}
    (hcalm : b = 0 → q.Calm) (hr : r = .ok n) (hn : n < maxRealtimeDatagramsPerPoll) :
    ∃ k ≤ b, Exhausted path now (look+ds.length+k) q' := by
  induction h generalizing b with
  | full hsent =>
    obtain rfl := Except.ok.inj hr
    exact absurd hn (Nat.not_lt.mpr hsent)
  | @handed look sent q q' q'' d wire ds r hsent hpop hwire hsend hrest ih =>
    obtain ⟨k, hk, hexhausted⟩ := ih ((QueueMoves.pop_sent hpop).bounded hq)
      (fun hb => calm_of_handed hq (hcalm hb) hpop) hr
    rw [Nat.add_right_comm look 1] at hexhausted
    exact ⟨k, hk, hexhausted⟩
  | failed => cases hr
  | @relieved look sent n q q' q'' q₃ ds r hsent hpop hdrop hn' hrest ih =>
    obtain ⟨hb, hafter⟩ := calm_of_relieved hq hcalm hpop hdrop hn'
    obtain ⟨k, hk, hexhausted⟩ := ih (((QueueMoves.pop hpop).trans (.relieve hdrop)).bounded hq)
      (b := b-1) (fun _ => hafter) hr
    rw [show look+1+ds.length+k = look+ds.length+(k+1) by omega] at hexhausted
    exact ⟨k+1, by omega, hexhausted⟩
  | @blocked look sent q q' q'' hsent hpop hdrop =>
    have hbounded : q'.noteTransportCongestion.Bounded :=
      (hq.pop hpop).step .noteTransportCongestion
    obtain ⟨rfl, hafter⟩ := RealtimeSendQueue.dropDisposable_zero hbounded hdrop
    obtain ⟨rfl, hunfit⟩ := RealtimeSendQueue.popNextFitting_miss hq hpop
    exact ⟨0, Nat.zero_le b, q.waiting_alive now, hunfit, hafter⟩
  | @drained look sent q q' hsent hpop hpending =>
    obtain ⟨rfl, hunfit⟩ := RealtimeSendQueue.popNextFitting_miss hq hpop
    refine ⟨0, Nat.zero_le b, q.waiting_alive now, hunfit, fun flow d hd => ?_⟩
    rw [RealtimeSendQueue.waiting_of_drained hpending flow] at hd
    cases hd

/-- A poll that fails was refused in its last round. -/
theorem refused (h : PollRounds path now look sent q ds r q') (hq : q.Bounded) {b : ℕ}
    {e : TransportError} (hcalm : b = 0 → q.Calm) (hr : r = .error e) :
    ∃ k ≤ b, ∃ err, path.sendDatagram (look+ds.length+k) = some err ∧
      e = mapDatagramError err := by
  induction h generalizing b with
  | full | blocked | drained => cases hr
  | @handed look sent q q' q'' d wire ds r hsent hpop hwire hsend hrest ih =>
    obtain ⟨k, hk, hrefused⟩ := ih ((QueueMoves.pop_sent hpop).bounded hq)
      (fun hb => calm_of_handed hq (hcalm hb) hpop) hr
    rw [Nat.add_right_comm look 1] at hrefused
    exact ⟨k, hk, hrefused⟩
  | failed hsent hpop hsend =>
    cases hr
    exact ⟨0, Nat.zero_le b, _, hsend, rfl⟩
  | @relieved look sent n q q' q'' q₃ ds r hsent hpop hdrop hn' hrest ih =>
    obtain ⟨hb, hafter⟩ := calm_of_relieved hq hcalm hpop hdrop hn'
    obtain ⟨k, hk, hrefused⟩ := ih (((QueueMoves.pop hpop).trans (.relieve hdrop)).bounded hq)
      (b := b-1) (fun _ => hafter) hr
    rw [show look+1+ds.length+k = look+ds.length+(k+1) by omega] at hrefused
    exact ⟨k+1, by omega, hrefused⟩

end PollRounds

/-! ### Calls and runs -/

inductive DatagramCall where
  | trySendLatest (datagram : RealtimeDatagram) (path path' : QuicPath) (now : ℕ)
  | pollRealtime (path : QuicPath) (now : ℕ)
  | trySendDatagram (message : Bytes) (path : QuicPath)
  | tryReceiveDatagram (endsMeanwhile : Bool)
  | tryReceiveRealtime (endsMeanwhile : Bool)
  | takeRealtimeEvents
  | resetRealtimeSession
  | closeWrite
  | abort
  /-- The reader task has read a datagram. -/
  | arrive (payload : Bytes) (receivedAt : ℕ)
  | readerEnds

inductive DatagramReply where
  | outcome (result : Except TransportError SendOutcome)
  | polled (result : Except TransportError ℕ)
  | sent (result : Except TransportError Unit)
  | raw (result : Except TransportError (Option Bytes))
  | realtime (result : Except TransportError (Option ReceivedRealtimeDatagram))
  | events (events : List RealtimeEvent)
  | done

namespace QuicConnection

def step (c : QuicConnection) : DatagramCall → DatagramReply × QuicConnection
  | .trySendLatest datagram path path' now =>
    (c.trySendLatest datagram path path' now).map .outcome id
  | .pollRealtime path now => (c.pollRealtime path now).map .polled id
  | .trySendDatagram message path => (c.trySendDatagram message path).map .sent id
  | .tryReceiveDatagram endsMeanwhile => (c.tryReceiveDatagram endsMeanwhile).map .raw id
  | .tryReceiveRealtime endsMeanwhile => (c.tryReceiveRealtime endsMeanwhile).map .realtime id
  | .takeRealtimeEvents => c.takeRealtimeEvents.map .events id
  | .resetRealtimeSession => (.done, c.resetRealtimeSession)
  | .closeWrite => (.done, c.closeWrite)
  | .abort => (.done, c.abort)
  | .arrive payload receivedAt =>
    (.done, { c with datagramReceive := c.datagramReceive.push payload receivedAt })
  | .readerEnds => (.done, { c with readerFinished := true })

/-- The path has room for a datagram, and the connection has datagrams at all. -/
def Open (c : QuicConnection) (path : QuicPath) : Prop :=
  c.datagramsEnabled = true ∧ c.currentRealtimePayloadLimit path ≠ 0

instance (c : QuicConnection) (path : QuicPath) : Decidable (c.Open path) :=
  inferInstanceAs (Decidable (_ ∧ _))

/-- What a refresh of the state has told the events. -/
def refreshEvents (c : QuicConnection) (path : QuicPath) : List RealtimeEvent :=
  (if c.currentRealtimePayloadLimit path ≠ c.realtimeSend.maxPayload then
    [.datagramPayloadChanged c.realtimeSend.maxPayload (c.currentRealtimePayloadLimit path)]
  else []) ++ if path.remoteAddress ≠ c.lastRemoteAddress then [.pathMigrated] else []

/-- What a refresh keeps: it offers nothing and hands nothing over, and only adds events. -/
structure Kept (c : QuicConnection) (es : List RealtimeEvent) (c' : QuicConnection) : Prop where
  moves : RefreshMoves c.realtimeSend c'.realtimeSend
  events : c'.realtimeEvents = c.realtimeEvents ++ es
  handed : c'.handed = c.handed
  receive : c'.datagramReceive = c.datagramReceive
  enabled : c'.datagramsEnabled = c.datagramsEnabled
  bytes : c'.maxDatagramBytes = c.maxDatagramBytes

theorem Kept.trans {c c' c'' : QuicConnection} {es fs : List RealtimeEvent}
    (h : c.Kept es c') (h' : c'.Kept fs c'') : c.Kept (es ++ fs) c'' where
  moves := h.moves.trans h'.moves
  events := by rw [h'.events, h.events, List.append_assoc]
  handed := h'.handed.trans h.handed
  receive := h'.receive.trans h.receive
  enabled := h'.enabled.trans h.enabled
  bytes := h'.bytes.trans h.bytes

end QuicConnection

namespace RealtimeSendQueue

theorem setMaxPayload_spec (q : RealtimeSendQueue) {maxPayload : ℕ} (h : maxPayload ≠ 0) :
    (q.setMaxPayload maxPayload).1 = .ok (decide (maxPayload ≠ q.maxPayload)) ∧
      (q.setMaxPayload maxPayload).2.maxPayload = maxPayload := by
  unfold setMaxPayload
  rw [if_neg h]
  by_cases hsame : maxPayload = q.maxPayload
  · simp [hsame]
  · rw [if_neg hsame]
    simp only
    split
    · refine ⟨by simp [hsame], ?_⟩
      generalize hq : ({ q with maxPayload := maxPayload, telemetry := _ } :
        RealtimeSendQueue) = q'
      obtain ⟨drops, hdrops, hall⟩ := dropFlowGroups_changes q' (q'.flowsWhere fun group =>
        group.datagrams.any fun payload => maxPayload < payload.length) .congested
      have hlimit := hdrops.maxPayload_eq fun e he limit => by
        obtain ⟨flow, group, rfl⟩ := hall e he
        simp
      rw [hlimit, ← hq]
    · simp [hsame]

end RealtimeSendQueue

namespace QuicConnection

theorem pushEvent_kept (c : QuicConnection) (e : RealtimeEvent) : c.Kept [e] (c.pushEvent e) :=
  ⟨.refl _, rfl, rfl, rfl, rfl, rfl⟩

theorem kept_of_op (c : QuicConnection) (op : QueueOp) (hop : op.refreshes = true) :
    c.Kept [] { c with realtimeSend := (c.realtimeSend.step op).2 } :=
  ⟨.single _ op hop, (List.append_nil _).symm, rfl, rfl, rfl, rfl⟩

theorem refreshAddress_kept (c : QuicConnection) (path : QuicPath) :
    c.Kept (if path.remoteAddress ≠ c.lastRemoteAddress then [.pathMigrated] else [])
      (c.refreshAddress path) ∧
    (c.refreshAddress path).realtimeSend.maxPayload = c.realtimeSend.maxPayload ∧
    (c.refreshAddress path).lastRemoteAddress = path.remoteAddress := by
  unfold refreshAddress
  by_cases hmoved : path.remoteAddress ≠ c.lastRemoteAddress
  · rw [if_pos hmoved, if_pos hmoved]
    have hnote := c.kept_of_op .noteMigration rfl
    exact ⟨⟨hnote.moves, rfl, rfl, rfl, rfl, rfl⟩, rfl, rfl⟩
  · rw [if_neg hmoved, if_neg hmoved]
    exact ⟨⟨.refl _, (List.append_nil _).symm, rfl, rfl, rfl, rfl⟩, rfl,
      (not_not.mp hmoved).symm⟩

theorem refreshMetrics_kept (c : QuicConnection) (path : QuicPath) :
    c.Kept [] (c.refreshMetrics path) ∧
    (c.refreshMetrics path).realtimeSend.maxPayload = c.realtimeSend.maxPayload ∧
    (c.refreshMetrics path).lastRemoteAddress = c.lastRemoteAddress :=
  ⟨c.kept_of_op (.noteNetworkMetrics _ _ _) rfl, rfl, rfl⟩

/-- A refresh fails where the path has no room for a payload. Else the limit of the queue and the
address are those of the path. -/
theorem refresh_cases (c : QuicConnection) (path : QuicPath)
    (henabled : c.datagramsEnabled = true) :
    (¬c.Open path ∧ c.refreshRealtimeState path = (.error unsupportedDatagram, c)) ∨
      c.Open path ∧ ∃ c', c.refreshRealtimeState path = (.ok (), c') ∧
        c.Kept (c.refreshEvents path) c' ∧
        c'.realtimeSend.maxPayload = c.currentRealtimePayloadLimit path ∧
        c'.lastRemoteAddress = path.remoteAddress := by
  unfold refreshRealtimeState
  have hgo : ¬(!c.datagramsEnabled) = true := by simp [henabled]
  rw [if_neg hgo]
  by_cases hzero : c.currentRealtimePayloadLimit path = 0
  · exact .inl ⟨fun h => h.2 hzero, if_pos hzero⟩
  refine .inr ⟨⟨henabled, hzero⟩, ?_⟩
  simp only [hzero, if_false]
  obtain ⟨hreply, hlimit⟩ := c.realtimeSend.setMaxPayload_spec hzero
  have hkept := c.kept_of_op (.setMaxPayload (c.currentRealtimePayloadLimit path)) rfl
  rw [show (c.realtimeSend.step (.setMaxPayload (c.currentRealtimePayloadLimit path))).2 =
    (c.realtimeSend.setMaxPayload (c.currentRealtimePayloadLimit path)).2 from rfl] at hkept
  generalize c.realtimeSend.setMaxPayload (c.currentRealtimePayloadLimit path) = r
    at hreply hlimit hkept
  obtain ⟨reply, q⟩ := r
  obtain rfl : reply = _ := hreply
  simp only at hlimit hkept ⊢
  -- The three parts one after the other: the limit, the address and the metrics.
  generalize hfirst : (if decide (c.currentRealtimePayloadLimit path ≠ c.realtimeSend.maxPayload)
      = true then { c with realtimeSend := q }.pushEvent (.datagramPayloadChanged
        c.realtimeSend.maxPayload (c.currentRealtimePayloadLimit path))
    else { c with realtimeSend := q }) = first
  have hevents : ({ c with realtimeSend := q } : QuicConnection).Kept
      (if c.currentRealtimePayloadLimit path ≠ c.realtimeSend.maxPayload then
        [.datagramPayloadChanged c.realtimeSend.maxPayload (c.currentRealtimePayloadLimit path)]
      else []) first ∧ first.realtimeSend.maxPayload = c.currentRealtimePayloadLimit path ∧
      first.lastRemoteAddress = c.lastRemoteAddress := by
    rw [← hfirst]
    simp only [decide_eq_true_eq]
    split
    · exact ⟨pushEvent_kept _ _, hlimit, rfl⟩
    · exact ⟨⟨.refl _, (List.append_nil _).symm, rfl, rfl, rfl, rfl⟩, hlimit, rfl⟩
  obtain ⟨hkept₁, hlimit₁, haddress₁⟩ := hevents
  obtain ⟨hkept₂, hlimit₂, haddress₂⟩ := first.refreshAddress_kept path
  obtain ⟨hkept₃, hlimit₃, haddress₃⟩ := (first.refreshAddress path).refreshMetrics_kept path
  refine ⟨_, rfl, ?_, hlimit₃.trans (hlimit₂.trans hlimit₁), haddress₃.trans haddress₂⟩
  have hall := ((hkept.trans hkept₁).trans hkept₂).trans hkept₃
  rwa [List.nil_append, List.append_nil, haddress₁] at hall

/-- What a poll does: these datagrams are handed over, from the front of what waits in their flows
and the more urgent classes first. A round counts what was handed over before it, and the one round
that may have dropped the disposable groups. -/
structure Polled (c : QuicConnection) (path : QuicPath) (now : ℕ)
    (ds : List (QueuedRealtimeDatagram × Bytes)) (r : Except TransportError ℕ × QuicConnection) :
    Prop where
  moves : QueueMoves c.realtimeSend [] (ds.map Prod.fst) r.2.realtimeSend
  handed : r.2.handed = c.handed ++ ds.map Prod.snd
  few : ds.length ≤ maxRealtimeDatagramsPerPoll
  well : ∀ i x, ds[i]? = some x →
    ∃ k ≤ 1, HandedWell path now (c.currentRealtimePayloadLimit path) (i+k) x
  front : ∀ flow : RealtimeFlowId,
    (ds.map Prod.fst).filter (fun d => d.flow = flow) <+: c.realtimeSend.waiting flow
  urgent : (ds.map Prod.fst).Pairwise fun d d' => d.priority.rank ≤ d'.priority.rank
  ok : ∀ n, r.1 = .ok n → n = ds.length ∧ (n < maxRealtimeDatagramsPerPoll →
    ∃ k ≤ 1, PollRounds.Exhausted path now (n+k) r.2.realtimeSend)
  error : ∀ e, r.1 = .error e → (¬c.Open path ∧ e = unsupportedDatagram) ∨
    ∃ k ≤ 1, ∃ err, path.sendDatagram (ds.length+k) = some err ∧ e = mapDatagramError err
  closed : ¬c.Open path → r = (.error unsupportedDatagram, c)
  events : c.Open path → r.2.realtimeEvents = c.realtimeEvents ++ c.refreshEvents path
  address : c.Open path → r.2.lastRemoteAddress = path.remoteAddress
  limit : c.Open path → r.2.realtimeSend.maxPayload = c.currentRealtimePayloadLimit path
  receive : r.2.datagramReceive = c.datagramReceive
  enabled : r.2.datagramsEnabled = c.datagramsEnabled
  bytes : r.2.maxDatagramBytes = c.maxDatagramBytes

theorem polled_closed (c : QuicConnection) (path : QuicPath) (now : ℕ) (h : ¬c.Open path) :
    c.Polled path now [] (.error unsupportedDatagram, c) where
  moves := .refl _
  handed := (List.append_nil _).symm
  few := Nat.zero_le _
  well := by simp
  front := fun _ => List.nil_prefix
  urgent := .nil
  ok := by rintro n ⟨⟩
  error := by
    rintro e ⟨⟩
    exact .inl ⟨h, rfl⟩
  closed := fun _ => rfl
  events := fun h' => absurd h' h
  address := fun h' => absurd h' h
  limit := fun h' => absurd h' h
  receive := rfl
  enabled := rfl
  bytes := rfl

theorem PollRounds.maxPayload {path : QuicPath} {now look sent : ℕ} {q q' : RealtimeSendQueue}
    {ds : List (QueuedRealtimeDatagram × Bytes)} {r : Except TransportError ℕ}
    (h : PollRounds path now look sent q ds r q') : q'.maxPayload = q.maxPayload := by
  have hpopped {q q' : RealtimeSendQueue} {n : ℕ} {o : Option QueuedRealtimeDatagram}
      (hpop : q.popNextFitting now n = (o, q')) : q'.maxPayload = q.maxPayload := by
    rw [← RealtimeSendQueue.popNextFitting_maxPayload q now n, hpop]
  have hrelieved {q q' : RealtimeSendQueue} {n : ℕ}
      (hdrop : q.noteTransportCongestion.dropDisposableForCongestion = (n, q')) :
      q'.maxPayload = q.maxPayload := by
    have hlimit := RealtimeSendQueue.dropDisposable_maxPayload q.noteTransportCongestion
    rwa [hdrop] at hlimit
  induction h with
  | full => rfl
  | @handed look sent q q' q'' d wire ds r hsent hpop hwire hsend hrest ih =>
    have hsame : (q'.noteSent d).maxPayload = q'.maxPayload := rfl
    exact ih.trans (hsame.trans (hpopped hpop))
  | failed hsent hpop hsend => exact hpopped hpop
  | relieved hsent hpop hdrop hn hrest ih =>
    exact ih.trans ((hrelieved hdrop).trans (hpopped hpop))
  | blocked hsent hpop hdrop => exact (hrelieved hdrop).trans (hpopped hpop)
  | drained hsent hpop hpending => exact hpopped hpop

theorem pollRealtime_polled (c : QuicConnection) (path : QuicPath) (now : ℕ)
    (hq : c.realtimeSend.Bounded) (hs : c.realtimeSend.Short) :
    ∃ ds, c.Polled path now ds (c.pollRealtime path now) := by
  unfold pollRealtime
  cases henabled : c.datagramsEnabled with
  | false =>
    exact ⟨[], c.polled_closed path now fun h => by rw [h.1] at henabled; cases henabled⟩
  | true =>
    rw [Bool.not_true, if_neg Bool.false_ne_true]
    rcases c.refresh_cases path henabled with
      ⟨hclosed, hrefresh⟩ | ⟨hopen, c', hrefresh, hkept, hlimit, haddress⟩
    · rw [hrefresh]
      exact ⟨[], c.polled_closed path now hclosed⟩
    rw [hrefresh]
    have hq' := hkept.moves.moves.bounded hq
    have hs' := hkept.moves.moves.short hq hs
    obtain ⟨ds, r, q', hrounds, heq⟩ := c'.pollLoop_rounds path now 0 0 hq'
    obtain ⟨hfew, hok⟩ := hrounds.count (Nat.zero_le _)
    have hcalm : 1 = 0 → c'.realtimeSend.Calm := by simp
    have hwell := hrounds.handed_well hq' hs' hcalm
    rw [Nat.zero_add] at hfew
    simp only [Nat.zero_add] at hok hwell
    refine ⟨ds, ?_⟩
    simp only [heq]
    refine ⟨hkept.moves.moves.trans hrounds.moves, ?_, hfew, ?_, fun flow => ?_,
      hrounds.urgent_first hq' hs', ?_, ?_, ?_, ?_, ?_, ?_, hkept.receive, hkept.enabled,
      hkept.bytes⟩
    · show c'.handed ++ _ = _
      rw [hkept.handed]
    · rwa [← hlimit]
    · exact (hrounds.from_front hq' flow).trans (hkept.moves.fewer.waiting flow)
    · intro n hn
      refine ⟨hok n hn, fun hless => ?_⟩
      have hexhausted := hrounds.exhausted hq' hcalm hn hless
      rwa [Nat.zero_add, ← hok n hn] at hexhausted
    · intro e he
      have hrefused := hrounds.refused hq' hcalm he
      rw [Nat.zero_add] at hrefused
      exact .inr hrefused
    · exact fun h => absurd hopen h
    · exact fun _ => hkept.events
    · exact fun _ => haddress
    · exact fun _ => (PollRounds.maxPayload hrounds).trans hlimit

/-- The send queue has moved by operations of its own, and what was noted as sent was handed over in
this order. -/
structure Advances (c : QuicConnection) (offered : List RealtimeDatagram)
    (ds : List (QueuedRealtimeDatagram × Bytes)) (c' : QuicConnection) : Prop where
  moves : QueueMoves c.realtimeSend offered (ds.map Prod.fst) c'.realtimeSend
  handed : c'.handed = c.handed ++ ds.map Prod.snd
  encoded : ∀ x ∈ ds, encodeRealtimeDatagram x.1 = .ok x.2
  bytes : c'.maxDatagramBytes = c.maxDatagramBytes

theorem Advances.refl (c : QuicConnection) : c.Advances [] [] c :=
  ⟨.refl _, (List.append_nil _).symm, by simp, rfl⟩

theorem Advances.trans {c c' c'' : QuicConnection} {offered offered' : List RealtimeDatagram}
    {ds ds' : List (QueuedRealtimeDatagram × Bytes)} (h : c.Advances offered ds c')
    (h' : c'.Advances offered' ds' c'') : c.Advances (offered ++ offered') (ds ++ ds') c'' where
  moves := by
    rw [List.map_append]
    exact h.moves.trans h'.moves
  handed := by rw [h'.handed, h.handed, List.map_append, List.append_assoc]
  encoded := List.forall_mem_append.mpr ⟨h.encoded, h'.encoded⟩
  bytes := h'.bytes.trans h.bytes

theorem Kept.advances {c c' : QuicConnection} {es : List RealtimeEvent} (h : c.Kept es c') :
    c.Advances [] [] c' :=
  ⟨h.moves.moves, h.handed.trans (List.append_nil _).symm, by simp, h.bytes⟩

theorem Polled.advances {c : QuicConnection} {path : QuicPath} {now : ℕ}
    {ds : List (QueuedRealtimeDatagram × Bytes)} {r : Except TransportError ℕ × QuicConnection}
    (h : c.Polled path now ds r) : c.Advances [] ds r.2 where
  moves := h.moves
  handed := h.handed
  encoded := by
    intro x hx
    obtain ⟨i, hi⟩ := List.mem_iff_getElem?.mp hx
    obtain ⟨k, -, hwell⟩ := h.well i x hi
    exact hwell.encoded
  bytes := h.bytes

/-- An operation of the queue that hands nothing over. -/
theorem advances_op (c : QuicConnection) (op : QueueOp) (hop : op.sends = none) :
    c.Advances op.offers.toList [] { c with realtimeSend := (c.realtimeSend.step op).2 } :=
  ⟨.single op hop, (List.append_nil _).symm, by simp, rfl⟩

/-- The queue, the log and the limit are the same. -/
structure Untouched (c c' : QuicConnection) : Prop where
  queue : c'.realtimeSend = c.realtimeSend
  handed : c'.handed = c.handed
  bytes : c'.maxDatagramBytes = c.maxDatagramBytes

theorem Untouched.advances {c c' : QuicConnection} (h : c.Untouched c') : c.Advances [] [] c' :=
  ⟨h.queue ▸ .refl _, h.handed.trans (List.append_nil _).symm, by simp, h.bytes⟩

theorem trySendLatest_advances (c : QuicConnection) (datagram : RealtimeDatagram)
    (path path' : QuicPath) (now : ℕ) (hq : c.realtimeSend.Bounded)
    (hs : c.realtimeSend.Short) :
    ∃ offered ds, offered.Sublist [datagram] ∧
      c.Advances offered ds (c.trySendLatest datagram path path' now).2 := by
  unfold trySendLatest
  cases henabled : c.datagramsEnabled with
  | false => exact ⟨[], [], List.nil_sublist _, .refl c⟩
  | true =>
    rw [Bool.not_true, if_neg Bool.false_ne_true]
    rcases c.refresh_cases path henabled with ⟨-, hrefresh⟩ | ⟨-, c', hrefresh, hkept, -⟩
    · rw [hrefresh]
      exact ⟨[], [], List.nil_sublist _, .refl c⟩
    rw [hrefresh]
    have hoffer := hkept.advances.trans (c'.advances_op (.enqueue datagram now) rfl)
    simp only
    split
    · next e q henqueue =>
      have hqueue : (c'.realtimeSend.step (.enqueue datagram now)).2 = q :=
        congrArg Prod.snd henqueue
      rw [hqueue] at hoffer
      exact ⟨[datagram], [], List.Sublist.refl _, hoffer⟩
    · next outcome q henqueue =>
      have hqueue : (c'.realtimeSend.step (.enqueue datagram now)).2 = q :=
        congrArg Prod.snd henqueue
      rw [hqueue] at hoffer
      obtain ⟨ds, hpolled⟩ := ({ c' with realtimeSend := q } : QuicConnection).pollRealtime_polled
        path' now (hoffer.moves.bounded hq) (hoffer.moves.short hq hs)
      have hall : c.Advances [datagram] ds _ := hoffer.trans hpolled.advances
      refine ⟨[datagram], ds, List.Sublist.refl _, ?_⟩
      split
      · next e c₃ hpoll =>
        rw [hpoll] at hall
        exact hall
      · next n c₃ hpoll =>
        rw [hpoll] at hall
        exact hall

theorem popRawDatagram_untouched (c : QuicConnection) (endsMeanwhile : Bool) :
    c.Untouched (c.popRawDatagram endsMeanwhile).2 := by
  unfold popRawDatagram
  split
  · exact ⟨rfl, rfl, rfl⟩
  · split <;> exact ⟨rfl, rfl, rfl⟩

end QuicConnection

/-- The datagram that a call offers to the send queue. -/
def DatagramCall.datagram : DatagramCall → Option RealtimeDatagram
  | .trySendLatest datagram .. => some datagram
  | _ => none

namespace QuicConnection

theorem step_advances (c : QuicConnection) (call : DatagramCall) (hq : c.realtimeSend.Bounded)
    (hs : c.realtimeSend.Short) :
    ∃ offered ds, offered.Sublist call.datagram.toList ∧ c.Advances offered ds (c.step call).2 := by
  have hsame {c' : QuicConnection} (h : c.Untouched c') :
      ∃ offered ds, offered.Sublist ([] : List RealtimeDatagram) ∧ c.Advances offered ds c' :=
    ⟨[], [], List.Sublist.refl _, h.advances⟩
  cases call with
  | trySendLatest datagram path path' now =>
    exact c.trySendLatest_advances datagram path path' now hq hs
  | pollRealtime path now =>
    obtain ⟨ds, hpolled⟩ := c.pollRealtime_polled path now hq hs
    exact ⟨[], ds, List.Sublist.refl _, hpolled.advances⟩
  | trySendDatagram message path =>
    refine hsame ?_
    simp only [QuicConnection.step, trySendDatagram, Prod.map_snd, id]
    split
    · exact ⟨rfl, rfl, rfl⟩
    · split
      · exact ⟨rfl, rfl, rfl⟩
      · split <;> exact ⟨rfl, rfl, rfl⟩
  | tryReceiveDatagram endsMeanwhile =>
    refine hsame ?_
    have hpop := c.popRawDatagram_untouched endsMeanwhile
    simp only [QuicConnection.step, tryReceiveDatagram, Prod.map_snd, id]
    split
    · exact ⟨rfl, rfl, rfl⟩
    · split
      · next heq => rwa [heq] at hpop
      · next heq => rwa [heq] at hpop
  | tryReceiveRealtime endsMeanwhile =>
    refine hsame ?_
    have hpop := c.popRawDatagram_untouched endsMeanwhile
    simp only [QuicConnection.step, tryReceiveRealtime, Prod.map_snd, id]
    split
    · exact ⟨rfl, rfl, rfl⟩
    · split
      · next heq => rwa [heq] at hpop
      · next heq => rwa [heq] at hpop
      · next heq => rwa [heq] at hpop
  | takeRealtimeEvents | arrive | readerEnds => exact hsame ⟨rfl, rfl, rfl⟩
  | resetRealtimeSession =>
    have hreset := c.advances_op .resetForReconnect rfl
    exact ⟨[], [], List.Sublist.refl _, hreset.moves, hreset.handed, hreset.encoded, rfl⟩
  | closeWrite | abort =>
    have hclear := c.advances_op .clearPending rfl
    exact ⟨[], [], List.Sublist.refl _, hclear.moves, hclear.handed, hclear.encoded, rfl⟩

end QuicConnection
end MutsukiLink
