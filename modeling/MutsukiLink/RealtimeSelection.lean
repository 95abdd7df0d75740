import MutsukiLink.RealtimeRuns

/-! Which datagram a pop takes: the oldest of the best priority class, where `pop_next_fitting`
passes over the groups whose front is too long. -/
namespace MutsukiLink
open WireBytes RunHistory

/-- The encoding of a datagram is a header and its payload, unless it is too long for any. -/
theorem encode_length (d : QueuedRealtimeDatagram) (n : ℕ) :
    wireLen d.payload = some n ↔ ∃ wire, encodeRealtimeDatagram d = .ok wire ∧ wire.length = n := by
  unfold encodeRealtimeDatagram
  cases h : wireLen d.payload with
  | none => simp
  | some m =>
    have hm : m = realtimeDatagramHeaderLen+d.payload.length := by
      unfold wireLen at h
      split at h
      · exact (Option.some.inj h).symm
      · cases h
    simp only [Option.some.injEq, Except.ok.injEq, exists_eq_left', List.length_append,
      length_beBytes, realtimeMagic, List.length_cons, List.length_nil]
    rw [hm, realtimeDatagramHeaderLen]
    constructor <;> intro h <;> omega

/-- The encoding of a datagram has at most so many bytes. -/
def EncodesWithin (d : QueuedRealtimeDatagram) (limit : ℕ) : Prop :=
  ∃ wire, encodeRealtimeDatagram d = .ok wire ∧ wire.length ≤ limit

theorem encodesWithin_iff (d : QueuedRealtimeDatagram) (limit : ℕ) :
    EncodesWithin d limit ↔ ∃ n, wireLen d.payload = some n ∧ n ≤ limit := by
  constructor
  · intro h
    obtain ⟨wire, hwire, hle⟩ := h
    exact ⟨wire.length, (encode_length d _).mpr ⟨wire, hwire, rfl⟩, hle⟩
  · intro h
    obtain ⟨n, hn, hle⟩ := h
    obtain ⟨wire, hwire, rfl⟩ := (encode_length d n).mp hn
    exact ⟨wire, hwire, hle⟩

namespace RealtimeSendQueue
variable {q : RealtimeSendQueue} {flow : RealtimeFlowId} {group : PendingGroup} {maxWireLen : ℕ}

/-- The front of a group, encoded, has at most so many bytes. -/
theorem headFits_iff (flow : RealtimeFlowId) (group : PendingGroup) (maxWireLen : ℕ) :
    headFits maxWireLen group = true ↔ ∃ payload rest, group.datagrams = payload :: rest ∧
      EncodesWithin (group.queued flow payload) maxWireLen := by
  unfold headFits
  cases group.datagrams with
  | nil => simp
  | cons payload rest =>
    simp only [List.head?_cons, Option.bind_some]
    constructor
    · intro h
      obtain ⟨n, hn, hle⟩ := Option.any_eq_true _ _ |>.mp h
      refine ⟨payload, rest, rfl, (encodesWithin_iff _ _).mpr ⟨n, hn, ?_⟩⟩
      simpa using hle
    · intro h
      obtain ⟨p, rest', hcons, hfits⟩ := h
      obtain ⟨rfl, rfl⟩ := List.cons.inj hcons
      obtain ⟨n, hn, hle⟩ := (encodesWithin_iff _ _).mp hfits
      exact Option.any_eq_true _ _ |>.mpr ⟨n, hn, by simpa using hle⟩

/-- No group of the queue has a better priority. -/
def BestClass (q : RealtimeSendQueue) (group : PendingGroup) : Prop :=
  ∀ (flow' : RealtimeFlowId) (group' : PendingGroup), q.groups[flow']? = some group' →
    group.priority.rank ≤ group'.priority.rank

/-- The order in which the groups of one class are served. -/
def served (entry : RealtimeFlowId × PendingGroup) : ℕ ×ₗ ℕ :=
  toLex (entry.2.insertionOrder.toNat, entry.1.val.toNat)

theorem mem_groups : (flow, group) ∈ q.groups.toList ↔ q.groups[flow]? = some group :=
  Std.ExtTreeMap.mem_toList_iff_getElem?_eq_some

/-- Different groups are served one after the other. -/
theorem served_injective {a b : RealtimeFlowId × PendingGroup} (ha : a ∈ q.groups.toList)
    (hb : b ∈ q.groups.toList) (h : served a = served b) : a = b := by
  obtain ⟨⟨f⟩, g⟩ := a
  obtain ⟨⟨f'⟩, g'⟩ := b
  have hflow : f = f' := UInt16.toNat_inj.mp (congrArg (fun p => (ofLex p).2) h)
  subst hflow
  rw [mem_groups] at ha hb
  rw [Option.some.inj (ha.symm.trans hb)]

theorem min_rank_iff (hgroup : q.groups[flow]? = some group) (hbest : q.BestClass group) :
    (q.groups.toList.map fun entry => entry.2.priority.rank).min? = some group.priority.rank := by
  rw [List.min?_eq_some_iff]
  constructor
  · exact List.mem_map.mpr ⟨(flow, group), mem_groups.mpr hgroup, rfl⟩
  · intro n hn
    obtain ⟨⟨f, g⟩, hmem, rfl⟩ := List.mem_map.mp hn
    exact hbest f g (mem_groups.mp hmem)

/-- A queue with a group has a best one. -/
theorem bestClass_exists (hgroup : q.groups[flow]? = some group) :
    ∃ (f : RealtimeFlowId) (g : PendingGroup), q.groups[f]? = some g ∧ q.BestClass g := by
  cases hmin : (q.groups.toList.map fun entry => entry.2.priority.rank).min? with
  | none =>
    rw [List.min?_eq_none_iff, List.map_eq_nil_iff] at hmin
    have hmem := mem_groups.mpr hgroup
    rw [hmin] at hmem
    cases hmem
  | some n =>
    rw [List.min?_eq_some_iff] at hmin
    obtain ⟨⟨f, g⟩, hmem, rfl⟩ := List.mem_map.mp hmin.1
    exact ⟨f, g, mem_groups.mp hmem, fun f' g' hg' =>
      hmin.2 _ (List.mem_map.mpr ⟨(f', g'), mem_groups.mpr hg', rfl⟩)⟩

/-- `next_flow` is the first to be served of the best class. -/
theorem nextFlow_spec (h : q.nextFlow = some flow) :
    ∃ group, q.groups[flow]? = some group ∧ q.BestClass group ∧
      ∀ (f : RealtimeFlowId) (g : PendingGroup), q.groups[f]? = some g →
        g.priority.rank = group.priority.rank → served (flow, group) ≤ served (f, g) := by
  obtain ⟨⟨f, group⟩, hmin, rfl⟩ := Option.map_eq_some_iff.mp h
  have hle {f' : RealtimeFlowId} {g' : PendingGroup} (hg' : q.groups[f']? = some g') :=
    List.le_of_mem_argmin (mem_groups.mpr hg') hmin
  simp only [Prod.Lex.le_iff, ofLex_toLex] at hle
  refine ⟨group, mem_groups.mp (List.argmin_mem hmin), fun f' g' hg' => ?_,
    fun f' g' hg' hrank => ?_⟩
  · rcases hle hg' with hlt | ⟨heq, -⟩
    · exact hlt.le
    · exact heq.le
  · rcases hle hg' with hlt | ⟨-, hserved⟩
    · exact absurd hlt (by omega)
    · exact Prod.Lex.le_iff.mpr hserved

theorem nextFittingFlow_eq (hgroup : q.groups[flow]? = some group) (hbest : q.BestClass group)
    (maxWireLen : ℕ) : q.nextFittingFlow maxWireLen =
      ((q.groups.toList.filter fun entry => entry.2.priority.rank = group.priority.rank &&
        headFits maxWireLen entry.2).argmin served).map Prod.fst := by
  unfold nextFittingFlow
  rw [min_rank_iff hgroup hbest]
  rfl

theorem mem_fitting {f : RealtimeFlowId} {g : PendingGroup} {rank : ℕ} :
    (f, g) ∈ q.groups.toList.filter (fun entry => entry.2.priority.rank = rank &&
      headFits maxWireLen entry.2) ↔
        q.groups[f]? = some g ∧ g.priority.rank = rank ∧ headFits maxWireLen g = true := by
  rw [List.mem_filter, mem_groups, Bool.and_eq_true, decide_eq_true_eq]

theorem BestClass.rank_eq (hgroup : q.groups[flow]? = some group) (hbest : q.BestClass group)
    {f : RealtimeFlowId} {g : PendingGroup} (hg : q.groups[f]? = some g) :
    g.priority.rank = group.priority.rank ↔ q.BestClass g := by
  constructor
  · intro h f' g' hg'
    rw [h]
    exact hbest f' g' hg'
  · intro h
    exact le_antisymm (h flow group hgroup) (hbest f g hg)

/-- `pop_next_fitting` serves a group of the best class with a front that fits. -/
theorem nextFittingFlow_spec (h : q.nextFittingFlow maxWireLen = some flow) :
    ∃ group, q.groups[flow]? = some group ∧ q.BestClass group ∧
      headFits maxWireLen group = true := by
  obtain ⟨group₀, hgroup₀⟩ := nextFittingFlow_mem h
  obtain ⟨f, best, hf, hbest⟩ := bestClass_exists hgroup₀
  rw [nextFittingFlow_eq hf hbest] at h
  obtain ⟨⟨f', group⟩, hmin, rfl⟩ := Option.map_eq_some_iff.mp h
  obtain ⟨hgroup, hrank, hfits⟩ := mem_fitting.mp (List.argmin_mem hmin)
  exact ⟨group, hgroup, (hbest.rank_eq hf hgroup).mp hrank, hfits⟩

theorem nextFittingFlow_eq_none_iff : q.nextFittingFlow maxWireLen = none ↔
    ∀ (f : RealtimeFlowId) (g : PendingGroup), q.groups[f]? = some g → q.BestClass g →
      headFits maxWireLen g = false := by
  constructor
  · intro h f g hg hbest
    rw [nextFittingFlow_eq hg hbest, Option.map_eq_none_iff, List.argmin_eq_none] at h
    by_contra hfits
    rw [Bool.not_eq_false] at hfits
    have hmem := mem_fitting.mpr ⟨hg, rfl, hfits⟩
    rw [h] at hmem
    cases hmem
  · intro h
    cases hflow : q.nextFittingFlow maxWireLen with
    | none => rfl
    | some flow =>
      obtain ⟨group, hgroup, hbest, hfits⟩ := nextFittingFlow_spec hflow
      rw [h flow group hgroup hbest] at hfits
      cases hfits

/-- When the first to be served fits, both pops serve it. -/
theorem nextFittingFlow_of_fits (h : q.nextFlow = some flow)
    (hgroup : q.groups[flow]? = some group) (hfits : headFits maxWireLen group = true) :
    q.nextFittingFlow maxWireLen = some flow := by
  obtain ⟨g, hg, hbest, hfirst⟩ := nextFlow_spec h
  obtain rfl := Option.some.inj (hgroup.symm.trans hg)
  rw [nextFittingFlow_eq hgroup hbest]
  have hmem := mem_fitting.mpr ⟨hgroup, rfl, hfits⟩
  cases hmin : (q.groups.toList.filter fun entry => entry.2.priority.rank = group.priority.rank &&
      headFits maxWireLen entry.2).argmin served with
  | none =>
    rw [List.argmin_eq_none] at hmin
    rw [hmin] at hmem
    cases hmem
  | some entry =>
    obtain ⟨f', g'⟩ := entry
    obtain ⟨hg', hrank, -⟩ := mem_fitting.mp (List.argmin_mem hmin)
    -- Each of the two is served no later than the other, so they are one group.
    have hle := List.le_of_mem_argmin hmem hmin
    have heq := served_injective (mem_groups.mpr hgroup) (mem_groups.mpr hg')
      (le_antisymm (hfirst f' g' hg' hrank) hle)
    rw [← heq]
    rfl

/-! ### The pops -/

variable {now : ℕ} {d : QueuedRealtimeDatagram}

/-- A pending group with time left. -/
def Unexpired (q : RealtimeSendQueue) (now : ℕ) (flow : RealtimeFlowId) (group : PendingGroup) :
    Prop :=
  q.groups[flow]? = some group ∧ now < group.deadline

/-- No group with time left has a better priority. -/
def BestUnexpired (q : RealtimeSendQueue) (now : ℕ) (group : PendingGroup) : Prop :=
  ∀ flow' group', q.Unexpired now flow' group' → group.priority.rank ≤ group'.priority.rank

theorem unexpired_iff (q : RealtimeSendQueue) (now : ℕ) (flow : RealtimeFlowId)
    (group : PendingGroup) :
    q.Unexpired now flow group ↔ (q.expire now).2.groups[flow]? = some group := by
  rw [expire_lookup, Option.filter_eq_some_iff, decide_eq_true_eq]
  rfl

theorem bestUnexpired_iff (q : RealtimeSendQueue) (now : ℕ) (group : PendingGroup) :
    q.BestUnexpired now group ↔ (q.expire now).2.BestClass group := by
  simp only [BestUnexpired, BestClass, unexpired_iff]

theorem expire_expire (q : RealtimeSendQueue) (now : ℕ) :
    ((q.expire now).2.expire now).2 = (q.expire now).2 := by
  have hnone : (q.expire now).2.flowsWhere (fun group => group.deadline ≤ now) = [] := by
    rw [List.eq_nil_iff_forall_not_mem]
    intro flow hmem
    obtain ⟨group, hgroup, hlate⟩ := mem_flowsWhere.mp hmem
    have hlive := (expire_live hgroup).2
    rw [decide_eq_true_eq] at hlate
    omega
  generalize (q.expire now).2 = q at hnone ⊢
  unfold expire
  rw [hnone]
  rfl

theorem popFlow_front {payload : Bytes} {rest : List Bytes}
    (hgroup : q.groups[flow]? = some group) (hpayload : group.datagrams = payload :: rest) :
    (q.popFlow flow).1 = some (group.queued flow payload) := by
  simp only [popFlow, hgroup, hpayload, PendingGroup.queued]

/-- What a pop returns is the front of the group that it has chosen. -/
theorem pop_chosen (hq : q.Bounded) {choice : Option RealtimeFlowId}
    (hchoice : ∀ flow, choice = some flow → ∃ group, q.groups[flow]? = some group) :
    ((choice.elim (none, q) q.popFlow).1 = none ↔ choice = none) ∧
    ∀ d, (choice.elim (none, q) q.popFlow).1 = some d → ∃ flow group payload rest,
      choice = some flow ∧ q.groups[flow]? = some group ∧ group.datagrams = payload :: rest ∧
        d = group.queued flow payload := by
  cases choice with
  | none => simp
  | some flow =>
    obtain ⟨group, hgroup⟩ := hchoice flow rfl
    obtain ⟨payload, rest, hpayload⟩ :=
      List.exists_cons_of_ne_nil (hq.nonempty flow group hgroup)
    have hfront := popFlow_front hgroup hpayload
    rw [Option.elim_some, hfront]
    refine ⟨by simp, fun d hd => ?_⟩
    exact ⟨flow, group, payload, rest, rfl, hgroup, hpayload, (Option.some.inj hd).symm⟩

theorem popNextFitting_some (hq : q.Bounded) (h : (q.popNextFitting now maxWireLen).1 = some d) :
    EncodesWithin d maxWireLen ∧ ∃ group, q.Unexpired now d.flow group ∧
      d.priority = group.priority ∧ q.BestUnexpired now group := by
  rw [popNextFitting_eq] at h
  obtain ⟨flow, group, payload, rest, hflow, hgroup, hpayload, rfl⟩ :=
    (pop_chosen (hq.expire now) fun _ => nextFittingFlow_mem).2 d h
  obtain ⟨g, hg, hbest, hfits⟩ := nextFittingFlow_spec hflow
  obtain rfl := Option.some.inj (hgroup.symm.trans hg)
  obtain ⟨payload', rest', hpayload', hencodes⟩ := (headFits_iff flow group _).mp hfits
  obtain ⟨rfl, rfl⟩ := List.cons.inj (hpayload.symm.trans hpayload')
  exact ⟨hencodes, group, (unexpired_iff _ _ _ _).mpr hgroup, rfl,
    (bestUnexpired_iff _ _ _).mpr hbest⟩

theorem popNextFitting_none (hq : q.Bounded) :
    (q.popNextFitting now maxWireLen).1 = none ↔
      ∀ flow group payload rest, q.Unexpired now flow group → q.BestUnexpired now group →
        group.datagrams = payload :: rest →
          ¬ EncodesWithin (group.queued flow payload) maxWireLen := by
  rw [popNextFitting_eq, (pop_chosen (hq.expire now) fun _ => nextFittingFlow_mem).1,
    nextFittingFlow_eq_none_iff]
  simp only [unexpired_iff, bestUnexpired_iff]
  constructor
  · intro h flow group payload rest hgroup hbest hpayload hencodes
    have hfits := (headFits_iff flow group maxWireLen).mpr ⟨payload, rest, hpayload, hencodes⟩
    rw [h flow group hgroup hbest] at hfits
    cases hfits
  · intro h flow group hgroup hbest
    rw [← Bool.not_eq_true]
    intro hfits
    obtain ⟨payload, rest, hpayload, hencodes⟩ := (headFits_iff flow group _).mp hfits
    exact h flow group payload rest hgroup hbest hpayload hencodes

theorem popNext_best (hq : q.Bounded) (h : (q.popNext now).1 = some d) :
    ∃ group, q.Unexpired now d.flow group ∧ d.priority = group.priority ∧
      q.BestUnexpired now group := by
  rw [popNext_eq] at h
  obtain ⟨flow, group, payload, rest, hflow, hgroup, hpayload, rfl⟩ :=
    (pop_chosen (hq.expire now) fun _ => nextFlow_mem).2 d h
  obtain ⟨g, hg, hbest, -⟩ := nextFlow_spec hflow
  obtain rfl := Option.some.inj (hgroup.symm.trans hg)
  exact ⟨group, (unexpired_iff _ _ _ _).mpr hgroup, rfl, (bestUnexpired_iff _ _ _).mpr hbest⟩

/-- A peeked length is that of the datagram which `pop_next` returns. -/
theorem peek_spec {n : ℕ} (h : (q.peekNextWireLen now).1 = some n) :
    ∃ flow group payload rest, (q.expire now).2.nextFlow = some flow ∧
      (q.expire now).2.groups[flow]? = some group ∧ group.datagrams = payload :: rest ∧
        wireLen payload = some n := by
  unfold peekNextWireLen at h
  simp only [Option.bind_eq_bind, Option.bind_eq_some_iff] at h
  obtain ⟨flow, hflow, group, hgroup, payload, hhead, hlen⟩ := h
  obtain ⟨rest, hpayload⟩ := List.head?_eq_some_iff.mp hhead
  exact ⟨flow, group, payload, rest, hflow, hgroup, hpayload, hlen⟩

theorem peek_agrees {n : ℕ} (h : (q.peekNextWireLen now).1 = some n) (hn : n ≤ maxWireLen) :
    q.popNextFitting now maxWireLen = q.popNext now ∧
      ∃ d wire, (q.popNext now).1 = some d ∧ encodeRealtimeDatagram d = .ok wire ∧
        wire.length = n := by
  obtain ⟨flow, group, payload, rest, hflow, hgroup, hpayload, hlen⟩ := peek_spec h
  obtain ⟨wire, hwire, hlength⟩ := (encode_length (group.queued flow payload) n).mp hlen
  have hfits : headFits maxWireLen group = true :=
    (headFits_iff flow group _).mpr ⟨payload, rest, hpayload, wire, hwire, hlength ▸ hn⟩
  rw [popNextFitting_eq, popNext_eq, hflow, nextFittingFlow_of_fits hflow hgroup hfits]
  exact ⟨rfl, _, wire, popFlow_front hgroup hpayload, hwire, hlength⟩

/-- After a peek the pops do what they would have done. -/
theorem pop_after_peek (q : RealtimeSendQueue) (now maxWireLen : ℕ) :
    (q.peekNextWireLen now).2.popNextFitting now maxWireLen = q.popNextFitting now maxWireLen ∧
      (q.peekNextWireLen now).2.popNext now = q.popNext now := by
  have hpeek : (q.peekNextWireLen now).2 = (q.expire now).2 := rfl
  rw [hpeek, popNextFitting_eq, popNextFitting_eq, popNext_eq, popNext_eq, expire_expire]
  exact ⟨rfl, rfl⟩

end RealtimeSendQueue

section Run
variable {config : RealtimeQueueConfig} {maxPayload : ℕ} {q : RealtimeSendQueue}

/-- In every state that a run reaches, `pop_next_fitting` takes a datagram of the best unexpired
class that fits, when there is one, agrees with `pop_next` whenever the peeked length fits, and
neither serves a class while a better one waits. -/
theorem fitting_pop_agrees (h : RealtimeSendQueue.new config maxPayload = .ok q)
    (ops : List QueueOp) (now maxWireLen : ℕ) :
    (∀ d, ((run RealtimeSendQueue.step q ops).popNextFitting now maxWireLen).1 = some d →
      EncodesWithin d maxWireLen ∧
        ∃ group, (run RealtimeSendQueue.step q ops).Unexpired now d.flow group ∧
          d.priority = group.priority ∧
          (run RealtimeSendQueue.step q ops).BestUnexpired now group) ∧
    (((run RealtimeSendQueue.step q ops).popNextFitting now maxWireLen).1 = none ↔
      ∀ flow group payload rest, (run RealtimeSendQueue.step q ops).Unexpired now flow group →
        (run RealtimeSendQueue.step q ops).BestUnexpired now group →
        group.datagrams = payload :: rest →
          ¬ EncodesWithin (group.queued flow payload) maxWireLen) ∧
    (∀ n, ((run RealtimeSendQueue.step q ops).peekNextWireLen now).1 = some n → n ≤ maxWireLen →
      ((run RealtimeSendQueue.step q ops).popNextFitting now maxWireLen =
        (run RealtimeSendQueue.step q ops).popNext now ∧
      ((run RealtimeSendQueue.step q ops).peekNextWireLen now).2.popNextFitting now maxWireLen =
        ((run RealtimeSendQueue.step q ops).peekNextWireLen now).2.popNext now) ∧
      ∃ d wire, ((run RealtimeSendQueue.step q ops).popNext now).1 = some d ∧
        encodeRealtimeDatagram d = .ok wire ∧ wire.length = n) ∧
    ∀ d, ((run RealtimeSendQueue.step q ops).popNext now).1 = some d ∨
        ((run RealtimeSendQueue.step q ops).popNextFitting now maxWireLen).1 = some d →
      ∀ flow group, (run RealtimeSendQueue.step q ops).Unexpired now flow group →
        d.priority.rank ≤ group.priority.rank := by
  have hq : (run RealtimeSendQueue.step q ops).Bounded :=
    run_invariant _ (I := RealtimeSendQueue.Bounded) (fun _ op hq => hq.step op)
      (RealtimeSendQueue.bounded_new h) ops
  -- From here on only the bounds of the queue matter, not how it was reached.
  generalize run RealtimeSendQueue.step q ops = q at hq ⊢
  refine ⟨fun d hd => RealtimeSendQueue.popNextFitting_some hq hd,
    RealtimeSendQueue.popNextFitting_none hq, fun n hn hle => ?_, fun d hd flow group hlive => ?_⟩
  · obtain ⟨hagree, hlength⟩ := RealtimeSendQueue.peek_agrees hn hle
    obtain ⟨hfitting, hnext⟩ := RealtimeSendQueue.pop_after_peek q now maxWireLen
    exact ⟨⟨hagree, by rw [hfitting, hnext, hagree]⟩, hlength⟩
  · rcases hd with hd | hd
    · obtain ⟨g, -, hpriority, hbest⟩ := RealtimeSendQueue.popNext_best hq hd
      exact hpriority ▸ hbest flow group hlive
    · obtain ⟨-, g, -, hpriority, hbest⟩ := RealtimeSendQueue.popNextFitting_some hq hd
      exact hpriority ▸ hbest flow group hlive

theorem small_pops_agree :
    (run RealtimeSendQueue.step smallQueue (smallOps.take 2)).popNextFitting 1 30 =
      (run RealtimeSendQueue.step smallQueue (smallOps.take 2)).popNext 1 :=
  ((fitting_pop_agrees smallQueue_new (smallOps.take 2) 1 30).2.2.1 22 (by decide +kernel)
    (by decide)).1.1

end Run

end MutsukiLink
