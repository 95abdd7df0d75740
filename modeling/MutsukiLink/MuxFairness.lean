import MutsukiLink.MuxDelivery
import MutsukiLink.FairQueue
import Mathlib.Algebra.Order.BigOperators.Group.Finset
import Mathlib.Algebra.BigOperators.Group.Finset.Basic

/-! Weighted fairness of `next_outbound`: the multiplexer drives the clock of start-time fair
queuing, so a backlogged channel keeps up with every other one. -/
namespace MutsukiLink
open WireBytes
open Std (ExtTreeMap ExtTreeSet)

theorem schedulingCost_pos (payloadLen : ℕ) (priorityHint : UInt8) :
    0 < schedulingCost payloadLen priorityHint := by
  unfold schedulingCost
  have hmax : 0 < u128Max := by decide
  have hbytes : 0 < min (max payloadLen 1*priorityBands) u128Max := by
    simp only [priorityBands]
    omega
  exact Nat.div_pos (by omega) (Nat.succ_pos _)

theorem schedulingCost_le (payloadLen : ℕ) (priorityHint : UInt8) :
    schedulingCost payloadLen priorityHint ≤ priorityBands*max payloadLen 1 := by
  unfold schedulingCost
  simp only
  generalize priorityHint.toNat/((255+priorityBands-1)/priorityBands) = w
  have hx : min (max payloadLen 1*priorityBands) u128Max ≤ priorityBands*max payloadLen 1 := by
    rw [Nat.mul_comm]
    exact min_le_left _ _
  have hx0 : 0 < min (max payloadLen 1*priorityBands) u128Max := by
    have hmax : 0 < u128Max := by decide
    simp only [priorityBands]
    omega
  refine le_trans ?_ hx
  generalize min (max payloadLen 1*priorityBands) u128Max = x at hx0
  obtain ⟨y, rfl⟩ := Nat.exists_eq_succ_of_ne_zero hx0.ne'
  refine Nat.div_le_of_le_mul ?_
  -- Rounding up costs less than one more multiple of the weight.
  calc y+1+(w+1)-1 = y*1+(w+1) := by omega
    _ ≤ y*(w+1)+(w+1) := Nat.add_le_add_right (Nat.mul_le_mul_left _ (Nat.succ_pos _)) _
    _ = (w+1)*(y+1) := by ring

namespace Multiplexer
open RunHistory (event)
open FairQueue (Clock Step spent)

def priorityOf (m : Multiplexer) (id : ChannelId) : UInt8 :=
  (m.channels[id]?.map fun state => state.config.priorityHint).getD 0

/-- The scheduler's clock, as the state of start-time fair queuing. -/
def clock (m : Multiplexer) : Clock ChannelId where
  time := m.virtualTime
  tag id := m.channels[id]?.map fun state => state.virtualFinish
  retired := {id | id ∈ m.retiredChannels}

def backlogged (m : Multiplexer) : Set ChannelId := {id | m.queueOf id ≠ []}

/-- No virtual tag has reached the value at which it saturates. -/
def TagsBelow (m : Multiplexer) : Prop :=
  ∀ (id : ChannelId) (state : ChannelState), m.channels[id]? = some state →
    state.virtualFinish < u128Max

instance (m : Multiplexer) : Decidable m.TagsBelow :=
  decidable_of_iff (∀ state ∈ OrderedMap.values m.channels, state.virtualFinish < u128Max) <| by
    simp only [OrderedMap.mem_values, TagsBelow]
    exact ⟨fun h id state hs => h state ⟨id, hs⟩, fun h state ⟨id, hs⟩ => h id state hs⟩

theorem clock_insert {m m' : Multiplexer} {id : ChannelId} {state : ChannelState}
    (hchannels : m'.channels = m.channels.insert id state)
    (hretired : m'.retiredChannels = m.retiredChannels) :
    m'.clock = { m.clock with
      time := m'.virtualTime
      tag := Function.update m.clock.tag id (some state.virtualFinish) } := by
  have htag : m'.clock.tag = Function.update m.clock.tag id (some state.virtualFinish) := by
    funext k
    simp only [clock, hchannels, ExtTreeMap.getElem?_insert, Std.compare_eq_iff_eq,
      Function.update_apply]
    by_cases hk : id = k
    · simp [hk]
    · simp [hk, Ne.symm hk]
  rw [← htag]
  simp only [clock, hretired]

/-- Rewriting a channel without touching its tag leaves the clock alone. -/
theorem clock_insert_same {m m' : Multiplexer} {id : ChannelId} {state state' : ChannelState}
    (hl : m.channels[id]? = some state) (hchannels : m'.channels = m.channels.insert id state')
    (hretired : m'.retiredChannels = m.retiredChannels) (htime : m'.virtualTime = m.virtualTime)
    (htag : state'.virtualFinish = state.virtualFinish) : m'.clock = m.clock := by
  have hold : some state'.virtualFinish = m.clock.tag id := by simp [clock, hl, htag]
  rw [clock_insert hchannels hretired, hold, Function.update_eq_self, htime]
  rfl

end Multiplexer

namespace MuxEvent

/-- The channel and the scheduling cost of a data frame that leaves. -/
def services (e : MuxEvent) : List (ChannelId × ℕ) :=
  match e.reply with
  | .outbound (some (.data envelope)) =>
    [(envelope.channelId,
      schedulingCost envelope.payload.length (e.pre.priorityOf envelope.channelId))]
  | _ => []

end MuxEvent

namespace Multiplexer
open RunHistory (event)
open FairQueue (Clock Step spent)
open MuxEvent

theorem clock_pushFrame {m : Multiplexer} {state charged : ChannelState} {envelope : Envelope}
    (waiting : Set ChannelId) (ha : m.Admissible state envelope)
    (htag : charged.virtualFinish = state.virtualFinish) :
    Step waiting m.clock [] (m.pushFrame charged envelope).clock := by
  unfold pushFrame
  split
  · refine .congr (clock_insert rfl rfl) ?_
    exact .join envelope.channelId charged.virtualFinish (by simp [clock, ha.live, htag])
  · exact .congr (clock_insert_same ha.live rfl rfl rfl htag) (.idle _)

theorem clock_emitted {m : Multiplexer} (hrep : m.RepInv) (hqueue : m.QueueInv) {index : ℕ}
    {id : ChannelId} {state : ChannelState} {envelope : Envelope} {queue : List Envelope}
    (hsel : m.Selected index id state envelope queue)
    (hmax : (m.emitted index id state envelope queue).TagsBelow) :
    Step m.backlogged m.clock
      [(envelope.channelId,
        schedulingCost envelope.payload.length (m.priorityOf envelope.channelId))]
      (m.emitted index id state envelope queue).clock := by
  have hchannel : envelope.channelId = id :=
    (hqueue id state hsel.live envelope (by simp [hsel.queue_eq])).channel
  have hpriority : m.priorityOf id = state.config.priorityHint := by simp [priorityOf, hsel.live]
  -- Below the ceiling the saturating addition of the source is an addition.
  have hlt : m.nextTag state envelope < u128Max := by
    have := hmax id { state with queue, virtualFinish := m.nextTag state envelope }
      (by simp [emitted])
    exact this
  have hnext : m.nextTag state envelope = max state.virtualFinish m.virtualTime+
      schedulingCost envelope.payload.length state.config.priorityHint := by
    unfold nextTag at hlt ⊢
    omega
  rw [hchannel, hpriority]
  refine .congr (clock_insert rfl rfl) ?_
  simp only [hnext]
  refine .serve id state.virtualFinish _ (by simp [clock, hsel.live]) ?_
  intro other hother t ht
  obtain ⟨state', hs', rfl⟩ := Option.map_eq_some_iff.mp ht
  -- The selection compares the channels in `ready`, which are the backlogged ones.
  have hne : state'.queue ≠ [] := by simpa [backlogged, queueOf_live hs'] using hother
  exact hsel.least other state' ((hrep.mem_ready other).mpr ⟨state', hs', hne⟩) hs' hne

/-- Each call is a step of the clock that serves what the call emits. -/
theorem step_clock {m : Multiplexer} (hrep : m.RepInv) (hqueue : m.QueueInv) (op : MuxOp)
    (hmax : (m.step op).2.TagsBelow) :
    Step m.backlogged m.clock (services (event step m op)) (m.step op).2.clock := by
  cases op <;> simp only [event, step, Prod.map_fst, Prod.map_snd, id_eq, services] at hmax ⊢
  case openChannel config =>
    obtain ⟨e, he⟩ | ⟨ho, he⟩ := openChannel_cases m config <;> rw [he]
    · exact .idle _
    · refine .congr (clock_insert rfl rfl) ?_
      exact .enter config.id (by simp [clock, ho.not_live]) ho.not_retired
  case enqueueControl payload =>
    obtain ⟨e, he⟩ | ⟨-, -, he⟩ := enqueueControl_cases m payload <;> rw [he] <;> exact .idle _
  case enqueue envelope =>
    obtain ⟨e, he⟩ | ⟨state, charged, ha, hs, he⟩ := enqueue_cases m envelope <;> rw [he]
    · exact .idle _
    · have hcharged := (chargeStream_ok hs).1
      exact clock_pushFrame _ ha (by rw [hcharged])
  case enqueueDiscardable envelope =>
    obtain ⟨e, he⟩ | he | ⟨state, ha, he⟩ := enqueueDiscardable_cases m envelope <;> rw [he]
    · exact .idle _
    · exact .idle _
    · exact clock_pushFrame _ ha rfl
  case nextOutbound =>
    obtain ⟨_, _, _, he⟩ | ⟨-, -, he⟩ | ⟨index, id, state, envelope, queue, -, hsel, he⟩ :=
      nextOutbound_cases m <;> rw [he] at hmax ⊢
    · exact .idle _
    · exact .idle _
    · exact clock_emitted hrep hqueue hsel hmax
  case cancelChannel id =>
    obtain ⟨e, he⟩ | ⟨state, hl, he⟩ := cancelChannel_cases m id <;> rw [he]
    · exact .idle _
    · exact .congr (clock_insert_same hl rfl rfl rfl rfl) (.idle _)
  case closeChannel id =>
    obtain ⟨e, he⟩ | ⟨state, hl, he⟩ := closeChannel_cases m id <;> rw [he]
    · exact .idle _
    -- A closed channel loses its tag and cannot enter again.
    · refine .congr ?_ (.leave id)
      simp only [clock, Clock.mk.injEq, true_and]
      constructor
      · funext k
        by_cases hk : id = k
        · simp [hk]
        · simp [hk, Ne.symm hk, ExtTreeMap.getElem?_erase]
      · ext k
        simp only [Set.mem_ofPred_eq, ExtTreeSet.mem_insert, Std.compare_eq_iff_eq,
          Set.mem_insert_iff]
        exact or_congr_left eq_comm
  case discardAll =>
    have hsame : (m.discardAll).2.clock = m.clock := by
      simp only [clock, discardAll, ExtTreeMap.getElem?_map, Option.map_map]
      rfl
    rw [hsame]
    exact .idle _

/-- What a channel has been served, as a sum of scheduling costs. -/
def serviceOf (id : ChannelId) (hist : List MuxEvent) : ℕ := spent id (hist.flatMap services)

/-- The largest scheduling cost of a frame of the channel, 0 if none has left. -/
def maxCost (id : ChannelId) (hist : List MuxEvent) : ℕ :=
  (((hist.flatMap services).filter fun p => p.1 = id).map Prod.snd).foldr max 0

theorem le_foldr_max {costs : List ℕ} {cost : ℕ} (h : cost ∈ costs) : cost ≤ costs.foldr max 0 := by
  induction costs with
  | nil => cases h
  | cons c costs ih =>
    rcases List.mem_cons.mp h with rfl | h
    · exact le_max_left _ _
    · exact (ih h).trans (le_max_right _ _)

theorem service_le_maxCost {hist : List MuxEvent} {e : MuxEvent} (he : e ∈ hist)
    {p : ChannelId × ℕ} (hp : p ∈ services e) : p.2 ≤ maxCost p.1 hist := by
  refine le_foldr_max (List.mem_map.mpr ⟨p, List.mem_filter.mpr ⟨?_, by simp⟩, rfl⟩)
  exact List.mem_flatMap.mpr ⟨e, he, hp⟩

/-- Before the interval: no tag runs ahead of the clock by more than one frame of its channel. -/
theorem within_run {m : Multiplexer} (h : m.Fresh) (cap : ChannelId → ℕ) (ops : List MuxOp)
    (htags : ∀ e ∈ RunHistory.trace step m ops, e.post.TagsBelow)
    (hcap : ∀ e ∈ RunHistory.trace step m ops, ∀ p ∈ services e, p.2 ≤ cap p.1) :
    FairQueue.Within cap (RunHistory.run step m ops).clock := by
  have hrun := RunHistory.run_history step (P := fun hist s => RunInv m s ∧
    ((∀ e ∈ hist, e.post.TagsBelow ∧ ∀ p ∈ services e, p.2 ≤ cap p.1) →
      FairQueue.Within cap s.clock)) (s := m) ?_ ?_ ops
  · exact hrun.2 fun e he => ⟨htags e he, hcap e he⟩
  · refine ⟨RunInv.fresh h, fun _ id t ht => ?_⟩
    rw [h.eq_empty] at ht
    simp [clock] at ht
  · rintro hist s op ⟨hinv, hw⟩
    refine ⟨hinv.step op, fun hall => ?_⟩
    obtain ⟨htag, hc⟩ := hall _ (List.mem_append_right _ (List.mem_singleton_self _))
    -- The conditions on the history so far are those on the longer one, restricted.
    exact (hw fun e he => hall e (List.mem_append_left _ he)).step
      (step_clock hinv.rep hinv.queue op htag) hc

/-- An emission happens in a call of `next_outbound`. -/
theorem services_ne_nil {m : Multiplexer} {op : MuxOp} (h : services (event step m op) ≠ []) :
    op = .nextOutbound := by
  cases op <;> simp_all [services, event, step]

/-- The interval itself: `i` is backlogged at every call of `next_outbound`. -/
theorem interval_run {m start : Multiplexer} (hstart : RunInv m start) (cap : ChannelId → ℕ)
    (hwithin : FairQueue.Within cap start.clock) (ops : List MuxOp) {i j : ChannelId} (hij : i ≠ j)
    (htags : ∀ e ∈ RunHistory.trace step start ops, e.post.TagsBelow)
    (hcap : ∀ e ∈ RunHistory.trace step start ops, ∀ p ∈ services e, p.2 ≤ cap p.1)
    (hback : ∀ e ∈ RunHistory.trace step start ops, e.input = .nextOutbound →
      e.pre.queueOf i ≠ []) :
    FairQueue.Interval cap start.clock.time i j (serviceOf i (RunHistory.trace step start ops))
      (serviceOf j (RunHistory.trace step start ops)) (RunHistory.run step start ops).clock := by
  have hrun := RunHistory.run_history step (P := fun hist s => RunInv m s ∧
    ((∀ e ∈ hist, e.post.TagsBelow ∧ (∀ p ∈ services e, p.2 ≤ cap p.1) ∧
      (e.input = .nextOutbound → e.pre.queueOf i ≠ [])) →
      FairQueue.Interval cap start.clock.time i j (serviceOf i hist) (serviceOf j hist) s.clock))
    (s := start) ?_ ?_ ops
  · exact hrun.2 fun e he => ⟨htags e he, hcap e he, hback e he⟩
  · exact ⟨hstart, fun _ => .begin hwithin i j⟩
  · rintro hist s op ⟨hinv, hint⟩
    refine ⟨hinv.step op, fun hall => ?_⟩
    obtain ⟨htag, hc, hb⟩ := hall _ (List.mem_append_right _ (List.mem_singleton_self _))
    simp only [serviceOf, List.flatMap_append, List.flatMap_singleton, FairQueue.spent_append]
    refine (hint fun e he => hall e (List.mem_append_left _ he)).step hij
      (step_clock hinv.rep hinv.queue op htag) hc fun hne => ?_
    -- Only `next_outbound` serves, and there `i` is backlogged by assumption.
    have hq : s.queueOf i ≠ [] := hb (services_ne_nil hne)
    refine ⟨hq, fun hnone => hq (queueOf_dead ?_)⟩
    simpa [clock] using hnone

theorem Fresh.maxFrameBytes_pos {m : Multiplexer} (h : m.Fresh) : 0 < m.limits.maxFrameBytes := by
  have hnew {sessionId limits m} (hm : Multiplexer.new sessionId limits = .ok m) :
      0 < m.limits.maxFrameBytes := by
    unfold Multiplexer.new at hm
    split at hm
    · cases hm
    next hpos =>
      cases hm
      exact Nat.pos_of_ne_zero (not_or.mp hpos).1
  cases h with
  | new hm => exact hnew hm
  | restricted hm =>
    unfold Multiplexer.restricted at hm
    split at hm
    · cases hm
    next m' hm' =>
      have hlimits := hnew hm'
      cases hm
      exact hlimits

theorem services_bounds {m : Multiplexer} (hrep : m.RepInv) (hqueue : m.QueueInv)
    (hpos : 0 < m.limits.maxFrameBytes) (op : MuxOp) :
    ∀ p ∈ services (event step m op), 0 < p.2 ∧ p.2 ≤ priorityBands*m.limits.maxFrameBytes := by
  intro p hp
  unfold services at hp
  split at hp
  · next envelope hreply =>
    have hem := emission_of_reply hrep hqueue hreply
    obtain rfl := List.mem_singleton.mp hp
    -- A frame that leaves is within the frame limit, which bounds its cost.
    refine ⟨schedulingCost_pos _ _, (schedulingCost_le _ _).trans (Nat.mul_le_mul_left _ ?_)⟩
    exact max_le hem.frame_le hpos
  · cases hp

theorem trace_services_bounds {m start : Multiplexer} (hstart : RunInv m start)
    (hpos : 0 < m.limits.maxFrameBytes) (ops : List MuxOp) :
    ∀ e ∈ RunHistory.trace step start ops, ∀ p ∈ services e,
      0 < p.2 ∧ p.2 ≤ priorityBands*m.limits.maxFrameBytes := by
  intro e he p hp
  obtain ⟨hinv, heq⟩ := RunHistory.trace_invariant step (I := RunInv m) (fun _ op hs => hs.step op)
    hstart ops e he
  rw [heq] at hp
  have hlimits := hinv.limits
  simpa only [hlimits] using services_bounds hinv.rep hinv.queue (hlimits ▸ hpos) e.input p hp

theorem serviceOf_eq_zero {id : ChannelId} {hist : List MuxEvent}
    (h : hist.flatMap (emittedData id) = []) : serviceOf id hist = 0 := by
  have hnone : (hist.flatMap services).filter (fun p => p.1 = id) = [] := by
    refine List.filter_eq_nil_iff.mpr fun p hp => ?_
    obtain ⟨e, he, hpe⟩ := List.mem_flatMap.mp hp
    have hempty : emittedData id e = [] := List.flatMap_eq_nil_iff.mp h e he
    unfold services at hpe
    unfold emittedData at hempty
    split at hpe
    · next envelope hreply =>
      obtain rfl := List.mem_singleton.mp hpe
      simp only [hreply] at hempty
      grind
    · cases hpe
  simp [serviceOf, spent, hnone]

/-- The channels that are open or were closed, never more than `max_channels`. -/
def knownChannels (m : Multiplexer) : Finset ChannelId :=
  (m.channels.keys ++ m.retiredChannels.toList).toFinset

theorem RepInv.card_knownChannels_le {m : Multiplexer} (h : m.RepInv) :
    m.knownChannels.card ≤ m.limits.maxChannels := by
  refine (List.toFinset_card_le _).trans ?_
  rw [List.length_append, ExtTreeMap.length_keys, ExtTreeSet.length_toList]
  exact h.lifetime_le

theorem mem_knownChannels {m : Multiplexer} {id : ChannelId}
    (h : m.clock.tag id ≠ none ∨ id ∈ m.clock.retired) : id ∈ m.knownChannels := by
  rw [knownChannels, List.mem_toFinset, List.mem_append]
  rcases h with hl | hr
  · left
    rw [ExtTreeMap.mem_keys]
    by_contra hn
    exact hl (by simp [clock, hn])
  · right
    exact ExtTreeSet.mem_toList.mpr hr

/-- While `i` waits unserved, every other channel sends at most as many frames as the two
largest costs allow, and only known channels send. -/
theorem starved_interval_is_short {m start : Multiplexer} (hstart : RunInv m start)
    (hpos : 0 < m.limits.maxFrameBytes) (ops : List MuxOp) {i : ChannelId}
    (hint : ∀ j, j ≠ i → FairQueue.Interval (fun _ => priorityBands*m.limits.maxFrameBytes)
      start.clock.time i j (serviceOf i (RunHistory.trace step start ops))
      (serviceOf j (RunHistory.trace step start ops)) (RunHistory.run step start ops).clock)
    (hnone : serviceOf i (RunHistory.trace step start ops) = 0) :
    ((RunHistory.trace step start ops).flatMap services).length ≤
      m.limits.maxChannels*(2*(priorityBands*m.limits.maxFrameBytes)) := by
  have hend : RunInv m (RunHistory.run step start ops) :=
    RunHistory.run_invariant step (fun _ op hs => hs.step op) hstart ops
  have hcost : ∀ p ∈ (RunHistory.trace step start ops).flatMap services, 0 < p.2 := by
    intro p hp
    obtain ⟨e, he, hpe⟩ := List.mem_flatMap.mp hp
    exact (trace_services_bounds hstart hpos ops e he p hpe).1
  have hcount (j : ChannelId) := FairQueue.count_le_spent j hcost
  -- A channel that sends has received something, so it is not the starved one.
  have hserved : ∀ p ∈ (RunHistory.trace step start ops).flatMap services,
      p.1 ≠ i ∧ serviceOf p.1 (RunHistory.trace step start ops) ≠ 0 := by
    intro p hp
    have hone : 0 < (((RunHistory.trace step start ops).flatMap services).map Prod.fst).count p.1 :=
      List.count_pos_iff.mpr (List.mem_map_of_mem hp)
    have hne : serviceOf p.1 (RunHistory.trace step start ops) ≠ 0 :=
      (hone.trans_le (hcount p.1)).ne'
    exact ⟨fun hi => hne (hi ▸ hnone), hne⟩
  have hmem : ∀ p ∈ (RunHistory.trace step start ops).flatMap services,
      p.1 ∈ (RunHistory.run step start ops).knownChannels := by
    intro p hp
    obtain ⟨hi, hne⟩ := hserved p hp
    exact mem_knownChannels ((hint p.1 hi).known hne)
  -- Each service costs at least one, so the service bound is a bound on the count.
  have hbound (j : ChannelId) :
      (((RunHistory.trace step start ops).flatMap services).map Prod.fst).count j ≤
        2*(priorityBands*m.limits.maxFrameBytes) := by
    refine (hcount j).trans ?_
    by_cases hj : j = i
    · exact (hj ▸ hnone).le.trans (Nat.zero_le _)
    · have := (hint j hj).bound
      simp only [serviceOf] at this hnone
      omega
  refine (FairQueue.length_le_of_count_le hmem hbound).trans (Nat.mul_le_mul_right _ ?_)
  exact hend.limits ▸ hend.rep.card_knownChannels_le

/-- A channel that is backlogged at every `next_outbound` of an interval keeps up with every
other channel to within one frame of each, and is served before more frames leave than
`max_channels` channels can send. -/
theorem backlogged_channel_is_served_fairly {m : Multiplexer} (h : m.Fresh)
    (before interval : List MuxOp) {i : ChannelId}
    (htags : ∀ e ∈ RunHistory.trace step m (before ++ interval), e.post.TagsBelow)
    (hback : ∀ e ∈ RunHistory.trace step (RunHistory.run step m before) interval,
      e.input = .nextOutbound → e.pre.queueOf i ≠ []) :
    (∀ j, j ≠ i →
      serviceOf j (RunHistory.trace step (RunHistory.run step m before) interval) ≤
        serviceOf i (RunHistory.trace step (RunHistory.run step m before) interval)+
          maxCost i (RunHistory.trace step m (before ++ interval))+
          maxCost j (RunHistory.trace step m (before ++ interval))) ∧
    (m.limits.maxChannels*(2*(priorityBands*m.limits.maxFrameBytes)) <
        ((RunHistory.trace step (RunHistory.run step m before) interval).flatMap services).length →
      (RunHistory.trace step (RunHistory.run step m before) interval).flatMap
        (emittedData i) ≠ []) := by
  have hstart : RunInv m (RunHistory.run step m before) :=
    RunHistory.run_invariant step (fun _ op hs => hs.step op) (RunInv.fresh h) before
  have hsplit := RunHistory.trace_append step m before interval
  -- One interval argument for both parts; they differ in the cap they use.
  have hint (cap : ChannelId → ℕ)
      (hcap : ∀ e ∈ RunHistory.trace step m (before ++ interval), ∀ p ∈ services e, p.2 ≤ cap p.1)
      (j : ChannelId) (hij : i ≠ j) := by
    rw [hsplit] at hcap htags
    have hwithin := within_run h cap before
      (fun e he => htags e (List.mem_append_left _ he))
      (fun e he => hcap e (List.mem_append_left _ he))
    exact interval_run hstart cap hwithin interval hij
      (fun e he => htags e (List.mem_append_right _ he))
      (fun e he => hcap e (List.mem_append_right _ he)) hback
  refine ⟨fun j hj => ?_, fun hlong hnone => ?_⟩
  · exact (hint (fun k => maxCost k (RunHistory.trace step m (before ++ interval)))
      (fun e he p hp => service_le_maxCost he hp) j hj.symm).bound
  · refine absurd hlong (not_lt.mpr ?_)
    refine starved_interval_is_short hstart h.maxFrameBytes_pos interval (fun j hj => ?_)
      (serviceOf_eq_zero hnone)
    exact hint _ (fun e he p hp => (trace_services_bounds (RunInv.fresh h) h.maxFrameBytes_pos _
      e he p hp).2) j hj.symm

theorem sample_backlog_is_served_fairly :
    ∃ m, Multiplexer.new Sample.sessionId {} = .ok m ∧
      serviceOf ⟨2⟩ (RunHistory.trace step (RunHistory.run step m (Sample.ops.take 6))
          [.nextOutbound, .nextOutbound]) ≤
        serviceOf ⟨1⟩ (RunHistory.trace step (RunHistory.run step m (Sample.ops.take 6))
          [.nextOutbound, .nextOutbound])+
        maxCost ⟨1⟩ (RunHistory.trace step m (Sample.ops.take 6 ++ [.nextOutbound, .nextOutbound]))+
        maxCost ⟨2⟩ (RunHistory.trace step m
          (Sample.ops.take 6 ++ [.nextOutbound, .nextOutbound])) :=
  ⟨_, rfl, (backlogged_channel_is_served_fairly (@Fresh.new Sample.sessionId {} _ rfl)
    (Sample.ops.take 6) [.nextOutbound, .nextOutbound] (by decide) (by decide)).1 ⟨2⟩ (by decide)⟩

end Multiplexer

end MutsukiLink
