import MutsukiLink.RealtimeModel
import MutsukiLink.RunHistory

/-! What the operations of the send queue do to its groups: apart from `enqueue` they only take
away, so whatever holds of every accepted datagram holds of every popped one. -/
namespace MutsukiLink
open Std WireBytes

namespace RealtimeSendQueue
variable {q q' : RealtimeSendQueue}

/-- The second queue has no group that the first has not. -/
def Fewer (q q' : RealtimeSendQueue) : Prop :=
  ∀ (flow : RealtimeFlowId) (group : PendingGroup), q'.groups[flow]? = some group →
    q.groups[flow]? = some group

theorem Fewer.refl (q : RealtimeSendQueue) : Fewer q q := fun _ _ h => h

theorem Fewer.trans {q'' : RealtimeSendQueue} (h : Fewer q q') (h' : Fewer q' q'') :
    Fewer q q'' := fun flow group hgroup => h flow group (h' flow group hgroup)

/-- Only the groups count. -/
theorem Fewer.of_groups (h : q'.groups = q.groups) : Fewer q q' := fun flow group hgroup => by
  rwa [h] at hgroup

theorem Fewer.erase (q : RealtimeSendQueue) (flow : RealtimeFlowId) :
    Fewer q { q with groups := q.groups.erase flow } := by
  intro flow' group hgroup
  rw [ExtTreeMap.getElem?_erase] at hgroup
  split at hgroup
  · cases hgroup
  · exact hgroup

theorem dropFlowGroup_fewer (q : RealtimeSendQueue) (flow : RealtimeFlowId) (reason : DropReason) :
    Fewer q (q.dropFlowGroup flow reason).2 := by
  unfold dropFlowGroup
  split
  · exact .refl q
  · cases reason <;> exact Fewer.erase q flow

theorem dropFlowGroups_fewer (q : RealtimeSendQueue) (flows : List RealtimeFlowId)
    (reason : DropReason) : Fewer q (q.dropFlowGroups flows reason).2 := by
  unfold dropFlowGroups
  generalize 0 = dropped
  induction flows generalizing q dropped with
  | nil => exact .refl q
  | cons flow rest ih => exact (dropFlowGroup_fewer q flow reason).trans (ih _ _)

theorem expire_fewer (q : RealtimeSendQueue) (now : ℕ) : Fewer q (q.expire now).2 :=
  dropFlowGroups_fewer _ _ _

theorem evictLowerPriority_fewer (q : RealtimeSendQueue) (incoming : RealtimePriority) :
    Fewer q (q.evictLowerPriority incoming).2 := by
  unfold evictLowerPriority
  simp only
  split
  · exact dropFlowGroup_fewer _ _ _
  · exact .refl q

theorem setMaxPayload_fewer (q : RealtimeSendQueue) (maxPayload : ℕ) :
    Fewer q (q.setMaxPayload maxPayload).2 := by
  unfold setMaxPayload
  split
  · exact .refl q
  split
  · exact .refl q
  simp only
  split
  · exact Fewer.trans (.of_groups rfl) (dropFlowGroups_fewer _ _ _)
  · exact .of_groups rfl

theorem clearPending_fewer (q : RealtimeSendQueue) : Fewer q q.clearPending := by
  intro flow group hgroup
  rw [clearPending, ExtTreeMap.getElem?_empty] at hgroup
  cases hgroup

/-- A property of everything that is queued. -/
def Carries (P : RealtimeFlowId → UInt32 → UInt64 → Bytes → Prop) (q : RealtimeSendQueue) : Prop :=
  ∀ (flow : RealtimeFlowId) (group : PendingGroup), q.groups[flow]? = some group →
    ∀ payload ∈ group.datagrams, P flow group.generation group.sequence payload

variable {P : RealtimeFlowId → UInt32 → UInt64 → Bytes → Prop}

theorem Carries.fewer (h : Carries P q) (hfewer : Fewer q q') : Carries P q' :=
  fun flow group hgroup => h flow group (hfewer flow group hgroup)

theorem Carries.mono {P' : RealtimeFlowId → UInt32 → UInt64 → Bytes → Prop} (h : Carries P q)
    (himp : ∀ flow g s payload, P flow g s payload → P' flow g s payload) : Carries P' q :=
  fun flow group hgroup payload hpayload => himp _ _ _ _ (h flow group hgroup payload hpayload)

/-- One group is put in place of another. -/
theorem Carries.insert (h : Carries P q) {flow : RealtimeFlowId} {group : PendingGroup}
    (hgroup : ∀ payload ∈ group.datagrams, P flow group.generation group.sequence payload)
    (hq' : q'.groups = q.groups.insert flow group) : Carries P q' := by
  intro flow' group' hgroup'
  rw [hq', ExtTreeMap.getElem?_insert] at hgroup'
  split at hgroup'
  · next heq =>
    obtain rfl := LawfulEqCmp.eq_of_compare heq
    obtain rfl := Option.some.inj hgroup'
    exact hgroup
  · exact h flow' group' hgroup'

theorem Carries.startGroup (h : Carries P q) {datagram : RealtimeDatagram}
    (hd : P datagram.flow datagram.generation datagram.sequence datagram.payload) :
    Carries P (q.startGroup datagram).2 := by
  refine (h.fewer (dropFlowGroup_fewer q datagram.flow .replaced)).insert
    ?_ rfl
  intro payload hpayload
  rwa [List.mem_singleton.mp hpayload]

theorem Carries.appendToGroup (h : Carries P q) {datagram : RealtimeDatagram}
    {group : PendingGroup} (hgroup : q.groups[datagram.flow]? = some group)
    (hd : P datagram.flow group.generation group.sequence datagram.payload) :
    Carries P (q.appendToGroup datagram group).2 := by
  unfold RealtimeSendQueue.appendToGroup
  simp only
  split
  · exact h
  split
  · exact h.fewer (Fewer.trans (Fewer.erase q datagram.flow) (.of_groups rfl))
  · refine h.insert ?_ rfl
    intro payload hpayload
    rcases List.mem_append.mp hpayload with hold | hnew
    · exact h datagram.flow group hgroup payload hold
    · rwa [List.mem_singleton.mp hnew]

theorem compareGroup_same {g g' : UInt32} {s s' : UInt64} (h : compareGroup g s g' s' = .same) :
    g = g' ∧ s = s' := by
  unfold compareGroup at h
  split at h
  · next hg =>
    split at h
    · next hs => exact ⟨hg, hs⟩
    · split at h <;> cases h
  · split at h <;> cases h

/-- A datagram is queued under its own generation and sequence, or not at all. -/
theorem Carries.enqueue (h : Carries P q) {datagram : RealtimeDatagram} (now : ℕ)
    (hd : P datagram.flow datagram.generation datagram.sequence datagram.payload) :
    Carries P (q.enqueue datagram now).2 := by
  have hexpired := h.fewer (expire_fewer q now)
  unfold RealtimeSendQueue.enqueue
  simp only
  split
  · exact hexpired
  split
  · exact hexpired.fewer (.of_groups rfl)
  split
  · next group hgroup =>
    split
    · exact hexpired.fewer (.of_groups rfl)
    · next hsame =>
      obtain ⟨hg, hs⟩ := compareGroup_same hsame
      exact hexpired.appendToGroup hgroup (hg ▸ hs ▸ hd)
    · exact hexpired.startGroup hd
  · split
    · have hevicted := hexpired.fewer (evictLowerPriority_fewer _ datagram.priority)
      split
      · next q' heq =>
        rw [heq] at hevicted
        exact hevicted.fewer (.of_groups rfl)
      · next q' heq =>
        rw [heq] at hevicted
        exact hevicted.startGroup hd
    · exact hexpired.startGroup hd

/-- A popped datagram was queued under the key that it carries. -/
theorem Carries.popFlow (h : Carries P q) (flow : RealtimeFlowId) :
    Carries P (q.popFlow flow).2 ∧ ∀ d, (q.popFlow flow).1 = some d →
      P d.flow d.generation d.sequence d.payload := by
  unfold RealtimeSendQueue.popFlow
  split
  · exact ⟨h, nofun⟩
  next group hgroup =>
  split
  · exact ⟨h, nofun⟩
  next payload datagrams hdatagrams =>
  have hmem := h flow group hgroup
  rw [hdatagrams] at hmem
  refine ⟨?_, fun d hd => ?_⟩
  · by_cases hempty : datagrams = []
    · simp only [if_pos hempty]
      exact h.fewer (Fewer.erase q flow)
    · simp only [if_neg hempty]
      refine Carries.insert h ?_ rfl
      exact fun payload' hpayload' => hmem payload' (List.mem_cons_of_mem _ hpayload')
  · obtain rfl := Option.some.inj hd
    exact hmem payload List.mem_cons_self

theorem Carries.popNext (h : Carries P q) (now : ℕ) :
    Carries P (q.popNext now).2 ∧ ∀ d, (q.popNext now).1 = some d →
      P d.flow d.generation d.sequence d.payload := by
  have hexpired := h.fewer (expire_fewer q now)
  unfold RealtimeSendQueue.popNext
  simp only
  split
  · exact ⟨hexpired, nofun⟩
  · exact hexpired.popFlow _

theorem Carries.popNextFitting (h : Carries P q) (now maxWireLen : ℕ) :
    Carries P (q.popNextFitting now maxWireLen).2 ∧
      ∀ d, (q.popNextFitting now maxWireLen).1 = some d →
        P d.flow d.generation d.sequence d.payload := by
  have hexpired := h.fewer (expire_fewer q now)
  unfold RealtimeSendQueue.popNextFitting
  simp only
  split
  · exact ⟨hexpired, nofun⟩
  split
  · exact ⟨hexpired, nofun⟩
  · exact hexpired.popFlow _

theorem carries_new {config : RealtimeQueueConfig} {maxPayload : ℕ}
    (h : RealtimeSendQueue.new config maxPayload = .ok q) : Carries P q := by
  unfold RealtimeSendQueue.new at h
  split at h
  · cases h
  · obtain rfl := Except.ok.inj h
    intro flow group hgroup
    rw [ExtTreeMap.getElem?_empty] at hgroup
    cases hgroup

end RealtimeSendQueue

theorem RealtimePriority.fromCode_code (p : RealtimePriority) : fromCode p.code = .ok p := by
  cases p <;> rfl

/-- The numbers of a datagram stand where the decoder looks for them. -/
theorem realtime_numbers (flow generation sequence : ℕ) (payload : Bytes) :
    let tail := beBytes 2 flow ++ (beBytes 4 generation ++ (beBytes 8 sequence ++ payload))
    tail.take 2 = beBytes 2 flow ∧ (tail.drop 2).take 4 = beBytes 4 generation ∧
      (tail.drop 6).take 8 = beBytes 8 sequence ∧ tail.drop 14 = payload := by
  intro tail
  have hcut : cut [2, 4, 8] tail =
      [beBytes 2 flow, beBytes 4 generation, beBytes 8 sequence, payload] := by
    have hfields := cut_flatten [beBytes 2 flow, beBytes 4 generation, beBytes 8 sequence] payload
    simpa only [List.map_cons, List.map_nil, length_beBytes, List.flatten_append,
      List.flatten_cons, List.flatten_nil, List.append_nil, List.append_assoc, List.cons_append,
      List.nil_append] using hfields
  simp only [cut, List.drop_drop, Nat.reduceAdd, List.cons.injEq, and_true] at hcut
  exact hcut

/-- The receiver reads what the sender wrote. -/
theorem decode_encode_realtime {d : QueuedRealtimeDatagram} {wire : Bytes}
    (h : encodeRealtimeDatagram d = .ok wire) (receivedAt : ℕ) :
    decodeRealtimeDatagram wire receivedAt = .ok {
      flow := d.flow, generation := d.generation, sequence := d.sequence, priority := d.priority
      receivedAt, payload := d.payload } := by
  unfold encodeRealtimeDatagram at h
  split at h
  · cases h
  replace h := Except.ok.inj h
  obtain ⟨hflow, hgeneration, hsequence, hpayload⟩ := realtime_numbers d.flow.val.toNat
    d.generation.toNat d.sequence.toNat d.payload
  -- The six bytes before the numbers are literal, so the offsets count from behind them.
  replace hflow : (wire.drop 6).take 2 = beBytes 2 d.flow.val.toNat := h ▸ hflow
  replace hgeneration : (wire.drop 8).take 4 = beBytes 4 d.generation.toNat := h ▸ hgeneration
  replace hsequence : (wire.drop 12).take 8 = beBytes 8 d.sequence.toNat := h ▸ hsequence
  replace hpayload : wire.drop realtimeDatagramHeaderLen = d.payload := h ▸ hpayload
  have hheader : wire.take 4 = realtimeMagic ∧ wire.getD 4 0 = realtimeVersion ∧
      wire.getD 5 0 = d.priority.code := h ▸ ⟨rfl, rfl, rfl⟩
  have hlong : ¬wire.length < realtimeDatagramHeaderLen := by
    rw [← h]
    simp only [List.length_append, length_beBytes, realtimeMagic, realtimeDatagramHeaderLen,
      List.length_cons, List.length_nil]
    omega
  rw [decodeRealtimeDatagram, if_neg hlong, if_neg (by simp only [hheader, ne_eq,
    not_true_eq_false, or_false, not_false_eq_true])]
  simp only [hheader, RealtimePriority.fromCode_code, hflow, hgeneration, hsequence, hpayload]
  rw [ofBeBytes_beBytes 2 _ d.flow.val.toNat_lt, ofBeBytes_beBytes 4 _ d.generation.toNat_lt,
    ofBeBytes_beBytes 8 _ d.sequence.toNat_lt, UInt16.ofNat_toNat, UInt32.ofNat_toNat,
    UInt64.ofNat_toNat]

end MutsukiLink
