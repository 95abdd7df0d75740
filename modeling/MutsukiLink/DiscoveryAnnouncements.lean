import MutsukiLink.ManualDiscovery

/-! What a manual discovery provider may say of a candidate: after each time it was added, one
announcement before its time is over and one expiry after it, in this order, and nothing else. Both
loops of a poll are sequences of two kinds of emission, and each emission keeps the law. -/
namespace MutsukiLink
open RunHistory
open Std (ExtTreeMap)

namespace ManualDiscovery
variable {limit : RateLimit} {m m' : ManualDiscovery} {now : ℕ}

/-- What is queued is listed with the same expiry, no candidate is queued twice, and no more are
listed than there may be. -/
structure Kept (limit : RateLimit) (m : ManualDiscovery) : Prop where
  limit_eq : m.limiter.limit = limit
  listed : ∀ event ∈ m.pending, ∃ peer, event = .found peer ∧
    m.active[peer.discoveryId]? = some peer.expiresAt
  once : ∀ id, m.pending.countP (DiscoveryEvent.announces id) ≤ 1
  bounded : m.active.size ≤ limit.maxCandidates

/-- The emissions of a poll: a candidate whose time is over leaves the books, or the front of the
queue is announced in time. -/
inductive Emits (now : ℕ) (m : ManualDiscovery) : DiscoveryEvent → ManualDiscovery → Prop
  | expire {id : DiscoveryId} {expiresAt : ℕ} :
    m.active[id]? = some expiresAt → expiresAt ≤ now → Emits now m (.expired id) (m.expire id)
  | announce {peer : DiscoveredPeer} {rest : List DiscoveryEvent} :
    m.pending = .found peer :: rest → now < peer.expiresAt →
      Emits now m (.found peer) { m with pending := rest }

/-- The emissions of a whole poll, in order. -/
inductive EmitsAll (now : ℕ) : ManualDiscovery → List DiscoveryEvent → ManualDiscovery → Prop
  | nil {m : ManualDiscovery} : EmitsAll now m [] m
  | cons {m m' m'' : ManualDiscovery} {event : DiscoveryEvent} {events : List DiscoveryEvent} :
    Emits now m event m' → EmitsAll now m' events m'' → EmitsAll now m (event :: events) m''

theorem EmitsAll.append {m'' : ManualDiscovery} {events events' : List DiscoveryEvent}
    (h : EmitsAll now m events m') (h' : EmitsAll now m' events' m'') :
    EmitsAll now m (events ++ events') m'' := by
  induction h with
  | nil => exact h'
  | cons hfirst _ ih => exact .cons hfirst (ih h')

/-- Nothing is announced when its time is over. -/
theorem EmitsAll.early {events : List DiscoveryEvent} (h : EmitsAll now m events m')
    {peer : DiscoveredPeer} (hpeer : .found peer ∈ events) : now < peer.expiresAt := by
  induction h with
  | nil => cases hpeer
  | cons hfirst _ ih =>
    rcases List.mem_cons.mp hpeer with rfl | hrest
    · cases hfirst
      assumption
    · exact ih hrest

section Queue

theorem countP_forget (m : ManualDiscovery) (id id' : DiscoveryId) :
    (m.forget id).countP (DiscoveryEvent.announces id') ≤
      m.pending.countP (DiscoveryEvent.announces id') :=
  List.Sublist.countP_le List.filter_sublist

theorem countP_forget_self (m : ManualDiscovery) (id : DiscoveryId) :
    (m.forget id).countP (DiscoveryEvent.announces id) = 0 := by
  rw [List.countP_eq_zero]
  intro event hevent
  simpa using (List.mem_filter.mp hevent).2

theorem announces_found (id : DiscoveryId) (peer : DiscoveredPeer) :
    (DiscoveryEvent.found peer).announces id = true ↔ peer.discoveryId = id :=
  decide_eq_true_iff

theorem mem_forget {id : DiscoveryId} {peer : DiscoveredPeer} :
    DiscoveryEvent.found peer ∈ m.forget id ↔ .found peer ∈ m.pending ∧ peer.discoveryId ≠ id := by
  rw [forget, List.mem_filter, Bool.not_eq_true', ← Bool.not_eq_true, announces_found]

/-- A queue that announces each candidate once loses only its front when that is forgotten. -/
theorem forget_front {peer : DiscoveredPeer} {rest : List DiscoveryEvent}
    (h : m.pending = .found peer :: rest)
    (honce : m.pending.countP (DiscoveryEvent.announces peer.discoveryId) ≤ 1) :
    m.forget peer.discoveryId = rest := by
  have hfront : (DiscoveryEvent.found peer).announces peer.discoveryId = true :=
    (announces_found _ _).mpr rfl
  rw [h, List.countP_cons_of_pos hfront] at honce
  have hrest : rest.countP (DiscoveryEvent.announces peer.discoveryId) = 0 := by omega
  rw [List.countP_eq_zero] at hrest
  rw [forget, h, List.filter_cons_of_neg (by simpa using hfront), List.filter_eq_self]
  intro event hevent
  simpa using hrest event hevent

end Queue

/-- An emission keeps the books. -/
theorem Kept.emits {event : DiscoveryEvent} (h : Kept limit m) (he : Emits now m event m') :
    Kept limit m' := by
  cases he with
  | @expire id expiresAt hactive hdue =>
    refine ⟨h.limit_eq, fun event hevent => ?_, fun id' => ?_, ?_⟩
    · obtain ⟨peer, rfl, hlisted⟩ := h.listed event (List.mem_of_mem_filter hevent)
      have hne := (mem_forget.mp hevent).2
      refine ⟨peer, rfl, ?_⟩
      rw [expire, OrderedMap.lookup_erase, if_neg (Ne.symm hne)]
      exact hlisted
    · exact (countP_forget m id id').trans (h.once id')
    · exact ExtTreeMap.size_erase_le.trans h.bounded
  | @announce peer rest hpending hearly =>
    refine ⟨h.limit_eq, fun event hevent => ?_, fun id => ?_, h.bounded⟩
    · exact h.listed event (hpending ▸ List.mem_cons_of_mem _ hevent)
    · have hsub : rest.Sublist m.pending := hpending ▸ List.sublist_cons_self _ _
      exact (hsub.countP_le).trans (h.once id)

theorem Kept.emitsAll {events : List DiscoveryEvent} (h : Kept limit m)
    (he : EmitsAll now m events m') : Kept limit m' := by
  induction he with
  | nil => exact h
  | cons hfirst _ ih => exact ih (h.emits hfirst)

section Poll

/-- The first loop: different candidates whose time is over. -/
theorem expire_emits {ids : List DiscoveryId} (hnodup : ids.Nodup)
    (hdue : ∀ id ∈ ids, ∃ expiresAt, m.active[id]? = some expiresAt ∧ expiresAt ≤ now) :
    EmitsAll now m (ids.map .expired) (ids.foldl expire m) := by
  induction ids generalizing m with
  | nil => exact .nil
  | cons id rest ih =>
    obtain ⟨hnew, hrest⟩ := List.nodup_cons.mp hnodup
    obtain ⟨expiresAt, hactive, hle⟩ := hdue id List.mem_cons_self
    refine .cons (.expire hactive hle) (ih hrest fun id' hid' => ?_)
    obtain ⟨expiresAt', hactive', hle'⟩ := hdue id' (List.mem_cons_of_mem _ hid')
    have hne : id ≠ id' := fun heq => hnew (heq ▸ hid')
    refine ⟨expiresAt', ?_, hle'⟩
    rw [expire, OrderedMap.lookup_erase, if_neg hne]
    exact hactive'

/-- The second loop takes the queue from its front until the budget is used up. -/
theorem drain_emits (h : Kept limit m) (now budget : ℕ) :
    EmitsAll now m (drain now budget m).1 (drain now budget m).2 ∧
      (drain now budget m).1.length ≤ budget := by
  induction budget generalizing m with
  | zero => exact ⟨.nil, le_rfl⟩
  | succ budget ih =>
    cases hpending : m.pending with
    | nil =>
      rw [drain, hpending]
      exact ⟨.nil, Nat.zero_le _⟩
    | cons event rest =>
      obtain ⟨peer, rfl, hlisted⟩ := h.listed event (hpending ▸ List.mem_cons_self)
      -- The branch that the first loop has left for want of budget: its entry in the map goes, too.
      by_cases hdue : peer.expiresAt ≤ now
      · have hexpire : m.expire peer.discoveryId =
            { m with pending := rest, active := m.active.erase peer.discoveryId } := by
          rw [expire, forget_front hpending (h.once _)]
        have hfirst : Emits now m (.expired peer.discoveryId) (m.expire peer.discoveryId) :=
          .expire hlisted hdue
        obtain ⟨hrest, hlen⟩ := ih (h.emits hfirst)
        rw [hexpire] at hfirst hrest hlen
        simp only [drain, hpending, if_pos hdue]
        exact ⟨.cons hfirst hrest, Nat.succ_le_succ hlen⟩
      · have hfirst : Emits now m (.found peer) { m with pending := rest } :=
          .announce hpending (not_le.mp hdue)
        obtain ⟨hrest, hlen⟩ := ih (h.emits hfirst)
        simp only [drain, hpending, if_neg hdue]
        exact ⟨.cons hfirst hrest, Nat.succ_le_succ hlen⟩

theorem expiredIds_spec (m : ManualDiscovery) (now budget : ℕ) :
    (m.expiredIds now budget).Nodup ∧ (m.expiredIds now budget).length ≤ budget ∧
      ∀ id ∈ m.expiredIds now budget,
        ∃ expiresAt, m.active[id]? = some expiresAt ∧ expiresAt ≤ now := by
  refine ⟨?_, List.length_take_le _ _, fun id hid => ?_⟩
  · refine List.Nodup.sublist (List.take_sublist _ _) ?_
    refine List.Nodup.sublist (List.Sublist.map _ List.filter_sublist) ?_
    rw [ExtTreeMap.map_fst_toList_eq_keys]
    exact ExtTreeMap.nodup_keys
  · obtain ⟨entry, hentry, rfl⟩ := List.mem_map.mp (List.mem_of_mem_take hid)
    obtain ⟨hmem, hdue⟩ := List.mem_filter.mp hentry
    exact ⟨entry.2, ExtTreeMap.mem_toList_iff_getElem?_eq_some.mp hmem, of_decide_eq_true hdue⟩

/-- A poll is a sequence of emissions within its budget. -/
theorem poll_emits (h : Kept limit m) {request : DiscoveryRequest}
    (hrequest : m.request = some request) (now : ℕ) :
    ∃ events, (m.poll now).1 = .ok events ∧ EmitsAll now m events (m.poll now).2 ∧
      events.length ≤ request.maxResultsPerPoll := by
  obtain ⟨hnodup, hbudget, hdue⟩ := expiredIds_spec m now request.maxResultsPerPoll
  have hfirst := expire_emits hnodup hdue
  obtain ⟨hsecond, hlen⟩ := drain_emits (h.emitsAll hfirst) now
    (request.maxResultsPerPoll-(m.expiredIds now request.maxResultsPerPoll).length)
  simp only [poll, hrequest]
  refine ⟨_, rfl, hfirst.append hsecond, ?_⟩
  rw [List.length_append, List.length_map]
  omega

end Poll

section Calls

/-- A candidate is entered with a fresh expiry, or only the books of the limiter change. -/
theorem addAddress_cases (latest : ℕ) (m : ManualDiscovery) (source : String) (id : DiscoveryId)
    (endpoint : DiscoveredEndpoint) (ttl now : ℕ) :
    (∃ fault limiter, limiter.limit = m.limiter.limit ∧
      m.addAddress latest source id endpoint ttl now = (.error fault, { m with limiter })) ∨
    ∃ request limiter, limiter.limit = m.limiter.limit ∧ m.request = some request ∧
      (id ∈ m.active ∨ m.active.size < m.limiter.limit.maxCandidates) ∧
      m.addAddress latest source id endpoint ttl now = (.ok (), { m with
        limiter
        pending := m.forget id ++ [.found ⟨id, request.serviceType, [endpoint], now+ttl⟩]
        active := m.active.insert id (now+ttl) }) := by
  unfold addAddress
  split
  · exact .inl ⟨_, m.limiter, rfl, rfl⟩
  next request hrequest =>
  split
  · exact .inl ⟨_, m.limiter, rfl, rfl⟩
  split
  · exact .inl ⟨_, m.limiter, rfl, rfl⟩
  next hcapacity =>
  simp only
  split
  · exact .inl ⟨_, (m.limiter.allow source now).2, rfl, rfl⟩
  split
  · exact .inl ⟨_, (m.limiter.allow source now).2, rfl, rfl⟩
  refine .inr ⟨request, (m.limiter.allow source now).2, rfl, hrequest, ?_, rfl⟩
  rw [not_and_or, not_not, not_le] at hcapacity
  exact hcapacity.imp_left ExtTreeMap.contains_iff_mem.mp

theorem Kept.congr (h : Kept limit m) (hlimit : m'.limiter.limit = m.limiter.limit)
    (hpending : m'.pending = m.pending) (hactive : m'.active = m.active) : Kept limit m' :=
  ⟨hlimit.trans h.limit_eq, by rw [hpending, hactive]; exact h.listed,
    by rw [hpending]; exact h.once, by rw [hactive]; exact h.bounded⟩

theorem Kept.added (h : Kept limit m) (peer : DiscoveredPeer)
    (hroom : peer.discoveryId ∈ m.active ∨ m.active.size < m.limiter.limit.maxCandidates)
    (hlimit : m'.limiter.limit = m.limiter.limit)
    (hpending : m'.pending = m.forget peer.discoveryId ++ [.found peer])
    (hactive : m'.active = m.active.insert peer.discoveryId peer.expiresAt) : Kept limit m' := by
  refine ⟨hlimit.trans h.limit_eq, fun event hevent => ?_, fun id' => ?_, ?_⟩
  · rw [hpending, List.mem_append, List.mem_singleton] at hevent
    rw [hactive]
    rcases hevent with hold | rfl
    · obtain ⟨peer', rfl, hlisted⟩ := h.listed event (List.mem_of_mem_filter hold)
      refine ⟨peer', rfl, ?_⟩
      rw [OrderedMap.lookup_insert, if_neg (Ne.symm (mem_forget.mp hold).2)]
      exact hlisted
    · refine ⟨peer, rfl, ?_⟩
      rw [OrderedMap.lookup_insert, if_pos rfl]
  · rw [hpending, List.countP_append]
    by_cases heq : peer.discoveryId = id'
    · subst heq
      rw [countP_forget_self, Nat.zero_add]
      exact List.countP_le_length
    · have hother : ¬(DiscoveryEvent.found peer).announces id' = true :=
        mt (announces_found _ _).mp heq
      rw [List.countP_singleton, if_neg hother, Nat.add_zero]
      exact (countP_forget m _ id').trans (h.once id')
  · rw [hactive]
    cases hold : m.active[peer.discoveryId]? with
    | none =>
      have hnew : peer.discoveryId ∉ m.active := by
        rw [ExtTreeMap.mem_iff_isSome_getElem?, hold]
        exact Bool.false_ne_true
      rw [OrderedMap.size_insert_new _ _ hold]
      exact h.limit_eq ▸ hroom.resolve_left hnew
    | some expiresAt =>
      rw [OrderedMap.size_insert_live _ _ hold]
      exact h.bounded

theorem Kept.step (h : Kept limit m) (latest : ℕ) (call : DiscoveryCall) :
    Kept limit (step latest m call).2 := by
  cases call with
  | start request =>
    simp only [ManualDiscovery.step, start]
    split
    · exact h
    split
    · exact h
    · exact h.congr rfl rfl rfl
  | addAddress source id endpoint ttl now =>
    simp only [ManualDiscovery.step]
    obtain ⟨fault, limiter, hlimit, heq⟩ | ⟨request, limiter, hlimit, -, hroom, heq⟩ :=
      addAddress_cases latest m source id endpoint ttl now
    · rw [heq]
      exact h.congr hlimit rfl rfl
    · rw [heq]
      exact h.added ⟨id, request.serviceType, [endpoint], now+ttl⟩ hroom hlimit rfl rfl
  | poll now =>
    simp only [ManualDiscovery.step]
    cases hrequest : m.request with
    | none =>
      simp only [poll, hrequest]
      exact h
    | some request =>
      obtain ⟨events, -, hemits, -⟩ := poll_emits h hrequest now
      exact h.emitsAll hemits
  | stop =>
    simp only [ManualDiscovery.step, stop]
    split
    · exact h
    · refine ⟨h.limit_eq, by simp, by simp, ?_⟩
      rw [ExtTreeMap.size_empty]
      exact Nat.zero_le _

theorem kept_new (h : ManualDiscovery.new limit = .ok m) :
    Kept limit m ∧ m.pending = [] ∧ m.active = ∅ := by
  unfold ManualDiscovery.new at h
  cases hlimiter : AttemptRateLimiter.new limit with
  | error e =>
    rw [hlimiter] at h
    cases h
  | ok limiter =>
    rw [hlimiter] at h
    obtain rfl := Except.ok.inj h
    obtain ⟨rfl, -⟩ := AttemptRateLimiter.new_ok hlimiter
    refine ⟨⟨rfl, by simp, by simp, ?_⟩, rfl, rfl⟩
    rw [ExtTreeMap.size_empty]
    exact Nat.zero_le _

end Calls

end ManualDiscovery

end MutsukiLink
