import MutsukiLink.EventStreams

/-! The account of every subscription over a whole run of a session event bus. -/
namespace MutsukiLink
open RunHistory
open GapLedger (Tells Settled)
open Std (ExtTreeMap)

namespace SessionEventBus
open Subscriber (Account alone)

theorem published_concat (hist : List BusEvent) (e : BusEvent) :
    published (hist ++ [e]) = published hist ++ e.input.publication.toList := by
  unfold published
  rw [List.filterMap_append]
  cases h : e.input.publication with
  | none => simp [h]
  | some event => simp [h]

theorem obtained_concat (id : EventSubscriberId) (hist : List BusEvent) (e : BusEvent) :
    obtained id (hist ++ [e]) = obtained id hist ++ (BusEvent.obtained id e).toList := by
  unfold obtained
  rw [List.filterMap_append]
  cases h : BusEvent.obtained id e with
  | none => simp [h]
  | some event => simp [h]

/-- What holds of a subscription from the moment its id is given out. -/
structure Followed (id : EventSubscriberId) (capacity : ℕ) (since : List BusEvent)
    (b : SessionEventBus) : Prop where
  known : id.val < b.nextId
  told : ∃ told, Tells ((obtained id since).map SessionEvent.notice) told ∧
    told <+: published since
  current : .unsubscribe id ∉ since.map Event.input → ∃ s, b.subscribers[id]? = some s
  account : ∀ s, b.subscribers[id]? = some s →
    Account capacity (published since) (obtained id since) s

variable {id : EventSubscriberId} {capacity : ℕ} {since : List BusEvent} {b : SessionEventBus}

/-- A record that is there after a call accounts for the calls so far. -/
theorem Followed.account_step (h : Followed id capacity since b) (hpos : 0 < capacity)
    (hplain : ∀ event ∈ published since, event.Plain) (op : EventBusOp)
    (hcount : (b.step op).2.Counting) {s : Subscriber}
    (hs : (b.step op).2.subscribers[id]? = some s) :
    Account capacity (published (since ++ [event SessionEventBus.step b op]))
      (obtained id (since ++ [event SessionEventBus.step b op])) s := by
  have hlow := hcount id s hs
  rw [published_concat, obtained_concat, step_obtained b op id]
  rw [step_lookup b op h.known] at hs
  -- Nobody comes back under an id that is gone: the ids that are given out are new.
  cases hold : b.subscribers[id]? with
  | none =>
    rw [hold] at hs
    cases hop : op.concerning id with
    | none => rw [hop] at hs; cases hs
    | some o => rw [hop] at hs; cases hs
  | some before =>
    rw [hold] at hs
    have hbefore := h.account before hold
    cases op with
    | subscribe other =>
      obtain rfl := Option.some.inj hs
      simpa [event, EventBusOp.publication, EventBusOp.concerning] using hbefore
    | publish event =>
      obtain rfl := Option.some.inj hs
      simpa [RunHistory.event, EventBusOp.publication, EventBusOp.concerning, alone] using
        hbefore.deliver hpos hlow
    | next i =>
      by_cases hi : i = id
      · have hconcerning : (EventBusOp.next i).concerning id = some .next := if_pos hi
        rw [hconcerning] at hs ⊢
        obtain rfl := Option.some.inj hs
        simpa [event, EventBusOp.publication, alone] using hbefore.read hplain
      · have hconcerning : (EventBusOp.next i).concerning id = none := if_neg hi
        rw [hconcerning] at hs ⊢
        obtain rfl := Option.some.inj hs
        simpa [event, EventBusOp.publication] using hbefore
    | unsubscribe i =>
      by_cases hi : i = id
      · have hconcerning : (EventBusOp.unsubscribe i).concerning id = some .leave := if_pos hi
        rw [hconcerning] at hs
        cases hs
      · have hconcerning : (EventBusOp.unsubscribe i).concerning id = none := if_neg hi
        rw [hconcerning] at hs ⊢
        obtain rfl := Option.some.inj hs
        simpa [event, EventBusOp.publication] using hbefore

/-- Whoever is gone after a call is handed nothing by it. -/
theorem Followed.nothing_step (h : Followed id capacity since b) (op : EventBusOp)
    (hnow : (b.step op).2.subscribers[id]? = none) :
    BusEvent.obtained id (event SessionEventBus.step b op) = none := by
  rw [step_obtained]
  rw [step_lookup b op h.known] at hnow
  cases hop : op.concerning id with
  | none => rfl
  | some o =>
    rw [hop] at hnow
    cases hold : b.subscribers[id]? with
    | none => rfl
    | some before =>
      rw [hold] at hnow
      cases o with
      | hear event => rfl
      | next => cases hnow
      | leave => rfl

/-- Only its own `unsubscribe` takes a record away. -/
theorem Followed.current_step (h : Followed id capacity since b) {op : EventBusOp}
    (hop : op ≠ .unsubscribe id) (hcurrent : ∃ s, b.subscribers[id]? = some s) :
    ∃ s, (b.step op).2.subscribers[id]? = some s := by
  obtain ⟨before, hbefore⟩ := hcurrent
  rw [step_lookup b op h.known, hbefore]
  cases op with
  | subscribe other => exact ⟨before, rfl⟩
  | publish event => exact ⟨deliver event before, rfl⟩
  | next i =>
    by_cases hi : i = id
    · exact ⟨before.read.2, by simp [EventBusOp.concerning, hi, alone]⟩
    · exact ⟨before, by simp [EventBusOp.concerning, hi]⟩
  | unsubscribe i =>
    have hi : i ≠ id := fun he => hop (he ▸ rfl)
    exact ⟨before, by simp [EventBusOp.concerning, hi]⟩

theorem Followed.step (h : Followed id capacity since b) (hpos : 0 < capacity)
    (hplain : ∀ event ∈ published since, event.Plain) (op : EventBusOp)
    (hcount : (b.step op).2.Counting) :
    Followed id capacity (since ++ [event SessionEventBus.step b op]) (b.step op).2 := by
  have haccount := fun s => h.account_step (s := s) hpos hplain op hcount
  refine ⟨lt_of_lt_of_le h.known (nextId_le_step b op), ?_, ?_, haccount⟩
  -- Whoever is gone has been told what it was told before, and events go on without it.
  · cases hnow : (b.step op).2.subscribers[id]? with
    | some s => exact (haccount s hnow).settled.told
    | none =>
      obtain ⟨told, htold, hstart⟩ := h.told
      refine ⟨told, ?_, ?_⟩
      · rw [obtained_concat, h.nothing_step op hnow]
        simpa only [Option.toList_none, List.append_nil] using htold
      · rw [published_concat]
        exact hstart.trans (List.prefix_append _ _)
  · intro hstays
    rw [List.map_append, List.mem_append] at hstays
    have hop : op ≠ .unsubscribe id := by
      intro he
      exact hstays (Or.inr (by rw [he]; exact List.mem_singleton_self _))
    exact h.current_step hop (h.current fun hmem => hstays (Or.inl hmem))

theorem followed_fresh {id : EventSubscriberId} {capacity : ℕ} {b : SessionEventBus}
    (hid : id.val < b.nextId)
    (hs : b.subscribers[id]? = some { queue := [], capacity, dropped := 0 }) :
    Followed id capacity [] b := by
  have hsettled : Settled ([] : List SessionEvent) [] 0 [] := Settled.nil
  refine ⟨hid, hsettled.told, fun _ => ⟨_, hs⟩, ?_⟩
  intro s hlookup
  rw [hs] at hlookup
  obtain rfl := Option.some.inj hlookup
  exact ⟨rfl, Nat.zero_le _, hsettled⟩

/-- A subscription that succeeds gives out the next id and leaves an empty record under it. -/
theorem subscribe_reply {op : EventBusOp} (h : (b.step op).1 = .subscribed (.ok id)) :
    ∃ capacity, op = .subscribe capacity ∧ 0 < capacity ∧ id.val = b.nextId ∧
      (b.step op).2.nextId = b.nextId+1 ∧
      (b.step op).2.subscribers[id]? = some { queue := [], capacity, dropped := 0 } := by
  cases op with
  | subscribe capacity =>
    rcases subscribe_cases b capacity with ⟨error, heq⟩ | ⟨hpos, heq⟩
    · simp only [step, heq] at h
      cases h
    · simp only [step, heq] at h
      have hid : (⟨b.nextId⟩ : EventSubscriberId) = id := by simpa using h
      subst hid
      refine ⟨capacity, rfl, hpos, rfl, ?_, ?_⟩
      · simp only [step, heq]
      · simp only [step, heq]
        rw [OrderedMap.lookup_insert, if_pos rfl]
  | publish event => cases h
  | next i => cases h
  | unsubscribe i => cases h

theorem issued_concat (hist : List BusEvent) (e : BusEvent) :
    issued (hist ++ [e]) = issued hist ++ e.issued.toList := by
  unfold issued
  rw [List.filterMap_append]
  cases h : e.issued with
  | none => simp [h]
  | some id => simp [h]

theorem reply_of_issued {e : BusEvent} (h : e.issued = some id) :
    e.reply = .subscribed (.ok id) := by
  unfold BusEvent.issued at h
  split at h
  · next heq =>
    obtain rfl := Option.some.inj h
    exact heq
  · cases h

/-- A subscription in a history that has grown is the call just made, or one from before. -/
theorem Subscribed.concat {hist : List BusEvent} {e : BusEvent}
    (h : Subscribed (hist ++ [e]) id capacity since) :
    (since = [] ∧ e.input = .subscribe capacity ∧ e.reply = .subscribed (.ok id)) ∨
    ∃ earlier, since = earlier ++ [e] ∧ Subscribed hist id capacity earlier := by
  -- The last event of the history is the subscription or the last one since.
  obtain ⟨before, x, hsplit, hinput, hreply⟩ := h
  rcases List.eq_nil_or_concat since with rfl | ⟨earlier, last, rfl⟩
  · obtain ⟨-, hlast⟩ := List.append_inj' hsplit rfl
    obtain rfl := List.singleton_inj.mp hlast
    exact Or.inl ⟨rfl, hinput, hreply⟩
  · rw [List.concat_eq_append, ← List.cons_append, ← List.append_assoc] at hsplit
    obtain ⟨hhist, hlast⟩ := List.append_inj' hsplit rfl
    obtain rfl := List.singleton_inj.mp hlast
    exact Or.inr ⟨earlier, List.concat_eq_append, before, x, hhist, hinput, hreply⟩

/-- What holds of a bus and its history from the start. -/
structure Ledger (hist : List BusEvent) (b : SessionEventBus) : Prop where
  plain : ∀ event ∈ published hist, event.Plain
  below : ∀ id ∈ issued hist, id.val < b.nextId
  distinct : (issued hist).Nodup
  followed : ∀ id capacity since, Subscribed hist id capacity since →
    0 < capacity ∧ Followed id capacity since b

theorem published_since {hist : List BusEvent} (h : Subscribed hist id capacity since)
    {event : SessionEvent} (hmem : event ∈ published since) : event ∈ published hist := by
  obtain ⟨before, e, rfl, -, -⟩ := h
  unfold published at hmem ⊢
  rw [List.filterMap_append]
  apply List.mem_append_right
  rw [List.mem_filterMap] at hmem ⊢
  obtain ⟨x, hx, heq⟩ := hmem
  exact ⟨x, List.mem_cons_of_mem _ hx, heq⟩

theorem Ledger.step {hist : List BusEvent} (h : Ledger hist b) (op : EventBusOp)
    (hplain : ∀ event, op.publication = some event → event.Plain)
    (hcount : (b.step op).2.Counting) :
    Ledger (hist ++ [event SessionEventBus.step b op]) (b.step op).2 := by
  have hgrow := nextId_le_step b op
  refine ⟨?_, ?_, ?_, ?_⟩
  · intro event hmem
    rw [published_concat, List.mem_append, Option.mem_toList] at hmem
    rcases hmem with hmem | hmem
    · exact h.plain event hmem
    · exact hplain event hmem
  · intro id hmem
    rw [issued_concat, List.mem_append, Option.mem_toList] at hmem
    rcases hmem with hmem | hmem
    · exact lt_of_lt_of_le (h.below id hmem) hgrow
    · obtain ⟨capacity, -, -, hid, hnext, -⟩ := subscribe_reply (reply_of_issued hmem)
      omega
  · rw [issued_concat]
    refine List.nodup_append.mpr ⟨h.distinct, ?_, ?_⟩
    · cases BusEvent.issued (event SessionEventBus.step b op) with
      | none => exact List.nodup_nil
      | some id => exact List.nodup_cons.mpr ⟨List.not_mem_nil, List.nodup_nil⟩
    · -- Every id so far is below the one that is given out now.
      rintro id hold _ hnew rfl
      have hlt := h.below id hold
      obtain ⟨capacity, -, -, hid, -, -⟩ :=
        subscribe_reply (reply_of_issued (Option.mem_toList.mp hnew))
      omega
  · intro id capacity since hsub
    rcases hsub.concat with ⟨rfl, hinput, hreply⟩ | ⟨earlier, rfl, hearlier⟩
    · obtain ⟨given, hop, hpos, hid, hnext, hs⟩ := subscribe_reply hreply
      have hinput' : op = .subscribe capacity := hinput
      obtain rfl : capacity = given := EventBusOp.subscribe.inj (hinput'.symm.trans hop)
      exact ⟨hpos, followed_fresh (by omega) hs⟩
    · obtain ⟨hpos, hfollowed⟩ := h.followed id capacity earlier hearlier
      refine ⟨hpos, hfollowed.step hpos ?_ op hcount⟩
      intro event hmem
      exact h.plain event (published_since hearlier hmem)

/-- Along a run a subscriber obtains what it would obtain by itself from the calls that concern
it. -/
theorem obtained_eq_alone (b : SessionEventBus) (ops : List EventBusOp) (hid : id.val < b.nextId) :
    obtained id (trace SessionEventBus.step b ops) =
      (trace alone b.subscribers[id]? (ops.filterMap (EventBusOp.concerning id))).filterMap
        Event.reply := by
  induction ops generalizing b with
  | nil => rfl
  | cons op ops ih =>
    have hrest := ih (b.step op).2 (lt_of_lt_of_le hid (nextId_le_step b op))
    have hread := step_obtained b op id
    have hlookup := step_lookup b op hid
    have hsplit : obtained id (trace SessionEventBus.step b (op :: ops)) =
        (BusEvent.obtained id (event SessionEventBus.step b op)).toList ++
          obtained id (trace SessionEventBus.step (b.step op).2 ops) := by
      unfold obtained
      rw [trace_cons, List.filterMap_cons]
      cases BusEvent.obtained id (event SessionEventBus.step b op) with
      | none => rfl
      | some event => rfl
    rw [hsplit, hrest, hread, hlookup, List.filterMap_cons]
    cases op.concerning id with
    | none => rfl
    | some o =>
      rw [trace_cons, List.filterMap_cons]
      show (alone b.subscribers[id]? o).1.toList ++ _ = _
      cases hreply : (alone b.subscribers[id]? o).1 with
      | none => simp [event, hreply]
      | some event => simp [RunHistory.event, hreply]

/-- After a subscription the bus runs on with an empty record under the new id. -/
theorem Subscribed.resume {ops : List EventBusOp}
    (h : Subscribed (trace SessionEventBus.step b ops) id capacity since) :
    ∃ b' ops', since = trace SessionEventBus.step b' ops' ∧ id.val < b'.nextId ∧
      b'.subscribers[id]? = some { queue := [], capacity, dropped := 0 } := by
  obtain ⟨before, e, hsplit, hinput, hreply⟩ := h
  obtain ⟨js, op, ks, -, -, rfl, rfl⟩ := trace_cut SessionEventBus.step hsplit
  obtain ⟨given, hop, -, hid, hnext, hs⟩ := subscribe_reply hreply
  have hinput' : op = .subscribe capacity := hinput
  obtain rfl : capacity = given := EventBusOp.subscribe.inj (hinput'.symm.trans hop)
  refine ⟨_, ks, rfl, ?_, hs⟩
  show id.val < (SessionEventBus.step _ op).2.nextId
  omega

/-- What a subscriber obtains is settled by its capacity and the calls that concern it. -/
theorem Subscribed.independent {ops ops' : List EventBusOp} {b' : SessionEventBus}
    {id' : EventSubscriberId} {since' : List BusEvent}
    (h : Subscribed (trace SessionEventBus.step b ops) id capacity since)
    (h' : Subscribed (trace SessionEventBus.step b' ops') id' capacity since')
    (hsame : (since.map Event.input).filterMap (EventBusOp.concerning id) =
      (since'.map Event.input).filterMap (EventBusOp.concerning id')) :
    obtained id since = obtained id' since' := by
  obtain ⟨c, ks, rfl, hid, hs⟩ := h.resume
  obtain ⟨c', ks', rfl, hid', hs'⟩ := h'.resume
  rw [map_input_trace, map_input_trace] at hsame
  rw [obtained_eq_alone c ks hid, obtained_eq_alone c' ks' hid', hs, hs', hsame]

theorem ledger_run (b : SessionEventBus)
    (ops : List EventBusOp) (hplain : ∀ event, .publish event ∈ ops → event.Plain)
    (hcount : ∀ e ∈ trace SessionEventBus.step b ops, e.post.Counting) :
    Ledger (trace SessionEventBus.step b ops) (run SessionEventBus.step b ops) := by
  -- A history without calls holds no subscription.
  have hstart : Ledger [] b := by
    refine ⟨by simp [published], by simp [issued], List.nodup_nil, ?_⟩
    rintro id capacity since ⟨before, e, hsplit, -, -⟩
    exact absurd hsplit.symm (by simp)
  refine run_history_good SessionEventBus.step
    (G := fun b op => (b.step op).2.Counting ∧ ∀ event, op.publication = some event → event.Plain)
    hstart (fun hist b op h hgood => h.step op hgood.2 hgood.1) ops ?_
  intro e he
  obtain ⟨js, op, ks, rfl, rfl⟩ := event_split SessionEventBus.step he
  refine ⟨hcount _ he, ?_⟩
  intro event hpublished
  cases op with
  | publish published =>
    obtain rfl := Option.some.inj hpublished
    exact hplain _ (List.mem_append_right _ List.mem_cons_self)
  | subscribe => cases hpublished
  | next => cases hpublished
  | unsubscribe => cases hpublished

/-- No count is above this number. -/
def LostAtMost (n : ℕ) (b : SessionEventBus) : Prop :=
  ∀ (id : EventSubscriberId) (s : Subscriber), b.subscribers[id]? = some s → s.dropped ≤ n

/-- A call counts at most one more lost event for each subscriber. -/
theorem LostAtMost.step {n : ℕ} (h : LostAtMost n b) (op : EventBusOp) :
    LostAtMost (n+1) (b.step op).2 := by
  intro id s hs
  cases op with
  | subscribe capacity =>
    rcases subscribe_cases b capacity with ⟨error, heq⟩ | ⟨-, heq⟩
    · simp only [SessionEventBus.step, heq] at hs
      exact Nat.le_succ_of_le (h id s hs)
    · simp only [SessionEventBus.step, heq] at hs
      rw [OrderedMap.lookup_insert] at hs
      split at hs
      · obtain rfl := Option.some.inj hs
        exact Nat.zero_le _
      · exact Nat.le_succ_of_le (h id s hs)
  | publish event =>
    rw [lookup_publish] at hs
    obtain ⟨before, hbefore, rfl⟩ := Option.map_eq_some_iff.mp hs
    have hlow := h id before hbefore
    unfold deliver
    split
    -- The count saturates, so it may grow by less than one.
    · show min (before.dropped+1) u64Max ≤ n+1
      omega
    · exact Nat.le_succ_of_le hlow
  | next i =>
    cases hold : b.subscribers[i]? with
    | none =>
      simp only [SessionEventBus.step, next_of_unknown hold] at hs
      exact Nat.le_succ_of_le (h id s hs)
    | some before =>
      simp only [SessionEventBus.step, next_of_lookup hold] at hs
      rw [OrderedMap.lookup_insert] at hs
      split at hs
      · obtain rfl := Option.some.inj hs
        have hlow := h i before hold
        unfold Subscriber.read
        split
        · exact Nat.zero_le _
        · exact Nat.le_succ_of_le hlow
      · exact Nat.le_succ_of_le (h id s hs)
  | unsubscribe i =>
    rw [lookup_unsubscribe] at hs
    split at hs
    · cases hs
    · exact Nat.le_succ_of_le (h id s hs)

/-- From a bus without losses no count reaches the end of its word before that many calls. -/
theorem counting_of_length {ops : List EventBusOp} (h : LostAtMost 0 b)
    (hlength : ops.length < u64Max) :
    ∀ e ∈ trace SessionEventBus.step b ops, e.post.Counting := by
  have hrun (js : List EventBusOp) :
      LostAtMost js.length (run SessionEventBus.step b js) := by
    induction js using List.reverseRecOn with
    | nil => exact h
    | append_singleton js op ih =>
      rw [run_concat, List.length_append]
      exact ih.step op
  intro e he
  obtain ⟨js, op, ks, rfl, rfl⟩ := event_split SessionEventBus.step he
  intro id s hs
  have hlost := (hrun js).step op id s hs
  rw [List.length_append, List.length_cons] at hlength
  omega

/-- A drop report stands at its place: read as that many skipped events, what a subscriber obtains
is a first part of what was published since its subscription, and all of it once there is nothing
to obtain. -/
theorem event_streams_are_gap_exact (b : SessionEventBus) (ops : List EventBusOp)
    (hplain : ∀ event, .publish event ∈ ops → event.Plain)
    (hcount : ∀ e ∈ trace SessionEventBus.step b ops, e.post.Counting) :
    (issued (trace SessionEventBus.step b ops)).Nodup ∧
    ∀ id capacity since, Subscribed (trace SessionEventBus.step b ops) id capacity since →
      (∃ told, Tells ((obtained id since).map SessionEvent.notice) told ∧
        told <+: published since) ∧
      (.unsubscribe id ∉ since.map Event.input →
        ((run SessionEventBus.step b ops).next id).1 = none →
        Tells ((obtained id since).map SessionEvent.notice) (published since)) ∧
      (∀ s, (run SessionEventBus.step b ops).subscribers[id]? = some s →
        s.queue.length ≤ capacity) ∧
      ∀ b' ops' id' since', Subscribed (trace SessionEventBus.step b' ops') id' capacity since' →
        (since.map Event.input).filterMap (EventBusOp.concerning id) =
          (since'.map Event.input).filterMap (EventBusOp.concerning id') →
        obtained id since = obtained id' since' := by
  have hledger := ledger_run b ops hplain hcount
  refine ⟨hledger.distinct, ?_⟩
  intro id capacity since hsub
  obtain ⟨-, hfollowed⟩ := hledger.followed id capacity since hsub
  refine ⟨hfollowed.told, ?_, fun s hs => (hfollowed.account s hs).bounded, ?_⟩
  · intro hcurrent hnone
    obtain ⟨s, hs⟩ := hfollowed.current hcurrent
    have hread : s.read.1 = none := by
      rw [next_of_lookup hs] at hnone
      exact hnone
    exact (hfollowed.account s hs).complete hread
  · intro b' ops' id' since' hsub' hsame
    exact hsub.independent hsub' hsame

/-- A queue of one that misses the first of two events. -/
theorem event_streams_are_gap_exact_slow :
    ∃ told, Tells ((obtained ⟨1⟩ (trace SessionEventBus.step
        (SessionEventBus.step ⟨1, 1, ∅⟩ (.subscribe 1)).2
        [.publish (.stateChanged .draining), .publish (.stateChanged .closed), .next ⟨1⟩])).map
          SessionEvent.notice) told ∧
      told <+: [.stateChanged .draining, .stateChanged .closed] := by
  have hexact := event_streams_are_gap_exact ⟨1, 1, ∅⟩
    [.subscribe 1, .publish (.stateChanged .draining), .publish (.stateChanged .closed),
      .next ⟨1⟩] ?_ ?_
  · exact (hexact.2 ⟨1⟩ 1 _ ⟨[], _, rfl, rfl, rfl⟩).1
  · intro event hmem count he
    subst he
    simp at hmem
  · refine counting_of_length ?_ (by decide)
    intro id s hs
    cases hs

end SessionEventBus
end MutsukiLink
