import MutsukiLink.SessionResume

/-! What becomes of every recorded request over a run of its coordinator. -/
namespace MutsukiLink
namespace ResumeCoordinator
open FateLedger RunHistory WireBytes

/-- How a request leaves the coordinator. -/
inductive Outcome where
  | acknowledged
  | planned (bucket : ReplayBucket)
deriving DecidableEq, Repr

/-- The request that a call has recorded. -/
def recordedBy (e : ResumeEvent) : Option PendingRequest :=
  match e.input, e.reply with
  | .recordUnacknowledged requestId replay, .recorded (.ok _) => some ⟨requestId, replay⟩
  | _, _ => none

/-- The ids that a call has reported for an outcome, in its order. -/
def reportedBy (e : ResumeEvent) (outcome : Outcome) : List UInt64 :=
  match outcome, e.input, e.reply with
  | .acknowledged, .acknowledge requestId, .acknowledged true => [requestId]
  | .planned bucket, .planAfterReconnect _, .planned plan => plan.bucket bucket
  | _, _, _ => []

/-- The requests that were recorded, each with the place of the call that did it. -/
def recorded (hist : List ResumeEvent) : List (ℕ × PendingRequest) :=
  hist.zipIdx.filterMap fun e => (recordedBy e.1).map fun r => (e.2, r)

/-- A call that was refused or that found nothing. -/
def Refused (e : ResumeEvent) : Prop :=
  (∃ error, e.reply = .recorded (.error error)) ∨ e.reply = .acknowledged false

/-- When a call may give a request its outcome. -/
def Outcome.Allowed (call : ResumeCall) (request : PendingRequest) : Outcome → Prop
  | .acknowledged => call = .acknowledge request.id
  | .planned bucket => ∃ continuity, call = .planAfterReconnect continuity ∧
    (bucket = .automaticallyRetry ↔
      request.replay = .idempotent ∧ ∃ previous, continuity = .resumed previous) ∧
    (bucket = .applicationDecision ↔ request.replay = .applicationDecides)

/-- The account of a run: each recorded request stands in it once, in the order of recording and
with at most one fate, the place of the call that it left by and its outcome there. -/
structure Accounted (hist : List ResumeEvent) (pending : List PendingRequest)
    (account : List ((ℕ × PendingRequest) × Option (ℕ × Outcome))) : Prop where
  records : account.map Prod.fst = recorded hist
  pending : (waiting account).map Prod.snd = pending
  reports : ∀ call outcome, (fated account (call, outcome)).map (fun r => r.2.id) =
    (hist[call]?).elim [] fun e => reportedBy e outcome
  fates : ∀ r call outcome, (r, some (call, outcome)) ∈ account →
    r.1 < call ∧ ∃ e, hist[call]? = some e ∧ outcome.Allowed e.input r.2

theorem recorded_concat (hist : List ResumeEvent) (e : ResumeEvent) :
    recorded (hist ++ [e]) =
      recorded hist ++ ((recordedBy e).map fun r => (hist.length, r)).toList := by
  unfold recorded
  rw [List.zipIdx_append, List.filterMap_append]
  cases h : recordedBy e with
  | none => simp [h]
  | some r => simp [h]

theorem lt_of_mem_recorded {hist : List ResumeEvent} {r : ℕ × PendingRequest}
    (h : r ∈ recorded hist) : r.1 < hist.length := by
  obtain ⟨e, he, hr⟩ := List.mem_filterMap.mp h
  obtain ⟨request, -, rfl⟩ := Option.map_eq_some_iff.mp hr
  have hlt := List.snd_lt_add_of_mem_zipIdx he
  omega

theorem getElem?_concat_ne {α : Type*} (list : List α) (a : α) {i : ℕ} (h : i ≠ list.length) :
    (list ++ [a])[i]? = list[i]? := by
  rcases Nat.lt_or_gt_of_ne h with hlt | hgt
  · exact List.getElem?_append_left hlt
  · have hlength : (list ++ [a]).length ≤ i := by
      rw [List.length_append, List.length_singleton]
      omega
    rw [List.getElem?_eq_none hlength, List.getElem?_eq_none hgt.le]

section Calls
variable {hist : List ResumeEvent} {pending : List PendingRequest}
variable {account : List ((ℕ × PendingRequest) × Option (ℕ × Outcome))} {e : ResumeEvent}

/-- Every fate lies in the past. -/
theorem Accounted.call_lt (h : Accounted hist pending account) {r : ℕ × PendingRequest} {call : ℕ}
    {outcome : Outcome} (hr : (r, some (call, outcome)) ∈ account) : call < hist.length := by
  obtain ⟨-, x, hx, -⟩ := h.fates r call outcome hr
  exact (List.getElem?_eq_some_iff.mp hx).1

theorem Accounted.fates_concat (h : Accounted hist pending account) (e : ResumeEvent)
    {r : ℕ × PendingRequest} {call : ℕ} {outcome : Outcome}
    (hr : (r, some (call, outcome)) ∈ account) :
    r.1 < call ∧ ∃ x, (hist ++ [e])[call]? = some x ∧ outcome.Allowed x.input r.2 := by
  obtain ⟨hlt, x, hx, hallowed⟩ := h.fates r call outcome hr
  refine ⟨hlt, x, ?_, hallowed⟩
  rw [getElem?_concat_ne _ _ (h.call_lt hr).ne, hx]

/-- A call that records a request. -/
theorem Accounted.record (h : Accounted hist pending account) {request : PendingRequest}
    (hrecorded : recordedBy e = some request) (hreports : ∀ outcome, reportedBy e outcome = []) :
    Accounted (hist ++ [e]) (pending ++ [request]) (accept account (hist.length, request)) := by
  constructor
  · rw [recorded_concat, hrecorded, accept, List.map_append, h.records]
    rfl
  · rw [waiting_accept, List.map_append, h.pending]
    rfl
  · intro call outcome
    rw [fated_accept, h.reports]
    by_cases hcall : call = hist.length
    · subst hcall
      rw [List.getElem?_eq_none le_rfl, List.getElem?_concat_length]
      exact (hreports outcome).symm
    · rw [getElem?_concat_ne _ _ hcall]
  · intro r call outcome hr
    apply h.fates_concat e
    rcases List.mem_append.mp hr with hr | hr
    · exact hr
    · simp at hr

/-- A call that lets some of the pending requests go and records none. -/
theorem Accounted.release (h : Accounted hist pending account) (hrecorded : recordedBy e = none)
    (goes : PendingRequest → Option Outcome)
    (hreports : ∀ outcome,
      (pending.filter fun r => goes r = some outcome).map PendingRequest.id = reportedBy e outcome)
    (hallowed : ∀ r outcome, goes r = some outcome → outcome.Allowed e.input r) :
    Accounted (hist ++ [e]) (pending.filter fun r => (goes r).isNone)
      (settle account fun r => (goes r.2).map fun outcome => (hist.length, outcome)) := by
  constructor
  · rw [map_fst_settle, h.records, recorded_concat, hrecorded]
    exact (List.append_nil _).symm
  · rw [waiting_settle, ← h.pending, List.filter_map]
    simp [Function.comp_def]
  · intro call outcome
    by_cases hcall : call = hist.length
    · subst hcall
      -- Nobody has met a fate at this call before.
      have hnew : ∀ x ∈ account, x.2 ≠ some (hist.length, outcome) := by
        intro x hx hfate
        have hlt := h.call_lt (hfate ▸ hx : (x.1, some (hist.length, outcome)) ∈ account)
        omega
      rw [fated_settle_of_new _ _ _ hnew, List.getElem?_concat_length]
      have hsame : ∀ r : PendingRequest,
          (goes r).map (fun o => (hist.length, o)) = some (hist.length, outcome) ↔
            goes r = some outcome := by
        intro r
        simp [Option.map_eq_some_iff]
      have hnow := hreports outcome
      rw [← h.pending, List.filter_map, List.map_map] at hnow
      simp only [hsame]
      exact hnow
    -- Nothing changes in what earlier calls have reported.
    · have hother : ∀ r : ℕ × PendingRequest,
          ((goes r.2).map fun outcome => (hist.length, outcome)) ≠ some (call, outcome) := by
        intro r hr
        obtain ⟨x, -, hx⟩ := Option.map_eq_some_iff.mp hr
        exact hcall (Prod.mk.inj hx).1.symm
      rw [fated_settle_of_ne _ _ _ hother, h.reports, getElem?_concat_ne _ _ hcall]
  · intro r call outcome hr
    rcases mem_settle hr with hbefore | ⟨hwaiting, hmeant⟩
    · exact h.fates_concat e hbefore
    -- A request that still waits was recorded by an earlier call, so its fate comes after it.
    · obtain ⟨x, hx, heq⟩ := Option.map_eq_some_iff.mp hmeant
      obtain ⟨rfl, rfl⟩ := Prod.mk.inj heq
      have hr : r ∈ recorded hist := by
        rw [← h.records]
        exact List.mem_map.mpr ⟨_, mem_waiting.mp hwaiting, rfl⟩
      exact ⟨lt_of_mem_recorded hr, e, List.getElem?_concat_length, hallowed _ _ hx⟩

theorem Accounted.idle (h : Accounted hist pending account) (hrecorded : recordedBy e = none)
    (hreports : ∀ outcome, reportedBy e outcome = []) :
    ∃ account, Accounted (hist ++ [e]) pending account := by
  have hnext := h.release hrecorded (fun _ => none) (fun outcome => ?_) (fun r outcome hr => ?_)
  · have hall : (pending.filter fun _ => (none : Option Outcome).isNone) = pending :=
      List.filter_eq_self.mpr fun _ _ => rfl
    rw [hall] at hnext
    exact ⟨_, hnext⟩
  · rw [hreports]
    simp
  · cases hr

theorem Accounted.acknowledge (h : Accounted hist pending account) {requestId : UInt64}
    (hinput : e.input = .acknowledge requestId) (hreply : e.reply = .acknowledged true)
    (hone : (pending.filter fun r => r.id = requestId).map PendingRequest.id = [requestId]) :
    ∃ account, Accounted (hist ++ [e]) (pending.filter fun r => r.id ≠ requestId) account := by
  let goes (r : PendingRequest) : Option Outcome :=
    if r.id = requestId then some .acknowledged else none
  have hkeep : (pending.filter fun r => (goes r).isNone) =
      pending.filter fun r => r.id ≠ requestId := by
    apply List.filter_congr
    intro r _
    by_cases hr : r.id = requestId
    · simp [goes, hr]
    · simp [goes, hr]
  have hrecorded : recordedBy e = none := by simp [recordedBy, hinput]
  have hnext := h.release hrecorded goes (fun outcome => ?_)
    (fun r outcome hr => ?_)
  · rw [hkeep] at hnext
    exact ⟨_, hnext⟩
  · cases outcome with
    | acknowledged =>
      have hreport : reportedBy e .acknowledged = [requestId] := by
        simp [reportedBy, hinput, hreply]
      rw [hreport, ← hone]
      simp [goes]
    | planned bucket => simp [reportedBy, hinput, goes]
  · by_cases hid : r.id = requestId
    · obtain rfl : .acknowledged = outcome := by simpa [goes, hid] using hr
      rw [Outcome.Allowed, hinput, hid]
    · simp [goes, hid] at hr

/-- A plan takes all that is pending, each request to the list that is its own. -/
theorem Accounted.plan (h : Accounted hist pending account) {continuity : SessionContinuity}
    (hinput : e.input = .planAfterReconnect continuity)
    (hreply : e.reply = .planned (replayLoop continuity pending {})) :
    ∃ account, Accounted (hist ++ [e]) [] account := by
  let goes (r : PendingRequest) : Option Outcome :=
    some (.planned (ReplayBucket.of continuity r.replay))
  have hrecorded : recordedBy e = none := by simp [recordedBy, hinput]
  have hnext := h.release hrecorded goes (fun outcome => ?_)
    (fun r outcome hr => ?_)
  · have hnone : (pending.filter fun r => (goes r).isNone) = [] :=
      List.filter_eq_nil_iff.mpr fun _ _ => by simp [goes]
    rw [hnone] at hnext
    exact ⟨_, hnext⟩
  · cases outcome with
    | acknowledged => simp [reportedBy, hinput, goes]
    | planned bucket =>
      have hreport : reportedBy e (.planned bucket) =
          (replayLoop continuity pending {}).bucket bucket := by
        simp [reportedBy, hinput, hreply]
      rw [hreport, bucket_replayLoop]
      cases bucket <;> simp [goes, ReplayPlan.bucket]
  · obtain rfl := Option.some.inj hr
    exact ⟨continuity, hinput, ReplayBucket.of_eq_automaticallyRetry _ _,
      ReplayBucket.of_eq_applicationDecision _ _⟩

end Calls

theorem accounted_step {limits : ResumeLimits} {hist : List ResumeEvent} {c : ResumeCoordinator}
    (hc : WellFormed limits c) (h : ∃ account, Accounted hist c.pending account)
    (call : ResumeCall) :
    ∃ account, Accounted (hist ++ [event step c call]) (c.step call).2.pending account := by
  obtain ⟨account, h⟩ := h
  cases call with
  | recordUnacknowledged requestId replay =>
    rcases recordUnacknowledged_cases c requestId replay with ⟨kind, hrefused⟩ | ⟨-, -, hok⟩
    · rw [event, step, hrefused]
      exact h.idle rfl fun outcome => by cases outcome <;> rfl
    · rw [event, step, hok]
      exact ⟨_, h.record rfl fun outcome => by cases outcome <;> rfl⟩
  | acknowledge requestId =>
    rcases acknowledge_cases c requestId hc.distinct with hnone | ⟨hfound, hone⟩
    · rw [event, step, hnone]
      exact h.idle rfl fun outcome => by cases outcome <;> rfl
    · rw [event, step, hfound]
      exact h.acknowledge rfl rfl hone
  | planAfterReconnect continuity => exact h.plan rfl rfl

theorem refused_unchanged {limits : ResumeLimits} {c : ResumeCoordinator}
    (hc : WellFormed limits c) (call : ResumeCall) (hrefused : Refused (event step c call)) :
    (c.step call).2 = c := by
  cases call with
  | recordUnacknowledged requestId replay =>
    rcases recordUnacknowledged_cases c requestId replay with ⟨kind, hkind⟩ | ⟨-, -, hok⟩
    · exact congrArg Prod.snd hkind
    · simp [Refused, event, step, hok] at hrefused
  | acknowledge requestId =>
    rcases acknowledge_cases c requestId hc.distinct with hnone | ⟨hfound, -⟩
    · exact congrArg Prod.snd hnone
    · simp [Refused, event, step, hfound] at hrefused
  | planAfterReconnect continuity => simp [Refused, event, step] at hrefused

/-- Every recorded request is acknowledged once, or goes to one list of one plan, or is pending
still; the pending ids are distinct and bounded, and what is refused changes nothing. -/
theorem resume_accounting {limits : ResumeLimits} {c : ResumeCoordinator}
    (hnew : new limits = .ok c) (calls : List ResumeCall) :
    (∃ account, Accounted (trace step c calls) (run step c calls).pending account) ∧
    ((run step c calls).pending.map PendingRequest.id).Nodup ∧
    (run step c calls).pending.length ≤ limits.maxPendingRequests ∧
    ∀ e ∈ trace step c calls, Refused e → e.post = e.pre := by
  have hempty : c = ⟨limits, []⟩ := by
    unfold new at hnew
    split_ifs at hnew
    exact (Except.ok.inj hnew).symm
  subst hempty
  have hstart : WellFormed limits ⟨limits, []⟩ := ⟨rfl, List.nodup_nil, Nat.zero_le _⟩
  have hkeep : ∀ c call, WellFormed limits c → WellFormed limits (step c call).2 :=
    fun c call h => h.step call
  -- The account is kept along the history, and the distinct ids are what lets one
  -- acknowledgement settle one request.
  have hrun := run_history step
    (P := fun hist c => WellFormed limits c ∧ ∃ account, Accounted hist c.pending account)
    ⟨hstart, [], rfl, rfl, fun _ _ => rfl, fun _ _ _ h => absurd h List.not_mem_nil⟩
    (fun hist c call h => ⟨h.1.step call, accounted_step h.1 h.2 call⟩) calls
  refine ⟨hrun.2, hrun.1.distinct, hrun.1.bounded, ?_⟩
  intro e he hrefused
  obtain ⟨hpre, heq⟩ := trace_invariant step hkeep hstart calls e he
  rw [heq] at hrefused ⊢
  exact refused_unchanged hpre e.input hrefused

/-- An id that is acknowledged, recorded anew and retried once. -/
theorem resume_accounting_reused :
    ∃ account, Accounted (trace step ⟨{}, []⟩ [.recordUnacknowledged 7 .never, .acknowledge 7,
        .recordUnacknowledged 7 .idempotent,
        .planAfterReconnect (.resumed ⟨FixedBytes.replicate 16 1⟩)]) [] account := by
  have hnew : new {} = .ok ⟨{}, []⟩ := rfl
  exact (resume_accounting hnew [.recordUnacknowledged 7 .never, .acknowledge 7,
    .recordUnacknowledged 7 .idempotent,
    .planAfterReconnect (.resumed ⟨FixedBytes.replicate 16 1⟩)]).1

end ResumeCoordinator
end MutsukiLink
