import MutsukiLink.DiscoveryAnnouncements

/-! The ledger of a candidate: the expiry it was last added with, and what polls have said of it
since. It is read off the history alone, and the state of the provider is shown to follow it. -/
namespace MutsukiLink
open RunHistory
open Std (ExtTreeMap)

/-- An event that names this candidate. -/
def DiscoveryEvent.concerns (id : DiscoveryId) : DiscoveryEvent → Bool
  | found peer => peer.discoveryId = id
  | expired other => other = id
  | stopped => false

/-- One call with its reply, and the provider before and after it. -/
abbrev DiscoveryRecord :=
  Event ManualDiscovery DiscoveryCall (Except DiscoveryFault (List DiscoveryEvent))

structure DiscoveryLedger where
  expiresAt : Option ℕ := none
  told : List (ℕ × DiscoveryEvent) := []

namespace DiscoveryLedger

/-- The events of a poll that name the candidate, with the time of the poll. -/
def heard (id : DiscoveryId) (now : ℕ) (events : List DiscoveryEvent) :
    List (ℕ × DiscoveryEvent) :=
  (events.filter (DiscoveryEvent.concerns id)).map fun event => (now, event)

/-- A successful addition opens a new page, a successful stop closes the book. -/
def record (id : DiscoveryId) (l : DiscoveryLedger) (e : DiscoveryRecord) : DiscoveryLedger :=
  match e.input, e.reply with
  | .addAddress _ added _ ttl now, .ok _ => if added = id then ⟨some (now+ttl), []⟩ else l
  | .poll now, .ok events => { l with told := l.told ++ heard id now events }
  | .stop, .ok _ => {}
  | _, _ => l

/-- The ledger of a candidate after a history. -/
def after (id : DiscoveryId) (hist : List DiscoveryRecord) : DiscoveryLedger :=
  hist.foldl (record id) {}

/-- At most one announcement, before the time is over. -/
structure Announced (id : DiscoveryId) (expiresAt : ℕ) (told : List (ℕ × DiscoveryEvent)) :
    Prop where
  once : told.length ≤ 1
  found : ∀ p ∈ told, p.1 < expiresAt ∧
    ∃ peer, p.2 = .found peer ∧ peer.discoveryId = id ∧ peer.expiresAt = expiresAt

/-- What may be told: nothing of a candidate that was not added, else at most one announcement and
after it at most one expiry, once the time is over. -/
def Lawful (id : DiscoveryId) (l : DiscoveryLedger) : Prop :=
  match l.expiresAt with
  | none => l.told = []
  | some expiresAt => ∃ announced expired, l.told = announced ++ expired ∧
      Announced id expiresAt announced ∧ expired.length ≤ 1 ∧
        ∀ p ∈ expired, expiresAt ≤ p.1 ∧ p.2 = .expired id

/-- The provider agrees with the ledger: a candidate is listed until its expiry has been told, and
queued only while nothing has been told. -/
inductive Tracks (id : DiscoveryId) (m : ManualDiscovery) : DiscoveryLedger → Prop
  | unknown : m.active[id]? = none → Tracks id m {}
  | listed {expiresAt : ℕ} {told : List (ℕ × DiscoveryEvent)} :
    m.active[id]? = some expiresAt → Announced id expiresAt told →
      (told ≠ [] → m.pending.countP (DiscoveryEvent.announces id) = 0) →
        Tracks id m ⟨some expiresAt, told⟩
  | gone {expiresAt now : ℕ} {told : List (ℕ × DiscoveryEvent)} :
    m.active[id]? = none → Announced id expiresAt told → expiresAt ≤ now →
      Tracks id m ⟨some expiresAt, told ++ [(now, .expired id)]⟩

section Tracking
variable {limit : RateLimit} {m m' : ManualDiscovery} {id : DiscoveryId} {l : DiscoveryLedger}
  {now : ℕ}

theorem Tracks.lawful (h : Tracks id m l) : l.Lawful id := by
  cases h with
  | unknown _ => rfl
  | listed _ hannounced _ => exact ⟨_, [], (List.append_nil _).symm, hannounced, by simp, by simp⟩
  | gone _ hannounced hdue =>
    refine ⟨_, _, rfl, hannounced, le_rfl, fun p hp => ?_⟩
    obtain rfl := List.mem_singleton.mp hp
    exact ⟨hdue, rfl⟩

/-- Only what is listed and queued of the candidate counts. -/
theorem Tracks.congr (h : Tracks id m l) (hactive : m'.active[id]? = m.active[id]?)
    (hpending : m'.pending.countP (DiscoveryEvent.announces id) ≤
      m.pending.countP (DiscoveryEvent.announces id)) : Tracks id m' l := by
  cases h with
  | unknown hnone => exact .unknown (hactive.trans hnone)
  | listed hlisted hannounced hquiet =>
    refine .listed (hactive.trans hlisted) hannounced fun hne => ?_
    exact Nat.eq_zero_of_le_zero (hpending.trans (hquiet hne).le)
  | gone hnone hannounced hdue => exact .gone (hactive.trans hnone) hannounced hdue

theorem heard_cons (id : DiscoveryId) (now : ℕ) (event : DiscoveryEvent)
    (events : List DiscoveryEvent) :
    heard id now (event :: events) = heard id now [event] ++ heard id now events := by
  rw [heard, heard, heard, ← List.map_append, ← List.filter_append, List.singleton_append]

theorem heard_of_concerns {event : DiscoveryEvent} (h : event.concerns id = true) (now : ℕ) :
    heard id now [event] = [(now, event)] := by
  rw [heard, List.filter_cons_of_pos h, List.filter_nil, List.map_singleton]

theorem heard_of_other {event : DiscoveryEvent} (h : ¬event.concerns id = true) (now : ℕ) :
    heard id now [event] = [] := by
  rw [heard, List.filter_cons_of_neg h, List.filter_nil, List.map_nil]

/-- An expiry ends the account of its candidate and says nothing of the others. -/
theorem Tracks.expire (h : Tracks id m l) {other : DiscoveryId} {expiresAt : ℕ}
    (hactive : m.active[other]? = some expiresAt) (hdue : expiresAt ≤ now) :
    Tracks id (m.expire other) { l with told := l.told ++ heard id now [.expired other] } := by
  by_cases heq : other = id
  · subst heq
    have hconcerns : (DiscoveryEvent.expired other).concerns other = true := decide_eq_true rfl
    rw [heard_of_concerns hconcerns]
    have hnone : (m.expire other).active[other]? = none := by
      rw [ManualDiscovery.expire, OrderedMap.lookup_erase, if_pos rfl]
    cases h with
    | unknown h0 => cases h0.symm.trans hactive
    | listed hlisted hannounced _ =>
      obtain rfl := Option.some.inj (hlisted.symm.trans hactive)
      exact .gone hnone hannounced hdue
    | gone h0 _ _ => cases h0.symm.trans hactive
  · have hconcerns : ¬(DiscoveryEvent.expired other).concerns id = true :=
      mt of_decide_eq_true heq
    rw [heard_of_other hconcerns, List.append_nil]
    refine h.congr ?_ (ManualDiscovery.countP_forget m other id)
    rw [ManualDiscovery.expire, OrderedMap.lookup_erase, if_neg heq]

/-- The front of the queue is announced: of its candidate nothing has been told before, because it
was still queued, and nothing is queued any more. -/
theorem Tracks.announce (h : Tracks id m l) (hkept : m.Kept limit) {peer : DiscoveredPeer}
    {rest : List DiscoveryEvent} (hpending : m.pending = .found peer :: rest)
    (hearly : now < peer.expiresAt) : Tracks id { m with pending := rest }
      { l with told := l.told ++ heard id now [.found peer] } := by
  have hsub : rest.Sublist m.pending := hpending ▸ List.sublist_cons_self _ _
  by_cases heq : peer.discoveryId = id
  · have hfront : (DiscoveryEvent.found peer).announces id = true :=
      (ManualDiscovery.announces_found _ _).mpr heq
    have hcount : m.pending.countP (DiscoveryEvent.announces id) =
        rest.countP (DiscoveryEvent.announces id)+1 := by
      rw [hpending, List.countP_cons_of_pos hfront]
    have honce := hkept.once id
    obtain ⟨peer', hpeer, hactive⟩ := hkept.listed _ (hpending ▸ List.mem_cons_self)
    obtain rfl := DiscoveryEvent.found.inj hpeer
    rw [heq] at hactive
    have hconcerns : (DiscoveryEvent.found peer).concerns id = true := decide_eq_true heq
    rw [heard_of_concerns hconcerns]
    cases h with
    | unknown h0 => cases h0.symm.trans hactive
    | @listed expiresAt told hlisted hannounced hquiet =>
      obtain rfl := Option.some.inj (hlisted.symm.trans hactive)
      -- A candidate is quiet once something has been told, and this one was queued.
      have hnil : told = [] := by
        by_contra hne
        have := hquiet hne
        omega
      subst hnil
      refine .listed hlisted ⟨le_rfl, fun p hp => ?_⟩ fun _ => ?_
      · obtain rfl := List.mem_singleton.mp hp
        exact ⟨hearly, peer, rfl, heq, rfl⟩
      · show rest.countP (DiscoveryEvent.announces id) = 0
        omega
    | gone h0 _ _ => cases h0.symm.trans hactive
  · have hconcerns : ¬(DiscoveryEvent.found peer).concerns id = true := mt of_decide_eq_true heq
    rw [heard_of_other hconcerns, List.append_nil]
    exact h.congr rfl hsub.countP_le

/-- The ledger grows by what an emission says of the candidate. -/
theorem Tracks.emits {event : DiscoveryEvent} (h : Tracks id m l) (hkept : m.Kept limit)
    (he : m.Emits now event m') :
    Tracks id m' { l with told := l.told ++ heard id now [event] } := by
  cases he with
  | expire hactive hdue => exact h.expire hactive hdue
  | announce hpending hearly => exact h.announce hkept hpending hearly

theorem Tracks.emitsAll {events : List DiscoveryEvent} (h : Tracks id m l) (hkept : m.Kept limit)
    (he : ManualDiscovery.EmitsAll now m events m') :
    Tracks id m' { l with told := l.told ++ heard id now events } := by
  induction he generalizing l with
  | nil => simpa [heard] using h
  | @cons m m' m'' event events hfirst _ ih =>
    have hnext := ih (h.emits hkept hfirst) (hkept.emits hfirst)
    rwa [heard_cons, ← List.append_assoc]

theorem record_failed {e : DiscoveryRecord} {fault : DiscoveryFault} (h : e.reply = .error fault)
    (l : DiscoveryLedger) : record id l e = l := by
  obtain ⟨pre, input, reply, post⟩ := e
  obtain rfl : reply = .error fault := h
  cases input <;> rfl

/-- An addition opens a new page for its candidate, and the queue holds no more of the others. -/
theorem Tracks.added (h : Tracks id m l) (peer : DiscoveredPeer) (limiter : AttemptRateLimiter) :
    Tracks id
      { m with
        limiter
        pending := m.forget peer.discoveryId ++ [.found peer]
        active := m.active.insert peer.discoveryId peer.expiresAt }
      (if peer.discoveryId = id then ⟨some peer.expiresAt, []⟩ else l) := by
  by_cases hid : peer.discoveryId = id
  · rw [if_pos hid]
    refine .listed ?_ ⟨Nat.zero_le _, by simp⟩ fun hne => absurd rfl hne
    rw [OrderedMap.lookup_insert, if_pos hid]
  · rw [if_neg hid]
    refine h.congr ?_ ?_
    · rw [OrderedMap.lookup_insert, if_neg hid]
    · have hother : ¬(DiscoveryEvent.found peer).announces id = true :=
        mt (ManualDiscovery.announces_found _ _).mp hid
      rw [List.countP_append, List.countP_singleton, if_neg hother, Nat.add_zero]
      exact ManualDiscovery.countP_forget m peer.discoveryId id

/-- A call moves the provider and the ledger together. -/
theorem Tracks.step (h : Tracks id m l) (hkept : m.Kept limit) (latest : ℕ)
    (call : DiscoveryCall) : Tracks id (ManualDiscovery.step latest m call).2
      (record id l (event (ManualDiscovery.step latest) m call)) := by
  -- A refused call changes neither what is listed and queued nor the ledger.
  cases call with
  | start request =>
    have hrecord : record id l (event (ManualDiscovery.step latest) m (.start request)) = l := rfl
    rw [hrecord]
    simp only [ManualDiscovery.step, ManualDiscovery.start]
    split
    · exact h
    split
    · exact h
    · exact h.congr rfl le_rfl
  | addAddress source added endpoint ttl now =>
    obtain ⟨fault, limiter, -, heq⟩ | ⟨request, limiter, -, -, -, heq⟩ :=
      ManualDiscovery.addAddress_cases latest m source added endpoint ttl now
    · have hfailed : (event (ManualDiscovery.step latest) m
          (.addAddress source added endpoint ttl now)).reply = .error fault := by
        simp only [event, ManualDiscovery.step, heq]
        rfl
      rw [record_failed hfailed]
      simp only [ManualDiscovery.step, heq]
      exact h.congr rfl le_rfl
    · simp only [record, event, ManualDiscovery.step, heq, Except.map]
      exact h.added ⟨added, request.serviceType, [endpoint], now+ttl⟩ limiter
  | poll now =>
    cases hrequest : m.request with
    | none =>
      have hpoll : m.poll now = (.error (.failed discoveryNotRunning), m) := by
        simp only [ManualDiscovery.poll, hrequest]
      have hfailed : (event (ManualDiscovery.step latest) m (.poll now)).reply =
          .error (.failed discoveryNotRunning) := congrArg Prod.fst hpoll
      rw [record_failed hfailed, ManualDiscovery.step, hpoll]
      exact h
    | some request =>
      obtain ⟨events, hreply, hemits, -⟩ := ManualDiscovery.poll_emits hkept hrequest now
      simp only [record, event, ManualDiscovery.step, hreply]
      exact h.emitsAll hkept hemits
  | stop =>
    by_cases hrunning : m.request.isNone = true
    · have hstop : m.stop = (.error (.failed discoveryNotRunning), m) := by
        rw [ManualDiscovery.stop, if_pos hrunning]
      have hfailed : (event (ManualDiscovery.step latest) m .stop).reply =
          .error (.failed discoveryNotRunning) := by
        simp only [event, ManualDiscovery.step, hstop]
        rfl
      rw [record_failed hfailed, ManualDiscovery.step, hstop]
      exact h
    · simp only [record, event, ManualDiscovery.step, ManualDiscovery.stop, if_neg hrunning,
        Except.map]
      exact .unknown ExtTreeMap.getElem?_empty

/-- The provider and the ledgers of all candidates after any calls. -/
theorem tracks_run {latest : ℕ} (h : ManualDiscovery.new limit = .ok m)
    (calls : List DiscoveryCall) :
    (run (ManualDiscovery.step latest) m calls).Kept limit ∧
      ∀ id, Tracks id (run (ManualDiscovery.step latest) m calls)
        (after id (trace (ManualDiscovery.step latest) m calls)) := by
  obtain ⟨hkept, -, hactive⟩ := ManualDiscovery.kept_new h
  refine run_history (ManualDiscovery.step latest)
    (P := fun hist m => m.Kept limit ∧ ∀ id, Tracks id m (after id hist)) ⟨hkept, fun id => ?_⟩
    (fun hist m call hist_kept => ⟨hist_kept.1.step latest call, fun id => ?_⟩) calls
  · refine .unknown ?_
    rw [hactive, ExtTreeMap.getElem?_empty]
  · rw [after, List.foldl_append, List.foldl_cons, List.foldl_nil]
    exact (hist_kept.2 id).step hist_kept.1 latest call

end Tracking

end DiscoveryLedger

/-- The discipline of a manual discovery provider over any run, whatever the times of its calls. -/
theorem manual_discovery_is_disciplined (latest : ℕ) {limit : RateLimit} {m : ManualDiscovery}
    (h : ManualDiscovery.new limit = .ok m) (calls : List DiscoveryCall) :
    let last := run (ManualDiscovery.step latest) m calls
    let hist := trace (ManualDiscovery.step latest) m calls
    (∀ id, last.pending.countP (DiscoveryEvent.announces id) ≤ 1) ∧
    (∀ peer, .found peer ∈ last.pending →
      last.active[peer.discoveryId]? = some peer.expiresAt) ∧
    last.active.size ≤ limit.maxCandidates ∧
    (∀ e ∈ hist, ∀ now events, e.input = .poll now → e.reply = .ok events →
      (∃ request, e.pre.request = some request ∧ events.length ≤ request.maxResultsPerPoll) ∧
        ∀ peer, .found peer ∈ events → now < peer.expiresAt) ∧
    ∀ id, (DiscoveryLedger.after id hist).Lawful id := by
  intro last hist
  obtain ⟨hkept, htracks⟩ := DiscoveryLedger.tracks_run h calls
  refine ⟨hkept.once, fun peer hpeer => ?_, hkept.bounded, fun e he now events hinput hreply => ?_,
    fun id => (htracks id).lawful⟩
  · obtain ⟨peer', hpeer', hlisted⟩ := hkept.listed _ hpeer
    obtain rfl := DiscoveryEvent.found.inj hpeer'
    exact hlisted
  · obtain ⟨before, call, after, rfl, rfl⟩ := event_split _ he
    obtain rfl : call = .poll now := hinput
    obtain ⟨hbefore, -⟩ := DiscoveryLedger.tracks_run h before
    replace hreply : ((run (ManualDiscovery.step latest) m before).poll now).1 = .ok events :=
      hreply
    cases hrequest : (run (ManualDiscovery.step latest) m before).request with
    | none =>
      rw [ManualDiscovery.poll, hrequest] at hreply
      cases hreply
    | some request =>
      obtain ⟨events', hreply', hemits, hlen⟩ := ManualDiscovery.poll_emits hbefore hrequest now
      obtain rfl := Except.ok.inj (hreply'.symm.trans hreply)
      exact ⟨⟨request, hrequest, hlen⟩, fun peer => hemits.early⟩

namespace Sample

def candidate : DiscoveryId := ⟨.replicate 16 1⟩

def endpoint : DiscoveredEndpoint := ⟨⟨"tcp", "127.0.0.1:1"⟩, 0, .plaintext⟩

def discovery : ManualDiscovery := ⟨none, [], ∅, ⟨⟨2, 100, 1, 2⟩, ∅⟩⟩

/-- A candidate is added, announced by one poll and expired by the next. -/
def discoveryCalls : List DiscoveryCall :=
  [.start ⟨"_link._tcp", 1⟩, .addAddress "lan" candidate endpoint 10 0, .poll 5, .poll 10]

end Sample

theorem sample_candidate_expires :
    let ledger := DiscoveryLedger.after Sample.candidate
      (trace (ManualDiscovery.step 1000) Sample.discovery Sample.discoveryCalls)
    ledger.told = [(5, .found ⟨Sample.candidate, "_link._tcp", [Sample.endpoint], 10⟩),
      (10, .expired Sample.candidate)] ∧ ledger.Lawful Sample.candidate := by
  have hnew : ManualDiscovery.new ⟨2, 100, 1, 2⟩ = .ok Sample.discovery := rfl
  exact ⟨by decide +kernel, (manual_discovery_is_disciplined 1000 hnew
    Sample.discoveryCalls).2.2.2.2 Sample.candidate⟩

end MutsukiLink
