import MutsukiLink.NtpFuse

/-! What the data side hands over along a run: every result was checked against the session that is
open, its landmarks come from geometry of the same session, and results come in order. -/
namespace MutsukiLink.Ntp
open WireBytes RunHistory

variable {σ : Type} {P : ReceivingProtocol} {connection : ReceivingConnection σ}

section Events

/-- The call has opened the session of a proposal. -/
def Opened (e : ReceiverEvent σ P) : Prop :=
  ∃ A, Subscriber.Opens e.pre.1.toSubscriber e.post.1.toSubscriber A

/-- No session is opened and nothing is reset. -/
def GoesOn (events : List (ReceiverEvent σ P)) : Prop :=
  ∀ e ∈ events, ¬Opened e ∧ e.reply.isReset = false

/-- A poll has kept the landmarks of a geometry of the session. -/
structure Caches (e : ReceiverEvent σ P) (A : ResultSide P.toTrackingProtocol)
    (geometry : P.Result) : Prop where
  decodes : ∃ payload, P.decodeResult payload = .ok geometry
  session : e.pre.1.resultSide = some A
  sessionId : geometry.sessionId = A.sessionId
  generation : geometry.generation = A.generation
  valid : P.validateResult A.descriptor geometry = .ok ()
  cached : e.post.1.geometryCache = some (cacheOf geometry)

/-- What one call does to the side of the session that results are checked against. -/
inductive SessionMove (e : ReceiverEvent σ P) : Prop
  | nothing (hresult : e.reply.result = none) (hreset : e.reply.isReset = false)
    (hside : e.post.1.resultSide = e.pre.1.resultSide)
    (hcache : e.post.1.geometryCache = e.pre.1.geometryCache)
  | refused (A : ResultSide P.toTrackingProtocol) (result : P.Result) (error : P.Error)
    (resultGuard : P.ResultStreamGuard) (hresult : e.reply.result = none)
    (hreset : e.reply.isReset = false) (hsession : e.pre.1.resultSide = some A)
    (hrefused : P.acceptResult A.resultGuard result = (.error error, resultGuard))
    (hside : e.post.1.resultSide = some { A with resultGuard })
    (hcache : e.post.1.geometryCache = e.pre.1.geometryCache)
  | cached (A : ResultSide P.toTrackingProtocol) (geometry : P.Result)
    (hresult : e.reply.result = none) (hreset : e.reply.isReset = false)
    (hside : e.post.1.resultSide = e.pre.1.resultSide) (hcaches : Caches e A geometry)
  | delivered (clock : ProducerClockEstimate) (now : ℕ) (readings : ℕ → ℕ)
    (A : ResultSide P.toTrackingProtocol) (decoded result : P.Result) (missing : UInt64)
    (resultGuard : P.ResultStreamGuard) (hinput : e.input = .pollRealtime clock now readings)
    (hresult : e.reply.result = some result) (hreset : e.reply.isReset = false)
    (hadmits : e.pre.1.Admits clock decoded result A missing resultGuard)
    (hside : e.post.1.resultSide = some { A with resultGuard })
    (hcache : e.post.1.geometryCache = e.pre.1.geometryCache)
    (hdropped : min (e.pre.1.report.dropped.toNat+missing.toNat) UInt64.maxNat ≤
      e.post.1.report.dropped.toNat)
  | opened (A : SubscriberSession P.toTrackingProtocol) (hresult : e.reply.result = none)
    (hopens : Subscriber.Opens e.pre.1.toSubscriber e.post.1.toSubscriber A)
  | cleared (hresult : e.reply.result = none) (hreset : e.reply.isReset = true)
    (hside : e.post.1.resultSide = none) (hcache : e.post.1.geometryCache = none)

variable {state : RealtimeSubscriber P × σ}

theorem sessionMove_polled {c c₁ : RealtimeSubscriber P} {s s₁ : σ} {clock : ProducerClockEstimate}
    {now : ℕ} {readings : ℕ → ℕ} {reply : Except P.Failure (Received P)}
    (h : RealtimeSubscriber.Handled c c₁ clock reply) {c₂ : RealtimeSubscriber P}
    (hside₂ : c₂.resultSide = c₁.resultSide) (hcache₂ : c₂.geometryCache = c₁.geometryCache)
    (hreport₂ : c₂.report = c₁.report) :
    SessionMove (σ := σ) ⟨(c, s), .pollRealtime clock now readings, .polled reply, (c₂, s₁)⟩ := by
  cases h.move with
  | nothing hnone hside hcache hreceived =>
    refine .nothing ?_ rfl (hside₂.trans hside) (hcache₂.trans hcache)
    cases reply with
    | error e => rfl
    | ok received => exact hnone received rfl
  | refused A result e resultGuard hsession hrefused hside hcache hreceived =>
    exact .refused A result e resultGuard rfl rfl hsession hrefused (hside₂.trans hside)
      (hcache₂.trans hcache)
  | cached A result hsession hside hdecodes hid hgeneration hvalid hcache hreceived =>
    exact .cached A result rfl rfl (hside₂.trans hside)
      ⟨hdecodes, hsession, hid, hgeneration, hvalid, hcache₂.trans hcache⟩
  | delivered A decoded result missing resultGuard hadmits hside hcache hreceived hdropped =>
    exact .delivered clock now readings A decoded result missing resultGuard rfl rfl rfl hadmits
      (hside₂.trans hside) (hcache₂.trans hcache) (hreport₂ ▸ hdropped)

variable (connection) in
theorem sessionMove_event (hsound : state.1.Sound) (call : ReceiverCall σ) :
    SessionMove (event (receiverStep connection) state call) := by
  obtain ⟨c, s⟩ := state
  cases call with
  | pollRealtime clock now readings =>
    rcases RealtimeSubscriber.pollRealtime_cases connection hsound s clock now
      readings with ⟨hfused, heq⟩ | ⟨hfused, reply, c₁, s₁, hhandled, heq⟩
    · simp only [event, receiverStep, heq]
      exact .nothing rfl rfl rfl rfl
    · simp only [event, receiverStep, heq]
      apply sessionMove_polled hhandled
      · split <;> rfl
      · split <;> rfl
      · split <;> rfl
  | control call =>
    have hmove := Subscriber.perform_move connection.toNtpConnection c.toSubscriber s call
    simp only [event, receiverStep, RealtimeSubscriber.control]
    generalize c.toSubscriber.perform connection.toNtpConnection s call = performed at hmove
    obtain ⟨reply, subscriber, s₁⟩ := performed
    rcases hmove.session with hsame | ⟨A, hopens⟩
    · refine .nothing rfl rfl ?_ hsame.geometryCache
      exact congrArg (Option.map SubscriberSession.resultSide) hsame.active
    · exact .opened A rfl hopens
  | resetForReconnect fresh metadata authorization now later =>
    obtain ⟨reply, c₁, s₁, heq, -, hcases⟩ := RealtimeSubscriber.resetForReconnect_cases
      connection.toNtpConnection c s fresh metadata authorization now later
    simp only [event, receiverStep, heq]
    rcases hcases with ⟨e, rfl, -, -, -, -, hsame⟩ | ⟨rfl, -, -, -, -, hactive, hcache, -⟩
    · refine .nothing rfl rfl ?_ hsame.geometryCache.symm
      exact congrArg (Option.map SubscriberSession.resultSide) hsame.active.symm
    · refine .cleared rfl rfl ?_ hcache
      exact congrArg (Option.map SubscriberSession.resultSide) hactive

end Events

/-- Nothing but the guard differs. -/
structure ResultSide.SameSession {P : TrackingProtocol} (A B : ResultSide P) : Prop where
  descriptor : B.descriptor = A.descriptor
  sessionId : B.sessionId = A.sessionId
  generation : B.generation = A.generation

section Geometry
variable {e : ReceiverEvent σ P}

/-- The call is a poll that takes in a geometry of the open session. -/
def TakesIn (connection : ReceivingConnection σ) (e : ReceiverEvent σ P)
    (A : ResultSide P.toTrackingProtocol) (geometry : P.Result) : Prop :=
  ∃ clock now readings message c s, e.input = .pollRealtime clock now readings ∧
    e.pre.1.fused = false ∧
    e.pre.1.nextMessage connection e.pre.2 readings = (.ok (some message), c, s) ∧
    c.Completes message A geometry

theorem TakesIn.session {A : ResultSide P.toTrackingProtocol} {geometry : P.Result}
    (h : TakesIn connection e A geometry) : e.pre.1.resultSide = some A := by
  obtain ⟨clock, now, readings, message, c, s, -, -, hnext, hcompletes⟩ := h
  obtain ⟨hcounts, -⟩ := RealtimeSubscriber.nextMessage_counts connection e.pre.1 e.pre.2 readings
  rw [hnext] at hcounts
  have hactive : c.active = e.pre.1.active := hcounts.active
  rw [← hcompletes.session, RealtimeSubscriber.resultSide, RealtimeSubscriber.resultSide, hactive]

/-- A poll brings at most one geometry. -/
theorem TakesIn.unique {A B : ResultSide P.toTrackingProtocol} {geometry geometry' : P.Result}
    (h : TakesIn connection e A geometry) (h' : TakesIn connection e B geometry') :
    geometry = geometry' := by
  obtain ⟨clock, now, readings, message, c, s, hinput, -, hnext, hcompletes⟩ := h
  obtain ⟨clock', now', readings', message', c', s', hinput', -, hnext', hcompletes'⟩ := h'
  cases hinput.symm.trans hinput'
  cases hnext.symm.trans hnext'
  obtain ⟨frame, hframe, hholds⟩ := hcompletes.frame
  obtain ⟨frame', hframe', hholds'⟩ := hcompletes'.frame
  cases hframe.symm.trans hframe'
  exact Except.ok.inj (hholds.decodes.symm.trans hholds'.decodes)

/-- Noting a violation spares the cache, so that a poll does to it what the inner poll does. -/
theorem pollRealtime_geometryCache (connection : ReceivingConnection σ) (c : RealtimeSubscriber P)
    (s : σ) (clock : ProducerClockEstimate) (now : ℕ) (readings : ℕ → ℕ)
    (hfused : c.fused = false) :
    (c.pollRealtime connection s clock now readings).2.1.geometryCache =
      (c.pollRealtimeInner connection s clock now readings).2.1.geometryCache := by
  simp only [RealtimeSubscriber.pollRealtime, hfused, Bool.false_eq_true, if_false]
  split
  next heq => rw [heq]
  next heq =>
    rw [heq]
    split <;> rfl

/-- A poll that brings a geometry puts it into the cache, and any other one leaves the cache alone.
-/
theorem poll_cache (connection : ReceivingConnection σ) (c : RealtimeSubscriber P) (s : σ)
    (clock : ProducerClockEstimate) (now : ℕ) (readings : ℕ → ℕ) (hfused : c.fused = false) :
    (∃ A geometry, TakesIn connection
        (event (receiverStep connection) (c, s) (.pollRealtime clock now readings)) A geometry ∧
      (c.pollRealtime connection s clock now readings).2.1.geometryCache =
        some (cacheOf geometry)) ∨
    (∀ A geometry, ¬TakesIn connection
        (event (receiverStep connection) (c, s) (.pollRealtime clock now readings)) A geometry) ∧
      (c.pollRealtime connection s clock now readings).2.1.geometryCache = c.geometryCache := by
  rw [pollRealtime_geometryCache connection c s clock now readings hfused]
  unfold RealtimeSubscriber.pollRealtimeInner
  obtain ⟨hcounts, -⟩ := RealtimeSubscriber.nextMessage_counts connection c s readings
  cases hnext : c.nextMessage connection s readings with
  | mk taken rest =>
  obtain ⟨c₁, s₁⟩ := rest
  rw [hnext] at hcounts
  have hcache : c₁.geometryCache = c.geometryCache := hcounts.geometryCache
  have hbrings {A : ResultSide P.toTrackingProtocol} {geometry : P.Result}
      (h : TakesIn connection (event (receiverStep connection) (c, s)
        (.pollRealtime clock now readings)) A geometry) :
      ∃ message, taken = .ok (some message) ∧ c₁.Completes message A geometry := by
    obtain ⟨clock', now', readings', message, c', s', hinput, -, hnext', hcompletes⟩ := h
    cases hinput
    cases hnext.symm.trans hnext'
    exact ⟨message, rfl, hcompletes⟩
  rcases taken with error | _ | message
  · refine .inr ⟨fun A geometry h => ?_, hcache⟩
    obtain ⟨message, htaken, -⟩ := hbrings h
    cases htaken
  · refine .inr ⟨fun A geometry h => ?_, hcache⟩
    obtain ⟨message, htaken, -⟩ := hbrings h
    cases htaken
  · dsimp only
    rcases RealtimeSubscriber.receive_cache c₁ message clock now with
      ⟨A, geometry, hcompletes, hafter⟩ | ⟨hnone, hafter⟩
    · exact .inl ⟨A, geometry, ⟨clock, now, readings, message, c₁, s₁, rfl, hfused, hnext,
        hcompletes⟩, hafter⟩
    · refine .inr ⟨fun A geometry h => ?_, hafter.trans hcache⟩
      obtain ⟨message', htaken, hcompletes⟩ := hbrings h
      cases htaken
      exact hnone A geometry hcompletes

/-- A poll that brings a geometry puts it into the cache. Any other call leaves the cache alone or
begins without one. -/
theorem event_cache (connection : ReceivingConnection σ) (state : RealtimeSubscriber P × σ)
    (call : ReceiverCall σ) :
    (∃ A geometry, TakesIn connection (event (receiverStep connection) state call) A geometry ∧
      (receiverStep connection state call).2.1.geometryCache = some (cacheOf geometry)) ∨
    (∀ A geometry, ¬TakesIn connection (event (receiverStep connection) state call) A geometry) ∧
      ((receiverStep connection state call).2.1.geometryCache = state.1.geometryCache ∨
        Opened (event (receiverStep connection) state call) ∨
        (receiverStep connection state call).1.isReset = true) := by
  obtain ⟨c, s⟩ := state
  cases call with
  | control call =>
    refine .inr ⟨?_, ?_⟩
    · rintro A geometry ⟨clock, now, readings, message, c', s', hinput, -⟩
      cases hinput
    · have hmove := Subscriber.perform_move connection.toNtpConnection c.toSubscriber s call
      simp only [event, receiverStep, RealtimeSubscriber.control]
      generalize c.toSubscriber.perform connection.toNtpConnection s call = performed at hmove
      obtain ⟨reply, subscriber, s₁⟩ := performed
      rcases hmove.session with hsame | ⟨A, hopens⟩
      · exact .inl hsame.geometryCache
      · exact .inr (.inl ⟨A, hopens⟩)
  | resetForReconnect fresh metadata authorization now later =>
    refine .inr ⟨?_, ?_⟩
    · rintro A geometry ⟨clock, now', readings, message, c', s', hinput, -⟩
      cases hinput
    · obtain ⟨reply, c₁, s₁, heq, -, hcases⟩ := RealtimeSubscriber.resetForReconnect_cases
        connection.toNtpConnection c s fresh metadata authorization now later
      simp only [receiverStep, heq]
      rcases hcases with ⟨error, rfl, -, -, -, -, hsame⟩ | ⟨rfl, -⟩
      · exact .inl hsame.geometryCache.symm
      · exact .inr (.inr rfl)
  | pollRealtime clock now readings =>
    by_cases hfused : c.fused = true
    · refine .inr ⟨?_, .inl ?_⟩
      · rintro A geometry ⟨clock, now, readings, message, c', s', -, hgoes, -⟩
        rw [show c.fused = false from hgoes] at hfused
        cases hfused
      · simp only [receiverStep, RealtimeSubscriber.pollRealtime, hfused, if_true]
    · rw [Bool.not_eq_true] at hfused
      rcases poll_cache connection c s clock now readings hfused with hbrings | ⟨hnone, hcache⟩
      · exact .inl hbrings
      · exact .inr ⟨hnone, .inl hcache⟩

end Geometry

section Landmarks
variable {hist : List (ReceiverEvent σ P)} {e : ReceiverEvent σ P}

/-- The geometry that was taken in last since the session was opened. -/
def LastGeometry (connection : ReceivingConnection σ) (hist : List (ReceiverEvent σ P))
    (A : ResultSide P.toTrackingProtocol) (geometry : P.Result) : Prop :=
  ∃ before e between, hist = before ++ e :: between ∧ TakesIn connection e A geometry ∧
    GoesOn between ∧ ∀ x ∈ between, ∀ B other, ¬TakesIn connection x B other

/-- What is cached is the last geometry of the session that is open now. -/
structure Retains (connection : ReceivingConnection σ) (hist : List (ReceiverEvent σ P))
    (c : RealtimeSubscriber P) : Prop where
  origin : ∀ cache, c.geometryCache = some cache → ∃ A geometry B,
    LastGeometry connection hist A geometry ∧ cache = cacheOf geometry ∧
      c.resultSide = some B ∧ A.SameSession B
  shown : ∀ A geometry, LastGeometry connection hist A geometry →
    c.geometryCache = some (cacheOf geometry)

/-- A call that leaves something in the cache belongs to the session before it. -/
theorem SessionMove.stays (h : SessionMove e) {cache : GeometryCache P.toTrackingProtocol}
    (hsome : e.post.1.geometryCache = some cache) :
    ¬Opened e ∧ e.reply.isReset = false ∧ ∀ A, e.pre.1.resultSide = some A →
      ∃ B, e.post.1.resultSide = some B ∧ A.SameSession B := by
  have hopened : ¬Opened e := by
    rintro ⟨A, hopens⟩
    have hnone : e.post.1.geometryCache = none := hopens.geometryCache
    rw [hnone] at hsome
    cases hsome
  cases h with
  | nothing hresult hreset hside | cached A geometry hresult hreset hside =>
    exact ⟨hopened, hreset, fun A hA => ⟨A, hside.trans hA, rfl, rfl, rfl⟩⟩
  | refused A result error resultGuard hresult hreset hsession hrefused hside =>
    refine ⟨hopened, hreset, fun B hB => ?_⟩
    obtain rfl := Option.some.inj (hsession.symm.trans hB)
    exact ⟨_, hside, rfl, rfl, rfl⟩
  | delivered clock now readings A decoded result missing resultGuard hinput hresult hreset hadmits
      hside =>
    refine ⟨hopened, hreset, fun B hB => ?_⟩
    obtain rfl := Option.some.inj (hadmits.session.symm.trans hB)
    exact ⟨_, hside, rfl, rfl, rfl⟩
  | opened A hresult hopens => exact absurd ⟨A, hopens⟩ hopened
  | cleared hresult hreset hside hnone =>
    rw [hnone] at hsome
    cases hsome

theorem GoesOn.concat {events : List (ReceiverEvent σ P)} (h : GoesOn events) (hopened : ¬Opened e)
    (hreset : e.reply.isReset = false) : GoesOn (events ++ [e]) := by
  intro x hx
  rcases List.mem_append.mp hx with hx | hx
  · exact h x hx
  · rw [List.mem_singleton.mp hx]
    exact ⟨hopened, hreset⟩

theorem goesOn_of_concat {events : List (ReceiverEvent σ P)} (h : GoesOn (events ++ [e])) :
    GoesOn events ∧ ¬Opened e ∧ e.reply.isReset = false :=
  ⟨fun x hx => h x (List.mem_append_left _ hx),
    h e (List.mem_append_right _ (List.mem_singleton_self e))⟩

theorem split_of_concat {hist before between : List (ReceiverEvent σ P)} {x : ReceiverEvent σ P}
    (h : hist ++ [e] = before ++ x :: between) :
    (hist = before ∧ e = x ∧ between = []) ∨
      ∃ between', hist = before ++ x :: between' ∧ between = between' ++ [e] := by
  rcases List.eq_nil_or_concat between with rfl | ⟨between', last, rfl⟩
  · obtain ⟨hhist, he⟩ := List.append_inj' h rfl
    exact Or.inl ⟨hhist, List.singleton_inj.mp he, rfl⟩
  · rw [List.concat_eq_append, ← List.cons_append, ← List.append_assoc] at h
    obtain ⟨hhist, he⟩ := List.append_inj' h rfl
    exact Or.inr ⟨between', hhist, by rw [List.singleton_inj.mp he, List.concat_eq_append]⟩

theorem LastGeometry.brought {A : ResultSide P.toTrackingProtocol} {geometry : P.Result}
    (h : TakesIn connection e A geometry) (hist : List (ReceiverEvent σ P)) :
    LastGeometry connection (hist ++ [e]) A geometry := by
  refine ⟨hist, e, [], rfl, h, ?_, ?_⟩
  · intro x hx
    cases hx
  · simp

theorem LastGeometry.goes_on {A : ResultSide P.toTrackingProtocol} {geometry : P.Result}
    (h : LastGeometry connection hist A geometry) (hopened : ¬Opened e)
    (hreset : e.reply.isReset = false) (hnone : ∀ B other, ¬TakesIn connection e B other) :
    LastGeometry connection (hist ++ [e]) A geometry := by
  obtain ⟨before, x, between, rfl, hbrings, hgoes, hlast⟩ := h
  refine ⟨before, x, between ++ [e], by simp, hbrings, hgoes.concat hopened hreset, ?_⟩
  exact List.forall_mem_append.mpr ⟨hlast, List.forall_mem_singleton.mpr hnone⟩

theorem LastGeometry.of_concat {A : ResultSide P.toTrackingProtocol} {geometry : P.Result}
    (h : LastGeometry connection (hist ++ [e]) A geometry) : TakesIn connection e A geometry ∨
      LastGeometry connection hist A geometry ∧ ¬Opened e ∧ e.reply.isReset = false ∧
        ∀ B other, ¬TakesIn connection e B other := by
  obtain ⟨before, x, between, hsplit, hbrings, hgoes, hlast⟩ := h
  rcases split_of_concat hsplit with ⟨rfl, rfl, rfl⟩ | ⟨between', rfl, rfl⟩
  · exact .inl hbrings
  · obtain ⟨hgoes', hopened, hreset⟩ := goesOn_of_concat hgoes
    obtain ⟨hlast', hnone⟩ := List.forall_mem_append.mp hlast
    exact .inr ⟨⟨before, x, between', rfl, hbrings, hgoes', hlast'⟩, hopened, hreset,
      hnone e (List.mem_singleton_self e)⟩

theorem Retains.step (h : Retains connection hist e.pre.1) (hmove : SessionMove e)
    (hcache : (∃ A geometry, TakesIn connection e A geometry ∧
        e.post.1.geometryCache = some (cacheOf geometry)) ∨
      (∀ A geometry, ¬TakesIn connection e A geometry) ∧
        (e.post.1.geometryCache = e.pre.1.geometryCache ∨ Opened e ∨ e.reply.isReset = true)) :
    Retains connection (hist ++ [e]) e.post.1 := by
  rcases hcache with ⟨A, geometry, hbrings, hafter⟩ | ⟨hnone, hafter⟩
  · obtain ⟨-, -, hside⟩ := hmove.stays hafter
    obtain ⟨B, hB, hsame⟩ := hside A hbrings.session
    refine ⟨fun cache hsome => ?_, fun A' other hlast => ?_⟩
    · obtain rfl := Option.some.inj (hafter.symm.trans hsome)
      exact ⟨A, geometry, B, .brought hbrings hist, rfl, hB, hsame⟩
    · rcases hlast.of_concat with hbrings' | ⟨-, -, -, hnone⟩
      · rw [hafter, hbrings.unique hbrings']
      · exact absurd hbrings (hnone A geometry)
  -- Where the session goes on, the cache is the one before.
  have hkept (hopened : ¬Opened e) (hreset : e.reply.isReset = false) :
      e.post.1.geometryCache = e.pre.1.geometryCache := by
    rcases hafter with hstays | hends | hends
    · exact hstays
    · exact absurd hends hopened
    · rw [hreset] at hends
      cases hends
  refine ⟨fun cache hsome => ?_, fun A other hlast => ?_⟩
  · obtain ⟨hopened, hreset, hside⟩ := hmove.stays hsome
    obtain ⟨A, geometry, B, hlast, rfl, hB, hsame⟩ :=
      h.origin cache (hkept hopened hreset ▸ hsome)
    obtain ⟨B', hB', hsame'⟩ := hside B hB
    exact ⟨A, geometry, B', hlast.goes_on hopened hreset hnone, rfl, hB',
      hsame'.descriptor.trans hsame.descriptor, hsame'.sessionId.trans hsame.sessionId,
      hsame'.generation.trans hsame.generation⟩
  · rcases hlast.of_concat with hbrings | ⟨hlast', hopened, hreset, -⟩
    · exact absurd hbrings (hnone A other)
    · rw [hkept hopened hreset, h.shown A other hlast']

/-- The landmarks of a geometry are for this result: both have one session and one generation, and
the geometry is no newer. -/
def Lends (geometry decoded : P.Result) : Prop :=
  geometry.sessionId = decoded.sessionId ∧ geometry.generation = decoded.generation ∧
    geometry.sequence ≤ decoded.sequence

/-- A result has the landmarks of the geometry that was taken in last since its session was opened,
if these are for it, and otherwise those that it was decoded with. -/
def LandmarksFrom (connection : ReceivingConnection σ) (before : List (ReceiverEvent σ P))
    (A : ResultSide P.toTrackingProtocol) (decoded result : P.Result) : Prop :=
  (∃ B geometry, LastGeometry connection before B geometry ∧ B.SameSession A ∧
    Lends geometry decoded ∧ result = { decoded with faceLandmarks := geometry.faceLandmarks }) ∨
  result = decoded ∧ ∀ B geometry, LastGeometry connection before B geometry →
    ¬Lends geometry decoded

theorem Retains.landmarks {c : RealtimeSubscriber P} (h : Retains connection hist c)
    {A : ResultSide P.toTrackingProtocol} (hA : c.resultSide = some A) (decoded : P.Result) :
    LandmarksFrom connection hist A decoded (c.withLandmarks decoded) := by
  unfold RealtimeSubscriber.withLandmarks
  cases hcache : c.geometryCache with
  | none =>
    refine .inr ⟨rfl, fun B geometry hlast => ?_⟩
    rw [h.shown B geometry hlast] at hcache
    cases hcache
  | some cache =>
    obtain ⟨B, geometry, A', hlast, rfl, hA', hsame⟩ := h.origin cache hcache
    obtain rfl := Option.some.inj (hA.symm.trans hA')
    dsimp only
    split
    · next hfits => exact .inl ⟨B, geometry, hlast, hsame, hfits, rfl⟩
    · next hother =>
      refine .inr ⟨rfl, fun B' geometry' hlast' hlends => hother ?_⟩
      have hcacheOf := h.shown B' geometry' hlast'
      rw [hcache, Option.some.injEq] at hcacheOf
      rw [hcacheOf]
      exact hlends

end Landmarks

/-- A subscriber that was just made is in no session. -/
theorem retains_new {c : RealtimeSubscriber P} (h : c.geometryCache = none) :
    Retains connection ([] : List (ReceiverEvent σ P)) c := by
  refine ⟨fun cache hsome => ?_, fun A geometry hlast => ?_⟩
  · rw [h] at hsome
    cases hsome
  · obtain ⟨before, e, between, hsplit, -⟩ := hlast
    simp at hsplit

theorem retains_trace {connection : ReceivingConnection σ} {s : σ} {metadata : ConnectionMetadata}
    {authorization : NtpAuthorization} {config : BindingConfig} {now later : ℕ}
    {c : RealtimeSubscriber P}
    (hnew : RealtimeSubscriber.new connection.toNtpConnection s metadata authorization config now
      later = .ok c) (calls : List (ReceiverCall σ)) :
    Retains connection (trace (receiverStep connection) (c, s) calls)
      (run (receiverStep connection) (c, s) calls).1 := by
  obtain ⟨-, hpositive, -, -, -, -, -, -, hcache⟩ := RealtimeSubscriber.new_cases hnew
  have hboth := run_history (receiverStep connection)
    (P := fun hist state => Tracks config hist state ∧ Retains connection hist state.1)
    ⟨tracks_trace hnew [], retains_new hcache⟩ ?_ calls
  · exact hboth.2
  · intro hist state call h
    refine ⟨h.1.step hpositive call, ?_⟩
    exact Retains.step (e := event (receiverStep connection) state call) h.2
      (sessionMove_event connection h.1.sound call) (event_cache connection state call)

/-- Every result that a poll hands over is of the generation of the open session, no older than the
limit, valid for its descriptor and accepted by its guard. Its landmarks are those of the geometry
that was taken in last in that session, if that one is of the same session and generation and no
newer, and otherwise its own. -/
theorem delivered_results_fit_the_session (connection : ReceivingConnection σ) (s : σ)
    (metadata : ConnectionMetadata) (authorization : NtpAuthorization) (config : BindingConfig)
    (now later : ℕ) (c : RealtimeSubscriber P)
    (hnew : RealtimeSubscriber.new connection.toNtpConnection s metadata authorization config now
      later = .ok c) (calls : List (ReceiverCall σ)) (before after : List (ReceiverEvent σ P))
    (e : ReceiverEvent σ P)
    (hsplit : trace (receiverStep connection) (c, s) calls = before ++ e :: after)
    (result : P.Result) (hresult : e.reply.result = some result) :
    ∃ clock now readings A decoded missing resultGuard,
      e.input = .pollRealtime clock now readings ∧ e.pre.1.config = config ∧
      e.pre.1.Admits clock decoded result A missing resultGuard ∧
      e.post.1.resultSide = some { A with resultGuard } ∧
      LandmarksFrom connection before A decoded result := by
  obtain ⟨js, call, ks, -, rfl, rfl, -⟩ := trace_cut (receiverStep connection) hsplit
  have htracks := tracks_trace hnew js
  have hretains := retains_trace hnew js
  have hmove := sessionMove_event connection htracks.sound call
  cases hmove with
  | delivered clock now readings A decoded result' missing resultGuard hinput hresult' hreset
      hadmits hside hcache hdropped =>
    obtain rfl := Option.some.inj (hresult'.symm.trans hresult)
    refine ⟨clock, now, readings, A, decoded, missing, resultGuard, hinput, htracks.config_eq,
      hadmits, hside, ?_⟩
    rw [hadmits.landmarks]
    exact hretains.landmarks hadmits.session decoded
  | nothing hnone | refused A result' error resultGuard hnone | cached A geometry hnone
  | opened A hnone | cleared hnone =>
    rw [hnone] at hresult
    cases hresult

/-- What a guard of results remembers: the session that it was made for and the last sequence that
it has accepted. It accepts only later results of that session, and says how many are missing. -/
structure ResultGuardLaws (P : ReceivingProtocol) where
  session : P.ResultStreamGuard → NtpSessionId × UInt32
  last : P.ResultStreamGuard → Option UInt64
  session_new : ∀ sessionId generation,
    session (P.newResultGuard sessionId generation) = (sessionId, generation)
  last_new : ∀ sessionId generation, last (P.newResultGuard sessionId generation) = none
  accepted : ∀ resultGuard result missing after,
    P.acceptResult resultGuard result = (.ok missing, after) →
      (result.sessionId, result.generation) = session resultGuard ∧
      session after = session resultGuard ∧ last after = some result.sequence ∧
      ∀ previous, last resultGuard = some previous →
        previous < result.sequence ∧ missing = result.sequence-previous-1
  refused : ∀ resultGuard result e after,
    P.acceptResult resultGuard result = (.error e, after) →
      session after = session resultGuard ∧ last after = last resultGuard

section Order
variable (laws : ResultGuardLaws P) {hist : List (ReceiverEvent σ P)} {e : ReceiverEvent σ P}

/-- The guard is that of its session, and it has seen every result that was handed over in it. -/
structure Ordered (hist : List (ReceiverEvent σ P)) (c : RealtimeSubscriber P) : Prop where
  guarded : ∀ A, c.resultSide = some A → laws.session A.resultGuard = (A.sessionId, A.generation)
  seen : ∀ before e between result, hist = before ++ e :: between →
    e.reply.result = some result → GoesOn between →
    ∃ A last, c.resultSide = some A ∧ laws.last A.resultGuard = some last ∧
      laws.session A.resultGuard = (result.sessionId, result.generation) ∧
      result.sequence ≤ last ∧
      ((∀ x ∈ between, x.reply.result = none) → last = result.sequence)

/-- A call that hands nothing over and leaves what the guard remembers. -/
theorem Ordered.stays {laws : ResultGuardLaws P} (h : Ordered laws hist e.pre.1)
    (hresult : e.reply.result = none)
    (hside : ∀ B, e.post.1.resultSide = some B → ∃ A, e.pre.1.resultSide = some A ∧
      B.sessionId = A.sessionId ∧ B.generation = A.generation ∧
      laws.session B.resultGuard = laws.session A.resultGuard)
    (hlast : ∀ A, e.pre.1.resultSide = some A → ∃ B, e.post.1.resultSide = some B ∧
      laws.session B.resultGuard = laws.session A.resultGuard ∧
      laws.last B.resultGuard = laws.last A.resultGuard) :
    Ordered laws (hist ++ [e]) e.post.1 := by
  refine ⟨?_, ?_⟩
  · intro B hB
    obtain ⟨A, hA, hid, hgeneration, hsession⟩ := hside B hB
    rw [hsession, h.guarded A hA, hid, hgeneration]
  · intro before x between result hsplit hx hgoes
    rcases split_of_concat hsplit with ⟨-, rfl, -⟩ | ⟨between', rfl, rfl⟩
    · rw [hresult] at hx
      cases hx
    obtain ⟨hgoes', -, -⟩ := goesOn_of_concat hgoes
    obtain ⟨A, last, hA, hlastA, hsessionA, hle, hexact⟩ :=
      h.seen before x between' result rfl hx hgoes'
    obtain ⟨B, hB, hsession, hlastB⟩ := hlast A hA
    refine ⟨B, last, hB, hlastB.trans hlastA, hsession.trans hsessionA, hle, ?_⟩
    intro hnone
    exact hexact fun y hy => hnone y (List.mem_append_left _ hy)

/-- The result that is handed over is later than all that were handed over in its session. -/
theorem Ordered.delivers {laws : ResultGuardLaws P} (h : Ordered laws hist e.pre.1)
    {A : ResultSide P.toTrackingProtocol} {result : P.Result} {missing : UInt64}
    {resultGuard : P.ResultStreamGuard} (hresult : e.reply.result = some result)
    (hsession : e.pre.1.resultSide = some A)
    (haccepted : P.acceptResult A.resultGuard result = (.ok missing, resultGuard))
    (hside : e.post.1.resultSide = some { A with resultGuard }) :
    Ordered laws (hist ++ [e]) e.post.1 := by
  obtain ⟨hresultSession, hkept, hlast, hlater⟩ := laws.accepted _ _ _ _ haccepted
  refine ⟨?_, ?_⟩
  · intro B hB
    obtain rfl := Option.some.inj (hside.symm.trans hB)
    exact hkept.trans (h.guarded A hsession)
  · intro before x between earlier hsplit hx hgoes
    rcases split_of_concat hsplit with ⟨rfl, rfl, rfl⟩ | ⟨between', rfl, rfl⟩
    · obtain rfl := Option.some.inj (hresult.symm.trans hx)
      exact ⟨_, result.sequence, hside, hlast, hkept.trans hresultSession.symm, UInt64.le_refl _,
        fun _ => rfl⟩
    obtain ⟨hgoes', -, -⟩ := goesOn_of_concat hgoes
    obtain ⟨A', previous, hA', hprevious, hearlier, hle, -⟩ :=
      h.seen before x between' earlier rfl hx hgoes'
    obtain rfl := Option.some.inj (hsession.symm.trans hA')
    obtain ⟨hlt, -⟩ := hlater previous hprevious
    refine ⟨_, result.sequence, hside, hlast, hkept.trans hearlier,
      UInt64.le_of_lt (UInt64.lt_of_le_of_lt hle hlt), ?_⟩
    intro hnone
    have hnow := hnone e (List.mem_append_right _ (List.mem_singleton_self e))
    rw [hresult] at hnow
    cases hnow

/-- After a session was opened or everything was reset, no result of another one matters. -/
theorem Ordered.begins {laws : ResultGuardLaws P}
    (hresult : e.reply.result = none) (hends : Opened e ∨ e.reply.isReset = true)
    (hguarded : ∀ A, e.post.1.resultSide = some A →
      laws.session A.resultGuard = (A.sessionId, A.generation)) :
    Ordered laws (hist ++ [e]) e.post.1 := by
  refine ⟨hguarded, ?_⟩
  intro before x between result hsplit hx hgoes
  rcases split_of_concat hsplit with ⟨-, rfl, -⟩ | ⟨between', rfl, rfl⟩
  · rw [hresult] at hx
    cases hx
  obtain ⟨-, hopened, hreset⟩ := goesOn_of_concat hgoes
  rcases hends with hends | hends
  · exact absurd hends hopened
  · rw [hreset] at hends
    cases hends

theorem Ordered.step {laws : ResultGuardLaws P} (h : Ordered laws hist e.pre.1)
    (hmove : SessionMove e) : Ordered laws (hist ++ [e]) e.post.1 := by
  have hsame (hresult : e.reply.result = none)
      (hside : e.post.1.resultSide = e.pre.1.resultSide) :
      Ordered laws (hist ++ [e]) e.post.1 := by
    refine h.stays hresult ?_ ?_
    · intro B hB
      exact ⟨B, hside.symm.trans hB, rfl, rfl, rfl⟩
    · intro A hA
      exact ⟨A, hside.trans hA, rfl, rfl⟩
  cases hmove with
  | nothing hresult hreset hside hcache => exact hsame hresult hside
  | refused A result error resultGuard hresult hreset hsession hrefused hside hcache =>
    obtain ⟨hkept, hlast⟩ := laws.refused _ _ _ _ hrefused
    refine h.stays hresult ?_ ?_
    · intro B hB
      obtain rfl := Option.some.inj (hside.symm.trans hB)
      exact ⟨A, hsession, rfl, rfl, hkept⟩
    · intro A' hA'
      obtain rfl := Option.some.inj (hsession.symm.trans hA')
      exact ⟨_, hside, hkept, hlast⟩
  | cached A geometry hresult hreset hside hcaches => exact hsame hresult hside
  | delivered clock now readings A decoded result missing resultGuard hinput hresult hreset hadmits
      hside hcache hdropped => exact h.delivers hresult hadmits.session hadmits.accepted hside
  | opened A hresult hopens =>
    refine .begins hresult (Or.inl ⟨A, hopens⟩) ?_
    intro B hB
    have hside : e.post.1.resultSide = some A.resultSide :=
      congrArg (Option.map SubscriberSession.resultSide) hopens.active
    obtain rfl := Option.some.inj (hside.symm.trans hB)
    obtain ⟨proposal, layout, guard, -, rfl⟩ := hopens.proposed
    exact laws.session_new _ _
  | cleared hresult hreset hside hcache =>
    refine .begins hresult (Or.inr hreset) ?_
    intro B hB
    rw [hside] at hB
    cases hB

end Order

theorem ordered_trace (laws : ResultGuardLaws P) {connection : ReceivingConnection σ} {s : σ}
    {metadata : ConnectionMetadata} {authorization : NtpAuthorization} {config : BindingConfig}
    {now later : ℕ} {c : RealtimeSubscriber P}
    (hnew : RealtimeSubscriber.new connection.toNtpConnection s metadata authorization config now
      later = .ok c) (calls : List (ReceiverCall σ)) :
    Ordered laws (trace (receiverStep connection) (c, s) calls)
      (run (receiverStep connection) (c, s) calls).1 := by
  obtain ⟨-, hpositive, -, -, -, -, -, hactive, -⟩ := RealtimeSubscriber.new_cases hnew
  have hstart : Ordered laws ([] : List (ReceiverEvent σ P)) c := by
    refine ⟨?_, ?_⟩
    · intro A hA
      rw [RealtimeSubscriber.resultSide, hactive] at hA
      cases hA
    · intro before e between result hsplit
      simp at hsplit
  have hboth := run_history (receiverStep connection)
    (P := fun hist state => Tracks config hist state ∧ Ordered laws hist state.1)
    ⟨tracks_trace hnew [], hstart⟩ ?_ calls
  · exact hboth.2
  · intro hist state call h
    refine ⟨h.1.step hpositive call, ?_⟩
    exact Ordered.step (e := event (receiverStep connection) state call) h.2
      (sessionMove_event connection h.1.sound call)

/-- Every result has the identifier and generation of the session that is open. Of two results that
are handed over while a session goes on the second is the later one, and what lies between them is
counted as dropped. -/
theorem results_come_in_order (laws : ResultGuardLaws P) (connection : ReceivingConnection σ)
    (s : σ) (metadata : ConnectionMetadata) (authorization : NtpAuthorization)
    (config : BindingConfig) (now later : ℕ) (c : RealtimeSubscriber P)
    (hnew : RealtimeSubscriber.new connection.toNtpConnection s metadata authorization config now
      later = .ok c) (calls : List (ReceiverCall σ)) :
    (∀ e ∈ trace (receiverStep connection) (c, s) calls, ∀ result, e.reply.result = some result →
      ∃ A, e.pre.1.resultSide = some A ∧ result.sessionId = A.sessionId ∧
        result.generation = A.generation) ∧
    ∀ before e between e' after result result',
      trace (receiverStep connection) (c, s) calls = before ++ e :: (between ++ e' :: after) →
      e.reply.result = some result → e'.reply.result = some result' → GoesOn between →
      result'.sessionId = result.sessionId ∧ result'.generation = result.generation ∧
        result.sequence < result'.sequence ∧
        ((∀ x ∈ between, x.reply.result = none) →
          min (e'.pre.1.report.dropped.toNat+(result'.sequence.toNat-result.sequence.toNat-1))
            UInt64.maxNat ≤ e'.post.1.report.dropped.toNat) := by
  refine ⟨?_, ?_⟩
  · intro e he result hresult
    obtain ⟨js, call, ks, -, rfl⟩ := event_split (receiverStep connection) he
    have hordered := ordered_trace laws hnew js
    have hmove := sessionMove_event connection (tracks_trace hnew js).sound call
    cases hmove with
    | delivered clock now readings A decoded result' missing resultGuard hinput hresult' hreset
        hadmits hside hcache hdropped =>
      obtain rfl := Option.some.inj (hresult'.symm.trans hresult)
      obtain ⟨hsession, -, -, -⟩ := laws.accepted _ _ _ _ hadmits.accepted
      rw [hordered.guarded A hadmits.session] at hsession
      obtain ⟨hid, hgeneration⟩ := Prod.mk.inj hsession
      exact ⟨A, hadmits.session, hid, hgeneration⟩
    | nothing hnone | refused A result' error resultGuard hnone | cached A geometry hnone
    | opened A hnone | cleared hnone =>
      rw [hnone] at hresult
      cases hresult
  · intro before e between e' after result result' hsplit hresult hresult' hgoes
    rw [← List.cons_append, ← List.append_assoc] at hsplit
    obtain ⟨js, call, ks, -, hbefore, rfl, -⟩ := trace_cut (receiverStep connection) hsplit
    have hordered := ordered_trace laws hnew js
    have hmove := sessionMove_event connection (tracks_trace hnew js).sound call
    obtain ⟨A, last, hA, hlast, hsession, hle, hexact⟩ :=
      hordered.seen before e between result hbefore hresult hgoes
    cases hmove with
    | delivered clock now readings A' decoded result'' missing resultGuard hinput hresult'' hreset
        hadmits hside hcache hdropped =>
      obtain rfl := Option.some.inj (hresult''.symm.trans hresult')
      obtain rfl := Option.some.inj (hA.symm.trans hadmits.session)
      obtain ⟨hsession', -, -, hlater⟩ := laws.accepted _ _ _ _ hadmits.accepted
      obtain ⟨hlt, hmissing⟩ := hlater last hlast
      obtain ⟨hid, hgeneration⟩ := Prod.mk.inj (hsession'.trans hsession)
      refine ⟨hid, hgeneration, UInt64.lt_of_le_of_lt hle hlt, ?_⟩
      intro hnone
      obtain rfl := hexact hnone
      have hgap : missing.toNat = result''.sequence.toNat-result.sequence.toNat-1 := by
        rw [UInt64.lt_iff_toNat_lt] at hlt
        have hone : (1 : UInt64).toNat = 1 := rfl
        have hle' : result.sequence ≤ result''.sequence := UInt64.le_iff_toNat_le.mpr hlt.le
        have hsub := UInt64.toNat_sub_of_le _ _ hle'
        have hpositive : (1 : UInt64) ≤ result''.sequence-result.sequence := by
          rw [UInt64.le_iff_toNat_le, hsub, hone]
          omega
        rw [hmissing, UInt64.toNat_sub_of_le _ _ hpositive, hsub, hone]
      rw [← hgap]
      exact hdropped
    | nothing hnone | refused A' result'' error resultGuard hnone | cached A' geometry hnone
    | opened A' hnone | cleared hnone =>
      rw [hnone] at hresult'
      cases hresult'

namespace Sample

def receivingProtocol_guard : ResultGuardLaws receivingProtocol where
  session resultGuard := (resultGuard.1, resultGuard.2.1)
  last resultGuard := resultGuard.2.2
  session_new _ _ := rfl
  last_new _ _ := rfl
  accepted := by
    rintro ⟨sessionId, generation, last⟩ result missing after h
    simp only [receivingProtocol] at h
    split at h
    · cases (Prod.mk.inj h).1
    next hsession =>
    rw [not_or, not_not, not_not] at hsession
    have hsame : (result.sessionId, result.generation) = (sessionId, generation) :=
      Prod.ext hsession.1 hsession.2
    cases last with
    | none =>
      obtain ⟨-, rfl⟩ := Prod.mk.inj h
      refine ⟨hsame, rfl, rfl, ?_⟩
      intro previous hprevious
      cases hprevious
    | some last =>
      dsimp only at h
      split at h
      · cases (Prod.mk.inj h).1
      next hlate =>
      obtain ⟨hmissing, rfl⟩ := Prod.mk.inj h
      refine ⟨hsame, rfl, rfl, ?_⟩
      intro previous hprevious
      obtain rfl := Option.some.inj hprevious
      exact ⟨UInt64.not_le.mp hlate, (Except.ok.inj hmissing).symm⟩
  refused := by
    rintro ⟨sessionId, generation, last⟩ result e after h
    simp only [receivingProtocol] at h
    split at h
    · obtain ⟨-, rfl⟩ := Prod.mk.inj h
      exact ⟨rfl, rfl⟩
    cases last with
    | none => cases (Prod.mk.inj h).1
    | some last =>
      dsimp only at h
      split at h
      · obtain ⟨-, rfl⟩ := Prod.mk.inj h
        exact ⟨rfl, rfl⟩
      · cases (Prod.mk.inj h).1

/-- The messages that open the session of the proposal. -/
def openingMessages : List receivingProtocol.Message :=
  [.hello (.new linkSession), .sessionProposal trackingProposal,
    .layoutConfirmed ⟨7, .replicate 32 0⟩]

/-- A session is opened; then a geometry with one landmark comes, one with two, and two results. -/
def trackingInlet : Inlet where
  lanes := ⟨[], openingMessages.filterMap fun m => m.encode.toOption, [], {}⟩
  wires := [reliableWire geometryFlow 1 2 [2, 9], reliableWire geometryFlow 1 3 [3, 9, 9],
    reliableWire coreResultFlow 1 4 [4], reliableWire coreResultFlow 1 7 [7]]

def trackingCalls : List (ReceiverCall Inlet) :=
  [.control (.pollControl 0 0), .control (.pollControl 0 0), .control (.pollControl 0 0),
    pollAt 0, pollAt 0, pollAt 0, pollAt 0]

def newTracking : Except receivingProtocol.Failure (RealtimeSubscriber receivingProtocol) :=
  newReceiver { maxReceiveFramesPerPoll := 1 } trackingInlet

/-- The first result has the landmarks of the last geometry before it. -/
theorem sample_result_fits : ∃ c, newTracking = .ok c ∧
    ∃ before e after result A decoded, trace (receiverStep inletConnection) (c, trackingInlet)
      trackingCalls = before ++ e :: after ∧ e.reply.result = some result ∧
      result.faceLandmarks = [(), ()] ∧
      LandmarksFrom inletConnection before A decoded result := by
  obtain ⟨c, hc, hlandmarks⟩ : ∃ c, newTracking = .ok c ∧
      (((trace (receiverStep inletConnection) (c, trackingInlet) trackingCalls)[5]?).bind
        fun e => e.reply.result).map (fun result => result.faceLandmarks) = some [(), ()] :=
    ⟨_, rfl, by decide +kernel⟩
  obtain ⟨result, hbind, htwo⟩ := Option.map_eq_some_iff.mp hlandmarks
  obtain ⟨e, he, hresult⟩ := Option.bind_eq_some_iff.mp hbind
  obtain ⟨before, after, hsplit⟩ := List.append_of_mem (List.mem_of_getElem? he)
  obtain ⟨clock, now, readings, A, decoded, missing, resultGuard, -, -, -, -, hfrom⟩ :=
    delivered_results_fit_the_session inletConnection trackingInlet ⟨some peer, true⟩
      ⟨peer, linkSession, .subscriber⟩ { maxReceiveFramesPerPoll := 1 } 0 0 c hc trackingCalls
      before after e hsplit result hresult
  exact ⟨c, hc, before, e, after, result, A, decoded, hsplit, hresult, htwo, hfrom⟩

/-- The results 4 and 7 leave two sequences missing. -/
theorem sample_results_in_order : ∃ c, newTracking = .ok c ∧
    ∃ before e e' after result result', trace (receiverStep inletConnection) (c, trackingInlet)
      trackingCalls = before ++ e :: ([] ++ e' :: after) ∧ e.reply.result = some result ∧
      e'.reply.result = some result' ∧ result.sequence = 4 ∧ result'.sequence = 7 ∧
      result'.sessionId = result.sessionId ∧ 2 ≤ e'.post.1.report.dropped.toNat := by
  obtain ⟨c, hc, hsequences⟩ : ∃ c, newTracking = .ok c ∧
      ((trace (receiverStep inletConnection) (c, trackingInlet) trackingCalls).drop 5).map
        (fun e => e.reply.result.map fun result => result.sequence) = [some 4, some 7] :=
    ⟨_, rfl, by decide +kernel⟩
  obtain ⟨e, rest, hdrop, hfour, hrest⟩ := List.map_eq_cons_iff.mp hsequences
  obtain ⟨e', after, rfl, hseven, -⟩ := List.map_eq_cons_iff.mp hrest
  obtain ⟨result, hresult, hsequence⟩ := Option.map_eq_some_iff.mp hfour
  obtain ⟨result', hresult', hsequence'⟩ := Option.map_eq_some_iff.mp hseven
  have hsplit := (List.take_append_drop 5
    (trace (receiverStep inletConnection) (c, trackingInlet) trackingCalls)).symm
  rw [hdrop] at hsplit
  have hgoes : GoesOn ([] : List (ReceiverEvent Inlet receivingProtocol)) := by
    intro x hx
    cases hx
  obtain ⟨hid, -, -, hdropped⟩ := (results_come_in_order receivingProtocol_guard inletConnection
    trackingInlet ⟨some peer, true⟩ ⟨peer, linkSession, .subscriber⟩
    { maxReceiveFramesPerPoll := 1 } 0 0 c hc trackingCalls).2 _ e [] e' after result result'
    hsplit hresult hresult' hgoes
  refine ⟨c, hc, _, e, e', after, result, result', hsplit, hresult, hresult', hsequence, hsequence',
    hid, ?_⟩
  have hle := hdropped (by simp)
  rw [hsequence, hsequence'] at hle
  have hfour : (4 : UInt64).toNat = 4 := rfl
  have hseven : (7 : UInt64).toNat = 7 := rfl
  rw [hfour, hseven] at hle
  unfold UInt64.maxNat at hle
  omega

end Sample

end MutsukiLink.Ntp
