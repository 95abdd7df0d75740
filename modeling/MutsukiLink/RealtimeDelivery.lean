import Mathlib.Data.List.Pairwise
import MutsukiLink.FragmentAssembly
import MutsukiLink.RealtimeCases

/-! A publisher, its send queue, a network that loses, reorders and repeats datagrams, and the
reassembler of the receiver. Everything that is under way is a fragment of a published payload. -/
namespace MutsukiLink
open WireBytes

/-- What a connection may do with its send queue. -/
inductive QueueCall where
  | enqueue (datagram : RealtimeDatagram) (now : ℕ)
  | peekNextWireLen (now : ℕ)
  | popNext (now : ℕ)
  | popNextFitting (now maxWireLen : ℕ)
  | noteTransportCongestion
  | dropDisposableForCongestion
  | setMaxPayload (maxPayload : ℕ)
  | noteNetworkMetrics (rttUs : ℕ) (estimatedSendRateBps : Option ℕ)
      (transportCongestionEvents : ℕ)
  | noteMigration
  | resetForReconnect
  | clearPending

/-- The send queue, and all datagrams that have been given to the network. -/
structure RealtimeLink where
  queue : RealtimeSendQueue
  wires : List Bytes

namespace RealtimeLink

/-- A popped datagram is encoded and given to the network. -/
def emit (link : RealtimeLink) :
    Option QueuedRealtimeDatagram × RealtimeSendQueue → RealtimeLink
  | (none, queue) => { link with queue }
  | (some datagram, queue) =>
    match encodeRealtimeDatagram datagram with
    | .error _ => { link with queue }
    | .ok wire => { queue := queue.noteSent datagram, wires := link.wires ++ [wire] }

def call (link : RealtimeLink) : QueueCall → RealtimeLink
  | .enqueue datagram now => { link with queue := (link.queue.enqueue datagram now).2 }
  | .peekNextWireLen now => { link with queue := (link.queue.peekNextWireLen now).2 }
  | .popNext now => link.emit (link.queue.popNext now)
  | .popNextFitting now maxWireLen => link.emit (link.queue.popNextFitting now maxWireLen)
  | .noteTransportCongestion => { link with queue := link.queue.noteTransportCongestion }
  | .dropDisposableForCongestion =>
    { link with queue := link.queue.dropDisposableForCongestion.2 }
  | .setMaxPayload maxPayload => { link with queue := (link.queue.setMaxPayload maxPayload).2 }
  | .noteNetworkMetrics rttUs rate events =>
    { link with queue := link.queue.noteNetworkMetrics rttUs rate events }
  | .noteMigration => { link with queue := link.queue.noteMigration }
  | .resetForReconnect => { link with queue := link.queue.resetForReconnect }
  | .clearPending => { link with queue := link.queue.clearPending }

end RealtimeLink

/-- One `try_send_latest`: the datagram is enqueued, with anything the connection does to its queue
before and after, and the connection reports what it likes. -/
structure SendTurn where
  before : List QueueCall
  now : ℕ
  after : List QueueCall
  report : Except TransportError SendOutcome → Except TransportError SendOutcome

structure TurnConnection where
  link : RealtimeLink
  limit : Option ℕ
  turns : List SendTurn

/-- A connection that puts what it is given into the queue, until its turns are used up. -/
def queueConnection : LatestConnection TurnConnection where
  maxDatagramPayload s := s.limit
  trySendLatest s datagram :=
    match s.turns with
    | [] => (.error ⟨.closed, "QUIC connection is closed"⟩, s)
    | turn :: turns =>
      let link := turn.before.foldl RealtimeLink.call s.link
      let (outcome, queue) := link.queue.enqueue datagram turn.now
      (turn.report outcome,
        { s with link := turn.after.foldl RealtimeLink.call { link with queue }, turns })

structure RealtimeWorld where
  link : RealtimeLink
  reassembler : Reassembler

inductive RealtimeAction where
  | publish (generation : UInt32) (sequence : UInt64) (deadline : ℕ)
      (priority : RealtimePriority) (payload : Bytes) (limit : Option ℕ) (turns : List SendTurn)
  | call (call : QueueCall)
  | deliver (index receivedAt : ℕ)

/-- What came of an action. A delivery may find no datagram or one of another flow. -/
inductive RealtimeReply (ε : Type) where
  | published (result : Except (BindingError ε) FragmentBatchOutcome)
  | called
  | nothing
  | undecodable (error : TransportError)
  | otherFlow
  | pushed (result : Except (BindingError ε) ReassemblyOutcome)

namespace RealtimeWorld

section Step
variable {ε : Type} (flow : RealtimeFlowId) (config : BindingConfig)

def publish (w : RealtimeWorld) (request : FragmentSend) (limit : Option ℕ)
    (turns : List SendTurn) : RealtimeReply ε × RealtimeWorld :=
  let (result, s) := sendFragmented queueConnection ⟨w.link, limit, turns⟩ request
  (.published result, { w with link := s.link })

def deliver (w : RealtimeWorld) (index receivedAt : ℕ) : RealtimeReply ε × RealtimeWorld :=
  match w.link.wires[index]? with
  | none => (.nothing, w)
  | some wire =>
    match decodeRealtimeDatagram wire receivedAt with
    | .error e => (.undecodable e, w)
    | .ok received =>
      if received.flow ≠ flow then (.otherFlow, w)
      else
        let (result, reassembler) := w.reassembler.push received.generation received.sequence
          received.payload config
        (.pushed result, { w with reassembler })

def step (w : RealtimeWorld) : RealtimeAction → RealtimeReply ε × RealtimeWorld
  | .publish generation sequence deadline priority payload limit turns =>
    w.publish ⟨flow, generation, sequence, deadline, priority, payload, config⟩ limit turns
  | .call call => (.called, { w with link := w.link.call call })
  | .deliver index receivedAt => w.deliver flow config index receivedAt

end Step

end RealtimeWorld

/-- Other datagrams that a connection enqueues are of other flows. -/
def QueueCall.Foreign (flow : RealtimeFlowId) : QueueCall → Prop
  | .enqueue datagram _ => datagram.flow ≠ flow
  | _ => True

/-- What a connection does besides sending the fragments. -/
def RealtimeAction.calls : RealtimeAction → List QueueCall
  | .publish _ _ _ _ _ _ turns => turns.flatMap fun turn => turn.before ++ turn.after
  | .call queueCall => [queueCall]
  | .deliver _ _ => []

/-- The generation and sequence of a publication. -/
def RealtimeAction.key : RealtimeAction → Option (UInt32 × UInt64)
  | .publish generation sequence _ _ _ _ _ => some (generation, sequence)
  | _ => none

/-- What is sent on a flow belongs to a payload of the book. -/
def Expected (flow : RealtimeFlowId) (book : Book) (flow' : RealtimeFlowId) (g : UInt32)
    (s : UInt64) (bytes : Bytes) : Prop :=
  flow' = flow → ∃ payload size, book g s payload size ∧ IsFragment payload size bytes

/-- Everything queued and everything in the network is expected. -/
structure RealtimeLink.Sound (flow : RealtimeFlowId) (book : Book) (link : RealtimeLink) :
    Prop where
  queue : link.queue.Carries (Expected flow book)
  wires : ∀ wire ∈ link.wires, ∃ d, encodeRealtimeDatagram d = .ok wire ∧
    Expected flow book d.flow d.generation d.sequence d.payload

variable {flow : RealtimeFlowId} {book : Book} {link : RealtimeLink} {ε : Type}
  {config : BindingConfig}

namespace RealtimeLink

theorem Sound.withQueue (h : link.Sound flow book) {queue : RealtimeSendQueue}
    (hqueue : queue.Carries (Expected flow book)) : Sound flow book { link with queue } :=
  ⟨hqueue, h.wires⟩

theorem Sound.emit (h : link.Sound flow book)
    {popped : Option QueuedRealtimeDatagram × RealtimeSendQueue}
    (hpopped : popped.2.Carries (Expected flow book) ∧ ∀ d, popped.1 = some d →
      Expected flow book d.flow d.generation d.sequence d.payload) :
    (link.emit popped).Sound flow book := by
  obtain ⟨datagram, queue⟩ := popped
  obtain ⟨hqueue, hdatagram⟩ := hpopped
  cases datagram with
  | none => exact h.withQueue hqueue
  | some d =>
    simp only [RealtimeLink.emit]
    split
    · exact h.withQueue hqueue
    · next wire hencode =>
      refine ⟨hqueue.fewer (.of_groups rfl), fun wire' hwire' => ?_⟩
      rcases List.mem_append.mp hwire' with hold | hnew
      · exact h.wires wire' hold
      · rw [List.mem_singleton.mp hnew]
        exact ⟨d, hencode, hdatagram d rfl⟩

theorem Sound.call (h : link.Sound flow book) {call : QueueCall} (hcall : call.Foreign flow) :
    (link.call call).Sound flow book := by
  cases call with
  | enqueue datagram now => exact h.withQueue (h.queue.enqueue now fun heq => absurd heq hcall)
  | peekNextWireLen now =>
    exact h.withQueue (h.queue.fewer (RealtimeSendQueue.expire_fewer link.queue now))
  | popNext now => exact h.emit (h.queue.popNext now)
  | popNextFitting now maxWireLen => exact h.emit (h.queue.popNextFitting now maxWireLen)
  | dropDisposableForCongestion =>
    exact h.withQueue (h.queue.fewer (RealtimeSendQueue.dropFlowGroups_fewer link.queue _ _))
  | setMaxPayload maxPayload =>
    exact h.withQueue (h.queue.fewer (RealtimeSendQueue.setMaxPayload_fewer link.queue maxPayload))
  | resetForReconnect =>
    exact h.withQueue (h.queue.fewer (.trans
      (RealtimeSendQueue.clearPending_fewer link.queue) (.of_groups rfl)))
  | clearPending =>
    exact h.withQueue (h.queue.fewer (RealtimeSendQueue.clearPending_fewer link.queue))
  | noteTransportCongestion => exact h.withQueue (h.queue.fewer (.of_groups rfl))
  | noteNetworkMetrics rttUs rate events => exact h.withQueue (h.queue.fewer (.of_groups rfl))
  | noteMigration => exact h.withQueue (h.queue.fewer (.of_groups rfl))

theorem Sound.calls {calls : List QueueCall} (hcalls : ∀ call ∈ calls, call.Foreign flow)
    (h : link.Sound flow book) : (calls.foldl RealtimeLink.call link).Sound flow book := by
  induction calls generalizing link with
  | nil => exact h
  | cons call rest ih =>
    obtain ⟨hcall, hrest⟩ := List.forall_mem_cons.mp hcalls
    exact ih hrest (h.call hcall)

end RealtimeLink

/-- A fragment that is sent is queued as such, whatever else the connection does. -/
theorem trySendLatest_sound {s : TurnConnection} (h : s.link.Sound flow book)
    (hturns : ∀ turn ∈ s.turns, ∀ call ∈ turn.before ++ turn.after, call.Foreign flow)
    (datagram : RealtimeDatagram)
    (hd : Expected flow book datagram.flow datagram.generation datagram.sequence
      datagram.payload) :
    (queueConnection.trySendLatest s datagram).2.link.Sound flow book ∧
      ∀ turn ∈ (queueConnection.trySendLatest s datagram).2.turns, turn ∈ s.turns := by
  simp only [queueConnection]
  split
  · exact ⟨h, fun _ hturn => hturn⟩
  · next turn turns hs =>
    rw [hs] at hturns ⊢
    obtain ⟨hturn, -⟩ := List.forall_mem_cons.mp hturns
    have hbefore := h.calls fun call hcall => hturn call (List.mem_append_left _ hcall)
    have hqueued := hbefore.withQueue (hbefore.queue.enqueue turn.now hd)
    refine ⟨hqueued.calls fun call hcall => hturn call (List.mem_append_right _ hcall),
      fun turn' hturn' => List.mem_cons_of_mem _ hturn'⟩

/-- A publication leaves only fragments of itself behind. -/
theorem sendFragmented_sound {request : FragmentSend} {s : TurnConnection}
    (hbook : ∀ size, Cuts request.config request.payload size →
      s.limit = some (size+fragmentHeaderLen) →
        book request.generation request.sequence request.payload size)
    (h : s.link.Sound flow book)
    (hturns : ∀ turn ∈ s.turns, ∀ call ∈ turn.before ++ turn.after, call.Foreign flow) :
    (sendFragmented (ε := ε) queueConnection s request).2.link.Sound flow book := by
  let I : TurnConnection → Prop := fun s => s.link.Sound flow book ∧
    ∀ turn ∈ s.turns, ∀ call ∈ turn.before ++ turn.after, call.Foreign flow
  suffices hkeep : I (sendFragmented (ε := ε) queueConnection s request).2 from hkeep.1
  apply sendFragmented_keeps _ (show I s from ⟨h, hturns⟩)
  intro s' size bytes hcuts hlimit hfragment hsound
  have hexpected : Expected flow book request.flow request.generation request.sequence bytes :=
    fun _ => ⟨request.payload, size, hbook size hcuts hlimit, hfragment⟩
  have hsent := trySendLatest_sound hsound.1 hsound.2 (request.datagram bytes) hexpected
  exact ⟨hsent.1, fun turn hturn => hsound.2 turn (hsent.2 turn hturn)⟩

/-- The payloads of a run and the sizes at which they are cut. -/
def bookOf (config : BindingConfig) (actions : List RealtimeAction) : Book :=
  fun g s payload size => Cuts config payload size ∧
    ∃ deadline priority turns,
      .publish g s deadline priority payload (some (size+fragmentHeaderLen)) turns ∈ actions

/-- With distinct keys a key says what was published under it. -/
theorem bookOf_consistent (config : BindingConfig) {actions : List RealtimeAction}
    (hkeys : (actions.filterMap RealtimeAction.key).Nodup) :
    (bookOf config actions).Consistent config := by
  have hpairwise := List.pairwise_filterMap.mp hkeys
  refine ⟨?_, fun g s payload size h => h.1⟩
  rintro g s payload payload' size size' ⟨-, deadline, priority, turns, hmem⟩
    ⟨-, deadline', priority', turns', hmem'⟩
  by_contra hne
  have hdistinct : RealtimeAction.publish g s deadline priority payload
      (some (size+fragmentHeaderLen)) turns ≠
      .publish g s deadline' priority' payload' (some (size'+fragmentHeaderLen)) turns' := by
    intro heq
    simp only [RealtimeAction.publish.injEq, Option.some.injEq] at heq
    exact hne ⟨heq.2.2.2.2.1, by omega⟩
  have hsymm : Std.Symm fun a b : RealtimeAction =>
      ∀ k, a.key = some k → ∀ k', b.key = some k' → k ≠ k' :=
    ⟨fun a b h k hk k' hk' heq => h k' hk' k hk heq.symm⟩
  exact hpairwise.forall hmem hmem' hdistinct _ rfl _ rfl rfl

/-- What holds of every state of a run. -/
structure RealtimeWorld.Sound (flow : RealtimeFlowId) (book : Book) (w : RealtimeWorld) :
    Prop where
  link : w.link.Sound flow book
  reassembler : w.reassembler.Sound book

/-- An action of the run, with its foreign traffic. -/
def RealtimeAction.Allowed (flow : RealtimeFlowId) (actions : List RealtimeAction)
    (action : RealtimeAction) : Prop :=
  action ∈ actions ∧ ∀ call ∈ action.calls, call.Foreign flow

namespace RealtimeWorld
variable {w : RealtimeWorld} {actions : List RealtimeAction} {action : RealtimeAction}

/-- A delivery pushes a fragment of a published payload, or it changes nothing. -/
theorem deliver_cases (config : BindingConfig) (h : w.Sound flow book) (index receivedAt : ℕ) :
    ((w.deliver (ε := ε) flow config index receivedAt).1 = .nothing ∨
        (w.deliver (ε := ε) flow config index receivedAt).1 = .otherFlow) ∧
      (w.deliver (ε := ε) flow config index receivedAt).2 = w ∨
    ∃ g s payload size bytes, book g s payload size ∧ IsFragment payload size bytes ∧
      w.deliver (ε := ε) flow config index receivedAt =
        (.pushed (w.reassembler.push g s bytes config).1,
          { w with reassembler := (w.reassembler.push (ε := ε) g s bytes config).2 }) := by
  unfold deliver
  cases hwire : w.link.wires[index]? with
  | none => exact .inl ⟨.inl rfl, rfl⟩
  | some wire =>
    obtain ⟨d, hencode, hexpected⟩ := h.link.wires wire (List.mem_of_getElem? hwire)
    simp only [decode_encode_realtime hencode]
    by_cases hflow : d.flow = flow
    · obtain ⟨payload, size, hpublished, hfragment⟩ := hexpected hflow
      simp only [hflow, ne_eq, not_true_eq_false, if_false]
      exact .inr ⟨_, _, payload, size, d.payload, hpublished, hfragment, rfl⟩
    · rw [if_pos hflow]
      exact .inl ⟨.inr rfl, rfl⟩

/-- The completion in a reply. -/
def completion : RealtimeReply ε → Option ((UInt32 × UInt64) × Bytes)
  | .pushed (.ok (.complete g s payload _)) => some ((g, s), payload)
  | _ => none

/-- A reply without an error of the receiver. -/
def Clean : RealtimeReply ε → Prop
  | .undecodable _ => False
  | .pushed (.error _) => False
  | _ => True

/-- What one action does to the receiver. -/
theorem step_sound (hbook : (bookOf config actions).Consistent config)
    (h : w.Sound flow (bookOf config actions)) (haction : action.Allowed flow actions) :
    (w.step (ε := ε) flow config action).2.Sound flow (bookOf config actions) ∧
    Clean (w.step (ε := ε) flow config action).1 ∧
    ((completion (w.step (ε := ε) flow config action).1 = none ∧
        (w.step (ε := ε) flow config action).2.reassembler.lastCompleted =
          w.reassembler.lastCompleted) ∨
      ∃ g s payload size, bookOf config actions g s payload size ∧
        completion (w.step (ε := ε) flow config action).1 = some ((g, s), payload) ∧
        w.reassembler.isOld g s = false ∧
        (w.step (ε := ε) flow config action).2.reassembler.lastCompleted = some (g, s)) := by
  obtain ⟨hmem, hforeign⟩ := haction
  cases action with
  | publish g s deadline priority payload limit turns =>
    refine ⟨⟨?_, h.reassembler⟩, trivial, .inl ⟨rfl, rfl⟩⟩
    refine sendFragmented_sound (s := ⟨w.link, limit, turns⟩) (fun size hcuts hlimit => ?_) h.link
      fun turn hturn call hcall => hforeign call (List.mem_flatMap.mpr ⟨turn, hturn, hcall⟩)
    exact ⟨hcuts, deadline, priority, turns, hlimit ▸ hmem⟩
  | call queueCall =>
    exact ⟨⟨h.link.call (hforeign queueCall (List.mem_singleton_self _)), h.reassembler⟩, trivial,
      .inl ⟨rfl, rfl⟩⟩
  | deliver index receivedAt =>
    rcases deliver_cases (ε := ε) config h index receivedAt with
      ⟨hreply, hsame⟩ | ⟨g, s, payload, size, bytes, hpublished, hfragment, heq⟩
    · simp only [step]
      rw [hsame]
      rcases hreply with hreply | hreply <;> rw [hreply] <;>
        exact ⟨h, trivial, .inl ⟨rfl, rfl⟩⟩
    · simp only [step, heq]
      -- A datagram of a published payload is one part more, or completes it.
      obtain ⟨⟨hsound, htaken⟩, hnew⟩ := Reassembler.push_takes (ε := ε) hbook h.reassembler
        hpublished hfragment
      refine ⟨⟨h.link, hsound⟩, ?_⟩
      rcases htaken with ⟨replaced, hresult, hlast⟩ | ⟨hresult | ⟨replaced, hresult⟩, hlast⟩
      · have hfresh := hnew ⟨replaced, hresult⟩
        rw [hresult]
        exact ⟨trivial, .inr ⟨g, s, payload, size, hpublished, rfl, hfresh, hlast⟩⟩
      · rw [hresult]
        exact ⟨trivial, .inl ⟨rfl, hlast⟩⟩
      · rw [hresult]
        exact ⟨trivial, .inl ⟨rfl, hlast⟩⟩

/-- The order in which payloads complete: by generation, then by sequence. -/
def KeyLt (a b : UInt32 × UInt64) : Prop := a.1 < b.1 ∨ (a.1 = b.1 ∧ a.2 < b.2)

theorem KeyLt.trans {a b c : UInt32 × UInt64} (h : KeyLt a b) (h' : KeyLt b c) : KeyLt a c := by
  rcases h with h | ⟨h, hs⟩
  · rcases h' with h' | ⟨h', -⟩
    · exact .inl (UInt32.lt_trans h h')
    · exact .inl (h' ▸ h)
  · rcases h' with h' | ⟨h', hs'⟩
    · exact .inl (h ▸ h')
    · exact .inr ⟨h.trans h', UInt64.lt_trans hs hs'⟩

theorem keyLt_of_isOld {a : Reassembler} {last : UInt32 × UInt64} {g : UInt32} {s : UInt64}
    (hlast : a.lastCompleted = some last) (h : a.isOld g s = false) : KeyLt last (g, s) := by
  obtain ⟨g', s'⟩ := last
  simp only [Reassembler.isOld, hlast, Option.any_some, Bool.or_eq_false_iff, Bool.and_eq_false_iff,
    decide_eq_false_iff_not] at h
  obtain ⟨hg, hs⟩ := h
  by_cases heq : g = g'
  · rcases hs with hs | hs
    · exact absurd heq hs
    · exact .inr ⟨heq.symm, UInt64.not_le.mp hs⟩
  · exact .inl (UInt32.lt_of_le_of_ne (UInt32.not_lt.mp hg) (Ne.symm heq))

abbrev History (ε : Type) := List (RunHistory.Event RealtimeWorld RealtimeAction (RealtimeReply ε))

/-- The payloads that have completed so far, in order. -/
def completions (hist : History ε) : List ((UInt32 × UInt64) × Bytes) :=
  hist.filterMap fun e => completion e.reply

theorem completions_concat (hist : History ε)
    (e : RunHistory.Event RealtimeWorld RealtimeAction (RealtimeReply ε)) :
    completions (hist ++ [e]) = completions hist ++ (completion e.reply).toList := by
  rw [completions, List.filterMap_append]
  congr 1

/-- What the history of a run says at its end. -/
structure Told (flow : RealtimeFlowId) (book : Book) (hist : History ε) (w : RealtimeWorld) :
    Prop where
  sound : w.Sound flow book
  clean : ∀ e ∈ hist, Clean e.reply
  published : ∀ c ∈ completions hist, ∃ size, book c.1.1 c.1.2 c.2 size
  increasing : (completions hist).Pairwise fun a b => KeyLt a.1 b.1
  last : ∀ c ∈ completions hist, ∃ last, w.reassembler.lastCompleted = some last ∧
    (c.1 = last ∨ KeyLt c.1 last)

theorem Told.step {hist : History ε} (hbook : (bookOf config actions).Consistent config)
    (h : Told flow (bookOf config actions) hist w) (haction : action.Allowed flow actions) :
    Told flow (bookOf config actions)
      (hist ++ [RunHistory.event (RealtimeWorld.step flow config) w action])
      (w.step (ε := ε) flow config action).2 := by
  obtain ⟨hsound, hclean, hcompletion⟩ := step_sound (ε := ε) hbook h.sound haction
  have hclean' : ∀ e ∈ hist ++ [RunHistory.event (RealtimeWorld.step flow config) w action],
      Clean e.reply := by
    intro e he
    rcases List.mem_append.mp he with he | he
    · exact h.clean e he
    · rw [List.mem_singleton.mp he]
      exact hclean
  rcases hcompletion with ⟨hnone, hkept⟩ | ⟨g, s, payload, size, hpublished, hsome, hnew, hlast⟩
  · have hsame : completions (hist ++
        [RunHistory.event (RealtimeWorld.step flow config) w action]) = completions hist := by
      rw [completions_concat, RunHistory.event, hnone, Option.toList_none, List.append_nil]
    refine ⟨hsound, hclean', ?_, ?_, ?_⟩
    · rw [hsame]
      exact h.published
    · rw [hsame]
      exact h.increasing
    · rw [hsame, hkept]
      exact h.last
  · have hmore : completions (hist ++
        [RunHistory.event (RealtimeWorld.step flow config) w action]) =
        completions hist ++ [((g, s), payload)] := by
      rw [completions_concat, RunHistory.event, hsome, Option.toList_some]
    -- Everything completed before is at most the last completed, which is before this one.
    have hbefore : ∀ c ∈ completions hist, KeyLt c.1 (g, s) := by
      intro c hc
      obtain ⟨last, hold, hle⟩ := h.last c hc
      have hlt := keyLt_of_isOld hold hnew
      rcases hle with rfl | hle
      · exact hlt
      · exact hle.trans hlt
    refine ⟨hsound, hclean', fun c hc => ?_, ?_, fun c hc => ⟨(g, s), hlast, ?_⟩⟩
    · rw [hmore] at hc
      rcases List.mem_append.mp hc with hc | hc
      · exact h.published c hc
      · rw [List.mem_singleton.mp hc]
        exact ⟨size, hpublished⟩
    · rw [hmore, List.pairwise_append]
      refine ⟨h.increasing, List.pairwise_singleton _ _, fun c hc c' hc' => ?_⟩
      rw [List.mem_singleton.mp hc']
      exact hbefore c hc
    · rw [hmore] at hc
      rcases List.mem_append.mp hc with hc | hc
      · exact .inr (hbefore c hc)
      · rw [List.mem_singleton.mp hc]
        exact .inl rfl

/-- Nothing sent and nothing received. -/
def start (queue : RealtimeSendQueue) : RealtimeWorld := ⟨⟨queue, []⟩, Reassembler.new⟩

theorem told_start {queueConfig : RealtimeQueueConfig} {maxPayload : ℕ} {queue : RealtimeSendQueue}
    (hqueue : RealtimeSendQueue.new queueConfig maxPayload = .ok queue) :
    Told (ε := ε) flow book [] (start queue) :=
  ⟨⟨⟨RealtimeSendQueue.carries_new hqueue, by simp [start]⟩, nofun⟩, by simp,
    by simp [completions], .nil, by simp [completions]⟩

/-- Over a network that loses, reorders and repeats, the receiver completes payloads as they were
published, each at most once and in the order of their keys, and it never fails. -/
theorem completes_what_was_published (flow : RealtimeFlowId) (config : BindingConfig)
    {queueConfig : RealtimeQueueConfig} {maxPayload : ℕ} {queue : RealtimeSendQueue}
    (hqueue : RealtimeSendQueue.new queueConfig maxPayload = .ok queue)
    (actions : List RealtimeAction) (hkeys : (actions.filterMap RealtimeAction.key).Nodup)
    (hforeign : ∀ action ∈ actions, ∀ call ∈ action.calls, call.Foreign flow) :
    let hist := RunHistory.trace (RealtimeWorld.step (ε := ε) flow config) (start queue) actions
    (∀ c ∈ completions hist, ∃ deadline priority limit turns,
      .publish c.1.1 c.1.2 deadline priority c.2 limit turns ∈ actions) ∧
    (∀ e ∈ hist, Clean e.reply) ∧
    (completions hist).Pairwise fun a b => KeyLt a.1 b.1 := by
  intro hist
  have hbook := bookOf_consistent config hkeys
  have htold : Told flow (bookOf config actions) hist
      (RunHistory.run (RealtimeWorld.step (ε := ε) flow config) (start queue) actions) := by
    refine RunHistory.run_history_of (Q := fun action => action.Allowed flow actions)
      (RealtimeWorld.step flow config) (told_start hqueue) ?_ actions ?_
    · exact fun hist w action haction h => h.step hbook haction
    · exact fun action hmem => ⟨hmem, hforeign action hmem⟩
  refine ⟨fun c hc => ?_, htold.clean, htold.increasing⟩
  obtain ⟨size, -, deadline, priority, turns, hmem⟩ := htold.published c hc
  exact ⟨deadline, priority, _, turns, hmem⟩

end RealtimeWorld

namespace Sample

def realtimeTurn : SendTurn := ⟨[], 0, [], id⟩

/-- Two payloads, the first in two fragments that arrive in the wrong order and repeatedly. -/
def realtimeActions : List RealtimeAction :=
  [.publish 1 1 100 .high [7, 8, 9] (some 20) [realtimeTurn, realtimeTurn],
    .call (.popNext 1), .call (.popNextFitting 1 64), .call (.setMaxPayload 40),
    .publish 1 2 100 .high [5, 6] (some 40) [realtimeTurn], .call (.popNext 2),
    .deliver 1 3, .deliver 1 4, .deliver 0 5, .deliver 2 6, .deliver 0 7]

def realtimeQueue : RealtimeSendQueue :=
  { config := {}, maxPayload := 1200, groups := ∅, nextInsertionOrder := 0
    transportCongestionEvents := 0
    telemetry := { currentDatagramPayload := some 1200, maxDatagramPayload := 1200 } }

theorem realtimeQueue_new : RealtimeSendQueue.new {} 1200 = .ok realtimeQueue := rfl

end Sample

namespace RealtimeWorld

/-- Both payloads complete, and no delivery fails. -/
theorem sample_payloads_complete :
    completions (RunHistory.trace (RealtimeWorld.step (ε := Empty) ⟨7⟩ {})
      (start Sample.realtimeQueue) Sample.realtimeActions) =
        [((1, 1), [7, 8, 9]), ((1, 2), [5, 6])] ∧
    ∀ e ∈ RunHistory.trace (RealtimeWorld.step (ε := Empty) ⟨7⟩ {}) (start Sample.realtimeQueue)
      Sample.realtimeActions, Clean e.reply := by
  refine ⟨by decide +kernel, ?_⟩
  refine (completes_what_was_published ⟨7⟩ {} Sample.realtimeQueue_new
    Sample.realtimeActions (by decide) ?_).2.1
  simp [Sample.realtimeActions, RealtimeAction.calls, Sample.realtimeTurn, QueueCall.Foreign]

end RealtimeWorld

end MutsukiLink
