import MutsukiLink.FramedReader

/-! What the receiving end of a framed connection gets. A run keeps the lanes apart exactly when the
reader classifies every accepted message as it was sent. -/
namespace MutsukiLink
open WireBytes

/-- The steps by which messages move on: those of the tasks and the receive calls. -/
def FramedCall.delivers : FramedCall → Bool
  | .trySend _ => false
  | .controlSend _ _ => false
  | _ => true

namespace FramedLink
variable {link : FramedLink} {stream : List Bytes} {lane : Lane}

/-- All messages that were sent are received or under way, in the order of their lane. -/
structure Ledger (link : FramedLink) (sent received : Lane → List Bytes) : Prop where
  lanes : ∃ stream, link.Carries stream ∧
    ∀ lane, sent lane = received lane ++ link.pending stream lane
  allowed : ∀ lane, ∀ message ∈ link.sendQueue lane, message.length ≤ link.budget.maxFrameBytes
  room : 0 < link.budget.controlQueueCapacity ∧ 0 < link.budget.receiveQueueCapacity

variable {sent received : Lane → List Bytes}

theorem Ledger.received_isPrefix (h : link.Ledger sent received) (lane : Lane) :
    received lane <+: sent lane := by
  obtain ⟨stream, -, hlanes⟩ := h.lanes
  exact ⟨_, (hlanes lane).symm⟩

theorem Ledger.congr {sent' received' : Lane → List Bytes} (h : link.Ledger sent received)
    (hsent : ∀ lane, sent lane = sent' lane) (hreceived : ∀ lane, received lane = received' lane) :
    link.Ledger sent' received' := by
  obtain rfl : sent = sent' := funext hsent
  obtain rfl : received = received' := funext hreceived
  exact h

/-- What waits to be sent has been sent by the application. -/
theorem Ledger.sendable (h : link.Ledger sent received)
    (hsent : ∀ lane, ∀ message ∈ sent lane, Fits lane message) :
    ∀ lane, ∀ message ∈ link.sendQueue lane, link.Sendable lane message := by
  intro lane message hmessage
  obtain ⟨stream, -, hlanes⟩ := h.lanes
  have hmem : message ∈ sent lane := by
    rw [hlanes lane, pending]
    exact List.mem_append_right _ (List.mem_append_right _ (List.mem_append_right _ hmessage))
  obtain ⟨hlane, hwidth⟩ := hsent lane message hmem
  exact ⟨hlane, h.allowed lane message hmessage, hwidth⟩

/-- Every call keeps the ledger. -/
theorem Ledger.step (h : link.Ledger sent received)
    (hsent : ∀ lane, ∀ message ∈ sent lane, Fits lane message) (call : FramedCall) :
    (link.step call).2.Ledger
      (fun lane => sent lane ++ sentOn lane (RunHistory.event FramedLink.step link call))
      (fun lane => received lane ++
        receivedOn lane (RunHistory.event FramedLink.step link call)) := by
  obtain ⟨stream, hcarries, hlanes⟩ := h.lanes
  obtain ⟨stream', haccounts⟩ := accounts hcarries (h.sendable hsent) call
  refine ⟨⟨stream', haccounts.carries, ?_⟩, ?_, ?_⟩
  · intro lane
    rw [hlanes lane, List.append_assoc, haccounts.lanes lane, List.append_assoc]
  · intro lane message hmessage
    rw [haccounts.budget]
    rcases haccounts.queued lane message hmessage with hold | hnew
    · exact h.allowed lane message hold
    · exact hnew
  · rw [haccounts.budget]
    exact h.room

theorem ledger_spawn {budget : TransportBudget} (h : spawn budget = .ok link) :
    link.Ledger (fun _ => []) fun _ => [] := by
  unfold spawn TransportBudget.validate at h
  by_cases hzero : budget.maxConnections = 0 ∨ budget.maxConcurrentStreams = 0 ∨
      budget.controlQueueCapacity = 0 ∨ budget.dataQueueCapacity = 0 ∨
      budget.receiveQueueCapacity = 0 ∨ budget.maxFrameBytes = 0 ∨
      budget.controlBytesPerSecond = some 0 ∨ budget.dataBytesPerSecond = some 0 ∨
      budget.receiveBytesPerSecond = some 0
  · rw [if_pos hzero] at h
    cases h
  · rw [if_neg hzero] at h
    obtain rfl := Except.ok.inj h
    push Not at hzero
    refine ⟨⟨[], ⟨⟨[], rfl, rfl⟩, Nat.zero_lt_succ 3, by simp⟩, ?_⟩, ?_, ?_⟩
    · intro lane
      cases lane <;> rfl
    · intro lane message hmessage
      cases lane <;> cases hmessage
    · exact ⟨Nat.pos_of_ne_zero hzero.2.2.1, Nat.pos_of_ne_zero hzero.2.2.2.2.1⟩

/-- A frame that is read to its end leaves nothing unfinished. -/
theorem Carries.stream_nil (h : link.Carries stream) (hwire : link.wire = [])
    (hwriter : link.writer = .running []) : stream = [] := by
  obtain ⟨rest, hrest, hbytes⟩ := h.writing
  obtain rfl : [] = rest := FrameWriter.running.inj (hwriter.symm.trans hrest)
  rw [hwire, List.append_nil, List.append_nil] at hbytes
  cases stream with
  | nil => rfl
  | cons message more =>
  exfalso
  rw [List.flatMap_cons] at hbytes
  have hreading := h.reading
  have hlen := congrArg List.length hbytes
  rw [List.length_append, frame, List.length_append, length_beBytes] at hlen
  obtain ⟨-, hwidth⟩ := h.fits message List.mem_cons_self
  cases hreader : link.reader with
  | finished e =>
    rw [hreader] at hreading
    exact hreading
  | handing waiting =>
    rw [hreader, FrameReader.consumed, List.length_nil] at hlen
    omega
  | header got =>
    rw [hreader, FrameReader.consumed] at hlen
    rw [hreader] at hreading
    have hgot : got.length < 4 := hreading
    omega
  | body length got =>
    rw [hreader] at hreading hbytes
    obtain ⟨hgot, hlength⟩ := hreading
    obtain ⟨hsize, hbody⟩ := frame_length_eq hlength hwidth hbytes
    have hbodyLength := congrArg List.length hbody
    rw [List.length_append] at hbodyLength
    omega

/-- What a queued message still costs: each of its bytes is taken, written and read, and the
message is handed over and received. -/
def cost (message : Bytes) : ℕ := 4*(message.length+4)+1

/-- How much is left to do until everything is received. -/
def load (link : FramedLink) : ℕ :=
  ((link.control ++ link.data).map cost).sum +
    (match link.writer with
      | .running rest => 4*rest.length
      | .finished _ => 0) +
    3*link.wire.length + 2*link.reader.inHand.length +
    (link.controlReceive.length+link.receive.length)

theorem Ledger.received_of_load_zero (h : link.Ledger sent received) (hload : link.load = 0)
    (lane : Lane) : sent lane = received lane := by
  obtain ⟨stream, hcarries, hlanes⟩ := h.lanes
  obtain ⟨rest, hwriter, -⟩ := hcarries.writing
  unfold load at hload
  rw [hwriter] at hload
  simp only [Nat.add_eq_zero_iff, List.length_eq_zero_iff, Nat.mul_eq_zero, OfNat.ofNat_ne_zero,
    false_or] at hload
  obtain ⟨⟨⟨⟨hqueues, rfl⟩, hwire⟩, hhand⟩, hcontrolReceive, hreceive⟩ := hload
  have hstream := hcarries.stream_nil hwire hwriter
  have hempty : link.control ++ link.data = [] := by
    cases hall : link.control ++ link.data with
    | nil => rfl
    | cons message more =>
      rw [hall, List.map_cons, List.sum_cons, cost] at hqueues
      omega
  obtain ⟨hcontrol, hdata⟩ := List.append_eq_nil_iff.mp hempty
  rw [hlanes lane, pending, hstream, hhand]
  cases lane with
  | control => simp [receiveQueue, sendQueue, hcontrolReceive, hcontrol]
  | data => simp [receiveQueue, sendQueue, hreceive, hdata]

/-- The reader is able to take the next byte. -/
theorem load_readByte (hreading : link.reader.Unfinished) (hhand : link.reader.inHand = [])
    (hwire : link.wire ≠ []) : (link.step .readByte).2.load < link.load := by
  have hless (byte : UInt8) (wire : Bytes) (reader : FrameReader)
      (hcons : link.wire = byte :: wire) :
      FramedLink.load { link with wire, reader } < link.load := by
    have hone : reader.inHand.length ≤ 1 := by cases reader <;> simp [FrameReader.inHand]
    simp only [load, hcons, hhand, List.length_cons, List.length_nil]
    omega
  cases hcons : link.wire with
  | nil => exact absurd hcons hwire
  | cons byte wire =>
  cases hreader : link.reader with
  | finished e => rw [hreader] at hreading; exact hreading.elim
  | handing waiting => rw [hreader] at hhand; cases hhand
  | header got =>
    simp only [step, readByte, hcons, hreader]
    exact hless byte wire _ hcons
  | body length got =>
    simp only [step, readByte, hcons, hreader]
    exact hless byte wire _ hcons

/-- With its two queues empty the reader can hand over the message that it holds. -/
theorem load_forward {waiting : Bytes} (hreader : link.reader = .handing waiting)
    (hcontrol : link.controlReceive = []) (hdata : link.receive = [])
    (hroom : 0 < link.budget.controlQueueCapacity ∧ 0 < link.budget.receiveQueueCapacity) :
    (link.step .forward).2.load < link.load := by
  obtain ⟨hcontrolRoom, hdataRoom⟩ := hroom
  have hcontrolFree : ¬link.budget.controlQueueCapacity ≤ link.controlReceive.length := by
    rw [hcontrol, List.length_nil]
    omega
  have hdataFree : ¬link.budget.receiveQueueCapacity ≤ link.receive.length := by
    rw [hdata, List.length_nil]
    omega
  simp only [step, forward, hreader]
  cases isControl waiting with
  | true =>
    simp only [hcontrolFree, if_true, if_false, load, hreader, FrameReader.inHand,
      List.length_append, List.length_cons, List.length_nil]
    omega
  | false =>
    simp only [hdataFree, Bool.false_eq_true, if_false, load, hreader, FrameReader.inHand,
      List.length_append, List.length_cons, List.length_nil]
    omega

theorem load_takeNext (hwriter : link.writer = .running [])
    (hqueues : link.control ++ link.data ≠ [])
    (hsendable : ∀ lane, ∀ message ∈ link.sendQueue lane, link.Sendable lane message) :
    (link.step .takeNext).2.load < link.load := by
  have hlength (message : Bytes) : (beBytes 4 message.length ++ message).length =
      4+message.length := by
    rw [List.length_append, length_beBytes]
  cases hcontrol : link.control with
  | cons message rest =>
    have hmessage := hsendable .control message (by simp [sendQueue, hcontrol])
    simp only [step, takeNext, hwriter, hcontrol, startFrame, Nat.not_le.mpr hmessage.2.2, if_false,
      load, hlength, List.cons_append, List.map_cons, List.sum_cons, cost, List.length_nil]
    omega
  | nil =>
  cases hdata : link.data with
  | cons message rest =>
    have hmessage := hsendable .data message (by simp [sendQueue, hdata])
    simp only [step, takeNext, hwriter, hcontrol, hdata, startFrame, Nat.not_le.mpr hmessage.2.2,
      if_false, load, hlength, List.nil_append, List.map_cons, List.sum_cons, cost,
      List.length_nil]
    omega
  | nil => rw [hcontrol, hdata] at hqueues; exact absurd rfl hqueues

/-- While something is left to do, a task can move or a message can be received. -/
theorem Ledger.exists_less (h : link.Ledger sent received)
    (hsent : ∀ lane, ∀ message ∈ sent lane, Fits lane message) (hload : link.load ≠ 0) :
    ∃ call, (link.step call).2.load < link.load ∧
      (call.isTask = true ∨ (call = .tryReceive ∧ link.receive ≠ []) ∨
        (call = .tryReceiveControl ∧ link.controlReceive ≠ [])) := by
  obtain ⟨stream, hcarries, -⟩ := h.lanes
  obtain ⟨rest, hwriter, -⟩ := hcarries.writing
  -- The queue nearest to the application is emptied first, so that nothing ever blocks.
  by_cases hcontrol : link.controlReceive = []
  swap
  · refine ⟨.tryReceiveControl, ?_, Or.inr (Or.inr ⟨rfl, hcontrol⟩)⟩
    obtain ⟨message, queue, hqueue⟩ := List.exists_cons_of_ne_nil hcontrol
    simp only [FramedLink.step, tryReceiveControl, hqueue, Prod.map, id, load, List.length_cons]
    omega
  by_cases hdata : link.receive = []
  swap
  · refine ⟨.tryReceive, ?_, Or.inr (Or.inl ⟨rfl, hdata⟩)⟩
    obtain ⟨message, queue, hqueue⟩ := List.exists_cons_of_ne_nil hdata
    simp only [FramedLink.step, tryReceive, hqueue, Prod.map, id, load, List.length_cons]
    omega
  by_cases hhand : link.reader.inHand = []
  swap
  · have hreader : ∃ waiting, link.reader = .handing waiting := by
      cases hreader : link.reader with
      | handing waiting => exact ⟨waiting, rfl⟩
      | _ => rw [hreader] at hhand; exact absurd rfl hhand
    obtain ⟨waiting, hreader⟩ := hreader
    exact ⟨.forward, load_forward hreader hcontrol hdata h.room, Or.inl rfl⟩
  by_cases hwire : link.wire = []
  swap
  · exact ⟨.readByte, load_readByte hcarries.reading hhand hwire, Or.inl rfl⟩
  cases rest with
  | cons byte rest =>
    refine ⟨.writeByte, ?_, Or.inl rfl⟩
    simp only [FramedLink.step, writeByte, hwriter, load, List.length_cons, List.length_append,
      List.length_nil]
    omega
  | nil =>
    refine ⟨.takeNext, load_takeNext hwriter (fun hqueues => hload ?_) (h.sendable hsent),
      Or.inl rfl⟩
    simp only [load, hqueues, hwriter, hwire, hhand, hcontrol, hdata, List.map_nil, List.sum_nil,
      List.length_nil]

theorem delivers_silent (link : FramedLink) {call : FramedCall} (h : call.delivers = true)
    (lane : Lane) : sentOn lane (RunHistory.event FramedLink.step link call) = [] := by
  cases call with
  | trySend message => cases h
  | controlSend protocol message => cases h
  | _ => cases lane <;> rfl

end FramedLink

section Runs
variable {σ ι : Type*} (step : σ → ι → FramedReply × σ)
  (sentOn receivedOn : Lane → RunHistory.Event σ ι FramedReply → List Bytes)
  (delivers : ι → Bool)

/-- Each lane has given a front part of what was sent on it, byte for byte and in order, and the
rest is on its way: tasks and receive calls alone bring all of it. -/
def LanesApart (s : σ) (calls : List ι) : Prop :=
  (∀ lane, (RunHistory.trace step s calls).flatMap (receivedOn lane) <+:
    (RunHistory.trace step s calls).flatMap (sentOn lane)) ∧
  ∃ more, (∀ call ∈ more, delivers call = true) ∧
    ∀ lane, (RunHistory.trace step s (calls ++ more)).flatMap (receivedOn lane) =
      (RunHistory.trace step s calls).flatMap (sentOn lane)

/-- No accepted data message starts like a control frame, and every accepted message has a length
of four bytes. -/
def WellMarked (s : σ) (calls : List ι) : Prop :=
  (∀ message ∈ (RunHistory.trace step s calls).flatMap (sentOn .data),
    isControl message = false ∧ message.length < 2^32) ∧
  ∀ message ∈ (RunHistory.trace step s calls).flatMap (sentOn .control), message.length < 2^32

/-- A connection with a ledger that every call keeps while the accepted messages fit, and with a
load that deliveries bring down to nothing. -/
structure KeepsLedger (ledger : σ → (Lane → List Bytes) → (Lane → List Bytes) → Prop)
    (load : σ → ℕ) : Prop where
  keeps : ∀ {s sent received}, ledger s sent received →
    (∀ lane, ∀ message ∈ sent lane, Fits lane message) → ∀ call,
      ledger (step s call).2 (fun lane => sent lane ++ sentOn lane (RunHistory.event step s call))
        fun lane => received lane ++ receivedOn lane (RunHistory.event step s call)
  isPrefix : ∀ {s sent received}, ledger s sent received → ∀ lane, received lane <+: sent lane
  less : ∀ {s sent received}, ledger s sent received →
    (∀ lane, ∀ message ∈ sent lane, Fits lane message) → load s ≠ 0 →
      ∃ call, delivers call = true ∧ load (step s call).2 < load s
  all_received : ∀ {s sent received}, ledger s sent received → load s = 0 →
    ∀ lane, sent lane = received lane
  silent : ∀ s {call}, delivers call = true → ∀ lane,
    sentOn lane (RunHistory.event step s call) = []
  frames : ∀ e, ∀ message ∈ sentOn .control e, laneOf message = .control

variable {step sentOn receivedOn delivers}
  {ledger : σ → (Lane → List Bytes) → (Lane → List Bytes) → Prop} {load : σ → ℕ} {s : σ}
  {calls : List ι}

theorem KeepsLedger.wellMarked_iff
    (h : KeepsLedger step sentOn receivedOn delivers ledger load) :
    WellMarked step sentOn s calls ↔
      ∀ lane, ∀ message ∈ (RunHistory.trace step s calls).flatMap (sentOn lane),
        Fits lane message := by
  constructor
  · intro hmarked lane message hmessage
    cases lane with
    | data =>
      obtain ⟨hmark, hwidth⟩ := hmarked.1 message hmessage
      exact ⟨laneOf_eq_data.mpr hmark, hwidth⟩
    | control =>
      obtain ⟨e, -, he⟩ := List.mem_flatMap.mp hmessage
      exact ⟨h.frames e message he, hmarked.2 message hmessage⟩
  · intro hfits
    refine ⟨fun message hmessage => ?_, fun message hmessage =>
      (hfits .control message hmessage).2⟩
    obtain ⟨hlane, hwidth⟩ := hfits .data message hmessage
    exact ⟨laneOf_eq_data.mp hlane, hwidth⟩

/-- The ledger of a whole run. -/
theorem KeepsLedger.run (h : KeepsLedger step sentOn receivedOn delivers ledger load)
    (h0 : ledger s (fun _ => []) fun _ => []) (calls : List ι)
    (hfits : ∀ lane, ∀ message ∈ (RunHistory.trace step s calls).flatMap (sentOn lane),
      Fits lane message) :
    ledger (RunHistory.run step s calls)
      (fun lane => (RunHistory.trace step s calls).flatMap (sentOn lane))
      fun lane => (RunHistory.trace step s calls).flatMap (receivedOn lane) := by
  -- The induction is on the calls from the back; what a shorter run sent fits as well.
  refine RunHistory.run_history step (P := fun hist s =>
    (∀ lane, ∀ message ∈ hist.flatMap (sentOn lane), Fits lane message) →
      ledger s (fun lane => hist.flatMap (sentOn lane)) fun lane => hist.flatMap (receivedOn lane))
    (fun _ => h0) ?_ calls hfits
  intro hist s call ih hall
  simp only [List.flatMap_append, List.flatMap_singleton] at hall ⊢
  have hbefore : ∀ lane, ∀ message ∈ hist.flatMap (sentOn lane), Fits lane message := by
    intro lane message hmessage
    exact hall lane message (List.mem_append_left _ hmessage)
  exact h.keeps (ih hbefore) hbefore call

/-- While anything is under way, deliveries bring it to the application. -/
theorem KeepsLedger.exists_delivery
    (h : KeepsLedger step sentOn receivedOn delivers ledger load)
    {sent received : Lane → List Bytes} (hs : ledger s sent received)
    (hfits : ∀ lane, ∀ message ∈ sent lane, Fits lane message) :
    ∃ more, (∀ call ∈ more, delivers call = true) ∧ load (RunHistory.run step s more) = 0 := by
  apply RunHistory.exists_run_zero step load (I := fun s => ∃ received, ledger s sent received)
    (Q := fun call => delivers call = true)
  · intro s call hcall hbefore
    obtain ⟨received, hs⟩ := hbefore
    have hnext := h.keeps hs hfits call
    simp only [h.silent s hcall, List.append_nil] at hnext
    exact ⟨_, hnext⟩
  · intro s hbefore hload
    obtain ⟨received, hs⟩ := hbefore
    exact h.less hs hfits hload
  · exact ⟨received, hs⟩

theorem KeepsLedger.trace_silent (h : KeepsLedger step sentOn receivedOn delivers ledger load)
    {more : List ι} (hmore : ∀ call ∈ more, delivers call = true) (lane : Lane) :
    (RunHistory.trace step s more).flatMap (sentOn lane) = [] := by
  induction more generalizing s with
  | nil => rfl
  | cons call more ih =>
    rw [RunHistory.trace_cons, List.flatMap_cons, h.silent s (hmore call List.mem_cons_self),
      List.nil_append]
    exact ih fun call hcall => hmore call (List.mem_cons_of_mem _ hcall)

/-- What is received in the end was sent, and only messages that fit are received. -/
theorem LanesApart.fits (h : LanesApart step sentOn receivedOn delivers s calls)
    (hreceived : ∀ calls lane, ∀ message ∈
      (RunHistory.trace step s calls).flatMap (receivedOn lane), Fits lane message) :
    ∀ lane, ∀ message ∈ (RunHistory.trace step s calls).flatMap (sentOn lane),
      Fits lane message := by
  obtain ⟨-, more, -, hall⟩ := h
  intro lane message hmessage
  rw [← hall lane] at hmessage
  exact hreceived _ lane message hmessage

/-- A run keeps the lanes apart exactly when its accepted messages are well marked, if the
receiving calls only give messages that fit. -/
theorem KeepsLedger.lanesApart_iff
    (h : KeepsLedger step sentOn receivedOn delivers ledger load)
    (h0 : ledger s (fun _ => []) fun _ => [])
    (hreceived : ∀ calls lane, ∀ message ∈
      (RunHistory.trace step s calls).flatMap (receivedOn lane), Fits lane message)
    (calls : List ι) :
    LanesApart step sentOn receivedOn delivers s calls ↔ WellMarked step sentOn s calls := by
  rw [h.wellMarked_iff]
  constructor
  · intro hapart
    exact hapart.fits hreceived
  · intro hfits
    have hrun := h.run h0 calls hfits
    obtain ⟨more, hmore, hload⟩ := h.exists_delivery hrun hfits
    refine ⟨h.isPrefix hrun, more, hmore, fun lane => ?_⟩
    have hsent (lane : Lane) : (RunHistory.trace step s (calls ++ more)).flatMap (sentOn lane) =
        (RunHistory.trace step s calls).flatMap (sentOn lane) := by
      rw [RunHistory.trace_append, List.flatMap_append, h.trace_silent hmore, List.append_nil]
    have hall := h.run h0 (calls ++ more) fun lane => by
      rw [hsent lane]
      exact hfits lane
    rw [RunHistory.run_append] at hall
    rw [← h.all_received hall hload lane, hsent lane]

end Runs

namespace FramedLink

theorem keepsLedger : KeepsLedger step sentOn receivedOn FramedCall.delivers Ledger load where
  keeps h hsent call := h.step hsent call
  isPrefix h lane := h.received_isPrefix lane
  less h hsent hload := by
    obtain ⟨call, hless, hcall⟩ := h.exists_less hsent hload
    refine ⟨call, ?_, hless⟩
    rcases hcall with htask | ⟨rfl, -⟩ | ⟨rfl, -⟩
    · cases call <;> first | rfl | cases htask
    · rfl
    · rfl
  all_received h hload lane := h.received_of_load_zero hload lane
  silent link _ hcall lane := delivers_silent link hcall lane
  frames e message hmessage := by
    unfold sentOn at hmessage
    split at hmessage
    next hlane hcall hreply => cases hlane
    next protocol sent hlane hcall hreply => exact laneOf_mem_controlFrame hmessage
    next => cases hmessage

theorem received_fits {budget : TransportBudget} {link : FramedLink}
    (h : spawn budget = .ok link) (calls : List FramedCall) (lane : Lane) :
    ∀ message ∈ (RunHistory.trace step link calls).flatMap (receivedOn lane),
      Fits lane message := by
  intro message hmessage
  obtain ⟨e, he, hmessage⟩ := List.mem_flatMap.mp hmessage
  obtain ⟨hpre, hevent⟩ := RunHistory.trace_invariant step (I := Classified)
    (fun link call hlink => hlink.step call) (classified_spawn h) calls e he
  rw [hevent] at hmessage
  exact hpre.receivedOn_fits _ lane message hmessage

end FramedLink

end MutsukiLink
