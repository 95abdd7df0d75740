import MutsukiLink.FramedDelivery

/-! The two lanes of a QUIC connection: control frames and data messages each have a framed
connection of their own, and both readers still look at the first bytes. -/
namespace MutsukiLink
open WireBytes

def QuicCall.delivers : QuicCall → Bool
  | .trySend _ => false
  | .controlSend _ _ => false
  | _ => true

namespace QuicLink
variable {link : QuicLink} {sent received : Lane → List Bytes}

abbrev Event := RunHistory.Event QuicLink QuicCall FramedReply

def sentOn (lane : Lane) (e : Event) : List Bytes :=
  match lane, e.input, e.reply with
  | .data, .trySend message, .sent (.ok ()) => [message]
  | .control, .controlSend protocol message, .sent (.ok ()) =>
    (controlFrame protocol message).toOption.toList
  | _, _, _ => []

def receivedOn (lane : Lane) (e : Event) : List Bytes :=
  match lane, e.input, e.reply with
  | .data, .tryReceive, .received (.ok (some message)) => [message]
  | .control, .tryReceiveControl, .received (.ok (some message)) => [message]
  | _, _, _ => []

/-- The messages of one lane. -/
def only (lane : Lane) (messages : Lane → List Bytes) (other : Lane) : List Bytes :=
  if other = lane then messages lane else []

/-- Each connection has the ledger of its own lane and nothing on the other. -/
structure Ledger (link : QuicLink) (sent received : Lane → List Bytes) : Prop where
  control : link.control.Ledger (only .control sent) (only .control received)
  data : link.data.Ledger (only .data sent) (only .data received)

theorem only_fits (lane : Lane) (hsent : ∀ lane, ∀ message ∈ sent lane, Fits lane message) :
    ∀ other, ∀ message ∈ only lane sent other, Fits other message := by
  intro other message hmessage
  unfold only at hmessage
  split at hmessage
  next hlane => exact hlane ▸ hsent lane message hmessage
  next => cases hmessage

/-- A call of one connection, as the ledger of its lane sees it. -/
theorem ledger_only_step {lane : Lane} {link : FramedLink}
    (h : link.Ledger (only lane sent) (only lane received))
    (hsent : ∀ lane, ∀ message ∈ sent lane, Fits lane message) (call : FramedCall)
    {more got : Lane → List Bytes}
    (hmore : ∀ other, FramedLink.sentOn other (RunHistory.event FramedLink.step link call) =
      only lane more other)
    (hgot : ∀ other, FramedLink.receivedOn other (RunHistory.event FramedLink.step link call) =
      only lane got other) :
    (link.step call).2.Ledger (only lane fun lane => sent lane ++ more lane)
      (only lane fun lane => received lane ++ got lane) := by
  apply (h.step (only_fits lane hsent) call).congr
  · intro other
    rw [hmore other]
    unfold only
    split <;> simp
  · intro other
    rw [hgot other]
    unfold only
    split <;> simp

/-- A connection that is not called keeps its ledger. -/
theorem ledger_only_same {lane : Lane} {link : FramedLink}
    (h : link.Ledger (only lane sent) (only lane received)) {more got : Lane → List Bytes}
    (hmore : more lane = []) (hgot : got lane = []) :
    link.Ledger (only lane fun lane => sent lane ++ more lane)
      (only lane fun lane => received lane ++ got lane) := by
  apply h.congr
  · intro other
    simp only [only, hmore, List.append_nil]
  · intro other
    simp only [only, hgot, List.append_nil]

/-- The data queue of the control connection stays empty and its reader alive, so that
`try_receive` goes on to the data connection. -/
theorem Ledger.tryReceive_eq (h : link.Ledger sent received) :
    link.control.receive = [] ∧ link.tryReceive = (link.data.tryReceive).map id fun data =>
      { link with data } := by
  obtain ⟨stream, hcarries, hlanes⟩ := h.control.lanes
  have hempty : link.control.receive = [] := by
    have hdata := hlanes .data
    simp only [only, reduceCtorEq, if_false, FramedLink.pending, List.nil_append] at hdata
    exact (List.append_eq_nil_iff.mp hdata.symm).1
  refine ⟨hempty, ?_⟩
  have hnothing : link.control.tryReceive =
      (.error ⟨.wouldBlock, "no transport message is ready"⟩, link.control) := by
    have hreading := hcarries.reading
    simp only [FramedLink.tryReceive, hempty, FramedLink.nothingReady]
    cases hreader : link.control.reader with
    | finished e => rw [hreader] at hreading; exact hreading.elim
    | _ => rfl
  simp only [tryReceive, hnothing, if_true]

/-- A step of a task adds nothing to the ledger of its connection. -/
theorem ledger_only_task {lane : Lane} {link : FramedLink}
    (h : link.Ledger (only lane sent) (only lane received))
    (hsent : ∀ lane, ∀ message ∈ sent lane, Fits lane message) {call : FramedCall}
    (htask : call.isTask = true) :
    (link.step call).2.Ledger (only lane fun lane => sent lane ++ [])
      (only lane fun lane => received lane ++ []) := by
  have hnone (other : Lane) : only lane (fun _ => []) other = [] := ite_self []
  refine ledger_only_step h hsent call (fun other => ?_) fun other => ?_
  · rw [hnone, (FramedLink.task_silent link htask other).1]
  · rw [hnone, (FramedLink.task_silent link htask other).2]

/-- Each call is one of the connection whose lane it is about, and leaves the other alone. -/
theorem Ledger.step (h : link.Ledger sent received)
    (hsent : ∀ lane, ∀ message ∈ sent lane, Fits lane message) (call : QuicCall) :
    (link.step call).2.Ledger
      (fun lane => sent lane ++ sentOn lane (RunHistory.event QuicLink.step link call))
      (fun lane => received lane ++
        receivedOn lane (RunHistory.event QuicLink.step link call)) := by
  cases call with
  | trySend message =>
    refine ⟨ledger_only_same h.control rfl rfl, ledger_only_step h.data hsent (.trySend message)
      (fun other => ?_) fun other => ?_⟩
    · cases other with
      | control => rfl
      | data =>
        simp only [only, if_true, sentOn, FramedLink.sentOn, RunHistory.event, QuicLink.step,
          FramedLink.step, Prod.map, id]
        cases (link.data.trySend message).1 <;> rfl
    · cases other <;> rfl
  | controlSend protocol message =>
    refine ⟨ledger_only_step h.control hsent (.controlSend protocol message) (fun other => ?_)
      fun other => ?_, ledger_only_same h.data rfl rfl⟩
    · cases other with
      | data => rfl
      | control =>
        simp only [only, if_true, sentOn, FramedLink.sentOn, RunHistory.event, QuicLink.step,
          FramedLink.step, Prod.map, id]
        cases (link.control.controlSend protocol message).1 <;> rfl
    · cases other <;> rfl
  | controlTask step =>
    have hnone (lane : Lane) : sentOn lane (RunHistory.event QuicLink.step link
        (.controlTask step)) = [] := by cases lane <;> rfl
    have hnothing (lane : Lane) : receivedOn lane (RunHistory.event QuicLink.step link
        (.controlTask step)) = [] := by cases lane <;> rfl
    simp only [hnone, hnothing]
    by_cases htask : step.isTask = true
    · simp only [QuicLink.step, htask, if_true]
      exact ⟨ledger_only_task h.control hsent htask, ledger_only_same h.data rfl rfl⟩
    · simp only [QuicLink.step, htask, Bool.false_eq_true, if_false]
      exact ⟨ledger_only_same h.control rfl rfl, ledger_only_same h.data rfl rfl⟩
  | dataTask step =>
    have hnone (lane : Lane) : sentOn lane (RunHistory.event QuicLink.step link
        (.dataTask step)) = [] := by cases lane <;> rfl
    have hnothing (lane : Lane) : receivedOn lane (RunHistory.event QuicLink.step link
        (.dataTask step)) = [] := by cases lane <;> rfl
    simp only [hnone, hnothing]
    by_cases htask : step.isTask = true
    · simp only [QuicLink.step, htask, if_true]
      exact ⟨ledger_only_same h.control rfl rfl, ledger_only_task h.data hsent htask⟩
    · simp only [QuicLink.step, htask, Bool.false_eq_true, if_false]
      exact ⟨ledger_only_same h.control rfl rfl, ledger_only_same h.data rfl rfl⟩
  | tryReceive =>
    -- The control connection is asked first, and it never has a data message.
    have hstep : link.step .tryReceive =
        (.received link.data.tryReceive.1, { link with data := link.data.tryReceive.2 }) := by
      simp only [QuicLink.step, h.tryReceive_eq.2, Prod.map, id]
    simp only [RunHistory.event, hstep]
    refine ⟨ledger_only_same h.control rfl rfl, ledger_only_step h.data hsent .tryReceive
      (fun other => ?_) fun other => ?_⟩
    · cases other <;> rfl
    · cases other with
      | control => rfl
      | data =>
        simp only [only, if_true, receivedOn, FramedLink.receivedOn, RunHistory.event,
          FramedLink.step, Prod.map, id]
        rcases link.data.tryReceive.1 with e | message | message <;> rfl
  | tryReceiveControl =>
    refine ⟨ledger_only_step h.control hsent .tryReceiveControl (fun other => ?_)
      fun other => ?_, ledger_only_same h.data rfl rfl⟩
    · cases other <;> rfl
    · cases other with
      | data => rfl
      | control =>
        simp only [only, if_true, receivedOn, FramedLink.receivedOn, RunHistory.event,
          QuicLink.step, FramedLink.step, Prod.map, id]
        rcases link.control.tryReceiveControl.1 with e | message | message <;> rfl

theorem Ledger.received_isPrefix (h : link.Ledger sent received) (lane : Lane) :
    received lane <+: sent lane := by
  cases lane with
  | control => exact h.control.received_isPrefix .control
  | data => exact h.data.received_isPrefix .data

def load (link : QuicLink) : ℕ := link.control.load+link.data.load

/-- The connection that has something left to do makes a step, which is one of the whole. -/
theorem Ledger.exists_less (h : link.Ledger sent received)
    (hsent : ∀ lane, ∀ message ∈ sent lane, Fits lane message) (hload : link.load ≠ 0) :
    ∃ call : QuicCall, call.delivers = true ∧ (link.step call).2.load < link.load := by
  by_cases hdata : link.data.load = 0
  · have hcontrol : link.control.load ≠ 0 := by
      unfold load at hload
      omega
    obtain ⟨call, hless, hcall⟩ := h.control.exists_less (only_fits .control hsent) hcontrol
    rcases hcall with htask | hreceive | hreceiveControl
    · refine ⟨.controlTask call, rfl, ?_⟩
      simp only [QuicLink.step, htask, if_true, load]
      omega
    · -- Nothing is ever received from the data queue of the control connection.
      exact absurd h.tryReceive_eq.1 hreceive.2
    · obtain ⟨rfl, -⟩ := hreceiveControl
      refine ⟨.tryReceiveControl, rfl, ?_⟩
      change link.control.tryReceiveControl.2.load+link.data.load < link.load
      change link.control.tryReceiveControl.2.load < link.control.load at hless
      unfold load
      omega
  · obtain ⟨call, hless, hcall⟩ := h.data.exists_less (only_fits .data hsent) hdata
    rcases hcall with htask | hreceive | hreceiveControl
    · refine ⟨.dataTask call, rfl, ?_⟩
      simp only [QuicLink.step, htask, if_true, load]
      omega
    · obtain ⟨rfl, -⟩ := hreceive
      refine ⟨.tryReceive, rfl, ?_⟩
      change (link.tryReceive).2.load < link.load
      change link.data.tryReceive.2.load < link.data.load at hless
      rw [h.tryReceive_eq.2]
      change link.control.load+link.data.tryReceive.2.load < link.load
      unfold load
      omega
    · -- Nor from the control queue of the data connection.
      obtain ⟨stream, -, hlanes⟩ := h.data.lanes
      have hcontrol := hlanes .control
      simp only [only, reduceCtorEq, if_false, FramedLink.pending, List.nil_append] at hcontrol
      exact absurd (List.append_eq_nil_iff.mp hcontrol.symm).1 hreceiveControl.2

theorem keepsLedger : KeepsLedger step sentOn receivedOn QuicCall.delivers Ledger load where
  keeps h hsent call := h.step hsent call
  isPrefix h lane := h.received_isPrefix lane
  less h hsent hload := h.exists_less hsent hload
  all_received h hload lane := by
    unfold load at hload
    cases lane with
    | control => exact h.control.received_of_load_zero (by omega) .control
    | data => exact h.data.received_of_load_zero (by omega) .data
  silent link call hcall lane := by
    cases call with
    | trySend message => cases hcall
    | controlSend protocol message => cases hcall
    | _ => cases lane <;> rfl
  frames e message hmessage := by
    unfold sentOn at hmessage
    split at hmessage
    next hlane hcall hreply => cases hlane
    next protocol sent hlane hcall hreply => exact laneOf_mem_controlFrame hmessage
    next => cases hmessage

theorem ledger_spawn {budget : TransportBudget} (h : spawn budget = .ok link) :
    link.Ledger (fun _ => []) fun _ => [] := by
  unfold spawn at h
  split at h
  · cases h
  next framed hframed =>
    obtain rfl := Except.ok.inj h
    have hledger := FramedLink.ledger_spawn hframed
    have hnone (lane other : Lane) : [] = only lane (fun _ => []) other := by
      rw [only, ite_self]
    exact ⟨hledger.congr (hnone .control) (hnone .control),
      hledger.congr (hnone .data) (hnone .data)⟩

/-- Both receiving ends classify by the first bytes. -/
structure Classified (link : QuicLink) : Prop where
  control : link.control.Classified
  data : link.data.Classified

theorem Classified.tryReceive (h : link.Classified) : link.tryReceive.2.Classified ∧
    ∀ message, link.tryReceive.1 = .ok (some message) → Fits .data message := by
  obtain ⟨hcontrol, hfirst⟩ := h.control.tryReceive
  obtain ⟨hdata, hsecond⟩ := h.data.tryReceive
  unfold QuicLink.tryReceive
  split
  next received control hreply =>
    rw [hreply] at hcontrol hfirst
    exact ⟨⟨hcontrol, h.data⟩, hfirst⟩
  next e control hreply =>
    rw [hreply] at hcontrol
    split
    · exact ⟨⟨hcontrol, hdata⟩, hsecond⟩
    · exact ⟨⟨hcontrol, h.data⟩, fun message hok => by cases hok⟩

theorem Classified.step (h : link.Classified) (call : QuicCall) :
    (link.step call).2.Classified := by
  cases call with
  | trySend message => exact ⟨h.control, h.data.step (.trySend message)⟩
  | controlSend protocol message =>
    exact ⟨h.control.step (.controlSend protocol message), h.data⟩
  | controlTask call =>
    simp only [QuicLink.step]
    split
    · exact ⟨h.control.step call, h.data⟩
    · exact h
  | dataTask call =>
    simp only [QuicLink.step]
    split
    · exact ⟨h.control, h.data.step call⟩
    · exact h
  | tryReceive => exact h.tryReceive.1
  | tryReceiveControl => exact ⟨h.control.tryReceiveControl.1, h.data⟩

theorem classified_spawn {budget : TransportBudget} (h : spawn budget = .ok link) :
    link.Classified := by
  unfold spawn at h
  split at h
  · cases h
  next framed hframed =>
    obtain rfl := Except.ok.inj h
    exact ⟨FramedLink.classified_spawn hframed, FramedLink.classified_spawn hframed⟩

/-- A receive call gives a message of its own lane. -/
theorem Classified.receivedOn_fits (h : link.Classified) (call : QuicCall) (lane : Lane) :
    ∀ message ∈ receivedOn lane (RunHistory.event QuicLink.step link call), Fits lane message := by
  intro message hmessage
  unfold receivedOn at hmessage
  split at hmessage
  next hcall hreply =>
    obtain rfl : call = .tryReceive := hcall
    rw [List.mem_singleton.mp hmessage]
    exact h.tryReceive.2 _ (FramedReply.received.inj hreply)
  next hcall hreply =>
    obtain rfl : call = .tryReceiveControl := hcall
    rw [List.mem_singleton.mp hmessage]
    exact h.control.tryReceiveControl.2 _ (FramedReply.received.inj hreply)
  next => cases hmessage

theorem received_fits {budget : TransportBudget} (h : spawn budget = .ok link)
    (calls : List QuicCall) (lane : Lane) :
    ∀ message ∈ (RunHistory.trace step link calls).flatMap (receivedOn lane),
      Fits lane message := by
  intro message hmessage
  obtain ⟨e, he, hmessage⟩ := List.mem_flatMap.mp hmessage
  obtain ⟨hpre, hevent⟩ := RunHistory.trace_invariant step (I := Classified)
    (fun link call hlink => hlink.step call) (classified_spawn h) calls e he
  rw [hevent] at hmessage
  exact hpre.receivedOn_fits _ lane message hmessage

end QuicLink

/-- On a framed and on a QUIC connection, in every run, the lanes stay apart and nothing is lost
exactly when no accepted data message starts like a control frame and every accepted message has
a length of four bytes. -/
theorem lanes_apart_iff_well_marked (budget : TransportBudget) :
    (∀ link, FramedLink.spawn budget = .ok link → ∀ calls,
      LanesApart FramedLink.step FramedLink.sentOn FramedLink.receivedOn FramedCall.delivers link
          calls ↔
        WellMarked FramedLink.step FramedLink.sentOn link calls) ∧
    ∀ link, QuicLink.spawn budget = .ok link → ∀ calls,
      LanesApart QuicLink.step QuicLink.sentOn QuicLink.receivedOn QuicCall.delivers link calls ↔
        WellMarked QuicLink.step QuicLink.sentOn link calls := by
  constructor
  · intro link hspawn
    exact FramedLink.keepsLedger.lanesApart_iff (FramedLink.ledger_spawn hspawn)
      (FramedLink.received_fits hspawn)
  · intro link hspawn
    exact QuicLink.keepsLedger.lanesApart_iff (QuicLink.ledger_spawn hspawn)
      (QuicLink.received_fits hspawn)

/-- A data message and a control message on each kind of connection. -/
theorem sample_messages_stay_apart : ∃ framed quic,
    FramedLink.spawn {} = .ok framed ∧ QuicLink.spawn {} = .ok quic ∧
    LanesApart FramedLink.step FramedLink.sentOn FramedLink.receivedOn FramedCall.delivers framed
      [.trySend [1, 2], .controlSend "mutsuki.ntp" [3], .takeNext, .writeByte] ∧
    LanesApart QuicLink.step QuicLink.sentOn QuicLink.receivedOn QuicCall.delivers quic
      [.trySend [1, 2], .controlSend "mutsuki.ntp" [3], .dataTask .takeNext,
        .controlTask .takeNext] := by
  refine ⟨_, _, rfl, rfl, ?_, ?_⟩
  · exact ((lanes_apart_iff_well_marked {}).1 _ rfl _).mpr
      ⟨by decide +kernel, by decide +kernel⟩
  · exact ((lanes_apart_iff_well_marked {}).2 _ rfl _).mpr
      ⟨by decide +kernel, by decide +kernel⟩

/-- A data message of the four bytes `MLCS` is accepted on both kinds of connection. The framed one
delivers it as a control message, and no delivery on either gives it to `try_receive`. -/
theorem marked_data_message_leaves_its_lane : ∃ framed quic,
    FramedLink.spawn {} = .ok framed ∧ QuicLink.spawn {} = .ok quic ∧
    (RunHistory.trace FramedLink.step framed ([.trySend controlStreamMagic, .takeNext] ++
        List.replicate 8 .writeByte ++ List.replicate 8 .readByte ++
        [.forward, .tryReceive, .tryReceiveControl])).flatMap (FramedLink.receivedOn .control) =
      [controlStreamMagic] ∧
    ¬LanesApart FramedLink.step FramedLink.sentOn FramedLink.receivedOn FramedCall.delivers framed
      [.trySend controlStreamMagic] ∧
    ¬LanesApart QuicLink.step QuicLink.sentOn QuicLink.receivedOn QuicCall.delivers quic
      [.trySend controlStreamMagic] := by
  have hmark : ¬Fits .data controlStreamMagic := by
    intro h
    exact absurd h.1 (by decide)
  refine ⟨_, _, rfl, rfl, by decide +kernel, ?_, ?_⟩
  · intro hapart
    have hspawn : FramedLink.spawn {} = .ok _ := rfl
    have hfits := hapart.fits (FramedLink.received_fits hspawn)
    exact hmark (hfits .data controlStreamMagic (by decide +kernel))
  · intro hapart
    have hspawn : QuicLink.spawn {} = .ok _ := rfl
    have hfits := hapart.fits (QuicLink.received_fits hspawn)
    exact hmark (hfits .data controlStreamMagic (by decide +kernel))

end MutsukiLink
