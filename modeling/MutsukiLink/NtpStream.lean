import MutsukiLink.NtpDeliveries
import MutsukiLink.NtpOrigins

/-! A publisher and a subscriber with a network between them that loses, repeats and reorders
frames. Whatever the control lanes carry, what the subscriber hands over was published before. -/
namespace MutsukiLink.Ntp
open WireBytes RunHistory

/-- A network that takes frames from the publisher to the subscriber. It makes none up. -/
structure Network (σ : Type) where
  connection : List Frame → ReceivingConnection σ
  reliable_given : ∀ frames s wire s', (connection frames).tryReceive s = (.ok (some wire), s') →
    Frame.reliable wire ∈ frames
  realtime_given : ∀ frames s message s',
    (connection frames).tryReceiveRealtime s = (.ok (some message), s') →
      ∃ datagram, Frame.realtime datagram ∈ frames ∧ Delivers datagram message

structure Stream (P : ReceivingProtocol) where
  publisher : Publisher P.toTrackingProtocol
  subscriber : RealtimeSubscriber P
  shipped : List Frame

/-- A call of either end on its connection, the state of which is up to the environment. -/
inductive StreamCall (σ : Type) (P : ReceivingProtocol) where
  | publisher (s : End) (call : PublisherCall P.toTrackingProtocol)
  | reconnect (s fresh : End) (metadata : ConnectionMetadata) (authorization : NtpAuthorization)
    (now later : ℕ)
  | subscriber (s : σ) (call : ReceiverCall σ)

abbrev StreamEvent (σ : Type) (P : ReceivingProtocol) :=
  Event (Stream P) (StreamCall σ P) (Option (ReceiverReply P))

section Definitions
variable {σ : Type} {P : ReceivingProtocol}

/-- Frames that were given to an older connection may still arrive. -/
def Stream.step (network : Network σ) (w : Stream P) :
    StreamCall σ P → Option (ReceiverReply P) × Stream P
  | .publisher s call =>
    let (publisher, s) := w.publisher.call { s with frames := [] } call
    (none, { w with publisher, shipped := w.shipped ++ s.frames })
  | .reconnect s fresh metadata authorization now later =>
    let (_, publisher, _) := w.publisher.resetForReconnect endConnection s fresh metadata
      authorization now later
    (none, { w with publisher })
  | .subscriber s call =>
    let (reply, subscriber, _) := receiverStep (network.connection w.shipped) (w.subscriber, s) call
    (some reply, { w with subscriber })

/-- The call has published a result. -/
structure Publishes (e : StreamEvent σ P) (x : Publication P.toTrackingProtocol) : Prop where
  call : ∃ s call, e.input = .publisher s call ∧ e.pre.publisher.Publishes call x.result ∧
    x.maxPayload = s.conditions.maxPayload
  config : x.config = e.pre.publisher.config
  mode : x.mode = e.pre.publisher.transportMode

def PublishedIn (hist : List (StreamEvent σ P)) (x : Publication P.toTrackingProtocol) : Prop :=
  ∃ e ∈ hist, Publishes e x

end Definitions

namespace Stream
variable {σ : Type} {P : ReceivingProtocol} {network : Network σ} {config : BindingConfig}
  {hist : List (StreamEvent σ P)} {w : Stream P}

theorem publishedIn_append (more : List (StreamEvent σ P))
    (x : Publication P.toTrackingProtocol) (h : PublishedIn hist x) :
    PublishedIn (hist ++ more) x := by
  obtain ⟨e, he, hpublishes⟩ := h
  exact ⟨e, List.mem_append_left _ he, hpublishes⟩

/-- What holds between two calls. The subscriber is promised only datagrams that are cut in one
way. -/
structure Sound (config : BindingConfig) (hist : List (StreamEvent σ P)) (w : Stream P) :
    Prop where
  given : ∀ frame ∈ w.shipped, Shipped (PublishedIn hist) frame
  waiting : w.publisher.reliable.All (Shipped (PublishedIn hist))
  fed : OneCut (PublishedIn hist) → Fed (PublishedIn hist) config w.subscriber

variable (network) in
theorem Sound.brings (h : Sound config hist w) :
    Brings (network.connection w.shipped) (PublishedIn hist) where
  reliable := by
    intro s wire s' hreceive
    exact h.given _ (network.reliable_given _ s wire s' hreceive)
  realtime := by
    intro s message s' hreceive
    obtain ⟨datagram, hmem, hdelivers⟩ := network.realtime_given _ s message s' hreceive
    exact ⟨datagram, h.given _ hmem, hdelivers⟩

/-- A longer history publishes as much. -/
theorem Sound.later (h : Sound config hist w) (more : List (StreamEvent σ P)) :
    Sound config (hist ++ more) w := by
  have hle (x : Publication P.toTrackingProtocol) (hx : PublishedIn hist x) :
      PublishedIn (hist ++ more) x := publishedIn_append more x hx
  refine ⟨?_, ?_, ?_⟩
  · intro frame hframe
    exact (h.given frame hframe).mono hle
  · intro flow frame hpending
    exact (h.waiting flow frame hpending).mono hle
  · intro honce
    exact (h.fed (honce.of_le hle)).mono hle

theorem Sound.step (h : Sound config hist w) (hcodec : RoundTrips P) (call : StreamCall σ P) :
    Sound config (hist ++ [event (Stream.step network) w call])
      (Stream.step network w call).2 := by
  have hlater := h.later [event (Stream.step network) w call]
  cases call with
  | publisher s call =>
    have hkeeps : w.publisher.Keeps (Shipped (PublishedIn (hist ++ [event (Stream.step network) w
        (.publisher s call)]))) { s with frames := [] } := by
      refine ⟨hlater.waiting, ?_⟩
      intro frame hframe
      cases hframe
    have hcalled := Publisher.call_keeps hkeeps call (by
      intro result hpublishes frame hships
      refine ⟨⟨result, w.publisher.config, w.publisher.transportMode, s.conditions.maxPayload⟩,
        ?_, hships⟩
      exact ⟨_, List.mem_append_right _ (List.mem_singleton_self _),
        ⟨s, call, rfl, hpublishes, rfl⟩, rfl, rfl⟩)
    refine ⟨?_, hcalled.waiting, hlater.fed⟩
    intro frame hframe
    rcases List.mem_append.mp hframe with hold | hnew
    · exact hlater.given frame hold
    · exact hcalled.given frame hnew
  | reconnect s fresh metadata authorization now later =>
    refine ⟨hlater.given, ?_, hlater.fed⟩
    simp only [Stream.step, Publisher.resetForReconnect]
    split
    · exact hlater.waiting
    split
    · exact hlater.waiting
    · intro flow frame hpending
      cases hpending
  | subscriber s call =>
    refine ⟨hlater.given, hlater.waiting, ?_⟩
    intro honce
    exact ((hlater.fed honce).receiverStep (hlater.brings network) honce hcodec s call).1

theorem sound_trace (hcodec : RoundTrips P) {lanes : End} {s : σ}
    {metadata metadata' : ConnectionMetadata} {authorization authorization' : NtpAuthorization}
    {config' : BindingConfig} {now later now' later' : ℕ} {p : Publisher P.toTrackingProtocol}
    {c : RealtimeSubscriber P}
    (hpublisher : Publisher.new endConnection lanes metadata authorization config' now later =
      .ok p)
    (hsubscriber : RealtimeSubscriber.new (network.connection []).toNtpConnection s metadata'
      authorization' config now' later' = .ok c) (calls : List (StreamCall σ P)) :
    Sound config (trace (Stream.step network) ⟨p, c, []⟩ calls)
      (run (Stream.step network) ⟨p, c, []⟩ calls) := by
  have hstart : Sound config ([] : List (StreamEvent σ P)) ⟨p, c, []⟩ := by
    refine ⟨?_, ?_, ?_⟩
    · intro frame hframe
      cases hframe
    · intro flow frame hpending
      have hempty : p.reliable = {} := by
        unfold Publisher.new at hpublisher
        split at hpublisher
        · cases hpublisher
        split at hpublisher
        · cases hpublisher
        split at hpublisher
        · cases hpublisher
        rw [← Except.ok.inj hpublisher]
      rw [show p.reliable = {} from hempty] at hpending
      cases hpending
    · intro honce
      exact .start hsubscriber _
  exact run_history (Stream.step network) (P := Sound config) hstart
    (fun hist w call h => h.step hcodec call) calls

end Stream

section Runs
variable {σ : Type} {P : ReceivingProtocol}

theorem ReceiverReply.polled_of_result {reply : ReceiverReply P} {result : P.Result}
    (h : reply.result = some result) :
    ∃ received, reply = .polled (.ok received) ∧ received.result = some result := by
  unfold ReceiverReply.result at h
  split at h
  next received => exact ⟨received, rfl, h⟩
  · cases h

/-- A result that the subscriber hands over was published before, and its landmarks are those of a
result that was published before. A compact frame was read from the bytes of such a result. The
network may lose, repeat and reorder what it carries, and either end may begin again on another
connection. -/
theorem received_results_were_published (network : Network σ) (hcodec : RoundTrips P) (lanes : End)
    (s : σ) (metadata metadata' : ConnectionMetadata)
    (authorization authorization' : NtpAuthorization) (config config' : BindingConfig)
    (now later now' later' : ℕ) (p : Publisher P.toTrackingProtocol) (c : RealtimeSubscriber P)
    (hpublisher : Publisher.new endConnection lanes metadata authorization config now later = .ok p)
    (hsubscriber : RealtimeSubscriber.new (network.connection []).toNtpConnection s metadata'
      authorization' config' now' later' = .ok c) (calls : List (StreamCall σ P))
    (before after : List (StreamEvent σ P)) (e : StreamEvent σ P)
    (hsplit : trace (Stream.step network) ⟨p, c, []⟩ calls = before ++ e :: after)
    (honce : OneCut (PublishedIn before)) (reply : Except P.Failure (Received P))
    (hreply : e.reply = some (.polled reply)) : RepliesFrom (PublishedIn before) reply := by
  obtain ⟨js, call, ks, -, rfl, rfl, -⟩ := trace_cut (Stream.step network) hsplit
  have hsound := Stream.sound_trace hcodec hpublisher hsubscriber js
  generalize run (Stream.step network) ⟨p, c, []⟩ js = w at hsound hreply
  cases call with
  | publisher s call => cases hreply
  | reconnect s fresh metadata authorization now later => cases hreply
  | subscriber s call =>
    have hstep := (hsound.fed honce).receiverStep (hsound.brings network) honce hcodec s call
    exact hstep.2 reply (Option.some.inj hreply)

end Runs

namespace Sample

/-- Only what can be decoded again is encoded. -/
def streamProtocol : ReceivingProtocol := { receivingProtocol with
  encodeResult := fun result =>
    if result.sessionId = trackingSession ∧ result.generation = 1 ∧
        result.sequence = result.sequence.toUInt8.toUInt64 ∧ result.captureTimestampNs = 0 ∧
        result.producedTimestampNs = 0 then
      .ok (result.sequence.toUInt8 :: result.faceLandmarks.map fun _ => 0)
    else .error () }

theorem streamProtocol_codec : RoundTrips streamProtocol := by
  rintro ⟨sessionId, generation, sequence, captured, produced, landmarks, body⟩ bytes h
  simp only [streamProtocol] at h
  split at h
  next hfits =>
    obtain ⟨rfl, rfl, hsequence, rfl, rfl⟩ := hfits
    have hlandmarks : (landmarks.map fun _ => (0 : UInt8)).map (fun _ => ()) = landmarks :=
      (List.map_map ..).trans (List.map_id landmarks)
    rw [← Except.ok.inj h]
    simp only [streamProtocol, receivingProtocol, ← hsequence]
    exact congrArg (fun faceLandmarks => Except.ok
      (⟨trackingSession, 1, sequence, 0, 0, faceLandmarks, ()⟩ : streamProtocol.Result)) hlandmarks
  · cases h

/-- The lanes of the subscriber, and the numbers of the frames that arrive. -/
structure Arrivals where
  lanes : End
  numbers : List ℕ

def arrivingConnection (frames : List Frame) : ReceivingConnection Arrivals where
  maxDatagramPayload s := s.lanes.conditions.maxPayload
  trySendLatest s datagram := (s.lanes.trySendLatest datagram).map id fun lanes => { s with lanes }
  sendControl s message := (s.lanes.sendControl message).map id fun lanes => { s with lanes }
  receiveControl s := s.lanes.receiveControl.map id fun lanes => { s with lanes }
  trySend s wire := (s.lanes.trySend wire).map id fun lanes => { s with lanes }
  tryReceive s := match s.numbers with
    | [] => (.ok none, s)
    | number :: numbers => match frames[number]? with
      | some (.reliable wire) => (.ok (some wire), { s with numbers })
      | _ => (.ok none, { s with numbers })
  tryReceiveRealtime s := match s.numbers with
    | [] => (.ok none, s)
    | number :: numbers => match frames[number]? with
      | some (.realtime datagram) => (.ok (some ⟨datagram.flow, datagram.generation,
          datagram.sequence, datagram.priority, 0, datagram.payload⟩), { s with numbers })
      | _ => (.ok none, { s with numbers })

def arriving : Network Arrivals where
  connection := arrivingConnection
  reliable_given := by
    intro frames s wire s' h
    simp only [arrivingConnection] at h
    split at h
    · cases Except.ok.inj (Prod.mk.inj h).1
    split at h
    next wire' hframe =>
      obtain rfl := Option.some.inj (Except.ok.inj (Prod.mk.inj h).1)
      exact List.mem_of_getElem? hframe
    · cases Except.ok.inj (Prod.mk.inj h).1
  realtime_given := by
    intro frames s message s' h
    simp only [arrivingConnection] at h
    split at h
    · cases Except.ok.inj (Prod.mk.inj h).1
    split at h
    next datagram hframe =>
      obtain rfl := Option.some.inj (Except.ok.inj (Prod.mk.inj h).1)
      exact ⟨datagram, List.mem_of_getElem? hframe, rfl, rfl, rfl, rfl⟩
    · cases Except.ok.inj (Prod.mk.inj h).1

/-- Datagrams of nineteen bytes, so that a fragment carries one. -/
def narrow (incoming : List streamProtocol.Message) : End where
  outgoing := []
  incoming := incoming.filterMap fun m => m.encode.toOption
  frames := []
  conditions := { maxPayload := some 19 }

def streamResult : streamProtocol.Result := ⟨trackingSession, 1, 0, 0, 0, [()], ()⟩

/-- The publisher is told that its session is ready, and then it publishes one result. -/
def publishingCalls : List (StreamCall Arrivals streamProtocol) :=
  [.publisher (narrow [.hello (.new linkSession)]) (.pollControl 0),
    .publisher (narrow []) (.publishDescriptor trackingProposal 0),
    .publisher (narrow [.layoutAccepted ⟨7, .replicate 32 0, 1, 4⟩]) (.pollControl 0),
    .publisher (narrow [.sessionReady trackingSession 1 7]) (.pollControl 0),
    .publisher (narrow [.command .start]) (.pollControl 0),
    .publisher (narrow []) (.trySendLatest streamResult 0 0)]

def pollNumber (number : ℕ) : StreamCall Arrivals streamProtocol :=
  .subscriber ⟨narrow [], [number]⟩ (.pollRealtime ⟨0, 0⟩ 0 fun _ => 0)

/-- The two fragments of the geometry arrive in the other order, one of them twice, and the core
after them. -/
def receivingCalls : List (StreamCall Arrivals streamProtocol) :=
  (openingMessages.map fun m => .subscriber ⟨narrow [m], []⟩ (.control (.pollControl 0 0))) ++
    [3, 2, 2, 1].map pollNumber

def newStream : Option (Stream streamProtocol) :=
  match Publisher.new endConnection (narrow []) ⟨some peer, true⟩ ⟨peer, linkSession, .publisher⟩
      {} 0 0,
    RealtimeSubscriber.new (arriving.connection []).toNtpConnection ⟨narrow [], []⟩
      ⟨some peer, true⟩ ⟨peer, linkSession, .subscriber⟩ {} 0 0 with
  | .ok publisher, .ok subscriber => some ⟨publisher, subscriber, []⟩
  | _, _ => none

/-- The only result that these calls publish, and the payload of its datagrams. -/
theorem published_is_streamResult {w : Stream streamProtocol}
    {before after : List (StreamEvent Arrivals streamProtocol)}
    (hsplit : trace (Stream.step arriving) w (publishingCalls ++ receivingCalls) = before ++ after)
    {x : Publication streamProtocol.toTrackingProtocol} (hx : PublishedIn before x) :
    x.result = streamResult ∧ x.maxPayload = some 19 := by
  obtain ⟨e, he, ⟨s, call, hinput, ⟨now, later, -, -, -, -, rfl, -⟩, hmax⟩, -, -⟩ := hx
  have hmem : e.input ∈ publishingCalls ++ receivingCalls := by
    rw [← map_input_trace (Stream.step arriving) w (publishingCalls ++ receivingCalls), hsplit]
    exact List.mem_map_of_mem (List.mem_append_left _ he)
  rw [hinput] at hmem
  simp only [publishingCalls, receivingCalls, openingMessages, List.map_cons, List.map_nil,
    pollNumber, List.cons_append, List.nil_append, List.mem_cons, StreamCall.publisher.injEq,
    reduceCtorEq, and_false, PublisherCall.trySendLatest.injEq, List.not_mem_nil, or_self, or_false,
    false_or] at hmem
  obtain ⟨rfl, hresult, -, -⟩ := hmem
  exact ⟨hresult, hmax⟩

end Sample

/-- A result arrives with landmarks that came in two fragments, and both were published. -/
theorem sample_received_was_published : ∃ w, Sample.newStream = some w ∧
    ∃ before e after received result, trace (Stream.step Sample.arriving) w
      (Sample.publishingCalls ++ Sample.receivingCalls) = before ++ e :: after ∧
      e.reply = some (.polled (.ok received)) ∧ received.result = some result ∧
      result.faceLandmarks = [()] ∧ ResultFrom (PublishedIn before) result := by
  obtain ⟨w, hnew, hlandmarks⟩ : ∃ w, Sample.newStream = some w ∧
      ((((trace (Stream.step Sample.arriving) w (Sample.publishingCalls ++
        Sample.receivingCalls))[12]?).bind fun e => e.reply).bind fun reply =>
          reply.result).map (fun result => result.faceLandmarks) = some [()] :=
    ⟨_, rfl, by decide +kernel⟩
  obtain ⟨result, hbind, hone⟩ := Option.map_eq_some_iff.mp hlandmarks
  obtain ⟨reply, hbind, hresult⟩ := Option.bind_eq_some_iff.mp hbind
  obtain ⟨e, he, hreply⟩ := Option.bind_eq_some_iff.mp hbind
  obtain ⟨before, after, hsplit⟩ := List.append_of_mem (List.mem_of_getElem? he)
  obtain ⟨received, rfl, hreceived⟩ := ReceiverReply.polled_of_result hresult
  have honce : OneCut (PublishedIn before) := by
    intro x y hx hy hmode hmode' hgeneration hsequence
    obtain ⟨hx, hmax⟩ := Sample.published_is_streamResult hsplit hx
    obtain ⟨hy, hmax'⟩ := Sample.published_is_streamResult hsplit hy
    exact ⟨hx.trans hy.symm, hmax.trans hmax'.symm⟩
  have hstart := hnew
  unfold Sample.newStream at hstart
  split at hstart
  next p c hpublisher hsubscriber =>
    obtain rfl := Option.some.inj hstart
    have hfrom := received_results_were_published Sample.arriving Sample.streamProtocol_codec
      (Sample.narrow []) ⟨Sample.narrow [], []⟩ ⟨some Sample.peer, true⟩ ⟨some Sample.peer, true⟩
      ⟨Sample.peer, Sample.linkSession, .publisher⟩ ⟨Sample.peer, Sample.linkSession, .subscriber⟩
      {} {} 0 0 0 0 p c hpublisher hsubscriber (Sample.publishingCalls ++ Sample.receivingCalls)
      before after e hsplit honce (.ok received) hreply
    exact ⟨_, hnew, before, e, after, received, result, hsplit, hreply, hreceived, hone,
      hfrom.result received result rfl hreceived⟩
  · cases hstart

end MutsukiLink.Ntp
