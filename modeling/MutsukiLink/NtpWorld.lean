import MutsukiLink.NtpPublisher
import MutsukiLink.NtpSubscriber
import MutsukiLink.RunHistory

/-! A publisher and a subscriber on the two ends of one connection. Its control lanes are reliable
queues; everything else that it answers is up to the environment. -/
namespace MutsukiLink.Ntp
open WireBytes

/-- What is given to the connection besides control messages. -/
inductive Frame where
  | reliable (wire : Bytes)
  | realtime (datagram : RealtimeDatagram)
deriving DecidableEq, Repr

/-- What the environment decides for the operations of one call, in their order: `some` error, or
`none` for an operation that goes through. Operations without an answer go through. -/
structure Conditions where
  answers : List (Option TransportError) := []
  outcomes : List SendOutcome := []
  maxPayload : Option ℕ := none

/-- One end of the connection during a call. -/
structure End where
  outgoing : List Bytes
  incoming : List Bytes
  frames : List Frame
  conditions : Conditions

namespace End

/-- The answer to the next operation. -/
def answer (s : End) : Option TransportError × End :=
  (s.conditions.answers.head?.join,
    { s with conditions := { s.conditions with answers := s.conditions.answers.tail } })

def sendControl (s : End) (message : Bytes) : Except TransportError Unit × End :=
  match s.answer with
  | (some e, s) => (.error e, s)
  | (none, s) => (.ok (), { s with outgoing := s.outgoing ++ [message] })

def receiveControl (s : End) : Except TransportError (Option Bytes) × End :=
  match s.answer with
  | (some e, s) => (.error e, s)
  | (none, s) =>
    match s.incoming with
    | [] => (.ok none, s)
    | message :: incoming => (.ok (some message), { s with incoming })

def trySend (s : End) (wire : Bytes) : Except TransportError Unit × End :=
  match s.answer with
  | (some e, s) => (.error e, { s with frames := s.frames ++ [.reliable wire] })
  | (none, s) => (.ok (), { s with frames := s.frames ++ [.reliable wire] })

def trySendLatest (s : End) (datagram : RealtimeDatagram) :
    Except TransportError SendOutcome × End :=
  match s.answer with
  | (some e, s) => (.error e, { s with frames := s.frames ++ [.realtime datagram] })
  | (none, s) => (.ok (s.conditions.outcomes.head?.getD .enqueued), { s with
      frames := s.frames ++ [.realtime datagram]
      conditions := { s.conditions with outcomes := s.conditions.outcomes.tail } })

end End

def endConnection : NtpConnection End where
  maxDatagramPayload s := s.conditions.maxPayload
  trySendLatest := End.trySendLatest
  sendControl := End.sendControl
  receiveControl := End.receiveControl
  trySend := End.trySend

inductive PublisherCall (P : TrackingProtocol) where
  | trySendHello
  | publishDescriptor (proposal : SessionProposal P.toTrackingTypes) (now : ℕ)
  | pollControl (producerNowNs : UInt64)
  | trySendLatest (result : P.Result) (now later : ℕ)

inductive SubscriberCall where
  | trySendHello
  | trySendCommand (command : SessionCommand)
  | tryRequestGeometry
  | trySendPing (receiverNowNs : UInt64)
  | trySendReceiverReport
  | pollControl (receiverNowNs : UInt64) (now : ℕ)

def Publisher.call {P : TrackingProtocol} (p : Publisher P) (s : End) :
    PublisherCall P → Publisher P × End
  | .trySendHello => (p.trySendHello endConnection s).2
  | .publishDescriptor proposal now => (p.publishDescriptor endConnection s proposal now).2
  | .pollControl producerNowNs => (p.pollControl endConnection s producerNowNs).2
  | .trySendLatest result now later => (p.trySendLatest endConnection s result now later).2

def Subscriber.call {P : TrackingProtocol} (c : Subscriber P) (s : End) :
    SubscriberCall → Subscriber P × End
  | .trySendHello => (c.trySendHello endConnection s).2
  | .trySendCommand command => (c.trySendCommand endConnection s command).2
  | .tryRequestGeometry => (c.tryRequestGeometry endConnection s).2
  | .trySendPing receiverNowNs => (c.trySendPing endConnection s receiverNowNs).2
  | .trySendReceiverReport => (c.trySendReceiverReport endConnection s).2
  | .pollControl receiverNowNs now => (c.pollControl endConnection s receiverNowNs now).2

structure World (P : TrackingProtocol) where
  publisher : Publisher P
  subscriber : Subscriber P
  toSubscriber : List Bytes
  toPublisher : List Bytes

inductive WorldCall (P : TrackingProtocol) where
  | publisher (call : PublisherCall P) (conditions : Conditions)
  | subscriber (call : SubscriberCall) (conditions : Conditions)

/-- The reply of a call is what it has given to the connection besides control messages. -/
def World.step {P : TrackingProtocol} (w : World P) : WorldCall P → List Frame × World P
  | .publisher call conditions =>
    let (publisher, s) := w.publisher.call ⟨w.toSubscriber, w.toPublisher, [], conditions⟩ call
    (s.frames, { w with publisher, toSubscriber := s.outgoing, toPublisher := s.incoming })
  | .subscriber call conditions =>
    let (subscriber, s) := w.subscriber.call ⟨w.toPublisher, w.toSubscriber, [], conditions⟩ call
    (s.frames, { w with subscriber, toPublisher := s.outgoing, toSubscriber := s.incoming })

end MutsukiLink.Ntp
