import MutsukiLink.Heartbeat
import MutsukiLink.QuicRealtimeModel
import MutsukiLink.ReconnectModel

/-! The pool of peer sessions (`mutsuki-link-runtime`) with the listener whose connection budget it
shares. A connection is a resource: it is held by a session, by an inbound that awaits admission or
by nobody any more, and it gives its permit back when it is dropped. -/
namespace MutsukiLink
open Std RunHistory

inductive DuplicatePeerPolicy where
  | replaceExisting | reject
deriving DecidableEq, Repr

structure LinkEndpointConfig where
  quic : QuicOptions := { enableDatagrams := false }
  heartbeat : HeartbeatPolicy := {}
  reconnect : ReconnectPolicy := .disabled
  maxPeers : ℕ := 8
  duplicatePeer : DuplicatePeerPolicy := .replaceExisting
  serverName : String := "localhost"
  connectTimeout : ℕ := 10*1000000000
deriving DecidableEq, Repr

def LinkEndpointConfig.validate (config : LinkEndpointConfig) : Except String Unit :=
  if config.maxPeers = 0 then .error "max_peers must be positive"
  else if !config.heartbeat.isValid then .error "heartbeat policy is invalid"
  else if config.serverName.isEmpty then .error "server_name must not be empty"
  else if config.connectTimeout = 0 then .error "connect_timeout must be positive"
  else if !config.reconnect.isValid then .error "reconnect policy is invalid"
  else .ok ()

inductive PoolError where
  | invalidConfig (reason : String)
  | transport (error : TransportError)
  | peerLimit
  | duplicatePeer (peer : PeerId)
  | unknownPeer (peer : PeerId)
deriving DecidableEq, Repr

def PoolError.kind : PoolError → Option TransportErrorKind
  | .transport error => some error.kind
  | .peerLimit => some .wouldBlock
  | _ => none

inductive PoolEvent where
  | reconnectScheduled (peerId : PeerId) (unixMs : UInt64) (attempt : UInt32)
  | reconnectStopped (peerId : PeerId) (action : ReconnectAction)
  | heartbeat (peerId : PeerId) (action : HeartbeatAction) (profile : ConnectionActivityProfile)
deriving DecidableEq, Repr

/-- What the pool sees of a QUIC connection. The number says which of all the connections it is;
only those that the listener has accepted hold one of its permits. -/
structure QuicHandle where
  number : ℕ
  remoteAddress : SocketAddr
  permit : Bool
deriving DecidableEq, Repr

structure PeerSessionHandle where
  peerId : PeerId
  remoteEndpoint : EndpointId
  remoteAddr : SocketAddr
  connection : QuicHandle
  heartbeat : HeartbeatController
  reconnect : ReconnectController
deriving DecidableEq, Repr

namespace PeerSessionHandle

def new (peerId : PeerId) (remoteEndpoint : EndpointId) (remoteAddr : SocketAddr)
    (connection : QuicHandle) (heartbeat : HeartbeatPolicy) (reconnect : ReconnectPolicy)
    (now : UInt64) : Except PoolError PeerSessionHandle :=
  match HeartbeatController.new heartbeat now with
  | .error e => .error (.invalidConfig e)
  | .ok heartbeat =>
    match ReconnectController.new reconnect false with
    | .error e => .error (.invalidConfig e)
    | .ok reconnect => .ok ⟨peerId, remoteEndpoint, remoteAddr, connection, heartbeat, reconnect⟩

def tickHeartbeat (h : PeerSessionHandle) (now : UInt64) (profile : ConnectionActivityProfile) :
    HeartbeatAction × PeerSessionHandle :=
  let r := h.heartbeat.tick now profile
  (r.1, { h with heartbeat := r.2 })

def observeTransportAck (h : PeerSessionHandle) (now : UInt64) : PeerSessionHandle :=
  { h with heartbeat := h.heartbeat.observeTransportAck now }

def observeProbeAck (h : PeerSessionHandle) (now : UInt64) : PeerSessionHandle :=
  { h with heartbeat := h.heartbeat.observeProbeAck now }

def afterTransportFailure (h : PeerSessionHandle) (failure : ReconnectFailure) (now : UInt64)
    (jitterSample : UInt16) : ReconnectAction × PeerSessionHandle :=
  let r := h.reconnect.afterFailure failure now jitterSample
  (r.1, { h with reconnect := r.2 })

def resetReconnect (h : PeerSessionHandle) : PeerSessionHandle :=
  { h with reconnect := h.reconnect.reset }

end PeerSessionHandle

/-- An accepted connection that awaits admission. -/
structure InboundConnect where
  connectionId : ConnectionId
  remoteAddr : SocketAddr
  provisionalRemoteEndpoint : EndpointId
  connection : Option QuicHandle
deriving DecidableEq, Repr

/-- The pool and the counter of its listener, with the connections that were aborted and those that
were dropped, by their numbers. -/
structure PeerSessionPool where
  config : LinkEndpointConfig
  sessions : ExtTreeMap PeerId PeerSessionHandle
  inboundSeq : UInt64
  active : ℕ
  aborted : List ℕ
  dropped : List ℕ

/-- `ConnectionCounter::try_acquire`. -/
def tryAcquire (active limit : ℕ) : Option ℕ := if active < limit then some (active+1) else none

def connectionLimit : TransportError := ⟨.wouldBlock, "QUIC connection limit reached"⟩

def nextConnectionId (seq now : UInt64) : ConnectionId :=
  .fromBytes ⟨WireBytes.beBytes 8 seq.toNat ++ WireBytes.beBytes 8 now.toNat, by simp⟩

namespace PeerSessionPool

def bind (config : LinkEndpointConfig) : Except PoolError PeerSessionPool :=
  match config.validate with
  | .error e => .error (.invalidConfig e)
  | .ok () =>
    match config.quic.validate with
    | .error e => .error (.transport e)
    | .ok _ => .ok ⟨config, ∅, 1, 0, [], []⟩

/-- `QuicConnection::abort`. -/
def abort (pool : PeerSessionPool) (connection : QuicHandle) : PeerSessionPool :=
  { pool with aborted := pool.aborted ++ [connection.number] }

/-- `Drop for QuicConnection`, which aborts, and then that of the permit. -/
def drop (pool : PeerSessionPool) (connection : QuicHandle) : PeerSessionPool :=
  { pool.abort connection with
    dropped := pool.dropped ++ [connection.number]
    active := if connection.permit then pool.active-1 else pool.active }

/-- The end of a session: `disconnect`, and then the handle is dropped. -/
def endSession (pool : PeerSessionPool) (handle : PeerSessionHandle) : PeerSessionPool :=
  (pool.abort handle.connection).drop handle.connection

def ensureCapacityFor (pool : PeerSessionPool) (peer : PeerId) : Except PoolError Unit :=
  if pool.sessions[peer]?.isSome then
    match pool.config.duplicatePeer with
    | .replaceExisting => .ok ()
    | .reject => .error (.duplicatePeer peer)
  else if pool.config.maxPeers ≤ pool.sessions.size then .error .peerLimit
  else .ok ()

/-- The part of `insert_session` that comes before the new handle: it checks the limits once more
and ends the session that is replaced. -/
def makeWay (pool : PeerSessionPool) (peer : PeerId) : Except PoolError Unit × PeerSessionPool :=
  match pool.sessions[peer]? with
  | some previous =>
    match pool.config.duplicatePeer with
    | .replaceExisting =>
      (.ok (), { pool with sessions := pool.sessions.erase peer }.endSession previous)
    | .reject => (.error (.duplicatePeer peer), pool)
  | none =>
    if pool.config.maxPeers ≤ pool.sessions.size then (.error .peerLimit, pool) else (.ok (), pool)

/-- Wherever it fails, the connection that was offered is dropped. -/
def insertSession (pool : PeerSessionPool) (peer : PeerId) (remoteEndpoint : EndpointId)
    (remoteAddr : SocketAddr) (connection : QuicHandle) (now : UInt64) :
    Except PoolError PeerSessionHandle × PeerSessionPool :=
  match pool.ensureCapacityFor peer with
  | .error e => (.error e, pool.drop connection)
  | .ok () =>
    match pool.makeWay peer with
    | (.error e, pool) => (.error e, pool.drop connection)
    | (.ok (), pool) =>
      match PeerSessionHandle.new peer remoteEndpoint remoteAddr connection pool.config.heartbeat
        pool.config.reconnect now with
      | .error e => (.error e, pool.drop connection)
      | .ok handle => (.ok handle, { pool with sessions := pool.sessions.insert peer handle })

/-- `QuicListener::accept` up to its first wait: it needs a permit. -/
def beginAccept (pool : PeerSessionPool) : Except PoolError Unit × PeerSessionPool :=
  match tryAcquire pool.active pool.config.quic.budget.maxConnections with
  | none => (.error (.transport connectionLimit), pool)
  | some active => (.ok (), { pool with active })

/-- An accept that fails or is given up drops its permit. -/
def releasePermit (pool : PeerSessionPool) : PeerSessionPool :=
  { pool with active := pool.active-1 }

/-- The rest of `accept_inbound` once the endpoint has the connection. -/
def acceptInbound (pool : PeerSessionPool) (provisionalRemoteEndpoint : EndpointId)
    (connection : QuicHandle) (now : UInt64) : InboundConnect × PeerSessionPool :=
  (⟨nextConnectionId pool.inboundSeq now, connection.remoteAddress, provisionalRemoteEndpoint,
    some connection⟩, { pool with inboundSeq := pool.inboundSeq+1 })

/-- `Drop for InboundConnect`. -/
def dropInbound (pool : PeerSessionPool) (inbound : InboundConnect) : PeerSessionPool :=
  match inbound.connection with
  | none => pool
  | some connection => (pool.abort connection).drop connection

def admitInbound (pool : PeerSessionPool) (inbound : InboundConnect) (peer : PeerId)
    (remoteEndpoint : EndpointId) (now : UInt64) :
    Except PoolError PeerSessionHandle × PeerSessionPool :=
  match inbound.connection with
  | none => (.error (.invalidConfig "inbound connection already consumed"), pool)
  | some connection => pool.insertSession peer remoteEndpoint inbound.remoteAddr connection now

/-- The endpoint is only asked to dial when there is room for the peer. -/
def connectOutbound (pool : PeerSessionPool) (peer : PeerId) (remoteEndpoint : EndpointId)
    (dial : Except TransportError QuicHandle) (now : UInt64) :
    Except PoolError PeerSessionHandle × PeerSessionPool :=
  match pool.ensureCapacityFor peer with
  | .error e => (.error e, pool)
  | .ok () =>
    match dial with
    | .error e => (.error (.transport e), pool)
    | .ok connection =>
      pool.insertSession peer remoteEndpoint connection.remoteAddress connection now

def remove (pool : PeerSessionPool) (peer : PeerId) : Bool × PeerSessionPool :=
  match pool.sessions[peer]? with
  | none => (false, pool)
  | some handle => (true, { pool with sessions := pool.sessions.erase peer }.endSession handle)

/-- The loop of `maintenance_tick` over the peers that it has collected. -/
def tickPeers (now : UInt64) (profile : ConnectionActivityProfile) :
    List PeerId → ExtTreeMap PeerId PeerSessionHandle →
      List PoolEvent × ExtTreeMap PeerId PeerSessionHandle
  | [], sessions => ([], sessions)
  | peer :: peers, sessions =>
    match sessions[peer]? with
    | none => tickPeers now profile peers sessions
    | some handle =>
      let r := handle.tickHeartbeat now profile
      let rest := tickPeers now profile peers (sessions.insert peer r.2)
      (if r.1 ≠ .none then .heartbeat peer r.1 profile :: rest.1 else rest.1, rest.2)

def maintenanceTick (pool : PeerSessionPool) (now : UInt64)
    (profile : ConnectionActivityProfile) : List PoolEvent × PeerSessionPool :=
  let r := tickPeers now profile pool.sessions.keys pool.sessions
  (r.1, { pool with sessions := r.2 })

def reconnectEvent (peer : PeerId) : ReconnectAction → PoolEvent
  | .attemptAt unixMs attempt => .reconnectScheduled peer unixMs attempt
  | action => .reconnectStopped peer action

def noteTransportFailure (pool : PeerSessionPool) (peer : PeerId) (failure : ReconnectFailure)
    (now : UInt64) (jitterSample : UInt16) : Except PoolError (List PoolEvent) × PeerSessionPool :=
  match pool.sessions[peer]? with
  | none => (.error (.unknownPeer peer), pool)
  | some handle =>
    let r := handle.afterTransportFailure failure now jitterSample
    (.ok [reconnectEvent peer r.1], { pool with sessions := pool.sessions.insert peer r.2 })

end PeerSessionPool

end MutsukiLink
