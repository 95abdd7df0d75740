import MutsukiLink.PeerPoolModel

/-! A host and its pool over a whole run: every connection is in one place, the permits that are out
are counted, and the limits hold. The accepts that wait may overlap with any other call. -/
namespace MutsukiLink
open Std RunHistory

/-- The pool, the accepts that wait for the endpoint, the inbounds that the host has not admitted
yet and the number of connections made so far. -/
structure PoolWorld where
  pool : PeerSessionPool
  accepting : List EndpointId
  inbounds : List InboundConnect
  made : ℕ

inductive PoolCall where
  | beginAccept (provisionalRemoteEndpoint : EndpointId)
  /-- The endpoint answers the accept at this place of the list. -/
  | finishAccept (i : ℕ) (result : Except TransportError SocketAddr) (now : UInt64)
  | cancelAccept (i : ℕ)
  | dropInbound (i : ℕ)
  | admitInbound (i : ℕ) (peer : PeerId) (remoteEndpoint : EndpointId) (now : UInt64)
  | connectOutbound (peer : PeerId) (remoteEndpoint : EndpointId)
      (dial : Except TransportError SocketAddr) (now : UInt64)
  | remove (peer : PeerId)
  | maintenanceTick (now : UInt64) (profile : ConnectionActivityProfile)
  | noteTransportFailure (peer : PeerId) (failure : ReconnectFailure) (now : UInt64)
      (jitterSample : UInt16)
  | tickHeartbeat (peer : PeerId) (now : UInt64) (profile : ConnectionActivityProfile)
  | observeTransportAck (peer : PeerId) (now : UInt64)
  | observeProbeAck (peer : PeerId) (now : UInt64)
  | afterTransportFailure (peer : PeerId) (failure : ReconnectFailure) (now : UInt64)
      (jitterSample : UInt16)
  | resetReconnect (peer : PeerId)
  | disconnect (peer : PeerId)

inductive PoolReply where
  | started (result : Except PoolError Unit)
  | accepted (result : Except PoolError ConnectionId)
  | session (result : Except PoolError PeerSessionHandle)
  | removed (found : Bool)
  | events (events : List PoolEvent)
  | noted (result : Except PoolError (List PoolEvent))
  | heartbeat (action : HeartbeatAction)
  | reconnect (action : ReconnectAction)
  | done
  /-- There is no such accept, inbound or session. -/
  | absent

namespace PeerSessionPool

/-- What `get_mut` lets a host do to a session. -/
def update (pool : PeerSessionPool) (peer : PeerId) (handle : PeerSessionHandle) :
    PeerSessionPool :=
  { pool with sessions := pool.sessions.insert peer handle }

end PeerSessionPool

namespace PoolWorld

def start (pool : PeerSessionPool) : PoolWorld := ⟨pool, [], [], 0⟩

/-- A call on the session of a peer. -/
def onSession (w : PoolWorld) (peer : PeerId)
    (f : PeerSessionHandle → PoolReply × PeerSessionHandle) : PoolReply × PoolWorld :=
  match w.pool.sessions[peer]? with
  | none => (.absent, w)
  | some handle => ((f handle).1, { w with pool := w.pool.update peer (f handle).2 })

def step (w : PoolWorld) : PoolCall → PoolReply × PoolWorld
  | .beginAccept provisional =>
    match w.pool.beginAccept with
    | (.error e, pool) => (.started (.error e), { w with pool })
    | (.ok (), pool) =>
      (.started (.ok ()), { w with pool, accepting := w.accepting ++ [provisional] })
  | .finishAccept i result now =>
    match w.accepting[i]? with
    | none => (.absent, w)
    | some provisional =>
      let w := { w with accepting := w.accepting.eraseIdx i }
      match result with
      | .error e => (.accepted (.error (.transport e)), { w with pool := w.pool.releasePermit })
      | .ok address =>
        let r := w.pool.acceptInbound provisional ⟨w.made, address, true⟩ now
        (.accepted (.ok r.1.connectionId),
          { w with pool := r.2, inbounds := w.inbounds ++ [r.1], made := w.made+1 })
  | .cancelAccept i =>
    match w.accepting[i]? with
    | none => (.absent, w)
    | some _ =>
      (.done, { w with accepting := w.accepting.eraseIdx i, pool := w.pool.releasePermit })
  | .dropInbound i =>
    match w.inbounds[i]? with
    | none => (.absent, w)
    | some inbound =>
      (.done, { w with inbounds := w.inbounds.eraseIdx i, pool := w.pool.dropInbound inbound })
  | .admitInbound i peer remoteEndpoint now =>
    match w.inbounds[i]? with
    | none => (.absent, w)
    | some inbound =>
      let r := w.pool.admitInbound inbound peer remoteEndpoint now
      (.session r.1, { w with inbounds := w.inbounds.eraseIdx i, pool := r.2 })
  | .connectOutbound peer remoteEndpoint dial now =>
    let r := w.pool.connectOutbound peer remoteEndpoint
      (dial.map fun address => ⟨w.made, address, false⟩) now
    -- No connection is made where the endpoint is not asked.
    let made := if (w.pool.ensureCapacityFor peer).isOk && dial.isOk then w.made+1 else w.made
    (.session r.1, { w with pool := r.2, made })
  | .remove peer =>
    let r := w.pool.remove peer
    (.removed r.1, { w with pool := r.2 })
  | .maintenanceTick now profile =>
    let r := w.pool.maintenanceTick now profile
    (.events r.1, { w with pool := r.2 })
  | .noteTransportFailure peer failure now jitterSample =>
    let r := w.pool.noteTransportFailure peer failure now jitterSample
    (.noted r.1, { w with pool := r.2 })
  | .tickHeartbeat peer now profile =>
    w.onSession peer fun h => (h.tickHeartbeat now profile).map .heartbeat id
  | .observeTransportAck peer now => w.onSession peer fun h => (.done, h.observeTransportAck now)
  | .observeProbeAck peer now => w.onSession peer fun h => (.done, h.observeProbeAck now)
  | .afterTransportFailure peer failure now jitterSample => w.onSession peer fun h =>
    (h.afterTransportFailure failure now jitterSample).map .reconnect id
  | .resetReconnect peer => w.onSession peer fun h => (.done, h.resetReconnect)
  | .disconnect peer =>
    -- The session stays, with a connection that is aborted.
    match w.pool.sessions[peer]? with
    | none => (.absent, w)
    | some handle => (.done, { w with pool := w.pool.abort handle.connection })

end PoolWorld

/-! ### What the pool does with connections -/

/-- The sum of a weight of connections over the sessions. -/
def sessionWeight (f : QuicHandle → ℕ) (sessions : ExtTreeMap PeerId PeerSessionHandle) : ℕ :=
  OrderedMap.sumBy (fun h => f h.connection) sessions

/-- The pool has taken over some connections and has dropped some, with their permits. -/
structure Transfers (pool : PeerSessionPool) (took lost : List QuicHandle)
    (pool' : PeerSessionPool) : Prop where
  weight : ∀ f : QuicHandle → ℕ, sessionWeight f pool'.sessions+(lost.map f).sum =
    sessionWeight f pool.sessions+(took.map f).sum
  dropped : pool'.dropped = pool.dropped ++ lost.map QuicHandle.number
  active : pool'.active = pool.active-lost.countP QuicHandle.permit
  aborted : ∀ n, n ∈ pool.aborted ∨ n ∈ lost.map QuicHandle.number → n ∈ pool'.aborted
  config : pool'.config = pool.config

namespace Transfers
variable {pool pool' pool'' : PeerSessionPool} {took took' lost lost' : List QuicHandle}

theorem refl (pool : PeerSessionPool) : Transfers pool [] [] pool :=
  ⟨fun _ => rfl, (List.append_nil _).symm, rfl, by simp, rfl⟩

theorem trans (h : Transfers pool took lost pool') (h' : Transfers pool' took' lost' pool'') :
    Transfers pool (took ++ took') (lost ++ lost') pool'' where
  weight f := by
    have hfirst := h.weight f
    have hsecond := h'.weight f
    rw [List.map_append, List.map_append, List.sum_append, List.sum_append]
    omega
  dropped := by rw [h'.dropped, h.dropped, List.map_append, List.append_assoc]
  active := by rw [h'.active, h.active, List.countP_append, Nat.sub_sub]
  aborted n hn := by
    rw [List.map_append, List.mem_append] at hn
    refine h'.aborted n ?_
    rcases hn with hold | hfirst | hsecond
    · exact .inl (h.aborted n (.inl hold))
    · exact .inl (h.aborted n (.inr hfirst))
    · exact .inr hsecond
  config := h'.config.trans h.config

/-- An abort leaves the connection where it is. -/
theorem abort (pool : PeerSessionPool) (connection : QuicHandle) :
    Transfers pool [] [] (pool.abort connection) := by
  refine ⟨fun _ => rfl, (List.append_nil _).symm, rfl, fun n hn => ?_, rfl⟩
  exact List.mem_append_left _ (hn.resolve_right (by simp))

/-- A connection that the pool was given and has dropped at once. -/
theorem drop (pool : PeerSessionPool) (connection : QuicHandle) :
    Transfers pool [connection] [connection] (pool.drop connection) where
  weight _ := rfl
  dropped := rfl
  active := by cases hp : connection.permit <;> simp [PeerSessionPool.drop, hp]
  aborted n hn := by
    rcases hn with hold | hnew
    · exact List.mem_append_left _ hold
    · exact List.mem_append_right _ hnew
  config := rfl

/-- Sessions whose connections weigh the same in all. -/
theorem sessions (sessions' : ExtTreeMap PeerId PeerSessionHandle)
    (h : ∀ f, sessionWeight f sessions' = sessionWeight f pool.sessions) :
    Transfers pool [] [] { pool with sessions := sessions' } :=
  ⟨fun f => by simp [h f], (List.append_nil _).symm, rfl, by simp, rfl⟩

/-- A session is set up with a connection, where there was none. -/
theorem insert {peer : PeerId} (handle : PeerSessionHandle)
    (hnone : pool.sessions[peer]? = none) :
    Transfers pool [handle.connection] []
      { pool with sessions := pool.sessions.insert peer handle } where
  weight f := by
    have hinsert := OrderedMap.sumBy_insert_new (fun h : PeerSessionHandle => f h.connection)
      pool.sessions handle hnone
    simp only [sessionWeight, List.map_nil, List.sum_nil, List.map_singleton,
      List.sum_singleton]
    omega
  dropped := (List.append_nil _).symm
  active := rfl
  aborted := by simp
  config := rfl

/-- A session leaves the map and ends. -/
theorem endSession {peer : PeerId} {handle : PeerSessionHandle}
    (hhandle : pool.sessions[peer]? = some handle) :
    Transfers pool [] [handle.connection]
      ({ pool with sessions := pool.sessions.erase peer }.endSession handle) := by
  have herase (f : QuicHandle → ℕ) := OrderedMap.sumBy_erase
    (fun h : PeerSessionHandle => f h.connection) pool.sessions hhandle
  have hend := (abort { pool with sessions := pool.sessions.erase peer } handle.connection).trans
    (drop _ handle.connection)
  refine ⟨fun f => ?_, hend.dropped, hend.active, hend.aborted, hend.config⟩
  have hweight := hend.weight f
  have hf := herase f
  simp only [sessionWeight, List.nil_append] at hweight ⊢
  simp only [List.map_nil, List.sum_nil, List.map_singleton, List.sum_singleton] at hweight ⊢
  unfold PeerSessionPool.endSession
  omega

end Transfers

/-! ### Admission -/

namespace PeerSessionHandle

/-- With a configuration that was validated, a handle can always be made. -/
theorem new_ok {config : LinkEndpointConfig} (hvalid : config.validate = .ok ()) (peer : PeerId)
    (remoteEndpoint : EndpointId) (remoteAddr : SocketAddr) (connection : QuicHandle)
    (now : UInt64) : ∃ heartbeat reconnect,
      HeartbeatController.new config.heartbeat now = .ok heartbeat ∧
      ReconnectController.new config.reconnect false = .ok reconnect ∧
      new peer remoteEndpoint remoteAddr connection config.heartbeat config.reconnect now =
        .ok ⟨peer, remoteEndpoint, remoteAddr, connection, heartbeat, reconnect⟩ := by
  unfold LinkEndpointConfig.validate at hvalid
  split at hvalid
  · cases hvalid
  split at hvalid
  · cases hvalid
  next hheartbeat =>
  split at hvalid
  · cases hvalid
  split at hvalid
  · cases hvalid
  split at hvalid
  · cases hvalid
  next hreconnect =>
  refine ⟨_, _, if_neg hheartbeat, if_neg hreconnect, ?_⟩
  unfold new
  rw [HeartbeatController.new, if_neg hheartbeat, ReconnectController.new, if_neg hreconnect]

theorem new_connection {peer : PeerId} {remoteEndpoint : EndpointId} {remoteAddr : SocketAddr}
    {connection : QuicHandle} {heartbeat : HeartbeatPolicy} {reconnect : ReconnectPolicy}
    {now : UInt64} {handle : PeerSessionHandle}
    (h : new peer remoteEndpoint remoteAddr connection heartbeat reconnect now = .ok handle) :
    handle.connection = connection := by
  unfold new at h
  split at h
  · cases h
  split at h
  · cases h
  · rw [← Except.ok.inj h]

end PeerSessionHandle

namespace PeerSessionPool

/-- Whether there is room for the peer: a known one may only be replaced, a new one needs a
place. -/
def Admits (pool : PeerSessionPool) (peer : PeerId) : Prop :=
  if pool.sessions[peer]?.isSome then pool.config.duplicatePeer = .replaceExisting
  else pool.sessions.size < pool.config.maxPeers

instance (pool : PeerSessionPool) (peer : PeerId) : Decidable (pool.Admits peer) :=
  inferInstanceAs (Decidable (ite (_ : Prop) _ _))

def refusal (pool : PeerSessionPool) (peer : PeerId) : PoolError :=
  if pool.sessions[peer]?.isSome then .duplicatePeer peer else .peerLimit

theorem ensureCapacityFor_eq (pool : PeerSessionPool) (peer : PeerId) :
    pool.ensureCapacityFor peer =
      if pool.Admits peer then .ok () else .error (pool.refusal peer) := by
  unfold ensureCapacityFor Admits refusal
  by_cases hknown : pool.sessions[peer]?.isSome
  · simp only [hknown, if_true]
    cases pool.config.duplicatePeer <;> rfl
  · simp only [hknown, ← Nat.not_le]
    by_cases hfull : pool.config.maxPeers ≤ pool.sessions.size <;> simp [hfull]

/-- What an admission leaves behind: the new session, and the end of the one it replaces. -/
structure Inserted (pool : PeerSessionPool) (peer : PeerId) (handle : PeerSessionHandle)
    (pool' : PeerSessionPool) : Prop where
  sessions : pool'.sessions = pool.sessions.insert peer handle
  few : pool'.sessions.size ≤ max pool.sessions.size pool.config.maxPeers
  transfers : Transfers pool [handle.connection]
    (pool.sessions[peer]?.toList.map PeerSessionHandle.connection) pool'
  inboundSeq : pool'.inboundSeq = pool.inboundSeq

theorem insertSession_spec {pool : PeerSessionPool} (hvalid : pool.config.validate = .ok ())
    (peer : PeerId) (remoteEndpoint : EndpointId) (remoteAddr : SocketAddr)
    (connection : QuicHandle) (now : UInt64) :
    (¬pool.Admits peer ∧ pool.insertSession peer remoteEndpoint remoteAddr connection now =
        (.error (pool.refusal peer), pool.drop connection)) ∨
      pool.Admits peer ∧ ∃ handle pool', PeerSessionHandle.new peer remoteEndpoint remoteAddr
          connection pool.config.heartbeat pool.config.reconnect now = .ok handle ∧
        pool.insertSession peer remoteEndpoint remoteAddr connection now =
          (.ok handle, pool') ∧ pool.Inserted peer handle pool' := by
  unfold insertSession
  rw [ensureCapacityFor_eq]
  by_cases hadmits : pool.Admits peer
  · rw [if_pos hadmits]
    refine .inr ⟨hadmits, ?_⟩
    obtain ⟨heartbeat, reconnect, -, -, hnew⟩ := PeerSessionHandle.new_ok hvalid peer
      remoteEndpoint remoteAddr connection now
    unfold makeWay
    unfold Admits at hadmits
    cases hold : pool.sessions[peer]? with
    | none =>
      simp only [hold, Option.isSome_none, Bool.false_eq_true, if_false] at hadmits
      simp only [if_neg (Nat.not_le.mpr hadmits), hnew]
      refine ⟨_, _, rfl, rfl, rfl, ?_, by rw [hold]; exact .insert _ hold, rfl⟩
      rw [OrderedMap.size_insert_new _ _ hold]
      exact (Nat.succ_le_of_lt hadmits).trans (Nat.le_max_right _ _)
    | some previous =>
      simp only [hold, Option.isSome_some, if_true] at hadmits
      have hend := Transfers.endSession hold
      have hconfig := hend.config
      generalize hpool : ({ pool with sessions := pool.sessions.erase peer } :
        PeerSessionPool).endSession previous = pool₁ at hend hconfig
      have hsessions : pool₁.sessions = pool.sessions.erase peer := by
        rw [← hpool]
        rfl
      have hseq : pool₁.inboundSeq = pool.inboundSeq := by
        rw [← hpool]
        rfl
      simp only [hadmits, hpool, hconfig, hnew]
      have hnone : pool₁.sessions[peer]? = none := by
        rw [hsessions, OrderedMap.lookup_erase, if_pos rfl]
      have hsame : pool₁.sessions.insert peer
          ⟨peer, remoteEndpoint, remoteAddr, connection, heartbeat, reconnect⟩ =
          pool.sessions.insert peer
            ⟨peer, remoteEndpoint, remoteAddr, connection, heartbeat, reconnect⟩ := by
        apply ExtTreeMap.ext_getElem?
        intro other
        rw [hsessions, OrderedMap.lookup_insert, OrderedMap.lookup_insert,
          OrderedMap.lookup_erase]
        split <;> rfl
      have htransfers := hend.trans (.insert ⟨peer, remoteEndpoint, remoteAddr, connection,
        heartbeat, reconnect⟩ hnone)
      refine ⟨_, _, rfl, rfl, hsame, ?_, by rw [hold, ← hconfig]; exact htransfers, hseq⟩
      simp only [hsame]
      rw [OrderedMap.size_insert_live _ _ hold]
      exact Nat.le_max_left _ _
  · rw [if_neg hadmits]
    exact .inl ⟨hadmits, rfl⟩

/-- A tick changes the heartbeat of sessions and nothing else of them. -/
theorem tickPeers_keeps (now : UInt64) (profile : ConnectionActivityProfile)
    (peers : List PeerId) (sessions : ExtTreeMap PeerId PeerSessionHandle) :
    (tickPeers now profile peers sessions).2.size = sessions.size ∧
      ∀ f, sessionWeight f (tickPeers now profile peers sessions).2 = sessionWeight f sessions := by
  induction peers generalizing sessions with
  | nil => exact ⟨rfl, fun f => rfl⟩
  | cons peer peers ih =>
    unfold tickPeers
    cases hhandle : sessions[peer]? with
    | none => exact ih sessions
    | some handle =>
      obtain ⟨hsize, hweight⟩ := ih (sessions.insert peer (handle.tickHeartbeat now profile).2)
      refine ⟨?_, fun f => ?_⟩
      · rw [← OrderedMap.size_insert_live sessions (handle.tickHeartbeat now profile).2 hhandle,
          ← hsize]
      · have hupdate := OrderedMap.sumBy_update (fun h : PeerSessionHandle => f h.connection)
          sessions (handle.tickHeartbeat now profile).2 hhandle
        have hsame : (handle.tickHeartbeat now profile).2.connection = handle.connection := rfl
        rw [hsame] at hupdate
        exact (hweight f).trans (Nat.add_right_cancel hupdate)

/-- Another handle with the same connection in the place of a session. -/
theorem update_transfers {pool : PeerSessionPool} {peer : PeerId}
    {handle handle' : PeerSessionHandle} (hold : pool.sessions[peer]? = some handle)
    (hsame : handle'.connection = handle.connection) :
    Transfers pool [] [] (pool.update peer handle') ∧
      (pool.update peer handle').sessions.size = pool.sessions.size := by
  refine ⟨.sessions _ fun f => ?_, OrderedMap.size_insert_live _ _ hold⟩
  have hupdate := OrderedMap.sumBy_update (fun h : PeerSessionHandle => f h.connection)
    pool.sessions handle' hold
  rw [hsame] at hupdate
  exact Nat.add_right_cancel hupdate

end PeerSessionPool

/-! ### Every connection is in one place -/

def inboundWeight (f : QuicHandle → ℕ) (inbounds : List InboundConnect) : ℕ :=
  ((inbounds.filterMap InboundConnect.connection).map f).sum

theorem inboundWeight_eraseIdx (f : QuicHandle → ℕ) {inbounds : List InboundConnect} {i : ℕ}
    {inbound : InboundConnect} (h : inbounds[i]? = some inbound) :
    inboundWeight f (inbounds.eraseIdx i)+(inbound.connection.toList.map f).sum =
      inboundWeight f inbounds := by
  obtain ⟨hi, rfl⟩ := List.getElem?_eq_some_iff.mp h
  have hperm := (List.getElem_cons_eraseIdx_perm hi).filterMap InboundConnect.connection
  have hsum := (hperm.map f).sum_eq
  rw [List.filterMap_cons] at hsum
  unfold inboundWeight
  cases hc : inbounds[i].connection with
  | none =>
    rw [hc] at hsum
    simpa using hsum
  | some c =>
    rw [hc] at hsum
    simpa [Nat.add_comm] using hsum

/-- The weight of a connection that holds a permit. -/
def permitWeight (c : QuicHandle) : ℕ := if c.permit then 1 else 0

theorem sum_permitWeight (cs : List QuicHandle) :
    (cs.map permitWeight).sum = cs.countP QuicHandle.permit := by
  induction cs with
  | nil => rfl
  | cons c cs ih =>
    rw [List.map_cons, List.sum_cons, ih, List.countP_cons, permitWeight, Nat.add_comm]

namespace PoolWorld

/-- The sum of a weight over all the connections that are held. -/
def weight (w : PoolWorld) (f : QuicHandle → ℕ) : ℕ :=
  sessionWeight f w.pool.sessions+inboundWeight f w.inbounds

/-- What a call does to the connections: some are made and some are dropped. -/
structure Moves (w w' : PoolWorld) (born lost : List QuicHandle) : Prop where
  weight : ∀ f, w'.weight f+(lost.map f).sum = w.weight f+(born.map f).sum
  numbers : born.map QuicHandle.number = List.range' w.made born.length
  made : w'.made = w.made+born.length
  dropped : w'.pool.dropped = w.pool.dropped ++ lost.map QuicHandle.number
  aborted : ∀ n, n ∈ w.pool.aborted ∨ n ∈ lost.map QuicHandle.number → n ∈ w'.pool.aborted
  config : w'.pool.config = w.pool.config
  balanced : w.pool.active = w.accepting.length+w.weight permitWeight →
    w'.pool.active = w'.accepting.length+w'.weight permitWeight
  unconsumed : (∀ inbound ∈ w.inbounds, inbound.connection.isSome = true) →
    ∀ inbound ∈ w'.inbounds, inbound.connection.isSome = true
  few : w'.pool.sessions.size ≤ max w.pool.sessions.size w.pool.config.maxPeers
  limited : w.pool.active ≤ w.pool.config.quic.budget.maxConnections →
    w'.pool.active ≤ w.pool.config.quic.budget.maxConnections

/-- A change of the pool alone. -/
theorem Moves.ofTransfers {w : PoolWorld} {pool' : PeerSessionPool} {born lost : List QuicHandle}
    (h : Transfers w.pool born lost pool')
    (hfew : pool'.sessions.size ≤ max w.pool.sessions.size w.pool.config.maxPeers)
    (hborn : born.map QuicHandle.number = List.range' w.made born.length)
    (hpermits : born.countP QuicHandle.permit = 0) :
    Moves w { w with pool := pool', made := w.made+born.length } born lost where
  weight f := by
    have hweight := h.weight f
    simp only [PoolWorld.weight]
    omega
  numbers := hborn
  made := rfl
  dropped := h.dropped
  aborted := h.aborted
  config := h.config
  balanced hactive := by
    have hweight := h.weight permitWeight
    rw [sum_permitWeight, sum_permitWeight, hpermits] at hweight
    have hdrop := h.active
    simp only [PoolWorld.weight] at hactive ⊢
    omega
  unconsumed := id
  few := hfew
  limited hactive := h.active.trans_le ((Nat.sub_le _ _).trans hactive)

theorem Moves.quiet {w : PoolWorld} {pool' : PeerSessionPool} {lost : List QuicHandle}
    (h : Transfers w.pool [] lost pool')
    (hfew : pool'.sessions.size ≤ max w.pool.sessions.size w.pool.config.maxPeers) :
    Moves w { w with pool := pool' } [] lost :=
  .ofTransfers h hfew rfl rfl

theorem Moves.refl (w : PoolWorld) : Moves w w [] [] :=
  .quiet (.refl w.pool) (Nat.le_max_left _ _)

/-- An inbound leaves the host for the pool. -/
theorem Moves.consume {w : PoolWorld} {pool' : PeerSessionPool} {i : ℕ} {inbound : InboundConnect}
    {lost : List QuicHandle} (hinbound : w.inbounds[i]? = some inbound)
    (h : Transfers w.pool inbound.connection.toList lost pool')
    (hfew : pool'.sessions.size ≤ max w.pool.sessions.size w.pool.config.maxPeers) :
    Moves w { w with inbounds := w.inbounds.eraseIdx i, pool := pool' } [] lost where
  weight f := by
    have hweight := h.weight f
    have herase := inboundWeight_eraseIdx f hinbound
    simp only [PoolWorld.weight, List.map_nil, List.sum_nil]
    omega
  numbers := rfl
  made := rfl
  dropped := h.dropped
  aborted := h.aborted
  config := h.config
  balanced hactive := by
    have hweight := h.weight permitWeight
    have herase := inboundWeight_eraseIdx permitWeight hinbound
    rw [sum_permitWeight] at hweight
    have hdrop := h.active
    simp only [PoolWorld.weight] at hactive ⊢
    omega
  unconsumed hall other hother := hall other (List.mem_of_mem_eraseIdx hother)
  few := hfew
  limited hactive := h.active.trans_le ((Nat.sub_le _ _).trans hactive)

/-- A call on a session that leaves it its connection. -/
theorem onSession_moves (w : PoolWorld) (peer : PeerId)
    {f : PeerSessionHandle → PoolReply × PeerSessionHandle}
    (hf : ∀ h, (f h).2.connection = h.connection) : Moves w (w.onSession peer f).2 [] [] := by
  unfold onSession
  cases hhandle : w.pool.sessions[peer]? with
  | none => exact .refl w
  | some handle =>
    obtain ⟨htransfers, hsize⟩ := PeerSessionPool.update_transfers hhandle (hf handle)
    exact .quiet htransfers (hsize.trans_le (Nat.le_max_left _ _))

theorem beginAccept_moves (w : PoolWorld) (provisional : EndpointId) :
    Moves w (w.step (.beginAccept provisional)).2 [] [] := by
  unfold step PeerSessionPool.beginAccept tryAcquire
  by_cases hroom : w.pool.active < w.pool.config.quic.budget.maxConnections
  · simp only [if_pos hroom]
    refine ⟨fun _ => rfl, rfl, rfl, (List.append_nil _).symm, by simp, rfl, fun hactive => ?_, id,
      Nat.le_max_left _ _, fun _ => hroom⟩
    simp only [PoolWorld.weight] at hactive ⊢
    rw [List.length_append, List.length_singleton]
    omega
  · simp only [if_neg hroom]
    exact .refl w

/-- An accept that ends without a connection gives its permit back. -/
theorem release_moves {w : PoolWorld} {i : ℕ} {provisional : EndpointId}
    (h : w.accepting[i]? = some provisional) : Moves w
      { w with accepting := w.accepting.eraseIdx i, pool := w.pool.releasePermit } [] [] := by
  obtain ⟨hi, -⟩ := List.getElem?_eq_some_iff.mp h
  refine ⟨fun _ => rfl, rfl, rfl, (List.append_nil _).symm, by simp [PeerSessionPool.releasePermit],
    rfl, fun hactive => ?_, id, Nat.le_max_left _ _, fun hactive => (Nat.sub_le _ _).trans hactive⟩
  simp only [PoolWorld.weight, PeerSessionPool.releasePermit, List.length_eraseIdx_of_lt hi]
    at hactive ⊢
  omega

/-- An accept that succeeds passes its permit on to the connection. -/
theorem accept_moves {w : PoolWorld} {i : ℕ} {provisional : EndpointId} (address : SocketAddr)
    (now : UInt64) (h : w.accepting[i]? = some provisional) : Moves w
      { w with
        accepting := w.accepting.eraseIdx i
        pool := (w.pool.acceptInbound provisional ⟨w.made, address, true⟩ now).2
        inbounds := w.inbounds ++
          [(w.pool.acceptInbound provisional ⟨w.made, address, true⟩ now).1]
        made := w.made+1 } [⟨w.made, address, true⟩] [] := by
  obtain ⟨hi, -⟩ := List.getElem?_eq_some_iff.mp h
  have hweight (f : QuicHandle → ℕ) : inboundWeight f (w.inbounds ++
      [(w.pool.acceptInbound provisional ⟨w.made, address, true⟩ now).1]) =
      inboundWeight f w.inbounds+f ⟨w.made, address, true⟩ := by
    simp [inboundWeight, PeerSessionPool.acceptInbound]
  have hsessions : (w.pool.acceptInbound provisional ⟨w.made, address, true⟩ now).2.sessions =
      w.pool.sessions := rfl
  have hsame : (w.pool.acceptInbound provisional ⟨w.made, address, true⟩ now).2.active =
      w.pool.active := rfl
  refine ⟨fun f => ?_, rfl, rfl, (List.append_nil _).symm,
    by simp [PeerSessionPool.acceptInbound], rfl, fun hactive => ?_, fun hall => ?_,
    Nat.le_max_left _ _, id⟩
  · simp only [PoolWorld.weight, hweight, hsessions, List.map_nil, List.sum_nil,
      List.map_singleton, List.sum_singleton]
    omega
  · have hone : permitWeight ⟨w.made, address, true⟩ = 1 := rfl
    simp only [PoolWorld.weight, hweight, hsessions, hsame, hone,
      List.length_eraseIdx_of_lt hi] at hactive ⊢
    omega
  · refine List.forall_mem_append.mpr ⟨hall, ?_⟩
    rw [List.forall_mem_singleton]
    rfl

theorem step_moves {w : PoolWorld} (hvalid : w.pool.config.validate = .ok ()) (call : PoolCall) :
    ∃ born lost, Moves w (w.step call).2 born lost := by
  have hdropped {connection : QuicHandle} :
      (w.pool.drop connection).sessions.size ≤
        max w.pool.sessions.size w.pool.config.maxPeers := Nat.le_max_left _ _
  cases call with
  | beginAccept provisional => exact ⟨_, _, w.beginAccept_moves provisional⟩
  | finishAccept i result now =>
    cases haccept : w.accepting[i]? with
    | none =>
      simp only [step, haccept]
      exact ⟨_, _, .refl w⟩
    | some provisional =>
      cases result with
      | error e =>
        simp only [step, haccept]
        exact ⟨_, _, release_moves haccept⟩
      | ok address =>
        simp only [step, haccept]
        exact ⟨_, _, accept_moves address now haccept⟩
  | cancelAccept i =>
    cases haccept : w.accepting[i]? with
    | none =>
      simp only [step, haccept]
      exact ⟨_, _, .refl w⟩
    | some provisional =>
      simp only [step, haccept]
      exact ⟨_, _, release_moves haccept⟩
  | dropInbound i =>
    cases hinbound : w.inbounds[i]? with
    | none =>
      simp only [step, hinbound]
      exact ⟨_, _, .refl w⟩
    | some inbound =>
      simp only [step, hinbound, PeerSessionPool.dropInbound]
      cases hconnection : inbound.connection with
      | none => exact ⟨_, [], .consume hinbound (by rw [hconnection]; exact .refl _)
          (Nat.le_max_left _ _)⟩
      | some connection =>
        have htransfers := (Transfers.abort w.pool connection).trans (.drop _ connection)
        exact ⟨_, _, .consume hinbound (by rw [hconnection]; exact htransfers)
          (Nat.le_max_left _ _)⟩
  | admitInbound i peer remoteEndpoint now =>
    cases hinbound : w.inbounds[i]? with
    | none =>
      simp only [step, hinbound]
      exact ⟨_, _, .refl w⟩
    | some inbound =>
      simp only [step, hinbound, PeerSessionPool.admitInbound]
      cases hconnection : inbound.connection with
      | none => exact ⟨_, [], .consume hinbound (by rw [hconnection]; exact .refl _)
          (Nat.le_max_left _ _)⟩
      | some connection =>
        rcases PeerSessionPool.insertSession_spec hvalid peer remoteEndpoint inbound.remoteAddr
          connection now with ⟨-, hrefused⟩ | ⟨-, handle, pool', hnew, hadmitted, hinserted⟩
        · simp only [hrefused]
          exact ⟨_, _, .consume hinbound (by rw [hconnection]; exact .drop w.pool connection)
            hdropped⟩
        · simp only [hadmitted]
          have hsame := PeerSessionHandle.new_connection hnew
          have htransfers := hinserted.transfers
          rw [hsame] at htransfers
          exact ⟨_, _, .consume hinbound (by rw [hconnection]; exact htransfers) hinserted.few⟩
  | connectOutbound peer remoteEndpoint dial now =>
    simp only [step, PeerSessionPool.connectOutbound, PeerSessionPool.ensureCapacityFor_eq]
    by_cases hadmits : w.pool.Admits peer
    · simp only [if_pos hadmits]
      cases dial with
      | error e => exact ⟨_, _, .refl w⟩
      | ok address =>
        rcases PeerSessionPool.insertSession_spec hvalid peer remoteEndpoint address
          ⟨w.made, address, false⟩ now with
          ⟨-, hrefused⟩ | ⟨-, handle, pool', hnew, hadmitted, hinserted⟩
        · simp only [Except.map, hrefused]
          exact ⟨_, _, .ofTransfers (.drop w.pool _) hdropped rfl rfl⟩
        · simp only [Except.map, hadmitted]
          have hsame := PeerSessionHandle.new_connection hnew
          have htransfers := hinserted.transfers
          rw [hsame] at htransfers
          exact ⟨_, _, .ofTransfers htransfers hinserted.few rfl rfl⟩
    · simp only [if_neg hadmits]
      exact ⟨_, _, .refl w⟩
  | remove peer =>
    cases hhandle : w.pool.sessions[peer]? with
    | none =>
      simp only [step, PeerSessionPool.remove, hhandle]
      exact ⟨_, _, .refl w⟩
    | some handle =>
      simp only [step, PeerSessionPool.remove, hhandle]
      have hsize := OrderedMap.size_erase_add_one w.pool.sessions hhandle
      refine ⟨_, _, .quiet (.endSession hhandle) ?_⟩
      show (w.pool.sessions.erase peer).size ≤ _
      omega
  | maintenanceTick now profile =>
    obtain ⟨hsize, hweight⟩ := PeerSessionPool.tickPeers_keeps now profile w.pool.sessions.keys
      w.pool.sessions
    exact ⟨_, _, .quiet (.sessions _ hweight) (hsize.trans_le (Nat.le_max_left _ _))⟩
  | noteTransportFailure peer failure now jitterSample =>
    cases hhandle : w.pool.sessions[peer]? with
    | none =>
      simp only [step, PeerSessionPool.noteTransportFailure, hhandle]
      exact ⟨_, _, .refl w⟩
    | some handle =>
      simp only [step, PeerSessionPool.noteTransportFailure, hhandle]
      obtain ⟨htransfers, hsize⟩ := PeerSessionPool.update_transfers hhandle
        (show (handle.afterTransportFailure failure now jitterSample).2.connection = _ from rfl)
      exact ⟨_, _, .quiet htransfers (hsize.trans_le (Nat.le_max_left _ _))⟩
  | tickHeartbeat peer | observeTransportAck peer | observeProbeAck peer
  | afterTransportFailure peer | resetReconnect peer =>
    exact ⟨_, _, w.onSession_moves peer fun _ => rfl⟩
  | disconnect peer =>
    cases hhandle : w.pool.sessions[peer]? with
    | none =>
      simp only [step, hhandle]
      exact ⟨_, _, .refl w⟩
    | some handle =>
      simp only [step, hhandle]
      exact ⟨_, _, .quiet (.abort _ _) (Nat.le_max_left _ _)⟩

/-- The connections of the sessions and of the inbounds. -/
def held (w : PoolWorld) : List QuicHandle :=
  (OrderedMap.values w.pool.sessions).map PeerSessionHandle.connection ++
    w.inbounds.filterMap InboundConnect.connection

theorem sum_held (w : PoolWorld) (f : QuicHandle → ℕ) : (w.held.map f).sum = w.weight f := by
  rw [held, List.map_append, List.sum_append, List.map_map]
  rfl

/-- Everything that the host and the pool hold, counted by its number. -/
structure Account (w : PoolWorld) : Prop where
  valid : w.pool.config.validate = .ok ()
  few : w.pool.sessions.size ≤ w.pool.config.maxPeers
  active : w.pool.active = w.accepting.length+w.weight permitWeight
  limited : w.pool.active ≤ w.pool.config.quic.budget.maxConnections
  places : (w.held.map QuicHandle.number ++ w.pool.dropped).Perm (List.range w.made)
  aborted : ∀ n ∈ w.pool.dropped, n ∈ w.pool.aborted
  unconsumed : ∀ inbound ∈ w.inbounds, inbound.connection.isSome = true

theorem count_numbers (cs : List QuicHandle) (n : ℕ) :
    (cs.map QuicHandle.number).count n = (cs.map fun c => if c.number = n then 1 else 0).sum := by
  induction cs with
  | nil => rfl
  | cons c cs ih =>
    rw [List.map_cons, List.count_cons, ih, List.map_cons, List.sum_cons, Nat.add_comm]
    simp

theorem Account.moves {w w' : PoolWorld} {born lost : List QuicHandle} (h : w.Account)
    (hmoves : Moves w w' born lost) : w'.Account where
  valid := by
    rw [hmoves.config]
    exact h.valid
  few := by
    rw [hmoves.config]
    exact hmoves.few.trans (max_le h.few le_rfl)
  active := hmoves.balanced h.active
  limited := by
    rw [hmoves.config]
    exact hmoves.limited h.limited
  places := by
    rw [List.perm_iff_count]
    intro n
    have hbefore := List.perm_iff_count.mp h.places n
    have hweight := hmoves.weight fun c => if c.number = n then 1 else 0
    rw [← count_numbers, ← count_numbers, hmoves.numbers, ← sum_held, ← sum_held,
      ← count_numbers, ← count_numbers] at hweight
    rw [List.count_append] at hbefore ⊢
    rw [hmoves.dropped, List.count_append, hmoves.made, List.range_add, List.count_append,
      ← hbefore]
    have hnew : (List.range born.length).map (w.made+·) = List.range' w.made born.length := by
      rw [List.range'_eq_map_range]
    rw [hnew]
    omega
  aborted n hn := by
    rw [hmoves.dropped, List.mem_append] at hn
    exact hmoves.aborted n (hn.imp_left (h.aborted n))
  unconsumed := hmoves.unconsumed h.unconsumed

section Run
variable {config : LinkEndpointConfig} {pool : PeerSessionPool}

theorem account_start (h : PeerSessionPool.bind config = .ok pool) :
    (start pool).Account ∧ pool.config = config ∧ pool.inboundSeq = 1 := by
  unfold PeerSessionPool.bind at h
  split at h
  · cases h
  next hvalid =>
  split at h
  · cases h
  obtain rfl := Except.ok.inj h
  exact ⟨⟨hvalid, Nat.zero_le _, rfl, Nat.zero_le _, .refl _, by simp [start], by simp [start]⟩,
    rfl, rfl⟩

theorem run_account (h : PeerSessionPool.bind config = .ok pool) (calls : List PoolCall) :
    (run step (start pool) calls).Account ∧
      (run step (start pool) calls).pool.config = config := by
  obtain ⟨hstart, hconfig, -⟩ := account_start h
  induction calls using List.reverseRecOn with
  | nil => exact ⟨hstart, hconfig⟩
  | append_singleton calls call ih =>
    obtain ⟨born, lost, hmoves⟩ := step_moves ih.1.valid call
    rw [run_concat]
    exact ⟨ih.1.moves hmoves, hmoves.config.trans ih.2⟩

/-- At any point of a run, whatever the calls overlap with, each connection that was ever made is
held by exactly one session, awaits admission in exactly one inbound, or was dropped exactly once,
and then it was aborted. The counter of the listener is that of the accepts that wait and of the
accepted connections that are held, within its limit, and the peers are within theirs. -/
theorem every_connection_is_in_one_place (h : PeerSessionPool.bind config = .ok pool)
    (calls : List PoolCall) :
    ((run step (start pool) calls).held.map QuicHandle.number ++
      (run step (start pool) calls).pool.dropped).Perm
        (List.range (run step (start pool) calls).made) ∧
    (∀ n ∈ (run step (start pool) calls).pool.dropped,
      n ∈ (run step (start pool) calls).pool.aborted) ∧
    (run step (start pool) calls).pool.active =
      (run step (start pool) calls).accepting.length+
        (run step (start pool) calls).held.countP QuicHandle.permit ∧
    (run step (start pool) calls).pool.active ≤ config.quic.budget.maxConnections ∧
    (run step (start pool) calls).pool.sessions.size ≤ config.maxPeers := by
  obtain ⟨haccount, hconfig⟩ := run_account h calls
  refine ⟨haccount.places, haccount.aborted, ?_, ?_, ?_⟩
  · rw [← sum_permitWeight, sum_held]
    exact haccount.active
  · rw [← hconfig]
    exact haccount.limited
  · rw [← hconfig]
    exact haccount.few

end Run

end PoolWorld

namespace Sample

def peerPool : PeerSessionPool := ⟨{ maxPeers := 1 }, ∅, 1, 0, [], []⟩

theorem peerPool_bind : PeerSessionPool.bind { maxPeers := 1 } = .ok peerPool := by rfl

def firstPeer : PeerId := .fromBytes (.replicate 32 1)

def secondPeer : PeerId := .fromBytes (.replicate 32 2)

def firstEndpoint : EndpointId := .fromBytes (.replicate 16 1)

/-- A peer that comes back while its old session is still there. -/
def poolCalls : List PoolCall :=
  [.beginAccept firstEndpoint, .finishAccept 0 (.ok ⟨[127, 0, 0, 1], 9000⟩) 5,
    .admitInbound 0 firstPeer firstEndpoint 6,
    .noteTransportFailure firstPeer .networkChanged 7 0, .beginAccept firstEndpoint,
    .finishAccept 0 (.ok ⟨[127, 0, 0, 1], 9001⟩) 8,
    .admitInbound 0 firstPeer firstEndpoint 9, .maintenanceTick 100000 .idle]

end Sample

namespace PoolWorld
open Sample

theorem sample_in_one_place :
    ((run step (start peerPool) poolCalls).held.map QuicHandle.number ++
      (run step (start peerPool) poolCalls).pool.dropped).Perm
        (List.range (run step (start peerPool) poolCalls).made) :=
  (every_connection_is_in_one_place peerPool_bind poolCalls).1

example : (run step (start peerPool) poolCalls).held.map QuicHandle.number = [1] ∧
    (run step (start peerPool) poolCalls).pool.dropped = [0] := by decide +kernel

end PoolWorld

end MutsukiLink
