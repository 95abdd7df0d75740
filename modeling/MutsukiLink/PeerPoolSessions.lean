import MutsukiLink.PeerPoolRuns

/-! Admission to the pool and the independence of its sessions: a peer is admitted where there is
room for it, and from then on its controllers see its own calls and no others. -/
namespace MutsukiLink
open Std RunHistory

/-! ### What a call does to the controllers of one peer -/

namespace PoolCall

/-- The call that reaches the heartbeat controller of the peer. A tick of the pool reaches all. -/
def heartbeatCall (peer : PeerId) : PoolCall → Option HeartbeatCall
  | .maintenanceTick now profile => some (.tick now profile)
  | .tickHeartbeat p now profile => if p = peer then some (.tick now profile) else none
  | .observeTransportAck p now => if p = peer then some (.observeTransportAck now) else none
  | .observeProbeAck p now => if p = peer then some (.observeProbeAck now) else none
  | _ => none

def reconnectCall (peer : PeerId) : PoolCall → Option ReconnectCall
  | .noteTransportFailure p failure now jitterSample
  | .afterTransportFailure p failure now jitterSample =>
    if p = peer then some (.afterFailure failure now jitterSample) else none
  | .resetReconnect p => if p = peer then some .reset else none
  | _ => none

/-- The time at which a call may set up a session. -/
def admissionTime : PoolCall → Option UInt64
  | .admitInbound _ _ _ now | .connectOutbound _ _ _ now => some now
  | _ => none

end PoolCall

/-- The session of this peer has been set up. -/
def PoolReply.admits (peer : PeerId) : PoolReply → Bool
  | .session (.ok handle) => handle.peerId = peer
  | _ => false

def PoolEvent.heartbeatOn (peer : PeerId) : PoolEvent → Option HeartbeatAction
  | .heartbeat p action _ => if p = peer then some action else none
  | _ => none

def PoolEvent.reconnectOn (peer : PeerId) : PoolEvent → Option ReconnectAction
  | .reconnectScheduled p unixMs attempt => if p = peer then some (.attemptAt unixMs attempt)
    else none
  | .reconnectStopped p action => if p = peer then some action else none
  | _ => none

/-- What a reply says about the heartbeat of the peer, where it says that something is to be
done. -/
def heartbeatsOn (peer : PeerId) (call : PoolCall) : PoolReply → List HeartbeatAction
  | .events es => es.filterMap (PoolEvent.heartbeatOn peer)
  | .heartbeat action =>
    if (call.heartbeatCall peer).isSome ∧ action ≠ .none then [action] else []
  | _ => []

def reconnectsOn (peer : PeerId) (call : PoolCall) : PoolReply → List ReconnectAction
  | .noted (.ok es) => es.filterMap (PoolEvent.reconnectOn peer)
  | .reconnect action => if (call.reconnectCall peer).isSome then [action] else []
  | _ => []

/-- What a controller that takes this call, or none, reports. -/
def heartbeatReport (c : HeartbeatController) (call : Option HeartbeatCall) :
    List HeartbeatAction :=
  (call.bind fun call => (c.step call).1).toList.filter fun action => action ≠ .none

def reconnectReport (c : ReconnectController) (call : Option ReconnectCall) :
    List ReconnectAction :=
  (call.bind fun call => (c.step call).1).toList

/-- The session with its controllers after their calls. -/
def PeerSessionHandle.follow (h : PeerSessionHandle) (peer : PeerId) (call : PoolCall) :
    PeerSessionHandle :=
  { h with
    heartbeat := (call.heartbeatCall peer).elim h.heartbeat fun c => (h.heartbeat.step c).2
    reconnect := (call.reconnectCall peer).elim h.reconnect fun c => (h.reconnect.step c).2 }

namespace PeerSessionPool

theorem reconnectEvent_on (peer p : PeerId) (action : ReconnectAction) :
    (reconnectEvent p action).reconnectOn peer = if p = peer then some action else none := by
  cases action <;> rfl

/-- Each of the peers is ticked once, and its event is reported where its action is not none. -/
theorem tickPeers_spec (now : UInt64) (profile : ConnectionActivityProfile) {peers : List PeerId}
    (hnodup : peers.Nodup) (sessions : ExtTreeMap PeerId PeerSessionHandle) (peer : PeerId) :
    (tickPeers now profile peers sessions).2[peer]? =
      (if peer ∈ peers then
          sessions[peer]?.map fun h : PeerSessionHandle => (h.tickHeartbeat now profile).2
        else sessions[peer]?) ∧
    (tickPeers now profile peers sessions).1.filterMap (PoolEvent.heartbeatOn peer) =
      (if peer ∈ peers then sessions[peer]?.elim [] fun h : PeerSessionHandle =>
        [(h.tickHeartbeat now profile).1].filter fun action => action ≠ .none else []) := by
  induction peers generalizing sessions with
  | nil => simp [tickPeers]
  | cons p peers ih =>
    obtain ⟨hnew, hnodup⟩ := List.nodup_cons.mp hnodup
    unfold tickPeers
    cases hhandle : sessions[p]? with
    | none =>
      obtain ⟨hlookup, hreport⟩ := ih hnodup sessions
      by_cases hsame : p = peer
      · subst hsame
        simpa [hnew, hhandle] using And.intro hlookup hreport
      · simpa [List.mem_cons, Ne.symm hsame] using And.intro hlookup hreport
    | some handle =>
      obtain ⟨hlookup, hreport⟩ := ih hnodup
        (sessions.insert p (handle.tickHeartbeat now profile).2)
      rw [OrderedMap.lookup_insert] at hlookup hreport
      by_cases hsame : p = peer
      · subst hsame
        simp only [hnew, if_false, if_true] at hlookup hreport
        simp only [List.mem_cons_self, if_true, hhandle, Option.map_some, Option.elim_some]
        refine ⟨hlookup, ?_⟩
        by_cases hnone : (handle.tickHeartbeat now profile).1 = .none
        · simp [hnone, hreport]
        · simp [hnone, hreport, PoolEvent.heartbeatOn]
      · simp only [if_neg hsame] at hlookup hreport
        have hmem : peer ∈ p :: peers ↔ peer ∈ peers := by simp [Ne.symm hsame]
        simp only [hmem]
        refine ⟨hlookup, ?_⟩
        rw [← hreport]
        split
        · exact List.filterMap_cons_none (if_neg hsame)
        · rfl

end PeerSessionPool

namespace PoolWorld

/-- A call that neither sets up nor removes the session of the peer: its controllers make their own
step, and the reply says about them what they say. -/
structure Follows (w : PoolWorld) (peer : PeerId) (call : PoolCall) : Prop where
  lookup : (w.step call).2.pool.sessions[peer]? =
    w.pool.sessions[peer]?.map fun h => h.follow peer call
  heartbeats : ∀ h : PeerSessionHandle, w.pool.sessions[peer]? = some h →
    heartbeatsOn peer call (w.step call).1 = heartbeatReport h.heartbeat (call.heartbeatCall peer)
  reconnects : ∀ h : PeerSessionHandle, w.pool.sessions[peer]? = some h →
    reconnectsOn peer call (w.step call).1 = reconnectReport h.reconnect (call.reconnectCall peer)

/-- A call that has nothing to do with the peer. -/
theorem Follows.quiet {w : PoolWorld} {peer : PeerId} {call : PoolCall}
    (hheartbeat : call.heartbeatCall peer = none) (hreconnect : call.reconnectCall peer = none)
    (hlookup : (w.step call).2.pool.sessions[peer]? = w.pool.sessions[peer]?)
    (hheartbeats : heartbeatsOn peer call (w.step call).1 = [])
    (hreconnects : reconnectsOn peer call (w.step call).1 = []) : w.Follows peer call where
  lookup := by
    have hsame : (fun h : PeerSessionHandle => h.follow peer call) = id := by
      funext h
      rw [PeerSessionHandle.follow, hheartbeat, hreconnect]
      rfl
    rw [hlookup, hsame, Option.map_id]
    rfl
  heartbeats h _ := by
    rw [hheartbeats, hheartbeat]
    rfl
  reconnects h _ := by
    rw [hreconnects, hreconnect]
    rfl

/-- A call on the session of some peer, which makes the step of its controllers. -/
theorem Follows.onSession {w : PoolWorld} {peer p : PeerId} {call : PoolCall}
    {f : PeerSessionHandle → PoolReply × PeerSessionHandle}
    (hstep : w.step call = w.onSession p f)
    (hother : p ≠ peer → call.heartbeatCall peer = none ∧ call.reconnectCall peer = none)
    (hfollow : p = peer → ∀ h, (f h).2 = h.follow peer call ∧
      heartbeatsOn peer call (f h).1 = heartbeatReport h.heartbeat (call.heartbeatCall peer) ∧
      reconnectsOn peer call (f h).1 = reconnectReport h.reconnect (call.reconnectCall peer))
    (hquiet : p ≠ peer → ∀ h, heartbeatsOn peer call (f h).1 = [] ∧
      reconnectsOn peer call (f h).1 = []) : w.Follows peer call := by
  by_cases hsame : p = peer
  · subst hsame
    refine ⟨?_, fun h hh => ?_, fun h hh => ?_⟩
    · rw [hstep, PoolWorld.onSession]
      cases hhandle : w.pool.sessions[p]? with
      | none =>
        rw [Option.map_none]
        exact hhandle
      | some handle =>
        rw [Option.map_some, ← (hfollow rfl handle).1]
        exact (OrderedMap.lookup_insert _ _ _ _).trans (if_pos rfl)
    · rw [hstep, PoolWorld.onSession, hh]
      exact (hfollow rfl h).2.1
    · rw [hstep, PoolWorld.onSession, hh]
      exact (hfollow rfl h).2.2
  · obtain ⟨hheartbeat, hreconnect⟩ := hother hsame
    cases hhandle : w.pool.sessions[p]? with
    | none =>
      have habsent : w.step call = (.absent, w) := by rw [hstep, PoolWorld.onSession, hhandle]
      exact .quiet hheartbeat hreconnect (by rw [habsent]) (by rw [habsent]; rfl)
        (by rw [habsent]; rfl)
    | some handle =>
      have hdone : w.step call =
          ((f handle).1, { w with pool := w.pool.update p (f handle).2 }) := by
        rw [hstep, PoolWorld.onSession, hhandle]
      obtain ⟨hheartbeats, hreconnects⟩ := hquiet hsame handle
      refine .quiet hheartbeat hreconnect ?_ (by rw [hdone]; exact hheartbeats)
        (by rw [hdone]; exact hreconnects)
      rw [hdone]
      exact (OrderedMap.lookup_insert _ _ _ _).trans (if_neg hsame)

theorem maintenanceTick_follows (w : PoolWorld) (peer : PeerId) (now : UInt64)
    (profile : ConnectionActivityProfile) : w.Follows peer (.maintenanceTick now profile) := by
  have hnodup : w.pool.sessions.keys.Nodup := ExtTreeMap.nodup_keys
  obtain ⟨hlookup, hreport⟩ := PeerSessionPool.tickPeers_spec now profile hnodup w.pool.sessions
    peer
  have hmem : peer ∈ w.pool.sessions.keys ↔ w.pool.sessions[peer]?.isSome := by
    rw [ExtTreeMap.mem_keys, ExtTreeMap.mem_iff_isSome_getElem?]
  simp only [hmem] at hlookup hreport
  refine ⟨?_, fun h hh => ?_, fun h hh => rfl⟩
  · refine hlookup.trans ?_
    cases hhandle : w.pool.sessions[peer]? with
    | none => rfl
    | some handle => rfl
  · rw [hh] at hreport
    exact hreport

theorem noteTransportFailure_follows (w : PoolWorld) (peer p : PeerId)
    (failure : ReconnectFailure) (now : UInt64) (jitterSample : UInt16) :
    w.Follows peer (.noteTransportFailure p failure now jitterSample) := by
  cases hhandle : w.pool.sessions[p]? with
  | none =>
    have habsent : w.step (.noteTransportFailure p failure now jitterSample) =
        (.noted (.error (.unknownPeer p)), w) := by
      simp only [step, PeerSessionPool.noteTransportFailure, hhandle]
    by_cases hsame : p = peer
    · subst hsame
      refine ⟨?_, fun h hh => ?_, fun h hh => ?_⟩
      · rw [habsent, hhandle, Option.map_none]
      · rw [hhandle] at hh
        cases hh
      · rw [hhandle] at hh
        cases hh
    · exact .quiet rfl (if_neg hsame) (by rw [habsent]) (by rw [habsent]; rfl)
        (by rw [habsent]; rfl)
  | some handle =>
    have hdone : w.step (.noteTransportFailure p failure now jitterSample) =
        (.noted (.ok [PeerSessionPool.reconnectEvent p
          (handle.afterTransportFailure failure now jitterSample).1]),
        { w with
          pool := w.pool.update p (handle.afterTransportFailure failure now jitterSample).2 }) := by
      simp only [step, PeerSessionPool.noteTransportFailure, hhandle, PeerSessionPool.update]
    have hreconnects : reconnectsOn peer (.noteTransportFailure p failure now jitterSample)
        (w.step (.noteTransportFailure p failure now jitterSample)).1 =
        if p = peer then [(handle.afterTransportFailure failure now jitterSample).1] else [] := by
      rw [hdone]
      by_cases hsame : p = peer <;>
        simp [reconnectsOn, PeerSessionPool.reconnectEvent_on, hsame]
    have hlookup : (w.step (.noteTransportFailure p failure now
        jitterSample)).2.pool.sessions[peer]? =
        if p = peer then some (handle.afterTransportFailure failure now jitterSample).2
        else w.pool.sessions[peer]? := by
      rw [hdone]
      exact OrderedMap.lookup_insert _ _ _ _
    by_cases hsame : p = peer
    · subst hsame
      rw [if_pos rfl] at hreconnects hlookup
      have hcall : PoolCall.reconnectCall p (.noteTransportFailure p failure now jitterSample) =
          some (.afterFailure failure now jitterSample) := if_pos rfl
      refine ⟨?_, fun h hh => by rw [hdone]; rfl, fun h hh => ?_⟩
      · rw [hlookup, hhandle, Option.map_some, PeerSessionHandle.follow, hcall]
        rfl
      · obtain rfl := Option.some.inj (hhandle.symm.trans hh)
        rw [hreconnects, hcall]
        rfl
    · rw [if_neg hsame] at hreconnects hlookup
      exact .quiet rfl (if_neg hsame) hlookup (by rw [hdone]; rfl) hreconnects

/-- What an admission that was not refused leaves for the peers. -/
structure Admission (w : PoolWorld) (call : PoolCall) (handle : PeerSessionHandle) : Prop where
  reply : (w.step call).1 = .session (.ok handle)
  sessions : (w.step call).2.pool.sessions = w.pool.sessions.insert handle.peerId handle
  fresh : ∃ now, call.admissionTime = some now ∧
    HeartbeatController.new w.pool.config.heartbeat now = .ok handle.heartbeat ∧
    ReconnectController.new w.pool.config.reconnect false = .ok handle.reconnect

/-- A new session is that of its peer, and its controllers are as new. -/
theorem admission_of_insert {w : PoolWorld} {call : PoolCall} {peer : PeerId}
    {remoteEndpoint : EndpointId} {remoteAddr : SocketAddr} {connection : QuicHandle}
    {now : UInt64} {handle : PeerSessionHandle} (htime : call.admissionTime = some now)
    (hnew : PeerSessionHandle.new peer remoteEndpoint remoteAddr connection w.pool.config.heartbeat
      w.pool.config.reconnect now = .ok handle)
    (hreply : (w.step call).1 = .session (.ok handle))
    (hsessions : (w.step call).2.pool.sessions = w.pool.sessions.insert peer handle) :
    w.Admission call handle ∧ handle.peerId = peer := by
  unfold PeerSessionHandle.new at hnew
  split at hnew
  · cases hnew
  next heartbeat hheartbeat =>
  split at hnew
  · cases hnew
  next reconnect hreconnect =>
  obtain rfl := Except.ok.inj hnew
  exact ⟨⟨hreply, hsessions, now, htime, hheartbeat, hreconnect⟩, rfl⟩

/-- What an offer to the pool leaves: a new session, or the sessions as they were. -/
theorem step_admission {w : PoolWorld} (hvalid : w.pool.config.validate = .ok ())
    {call : PoolCall} {now : UInt64} (htime : call.admissionTime = some now) :
    (∃ handle, w.Admission call handle) ∨
      (w.step call).2.pool.sessions = w.pool.sessions ∧
        ∀ handle, (w.step call).1 ≠ .session (.ok handle) := by
  cases call with
  | admitInbound i peer remoteEndpoint now' =>
    obtain rfl := Option.some.inj htime
    cases hinbound : w.inbounds[i]? with
    | none =>
      have habsent : w.step (.admitInbound i peer remoteEndpoint now') = (.absent, w) := by
        simp only [step, hinbound]
      rw [habsent]
      exact .inr ⟨rfl, by simp⟩
    | some inbound =>
      have hdone : w.step (.admitInbound i peer remoteEndpoint now') =
          (.session (w.pool.admitInbound inbound peer remoteEndpoint now').1, { w with
            inbounds := w.inbounds.eraseIdx i
            pool := (w.pool.admitInbound inbound peer remoteEndpoint now').2 }) := by
        simp only [step, hinbound]
      unfold PeerSessionPool.admitInbound at hdone
      cases hconnection : inbound.connection with
      | none =>
        simp only [hconnection] at hdone
        rw [hdone]
        exact .inr ⟨rfl, by simp⟩
      | some connection =>
        simp only [hconnection] at hdone
        rcases PeerSessionPool.insertSession_spec hvalid peer remoteEndpoint inbound.remoteAddr
          connection now' with ⟨-, hrefused⟩ | ⟨-, handle, pool', hnew, hadmitted, hinserted⟩
        · rw [hdone, hrefused]
          exact .inr ⟨rfl, by simp⟩
        · rw [hadmitted] at hdone
          refine .inl ⟨handle, (admission_of_insert rfl hnew (by rw [hdone]) ?_).1⟩
          rw [hdone]
          exact hinserted.sessions
  | connectOutbound peer remoteEndpoint dial now' =>
    obtain rfl := Option.some.inj htime
    by_cases hadmits : w.pool.Admits peer
    · cases dial with
      | error e =>
        have hdone : w.step (.connectOutbound peer remoteEndpoint (.error e) now') =
            (.session (.error (.transport e)), w) := by
          simp [step, PeerSessionPool.connectOutbound, PeerSessionPool.ensureCapacityFor_eq,
            hadmits, Except.map, Except.isOk, Except.toBool]
        rw [hdone]
        exact .inr ⟨rfl, by simp⟩
      | ok address =>
        rcases PeerSessionPool.insertSession_spec hvalid peer remoteEndpoint address
          ⟨w.made, address, false⟩ now' with
          ⟨hrefuses, -⟩ | ⟨-, handle, pool', hnew, hadmitted, hinserted⟩
        · exact absurd hadmits hrefuses
        · have hdone : w.step (.connectOutbound peer remoteEndpoint (.ok address) now') =
              (.session (.ok handle), { w with pool := pool', made := w.made+1 }) := by
            simp only [step, PeerSessionPool.connectOutbound,
              PeerSessionPool.ensureCapacityFor_eq, if_pos hadmits, Except.map, hadmitted]
            rfl
          refine .inl ⟨handle, (admission_of_insert rfl hnew (by rw [hdone]) ?_).1⟩
          rw [hdone]
          exact hinserted.sessions
    · have hdone : w.step (.connectOutbound peer remoteEndpoint dial now') =
          (.session (.error (w.pool.refusal peer)), w) := by
        simp [step, PeerSessionPool.connectOutbound, PeerSessionPool.ensureCapacityFor_eq,
          hadmits, Except.isOk, Except.toBool]
      rw [hdone]
      exact .inr ⟨rfl, by simp⟩
  | _ => cases htime

theorem onSession_admits (w : PoolWorld) {peer p : PeerId}
    {f : PeerSessionHandle → PoolReply × PeerSessionHandle}
    (hf : ∀ h, (f h).1.admits peer = false) : (w.onSession p f).1.admits peer = false := by
  unfold onSession
  split
  · rfl
  · exact hf _

/-- Calls that are no offers leave the other peers alone. -/
theorem step_follows (w : PoolWorld) {call : PoolCall} (htime : call.admissionTime = none)
    (peer : PeerId) : (w.step call).1.admits peer = false ∧
      (call = .remove peer ∧ (w.step call).2.pool.sessions[peer]? = none ∨
        call ≠ .remove peer ∧ w.Follows peer call) := by
  -- The calls that leave the sessions as they are and say nothing about them.
  have hquiet (hheartbeat : call.heartbeatCall peer = none)
      (hreconnect : call.reconnectCall peer = none) (hremove : call ≠ .remove peer)
      (hlookup : (w.step call).2.pool.sessions[peer]? = w.pool.sessions[peer]?)
      (hreply : (w.step call).1.admits peer = false)
      (hheartbeats : heartbeatsOn peer call (w.step call).1 = [])
      (hreconnects : reconnectsOn peer call (w.step call).1 = []) :
      (w.step call).1.admits peer = false ∧
        (call = .remove peer ∧ (w.step call).2.pool.sessions[peer]? = none ∨
          call ≠ .remove peer ∧ w.Follows peer call) :=
    ⟨hreply, .inr ⟨hremove, .quiet hheartbeat hreconnect hlookup hheartbeats hreconnects⟩⟩
  cases call with
  | admitInbound | connectOutbound => cases htime
  | beginAccept provisional =>
    by_cases hroom : w.pool.active < w.pool.config.quic.budget.maxConnections
    · have hdone : w.step (.beginAccept provisional) = (.started (.ok ()), { w with
          pool := { w.pool with active := w.pool.active+1 }
          accepting := w.accepting ++ [provisional] }) := by
        simp only [step, PeerSessionPool.beginAccept, tryAcquire, if_pos hroom]
      apply hquiet <;> first | rfl | simp [hdone, PoolReply.admits, heartbeatsOn, reconnectsOn]
    · have hdone : w.step (.beginAccept provisional) =
          (.started (.error (.transport connectionLimit)), w) := by
        simp only [step, PeerSessionPool.beginAccept, tryAcquire, if_neg hroom]
      apply hquiet <;> first | rfl | simp [hdone, PoolReply.admits, heartbeatsOn, reconnectsOn]
  | finishAccept i result now =>
    cases haccept : w.accepting[i]? with
    | none =>
      apply hquiet <;>
        first | rfl | simp [step, haccept, PoolReply.admits, heartbeatsOn, reconnectsOn]
    | some provisional =>
      cases result with
      | error e => apply hquiet <;> first | rfl | simp [step, haccept, PoolReply.admits,
          heartbeatsOn, reconnectsOn, PeerSessionPool.releasePermit]
      | ok address => apply hquiet <;> first | rfl | simp [step, haccept, PoolReply.admits,
          heartbeatsOn, reconnectsOn, PeerSessionPool.acceptInbound]
  | cancelAccept i =>
    cases haccept : w.accepting[i]? with
    | none =>
      apply hquiet <;>
        first | rfl | simp [step, haccept, PoolReply.admits, heartbeatsOn, reconnectsOn]
    | some provisional => apply hquiet <;> first | rfl | simp [step, haccept, PoolReply.admits,
        heartbeatsOn, reconnectsOn, PeerSessionPool.releasePermit]
  | dropInbound i =>
    cases hinbound : w.inbounds[i]? with
    | none =>
      apply hquiet <;>
        first | rfl | simp [step, hinbound, PoolReply.admits, heartbeatsOn, reconnectsOn]
    | some inbound =>
      have hsame : (w.pool.dropInbound inbound).sessions = w.pool.sessions := by
        unfold PeerSessionPool.dropInbound
        split <;> rfl
      apply hquiet <;> first | rfl | simp [step, hinbound, PoolReply.admits, heartbeatsOn,
        reconnectsOn, hsame]
  | disconnect p =>
    cases hhandle : w.pool.sessions[p]? with
    | none =>
      apply hquiet <;>
        first | rfl | simp [step, hhandle, PoolReply.admits, heartbeatsOn, reconnectsOn]
    | some handle => apply hquiet <;> first | rfl | simp [step, hhandle, PoolReply.admits,
        heartbeatsOn, reconnectsOn, PeerSessionPool.abort]
  | remove p =>
    have hsessions : (w.step (.remove p)).2.pool.sessions[peer]? =
        if p = peer then none else w.pool.sessions[peer]? := by
      simp only [step, PeerSessionPool.remove]
      cases hhandle : w.pool.sessions[p]? with
      | none =>
        by_cases hsame : p = peer
        · rw [if_pos hsame, ← hsame]
          exact hhandle
        · rw [if_neg hsame]
      | some handle => exact OrderedMap.lookup_erase _ _ _
    by_cases hsame : p = peer
    · rw [if_pos hsame] at hsessions
      exact ⟨rfl, .inl ⟨by rw [hsame], hsessions⟩⟩
    · rw [if_neg hsame] at hsessions
      refine hquiet rfl rfl (fun h => hsame (PoolCall.remove.inj h)) hsessions rfl rfl rfl
  | maintenanceTick now profile =>
    exact ⟨rfl, .inr ⟨by simp, w.maintenanceTick_follows peer now profile⟩⟩
  | noteTransportFailure p failure now jitterSample =>
    exact ⟨rfl, .inr ⟨by simp, w.noteTransportFailure_follows peer p failure now jitterSample⟩⟩
  | tickHeartbeat p now profile =>
    refine ⟨w.onSession_admits fun _ => rfl, .inr ⟨by simp, .onSession (p := p) rfl
      (fun hother => ⟨if_neg hother, rfl⟩) (fun hsame h => ?_) fun hother h => ?_⟩⟩
    · have hcall : PoolCall.heartbeatCall peer (.tickHeartbeat p now profile) =
          some (.tick now profile) := if_pos hsame
      refine ⟨?_, ?_, rfl⟩
      · rw [PeerSessionHandle.follow, hcall]
        rfl
      · by_cases hnone : (h.heartbeat.tick now profile).1 = .none <;>
          simp [heartbeatsOn, heartbeatReport, hcall, PeerSessionHandle.tickHeartbeat,
            HeartbeatController.step, hnone]
    · have hcall : PoolCall.heartbeatCall peer (.tickHeartbeat p now profile) = none :=
        if_neg hother
      exact ⟨by simp [heartbeatsOn, hcall], rfl⟩
  | observeTransportAck p now =>
    refine ⟨w.onSession_admits fun _ => rfl, .inr ⟨by simp, .onSession (p := p) rfl
      (fun hother => ⟨if_neg hother, rfl⟩) (fun hsame h => ?_) fun hother h => ⟨rfl, rfl⟩⟩⟩
    have hcall : PoolCall.heartbeatCall peer (.observeTransportAck p now) =
      some (.observeTransportAck now) := if_pos hsame
    refine ⟨?_, ?_, rfl⟩
    · rw [PeerSessionHandle.follow, hcall]
      rfl
    · rw [hcall]
      rfl
  | observeProbeAck p now =>
    refine ⟨w.onSession_admits fun _ => rfl, .inr ⟨by simp, .onSession (p := p) rfl
      (fun hother => ⟨if_neg hother, rfl⟩) (fun hsame h => ?_) fun hother h => ⟨rfl, rfl⟩⟩⟩
    have hcall : PoolCall.heartbeatCall peer (.observeProbeAck p now) =
      some (.observeProbeAck now) := if_pos hsame
    refine ⟨?_, ?_, rfl⟩
    · rw [PeerSessionHandle.follow, hcall]
      rfl
    · rw [hcall]
      rfl
  | afterTransportFailure p failure now jitterSample =>
    refine ⟨w.onSession_admits fun _ => rfl, .inr ⟨by simp, .onSession (p := p) rfl
      (fun hother => ⟨rfl, if_neg hother⟩) (fun hsame h => ?_) fun hother h => ?_⟩⟩
    · have hcall : PoolCall.reconnectCall peer (.afterTransportFailure p failure now
          jitterSample) = some (.afterFailure failure now jitterSample) := if_pos hsame
      refine ⟨?_, rfl, ?_⟩
      · rw [PeerSessionHandle.follow, hcall]
        rfl
      · simp only [reconnectsOn, hcall]
        rfl
    · have hcall : PoolCall.reconnectCall peer (.afterTransportFailure p failure now
          jitterSample) = none := if_neg hother
      exact ⟨rfl, by simp [reconnectsOn, hcall]⟩
  | resetReconnect p =>
    refine ⟨w.onSession_admits fun _ => rfl, .inr ⟨by simp, .onSession (p := p) rfl
      (fun hother => ⟨rfl, if_neg hother⟩) (fun hsame h => ?_) fun hother h => ⟨rfl, rfl⟩⟩⟩
    have hcall : PoolCall.reconnectCall peer (.resetReconnect p) = some .reset := if_pos hsame
    refine ⟨?_, rfl, ?_⟩
    · rw [PeerSessionHandle.follow, hcall]
      rfl
    · rw [hcall]
      rfl

/-- One call, seen from one peer: its session is set up, it is removed, or it goes its own way. -/
theorem step_session {w : PoolWorld} (hvalid : w.pool.config.validate = .ok ()) (call : PoolCall)
    (peer : PeerId) :
    (∃ handle, w.Admission call handle ∧ handle.peerId = peer) ∨
      (w.step call).1.admits peer = false ∧
        (call = .remove peer ∧ (w.step call).2.pool.sessions[peer]? = none ∨
          call ≠ .remove peer ∧ w.Follows peer call) := by
  cases htime : call.admissionTime with
  | none => exact .inr (w.step_follows htime peer)
  | some now =>
    have hquiet : call ≠ .remove peer ∧ call.heartbeatCall peer = none ∧
        call.reconnectCall peer = none := by
      cases call with
      | admitInbound | connectOutbound => exact ⟨by simp, rfl, rfl⟩
      | _ => cases htime
    obtain ⟨hremove, hheartbeat, hreconnect⟩ := hquiet
    have hsilent {reply : Except PoolError PeerSessionHandle} :
        heartbeatsOn peer call (.session reply) = [] ∧
          reconnectsOn peer call (.session reply) = [] := ⟨rfl, rfl⟩
    rcases step_admission hvalid htime with ⟨handle, hadmission⟩ | ⟨hsessions, hreply⟩
    · by_cases hsame : handle.peerId = peer
      · exact .inl ⟨handle, hadmission, hsame⟩
      · refine .inr ⟨?_, .inr ⟨hremove, .quiet hheartbeat hreconnect ?_ ?_ ?_⟩⟩
        · rw [hadmission.reply]
          exact decide_eq_false hsame
        · rw [hadmission.sessions, OrderedMap.lookup_insert, if_neg hsame]
        · rw [hadmission.reply]
          exact hsilent.1
        · rw [hadmission.reply]
          exact hsilent.2
    · -- The offer was refused, or there was nothing to offer.
      have hkind : (w.step call).1 = .absent ∨
          ∃ e, (w.step call).1 = .session (.error e) := by
        cases call with
        | admitInbound i p remoteEndpoint now' =>
          cases hinbound : w.inbounds[i]? with
          | none => exact .inl (by simp only [step, hinbound])
          | some inbound =>
            simp only [step, hinbound] at hreply ⊢
            cases hresult : (w.pool.admitInbound inbound p remoteEndpoint now').1 with
            | ok handle => exact absurd (by rw [hresult]) (hreply handle)
            | error e => exact .inr ⟨e, rfl⟩
        | connectOutbound p remoteEndpoint dial now' =>
          simp only [step] at hreply ⊢
          cases hresult : (w.pool.connectOutbound p remoteEndpoint
            (dial.map fun address => ⟨w.made, address, false⟩) now').1 with
          | ok handle => exact absurd (by rw [hresult]) (hreply handle)
          | error e => exact .inr ⟨e, rfl⟩
        | _ => cases htime
      refine .inr ⟨?_, .inr ⟨hremove, .quiet hheartbeat hreconnect (by rw [hsessions]) ?_ ?_⟩⟩
      · rcases hkind with habsent | ⟨e, herror⟩
        · rw [habsent]
          rfl
        · rw [herror]
          rfl
      · rcases hkind with habsent | ⟨e, herror⟩
        · rw [habsent]
          rfl
        · rw [herror]
          rfl
      · rcases hkind with habsent | ⟨e, herror⟩
        · rw [habsent]
          rfl
        · rw [herror]
          rfl

end PoolWorld

/-! ### The story of a session -/

abbrev PoolRecord := Event PoolWorld PoolCall PoolReply

/-- The calls that have reached the two controllers of the peer. -/
def heartbeatCalls (peer : PeerId) (hist : List PoolRecord) : List HeartbeatCall :=
  hist.filterMap fun e => e.input.heartbeatCall peer

def reconnectCalls (peer : PeerId) (hist : List PoolRecord) : List ReconnectCall :=
  hist.filterMap fun e => e.input.reconnectCall peer

/-- A session since its admission: its controllers started as new, and what they are and what was
reported about them is what they would be and report alone, with the calls of this peer. -/
structure Isolated (config : LinkEndpointConfig) (peer : PeerId) (admission : PoolRecord)
    (after : List PoolRecord) (h₀ handle : PeerSessionHandle) : Prop where
  admitted : admission.reply = .session (.ok h₀) ∧ h₀.peerId = peer
  fresh : ∃ now, admission.input.admissionTime = some now ∧
    HeartbeatController.new config.heartbeat now = .ok h₀.heartbeat ∧
    ReconnectController.new config.reconnect false = .ok h₀.reconnect
  alone : ∀ e ∈ after, e.reply.admits peer = false ∧ e.input ≠ .remove peer
  handle_eq : handle = { h₀ with
    heartbeat := run HeartbeatController.step h₀.heartbeat (heartbeatCalls peer after)
    reconnect := run ReconnectController.step h₀.reconnect (reconnectCalls peer after) }
  heartbeats : after.flatMap (fun e => heartbeatsOn peer e.input e.reply) =
    ((trace HeartbeatController.step h₀.heartbeat (heartbeatCalls peer after)).filterMap
      Event.reply).filter fun action => action ≠ .none
  reconnects : after.flatMap (fun e => reconnectsOn peer e.input e.reply) =
    (trace ReconnectController.step h₀.reconnect (reconnectCalls peer after)).filterMap
      Event.reply

theorem heartbeatReport_eq (c : HeartbeatController) (call : Option HeartbeatCall) :
    heartbeatReport c call = ((trace HeartbeatController.step c call.toList).filterMap
      Event.reply).filter fun action => action ≠ .none := by
  cases call with
  | none => rfl
  | some call =>
    simp only [heartbeatReport, Option.bind_some, Option.toList_some, trace_cons, trace_nil,
      RunHistory.event, List.filterMap_cons, List.filterMap_nil]
    cases (c.step call).1 <;> rfl

theorem reconnectReport_eq (c : ReconnectController) (call : Option ReconnectCall) :
    reconnectReport c call =
      (trace ReconnectController.step c call.toList).filterMap Event.reply := by
  cases call with
  | none => rfl
  | some call =>
    simp only [reconnectReport, Option.bind_some, Option.toList_some, trace_cons, trace_nil,
      RunHistory.event, List.filterMap_cons, List.filterMap_nil]
    cases (c.step call).1 <;> rfl

theorem Isolated.extend {config : LinkEndpointConfig} {peer : PeerId} {admission : PoolRecord}
    {after : List PoolRecord} {h₀ handle : PeerSessionHandle}
    (h : Isolated config peer admission after h₀ handle) {w : PoolWorld} {call : PoolCall}
    (hlive : w.pool.sessions[peer]? = some handle) (hreply : (w.step call).1.admits peer = false)
    (hremove : call ≠ .remove peer) (hfollows : w.Follows peer call) :
    Isolated config peer admission (after ++ [event PoolWorld.step w call]) h₀
      (handle.follow peer call) where
  admitted := h.admitted
  fresh := h.fresh
  alone := List.forall_mem_append.mpr ⟨h.alone, by
    rw [List.forall_mem_singleton]
    exact ⟨hreply, hremove⟩⟩
  handle_eq := by
    rw [PeerSessionHandle.follow, h.handle_eq]
    unfold heartbeatCalls reconnectCalls
    rw [List.filterMap_append, List.filterMap_append, run_append, run_append]
    simp only [RunHistory.event, List.filterMap_cons, List.filterMap_nil]
    cases call.heartbeatCall peer <;> cases call.reconnectCall peer <;> rfl
  heartbeats := by
    have hreport := hfollows.heartbeats handle hlive
    have hstate : handle.heartbeat =
        run HeartbeatController.step h₀.heartbeat (heartbeatCalls peer after) := by
      rw [h.handle_eq]
    rw [hstate] at hreport
    rw [List.flatMap_append, h.heartbeats, List.flatMap_singleton]
    unfold heartbeatCalls at *
    rw [List.filterMap_append, trace_append, List.filterMap_append, List.filter_append]
    simp only [RunHistory.event, List.filterMap_cons, List.filterMap_nil] at hreport ⊢
    rw [hreport, heartbeatReport_eq]
    cases call.heartbeatCall peer <;> rfl
  reconnects := by
    have hreport := hfollows.reconnects handle hlive
    have hstate : handle.reconnect =
        run ReconnectController.step h₀.reconnect (reconnectCalls peer after) := by
      rw [h.handle_eq]
    rw [List.flatMap_append, h.reconnects, List.flatMap_singleton]
    rw [hstate] at hreport
    unfold reconnectCalls at *
    rw [List.filterMap_append, trace_append, List.filterMap_append]
    simp only [RunHistory.event, List.filterMap_cons, List.filterMap_nil] at hreport ⊢
    rw [hreport, reconnectReport_eq]
    cases call.reconnectCall peer <;> rfl

namespace PoolWorld

section Run
variable {config : LinkEndpointConfig} {pool : PeerSessionPool}

/-- At any point of a run, each session that is there was admitted at some call, has not been
admitted or removed since, and its controllers have done exactly what they would have done alone:
their states and all that the pool has reported about them come from the calls of this peer and the
ticks of the pool, whatever the other peers do. -/
theorem sessions_are_independent (h : PeerSessionPool.bind config = .ok pool)
    (calls : List PoolCall) {peer : PeerId} {handle : PeerSessionHandle}
    (hlive : (run step (start pool) calls).pool.sessions[peer]? = some handle) :
    ∃ before admission after h₀,
      trace step (start pool) calls = before ++ admission :: after ∧
      Isolated config peer admission after h₀ handle := by
  induction calls using List.reverseRecOn generalizing handle with
  | nil =>
    have hnone : (run step (start pool) []).pool.sessions[peer]? = none := by
      unfold PeerSessionPool.bind at h
      split at h
      · cases h
      split at h
      · cases h
      rw [← Except.ok.inj h]
      exact ExtTreeMap.getElem?_empty
    rw [hnone] at hlive
    cases hlive
  | append_singleton calls call ih =>
    obtain ⟨haccount, hconfig⟩ := run_account h calls
    rw [run_concat] at hlive
    rw [trace_concat]
    rcases step_session haccount.valid call peer with
      ⟨fresh, hadmission, hsame⟩ | ⟨hreply, ⟨-, hgone⟩ | ⟨hremove, hfollows⟩⟩
    · -- The story of this session begins with this call.
      rw [hadmission.sessions, OrderedMap.lookup_insert, if_pos hsame] at hlive
      obtain rfl := Option.some.inj hlive
      obtain ⟨now, htime, hheartbeat, hreconnect⟩ := hadmission.fresh
      rw [hconfig] at hheartbeat hreconnect
      exact ⟨_, _, [], fresh, rfl, ⟨hadmission.reply, hsame⟩, ⟨now, htime, hheartbeat, hreconnect⟩,
        by simp, rfl, rfl, rfl⟩
    · rw [hgone] at hlive
      cases hlive
    · rw [hfollows.lookup, Option.map_eq_some_iff] at hlive
      obtain ⟨previous, hprevious, rfl⟩ := hlive
      obtain ⟨before, admission, after, h₀, htrace, hisolated⟩ := ih hprevious
      refine ⟨before, admission, _, h₀, ?_, hisolated.extend hprevious hreply hremove hfollows⟩
      rw [htrace, List.append_assoc, List.cons_append]

/-- What the pool answers to an offer of a connection, and what is left of it. -/
structure Decided (w : PoolWorld) (call : PoolCall) (peer : PeerId) (connection : QuicHandle) :
    Prop where
  taken : w.pool.Admits peer → ∃ handle, w.Admission call handle ∧ handle.peerId = peer ∧
    handle.connection = connection ∧ (w.step call).2.pool.dropped = w.pool.dropped ++
      w.pool.sessions[peer]?.toList.map fun h => h.connection.number
  refused : ¬w.pool.Admits peer → (w.step call).1 = .session (.error (w.pool.refusal peer)) ∧
    (w.step call).2.pool.sessions = w.pool.sessions

/-- At any point of a run the pool takes an offered connection exactly where it has room for the
peer. Then the new session replaces the one before, whose connection alone is dropped; else the
sessions stay as they are, and of an inbound the connection is dropped, while an outbound is not
even dialled. -/
theorem admission_is_exact (h : PeerSessionPool.bind config = .ok pool) (calls : List PoolCall)
    (peer : PeerId) (remoteEndpoint : EndpointId) (now : UInt64) :
    (∀ i inbound, (run step (start pool) calls).inbounds[i]? = some inbound →
      ∃ connection, inbound.connection = some connection ∧
        (run step (start pool) calls).Decided (.admitInbound i peer remoteEndpoint now) peer
          connection ∧
        (¬(run step (start pool) calls).pool.Admits peer →
          ((run step (start pool) calls).step
            (.admitInbound i peer remoteEndpoint now)).2.pool.dropped =
            (run step (start pool) calls).pool.dropped ++ [connection.number])) ∧
    ∀ address, (run step (start pool) calls).Decided
        (.connectOutbound peer remoteEndpoint (.ok address) now) peer
        ⟨(run step (start pool) calls).made, address, false⟩ ∧
      (¬(run step (start pool) calls).pool.Admits peer →
        ((run step (start pool) calls).step
          (.connectOutbound peer remoteEndpoint (.ok address) now)).2 =
            run step (start pool) calls) := by
  have haccount := (run_account h calls).1
  generalize run step (start pool) calls = w at haccount
  have hspec := PeerSessionPool.insertSession_spec haccount.valid peer remoteEndpoint
  refine ⟨fun i inbound hinbound => ?_, fun address => ?_⟩
  · obtain ⟨connection, hconnection⟩ := Option.isSome_iff_exists.mp
      (haccount.unconsumed inbound (List.mem_of_getElem? hinbound))
    have hstep : w.step (.admitInbound i peer remoteEndpoint now) =
        (.session (w.pool.insertSession peer remoteEndpoint inbound.remoteAddr connection now).1,
          { w with
            inbounds := w.inbounds.eraseIdx i
            pool := (w.pool.insertSession peer remoteEndpoint inbound.remoteAddr connection
              now).2 }) := by
      simp only [step, hinbound, PeerSessionPool.admitInbound, hconnection]
    refine ⟨connection, hconnection, ⟨fun hadmits => ?_, fun hfull => ?_⟩, fun hfull => ?_⟩
    · rcases hspec inbound.remoteAddr connection now with
        ⟨hfull, -⟩ | ⟨-, handle, pool', hnew, hadmitted, hinserted⟩
      · exact absurd hadmits hfull
      rw [hadmitted] at hstep
      obtain ⟨hadmission, hpeer⟩ := admission_of_insert rfl hnew (by rw [hstep])
        (by rw [hstep]; exact hinserted.sessions)
      refine ⟨handle, hadmission, hpeer, PeerSessionHandle.new_connection hnew, ?_⟩
      rw [hstep]
      exact hinserted.transfers.dropped.trans (by rw [List.map_map]; rfl)
    · rcases hspec inbound.remoteAddr connection now with ⟨-, hrefused⟩ | ⟨hadmits, -⟩
      · rw [hstep, hrefused]
        exact ⟨rfl, rfl⟩
      · exact absurd hadmits hfull
    · rcases hspec inbound.remoteAddr connection now with ⟨-, hrefused⟩ | ⟨hadmits, -⟩
      · rw [hstep, hrefused]
        rfl
      · exact absurd hadmits hfull
  · by_cases hadmits : w.pool.Admits peer
    · rcases hspec address ⟨w.made, address, false⟩ now with
        ⟨hfull, -⟩ | ⟨-, handle, pool', hnew, hadmitted, hinserted⟩
      · exact absurd hadmits hfull
      have hstep : w.step (.connectOutbound peer remoteEndpoint (.ok address) now) =
          (.session (.ok handle), { w with pool := pool', made := w.made+1 }) := by
        simp only [step, PeerSessionPool.connectOutbound, PeerSessionPool.ensureCapacityFor_eq,
          if_pos hadmits, Except.map, hadmitted]
        rfl
      refine ⟨⟨fun _ => ?_, fun hfull => absurd hadmits hfull⟩, fun hfull => absurd hadmits hfull⟩
      obtain ⟨hadmission, hpeer⟩ := admission_of_insert rfl hnew (by rw [hstep])
        (by rw [hstep]; exact hinserted.sessions)
      refine ⟨handle, hadmission, hpeer, PeerSessionHandle.new_connection hnew, ?_⟩
      rw [hstep]
      exact hinserted.transfers.dropped.trans (by rw [List.map_map]; rfl)
    · have hstep : w.step (.connectOutbound peer remoteEndpoint (.ok address) now) =
          (.session (.error (w.pool.refusal peer)), w) := by
        simp [step, PeerSessionPool.connectOutbound, PeerSessionPool.ensureCapacityFor_eq,
          hadmits, Except.isOk, Except.toBool]
      refine ⟨⟨fun h => absurd h hadmits, fun _ => ?_⟩, fun _ => ?_⟩
      · rw [hstep]
        exact ⟨rfl, rfl⟩
      · rw [hstep]

end Run

/-! ### Connection ids -/

/-- The id that a reply hands out. -/
def acceptedId : PoolReply → Option ConnectionId
  | .accepted (.ok id) => some id
  | _ => none

/-- The sequence number that an id starts with. -/
def seqOf (id : ConnectionId) : ℕ := WireBytes.ofBeBytes (id.bytes.take 8)

theorem seqOf_nextConnectionId (seq now : UInt64) :
    seqOf (nextConnectionId seq now) = seq.toNat := by
  show WireBytes.ofBeBytes ((WireBytes.beBytes 8 seq.toNat ++ _).take 8) = _
  rw [List.take_left' (WireBytes.length_beBytes 8 _)]
  exact WireBytes.ofBeBytes_beBytes 8 _ seq.toNat_lt

/-- An id is handed out with the present number, and then the number goes up. -/
theorem step_sequence {w : PoolWorld} (hvalid : w.pool.config.validate = .ok ())
    (call : PoolCall) :
    (acceptedId (w.step call).1 = none ∧ (w.step call).2.pool.inboundSeq = w.pool.inboundSeq) ∨
      ∃ id, acceptedId (w.step call).1 = some id ∧ seqOf id = w.pool.inboundSeq.toNat ∧
        (w.step call).2.pool.inboundSeq = w.pool.inboundSeq+1 := by
  have hinsert (peer : PeerId) (remoteEndpoint : EndpointId) (remoteAddr : SocketAddr)
      (connection : QuicHandle) (now : UInt64) : (w.pool.insertSession peer remoteEndpoint
        remoteAddr connection now).2.inboundSeq = w.pool.inboundSeq := by
    rcases PeerSessionPool.insertSession_spec hvalid peer remoteEndpoint remoteAddr connection now
      with ⟨-, hrefused⟩ | ⟨-, handle, pool', -, hadmitted, hinserted⟩
    · rw [hrefused]
      rfl
    · rw [hadmitted]
      exact hinserted.inboundSeq
  have hsession (peer : PeerId) (f : PeerSessionHandle → PoolReply × PeerSessionHandle)
      (hf : ∀ h, acceptedId (f h).1 = none) : acceptedId (w.onSession peer f).1 = none ∧
        (w.onSession peer f).2.pool.inboundSeq = w.pool.inboundSeq := by
    unfold onSession
    split
    · exact ⟨rfl, rfl⟩
    · exact ⟨hf _, rfl⟩
  cases call with
  | beginAccept provisional =>
    refine .inl ?_
    simp only [step, PeerSessionPool.beginAccept]
    cases tryAcquire w.pool.active w.pool.config.quic.budget.maxConnections <;> exact ⟨rfl, rfl⟩
  | finishAccept i result now =>
    cases haccept : w.accepting[i]? with
    | none =>
      refine .inl ?_
      simp only [step, haccept]
      exact ⟨rfl, trivial⟩
    | some provisional =>
      cases result with
      | error e =>
        refine .inl ?_
        simp only [step, haccept]
        exact ⟨rfl, rfl⟩
      | ok address =>
        refine .inr ⟨nextConnectionId w.pool.inboundSeq now, ?_, seqOf_nextConnectionId _ _, ?_⟩
        · simp only [step, haccept]
          rfl
        · simp only [step, haccept]
          rfl
  | cancelAccept i =>
    refine .inl ?_
    cases haccept : w.accepting[i]? <;> simp [step, haccept, acceptedId,
      PeerSessionPool.releasePermit]
  | dropInbound i =>
    refine .inl ?_
    cases hinbound : w.inbounds[i]? with
    | none => simp [step, hinbound, acceptedId]
    | some inbound =>
      have hsame : (w.pool.dropInbound inbound).inboundSeq = w.pool.inboundSeq := by
        unfold PeerSessionPool.dropInbound
        split <;> rfl
      simp [step, hinbound, acceptedId, hsame]
  | admitInbound i peer remoteEndpoint now =>
    refine .inl ?_
    cases hinbound : w.inbounds[i]? with
    | none => simp [step, hinbound, acceptedId]
    | some inbound =>
      have hsame : (w.pool.admitInbound inbound peer remoteEndpoint now).2.inboundSeq =
          w.pool.inboundSeq := by
        unfold PeerSessionPool.admitInbound
        split
        · rfl
        · exact hinsert ..
      simp [step, hinbound, acceptedId, hsame]
  | connectOutbound peer remoteEndpoint dial now =>
    refine .inl ⟨rfl, ?_⟩
    simp only [step, PeerSessionPool.connectOutbound]
    split
    · rfl
    · split
      · rfl
      · exact hinsert ..
  | remove peer =>
    refine .inl ⟨rfl, ?_⟩
    simp only [step, PeerSessionPool.remove]
    split <;> rfl
  | maintenanceTick now profile => exact .inl ⟨rfl, rfl⟩
  | noteTransportFailure peer failure now jitterSample =>
    refine .inl ⟨rfl, ?_⟩
    simp only [step, PeerSessionPool.noteTransportFailure]
    split <;> rfl
  | disconnect peer =>
    refine .inl ?_
    cases hhandle : w.pool.sessions[peer]? <;> simp [step, hhandle, acceptedId,
      PeerSessionPool.abort]
  | tickHeartbeat peer | observeTransportAck peer | observeProbeAck peer
  | afterTransportFailure peer | resetReconnect peer => exact .inl (hsession peer _ fun _ => rfl)

/-- The ids of the accepted connections of a run. -/
def acceptedIds (hist : List PoolRecord) : List ConnectionId :=
  hist.filterMap fun e => acceptedId e.reply

section Run
variable {config : LinkEndpointConfig} {pool : PeerSessionPool}

theorem run_sequence (h : PeerSessionPool.bind config = .ok pool) (calls : List PoolCall) :
    (acceptedIds (trace step (start pool) calls)).map seqOf =
      (List.range (acceptedIds (trace step (start pool) calls)).length).map
        (fun k => (k+1)%2^64) ∧
    (run step (start pool) calls).pool.inboundSeq.toNat =
      ((acceptedIds (trace step (start pool) calls)).length+1)%2^64 := by
  induction calls using List.reverseRecOn with
  | nil =>
    obtain ⟨-, -, hseq⟩ := account_start h
    refine ⟨rfl, ?_⟩
    show pool.inboundSeq.toNat = _
    rw [hseq]
    rfl
  | append_singleton calls call ih =>
    obtain ⟨hids, hseq⟩ := ih
    have hvalid := (run_account h calls).1.valid
    have hsplit : acceptedIds (trace step (start pool) (calls ++ [call])) =
        acceptedIds (trace step (start pool) calls) ++
          (acceptedId ((run step (start pool) calls).step call).1).toList := by
      rw [acceptedIds, trace_concat, List.filterMap_append, List.filterMap_cons]
      cases hid : acceptedId ((run step (start pool) calls).step call).1 <;>
        simp [acceptedIds, RunHistory.event, hid]
    rw [hsplit, run_concat]
    rcases step_sequence hvalid call with ⟨hnone, hsame⟩ | ⟨id, hid, hnumber, hnext⟩
    · rw [hnone, hsame, Option.toList_none, List.append_nil]
      exact ⟨hids, hseq⟩
    · rw [hid, hnext, Option.toList_some, List.length_append, List.length_singleton]
      refine ⟨?_, ?_⟩
      · rw [List.map_append, hids, List.range_succ, List.map_append, List.map_singleton,
          List.map_singleton, hnumber, hseq]
      · rw [UInt64.toNat_add, hseq]
        show (_%2^64+1)%2^64 = _
        omega

/-- Two connections that the pool accepts never get the same id, whatever its clock shows, before
the sequence number has gone once around. -/
theorem accepted_ids_differ (h : PeerSessionPool.bind config = .ok pool) (calls : List PoolCall)
    (hfew : (acceptedIds (trace step (start pool) calls)).length ≤ 2^64) :
    (acceptedIds (trace step (start pool) calls)).Nodup := by
  refine List.Nodup.of_map seqOf ?_
  rw [(run_sequence h calls).1]
  refine (List.nodup_range).map_on fun a ha b hb hab => ?_
  rw [List.mem_range] at ha hb
  omega

end Run

open Sample

def widePool : PeerSessionPool := ⟨{ maxPeers := 2 }, ∅, 1, 0, [], []⟩

theorem widePool_bind : PeerSessionPool.bind { maxPeers := 2 } = .ok widePool := by rfl

/-- Two peers, one of which loses its connection. -/
def sharedCalls : List PoolCall :=
  [.beginAccept firstEndpoint, .finishAccept 0 (.ok ⟨[127, 0, 0, 1], 9000⟩) 5,
    .admitInbound 0 firstPeer firstEndpoint 6,
    .connectOutbound secondPeer firstEndpoint (.ok ⟨[127, 0, 0, 1], 9001⟩) 7,
    .noteTransportFailure firstPeer .networkChanged 8 0, .observeTransportAck secondPeer 9,
    .maintenanceTick 100000 .idle, .noteTransportFailure firstPeer .networkChanged 100001 0]

theorem sample_is_independent :
    (∃ handle before admission after h₀,
      trace step (start widePool) sharedCalls = before ++ admission :: after ∧
        Isolated { maxPeers := 2 } firstPeer admission after h₀ handle) ∧
    ∃ handle before admission after h₀,
      trace step (start widePool) sharedCalls = before ++ admission :: after ∧
        Isolated { maxPeers := 2 } secondPeer admission after h₀ handle := by
  have hfirst : ((run step (start widePool) sharedCalls).pool.sessions[firstPeer]?).isSome := by
    decide +kernel
  have hsecond : ((run step (start widePool) sharedCalls).pool.sessions[secondPeer]?).isSome := by
    decide +kernel
  obtain ⟨first, hfirst⟩ := Option.isSome_iff_exists.mp hfirst
  obtain ⟨second, hsecond⟩ := Option.isSome_iff_exists.mp hsecond
  exact ⟨⟨first, sessions_are_independent widePool_bind sharedCalls hfirst⟩,
    ⟨second, sessions_are_independent widePool_bind sharedCalls hsecond⟩⟩

/-- The only place is taken, and a second connection waits for its peer to be known. -/
def fullCalls : List PoolCall :=
  poolCalls.take 3 ++ [.beginAccept firstEndpoint, .finishAccept 0 (.ok ⟨[127, 0, 0, 1], 9001⟩) 8]

/-- The peer that is there may come back and its old connection is dropped; another one is refused,
its connection dropped as an inbound and not even dialled as an outbound. -/
theorem sample_admission :
    let w := run step (start peerPool) fullCalls
    (∃ handle, w.Admission (.admitInbound 0 firstPeer firstEndpoint 9) handle ∧
      handle.connection.number = 1 ∧
      (w.step (.admitInbound 0 firstPeer firstEndpoint 9)).2.pool.dropped = [0]) ∧
    (w.step (.admitInbound 0 secondPeer firstEndpoint 9)).1 = .session (.error .peerLimit) ∧
    (w.step (.admitInbound 0 secondPeer firstEndpoint 9)).2.pool.sessions = w.pool.sessions ∧
    (w.step (.admitInbound 0 secondPeer firstEndpoint 9)).2.pool.dropped = [1] ∧
    (w.step (.connectOutbound secondPeer firstEndpoint (.ok ⟨[127, 0, 0, 1], 9002⟩) 9)).2 = w := by
  intro w
  have hwaits : (w.inbounds[0]?.bind fun i => i.connection.map QuicHandle.number) = some 1 := by
    decide +kernel
  obtain ⟨inbound, hinbound, hnumber⟩ := Option.bind_eq_some_iff.mp hwaits
  have hdropped : w.pool.dropped = [] ∧
      (w.pool.sessions[firstPeer]?.toList.map fun h => h.connection.number) = [0] := by
    decide +kernel
  have hroom : w.pool.Admits firstPeer := by decide +kernel
  have hfull : ¬w.pool.Admits secondPeer := by decide +kernel
  have hrefusal : w.pool.refusal secondPeer = .peerLimit := by rfl
  refine ⟨?_, ?_⟩
  · obtain ⟨connection, hconnection, hdecided, -⟩ :=
      (admission_is_exact peerPool_bind fullCalls firstPeer firstEndpoint 9).1 0 inbound hinbound
    obtain ⟨handle, hadmission, -, heq, hold⟩ := hdecided.taken hroom
    rw [hconnection, Option.map_some] at hnumber
    refine ⟨handle, hadmission, ?_, ?_⟩
    · rw [heq]
      exact Option.some.inj hnumber
    · rw [hold, hdropped.1, hdropped.2, List.nil_append]
  · obtain ⟨hinbounds, houtbounds⟩ :=
      admission_is_exact peerPool_bind fullCalls secondPeer firstEndpoint 9
    obtain ⟨connection, hconnection, hdecided, hdrop⟩ := hinbounds 0 inbound hinbound
    obtain ⟨hreply, hsessions⟩ := hdecided.refused hfull
    rw [hconnection, Option.map_some] at hnumber
    refine ⟨?_, hsessions, ?_, (houtbounds _).2 hfull⟩
    · rw [hreply, hrefusal]
    · rw [hdrop hfull, hdropped.1, List.nil_append, Option.some.inj hnumber]

theorem sample_ids_differ : (acceptedIds (trace step (start peerPool) poolCalls)).Nodup :=
  accepted_ids_differ peerPool_bind poolCalls (by decide +kernel)

end PoolWorld

end MutsukiLink
