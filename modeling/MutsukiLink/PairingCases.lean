import MutsukiLink.PairingModel
import MutsukiLink.RunHistory

/-! What one call of a pairing session can do, apart from its buffer of events: each call is one of
a few moves, and emits what it would put into an empty buffer. -/
namespace MutsukiLink
open WireBytes

namespace PairingSession

/-- The session with an empty buffer that has room for what one call emits. -/
def unbuffered (s : PairingSession) : PairingSession :=
  { s with events := [], eventCapacity := 2, droppedEvents := 0 }

/-- The events of one call, in order. -/
def emissions (sha256 : Bytes → FixedBytes 32) (s : PairingSession) (call : PairingCall) :
    List PairingEvent :=
  (s.unbuffered.step sha256 call).2.events

/-- A call of `confirm` that gets as far as its signature. -/
structure Confirms (s : PairingSession) (code : String) (crypto : PairingCrypto) (now : UInt64)
    (hash : FixedBytes 32) (signature : Bytes) : Prop where
  time : now < s.expiresAtUnixMs
  awaiting : s.state = .awaitingUserConfirmation
  code_eq : s.shortCode = some code
  hash_eq : s.transcriptHash = some hash
  signed : crypto.signTranscript hash = .ok signature

/-- A confirmation of the peer that is accepted. -/
structure Attested (s : PairingSession) (confirmation : PairingConfirmation)
    (crypto : PairingCrypto) (now : UInt64) (remote : LongTermIdentity) (hash : FixedBytes 32) :
    Prop where
  time : now < s.expiresAtUnixMs
  awaiting : s.state = .awaitingUserConfirmation ∨ s.state = .awaitingPeerConfirmation
  remote_eq : s.remote = some remote
  hash_eq : s.transcriptHash = some hash
  pairing : confirmation.pairingId = s.pairingId
  signer : confirmation.signerPeerId = remote.peerId
  transcript : confirmation.transcriptHash = hash
  verified : crypto.verifyTranscript remote.publicKey hash confirmation.signature = true

/-- A response that is accepted. -/
structure Answered (sha256 : Bytes → FixedBytes 32) (s : PairingSession)
    (response : PairingResponse) (now : UInt64) : Prop where
  time : now < s.expiresAtUnixMs
  role : s.role = .initiator
  awaiting : s.state = .awaitingResponse
  hash_eq : response.transcriptHash = MutsukiLink.transcriptHash sha256 s.localIdentity
    response.responder s.protocolVersion s.challenge s.method
  code_eq : response.shortCode = MutsukiLink.shortCode response.transcriptHash

/-- The events of entering `Paired`. -/
def completion (s : PairingSession) : List PairingEvent :=
  .stateChanged .paired :: (s.remote.map fun remote => .completed remote.peerId).toList

/-- The moves of a session: the call, the events and the session before they are buffered. -/
inductive Move (sha256 : Bytes → FixedBytes 32) (s : PairingSession) :
    PairingCall → List PairingEvent → PairingSession → Prop
  | stay {call : PairingCall} : Move sha256 s call [] s
  | drain : Move sha256 s .drainEvents [] { s with events := [], droppedEvents := 0 }
  | expire {call : PairingCall} (active : isTerminal s.state = false) :
      Move sha256 s call [.stateChanged .timedOut] { s with state := .timedOut }
  | terminate {call : PairingCall} {state : PairingState} (active : isTerminal s.state = false)
      (terminal : state = .rejected ∨ state = .cancelled) :
      Move sha256 s call [.stateChanged state] { s with state }
  | fail {call : PairingCall} (active : isTerminal s.state = false) :
      Move sha256 s call [.stateChanged .failed] { s with state := .failed }
  | refuse {response : PairingResponse} {now : UInt64} (time : now < s.expiresAtUnixMs) :
      Move sha256 s (.receiveResponse response now) [.stateChanged .failed]
        { s with state := .failed }
  | answer {response : PairingResponse} {now : UInt64} (answered : s.Answered sha256 response now) :
      Move sha256 s (.receiveResponse response now)
        [.stateChanged .awaitingUserConfirmation,
          .present (MutsukiLink.presentation sha256 response.responder response.shortCode)]
        { s with
          state := .awaitingUserConfirmation, remote := some response.responder
          transcriptHash := some response.transcriptHash, shortCode := some response.shortCode }
  | confirm {code : String} {crypto : PairingCrypto} {now : UInt64} {hash : FixedBytes 32}
      {signature : Bytes} (confirms : s.Confirms code crypto now hash signature)
      (waiting : s.remoteConfirmed = false) :
      Move sha256 s (.confirm code crypto now) [.stateChanged .awaitingPeerConfirmation]
        { s with state := .awaitingPeerConfirmation, localConfirmed := true }
  | confirmLast {code : String} {crypto : PairingCrypto} {now : UInt64} {hash : FixedBytes 32}
      {signature : Bytes} (confirms : s.Confirms code crypto now hash signature)
      (ready : s.remoteConfirmed = true) :
      Move sha256 s (.confirm code crypto now) s.completion
        { s with state := .paired, localConfirmed := true }
  | attest {confirmation : PairingConfirmation} {crypto : PairingCrypto} {now : UInt64}
      {remote : LongTermIdentity} {hash : FixedBytes 32}
      (attested : s.Attested confirmation crypto now remote hash)
      (waiting : s.localConfirmed = false) :
      Move sha256 s (.receiveConfirmation confirmation crypto now) []
        { s with remoteConfirmed := true }
  | attestLast {confirmation : PairingConfirmation} {crypto : PairingCrypto} {now : UInt64}
      {remote : LongTermIdentity} {hash : FixedBytes 32}
      (attested : s.Attested confirmation crypto now remote hash)
      (ready : s.localConfirmed = true) :
      Move sha256 s (.receiveConfirmation confirmation crypto now) s.completion
        { s with state := .paired, remoteConfirmed := true }

@[simp] theorem emit_remote (s : PairingSession) (event : PairingEvent) :
    (s.emit event).remote = s.remote := by
  unfold emit
  split <;> rfl

@[simp] theorem emit_shortCode (s : PairingSession) (event : PairingEvent) :
    (s.emit event).shortCode = s.shortCode := by
  unfold emit
  split <;> rfl

theorem complete_eq (s : PairingSession) :
    s.complete = s.completion.foldl emit { s with state := .paired } := by
  simp only [complete, setState, emit_remote, completion]
  cases s.remote <;> rfl

theorem completion_length (s : PairingSession) : s.completion.length ≤ 2 := by
  unfold completion
  cases s.remote <;> simp

/-- An empty buffer with room keeps what it is given. -/
theorem foldl_emit_events {events : List PairingEvent} (hlen : events.length ≤ 2)
    (s : PairingSession) : (events.foldl emit s.unbuffered).events = events := by
  match events, hlen with
  | [], _ => rfl
  | [_], _ => rfl
  | [_, _], _ => rfl

/-- A call made after the deadline. -/
theorem checkTime_late {s : PairingSession} {now : UInt64} (h : s.expiresAtUnixMs ≤ now) :
    s.checkTime now = (.error ⟨.timedOut, "pairing session timed out"⟩,
      if isTerminal s.state then s else s.setState .timedOut) := if_pos h

theorem checkTime_early {s : PairingSession} {now : UInt64} (h : ¬s.expiresAtUnixMs ≤ now) :
    s.checkTime now = (.ok (), s) := if_neg h

/-- The session makes a move and buffers the events of the move. -/
def Moves (sha256 : Bytes → FixedBytes 32) (s : PairingSession) (call : PairingCall) : Prop :=
  ∃ t, Move sha256 s call (s.emissions sha256 call) t ∧
    (s.step sha256 call).2 = (s.emissions sha256 call).foldl emit t

theorem moves_of {sha256 : Bytes → FixedBytes 32} {s t : PairingSession} {call : PairingCall}
    {events : List PairingEvent} (hmove : Move sha256 s call events t) (hlen : events.length ≤ 2)
    (hs : (s.step sha256 call).2 = events.foldl emit t)
    (hu : (s.unbuffered.step sha256 call).2 = events.foldl emit t.unbuffered) :
    Moves sha256 s call := by
  have hemissions : s.emissions sha256 call = events := by
    rw [emissions, hu, foldl_emit_events hlen]
  rw [Moves, hemissions]
  exact ⟨t, hmove, hs⟩

/-- After the deadline a call only expires the session, whatever else it would do. -/
theorem moves_late {sha256 : Bytes → FixedBytes 32} {s : PairingSession} {call : PairingCall}
    {now : UInt64} (hlate : s.expiresAtUnixMs ≤ now)
    (hcall : ∀ t : PairingSession, t.expiresAtUnixMs ≤ now →
      (t.step sha256 call).2 = if isTerminal t.state then t else t.setState .timedOut) :
    Moves sha256 s call := by
  rw [Moves, emissions, hcall s hlate, hcall s.unbuffered hlate]
  by_cases hactive : isTerminal s.state = true
  · simp only [unbuffered, hactive, if_true]
    exact ⟨s, .stay, rfl⟩
  · simp only [unbuffered, hactive]
    exact ⟨_, .expire (Bool.eq_false_iff.mpr hactive), rfl⟩

theorem moves_tick (sha256 : Bytes → FixedBytes 32) (s : PairingSession) (now : UInt64) :
    Moves sha256 s (.tick now) := by
  by_cases hlate : s.expiresAtUnixMs ≤ now
  · refine moves_late hlate fun t ht => ?_
    simp only [step, tick, checkTime_late ht, Prod.map_snd, id]
  · simp only [Moves, emissions, step, tick, checkTime, unbuffered, hlate, if_false]
    exact ⟨s, .stay, rfl⟩

theorem Confirms.step_eq {sha256 : Bytes → FixedBytes 32} {s : PairingSession} {code : String}
    {crypto : PairingCrypto} {now : UInt64} {hash : FixedBytes 32} {signature : Bytes}
    (h : s.Confirms code crypto now hash signature) :
    (s.step sha256 (.confirm code crypto now)).2 =
      if s.remoteConfirmed then
        s.completion.foldl emit { s with state := .paired, localConfirmed := true }
      else { s with localConfirmed := true }.setState .awaitingPeerConfirmation := by
  simp only [step, confirm, checkTime_early (UInt64.not_le.mpr h.time), h.awaiting, h.code_eq,
    h.hash_eq, h.signed, ne_eq, not_true_eq_false, if_false, Prod.map_snd, id, complete_eq]
  rfl

theorem moves_confirm (sha256 : Bytes → FixedBytes 32) (s : PairingSession) (code : String)
    (crypto : PairingCrypto) (now : UInt64) : Moves sha256 s (.confirm code crypto now) := by
  by_cases hlate : s.expiresAtUnixMs ≤ now
  · refine moves_late hlate fun t ht => ?_
    simp only [step, confirm, checkTime_late ht, Prod.map_snd, id]
  by_cases hstate : s.state = .awaitingUserConfirmation
  · have hopen : isTerminal s.state = false := by rw [hstate]; rfl
    by_cases hcode : s.shortCode = some code
    · cases hhash : s.transcriptHash with
      | none =>
        simp only [Moves, emissions, step, confirm, checkTime, unbuffered, hlate, if_false, hstate,
          hcode, hhash, ne_eq, not_true_eq_false]
        exact ⟨s, .stay, rfl⟩
      | some hash =>
        cases hsign : crypto.signTranscript hash with
        | error e =>
          simp only [Moves, emissions, step, confirm, checkTime, unbuffered, hlate, if_false,
            hstate, hcode, hhash, hsign, ne_eq, not_true_eq_false]
          exact ⟨s, .stay, rfl⟩
        | ok signature =>
          have hconfirms : s.Confirms code crypto now hash signature :=
            ⟨UInt64.not_le.mp hlate, hstate, hcode, hhash, hsign⟩
          have hunbuffered : s.unbuffered.Confirms code crypto now hash signature :=
            ⟨UInt64.not_le.mp hlate, hstate, hcode, hhash, hsign⟩
          by_cases hready : s.remoteConfirmed = true
          · exact moves_of (.confirmLast hconfirms hready) s.completion_length
              (hconfirms.step_eq.trans (if_pos hready)) (hunbuffered.step_eq.trans (if_pos hready))
          · exact moves_of (.confirm hconfirms (Bool.eq_false_iff.mpr hready)) (by decide)
              (hconfirms.step_eq.trans (if_neg hready)) (hunbuffered.step_eq.trans (if_neg hready))
    · simp only [Moves, emissions, step, confirm, checkTime, unbuffered, hlate, if_false, hstate,
        hcode, ne_eq, not_true_eq_false, not_false_eq_true, if_true]
      exact ⟨_, .fail hopen, rfl⟩
  · simp only [Moves, emissions, step, confirm, checkTime, unbuffered, hlate, if_false, hstate,
      ne_eq, not_false_eq_true, if_true]
    exact ⟨s, .stay, rfl⟩

theorem Attested.step_eq {sha256 : Bytes → FixedBytes 32} {s : PairingSession}
    {confirmation : PairingConfirmation} {crypto : PairingCrypto} {now : UInt64}
    {remote : LongTermIdentity} {hash : FixedBytes 32}
    (h : s.Attested confirmation crypto now remote hash) :
    (s.step sha256 (.receiveConfirmation confirmation crypto now)).2 =
      if s.localConfirmed then
        s.completion.foldl emit { s with state := .paired, remoteConfirmed := true }
      else { s with remoteConfirmed := true } := by
  have hawaiting :
      ¬(s.state ≠ .awaitingUserConfirmation ∧ s.state ≠ .awaitingPeerConfirmation) := by
    rcases h.awaiting with heq | heq <;> simp [heq]
  simp only [step, receiveConfirmation, checkTime_early (UInt64.not_le.mpr h.time),
    if_neg hawaiting, h.remote_eq, h.hash_eq, h.pairing, h.signer, h.transcript, h.verified, ne_eq,
    not_true_eq_false, or_self, if_false, Bool.not_true, Bool.false_eq_true, Prod.map_snd, id,
    complete_eq, completion]

theorem moves_receiveConfirmation (sha256 : Bytes → FixedBytes 32) (s : PairingSession)
    (confirmation : PairingConfirmation) (crypto : PairingCrypto) (now : UInt64) :
    Moves sha256 s (.receiveConfirmation confirmation crypto now) := by
  by_cases hlate : s.expiresAtUnixMs ≤ now
  · refine moves_late hlate fun t ht => ?_
    simp only [step, receiveConfirmation, checkTime_late ht, Prod.map_snd, id]
  by_cases hstate : s.state ≠ .awaitingUserConfirmation ∧ s.state ≠ .awaitingPeerConfirmation
  · simp only [Moves, emissions, step, receiveConfirmation, checkTime, unbuffered, hlate, if_false,
      hstate.1, hstate.2, ne_eq, not_false_eq_true, and_self, if_true]
    exact ⟨s, .stay, rfl⟩
  have hawaiting : s.state = .awaitingUserConfirmation ∨ s.state = .awaitingPeerConfirmation := by
    simpa only [ne_eq, not_and_or, not_not] using hstate
  have hopen : isTerminal s.state = false := by
    rcases hawaiting with heq | heq <;> rw [heq] <;> rfl
  cases hremote : s.remote with
  | none =>
    simp only [Moves, emissions, step, receiveConfirmation, checkTime, unbuffered, hlate, if_false,
      hstate, hremote]
    exact ⟨s, .stay, rfl⟩
  | some remote =>
  cases hhash : s.transcriptHash with
  | none =>
    simp only [Moves, emissions, step, receiveConfirmation, checkTime, unbuffered, hlate, if_false,
      hstate, hremote, hhash]
    exact ⟨s, .stay, rfl⟩
  | some hash =>
  -- A confirmation that does not fit, or that the peer has not signed, ends the session.
  by_cases hmismatch : confirmation.pairingId ≠ s.pairingId ∨
      confirmation.signerPeerId ≠ remote.peerId ∨ confirmation.transcriptHash ≠ hash
  · simp only [Moves, emissions, step, receiveConfirmation, checkTime, unbuffered, hlate, if_false,
      hstate, hremote, hhash, hmismatch, if_true]
    exact ⟨_, .fail hopen, rfl⟩
  by_cases hverified : crypto.verifyTranscript remote.publicKey hash confirmation.signature = true
  · simp only [ne_eq, not_or, not_not] at hmismatch
    have hattested : s.Attested confirmation crypto now remote hash :=
      ⟨UInt64.not_le.mp hlate, hawaiting, hremote, hhash, hmismatch.1, hmismatch.2.1,
        hmismatch.2.2, hverified⟩
    have hunbuffered : s.unbuffered.Attested confirmation crypto now remote hash :=
      ⟨UInt64.not_le.mp hlate, hawaiting, hremote, hhash, hmismatch.1, hmismatch.2.1,
        hmismatch.2.2, hverified⟩
    -- The later of the two confirmations completes the session.
    by_cases hready : s.localConfirmed = true
    · exact moves_of (.attestLast hattested hready) s.completion_length
        (hattested.step_eq.trans (if_pos hready)) (hunbuffered.step_eq.trans (if_pos hready))
    · exact moves_of (.attest hattested (Bool.eq_false_iff.mpr hready)) (by decide)
        (hattested.step_eq.trans (if_neg hready)) (hunbuffered.step_eq.trans (if_neg hready))
  · simp only [Moves, emissions, step, receiveConfirmation, checkTime, unbuffered, hlate, if_false,
      hstate, hremote, hhash, hmismatch, hverified]
    exact ⟨_, .fail hopen, rfl⟩

theorem Answered.step_eq {sha256 : Bytes → FixedBytes 32} {s : PairingSession}
    {response : PairingResponse} {now : UInt64} (h : s.Answered sha256 response now)
    (hid : response.pairingId = s.pairingId)
    (hvalid : validateIdentity response.responder = .ok ()) :
    (s.step sha256 (.receiveResponse response now)).2 =
      [.stateChanged .awaitingUserConfirmation,
        .present (MutsukiLink.presentation sha256 response.responder response.shortCode)].foldl emit
        { s with
          state := .awaitingUserConfirmation, remote := some response.responder
          transcriptHash := some response.transcriptHash
          shortCode := some response.shortCode } := by
  have hcode := h.code_eq
  rw [h.hash_eq] at hcode
  simp only [step, receiveResponse, checkTime_early (UInt64.not_le.mpr h.time), h.role, h.awaiting,
    hid, hvalid, h.hash_eq, hcode, ne_eq, not_true_eq_false, or_self, if_false, Prod.map_snd, id,
    setState, presentation, emit_remote, emit_shortCode]
  rfl

theorem moves_receiveResponse (sha256 : Bytes → FixedBytes 32) (s : PairingSession)
    (response : PairingResponse) (now : UInt64) :
    Moves sha256 s (.receiveResponse response now) := by
  by_cases hlate : s.expiresAtUnixMs ≤ now
  · refine moves_late hlate fun t ht => ?_
    simp only [step, receiveResponse, checkTime_late ht, Prod.map_snd, id]
  have htime : now < s.expiresAtUnixMs := UInt64.not_le.mp hlate
  by_cases hexpected : s.role ≠ .initiator ∨ s.state ≠ .awaitingResponse ∨
      response.pairingId ≠ s.pairingId
  · simp only [Moves, emissions, step, receiveResponse, checkTime, unbuffered, hlate, if_false,
      hexpected, if_true]
    exact ⟨_, .refuse htime, rfl⟩
  cases hvalid : validateIdentity response.responder with
  | error e =>
    simp only [Moves, emissions, step, receiveResponse, checkTime, unbuffered, hlate, if_false,
      hexpected, hvalid]
    exact ⟨s, .stay, rfl⟩
  | ok _ =>
  by_cases hmismatch : response.transcriptHash ≠ MutsukiLink.transcriptHash sha256 s.localIdentity
      response.responder s.protocolVersion s.challenge s.method ∨ response.shortCode ≠
      MutsukiLink.shortCode (MutsukiLink.transcriptHash sha256 s.localIdentity response.responder
        s.protocolVersion s.challenge s.method)
  · simp only [Moves, emissions, step, receiveResponse, checkTime, unbuffered, hlate, if_false,
      hexpected, hvalid, hmismatch, if_true]
    exact ⟨_, .refuse htime, rfl⟩
  · simp only [ne_eq, not_or, not_not] at hexpected hmismatch
    obtain ⟨hhash, hcode⟩ := hmismatch
    rw [← hhash] at hcode
    have hanswered : s.Answered sha256 response now :=
      ⟨htime, hexpected.1, hexpected.2.1, hhash, hcode⟩
    have hunbuffered : s.unbuffered.Answered sha256 response now :=
      ⟨htime, hexpected.1, hexpected.2.1, hhash, hcode⟩
    exact moves_of (.answer hanswered) (Nat.le_refl 2) (hanswered.step_eq hexpected.2.2 hvalid)
      (hunbuffered.step_eq hexpected.2.2 hvalid)

theorem moves_terminate {sha256 : Bytes → FixedBytes 32} {s : PairingSession} {call : PairingCall}
    {state : PairingState} (hstate : state = .rejected ∨ state = .cancelled)
    {reason : PairingTerminationReason}
    (hcall : ∀ t : PairingSession,
      t.step sha256 call = (t.terminate state reason).map .terminated id) :
    Moves sha256 s call := by
  rw [Moves, emissions, hcall, hcall]
  by_cases hactive : isTerminal s.state = true
  · simp only [terminate, ensureNonterminal, unbuffered, hactive, if_true]
    exact ⟨s, .stay, rfl⟩
  · simp only [terminate, ensureNonterminal, unbuffered, hactive]
    exact ⟨_, .terminate (Bool.eq_false_iff.mpr hactive) hstate, rfl⟩

theorem moves_receiveTermination (sha256 : Bytes → FixedBytes 32) (s : PairingSession)
    (termination : PairingTermination) : Moves sha256 s (.receiveTermination termination) := by
  by_cases hactive : isTerminal s.state = true
  · simp only [Moves, emissions, step, receiveTermination, ensureNonterminal, unbuffered, hactive,
      if_true]
    exact ⟨s, .stay, rfl⟩
  have hopen : isTerminal s.state = false := Bool.eq_false_iff.mpr hactive
  by_cases hid : termination.pairingId = s.pairingId
  · simp only [Moves, emissions, step, receiveTermination, ensureNonterminal, unbuffered, hopen,
      Bool.false_eq_true, if_false, hid, ne_eq, not_true_eq_false]
    cases termination.reason with
    | rejected => exact ⟨_, .terminate hopen (.inl rfl), rfl⟩
    | cancelled => exact ⟨_, .terminate hopen (.inr rfl), rfl⟩
  · simp only [Moves, emissions, step, receiveTermination, ensureNonterminal, unbuffered, hopen,
      Bool.false_eq_true, if_false, hid, ne_eq, not_false_eq_true, if_true]
    exact ⟨_, .fail hopen, rfl⟩

/-- A call makes one move and buffers its events. -/
theorem step_moves (sha256 : Bytes → FixedBytes 32) (s : PairingSession) (call : PairingCall) :
    Moves sha256 s call := by
  cases call with
  | offer => exact ⟨s, .stay, rfl⟩
  | receiveResponse response now => exact moves_receiveResponse sha256 s response now
  | presentation => exact ⟨s, .stay, rfl⟩
  | confirm code crypto now => exact moves_confirm sha256 s code crypto now
  | receiveConfirmation confirmation crypto now =>
    exact moves_receiveConfirmation sha256 s confirmation crypto now
  | reject => exact moves_terminate (.inl rfl) fun t => rfl
  | cancel => exact moves_terminate (.inr rfl) fun t => rfl
  | receiveTermination termination => exact moves_receiveTermination sha256 s termination
  | tick now => exact moves_tick sha256 s now
  | trustRecord aliasName permissions now => exact ⟨s, .stay, rfl⟩
  | drainEvents => exact ⟨_, .drain, rfl⟩

end PairingSession

end MutsukiLink
