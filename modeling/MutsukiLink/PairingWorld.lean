import Mathlib.Data.Set.Function
import MutsukiLink.PairingTerminal

/-! Any number of pairing sessions between an adversary who delivers what it likes to whom it
likes. What a session's two flags witness is kept as an invariant over the whole history. -/
namespace MutsukiLink
open WireBytes

/-- Creating a session, or a call on the session with the given index. -/
inductive PairingAction where
  | initiate (localIdentity : LongTermIdentity) (pairingId : PairingId)
      (protocolVersion : ProtocolVersion) (challenge : FixedBytes 32) (method : PairingMethod)
      (expiresAtUnixMs : UInt64) (alreadyTrusted : Bool) (eventCapacity : ℕ)
  | respond (localIdentity : LongTermIdentity) (offer : PairingOffer) (nowUnixMs : UInt64)
      (alreadyTrusted : Bool) (eventCapacity : ℕ)
  | call (index : ℕ) (call : PairingCall)

inductive PairingWorldReply where
  | initiated (result : Except PairingError Unit)
  | responded (result : Except PairingError PairingResponse)
  | answered (reply : PairingReply)
  | noSession

namespace PairingWorld

def step (sha256 : Bytes → FixedBytes 32) (w : List PairingSession) :
    PairingAction → PairingWorldReply × List PairingSession
  | .initiate localIdentity pairingId version challenge method expiresAt trusted capacity =>
    match PairingSession.initiator localIdentity pairingId version challenge method expiresAt
      trusted capacity with
    | .error e => (.initiated (.error e), w)
    | .ok s => (.initiated (.ok ()), w ++ [s])
  | .respond localIdentity offer now trusted capacity =>
    match PairingSession.responder sha256 localIdentity offer now trusted capacity with
    | .error e => (.responded (.error e), w)
    | .ok (s, response) => (.responded (.ok response), w ++ [s])
  | .call index call =>
    match w[index]? with
    | none => (.noSession, w)
    | some s => (.answered (s.step sha256 call).1, w.set index (s.step sha256 call).2)

abbrev History := List (RunHistory.Event (List PairingSession) PairingAction PairingWorldReply)

/-- The holder of a key signed a hash: `confirm` of one of its sessions got a signature. -/
def Signed (hist : History) (publicKey : Bytes) (hash : FixedBytes 32) : Prop :=
  ∃ e ∈ hist, ∃ index code crypto now signature, ∃ s : PairingSession,
    e.input = .call index (.confirm code crypto now) ∧ e.pre[index]? = some s ∧
    s.localIdentity.publicKey = publicKey ∧ s.Confirms code crypto now hash signature

/-- A signature that verifies when it is delivered was made before. -/
def Unforgeable (hist : History) : Prop :=
  ∀ past e future, hist = past ++ e :: future → ∀ index confirmation crypto now,
    e.input = .call index (.receiveConfirmation confirmation crypto now) → ∀ publicKey hash,
      crypto.verifyTranscript publicKey hash confirmation.signature = true →
        Signed past publicKey hash

theorem Unforgeable.past {hist : History}
    {e : RunHistory.Event (List PairingSession) PairingAction PairingWorldReply}
    (h : Unforgeable (hist ++ [e])) : Unforgeable hist := by
  intro past e' future heq
  refine h past e' (future ++ [e]) ?_
  rw [heq, List.append_assoc, List.cons_append]

theorem Signed.mono {hist hist' : History} {publicKey : Bytes} {hash : FixedBytes 32}
    (h : Signed hist publicKey hash) (hsub : ∀ e ∈ hist, e ∈ hist') :
    Signed hist' publicKey hash := by
  obtain ⟨e, he, rest⟩ := h
  exact ⟨e, hsub e he, rest⟩

end PairingWorld

namespace PairingSession

/-- The transcript of a session and its peer, whichever of them began. -/
def transcript (s : PairingSession) (remote : LongTermIdentity) : Bytes :=
  match s.role with
  | .initiator =>
    transcriptBytes s.localIdentity remote s.protocolVersion s.challenge s.method
  | .responder =>
    transcriptBytes remote s.localIdentity s.protocolVersion s.challenge s.method

/-- What every reachable session keeps. -/
structure Sound (sha256 : Bytes → FixedBytes 32) (s : PairingSession) : Prop where
  transcript : ∀ hash, s.transcriptHash = some hash →
    ∃ remote, s.remote = some remote ∧ hash = sha256 (s.transcript remote)
  settled : s.localConfirmed = true ∨ s.remoteConfirmed = true → s.state ≠ .awaitingResponse
  paired : s.state = .paired → s.localConfirmed = true ∧ s.remoteConfirmed = true

variable {sha256 : Bytes → FixedBytes 32} {s t : PairingSession} {call : PairingCall}
  {events : List PairingEvent}

theorem fields_eq_of_unbuffered (h : s.unbuffered = t.unbuffered) :
    s.localConfirmed = t.localConfirmed ∧ s.remoteConfirmed = t.remoteConfirmed ∧
      s.remote = t.remote ∧ s.transcriptHash = t.transcriptHash ∧ s.shortCode = t.shortCode ∧
      s.expiresAtUnixMs = t.expiresAtUnixMs := by
  simp only [PairingSession.unbuffered, PairingSession.mk.injEq] at h
  tauto

theorem Sound.unbuffered (h : Sound sha256 t) (heq : s.unbuffered = t.unbuffered) :
    Sound sha256 s := by
  have hcore : Sound sha256 t.unbuffered := ⟨h.transcript, h.settled, h.paired⟩
  rw [← heq] at hcore
  exact ⟨hcore.transcript, hcore.settled, hcore.paired⟩

theorem Sound.initiator {localIdentity : LongTermIdentity} {pairingId : PairingId}
    {version : ProtocolVersion} {challenge : FixedBytes 32} {method : PairingMethod}
    {expiresAt : UInt64} {trusted : Bool} {capacity : ℕ}
    (h : PairingSession.initiator localIdentity pairingId version challenge method expiresAt trusted
      capacity = .ok s) :
    Sound sha256 s ∧ s.localConfirmed = false ∧ s.remoteConfirmed = false := by
  simp only [PairingSession.initiator, bind, Except.bind] at h
  split at h
  · cases h
  split at h
  · cases h
  cases h
  exact ⟨⟨nofun, nofun, nofun⟩, rfl, rfl⟩

theorem Sound.responder {localIdentity : LongTermIdentity} {offer : PairingOffer} {now : UInt64}
    {trusted : Bool} {capacity : ℕ} {response : PairingResponse}
    (h : PairingSession.responder sha256 localIdentity offer now trusted capacity =
      .ok (s, response)) :
    Sound sha256 s ∧ s.localConfirmed = false ∧ s.remoteConfirmed = false := by
  simp only [PairingSession.responder, bind, Except.bind] at h
  split at h
  · cases h
  split at h
  · cases h
  split at h
  · cases h
  split at h
  · cases h
  cases h
  -- The event of the presentation went into the buffer only.
  refine ⟨Sound.unbuffered ?_ (unbuffered_emit _ _), ?_, ?_⟩
  · refine ⟨fun hash hhash => ⟨offer.initiator, rfl, (Option.some.inj hhash).symm⟩, ?_, nofun⟩
    rintro (hconfirmed | hconfirmed) <;> cases hconfirmed
  · exact congrArg localConfirmed (unbuffered_emit _ _)
  · exact congrArg remoteConfirmed (unbuffered_emit _ _)

theorem Sound.move (h : Sound sha256 s) (hmove : Move sha256 s call events t) :
    Sound sha256 t := by
  cases hmove with
  | stay => exact h
  | drain => exact ⟨h.transcript, h.settled, h.paired⟩
  | expire active => exact ⟨h.transcript, fun _ => nofun, nofun⟩
  | terminate active terminal =>
    rcases terminal with rfl | rfl <;> exact ⟨h.transcript, fun _ => nofun, nofun⟩
  | fail active => exact ⟨h.transcript, fun _ => nofun, nofun⟩
  | refuse time => exact ⟨h.transcript, fun _ => nofun, nofun⟩
  | answer answered =>
    refine ⟨fun hash hhash => ⟨_, rfl, ?_⟩, fun _ => nofun, nofun⟩
    rw [← Option.some.inj hhash, answered.hash_eq]
    simp only [PairingSession.transcript, answered.role, MutsukiLink.transcriptHash]
  | confirm confirms waiting => exact ⟨h.transcript, fun _ => nofun, nofun⟩
  | confirmLast confirms ready => exact ⟨h.transcript, fun _ => nofun, fun _ => ⟨rfl, ready⟩⟩
  | attest attested waiting =>
    refine ⟨h.transcript, fun _ => ?_, fun hpaired => ?_⟩
    · rcases attested.awaiting with hstate | hstate <;> simp [hstate]
    · rcases attested.awaiting with hstate | hstate <;> simp [hstate] at hpaired
  | attestLast attested ready => exact ⟨h.transcript, fun _ => nofun, fun _ => ⟨ready, rfl⟩⟩

/-- Once one side has confirmed, the peer and the transcript are fixed. -/
theorem Sound.fixed (h : Sound sha256 s) (hmove : Move sha256 s call events t)
    (hconfirmed : s.localConfirmed = true ∨ s.remoteConfirmed = true) :
    t.remote = s.remote ∧ t.transcriptHash = s.transcriptHash ∧ t.shortCode = s.shortCode := by
  cases hmove with
  | answer answered => exact absurd answered.awaiting (h.settled hconfirmed)
  | _ => exact ⟨rfl, rfl, rfl⟩

/-- The local flag is set by `confirm` alone. -/
theorem Move.localConfirmed (hmove : Move sha256 s call events t)
    (hpost : t.localConfirmed = true) : s.localConfirmed = true ∨
      ∃ code crypto now hash signature, call = .confirm code crypto now ∧
        s.Confirms code crypto now hash signature ∧ t.shortCode = s.shortCode := by
  cases hmove with
  | confirm confirms waiting => exact .inr ⟨_, _, _, _, _, rfl, confirms, rfl⟩
  | confirmLast confirms ready => exact .inr ⟨_, _, _, _, _, rfl, confirms, rfl⟩
  | _ => exact .inl hpost

/-- The remote flag is set by an accepted confirmation alone. -/
theorem Move.remoteConfirmed (hmove : Move sha256 s call events t)
    (hpost : t.remoteConfirmed = true) : s.remoteConfirmed = true ∨
      ∃ confirmation crypto now remote hash, call = .receiveConfirmation confirmation crypto now ∧
        s.Attested confirmation crypto now remote hash ∧ t.remote = s.remote ∧
        t.transcriptHash = s.transcriptHash := by
  cases hmove with
  | attest attested waiting => exact .inr ⟨_, _, _, _, _, rfl, attested, rfl, rfl⟩
  | attestLast attested ready => exact .inr ⟨_, _, _, _, _, rfl, attested, rfl, rfl⟩
  | _ => exact .inl hpost

end PairingSession

namespace PairingWorld
variable {sha256 : Bytes → FixedBytes 32} {w : List PairingSession} {hist : History}

/-- An action leaves the sessions alone, adds one that nobody has confirmed, or steps one. -/
theorem step_cases (sha256 : Bytes → FixedBytes 32) (w : List PairingSession)
    (action : PairingAction) :
    ((∀ index call, action = .call index call → w[index]? = none) ∧
      (step sha256 w action).2 = w) ∨
    (∃ s, s.Sound sha256 ∧ s.localConfirmed = false ∧ s.remoteConfirmed = false ∧
      (∀ index call, action ≠ .call index call) ∧ (step sha256 w action).2 = w ++ [s]) ∨
    (∃ index call s, action = .call index call ∧ w[index]? = some s ∧
      (step sha256 w action).2 = w.set index (s.step sha256 call).2) := by
  cases action with
  | initiate localIdentity pairingId version challenge method expiresAt trusted capacity =>
    simp only [step]
    split
    · exact .inl ⟨nofun, rfl⟩
    · next s hs =>
      obtain ⟨hsound, hlocal, hremote⟩ := PairingSession.Sound.initiator hs
      exact .inr (.inl ⟨s, hsound, hlocal, hremote, nofun, rfl⟩)
  | respond localIdentity offer now trusted capacity =>
    simp only [step]
    split
    · exact .inl ⟨nofun, rfl⟩
    · next s response hs =>
      obtain ⟨hsound, hlocal, hremote⟩ := PairingSession.Sound.responder hs
      exact .inr (.inl ⟨s, hsound, hlocal, hremote, nofun, rfl⟩)
  | call index call =>
    simp only [step]
    cases hs : w[index]? with
    | none =>
      refine .inl ⟨fun index' call' h => ?_, rfl⟩
      cases h
      exact hs
    | some s => exact .inr (.inr ⟨index, call, s, rfl, hs, rfl⟩)

/-- The user has confirmed the session's own short code in time. -/
def ConfirmedIn (hist : History) (index : ℕ) (s : PairingSession) : Prop :=
  ∃ e ∈ hist, ∃ code crypto now, e.input = .call index (.confirm code crypto now) ∧
    s.shortCode = some code ∧ now < s.expiresAtUnixMs

/-- The peer's key has signed the session's transcript. -/
def AttestedIn (hist : History) (s : PairingSession) : Prop :=
  ∃ remote hash, s.remote = some remote ∧ s.transcriptHash = some hash ∧
    Signed hist remote.publicKey hash

theorem sound_step (h : ∀ s ∈ w, s.Sound sha256) (action : PairingAction) :
    ∀ s ∈ (step sha256 w action).2, s.Sound sha256 := by
  intro s' hs'
  obtain ⟨-, heq⟩ | ⟨s, hsound, -, -, -, heq⟩ | ⟨index, call, s, -, hs, heq⟩ :=
    step_cases sha256 w action
  · rw [heq] at hs'
    exact h s' hs'
  · rw [heq] at hs'
    rcases List.mem_append.mp hs' with hs' | hs'
    · exact h s' hs'
    · rwa [List.mem_singleton.mp hs']
  · rw [heq] at hs'
    rcases List.mem_or_eq_of_mem_set hs' with hs' | rfl
    · exact h s' hs'
    · obtain ⟨events, core, -, hmove, hcore⟩ := PairingSession.step_unbuffered sha256 s call
      exact ((h s (List.mem_of_getElem? hs)).move hmove).unbuffered hcore

/-- What the flags of the sessions say about the past. -/
structure Witnessed (sha256 : Bytes → FixedBytes 32) (hist : History) (w : List PairingSession) :
    Prop where
  sound : ∀ s ∈ w, s.Sound sha256
  confirmed : ∀ (index : ℕ) (s : PairingSession), w[index]? = some s →
    s.localConfirmed = true → ConfirmedIn hist index s
  attested : ∀ (index : ℕ) (s : PairingSession), w[index]? = some s →
    s.remoteConfirmed = true → AttestedIn hist s

theorem ConfirmedIn.mono {hist' : History} {index : ℕ} {s : PairingSession}
    (h : ConfirmedIn hist index s) (hsub : ∀ e ∈ hist, e ∈ hist') : ConfirmedIn hist' index s := by
  obtain ⟨e, he, rest⟩ := h
  exact ⟨e, hsub e he, rest⟩

theorem AttestedIn.mono {hist' : History} {s : PairingSession} (h : AttestedIn hist s)
    (hsub : ∀ e ∈ hist, e ∈ hist') : AttestedIn hist' s := by
  obtain ⟨remote, hash, hremote, hhash, hsigned⟩ := h
  exact ⟨remote, hash, hremote, hhash, hsigned.mono hsub⟩

/-- The flags of the session that a call steps. -/
theorem Witnessed.call {index : ℕ} {call : PairingCall} {s : PairingSession}
    (h : Witnessed sha256 hist w) (hs : w[index]? = some s)
    (hunforgeable : Unforgeable
      (hist ++ [RunHistory.event (step sha256) w (.call index call)])) :
    let hist' := hist ++ [RunHistory.event (step sha256) w (.call index call)]
    let t := (s.step sha256 call).2
    (t.localConfirmed = true → ConfirmedIn hist' index t) ∧
      (t.remoteConfirmed = true → AttestedIn hist' t) := by
  intro hist' t
  have hsound := h.sound s (List.mem_of_getElem? hs)
  have hsub : ∀ e ∈ hist, e ∈ hist' := fun e he => List.mem_append_left _ he
  have hexpires : t.expiresAtUnixMs = s.expiresAtUnixMs :=
    PairingSession.expiresAt_step sha256 s call
  obtain ⟨events, core, -, hmove, heq⟩ := PairingSession.step_unbuffered sha256 s call
  have heq : t.unbuffered = core.unbuffered := heq
  obtain ⟨hlocal, hremote, hpeer, hhash, hcode, -⟩ := PairingSession.fields_eq_of_unbuffered heq
  -- A flag that is up was up before, or this call has raised it with its own witness.
  refine ⟨fun hconfirmed => ?_, fun hconfirmed => ?_⟩
  · rw [hlocal] at hconfirmed
    rcases hmove.localConfirmed hconfirmed with hbefore | ⟨code, crypto, now, _, _, rfl, hc, hkept⟩
    · obtain ⟨e, he, code, crypto, now, hinput, hshown, htime⟩ := h.confirmed index s hs hbefore
      have hfixed := (hsound.fixed hmove (.inl hbefore)).2.2
      exact ⟨e, hsub e he, code, crypto, now, hinput, by rw [hcode, hfixed, hshown],
        by rw [hexpires]; exact htime⟩
    · refine ⟨_, List.mem_append_right _ (List.mem_singleton_self _), code, crypto, now, rfl,
        ?_, ?_⟩
      · rw [hcode, hkept, hc.code_eq]
      · rw [hexpires]
        exact hc.time
  · rw [hremote] at hconfirmed
    rcases hmove.remoteConfirmed hconfirmed with hbefore |
      ⟨confirmation, crypto, now, remote, hash, rfl, ha, hkept, hkept'⟩
    · obtain ⟨remote, hash, hr, hh, hsigned⟩ := h.attested index s hs hbefore
      obtain ⟨hfixed, hfixed', -⟩ := hsound.fixed hmove (.inr hbefore)
      exact ⟨remote, hash, by rw [hpeer, hfixed, hr], by rw [hhash, hfixed', hh],
        hsigned.mono hsub⟩
    · have hsigned : Signed hist remote.publicKey hash :=
        hunforgeable hist _ [] rfl index confirmation crypto now rfl _ _ ha.verified
      exact ⟨remote, hash, by rw [hpeer, hkept, ha.remote_eq], by rw [hhash, hkept', ha.hash_eq],
        hsigned.mono hsub⟩

theorem getElem?_set_cases {index other : ℕ} {s s' : PairingSession}
    (h : (w.set index s)[other]? = some s') :
    (other = index ∧ s' = s) ∨ (other ≠ index ∧ w[other]? = some s') := by
  rw [List.getElem?_set] at h
  split at h
  · next hother =>
    split at h
    · exact .inl ⟨hother.symm, (Option.some.inj h).symm⟩
    · cases h
  · next hother => exact .inr ⟨Ne.symm hother, h⟩

theorem Witnessed.step (h : Witnessed sha256 hist w) (action : PairingAction)
    (hunforgeable : Unforgeable (hist ++ [RunHistory.event (step sha256) w action])) :
    Witnessed sha256 (hist ++ [RunHistory.event (PairingWorld.step sha256) w action])
      (PairingWorld.step sha256 w action).2 := by
  have hsub : ∀ e ∈ hist, e ∈ hist ++ [RunHistory.event (PairingWorld.step sha256) w action] :=
    fun e he => List.mem_append_left _ he
  have hsound := sound_step h.sound action
  obtain ⟨-, heq⟩ | ⟨s, -, hlocal, hremote, -, heq⟩ | ⟨index, call, s, rfl, hs, heq⟩ :=
    step_cases sha256 w action
  · rw [heq] at hsound ⊢
    exact ⟨hsound, fun index s hs hc => (h.confirmed index s hs hc).mono hsub,
      fun index s hs hc => (h.attested index s hs hc).mono hsub⟩
  · -- The new session stands behind the others, and its flags are down.
    have hnew {index : ℕ} {s' : PairingSession} (hs' : (w ++ [s])[index]? = some s') :
        w[index]? = some s' ∨ s' = s := by
      rw [List.getElem?_append] at hs'
      split at hs'
      · exact .inl hs'
      · exact .inr (List.mem_singleton.mp (List.mem_of_getElem? hs'))
    rw [heq] at hsound ⊢
    refine ⟨hsound, fun index s' hs' hc => ?_, fun index s' hs' hc => ?_⟩
    · rcases hnew hs' with hs' | rfl
      · exact (h.confirmed index s' hs' hc).mono hsub
      · rw [hlocal] at hc
        cases hc
    · rcases hnew hs' with hs' | rfl
      · exact (h.attested index s' hs' hc).mono hsub
      · rw [hremote] at hc
        cases hc
  · obtain ⟨hconfirmed, hattested⟩ := h.call hs hunforgeable
    rw [heq] at hsound ⊢
    refine ⟨hsound, fun other s' hs' hc => ?_, fun other s' hs' hc => ?_⟩
    · rcases getElem?_set_cases hs' with ⟨rfl, rfl⟩ | ⟨-, hs'⟩
      · exact hconfirmed hc
      · exact (h.confirmed other s' hs' hc).mono hsub
    · rcases getElem?_set_cases hs' with ⟨rfl, rfl⟩ | ⟨-, hs'⟩
      · exact hattested hc
      · exact (h.attested other s' hs' hc).mono hsub

/-- Over a whole run whose signatures were all made by their holders. -/
theorem witnessed_run (sha256 : Bytes → FixedBytes 32) (actions : List PairingAction)
    (hunforgeable : Unforgeable (RunHistory.trace (step sha256) [] actions)) :
    Witnessed sha256 (RunHistory.trace (step sha256) [] actions)
      (RunHistory.run (step sha256) [] actions) := by
  refine RunHistory.run_history (step sha256)
    (P := fun hist w => Unforgeable hist → Witnessed sha256 hist w) ?_ ?_ actions hunforgeable
  · exact fun _ => ⟨by simp, by simp, by simp⟩
  · exact fun hist w action ih hunf => (ih hunf.past).step action hunf

end PairingWorld

end MutsukiLink
