import MutsukiLink.PairingCases

/-! The end of a pairing. A session that has ended stays in its state under every call but one: a
response that comes before the deadline is refused by failing the session. -/
namespace MutsukiLink
open WireBytes

namespace PairingSession
variable {s t : PairingSession} {call : PairingCall}

theorem unbuffered_emit (s : PairingSession) (event : PairingEvent) :
    (s.emit event).unbuffered = s.unbuffered := by
  unfold emit
  split <;> rfl

/-- Buffering events changes nothing but the buffer. -/
theorem unbuffered_foldl (events : List PairingEvent) (s : PairingSession) :
    (events.foldl emit s).unbuffered = s.unbuffered := by
  induction events generalizing s with
  | nil => rfl
  | cons event rest ih => rw [List.foldl_cons, ih, unbuffered_emit]

/-- The session that a call leaves, apart from its buffer. -/
theorem step_unbuffered (sha256 : Bytes → FixedBytes 32) (s : PairingSession)
    (call : PairingCall) :
    ∃ events t, s.emissions sha256 call = events ∧ Move sha256 s call events t ∧
      (s.step sha256 call).2.unbuffered = t.unbuffered := by
  obtain ⟨t, hmove, heq⟩ := step_moves sha256 s call
  exact ⟨_, t, rfl, hmove, by rw [heq, unbuffered_foldl]⟩

theorem state_eq_of_unbuffered (h : s.unbuffered = t.unbuffered) : s.state = t.state := by
  change s.unbuffered.state = t.unbuffered.state
  rw [h]

theorem expiresAt_step (sha256 : Bytes → FixedBytes 32) (s : PairingSession)
    (call : PairingCall) : (s.step sha256 call).2.expiresAtUnixMs = s.expiresAtUnixMs := by
  obtain ⟨events, t, -, hmove, heq⟩ := step_unbuffered sha256 s call
  change (s.step sha256 call).2.unbuffered.expiresAtUnixMs = s.expiresAtUnixMs
  rw [heq]
  cases hmove <;> rfl

/-- A response that comes before the deadline. -/
def TimelyResponse (expiresAtUnixMs : UInt64) : PairingCall → Prop
  | .receiveResponse _ now => now < expiresAtUnixMs
  | _ => False

theorem state_step_of_timely (sha256 : Bytes → FixedBytes 32) (h : isTerminal s.state = true)
    (hcall : TimelyResponse s.expiresAtUnixMs call) :
    (s.step sha256 call).2.state = .failed := by
  cases call with
  | receiveResponse response now =>
    have hunexpected : s.role ≠ .initiator ∨ s.state ≠ .awaitingResponse ∨
        response.pairingId ≠ s.pairingId := by
      refine .inr (.inl fun heq => ?_)
      rw [heq] at h
      cases h
    simp only [step, receiveResponse, checkTime_early (UInt64.not_le.mpr hcall),
      if_pos hunexpected, fail, Prod.map_snd, id]
    exact state_eq_of_unbuffered (unbuffered_emit _ _)
  | _ => exact hcall.elim

theorem state_step_of_not_timely (sha256 : Bytes → FixedBytes 32) (h : isTerminal s.state = true)
    (hcall : ¬TimelyResponse s.expiresAtUnixMs call) :
    (s.step sha256 call).2.state = s.state := by
  obtain ⟨events, t, -, hmove, heq⟩ := step_unbuffered sha256 s call
  rw [state_eq_of_unbuffered heq]
  -- Every other move starts from a session that is still open.
  cases hmove with
  | stay => rfl
  | drain => rfl
  | expire active => exact absurd h (by simp [active])
  | terminate active => exact absurd h (by simp [active])
  | fail active => exact absurd h (by simp [active])
  | refuse time => exact absurd time hcall
  | answer answered => exact absurd h (by simp [answered.awaiting, isTerminal])
  | confirm confirms => exact absurd h (by simp [confirms.awaiting, isTerminal])
  | confirmLast confirms => exact absurd h (by simp [confirms.awaiting, isTerminal])
  | attest attested =>
    rcases attested.awaiting with hstate | hstate <;> exact absurd h (by simp [hstate, isTerminal])
  | attestLast attested =>
    rcases attested.awaiting with hstate | hstate <;> exact absurd h (by simp [hstate, isTerminal])

/-- An ended session keeps its state for a whole run exactly when it has failed already or no call
of the run is a response that comes before the deadline. -/
theorem terminal_state_stays_iff (sha256 : Bytes → FixedBytes 32) {s : PairingSession}
    (h : isTerminal s.state = true) (calls : List PairingCall) :
    (∀ e ∈ RunHistory.trace (PairingSession.step sha256) s calls, e.post.state = s.state) ↔
      s.state = .failed ∨ ∀ call ∈ calls, ¬TimelyResponse s.expiresAtUnixMs call := by
  induction calls generalizing s with
  | nil => exact ⟨fun _ => .inr (by simp), fun _ => by simp⟩
  | cons call rest ih =>
    have hexpires := expiresAt_step sha256 s call
    simp only [RunHistory.trace_cons, RunHistory.event, List.forall_mem_cons]
    by_cases hcall : TimelyResponse s.expiresAtUnixMs call
    · have hfailed := state_step_of_timely sha256 h hcall
      have hrest := ih (by rw [hfailed]; rfl)
      rw [hfailed] at hrest ⊢
      constructor
      · rintro ⟨hstate, -⟩
        exact .inl hstate.symm
      · rintro (hstate | hnone)
        · rw [hstate]
          exact ⟨rfl, hrest.mpr (.inl rfl)⟩
        · exact absurd hcall hnone.1
    · have hkept := state_step_of_not_timely sha256 h hcall
      have hrest := ih (by rw [hkept]; exact h)
      rw [hkept, hexpires] at hrest
      rw [hkept, hrest]
      constructor
      · rintro ⟨-, hfailed | hnone⟩
        · exact .inl hfailed
        · exact .inr ⟨hcall, hnone⟩
      · rintro (hfailed | hnone)
        · exact ⟨rfl, .inl hfailed⟩
        · exact ⟨rfl, .inr hnone.2⟩

end PairingSession

namespace Sample

def pairingInitiator : LongTermIdentity :=
  { peerId := .fromBytes (.replicate 32 1), publicKey := List.replicate 16 1
    displayName := "desk", size_lt := by decide }

def pairingResponder : LongTermIdentity :=
  { peerId := .fromBytes (.replicate 32 2), publicKey := List.replicate 16 2
    displayName := "phone", size_lt := by decide }

def pairingTranscript : Bytes :=
  transcriptBytes pairingInitiator pairingResponder ⟨1, 0⟩ (.replicate 32 7) .shortCode

/-- The digests of the transcript, of the two keys and of the challenge. -/
def pairingDigest (bytes : Bytes) : FixedBytes 32 :=
  if bytes = pairingTranscript then
    ⟨[150, 236, 97, 67, 34, 171, 196, 17, 12, 19, 56, 178, 190, 238, 188, 120, 157, 56, 195, 94, 72,
      155, 106, 109, 63, 14, 121, 111, 145, 139, 178, 76], rfl⟩
  else if bytes = pairingInitiator.publicKey then
    ⟨[204, 140, 212, 28, 239, 144, 124, 77, 33, 96, 105, 18, 44, 75, 137, 147, 98, 17, 54, 31, 144,
      80, 167, 23, 161, 227, 122, 209, 134, 46, 149, 47], rfl⟩
  else if bytes = pairingResponder.publicKey then
    ⟨[41, 42, 253, 227, 182, 78, 102, 54, 214, 143, 17, 32, 217, 36, 47, 31, 133, 227, 142, 247,
      191, 48, 110, 68, 7, 194, 48, 62, 182, 55, 145, 239], rfl⟩
  else
    ⟨[75, 176, 111, 142, 78, 58, 119, 21, 210, 1, 213, 115, 208, 170, 66, 55, 98, 229, 93, 171, 214,
      26, 44, 2, 39, 143, 165, 108, 198, 210, 148, 224], rfl⟩

/-- A signature names its key and the hash that was signed. -/
def pairingCrypto (publicKey : Bytes) : PairingCrypto where
  signTranscript hash := .ok (publicKey ++ hash.bytes)
  verifyTranscript publicKey hash signature := signature = publicKey ++ hash.bytes

def pairingHash : FixedBytes 32 := pairingDigest pairingTranscript

def pairingResponse : PairingResponse :=
  { pairingId := ⟨.replicate 16 3⟩, responder := pairingResponder, transcriptHash := pairingHash
    shortCode := "073795" }

/-- The confirmation of the responder. -/
def responderConfirmation : PairingConfirmation :=
  { pairingId := ⟨.replicate 16 3⟩, signerPeerId := pairingResponder.peerId
    transcriptHash := pairingHash, signature := pairingResponder.publicKey ++ pairingHash.bytes }

def initiatorCalls : List PairingCall :=
  [.receiveResponse pairingResponse 20,
    .confirm "073795" (pairingCrypto pairingInitiator.publicKey) 30,
    .receiveConfirmation responderConfirmation (pairingCrypto pairingInitiator.publicKey) 40]

/-- The initiator after both sides have confirmed. -/
def pairedSession : PairingSession :=
  { role := .initiator, state := .paired, localIdentity := pairingInitiator
    remote := some pairingResponder, pairingId := ⟨.replicate 16 3⟩, protocolVersion := ⟨1, 0⟩
    challenge := .replicate 32 7, method := .shortCode, expiresAtUnixMs := 100
    transcriptHash := some pairingHash, shortCode := some "073795", localConfirmed := true
    remoteConfirmed := true
    events := [.stateChanged .awaitingUserConfirmation,
      .present (presentation pairingDigest pairingResponder "073795"),
      .stateChanged .awaitingPeerConfirmation, .stateChanged .paired,
      .completed pairingResponder.peerId]
    eventCapacity := 8, droppedEvents := 0 }

theorem paired_initiator :
    (PairingSession.initiator pairingInitiator ⟨.replicate 16 3⟩ ⟨1, 0⟩ (.replicate 32 7) .shortCode
      100 false 8).map (fun s => RunHistory.run (PairingSession.step pairingDigest) s
        initiatorCalls) = .ok pairedSession := by
  decide +kernel

end Sample

namespace PairingSession

/-- A cancellation and a deadline that come too late. -/
theorem sample_paired_state_stays :
    ((RunHistory.trace (PairingSession.step Sample.pairingDigest) Sample.pairedSession
      [.cancel, .tick 200]).all fun e => e.post.state = .paired) = true := by
  have hstays := (terminal_state_stays_iff Sample.pairingDigest (s := Sample.pairedSession) rfl
    [.cancel, .tick 200]).mpr (Or.inr (by simp [TimelyResponse]))
  exact List.all_eq_true.mpr fun e he => decide_eq_true (hstays e he)

/-- The response that began the pairing is delivered once more and undoes it. -/
theorem sample_repeated_response_fails_pairing :
    (PairingSession.initiator Sample.pairingInitiator ⟨.replicate 16 3⟩ ⟨1, 0⟩ (.replicate 32 7)
      .shortCode 100 false 8).map (fun s => RunHistory.run
        (PairingSession.step Sample.pairingDigest) s Sample.initiatorCalls) =
      .ok Sample.pairedSession ∧
    Sample.pairedSession.state = .paired ∧
    (Sample.pairedSession.step Sample.pairingDigest
      (.receiveResponse Sample.pairingResponse 50)).2.state = .failed :=
  ⟨Sample.paired_initiator, rfl, rfl⟩

end PairingSession

end MutsukiLink
