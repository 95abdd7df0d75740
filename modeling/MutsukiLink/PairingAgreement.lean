import MutsukiLink.PairingWorld

/-! Authenticity of a pairing: a transcript determines its parties, so the signature that lets a
session pair was made by the opposite session over the same parameters. -/
namespace MutsukiLink
open WireBytes

theorem beBytes_inj {n x y : ℕ} (hx : x < 256^n) (hy : y < 256^n)
    (h : beBytes n x = beBytes n y) : x = y := by
  rw [← ofBeBytes_beBytes n x hx, h, ofBeBytes_beBytes n y hy]

/-- A sized value ends where its length says. -/
theorem sized_append_inj {a b x y : Bytes} (ha : a.length < 2^63) (hb : b.length < 2^63)
    (h : sized a ++ x = sized b ++ y) : a = b ∧ x = y := by
  rw [sized, sized, List.append_assoc, List.append_assoc, min_eq_left (by omega),
    min_eq_left (by omega)] at h
  obtain ⟨hsize, hrest⟩ := List.append_inj h (by rw [length_beBytes, length_beBytes])
  have hlen : a.length = b.length := beBytes_inj (by omega) (by omega) hsize
  exact List.append_inj hrest hlen

theorem u16_beBytes_inj {a b : UInt16} (h : beBytes 2 a.toNat = beBytes 2 b.toNat) : a = b := by
  have ha := a.toNat_lt
  have hb := b.toNat_lt
  exact UInt16.toNat_inj.mp (beBytes_inj (by omega) (by omega) h)

/-- Two identities that a transcript does not tell apart. -/
def SameParty (a b : LongTermIdentity) : Prop := a.peerId = b.peerId ∧ a.publicKey = b.publicKey

/-- Everything that goes into a transcript can be read off it. -/
theorem transcriptBytes_inj {initiator responder initiator' responder' : LongTermIdentity}
    {version version' : ProtocolVersion} {challenge challenge' : FixedBytes 32}
    {method method' : PairingMethod}
    (h : transcriptBytes initiator responder version challenge method =
      transcriptBytes initiator' responder' version' challenge' method') :
    SameParty initiator initiator' ∧ SameParty responder responder' ∧ version = version' ∧
      challenge = challenge' ∧ method = method' := by
  have hpeer {a b : PeerId} {x y : Bytes} (h : a.bytes ++ x = b.bytes ++ y) : a = b ∧ x = y := by
    obtain ⟨hbytes, hrest⟩ := List.append_inj h (by rw [a.size_eq, b.size_eq])
    exact ⟨OpaqueId.toFixedBytes_injective (FixedBytes.ext_bytes hbytes), hrest⟩
  obtain ⟨hinitiator, h⟩ := hpeer (List.append_cancel_left h)
  obtain ⟨hinitiatorKey, h⟩ := sized_append_inj initiator.size_lt initiator'.size_lt h
  obtain ⟨hresponder, h⟩ := hpeer h
  obtain ⟨hresponderKey, h⟩ := sized_append_inj responder.size_lt responder'.size_lt h
  obtain ⟨hmajor, h⟩ := List.append_inj h (by rw [length_beBytes, length_beBytes])
  obtain ⟨hminor, h⟩ := List.append_inj h (by rw [length_beBytes, length_beBytes])
  obtain ⟨hchallenge, h⟩ := List.append_inj h (by rw [challenge.size_eq, challenge'.size_eq])
  refine ⟨⟨hinitiator, hinitiatorKey⟩, ⟨hresponder, hresponderKey⟩, ?_,
    FixedBytes.ext_bytes hchallenge, ?_⟩
  · exact congrArg₂ ProtocolVersion.mk (u16_beBytes_inj hmajor) (u16_beBytes_inj hminor)
  · have htag := List.head_eq_of_cons_eq h
    cases method <;> cases method' <;> first | rfl | exact absurd htag (by decide)

namespace PairingSession
variable {sha256 : Bytes → FixedBytes 32} {s t : PairingSession} {call : PairingCall}
  {events : List PairingEvent}

/-- The peer's session is of the opposite role and over the same parameters. -/
structure Matches (s : PairingSession) (remote : LongTermIdentity) (peer : PairingSession) :
    Prop where
  role : peer.role ≠ s.role
  party : SameParty peer.localIdentity remote
  back : ∃ remote', peer.remote = some remote' ∧ SameParty remote' s.localIdentity
  version : peer.protocolVersion = s.protocolVersion
  challenge : peer.challenge = s.challenge
  method : peer.method = s.method

theorem matches_of_transcript {remote remote' : LongTermIdentity} {peer : PairingSession}
    (hkey : peer.localIdentity.publicKey = remote.publicKey)
    (hne : remote.publicKey ≠ s.localIdentity.publicKey) (hremote' : peer.remote = some remote')
    (h : s.transcript remote = peer.transcript remote') : s.Matches remote peer := by
  unfold transcript at h
  cases hrole : s.role <;> cases hrole' : peer.role <;> simp only [hrole, hrole'] at h
  · -- Two initiators would have the same key.
    obtain ⟨hinitiator, -⟩ := transcriptBytes_inj h
    exact absurd (hkey.symm.trans hinitiator.2.symm) hne
  · obtain ⟨hinitiator, hresponder, hversion, hchallenge, hmethod⟩ := transcriptBytes_inj h
    exact ⟨by simp [hrole, hrole'], ⟨hresponder.1.symm, hresponder.2.symm⟩,
      ⟨remote', hremote', hinitiator.1.symm, hinitiator.2.symm⟩, hversion.symm, hchallenge.symm,
      hmethod.symm⟩
  · obtain ⟨hinitiator, hresponder, hversion, hchallenge, hmethod⟩ := transcriptBytes_inj h
    exact ⟨by simp [hrole, hrole'], ⟨hinitiator.1.symm, hinitiator.2.symm⟩,
      ⟨remote', hremote', hresponder.1.symm, hresponder.2.symm⟩, hversion.symm, hchallenge.symm,
      hmethod.symm⟩
  · obtain ⟨-, hresponder, -⟩ := transcriptBytes_inj h
    exact absurd (hkey.symm.trans hresponder.2.symm) hne

def isCompleted : PairingEvent → Bool
  | .completed _ => true
  | _ => false

/-- A move tells of a completion only when it enters `Paired`. -/
theorem Move.completed (hmove : Move sha256 s call events t) :
    (events.countP isCompleted = 0 ∧ (isTerminal t.state = false → isTerminal s.state = false)) ∨
    (events = s.completion ∧ isTerminal s.state = false ∧ t.state = .paired ∧
      t.remote = s.remote) := by
  cases hmove with
  | stay => exact .inl ⟨rfl, id⟩
  | drain => exact .inl ⟨rfl, id⟩
  | expire active => exact .inl ⟨rfl, fun _ => active⟩
  | terminate active terminal => exact .inl ⟨rfl, fun _ => active⟩
  | fail active => exact .inl ⟨rfl, fun _ => active⟩
  | refuse time => exact .inl ⟨rfl, nofun⟩
  | answer answered => exact .inl ⟨rfl, fun _ => by rw [answered.awaiting]; rfl⟩
  | confirm confirms waiting => exact .inl ⟨rfl, fun _ => by rw [confirms.awaiting]; rfl⟩
  | confirmLast confirms ready => exact .inr ⟨rfl, by rw [confirms.awaiting]; rfl, rfl, rfl⟩
  | attest attested waiting => exact .inl ⟨rfl, id⟩
  | attestLast attested ready =>
    refine .inr ⟨rfl, ?_, rfl, rfl⟩
    rcases attested.awaiting with hstate | hstate <;> rw [hstate] <;> rfl

theorem completion_countP (s : PairingSession) : s.completion.countP isCompleted ≤ 1 := by
  unfold completion
  cases s.remote <;> simp [isCompleted]

theorem mem_completion {p : PeerId} (h : .completed p ∈ s.completion) :
    ∃ remote, s.remote = some remote ∧ p = remote.peerId := by
  unfold completion at h
  cases hremote : s.remote with
  | none => simp [hremote] at h
  | some remote => exact ⟨remote, rfl, by simpa [hremote] using h⟩

/-- A completion is told of on entering `Paired`, and names the peer. -/
theorem completed_emission {p : PeerId} (h : .completed p ∈ s.emissions sha256 call) :
    s.state ≠ .paired ∧ (s.step sha256 call).2.state = .paired ∧
      ∃ remote, (s.step sha256 call).2.remote = some remote ∧ p = remote.peerId := by
  obtain ⟨events, core, hevents, hmove, hcore⟩ := step_unbuffered sha256 s call
  rw [hevents] at h
  rcases hmove.completed with ⟨hcount, -⟩ | ⟨rfl, hopen, hpaired, hremote⟩
  · exact absurd rfl (List.countP_eq_zero.mp hcount _ h)
  · refine ⟨fun hstate => ?_, ?_, ?_⟩
    · rw [hstate] at hopen
      cases hopen
    · rw [state_eq_of_unbuffered hcore, hpaired]
    · obtain ⟨-, -, hpeer, -⟩ := fields_eq_of_unbuffered hcore
      rw [hpeer, hremote]
      exact mem_completion h

theorem trustRecord_ok {aliasName : String} {permissions : Std.ExtTreeSet LinkPermission}
    {now : UInt64} {record : TrustRecord}
    (h : s.trustRecord sha256 aliasName permissions now = .ok record) :
    s.state = .paired ∧ ∃ remote, s.remote = some remote ∧ record.peerId = remote.peerId ∧
      record.publicKey = remote.publicKey := by
  unfold trustRecord at h
  split at h
  · cases h
  · next hstate =>
    cases hremote : s.remote with
    | none => simp only [hremote] at h; cases h
    | some remote =>
      simp only [hremote] at h
      cases h
      exact ⟨not_not.mp fun hne => hstate (.inl hne), remote, rfl, rfl, rfl⟩

end PairingSession

namespace PairingWorld
variable {sha256 : Bytes → FixedBytes 32} {w : List PairingSession} {hist : History}

/-- The call that one session answered in an event of the world. -/
def sessionEvent (sha256 : Bytes → FixedBytes 32) (index : ℕ)
    (e : RunHistory.Event (List PairingSession) PairingAction PairingWorldReply) :
    Option (RunHistory.Event PairingSession PairingCall PairingReply) :=
  match e.input with
  | .call other call =>
    if other = index then
      e.pre[index]?.map fun s => RunHistory.event (PairingSession.step sha256) s call
    else none
  | _ => none

/-- All that one session was called with, in order. -/
def sessionEvents (sha256 : Bytes → FixedBytes 32) (index : ℕ) (hist : History) :
    List (RunHistory.Event PairingSession PairingCall PairingReply) :=
  hist.filterMap (sessionEvent sha256 index)

/-- How often a session told of its completion. -/
def completions (sha256 : Bytes → FixedBytes 32) (index : ℕ) (hist : History) : ℕ :=
  ((sessionEvents sha256 index hist).flatMap fun e => e.pre.emissions sha256 e.input).countP
    PairingSession.isCompleted

/-- A completion has been told of at most once, and by a session that has ended. -/
def CompletedOnce (sha256 : Bytes → FixedBytes 32) (hist : History) (w : List PairingSession) :
    Prop :=
  ∀ index : ℕ, completions sha256 index hist ≤ 1 ∧
    (completions sha256 index hist ≠ 0 → ∃ s, w[index]? = some s ∧ isTerminal s.state = true)

theorem completions_concat_none {index : ℕ}
    {e : RunHistory.Event (List PairingSession) PairingAction PairingWorldReply}
    (h : sessionEvent sha256 index e = none) :
    completions sha256 index (hist ++ [e]) = completions sha256 index hist := by
  rw [completions, sessionEvents, List.filterMap_append, List.filterMap_cons_none h,
    List.filterMap_nil, List.append_nil]
  rfl

theorem completions_concat_some {index : ℕ}
    {e : RunHistory.Event (List PairingSession) PairingAction PairingWorldReply}
    {e' : RunHistory.Event PairingSession PairingCall PairingReply}
    (h : sessionEvent sha256 index e = some e') :
    completions sha256 index (hist ++ [e]) = completions sha256 index hist+
      (e'.pre.emissions sha256 e'.input).countP PairingSession.isCompleted := by
  rw [completions, sessionEvents, List.filterMap_append, List.filterMap_cons_some h,
    List.filterMap_nil, List.flatMap_append, List.countP_append, List.flatMap_singleton]
  rfl

theorem CompletedOnce.step (h : CompletedOnce sha256 hist w) (action : PairingAction) :
    CompletedOnce sha256 (hist ++ [RunHistory.event (PairingWorld.step sha256) w action])
      (PairingWorld.step sha256 w action).2 := by
  intro index
  obtain ⟨hle, hended⟩ := h index
  obtain ⟨hnone, heq⟩ | ⟨new, -, -, -, hother, heq⟩ | ⟨called, call, s, rfl, hs, heq⟩ :=
    step_cases sha256 w action
  · have hevent : sessionEvent sha256 index
        (RunHistory.event (PairingWorld.step sha256) w action) = none := by
      cases action with
      | call called call =>
        simp only [sessionEvent, RunHistory.event]
        split
        · next hindex => rw [← hindex, hnone called call rfl, Option.map_none]
        · rfl
      | _ => rfl
    rw [completions_concat_none hevent, heq]
    exact ⟨hle, hended⟩
  · have hevent : sessionEvent sha256 index
        (RunHistory.event (PairingWorld.step sha256) w action) = none := by
      cases action with
      | call called call => exact absurd rfl (hother called call)
      | _ => rfl
    rw [completions_concat_none hevent, heq]
    refine ⟨hle, fun hne => ?_⟩
    obtain ⟨s, hs, hterminal⟩ := hended hne
    have hlt : index < w.length := (List.getElem?_eq_some_iff.mp hs).1
    exact ⟨s, by rw [List.getElem?_append_left hlt, hs], hterminal⟩
  · rw [heq]
    by_cases hindex : called = index
    · subst hindex
      have hevent : sessionEvent sha256 called
          (RunHistory.event (PairingWorld.step sha256) w (.call called call)) =
          some (RunHistory.event (PairingSession.step sha256) s call) := by
        simp only [sessionEvent, RunHistory.event, if_true, hs, Option.map_some]
      have hlt : called < w.length := (List.getElem?_eq_some_iff.mp hs).1
      rw [completions_concat_some hevent, List.getElem?_set_self hlt]
      simp only [RunHistory.event]
      obtain ⟨events, core, hevents, hmove, hcore⟩ := PairingSession.step_unbuffered sha256 s call
      rw [hevents]
      have hstate := PairingSession.state_eq_of_unbuffered hcore
      rcases hmove.completed with ⟨hcount, hopen⟩ | ⟨rfl, hopen, hpaired, -⟩
      · rw [hcount]
        refine ⟨hle, fun hne => ⟨_, rfl, ?_⟩⟩
        obtain ⟨s', hs', hterminal⟩ := hended hne
        obtain rfl : s = s' := Option.some.inj (hs.symm.trans hs')
        rw [hstate]
        by_contra hnot
        rw [hopen (Bool.eq_false_iff.mpr hnot)] at hterminal
        cases hterminal
      · -- An open session has told of nothing yet.
        have hzero : completions sha256 called hist = 0 := by
          by_contra hne
          obtain ⟨s', hs', hterminal⟩ := hended hne
          obtain rfl : s = s' := Option.some.inj (hs.symm.trans hs')
          rw [hopen] at hterminal
          cases hterminal
        rw [hzero, Nat.zero_add]
        exact ⟨s.completion_countP, fun _ => ⟨_, rfl, by rw [hstate, hpaired]; rfl⟩⟩
    · have hevent : sessionEvent sha256 index
          (RunHistory.event (PairingWorld.step sha256) w (.call called call)) = none := by
        simp only [sessionEvent, RunHistory.event, if_neg hindex]
      rw [completions_concat_none hevent, List.getElem?_set_ne hindex]
      exact ⟨hle, hended⟩

theorem completedOnce_run (sha256 : Bytes → FixedBytes 32) (actions : List PairingAction) :
    CompletedOnce sha256 (RunHistory.trace (PairingWorld.step sha256) [] actions)
      (RunHistory.run (PairingWorld.step sha256) [] actions) := by
  refine RunHistory.run_history (PairingWorld.step sha256)
    (P := fun hist w => CompletedOnce sha256 hist w) ?_ ?_ actions
  · exact fun index => ⟨Nat.zero_le 1, fun hne => absurd rfl hne⟩
  · exact fun hist w action ih => ih.step action

theorem mem_sessionEvents {index : ℕ}
    {e : RunHistory.Event PairingSession PairingCall PairingReply}
    (h : e ∈ sessionEvents sha256 index hist) :
    e = RunHistory.event (PairingSession.step sha256) e.pre e.input := by
  obtain ⟨e', -, heq⟩ := List.mem_filterMap.mp h
  unfold sessionEvent at heq
  split at heq
  · split at heq
    · obtain ⟨s, -, rfl⟩ := Option.map_eq_some_iff.mp heq
      rfl
    · cases heq
  · cases heq

/-- Every transcript that a session of a run has had. -/
def Transcripts (hist : History) (w : List PairingSession) : Set Bytes :=
  {bytes | ∃ s, (s ∈ w ∨ ∃ e ∈ hist, s ∈ e.pre) ∧
    ∃ remote, s.remote = some remote ∧ s.transcript remote = bytes}

/-- A session was confirmed by its user and has signed its transcript. -/
def HasConfirmed (hist : History) (s : PairingSession) : Prop :=
  ∃ e ∈ hist, ∃ index code crypto now hash signature,
    e.input = .call index (.confirm code crypto now) ∧ e.pre[index]? = some s ∧
    s.Confirms code crypto now hash signature

/-- The signature of the peer was made by the matching session. -/
theorem AttestedIn.matching {s : PairingSession} {remote : LongTermIdentity}
    (h : AttestedIn hist s) (hsound : s.Sound sha256) (hs : s ∈ w)
    (hpast : ∀ e ∈ hist, ∀ peer ∈ e.pre, peer.Sound sha256)
    (hinj : Set.InjOn sha256 (Transcripts hist w)) (hremote : s.remote = some remote)
    (hne : remote.publicKey ≠ s.localIdentity.publicKey) :
    ∃ peer, HasConfirmed hist peer ∧ s.Matches remote peer := by
  obtain ⟨remote', hash, hremote', hhash, e, he, index, code, crypto, now, signature, peer, hinput,
    hpeer, hkey, hconfirms⟩ := h
  obtain rfl : remote = remote' := Option.some.inj (hremote.symm.trans hremote')
  have hmem : peer ∈ e.pre := List.mem_of_getElem? hpeer
  obtain ⟨own, hown, heq⟩ := hsound.transcript hash hhash
  obtain rfl : remote = own := Option.some.inj (hremote.symm.trans hown)
  obtain ⟨back, hback, heq'⟩ := (hpast e he peer hmem).transcript hash hconfirms.hash_eq
  have htranscript : s.transcript remote = peer.transcript back :=
    hinj ⟨s, .inl hs, remote, hremote, rfl⟩ ⟨peer, .inr ⟨e, he, hmem⟩, back, hback, rfl⟩
      (heq.symm.trans heq')
  exact ⟨peer, ⟨e, he, index, code, crypto, now, hash, signature, hinput, hpeer, hconfirms⟩,
    PairingSession.matches_of_transcript hkey hne hback htranscript⟩

/-- A session pairs only after its own user has confirmed its short code in time and, unless both
sides hold one key, the matching session of the peer has confirmed too. A completion is told of
once, on entering `Paired`, and the trust record names the paired peer. -/
theorem paired_sessions_agree (sha256 : Bytes → FixedBytes 32) (actions : List PairingAction)
    (hunforgeable : Unforgeable (RunHistory.trace (PairingWorld.step sha256) [] actions))
    (hinj : Set.InjOn sha256 (Transcripts (RunHistory.trace (PairingWorld.step sha256) [] actions)
      (RunHistory.run (PairingWorld.step sha256) [] actions))) :
    let hist := RunHistory.trace (PairingWorld.step sha256) [] actions
    let w := RunHistory.run (PairingWorld.step sha256) [] actions
    (∀ (index : ℕ) (s : PairingSession), w[index]? = some s → s.state = .paired →
      ConfirmedIn hist index s ∧ ∃ remote, s.remote = some remote ∧
        (remote.publicKey ≠ s.localIdentity.publicKey →
          ∃ peer, HasConfirmed hist peer ∧ s.Matches remote peer)) ∧
    (∀ index, completions sha256 index hist ≤ 1 ∧
      ∀ e ∈ sessionEvents sha256 index hist, ∀ p, .completed p ∈ e.pre.emissions sha256 e.input →
        e.pre.state ≠ .paired ∧ e.post.state = .paired ∧
          ∃ remote, e.post.remote = some remote ∧ p = remote.peerId) ∧
    (∀ s ∈ w, ∀ aliasName permissions now record,
      s.trustRecord sha256 aliasName permissions now = .ok record →
        s.state = .paired ∧ ∃ remote, s.remote = some remote ∧ record.peerId = remote.peerId ∧
          record.publicKey = remote.publicKey) := by
  intro hist w
  have hwitnessed := witnessed_run sha256 actions hunforgeable
  have hpast : ∀ e ∈ hist, ∀ peer ∈ e.pre, peer.Sound sha256 := fun e he =>
    (RunHistory.trace_invariant (PairingWorld.step sha256)
      (I := fun w => ∀ s ∈ w, s.Sound sha256) (fun w action h => sound_step h action)
      (by simp) actions e he).1
  refine ⟨fun index s hs hpaired => ?_, fun index => ⟨(completedOnce_run sha256 actions index).1,
    fun e he p hp => ?_⟩, fun s _ aliasName permissions now record h =>
      PairingSession.trustRecord_ok h⟩
  · have hmem : s ∈ w := List.mem_of_getElem? hs
    have hsound := hwitnessed.sound s hmem
    obtain ⟨hlocal, hremote⟩ := hsound.paired hpaired
    have hattested := hwitnessed.attested index s hs hremote
    obtain ⟨remote, hash, hpeer, -, -⟩ := id hattested
    exact ⟨hwitnessed.confirmed index s hs hlocal, remote, hpeer,
      hattested.matching hsound hmem hpast hinj hpeer⟩
  · rw [mem_sessionEvents he] at hp ⊢
    exact PairingSession.completed_emission hp

/-- One more event, whose signature was made before. -/
theorem Unforgeable.concat
    {e : RunHistory.Event (List PairingSession) PairingAction PairingWorldReply}
    (h : Unforgeable hist)
    (he : ∀ index confirmation crypto now,
      e.input = .call index (.receiveConfirmation confirmation crypto now) → ∀ publicKey hash,
        crypto.verifyTranscript publicKey hash confirmation.signature = true →
          Signed hist publicKey hash) : Unforgeable (hist ++ [e]) := by
  intro past e' future heq
  rcases List.eq_nil_or_concat future with rfl | ⟨future, last, rfl⟩
  · obtain ⟨rfl, hlast⟩ := List.append_inj' heq rfl
    obtain rfl := List.singleton_inj.mp hlast
    exact he
  · rw [List.concat_eq_append, ← List.cons_append, ← List.append_assoc] at heq
    obtain ⟨rfl, -⟩ := List.append_inj' heq rfl
    exact h past e' future rfl

end PairingWorld

namespace Sample
open PairingWorld

def pairingOffer : PairingOffer :=
  { pairingId := ⟨.replicate 16 3⟩, initiator := pairingInitiator, protocolVersion := ⟨1, 0⟩
    challenge := .replicate 32 7, method := .shortCode, expiresAtUnixMs := 100 }

/-- Both sessions are shown the short code. -/
def pairingOpening : List PairingAction :=
  [.initiate pairingInitiator ⟨.replicate 16 3⟩ ⟨1, 0⟩ (.replicate 32 7) .shortCode 100 false 8,
    .respond pairingResponder pairingOffer 10 false 8,
    .call 0 (.receiveResponse pairingResponse 20)]

def initiatorConfirm : PairingAction :=
  .call 0 (.confirm "073795" (pairingCrypto pairingInitiator.publicKey) 30)

def responderConfirm : PairingAction :=
  .call 1 (.confirm "073795" (pairingCrypto pairingResponder.publicKey) 30)

def initiatorReceive : PairingAction :=
  .call 0 (.receiveConfirmation responderConfirmation (pairingCrypto pairingInitiator.publicKey) 40)

def pairingActions : List PairingAction :=
  (pairingOpening ++ [initiatorConfirm]) ++ [responderConfirm]

/-- The responder before its user confirms. -/
def openResponder : PairingSession :=
  { role := .responder, state := .awaitingUserConfirmation, localIdentity := pairingResponder
    remote := some pairingInitiator, pairingId := ⟨.replicate 16 3⟩, protocolVersion := ⟨1, 0⟩
    challenge := .replicate 32 7, method := .shortCode, expiresAtUnixMs := 100
    transcriptHash := some pairingHash, shortCode := some "073795", localConfirmed := false
    remoteConfirmed := false
    events := [.present (presentation pairingDigest pairingInitiator "073795")]
    eventCapacity := 8, droppedEvents := 0 }

theorem openResponder_mem :
    (RunHistory.run (PairingWorld.step pairingDigest) []
      (pairingOpening ++ [initiatorConfirm]))[1]? = some openResponder := by
  decide +kernel

theorem paired_world :
    (RunHistory.run (PairingWorld.step pairingDigest) []
      (pairingActions ++ [initiatorReceive]))[0]? = some pairedSession := by
  decide +kernel

/-- What a session has heard of its peer is part of the one transcript. -/
def hasPairingTranscript (s : PairingSession) : Bool :=
  s.remote.all fun remote => s.transcript remote = pairingTranscript

theorem pairing_transcripts :
    (∀ s ∈ RunHistory.run (PairingWorld.step pairingDigest) []
      (pairingActions ++ [initiatorReceive]), hasPairingTranscript s = true) ∧
    ∀ e ∈ RunHistory.trace (PairingWorld.step pairingDigest) []
      (pairingActions ++ [initiatorReceive]), ∀ s ∈ e.pre, hasPairingTranscript s = true := by
  constructor <;> decide +kernel

theorem responder_signed :
    Signed (RunHistory.trace (PairingWorld.step pairingDigest) [] pairingActions)
      pairingResponder.publicKey pairingHash := by
  rw [pairingActions, RunHistory.trace_concat]
  exact ⟨_, List.mem_append_right _ (List.mem_singleton_self _), 1, "073795", _, 30, _,
    openResponder, rfl, openResponder_mem, rfl, by decide, rfl, rfl, rfl, rfl⟩

theorem pairing_unforgeable :
    Unforgeable (RunHistory.trace (PairingWorld.step pairingDigest) []
      (pairingActions ++ [initiatorReceive])) := by
  rw [RunHistory.trace_concat]
  refine Unforgeable.concat ?_ ?_
  · rintro past e future heq index confirmation crypto now hinput
    have hmem : e ∈ RunHistory.trace (PairingWorld.step pairingDigest) [] pairingActions :=
      heq ▸ List.mem_append_right _ List.mem_cons_self
    simp only [pairingActions, pairingOpening, List.cons_append, List.nil_append,
      RunHistory.trace_cons, RunHistory.trace_nil, List.mem_cons, List.not_mem_nil, or_false]
      at hmem
    rcases hmem with rfl | rfl | rfl | rfl | rfl <;> cases hinput
  · rintro index confirmation crypto now hinput publicKey hash hverified
    cases hinput
    have heq := of_decide_eq_true hverified
    obtain ⟨rfl, hbytes⟩ := List.append_inj' heq (by rw [hash.size_eq, pairingHash.size_eq])
    obtain rfl : pairingHash = hash := FixedBytes.ext_bytes hbytes
    exact responder_signed

end Sample

namespace PairingWorld

/-- The initiator pairs with the responder that has confirmed the same transcript. -/
theorem sample_initiator_pairs_with_responder :
    (RunHistory.run (PairingWorld.step Sample.pairingDigest) []
      (Sample.pairingActions ++ [Sample.initiatorReceive]))[0]? = some Sample.pairedSession ∧
    ∃ peer, HasConfirmed (RunHistory.trace (PairingWorld.step Sample.pairingDigest) []
      (Sample.pairingActions ++ [Sample.initiatorReceive])) peer ∧
        Sample.pairedSession.Matches Sample.pairingResponder peer := by
  refine ⟨Sample.paired_world, ?_⟩
  have hinj : Set.InjOn Sample.pairingDigest (Transcripts
      (RunHistory.trace (PairingWorld.step Sample.pairingDigest) []
        (Sample.pairingActions ++ [Sample.initiatorReceive]))
      (RunHistory.run (PairingWorld.step Sample.pairingDigest) []
        (Sample.pairingActions ++ [Sample.initiatorReceive]))) := by
    refine Set.Subsingleton.injOn (Set.subsingleton_of_subset_singleton
      (a := Sample.pairingTranscript) ?_) _
    rintro bytes ⟨s, hs, remote, hremote, rfl⟩
    have htranscript : Sample.hasPairingTranscript s = true := by
      rcases hs with hs | ⟨e, he, hs⟩
      · exact Sample.pairing_transcripts.1 s hs
      · exact Sample.pairing_transcripts.2 e he s hs
    rw [Sample.hasPairingTranscript, hremote, Option.all_some] at htranscript
    exact of_decide_eq_true htranscript
  obtain ⟨hpaired, -, -⟩ := paired_sessions_agree Sample.pairingDigest _
    Sample.pairing_unforgeable hinj
  obtain ⟨-, remote, hremote, hmatching⟩ := hpaired 0 Sample.pairedSession Sample.paired_world rfl
  obtain rfl : Sample.pairingResponder = remote := Option.some.inj hremote
  exact hmatching (by decide)

end PairingWorld

end MutsukiLink
