import MutsukiLink.NtpAgreement

/-! Which layout messages the subscriber refuses without a trace. -/
namespace MutsukiLink.Ntp
open WireBytes

section RecentTimes
variable {times : List ℕ} {now : ℕ}

/-- The reconfigurations after this time count towards the limit. -/
def minuteBefore (now : ℕ) : ℕ := if 60*1000000000 ≤ now then now-60*1000000000 else now

def recentTimes (times : List ℕ) (now : ℕ) : List ℕ :=
  times.dropWhile fun timestamp => timestamp ≤ minuteBefore now

theorem le_minuteBefore_iff : now ≤ minuteBefore now ↔ now < 60*1000000000 := by
  unfold minuteBefore
  split <;> omega

theorem recentTimes_eq_self_iff :
    recentTimes times now = times ↔ ∀ t, times.head? = some t → minuteBefore now < t := by
  unfold recentTimes
  cases times with
  | nil => simp
  | cons first rest =>
    by_cases hfirst : first ≤ minuteBefore now
    · have hshort : ((first :: rest).dropWhile fun timestamp => timestamp ≤ minuteBefore now) ≠
          first :: rest := by
        intro heq
        have hlength := congrArg List.length heq
        rw [List.dropWhile_cons_of_pos (by simpa using hfirst)] at hlength
        have hsuffix := (List.dropWhile_suffix (l := rest)
          fun timestamp => timestamp ≤ minuteBefore now).length_le
        rw [List.length_cons] at hlength
        omega
      apply iff_of_false hshort
      intro hall
      have hlater := hall first rfl
      omega
    · apply iff_of_true
      · exact List.dropWhile_cons_of_neg (by simpa using hfirst)
      · intro t ht
        obtain rfl := Option.some.inj ht
        exact Nat.not_le.mp hfirst

/-- A time that is recorded changes the times, unless the clock has not run for a minute and the
only time is the same. -/
theorem recentTimes_concat_eq_self_iff :
    recentTimes times now ++ [now] = times ↔ times = [now] ∧ now < 60*1000000000 := by
  constructor
  · intro heq
    cases times with
    | nil => simp at heq
    | cons first rest =>
      have hold : first ≤ minuteBefore now := by
        by_contra hlater
        have hlength := congrArg List.length heq
        have hself : recentTimes (first :: rest) now = first :: rest :=
          List.dropWhile_cons_of_neg (by simpa using hlater)
        rw [hself, List.length_append] at hlength
        simp at hlength
      have htail : recentTimes (first :: rest) now = recentTimes rest now :=
        List.dropWhile_cons_of_pos (by simpa using hold)
      rw [htail] at heq
      -- Nothing else is dropped, so what follows the first time is later than it.
      have hlength := congrArg List.length heq
      rw [List.length_append, List.length_cons] at hlength
      have hkept : recentTimes rest now = rest := by
        apply List.IsSuffix.eq_of_length (List.dropWhile_suffix _)
        exact Nat.succ.inj hlength
      rw [hkept] at heq
      cases rest with
      | nil =>
        obtain rfl := (List.cons.inj heq).1
        exact ⟨rfl, le_minuteBefore_iff.mp hold⟩
      | cons second rest =>
        have hlater := recentTimes_eq_self_iff.mp hkept second rfl
        have hsame : second = first := (List.cons.inj heq).1
        omega
  · intro h
    obtain ⟨rfl, hearly⟩ := h
    have hdrop : recentTimes [now] now = [] :=
      List.dropWhile_cons_of_pos (by simpa using le_minuteBefore_iff.mpr hearly)
    rw [hdrop, List.nil_append]

end RecentTimes

namespace Subscriber
variable {P : TrackingProtocol} {c c' c'' : Subscriber P}

/-- What a refused message has to leave as it was. -/
structure SameLayout (c c' : Subscriber P) : Prop where
  pending : c'.pending = c.pending
  active : c'.active = c.active
  coreReassembly : c'.coreReassembly = c.coreReassembly
  geometryReassembly : c'.geometryReassembly = c.geometryReassembly
  geometryCache : c'.geometryCache = c.geometryCache
  reconfigureTimes : c'.reconfigureTimes = c.reconfigureTimes

theorem SameLayout.refl (c : Subscriber P) : c.SameLayout c := ⟨rfl, rfl, rfl, rfl, rfl, rfl⟩

theorem SameLayout.trans (h : c.SameLayout c') (h' : c'.SameLayout c'') : c.SameLayout c'' where
  pending := h'.pending.trans h.pending
  active := h'.active.trans h.active
  coreReassembly := h'.coreReassembly.trans h.coreReassembly
  geometryReassembly := h'.geometryReassembly.trans h.geometryReassembly
  geometryCache := h'.geometryCache.trans h.geometryCache
  reconfigureTimes := h'.reconfigureTimes.trans h.reconfigureTimes

/-- The outbox takes one more message of this size. -/
def HasRoom (c : Subscriber P) (m : P.Message) : Prop :=
  c.outbox.length < c.config.maxPendingControl ∧
    ∃ bytes, m.encode = .ok bytes ∧ bytes.length ≤ c.config.maxControlBytes

theorem queue_with_room {m : P.Message} (h : c.HasRoom m) : ∃ bytes, m.encode = .ok bytes ∧
    c.queue m = (.ok (), { c with outbox := c.outbox ++ [bytes] }) := by
  obtain ⟨hlength, bytes, hencode, hsize⟩ := h
  refine ⟨bytes, hencode, ?_⟩
  simp only [queue, queueControl, hencode, if_neg (Nat.not_le.mpr hlength),
    if_neg (Nat.not_lt.mpr hsize)]

theorem queue_without_room {m : P.Message} (h : ¬c.HasRoom m) :
    ∃ e, c.queue m = (.error e, c) := by
  rcases queue_cases c m with hrefused | ⟨bytes, hencode, hqueue⟩
  · exact hrefused
  · exfalso
    apply h
    simp only [queue, queueControl, hencode] at hqueue
    split at hqueue
    next => cases hqueue
    next houtbox =>
    split at houtbox
    · cases houtbox
    next hlength =>
    split at houtbox
    · cases houtbox
    next hsize =>
    exact ⟨Nat.not_le.mp hlength, bytes, hencode, Nat.not_lt.mp hsize⟩

section Proposal
variable {proposal : SessionProposal P.toTrackingTypes} {receiverNowNs : UInt64} {now : ℕ}

/-- What is left to check of a proposal when the rate limit has let it through. -/
structure Admits (c : Subscriber P) (proposal : SessionProposal P.toTrackingTypes)
    (receiverNowNs : UInt64) : Prop where
  later : ∀ A, c.active = some A → A.sessionId = proposal.sessionId →
    A.generation < proposal.generation
  accepted : ∃ accept negotiator, P.receiveProposal c.negotiator proposal.layoutId proposal.layout
    proposal.descriptor receiverNowNs = (.ok accept, negotiator) ∧
      c.HasRoom (.layoutAccepted accept)

/-- The proposal is not recorded against an active session, or it is refused by the rate limit
while no recorded time is out of date, or it is accepted. -/
def ProposalKept (c : Subscriber P) (proposal : SessionProposal P.toTrackingTypes)
    (receiverNowNs : UInt64) (now : ℕ) : Prop :=
  c.remoteHello = true → c.pending = none → c.active.isSome →
    if c.config.maxReconfigurePerMinute.toNat ≤ (recentTimes c.reconfigureTimes now).length then
      ∀ t, c.reconfigureTimes.head? = some t → minuteBefore now < t
    else c.Admits proposal receiverNowNs ∨ c.reconfigureTimes = [now] ∧ now < 60*1000000000

theorem noteIfActive_idle (h : c.active = none) : c.noteIfActive now = (.ok (), c) := by
  rw [noteIfActive, h]
  rfl

theorem noteIfActive_limited (hactive : c.active.isSome)
    (hlimit : c.config.maxReconfigurePerMinute.toNat ≤
      (recentTimes c.reconfigureTimes now).length) :
    c.noteIfActive now = (.error .rateLimited, { c with
      reconfigureTimes := recentTimes c.reconfigureTimes now
      rateLimited := saturatingAdd c.rateLimited 1 }) := by
  have htimes : noteReconfigureTimes (ε := P.Error) c.config c.reconfigureTimes now =
      (.error .rateLimited, recentTimes c.reconfigureTimes now) := if_pos hlimit
  rw [noteIfActive, if_pos hactive, noteReconfigure, htimes]

theorem noteIfActive_recorded (hactive : c.active.isSome)
    (hlimit : ¬c.config.maxReconfigurePerMinute.toNat ≤
      (recentTimes c.reconfigureTimes now).length) :
    c.noteIfActive now = (.ok (), { c with
      reconfigureTimes := recentTimes c.reconfigureTimes now ++ [now] }) := by
  have htimes : noteReconfigureTimes (ε := P.Error) c.config c.reconfigureTimes now =
      (.ok (), recentTimes c.reconfigureTimes now ++ [now]) := if_neg hlimit
  rw [noteIfActive, if_pos hactive, noteReconfigure, htimes]

/-- Behind the rate limit a proposal is admitted, or refused with what has been recorded. -/
theorem receiveProposal_recorded (proposal : SessionProposal P.toTrackingTypes)
    (receiverNowNs : UInt64) (times : List ℕ) (hhello : c.remoteHello = true)
    (hpending : c.pending = none)
    (hnote : c.noteIfActive now = (.ok (), { c with reconfigureTimes := times })) :
    (c.Admits proposal receiverNowNs ∧
      ∃ c', c.receiveProposal proposal receiverNowNs now = (.ok .proposalAccepted, c') ∧
        c'.active = c.active) ∨
    (¬c.Admits proposal receiverNowNs ∧
      ∃ e c', c.receiveProposal proposal receiverNowNs now = (.error e, c') ∧
        SameLayout { c with reconfigureTimes := times } c') := by
  have hopen : ¬(!c.remoteHello || c.pending.isSome) = true := by simp [hhello, hpending]
  unfold receiveProposal
  simp only [if_neg hopen, hnote]
  -- From here on a refusal leaves the recorded time behind.
  by_cases hlate : (c.active.any fun active =>
      active.sessionId = proposal.sessionId && proposal.generation ≤ active.generation) = true
  · rw [if_pos hlate]
    refine .inr ⟨fun hadmits => ?_, _, _, rfl, .refl _⟩
    obtain ⟨A, hA, hlate⟩ := (Option.any_eq_true ..).mp hlate
    simp only [Bool.and_eq_true, decide_eq_true_eq] at hlate
    have hlater := hadmits.later A hA hlate.1
    exact absurd hlater (UInt32.not_lt.mpr hlate.2)
  rw [if_neg hlate]
  have hlater : ∀ A, c.active = some A → A.sessionId = proposal.sessionId →
      A.generation < proposal.generation := by
    intro A hA hsession
    apply UInt32.not_le.mp
    intro hle
    apply hlate
    simp [hA, hsession, hle]
  rcases hanswer : P.receiveProposal c.negotiator proposal.layoutId proposal.layout
    proposal.descriptor receiverNowNs with ⟨e | accept, negotiator⟩
  · refine .inr ⟨fun hadmits => ?_, _, _, rfl, ⟨rfl, rfl, rfl, rfl, rfl, rfl⟩⟩
    obtain ⟨accept, negotiator, hok, -⟩ := hadmits.accepted
    rw [hanswer] at hok
    cases hok
  simp only
  by_cases hroom : c.HasRoom (.layoutAccepted accept)
  · obtain ⟨bytes, -, hqueue⟩ := queue_with_room
      (c := { c with reconfigureTimes := times, negotiator }) hroom
    rw [hqueue]
    exact .inl ⟨⟨hlater, accept, negotiator, hanswer, hroom⟩, _, rfl, rfl⟩
  · obtain ⟨e, hqueue⟩ := queue_without_room
      (c := { c with reconfigureTimes := times, negotiator }) hroom
    rw [hqueue]
    refine .inr ⟨fun hadmits => ?_, _, _, rfl, ⟨rfl, rfl, rfl, rfl, rfl, rfl⟩⟩
    obtain ⟨accept', negotiator', hok, hroom'⟩ := hadmits.accepted
    rw [hanswer] at hok
    obtain ⟨haccept, -⟩ := Prod.mk.inj hok
    obtain rfl := Except.ok.inj haccept
    exact hroom hroom'

/-- An answer that is an error comes with the layout as it was. -/
def RefusalKeeps (c : Subscriber P)
    (answer : Except P.Failure SubscriberEvent × Subscriber P) : Prop :=
  ∀ e, answer.1 = .error e → c.SameLayout answer.2

theorem refusalKeeps_ok (event : SubscriberEvent) :
    c.RefusalKeeps ((.ok event, c') : Except P.Failure SubscriberEvent × Subscriber P) := by
  intro e h
  cases h

theorem refusalKeeps_error_iff {e : P.Failure} :
    c.RefusalKeeps (.error e, c') ↔ c.SameLayout c' := by
  constructor
  · intro h
    exact h e rfl
  · intro h e' _
    exact h

/-- A change of the recorded times is all that a refused proposal can leave behind. -/
theorem sameLayout_times_iff {times : List ℕ}
    (h : SameLayout { c with reconfigureTimes := times } c') :
    c.SameLayout c' ↔ times = c.reconfigureTimes := by
  constructor
  · intro hsame
    exact h.reconfigureTimes.symm.trans hsame.reconfigureTimes
  · intro htimes
    refine ⟨h.pending, h.active, h.coreReassembly, h.geometryReassembly, h.geometryCache, ?_⟩
    exact h.reconfigureTimes.trans htimes

theorem receiveProposal_kept_iff :
    c.RefusalKeeps (c.receiveProposal proposal receiverNowNs now) ↔
      c.ProposalKept proposal receiverNowNs now := by
  by_cases hclosed : (!c.remoteHello || c.pending.isSome) = true
  · have hanswer : c.receiveProposal proposal receiverNowNs now = (.error .invalidState, c) := by
      simp only [receiveProposal, if_pos hclosed]
    rw [hanswer]
    apply iff_of_true
    · exact refusalKeeps_error_iff.mpr (.refl c)
    · intro hhello hpending
      simp [hhello, hpending] at hclosed
  have hhello : c.remoteHello = true := by
    cases hremote : c.remoteHello <;> simp [hremote] at hclosed ⊢
  have hpending : c.pending = none := by
    cases hproposal : c.pending <;> simp [hproposal] at hclosed ⊢
  by_cases hactive : c.active.isSome
  -- The first proposal of a session is not recorded, so its refusal leaves no trace.
  swap
  · have hnone : c.active = none := Option.not_isSome_iff_eq_none.mp hactive
    apply iff_of_true
    · rcases receiveProposal_recorded proposal receiverNowNs c.reconfigureTimes hhello hpending
        (noteIfActive_idle hnone) with
        ⟨-, c', hanswer, -⟩ | ⟨-, e, c', hanswer, hsame⟩
      · rw [hanswer]
        exact refusalKeeps_ok _
      · rw [hanswer]
        exact refusalKeeps_error_iff.mpr hsame
    · intro _ _ hsome
      exact absurd hsome hactive
  have hkept : c.ProposalKept proposal receiverNowNs now ↔
      if c.config.maxReconfigurePerMinute.toNat ≤
        (recentTimes c.reconfigureTimes now).length then
        ∀ t, c.reconfigureTimes.head? = some t → minuteBefore now < t
      else c.Admits proposal receiverNowNs ∨ c.reconfigureTimes = [now] ∧ now < 60*1000000000 :=
    ⟨fun h => h hhello hpending hactive, fun h _ _ _ => h⟩
  rw [hkept]
  by_cases hlimit : c.config.maxReconfigurePerMinute.toNat ≤
      (recentTimes c.reconfigureTimes now).length
  -- The rate limit refuses: the times that are out of date are dropped all the same.
  · have hopen : ¬(!c.remoteHello || c.pending.isSome) = true := hclosed
    have hanswer : c.receiveProposal proposal receiverNowNs now =
        (.error .rateLimited, { c with
          reconfigureTimes := recentTimes c.reconfigureTimes now
          rateLimited := saturatingAdd c.rateLimited 1 }) := by
      simp only [receiveProposal, if_neg hopen, noteIfActive_limited hactive hlimit]
    rw [if_pos hlimit, hanswer, refusalKeeps_error_iff, ← recentTimes_eq_self_iff]
    exact sameLayout_times_iff ⟨rfl, rfl, rfl, rfl, rfl, rfl⟩
  · rw [if_neg hlimit]
    rcases receiveProposal_recorded proposal receiverNowNs _ hhello hpending
      (noteIfActive_recorded hactive hlimit) with
      ⟨hadmits, c', hanswer, -⟩ | ⟨hrefuses, e, c', hanswer, hsame⟩
    · rw [hanswer]
      exact iff_of_true (refusalKeeps_ok _) (.inl hadmits)
    · rw [hanswer, refusalKeeps_error_iff, sameLayout_times_iff hsame,
        recentTimes_concat_eq_self_iff]
      exact ⟨.inr, fun h => h.resolve_left hrefuses⟩

end Proposal

section Confirm
variable {confirm : LayoutConfirm}

/-- The negotiator, the guard of the stream and the outbox all accept the confirmation of a pending
proposal. -/
def ConfirmKept (c : Subscriber P) (confirm : LayoutConfirm) : Prop :=
  ∀ proposal, c.pending = some proposal → ∃ layout negotiator guard,
    P.confirm c.negotiator confirm = (.ok layout, negotiator) ∧
    P.confirmedGuard proposal.sessionId proposal.generation layout confirm = .ok guard ∧
    c.HasRoom (.sessionReady proposal.sessionId proposal.generation proposal.layoutId)

/-- Once the pending proposal is taken an error cannot give it back. -/
theorem not_refusalKeeps {proposal : SessionProposal P.toTrackingTypes} {e : P.Failure}
    (hpending : c.pending = some proposal) (htaken : c'.pending = none) :
    ¬c.RefusalKeeps (.error e, c') := by
  intro h
  have hsame := refusalKeeps_error_iff.mp h
  have hnone := hsame.pending.symm.trans htaken
  rw [hpending] at hnone
  cases hnone

theorem receiveConfirm_idle (hpending : c.pending = none) :
    c.receiveConfirm confirm = (.error .invalidState, c) := by
  simp only [receiveConfirm, hpending]

/-- A confirmation of a pending proposal is accepted with the ready message, or the proposal is
gone. -/
theorem receiveConfirm_outcome {proposal : SessionProposal P.toTrackingTypes}
    (hpending : c.pending = some proposal) (confirm : LayoutConfirm) :
    (c.ConfirmKept confirm ∧ ∃ bytes c', ControlMessage.encode (.sessionReady proposal.sessionId
        proposal.generation proposal.layoutId : P.Message) = .ok bytes ∧
      c.receiveConfirm confirm = (.ok .sessionReady, c') ∧ c'.outbox = c.outbox ++ [bytes]) ∨
    (¬c.ConfirmKept confirm ∧ ∃ e c', c.receiveConfirm confirm = (.error e, c') ∧
      c'.pending = none) := by
  have honly {proposal' : SessionProposal P.toTrackingTypes} (h : c.pending = some proposal') :
      proposal' = proposal := Option.some.inj (h.symm.trans hpending)
  rcases hconfirm : P.confirm c.negotiator confirm with ⟨e | layout, negotiator⟩
  · have hanswer : c.receiveConfirm confirm =
        (.error (.handshake e), { c with pending := none, negotiator }) := by
      simp only [receiveConfirm, hpending, hconfirm]
    refine .inr ⟨fun hkept => ?_, _, _, hanswer, rfl⟩
    obtain ⟨layout, negotiator', guard, hok, -⟩ := hkept proposal hpending
    cases hconfirm.symm.trans hok
  rcases hguard : P.confirmedGuard proposal.sessionId proposal.generation layout confirm with
    e | guard
  · have hanswer : c.receiveConfirm confirm =
        (.error (.compactStream e), { c with pending := none, negotiator }) := by
      simp only [receiveConfirm, hpending, hconfirm, hguard]
    refine .inr ⟨fun hkept => ?_, _, _, hanswer, rfl⟩
    obtain ⟨layout', negotiator', guard, hok, hopens, -⟩ := hkept proposal hpending
    obtain ⟨hlayout, -⟩ := Prod.mk.inj (hconfirm.symm.trans hok)
    obtain rfl := Except.ok.inj hlayout
    cases hguard.symm.trans hopens
  -- The session is active by now, whatever the outbox answers.
  generalize hactive : ({ c with
    pending := none, negotiator, active := some (confirmedSession proposal layout guard)
    coreReassembly := c.coreReassembly.clear, geometryReassembly := c.geometryReassembly.clear
    geometryCache := none, previousAgeNs := none } : Subscriber P) = c₁
  have hroom : c₁.HasRoom (.sessionReady proposal.sessionId proposal.generation proposal.layoutId) ↔
      c.HasRoom (.sessionReady proposal.sessionId proposal.generation proposal.layoutId) := by
    rw [← hactive]
    exact Iff.rfl
  by_cases hfits :
    c.HasRoom (.sessionReady proposal.sessionId proposal.generation proposal.layoutId)
  · obtain ⟨bytes, hencode, hqueue⟩ := queue_with_room (hroom.mpr hfits)
    have hanswer : c.receiveConfirm confirm =
        (.ok .sessionReady, { c₁ with outbox := c₁.outbox ++ [bytes] }) := by
      simp only [receiveConfirm, hpending, hconfirm, hguard, hactive, hqueue]
    refine .inl ⟨fun proposal' hsome => ?_, bytes, _, hencode, hanswer, ?_⟩
    · obtain rfl := honly hsome
      exact ⟨layout, negotiator, guard, hconfirm, hguard, hfits⟩
    · rw [← hactive]
  · obtain ⟨e, hqueue⟩ := queue_without_room (mt hroom.mp hfits)
    have hanswer : c.receiveConfirm confirm = (.error e, c₁) := by
      simp only [receiveConfirm, hpending, hconfirm, hguard, hactive, hqueue]
    refine .inr ⟨fun hkept => ?_, e, c₁, hanswer, ?_⟩
    · obtain ⟨-, -, -, -, -, hfits'⟩ := hkept proposal hpending
      exact hfits hfits'
    · rw [← hactive]

theorem receiveConfirm_kept_iff :
    c.RefusalKeeps (c.receiveConfirm confirm) ↔ c.ConfirmKept confirm := by
  cases hpending : c.pending with
  | none =>
    rw [receiveConfirm_idle hpending]
    apply iff_of_true
    · exact refusalKeeps_error_iff.mpr (.refl c)
    · intro proposal hsome
      cases hpending.symm.trans hsome
  | some proposal =>
    rcases receiveConfirm_outcome hpending confirm with
      ⟨hkept, bytes, c', -, hanswer, -⟩ | ⟨hlost, e, c', hanswer, htaken⟩
    · rw [hanswer]
      exact iff_of_true (refusalKeeps_ok _) hkept
    · rw [hanswer]
      exact iff_of_false (not_refusalKeeps hpending htaken) hlost

end Confirm

section Poll
variable {receiverNowNs : UInt64} {now : ℕ} {m : P.Message}

/-- The message is not refused at all, or before it has changed anything. -/
def LayoutKept (c : Subscriber P) (receiverNowNs : UInt64) (now : ℕ) : P.Message → Prop
  | .sessionProposal proposal => c.ProposalKept proposal receiverNowNs now
  | .layoutConfirmed confirm => c.ConfirmKept confirm
  | _ => True

/-- The active session is the old one, or its ready message is at the end of the outbox. -/
def ReadyQueued (c c' : Subscriber P) : Prop :=
  c'.active = c.active ∨ ∃ proposal bytes, c.pending = some proposal ∧
    ControlMessage.encode (.sessionReady proposal.sessionId proposal.generation
      proposal.layoutId : P.Message) = .ok bytes ∧ c'.outbox = c.outbox ++ [bytes]

theorem handle_kept_iff (m : P.Message) :
    c.RefusalKeeps (c.handle receiverNowNs now m) ↔ c.LayoutKept receiverNowNs now m := by
  have hsame {answer : Except P.Failure SubscriberEvent × Subscriber P}
      (h : c.SameLayout answer.2) : c.RefusalKeeps answer ↔ True :=
    iff_of_true (fun _ _ => h) trivial
  -- The other messages do not touch the layout.
  cases m with
  | sessionProposal proposal => exact receiveProposal_kept_iff
  | layoutConfirmed confirm => exact receiveConfirm_kept_iff
  | hello hello =>
    apply hsame
    simp only [handle]
    split <;> exact ⟨rfl, rfl, rfl, rfl, rfl, rfl⟩
  | pong receiverSendNs producerSendNs =>
    apply hsame
    simp only [handle, receivePong]
    split <;> exact ⟨rfl, rfl, rfl, rfl, rfl, rfl⟩
  | _ => exact hsame (.refl c)

/-- A confirmation that is not refused ends with the ready message. -/
theorem receiveConfirm_ready {confirm : LayoutConfirm} (h : c.ConfirmKept confirm) :
    c.ReadyQueued (c.receiveConfirm confirm).2 := by
  cases hpending : c.pending with
  | none =>
    rw [receiveConfirm_idle hpending]
    exact .inl rfl
  | some proposal =>
    rcases receiveConfirm_outcome hpending confirm with
      ⟨-, bytes, c', hencode, hanswer, houtbox⟩ | ⟨hlost, -⟩
    · rw [hanswer]
      exact .inr ⟨proposal, bytes, hpending, hencode, houtbox⟩
    · exact absurd h hlost

/-- No other message changes the active session. -/
theorem handle_ready (h : c.LayoutKept receiverNowNs now m) :
    c.ReadyQueued (c.handle receiverNowNs now m).2 := by
  obtain ⟨queued, hmove, -⟩ := handle_cases c receiverNowNs now m
  cases hmove with
  | other hpending hactive hnegotiator hplain => exact .inl hactive
  | offered proposal accept now hnone hlater hreceived hpending hactive => exact .inl hactive
  | dropped proposal confirm hpending hnone hactive => exact .inl hactive
  | activated proposal confirm S hactivates hqueued => exact receiveConfirm_ready h

/-- The flush in front of the message changes the outbox only. -/
theorem flush_sameLayout {σ : Type} (connection : NtpConnection σ) (c : Subscriber P) (s : σ) :
    c.SameLayout (c.flush connection s).2.1 := by
  unfold flush
  exact ⟨rfl, rfl, rfl, rfl, rfl, rfl⟩

theorem pollControl_refused {σ : Type} {connection : NtpConnection σ} {s s₁ s₂ : σ}
    {c₁ c₂ : Subscriber P} {e : P.Failure} (hflush : c.flush connection s = (.ok (), c₁, s₁))
    (hreceived : receiveControl connection c₁.config s₁ = (.ok (some m), s₂))
    (hrefused : c₁.handle receiverNowNs now m = (.error e, c₂)) :
    c.pollControl connection s receiverNowNs now = (.error e, c₂, s₂) := by
  simp only [pollControl, hflush, hreceived, hrefused]

/-- A poll that fails while it handles a message leaves what has been agreed as it was, and no
session gets active without its ready message, exactly when the message is refused before anything
has changed or not at all. -/
theorem layout_rejection_is_atomic_iff {σ : Type} (connection : NtpConnection σ) {s s₁ s₂ : σ}
    {c₁ : Subscriber P} (receiverNowNs : UInt64) (now : ℕ)
    (hflush : c.flush connection s = (.ok (), c₁, s₁))
    (hreceived : receiveControl connection c₁.config s₁ = (.ok (some m), s₂)) :
    ((∀ e c₂, c₁.handle receiverNowNs now m = (.error e, c₂) →
        (c.pollControl connection s receiverNowNs now).1 = .error e ∧
        c.SameLayout (c.pollControl connection s receiverNowNs now).2.1) ∧
      c₁.ReadyQueued (c₁.handle receiverNowNs now m).2) ↔
    c₁.LayoutKept receiverNowNs now m := by
  have hsame : c.SameLayout c₁ := by
    have hfirst := flush_sameLayout connection c s
    rw [hflush] at hfirst
    exact hfirst
  constructor
  · intro h
    apply (handle_kept_iff m).mp
    intro e hrefused
    have hanswer : c₁.handle receiverNowNs now m =
        (.error e, (c₁.handle receiverNowNs now m).2) := Prod.ext hrefused rfl
    have hpoll := (h.1 e _ hanswer).2
    rw [pollControl_refused hflush hreceived hanswer] at hpoll
    -- Both polls start from the same layout.
    refine ⟨?_, ?_, ?_, ?_, ?_, ?_⟩
    · exact hpoll.pending.trans hsame.pending.symm
    · exact hpoll.active.trans hsame.active.symm
    · exact hpoll.coreReassembly.trans hsame.coreReassembly.symm
    · exact hpoll.geometryReassembly.trans hsame.geometryReassembly.symm
    · exact hpoll.geometryCache.trans hsame.geometryCache.symm
    · exact hpoll.reconfigureTimes.trans hsame.reconfigureTimes.symm
  · intro h
    refine ⟨fun e c₂ hrefused => ?_, handle_ready h⟩
    rw [pollControl_refused hflush hreceived hrefused]
    refine ⟨rfl, hsame.trans ?_⟩
    have hkept := (handle_kept_iff m).mpr h
    rw [hrefused] at hkept
    exact refusalKeeps_error_iff.mp hkept

end Poll

end Subscriber

namespace Sample

def confirmation (layoutId : UInt32) : ControlMessage trackingProtocol.toTrackingTypes :=
  .layoutConfirmed ⟨layoutId, .replicate 32 0⟩

/-- A connection that holds one message for the subscriber. -/
def holding (m : ControlMessage trackingProtocol.toTrackingTypes) : End :=
  ⟨[], [wireImage m], [], {}⟩

/-- A subscriber that has accepted the proposal of layout 7. -/
def waiting : Subscriber trackingProtocol where
  authorization := ⟨peer, linkSession, .subscriber⟩
  transportMode := .reliableLatestOnly
  config := {}
  remoteHello := true
  negotiator := some (7, trackingProposal.layout)
  pending := some trackingProposal
  active := none
  outbox := []
  coreReassembly := .new
  geometryReassembly := .new
  geometryCache := none
  report := {}
  previousAgeNs := none
  clock := {}
  reconfigureTimes := []
  rateLimited := 0

theorem receives_confirmation (layoutId : UInt32) :
    receiveControl endConnection waiting.config (holding (confirmation layoutId)) =
      (.ok (some (confirmation layoutId)), ⟨[], [], [], {}⟩) := by
  have hlength : (wireImage (confirmation layoutId)).length ≤ maxControlBytes := by
    have hbody : (messageImage (confirmation layoutId)).length = 36 := by
      show (beBytes 4 layoutId.toNat ++ (FixedBytes.replicate 32 0).bytes).length = 36
      rw [List.length_append, length_beBytes]
      rfl
    rw [wireImage, hbody, List.length_append, hbody]
    show (header 4 36).length+36 ≤ _
    decide
  have hdecode : ControlMessage.decode (wireImage (confirmation layoutId)) =
      .ok (confirmation layoutId) :=
    decode_wireImage trackingProtocol_codec trivial rfl hlength
  have hsize : (wireImage (confirmation layoutId)).length ≤ waiting.config.maxControlBytes :=
    hlength
  have hreceive : endConnection.receiveControl (holding (confirmation layoutId)) =
      (.ok (some (wireImage (confirmation layoutId))), ⟨[], [], [], {}⟩) := rfl
  simp only [receiveControl, hreceive, if_pos hsize, hdecode]

/-- The six calls until the subscriber has answered the proposal. -/
def proposedCalls : List (WorldCall trackingProtocol) := activationCalls.take 6

def failedHandshake {α : Type} : Except trackingProtocol.Failure α → Bool
  | .error (.handshake _) => true
  | _ => false

/-- The poll of a confirmation of another layout. -/
def discards (w : World trackingProtocol) : Bool :=
  let c := (RunHistory.run World.step w proposedCalls).subscriber
  let answer := c.pollControl endConnection (holding (confirmation 9)) 0 0
  c.pending.isSome && failedHandshake answer.1 && answer.2.1.pending.isNone

theorem discards_initialWorld : initialWorld.any discards = true := by decide +kernel

end Sample

/-- The confirmation of the layout that was accepted is not refused. -/
theorem sample_confirmation_is_kept :
    (Sample.waiting.handle 0 0 (Sample.confirmation 7)).1 = .ok .sessionReady ∧
    Sample.waiting.ReadyQueued (Sample.waiting.handle 0 0 (Sample.confirmation 7)).2 := by
  have hflush : Sample.waiting.flush endConnection (Sample.holding (Sample.confirmation 7)) =
      (.ok (), Sample.waiting, Sample.holding (Sample.confirmation 7)) := rfl
  have hroom : Sample.waiting.HasRoom (.sessionReady Sample.trackingSession 1 7) :=
    ⟨by decide, _, rfl, by decide⟩
  have hkept : Sample.waiting.LayoutKept 0 0 (Sample.confirmation 7) := by
    intro proposal hproposal
    obtain rfl := Option.some.inj hproposal
    exact ⟨_, _, _, rfl, rfl, hroom⟩
  have hiff := Subscriber.layout_rejection_is_atomic_iff endConnection 0 0 hflush
    (Sample.receives_confirmation 7)
  exact ⟨rfl, (hiff.mpr hkept).2⟩

/-- After a proposal the confirmation of another layout is refused, and the proposal is lost. -/
theorem wrong_confirmation_discards_proposal : ∃ w : World Sample.trackingProtocol, w.Initial ∧
    ∃ proposal e c₂ s₂,
      (RunHistory.run World.step w Sample.proposedCalls).subscriber.pending = some proposal ∧
      (RunHistory.run World.step w Sample.proposedCalls).subscriber.pollControl endConnection
        (Sample.holding (Sample.confirmation 9)) 0 0 = (.error (.handshake e), c₂, s₂) ∧
      c₂.pending = none ∧
      ¬(RunHistory.run World.step w Sample.proposedCalls).subscriber.SameLayout c₂ := by
  obtain ⟨w, hstart, hdiscards⟩ := (Option.any_eq_true ..).mp Sample.discards_initialWorld
  refine ⟨w, Sample.initial_of_initialWorld hstart, ?_⟩
  simp only [Sample.discards, Bool.and_eq_true] at hdiscards
  generalize (RunHistory.run World.step w Sample.proposedCalls).subscriber = c at hdiscards ⊢
  obtain ⟨⟨hpending, hfailed⟩, hnone⟩ := hdiscards
  obtain ⟨proposal, hproposal⟩ := Option.isSome_iff_exists.mp hpending
  rcases hpoll : c.pollControl endConnection (Sample.holding (Sample.confirmation 9)) 0 0 with
    ⟨answer, c₂, s₂⟩
  rw [hpoll] at hfailed hnone
  have hlost : c₂.pending = none := Option.isNone_iff_eq_none.mp hnone
  have herror : ∃ e, answer = .error (.handshake e) := by
    have hfailed : Sample.failedHandshake answer = true := hfailed
    cases answer with
    | ok event => cases hfailed
    | error failure =>
      cases failure with
      | handshake e => exact ⟨e, rfl⟩
      | _ => cases hfailed
  obtain ⟨e, rfl⟩ := herror
  refine ⟨proposal, e, c₂, s₂, hproposal, rfl, hlost, fun hsame => ?_⟩
  have hkept := hsame.pending.symm.trans hlost
  rw [hproposal] at hkept
  cases hkept

end MutsukiLink.Ntp
