import Mathlib.Data.List.Sort
import Mathlib.Order.Basic
import MutsukiLink.RunHistory
import MutsukiLink.SessionModel

/-! The order in which transports are attempted (`selection.rs`). -/
namespace MutsukiLink
open RunHistory

inductive SecurityLevel where
  | plaintext | authenticated | authenticatedEncrypted
deriving DecidableEq, Repr

/-- The derived order is the order of the declaration. -/
instance : LinearOrder SecurityLevel :=
  LinearOrder.lift' SecurityLevel.ctorIdx (by
    intro a b h
    cases a <;> cases b <;> first | rfl | cases h)

structure EndpointAddress where
  scheme : String
  address : String
deriving DecidableEq, Repr

structure TransportCandidate where
  kind : TransportKind
  endpoint : EndpointAddress
  priority : UInt16
  security : SecurityLevel
deriving DecidableEq, Repr

inductive AttemptFailure where
  | unreachable | timedOut | authenticationFailed | incompatible | resourceExhausted | cancelled
  | other
deriving DecidableEq, Repr

structure TransportAttempt where
  candidate : TransportCandidate
  failure : AttemptFailure
deriving DecidableEq, Repr

structure FallbackPolicy where
  minimumSecurity : SecurityLevel
  allowSecurityDowngrade : Bool
deriving DecidableEq, Repr

inductive SelectionError where
  | noCandidates
  | securityDowngrade (attempted candidate : SecurityLevel)
  | exhausted (failures : List TransportAttempt)
deriving DecidableEq, Repr

structure TransportSelection where
  selected : TransportCandidate
  quality : ConnectionQuality
  failures : List TransportAttempt
deriving DecidableEq, Repr

structure FallbackPlan where
  policy : FallbackPolicy
  pending : List TransportCandidate
  failures : List TransportAttempt
  strongestAttempted : Option SecurityLevel
deriving DecidableEq, Repr

namespace FallbackPlan

/-- `sort_by_key` is stable, as insertion sort is. -/
def new (candidates : List TransportCandidate) (policy : FallbackPolicy) :
    Except SelectionError FallbackPlan :=
  let candidates := candidates.filter fun candidate => policy.minimumSecurity ≤ candidate.security
  let candidates := candidates.insertionSort fun a b => a.priority ≤ b.priority
  if candidates = [] then .error .noCandidates
  else .ok { policy, pending := candidates, failures := [], strongestAttempted := none }

def nextCandidate (p : FallbackPlan) :
    Except SelectionError (Option TransportCandidate) × FallbackPlan :=
  match p.pending with
  | [] => (.ok none, p)
  | candidate :: pending =>
    -- The candidate is gone also when it is refused.
    let p := { p with pending }
    match p.strongestAttempted with
    | some strongest =>
      if candidate.security < strongest ∧ !p.policy.allowSecurityDowngrade then
        (.error (.securityDowngrade strongest candidate.security), p)
      else
        (.ok (some candidate),
          { p with strongestAttempted := some (max strongest candidate.security) })
    | none => (.ok (some candidate), { p with strongestAttempted := some candidate.security })

def recordFailure (p : FallbackPlan) (candidate : TransportCandidate) (failure : AttemptFailure) :
    FallbackPlan :=
  { p with failures := p.failures ++ [⟨candidate, failure⟩] }

def select (p : FallbackPlan) (selected : TransportCandidate) (quality : ConnectionQuality) :
    TransportSelection := ⟨selected, quality, p.failures⟩

def exhausted (p : FallbackPlan) : SelectionError := .exhausted p.failures

end FallbackPlan

section StableSort
variable {α κ : Type*} [LE κ] [DecidableEq κ]

/-- The list in the order of the keys, where elements with one key stay in the order they had. -/
structure StablySorted (key : α → κ) (list sorted : List α) : Prop where
  perm : sorted.Perm list
  ordered : sorted.Pairwise fun a b => key a ≤ key b
  stable : ∀ k, (sorted.filter fun a => key a = k) = list.filter fun a => key a = k

theorem stablySorted_insertionSort [DecidableLE κ] [Std.Total fun a b : κ => a ≤ b]
    [IsTrans κ fun a b => a ≤ b] (key : α → κ) (list : List α) :
    StablySorted key list (list.insertionSort fun a b => key a ≤ key b) := by
  have htotal : Std.Total fun a b : α => key a ≤ key b :=
    ⟨fun a b => Std.Total.total (r := fun a b : κ => a ≤ b) (key a) (key b)⟩
  have htrans : IsTrans α fun a b => key a ≤ key b :=
    ⟨fun a b c => IsTrans.trans (r := fun a b : κ => a ≤ b) (key a) (key b) (key c)⟩
  have hperm := List.perm_insertionSort (fun a b => key a ≤ key b) list
  refine ⟨hperm, List.pairwise_insertionSort _ list, ?_⟩
  intro k
  -- The elements with one key are sorted as they stand.
  have hclass : (list.filter fun a => key a = k).Pairwise fun a b => key a ≤ key b := by
    apply List.pairwise_of_forall_mem_list
    intro a ha b hb
    have hka : key a = k := by simpa using (List.mem_filter.mp ha).2
    have hkb : key b = k := by simpa using (List.mem_filter.mp hb).2
    rw [hka, hkb]
    exact (Std.Total.total (r := fun a b : κ => a ≤ b) k k).elim id id
  have hsub := (List.sublist_insertionSort hclass List.filter_sublist).filter fun a => key a = k
  rw [List.filter_filter] at hsub
  simp only [Bool.and_self] at hsub
  exact (hsub.eq_of_length (hperm.symm.filter _).length_eq).symm

end StableSort

inductive FallbackCall where
  | nextCandidate
  | recordFailure (candidate : TransportCandidate) (failure : AttemptFailure)
deriving DecidableEq, Repr

inductive FallbackReply where
  | candidate (result : Except SelectionError (Option TransportCandidate))
  | recorded

def FallbackReply.returned : FallbackReply → Option TransportCandidate
  | .candidate (.ok found) => found
  | _ => none

namespace FallbackPlan

def step (p : FallbackPlan) : FallbackCall → FallbackReply × FallbackPlan
  | .nextCandidate => (.candidate p.nextCandidate.1, p.nextCandidate.2)
  | .recordFailure candidate failure => (.recorded, p.recordFailure candidate failure)

abbrev PlanEvent := Event FallbackPlan FallbackCall FallbackReply

/-- The candidates that were returned, in order. -/
def returned (hist : List PlanEvent) : List TransportCandidate :=
  hist.filterMap fun e => FallbackReply.returned e.reply

/-- How often a candidate was asked for. -/
def asked (hist : List PlanEvent) : ℕ := hist.countP fun e => e.input = .nextCandidate

theorem returned_concat (hist : List PlanEvent) (e : PlanEvent) :
    returned (hist ++ [e]) = returned hist ++ (FallbackReply.returned e.reply).toList := by
  unfold returned
  rw [List.filterMap_append]
  cases h : FallbackReply.returned e.reply with
  | none => simp [h]
  | some candidate => simp [h]

/-- A candidate is refused when a stronger one was returned before and the policy does not allow
it. -/
def Refused (p : FallbackPlan) (candidate : TransportCandidate) : Prop :=
  p.policy.allowSecurityDowngrade = false ∧
    ∃ strongest, p.strongestAttempted = some strongest ∧ candidate.security < strongest

theorem nextCandidate_cases (p : FallbackPlan) :
    (p.pending = [] ∧ p.nextCandidate = (.ok none, p)) ∨
    ∃ candidate rest, p.pending = candidate :: rest ∧
      ((p.Refused candidate ∧ ∃ strongest, p.nextCandidate =
          (.error (.securityDowngrade strongest candidate.security), { p with pending := rest })) ∨
        (¬p.Refused candidate ∧ ∃ strongest,
          p.nextCandidate = (.ok (some candidate),
            { p with pending := rest, strongestAttempted := some strongest }) ∧
          ∀ level, level < strongest ↔ level < candidate.security ∨
            ∃ before, p.strongestAttempted = some before ∧ level < before)) := by
  unfold nextCandidate Refused
  cases hpending : p.pending with
  | nil => exact Or.inl ⟨rfl, rfl⟩
  | cons candidate rest =>
    refine Or.inr ⟨candidate, rest, rfl, ?_⟩
    cases hstrongest : p.strongestAttempted with
    | none => exact Or.inr ⟨by simp, candidate.security, rfl, by simp⟩
    | some strongest =>
      by_cases hrefused : candidate.security < strongest ∧ !p.policy.allowSecurityDowngrade
      · refine Or.inl ⟨⟨by simpa using hrefused.2, strongest, rfl, hrefused.1⟩, strongest, ?_⟩
        exact if_pos hrefused
      · refine Or.inr ⟨?_, max strongest candidate.security, if_neg hrefused, ?_⟩
        · rintro ⟨hallow, before, hbefore, hlt⟩
          obtain rfl := Option.some.inj hbefore
          exact hrefused ⟨hlt, by simp [hallow]⟩
        · intro level
          rw [lt_max_iff]
          simp [or_comm]

/-- What the plan has done with its candidates after a history of calls. -/
structure Progress (policy : FallbackPolicy) (sorted : List TransportCandidate)
    (hist : List PlanEvent) (p : FallbackPlan) : Prop where
  policy_eq : p.policy = policy
  pending_eq : p.pending = sorted.drop (asked hist)
  sublist : (returned hist).Sublist (sorted.take (asked hist))
  strongest : ∀ level, (∃ s, p.strongestAttempted = some s ∧ level < s) ↔
    ∃ c ∈ returned hist, level < c.security
  all : policy.allowSecurityDowngrade = true → returned hist = sorted.take (asked hist)
  rising : policy.allowSecurityDowngrade = false →
    (returned hist).Pairwise fun a b => a.security ≤ b.security

variable {policy : FallbackPolicy} {sorted : List TransportCandidate} {hist : List PlanEvent}
variable {p : FallbackPlan}

theorem Progress.refused_iff (h : Progress policy sorted hist p) (candidate : TransportCandidate) :
    p.Refused candidate ↔ policy.allowSecurityDowngrade = false ∧
      ∃ c ∈ returned hist, candidate.security < c.security := by
  unfold Refused
  rw [h.policy_eq, h.strongest]

/-- The next candidate is the one at the place that counts the calls so far. -/
theorem Progress.pending_cons (h : Progress policy sorted hist p) {candidate : TransportCandidate}
    {rest : List TransportCandidate} (hpending : p.pending = candidate :: rest) :
    sorted[asked hist]? = some candidate ∧ rest = sorted.drop (asked hist+1) := by
  have hdrop := h.pending_eq.symm.trans hpending
  constructor
  · rw [← List.head?_drop, hdrop]
    rfl
  · rw [← List.drop_drop, hdrop]
    rfl

/-- A call that returns no candidate. -/
theorem Progress.kept (h : Progress policy sorted hist p) {hist' : List PlanEvent}
    {p' : FallbackPlan} (hreturned : returned hist' = returned hist)
    (hpolicy : p'.policy = p.policy) (hstrongest : p'.strongestAttempted = p.strongestAttempted)
    (hpending : p'.pending = sorted.drop (asked hist')) (hasked : asked hist ≤ asked hist')
    (hall : policy.allowSecurityDowngrade = true →
      sorted.take (asked hist') = sorted.take (asked hist)) :
    Progress policy sorted hist' p' := by
  constructor
  · rw [hpolicy, h.policy_eq]
  · exact hpending
  · rw [hreturned]
    exact h.sublist.trans (List.take_sublist_take_left hasked)
  · rw [hreturned, hstrongest]
    exact h.strongest
  · intro hallow
    rw [hreturned, hall hallow, h.all hallow]
  · rw [hreturned]
    exact h.rising

/-- A call that returns the candidate at the place it has come to. -/
theorem Progress.took (h : Progress policy sorted hist p) {candidate : TransportCandidate}
    {hist' : List PlanEvent} {p' : FallbackPlan} {strongest : SecurityLevel}
    (htaken : ¬p.Refused candidate) (hplace : sorted[asked hist]? = some candidate)
    (hreturned : returned hist' = returned hist ++ [candidate])
    (hasked : asked hist' = asked hist+1) (hpolicy : p'.policy = p.policy)
    (hpending : p'.pending = sorted.drop (asked hist+1))
    (hattempted : p'.strongestAttempted = some strongest)
    (hstrongest : ∀ level, level < strongest ↔ level < candidate.security ∨
      ∃ before, p.strongestAttempted = some before ∧ level < before) :
    Progress policy sorted hist' p' := by
  have htake : sorted.take (asked hist+1) = sorted.take (asked hist) ++ [candidate] := by
    rw [List.take_add_one, hplace]
    rfl
  constructor
  · rw [hpolicy, h.policy_eq]
  · rw [hasked, hpending]
  · rw [hasked, hreturned, htake]
    exact h.sublist.append (List.Sublist.refl _)
  · intro level
    -- The new strongest level is above a level when the candidate or an earlier one is.
    rw [hreturned, hattempted]
    simp only [Option.some.injEq, exists_eq_left', hstrongest, h.strongest, List.mem_append,
      List.mem_singleton]
    constructor
    · rintro (hlt | ⟨c, hc, hlt⟩)
      · exact ⟨candidate, Or.inr rfl, hlt⟩
      · exact ⟨c, Or.inl hc, hlt⟩
    · rintro ⟨c, hc | rfl, hlt⟩
      · exact Or.inr ⟨c, hc, hlt⟩
      · exact Or.inl hlt
  · intro hallow
    rw [hasked, hreturned, htake, h.all hallow]
  · intro hallow
    rw [hreturned]
    refine List.pairwise_append.mpr ⟨h.rising hallow, List.pairwise_singleton _ _, ?_⟩
    intro c hc d hd
    obtain rfl := List.mem_singleton.mp hd
    -- Whoever is weaker than one returned before is refused.
    by_contra hlower
    exact htaken ((h.refused_iff d).mpr ⟨hallow, c, hc, not_le.mp hlower⟩)

theorem Progress.step (h : Progress policy sorted hist p) (call : FallbackCall) :
    Progress policy sorted (hist ++ [event FallbackPlan.step p call]) (p.step call).2 := by
  cases call with
  | recordFailure candidate failure =>
    have hasked : asked (hist ++ [event FallbackPlan.step p (.recordFailure candidate failure)]) =
        asked hist := by simp [asked, event]
    have hreturned :
        returned (hist ++ [event FallbackPlan.step p (.recordFailure candidate failure)]) =
          returned hist := by
      rw [returned_concat]
      exact List.append_nil _
    refine h.kept hreturned rfl rfl ?_ ?_ ?_
    · rw [hasked]
      exact h.pending_eq
    · rw [hasked]
    · intro _
      rw [hasked]
  | nextCandidate =>
    have hasked : asked (hist ++ [event FallbackPlan.step p .nextCandidate]) = asked hist+1 := by
      simp [asked, event]
    have hreturned : returned (hist ++ [event FallbackPlan.step p .nextCandidate]) =
        returned hist ++ (FallbackReply.returned (.candidate p.nextCandidate.1)).toList :=
      returned_concat hist _
    rw [show (p.step .nextCandidate).2 = p.nextCandidate.2 from rfl]
    rcases nextCandidate_cases p with ⟨hempty, hnext⟩ | ⟨candidate, rest, hpending, hnext⟩
    · -- Beyond the end nothing is taken any more.
      have hlength : sorted.length ≤ asked hist := by
        rw [← List.drop_eq_nil_iff, ← h.pending_eq, hempty]
      rw [hnext] at hreturned ⊢
      refine h.kept (hreturned.trans (List.append_nil _)) rfl rfl ?_ ?_ ?_
      · rw [hasked, hempty, List.drop_of_length_le (by omega)]
      · omega
      · intro _
        rw [hasked, List.take_of_length_le hlength, List.take_of_length_le (by omega)]
    · obtain ⟨hplace, hrest⟩ := h.pending_cons hpending
      rcases hnext with ⟨hrefused, strongest, hnext⟩ | ⟨htaken, strongest, hnext, hstrongest⟩
      -- A refused candidate counts as asked for, and a policy that allows all refuses none.
      · rw [hnext] at hreturned ⊢
        refine h.kept (hreturned.trans (List.append_nil _)) rfl rfl ?_ ?_ ?_
        · rw [hasked]
          exact hrest
        · omega
        · intro hallow
          have hforbidden := ((h.refused_iff candidate).mp hrefused).1
          rw [hallow] at hforbidden
          cases hforbidden
      · rw [hnext] at hreturned ⊢
        exact h.took htaken hplace hreturned hasked rfl hrest rfl hstrongest

theorem progress_run {candidates : List TransportCandidate}
    (hnew : new candidates policy = .ok p) (calls : List FallbackCall) :
    Progress policy ((candidates.filter fun c => policy.minimumSecurity ≤ c.security).insertionSort
      fun a b => a.priority ≤ b.priority) (trace FallbackPlan.step p calls)
      (run FallbackPlan.step p calls) := by
  have hp : p = ⟨policy, (candidates.filter fun c =>
      policy.minimumSecurity ≤ c.security).insertionSort fun a b => a.priority ≤ b.priority,
      [], none⟩ := by
    unfold new at hnew
    dsimp only at hnew
    split at hnew
    · cases hnew
    · exact (Except.ok.inj hnew).symm
  subst hp
  refine run_history FallbackPlan.step ?_ (fun hist p call h => h.step call) calls
  constructor
  · rfl
  · rfl
  · exact List.nil_sublist _
  · intro level
    simp [returned]
  · intro _
    rfl
  · intro _
    exact List.Pairwise.nil

/-- The answer to the next call, by the place it has come to. -/
theorem Progress.answer (h : Progress policy sorted hist p) :
    (sorted[asked hist]? = none → p.nextCandidate.1 = .ok none) ∧
    (p.nextCandidate.1 = .ok none → sorted.length ≤ asked hist) ∧
    ∀ candidate, sorted[asked hist]? = some candidate →
      (p.Refused candidate ∧ ∃ attempted,
        p.nextCandidate.1 = .error (.securityDowngrade attempted candidate.security)) ∨
      (¬p.Refused candidate ∧ p.nextCandidate.1 = .ok (some candidate)) := by
  rcases nextCandidate_cases p with ⟨hempty, hnext⟩ | ⟨candidate, rest, hpending, hnext⟩
  · have hlength : sorted.length ≤ asked hist := by
      rw [← List.drop_eq_nil_iff, ← h.pending_eq, hempty]
    rw [hnext]
    refine ⟨fun _ => rfl, fun _ => hlength, ?_⟩
    intro candidate hplace
    rw [List.getElem?_eq_none hlength] at hplace
    cases hplace
  · obtain ⟨hplace, -⟩ := h.pending_cons hpending
    refine ⟨?_, ?_, ?_⟩
    · intro hnone
      rw [hplace] at hnone
      cases hnone
    · intro hnone
      rcases hnext with ⟨-, strongest, hnext⟩ | ⟨-, strongest, hnext, -⟩
      · rw [hnext] at hnone
        cases hnone
      · rw [hnext] at hnone
        cases hnone
    · intro other hother
      obtain rfl := Option.some.inj (hplace.symm.trans hother)
      rcases hnext with ⟨hrefused, strongest, hnext⟩ | ⟨htaken, strongest, hnext, -⟩
      · exact Or.inl ⟨hrefused, strongest, congrArg Prod.fst hnext⟩
      · exact Or.inr ⟨htaken, congrArg Prod.fst hnext⟩

/-- The candidates come in the stable order of their priorities, each place once. A candidate is
skipped exactly when downgrades are not allowed and a stronger one was returned before it. -/
theorem fallback_never_downgrades {candidates : List TransportCandidate}
    (hnew : new candidates policy = .ok p) :
    ∃ sorted, StablySorted TransportCandidate.priority
        (candidates.filter fun c => policy.minimumSecurity ≤ c.security) sorted ∧
      ∀ calls,
        (returned (trace FallbackPlan.step p calls)).Sublist sorted ∧
        (policy.allowSecurityDowngrade = false →
          (returned (trace FallbackPlan.step p calls)).Pairwise
            fun a b => a.security ≤ b.security) ∧
        ∀ before e after, trace FallbackPlan.step p calls = before ++ e :: after →
          e.input = .nextCandidate →
          (sorted[asked before]? = none → e.reply = .candidate (.ok none)) ∧
          (∀ c, sorted[asked before]? = some c →
            if policy.allowSecurityDowngrade = false ∧
                ∃ r ∈ returned before, c.security < r.security then
              ∃ attempted, e.reply = .candidate (.error (.securityDowngrade attempted c.security))
            else e.reply = .candidate (.ok (some c))) ∧
          (policy.allowSecurityDowngrade = true → e.reply = .candidate (.ok none) →
            returned before = sorted) := by
  refine ⟨_, stablySorted_insertionSort TransportCandidate.priority _, ?_⟩
  intro calls
  have hprogress := progress_run hnew calls
  refine ⟨hprogress.sublist.trans (List.take_sublist _ _), hprogress.rising, ?_⟩
  intro before e after hsplit hinput
  obtain ⟨js, call, ks, rfl, rfl, rfl, -⟩ := trace_cut FallbackPlan.step hsplit
  obtain rfl : call = .nextCandidate := hinput
  -- The answer depends on the history through the state of the plan before the call.
  have hbefore := progress_run hnew js
  obtain ⟨hnone, hend, hsome⟩ := hbefore.answer
  refine ⟨fun hplace => congrArg FallbackReply.candidate (hnone hplace), ?_, ?_⟩
  · intro c hplace
    rcases hsome c hplace with ⟨hrefused, attempted, hanswer⟩ | ⟨htaken, hanswer⟩
    · rw [if_pos ((hbefore.refused_iff c).mp hrefused)]
      exact ⟨attempted, congrArg FallbackReply.candidate hanswer⟩
    · rw [if_neg (mt (hbefore.refused_iff c).mpr htaken)]
      exact congrArg FallbackReply.candidate hanswer
  · intro hallow hreply
    have hlength := hend (FallbackReply.candidate.inj hreply)
    rw [hbefore.all hallow, List.take_of_length_le hlength]

/-- An encrypted candidate is not followed by a plaintext one. -/
theorem fallback_never_downgrades_encrypted :
    ∃ p, new [⟨.tcp, ⟨"test", "1"⟩, 1, .plaintext⟩,
        ⟨.quic, ⟨"test", "0"⟩, 0, .authenticatedEncrypted⟩] ⟨.plaintext, false⟩ = .ok p ∧
      (returned (trace FallbackPlan.step p [.nextCandidate, .nextCandidate])).Pairwise
        fun a b => a.security ≤ b.security := by
  obtain ⟨p, hnew⟩ : ∃ p, new [⟨.tcp, ⟨"test", "1"⟩, 1, .plaintext⟩,
      ⟨.quic, ⟨"test", "0"⟩, 0, .authenticatedEncrypted⟩] ⟨.plaintext, false⟩ = .ok p := ⟨_, rfl⟩
  obtain ⟨sorted, -, hruns⟩ := fallback_never_downgrades hnew
  exact ⟨p, hnew, (hruns [.nextCandidate, .nextCandidate]).2.1 rfl⟩

end FallbackPlan
end MutsukiLink
