import Mathlib.Data.List.DropRight
import Mathlib.Data.List.Nodup
import MutsukiLink.PairingModel
import MutsukiLink.RunHistory

/-! The replay guard of the pairing ceremony (`ceremony.rs`). It knows the hashes of the challenges
that were accepted last, as a queue and as a set that are emptied in step. -/
namespace MutsukiLink
open WireBytes RunHistory
open Std (ExtTreeSet)

structure ReplayGuard where
  capacity : ℕ
  order : List (FixedBytes 32)
  challenges : ExtTreeSet (FixedBytes 32)

namespace ReplayGuard

def new (capacity : ℕ) : Except PairingError ReplayGuard :=
  if capacity = 0 then .error ⟨.invalidInput, "replay guard capacity must be positive"⟩
  else .ok ⟨capacity, [], ∅⟩

def reserve (sha256 : Bytes → FixedBytes 32) (g : ReplayGuard) (challenge : FixedBytes 32) :
    Except PairingError (FixedBytes 32) × ReplayGuard :=
  let hash := sha256 challenge.bytes
  if g.challenges.contains hash then
    (.error ⟨.replayDetected, "pairing challenge was already used"⟩, g)
  else
    let order := g.order ++ [hash]
    let challenges := g.challenges.insert hash
    match order with
    | expired :: rest =>
      if g.capacity < order.length then
        (.ok hash, { g with order := rest, challenges := challenges.erase expired })
      else (.ok hash, { g with order, challenges })
    | [] => (.ok hash, { g with order, challenges })

/-- The queue and the set hold the same hashes, each once, and no more than there is room for. -/
structure InStep (g : ReplayGuard) : Prop where
  same : ∀ hash, hash ∈ g.challenges ↔ hash ∈ g.order
  nodup : g.order.Nodup
  bounded : g.order.length ≤ g.capacity

theorem inStep_new {capacity : ℕ} {g : ReplayGuard} (h : new capacity = .ok g) :
    g.InStep ∧ g.order = [] ∧ g.capacity = capacity ∧ 0 < capacity := by
  unfold new at h
  split at h
  · cases h
  next hcapacity =>
  obtain rfl := Except.ok.inj h
  exact ⟨⟨fun hash => by simp, List.nodup_nil, Nat.zero_le _⟩, rfl, rfl,
    Nat.pos_of_ne_zero hcapacity⟩

section Reserve
variable {sha256 : Bytes → FixedBytes 32} {g : ReplayGuard} {challenge : FixedBytes 32}

theorem reserve_known (h : sha256 challenge.bytes ∈ g.challenges) :
    g.reserve sha256 challenge =
      (.error ⟨.replayDetected, "pairing challenge was already used"⟩, g) := by
  rw [reserve, if_pos (ExtTreeSet.mem_iff_contains.mp h)]

/-- An unknown challenge is accepted. The queue keeps its last hashes, and the set still holds the
same. -/
theorem reserve_fresh (hg : g.InStep) (h : sha256 challenge.bytes ∉ g.challenges) :
    (g.reserve sha256 challenge).1 = .ok (sha256 challenge.bytes) ∧
      (g.reserve sha256 challenge).2.InStep ∧
      (g.reserve sha256 challenge).2.capacity = g.capacity ∧
      (g.reserve sha256 challenge).2.order =
        (g.order ++ [sha256 challenge.bytes]).rtake g.capacity := by
  have hfresh : sha256 challenge.bytes ∉ g.order := fun hmem => h ((hg.same _).mpr hmem)
  have hnodup : (g.order ++ [sha256 challenge.bytes]).Nodup := by
    rw [← List.concat_eq_append]
    exact hg.nodup.concat hfresh
  have hinsert (hash : FixedBytes 32) : hash ∈ g.challenges.insert (sha256 challenge.bytes) ↔
      hash ∈ g.order ++ [sha256 challenge.bytes] := by
    rw [ExtTreeSet.mem_insert, hg.same, List.mem_append, List.mem_singleton,
      Std.LawfulEqCmp.compare_eq_iff_eq, or_comm, eq_comm]
  have hlength := hg.bounded
  rw [reserve, if_neg (fun hmem => h (ExtTreeSet.mem_iff_contains.mpr hmem))]
  simp only
  -- The front of the longer queue is never missing: the hash has just been appended.
  generalize horder : g.order ++ [sha256 challenge.bytes] = order at hnodup hinsert ⊢
  have hsize : order.length = g.order.length+1 := by
    rw [← horder, List.length_append, List.length_singleton]
  cases order with
  | nil => cases hsize
  | cons expired rest =>
    simp only
    split
    -- One more than there is room for: the oldest hash leaves both.
    · next hfull =>
      obtain ⟨hexpired, hrest⟩ := List.nodup_cons.mp hnodup
      refine ⟨rfl, ⟨fun hash => ?_, hrest, ?_⟩, rfl, ?_⟩
      · -- The hash that leaves the queue leaves the set, and no other does.
        rw [ExtTreeSet.mem_erase, hinsert, List.mem_cons, ne_eq,
          Std.LawfulEqCmp.compare_eq_iff_eq]
        constructor
        · rintro ⟨hne, rfl | hmem⟩
          · exact absurd rfl hne
          · exact hmem
        · intro hmem
          exact ⟨fun heq => hexpired (heq ▸ hmem), .inr hmem⟩
      · have hrest : rest.length = g.order.length := by
          rw [List.length_cons] at hsize
          omega
        exact hrest.trans_le hlength
      · have hdrop : (expired :: rest).length-g.capacity = 1 := by omega
        rw [List.rtake, hdrop]
        rfl
    · next hroom =>
      have hdrop : (expired :: rest).length-g.capacity = 0 := by omega
      refine ⟨rfl, ⟨hinsert, hnodup, not_lt.mp hroom⟩, rfl, ?_⟩
      rw [List.rtake, hdrop]
      rfl

end Reserve

section Window

/-- One call of `reserve`, with the guard before and after it. -/
abbrev Reserved := Event ReplayGuard (FixedBytes 32) (Except PairingError (FixedBytes 32))

/-- The challenges accepted in a history, in order. -/
def accepted (hist : List Reserved) : List (FixedBytes 32) :=
  hist.filterMap fun e => if e.reply.toBool then some e.input else none

variable {sha256 : Bytes → FixedBytes 32} {g : ReplayGuard} {capacity : ℕ} {hist : List Reserved}

/-- The guard knows the hashes of the challenges accepted last. -/
structure Remembers (sha256 : Bytes → FixedBytes 32) (capacity : ℕ) (hist : List Reserved)
    (g : ReplayGuard) : Prop where
  inStep : g.InStep
  capacity_eq : g.capacity = capacity
  order_eq : g.order = ((accepted hist).rtake capacity).map fun c => sha256 c.bytes

theorem accepted_concat (hist : List Reserved) (e : Reserved) :
    accepted (hist ++ [e]) =
      accepted hist ++ (if e.reply.toBool then [e.input] else []) := by
  rw [accepted, List.filterMap_append, accepted]
  cases h : e.reply.toBool <;> simp [h]

theorem rtake_map {α β : Type*} (f : α → β) (l : List α) (n : ℕ) :
    (l.map f).rtake n = (l.rtake n).map f := by
  rw [List.rtake, List.rtake, List.length_map, List.map_drop]

theorem rtake_rtake_concat {α : Type*} (l : List α) (a : α) {n : ℕ} (hn : 0 < n) :
    (l.rtake n ++ [a]).rtake n = (l ++ [a]).rtake n := by
  obtain ⟨m, rfl⟩ := Nat.exists_eq_add_one.mpr hn
  rw [List.rtake_concat_succ, List.rtake_concat_succ]
  congr 1
  rw [List.rtake, List.rtake, List.rtake, List.length_drop, List.drop_drop]
  congr 1
  omega

theorem Remembers.step (h : Remembers sha256 capacity hist g) (hpos : 0 < capacity)
    (challenge : FixedBytes 32) :
    Remembers sha256 capacity (hist ++ [event (reserve sha256) g challenge])
      (g.reserve sha256 challenge).2 := by
  have haccepted : accepted (hist ++ [event (reserve sha256) g challenge]) =
      accepted hist ++ (if (g.reserve sha256 challenge).1.toBool then [challenge] else []) :=
    accepted_concat _ _
  by_cases hknown : sha256 challenge.bytes ∈ g.challenges
  · have hreserve := reserve_known hknown
    rw [hreserve, show (Except.toBool (Except.error _ : Except PairingError _)) = false from rfl,
      if_neg Bool.false_ne_true, List.append_nil] at haccepted
    rw [hreserve]
    exact ⟨h.inStep, h.capacity_eq, haccepted ▸ h.order_eq⟩
  · obtain ⟨hok, hinStep, hcapacity, horder⟩ := reserve_fresh h.inStep hknown
    rw [hok, show (Except.toBool (Except.ok _ : Except PairingError _)) = true from rfl,
      if_pos rfl] at haccepted
    refine ⟨hinStep, hcapacity.trans h.capacity_eq, ?_⟩
    rw [horder, h.order_eq, h.capacity_eq, haccepted, ← rtake_map, ← rtake_map, List.map_append]
    exact rtake_rtake_concat _ _ hpos

theorem remembers_run (sha256 : Bytes → FixedBytes 32) (h : new capacity = .ok g)
    (challenges : List (FixedBytes 32)) : Remembers sha256 capacity
      (trace (reserve sha256) g challenges) (run (reserve sha256) g challenges) := by
  obtain ⟨hinStep, horder, hcapacity, hpos⟩ := inStep_new h
  refine run_history (reserve sha256) ⟨hinStep, hcapacity, ?_⟩
    (fun hist g challenge hg => hg.step hpos challenge) challenges
  rw [horder, accepted, List.filterMap_nil, List.rtake_nil, List.map_nil]

theorem mem_of_accepted {g : ReplayGuard} {challenges : List (FixedBytes 32)}
    {challenge : FixedBytes 32}
    (h : challenge ∈ (accepted (trace (reserve sha256) g challenges)).rtake capacity) :
    challenge ∈ challenges := by
  obtain ⟨e, he, heq⟩ := List.mem_filterMap.mp (List.mem_of_mem_drop h)
  split at heq
  · obtain rfl := Option.some.inj heq
    rw [← map_input_trace (reserve sha256) g challenges]
    exact List.mem_map_of_mem he
  · cases heq

/-- What a guard of a positive capacity is for: it accepts a challenge exactly when it is not among
the last accepted ones, and a challenge that it rejects leaves no trace. -/
theorem reserve_refuses_recent (sha256 : Bytes → FixedBytes 32) {capacity : ℕ} {g : ReplayGuard}
    (h : new capacity = .ok g) (challenges : List (FixedBytes 32))
    (hinj : Set.InjOn (fun c : FixedBytes 32 => sha256 c.bytes) {c | c ∈ challenges}) :
    (run (reserve sha256) g challenges).InStep ∧
      (run (reserve sha256) g challenges).capacity = capacity ∧
    ∀ before e after, trace (reserve sha256) g challenges = before ++ e :: after →
      ((∃ hash, e.reply = .ok hash) ↔ e.input ∉ (accepted before).rtake capacity) ∧
      (∀ error, e.reply = .error error → e.post = e.pre) ∧
      e.post.InStep ∧ e.post.capacity = capacity := by
  have hrun := remembers_run sha256 h challenges
  refine ⟨hrun.inStep, hrun.capacity_eq, fun before e after hsplit => ?_⟩
  obtain ⟨js, challenge, ks, rfl, rfl, rfl, -⟩ := trace_cut _ hsplit
  have hbefore := remembers_run sha256 h js
  have hpos : 0 < capacity := (inStep_new h).2.2.2
  have hafter := hbefore.step hpos challenge
  -- The hash is known exactly when the challenge is, because no two challenges share one.
  have hknown : sha256 challenge.bytes ∈ (run (reserve sha256) g js).challenges ↔
      challenge ∈ (accepted (trace (reserve sha256) g js)).rtake capacity := by
    rw [hbefore.inStep.same, hbefore.order_eq, List.mem_map]
    constructor
    · rintro ⟨c, hc, heq⟩
      have hmem : c ∈ js ++ challenge :: ks := List.mem_append_left _ (mem_of_accepted hc)
      have hlast : challenge ∈ js ++ challenge :: ks :=
        List.mem_append_right _ List.mem_cons_self
      exact hinj hmem hlast heq ▸ hc
    · intro hmem
      exact ⟨challenge, hmem, rfl⟩
  refine ⟨Iff.trans ?_ (not_congr hknown), ?_, hafter.inStep, hafter.capacity_eq⟩
  · by_cases hmem : sha256 challenge.bytes ∈ (run (reserve sha256) g js).challenges
    · rw [event, reserve_known hmem]
      exact iff_of_false nofun (not_not.mpr hmem)
    · have hok := (reserve_fresh hbefore.inStep hmem).1
      exact iff_of_true ⟨_, hok⟩ hmem
  · intro error herror
    by_cases hmem : sha256 challenge.bytes ∈ (run (reserve sha256) g js).challenges
    · rw [event, reserve_known hmem]
    · have hok := (reserve_fresh hbefore.inStep hmem).1
      cases hok.symm.trans herror

end Window

end ReplayGuard

namespace Sample

/-- The digests of two challenges. -/
def challengeDigest (bytes : Bytes) : FixedBytes 32 :=
  if bytes = List.replicate 32 1 then
    ⟨[114, 205, 110, 132, 34, 196, 7, 251, 109, 9, 134, 144, 241, 19, 11, 125, 237, 126, 194, 247,
      245, 225, 211, 11, 217, 213, 33, 240, 21, 54, 55, 147], rfl⟩
  else
    ⟨[117, 135, 123, 180, 29, 57, 59, 95, 184, 69, 92, 230, 14, 205, 141, 218, 0, 29, 6, 49, 100,
      150, 177, 77, 250, 127, 137, 86, 86, 238, 202, 74], rfl⟩

/-- A challenge that comes back after another one. -/
def returningChallenges : List (FixedBytes 32) :=
  [.replicate 32 1, .replicate 32 2, .replicate 32 1]

end Sample

namespace ReplayGuard

/-- A guard for one challenge refuses it at once and takes it again after another one. -/
theorem sample_guard_forgets :
    (run (reserve Sample.challengeDigest) ⟨1, [], ∅⟩ Sample.returningChallenges).InStep ∧
      accepted (trace (reserve Sample.challengeDigest) ⟨1, [], ∅⟩ Sample.returningChallenges) =
        Sample.returningChallenges := by
  have hinj : Set.InjOn (fun c : FixedBytes 32 => Sample.challengeDigest c.bytes)
      {c | c ∈ Sample.returningChallenges} := by
    intro a ha b hb hab
    replace ha : a ∈ Sample.returningChallenges := ha
    replace hb : b ∈ Sample.returningChallenges := hb
    simp only [Sample.returningChallenges, List.mem_cons, List.not_mem_nil, or_false] at ha hb
    rcases ha with rfl | rfl | rfl <;> rcases hb with rfl | rfl | rfl <;> revert hab <;> decide
  have hnew : new 1 = .ok ⟨1, [], ∅⟩ := rfl
  exact ⟨(reserve_refuses_recent Sample.challengeDigest hnew _ hinj).1, by decide +kernel⟩

end ReplayGuard

end MutsukiLink
