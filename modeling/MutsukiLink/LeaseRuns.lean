import MutsukiLink.EndpointLeases

/-! Runs of calls on one directory of leases. What the calls say should be known of each identifier
is kept beside the files, and the files tell the same exactly as long as no call touches the file of
another identifier's lease and every instance is a clean line. -/
namespace MutsukiLink
open RunHistory TextLines
open Std (ExtTreeMap)

namespace EndpointLease
variable {directory : Directory} {appId other : AppId}

theorem leasePath_ne_pendingPath (a b : AppId) : leasePath a ≠ pendingPath b := by
  intro h
  have hlast := congrArg (fun s => s.toList.getLast?) h
  simp only [leasePath, pendingPath, String.toList_append, List.getLast?_append] at hlast
  cases hlast

/-- A created lease replaces the file of its name. -/
theorem read_create (directory : Directory) (appId : AppId) (instanceId : String) (pid : UInt32)
    (nowUnixMs : UInt64) (other : AppId) :
    read (create directory appId instanceId pid nowUnixMs).2 other =
      if leasePath appId = leasePath other then
        parse other (create directory appId instanceId pid nowUnixMs).1.payload
      else read directory other := by
  have hpending : pendingPath appId ≠ leasePath other := (leasePath_ne_pendingPath other appId).symm
  simp only [read, create, OrderedMap.lookup_insert, OrderedMap.lookup_erase, if_neg hpending]
  split <;> rfl

theorem read_clear (lease : EndpointLease) (directory : Directory) (other : AppId) :
    read (lease.clear directory) other =
      if leasePath lease.appId = leasePath other then none else read directory other := by
  simp only [read, clear, OrderedMap.lookup_erase, lease.path_eq]
  split <;> rfl

/-- A file is read for one identifier only. -/
theorem read_unique {lease : EndpointLease} (h : read directory appId = some lease)
    (hpath : leasePath appId = leasePath other) (hne : other ≠ appId) :
    read directory other = none := by
  obtain ⟨payload, hfile, hparse⟩ := Option.bind_eq_some_iff.mp h
  rw [read, ← hpath, hfile, Option.bind_some]
  exact parse_other (parse_name hparse).2 hne

theorem appId_of_read {lease : EndpointLease} (h : read directory appId = some lease) :
    lease.appId = appId := by
  obtain ⟨payload, -, hparse⟩ := Option.bind_eq_some_iff.mp h
  exact (parse_name hparse).1

/-- Reclaiming takes back the lease of an identifier if its process is gone, and touches no other
lease, because a file names one identifier only. -/
theorem read_reclaim (directory : Directory) (appId : AppId) (processExists : UInt32 → Bool)
    (other : AppId) : read (reclaimStaleLease directory appId processExists).2 other =
      if other = appId then (read directory appId).filter fun lease => !lease.isStale processExists
      else read directory other := by
  unfold reclaimStaleLease
  cases hread : read directory appId with
  | none =>
    simp only [Option.filter_none]
    split
    · next heq => rw [heq, hread]
    · rfl
  | some lease =>
    by_cases hstale : lease.isStale processExists = true
    · simp only [if_pos hstale]
      rw [read_clear, appId_of_read hread]
      by_cases heq : other = appId
      · subst heq
        simp [Option.filter, hstale]
      · rw [if_neg heq]
        -- The file that is removed had no lease for another identifier.
        by_cases hpath : leasePath appId = leasePath other
        · rw [if_pos hpath, read_unique hread hpath heq]
        · rw [if_neg hpath]
    · simp only [if_neg hstale]
      -- The process still runs, and nothing is removed.
      by_cases heq : other = appId
      · subst heq
        simp [Option.filter, hstale, hread]
      · rw [if_neg heq]

theorem head?_lines_payload (lease : EndpointLease) :
    (lines lease.payload).head? = some lease.appId.value.toList := by
  rw [lines_payload, List.head?_cons]

end EndpointLease

/-- The files, and the lease that was created last for each identifier and not taken back. -/
structure LeaseWorld where
  files : Directory
  known : AppId → Option EndpointLease

inductive LeaseCall where
  | create (appId : AppId) (instanceId : String) (pid : UInt32) (nowUnixMs : UInt64)
  | clear (lease : EndpointLease)
  | reclaim (appId : AppId) (processExists : UInt32 → Bool)

/-- The identifier whose lease a call is about. -/
def LeaseCall.subject : LeaseCall → AppId
  | create appId _ _ _ => appId
  | clear lease => lease.appId
  | reclaim appId _ => appId

namespace LeaseWorld

def empty : LeaseWorld := ⟨∅, fun _ => none⟩

/-- What a call leaves to be known of its subject. -/
def recorded (w : LeaseWorld) : LeaseCall → Option EndpointLease
  | .create appId instanceId pid nowUnixMs =>
    some (EndpointLease.create w.files appId instanceId pid nowUnixMs).1
  | .clear _ => none
  | .reclaim appId processExists =>
    (w.known appId).filter fun lease => !lease.isStale processExists

def changed (w : LeaseWorld) : LeaseCall → Directory
  | .create appId instanceId pid nowUnixMs =>
    (EndpointLease.create w.files appId instanceId pid nowUnixMs).2
  | .clear lease => lease.clear w.files
  | .reclaim appId processExists => (reclaimStaleLease w.files appId processExists).2

def step (w : LeaseWorld) (call : LeaseCall) : Unit × LeaseWorld :=
  ((), ⟨w.changed call, Function.update w.known call.subject (w.recorded call)⟩)

/-- The files tell of every identifier what is known. -/
def Faithful (w : LeaseWorld) : Prop :=
  ∀ appId, EndpointLease.read w.files appId = w.known appId

/-- No other identifier with the same file has a lease. -/
def Alone (w : LeaseWorld) (appId : AppId) : Prop :=
  ∀ other, other ≠ appId → leasePath appId = leasePath other → w.known other = none

/-- The calls that keep the files faithful. -/
def Safe (w : LeaseWorld) : LeaseCall → Prop
  | .create appId instanceId _ _ => Clean instanceId.toList ∧ w.Alone appId
  | .clear lease => w.Alone lease.appId
  | .reclaim _ _ => True

variable {w : LeaseWorld}

theorem known_subject (w : LeaseWorld) (call : LeaseCall) :
    (w.step call).2.known call.subject = w.recorded call := Function.update_self ..

theorem known_other (w : LeaseWorld) (call : LeaseCall) {appId : AppId}
    (h : appId ≠ call.subject) : (w.step call).2.known appId = w.known appId :=
  Function.update_of_ne h ..

theorem faithful_step_iff (w : LeaseWorld) (call : LeaseCall) : (w.step call).2.Faithful ↔
    EndpointLease.read (w.changed call) call.subject = w.recorded call ∧
      ∀ other, other ≠ call.subject →
        EndpointLease.read (w.changed call) other = w.known other := by
  constructor
  · intro h
    exact ⟨(h _).trans (known_subject w call),
      fun other hne => (h other).trans (known_other w call hne)⟩
  · rintro ⟨hself, hothers⟩ other
    by_cases heq : other = call.subject
    · subst heq
      exact hself.trans (known_subject w call).symm
    · exact (hothers other heq).trans (known_other w call heq).symm

/-- A call that takes the file of its subject from all others leaves them faithful exactly when
they have nothing to lose. -/
theorem others_faithful_iff (h : w.Faithful) {files : Directory} {appId : AppId}
    (hread : ∀ other, other ≠ appId → EndpointLease.read files other =
      if leasePath appId = leasePath other then none else EndpointLease.read w.files other) :
    (∀ other, other ≠ appId → EndpointLease.read files other = w.known other) ↔
      w.Alone appId := by
  refine forall₂_congr fun other hne => ?_
  rw [hread other hne]
  by_cases hpath : leasePath appId = leasePath other
  · rw [if_pos hpath, imp_iff_right hpath]
    exact eq_comm
  · rw [if_neg hpath]
    exact iff_of_true (h other) fun hshared => absurd hshared hpath

theorem create_faithful_iff (h : w.Faithful) (appId : AppId) (instanceId : String) (pid : UInt32)
    (nowUnixMs : UInt64) : (w.step (.create appId instanceId pid nowUnixMs)).2.Faithful ↔
      w.Safe (.create appId instanceId pid nowUnixMs) := by
  have hread := EndpointLease.read_create w.files appId instanceId pid nowUnixMs
  have hname := EndpointLease.head?_lines_payload
    (EndpointLease.create w.files appId instanceId pid nowUnixMs).1
  rw [faithful_step_iff]
  refine and_congr ?_ (others_faithful_iff h fun other hne => ?_)
  -- The subject reads its own text, which is right exactly when the instance is a clean line.
  · refine Iff.trans ?_ (EndpointLease.parse_payload_iff
      (EndpointLease.create w.files appId instanceId pid nowUnixMs).1)
    refine iff_of_eq (congrArg (· = _) ?_)
    exact (hread appId).trans (if_pos rfl)
  · -- Whoever shares the file finds another name on its first line.
    rw [← EndpointLease.parse_other hname hne]
    exact hread other

theorem clear_faithful_iff (h : w.Faithful) (lease : EndpointLease) :
    (w.step (.clear lease)).2.Faithful ↔ w.Safe (.clear lease) := by
  have hread := EndpointLease.read_clear lease w.files
  rw [faithful_step_iff]
  refine Iff.trans (and_iff_right ?_) (others_faithful_iff h fun other _ => hread other)
  exact (hread lease.appId).trans (if_pos rfl)

theorem reclaim_faithful (h : w.Faithful) (appId : AppId) (processExists : UInt32 → Bool) :
    (w.step (.reclaim appId processExists)).2.Faithful := by
  have hread := EndpointLease.read_reclaim w.files appId processExists
  rw [faithful_step_iff]
  refine ⟨?_, fun other hne => ?_⟩
  · refine ((hread appId).trans (if_pos rfl)).trans ?_
    rw [h appId]
    rfl
  · exact ((hread other).trans (if_neg hne)).trans (h other)

theorem step_faithful_iff (h : w.Faithful) (call : LeaseCall) :
    (w.step call).2.Faithful ↔ w.Safe call := by
  cases call with
  | create appId instanceId pid nowUnixMs =>
    exact create_faithful_iff h appId instanceId pid nowUnixMs
  | clear lease => exact clear_faithful_iff h lease
  | reclaim appId processExists =>
    exact iff_of_true (reclaim_faithful h appId processExists) trivial

/-- In every state of a run each lease is read back as it was created last, or not at all if there
was none or it was taken back, and no call changes what is read for another identifier. -/
def LeasesReadBack (calls : List LeaseCall) : Prop :=
  ∀ e ∈ trace step empty calls, e.post.Faithful ∧
    ∀ other, other ≠ e.input.subject →
      EndpointLease.read e.post.files other = EndpointLease.read e.pre.files other

theorem faithful_empty : empty.Faithful := by
  intro appId
  rw [EndpointLease.read, empty, ExtTreeMap.getElem?_empty]
  rfl

/-- Leases are read back along a run exactly when all its calls are safe ones. -/
theorem leasesReadBack_iff (calls : List LeaseCall) :
    LeasesReadBack calls ↔ ∀ e ∈ trace step empty calls, e.pre.Safe e.input := by
  have hiff := trace_invariant_iff step (I := Faithful) (J := fun _ => True) (G := Safe)
    (fun _ _ _ => trivial) (fun _ call _ h => step_faithful_iff h call) trivial faithful_empty calls
  constructor
  · intro h
    exact hiff.mp fun e he => (h e he).1
  · intro hsafe e he
    have hpost := hiff.mpr hsafe e he
    refine ⟨hpost, fun other hne => ?_⟩
    -- Both sides of the call are faithful, so that only its subject can be told otherwise.
    obtain ⟨hpre, hevent⟩ := trace_invariant_of step (G := Safe)
      (fun _ call h hcall => (step_faithful_iff h call).mpr hcall) faithful_empty calls hsafe e he
    have hstep : e.post = (e.pre.step e.input).2 := congrArg Event.post hevent
    rw [hpost other, hpre other, hstep, known_other _ _ hne]

end LeaseWorld

namespace Sample

def dotted : AppId := ⟨"a.b", by decide⟩

def dashed : AppId := ⟨"a-b", by decide⟩

/-- Two identifiers whose leases have one file. -/
def collidingCalls : List LeaseCall := [.create dotted "first" 1 10, .create dashed "second" 2 20]

/-- An instance that brings a process and a time of its own. -/
def spillingCalls : List LeaseCall := [.create dotted "x\n7\n9" 1 10]

end Sample

namespace LeaseWorld

/-- A run that ends in an unfaithful state does not read its leases back. -/
theorem not_leasesReadBack (calls : List LeaseCall) (call : LeaseCall)
    (h : ¬(run step empty (calls ++ [call])).Faithful) : ¬LeasesReadBack (calls ++ [call]) := by
  intro hread
  have hevent := (hread _ (event_mem_trace step empty calls call [])).1
  rw [run_concat] at h
  exact h hevent

theorem leasePath_dashed : leasePath Sample.dashed = leasePath Sample.dotted := by decide +kernel

/-- The second identifier takes the file of the first, and an instance of several lines is read as
another lease. -/
theorem leases_misread :
    (EndpointLease.read (run step empty Sample.collidingCalls).files Sample.dotted = none ∧
        ¬LeasesReadBack Sample.collidingCalls) ∧
      EndpointLease.read (run step empty Sample.spillingCalls).files Sample.dotted =
          some ⟨leasePath Sample.dotted, Sample.dotted, "x", 7, 9, rfl⟩ ∧
        ¬LeasesReadBack Sample.spillingCalls := by
  have hdashed : EndpointLease.read (run step empty Sample.collidingCalls).files Sample.dotted =
      none := by
    refine (EndpointLease.read_create _ Sample.dashed "second" 2 20 Sample.dotted).trans ?_
    rw [if_pos leasePath_dashed]
    exact EndpointLease.parse_other (EndpointLease.head?_lines_payload _) (by decide)
  have hspilt : EndpointLease.read (run step empty Sample.spillingCalls).files Sample.dotted =
      some ⟨leasePath Sample.dotted, Sample.dotted, "x", 7, 9, rfl⟩ := by
    refine (EndpointLease.read_create _ Sample.dotted "x\n7\n9" 1 10 Sample.dotted).trans ?_
    rw [if_pos rfl]
    decide +kernel
  refine ⟨⟨hdashed, ?_⟩, hspilt, ?_⟩
  · refine not_leasesReadBack [_] _ fun h => ?_
    cases (hdashed.symm.trans (h Sample.dotted))
  · refine not_leasesReadBack [] _ fun h => ?_
    have hinstance := congrArg (Option.map EndpointLease.instanceId)
      (hspilt.symm.trans (h Sample.dotted))
    exact absurd hinstance (by decide +kernel)

end LeaseWorld

end MutsukiLink
