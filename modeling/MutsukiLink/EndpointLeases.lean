import Mathlib.Logic.Function.Basic
import MutsukiLink.OrderedMap
import MutsukiLink.RunHistory
import MutsukiLink.TextLines

/-! The lease files of local endpoints (`app_endpoint.rs`). A directory maps file names to texts. An
identifier gives its file a name in which dots are dashes, and a lease is written as four lines, so
that two identifiers may share a file and an instance may spill over its line. -/
namespace MutsukiLink
open TextLines
open Std (ExtTreeMap)

inductive AppEndpointError where
  | invalidAppId | invalidCapability | leaseIo
deriving DecidableEq, Repr

/-- What an identifier may consist of. -/
def appIdCharacter (ch : Char) : Bool := ch.isAlphanum || ch == '.' || ch == '-' || ch == '_'

@[ext]
structure AppId where
  value : String
  valid : value ≠ "" ∧ value.toList.all appIdCharacter = true
deriving DecidableEq, Repr

def AppId.new (value : String) : Except AppEndpointError AppId :=
  if h : value ≠ "" ∧ value.toList.all appIdCharacter = true then .ok ⟨value, h⟩
  else .error .invalidAppId

abbrev Directory := ExtTreeMap String (List Char)

def sanitized (appId : AppId) : String := appId.value.map fun ch => if ch = '.' then '-' else ch

def leasePath (appId : AppId) : String := sanitized appId ++ ".lease"

/-- `with_extension`: the name under which a lease is written before it is renamed. -/
def pendingPath (appId : AppId) : String := sanitized appId ++ ".lease.pending"

structure EndpointLease where
  path : String
  appId : AppId
  instanceId : String
  pid : UInt32
  createdUnixMs : UInt64
  path_eq : path = leasePath appId
deriving DecidableEq, Repr

namespace EndpointLease

def payload (lease : EndpointLease) : List Char :=
  lease.appId.value.toList ++ '\n' :: (lease.instanceId.toList ++ '\n' ::
    (Nat.toDigits 10 lease.pid.toNat ++ '\n' :: (Nat.toDigits 10 lease.createdUnixMs.toNat ++
      ['\n'])))

/-- The process and the clock tell `pid` and `nowUnixMs`. -/
def create (directory : Directory) (appId : AppId) (instanceId : String) (pid : UInt32)
    (nowUnixMs : UInt64) : EndpointLease × Directory :=
  let lease : EndpointLease :=
    { path := leasePath appId, appId, instanceId, pid, createdUnixMs := nowUnixMs, path_eq := rfl }
  let directory := directory.insert (pendingPath appId) lease.payload
  (lease, (directory.erase (pendingPath appId)).insert lease.path lease.payload)

/-- The lease in the text of a file, if it has four lines and names the identifier. -/
def parse (appId : AppId) (payload : List Char) : Option EndpointLease :=
  match lines payload with
  | app :: instanceId :: pid :: created :: _ =>
    match parseUnsigned (2^32) pid, parseUnsigned (2^64) created with
    | some pid, some created =>
      if app ≠ appId.value.toList then none
      else some { path := leasePath appId, appId, instanceId := .ofList instanceId
                  pid := .ofNat pid, createdUnixMs := .ofNat created, path_eq := rfl }
    | _, _ => none
  | _ => none

def read (directory : Directory) (appId : AppId) : Option EndpointLease :=
  directory[leasePath appId]?.bind (parse appId)

def isStale (processExists : UInt32 → Bool) (lease : EndpointLease) : Bool :=
  !processExists lease.pid

/-- A file that is not there is no error. -/
def clear (lease : EndpointLease) (directory : Directory) : Directory := directory.erase lease.path

end EndpointLease

def reclaimStaleLease (directory : Directory) (appId : AppId) (processExists : UInt32 → Bool) :
    Bool × Directory :=
  match EndpointLease.read directory appId with
  | none => (false, directory)
  | some lease =>
    if lease.isStale processExists then (true, lease.clear directory) else (false, directory)

namespace EndpointLease
variable {appId other : AppId} {lease : EndpointLease}

/-- The line of an identifier is read as it was written. -/
theorem clean_appId (appId : AppId) : Clean appId.value.toList := by
  have hvalid := List.all_eq_true.mp appId.valid.2
  refine clean_of_forall fun c hc => ⟨?_, ?_⟩
  · rintro rfl
    cases hvalid _ hc
  · rintro rfl
    cases hvalid _ hc

theorem lines_payload (lease : EndpointLease) : lines lease.payload =
    lease.appId.value.toList :: lines (lease.instanceId.toList ++ '\n' ::
      (Nat.toDigits 10 lease.pid.toNat ++ '\n' :: (Nat.toDigits 10 lease.createdUnixMs.toNat ++
        ['\n']))) :=
  lines_clean (clean_appId lease.appId) _

/-- A lease that was found bears the name on the first line. -/
theorem parse_name {payload : List Char} (h : parse appId payload = some lease) :
    lease.appId = appId ∧ (lines payload).head? = some appId.value.toList := by
  unfold parse at h
  split at h
  · next app instanceId pid created rest hlines =>
    split at h
    · split at h
      · cases h
      next happ =>
      obtain rfl := Option.some.inj h
      rw [hlines, List.head?_cons, not_not.mp happ]
      exact ⟨rfl, rfl⟩
    · cases h
  · cases h

/-- A file that names one identifier holds no lease of another. -/
theorem parse_other {payload : List Char} (h : (lines payload).head? = some appId.value.toList)
    (hne : other ≠ appId) : parse other payload = none := by
  rw [Option.eq_none_iff_forall_ne_some]
  intro lease hparse
  have hname := (parse_name hparse).2.symm.trans h
  exact hne (AppId.ext (String.toList_injective (Option.some.inj hname)))

/-- A lease is read back from its text exactly when its instance is a clean line. -/
theorem parse_payload_iff (lease : EndpointLease) :
    parse lease.appId lease.payload = some lease ↔ Clean lease.instanceId.toList := by
  constructor
  · intro h
    rw [← head?_lines_iff lease.instanceId.toList (Nat.toDigits 10 lease.pid.toNat ++ '\n' ::
      (Nat.toDigits 10 lease.createdUnixMs.toNat ++ ['\n']))]
    rw [parse, lines_payload] at h
    split at h
    -- What is read as the instance is the first line of what follows the name.
    · next app instanceId pid created rest heq =>
      rw [(List.cons.inj heq).2, List.head?_cons]
      split at h
      · split at h
        · cases h
        · rw [← congrArg EndpointLease.instanceId (Option.some.inj h), String.toList_ofList]
      · cases h
    · cases h
  · intro hclean
    have hlines : lines lease.payload = [lease.appId.value.toList, lease.instanceId.toList,
        Nat.toDigits 10 lease.pid.toNat, Nat.toDigits 10 lease.createdUnixMs.toNat] := by
      rw [lines_payload, lines_clean hclean, lines_clean (clean_toDigits _),
        lines_clean (clean_toDigits _)]
      rfl
    rw [parse, hlines]
    simp only [parseUnsigned_toDigits lease.pid.toNat_lt,
      parseUnsigned_toDigits lease.createdUnixMs.toNat_lt, ne_eq, not_true_eq_false, if_false,
      String.ofList_toList, UInt32.ofNat_toNat, UInt64.ofNat_toNat]
    cases lease with
    | mk path appId instanceId pid created path_eq =>
      subst path_eq
      rfl

end EndpointLease

end MutsukiLink
