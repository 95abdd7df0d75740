import MutsukiLink.NtpTypes
import MutsukiLink.PieceAssembly

/-! Cutting a payload into fragments and putting it together again (`fragment.rs`). -/
namespace MutsukiLink
open WireBytes

def fragmentMagic : Bytes := [78, 84, 70, 49]
def fragmentVersion : UInt8 := 1
def fragmentHeaderLen : ℕ := 18

/-- What `send_fragmented` asks of a `Connection`. -/
structure LatestConnection (σ : Type) where
  maxDatagramPayload : σ → Option ℕ
  trySendLatest : σ → RealtimeDatagram → Except TransportError SendOutcome × σ

structure FragmentSend where
  flow : RealtimeFlowId
  generation : UInt32
  sequence : UInt64
  deadline : ℕ
  priority : RealtimePriority
  payload : Bytes
  config : BindingConfig
deriving DecidableEq, Repr

/-- The body of a fragment, or the error of a number that does not fit its field. -/
def fragmentBytes {ε : Type} (index count offset totalLen : ℕ) (chunk : Bytes) :
    Except (BindingError ε) Bytes :=
  if 2^16 ≤ index ∨ 2^16 ≤ count ∨ 2^32 ≤ offset ∨ 2^32 ≤ totalLen then .error .payloadLimit
  else .ok (fragmentMagic ++ ([fragmentVersion] ++ ([0] ++ (beBytes 2 index ++ (beBytes 2 count ++
    (beBytes 4 offset ++ (beBytes 4 totalLen ++ chunk)))))))

section Send
variable {σ ε : Type} (connection : LatestConnection σ) (request : FragmentSend) (chunkBytes : ℕ)

/-- The loop over the chunks from one of them on. -/
def sendChunks : List (Bytes × ℕ) → σ → FragmentBatchOutcome →
    Except (BindingError ε) FragmentBatchOutcome × σ
  | [], s, aggregate => (.ok aggregate, s)
  | (chunk, index) :: rest, s, aggregate =>
    match fragmentBytes index (PieceAssembly.count request.payload chunkBytes) (index*chunkBytes)
      request.payload.length chunk with
    | .error e => (.error e, s)
    | .ok payload =>
      match connection.trySendLatest s {
        flow := request.flow, generation := request.generation, sequence := request.sequence
        deadline := request.deadline, priority := request.priority, payload } with
      | (.error e, s) => (.error (.transport e), s)
      | (.ok outcome, s) =>
        let aggregate := { aggregate with fragments := saturatingAdd aggregate.fragments 1 }
        match outcome with
        | .enqueued => sendChunks rest s
            { aggregate with enqueued := saturatingAdd aggregate.enqueued 1 }
        | .replacedOlder => sendChunks rest s
            { aggregate with replaced := saturatingAdd aggregate.replaced 1 }
        | .droppedExpired =>
          (.ok { aggregate with expired := saturatingAdd aggregate.expired 1 }, s)
        | .droppedCongested =>
          (.ok { aggregate with congested := saturatingAdd aggregate.congested 1 }, s)
        | .unsupported => (.error .datagramsUnsupported, s)

end Send

def sendFragmented {σ ε : Type} (connection : LatestConnection σ) (s : σ)
    (request : FragmentSend) : Except (BindingError ε) FragmentBatchOutcome × σ :=
  if request.payload = [] ∨ request.config.maxReassemblyBytes < request.payload.length then
    (.error .payloadLimit, s)
  else match connection.maxDatagramPayload s with
    | none => (.error .datagramsUnsupported, s)
    | some maxPayload =>
      -- `checked_sub` and the filter leave a positive chunk size.
      if maxPayload ≤ fragmentHeaderLen then (.error .payloadLimit, s)
      else
        let chunkBytes := maxPayload-fragmentHeaderLen
        let fragmentCount := PieceAssembly.count request.payload chunkBytes
        if request.config.maxFragments < fragmentCount ∨ 2^16-1 < fragmentCount then
          (.error .payloadLimit, s)
        else sendChunks connection request chunkBytes
          (PieceAssembly.pieces request.payload chunkBytes).zipIdx s {}

structure Fragment where
  index : ℕ
  count : ℕ
  offset : ℕ
  totalLen : ℕ
  payload : Bytes
deriving DecidableEq, Repr

def Fragment.decode {ε : Type} (bytes : Bytes) (config : BindingConfig) :
    Except (BindingError ε) Fragment :=
  if bytes.length ≤ fragmentHeaderLen ∨ bytes.take 4 ≠ fragmentMagic ∨
      bytes.getD 4 0 ≠ fragmentVersion ∨ bytes.getD 5 0 ≠ 0 then
    .error .invalidFragment
  else
    let index := ofBeBytes ((bytes.drop 6).take 2)
    let count := ofBeBytes ((bytes.drop 8).take 2)
    let offset := ofBeBytes ((bytes.drop 10).take 4)
    let totalLen := ofBeBytes ((bytes.drop 14).take 4)
    let payload := bytes.drop fragmentHeaderLen
    if count = 0 ∨ config.maxFragments < count ∨ count ≤ index ∨ totalLen = 0 ∨
        config.maxReassemblyBytes < totalLen ∨ totalLen < offset+payload.length then
      .error .invalidFragment
    else .ok ⟨index, count, offset, totalLen, payload⟩

structure Reassembly where
  generation : UInt32
  sequence : UInt64
  fragmentCount : ℕ
  totalLen : ℕ
  slots : List (Option (ℕ × ℕ))
  received : ℕ
  bytes : Bytes
deriving DecidableEq, Repr

namespace Reassembly

/-- The range lies inside the buffer by the check of `Fragment::decode`. -/
def insert {ε : Type} (r : Reassembly) (fragment : Fragment) :
    Except (BindingError ε) Unit × Reassembly :=
  match r.slots[fragment.index]? with
  | none => (.error .invalidFragment, r)
  | some slot =>
    let range := (fragment.offset, fragment.payload.length)
    match slot with
    | some existing =>
      if existing ≠ range ∨
          (r.bytes.drop fragment.offset).take fragment.payload.length ≠ fragment.payload then
        (.error .invalidFragment, r)
      else (.ok (), r)
    | none =>
      (.ok (), { r with
        bytes := PieceAssembly.patch r.bytes fragment.offset fragment.payload
        slots := r.slots.set fragment.index (some range)
        received := saturatingAdd r.received 1 })

def new {ε : Type} (generation : UInt32) (sequence : UInt64) (first : Fragment) :
    Except (BindingError ε) Reassembly :=
  let r : Reassembly := {
    generation, sequence, fragmentCount := first.count, totalLen := first.totalLen
    slots := List.replicate first.count none, received := 0
    bytes := List.replicate first.totalLen 0 }
  match r.insert first with
  | (.error e, _) => .error e
  | (.ok (), r) => .ok r

def complete (r : Reassembly) : Bool := r.received = r.fragmentCount

/-- `sort_unstable_by_key` by the offset, then the walk over the ranges. -/
def finish {ε : Type} (r : Reassembly) : Except (BindingError ε) Bytes :=
  match r.slots.mapM id with
  | none => .error .invalidFragment
  | some ranges =>
    match PieceAssembly.walk 0 (ranges.insertionSort fun a b => a.1 ≤ b.1) with
    | none => .error .invalidFragment
    | some cursor => if cursor ≠ r.totalLen then .error .invalidFragment else .ok r.bytes

end Reassembly

inductive ReassemblyOutcome where
  | pending (replacedIncomplete : Bool)
  | complete (generation : UInt32) (sequence : UInt64) (payload : Bytes)
      (replacedIncomplete : Bool)
  | ignoredOld
deriving DecidableEq, Repr

structure Reassembler where
  state : Option Reassembly
  lastCompleted : Option (UInt32 × UInt64)
deriving DecidableEq, Repr

namespace Reassembler

def new : Reassembler := ⟨none, none⟩

def clear (_ : Reassembler) : Reassembler := ⟨none, none⟩

/-- A fragment at or before the last completed one. -/
def isOld (a : Reassembler) (generation : UInt32) (sequence : UInt64) : Bool :=
  a.lastCompleted.any fun (lastGeneration, lastSequence) =>
    generation < lastGeneration || (generation = lastGeneration && sequence ≤ lastSequence)

/-- The end of `push`, with the assembly that the fragment belongs to in place. -/
def pushInto {ε : Type} (a : Reassembler) (r : Reassembly) (fragment : Fragment)
    (replacedIncomplete : Bool) : Except (BindingError ε) ReassemblyOutcome × Reassembler :=
  if r.fragmentCount ≠ fragment.count ∨ r.totalLen ≠ fragment.totalLen then
    (.error .invalidFragment, { a with state := some r })
  else match r.insert fragment with
    | (.error e, r) => (.error e, { a with state := some r })
    | (.ok (), r) =>
      if r.complete = false then (.ok (.pending replacedIncomplete), { a with state := some r })
      else
        let a : Reassembler := { state := none, lastCompleted := some (r.generation, r.sequence) }
        match r.finish with
        | .error e => (.error e, a)
        | .ok payload => (.ok (.complete r.generation r.sequence payload replacedIncomplete), a)

def push {ε : Type} (a : Reassembler) (generation : UInt32) (sequence : UInt64) (payload : Bytes)
    (config : BindingConfig) : Except (BindingError ε) ReassemblyOutcome × Reassembler :=
  if a.isOld generation sequence then (.ok .ignoredOld, a)
  else match Fragment.decode payload config with
    | .error e => (.error e, a)
    | .ok fragment =>
      let replace :=
        match Reassembly.new generation sequence fragment with
        | .error e => (.error e, a)
        | .ok r => a.pushInto r fragment a.state.isSome
      match a.state with
      | none => replace
      | some current =>
        if generation < current.generation then (.ok .ignoredOld, a)
        else if generation = current.generation ∧ sequence < current.sequence then
          (.ok .ignoredOld, a)
        else if generation = current.generation ∧ sequence = current.sequence then
          a.pushInto current fragment false
        else replace

end Reassembler

end MutsukiLink
