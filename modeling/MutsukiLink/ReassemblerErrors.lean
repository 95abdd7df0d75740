import MutsukiLink.ReassemblerSafety

/-! The key that a reassembler remembers as completed. A push that fills an assembly whose ranges do
not tile the buffer is an error, and its key is remembered all the same. -/
namespace MutsukiLink
open WireBytes PieceAssembly RealtimeWorld

variable {ε : Type}

/-- The key of the last push since the last `clear` that completed a payload. -/
def lastComplete (hist : List (ReassemblerEvent ε)) : Option (UInt32 × UInt64) :=
  (completedKeys (sinceClear hist)).getLast?

/-- All fragments of a payload, in any order and any number of times. -/
def CompleteSet (config : BindingConfig) (set : List Bytes) : Prop :=
  ∃ payload size, Cuts config payload size ∧
    ∀ bytes, bytes ∈ set ↔ IsFragment payload size bytes

/-- The whole set is ignored as old. -/
def IgnoresAll (ε : Type) (a : Reassembler) (g : UInt32) (s : UInt64) (config : BindingConfig)
    (set : List Bytes) : Prop :=
  ∀ e ∈ RunHistory.trace (Reassembler.step (ε := ε)) a (pushesOf g s config set),
    e.reply = .pushed (.ok .ignoredOld)

/-- An error does not make a later complete set of its key be ignored: whatever is pushed in
between, the set would have been ignored without the push that failed, too. -/
def ErrorHarmless (e : ReassemblerEvent ε) : Prop :=
  ∀ g s bytes config error, e.input = .push g s bytes config → e.reply = .pushed (.error error) →
    ∀ later set, CompleteSet config set →
      IgnoresAll ε (RunHistory.run (Reassembler.step (ε := ε)) e.post later) g s config set →
      IgnoresAll ε (RunHistory.run (Reassembler.step (ε := ε)) e.pre later) g s config set

/-- The fragment fills the last vacant slot of an assembly, and with its range the ranges of the
slots do not tile the buffer. -/
def Reassembler.CompletesBadly (ε : Type) (a : Reassembler) (g : UInt32) (s : UInt64)
    (bytes : Bytes) (config : BindingConfig) : Prop :=
  ∃ f r replaced, a.Fills ε g s bytes config f r replaced ∧
    (∀ j : ℕ, r.slots[j]? = some none → j = f.index) ∧ ¬Tiles (f.range :: r.filled) f.totalLen

/-- A call that is no such push. -/
def ReassemblerCall.Sound (ε : Type) (a : Reassembler) : ReassemblerCall → Prop
  | .push g s bytes config => ¬a.CompletesBadly ε g s bytes config
  | .clear => True

section Filling
variable {r : Reassembly} {f : Fragment}

theorem perm_filled_taking (hvacant : r.slots[f.index]? = some none) :
    (r.taking f).filled.Perm (f.range :: r.filled) := by
  obtain ⟨hlt, hget⟩ := List.getElem?_eq_some_iff.mp hvacant
  have hslots : r.slots.filterMap id =
      (r.slots.take f.index).filterMap id ++ (r.slots.drop (f.index+1)).filterMap id := by
    conv_lhs => rw [← List.take_append_drop f.index r.slots, List.drop_eq_getElem_cons hlt, hget]
    rw [List.filterMap_append, List.filterMap_cons]
    rfl
  rw [Reassembly.filled, Reassembly.filled, Reassembly.taking, List.set_eq_take_append_cons_drop,
    if_pos hlt, List.filterMap_append, List.filterMap_cons, hslots]
  exact List.perm_middle

theorem tiles_taking_iff {total : ℕ} (hvacant : r.slots[f.index]? = some none) :
    Tiles (r.taking f).filled total ↔ Tiles (f.range :: r.filled) total := by
  have hperm := perm_filled_taking hvacant
  exact ⟨fun h => h.perm hperm, fun h => h.perm hperm.symm⟩

/-- The last vacant slot is filled when there is no other. -/
theorem received_taking_iff (hr : (r.taking f).Wf) (hvacant : r.slots[f.index]? = some none) :
    (r.taking f).received = (r.taking f).fragmentCount ↔
      ∀ j : ℕ, r.slots[j]? = some none → j = f.index := by
  obtain ⟨hlt, -⟩ := List.getElem?_eq_some_iff.mp hvacant
  rw [hr.received_eq, ← hr.slots_length, List.countP_eq_length]
  constructor
  · intro hall j hj
    by_contra hne
    have hstill : (r.slots.set f.index (some f.range))[j]? = some none := by
      rw [List.getElem?_set_ne (Ne.symm hne)]
      exact hj
    cases hall none (List.mem_of_getElem? hstill)
  · intro honly slot hslot
    obtain ⟨j, hj, rfl⟩ := List.mem_iff_getElem.mp hslot
    by_contra hnone
    have hget : (r.taking f).slots[j]? = some none := by
      rw [List.getElem?_eq_getElem hj, Option.not_isSome_iff_eq_none.mp hnone]
    change (r.slots.set f.index (some f.range))[j]? = some none at hget
    by_cases heq : f.index = j
    · subst heq
      rw [List.getElem?_set_self hlt] at hget
      cases hget
    · rw [List.getElem?_set_ne heq] at hget
      exact heq (honly j hget).symm

end Filling

section Histories
variable {a : Reassembler} {g : UInt32} {s : UInt64} {bytes : Bytes} {config : BindingConfig}
  {hist : List (ReassemblerEvent ε)} {e : ReassemblerEvent ε}

theorem lastComplete_clear (hist : List (ReassemblerEvent ε)) (he : e.input = .clear) :
    lastComplete (hist ++ [e]) = none := by
  rw [lastComplete, sinceClear_clear hist he]
  rfl

theorem lastComplete_push (hist : List (ReassemblerEvent ε)) (he : e.input ≠ .clear) :
    lastComplete (hist ++ [e]) =
      ((completionOf e.reply).map Prod.fst).or (lastComplete hist) := by
  rw [lastComplete, sinceClear_push hist he, completedKeys_concat, List.getLast?_append]
  cases completionOf e.reply with
  | none => rfl
  | some completion => rfl

/-- The key of a bad completion is remembered. -/
theorem push_of_completesBadly (ha : a.Wf) (h : a.CompletesBadly ε g s bytes config) :
    a.isOld g s = false ∧ a.push (ε := ε) g s bytes config =
      (.error .invalidFragment, ⟨none, some (g, s)⟩) := by
  obtain ⟨f, r, replaced, hfills, honly, htiles⟩ := h
  have hfits := (decode_fits hfills.decoded).1
  have htotal := (hfills.base.wf ha hfits).2.2.2
  obtain ⟨hwf, hkey⟩ := hfills.wf ha
  have hall := (received_taking_iff hwf hfills.vacant).mpr honly
  have hbad : ¬Tiles (r.taking f).filled (r.taking f).totalLen := by
    rw [tiles_taking_iff hfills.vacant]
    exact htotal ▸ htiles
  refine ⟨hfills.new, ?_⟩
  rw [hfills.push_eq ha]
  rcases Reassembler.settle_cases (ε := ε) a hwf replaced with
    ⟨hlt, -⟩ | ⟨-, hgood, -⟩ | ⟨-, -, heq⟩
  · omega
  · exact absurd hgood hbad
  · rw [heq, hkey]

/-- Every other push remembers the key that it completes, and one that fails changes nothing. -/
theorem push_of_sound (ha : a.Wf) (h : ¬a.CompletesBadly ε g s bytes config) :
    (a.push (ε := ε) g s bytes config).2.lastCompleted =
        ((completionOf (.pushed (a.push (ε := ε) g s bytes config).1)).map Prod.fst).or
          a.lastCompleted ∧
      ∀ error, (a.push (ε := ε) g s bytes config).1 = .error error →
        (a.push (ε := ε) g s bytes config).2 = a := by
  have hcase := Reassembler.push_cases (ε := ε) ha g s bytes config
  generalize a.push (ε := ε) g s bytes config = result at hcase
  cases hcase with
  | old | older | repeated | refused => exact ⟨rfl, fun _ _ => rfl⟩
  | stored => exact ⟨rfl, fun error herror => nomatch herror⟩
  | completed => exact ⟨rfl, fun error herror => nomatch herror⟩
  | @spoiled f r replaced hfills hall htiles =>
    have hfits := (decode_fits hfills.decoded).1
    have htotal := (hfills.base.wf ha hfits).2.2.2
    have hwf := (hfills.wf ha).1
    refine absurd ⟨f, r, replaced, hfills, (received_taking_iff hwf hfills.vacant).mp hall, ?_⟩ h
    rw [← tiles_taking_iff hfills.vacant, ← htotal]
    exact htiles

/-- The remembered key is the last that was completed. -/
structure Remembers (hist : List (ReassemblerEvent ε)) (a : Reassembler) : Prop where
  wf : a.Wf
  last : a.lastCompleted = lastComplete hist
  harmless : ∀ e ∈ hist, ErrorHarmless e

theorem remembers_step (h : Remembers hist a) {call : ReassemblerCall} (hsound : call.Sound ε a) :
    Remembers (hist ++ [RunHistory.event (Reassembler.step (ε := ε)) a call])
      (a.step (ε := ε) call).2 := by
  have hwf := Reassembler.step_wf (ε := ε) h.wf call
  cases call with
  | clear =>
    refine ⟨hwf, (lastComplete_clear hist rfl).symm, fun e he => ?_⟩
    rcases List.mem_append.mp he with he | he
    · exact h.harmless e he
    · rw [List.mem_singleton.mp he]
      intro g s bytes config error hinput
      cases hinput
  | push g s bytes config =>
    obtain ⟨hlast, hfailed⟩ := push_of_sound h.wf hsound
    refine ⟨hwf, ?_, fun e he => ?_⟩
    · rw [lastComplete_push hist (fun heq => by cases heq), ← h.last]
      exact hlast
    · rcases List.mem_append.mp he with he | he
      · exact h.harmless e he
      · rw [List.mem_singleton.mp he]
        intro g' s' bytes' config' error hinput hreply later set hset hignored
        have herror : (a.push (ε := ε) g s bytes config).1 = .error error :=
          ReassemblerReply.pushed.inj hreply
        -- The state is the same before and after the push that failed.
        have hsame : (RunHistory.event (Reassembler.step (ε := ε)) a
            (.push g s bytes config)).post = a := hfailed error herror
        rw [hsame] at hignored
        exact hignored

/-- A push that remembers the last completed key is no bad completion: its key was not old before,
so it is not the key that was remembered then. -/
theorem sound_of_exact {calls : List ReassemblerCall} {call : ReassemblerCall}
    (hbefore : (RunHistory.run (Reassembler.step (ε := ε)) Reassembler.new calls).lastCompleted =
      lastComplete (RunHistory.trace (Reassembler.step (ε := ε)) Reassembler.new calls))
    (hafter : (RunHistory.run (Reassembler.step (ε := ε)) Reassembler.new
        (calls ++ [call])).lastCompleted =
      lastComplete (RunHistory.trace (Reassembler.step (ε := ε)) Reassembler.new
        (calls ++ [call]))) :
    call.Sound ε (RunHistory.run (Reassembler.step (ε := ε)) Reassembler.new calls) := by
  cases call with
  | clear => trivial
  | push g s bytes config =>
    intro hbad
    have hwf := RunHistory.run_invariant (Reassembler.step (ε := ε)) (I := Reassembler.Wf)
      (fun a call ha => Reassembler.step_wf ha call) Reassembler.wf_new calls
    obtain ⟨hnew, hpush⟩ := push_of_completesBadly hwf hbad
    rw [RunHistory.run_concat, RunHistory.trace_concat,
      lastComplete_push _ (fun heq => by cases heq), ← hbefore] at hafter
    simp only [RunHistory.event, Reassembler.step, hpush, completionOf, Option.map_none,
      Option.none_or] at hafter
    rw [Reassembler.isOld, ← hafter] at hnew
    simp at hnew

end Histories

/-- The remembered key is always the last completed one, and no error makes a later complete set be
ignored, exactly when no push completes an assembly whose ranges do not tile the buffer. -/
theorem completed_key_is_exact_iff (calls : List ReassemblerCall) :
    ((∀ before after, calls = before ++ after →
        (RunHistory.run (Reassembler.step (ε := ε)) Reassembler.new before).lastCompleted =
          lastComplete (RunHistory.trace (Reassembler.step (ε := ε)) Reassembler.new before)) ∧
      ∀ e ∈ RunHistory.trace (Reassembler.step (ε := ε)) Reassembler.new calls,
        ErrorHarmless e) ↔
    ∀ e ∈ RunHistory.trace (Reassembler.step (ε := ε)) Reassembler.new calls,
      e.input.Sound ε e.pre := by
  have hnew : Remembers ([] : List (ReassemblerEvent ε)) Reassembler.new :=
    ⟨Reassembler.wf_new, rfl, fun e he => absurd he List.not_mem_nil⟩
  constructor
  · intro h e he
    obtain ⟨js, call, ks, rfl, rfl⟩ := RunHistory.event_split _ he
    exact sound_of_exact (h.1 js (call :: ks) rfl)
      (h.1 (js ++ [call]) ks (List.append_cons js call ks))
  · intro hsound
    have hrun : ∀ before after, calls = before ++ after →
        Remembers (RunHistory.trace (Reassembler.step (ε := ε)) Reassembler.new before)
          (RunHistory.run (Reassembler.step (ε := ε)) Reassembler.new before) := by
      intro before after hcalls
      refine RunHistory.run_history_good (Reassembler.step (ε := ε))
        (P := fun hist a => Remembers hist a) (G := fun a call => call.Sound ε a) hnew
        (fun hist a call h hcall => remembers_step h hcall) before fun e he => hsound e ?_
      rw [hcalls, RunHistory.trace_append]
      exact List.mem_append_left _ he
    exact ⟨fun before after hcalls => (hrun before after hcalls).last,
      (hrun calls [] (List.append_nil calls).symm).harmless⟩

/-- Two fragments of one key at the same place. -/
def overlappingCalls : List ReassemblerCall :=
  [.push 1 1 (fragmentOf 0 2 0 2 [7]) {}, .push 1 1 (fragmentOf 1 2 0 2 [8]) {}]

/-- The state between the two. -/
def halfAssembled : Reassembler :=
  RunHistory.run (Reassembler.step (ε := Unit)) Reassembler.new (overlappingCalls.take 1)

def wellFormedSet : List Bytes := [fragmentWire [7, 8] 1 0, fragmentWire [7, 8] 1 1]

/-- The second one fails, and its key is remembered: a complete set of that key is ignored, which
would not be ignored without it. -/
theorem failed_completion_is_remembered :
    (RunHistory.run (Reassembler.step (ε := Unit)) Reassembler.new
        overlappingCalls).lastCompleted = some (1, 1) ∧
      lastComplete (RunHistory.trace (Reassembler.step (ε := Unit)) Reassembler.new
        overlappingCalls) = none ∧
      ∃ e ∈ RunHistory.trace (Reassembler.step (ε := Unit)) Reassembler.new overlappingCalls,
        ¬ErrorHarmless e := by
  refine ⟨by decide +kernel, by decide +kernel, _,
    RunHistory.event_mem_trace (Reassembler.step (ε := Unit)) Reassembler.new
      (overlappingCalls.take 1) (.push 1 1 (fragmentOf 1 2 0 2 [8]) {}) [], fun hharmless => ?_⟩
  have hset : CompleteSet {} wellFormedSet := by
    refine ⟨[7, 8], 1, ⟨by decide, by decide, by decide, by decide, by decide, by decide⟩,
      fun bytes => ?_⟩
    have hcount : count ([7, 8] : Bytes) 1 = 2 := by decide
    rw [IsFragment, hcount, wellFormedSet]
    constructor
    · intro hmem
      rcases List.mem_cons.mp hmem with rfl | hmem
      · exact ⟨0, by decide, rfl⟩
      · exact ⟨1, by decide, List.mem_singleton.mp hmem⟩
    · intro hfragment
      obtain ⟨index, hindex, rfl⟩ := hfragment
      have hcases : index = 0 ∨ index = 1 := by omega
      rcases hcases with rfl | rfl
      · exact List.mem_cons_self
      · exact List.mem_cons_of_mem _ (List.mem_singleton_self _)
  have hignored : IgnoresAll Unit (halfAssembled.step (ε := Unit)
      (.push 1 1 (fragmentOf 1 2 0 2 [8]) {})).2 1 1 {} wellFormedSet := by
    unfold IgnoresAll
    decide +kernel
  have htaken : ¬IgnoresAll Unit halfAssembled 1 1 {} wellFormedSet := by
    unfold IgnoresAll
    decide +kernel
  exact htaken (hharmless 1 1 _ {} .invalidFragment rfl (by decide +kernel) [] wellFormedSet hset
    hignored)

end MutsukiLink
