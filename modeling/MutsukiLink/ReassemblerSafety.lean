import MutsukiLink.FragmentBounds

/-! A reassembler that is pushed arbitrary bytes. Fragments may overlap and overwrite each other,
but what completes is put together from fragments that do not overlap. -/
namespace MutsukiLink
open WireBytes PieceAssembly RealtimeWorld

variable {ε : Type} {config : BindingConfig} {f : Fragment} {r : Reassembly} {P : Fragment → Prop}

/-- The slots of an assembly hold fragments of a kind. A byte of a fragment is in the buffer unless
another fragment lies over it. -/
structure Collects (P : Fragment → Prop) (r : Reassembly) (taken : List (Option Fragment)) :
    Prop where
  slots_eq : r.slots = taken.map (Option.map Fragment.range)
  kind : ∀ f, some f ∈ taken → P f ∧ f.Fits ∧ f.count = r.fragmentCount ∧ f.totalLen = r.totalLen
  holds : ∀ (i : ℕ) (f : Fragment), taken[i]? = some (some f) → ∀ k < f.payload.length,
    r.bytes[f.offset+k]? = f.payload[k]? ∨
      ∃ (j : ℕ) (f' : Fragment), j ≠ i ∧ taken[j]? = some (some f') ∧ f'.offset ≤ f.offset+k ∧
        f.offset+k < f'.offset+f'.payload.length

theorem collects_empty (P : Fragment → Prop) (g : UInt32) (s : UInt64) (f : Fragment) :
    Collects P (Reassembly.empty g s f) (List.replicate f.count none) := by
  refine ⟨?_, fun f' hf' => ?_, fun i f' hf' => ?_⟩
  · rw [List.map_replicate]
    rfl
  · cases (List.mem_replicate.mp hf').2
  · cases (List.mem_replicate.mp (List.mem_of_getElem? hf')).2

theorem Collects.mono {taken : List (Option Fragment)} (h : Collects P r taken)
    {Q : Fragment → Prop} (hPQ : ∀ f, P f → Q f) : Collects Q r taken :=
  ⟨h.slots_eq, fun f hf => ⟨hPQ f (h.kind f hf).1, (h.kind f hf).2⟩, h.holds⟩

/-- A fragment is written over what was there. -/
theorem Collects.taking {taken : List (Option Fragment)} (h : Collects P r taken) (hr : r.Wf)
    (hf : P f) (hfits : f.Fits) (hcount : r.fragmentCount = f.count)
    (htotal : r.totalLen = f.totalLen) (hvacant : r.slots[f.index]? = some none) :
    Collects P (r.taking f) (taken.set f.index (some f)) := by
  have hlt : f.index < taken.length := by
    have hslots := (List.getElem?_eq_some_iff.mp hvacant).1
    rw [h.slots_eq, List.length_map] at hslots
    exact hslots
  have hroom : f.offset+f.payload.length ≤ r.bytes.length := by
    rw [hr.bytes_length, htotal]
    exact hfits.end_le
  have hvacant' : taken[f.index]? = some none := by
    rw [h.slots_eq, List.getElem?_map] at hvacant
    obtain ⟨slot, hslot, hnone⟩ := Option.map_eq_some_iff.mp hvacant
    rw [hslot, Option.map_eq_none_iff.mp hnone]
  refine ⟨?_, fun f' hf' => ?_, fun i f' hf' k hk => ?_⟩
  · rw [Reassembly.taking, h.slots_eq, List.map_set]
    rfl
  · rcases List.mem_or_eq_of_mem_set hf' with hold | hnew
    · exact h.kind f' hold
    · obtain rfl := Option.some.inj hnew
      exact ⟨hf, hfits, hcount.symm, htotal.symm⟩
  · have hself : (taken.set f.index (some f))[f.index]? = some (some f) :=
      List.getElem?_set_self hlt
    by_cases hi : i = f.index
    · -- The fragment itself has just been written.
      subst hi
      obtain rfl := Option.some.inj (Option.some.inj (hself.symm.trans hf'))
      exact .inl (getElem?_patch_inside hroom hk)
    · rw [List.getElem?_set_ne (Ne.symm hi)] at hf'
      by_cases hover : f.offset ≤ f'.offset+k ∧ f'.offset+k < f.offset+f.payload.length
      · exact .inr ⟨f.index, f, Ne.symm hi, hself, hover⟩
      · have hsame : (r.taking f).bytes[f'.offset+k]? = r.bytes[f'.offset+k]? := by
          apply getElem?_patch_outside hroom
          omega
        rcases h.holds i f' hf' k hk with heq | ⟨j, other, hj, hother, hinside⟩
        · exact .inl (hsame.trans heq)
        · refine .inr ⟨j, other, hj, ?_, hinside⟩
          have hne : f.index ≠ j := by
            rintro rfl
            rw [hvacant'] at hother
            cases hother
          rw [List.getElem?_set_ne hne]
          exact hother

/-- Fragments of a payload in the order of their offsets: they do not overlap and cover it. -/
structure Covers (parts : List Fragment) (payload : Bytes) : Prop where
  concat : parts.flatMap Fragment.payload = payload
  ordered : parts.Pairwise fun f f' => f.offset+f.payload.length ≤ f'.offset
  nonempty : ∀ f ∈ parts, 0 < f.payload.length
  count_eq : ∀ f ∈ parts, f.count = parts.length
  total_eq : ∀ f ∈ parts, f.totalLen = payload.length
  reached : ∀ k < payload.length, ∃ f ∈ parts, f.offset ≤ k ∧ k < f.offset+f.payload.length
  inPlace : ∀ f ∈ parts, (payload.drop f.offset).take f.payload.length = f.payload

/-- The fragments that an assembly holds, by their offsets. -/
def inOrder (taken : List (Option Fragment)) : List Fragment :=
  (taken.filterMap id).insertionSort fun f f' => f.offset ≤ f'.offset

theorem mem_inOrder {taken : List (Option Fragment)} : f ∈ inOrder taken ↔ some f ∈ taken := by
  rw [inOrder, List.mem_insertionSort, List.mem_filterMap]
  constructor
  · rintro ⟨slot, hslot, heq⟩
    obtain rfl : slot = some f := heq
    exact hslot
  · intro h
    exact ⟨some f, h, rfl⟩

theorem Collects.filled_eq {taken : List (Option Fragment)} (h : Collects P r taken) :
    r.filled = (taken.filterMap id).map Fragment.range := by
  rw [Reassembly.filled, h.slots_eq, List.filterMap_map, List.map_filterMap]
  rfl

theorem Collects.map_inOrder {taken : List (Option Fragment)} (h : Collects P r taken) :
    (inOrder taken).map Fragment.range = sorted r.filled := by
  rw [h.filled_eq, inOrder]
  exact List.map_insertionSort _ _ _ _ fun f _ f' _ => Iff.rfl

theorem Collects.length_inOrder {taken : List (Option Fragment)} (h : Collects P r taken)
    (hr : r.Wf) : (inOrder taken).length = r.received := by
  rw [hr.received_eq, h.slots_eq, inOrder, List.length_insertionSort, List.countP_map,
    List.length_filterMap_eq_countP]
  apply List.countP_congr
  intro slot _
  cases slot with
  | none => rfl
  | some f => rfl

/-- Fragments that tile the buffer have not overwritten each other. -/
theorem Collects.in_buffer {taken : List (Option Fragment)} (h : Collects P r taken)
    (htiles : Tiles r.filled r.totalLen) (hf : some f ∈ taken) :
    ∀ k < f.payload.length, r.bytes[f.offset+k]? = f.payload[k]? := by
  intro k hk
  obtain ⟨i, hi, hget⟩ := List.mem_iff_getElem.mp hf
  have hget? : taken[i]? = some (some f) := by rw [List.getElem?_eq_getElem hi, hget]
  rcases h.holds i f hget? k hk with heq | ⟨j, f', hne, hother, hinside⟩
  · exact heq
  -- Another fragment over the same byte would be a second range at that place.
  obtain ⟨hj, hget'⟩ := List.getElem?_eq_some_iff.mp hother
  have hpairwise := htiles.1
  rw [h.filled_eq, List.pairwise_map, List.pairwise_filterMap, List.pairwise_iff_getElem]
    at hpairwise
  simp only [Fragment.range] at hpairwise
  rcases Nat.lt_or_gt_of_ne hne with hlt | hlt
  · have hapart := hpairwise j i hj hi hlt f' hget' f hget
    omega
  · have hapart := hpairwise i j hi hj hlt f hget f' hget'
    omega

/-- What tiles the buffer is put together from fragments that do not overlap. -/
theorem Collects.covers {taken : List (Option Fragment)} (h : Collects P r taken) (hr : r.Wf)
    (hall : r.received = r.fragmentCount) (htiles : Tiles r.filled r.totalLen) :
    Covers (inOrder taken) r.bytes := by
  have hwalk : walk 0 ((inOrder taken).map Fragment.range) = some r.totalLen := by
    rw [h.map_inOrder]
    refine (walk_sorted_iff fun range hrange => ?_).mpr htiles
    obtain ⟨slot, hslot, heq⟩ := List.mem_filterMap.mp hrange
    obtain rfl : slot = some range := heq
    exact hr.inside range hslot
  have hbuffer : ∀ f ∈ inOrder taken, ∀ k < f.payload.length,
      r.bytes[f.offset+k]? = f.payload[k]? :=
    fun f hf => h.in_buffer htiles (mem_inOrder.mp hf)
  have hkind := fun f hf => h.kind f (mem_inOrder.mp hf)
  refine ⟨?_, ?_, fun f hf => (hkind f hf).2.1.nonempty, fun f hf => ?_, fun f hf => ?_,
    fun k hk => ?_, fun f hf => ?_⟩
  · have hconcat := flatMap_of_walk hwalk hbuffer
    rw [List.drop_zero, Nat.sub_zero, ← hr.bytes_length, List.take_length] at hconcat
    exact hconcat
  · have hordered := (walk_ordered hwalk).2.1
    rw [List.pairwise_map] at hordered
    exact hordered
  · rw [(hkind f hf).2.2.1, h.length_inOrder hr, hall]
  · rw [(hkind f hf).2.2.2, hr.bytes_length]
  · rw [hr.bytes_length] at hk
    obtain ⟨range, hrange, hinside⟩ := walk_covers hwalk (Nat.zero_le k) hk
    obtain ⟨f, hf, rfl⟩ := List.mem_map.mp hrange
    exact ⟨f, hf, hinside⟩
  · exact slice_eq (hbuffer f hf)

/-- The key and the payload of a completion. -/
def completionOf : ReassemblerReply ε → Option ((UInt32 × UInt64) × Bytes)
  | .pushed (.ok (.complete g s payload _)) => some ((g, s), payload)
  | _ => none

/-- The events since the last `clear`. -/
def sinceClear (hist : List (ReassemblerEvent ε)) : List (ReassemblerEvent ε) :=
  hist.foldl (fun recent e => if e.input = .clear then [] else recent ++ [e]) []

def completedKeys (hist : List (ReassemblerEvent ε)) : List (UInt32 × UInt64) :=
  hist.filterMap fun e => (completionOf e.reply).map Prod.fst

/-- The fragment was pushed under the key. -/
def PushedIn (config : BindingConfig) (k : UInt32 × UInt64) (hist : List (ReassemblerEvent ε))
    (f : Fragment) : Prop :=
  ∃ e ∈ hist, ∃ bytes, e.input = .push k.1 k.2 bytes config ∧
    Fragment.decode (ε := ε) bytes config = .ok f

/-- A push that is configured so. -/
def ReassemblerCall.Under (config : BindingConfig) : ReassemblerCall → Prop
  | .push _ _ _ config' => config' = config
  | .clear => True

section Histories
variable {hist segment : List (ReassemblerEvent ε)} {e : ReassemblerEvent ε}

theorem sinceClear_clear (hist : List (ReassemblerEvent ε)) (he : e.input = .clear) :
    sinceClear (hist ++ [e]) = [] := by
  rw [sinceClear, List.foldl_append]
  exact if_pos he

theorem sinceClear_push (hist : List (ReassemblerEvent ε)) (he : e.input ≠ .clear) :
    sinceClear (hist ++ [e]) = sinceClear hist ++ [e] := by
  rw [sinceClear, List.foldl_append]
  exact if_neg he

theorem sinceClear_append (hist : List (ReassemblerEvent ε))
    (hsegment : ∀ e ∈ segment, e.input ≠ .clear) :
    sinceClear (hist ++ segment) = sinceClear hist ++ segment := by
  induction segment generalizing hist with
  | nil => rw [List.append_nil, List.append_nil]
  | cons e rest ih =>
    obtain ⟨he, hrest⟩ := List.forall_mem_cons.mp hsegment
    rw [List.append_cons, ih (hist ++ [e]) hrest, sinceClear_push hist he, ← List.append_cons]

/-- They are the end of the history. -/
theorem exists_before_clear (hist : List (ReassemblerEvent ε)) :
    (∃ earlier, hist = earlier ++ sinceClear hist) ∧
      ∀ e ∈ sinceClear hist, e.input ≠ .clear := by
  induction hist using List.reverseRecOn with
  | nil => exact ⟨⟨[], rfl⟩, fun e he => absurd he List.not_mem_nil⟩
  | append_singleton hist e ih =>
    obtain ⟨⟨earlier, hsplit⟩, hrecent⟩ := ih
    by_cases he : e.input = .clear
    · rw [sinceClear_clear hist he]
      exact ⟨⟨hist ++ [e], (List.append_nil _).symm⟩, fun e he => absurd he List.not_mem_nil⟩
    · rw [sinceClear_push hist he]
      refine ⟨⟨earlier, ?_⟩, fun x hx => ?_⟩
      · rw [← List.append_assoc, ← hsplit]
      · rcases List.mem_append.mp hx with hx | hx
        · exact hrecent x hx
        · rw [List.mem_singleton.mp hx]
          exact he

theorem completedKeys_concat (hist : List (ReassemblerEvent ε)) (e : ReassemblerEvent ε) :
    completedKeys (hist ++ [e]) =
      completedKeys hist ++ ((completionOf e.reply).map Prod.fst).toList := by
  rw [completedKeys, List.filterMap_append]
  congr 1

theorem PushedIn.later {k : UInt32 × UInt64} (h : PushedIn config k hist f)
    (segment : List (ReassemblerEvent ε)) : PushedIn config k (hist ++ segment) f := by
  obtain ⟨e, he, hpush⟩ := h
  exact ⟨e, List.mem_append_left _ he, hpush⟩

/-- What the history of a run says about the state at its end. -/
structure ReassemblerTold (config : BindingConfig) (hist : List (ReassemblerEvent ε))
    (a : Reassembler) : Prop where
  wf : a.Wf
  within : ∀ r, a.state = some r →
    r.totalLen ≤ config.maxReassemblyBytes ∧ r.fragmentCount ≤ config.maxFragments
  collects : ∀ r, a.state = some r →
    ∃ taken, Collects (PushedIn config r.key (sinceClear hist)) r taken
  increasing : (completedKeys (sinceClear hist)).Pairwise KeyLt
  last : ∀ k ∈ completedKeys (sinceClear hist), ∃ last, a.lastCompleted = some last ∧
    (k = last ∨ KeyLt k last)

/-- A push that completes nothing and leaves the state as it was. -/
theorem ReassemblerTold.unchanged {a : Reassembler} (h : ReassemblerTold config hist a)
    (he : e.input ≠ .clear) (hnone : completionOf e.reply = none) :
    ReassemblerTold config (hist ++ [e]) a := by
  have hkeys : completedKeys (sinceClear (hist ++ [e])) = completedKeys (sinceClear hist) := by
    rw [sinceClear_push hist he, completedKeys_concat, hnone]
    exact List.append_nil _
  refine ⟨h.wf, h.within, fun r hr => ?_, hkeys ▸ h.increasing, hkeys ▸ h.last⟩
  obtain ⟨taken, hcollects⟩ := h.collects r hr
  rw [sinceClear_push hist he]
  exact ⟨taken, hcollects.mono fun f hf => hf.later [e]⟩

variable {a : Reassembler} {g : UInt32} {s : UInt64} {bytes : Bytes} {replaced : Bool}

/-- What the assembly of a push holds, with the fragment of the push. -/
theorem ReassemblerTold.fills (h : ReassemblerTold config hist a)
    (hfills : a.Fills ε g s bytes config f r replaced)
    (he : e.input = .push g s bytes config) :
    (∃ taken, Collects (PushedIn config (g, s) (sinceClear hist ++ [e])) (r.taking f) taken) ∧
      r.totalLen ≤ config.maxReassemblyBytes ∧ r.fragmentCount ≤ config.maxFragments := by
  obtain ⟨hfits, hcountMax, htotalMax⟩ := decode_fits hfills.decoded
  obtain ⟨hwf, hkey, hcount, htotal⟩ := hfills.base.wf h.wf hfits
  have hpushed : PushedIn config (g, s) (sinceClear hist ++ [e]) f :=
    ⟨e, List.mem_append_right _ (List.mem_singleton_self e), bytes, he, hfills.decoded⟩
  have hbase : ∃ taken, Collects (PushedIn config (g, s) (sinceClear hist ++ [e])) r taken := by
    rcases hfills.base with ⟨hstate, -, -, -, -⟩ | ⟨rfl, -, -⟩
    · obtain ⟨taken, hcollects⟩ := h.collects r hstate
      rw [hkey] at hcollects
      exact ⟨taken, hcollects.mono fun f hf => hf.later [e]⟩
    · exact ⟨_, collects_empty _ g s f⟩
  obtain ⟨taken, hcollects⟩ := hbase
  exact ⟨⟨_, hcollects.taking hwf hpushed hfits hcount htotal hfills.vacant⟩,
    htotal.trans_le htotalMax, hcount.trans_le hcountMax⟩

/-- A key that is not old comes after all that were completed. -/
theorem ReassemblerTold.newer (h : ReassemblerTold config hist a) (hnew : a.isOld g s = false) :
    ∀ k ∈ completedKeys (sinceClear hist), KeyLt k (g, s) := by
  intro k hk
  obtain ⟨last, hlast, hle⟩ := h.last k hk
  have hlt : KeyLt last (g, s) := keyLt_of_isOld hlast hnew
  rcases hle with rfl | hle
  · exact hlt
  · exact hle.trans hlt

theorem reassembler_told_step (h : ReassemblerTold config hist a) {call : ReassemblerCall}
    (hcall : call.Under config) :
    ReassemblerTold config (hist ++ [RunHistory.event (Reassembler.step (ε := ε)) a call])
      (a.step (ε := ε) call).2 := by
  cases call with
  | clear =>
    have hrecent := sinceClear_clear hist
      (e := RunHistory.event (Reassembler.step (ε := ε)) a .clear) rfl
    refine ⟨Reassembler.wf_new, fun r hr => ?_, fun r hr => ?_, ?_, ?_⟩
    · cases hr
    · cases hr
    · rw [hrecent]
      exact .nil
    · rw [hrecent]
      exact fun k hk => absurd hk List.not_mem_nil
  | push g s bytes config' =>
    obtain rfl : config' = config := hcall
    generalize hevent : RunHistory.event (Reassembler.step (ε := ε)) a
      (.push g s bytes config') = e
    have hinput : e.input = .push g s bytes config' := hevent ▸ rfl
    have hpush : e.input ≠ .clear := by
      rw [hinput]
      intro heq
      cases heq
    have hreply : e.reply = .pushed (a.push (ε := ε) g s bytes config').1 := hevent ▸ rfl
    have hwf := Reassembler.push_wf (ε := ε) h.wf g s bytes config'
    have hcase := Reassembler.push_cases (ε := ε) h.wf g s bytes config'
    change ReassemblerTold config' (hist ++ [e]) (a.push (ε := ε) g s bytes config').2
    generalize a.push (ε := ε) g s bytes config' = result at hwf hcase hreply
    cases hcase with
    | old | older | refused | repeated =>
      exact h.unchanged hpush (by rw [hreply]; rfl)
    | @stored f r replaced hfills hlt =>
      obtain ⟨⟨taken, hcollects⟩, htotal, hcount⟩ := h.fills hfills hinput
      have hsame := h.unchanged (e := e) hpush (by rw [hreply]; rfl)
      refine ⟨hwf, fun r' hr' => ?_, fun r' hr' => ?_, hsame.increasing, hsame.last⟩
      · obtain rfl := Option.some.inj hr'
        exact ⟨htotal, hcount⟩
      · obtain rfl := Option.some.inj hr'
        rw [sinceClear_push hist hpush, (hfills.wf h.wf).2]
        exact ⟨taken, hcollects⟩
    | @completed f r replaced hfills hall htiles =>
      have hkeys : completedKeys (sinceClear (hist ++ [e])) =
          completedKeys (sinceClear hist) ++ [(g, s)] := by
        rw [sinceClear_push hist hpush, completedKeys_concat, hreply]
        rfl
      have hnewer := h.newer hfills.new
      refine ⟨hwf, fun r' hr' => ?_, fun r' hr' => ?_, ?_, fun k hk => ⟨(g, s), rfl, ?_⟩⟩
      · cases hr'
      · cases hr'
      · rw [hkeys, List.pairwise_append]
        refine ⟨h.increasing, List.pairwise_singleton _ _, fun k hk k' hk' => ?_⟩
        rw [List.mem_singleton.mp hk']
        exact hnewer k hk
      · rw [hkeys] at hk
        rcases List.mem_append.mp hk with hk | hk
        · exact .inr (hnewer k hk)
        · exact .inl (List.mem_singleton.mp hk)
    | @spoiled f r replaced hfills hall htiles =>
      -- The key is taken for completed although nothing was.
      have hsame := h.unchanged (e := e) hpush (by rw [hreply]; rfl)
      have hnewer := h.newer hfills.new
      refine ⟨hwf, fun r' hr' => ?_, fun r' hr' => ?_, hsame.increasing,
        fun k hk => ⟨(g, s), rfl, .inr ?_⟩⟩
      · cases hr'
      · cases hr'
      · rw [sinceClear_push hist hpush, completedKeys_concat, hreply] at hk
        change k ∈ completedKeys (sinceClear hist) ++ [] at hk
        rw [List.append_nil] at hk
        exact hnewer k hk

theorem reassembler_told (calls : List ReassemblerCall)
    (hcalls : ∀ call ∈ calls, call.Under config) :
    ReassemblerTold config (RunHistory.trace (Reassembler.step (ε := ε)) Reassembler.new calls)
      (RunHistory.run (Reassembler.step (ε := ε)) Reassembler.new calls) := by
  refine RunHistory.run_history_of (Reassembler.step (ε := ε))
    (P := fun hist a => ReassemblerTold config hist a) (Q := fun call => call.Under config) ?_
    (fun hist a call hcall h => reassembler_told_step h hcall) calls hcalls
  refine ⟨Reassembler.wf_new, fun r hr => ?_, fun r hr => ?_, .nil, ?_⟩
  · cases hr
  · cases hr
  · exact fun k hk => absurd hk List.not_mem_nil

/-- A completion puts fragments together that were pushed under its key since the last clear. -/
theorem ReassemblerTold.completed (h : ReassemblerTold config hist a) {call : ReassemblerCall}
    (hcall : call.Under config) {k : UInt32 × UInt64} {payload : Bytes}
    (hcompletion : completionOf (a.step (ε := ε) call).1 = some (k, payload)) :
    ∃ parts, Covers parts payload ∧ ∀ f ∈ parts, PushedIn config k
      (sinceClear hist ++ [RunHistory.event (Reassembler.step (ε := ε)) a call]) f := by
  cases call with
  | clear => cases hcompletion
  | push g s bytes config' =>
    obtain rfl : config' = config := hcall
    generalize hevent : RunHistory.event (Reassembler.step (ε := ε)) a
      (.push g s bytes config') = e
    have hinput : e.input = .push g s bytes config' := hevent ▸ rfl
    have hcase := Reassembler.push_cases (ε := ε) h.wf g s bytes config'
    change completionOf (.pushed (a.push (ε := ε) g s bytes config').1) = _ at hcompletion
    generalize a.push (ε := ε) g s bytes config' = result at hcase hcompletion
    cases hcase with
    | @completed f r replaced hfills hall htiles =>
      obtain ⟨rfl, rfl⟩ := Prod.mk.inj (Option.some.inj hcompletion)
      obtain ⟨⟨taken, hcollects⟩, -⟩ := h.fills hfills hinput
      have hwf := (hfills.wf h.wf).1
      exact ⟨inOrder taken, hcollects.covers hwf hall htiles,
        fun f hf => (hcollects.kind f (mem_inOrder.mp hf)).1⟩
    | _ => cases hcompletion

end Histories

/-- Whatever is pushed, in whatever order: no bound is passed, what is kept stays within the
configured limits and is counted, a completed payload is the concatenation of disjoint fragments
that were pushed under its key, and keys complete in increasing order until the next `clear`. -/
theorem reassembler_is_safe (config : BindingConfig) (calls : List ReassemblerCall)
    (hcalls : ∀ call ∈ calls, call.Under config) :
    let a := RunHistory.run (Reassembler.step (ε := ε)) Reassembler.new calls
    let events := RunHistory.trace (Reassembler.step (ε := ε)) Reassembler.new calls
    (∀ g s bytes, a.pushChecked (ε := ε) g s bytes config = some (a.push g s bytes config)) ∧
    (∀ r, a.state = some r → r.bytes.length = r.totalLen ∧
      r.totalLen ≤ config.maxReassemblyBytes ∧ r.slots.length ≤ config.maxFragments ∧
      r.received = r.slots.countP Option.isSome) ∧
    (∀ before e after, events = before ++ e :: after →
      ∀ k payload, completionOf e.reply = some (k, payload) →
        ∃ earlier recent, before = earlier ++ recent ∧ (∀ x ∈ recent, x.input ≠ .clear) ∧
          ∃ parts, Covers parts payload ∧ ∀ f ∈ parts, PushedIn config k (recent ++ [e]) f) ∧
    (∀ before segment after, events = before ++ segment ++ after →
      (∀ e ∈ segment, e.input ≠ .clear) → (completedKeys segment).Pairwise KeyLt) := by
  intro a events
  have htold := reassembler_told (ε := ε) calls hcalls
  refine ⟨fun g s bytes => Reassembler.pushChecked_eq htold.wf g s bytes config, fun r hr => ?_,
    fun before e after hsplit k payload hcompletion => ?_,
    fun before segment after hsplit hsegment => ?_⟩
  · obtain ⟨hwf, -⟩ := htold.wf r hr
    obtain ⟨htotal, hcount⟩ := htold.within r hr
    exact ⟨hwf.bytes_length, htotal, hwf.slots_length.trans_le hcount, hwf.received_eq⟩
  · obtain ⟨js, call, ks, rfl, rfl, rfl, -⟩ := RunHistory.trace_cut _ hsplit
    have hbefore := reassembler_told (ε := ε) js
      fun call hcall => hcalls call (List.mem_append_left _ hcall)
    have hcall : call.Under config := hcalls call (List.mem_append_right _ List.mem_cons_self)
    -- What was pushed before the last clear cannot be among the parts.
    obtain ⟨⟨earlier, hearlier⟩, hrecent⟩ := exists_before_clear
      (RunHistory.trace (Reassembler.step (ε := ε)) Reassembler.new js)
    exact ⟨earlier, _, hearlier, hrecent, hbefore.completed hcall hcompletion⟩
  · obtain ⟨js, ks, rfl, hjs, -⟩ := RunHistory.trace_split _ hsplit
    have hstarts := reassembler_told (ε := ε) js
      fun call hcall => hcalls call (List.mem_append_left _ hcall)
    have hincreasing := hstarts.increasing
    rw [hjs, sinceClear_append before hsegment, completedKeys, List.filterMap_append,
      List.pairwise_append] at hincreasing
    exact hincreasing.2.1

/-- The bytes of a fragment with any numbers. -/
def fragmentOf (index count offset totalLen : ℕ) (payload : Bytes) : Bytes :=
  fragmentMagic ++ ([fragmentVersion] ++ ([0] ++ (beBytes 2 index ++ (beBytes 2 count ++
    (beBytes 4 offset ++ (beBytes 4 totalLen ++ payload))))))

/-- Two fragments at one place, some bytes that are no fragment, and a whole payload. -/
def hostileCalls : List ReassemblerCall :=
  [.push 1 1 (fragmentOf 0 2 0 2 [7]) {}, .push 1 1 (fragmentOf 1 2 0 2 [8]) {},
    .push 1 2 [7, 8, 9] {}, .push 1 2 (fragmentOf 0 1 0 1 [9]) {}]

theorem hostile_calls_are_safe :
    (RunHistory.run (Reassembler.step (ε := Unit)) Reassembler.new hostileCalls).pushChecked
        (ε := Unit) 1 3 (fragmentOf 5 4 3 2 [1]) {} =
      some ((RunHistory.run (Reassembler.step (ε := Unit)) Reassembler.new hostileCalls).push
        1 3 (fragmentOf 5 4 3 2 [1]) {}) ∧
    (completedKeys (RunHistory.trace (Reassembler.step (ε := Unit)) Reassembler.new
      hostileCalls)).Pairwise KeyLt := by
  have hcalls : ∀ call ∈ hostileCalls, call.Under {} := by
    simp [hostileCalls, ReassemblerCall.Under]
  have hsafe := reassembler_is_safe (ε := Unit) {} hostileCalls hcalls
  refine ⟨hsafe.1 1 3 (fragmentOf 5 4 3 2 [1]), hsafe.2.2.2 [] _ [] ?_ fun e he => ?_⟩
  · rw [List.append_nil]
    rfl
  · have hinput := List.mem_map_of_mem (f := RunHistory.Event.input) he
    rw [RunHistory.map_input_trace] at hinput
    have hpushes : ∀ call ∈ hostileCalls, call ≠ .clear := by
      simp [hostileCalls]
    exact hpushes e.input hinput

end MutsukiLink
