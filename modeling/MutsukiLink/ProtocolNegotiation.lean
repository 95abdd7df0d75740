import MutsukiLink.HandshakeCases

/-! `negotiate_protocols` looks at the first offer of each identifier on either side. It fails
when two of them conflict, and otherwise selects the best of each shared protocol, the same
selections for both peers. -/
namespace MutsukiLink
open Std (ExtTreeSet)

/-- The only offer of an identifier the negotiation looks at. -/
def firstOffer (offers : List ProtocolOffer) (id : ProtocolStableId) : Option ProtocolOffer :=
  offers.find? fun offer => offer.stableId = id

/-- Two offers of one identifier that cannot be one protocol. -/
def OffersConflict (a b : ProtocolOffer) : Prop :=
  a.schema ≠ b.schema ∨
  (∃ d e, a.debugIdentity = some d ∧ b.debugIdentity = some e ∧ d ≠ e) ∨
  ((∃ v, a.versions.Contains v ∧ b.versions.Contains v) ∧
    a.capabilities.protocolId ≠ b.capabilities.protocolId)

/-- The greatest version inside both ranges with the greatest capability set below both. -/
structure BestSelection (a b : ProtocolOffer) (s : ProtocolSelection) : Prop where
  schema : a.schema = s.schema ∧ b.schema = s.schema
  version_inside : a.versions.Contains s.version ∧ b.versions.Contains s.version
  version_greatest : ∀ v, a.versions.Contains v → b.versions.Contains v →
    v.major = s.version.major ∧ v.minor ≤ s.version.minor
  capabilities_below : s.capabilities.isSubsetOf a.capabilities = true ∧
    s.capabilities.isSubsetOf b.capabilities = true
  capabilities_greatest : ∀ c : ProtocolCapabilitySet, c.isSubsetOf a.capabilities = true →
    c.isSubsetOf b.capabilities = true → c.isSubsetOf s.capabilities = true

theorem SelectedFrom.best {a b : ProtocolOffer} {s : ProtocolSelection} (h : SelectedFrom a b s) :
    BestSelection a b s where
  schema := ⟨h.local_schema, h.remote_schema⟩
  version_inside := VersionRange.negotiate_contains h.version
  version_greatest := (VersionRange.negotiate_eq_some_iff.mp h.version).2
  capabilities_below := ⟨ProtocolCapabilitySet.intersect_subset_left h.capabilities,
    ProtocolCapabilitySet.intersect_subset_right h.capabilities⟩
  capabilities_greatest := fun _ => ProtocolCapabilitySet.intersect_greatest h.capabilities

theorem SelectedFrom.swap {a b : ProtocolOffer} {s : ProtocolSelection} (h : SelectedFrom a b s) :
    SelectedFrom b a s where
  local_id := h.remote_id
  remote_id := h.local_id
  local_schema := h.remote_schema
  remote_schema := h.local_schema
  version := by
    obtain ⟨⟨ha, hb⟩, hmax⟩ := VersionRange.negotiate_eq_some_iff.mp h.version
    exact VersionRange.negotiate_eq_some_iff.mpr ⟨⟨hb, ha⟩, fun w hwb hwa => hmax w hwa hwb⟩
  capabilities := (ProtocolCapabilitySet.intersect_comm _ _).trans h.capabilities

theorem OffersConflict.swap {a b : ProtocolOffer} (h : OffersConflict a b) :
    OffersConflict b a := by
  rcases h with h | ⟨d, e, hd, he, hne⟩ | ⟨⟨v, ha, hb⟩, hne⟩
  · exact .inl h.symm
  · exact .inr (.inl ⟨e, d, he, hd, hne.symm⟩)
  · exact .inr (.inr ⟨⟨v, hb, ha⟩, hne.symm⟩)

section offer
variable {remote : List ProtocolOffer} {a b : ProtocolOffer}
  {acc : ExtTreeSet ProtocolStableId × List ProtocolSelection}

theorem negotiateOffer_seen (h : a.stableId ∈ acc.1) : negotiateOffer remote acc a = .ok acc :=
  if_pos (ExtTreeSet.contains_iff_mem.mpr h)

theorem firstOffer_id {id : ProtocolStableId} (h : firstOffer remote id = some b) :
    b.stableId = id := by
  simpa using List.find?_some h

theorem negotiateOffer_alone (hnew : a.stableId ∉ acc.1)
    (h : firstOffer remote a.stableId = none) :
    negotiateOffer remote acc a = .ok (acc.1.insert a.stableId, acc.2) := by
  unfold firstOffer at h
  simp only [negotiateOffer, ExtTreeSet.contains_iff_mem, hnew, if_false, h]

theorem negotiateOffer_shared (hnew : a.stableId ∉ acc.1)
    (h : firstOffer remote a.stableId = some b) :
    negotiateOffer remote acc a =
      if a.schema ≠ b.schema ∨ (a.debugIdentity.isSome ∧ b.debugIdentity.isSome ∧
          a.debugIdentity ≠ b.debugIdentity) then .error ()
      else (a.versions.negotiate b.versions).elim (.ok (acc.1.insert a.stableId, acc.2))
        fun version => (a.capabilities.intersect b.capabilities).elim (.error ())
          fun capabilities => .ok (acc.1.insert a.stableId, acc.2 ++
            [⟨a.stableId, version, a.schema, capabilities⟩]) := by
  unfold firstOffer at h
  simp only [negotiateOffer, ExtTreeSet.contains_iff_mem, hnew, if_false, h]
  congr 1
  cases a.versions.negotiate b.versions with
  | none => rfl
  | some version => cases a.capabilities.intersect b.capabilities <;> rfl

/-- The guard of the loop, and the conflict that the capability sets add to it. -/
theorem offersConflict_iff (a b : ProtocolOffer) :
    OffersConflict a b ↔
      (a.schema ≠ b.schema ∨ (a.debugIdentity.isSome ∧ b.debugIdentity.isSome ∧
        a.debugIdentity ≠ b.debugIdentity)) ∨
      ((a.versions.negotiate b.versions).isSome ∧
        a.capabilities.intersect b.capabilities = none) := by
  rw [VersionRange.negotiate_isSome_iff, ← Option.not_isSome_iff_eq_none,
    ProtocolCapabilitySet.intersect_isSome_iff, or_assoc]
  refine or_congr_right (or_congr_left ?_)
  -- Both identities are present exactly when they can be named.
  cases hd : a.debugIdentity with
  | none => simp
  | some d =>
    cases he : b.debugIdentity with
    | none => simp
    | some e => simp

theorem selectedFrom_of_agree {v : ProtocolVersion} (hid : b.stableId = a.stableId)
    (hc : ¬ OffersConflict a b) (hv : a.versions.negotiate b.versions = some v) :
    ∃ c, a.capabilities.intersect b.capabilities = some c ∧
      SelectedFrom a b ⟨a.stableId, v, a.schema, c⟩ := by
  have hschema : a.schema = b.schema := not_ne_iff.mp fun hne => hc (.inl hne)
  rw [offersConflict_iff, not_or] at hc
  cases hcap : a.capabilities.intersect b.capabilities with
  | none => exact absurd ⟨by simp [hv], hcap⟩ hc.2
  | some c => exact ⟨c, rfl, rfl, hid, rfl, hschema.symm, hv, hcap⟩

theorem negotiateOffer_conflict (hnew : a.stableId ∉ acc.1)
    (h : firstOffer remote a.stableId = some b) (hc : OffersConflict a b) :
    negotiateOffer remote acc a = .error () := by
  rw [negotiateOffer_shared hnew h]
  rcases (offersConflict_iff a b).mp hc with hc | ⟨hv, hcap⟩
  · exact if_pos hc
  · obtain ⟨v, hv⟩ := Option.isSome_iff_exists.mp hv
    rw [hv, hcap]
    exact ite_self _

theorem negotiateOffer_settled (hnew : a.stableId ∉ acc.1)
    (h : firstOffer remote a.stableId = some b) (hc : ¬ OffersConflict a b) :
    ((∀ s, ¬ SelectedFrom a b s) ∧
      negotiateOffer remote acc a = .ok (acc.1.insert a.stableId, acc.2)) ∨
    ∃ s, SelectedFrom a b s ∧
      negotiateOffer remote acc a = .ok (acc.1.insert a.stableId, acc.2 ++ [s]) := by
  have hguard := fun hg => hc ((offersConflict_iff a b).mpr (.inl hg))
  rw [negotiateOffer_shared hnew h, if_neg hguard]
  cases hv : a.versions.negotiate b.versions with
  | none =>
    refine .inl ⟨fun s hs => ?_, rfl⟩
    exact absurd (hv.symm.trans hs.version) (by simp)
  | some v =>
    obtain ⟨c, hcap, hs⟩ := selectedFrom_of_agree (firstOffer_id h) hc hv
    exact .inr ⟨_, hs, by rw [hcap]; rfl⟩

end offer

theorem SelectedFrom.unique {a b : ProtocolOffer} {s t : ProtocolSelection}
    (hs : SelectedFrom a b s) (ht : SelectedFrom a b t) : s = t := by
  obtain ⟨hs1, -, hs2, -, hs3, hs4⟩ := hs
  obtain ⟨ht1, -, ht2, -, ht3, ht4⟩ := ht
  obtain ⟨sid, sversion, sschema, scapabilities⟩ := s
  obtain ⟨tid, tversion, tschema, tcapabilities⟩ := t
  obtain rfl : sid = tid := hs1.symm.trans ht1
  obtain rfl : sschema = tschema := hs2.symm.trans ht2
  obtain rfl : sversion = tversion := Option.some.inj (hs3.symm.trans ht3)
  obtain rfl : scapabilities = tcapabilities := Option.some.inj (hs4.symm.trans ht4)
  rfl

section firstOffer
variable {done : List ProtocolOffer} {a x : ProtocolOffer} {id : ProtocolStableId}

theorem firstOffer_eq_none_iff :
    firstOffer done id = none ↔ id ∉ done.map fun offer => offer.stableId := by
  simp only [firstOffer, List.find?_eq_none, decide_eq_true_eq, List.mem_map, not_exists, not_and]

theorem firstOffer_append (h : firstOffer done id = some x) (rest : List ProtocolOffer) :
    firstOffer (done ++ rest) id = some x := by
  unfold firstOffer at h ⊢
  rw [List.find?_append, h, Option.some_or]

/-- A repeated identifier does not become the first offer of anything. -/
theorem firstOffer_concat_seen (h : a.stableId ∈ done.map fun offer => offer.stableId)
    (id : ProtocolStableId) : firstOffer (done ++ [a]) id = firstOffer done id := by
  cases hf : firstOffer done id with
  | some x => exact firstOffer_append hf [a]
  | none =>
    rw [firstOffer_eq_none_iff] at hf ⊢
    rw [List.map_append, List.mem_append, not_or]
    refine ⟨hf, fun hid => hf ?_⟩
    rw [List.map_singleton, List.mem_singleton] at hid
    exact hid ▸ h

theorem firstOffer_concat_new (h : a.stableId ∉ done.map fun offer => offer.stableId) :
    firstOffer (done ++ [a]) id = some x ↔
      firstOffer done id = some x ∨ (id = a.stableId ∧ x = a) := by
  by_cases hid : id = a.stableId
  · subst hid
    have hnone : firstOffer done a.stableId = none := firstOffer_eq_none_iff.mpr h
    rw [hnone]
    unfold firstOffer at hnone ⊢
    rw [List.find?_append, hnone]
    simp [eq_comm]
  · have hne : ¬ a.stableId = id := fun he => hid he.symm
    unfold firstOffer
    rw [List.find?_append, List.find?_singleton, decide_eq_false hne]
    simp [hid]

end firstOffer

/-- The loop of `negotiate_protocols` after the offers `done`: it has selected the best of the
protocols they share with the remote list, in the order of their first offers. -/
structure NegotiatedSoFar (remote done : List ProtocolOffer)
    (acc : ExtTreeSet ProtocolStableId × List ProtocolSelection) : Prop where
  seen : ∀ id, id ∈ acc.1 ↔ id ∈ done.map fun offer => offer.stableId
  agree : ∀ id a b, firstOffer done id = some a → firstOffer remote id = some b →
    ¬ OffersConflict a b
  order : (acc.2.map fun s => s.stableId).Sublist (done.map fun offer => offer.stableId).eraseDups
  selected : ∀ s, s ∈ acc.2 ↔ ∃ a b, firstOffer done s.stableId = some a ∧
    firstOffer remote s.stableId = some b ∧ SelectedFrom a b s

namespace NegotiatedSoFar
variable {remote done : List ProtocolOffer} {a : ProtocolOffer}
  {acc acc' : ExtTreeSet ProtocolStableId × List ProtocolSelection}

theorem skip (h : NegotiatedSoFar remote done acc) (hseen : a.stableId ∈ acc.1) :
    NegotiatedSoFar remote (done ++ [a]) acc := by
  have hdone : a.stableId ∈ done.map fun offer => offer.stableId := (h.seen _).mp hseen
  refine ⟨fun id => ?_, fun id x b hx => ?_, ?_, fun s => ?_⟩
  · rw [h.seen, List.map_append, List.mem_append, List.map_singleton, List.mem_singleton]
    exact ⟨.inl, fun hid => hid.elim (fun hm => hm) fun he => he ▸ hdone⟩
  · rw [firstOffer_concat_seen hdone] at hx
    exact h.agree id x b hx
  · rw [List.map_append, List.eraseDups_append]
    exact h.order.trans (List.sublist_append_left _ _)
  · simp only [firstOffer_concat_seen hdone]
    exact h.selected s

/-- A first offer that conflicts with nothing adds what it selects, if anything. -/
theorem take (h : NegotiatedSoFar remote done acc) (hnew : a.stableId ∉ acc.1)
    (hagree : ∀ b, firstOffer remote a.stableId = some b → ¬ OffersConflict a b)
    (found : List ProtocolSelection) (hlen : found.length ≤ 1)
    (hfound : ∀ s, s ∈ found ↔ ∃ b, firstOffer remote a.stableId = some b ∧ SelectedFrom a b s) :
    NegotiatedSoFar remote (done ++ [a]) (acc.1.insert a.stableId, acc.2 ++ found) := by
  have hdone : a.stableId ∉ done.map fun offer => offer.stableId :=
    fun hm => hnew ((h.seen _).mpr hm)
  refine ⟨fun id => ?_, fun id x b hx hb => ?_, ?_, fun s => ?_⟩
  · rw [ExtTreeSet.mem_insert, Std.compare_eq_iff_eq, h.seen, List.map_append, List.mem_append,
      List.map_singleton, List.mem_singleton, or_comm, eq_comm]
  · rcases (firstOffer_concat_new hdone).mp hx with hx | ⟨rfl, rfl⟩
    · exact h.agree id x b hx hb
    · exact hagree b hb
  · rw [List.map_append, List.map_append, List.eraseDups_append, List.map_singleton]
    refine h.order.append ?_
    -- The new identifier is a new one in the order of first offers as well.
    have hfresh : [a.stableId].removeAll (done.map fun offer => offer.stableId) = [a.stableId] := by
      simpa [List.removeAll] using hdone
    rw [hfresh]
    rcases found with _ | ⟨s, _ | ⟨t, rest⟩⟩
    · exact List.nil_sublist _
    · obtain ⟨b, -, hs⟩ := (hfound s).mp (List.mem_singleton.mpr rfl)
      rw [List.map_singleton, ← hs.local_id]
      exact List.Sublist.refl _
    · simp at hlen
  · rw [List.mem_append, h.selected, hfound]
    constructor
    · rintro (⟨x, b, hx, hb, hs⟩ | ⟨b, hb, hs⟩)
      · exact ⟨x, b, firstOffer_append hx _, hb, hs⟩
      · refine ⟨a, b, (firstOffer_concat_new hdone).mpr (.inr ⟨hs.local_id.symm, rfl⟩), ?_, hs⟩
        rwa [← hs.local_id]
    · rintro ⟨x, b, hx, hb, hs⟩
      rcases (firstOffer_concat_new hdone).mp hx with hx | ⟨hid, rfl⟩
      · exact .inl ⟨x, b, hx, hb, hs⟩
      · exact .inr ⟨b, hid ▸ hb, hs⟩

theorem offer (h : NegotiatedSoFar remote done acc) (a : ProtocolOffer) :
    (∃ acc', negotiateOffer remote acc a = .ok acc' ∧ NegotiatedSoFar remote (done ++ [a]) acc') ∨
    (negotiateOffer remote acc a = .error () ∧ ∃ b, firstOffer (done ++ [a]) a.stableId = some a ∧
      firstOffer remote a.stableId = some b ∧ OffersConflict a b) := by
  by_cases hseen : a.stableId ∈ acc.1
  · exact .inl ⟨acc, negotiateOffer_seen hseen, h.skip hseen⟩
  cases hb : firstOffer remote a.stableId with
  | none =>
    refine .inl ⟨_, negotiateOffer_alone hseen hb, ?_⟩
    simpa using h.take hseen (by simp [hb]) [] (by simp) (by simp [hb])
  | some b =>
    by_cases hc : OffersConflict a b
    · have hdone : a.stableId ∉ done.map fun offer => offer.stableId :=
        fun hm => hseen ((h.seen _).mpr hm)
      exact .inr ⟨negotiateOffer_conflict hseen hb hc, b,
        (firstOffer_concat_new hdone).mpr (.inr ⟨rfl, rfl⟩), rfl, hc⟩
    · have hagree : ∀ c, firstOffer remote a.stableId = some c → ¬ OffersConflict a c := by
        intro c hfc
        obtain rfl := Option.some.inj (hb.symm.trans hfc)
        exact hc
      refine .inl ?_
      rcases negotiateOffer_settled hseen hb hc with ⟨hnone, he⟩ | ⟨s, hs, he⟩
      · refine ⟨_, he, ?_⟩
        simpa using h.take hseen hagree [] (by simp) (by simp [hb, hnone])
      · refine ⟨_, he, h.take hseen hagree [s] (by simp) fun t => ?_⟩
        rw [List.mem_singleton]
        constructor
        · rintro rfl
          exact ⟨b, hb, hs⟩
        · rintro ⟨c, hfc, ht⟩
          obtain rfl := Option.some.inj (hb.symm.trans hfc)
          exact ht.unique hs

theorem offers (h : NegotiatedSoFar remote done acc) (rest : List ProtocolOffer) :
    (∃ acc', rest.foldlM (negotiateOffer remote) acc = .ok acc' ∧
      NegotiatedSoFar remote (done ++ rest) acc') ∨
    (rest.foldlM (negotiateOffer remote) acc = .error () ∧ ∃ id a b,
      firstOffer (done ++ rest) id = some a ∧ firstOffer remote id = some b ∧
        OffersConflict a b) := by
  induction rest generalizing done acc with
  | nil => exact .inl ⟨acc, rfl, by simpa using h⟩
  | cons a rest ih =>
    rw [List.foldlM_cons, List.append_cons]
    rcases h.offer a with ⟨next, he, hnext⟩ | ⟨he, b, hfirst, hb, hc⟩
    · rw [he]
      exact ih hnext
    · rw [he]
      exact .inr ⟨rfl, a.stableId, a, b, firstOffer_append hfirst rest, hb, hc⟩

end NegotiatedSoFar

/-- What the negotiation of two offer lists does, whichever way round they are given. -/
theorem negotiateProtocols_outcome (localOffers remote : List ProtocolOffer) :
    (∃ selected, negotiateProtocols localOffers remote = .ok selected ∧
      (∀ id a b, firstOffer localOffers id = some a → firstOffer remote id = some b →
        ¬ OffersConflict a b) ∧
      (selected.map fun s => s.stableId).Sublist
        (localOffers.map fun offer => offer.stableId).eraseDups ∧
      ∀ s, s ∈ selected ↔ ∃ a b, firstOffer localOffers s.stableId = some a ∧
        firstOffer remote s.stableId = some b ∧ SelectedFrom a b s) ∨
    (negotiateProtocols localOffers remote = .error () ∧ ∃ id a b,
      firstOffer localOffers id = some a ∧ firstOffer remote id = some b ∧
        OffersConflict a b) := by
  have hstart : NegotiatedSoFar remote [] (∅, []) :=
    ⟨by simp, by simp [firstOffer], by simp, by simp [firstOffer]⟩
  unfold negotiateProtocols
  rcases hstart.offers localOffers with ⟨acc, he, h⟩ | ⟨he, h⟩
  · rw [List.nil_append] at h
    exact .inl ⟨acc.2, by rw [he], h.agree, h.order, h.selected⟩
  · rw [List.nil_append] at h
    exact .inr ⟨by rw [he], h⟩

theorem negotiateProtocols_error_iff (localOffers remote : List ProtocolOffer) :
    negotiateProtocols localOffers remote = .error () ↔
      ∃ id a b, firstOffer localOffers id = some a ∧ firstOffer remote id = some b ∧
        OffersConflict a b := by
  rcases negotiateProtocols_outcome localOffers remote with ⟨_, he, hagree, -⟩ | ⟨he, hc⟩
  · rw [he]
    refine ⟨fun h => absurd h (by simp), fun h => ?_⟩
    obtain ⟨id, a, b, ha, hb, hc⟩ := h
    exact absurd hc (hagree id a b ha hb)
  · exact ⟨fun _ => hc, fun _ => he⟩

theorem negotiateProtocols_error_swap (localOffers remote : List ProtocolOffer) :
    negotiateProtocols remote localOffers = .error () ↔
      negotiateProtocols localOffers remote = .error () := by
  rw [negotiateProtocols_error_iff, negotiateProtocols_error_iff]
  constructor
  · intro h
    obtain ⟨id, a, b, ha, hb, hc⟩ := h
    exact ⟨id, b, a, hb, ha, hc.swap⟩
  · intro h
    obtain ⟨id, a, b, ha, hb, hc⟩ := h
    exact ⟨id, b, a, hb, ha, hc.swap⟩

theorem negotiateProtocols_selected {localOffers remote : List ProtocolOffer}
    {selected : List ProtocolSelection}
    (h : negotiateProtocols localOffers remote = .ok selected) :
    (selected.map fun s => s.stableId).Sublist
        (localOffers.map fun offer => offer.stableId).eraseDups ∧
      ∀ s, s ∈ selected ↔ ∃ a b, firstOffer localOffers s.stableId = some a ∧
        firstOffer remote s.stableId = some b ∧ SelectedFrom a b s := by
  rcases negotiateProtocols_outcome localOffers remote with ⟨found, he, -, hrest⟩ | ⟨he, -⟩
  · obtain rfl := Except.ok.inj (h.symm.trans he)
    exact hrest
  · exact absurd (h.symm.trans he) (by simp)

/-- Both peers arrive at the same selections. -/
theorem negotiateProtocols_swap {localOffers remote : List ProtocolOffer}
    {selected : List ProtocolSelection}
    (h : negotiateProtocols localOffers remote = .ok selected) :
    ∃ swapped, negotiateProtocols remote localOffers = .ok swapped ∧ swapped.Perm selected := by
  cases hswap : negotiateProtocols remote localOffers with
  | error e =>
    have herr := (negotiateProtocols_error_swap localOffers remote).mp hswap
    exact absurd (h.symm.trans herr) (by simp)
  | ok swapped =>
    refine ⟨swapped, rfl, ?_⟩
    have hnodup : selected.Nodup := (negotiateProtocols_ok h).1.of_map _
    have hnodup' : swapped.Nodup := (negotiateProtocols_ok hswap).1.of_map _
    rw [List.perm_ext_iff_of_nodup hnodup' hnodup]
    intro s
    rw [(negotiateProtocols_selected h).2, (negotiateProtocols_selected hswap).2]
    constructor
    · intro hs
      obtain ⟨a, b, ha, hb, hs⟩ := hs
      exact ⟨b, a, hb, ha, hs.swap⟩
    · intro hs
      obtain ⟨a, b, ha, hb, hs⟩ := hs
      exact ⟨b, a, hb, ha, hs.swap⟩

/-- An identifier both sides offer in versions that overlap. -/
def OverlapsAt (localOffers remote : List ProtocolOffer) (id : ProtocolStableId) : Prop :=
  ∃ a b v, firstOffer localOffers id = some a ∧ firstOffer remote id = some b ∧
    a.versions.Contains v ∧ b.versions.Contains v

theorem negotiateProtocols_covers {localOffers remote : List ProtocolOffer}
    {selected : List ProtocolSelection}
    (h : negotiateProtocols localOffers remote = .ok selected) (id : ProtocolStableId) :
    (∃ s ∈ selected, s.stableId = id) ↔ OverlapsAt localOffers remote id := by
  constructor
  · intro hs
    obtain ⟨s, hs, rfl⟩ := hs
    obtain ⟨a, b, ha, hb, hsel⟩ := ((negotiateProtocols_selected h).2 s).mp hs
    obtain ⟨hva, hvb⟩ := VersionRange.negotiate_contains hsel.version
    exact ⟨a, b, s.version, ha, hb, hva, hvb⟩
  · intro hover
    obtain ⟨a, b, v, ha, hb, hva, hvb⟩ := hover
    -- Without a conflict the capability sets name one protocol, so the two offers select.
    have hagree : ¬ OffersConflict a b := by
      intro hc
      have herr := (negotiateProtocols_error_iff localOffers remote).mpr ⟨id, a, b, ha, hb, hc⟩
      exact absurd (h.symm.trans herr) (by simp)
    have hida : a.stableId = id := firstOffer_id ha
    subst hida
    obtain ⟨w, hw, -⟩ := VersionRange.negotiate_of_contains hva hvb
    obtain ⟨c, -, hs⟩ := selectedFrom_of_agree (firstOffer_id hb) hagree hw
    exact ⟨_, ((negotiateProtocols_selected h).2 _).mpr ⟨a, b, ha, hb, hs⟩, rfl⟩

/-- `negotiate_protocols` fails exactly on a conflict between two first offers, otherwise
selects the best of every protocol shared in overlapping versions, and gives both peers the same
answer. -/
theorem negotiation_is_exact_and_symmetric (localOffers remote : List ProtocolOffer) :
    (negotiateProtocols localOffers remote = .error () ↔
      ∃ id a b, firstOffer localOffers id = some a ∧ firstOffer remote id = some b ∧
        OffersConflict a b) ∧
    (∀ selected, negotiateProtocols localOffers remote = .ok selected →
      (selected.map fun s => s.stableId).Nodup ∧
      (selected.map fun s => s.stableId).Sublist
        (localOffers.map fun offer => offer.stableId).eraseDups ∧
      (∀ id, (∃ s ∈ selected, s.stableId = id) ↔ OverlapsAt localOffers remote id) ∧
      ∀ s ∈ selected, ∃ a b, firstOffer localOffers s.stableId = some a ∧
        firstOffer remote s.stableId = some b ∧ BestSelection a b s) ∧
    (negotiateProtocols remote localOffers = .error () ↔
      negotiateProtocols localOffers remote = .error ()) ∧
    ∀ selected, negotiateProtocols localOffers remote = .ok selected →
      ∃ swapped, negotiateProtocols remote localOffers = .ok swapped ∧ swapped.Perm selected := by
  refine ⟨negotiateProtocols_error_iff _ _, fun selected h => ?_,
    negotiateProtocols_error_swap _ _, fun selected h => negotiateProtocols_swap h⟩
  obtain ⟨horder, hmem⟩ := negotiateProtocols_selected h
  refine ⟨(negotiateProtocols_ok h).1, horder, negotiateProtocols_covers h, fun s hs => ?_⟩
  obtain ⟨a, b, ha, hb, hsel⟩ := (hmem s).mp hs
  exact ⟨a, b, ha, hb, hsel.best⟩

end MutsukiLink
