import MutsukiLink.RegistryModel
import MutsukiLink.HandshakeCases

/-! What every registered descriptor satisfies, and the two negotiations over it: the loop of the
frozen registry and the loop of the handshake compute the same selections. -/
namespace MutsukiLink
open Std (ExtTreeMap ExtTreeSet)

structure ValidChannel (c : ProtocolChannelDescriptor) : Prop where
  id_ne : c.id.val ≠ 0
  frame_ne : c.maxFrameBytes ≠ 0
  in_flight_ne : c.maxInFlightFrames ≠ 0
  stream_ne : c.maxStreamBytes ≠ some 0
  stream_mode : c.mode = .stream ↔ c.maxStreamBytes.isSome = true
  discard_mode : c.discardable = true → c.mode = .event

structure ValidDescriptor (d : ProtocolDescriptor) : Prop where
  versions : d.versions.isValid = true
  revision : d.schema.revision ≠ 0
  owner : d.capabilities.protocolId = d.stableId
  bounded : d.capabilities.isBounded = true
  channel_ids : (d.channels.map fun c => c.id).Nodup
  channels : ∀ c ∈ d.channels, ValidChannel c

/-- Every descriptor is valid and stands under its own identifier. -/
def Catalogued (descriptors : ExtTreeMap ProtocolStableId ProtocolDescriptor) : Prop :=
  ∀ (id : ProtocolStableId) (d : ProtocolDescriptor),
    descriptors[id]? = some d → d.stableId = id ∧ ValidDescriptor d

namespace ProtocolRegistry

theorem validChannel_of_check {limits : ProtocolRegistryLimits} {c : ProtocolChannelDescriptor}
    (h : ¬invalidChannel limits c = true) : ValidChannel c := by
  simp only [invalidChannel, Bool.or_eq_true, not_or, beq_iff_eq, Bool.and_eq_true, bne_iff_ne,
    not_and, ne_eq, not_not] at h
  obtain ⟨⟨⟨⟨⟨⟨hid, -⟩, hframe⟩, hflight⟩, hstream⟩, hmode⟩, hdiscard⟩ := h
  refine ⟨hid, hframe, hflight, hstream, ?_, fun hd => ?_⟩
  · rw [← hmode, beq_iff_eq]
  · by_contra hne
    exact hdiscard hne hd

theorem validateChannels_ok {limits : ProtocolRegistryLimits} {ids : ExtTreeSet ProtocolChannelId}
    {names : ExtTreeSet String} {channels : List ProtocolChannelDescriptor}
    (h : validateChannels limits ids names channels = .ok ()) :
    (∀ c ∈ channels, c.id ∉ ids) ∧ (channels.map fun c => c.id).Nodup ∧
      ∀ c ∈ channels, ValidChannel c := by
  induction channels generalizing ids names with
  | nil => simp
  | cons c rest ih =>
    unfold validateChannels at h
    split at h
    · cases h
    next hvalid =>
    split at h
    · cases h
    next hnew =>
    obtain ⟨hfresh, hnodup, hrest⟩ := ih h
    have hc : c.id ∉ ids := by
      intro hmem
      exact hnew (by rw [ExtTreeSet.contains_iff_mem.mpr hmem]; rfl)
    have hsplit (b : ProtocolChannelDescriptor) (hb : b ∈ rest) : c.id ≠ b.id ∧ b.id ∉ ids := by
      have hb' := hfresh b hb
      rw [ExtTreeSet.mem_insert, Std.compare_eq_iff_eq, not_or] at hb'
      exact hb'
    refine ⟨List.forall_mem_cons.mpr ⟨hc, fun b hb => (hsplit b hb).2⟩, ?_,
      List.forall_mem_cons.mpr ⟨validChannel_of_check hvalid, hrest⟩⟩
    rw [List.map_cons, List.nodup_cons]
    refine ⟨fun hmem => ?_, hnodup⟩
    obtain ⟨b, hb, heq⟩ := List.mem_map.mp hmem
    exact (hsplit b hb).1 heq.symm

theorem validateDescriptor_ok {derive : String → String → ProtocolStableId}
    {limits : ProtocolRegistryLimits} {d : ProtocolDescriptor}
    (h : validateDescriptor derive limits d = .ok ()) : ValidDescriptor d := by
  unfold validateDescriptor at h
  split at h
  · cases h
  split at h
  · cases h
  next hversions =>
  split at h
  · cases h
  next hrevision =>
  split at h
  · cases h
  next hcap =>
  split at h
  · cases h
  obtain ⟨-, hnodup, hchannels⟩ := validateChannels_ok h
  obtain ⟨howner, hbounded⟩ := not_or.mp hcap
  exact ⟨by simpa using hversions, hrevision, not_not.mp howner, by simpa using hbounded, hnodup,
    hchannels⟩

/-- A call either refuses the descriptor and keeps the registry, or adds it. -/
theorem register_cases (derive : String → String → ProtocolStableId) (r : ProtocolRegistry)
    (d : ProtocolDescriptor) :
    (∃ e, register derive r d = (.error e, r)) ∨
    (r.descriptors[d.stableId]? = none ∧ validateDescriptor derive r.limits d = .ok () ∧
      r.descriptors.size < r.limits.maxProtocols ∧
      r.totalChannels+d.channels.length ≤ r.limits.maxTotalChannels ∧
      register derive r d = (.ok (), { r with
        totalChannels := r.totalChannels+d.channels.length
        descriptors := r.descriptors.insert d.stableId d })) := by
  unfold register
  split
  · split
    · exact .inl ⟨_, rfl⟩
    split
    · exact .inl ⟨_, rfl⟩
    · exact .inl ⟨_, rfl⟩
  next hnew =>
  split
  · exact .inl ⟨_, rfl⟩
  next hvalid =>
  split
  · exact .inl ⟨_, rfl⟩
  next hlimit =>
  exact .inr ⟨hnew, hvalid, not_le.mp (not_or.mp hlimit).1, not_lt.mp (not_or.mp hlimit).2, rfl⟩

/-- What holds of a registry under any sequence of `register` calls. -/
structure Registered (limits : ProtocolRegistryLimits) (r : ProtocolRegistry) : Prop where
  limits_eq : r.limits = limits
  catalogued : Catalogued r.descriptors

theorem Registered.new {limits : ProtocolRegistryLimits} {r : ProtocolRegistry}
    (h : ProtocolRegistry.new limits = .ok r) : Registered limits r := by
  unfold ProtocolRegistry.new at h
  split at h
  · cases h
  · cases h
    refine ⟨rfl, fun id d hd => ?_⟩
    simp at hd

theorem Registered.register {limits : ProtocolRegistryLimits} {r : ProtocolRegistry}
    (h : Registered limits r) (derive : String → String → ProtocolStableId)
    (d : ProtocolDescriptor) : Registered limits (register derive r d).2 := by
  obtain ⟨e, he⟩ | ⟨hnew, hvalid, -, -, heq⟩ := register_cases derive r d
  · rw [he]
    exact h
  · rw [heq]
    refine ⟨h.limits_eq, fun id d' hd' => ?_⟩
    simp only [ExtTreeMap.getElem?_insert] at hd'
    split at hd'
    · next hid =>
      obtain rfl := Option.some.inj hd'
      exact ⟨Std.compare_eq_iff_eq.mp hid, validateDescriptor_ok hvalid⟩
    · exact h.catalogued id d' hd'

theorem Registered.run {limits : ProtocolRegistryLimits} {r : ProtocolRegistry}
    (h : Registered limits r) (derive : String → String → ProtocolStableId)
    (descriptors : List ProtocolDescriptor) :
    Registered limits (RunHistory.run (ProtocolRegistry.register derive) r descriptors) :=
  RunHistory.run_invariant (ProtocolRegistry.register derive) (I := Registered limits)
    (fun _ d hr => hr.register derive d) h descriptors

end ProtocolRegistry

namespace FrozenProtocolRegistry

theorem stableIds_nodup {descriptors : ExtTreeMap ProtocolStableId ProtocolDescriptor}
    (h : Catalogued descriptors) :
    ((OrderedMap.values descriptors).map fun d => d.stableId).Nodup := by
  rw [OrderedMap.values, List.map_map, List.nodup_iff_pairwise_ne, List.pairwise_map]
  -- A descriptor is stored under its own identifier, so distinct keys are distinct identifiers.
  refine (ExtTreeMap.distinct_keys_toList (t := descriptors)).imp_of_mem ?_
  rintro ⟨id, d⟩ ⟨id', d'⟩ hd hd' hne heq
  have hid := (h id d (ExtTreeMap.mem_toList_iff_getElem?_eq_some.mp hd)).1
  have hid' := (h id' d' (ExtTreeMap.mem_toList_iff_getElem?_eq_some.mp hd')).1
  refine hne (Std.compare_eq_iff_eq.mpr ?_)
  rw [← hid, ← hid']
  exact heq

/-- Both loops went on with the same selections, or both gave up. -/
inductive SameOutcome (Seen : ExtTreeSet ProtocolStableId → Prop) :
    Except ProtocolRegistryError (List ProtocolSelection) →
    Except Unit (ExtTreeSet ProtocolStableId × List ProtocolSelection) → Prop
  | ok {seen : ExtTreeSet ProtocolStableId} (hseen : Seen seen)
      (selections : List ProtocolSelection) :
      SameOutcome Seen (.ok selections) (.ok (seen, selections))
  | error (e : ProtocolRegistryError) : SameOutcome Seen (.error e) (.error ())

/-- The bodies of the two loops agree on a descriptor that is new to the duplicate filter, although
they check identity and schema in opposite orders. -/
theorem negotiateDescriptor_same (remote : List ProtocolOffer) {seen : ExtTreeSet ProtocolStableId}
    (selections : List ProtocolSelection) {d : ProtocolDescriptor} (hnew : d.stableId ∉ seen) :
    SameOutcome (· = seen.insert d.stableId) (negotiateDescriptor remote selections d)
      (negotiateOffer remote (seen, selections) d.offer) := by
  have hcontains : ¬(seen, selections).1.contains d.offer.stableId = true := by
    rwa [ExtTreeSet.contains_iff_mem]
  rw [negotiateOffer, if_neg hcontains]
  unfold negotiateDescriptor
  cases remote.find? fun offer => offer.stableId = d.stableId with
  | none => exact .ok (by rfl) _
  | some offer =>
    simp only
    -- The cases are split in the order of the registry; the handshake asks for both at once.
    by_cases hidentity : d.debugIdentity.isSome = true ∧ offer.debugIdentity.isSome = true ∧
        d.debugIdentity ≠ offer.debugIdentity
    · rw [if_pos hidentity, if_pos (Or.inr hidentity)]
      exact .error _
    rw [if_neg hidentity]
    by_cases hschema : d.schema ≠ offer.schema
    · rw [if_pos hschema, if_pos (Or.inl hschema)]
      exact .error _
    rw [if_neg hschema, if_neg (not_or.mpr ⟨hschema, hidentity⟩)]
    cases d.versions.negotiate offer.versions with
    | none => exact .ok (by rfl) _
    | some version =>
      cases d.capabilities.intersect offer.capabilities with
      | none => exact .error _
      | some capabilities => exact .ok (by rfl) _

theorem negotiateDescriptors_same (remote : List ProtocolOffer)
    (descriptors : List ProtocolDescriptor) (seen : ExtTreeSet ProtocolStableId)
    (selections : List ProtocolSelection)
    (hnodup : (descriptors.map fun d => d.stableId).Nodup)
    (hnew : ∀ d ∈ descriptors, d.stableId ∉ seen) :
    SameOutcome (fun _ => True) (descriptors.foldlM (negotiateDescriptor remote) selections)
      ((descriptors.map ProtocolDescriptor.offer).foldlM (negotiateOffer remote)
        (seen, selections)) := by
  induction descriptors generalizing seen selections with
  | nil => exact .ok trivial selections
  | cons d rest ih =>
    have hsame := negotiateDescriptor_same remote selections (hnew d List.mem_cons_self)
    rw [List.map_cons, List.foldlM_cons, List.foldlM_cons]
    generalize negotiateDescriptor remote selections d = left at hsame ⊢
    generalize negotiateOffer remote (seen, selections) d.offer = right at hsame ⊢
    cases hsame with
    | error e => exact .error e
    | ok hseen selections' =>
      subst hseen
      rw [List.map_cons, List.nodup_cons] at hnodup
      -- The filter of the handshake never skips a descriptor: the identifiers are distinct.
      refine ih _ _ hnodup.2 fun b hb => ?_
      rw [ExtTreeSet.mem_insert, Std.compare_eq_iff_eq, not_or]
      exact ⟨fun h => hnodup.1 (List.mem_map.mpr ⟨b, hb, h.symm⟩),
        hnew b (List.mem_cons_of_mem _ hb)⟩

end FrozenProtocolRegistry

/-- A registry and the handshake that is given its offers settle on the same list, or both give
up, whatever the peer offers. -/
theorem registry_and_handshake_negotiate_alike (derive : String → String → ProtocolStableId)
    {limits : ProtocolRegistryLimits} {r : ProtocolRegistry}
    (hnew : ProtocolRegistry.new limits = .ok r) (descriptors : List ProtocolDescriptor)
    (remote : List ProtocolOffer) (hremote : remote.length ≤ limits.maxProtocols) :
    let registry := (RunHistory.run (ProtocolRegistry.register derive) r descriptors).freeze
    (∀ selections, registry.negotiate remote = .ok selections ↔
      negotiateProtocols registry.offers remote = .ok selections) ∧
    ((∃ e, registry.negotiate remote = .error e) ↔
      negotiateProtocols registry.offers remote = .error ()) := by
  intro registry
  have hregistered := (ProtocolRegistry.Registered.new hnew).run derive descriptors
  have hlimit : ¬registry.maxRemoteOffers < remote.length := by
    refine not_lt.mpr (hremote.trans (le_of_eq ?_))
    exact (congrArg ProtocolRegistryLimits.maxProtocols hregistered.limits_eq).symm
  have hsame := FrozenProtocolRegistry.negotiateDescriptors_same remote
    (OrderedMap.values registry.descriptors) ∅ []
    (FrozenProtocolRegistry.stableIds_nodup hregistered.catalogued) (by simp)
  rw [FrozenProtocolRegistry.negotiate, if_neg hlimit, negotiateProtocols,
    FrozenProtocolRegistry.offers]
  generalize (OrderedMap.values registry.descriptors).foldlM
    (FrozenProtocolRegistry.negotiateDescriptor remote) [] = left at hsame ⊢
  generalize ((OrderedMap.values registry.descriptors).map ProtocolDescriptor.offer).foldlM
    (negotiateOffer remote) (∅, []) = right at hsame ⊢
  cases hsame with
  | ok _ selections => simp
  | error e => simp

namespace Sample

def channel : ProtocolChannelDescriptor :=
  { id := ⟨1⟩, debugName := none, mode := .requestResponse, priority := 1, maxFrameBytes := 1024
    maxStreamBytes := none, maxInFlightFrames := 4, discardable := false }

def descriptor : ProtocolDescriptor :=
  { stableId := ⟨WireBytes.FixedBytes.replicate 16 7⟩, debugIdentity := none
    versions := ⟨⟨1, 0⟩, ⟨1, 2⟩⟩
    schema := ⟨⟨WireBytes.FixedBytes.replicate 16 3⟩, 1, ⟨WireBytes.FixedBytes.replicate 32 4⟩⟩
    capabilities := ⟨⟨WireBytes.FixedBytes.replicate 16 7⟩, [5]⟩, channels := [channel] }

def registry : ProtocolRegistry :=
  RunHistory.run (ProtocolRegistry.register fun _ _ => ⟨WireBytes.FixedBytes.replicate 16 7⟩)
    { limits := {}, descriptors := ∅, totalChannels := 0 } [descriptor]

/-- The protocol twice, the second time with a schema that conflicts. -/
def duplicateOffers : List ProtocolOffer :=
  [descriptor.offer,
    { descriptor.offer with schema := { descriptor.schema with revision := 9 } }]

end Sample

theorem sample_duplicate_offers_are_negotiated_alike :
    ∃ selections, selections.length = 1 ∧
      negotiateProtocols Sample.registry.freeze.offers Sample.duplicateOffers = .ok selections ∧
      Sample.registry.freeze.negotiate Sample.duplicateOffers = .ok selections := by
  have hnew : ProtocolRegistry.new {} =
      .ok { limits := {}, descriptors := ∅, totalChannels := 0 } :=
    rfl
  have hagree := registry_and_handshake_negotiate_alike
    (fun _ _ => ⟨WireBytes.FixedBytes.replicate 16 7⟩) hnew [Sample.descriptor]
    Sample.duplicateOffers (by decide)
  exact ⟨_, rfl, rfl, (hagree.1 _).mpr rfl⟩

end MutsukiLink
