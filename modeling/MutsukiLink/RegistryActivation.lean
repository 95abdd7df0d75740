import MutsukiLink.RegistryNegotiation

/-! Activation of what the handshake has settled on, and the channels that an activated protocol
lets a session open. -/
namespace MutsukiLink
open HandshakeMachine (Admitted)
open Std (ExtTreeMap)

namespace FrozenProtocolRegistry

theorem mem_offers {r : FrozenProtocolRegistry} {offer : ProtocolOffer} :
    offer ∈ r.offers ↔ ∃ (id : ProtocolStableId) (d : ProtocolDescriptor),
      r.descriptors[id]? = some d ∧ offer = d.offer := by
  simp only [offers, List.mem_map, OrderedMap.mem_values]
  constructor
  · rintro ⟨d, ⟨id, hd⟩, rfl⟩
    exact ⟨id, d, hd, rfl⟩
  · rintro ⟨id, d, hd, rfl⟩
    exact ⟨d, ⟨id, hd⟩, rfl⟩

/-- The checks that `activate` makes of one selection. -/
structure Activable (r : FrozenProtocolRegistry) (s : ProtocolSelection) (d : ProtocolDescriptor) :
    Prop where
  registered : r.descriptors[s.stableId]? = some d
  schema : d.schema = s.schema
  owner : s.capabilities.protocolId = s.stableId
  bounded : s.capabilities.isBounded = true
  subset : s.capabilities.isSubsetOf d.capabilities = true
  version : d.versions.Contains s.version

theorem activable_of_admitted {r : FrozenProtocolRegistry} (h : Catalogued r.descriptors)
    {s : ProtocolSelection} (hbounded : s.capabilities.isBounded = true)
    (hadmitted : ∃ offer ∈ r.offers, Admitted offer s) : ∃ d, r.Activable s d := by
  obtain ⟨offer, ho, hadm⟩ := hadmitted
  obtain ⟨id, d, hd, rfl⟩ := mem_offers.mp ho
  obtain ⟨hid, hvalid⟩ := h id d hd
  have hstable : s.stableId = id := hadm.stable_id.symm.trans hid
  refine ⟨d, hstable ▸ hd, hadm.schema, ?_, hbounded, hadm.capabilities, hadm.version⟩
  rw [((ProtocolCapabilitySet.isSubsetOf_iff _ _).mp hadm.capabilities).1]
  exact hvalid.owner.trans hadm.stable_id

theorem activateSelections_ok {r : FrozenProtocolRegistry} {selected : List ProtocolSelection}
    (active : ExtTreeMap ProtocolStableId ActiveProtocol)
    (hnodup : (selected.map fun s => s.stableId).Nodup)
    (hnew : ∀ s ∈ selected, s.stableId ∉ active)
    (hactivable : ∀ s ∈ selected, ∃ d, r.Activable s d) :
    ∃ result, r.activateSelections active selected = .ok result ∧
      ∀ (id : ProtocolStableId) (p : ActiveProtocol), result[id]? = some p ↔
        active[id]? = some p ∨
          ∃ s ∈ selected, ∃ d, s.stableId = id ∧ r.Activable s d ∧ p = .of d s := by
  induction selected generalizing active with
  | nil => exact ⟨active, rfl, by simp⟩
  | cons s rest ih =>
    obtain ⟨d, hd⟩ := hactivable s List.mem_cons_self
    rw [List.map_cons, List.nodup_cons] at hnodup
    have hnew' : ∀ t ∈ rest, t.stableId ∉ active.insert s.stableId (.of d s) := by
      intro t ht
      rw [ExtTreeMap.mem_insert, Std.compare_eq_iff_eq, not_or]
      exact ⟨fun heq => hnodup.1 (List.mem_map.mpr ⟨t, ht, heq.symm⟩),
        hnew t (List.mem_cons_of_mem _ ht)⟩
    obtain ⟨result, hresult, hmem⟩ := ih (active.insert s.stableId (.of d s)) hnodup.2 hnew'
      fun t ht => hactivable t (List.mem_cons_of_mem _ ht)
    -- The checks pass for the first selection, and the rest is activated on top of it.
    refine ⟨result, ?_, fun id p => ?_⟩
    · have hcontains : ¬active.contains s.stableId = true := by
        rw [ExtTreeMap.contains_iff_mem]
        exact hnew s List.mem_cons_self
      have hcap : ¬(s.capabilities.protocolId ≠ s.stableId ∨ (!s.capabilities.isBounded) = true ∨
          (!s.capabilities.isSubsetOf d.capabilities) = true) := by
        simp [hd.owner, hd.bounded, hd.subset]
      have hversion : ¬(d.versions.negotiate ⟨s.version, s.version⟩).isNone = true := by
        rw [Bool.not_eq_true, Option.isNone_eq_false_iff]
        exact (VersionRange.negotiate_point_isSome _ _).mpr hd.version
      rw [activateSelections, if_neg hcontains, hd.registered]
      simp only
      rw [if_neg (not_not.mpr hd.schema), if_neg hcap, if_neg hversion, hresult]
    · rw [hmem, ExtTreeMap.getElem?_insert]
      -- The first selection adds its own identifier, which was free, and no other.
      by_cases hid : s.stableId = id
      · have hnone : active[id]? = none := by
          rw [← hid]
          exact ExtTreeMap.getElem?_eq_none (hnew s List.mem_cons_self)
        rw [if_pos (Std.compare_eq_iff_eq.mpr hid), hnone]
        constructor
        · rintro (hp | ⟨t, ht, hrest⟩)
          · exact .inr ⟨s, List.mem_cons_self, d, hid, hd, (Option.some.inj hp).symm⟩
          · exact .inr ⟨t, List.mem_cons_of_mem _ ht, hrest⟩
        · rintro (hp | ⟨t, ht, d', htid, hd', rfl⟩)
          · cases hp
          · rcases List.mem_cons.mp ht with rfl | ht
            · rw [Option.some.inj (hd'.registered.symm.trans hd.registered)]
              exact .inl rfl
            · exact .inr ⟨t, ht, d', htid, hd', rfl⟩
      · rw [if_neg (mt Std.compare_eq_iff_eq.mp hid)]
        refine or_congr_right ⟨fun ⟨t, ht, hrest⟩ => ⟨t, List.mem_cons_of_mem _ ht, hrest⟩, ?_⟩
        rintro ⟨t, ht, d', htid, hrest⟩
        refine ⟨t, (List.mem_cons.mp ht).resolve_left ?_, d', htid, hrest⟩
        rintro rfl
        exact hid htid

/-- A selection that the catalogue admits activates, and the active set holds it and no more. -/
theorem activate_ok {r : FrozenProtocolRegistry} {selected : List ProtocolSelection}
    (hnodup : (selected.map fun s => s.stableId).Nodup)
    (hactivable : ∀ s ∈ selected, ∃ d, r.Activable s d) :
    ∃ a, r.activate selected = .ok a ∧
      ∀ (id : ProtocolStableId) (p : ActiveProtocol), a.active[id]? = some p ↔
        ∃ s ∈ selected, ∃ d, s.stableId = id ∧ r.Activable s d ∧ p = .of d s := by
  have hsub : (selected.map fun s => s.stableId) ⊆ r.descriptors.keys := by
    intro id hid
    obtain ⟨s, hs, rfl⟩ := List.mem_map.mp hid
    obtain ⟨d, hd⟩ := hactivable s hs
    rw [ExtTreeMap.mem_keys]
    exact ExtTreeMap.mem_iff_isSome_getElem?.mpr (by rw [hd.registered]; rfl)
  have hlen : selected.length ≤ r.descriptors.size := by
    simpa only [List.length_map, ExtTreeMap.length_keys] using (hnodup.subperm hsub).length_le
  obtain ⟨result, hresult, hmem⟩ := activateSelections_ok ∅ hnodup (by simp) hactivable
  refine ⟨⟨result⟩, ?_, fun id p => ?_⟩
  · rw [activate, if_neg (not_lt.mpr hlen), hresult]
  · rw [hmem]
    simp

end FrozenProtocolRegistry

/-- The channel map of an active protocol lists the channels of its descriptor. -/
theorem mem_of_channels {d : ProtocolDescriptor} {s : ProtocolSelection}
    {id : ProtocolChannelId} {c : ProtocolChannelDescriptor}
    (h : (ActiveProtocol.of d s).channels[id]? = some c) : c ∈ d.channels ∧ c.id = id := by
  obtain ⟨c', hc, heq⟩ := List.mem_map.mp (OrderedMap.mem_of_getElem?_ofList h)
  obtain ⟨hid, rfl⟩ := Prod.mk.inj heq
  exact ⟨hc, hid⟩

/-- What the request and the active set say about a channel that was admitted. -/
structure Admits (a : ActiveProtocolSet) (request : ChannelOpenRequest)
    (v : ValidatedChannel) (protocol : ActiveProtocol) (channel : ProtocolChannelDescriptor) :
    Prop where
  protocol_eq : a.active[request.protocolId]? = some protocol
  channel_eq : protocol.channels[request.protocolChannelId]? = some channel
  capacity_ne : request.capacity ≠ 0
  validated : v = .of protocol channel request

theorem openChannel_ok {a : ActiveProtocolSet} {request : ChannelOpenRequest} {v : ValidatedChannel}
    (h : a.openChannel request = .ok v) :
    ∃ protocol channel, Admits a request v protocol channel := by
  unfold ActiveProtocolSet.openChannel at h
  split at h
  · cases h
  next protocol hprotocol =>
  split at h
  · cases h
  next channel hchannel =>
  split at h
  · cases h
  next hcapacity =>
  exact ⟨protocol, channel, hprotocol, hchannel, (not_or.mp hcapacity).1, (Except.ok.inj h).symm⟩

end MutsukiLink
