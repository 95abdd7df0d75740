import MutsukiLink.ControlRoundTrip
import MutsukiLink.RegistryActivation

/-! The books of a protocol registry, and the offers that it makes: whatever it has registered, the
typed control codec lets through and gives back. -/
namespace MutsukiLink
open WireBytes
open Std (ExtTreeMap ExtTreeSet)

/-- The debug identity of a descriptor is canonical, short and its own. -/
def Identified (derive : String → String → ProtocolStableId) (d : ProtocolDescriptor) : Prop :=
  ∀ identity, d.debugIdentity = some identity → identity.isCanonical = true ∧
    (utf8 identity.authority).length+(utf8 identity.name).length ≤ maxProtocolIdBytes ∧
      identity.stableId derive = d.stableId

namespace ProtocolRegistry
variable {derive : String → String → ProtocolStableId} {limits : ProtocolRegistryLimits}
  {r : ProtocolRegistry} {d : ProtocolDescriptor}

theorem identified_of_validate (h : validateDescriptor derive limits d = .ok ())
    (hlimits : limits.maxProtocolIdBytes ≤ MutsukiLink.maxProtocolIdBytes) :
    Identified derive d := by
  intro identity hidentity
  unfold validateDescriptor at h
  split at h
  · cases h
  next hcheck =>
  simp only [hidentity, Option.any_some, Bool.or_eq_true, Bool.not_eq_true', decide_eq_true_eq,
    bne_iff_ne, not_or, not_lt, not_not, ne_eq, Bool.not_eq_false] at hcheck
  obtain ⟨⟨hcanonical, hshort⟩, hown⟩ := hcheck
  exact ⟨hcanonical, hshort.trans hlimits, hown⟩

/-- What a registry says of itself is true of what it holds. -/
structure Booked (derive : String → String → ProtocolStableId) (r : ProtocolRegistry) : Prop where
  total_eq : r.totalChannels = OrderedMap.sumBy (fun d => d.channels.length) r.descriptors
  total_le : r.totalChannels ≤ r.limits.maxTotalChannels
  size_le : r.descriptors.size ≤ r.limits.maxProtocols
  identified : ∀ (id : ProtocolStableId) (d : ProtocolDescriptor), r.descriptors[id]? = some d →
    Identified derive d

theorem new_ok (h : ProtocolRegistry.new limits = .ok r) :
    limits.isValid = true ∧ r = { limits, descriptors := ∅, totalChannels := 0 } := by
  unfold ProtocolRegistry.new at h
  split at h
  · cases h
  next hvalid => exact ⟨by simpa using hvalid, (Except.ok.inj h).symm⟩

theorem Booked.new (h : ProtocolRegistry.new limits = .ok r) : Booked derive r := by
  obtain ⟨-, rfl⟩ := new_ok h
  refine ⟨?_, Nat.zero_le _, ?_, fun id d hd => ?_⟩
  · rw [OrderedMap.sumBy_empty]
  · rw [ExtTreeMap.size_empty]
    exact Nat.zero_le _
  · rw [ExtTreeMap.getElem?_empty] at hd
    cases hd

/-- A descriptor is entered with its channels, or the books stay as they are. -/
theorem Booked.register (h : Booked derive r)
    (hlimits : r.limits.maxProtocolIdBytes ≤ MutsukiLink.maxProtocolIdBytes)
    (d : ProtocolDescriptor) : Booked derive (register derive r d).2 := by
  obtain ⟨e, he⟩ | ⟨hnew, hvalid, hsize, htotal, heq⟩ := register_cases derive r d
  · rw [he]
    exact h
  · rw [heq]
    refine ⟨?_, htotal, ?_, fun id d' hd' => ?_⟩
    · rw [OrderedMap.sumBy_insert_new _ _ _ hnew, ← h.total_eq, Nat.add_comm]
    · rw [OrderedMap.size_insert_new _ _ hnew]
      exact hsize
    · rw [OrderedMap.lookup_insert] at hd'
      split at hd'
      -- The limit on names of the registry is not above that of the codec.
      · obtain rfl := Option.some.inj hd'
        exact identified_of_validate hvalid hlimits
      · exact h.identified id d' hd'

theorem maxIdBytes_le (h : limits.isValid = true) :
    limits.maxProtocolIdBytes ≤ MutsukiLink.maxProtocolIdBytes := by
  simp only [ProtocolRegistryLimits.isValid, Bool.and_eq_true, decide_eq_true_eq] at h
  exact h.1.1.2

theorem booked_run (h : ProtocolRegistry.new limits = .ok r) (ds : List ProtocolDescriptor) :
    Registered limits (RunHistory.run (register derive) r ds) ∧
      Booked derive (RunHistory.run (register derive) r ds) := by
  have hlimits := maxIdBytes_le (new_ok h).1
  refine RunHistory.run_invariant (register derive)
    (I := fun r => Registered limits r ∧ Booked derive r) ?_ ⟨.new h, .new h⟩ ds
  rintro r d ⟨hregistered, hbooked⟩
  refine ⟨hregistered.register derive d, hbooked.register ?_ d⟩
  rw [hregistered.limits_eq]
  exact hlimits

end ProtocolRegistry

section Encoding
variable {derive : String → String → ProtocolStableId} {d : ProtocolDescriptor}

/-- An offer of a registered protocol passes every check of the codec. -/
theorem offerAllowed_of_valid (hvalid : ValidDescriptor d) (hid : Identified derive d) :
    OfferAllowed derive d.offer where
  debug := by
    intro identity hidentity
    obtain ⟨hcanonical, hshort, -⟩ := hid identity hidentity
    have hbytes : maxProtocolIdBytes = maxControlDebugComponentBytes := rfl
    simp only [ProtocolDebugIdentity.isCanonical, canonicalIdentityComponent, Bool.and_eq_true,
      Bool.not_eq_true', List.isEmpty_eq_false_iff] at hcanonical
    exact ⟨⟨hcanonical.1.1, by omega⟩, hcanonical.2.1, by omega⟩
  versions := hvalid.versions
  revision := hvalid.revision
  words := of_decide_eq_true hvalid.bounded
  owner := hvalid.owner
  identity := by
    cases hdebug : d.debugIdentity with
    | none => simp [matchesDebugIdentity, hdebug]
    | some identity =>
      obtain ⟨hcanonical, -, hown⟩ := hid identity hdebug
      simp [matchesDebugIdentity, hdebug, hcanonical, hown]

theorem length_wordsImage (words : List UInt64) : (wordsImage words).length = 8*words.length := by
  induction words with
  | nil => rfl
  | cons word rest ih =>
    rw [wordsImage, List.flatMap_cons, List.length_append, length_beBytes]
    rw [wordsImage] at ih
    rw [ih, List.length_cons, Nat.mul_add, Nat.add_comm]

/-- The name of a protocol in an offer, with its two lengths and the mark before them. -/
theorem length_debugImage (hid : Identified derive d) :
    (debugImage d.debugIdentity).length ≤ 133 := by
  cases hdebug : d.debugIdentity with
  | none => decide
  | some identity =>
    obtain ⟨-, hshort, -⟩ := hid identity hdebug
    simp only [debugImage, stringImage, List.length_append, length_beBytes, List.length_cons,
      List.length_nil]
    rw [maxProtocolIdBytes] at hshort
    omega

theorem length_offerImage (hvalid : ValidDescriptor d) (hid : Identified derive d) :
    (offerImage d.offer).length ≤ 290 := by
  have hdebug := length_debugImage hid
  have hwords : d.capabilities.words.length ≤ 8 := of_decide_eq_true hvalid.bounded
  simp only [offerImage, versionRangeImage, versionImage, schemaImage, capabilitiesImage,
    countImage, List.length_append, length_beBytes, length_wordsImage, FixedBytes.size_eq,
    List.length_cons, List.length_nil]
  omega

theorem length_offers_le {ds : List ProtocolDescriptor}
    (hvalid : ∀ d ∈ ds, ValidDescriptor d ∧ Identified derive d) :
    ((ds.map ProtocolDescriptor.offer).flatMap offerImage).length ≤ 290*ds.length := by
  induction ds with
  | nil => exact le_rfl
  | cons d rest ih =>
    obtain ⟨hd, hrest⟩ := List.forall_mem_cons.mp hvalid
    have hfirst := length_offerImage hd.1 hd.2
    have hothers := ih hrest
    rw [List.map_cons, List.flatMap_cons, List.length_append, List.length_cons]
    omega

/-- The envelope in which a peer makes its offers. -/
def offerEnvelope (offers : List ProtocolOffer) (requestId : UInt64) (sessionId : Option SessionId)
    (flags : ControlFlags) : ControlEnvelope :=
  { wireVersion := typedControlWireVersion, opcode := .protocolOffer, requestId, sessionId, flags
    payload := .offerProtocols offers }

theorem offerEnvelope_allowed {descriptors : ExtTreeMap ProtocolStableId ProtocolDescriptor}
    (hcatalogued : Catalogued descriptors)
    (hidentified : ∀ (id : ProtocolStableId) (d : ProtocolDescriptor),
      descriptors[id]? = some d → Identified derive d)
    (hsize : descriptors.size ≤ maxControlProtocols) (requestId : UInt64)
    (sessionId : Option SessionId) (flags : ControlFlags) :
    EnvelopeAllowed derive (offerEnvelope
      ((OrderedMap.values descriptors).map ProtocolDescriptor.offer) requestId sessionId
        flags) := by
  have hvalid : ∀ d ∈ OrderedMap.values descriptors, ValidDescriptor d ∧ Identified derive d := by
    intro d hd
    obtain ⟨id, hid⟩ := (OrderedMap.mem_values descriptors d).mp hd
    exact ⟨(hcatalogued id d hid).2, hidentified id d hid⟩
  have hlength : (OrderedMap.values descriptors).length = descriptors.size := by
    rw [OrderedMap.values, List.length_map, ExtTreeMap.length_toList]
  refine ⟨rfl, rfl, ⟨?_, ?_, fun o ho => ?_, fun o ho => ?_⟩, ?_⟩
  · rw [List.length_map, hlength]
    exact hsize
  · rw [List.map_map]
    exact FrozenProtocolRegistry.stableIds_nodup hcatalogued
  · exact ExtTreeSet.not_mem_empty
  · obtain ⟨d, hd, rfl⟩ := List.mem_map.mp ho
    exact offerAllowed_of_valid (hvalid d hd).1 (hvalid d hd).2
  · -- Even the greatest number of the longest offers is far from the limit.
    have hbytes := length_offers_le hvalid
    simp only [offerEnvelope, payloadImage, countImage, List.length_append, List.length_cons,
      List.length_nil]
    rw [hlength] at hbytes
    rw [maxControlProtocols] at hsize
    rw [maxControlPayloadBytes]
    omega

end Encoding

/-- A registry keeps its books whatever is registered, a refused descriptor leaves it as it was,
and as long as the codec can count its protocols, their offers get across. -/
theorem registry_offers_get_across (derive : String → String → ProtocolStableId)
    {limits : ProtocolRegistryLimits} {empty : ProtocolRegistry}
    (h : ProtocolRegistry.new limits = .ok empty) (ds : List ProtocolDescriptor) :
    let r := RunHistory.run (ProtocolRegistry.register derive) empty ds
    (r.totalChannels = ((OrderedMap.values r.descriptors).map fun d => d.channels.length).sum ∧
      r.totalChannels ≤ limits.maxTotalChannels ∧ r.descriptors.size ≤ limits.maxProtocols ∧
      ∀ (id : ProtocolStableId) (d : ProtocolDescriptor), r.descriptors[id]? = some d →
        d.stableId = id ∧ (d.channels.map fun c => c.id).Nodup ∧
          ∀ c ∈ d.channels, c.id.val ≠ 0) ∧
    (∀ (d : ProtocolDescriptor) (e : ProtocolRegistryError),
      (r.register derive d).1 = .error e → (r.register derive d).2 = r) ∧
    (r.descriptors.size ≤ maxControlProtocols → ∀ requestId sessionId flags,
      ∃ wire, encodeControlEnvelope derive ⟨.typedV1⟩
          (offerEnvelope r.freeze.offers requestId sessionId flags) = .ok wire ∧
        decodeControlEnvelope derive ⟨.typedV1⟩ wire =
          .ok (offerEnvelope r.freeze.offers requestId sessionId flags)) := by
  intro r
  obtain ⟨hregistered, hbooked⟩ := ProtocolRegistry.booked_run h ds
  have hlimits : r.limits = limits := hregistered.limits_eq
  refine ⟨⟨hbooked.total_eq, hlimits ▸ hbooked.total_le, hlimits ▸ hbooked.size_le,
    fun id d hd => ?_⟩, fun d e he => ?_, fun hsize requestId sessionId flags => ?_⟩
  · obtain ⟨hid, hvalid⟩ := hregistered.catalogued id d hd
    exact ⟨hid, hvalid.channel_ids, fun c hc => (hvalid.channels c hc).id_ne⟩
  · obtain ⟨e', he'⟩ | ⟨-, -, -, -, heq⟩ := ProtocolRegistry.register_cases derive r d
    · rw [he']
    · rw [heq] at he
      cases he
  · have hallowed := offerEnvelope_allowed hregistered.catalogued hbooked.identified hsize requestId
      sessionId flags
    exact ⟨_, encode_of_allowed hallowed, decode_of_allowed hallowed rfl⟩

namespace Sample

/-- The identifier of the one name that occurs, as SHA-256 gives it. -/
def digest (authority name : String) : ProtocolStableId :=
  if authority = "mutsuki" ∧ name = "lilia" then
    ⟨⟨[39, 164, 142, 88, 43, 26, 42, 12, 166, 128, 17, 79, 193, 47, 99, 220], rfl⟩⟩
  else ⟨.replicate 16 0⟩

def lilia : ProtocolDescriptor :=
  { descriptor with
    stableId := digest "mutsuki" "lilia", debugIdentity := some ⟨"mutsuki", "lilia"⟩
    capabilities := ⟨digest "mutsuki" "lilia", [5]⟩
    channels := [channel, { channel with id := ⟨2⟩, debugName := some "bulk" }] }

/-- The identifier of a protocol under another name. -/
def impostor : ProtocolDescriptor :=
  { lilia with debugIdentity := some ⟨"mutsuki", "distributed"⟩ }

/-- A protocol without a name and one with a name, and one that is refused. -/
def smallRegistry : ProtocolRegistry :=
  RunHistory.run (ProtocolRegistry.register digest)
    { limits := {}, descriptors := ∅, totalChannels := 0 } [descriptor, lilia, impostor]

end Sample

theorem sample_offers_get_across :
    Sample.smallRegistry.totalChannels = 3 ∧
      ((OrderedMap.values Sample.smallRegistry.descriptors).map fun d =>
        d.channels.length).sum = 3 ∧
      (Sample.smallRegistry.register Sample.digest Sample.impostor).2 = Sample.smallRegistry ∧
      ∃ wire, encodeControlEnvelope Sample.digest ⟨.typedV1⟩
          (offerEnvelope Sample.smallRegistry.freeze.offers 3 none ⟨0, rfl⟩) = .ok wire ∧
        decodeControlEnvelope Sample.digest ⟨.typedV1⟩ wire =
          .ok (offerEnvelope Sample.smallRegistry.freeze.offers 3 none ⟨0, rfl⟩) := by
  have hnew : ProtocolRegistry.new {} =
      .ok { limits := {}, descriptors := ∅, totalChannels := 0 } := rfl
  obtain ⟨⟨htotal, -⟩, hrefused, hoffers⟩ := registry_offers_get_across Sample.digest hnew
    [Sample.descriptor, Sample.lilia, Sample.impostor]
  have hcount : Sample.smallRegistry.totalChannels = 3 := by decide +kernel
  have hsize : Sample.smallRegistry.descriptors.size ≤ maxControlProtocols := by decide +kernel
  have hconflict : (Sample.smallRegistry.register Sample.digest Sample.impostor).1 =
      .error ProtocolRegistryErrorKind.identityConflict.error := by decide +kernel
  exact ⟨hcount, htotal.symm.trans hcount, hrefused _ _ hconflict, hoffers hsize 3 none ⟨0, rfl⟩⟩

end MutsukiLink
