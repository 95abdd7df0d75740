import MutsukiLink.ControlModel

/-! The typed control format: the byte image of each part of an envelope and the values that it
allows. Writer and reader are shown to agree with it part by part. -/
namespace MutsukiLink
open WireBytes WireCodec
open Std (ExtTreeSet)

def versionImage (v : ProtocolVersion) : Bytes := beBytes 2 v.major.toNat ++ beBytes 2 v.minor.toNat

def versionRangeImage (r : VersionRange) : Bytes := versionImage r.minimum ++ versionImage r.maximum

def schemaImage (s : SchemaRef) : Bytes :=
  s.id.bytes ++ (beBytes 4 s.revision.toNat ++ s.fingerprint.bytes)

def wordsImage (words : List UInt64) : Bytes := words.flatMap fun word => beBytes 8 word.toNat

def countImage (n : ℕ) : Bytes := [UInt8.ofNat n]

def capabilitiesImage (c : ProtocolCapabilitySet) : Bytes :=
  c.protocolId.bytes ++ (countImage c.words.length ++ wordsImage c.words)

def stringImage (s : String) : Bytes := beBytes 2 (utf8 s).length ++ utf8 s

def debugImage : Option ProtocolDebugIdentity → Bytes
  | none => [0]
  | some d => [1] ++ (stringImage d.authority ++ stringImage d.name)

def offerImage (o : ProtocolOffer) : Bytes :=
  o.stableId.bytes ++ (debugImage o.debugIdentity ++ (versionRangeImage o.versions ++
    (schemaImage o.schema ++ capabilitiesImage o.capabilities)))

def selectionImage (s : ProtocolSelection) : Bytes :=
  s.stableId.bytes ++ (versionImage s.version ++ (schemaImage s.schema ++
    capabilitiesImage s.capabilities))

def StringAllowed (s : String) : Prop :=
  utf8 s ≠ [] ∧ (utf8 s).length ≤ maxControlDebugComponentBytes

def DebugAllowed (debug : Option ProtocolDebugIdentity) : Prop :=
  ∀ d, debug = some d → StringAllowed d.authority ∧ StringAllowed d.name

/-- The fields of an offer, each on its own. -/
structure OfferFields (o : ProtocolOffer) : Prop where
  debug : DebugAllowed o.debugIdentity
  versions : o.versions.isValid = true
  revision : o.schema.revision ≠ 0
  words : o.capabilities.words.length ≤ maxProtocolCapabilityWords

structure SelectionFields (s : ProtocolSelection) : Prop where
  revision : s.schema.revision ≠ 0
  words : s.capabilities.words.length ≤ maxProtocolCapabilityWords

theorem fromUTF8?_utf8 (s : String) : String.fromUTF8? ⟨(utf8 s).toArray⟩ = some s := by
  have hbytes : (⟨(utf8 s).toArray⟩ : ByteArray) = s.toByteArray := by simp [utf8]
  rw [hbytes, String.fromUTF8?, dif_pos s.isValidUTF8]
  rfl

theorem utf8_of_fromUTF8? {bytes : Bytes} {s : String}
    (h : String.fromUTF8? ⟨bytes.toArray⟩ = some s) : utf8 s = bytes := by
  unfold String.fromUTF8? at h
  split at h
  · cases h
    simp [utf8, String.fromUTF8]
  · cases h

namespace LinkControlOpcode

theorem tryFrom_toWire (opcode : LinkControlOpcode) : tryFrom opcode.toWire = .ok opcode := by
  cases opcode <;> rfl

theorem tryFrom_unknown {value : UInt16} (h : ∀ opcode : LinkControlOpcode, value ≠ opcode.toWire) :
    tryFrom value = .error .unknownOpcode :=
  (if_neg (h .hello)).trans <| (if_neg (h .protocolOffer)).trans <|
    (if_neg (h .protocolSelect)).trans <| (if_neg (h .openChannel)).trans <|
    (if_neg (h .channelAccepted)).trans <| (if_neg (h .closeChannel)).trans <|
    (if_neg (h .ping)).trans <| (if_neg (h .pong)).trans <| (if_neg (h .beginDrain)).trans <|
    (if_neg (h .closeSession)).trans <| if_neg (h .error)

theorem toWire_of_tryFrom {value : UInt16} {opcode : LinkControlOpcode}
    (h : tryFrom value = .ok opcode) : opcode.toWire = value := by
  -- An unknown number is refused, so the value is the number of some opcode.
  by_cases hv : ∃ opcode' : LinkControlOpcode, value = opcode'.toWire
  · obtain ⟨opcode', rfl⟩ := hv
    rw [tryFrom_toWire] at h
    rw [Except.ok.inj h]
  · rw [tryFrom_unknown (not_exists.mp hv)] at h
    cases h

theorem toWire_ne_max (opcode : LinkControlOpcode) : opcode.toWire ≠ 0xffff := by
  cases opcode <;> decide

end LinkControlOpcode

namespace ControlReader

theorem u8_recognises : Recognises u8 (fun v => [v]) (fun _ => True) := by
  have h : Recognises u8 (fun v => beBytes 1 v.toNat) (fun _ => True) :=
    .bigEndian (fun v => v.toNat_lt) (fun _ => UInt8.ofNat_toNat)
      (fun _ hx => UInt8.toNat_ofNat_of_lt hx)
  refine h.congr (fun _ => Iff.rfl) fun v _ => ?_
  have hv : v.toNat%256 = v.toNat := Nat.mod_eq_of_lt v.toNat_lt
  simp [beBytes, hv]

theorem u16_recognises : Recognises u16 (fun v => beBytes 2 v.toNat) (fun _ => True) :=
  .bigEndian (fun v => v.toNat_lt) (fun _ => UInt16.ofNat_toNat)
    (fun _ hx => UInt16.toNat_ofNat_of_lt hx)

theorem u32_recognises : Recognises u32 (fun v => beBytes 4 v.toNat) (fun _ => True) :=
  .bigEndian (fun v => v.toNat_lt) (fun _ => UInt32.ofNat_toNat)
    (fun _ hx => UInt32.toNat_ofNat_of_lt hx)

theorem u64_recognises : Recognises u64 (fun v => beBytes 8 v.toNat) (fun _ => True) :=
  .bigEndian (fun v => v.toNat_lt) (fun _ => UInt64.ofNat_toNat)
    (fun _ hx => UInt64.toNat_ofNat_of_lt hx)

theorem boundedCount_recognises {maximum : ℕ} (hmax : maximum ≤ 255) :
    Recognises (boundedCount maximum) countImage (· ≤ maximum) := by
  refine u8_recognises.decode (fun n => UInt8.ofNat n) (fun v _ => ?_) fun _ _ => trivial
  refine (Recognises.guard _ fun _ => Recognises.pure v.toNat).congr (fun n => ?_) fun _ _ => rfl
  constructor
  · rintro ⟨hn, rfl⟩
    -- The count fits its byte because the maximum does.
    have hlt : n < UInt8.size := lt_of_le_of_lt (hn.trans hmax) (by decide)
    have hto : (UInt8.ofNat n).toNat = n := UInt8.toNat_ofNat_of_lt hlt
    rw [hto]
    exact ⟨rfl, not_lt.mpr hn⟩
  · rintro ⟨rfl, hn⟩
    exact ⟨not_lt.mp hn, UInt8.ofNat_toNat⟩

theorem opaqueId_recognises (kind : OpaqueKind) (size : ℕ) :
    Recognises (opaqueId kind size) (fun id => id.bytes) (fun _ => True) := by
  refine (Recognises.takeArray LinkControlError.truncated size).decode OpaqueId.toFixedBytes
    (fun array _ => ?_)
    fun _ _ => trivial
  refine .exactly fun id => ?_
  exact ⟨fun h => OpaqueId.toFixedBytes_injective h.2, fun h => ⟨trivial, by rw [h]; rfl⟩⟩

theorem version_recognises : Recognises version versionImage (fun _ => True) := by
  refine u16_recognises.bind ProtocolVersion.major (fun major _ => ?_) fun _ _ => trivial
  refine u16_recognises.decode ProtocolVersion.minor (fun minor _ => ?_) fun _ _ => trivial
  refine .exactly fun v => ?_
  cases v
  simp

theorem versionRange_recognises :
    Recognises versionRange versionRangeImage (fun r => r.isValid = true) := by
  refine version_recognises.bind VersionRange.minimum (fun minimum _ => ?_) fun _ _ => trivial
  refine version_recognises.decode VersionRange.maximum (fun maximum _ => ?_) fun _ _ => trivial
  refine (Recognises.guard _ fun _ => Recognises.pure _).congr (fun r => ?_) fun _ _ => rfl
  cases r
  simp only [Bool.not_eq_true', Bool.not_eq_false]
  grind

theorem schema_recognises : Recognises schema schemaImage (fun s => s.revision ≠ 0) := by
  refine (opaqueId_recognises _ _).bind SchemaRef.id (fun id _ => ?_) fun _ _ => trivial
  refine u32_recognises.bind SchemaRef.revision (fun revision _ => ?_) fun _ _ => trivial
  refine (opaqueId_recognises _ _).decode SchemaRef.fingerprint (fun fingerprint _ => ?_)
    fun _ _ => trivial
  refine (Recognises.guard _ fun _ => Recognises.pure _).congr (fun s => ?_) fun _ _ => rfl
  cases s
  grind

theorem words_recognises (n : ℕ) : Recognises (words n) wordsImage (fun l => l.length = n) := by
  induction n with
  | zero =>
    exact (Recognises.pure _).congr (fun l => by simp) fun l hl => by rw [hl]; rfl
  | succ n ih =>
    refine (u64_recognises.cons (P := fun _ rest => rest.length = n) fun word _ => ?_).congr
      (fun l => ?_) fun _ _ => rfl
    -- The word in front is known; the induction reads the rest.
    · refine ih.decode List.tail (fun rest hrest => ?_) ?_
      · refine .exactly fun l => ?_
        grind
      · rintro l ⟨rest, rfl, hrest⟩
        exact hrest
    · cases l <;> simp

theorem capabilities_recognises : Recognises capabilities capabilitiesImage
    (fun c => c.words.length ≤ maxProtocolCapabilityWords) := by
  refine (opaqueId_recognises _ _).bind ProtocolCapabilitySet.protocolId (fun id _ => ?_)
    fun _ _ => trivial
  have hcount : Recognises (boundedCount maxProtocolCapabilityWords) countImage
    (· ≤ maxProtocolCapabilityWords) := boundedCount_recognises (by decide)
  refine hcount.bind (fun c : ProtocolCapabilitySet => c.words.length) (fun count _ => ?_)
    fun c hc => hc.1
  refine (words_recognises count).decode ProtocolCapabilitySet.words (fun words hw => ?_)
    fun c hc => hc.2
  refine .exactly fun c => ?_
  cases c
  grind

theorem string_recognises : Recognises string stringImage StringAllowed := by
  -- The bound on the length keeps it inside the two bytes of the prefix.
  have hlen {s : String} (hs : StringAllowed s) :
      (UInt16.ofNat (utf8 s).length).toNat = (utf8 s).length :=
    UInt16.toNat_ofNat_of_lt (lt_of_le_of_lt hs.2 (by decide))
  refine (u16_recognises.bind (fun s => UInt16.ofNat (utf8 s).length) (fun len _ => ?_)
    fun _ _ => trivial).congr (fun _ => Iff.rfl) fun s hs => by
      simp only [stringImage, hlen hs]
      rfl
  refine (Recognises.guard _ fun _ =>
    (?text : Recognises _ utf8 fun s => (utf8 s).length = len.toNat)).congr (fun s => ⟨?_, ?_⟩)
    fun _ _ => rfl
  case text =>
    refine (Recognises.take LinkControlError.truncated len.toNat).decode utf8 (fun value hv => ?_)
      fun _ hs => hs
    cases hdecode : String.fromUTF8? ⟨value.toArray⟩ with
    | none =>
      refine .never fun s => ?_
      rintro ⟨-, rfl⟩
      -- Every allowed string has valid bytes.
      simp [fromUTF8?_utf8] at hdecode
    | some text =>
      refine .exactly fun s => ⟨?_, ?_⟩
      · rintro ⟨-, rfl⟩
        exact Option.some.inj ((fromUTF8?_utf8 s).symm.trans hdecode)
      · rintro rfl
        have := utf8_of_fromUTF8? hdecode
        exact ⟨this ▸ hv, this⟩
  · rintro ⟨hs, rfl⟩
    rw [hlen hs]
    exact ⟨rfl, not_or.mpr ⟨fun h => hs.1 (List.eq_nil_of_length_eq_zero h), not_lt.mpr hs.2⟩⟩
  · rintro ⟨heq, hguard⟩
    obtain ⟨hne, hle⟩ := not_or.mp hguard
    rw [← heq] at hne hle
    exact ⟨⟨fun h => hne (by rw [h]; rfl), not_lt.mp hle⟩, by rw [heq, UInt16.ofNat_toNat]⟩

theorem debugIdentity_recognises : Recognises debugIdentity debugImage DebugAllowed := by
  refine u8_recognises.bindPart (fun debug v => v = if debug.isSome then 1 else 0)
    (fun debug => (debugImage debug).tail) (fun present _ => ?_) (fun debug _ => ⟨_, trivial, rfl⟩)
    fun v debug _ hv => by cases debug <;> simp [debugImage, hv]
  by_cases h0 : present = 0
  · subst h0
    -- Absent.
    refine (Recognises.pure none).congr (fun debug => ?_) fun debug hd => by rw [hd]; rfl
    cases debug <;> simp [DebugAllowed]
  rw [if_neg h0]
  by_cases h1 : present = 1
  · subst h1
    rw [if_pos rfl]
    -- Present: the authority, then the name.
    refine string_recognises.bindPart (fun debug a => ∃ d, debug = some d ∧ d.authority = a)
      (fun debug => (debug.map fun d => stringImage d.name).getD []) (fun authority ha => ?_) ?_ ?_
    · refine string_recognises.bindPart (fun debug n => ∃ d, debug = some d ∧ d.name = n)
        (fun _ => []) (fun name hn => ?_) ?_ ?_
      · refine .exactly fun debug => ⟨?_, ?_⟩
        · rintro ⟨⟨-, d, rfl, rfl⟩, d', hd', rfl⟩
          cases hd'
          rfl
        · rintro rfl
          refine ⟨⟨⟨fun d hd => ?_, by simp⟩, _, rfl, rfl⟩, _, rfl, rfl⟩
          cases hd
          exact ⟨ha, hn⟩
      · rintro debug ⟨⟨hd, -⟩, d, rfl, -⟩
        exact ⟨d.name, (hd d rfl).2, d, rfl, rfl⟩
      · rintro name debug - ⟨d, rfl, rfl⟩
        simp
    · rintro (- | d) ⟨hd, hsome⟩
      · simp at hsome
      · exact ⟨d.authority, (hd d rfl).1, d, rfl, rfl⟩
    · rintro authority debug - ⟨d, rfl, rfl⟩
      simp [debugImage]
  · rw [if_neg h1]
    refine .never fun debug => ?_
    cases debug <;> simp [h0, h1]

theorem offer_recognises : Recognises offer offerImage OfferFields := by
  refine (opaqueId_recognises _ _).bind ProtocolOffer.stableId (fun stableId _ => ?_)
    fun _ _ => trivial
  refine debugIdentity_recognises.bind ProtocolOffer.debugIdentity (fun debugIdentity hd => ?_)
    fun o ho => ho.1.debug
  refine versionRange_recognises.bind ProtocolOffer.versions (fun versions hv => ?_)
    fun o ho => ho.1.1.versions
  refine schema_recognises.bind ProtocolOffer.schema (fun schema hs => ?_)
    fun o ho => ho.1.1.1.revision
  refine capabilities_recognises.decode ProtocolOffer.capabilities (fun capabilities hc => ?_)
    fun o ho => ho.1.1.1.1.words
  refine .exactly fun o => ⟨?_, ?_⟩
  · rintro ⟨⟨⟨⟨⟨-, rfl⟩, rfl⟩, rfl⟩, rfl⟩, rfl⟩
    rfl
  · rintro rfl
    exact ⟨⟨⟨⟨⟨⟨hd, hv, hs, hc⟩, rfl⟩, rfl⟩, rfl⟩, rfl⟩, rfl⟩

theorem selection_recognises : Recognises selection selectionImage SelectionFields := by
  refine (opaqueId_recognises _ _).bind ProtocolSelection.stableId (fun stableId _ => ?_)
    fun _ _ => trivial
  refine version_recognises.bind ProtocolSelection.version (fun version _ => ?_)
    fun _ _ => trivial
  refine schema_recognises.bind ProtocolSelection.schema (fun schema hs => ?_)
    fun s hs => hs.1.1.revision
  refine capabilities_recognises.decode ProtocolSelection.capabilities (fun capabilities hc => ?_)
    fun s hs => hs.1.1.1.words
  refine .exactly fun s => ⟨?_, ?_⟩
  · rintro ⟨⟨⟨⟨-, rfl⟩, rfl⟩, rfl⟩, rfl⟩
    rfl
  · rintro rfl
    exact ⟨⟨⟨⟨⟨hs, hc⟩, rfl⟩, rfl⟩, rfl⟩, rfl⟩

/-- One byte for each value of an enumeration, every other byte refused. -/
theorem byte_recognises {α : Type} {toWire : α → UInt8} {f : UInt8 → ControlReader α}
    (hread : ∀ a, f (toWire a) = pure a)
    (hfail : ∀ v, (∀ a, v ≠ toWire a) → f v = Decoder.fail .invalidPayload) :
    Recognises (u8 >>= f) (fun a => [toWire a]) (fun _ => True) :=
  u8_recognises.coded hread hfail

theorem authPath_recognises :
    Recognises authPath (fun a => [authPathToWire a]) (fun _ => True) := by
  refine byte_recognises (fun a => by cases a <;> rfl) fun v h => ?_
  exact (if_neg (h .firstPairing)).trans <| if_neg (h .trustedReconnect)

theorem errorDomain_recognises :
    Recognises errorDomain (fun d => [errorDomainToWire d]) (fun _ => True) := by
  refine byte_recognises (fun d => by cases d <;> rfl) fun v h => ?_
  exact (if_neg (h .control)).trans <| (if_neg (h .protocol)).trans <|
    (if_neg (h .channel)).trans <| (if_neg (h .security)).trans <| if_neg (h .resource)

theorem retryability_recognises :
    Recognises retryability (fun r => [retryabilityToWire r]) (fun _ => True) := by
  refine byte_recognises (fun r => by cases r <;> rfl) fun v h => ?_
  exact (if_neg (h .never)).trans <| (if_neg (h .retryAfterBackoff)).trans <|
    if_neg (h .reconnect)

theorem opcode_recognises :
    Recognises opcode (fun o => beBytes 2 o.toWire.toNat) (fun _ => True) := by
  refine u16_recognises.decode LinkControlOpcode.toWire (fun value _ => ?_) fun _ _ => trivial
  cases hv : LinkControlOpcode.tryFrom value with
  | error e =>
    refine .never fun o => ?_
    rintro ⟨-, rfl⟩
    simp [o.tryFrom_toWire] at hv
  | ok opcode =>
    refine .exactly fun o => ⟨?_, ?_⟩
    · rintro ⟨-, rfl⟩
      exact Except.ok.inj (o.tryFrom_toWire.symm.trans hv)
    · rintro rfl
      exact ⟨trivial, LinkControlOpcode.toWire_of_tryFrom hv⟩

theorem operation_recognises :
    Recognises operation (fun o => beBytes 2 (operationToWire o).toNat) (fun _ => True) := by
  refine u16_recognises.decode operationToWire (fun value _ => ?_) fun _ _ => trivial
  by_cases hmax : value = 0xffff
  · rw [if_pos hmax]
    refine .exactly fun o => ?_
    cases o with
    | none => simp [operationToWire, hmax]
    | some o => simp [operationToWire, hmax, o.toWire_ne_max]
  rw [if_neg hmax]
  cases hv : LinkControlOpcode.tryFrom value with
  | error e =>
    refine .never fun o => ?_
    rintro ⟨-, rfl⟩
    cases o with
    | none => exact hmax rfl
    | some o => simp [operationToWire, o.tryFrom_toWire] at hv
  | ok opcode =>
    refine .exactly fun o => ⟨?_, ?_⟩
    · rintro ⟨-, rfl⟩
      cases o with
      | none => exact absurd rfl hmax
      | some o => exact congrArg some (Except.ok.inj (o.tryFrom_toWire.symm.trans hv))
    · rintro rfl
      exact ⟨trivial, LinkControlOpcode.toWire_of_tryFrom hv⟩

end ControlReader

/-- Items with distinct identifiers, none of them seen before. -/
structure Distinct {α : Type} (key : α → ProtocolStableId) (allowed : α → Prop)
    (seen : ExtTreeSet ProtocolStableId) (l : List α) : Prop where
  nodup : (l.map key).Nodup
  unseen : ∀ a ∈ l, key a ∉ seen
  all : ∀ a ∈ l, allowed a

theorem distinct_cons {α : Type} {key : α → ProtocolStableId} {allowed : α → Prop}
    {seen : ExtTreeSet ProtocolStableId} {a : α} {rest : List α} :
    Distinct key allowed seen (a :: rest) ↔
      key a ∉ seen ∧ allowed a ∧ Distinct key allowed (seen.insert (key a)) rest := by
  constructor
  · rintro ⟨hnodup, hunseen, hall⟩
    rw [List.map_cons, List.nodup_cons] at hnodup
    refine ⟨hunseen a List.mem_cons_self, hall a List.mem_cons_self, hnodup.2, fun b hb => ?_,
      fun b hb => hall b (List.mem_cons_of_mem _ hb)⟩
    rw [ExtTreeSet.mem_insert, Std.compare_eq_iff_eq, not_or]
    exact ⟨fun h => hnodup.1 (h ▸ List.mem_map_of_mem hb), hunseen b (List.mem_cons_of_mem _ hb)⟩
  · rintro ⟨ha, hallowed, hnodup, hunseen, hall⟩
    -- Unseen after `a` was added means different from `a` and unseen before.
    have hnew (b : α) (hb : b ∈ rest) : key a ≠ key b ∧ key b ∉ seen := by
      have := hunseen b hb
      rw [ExtTreeSet.mem_insert, Std.compare_eq_iff_eq, not_or] at this
      exact this
    refine ⟨?_, ?_, ?_⟩
    · rw [List.map_cons, List.nodup_cons]
      refine ⟨fun h => ?_, hnodup⟩
      obtain ⟨b, hb, heq⟩ := List.mem_map.mp h
      exact (hnew b hb).1 heq.symm
    · exact List.forall_mem_cons.mpr ⟨ha, fun b hb => (hnew b hb).2⟩
    · exact List.forall_mem_cons.mpr ⟨hallowed, hall⟩

theorem distinct_nil {α : Type} {key : α → ProtocolStableId} {allowed : α → Prop}
    {seen : ExtTreeSet ProtocolStableId} : Distinct key allowed seen [] :=
  ⟨List.nodup_nil, by simp, by simp⟩

theorem distinct_congr {α : Type} {key : α → ProtocolStableId} {p q : α → Prop}
    {seen : ExtTreeSet ProtocolStableId} {l : List α} (h : ∀ a, p a ↔ q a) :
    Distinct key p seen l ↔ Distinct key q seen l := by
  rw [show p = q from funext fun a => propext (h a)]

theorem decodeDistinct_recognises {α : Type} {item : ControlReader α}
    {key : α → ProtocolStableId} {consistent : α → Bool} {image : α → Bytes} {allowed : α → Prop}
    (hitem : Recognises item image allowed) (n : ℕ) (seen : ExtTreeSet ProtocolStableId) :
    Recognises (decodeDistinct item key consistent n seen) (fun l => l.flatMap image)
      (fun l => l.length = n ∧
        Distinct key (fun a => allowed a ∧ consistent a = true) seen l) := by
  induction n generalizing seen with
  | zero =>
    refine (Recognises.pure []).congr (fun l => ?_) fun l hl => by rw [hl]; rfl
    refine ⟨fun h => List.eq_nil_of_length_eq_zero h.1, ?_⟩
    rintro rfl
    exact ⟨rfl, distinct_nil⟩
  | succ n ih =>
    refine (hitem.cons (P := fun a rest => (key a ∉ seen ∧ consistent a = true) ∧
      rest.length = n ∧ Distinct key (fun a => allowed a ∧ consistent a = true)
        (seen.insert (key a)) rest) fun a ha => ?_).congr (fun l => ⟨?_, ?_⟩) fun _ _ => rfl
    · have hrest : Recognises (do
          let rest ← decodeDistinct item key consistent n (seen.insert (key a))
          pure (a :: rest)) (fun l => l.tail.flatMap image)
          (fun l => ∃ rest, l = a :: rest ∧ rest.length = n ∧
            Distinct key (fun a => allowed a ∧ consistent a = true)
              (seen.insert (key a)) rest) := by
        -- The tail is read with this identifier added to those seen.
        refine (ih (seen.insert (key a))).decode List.tail (fun rest hrest => ?_) ?_
        · refine .exactly fun l => ⟨?_, ?_⟩
          · rintro ⟨⟨rest, rfl, -⟩, rfl⟩
            rfl
          · rintro rfl
            exact ⟨⟨rest, rfl, hrest⟩, rfl⟩
        · rintro l ⟨rest, rfl, hrest⟩
          exact hrest
      refine (Recognises.guard _ fun _ => hrest).congr (fun l => ?_) fun _ _ => rfl
      simp only [ExtTreeSet.contains_iff_mem, Bool.not_eq_true', not_or, Bool.not_eq_false]
      grind
    · rintro ⟨hlen, hdistinct⟩
      obtain ⟨a, rest, rfl⟩ := List.exists_cons_of_length_eq_add_one hlen
      obtain ⟨ha, ⟨hallowed, hcons⟩, hrest⟩ := distinct_cons.mp hdistinct
      exact ⟨a, rest, rfl, hallowed, ⟨ha, hcons⟩, by simpa using hlen, hrest⟩
    · rintro ⟨a, rest, rfl, hallowed, ⟨ha, hcons⟩, hlen, hrest⟩
      exact ⟨by simp [hlen], distinct_cons.mpr ⟨ha, ⟨hallowed, hcons⟩, hrest⟩⟩

/-- A counted list of items with distinct identifiers. -/
theorem counted_recognises {α : Type} {item : ControlReader α} {key : α → ProtocolStableId}
    {consistent : α → Bool} {image : α → Bytes} {allowed : α → Prop}
    (hitem : Recognises item image allowed) :
    Recognises (do
        let count ← ControlReader.boundedCount maxControlProtocols
        decodeDistinct item key consistent count ∅)
      (fun l => countImage l.length ++ l.flatMap image)
      (fun l => l.length ≤ maxControlProtocols ∧
        Distinct key (fun a => allowed a ∧ consistent a = true) ∅ l) := by
  have hcount : Recognises (ControlReader.boundedCount maxControlProtocols) countImage
    (· ≤ maxControlProtocols) := ControlReader.boundedCount_recognises (by decide)
  refine hcount.bind List.length (fun count hle => ?_) fun l hl => hl.1
  refine (decodeDistinct_recognises hitem count ∅).congr (fun l => ⟨?_, ?_⟩) fun _ _ => rfl
  · rintro ⟨⟨-, hl⟩, hcount⟩
    exact ⟨hcount, hl⟩
  · rintro ⟨rfl, hl⟩
    exact ⟨⟨hle, hl⟩, rfl⟩

def helloImage (h : HelloControl) : Bytes :=
  h.identity.peerId.bytes ++ (h.identity.endpointId.bytes ++ (h.identity.connectionId.bytes ++
    (versionRangeImage h.linkVersions ++ (beBytes 8 h.linkCapabilities.bits.toNat ++
      [authPathToWire h.requestedAuth]))))

def openChannelImage (o : OpenChannel) : Bytes :=
  o.protocolId.bytes ++ (beBytes 2 o.protocolChannelId.val.toNat ++
    (beBytes 4 o.requestedSessionChannelId.val.toNat ++ beBytes 4 o.capacity.toNat))

def acceptChannelImage (a : AcceptChannel) : Bytes :=
  a.protocolId.bytes ++ (beBytes 2 a.protocolChannelId.val.toNat ++
    beBytes 4 a.sessionChannelId.val.toNat)

def errorImage (e : LinkControlError) : Bytes :=
  [errorDomainToWire e.domain] ++ (beBytes 2 e.code.toNat ++
    (beBytes 2 (operationToWire e.operation).toNat ++ [retryabilityToWire e.retryability]))

def payloadImage : ControlPayload → Bytes
  | .hello hello => helloImage hello
  | .offerProtocols offers => countImage offers.length ++ offers.flatMap offerImage
  | .selectProtocols selections => countImage selections.length ++ selections.flatMap selectionImage
  | .openChannel request => openChannelImage request
  | .acceptChannel accepted => acceptChannelImage accepted
  | .closeChannel sessionChannelId => beBytes 4 sessionChannelId.val.toNat
  | .ping nonce => beBytes 8 nonce.toNat
  | .pong nonce => beBytes 8 nonce.toNat
  | .beginDrain deadlineMillis => beBytes 4 deadlineMillis.toNat
  | .closeSession reasonCode => beBytes 2 reasonCode.toNat
  | .error error => errorImage error

structure OfferAllowed (derive : String → String → ProtocolStableId) (o : ProtocolOffer) : Prop
    extends OfferFields o where
  owner : o.capabilities.protocolId = o.stableId
  identity : matchesDebugIdentity derive o.stableId o.debugIdentity = true

structure SelectionAllowed (s : ProtocolSelection) : Prop extends SelectionFields s where
  owner : s.capabilities.protocolId = s.stableId

def OpenChannelAllowed (o : OpenChannel) : Prop :=
  o.protocolChannelId.val ≠ 0 ∧ o.requestedSessionChannelId.val ≠ 0 ∧ o.capacity ≠ 0

def AcceptChannelAllowed (a : AcceptChannel) : Prop :=
  a.protocolChannelId.val ≠ 0 ∧ a.sessionChannelId.val ≠ 0

/-- The payloads that may stand on the wire. -/
def PayloadAllowed (derive : String → String → ProtocolStableId) : ControlPayload → Prop
  | .hello hello => hello.linkVersions.isValid = true
  | .offerProtocols offers => offers.length ≤ maxControlProtocols ∧
      Distinct ProtocolOffer.stableId (OfferAllowed derive) ∅ offers
  | .selectProtocols selections => selections.length ≤ maxControlProtocols ∧
      Distinct ProtocolSelection.stableId SelectionAllowed ∅ selections
  | .openChannel request => OpenChannelAllowed request
  | .acceptChannel accepted => AcceptChannelAllowed accepted
  | .closeChannel sessionChannelId => sessionChannelId.val ≠ 0
  | _ => True

/-- The payload as the peer sees it: the message of an error stays behind. -/
def ControlPayload.received : ControlPayload → ControlPayload
  | .error e => .error { e with publicMessage := remoteErrorMessage }
  | payload => payload

namespace ControlReader

theorem hello_recognises :
    Recognises hello helloImage (fun h => h.linkVersions.isValid = true) := by
  refine (opaqueId_recognises _ _).bind (fun h : HelloControl => h.identity.peerId)
    (fun peerId _ => ?_)
    fun _ _ => trivial
  refine (opaqueId_recognises _ _).bind (fun h : HelloControl => h.identity.endpointId)
    (fun endpointId _ => ?_)
    fun _ _ => trivial
  refine (opaqueId_recognises _ _).bind (fun h : HelloControl => h.identity.connectionId)
    (fun connectionId _ => ?_) fun _ _ => trivial
  refine versionRange_recognises.bind HelloControl.linkVersions (fun linkVersions hv => ?_)
    fun h hh => hh.1.1.1
  refine u64_recognises.bind (fun h : HelloControl => h.linkCapabilities.bits) (fun bits _ => ?_)
    fun _ _ => trivial
  refine authPath_recognises.decode HelloControl.requestedAuth (fun auth _ => ?_)
    fun _ _ => trivial
  refine .exactly fun h => ⟨?_, ?_⟩
  · rintro ⟨⟨⟨⟨⟨⟨-, rfl⟩, rfl⟩, rfl⟩, rfl⟩, rfl⟩, rfl⟩
    rfl
  · rintro rfl
    exact ⟨⟨⟨⟨⟨⟨hv, rfl⟩, rfl⟩, rfl⟩, rfl⟩, rfl⟩, rfl⟩

theorem openChannel_recognises :
    Recognises openChannel openChannelImage OpenChannelAllowed := by
  refine (opaqueId_recognises _ _).bind OpenChannel.protocolId (fun protocolId _ => ?_)
    fun _ _ => trivial
  refine u16_recognises.bind (fun o : OpenChannel => o.protocolChannelId.val)
    (fun protocolChannelId _ => ?_)
    fun _ _ => trivial
  refine u32_recognises.bind (fun o : OpenChannel => o.requestedSessionChannelId.val)
    (fun channelId _ => ?_)
    fun _ _ => trivial
  refine u32_recognises.decode OpenChannel.capacity (fun capacity _ => ?_) fun _ _ => trivial
  refine (Recognises.guard _ fun _ => Recognises.pure _).congr (fun o => ⟨?_, ?_⟩) fun _ _ => rfl
  · rintro ⟨⟨⟨⟨⟨hp, hs, hc⟩, rfl⟩, rfl⟩, rfl⟩, rfl⟩
    exact ⟨rfl, not_or.mpr ⟨hp, not_or.mpr ⟨hs, hc⟩⟩⟩
  · rintro ⟨rfl, hne⟩
    obtain ⟨hp, hsc⟩ := not_or.mp hne
    exact ⟨⟨⟨⟨⟨hp, not_or.mp hsc⟩, rfl⟩, rfl⟩, rfl⟩, rfl⟩

theorem acceptChannel_recognises :
    Recognises acceptChannel acceptChannelImage AcceptChannelAllowed := by
  refine (opaqueId_recognises _ _).bind AcceptChannel.protocolId (fun protocolId _ => ?_)
    fun _ _ => trivial
  refine u16_recognises.bind (fun a : AcceptChannel => a.protocolChannelId.val)
    (fun protocolChannelId _ => ?_)
    fun _ _ => trivial
  refine u32_recognises.decode (fun a : AcceptChannel => a.sessionChannelId.val)
    (fun channelId _ => ?_)
    fun _ _ => trivial
  refine (Recognises.guard _ fun _ => Recognises.pure _).congr (fun a => ⟨?_, ?_⟩) fun _ _ => rfl
  · rintro ⟨⟨⟨⟨hp, hs⟩, rfl⟩, rfl⟩, rfl⟩
    exact ⟨rfl, not_or.mpr ⟨hp, hs⟩⟩
  · rintro ⟨rfl, hne⟩
    exact ⟨⟨⟨not_or.mp hne, rfl⟩, rfl⟩, rfl⟩

theorem closeChannel_recognises :
    Recognises closeChannel (fun id => beBytes 4 id.val.toNat) (fun id => id.val ≠ 0) := by
  refine u32_recognises.decode ChannelId.val (fun channelId _ => ?_) fun _ _ => trivial
  refine (Recognises.guard _ fun _ => Recognises.pure _).congr (fun id => ⟨?_, ?_⟩) fun _ _ => rfl
  · rintro ⟨hne, rfl⟩
    exact ⟨rfl, hne⟩
  · rintro ⟨rfl, hne⟩
    exact ⟨hne, rfl⟩

theorem error_recognises :
    Recognises error errorImage (fun e => e.publicMessage = remoteErrorMessage) := by
  refine errorDomain_recognises.bind LinkControlError.domain (fun domain _ => ?_)
    fun _ _ => trivial
  refine u16_recognises.bind LinkControlError.code (fun code _ => ?_) fun _ _ => trivial
  refine operation_recognises.bind LinkControlError.operation (fun operation _ => ?_)
    fun _ _ => trivial
  refine retryability_recognises.decode LinkControlError.retryability (fun retryability _ => ?_)
    fun _ _ => trivial
  refine .exactly fun e => ⟨?_, ?_⟩
  · rintro ⟨⟨⟨⟨hmessage, rfl⟩, rfl⟩, rfl⟩, rfl⟩
    rw [← hmessage]
  · rintro rfl
    exact ⟨⟨⟨⟨rfl, rfl⟩, rfl⟩, rfl⟩, rfl⟩

end ControlReader

theorem decodeOffers_recognises (derive : String → String → ProtocolStableId) :
    Recognises (decodeOffers derive) (fun l => countImage l.length ++ l.flatMap offerImage)
      (fun l => l.length ≤ maxControlProtocols ∧
        Distinct ProtocolOffer.stableId (OfferAllowed derive) ∅ l) := by
  refine (counted_recognises ControlReader.offer_recognises).congr (fun l => ?_) fun _ _ => rfl
  refine and_congr_right fun _ => distinct_congr fun o => ?_
  rw [Bool.and_eq_true, beq_iff_eq]
  exact ⟨fun h => ⟨h.toOfferFields, h.owner, h.identity⟩, fun h => ⟨h.1, h.2.1, h.2.2⟩⟩

theorem decodeSelections_recognises :
    Recognises decodeSelections (fun l => countImage l.length ++ l.flatMap selectionImage)
      (fun l => l.length ≤ maxControlProtocols ∧
        Distinct ProtocolSelection.stableId SelectionAllowed ∅ l) := by
  refine (counted_recognises ControlReader.selection_recognises).congr (fun l => ?_) fun _ _ => rfl
  refine and_congr_right fun _ => distinct_congr fun s => ?_
  rw [beq_iff_eq]
  exact ⟨fun h => ⟨h.toSelectionFields, h.owner⟩, fun h => ⟨h.1, h.2⟩⟩

theorem decodePayload_recognises (derive : String → String → ProtocolStableId)
    (opcode : LinkControlOpcode) :
    Recognises (decodePayload derive opcode) payloadImage
      (fun p => p.opcode = opcode ∧ PayloadAllowed derive p ∧ p.received = p) := by
  cases opcode with
  | hello =>
    refine ControlReader.hello_recognises.alternative (fun p => ?_) fun _ => rfl
    cases p <;> simp [ControlPayload.opcode, PayloadAllowed, ControlPayload.received]
  | protocolOffer =>
    refine (decodeOffers_recognises derive).alternative (fun p => ?_) fun _ => rfl
    cases p <;> simp [ControlPayload.opcode, PayloadAllowed, ControlPayload.received]
  | protocolSelect =>
    refine decodeSelections_recognises.alternative (fun p => ?_) fun _ => rfl
    cases p <;> simp [ControlPayload.opcode, PayloadAllowed, ControlPayload.received]
  | openChannel =>
    refine ControlReader.openChannel_recognises.alternative (fun p => ?_) fun _ => rfl
    cases p <;> simp [ControlPayload.opcode, PayloadAllowed, ControlPayload.received]
  | channelAccepted =>
    refine ControlReader.acceptChannel_recognises.alternative (fun p => ?_) fun _ => rfl
    cases p <;> simp [ControlPayload.opcode, PayloadAllowed, ControlPayload.received]
  | closeChannel =>
    refine ControlReader.closeChannel_recognises.alternative (fun p => ?_) fun _ => rfl
    cases p <;> simp [ControlPayload.opcode, PayloadAllowed, ControlPayload.received]
  | ping =>
    refine ControlReader.u64_recognises.alternative (fun p => ?_) fun _ => rfl
    cases p <;> simp [ControlPayload.opcode, PayloadAllowed, ControlPayload.received]
  | pong =>
    refine ControlReader.u64_recognises.alternative (fun p => ?_) fun _ => rfl
    cases p <;> simp [ControlPayload.opcode, PayloadAllowed, ControlPayload.received]
  | beginDrain =>
    refine ControlReader.u32_recognises.alternative (fun p => ?_) fun _ => rfl
    cases p <;> simp [ControlPayload.opcode, PayloadAllowed, ControlPayload.received]
  | closeSession =>
    refine ControlReader.u16_recognises.alternative (fun p => ?_) fun _ => rfl
    cases p <;> simp [ControlPayload.opcode, PayloadAllowed, ControlPayload.received]
  | error =>
    refine ControlReader.error_recognises.alternative (fun p => ?_) fun _ => rfl
    cases p <;> simp [ControlPayload.opcode, PayloadAllowed, ControlPayload.received]
    -- The message of a received error is the fixed one.
    exact ⟨fun h => by rw [← h], fun h => by rw [← h]⟩

def sessionImage : Option SessionId → Bytes
  | none => [0] ++ List.replicate 16 0
  | some sessionId => [1] ++ sessionId.bytes

def headerImage (h : ControlHeader) : Bytes :=
  controlMagic ++ (beBytes 2 h.wireVersion.toNat ++ (beBytes 2 h.opcode.toWire.toNat ++
    (beBytes 2 h.flags.bits.toNat ++ (beBytes 8 h.requestId.toNat ++
      (sessionImage h.sessionId ++ beBytes 4 h.payloadLen.toNat)))))

namespace ControlReader

theorem magic_recognises : Recognises magic (fun _ => controlMagic) (fun _ => True) := by
  refine (Recognises.takeArray LinkControlError.truncated 4).decode
    (fun _ => ⟨controlMagic, rfl⟩) (fun array _ => ?_) fun _ _ => trivial
  refine (Recognises.guard _ fun _ => Recognises.pure ()).congr (fun u => ⟨?_, ?_⟩) fun _ _ => rfl
  · rintro ⟨-, rfl⟩
    exact ⟨rfl, fun h => h rfl⟩
  · rintro ⟨-, h⟩
    exact ⟨trivial, FixedBytes.ext_bytes (not_not.mp h).symm⟩

theorem wireVersion_recognises : Recognises wireVersion (fun v => beBytes 2 v.toNat)
    (fun v => v = typedControlWireVersion) := by
  refine u16_recognises.decode (fun v => v) (fun value _ => ?_) fun _ _ => trivial
  refine (Recognises.guard _ fun _ => Recognises.pure value).congr (fun v => ⟨?_, ?_⟩)
    fun _ _ => rfl
  · rintro ⟨h, rfl⟩
    exact ⟨rfl, fun hne => hne h⟩
  · rintro ⟨rfl, h⟩
    exact ⟨not_not.mp h, rfl⟩

theorem flags_recognises :
    Recognises flags (fun f => beBytes 2 f.bits.toNat) (fun _ => True) := by
  refine u16_recognises.decode ControlFlags.bits (fun bits _ => ?_) fun _ _ => trivial
  by_cases hbits : bits &&& ~~~1 = 0
  · rw [ControlFlags.fromBits, dif_pos hbits]
    refine .exactly fun f => ?_
    cases f
    simp
  · rw [ControlFlags.fromBits, dif_neg hbits]
    refine .never fun f => ?_
    rintro ⟨-, rfl⟩
    exact hbits f.known

theorem sessionId_recognises : Recognises sessionId sessionImage (fun _ => True) := by
  refine (u8_recognises.bind (fun s : Option SessionId => if s.isSome then 1 else 0)
    (fun present _ => (Recognises.takeArray LinkControlError.truncated 16).decode
      (fun s : Option SessionId => (s.map OpaqueId.toFixedBytes).getD (FixedBytes.replicate 16 0))
      (fun array _ => ?_) fun _ _ => trivial) fun _ _ => trivial).congr (fun _ => Iff.rfl) ?_
  -- An absent session is a zero flag and sixteen zero bytes, and nothing else.
  · by_cases hnone : present = 0 ∧ array = FixedBytes.replicate 16 0
    · rw [if_pos hnone]
      refine .exactly fun s => ?_
      obtain ⟨rfl, rfl⟩ := hnone
      cases s <;> simp
    rw [if_neg hnone]
    by_cases hsome : present = 1
    · rw [if_pos hsome]
      refine .exactly fun s => ?_
      subst hsome
      cases s with
      | none => simp
      | some id =>
        simp only [Option.isSome_some, Option.map_some, Option.getD_some, Option.some.injEq]
        exact ⟨fun h => OpaqueId.toFixedBytes_injective h.2, fun h => by rw [h]; simp⟩
    · rw [if_neg hsome]
      refine .never fun s => ?_
      rintro ⟨⟨-, hpresent⟩, harray⟩
      cases s with
      | none => exact hnone ⟨hpresent.symm, harray.symm⟩
      | some id => exact hsome hpresent.symm
  · rintro (- | id) -
    · rfl
    · rfl

end ControlReader

theorem decodeControlHeader_recognises : Recognises decodeControlHeader headerImage
    (fun h => h.wireVersion = typedControlWireVersion) := by
  refine ControlReader.magic_recognises.bind (fun _ => ()) (fun _ _ => ?_) fun _ _ => trivial
  refine ControlReader.wireVersion_recognises.bind ControlHeader.wireVersion
    (fun wireVersion hv => ?_) fun h hh => hh.1
  refine ControlReader.opcode_recognises.bind ControlHeader.opcode (fun opcode _ => ?_)
    fun _ _ => trivial
  refine ControlReader.flags_recognises.bind ControlHeader.flags (fun flags _ => ?_)
    fun _ _ => trivial
  refine ControlReader.u64_recognises.bind ControlHeader.requestId (fun requestId _ => ?_)
    fun _ _ => trivial
  refine ControlReader.sessionId_recognises.bind ControlHeader.sessionId (fun sessionId _ => ?_)
    fun _ _ => trivial
  refine ControlReader.u32_recognises.decode ControlHeader.payloadLen (fun payloadLen _ => ?_)
    fun _ _ => trivial
  refine .exactly fun h => ⟨?_, ?_⟩
  · rintro ⟨⟨⟨⟨⟨⟨⟨-, -⟩, rfl⟩, rfl⟩, rfl⟩, rfl⟩, rfl⟩, rfl⟩
    rfl
  · rintro rfl
    exact ⟨⟨⟨⟨⟨⟨⟨hv, rfl⟩, rfl⟩, rfl⟩, rfl⟩, rfl⟩, rfl⟩, rfl⟩

end MutsukiLink
