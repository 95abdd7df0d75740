import MutsukiLink.TrustFormat

/-! Which texts are read as a peer id, which are reported as corrupt, and which of them the
reading gets wrong: a plus sign before one digit is taken for a byte, and a slice that would cut a
character panics. -/
namespace MutsukiLink
open WireBytes

/-- `char::is_ascii_hexdigit`. -/
def isHexDigit (c : Char) : Bool :=
  (48 ≤ c.toNat ∧ c.toNat ≤ 57) ∨ (97 ≤ c.toNat ∧ c.toNat ≤ 102) ∨
    (65 ≤ c.toNat ∧ c.toNat ≤ 70)

/-- A text of exactly 64 hexadecimal digits. -/
def HexDigits (s : String) : Prop := s.toList.length = 64 ∧ ∀ c ∈ s.toList, isHexDigit c = true

/-- A text is read strictly: it names the peer that its 64 digits spell, or it is corrupt. -/
structure ReadStrictly (s : String) : Prop where
  total : decodePeerId s ≠ .error .panicked
  accepted : (∃ b, decodePeerId s = .ok b) ↔ HexDigits s
  spelled : ∀ b, decodePeerId s = .ok b → encode b.bytes = s.toLower
  corrupt : ¬HexDigits s → decodePeerId s = .error (.failed corruptData)

/-- Bytes cut into pairs that satisfy `P`. -/
inductive Pairs (P : UInt8 → UInt8 → Prop) : Bytes → Prop
  | nil : Pairs P []
  | cons {a b : UInt8} {rest : Bytes} : P a b → Pairs P rest → Pairs P (a :: b :: rest)

/-- A digit or a plus sign, and a digit. -/
def PairAccepted (a b : UInt8) : Prop :=
  (a = 43 ∨ (digitValue a).isSome) ∧ (digitValue b).isSome

/-- After pairs that are accepted comes one that begins or ends inside a character. -/
inductive CutsCharacter : Bytes → Prop
  | here {a b : UInt8} {rest : Bytes} :
    isContinuation a = true ∨ rest.head?.any isContinuation = true →
      CutsCharacter (a :: b :: rest)
  | later {a b : UInt8} {rest : Bytes} :
    PairAccepted a b → CutsCharacter rest → CutsCharacter (a :: b :: rest)

/-- The texts of 64 bytes that are not read strictly. -/
def Misread (s : String) : Prop :=
  (utf8 s).length = 64 ∧
    (CutsCharacter (utf8 s) ∨ Pairs PairAccepted (utf8 s) ∧ 43 ∈ utf8 s)

section Digits

theorem isContinuation_of_digit :
    ∀ n < 256, (digitValue (UInt8.ofNat n)).isSome = true →
      isContinuation (UInt8.ofNat n) = false ∧ UInt8.ofNat n ≠ 43 := by
  decide +kernel

theorem digit_ordinary {a : UInt8} (h : (digitValue a).isSome = true) :
    isContinuation a = false ∧ a ≠ 43 := by
  have := isContinuation_of_digit a.toNat a.toNat_lt
  rw [UInt8.ofNat_toNat] at this
  exact this h

theorem fromStrRadix16_eq_some_iff {a b : UInt8} :
    (fromStrRadix16 a b).isSome = true ↔ PairAccepted a b := by
  rw [fromStrRadix16, PairAccepted]
  split
  · next h => simp [h]
  · next h => cases digitValue a <;> cases digitValue b <;> simp [h]

theorem utf8EncodeChar_ascii {c : Char} (h : c.toNat ≤ 127) :
    String.utf8EncodeChar c = [UInt8.ofNat c.toNat] := by
  have hle : c.val ≤ 127 := UInt32.le_iff_toNat_le.mpr h
  rw [String.utf8EncodeChar_eq_singleton (by simp [Char.utf8Size, hle])]
  rfl

theorem ascii_of_isHexDigit {c : Char} (h : isHexDigit c = true) : c.toNat ≤ 127 := by
  simp only [isHexDigit, decide_eq_true_eq] at h
  omega

/-- A character of several bytes begins with a byte above all digits. -/
theorem head_utf8EncodeChar {c : Char} (h : ¬c.toNat ≤ 127) :
    ∃ b rest, String.utf8EncodeChar c = b :: rest ∧ 192 ≤ b.toNat := by
  have hval : ¬c.val.toNat ≤ 127 := h
  rw [String.utf8EncodeChar]
  simp only [hval, if_false]
  split
  · exact ⟨_, _, rfl, by simp only [UInt8.toNat_ofNat']; omega⟩
  · split
    · exact ⟨_, _, rfl, by simp only [UInt8.toNat_ofNat']; omega⟩
    · exact ⟨_, _, rfl, by simp only [UInt8.toNat_ofNat']; omega⟩

theorem digitValue_char : ∀ n < 128, isHexDigit (Char.ofNat n) = true →
    ∃ v, v < 16 ∧ digitValue (UInt8.ofNat n) = some v ∧ hexDigit v = (Char.ofNat n).toLower := by
  have hsome : ∀ n < 128, isHexDigit (Char.ofNat n) = true →
      ((digitValue (UInt8.ofNat n)).map fun v => (decide (v < 16), hexDigit v)) =
        some (true, (Char.ofNat n).toLower) := by
    decide +kernel
  intro n hn h
  obtain ⟨v, hv, hspec⟩ := Option.map_eq_some_iff.mp (hsome n hn h)
  obtain ⟨hlt, hdigit⟩ := Prod.mk.inj hspec
  exact ⟨v, of_decide_eq_true hlt, hv, hdigit⟩

theorem digitValue_of_isHexDigit {c : Char} (h : isHexDigit c = true) :
    ∃ v < 16, digitValue (UInt8.ofNat c.toNat) = some v ∧ hexDigit v = c.toLower := by
  have hlt : c.toNat < 128 := Nat.lt_succ_of_le (ascii_of_isHexDigit h)
  have hdigit := digitValue_char c.toNat hlt
  rw [Char.ofNat_toNat] at hdigit
  exact hdigit h

theorem isHexDigit_of_digitValue {c : Char}
    (h : ∀ b ∈ String.utf8EncodeChar c, (digitValue b).isSome = true) : isHexDigit c = true := by
  by_cases hascii : c.toNat ≤ 127
  · rw [utf8EncodeChar_ascii hascii] at h
    have hsome := h _ (List.mem_singleton_self _)
    have hnat : (UInt8.ofNat c.toNat).toNat = c.toNat := by
      rw [UInt8.toNat_ofNat']
      omega
    rw [digitValue, hnat] at hsome
    rw [isHexDigit, decide_eq_true_eq]
    split_ifs at hsome with h1 h2 h3
    · exact .inl h1
    · exact .inr (.inl h2)
    · exact .inr (.inr h3)
    · simp at hsome
  · obtain ⟨b, rest, heq, hge⟩ := head_utf8EncodeChar hascii
    have hsome := h b (by rw [heq]; exact List.mem_cons_self)
    rw [digitValue, if_neg (by omega), if_neg (by omega), if_neg (by omega)] at hsome
    simp at hsome

theorem digits_flatMap {l : List Char} (h : ∀ c ∈ l, isHexDigit c = true) :
    l.flatMap String.utf8EncodeChar = l.map fun c => UInt8.ofNat c.toNat := by
  rw [List.map_eq_flatMap]
  exact List.flatMap_congr fun c hc => utf8EncodeChar_ascii (ascii_of_isHexDigit (h c hc))

theorem utf8_toList (s : String) : utf8 s = s.toList.flatMap String.utf8EncodeChar := by
  rw [← utf8_ofList, String.ofList_toList]

/-- Exactly 64 digits, told from the bytes. -/
theorem hexDigits_iff (s : String) :
    HexDigits s ↔ (utf8 s).length = 64 ∧ ∀ b ∈ utf8 s, (digitValue b).isSome = true := by
  rw [HexDigits, utf8_toList]
  constructor
  · rintro ⟨hlen, hdigits⟩
    rw [digits_flatMap hdigits]
    refine ⟨by rw [List.length_map, hlen], fun b hb => ?_⟩
    obtain ⟨c, hc, rfl⟩ := List.mem_map.mp hb
    obtain ⟨v, -, hv, -⟩ := digitValue_of_isHexDigit (hdigits c hc)
    rw [hv, Option.isSome_some]
  · rintro ⟨hlen, hbytes⟩
    have hdigits : ∀ c ∈ s.toList, isHexDigit c = true := fun c hc =>
      isHexDigit_of_digitValue fun b hb => hbytes b (List.mem_flatMap.mpr ⟨c, hc, hb⟩)
    rw [digits_flatMap hdigits, List.length_map] at hlen
    exact ⟨hlen, hdigits⟩

end Digits

section Reading

theorem PairAccepted.ordinary {a b : UInt8} (h : PairAccepted a b) : isContinuation a = false := by
  rcases h.1 with rfl | ha
  · rfl
  · exact (digit_ordinary ha).1

theorem decodeHexPairs_cut {l : Bytes} (h : CutsCharacter l) :
    decodeHexPairs l = .error .panicked := by
  induction h with
  | here hcut => rw [decodeHexPairs, if_pos (by simpa using hcut)]
  | @later a b rest hpair _ ih =>
    rw [decodeHexPairs]
    split
    · rfl
    · obtain ⟨byte, hbyte⟩ := Option.isSome_iff_exists.mp (fromStrRadix16_eq_some_iff.mpr hpair)
      rw [hbyte, ih]
      rfl

theorem Pairs.head {P : UInt8 → UInt8 → Prop} {l : Bytes} (h : Pairs P l)
    (hP : ∀ a b, P a b → isContinuation a = false) : l.head?.any isContinuation = false := by
  cases h with
  | nil => rfl
  | cons hpair _ => exact hP _ _ hpair

theorem decodeHexPairs_accepted {l : Bytes} (h : Pairs PairAccepted l) :
    ∃ bytes, decodeHexPairs l = .ok bytes ∧ 2*bytes.length = l.length := by
  induction h with
  | nil => exact ⟨[], rfl, rfl⟩
  | @cons a b rest hpair hrest ih =>
    obtain ⟨bytes, hbytes, hlen⟩ := ih
    obtain ⟨byte, hbyte⟩ := Option.isSome_iff_exists.mp (fromStrRadix16_eq_some_iff.mpr hpair)
    refine ⟨byte :: bytes, ?_, by simp only [List.length_cons]; omega⟩
    rw [decodeHexPairs, hpair.ordinary, hrest.head fun _ _ => PairAccepted.ordinary, hbyte, hbytes]
    rfl

theorem exists_pair {α : Type*} {n : ℕ} {l : List α} (hlen : l.length = 2*(n+1)) :
    ∃ a b rest, l = a :: b :: rest ∧ rest.length = 2*n := by
  obtain ⟨a, l, rfl⟩ := List.exists_cons_of_length_pos (by omega : 0 < l.length)
  rw [List.length_cons] at hlen
  obtain ⟨b, rest, rfl⟩ := List.exists_cons_of_length_pos (by omega : 0 < l.length)
  rw [List.length_cons] at hlen
  exact ⟨a, b, rest, rfl, by omega⟩

/-- What becomes of a text of whole pairs. -/
theorem decodeHexPairs_cases {n : ℕ} {l : Bytes} (hlen : l.length = 2*n) :
    CutsCharacter l ∨ Pairs PairAccepted l ∨
      decodeHexPairs l = .error (.failed corruptData) := by
  induction n generalizing l with
  | zero =>
    obtain rfl := List.length_eq_zero_iff.mp hlen
    exact .inr (.inl .nil)
  | succ n ih =>
    obtain ⟨a, b, rest, rfl, hrest⟩ := exists_pair hlen
    by_cases hcut : isContinuation a = true ∨ rest.head?.any isContinuation = true
    · exact .inl (.here hcut)
    · by_cases hpair : PairAccepted a b
      · rcases ih hrest with h | h | h
        · exact .inl (.later hpair h)
        · exact .inr (.inl (.cons hpair h))
        · obtain ⟨byte, hbyte⟩ :=
            Option.isSome_iff_exists.mp (fromStrRadix16_eq_some_iff.mpr hpair)
          refine .inr (.inr ?_)
          rw [decodeHexPairs, if_neg (by simpa using hcut), hbyte, h]
          rfl
      · have hnone : fromStrRadix16 a b = none := by
          rw [← fromStrRadix16_eq_some_iff] at hpair
          simpa using hpair
        refine .inr (.inr ?_)
        rw [decodeHexPairs, if_neg (by simpa using hcut), hnone]

/-- Digits are read as the bytes whose two lower-case digits they are. -/
theorem decodeHexPairs_digits {n : ℕ} {l : List Char} (hlen : l.length = 2*n)
    (h : ∀ c ∈ l, isHexDigit c = true) :
    ∃ bytes, decodeHexPairs (l.map fun c => UInt8.ofNat c.toNat) = .ok bytes ∧
      bytes.length = n ∧ encode bytes = String.ofList (l.map Char.toLower) := by
  induction n generalizing l with
  | zero =>
    obtain rfl := List.length_eq_zero_iff.mp hlen
    exact ⟨[], rfl, rfl, rfl⟩
  | succ n ih =>
    obtain ⟨c, d, rest, rfl, hrest⟩ := exists_pair hlen
    simp only [List.forall_mem_cons] at h
    obtain ⟨bytes, hbytes, hn, hencode⟩ := ih hrest h.2.2
    obtain ⟨high, hhigh, hc, hcl⟩ := digitValue_of_isHexDigit h.1
    obtain ⟨low, hlow, hd, hdl⟩ := digitValue_of_isHexDigit h.2.1
    have hfirst := digit_ordinary (Option.isSome_of_eq_some hc)
    have hnat : (UInt8.ofNat (high*16+low)).toNat = high*16+low := by
      rw [UInt8.toNat_ofNat']
      omega
    have hhead : (rest.map fun c => UInt8.ofNat c.toNat).head?.any isContinuation = false := by
      cases rest with
      | nil => rfl
      | cons e rest =>
        obtain ⟨v, -, hv, -⟩ := digitValue_of_isHexDigit (h.2.2 e List.mem_cons_self)
        exact (digit_ordinary (Option.isSome_of_eq_some hv)).1
    refine ⟨UInt8.ofNat (high*16+low) :: bytes, ?_, by rw [List.length_cons, hn], ?_⟩
    · rw [List.map_cons, List.map_cons, decodeHexPairs, hfirst.1, hhead, fromStrRadix16,
        if_neg hfirst.2, hc, hd, hbytes]
      rfl
    · have hdiv : (high*16+low)/16 = high := by omega
      have hmod : (high*16+low)%16 = low := by omega
      rw [encode, String.ofList_inj] at hencode ⊢
      rw [List.flatMap_cons, hencode, hnat, hdiv, hmod, hcl, hdl]
      rfl

/-- A text of 64 digits is read as the peer id that it spells. -/
theorem decodePeerId_digits {s : String} (h : HexDigits s) :
    ∃ b, decodePeerId s = .ok b ∧ encode b.bytes = s.toLower := by
  obtain ⟨bytes, hbytes, hlen, hencode⟩ := decodeHexPairs_digits (n := 32) h.1 h.2
  refine ⟨⟨bytes, hlen⟩, ?_, ?_⟩
  · rw [decodePeerId, decodeHex32, if_neg (not_not.mpr ((hexDigits_iff s).mp h).1), utf8_toList,
      digits_flatMap h.2, hbytes]
    simp only [tryIntoArray, hlen, dif_pos]
    rfl
  · have hlower : s.toLower = s.map Char.toLower := rfl
    rw [hencode, hlower, ← String.toList_map, String.ofList_toList]

theorem digit_of_accepted {l : Bytes} (h : Pairs PairAccepted l) (hplus : 43 ∉ l) :
    ∀ b ∈ l, (digitValue b).isSome = true := by
  induction h with
  | nil => simp
  | @cons a b rest hpair _ ih =>
    simp only [List.mem_cons, not_or] at hplus
    simp only [List.forall_mem_cons]
    exact ⟨hpair.1.resolve_left (Ne.symm hplus.1), hpair.2, ih hplus.2.2⟩

/-- A peer id is read strictly from every text but those that hold a sign where a digit belongs,
or a character across the end of a pair. -/
theorem readStrictly_iff (s : String) : ReadStrictly s ↔ ¬Misread s := by
  constructor
  · rintro ⟨htotal, haccepted, -, -⟩ ⟨hlen, hcut | ⟨hpairs, hplus⟩⟩
    · refine htotal ?_
      rw [decodePeerId, decodeHex32, if_neg (not_not.mpr hlen), decodeHexPairs_cut hcut]
      rfl
    · -- The sign is accepted, but a text of digits has none.
      obtain ⟨bytes, hbytes, hsize⟩ := decodeHexPairs_accepted hpairs
      have hsize : bytes.length = 32 := by omega
      have hok : decodePeerId s = .ok ⟨bytes, hsize⟩ := by
        rw [decodePeerId, decodeHex32, if_neg (not_not.mpr hlen), hbytes]
        simp only [tryIntoArray, hsize, dif_pos]
        rfl
      have hdigits := ((hexDigits_iff s).mp (haccepted.mp ⟨_, hok⟩)).2
      exact (digit_ordinary (hdigits 43 hplus)).2 rfl
  · intro hread
    by_cases h : HexDigits s
    · obtain ⟨b, hb, hencode⟩ := decodePeerId_digits h
      refine ⟨fun hpanic => ?_, iff_of_true ⟨b, hb⟩ h, fun b' hb' => ?_,
        fun hnot => absurd h hnot⟩
      · rw [hb] at hpanic
        cases hpanic
      · rw [hb] at hb'
        rw [← Except.ok.inj hb', hencode]
    · have hcorrupt : decodePeerId s = .error (.failed corruptData) := by
        by_cases hlen : (utf8 s).length = 64
        · rcases decodeHexPairs_cases (n := 32) hlen with hcut | hpairs | hfailed
          · exact absurd ⟨hlen, .inl hcut⟩ hread
          · by_cases hplus : 43 ∈ utf8 s
            · exact absurd ⟨hlen, .inr ⟨hpairs, hplus⟩⟩ hread
            · exact absurd ((hexDigits_iff s).mpr ⟨hlen, digit_of_accepted hpairs hplus⟩) h
          · rw [decodePeerId, decodeHex32, if_neg (not_not.mpr hlen), hfailed]
            rfl
        · rw [decodePeerId, decodeHex32, if_pos hlen]
          rfl
      have hnot (b : PeerId) : decodePeerId s ≠ .ok b := fun hb => by
        rw [hcorrupt] at hb
        cases hb
      refine ⟨fun hpanic => ?_, iff_of_false (not_exists.mpr hnot) h,
        fun b hb => absurd hb (hnot b), fun _ => hcorrupt⟩
      rw [hcorrupt] at hpanic
      cases hpanic

def zeros (n : ℕ) : List Char := List.replicate n '0'

/-- Some characters and as many zeros as `n`. -/
def paddedText (l : List Char) (n : ℕ) : String := String.ofList (l ++ zeros n)

theorem utf8_paddedText (l : List Char) (n : ℕ) :
    utf8 (paddedText l n) = l.flatMap String.utf8EncodeChar ++ List.replicate n 48 := by
  have hzeros : ∀ c ∈ zeros n, isHexDigit c = true := fun c hc => by
    rw [List.eq_of_mem_replicate hc]
    rfl
  rw [paddedText, utf8_ofList, List.flatMap_append, digits_flatMap hzeros, zeros,
    List.map_replicate]
  rfl

/-- A sign is taken for a leading zero, so that another peer is named, and a character across the
end of a pair is a panic. -/
theorem peerId_misread :
    (decodePeerId (paddedText ['+', '1'] 62) = decodePeerId (paddedText ['0', '1'] 62) ∧
        ¬ReadStrictly (paddedText ['+', '1'] 62)) ∧
      decodePeerId (paddedText ['0', 'é'] 61) = .error .panicked ∧
        ¬ReadStrictly (paddedText ['0', 'é'] 61) := by
  have hsigned : decodePeerId (paddedText ['+', '1'] 62) =
      .ok ⟨1 :: List.replicate 31 0, rfl⟩ := by
    rw [decodePeerId, decodeHex32, utf8_paddedText]
    rfl
  have hspelled : decodePeerId (paddedText ['0', '1'] 62) =
      .ok ⟨1 :: List.replicate 31 0, rfl⟩ := by
    rw [decodePeerId, decodeHex32, utf8_paddedText]
    rfl
  have hcut : decodePeerId (paddedText ['0', 'é'] 61) = .error .panicked := by
    rw [decodePeerId, decodeHex32, utf8_paddedText]
    rfl
  refine ⟨⟨hsigned.trans hspelled.symm, fun h => ?_⟩, hcut, fun h => h.total hcut⟩
  have hdigit : isHexDigit '+' = true := by
    refine (h.accepted.mp ⟨_, hsigned⟩).2 '+' ?_
    rw [paddedText, String.toList_ofList]
    exact List.mem_cons_self
  exact absurd hdigit (by decide)

end Reading

end MutsukiLink
