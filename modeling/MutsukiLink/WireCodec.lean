import MutsukiLink.WireBytes

/-! Cursor decoders and appending writers over byte strings. A format is an image of each value
with the values that are allowed on the wire; a decoder recognises a format when it reads
exactly the images of the allowed values and its cursor never leaves the input. -/
namespace WireCodec
open WireBytes

structure Reader where
  bytes : Bytes
  position : ℕ
deriving DecidableEq, Repr

namespace Reader

def new (bytes : Bytes) : Reader := ⟨bytes, 0⟩

def remaining (r : Reader) : ℕ := r.bytes.length-r.position

def InBounds (r : Reader) : Prop := r.position ≤ r.bytes.length

/-- The cursor moves from `r` to `r'` over exactly `out`. -/
def Span (r : Reader) (out : Bytes) (r' : Reader) : Prop :=
  r' = { r with position := r.position+out.length } ∧
    ∃ rest, r.bytes.drop r.position = out ++ rest

theorem Span.nil (r : Reader) : r.Span [] r := ⟨rfl, _, rfl⟩

theorem Span.append {r r₁ r₂ : Reader} {out out' : Bytes} (h : r.Span out r₁)
    (h' : r₁.Span out' r₂) : r.Span (out ++ out') r₂ := by
  obtain ⟨rfl, rest, hrest⟩ := h
  obtain ⟨rfl, rest', hrest'⟩ := h'
  refine ⟨by simp only [List.length_append, Nat.add_assoc], rest', ?_⟩
  -- What stands after the first span is what the second one starts from.
  have hdrop : r.bytes.drop (r.position+out.length) = rest := by
    rw [← List.drop_drop, hrest, List.drop_left]
  rw [hrest, ← hdrop, hrest', List.append_assoc]

theorem Span.split {r r₂ : Reader} {out out' : Bytes} (h : r.Span (out ++ out') r₂) :
    ∃ r₁, r.Span out r₁ ∧ r₁.Span out' r₂ := by
  obtain ⟨rfl, rest, hrest⟩ := h
  rw [List.append_assoc] at hrest
  refine ⟨{ r with position := r.position+out.length }, ⟨rfl, _, hrest⟩, ?_, rest, ?_⟩
  · simp only [List.length_append, Nat.add_assoc]
  · simp only
    rw [← List.drop_drop, hrest, List.drop_left]

theorem Span.inBounds {r r' : Reader} {out : Bytes} (h : r.Span out r') (hr : r.InBounds) :
    r'.InBounds := by
  obtain ⟨rfl, rest, hrest⟩ := h
  have hlen := congrArg List.length hrest
  simp only [InBounds, List.length_drop, List.length_append] at hr hlen ⊢
  omega

theorem Span.new (out rest : Bytes) :
    (Reader.new (out ++ rest)).Span out ⟨out ++ rest, out.length⟩ := by
  refine ⟨?_, rest, List.drop_zero⟩
  rw [Reader.new, Nat.zero_add]

/-- A cursor that went over all of the input read nothing else. -/
theorem Span.whole {bytes out : Bytes} {r : Reader} (h : (Reader.new bytes).Span out r)
    (hr : r.remaining = 0) : bytes = out := by
  obtain ⟨rfl, rest, hrest⟩ := h
  simp only [Reader.new, List.drop_zero, remaining, Nat.zero_add] at hrest hr
  have hlen := congrArg List.length hrest
  rw [List.length_append] at hlen
  have hnil : rest = [] := List.eq_nil_of_length_eq_zero (by omega)
  rw [hrest, hnil, List.append_nil]

/-- `r'` is a later cursor of the same input, still inside it. -/
structure Advance (r r' : Reader) : Prop where
  bytes_eq : r'.bytes = r.bytes
  forward : r.position ≤ r'.position
  inside : r'.InBounds

theorem Advance.refl {r : Reader} (hr : r.InBounds) : r.Advance r := ⟨rfl, le_rfl, hr⟩

theorem Advance.trans {r r₁ r₂ : Reader} (h : r.Advance r₁) (h' : r₁.Advance r₂) :
    r.Advance r₂ :=
  ⟨h'.bytes_eq.trans h.bytes_eq, h.forward.trans h'.forward, h'.inside⟩

end Reader

def Decoder (ε α : Type) := Reader → Except ε α × Reader

namespace Decoder
variable {ε α β : Type}

instance : Monad (Decoder ε) where
  pure a := fun r => (.ok a, r)
  bind d f := fun r =>
    match d r with
    | (.ok a, r') => f a r'
    | (.error e, r') => (.error e, r')

def fail (e : ε) : Decoder ε α := fun r => (.error e, r)

/-- The next `len` bytes, or an error that leaves the cursor where it was. -/
def take (e : ε) (len : ℕ) : Decoder ε Bytes := fun r =>
  if r.position+len ≤ r.bytes.length then
    (.ok ((r.bytes.drop r.position).take len), { r with position := r.position+len })
  else (.error e, r)

/-- The next `n` bytes as an array. -/
def takeArray (e : ε) (n : ℕ) : Decoder ε (FixedBytes n) := do
  let bytes ← take e n
  if h : bytes.length = n then pure ⟨bytes, h⟩ else fail e

theorem pure_apply (a : α) (r : Reader) : (pure a : Decoder ε α) r = (.ok a, r) := rfl

theorem bind_apply (d : Decoder ε α) (f : α → Decoder ε β) (r : Reader) :
    (d >>= f) r = match d r with
      | (.ok a, r') => f a r'
      | (.error e, r') => (.error e, r') := rfl

theorem bind_ok {d : Decoder ε α} {f : α → Decoder ε β} {r r₂ : Reader} {b : β}
    (h : (d >>= f) r = (.ok b, r₂)) : ∃ a r₁, d r = (.ok a, r₁) ∧ f a r₁ = (.ok b, r₂) := by
  rw [bind_apply] at h
  split at h
  · next a r₁ hd => exact ⟨a, r₁, hd, h⟩
  · cases h

end Decoder

/-- The decoder recognises the format that writes an allowed value `a` as `image a`. -/
structure Recognises {ε α : Type} (d : Decoder ε α) (image : α → Bytes) (allowed : α → Prop) :
    Prop where
  reads : ∀ a r r', allowed a → r.InBounds → r.Span (image a) r' → d r = (.ok a, r')
  sound : ∀ a r r', d r = (.ok a, r') → allowed a ∧ r.Span (image a) r'
  bounded : ∀ r : Reader, r.InBounds → r.Advance (d r).2

namespace Recognises
variable {ε α β : Type}

theorem pure (a : α) : Recognises (pure a : Decoder ε α) (fun _ => []) (· = a) where
  reads b r r' hb hr hs := by
    obtain ⟨rfl, -⟩ := hs
    rw [hb]
    rfl
  sound b r r' h := by
    rw [Decoder.pure_apply] at h
    cases h
    exact ⟨rfl, .nil r⟩
  bounded r hr := .refl hr

theorem fail (e : ε) (image : α → Bytes) :
    Recognises (Decoder.fail e : Decoder ε α) image (fun _ => False) where
  reads a r r' h := h.elim
  sound a r r' h := by cases h
  bounded r hr := .refl hr

theorem congr {d : Decoder ε α} {image image' : α → Bytes} {allowed allowed' : α → Prop}
    (h : Recognises d image allowed) (hallowed : ∀ a, allowed' a ↔ allowed a)
    (himage : ∀ a, allowed a → image' a = image a) : Recognises d image' allowed' where
  reads a r r' ha hr hs := by
    have ha' := (hallowed a).mp ha
    exact h.reads a r r' ha' hr (himage a ha' ▸ hs)
  sound a r r' hd := by
    obtain ⟨ha, hs⟩ := h.sound a r r' hd
    exact ⟨(hallowed a).mpr ha, (himage a ha).symm ▸ hs⟩
  bounded := h.bounded

theorem exactly {a : α} {allowed : α → Prop} (h : ∀ b, allowed b ↔ b = a) :
    Recognises (Pure.pure a : Decoder ε α) (fun _ => []) allowed :=
  (Recognises.pure a).congr h fun _ _ => rfl

theorem never {e : ε} {image : α → Bytes} {allowed : α → Prop} (h : ∀ b, ¬allowed b) :
    Recognises (Decoder.fail e : Decoder ε α) image allowed :=
  (Recognises.fail e image).congr (fun b => iff_of_false (h b) not_false) fun _ _ => rfl

/-- Reading a value that starts with a component and goes on with `rest`. -/
theorem bindPart {d : Decoder ε α} {f : α → Decoder ε β} {imageα : α → Bytes}
    {allowedα : α → Prop} {image : β → Bytes} {allowed : β → Prop} (Part : β → α → Prop)
    (rest : β → Bytes) (hd : Recognises d imageα allowedα)
    (hf : ∀ a, allowedα a → Recognises (f a) rest (fun b => allowed b ∧ Part b a))
    (hpart : ∀ b, allowed b → ∃ a, allowedα a ∧ Part b a)
    (himage : ∀ a b, allowed b → Part b a → image b = imageα a ++ rest b) :
    Recognises (d >>= f) image allowed where
  reads b r r₂ hb hr hs := by
    -- The image begins with the component, so its decoder reads it and stops there.
    obtain ⟨a, ha, hba⟩ := hpart b hb
    rw [himage a b hb hba] at hs
    obtain ⟨r₁, hs₁, hs₂⟩ := hs.split
    rw [Decoder.bind_apply, hd.reads a r r₁ ha hr hs₁]
    exact (hf a ha).reads b r₁ r₂ ⟨hb, hba⟩ (hs₁.inBounds hr) hs₂
  sound b r r₂ h := by
    -- Both decoders succeeded, and the two spans join to the image of the whole.
    obtain ⟨a, r₁, h₁, h₂⟩ := Decoder.bind_ok h
    obtain ⟨ha, hs₁⟩ := hd.sound a r r₁ h₁
    obtain ⟨⟨hb, hba⟩, hs₂⟩ := (hf a ha).sound b r₁ r₂ h₂
    exact ⟨hb, himage a b hb hba ▸ hs₁.append hs₂⟩
  bounded r hr := by
    have hadvance := hd.bounded r hr
    rw [Decoder.bind_apply]
    rcases hdr : d r with ⟨e | a, r₁⟩
    · rw [hdr] at hadvance
      exact hadvance
    · rw [hdr] at hadvance
      obtain ⟨ha, -⟩ := hd.sound a r r₁ hdr
      exact hadvance.trans ((hf a ha).bounded r₁ hadvance.inside)

/-- Reading one component `part b` of a record and then the rest of it. -/
theorem bind {d : Decoder ε α} {f : α → Decoder ε β} {imageα : α → Bytes} {allowedα : α → Prop}
    {rest : β → Bytes} {allowed : β → Prop} (part : β → α) (hd : Recognises d imageα allowedα)
    (hf : ∀ a, allowedα a → Recognises (f a) rest (fun b => allowed b ∧ part b = a))
    (hpart : ∀ b, allowed b → allowedα (part b)) :
    Recognises (d >>= f) (fun b => imageα (part b) ++ rest b) allowed :=
  hd.bindPart (fun b a => part b = a) rest hf (fun b hb => ⟨part b, hpart b hb, rfl⟩)
    fun a b _ hba => by rw [← hba]

/-- Reading the first element of a list and then the rest of it. -/
theorem cons {d : Decoder ε α} {f : α → Decoder ε (List α)} {image : α → Bytes}
    {allowed : α → Prop} {P : α → List α → Prop} (hd : Recognises d image allowed)
    (hf : ∀ a, allowed a → Recognises (f a) (fun l => l.tail.flatMap image)
      (fun l => ∃ rest, l = a :: rest ∧ P a rest)) :
    Recognises (d >>= f) (fun l => l.flatMap image)
      (fun l => ∃ a rest, l = a :: rest ∧ allowed a ∧ P a rest) := by
  refine hd.bindPart (fun l a => l.head? = some a) (fun l => l.tail.flatMap image)
    (fun a ha => (hf a ha).congr (fun l => ?_) fun _ _ => rfl) ?_ ?_
  · constructor
    · rintro ⟨⟨a', rest, rfl, -, hp⟩, hhead⟩
      obtain rfl : a' = a := by simpa using hhead
      exact ⟨rest, rfl, hp⟩
    · rintro ⟨rest, rfl, hp⟩
      exact ⟨⟨a, rest, rfl, ha, hp⟩, rfl⟩
  · rintro l ⟨a, rest, rfl, ha, -⟩
    exact ⟨a, ha, rfl⟩
  · rintro a l ⟨a', rest, rfl, -, -⟩ hhead
    obtain rfl : a' = a := by simpa using hhead
    rfl

/-- A check that does not depend on what is still to be read. -/
theorem guard {d : Decoder ε α} {image : α → Bytes} {allowed : α → Prop} {c : Prop} [Decidable c]
    (e : ε) (h : ¬c → Recognises d image allowed) :
    Recognises (if c then Decoder.fail e else d) image (fun a => allowed a ∧ ¬c) := by
  by_cases hc : c
  · rw [if_pos hc]
    exact (Recognises.fail e image).congr (fun a => by simp [hc]) fun a ha => ha.elim
  · rw [if_neg hc]
    exact (h hc).congr (fun a => by simp [hc]) fun a _ => rfl

theorem take (e : ε) (len : ℕ) :
    Recognises (Decoder.take e len) (fun bytes => bytes) (fun bytes => bytes.length = len) where
  reads bytes r r' hlen hr hs := by
    have hin := hs.inBounds hr
    obtain ⟨rfl, rest, hrest⟩ := hs
    have hle : r.position+len ≤ r.bytes.length := by
      simpa only [Reader.InBounds, hlen] using hin
    subst hlen
    rw [Decoder.take, if_pos hle, hrest, List.take_left]
  sound bytes r r' h := by
    unfold Decoder.take at h
    split at h
    · next hle =>
      cases h
      have hlen : ((r.bytes.drop r.position).take len).length = len := by
        rw [List.length_take, List.length_drop]
        omega
      refine ⟨hlen, by rw [hlen], (r.bytes.drop r.position).drop len, ?_⟩
      rw [List.take_append_drop]
    · cases h
  bounded r hr := by
    unfold Decoder.take
    split
    · next hle => exact ⟨rfl, Nat.le_add_right _ _, hle⟩
    · exact .refl hr

/-- Reading a value through a decoding of its parts that may refuse them. -/
theorem decode {d : Decoder ε α} {f : α → Decoder ε β} {image : α → Bytes} {allowed : α → Prop}
    (part : β → α) {allowedβ : β → Prop} (hd : Recognises d image allowed)
    (hf : ∀ a, allowed a → Recognises (f a) (fun _ => []) (fun b => allowedβ b ∧ part b = a))
    (hpart : ∀ b, allowedβ b → allowed (part b)) :
    Recognises (d >>= f) (fun b => image (part b)) allowedβ :=
  (hd.bind part hf hpart).congr (fun _ => Iff.rfl) fun _ _ => (List.append_nil _).symm

/-- Reading one alternative of a sum of formats. -/
theorem alternative {d : Decoder ε α} {image : α → Bytes} {allowed : α → Prop} {c : α → β}
    {imageβ : β → Bytes} {allowedβ : β → Prop} (hd : Recognises d image allowed)
    (hallowed : ∀ b, allowedβ b ↔ ∃ a, b = c a ∧ allowed a)
    (himage : ∀ a, imageβ (c a) = image a) :
    Recognises (d >>= fun a => Pure.pure (c a)) imageβ allowedβ := by
  refine hd.bindPart (fun b a => b = c a) (fun _ => []) (fun a ha => ?_) (fun b hb => ?_) ?_
  · refine exactly fun b => ⟨fun h => h.2, ?_⟩
    rintro rfl
    exact ⟨(hallowed _).mpr ⟨a, rfl, ha⟩, rfl⟩
  · obtain ⟨a, rfl, ha⟩ := (hallowed b).mp hb
    exact ⟨a, ha, rfl⟩
  · rintro a b - rfl
    rw [himage, List.append_nil]

/-- Reading one of several values that are told apart by their codes. -/
theorem coded {d : Decoder ε α} {image : α → Bytes} {code : β → α} {f : α → Decoder ε β} {e : ε}
    (hd : Recognises d image (fun _ => True)) (hcode : ∀ b, f (code b) = Pure.pure b)
    (hother : ∀ a, (∀ b, a ≠ code b) → f a = Decoder.fail e) :
    Recognises (d >>= f) (fun b => image (code b)) (fun _ => True) := by
  refine hd.decode code (fun a _ => ?_) fun _ _ => trivial
  by_cases ha : ∃ b, a = code b
  · obtain ⟨b, rfl⟩ := ha
    rw [hcode]
    refine exactly fun c => ⟨fun hc => ?_, fun hc => ⟨trivial, congrArg code hc⟩⟩
    -- Two values with one code would be read as each other.
    have hpure : (Pure.pure c : Decoder ε β) = Pure.pure b := by rw [← hcode, ← hcode, hc.2]
    have hok := congrFun hpure (Reader.new [])
    simpa only [Decoder.pure_apply, Prod.mk.injEq, Except.ok.injEq, and_true] using hok
  · rw [hother a (not_exists.mp ha)]
    exact never fun c hc => ha ⟨c, hc.2.symm⟩

theorem takeArray (e : ε) (n : ℕ) :
    Recognises (Decoder.takeArray e n) FixedBytes.bytes (fun _ => True) := by
  refine (take e n).decode FixedBytes.bytes (fun bytes hlen => ?_) fun array _ => array.size_eq
  rw [dif_pos hlen]
  refine (Recognises.pure (⟨bytes, hlen⟩ : FixedBytes n)).congr (fun array => ?_) fun _ _ => rfl
  exact ⟨fun h => FixedBytes.ext_bytes h.2, fun h => ⟨trivial, congrArg FixedBytes.bytes h⟩⟩

/-- A big-endian integer of `n` bytes, for any type that such integers fill. -/
theorem bigEndian {e : ε} {n : ℕ} {ofNat : ℕ → α} {toNat : α → ℕ}
    (hlt : ∀ a, toNat a < 256^n) (hto : ∀ a, ofNat (toNat a) = a)
    (hof : ∀ x, x < 256^n → toNat (ofNat x) = x) :
    Recognises (Decoder.takeArray e n >>= fun array => Pure.pure (ofNat (ofBeBytes array.bytes)))
      (fun a => beBytes n (toNat a)) (fun _ => True) := by
  refine (takeArray e n).decode (fun a => ⟨beBytes n (toNat a), length_beBytes _ _⟩)
    (fun array _ => ?_) fun _ _ => trivial
  refine exactly fun a => ?_
  rw [@eq_comm _ a, ofNat_ofBeBytes_eq_iff hlt hto hof array.size_eq]
  exact ⟨fun h => congrArg FixedBytes.bytes h.2, fun h => ⟨trivial, FixedBytes.ext_bytes h⟩⟩

end Recognises

/-- Appends to the bytes written so far, or fails and drops them. -/
abbrev Encoder (ε α : Type) := StateT Bytes (Except ε) α

namespace Encoder
variable {ε : Type}

def push (out : Bytes) : Encoder ε Unit := fun bytes => .ok ((), bytes ++ out)

def fail (e : ε) : Encoder ε Unit := fun _ => .error e

/-- The writer appends `out` when `p` holds and fails when it does not. -/
def Emits (w : Encoder ε Unit) (p : Prop) (out : Bytes) : Prop :=
  ∀ bytes, (p → w bytes = .ok ((), bytes ++ out)) ∧ (¬p → ∃ e, w bytes = .error e)

theorem Emits.push (out : Bytes) : Emits (push out : Encoder ε Unit) True out :=
  fun _ => ⟨fun _ => rfl, fun h => absurd trivial h⟩

theorem Emits.fail (e : ε) (out : Bytes) : Emits (fail e : Encoder ε Unit) False out :=
  fun _ => ⟨False.elim, fun _ => ⟨e, rfl⟩⟩

theorem Emits.nil : Emits (pure () : Encoder ε Unit) True [] :=
  fun bytes => ⟨fun _ => by rw [List.append_nil]; rfl, fun h => absurd trivial h⟩

theorem Emits.congr {w : Encoder ε Unit} {p p' : Prop} {out out' : Bytes} (h : Emits w p out)
    (hp : p' ↔ p) (hout : p → out' = out) : Emits w p' out' := by
  intro bytes
  obtain ⟨h₁, h₂⟩ := h bytes
  refine ⟨fun hp' => ?_, fun hp' => h₂ (mt hp.mpr hp')⟩
  rw [hout (hp.mp hp')]
  exact h₁ (hp.mp hp')

theorem Emits.seq {w w' : Encoder ε Unit} {p p' : Prop} {out out' : Bytes} (h : Emits w p out)
    (h' : Emits w' p' out') : Emits (do w; w') (p ∧ p') (out ++ out') := by
  intro bytes
  -- A failing first writer hides the second; its error is the error of the whole.
  have hbind : (do w; w' : Encoder ε Unit) bytes = (w bytes).bind fun x => w' x.2 := rfl
  rw [hbind]
  by_cases hp : p
  · rw [(h bytes).1 hp]
    refine ⟨fun hpp => ?_, fun hpp => (h' _).2 fun hp' => hpp ⟨hp, hp'⟩⟩
    rw [← List.append_assoc]
    exact (h' _).1 hpp.2
  · obtain ⟨e, he⟩ := (h bytes).2 hp
    rw [he]
    exact ⟨fun hpp => absurd hpp.1 hp, fun _ => ⟨e, rfl⟩⟩

theorem Emits.guard {w : Encoder ε Unit} {p c : Prop} [Decidable c] {out : Bytes} (e : ε)
    (h : Emits w p out) : Emits (if c then Encoder.fail e else w) (¬c ∧ p) out := by
  by_cases hc : c
  · rw [if_pos hc]
    exact (Emits.fail e out).congr (by simp [hc]) False.elim
  · rw [if_neg hc]
    exact h.congr (by simp [hc]) fun _ => rfl

end Encoder

end WireCodec
