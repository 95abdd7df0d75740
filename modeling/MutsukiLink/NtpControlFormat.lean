import MutsukiLink.ControlFormat
import MutsukiLink.NtpControlModel

/-! The format of the control messages of the tracking binding: the image of each part with the
values that it allows, for any limit on the number of signals. -/
namespace MutsukiLink.Ntp
open WireBytes WireCodec

section Images
variable {T : TrackingTypes}

def sizedImage (bytes : Bytes) : Bytes := beBytes 4 bytes.length ++ bytes

/-- The bytes of a descriptor, if it has any. -/
def descriptorBytes (descriptor : T.Descriptor) : Bytes :=
  (T.encodeDescriptor descriptor).toOption.getD []

def DescriptorAllowed (descriptor : T.Descriptor) : Prop :=
  T.encodeDescriptor descriptor = .ok (descriptorBytes descriptor) ∧
    (descriptorBytes descriptor).length < 2^32

def signalsImage (signals : List T.SignalId) : Bytes :=
  signals.flatMap fun signal => beBytes 2 (T.signalCode signal).toNat

def layoutImage (layout : LayoutProposal T.Revisions T.SignalId) : Bytes :=
  [layout.profile.code] ++ (beBytes 2 layout.baseLayoutVersion.toNat ++
    ([layout.valueEncoding.code] ++ ([layout.qualityEncoding.code] ++
      (beBytes 2 layout.targetFps.toNat ++ (beBytes 2 layout.extraSignals.length ++
        signalsImage layout.extraSignals)))))

def LayoutAllowed (maxSignals : ℕ) (layout : LayoutProposal T.Revisions T.SignalId) : Prop :=
  layout.extraSignals.length < 2^16 ∧ layout.extraSignals.length ≤ maxSignals

def topologyImage (topology : GeometryTopology) : Bytes :=
  beBytes 4 topology.schemaRevision.toNat ++ (topology.topologyHash.bytes ++
    beBytes 4 topology.landmarkCount.toNat)

def proposalImage (proposal : SessionProposal T) : Bytes :=
  proposal.sessionId.bytes ++ (beBytes 4 proposal.generation.toNat ++
    (beBytes 4 proposal.layoutId.toNat ++ (sizedImage (descriptorBytes proposal.descriptor) ++
      (layoutImage proposal.layout ++ topologyImage proposal.topology))))

structure ProposalAllowed (maxSignals : ℕ) (proposal : SessionProposal T) : Prop where
  descriptor : DescriptorAllowed proposal.descriptor
  layout : LayoutAllowed maxSignals proposal.layout

def helloImage (hello : ProtocolHello) : Bytes :=
  beBytes 2 hello.minimumVersion.toNat ++ (beBytes 2 hello.maximumVersion.toNat ++
    hello.linkSessionId.bytes)

def layoutAcceptImage (accept : LayoutAccept) : Bytes :=
  beBytes 4 accept.layoutId.toNat ++ (accept.layoutHash.bytes ++
    (beBytes 2 accept.parameterCount.toNat ++ beBytes 4 accept.expectedPayloadLen.toNat))

def layoutConfirmImage (confirm : LayoutConfirm) : Bytes :=
  beBytes 4 confirm.layoutId.toNat ++ confirm.layoutHash.bytes

def sessionReadyImage (ready : NtpSessionId × UInt32 × UInt32) : Bytes :=
  ready.1.bytes ++ (beBytes 4 ready.2.1.toNat ++ beBytes 4 ready.2.2.toNat)

def reportImage (report : ReceiverReport) : Bytes :=
  beBytes 8 report.received.toNat ++ (beBytes 8 report.dropped.toNat ++
    (beBytes 8 report.stale.toNat ++ (beBytes 8 report.jitterNs.toNat ++
      (beBytes 8 report.resultAgeNs.toNat ++ beBytes 8 report.clockUncertaintyNs.toNat))))

def pongImage (pong : UInt64 × UInt64) : Bytes := beBytes 8 pong.1.toNat ++ beBytes 8 pong.2.toNat

def reasonImage (reason : UInt16 × String) : Bytes :=
  beBytes 2 reason.1.toNat ++ stringImage reason.2

def ReasonAllowed (reason : String) : Prop := (utf8 reason).length ≤ maxReasonBytes

def messageImage : ControlMessage T → Bytes
  | .hello hello => helloImage hello
  | .sessionProposal proposal => proposalImage proposal
  | .layoutAccepted accept => layoutAcceptImage accept
  | .layoutConfirmed confirm => layoutConfirmImage confirm
  | .sessionReady sessionId generation layoutId =>
    sessionReadyImage (sessionId, generation, layoutId)
  | .command command => [command.code]
  | .receiverReport report => reportImage report
  | .ping receiverSendNs => beBytes 8 receiverSendNs.toNat
  | .pong receiverSendNs producerSendNs => pongImage (receiverSendNs, producerSendNs)
  | .geometryRequest => []
  | .error code reason => reasonImage (code, reason)
  | .close code reason => reasonImage (code, reason)

/-- What the writer accepts, up to the limit on signals that only the reader knows. -/
def MessageAllowed (maxSignals : ℕ) : ControlMessage T → Prop
  | .sessionProposal proposal => ProposalAllowed maxSignals proposal
  | .error _ reason => ReasonAllowed reason
  | .close _ reason => ReasonAllowed reason
  | _ => True

/-- A proposal as it is read: its layout has the revisions of its descriptor. -/
def SessionProposal.received (proposal : SessionProposal T) : SessionProposal T :=
  { proposal with layout := { proposal.layout with
      revisions := T.revisions proposal.descriptor } }

def ControlMessage.received : ControlMessage T → ControlMessage T
  | .sessionProposal proposal => .sessionProposal proposal.received
  | message => message

end Images

namespace Reader
variable {ε : Type} {T : TrackingTypes}

theorem u8_recognises : Recognises (u8 : Reader ε UInt8) (fun v => [v]) (fun _ => True) := by
  have h : Recognises (u8 : Reader ε UInt8) (fun v => beBytes 1 v.toNat) (fun _ => True) :=
    .bigEndian (fun v => v.toNat_lt) (fun _ => UInt8.ofNat_toNat)
      (fun _ hx => UInt8.toNat_ofNat_of_lt hx)
  refine h.congr (fun _ => Iff.rfl) fun v _ => ?_
  have hv : v.toNat%256 = v.toNat := Nat.mod_eq_of_lt v.toNat_lt
  simp [beBytes, hv]

theorem u16_recognises :
    Recognises (u16 : Reader ε UInt16) (fun v => beBytes 2 v.toNat) (fun _ => True) :=
  .bigEndian (fun v => v.toNat_lt) (fun _ => UInt16.ofNat_toNat)
    (fun _ hx => UInt16.toNat_ofNat_of_lt hx)

theorem u32_recognises :
    Recognises (u32 : Reader ε UInt32) (fun v => beBytes 4 v.toNat) (fun _ => True) :=
  .bigEndian (fun v => v.toNat_lt) (fun _ => UInt32.ofNat_toNat)
    (fun _ hx => UInt32.toNat_ofNat_of_lt hx)

theorem u64_recognises :
    Recognises (u64 : Reader ε UInt64) (fun v => beBytes 8 v.toNat) (fun _ => True) :=
  .bigEndian (fun v => v.toNat_lt) (fun _ => UInt64.ofNat_toNat)
    (fun _ hx => UInt64.toNat_ofNat_of_lt hx)

theorem array_recognises (n : ℕ) :
    Recognises (array n : Reader ε (FixedBytes n)) FixedBytes.bytes (fun _ => True) :=
  .takeArray _ n

/-- A byte that names one of several values. -/
theorem byte_recognises {α : Type} {code : α → UInt8} {f : UInt8 → Reader ε α}
    (hcode : ∀ a, f (code a) = pure a)
    (hother : ∀ v, (∀ a, v ≠ code a) → f v = Decoder.fail .invalidControl) :
    Recognises (u8 >>= f) (fun a => [code a]) (fun _ => True) :=
  u8_recognises.coded hcode hother

theorem profile_recognises :
    Recognises (profile : Reader ε TrackingProfile) (fun p => [p.code]) (fun _ => True) := by
  refine byte_recognises (fun p => by cases p <;> rfl) fun v h => ?_
  exact (if_neg (h .partialRig)).trans <| (if_neg (h .basic)).trans <|
    (if_neg (h .spatial)).trans <| if_neg (h .full)

theorem valueEncoding_recognises :
    Recognises (valueEncoding : Reader ε ValueEncoding) (fun e => [e.code]) (fun _ => True) := by
  refine byte_recognises (fun e => by cases e; rfl) fun v h => ?_
  exact if_neg (h .i16Normalized)

theorem qualityEncoding_recognises :
    Recognises (qualityEncoding : Reader ε QualityEncoding) (fun e => [e.code])
      (fun _ => True) := by
  refine byte_recognises (fun e => by cases e <;> rfl) fun v h => ?_
  exact (if_neg (h .none)).trans <| if_neg (h .stateAndConfidenceU8)

theorem command_recognises :
    Recognises (command : Reader ε SessionCommand) (fun c => [c.code]) (fun _ => True) := by
  refine byte_recognises (fun c => by cases c <;> rfl) fun v h => ?_
  exact (if_neg (h .start)).trans <| (if_neg (h .stop)).trans <| (if_neg (h .pause)).trans <|
    if_neg (h .resume)

theorem sizedBytes_recognises :
    Recognises (sizedBytes : Reader ε Bytes) sizedImage (fun bytes => bytes.length < 2^32) := by
  have hto {bytes : Bytes} (h : bytes.length < 2^32) :
      (UInt32.ofNat bytes.length).toNat = bytes.length := UInt32.toNat_ofNat_of_lt h
  refine (u32_recognises.bind (fun bytes => UInt32.ofNat bytes.length) (fun length _ => ?_)
    fun _ _ => trivial).congr (fun _ => Iff.rfl) fun bytes h => by rw [sizedImage, hto h]
  refine (Recognises.take _ length.toNat).congr (fun bytes => ⟨?_, ?_⟩) fun _ _ => rfl
  · rintro ⟨h, rfl⟩
    exact (hto h).symm
  · intro h
    refine ⟨h ▸ length.toNat_lt, ?_⟩
    rw [h, UInt32.ofNat_toNat]

/-- The part of `string` behind the length. -/
def text (length : UInt16) : Reader ε String := do
  let value ← take length.toNat
  match String.fromUTF8? ⟨value.toArray⟩ with
  | none => Decoder.fail .invalidControl
  | some value => pure value

theorem text_recognises (length : UInt16) : Recognises (text length : Reader ε String) utf8
    (fun reason => (utf8 reason).length = length.toNat) := by
  refine (Recognises.take _ length.toNat).decode utf8 (fun value hvalue => ?_) fun _ h => h
  cases hdecode : String.fromUTF8? ⟨value.toArray⟩ with
  | none =>
    refine .never fun reason h => ?_
    rw [← h.2, fromUTF8?_utf8] at hdecode
    cases hdecode
  | some text =>
    have htext := utf8_of_fromUTF8? hdecode
    refine .exactly fun reason => ⟨fun h => ?_, fun h => ?_⟩
    · rw [← h.2, fromUTF8?_utf8] at hdecode
      exact Option.some.inj hdecode
    · rw [h, htext]
      exact ⟨hvalue, rfl⟩

theorem string_recognises :
    Recognises (string : Reader ε String) stringImage ReasonAllowed := by
  have hto {reason : String} (h : ReasonAllowed reason) :
      (UInt16.ofNat (utf8 reason).length).toNat = (utf8 reason).length :=
    UInt16.toNat_ofNat_of_lt (lt_of_le_of_lt h (by decide))
  refine (u16_recognises.bind (fun reason => UInt16.ofNat (utf8 reason).length) (fun length _ => ?_)
    fun _ _ => trivial).congr (fun _ => Iff.rfl) fun reason h => by
      rw [stringImage, hto h]
  refine (Recognises.guard _ fun _ => text_recognises length).congr (fun reason => ⟨?_, ?_⟩)
    fun _ _ => rfl
  · intro h
    rw [← h.2, hto h.1]
    exact ⟨rfl, not_lt.mpr h.1⟩
  · intro h
    refine ⟨(le_of_eq h.1).trans (not_lt.mp h.2), ?_⟩
    rw [h.1, UInt16.ofNat_toNat]

/-- One round of the loop of `signals`. -/
def signal : Reader T.Error T.SignalId := do
  let code ← u16
  match T.newSignal code with
  | none => Decoder.fail .invalidControl
  | some signal => pure signal

theorem signal_recognises (laws : T.CodecLaws) : Recognises (signal : Reader T.Error T.SignalId)
    (fun signal => beBytes 2 (T.signalCode signal).toNat) (fun _ => True) := by
  refine u16_recognises.coded (e := .invalidControl) (fun signal => by rw [laws.new_signal])
    fun code h => ?_
  cases hnew : T.newSignal code with
  | none => rfl
  | some signal => exact absurd (laws.signal_code code signal hnew).symm (h signal)

theorem signals_succ (n : ℕ) : (signals (n+1) : Reader T.Error (List T.SignalId)) = (do
    let first ← signal
    let rest ← signals n
    pure (first :: rest)) := by
  funext r
  simp only [signals, signal, Decoder.bind_apply]
  rcases u16 r with ⟨e | code, r'⟩
  · rfl
  · cases hnew : T.newSignal code <;> simp only [hnew] <;> rfl

theorem signals_recognises (laws : T.CodecLaws) (n : ℕ) :
    Recognises (signals n : Reader T.Error (List T.SignalId)) signalsImage
      (fun l => l.length = n) := by
  induction n with
  | zero =>
    exact (Recognises.pure _).congr (fun l => by simp) fun l hl => by rw [hl]; rfl
  | succ n ih =>
    rw [signals_succ]
    refine ((signal_recognises laws).cons (P := fun _ rest => rest.length = n)
      fun signal _ => ?_).congr (fun l => ?_) fun _ _ => rfl
    · refine ih.decode List.tail (fun rest hrest => ?_) ?_
      · refine .exactly fun l => ?_
        grind
      · rintro l ⟨rest, rfl, hrest⟩
        exact hrest
    · cases l <;> simp

theorem topology_recognises :
    Recognises (topology : Reader ε GeometryTopology) topologyImage (fun _ => True) := by
  refine u32_recognises.bind GeometryTopology.schemaRevision (fun revision _ => ?_)
    fun _ _ => trivial
  refine (array_recognises 32).bind GeometryTopology.topologyHash (fun hash _ => ?_)
    fun _ _ => trivial
  refine u32_recognises.decode GeometryTopology.landmarkCount (fun count _ => ?_)
    fun _ _ => trivial
  refine .exactly fun t => ?_
  cases t
  simp [and_assoc]

theorem layout_recognises (laws : T.CodecLaws) (maxSignals : ℕ) (revisions : T.Revisions) :
    Recognises (layout maxSignals revisions : Reader T.Error _) layoutImage
      (fun layout => LayoutAllowed maxSignals layout ∧ layout.revisions = revisions) := by
  let Layout := LayoutProposal T.Revisions T.SignalId
  have hto {layout : Layout} (h : LayoutAllowed maxSignals layout) :
      (UInt16.ofNat layout.extraSignals.length).toNat = layout.extraSignals.length :=
    UInt16.toNat_ofNat_of_lt h.1
  refine profile_recognises.bind (fun l : Layout => l.profile) (fun profile _ => ?_)
    fun _ _ => trivial
  refine u16_recognises.bind (fun l : Layout => l.baseLayoutVersion) (fun version _ => ?_)
    fun _ _ => trivial
  refine valueEncoding_recognises.bind (fun l : Layout => l.valueEncoding) (fun value _ => ?_)
    fun _ _ => trivial
  refine qualityEncoding_recognises.bind (fun l : Layout => l.qualityEncoding)
    (fun quality _ => ?_) fun _ _ => trivial
  refine u16_recognises.bind (fun l : Layout => l.targetFps) (fun targetFps _ => ?_)
    fun _ _ => trivial
  refine (u16_recognises.bind (fun l : Layout => UInt16.ofNat l.extraSignals.length)
    (fun count _ => ?_) fun _ _ => trivial).congr (fun _ => Iff.rfl) fun l h => by
      rw [hto h.1.1.1.1.1.1]
  -- The count is checked before the signals are read.
  have hsignals : Recognises (do
      let extraSignals ← signals count.toNat
      pure ⟨revisions, profile, version, extraSignals, value, quality, targetFps⟩ :
        Reader T.Error Layout) (fun l => signalsImage l.extraSignals) (fun l =>
          l.extraSignals.length = count.toNat ∧ l = ⟨revisions, profile, version, l.extraSignals,
            value, quality, targetFps⟩) := by
    refine (signals_recognises laws count.toNat).decode (fun l : Layout => l.extraSignals)
      (fun extraSignals hlength => ?_) fun l h => h.1
    refine .exactly fun l => ⟨?_, ?_⟩
    · rintro ⟨⟨-, hl⟩, rfl⟩
      exact hl
    · rintro rfl
      exact ⟨⟨hlength, rfl⟩, rfl⟩
  refine (Recognises.guard _ fun _ => hsignals).congr (fun l => ⟨?_, ?_⟩) fun _ _ => rfl
  · rintro ⟨⟨⟨⟨⟨⟨⟨hallowed, rfl⟩, rfl⟩, rfl⟩, rfl⟩, rfl⟩, rfl⟩, rfl⟩
    rw [hto hallowed]
    exact ⟨⟨rfl, rfl⟩, not_lt.mpr hallowed.2⟩
  · rintro ⟨⟨hlength, hl⟩, hmax⟩
    have hallowed : LayoutAllowed maxSignals l :=
      ⟨hlength ▸ count.toNat_lt, hlength ▸ not_lt.mp hmax⟩
    have hcount : UInt16.ofNat l.extraSignals.length = count := by
      rw [hlength, UInt16.ofNat_toNat]
    rw [hl] at hallowed hcount ⊢
    exact ⟨⟨⟨⟨⟨⟨⟨hallowed, rfl⟩, rfl⟩, rfl⟩, rfl⟩, rfl⟩, rfl⟩, hcount⟩

theorem descriptor_recognises (laws : T.CodecLaws) :
    Recognises (descriptor : Reader T.Error T.Descriptor)
      (fun d => sizedImage (descriptorBytes d)) DescriptorAllowed := by
  refine sizedBytes_recognises.decode descriptorBytes (fun encoded hlength => ?_)
    fun d hd => hd.2
  cases hdecode : T.decodeDescriptor encoded with
  | error e =>
    refine .never fun d h => ?_
    obtain ⟨⟨hencode, -⟩, rfl⟩ := h
    rw [laws.decode_descriptor d _ hencode] at hdecode
    cases hdecode
  | ok read =>
    have hencode := laws.encode_descriptor encoded read hdecode
    have hbytes : descriptorBytes read = encoded := by
      rw [descriptorBytes, hencode]
      rfl
    refine .exactly fun d => ⟨?_, ?_⟩
    · rintro ⟨⟨hd, -⟩, rfl⟩
      rw [laws.decode_descriptor d _ hd] at hdecode
      exact Except.ok.inj hdecode
    · rintro rfl
      rw [DescriptorAllowed, hbytes]
      exact ⟨⟨hencode, hlength⟩, rfl⟩

theorem proposal_recognises (laws : T.CodecLaws) (maxSignals : ℕ) :
    Recognises (proposal maxSignals : Reader T.Error (SessionProposal T)) proposalImage
      (fun p => ProposalAllowed maxSignals p ∧ p.received = p) := by
  refine (array_recognises 16).bind SessionProposal.sessionId (fun sessionId _ => ?_)
    fun _ _ => trivial
  refine u32_recognises.bind (fun p : SessionProposal T => p.generation) (fun generation _ => ?_)
    fun _ _ => trivial
  refine u32_recognises.bind (fun p : SessionProposal T => p.layoutId) (fun layoutId _ => ?_)
    fun _ _ => trivial
  refine (descriptor_recognises laws).bind (fun p : SessionProposal T => p.descriptor)
    (fun descriptor hd => ?_) fun p hp => hp.1.1.1.1.descriptor
  refine (layout_recognises laws maxSignals _).bind (fun p : SessionProposal T => p.layout)
    (fun layout hl => ?_) fun p hp => ?_
  · refine topology_recognises.decode (fun p : SessionProposal T => p.topology)
      (fun topology _ => ?_) fun _ _ => trivial
    refine .exactly fun p => ⟨?_, ?_⟩
    · rintro ⟨⟨⟨⟨⟨⟨-, rfl⟩, rfl⟩, rfl⟩, rfl⟩, rfl⟩, rfl⟩
      rfl
    · rintro rfl
      refine ⟨⟨⟨⟨⟨⟨⟨⟨hd, hl.1⟩, ?_⟩, rfl⟩, rfl⟩, rfl⟩, rfl⟩, rfl⟩, rfl⟩
      simp only [SessionProposal.received, ← hl.2]
  · obtain ⟨⟨⟨⟨⟨hallowed, hreceived⟩, -⟩, -⟩, -⟩, rfl⟩ := hp
    refine ⟨hallowed.layout, ?_⟩
    rw [← hreceived]
    rfl

theorem hello_recognises :
    Recognises (hello : Reader ε ProtocolHello) helloImage (fun _ => True) := by
  refine u16_recognises.bind ProtocolHello.minimumVersion (fun minimum _ => ?_) fun _ _ => trivial
  refine u16_recognises.bind ProtocolHello.maximumVersion (fun maximum _ => ?_) fun _ _ => trivial
  refine (array_recognises 16).decode (fun h : ProtocolHello => h.linkSessionId.toFixedBytes)
    (fun array _ => ?_) fun _ _ => trivial
  refine .exactly fun h => ⟨?_, ?_⟩
  · rintro ⟨⟨⟨-, rfl⟩, rfl⟩, rfl⟩
    rfl
  · rintro rfl
    exact ⟨⟨⟨trivial, rfl⟩, rfl⟩, rfl⟩

theorem layoutConfirm_recognises :
    Recognises (layoutConfirm : Reader ε LayoutConfirm) layoutConfirmImage (fun _ => True) := by
  refine u32_recognises.bind LayoutConfirm.layoutId (fun layoutId _ => ?_) fun _ _ => trivial
  refine (array_recognises 32).decode LayoutConfirm.layoutHash (fun hash _ => ?_)
    fun _ _ => trivial
  refine .exactly fun c => ?_
  cases c
  simp

theorem layoutAccept_recognises :
    Recognises (layoutAccept : Reader ε LayoutAccept) layoutAcceptImage (fun _ => True) := by
  refine u32_recognises.bind LayoutAccept.layoutId (fun layoutId _ => ?_) fun _ _ => trivial
  refine (array_recognises 32).bind LayoutAccept.layoutHash (fun hash _ => ?_) fun _ _ => trivial
  refine u16_recognises.bind LayoutAccept.parameterCount (fun count _ => ?_) fun _ _ => trivial
  refine u32_recognises.decode LayoutAccept.expectedPayloadLen (fun len _ => ?_)
    fun _ _ => trivial
  refine .exactly fun a => ?_
  cases a
  simp [and_assoc]

theorem sessionReady_recognises :
    Recognises (sessionReady : Reader ε (NtpSessionId × UInt32 × UInt32)) sessionReadyImage
      (fun _ => True) := by
  refine (array_recognises 16).bind (fun ready : NtpSessionId × UInt32 × UInt32 => ready.1)
    (fun sessionId _ => ?_) fun _ _ => trivial
  refine u32_recognises.bind (fun ready : NtpSessionId × UInt32 × UInt32 => ready.2.1)
    (fun generation _ => ?_) fun _ _ => trivial
  refine u32_recognises.decode (fun ready : NtpSessionId × UInt32 × UInt32 => ready.2.2)
    (fun layoutId _ => ?_) fun _ _ => trivial
  refine .exactly fun ready => ?_
  rcases ready with ⟨_, _, _⟩
  simp [and_assoc]

theorem report_recognises :
    Recognises (report : Reader ε ReceiverReport) reportImage (fun _ => True) := by
  refine u64_recognises.bind ReceiverReport.received (fun received _ => ?_) fun _ _ => trivial
  refine u64_recognises.bind ReceiverReport.dropped (fun dropped _ => ?_) fun _ _ => trivial
  refine u64_recognises.bind ReceiverReport.stale (fun stale _ => ?_) fun _ _ => trivial
  refine u64_recognises.bind ReceiverReport.jitterNs (fun jitter _ => ?_) fun _ _ => trivial
  refine u64_recognises.bind ReceiverReport.resultAgeNs (fun age _ => ?_) fun _ _ => trivial
  refine u64_recognises.decode ReceiverReport.clockUncertaintyNs (fun uncertainty _ => ?_)
    fun _ _ => trivial
  refine .exactly fun r => ?_
  cases r
  simp [and_assoc]

theorem pong_recognises :
    Recognises (pong : Reader ε (UInt64 × UInt64)) pongImage (fun _ => True) := by
  refine u64_recognises.bind (fun pong : UInt64 × UInt64 => pong.1) (fun receiver _ => ?_)
    fun _ _ => trivial
  refine u64_recognises.decode (fun pong : UInt64 × UInt64 => pong.2) (fun producer _ => ?_)
    fun _ _ => trivial
  refine .exactly fun pong => ?_
  cases pong
  simp

theorem reason_recognises : Recognises (reason : Reader ε (UInt16 × String)) reasonImage
    (fun reason => ReasonAllowed reason.2) := by
  refine u16_recognises.bind (fun reason : UInt16 × String => reason.1) (fun code _ => ?_)
    fun _ _ => trivial
  refine string_recognises.decode (fun reason : UInt16 × String => reason.2) (fun text ht => ?_)
    fun reason hr => hr.1
  refine .exactly fun reason => ⟨?_, ?_⟩
  · rintro ⟨⟨-, rfl⟩, rfl⟩
    rfl
  · rintro rfl
    exact ⟨⟨ht, rfl⟩, rfl⟩

/-- One number is read as its own kind, and the other numbers are left to the other readers. -/
theorem recognises_kind {kind number : UInt8} {p q : Reader T.Error (ControlMessage T)}
    {P : ControlMessage T → Prop}
    (hp : Recognises p messageImage fun m => m.kind = number ∧ P m)
    (hq : kind ≠ number → Recognises q messageImage fun m => m.kind = kind ∧ P m) :
    Recognises (if kind = number then p else q) messageImage fun m => m.kind = kind ∧ P m := by
  by_cases h : kind = number
  · subst h
    rw [if_pos rfl]
    exact hp
  · rw [if_neg h]
    exact hq h

/-- Every kind reads the messages of that kind, and no other number is a kind. -/
theorem message_recognises (laws : T.CodecLaws) (maxSignals : ℕ) (kind : UInt8) :
    Recognises (message maxSignals kind : Reader T.Error (ControlMessage T)) messageImage
      (fun m => m.kind = kind ∧ MessageAllowed maxSignals m ∧ m.received = m) := by
  unfold message
  refine recognises_kind ?_ fun h1 => ?_
  · refine hello_recognises.alternative (fun m => ?_) fun _ => rfl
    cases m <;> simp [ControlMessage.kind, MessageAllowed, ControlMessage.received]
  refine recognises_kind ?_ fun h2 => ?_
  · refine (proposal_recognises laws maxSignals).alternative (fun m => ?_) fun _ => rfl
    cases m <;> simp [ControlMessage.kind, MessageAllowed, ControlMessage.received]
  refine recognises_kind ?_ fun h3 => ?_
  · refine layoutAccept_recognises.alternative (fun m => ?_) fun _ => rfl
    cases m <;> simp [ControlMessage.kind, MessageAllowed, ControlMessage.received]
  refine recognises_kind ?_ fun h4 => ?_
  · refine layoutConfirm_recognises.alternative (fun m => ?_) fun _ => rfl
    cases m <;> simp [ControlMessage.kind, MessageAllowed, ControlMessage.received]
  refine recognises_kind ?_ fun h5 => ?_
  · apply sessionReady_recognises.alternative
    · intro m
      cases m <;> simp [ControlMessage.kind, MessageAllowed, ControlMessage.received]
    · exact fun _ => rfl
  refine recognises_kind ?_ fun h6 => ?_
  · refine command_recognises.alternative (fun m => ?_) fun _ => rfl
    cases m <;> simp [ControlMessage.kind, MessageAllowed, ControlMessage.received]
  refine recognises_kind ?_ fun h7 => ?_
  · refine report_recognises.alternative (fun m => ?_) fun _ => rfl
    cases m <;> simp [ControlMessage.kind, MessageAllowed, ControlMessage.received]
  refine recognises_kind ?_ fun h8 => ?_
  · refine u64_recognises.alternative (fun m => ?_) fun _ => rfl
    cases m <;> simp [ControlMessage.kind, MessageAllowed, ControlMessage.received]
  refine recognises_kind ?_ fun h9 => ?_
  · apply pong_recognises.alternative
    · intro m
      cases m <;> simp [ControlMessage.kind, MessageAllowed, ControlMessage.received]
    · exact fun _ => rfl
  refine recognises_kind ?_ fun h10 => ?_
  · refine (Recognises.pure _).congr (fun m => ?_) fun m hm => by rw [hm]; rfl
    cases m <;> simp [ControlMessage.kind, MessageAllowed, ControlMessage.received]
  refine recognises_kind ?_ fun h11 => ?_
  · apply reason_recognises.alternative
    · intro m
      cases m <;> simp [ControlMessage.kind, MessageAllowed, ControlMessage.received]
    · exact fun _ => rfl
  refine recognises_kind ?_ fun h12 => ?_
  · apply reason_recognises.alternative
    · intro m
      cases m <;> simp [ControlMessage.kind, MessageAllowed, ControlMessage.received]
    · exact fun _ => rfl
  refine .never fun m hm => ?_
  obtain ⟨rfl, -⟩ := hm
  cases m <;> simp_all [ControlMessage.kind]

end Reader

end MutsukiLink.Ntp
