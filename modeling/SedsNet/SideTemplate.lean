import SedsNet.SideFraming

/-! # Header templates of a side

`side_transport.rs` splits a canonical frame into an immutable header template and the fields that
vary from frame to frame, and rebuilds the frame from a retained template and a compact body.

The fields that are cut out are written again in minimal varints.  A frame is `Canonical` when those of
its prelude are minimal and its checksum is right; when a compact reliable header is minimal too, the
two functions are inverse to each other (`template_round_trip`).  The packers produce such frames
(`canonicalFrame_packPacketInnerWithContract`), but other frames are accepted as well
(`padded_frame_changes`). -/

namespace SedsNet

open ByteCursor ByteWords List Cursor

/-! ### Templates -/

/-- `SideHeaderTemplate`; the two slices of the header are kept apart. -/
structure SideHeaderTemplate where
  hash : UInt64
  baseFlags : UInt8
  prefixBytes : Bytes
  between : Bytes
  reliableFlags : Option UInt8
  reliableCompact : Bool
deriving DecidableEq

/-- The template of a frame and its variable fields. -/
structure TemplateExtract where
  template : SideHeaderTemplate
  ty : DataType
  flags : UInt8
  dataSize : UInt64
  timestamp : UInt64
  nonce : UInt16
  reliableSeqAck : Option (UInt32 × UInt32)
  payload : Bytes
deriving DecidableEq

/-- The flags that belong to the template. -/
def templateFlags (flags : UInt8) : UInt8 := flags &&& ~~~(flagCompressedPayload ||| flagPacketNonce)

def templateHash (baseFlags : UInt8) (prefixBytes between : Bytes) (reliableFlags : Option UInt8) :
    UInt64 :=
  let hash := hashBytesU64 0xD1B54A329C7E01F3 [baseFlags]
  let hash := hashBytesU64 hash prefixBytes
  let hash := hashBytesU64 hash between
  match reliableFlags with
  | some relFlags => hashBytesU64 hash [relFlags]
  | none => hash

/-! ### Extraction -/

/-- The fields in front of the source address, with the offset of the data size. -/
structure TemplatePrelude where
  flags : UInt8
  nep : UInt8
  ty : UInt32
  dataSizeOff : ℕ
  dataSize : UInt64
  timestamp : UInt64
  nonce : Option UInt16

/-- A byte of the prelude. -/
def readPreludeByte : ByteReader UInt8 := do
  let bytes ← take (.unpack "short prelude") 1
  return bytes.headD 0

def readTemplatePrelude : ByteReader TemplatePrelude := do
  let flags ← readPreludeByte
  let nep ← readPreludeByte
  let tyV ← readUleb128
  let ty ← ofOption (tryU32 tyV) (.unpack "bad data type")
  let dataSizeOff ← position
  let dataSize ← readUleb128
  let timestamp ← readUleb128
  let nonce ← whenPresent (flags &&& flagPacketNonce ≠ 0) (readUleb16 "packet nonce too large")
  return ⟨flags, nep, ty, dataSizeOff, dataSize, timestamp, nonce⟩

/-- The endpoint section: the bitmap is skipped before the list is looked at. -/
def skipTemplateEndpoints (flags nep : UInt8) : ByteReader Unit := do
  let _bitmap ← take (.unpack "short buffer")
    (if flags &&& flagEndpointBitmapPresent ≠ 0 then epBitmapBytes else 0)
  if flags &&& flagEndpointListPresent ≠ 0 then do
    failIf (flags &&& flagEndpointBitmapPresent ≠ 0) (.unpack "ambiguous endpoint encoding")
    readEndpointListLoop nep.toNat none
  else return ()

/-- The contract section.  A length that overflows the offset is refused by
`reliable_header_span` a few lines further on. -/
def skipTemplateContract (flags : UInt8) : ByteReader Unit :=
  if flags &&& flagWireContract ≠ 0 then do
    let len ← readUleb128
    let _contract ← take (.unpack "short buffer") len.toNat
    return ()
  else return ()

/-- The sections between the prelude and the reliable header: where they start and end. -/
def skipTemplateSections (flags nep : UInt8) : ByteReader (ℕ × ℕ) := do
  let betweenStart ← position
  let _sourceAddress ← readUleb32 "source address too large"
  skipTemplateEndpoints flags nep
  skipTemplateContract flags
  let off ← position
  return (betweenStart, off)

def readTemplateSpans : ByteReader (TemplatePrelude × ℕ × ℕ) := do
  let prelude ← readTemplatePrelude
  let spans ← skipTemplateSections prelude.flags prelude.nep
  return (prelude, spans)

/-- The template and the variable fields cut out of `data` at the given offsets. -/
def cutTemplate (data : Bytes) (p : TemplatePrelude) (betweenStart betweenEnd payloadOff : ℕ)
    (reliable : Option ReliableHeader) : TemplateExtract :=
  let baseFlags := templateFlags p.flags
  let prefixBytes := (data.take p.dataSizeOff).drop 1
  let between := (data.take betweenEnd).drop betweenStart
  let reliableFlags := reliable.map (·.flags)
  { template :=
      { hash := templateHash baseFlags prefixBytes between reliableFlags
        baseFlags, prefixBytes, between, reliableFlags
        reliableCompact := reliable.isSome && decide (p.flags &&& flagCompactReliableHeader ≠ 0) }
    ty := p.ty
    flags := p.flags
    dataSize := p.dataSize
    timestamp := p.timestamp
    nonce := p.nonce.getD 0
    reliableSeqAck := reliable.map fun hdr => (hdr.seq, hdr.ack)
    payload := data.drop payloadOff }

/-- `extract_side_header_template_view`. -/
def extractSideHeaderTemplate (bytes : Bytes) : TelemetryResult TemplateExtract :=
  if bytes.length < crc32Bytes + 4 then .error (.unpack "short buffer")
  else
    let data := bytes.take (bytes.length - crc32Bytes)
    match eval readTemplateSpans (Cursor.start data) with
    | .error e => .error e
    | .ok (p, betweenStart, off) =>
      match reliableHeaderSpan bytes with
      | .error e => .error e
      | .ok none => .ok (cutTemplate data p betweenStart off off none)
      | .ok (some (relOff, relLen, hdr)) =>
        if data.length < relOff + relLen then .error (.unpack "short buffer")
        else .ok (cutTemplate data p betweenStart relOff (relOff + relLen) (some hdr))

/-! ### Reconstruction -/

/-- `SideCompactTimestampMode`. -/
inductive SideCompactTimestampMode where
  | absolute
  | delta
  | omitted
deriving DecidableEq

def missingTimestamp : TelemetryError := .unpack "missing side compact timestamp context"

/-- `u64::checked_add`. -/
def checkedAdd (a b : UInt64) : Option UInt64 :=
  if a.toNat + b.toNat < 2 ^ 64 then some (a + b) else none

def readCompactTimestamp (mode : SideCompactTimestampMode) (timestampBase : Option UInt64) :
    ByteReader UInt64 :=
  match mode with
  | .absolute => readUleb128
  | .delta => do
      let field ← readUleb128
      let base ← ofOption timestampBase missingTimestamp
      ofOption (checkedAdd base field) (.unpack "side compact timestamp delta overflow")
  | .omitted => ofOption timestampBase missingTimestamp

def readCompactSeqAck : ByteReader (UInt32 × UInt32) := do
  let seq ← readUleb32 "side compact reliable seq too large"
  let ack ← readUleb32 "side compact reliable ack too large"
  return (seq, ack)

/-- The variable fields of a compact body. -/
structure CompactFields where
  dataSize : UInt64
  timestamp : UInt64
  nonce : Option UInt64
  seqAck : Option (UInt32 × UInt32)
  payload : Bytes

/-- The bytes not read yet. -/
def restBytes : ByteReader Bytes := fun c => .ok (c.rest, c)

def readCompactFields (template : SideHeaderTemplate) (flags : UInt8)
    (mode : SideCompactTimestampMode) (timestampBase : Option UInt64) : ByteReader CompactFields := do
  let dataSize ← readUleb128
  let timestamp ← readCompactTimestamp mode timestampBase
  let nonce ← whenPresent (flags &&& flagPacketNonce ≠ 0) readUleb128
  let seqAck ← whenPresent (template.reliableFlags.isSome = true) readCompactSeqAck
  let payload ← restBytes
  return ⟨dataSize, timestamp, nonce, seqAck, payload⟩

/-- The reliable header of a rebuilt frame. -/
def rebuildReliable (template : SideHeaderTemplate) (seqAck : Option (UInt32 × UInt32)) :
    TelemetryResult Bytes :=
  match template.reliableFlags, seqAck with
  | none, _ => .ok []
  | some _, none => .error (.unpack "missing side compact reliable")
  | some relFlags, some (seq, ack) =>
    .ok (writeReliableHeaderEncoded ⟨relFlags, seq, ack⟩ template.reliableCompact)

/-- `reconstruct_side_compact_frame`: the frame and its timestamp. -/
def reconstructSideCompactFrame (env : WireEnv) (template : SideHeaderTemplate) (flags : UInt8)
    (body : Bytes) (mode : SideCompactTimestampMode) (timestampBase : Option UInt64) :
    TelemetryResult (Bytes × UInt64) :=
  if body = [] then .error (.unpack "short side compact frame")
  else if templateFlags flags ≠ template.baseFlags then
    .error (.unpack "side compact flags mismatch")
  else
    match eval (readCompactFields template flags mode timestampBase) (Cursor.start body) with
    | .error e => .error e
    | .ok f =>
      match rebuildReliable template f.seqAck with
      | .error e => .error e
      | .ok reliable =>
        .ok (appendCrc32 env (flags :: (template.prefixBytes ++ (writeUleb128 f.dataSize ++
          (writeUleb128 f.timestamp ++ ((match f.nonce with
            | some nonce => writeUleb128 nonce
            | none => []) ++ (template.between ++ (reliable ++ f.payload))))))), f.timestamp)

/-- The body of a compact frame behind the flags and the template id. -/
def TemplateExtract.compactTail (x : TemplateExtract) : Bytes :=
  writeUleb128 x.dataSize ++ (writeUleb128 x.timestamp ++
    ((if x.flags &&& flagPacketNonce ≠ 0 then writeUleb128 x.nonce.toUInt64 else []) ++
    ((match x.reliableSeqAck with
      | some (seq, ack) => writeUleb128 seq.toUInt64 ++ writeUleb128 ack.toUInt64
      | none => []) ++ x.payload)))

/-! ### Canonical frames -/

/-- The prelude of a frame; but for that of the type its varints are minimal. -/
def canonicalPrelude (flags nep : UInt8) (ty : Bytes) (dataSize timestamp : UInt64) (nonce : UInt16)
    (sections : Bytes) : Bytes :=
  flags :: nep :: (ty ++ (writeUleb128 dataSize ++ (writeUleb128 timestamp ++
    ((if flags &&& flagPacketNonce ≠ 0 then writeUleb128 nonce.toUInt64 else []) ++ sections))))

/-- A frame with such a prelude, any sections, and the right checksum. -/
def Canonical (env : WireEnv) (raw : Bytes) : Prop :=
  ∃ flags nep ty id dataSize timestamp nonce sections, Reads readUleb128 ty id ∧
    raw = appendCrc32 env (canonicalPrelude flags nep ty dataSize timestamp nonce sections)

/-- The reliable header of the frame, if there is one in the compact form, is also minimal. -/
def CanonicalFrame (env : WireEnv) (raw : Bytes) : Prop :=
  Canonical env raw ∧ ∀ off len hdr, reliableHeaderSpan raw = .ok (some (off, len, hdr)) →
    raw.headD 0 &&& flagCompactReliableHeader ≠ 0 → (raw.drop off).take len = writeReliableHeaderEncoded hdr true

variable {env : WireEnv} {raw : Bytes}

section Packed

variable {pkt : Packet} {reliable : Option ReliableHeader} {shape : Option MessageElement} {targets : List UInt64}
  {compressionAllowed : Bool}
  (h : packPacketInnerWithContract env pkt reliable shape targets none compressionAllowed = .ok raw)
include h

theorem nep_of_packed : (uniqueSortedEndpoints pkt.endpoints).length ≤ 255 := by
  by_contra hnep
  simp only [packPacketInnerWithContract, withPacketFrameParts, Nat.not_le.mp hnep, if_true] at h
  cases h

theorem canonical_packPacketInnerWithContract : Canonical env raw := by
  rw [packPacketInnerWithContract_eq reliable shape targets compressionAllowed (nep_of_packed h)] at h
  cases h
  unfold frameHeader
  simp only
  generalize hflags : frameFlags (payloadForEncoding env pkt compressionAllowed).1 _ _ _ _ _ _ false =
    flags
  have hnonce : flags &&& flagPacketNonce ≠ 0 ↔ pkt.nonce ≠ 0 := by
    rw [← hflags, flag_iff (frameFlags_bits _ _ _ _ _ _ _ _).2.2.1]
    simp
  refine ⟨flags, UInt8.ofNat (uniqueSortedEndpoints pkt.endpoints).length, _, _,
    UInt64.ofNat pkt.dataSize, pkt.timestamp, pkt.nonce, ?_, reads_writeUleb128 pkt.ty.toUInt64, ?_⟩
  rotate_left
  · unfold canonicalPrelude
    simp only [hnonce, cons_append, append_assoc]
    rfl

/-- The packers write a reliable header as it is written again. -/
theorem canonicalFrame_packPacketInnerWithContract (hreg : BitmapRegistered env pkt shape targets)
    (hdata : ∀ h, reliable = some h → h.flags &&& reliableFlagAckOnly = 0) (hfit : 8 * targets.length ≤ isizeMax) :
    CanonicalFrame env raw := by
  refine ⟨canonical_packPacketInnerWithContract h, fun off len hdr hspan hcompact => ?_⟩
  have hnep := nep_of_packed h
  obtain ⟨w, hw⟩ := packed_walk (payloadForEncoding env pkt compressionAllowed).1 hnep hreg hdata hfit
    (payloadForEncoding env pkt compressionAllowed).2
  rw [packPacketInnerWithContract_eq reliable shape targets compressionAllowed hnep] at h
  cases h
  rw [w.reliableHeaderSpan (take_appendCrc32 env _), hw.reliable] at hspan
  have hbit := (flag_iff (frameFlags_bits _ _ _ _ _ _ _ _).2.2.2.2.2.2.1).mp hcompact
  have hrest : drop w.afterContract.off _ = _ := hw.header
  have hend := hw.ends
  cases reliable with
  | none => cases hspan
  | some hdr' =>
    cases hspan
    rw [w.afterContract_buf] at hrest
    have hshould : shouldCompactReliableHeader hdr' = true := hbit
    rw [hend, advance_off, Nat.add_sub_cancel_left, appendCrc32, drop_append, hrest, append_assoc, take_left,
      reliableSection]
    dsimp only
    rw [hshould, writeReliableHeaderEncoded_onWire]

end Packed

/-! ### Reading a canonical frame -/

theorem reads_readPreludeByte (b : UInt8) : Reads readPreludeByte [b] b :=
  (reads_take rfl).bind_nil (Reads.pure b)

variable {flags nep : UInt8} {c : Cursor} {ty sections : Bytes} {id dataSize timestamp : UInt64} {nonce : UInt16}

/-- The nonce as a varint, where the flags announce one. -/
theorem reads_optionalNonce (flags : UInt8) (nonce : UInt16) :
    Reads (whenPresent (flags &&& flagPacketNonce ≠ 0) readUleb128)
      (if flags &&& flagPacketNonce ≠ 0 then writeUleb128 nonce.toUInt64 else [])
      (if flags &&& flagPacketNonce ≠ 0 then some nonce.toUInt64 else none) := by
  by_cases hflag : flags &&& flagPacketNonce ≠ 0
  · rw [if_pos hflag, if_pos hflag]
    exact Reads.whenPresent hflag (reads_writeUleb128 _)
  · rw [if_neg hflag, if_neg hflag]
    exact Reads.whenPresent_not hflag

/-- What the prelude of a canonical frame reads as. -/
theorem readTemplatePrelude_canonical (hty : Reads readUleb128 ty id) {p : TemplatePrelude}
    (h : readTemplatePrelude (start (canonicalPrelude flags nep ty dataSize timestamp nonce sections)) = .ok (p, c)) :
    p.flags = flags ∧ p.nep = nep ∧ p.dataSizeOff = (nep :: ty).length + 1 ∧
      p.dataSize = dataSize ∧ p.timestamp = timestamp ∧
      p.nonce = (if flags &&& flagPacketNonce ≠ 0 then some nonce else none) ∧
      c.buf = canonicalPrelude flags nep ty dataSize timestamp nonce sections ∧ c.rest = sections ∧
      c.off = (canonicalPrelude flags nep ty dataSize timestamp nonce []).length := by
  unfold readTemplatePrelude at h
  rw [bind_of_ok (reads_readPreludeByte flags _ _ rfl),
    bind_of_ok (reads_readPreludeByte nep _ _ rfl)] at h
  set c₂ := ((start (canonicalPrelude flags nep ty dataSize timestamp nonce
    sections)).advance [flags].length).advance [nep].length with hc₂
  have hrest₂ : c₂.rest = ty ++ (writeUleb128 dataSize ++ (writeUleb128 timestamp ++
    ((if flags &&& flagPacketNonce ≠ 0 then writeUleb128 nonce.toUInt64 else []) ++ sections))) := rfl
  rw [bind_of_ok (hty c₂ _ hrest₂)] at h
  have hrest₃ := rest_advance_of_eq hrest₂
  obtain ⟨ty32, -, h⟩ := ofOption_bind_ok h
  rw [position_bind, bind_of_ok (reads_writeUleb128 dataSize _ _ hrest₃)] at h
  have hrest₄ := rest_advance_of_eq hrest₃
  rw [bind_of_ok (reads_writeUleb128 timestamp _ _ hrest₄)] at h
  have hrest₅ := rest_advance_of_eq hrest₄
  have hnonce : Reads (whenPresent (flags &&& flagPacketNonce ≠ 0)
      (readUleb16 "packet nonce too large"))
      (if flags &&& flagPacketNonce ≠ 0 then writeUleb128 nonce.toUInt64 else [])
      (if flags &&& flagPacketNonce ≠ 0 then some nonce else none) := by
    by_cases hflag : flags &&& flagPacketNonce ≠ 0
    · rw [if_pos hflag, if_pos hflag]
      apply Reads.whenPresent hflag
      exact (reads_writeUleb128 nonce.toUInt64).bind_nil (Reads.ofOption (tryU16_toUInt64 nonce))
    · rw [if_neg hflag, if_neg hflag]
      exact Reads.whenPresent_not hflag
  rw [bind_of_ok (hnonce _ _ hrest₅)] at h
  have hrest₆ := rest_advance_of_eq hrest₅
  obtain ⟨rfl, rfl⟩ := pure_ok_inv h
  refine ⟨rfl, rfl, ?_, rfl, rfl, rfl, rfl, hrest₆, ?_⟩
  · simp only [hc₂, advance_off, start_off, length_cons, length_nil]
    omega
  · simp only [hc₂, canonicalPrelude, advance_off, start_off, length_cons, length_append,
      length_nil]
    omega

/-- The reliable header of a canonical frame comes behind the prelude; the fixed form is as it was written. -/
theorem reliableHeaderSpanBody_canonical (hty : Reads readUleb128 ty id) {off len : ℕ} {hdr : ReliableHeader}
    (h : reliableHeaderSpanBody (start (canonicalPrelude flags nep ty dataSize timestamp nonce sections)) =
      .ok (some (off, len, hdr), c)) : (canonicalPrelude flags nep ty dataSize timestamp nonce []).length ≤ off ∧
    (flags &&& flagCompactReliableHeader = 0 →
      ((canonicalPrelude flags nep ty dataSize timestamp nonce sections).drop off).take len =
        writeReliableHeader hdr) := by
  unfold reliableHeaderSpanBody at h
  rw [bind_of_ok (reads_readByte flags _ _ rfl), bind_of_ok (reads_readByte nep _ _ rfl)] at h
  set c₂ := ((start (canonicalPrelude flags nep ty dataSize timestamp nonce
    sections)).advance [flags].length).advance [nep].length with hc₂
  have hrest₂ : c₂.rest = ty ++ (writeUleb128 dataSize ++ (writeUleb128 timestamp ++
    ((if flags &&& flagPacketNonce ≠ 0 then writeUleb128 nonce.toUInt64 else []) ++ sections))) := rfl
  have hrest₃ := rest_advance_of_eq hrest₂
  have hrest₄ := rest_advance_of_eq hrest₃
  have hrest₅ := rest_advance_of_eq hrest₄
  rw [bind_of_ok (hty c₂ _ hrest₂), bind_of_ok (reads_writeUleb128 dataSize _ _ hrest₃),
    bind_of_ok (reads_writeUleb128 timestamp _ _ hrest₄), bind_of_ok (reads_optionalNonce flags nonce _ _ hrest₅)] at h
  obtain ⟨source, c₇, h₇, h⟩ := bind_ok h
  rw [remaining_bind] at h
  obtain ⟨-, h⟩ := failIf_bind_ok h
  obtain ⟨_, c₈, h₈, h⟩ := bind_ok h
  obtain ⟨contract, c₉, h₉, h⟩ := bind_ok h
  obtain ⟨ty', -, h⟩ := ofResult_bind_ok h
  obtain ⟨b₇, e₇⟩ := (readUleb32_local _).advances h₇
  obtain ⟨b₈, e₈⟩ := skipEndpoints_advances _ _ h₈
  obtain ⟨b₉, e₉⟩ := (decodeWireContract_local _).advances h₉
  rcases whenPresent_ok h with ⟨-, span, hspan, heq⟩ | ⟨-, heq, -⟩
  · unfold readSpan at hspan
    rw [position_bind] at hspan
    obtain ⟨hdr', c₁₀, hread, hspan⟩ := bind_ok hspan
    obtain ⟨rfl, -⟩ := pure_ok_inv hspan
    cases heq
    refine ⟨?_, fun hfixed => ?_⟩
    · simp only [hc₂, canonicalPrelude, advance_off, start_off, length_cons, length_append, length_nil] at e₇ ⊢
      omega
    · rw [readReliableHeaderEncoded, if_neg (by simp [hfixed])] at hread
      obtain ⟨hrest, rfl⟩ := readReliableHeader_ok hread
      have hbuf : c₉.buf = canonicalPrelude flags nep ty dataSize timestamp nonce sections := b₉.trans (b₈.trans b₇)
      rw [← hbuf, ← Cursor.rest, hrest, advance_off, Nat.add_sub_cancel_left, take_left]
  · cases heq

/-! ### The sections behind the prelude -/

theorem readEndpointListLoop_local (count : ℕ) : ∀ previous, Local (readEndpointListLoop count previous) := by
  induction count with
  | zero => exact fun _ => Local.pure ()
  | succ count ih =>
    intro previous
    exact readUleb128_local.bind fun _ => (Local.ofOption _ _).bind fun id =>
      (Local.failIf _ _).bind fun _ => ih (some id)

theorem skipTemplateEndpoints_local (flags nep : UInt8) : Local (skipTemplateEndpoints flags nep) := by
  refine (Local.take _ _).bind fun _ => ?_
  split
  · exact (Local.failIf _ _).bind fun _ => readEndpointListLoop_local _ _
  · exact Local.pure ()

theorem skipTemplateContract_local (flags : UInt8) : Local (skipTemplateContract flags) := by
  unfold skipTemplateContract
  split
  · exact readUleb128_local.bind fun _ => (Local.take _ _).bind fun _ => Local.pure ()
  · exact Local.pure ()

/-- The offsets enclose the bytes that were skipped. -/
theorem skipTemplateSections_ok {c' : Cursor} {betweenStart off : ℕ}
    (h : skipTemplateSections flags nep c = .ok ((betweenStart, off), c')) : betweenStart = c.off ∧ off = c'.off ∧
      ∃ between, c.rest = between ++ c'.rest ∧ c' = c.advance between.length := by
  unfold skipTemplateSections at h
  rw [position_bind] at h
  obtain ⟨source, c₁, h₁, h⟩ := bind_ok h
  obtain ⟨_, c₂, h₂, h⟩ := bind_ok h
  obtain ⟨_, c₃, h₃, h⟩ := bind_ok h
  obtain ⟨heq, rfl⟩ := pure_ok_inv h
  cases heq
  obtain ⟨b₁, hr₁, rfl, -⟩ := readUleb32_local _ h₁
  obtain ⟨b₂, hr₂, rfl, -⟩ := skipTemplateEndpoints_local _ _ h₂
  obtain ⟨b₃, hr₃, rfl, -⟩ := skipTemplateContract_local _ h₃
  refine ⟨rfl, rfl, b₁ ++ (b₂ ++ b₃), ?_, ?_⟩
  · rw [append_assoc, append_assoc, ← hr₃, ← hr₂, ← hr₁]
  · rw [advance_advance, advance_advance, length_append, length_append]

variable {x : TemplateExtract}

theorem drop_cut (data : Bytes) {start stop next : ℕ} (h : start ≤ stop) (h' : stop ≤ next) :
    data.drop start = (data.take stop).drop start ++ ((data.drop stop).take (next - stop) ++ data.drop next) := by
  have hnext : data.drop next = (data.drop stop).drop (next - stop) := by
    rw [drop_drop, Nat.add_sub_cancel' h']
  have hstop : data.drop stop = (data.drop start).drop (stop - start) := by
    rw [drop_drop, Nat.add_sub_cancel' h]
  rw [hnext, take_append_drop, drop_take, hstop, take_append_drop]

/-- The frame is put together from the bytes cut out of it. -/
theorem cutTemplate_canonical (hty : Reads readUleb128 ty id) {data : Bytes}
    {p : TemplatePrelude} (hdata : data = canonicalPrelude flags nep ty dataSize timestamp nonce sections)
    (hp : readTemplatePrelude (start data) = .ok (p, c)) {stop next : ℕ} (hstop : c.off ≤ stop)
    (hnext : stop ≤ next) (reliable : Option ReliableHeader) (hx : x = cutTemplate data p c.off stop next reliable) :
    data = x.flags :: (x.template.prefixBytes ++ (writeUleb128 x.dataSize ++ (writeUleb128 x.timestamp ++
      ((if x.flags &&& flagPacketNonce ≠ 0 then writeUleb128 x.nonce.toUInt64 else []) ++
      (x.template.between ++ ((data.drop stop).take (next - stop) ++ x.payload)))))) := by
  have hcut := drop_cut data hstop hnext
  rw [hdata] at hp
  obtain ⟨hflags, -, hsizeOff, hsize, hts, hnonce, hbuf, hrest, -⟩ := readTemplatePrelude_canonical hty hp
  have hfirst : (data.take p.dataSizeOff).drop 1 = nep :: ty := by
    rw [hsizeOff, hdata, canonicalPrelude, take_succ_cons, drop_one]
    exact take_left' rfl
  have hsections : data.drop c.off = sections := by rw [hdata, ← hbuf, ← hrest, rest]
  rw [hsections] at hcut
  subst hx
  simp only [cutTemplate, hfirst, hflags, hsize, hts, hnonce]
  rw [← hcut, hdata]
  unfold canonicalPrelude
  by_cases hflag : flags &&& flagPacketNonce ≠ 0
  · simp [hflag]
  · simp [hflag]

/-- A canonical frame is put together from its template and its variable fields. -/
theorem extract_canonical (hcanonical : CanonicalFrame env raw) (hx : extractSideHeaderTemplate raw = .ok x) :
    x.template.baseFlags = templateFlags x.flags ∧ x.reliableSeqAck.isSome = x.template.reliableFlags.isSome ∧
    ∃ reliable, rebuildReliable x.template x.reliableSeqAck = .ok reliable ∧
    raw = appendCrc32 env (x.flags :: (x.template.prefixBytes ++ (writeUleb128 x.dataSize ++
      (writeUleb128 x.timestamp ++ ((if x.flags &&& flagPacketNonce ≠ 0 then writeUleb128 x.nonce.toUInt64 else []) ++
      (x.template.between ++ (reliable ++ x.payload))))))) := by
  obtain ⟨⟨flags, nep, ty, id, dataSize, timestamp, nonce, sections, hty, rfl⟩, hheader⟩ := hcanonical
  set data := canonicalPrelude flags nep ty dataSize timestamp nonce sections with hdata
  have htake := take_appendCrc32 env data
  unfold extractSideHeaderTemplate at hx
  split at hx
  · cases hx
  simp only [htake] at hx
  split at hx
  · cases hx
  rename_i p betweenStart off hspans
  obtain ⟨c, hrun⟩ := eval_ok hspans
  obtain ⟨p', c₁, hprelude, hrun⟩ := bind_ok hrun
  obtain ⟨spans, c₂, hskip, hrun⟩ := bind_ok hrun
  obtain ⟨heq, rfl⟩ := pure_ok_inv hrun
  cases heq
  obtain ⟨hstart, hoff, between, -, rfl⟩ := skipTemplateSections_ok hskip
  obtain ⟨hflags, -, -, -, -, -, -, -, hend⟩ := readTemplatePrelude_canonical hty hprelude
  subst hstart
  split at hx
  · cases hx
  · cases hx
    refine ⟨rfl, rfl, [], rfl, congrArg (appendCrc32 env) ?_⟩
    have hle : c₁.off ≤ off := by
      rw [hoff, advance_off]
      omega
    have hcut := cutTemplate_canonical hty hdata hprelude hle (Nat.le_refl off) none rfl
    rwa [Nat.sub_self] at hcut
  rename_i relOff relLen hdr hspan
  split at hx
  · cases hx
  cases hx
  refine ⟨rfl, rfl, writeReliableHeaderEncoded hdr (p.flags &&& flagCompactReliableHeader ≠ 0), rfl,
    congrArg (appendCrc32 env) ?_⟩
  have hread := hspan
  unfold reliableHeaderSpan at hread
  rw [if_neg (by omega), htake] at hread
  obtain ⟨c', hread⟩ := eval_ok hread
  obtain ⟨hle, hfixed⟩ := reliableHeaderSpanBody_canonical hty hread
  have hbytes : (data.drop relOff).take relLen =
      writeReliableHeaderEncoded hdr (p.flags &&& flagCompactReliableHeader ≠ 0) := by
    by_cases hcompact : flags &&& flagCompactReliableHeader = 0
    · rw [hflags, hfixed hcompact, writeReliableHeaderEncoded, if_neg (by simp [hcompact])]
    · have hheader := hheader relOff relLen hdr hspan hcompact
      rw [appendCrc32, drop_append_of_le_length (by omega),
        take_append_of_le_length (by rw [length_drop]; omega)] at hheader
      rw [hheader, hflags, decide_eq_true hcompact]
  have hcut := cutTemplate_canonical hty hdata hprelude (hend.trans_le hle) (Nat.le_add_right relOff relLen)
    (some hdr) rfl
  rwa [Nat.add_sub_cancel_left, hbytes] at hcut

theorem Canonical.frame (h : Canonical env raw) (hx : extractSideHeaderTemplate raw = .ok x)
    (hrel : x.template.reliableFlags = none) : CanonicalFrame env raw := by
  refine ⟨h, fun off len hdr hspan _ => ?_⟩
  unfold extractSideHeaderTemplate at hx
  rw [hspan] at hx
  split at hx
  · cases hx
  dsimp only at hx
  split at hx
  · cases hx
  split at hx
  · cases hx
  cases hx
  simp [cutTemplate] at hrel

/-- Rebuilding a frame from a template with the same header bytes. -/
theorem reconstruct_extract
    {template : SideHeaderTemplate} (timestampBase : Option UInt64) (hcanonical : CanonicalFrame env raw)
    (hx : extractSideHeaderTemplate raw = .ok x) (hbase : template.baseFlags = x.template.baseFlags)
    (hfirst : template.prefixBytes = x.template.prefixBytes) (hbetween : template.between = x.template.between)
    (hreliable : template.reliableFlags = x.template.reliableFlags)
    (hrebuild : rebuildReliable template x.reliableSeqAck = rebuildReliable x.template x.reliableSeqAck) :
    reconstructSideCompactFrame env template x.flags x.compactTail .absolute timestampBase =
      .ok (raw, x.timestamp) := by
  obtain ⟨hflags, hsome, reliable, hbytes, hraw⟩ := extract_canonical hcanonical hx
  have hne : x.compactTail ≠ [] := by
    intro hnil
    have hlen := congrArg List.length hnil
    have hpos := (uleb128Size_bounds x.dataSize).1
    simp only [TemplateExtract.compactTail, length_append, length_writeUleb128,
      length_nil] at hlen
    omega
  have hseqAck : Reads (whenPresent (template.reliableFlags.isSome = true) readCompactSeqAck)
      (match x.reliableSeqAck with
        | some (seq, ack) => writeUleb128 seq.toUInt64 ++ writeUleb128 ack.toUInt64
        | none => []) x.reliableSeqAck := by
    rw [hreliable, ← hsome]
    cases x.reliableSeqAck with
    | none => exact Reads.whenPresent_not (by simp)
    | some seqAck =>
      exact Reads.whenPresent rfl ((reads_readUleb32 _ seqAck.1).bind
        ((reads_readUleb32 _ seqAck.2).bind_nil (Reads.pure _)))
  have hfields : eval (readCompactFields template x.flags .absolute timestampBase)
      (start x.compactTail) = .ok ⟨x.dataSize, x.timestamp,
        if x.flags &&& flagPacketNonce ≠ 0 then some x.nonce.toUInt64 else none, x.reliableSeqAck, x.payload⟩ := by
    have hrest₁ : (start x.compactTail).rest = _ := rfl
    have hrest₂ := rest_advance_of_eq hrest₁
    have hrest₃ := rest_advance_of_eq hrest₂
    have hrest₄ := rest_advance_of_eq hrest₃
    have hrest₅ := rest_advance_of_eq hrest₄
    apply eval_of_ok
    unfold readCompactFields readCompactTimestamp
    rw [bind_of_ok (reads_writeUleb128 x.dataSize _ _ hrest₁),
      bind_of_ok (reads_writeUleb128 x.timestamp _ _ hrest₂),
      bind_of_ok (reads_optionalNonce x.flags x.nonce _ _ hrest₃), bind_of_ok (hseqAck _ _ hrest₄)]
    exact congrArg (fun payload => Except.ok (CompactFields.mk _ _ _ _ payload, _)) hrest₅
  unfold reconstructSideCompactFrame
  rw [if_neg hne, if_neg (by rw [hbase, hflags]; simp), hfields]
  simp only [hrebuild, hbytes]
  rw [hraw, hfirst, hbetween]
  by_cases hflag : x.flags &&& flagPacketNonce ≠ 0
  · simp [hflag]
  · simp [hflag]

/-- **Template round trip**: from the template of a canonical frame and its compact body the frame is
rebuilt byte for byte. -/
theorem template_round_trip {env : WireEnv} {raw : Bytes} {x : TemplateExtract} (timestampBase : Option UInt64)
    (hcanonical : CanonicalFrame env raw) (hx : extractSideHeaderTemplate raw = .ok x) :
    reconstructSideCompactFrame env x.template x.flags x.compactTail .absolute timestampBase = .ok (raw, x.timestamp) :=
  reconstruct_extract timestampBase hcanonical hx rfl rfl rfl rfl rfl

/-- The sample packet behind a compact reliable header. -/
def reliableFrame : Bytes :=
  [206, 1, 100, 2, 7, 3, 151, 215, 142, 162, 13, 6, 20, 7, 66, 2, 2, 1, 0, 0, 0, 0, 0, 0, 0, 2, 0, 0, 0, 0, 0, 0, 0,
    140, 9, 4, 170, 187, 65, 36, 132, 8]

theorem template_round_trip_sample : ∃ x,
    packPacketInner (plainEnv sampleRegistry) samplePacket (some ⟨0x80, 9, 4⟩) = .ok reliableFrame ∧
    extractSideHeaderTemplate reliableFrame = .ok x ∧ x.reliableSeqAck = some (9, 4) ∧
    reconstructSideCompactFrame (plainEnv sampleRegistry) x.template x.flags x.compactTail .absolute none =
      .ok (reliableFrame, x.timestamp) := by
  have hpack : packPacketInner (plainEnv sampleRegistry) samplePacket (some ⟨0x80, 9, 4⟩) = .ok reliableFrame := by
    decide +kernel
  refine ⟨_, hpack, rfl, by decide +kernel, template_round_trip none ?_ rfl⟩
  exact canonicalFrame_packPacketInnerWithContract hpack (by unfold BitmapRegistered; decide +kernel)
    (fun _ h => by cases h; decide) (by decide)

/-- A frame whose data size takes two bytes where one would do. -/
def paddedFrame : Bytes :=
  appendCrc32 (plainEnv sampleRegistry) [0x88, 1, 100, 0x82, 0, 7, 3, 9, 5, 0xAA, 0xBB]

/-- It is accepted, and rebuilt without the padding. -/
theorem padded_frame_changes : ∃ x, extractSideHeaderTemplate paddedFrame = .ok x ∧
    (unpackPacket (plainEnv sampleRegistry) .empty paddedFrame).isOk = true ∧
    reconstructSideCompactFrame (plainEnv sampleRegistry) x.template x.flags x.compactTail .absolute none =
      .ok (appendCrc32 (plainEnv sampleRegistry) [0x88, 1, 100, 2, 7, 3, 9, 5, 0xAA, 0xBB], 7) ∧
    appendCrc32 (plainEnv sampleRegistry) [0x88, 1, 100, 2, 7, 3, 9, 5, 0xAA, 0xBB] ≠ paddedFrame := by
  refine ⟨_, rfl, by decide +kernel, by decide +kernel, by decide +kernel⟩

end SedsNet
