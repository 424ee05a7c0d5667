import SedsNet.Endpoints

/-! # Wire contracts and reliable headers

The two optional sections between the endpoints and the payload of a frame: the length-prefixed
wire contract (an inline payload shape and frozen target senders) and the hop-level reliable
header in its fixed and compact forms.  Each encoder is paired with its decoder by a `Reads`
statement: `reads_wireShape`, `reads_wireContract`, `reads_reliableHeader`. -/

namespace SedsNet

open ByteCursor ByteWords List Cursor

/-! ### Inline payload shapes -/

/-- `write_wire_shape`; the count is a `u64` on every host. -/
def writeWireShape (shape : MessageElement) : Bytes :=
  let packed := messageDataTypeCode shape.dataType ||| (messageClassCode shape.messageType <<< 4)
  match shape with
  | .static count _ _ => (packed ||| 0x40) :: writeUleb128 count
  | .dynamic _ _ => [packed]

def decodeWireShape : ByteReader MessageElement := do
  let packed ← readByte
  let dt ← ofOption (messageDataTypeFromCode (packed &&& 0x0F)) (.unpack "wire shape type")
  let cls ← ofOption (messageClassFromCode ((packed >>> 4) &&& 0x03)) (.unpack "wire shape class")
  if packed &&& 0x40 ≠ 0 then
    let count ← readUleb128
    return .static count dt cls
  else return .dynamic dt cls

/-- The three fields packed into the shape byte. -/
theorem shapeByte_fields (dt : MessageDataType) (cls : MessageClass) (static : Bool) :
    let packed := messageDataTypeCode dt ||| (messageClassCode cls <<< 4) |||
      (if static then 0x40 else 0)
    packed &&& 0x0F = messageDataTypeCode dt ∧ (packed >>> 4) &&& 0x03 = messageClassCode cls ∧
      (packed &&& 0x40 ≠ 0 ↔ static = true) := by
  cases dt <;> cases cls <;> cases static <;> decide

theorem reads_wireShape (shape : MessageElement) : Reads decodeWireShape (writeWireShape shape) shape := by
  cases shape with
  | static count dt cls =>
    obtain ⟨hdt, hcls, hstatic⟩ := shapeByte_fields dt cls true
    rw [if_pos rfl] at hdt hcls hstatic
    rw [show writeWireShape (.static count dt cls) = (messageDataTypeCode dt |||
      (messageClassCode cls <<< 4) ||| 0x40) :: writeUleb128 count from rfl]
    refine reads_readByte_bind ?_
    rw [hdt, hcls]
    refine Reads.ofOption_bind (messageDataTypeFromCode_code dt) ?_
    refine Reads.ofOption_bind (messageClassFromCode_code cls) ?_
    rw [if_pos (hstatic.mpr rfl)]
    exact (reads_writeUleb128 count).bind_nil (Reads.pure _)
  | dynamic dt cls =>
    obtain ⟨hdt, hcls, hstatic⟩ := shapeByte_fields dt cls false
    rw [if_neg Bool.false_ne_true, UInt8.or_zero] at hdt hcls hstatic
    rw [show writeWireShape (.dynamic dt cls) =
      [messageDataTypeCode dt ||| (messageClassCode cls <<< 4)] from rfl]
    refine reads_readByte_bind ?_
    rw [hdt, hcls]
    refine Reads.ofOption_bind (messageDataTypeFromCode_code dt) ?_
    refine Reads.ofOption_bind (messageClassFromCode_code cls) ?_
    rw [if_neg (fun h => Bool.false_ne_true (hstatic.mp h))]
    exact Reads.pure _

theorem decodeWireShape_local : Local decodeWireShape := by
  refine readByte_local.bind fun packed => (Local.ofOption _ _).bind fun dt =>
    (Local.ofOption _ _).bind fun cls => ?_
  split
  · exact readUleb128_local.bind fun count => Local.pure _
  · exact Local.pure _

/-! ### Contracts -/

abbrev contractFlagTargets : UInt8 := 0x01
abbrev contractFlagShape : UInt8 := 0x02
abbrev contractFlagReliableHeader : UInt8 := 0x04

structure WireContract where
  shape : Option MessageElement
  targetSenders : Option (List UInt64)
  hasReliableHeader : Bool
deriving DecidableEq, Repr

section

variable (shape : Option MessageElement) (targets : List UInt64)

/-- Frozen target hashes, eight little-endian bytes each. -/
def writeTargets : Bytes := targets.flatMap fun t => leBytes 8 t.toNat

def contractFlags (hasReliableHeader : Bool) : UInt8 :=
  (if targets ≠ [] then contractFlagTargets else 0) ||| (if shape.isSome then contractFlagShape else 0)
    ||| (if hasReliableHeader then contractFlagReliableHeader else 0)

def writeWireContract (hasReliableHeader : Bool) : Bytes :=
  contractFlags shape targets hasReliableHeader ::
    ((match shape with
      | some shape => writeWireShape shape
      | none => []) ++
      (if targets ≠ [] then writeUleb128 (UInt64.ofNat targets.length) ++ writeTargets targets
       else []))

def wireContractSize : ℕ :=
  1 + (match shape with
    | some (.static count _ _) => 1 + uleb128Size count
    | some (.dynamic _ _) => 1
    | none => 0) +
    (if targets ≠ [] then uleb128Size (UInt64.ofNat targets.length) + targets.length * 8 else 0)

/-- The loop that fills the target slots. -/
def readTargets : (count : ℕ) → ByteReader (List UInt64)
  | 0 => pure []
  | count + 1 => do
      let bytes ← readBytes 8
      let rest ← readTargets count
      return UInt64.ofNat (ofLe bytes) :: rest

/-- The optional target list of a contract; an empty list counts as none. -/
def decodeContractTargets (flags : UInt8) : ByteReader (Option (List UInt64)) :=
  if flags &&& contractFlagTargets ≠ 0 then do
    let count ← readUleb128
    let left ← remaining
    failIf (left / 8 < count.toNat) (.unpack "wire contract target count")
    if count.toNat = 0 then return none else some <$> readTargets count.toNat
  else return none

/-- The inside of a contract, on its own bytes. -/
def decodeContractBody : ByteReader WireContract := do
  let flags ← readByte
  let shape ← whenPresent (flags &&& contractFlagShape ≠ 0) decodeWireShape
  let targets ← decodeContractTargets flags
  let left ← remaining
  failIf (left ≠ 0) (.unpack "wire contract trailing bytes")
  return ⟨shape, targets, flags &&& contractFlagReliableHeader ≠ 0⟩

/-- `decode_wire_contract`: the contract is parsed in a reader bounded by its length prefix. -/
def decodeWireContract (hasContract : Bool) : ByteReader WireContract :=
  if hasContract then do
    let len ← readUleb128
    let bytes ← readBytes len.toNat
    ofResult (eval decodeContractBody (Cursor.start bytes))
  else return ⟨none, none, false⟩

theorem decodeWireContract_local (hasContract : Bool) : Local (decodeWireContract hasContract) := by
  unfold decodeWireContract
  split
  · exact readUleb128_local.bind fun _ => (readBytes_local _).bind fun _ => Local.ofResult _
  · exact Local.pure _

/-- The targets a run of bytes stands for. -/
def decodeTargets (bytes : Bytes) : List UInt64 :=
  (chunks 8 (bytes.length / 8) bytes).map fun b => UInt64.ofNat (ofLe b)

theorem ofNat_ofLe_leBytes (t : UInt64) : UInt64.ofNat (ofLe (leBytes 8 t.toNat)) = t := by
  rw [ofLe_leBytes_of_lt (by have := t.toNat_lt; omega), UInt64.ofNat_toNat]

theorem length_writeTargets : (writeTargets targets).length = targets.length * 8 := by
  simp [writeTargets, length_flatMap]

theorem reads_writeTargets : Reads (readTargets targets.length) (writeTargets targets) targets := by
  induction targets with
  | nil => exact Reads.pure []
  | cons t targets ih =>
    have h := (reads_readBytes (length_leBytes 8 t.toNat)).bind
      (f := fun b => do
        let rest ← readTargets targets.length
        return UInt64.ofNat (ofLe b) :: rest) (ih.bind_nil (Reads.pure _))
    rwa [ofNat_ofLe_leBytes] at h

/-- Filling the slots one by one is reading all the bytes at once. -/
theorem readTargets_of_le : ∀ count c, count * 8 ≤ c.remaining →
    readTargets count c = .ok (decodeTargets (c.rest.take (count * 8)), c.advance (count * 8))
  | 0, c, _ => by
      simp [readTargets, decodeTargets, chunks, pure_ok]
  | count + 1, c, h => by
      have hlen : (c.rest.take ((count + 1) * 8)).length / 8 = count + 1 := by
        rw [length_take, length_rest]
        omega
      have hlen' : ((c.advance 8).rest.take (count * 8)).length / 8 = count := by
        rw [length_take, rest_advance, length_drop, length_rest]
        omega
      have hrem : count * 8 ≤ (c.advance 8).remaining := by
        unfold Cursor.remaining at h ⊢
        simp only [advance_buf, advance_off]
        omega
      have htake : (c.rest.take ((count + 1) * 8)).drop 8 = (c.advance 8).rest.take (count * 8) := by
        rw [drop_take, rest_advance, show (count + 1) * 8 - 8 = count * 8 by omega]
      have hhead : (c.rest.take ((count + 1) * 8)).take 8 = c.rest.take 8 := by
        rw [take_take, Nat.min_eq_left (by omega)]
      unfold readTargets
      rw [readBytes, bind_of_ok (take_of_le (by omega)), bind_of_ok (readTargets_of_le count _ hrem), pure_ok,
        advance_advance]
      unfold decodeTargets
      rw [hlen, hlen', chunks, map_cons, hhead, htake, show 8 + count * 8 = (count + 1) * 8 by omega]

theorem length_writeWireShape (shape : MessageElement) : (writeWireShape shape).length =
    (match shape with
      | .static count _ _ => 1 + uleb128Size count
      | .dynamic _ _ => 1) := by
  cases shape with
  | static count dt cls =>
    simp only [writeWireShape, length_cons, length_writeUleb128]
    omega
  | dynamic dt cls => rfl

/-- The size written in front of a contract is its length. -/
theorem length_writeWireContract (rel : Bool) :
    (writeWireContract shape targets rel).length = wireContractSize shape targets := by
  have hshape : (match shape with
      | some shape => writeWireShape shape
      | none => []).length = (match shape with
      | some (.static count _ _) => 1 + uleb128Size count
      | some (.dynamic _ _) => 1
      | none => 0) := by
    cases shape with
    | none => rfl
    | some shape =>
      simp only [length_writeWireShape]
      cases shape <;> rfl
  unfold writeWireContract wireContractSize
  rw [length_cons, length_append, hshape]
  by_cases ht : targets = []
  · simp only [ht, ne_eq, not_true_eq_false, if_false, length_nil]
    omega
  · simp only [ht, ne_eq, not_false_eq_true, if_true, length_append, length_writeUleb128,
      length_writeTargets]
    omega

theorem contractFlags_bits (rel : Bool) :
    (contractFlags shape targets rel &&& contractFlagShape ≠ 0 ↔ shape.isSome = true) ∧
      (contractFlags shape targets rel &&& contractFlagTargets ≠ 0 ↔ targets ≠ []) ∧
      (contractFlags shape targets rel &&& contractFlagReliableHeader ≠ 0 ↔ rel = true) := by
  have hbits : ∀ t s r,
      let f := (if t then contractFlagTargets else 0) ||| (if s then contractFlagShape else 0) |||
        (if r then contractFlagReliableHeader else 0)
      (f &&& contractFlagShape ≠ 0 ↔ s = true) ∧ (f &&& contractFlagTargets ≠ 0 ↔ t = true) ∧
        (f &&& contractFlagReliableHeader ≠ 0 ↔ r = true) := by decide
  have h := hbits (decide (targets ≠ [])) shape.isSome rel
  simp only [decide_eq_true_eq] at h
  exact h

theorem reads_optionalShape (rel : Bool) :
    Reads (whenPresent (contractFlags shape targets rel &&& contractFlagShape ≠ 0) decodeWireShape)
      (match shape with
        | some shape => writeWireShape shape
        | none => []) shape := by
  have hbit := (contractFlags_bits shape targets rel).1
  cases shape with
  | none => exact Reads.whenPresent_not fun h => by simpa using hbit.mp h
  | some shape => exact Reads.whenPresent (hbit.mpr rfl) (reads_wireShape shape)

end

variable {shape : Option MessageElement} {targets : List UInt64} {rel : Bool}

theorem decodeContractTargets_write (hfit : 8 * targets.length ≤ isizeMax) {c : Cursor}
    (hc : c.rest = if targets ≠ [] then writeUleb128 (UInt64.ofNat targets.length) ++ writeTargets targets else []) :
    decodeContractTargets (contractFlags shape targets rel) c =
      .ok (if targets = [] then none else some targets, c.advance c.remaining) := by
  have hbit := (contractFlags_bits shape targets rel).2.1
  unfold decodeContractTargets
  by_cases ht : targets = []
  · rw [if_neg (by simp [ht])] at hc
    rw [if_neg (fun h => hbit.mp h ht), if_pos ht, remaining_of_eq hc]
    rfl
  · rw [if_pos ht] at hc
    have hcount : (UInt64.ofNat targets.length).toNat = targets.length := by
      unfold isizeMax at hfit
      rw [UInt64.toNat_ofNat', Nat.mod_eq_of_lt (by omega)]
    have hrest := rest_advance_of_eq hc
    have hleft := remaining_of_eq hrest
    rw [length_writeTargets] at hleft
    rw [if_pos (hbit.mpr ht), if_neg ht, bind_of_ok (reads_writeUleb128 _ _ _ hc),
      remaining_bind, hcount, failIf_bind (by omega),
      if_neg (fun h => ht (length_eq_zero_iff.mp h)),
      map_of_ok (reads_writeTargets targets _ [] (by rw [hrest, append_nil])),
      advance_advance, remaining_of_eq hc, length_append]

/-- Decoding the inside of a written contract. -/
theorem eval_contractBody (hfit : 8 * targets.length ≤ isizeMax) :
    eval decodeContractBody (start (writeWireContract shape targets rel)) =
      .ok ⟨shape, if targets = [] then none else some targets, rel⟩ := by
  have hrbit := (contractFlags_bits shape targets rel).2.2
  have hrel : decide (contractFlags shape targets rel &&& contractFlagReliableHeader ≠ 0) = rel := by
    by_cases h : rel = true
    · rw [decide_eq_true (hrbit.mpr h), h]
    · rw [decide_eq_false (fun hf => h (hrbit.mp hf)), Bool.eq_false_iff.mpr h]
  have h₀ : (start (writeWireContract shape targets rel)).rest =
      [contractFlags shape targets rel] ++ _ := rfl
  have h₁ := rest_advance_of_eq h₀
  have h₂ := rest_advance_of_eq h₁
  have hend : ∀ c : Cursor, (c.advance c.remaining).remaining = 0 := by
    unfold Cursor.remaining
    simp only [advance_buf, advance_off]
    omega
  unfold decodeContractBody
  apply eval_of_ok
  rw [bind_of_ok (reads_readByte _ _ _ h₀),
    bind_of_ok (reads_optionalShape shape targets rel _ _ h₁),
    bind_of_ok (decodeContractTargets_write hfit h₂), remaining_bind,
    failIf_bind (by rw [hend]; simp), pure_ok, hrel]

/-- A contract behind its length prefix reads back as it was written. -/
theorem reads_wireContract (hfit : 8 * targets.length ≤ isizeMax) : Reads (decodeWireContract true)
      (writeUleb128 (UInt64.ofNat (wireContractSize shape targets)) ++ writeWireContract shape targets rel)
      ⟨shape, if targets = [] then none else some targets, rel⟩ := by
  have hsize : (UInt64.ofNat (wireContractSize shape targets)).toNat =
      wireContractSize shape targets := by
    have hshape : (match shape with
        | some (.static count _ _) => 1 + uleb128Size count
        | some (.dynamic _ _) => 1
        | none => 0) ≤ 11 := by
      split
      · have := (uleb128Size_bounds ‹_›).2
        omega
      · omega
      · omega
    have htargets : (if targets ≠ [] then
        uleb128Size (UInt64.ofNat targets.length) + targets.length * 8 else 0) ≤
          10 + targets.length * 8 := by
      split
      · have := (uleb128Size_bounds (UInt64.ofNat targets.length)).2
        omega
      · omega
    unfold isizeMax at hfit
    unfold wireContractSize
    rw [UInt64.toNat_ofNat', Nat.mod_eq_of_lt (by omega)]
  unfold decodeWireContract
  refine (reads_writeUleb128 _).bind ?_
  rw [hsize]
  exact (reads_readBytes (length_writeWireContract shape targets rel)).bind_nil
    (Reads.ofResult (eval_contractBody hfit))

/-! ### Reliable headers -/

structure ReliableHeader where
  flags : UInt8
  seq : UInt32
  ack : UInt32
deriving DecidableEq, Repr

abbrev reliableFlagAckOnly : UInt8 := 0x01
abbrev reliableFlagUnordered : UInt8 := 0x02
abbrev reliableFlagUnsequenced : UInt8 := 0x80
abbrev reliableWireFlagSeqPresent : UInt8 := 0x04
abbrev reliableWireFlagAckPresent : UInt8 := 0x08
abbrev reliablePublicFlagsMask : UInt8 := 0x83
def reliableHeaderBytes : ℕ := 9

namespace ReliableHeader

/-- Whether the compact form writes the sequence number. -/
def seqPresent (h : ReliableHeader) : Bool :=
  decide (h.flags &&& reliableFlagAckOnly = 0) || decide (h.seq ≠ 0)

/-- Whether the compact form writes the acknowledgement. -/
def ackPresent (h : ReliableHeader) : Bool :=
  decide (h.ack ≠ 0) || decide (h.flags &&& reliableFlagAckOnly ≠ 0)

end ReliableHeader

variable (h : ReliableHeader) (compact : Bool)

def writeReliableHeader : Bytes :=
  h.flags :: (leBytes 4 h.seq.toNat ++ leBytes 4 h.ack.toNat)

def reliableCompactSize : ℕ :=
  1 + (if h.seqPresent then uleb128Size h.seq.toUInt64 else 0) +
    (if h.ackPresent then uleb128Size h.ack.toUInt64 else 0)

def shouldCompactReliableHeader : Bool :=
  decide (reliableCompactSize h < reliableHeaderBytes)

def reliableWireSize : ℕ :=
  if compact then reliableCompactSize h else reliableHeaderBytes

/-- The flags byte of the compact form. -/
def compactFlags : UInt8 :=
  (h.flags &&& reliablePublicFlagsMask) ||| (if h.seqPresent then reliableWireFlagSeqPresent else 0)
    ||| (if h.ackPresent then reliableWireFlagAckPresent else 0)

def writeReliableHeaderEncoded : Bytes :=
  if compact then
    compactFlags h :: ((if h.seqPresent then writeUleb128 h.seq.toUInt64 else []) ++
      (if h.ackPresent then writeUleb128 h.ack.toUInt64 else []))
  else writeReliableHeader h

/-- `read_u32_le`. -/
def readU32Le : ByteReader UInt32 := do
  let b ← readBytes 4
  return UInt32.ofNat (ofLe b)

def readReliableHeader : ByteReader ReliableHeader := do
  let flags ← readByte
  let seq ← readU32Le
  let ack ← readU32Le
  return ⟨flags, seq, ack⟩

/-- A ULEB128 integer that must fit a `u32`. -/
def readUleb32 (msg : String) : ByteReader UInt32 := do
  let v ← readUleb128
  ofOption (tryU32 v) (.unpack msg)

def readReliableHeaderCompact : ByteReader ReliableHeader := do
  let wireFlags ← readByte
  let seq ← whenPresent (wireFlags &&& reliableWireFlagSeqPresent ≠ 0)
    (readUleb32 "reliable seq too large")
  let ack ← whenPresent (wireFlags &&& reliableWireFlagAckPresent ≠ 0)
    (readUleb32 "reliable ack too large")
  return ⟨wireFlags &&& reliablePublicFlagsMask, seq.getD 0, ack.getD 0⟩

def readReliableHeaderEncoded : ByteReader ReliableHeader :=
  if compact then readReliableHeaderCompact else readReliableHeader

theorem reads_readU32Le (x : UInt32) : Reads readU32Le (leBytes 4 x.toNat) x := by
  have hx : UInt32.ofNat (ofLe (leBytes 4 x.toNat)) = x := by
    rw [ofLe_leBytes_of_lt (by have := x.toNat_lt; omega), UInt32.ofNat_toNat]
  have h := (reads_readBytes (length_leBytes 4 x.toNat)).bind_nil
    (f := fun b => pure (UInt32.ofNat (ofLe b))) (Reads.pure _)
  rwa [hx] at h

theorem reads_readUleb32 (msg : String) (x : UInt32) : Reads (readUleb32 msg) (writeUleb128 x.toUInt64) x :=
  (reads_writeUleb128 _).bind_nil (Reads.ofOption (tryU32_toUInt64 x))

theorem compactFlags_bits : (compactFlags h &&& reliableWireFlagSeqPresent ≠ 0 ↔ h.seqPresent = true) ∧
      (compactFlags h &&& reliableWireFlagAckPresent ≠ 0 ↔ h.ackPresent = true) ∧
      compactFlags h &&& reliablePublicFlagsMask = h.flags &&& reliablePublicFlagsMask := by
  have hbits : ∀ f s a,
      let w := (f &&& reliablePublicFlagsMask) ||| (if s then reliableWireFlagSeqPresent else 0) |||
        (if a then reliableWireFlagAckPresent else 0)
      (w &&& reliableWireFlagSeqPresent ≠ 0 ↔ s = true) ∧
        (w &&& reliableWireFlagAckPresent ≠ 0 ↔ a = true) ∧
        w &&& reliablePublicFlagsMask = f &&& reliablePublicFlagsMask := by decide +kernel
  exact hbits h.flags h.seqPresent h.ackPresent

/-- An absent sequence number or acknowledgement is zero. -/
theorem reads_compactField {present : Bool} {q : Prop} [Decidable q] {x : UInt32} (msg : String)
    (hq : q ↔ present = true) (hx : present = false → x = 0) : ∃ o, Reads (whenPresent q (readUleb32 msg))
      (if present then writeUleb128 x.toUInt64 else []) o ∧ o.getD 0 = x := by
  cases present with
  | true => exact ⟨some x, Reads.whenPresent (hq.mpr rfl) (reads_readUleb32 msg x), rfl⟩
  | false =>
    refine ⟨none, ?_, (hx rfl).symm⟩
    exact Reads.whenPresent_not fun h => Bool.false_ne_true (hq.mp h)

/-- Reading back a reliable header: the fixed form keeps every flag, the compact form the public
ones. -/
theorem reads_reliableHeader (hflags : compact = true → h.flags &&& reliablePublicFlagsMask = h.flags) :
    Reads (readReliableHeaderEncoded compact) (writeReliableHeaderEncoded h compact) h := by
  unfold readReliableHeaderEncoded writeReliableHeaderEncoded
  cases compact with
  | false =>
    refine reads_readByte_bind ((reads_readU32Le h.seq).bind ?_)
    exact (reads_readU32Le h.ack).bind_nil (Reads.pure _)
  | true =>
    obtain ⟨hseq, hack, hmask⟩ := compactFlags_bits h
    obtain ⟨s, hs, hs'⟩ := reads_compactField (x := h.seq) "reliable seq too large" hseq (by
      intro hp
      simp only [ReliableHeader.seqPresent, Bool.or_eq_false_iff, decide_eq_false_iff_not,
        not_not] at hp
      exact hp.2)
    obtain ⟨a, ha, ha'⟩ := reads_compactField (x := h.ack) "reliable ack too large" hack (by
      intro hp
      simp only [ReliableHeader.ackPresent, Bool.or_eq_false_iff, decide_eq_false_iff_not,
        not_not] at hp
      exact hp.1)
    refine reads_readByte_bind (hs.bind (ha.bind_nil ?_))
    rw [hs', ha', hmask, hflags rfl]
    exact Reads.pure h

/-- A header as the decoder sees it: the compact form keeps only the public flags. -/
def ReliableHeader.onWire : ReliableHeader :=
  if compact then { h with flags := h.flags &&& reliablePublicFlagsMask } else h

theorem ReliableHeader.onWire_of_public {h : ReliableHeader} (compact : Bool)
    (hflags : h.flags &&& reliablePublicFlagsMask = h.flags) : h.onWire compact = h := by
  unfold ReliableHeader.onWire
  rw [hflags, ite_self]

theorem ReliableHeader.onWire_ackOnly :
    (h.onWire compact).flags &&& reliableFlagAckOnly = h.flags &&& reliableFlagAckOnly := by
  cases compact with
  | false => rfl
  | true =>
    have hmask : ∀ f, f &&& reliablePublicFlagsMask &&& reliableFlagAckOnly =
        f &&& reliableFlagAckOnly := by decide +kernel
    exact hmask h.flags

theorem publicFlags_idem : ∀ f, f &&& reliablePublicFlagsMask &&& reliablePublicFlagsMask =
    f &&& reliablePublicFlagsMask := by decide +kernel

/-- The written bytes depend on the flags only through the public ones. -/
theorem writeReliableHeaderEncoded_onWire :
    writeReliableHeaderEncoded (h.onWire compact) compact = writeReliableHeaderEncoded h compact := by
  cases compact with
  | false => rfl
  | true =>
    have hack := h.onWire_ackOnly true
    have hseq : (h.onWire true).seqPresent = h.seqPresent := by
      simp only [ReliableHeader.seqPresent, hack]
      rfl
    have hackp : (h.onWire true).ackPresent = h.ackPresent := by
      simp only [ReliableHeader.ackPresent, hack]
      rfl
    have hflags : compactFlags (h.onWire true) = compactFlags h := by
      unfold compactFlags
      rw [hseq, hackp, show (h.onWire true).flags = h.flags &&& reliablePublicFlagsMask from rfl, publicFlags_idem]
    simp only [writeReliableHeaderEncoded, if_true, hseq, hackp, hflags]
    rfl

theorem reads_reliableHeader_onWire :
    Reads (readReliableHeaderEncoded compact) (writeReliableHeaderEncoded h compact) (h.onWire compact) := by
  rw [← writeReliableHeaderEncoded_onWire]
  apply reads_reliableHeader
  rintro rfl
  exact publicFlags_idem h.flags

theorem length_writeReliableHeaderEncoded :
    (writeReliableHeaderEncoded h compact).length = reliableWireSize h compact := by
  have hlen : ∀ (present : Bool) x,
      (if present then writeUleb128 x else []).length = if present then uleb128Size x else 0 := by
    intro present x
    cases present
    · rfl
    · exact length_writeUleb128 x
  unfold writeReliableHeaderEncoded reliableWireSize
  cases compact with
  | false => simp [writeReliableHeader, reliableHeaderBytes]
  | true =>
    rw [if_pos rfl, if_pos rfl, length_cons, length_append, hlen, hlen]
    unfold reliableCompactSize
    omega

theorem readU32Le_ok {c c' : Cursor} {x : UInt32} (h : readU32Le c = .ok (x, c')) :
    c.rest = leBytes 4 x.toNat ++ c'.rest ∧ c' = c.advance 4 := by
  obtain ⟨b, c₁, hb, h⟩ := bind_ok h
  obtain ⟨hlen, rfl, rfl⟩ := take_ok hb
  obtain ⟨rfl, rfl⟩ := pure_ok_inv h
  have hlength : (c.rest.take 4).length = 4 := by
    rw [length_take, Cursor.length_rest]
    omega
  have hlt := ofLe_lt (c.rest.take 4)
  have hle := leBytes_ofLe (c.rest.take 4)
  rw [hlength] at hlt hle
  rw [UInt32.toNat_ofNat_of_lt' hlt, hle, Cursor.rest_advance, take_append_drop]
  exact ⟨rfl, rfl⟩

/-- The fixed form has one encoding for each header. -/
theorem readReliableHeader_ok {c c' : Cursor} {h : ReliableHeader} (hread : readReliableHeader c = .ok (h, c')) :
    c.rest = writeReliableHeader h ++ c'.rest ∧ c' = c.advance (writeReliableHeader h).length := by
  obtain ⟨flags, c₁, h₁, hread⟩ := bind_ok hread
  obtain ⟨seq, c₂, h₂, hread⟩ := bind_ok hread
  obtain ⟨ack, c₃, h₃, hread⟩ := bind_ok hread
  obtain ⟨rfl, rfl⟩ := pure_ok_inv hread
  obtain ⟨hr₁, rfl⟩ := readByte_ok h₁
  obtain ⟨hr₂, rfl⟩ := readU32Le_ok h₂
  obtain ⟨hr₃, rfl⟩ := readU32Le_ok h₃
  rw [hr₁, hr₂, hr₃]
  simp [writeReliableHeader, Cursor.advance_advance]

theorem readU32Le_local : Local readU32Le := (readBytes_local 4).bind fun _ => Local.pure _

theorem readUleb32_local (msg : String) : Local (readUleb32 msg) :=
  readUleb128_local.bind fun _ => Local.ofOption _ _

/-- A reliable header is read from its own bytes only. -/
theorem readReliableHeaderEncoded_local : Local (readReliableHeaderEncoded compact) := by
  unfold readReliableHeaderEncoded
  split
  · exact readByte_local.bind fun _ => (Local.whenPresent _ (readUleb32_local _)).bind fun _ =>
      (Local.whenPresent _ (readUleb32_local _)).bind fun _ => Local.pure _
  · exact readByte_local.bind fun _ => readU32Le_local.bind fun _ =>
      readU32Le_local.bind fun _ => Local.pure _

end SedsNet
