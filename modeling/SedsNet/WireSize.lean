import SedsNet.WireRoundTrip

/-! # Frame sizes and payload sizes

The size helpers `header_size_bytes` and `packet_wire_size` of `wire_format.rs`, which add up the
length of a frame without building it, and the proof that the sum is the length of the frame that
`pack_packet` builds.  The encoder's header is a concatenation of sections (`frameHeader`).  Each
section has its own length lemma, and the walk over the sizes follows the walk over the sections.

The decoder's size test for a static element multiplies a 64-bit count from the wire by the element
width in machine arithmetic; the last section says when the product is the payload's length. -/

namespace SedsNet

open ByteCursor ByteWords List

/-! ### The size helpers -/

section

variable (env : WireEnv) (pkt : Packet) (reliable : Option ReliableHeader) (shape : Option MessageElement)
  (targets : List UInt64)

/-- The metadata in front of the endpoints. -/
def headerSizeBytes : ℕ :=
  2 + uleb128Size pkt.ty.toUInt64 + uleb128Size (UInt64.ofNat pkt.dataSize) +
    uleb128Size pkt.timestamp + (if pkt.nonce ≠ 0 then uleb128Size pkt.nonce.toUInt64 else 0) +
    uleb128Size (senderAddressU32 pkt.sender).toUInt64

/-- The bytes of the endpoint section. -/
def endpointLen : ℕ :=
  if packetEndpointBitmapPresent env pkt shape targets then
    if explicitEndpointList pkt.endpoints then endpointListSize pkt.endpoints else epBitmapBytes
  else 0

/-- The bytes of the wire contract with its length in front. -/
def contractLen : ℕ :=
  if shape.isSome || targets != [] then
    uleb128Size (UInt64.ofNat (wireContractSize shape targets)) + wireContractSize shape targets
  else 0

/-- The bytes of the reliable section. -/
def reliableLen : Option ReliableHeader → ℕ
  | some hdr => reliableWireSize hdr (shouldCompactReliableHeader hdr)
  | none => 0

/-- The reliable header that `pack_packet` writes on its own. -/
def defaultReliable : Option ReliableHeader :=
  if env.reg.isReliableType pkt.ty then some ⟨reliableFlagUnsequenced, 0, 0⟩ else none

/-- `packet_wire_size`. -/
def packetWireSize : ℕ :=
  let shape := pkt.wireShape
  let targets := pkt.targetSenders
  let (_, payloadWire) := payloadForEncoding env pkt true
  headerSizeBytes pkt + endpointLen env pkt shape targets + contractLen shape targets +
    reliableLen (defaultReliable env pkt) + payloadWire.length + crc32Bytes

/-! ### The sections of the header -/

theorem length_writeEndpointList (eps : List DataEndpoint) :
    (writeEndpointList eps).length = (eps.map fun ep => uleb128Size ep.toUInt64).sum := by
  simp only [writeEndpointList, length_flatMap, length_writeUleb128]

theorem length_endpointSection :
    (if packetEndpointBitmapPresent env pkt shape targets && explicitEndpointList pkt.endpoints then
      writeEndpointList (uniqueSortedEndpoints pkt.endpoints)
      else if packetEndpointBitmapPresent env pkt shape targets then
        buildEndpointBitmap pkt.endpoints else []).length = endpointLen env pkt shape targets := by
  unfold endpointLen
  cases hbitmap : packetEndpointBitmapPresent env pkt shape targets with
  | false => rfl
  | true =>
    cases hlist : explicitEndpointList pkt.endpoints with
    | false => exact (buildEndpointBitmap_spec pkt.endpoints).1
    | true => exact length_writeEndpointList _

theorem length_contractSection (rel : Bool) : (if shape.isSome || targets != [] then
      writeUleb128 (UInt64.ofNat (wireContractSize shape targets)) ++
        writeWireContract shape targets rel else []).length = contractLen shape targets := by
  unfold contractLen
  split
  · rw [length_append, length_writeUleb128, length_writeWireContract]
  · rfl

theorem length_reliableSection : (reliableSection reliable).length = reliableLen reliable := by
  cases reliable with
  | none => rfl
  | some hdr => exact length_writeReliableHeaderEncoded hdr _

theorem length_nonceSection (nonce : UInt16) : (if nonce ≠ 0 then writeUleb128 nonce.toUInt64 else []).length =
      if nonce ≠ 0 then uleb128Size nonce.toUInt64 else 0 := by
  split
  · exact length_writeUleb128 _
  · rfl

/-- The header is as long as its sections, whatever the flags say about the payload. -/
theorem length_frameHeader (compressed encrypted : Bool) :
    (frameHeader env pkt reliable shape targets compressed encrypted).length =
      headerSizeBytes pkt + endpointLen env pkt shape targets + contractLen shape targets + reliableLen reliable := by
  unfold frameHeader headerSizeBytes
  simp only [length_cons, length_append, length_writeUleb128, length_nonceSection,
    length_endpointSection, length_contractSection, length_reliableSection]
  omega

theorem length_joinFrameWithCrc (header payload : Bytes) :
    (joinFrameWithCrc env header payload).length = header.length + payload.length + crc32Bytes := by
  rw [joinFrameWithCrc, length_append, length_append, length_leBytes, crc32Bytes]

/-! ### Packed frames -/

/-- An unencrypted packet with at most 255 endpoints is packed, and its length is the sum of the
sizes. -/
theorem packPacketInner_length (heps : (uniqueSortedEndpoints pkt.endpoints).length ≤ 255) :
    ∃ frame, packPacketInner env pkt reliable = .ok frame ∧
      frame.length = headerSizeBytes pkt + endpointLen env pkt pkt.wireShape pkt.targetSenders +
        contractLen pkt.wireShape pkt.targetSenders + reliableLen reliable +
        (payloadForEncoding env pkt true).2.length + crc32Bytes := by
  unfold packPacketInner packPacketInnerWithContract withPacketFrameParts
  generalize payloadForEncoding env pkt true = encoded
  simp only [if_neg (Nat.not_lt.mpr heps)]
  refine ⟨_, rfl, ?_⟩
  rw [length_joinFrameWithCrc, length_frameHeader]

theorem packPacket_eq : packPacket env pkt = packPacketInner env pkt (defaultReliable env pkt) := by
  unfold packPacket defaultReliable
  split <;> rfl

/-- The predicted size of a packet is the length of its frame. -/
theorem packed_length (heps : (uniqueSortedEndpoints pkt.endpoints).length ≤ 255) :
    ∃ frame, packPacket env pkt = .ok frame ∧ frame.length = packetWireSize env pkt := by
  rw [packPacket_eq]
  exact packPacketInner_length env pkt (defaultReliable env pkt) heps

theorem packed_length_sample : (uniqueSortedEndpoints samplePacket.endpoints).length ≤ 255 ∧
    ∃ frame, packPacket (plainEnv sampleRegistry) samplePacket = .ok frame ∧
      frame.length = packetWireSize (plainEnv sampleRegistry) samplePacket :=
  ⟨by decide +kernel, packed_length _ _ (by decide +kernel)⟩

theorem packPacket_crowded {pkt : Packet}
    (heps : 255 < (uniqueSortedEndpoints pkt.endpoints).length) : packPacket env pkt =
      .error (.aborted "too many endpoints selected to fit in NEP u8") := by
  rw [packPacket_eq, packPacketInner, packPacketInnerWithContract, withPacketFrameParts]
  simp only [if_pos heps]

/-- A packet for 256 endpoints. -/
def crowdedPacket : Packet :=
  { publishedPacket 3 with endpoints := (List.range 256).map UInt32.ofNat, endpoints_ne_nil := by decide +kernel }

theorem length_crowdedEndpoints : (uniqueSortedEndpoints crowdedPacket.endpoints).length = 256 := by
  have hasc : strictlyAscending crowdedPacket.endpoints = true := by decide +kernel
  rw [uniqueSortedEndpoints_of_pairwise ((strictlyAscending_iff _).mp hasc)]
  simp only [crowdedPacket, length_map, length_range]

/-- The constructor accepts such a packet, but the encoder stops at the endpoint count, which has one
byte. -/
theorem crowded_not_packed : Packet.newWithOwnedWireContract sampleRegistry 100 ((List.range 256).map UInt32.ofNat)
        [0x47, 0x53] 7 3 [0xAA, 0xBB] none none = .ok crowdedPacket ∧
      packPacket (plainEnv sampleRegistry) crowdedPacket =
        .error (.aborted "too many endpoints selected to fit in NEP u8") := by
  refine ⟨rfl, packPacket_crowded _ ?_⟩
  rw [length_crowdedEndpoints]
  decide

/-! ### Static payloads of decoded frames -/

/-- The element a packet is read against: its own wire shape before the schema's. -/
def Packet.effectiveElement (reg : Registry) (pkt : Packet) : MessageElement :=
  pkt.wireShape.getD (reg.messageMeta pkt.ty).element

/-- The element against which the decoder tests the size of the payload, if it gets that far. -/
def sizeTested (book : AddressBook) (buf : Bytes) : TelemetryResult MessageElement :=
  unpackChecked env buf do
    let p ← unpackParts env book buf.length false
    failIf (p.endpoints = []) .emptyEndpoints
    return p.wireShape.getD (env.reg.messageMeta p.ty).element

end

variable {env : WireEnv} {book : AddressBook} {buf : Bytes} {pkt : Packet}

/-- The packet of an accepted buffer has passed the test of its size. -/
theorem validated_of_unpacked (h : unpackPacket env book buf = .ok pkt) :
    sizeTested env book buf = .ok (pkt.effectiveElement env.reg) ∧
      validatePayloadAgainstElement env.reg (pkt.effectiveElement env.reg) pkt.payload = .ok () := by
  obtain ⟨data, c', hverify, hne, hrun⟩ := unpackPacketWithRole_ok h
  obtain ⟨parts, c, hparts, hbuild⟩ := bind_ok hrun
  obtain ⟨hnew, -⟩ := ofResult_ok hbuild
  obtain ⟨hty, heps, -, -, -, hpayload, hshape, -, hvalid⟩ := Packet.newWithOwnedWireContract_ok hnew
  rw [Packet.effectiveElement, hty, hshape, hpayload]
  refine ⟨?_, hvalid⟩
  rw [sizeTested, unpackChecked, hverify]
  dsimp only
  rw [if_neg hne]
  refine @eval_of_ok _ _ _ _ _ c ((bind_of_ok hparts).trans ?_)
  rw [failIf_bind (heps ▸ pkt.endpoints_ne_nil), pure_ok]

theorem static_length_of_valid {reg : Registry} {count : UInt64} {dt : MessageDataType}
    {cls : MessageClass} {payload : Bytes}
    (h : validatePayloadAgainstElement reg (.static count dt cls) payload = .ok ()) :
    payload.length = wrapMul count.toNat (reg.dataTypeSize dt) := by
  simp only [validatePayloadAgainstElement] at h
  by_contra hne
  rw [if_pos hne] at h
  cases h

/-- The largest number of elements whose size is a `usize`. -/
def CountFits (reg : Registry) (count : UInt64) (dt : MessageDataType) : Prop :=
  reg.dataTypeSize dt = 0 ∨ count.toNat ≤ (2 ^ 64 - 1) / reg.dataTypeSize dt

theorem wrapMul_eq_iff {reg : Registry} {count : UInt64} {dt : MessageDataType} :
    wrapMul count.toNat (reg.dataTypeSize dt) = count.toNat * reg.dataTypeSize dt ↔ CountFits reg count dt := by
  have hwrap : ∀ n, n % 2 ^ 64 = n ↔ n ≤ 2 ^ 64 - 1 := by omega
  refine (hwrap _).trans ?_
  rcases Nat.eq_zero_or_pos (reg.dataTypeSize dt) with hzero | hpos
  · simp [CountFits, hzero]
  · rw [CountFits, or_iff_right hpos.ne', Nat.le_div_iff_mul_le hpos]

/-- **Static sizes**: the payload of an accepted buffer is exactly as long as its static element says,
and the size test of no accepted or refused buffer wraps, exactly if the count it tests fits. -/
theorem unpacked_static_size (env : WireEnv) (book : AddressBook) (buf : Bytes) :
    ((∀ pkt count dt cls, unpackPacket env book buf = .ok pkt → pkt.effectiveElement env.reg = .static count dt cls →
          count.toNat * env.reg.dataTypeSize dt = pkt.payload.length) ∧
        ∀ count dt cls, sizeTested env book buf = .ok (.static count dt cls) →
          wrapMul count.toNat (env.reg.dataTypeSize dt) = count.toNat * env.reg.dataTypeSize dt) ↔
      ∀ count dt cls, sizeTested env book buf = .ok (.static count dt cls) → CountFits env.reg count dt := by
  constructor
  · intro h count dt cls htested
    exact wrapMul_eq_iff.mp (h.2 count dt cls htested)
  · intro h
    refine ⟨fun pkt count dt cls hunpack helement => ?_,
      fun count dt cls htested => wrapMul_eq_iff.mpr (h count dt cls htested)⟩
    obtain ⟨htested, hvalid⟩ := validated_of_unpacked hunpack
    rw [helement] at htested hvalid
    rw [static_length_of_valid hvalid, wrapMul_eq_iff.mpr (h count dt cls htested)]

/-- A frame of the sample type without payload whose wire shape announces `2 ^ 63` elements of two
bytes. -/
def wrappingFrame : Bytes :=
  appendCrc32 (plainEnv sampleRegistry)
    [0x84, 0x02, 0x64, 0x00, 0x07, 0x09, 0x05, 0x06, 0x0C, 0x02, 0x43, 0x80, 0x80, 0x80, 0x80, 0x80,
      0x80, 0x80, 0x80, 0x80, 0x01]

/-- The packet it decodes to. -/
def wrappingPacket : Packet :=
  { unknownTypePacket with
    ty := 100, sender := addressAlias ++ [0x39], endpoints := [5, 6], timestamp := 7,
    wireShape := some (.static 0x8000000000000000 .uint16 .data), endpoints_ne_nil := by decide }

/-- The frame is accepted: the product of the size test wraps to the length of the empty payload. -/
theorem wrapped_static_size : unpackPacket (plainEnv sampleRegistry) .empty wrappingFrame = .ok wrappingPacket ∧
      wrappingPacket.effectiveElement sampleRegistry = .static 0x8000000000000000 .uint16 .data ∧
      (0x8000000000000000 : UInt64).toNat * sampleRegistry.dataTypeSize .uint16 = 2 ^ 64 ∧
      wrapMul (0x8000000000000000 : UInt64).toNat (sampleRegistry.dataTypeSize .uint16) = 0 ∧
      wrappingPacket.payload.length = 0 := by
  decide +kernel

end SedsNet
