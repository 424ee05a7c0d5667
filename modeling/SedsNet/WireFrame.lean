import SedsNet.MemoryAdmission
import SedsNet.Packet
import SedsNet.WireContract

/-! # Packing and unpacking frames

The frame encoder `with_packet_frame_parts` with its public entry points, and the full decoder
`unpack_packet_with_role` of `wire_format.rs`, in the order of the source.

What the crate takes from elsewhere is a parameter of the model (`WireEnv`): the CRC32 function,
the zstd codec, the registered crypto provider, the memory probe and the runtime configuration. -/

namespace SedsNet

open ByteCursor ByteWords

/-! ### The environment of the codec -/

/-- `zstd_safe`: both calls are given the capacity of their output buffer, and return what they
wrote. -/
structure Zstd where
  compress : (input : Bytes) → (capacity : ℕ) → Option Bytes
  decompress : (input : Bytes) → (capacity : ℕ) → Option Bytes

/-- The registered end-to-end crypto provider. -/
structure CryptoProvider where
  /-- The ciphertext and the tag of a plaintext. -/
  sealBytes : (keyId : UInt32) → (nonce aad plaintext : Bytes) → TelemetryResult (Bytes × Bytes)
  /-- The plaintext of a ciphertext, into a buffer of `len` bytes. -/
  openBytes : (keyId : UInt32) → (nonce aad ciphertext tag : Bytes) → (len : ℕ) → TelemetryResult Bytes

structure WireEnv where
  reg : Registry
  crc32 : Bytes → UInt32
  zstd : Zstd
  crypto : CryptoProvider
  probe : AdmissionProbe
  /-- `runtime_payload_compress_threshold()`. -/
  compressThreshold : ℕ

/-- Documented behaviour of the codec: what it compressed it decompresses into a buffer of the
original size, and a compressed frame is never empty. -/
structure Zstd.Inverts (z : Zstd) : Prop where
  decompress_compress : ∀ input capacity output, z.compress input capacity = some output →
    z.decompress output input.length = some input
  compress_ne_nil : ∀ input capacity output, z.compress input capacity = some output → output ≠ []

/-! ### Flags -/

abbrev flagCompressedPayload : UInt8 := 0x01
abbrev flagReliableHeaderPresent : UInt8 := 0x02
abbrev flagWireContract : UInt8 := 0x04
abbrev flagPacketNonce : UInt8 := 0x08
abbrev flagE2eEncryptedPayload : UInt8 := 0x10
abbrev flagEndpointBitmapPresent : UInt8 := 0x20
abbrev flagCompactReliableHeader : UInt8 := 0x40
abbrev flagEndpointListPresent : UInt8 := 0x80

def crc32Bytes : ℕ := 4
def e2eTagCap : ℕ := 32

/-! ### Checksums -/

def joinFrameWithCrc (env : WireEnv) (header payload : Bytes) : Bytes :=
  header ++ payload ++ leBytes 4 (env.crc32 (header ++ payload)).toNat

def appendCrc32 (env : WireEnv) (out : Bytes) : Bytes := out ++ leBytes 4 (env.crc32 out).toNat

def splitCrc32 (buf : Bytes) : TelemetryResult (Bytes × UInt32) :=
  if buf.length < crc32Bytes then .error (.unpack "short buffer")
  else
    let dataLen := buf.length - crc32Bytes
    .ok (buf.take dataLen, UInt32.ofNat (ofLe (buf.drop dataLen)))

def verifyCrc32 (env : WireEnv) (buf : Bytes) : TelemetryResult Bytes :=
  match splitCrc32 buf with
  | .error e => .error e
  | .ok (data, expected) =>
    if env.crc32 data ≠ expected then .error (.unpack "crc32 mismatch") else .ok data

/-! ### Payload compression -/

def compressToVecBounded (env : WireEnv) (input : Bytes) (maxOutput : ℕ) : Option Bytes :=
  if input = [] ∨ maxOutput = 0 then none else env.zstd.compress input maxOutput

def compressIfBeneficial (env : WireEnv) (payload : Bytes) : Bool × Bytes :=
  if payload.length < env.compressThreshold then (false, payload)
  else
    match compressToVecBounded env payload (payload.length - 2) with
    | none => (false, payload)
    | some compressed =>
      if payload.length ≤ compressed.length + 1 then (false, payload) else (true, compressed)

/-- `payload_compression::decompress`; the output vector cannot exceed `isize::MAX` bytes. -/
def decompress (env : WireEnv) (compressed : Bytes) (expectedLen : ℕ) : TelemetryResult Bytes :=
  if isizeMax < expectedLen then .error (.aborted "capacity overflow")
  else
    match env.zstd.decompress compressed expectedLen with
    | none => .error (.unpack "decompression failed")
    | some out =>
      if out.length ≠ expectedLen then .error (.unpack "decompressed size mismatch") else .ok out

variable {env : WireEnv}

theorem decompress_length {compressed out : Bytes} {expectedLen : ℕ}
    (h : decompress env compressed expectedLen = .ok out) : out.length = expectedLen := by
  unfold decompress at h
  split at h
  · cases h
  split at h
  · cases h
  split at h
  · cases h
  cases h
  exact not_not.mp ‹_›

/-- Discovery packets are never compressed. -/
def payloadForEncoding (env : WireEnv) (pkt : Packet) (compressionAllowed : Bool) : Bool × Bytes :=
  if compressionAllowed = false then (false, pkt.payload)
  else if isDiscoveryType pkt.ty then (false, pkt.payload)
  else compressIfBeneficial env pkt.payload

/-! ### Encrypted payloads -/

def e2eNonceForPacket (pkt : Packet) : Bytes :=
  leBytes 4 pkt.ty.toNat ++ leBytes 6 pkt.timestamp.toNat ++ leBytes 2 pkt.nonce.toNat

def writeEncryptedPayload (env : WireEnv) (pkt : Packet) (keyId : UInt32) (plaintext aad : Bytes) :
    TelemetryResult Bytes :=
  let nonce := e2eNonceForPacket pkt
  match env.crypto.sealBytes keyId nonce aad plaintext with
  | .error e => .error e
  | .ok (ciphertext, tag) =>
    if plaintext.length < ciphertext.length ∨ e2eTagCap < tag.length then
      .error .sizeMismatchError
    else
      .ok (aad ++ writeUleb128 keyId.toUInt64 ++ writeUleb128 (UInt64.ofNat plaintext.length) ++
        writeUleb128 (UInt64.ofNat nonce.length) ++ nonce ++
        writeUleb128 (UInt64.ofNat tag.length) ++ tag ++ ciphertext)

/-- The bytes read so far, as associated data. -/
def consumed : ByteReader Bytes := fun c => .ok (c.buf.take c.off, c)

/-- The parts of an encrypted payload, with the header in front of it. -/
structure SealedFields where
  aad : Bytes
  keyId : UInt32
  wirePayloadLen : UInt64
  nonce : Bytes
  tag : Bytes
  ciphertext : Bytes
deriving DecidableEq

/-- The reading part of `read_encrypted_payload`. -/
def readSealedFields (plaintextLen : ℕ) : ByteReader SealedFields := do
  let aad ← consumed
  let keyId ← readUleb32 "e2e key id too large"
  let wirePayloadLen ← readUleb128
  failIf (plaintextLen < wirePayloadLen.toNat) (.unpack "bad e2e payload length")
  let nonceLen ← readUleb128
  failIf (nonceLen.toNat = 0 ∨ 64 < nonceLen.toNat) (.unpack "bad e2e nonce length")
  let nonce ← readBytes nonceLen.toNat
  let tagLen ← readUleb128
  failIf (tagLen.toNat = 0 ∨ e2eTagCap < tagLen.toNat) (.unpack "bad e2e tag length")
  let tag ← readBytes tagLen.toNat
  let ciphertextLen ← remaining
  let ciphertext ← readBytes ciphertextLen
  return { aad, keyId, wirePayloadLen, nonce, tag, ciphertext }

def readEncryptedPayload (env : WireEnv) (plaintextLen : ℕ) : ByteReader Bytes := do
  let f ← readSealedFields plaintextLen
  failIf (isizeMax < f.wirePayloadLen.toNat) (.aborted "capacity overflow")
  let plaintext ← ofResult
    (env.crypto.openBytes f.keyId f.nonce f.aad f.ciphertext f.tag f.wirePayloadLen.toNat)
  failIf (plaintext.length ≠ f.wirePayloadLen.toNat) .sizeMismatchError
  return plaintext

/-! ### The encoder -/

/-- Whether a packet names its endpoints on the wire instead of leaving them to the schema. -/
def packetEndpointBitmapPresent (env : WireEnv) (pkt : Packet) (shape : Option MessageElement)
    (targets : List UInt64) : Bool :=
  let carriesWireContract := shape.isSome || targets != []
  let fixedControlEndpoints := pkt.ty == .reliableAck || pkt.ty == .reliablePartialAck ||
    pkt.ty == .reliablePacketRequest
  decide (DataType.p2pMessage < pkt.ty) || !endpointsMatchSchema env.reg pkt.ty pkt.endpoints ||
    (carriesWireContract && !fixedControlEndpoints)

/-- The FLAGS byte of a frame. -/
def frameFlags (compressed contract nonce list bitmap reliable compact encrypted : Bool) : UInt8 :=
  (if compressed then flagCompressedPayload else 0) ||| (if contract then flagWireContract else 0) |||
    (if nonce then flagPacketNonce else 0) |||
    (if list then flagEndpointListPresent else if bitmap then flagEndpointBitmapPresent else 0) |||
    (if reliable then flagReliableHeaderPresent else 0) |||
    (if compact then flagCompactReliableHeader else 0) |||
    (if encrypted then flagE2eEncryptedPayload else 0)

/-- The reliable section of a frame. -/
def reliableSection : Option ReliableHeader → Bytes
  | some hdr => writeReliableHeaderEncoded hdr (shouldCompactReliableHeader hdr)
  | none => []

/-- The header bytes that `with_packet_frame_parts` writes, section by section. -/
def frameHeader (env : WireEnv) (pkt : Packet) (reliable : Option ReliableHeader)
    (shape : Option MessageElement) (targets : List UInt64) (compressed encrypted : Bool) : Bytes :=
  let carriesWireContract := shape.isSome || targets != []
  let bitmapPresent := packetEndpointBitmapPresent env pkt shape targets
  let listPresent := bitmapPresent && explicitEndpointList pkt.endpoints
  let contractBytes := wireContractSize shape targets
  frameFlags compressed carriesWireContract (pkt.nonce != 0) listPresent bitmapPresent
      reliable.isSome (reliable.any shouldCompactReliableHeader) encrypted ::
    UInt8.ofNat (uniqueSortedEndpoints pkt.endpoints).length ::
    (writeUleb128 pkt.ty.toUInt64 ++ (writeUleb128 (UInt64.ofNat pkt.dataSize) ++
    (writeUleb128 pkt.timestamp ++
    ((if pkt.nonce ≠ 0 then writeUleb128 pkt.nonce.toUInt64 else []) ++
    (writeUleb128 (senderAddressU32 pkt.sender).toUInt64 ++
    ((if listPresent then writeEndpointList (uniqueSortedEndpoints pkt.endpoints)
      else if bitmapPresent then buildEndpointBitmap pkt.endpoints else []) ++
    ((if carriesWireContract then writeUleb128 (UInt64.ofNat contractBytes) ++
        writeWireContract shape targets reliable.isSome else []) ++
    reliableSection reliable)))))))

/-- `with_packet_frame_parts`: the header and the payload bytes of a frame.  `e2e` is the key id of
a sealed packet, whose encrypted payload becomes part of the first component. -/
def withPacketFrameParts (env : WireEnv) (pkt : Packet) (reliable : Option ReliableHeader)
    (shape : Option MessageElement) (targets : List UInt64) (e2e : Option UInt32)
    (compressionAllowed : Bool) : TelemetryResult (Bytes × Bytes) :=
  let (payloadCompressed, payloadWire) := payloadForEncoding env pkt compressionAllowed
  if 255 < (uniqueSortedEndpoints pkt.endpoints).length then
    .error (.aborted "too many endpoints selected to fit in NEP u8")
  else
    let out := frameHeader env pkt reliable shape targets payloadCompressed e2e.isSome
    match e2e with
    | some keyId =>
      match writeEncryptedPayload env pkt keyId payloadWire out with
      | .error e => .error e
      | .ok sealedFrame => .ok (sealedFrame, [])
    | none => .ok (out, payloadWire)

def packPacketInnerWithContract (env : WireEnv) (pkt : Packet) (reliable : Option ReliableHeader)
    (shape : Option MessageElement) (targets : List UInt64) (e2e : Option UInt32)
    (compressionAllowed : Bool) : TelemetryResult Bytes :=
  match withPacketFrameParts env pkt reliable shape targets e2e compressionAllowed with
  | .error e => .error e
  | .ok (header, payload) => .ok (joinFrameWithCrc env header payload)

/-- `pack_packet_inner`: the packet's own contract, no encryption. -/
def packPacketInner (env : WireEnv) (pkt : Packet) (reliable : Option ReliableHeader) :
    TelemetryResult Bytes :=
  packPacketInnerWithContract env pkt reliable pkt.wireShape pkt.targetSenders none true

def packPacketWithReliable (env : WireEnv) (pkt : Packet) (header : ReliableHeader) :
    TelemetryResult Bytes := packPacketInner env pkt (some header)

/-- Reliable types get an unsequenced header. -/
def packPacket (env : WireEnv) (pkt : Packet) : TelemetryResult Bytes :=
  if env.reg.isReliableType pkt.ty then
    packPacketWithReliable env pkt ⟨reliableFlagUnsequenced, 0, 0⟩
  else packPacketInner env pkt none

/-- The router's replay basis: never compressed. -/
def packRoutedPacket (env : WireEnv) (pkt : Packet) (reliable : Option ReliableHeader)
    (shape : Option MessageElement) (targets : List UInt64) (e2e : Option UInt32) :
    TelemetryResult Bytes :=
  packPacketInnerWithContract env pkt reliable shape targets e2e false

/-- An ACK-only control frame. -/
def packReliableAck (env : WireEnv) (sender : Bytes) (ty : DataType) (timestampMs : UInt64)
    (ack : UInt32) : Bytes :=
  let reliable : ReliableHeader := ⟨reliableFlagAckOnly, 0, ack⟩
  let compact := shouldCompactReliableHeader reliable
  let flags := flagEndpointListPresent ||| flagReliableHeaderPresent |||
    (if compact then flagCompactReliableHeader else 0)
  appendCrc32 env (flags :: 0 :: (writeUleb128 ty.toUInt64 ++ (writeUleb128 0 ++
    (writeUleb128 timestampMs ++ (writeUleb128 (senderAddressU32 sender).toUInt64 ++
    writeReliableHeaderEncoded reliable compact)))))

/-! ### The decoder -/

/-- A ULEB128 integer that must fit a `u16`. -/
def readUleb16 (msg : String) : ByteReader UInt16 := do
  let v ← readUleb128
  ofOption (tryU16 v) (.unpack msg)

/-- `data_type_id_from_wire`. -/
def dataTypeIdFromWire (v : UInt64) : TelemetryResult UInt32 :=
  match tryU32 v with
  | some ty => .ok ty
  | none => .error (.unpack "type too large")

/-- The reliable header of a frame that must carry a packet. -/
def readDataReliableHeader (compact : Bool) : ByteReader ReliableHeader := do
  let hdr ← readReliableHeaderEncoded compact
  failIf (hdr.flags &&& reliableFlagAckOnly ≠ 0) (.unpack "reliable control frame")
  return hdr

/-- The memory admission before the payload is allocated. -/
def admitDecode (env : WireEnv) (bufLen : ℕ) (managed : Bool) (flags : UInt8) (ty : DataType)
    (nep dsz left : ℕ) (eps : List DataEndpoint) (contract : WireContract)
    (reliable : Option ReliableHeader) : TelemetryResult Unit :=
  let payloadCopies := (if flags &&& flagCompressedPayload ≠ 0 then 3 else 1) +
    (if flags &&& flagE2eEncryptedPayload ≠ 0 then 1 else 0)
  let smallAck := (ty == .reliableAck || ty == .reliablePartialAck) && decide (dsz ≤ 32) &&
    decide (payloadCopies = 1)
  let owners := (contract.targetSenders.getD []).length
  if env.probe.supportsWorkKinds = true ∧ smallAck = false ∧ bufLen ≤ 128 ∧ flags &&& 0x11 = 0 ∧
      (protectedDiscoveryRequestShape env.reg ty (decide (dsz = 0) && decide (left = 0))
          (eps == [discoveryEndpoint]) owners contract.shape ||
        protectedControlShape env.reg ty nep owners contract.shape reliable.isSome managed) = true then
    env.probe.checkSmallProtectedDecode 0 bufLen
  else
    env.probe.check 0 (if smallAck then 512 else satAdd (satMul dsz payloadCopies) 512)
      (satAdd dsz 32)

/-- The payload bytes as they stand in the frame, after decryption. -/
def readPayloadWire (env : WireEnv) (flags : UInt8) (dsz : ℕ) : ByteReader Bytes :=
  if flags &&& flagE2eEncryptedPayload ≠ 0 then readEncryptedPayload env dsz
  else if flags &&& flagCompressedPayload = 0 then readBytes dsz
  else do
    let compLen ← remaining
    readBytes compLen

/-- The logical payload. -/
def readPayload (env : WireEnv) (flags : UInt8) (dsz : ℕ) : ByteReader Bytes := do
  let payloadWire ← readPayloadWire env flags dsz
  if flags &&& flagCompressedPayload ≠ 0 then do
    let decompressed ← ofResult (decompress env payloadWire dsz)
    ofResult (env.probe.check 1 (satAdd dsz 512) (satAdd dsz 32))
    return decompressed
  else do
    failIf (payloadWire.length ≠ dsz) (.unpack "payload length mismatch")
    return payloadWire

/-- The short-buffer test ahead of the endpoints; the sum is a `usize` addition. -/
def shortBuffer (flags : UInt8) (left dsz : ℕ) : Bool :=
  let endpointBytes := if flags &&& flagEndpointBitmapPresent ≠ 0 then epBitmapBytes else 0
  if flags &&& flagCompressedPayload = 0 then decide (left < wrapAdd endpointBytes dsz)
  else decide (left < endpointBytes + 1)

/-- The arguments with which the decoder calls the constructor. -/
structure PacketParts where
  ty : DataType
  endpoints : List DataEndpoint
  sender : Bytes
  timestamp : UInt64
  nonce : UInt16
  payload : Bytes
  wireShape : Option MessageElement
  wireTargetSenders : Option (List UInt64)

/-- `unpack_packet_with_role` between the checksum and the constructor. -/
def unpackParts (env : WireEnv) (book : AddressBook) (bufLen : ℕ) (managed : Bool) : ByteReader PacketParts := do
  let flags ← readByte
  let nep ← readByte
  let tyV ← readUleb128
  let dsz ← readUleb128
  let ts ← readUleb128
  let nonce ← whenPresent (flags &&& flagPacketNonce ≠ 0) (readUleb16 "packet nonce too large")
  let sourceAddress ← readUleb32 "source address too large"
  let ty32 ← ofResult (dataTypeIdFromWire tyV)
  let left ← remaining
  failIf (shortBuffer flags left dsz.toNat = true) (.unpack "short buffer")
  let eps ← endpointsFromWireOrSchema env.reg (flags &&& flagEndpointBitmapPresent ≠ 0)
    (flags &&& flagEndpointListPresent ≠ 0) (env.reg.tryDataType ty32) nep.toNat
  let contract ← decodeWireContract (flags &&& flagWireContract ≠ 0)
  let ty ← ofOption ((env.reg.tryDataType ty32).or (contract.shape.map fun _ => ty32)) .invalidType
  let reliable ← whenPresent
    (flags &&& flagReliableHeaderPresent ≠ 0 ∨ contract.hasReliableHeader = true)
    (readDataReliableHeader (flags &&& flagCompactReliableHeader ≠ 0))
  let left ← remaining
  ofResult (admitDecode env bufLen managed flags ty nep.toNat dsz.toNat left eps contract reliable)
  let payload ← readPayload env flags dsz.toNat
  return ⟨ty, eps, book.senderNameForAddress sourceAddress, ts, nonce.getD 0, payload, contract.shape,
    contract.targetSenders⟩

def unpackBody (env : WireEnv) (book : AddressBook) (bufLen : ℕ) (managed : Bool) : ByteReader Packet := do
  let p ← unpackParts env book bufLen managed
  ofResult (Packet.newWithOwnedWireContract env.reg p.ty p.endpoints p.sender p.timestamp p.nonce p.payload
    p.wireShape p.wireTargetSenders)

/-- What a reader makes of the bytes in front of the checksum. -/
def unpackChecked {α : Type} (env : WireEnv) (buf : Bytes) (reader : ByteReader α) : TelemetryResult α :=
  match verifyCrc32 env buf with
  | .error e => .error e
  | .ok data => if data = [] then .error (.unpack "short prelude") else eval reader (Cursor.start data)

def unpackPacketWithRole (env : WireEnv) (book : AddressBook) (buf : Bytes) (managed : Bool) :
    TelemetryResult Packet :=
  unpackChecked env buf (unpackBody env book buf.length managed)

def unpackPacket (env : WireEnv) (book : AddressBook) (buf : Bytes) : TelemetryResult Packet :=
  unpackPacketWithRole env book buf false

/-! ### Checksum facts -/

variable {buf data : Bytes}

theorem verifyCrc32_ok (h : verifyCrc32 env buf = .ok data) : 4 ≤ buf.length ∧ data = buf.take (buf.length - 4) := by
  unfold verifyCrc32 splitCrc32 crc32Bytes at h
  split_ifs at h with hlen
  simp only at h
  split at h
  · cases h
  cases h
  exact ⟨Nat.not_lt.mp hlen, rfl⟩

theorem take_appendCrc32 (env : WireEnv) (data : Bytes) :
    (appendCrc32 env data).take ((appendCrc32 env data).length - crc32Bytes) = data := by
  simp [appendCrc32, crc32Bytes]

theorem verifyCrc32_append (env : WireEnv) (data : Bytes) : verifyCrc32 env (appendCrc32 env data) = .ok data := by
  have hlen : (appendCrc32 env data).length = data.length + 4 := by
    rw [appendCrc32, List.length_append, length_leBytes]
  have hfit : (env.crc32 data).toNat < 256 ^ 4 := (env.crc32 data).toNat_lt
  unfold verifyCrc32 splitCrc32 crc32Bytes
  rw [if_neg (by omega), hlen, Nat.add_sub_cancel]
  unfold appendCrc32
  simp only [List.take_left, List.drop_left, ofLe_leBytes_of_lt hfit,
    UInt32.ofNat_toNat, ne_eq, not_true_eq_false, if_false]

variable {book : AddressBook} {managed : Bool} {p : Packet}

theorem unpackChecked_ok {α : Type} {reader : ByteReader α} {r : α} (h : unpackChecked env buf reader = .ok r) :
    ∃ data c', verifyCrc32 env buf = .ok data ∧ data ≠ [] ∧ reader (Cursor.start data) = .ok (r, c') := by
  unfold unpackChecked at h
  split at h
  · cases h
  rename_i data hverify
  split_ifs at h with hnil
  obtain ⟨c', hrun⟩ := eval_ok h
  exact ⟨data, c', hverify, hnil, hrun⟩

theorem unpackPacketWithRole_ok (h : unpackPacketWithRole env book buf managed = .ok p) :
    ∃ data c', verifyCrc32 env buf = .ok data ∧ data ≠ [] ∧
      unpackBody env book buf.length managed (Cursor.start data) = .ok (p, c') := unpackChecked_ok h

theorem unpackPacketWithRole_append {c' : Cursor} (hne : data ≠ [])
    (h : unpackBody env book (appendCrc32 env data).length managed (Cursor.start data) =
      .ok (p, c')) : unpackPacketWithRole env book (appendCrc32 env data) managed = .ok p := by
  rw [unpackPacketWithRole, unpackChecked, verifyCrc32_append]
  simp only [hne, if_false]
  exact eval_of_ok h

/-! ### A reference environment -/

/-- One bit of the reflected CRC32 with polynomial `0xEDB88320`. -/
def crc32Bit (crc : UInt32) : UInt32 :=
  if crc &&& 1 ≠ 0 then (crc >>> 1) ^^^ 0xEDB88320 else crc >>> 1

/-- The function `crc32fast::hash` computes. -/
def crc32Ieee (bytes : Bytes) : UInt32 :=
  bytes.foldl (fun crc byte => crc32Bit^[8] (crc ^^^ byte.toUInt32)) 0xFFFFFFFF ^^^ 0xFFFFFFFF

example : crc32Ieee [0x31, 0x32, 0x33, 0x34, 0x35, 0x36, 0x37, 0x38, 0x39] = 0xCBF43926 := by
  decide +kernel

/-- A codec without compression, encryption or a memory probe. -/
def plainEnv (reg : Registry) : WireEnv where
  reg := reg
  crc32 := crc32Ieee
  zstd := ⟨fun _ _ => none, fun _ _ => none⟩
  crypto := ⟨fun _ _ _ _ => .error .badArg, fun _ _ _ _ _ _ => .error .badArg⟩
  probe := .absent
  compressThreshold := 16

theorem plainEnv_inverts (reg : Registry) : (plainEnv reg).zstd.Inverts :=
  ⟨fun _ _ _ h => (Option.some_ne_none _ h.symm).elim, fun _ _ _ h => (Option.some_ne_none _ h.symm).elim⟩

theorem plainEnv_granting (reg : Registry) : (plainEnv reg).probe.Granting :=
  AdmissionProbe.granting_absent

end SedsNet
