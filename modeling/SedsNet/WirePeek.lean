import SedsNet.WireFrame

/-! # Header-only parsers

The walks over a frame that stop before the payload (`wire_format.rs`): the routing envelope with
its public views `peek_envelope`, `peek_frame_info` and `peek_routing_frame_info`, the reliable
header span, the scheduling shortcut, and the packet identity computed from the wire.  Each is
written in the source independently of `unpack_packet`, and is modelled so here. -/

namespace SedsNet

open ByteCursor ByteWords

/-! ### The routing envelope -/

/-- Where the routing envelope takes its endpoints from. -/
inductive RoutingEndpoints where
  /-- The bytes of an explicit list. -/
  | list (bytes : Bytes)
  /-- The four 64-bit words of the bitmap. -/
  | bitmap (words : List ℕ)
  /-- The endpoints the schema lists for the type. -/
  | schema (endpoints : List DataEndpoint)
deriving DecidableEq, Repr

/-- The endpoint iterator of the envelope. -/
def RoutingEndpoints.iter : RoutingEndpoints → List DataEndpoint
  | list bytes => endpointListIter bytes
  | bitmap words => (expandWords 64 0 words).map UInt32.ofNat
  | schema endpoints => uniqueSortedEndpoints endpoints

structure RoutingEnvelope where
  ty : DataType
  endpointSource : RoutingEndpoints
  sourceAddress : UInt32
  timestampMs : UInt64
  wireShape : Option MessageElement
  isReliable : Bool
  payloadIsEmpty : Bool
  targets : Bytes
  hasReliableHeader : Bool
deriving DecidableEq, Repr

namespace RoutingEnvelope

def endpoints (e : RoutingEnvelope) : List DataEndpoint := e.endpointSource.iter

/-- The targets as eight-byte words; an incomplete last word is dropped. -/
def targetSenders (e : RoutingEnvelope) : List UInt64 := decodeTargets e.targets

end RoutingEnvelope

def bitmapWords (bytes : Bytes) : List ℕ := (chunks 8 (epBitmapBytes / 8) bytes).map ofLe

variable (reg : Registry) (env : WireEnv) (book : AddressBook) (buf : Bytes) (flags : UInt8)

/-- The endpoint section as the routing envelope reads it. -/
def readRoutingEndpoints (ty : DataType) (nep : ℕ) : ByteReader RoutingEndpoints :=
  if flags &&& flagEndpointListPresent ≠ 0 then do
    failIf (flags &&& flagEndpointBitmapPresent ≠ 0) (.unpack "ambiguous endpoint encoding")
    let bytes ← readEndpointList nep
    return .list bytes
  else if flags &&& flagEndpointBitmapPresent ≠ 0 then do
    let bytes ← readBytes epBitmapBytes
    let bitmap := bitmapWords bytes
    failIf ((bitmap.map fun w => (bitPositions 64 w).length).sum ≠ nep)
      (.unpack "endpoint count mismatch")
    failIf (¬ (expandWords 64 0 bitmap).all (fun id => reg.endpointExists (UInt32.ofNat id)) = true)
      (.unpack "bad endpoint bit set")
    return .bitmap bitmap
  else do
    let m ← ofOption (reg.tryGetMessageMeta ty) .invalidType
    failIf ((uniqueSortedEndpoints m.endpoints).length ≠ nep) (.unpack "endpoint count mismatch")
    return .schema m.endpoints

/-- The target bytes of a contract; `checked_mul` guards the byte count. -/
def readRoutingTargets (contractFlags : UInt8) : ByteReader Bytes :=
  if contractFlags &&& contractFlagTargets ≠ 0 then do
    let count ← readUleb128
    failIf (usizeMax < count.toNat * 8) (.unpack "wire contract target count")
    readBytes (count.toNat * 8)
  else return []

def readRoutingContractBody : ByteReader (Option MessageElement × Bytes × Bool) := do
  let contractFlags ← readByte
  let shape ← whenPresent (contractFlags &&& contractFlagShape ≠ 0) decodeWireShape
  let targets ← readRoutingTargets contractFlags
  let left ← remaining
  failIf (left ≠ 0) (.unpack "wire contract trailing bytes")
  return (shape, targets, decide (contractFlags &&& contractFlagReliableHeader ≠ 0))

def readRoutingContract : ByteReader (Option MessageElement × Bytes × Bool) :=
  if flags &&& flagWireContract ≠ 0 then do
    let len ← readUleb128
    let bytes ← readBytes len.toNat
    ofResult (eval readRoutingContractBody (Cursor.start bytes))
  else return (none, [], false)

/-- A frame without endpoints must be an ACK-only control frame. -/
def checkEmptyEndpoints (nep : ℕ) (hasReliableHeader : Bool) : ByteReader Unit :=
  if nep = 0 then do
    failIf (flags &&& flagReliableHeaderPresent = 0 ∧ hasReliableHeader = false) .emptyEndpoints
    let reliable ← peek (readReliableHeaderEncoded (flags &&& flagCompactReliableHeader ≠ 0))
    failIf (reliable.flags &&& reliableFlagAckOnly = 0) .emptyEndpoints
  else return ()

def readRoutingEnvelope : ByteReader RoutingEnvelope := do
  let flags ← readByte
  let nep ← readByte
  let tyV ← readUleb128
  let dsz ← readUleb128
  let timestampMs ← readUleb128
  let _nonce ← whenPresent (flags &&& flagPacketNonce ≠ 0) readUleb128
  let sourceAddress ← readUleb32 "source address too large"
  let ty ← ofResult (dataTypeIdFromWire tyV)
  let endpointSource ← readRoutingEndpoints reg flags ty nep.toNat
  let contract ← readRoutingContract flags
  checkEmptyEndpoints flags nep.toNat contract.2.2
  return { ty, endpointSource, sourceAddress, timestampMs, wireShape := contract.1,
           isReliable := flags &&& flagReliableHeaderPresent ≠ 0, payloadIsEmpty := dsz == 0,
           targets := contract.2.1, hasReliableHeader := contract.2.2 }

/-! ### Views of the envelope -/

structure TelemetryEnvelope where
  ty : DataType
  endpoints : List DataEndpoint
  sender : Bytes
  sourceAddress : UInt32
  timestampMs : UInt64
  wireShape : Option MessageElement
  targetSenders : List UInt64
deriving DecidableEq, Repr

def RoutingEnvelope.intoOwned (e : RoutingEnvelope) (book : AddressBook) : TelemetryEnvelope where
  ty := e.ty
  endpoints := e.endpoints
  sender := book.senderNameForAddress e.sourceAddress
  sourceAddress := e.sourceAddress
  timestampMs := e.timestampMs
  wireShape := e.wireShape
  targetSenders := e.targetSenders

structure RoutingFrameInfo where
  envelope : RoutingEnvelope
  reliable : Option ReliableHeader
  emptyPayload : Bool
deriving DecidableEq, Repr

structure TelemetryFrameInfo where
  envelope : TelemetryEnvelope
  reliable : Option ReliableHeader
deriving DecidableEq, Repr

/-- Run a reader on the bytes in front of a valid checksum. -/
def withVerified {α : Type} (env : WireEnv) (buf : Bytes) (p : Bytes → ByteReader α) :
    TelemetryResult α :=
  match verifyCrc32 env buf with
  | .error e => .error e
  | .ok data => eval (p data) (Cursor.start data)

def peekRoutingEnvelope : TelemetryResult RoutingEnvelope :=
  withVerified env buf fun _ => readRoutingEnvelope env.reg

def peekEnvelope : TelemetryResult TelemetryEnvelope :=
  match peekRoutingEnvelope env buf with
  | .error e => .error e
  | .ok envelope => .ok (envelope.intoOwned book)

/-- The envelope, the reliable header when one is present, and the unread length. -/
def readFrameInfo (data : Bytes) : ByteReader (RoutingEnvelope × Option ReliableHeader × ℕ) := do
  let envelope ← readRoutingEnvelope reg
  let reliable ← whenPresent (envelope.isReliable = true ∨ envelope.hasReliableHeader = true)
    (readReliableHeaderEncoded (data.headD 0 &&& flagCompactReliableHeader ≠ 0))
  let left ← remaining
  return (envelope, reliable, left)

def peekRoutingFrameInfo : TelemetryResult RoutingFrameInfo :=
  match withVerified env buf (readFrameInfo env.reg) with
  | .error e => .error e
  | .ok (envelope, reliable, left) =>
    .ok ⟨envelope, reliable, envelope.payloadIsEmpty && decide (left = 0)⟩

def peekFrameInfo : TelemetryResult TelemetryFrameInfo :=
  match withVerified env buf (readFrameInfo env.reg) with
  | .error e => .error e
  | .ok (envelope, reliable, _) => .ok ⟨envelope.intoOwned book, reliable⟩

/-! ### The reliable header span -/

/-- The endpoint section, skipped. -/
def skipEndpoints (nep : ℕ) : ByteReader Unit :=
  if flags &&& flagEndpointListPresent ≠ 0 then do
    failIf (flags &&& flagEndpointBitmapPresent ≠ 0) (.unpack "ambiguous endpoint encoding")
    let _bytes ← readEndpointList nep
    return ()
  else if flags &&& flagEndpointBitmapPresent ≠ 0 then do
    let _bytes ← readBytes epBitmapBytes
    return ()
  else return ()

/-- The header with its offset and length. -/
def readSpan (compact : Bool) : ByteReader (ℕ × ℕ × ReliableHeader) := do
  let off ← position
  let hdr ← readReliableHeaderEncoded compact
  let stop ← position
  return (off, stop - off, hdr)

def reliableHeaderSpanBody : ByteReader (Option (ℕ × ℕ × ReliableHeader)) := do
  let flags ← readByte
  let nep ← readByte
  let tyV ← readUleb128
  let _dsz ← readUleb128
  let _ts ← readUleb128
  let _nonce ← whenPresent (flags &&& flagPacketNonce ≠ 0) readUleb128
  let _sourceAddress ← readUleb32 "source address too large"
  let left ← remaining
  failIf (left < if flags &&& flagEndpointBitmapPresent ≠ 0 then epBitmapBytes else 0)
    (.unpack "short buffer")
  skipEndpoints flags nep.toNat
  let contract ← decodeWireContract (flags &&& flagWireContract ≠ 0)
  let _ty ← ofResult (dataTypeIdFromWire tyV)
  whenPresent (¬ (flags &&& flagReliableHeaderPresent = 0 ∧ contract.hasReliableHeader = false))
    (readSpan (flags &&& flagCompactReliableHeader ≠ 0))

/-- Offset, length and value of the reliable header; the checksum is not verified. -/
def reliableHeaderSpan : TelemetryResult (Option (ℕ × ℕ × ReliableHeader)) :=
  if buf.length < crc32Bytes + 1 then .error (.unpack "short prelude")
  else eval reliableHeaderSpanBody (Cursor.start (buf.take (buf.length - crc32Bytes)))

/-! ### The scheduling shortcut -/

def schedulingTypeBody : ByteReader UInt32 := do
  let _prelude ← readBytes 2
  let v ← readUleb128
  ofResult (dataTypeIdFromWire v)

/-- The type id in the first twelve bytes, without any validation. -/
def schedulingType : Option DataType :=
  match eval schedulingTypeBody (Cursor.start (buf.take (min buf.length 12))) with
  | .ok id => some id
  | .error _ => none

/-! ### The packet identity on the wire -/

/-- The fixed fields hashed into the identity. -/
structure IdPrelude where
  flags : UInt8
  dsz : UInt64
  ts : UInt64
  nonce : UInt16
  sourceAddress : UInt32
deriving DecidableEq, Repr

def readIdPrelude : ByteReader IdPrelude := do
  let flags ← readByte
  let _nep ← readByte
  let _ty ← readUleb128
  let dsz ← readUleb128
  let ts ← readUleb128
  let nonce ← whenPresent (flags &&& flagPacketNonce ≠ 0) (readUleb16 "packet nonce too large")
  let sourceAddress ← readUleb32 "source address too large"
  return ⟨flags, dsz, ts, nonce.getD 0, sourceAddress⟩

/-- The payload bytes in the frame.  Unlike the full decoder, an empty compressed payload is
refused. -/
def readIdPayloadWire (dsz : ℕ) : ByteReader Bytes :=
  if flags &&& flagE2eEncryptedPayload ≠ 0 then readEncryptedPayload env dsz
  else if flags &&& flagCompressedPayload = 0 then do
    let left ← remaining
    failIf (left < dsz) (.unpack "short buffer")
    readBytes dsz
  else do
    let compLen ← remaining
    failIf (compLen < 1) (.unpack "short buffer")
    readBytes compLen

def readIdPayload (dsz : ℕ) : ByteReader Bytes := do
  let payloadWire ← readIdPayloadWire env flags dsz
  if flags &&& flagCompressedPayload ≠ 0 then ofResult (decompress env payloadWire dsz)
  else do
    failIf (payloadWire.length ≠ dsz) (.unpack "payload length mismatch")
    return payloadWire

def packetIdBody : ByteReader UInt64 := do
  let prelude ← peek readIdPrelude
  let envelope ← readRoutingEnvelope env.reg
  let _hdr ← whenPresent (envelope.isReliable = true ∨ envelope.hasReliableHeader = true)
    (readDataReliableHeader (prelude.flags &&& flagCompactReliableHeader ≠ 0))
  let payload ← readIdPayload env prelude.flags prelude.dsz.toNat
  let h := hashBytesU64 0x9E3779B97F4A7C15 (leBytes 4 prelude.sourceAddress.toNat)
  let h := hashBytesU64 h (leBytes 4 envelope.ty.toNat)
  let h := envelope.endpoints.foldl (fun h ep => hashBytesU64 h (leBytes 4 ep.toNat)) h
  let h := hashBytesU64 h (leBytes 8 prelude.ts.toNat)
  let h := hashBytesU64 h (leBytes 2 prelude.nonce.toNat)
  let h := hashBytesU64 h (leBytes 8 prelude.dsz.toNat)
  return hashBytesU64 h payload

def packetIdFromWire : TelemetryResult UInt64 :=
  match verifyCrc32 env buf with
  | .error e => .error e
  | .ok data =>
    if data.length < 2 then .error (.unpack "short prelude")
    else eval (packetIdBody env) (Cursor.start data)

end SedsNet
