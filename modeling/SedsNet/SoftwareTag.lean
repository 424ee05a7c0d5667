import SedsNet.WireRoundTrip

/-! # The software tag

The keyring cipher of `crypto.rs` that stands in when no provider is registered, and what its tag
says about an encrypted frame.

The tag is an HMAC over the concatenation of a label, the key id, the nonce, the authenticated header
and the ciphertext, without their lengths.  The header needs none: it is read from its own bytes
(`readFrameHeader_local`), so no header is an initial part of another one (`Reads.unique`).  The nonce
has no such structure, and its length stands in the frame: two frames present one string exactly if one
of them is the other shifted into its nonce (`tagInput_unambiguous`), never with nonces of one length. -/

namespace SedsNet

open ByteCursor ByteWords List

/-! ### The cipher -/

/-- The keyring by key id, and `hmac_sha256` with the chunks of its message joined. -/
structure SoftwareKeys where
  keyFor : UInt32 → Option Bytes
  hmac : (key message : Bytes) → Bytes
  length_hmac : ∀ key message, (hmac key message).length = 32

def softwareTagLen : ℕ := 16

/-- The bytes of `"SEDS-HMAC-TAG"`. -/
def tagLabel : Bytes := [0x53, 0x45, 0x44, 0x53, 0x2D, 0x48, 0x4D, 0x41, 0x43, 0x2D, 0x54, 0x41, 0x47]

/-- The bytes of `"SEDS-HMAC-STREAM"`. -/
def streamLabel : Bytes :=
  [0x53, 0x45, 0x44, 0x53, 0x2D, 0x48, 0x4D, 0x41, 0x43, 0x2D, 0x53, 0x54, 0x52, 0x45, 0x41, 0x4D]

/-- What the tag is computed over. -/
def tagInput (keyId : UInt32) (nonce aad ciphertext : Bytes) : Bytes :=
  tagLabel ++ leBytes 4 keyId.toNat ++ nonce ++ aad ++ ciphertext

namespace SoftwareKeys

variable (keys : SoftwareKeys)

def softwareTag (key : Bytes) (keyId : UInt32) (nonce aad ciphertext : Bytes) : Bytes :=
  keys.hmac key (tagInput keyId nonce aad ciphertext)

/-- One block of the key stream. -/
def streamBlock (key : Bytes) (keyId : UInt32) (nonce aad : Bytes) (counter : UInt64) : Bytes :=
  keys.hmac key (streamLabel ++ leBytes 4 keyId.toNat ++ nonce ++ aad ++ leBytes 8 counter.toNat)

/-- The loop of `apply_hmac_stream`; a block is xored to each 32 bytes of the input. -/
def streamLoop (block : UInt64 → Bytes) : (fuel : ℕ) → UInt64 → Bytes → Bytes
  | 0, _, _ => []
  | fuel + 1, counter, input =>
    if input = [] then []
    else
      List.zipWith (· ^^^ ·) (input.take 32) (block counter) ++
        streamLoop block fuel (counter + 1) (input.drop 32)

def applyHmacStream (key : Bytes) (keyId : UInt32) (nonce aad input : Bytes) : Bytes :=
  streamLoop (keys.streamBlock key keyId nonce aad) input.length 0 input

def softwareKeyFor (keyId : UInt32) : TelemetryResult Bytes :=
  match keys.keyFor keyId with
  | some key => .ok key
  | none => .error .badArg

/-- The ciphertext buffer is as long as the plaintext, and the tag buffer long enough. -/
def sealWithSoftwareKey (keyId : UInt32) (nonce aad plaintext : Bytes) :
    TelemetryResult (Bytes × Bytes) := do
  let key ← keys.softwareKeyFor keyId
  let ciphertext := keys.applyHmacStream key keyId nonce aad plaintext
  return (ciphertext, (keys.softwareTag key keyId nonce aad ciphertext).take softwareTagLen)

def openWithSoftwareKey (keyId : UInt32) (nonce aad ciphertext tag : Bytes) (len : ℕ) :
    TelemetryResult Bytes :=
  if len < ciphertext.length ∨ tag.length ≠ softwareTagLen then .error .sizeMismatchError
  else do
    let key ← keys.softwareKeyFor keyId
    let expected := keys.softwareTag key keyId nonce aad ciphertext
    if tag ≠ expected.take softwareTagLen then .error (.handlerError "crypto open")
    else return keys.applyHmacStream key keyId nonce aad ciphertext

/-- The cipher in the place of a registered provider. -/
def provider : CryptoProvider := ⟨keys.sealWithSoftwareKey, keys.openWithSoftwareKey⟩

/-- A frame is opened only with the tag of its tag input. -/
theorem tag_of_opened {keyId : UInt32} {nonce aad ciphertext tag plaintext : Bytes} {len : ℕ}
    (h : keys.openWithSoftwareKey keyId nonce aad ciphertext tag len = .ok plaintext) :
    ∃ key, keys.keyFor keyId = some key ∧
      tag = (keys.hmac key (tagInput keyId nonce aad ciphertext)).take softwareTagLen := by
  unfold openWithSoftwareKey at h
  split at h
  · cases h
  obtain ⟨key, hkey, h⟩ := bind_eq_ok h
  dsimp only at h
  split at h
  · cases h
  rename_i htag
  refine ⟨key, ?_, not_not.mp htag⟩
  unfold softwareKeyFor at hkey
  split at hkey
  · rename_i key' hfound
    cases hkey
    exact hfound
  · cases hkey

end SoftwareKeys

/-! ### What the decoder hands to the provider -/

variable {env : WireEnv} {plaintextLen : ℕ} {c c' : Cursor}

/-- A payload that was decrypted was read in its parts, and the provider opened them. -/
theorem readEncryptedPayload_ok
    {plaintext : Bytes} (h : readEncryptedPayload env plaintextLen c = .ok (plaintext, c')) :
    ∃ f, readSealedFields plaintextLen c = .ok (f, c') ∧
      env.crypto.openBytes f.keyId f.nonce f.aad f.ciphertext f.tag f.wirePayloadLen.toNat = .ok plaintext := by
  obtain ⟨f, c₁, hfields, h⟩ := bind_ok h
  obtain ⟨-, h⟩ := failIf_bind_ok h
  obtain ⟨opened, hopen, h⟩ := ofResult_bind_ok h
  obtain ⟨-, h⟩ := failIf_bind_ok h
  obtain ⟨rfl, rfl⟩ := pure_ok_inv h
  exact ⟨f, hfields, hopen⟩

variable {f : SealedFields}

theorem readSealedFields_aad (h : readSealedFields plaintextLen c = .ok (f, c')) : f.aad = c.buf.take c.off := by
  obtain ⟨aad, c₁, h₁, h⟩ := bind_ok h
  cases h₁
  obtain ⟨keyId, c₂, -, h⟩ := bind_ok h
  obtain ⟨wireLen, c₃, -, h⟩ := bind_ok h
  obtain ⟨-, h⟩ := failIf_bind_ok h
  obtain ⟨nonceLen, c₄, -, h⟩ := bind_ok h
  obtain ⟨-, h⟩ := failIf_bind_ok h
  obtain ⟨nonce, c₅, -, h⟩ := bind_ok h
  obtain ⟨tagLen, c₆, -, h⟩ := bind_ok h
  obtain ⟨-, h⟩ := failIf_bind_ok h
  obtain ⟨tag, c₇, -, h⟩ := bind_ok h
  rw [remaining_bind] at h
  obtain ⟨ciphertext, c₈, -, h⟩ := bind_ok h
  obtain ⟨rfl, -⟩ := pure_ok_inv h
  rfl

/-! ### Headers -/

/-- The header of a frame as the decoder walks over it, with the flags and the payload size. -/
def readFrameHeader (reg : Registry) : ByteReader (UInt8 × UInt64) := do
  let flags ← readByte
  let nep ← readByte
  let tyV ← readUleb128
  let dsz ← readUleb128
  let _ ← readUleb128
  let _ ← whenPresent (flags &&& flagPacketNonce ≠ 0) (readUleb16 "packet nonce too large")
  let _ ← readUleb32 "source address too large"
  let ty ← ofResult (dataTypeIdFromWire tyV)
  let _ ← endpointsFromWireOrSchema reg (flags &&& flagEndpointBitmapPresent ≠ 0)
    (flags &&& flagEndpointListPresent ≠ 0) (reg.tryDataType ty) nep.toNat
  let contract ← decodeWireContract (flags &&& flagWireContract ≠ 0)
  let _ ← whenPresent (flags &&& flagReliableHeaderPresent ≠ 0 ∨ contract.hasReliableHeader = true)
    (readDataReliableHeader (flags &&& flagCompactReliableHeader ≠ 0))
  return (flags, dsz)

theorem HeaderWalk.readFrameHeader {reg : Registry} {data : Bytes} (w : HeaderWalk reg data) :
    SedsNet.readFrameHeader reg (Cursor.start data) = .ok ((w.flags, w.dsz), w.afterReliable) := by
  unfold SedsNet.readFrameHeader
  rw [bind_of_ok w.flags_ok, bind_of_ok w.nep_ok, bind_of_ok w.ty_ok, bind_of_ok w.size_ok,
    bind_of_ok w.ts_ok, bind_of_ok w.nonce_ok, bind_of_ok w.source_ok, ofResult_bind w.tyId_ok,
    bind_of_ok w.endpoints_ok, bind_of_ok w.contract_ok, bind_of_ok w.reliable_ok, pure_ok]

theorem endpointsFromWireOrSchema_local (reg : Registry) (bitmapPresent listPresent : Bool)
    (ty : Option DataType) (nep : ℕ) : Local (endpointsFromWireOrSchema reg bitmapPresent listPresent ty nep) := by
  unfold endpointsFromWireOrSchema
  split
  · refine (Local.failIf _ _).bind fun _ => (readEndpointList_local nep).bind fun bytes => ?_
    split
    · split
      · exact Local.pure _
      · exact Local.ofResult _
    · exact Local.ofResult _
  · split
    · exact (readBytes_local _).bind fun _ => (Local.ofResult _).bind fun _ =>
        (Local.failIf _ _).bind fun _ => Local.pure _
    · exact (Local.ofOption _ _).bind fun _ => Local.ofResult _

theorem readDataReliableHeader_local (compact : Bool) : Local (readDataReliableHeader compact) :=
  (readReliableHeaderEncoded_local compact).bind fun _ =>
    (Local.failIf _ _).bind fun _ => Local.pure _

/-- A header is read from its own bytes only. -/
theorem readFrameHeader_local (reg : Registry) : Local (readFrameHeader reg) := by
  refine readByte_local.bind fun flags => readByte_local.bind fun nep => ?_
  refine readUleb128_local.bind fun _ => readUleb128_local.bind fun _ => ?_
  refine readUleb128_local.bind fun _ => ?_
  refine (Local.whenPresent _ (HeaderWalk.readUleb16_local _)).bind fun _ => ?_
  refine (readUleb32_local _).bind fun _ => (Local.ofResult _).bind fun _ => ?_
  refine (endpointsFromWireOrSchema_local _ _ _ _ _).bind fun _ => ?_
  refine (decodeWireContract_local _).bind fun _ => ?_
  exact (Local.whenPresent _ (readDataReliableHeader_local _)).bind fun _ => Local.pure _

/-! ### Encrypted frames -/

/-- An encrypted frame up to the point where it is opened. -/
def readSealedFrame (reg : Registry) : ByteReader SealedFields := do
  let (flags, dsz) ← readFrameHeader reg
  failIf (flags &&& flagE2eEncryptedPayload = 0) (.unpack "not encrypted")
  readSealedFields dsz.toNat

/-- What the decoder hands to the provider for a frame. -/
def sealedFields (env : WireEnv) (buf : Bytes) : TelemetryResult SealedFields :=
  match verifyCrc32 env buf with
  | .error e => .error e
  | .ok data => eval (readSealedFrame env.reg) (Cursor.start data)

variable {buf : Bytes}

/-- The tag is that of the other parts under a key of the keyring. -/
def SealedFields.Tagged (keys : SoftwareKeys) (f : SealedFields) : Prop :=
  ∃ key, keys.keyFor f.keyId = some key ∧
    f.tag = (keys.softwareTag key f.keyId f.nonce f.aad f.ciphertext).take softwareTagLen

/-- **Authenticity**: a frame with the encryption flag is accepted only with the tag of its own parts. -/
theorem accepted_frame_tagged {keys : SoftwareKeys} (hkeys : env.crypto = keys.provider) {book : AddressBook}
    {managed : Bool} (h : (unpackPacketWithRole env book buf managed).isOk = true)
    (hflag : buf.headD 0 &&& flagE2eEncryptedPayload ≠ 0) : ∃ f, sealedFields env buf = .ok f ∧ f.Tagged keys := by
  rcases hread : unpackPacketWithRole env book buf managed with _ | pkt
  · rw [hread] at h
    cases h
  obtain ⟨data, c', hverify, hne, hrun⟩ := unpackPacketWithRole_ok hread
  obtain ⟨w, payload, hpayload, -⟩ := unpackBody_ok hrun
  rw [w.headD_eq hverify] at hflag
  obtain ⟨payloadWire, c₁, hwire, -⟩ := bind_ok hpayload
  rw [readPayloadWire, if_pos hflag] at hwire
  obtain ⟨f, hfields, hopen⟩ := readEncryptedPayload_ok hwire
  have hframe : readSealedFrame env.reg (Cursor.start data) = .ok (f, c₁) := by
    unfold readSealedFrame
    rw [bind_of_ok w.readFrameHeader]
    dsimp only
    rw [failIf_bind hflag]
    exact hfields
  rw [hkeys] at hopen
  refine ⟨f, ?_, keys.tag_of_opened hopen⟩
  rw [sealedFields, hverify]
  exact eval_of_ok hframe

/-- The authenticated header of a frame is the encoding that the header walk reads. -/
theorem reads_aad (h : sealedFields env buf = .ok f) : ∃ a, Reads (readFrameHeader env.reg) f.aad a := by
  unfold sealedFields at h
  split at h
  · cases h
  rename_i data hverify
  obtain ⟨c', hrun⟩ := eval_ok h
  obtain ⟨header, c₁, hheader, hrun⟩ := bind_ok hrun
  obtain ⟨-, hfields⟩ := failIf_bind_ok hrun
  obtain ⟨bytes, hrest, rfl, hreads⟩ := readFrameHeader_local env.reg hheader
  have haad := readSealedFields_aad hfields
  rw [Cursor.advance_buf, Cursor.advance_off, Cursor.start_off, Nat.zero_add, Cursor.start_buf]
    at haad
  have hbytes : data.take bytes.length = bytes := by
    rw [Cursor.start_rest] at hrest
    rw [hrest, take_left]
  rw [haad, hbytes]
  exact ⟨header, hreads⟩

/-- The second frame has the nonce of the first followed by some of the bytes behind it, and its header
and ciphertext are the rest of them. -/
def SealedFields.Shifted (f g : SealedFields) : Prop :=
  ∃ moved, moved ≠ [] ∧ g.nonce = f.nonce ++ moved ∧ f.aad ++ f.ciphertext = moved ++ (g.aad ++ g.ciphertext)

theorem SealedFields.not_shifted {f g : SealedFields} (h : g.nonce.length = f.nonce.length) : ¬ f.Shifted g := by
  rintro ⟨moved, hne, hnonce, -⟩
  rw [hnonce, length_append, Nat.add_eq_left, length_eq_zero_iff] at h
  exact hne h

/-- Two frames under one key id that differ in header, nonce or ciphertext are tagged over different
strings, exactly if neither is the other shifted into its nonce. -/
theorem tagInput_unambiguous {env : WireEnv} {buf₁ buf₂ : Bytes} {f₁ f₂ : SealedFields}
    (h₁ : sealedFields env buf₁ = .ok f₁) (h₂ : sealedFields env buf₂ = .ok f₂) (hkey : f₁.keyId = f₂.keyId)
    (hdiff : (f₁.aad, f₁.nonce, f₁.ciphertext) ≠ (f₂.aad, f₂.nonce, f₂.ciphertext)) :
    tagInput f₁.keyId f₁.nonce f₁.aad f₁.ciphertext ≠ tagInput f₂.keyId f₂.nonce f₂.aad f₂.ciphertext ↔
      ¬ f₁.Shifted f₂ ∧ ¬ f₂.Shifted f₁ := by
  obtain ⟨a₁, hreads₁⟩ := reads_aad h₁
  obtain ⟨a₂, hreads₂⟩ := reads_aad h₂
  -- behind one nonce the header ends where its reader stops, so the frames are the same
  have hnonces : f₁.nonce = f₂.nonce → f₁.aad ++ f₁.ciphertext ≠ f₂.aad ++ f₂.ciphertext := by
    intro hnonce htail
    obtain ⟨haad, hct, -⟩ := hreads₁.unique hreads₂ htail
    exact hdiff (by rw [haad, hnonce, hct])
  unfold tagInput
  rw [hkey, ← not_or, ne_eq, not_iff_not]
  simp only [append_assoc, append_cancel_left_eq]
  rw [append_eq_append_iff]
  refine or_congr (exists_congr fun moved => ?_) (exists_congr fun moved => ?_)
  · refine ⟨fun h => ⟨?_, h⟩, And.right⟩
    rintro rfl
    exact hnonces (by simpa using h.1.symm) h.2
  · refine ⟨fun h => ⟨?_, h⟩, And.right⟩
    rintro rfl
    exact hnonces (by simpa using h.1) h.2.symm

/-- One key, and a keyed checksum in the place of the HMAC. -/
def sampleKeys : SoftwareKeys where
  keyFor := fun keyId => if keyId = 1 then some (List.replicate 32 0x11) else none
  hmac := fun key message => leBytes 32 (hashBytesU64 0 (key ++ message)).toNat
  length_hmac := fun _ _ => length_leBytes _ _

/-- One endpoint and one type of any length. -/
def binaryRegistry : Registry where
  endpoints := [5]
  types := [(101, ⟨.dynamic .binary .data, [5], .none, 1⟩)]
  staticStringLength := 16
  staticHexLength := 16

def sealedEnv : WireEnv := { plainEnv binaryRegistry with crypto := sampleKeys.provider }

/-- An encrypted frame from its parts, with the tag of its parts. -/
def sealedFrame (aad nonce ciphertext : Bytes) : Bytes :=
  let tag := (sampleKeys.softwareTag (List.replicate 32 0x11) 1 nonce aad ciphertext).take softwareTagLen
  appendCrc32 sealedEnv (aad ++ writeUleb128 1 ++ writeUleb128 (UInt64.ofNat ciphertext.length) ++
    writeUleb128 (UInt64.ofNat nonce.length) ++ nonce ++
    writeUleb128 (UInt64.ofNat tag.length) ++ tag ++ ciphertext)

/-- The parts of such a frame. -/
def sealedParts (aad nonce ciphertext : Bytes) : SealedFields where
  aad
  keyId := 1
  wirePayloadLen := UInt64.ofNat ciphertext.length
  nonce
  tag := (sampleKeys.softwareTag (List.replicate 32 0x11) 1 nonce aad ciphertext).take softwareTagLen
  ciphertext

/-- The header of an encrypted frame with a payload of `size` bytes. -/
def sealedHeader (size timestamp : UInt8) : Bytes := [0x90, 0x01, 0x65, size, timestamp, 0x09, 0x05]

def sampleNonce : Bytes := List.replicate 12 0x2A

theorem accepted_frame_tagged_sample :
    let buf := sealedFrame (sealedHeader 1 7) sampleNonce [0xAA]
    ∃ f, sealedFields sealedEnv buf = .ok f ∧ f.Tagged sampleKeys :=
  @accepted_frame_tagged sealedEnv _ sampleKeys rfl .empty false (by decide +kernel) (by decide)

theorem tagInput_unambiguous_two : sealedFields sealedEnv (sealedFrame (sealedHeader 1 7) sampleNonce [0xAA]) =
        .ok (sealedParts (sealedHeader 1 7) sampleNonce [0xAA]) ∧
      sealedFields sealedEnv (sealedFrame (sealedHeader 1 8) sampleNonce [0xAA]) =
        .ok (sealedParts (sealedHeader 1 8) sampleNonce [0xAA]) ∧ tagInput 1 sampleNonce (sealedHeader 1 7) [0xAA] ≠
        tagInput 1 sampleNonce (sealedHeader 1 8) [0xAA] := by
  have h₁ : sealedFields sealedEnv (sealedFrame (sealedHeader 1 7) sampleNonce [0xAA]) =
      .ok (sealedParts (sealedHeader 1 7) sampleNonce [0xAA]) := by decide +kernel
  have h₂ : sealedFields sealedEnv (sealedFrame (sealedHeader 1 8) sampleNonce [0xAA]) =
      .ok (sealedParts (sealedHeader 1 8) sampleNonce [0xAA]) := by decide +kernel
  have hdiff : ((sealedParts (sealedHeader 1 7) sampleNonce [0xAA]).aad, sampleNonce, [0xAA]) ≠
      ((sealedParts (sealedHeader 1 8) sampleNonce [0xAA]).aad, sampleNonce, [(0xAA : UInt8)]) := by
    decide
  have hne := (tagInput_unambiguous h₁ h₂ rfl hdiff).mpr ⟨SealedFields.not_shifted rfl, SealedFields.not_shifted rfl⟩
  exact ⟨h₁, h₂, hne⟩

/-- A frame whose ciphertext starts with a header, and the frame that takes the header of the first
into its nonce and that header for its own: both are accepted, with one tag over one string. -/
theorem tagInput_ambiguous :
    let aad := sealedHeader 8 7
    let aad' := sealedHeader 1 7
    sealedFields sealedEnv (sealedFrame aad sampleNonce (aad' ++ [0xAA])) =
        .ok (sealedParts aad sampleNonce (aad' ++ [0xAA])) ∧
      sealedFields sealedEnv (sealedFrame aad' (sampleNonce ++ aad) [0xAA]) =
        .ok (sealedParts aad' (sampleNonce ++ aad) [0xAA]) ∧
      (unpackPacket sealedEnv .empty (sealedFrame aad sampleNonce (aad' ++ [0xAA]))).isOk = true ∧
      (unpackPacket sealedEnv .empty (sealedFrame aad' (sampleNonce ++ aad) [0xAA])).isOk = true ∧
      aad ≠ aad' ∧
      tagInput 1 sampleNonce aad (aad' ++ [0xAA]) = tagInput 1 (sampleNonce ++ aad) aad' [0xAA] ∧
      (sealedParts aad sampleNonce (aad' ++ [0xAA])).tag =
        (sealedParts aad' (sampleNonce ++ aad) [0xAA]).tag := by
  decide +kernel

end SedsNet
