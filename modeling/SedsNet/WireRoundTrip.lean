import SedsNet.WireAgreement

/-! # The round trip of a frame

The decoder's walk over a frame the encoder wrote (`packed_walk`).  The frame's optional fields are
decided by the flag byte, so the walk is assembled from one fact per section: each section reads
back exactly what was written there, under the flag the encoder set for it.

Main theorem: `unpack_pack`. -/

namespace SedsNet

open ByteCursor ByteWords List

/-! ### The flag byte -/

/-- Each flag of a packed frame says what its section holds. -/
theorem frameFlags_bits : ∀ compressed contract nonce list bitmap reliable compact encrypted,
    let flags := frameFlags compressed contract nonce list bitmap reliable compact encrypted
    decide (flags &&& flagCompressedPayload ≠ 0) = compressed ∧
      decide (flags &&& flagWireContract ≠ 0) = contract ∧
      decide (flags &&& flagPacketNonce ≠ 0) = nonce ∧
      decide (flags &&& flagEndpointListPresent ≠ 0) = list ∧
      decide (flags &&& flagEndpointBitmapPresent ≠ 0) = (bitmap && !list) ∧
      decide (flags &&& flagReliableHeaderPresent ≠ 0) = reliable ∧
      decide (flags &&& flagCompactReliableHeader ≠ 0) = compact ∧
      decide (flags &&& flagE2eEncryptedPayload ≠ 0) = encrypted := by
  decide +kernel

variable {q : Prop}

theorem flag_iff [Decidable q] {b : Bool} (h : decide q = b) : q ↔ b = true := by
  rw [← h, decide_eq_true_iff]

/-! ### The sections -/

/-- The bitmap form is chosen only for registered endpoints. -/
def BitmapRegistered (env : WireEnv) (pkt : Packet) (shape : Option MessageElement)
    (targets : List UInt64) : Prop :=
  packetEndpointBitmapPresent env pkt shape targets = true →
    explicitEndpointList pkt.endpoints = false → ∀ ep ∈ pkt.endpoints, env.reg.endpointExists ep = true

variable {pkt : Packet}

/-- Endpoints left to the schema belong to a registered type. -/
theorem endpointsMatchSchema_exists {reg : Registry}
    (h : endpointsMatchSchema reg pkt.ty pkt.endpoints = true) : reg.tryDataType pkt.ty = some pkt.ty := by
  cases hex : reg.dataTypeExists pkt.ty with
  | true => rw [Registry.tryDataType, if_pos hex]
  | false =>
    rw [endpointsMatchSchema, beq_iff_eq, reg.messageMeta_endpoints_of_not_exists hex] at h
    exact absurd h (uniqueSortedEndpoints_ne_nil pkt.endpoints_ne_nil)

variable {env : WireEnv} {shape : Option MessageElement} {targets : List UInt64}

theorem reads_packedEndpoints {bitmapFlag listFlag : Bool} {nep : ℕ} (hreg : BitmapRegistered env pkt shape targets)
    (hlist : listFlag = (packetEndpointBitmapPresent env pkt shape targets && explicitEndpointList pkt.endpoints))
    (hbitmap : bitmapFlag = (packetEndpointBitmapPresent env pkt shape targets &&
      !(packetEndpointBitmapPresent env pkt shape targets && explicitEndpointList pkt.endpoints)))
    (hnep : nep = (uniqueSortedEndpoints pkt.endpoints).length) :
    Reads (endpointsFromWireOrSchema env.reg bitmapFlag listFlag (env.reg.tryDataType pkt.ty) nep)
      (if listFlag then writeEndpointList (uniqueSortedEndpoints pkt.endpoints)
        else if packetEndpointBitmapPresent env pkt shape targets then buildEndpointBitmap pkt.endpoints else [])
      (uniqueSortedEndpoints pkt.endpoints) := by
  subst hnep
  cases hb : packetEndpointBitmapPresent env pkt shape targets with
  | false =>
    have hmatch : endpointsMatchSchema env.reg pkt.ty pkt.endpoints = true := by
      simp only [packetEndpointBitmapPresent, Bool.or_eq_false_iff, Bool.not_eq_false'] at hb
      exact hb.1.2
    rw [hb] at hlist hbitmap
    rw [hlist, hbitmap, endpointsMatchSchema_exists hmatch]
    exact reads_endpointsSchema hmatch
  | true =>
    rw [hb] at hlist
    rw [hb] at hbitmap
    cases hl : explicitEndpointList pkt.endpoints with
    | true =>
      rw [hbitmap, hlist, hl]
      exact reads_endpointsList (uniqueSortedEndpoints_pairwise _)
    | false =>
      have hlt : ∀ ep ∈ pkt.endpoints, ep.toNat < epBitmapBits := by
        rw [explicitEndpointList, Bool.or_eq_false_iff, any_eq_false] at hl
        intro ep hep
        exact Nat.not_le.mp fun hle => hl.1 ep hep (decide_eq_true hle)
      rw [hbitmap, hlist, hl]
      exact reads_endpointsBitmap hlt (hreg hb hl)

theorem reads_packedContract
    {contractFlag : Bool} (rel : Bool) (hfit : 8 * targets.length ≤ isizeMax)
    (hflag : contractFlag = (shape.isSome || targets != [])) :
    ∃ contract, Reads (decodeWireContract contractFlag)
        (if contractFlag = true then
          writeUleb128 (UInt64.ofNat (wireContractSize shape targets)) ++
            writeWireContract shape targets rel
        else []) contract ∧
      contract.shape = shape ∧ contract.targetSenders = (if targets = [] then none else some targets) ∧
      (contract.hasReliableHeader = true → rel = true) := by
  cases contractFlag with
  | true => exact ⟨_, reads_wireContract hfit, rfl, rfl, id⟩
  | false =>
    have hnone := hflag.symm
    simp only [Bool.or_eq_false_iff, bne_eq_false_iff_eq, Option.isSome_eq_false_iff,
      Option.isNone_iff_eq_none] at hnone
    obtain ⟨rfl, rfl⟩ := hnone
    exact ⟨⟨none, none, false⟩, Reads.pure _, rfl, rfl, by simp⟩

variable {reliable : Option ReliableHeader}

theorem reads_packedReliable {compact : Bool} [Decidable q] (hq : q ↔ reliable.isSome = true)
    (hcompact : compact = reliable.any shouldCompactReliableHeader)
    (hdata : ∀ h, reliable = some h → h.flags &&& reliableFlagAckOnly = 0) :
    Reads (whenPresent q (readDataReliableHeader compact)) (reliableSection reliable)
      (reliable.map fun h => h.onWire (shouldCompactReliableHeader h)) := by
  subst hcompact
  cases reliable with
  | none => exact Reads.whenPresent_not fun h => by simpa using hq.mp h
  | some h =>
    refine Reads.whenPresent (hq.mpr rfl) ?_
    refine (reads_reliableHeader_onWire h _).bind_nil (Reads.failIf_bind ?_ (Reads.pure _))
    rw [h.onWire_ackOnly, hdata h rfl]
    exact not_not.mpr rfl

theorem reads_packedNonce (nonce : UInt16) [Decidable q] (hq : q ↔ nonce ≠ 0) :
    ∃ o, Reads (whenPresent q (readUleb16 "packet nonce too large"))
      (if nonce ≠ 0 then writeUleb128 nonce.toUInt64 else []) o ∧ o.getD 0 = nonce := by
  by_cases h : nonce = 0
  · rw [if_neg (not_not.mpr h)]
    exact ⟨none, Reads.whenPresent_not fun hq' => hq.mp hq' h, h.symm⟩
  · rw [if_pos h]
    refine ⟨some nonce, Reads.whenPresent (hq.mpr h) ?_, rfl⟩
    exact (reads_writeUleb128 _).bind_nil (Reads.ofOption (tryU16_toUInt64 nonce))

/-! ### The payload -/

/-- The payload travels as it is or as what the codec made of it. -/
theorem payloadForEncoding_cases (env : WireEnv) (pkt : Packet) (compressionAllowed : Bool) :
    payloadForEncoding env pkt compressionAllowed = (false, pkt.payload) ∨
      ∃ capacity output, payloadForEncoding env pkt compressionAllowed = (true, output) ∧
        env.zstd.compress pkt.payload capacity = some output := by
  unfold payloadForEncoding compressIfBeneficial compressToVecBounded
  split_ifs with h₁ h₂ h₃ h₄
  · exact .inl rfl
  · exact .inl rfl
  · exact .inl rfl
  · exact .inl rfl
  · cases hc : env.zstd.compress pkt.payload (pkt.payload.length - 2) with
    | none => exact .inl rfl
    | some output =>
      by_cases hlen : pkt.payload.length ≤ output.length + 1
      · exact .inl (if_pos hlen)
      · exact .inr ⟨_, output, if_neg hlen, hc⟩

variable {compressionAllowed : Bool} {flags : UInt8}

theorem allowed_of_compressed {output : Bytes} (h : payloadForEncoding env pkt compressionAllowed = (true, output)) :
    compressionAllowed = true := by
  cases compressionAllowed with
  | true => rfl
  | false => cases h

/-- The payload section of a packed frame, as a reader finds it. -/
theorem packedPayload_cases {c : Cursor} (hzstd : compressionAllowed = true → env.zstd.Inverts)
    (hcompressed : decide (flags &&& flagCompressedPayload ≠ 0) = (payloadForEncoding env pkt compressionAllowed).1)
    (hrest : c.rest = (payloadForEncoding env pkt compressionAllowed).2) : (flags &&& flagCompressedPayload = 0 ∧
        (readBytes pkt.payload.length) c = .ok (pkt.payload, c.advance pkt.payload.length)) ∨
      (flags &&& flagCompressedPayload ≠ 0 ∧ 0 < c.remaining ∧
        ∃ output, (readBytes c.remaining) c = .ok (output, c.advance output.length) ∧
          decompress env output pkt.payload.length = .ok pkt.payload) := by
  rcases payloadForEncoding_cases env pkt compressionAllowed with hp | ⟨capacity, output, hp, hout⟩
  · rw [hp] at hcompressed hrest
    refine .inl ⟨not_not.mp (of_decide_eq_false hcompressed), ?_⟩
    exact reads_readBytes rfl c [] (by rw [hrest, append_nil])
  · have hzstd := hzstd (allowed_of_compressed hp)
    rw [hp] at hcompressed hrest
    have hlen : output.length = c.remaining := by rw [← Cursor.length_rest, hrest]
    refine .inr ⟨of_decide_eq_true hcompressed, ?_, output, ?_, ?_⟩
    · rw [← hlen]
      exact length_pos_iff.mpr (hzstd.compress_ne_nil _ _ _ hout)
    · exact reads_readBytes hlen c [] (by rw [hrest, append_nil])
    · unfold decompress
      rw [if_neg (Nat.not_lt.mpr pkt.payload_fits)]
      simp only [hzstd.decompress_compress _ _ _ hout, ne_eq, not_true_eq_false, if_false]

/-- What the encoder writes in the payload section reads back as the payload. -/
theorem readPayload_packed {c : Cursor} (hzstd : compressionAllowed = true → env.zstd.Inverts)
    (hgrant : env.probe.Granting)
    (hcompressed : decide (flags &&& flagCompressedPayload ≠ 0) = (payloadForEncoding env pkt compressionAllowed).1)
    (hplain : decide (flags &&& flagE2eEncryptedPayload ≠ 0) = false)
    (hrest : c.rest = (payloadForEncoding env pkt compressionAllowed).2) :
    ∃ c', readPayload env flags pkt.payload.length c = .ok (pkt.payload, c') := by
  unfold readPayload readPayloadWire
  rw [if_neg (of_decide_eq_false hplain)]
  rcases packedPayload_cases hzstd hcompressed hrest with ⟨hoff, hread⟩ | ⟨hon, -, output, hread, hinv⟩
  · rw [if_pos hoff, bind_of_ok hread, if_neg (not_not.mpr hoff), failIf_bind (not_not.mpr rfl)]
    exact ⟨_, rfl⟩
  · have hgranted : env.probe.check 1 (satAdd pkt.payload.length 512) (satAdd pkt.payload.length 32) =
        .ok () := hgrant _ _ _ _
    rw [if_neg hon, bind_of_ok (remaining_bind.trans hread), if_pos hon, ofResult_bind hinv,
      ofResult_bind hgranted]
    exact ⟨_, rfl⟩

/-! ### The walk over a packed header -/

/-- The walk found what the encoder was given. -/
structure HeaderWalk.Carries {reg : Registry} {data : Bytes} (w : HeaderWalk reg data)
    (pkt : Packet) (reliable : Option ReliableHeader) (shape : Option MessageElement)
    (targets : List UInt64) (compressed : Bool) (tail : Bytes) : Prop where
  ty : w.ty = pkt.ty
  dsz : w.dsz.toNat = pkt.payload.length
  ts : w.ts = pkt.timestamp
  nonce : w.nonce.getD 0 = pkt.nonce
  sourceAddress : w.sourceAddress = senderAddressU32 pkt.sender
  eps : w.eps = uniqueSortedEndpoints pkt.endpoints
  shape : w.contract.shape = shape
  targetSenders : w.contract.targetSenders = if targets = [] then none else some targets
  header : w.afterContract.rest = reliableSection reliable ++ tail
  ends : w.afterReliable = w.afterContract.advance (reliableSection reliable).length
  reliable : w.reliable = reliable.map fun h => h.onWire (shouldCompactReliableHeader h)
  compressed : decide (w.flags &&& flagCompressedPayload ≠ 0) = compressed
  plain : decide (w.flags &&& flagE2eEncryptedPayload ≠ 0) = false
  room : (if w.flags &&& flagEndpointBitmapPresent ≠ 0 then epBitmapBytes else 0) + tail.length ≤
    w.afterSource.remaining

/-- The walk over a header whose sections are known. -/
theorem HeaderWalk.of_sections {reg : Registry} {flags nep : UInt8} {tyV dsz ts : UInt64}
    {nonce : Option UInt16} {source : UInt32} {ty : DataType} {eps : List DataEndpoint} {contract : WireContract}
    {b₁ b₂ b₃ b₄ b₅ b₆ b₇ b₈ : Bytes} (data tail : Bytes)
    (h₁ : Reads readUleb128 b₁ tyV) (h₂ : Reads readUleb128 b₂ dsz) (h₃ : Reads readUleb128 b₃ ts)
    (h₄ : Reads (whenPresent (flags &&& flagPacketNonce ≠ 0) (readUleb16 "packet nonce too large")) b₄ nonce)
    (h₅ : Reads (readUleb32 "source address too large") b₅ source) (hty : dataTypeIdFromWire tyV = .ok ty)
    (h₆ : Reads (endpointsFromWireOrSchema reg (flags &&& flagEndpointBitmapPresent ≠ 0)
      (flags &&& flagEndpointListPresent ≠ 0) (reg.tryDataType ty) nep.toNat) b₆ eps)
    (h₇ : Reads (decodeWireContract (flags &&& flagWireContract ≠ 0)) b₇ contract) (h₈ : Reads (whenPresent
      (flags &&& flagReliableHeaderPresent ≠ 0 ∨ contract.hasReliableHeader = true)
      (readDataReliableHeader (flags &&& flagCompactReliableHeader ≠ 0))) b₈ reliable)
    (hdata : data = [flags] ++ ([nep] ++ (b₁ ++ (b₂ ++ (b₃ ++ (b₄ ++ (b₅ ++ (b₆ ++ (b₇ ++ (b₈ ++ tail)))))))))) :
    ∃ w : HeaderWalk reg data, w.flags = flags ∧ w.ty = ty ∧ w.dsz = dsz ∧ w.ts = ts ∧
      w.nonce = nonce ∧ w.sourceAddress = source ∧ w.eps = eps ∧ w.contract = contract ∧
      w.reliable = reliable ∧ w.afterSource.rest = b₆ ++ (b₇ ++ (b₈ ++ tail)) ∧
      w.afterContract.rest = b₈ ++ tail ∧ w.afterReliable = w.afterContract.advance b₈.length := by
  have r₀ : (Cursor.start data).rest = _ := (Cursor.start_rest data).trans hdata
  have r₁ := Cursor.rest_advance_of_eq r₀
  have r₂ := Cursor.rest_advance_of_eq r₁
  have r₃ := Cursor.rest_advance_of_eq r₂
  have r₄ := Cursor.rest_advance_of_eq r₃
  have r₅ := Cursor.rest_advance_of_eq r₄
  have r₆ := Cursor.rest_advance_of_eq r₅
  have r₇ := Cursor.rest_advance_of_eq r₆
  have r₈ := Cursor.rest_advance_of_eq r₇
  have r₉ := Cursor.rest_advance_of_eq r₈
  refine ⟨{ flags, nep, tyV, dsz, ts, nonce, sourceAddress := source, ty, eps, contract, reliable,
            afterFlags := _, afterNep := _, afterTy := _, afterSize := _, afterTs := _,
            afterNonce := _, afterSource := _, afterEndpoints := _, afterContract := _,
            afterReliable := _, flags_ok := reads_readByte flags _ _ r₀,
            nep_ok := reads_readByte nep _ _ r₁, ty_ok := h₁ _ _ r₂, size_ok := h₂ _ _ r₃,
            ts_ok := h₃ _ _ r₄, nonce_ok := h₄ _ _ r₅, source_ok := h₅ _ _ r₆, tyId_ok := hty,
            endpoints_ok := h₆ _ _ r₇, contract_ok := h₇ _ _ r₈, reliable_ok := h₈ _ _ r₉ },
    rfl, rfl, rfl, rfl, rfl, rfl, rfl, rfl, rfl, r₇, r₉, rfl⟩

/-- The decoder's walk over a header the encoder wrote, in front of any payload bytes. -/
theorem packed_walk (compressed : Bool) (hnep : (uniqueSortedEndpoints pkt.endpoints).length ≤ 255)
    (hreg : BitmapRegistered env pkt shape targets)
    (hdata : ∀ h, reliable = some h → h.flags &&& reliableFlagAckOnly = 0)
    (hfit : 8 * targets.length ≤ isizeMax) (tail : Bytes) :
    ∃ w : HeaderWalk env.reg (frameHeader env pkt reliable shape targets compressed false ++ tail),
      w.Carries pkt reliable shape targets compressed tail := by
  obtain ⟨hcomp, hcon, hnon, hlist, hbm, hrel, hcmp, henc⟩ := frameFlags_bits compressed
    (shape.isSome || targets != []) (pkt.nonce != 0)
    (packetEndpointBitmapPresent env pkt shape targets && explicitEndpointList pkt.endpoints)
    (packetEndpointBitmapPresent env pkt shape targets) reliable.isSome
    (reliable.any shouldCompactReliableHeader) false
  have hnep' : (UInt8.ofNat (uniqueSortedEndpoints pkt.endpoints).length).toNat =
      (uniqueSortedEndpoints pkt.endpoints).length := by
    rw [UInt8.toNat_ofNat']
    omega
  have hty : dataTypeIdFromWire pkt.ty.toUInt64 = .ok pkt.ty := by
    rw [dataTypeIdFromWire, tryU32_toUInt64]
  obtain ⟨nonce, hnonce, hgetD⟩ := reads_packedNonce pkt.nonce ((flag_iff hnon).trans bne_iff_ne)
  have hends := reads_packedEndpoints hreg hlist hbm hnep'
  obtain ⟨contract, hcontract, hshape, htargets, hhas⟩ :=
    reads_packedContract reliable.isSome hfit hcon
  have hreliable := reads_packedReliable
    ((or_congr_left (flag_iff hrel)).trans (or_iff_left_of_imp hhas)) hcmp hdata
  obtain ⟨w, hwflags, hwty, hwdsz, hwts, hwnonce, hwsource, hweps, hwcontract, hwreliable, hwroom, hwheader,
    hwends⟩ := HeaderWalk.of_sections
      (frameHeader env pkt reliable shape targets compressed false ++ tail) tail
      (reads_writeUleb128 _) (reads_writeUleb128 (UInt64.ofNat pkt.dataSize))
      (reads_writeUleb128 pkt.timestamp) hnonce
      (reads_readUleb32 _ (senderAddressU32 pkt.sender)) hty hends hcontract hreliable (by
        rw [hlist, hcon]
        simp only [frameHeader, cons_append, nil_append, append_assoc])
  have hsize : (UInt64.ofNat pkt.dataSize).toNat = pkt.payload.length := by
    have := pkt.payload_fits
    rw [pkt.dataSize_eq, UInt64.toNat_ofNat']
    unfold isizeMax at this
    omega
  refine ⟨w, ⟨hwty, hwdsz ▸ hsize, hwts, hwnonce ▸ hgetD, hwsource, hweps, hwcontract ▸ hshape,
    hwcontract ▸ htargets, hwheader, hwends, hwreliable, hwflags ▸ hcomp, hwflags ▸ henc, ?_⟩⟩
  rw [hwflags, ← Cursor.length_rest, hwroom, length_append, length_append,
    length_append]
  split
  · rename_i hbit
    have hbits := hbm.symm.trans (decide_eq_true hbit)
    rw [Bool.and_eq_true, Bool.not_eq_true'] at hbits
    rw [hlist, hbits.2, if_neg Bool.false_ne_true, if_pos hbits.1, (buildEndpointBitmap_spec _).1]
    omega
  · omega

/-! ### The round trip -/

section Carries

variable {data tail : Bytes} {compressed : Bool} {w : HeaderWalk env.reg data}
  (h : w.Carries pkt reliable shape targets compressed tail)
include h

theorem HeaderWalk.Carries.rest : w.afterReliable.rest = tail := by
  rw [h.ends]
  exact Cursor.rest_advance_of_eq h.header

theorem HeaderWalk.Carries.eps_ne_nil : w.eps ≠ [] := by
  rw [h.eps]
  exact uniqueSortedEndpoints_ne_nil pkt.endpoints_ne_nil

end Carries

theorem HeaderWalk.Carries.not_short {data : Bytes} {w : HeaderWalk env.reg data}
    (hzstd : compressionAllowed = true → env.zstd.Inverts)
    (h : w.Carries pkt reliable shape targets (payloadForEncoding env pkt compressionAllowed).1
      (payloadForEncoding env pkt compressionAllowed).2) :
    shortBuffer w.flags w.afterSource.remaining w.dsz.toNat = false := by
  have hroom := h.room
  have hfits := pkt.payload_fits
  have hbytes : (if w.flags &&& flagEndpointBitmapPresent ≠ 0 then epBitmapBytes else 0) ≤ 32 := by
    split
    · exact le_refl 32
    · omega
  unfold shortBuffer
  rw [h.dsz]
  rcases payloadForEncoding_cases env pkt compressionAllowed with hp | ⟨capacity, output, hp, hout⟩
  · have hoff := of_decide_eq_false (h.compressed.trans (congrArg Prod.fst hp))
    rw [hp] at hroom
    simp only [not_not.mp hoff, if_true, decide_eq_false_iff_not, Nat.not_lt]
    refine le_trans (Nat.le_of_eq ?_) hroom
    unfold wrapAdd isizeMax at *
    exact Nat.mod_eq_of_lt (by omega)
  · have hon := of_decide_eq_true (h.compressed.trans (congrArg Prod.fst hp))
    have hpos := length_pos_iff.mpr ((hzstd (allowed_of_compressed hp)).compress_ne_nil _ _ _ hout)
    rw [hp] at hroom
    simp only [hon, if_false, decide_eq_false_iff_not, Nat.not_lt]
    simp only at hroom
    omega

/-- The decoded packet has the content of the packed one, and the contract of the frame. -/
structure Packet.SameContent (q p : Packet) (shape : Option MessageElement) (targets : List UInt64) : Prop where
  ty : q.ty = p.ty
  timestamp : q.timestamp = p.timestamp
  nonce : q.nonce = p.nonce
  payload : q.payload = p.payload
  dataSize : q.dataSize = p.dataSize
  wireShape : q.wireShape = shape
  targetSenders : q.targetSenders = targets
  sourceAddress : senderAddressU32 q.sender = senderAddressU32 p.sender
  endpoints_sorted : q.endpoints.Pairwise (· < ·)
  endpoints_mem : ∀ ep, ep ∈ q.endpoints ↔ ep ∈ p.endpoints

variable {p : Packet}

/-- A packed frame is its header and its payload section in front of their checksum. -/
theorem packPacketInnerWithContract_eq
    (reliable : Option ReliableHeader) (shape : Option MessageElement) (targets : List UInt64)
    (compressionAllowed : Bool) (hnep : (uniqueSortedEndpoints p.endpoints).length ≤ 255) :
    packPacketInnerWithContract env p reliable shape targets none compressionAllowed = .ok (appendCrc32 env
        (frameHeader env p reliable shape targets (payloadForEncoding env p compressionAllowed).1 false ++
          (payloadForEncoding env p compressionAllowed).2)) := by
  unfold packPacketInnerWithContract withPacketFrameParts
  simp only [Nat.not_lt.mpr hnep, if_false]
  rfl

theorem packPacketInner_eq (reliable : Option ReliableHeader)
    (hnep : (uniqueSortedEndpoints p.endpoints).length ≤ 255) : packPacketInner env p reliable = .ok (appendCrc32 env
      (frameHeader env p reliable p.wireShape p.targetSenders (payloadForEncoding env p true).1 false ++
        (payloadForEncoding env p true).2)) :=
  packPacketInnerWithContract_eq reliable p.wireShape p.targetSenders true hnep

/-- The walk over a packed frame. -/
theorem walk_of_packed (hnep : (uniqueSortedEndpoints p.endpoints).length ≤ 255)
    (hreg : BitmapRegistered env p shape targets)
    (hdata : ∀ h, reliable = some h → h.flags &&& reliableFlagAckOnly = 0) (hfit : 8 * targets.length ≤ isizeMax)
    {b : Bytes} (hb : packPacketInnerWithContract env p reliable shape targets none compressionAllowed = .ok b) :
    ∃ data, ∃ w : HeaderWalk env.reg data, b = appendCrc32 env data ∧
      w.Carries p reliable shape targets (payloadForEncoding env p compressionAllowed).1
        (payloadForEncoding env p compressionAllowed).2 := by
  obtain ⟨w, hw⟩ := packed_walk (payloadForEncoding env p compressionAllowed).1 hnep hreg hdata hfit
    (payloadForEncoding env p compressionAllowed).2
  rw [packPacketInnerWithContract_eq reliable shape targets compressionAllowed hnep] at hb
  cases hb
  exact ⟨_, w, rfl, hw⟩

/-- Unpacking a packed frame. -/
theorem unpackPacketWithRole_packed (hzstd : compressionAllowed = true → env.zstd.Inverts)
    (hgrant : env.probe.Granting)
    (hvalid : validatePayloadAgainstElement env.reg (shape.getD (env.reg.messageMeta p.ty).element) p.payload = .ok ())
    (hnep : (uniqueSortedEndpoints p.endpoints).length ≤ 255) (hreg : BitmapRegistered env p shape targets)
    (hknown : env.reg.dataTypeExists p.ty = true ∨ shape.isSome = true)
    (hdata : ∀ h, reliable = some h → h.flags &&& reliableFlagAckOnly = 0) (hfit : 8 * targets.length ≤ isizeMax)
    (book : AddressBook) (managed : Bool) {b : Bytes}
    (hb : packPacketInnerWithContract env p reliable shape targets none compressionAllowed = .ok b) :
    ∃ q, unpackPacketWithRole env book b managed = .ok q ∧ q.SameContent p shape targets := by
  obtain ⟨data, w, rfl, hw⟩ := walk_of_packed hnep hreg hdata hfit hb
  obtain ⟨c', hpayload⟩ := readPayload_packed hzstd hgrant hw.compressed hw.plain hw.rest
  have htargets : w.contract.targetSenders.getD [] = targets := by
    rw [hw.targetSenders]
    split
    · rename_i h
      exact h.symm
    · rfl
  obtain ⟨q, hq⟩ : ∃ q, Packet.newWithOwnedWireContract env.reg w.ty w.eps
      (book.senderNameForAddress w.sourceAddress) w.ts (w.nonce.getD 0) p.payload w.contract.shape
      w.contract.targetSenders = .ok q := by
    apply Packet.newWithOwnedWireContract_of_valid
    · exact hw.eps_ne_nil
    · rw [hw.shape, hw.ty]
      exact hvalid
    · exact p.payload_fits
    · rw [htargets]
      exact hfit
  have hknown' : env.reg.dataTypeExists w.ty = true ∨ w.contract.shape.isSome = true := by
    rw [hw.ty, hw.shape]
    exact hknown
  have hpayload' : readPayload env w.flags w.dsz.toNat w.afterReliable = .ok (p.payload, c') := by
    rw [hw.dsz]
    exact hpayload
  refine ⟨q, unpackPacketWithRole_append ?_
    (w.unpackBody _ managed (hw.not_short hzstd) hknown' hgrant hpayload' hq), ?_⟩
  · exact fun h => cons_ne_nil _ _ (w.data_eq.symm.trans h)
  · obtain ⟨hty, heps, hsender, hts, hnonce, hpl, hshape, htg, -⟩ :=
      Packet.newWithOwnedWireContract_ok hq
    refine ⟨hty.trans hw.ty, hts.trans hw.ts, hnonce.trans hw.nonce, hpl, ?_,
      hshape.trans hw.shape, ?_, ?_, ?_, ?_⟩
    · rw [q.dataSize_eq, p.dataSize_eq, hpl]
    · rw [Packet.targetSenders, htg, htargets]
    · rw [hsender, senderAddressU32_senderName, hw.sourceAddress]
    · rw [heps]
      exact w.eps_pairwise
    · intro ep
      rw [heps, hw.eps, mem_uniqueSortedEndpoints]

theorem peekFrameInfo_packed (hnep : (uniqueSortedEndpoints p.endpoints).length ≤ 255)
    (hreg : BitmapRegistered env p p.wireShape p.targetSenders)
    (hdata : ∀ h, reliable = some h → h.flags &&& reliableFlagAckOnly = 0)
    (book : AddressBook) {b : Bytes} (hb : packPacketInner env p reliable = .ok b) :
    ∃ info, peekFrameInfo env book b = .ok info ∧
      info.reliable = reliable.map fun h => h.onWire (shouldCompactReliableHeader h) := by
  obtain ⟨data, w, rfl, hw⟩ := walk_of_packed hnep hreg hdata p.targets_fit hb
  obtain ⟨e, hinfo, -, -⟩ := w.frameInfo hw.eps_ne_nil
  refine ⟨⟨e.intoOwned book, w.reliable⟩, ?_, hw.reliable⟩
  rw [peekFrameInfo, withVerified, verifyCrc32_append]
  simp only [eval_of_ok hinfo]

/-- Every accepted packet of a known type survives packing and unpacking, and the reliable header
comes back as it was given; `packPacketInner` is what all the packing functions call. -/
theorem unpack_pack {env : WireEnv} {ty : DataType} {endpoints : List DataEndpoint} {sender : Bytes}
    {timestamp : UInt64} {nonce : UInt16} {payload : Bytes} {shape : Option MessageElement}
    {targets : Option (List UInt64)} {p : Packet} (hzstd : env.zstd.Inverts)
    (hgrant : env.probe.Granting)
    (hp : Packet.newWithOwnedWireContract env.reg ty endpoints sender timestamp nonce payload shape
      targets = .ok p)
    (hnep : (uniqueSortedEndpoints p.endpoints).length ≤ 255)
    (hreg : BitmapRegistered env p p.wireShape p.targetSenders)
    (hknown : env.reg.dataTypeExists p.ty = true ∨ p.wireShape.isSome = true)
    (h : Option ReliableHeader)
    (hflags : ∀ hdr, h = some hdr →
      hdr.flags &&& (reliableFlagUnordered ||| reliableFlagUnsequenced) = hdr.flags)
    (book : AddressBook) :
    ∃ b q info, packPacketInner env p h = .ok b ∧ unpackPacket env book b = .ok q ∧
      q.SameContent p p.wireShape p.targetSenders ∧ peekFrameInfo env book b = .ok info ∧ info.reliable = h := by
  have hmask : ∀ f, f &&& (reliableFlagUnordered ||| reliableFlagUnsequenced) = f →
      f &&& reliableFlagAckOnly = 0 ∧ f &&& reliablePublicFlagsMask = f := by decide +kernel
  have hdata : ∀ hdr, h = some hdr → hdr.flags &&& reliableFlagAckOnly = 0 :=
    fun hdr hsome => (hmask _ (hflags hdr hsome)).1
  have hvalid : validatePayloadAgainstElement env.reg
      (p.wireShape.getD (env.reg.messageMeta p.ty).element) p.payload = .ok () := by
    obtain ⟨hty, -, -, -, -, hpl, hshape, -, hv⟩ := Packet.newWithOwnedWireContract_ok hp
    rw [hty, hpl, hshape]
    exact hv
  have honwire : (h.map fun hdr => hdr.onWire (shouldCompactReliableHeader hdr)) = h := by
    cases h with
    | none => rfl
    | some hdr => exact congrArg some (hdr.onWire_of_public _ (hmask _ (hflags hdr rfl)).2)
  have hpack : packPacketInner env p h = _ := packPacketInner_eq h hnep
  obtain ⟨q, hunpack, hsame⟩ :=
    unpackPacketWithRole_packed (fun _ => hzstd) hgrant hvalid hnep hreg hknown hdata p.targets_fit book false hpack
  obtain ⟨info, hpeek, hrel⟩ := peekFrameInfo_packed hnep hreg hdata book hpack
  exact ⟨_, q, info, hpack, hunpack, hsame, hpeek, hrel.trans honwire⟩

/-- A packet of the sample type for one of its endpoints, with frozen targets. -/
def samplePacket : Packet where
  ty := 100
  dataSize := 2
  sender := [0x47, 0x53]
  endpoints := [6, 6]
  timestamp := 7
  nonce := 3
  payload := [0xAA, 0xBB]
  wireShape := some (.static 2 .uint8 .data)
  wireTargetSenders := some [1, 2]
  dataSize_eq := rfl
  endpoints_ne_nil := by decide
  payload_fits := by decide
  targets_fit := by decide

theorem unpack_pack_sample : ∃ b q info,
    packPacketInner (plainEnv sampleRegistry) samplePacket (some ⟨0x80, 9, 4⟩) = .ok b ∧
      unpackPacket (plainEnv sampleRegistry) .empty b = .ok q ∧
      q.SameContent samplePacket samplePacket.wireShape samplePacket.targetSenders ∧
      peekFrameInfo (plainEnv sampleRegistry) .empty b = .ok info ∧ info.reliable = some ⟨0x80, 9, 4⟩ :=
  unpack_pack (plainEnv_inverts _) (plainEnv_granting _)
    (show Packet.newWithOwnedWireContract sampleRegistry 100 [6, 6] [0x47, 0x53] 7 3 [0xAA, 0xBB]
      (some (.static 2 .uint8 .data)) (some [1, 2]) = .ok samplePacket by decide +kernel)
    (by decide +kernel) (by unfold BitmapRegistered; decide +kernel) (.inl (by decide +kernel)) _
    (by decide) _

theorem five_ne_nil : [(5 : DataEndpoint)] ≠ [] := by decide

theorem no_targets_fit : 8 * ((none : Option (List UInt64)).getD []).length ≤ isizeMax := by decide

/-- A publication of two bytes. -/
def publishedPacket (nonce : UInt16) : Packet :=
  { samplePacket with
    endpoints := [5], nonce, wireShape := none, wireTargetSenders := none, endpoints_ne_nil := five_ne_nil,
    targets_fit := no_targets_fit }

/-- A packet of a type the registry does not know, without a wire shape. -/
def unknownTypePacket : Packet :=
  { publishedPacket 0 with
    ty := 1000, dataSize := 0, timestamp := 0, payload := [], dataSize_eq := rfl, payload_fits := Nat.zero_le _ }

/-- Such a packet is accepted and packed, and its frame is refused for its type. -/
theorem unpack_pack_unknown_type : (plainEnv sampleRegistry).zstd.Inverts ∧ (plainEnv sampleRegistry).probe.Granting ∧
    Packet.newWithOwnedWireContract sampleRegistry 1000 [5] [0x47, 0x53] 0 0 [] none none = .ok unknownTypePacket ∧
    (uniqueSortedEndpoints unknownTypePacket.endpoints).length ≤ 255 ∧
    (∀ ep ∈ unknownTypePacket.endpoints, sampleRegistry.endpointExists ep = true) ∧
    ∃ b, packPacketInner (plainEnv sampleRegistry) unknownTypePacket none = .ok b ∧
      unpackPacket (plainEnv sampleRegistry) .empty b = .error .invalidType := by
  refine ⟨plainEnv_inverts _, plainEnv_granting _, by decide +kernel, by decide +kernel, ?_,
    [128, 1, 232, 7, 0, 0, 151, 215, 142, 162, 13, 5, 117, 17, 192, 179], by decide +kernel, ?_⟩
  · intro ep hep
    rw [mem_singleton.mp hep]
    decide
  · decide +kernel

end SedsNet
