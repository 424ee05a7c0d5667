import SedsNet.WireRoundTrip

/-! # Rewriting packed frames

The operations of `wire_format.rs` that change a packed frame without decoding the packet: the
reliable header rewrite, in place or into a new buffer, and the payload re-encoders used before a
frame is handed to a side or retained for replay.

`PlainFrame` collects the frames that packing and these operations produce.  None of them ever sets
the encryption flag (`PlainFrame.unsealed`). -/

namespace SedsNet

open ByteCursor ByteWords

/-! ### The reliable header rewrite -/

/-- Set or clear the compact flag of the first byte. -/
def setCompactFlag (compact : Bool) : Bytes → Bytes
  | [] => []
  | first :: rest =>
    (if compact then first ||| flagCompactReliableHeader
      else first &&& ~~~flagCompactReliableHeader) :: rest

section

variable (env : WireEnv)

/-- `rewrite_reliable_header`: whether a header was present, and the buffer after the call.  All
errors are raised before the buffer is written. -/
def rewriteReliableHeader (buf : Bytes) (flags : UInt8) (seq ack : UInt32) :
    TelemetryResult (Bool × Bytes) :=
  match reliableHeaderSpan buf with
  | .error e => .error e
  | .ok none => .ok (false, buf)
  | .ok (some (off, oldLen, _)) =>
    let hdr : ReliableHeader := ⟨flags, seq, ack⟩
    let compact := shouldCompactReliableHeader hdr
    let dataLen := buf.length - crc32Bytes
    if reliableWireSize hdr compact ≠ oldLen then
      .error (.unpack "reliable header rewrite changes wire size")
    else if dataLen - off < oldLen then .error (.unpack "short buffer")
    else
      let marked := setCompactFlag compact buf
      let encoded := writeReliableHeaderEncoded hdr compact
      let out := marked.take off ++ encoded ++ marked.drop (off + oldLen)
      .ok (true, appendCrc32 env (out.take dataLen))

/-- `rewrite_reliable_header_owned`: the new header may have another size. -/
def rewriteReliableHeaderOwned (buf : Bytes) (flags : UInt8) (seq ack : UInt32) :
    TelemetryResult (Option Bytes) :=
  match reliableHeaderSpan buf with
  | .error e => .error e
  | .ok none => .ok none
  | .ok (some (off, oldLen, _)) =>
    let hdr : ReliableHeader := ⟨flags, seq, ack⟩
    let compact := shouldCompactReliableHeader hdr
    let dataLen := buf.length - crc32Bytes
    if dataLen < off + oldLen then .error (.unpack "short buffer")
    else
      .ok (some (appendCrc32 env (setCompactFlag compact (buf.take off) ++
        writeReliableHeaderEncoded hdr compact ++ (buf.take dataLen).drop (off + oldLen))))

/-! ### The payload re-encoders -/

/-- The logical payload size in the prelude of a frame. -/
def readLogicalSize : ByteReader UInt64 := do
  let _prelude ← readBytes 2
  let _ty ← readUleb128
  readUleb128

/-- Whether an uncompressed payload is too small to be compressed. -/
def belowCompressThreshold (raw : Bytes) : TelemetryResult Bool :=
  match eval readLogicalSize (Cursor.start raw) with
  | .error e => .error e
  | .ok logical => .ok (decide (logical.toNat < env.compressThreshold))

/-- The new flags and payload of a frame whose payload changes its form. -/
def reencodePayload (flags : UInt8) (payload : Bytes) (logical : ℕ) :
    TelemetryResult (Option (UInt8 × Bytes)) :=
  if flags &&& flagCompressedPayload ≠ 0 then
    match decompress env payload logical with
    | .error e => .error e
    | .ok out => .ok (some (flags &&& ~~~flagCompressedPayload, out))
  else if payload.length ≠ logical then .error (.unpack "payload length mismatch")
  else
    match compressIfBeneficial env payload with
    | (false, _) => .ok none
    | (true, value) => .ok (some (flags ||| flagCompressedPayload, value))

/-- The part of `payload_encoding_for_side` behind the checksum and the early exits. -/
def payloadEncodingForData (data : Bytes) (flags : UInt8) (allowed : Bool)
    (maxDecodedBytes : ℕ) : TelemetryResult (Option Bytes) :=
  let compressed := decide (flags &&& flagCompressedPayload ≠ 0)
  match (readFrameInfo env.reg data) (Cursor.start data) with
  | .error e => .error e
  | .ok ((envelope, _, _), c) =>
    let allowed := allowed && !isDiscoveryType envelope.ty
    let header := data.take c.off
    let payload := data.drop c.off
    if compressed = allowed then .ok none
    else
      match eval readLogicalSize (Cursor.start data) with
      | .error e => .error e
      | .ok size =>
        let logical := size.toNat
        if maxDecodedBytes < logical ∨ isizeMax - header.length - crc32Bytes < logical then
          if compressed then .error (.io "payload exceeds routing memory budget") else .ok none
        else
          match env.probe.check 0 (satAdd (satAdd (satMul logical 2) (satMul header.length 2)) 64)
              (satAdd (satAdd (satAdd logical header.length) crc32Bytes) 32) with
          | .error e => if compressed then .error e else .ok none
          | .ok () =>
            match reencodePayload env flags payload logical with
            | .error e => .error e
            | .ok none => .ok none
            | .ok (some (newFlag, newPayload)) =>
              .ok (some (joinFrameWithCrc env (newFlag :: header.tail) newPayload))

/-- `payload_encoding_for_side`: `none` keeps the existing frame. -/
def payloadEncodingForSide (raw : Bytes) (allowed : Bool) (maxDecodedBytes : ℕ) :
    TelemetryResult (Option Bytes) :=
  match raw with
  | [] => .error (.unpack "short prelude")
  | flags :: _ =>
    let compressed := decide (flags &&& flagCompressedPayload ≠ 0)
    if flags &&& flagE2eEncryptedPayload ≠ 0 then
      if compressed && !allowed then
        .error (.io "opaque compressed payload requires codec-capable peers")
      else .ok none
    else if compressed = false ∧ allowed = false then .ok none
    else
      match (if compressed then .ok false else belowCompressThreshold env raw) with
      | .error e => .error e
      | .ok true => .ok none
      | .ok false =>
        match verifyCrc32 env raw with
        | .error e => .error e
        | .ok data => payloadEncodingForData env data flags allowed maxDecodedBytes

def payloadEncodingForRetention (raw : Bytes) (budget : ℕ) : TelemetryResult (Option Bytes) :=
  if raw.head?.any (fun flags => flags &&& flagE2eEncryptedPayload ≠ 0) then .ok none
  else payloadEncodingForSide env raw false budget

end

/-! ### Where the reliable header can stand -/

theorem skipEndpoints_advances (flags : UInt8) (nep : ℕ) : Advances (skipEndpoints flags nep) := by
  unfold skipEndpoints
  split
  · exact (Local.failIf _ _).advances.bind fun _ =>
      (readEndpointList_local nep).advances.bind fun _ => (Local.pure _).advances
  · split
    · exact ((readBytes_local _).bind fun _ => Local.pure _).advances
    · exact (Local.pure _).advances

variable {data : Bytes} {off len : ℕ} {hdr : ReliableHeader}

/-- The reliable header comes behind the two bytes of the prelude. -/
theorem reliableHeaderSpanBody_off {c' : Cursor}
    (h : reliableHeaderSpanBody (Cursor.start data) = .ok (some (off, len, hdr), c')) : 2 ≤ off := by
  obtain ⟨flags, c₁, h₁, h⟩ := bind_ok h
  obtain ⟨nep, c₂, h₂, h⟩ := bind_ok h
  obtain ⟨tyV, c₃, h₃, h⟩ := bind_ok h
  obtain ⟨dsz, c₄, h₄, h⟩ := bind_ok h
  obtain ⟨ts, c₅, h₅, h⟩ := bind_ok h
  obtain ⟨nonce, c₆, h₆, h⟩ := bind_ok h
  obtain ⟨source, c₇, h₇, h⟩ := bind_ok h
  rw [remaining_bind] at h
  obtain ⟨-, h⟩ := failIf_bind_ok h
  obtain ⟨_, c₈, h₈, h⟩ := bind_ok h
  obtain ⟨contract, c₉, h₉, h⟩ := bind_ok h
  obtain ⟨ty, -, h⟩ := ofResult_bind_ok h
  have e₁ : c₁.off = 1 := by rw [(readByte_ok h₁).2]; rfl
  have e₂ : c₂.off = 2 := by rw [(readByte_ok h₂).2, Cursor.advance_off, e₁]
  have e₃ := (readUleb128_local.advances h₃).2
  have e₄ := (readUleb128_local.advances h₄).2
  have e₅ := (readUleb128_local.advances h₅).2
  have e₆ := ((Local.whenPresent _ readUleb128_local).advances h₆).2
  have e₇ := ((readUleb32_local _).advances h₇).2
  have e₈ := (skipEndpoints_advances _ _ h₈).2
  have e₉ := ((decodeWireContract_local _).advances h₉).2
  rcases whenPresent_ok h with ⟨-, span, hspan, heq⟩ | ⟨-, heq, -⟩
  · unfold readSpan at hspan
    rw [position_bind] at hspan
    obtain ⟨hdr', c₁₀, -, hspan⟩ := bind_ok hspan
    obtain ⟨rfl, -⟩ := pure_ok_inv hspan
    cases heq
    omega
  · cases heq

variable {buf : Bytes}

theorem reliableHeaderSpan_off
    (h : reliableHeaderSpan buf = .ok (some (off, len, hdr))) : 2 ≤ off ∧ 4 < buf.length := by
  unfold reliableHeaderSpan crc32Bytes at h
  split_ifs at h with hlen
  obtain ⟨c', hrun⟩ := eval_ok h
  exact ⟨reliableHeaderSpanBody_off hrun, by omega⟩

/-! ### Frames without encryption -/

/-- The frame has a first byte, without the encryption flag. -/
def Unsealed (frame : Bytes) : Prop :=
  ∃ first rest, frame = first :: rest ∧ first &&& flagE2eEncryptedPayload = 0

variable {frame : Bytes}

theorem Unsealed.setCompactFlag (h : Unsealed frame) (compact : Bool) : Unsealed (setCompactFlag compact frame) := by
  obtain ⟨first, rest, rfl, hfirst⟩ := h
  have hbits : ∀ f : UInt8, f &&& flagE2eEncryptedPayload = 0 →
      (f ||| flagCompactReliableHeader) &&& flagE2eEncryptedPayload = 0 ∧
        (f &&& ~~~flagCompactReliableHeader) &&& flagE2eEncryptedPayload = 0 := by decide +kernel
  refine ⟨_, rest, rfl, ?_⟩
  cases compact with
  | true => exact (hbits first hfirst).1
  | false => exact (hbits first hfirst).2

variable {n : ℕ}

/-- Keeping at least the first byte. -/
theorem Unsealed.take_append (h : Unsealed frame) (hn : 0 < n) (tail : Bytes) : Unsealed (frame.take n ++ tail) := by
  obtain ⟨first, rest, rfl, hfirst⟩ := h
  obtain ⟨k, rfl⟩ := Nat.exists_eq_succ_of_ne_zero (Nat.pos_iff_ne_zero.mp hn)
  exact ⟨first, rest.take k ++ tail, rfl, hfirst⟩

theorem Unsealed.take (h : Unsealed frame) (hn : 0 < n) : Unsealed (frame.take n) := by
  have := h.take_append hn []
  rwa [List.append_nil] at this

theorem Unsealed.append (h : Unsealed frame) (tail : Bytes) : Unsealed (frame ++ tail) := by
  obtain ⟨first, rest, rfl, hfirst⟩ := h
  exact ⟨first, rest ++ tail, rfl, hfirst⟩

variable {env : WireEnv}

theorem unsealed_packPacketInner {p : Packet} {reliable : Option ReliableHeader}
    {b : Bytes} (h : packPacketInner env p reliable = .ok b) : Unsealed b := by
  by_cases hnep : 255 < (uniqueSortedEndpoints p.endpoints).length
  · simp only [packPacketInner, packPacketInnerWithContract, withPacketFrameParts, hnep,
      if_true] at h
    cases h
  · rw [packPacketInner_eq reliable (Nat.not_lt.mp hnep)] at h
    cases h
    refine ⟨_, _, rfl, ?_⟩
    exact not_not.mp (of_decide_eq_false (frameFlags_bits _ _ _ _ _ _ _ false).2.2.2.2.2.2.2)

theorem unsealed_packReliableAck (env : WireEnv) (sender : Bytes) (ty : DataType)
    (timestampMs : UInt64) (ack : UInt32) : Unsealed (packReliableAck env sender ty timestampMs ack) := by
  have hbits : ∀ compact : Bool, (flagEndpointListPresent ||| flagReliableHeaderPresent |||
      (if compact then flagCompactReliableHeader else 0)) &&& flagE2eEncryptedPayload = 0 := by decide
  exact ⟨_, _, rfl, hbits _⟩

variable {out : Bytes} {flags : UInt8} {seq ack : UInt32}

theorem Unsealed.rewriteReliableHeader {present : Bool} (h : Unsealed buf)
    (hr : rewriteReliableHeader env buf flags seq ack = .ok (present, out)) : Unsealed out := by
  unfold SedsNet.rewriteReliableHeader at hr
  split at hr
  · cases hr
  · cases hr
    exact h
  rename_i span hspan
  obtain ⟨hoff, hlen⟩ := reliableHeaderSpan_off hspan
  simp only at hr
  split at hr
  · cases hr
  split at hr
  · cases hr
  cases hr
  refine Unsealed.append (Unsealed.take (Unsealed.append ?_ _) ?_) _
  · exact (h.setCompactFlag _).take_append (by omega) _
  · unfold crc32Bytes
    omega

theorem Unsealed.rewriteReliableHeaderOwned (h : Unsealed buf)
    (hr : rewriteReliableHeaderOwned env buf flags seq ack = .ok (some out)) : Unsealed out := by
  unfold SedsNet.rewriteReliableHeaderOwned at hr
  split at hr
  · cases hr
  · cases hr
  rename_i span hspan
  obtain ⟨hoff, -⟩ := reliableHeaderSpan_off hspan
  simp only at hr
  split at hr
  · cases hr
  cases hr
  refine Unsealed.append (Unsealed.append (Unsealed.append ?_ _) _) _
  exact (h.take (by omega)).setCompactFlag _

/-- The re-encoded frame keeps the flags but for the compression bit. -/
theorem reencodePayload_flags {newFlag : UInt8} {payload newPayload : Bytes}
    {logical : ℕ} (h : reencodePayload env flags payload logical = .ok (some (newFlag, newPayload))) :
    newFlag = flags &&& ~~~flagCompressedPayload ∨ newFlag = flags ||| flagCompressedPayload := by
  unfold reencodePayload at h
  split at h
  · split at h
    · cases h
    cases h
    exact .inl rfl
  · split at h
    · cases h
    split at h
    · cases h
    cases h
    exact .inr rfl

variable {allowed : Bool} {maxDecodedBytes : ℕ}

theorem payloadEncodingForData_ok (h : payloadEncodingForData env data flags allowed maxDecodedBytes = .ok (some out)) :
    ∃ newFlag header payload newPayload logical,
      reencodePayload env flags payload logical = .ok (some (newFlag, newPayload)) ∧
      out = joinFrameWithCrc env (newFlag :: header) newPayload := by
  unfold payloadEncodingForData at h
  simp only at h
  split at h
  · cases h
  split at h
  · cases h
  split at h
  · cases h
  split at h
  · split at h <;> cases h
  split at h
  · split at h <;> cases h
  split at h
  · cases h
  · cases h
  rename_i newFlag newPayload hre
  cases h
  exact ⟨newFlag, _, _, newPayload, _, hre, rfl⟩

theorem Unsealed.payloadEncodingForSide {raw : Bytes} (h : Unsealed raw)
    (hr : payloadEncodingForSide env raw allowed maxDecodedBytes = .ok (some out)) : Unsealed out := by
  obtain ⟨first, rest, rfl, hfirst⟩ := h
  have hbits : ∀ f : UInt8, f &&& flagE2eEncryptedPayload = 0 →
      (f ||| flagCompressedPayload) &&& flagE2eEncryptedPayload = 0 ∧
        (f &&& ~~~flagCompressedPayload) &&& flagE2eEncryptedPayload = 0 := by decide +kernel
  unfold SedsNet.payloadEncodingForSide at hr
  simp only at hr
  rw [if_neg (not_not.mpr hfirst)] at hr
  split at hr
  · cases hr
  split at hr
  · cases hr
  · cases hr
  split at hr
  · cases hr
  obtain ⟨newFlag, header, payload, newPayload, logical, hre, rfl⟩ :=
    payloadEncodingForData_ok hr
  refine ⟨newFlag, _, rfl, ?_⟩
  rcases reencodePayload_flags hre with rfl | rfl
  · exact (hbits first hfirst).2
  · exact (hbits first hfirst).1

/-- The frames that packing, header rewrites and payload re-encoding produce.  The environment may
differ from step to step: the schema grows and the memory probe answers as it likes. -/
inductive PlainFrame : Bytes → Prop
  | packPacket {env : WireEnv} {p : Packet} {b : Bytes} (h : packPacket env p = .ok b) :
      PlainFrame b
  | packPacketWithReliable {env : WireEnv} {p : Packet} {header : ReliableHeader} {b : Bytes}
      (h : packPacketWithReliable env p header = .ok b) : PlainFrame b
  | packReliableAck (env : WireEnv) (sender : Bytes) (ty : DataType) (timestampMs : UInt64)
      (ack : UInt32) : PlainFrame (packReliableAck env sender ty timestampMs ack)
  | rewriteReliableHeader {env : WireEnv} {buf out : Bytes} {present : Bool} {flags : UInt8}
      {seq ack : UInt32} (hbuf : PlainFrame buf)
      (h : rewriteReliableHeader env buf flags seq ack = .ok (present, out)) : PlainFrame out
  | rewriteReliableHeaderOwned {env : WireEnv} {buf out : Bytes} {flags : UInt8}
      {seq ack : UInt32} (hbuf : PlainFrame buf)
      (h : rewriteReliableHeaderOwned env buf flags seq ack = .ok (some out)) : PlainFrame out
  | payloadEncodingForSide {env : WireEnv} {raw out : Bytes} {allowed : Bool}
      {maxDecodedBytes : ℕ} (hraw : PlainFrame raw)
      (h : payloadEncodingForSide env raw allowed maxDecodedBytes = .ok (some out)) : PlainFrame out
  | payloadEncodingForRetention {env : WireEnv} {raw out : Bytes} {budget : ℕ}
      (hraw : PlainFrame raw)
      (h : payloadEncodingForRetention env raw budget = .ok (some out)) : PlainFrame out

theorem PlainFrame.unsealed (h : PlainFrame frame) : Unsealed frame := by
  induction h with
  | packPacket h =>
    unfold SedsNet.packPacket SedsNet.packPacketWithReliable at h
    split at h
    · exact unsealed_packPacketInner h
    · exact unsealed_packPacketInner h
  | packPacketWithReliable h => exact unsealed_packPacketInner h
  | packReliableAck env sender ty timestampMs ack =>
    exact unsealed_packReliableAck env sender ty timestampMs ack
  | rewriteReliableHeader _ h ih => exact ih.rewriteReliableHeader h
  | rewriteReliableHeaderOwned _ h ih => exact ih.rewriteReliableHeaderOwned h
  | payloadEncodingForSide _ h ih => exact ih.payloadEncodingForSide h
  | payloadEncodingForRetention _ h ih =>
    unfold SedsNet.payloadEncodingForRetention at h
    split at h
    · cases h
    · exact ih.payloadEncodingForSide h

end SedsNet
