import SedsNet.WireRoundTrip

/-! # The stable packet identity

`packet_id_from_wire` and `Packet::packet_id` hash the same fields in the same order, one from the
raw frame and one from a decoded packet.  `HeaderWalk.packetIdBody` runs the wire hasher along the
walk of the full decoder; both halves of the main theorem `packet_id_stable` follow from it, with
the walk of an accepted frame and with the walk of a packed one. -/

namespace SedsNet

open ByteCursor ByteWords

/-! ### The payload as the identity reads it -/

variable {env : WireEnv} {flags : UInt8} {c c' : Cursor} {payload : Bytes}

theorem readPayload_length {dsz : ℕ} (h : readPayload env flags dsz c = .ok (payload, c')) : payload.length = dsz := by
  obtain ⟨wire, c₁, hwire, h⟩ := bind_ok h
  split_ifs at h with hcomp
  · obtain ⟨out, hout, h⟩ := ofResult_bind_ok h
    obtain ⟨-, -, h⟩ := ofResult_bind_ok h
    obtain ⟨rfl, -⟩ := pure_ok_inv h
    exact decompress_length hout
  · obtain ⟨hlen, h⟩ := failIf_bind_ok h
    obtain ⟨rfl, -⟩ := pure_ok_inv h
    exact not_not.mp hlen

/-- Both payload readers agree, but for a compressed payload of no bytes. -/
theorem readIdPayload_of_ok {dsz : ℕ} (h : readPayload env flags dsz c = .ok (payload, c'))
    (hpos : flags &&& flagCompressedPayload ≠ 0 → c.remaining ≠ 0) :
    readIdPayload env flags dsz c = .ok (payload, c') := by
  obtain ⟨wire, c₁, hwire, h⟩ := bind_ok h
  have hsame : readIdPayloadWire env flags dsz c = .ok (wire, c₁) := by
    unfold readPayloadWire at hwire
    unfold readIdPayloadWire
    by_cases henc : flags &&& flagE2eEncryptedPayload ≠ 0
    · rw [if_pos henc] at hwire ⊢
      exact hwire
    rw [if_neg henc] at hwire ⊢
    by_cases hcomp : flags &&& flagCompressedPayload = 0
    · rw [if_pos hcomp] at hwire ⊢
      rw [remaining_bind, failIf_bind (Nat.not_lt.mpr (take_ok hwire).1)]
      exact hwire
    · rw [if_neg hcomp] at hwire ⊢
      rw [remaining_bind] at hwire ⊢
      have := hpos hcomp
      rw [failIf_bind (by omega)]
      exact hwire
  unfold readIdPayload
  rw [bind_of_ok hsame]
  by_cases hcomp : flags &&& flagCompressedPayload ≠ 0
  · rw [if_pos hcomp] at h ⊢
    obtain ⟨out, hout, h⟩ := ofResult_bind_ok h
    obtain ⟨-, -, h⟩ := ofResult_bind_ok h
    obtain ⟨rfl, rfl⟩ := pure_ok_inv h
    exact ofResult_of_ok hout
  · rw [if_neg hcomp] at h ⊢
    exact h

/-- The identity's reader on a packed payload section. -/
theorem readIdPayload_packed {pkt : Packet} {compressionAllowed : Bool} (hzstd : env.zstd.Inverts)
    (hcompressed : decide (flags &&& flagCompressedPayload ≠ 0) = (payloadForEncoding env pkt compressionAllowed).1)
    (hplain : decide (flags &&& flagE2eEncryptedPayload ≠ 0) = false)
    (hrest : c.rest = (payloadForEncoding env pkt compressionAllowed).2) :
    ∃ c', readIdPayload env flags pkt.payload.length c = .ok (pkt.payload, c') := by
  -- the identity asks for no memory, so it reads what a decoder with all it asks for reads
  have hread : ∃ c', readPayload { env with probe := (plainEnv env.reg).probe } flags pkt.payload.length c =
      .ok (pkt.payload, c') :=
    readPayload_packed (fun _ => hzstd) (plainEnv_granting env.reg) hcompressed hplain hrest
  have hpos : flags &&& flagCompressedPayload ≠ 0 → c.remaining ≠ 0 := by
    intro hcomp
    rcases packedPayload_cases (fun _ => hzstd) hcompressed hrest with ⟨hoff, -⟩ | ⟨-, hpos, -⟩
    · exact absurd hoff hcomp
    · exact hpos.ne'
  obtain ⟨c', hread⟩ := hread
  have hid := readIdPayload_of_ok hread hpos
  exact ⟨c', hid⟩

/-! ### The wire hasher along a walk -/

variable {data : Bytes}

theorem HeaderWalk.readIdPrelude {reg : Registry} (w : HeaderWalk reg data) :
    peek SedsNet.readIdPrelude (Cursor.start data) =
      .ok (⟨w.flags, w.dsz, w.ts, w.nonce.getD 0, w.sourceAddress⟩, Cursor.start data) := by
  apply peek_of_ok
  unfold SedsNet.readIdPrelude
  rw [bind_of_ok w.flags_ok, bind_of_ok w.nep_ok, bind_of_ok w.ty_ok, bind_of_ok w.size_ok,
    bind_of_ok w.ts_ok, bind_of_ok w.nonce_ok, bind_of_ok w.source_ok, pure_ok]

theorem HeaderWalk.packetIdBody (w : HeaderWalk env.reg data) (hne : w.eps ≠ [])
    (hpayload : readIdPayload env w.flags w.dsz.toNat w.afterReliable = .ok (payload, c'))
    (hlen : payload.length = w.dsz.toNat) : SedsNet.packetIdBody env (Cursor.start data) =
      .ok (Packet.identityHash w.sourceAddress w.ty w.eps w.ts (w.nonce.getD 0) payload, c') := by
  obtain ⟨e, henv, hm⟩ := w.routingEnvelope hne
  have hreliable : whenPresent (e.isReliable = true ∨ e.hasReliableHeader = true)
      (readDataReliableHeader (w.flags &&& flagCompactReliableHeader ≠ 0)) w.afterContract =
        .ok (w.reliable, w.afterReliable) := by
    rw [whenPresent_congr hm.reliable_iff]
    exact w.reliable_ok
  unfold SedsNet.packetIdBody
  rw [bind_of_ok w.readIdPrelude, bind_of_ok henv, bind_of_ok hreliable, bind_of_ok hpayload,
    pure_ok, hm.ty, hm.endpoints, Packet.identityHash, hlen]

/-! ### The identity on the wire -/

/-- A frame marked as compressed with nothing behind its header. -/
def EmptyCompressedPayload (env : WireEnv) (buf : Bytes) : Prop :=
  buf.headD 0 &&& flagCompressedPayload ≠ 0 ∧
    ∃ e reliable, withVerified env buf (readFrameInfo env.reg) = .ok (e, reliable, 0)

theorem packetIdFromWire_of_body {buf data : Bytes} {id : UInt64}
    (hverify : verifyCrc32 env buf = .ok data) (w : HeaderWalk env.reg data)
    (h : SedsNet.packetIdBody env (Cursor.start data) = .ok (id, c')) : packetIdFromWire env buf = .ok id := by
  have hlen : ¬ data.length < 2 := by
    have := congrArg List.length w.data_eq
    simp only [List.length_cons] at this
    omega
  rw [packetIdFromWire, hverify]
  simp only [hlen, if_false]
  exact eval_of_ok h

/-- The identity of an accepted frame is that of the packet it decodes to. -/
theorem packetIdFromWire_unpacked {book : AddressBook} {buf : Bytes}
    {managed : Bool} {p : Packet} (h : unpackPacketWithRole env book buf managed = .ok p)
    (hempty : ¬ EmptyCompressedPayload env buf) : packetIdFromWire env buf = .ok p.packetId := by
  obtain ⟨data, c', hverify, -, hrun⟩ := unpackPacketWithRole_ok h
  obtain ⟨w, payload, hpayload, hnew⟩ := unpackBody_ok hrun
  obtain ⟨hty, heps, hsender, hts, hnonce, hpl, -, -, -⟩ := Packet.newWithOwnedWireContract_ok hnew
  have hne : w.eps ≠ [] := by
    rw [← heps]
    exact p.endpoints_ne_nil
  have hpos : w.flags &&& flagCompressedPayload ≠ 0 → w.afterReliable.remaining ≠ 0 := by
    intro hcomp hzero
    obtain ⟨e, hinfo, -, -⟩ := w.frameInfo hne
    refine hempty ⟨?_, e, w.reliable, ?_⟩
    · rw [w.headD_eq hverify]
      exact hcomp
    · rw [withVerified, hverify]
      rw [hzero] at hinfo
      exact eval_of_ok hinfo
  have hid := w.packetIdBody hne (readIdPayload_of_ok hpayload hpos) (readPayload_length hpayload)
  rw [packetIdFromWire_of_body hverify w hid, p.packetId_eq, hsender, senderAddressU32_senderName, hty,
    heps, uniqueSortedEndpoints_of_pairwise w.eps_pairwise, hts, hnonce, hpl]

/-- The identity of a packed frame is that of the packet. -/
theorem packetIdFromWire_packed {p : Packet} {reliable : Option ReliableHeader}
    {shape : Option MessageElement} {targets : List UInt64} {compressionAllowed : Bool} {b : Bytes}
    (hzstd : env.zstd.Inverts) (hnep : (uniqueSortedEndpoints p.endpoints).length ≤ 255)
    (hreg : BitmapRegistered env p shape targets) (hdata : ∀ h, reliable = some h → h.flags &&& reliableFlagAckOnly = 0)
    (hfit : 8 * targets.length ≤ isizeMax)
    (hb : packPacketInnerWithContract env p reliable shape targets none compressionAllowed = .ok b) :
    packetIdFromWire env b = .ok p.packetId := by
  obtain ⟨data, w, rfl, hw⟩ := walk_of_packed hnep hreg hdata hfit hb
  obtain ⟨c', hpayload⟩ := readIdPayload_packed hzstd hw.compressed hw.plain hw.rest
  rw [← hw.dsz] at hpayload
  have hid := w.packetIdBody hw.eps_ne_nil hpayload hw.dsz.symm
  rw [packetIdFromWire_of_body (verifyCrc32_append _ _) w hid, p.packetId_eq, hw.sourceAddress, hw.ty,
    hw.eps, hw.ts, hw.nonce]

/-- The identity is the same from the frame and from the packet, whatever the encoding of the frame
and the listing of the endpoints. -/
theorem packet_id_stable {env : WireEnv} (hzstd : env.zstd.Inverts) :
    (∀ book buf p, unpackPacket env book buf = .ok p → ¬ EmptyCompressedPayload env buf →
      packetIdFromWire env buf = .ok p.packetId) ∧ (∀ (p : Packet) reliable shape targets compressionAllowed,
      (uniqueSortedEndpoints p.endpoints).length ≤ 255 → BitmapRegistered env p shape targets →
      (∀ h, reliable = some h → h.flags &&& reliableFlagAckOnly = 0) → 8 * targets.length ≤ isizeMax →
      ∃ b, packPacketInnerWithContract env p reliable shape targets none compressionAllowed = .ok b ∧
        packetIdFromWire env b = .ok p.packetId) ∧
    (∀ p p' : Packet, p'.ty = p.ty → senderAddressU32 p'.sender = senderAddressU32 p.sender →
      p'.timestamp = p.timestamp → p'.nonce = p.nonce → p'.payload = p.payload →
      (∀ ep, ep ∈ p'.endpoints ↔ ep ∈ p.endpoints) → p'.packetId = p.packetId) := by
  refine ⟨?_, ?_, ?_⟩
  · intro book buf p h hempty
    exact packetIdFromWire_unpacked h hempty
  · intro p reliable shape targets compressionAllowed hnep hreg hdata hfit
    have hb : packPacketInnerWithContract env p reliable shape targets none compressionAllowed = _ :=
      packPacketInnerWithContract_eq reliable shape targets compressionAllowed hnep
    exact ⟨_, hb, packetIdFromWire_packed hzstd hnep hreg hdata hfit hb⟩
  · intro p p' hty hsender hts hnonce hpl heps
    rw [p.packetId_eq, p'.packetId_eq, hty, hsender, hts, hnonce, hpl,
      uniqueSortedEndpoints_congr heps]

theorem packet_id_stable_sample :
    (∃ p, unpackPacket (plainEnv sampleRegistry) .empty sampleFrame = .ok p ∧
      packetIdFromWire (plainEnv sampleRegistry) sampleFrame = .ok p.packetId) ∧
    (∃ b, packPacketInnerWithContract (plainEnv sampleRegistry) samplePacket (some ⟨0x80, 9, 4⟩) none
        [1, 2] none true = .ok b ∧
      packetIdFromWire (plainEnv sampleRegistry) b = .ok samplePacket.packetId) ∧
    Packet.packetId { samplePacket with endpoints := [6], endpoints_ne_nil := by decide } =
      samplePacket.packetId := by
  refine ⟨?_, ?_, ?_⟩
  · have hplain : ¬ EmptyCompressedPayload (plainEnv sampleRegistry) sampleFrame := by
      intro h
      exact h.1 (by decide +kernel)
    obtain ⟨p, h⟩ : ∃ p, unpackPacket (plainEnv sampleRegistry) .empty sampleFrame = .ok p :=
      exists_ok (by decide +kernel)
    exact ⟨p, h, (packet_id_stable (plainEnv_inverts _)).1 _ _ _ h hplain⟩
  · exact (packet_id_stable (plainEnv_inverts _)).2.1 samplePacket _ none [1, 2] true
      (by decide +kernel) (by unfold BitmapRegistered; decide +kernel)
      (by decide) (by decide)
  · exact (packet_id_stable (plainEnv_inverts sampleRegistry)).2.2 _ _ rfl rfl rfl rfl rfl
      (by simp [samplePacket])

/-- A packet for thirty-two endpoints, most of them unknown to the registry. -/
def unregisteredEndpointsPacket : Packet :=
  { publishedPacket 0 with endpoints := (List.range 32).map UInt32.ofNat, endpoints_ne_nil := by decide }

/-- A codec that never compresses, and decompresses anything to nothing. -/
def emptyCodecEnv : WireEnv :=
  { plainEnv sampleRegistry with zstd := ⟨fun _ _ => none, fun _ _ => some []⟩ }

/-- A frame marked as compressed, with a shape of its own and no payload. -/
def emptyCompressedFrame : Bytes := appendCrc32 emptyCodecEnv [0x8D, 1, 100, 0, 7, 3, 9, 6, 2, 2, 2]

/-- The frame names unknown endpoints by a bitmap, which no parser accepts; a frame with an ACK-only header
is a control frame; and the decoder accepts a compressed payload of no bytes, in which no identity is read. -/
theorem packet_id_excluded : (plainEnv sampleRegistry).zstd.Inverts ∧
    (packPacketInner (plainEnv sampleRegistry) unregisteredEndpointsPacket none).toOption.map
      (packetIdFromWire (plainEnv sampleRegistry)) = some (.error (.unpack "bad endpoint bit set")) ∧
    (packPacketInner (plainEnv sampleRegistry) samplePacket (some ⟨1, 0, 4⟩)).toOption.map
      (packetIdFromWire (plainEnv sampleRegistry)) = some (.error (.unpack "reliable control frame")) ∧
    emptyCodecEnv.zstd.Inverts ∧ (unpackPacket emptyCodecEnv .empty emptyCompressedFrame).isOk = true ∧
    packetIdFromWire emptyCodecEnv emptyCompressedFrame = .error (.unpack "short buffer") := by
  refine ⟨plainEnv_inverts _, by decide +kernel, by decide +kernel, ⟨?_, ?_⟩, by decide +kernel, by decide +kernel⟩
  all_goals
    intro _ _ _ h
    cases h

end SedsNet
