import SedsNet.WirePeek

/-! # The header parsers agree

`unpack_packet`, the routing envelope, the reliable header span and the scheduling shortcut walk
over the same header with code of their own.  A `HeaderWalk` records what the full decoder finds in
front of the payload and where each field ends.  Every successful unpacking has one
(`unpackBody_ok`), it determines what the other parsers return (`HeaderWalk.routingEnvelope`,
`HeaderWalk.frameInfo`, `HeaderWalk.span`, `HeaderWalk.schedulingType`), and a walk whose payload
can be read unpacks (`HeaderWalk.unpackBody`).  `header_parsers_agree` puts the pieces together. -/

namespace SedsNet

open ByteCursor ByteWords List Cursor

/-- The fields in front of the payload, as the full decoder reads them from `data`. -/
structure HeaderWalk (reg : Registry) (data : Bytes) where
  flags : UInt8
  nep : UInt8
  tyV : UInt64
  dsz : UInt64
  ts : UInt64
  nonce : Option UInt16
  sourceAddress : UInt32
  ty : DataType
  eps : List DataEndpoint
  contract : WireContract
  reliable : Option ReliableHeader
  afterFlags : Cursor
  afterNep : Cursor
  afterTy : Cursor
  afterSize : Cursor
  afterTs : Cursor
  afterNonce : Cursor
  afterSource : Cursor
  afterEndpoints : Cursor
  afterContract : Cursor
  afterReliable : Cursor
  flags_ok : readByte (Cursor.start data) = .ok (flags, afterFlags)
  nep_ok : readByte afterFlags = .ok (nep, afterNep)
  ty_ok : readUleb128 afterNep = .ok (tyV, afterTy)
  size_ok : readUleb128 afterTy = .ok (dsz, afterSize)
  ts_ok : readUleb128 afterSize = .ok (ts, afterTs)
  nonce_ok : whenPresent (flags &&& flagPacketNonce ≠ 0) (readUleb16 "packet nonce too large")
    afterTs = .ok (nonce, afterNonce)
  source_ok : readUleb32 "source address too large" afterNonce = .ok (sourceAddress, afterSource)
  tyId_ok : dataTypeIdFromWire tyV = .ok ty
  endpoints_ok : endpointsFromWireOrSchema reg (flags &&& flagEndpointBitmapPresent ≠ 0)
    (flags &&& flagEndpointListPresent ≠ 0) (reg.tryDataType ty) nep.toNat afterSource =
      .ok (eps, afterEndpoints)
  contract_ok : decodeWireContract (flags &&& flagWireContract ≠ 0) afterEndpoints =
    .ok (contract, afterContract)
  reliable_ok : whenPresent
    (flags &&& flagReliableHeaderPresent ≠ 0 ∨ contract.hasReliableHeader = true)
    (readDataReliableHeader (flags &&& flagCompactReliableHeader ≠ 0)) afterContract =
      .ok (reliable, afterReliable)

/-! ### The sections of the header in the routing parser -/

theorem expandWords_bitmapWords {bm : Bytes} (h : bm.length = epBitmapBytes) :
    (expandWords 64 0 (bitmapWords bm)).map UInt32.ofNat = bitmapEndpoints bm := by
  have hchunks : bm.length = 8 * (epBitmapBytes / 8) := h
  rw [bitmapWords, expandWords_chunks hchunks, expandWords_bitmap]
  rfl

variable {reg : Registry} {flags : UInt8} {c c' : Cursor}

/-- The routing parser finds the endpoints the full decoder finds. -/
theorem readRoutingEndpoints_of_ok {ty : DataType} {nep : ℕ} {eps : List DataEndpoint}
    (h : endpointsFromWireOrSchema reg (flags &&& flagEndpointBitmapPresent ≠ 0)
      (flags &&& flagEndpointListPresent ≠ 0) (reg.tryDataType ty) nep c = .ok (eps, c')) :
    ∃ src, readRoutingEndpoints reg flags ty nep c = .ok (src, c') ∧ src.iter = eps := by
  obtain ⟨-, hlen, hfield⟩ := endpointsFromWireOrSchema_ok h
  unfold readRoutingEndpoints
  generalize hb : decide (flags &&& flagEndpointBitmapPresent ≠ 0) = bitmapPresent at hfield
  generalize hl : decide (flags &&& flagEndpointListPresent ≠ 0) = listPresent at hfield
  cases hfield with
  | list bytes hread hiter =>
    rw [if_pos (of_decide_eq_true hl), failIf_bind (of_decide_eq_false hb), bind_of_ok hread]
    exact ⟨_, rfl, hiter⟩
  | bitmap bm hread hbits hreg =>
    obtain ⟨hle, hbm, -⟩ := take_ok hread
    have hbmlen : bm.length = epBitmapBytes := by
      rw [hbm, length_take, length_rest]
      omega
    have hexpand := expandWords_bitmapWords hbmlen
    have hwords : ∀ w ∈ bitmapWords bm, w < 2 ^ 64 :=
      lt_of_mem_chunks (w := 8) (n := epBitmapBytes / 8) hbmlen
    have hcount : ((bitmapWords bm).map fun w => (bitPositions 64 w).length).sum = nep := by
      rw [← length_expandWords _ hwords 0, ← hlen, ← hbits, ← hexpand, length_map]
    have hall : (expandWords 64 0 (bitmapWords bm)).all
        (fun id => reg.endpointExists (UInt32.ofNat id)) = true := by
      rw [all_eq_true]
      intro id hid
      refine hreg _ ?_
      rw [← hbits, ← hexpand]
      exact mem_map_of_mem hid
    rw [if_neg (of_decide_eq_false hl), if_pos (of_decide_eq_true hb), bind_of_ok hread,
      failIf_bind (not_not.mpr hcount), failIf_bind (not_not.mpr hall)]
    exact ⟨_, rfl, hexpand.trans hbits⟩
  | schema t hty hpos heps =>
    obtain ⟨rfl, hex⟩ := reg.tryDataType_eq_some hty
    obtain ⟨m, hm⟩ := (reg.dataTypeExists_iff _).mp hex
    rw [reg.messageMeta_of_some hm] at heps
    rw [if_neg (of_decide_eq_false hl), if_neg (of_decide_eq_false hb), ofOption_bind hm,
      failIf_bind (not_not.mpr (by rw [heps, hlen])), hpos]
    exact ⟨_, rfl, heps⟩

/-- Reading the targets in one piece or one by one. -/
theorem readRoutingTargets_of_ok {targets : Option (List UInt64)}
    (hfit : c.remaining ≤ usizeMax) (h : decodeContractTargets flags c = .ok (targets, c')) :
    ∃ bytes, readRoutingTargets flags c = .ok (bytes, c') ∧ decodeTargets bytes = targets.getD [] := by
  unfold decodeContractTargets at h
  unfold readRoutingTargets
  by_cases ht : flags &&& contractFlagTargets ≠ 0
  · rw [if_pos ht] at h ⊢
    obtain ⟨count, c₁, hcount, h⟩ := bind_ok h
    rw [remaining_bind] at h
    obtain ⟨hle, h⟩ := failIf_bind_ok h
    have hbytes : count.toNat * 8 ≤ c₁.remaining := by omega
    obtain ⟨used, hrest, rfl, -⟩ := readUleb128_ok hcount
    have hc₁ : (c.advance used.length).remaining ≤ usizeMax := by
      unfold Cursor.remaining at hfit ⊢
      simp only [advance_buf, advance_off]
      omega
    rw [bind_of_ok hcount, failIf_bind (by omega)]
    split_ifs at h with hzero
    · obtain ⟨rfl, rfl⟩ := pure_ok_inv h
      rw [hzero, readBytes, take_of_le (by omega)]
      exact ⟨[], rfl, rfl⟩
    · obtain ⟨ts, hts, rfl⟩ := map_ok h
      rw [readTargets_of_le _ _ hbytes] at hts
      cases hts
      rw [readBytes, take_of_le hbytes]
      exact ⟨_, rfl, rfl⟩
  · rw [if_neg ht] at h ⊢
    obtain ⟨rfl, rfl⟩ := pure_ok_inv h
    exact ⟨[], rfl, rfl⟩

variable {contract : WireContract}

theorem readRoutingContractBody_of_ok {bytes : Bytes} (hfit : bytes.length ≤ usizeMax)
    (h : eval decodeContractBody (start bytes) = .ok contract) :
    ∃ targets, eval readRoutingContractBody (start bytes) =
        .ok (contract.shape, targets, contract.hasReliableHeader) ∧
      decodeTargets targets = contract.targetSenders.getD [] := by
  obtain ⟨c', h⟩ := eval_ok h
  obtain ⟨flags, c₁, hflags, h⟩ := bind_ok h
  obtain ⟨shape, c₂, hshape, h⟩ := bind_ok h
  obtain ⟨targets, c₃, htargets, h⟩ := bind_ok h
  rw [remaining_bind] at h
  obtain ⟨hend, h⟩ := failIf_bind_ok h
  obtain ⟨rfl, rfl⟩ := pure_ok_inv h
  have hbound : c₂.remaining ≤ usizeMax := by
    obtain ⟨-, hc₁⟩ := readByte_ok hflags
    have hle : c₂.rest.length ≤ c₁.rest.length := by
      rcases whenPresent_ok hshape with ⟨-, a, ha, -⟩ | ⟨-, -, rfl⟩
      · obtain ⟨b, hb, -, -⟩ := decodeWireShape_local ha
        rw [hb, length_append]
        omega
      · rfl
    rw [length_rest, length_rest] at hle
    subst hc₁
    unfold Cursor.remaining at hle ⊢
    simp only [advance_buf, start_buf] at hle
    omega
  obtain ⟨tb, htb, hdec⟩ := readRoutingTargets_of_ok hbound htargets
  refine ⟨tb, ?_, hdec⟩
  apply eval_of_ok
  unfold readRoutingContractBody
  rw [bind_of_ok hflags, bind_of_ok hshape, bind_of_ok htb, remaining_bind, failIf_bind hend,
    pure_ok]

theorem readRoutingContract_of_ok (h : decodeWireContract (flags &&& flagWireContract ≠ 0) c = .ok (contract, c')) :
    ∃ targets, readRoutingContract flags c = .ok ((contract.shape, targets, contract.hasReliableHeader), c') ∧
      decodeTargets targets = contract.targetSenders.getD [] := by
  unfold decodeWireContract at h
  unfold readRoutingContract
  by_cases hf : flags &&& flagWireContract ≠ 0
  · rw [if_pos (decide_eq_true hf)] at h
    rw [if_pos hf]
    obtain ⟨len, c₁, hlen, h⟩ := bind_ok h
    obtain ⟨bytes, c₂, hbytes, h⟩ := bind_ok h
    obtain ⟨heval, rfl⟩ := ofResult_ok h
    have hfit : bytes.length ≤ usizeMax := by
      obtain ⟨-, rfl, -⟩ := take_ok hbytes
      have := len.toNat_lt
      rw [length_take]
      unfold usizeMax
      omega
    obtain ⟨targets, hrun, hdec⟩ := readRoutingContractBody_of_ok hfit heval
    rw [bind_of_ok hlen, bind_of_ok hbytes, ofResult_of_ok hrun]
    exact ⟨targets, rfl, hdec⟩
  · rw [if_neg (by simpa using hf)] at h
    rw [if_neg hf]
    obtain ⟨rfl, rfl⟩ := pure_ok_inv h
    exact ⟨[], rfl, rfl⟩

/-! ### The full decoder and its walk -/

variable {book : AddressBook} {data : Bytes} {p : Packet}

/-- What a successful unpacking did: the header walk, the payload and the construction. -/
theorem unpackBody_ok {env : WireEnv} {bufLen : ℕ} {managed : Bool}
    (h : unpackBody env book bufLen managed (start data) = .ok (p, c')) :
    ∃ (w : HeaderWalk env.reg data) (payload : Bytes),
      readPayload env w.flags w.dsz.toNat w.afterReliable = .ok (payload, c') ∧
      Packet.newWithOwnedWireContract env.reg w.ty w.eps
        (book.senderNameForAddress w.sourceAddress) w.ts (w.nonce.getD 0) payload w.contract.shape
        w.contract.targetSenders = .ok p := by
  obtain ⟨parts, c, h, hbuild⟩ := bind_ok h
  obtain ⟨hnew, rfl⟩ := ofResult_ok hbuild
  obtain ⟨flags, c₁, h₁, h⟩ := bind_ok h
  obtain ⟨nep, c₂, h₂, h⟩ := bind_ok h
  obtain ⟨tyV, c₃, h₃, h⟩ := bind_ok h
  obtain ⟨dsz, c₄, h₄, h⟩ := bind_ok h
  obtain ⟨ts, c₅, h₅, h⟩ := bind_ok h
  obtain ⟨nonce, c₆, h₆, h⟩ := bind_ok h
  obtain ⟨source, c₇, h₇, h⟩ := bind_ok h
  obtain ⟨ty, hty, h⟩ := ofResult_bind_ok h
  rw [remaining_bind] at h
  obtain ⟨-, h⟩ := failIf_bind_ok h
  obtain ⟨eps, c₈, h₈, h⟩ := bind_ok h
  obtain ⟨contract, c₉, h₉, h⟩ := bind_ok h
  obtain ⟨ty', hty', h⟩ := ofOption_bind_ok h
  obtain ⟨reliable, c₁₀, h₁₀, h⟩ := bind_ok h
  rw [remaining_bind] at h
  obtain ⟨-, -, h⟩ := ofResult_bind_ok h
  obtain ⟨payload, c₁₁, h₁₁, h⟩ := bind_ok h
  obtain ⟨rfl, rfl⟩ := pure_ok_inv h
  have htyeq : ty' = ty := by
    rcases Option.or_eq_some_iff.mp hty' with hk | ⟨-, hs⟩
    · exact (env.reg.tryDataType_eq_some hk).1
    · obtain ⟨-, -, rfl⟩ := Option.map_eq_some_iff.mp hs
      rfl
  subst htyeq
  exact ⟨{ flags, nep, tyV, dsz, ts, nonce, sourceAddress := source, ty := ty', eps, contract,
           reliable, afterFlags := c₁, afterNep := c₂, afterTy := c₃, afterSize := c₄,
           afterTs := c₅, afterNonce := c₆, afterSource := c₇, afterEndpoints := c₈,
           afterContract := c₉, afterReliable := c₁₀, flags_ok := h₁, nep_ok := h₂, ty_ok := h₃,
           size_ok := h₄, ts_ok := h₅, nonce_ok := h₆, source_ok := h₇, tyId_ok := hty,
           endpoints_ok := h₈, contract_ok := h₉, reliable_ok := h₁₀ }, payload, h₁₁, hnew⟩

namespace HeaderWalk

variable {reg : Registry} {data : Bytes}

/-- The decoder on a walk whose payload is admitted and can be read. -/
theorem unpackBody {env : WireEnv} {book : AddressBook} (w : HeaderWalk env.reg data) (bufLen : ℕ)
    (managed : Bool) {payload : Bytes} {p : Packet} {c' : Cursor}
    (hshort : shortBuffer w.flags w.afterSource.remaining w.dsz.toNat = false)
    (hknown : env.reg.dataTypeExists w.ty = true ∨ w.contract.shape.isSome = true) (hgrant : env.probe.Granting)
    (hpayload : readPayload env w.flags w.dsz.toNat w.afterReliable = .ok (payload, c'))
    (hnew : Packet.newWithOwnedWireContract env.reg w.ty w.eps
      (book.senderNameForAddress w.sourceAddress) w.ts (w.nonce.getD 0) payload w.contract.shape
      w.contract.targetSenders = .ok p) :
    SedsNet.unpackBody env book bufLen managed (start data) = .ok (p, c') := by
  have hty : (env.reg.tryDataType w.ty).or (w.contract.shape.map fun _ => w.ty) = some w.ty := by
    unfold Registry.tryDataType
    by_cases hex : env.reg.dataTypeExists w.ty = true
    · rw [if_pos hex]
      rfl
    · obtain ⟨shape, hshape⟩ := Option.isSome_iff_exists.mp (hknown.resolve_left hex)
      rw [if_neg hex, hshape]
      rfl
  have hgranted : ∀ left, admitDecode env bufLen managed w.flags w.ty w.nep.toNat w.dsz.toNat left
      w.eps w.contract w.reliable = .ok () := by
    intro left
    unfold admitDecode AdmissionProbe.checkSmallProtectedDecode AdmissionProbe.checkFrameKind
      AdmissionProbe.check
    simp only [hgrant _ _ _ _, ite_self]
  have hparts : unpackParts env book bufLen managed (start data) =
      .ok (⟨w.ty, w.eps, book.senderNameForAddress w.sourceAddress, w.ts, w.nonce.getD 0, payload, w.contract.shape,
        w.contract.targetSenders⟩, c') := by
    unfold unpackParts
    rw [bind_of_ok w.flags_ok, bind_of_ok w.nep_ok, bind_of_ok w.ty_ok, bind_of_ok w.size_ok,
      bind_of_ok w.ts_ok, bind_of_ok w.nonce_ok, bind_of_ok w.source_ok, ofResult_bind w.tyId_ok,
      remaining_bind, failIf_bind (by simp [hshort]), bind_of_ok w.endpoints_ok,
      bind_of_ok w.contract_ok, ofOption_bind hty, bind_of_ok w.reliable_ok, remaining_bind,
      ofResult_bind (hgranted _), bind_of_ok hpayload, pure_ok]
  exact (bind_of_ok hparts).trans (ofResult_of_ok hnew)

/-! ### What a walk says about the buffer -/

variable (w : HeaderWalk reg data)

theorem data_eq : data = w.flags :: w.nep :: w.afterNep.rest := by
  obtain ⟨h₁, -⟩ := readByte_ok w.flags_ok
  obtain ⟨h₂, -⟩ := readByte_ok w.nep_ok
  exact h₁.trans (congrArg _ h₂)

theorem headD_eq {env : WireEnv} {buf : Bytes} (h : verifyCrc32 env buf = .ok data) : buf.headD 0 = w.flags := by
  rw [← take_append_drop (buf.length - 4) buf, ← (verifyCrc32_ok h).2]
  exact congrArg (fun d => List.headD (d ++ _) 0) w.data_eq

theorem eps_length : w.eps.length = w.nep.toNat :=
  (endpointsFromWireOrSchema_ok w.endpoints_ok).2.1

theorem eps_pairwise : w.eps.Pairwise (· < ·) :=
  (endpointsFromWireOrSchema_ok w.endpoints_ok).1

theorem readUleb16_local (msg : String) : Local (readUleb16 msg) :=
  readUleb128_local.bind fun _ => Local.ofOption _ _

theorem afterContract_buf : w.afterContract.buf = data := by
  have hfield := (endpointsFromWireOrSchema_ok w.endpoints_ok).2.2
  rw [(decodeWireContract_local _).buf_eq w.contract_ok, hfield.buf_eq,
    (readUleb32_local _).buf_eq w.source_ok,
    (Local.whenPresent _ (readUleb16_local _)).buf_eq w.nonce_ok,
    readUleb128_local.buf_eq w.ts_ok, readUleb128_local.buf_eq w.size_ok,
    readUleb128_local.buf_eq w.ty_ok, readByte_local.buf_eq w.nep_ok,
    readByte_local.buf_eq w.flags_ok, start_buf]

/-- Parsers that skip the nonce move over the same bytes. -/
theorem nonce_skipped : ∃ v,
    whenPresent (w.flags &&& flagPacketNonce ≠ 0) readUleb128 w.afterTs = .ok (v, w.afterNonce) := by
  rcases whenPresent_ok w.nonce_ok with ⟨hq, n, hn, -⟩ | ⟨hq, -, hpos⟩
  · obtain ⟨v, c₁, hv, h⟩ := bind_ok hn
    obtain ⟨-, rfl⟩ := ofOption_ok h
    exact ⟨some v, whenPresent_of hq hv⟩
  · rw [hpos]
    exact ⟨none, whenPresent_of_not hq⟩

/-- The reliable header found by the walk, without the test for control frames. -/
theorem reliable_plain {q : Prop} [Decidable q]
    (hq : q ↔ (w.flags &&& flagReliableHeaderPresent ≠ 0 ∨ w.contract.hasReliableHeader = true)) :
    whenPresent q (readReliableHeaderEncoded (w.flags &&& flagCompactReliableHeader ≠ 0))
      w.afterContract = .ok (w.reliable, w.afterReliable) := by
  rw [whenPresent_congr hq]
  rcases whenPresent_ok w.reliable_ok with ⟨hp, hdr, hhdr, heq⟩ | ⟨hp, heq, hpos⟩
  · obtain ⟨h, c₁, hread, hrest⟩ := bind_ok hhdr
    obtain ⟨-, hrest⟩ := failIf_bind_ok hrest
    obtain ⟨rfl, rfl⟩ := pure_ok_inv hrest
    rw [heq]
    exact whenPresent_of hp hread
  · rw [heq, hpos]
    exact whenPresent_of_not hp

/-! ### The routing envelope of a walk -/

/-- The envelope reports what the walk found. -/
structure Matches (w : HeaderWalk reg data) (e : RoutingEnvelope) : Prop where
  ty : e.ty = w.ty
  endpoints : e.endpoints = w.eps
  sourceAddress : e.sourceAddress = w.sourceAddress
  timestampMs : e.timestampMs = w.ts
  wireShape : e.wireShape = w.contract.shape
  targetSenders : e.targetSenders = w.contract.targetSenders.getD []
  isReliable : e.isReliable = decide (w.flags &&& flagReliableHeaderPresent ≠ 0)
  hasReliableHeader : e.hasReliableHeader = w.contract.hasReliableHeader

theorem routingEnvelope (hne : w.eps ≠ []) :
    ∃ e, readRoutingEnvelope reg (start data) = .ok (e, w.afterContract) ∧ w.Matches e := by
  obtain ⟨v, hnonce⟩ := w.nonce_skipped
  obtain ⟨src, hsrc, hiter⟩ := readRoutingEndpoints_of_ok w.endpoints_ok
  obtain ⟨targets, hcontract, hdec⟩ := readRoutingContract_of_ok w.contract_ok
  have hnep : w.nep.toNat ≠ 0 := by
    rw [← w.eps_length]
    exact fun h => hne (length_eq_zero_iff.mp h)
  unfold readRoutingEnvelope
  rw [bind_of_ok w.flags_ok, bind_of_ok w.nep_ok, bind_of_ok w.ty_ok, bind_of_ok w.size_ok,
    bind_of_ok w.ts_ok, bind_of_ok hnonce, bind_of_ok w.source_ok, ofResult_bind w.tyId_ok,
    bind_of_ok hsrc, bind_of_ok hcontract, checkEmptyEndpoints, if_neg hnep, bind_of_ok pure_ok]
  exact ⟨_, rfl, ⟨rfl, hiter, rfl, rfl, rfl, hdec, rfl, rfl⟩⟩

theorem Matches.reliable_iff {w : HeaderWalk reg data} {e : RoutingEnvelope} (h : w.Matches e) :
    (e.isReliable = true ∨ e.hasReliableHeader = true) ↔
      (w.flags &&& flagReliableHeaderPresent ≠ 0 ∨ w.contract.hasReliableHeader = true) := by
  rw [h.isReliable, h.hasReliableHeader, decide_eq_true_eq]

theorem frameInfo (hne : w.eps ≠ []) : ∃ e, readFrameInfo reg data (start data) =
        .ok ((e, w.reliable, w.afterReliable.remaining), w.afterReliable) ∧
      readRoutingEnvelope reg (start data) = .ok (e, w.afterContract) ∧ w.Matches e := by
  obtain ⟨e, henv, hm⟩ := w.routingEnvelope hne
  refine ⟨e, ?_, henv, hm⟩
  have hfirst : data.headD 0 = w.flags := congrArg (List.headD · 0) w.data_eq
  unfold readFrameInfo
  rw [bind_of_ok henv, hfirst, bind_of_ok (w.reliable_plain hm.reliable_iff), remaining_bind,
    pure_ok]

/-! ### The reliable header span of a walk -/

theorem skipEndpoints :
    SedsNet.skipEndpoints w.flags w.nep.toNat w.afterSource = .ok ((), w.afterEndpoints) ∧ ¬ w.afterSource.remaining <
        (if w.flags &&& flagEndpointBitmapPresent ≠ 0 then epBitmapBytes else 0) := by
  obtain ⟨-, -, hfield⟩ := endpointsFromWireOrSchema_ok w.endpoints_ok
  unfold SedsNet.skipEndpoints
  generalize hb : decide (w.flags &&& flagEndpointBitmapPresent ≠ 0) = bitmapPresent at hfield
  generalize hl : decide (w.flags &&& flagEndpointListPresent ≠ 0) = listPresent at hfield
  cases hfield with
  | list bytes hread hiter =>
    rw [if_pos (of_decide_eq_true hl), failIf_bind (of_decide_eq_false hb), bind_of_ok hread,
      if_neg (of_decide_eq_false hb)]
    exact ⟨rfl, by omega⟩
  | bitmap bm hread hbits hreg =>
    rw [if_neg (of_decide_eq_false hl), if_pos (of_decide_eq_true hb), bind_of_ok hread,
      if_pos (of_decide_eq_true hb)]
    exact ⟨rfl, Nat.not_lt.mpr (take_ok hread).1⟩
  | schema t hty hpos heps =>
    rw [if_neg (of_decide_eq_false hl), if_neg (of_decide_eq_false hb), hpos,
      if_neg (of_decide_eq_false hb)]
    exact ⟨rfl, by omega⟩

/-- The span reports the walk's header where the walk read it. -/
theorem span : ∃ c, reliableHeaderSpanBody (start data) = .ok (w.reliable.map fun hdr =>
      (w.afterContract.off, w.afterReliable.off - w.afterContract.off, hdr), c) := by
  obtain ⟨v, hnonce⟩ := w.nonce_skipped
  obtain ⟨hskip, hroom⟩ := w.skipEndpoints
  have hq : ¬ (w.flags &&& flagReliableHeaderPresent = 0 ∧ w.contract.hasReliableHeader = false) ↔
      (w.flags &&& flagReliableHeaderPresent ≠ 0 ∨ w.contract.hasReliableHeader = true) := by
    rw [not_and_or, Bool.not_eq_false]
  unfold reliableHeaderSpanBody
  rw [bind_of_ok w.flags_ok, bind_of_ok w.nep_ok, bind_of_ok w.ty_ok, bind_of_ok w.size_ok,
    bind_of_ok w.ts_ok, bind_of_ok hnonce, bind_of_ok w.source_ok, remaining_bind,
    failIf_bind hroom, bind_of_ok hskip, bind_of_ok w.contract_ok, ofResult_bind w.tyId_ok]
  rcases whenPresent_ok (w.reliable_plain hq) with ⟨hp, hdr, hread, heq⟩ | ⟨hp, heq, -⟩
  · have hspan : readSpan (w.flags &&& flagCompactReliableHeader ≠ 0) w.afterContract =
        .ok ((w.afterContract.off, w.afterReliable.off - w.afterContract.off, hdr),
          w.afterReliable) := by
      unfold readSpan
      rw [position_bind, bind_of_ok hread, position_bind, pure_ok]
    rw [heq]
    exact ⟨_, whenPresent_of hp hspan⟩
  · rw [heq]
    exact ⟨_, whenPresent_of_not hp⟩

theorem reliableHeaderSpan {buf : Bytes} (htake : buf.take (buf.length - crc32Bytes) = data) :
    SedsNet.reliableHeaderSpan buf = .ok (w.reliable.map fun hdr =>
      (w.afterContract.off, w.afterReliable.off - w.afterContract.off, hdr)) := by
  obtain ⟨c, hspan⟩ := w.span
  have hlength := congrArg length (htake.trans w.data_eq)
  rw [length_take, length_cons] at hlength
  rw [SedsNet.reliableHeaderSpan, if_neg (by omega), htake]
  exact eval_of_ok hspan

/-- Decoding at the reported offset gives the reported header and ends behind its length. -/
theorem span_encoded {hdr : ReliableHeader} (h : w.reliable = some hdr) :
    readReliableHeaderEncoded (w.flags &&& flagCompactReliableHeader ≠ 0) ⟨data, w.afterContract.off⟩ =
      .ok (hdr, ⟨data, w.afterContract.off + (w.afterReliable.off - w.afterContract.off)⟩) := by
  have hplain := w.reliable_plain Iff.rfl
  rcases whenPresent_ok hplain with ⟨-, hdr', hread, heq⟩ | ⟨-, heq, -⟩
  · rw [h, Option.some.injEq] at heq
    subst heq
    have hcur : w.afterContract = ⟨data, w.afterContract.off⟩ :=
      congrArg (Cursor.mk · w.afterContract.off) w.afterContract_buf
    obtain ⟨bytes, -, hadv, -⟩ := readReliableHeaderEncoded_local _ hread
    have hend : w.afterReliable = ⟨data, w.afterContract.off + bytes.length⟩ :=
      hadv.trans (congrArg (advance · bytes.length) hcur)
    have hoff : w.afterReliable.off = w.afterContract.off + bytes.length := congrArg Cursor.off hend
    rw [← hcur, hread, hoff, Nat.add_sub_cancel_left, ← hend]
  · rw [h] at heq
    cases heq

/-! ### The scheduling shortcut of a walk -/

/-- The type stands in the first twelve bytes of any buffer that starts with the header. -/
theorem schedulingType (tail : Bytes) : SedsNet.schedulingType (data ++ tail) = some w.ty := by
  obtain ⟨b, hb, -, -, hlen, hread⟩ := readUleb128_ok w.ty_ok
  have hsplit : data ++ tail = [w.flags, w.nep] ++ (b ++ (w.afterTy.rest ++ tail)) := by
    refine (congrArg (· ++ tail) w.data_eq).trans ?_
    rw [hb]
    simp
  set n := min (data ++ tail).length 12 with hn
  have hcut : 2 + b.length ≤ n := by
    rw [hn, hsplit]
    simp only [length_append, length_cons, length_nil]
    omega
  have htake : (data ++ tail).take n =
      [w.flags, w.nep] ++ (b ++ (w.afterTy.rest ++ tail).take (n - (2 + b.length))) := by
    rw [hsplit, take_append, take_of_length_le (by simp; omega), take_append,
      take_of_length_le (by simp; omega)]
    simp only [length_cons, length_nil]
    congr 3
    omega
  have hbody : Reads schedulingTypeBody ([w.flags, w.nep] ++ b) w.ty :=
    (reads_readBytes rfl).bind (hread.bind_nil (Reads.ofResult w.tyId_ok))
  have hrun : eval schedulingTypeBody (start ((data ++ tail).take n)) = .ok w.ty := by
    rw [htake]
    exact eval_of_ok hbody.start
  rw [SedsNet.schedulingType, hrun]

end HeaderWalk

/-! ### Agreement of the parsers -/

/-- The envelope carries the routing fields of the packet. -/
structure RoutingEnvelope.Describes (e : RoutingEnvelope) (p : Packet) : Prop where
  ty : e.ty = p.ty
  endpoints : e.endpoints = p.endpoints
  sourceAddress : e.sourceAddress = senderAddressU32 p.sender
  timestampMs : e.timestampMs = p.timestamp
  wireShape : e.wireShape = p.wireShape
  targetSenders : e.targetSenders = p.targetSenders

/-- The owned envelope carries the routing fields of the packet. -/
structure TelemetryEnvelope.Describes (e : TelemetryEnvelope) (p : Packet) : Prop where
  ty : e.ty = p.ty
  endpoints : e.endpoints = p.endpoints
  sourceAddress : e.sourceAddress = senderAddressU32 p.sender
  timestampMs : e.timestampMs = p.timestamp
  wireShape : e.wireShape = p.wireShape
  targetSenders : e.targetSenders = p.targetSenders

variable {e : RoutingEnvelope}

theorem RoutingEnvelope.Describes.intoOwned (h : e.Describes p) (book : AddressBook) : (e.intoOwned book).Describes p :=
  ⟨h.ty, h.endpoints, h.sourceAddress, h.timestampMs, h.wireShape, h.targetSenders⟩

/-- The envelope of a walk describes the packet constructed from the walk. -/
theorem HeaderWalk.Matches.describes {payload : Bytes} {w : HeaderWalk reg data}
    (hm : w.Matches e) (hnew : Packet.newWithOwnedWireContract reg w.ty w.eps
      (book.senderNameForAddress w.sourceAddress) w.ts (w.nonce.getD 0) payload w.contract.shape
      w.contract.targetSenders = .ok p) : e.Describes p := by
  obtain ⟨hty, heps, hsender, hts, -, -, hshape, htargets, -⟩ :=
    Packet.newWithOwnedWireContract_ok hnew
  refine ⟨?_, ?_, ?_, ?_, ?_, ?_⟩
  · rw [hm.ty, hty]
  · rw [hm.endpoints, heps]
  · rw [hm.sourceAddress, hsender, senderAddressU32_senderName]
  · rw [hm.timestampMs, hts]
  · rw [hm.wireShape, hshape]
  · rw [hm.targetSenders, Packet.targetSenders, htargets]

/-- What the header-only parsers report about the frame of a packet. -/
structure ParsersAgree (env : WireEnv) (book : AddressBook) (buf : Bytes) (p : Packet) : Prop where
  envelope : ∃ e, peekEnvelope env book buf = .ok e ∧ e.Describes p
  routing : ∃ info, peekRoutingFrameInfo env buf = .ok info ∧ info.envelope.Describes p
  frameInfo : ∃ info, peekFrameInfo env book buf = .ok info ∧ info.envelope.Describes p ∧
    ∃ span, reliableHeaderSpan buf = .ok span ∧ span.map (·.2.2) = info.reliable ∧
      -- decoding at the reported offset gives the reported header and consumes its length
      ∀ off len hdr, span = some (off, len, hdr) →
        readReliableHeaderEncoded (buf.headD 0 &&& flagCompactReliableHeader ≠ 0)
          ⟨buf.take (buf.length - crc32Bytes), off⟩ =
            .ok (hdr, ⟨buf.take (buf.length - crc32Bytes), off + len⟩)
  scheduling : schedulingType buf = some p.ty

/-- Whatever frame the full decoder accepts, in either role, the header-only parsers read in the
same way; `unpack_packet` is the case `managed = false`. -/
theorem header_parsers_agree {env : WireEnv} {book : AddressBook} {buf : Bytes} {managed : Bool}
    {p : Packet} (h : unpackPacketWithRole env book buf managed = .ok p) (book' : AddressBook) :
    ParsersAgree env book' buf p := by
  obtain ⟨data, c', hverify, hnil, hrun⟩ := unpackPacketWithRole_ok h
  obtain ⟨w, payload, -, hnew⟩ := unpackBody_ok hrun
  obtain ⟨hlen, hdata⟩ := verifyCrc32_ok hverify
  have hne : w.eps ≠ [] := by
    rw [← (Packet.newWithOwnedWireContract_ok hnew).2.1]
    exact p.endpoints_ne_nil
  obtain ⟨e, hinfo, henv, hm⟩ := w.frameInfo hne
  have hdesc : e.Describes p := hm.describes hnew
  have hbuf : buf = data ++ buf.drop (buf.length - 4) := by
    rw [hdata, take_append_drop]
  have hroute : peekRoutingEnvelope env buf = .ok e := by
    rw [peekRoutingEnvelope, withVerified, hverify]
    exact eval_of_ok henv
  have hframe : withVerified env buf (readFrameInfo env.reg) =
      .ok (e, w.reliable, w.afterReliable.remaining) := by
    rw [withVerified, hverify]
    exact eval_of_ok hinfo
  refine ⟨⟨e.intoOwned book', ?_, hdesc.intoOwned book'⟩,
    ⟨⟨e, w.reliable, e.payloadIsEmpty && decide (w.afterReliable.remaining = 0)⟩, ?_, hdesc⟩,
    ⟨⟨e.intoOwned book', w.reliable⟩, ?_, hdesc.intoOwned book', ?_⟩, ?_⟩
  · rw [peekEnvelope, hroute]
  · rw [peekRoutingFrameInfo, hframe]
  · rw [peekFrameInfo, hframe]
  · have htake : buf.take (buf.length - crc32Bytes) = data := hdata.symm
    refine ⟨_, w.reliableHeaderSpan htake, ?_, ?_⟩
    · rw [Option.map_map]
      exact Option.map_id'
    · intro off len hdr heq
      obtain ⟨hdr', hsome, hval⟩ := Option.map_eq_some_iff.mp heq
      cases hval
      rw [w.headD_eq hverify, htake]
      exact w.span_encoded hsome
  · rw [hbuf, w.schedulingType, (Packet.newWithOwnedWireContract_ok hnew).1]

/-- One registered type with two endpoints. -/
def sampleRegistry : Registry where
  endpoints := [5, 6]
  types := [(100, ⟨.static 2 .uint8 .data, [5, 6], .ordered, 1⟩)]
  staticStringLength := 16
  staticHexLength := 16

/-- A frame with a nonce, an explicit endpoint and a compact reliable header. -/
def sampleFrame : Bytes :=
  appendCrc32 (plainEnv sampleRegistry)
    [0xCA, 0x01, 0x64, 0x02, 0x07, 0x03, 0x09, 0x05, 0x00, 0x04, 0x02, 0xAA, 0xBB]

theorem header_parsers_agree_sample : ∃ p,
    unpackPacketWithRole (plainEnv sampleRegistry) .empty sampleFrame false = .ok p ∧
      ParsersAgree (plainEnv sampleRegistry) .empty sampleFrame p := by
  obtain ⟨p, h⟩ : ∃ p, unpackPacketWithRole (plainEnv sampleRegistry) .empty sampleFrame false = .ok p :=
    exists_ok (by decide +kernel)
  exact ⟨p, h, header_parsers_agree h _⟩

end SedsNet
