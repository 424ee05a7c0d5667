import SedsNet.ChunkSoundness
import SedsNet.SideDictionary

/-! # Encoding and decoding on a side

`encode_side_transport_frames` turns a canonical frame into the frames a side transmits: the frame
itself, a full frame that carries a template id, a compact frame that refers to it, or the chunks of
one of these.  `decode_side_transport_frame` is the other end.

What the rest of the router answers is part of the `EncodeContext` and of the `DecodeContext`.  The
payload is taken after `payload_for_transport_side`, which may have changed its encoding. -/

namespace SedsNet

open ByteCursor OrderedMap
open Std (ExtTreeMap)

/-! ### Encoding -/

/-- The options of a side the transport reads. -/
structure SideOptions where
  headerTemplateEnabled : Bool
  maxFrameBytes : ℕ
  maxSideTransportTemplates : ℕ

/-- What the rest of the router answers while a frame is encoded. -/
structure EncodeContext where
  /-- `side_has_multiple_announcers_locked`. -/
  multipleAnnouncers : Bool
  /-- The discovery route of the side: its active peers, and the template limits its peers with
  header templates advertise. -/
  route : Option (ℕ × List ℕ)
  /-- `supports_work_kinds`. -/
  workKinds : Bool
  /-- `check_receive` reports memory pressure. -/
  receivePressure : Bool

/-- The smallest template limit on the side; a shared side has none. -/
def effectiveTemplateLimit (opts : SideOptions) (ctx : EncodeContext) : ℕ :=
  match ctx.route with
  | none => opts.maxSideTransportTemplates
  | some (activePeers, limits) =>
    if 1 < activePeers then 0
    else (limits.filter (0 < ·)).foldl min opts.maxSideTransportTemplates

/-- Frames that must not depend on a dictionary. -/
def staysCanonical (reg : Registry) (frame : RoutingFrameInfo) : Bool :=
  reg.isReliableType frame.envelope.ty || frame.reliable.isSome ||
    frame.envelope.targetSenders.length != 0 || frame.envelope.ty == DataType.reliableAck ||
    frame.envelope.ty == DataType.reliablePartialAck ||
    frame.envelope.ty == DataType.reliablePacketRequest

def fullRefreshAfterCompactFrames : UInt8 := 8

/-- The id a frame is sent with, and whether it is sent in compact form. -/
def TxDictionary.assignTemplate (d : TxDictionary) (limit : ℕ) (x : TemplateExtract) :
    TxDictionary × UInt32 × Bool :=
  let d := d.trimTxTemplatesTo limit
  match d.ids[x.template.hash]? with
  | some id =>
    let uses := (d.compactUses[id]?).getD 0
    let useCompact := decide (uses < fullRefreshAfterCompactFrames) && !isDiscoveryType x.ty
    ({ d with compactUses := d.compactUses.insert id (if useCompact then uses + 1 else 0) }, id,
      useCompact)
  | none =>
    let id := foldHash x.template.hash
    (d.insertTxTemplate x.template id limit, id, false)

def fullFrame (env : WireEnv) (id : UInt32) (raw : Bytes) : Bytes :=
  wrapSideTransportFrame env sideTransportKindFull (writeUleb128 id.toUInt64 ++ raw)

def compactFrame (env : WireEnv) (id : UInt32) (x : TemplateExtract) : Bytes :=
  wrapSideTransportFrame env sideTransportKindCompact
    (x.flags :: (writeUleb128 id.toUInt64 ++ x.compactTail))

/-- One frame, or chunks of it. -/
def fitFrames (opts : SideOptions) (sender frame : Bytes) : TelemetryResult SideTransportFrames :=
  if opts.maxFrameBytes ≠ 0 ∧ opts.maxFrameBytes < frame.length then
    SideTransportFrames.split frame opts.maxFrameBytes sender
  else .ok (.single frame)

/-- The template a frame is sent with, or none if it stays canonical. -/
def dictionaryEntry (ctx : EncodeContext) (d : TxDictionary) (raw : Bytes) :
    TelemetryResult (Option TemplateExtract) :=
  match extractSideHeaderTemplate raw with
  | .error e => .error e
  | .ok x =>
    let cached := x.template.hash ∈ d.ids ∧ x.template.hash ∈ d.templates
    if ctx.workKinds = true ∧ ¬ cached ∧ ctx.receivePressure = true then .ok none else .ok (some x)

def encodeWithTemplates (env : WireEnv) (opts : SideOptions) (sender : Bytes) (ctx : EncodeContext)
    (d : TxDictionary) (raw : Bytes) : TxDictionary × TelemetryResult SideTransportFrames :=
  match peekRoutingFrameInfo env raw with
  | .error e => (d, .error e)
  | .ok frame =>
    let withoutDictionary := decide (opts.maxSideTransportTemplates = 0) || ctx.multipleAnnouncers
    if withoutDictionary || staysCanonical env.reg frame then
      (if withoutDictionary then d.trimTxTemplatesTo 0 else d, .ok (.single raw))
    else
      match dictionaryEntry ctx d raw with
      | .error e => (d, .error e)
      | .ok none => (d, .ok (.single raw))
      | .ok (some x) =>
        let (d, id, useCompact) := d.assignTemplate (effectiveTemplateLimit opts ctx) x
        (d, fitFrames opts sender
          (if useCompact then compactFrame env id x else fullFrame env id raw))

/-- `encode_side_transport_frames`. -/
def encodeSideTransportFrames (env : WireEnv) (opts : SideOptions) (sender : Bytes)
    (ctx : EncodeContext) (d : TxDictionary) (raw : Bytes) :
    TxDictionary × TelemetryResult SideTransportFrames :=
  if opts.headerTemplateEnabled = false ∧ opts.maxFrameBytes = 0 then (d, .ok (.single raw))
  else if opts.maxFrameBytes ≠ 0 ∧ opts.maxFrameBytes < raw.length then
    (d, SideTransportFrames.split raw opts.maxFrameBytes sender)
  else if opts.headerTemplateEnabled then encodeWithTemplates env opts sender ctx d raw
  else (d, fitFrames opts sender (wrapSideTransportFrame env sideTransportKindFull raw))

/-! ### Decoding -/

/-- What the rest of the router answers while a frame is decoded. -/
structure DecodeContext where
  /-- `consume_known_packed_discovery`. -/
  consumed : TelemetryResult Bool
  targetsOnlyIngress : Bool
  /-- `admit_received_frame_with_view`. -/
  admission : TelemetryResult Unit
  localServices : Bool
  /-- The loop around `check_compact_reconstruction`. -/
  reconstruction : TelemetryResult Unit
  workKinds : Bool
  /-- `admit_received_frame` on a rebuilt frame. -/
  readmission : TelemetryResult Unit
  chunk : ChunkContext

/-- The receive part of `SideTransportState`.  `unknownTemplates` counts the compact frames that
found no template. -/
structure RxSide where
  dictionary : RxDictionary
  chunks : ChunkStore
  unknownTemplates : ℕ

namespace RxSide

def initial : RxSide := ⟨.initial, .initial, 0⟩

def decodeUnwrapped (ctx : DecodeContext) (bytes : Bytes) : TelemetryResult (Option Bytes) :=
  match ctx.consumed with
  | .error e => .error e
  | .ok true => .ok none
  | .ok false =>
    if bytes.head?.any (fun flags => decide (flags &&& flagE2eEncryptedPayload = 0)) = true ∧
        ctx.targetsOnlyIngress = true then .ok none
    else
      match ctx.admission with
      | .error e => .error e
      | .ok _ => .ok (some bytes)

/-- The template id of a full frame, when templates are enabled, and the canonical frame. -/
def readFullBody (headerTemplateEnabled : Bool) : ByteReader (Option UInt32 × Bytes) := do
  let id ← whenPresent (headerTemplateEnabled = true) (readUleb32 "side template id too large")
  let raw ← restBytes
  return (id, raw)

/-- Keep the template of a full frame. -/
def learn (opts : SideOptions) (d : RxDictionary) (id : Option UInt32) (raw : Bytes) : RxDictionary :=
  match id, extractSideHeaderTemplate raw with
  | some id, .ok x =>
    let d := d.insertRxTemplate id x.template opts.maxSideTransportTemplates
    if 0 < opts.maxSideTransportTemplates then
      { d with lastTimestamps := d.lastTimestamps.insert id x.timestamp }
    else d
  | _, _ => d

/-- A full frame, read. -/
def admitFull (opts : SideOptions) (ctx : DecodeContext) (rx : RxSide) (id : Option UInt32)
    (raw : Bytes) : RxSide × TelemetryResult (Option Bytes) :=
  match ctx.consumed with
  | .error e => (rx, .error e)
  | .ok true => (rx, .ok none)
  | .ok false =>
    match ctx.admission with
    | .error e => (rx, .error e)
    | .ok _ => ({ rx with dictionary := learn opts rx.dictionary id raw }, .ok (some raw))

def decodeFull (opts : SideOptions) (ctx : DecodeContext) (rx : RxSide) (body : Bytes) :
    RxSide × TelemetryResult (Option Bytes) :=
  match eval (readFullBody opts.headerTemplateEnabled) (Cursor.start body) with
  | .error e => (rx, .error e)
  | .ok (id, raw) => admitFull opts ctx rx id raw

def readCompactBody : ByteReader (UInt32 × Bytes) := do
  let id ← readUleb32 "side template id too large"
  let rest ← restBytes
  return (id, rest)

/-- A compact frame, read. -/
def rebuildCompact (env : WireEnv) (ctx : DecodeContext) (mode : SideCompactTimestampMode)
    (rx : RxSide) (flags : UInt8) (id : UInt32) (rest : Bytes) :
    RxSide × TelemetryResult (Option Bytes) :=
  match rx.dictionary.byId[id]? with
  | none =>
    ({ rx with unknownTemplates := rx.unknownTemplates + 1 },
      if ctx.localServices then .ok none else .error (.unpack "unknown side compact template"))
  | some template =>
    match ctx.reconstruction with
    | .error e => (rx, .error e)
    | .ok _ =>
      let base := if mode = .absolute then none else rx.dictionary.lastTimestamps[id]?
      match reconstructSideCompactFrame env template flags rest mode base with
      | .error e => (rx, .error e)
      | .ok (frame, timestamp) =>
        ({ rx with dictionary := { rx.dictionary with
            lastTimestamps := rx.dictionary.lastTimestamps.insert id timestamp } },
          match ctx.workKinds, ctx.readmission with
          | true, .error e => .error e
          | _, _ => .ok (some frame))

def decodeCompact (env : WireEnv) (ctx : DecodeContext) (mode : SideCompactTimestampMode)
    (rx : RxSide) (body : Bytes) : RxSide × TelemetryResult (Option Bytes) :=
  match body with
  | [] => (rx, .error (.unpack "short side compact frame"))
  | flags :: tail =>
    match eval readCompactBody (Cursor.start tail) with
    | .error e => (rx, .error e)
    | .ok (id, rest) => rebuildCompact env ctx mode rx flags id rest

/-- `decode_side_transport_frame`: an assembled frame is decoded in turn, with the answers of the
next level. -/
def decodeRounds (env : WireEnv) (opts : SideOptions) : (rounds : ℕ) → (ℕ → DecodeContext) → RxSide →
    Bytes → RxSide × TelemetryResult (Option Bytes)
  | 0, _, rx, _ => (rx, .ok none)
  | rounds + 1, ctx, rx, bytes =>
    let rx := { rx with chunks := rx.chunks.expireSideChunks (ctx 0).chunk.nowMs }
    match parseSideTransportWrapper env bytes with
    | .error e => (rx, .error e)
    | .ok none => (rx, decodeUnwrapped (ctx 0) bytes)
    | .ok (some (kind, body)) =>
      if kind = sideTransportKindFull then decodeFull opts (ctx 0) rx body
      else if kind = sideTransportKindCompact then decodeCompact env (ctx 0) .absolute rx body
      else if kind = sideTransportKindCompactDelta then decodeCompact env (ctx 0) .delta rx body
      else if kind = sideTransportKindCompactSameTimestamp then
        decodeCompact env (ctx 0) .omitted rx body
      else if kind = sideTransportKindChunk then
        match rx.chunks.decodeChunk (ctx 0).chunk body with
        | (chunks, .error e) => ({ rx with chunks }, .error e)
        | (chunks, .ok none) => ({ rx with chunks }, .ok none)
        | (chunks, .ok (some frame)) =>
          decodeRounds env opts rounds (fun level => ctx (level + 1)) { rx with chunks } frame
      else (rx, .error (.unpack "unknown side transport frame"))

/-- The bytes of the fragments kept. -/
def pendingBytes (st : ChunkStore) : ℕ :=
  sumValues (fun a => SideChunkAssembly.payloadBytes a.received) st.rxChunks

/-- Every level takes its chunk header off the bytes kept and received, so these bound the levels. -/
def decodeSideTransportFrame (env : WireEnv) (opts : SideOptions) (ctx : ℕ → DecodeContext)
    (rx : RxSide) (bytes : Bytes) : RxSide × TelemetryResult (Option Bytes) :=
  decodeRounds env opts (pendingBytes rx.chunks + bytes.length + 1) ctx rx bytes

end RxSide

/-! ### Reliable frames keep away from the dictionary -/

/-- The two endpoint readers stop at the same place. -/
theorem skipEndpoints_cursor {reg : Registry} {flags : UInt8} {ty : DataType} {nep : ℕ}
    {src : RoutingEndpoints} {c c₁ c₂ : Cursor} (h : readRoutingEndpoints reg flags ty nep c = .ok (src, c₁))
    (h' : skipEndpoints flags nep c = .ok ((), c₂)) : c₁ = c₂ := by
  unfold readRoutingEndpoints at h
  unfold skipEndpoints at h'
  by_cases hlist : flags &&& flagEndpointListPresent ≠ 0
  · rw [if_pos hlist] at h h'
    obtain ⟨-, h⟩ := failIf_bind_ok h
    obtain ⟨-, h'⟩ := failIf_bind_ok h'
    obtain ⟨bytes, c₃, hbytes, h⟩ := bind_ok h
    obtain ⟨bytes', c₄, hbytes', h'⟩ := bind_ok h'
    cases hbytes.symm.trans hbytes'
    exact (pure_ok_inv h).2.symm.trans (pure_ok_inv h').2
  · rw [if_neg hlist] at h h'
    by_cases hbitmap : flags &&& flagEndpointBitmapPresent ≠ 0
    · rw [if_pos hbitmap] at h h'
      obtain ⟨bytes, c₃, hbytes, h⟩ := bind_ok h
      obtain ⟨bytes', c₄, hbytes', h'⟩ := bind_ok h'
      cases hbytes.symm.trans hbytes'
      obtain ⟨-, h⟩ := failIf_bind_ok h
      obtain ⟨-, h⟩ := failIf_bind_ok h
      exact (pure_ok_inv h).2.symm.trans (pure_ok_inv h').2
    · rw [if_neg hbitmap] at h h'
      obtain ⟨m, -, h⟩ := ofOption_bind_ok h
      obtain ⟨-, h⟩ := failIf_bind_ok h
      exact (pure_ok_inv h).2.symm.trans (pure_ok_inv h').2

/-- The two header walks of one buffer agree that there is no reliable header. -/
theorem absentSpan {reg : Registry} {data : Bytes} {envelope : RoutingEnvelope} {left : ℕ}
    {span : Option (ℕ × ℕ × ReliableHeader)} {c c' : Cursor}
    (h : readFrameInfo reg data (Cursor.start data) = .ok ((envelope, none, left), c))
    (h' : reliableHeaderSpanBody (Cursor.start data) = .ok (span, c')) : span = none := by
  obtain ⟨e, c₀, henvelope, h⟩ := bind_ok h
  obtain ⟨reliable, c₁, hreliable, h⟩ := bind_ok h
  obtain ⟨heq, -⟩ := pure_ok_inv h
  cases heq
  rcases whenPresent_ok hreliable with ⟨-, hdr, -, hnone⟩ | ⟨habsent, -, -⟩
  · cases hnone
  obtain ⟨flags, d₁, hflags, henvelope⟩ := bind_ok henvelope
  obtain ⟨flags', d₁', hflags', h'⟩ := bind_ok h'
  cases hflags.symm.trans hflags'
  obtain ⟨nep, d₂, hnep, henvelope⟩ := bind_ok henvelope
  obtain ⟨nep', d₂', hnep', h'⟩ := bind_ok h'
  cases hnep.symm.trans hnep'
  obtain ⟨tyV, d₃, hty, henvelope⟩ := bind_ok henvelope
  obtain ⟨tyV', d₃', hty', h'⟩ := bind_ok h'
  cases hty.symm.trans hty'
  obtain ⟨dsz, d₄, hdsz, henvelope⟩ := bind_ok henvelope
  obtain ⟨dsz', d₄', hdsz', h'⟩ := bind_ok h'
  cases hdsz.symm.trans hdsz'
  obtain ⟨ts, d₅, hts, henvelope⟩ := bind_ok henvelope
  obtain ⟨ts', d₅', hts', h'⟩ := bind_ok h'
  cases hts.symm.trans hts'
  obtain ⟨nonce, d₆, hnonce, henvelope⟩ := bind_ok henvelope
  obtain ⟨nonce', d₆', hnonce', h'⟩ := bind_ok h'
  cases hnonce.symm.trans hnonce'
  obtain ⟨source, d₇, hsource, henvelope⟩ := bind_ok henvelope
  obtain ⟨source', d₇', hsource', h'⟩ := bind_ok h'
  cases hsource.symm.trans hsource'
  obtain ⟨ty, -, henvelope⟩ := ofResult_bind_ok henvelope
  rw [remaining_bind] at h'
  obtain ⟨-, h'⟩ := failIf_bind_ok h'
  obtain ⟨src, d₈, hsrc, henvelope⟩ := bind_ok henvelope
  obtain ⟨_, d₈', hskip, h'⟩ := bind_ok h'
  cases skipEndpoints_cursor hsrc hskip
  obtain ⟨contract, d₉, hcontract, henvelope⟩ := bind_ok henvelope
  obtain ⟨contract', d₉', hcontract', h'⟩ := bind_ok h'
  obtain ⟨targets, hrouting, -⟩ := readRoutingContract_of_ok hcontract'
  cases hcontract.symm.trans hrouting
  obtain ⟨_, d₁₀, -, henvelope⟩ := bind_ok henvelope
  obtain ⟨rfl, -⟩ := pure_ok_inv henvelope
  obtain ⟨ty', -, h'⟩ := ofResult_bind_ok h'
  simp only [decide_eq_true_eq, not_or, not_not] at habsent
  rcases whenPresent_ok h' with ⟨hpresent, -⟩ | ⟨-, hnone, -⟩
  · exact absurd ⟨habsent.1, Bool.eq_false_of_not_eq_true habsent.2⟩ hpresent
  · exact hnone

variable {env : WireEnv} {raw : Bytes}

/-- A frame the envelope parser finds unreliable has no reliable header span. -/
theorem reliableHeaderSpan_none {frame : RoutingFrameInfo}
    {span : Option (ℕ × ℕ × ReliableHeader)} (hpeek : peekRoutingFrameInfo env raw = .ok frame)
    (hrel : frame.reliable = none) (hspan : reliableHeaderSpan raw = .ok span) : span = none := by
  unfold peekRoutingFrameInfo at hpeek
  split at hpeek
  · cases hpeek
  rename_i envelope reliable left hverified
  cases hpeek
  subst hrel
  unfold withVerified at hverified
  split at hverified
  · cases hverified
  rename_i data hcrc
  obtain ⟨-, rfl⟩ := verifyCrc32_ok hcrc
  obtain ⟨c, hinfo⟩ := eval_ok hverified
  unfold reliableHeaderSpan at hspan
  split at hspan
  · cases hspan
  obtain ⟨c', hspan⟩ := eval_ok hspan
  exact absentSpan hinfo hspan

variable {x : TemplateExtract}

theorem reliableFlags_none {frame : RoutingFrameInfo} (hpeek : peekRoutingFrameInfo env raw = .ok frame)
    (hrel : frame.reliable = none) (hx : extractSideHeaderTemplate raw = .ok x) : x.template.reliableFlags = none := by
  unfold extractSideHeaderTemplate at hx
  split at hx
  · cases hx
  simp only at hx
  split at hx
  · cases hx
  cases hspan : reliableHeaderSpan raw with
  | error e =>
    rw [hspan] at hx
    cases hx
  | ok span =>
    rw [hspan, reliableHeaderSpan_none hpeek hrel hspan] at hx
    cases hx
    rfl

/-! ### What is encoded -/

/-- The frame takes the path through the dictionary, with the template and the fields of `x`. -/
def UsesDictionary (env : WireEnv) (opts : SideOptions) (ctx : EncodeContext) (d : TxDictionary)
    (raw : Bytes) (x : TemplateExtract) : Prop :=
  opts.headerTemplateEnabled = true ∧ opts.maxSideTransportTemplates ≠ 0 ∧
    ctx.multipleAnnouncers = false ∧
    (∃ frame, peekRoutingFrameInfo env raw = .ok frame ∧ staysCanonical env.reg frame = false) ∧
    dictionaryEntry ctx d raw = .ok (some x)

/-- The frame sent for a template assignment. -/
def assignedFrame (env : WireEnv) (raw : Bytes) (x : TemplateExtract) (assigned : UInt32 × Bool) :
    Bytes :=
  if assigned.2 then compactFrame env assigned.1 x else fullFrame env assigned.1 raw

variable {ctx : EncodeContext} {d : TxDictionary}

theorem dictionaryEntry_some (h : dictionaryEntry ctx d raw = .ok (some x)) :
    extractSideHeaderTemplate raw = .ok x := by
  unfold dictionaryEntry at h
  split at h
  · cases h
  rename_i y hx
  simp only at h
  split at h
  · cases h
  cases h
  exact hx

variable {opts : SideOptions}

theorem UsesDictionary.extract (h : UsesDictionary env opts ctx d raw x) :
    extractSideHeaderTemplate raw = .ok x := dictionaryEntry_some h.2.2.2.2

theorem UsesDictionary.reliableFlags (h : UsesDictionary env opts ctx d raw x) : x.template.reliableFlags = none := by
  obtain ⟨frame, hpeek, hstays⟩ := h.2.2.2.1
  apply reliableFlags_none hpeek _ h.extract
  cases hrel : frame.reliable with
  | none => rfl
  | some hdr => simp [staysCanonical, hrel] at hstays

/-- What `encode_side_transport_frames` can do. -/
inductive EncodeCase (env : WireEnv) (opts : SideOptions) (sender : Bytes) (ctx : EncodeContext)
    (d : TxDictionary) (raw : Bytes) : TxDictionary × TelemetryResult SideTransportFrames → Prop where
  | refused (e : TelemetryError) : EncodeCase env opts sender ctx d raw (d, .error e)
  | canonical (d' : TxDictionary) (h : d' = d ∨ d' = d.trimTxTemplatesTo 0) :
      EncodeCase env opts sender ctx d raw (d', fitFrames opts sender raw)
  | wrapped (h : opts.headerTemplateEnabled = false) :
      EncodeCase env opts sender ctx d raw
        (d, fitFrames opts sender (wrapSideTransportFrame env sideTransportKindFull raw))
  | template (x : TemplateExtract) (h : UsesDictionary env opts ctx d raw x) :
      EncodeCase env opts sender ctx d raw
        ((d.assignTemplate (effectiveTemplateLimit opts ctx) x).1,
          fitFrames opts sender
            (assignedFrame env raw x (d.assignTemplate (effectiveTemplateLimit opts ctx) x).2))

theorem fitFrames_single (sender : Bytes) {frame : Bytes}
    (h : ¬ (opts.maxFrameBytes ≠ 0 ∧ opts.maxFrameBytes < frame.length)) :
    fitFrames opts sender frame = .ok (.single frame) := by
  rw [fitFrames, if_neg h]

theorem encodeWithTemplates_case (env : WireEnv) (sender : Bytes)
    (ctx : EncodeContext) (d : TxDictionary) (henabled : opts.headerTemplateEnabled = true)
    (hfits : ¬ (opts.maxFrameBytes ≠ 0 ∧ opts.maxFrameBytes < raw.length)) :
    EncodeCase env opts sender ctx d raw (encodeWithTemplates env opts sender ctx d raw) := by
  have hraw := fitFrames_single sender hfits
  unfold encodeWithTemplates
  cases hpeek : peekRoutingFrameInfo env raw with
  | error e => exact .refused e
  | ok frame =>
    simp only
    split
    · rw [← hraw]
      apply EncodeCase.canonical
      split
      · exact .inr rfl
      · exact .inl rfl
    · rename_i hdictionary
      simp only [Bool.or_eq_true, decide_eq_true_eq, not_or, Bool.not_eq_true] at hdictionary
      obtain ⟨⟨hmax, hmultiple⟩, hstays⟩ := hdictionary
      cases hentry : dictionaryEntry ctx d raw with
      | error e => exact .refused e
      | ok entry =>
        cases entry with
        | none =>
          rw [← hraw]
          exact .canonical d (.inl rfl)
        | some x =>
          exact .template x ⟨henabled, hmax, hmultiple, ⟨frame, hpeek, hstays⟩, hentry⟩

theorem encode_case (env : WireEnv) (opts : SideOptions) (sender : Bytes) (ctx : EncodeContext)
    (d : TxDictionary) (raw : Bytes) :
    EncodeCase env opts sender ctx d raw (encodeSideTransportFrames env opts sender ctx d raw) := by
  unfold encodeSideTransportFrames
  split
  · rename_i hplain
    have hraw : fitFrames opts sender raw = .ok (.single raw) :=
      fitFrames_single sender fun hlong => hlong.1 hplain.2
    rw [← hraw]
    exact .canonical d (.inl rfl)
  · split
    · rename_i hlong
      have hraw : fitFrames opts sender raw =
          SideTransportFrames.split raw opts.maxFrameBytes sender := by
        rw [fitFrames, if_pos hlong]
      rw [← hraw]
      exact .canonical d (.inl rfl)
    · rename_i hfits
      split
      · rename_i henabled
        exact encodeWithTemplates_case env sender ctx d henabled hfits
      · rename_i hdisabled
        exact .wrapped (Bool.eq_false_of_not_eq_true hdisabled)

/-- The id of a new template. -/
abbrev TemplateExtract.id (x : TemplateExtract) : UInt32 := foldHash x.template.hash

/-- A known template, or a new one with its folded hash as id. -/
theorem assignTemplate_cases (d : TxDictionary) (limit : ℕ) (x : TemplateExtract) :
    (∃ id useCompact uses, (d.trimTxTemplatesTo limit).ids[x.template.hash]? = some id ∧
      d.assignTemplate limit x =
        ({ d.trimTxTemplatesTo limit with compactUses := uses }, id, useCompact)) ∨
    ((d.trimTxTemplatesTo limit).ids[x.template.hash]? = none ∧
      d.assignTemplate limit x =
        ((d.trimTxTemplatesTo limit).insertTxTemplate x.template x.id limit, x.id, false)) := by
  unfold TxDictionary.assignTemplate
  simp only
  cases hid : (d.trimTxTemplatesTo limit).ids[x.template.hash]? with
  | none => exact .inr ⟨rfl, rfl⟩
  | some id => exact .inl ⟨id, _, _, rfl, rfl⟩

theorem TxDictionary.Folded.assignTemplate (h : d.Folded) (limit : ℕ) (x : TemplateExtract) :
    (d.assignTemplate limit x).1.Folded ∧ (d.assignTemplate limit x).2.1 = x.id := by
  rcases assignTemplate_cases d limit x with ⟨id, useCompact, uses, hid, heq⟩ | ⟨hnone, heq⟩
  · rw [heq]
    exact ⟨fun hash id' hid' => h.trimTxTemplatesTo limit hash id' hid',
      h.trimTxTemplatesTo limit _ _ hid⟩
  · rw [heq]
    exact ⟨(h.trimTxTemplatesTo limit).insertTxTemplate limit (not_mem_iff.mpr hnone), rfl⟩

theorem TxDictionary.Folded.encode (h : d.Folded) (env : WireEnv)
    (opts : SideOptions) (sender : Bytes) (ctx : EncodeContext) (raw : Bytes) :
    (encodeSideTransportFrames env opts sender ctx d raw).1.Folded := by
  have hcase := encode_case env opts sender ctx d raw
  generalize encodeSideTransportFrames env opts sender ctx d raw = r at hcase
  cases hcase with
  | refused | wrapped => exact h
  | canonical d' hd' =>
    rcases hd' with rfl | rfl
    · exact h
    · exact h.trimTxTemplatesTo 0
  | template x _ => exact (h.assignTemplate _ x).1

/-- The frames a canonical frame can be sent as, before they are split into chunks. -/
inductive Encodes (env : WireEnv) (templates : Bool) (raw : Bytes) : Bytes → Prop where
  | canonical : Encodes env templates raw raw
  | wrapped (h : templates = false) :
      Encodes env templates raw (wrapSideTransportFrame env sideTransportKindFull raw)
  | full (x : TemplateExtract) (h : templates = true) (hx : extractSideHeaderTemplate raw = .ok x)
      (hrel : x.template.reliableFlags = none) :
      Encodes env templates raw (fullFrame env (foldHash x.template.hash) raw)
  | compact (x : TemplateExtract) (h : templates = true) (hx : extractSideHeaderTemplate raw = .ok x)
      (hrel : x.template.reliableFlags = none) :
      Encodes env templates raw (compactFrame env (foldHash x.template.hash) x)

theorem UsesDictionary.encodes (h : UsesDictionary env opts ctx d raw x) (useCompact : Bool) :
    Encodes env opts.headerTemplateEnabled raw (assignedFrame env raw x (x.id, useCompact)) := by
  cases useCompact with
  | false => exact .full x h.1 h.extract h.reliableFlags
  | true => exact .compact x h.1 h.extract h.reliableFlags

theorem encode_encodes {sender : Bytes} {t : SideTransportFrames} (hfolded : d.Folded)
    (h : (encodeSideTransportFrames env opts sender ctx d raw).2 = .ok t) :
    ∃ inner, Encodes env opts.headerTemplateEnabled raw inner ∧ fitFrames opts sender inner = .ok t := by
  have hcase := encode_case env opts sender ctx d raw
  generalize encodeSideTransportFrames env opts sender ctx d raw = r at hcase h
  cases hcase with
  | refused e => cases h
  | canonical d' _ => exact ⟨raw, .canonical, h⟩
  | wrapped hdisabled => exact ⟨_, .wrapped hdisabled, h⟩
  | template x huses =>
    have hid := (hfolded.assignTemplate (effectiveTemplateLimit opts ctx) x).2
    refine ⟨_, huses.encodes (d.assignTemplate (effectiveTemplateLimit opts ctx) x).2.2, ?_⟩
    rw [← hid]
    exact h

end SedsNet
