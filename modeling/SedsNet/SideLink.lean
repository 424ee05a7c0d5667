import SedsNet.SideDecode

/-! # Compact frames over an unreliable link

A sender and a receiver of one side with a link between them.  The link keeps everything that was
ever transmitted and may hand over any of it at any time: it loses, repeats and reorders.

A compact frame names its header by a 32-bit id.  `compact_frame_integrity` says that the receiver
still only decodes what was sent, provided the frames sent are told apart by their ids
(`Distinguished`); `compact_frame_wrong_header` shows two headers that are not. -/

namespace SedsNet

open OrderedMap Runs SideChunkAssembly SideTransportFrames List

/-! ### The link -/

/-- What both ends of a link agree on, and the name of the sender. -/
structure LinkSettings where
  headerTemplateEnabled : Bool
  maxFrameBytes : ℕ
  sender : Bytes

/-- The options of either end; the template limits may differ and change. -/
def LinkSettings.options (link : LinkSettings) (maxTemplates : ℕ) : SideOptions :=
  ⟨link.headerTemplateEnabled, link.maxFrameBytes, maxTemplates⟩

/-- The two ends, the frames transmitted with the canonical frames they were made from, and the
canonical frames delivered with what they were decoded to. -/
structure SideLink where
  tx : TxDictionary
  wire : List (Bytes × Bytes)
  rx : RxSide
  decoded : List (Bytes × Bytes)

namespace SideLink

def initial : SideLink := ⟨.initial, [], .initial, []⟩

inductive Event (env : WireEnv) where
  | send (maxTemplates : ℕ) (ctx : EncodeContext) (raw : { raw : Bytes // Canonical env raw })
  | refresh
  /-- One of the frames transmitted so far arrives. -/
  | deliver (index maxTemplates : ℕ) (ctx : ℕ → DecodeContext)
  | expire (nowMs : ℕ)
  | reclaim (id : ℕ)

section

variable (env : WireEnv) (link : LinkSettings) (st : SideLink)

def send (maxTemplates : ℕ) (ctx : EncodeContext) (raw : Bytes) : SideLink :=
  match encodeSideTransportFrames env (link.options maxTemplates) link.sender ctx st.tx raw with
  | (tx, .error _) => { st with tx }
  | (tx, .ok t) => { st with tx, wire := st.wire ++ (t.frames env).map fun frame => (frame, raw) }

def deliver (index maxTemplates : ℕ) (ctx : ℕ → DecodeContext) : SideLink :=
  match st.wire[index]? with
  | none => st
  | some (frame, raw) =>
    match st.rx.decodeSideTransportFrame env (link.options maxTemplates) ctx frame with
    | (rx, .ok (some out)) => { st with rx, decoded := st.decoded ++ [(raw, out)] }
    | (rx, _) => { st with rx }

def step : Event env → SideLink
  | .send maxTemplates ctx raw => st.send env link maxTemplates ctx raw
  | .refresh => { st with tx := st.tx.refresh }
  | .deliver index maxTemplates ctx => st.deliver env link index maxTemplates ctx
  | .expire nowMs => { st with rx.chunks := st.rx.chunks.expireSideChunks nowMs }
  | .reclaim id => { st with rx.chunks := st.rx.chunks.remove id }

/-! ### Frames told apart by their ids -/

/-- Two headers with the same template id and the same base flags are the same header. -/
def HeadersAgree (raw raw' : Bytes) : Prop :=
  ∀ x x', extractSideHeaderTemplate raw = .ok x → extractSideHeaderTemplate raw' = .ok x' →
    foldHash x.template.hash = foldHash x'.template.hash →
    x.template.baseFlags = x'.template.baseFlags →
    x.template.prefixBytes = x'.template.prefixBytes ∧ x.template.between = x'.template.between

/-- Two frames that are split with the same transfer id into as many chunks are the same frame. -/
def TransfersAgree (raw raw' : Bytes) : Prop :=
  ∀ inner inner' t t', Encodes env link.headerTemplateEnabled raw inner →
    Encodes env link.headerTemplateEnabled raw' inner' → link.maxFrameBytes < inner.length →
    link.maxFrameBytes < inner'.length → split inner link.maxFrameBytes link.sender = .ok t →
    split inner' link.maxFrameBytes link.sender = .ok t' → t.transferId = t'.transferId →
    t.total = t'.total → inner = inner'

/-- A frame to send is told apart from those sent before it, and from a wrapped frame. -/
def Distinguished : Event env → Prop
  | .send _ _ raw => ¬ sideTransportMagic <+: raw.val ∧ TransfersAgree env link raw raw ∧
      ∀ p ∈ st.wire, HeadersAgree raw p.2 ∧ TransfersAgree env link raw p.2
  | _ => True

theorem HeadersAgree.refl (raw : Bytes) : HeadersAgree raw raw := by
  intro x x' hx hx' _ _
  cases hx.symm.trans hx'
  exact ⟨rfl, rfl⟩

theorem HeadersAgree.symm {raw raw' : Bytes} (h : HeadersAgree raw raw') : HeadersAgree raw' raw := by
  intro x x' hx hx' hid hbase
  obtain ⟨hstart, hbetween⟩ := h x' x hx' hx hid.symm hbase.symm
  exact ⟨hstart.symm, hbetween.symm⟩

theorem TransfersAgree.symm {env : WireEnv} {link : LinkSettings} {raw raw' : Bytes}
    (h : TransfersAgree env link raw raw') : TransfersAgree env link raw' raw := by
  intro inner inner' t t' henc henc' hlen hlen' ht ht' hid htotal
  exact (h inner' inner t' t henc' henc hlen' hlen ht' ht hid.symm htotal.symm).symm

/-! ### What the receiver holds -/

/-- The frame is one of those made from `raw`. -/
def Carries (raw frame : Bytes) : Prop :=
  ∃ inner t, Encodes env link.headerTemplateEnabled raw inner ∧
    fitFrames (link.options 0) link.sender inner = .ok t ∧ frame ∈ t.frames env

/-- Every template kept is that of a frame sent, under its folded hash. -/
def DictionarySound (sent : Bytes → Prop) (d : RxDictionary) : Prop :=
  ∀ (id : UInt32) (template : SideHeaderTemplate), d.byId[id]? = some template →
    ∃ raw x, sent raw ∧ extractSideHeaderTemplate raw = .ok x ∧ x.template = template ∧
      foldHash template.hash = id ∧ template.reliableFlags = none

/-- Every fragment kept is a slice of a frame sent. -/
def ChunksSound (sent : Bytes → Prop) (st : ChunkStore) : Prop :=
  ∀ (k : ℕ) (a : SideChunkAssembly), st.rxChunks[k]? = some a →
    ∃ raw inner t, sent raw ∧ Encodes env link.headerTemplateEnabled raw inner ∧
      link.maxFrameBytes < inner.length ∧ split inner link.maxFrameBytes link.sender = .ok t ∧
      t.transferId.toNat = k ∧ a.total = t.total ∧ SlicesOf t a.received

end

/-- What was sent so far: canonical frames, pairwise told apart. -/
structure SentOk (env : WireEnv) (link : LinkSettings) (sent : Bytes → Prop) : Prop where
  canonical : ∀ raw, sent raw → Canonical env raw ∧ ¬ sideTransportMagic <+: raw
  headers : ∀ raw raw', sent raw → sent raw' → HeadersAgree raw raw'
  transfers : ∀ raw raw', sent raw → sent raw' → TransfersAgree env link raw raw'

/-- The receiver holds parts of frames sent. -/
structure RxSound (env : WireEnv) (link : LinkSettings) (sent : Bytes → Prop) (rx : RxSide) :
    Prop where
  dictionary : DictionarySound sent rx.dictionary
  inv : rx.chunks.ChunkInv
  chunks : ChunksSound env link sent rx.chunks

variable {env : WireEnv} {link : LinkSettings}

section Arrival

variable {sent sent' : Bytes → Prop} {rx : RxSide} {raw inner : Bytes}

theorem SentOk.insert (h : SentOk env link sent) (hcanonical : Canonical env raw)
    (hmagic : ¬ sideTransportMagic <+: raw) (hself : TransfersAgree env link raw raw)
    (hothers : ∀ raw', sent raw' → HeadersAgree raw raw' ∧ TransfersAgree env link raw raw')
    (hsub : ∀ raw', sent' raw' → sent raw' ∨ raw' = raw) : SentOk env link sent' := by
  refine ⟨?_, ?_, ?_⟩
  · intro raw' hraw'
    rcases hsub raw' hraw' with hold | rfl
    · exact h.canonical raw' hold
    · exact ⟨hcanonical, hmagic⟩
  · intro raw₁ raw₂ h₁ h₂
    rcases hsub raw₁ h₁ with hold₁ | rfl <;> rcases hsub raw₂ h₂ with hold₂ | rfl
    · exact h.headers raw₁ raw₂ hold₁ hold₂
    · exact (hothers raw₁ hold₁).1.symm
    · exact (hothers raw₂ hold₂).1
    · exact HeadersAgree.refl _
  · intro raw₁ raw₂ h₁ h₂
    rcases hsub raw₁ h₁ with hold₁ | rfl <;> rcases hsub raw₂ h₂ with hold₂ | rfl
    · exact h.transfers raw₁ raw₂ hold₁ hold₂
    · exact (hothers raw₁ hold₁).2.symm
    · exact (hothers raw₂ hold₂).2
    · exact hself

theorem RxSound.mono (h : RxSound env link sent rx) (hsub : ∀ raw, sent raw → sent' raw) : RxSound env link sent' rx := by
  refine ⟨?_, h.inv, ?_⟩
  · intro id template hid
    obtain ⟨raw, x, hsent, hrest⟩ := h.dictionary id template hid
    exact ⟨raw, x, hsub raw hsent, hrest⟩
  · intro k a ha
    obtain ⟨raw, inner, t, hsent, hrest⟩ := h.chunks k a ha
    exact ⟨raw, inner, t, hsub raw hsent, hrest⟩

theorem RxSound.shrinks {chunks : ChunkStore} (h : RxSound env link sent rx)
    (hshrinks : ChunkStore.Shrinks rx.chunks chunks) : RxSound env link sent { rx with chunks } :=
  ⟨h.dictionary, hshrinks.inv h.inv, fun k a ha => h.chunks k a (hshrinks.sub k a ha)⟩

/-! ### One frame -/

theorem decodeUnwrapped_some {ctx : DecodeContext} {bytes out : Bytes}
    (h : RxSide.decodeUnwrapped ctx bytes = .ok (some out)) : out = bytes := by
  unfold RxSide.decodeUnwrapped at h
  split at h
  · cases h
  · cases h
  split at h
  · cases h
  split at h
  · cases h
  cases h
  rfl

/-- A full frame changes nothing, or its template is learnt and its canonical frame returned. -/
theorem admitFull_cases (opts : SideOptions) (ctx : DecodeContext) (rx : RxSide) (id : Option UInt32) (raw : Bytes) :
    ((rx.admitFull opts ctx id raw).1 = rx ∧ ∀ out, (rx.admitFull opts ctx id raw).2 ≠ .ok (some out)) ∨
    rx.admitFull opts ctx id raw =
      ({ rx with dictionary := RxSide.learn opts rx.dictionary id raw }, .ok (some raw)) := by
  unfold RxSide.admitFull
  split
  · exact .inl ⟨rfl, fun out h => by cases h⟩
  · exact .inl ⟨rfl, fun out h => by cases h⟩
  · split
    · exact .inl ⟨rfl, fun out h => by cases h⟩
    · exact .inr rfl

/-- Learning the template of a frame sent. -/
theorem DictionarySound.learn {d : RxDictionary} (h : DictionarySound sent d)
    {opts : SideOptions} {x : TemplateExtract} (hsent : sent raw)
    (hx : extractSideHeaderTemplate raw = .ok x) (hrel : x.template.reliableFlags = none) :
    DictionarySound sent (RxSide.learn opts d (some x.id) raw) := by
  have hinsert : DictionarySound sent (d.insertRxTemplate x.id x.template
      opts.maxSideTransportTemplates) := by
    intro id template hid
    rcases RxDictionary.byId_insertRxTemplate hid with ⟨rfl, rfl⟩ | hold
    · exact ⟨raw, x, hsent, hx, rfl, rfl, hrel⟩
    · exact h id template hold
  unfold RxSide.learn
  rw [hx]
  simp only
  split
  · exact hinsert
  · exact hinsert

/-- A compact frame changes no template; what it is rebuilt to is what was sent. -/
theorem rebuildCompact_sound (ctx : DecodeContext) {x : TemplateExtract} (hcanonical : Canonical env raw)
    (hheaders : ∀ raw', sent raw' → HeadersAgree raw raw')
    (hdictionary : DictionarySound sent rx.dictionary)
    (hx : extractSideHeaderTemplate raw = .ok x) (hrel : x.template.reliableFlags = none) :
    let r := rx.rebuildCompact env ctx .absolute x.flags x.id x.compactTail
    r.1.dictionary.byId = rx.dictionary.byId ∧ r.1.chunks = rx.chunks ∧
      ∀ out, r.2 = .ok (some out) → out = raw := by
  unfold RxSide.rebuildCompact
  cases hid : rx.dictionary.byId[x.id]? with
  | none =>
    refine ⟨rfl, rfl, ?_⟩
    intro out hout
    simp only at hout
    split at hout <;> cases hout
  | some template =>
    obtain ⟨raw', x', hsent', hx', rfl, hfold, hplain⟩ := hdictionary _ _ hid
    simp only
    split
    · exact ⟨rfl, rfl, fun out hout => by cases hout⟩
    simp only [if_true]
    by_cases hbase : x'.template.baseFlags = x.template.baseFlags
    · obtain ⟨hstart, hbetween⟩ := hheaders raw' hsent' x x' hx hx' hfold.symm hbase.symm
      have hrebuild : rebuildReliable x'.template x.reliableSeqAck = rebuildReliable x.template x.reliableSeqAck := by
        simp only [rebuildReliable, hplain, hrel]
      rw [reconstruct_extract none (hcanonical.frame hx hrel) hx hbase hstart.symm hbetween.symm
        (hplain.trans hrel.symm) hrebuild]
      refine ⟨rfl, rfl, ?_⟩
      intro out hout
      simp only at hout
      split at hout
      · cases hout
      cases hout
      rfl
    · have hflags := (extract_canonical (hcanonical.frame hx hrel) hx).1
      have hmismatch : templateFlags x.flags ≠ x'.template.baseFlags := by
        rw [← hflags]
        exact Ne.symm hbase
      cases hrebuild : reconstructSideCompactFrame env x'.template x.flags x.compactTail .absolute
        none with
      | error e => exact ⟨rfl, rfl, fun out hout => by cases hout⟩
      | ok frame =>
        unfold reconstructSideCompactFrame at hrebuild
        split at hrebuild <;> cases hrebuild

/-- A frame that was sent whole. -/
theorem RxSound.whole (h : RxSound env link sent rx) (hsent : SentOk env link sent) (hraw : sent raw)
    (henc : Encodes env link.headerTemplateEnabled raw inner) (rounds maxTemplates : ℕ) (ctx : ℕ → DecodeContext) :
    RxSound env link sent (RxSide.decodeRounds env (link.options maxTemplates) (rounds + 1) ctx rx inner).1 ∧
      ∀ out, (RxSide.decodeRounds env (link.options maxTemplates) (rounds + 1) ctx rx inner).2 =
        .ok (some out) → out = raw := by
  have hexpired : RxSound env link sent (rx.expired (ctx 0)) :=
    h.shrinks (ChunkStore.shrinks_expireSideChunks _ _)
  obtain ⟨hcanonical, hmagic⟩ := hsent.canonical raw hraw
  cases henc with
  | canonical =>
    rw [RxSide.decodeRounds_canonical hmagic]
    exact ⟨hexpired, fun out hout => decodeUnwrapped_some hout⟩
  | wrapped hdisabled =>
    rw [RxSide.decodeRounds_wrapped hdisabled]
    rcases admitFull_cases (link.options maxTemplates) (ctx 0) (rx.expired (ctx 0)) none raw with
      ⟨hsame, hnone⟩ | hlearnt
    · rw [hsame]
      exact ⟨hexpired, fun out hout => absurd hout (hnone out)⟩
    · rw [hlearnt]
      refine ⟨hexpired, fun out hout => ?_⟩
      cases hout
      rfl
  | full x henabled hx hrel =>
    rw [RxSide.decodeRounds_full henabled]
    rcases admitFull_cases (link.options maxTemplates) (ctx 0) (rx.expired (ctx 0))
      (some x.id) raw with ⟨hsame, hnone⟩ | hlearnt
    · rw [hsame]
      exact ⟨hexpired, fun out hout => absurd hout (hnone out)⟩
    · rw [hlearnt]
      refine ⟨⟨hexpired.dictionary.learn hraw hx hrel, hexpired.inv, hexpired.chunks⟩, ?_⟩
      intro out hout
      cases hout
      rfl
  | compact x henabled hx hrel =>
    rw [RxSide.decodeRounds_compact]
    obtain ⟨hbyId, hchunks, hout⟩ := rebuildCompact_sound (ctx 0) hcanonical
      (fun raw' hraw' => hsent.headers raw raw' hraw hraw') hexpired.dictionary hx hrel
    refine ⟨⟨?_, ?_, ?_⟩, hout⟩
    · intro id template hid
      rw [hbyId] at hid
      exact hexpired.dictionary id template hid
    · rw [hchunks]
      exact hexpired.inv
    · rw [hchunks]
      exact hexpired.chunks

theorem ChunksSound.onlySlices {st : ChunkStore} {t : SideTransportFrames}
    (h : ChunksSound env link sent st) (hsent : SentOk env link sent) (hraw : sent raw)
    (henc : Encodes env link.headerTemplateEnabled raw inner) (hlen : link.maxFrameBytes < inner.length)
    (ht : split inner link.maxFrameBytes link.sender = .ok t) : st.OnlySlices t := by
  intro a ha htotal
  obtain ⟨raw', inner', t', hraw', henc', hlen', ht', hid, htotal', hslices⟩ := h _ a ha
  have heq := hsent.transfers raw raw' hraw hraw' inner inner' t t' henc henc' hlen hlen' ht ht'
    (UInt32.toNat_inj.mp hid.symm) (htotal.symm.trans htotal')
  subst heq
  cases ht.symm.trans ht'
  exact hslices

/-- A chunk of a frame that was sent in parts. -/
theorem RxSound.chunk {t : SideTransportFrames} {index : ℕ} (h : RxSound env link sent rx)
    (hsent : SentOk env link sent) (hraw : sent raw) (henc : Encodes env link.headerTemplateEnabled raw inner)
    (hlen : link.maxFrameBytes < inner.length)
    (ht : split inner link.maxFrameBytes link.sender = .ok t) (hindex : index < t.total)
    (rounds maxTemplates : ℕ) (ctx : ℕ → DecodeContext) : RxSound env link sent
        (RxSide.decodeRounds env (link.options maxTemplates) (rounds + 1) ctx rx (t.chunk env index)).1 ∧
      ∀ out, (RxSide.decodeRounds env (link.options maxTemplates) (rounds + 1) ctx rx
        (t.chunk env index)).2 = .ok (some out) → out = raw := by
  have hexpired : RxSound env link sent (rx.expired (ctx 0)) :=
    h.shrinks (ChunkStore.shrinks_expireSideChunks _ _)
  have hfresh := fresh_of_split ht
  obtain ⟨hextends, hframe⟩ := ChunkStore.decodeChunk_sound
    (hexpired.chunks.onlySlices hsent hraw henc hlen ht) hexpired.inv (ctx 0).chunk hindex
    hfresh.bound
  have hinv := hexpired.inv.decodeChunk (ctx 0).chunk (t.chunkBody index)
  rw [RxSide.decodeRounds_chunk]
  generalize (rx.expired (ctx 0)).chunks.decodeChunk (ctx 0).chunk (t.chunkBody index) = r
    at hextends hframe hinv
  obtain ⟨chunks, res⟩ := r
  have hsound : RxSound env link sent { rx with chunks } := by
    refine ⟨h.dictionary, hinv, ?_⟩
    intro k a ha
    rcases hextends k a ha with hold | ⟨rfl, htotal, hslices⟩
    · exact hexpired.chunks k a hold
    · exact ⟨raw, inner, t, hraw, henc, hlen, ht, rfl, htotal, hslices⟩
  cases res with
  | error e => exact ⟨hsound, fun out hout => by cases hout⟩
  | ok assembled =>
    cases assembled with
    | none => exact ⟨hsound, fun out hout => by cases hout⟩
    | some frame =>
      have heq : frame = inner := (hframe frame rfl).trans hfresh.flatten
      subst heq
      cases rounds with
      | zero => exact ⟨hsound, fun out hout => by cases hout⟩
      | succ rounds => exact hsound.whole hsent hraw henc rounds maxTemplates _

/-- Any frame made from a frame sent. -/
theorem RxSound.decode {frame : Bytes} (h : RxSound env link sent rx) (hsent : SentOk env link sent)
    (hraw : sent raw) (hcarries : Carries env link raw frame) (maxTemplates : ℕ) (ctx : ℕ → DecodeContext) :
    RxSound env link sent (rx.decodeSideTransportFrame env (link.options maxTemplates) ctx frame).1 ∧
      ∀ out, (rx.decodeSideTransportFrame env (link.options maxTemplates) ctx frame).2 =
        .ok (some out) → out = raw := by
  obtain ⟨inner, t, henc, hfit, hframe⟩ := hcarries
  unfold fitFrames at hfit
  split at hfit
  · rename_i hlong
    have hfresh := fresh_of_split hfit
    rw [hfresh.frames_eq] at hframe
    obtain ⟨index, hindex, rfl⟩ := mem_map.mp hframe
    exact h.chunk hsent hraw henc hlong.2 hfit (mem_range.mp hindex) _ maxTemplates ctx
  · cases hfit
    obtain rfl : frame = inner := mem_singleton.mp hframe
    exact h.whole hsent hraw henc _ maxTemplates ctx

end Arrival

/-! ### The link as a whole -/

/-- Some frame made from `raw` was transmitted. -/
def sent (st : SideLink) (raw : Bytes) : Prop := ∃ frame, (frame, raw) ∈ st.wire

structure Inv (env : WireEnv) (link : LinkSettings) (st : SideLink) : Prop where
  folded : st.tx.Folded
  carries : ∀ p ∈ st.wire, Carries env link p.2 p.1
  sentOk : SentOk env link st.sent
  rx : RxSound env link st.sent st.rx
  decoded : ∀ p ∈ st.decoded, p.2 = p.1

theorem inv_initial (env : WireEnv) (link : LinkSettings) : Inv env link initial := by
  have hnone : ∀ raw, ¬ initial.sent raw := by
    rintro raw ⟨frame, hmem⟩
    cases hmem
  refine ⟨TxDictionary.folded_initial, ?_, ?_, ?_, ?_⟩
  · intro p hp
    cases hp
  · exact ⟨fun raw h => absurd h (hnone raw), fun raw _ h => absurd h (hnone raw),
      fun raw _ h => absurd h (hnone raw)⟩
  · refine ⟨?_, ChunkStore.chunkInv_initial, ?_⟩
    · intro id template h
      simp [initial, RxSide.initial, RxDictionary.initial] at h
    · intro k a h
      simp [initial, RxSide.initial, ChunkStore.initial] at h
  · intro p hp
    cases hp

theorem Inv.send {st : SideLink} (h : Inv env link st) (maxTemplates : ℕ) (ctx : EncodeContext)
    (raw : { raw : Bytes // Canonical env raw }) (hd : Distinguished env link st (.send maxTemplates ctx raw)) :
    Inv env link (st.send env link maxTemplates ctx raw) := by
  have hfolded := h.folded.encode env (link.options maxTemplates) link.sender ctx raw.val
  have hencodes : ∀ t, (encodeSideTransportFrames env (link.options maxTemplates) link.sender ctx
      st.tx raw.val).2 = .ok t → ∃ inner, Encodes env link.headerTemplateEnabled raw.val inner ∧
        fitFrames (link.options maxTemplates) link.sender inner = .ok t :=
    fun t => encode_encodes h.folded
  unfold SideLink.send
  generalize encodeSideTransportFrames env (link.options maxTemplates) link.sender ctx st.tx
    raw.val = r at hfolded hencodes
  obtain ⟨tx, res⟩ := r
  cases res with
  | error e => exact ⟨hfolded, h.carries, h.sentOk, h.rx, h.decoded⟩
  | ok t =>
    obtain ⟨inner, henc, hfit⟩ := hencodes t rfl
    obtain ⟨hmagic, hself, hothers⟩ := hd
    have hsub : ∀ raw', SideLink.sent { st with
        tx, wire := st.wire ++ (t.frames env).map fun frame => (frame, raw.val) } raw' →
        st.sent raw' ∨ raw' = raw.val := by
      rintro raw' ⟨frame, hmem⟩
      rcases mem_append.mp hmem with hold | hnew
      · exact .inl ⟨frame, hold⟩
      · obtain ⟨frame', -, heq⟩ := mem_map.mp hnew
        cases heq
        exact .inr rfl
    refine ⟨hfolded, ?_, ?_, ?_, h.decoded⟩
    · intro p hp
      rcases mem_append.mp hp with hold | hnew
      · exact h.carries p hold
      · obtain ⟨frame, hframe, rfl⟩ := mem_map.mp hnew
        exact ⟨inner, t, henc, hfit, hframe⟩
    · apply h.sentOk.insert raw.property hmagic hself _ hsub
      rintro raw' ⟨frame, hmem⟩
      exact hothers _ hmem
    · apply h.rx.mono
      rintro raw' ⟨frame, hmem⟩
      exact ⟨frame, mem_append_left _ hmem⟩

theorem Inv.deliver {st : SideLink} (h : Inv env link st) (index maxTemplates : ℕ) (ctx : ℕ → DecodeContext) :
    Inv env link (st.deliver env link index maxTemplates ctx) := by
  unfold SideLink.deliver
  cases hwire : st.wire[index]? with
  | none => exact h
  | some p =>
    obtain ⟨frame, raw⟩ := p
    have hmem := mem_of_getElem? hwire
    obtain ⟨hrx, hout⟩ := h.rx.decode h.sentOk ⟨frame, hmem⟩ (h.carries _ hmem) maxTemplates ctx
    simp only
    generalize st.rx.decodeSideTransportFrame env (link.options maxTemplates) ctx frame = r
      at hrx hout
    obtain ⟨rx, res⟩ := r
    match res with
    | .error e => exact ⟨h.folded, h.carries, h.sentOk, hrx, h.decoded⟩
    | .ok none => exact ⟨h.folded, h.carries, h.sentOk, hrx, h.decoded⟩
    | .ok (some out) =>
      refine ⟨h.folded, h.carries, h.sentOk, hrx, ?_⟩
      intro p hp
      rcases mem_append.mp hp with hold | hnew
      · exact h.decoded p hold
      · rw [mem_singleton.mp hnew]
        exact hout out rfl

theorem Inv.step {st : SideLink} (h : Inv env link st) (event : Event env) (hd : Distinguished env link st event) :
    Inv env link (st.step env link event) := by
  cases event with
  | send maxTemplates ctx raw => exact h.send maxTemplates ctx raw hd
  | refresh => exact ⟨h.folded, h.carries, h.sentOk, h.rx, h.decoded⟩
  | deliver index maxTemplates ctx => exact h.deliver index maxTemplates ctx
  | expire nowMs =>
    exact ⟨h.folded, h.carries, h.sentOk,
      h.rx.shrinks (ChunkStore.shrinks_expireSideChunks nowMs _), h.decoded⟩
  | reclaim id =>
    exact ⟨h.folded, h.carries, h.sentOk, h.rx.shrinks (ChunkStore.shrinks_remove _ id), h.decoded⟩

/-- Whatever the link does, a frame is decoded to the canonical frame it was made from. -/
theorem compact_frame_integrity (env : WireEnv) (link : LinkSettings) (events : List (Event env))
    (h : Meets (step env link) (Distinguished env link) initial events) :
    ∀ p ∈ (run (step env link) initial events).decoded, p.2 = p.1 := by
  have hinv : Inv env link (run (step env link) initial events) := by
    apply run_invariant _ (inv_initial env link) h
    intro st event hst hd
    exact hst.step event hd
  exact hinv.decoded

/-! ### A run with two senders -/

/-- One best-effort type. -/
def reportRegistry : Registry where
  endpoints := [5]
  types := [(101, ⟨.static 2 .uint8 .data, [5], .none, 1⟩)]
  staticStringLength := 16
  staticHexLength := 16

/-- A report of the named sender. -/
def reportPacket (sender : Bytes) (timestamp : UInt64) : Packet :=
  { publishedPacket 0 with ty := 101, sender, timestamp }

/-- `node-40084`. -/
def firstSender : Bytes := [110, 111, 100, 101, 45, 52, 48, 48, 56, 52]

/-- `node-89229`. -/
def secondSender : Bytes := [110, 111, 100, 101, 45, 56, 57, 50, 50, 57]

/-- The first report of the first sender, its second report, and the first report of the second. -/
def firstReport : Bytes := [128, 1, 101, 2, 1, 162, 181, 193, 207, 8, 5, 170, 187, 112, 55, 70, 230]

def firstReportNext : Bytes :=
  [128, 1, 101, 2, 2, 162, 181, 193, 207, 8, 5, 170, 187, 181, 11, 203, 223]

def secondReport : Bytes := [128, 1, 101, 2, 1, 203, 143, 204, 142, 9, 5, 170, 187, 190, 115, 64, 68]

theorem packed_reports : packPacketInner (plainEnv reportRegistry) (reportPacket firstSender 1) none = .ok firstReport ∧
    packPacketInner (plainEnv reportRegistry) (reportPacket firstSender 2) none = .ok firstReportNext ∧
    packPacketInner (plainEnv reportRegistry) (reportPacket secondSender 1) none = .ok secondReport := by
  decide +kernel

/-- One peer, no memory pressure. -/
def quietEncode : EncodeContext := ⟨false, none, false, false⟩

/-- Everything is admitted. -/
def openDecode : ℕ → DecodeContext := fun _ =>
  ⟨.ok false, false, .ok (), true, .ok (), false, .ok (), ⟨⟨0, .absent, fun _ => true⟩, 0, [], true, [], true⟩⟩

/-- Templates, and no limit on the frames. -/
def reportLink : LinkSettings := ⟨true, 0, firstSender⟩

def sendReport {sender raw : Bytes} {timestamp : UInt64}
    (h : packPacketInner (plainEnv reportRegistry) (reportPacket sender timestamp) none = .ok raw) :
    Event (plainEnv reportRegistry) := .send 64 quietEncode ⟨raw, canonical_packPacketInnerWithContract h⟩

/-- Both reports of the first sender arrive in the wrong order. -/
def reorderedEvents : List (Event (plainEnv reportRegistry)) :=
  [sendReport packed_reports.1, sendReport packed_reports.2.1, .deliver 1 64 openDecode, .deliver 0 64 openDecode,
    .deliver 1 64 openDecode]

/-- The template of the first sender, and the other fields of a report. -/
def firstExtract (timestamp : UInt64) : TemplateExtract :=
  ⟨⟨6627685124087072132, 128, [1, 101], [162, 181, 193, 207, 8, 5], none, false⟩, 101, 128, 2, timestamp, 0, none,
    [170, 187]⟩

theorem extract_firstReports : extractSideHeaderTemplate firstReport = .ok (firstExtract 1) ∧
    extractSideHeaderTemplate firstReportNext = .ok (firstExtract 2) := by decide +kernel

theorem reportLink_transfers (raw raw' : Bytes) : TransfersAgree (plainEnv reportRegistry) reportLink raw raw' := by
  intro inner inner' t t' _ _ _ _ ht
  cases ht

/-- The compact frame is dropped while its template is missing, and decoded once it is there. -/
theorem compact_frame_integrity_reordered :
    (run (step (plainEnv reportRegistry) reportLink) initial reorderedEvents).decoded.length = 2 ∧
    ∀ p ∈ (run (step (plainEnv reportRegistry) reportLink) initial reorderedEvents).decoded, p.2 = p.1 := by
  refine ⟨by decide +kernel, ?_⟩
  apply compact_frame_integrity
  refine ⟨⟨by decide, reportLink_transfers _ _, ?_⟩, ⟨by decide, reportLink_transfers _ _, ?_⟩,
    trivial, trivial, trivial, trivial⟩
  · intro p hp
    cases hp
  · intro p hp
    have hraw : p.2 = firstReport := by
      have hwire : (step (plainEnv reportRegistry) reportLink initial (sendReport packed_reports.1)).wire.map Prod.snd =
          [firstReport] := by decide +kernel
      have hmem := mem_map_of_mem (f := Prod.snd) hp
      rw [hwire] at hmem
      exact mem_singleton.mp hmem
    refine ⟨?_, reportLink_transfers _ _⟩
    intro x x' hx hx' _ _
    rw [hraw] at hx'
    cases extract_firstReports.2.symm.trans hx
    cases extract_firstReports.1.symm.trans hx'
    exact ⟨rfl, rfl⟩

/-- The headers of the two senders have different hashes that fold to the same id. -/
def collidingEvents : List (Event (plainEnv reportRegistry)) :=
  [sendReport packed_reports.1, sendReport packed_reports.2.2, sendReport packed_reports.2.1, .deliver 0 64 openDecode,
    .deliver 1 64 openDecode, .deliver 2 64 openDecode]

/-- Everything arrives in order, and the second report of the first sender comes out as one of the
second sender. -/
theorem compact_frame_wrong_header : (∀ x x', extractSideHeaderTemplate firstReport = .ok x →
      extractSideHeaderTemplate secondReport = .ok x' → x.template.hash ≠ x'.template.hash) ∧
    ∃ p ∈ (run (step (plainEnv reportRegistry) reportLink) initial collidingEvents).decoded,
      p.1 = firstReportNext ∧ p.2 ≠ p.1 := by
  constructor
  · intro x x' hx hx'
    have hsecond : extractSideHeaderTemplate secondReport =
        .ok ⟨⟨15072068838726647749, 128, [1, 101], [203, 143, 204, 142, 9, 5], none, false⟩, 101, 128,
          2, 1, 0, none, [170, 187]⟩ := by decide +kernel
    cases extract_firstReports.1.symm.trans hx
    cases hsecond.symm.trans hx'
    decide
  · decide +kernel

end SideLink

end SedsNet
