import SedsNet.SideLink

/-! # Dictionaries over a reliable link

The sender and the receiver of a side over a link that loses nothing and keeps the order: the
chunks of each frame arrive before the next frame is encoded.  The sender takes nothing from the
receiver, so a frame still in flight makes no difference to what is decoded when it arrives.

The sender's template limit may change from frame to frame.  `dictionaries_synced` gives the steps
that keep both dictionaries synchronised (`InStep`); after a limit that shrinks and grows again the
receiver evicts a template the sender goes on using (`known_template_evicted`). -/

namespace SedsNet

open OrderedMap Runs SideTransportFrames ChunkStore List TxDictionary

/-- A link, with the template limit of its receiver. -/
structure SyncSettings extends LinkSettings where
  receiverTemplates : ℕ

/-- The options at the receiver. -/
abbrev SyncSettings.rxOptions (link : SyncSettings) : SideOptions := link.options link.receiverTemplates

/-- The two ends. -/
structure SideSync where
  tx : TxDictionary
  rx : RxSide

namespace SideSync

def initial : SideSync := ⟨.initial, .initial⟩

inductive Event where
  /-- A frame is sent; the receiver answers to each of its chunks, on each level. -/
  | send (maxTemplates : ℕ) (ctx : EncodeContext) (raw : Bytes) (answers : ℕ → ℕ → DecodeContext)
  | refresh
  | expire (nowMs : ℕ)
  | reclaim (id : ℕ)

/-- Frames arrive one after the other. -/
def deliverFrom (env : WireEnv) (opts : SideOptions) (answers : ℕ → ℕ → DecodeContext) :
    ℕ → RxSide → List Bytes → RxSide
  | _, rx, [] => rx
  | i, rx, frame :: rest =>
    deliverFrom env opts answers (i + 1)
      (rx.decodeSideTransportFrame env opts (answers i) frame).1 rest

def step (env : WireEnv) (link : SyncSettings) (st : SideSync) : Event → SideSync
  | .send maxTemplates ctx raw answers =>
    match encodeSideTransportFrames env (link.options maxTemplates) link.sender ctx st.tx raw with
    | (tx, .error _) => { st with tx }
    | (tx, .ok t) =>
      ⟨tx, deliverFrom env (link.options link.receiverTemplates) answers 0 st.rx (t.frames env)⟩
  | .refresh => { st with tx := st.tx.refresh }
  | .expire nowMs => { st with rx.chunks := st.rx.chunks.expireSideChunks nowMs }
  | .reclaim id => { st with rx.chunks := st.rx.chunks.remove id }

/-! ### Steps that keep the dictionaries synchronised -/

/-- The frame is neither consumed nor refused. -/
def Admits (ctx : DecodeContext) : Prop := ctx.consumed = .ok false ∧ ctx.admission = .ok ()

/-- A chunk and the answers to it. -/
def arrival (env : WireEnv) (t : SideTransportFrames) (answers : ℕ → ℕ → DecodeContext) (i : ℕ) :
    Bytes × ChunkContext := (t.chunk env i, (answers i 0).chunk)

/-- The frame gets through: whole and admitted, or in chunks that are granted. -/
def Arrives (env : WireEnv) (link : SyncSettings) (rx : RxSide) (answers : ℕ → ℕ → DecodeContext)
    (inner : Bytes) : Prop :=
  ∃ t, fitFrames (link.options 0) link.sender inner = .ok t ∧
    ((t = single inner ∧ Admits (answers 0 0)) ∨
      (split inner link.maxFrameBytes link.sender = .ok t ∧
        rx.chunks.rxChunks[t.transferId.toNat]? = none ∧
        (∀ i, (answers i 0).chunk.Grants t.total inner.length) ∧
        Meets (fun st d => (st.receive env d.2 d.1).1) (Unexpired t.transferId.toNat) rx.chunks
          ((List.range t.total).map (arrival env t answers)) ∧
        Admits (answers (t.total - 1) 1)))

/-- What a full receiver evicts for the new template is unknown to the sender too, or the sender's
own dictionary is at its limit and evicts it as well. -/
def EvictsAlike (link : SyncSettings) (st : SideSync) (limit : ℕ) (id : UInt32) : Prop :=
  link.receiverTemplates ≤ st.rx.dictionary.byId.size → st.rx.dictionary.byId[id]? = none →
    ∀ lowest, firstKey? st.rx.dictionary.hashes = some lowest → lowest ∈ st.tx.ids →
      limit ≤ st.tx.ids.size

/-- The limit is one the receiver has room for, fragments left from an earlier transfer do not mix
with the frame's own, and a template that is new to the receiver gets through, takes no id of a
template the sender knows, and evicts none. -/
def InStep (env : WireEnv) (link : SyncSettings) (st : SideSync) : Event → Prop
  | .send maxTemplates ctx raw answers =>
    effectiveTemplateLimit (link.options maxTemplates) ctx ≤ link.receiverTemplates ∧
    ¬ sideTransportMagic <+: raw ∧
    (∀ inner t, Encodes env link.headerTemplateEnabled raw inner →
      split inner link.maxFrameBytes link.sender = .ok t → st.rx.chunks.OnlySlices t) ∧
    ∀ x, UsesDictionary env (link.options maxTemplates) ctx st.tx raw x →
      0 < effectiveTemplateLimit (link.options maxTemplates) ctx →
      st.rx.dictionary.hashes[x.template.hash]? = none →
      Arrives env link st.rx answers (fullFrame env (foldHash x.template.hash) raw) ∧
      (∀ template, st.rx.dictionary.byId[foldHash x.template.hash]? = some template →
        template.hash ∉ st.tx.ids) ∧
      EvictsAlike link st (effectiveTemplateLimit (link.options maxTemplates) ctx)
        (foldHash x.template.hash)
  | _ => True

/-! ### What the receiver keeps -/

/-- The receiver's dictionary is well formed, and its ids are folded hashes. -/
structure RxOk (rx : RxSide) : Prop where
  wf : rx.dictionary.WellFormed
  folded : ∀ (id : UInt32) (template : SideHeaderTemplate),
    rx.dictionary.byId[id]? = some template → foldHash template.hash = id
  known : rx.unknownTemplates = 0

theorem rxOk_initial : RxOk RxSide.initial := by
  refine ⟨RxDictionary.wellFormed_initial, ?_, rfl⟩
  intro id template h
  simp [RxSide.initial, RxDictionary.initial] at h

variable {rx : RxSide}

/-- The template of a hash the receiver has is kept under the folded hash. -/
theorem RxOk.id_eq (h : RxOk rx) {hash : UInt64} {id : UInt32}
    (hid : rx.dictionary.hashes[hash]? = some id) : id = foldHash hash := by
  obtain ⟨template, htemplate, rfl⟩ := h.wf.kept hash id hid
  exact (h.folded id template htemplate).symm

variable {raw : Bytes} {x : TemplateExtract}

theorem learn_some (opts : SideOptions) (d : RxDictionary) (id : UInt32) (hx : extractSideHeaderTemplate raw = .ok x) :
    (RxSide.learn opts d (some id) raw).byId = (d.insertRxTemplate id x.template opts.maxSideTransportTemplates).byId ∧
      (RxSide.learn opts d (some id) raw).hashes =
        (d.insertRxTemplate id x.template opts.maxSideTransportTemplates).hashes := by
  unfold RxSide.learn
  rw [hx]
  simp only
  split
  · exact ⟨rfl, rfl⟩
  · exact ⟨rfl, rfl⟩

variable {d d' : RxDictionary}

theorem WellFormed.of_eq (h : d.WellFormed) (hbyId : d'.byId = d.byId)
    (hhashes : d'.hashes = d.hashes) : d'.WellFormed := by
  obtain ⟨kept, indexed⟩ := h
  rw [← hbyId, ← hhashes] at kept indexed
  exact ⟨kept, indexed⟩

theorem RxOk.learn (h : RxOk rx) (opts : SideOptions) (hx : extractSideHeaderTemplate raw = .ok x) : RxOk { rx with
      dictionary := RxSide.learn opts rx.dictionary (some x.id) raw } := by
  obtain ⟨hbyId, hhashes⟩ := learn_some opts rx.dictionary x.id hx
  refine ⟨WellFormed.of_eq (h.wf.insertRxTemplate _ _ _) hbyId hhashes, ?_, h.known⟩
  intro id template hid
  rw [hbyId] at hid
  rcases RxDictionary.byId_insertRxTemplate hid with ⟨rfl, rfl⟩ | hold
  · rfl
  · exact h.folded id template hold

theorem RxOk.chunks (h : RxOk rx) (chunks : ChunkStore) : RxOk { rx with chunks } :=
  ⟨h.wf, h.folded, h.known⟩

variable {tx : TxDictionary}

theorem Synced.of_eq (h : Synced tx d) (hbyId : d'.byId = d.byId) : Synced tx d' := by
  intro hash id hid
  rw [hbyId]
  exact h hash id hid

/-! ### The frames of one step -/

section Delivery

variable {env : WireEnv} {opts : SideOptions} (answers : ℕ → ℕ → DecodeContext) {raw inner : Bytes}
  {t : SideTransportFrames} {K : RxSide → Prop} {rx : RxSide} (hchunks : ∀ rx chunks, K rx → K { rx with chunks })
  (henc : Encodes env opts.headerTemplateEnabled raw inner) (hmagic : ¬ sideTransportMagic <+: raw)
  (hinner : ∀ rounds ctx rx, K rx → K (RxSide.decodeRounds env opts (rounds + 1) ctx rx inner).1)

include hchunks henc hmagic hinner

theorem decode_chunk_invariant (hfresh : Fresh inner opts.maxFrameBytes t) {index : ℕ} (hindex : index < t.total)
    (rounds : ℕ) (ctx : ℕ → DecodeContext) (hK : K rx) (hinv : ChunkInv rx.chunks)
    (hslices : rx.chunks.OnlySlices t) :
    let rx' := (RxSide.decodeRounds env opts (rounds + 1) ctx rx (t.chunk env index)).1
    K rx' ∧ ChunkInv rx'.chunks ∧ rx'.chunks.OnlySlices t := by
  have hexpire := shrinks_expireSideChunks (ctx 0).chunk.nowMs rx.chunks
  obtain ⟨hextends, hframe⟩ := decodeChunk_sound (hslices.shrinks hexpire) (hexpire.inv hinv)
    (ctx 0).chunk hindex hfresh.bound
  have hinv' := (hexpire.inv hinv).decodeChunk (ctx 0).chunk (t.chunkBody index)
  have hslices' : ((rx.chunks.expireSideChunks (ctx 0).chunk.nowMs).decodeChunk (ctx 0).chunk
      (t.chunkBody index)).1.OnlySlices t := by
    intro a ha htotal
    rcases hextends _ a ha with hold | ⟨-, -, hslices⟩
    · exact (hslices.shrinks hexpire) a hold htotal
    · exact hslices
  rw [RxSide.decodeRounds_chunk]
  simp only [RxSide.expired]
  generalize (rx.chunks.expireSideChunks (ctx 0).chunk.nowMs).decodeChunk (ctx 0).chunk
    (t.chunkBody index) = r at hframe hinv' hslices'
  obtain ⟨chunks, res⟩ := r
  match res with
  | .error e => exact ⟨hchunks rx chunks hK, hinv', hslices'⟩
  | .ok none => exact ⟨hchunks rx chunks hK, hinv', hslices'⟩
  | .ok (some frame) =>
    have heq : frame = inner := (hframe frame rfl).trans hfresh.flatten
    subst heq
    cases rounds with
    | zero => exact ⟨hchunks rx chunks hK, hinv', hslices'⟩
    | succ rounds =>
      have hshrinks := shrinks_expireSideChunks (ctx 1).chunk.nowMs chunks
      refine ⟨hinner rounds _ _ (hchunks rx chunks hK), ?_, ?_⟩
      · simp only [RxSide.decodeRounds_chunks henc hmagic]
        exact hshrinks.inv hinv'
      · simp only [RxSide.decodeRounds_chunks henc hmagic]
        exact hslices'.shrinks hshrinks

theorem deliver_chunks_invariant (hfresh : Fresh inner opts.maxFrameBytes t) (indices : List ℕ) :
    ∀ {i : ℕ} {rx}, (∀ index ∈ indices, index < t.total) → K rx → ChunkInv rx.chunks → rx.chunks.OnlySlices t →
      K (deliverFrom env opts answers i rx (indices.map (t.chunk env))) ∧
        ChunkInv (deliverFrom env opts answers i rx (indices.map (t.chunk env))).chunks := by
  induction indices with
  | nil => exact fun _ hK hinv _ => ⟨hK, hinv⟩
  | cons index rest ih =>
    intro i rx hindices hK hinv hslices
    obtain ⟨hindex, hrest⟩ := forall_mem_cons.mp hindices
    obtain ⟨hK', hinv', hslices'⟩ := decode_chunk_invariant hchunks henc hmagic hinner hfresh hindex
      (RxSide.pendingBytes rx.chunks + (t.chunk env index).length) (answers i) hK hinv hslices
    exact ih hrest hK' hinv' hslices'

theorem deliver_invariant {sender : Bytes} (hfit : fitFrames opts sender inner = .ok t) (hK : K rx)
    (hinv : ChunkInv rx.chunks) (hslices : split inner opts.maxFrameBytes sender = .ok t → rx.chunks.OnlySlices t) :
    K (deliverFrom env opts answers 0 rx (t.frames env)) ∧
      ChunkInv (deliverFrom env opts answers 0 rx (t.frames env)).chunks := by
  unfold fitFrames at hfit
  split at hfit
  · have hfresh := fresh_of_split hfit
    rw [hfresh.frames_eq]
    exact deliver_chunks_invariant answers hchunks henc hmagic hinner hfresh _
      (fun index hindex => mem_range.mp hindex) hK hinv (hslices hfit)
  · cases hfit
    show K (rx.decodeSideTransportFrame env opts (answers 0) inner).1 ∧
      ChunkInv (rx.decodeSideTransportFrame env opts (answers 0) inner).1.chunks
    unfold RxSide.decodeSideTransportFrame
    refine ⟨hinner _ _ _ hK, ?_⟩
    rw [RxSide.decodeRounds_chunks henc hmagic]
    exact (shrinks_expireSideChunks _ _).inv hinv

end Delivery

/-! ### Frames of known templates -/

/-- The receiver is in order and keeps what the sender takes as known. -/
structure Kept (tx : TxDictionary) (rx : RxSide) : Prop extends RxOk rx where
  synced : Synced tx rx.dictionary

/-- The receiver also keeps the template of the frame. -/
structure Familiar (tx : TxDictionary) (x : TemplateExtract) (rx : RxSide) : Prop extends Kept tx rx where
  has : rx.dictionary.hashes[x.template.hash]? = some (foldHash x.template.hash)

section Forms

variable {env : WireEnv} {opts : SideOptions} {rounds : ℕ} {ctx : ℕ → DecodeContext} {rx : RxSide}
  {tx : TxDictionary} {raw : Bytes} {x : TemplateExtract}

theorem Kept.chunks (h : Kept tx rx) (chunks : ChunkStore) : Kept tx { rx with chunks } :=
  ⟨h.toRxOk.chunks chunks, h.synced⟩

theorem Familiar.chunks (h : Familiar tx x rx) (chunks : ChunkStore) :
    Familiar tx x { rx with chunks } := ⟨h.toKept.chunks chunks, h.has⟩

variable {K : RxSide → Prop}

theorem decode_plain (hchunks : ∀ rx chunks, K rx → K { rx with chunks })
    (hmagic : ¬ sideTransportMagic <+: raw) {inner : Bytes} (henc : inner = raw ∨ (opts.headerTemplateEnabled = false ∧
      inner = wrapSideTransportFrame env sideTransportKindFull raw)) (hK : K rx) :
    K (RxSide.decodeRounds env opts (rounds + 1) ctx rx inner).1 := by
  rcases henc with rfl | ⟨hdisabled, rfl⟩
  · rw [RxSide.decodeRounds_canonical hmagic]
    exact hchunks rx _ hK
  rw [RxSide.decodeRounds_wrapped hdisabled]
  rcases SideLink.admitFull_cases opts (ctx 0) (rx.expired (ctx 0)) none raw with
    ⟨hsame, -⟩ | hlearnt
  · rw [hsame]
    exact hchunks rx _ hK
  · rw [hlearnt]
    exact hchunks rx _ hK

/-- The full frame of a template changes nothing but the dictionary, which may learn it. -/
theorem decode_full (hchunks : ∀ rx chunks, K rx → K { rx with chunks })
    (henabled : opts.headerTemplateEnabled = true)
    (hlearn : ∀ rx, K rx → K { rx with
      dictionary := RxSide.learn opts rx.dictionary (some x.id) raw })
    (hK : K rx) :
    K (RxSide.decodeRounds env opts (rounds + 1) ctx rx
      (fullFrame env x.id raw)).1 := by
  rw [RxSide.decodeRounds_full henabled]
  have hexpired : K (rx.expired (ctx 0)) := hchunks rx _ hK
  rcases SideLink.admitFull_cases opts (ctx 0) (rx.expired (ctx 0))
    (some x.id) raw with ⟨hsame, -⟩ | hlearnt
  · rw [hsame]
    exact hexpired
  · rw [hlearnt]
    exact hlearn _ hexpired

theorem Familiar.learn (h : Familiar tx x rx) (opts : SideOptions) (hx : extractSideHeaderTemplate raw = .ok x) :
    Familiar tx x { rx with dictionary := RxSide.learn opts rx.dictionary (some x.id) raw } := by
  have hok := h.toRxOk.learn opts hx
  obtain ⟨hbyId, hhashes⟩ := learn_some opts rx.dictionary x.id hx
  refine ⟨⟨hok, Synced.of_eq (h.synced.known h.wf h.has) hbyId⟩, ?_⟩
  rcases Nat.eq_zero_or_pos opts.maxSideTransportTemplates with hzero | hmax
  · simp only [hhashes, RxDictionary.insertRxTemplate, hzero, if_true]
    exact h.has
  · apply hok.wf.indexed
    simp only [hbyId]
    exact RxDictionary.insertRxTemplate_self _ _ _ hmax

theorem Familiar.compact (h : Familiar tx x rx) : Familiar tx x (RxSide.decodeRounds env opts (rounds + 1) ctx rx
      (compactFrame env x.id x)).1 := by
  obtain ⟨template, htemplate, -⟩ := h.wf.kept _ _ h.has
  have hid : (rx.expired (ctx 0)).dictionary.byId[x.id]? = some template := htemplate
  have hexpired := h.chunks (rx.chunks.expireSideChunks (ctx 0).chunk.nowMs)
  rw [RxSide.decodeRounds_compact, RxSide.rebuildCompact, hid]
  simp only
  split
  · exact hexpired
  · split
    · exact hexpired
    · exact ⟨⟨⟨WellFormed.of_eq h.wf rfl rfl, h.folded, h.known⟩, Synced.of_eq h.synced rfl⟩, h.has⟩

end Forms

/-! ### The first full frame of a template -/

section Granted

variable {env : WireEnv} {opts : SideOptions} {answers : ℕ → ℕ → DecodeContext} {inner : Bytes}
  {t : SideTransportFrames}

/-- A chunk, with the chunk store's answer. -/
theorem decode_chunk (env : WireEnv) (opts : SideOptions) (ctx : ℕ → DecodeContext) (rx : RxSide)
    (t : SideTransportFrames) (index : ℕ) :
    rx.decodeSideTransportFrame env opts ctx (t.chunk env index) =
      match rx.chunks.receive env (ctx 0).chunk (t.chunk env index) with
      | (chunks, .error e) => ({ rx with chunks }, .error e)
      | (chunks, .ok none) => ({ rx with chunks }, .ok none)
      | (chunks, .ok (some frame)) =>
        RxSide.decodeRounds env opts (RxSide.pendingBytes rx.chunks + (t.chunk env index).length)
          (fun level => ctx (level + 1)) { rx with chunks } frame := by
  unfold RxSide.decodeSideTransportFrame
  rw [RxSide.decodeRounds_chunk, receive_chunk]
  rfl

/-- Granted chunks, in order: the last one yields the frame. -/
theorem deliver_granted (hfresh : Fresh inner opts.maxFrameBytes t)
    (hgrants : ∀ i, (answers i 0).chunk.Grants t.total inner.length) (n : ℕ) :
    ∀ {i : ℕ} {seen} {rx}, i + (n + 1) = t.total → Holds t seen rx.chunks →
      (∀ j < t.total, j ∈ seen ↔ j < i) →
      Meets (fun st d => (st.receive env d.2 d.1).1) (Unexpired t.transferId.toNat) rx.chunks
        ((List.range' i (n + 1)).map (arrival env t answers)) → ∃ chunks rounds, ChunkInv chunks ∧
        deliverFrom env opts answers i rx ((List.range' i (n + 1)).map (t.chunk env)) =
          (RxSide.decodeRounds env opts (rounds + 1) (fun level => answers (t.total - 1) (level + 1))
            { rx with chunks } inner).1 := by
  have hlen : t.content.length = inner.length := by
    rw [hfresh.flatten]
  induction n with
  | zero =>
    intro i seen rx hi hholds hseen hmeets
    have hlast : ∀ j < t.total, j ∈ i :: seen := by
      intro j hj
      rcases Nat.lt_or_eq_of_le (show j ≤ i by omega) with hlt | rfl
      · exact mem_cons_of_mem _ ((hseen j hj).mpr hlt)
      · exact mem_cons_self
    have hnew : i ∉ seen := fun hmem => absurd ((hseen i (by omega)).mp hmem) (lt_irrefl i)
    obtain ⟨hframe, -⟩ := (hholds.receive (hgrants i) hlen (by omega) hfresh.bound hmeets.1).2
      hnew hlast
    have hinv : ChunkInv (rx.chunks.receive env (answers i 0).chunk (t.chunk env i)).1 :=
      hholds.inv.receive (answers i 0).chunk (t.chunk env i)
    have hdecode := decode_chunk env opts (answers i) rx t i
    have hrounds : (t.chunk env i).length ≠ 0 := by
      rw [length_chunk]
      simp [sideTransportChunkOverhead]
    generalize rx.chunks.receive env (answers i 0).chunk (t.chunk env i) = r
      at hframe hinv hdecode
    obtain ⟨chunks, res⟩ := r
    subst hframe
    obtain ⟨rounds, hrounds⟩ := Nat.exists_eq_succ_of_ne_zero
      (show RxSide.pendingBytes rx.chunks + (t.chunk env i).length ≠ 0 by omega)
    refine ⟨chunks, rounds, hinv, ?_⟩
    have hi' : t.total - 1 = i := by omega
    rw [hfresh.flatten, hrounds] at hdecode
    rw [hi']
    exact congrArg Prod.fst hdecode
  | succ n ih =>
    intro i seen rx hi hholds hseen hmeets
    have hmore : ∃ j < t.total, j ∉ i :: seen := by
      refine ⟨t.total - 1, by omega, ?_⟩
      rw [mem_cons, hseen _ (by omega)]
      omega
    obtain ⟨hnone, hholds'⟩ := (hholds.receive (hgrants i) hlen (by omega) hfresh.bound
      hmeets.1).1 hmore
    have hdecode := decode_chunk env opts (answers i) rx t i
    have hmeets' := hmeets.2
    simp only [arrival] at hmeets'
    generalize rx.chunks.receive env (answers i 0).chunk (t.chunk env i) = r
      at hnone hholds' hdecode hmeets'
    obtain ⟨chunks, res⟩ := r
    subst hnone
    have hseen' : ∀ j < t.total, j ∈ i :: seen ↔ j < i + 1 := by
      intro j hj
      rw [mem_cons, hseen j hj]
      omega
    have hstep : (rx.decodeSideTransportFrame env opts (answers i) (t.chunk env i)).1 =
        { rx with chunks } := congrArg Prod.fst hdecode
    obtain ⟨chunks', rounds, hinv, hdeliver⟩ := @ih (i + 1) (i :: seen) { rx with chunks } (by omega)
      hholds' hseen' hmeets'
    refine ⟨chunks', rounds, hinv, ?_⟩
    rw [← hdeliver, ← hstep]
    rfl

theorem Arrives.learnt {link : SyncSettings} {rx : RxSide} {raw : Bytes} {x : TemplateExtract}
    (henabled : link.headerTemplateEnabled = true) (hinv : ChunkInv rx.chunks)
    (h : Arrives env link rx answers (fullFrame env x.id raw))
    (hfit : fitFrames (link.options 0) link.sender (fullFrame env x.id raw) =
      .ok t) :
    ∃ chunks, ChunkInv chunks ∧
      deliverFrom env link.rxOptions answers 0 rx (t.frames env) =
        { rx with
          chunks
          dictionary := RxSide.learn link.rxOptions rx.dictionary
            (some x.id) raw } := by
  have hadmit : ∀ rounds (ctx : ℕ → DecodeContext) rx, Admits (ctx 0) →
      (RxSide.decodeRounds env link.rxOptions (rounds + 1) ctx rx
        (fullFrame env x.id raw)).1 =
      { rx.expired (ctx 0) with
        dictionary := RxSide.learn link.rxOptions rx.dictionary
          (some x.id) raw } := by
    intro rounds ctx rx hadmits
    rw [RxSide.decodeRounds_full henabled, RxSide.admitFull, hadmits.1, hadmits.2]
    rfl
  obtain ⟨t', hfit', hcase⟩ := h
  cases hfit.symm.trans hfit'
  rcases hcase with ⟨rfl, hadmits⟩ | ⟨hsplit, hnone, hgrants, hmeets, hadmits⟩
  · refine ⟨rx.chunks.expireSideChunks (answers 0 0).chunk.nowMs,
      (shrinks_expireSideChunks _ _).inv hinv, ?_⟩
    exact hadmit _ _ rx hadmits
  · have hfresh := fresh_of_split hsplit
    have hpos : t.total ≠ 0 := by
      have hlen : (fullFrame env x.id raw).length ≠ 0 := by
        simp [fullFrame, wrapSideTransportFrame, appendCrc32, sideTransportMagic]
      have hle := le_divCeil_mul (fullFrame env x.id raw).length hfresh.budget_pos
      rw [← hfresh.total] at hle
      intro hzero
      rw [hzero] at hle
      omega
    obtain ⟨n, hn⟩ := Nat.exists_eq_succ_of_ne_zero hpos
    rw [hn, range_eq_range'] at hmeets
    obtain ⟨chunks, rounds, hchunks, hdeliver⟩ := deliver_granted
      (show Fresh _ link.rxOptions.maxFrameBytes t from hfresh) hgrants n
      (show 0 + (n + 1) = t.total by omega) (holds_nothing hinv hnone) (by simp) hmeets
    refine ⟨chunks.expireSideChunks (answers (t.total - 1) 1).chunk.nowMs,
      (shrinks_expireSideChunks _ _).inv hchunks, ?_⟩
    have hframes : t.frames env = (List.range' 0 (n + 1)).map (t.chunk env) := by
      rw [hfresh.frames_eq, hn, range_eq_range']
    rw [hframes, hdeliver]
    exact hadmit _ _ _ hadmits

end Granted

/-! ### One step -/

structure Inv (st : SideSync) : Prop extends Kept st.tx st.rx where
  tx : st.tx.Folded
  chunks : ChunkInv st.rx.chunks

theorem inv_initial : Inv initial := by
  refine ⟨⟨rxOk_initial, ?_⟩, folded_initial, chunkInv_initial⟩
  intro hash id h
  simp [initial, TxDictionary.initial] at h

/-- The lowest hash of the receiver, if the sender knows it, is the sender's lowest hash. -/
theorem lowest_of_synced {rx : RxDictionary} (h : Synced tx rx)
    (hwf : rx.WellFormed) {lowest : UInt64} (hlowest : firstKey? rx.hashes = some lowest)
    (hmem : lowest ∈ tx.ids) : firstKey? tx.ids = some lowest := by
  cases hfirst : firstKey? tx.ids with
  | none =>
    rw [firstKey?_eq_none.mp hfirst] at hmem
    simp at hmem
  | some first =>
    obtain ⟨id, hid⟩ := mem_iff_exists.mp (mem_of_firstKey? hfirst)
    obtain ⟨template, htemplate, rfl⟩ := h first id hid
    have hbelow := firstKey?_le hlowest (mem_iff_exists.mpr ⟨id, hwf.indexed id template htemplate⟩)
    rcases firstKey?_le hfirst hmem with heq | hlt
    · rw [heq]
    · rcases hbelow with heq | hlt'
      · rw [heq]
      · rw [Std.compare_eq_lt] at hlt hlt'
        exact absurd (UInt64.lt_trans hlt hlt') (UInt64.lt_irrefl _)

/-- What the sender knows after it sent the first full frame of a template. -/
theorem Synced.introduce {rx : RxDictionary} (h : Synced tx rx)
    (hwf : rx.WellFormed) {template : SideHeaderTemplate} {limit maxTemplates : ℕ} (hlimit : 0 < limit)
    (hmax : limit ≤ maxTemplates) (hnew : rx.hashes[template.hash]? = none)
    (hid : ∀ old, rx.byId[foldHash template.hash]? = some old → old.hash ∉ tx.ids)
    (hlowest : maxTemplates ≤ rx.byId.size → rx.byId[foldHash template.hash]? = none →
      ∀ lowest, firstKey? rx.hashes = some lowest → lowest ∈ tx.ids → limit ≤ tx.ids.size)
    (hout : (tx.trimTxTemplatesTo limit).ids[template.hash]? = none) :
    Synced ((tx.trimTxTemplatesTo limit).insertTxTemplate template (foldHash template.hash) limit)
      (rx.insertRxTemplate (foldHash template.hash) template maxTemplates) := by
  intro hash id hknown
  rcases ids_insertTxTemplate (not_mem_iff.mpr hout) hknown with
    ⟨hzero, -⟩ | ⟨-, ⟨rfl, rfl⟩ | hold⟩
  · omega
  · exact ⟨template, rx.insertRxTemplate_self _ _ (by omega), rfl⟩
  · have htx := ids_trimTxTemplatesTo (ids_trimTxTemplatesTo hold)
    obtain ⟨kept, hkept, rfl⟩ := h hash id htx
    have hmem : kept.hash ∈ tx.ids := mem_iff_exists.mpr ⟨id, htx⟩
    refine ⟨kept, RxDictionary.insertRxTemplate_new hwf (by omega) hnew hkept ?_ ?_, rfl⟩
    · rintro rfl
      exact hid kept hkept hmem
    · -- the sender would have evicted this template too
      intro hfull hfree hfirst
      have hsize := hlowest hfull hfree _ hfirst hmem
      have hfirstTx := lowest_of_synced h hwf hfirst hmem
      rcases Nat.lt_or_eq_of_le hsize with hlt | heq
      · have hgone := trimTxTemplatesTo_lowest hlt hfirstTx
        rw [ids_trimTxTemplatesTo hold] at hgone
        cases hgone
      · rw [trimTxTemplatesTo_of_le heq.ge] at hold
        have hgone := trimTxTemplatesTo_lowest (show limit - 1 < tx.ids.size by omega)
          hfirstTx
        rw [hold] at hgone
        cases hgone

section Step

variable {env : WireEnv} {link : SyncSettings} {st : SideSync} {maxTemplates : ℕ} {ctx : EncodeContext}
  {raw : Bytes} {answers : ℕ → ℕ → DecodeContext} {x : TemplateExtract}

variable {t : SideTransportFrames}

theorem insert_zero (tx : TxDictionary) (template : SideHeaderTemplate) (id : UInt32) (hash : UInt64) :
    ((tx.trimTxTemplatesTo 0).insertTxTemplate template id 0).ids[hash]? = none := by
  exact trimTxTemplatesTo_zero tx hash

variable (h : Inv st)

include h

/-- Assigning an id to a template the receiver keeps. -/
theorem Inv.synced_assign (limit : ℕ)
    (hhas : st.rx.dictionary.hashes[x.template.hash]? = some x.id) :
    Synced (st.tx.assignTemplate limit x).1 st.rx.dictionary := by
  rcases assignTemplate_cases st.tx limit x with ⟨id, compact, uses, -, heq⟩ | ⟨hout, heq⟩
  · rw [heq]
    exact Synced.sub h.synced fun hash id hid => ids_trimTxTemplatesTo hid
  rw [heq]
  intro hash id hid
  rcases ids_insertTxTemplate (not_mem_iff.mpr hout) hid with
    ⟨-, hold⟩ | ⟨-, ⟨rfl, rfl⟩ | hold⟩
  · exact h.synced hash id (ids_trimTxTemplatesTo hold)
  · exact h.wf.kept _ _ hhas
  · exact h.synced hash id
      (ids_trimTxTemplatesTo (ids_trimTxTemplatesTo hold))

/-- The sender does not know a template the receiver does not keep. -/
theorem Inv.assign_new (limit : ℕ) (hnew : st.rx.dictionary.hashes[x.template.hash]? = none) :
    (st.tx.trimTxTemplatesTo limit).ids[x.template.hash]? = none ∧ st.tx.assignTemplate limit x =
        ((st.tx.trimTxTemplatesTo limit).insertTxTemplate x.template x.id limit,
          x.id, false) := by
  rcases assignTemplate_cases st.tx limit x with ⟨id, compact, uses, hid, -⟩ | hout
  · obtain ⟨kept, hkept, hhash⟩ := h.synced _ _ (ids_trimTxTemplatesTo hid)
    have hindexed := h.wf.indexed _ _ hkept
    rw [hhash, hnew] at hindexed
    cases hindexed
  · exact hout

variable (hd : InStep env link st (.send maxTemplates ctx raw answers))

include hd

theorem Inv.plain {inner : Bytes}
    (hsub : ∀ (hash : UInt64) id, tx.ids[hash]? = some id → st.tx.ids[hash]? = some id)
    (hinner : inner = raw ∨ (link.headerTemplateEnabled = false ∧
      inner = wrapSideTransportFrame env sideTransportKindFull raw))
    (hfit : fitFrames link.rxOptions link.sender inner = .ok t) :
    Inv ⟨tx, deliverFrom env link.rxOptions answers 0 st.rx (t.frames env)⟩ := by
  obtain ⟨-, hmagic, hslices, -⟩ := hd
  have henc : Encodes env link.headerTemplateEnabled raw inner := by
    rcases hinner with rfl | ⟨hdisabled, rfl⟩
    · exact .canonical
    · exact .wrapped hdisabled
  have hkept : Kept tx st.rx := ⟨h.toRxOk, Synced.sub h.synced hsub⟩
  obtain ⟨hkept', hchunks⟩ := deliver_invariant answers (fun _ chunks hK => hK.chunks chunks)
    henc hmagic (fun _ _ _ hK => decode_plain (fun _ chunks hK => hK.chunks chunks) hmagic hinner hK)
    hfit hkept h.chunks (hslices inner t henc)
  exact ⟨hkept', fun hash id hid => h.tx hash id (hsub hash id hid), hchunks⟩

section Template

variable (huses : UsesDictionary env (link.options maxTemplates) ctx st.tx raw x)

include huses

/-- A frame of a template the receiver keeps, full or compact. -/
theorem Inv.familiar {useCompact : Bool} {limit : ℕ}
    (hhas : st.rx.dictionary.hashes[x.template.hash]? = some x.id)
    (hfit : fitFrames link.rxOptions link.sender
      (assignedFrame env raw x (x.id, useCompact)) = .ok t) : Inv ⟨(st.tx.assignTemplate limit x).1,
      deliverFrom env link.rxOptions answers 0 st.rx (t.frames env)⟩ := by
  obtain ⟨-, hmagic, hslices, -⟩ := hd
  have henc : Encodes env link.rxOptions.headerTemplateEnabled raw _ :=
    huses.encodes useCompact
  have hsynced := h.synced_assign limit hhas
  have hfamiliar : Familiar (st.tx.assignTemplate limit x).1 x st.rx := ⟨⟨h.toRxOk, hsynced⟩, hhas⟩
  have hdecode : ∀ rounds ctx rx, Familiar (st.tx.assignTemplate limit x).1 x rx →
      Familiar (st.tx.assignTemplate limit x).1 x (RxSide.decodeRounds env
        link.rxOptions (rounds + 1) ctx rx
        (assignedFrame env raw x (x.id, useCompact))).1 := by
    intro rounds ctx rx hK
    cases useCompact with
    | true => exact hK.compact
    | false =>
      exact decode_full (fun _ chunks hK => hK.chunks chunks) huses.1
        (fun _ hK => hK.learn _ huses.extract) hK
  obtain ⟨hkept, hchunks⟩ := deliver_invariant answers (fun _ chunks hK => hK.chunks chunks) henc hmagic
    hdecode hfit hfamiliar h.chunks (hslices _ t henc)
  exact ⟨hkept.toKept, (h.tx.assignTemplate limit x).1, hchunks⟩

/-- The first full frame of a template while the sender may keep no template at all. -/
theorem Inv.forgotten
    (hempty : ∀ hash : UInt64, tx.ids[hash]? = none) (hfit : fitFrames link.rxOptions link.sender
      (fullFrame env x.id raw) = .ok t) :
    Inv ⟨tx, deliverFrom env link.rxOptions answers 0 st.rx (t.frames env)⟩ := by
  obtain ⟨-, hmagic, hslices, -⟩ := hd
  have henc : Encodes env link.rxOptions.headerTemplateEnabled raw _ :=
    huses.encodes false
  obtain ⟨hok, hchunks⟩ := deliver_invariant answers (fun _ chunks hK => hK.chunks chunks) henc hmagic
    (fun rounds ctx rx hK => decode_full (fun _ chunks hK => hK.chunks chunks) huses.1
      (fun _ hK => hK.learn _ huses.extract) hK)
    hfit h.toRxOk h.chunks (hslices _ t henc)
  refine ⟨⟨hok, ?_⟩, ?_, hchunks⟩
  · intro hash id hid
    rw [hempty hash] at hid
    cases hid
  · intro hash id hid
    rw [hempty hash] at hid
    cases hid

variable {limit : ℕ} (hl : effectiveTemplateLimit (link.options maxTemplates) ctx = limit)

include hl

/-- The first full frame of a template the sender will take as known. -/
theorem Inv.introduced (hlimit : 0 < limit) (hnew : st.rx.dictionary.hashes[x.template.hash]? = none)
    (hout : (st.tx.trimTxTemplatesTo limit).ids[x.template.hash]? = none)
    (hfit : fitFrames link.rxOptions link.sender
      (fullFrame env x.id raw) = .ok t) :
    Inv ⟨(st.tx.trimTxTemplatesTo limit).insertTxTemplate x.template x.id limit,
      deliverFrom env link.rxOptions answers 0 st.rx (t.frames env)⟩ := by
  subst hl
  obtain ⟨hmax, -, -, hfirst⟩ := hd
  obtain ⟨harrives, hid, hlowest⟩ := hfirst x huses hlimit hnew
  obtain ⟨chunks, hchunks, hdeliver⟩ := harrives.learnt huses.1 h.chunks hfit
  have hok := h.toRxOk.learn link.rxOptions huses.extract
  obtain ⟨hbyId, -⟩ := learn_some link.rxOptions st.rx.dictionary
    x.id huses.extract
  rw [hdeliver]
  refine ⟨⟨⟨hok.wf, hok.folded, hok.known⟩, ?_⟩, ?_, hchunks⟩
  · apply Synced.of_eq _ hbyId
    exact Synced.introduce h.synced h.wf hlimit hmax hnew hid hlowest hout
  · exact (h.tx.trimTxTemplatesTo _).insertTxTemplate _ (not_mem_iff.mpr hout)

/-- A frame sent through the dictionary. -/
theorem Inv.template (hfit : fitFrames (link.options maxTemplates) link.sender
      (assignedFrame env raw x (st.tx.assignTemplate limit x).2) = .ok t) :
    Inv ⟨(st.tx.assignTemplate limit x).1,
      deliverFrom env link.rxOptions answers 0 st.rx (t.frames env)⟩ := by
  have hfold := (h.tx.assignTemplate limit x).2
  cases hhas : st.rx.dictionary.hashes[x.template.hash]? with
  | some id =>
    rw [h.toRxOk.id_eq hhas] at hhas
    apply h.familiar hd huses hhas
    rw [← hfold]
    exact hfit
  | none =>
    obtain ⟨hout, heq⟩ := h.assign_new limit hhas
    rw [heq] at hfit ⊢
    rcases Nat.eq_zero_or_pos limit with hzero | hlimit
    · apply h.forgotten hd huses _ hfit
      intro hash
      rw [hzero]
      exact insert_zero st.tx x.template x.id hash
    · exact h.introduced hd huses hl hlimit hhas hout hfit

/-- A frame that cannot be split: its template is assigned an id all the same. -/
theorem Inv.unsent {e : TelemetryError} (hfit : fitFrames (link.options maxTemplates) link.sender
      (assignedFrame env raw x (st.tx.assignTemplate limit x).2) = .error e) :
    Inv ⟨(st.tx.assignTemplate limit x).1, st.rx⟩ := by
  refine ⟨⟨h.toRxOk, ?_⟩, (h.tx.assignTemplate limit x).1, h.chunks⟩
  cases hhas : st.rx.dictionary.hashes[x.template.hash]? with
  | some id =>
    rw [h.toRxOk.id_eq hhas] at hhas
    exact h.synced_assign _ hhas
  | none =>
    obtain ⟨-, heq⟩ := h.assign_new limit hhas
    simp only [heq] at hfit ⊢
    rcases Nat.eq_zero_or_pos limit with hzero | hlimit
    · intro hash id hid
      rw [hzero, insert_zero] at hid
      cases hid
    · obtain ⟨-, -, -, hfirst⟩ := hd
      obtain ⟨⟨t, hfit', -⟩, -⟩ := hfirst x huses (by omega) hhas
      cases hfit.symm.trans hfit'

end Template

theorem Inv.send :
    Inv (st.step env link (.send maxTemplates ctx raw answers)) := by
  have hcase := encode_case env (link.options maxTemplates) link.sender ctx st.tx raw
  unfold step
  simp only
  generalize encodeSideTransportFrames env (link.options maxTemplates) link.sender ctx st.tx raw = r
    at hcase
  cases hcase with
  | refused e => exact h
  | canonical tx htx =>
    have hsub : ∀ (hash : UInt64) id, tx.ids[hash]? = some id →
        st.tx.ids[hash]? = some id := by
      intro hash id hid
      rcases htx with rfl | rfl
      · exact hid
      · exact ids_trimTxTemplatesTo hid
    cases hfit : fitFrames (link.options maxTemplates) link.sender raw with
    | error e =>
      exact ⟨⟨h.toRxOk, Synced.sub h.synced hsub⟩,
        fun hash id hid => h.tx hash id (hsub hash id hid), h.chunks⟩
    | ok t => exact h.plain hd hsub (.inl rfl) hfit
  | wrapped hdisabled =>
    cases hfit : fitFrames (link.options maxTemplates) link.sender
      (wrapSideTransportFrame env sideTransportKindFull raw) with
    | error e => exact h
    | ok t => exact h.plain hd (fun _ _ hid => hid) (.inr ⟨hdisabled, rfl⟩) hfit
  | template x huses =>
    cases hfit : fitFrames (link.options maxTemplates) link.sender (assignedFrame env raw x
      (st.tx.assignTemplate (effectiveTemplateLimit (link.options maxTemplates) ctx) x).2) with
    | error e => exact h.unsent hd huses rfl hfit
    | ok t => exact h.template hd huses rfl hfit

end Step

theorem Inv.step {env : WireEnv} {link : SyncSettings} {st : SideSync} (h : Inv st) (event : Event)
    (hd : InStep env link st event) : Inv (st.step env link event) := by
  cases event with
  | send maxTemplates ctx raw answers => exact h.send hd
  | refresh => exact ⟨⟨h.toRxOk, h.synced⟩, h.tx, h.chunks⟩
  | expire nowMs =>
    exact ⟨h.toKept.chunks _, h.tx, (shrinks_expireSideChunks nowMs st.rx.chunks).inv h.chunks⟩
  | reclaim id => exact ⟨h.toKept.chunks _, h.tx, h.chunks.remove id⟩

/-- In every run of such steps, whatever the sender takes as known is kept by the receiver under the
same id, and no compact frame has found its template missing. -/
theorem dictionaries_synced (env : WireEnv) (link : SyncSettings) (events : List Event)
    (h : Meets (step env link) (InStep env link) initial events) : Synced (run (step env link) initial events).tx
        (run (step env link) initial events).rx.dictionary ∧
      (run (step env link) initial events).rx.unknownTemplates = 0 := by
  have hinv : Inv (run (step env link) initial events) := by
    apply run_invariant _ inv_initial h
    intro st event hst hd
    exact hst.step event hd
  exact ⟨hinv.synced, hinv.known⟩

/-! ### A limit that shrinks and grows again -/

/-- A report of sender `A`, of `B` and of `C`. -/
def reportOfA : Bytes := [128, 1, 101, 2, 1, 164, 137, 200, 190, 10, 5, 170, 187, 237, 161, 94, 6]

def reportOfB : Bytes := [128, 1, 101, 2, 1, 140, 163, 162, 232, 7, 5, 170, 187, 86, 112, 86, 171]

def reportOfC : Bytes := [128, 1, 101, 2, 1, 161, 150, 140, 218, 9, 5, 170, 187, 183, 117, 230, 53]

/-- Room for two templates at the receiver, and no limit on the frames. -/
def twoTemplates : SyncSettings := ⟨⟨true, 0, [65]⟩, 2⟩

/-- A report sent with a template limit. -/
def sendReport (limit : ℕ) (raw : Bytes) : Event :=
  .send limit SideLink.quietEncode raw fun _ => SideLink.openDecode

/-- A send is in step when the template is known, or new with a new id and evicts alike. -/
theorem inStep_sendReport {st : SideSync} {raw : Bytes} (hmagic : ¬ sideTransportMagic <+: raw)
    (h : (extractSideHeaderTemplate raw).toOption.all (fun x =>
      (st.rx.dictionary.hashes[x.template.hash]?).isSome || (st.rx.dictionary.byId[foldHash x.template.hash]?).isNone &&
        (decide (st.rx.dictionary.byId.size < 2) || decide (2 ≤ st.tx.ids.size))) = true) :
    InStep (plainEnv SideLink.reportRegistry) twoTemplates st (sendReport 2 raw) := by
  refine ⟨by decide, hmagic, fun inner t _ ht => (by cases ht), fun x huses _ hnew => ?_⟩
  rw [huses.extract] at h
  simp only [Except.toOption, Option.all_some, hnew, Option.isSome_none, Bool.false_or, Bool.and_eq_true,
    Option.isNone_iff_eq_none, Bool.or_eq_true, decide_eq_true_iff] at h
  refine ⟨⟨_, rfl, .inl ⟨rfl, rfl, rfl⟩⟩, ?_, fun hfull _ _ _ _ => h.2.resolve_left (Nat.not_lt.mpr hfull)⟩
  intro template htemplate
  cases h.1.symm.trans htemplate

/-- The template of `C` evicts the one of `B` at both ends, and the last report is sent in compact form. -/
theorem dictionaries_synced_evicting :
    let st := run (step (plainEnv SideLink.reportRegistry) twoTemplates) initial
      [sendReport 2 reportOfB, sendReport 2 reportOfA, sendReport 2 reportOfC, sendReport 2 reportOfC]
    st.tx.ids[(776454032333654264 : UInt64)]? = none ∧ st.tx.ids.size = 2 ∧ Synced st.tx st.rx.dictionary ∧
      st.rx.unknownTemplates = 0 := by
  refine ⟨by decide +kernel, by decide +kernel, dictionaries_synced _ _ _ ?_⟩
  exact ⟨inStep_sendReport (by decide) (by decide +kernel), inStep_sendReport (by decide) (by decide +kernel),
    inStep_sendReport (by decide) (by decide +kernel), inStep_sendReport (by decide) (by decide +kernel), trivial⟩

/-- Two templates, a frame with room for one, and two templates again. -/
def shrinkingEvents : List Event :=
  [sendReport 2 reportOfB, sendReport 2 reportOfA, sendReport 1 reportOfB, sendReport 2 reportOfC,
    sendReport 2 reportOfB]

/-- The receiver has evicted the lowest hash, which is the one template the sender kept while its
limit was low; the last report is dropped. -/
theorem known_template_evicted :
    let st := run (step (plainEnv SideLink.reportRegistry) twoTemplates) initial shrinkingEvents
    st.tx.ids[(776454032333654264 : UInt64)]? = some 392973356 ∧
      st.rx.dictionary.byId[(392973356 : UInt32)]? = none ∧ st.rx.unknownTemplates = 1 := by
  decide +kernel

end SideSync

end SedsNet
