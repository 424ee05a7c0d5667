import SedsNet.SideCodec

/-! # Decoding what a side encodes

What `decode_side_transport_frame` does with the frames `encode_side_transport_frames` makes: one
lemma for each of the forms of `Encodes`, and one for a chunk. -/

namespace SedsNet

open ByteCursor OrderedMap

namespace RxSide

/-- Expired assemblies are dropped before anything else. -/
def expired (ctx : DecodeContext) (rx : RxSide) : RxSide :=
  { rx with chunks := rx.chunks.expireSideChunks ctx.chunk.nowMs }

section Forms

variable {env : WireEnv} {opts : SideOptions} {rounds : ℕ} {ctx : ℕ → DecodeContext} {rx : RxSide}

theorem decodeRounds_canonical {raw : Bytes} (h : ¬ sideTransportMagic <+: raw) :
    decodeRounds env opts (rounds + 1) ctx rx raw = (rx.expired (ctx 0), decodeUnwrapped (ctx 0) raw) := by
  simp only [decodeRounds, parseSideTransportWrapper_of_not_magic h]
  rfl

theorem decodeRounds_wrapped {raw : Bytes} (h : opts.headerTemplateEnabled = false) :
    decodeRounds env opts (rounds + 1) ctx rx (wrapSideTransportFrame env sideTransportKindFull raw) =
      admitFull opts (ctx 0) (rx.expired (ctx 0)) none raw := by
  have hread : eval (readFullBody false) (Cursor.start raw) = .ok (none, raw) := rfl
  simp only [decodeRounds, parseSideTransportWrapper_wrap, if_true, decodeFull, h, hread]
  rfl

theorem decodeRounds_full {id : UInt32} {raw : Bytes} (h : opts.headerTemplateEnabled = true) :
    decodeRounds env opts (rounds + 1) ctx rx (fullFrame env id raw) =
      admitFull opts (ctx 0) (rx.expired (ctx 0)) (some id) raw := by
  have hread : eval (readFullBody true) (Cursor.start (writeUleb128 id.toUInt64 ++ raw)) =
      .ok (some id, raw) := by
    apply eval_of_ok
    unfold readFullBody
    rw [bind_of_ok (Reads.whenPresent rfl (reads_readUleb32 _ id) _ _ (Cursor.start_rest _))]
    exact congrArg (fun raw => Except.ok ((some id, raw), _))
      (Cursor.rest_advance_of_eq (Cursor.start_rest _))
  simp only [decodeRounds, fullFrame, parseSideTransportWrapper_wrap, if_true, decodeFull, h, hread]
  rfl

theorem decodeRounds_compact {id : UInt32} {x : TemplateExtract} :
    decodeRounds env opts (rounds + 1) ctx rx (compactFrame env id x) =
      rebuildCompact env (ctx 0) .absolute (rx.expired (ctx 0)) x.flags id x.compactTail := by
  have hread : eval readCompactBody (Cursor.start (writeUleb128 id.toUInt64 ++ x.compactTail)) =
      .ok (id, x.compactTail) := by
    apply eval_of_ok
    unfold readCompactBody
    rw [bind_of_ok (reads_readUleb32 _ id _ _ (Cursor.start_rest _))]
    exact congrArg (fun rest => Except.ok ((id, rest), _))
      (Cursor.rest_advance_of_eq (Cursor.start_rest _))
  have hkind : ¬ sideTransportKindCompact = sideTransportKindFull := by decide
  simp only [decodeRounds, compactFrame, parseSideTransportWrapper_wrap, if_neg hkind, if_true,
    decodeCompact, hread]
  rfl

/-- A chunk goes to the chunk store; the frame it completes is decoded on the next level. -/
theorem decodeRounds_chunk {t : SideTransportFrames} {index : ℕ} :
    decodeRounds env opts (rounds + 1) ctx rx (t.chunk env index) =
      match (rx.expired (ctx 0)).chunks.decodeChunk (ctx 0).chunk (t.chunkBody index) with
      | (chunks, .error e) => ({ rx with chunks }, .error e)
      | (chunks, .ok none) => ({ rx with chunks }, .ok none)
      | (chunks, .ok (some frame)) =>
        decodeRounds env opts rounds (fun level => ctx (level + 1)) { rx with chunks } frame := by
  have hfull : ¬ sideTransportKindChunk = sideTransportKindFull := by decide
  have hcompact : ¬ sideTransportKindChunk = sideTransportKindCompact := by decide
  have hdelta : ¬ sideTransportKindChunk = sideTransportKindCompactDelta := by decide
  have homitted : ¬ sideTransportKindChunk = sideTransportKindCompactSameTimestamp := by decide
  simp only [decodeRounds, SideTransportFrames.chunk, parseSideTransportWrapper_wrap, if_neg hfull,
    if_neg hcompact, if_neg hdelta, if_neg homitted, if_true]
  rfl

/-- Frames that were sent whole leave the assemblies alone. -/
theorem decodeRounds_chunks {raw inner : Bytes}
    (h : Encodes env opts.headerTemplateEnabled raw inner) (hmagic : ¬ sideTransportMagic <+: raw) :
    (decodeRounds env opts (rounds + 1) ctx rx inner).1.chunks = (rx.expired (ctx 0)).chunks := by
  have hadmit : ∀ id, (admitFull opts (ctx 0) (rx.expired (ctx 0)) id raw).1.chunks =
      (rx.expired (ctx 0)).chunks := by
    intro id
    unfold admitFull
    split
    · rfl
    · rfl
    · split <;> rfl
  cases h with
  | canonical => rw [decodeRounds_canonical hmagic]
  | wrapped hdisabled =>
    rw [decodeRounds_wrapped hdisabled]
    exact hadmit none
  | full x henabled _ _ =>
    rw [decodeRounds_full henabled]
    exact hadmit _
  | compact x _ _ _ =>
    rw [decodeRounds_compact]
    unfold rebuildCompact
    split
    · rfl
    · split
      · rfl
      · simp only
        split <;> rfl

end Forms

end RxSide

end SedsNet
