import SedsNet.Packet

/-! # The packet codec

Compressed payloads are stored chunk by chunk (`packet_store.rs`, `compression`): each chunk has a
header with its length and the length of what is stored for it, which is its compressed form where
that is shorter and the chunk itself otherwise.  A range of the payload is read by walking over the
headers and decoding the chunks that it meets.

Zstd itself is a parameter: what it decompresses is `decompress`, and an `Encoder` is a pass of its
compressor, whose outputs are not empty and decompress to what went in. -/

namespace SedsNet

open ByteWords List

structure PacketCodec where
  /-- `ZSTD_decompressDCtx` of a frame into a buffer of the given length; none is its error. -/
  decompress : Bytes → ℕ → Option Bytes
  chunk : ℕ
  /-- `sizes` refuses every other chunk size. -/
  chunk_pos : 0 < chunk
  chunk_lt : chunk < 2 ^ 32

/-- `ZSTD_compress2` as one pass uses it; none is its error. -/
structure Encoder (codec : PacketCodec) where
  compress : Bytes → Option Bytes
  nonempty : ∀ {raw out : Bytes}, compress raw = some out → out ≠ []
  decompress_eq : ∀ {raw out : Bytes}, compress raw = some out →
    codec.decompress out raw.length = some raw

namespace PacketCodec

variable {codec : PacketCodec}

/-! ### Encoding -/

/-- `data.chunks(chunk)`, at most `fuel` of them. -/
def chunksOf (chunk : ℕ) : (fuel : ℕ) → Bytes → List Bytes
  | 0, _ => []
  | fuel + 1, data => if data.isEmpty then [] else data.take chunk :: chunksOf chunk fuel (data.drop chunk)

def chunks (codec : PacketCodec) (data : Bytes) : List Bytes := chunksOf codec.chunk data.length data

section

variable (enc : Encoder codec)

/-- What is stored for a chunk. -/
def encodeChunk (raw : Bytes) : Bytes :=
  match enc.compress raw with
  | some out => if out.length < raw.length then out else raw
  | none => raw

/-- The header of a chunk and what is stored for it. -/
def storedChunk (raw : Bytes) : Bytes :=
  leBytes 4 raw.length ++ leBytes 4 (encodeChunk enc raw).length ++ encodeChunk enc raw

def storedChunks (raws : List Bytes) : Bytes := raws.flatMap (storedChunk enc)

/-! ### Decoding -/

def decodeChunk (codec : PacketCodec) (scratch raw : ℕ) (bytes : Bytes) : TelemetryResult Bytes :=
  if bytes.length = raw then .ok bytes
  else if scratch < raw then .error (.io "field decode scratch too small")
  else
    match codec.decompress bytes raw with
    | none => .error (.unpack "stored chunk decode failed")
    | some out => if out.length ≠ raw then .error (.unpack "stored chunk size mismatch") else .ok out

/-- The loop of `read_range` over the rest of the view; what it copies goes behind what has been
copied before. -/
def decodeFrom (codec : PacketCodec) (scratch offset stop : ℕ) : (fuel : ℕ) → (view : Bytes) →
    (logical : ℕ) → TelemetryResult Bytes
  | 0, _, _ => .error (.aborted "endless loop")
  | fuel + 1, view, logical =>
    if stop ≤ logical then .ok []
    else if view.length < 8 then .error (.unpack "invalid stored chunk")
    else
      let raw := ofLe (view.take 4)
      let n := ofLe ((view.drop 4).take 4)
      let body := view.drop 8
      if body.length < n then .error (.unpack "invalid stored chunk")
      else if raw = 0 ∨ codec.chunk < raw ∨ raw < n ∨ n = 0 then
        .error (.unpack "invalid stored chunk size")
      else if offset < logical + raw then
        match decodeChunk codec scratch raw (body.take n) with
        | .error e => .error e
        | .ok decoded =>
          match decodeFrom codec scratch offset stop fuel (body.drop n) (logical + raw) with
          | .error e => .error e
          | .ok rest =>
            let start := max offset logical
            .ok ((decoded.drop (start - logical)).take (min stop (logical + raw) - start) ++ rest)
      else decodeFrom codec scratch offset stop fuel (body.drop n) (logical + raw)

/-! ### Decoding what has been encoded -/

theorem chunksOf_spec {chunk : ℕ} (hpos : 0 < chunk) {fuel : ℕ} : ∀ {data : Bytes}, data.length ≤ fuel →
    (chunksOf chunk fuel data).flatten = data ∧ ∀ raw ∈ chunksOf chunk fuel data, raw ≠ [] ∧ raw.length ≤ chunk := by
  induction fuel with
  | zero =>
    intro data hlength
    have hnil : data = [] := length_eq_zero_iff.mp (by omega)
    rw [hnil]
    exact ⟨rfl, fun raw h => absurd h not_mem_nil⟩
  | succ fuel ih =>
    intro data hlength
    unfold chunksOf
    cases data with
    | nil => exact ⟨rfl, fun raw h => absurd h not_mem_nil⟩
    | cons b data =>
      have hdrop : ((b :: data).drop chunk).length ≤ fuel := by
        rw [length_drop]
        omega
      obtain ⟨hflat, hmem⟩ := ih hdrop
      rw [if_neg (by simp), flatten_cons, hflat]
      refine ⟨take_append_drop .., ?_⟩
      rw [forall_mem_cons]
      refine ⟨⟨?_, ?_⟩, hmem⟩
      · intro hnil
        have := congrArg List.length hnil
        simp only [length_take, length_cons, length_nil] at this
        omega
      · rw [length_take]
        omega

theorem flatten_chunks (data : Bytes) : (codec.chunks data).flatten = data :=
  (chunksOf_spec codec.chunk_pos (le_refl _)).1

theorem mem_chunks {data raw : Bytes} (h : raw ∈ codec.chunks data) : raw ≠ [] ∧ raw.length ≤ codec.chunk :=
  (chunksOf_spec codec.chunk_pos (le_refl _)).2 raw h

theorem encodeChunk_length {raw : Bytes} (h : raw ≠ []) :
    0 < (encodeChunk enc raw).length ∧ (encodeChunk enc raw).length ≤ raw.length := by
  have hraw : 0 < raw.length := length_pos_iff.mpr h
  unfold encodeChunk
  split
  next out hout =>
    have hpos : 0 < out.length := length_pos_iff.mpr (enc.nonempty hout)
    split_ifs
    · omega
    · omega
  next => omega

/-- A chunk is decoded, unless it was compressed and the scratch is too small for it. -/
theorem decodeChunk_encodeChunk (raw : Bytes) (scratch : ℕ) :
    decodeChunk codec scratch raw.length (encodeChunk enc raw) = .ok raw ∨ scratch < raw.length ∧
      decodeChunk codec scratch raw.length (encodeChunk enc raw) = .error (.io "field decode scratch too small") := by
  unfold encodeChunk
  split
  next out hout =>
    split_ifs with hlt
    · unfold decodeChunk
      rw [if_neg (by omega), enc.decompress_eq hout]
      by_cases hscratch : scratch < raw.length
      · simp [hscratch]
      · simp [hscratch]
    · exact .inl (if_pos rfl)
  next => exact .inl (if_pos rfl)

end

section StoredChunk

variable (enc : Encoder codec) (raw rest : Bytes)

theorem take_storedChunk : ((storedChunk enc raw ++ rest).take 4) = leBytes 4 raw.length := by
  unfold storedChunk
  rw [append_assoc, append_assoc, take_left' (length_leBytes ..)]

theorem drop_take_storedChunk :
    ((storedChunk enc raw ++ rest).drop 4).take 4 = leBytes 4 (encodeChunk enc raw).length := by
  unfold storedChunk
  rw [append_assoc, append_assoc, drop_left' (length_leBytes ..),
    take_left' (length_leBytes ..)]

theorem drop_storedChunk : (storedChunk enc raw ++ rest).drop 8 = encodeChunk enc raw ++ rest := by
  unfold storedChunk
  rw [append_assoc, drop_left' (by simp)]

theorem length_storedChunk : (storedChunk enc raw).length = 8 + (encodeChunk enc raw).length := by
  unfold storedChunk
  rw [length_append, length_append, length_leBytes, length_leBytes]

end StoredChunk

theorem take_drop_append {a b : Bytes} {k m : ℕ} (hk : k ≤ a.length) :
    ((a ++ b).drop k).take m = (a.drop k).take m ++ b.take (m - (a.length - k)) := by
  rw [drop_append_of_le_length hk, take_append, length_drop]

/-- From the chunk at `logical` on, the loop copies what the chunks hold of the range. -/
theorem decodeFrom_storedChunks (enc : Encoder codec) {scratch offset stop : ℕ} (hrange : offset ≤ stop)
    {raws : List Bytes} : ∀ {fuel logical : ℕ}, raws.length < fuel →
      (∀ raw ∈ raws, raw ≠ [] ∧ raw.length ≤ codec.chunk) → stop ≤ logical + raws.flatten.length →
      decodeFrom codec scratch offset stop fuel (storedChunks enc raws) logical =
          .ok ((raws.flatten.drop (offset - logical)).take (stop - max offset logical)) ∨
        (∃ raw ∈ raws, scratch < raw.length) ∧
          decodeFrom codec scratch offset stop fuel (storedChunks enc raws) logical =
            .error (.io "field decode scratch too small") := by
  induction raws with
  | nil =>
    intro fuel logical hfuel _ hstop
    obtain ⟨fuel, rfl⟩ : ∃ k, fuel = k + 1 := ⟨fuel - 1, by omega⟩
    unfold decodeFrom
    rw [if_pos (by simpa using hstop)]
    simp
  | cons raw raws ih =>
    intro fuel logical hfuel hmem hstop
    rw [forall_mem_cons] at hmem
    obtain ⟨⟨hne, hle⟩, hmem⟩ := hmem
    rw [length_cons] at hfuel
    rw [flatten_cons, length_append] at hstop
    obtain ⟨fuel, rfl⟩ : ∃ k, fuel = k + 1 := ⟨fuel - 1, by omega⟩
    obtain ⟨hpos, hshort⟩ := encodeChunk_length enc hne
    have hlt := codec.chunk_lt
    unfold decodeFrom
    by_cases hdone : stop ≤ logical
    · rw [if_pos hdone, Nat.sub_eq_zero_of_le (le_trans hdone (le_max_right ..))]
      exact .inl rfl
    have hcons : storedChunks enc (raw :: raws) = storedChunk enc raw ++ storedChunks enc raws :=
      flatMap_cons
    have hsize : ¬ (storedChunk enc raw ++ storedChunks enc raws).length < 8 := by
      rw [length_append, length_storedChunk]
      omega
    rw [if_neg hdone, hcons, if_neg hsize, take_storedChunk, drop_take_storedChunk, drop_storedChunk,
      ofLe_leBytes_of_lt (by omega), ofLe_leBytes_of_lt (by omega)]
    rw [if_neg (by rw [length_append]; omega), if_neg (by omega), take_left, drop_left, flatten_cons]
    have hrest := @ih fuel (logical + raw.length) (by omega) hmem (by omega)
    generalize decodeFrom codec scratch offset stop fuel (storedChunks enc raws) (logical + raw.length) = rest
      at hrest ⊢
    split_ifs with hmeets
    · obtain hchunk | ⟨hsmall, hchunk⟩ := decodeChunk_encodeChunk enc raw scratch
      rotate_left
      · exact .inr ⟨⟨raw, mem_cons_self .., hsmall⟩, by rw [hchunk]⟩
      rw [hchunk]
      obtain rfl | ⟨⟨small, hsmall⟩, rfl⟩ := hrest
      rotate_left
      · exact .inr ⟨⟨small, mem_cons_of_mem _ hsmall.1, hsmall.2⟩, rfl⟩
      refine .inl (congrArg Except.ok ?_)
      have hstart : max offset logical - logical = offset - logical := by omega
      have hmax : max offset (logical + raw.length) = logical + raw.length := by omega
      rw [take_drop_append (by omega), hstart, hmax, Nat.sub_eq_zero_of_le (by omega : offset ≤ logical + raw.length)]
      have hlast : stop - max offset logical - (raw.length - (offset - logical)) =
          stop - (logical + raw.length) := by omega
      rw [hlast]
      congr 1
      by_cases hend : stop ≤ logical + raw.length
      · rw [Nat.min_eq_left hend]
      · rw [take_of_length_le, take_of_length_le]
        · rw [length_drop]
          omega
        · rw [length_drop]
          omega
    · have hskip : raw.length ≤ offset - logical := by omega
      have hmax : max offset (logical + raw.length) = max offset logical := by omega
      rw [drop_append, drop_of_length_le hskip, Nat.sub_sub, ← hmax]
      exact hrest.imp_right (And.imp_left fun ⟨small, hsmall⟩ => ⟨small, mem_cons_of_mem _ hsmall.1, hsmall.2⟩)

/-- The number of chunks stays below the number of bytes stored for them. -/
theorem length_le_storedChunks (enc : Encoder codec) (raws : List Bytes) :
    raws.length ≤ (storedChunks enc raws).length := by
  induction raws with
  | nil => exact le_refl _
  | cons raw raws ih =>
    have hcons : storedChunks enc (raw :: raws) = storedChunk enc raw ++ storedChunks enc raws :=
      flatMap_cons
    rw [hcons, length_cons, length_append, length_storedChunk]
    omega

/-- A range read from the stored chunks of a payload is the range of the payload, unless the scratch
is too small for a chunk. -/
theorem decodeFrom_chunks (enc : Encoder codec) (scratch : ℕ) {offset m : ℕ} {data view : Bytes}
    (hview : view = storedChunks enc (codec.chunks data)) (hrange : offset + m ≤ data.length) :
    decodeFrom codec scratch offset (offset + m) (view.length + 1) view 0 = .ok ((data.drop offset).take m) ∨
      scratch < min codec.chunk data.length ∧ decodeFrom codec scratch offset (offset + m) (view.length + 1) view 0 =
        .error (.io "field decode scratch too small") := by
  have hfuel := length_le_storedChunks enc (codec.chunks data)
  have h := @decodeFrom_storedChunks codec enc scratch _ _ (Nat.le_add_right offset m) _ _ 0
    (Nat.lt_succ_of_le hfuel) (fun raw hraw => mem_chunks hraw)
    (by rw [flatten_chunks, Nat.zero_add]; exact hrange)
  rw [flatten_chunks, Nat.max_zero, Nat.add_sub_cancel_left, ← hview] at h
  refine h.imp_right (And.imp_left ?_)
  rintro ⟨raw, hraw, hsmall⟩
  have hle := (mem_chunks hraw).2
  have hdata := (sublist_flatten_of_mem hraw).length_le
  rw [flatten_chunks] at hdata
  omega

end PacketCodec

end SedsNet
