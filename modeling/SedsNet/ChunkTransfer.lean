import SedsNet.SideChunk

/-! # Chunk transfers

What happens when the chunks of one frame are fed to a receiver, in any order and with any
duplicates.  `Holds` says which slots of the assembly are filled; a new chunk fills one more
(`Holds.fill`), a repeated one changes nothing (`Holds.retry`), and the chunk that fills the last
slot yields the frame.  `chunk_transfer` puts the runs together. -/

namespace SedsNet

open ByteWords OrderedMap Runs List
open Std (ExtTreeMap LawfulEqOrd)

/-! ### The chunks of a frame -/

namespace SideTransportFrames

/-- The chunk at `index` as it goes over the link. -/
def chunk (env : WireEnv) (t : SideTransportFrames) (index : ℕ) : Bytes :=
  wrapSideTransportFrame env sideTransportKindChunk (t.chunkBody index)

/-- What `split` guarantees of a transfer before its first chunk. -/
structure Fresh (frame : Bytes) (maxFrameBytes : ℕ) (t : SideTransportFrames) : Prop where
  frame_eq : t.frame = frame
  budget : t.payloadBudget + sideTransportChunkOverhead = maxFrameBytes
  budget_pos : 0 < t.payloadBudget
  index : t.index = 0
  total : t.total = divCeil frame.length t.payloadBudget
  bound : t.total ≤ 65535

theorem le_divCeil_mul (a : ℕ) {b : ℕ} (hb : 0 < b) : a ≤ divCeil a b * b := by
  have hdiv := Nat.div_add_mod a b
  have hmod := Nat.mod_lt a hb
  unfold divCeil
  split
  · rw [Nat.mul_comm]
    omega
  · rw [Nat.add_mul, Nat.mul_comm (a / b)]
    omega

variable {frame : Bytes} {maxFrameBytes : ℕ}

variable {t : SideTransportFrames}

theorem fresh_of_split {sender : Bytes}
    (h : split frame maxFrameBytes sender = .ok t) : Fresh frame maxFrameBytes t := by
  unfold split at h
  split at h
  · cases h
  dsimp only at h
  split at h
  · cases h
  cases h
  exact ⟨rfl, Nat.sub_add_cancel (by omega), Nat.sub_pos_of_lt (by omega), rfl, rfl, Nat.not_lt.mp (by assumption)⟩

theorem split_fresh (sender : Bytes) (hmax : sideTransportChunkOverhead < maxFrameBytes)
    (htotal : divCeil frame.length (maxFrameBytes - sideTransportChunkOverhead) ≤ 65535) :
    ∃ t, split frame maxFrameBytes sender = .ok t ∧ Fresh frame maxFrameBytes t := by
  obtain ⟨t, ht⟩ : ∃ t, split frame maxFrameBytes sender = .ok t := by
    unfold split
    rw [if_neg (by omega)]
    exact ⟨_, if_neg (by omega)⟩
  exact ⟨t, ht, fresh_of_split ht⟩

theorem collect_eq (env : WireEnv) (hbudget : 0 < t.payloadBudget) (n : ℕ) : ∀ i, i + n = t.total →
      collect env n { t with index := i } = (List.range' i n).map (t.chunk env) := by
  induction n with
  | zero => exact fun _ _ => rfl
  | succ n ih =>
    intro i hi
    have hnext : next env { t with index := i } = some (t.chunk env i, { t with index := i + 1 }) := by
      unfold next
      simp only
      rw [if_neg (by omega), if_neg (by omega)]
      rfl
    rw [collect, hnext]
    simp only
    rw [ih (i + 1) (by omega), List.range'_succ, map_cons]

variable {env : WireEnv}

theorem Fresh.frames_eq (h : Fresh frame maxFrameBytes t) : t.frames env = (List.range t.total).map (t.chunk env) := by
  unfold frames
  have hcollect := collect_eq env h.budget_pos t.total 0 (Nat.zero_add _)
  rw [h.index, range_eq_range', ← hcollect]
  congr 1
  rw [← h.index]

theorem length_chunk (env : WireEnv) (t : SideTransportFrames) (i : ℕ) :
    (t.chunk env i).length = sideTransportChunkOverhead + (t.slice i).length := by
  simp only [chunk, wrapSideTransportFrame, appendCrc32, chunkBody, sideTransportMagic,
    sideTransportChunkOverhead, crc32Bytes, length_append, length_cons, length_nil,
    length_leBytes]
  omega

theorem Fresh.length_le (h : Fresh frame maxFrameBytes t) (i : ℕ) : (t.chunk env i).length ≤ maxFrameBytes := by
  have hslice : (t.slice i).length ≤ t.payloadBudget := length_take_le _ _
  have := h.budget
  rw [length_chunk]
  omega

/-- The slices up to `n` make up the frame up to there. -/
theorem flatten_slices (t : SideTransportFrames) (n : ℕ) :
    ((List.range n).map t.slice).flatten = t.frame.take (n * t.payloadBudget) := by
  induction n with
  | zero => simp
  | succ n ih =>
    rw [range_succ, map_append, flatten_append, ih]
    simp only [map_cons, map_nil, flatten_cons, flatten_nil, append_nil,
      slice, Nat.add_mul, Nat.one_mul]
    exact take_add.symm

theorem Fresh.flatten (h : Fresh frame maxFrameBytes t) : t.content = frame := by
  rw [content, flatten_slices, h.frame_eq]
  apply take_of_length_le
  rw [h.total]
  exact le_divCeil_mul _ h.budget_pos

/-! ### Slots -/

/-- The descriptors of an assembly that has received the chunks in `seen`. -/
def slots (t : SideTransportFrames) (seen : List ℕ) : List (Option Bytes) :=
  (List.range t.total).map fun i => if i ∈ seen then some (t.slice i) else none

variable {seen : List ℕ} {index : ℕ}

theorem slots_set : (t.slots seen).set index (some (t.slice index)) = t.slots (index :: seen) := by
  apply ext_getElem?
  intro i
  unfold slots
  rw [List.getElem?_set]
  by_cases hi : index = i
  · subst hi
    by_cases hlt : index < t.total
    · simp [hlt]
    · simp [hlt]
  · rw [if_neg hi]
    by_cases hlt : i < t.total
    · simp [List.getElem?_range hlt, Ne.symm hi]
    · simp [List.getElem?_eq_none (show (List.range t.total).length ≤ i by simpa using hlt)]

theorem slots_getD (h : index < t.total) : ((t.slots seen).getD index none).isSome = decide (index ∈ seen) := by
  simp only [slots, getD_eq_getElem?_getD, List.getElem?_map, List.getElem?_range h]
  by_cases hmem : index ∈ seen
  · simp [hmem]
  · simp [hmem]

theorem payloadBytes_slots_le (t : SideTransportFrames) (seen : List ℕ) :
    SideChunkAssembly.payloadBytes (t.slots seen) ≤ t.content.length := by
  unfold SideChunkAssembly.payloadBytes slots
  rw [length_flatten, map_map, map_map]
  apply sum_le_sum
  intro i _
  simp only [Function.comp]
  split
  · exact le_refl _
  · exact Nat.zero_le _

theorem slots_of_all (h : ∀ i < t.total, i ∈ seen) : t.slots seen = ((List.range t.total).map t.slice).map some := by
  rw [map_map]
  apply map_congr_left
  intro i hi
  rw [if_pos (h i (mem_range.mp hi))]
  rfl

theorem countP_slots : (t.slots seen).countP Option.isSome = t.total ↔ ∀ i < t.total, i ∈ seen := by
  have hlen : (t.slots seen).length = t.total := by simp [slots]
  rw [← hlen, countP_eq_length, hlen]
  unfold slots
  simp only [mem_map, mem_range, forall_exists_index, and_imp]
  constructor
  · intro h i hi
    by_contra hmem
    have := h _ i hi rfl
    simp [hmem] at this
  · rintro h _ i hi rfl
    simp [h i hi]

end SideTransportFrames

/-! ### Parsing a chunk -/

namespace ChunkStore

open SideChunkAssembly SideTransportFrames

variable {index : ℕ} {t : SideTransportFrames}

/-- The chunk branch on the body of a chunk, with its fields read. -/
theorem decodeChunk_chunkBody (ctx : ChunkContext) (st : ChunkStore) (hindex : index < t.total) (htotal : t.total ≤ 65535) :
    st.decodeChunk ctx (t.chunkBody index) =
      match st.makeSideChunkRoom ctx t.key index t.total (t.slice index).length with
      | (st, .error e) => (st, .error e)
      | (st, .ok _) =>
        if (st.entry t.key).containsIndex index then (st, .ok none)
        else
          let st := st.reclaim t.key ctx.fragmentReclaims
          if ctx.fragmentRoom = false then (st, .error (.io "memory pressure"))
          else st.retainFragment ctx.toAssemblyContext t.key index t.total (t.slice index) := by
  have hid : ofLe ((t.chunkBody index).take 4) = t.key := by
    have htake : (t.chunkBody index).take 4 = leBytes 4 t.key := by
      exact take_left' (length_leBytes 4 _)
    rw [htake, ofLe_leBytes_of_lt t.transferId.toNat_lt]
  have hdrop : (t.chunkBody index).drop 4 = leBytes 2 index ++ (leBytes 2 t.total ++ t.slice index) := by
    exact drop_left' (length_leBytes 4 _)
  have hdrop' : (t.chunkBody index).drop 6 = leBytes 2 t.total ++ t.slice index := by
    rw [show 6 = 4 + 2 from rfl, ← drop_drop]
    exact drop_left' (length_leBytes 2 _)
  have hpayload : (t.chunkBody index).drop 8 = t.slice index := by
    rw [show 8 = 6 + 2 from rfl, ← drop_drop]
    exact drop_left' (length_leBytes 2 _)
  have hindexField : ofLe (((t.chunkBody index).drop 4).take 2) = index := by
    rw [hdrop, take_left' (length_leBytes 2 _), ofLe_leBytes_of_lt (by omega)]
  have htotalField : ofLe (((t.chunkBody index).drop 6).take 2) = t.total := by
    rw [hdrop', take_left' (length_leBytes 2 _), ofLe_leBytes_of_lt (by omega)]
  have hlen : ¬ (t.chunkBody index).length < 8 := by
    simp [chunkBody]
    omega
  unfold decodeChunk
  rw [if_neg hlen]
  simp only [hid, hindexField, htotalField, hpayload, any_containsIndex]
  exact if_neg (by omega)

theorem receive_chunk (env : WireEnv) (ctx : ChunkContext) (st : ChunkStore) (t : SideTransportFrames) (index : ℕ) :
    st.receive env ctx (t.chunk env index) = (st.expireSideChunks ctx.nowMs).decodeChunk ctx (t.chunkBody index) := by
  unfold receive chunk
  rw [parseSideTransportWrapper_wrap]
  rfl

/-! ### One chunk -/

/-- The receiver has kept exactly the chunks in `seen`. -/
structure Holds (t : SideTransportFrames) (seen : List ℕ) (st : ChunkStore) : Prop where
  inv : ChunkInv st
  total : st.TotalFits t.key t.total
  slots : (st.opened t.key t.total).descriptors = t.slots seen

variable {seen : List ℕ} {st : ChunkStore}

theorem Holds.keeps {st' : ChunkStore}
    (h : Holds t seen st) (hkeeps : Keeps t.key st st') : Holds t seen st' := by
  refine ⟨hkeeps.inv h.inv, hkeeps.totalFits h.total, ?_⟩
  unfold opened
  rw [hkeeps.entry]
  exact h.slots

theorem Holds.containsIndex (h : Holds t seen st) (hindex : index < t.total) :
    (st.entry t.key).containsIndex index = decide (index ∈ seen) := by
  have hopened : (st.entry t.key).containsIndex index =
      (st.opened t.key t.total).containsIndex index := rfl
  rw [hopened, containsIndex_eq, h.slots, slots_getD hindex]

theorem Holds.free (h : Holds t seen st) (hindex : index < t.total) (hnew : index ∉ seen) :
    (st.opened t.key t.total).containsIndex index = false :=
  (h.containsIndex hindex).trans (decide_eq_false hnew)

theorem holds_nothing (h : ChunkInv st) (hnone : st.rxChunks[t.key]? = none) : Holds t [] st := by
  have hentry : st.entry t.key = empty := by
    unfold entry
    rw [hnone]
    rfl
  refine ⟨h, ?_, ?_⟩
  · exact .inl (congrArg _ hentry)
  · unfold opened
    rw [hentry]
    simp [descriptors, empty, SideTransportFrames.slots]

variable {ctx : ChunkContext} {len : ℕ}

theorem length_slice_le (t : SideTransportFrames) (hindex : index < t.total) :
    (t.slice index).length ≤ t.content.length := by
  rw [length_flatten, map_map]
  apply single_le_sum (fun _ _ => Nat.zero_le _)
  exact mem_map.mpr ⟨index, mem_range.mpr hindex, rfl⟩

theorem insertWith_ok {a : SideChunkAssembly} (bytes : Bytes)
    (hwf : a.WellFormed) (hgrants : ctx.Grants a.total len) (hindex : index < a.total)
    (hfree : a.containsIndex index = false) :
    ∃ a' added, a.insertWith ctx.toAssemblyContext index bytes = .ok (a', added) := by
  have hshape : ¬ (a.received ≠ [] ∧ a.received.length ≠ a.total) := by
    rcases hwf.shape with hempty | hlen
    · simp [hempty]
    · simp [hlen]
  unfold insertWith
  rw [if_neg (by omega), if_neg hshape, if_neg (by simp [hfree])]
  simp only [hgrants.reserves, Bool.true_eq_false, and_false, if_false]
  by_cases hempty : a.received = []
  · simp only [if_pos hempty, hgrants.descriptors]
    exact ⟨_, _, rfl⟩
  · simp only [if_neg hempty]
    exact ⟨_, _, rfl⟩

/-- The assembly of `id` has not expired when the frame arrives. -/
def Unexpired (id : ℕ) (st : ChunkStore) (arrival : Bytes × ChunkContext) : Prop :=
  ∀ a, st.rxChunks[id]? = some a → arrival.2.nowMs - a.lastSeenMs ≤ 2000

variable {env : WireEnv}

theorem chunk_injective {i j : ℕ} (hi : i < t.total)
    (hj : j < t.total) (hbound : t.total ≤ 65535) (h : t.chunk env i = t.chunk env j) : i = j := by
  have hparse := congrArg (parseSideTransportWrapper env) h
  simp only [chunk, parseSideTransportWrapper_wrap, Except.ok.injEq, Option.some.injEq,
    Prod.mk.injEq, true_and] at hparse
  simp only [chunkBody, append_assoc] at hparse
  have hrest := (append_inj hparse rfl).2
  have hindex := (append_inj hrest (by simp)).1
  have := congrArg ofLe hindex
  rwa [ofLe_leBytes_of_lt (by omega), ofLe_leBytes_of_lt (by omega)] at this

theorem Holds.expire {bytes : Bytes} (h : Holds t seen st) (hfresh : Unexpired t.key st (bytes, ctx)) :
    Holds t seen (st.expireSideChunks ctx.nowMs) :=
  h.keeps ⟨shrinks_expireSideChunks _ st, expire_own _ hfresh⟩

section Holds

variable (h : Holds t seen st) (hgrants : ctx.Grants t.total len)
  (hlen : t.content.length = len) (hindex : index < t.total)

include h hgrants hlen hindex

theorem Holds.fits (hnew : index ∉ seen) :
    (st.entry t.key).byteCost +
      st.fragmentCost t.key t.total (t.slice index).length ≤ ctx.budget := by
  have hwf := h.inv.opened h.total
  have hcost := byteCost_add (t.slice index) hwf hindex (h.free hindex hnew)
  rw [h.slots, slots_set] at hcost
  have hpayload := payloadBytes_slots_le t (index :: seen)
  have hcount : (t.slots (index :: seen)).countP Option.isSome ≤ t.total :=
    countP_le_length.trans (by simp [SideTransportFrames.slots])
  have hbudget := hgrants.budget
  simp only [fragmentOverhead] at hcost
  show (st.opened t.key t.total).byteCost + ((t.slice index).length + 48 +
    if (st.opened t.key t.total).received = [] then descriptorBytes t.total else 0) ≤
      ctx.budget
  rw [show descriptorBytes t.total =
    descriptorBytes (st.opened t.key t.total).total from rfl, hcost]
  show _ + _ + t.total * 16 ≤ _
  omega

theorem Holds.room :
    (st.makeSideChunkRoom ctx t.key index t.total (t.slice index).length).2 = .ok () := by
  have hbudget := hgrants.budget
  have hslice := length_slice_le t hindex
  have hone : st.fragmentCost t.key t.total (t.slice index).length ≤ ctx.budget := by
    unfold fragmentCost descriptorBytes fragmentOverhead
    split <;> omega
  have hsmall : ¬ (ctx.budget / 64 < t.total ∨
      ctx.budget < st.fragmentCost t.key t.total (t.slice index).length) := by
    omega
  unfold makeSideChunkRoom prepareRoom
  simp only [if_neg (entry_total.mpr h.total), makeRoom_eq, if_neg hsmall]
  by_cases hseen : index ∈ seen
  · simp [h.containsIndex hindex, hseen]
  simp only [h.containsIndex hindex, hseen, decide_false, Bool.false_eq_true, if_false]
  have hevict := evict_fits (st.rxChunks.size + 1) h.inv (h.fits hgrants hlen hindex hseen)
  generalize evict _ _ _ _ st = room at hevict ⊢
  obtain ⟨st', res⟩ := room
  subst hevict
  simp only [hgrants.queue, if_true]
  split <;> rfl

/-- Room was made without touching the assembly; what is left of the call. -/
theorem Holds.decode
    (hbound : t.total ≤ 65535) : ∃ st', Holds t seen st' ∧
      (index ∈ seen → st.decodeChunk ctx (t.chunkBody index) = (st', .ok none)) ∧
      (index ∉ seen → st.decodeChunk ctx (t.chunkBody index) =
        st'.retainFragment ctx.toAssemblyContext t.key index t.total (t.slice index)) := by
  obtain ⟨-, hok⟩ := makeSideChunkRoom_spec st ctx t.key index t.total
    (t.slice index).length
  have hroom := h.room hgrants hlen hindex
  rw [decodeChunk_chunkBody ctx st hindex hbound]
  generalize st.makeSideChunkRoom ctx t.key index t.total (t.slice index).length =
    room at hok hroom
  obtain ⟨st', res⟩ := room
  subst hroom
  have hst' := h.keeps (hok rfl).1
  simp only [hst'.containsIndex hindex, hgrants.fragment, Bool.true_eq_false, if_false]
  by_cases hseen : index ∈ seen
  · exact ⟨st', hst', by simp [hseen], fun hnew => absurd hseen hnew⟩
  · exact ⟨_, hst'.keeps (keeps_reclaim _ ctx.fragmentReclaims st'),
      fun hold => absurd hold hseen, by simp [hseen]⟩

/-- A new fragment fills its slot; the one that fills the last slot completes the transfer. -/
theorem Holds.retain (hnew : index ∉ seen) {done : ChunkStore} {out : TelemetryResult (Option Bytes)}
    (hdone : st.retainFragment ctx.toAssemblyContext t.key index t.total (t.slice index) = (done, out)) :
    ((∀ i < t.total, i ∈ index :: seen) → out = .ok (some t.content) ∧
        done.rxChunks[t.key]? = none) ∧
      (¬ (∀ i < t.total, i ∈ index :: seen) → out = .ok none ∧ Holds t (index :: seen) done) := by
  have hwf := h.inv.opened h.total
  have hfree := h.free hindex hnew
  obtain ⟨a, added, hins⟩ := insertWith_ok (t.slice index) hwf hgrants hindex hfree
  have hgrown := insertWith_grown hwf hfree hins
  have hreceived : a.received = t.slots (index :: seen) := by
    rw [hgrown.received, h.slots, slots_set]
  have htotal : a.total = t.total := hgrown.total
  have hcount : a.receivedCount = t.total ↔ ∀ i < t.total, i ∈ index :: seen := by
    rw [hgrown.wf.count, hreceived, countP_slots]
  let st' : ChunkStore := ⟨st.rxChunks.insert t.key a, st.rxChunkBytes + added⟩
  have hretain : st.retainFragment ctx.toAssemblyContext t.key index t.total (t.slice index) =
      if a.receivedCount = t.total then (st'.remove t.key, (a.assemble ctx.toAssemblyContext).map some)
      else (st', .ok none) := retainFragment_ok hins
  rw [hretain] at hdone
  constructor
  · intro hall
    rw [if_pos (hcount.mpr hall)] at hdone
    cases hdone
    have hassemble := assemble_ok (hlen ▸ hgrants) (hreceived.trans (slots_of_all hall))
      ((hcount.mpr hall).trans htotal.symm)
    refine ⟨?_, ?_⟩
    · rw [hassemble]
      rfl
    · rw [remove_getElem?, if_pos rfl]
  · intro hsome
    rw [if_neg (fun hall => hsome (hcount.mp hall))] at hdone
    obtain ⟨rfl, rfl⟩ := Prod.mk.inj hdone
    refine ⟨rfl, h.inv.insert hgrown.wf hgrown.cost, ?_, ?_⟩
    · right
      show ((st'.rxChunks[t.key]?).getD empty).total = t.total
      rw [getElem?_insert_eq, if_pos rfl]
      exact htotal
    · show ({ (st'.rxChunks[t.key]?).getD empty with
        total := t.total } : SideChunkAssembly).descriptors = _
      rw [getElem?_insert_eq, if_pos rfl]
      have hne : a.received ≠ [] := by
        rw [hreceived]
        simp [SideTransportFrames.slots]
        omega
      simp only [Option.getD_some, descriptors, if_neg hne]
      exact hreceived

/-! ### A sequence of chunks -/

/-- Frames arriving one after the other, with what each call returns. -/
def receiveAll (env : WireEnv) : ChunkStore → List (Bytes × ChunkContext) →
    ChunkStore × List (TelemetryResult (Option Bytes))
  | st, [] => (st, [])
  | st, (bytes, ctx) :: rest =>
    let (st, out) := st.receive env ctx bytes
    let (st, outs) := receiveAll env st rest
    (st, out :: outs)

/-- One arrival: a retry, a new chunk, or the last one. -/
theorem Holds.receive
    (hbound : t.total ≤ 65535) (hfresh : Unexpired t.key st (t.chunk env index, ctx)) :
    ((∃ i < t.total, i ∉ index :: seen) → (st.receive env ctx (t.chunk env index)).2 = .ok none ∧
      Holds t (index :: seen) (st.receive env ctx (t.chunk env index)).1) ∧
    (index ∉ seen → (∀ i < t.total, i ∈ index :: seen) → (st.receive env ctx (t.chunk env index)).2 =
        .ok (some t.content) ∧
      (st.receive env ctx (t.chunk env index)).1.rxChunks[t.key]? = none) := by
  obtain ⟨st', hst', hretry, hnew⟩ := (h.expire hfresh).decode hgrants hlen hindex hbound
  rw [receive_chunk]
  by_cases hseen : index ∈ seen
  · rw [hretry hseen]
    refine ⟨fun _ => ⟨rfl, ⟨hst'.inv, hst'.total, ?_⟩⟩, fun hout => absurd hseen hout⟩
    -- a chunk seen before fills no slot
    rw [hst'.slots]
    apply map_congr_left
    intro i _
    have hiff : i ∈ index :: seen ↔ i ∈ seen :=
      mem_cons.trans (or_iff_right_of_imp fun heq => heq ▸ hseen)
    simp only [hiff]
  · rw [hnew hseen]
    obtain ⟨hlast, hmore⟩ := hst'.retain hgrants hlen hindex hseen rfl
    refine ⟨?_, fun _ hall => hlast hall⟩
    rintro ⟨i, hi, hout⟩
    exact hmore fun hall => hout (hall i hi)

end Holds

section Sequence

variable {env : WireEnv} {t : SideTransportFrames} {len : ℕ}

/-- The frames are chunks of the transfer, each arriving while admission is granted. -/
def Arrives (env : WireEnv) (t : SideTransportFrames) (len : ℕ) (arrival : Bytes × ChunkContext) :
    Prop :=
  ∃ i < t.total, arrival.1 = t.chunk env i ∧ arrival.2.Grants t.total len

/-- While a chunk is missing, every arrival yields nothing. -/
theorem receiveAll_missing (hlen : t.content.length = len)
    (hbound : t.total ≤ 65535) (order : List (Bytes × ChunkContext)) :
    ∀ {seen} {st}, Holds t seen st → (∀ d ∈ order, Arrives env t len d) →
      Meets (fun st d => (st.receive env d.2 d.1).1) (Unexpired t.key) st order →
      (∃ i < t.total, i ∉ seen ∧ t.chunk env i ∉ order.map Prod.fst) →
      (receiveAll env st order).2 = List.replicate order.length (.ok none) ∧
      ∃ seen', Holds t seen' (receiveAll env st order).1 ∧
        ∀ i < t.total, i ∈ seen' ↔ i ∈ seen ∨ t.chunk env i ∈ order.map Prod.fst := by
  induction order with
  | nil =>
    intro seen st h _ _ _
    exact ⟨rfl, seen, h, by simp⟩
  | cons d rest ih =>
    rintro seen st h harrive ⟨hfresh, hrest⟩ ⟨i, hi, hunseen, hmissing⟩
    obtain ⟨bytes, ctx⟩ := d
    obtain ⟨index, hindex, rfl, hgrants⟩ := harrive _ mem_cons_self
    rw [map_cons, mem_cons, not_or] at hmissing
    have hne : i ∉ index :: seen := by
      rw [mem_cons, not_or]
      exact ⟨fun heq => hmissing.1 (congrArg (t.chunk env) heq), hunseen⟩
    obtain ⟨hout, hholds⟩ := (h.receive hgrants hlen hindex hbound hfresh).1 ⟨i, hi, hne⟩
    obtain ⟨houts, seen', hholds', hseen'⟩ := ih hholds
      (fun d hd => harrive d (mem_cons_of_mem _ hd)) hrest ⟨i, hi, hne, hmissing.2⟩
    refine ⟨?_, seen', hholds', ?_⟩
    · exact congrArg₂ List.cons hout houts
    · intro j hj
      rw [hseen' j hj, mem_cons, map_cons, mem_cons]
      have hiff : j = index ↔ t.chunk env j = t.chunk env index :=
        ⟨congrArg _, chunk_injective hj hindex hbound⟩
      tauto

theorem receiveAll_append (st : ChunkStore) (order : List (Bytes × ChunkContext)) (d : Bytes × ChunkContext) :
    receiveAll env st (order ++ [d]) = (((receiveAll env st order).1.receive env d.2 d.1).1,
        (receiveAll env st order).2 ++ [((receiveAll env st order).1.receive env d.2 d.1).2]) := by
  induction order generalizing st with
  | nil => rfl
  | cons d' rest ih =>
    simp only [cons_append, receiveAll, ih]

theorem receiveAll_fst (st : ChunkStore) (order : List (Bytes × ChunkContext)) :
    (receiveAll env st order).1 = run (fun st d => (st.receive env d.2 d.1).1) st order := by
  induction order generalizing st with
  | nil => rfl
  | cons d rest ih => exact ih _

/-- The arrival that completes the transfer. -/
theorem receiveAll_complete (hlen : t.content.length = len)
    (hbound : t.total ≤ 65535) {order : List (Bytes × ChunkContext)} {d : Bytes × ChunkContext} (h : Holds t [] st)
    (harrive : ∀ d' ∈ order ++ [d], Arrives env t len d')
    (hmeets : Meets (fun st d => (st.receive env d.2 d.1).1) (Unexpired t.key) st (order ++ [d]))
    (hmissing : ∃ i < t.total, t.chunk env i ∉ order.map Prod.fst)
    (hall : ∀ i < t.total, t.chunk env i ∈ (order ++ [d]).map Prod.fst) :
    (receiveAll env st (order ++ [d])).2 = List.replicate order.length (.ok none) ++
        [.ok (some t.content)] ∧
      (receiveAll env st (order ++ [d])).1.rxChunks[t.key]? = none := by
  rw [meets_append, ← receiveAll_fst] at hmeets
  obtain ⟨hbefore, hfresh, -⟩ := hmeets
  obtain ⟨i, hi, hout⟩ := hmissing
  obtain ⟨houts, seen, hholds, hseen⟩ := receiveAll_missing hlen hbound order h
    (fun d' hd' => harrive d' (mem_append_left _ hd')) hbefore ⟨i, hi, by simp, hout⟩
  obtain ⟨index, hindex, hchunk, hgrants⟩ := harrive d (by simp)
  have hmem : ∀ j < t.total, j ∈ index :: seen := by
    intro j hj
    have hj' := hall j hj
    rw [map_append, mem_append, map_cons, map_nil, mem_singleton, hchunk]
      at hj'
    rcases hj' with hold | hnow
    · exact mem_cons_of_mem _ ((hseen j hj).mpr (.inr hold))
    · rw [chunk_injective hj hindex hbound hnow]
      exact mem_cons_self
  have hnew : index ∉ seen := by
    -- otherwise nothing would have been missing
    intro hold
    have hi' := hmem i hi
    rcases mem_cons.mp hi' with rfl | hin
    · exact hout (((hseen i hi).mp hold).resolve_left (by simp))
    · exact hout (((hseen i hi).mp hin).resolve_left (by simp))
  obtain ⟨hres, hnone⟩ := (hholds.receive hgrants hlen hindex hbound (by
    have : d = (t.chunk env index, d.2) := Prod.ext hchunk rfl
    exact hfresh)).2 hnew hmem
  rw [receiveAll_append, hchunk, houts, hres]
  exact ⟨rfl, hnone⟩

end Sequence

/-! ### The result -/

/-- Every chunk fits the link.  Whatever the receiver has been through, if it has no assembly for
the transfer, budget and memory admission grant it and nothing expires, then the chunks may arrive
in any order and any number of times: as long as one is missing every call returns nothing, and the
call that brings the last one returns the frame and leaves no assembly behind. -/
theorem chunk_transfer (env : WireEnv) (frame sender : Bytes) (maxFrameBytes : ℕ)
    (hmax : sideTransportChunkOverhead < maxFrameBytes)
    (htotal : divCeil frame.length (maxFrameBytes - sideTransportChunkOverhead) ≤ 65535) :
    ∃ t, split frame maxFrameBytes sender = .ok t ∧ (∀ c ∈ t.frames env, c.length ≤ maxFrameBytes) ∧
      ∀ (earlier : List Event) (order : List (Bytes × ChunkContext)),
        (run (step env) initial earlier).rxChunks[t.transferId.toNat]? = none →
        (∀ d ∈ order, d.1 ∈ t.frames env ∧ d.2.Grants t.total frame.length) →
        Meets (fun st d => (st.receive env d.2 d.1).1) (Unexpired t.transferId.toNat)
          (run (step env) initial earlier) order → ((∃ c ∈ t.frames env, c ∉ order.map Prod.fst) →
          (receiveAll env (run (step env) initial earlier) order).2 = List.replicate order.length (.ok none)) ∧
        ∀ before last, order = before ++ [last] → (∃ c ∈ t.frames env, c ∉ before.map Prod.fst) →
          (∀ c ∈ t.frames env, c ∈ order.map Prod.fst) → (receiveAll env (run (step env) initial earlier) order).2 =
              List.replicate before.length (.ok none) ++ [.ok (some frame)] ∧
            (receiveAll env (run (step env) initial earlier) order).1.rxChunks[t.transferId.toNat]? = none := by
  obtain ⟨t, hsplit, hfresh⟩ := split_fresh sender hmax htotal
  have hmem : ∀ c, c ∈ t.frames env ↔ ∃ i < t.total, t.chunk env i = c := by
    intro c
    rw [hfresh.frames_eq, mem_map]
    simp only [mem_range]
  have hlen : t.content.length = frame.length := by
    rw [hfresh.flatten]
  refine ⟨t, hsplit, ?_, ?_⟩
  · intro c hc
    obtain ⟨i, -, rfl⟩ := (hmem c).mp hc
    exact hfresh.length_le i
  · intro earlier order hnone harrive hmeets
    have hholds : Holds t [] (run (step env) initial earlier) :=
      holds_nothing (chunkInv_run env earlier) hnone
    have harrive' : ∀ d ∈ order, Arrives env t frame.length d := by
      intro d hd
      obtain ⟨i, hi, heq⟩ := (hmem d.1).mp (harrive d hd).1
      exact ⟨i, hi, heq.symm, (harrive d hd).2⟩
    refine ⟨?_, ?_⟩
    · rintro ⟨c, hc, hout⟩
      obtain ⟨i, hi, rfl⟩ := (hmem c).mp hc
      exact (receiveAll_missing hlen hfresh.bound order hholds harrive' hmeets
        ⟨i, hi, by simp, hout⟩).1
    · rintro before last rfl ⟨c, hc, hout⟩ hall
      obtain ⟨i, hi, rfl⟩ := (hmem c).mp hc
      have hdone := receiveAll_complete hlen hfresh.bound hholds harrive' hmeets ⟨i, hi, hout⟩
        fun j hj => hall _ ((hmem _).mpr ⟨j, hj, rfl⟩)
      rw [hfresh.flatten] at hdone
      exact hdone

/-- Twenty bytes in three chunks of at most eight. -/
def sampleTransfer : SideTransportFrames :=
  ⟨[0, 1, 2, 3, 4, 5, 6, 7, 8, 9, 10, 11, 12, 13, 14, 15, 16, 17, 18, 19], 8, 3074346628, 0, 3⟩

/-- Admission granted, except that the output of `assemble` may have to grow in steps. -/
def sampleContext (stepwise : Bool) : ChunkContext where
  nowMs := 5
  budget := 4096
  queueReclaims := []
  queueRoom := true
  fragmentReclaims := []
  fragmentRoom := true
  probe := .legacy fun call _ _ => !(stepwise && call == 1)
  reserves := fun _ => true

theorem sampleContext_grants (stepwise : Bool) : (sampleContext stepwise).Grants 3 20 := by
  refine ⟨?_, rfl, rfl, ?_, fun _ => rfl, ?_⟩
  · simp [sampleContext]
  · cases stepwise <;> rfl
  · cases stepwise with
    | false => exact .inl rfl
    | true =>
      right
      intro call target hcall _
      have hne : (call == 1) = false := by simpa using (show call ≠ 1 by omega)
      simp [sampleContext, AdmissionProbe.check, AdmissionProbe.checkWork, hne]

/-- The last chunk first, twice, and the middle one last; in both allocation modes. -/
theorem chunk_transfer_sample : split sampleTransfer.frame 24 [0x47, 0x53] = .ok sampleTransfer ∧
    ∀ stepwise, (receiveAll (plainEnv sampleRegistry) initial
        [(sampleTransfer.chunk (plainEnv sampleRegistry) 2, sampleContext stepwise),
          (sampleTransfer.chunk (plainEnv sampleRegistry) 0, sampleContext stepwise),
          (sampleTransfer.chunk (plainEnv sampleRegistry) 2, sampleContext stepwise),
          (sampleTransfer.chunk (plainEnv sampleRegistry) 1, sampleContext stepwise)]).2 =
      [.ok none, .ok none, .ok none, .ok (some sampleTransfer.frame)] := by
  have hsplit : split sampleTransfer.frame 24 [0x47, 0x53] = .ok sampleTransfer := by decide +kernel
  refine ⟨hsplit, fun stepwise => ?_⟩
  obtain ⟨t, ht, -, hrun⟩ := chunk_transfer (plainEnv sampleRegistry) sampleTransfer.frame
    [0x47, 0x53] 24 (by decide) (by decide)
  obtain rfl : sampleTransfer = t := Except.ok.inj (hsplit.symm.trans ht)
  refine ((hrun [] _ (by decide) ?_ ?_).2 [_, _, _] _ rfl ?_ ?_).1
  · have hmem : ∀ i < 3, sampleTransfer.chunk (plainEnv sampleRegistry) i ∈
        sampleTransfer.frames (plainEnv sampleRegistry) := by decide +kernel
    have hgrants := sampleContext_grants stepwise
    intro d hd
    fin_cases hd
    · exact ⟨hmem 2 (by decide), hgrants⟩
    · exact ⟨hmem 0 (by decide), hgrants⟩
    · exact ⟨hmem 2 (by decide), hgrants⟩
    · exact ⟨hmem 1 (by decide), hgrants⟩
  · have hfresh : ∀ st bytes, Unexpired sampleTransfer.transferId.toNat st
        (bytes, sampleContext stepwise) := by
      intro st bytes a _
      show 5 - a.lastSeenMs ≤ 2000
      omega
    exact ⟨hfresh _ _, hfresh _ _, hfresh _ _, hfresh _ _, trivial⟩
  · simp only [map_cons, map_nil]
    decide +kernel
  · simp only [map_append, map_cons, map_nil]
    decide +kernel

end ChunkStore

end SedsNet
