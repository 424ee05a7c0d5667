import SedsNet.ChunkTransfer

/-! # What a chunk receiver can assemble

`chunk_transfer` says that a granted transfer arrives.  Here nothing is granted: chunks may be
refused, evicted, expire or arrive twice.  As long as the fragments kept under a transfer id are
slices of one transfer (`SlicesOf`), the only frame the receiver can assemble from a chunk of this
transfer is the frame that was split (`decodeChunk_sound`). -/

namespace SedsNet

open OrderedMap SideTransportFrames

namespace SideChunkAssembly

/-- The fragments kept are slices of the transfer. -/
def SlicesOf (t : SideTransportFrames) (received : List (Option Bytes)) : Prop :=
  ∀ (i : ℕ) (bytes : Bytes), received[i]? = some (some bytes) → bytes = t.slice i

theorem slicesOf_nil (t : SideTransportFrames) : SlicesOf t [] := by
  intro i bytes h
  simp at h

variable {t : SideTransportFrames}

theorem SlicesOf.set {received : List (Option Bytes)} (h : SlicesOf t received) (index : ℕ) :
    SlicesOf t (received.set index (some (t.slice index))) := by
  intro i bytes hi
  rw [List.getElem?_set] at hi
  split at hi
  · rename_i heq
    split at hi
    · cases hi
      rw [heq]
    · cases hi
  · exact h i bytes hi

theorem SlicesOf.descriptors {a : SideChunkAssembly} (h : SlicesOf t a.received) : SlicesOf t a.descriptors := by
  unfold SideChunkAssembly.descriptors
  split
  · intro i bytes hi
    rw [List.getElem?_replicate] at hi
    split at hi <;> simp at hi
  · exact h

variable {ctx : AssemblyContext}

theorem append_bytes {len step : ℕ} {out out' : Output} {bytes : Bytes}
    (h : append ctx len step out bytes = .ok out') : out'.bytes = out.bytes ++ bytes := by
  unfold append at h
  simp only at h
  split at h
  · split at h
    · cases h
    split at h
    · cases h
    cases h
    rfl
  · cases h
    rfl

/-- Only a list without gaps is copied, and it is copied in order. -/
theorem copyFragments_sound {len step : ℕ} (received : List (Option Bytes)) :
    ∀ {out out'}, copyFragments ctx len step received out = .ok out' →
      ∃ chunks : List Bytes, received = chunks.map some ∧ out'.bytes = out.bytes ++ chunks.flatten := by
  induction hn : received.length using Nat.strong_induction_on generalizing received with
  | _ n ih =>
    intro out out' h
    match received with
    | [] =>
      cases h
      exact ⟨[], rfl, by simp⟩
    | none :: _ => cases h
    | [some chunk] =>
      obtain ⟨out₁, hout, hrest⟩ := bind_eq_ok h
      cases hrest
      exact ⟨[chunk], rfl, by simp [append_bytes hout]⟩
    | some chunk :: none :: rest =>
      obtain ⟨out₁, hout, hrest⟩ := bind_eq_ok h
      cases hrest
    | some chunk :: some next :: rest =>
      simp only [copyFragments] at h
      split at h
      · obtain ⟨out₁, hout, hrest⟩ := bind_eq_ok h
        obtain ⟨chunks, rfl, hbytes⟩ := ih rest.length (by simp [← hn]) rest rfl hrest
        refine ⟨chunk :: next :: chunks, rfl, ?_⟩
        simp [hbytes, append_bytes hout]
      · obtain ⟨out₁, hout, hrest⟩ := bind_eq_ok h
        obtain ⟨chunks, heq, hbytes⟩ := ih (some next :: rest).length (by simp [← hn]) _ rfl hrest
        refine ⟨chunk :: chunks, by rw [heq]; rfl, ?_⟩
        simp [hbytes, append_bytes hout]

theorem assemble_sound {a : SideChunkAssembly}
    {frame : Bytes} (hslices : SlicesOf t a.received) (hlen : a.received.length = t.total)
    (h : a.assemble ctx = .ok frame) : frame = t.content := by
  unfold assemble at h
  split at h
  · cases h
  simp only [fragments_eq] at h
  split at h
  · cases h
  obtain ⟨out, hout, hrest⟩ := bind_eq_ok h
  cases hrest
  obtain ⟨chunks, hchunks, hbytes⟩ := copyFragments_sound _ hout
  have heq : chunks = (List.range t.total).map t.slice := by
    have hcount : chunks.length = t.total := by rw [← hlen, hchunks, List.length_map]
    apply List.ext_getElem
    · simp [hcount]
    · intro i hi _
      have hget : a.received[i]? = some (some chunks[i]) := by
        rw [hchunks, List.getElem?_map, List.getElem?_eq_getElem hi]
        rfl
      rw [hslices i _ hget]
      simp
  rw [hbytes, heq]
  rfl

end SideChunkAssembly

namespace ChunkStore

open SideChunkAssembly

/-- Whatever is kept under the id of a transfer in as many chunks is part of the transfer. -/
def OnlySlices (t : SideTransportFrames) (st : ChunkStore) : Prop :=
  ∀ a, st.rxChunks[t.key]? = some a → a.total = t.total → SlicesOf t a.received

variable {t : SideTransportFrames} {st st' : ChunkStore}

theorem OnlySlices.shrinks (h : OnlySlices t st) (hshrinks : Shrinks st st') : OnlySlices t st' :=
  fun a ha => h a (hshrinks.sub _ a ha)

/-- The slices kept when a fragment of the transfer is put in. -/
theorem OnlySlices.entry (h : OnlySlices t st) (hinv : ChunkInv st) (htotal : (st.entry t.key).total = 0 ∨
      (st.entry t.key).total = t.total) : SlicesOf t (st.entry t.key).received := by
  have hwf := hinv.entry t.key
  unfold ChunkStore.entry at hwf htotal ⊢
  cases hid : st.rxChunks[t.key]? with
  | none => exact slicesOf_nil t
  | some a =>
    rw [hid] at htotal hwf
    rcases htotal with hzero | heq
    · rcases hwf.shape with hempty | hlen
      · rw [hempty]
        exact slicesOf_nil t
      · rw [List.length_eq_zero_iff.mp (hlen.trans hzero)]
        exact slicesOf_nil t
    · exact h a hid heq

/-- Every assembly was kept before, or belongs to the transfer. -/
def Extends (t : SideTransportFrames) (st st' : ChunkStore) : Prop :=
  ∀ (k : ℕ) (a : SideChunkAssembly), st'.rxChunks[k]? = some a → st.rxChunks[k]? = some a ∨
    (k = t.key ∧ a.total = t.total ∧ SlicesOf t a.received)

theorem Shrinks.extends {st st' st'' : ChunkStore}
    (h : Extends t st st') (hshrinks : Shrinks st' st'') : Extends t st st'' :=
  fun k a ha => h k a (hshrinks.sub k a ha)

theorem extends_of_shrinks (h : Shrinks st st') :
    Extends t st st' := fun k a ha => .inl (h.sub k a ha)

theorem extends_insert {a : SideChunkAssembly} {bytes : ℕ} (hshrinks : Shrinks st st') (htotal : a.total = t.total)
    (hslices : SlicesOf t a.received) : Extends t st ⟨st'.rxChunks.insert t.key a, bytes⟩ := by
  intro k b hk
  rw [getElem?_insert_eq] at hk
  split at hk
  · rename_i heq
    cases hk
    exact .inr ⟨heq.symm, htotal, hslices⟩
  · exact .inl (hshrinks.sub k b hk)

theorem OnlySlices.retainFragment {ctx : AssemblyContext} {index : ℕ} (h : OnlySlices t st') (hinv : ChunkInv st')
    (hshrinks : Shrinks st st') (htotal : st'.TotalFits t.key t.total)
    (hfree : (st'.entry t.key).containsIndex index = false) :
    Extends t st (st'.retainFragment ctx t.key index t.total (t.slice index)).1 ∧
      ∀ frame, (st'.retainFragment ctx t.key index t.total (t.slice index)).2 =
        .ok (some frame) → frame = t.content := by
  have hwf := hinv.opened htotal
  have hslices : SlicesOf t (st'.opened t.key t.total).received := h.entry hinv htotal
  cases hins : (st'.opened t.key t.total).insertWith ctx index (t.slice index) with
  | error e =>
    rw [retainFragment_error hins]
    exact ⟨extends_insert hshrinks rfl hslices, fun frame hframe => by cases hframe⟩
  | ok out =>
    obtain ⟨a, added⟩ := out
    have hgrown := insertWith_grown hwf hfree hins
    have hkept : SlicesOf t a.received := by
      rw [hgrown.received]
      exact hslices.descriptors.set index
    have hlen : a.received.length = t.total := by
      rw [hgrown.received, List.length_set, descriptors_length hwf]
      rfl
    have hextends : Extends t st
        ⟨st'.rxChunks.insert t.key a, st'.rxChunkBytes + added⟩ :=
      extends_insert hshrinks hgrown.total hkept
    rw [retainFragment_ok hins]
    split
    · refine ⟨Shrinks.extends hextends (shrinks_remove _ _), ?_⟩
      intro frame hframe
      obtain ⟨out, hassemble, heq⟩ := map_eq_ok hframe
      cases heq
      exact assemble_sound hkept hlen hassemble
    · exact ⟨hextends, fun frame hframe => by cases hframe⟩

theorem decodeChunk_sound (h : OnlySlices t st)
    (hinv : ChunkInv st) (ctx : ChunkContext) {index : ℕ} (hindex : index < t.total) (hbound : t.total ≤ 65535) :
    Extends t st (st.decodeChunk ctx (t.chunkBody index)).1 ∧
      ∀ frame, (st.decodeChunk ctx (t.chunkBody index)).2 = .ok (some frame) →
        frame = t.content := by
  rw [decodeChunk_chunkBody ctx st hindex hbound]
  obtain ⟨hshrinks, hok⟩ := makeSideChunkRoom_spec st ctx t.key index t.total
    (t.slice index).length
  generalize st.makeSideChunkRoom ctx t.key index t.total (t.slice index).length =
    room at hshrinks hok
  obtain ⟨st', res⟩ := room
  cases res with
  | error e => exact ⟨extends_of_shrinks hshrinks, fun frame hframe => by cases hframe⟩
  | ok _ =>
    obtain ⟨hkeeps, htotal⟩ := hok rfl
    simp only
    split
    · exact ⟨extends_of_shrinks hshrinks, fun frame hframe => by cases hframe⟩
    rename_i hfree
    have hreclaim := keeps_reclaim t.key ctx.fragmentReclaims st'
    split
    · exact ⟨extends_of_shrinks (hshrinks.trans hreclaim.toShrinks),
        fun frame hframe => by cases hframe⟩
    have hall := hkeeps.trans hreclaim
    apply (h.shrinks hall.toShrinks).retainFragment (hall.inv hinv) hall.toShrinks (hall.totalFits htotal)
    rw [hreclaim.entry]
    simpa using hfree

end ChunkStore

end SedsNet
