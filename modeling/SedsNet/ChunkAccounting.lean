import SedsNet.SideChunk

/-! # Chunk assemblies in the shared budget

The sides of a router keep their chunk assemblies in one budget with the receive and transmit queues
and the protected metadata (`side_chunk_admission_budget`, `make_side_chunk_room`,
`reclaim_oldest_side_chunk` and the chunk branch of `decode_side_transport_frame` in `router.rs`).
The store of one side is the `ChunkStore` of `SideChunk`.

A step is one section under the router's lock.  Of the queues only the costs of their rows and the
cached byte counts are kept, so which row a reclaim takes is an answer of the `FragmentContext`, as is
what memory admission says of a fragment; both depend on the state, which every round of a loop
changes.  A frame that chunks assemble to is received by a step of its own. -/

namespace SedsNet

open ByteWords OrderedMap Runs
open Std (ExtTreeMap)

/-! ### Reclaiming under pressure -/

section Reclaim

variable {R : Type} {pressed : R → Bool} {reclaim : R → Option R}

/-- Reclaim as long as there is pressure; whether the pressure is gone. -/
def reclaimWhile (pressed : R → Bool) (reclaim : R → Option R) : (rounds : ℕ) → R → R × Bool
  | 0, r => (r, false)
  | rounds + 1, r =>
    if pressed r then
      match reclaim r with
      | some r' => reclaimWhile pressed reclaim rounds r'
      | none => (r, false)
    else (r, true)

/-- What each reclaim keeps, the loop keeps. -/
theorem reclaimWhile_related {Q : R → R → Prop} (hrefl : ∀ r, Q r r)
    (htrans : ∀ r₁ r₂ r₃, Q r₁ r₂ → Q r₂ r₃ → Q r₁ r₃) (hstep : ∀ r r', reclaim r = some r' → Q r r')
    (rounds : ℕ) (r : R) : Q r (reclaimWhile pressed reclaim rounds r).1 := by
  induction rounds generalizing r with
  | zero => exact hrefl r
  | succ rounds ih =>
    rw [reclaimWhile]
    split
    · split
      · rename_i r' hr'
        exact htrans r r' _ (hstep r r' hr') (ih r')
      · exact hrefl r
    · exact hrefl r

variable {rounds : ℕ} {r : R}

theorem reclaimWhile_true (h : (reclaimWhile pressed reclaim rounds r).2 = true) :
    pressed (reclaimWhile pressed reclaim rounds r).1 = false := by
  induction rounds generalizing r with
  | zero => cases h
  | succ rounds ih =>
    rw [reclaimWhile] at h ⊢
    split at h
    · rename_i hpressed
      rw [if_pos hpressed]
      split at h
      · exact ih h
      · cases h
    · rename_i hpressed
      rw [if_neg hpressed]
      exact Bool.eq_false_of_not_eq_true hpressed

/-- With a round for everything that can be reclaimed the loop gives up only when nothing is left. -/
theorem reclaimWhile_false {load : R → ℕ} (hload : ∀ r r', reclaim r = some r' → load r' < load r)
    (hrounds : load r < rounds) (h : (reclaimWhile pressed reclaim rounds r).2 = false) :
    pressed (reclaimWhile pressed reclaim rounds r).1 = true ∧
      reclaim (reclaimWhile pressed reclaim rounds r).1 = none := by
  induction rounds generalizing r with
  | zero => exact absurd hrounds (Nat.not_lt_zero _)
  | succ rounds ih =>
    rw [reclaimWhile] at h ⊢
    split at h
    · rename_i hpressed
      rw [if_pos hpressed]
      split at h
      · rename_i r' hr'
        exact ih (Nat.lt_of_lt_of_le (hload r r' hr') (Nat.le_of_lt_succ hrounds)) h
      · rename_i hnone
        exact ⟨hpressed, hnone⟩
    · cases h

end Reclaim

/-! ### The router -/

/-- The costs of the rows of a queue, and its cached byte count. -/
structure QueueRows where
  costs : List ℕ
  curBytes : ℕ

/-- `remove_pos`. -/
def QueueRows.removePos (q : QueueRows) (index : ℕ) : Option QueueRows :=
  (q.costs[index]?).map fun cost => ⟨q.costs.eraseIdx index, q.curBytes - cost⟩

inductive RouterQueueKind where
  | received
  | transmit

/-- What the chunk code reads and writes. -/
structure ChunkRouter where
  sideTransport : ExtTreeMap ℕ ChunkStore
  receivedQueue : QueueRows
  transmitQueue : QueueRows
  /-- `protected_metadata_bytes_used()`. -/
  protectedMetadata : ℕ
  codecReservedBytes : ℕ
  maxQueueBudget : ℕ
  startingQueueSize : ℕ
  /-- The bytes of one inline packet in the transmit queue, with the name of this router. -/
  inlineCredit : ℕ

/-- What a step asks of the rest of the router. -/
structure FragmentContext extends AssemblyContext where
  /-- The row that `reclaim_bulk_from` removes. -/
  bulkVictim : ChunkRouter → Option (RouterQueueKind × ℕ)
  /-- The row that `lower_priority_shared_queue` and `pop_shared_queue_item` remove. -/
  lowestRow : ChunkRouter → Option (RouterQueueKind × ℕ)
  /-- `check_retained_fragment`. -/
  retainedFragment : ChunkRouter → TelemetryResult Unit

/-- What a side is answered, with what the router reclaims. -/
def FragmentContext.chunkContext (ctx : FragmentContext) (budget : ℕ) (queue fragment : List ℕ × Bool) : ChunkContext :=
  ⟨ctx.toAssemblyContext, budget, queue.1, queue.2, fragment.1, fragment.2⟩

namespace ChunkRouter

open SideChunkAssembly

section

variable (keep : Option (ℕ × ℕ)) (ctx : FragmentContext) (r : ChunkRouter) (side : ℕ)

def sideChunkBytesUsed : ℕ := sumValues ChunkStore.rxChunkBytes r.sideTransport

def sharedQueueBytesUsed : ℕ :=
  satAdd (satAdd (satAdd (satAdd r.receivedQueue.curBytes r.transmitQueue.curBytes) r.sideChunkBytesUsed)
    r.protectedMetadata) r.codecReservedBytes

def sideChunkAdmissionBudget (protectedBytes : ℕ) : ℕ :=
  let spendable := r.maxQueueBudget - protectedBytes
  let localCredit := if r.inlineCredit ≤ spendable / 2 then min r.inlineCredit r.startingQueueSize else 0
  r.maxQueueBudget - localCredit

def setSide (st : ChunkStore) : ChunkRouter :=
  { r with sideTransport := r.sideTransport.insert side st }

def removeRow : RouterQueueKind × ℕ → Option ChunkRouter
  | (.received, index) => (r.receivedQueue.removePos index).map fun q => { r with receivedQueue := q }
  | (.transmit, index) => (r.transmitQueue.removePos index).map fun q => { r with transmitQueue := q }

/-- `discard_side_chunk`; none when there is no such assembly. -/
def discardSideChunk (id : ℕ) : Option ChunkRouter :=
  match r.sideTransport[side]? with
  | none => none
  | some st => if id ∈ st.rxChunks then some (r.setSide side (st.remove id)) else none

/-- The transfer of this side that is to be kept. -/
def preserved : Option ℕ :=
  keep.bind fun owner => if owner.1 = side then some owner.2 else none

/-- One step of the scan over the sides, for a victim and its time. -/
def olderSide (victim : Option ((ℕ × ℕ) × ℕ)) (entry : ℕ × ChunkStore) : Option ((ℕ × ℕ) × ℕ) :=
  match oldestSeen entry.2.rxChunks (preserved keep entry.1) with
  | none => victim
  | some (id, seen) =>
    if victim.all (fun v => decide (seen < v.2)) then some ((entry.1, id), seen) else victim

/-- `reclaim_oldest_side_chunk`. -/
def reclaimOldestSideChunk : Option ChunkRouter :=
  match r.sideTransport.toList.foldl (olderSide keep) none with
  | none => none
  | some ((side, id), _) => r.discardSideChunk side id

/-- The rows and assemblies there are. -/
def load : ℕ :=
  r.receivedQueue.costs.length + r.transmitQueue.costs.length +
    sumValues (fun st => st.rxChunks.size) r.sideTransport

/-- A row, or else the oldest assembly that is not `keep`. -/
def reclaimRowOrChunk (row : ChunkRouter → Option (RouterQueueKind × ℕ)) (keep : ℕ × ℕ) (r : ChunkRouter) :
    Option ChunkRouter :=
  ((row r).bind r.removeRow).or (r.reclaimOldestSideChunk (some keep))

/-! ### Fragments -/

/-- `make_side_chunk_room`. -/
def makeSideChunkRoom (id index total payloadLen : ℕ) : ChunkRouter × TelemetryResult Unit :=
  let admissionBudget := r.sideChunkAdmissionBudget r.protectedMetadata
  match r.sideTransport[side]? with
  | none => (r, .error .badArg)
  | some st =>
    match st.prepareRoom id index total payloadLen (admissionBudget - r.protectedMetadata) with
    | (st, .error e) => (r.setSide side st, .error e)
    | (st, .ok cost) =>
      let r := r.setSide side st
      if cost = 0 then (r, .ok ())
      else
        let done := reclaimWhile (fun r => decide (admissionBudget < satAdd r.sharedQueueBytesUsed cost))
          (reclaimRowOrChunk ctx.bulkVictim (side, id)) (r.load + 1) r
        (done.1, if done.2 then .ok () else .error (.io "memory pressure"))

/-- What became of a fragment. -/
inductive FragmentOutcome where
  /-- It was retained before. -/
  | retry
  | retained
  /-- It completed its transfer. -/
  | assembled (frame : Bytes)

/-- Whether the fragment was taken. -/
def accepted : TelemetryResult FragmentOutcome → Bool
  | .ok .retained => true
  | .ok (.assembled _) => true
  | _ => false

/-- Keep a fragment, and take out the assembly it completes. -/
def retainFragment (id index total : ℕ) (payload : Bytes) : ChunkRouter × TelemetryResult FragmentOutcome :=
  match r.sideTransport[side]? with
  | none => (r, .error .badArg)
  | some st =>
    match st.retainFragment ctx.toAssemblyContext id index total payload with
    | (st, .error e) => (r.setSide side st, .error e)
    | (st, .ok none) => (r.setSide side st, .ok .retained)
    | (st, .ok (some frame)) => (r.setSide side st, .ok (.assembled frame))

/-- A fragment for which there is room in the budget: the rest of the chunk branch. -/
def admitFragment (id index total : ℕ) (payload : Bytes) : ChunkRouter × TelemetryResult FragmentOutcome :=
  if (r.sideTransport[side]?.bind (·.rxChunks[id]?)).any (·.containsIndex index) then (r, .ok .retry)
  else
    let done := reclaimWhile (fun r => decide (errorOf (ctx.retainedFragment r) = some (.io "memory pressure")))
      (reclaimRowOrChunk ctx.lowestRow (side, id)) (r.load + 1) r
    if done.2 then
      match ctx.retainedFragment done.1 with
      | .error e => (done.1, .error e)
      | .ok () => done.1.retainFragment ctx side id index total payload
    else (done.1, .error (.io "memory pressure"))

/-- The chunk branch of `decode_side_transport_frame`, up to the assembled frame. -/
def decodeChunk (body : Bytes) : ChunkRouter × TelemetryResult FragmentOutcome :=
  if body.length < 8 then (r, .error (.unpack "short side chunk frame"))
  else
    let id := ofLe (body.take 4)
    let index := ofLe ((body.drop 4).take 2)
    let total := ofLe ((body.drop 6).take 2)
    if total = 0 ∨ total ≤ index then (r, .error (.unpack "invalid side chunk index"))
    else
      match r.makeSideChunkRoom ctx side id index total (body.drop 8).length with
      | (r, .error e) => (r, .error e)
      | (r, .ok _) => r.admitFragment ctx side id index total (body.drop 8)

end

/-! ### Steps -/

inductive Event where
  | addSide (side : ℕ)
  | removeSide (side : ℕ)
  /-- `expire_side_chunks`. -/
  | expire (nowMs : ℕ)
  /-- Any other work of the router takes out an assembly. -/
  | evict (side id : ℕ)
  | frame (ctx : FragmentContext) (side : ℕ) (bytes : Bytes)
  /-- The queues, the metadata or the settings change. -/
  | elsewhere (receivedQueue transmitQueue : QueueRows)
      (protectedMetadata codecReservedBytes maxQueueBudget startingQueueSize inlineCredit : ℕ)

def start : ChunkRouter := ⟨∅, ⟨[], 0⟩, ⟨[], 0⟩, 0, 0, 0, 0, 0⟩

def step (env : WireEnv) (r : ChunkRouter) : Event → ChunkRouter
  | .addSide side => r.setSide side ChunkStore.initial
  | .removeSide side => { r with sideTransport := r.sideTransport.erase side }
  | .expire nowMs => { r with sideTransport := r.sideTransport.map fun _ st => st.expireSideChunks nowMs }
  | .evict side id => (r.discardSideChunk side id).getD r
  | .frame ctx side bytes =>
    match parseSideTransportWrapper env bytes with
    | .ok (some (kind, body)) => if kind = sideTransportKindChunk then (r.decodeChunk ctx side body).1 else r
    | _ => r
  | .elsewhere receivedQueue transmitQueue protectedMetadata codecReservedBytes maxQueueBudget startingQueueSize
      inlineCredit =>
      ⟨r.sideTransport, receivedQueue, transmitQueue, protectedMetadata, codecReservedBytes, maxQueueBudget,
        startingQueueSize, inlineCredit⟩

end ChunkRouter

/-! ### The store of one side -/
namespace ChunkStore

open SideChunkAssembly

/-- The byte count is right, and there are at most four assemblies. -/
structure Accounted (st : ChunkStore) : Prop extends ChunkInv st where
  four : st.rxChunks.size ≤ 4

theorem accounted_initial : Accounted initial := ⟨chunkInv_initial, by decide⟩

variable {st st' : ChunkStore}

theorem Accounted.shrinks (h : Accounted st) (hs : Shrinks st st') : Accounted st' :=
  ⟨hs.inv h.toChunkInv, Nat.le_trans hs.size_le h.four⟩

variable {id : ℕ}

variable {ctx : AssemblyContext} {index : ℕ} {bytes : Bytes}

theorem rxChunkBytes_remove_le (st : ChunkStore) (id : ℕ) : (st.remove id).rxChunkBytes ≤ st.rxChunkBytes := by
  unfold ChunkStore.remove
  split
  · exact Nat.le_refl _
  · exact Nat.sub_le _ _

variable {total : ℕ}

theorem rxChunkBytes_retainFragment (h : ChunkInv st)
    (htotal : st.TotalFits id total) (hfree : (st.entry id).containsIndex index = false) :
    (st.retainFragment ctx id index total bytes).1.rxChunkBytes ≤
      st.rxChunkBytes + st.fragmentCost id total bytes.length := by
  cases hins : (st.opened id total).insertWith ctx index bytes with
  | error e =>
    rw [retainFragment_error hins]
    exact Nat.le_add_right _ _
  | ok out =>
    obtain ⟨a, added⟩ := out
    have hadded : added = st.fragmentCost id total bytes.length :=
      (insertWith_grown (h.opened htotal) hfree hins).added_eq
    subst hadded
    rw [retainFragment_ok hins]
    split
    · exact rxChunkBytes_remove_le _ id
    · exact Nat.le_refl _

theorem size_retainFragment (hfour : st.rxChunks.size ≤ 4) (hplace : st.rxChunks[id]? = none → st.rxChunks.size ≤ 3) :
    (st.retainFragment ctx id index total bytes).1.rxChunks.size ≤ 4 := by
  have hinsert : ∀ a, (st.rxChunks.insert id a).size ≤ 4 := by
    intro a
    rw [ExtTreeMap.size_insert]
    split
    · exact hfour
    · rename_i hmem
      exact Nat.succ_le_succ (hplace (not_mem_iff.mp hmem))
  unfold ChunkStore.retainFragment
  simp only
  split
  · exact hinsert _
  · split
    · exact Nat.le_trans (shrinks_remove _ id).size_le (hinsert _)
    · exact hinsert _

theorem Accounted.retainFragment (h : Accounted st) (htotal : st.TotalFits id total)
    (hfree : (st.entry id).containsIndex index = false) (hplace : st.rxChunks[id]? = none → st.rxChunks.size ≤ 3) :
    Accounted (st.retainFragment ctx id index total bytes).1 :=
  ⟨h.toChunkInv.retainFragment htotal hfree, size_retainFragment h.four hplace⟩

theorem Keeps.fragmentCost (h : Keeps id st st') (total payloadLen : ℕ) :
    st'.fragmentCost id total payloadLen = st.fragmentCost id total payloadLen := by
  simp only [ChunkStore.fragmentCost, h.entry]

end ChunkStore

namespace ChunkRouter

open ChunkStore SideChunkAssembly

/-! ### What a reclaim keeps -/

/-- All bytes that share the budget. -/
def bytes (r : ChunkRouter) : ℕ :=
  r.receivedQueue.curBytes + r.transmitQueue.curBytes + r.sideChunkBytesUsed + r.protectedMetadata +
    r.codecReservedBytes

theorem sharedQueueBytesUsed_eq (r : ChunkRouter) : r.sharedQueueBytesUsed = min r.bytes usizeMax := by
  simp only [sharedQueueBytesUsed, satAdd, bytes]
  omega

@[simp] theorem setSide_getElem? (r : ChunkRouter) (side k : ℕ) (st : ChunkStore) :
    (r.setSide side st).sideTransport[k]? = if side = k then some st else r.sideTransport[k]? :=
  getElem?_insert_eq _ _ _ _

variable {r : ChunkRouter} {side : ℕ} {st : ChunkStore}

theorem setSide_self (h : r.sideTransport[side]? = some st) : r.setSide side st = r := by
  have hsame : r.sideTransport.insert side st = r.sideTransport := by
    apply ExtTreeMap.ext_getElem?
    intro k
    rw [getElem?_insert_eq]
    split
    · rename_i heq
      rw [← heq, h]
    · rfl
  rw [setSide, hsame]

/-- `r'` has lost rows and assemblies of `r`, but none of transfer `id` of `side`. -/
structure Reduces (side id : ℕ) (r r' : ChunkRouter) : Prop where
  own : ∀ st, r.sideTransport[side]? = some st →
    ∃ ids, r'.sideTransport[side]? = some (st.reclaim id ids)
  sides : ∀ (k : ℕ) st', r'.sideTransport[k]? = some st' →
    ∃ st, r.sideTransport[k]? = some st ∧ ChunkStore.Shrinks st st'
  bytes : r'.bytes ≤ r.bytes

theorem Reduces.refl (side id : ℕ) (r : ChunkRouter) : Reduces side id r r :=
  ⟨fun _ h => ⟨[], h⟩, fun _ st h => ⟨st, h, .refl st⟩, Nat.le_refl _⟩

variable {id : ℕ}

theorem Reduces.trans {r₁ r₂ r₃ : ChunkRouter} (h : Reduces side id r₁ r₂) (h' : Reduces side id r₂ r₃) :
    Reduces side id r₁ r₃ := by
  refine ⟨fun st hst => ?_, fun k st₃ hst => ?_, Nat.le_trans h'.bytes h.bytes⟩
  · obtain ⟨ids, hst₂⟩ := h.own st hst
    obtain ⟨ids', hst₃⟩ := h'.own _ hst₂
    exact ⟨ids ++ ids', by rw [hst₃, ChunkStore.reclaim_append]⟩
  · obtain ⟨st₂, hst₂, hshrinks'⟩ := h'.sides k st₃ hst
    obtain ⟨st₁, hst₁, hshrinks⟩ := h.sides k st₂ hst₂
    exact ⟨st₁, hst₁, hshrinks.trans hshrinks'⟩

variable {index : ℕ}

theorem removePos_bytes {q q' : QueueRows} (h : q.removePos index = some q') :
    q'.curBytes ≤ q.curBytes ∧ q'.costs.length < q.costs.length := by
  obtain ⟨cost, hcost, rfl⟩ := Option.map_eq_some_iff.mp h
  have hlt := (List.getElem?_eq_some_iff.mp hcost).1
  refine ⟨Nat.sub_le _ _, ?_⟩
  rw [List.length_eraseIdx_of_lt hlt]
  omega

variable {r' : ChunkRouter}

theorem removeRow_spec (side id : ℕ) {row : RouterQueueKind × ℕ} (h : r.removeRow row = some r') :
    Reduces side id r r' ∧ r'.load < r.load := by
  obtain ⟨kind, index⟩ := row
  have hsides : r'.sideTransport = r.sideTransport → r'.bytes ≤ r.bytes → Reduces side id r r' := by
    intro hsame hbytes
    refine ⟨fun st hst => ⟨[], by rwa [hsame]⟩, fun k st hst => ⟨st, by rwa [hsame] at hst, .refl st⟩, hbytes⟩
  cases kind with
  | received | transmit =>
    obtain ⟨q, hq, rfl⟩ := Option.map_eq_some_iff.mp h
    obtain ⟨hbytes, hrows⟩ := removePos_bytes hq
    refine ⟨hsides rfl ?_, ?_⟩
    · simp only [bytes, sideChunkBytesUsed]
      omega
    · simp only [load]
      omega

theorem bytes_setSide (hst : r.sideTransport[side]? = some st)
    (st' : ChunkStore) : (r.setSide side st').bytes + st.rxChunkBytes = r.bytes + st'.rxChunkBytes := by
  simp only [bytes, sideChunkBytesUsed, setSide, sumValues_insert, sumValues_of_some ChunkStore.rxChunkBytes hst]
  omega

theorem load_setSide (hst : r.sideTransport[side]? = some st)
    (st' : ChunkStore) : (r.setSide side st').load + st.rxChunks.size = r.load + st'.rxChunks.size := by
  simp only [load, setSide, sumValues_insert, sumValues_of_some (fun st => st.rxChunks.size) hst]
  omega

variable {k : ℕ}

theorem reduces_setSide {st' : ChunkStore} (hst : r.sideTransport[k]? = some st)
    (hshrinks : ChunkStore.Shrinks st st') (hbytes : st'.rxChunkBytes ≤ st.rxChunkBytes)
    (hown : k = side → ∃ ids, st' = st.reclaim id ids) : Reduces side id r (r.setSide k st') := by
  refine ⟨fun own hside => ?_, fun j other hj => ?_, ?_⟩
  · by_cases hk : k = side
    · subst hk
      rw [hst] at hside
      cases hside
      obtain ⟨ids, rfl⟩ := hown rfl
      exact ⟨ids, by simp⟩
    · exact ⟨[], by rw [setSide_getElem?, if_neg hk, hside]; rfl⟩
  · rw [setSide_getElem?] at hj
    split at hj
    · rename_i hkj
      subst hkj
      cases hj
      exact ⟨st, hst, hshrinks⟩
    · exact ⟨other, hj, .refl other⟩
  · have hsum := bytes_setSide hst st'
    omega

theorem discardSideChunk_spec {victim : ℕ} (h : r.discardSideChunk k victim = some r')
    (hne : (k, victim) ≠ (side, id)) : Reduces side id r r' ∧ r'.load < r.load := by
  unfold discardSideChunk at h
  split at h
  · cases h
  rename_i st hst
  split at h
  · rename_i hmem
    cases h
    refine ⟨reduces_setSide hst (ChunkStore.shrinks_remove st victim) (rxChunkBytes_remove_le st victim) ?_, ?_⟩
    · intro hk
      have hother : victim ≠ id := fun heq => hne (by rw [hk, heq])
      exact ⟨[victim], by simp [ChunkStore.reclaim, hother]⟩
    · obtain ⟨a, ha⟩ := mem_iff_exists.mp hmem
      have hsize : (st.remove victim).rxChunks.size < st.rxChunks.size := by
        have hpos := size_pos_of_some ha
        simp only [ChunkStore.remove, ha, size_erase_of_mem hmem]
        omega
      have hload := load_setSide hst (st.remove victim)
      omega
  · cases h

/-- One step of the scan keeps its victim, or finds another transfer than the one that is kept. -/
theorem olderSide_cases (keep : ℕ × ℕ) (victim : Option ((ℕ × ℕ) × ℕ)) (entry : ℕ × ChunkStore) :
    (olderSide (some keep) victim entry = victim ∧
        (victim = none → ∀ own ∈ entry.2.rxChunks, (entry.1, own) = keep)) ∨
      ∃ own seen, olderSide (some keep) victim entry = some ((entry.1, own), seen) ∧ (entry.1, own) ≠ keep ∧
        own ∈ entry.2.rxChunks := by
  unfold olderSide
  split
  · rename_i hnone
    refine .inl ⟨rfl, fun _ own hown => ?_⟩
    have hkeep := oldest_none (Option.map_eq_none_iff.mpr hnone) own hown
    simp only [preserved, Option.bind_some, Option.ite_none_right_eq_some, Option.some.injEq] at hkeep
    exact Prod.ext hkeep.1.symm hkeep.2.symm
  · rename_i own seen hseen
    split
    · refine .inr ⟨own, seen, rfl, ?_⟩
      obtain ⟨hne, hmem⟩ := oldestSeen_some hseen
      refine ⟨?_, hmem⟩
      rintro rfl
      exact hne (by simp [preserved])
    · rename_i hold
      refine .inl ⟨rfl, fun hnone => absurd ?_ hold⟩
      rw [hnone]
      rfl

theorem foldl_olderSide (keep : ℕ × ℕ) (entries : List (ℕ × ChunkStore)) : ∀ victim,
    (entries.foldl (olderSide (some keep)) victim = none →
      victim = none ∧ ∀ entry ∈ entries, ∀ own ∈ entry.2.rxChunks, (entry.1, own) = keep) ∧
    ∀ v, entries.foldl (olderSide (some keep)) victim = some v →
      victim = some v ∨ v.1 ≠ keep ∧ ∃ entry ∈ entries, entry.1 = v.1.1 ∧ v.1.2 ∈ entry.2.rxChunks := by
  induction entries with
  | nil => simp
  | cons entry rest ih =>
    intro victim
    obtain ⟨hnone, hsome⟩ := ih (olderSide (some keep) victim entry)
    rcases olderSide_cases keep victim entry with ⟨hsame, hown⟩ | ⟨own, seen, hfound, hne, hmem⟩
    · rw [hsame] at hnone hsome
      rw [List.foldl_cons, hsame]
      refine ⟨fun h => ?_, fun v h => ?_⟩
      · obtain ⟨hvictim, hrest⟩ := hnone h
        exact ⟨hvictim, List.forall_mem_cons.mpr ⟨hown hvictim, hrest⟩⟩
      · exact (hsome v h).imp_right fun ⟨hv, e, he, hv'⟩ => ⟨hv, e, List.mem_cons_of_mem _ he, hv'⟩
    · rw [hfound] at hnone hsome
      rw [List.foldl_cons, hfound]
      refine ⟨fun h => ?_, fun v h => ?_⟩
      · cases (hnone h).1
      · right
        rcases hsome v h with heq | ⟨hv, e, he, hv'⟩
        · cases heq
          exact ⟨hne, entry, List.mem_cons_self, rfl, hmem⟩
        · exact ⟨hv, e, List.mem_cons_of_mem _ he, hv'⟩

theorem reclaimOldestSideChunk_spec
    (h : r.reclaimOldestSideChunk (some (side, id)) = some r') : Reduces side id r r' ∧ r'.load < r.load := by
  unfold reclaimOldestSideChunk at h
  split at h
  · cases h
  rename_i k victim seen hfold
  rcases (foldl_olderSide _ _ none).2 _ hfold with hnone | ⟨hne, -⟩
  · cases hnone
  · exact discardSideChunk_spec h hne

/-- When no assembly can be reclaimed there is none but the one that is kept. -/
theorem reclaimOldestSideChunk_none (h : r.reclaimOldestSideChunk (some (side, id)) = none)
    (hst : r.sideTransport[k]? = some st) : ∀ own ∈ st.rxChunks, (k, own) = (side, id) := by
  unfold reclaimOldestSideChunk at h
  split at h
  · rename_i hfold
    exact ((foldl_olderSide _ _ none).1 hfold).2 (k, st) (ExtTreeMap.mem_toList_iff_getElem?_eq_some.mpr hst)
  · -- a victim is an assembly, so it can be discarded
    rename_i k' victim seen hfold
    rcases (foldl_olderSide _ _ none).2 _ hfold with hnone | ⟨-, ⟨k', st'⟩, hentry, rfl, hmem⟩
    · cases hnone
    rw [discardSideChunk, ExtTreeMap.mem_toList_iff_getElem?_eq_some.mp hentry] at h
    dsimp only at h
    rw [if_pos hmem] at h
    cases h

variable {row : ChunkRouter → Option (RouterQueueKind × ℕ)}

theorem reclaimRowOrChunk_spec
    (h : reclaimRowOrChunk row (side, id) r = some r') : Reduces side id r r' ∧ r'.load < r.load := by
  rcases Option.or_eq_some_iff.mp h with hrow | ⟨-, hchunk⟩
  · obtain ⟨victim, -, hremove⟩ := Option.bind_eq_some_iff.mp hrow
    exact removeRow_spec side id hremove
  · exact reclaimOldestSideChunk_spec hchunk

theorem reduces_reclaimWhile (pressed : ChunkRouter → Bool) (row : ChunkRouter → Option (RouterQueueKind × ℕ))
    (side id rounds : ℕ) (r : ChunkRouter) :
    Reduces side id r (reclaimWhile pressed (reclaimRowOrChunk row (side, id)) rounds r).1 :=
  reclaimWhile_related (Reduces.refl side id) (fun _ _ _ => Reduces.trans)
    (fun _ _ h => (reclaimRowOrChunk_spec h).1) rounds r

/-! ### One side of the router -/

/-- The frame that a fragment completed. -/
def FragmentOutcome.frame : FragmentOutcome → Option Bytes
  | .assembled frame => some frame
  | _ => none

section Refines

variable (ctx : FragmentContext) (index total : ℕ)

/-- The side makes room as a store on its own, with what the router reclaims as the answers. -/
theorem makeSideChunkRoom_refines (hst : r.sideTransport[side]? = some st) (id payloadLen : ℕ) :
    ∃ budget queue st', (r.makeSideChunkRoom ctx side id index total payloadLen).1.sideTransport[side]? = some st' ∧
      ∀ fragment, st.makeSideChunkRoom (ctx.chunkContext budget queue fragment) id index total payloadLen =
        (st', (r.makeSideChunkRoom ctx side id index total payloadLen).2) := by
  refine ⟨r.sideChunkAdmissionBudget r.protectedMetadata - r.protectedMetadata, ?_⟩
  unfold makeSideChunkRoom ChunkStore.makeSideChunkRoom
  rw [hst]
  dsimp only [FragmentContext.chunkContext]
  rcases st.prepareRoom id index total payloadLen _ with ⟨st₁, e | cost⟩
  · exact ⟨([], true), _, by simp, fun _ => rfl⟩
  dsimp only
  split
  · exact ⟨([], true), _, by simp, fun _ => rfl⟩
  obtain ⟨ids, hids⟩ := (reduces_reclaimWhile _ ctx.bulkVictim side id _ _).own _
    ((setSide_getElem? ..).trans (if_pos rfl))
  exact ⟨(ids, _), _, hids, fun _ => rfl⟩

theorem retainFragment_refines (hst : r.sideTransport[side]? = some st) (id : ℕ) (payload : Bytes) :
    (r.retainFragment ctx side id index total payload).1.sideTransport[side]? =
        some (st.retainFragment ctx.toAssemblyContext id index total payload).1 ∧
      (r.retainFragment ctx side id index total payload).2.toOption.map FragmentOutcome.frame =
        (st.retainFragment ctx.toAssemblyContext id index total payload).2.toOption := by
  unfold retainFragment
  rw [hst]
  dsimp only
  rcases st.retainFragment ctx.toAssemblyContext id index total payload with ⟨st', e | _ | frame⟩ <;>
    exact ⟨by simp, rfl⟩

/-- **The two levels agree**: the router changes a side, and assembles a frame, as the store of the side does
on its own when what the router reclaims is what it is answered. -/
theorem decodeChunk_refines (hst : r.sideTransport[side]? = some st) (body : Bytes) : ∃ budget queue fragment,
    (r.decodeChunk ctx side body).1.sideTransport[side]? =
        some (st.decodeChunk (ctx.chunkContext budget queue fragment) body).1 ∧
      (r.decodeChunk ctx side body).2.toOption.map FragmentOutcome.frame =
        (st.decodeChunk (ctx.chunkContext budget queue fragment) body).2.toOption := by
  unfold decodeChunk ChunkStore.decodeChunk
  split
  · exact ⟨0, ([], true), ([], true), hst, rfl⟩
  dsimp only
  split
  · exact ⟨0, ([], true), ([], true), hst, rfl⟩
  obtain ⟨budget, queue, st₁, hst₁, hroom⟩ := makeSideChunkRoom_refines ctx (ofLe ((body.drop 4).take 2))
    (ofLe ((body.drop 6).take 2)) hst (ofLe (body.take 4)) (body.drop 8).length
  refine ⟨budget, queue, ?_⟩
  simp only [hroom]
  revert hst₁
  rcases r.makeSideChunkRoom ctx side _ _ _ _ with ⟨r₁, e | u⟩ <;> intro hst₁
  · exact ⟨([], true), hst₁, rfl⟩
  dsimp only [admitFragment]
  rw [hst₁]
  dsimp only [Option.bind_some]
  split
  · exact ⟨([], true), hst₁, rfl⟩
  obtain ⟨ids, hids⟩ := (reduces_reclaimWhile _ ctx.lowestRow side _ _ _).own _ hst₁
  split
  · cases ctx.retainedFragment _ with
    | error e => exact ⟨(ids, false), hids, rfl⟩
    | ok u =>
      have hretain := retainFragment_refines ctx (ofLe ((body.drop 4).take 2)) (ofLe ((body.drop 6).take 2)) hids
        (ofLe (body.take 4)) (body.drop 8)
      exact ⟨(ids, true), hretain⟩
  · exact ⟨(ids, false), hids, rfl⟩

end Refines

/-! ### Every step -/

/-- Every side is accounted for. -/
def Inv (r : ChunkRouter) : Prop :=
  ∀ (side : ℕ) st, r.sideTransport[side]? = some st → Accounted st

theorem Inv.setSide (h : Inv r) (side : ℕ) (hst : Accounted st) : Inv (r.setSide side st) := by
  intro k st' hk
  rw [setSide_getElem?] at hk
  split at hk
  · cases hk
    exact hst
  · exact h k st' hk

theorem Inv.reduces (h : Inv r) (hr : Reduces side id r r') : Inv r' := by
  intro k st' hk
  obtain ⟨st, hst, hshrinks⟩ := hr.sides k st' hk
  exact (h k st hst).shrinks hshrinks

/-- A fragment is new, and there is a place for its transfer. -/
structure Expected (side id index total : ℕ) (r : ChunkRouter) (st : ChunkStore) : Prop where
  inv : Inv r
  here : r.sideTransport[side]? = some st
  sameTotal : st.TotalFits id total
  free : (st.entry id).containsIndex index = false
  place : st.rxChunks[id]? = none → st.rxChunks.size ≤ 3

/-- It also has room in the budget. -/
structure Admissible (budget side id index total payloadLen : ℕ) (r : ChunkRouter) (st : ChunkStore) : Prop
    extends Expected side id index total r st where
  room : min (r.bytes + st.fragmentCost id total payloadLen) usizeMax ≤ budget

variable {total : ℕ}

theorem Expected.reduces (h : Expected side id index total r st) (hr : Reduces side id r r') :
    ∃ st', Expected side id index total r' st' ∧ Keeps id st st' := by
  obtain ⟨ids, hst'⟩ := hr.own st h.here
  have hkeeps := ChunkStore.keeps_reclaim id ids st
  refine ⟨_, ⟨h.inv.reduces hr, hst', hkeeps.totalFits h.sameTotal, ?_, ?_⟩, hkeeps⟩
  · rw [hkeeps.entry]
    exact h.free
  · intro hnone
    rw [hkeeps.own] at hnone
    exact Nat.le_trans hkeeps.toShrinks.size_le (h.place hnone)

variable {budget : ℕ}

theorem Admissible.reduces {payloadLen : ℕ}
    (h : Admissible budget side id index total payloadLen r st) (hr : Reduces side id r r') :
    ∃ st', Admissible budget side id index total payloadLen r' st' := by
  obtain ⟨st', hst', hkeeps⟩ := h.toExpected.reduces hr
  refine ⟨st', hst', ?_⟩
  have hbytes := hr.bytes
  have hroom := h.room
  rw [hkeeps.fragmentCost]
  omega

/-- Every side stays accounted for, an accepted fragment is within the budget, and a retry changes
nothing. -/
structure Spends (budget : ℕ) (r : ChunkRouter) (out : ChunkRouter × TelemetryResult FragmentOutcome) : Prop where
  inv : Inv out.1
  used : accepted out.2 = true → out.1.sharedQueueBytesUsed ≤ budget
  retry : out.2 = .ok .retry → out.1 = r

variable {payload : Bytes}

theorem retainFragment_spec (ctx : FragmentContext) (h : Admissible budget side id index total payload.length r st)
    (r₀ : ChunkRouter) : Spends budget r₀ (r.retainFragment ctx side id index total payload) := by
  have hstore : Accounted (st.retainFragment ctx.toAssemblyContext id index total payload).1 :=
    (h.inv side st h.here).retainFragment h.sameTotal h.free h.place
  have hbytes : (st.retainFragment ctx.toAssemblyContext id index total payload).1.rxChunkBytes ≤
      st.rxChunkBytes + st.fragmentCost id total payload.length :=
    rxChunkBytes_retainFragment (h.inv side st h.here).toChunkInv h.sameTotal h.free
  generalize hkept : st.retainFragment ctx.toAssemblyContext id index total payload = kept at hstore hbytes
  obtain ⟨out, hstate, hretry⟩ : ∃ out, r.retainFragment ctx side id index total payload =
      (r.setSide side kept.1, out) ∧ out ≠ .ok .retry := by
    simp only [ChunkRouter.retainFragment, h.here, hkept]
    split <;> exact ⟨_, rfl, nofun⟩
  rw [hstate]
  refine ⟨h.inv.setSide side hstore, fun _ => ?_, fun hout => absurd hout hretry⟩
  have hsum := bytes_setSide h.here kept.1
  have hroom := h.room
  rw [sharedQueueBytesUsed_eq]
  dsimp only
  omega

theorem admitFragment_spec (ctx : FragmentContext) (h : Admissible budget side id index total payload.length r st)
    (r₀ : ChunkRouter) : Spends budget r₀ (r.admitFragment ctx side id index total payload) := by
  have hfree : ¬ (r.sideTransport[side]?.bind (·.rxChunks[id]?)).any (·.containsIndex index) = true := by
    simp [h.here, any_containsIndex, h.free]
  rw [admitFragment, if_neg hfree]
  simp only
  generalize hdone : reclaimWhile (fun r => decide (errorOf (ctx.retainedFragment r) = some (.io "memory pressure")))
    (reclaimRowOrChunk ctx.lowestRow (side, id)) (r.load + 1) r = done
  have hreduces : Reduces side id r done.1 := by
    rw [← hdone]
    exact reduces_reclaimWhile _ ctx.lowestRow side id _ r
  obtain ⟨st', hst'⟩ := h.reduces hreduces
  split
  · split
    · exact ⟨hst'.inv, nofun, nofun⟩
    · exact retainFragment_spec ctx hst' r₀
  · exact ⟨hst'.inv, nofun, nofun⟩

/-- The loop of `make_side_chunk_room` ends with room in the budget, or refuses the fragment. -/
theorem Expected.admits
    (h : Expected side id index total r st) (budget payloadLen : ℕ) (row : ChunkRouter → Option (RouterQueueKind × ℕ))
    (rounds : ℕ) {done : ChunkRouter × Bool} (hdone : reclaimWhile
      (fun r => decide (budget < satAdd r.sharedQueueBytesUsed (st.fragmentCost id total payloadLen)))
      (reclaimRowOrChunk row (side, id)) rounds r = done) :
    Inv done.1 ∧ (done.2 = true → ∃ st', Admissible budget side id index total payloadLen done.1 st') := by
  subst hdone
  obtain ⟨last, hlast, hkept⟩ := h.reduces (reduces_reclaimWhile
    (fun r => decide (budget < satAdd r.sharedQueueBytesUsed (st.fragmentCost id total payloadLen))) row side id rounds r)
  refine ⟨hlast.inv, fun htrue => ⟨last, hlast, ?_⟩⟩
  have hcalm := reclaimWhile_true htrue
  rw [decide_eq_false_iff_not, sharedQueueBytesUsed_eq, satAdd] at hcalm
  rw [hkept.fragmentCost]
  omega

/-- What `make_side_chunk_room` leaves behind: a retry and the state as it was, or an admissible
fragment. -/
theorem makeSideChunkRoom_admits (ctx : FragmentContext) (h : Inv r) (side id index total payloadLen : ℕ)
    {room : ChunkRouter × TelemetryResult Unit} (hmake : r.makeSideChunkRoom ctx side id index total payloadLen = room) :
    Inv room.1 ∧ (room.2 = .ok () → ∃ st,
      (room.1 = r ∧ r.sideTransport[side]? = some st ∧ (st.entry id).containsIndex index = true) ∨
        Admissible (r.sideChunkAdmissionBudget r.protectedMetadata) side id index total payloadLen room.1 st) := by
  subst hmake
  unfold makeSideChunkRoom
  cases hside : r.sideTransport[side]? with
  | none => exact ⟨h, fun hok => by cases hok⟩
  | some st =>
    have hst := h side st hside
    dsimp only
    rcases hroom : st.prepareRoom id index total payloadLen
      (r.sideChunkAdmissionBudget r.protectedMetadata - r.protectedMetadata) with ⟨st', e | cost⟩ <;>
      obtain ⟨hshrinks, hok⟩ := prepareRoom_spec st id index total payloadLen _ hroom
    · exact ⟨h.setSide side (hst.shrinks hshrinks), nofun⟩
    obtain ⟨hkeeps, htotal, ⟨rfl, rfl, hcontains⟩ | ⟨rfl, hfree, hplace⟩⟩ := hok cost rfl
    · simp only [if_true, setSide_self hside]
      exact ⟨h, fun _ => ⟨_, .inl ⟨trivial, rfl, hcontains⟩⟩⟩
    simp only [fragmentCost_pos, if_false]
    have hexpected : Expected side id index total (r.setSide side st') st' := by
      refine ⟨h.setSide side (hst.shrinks hshrinks), by simp, hkeeps.totalFits htotal, ?_, ?_⟩
      · rw [hkeeps.entry]
        exact hfree
      · intro hnone
        rw [hkeeps.own] at hnone
        exact hplace hnone hst.four
    rw [← hkeeps.fragmentCost total payloadLen]
    obtain ⟨hinv, hadmits⟩ := hexpected.admits (r.sideChunkAdmissionBudget r.protectedMetadata) payloadLen
      ctx.bulkVictim ((r.setSide side st').load + 1) rfl
    refine ⟨hinv, fun hok => ?_⟩
    split at hok
    · rename_i htrue
      obtain ⟨last, hlast⟩ := hadmits htrue
      exact ⟨last, .inr hlast⟩
    · cases hok

theorem decodeChunk_spec {ctx : FragmentContext} (h : Inv r) (side : ℕ) (body : Bytes) :
    Spends (r.sideChunkAdmissionBudget r.protectedMetadata) r (r.decodeChunk ctx side body) := by
  unfold decodeChunk
  split
  · exact ⟨h, nofun, nofun⟩
  simp only
  split
  · exact ⟨h, nofun, nofun⟩
  generalize ofLe (body.take 4) = id
  generalize ofLe ((body.drop 4).take 2) = index
  generalize ofLe ((body.drop 6).take 2) = total
  rcases hmake : r.makeSideChunkRoom ctx side id index total (body.drop 8).length with ⟨r', res⟩
  obtain ⟨hinv, hok⟩ := makeSideChunkRoom_admits ctx h side id index total _ hmake
  cases res with
  | error e => exact ⟨hinv, nofun, nofun⟩
  | ok _ =>
    obtain ⟨st, ⟨rfl, hhere, hcontains⟩ | hadmissible⟩ := hok rfl
    · have hretry : (r'.sideTransport[side]?.bind (·.rxChunks[id]?)).any (·.containsIndex index) = true := by
        simp only [hhere, Option.bind_some, any_containsIndex, hcontains]
      simp only [admitFragment, if_pos hretry]
      exact ⟨hinv, nofun, fun _ => rfl⟩
    · exact admitFragment_spec ctx hadmissible r

/-- **Reclaim**: the transfer at hand loses nothing; in the end the pressure is gone, or no row can be
removed and no other assembly is left. -/
theorem reclaim_ends (pressed : ChunkRouter → Bool) :
    let done := reclaimWhile pressed (reclaimRowOrChunk row (side, id)) (r.load + 1) r
    Reduces side id r done.1 ∧
      if done.2 then pressed done.1 = false
      else pressed done.1 = true ∧ (row done.1).bind done.1.removeRow = none ∧
        ∀ (k : ℕ) (st : ChunkStore), done.1.sideTransport[k]? = some st → ∀ own ∈ st.rxChunks, (k, own) = (side, id) := by
  refine ⟨reduces_reclaimWhile pressed row side id _ r, ?_⟩
  split
  case isTrue h => exact reclaimWhile_true h
  case isFalse h =>
    obtain ⟨hpressed, hnone⟩ := reclaimWhile_false (fun _ _ hr => (reclaimRowOrChunk_spec hr).2) (Nat.lt_succ_self _)
      (eq_false_of_ne_true h)
    obtain ⟨hrow, hchunk⟩ := Option.or_eq_none_iff.mp hnone
    exact ⟨hpressed, hrow, fun _ _ => reclaimOldestSideChunk_none hchunk⟩

theorem Inv.step (h : Inv r) (env : WireEnv) (e : Event) : Inv (r.step env e) := by
  cases e with
  | addSide side => exact h.setSide side accounted_initial
  | removeSide side =>
    intro k st hk
    exact h k st (getElem?_of_erase hk).2
  | expire nowMs =>
    intro k st hk
    simp only [ChunkRouter.step, ExtTreeMap.getElem?_map] at hk
    obtain ⟨old, hold, rfl⟩ := Option.map_eq_some_iff.mp hk
    exact (h k old hold).shrinks (shrinks_expireSideChunks nowMs old)
  | evict side id =>
    simp only [ChunkRouter.step]
    cases hdiscard : r.discardSideChunk side id with
    | none => exact h
    | some r' =>
      have hother : (side, id) ≠ (side, id + 1) := by simp
      exact h.reduces (discardSideChunk_spec hdiscard hother).1
  | frame ctx side bytes =>
    simp only [ChunkRouter.step]
    split
    · split
      · exact (decodeChunk_spec h side _).1
      · exact h
    · exact h
  | elsewhere => exact h

/-- In every state that a router reaches, the byte count of each side is the sum of the costs of its
assemblies, of which there are at most four; a fragment that is accepted in such a state leaves the
shared usage within the admission budget of that state, and a retry leaves everything as it was. -/
theorem chunk_accounting (env : WireEnv) (es : List Event) :
    (∀ (side : ℕ) (st : ChunkStore), (run (step env) start es).sideTransport[side]? = some st →
      st.rxChunkBytes = sumValues byteCost st.rxChunks ∧ st.rxChunks.size ≤ 4) ∧
    ∀ (ctx : FragmentContext) (side : ℕ) (body : Bytes),
      (accepted ((run (step env) start es).decodeChunk ctx side body).2 = true →
        ((run (step env) start es).decodeChunk ctx side body).1.sharedQueueBytesUsed ≤
          (run (step env) start es).sideChunkAdmissionBudget (run (step env) start es).protectedMetadata) ∧
      (((run (step env) start es).decodeChunk ctx side body).2 = .ok .retry →
        ((run (step env) start es).decodeChunk ctx side body).1 = run (step env) start es) := by
  have hstart : Inv start := by
    intro side st h
    simp [start] at h
  have hinv : Inv (run (step env) start es) := run_always (fun _ e h => h.step env e) hstart es
  refine ⟨fun side st hst => ⟨(hinv side st hst).bytes, (hinv side st hst).four⟩, fun ctx side body => ?_⟩
  exact ⟨(decodeChunk_spec hinv side body).used, (decodeChunk_spec hinv side body).retry⟩

/-- A context without pressure on memory. -/
def calmContext : FragmentContext where
  nowMs := 5
  bulkVictim := fun _ => none
  lowestRow := fun _ => none
  retainedFragment := fun _ => .ok ()
  probe := .absent
  reserves := fun _ => true

/-- One side, and a budget that rows of 300 bytes share with it. -/
def oneSide : List Event := [.addSide 0, .elsewhere ⟨[300], 300⟩ ⟨[], 0⟩ 0 0 1000 64 200]

/-- The first of two chunks of a transfer, with three bytes. -/
def firstChunk : Bytes := [7, 0, 0, 0, 0, 0, 2, 0, 1, 2, 3]

/-- It is accepted and costs its bytes, the overhead and two descriptors. -/
theorem chunk_accounting_first :
    accepted ((run (step (plainEnv ⟨[], [], 0, 0⟩)) start oneSide).decodeChunk calmContext 0 firstChunk).2 = true ∧
      ((run (step (plainEnv ⟨[], [], 0, 0⟩)) start oneSide).decodeChunk calmContext 0 firstChunk).1.sharedQueueBytesUsed =
        300 + (3 + 48 + 32) ∧
      ((run (step (plainEnv ⟨[], [], 0, 0⟩)) start oneSide).decodeChunk calmContext 0 firstChunk).1.sharedQueueBytesUsed ≤
        1000 - 64 := by
  have haccepted : accepted
      ((run (step (plainEnv ⟨[], [], 0, 0⟩)) start oneSide).decodeChunk calmContext 0 firstChunk).2 = true := by
    decide +kernel
  refine ⟨haccepted, by decide +kernel, ?_⟩
  exact ((chunk_accounting (plainEnv ⟨[], [], 0, 0⟩) oneSide).2 calmContext 0 firstChunk).1 haccepted

end ChunkRouter

end SedsNet
