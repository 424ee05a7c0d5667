import SedsNet.OrderedMap
import SedsNet.Runs
import SedsNet.SideFraming

/-! # Chunked side-transport frames

A frame that does not fit a link is split into chunks (`SideTransportFrames::split`), and the
receiver collects them by transfer id (`SideChunkAssembly`, `make_side_chunk_room` and the chunk
branch of `decode_side_transport_frame`).

Sizes are sums over bytes held in memory, so the saturating sums of the source are plain sums here.
What the rest of the router decides during a call (queue room, which other assemblies it reclaims)
is part of the call's `ChunkContext`.  `ChunkInv` ties the byte count to the assemblies kept; the
main result is `chunk_transfer`. -/

namespace SedsNet

open ByteWords OrderedMap Runs List
open Std (ExtTreeMap LawfulEqOrd)

/-! ### Splitting -/

/-- `usize::div_ceil`. -/
def divCeil (a b : ℕ) : ℕ := if a % b = 0 then a / b else a / b + 1

/-- `SIDE_TRANSPORT_CHUNK_OVERHEAD`. -/
def sideTransportChunkOverhead : ℕ := 3 + 1 + 4 + 2 + 2 + crc32Bytes

/-- The two halves of a hash folded to a nonzero identity. -/
def foldHash (hash : UInt64) : UInt32 := max ((hash >>> 32).toUInt32 ^^^ hash.toUInt32) 1

/-- `SideTransportFrames`. -/
structure SideTransportFrames where
  frame : Bytes
  payloadBudget : ℕ
  transferId : UInt32
  index : ℕ
  total : ℕ
deriving DecidableEq

namespace SideTransportFrames

def single (frame : Bytes) : SideTransportFrames := ⟨frame, 0, 0, 0, 1⟩

def split (frame : Bytes) (maxFrameBytes : ℕ) (sender : Bytes) : TelemetryResult SideTransportFrames :=
  if maxFrameBytes ≤ sideTransportChunkOverhead then .error .badArg
  else
    let payloadBudget := maxFrameBytes - sideTransportChunkOverhead
    let total := divCeil frame.length payloadBudget
    if 65535 < total then .error (.packetTooLarge "too many chunks")
    else
      let seed := hashBytesU64 0x517CC1B727220A95 sender
      let hash := hashBytesU64 seed frame
      .ok ⟨frame, payloadBudget, foldHash hash, 0, total⟩

/-- The payload of the chunk at `index`. -/
def slice (t : SideTransportFrames) (index : ℕ) : Bytes :=
  (t.frame.drop (index * t.payloadBudget)).take t.payloadBudget

/-- The number of the transfer as the receiver reads it. -/
abbrev key (t : SideTransportFrames) : ℕ := t.transferId.toNat

/-- The slices in order. -/
abbrev content (t : SideTransportFrames) : Bytes := ((List.range t.total).map t.slice).flatten

/-- The body of the chunk at `index`. -/
def chunkBody (t : SideTransportFrames) (index : ℕ) : Bytes :=
  leBytes 4 t.transferId.toNat ++ leBytes 2 index ++ leBytes 2 t.total ++ t.slice index

/-- `Iterator::next`. -/
def next (env : WireEnv) (t : SideTransportFrames) : Option (Bytes × SideTransportFrames) :=
  if t.index = t.total then none
  else if t.payloadBudget = 0 then some (t.frame, { t with index := t.index + 1 })
  else
    some (wrapSideTransportFrame env sideTransportKindChunk (t.chunkBody t.index),
      { t with index := t.index + 1 })

/-- The frames the iterator yields in `rounds` calls. -/
def collect (env : WireEnv) : (rounds : ℕ) → SideTransportFrames → List Bytes
  | 0, _ => []
  | rounds + 1, t =>
    match t.next env with
    | none => []
    | some (frame, t') => frame :: collect env rounds t'

/-- Everything the iterator yields. -/
def frames (env : WireEnv) (t : SideTransportFrames) : List Bytes := t.collect env (t.total - t.index)

end SideTransportFrames

/-! ### Assemblies -/

/-- What the rest of the router answers to an assembly. -/
structure AssemblyContext where
  nowMs : ℕ
  probe : AdmissionProbe
  /-- `try_reserve_exact`. -/
  reserves : ℕ → Bool

/-- What the rest of the router answers while a frame is decoded. -/
structure ChunkContext extends AssemblyContext where
  /-- The receive budget of `make_side_chunk_room`. -/
  budget : ℕ
  /-- The other assemblies of the side reclaimed for the shared queue, and whether that made room. -/
  queueReclaims : List ℕ
  queueRoom : Bool
  /-- The same for `check_retained_fragment`. -/
  fragmentReclaims : List ℕ
  fragmentRoom : Bool

/-- `SideChunkAssembly`. -/
structure SideChunkAssembly where
  lastSeenMs : ℕ
  total : ℕ
  received : List (Option Bytes)
  receivedCount : ℕ

namespace SideChunkAssembly

/-- `Default::default`. -/
def empty : SideChunkAssembly := ⟨0, 0, [], 0⟩

def fragmentOverhead : ℕ := 48

/-- A descriptor is a shared slice, two words. -/
def descriptorBytes (total : ℕ) : ℕ := total * 16

def containsIndex (a : SideChunkAssembly) (index : ℕ) : Bool := (a.received.getD index none).isSome

/-- The payload bytes held. -/
def payloadBytes (received : List (Option Bytes)) : ℕ :=
  (received.map fun chunk => (chunk.getD []).length).sum

def byteCost (a : SideChunkAssembly) : ℕ :=
  payloadBytes a.received + a.receivedCount * fragmentOverhead + a.received.length * 16

/-- The descriptors, allocated at the first fragment. -/
def descriptors (a : SideChunkAssembly) : List (Option Bytes) :=
  if a.received = [] then List.replicate a.total none else a.received

/-- `insert_with`: the assembly and the bytes it grew by. -/
def insertWith (ctx : AssemblyContext) (a : SideChunkAssembly) (index : ℕ) (bytes : Bytes) :
    TelemetryResult (SideChunkAssembly × ℕ) :=
  if a.total ≤ index then .error (.unpack "invalid side chunk index")
  else if a.received ≠ [] ∧ a.received.length ≠ a.total then
    .error (.unpack "side chunk total changed")
  else if a.containsIndex index then .ok (a, 0)
  else
    let descriptorCost := if a.received = [] then descriptorBytes a.total else 0
    match
      if a.received = [] then ctx.probe.check 0 (descriptorCost + 128) (descriptorCost + 32)
      else .ok () with
    | .error e => .error e
    | .ok _ =>
      if a.received = [] ∧ ctx.reserves a.total = false then
        .error (.unpack "side chunk descriptors allocation failed")
      else
        .ok ({ a with
            received := a.descriptors.set index (some bytes)
            receivedCount := a.receivedCount + 1
            lastSeenMs := ctx.nowMs },
          bytes.length + fragmentOverhead + descriptorCost)

/-! ### Assembling -/

/-- The output buffer of `assemble`; `calls` numbers the admission checks. -/
structure Output where
  bytes : Bytes
  capacity : ℕ
  calls : ℕ

/-- The `append` closure: the buffer grows in steps when it was not allocated at once. -/
def append (ctx : AssemblyContext) (len step : ℕ) (out : Output) (bytes : Bytes) :
    TelemetryResult Output :=
  let stop := out.bytes.length + bytes.length
  if out.capacity < stop then
    let target := min (divCeil stop step * step) len
    match ctx.probe.check out.calls (max (target + 128) 1024) (target + 32) with
    | .error e => .error e
    | .ok _ =>
      if ctx.reserves (target - out.bytes.length) = false then
        .error (.unpack "side chunk assembly allocation failed")
      else .ok ⟨out.bytes ++ bytes, target, out.calls + 1⟩
  else .ok { out with bytes := out.bytes ++ bytes }

def scratchBytes : ℕ := 256

/-- The loop of `assemble`: two small fragments share one scratch buffer. -/
def copyFragments (ctx : AssemblyContext) (len step : ℕ) :
    List (Option Bytes) → Output → TelemetryResult Output
  | [], out => .ok out
  | none :: _, _ => .error (.unpack "side chunk gap")
  | some chunk :: some next :: rest, out =>
    if chunk.length ≤ scratchBytes ∧ next.length ≤ scratchBytes - chunk.length then do
      let out ← append ctx len step out (chunk ++ next)
      copyFragments ctx len step rest out
    else do
      let out ← append ctx len step out chunk
      copyFragments ctx len step (some next :: rest) out
  | some chunk :: rest, out => do
      let out ← append ctx len step out chunk
      copyFragments ctx len step rest out

/-- The fragments in the order `assemble` visits them: the last sixteen descriptors are moved to a
tail first. -/
def fragments (received : List (Option Bytes)) : List (Option Bytes) :=
  let tailCount := min received.length 16
  received.take (received.length - tailCount) ++ received.drop (received.length - tailCount)

def assemble (ctx : AssemblyContext) (a : SideChunkAssembly) : TelemetryResult Bytes :=
  if a.receivedCount ≠ a.total then .error (.unpack "side chunk gap")
  else
    let len := payloadBytes a.received
    let eager := (ctx.probe.check 1 (len + 512) (len + 32)).isOk
    let step := max (divCeil len 8) 128
    if eager = true ∧ ctx.reserves len = false then
      .error (.unpack "side chunk assembly allocation failed")
    else do
      let out ← copyFragments ctx len step (fragments a.received) ⟨[], if eager then len else 0, 2⟩
      return out.bytes

/-- One step of the scan in `oldest`. -/
def older (keep : Option ℕ) (victim : Option (ℕ × ℕ)) (entry : ℕ × SideChunkAssembly) :
    Option (ℕ × ℕ) :=
  if keep ≠ some entry.1 ∧ victim.all (fun v => decide (entry.2.lastSeenMs < v.2)) then
    some (entry.1, entry.2.lastSeenMs)
  else victim

/-- `oldest` with the time. -/
def oldestSeen (chunks : ExtTreeMap ℕ SideChunkAssembly) (keep : Option ℕ) : Option (ℕ × ℕ) :=
  chunks.toList.foldl (older keep) none

/-- `oldest`: the assembly, other than `keep`, that has been idle longest. -/
def oldest (chunks : ExtTreeMap ℕ SideChunkAssembly) (keep : Option ℕ) : Option ℕ :=
  (oldestSeen chunks keep).map Prod.fst

end SideChunkAssembly

/-! ### The store of a side -/

/-- The chunk part of `SideTransportState`. -/
structure ChunkStore where
  rxChunks : ExtTreeMap ℕ SideChunkAssembly
  rxChunkBytes : ℕ

namespace ChunkStore

open SideChunkAssembly

def initial : ChunkStore := ⟨∅, 0⟩

/-- `SideChunkAssembly::remove`. -/
def remove (st : ChunkStore) (id : ℕ) : ChunkStore :=
  match st.rxChunks[id]? with
  | none => st
  | some a => ⟨st.rxChunks.erase id, st.rxChunkBytes - a.byteCost⟩

/-- `expire`: one assembly a round. -/
def expire (nowMs : ℕ) : (rounds : ℕ) → ChunkStore → ChunkStore
  | 0, st => st
  | rounds + 1, st =>
    match st.rxChunks.toList.find? fun p => decide (2000 < nowMs - p.2.lastSeenMs) with
    | none => st
    | some (id, _) => expire nowMs rounds (st.remove id)

/-- `expire_side_chunks`, for this side. -/
def expireSideChunks (nowMs : ℕ) (st : ChunkStore) : ChunkStore := st.expire nowMs st.rxChunks.size

/-- The eviction loop of `make_room`: one assembly a round. -/
def evict (id cost budget : ℕ) : (rounds : ℕ) → ChunkStore → ChunkStore × TelemetryResult ℕ
  | 0, st => (st, .ok cost)
  | rounds + 1, st =>
    if budget < st.rxChunkBytes + cost then
      match oldest st.rxChunks (some id) with
      | none => (st.remove id, .error (.packetTooLarge "side chunk receive budget"))
      | some victim => evict id cost budget rounds (st.remove victim)
    else (st, .ok cost)

/-- `make_room`: the bytes the fragment will add. -/
def makeRoom (st : ChunkStore) (id index total payloadLen budget : ℕ) :
    ChunkStore × TelemetryResult ℕ :=
  let descriptorCost := if st.rxChunks[id]?.all (·.received = []) then descriptorBytes total else 0
  let cost := payloadLen + fragmentOverhead + descriptorCost
  if budget / 64 < total ∨ budget < cost then
    (st.remove id, .error (.packetTooLarge "side chunk receive budget"))
  else if st.rxChunks[id]?.any (·.containsIndex index) then (st, .ok 0)
  else st.evict id cost budget (st.rxChunks.size + 1)

/-- `reclaim_oldest_side_chunk` as far as it concerns this side. -/
def reclaim (keep : ℕ) (ids : List ℕ) (st : ChunkStore) : ChunkStore :=
  (ids.filter (· ≠ keep)).foldl remove st

/-- At most four assemblies: a fifth transfer replaces the oldest one. -/
def capAssemblies (existing : Bool) (st : ChunkStore) : ChunkStore :=
  if existing = false ∧ 4 ≤ st.rxChunks.size then
    match oldest st.rxChunks none with
    | some victim => st.remove victim
    | none => st
  else st

/-- `make_side_chunk_room` up to the room in the shared queue. -/
def prepareRoom (st : ChunkStore) (id index total payloadLen budget : ℕ) : ChunkStore × TelemetryResult ℕ :=
  let existing := st.rxChunks[id]?.map (·.total)
  if existing.any (fun old => decide (old ≠ 0 ∧ old ≠ total)) then
    (st.remove id, .error (.unpack "side chunk total mismatch"))
  else
    match st.makeRoom id index total payloadLen budget with
    | (st, .error e) => (st, .error e)
    | (st, .ok cost) => (if cost = 0 then st else st.capAssemblies existing.isSome, .ok cost)

/-- `make_side_chunk_room`. -/
def makeSideChunkRoom (ctx : ChunkContext) (st : ChunkStore) (id index total payloadLen : ℕ) :
    ChunkStore × TelemetryResult Unit :=
  match st.prepareRoom id index total payloadLen ctx.budget with
  | (st, .error e) => (st, .error e)
  | (st, .ok cost) =>
    if cost = 0 then (st, .ok ())
    else (st.reclaim id ctx.queueReclaims, if ctx.queueRoom then .ok () else .error (.io "memory pressure"))

/-- Keep a fragment, and take out the assembly it completes. -/
def retainFragment (ctx : AssemblyContext) (st : ChunkStore) (id index total : ℕ) (bytes : Bytes) :
    ChunkStore × TelemetryResult (Option Bytes) :=
  let entry := { (st.rxChunks[id]?).getD empty with total := total }
  match entry.insertWith ctx index bytes with
  | .error e => ({ st with rxChunks := st.rxChunks.insert id entry }, .error e)
  | .ok (entry, added) =>
    let st : ChunkStore := ⟨st.rxChunks.insert id entry, st.rxChunkBytes + added⟩
    if entry.receivedCount = total then (st.remove id, (entry.assemble ctx).map some)
    else (st, .ok none)

/-- The chunk branch of `decode_side_transport_frame`, up to the assembled frame. -/
def decodeChunk (ctx : ChunkContext) (st : ChunkStore) (body : Bytes) :
    ChunkStore × TelemetryResult (Option Bytes) :=
  if body.length < 8 then (st, .error (.unpack "short side chunk frame"))
  else
    let id := ofLe (body.take 4)
    let index := ofLe ((body.drop 4).take 2)
    let total := ofLe ((body.drop 6).take 2)
    let payload := body.drop 8
    if total = 0 ∨ total ≤ index then (st, .error (.unpack "invalid side chunk index"))
    else
      match st.makeSideChunkRoom ctx id index total payload.length with
      | (st, .error e) => (st, .error e)
      | (st, .ok _) =>
        -- a retry of a retained fragment
        if st.rxChunks[id]?.any (·.containsIndex index) then (st, .ok none)
        else
          let st := st.reclaim id ctx.fragmentReclaims
          if ctx.fragmentRoom = false then (st, .error (.io "memory pressure"))
          else st.retainFragment ctx.toAssemblyContext id index total payload

/-- The effect of `decode_side_transport_frame` on the chunk store, and the frame it assembles. -/
def receive (env : WireEnv) (st : ChunkStore) (ctx : ChunkContext) (bytes : Bytes) :
    ChunkStore × TelemetryResult (Option Bytes) :=
  let st := st.expireSideChunks ctx.nowMs
  match parseSideTransportWrapper env bytes with
  | .error e => (st, .error e)
  | .ok none => (st, .ok none)
  | .ok (some (kind, body)) =>
    if kind = sideTransportKindChunk then st.decodeChunk ctx body else (st, .ok none)

/-! ### The invariant of the store -/

end ChunkStore

namespace SideChunkAssembly

/-- The descriptors are not allocated or there is one for each chunk, and the count is right. -/
structure WellFormed (a : SideChunkAssembly) : Prop where
  shape : a.received = [] ∨ a.received.length = a.total
  count : a.receivedCount = a.received.countP Option.isSome

theorem wellFormed_empty : WellFormed empty := ⟨.inl rfl, rfl⟩

variable {index : ℕ} {bytes : Bytes} {received : List (Option Bytes)}

theorem payloadBytes_set (hlt : index < received.length) (hfree : received.getD index none = none) :
    payloadBytes (received.set index (some bytes)) = payloadBytes received + bytes.length := by
  induction received generalizing index with
  | nil => simp at hlt
  | cons chunk rest ih =>
    cases index with
    | zero =>
      simp only [getD_cons_zero] at hfree
      simp [payloadBytes, hfree, Nat.add_comm]
    | succ index =>
      have hrest := ih (Nat.lt_of_succ_lt_succ hlt) hfree
      simp only [payloadBytes, set_cons_succ, map_cons, sum_cons] at hrest ⊢
      omega

theorem countP_set (hlt : index < received.length) (hfree : received.getD index none = none) :
    (received.set index (some bytes)).countP Option.isSome = received.countP Option.isSome + 1 := by
  rw [List.getD_eq_getElem _ _ hlt] at hfree
  simp [List.countP_set hlt, hfree]

/-- What inserting a new fragment does. -/
structure Grown (a a' : SideChunkAssembly) (index : ℕ) (bytes : Bytes) (added : ℕ) : Prop where
  received : a'.received = a.descriptors.set index (some bytes)
  total : a'.total = a.total
  wf : a'.WellFormed
  cost : a'.byteCost = a.byteCost + added
  added_eq : added = bytes.length + fragmentOverhead + if a.received = [] then descriptorBytes a.total else 0

variable {a : SideChunkAssembly}

theorem descriptors_length (h : a.WellFormed) : a.descriptors.length = a.total := by
  unfold descriptors
  split
  · exact length_replicate
  · rename_i hne
    exact h.shape.resolve_left hne

theorem containsIndex_eq (a : SideChunkAssembly) (index : ℕ) :
    a.containsIndex index = (a.descriptors.getD index none).isSome := by
  unfold containsIndex descriptors
  split
  · rename_i hempty
    rw [hempty, getD_eq_getElem?_getD, getD_eq_getElem?_getD, List.getElem?_replicate]
    split <;> rfl
  · rfl

theorem payloadBytes_descriptors (a : SideChunkAssembly) : payloadBytes a.descriptors = payloadBytes a.received := by
  unfold descriptors
  split
  · rename_i hempty
    simp [hempty, payloadBytes]
  · rfl

theorem countP_descriptors (a : SideChunkAssembly) :
    a.descriptors.countP Option.isSome = a.received.countP Option.isSome := by
  unfold descriptors
  split
  · rename_i hempty
    simp [hempty]
  · rfl

theorem byteCost_add (bytes : Bytes) (hwf : a.WellFormed)
    (hlt : index < a.total) (hfree : a.containsIndex index = false) : a.byteCost + (bytes.length + fragmentOverhead +
        if a.received = [] then descriptorBytes a.total else 0) = payloadBytes (a.descriptors.set index (some bytes)) +
        (a.descriptors.set index (some bytes)).countP Option.isSome * fragmentOverhead + a.total * 16 := by
  have hslot : index < a.descriptors.length := by rwa [descriptors_length hwf]
  have hnone : a.descriptors.getD index none = none := by simpa [containsIndex_eq] using hfree
  rw [payloadBytes_set hslot hnone, countP_set hslot hnone, payloadBytes_descriptors,
    countP_descriptors, ← hwf.count]
  unfold byteCost descriptorBytes
  split
  · rename_i hempty
    simp only [hempty, length_nil]
    ring
  · rename_i hne
    rw [hwf.shape.resolve_left hne]
    ring

theorem insertWith_grown {ctx : AssemblyContext} {a' : SideChunkAssembly} {added : ℕ} (hwf : a.WellFormed)
    (hfree : a.containsIndex index = false)
    (h : a.insertWith ctx index bytes = .ok (a', added)) : Grown a a' index bytes added := by
  unfold insertWith at h
  split at h
  · cases h
  split at h
  · cases h
  rw [if_neg (by simp [hfree])] at h
  simp only at h
  split at h
  · cases h
  split at h
  · cases h
  obtain ⟨rfl, rfl⟩ := h
  have hslot : index < a.total := by omega
  have hnone : a.descriptors.getD index none = none := by
    simpa [containsIndex_eq] using hfree
  have hcount : a.receivedCount + 1 =
      (a.descriptors.set index (some bytes)).countP Option.isSome := by
    rw [countP_set (by rwa [descriptors_length hwf]) hnone, countP_descriptors, hwf.count]
  refine ⟨rfl, rfl, ⟨.inr ?_, hcount⟩, ?_, rfl⟩
  · simp [descriptors_length hwf]
  · rw [byteCost_add bytes hwf hslot hfree, ← hcount]
    simp [byteCost, descriptors_length hwf]

/-! ### Oldest -/

variable {keep : Option ℕ}

theorem foldl_older (entries : List (ℕ × SideChunkAssembly)) : ∀ victim, (entries.foldl (older keep) victim = none →
        victim = none ∧ ∀ p ∈ entries, keep = some p.1) ∧ ∀ v, entries.foldl (older keep) victim = some v →
        victim = some v ∨ ∃ p ∈ entries, p.1 = v.1 ∧ keep ≠ some p.1 := by
  induction entries with
  | nil => simp
  | cons p rest ih =>
    intro victim
    obtain ⟨hnone, hsome⟩ := ih (older keep victim p)
    constructor
    · intro h
      obtain ⟨hvictim, hrest⟩ := hnone h
      unfold older at hvictim
      split at hvictim
      · cases hvictim
      rename_i hcond
      subst hvictim
      have hkeep : keep = some p.1 := by simpa using hcond
      exact ⟨rfl, forall_mem_cons.mpr ⟨hkeep, hrest⟩⟩
    · intro v h
      rcases hsome v h with hvictim | ⟨q, hq, hqv⟩
      · unfold older at hvictim
        split at hvictim
        · rename_i hcond
          right
          cases hvictim
          exact ⟨p, mem_cons_self, rfl, hcond.1⟩
        · exact .inl hvictim
      · exact .inr ⟨q, mem_cons_of_mem _ hq, hqv⟩

variable {chunks : ExtTreeMap ℕ SideChunkAssembly}

theorem oldestSeen_some {v : ℕ × ℕ} (h : oldestSeen chunks keep = some v) : keep ≠ some v.1 ∧ v.1 ∈ chunks := by
  rcases (foldl_older chunks.toList none).2 v h with hnone | ⟨p, hp, hpv, hne⟩
  · cases hnone
  rw [← hpv]
  exact ⟨hne, mem_iff_exists.mpr ⟨p.2, ExtTreeMap.mem_toList_iff_getElem?_eq_some.mp hp⟩⟩

theorem oldest_some {id : ℕ} (h : oldest chunks keep = some id) : keep ≠ some id ∧ id ∈ chunks := by
  obtain ⟨v, hv, rfl⟩ := Option.map_eq_some_iff.mp h
  exact oldestSeen_some hv

theorem oldest_none (h : oldest chunks keep = none) : ∀ id ∈ chunks, keep = some id := by
  intro id hid
  obtain ⟨a, ha⟩ := mem_iff_exists.mp hid
  exact ((foldl_older chunks.toList none).1 (Option.map_eq_none_iff.mp h)).2 _
    (ExtTreeMap.mem_toList_iff_getElem?_eq_some.mpr ha)

end SideChunkAssembly

namespace ChunkStore

open SideChunkAssembly

/-- Every assembly is well formed, and the byte count is the sum of their costs. -/
structure ChunkInv (st : ChunkStore) : Prop where
  wf : ∀ (id : ℕ) a, st.rxChunks[id]? = some a → a.WellFormed
  bytes : st.rxChunkBytes = sumValues byteCost st.rxChunks

theorem chunkInv_initial : ChunkInv initial := by
  refine ⟨?_, ?_⟩
  · intro id a h
    simp [initial] at h
  · exact (sumValues_empty _).symm

theorem remove_getElem? (st : ChunkStore) (id k : ℕ) :
    (st.remove id).rxChunks[k]? = if id = k then none else st.rxChunks[k]? := by
  unfold remove
  split
  · rename_i hnone
    split
    · rename_i heq
      rw [← heq, hnone]
    · rfl
  · exact getElem?_erase_eq _ _ _

variable {st : ChunkStore}

theorem ChunkInv.remove (h : ChunkInv st) (id : ℕ) : ChunkInv (st.remove id) := by
  refine ⟨?_, ?_⟩
  · intro k a hk
    rw [remove_getElem?] at hk
    split at hk
    · cases hk
    · exact h.wf k a hk
  · unfold ChunkStore.remove
    split
    · exact h.bytes
    · rename_i a ha
      show st.rxChunkBytes - a.byteCost = sumValues byteCost (st.rxChunks.erase id)
      rw [h.bytes, sumValues_of_some byteCost ha]
      omega

variable {id : ℕ}

/-- Replacing an assembly by one that costs `added` more. -/
theorem ChunkInv.insert (h : ChunkInv st) {added : ℕ} {a : SideChunkAssembly} (hwf : a.WellFormed)
    (hcost : a.byteCost = ((st.rxChunks[id]?).getD empty).byteCost + added) :
    ChunkInv ⟨st.rxChunks.insert id a, st.rxChunkBytes + added⟩ := by
  refine ⟨?_, ?_⟩
  · intro k b hk
    rw [getElem?_insert_eq] at hk
    split at hk
    · cases hk
      exact hwf
    · exact h.wf k b hk
  · rw [sumValues_insert, h.bytes, hcost]
    cases hold : st.rxChunks[id]? with
    | none =>
      rw [erase_of_none hold]
      simp [byteCost, empty, payloadBytes]
      ring
    | some old =>
      rw [sumValues_of_some byteCost hold]
      simp only [Option.getD_some]
      ring

/-- `st'` is `st` without some of its assemblies. -/
structure Shrinks (st st' : ChunkStore) : Prop where
  sub : ∀ (k : ℕ) a, st'.rxChunks[k]? = some a → st.rxChunks[k]? = some a
  inv : ChunkInv st → ChunkInv st'

theorem Shrinks.refl (st : ChunkStore) : Shrinks st st := ⟨fun _ _ h => h, fun h => h⟩

variable {st' : ChunkStore} {st'' : ChunkStore}

theorem Shrinks.size_le (h : Shrinks st st') : st'.rxChunks.size ≤ st.rxChunks.size := by
  apply size_le_of_mem
  intro k hk
  obtain ⟨a, ha⟩ := mem_iff_exists.mp hk
  exact mem_iff_exists.mpr ⟨a, h.sub k a ha⟩

theorem Shrinks.trans (h : Shrinks st st') (h' : Shrinks st' st'') :
    Shrinks st st'' := ⟨fun k a hk => h.sub k a (h'.sub k a hk), h'.inv ∘ h.inv⟩

theorem shrinks_remove (st : ChunkStore) (id : ℕ) : Shrinks st (st.remove id) := by
  refine ⟨?_, fun h => h.remove id⟩
  intro k a hk
  rw [remove_getElem?] at hk
  split at hk
  · cases hk
  · exact hk

/-- `st'` is `st` without some assemblies other than that of `id`. -/
structure Keeps (id : ℕ) (st st' : ChunkStore) : Prop extends Shrinks st st' where
  own : st'.rxChunks[id]? = st.rxChunks[id]?

theorem Keeps.refl (id : ℕ) (st : ChunkStore) : Keeps id st st := ⟨Shrinks.refl st, rfl⟩

theorem Keeps.trans (h : Keeps id st st') (h' : Keeps id st' st'') :
    Keeps id st st'' := ⟨h.toShrinks.trans h'.toShrinks, h'.own.trans h.own⟩

theorem keeps_remove {victim : ℕ} (st : ChunkStore) (hne : victim ≠ id) : Keeps id st (st.remove victim) := by
  refine ⟨shrinks_remove st victim, ?_⟩
  rw [remove_getElem?, if_neg hne]

theorem keeps_reclaim (id : ℕ) (ids : List ℕ) (st : ChunkStore) : Keeps id st (st.reclaim id ids) := by
  unfold reclaim
  induction ids generalizing st with
  | nil => exact Keeps.refl id st
  | cons victim rest ih =>
    by_cases hne : victim = id
    · rw [filter_cons_of_neg (by simp [hne])]
      exact ih st
    · rw [filter_cons_of_pos (by simp [hne])]
      exact (keeps_remove st hne).trans (ih _)

theorem reclaim_append (id : ℕ) (ids ids' : List ℕ) (st : ChunkStore) :
    st.reclaim id (ids ++ ids') = (st.reclaim id ids).reclaim id ids' := by
  rw [reclaim, filter_append, foldl_append]
  rfl

theorem shrinks_expire (nowMs : ℕ) (rounds : ℕ) : ∀ st : ChunkStore, Shrinks st (st.expire nowMs rounds) := by
  induction rounds with
  | zero => exact Shrinks.refl
  | succ rounds ih =>
    intro st
    unfold ChunkStore.expire
    split
    · exact Shrinks.refl st
    · exact (shrinks_remove st _).trans (ih _)

theorem shrinks_expireSideChunks (nowMs : ℕ) (st : ChunkStore) :
    Shrinks st (st.expireSideChunks nowMs) := shrinks_expire nowMs _ st

theorem expire_own {nowMs : ℕ} (rounds : ℕ) : ∀ {st : ChunkStore},
    (∀ a, st.rxChunks[id]? = some a → nowMs - a.lastSeenMs ≤ 2000) →
    (st.expire nowMs rounds).rxChunks[id]? = st.rxChunks[id]? := by
  induction rounds with
  | zero => exact fun _ => rfl
  | succ rounds ih =>
    intro st hfresh
    unfold ChunkStore.expire
    split
    · rfl
    rename_i victim a hfind
    have hne : victim ≠ id := by
      rintro rfl
      have hold := List.find?_some hfind
      have hmem := ExtTreeMap.mem_toList_iff_getElem?_eq_some.mp (mem_of_find?_eq_some hfind)
      have := hfresh a hmem
      simp only [decide_eq_true_eq] at hold
      omega
    have hown := (keeps_remove st hne).own
    rw [ih (fun a ha => hfresh a (hown ▸ ha)), hown]

/-! ### Making room -/

/-- The assembly of a transfer, empty if there is none. -/
def entry (st : ChunkStore) (id : ℕ) : SideChunkAssembly := (st.rxChunks[id]?).getD empty

/-- The number of chunks is not known to be another one. -/
abbrev TotalFits (st : ChunkStore) (id total : ℕ) : Prop := (st.entry id).total = 0 ∨ (st.entry id).total = total

theorem ChunkInv.entry (h : ChunkInv st) (id : ℕ) : (st.entry id).WellFormed := by
  unfold ChunkStore.entry
  cases hid : st.rxChunks[id]? with
  | none => exact wellFormed_empty
  | some a => exact h.wf id a hid

theorem Keeps.entry (h : Keeps id st st') : st'.entry id = st.entry id := by
  unfold ChunkStore.entry
  rw [h.own]

theorem Keeps.totalFits {total : ℕ} (h : Keeps id st st') (htotal : st.TotalFits id total) : st'.TotalFits id total := by
  rw [TotalFits, h.entry]
  exact htotal

theorem all_received (st : ChunkStore) (id : ℕ) :
    st.rxChunks[id]?.all (·.received = []) = decide ((st.entry id).received = []) := by
  unfold entry
  cases st.rxChunks[id]? with
  | none => simp [empty]
  | some a => simp

theorem any_containsIndex (st : ChunkStore) (id index : ℕ) :
    st.rxChunks[id]?.any (·.containsIndex index) = (st.entry id).containsIndex index := by
  unfold entry
  cases st.rxChunks[id]? with
  | none => simp [empty, containsIndex]
  | some a => simp

/-- When only the assembly of `id` is left, its cost is the byte count. -/
theorem ChunkInv.bytes_of_alone (h : ChunkInv st)
    (halone : ∀ k ∈ st.rxChunks, k = id) : st.rxChunkBytes = (st.entry id).byteCost := by
  rw [h.bytes, sumValues_of_forall_eq byteCost halone]
  unfold ChunkStore.entry
  cases st.rxChunks[id]? with
  | none => simp [empty, byteCost, payloadBytes]
  | some a => simp

theorem evict_spec (id cost budget : ℕ) (rounds : ℕ) : ∀ st : ChunkStore,
    Shrinks st (st.evict id cost budget rounds).1 ∧ ∀ c, (st.evict id cost budget rounds).2 = .ok c →
        c = cost ∧ Keeps id st (st.evict id cost budget rounds).1 := by
  induction rounds with
  | zero =>
    intro st
    refine ⟨Shrinks.refl st, fun c hc => ?_⟩
    cases hc
    exact ⟨rfl, Keeps.refl id st⟩
  | succ rounds ih =>
    intro st
    unfold evict
    split
    · split
      · exact ⟨shrinks_remove st id, fun c hc => by cases hc⟩
      rename_i victim hvictim
      have hne : victim ≠ id := fun heq => (oldest_some hvictim).1 (heq ▸ rfl)
      obtain ⟨hshrinks, hok⟩ := ih (st.remove victim)
      refine ⟨(shrinks_remove st victim).trans hshrinks, fun c hc => ?_⟩
      obtain ⟨hcost, hkeeps⟩ := hok c hc
      exact ⟨hcost, (keeps_remove st hne).trans hkeeps⟩
    · refine ⟨Shrinks.refl st, fun c hc => ?_⟩
      cases hc
      exact ⟨rfl, Keeps.refl id st⟩

/-- Evicting the other assemblies makes room for a transfer that fits the budget. -/
theorem evict_fits {cost budget : ℕ} (rounds : ℕ) : ∀ {st : ChunkStore}, ChunkInv st →
    (st.entry id).byteCost + cost ≤ budget → (st.evict id cost budget rounds).2 = .ok cost := by
  induction rounds with
  | zero => exact fun _ _ => rfl
  | succ rounds ih =>
    intro st h hfits
    unfold evict
    split
    · rename_i hover
      split
      · rename_i hnone
        have halone : ∀ k ∈ st.rxChunks, k = id := fun k hk =>
          (Option.some.inj (oldest_none hnone k hk)).symm
        rw [h.bytes_of_alone halone] at hover
        omega
      · rename_i victim hvictim
        have hne : victim ≠ id := fun heq => (oldest_some hvictim).1 (heq ▸ rfl)
        apply ih (h.remove victim)
        rw [(keeps_remove st hne).entry]
        exact hfits
    · rfl

/-- The bytes a new fragment adds to the assembly. -/
def fragmentCost (st : ChunkStore) (id total payloadLen : ℕ) : ℕ :=
  payloadLen + fragmentOverhead + if (st.entry id).received = [] then descriptorBytes total else 0

theorem fragmentCost_pos (st : ChunkStore) (id total payloadLen : ℕ) : st.fragmentCost id total payloadLen ≠ 0 := by
  unfold fragmentCost fragmentOverhead
  omega

theorem makeRoom_eq (st : ChunkStore) (id index total payloadLen budget : ℕ) :
    st.makeRoom id index total payloadLen budget =
      if budget / 64 < total ∨ budget < st.fragmentCost id total payloadLen then
        (st.remove id, .error (.packetTooLarge "side chunk receive budget"))
      else if (st.entry id).containsIndex index then (st, .ok 0)
      else st.evict id (st.fragmentCost id total payloadLen) budget (st.rxChunks.size + 1) := by
  by_cases hnew : (st.entry id).received = []
  · simp [makeRoom, all_received, any_containsIndex, fragmentCost, hnew]
  · simp [makeRoom, all_received, any_containsIndex, fragmentCost, hnew]

theorem size_capAssemblies (h : st.rxChunks.size ≤ 4) : (st.capAssemblies false).rxChunks.size ≤ 3 := by
  unfold capAssemblies
  split
  · split
    · rename_i victim hvictim
      have hmem := (oldest_some hvictim).2
      obtain ⟨a, ha⟩ := mem_iff_exists.mp hmem
      simp only [ChunkStore.remove, ha, size_erase_of_mem hmem]
      omega
    · rename_i hnone
      have hempty : ∀ k, k ∉ st.rxChunks := fun k hk => by cases oldest_none hnone k hk
      have hzero := ExtTreeMap.eq_empty_iff_forall_not_mem.mpr hempty
      rw [hzero]
      simp
  · rename_i hfull
    simp only [true_and, not_le] at hfull
    omega

theorem keeps_capAssemblies {existing : Bool}
    (h : existing = false → st.rxChunks[id]? = none) : Keeps id st (st.capAssemblies existing) := by
  unfold capAssemblies
  split
  · rename_i hcap
    split
    · rename_i victim _
      refine ⟨shrinks_remove st victim, ?_⟩
      rw [remove_getElem?, h hcap.1]
      split <;> rfl
    · exact Keeps.refl id st
  · exact Keeps.refl id st

variable {total : ℕ}

theorem entry_total : ¬ (st.rxChunks[id]?.map (·.total)).any (fun old => decide (old ≠ 0 ∧ old ≠ total)) = true ↔
    st.TotalFits id total := by
  unfold TotalFits ChunkStore.entry
  cases st.rxChunks[id]? with
  | none => simp [SideChunkAssembly.empty]
  | some a => simp [or_iff_not_imp_left]

/-- The transfer at hand is as it was; the fragment was retained before, or it is new and a new transfer has a place. -/
theorem prepareRoom_spec (st : ChunkStore) (id index total payloadLen budget : ℕ) {out : ChunkStore × TelemetryResult ℕ}
    (hout : st.prepareRoom id index total payloadLen budget = out) : Shrinks st out.1 ∧ ∀ cost, out.2 = .ok cost →
      Keeps id st out.1 ∧ st.TotalFits id total ∧
        (cost = 0 ∧ out.1 = st ∧ (st.entry id).containsIndex index = true ∨
          cost = st.fragmentCost id total payloadLen ∧ (st.entry id).containsIndex index = false ∧
            (st.rxChunks[id]? = none → st.rxChunks.size ≤ 4 → out.1.rxChunks.size ≤ 3)) := by
  subst hout
  unfold prepareRoom
  simp only
  split
  · exact ⟨shrinks_remove st id, nofun⟩
  rename_i hmatch
  have htotal := entry_total.mp hmatch
  rw [makeRoom_eq]
  by_cases hlarge : budget / 64 < total ∨ budget < st.fragmentCost id total payloadLen
  · rw [if_pos hlarge]
    exact ⟨shrinks_remove st id, nofun⟩
  rw [if_neg hlarge]
  by_cases hfree : (st.entry id).containsIndex index = true
  · rw [if_pos hfree]
    refine ⟨.refl st, fun cost hcost => ?_⟩
    cases hcost
    exact ⟨.refl id st, htotal, .inl ⟨rfl, rfl, hfree⟩⟩
  rw [if_neg hfree]
  obtain ⟨hshrinks, hok⟩ := evict_spec id (st.fragmentCost id total payloadLen) budget (st.rxChunks.size + 1) st
  generalize st.evict id _ budget _ = evicted at hshrinks hok
  obtain ⟨st', e | cost⟩ := evicted
  · exact ⟨hshrinks, nofun⟩
  obtain ⟨rfl, hkeeps⟩ := hok cost rfl
  dsimp only
  rw [if_neg (fragmentCost_pos st id total payloadLen)]
  have hcap : Keeps id st' (st'.capAssemblies (st.rxChunks[id]?.map (·.total)).isSome) := by
    apply keeps_capAssemblies
    intro hnone
    rw [Option.isSome_map, Option.isSome_eq_false_iff, Option.isNone_iff_eq_none] at hnone
    rw [hkeeps.own, hnone]
  refine ⟨hshrinks.trans hcap.toShrinks, fun cost hcost => ?_⟩
  cases hcost
  refine ⟨hkeeps.trans hcap, htotal, .inr ⟨rfl, Bool.eq_false_of_not_eq_true hfree, fun hnone hfour => ?_⟩⟩
  rw [hnone]
  exact size_capAssemblies (hshrinks.size_le.trans hfour)

theorem makeSideChunkRoom_spec (st : ChunkStore) (ctx : ChunkContext) (id index total payloadLen : ℕ) :
    Shrinks st (st.makeSideChunkRoom ctx id index total payloadLen).1 ∧
      ((st.makeSideChunkRoom ctx id index total payloadLen).2 = .ok () →
        Keeps id st (st.makeSideChunkRoom ctx id index total payloadLen).1 ∧
        st.TotalFits id total) := by
  unfold makeSideChunkRoom
  rcases hroom : st.prepareRoom id index total payloadLen ctx.budget with ⟨st', e | cost⟩ <;>
    obtain ⟨hshrinks, hok⟩ := prepareRoom_spec st id index total payloadLen ctx.budget hroom
  · exact ⟨hshrinks, nofun⟩
  obtain ⟨hkeeps, htotal, -⟩ := hok cost rfl
  dsimp only
  split
  · exact ⟨hshrinks, fun _ => ⟨hkeeps, htotal⟩⟩
  · have hall := hkeeps.trans (keeps_reclaim id ctx.queueReclaims st')
    exact ⟨hall.toShrinks, fun _ => ⟨hall, htotal⟩⟩

/-! ### One frame -/

/-- The assembly a fragment is put into. -/
def opened (st : ChunkStore) (id total : ℕ) : SideChunkAssembly := { st.entry id with total := total }

theorem ChunkInv.opened (h : ChunkInv st) (htotal : st.TotalFits id total) :
    (st.opened id total).WellFormed := by
  have hwf := h.entry id
  refine ⟨?_, hwf.count⟩
  rcases hwf.shape with hempty | hlen
  · exact .inl hempty
  · rcases htotal with hzero | heq
    · exact .inl (length_eq_zero_iff.mp (hlen.trans hzero))
    · exact .inr (hlen.trans heq)

section Retain

variable {ctx : AssemblyContext} {index added : ℕ} {bytes : Bytes} {a : SideChunkAssembly}

theorem retainFragment_error {e : TelemetryError} (h : (st.opened id total).insertWith ctx index bytes = .error e) :
    st.retainFragment ctx id index total bytes =
      ({ st with rxChunks := st.rxChunks.insert id (st.opened id total) }, .error e) := by
  unfold opened ChunkStore.entry at h ⊢
  simp only [ChunkStore.retainFragment, h]

theorem retainFragment_ok (h : (st.opened id total).insertWith ctx index bytes = .ok (a, added)) :
    let st' : ChunkStore := ⟨st.rxChunks.insert id a, st.rxChunkBytes + added⟩
    st.retainFragment ctx id index total bytes =
      if a.receivedCount = total then (st'.remove id, (a.assemble ctx).map some) else (st', .ok none) := by
  unfold opened ChunkStore.entry at h
  simp only [ChunkStore.retainFragment, h]

theorem ChunkInv.retainFragment (h : ChunkInv st)
    (htotal : st.TotalFits id total)
    (hfree : (st.entry id).containsIndex index = false) : ChunkInv (st.retainFragment ctx id index total bytes).1 := by
  have hwf := h.opened htotal
  cases hins : (st.opened id total).insertWith ctx index bytes with
  | error e =>
    rw [retainFragment_error hins]
    exact (h.insert hwf rfl : ChunkInv ⟨_, st.rxChunkBytes + 0⟩)
  | ok out =>
    have hgrown := insertWith_grown hwf hfree hins
    have hinv := h.insert hgrown.wf hgrown.cost
    rw [retainFragment_ok hins]
    split
    · exact hinv.remove id
    · exact hinv

end Retain

theorem ChunkInv.decodeChunk (h : ChunkInv st) (ctx : ChunkContext) (body : Bytes) :
    ChunkInv (st.decodeChunk ctx body).1 := by
  unfold ChunkStore.decodeChunk
  split
  · exact h
  simp only
  split
  · exact h
  generalize ofLe (body.take 4) = id
  generalize ofLe ((body.drop 4).take 2) = index
  generalize ofLe ((body.drop 6).take 2) = total
  obtain ⟨hshrinks, hok⟩ := makeSideChunkRoom_spec st ctx id index total (body.drop 8).length
  generalize st.makeSideChunkRoom ctx id index total (body.drop 8).length = room at hshrinks hok
  obtain ⟨st', res⟩ := room
  have hinv := hshrinks.inv h
  cases res with
  | error e => exact hinv
  | ok _ =>
    obtain ⟨hkeeps, htotal⟩ := hok rfl
    simp only [any_containsIndex]
    split
    · exact hinv
    rename_i hfree
    have hreclaim := keeps_reclaim id ctx.fragmentReclaims st'
    split
    · exact hreclaim.inv hinv
    · apply (hreclaim.inv hinv).retainFragment ((hkeeps.trans hreclaim).totalFits htotal)
      rw [hreclaim.entry]
      simpa using hfree

/-- Whatever arrives, the store keeps its invariant. -/
theorem ChunkInv.receive {env : WireEnv} (h : ChunkInv st) (ctx : ChunkContext)
    (bytes : Bytes) : ChunkInv (st.receive env ctx bytes).1 := by
  have hexp := (shrinks_expireSideChunks ctx.nowMs st).inv h
  unfold ChunkStore.receive
  split
  · exact hexp
  · exact hexp
  · split
    · exact hexp.decodeChunk ctx _
    · exact hexp

/-! ### What else happens to the store -/

/-- A frame arrives, or the router reclaims an assembly. -/
inductive Event where
  | frame (ctx : ChunkContext) (bytes : Bytes)
  | expire (nowMs : ℕ)
  | reclaim (id : ℕ)

def step (env : WireEnv) (st : ChunkStore) : Event → ChunkStore
  | .frame ctx bytes => (st.receive env ctx bytes).1
  | .expire nowMs => st.expireSideChunks nowMs
  | .reclaim id => st.remove id

/-- The invariant of every state the store can be in. -/
theorem chunkInv_run (env : WireEnv) (events : List Event) : ChunkInv (run (step env) initial events) := by
  refine run_always ?_ chunkInv_initial events
  intro st event h
  cases event with
  | frame ctx bytes => exact h.receive ctx bytes
  | expire nowMs => exact (shrinks_expireSideChunks nowMs st).inv h
  | reclaim id => exact h.remove id

end ChunkStore

/-! ### Assembling a complete transfer -/

/-- Budget and memory admission grant a transfer of `len` bytes in `total` chunks: the whole
assembly fits the budget, and the output is allocated at once or in steps. -/
structure ChunkContext.Grants (ctx : ChunkContext) (total len : ℕ) : Prop where
  budget : len + total * 64 ≤ ctx.budget
  queue : ctx.queueRoom = true
  fragment : ctx.fragmentRoom = true
  descriptors : ctx.probe.check 0 (SideChunkAssembly.descriptorBytes total + 128)
    (SideChunkAssembly.descriptorBytes total + 32) = .ok ()
  reserves : ∀ n, ctx.reserves n = true
  assembly : ctx.probe.check 1 (len + 512) (len + 32) = .ok () ∨
    ∀ call target, 2 ≤ call → target ≤ len →
      ctx.probe.check call (max (target + 128) 1024) (target + 32) = .ok ()

namespace SideChunkAssembly

/-- The output has been allocated, or it may grow. -/
def Growable (ctx : AssemblyContext) (len : ℕ) (out : Output) : Prop :=
  len ≤ out.capacity ∨ ∀ call target, out.calls ≤ call → target ≤ len →
    ctx.probe.check call (max (target + 128) 1024) (target + 32) = .ok ()

variable {ctx : AssemblyContext} {len : ℕ}

theorem append_ok (step : ℕ) {out : Output} (bytes : Bytes)
    (hreserves : ∀ n, ctx.reserves n = true) (hgrow : Growable ctx len out)
    (hlen : out.bytes.length + bytes.length ≤ len) :
    ∃ out', append ctx len step out bytes = .ok out' ∧ out'.bytes = out.bytes ++ bytes ∧ Growable ctx len out' := by
  unfold append
  simp only
  split
  · have hsteps := hgrow.resolve_left (by omega)
    rw [hsteps _ _ (le_refl _) (min_le_right _ _)]
    simp only [hreserves, Bool.true_eq_false, if_false]
    exact ⟨_, rfl, rfl, .inr fun call target hcall => hsteps call target (by simp only at hcall; omega)⟩
  · exact ⟨_, rfl, rfl, hgrow⟩

/-- The loop copies the fragments in order, alone or two at a time. -/
theorem copyFragments_ok (step : ℕ) (hreserves : ∀ n, ctx.reserves n = true) (chunks : List Bytes) : ∀ out,
    Growable ctx len out → out.bytes.length + chunks.flatten.length ≤ len →
    ∃ out', copyFragments ctx len step (chunks.map some) out = .ok out' ∧ out'.bytes = out.bytes ++ chunks.flatten := by
  induction hn : chunks.length using Nat.strong_induction_on generalizing chunks with
  | _ n ih =>
    intro out hgrow hlen
    match chunks with
    | [] => exact ⟨out, rfl, by simp⟩
    | [chunk] =>
      simp only [flatten_cons, flatten_nil, append_nil] at hlen ⊢
      obtain ⟨out', hout, hbytes, -⟩ := append_ok step chunk hreserves hgrow hlen
      refine ⟨out', ?_, hbytes⟩
      simp only [map_cons, map_nil, copyFragments, hout]
      rfl
    | chunk :: next :: rest =>
      simp only [flatten_cons, length_append] at hlen
      simp only [map_cons, copyFragments]
      split
      · obtain ⟨out', hout, hbytes, hgrow'⟩ := append_ok step (chunk ++ next) hreserves
          hgrow (by rw [length_append]; omega)
        obtain ⟨out'', hloop, hall⟩ := ih rest.length (by simp [← hn]) rest rfl out' hgrow'
          (by rw [hbytes]; simp only [length_append]; omega)
        refine ⟨out'', ?_, ?_⟩
        · rw [hout]
          exact hloop
        · simp [hall, hbytes]
      · obtain ⟨out', hout, hbytes, hgrow'⟩ := append_ok step chunk hreserves hgrow (by omega)
        obtain ⟨out'', hloop, hall⟩ := ih (next :: rest).length (by simp [← hn]) (next :: rest)
          rfl out' hgrow' (by rw [hbytes]; simp only [flatten_cons, length_append]; omega)
        refine ⟨out'', ?_, ?_⟩
        · rw [hout]
          exact hloop
        · simp [hall, hbytes]

theorem fragments_eq (received : List (Option Bytes)) : fragments received = received :=
  take_append_drop _ _

theorem payloadBytes_map_some (chunks : List Bytes) : payloadBytes (chunks.map some) = chunks.flatten.length := by
  simp [payloadBytes, length_flatten, Function.comp_def]

/-- A complete assembly yields its chunks, in either allocation mode. -/
theorem assemble_ok {ctx : ChunkContext} {a : SideChunkAssembly} {chunks : List Bytes} {total : ℕ}
    (hgrants : ctx.Grants total chunks.flatten.length) (hreceived : a.received = chunks.map some)
    (hcount : a.receivedCount = a.total) : a.assemble ctx.toAssemblyContext = .ok chunks.flatten := by
  unfold assemble
  rw [if_neg (by simp [hcount])]
  simp only [hgrants.reserves, Bool.true_eq_false, and_false, if_false, fragments_eq, hreceived,
    payloadBytes_map_some]
  set eager := (ctx.probe.check 1 (chunks.flatten.length + 512) (chunks.flatten.length + 32)).isOk
    with heager
  have hgrow : Growable ctx.toAssemblyContext chunks.flatten.length
      ⟨[], if eager then chunks.flatten.length else 0, 2⟩ := by
    rcases hgrants.assembly with honce | hsteps
    · left
      rw [heager, honce]
      simp [Except.isOk, Except.toBool]
    · exact .inr hsteps
  obtain ⟨out, hout, hbytes⟩ := copyFragments_ok (max (divCeil chunks.flatten.length 8) 128)
    hgrants.reserves chunks _ hgrow (by simp)
  rw [hout]
  exact congrArg Except.ok hbytes

end SideChunkAssembly

end SedsNet
