import SedsNet.LinkedChain
import SedsNet.Segments
import SedsNet.PacketCodec

/-! # The packet store

A bounded arena for payloads (`packet_store.rs`).  A slot of the handle table describes a byte range
of the arena; the slots in use form a list from `head` along `next`, in the order of their offsets.
Handles count the references to a slot and views pin it, so that a compaction does not move it.

A `usize` is a natural number here.  The differences of offsets in `gap` are natural subtractions:
the offsets on the list increase, so they are exact. -/

namespace SedsNet

open LinkedChain Segments

/-! ### The arena -/

structure Slot (n : ℕ) where
  offset : ℕ := 0
  len : ℕ := 0
  refs : ℕ := 0
  pins : ℕ := 0
  compressed : Bool := false
  next : Option (Fin n) := none
  source : ℕ := 0
deriving DecidableEq

/-- The state behind the lock, with a table of `n` handles. -/
structure ArenaState (n : ℕ) where
  bytes : ℕ → UInt8
  capacity : ℕ
  slots : Fin n → Slot n
  movableLimit : ℕ
  moves : ℕ
  rejected : ℕ
  head : Option (Fin n)

/-- `pressure()`. -/
def pressure : TelemetryError := .io "memory pressure"

/-- A handle without its reference to the store. -/
structure StoredBytes (n : ℕ) where
  slot : Option (Fin n)
  len : ℕ
deriving DecidableEq

namespace ArenaState

variable {n : ℕ}

variable (st : ArenaState n) (i : Fin n) (h : StoredBytes n)

def offsetOf : ℕ := (st.slots i).offset

def lenOf : ℕ := (st.slots i).len

def nextOf : Option (Fin n) := (st.slots i).next

/-- The slots that the loops from `head` see. -/
def order : List (Fin n) := traverse st.nextOf n st.head

/-- The bytes of a slot. -/
def contents : Bytes := read st.bytes (st.offsetOf i) (st.lenOf i)

def modify (f : Slot n → Slot n) : ArenaState n :=
  { st with slots := Function.update st.slots i (f (st.slots i)) }

def gap (need : ℕ) : Option ℕ := firstFit st.offsetOf st.lenOf st.capacity need 0 st.order

/-- The bytes of a slot move down to `e`. -/
def move (e : ℕ) : ArenaState n :=
  { st.modify i (fun s => { s with offset := e }) with
    bytes := copy st.bytes (st.offsetOf i) e (st.lenOf i), moves := wrapAdd st.moves 1 }

/-- The loop of `compact` over the rest of the list; the slots before it end at `e`. -/
def compactFrom : ℕ → List (Fin n) → ArenaState n → ArenaState n
  | _, [], st => st
  | e, i :: l, st =>
    if (st.slots i).pins = 0 ∧ st.lenOf i ≤ st.movableLimit ∧ st.offsetOf i ≠ e then
      compactFrom (e + st.lenOf i) l (st.move i e)
    else compactFrom (st.offsetOf i + st.lenOf i) l st

def compact : ArenaState n := compactFrom 0 st.order st

/-- A slot is filled in and put on the list, behind the slots that start at or before its offset. -/
def link (slot : Fin n) (offset len : ℕ) (compressed : Bool) (source : ℕ) : ArenaState n :=
  let previous := (st.order.takeWhile fun i => st.offsetOf i ≤ offset).getLast?
  let next := (st.order.dropWhile fun i => st.offsetOf i ≤ offset).head?
  let st := st.modify slot fun _ => { offset, len, refs := 1, pins := 0, compressed, next, source }
  match previous with
  | some i => st.modify i fun s => { s with next := some slot }
  | none => { st with head := some slot }

def reject : ArenaState n := { st with rejected := wrapAdd st.rejected 1 }

/-- The arena is compacted when there is no gap. -/
def makeRoom (len : ℕ) : ArenaState n :=
  match st.gap len with
  | some _ => st
  | none => st.compact

def reserve (len : ℕ) (compressed : Bool) (source : ℕ) : ArenaState n × TelemetryResult (Fin n) :=
  match (List.finRange n).find? fun i => (st.slots i).refs == 0 with
  | none => (st.reject, .error pressure)
  | some slot =>
    match (st.makeRoom len).gap len with
    | none => ((st.makeRoom len).reject, .error pressure)
    | some offset => ((st.makeRoom len).link slot offset len compressed source, .ok slot)

/-- A live slot that was stored from the same place and still has the same bytes. -/
def sharedSlot (data : Bytes) (source : ℕ) : Option (Fin n) :=
  if source = 0 then none
  else
    (List.finRange n).find? fun i =>
      (st.slots i).refs != 0 && !(st.slots i).compressed && (st.slots i).source == source &&
        st.lenOf i == data.length && st.contents i == data

/-! ### Handles and views -/

/-- One more reference to the slot; the source panics when the count is full. -/
def retain : TelemetryResult (ArenaState n) :=
  if (st.slots i).refs < usizeMax then .ok (st.modify i fun s => { s with refs := s.refs + 1 })
  else .error (.aborted "packet handle overflow")

/-- The slot is taken off the list. -/
def unlink : ArenaState n :=
  if st.head = some i then { st with head := st.nextOf i }
  else
    match st.order.find? fun p => st.nextOf p == some i with
    | some p => st.modify p fun s => { s with next := st.nextOf i }
    | none => st

/-- The `drop` of a handle. -/
def release : ArenaState n :=
  let st := st.modify i fun s => { s with refs := s.refs - 1 }
  if (st.slots i).refs = 0 then (st.unlink i).modify i fun _ => {} else st

/-- The tail of `insert`, when no slot is shared. -/
def insertNew (data : Bytes) (source : ℕ) : ArenaState n × TelemetryResult (StoredBytes n) :=
  match st.reserve data.length false source with
  | (st, .error e) => (st, .error e)
  | (st, .ok slot) => ({ st with bytes := write st.bytes (st.offsetOf slot) data }, .ok ⟨some slot, data.length⟩)

/-- `insert` of a plain payload: `store` with no source, `store_shared` with its address. -/
def insert (data : Bytes) (source : ℕ) : ArenaState n × TelemetryResult (StoredBytes n) :=
  if data.isEmpty then (st, .ok ⟨none, data.length⟩)
  else
    match st.sharedSlot data source with
    | some i =>
      match st.retain i with
      | .ok st' => (st', .ok ⟨some i, data.length⟩)
      | .error e => (st, .error e)
    | none => st.insertNew data source

/-- The `clone` of a handle. -/
def clone : TelemetryResult (ArenaState n) :=
  match h.slot with
  | none => .ok st
  | some i => st.retain i

/-- `pin_encoded`: the pin is counted before the handle is cloned. -/
def pinEncoded : ArenaState n × TelemetryResult (StoredBytes n) :=
  match h.slot with
  | none => (st, .ok h)
  | some i =>
    if (st.slots i).pins < usizeMax then
      let st := st.modify i fun s => { s with pins := s.pins + 1 }
      match st.clone h with
      | .ok st' => (st', .ok h)
      | .error e => (st, .error e)
    else (st, .error (.aborted "packet pin overflow"))

def isCompressed : Bool :=
  match h.slot with
  | none => false
  | some i => (st.slots i).compressed

def pin : ArenaState n × TelemetryResult (StoredBytes n) :=
  if st.isCompressed h then (st, .error (.io "compressed payload requires range decoding"))
  else st.pinEncoded h

/-- What a view dereferences to. -/
def deref (view : StoredBytes n) : Bytes :=
  match view.slot with
  | none => []
  | some i => st.contents i

def drop : ArenaState n :=
  match h.slot with
  | none => st
  | some i => st.release i

/-- The `drop` of a view: its pin, then its handle. -/
def unpin (view : StoredBytes n) : ArenaState n :=
  match view.slot with
  | none => st
  | some i => (st.modify i fun s => { s with pins := s.pins - 1 }).release i

/-- `m` bytes from `offset` on.  The view is dropped at the end, so the arena stays as it is. -/
def readRange (offset m : ℕ) : TelemetryResult Bytes :=
  if h.len < offset + m then .error (.unpack "payload range out of bounds")
  else
    match st.pin h with
    | (_, .error e) => .error e
    | (st, .ok view) =>
      if (st.deref view).length < offset + m then .error (.aborted "range end index out of range")
      else .ok (((st.deref view).drop offset).take m)

/-! ### The codec on the arena -/

section Codec

variable {codec : PacketCodec}

/-- The first pass: the bytes needed, as long as they are fewer than `limit`. -/
def measure (enc : Encoder codec) (limit : ℕ) : ℕ → List Bytes → Option ℕ
  | used, [] => some used
  | used, raw :: raws =>
    let used := used + 8 + (PacketCodec.encodeChunk enc raw).length
    if used < limit then measure enc limit used raws else none

/-- The second pass writes the chunks from `offset` on; none when they need more than was measured. -/
def writeChunks (enc : Encoder codec) (offset used : ℕ) : ℕ → List Bytes → (ℕ → UInt8) → (ℕ → UInt8) × Option ℕ
  | cursor, [], bytes => (bytes, some cursor)
  | cursor, raw :: raws, bytes =>
    let stop := cursor + 8 + (PacketCodec.encodeChunk enc raw).length
    if stop ≤ used then
      writeChunks enc offset used stop raws (write bytes (offset + cursor) (PacketCodec.storedChunk enc raw))
    else (bytes, none)

/-- The second pass into a reserved slot; the slot is given up when the size has changed. -/
def fillSlot (enc : Encoder codec) (st : ArenaState n) (slot : Fin n) (data : Bytes) (used : ℕ) :
    ArenaState n × TelemetryResult (StoredBytes n) :=
  let written := writeChunks enc (st.offsetOf slot) used 0 (codec.chunks data) st.bytes
  let st := { st with bytes := written.1 }
  if written.2 = some used then (st, .ok ⟨some slot, data.length⟩)
  else (st.release slot, .error (.io "codec size changed"))

/-- `PacketCodec::store`, with the compressor as it behaves in its two passes. -/
def codecStore (st : ArenaState n) (data : Bytes) (scratch : ℕ) (first second : Encoder codec) :
    ArenaState n × TelemetryResult (StoredBytes n) :=
  if data.isEmpty ∨ scratch < min codec.chunk data.length then st.insert data 0
  else
    match measure first data.length 0 (codec.chunks data) with
    | none => st.insert data 0
    | some used =>
      match st.reserve used true 0 with
      | (st, .error e) => (st, .error e)
      | (st, .ok slot) => fillSlot second st slot data used

/-- `PacketCodec::read_range`. -/
def codecReadRange (codec : PacketCodec) (st : ArenaState n) (h : StoredBytes n) (offset m scratch : ℕ) :
    TelemetryResult Bytes :=
  if h.len < offset + m then .error (.unpack "payload range out of bounds")
  else if ¬ st.isCompressed h then st.readRange h offset m
  else if m = 0 then .ok []
  else
    match st.pinEncoded h with
    | (_, .error e) => .error e
    | (st, .ok view) =>
      PacketCodec.decodeFrom codec scratch offset (offset + m) ((st.deref view).length + 1) (st.deref view) 0

end Codec

end ArenaState

/-! ### The store and its owners -/

/-- A handle, with the bytes that were stored for it. -/
structure Owner (n : ℕ) where
  handle : StoredBytes n
  data : Bytes
deriving DecidableEq

/-- An arena with the handles and the views that exist. -/
structure PacketStore (n : ℕ) where
  arena : ArenaState n
  handles : List (Owner n)
  views : List (Owner n)

inductive StoreEvent (codec : PacketCodec) where
  | store (data : Bytes)
  | storeShared (data : Bytes) (source : ℕ)
  | codecStore (data : Bytes) (scratch : ℕ) (first second : Encoder codec)
  | clone (k : ℕ)
  | drop (k : ℕ)
  | pin (k : ℕ)
  | unpin (k : ℕ)
  | compact

namespace PacketStore

variable {n : ℕ} {codec : PacketCodec}

/-- `PacketStore::new`, with `n` handles. -/
def new (n capacity movableLimit : ℕ) : PacketStore n where
  arena :=
    { bytes := fun _ => 0, capacity, slots := fun _ => {}, movableLimit, moves := 0, rejected := 0, head := none }
  handles := []
  views := []

/-- The answer of a store: its handle is a new owner of the data. -/
def keep (s : PacketStore n) (data : Bytes) (answer : ArenaState n × TelemetryResult (StoredBytes n)) :
    PacketStore n :=
  match answer with
  | (arena, .ok handle) => { s with arena, handles := s.handles ++ [⟨handle, data⟩] }
  | (arena, .error _) => { s with arena }

def cloneOwner (s : PacketStore n) (o : Owner n) : PacketStore n :=
  match s.arena.clone o.handle with
  | .ok arena => { s with arena, handles := s.handles ++ [o] }
  | .error _ => s

def pinOwner (s : PacketStore n) (o : Owner n) : PacketStore n :=
  match s.arena.pin o.handle with
  | (arena, .ok view) => { s with arena, views := s.views ++ [⟨view, o.data⟩] }
  | (arena, .error _) => { s with arena }

/-- One operation; `k` counts the handles, or the views, that exist. -/
def step (s : PacketStore n) : StoreEvent codec → PacketStore n
  | .store data => s.keep data (s.arena.insert data 0)
  | .storeShared data source => s.keep data (s.arena.insert data source)
  | .codecStore data scratch first second => s.keep data (s.arena.codecStore data scratch first second)
  | .clone k =>
    match s.handles[k]? with
    | some o => s.cloneOwner o
    | none => s
  | .drop k =>
    match s.handles[k]? with
    | some o => { s with arena := s.arena.drop o.handle, handles := s.handles.eraseIdx k }
    | none => s
  | .pin k =>
    match s.handles[k]? with
    | some o => s.pinOwner o
    | none => s
  | .unpin k =>
    match s.views[k]? with
    | some o => { s with arena := s.arena.unpin o.handle, views := s.views.eraseIdx k }
    | none => s
  | .compact => { s with arena := s.arena.compact }

end PacketStore

end SedsNet
