import SedsNet.MemoryAdmission

/-! # Bounded queues

`BoundedDeque` of `queue.rs`, a ring of items with a byte budget and a hard cap on its length.  The
items are a list, front first; the capacity of the ring is carried next to it because it decides when
the queue grows and when it evicts.  Functions that drop items return them, oldest removal first.
Closures of the source are functions, and the environment answers for the allocator and for the
search of the ring. -/

namespace SedsNet

/-- What a queued item accounts for: `byte_cost`, and the `size_of` its slot. -/
class ByteCost (T : Type) where
  byteCost : T → ℕ
  slotBytes : ℕ

open ByteCost

/-! ### Growth -/

/-- `f64::is_nan` on the bits of a number. -/
def isNan (bits : UInt64) : Bool := decide (0x7ff0000000000000 < bits &&& 0x7fffffffffffffff)

/-- The multiplier, given by the bits of an `f64`, as numerator and denominator. -/
def floatToRatio (mult : UInt64) : ℕ × ℕ :=
  let den := 1024
  if isNan mult then (den + 1, den)
  else if mult >>> 63 ≠ 0 ∨ mult < 0x3ff028f5c28f5c29 then (1034, den)
  else if 0x4030000000000000 ≤ mult then (16 * den, den)
  else
    let exponent := ((mult >>> 52) &&& 0x7ff) - 1023
    let significand := (mult &&& 0xfffffffffffff) ||| 0x10000000000000
    ((significand >>> (42 - exponent)).toNat, den)

/-- The environment of one call: the headroom probe, the capacity of a ring after a reservation, and
`VecDeque::partition_point`, which is specified for partitioned lists only. -/
structure QueueEnv (T : Type) where
  probe : AdmissionProbe
  reserve : ℕ → Option ℕ
  reserve_le : ∀ n c, reserve n = some c → n ≤ c
  partitionPoint : (T → Bool) → List T → ℕ
  partitionPoint_le : ∀ p l, partitionPoint p l ≤ l.length
  partitionPoint_append : ∀ p l l', (∀ x ∈ l, p x = true) → (∀ x ∈ l', p x = false) →
    partitionPoint p (l ++ l') = l.length

/-- Ask for less and less until the probe grants it; with the number of the next call. -/
def admittedInitialCapacity (probe : AdmissionProbe) (itemBytes : ℕ) :
    (fuel call capacity : ℕ) → ℕ × ℕ
  | 0, call, _ => (0, call)
  | fuel + 1, call, capacity =>
    if capacity = 0 then (0, call)
    else
      let bytes := satAdd (capacity * itemBytes) 64
      match probe.check call bytes bytes with
      | .ok () => (capacity, call + 1)
      | .error _ => admittedInitialCapacity probe itemBytes fuel (call + 1) (capacity / 2)

/-- The capacity of the first ring. -/
def allocateInitialRing {T : Type} (env : QueueEnv T) (itemBytes : ℕ) : (fuel call capacity : ℕ) → ℕ
  | 0, _, _ => 0
  | fuel + 1, call, capacity =>
    let admitted := admittedInitialCapacity env.probe itemBytes capacity call capacity
    if admitted.1 = 0 then 0
    else
      match env.reserve admitted.1 with
      | some ring => ring
      | none => allocateInitialRing env itemBytes fuel admitted.2 (admitted.1 / 2)

/-! ### The queue -/

structure BoundedDeque (T : Type) where
  q : List T
  /-- The capacity of the ring. -/
  capacity : ℕ
  maxBytes : ℕ
  curBytes : ℕ
  maxElems : ℕ
  growNum : ℕ
  growDen : ℕ
  fixedCapacity : Bool
  fairPriorityCursor : UInt8
  fairOwedPriority : UInt8
  fairOwedFlags : UInt8
deriving DecidableEq

def priorityTurnPending : UInt8 := 1
def priorityTurnActive : UInt8 := 2
def priorityTurnNestedAdmission : UInt8 := 4

/-- `checked_add`. -/
def usizeCheckedAdd (a b : ℕ) : Option ℕ := if a + b ≤ usizeMax then some (a + b) else none

/-- `checked_sub`. -/
def usizeCheckedSub (a b : ℕ) : Option ℕ := if b ≤ a then some (a - b) else none

namespace BoundedDeque

variable {T : Type} [ByteCost T]

variable (env : QueueEnv T) (d : BoundedDeque T) (v : T) (cost : ℕ) (priorityOf : T → UInt8)

/-- `new`, with the multiplier given by its bits. -/
def new (maxBytes startingBytes : ℕ) (growMult : UInt64) : TelemetryResult (BoundedDeque T) :=
  if maxBytes < startingBytes then .error (.aborted "starting_bytes must be less than max_bytes")
  else if maxBytes = 0 then .error (.aborted "max_bytes must be greater than 0")
  else if isNan growMult = false ∧ (growMult >>> 63 ≠ 0 ∨ growMult < 0x3ff0000000000000) then
    .error (.aborted "grow_mult must be at least 1.0")
  else
    let minCost := max (slotBytes T) 1
    let maxElems := max (maxBytes / minCost) 1
    let startCap := min (max (startingBytes / minCost) 1) maxElems
    .ok {
      q := []
      capacity := allocateInitialRing env minCost (startCap + 1) 0 startCap
      maxBytes
      curBytes := 0
      maxElems
      growNum := (floatToRatio growMult).1
      growDen := (floatToRatio growMult).2
      fixedCapacity := growMult == 0x3ff0000000000000
      fairPriorityCursor := 255
      fairOwedPriority := 0
      fairOwedFlags := 0 }

/-- Clear all items; an active turn keeps its owner reserved. -/
def clear : BoundedDeque T :=
  { d with
    q := []
    curBytes := 0
    fairPriorityCursor := 255
    fairOwedFlags := d.fairOwedFlags &&& priorityTurnActive }

/-! ### Removals -/

/-- The queue without the item `v`, whose remaining items are `q`. -/
def without (q : List T) : BoundedDeque T :=
  { d with q, curBytes := d.curBytes - byteCost v }

def popFront : Option (T × BoundedDeque T) :=
  match d.q with
  | [] => none
  | v :: q => some (v, d.without v q)

def popBack : Option (T × BoundedDeque T) :=
  match d.q.getLast? with
  | none => none
  | some v => some (v, d.without v d.q.dropLast)

def popLowestPriority : Option (T × BoundedDeque T) := d.popBack

def lowestPriority : Option UInt8 :=
  d.q.getLast?.map priorityOf

def removePos (idx : ℕ) : Option (T × BoundedDeque T) :=
  match d.q[idx]? with
  | none => none
  | some v => some (v, d.without v (d.q.eraseIdx idx))

def removeValue [DecidableEq T] (d : BoundedDeque T) (needle : T) : Option (T × BoundedDeque T) :=
  match d.q.findIdx? (· == needle) with
  | none => none
  | some idx => d.removePos idx

/-- Serve a ready queue sorted by descending priority; the burst bounds how long bulk work of the
lowest priority waits. -/
def popFrontBulkFair (burst maxBurst : UInt8) (priorityOf : T → UInt8) :
    Option (T × BoundedDeque T) × UInt8 :=
  match d.q with
  | [] => (none, 0)
  | first :: _ =>
    let front := priorityOf first
    let lowest := (d.lowestPriority priorityOf).getD front
    if 200 ≤ front ∨ front = lowest then (d.popFront, 0)
    else if burst < maxBurst then (d.popFront, burst + 1)
    else
      let index := (d.q.findIdx? fun item => priorityOf item == lowest).getD d.q.length
      (d.removePos index, 0)

/-- The loop of `retain_observed` from position `idx`. -/
def retainFrom (keep : T → Bool) : (fuel idx : ℕ) → BoundedDeque T → BoundedDeque T × List T
  | 0, _, d => (d, [])
  | fuel + 1, idx, d =>
    match d.q[idx]? with
    | none => (d, [])
    | some item =>
      if keep item then retainFrom keep fuel (idx + 1) d
      else
        match d.removePos idx with
        | none => (d, [])
        | some (old, d') =>
          let r := retainFrom keep fuel idx d'
          (r.1, old :: r.2)

def retainObserved (keep : T → Bool) : BoundedDeque T × List T :=
  retainFrom keep d.q.length 0 d

def retain (keep : T → Bool) : BoundedDeque T × List T := d.retainObserved keep

/-! ### Updates in place -/

def updateMetadata (index : ℕ) (update : T → T) : BoundedDeque T :=
  match d.q[index]? with
  | none => d
  | some item => { d with q := d.q.set index (update item) }

def updateAdmitted (index newCost : ℕ) (update : T → T) : TelemetryResult (BoundedDeque T) :=
  match d.q[index]? with
  | none => .error .badArg
  | some item =>
    let used := satAdd (d.curBytes - byteCost item) newCost
    if d.maxBytes < used then .error (.io "queue full")
    else .ok { d with q := d.q.set index (update item), curBytes := used }

/-! ### Room for one more item -/

/-- A front item that nobody looks at. -/
def dropFront : BoundedDeque T × List T :=
  match d.popFront with
  | none => (d, [])
  | some (v, d') => (d', [v])

/-- The capacity to grow to. -/
def targetCapacity : ℕ :=
  let scaled := satAdd (satMul d.capacity d.growNum) (d.growDen - 1)
  min (max (scaled / d.growDen) (d.capacity + 1)) d.maxElems

/-- Whether there is room, and the queue with what was dropped for it. -/
def ensureRoomForOne : Bool × BoundedDeque T × List T :=
  if d.q.length < d.capacity then (true, d, [])
  else if d.fixedCapacity then (true, d.dropFront)
  else if d.maxElems ≤ d.q.length then (true, d.dropFront)
  else if d.maxElems ≤ d.capacity then (true, d.dropFront)
  else
    let add := d.targetCapacity - d.capacity
    if 0 < add then
      let bytes := satAdd (satMul d.targetCapacity (slotBytes T)) 32
      match env.probe.check 0 bytes bytes, env.reserve (d.q.length + add) with
      | .ok (), some ring => (true, { d with capacity := ring }, [])
      | _, _ => (false, d, [])
    else (true, d.dropFront)

/-- The loop of `prepare_push_fifo`, which runs while the sum, wrapped, is over the budget. -/
def evictFront (cost : ℕ) : ℕ → BoundedDeque T → BoundedDeque T × List T
  | 0, d => (d, [])
  | fuel + 1, d =>
    if d.maxBytes < wrapAdd d.curBytes cost then
      match d.popFront with
      | none => (d, [])
      | some (v, d') =>
        let r := evictFront cost fuel d'
        (r.1, v :: r.2)
    else (d, [])

/-- A call that returned: its answer, the queue behind it, and the items that left. -/
structure PushOutcome (T : Type) where
  result : TelemetryResult Unit
  queue : BoundedDeque T
  evicted : List T

def preparePushFifo : PushOutcome T :=
  if d.capacity = 0 then ⟨.error (.io "queue unavailable"), d, []⟩
  else if d.maxBytes < cost then ⟨.error (.packetTooLarge "Item exceeds maximum byte budget"), d, []⟩
  else
    let r₁ := evictFront cost d.q.length d
    let r₂ := if r₁.1.maxElems ≤ r₁.1.q.length then r₁.1.dropFront else (r₁.1, [])
    let r₃ := r₂.1.ensureRoomForOne env
    let r₄ := if r₃.1 then (r₃.2.1, []) else r₃.2.1.dropFront
    ⟨.ok (), r₄.1, r₁.2 ++ r₂.2 ++ r₃.2.2 ++ r₄.2⟩

def pushBack : PushOutcome T :=
  let r := d.preparePushFifo env (byteCost v)
  match r.result with
  | .error _ => r
  | .ok () =>
    { r with queue := { r.queue with q := r.queue.q ++ [v], curBytes := satAdd r.queue.curBytes (byteCost v) } }

/-! ### Priorities -/

/-- Where the item goes, and its cost; all limits have been checked. -/
def insertPrioritizedPrepared (newPriority : UInt8) (priorityOf : T → UInt8) : BoundedDeque T :=
  let q :=
    if d.q.getLast?.all fun tail => decide (newPriority ≤ priorityOf tail) then d.q ++ [v]
    else if d.q.head?.any fun head => decide (priorityOf head < newPriority) then v :: d.q
    else
      d.q.insertIdx (env.partitionPoint (fun existing => decide (newPriority ≤ priorityOf existing)) d.q) v
  { d with q, curBytes := satAdd d.curBytes cost }

/-- An item of this priority gives way to the incoming one. -/
def yields (oldPriority newPriority : UInt8) : Bool :=
  !(decide (newPriority < oldPriority) || (newPriority == 254 && oldPriority == newPriority))

/-- The tail is the victim of an ordinary push. -/
def tailVictim (newPriority : UInt8) (priorityOf : T → UInt8) (d : BoundedDeque T) : TelemetryResult ℕ :=
  let tailPriority := (d.lowestPriority priorityOf).getD 0
  if !yields tailPriority newPriority then .error (.io "priority queue saturated")
  else if d.q.isEmpty then .error (.io "queue unavailable")
  else .ok (d.q.length - 1)

/-- The victim of a selector. -/
def selectedVictim (newPriority : UInt8) (priorityOf : T → UInt8) (victim : BoundedDeque T → Option ℕ)
    (d : BoundedDeque T) : TelemetryResult ℕ :=
  match victim d with
  | none => .error (.io "priority queue saturated")
  | some index =>
    match d.q[index]? with
    | none => .error (.io "priority queue saturated")
    | some old =>
      if !yields (priorityOf old) newPriority then .error (.io "priority queue saturated")
      else .ok index

/-- One of the admission limits is reached. -/
def atLimit : Bool :=
  decide (d.maxBytes < satAdd d.curBytes cost) || decide (d.maxElems ≤ d.q.length) ||
    (d.fixedCapacity && decide (d.capacity ≤ d.q.length))

/-- Whether the loop may stop, with the queue that may have grown. -/
def roomFor : Bool × BoundedDeque T × List T :=
  if d.atLimit cost then (false, d, []) else d.ensureRoomForOne env

/-- The admission loop of the prioritized pushes, which evicts one victim after the other. -/
def makeRoom (env : QueueEnv T) (cost : ℕ) (victim : BoundedDeque T → TelemetryResult ℕ) :
    (fuel : ℕ) → BoundedDeque T → PushOutcome T
  | fuel, d =>
    let room := d.roomFor env cost
    if room.1 then ⟨.ok (), room.2.1, room.2.2⟩
    else
      match victim d with
      | .error e => ⟨.error e, d, []⟩
      | .ok index =>
        match fuel, d.removePos index with
        | fuel + 1, some (old, d') =>
          let r := makeRoom env cost victim fuel d'
          { r with evicted := old :: r.evicted }
        | _, _ => ⟨.error (.io "queue unavailable"), d, []⟩

/-- The pushes that keep descending priorities, with the choice of victims. -/
def pushPrioritizedWith (victim : BoundedDeque T → TelemetryResult ℕ) : PushOutcome T :=
  if d.capacity = 0 then ⟨.error (.io "queue unavailable"), d, []⟩
  else if d.maxBytes < byteCost v then
    ⟨.error (.packetTooLarge "Item exceeds maximum byte budget"), d, []⟩
  else
    let r := makeRoom env (byteCost v) victim d.q.length d
    match r.result with
    | .error e => ⟨.error e, r.queue, r.evicted⟩
    | .ok () =>
      ⟨.ok (), r.queue.insertPrioritizedPrepared env v (byteCost v) (priorityOf v) priorityOf, r.evicted⟩

def pushBackPrioritizedObserved : PushOutcome T :=
  d.pushPrioritizedWith env v priorityOf (tailVictim (priorityOf v) priorityOf)

def pushBackPrioritized : PushOutcome T :=
  d.pushBackPrioritizedObserved env v priorityOf

def pushBackPrioritizedSelect (victim : BoundedDeque T → T → Option ℕ) : PushOutcome T :=
  d.pushPrioritizedWith env v priorityOf (selectedVictim (priorityOf v) priorityOf fun d => victim d v)

/-! ### Prepared items -/

/-- The length and the bytes with the given costs, within the limits. -/
def fitsWithin (len used : Option ℕ) : Bool :=
  match len, used with
  | some len, some bytes =>
    decide (len ≤ d.maxElems) && decide (len ≤ d.capacity) && decide (bytes ≤ d.maxBytes)
  | _, _ => false

def fitsPreparedBatch (costs : List ℕ) : Bool :=
  d.fitsWithin (usizeCheckedAdd d.q.length costs.length) (costs.foldlM usizeCheckedAdd d.curBytes)

def pushPreparedBatchItem (priority : UInt8) (priorityOf : T → UInt8) : TelemetryResult (BoundedDeque T) :=
  if d.fitsPreparedBatch [cost] then .ok (d.insertPrioritizedPrepared env v cost priority priorityOf)
  else .error (.aborted "assertion failed: self.fits_prepared_batch(&[cost])")

def fitsReplacementGroup (index : ℕ) (costs : List ℕ) : Bool :=
  match d.q[index]?, usizeCheckedSub costs.length 1 with
  | some old, some extra =>
    d.fitsWithin (usizeCheckedAdd d.q.length extra)
      ((usizeCheckedSub d.curBytes (byteCost old)).bind fun used => costs.foldlM usizeCheckedAdd used)
  | _, _ => false

/-- The replaced item is dropped. -/
def replacePreparedItem (index : ℕ) (item : T) (cost : ℕ) : TelemetryResult (BoundedDeque T × List T) :=
  match d.q[index]? with
  | none => .error (.aborted "checked retained owner")
  | some old =>
    match (usizeCheckedSub d.curBytes (byteCost old)).bind fun used => usizeCheckedAdd used cost with
    | none => .error (.aborted "called Option::unwrap() on a None value")
    | some used => .ok ({ d with q := d.q.set index item, curBytes := used }, [old])

def replacePreparedGroup (index : ℕ) (values : List (T × ℕ))
    (priorityOf : T → UInt8) : TelemetryResult (BoundedDeque T × List T) :=
  match values with
  | [] => .error (.aborted "assertion failed: !values.is_empty()")
  | (first, cost) :: rest => do
      let r ← d.replacePreparedItem index first cost
      return (rest.foldl (fun d value =>
        d.insertPrioritizedPrepared env value.1 value.2 (priorityOf value.1) priorityOf) r.1, r.2)

/-! ### Fair selection -/

/-- The ready item of a lower priority whose turn is next after the cursor, searched from position
`idx`; `best` is the one found so far with its priority and its distance. -/
def nearestLower (cursor frontPriority : UInt8) (ready : T → Bool) (priorityOf : T → UInt8) :
    (idx : ℕ) → (best : Option (ℕ × UInt8 × UInt8)) → List T → Option (ℕ × UInt8 × UInt8)
  | _, best, [] => best
  | idx, best, item :: rest =>
    let priority := priorityOf item
    let distance := cursor - priority - 1
    let nearer := best.all fun b => decide (distance < b.2.2)
    let best' := if ready item && decide (priority < frontPriority) && nearer then
      some (idx, priority, distance) else best
    nearestLower cursor frontPriority ready priorityOf (idx + 1) best' rest

/-- The position to serve, with the queue and the burst after the choice. -/
def selectFrontFairWithContext (burst maxBurst : UInt8) (priorityOf : T → UInt8)
    (eligible : List T → T → Bool) : Option ℕ × BoundedDeque T × UInt8 :=
  match d.q.findIdx? (eligible d.q) with
  | none => (none, d, burst)
  | some front =>
    let frontPriority := (d.q[front]?.map priorityOf).getD 0
    match nearestLower d.fairPriorityCursor frontPriority (eligible d.q) priorityOf (front + 1) none
        (d.q.drop (front + 1)) with
    | none => (some front, d, 0)
    | some (lower, lowerPriority, _) =>
      if maxBurst ≤ burst then (some lower, { d with fairPriorityCursor := lowerPriority }, 0)
      else (some front, d, if burst = 255 then 255 else burst + 1)

/-- A debt to a band without items is forgotten. -/
def forgetEmptyBand : BoundedDeque T :=
  if d.q.any fun item => priorityOf item == d.fairOwedPriority then d else { d with fairOwedFlags := 0 }

/-- The position with whether the selection owns the owed turn. -/
def selectFrontFairDeferred (burst maxBurst : UInt8) (priorityOf : T → UInt8)
    (eligible : List T → T → Bool) : Option (ℕ × Bool) × BoundedDeque T × UInt8 :=
  let waiting := d.fairOwedFlags &&& priorityTurnPending != 0 && d.fairOwedFlags &&& priorityTurnActive == 0
  let urgent := d.q.findIdx? fun item => priorityOf item == 255 && eligible d.q item
  let owed := d.q.findIdx? fun item => priorityOf item == d.fairOwedPriority && eligible d.q item
  match waiting, decide (burst < maxBurst), urgent, owed with
  | true, true, some index, _ => (some (index, false), d, if burst = 255 then 255 else burst + 1)
  | true, _, _, some index =>
    (some (index, true), { d with fairOwedFlags := d.fairOwedFlags ||| priorityTurnActive }, burst)
  | _, _, _, _ =>
    let d₁ := if waiting then d.forgetEmptyBand priorityOf else d
    match d₁.selectFrontFairWithContext burst maxBurst priorityOf eligible with
    | (none, d₂, burst₂) => (none, d₂, burst₂)
    | (some index, d₂, burst₂) =>
      let priority := (d₂.q[index]?.map priorityOf).getD 0
      let burst₃ := if d₂.fairOwedFlags &&& priorityTurnPending != 0 then min (max burst burst₂) maxBurst
        else burst₂
      if d₂.fairOwedFlags == 0 && d₂.q.any (fun item => decide (priority < priorityOf item)) then
        (some (index, true),
          { d₂ with
            fairOwedPriority := priority
            fairOwedFlags := priorityTurnPending ||| priorityTurnActive
            fairPriorityCursor := d₁.fairPriorityCursor }, burst)
      else (some (index, false), d₂, burst₃)

def cancelDeferredTurn : BoundedDeque T :=
  { d with fairOwedFlags := d.fairOwedFlags &&& priorityTurnActive }

def finishDeferredTurn (priority : UInt8) (owns admitted retained : Bool)
    (burst : UInt8) : BoundedDeque T × UInt8 :=
  let flags := if !owns && admitted && d.fairOwedFlags &&& priorityTurnActive != 0 then
    d.fairOwedFlags ||| priorityTurnNestedAdmission else d.fairOwedFlags
  if !owns || flags &&& priorityTurnActive == 0 || d.fairOwedPriority != priority then
    ({ d with fairOwedFlags := flags }, burst)
  else if admitted || !retained then
    if flags &&& priorityTurnPending != 0 then
      ({ d with fairPriorityCursor := priority, fairOwedFlags := 0 }, 0)
    else ({ d with fairOwedFlags := 0 }, burst)
  else
    ({ d with fairOwedFlags := flags &&& ~~~(priorityTurnActive ||| priorityTurnNestedAdmission) },
      if flags &&& priorityTurnNestedAdmission == 0 then 0 else burst)

end BoundedDeque

end SedsNet
