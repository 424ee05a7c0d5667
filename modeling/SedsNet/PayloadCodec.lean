import SedsNet.Packet

/-! # The ledger of codec leases

A side may send compressed payloads while every peer behind it is known to decode them
(`payload_codec.rs`).  The ledger keeps the peers it has learned, four addresses of senders it does
not know yet, and one time until which everything that it had to forget may still be alive.

Times are natural numbers here; the sums of the source that saturate do so at the `u64` limit. -/

namespace SedsNet

/-! ### Records -/

structure CodecPeer where
  sender : Bytes
  address : UInt32
  /-- The address that the name hashes to. -/
  aliasOf : UInt32
  owner : UInt64
  birth : UInt64
  lastSeen : ℕ
  supported : Bool
  confirmed : Bool
deriving DecidableEq

/-- An unknown sender; a slot is free when `untilMs` is zero. -/
structure PendingAddress where
  address : UInt32
  untilMs : ℕ
deriving DecidableEq

/-- `size_of::<Peer>()`. -/
def codecPeerSize : ℕ := 56

structure Ledger where
  /-- The peers in the order of their names. -/
  peers : List CodecPeer
  capacity : ℕ
  namesBytes : ℕ
  pending : List PendingAddress
  overflowUntil : ℕ
  allowed : Bool
  ambiguous : Bool
  recheckCollisions : Bool
  nextExpiry : ℕ
  generation : ℕ

/-- The announcement of a peer: its identity and whether it decodes. -/
structure CodecIdentity where
  address : UInt32
  sender : Bytes
  owner : UInt64
  birth : UInt64
  supported : Bool

namespace CodecPeer

/-- The address is one of the two of the peer. -/
def answersTo (p : CodecPeer) (address : UInt32) : Bool := p.address == address || p.aliasOf == address

def isLive (p : CodecPeer) (now ttl : ℕ) : Bool := now - p.lastSeen ≤ ttl

/-- The peers share an address. -/
def collides (p other : CodecPeer) : Bool := [p.address, p.aliasOf].any fun value => other.answersTo value

end CodecPeer

/-- The first entry that satisfies `p` is changed by `f`. -/
def updateFirst {α : Type} (p : α → Bool) (f : α → α) : List α → Option (List α)
  | [] => none
  | a :: l => if p a then some (f a :: l) else (updateFirst p f l).map (a :: ·)

namespace Ledger

/-- The default ledger. -/
def new : Ledger where
  peers := []
  capacity := 0
  namesBytes := 0
  pending := List.replicate 4 ⟨0, 0⟩
  overflowUntil := 0
  allowed := false
  ambiguous := false
  recheckCollisions := false
  nextExpiry := 0
  generation := 0

variable (l : Ledger) (index : ℕ) (id : CodecIdentity) (address : UInt32) (now : ℕ)

/-- `allowed`: compressed payloads may be sent at the time `now`. -/
def allowedAt : Bool := l.allowed && decide (now ≤ l.nextExpiry)

def heapBytes : ℕ := l.capacity * codecPeerSize + l.namesBytes

def nameBytes (name : Bytes) : ℕ := (satAdd name.length 16 + 7) / 8 * 8

def changed : Ledger := { l with generation := (l.generation + 1) % 2 ^ 64 }

def changedIf (c : Bool) : Ledger := if c then l.changed else l

/-! ### Recomputation -/

/-- Two peers share an address. -/
def anyCollision (peers : List CodecPeer) : Bool :=
  peers.zipIdx.any fun (peer, index) => (peers.take index).any fun other => peer.collides other

/-- The peers that are live, and the slots that are still in use. -/
def dropExpired (ttl : ℕ) : Ledger :=
  let kept := l.peers.filter fun p => p.isLive now ttl
  let removed := ((l.peers.filter fun p => !p.isLive now ttl).map fun p => nameBytes p.sender).sum
  { l with
    peers := kept
    capacity := if kept = [] then 0 else l.capacity
    namesBytes := l.namesBytes - removed
    pending := l.pending.map fun q => if q.untilMs < now then ⟨0, 0⟩ else q }

/-- The collisions are looked for again when peers are gone or have moved. -/
def recheck (before : ℕ) : Ledger :=
  if before ≠ l.peers.length ∨ l.recheckCollisions then
    { l with ambiguous := anyCollision l.peers, recheckCollisions := false }
  else l

/-- Everything that is known is in favour of compressed payloads. -/
def favourable : Bool :=
  !l.peers.isEmpty && (l.overflowUntil == 0 || decide (l.overflowUntil < now)) && !l.ambiguous &&
    l.peers.all (fun p => p.confirmed && p.supported && p.address != 0) &&
    l.pending.all (fun q => q.untilMs == 0) && !(decide (now ≤ l.overflowUntil) && l.overflowUntil != 0)

/-- The first time at which something expires. -/
def firstExpiry (ttl : ℕ) : ℕ :=
  let peers := l.peers.foldl (fun expiry p => min expiry (satAdd p.lastSeen ttl)) usizeMax
  let pending := l.pending.foldl (fun expiry q => if q.untilMs ≠ 0 then min expiry q.untilMs else expiry) peers
  if now ≤ l.overflowUntil ∧ l.overflowUntil ≠ 0 then min pending l.overflowUntil else pending

def recompute (ttl : ℕ) : Ledger :=
  let before := l.peers.length
  let l := (l.dropExpired now ttl).recheck before
  let allowed := l.favourable now
  let l := l.changedIf (allowed != l.allowed || before != l.peers.length)
  { l with allowed, nextExpiry := l.firstExpiry now ttl }

/-! ### Unknown senders -/

/-- An unknown sender is kept in its slot, in a free one, or in the overflow time. -/
def storePending (ttl : ℕ) : Ledger :=
  let untilMs := satAdd now ttl
  match updateFirst (fun q => q.untilMs != 0 && q.address == address) (fun q => { q with untilMs }) l.pending with
  | some pending => { l with pending }
  | none =>
    match updateFirst (fun q => decide (q.untilMs < now) || q.untilMs == 0) (fun _ => ⟨address, untilMs⟩) l.pending with
    | some pending => { l with pending }.changed
    | none =>
      let newlyBlocked := l.overflowUntil == 0 || decide (l.overflowUntil < now)
      { l with overflowUntil := max l.overflowUntil untilMs }.changedIf newlyBlocked

/-- `pending`: an unknown sender withdraws the permission. -/
def markPending (ttl : ℕ) : Ledger :=
  let l := l.storePending address now ttl
  { l.changedIf l.allowed with allowed := false, nextExpiry := min l.nextExpiry (satAdd now ttl) }

/-- The loop of `unique_address`. -/
def uniqueLoop (wanted : CodecPeer → Bool) : List CodecPeer → (index : ℕ) → (found : Option ℕ) → Option ℕ
  | [], _, found => found
  | p :: peers, index, found =>
    if wanted p then
      if found.isSome then none else uniqueLoop wanted peers (index + 1) (some index)
    else uniqueLoop wanted peers (index + 1) found

/-- The one live peer with that address. -/
def uniqueAddress (ttl : ℕ) : Option ℕ :=
  uniqueLoop (fun p => p.answersTo address && p.isLive now ttl) l.peers 0 none

def modifyPeer (f : CodecPeer → CodecPeer) : Ledger :=
  { l with peers := l.peers.modify index f }

def recomputeIf (c : Bool) (now ttl : ℕ) : Ledger := if c then l.recompute now ttl else l

def observe (ttl : ℕ) : Ledger :=
  match l.uniqueAddress address now ttl with
  | none => l.markPending address now ttl
  | some index =>
    (l.modifyPeer index fun p => { p with lastSeen := now }).recomputeIf (decide (l.nextExpiry ≤ now)) now ttl

def revokeIfUnsupported (supported : Bool) (now ttl : ℕ) : Ledger :=
  let l := l.observe address now ttl
  if supported then l
  else
    match l.uniqueAddress address now ttl with
    | none => l
    | some index =>
      let wasSupported := l.peers[index]?.any CodecPeer.supported
      ((l.modifyPeer index fun p => { p with supported := false }).changedIf wasSupported).recompute now ttl

/-! ### Identities -/

/-- The binary search by name: where the name is, or where it belongs. -/
def position (sender : Bytes) : ℕ × Bool :=
  let index := (l.peers.takeWhile fun p => compare p.sender sender == .lt).length
  (index, l.peers[index]?.any fun p => p.sender == sender)

/-- Slots with an address of the identity are freed. -/
def clearPending (addresses : List UInt32) : Ledger :=
  { l with pending := l.pending.map fun q => if q.untilMs ≠ 0 ∧ q.address ∈ addresses then ⟨0, 0⟩ else q }

/-- The end of `learn`: slots are freed, and what has changed is recomputed. -/
def finishLearn (addresses : List UInt32) (changed : Bool) (now ttl : ℕ) : Ledger :=
  let freed := l.pending.any fun q => q.untilMs != 0 && addresses.contains q.address
  let changed := changed || freed
  let l := (l.clearPending addresses).changedIf changed
  l.recomputeIf (changed || decide (l.nextExpiry ≤ now)) now ttl

/-- A known peer with another identity or support; it does not win support back without a new birth. -/
def relearn (p : CodecPeer) (id : CodecIdentity) (now : ℕ) : CodecPeer where
  sender := p.sender
  address := id.address
  aliasOf := senderAddressU32 id.sender
  owner := id.owner
  birth := id.birth
  lastSeen := now
  supported :=
    if p.owner = id.owner ∧ p.birth = id.birth ∧ p.confirmed then p.supported && id.supported else id.supported
  confirmed := true

def learnKnown (p : CodecPeer) (id : CodecIdentity) (now ttl : ℕ) : Ledger :=
  let p' := relearn p id now
  let changed := decide (p.owner ≠ id.owner ∨ p.birth ≠ id.birth) || !p.confirmed ||
    p'.supported != p.supported || p.address != id.address
  let l := { l with recheckCollisions := l.recheckCollisions || p.address != id.address }
  (l.modifyPeer index fun _ => p').finishLearn [id.address, senderAddressU32 id.sender] changed now ttl

def newPeer : CodecPeer :=
  ⟨id.sender, id.address, senderAddressU32 id.sender, id.owner, id.birth, now, id.supported, true⟩

/-- The capacity after one more peer. -/
def grownCapacity : ℕ :=
  if l.peers.length = l.capacity then max (Nat.nextPowerOfTwo (l.peers.length + 1)) 4 else l.capacity

def learnNew (ttl : ℕ) : Ledger :=
  let p := newPeer id now
  let l := { l with
    peers := l.peers.insertIdx index p
    capacity := l.grownCapacity
    namesBytes := satAdd l.namesBytes (nameBytes id.sender)
    ambiguous := l.ambiguous || l.peers.any fun other => p.collides other }
  l.finishLearn [id.address, senderAddressU32 id.sender] true now ttl

/-- `learn`; `refusal` is the error of an admission check or an allocation for a new peer. -/
def learn (ttl : ℕ) (refusal : Option TelemetryError) : Ledger × TelemetryResult Unit :=
  if id.sender = [] then (l.markPending id.address now ttl, .ok ())
  else
    let (index, known) := l.position id.sender
    match known, l.peers[index]? with
    | true, some p => (l.learnKnown index p id now ttl, .ok ())
    | _, _ =>
      if 2 ^ 63 < l.peers.length + 1 then (l, .error (.io "memory pressure"))
      else
        match refusal with
        | some e => (l.markPending id.address now ttl, .error e)
        | none => (l.learnNew index id now ttl, .ok ())

/-- The peer is no longer trusted. -/
def distrust (different : Bool) : Ledger :=
  { (l.modifyPeer index fun p => { p with supported := false, confirmed := p.confirmed && !different }) with
    allowed := false }.changed

/-- `hint_address`: an identity that was not accepted. -/
def hintAddress (ttl : ℕ) : Ledger :=
  let (index, known) := l.position id.sender
  match known, l.peers[index]? with
  | true, some p =>
    let different := decide (p.owner ≠ id.owner ∨ p.birth ≠ id.birth ∨ p.address ≠ id.address)
    if different && p.confirmed || !id.supported && p.supported then l.distrust index different else l
  | _, _ => (l.markPending id.address now ttl).markPending (senderAddressU32 id.sender) now ttl

/-! ### Removal -/

def removePeer : Ledger :=
  match l.peers[index]? with
  | none => l
  | some p =>
    { l with
      peers := l.peers.eraseIdx index
      recheckCollisions := true
      namesBytes := l.namesBytes - nameBytes p.sender }.changed

/-- The slots of the address are freed. -/
def freeAddress : Ledger :=
  { l with pending := l.pending.map fun q => if q.address = address then ⟨0, 0⟩ else q }

def removeAddress (ttl : ℕ) : Ledger :=
  match l.uniqueAddress address now ttl with
  | none => (l.freeAddress address).recompute now ttl
  | some index => ((l.removePeer index).freeAddress address).recompute now ttl

/-- All peers are forgotten, and nothing is permitted until `untilMs`. -/
def forget (untilMs : ℕ) : Ledger :=
  { l with
    peers := []
    capacity := 0
    namesBytes := 0
    allowed := false
    ambiguous := false
    recheckCollisions := false
    overflowUntil := untilMs
    nextExpiry := untilMs }.changed

/-- `evict_for_budget`: the time until the last lease ends. -/
def evictForBudget (ttl : ℕ) : Ledger :=
  if l.heapBytes = 0 then l
  else
    let untilMs := ((l.peers.map fun p => satAdd p.lastSeen ttl) ++ l.pending.map PendingAddress.untilMs ++
      [l.overflowUntil]).foldl max 0
    l.forget untilMs

def evict (ttl : ℕ) : Ledger := l.forget (satAdd now ttl)

def expire (ttl : ℕ) : Ledger := l.recomputeIf (decide (l.nextExpiry < now)) now ttl

/-! ### Runs -/

inductive Event where
  | observe (address : UInt32) (now : ℕ)
  | revokeIfUnsupported (address : UInt32) (supported : Bool) (now : ℕ)
  | learn (id : CodecIdentity) (now : ℕ) (refusal : Option TelemetryError)
  | hintAddress (id : CodecIdentity) (now : ℕ)
  | removeAddress (address : UInt32) (now : ℕ)
  | evictForBudget
  | evict (now : ℕ)
  | expire (now : ℕ)

def step (ttl : ℕ) (l : Ledger) : Event → Ledger
  | .observe address now => l.observe address now ttl
  | .revokeIfUnsupported address supported now => l.revokeIfUnsupported address supported now ttl
  | .learn id now refusal => (l.learn id now ttl refusal).1
  | .hintAddress id now => l.hintAddress id now ttl
  | .removeAddress address now => l.removeAddress address now ttl
  | .evictForBudget => l.evictForBudget ttl
  | .evict now => l.evict now ttl
  | .expire now => l.expire now ttl

end Ledger

end SedsNet
