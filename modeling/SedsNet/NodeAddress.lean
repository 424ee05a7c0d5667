import SedsNet.OrderedMap
import SedsNet.RouterItem

/-! # Node identities

The hostname and the address of a router, and the address book in which it keeps those of its peers
(`router.rs`): an advertisement is ingested in two parts, `prepareAddressRecord` and
`ingestPreparedAddress`.  When it claims the hostname or the address of the local node, the one with
the better claim keeps it and the other one is renamed or moved.

`uniqueHostname` has no value where the search of the source goes on for ever, and an
`expect` that fails is an `aborted` result. -/

namespace SedsNet

open OrderedMap
open Std (ExtTreeMap)

/-! ### Claims to a hostname or an address -/

inductive AddressAssignmentMode where
  | dynamic
  | requested (address : UInt32)
  | static (address : UInt32)
deriving DecidableEq, Repr

namespace AddressAssignmentMode

def modeCode : AddressAssignmentMode → UInt8
  | dynamic => 0
  | requested _ => 1
  | static _ => 2

/-- `address_mode_from_code`. -/
def fromCode (mode : UInt8) (wanted : UInt32) : AddressAssignmentMode :=
  if mode = 2 then .static (if wanted = 0 then 1 else wanted)
  else if mode = 1 then .requested (if wanted = 0 then 1 else wanted)
  else .dynamic

def rank : AddressAssignmentMode → ℕ
  | static _ => 2
  | requested _ => 1
  | dynamic => 0

end AddressAssignmentMode

structure AddressBookEntry where
  hostname : Bytes
  address : UInt32
  requestedAddress : UInt32
  mode : AddressAssignmentMode
  birthMs : UInt64
  ownerHash : UInt64
  lastSeenMs : UInt64
deriving DecidableEq

/-- The identity that an advertisement carries. -/
structure AddressAdvertisement where
  hostname : Bytes
  address : UInt32
  requestedAddress : UInt32
  mode : UInt8
  birthMs : UInt64
  ownerHash : UInt64
deriving DecidableEq

namespace AddressBookEntry

/-- The order of `identity_winner_pref`: an earlier birth, then a lower owner. -/
def identityWins (a b : AddressBookEntry) : Bool :=
  a.birthMs < b.birthMs || a.birthMs == b.birthMs && a.ownerHash < b.ownerHash

/-- The order of `address_winner_pref`: a firmer mode comes before the identity. -/
def addressWins (a b : AddressBookEntry) : Bool :=
  b.mode.rank < a.mode.rank || a.mode.rank == b.mode.rank && a.identityWins b

def advertisement (e : AddressBookEntry) : AddressAdvertisement :=
  ⟨e.hostname, e.address, e.requestedAddress, e.mode.modeCode, e.birthMs, e.ownerHash⟩

end AddressBookEntry

def AddressAdvertisement.entry (ad : AddressAdvertisement) (now : UInt64) : AddressBookEntry where
  hostname := ad.hostname
  address := ad.address
  requestedAddress := ad.requestedAddress
  mode := .fromCode ad.mode ad.requestedAddress
  birthMs := ad.birthMs
  ownerHash := ad.ownerHash
  lastSeenMs := now

/-! ### The address book -/

structure NodeState where
  localAddress : AddressBookEntry
  book : ExtTreeMap Bytes AddressBookEntry
  byValue : ExtTreeMap UInt32 Bytes

/-- `fallback_address_for_hostname`. -/
def fallbackAddressForHostname (hostname : Bytes) : UInt32 :=
  let hash := senderHash hostname
  let address := hash.toUInt32 ^^^ (hash >>> 32).toUInt32
  if address = 0 then 1 else address

namespace NodeState

/-- A new router; a relay has no record of itself. -/
def new (localAddress : AddressBookEntry) (localServices : Bool) : NodeState where
  localAddress
  book := if localServices then (∅ : ExtTreeMap Bytes AddressBookEntry).insert localAddress.hostname localAddress else ∅
  byValue := if localServices then (∅ : ExtTreeMap UInt32 Bytes).insert localAddress.address localAddress.hostname else ∅

/-- The search of `allocate_free_address_locked` from a candidate on. -/
def allocateFrom (byValue : ExtTreeMap UInt32 Bytes) : (rounds : ℕ) → UInt32 → UInt32
  | 0, _ => 1
  | rounds + 1, candidate =>
    if candidate ≠ 0 ∧ candidate ∉ byValue then candidate
    else allocateFrom byValue rounds (if candidate + 1 = 0 then 1 else candidate + 1)

variable (s : NodeState) (ad : AddressAdvertisement) (remote : AddressBookEntry)

def allocateFreeAddress (seed : UInt32) : UInt32 :=
  allocateFrom s.byValue (2 ^ 32 - 1) (if seed = 0 then 1 else seed)

/-- The address to start from for an entry that has to move. -/
def addressSeed (e : AddressBookEntry) : UInt32 :=
  max e.requestedAddress (fallbackAddressForHostname e.hostname)

def hexDigit (n : ℕ) : UInt8 := if n < 10 then UInt8.ofNat (48 + n) else UInt8.ofNat (87 + n)

def hexLoop : (rounds : ℕ) → (remaining : ℕ) → Bytes → Bytes
  | 0, _, out => out
  | rounds + 1, n, out =>
    let out := hexDigit (n % 16) :: out
    if n / 16 = 0 then out else hexLoop rounds (n / 16) out

/-- The format `08x`. -/
def formatHex08 (n : UInt64) : Bytes :=
  let digits := hexLoop 16 n.toNat []
  List.replicate (8 - digits.length) 0x30 ++ digits

/-- The bytes of `"node"`. -/
def nodeStem : Bytes := [0x6E, 0x6F, 0x64, 0x65]

/-- The candidates of `unique_hostname_locked`: without a suffix, then with one. -/
def hostnameCandidate (base : Bytes) (ownerHash : UInt64) (suffix : ℕ) : Bytes :=
  let stem := (if base = [] then nodeStem else base) ++ 0x2D :: formatHex08 ownerHash
  if suffix = 0 then stem else stem ++ 0x2D :: decimalLoop 10 suffix []

/-- The hostname is in the book or the local one. -/
def taken (hostname : Bytes) : Bool :=
  s.book.contains hostname || s.localAddress.hostname == hostname

def uniqueFrom (s : NodeState) (base : Bytes) (ownerHash : UInt64) : (rounds : ℕ) → (suffix : ℕ) → Option Bytes
  | 0, _ => none
  | rounds + 1, suffix =>
    let candidate := hostnameCandidate base ownerHash suffix
    if s.taken candidate then s.uniqueFrom base ownerHash rounds (suffix + 1) else some candidate

/-- `unique_hostname_locked`: the suffix stops at `u32::MAX`, so there are `2 ^ 32` candidates. -/
def uniqueHostname (base : Bytes) (ownerHash : UInt64) : Option Bytes :=
  if s.taken base then s.uniqueFrom base ownerHash (2 ^ 32) 0 else some base

/-- The state with another local identity, whose record replaces the old one. -/
def withLocal (next : AddressBookEntry) : NodeState where
  localAddress := next
  book := (s.book.erase s.localAddress.hostname).insert next.hostname next
  byValue := (s.byValue.erase s.localAddress.address).insert next.address next.hostname

/-- `update_local_identity_locked`. -/
def updateLocalIdentity (next : AddressBookEntry) (spare : Option AddressBookEntry)
    (now : UInt64) : TelemetryResult NodeState :=
  if s.book.contains s.localAddress.hostname || spare.isSome then
    .ok (s.withLocal { next with lastSeenMs := now })
  else .error (.io "local identity changed")

/-- The state with the record of a peer. -/
def withPeer : NodeState where
  localAddress := s.localAddress
  book := s.book.insert remote.hostname remote
  byValue := (s.byValue.erase remote.address).insert remote.address remote.hostname

/-! ### Advertisements -/

structure PreparedAddressRecords where
  peer : Option AddressBookEntry
  spare : Option AddressBookEntry

/-- The record of the host is of the same owner. -/
def known (hostname : Bytes) (ownerHash : UInt64) : Bool :=
  s.book[hostname]?.any fun entry => entry.ownerHash == ownerHash

/-- The advertisement changes the local identity. -/
def movesLocal : Bool :=
  remote.ownerHash != s.localAddress.ownerHash &&
    (remote.hostname == s.localAddress.hostname && remote.identityWins s.localAddress ||
      remote.address == s.localAddress.address && remote.addressWins s.localAddress)

/-- `prepare_address_record`; `granted` is the answer to its allocations. -/
def prepareAddressRecord (now : UInt64) (granted : Bool) : TelemetryResult PreparedAddressRecords :=
  let prepared : PreparedAddressRecords := {
    peer := if s.known ad.hostname ad.ownerHash then none else some (ad.entry now)
    spare :=
      if s.movesLocal (ad.entry now) && !s.book.contains s.localAddress.hostname then some s.localAddress
      else none }
  if (prepared.peer.isSome || prepared.spare.isSome) && !granted then .error (.io "memory pressure")
  else .ok prepared

def hostnameConflict : Bool :=
  remote.hostname == s.localAddress.hostname && remote.ownerHash != s.localAddress.ownerHash

def addressConflict : Bool :=
  remote.address == s.localAddress.address && remote.ownerHash != s.localAddress.ownerHash

inductive AddressChangeReason where
  | dynamicConflict | requestedConflict | staticConflict | hostnameConflict
deriving DecidableEq

/-- The reason for a change of the local address. -/
def moveReason : AddressAssignmentMode → AddressChangeReason
  | .static _ => .staticConflict
  | .requested _ => .requestedConflict
  | .dynamic => .dynamicConflict

/-- A state with the identity of the peer as it is recorded, whether a conflict was resolved, and why
the local identity has changed. -/
structure Resolution where
  state : NodeState
  remote : AddressBookEntry
  changed : Bool
  reason : Option AddressChangeReason

/-- The local node gives its hostname up. -/
def yieldHostname (spare : Option AddressBookEntry) (now : UInt64) : TelemetryResult Resolution :=
  match s.uniqueHostname s.localAddress.hostname s.localAddress.ownerHash with
  | none => .error (.aborted "no end of the search for a hostname")
  | some hostname =>
    match s.updateLocalIdentity { s.localAddress with hostname } spare now with
    | .error e => .error e
    | .ok s => .ok ⟨s, remote, true, some .hostnameConflict⟩

/-- The local node gives its address up. -/
def yieldAddress (spare : Option AddressBookEntry) (now : UInt64) : TelemetryResult Resolution :=
  let address := s.allocateFreeAddress (addressSeed s.localAddress)
  match s.updateLocalIdentity { s.localAddress with address } spare now with
  | .error e => .error e
  | .ok s' => .ok ⟨s', remote, true, some (moveReason s.localAddress.mode)⟩

/-- The resolution of conflicts with the local identity. -/
def resolveConflict (spare : Option AddressBookEntry) (now : UInt64) : TelemetryResult Resolution :=
  if s.hostnameConflict remote && remote.identityWins s.localAddress then s.yieldHostname remote spare now
  else if s.addressConflict remote && remote.addressWins s.localAddress then s.yieldAddress remote spare now
  else if s.hostnameConflict remote then
    match s.uniqueHostname remote.hostname remote.ownerHash with
    | none => .error (.aborted "no end of the search for a hostname")
    | some hostname => .ok ⟨s, { remote with hostname }, true, none⟩
  else if s.addressConflict remote then
    .ok ⟨s, { remote with address := s.allocateFreeAddress (addressSeed remote) }, true, none⟩
  else .ok ⟨s, remote, false, none⟩

/-- The record of the peer goes to the book; one that is not `fresh` was taken from it. -/
def recordPeer (r : Resolution) (ad : AddressAdvertisement) (fresh : Bool) : TelemetryResult Resolution :=
  if fresh then .ok { r with state := r.state.withPeer r.remote }
  else if r.state.book.contains ad.hostname then
    .ok { r with state := { r.state with book := r.state.book.erase ad.hostname }.withPeer r.remote }
  else .error (.aborted "known peer remains present")

/-- The critical section of `ingest_prepared_address`. -/
def ingestRemote (prepared : PreparedAddressRecords) (now : UInt64) : TelemetryResult Resolution :=
  if prepared.peer.isNone && !s.known remote.hostname remote.ownerHash then
    .error (.io "peer identity changed")
  else
    match s.resolveConflict remote prepared.spare now with
    | .error e => .error e
    | .ok r => recordPeer r ad prepared.peer.isSome

/-- `ingest_prepared_address`. -/
def ingestPreparedAddress (prepared : PreparedAddressRecords) (now : UInt64) : TelemetryResult Resolution :=
  s.ingestRemote ad { prepared.peer.getD (ad.entry now) with lastSeenMs := now } prepared now

/-- An advertisement is prepared and ingested with nothing between. -/
def ingest (now : UInt64) (granted : Bool) : TelemetryResult Resolution :=
  match s.prepareAddressRecord ad now granted with
  | .error e => .error e
  | .ok prepared => s.ingestPreparedAddress ad prepared now

end NodeState

end SedsNet
