import SedsNet.Endpoints

/-! # Packets and sender addresses

The payload-bearing `Packet` of `packet.rs` with its constructor and its 64-bit identity, the
compact source address of a sender name, and the process-wide address book of `wire_format.rs`.

A `Packet` carries the invariants its constructor establishes: the cached size is the payload
length, there is an endpoint, and the owned slices have lengths a slice can have.  An
`AddressBook` carries the invariant that every stored name has the address it is stored under;
names enter it only through `sourceAddressForSender`.  Hence the name shown for an address always
leads back to that address (`senderAddressU32_senderName`). -/

namespace SedsNet

open ByteWords

/-! ### Hashing and sender addresses -/

/-- `hash_bytes_u64`: one multiply-and-mix round per byte. -/
def hashBytesU64 (h : UInt64) (bytes : Bytes) : UInt64 :=
  bytes.foldl
    (fun h b =>
      let h := (h ^^^ b.toUInt64) * 0x9E3779B1
      h ^^^ (h >>> 27))
    h

theorem hashBytesU64_append (h : UInt64) (xs ys : Bytes) :
    hashBytesU64 h (xs ++ ys) = hashBytesU64 (hashBytesU64 h xs) ys := by
  simp [hashBytesU64, List.foldl_append]

/-- The bytes of `"@addr:"`. -/
def addressAlias : Bytes := [0x40, 0x61, 0x64, 0x64, 0x72, 0x3A]

/-- The digits of a decimal `u32`, with the overflow checks of `str::parse`. -/
def parseDigits : Bytes → (acc : ℕ) → Option ℕ
  | [], acc => some acc
  | b :: bs, acc =>
    if 48 ≤ b.toNat ∧ b.toNat ≤ 57 then
      let acc' := acc * 10 + (b.toNat - 48)
      if acc' < 2 ^ 32 then parseDigits bs acc' else none
    else none

/-- `str::parse::<u32>`: digits with an optional leading plus sign. -/
def parseU32 (s : Bytes) : Option UInt32 :=
  match s with
  | [] => none
  | [b] => if b = 0x2B ∨ b = 0x2D then none else (parseDigits [b] 0).map UInt32.ofNat
  | b :: bs => (parseDigits (if b = 0x2B then bs else b :: bs) 0).map UInt32.ofNat

/-- The numeric address behind an `@addr:` alias. -/
def aliasAddress (sender : Bytes) : Option UInt32 :=
  if sender.take addressAlias.length = addressAlias then
    parseU32 (sender.drop addressAlias.length)
  else none

/-- Compact source address of a sender name. -/
def senderAddressU32 (sender : Bytes) : UInt32 :=
  match aliasAddress sender with
  | some address => address
  | none =>
    let raw := (hashBytesU64 0xA6D38C214B7F19E5 sender).toUInt32
    if raw = 0 then 1 else raw

/-- The digit loop of `format_sender_address`; the digits are written from the right. -/
def decimalLoop : (rounds : ℕ) → (remaining : ℕ) → Bytes → Bytes
  | 0, _, out => out
  | rounds + 1, n, out =>
    let out := UInt8.ofNat (48 + n % 10) :: out
    if n / 10 = 0 then out else decimalLoop rounds (n / 10) out

def formatSenderAddress (addr : UInt32) : Bytes := addressAlias ++ decimalLoop 10 addr.toNat []

theorem parseDigits_cons_digit {d : ℕ} (acc : ℕ) (hd : d < 10) (hfit : acc * 10 + d < 2 ^ 32) (out : Bytes) :
    parseDigits (UInt8.ofNat (48 + d) :: out) acc = parseDigits out (acc * 10 + d) := by
  have hb : (UInt8.ofNat (48 + d)).toNat = 48 + d := by
    rw [UInt8.toNat_ofNat']
    omega
  rw [parseDigits, hb, if_pos (by omega)]
  simp only [Nat.add_sub_cancel_left, if_pos hfit]

theorem parseDigits_decimalLoop : ∀ (rounds n : ℕ) (out : Bytes), n < 10 ^ rounds → 0 < rounds →
    n < 2 ^ 32 → parseDigits (decimalLoop rounds n out) 0 = parseDigits out n
  | 0, _, _, _, hpos, _ => absurd hpos (by omega)
  | rounds + 1, n, out, hn, _, hfit => by
      rw [decimalLoop]
      split
      · have := parseDigits_cons_digit 0 (Nat.mod_lt n (by decide : 0 < 10)) (by omega) out
        rw [this]
        congr 1
        omega
      · have hlt : n / 10 < 10 ^ rounds := by
          rw [Nat.div_lt_iff_lt_mul (by decide)]
          exact hn
        have hrounds : 0 < rounds := by
          rcases Nat.eq_zero_or_pos rounds with rfl | h
          · omega
          · exact h
        rw [parseDigits_decimalLoop rounds (n / 10) _ hlt hrounds (by omega),
          parseDigits_cons_digit _ (Nat.mod_lt n (by decide)) (by omega)]
        congr 1
        omega

theorem decimalLoop_head : ∀ (rounds n : ℕ) (out : Bytes), 0 < rounds →
    ∃ d tail, decimalLoop rounds n out = UInt8.ofNat (48 + d) :: tail ∧ d < 10
  | 0, _, _, h => absurd h (by omega)
  | rounds + 1, n, out, _ => by
      rw [decimalLoop]
      split
      · exact ⟨n % 10, out, rfl, Nat.mod_lt n (by decide)⟩
      · cases rounds with
        | zero => exact ⟨n % 10, out, rfl, Nat.mod_lt n (by decide)⟩
        | succ rounds => exact decimalLoop_head (rounds + 1) (n / 10) _ (by omega)

theorem digit_ne_sign : ∀ d < 10, UInt8.ofNat (48 + d) ≠ 0x2B ∧ UInt8.ofNat (48 + d) ≠ 0x2D := by
  decide

/-- Formatting an address and parsing the alias gives the address back. -/
theorem senderAddressU32_format (addr : UInt32) : senderAddressU32 (formatSenderAddress addr) = addr := by
  have hlt := addr.toNat_lt
  obtain ⟨d, tail, hcons, hd⟩ := decimalLoop_head 10 addr.toNat [] (by decide)
  obtain ⟨hplus, hminus⟩ := digit_ne_sign d hd
  have hdigits : parseDigits (decimalLoop 10 addr.toNat []) 0 = some addr.toNat :=
    parseDigits_decimalLoop 10 addr.toNat [] (by omega) (by decide) hlt
  rw [hcons] at hdigits
  have hparse : parseU32 (decimalLoop 10 addr.toNat []) = some addr := by
    rw [hcons]
    cases tail with
    | nil =>
      rw [parseU32, if_neg (not_or.mpr ⟨hplus, hminus⟩), hdigits, Option.map_some,
        UInt32.ofNat_toNat]
    | cons t tail =>
      rw [parseU32, if_neg hplus, hdigits, Option.map_some, UInt32.ofNat_toNat]
      simp
  have halias : aliasAddress (formatSenderAddress addr) = some addr := by
    rw [aliasAddress, formatSenderAddress, List.take_left, if_pos rfl, List.drop_left, hparse]
  rw [senderAddressU32, halias]

/-! ### The address book -/

/-- Hostnames seen by this process, by source address (`remember_source_address` adds them). -/
structure AddressBook where
  entries : Std.ExtTreeMap UInt32 Bytes
  /-- Every name stands under its own address. -/
  consistent : ∀ addr name, entries[addr]? = some name → senderAddressU32 name = addr

namespace AddressBook

def empty : AddressBook := ⟨∅, by simp⟩

/-- The remembered name of an address, or its numeric alias. -/
def senderNameForAddress (book : AddressBook) (addr : UInt32) : Bytes :=
  match book.entries[addr]? with
  | some name => name
  | none => formatSenderAddress addr

end AddressBook

theorem senderAddressU32_senderName (book : AddressBook) (addr : UInt32) :
    senderAddressU32 (book.senderNameForAddress addr) = addr := by
  unfold AddressBook.senderNameForAddress
  split
  · rename_i name h
    exact book.consistent addr name h
  · exact senderAddressU32_format addr

/-! ### Payload validation -/

/-- Element width used for dynamic payloads; strings and binary data count bytes. -/
def elementWidth : MessageDataType → ℕ
  | .uint8 | .int8 | .bool => 1
  | .uint16 | .int16 => 2
  | .uint32 | .int32 | .float32 => 4
  | .uint64 | .int64 | .float64 => 8
  | .uint128 | .int128 => 16
  | .string | .binary => 1
  | .noData => 0

/-- The bytes up to the last one that is not zero. -/
def trimTrailingZeros (bytes : Bytes) : Bytes := (bytes.reverse.dropWhile (· == 0)).reverse

def validateDynamicLenAndContent (element : MessageElement) (bytes : Bytes) : TelemetryResult Unit :=
  match element.dataType with
  | .string =>
    if ByteArray.validateUTF8 ⟨(trimTrailingZeros bytes).toArray⟩ then .ok ()
    else .error .invalidUtf8
  | .binary => .ok ()
  | dt =>
    let w := elementWidth dt
    if w = 0 ∨ bytes.length % w ≠ 0 then .error (.sizeMismatch w bytes.length) else .ok ()

def validatePayloadAgainstElement (reg : Registry) (element : MessageElement) (payload : Bytes) :
    TelemetryResult Unit :=
  match element with
  | .static need dt _ =>
    let need := wrapMul need.toNat (reg.dataTypeSize dt)
    if payload.length ≠ need then .error (.sizeMismatch need payload.length) else .ok ()
  | .dynamic _ _ => validateDynamicLenAndContent element payload

/-! ### Packets -/

structure Packet where
  ty : DataType
  dataSize : ℕ
  sender : Bytes
  endpoints : List DataEndpoint
  timestamp : UInt64
  nonce : UInt16
  payload : Bytes
  wireShape : Option MessageElement
  wireTargetSenders : Option (List UInt64)
  dataSize_eq : dataSize = payload.length
  endpoints_ne_nil : endpoints ≠ []
  payload_fits : payload.length ≤ isizeMax
  targets_fit : 8 * (wireTargetSenders.getD []).length ≤ isizeMax
deriving DecidableEq

namespace Packet

/-- `Packet::new_with_owned_wire_contract`.  The source's slices cannot be longer than
`isize::MAX` bytes; a longer list is no argument of it. -/
def newWithOwnedWireContract (reg : Registry) (ty : DataType) (endpoints : List DataEndpoint)
    (sender : Bytes) (timestamp : UInt64) (nonce : UInt16) (payload : Bytes)
    (wireShape : Option MessageElement) (wireTargetSenders : Option (List UInt64)) :
    TelemetryResult Packet :=
  if hne : endpoints = [] then .error .emptyEndpoints
  else
    let element := wireShape.getD (reg.messageMeta ty).element
    match validatePayloadAgainstElement reg element payload with
    | .error e => .error e
    | .ok () =>
      if hfit : payload.length ≤ isizeMax ∧ 8 * (wireTargetSenders.getD []).length ≤ isizeMax then
        .ok { ty, dataSize := payload.length, sender, endpoints, timestamp, nonce, payload,
              wireShape, wireTargetSenders, dataSize_eq := rfl, endpoints_ne_nil := hne,
              payload_fits := hfit.1, targets_fit := hfit.2 }
      else .error (.aborted "capacity overflow")

/-- `Packet::wire_target_senders`: the frozen targets as a slice. -/
def targetSenders (p : Packet) : List UInt64 := p.wireTargetSenders.getD []

/-- The hash of everything but the payload. -/
def packetIdHeader (p : Packet) : UInt64 :=
  let h := hashBytesU64 0x9E3779B97F4A7C15 (leBytes 4 (senderAddressU32 p.sender).toNat)
  let h := hashBytesU64 h (leBytes 4 p.ty.toNat)
  let h :=
    if strictlyAscending p.endpoints then
      p.endpoints.foldl (fun h ep => hashBytesU64 h (leBytes 4 ep.toNat)) h
    else
      (uniqueSortedEndpoints p.endpoints).foldl (fun h ep => hashBytesU64 h (leBytes 4 ep.toNat)) h
  let h := hashBytesU64 h (leBytes 8 p.timestamp.toNat)
  let h := hashBytesU64 h (leBytes 2 p.nonce.toNat)
  hashBytesU64 h (leBytes 8 p.dataSize)

/-- The hash chain of the identity, from the fields it covers. -/
def identityHash (sourceAddress : UInt32) (ty : DataType) (eps : List DataEndpoint) (ts : UInt64)
    (nonce : UInt16) (payload : Bytes) : UInt64 :=
  hashBytesU64 (hashBytesU64 (hashBytesU64 (hashBytesU64
    (eps.foldl (fun h ep => hashBytesU64 h (leBytes 4 ep.toNat))
      (hashBytesU64 (hashBytesU64 0x9E3779B97F4A7C15 (leBytes 4 sourceAddress.toNat))
        (leBytes 4 ty.toNat)))
    (leBytes 8 ts.toNat)) (leBytes 2 nonce.toNat)) (leBytes 8 payload.length)) payload

/-- The stable 64-bit identity of a packet. -/
def packetId (p : Packet) : UInt64 := hashBytesU64 p.packetIdHeader p.payload

variable {reg : Registry} {ty : DataType} {endpoints : List DataEndpoint} {sender payload : Bytes}
  {timestamp : UInt64} {nonce : UInt16} {wireShape : Option MessageElement}
  {wireTargetSenders : Option (List UInt64)}

/-- The fields of an accepted packet, and why it was accepted. -/
theorem newWithOwnedWireContract_ok {p : Packet}
    (h : newWithOwnedWireContract reg ty endpoints sender timestamp nonce payload wireShape wireTargetSenders = .ok p) :
    p.ty = ty ∧ p.endpoints = endpoints ∧ p.sender = sender ∧ p.timestamp = timestamp ∧
      p.nonce = nonce ∧ p.payload = payload ∧ p.wireShape = wireShape ∧ p.wireTargetSenders = wireTargetSenders ∧
      validatePayloadAgainstElement reg (wireShape.getD (reg.messageMeta ty).element) payload = .ok () := by
  unfold newWithOwnedWireContract at h
  split at h
  · cases h
  cases hv : validatePayloadAgainstElement reg (wireShape.getD (reg.messageMeta ty).element)
    payload with
  | error e => simp [hv] at h
  | ok u =>
    simp only [hv] at h
    split at h
    · cases h
      exact ⟨rfl, rfl, rfl, rfl, rfl, rfl, rfl, rfl, rfl⟩
    · cases h

/-- The constructor accepts whatever validates and fits. -/
theorem newWithOwnedWireContract_of_valid (hne : endpoints ≠ [])
    (hv : validatePayloadAgainstElement reg (wireShape.getD (reg.messageMeta ty).element) payload = .ok ())
    (hp : payload.length ≤ isizeMax) (ht : 8 * (wireTargetSenders.getD []).length ≤ isizeMax) :
    ∃ p, newWithOwnedWireContract reg ty endpoints sender timestamp nonce payload wireShape
      wireTargetSenders = .ok p := by
  unfold newWithOwnedWireContract
  rw [dif_neg hne]
  simp only [hv]
  rw [dif_pos ⟨hp, ht⟩]
  exact ⟨_, rfl⟩

/-- The identity hashes the endpoint set in ascending order, however it was listed. -/
theorem packetId_eq (p : Packet) : p.packetId =
    identityHash (senderAddressU32 p.sender) p.ty (uniqueSortedEndpoints p.endpoints) p.timestamp
      p.nonce p.payload := by
  rw [packetId, packetIdHeader, identityHash, ← p.dataSize_eq]
  split
  · rename_i hasc
    rw [uniqueSortedEndpoints_of_pairwise ((strictlyAscending_iff _).mp hasc)]
  · rfl

end Packet

/-! ### Handlers -/

/-- The handlers that are called: in turn, until one fails. -/
def called (answer : ℕ → TelemetryResult Unit) : List ℕ → List ℕ
  | [] => []
  | handler :: handlers => handler :: if (answer handler).isOk then called answer handlers else []

theorem called_of_all_ok {answer : ℕ → TelemetryResult Unit} {handlers : List ℕ}
    (h : ∀ handler ∈ handlers, (answer handler).isOk = true) : called answer handlers = handlers := by
  induction handlers with
  | nil => rfl
  | cons handler handlers ih =>
    rw [called, if_pos (h handler List.mem_cons_self),
      ih fun other hother => h other (List.mem_cons_of_mem _ hother)]

end SedsNet
