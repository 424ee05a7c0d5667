import Mathlib

/-! # Schema registry

The error type shared by the crate, message elements and their wire codes, and the runtime
registry of endpoints and data types (`config.rs`, `lib.rs`).  Names, descriptions and the
encryption policy of a registered type are not read by the modelled functions and are left out.

Sizes are those of a 64-bit host.  `usize` arithmetic of the source that may wrap or saturate is
written with `wrapAdd`, `wrapMul`, `satAdd` and `satMul`. -/

namespace SedsNet

/-- A byte string: packed frames, payloads, and names as their UTF-8 bytes. -/
abbrev Bytes := List UInt8

/-! ### Machine sizes -/

/-- `usize::MAX`. -/
def usizeMax : ℕ := 2 ^ 64 - 1

/-- `isize::MAX`, the largest length in bytes of any slice or vector. -/
def isizeMax : ℕ := 2 ^ 63 - 1

/-- `usize` addition in the release profile. -/
def wrapAdd (a b : ℕ) : ℕ := (a + b) % 2 ^ 64

/-- `usize` multiplication in the release profile. -/
def wrapMul (a b : ℕ) : ℕ := (a * b) % 2 ^ 64

/-- `usize::saturating_add`. -/
def satAdd (a b : ℕ) : ℕ := min (a + b) usizeMax

/-- `usize::saturating_mul`. -/
def satMul (a b : ℕ) : ℕ := min (a * b) usizeMax

/-- `TelemetryError`, restricted to the variants the modelled functions return.  `aborted` stands
for a panic, with its message. -/
inductive TelemetryError where
  | invalidType
  | sizeMismatch (expected got : ℕ)
  | sizeMismatchError
  | emptyEndpoints
  | badArg
  | pack (msg : String)
  | unpack (msg : String)
  | io (msg : String)
  | invalidUtf8
  | packetTooLarge (msg : String)
  | handlerError (msg : String)
  | aborted (msg : String)
deriving DecidableEq, Repr

abbrev TelemetryResult (α : Type) := Except TelemetryError α

/-- The error of a failed call. -/
def errorOf {α : Type} : TelemetryResult α → Option TelemetryError
  | .error e => some e
  | .ok _ => none

variable {α β : Type} {x : TelemetryResult α}

theorem exists_ok (h : x.isOk = true) : ∃ r, x = .ok r := by
  cases x with
  | ok r => exact ⟨r, rfl⟩
  | error e => cases h

/-- A sequence of calls succeeds only if its first call does. -/
theorem bind_eq_ok {f : α → TelemetryResult β} {b : β}
    (h : x >>= f = .ok b) : ∃ a, x = .ok a ∧ f a = .ok b := by
  cases x with
  | error e => cases h
  | ok a => exact ⟨a, rfl, h⟩

theorem map_eq_ok {f : α → β} {r : β} (h : x.map f = .ok r) :
    ∃ a, x = .ok a ∧ f a = r := by
  cases x with
  | ok a =>
    cases h
    exact ⟨a, rfl, rfl⟩
  | error e => cases h

/-! ### Message elements -/

inductive MessageDataType where
  | float64 | float32 | uint8 | uint16 | uint32 | uint64 | uint128
  | int8 | int16 | int32 | int64 | int128 | bool | string | binary | noData
deriving DecidableEq, Repr

inductive MessageClass where
  | data | error | warning
deriving DecidableEq, Repr

/-- How many elements a message holds; the count is a `usize`. -/
inductive MessageElement where
  | static (count : UInt64) (dt : MessageDataType) (cls : MessageClass)
  | dynamic (dt : MessageDataType) (cls : MessageClass)
deriving DecidableEq, Repr

namespace MessageElement

def dataType : MessageElement → MessageDataType
  | static _ dt _ => dt
  | dynamic dt _ => dt

def messageType : MessageElement → MessageClass
  | static _ _ cls => cls
  | dynamic _ cls => cls

end MessageElement

def messageDataTypeCode : MessageDataType → UInt8
  | .float64 => 0
  | .float32 => 1
  | .uint8 => 2
  | .uint16 => 3
  | .uint32 => 4
  | .uint64 => 5
  | .uint128 => 6
  | .int8 => 7
  | .int16 => 8
  | .int32 => 9
  | .int64 => 10
  | .int128 => 11
  | .bool => 12
  | .string => 13
  | .binary => 14
  | .noData => 15

def messageDataTypeFromCode (code : UInt8) : Option MessageDataType :=
  match code.toNat with
  | 0 => some .float64
  | 1 => some .float32
  | 2 => some .uint8
  | 3 => some .uint16
  | 4 => some .uint32
  | 5 => some .uint64
  | 6 => some .uint128
  | 7 => some .int8
  | 8 => some .int16
  | 9 => some .int32
  | 10 => some .int64
  | 11 => some .int128
  | 12 => some .bool
  | 13 => some .string
  | 14 => some .binary
  | 15 => some .noData
  | _ => none

def messageClassCode : MessageClass → UInt8
  | .data => 0
  | .error => 1
  | .warning => 2

def messageClassFromCode (code : UInt8) : Option MessageClass :=
  match code.toNat with
  | 0 => some .data
  | 1 => some .error
  | 2 => some .warning
  | _ => none

theorem messageDataTypeFromCode_code (dt : MessageDataType) :
    messageDataTypeFromCode (messageDataTypeCode dt) = some dt := by
  cases dt <;> rfl

theorem messageClassFromCode_code (cls : MessageClass) : messageClassFromCode (messageClassCode cls) = some cls := by
  cases cls <;> rfl

/-! ### Data types and endpoints -/

/-- `DataType(pub u32)`. -/
abbrev DataType := UInt32

/-- `DataEndpoint(pub u32)`. -/
abbrev DataEndpoint := UInt32

namespace DataType

def reliableAck : DataType := 1
def reliablePacketRequest : DataType := 2
def reliablePartialAck : DataType := 3
def discoveryAnnounce : DataType := 7
def discoveryTimesyncSources : DataType := 8
def discoveryTopology : DataType := 9
def discoverySchema : DataType := 10
def discoveryTopologyRequest : DataType := 11
def discoverySchemaRequest : DataType := 12
def managedVariableRequest : DataType := 13
def managedVariableValue : DataType := 14
def discoveryLeave : DataType := 15
def discoveryLinkCapabilities : DataType := 16
def discoveryAddress : DataType := 17
def p2pMessage : DataType := 18

end DataType

/-- `DataEndpoint::Discovery`. -/
def discoveryEndpoint : DataEndpoint := 201

/-- Data types of discovery control packets. -/
def isDiscoveryType (ty : DataType) : Bool :=
  ty == .discoveryAnnounce || ty == .discoveryTimesyncSources || ty == .discoveryTopology ||
    ty == .discoverySchema || ty == .discoveryTopologyRequest || ty == .discoverySchemaRequest ||
    ty == .managedVariableRequest || ty == .managedVariableValue || ty == .discoveryLeave ||
    ty == .discoveryLinkCapabilities || ty == .discoveryAddress

inductive ReliableMode where
  | none | ordered | unordered
deriving DecidableEq, Repr

structure MessageMeta where
  element : MessageElement
  endpoints : List DataEndpoint
  reliable : ReliableMode
  priority : UInt8
deriving DecidableEq, Repr

/-- The runtime schema: registered endpoints and data types in table order. -/
structure Registry where
  endpoints : List DataEndpoint
  types : List (DataType × MessageMeta)
  /-- `runtime_static_string_length()`. -/
  staticStringLength : ℕ
  /-- `runtime_static_hex_length()`. -/
  staticHexLength : ℕ

namespace Registry

variable (reg : Registry)

def endpointExists (ep : DataEndpoint) : Bool := reg.endpoints.any (· == ep)

variable (ty : DataType)

def dataTypeExists : Bool := reg.types.any (·.1 == ty)

/-- `DataEndpoint::try_from_u32`. -/
def tryEndpoint (x : UInt32) : Option DataEndpoint := if reg.endpointExists x then some x else none

/-- `DataType::try_from_u32`. -/
def tryDataType (x : UInt32) : Option DataType := if reg.dataTypeExists x then some x else none

def tryGetMessageMeta : Option MessageMeta :=
  (reg.types.find? (·.1 == ty)).map (·.2)

/-- Metadata of a type, with the fallback for types the registry does not know. -/
def messageMeta : MessageMeta :=
  (reg.tryGetMessageMeta ty).getD
    { element := .dynamic .binary .data, endpoints := [], reliable := .none, priority := 0 }

/-- `message_delivery_meta`: the reliable mode and the priority of a type. -/
def messageDeliveryMeta : ReliableMode × UInt8 :=
  match reg.types.find? (·.1 == ty) with
  | some (_, m) => (m.reliable, m.priority)
  | none => (.none, 0)

def reliableMode : ReliableMode := (reg.messageDeliveryMeta ty).1

def isReliableType : Bool := reg.reliableMode ty != .none

/-- Size in bytes of one element. -/
def dataTypeSize : MessageDataType → ℕ
  | .float64 => 8
  | .float32 => 4
  | .uint8 => 1
  | .uint16 => 2
  | .uint32 => 4
  | .uint64 => 8
  | .uint128 => 16
  | .int8 => 1
  | .int16 => 2
  | .int32 => 4
  | .int64 => 8
  | .int128 => 16
  | .bool => 1
  | .string => reg.staticStringLength
  | .binary => reg.staticHexLength
  | .noData => 0

theorem tryDataType_eq_some {x : UInt32} {ty : DataType} (h : reg.tryDataType x = some ty) :
    ty = x ∧ reg.dataTypeExists ty = true := by
  unfold tryDataType at h
  split at h
  · cases h
    exact ⟨rfl, ‹_›⟩
  · cases h

theorem dataTypeExists_iff : reg.dataTypeExists ty = true ↔ ∃ m, reg.tryGetMessageMeta ty = some m := by
  rw [dataTypeExists, List.any_eq_true, tryGetMessageMeta]
  constructor
  · intro h
    obtain ⟨p, hp⟩ := Option.isSome_iff_exists.mp (List.find?_isSome.mpr h)
    exact ⟨p.2, by rw [hp, Option.map_some]⟩
  · rintro ⟨m, hm⟩
    obtain ⟨p, hp, -⟩ := Option.map_eq_some_iff.mp hm
    exact ⟨p, List.mem_of_find?_eq_some hp, List.find?_some (p := fun q : DataType × MessageMeta => q.1 == ty) hp⟩

theorem messageMeta_of_some {ty : DataType} {m : MessageMeta}
    (h : reg.tryGetMessageMeta ty = some m) : reg.messageMeta ty = m := by
  simp [messageMeta, h]

theorem messageMeta_endpoints_of_not_exists {ty : DataType} (h : reg.dataTypeExists ty = false) :
    (reg.messageMeta ty).endpoints = [] := by
  cases hm : reg.tryGetMessageMeta ty with
  | none => simp [messageMeta, hm]
  | some m =>
    have := (reg.dataTypeExists_iff ty).mpr ⟨m, hm⟩
    simp [h] at this

end Registry

end SedsNet
