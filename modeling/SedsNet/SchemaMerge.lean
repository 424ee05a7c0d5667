import SedsNet.Packet

/-! # Merging schema snapshots

The hosted schema registry of `config.rs` and `schema_identity.rs`: registering definitions, and
merging the snapshot of another node into the registry.  Endpoint and type definitions are merged
by the same procedure, `mergeDefinition`, from what `DefinitionKind` says of each.  The counters for
the next free id are left out, since no function here reads them. -/

namespace SedsNet

open ByteWords

/-! ### Definitions -/

inductive E2eEncryptionPolicy where
  | preferOff
  | preferOn
  | requireOn
deriving DecidableEq, Repr

structure OwnedEndpointDefinition where
  id : DataEndpoint
  name : String
  description : String
  linkLocalOnly : Bool
deriving DecidableEq, Repr

structure OwnedDataTypeDefinition where
  id : DataType
  name : String
  description : String
  element : MessageElement
  endpoints : List DataEndpoint
  reliable : ReliableMode
  priority : UInt8
  e2eEncryption : E2eEncryptionPolicy
deriving DecidableEq, Repr

structure OwnedRuntimeSchemaSnapshot where
  endpoints : List OwnedEndpointDefinition
  types : List OwnedDataTypeDefinition
deriving DecidableEq, Repr

/-- The registered definitions, in the order of their ids. -/
structure SchemaRegistry where
  endpoints : List OwnedEndpointDefinition
  types : List OwnedDataTypeDefinition
deriving DecidableEq, Repr

/-- The bytes of a name. -/
def nameBytes (name : String) : Bytes := name.toUTF8.toList

/-! ### Reserved identities -/

namespace SchemaIdentity

variable (name : String)

/-- `name_id`: an FNV hash outside the protocol's id range. -/
def nameId (space : UInt32) : UInt32 :=
  0x10000 ||| ((nameBytes name).foldl (fun h b => (h ^^^ b.toUInt32) * 0x01000193)
    (0x811c9dc5 ^^^ space) &&& 0x0fffffff)

/-- The hash of a reserved name stands for its protocol id. -/
def reservedId (reserved : List (UInt32 × String × UInt32)) (name : String) (hashed : UInt32) :
    UInt32 :=
  match reserved.find? (·.1 == hashed) with
  | some (_, reservedName, id) => if name = reservedName then id else hashed
  | none => hashed

def endpointId : UInt32 :=
  reservedId [(179412986, "SEDSNET_ERROR", 202), (108886069, "SEDSNET_TIME_SYNC", 200),
    (216355494, "SEDSNET_DISCOVERY", 201)] name (nameId name 0x4550)

def typeId : UInt32 :=
  reservedId [
    (58436129, "SEDSNET_ERROR", 0),
    (106117325, "SEDSNET_RELIABLE_ACK", 1),
    (196062750, "SEDSNET_RELIABLE_PACKET_REQUEST", 2),
    (148884243, "SEDSNET_RELIABLE_PARTIAL_ACK", 3),
    (109685708, "SEDSNET_TIME_SYNC_ANNOUNCE", 4),
    (170500828, "SEDSNET_TIME_SYNC_REQUEST", 5),
    (205765904, "SEDSNET_TIME_SYNC_RESPONSE", 6),
    (30659965, "SEDSNET_DISCOVERY_ANNOUNCE", 7),
    (235996729, "SEDSNET_DISCOVERY_TIMESYNC_SOURCES", 8),
    (240880835, "SEDSNET_DISCOVERY_TOPOLOGY", 9),
    (180082409, "SEDSNET_DISCOVERY_SCHEMA", 10),
    (9124173, "SEDSNET_DISCOVERY_TOPOLOGY_REQUEST", 11),
    (259220559, "SEDSNET_DISCOVERY_SCHEMA_REQUEST", 12),
    (190130393, "SEDSNET_MANAGED_VARIABLE_REQUEST", 13),
    (148495321, "SEDSNET_MANAGED_VARIABLE_VALUE", 14),
    (79804237, "SEDSNET_DISCOVERY_LEAVE", 15),
    (155796665, "SEDSNET_DISCOVERY_LINK_CAPABILITIES", 16),
    (133165958, "SEDSNET_DISCOVERY_ADDRESS", 17),
    (32457485, "SEDSNET_P2P_MESSAGE", 18)] name (nameId name 0x5459)

/-- `resolve` for an explicit id: reserved names and reserved ids belong together. -/
def resolve (id default : UInt32) (protocolName protocolId : Bool) : Bool :=
  !name.isEmpty && !((protocolName && id != default) || (protocolId && (!protocolName || id != default)))

/-- The endpoint ids 200 to 202. -/
def isProtocolEndpoint (id : UInt32) : Bool := decide (200 ≤ id) && decide (id ≤ 202)

def resolveEndpoint (id : UInt32) : Bool :=
  resolve name id (endpointId name) (isProtocolEndpoint (endpointId name)) (isProtocolEndpoint id)

def resolveType (id : UInt32) : Bool :=
  resolve name id (typeId name) (decide (typeId name ≤ 18)) (decide (id ≤ 18))

end SchemaIdentity

def isInternalEndpoint (ep : DataEndpoint) : Bool := ep == 202 || ep == 200 || ep == 201

/-- The types of the protocol have the ids up to `DataType::P2pMessage`. -/
def isInternalDataType (ty : DataType) : Bool := decide (ty ≤ 18)

/-! ### Fingerprints -/

def hashBytes (h : UInt64) (bytes : Bytes) : UInt64 :=
  bytes.foldl (fun h b => (h ^^^ b.toUInt64) * 0x100000001B3) h

def hashMessageElement (h : UInt64) : MessageElement → UInt64
  | .static count dt cls =>
    hashBytes (hashBytes (hashBytes (hashBytes h [0]) (leBytes 8 count.toNat))
      [messageDataTypeCode dt]) [messageClassCode cls]
  | .dynamic dt cls => hashBytes (hashBytes (hashBytes h [1]) [messageDataTypeCode dt]) [messageClassCode cls]

def reliableCode : ReliableMode → UInt8
  | .none => 0
  | .ordered => 1
  | .unordered => 2

def e2eEncryptionPolicyCode : E2eEncryptionPolicy → UInt8
  | .preferOff => 0
  | .preferOn => 1
  | .requireOn => 2

def endpointFingerprint (d : OwnedEndpointDefinition) : UInt64 :=
  let h := hashBytes 0x4550444546000001 (leBytes 4 d.id.toNat)
  let h := hashBytes h (nameBytes d.name)
  hashBytes h [if d.linkLocalOnly then 1 else 0]

def typeFingerprint (d : OwnedDataTypeDefinition) : UInt64 :=
  let h := hashBytes 0x5459444546000001 (leBytes 4 d.id.toNat)
  let h := hashBytes h (nameBytes d.name)
  let h := hashMessageElement h d.element
  let h := hashBytes h [reliableCode d.reliable]
  let h := hashBytes h [d.priority]
  let h := hashBytes h [e2eEncryptionPolicyCode d.e2eEncryption]
  d.endpoints.foldl (fun h ep => hashBytes h (leBytes 4 ep.toNat)) h

/-- The lexicographic order of fingerprint, id and name. -/
def keyLe (a b : UInt64 × UInt32 × String) : Bool :=
  decide (a.1 < b.1) || (a.1 == b.1 && (decide (a.2.1 < b.2.1) ||
    (a.2.1 == b.2.1 && decide (nameBytes a.2.2 ≤ nameBytes b.2.2))))

def endpointWinner (a b : OwnedEndpointDefinition) : OwnedEndpointDefinition :=
  if keyLe (endpointFingerprint a, a.id, a.name) (endpointFingerprint b, b.id, b.name) then a else b

def typeWinner (a b : OwnedDataTypeDefinition) : OwnedDataTypeDefinition :=
  if keyLe (typeFingerprint a, a.id, a.name) (typeFingerprint b, b.id, b.name) then a else b

/-! ### Merging one definition -/

def descriptionsAgree (a b : String) : Bool := a == b || a.isEmpty || b.isEmpty

def endpointDefEquivalent (a b : OwnedEndpointDefinition) : Bool :=
  a.id == b.id && a.name == b.name && descriptionsAgree a.description b.description &&
    a.linkLocalOnly == b.linkLocalOnly

def typeDefEquivalent (a b : OwnedDataTypeDefinition) : Bool :=
  a.id == b.id && a.name == b.name && descriptionsAgree a.description b.description &&
    a.element == b.element && a.endpoints == b.endpoints && a.reliable == b.reliable &&
    a.priority == b.priority && a.e2eEncryption == b.e2eEncryption

/-- `endpoint_placeholder`: the name `ENDPOINT_` followed by the id. -/
def endpointPlaceholder (id : DataEndpoint) (name : String) : Bool :=
  decide ((nameBytes name).take 9 = nameBytes "ENDPOINT_") &&
    parseU32 ((nameBytes name).drop 9) == some id

def endpointIdentityConflicts (a : DataEndpoint) (aName : String) (b : DataEndpoint)
    (bName : String) : Bool :=
  if a = b then aName != bName && !endpointPlaceholder a aName && !endpointPlaceholder b bName
  else aName == bName

def mergeEndpointMetadata (a b : OwnedEndpointDefinition) : OwnedEndpointDefinition :=
  if isInternalEndpoint a.id then a
  else if a.id = b.id ∧ a.name ≠ b.name ∧ endpointPlaceholder a.id a.name = true ∧
      endpointPlaceholder b.id b.name = false then b
  else if a.id = b.id ∧ a.name ≠ b.name ∧ endpointPlaceholder b.id b.name = true ∧
      endpointPlaceholder a.id a.name = false then a
  else if a.id ≠ b.id ∨ a.name ≠ b.name then endpointWinner a b
  else { a with linkLocalOnly := a.linkLocalOnly || b.linkLocalOnly }

/-- `Vec::dedup_by_key`: of neighbours with one key the first stays. -/
def dedupByKey {α κ : Type} [DecidableEq κ] (key : α → κ) : List α → List α
  | [] => []
  | a :: l =>
    match dedupByKey key l with
    | [] => [a]
    | b :: rest => if key b = key a then a :: rest else a :: b :: rest

/-- The missing destinations are pushed, and the list is sorted without repeats. -/
def unionEndpoints (a b : List DataEndpoint) : List DataEndpoint :=
  let pushed := b.foldl (fun eps ep => if ep ∈ eps then eps else eps ++ [ep]) a
  dedupByKey id (pushed.insertionSort (· ≤ ·))

def mergeTypeMetadata (a b : OwnedDataTypeDefinition) : OwnedDataTypeDefinition :=
  if isInternalDataType a.id then a
  else if a.id ≠ b.id ∨ a.name ≠ b.name ∨ a.element ≠ b.element ∨ a.reliable ≠ b.reliable ∨
      a.e2eEncryption ≠ b.e2eEncryption then typeWinner a b
  else
    { a with
      endpoints := unionEndpoints a.endpoints b.endpoints
      priority := max a.priority b.priority }

inductive SchemaMergeDecision where
  | added
  | unchanged
  | replacedLocal
  | keptLocal
deriving DecidableEq, Repr

/-- What the merge of definitions needs to know about them. -/
structure DefinitionKind (δ : Type) where
  id : δ → UInt32
  name : δ → String
  equivalent : δ → δ → Bool
  mergeMetadata : δ → δ → δ

def endpointKind : DefinitionKind OwnedEndpointDefinition where
  id := OwnedEndpointDefinition.id
  name := OwnedEndpointDefinition.name
  equivalent := endpointDefEquivalent
  mergeMetadata := mergeEndpointMetadata

def typeKind : DefinitionKind OwnedDataTypeDefinition where
  id := OwnedDataTypeDefinition.id
  name := OwnedDataTypeDefinition.name
  equivalent := typeDefEquivalent
  mergeMetadata := mergeTypeMetadata

namespace DefinitionKind

variable {δ : Type} (kind : DefinitionKind δ)

def sortById (defs : List δ) : List δ := defs.insertionSort fun a b => kind.id a ≤ kind.id b

/-- The position of the definition that a new one meets, by its id or by its name. -/
def conflict (defs : List δ) (d : δ) : Option ℕ :=
  match defs.findIdx? (fun e => kind.id e == kind.id d),
      defs.findIdx? (fun e => kind.name e == kind.name d) with
  | some a, some b => some (min a b)
  | some a, none => some a
  | none, some b => some b
  | none, none => none

/-- `merge_endpoint_definition` and `merge_type_definition`. -/
def mergeDefinition (defs : List δ) (d : δ) : List δ × SchemaMergeDecision :=
  match kind.conflict defs d with
  | none => (kind.sortById (defs ++ [d]), .added)
  | some idx =>
    match defs[idx]? with
    | none => (defs, .unchanged)
    | some existing =>
      if kind.equivalent existing d then (defs, .unchanged)
      else if !kind.equivalent existing (kind.mergeMetadata existing d) then
        (kind.sortById (defs.set idx (kind.mergeMetadata existing d)), .replacedLocal)
      else (defs, .keptLocal)

end DefinitionKind

def mergeEndpointDefinition (reg : SchemaRegistry) (d : OwnedEndpointDefinition) :
    SchemaRegistry × SchemaMergeDecision :=
  let r := endpointKind.mergeDefinition reg.endpoints d
  ({ reg with endpoints := r.1 }, r.2)

def mergeTypeDefinition (reg : SchemaRegistry) (d : OwnedDataTypeDefinition) :
    SchemaRegistry × SchemaMergeDecision :=
  let r := typeKind.mergeDefinition reg.types d
  ({ reg with types := r.1 }, r.2)

/-! ### Merging a snapshot -/

structure SchemaMergeReport where
  endpointsAdded : ℕ := 0
  endpointsReplaced : ℕ := 0
  endpointsKept : ℕ := 0
  typesAdded : ℕ := 0
  typesReplaced : ℕ := 0
  typesKept : ℕ := 0
deriving DecidableEq, Repr

namespace SchemaMergeReport

def changed (r : SchemaMergeReport) : Bool :=
  r.endpointsAdded != 0 || r.endpointsReplaced != 0 || r.typesAdded != 0 || r.typesReplaced != 0

def countEndpoint (r : SchemaMergeReport) : SchemaMergeDecision → SchemaMergeReport
  | .added => { r with endpointsAdded := r.endpointsAdded + 1 }
  | .replacedLocal => { r with endpointsReplaced := r.endpointsReplaced + 1 }
  | .keptLocal => { r with endpointsKept := r.endpointsKept + 1 }
  | .unchanged => r

def countType (r : SchemaMergeReport) : SchemaMergeDecision → SchemaMergeReport
  | .added => { r with typesAdded := r.typesAdded + 1 }
  | .replacedLocal => { r with typesReplaced := r.typesReplaced + 1 }
  | .keptLocal => { r with typesKept := r.typesKept + 1 }
  | .unchanged => r

end SchemaMergeReport

/-- `size_of` of the registry's records. -/
structure SchemaSizes where
  endpointRecord : ℕ
  typeRecord : ℕ
  endpointId : ℕ

namespace SchemaSizes

variable (sizes : SchemaSizes)

def endpointSchemaByteCost (d : OwnedEndpointDefinition) : ℕ :=
  satAdd (satAdd sizes.endpointRecord (nameBytes d.name).length) (nameBytes d.description).length

def typeSchemaByteCost (d : OwnedDataTypeDefinition) : ℕ :=
  satAdd (satAdd (satAdd sizes.typeRecord (nameBytes d.name).length) (nameBytes d.description).length)
    (satMul d.endpoints.length sizes.endpointId)

/-- `schema_byte_cost` and `owned_schema_byte_cost`; the sums wrap. -/
def schemaByteCost (endpoints : List OwnedEndpointDefinition) (types : List OwnedDataTypeDefinition) :
    ℕ :=
  satAdd ((endpoints.map sizes.endpointSchemaByteCost).sum % 2 ^ 64)
    ((types.map sizes.typeSchemaByteCost).sum % 2 ^ 64)

end SchemaSizes

/-- The loops of `validate_schema_identities`: definitions that share an id or a name with an
earlier one must repeat it exactly. -/
def validIdentities {δ : Type} [DecidableEq δ] (kind : DefinitionKind δ) (resolves : δ → Bool) :
    (earlier : List δ) → List δ → Bool
  | _, [] => true
  | earlier, d :: defs =>
    resolves d &&
      !(earlier.any fun other =>
        (kind.id other == kind.id d || kind.name other == kind.name d) && other != d) &&
      validIdentities kind resolves (earlier ++ [d]) defs

/-- `validate_schema_identities` with identical repeats allowed. -/
def validateSchemaIdentities (s : OwnedRuntimeSchemaSnapshot) : TelemetryResult Unit :=
  if validIdentities endpointKind (fun d => SchemaIdentity.resolveEndpoint d.name d.id) [] s.endpoints &&
      validIdentities typeKind (fun d => SchemaIdentity.resolveType d.name d.id) [] s.types then .ok ()
  else .error .badArg

/-- `sort_owned_schema` and the removal of repeats. -/
def sortedSchema (s : OwnedRuntimeSchemaSnapshot) : OwnedRuntimeSchemaSnapshot where
  endpoints := dedupByKey OwnedEndpointDefinition.id (endpointKind.sortById s.endpoints)
  types := dedupByKey OwnedDataTypeDefinition.id (typeKind.sortById s.types)

/-- A definition of the snapshot meets one of the registry under another identity. -/
def identityConflict (reg : SchemaRegistry) (s : OwnedRuntimeSchemaSnapshot) : Bool :=
  s.endpoints.any (fun d => reg.endpoints.any fun e => endpointIdentityConflicts e.id e.name d.id d.name) ||
    s.types.any fun d => reg.types.any fun e =>
      (e.id == d.id || e.name == d.name) && (e.id != d.id || e.name != d.name)

def mergeCountedEndpoint (r : SchemaRegistry × SchemaMergeReport) (d : OwnedEndpointDefinition) :
    SchemaRegistry × SchemaMergeReport :=
  let m := mergeEndpointDefinition r.1 d
  (m.1, r.2.countEndpoint m.2)

def mergeCountedType (r : SchemaRegistry × SchemaMergeReport) (d : OwnedDataTypeDefinition) :
    SchemaRegistry × SchemaMergeReport :=
  let m := mergeTypeDefinition r.1 d
  (m.1, r.2.countType m.2)

def mergeOwnedSchemaSnapshotLocked (reg : SchemaRegistry) (s : OwnedRuntimeSchemaSnapshot) :
    SchemaRegistry × SchemaMergeReport :=
  let s := sortedSchema s
  s.types.foldl mergeCountedType (s.endpoints.foldl mergeCountedEndpoint (reg, {}))

def mergeOwnedSchemaSnapshotWithBudget (sizes : SchemaSizes) (reg : SchemaRegistry)
    (s : OwnedRuntimeSchemaSnapshot) (maxSchemaBytes : ℕ) :
    TelemetryResult (SchemaRegistry × SchemaMergeReport) := do
  let tooLarge := TelemetryError.packetTooLarge "Schema exceeds maximum shared queue budget"
  validateSchemaIdentities s
  let s := sortedSchema s
  if maxSchemaBytes < satAdd (sizes.schemaByteCost reg.endpoints reg.types)
      (sizes.schemaByteCost s.endpoints s.types) then .error tooLarge
  else if identityConflict reg s then .error .badArg
  else
    let r := mergeOwnedSchemaSnapshotLocked reg s
    if maxSchemaBytes < sizes.schemaByteCost r.1.endpoints r.1.types then .error tooLarge
    else .ok r

/-! ### Registering definitions -/

namespace SchemaRegistry

def registerOwnedEndpoint (reg : SchemaRegistry) (d : OwnedEndpointDefinition) :
    TelemetryResult SchemaRegistry :=
  if !SchemaIdentity.resolveEndpoint d.name d.id then .error .badArg
  else
    match reg.endpoints.find? (·.id == d.id) with
    | some e => if e = d then .ok reg else .error .badArg
    | none =>
      if reg.endpoints.any (·.name == d.name) then .error .badArg
      else .ok { reg with endpoints := endpointKind.sortById (reg.endpoints ++ [d]) }

def registerOwnedType (reg : SchemaRegistry) (d : OwnedDataTypeDefinition) :
    TelemetryResult SchemaRegistry :=
  if !SchemaIdentity.resolveType d.name d.id then .error .badArg
  else
    match reg.types.find? (·.id == d.id) with
    | some e => if e = d then .ok reg else .error .badArg
    | none =>
      if reg.types.any (·.name == d.name) then .error .badArg
      else .ok { reg with types := typeKind.sortById (reg.types ++ [d]) }

def builtInType (id : DataType) (name : String) (element : MessageElement)
    (endpoints : List DataEndpoint) (reliable : ReliableMode) (priority : UInt8) :
    OwnedDataTypeDefinition :=
  ⟨id, name, "", element, endpoints, reliable, priority, .preferOff⟩

def builtInEndpoints : List OwnedEndpointDefinition :=
  [⟨202, "SEDSNET_ERROR", "", false⟩, ⟨200, "SEDSNET_TIME_SYNC", "", false⟩,
    ⟨201, "SEDSNET_DISCOVERY", "", false⟩]

def builtInTypes : List OwnedDataTypeDefinition :=
  [ builtInType 0 "SEDSNET_ERROR" (.dynamic .string .error) [202] .none 255,
    builtInType 1 "SEDSNET_RELIABLE_ACK" (.static 2 .uint32 .data) [202] .none 250,
    builtInType 2 "SEDSNET_RELIABLE_PACKET_REQUEST" (.static 2 .uint32 .data) [202] .none 250,
    builtInType 3 "SEDSNET_RELIABLE_PARTIAL_ACK" (.static 2 .uint32 .data) [202] .none 250,
    builtInType 4 "SEDSNET_TIME_SYNC_ANNOUNCE" (.static 2 .uint64 .data) [200] .none 245,
    builtInType 5 "SEDSNET_TIME_SYNC_REQUEST" (.static 2 .uint64 .data) [200] .none 245,
    builtInType 6 "SEDSNET_TIME_SYNC_RESPONSE" (.static 4 .uint64 .data) [200] .none 245,
    builtInType 7 "SEDSNET_DISCOVERY_ANNOUNCE" (.dynamic .uint32 .data) [201] .none 240,
    builtInType 8 "SEDSNET_DISCOVERY_TIMESYNC_SOURCES" (.dynamic .uint8 .data) [201] .none 240,
    builtInType 9 "SEDSNET_DISCOVERY_TOPOLOGY" (.dynamic .uint8 .data) [201] .ordered 240,
    builtInType 10 "SEDSNET_DISCOVERY_SCHEMA" (.dynamic .uint8 .data) [201] .ordered 241,
    builtInType 11 "SEDSNET_DISCOVERY_TOPOLOGY_REQUEST" (.dynamic .uint8 .data) [201] .ordered 242,
    builtInType 12 "SEDSNET_DISCOVERY_SCHEMA_REQUEST" (.dynamic .uint8 .data) [201] .ordered 242,
    builtInType 13 "SEDSNET_MANAGED_VARIABLE_REQUEST" (.dynamic .uint8 .data) [201] .ordered 243,
    builtInType 14 "SEDSNET_MANAGED_VARIABLE_VALUE" (.dynamic .uint8 .data) [201] .ordered 243,
    builtInType 15 "SEDSNET_DISCOVERY_LEAVE" (.dynamic .uint8 .data) [201] .none 244,
    builtInType 16 "SEDSNET_DISCOVERY_LINK_CAPABILITIES" (.dynamic .uint8 .data) [201] .none 240,
    builtInType 17 "SEDSNET_DISCOVERY_ADDRESS" (.dynamic .uint8 .data) [201] .ordered 244,
    builtInType 18 "SEDSNET_P2P_MESSAGE" (.dynamic .uint8 .data) [201] .ordered 246]

/-- `Registry::new` without schema files. -/
def new : TelemetryResult SchemaRegistry := do
  let reg ← builtInEndpoints.foldlM registerOwnedEndpoint ⟨[], []⟩
  builtInTypes.foldlM registerOwnedType reg

end SchemaRegistry

end SedsNet
