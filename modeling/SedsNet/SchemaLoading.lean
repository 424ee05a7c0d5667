import SedsNet.SchemaMerge

/-! # Loading and removing schema definitions

The hosted registry's other mutators (`config.rs`): the load of a JSON document, which registers
entry after entry while it is read and takes them back when it fails, and the removals.

The JSON parser is not modelled.  A document is the list of what the parser hands to the loader up to
its end or its first error, and whether it came to the end. -/

namespace SedsNet

/-! ### Documents -/

structure JsonEndpoint where
  id : Option UInt32
  rust : Option String
  name : String
  description : Option String
  linkLocalOnly : Option Bool
  broadcastMode : Option String
deriving DecidableEq

inductive JsonElement where
  | static (dataType : String) (count : Option UInt64)
  | dynamic (dataType : String)
deriving DecidableEq

structure JsonType where
  id : Option UInt32
  name : String
  description : Option String
  cls : String
  element : JsonElement
  endpoints : List String
  reliable : ReliableMode
  priority : Option UInt8
  e2eEncryption : Option String
deriving DecidableEq

/-- What the parser hands over: the two keys of the document and the entries of their arrays. -/
inductive JsonItem where
  | endpointsKey
  | endpoint (ep : JsonEndpoint)
  | typesKey
  | type (ty : JsonType)
deriving DecidableEq

def JsonItem.isEntry : JsonItem → Bool
  | .endpoint _ => true
  | .type _ => true
  | .endpointsKey => false
  | .typesKey => false

/-- The document, with its size in bytes and whether the parser came to its end. -/
structure JsonDocument where
  items : List JsonItem
  size : ℕ
  complete : Bool

def parseMessageClass : String → TelemetryResult MessageClass
  | "Data" => .ok .data
  | "Error" => .ok .error
  | "Warning" => .ok .warning
  | _ => .error .badArg

def parseMessageDataType : String → TelemetryResult MessageDataType
  | "Float64" => .ok .float64
  | "Float32" => .ok .float32
  | "UInt8" => .ok .uint8
  | "UInt16" => .ok .uint16
  | "UInt32" => .ok .uint32
  | "UInt64" => .ok .uint64
  | "UInt128" => .ok .uint128
  | "Int8" => .ok .int8
  | "Int16" => .ok .int16
  | "Int32" => .ok .int32
  | "Int64" => .ok .int64
  | "Int128" => .ok .int128
  | "Bool" => .ok .bool
  | "String" => .ok .string
  | "Binary" => .ok .binary
  | "NoData" => .ok .noData
  | _ => .error .badArg

def parseE2eEncryptionPolicy (raw : Option String) : TelemetryResult E2eEncryptionPolicy :=
  match raw.getD "PreferOff" with
  | "PreferOff" | "prefer_off" | "off" | "false" => .ok .preferOff
  | "PreferOn" | "prefer_on" | "preferred" | "true" => .ok .preferOn
  | "RequireOn" | "require_on" | "required" => .ok .requireOn
  | _ => .error .badArg

def parseElement (element : JsonElement) (cls : MessageClass) : TelemetryResult MessageElement :=
  match element with
  | .static dataType count => (parseMessageDataType dataType).map fun dt => .static (count.getD 1) dt cls
  | .dynamic dataType => (parseMessageDataType dataType).map fun dt => .dynamic dt cls

/-! ### The loader -/

structure StreamingSchemaState where
  reg : SchemaRegistry
  aliases : List (String × DataEndpoint)
  aliasBytes : ℕ
  addedEndpoints : List DataEndpoint
  addedTypes : List DataType
  seenTypes : List DataType
  sawEndpoints : Bool
  sawTypes : Bool

/-- The settings of one load. -/
structure LoadSettings where
  sizes : SchemaSizes
  /-- Every endpoint of the document becomes link-local. -/
  linkLocalOverlay : Bool
  maxSchemaBytes : ℕ

namespace StreamingSchemaState

variable (cfg : LoadSettings) (st : StreamingSchemaState)

def start (reg : SchemaRegistry) : StreamingSchemaState := ⟨reg, [], 0, [], [], [], false, false⟩

/-- `ensure_budget` succeeds. -/
def fits (additional : ℕ) : Bool :=
  satAdd (satAdd (cfg.sizes.schemaByteCost st.reg.endpoints st.reg.types) st.aliasBytes) additional ≤
    cfg.maxSchemaBytes

def tooLarge : TelemetryError := .packetTooLarge "Schema exceeds maximum shared queue budget"

/-- The loop over the two names that an endpoint may be called by. -/
def addAliases (id : DataEndpoint) : List String → StreamingSchemaState → StreamingSchemaState × TelemetryResult Unit
  | [], st => (st, .ok ())
  | name :: names, st =>
    if st.aliases.any (fun known => known.1 == name && known.2 != id) then (st, .error .badArg)
    else if st.aliases.any (fun known => known.1 == name) then addAliases id names st
    else if !st.fits cfg (nameBytes name).length then (st, .error tooLarge)
    else
      addAliases id names
        { st with
          aliasBytes := satAdd st.aliasBytes (nameBytes name).length, aliases := st.aliases ++ [(name, id)] }

/-- The endpoint that an entry declares. -/
def declaredEndpoint (ep : JsonEndpoint) : OwnedEndpointDefinition where
  id := ep.id.getD (SchemaIdentity.endpointId ep.name)
  name := ep.name
  description := ep.description.getD ""
  linkLocalOnly := cfg.linkLocalOverlay || ep.linkLocalOnly.getD false || ep.broadcastMode == some "Never"

/-- The definition is in the registry; it has been added unless its id was known. -/
def noteEndpoint (reg : SchemaRegistry) (id : DataEndpoint) (existed : Bool) : StreamingSchemaState :=
  { st with reg, addedEndpoints := if existed then st.addedEndpoints else st.addedEndpoints ++ [id] }

/-- The bytes that a definition adds to the registry. -/
def retainedBytes (d : OwnedEndpointDefinition) (existed : Bool) : ℕ :=
  if existed then 0 else cfg.sizes.endpointSchemaByteCost d

def addEndpoint (ep : JsonEndpoint) : StreamingSchemaState × TelemetryResult Unit :=
  let rustName := ep.rust.getD ep.name
  let d := declaredEndpoint cfg ep
  if st.aliases.any fun known => known.1 == rustName || known.1 == ep.name then (st, .error .badArg)
  else if !SchemaIdentity.resolveEndpoint d.name d.id then (st, .error .badArg)
  else
    let existed := st.reg.endpoints.any (·.id == d.id)
    if !st.fits cfg (satAdd (retainedBytes cfg d existed) (nameBytes rustName).length) then (st, .error tooLarge)
    else
      match st.reg.registerOwnedEndpoint d with
      | .error e => (st, .error e)
      | .ok reg =>
        let st := st.noteEndpoint reg d.id existed
        -- the name that the registry has for the id
        match reg.endpoints.find? (·.id == d.id) with
        | some known => addAliases cfg d.id [rustName, known.name] st
        | none => (st, .error (.aborted "registered endpoint"))

/-- The endpoint that a type's entry names. -/
def endpointNamed (name : String) : DataEndpoint :=
  match st.aliases.find? (·.1 == name) with
  | some known => known.2
  | none =>
    match st.reg.endpoints.find? (·.name == name) with
    | some known => known.id
    | none => SchemaIdentity.endpointId name

/-- The type that an entry declares. -/
def declaredType (ty : JsonType) : TelemetryResult OwnedDataTypeDefinition :=
  match parseMessageClass ty.cls with
  | .error e => .error e
  | .ok cls =>
    match parseElement ty.element cls, parseE2eEncryptionPolicy ty.e2eEncryption with
    | .ok element, .ok e2eEncryption =>
      .ok {
        id := ty.id.getD (SchemaIdentity.typeId ty.name)
        name := ty.name
        description := ty.description.getD ""
        element
        endpoints := ty.endpoints.map st.endpointNamed
        reliable := ty.reliable
        priority := ty.priority.getD 0
        e2eEncryption }
    | .error e, _ => .error e
    | _, .error e => .error e

/-- `size_of::<DataType>()`. -/
def typeIdSize : ℕ := 4

/-- The type has been seen in this document. -/
def noteSeen (id : DataType) : StreamingSchemaState :=
  { st with aliasBytes := satAdd st.aliasBytes typeIdSize, seenTypes := st.seenTypes ++ [id] }

def noteType (reg : SchemaRegistry) (id : DataType) (existed : Bool) : StreamingSchemaState :=
  { st with reg, addedTypes := if existed then st.addedTypes else st.addedTypes ++ [id] }

/-- `type_schema_byte_cost` of an entry. -/
def entryCost (ty : JsonType) : ℕ :=
  satAdd (satAdd (satAdd cfg.sizes.typeRecord (nameBytes ty.name).length) (nameBytes (ty.description.getD "")).length)
    (satMul ty.endpoints.length cfg.sizes.endpointId)

/-- The rest of `add_type`, once the type is among those seen. -/
def registerSeen (ty : JsonType) (id : DataType) : StreamingSchemaState × TelemetryResult Unit :=
  let existed := st.reg.types.any (·.id == id)
  if !existed && !st.fits cfg (entryCost cfg ty) then (st, .error tooLarge)
  else
    match st.declaredType ty with
    | .error e => (st, .error e)
    | .ok d =>
      match st.reg.registerOwnedType d with
      | .error e => (st, .error e)
      | .ok reg => (st.noteType reg id existed, .ok ())

def addType (ty : JsonType) : StreamingSchemaState × TelemetryResult Unit :=
  let id := ty.id.getD (SchemaIdentity.typeId ty.name)
  if !SchemaIdentity.resolveType ty.name id then (st, .error .badArg)
  else if id ∈ st.seenTypes then (st, .error .badArg)
  else if !st.fits cfg typeIdSize then (st, .error tooLarge)
  else (st.noteSeen id).registerSeen cfg ty id

/-- One item of the document; types must come after endpoints. -/
def accept (item : JsonItem) : StreamingSchemaState × TelemetryResult Unit :=
  match item with
  | .endpointsKey => ({ st with sawEndpoints := true }, .ok ())
  | .endpoint ep => st.addEndpoint cfg ep
  | .typesKey => if st.sawEndpoints then ({ st with sawTypes := true }, .ok ()) else (st, .error .badArg)
  | .type ty => st.addType cfg ty

/-- The items in turn, up to the first error. -/
def acceptAll : List JsonItem → StreamingSchemaState → StreamingSchemaState × TelemetryResult Unit
  | [], st => (st, .ok ())
  | item :: items, st =>
    match st.accept cfg item with
    | (st, .ok ()) => acceptAll items st
    | (st, .error e) => (st, .error e)

/-- What was added is taken out again. -/
def rollback : SchemaRegistry where
  endpoints := st.reg.endpoints.filter fun e => e.id ∉ st.addedEndpoints
  types := st.reg.types.filter fun e => e.id ∉ st.addedTypes

end StreamingSchemaState

namespace SchemaRegistry

variable (cfg : LoadSettings) (reg : SchemaRegistry)

/-- `register_schema_json_reader_into`, for the definitions alone. -/
def loadItems (items : List JsonItem) (complete : Bool) : SchemaRegistry × TelemetryResult Unit :=
  match StreamingSchemaState.acceptAll cfg items (StreamingSchemaState.start reg) with
  | (st, .error e) => (st.rollback, .error e)
  | (st, .ok ()) =>
    if complete ∧ st.sawEndpoints ∧ st.sawTypes then (st.reg, .ok ())
    else (st.rollback, .error (.unpack "schema json"))

/-- The next free ids; a new definition raises them past its own. -/
structure NextIds where
  endpoint : UInt32
  type : UInt32

def NextIds.raise (next : UInt32) (ids : List UInt32) : UInt32 :=
  ids.foldl (fun next id => max next (if id + 1 = 0 then id else id + 1)) next

/-- `register_schema_json_reader_into` with the next free ids, which a failed load sets back. -/
def registerSchemaJsonReaderInto (next : NextIds) (items : List JsonItem)
    (complete : Bool) : (SchemaRegistry × NextIds) × TelemetryResult Unit :=
  match StreamingSchemaState.acceptAll cfg items (StreamingSchemaState.start reg) with
  | (st, .error e) => ((st.rollback, next), .error e)
  | (st, .ok ()) =>
    if complete ∧ st.sawEndpoints ∧ st.sawTypes then
      ((st.reg, ⟨NextIds.raise next.endpoint st.addedEndpoints, NextIds.raise next.type st.addedTypes⟩), .ok ())
    else ((st.rollback, next), .error (.unpack "schema json"))

/-- Which ids are free does not matter for the definitions. -/
theorem registerSchemaJsonReaderInto_eq (next : NextIds) (items : List JsonItem) (complete : Bool) :
    ((reg.registerSchemaJsonReaderInto cfg next items complete).1.1,
      (reg.registerSchemaJsonReaderInto cfg next items complete).2) = reg.loadItems cfg items complete := by
  unfold registerSchemaJsonReaderInto loadItems
  split
  · rfl
  · split <;> rfl

def schemaJsonChunkBytes : ℕ := 512

/-- `schema_json_max_input_bytes`. -/
def schemaJsonMaxInputBytes (maxSchemaBytes : ℕ) : ℕ := max (satMul maxSchemaBytes 8) schemaJsonChunkBytes

/-- `register_schema_json_bytes_with_budget`, and the load of a file. -/
def registerSchemaJson (document : JsonDocument) : SchemaRegistry × TelemetryResult Unit :=
  if schemaJsonMaxInputBytes cfg.maxSchemaBytes < document.size then
    (reg, .error (.packetTooLarge "Schema JSON exceeds bounded input size"))
  else reg.loadItems cfg document.items document.complete

/-! ### Removals -/

def removeEndpoint (ep : DataEndpoint) : TelemetryResult (SchemaRegistry × Bool) :=
  if isInternalEndpoint ep then .error .badArg
  else
    let endpoints := reg.endpoints.filter fun e => e.id ≠ ep
    if endpoints.length = reg.endpoints.length then .ok ({ reg with endpoints }, false)
    else .ok (⟨endpoints, reg.types.filter fun e => ep ∉ e.endpoints⟩, true)

def removeEndpointByName (name : String) : TelemetryResult (SchemaRegistry × Bool) :=
  match reg.endpoints.find? (·.name == name) with
  | some e => reg.removeEndpoint e.id
  | none => .ok (reg, false)

def removeDataType (ty : DataType) : TelemetryResult (SchemaRegistry × Bool) :=
  if isInternalDataType ty then .error .badArg
  else
    let types := reg.types.filter fun e => e.id ≠ ty
    .ok ({ reg with types }, types.length ≠ reg.types.length)

def removeDataTypeByName (name : String) : TelemetryResult (SchemaRegistry × Bool) :=
  match reg.types.find? (·.name == name) with
  | some e => reg.removeDataType e.id
  | none => .ok (reg, false)

/-! ### Calls -/

/-- The calls that change the hosted registry. -/
inductive RegistryCall where
  | registerEndpoint (d : OwnedEndpointDefinition)
  | registerType (d : OwnedDataTypeDefinition)
  | mergeSnapshot (s : OwnedRuntimeSchemaSnapshot) (maxSchemaBytes : ℕ)
  | loadJson (document : JsonDocument) (linkLocalOverlay : Bool) (maxSchemaBytes : ℕ)
  | removeEndpoint (ep : DataEndpoint)
  | removeEndpointByName (name : String)
  | removeDataType (ty : DataType)
  | removeDataTypeByName (name : String)

/-- The registry after a call that may be refused. -/
def orUnchanged {α : Type} (view : α → SchemaRegistry) : TelemetryResult α → SchemaRegistry
  | .ok a => view a
  | .error _ => reg

def call (sizes : SchemaSizes) (reg : SchemaRegistry) : RegistryCall → SchemaRegistry
  | .registerEndpoint d => reg.orUnchanged id (reg.registerOwnedEndpoint d)
  | .registerType d => reg.orUnchanged id (reg.registerOwnedType d)
  | .mergeSnapshot s maxSchemaBytes =>
    reg.orUnchanged Prod.fst (mergeOwnedSchemaSnapshotWithBudget sizes reg s maxSchemaBytes)
  | .loadJson document linkLocalOverlay maxSchemaBytes =>
    (reg.registerSchemaJson ⟨sizes, linkLocalOverlay, maxSchemaBytes⟩ document).1
  | .removeEndpoint ep => reg.orUnchanged Prod.fst (reg.removeEndpoint ep)
  | .removeEndpointByName name => reg.orUnchanged Prod.fst (reg.removeEndpointByName name)
  | .removeDataType ty => reg.orUnchanged Prod.fst (reg.removeDataType ty)
  | .removeDataTypeByName name => reg.orUnchanged Prod.fst (reg.removeDataTypeByName name)

end SchemaRegistry

end SedsNet
