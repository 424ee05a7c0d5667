import SedsNet.ShadowLog
import SedsNet.SchemaCatalog
import SedsNet.MemoryAdmission

/-! # The embedded schema registry

The schema registry of `config.rs` in builds without `std`.  The definitions compiled into the firmware
stay in flash.  What is registered or learned is pushed on two append-only lists, where a definition
shadows the older ones with its id or its name.  Lookups of compiled types go through a cache of four
slots that readers fill without a lock. -/

namespace SedsNet

/-! ### Shadowed definitions -/

namespace DefinitionKind

variable {δ : Type} [DecidableEq δ] (kind : DefinitionKind δ)

/-- Of two such definitions the newer shadows the other. -/
def sameIdentity (a b : δ) : Bool := kind.id a == kind.id b || kind.name a == kind.name b

/-- `endpoint_visible_at` and `type_visible_at`; the nodes of an overlay are listed from its head. -/
def visibleAt (d : δ) (head : List δ) : Bool := ShadowLog.visible kind.sameIdentity d head

/-- `embedded_overlay_endpoint` and `embedded_overlay_type`. -/
def overlayById (head : List δ) (id : UInt32) : Option δ :=
  head.find? fun d => kind.id d == id && kind.visibleAt d head

/-- `embedded_overlay_endpoint_by_name` and `embedded_overlay_type_by_name`. -/
def overlayByName (head : List δ) (name : String) : Option δ :=
  head.find? fun d => kind.name d == name && kind.visibleAt d head

/-- `try_named`: the overlay first, then the compiled definitions that it does not shadow. -/
def tryNamed (compiled head : List δ) (name : String) : Option UInt32 :=
  ((kind.overlayByName head name).or
    (compiled.find? fun d => kind.name d == name && kind.visibleAt d head)).map kind.id

end DefinitionKind

/-! ### Compiled definitions -/

/-- The tables that `build.rs` generates.  They are sorted by id, so that `binary_search_by_key` finds
what a search of the whole table finds, and carry no descriptions. -/
structure CompiledSchema where
  endpoints : List OwnedEndpointDefinition
  types : List OwnedDataTypeDefinition
  endpointsById : endpointKind.ById endpoints
  typesById : typeKind.ById types
  endpointsPlain : ∀ d ∈ endpoints, d.description = ""
  typesPlain : ∀ d ∈ types, d.description = ""

namespace CompiledSchema

variable (flash : CompiledSchema)

/-- The firmware of a node without a schema file. -/
def empty : CompiledSchema := ⟨[], [], List.Pairwise.nil, List.Pairwise.nil, by simp, by simp⟩

def embeddedStaticEndpoints : List OwnedEndpointDefinition :=
  SchemaRegistry.builtInEndpoints ++ flash.endpoints

def embeddedStaticDataTypes : List OwnedDataTypeDefinition := SchemaRegistry.builtInTypes ++ flash.types

/-- The search of `compiled_endpoint_definition`. -/
def searchEndpoint (id : DataEndpoint) : Option OwnedEndpointDefinition :=
  (SchemaRegistry.builtInEndpoints.find? (·.id == id)).or (flash.endpoints.find? (·.id == id))

/-- The search of `compiled_type_definition`; the protocol's types are dense by id. -/
def searchType (id : DataType) : Option OwnedDataTypeDefinition :=
  SchemaRegistry.builtInTypes[id.toNat]?.or (flash.types.find? (·.id == id))

end CompiledSchema

namespace SchemaRegistry

/-- The assertion next to the table of the protocol's types. -/
theorem builtInTypes_dense (id : DataType) : builtInTypes[id.toNat]? = builtInTypes.find? (·.id == id) := by
  by_cases hid : id.toNat < 19
  · have hall : ∀ n < 19, builtInTypes[n]? = builtInTypes.find? (·.id == UInt32.ofNat n) := by decide +kernel
    rw [hall id.toNat hid, UInt32.ofNat_toNat]
  have hsmall : builtInTypes.all (fun d => decide (d.id.toNat < 19)) = true := by decide +kernel
  rw [List.getElem?_eq_none (Nat.le_of_not_lt hid), eq_comm, List.find?_eq_none]
  intro d hd heq
  have hlt := of_decide_eq_true (List.all_eq_true.mp hsmall d hd)
  rw [beq_iff_eq.mp heq] at hlt
  exact hid hlt

end SchemaRegistry

theorem CompiledSchema.searchType_eq (flash : CompiledSchema) (id : DataType) :
    flash.searchType id = typeKind.find flash.embeddedStaticDataTypes id := by
  rw [searchType, SchemaRegistry.builtInTypes_dense, DefinitionKind.find, embeddedStaticDataTypes,
    List.find?_append]
  rfl

theorem CompiledSchema.searchEndpoint_eq (flash : CompiledSchema) (id : DataEndpoint) :
    flash.searchEndpoint id = endpointKind.find flash.embeddedStaticEndpoints id := by
  rw [DefinitionKind.find, embeddedStaticEndpoints, List.find?_append]
  rfl

/-- The cache of `compiled_type_definition`.  Its slots hold definitions of the flash tables only. -/
structure TypeCache (flash : CompiledSchema) where
  slots : Fin 4 → Option OwnedDataTypeDefinition
  sound : ∀ k d, slots k = some d → flash.searchType d.id = some d

namespace TypeCache

variable {flash : CompiledSchema}

def empty : TypeCache flash := ⟨fun _ => none, by simp⟩

variable (cache : TypeCache flash) (id : DataType)

def slot : Fin 4 := Fin.ofNat 4 id.toNat

def store (d : OwnedDataTypeDefinition) (hd : flash.searchType d.id = some d) : TypeCache flash where
  slots := Function.update cache.slots (slot d.id) (some d)
  sound k e he := by
    by_cases hk : k = slot d.id
    · subst hk
      rw [Function.update_self] at he
      cases he
      exact hd
    · rw [Function.update_of_ne hk] at he
      exact cache.sound k e he

theorem searchType_self {id : DataType} {d : OwnedDataTypeDefinition} (h : flash.searchType id = some d) :
    flash.searchType d.id = some d := by
  rw [flash.searchType_eq] at h
  obtain ⟨-, hid⟩ := DefinitionKind.mem_of_find h
  rw [show d.id = id from hid, flash.searchType_eq]
  exact h

/-- A miss searches the tables, and what is found takes the slot. -/
def refill : Option OwnedDataTypeDefinition × TypeCache flash :=
  match h : flash.searchType id with
  | some d => (some d, cache.store d (searchType_self h))
  | none => (none, cache)

def find : Option OwnedDataTypeDefinition × TypeCache flash :=
  match cache.slots (slot id) with
  | some d => if d.id = id then (some d, cache) else cache.refill id
  | none => cache.refill id

theorem refill_fst : (cache.refill id).1 = flash.searchType id := by
  unfold refill
  split
  next d h => exact h.symm
  next h => exact h.symm

/-- Whatever the slots hold, the cache answers as the tables do. -/
theorem find_fst : (cache.find id).1 = flash.searchType id := by
  unfold find
  split
  next d hslot =>
    split
    case isTrue hid =>
      rw [← hid]
      exact (cache.sound _ d hslot).symm
    case isFalse => exact cache.refill_fst id
  next => exact cache.refill_fst id

end TypeCache

/-! ### Lookups -/

/-- The learned definitions, newest first, and the RAM that they retain. -/
structure EmbeddedSchema (flash : CompiledSchema) where
  endpoints : List OwnedEndpointDefinition
  types : List OwnedDataTypeDefinition
  ownedBytes : ℕ
  cache : TypeCache flash

namespace EmbeddedSchema

variable {flash : CompiledSchema} (st : EmbeddedSchema flash)

/-- The registry after a reboot. -/
def boot (flash : CompiledSchema) : EmbeddedSchema flash := ⟨[], [], 0, .empty⟩

def schemaBytesUsed : ℕ := st.ownedBytes

variable (name : String) (id : DataEndpoint)

def embeddedOverlayEndpoint : Option OwnedEndpointDefinition :=
  endpointKind.overlayById st.endpoints id

def compiledEndpointDefinition : Option OwnedEndpointDefinition :=
  (flash.searchEndpoint id).filter (endpointKind.visibleAt · st.endpoints)

def endpointDefinition : Option OwnedEndpointDefinition :=
  (st.embeddedOverlayEndpoint id).or (st.compiledEndpointDefinition id)

def endpointExists : Bool :=
  (st.embeddedOverlayEndpoint id).isSome || (st.compiledEndpointDefinition id).isSome

def endpointNamed : Option DataEndpoint :=
  endpointKind.tryNamed flash.embeddedStaticEndpoints st.endpoints name

def endpointDefinitionByName : Option OwnedEndpointDefinition :=
  (st.endpointNamed name).bind st.endpointDefinition

def embeddedOverlayType (id : DataType) : Option OwnedDataTypeDefinition := typeKind.overlayById st.types id

/-- The lookups of types also return the cache as they leave it. -/
def compiledTypeDefinition (id : DataType) (cache : TypeCache flash) :
    Option OwnedDataTypeDefinition × TypeCache flash :=
  let found := cache.find id
  (found.1.filter (typeKind.visibleAt · st.types), found.2)

def dataTypeDefinition (id : DataType) (cache : TypeCache flash) :
    Option OwnedDataTypeDefinition × TypeCache flash :=
  match st.embeddedOverlayType id with
  | some d => (some d, cache)
  | none => st.compiledTypeDefinition id cache

def typeNamed : Option DataType :=
  typeKind.tryNamed flash.embeddedStaticDataTypes st.types name

def dataTypeDefinitionByName (cache : TypeCache flash) : Option OwnedDataTypeDefinition × TypeCache flash :=
  match st.typeNamed name with
  | some id => st.dataTypeDefinition id cache
  | none => (none, cache)

/-- `effective_embedded_schema` and `export_schema`: the visible compiled definitions, then the visible
nodes of the overlays. -/
def effectiveEmbeddedSchema : OwnedRuntimeSchemaSnapshot where
  endpoints := ShadowLog.live endpointKind.sameIdentity flash.embeddedStaticEndpoints st.endpoints
  types := ShadowLog.live typeKind.sameIdentity flash.embeddedStaticDataTypes st.types

def pushEmbeddedEndpoint (d : OwnedEndpointDefinition) : EmbeddedSchema flash :=
  { st with endpoints := d :: st.endpoints }

def pushEmbeddedType (d : OwnedDataTypeDefinition) : EmbeddedSchema flash :=
  { st with types := d :: st.types }

/-- `fetch_add` on the retained bytes. -/
def charge (bytes : ℕ) : EmbeddedSchema flash := { st with ownedBytes := wrapAdd st.ownedBytes bytes }

end EmbeddedSchema

/-! ### Registering -/

/-- The sizes of the overlay nodes, and the budget of the build. -/
structure EmbeddedSettings where
  nodeSizes : SchemaSizes
  maxQueueBudget : ℕ

def schemaTooLarge : TelemetryError := .packetTooLarge "Schema exceeds maximum shared queue budget"

namespace EmbeddedSettings

variable (cfg : EmbeddedSettings)

def embeddedEndpointAllocationCost (d : OwnedEndpointDefinition) : ℕ := cfg.nodeSizes.endpointSchemaByteCost d

def embeddedTypeAllocationCost (d : OwnedDataTypeDefinition) : ℕ := cfg.nodeSizes.typeSchemaByteCost d

/-- Whether a definition is to be pushed, after the checks under the lock. -/
def admission {δ : Type} [DecidableEq δ] (probe : AdmissionProbe) (existing : Option δ) (nameExists : Bool)
    (used cost : ℕ) (d : δ) : TelemetryResult Bool :=
  match existing with
  | some e => if e = d then .ok false else .error .badArg
  | none =>
    if nameExists then .error .badArg
    else if cfg.maxQueueBudget < satAdd used cost then .error schemaTooLarge
    else
      match probe.check 0 (satAdd cost 512) cost with
      | .error e => .error e
      | .ok () => .ok true

end EmbeddedSettings

namespace EmbeddedSchema

variable {flash : CompiledSchema} (cfg : EmbeddedSettings) (st : EmbeddedSchema flash)

/-- `register_endpoint_id_with_description`; the probe is the one in force during the call. -/
def registerEndpoint (probe : AdmissionProbe) (d : OwnedEndpointDefinition) :
    EmbeddedSchema flash × TelemetryResult Unit :=
  if !SchemaIdentity.resolveEndpoint d.name d.id then (st, .error .badArg)
  else
    let cost := cfg.embeddedEndpointAllocationCost d
    match cfg.admission probe (st.endpointDefinition d.id) (st.endpointNamed d.name).isSome st.schemaBytesUsed cost d with
    | .error e => (st, .error e)
    | .ok false => (st, .ok ())
    | .ok true => ((st.pushEmbeddedEndpoint d).charge cost, .ok ())

/-- `register_data_type_id_with_description_and_e2e_encryption`. -/
def registerDataType (probe : AdmissionProbe) (d : OwnedDataTypeDefinition) :
    EmbeddedSchema flash × TelemetryResult Unit :=
  if !SchemaIdentity.resolveType d.name d.id then (st, .error .badArg)
  else
    let cost := cfg.embeddedTypeAllocationCost d
    let found := st.dataTypeDefinition d.id st.cache
    let st := { st with cache := found.2 }
    match cfg.admission probe found.1 (st.typeNamed d.name).isSome st.schemaBytesUsed cost d with
    | .error e => (st, .error e)
    | .ok false => (st, .ok ())
    | .ok true => ((st.pushEmbeddedType d).charge cost, .ok ())

/-- The endpoint that stands for an id without a name. -/
def placeholderEndpoint (id : DataEndpoint) (linkLocalOnly : Bool) : OwnedEndpointDefinition :=
  ⟨id, "ENDPOINT_" ++ toString id.toNat, "", linkLocalOnly⟩

def ensureEndpointId (probe : AdmissionProbe) (id : DataEndpoint) (linkLocalOnly : Bool) :
    EmbeddedSchema flash × TelemetryResult Unit :=
  if st.endpointExists id then (st, .ok ())
  else st.registerEndpoint cfg probe (placeholderEndpoint id linkLocalOnly)

end EmbeddedSchema

/-! ### Merging a snapshot -/

/-- Lookups by id and by name that may leave something in `σ`. -/
structure Lookups (σ δ : Type) where
  byId : UInt32 → σ → Option δ × σ
  byName : String → σ → Option δ × σ

/-- What a merge is going to push, with the counts of its report and the bytes it adds. -/
structure MergePlan (δ : Type) where
  pending : List δ
  added : ℕ
  replaced : ℕ
  bytes : ℕ

/-- One round of the merge loops, for what the lookups found. -/
def MergePlan.consider {δ : Type} (kind : DefinitionKind δ) (cost : δ → ℕ) (plan : MergePlan δ)
    (existing : Option δ) (incoming : δ) : MergePlan δ :=
  match existing with
  | none =>
    { plan with
      pending := plan.pending ++ [incoming]
      added := plan.added + 1
      bytes := satAdd plan.bytes (cost incoming) }
  | some known =>
    let merged := kind.mergeMetadata known incoming
    if kind.equivalent known merged then plan
    else
      { plan with
        pending := plan.pending ++ [merged]
        replaced := plan.replaced + 1
        bytes := satAdd plan.bytes (cost merged) }

namespace Lookups

variable {σ δ : Type} (look : Lookups σ δ) (kind : DefinitionKind δ)

/-- The loops that refuse a snapshot whose definitions are known under another identity. -/
def conflicts (differs : δ → δ → Bool) : List δ → σ → Bool × σ
  | [], s => (false, s)
  | d :: ds, s =>
    let known := look.byId (kind.id d) s
    if known.1.any (differs · d) then (true, known.2)
    else
      let named := look.byName (kind.name d) known.2
      if named.1.any fun e => kind.id e != kind.id d then (true, named.2)
      else conflicts differs ds named.2

/-- `definition(id).or_else(|| definition_by_name(name))`. -/
def existing (d : δ) (s : σ) : Option δ × σ :=
  let known := look.byId (kind.id d) s
  match known.1 with
  | some e => (some e, known.2)
  | none => look.byName (kind.name d) known.2

/-- The merge loops; an id that is pending already is passed over. -/
def plan (cost : δ → ℕ) : List δ → MergePlan δ → σ → MergePlan δ × σ
  | [], p, s => (p, s)
  | d :: ds, p, s =>
    if p.pending.any fun pending => kind.id pending == kind.id d then plan cost ds p s
    else
      let known := look.existing kind d s
      plan cost ds (p.consider kind cost known.1 d) known.2

end Lookups

namespace EmbeddedSchema

variable {flash : CompiledSchema} (cfg : EmbeddedSettings) (st : EmbeddedSchema flash)

def endpointLookups : Lookups Unit OwnedEndpointDefinition where
  byId id _ := (st.endpointDefinition id, ())
  byName name _ := (st.endpointDefinitionByName name, ())

def typeLookups : Lookups (TypeCache flash) OwnedDataTypeDefinition where
  byId := st.dataTypeDefinition
  byName := st.dataTypeDefinitionByName

def endpointConflicts (ds : List OwnedEndpointDefinition) : Bool :=
  (st.endpointLookups.conflicts endpointKind
    (fun known d => endpointIdentityConflicts known.id known.name d.id d.name) ds ()).1

def typeConflicts (ds : List OwnedDataTypeDefinition) : Bool × TypeCache flash :=
  st.typeLookups.conflicts typeKind (fun known d => known.name != d.name) ds st.cache

def endpointPlan (ds : List OwnedEndpointDefinition) : MergePlan OwnedEndpointDefinition :=
  (st.endpointLookups.plan endpointKind cfg.embeddedEndpointAllocationCost ds ⟨[], 0, 0, 0⟩ ()).1

/-- The types are planned after the endpoints, and the bytes add up. -/
def typePlan (bytes : ℕ) (ds : List OwnedDataTypeDefinition) (cache : TypeCache flash) :
    MergePlan OwnedDataTypeDefinition × TypeCache flash :=
  st.typeLookups.plan typeKind cfg.embeddedTypeAllocationCost ds ⟨[], 0, 0, bytes⟩ cache

/-- The loops that publish a plan. -/
def publish (endpoints : List OwnedEndpointDefinition) (types : List OwnedDataTypeDefinition) :
    EmbeddedSchema flash :=
  types.foldl pushEmbeddedType (endpoints.foldl pushEmbeddedEndpoint st)

/-- The embedded `merge_owned_schema_snapshot_with_budget`. -/
def mergeOwnedSchemaSnapshotWithBudget (s : OwnedRuntimeSchemaSnapshot) (maxSchemaBytes : ℕ) :
    EmbeddedSchema flash × TelemetryResult SchemaMergeReport :=
  match validateSchemaIdentities s with
  | .error e => (st, .error e)
  | .ok () =>
    if st.endpointConflicts s.endpoints then (st, .error .badArg)
    else
      let checked := st.typeConflicts s.types
      if checked.1 then ({ st with cache := checked.2 }, .error .badArg)
      else
        let endpoints := st.endpointPlan cfg s.endpoints
        let types := st.typePlan cfg endpoints.bytes s.types checked.2
        let st := { st with cache := types.2 }
        if maxSchemaBytes < satAdd st.schemaBytesUsed types.1.bytes then (st, .error schemaTooLarge)
        else
          ((st.publish endpoints.pending types.1.pending).charge types.1.bytes,
            .ok ⟨endpoints.added, endpoints.replaced, 0, types.1.added, types.1.replaced, 0⟩)

end EmbeddedSchema

/-! ### Calls -/

/-- The calls, in both builds, that add to the schema or look a type up. -/
inductive SchemaCall where
  | registerEndpoint (probe : AdmissionProbe) (d : OwnedEndpointDefinition)
  | ensureEndpointId (probe : AdmissionProbe) (id : DataEndpoint) (linkLocalOnly : Bool)
  | registerDataType (probe : AdmissionProbe) (d : OwnedDataTypeDefinition)
  | mergeSnapshot (s : OwnedRuntimeSchemaSnapshot) (maxSchemaBytes : ℕ)
  | dataTypeDefinition (id : DataType)

/-- The state after an accepted call, with what the call reported. -/
def onAccept {S α β : Type} (f : α → β) : S × TelemetryResult α → TelemetryResult (S × β)
  | (s, .ok a) => .ok (s, f a)
  | (_, .error e) => .error e

def EmbeddedSchema.call {flash : CompiledSchema} (cfg : EmbeddedSettings) (st : EmbeddedSchema flash) :
    SchemaCall → TelemetryResult (EmbeddedSchema flash × Option SchemaMergeReport)
  | .registerEndpoint probe d => onAccept (fun _ => none) (st.registerEndpoint cfg probe d)
  | .ensureEndpointId probe id linkLocalOnly =>
    onAccept (fun _ => none) (st.ensureEndpointId cfg probe id linkLocalOnly)
  | .registerDataType probe d => onAccept (fun _ => none) (st.registerDataType cfg probe d)
  | .mergeSnapshot s maxSchemaBytes => onAccept some (st.mergeOwnedSchemaSnapshotWithBudget cfg s maxSchemaBytes)
  | .dataTypeDefinition id => .ok ({ st with cache := (st.dataTypeDefinition id st.cache).2 }, none)

/-- The same calls on a hosted node. -/
def SchemaRegistry.hostedCall (sizes : SchemaSizes) (reg : SchemaRegistry) :
    SchemaCall → TelemetryResult (SchemaRegistry × Option SchemaMergeReport)
  | .registerEndpoint _ d => (reg.registerOwnedEndpoint d).map fun reg' => (reg', none)
  | .ensureEndpointId _ id linkLocalOnly =>
    if reg.endpoints.any (·.id == id) then .ok (reg, none)
    else
      (reg.registerOwnedEndpoint (EmbeddedSchema.placeholderEndpoint id linkLocalOnly)).map
        fun reg' => (reg', none)
  | .registerDataType _ d => (reg.registerOwnedType d).map fun reg' => (reg', none)
  | .mergeSnapshot s maxSchemaBytes =>
    (mergeOwnedSchemaSnapshotWithBudget sizes reg s maxSchemaBytes).map fun r => (r.1, some r.2)
  | .dataTypeDefinition _ => .ok (reg, none)

/-- A sequence of accepted calls, with the reports of its merges. -/
def acceptedCalls {S : Type} (call : S → SchemaCall → TelemetryResult (S × Option SchemaMergeReport)) :
    S → List SchemaCall → TelemetryResult (S × List SchemaMergeReport)
  | s, [] => .ok (s, [])
  | s, c :: cs =>
    match call s c with
    | .error e => .error e
    | .ok (s', report) =>
      match acceptedCalls call s' cs with
      | .error e => .error e
      | .ok (s'', reports) => .ok (s'', report.toList ++ reports)

end SedsNet
