import SedsNet.SchemaJoin

/-! # Schema convergence

Nodes learn each other's schemas in no particular order, and some of them many times.  Snapshots that
agree on identities and layouts lead to the same registry in any order and any number, and merging
one of them again changes nothing (`schema_convergence`).  The registry they are merged into has to
agree with them too: against a type with another layout the winner of each merge depends on what was
merged before (`registry_layout_diverges`). -/

namespace SedsNet

open CommutingFold DefinitionKind List SchemaRegistry

/-! ### Snapshots -/

section Identities

variable {δ : Type} [DecidableEq δ] {kind : DefinitionKind δ} {resolves : δ → Bool}

theorem validIdentities_pairwise {earlier defs : List δ} : validIdentities kind resolves earlier defs = true ↔
      (∀ d ∈ defs, resolves d = true) ∧
      (∀ c ∈ earlier, ∀ d ∈ defs, kind.id c = kind.id d ∨ kind.name c = kind.name d → c = d) ∧
      defs.Pairwise fun c d => kind.id c = kind.id d ∨ kind.name c = kind.name d → c = d := by
  induction defs generalizing earlier with
  | nil => simp [validIdentities]
  | cons d defs ih =>
    have hfirst : (!earlier.any fun other =>
        (kind.id other == kind.id d || kind.name other == kind.name d) && other != d) = true ↔
        ∀ c ∈ earlier, kind.id c = kind.id d ∨ kind.name c = kind.name d → c = d := by
      simp
    rw [validIdentities, Bool.and_eq_true, Bool.and_eq_true, ih, hfirst]
    simp only [forall_mem_append, forall_mem_cons, pairwise_cons, not_mem_nil, false_imp_iff, implies_true, and_true]
    constructor
    · rintro ⟨⟨hd, hearlier⟩, hdefs, ⟨hrest, hnew⟩, hpairs⟩
      exact ⟨⟨hd, hdefs⟩, fun c hc => ⟨hearlier c hc, hrest c hc⟩, hnew, hpairs⟩
    · rintro ⟨⟨hd, hdefs⟩, hearlier, hnew, hpairs⟩
      exact ⟨⟨hd, fun c hc => (hearlier c hc).1⟩, hdefs, ⟨fun c hc => (hearlier c hc).2, hnew⟩, hpairs⟩

/-- A valid list resolves throughout, and repeats a definition exactly or not at all. -/
theorem validIdentities_iff {defs : List δ} : validIdentities kind resolves [] defs = true ↔
      (∀ d ∈ defs, resolves d = true) ∧
      ∀ c ∈ defs, ∀ d ∈ defs, kind.id c = kind.id d ∨ kind.name c = kind.name d → c = d := by
  rw [validIdentities_pairwise]
  have hsymm : Std.Symm fun c d => kind.id c = kind.id d ∨ kind.name c = kind.name d → c = d :=
    ⟨fun _ _ h hshare => (h (hshare.imp Eq.symm Eq.symm)).symm⟩
  refine and_congr_right fun _ => ⟨fun h c hc d hd => ?_, fun h => ⟨nofun, pairwise_of_forall_mem_list h⟩⟩
  exact h.2.forall_of_forall (fun _ _ _ => rfl) hc hd

end Identities

/-- The snapshot passes `validate_schema_identities`. -/
def ValidSnapshot (s : OwnedRuntimeSchemaSnapshot) : Prop := validateSchemaIdentities s = .ok ()

variable {s : OwnedRuntimeSchemaSnapshot}

theorem validSnapshot_iff : ValidSnapshot s ↔
    ((∀ d ∈ s.endpoints, SchemaIdentity.resolveEndpoint d.name d.id = true) ∧
        ∀ c ∈ s.endpoints, ∀ d ∈ s.endpoints, c.id = d.id ∨ c.name = d.name → c = d) ∧
      (∀ d ∈ s.types, SchemaIdentity.resolveType d.name d.id = true) ∧
        ∀ c ∈ s.types, ∀ d ∈ s.types, c.id = d.id ∨ c.name = d.name → c = d := by
  refine Iff.trans ?_ (and_congr (@validIdentities_iff _ _ endpointKind _ _) (@validIdentities_iff _ _ typeKind _ _))
  rw [← Bool.and_eq_true]
  unfold ValidSnapshot validateSchemaIdentities
  split
  · rename_i hvalid
    exact iff_of_true rfl hvalid
  · rename_i hvalid
    exact iff_of_false (fun h => by cases h) hvalid

theorem ValidSnapshot.endpoints_eq (h : ValidSnapshot s)
    {d d' : OwnedEndpointDefinition} (hd : d ∈ s.endpoints) (hd' : d' ∈ s.endpoints)
    (hshare : d.id = d'.id ∨ d.name = d'.name) : d = d' :=
  (validSnapshot_iff.mp h).1.2 d hd d' hd' hshare

theorem ValidSnapshot.types_eq (h : ValidSnapshot s)
    {d d' : OwnedDataTypeDefinition} (hd : d ∈ s.types) (hd' : d' ∈ s.types)
    (hshare : d.id = d'.id ∨ d.name = d'.name) : d = d' :=
  (validSnapshot_iff.mp h).2.2 d hd d' hd' hshare

/-- Sorting a snapshot and dropping repeats loses nothing. -/
theorem mem_sortedSchema (he : ∀ d ∈ s.endpoints, ∀ d' ∈ s.endpoints, d.id = d'.id → d = d')
    (ht : ∀ d ∈ s.types, ∀ d' ∈ s.types, d.id = d'.id → d = d') :
    (∀ d, d ∈ (sortedSchema s).endpoints ↔ d ∈ s.endpoints) ∧ ∀ d, d ∈ (sortedSchema s).types ↔ d ∈ s.types := by
  constructor
  · intro d
    refine (mem_dedupByKey _ ?_).trans mem_sortById
    intro a ha b hb
    exact he a (mem_sortById.mp ha) b (mem_sortById.mp hb)
  · intro d
    refine (mem_dedupByKey _ ?_).trans mem_sortById
    intro a ha b hb
    exact ht a (mem_sortById.mp ha) b (mem_sortById.mp hb)

theorem ValidSnapshot.mem_sortedSchema (h : ValidSnapshot s) : (∀ d, d ∈ (sortedSchema s).endpoints ↔ d ∈ s.endpoints) ∧
      ∀ d, d ∈ (sortedSchema s).types ↔ d ∈ s.types :=
  SedsNet.mem_sortedSchema (fun _ hd _ hd' hid => h.endpoints_eq hd hd' (.inl hid))
    (fun _ hd _ hd' hid => h.types_eq hd hd' (.inl hid))

/-- The lists that a merge goes through. -/
def mergedLists (s : OwnedRuntimeSchemaSnapshot) : OwnedRuntimeSchemaSnapshot :=
  sortedSchema (sortedSchema s)

theorem ValidSnapshot.mem_mergedLists (h : ValidSnapshot s) : (∀ d, d ∈ (mergedLists s).endpoints ↔ d ∈ s.endpoints) ∧
      ∀ d, d ∈ (mergedLists s).types ↔ d ∈ s.types := by
  obtain ⟨he, ht⟩ := h.mem_sortedSchema
  obtain ⟨he', ht'⟩ := SedsNet.mem_sortedSchema (s := sortedSchema s)
    (fun d hd d' hd' hid => h.endpoints_eq ((he d).mp hd) ((he d').mp hd') (.inl hid))
    (fun d hd d' hd' hid => h.types_eq ((ht d).mp hd) ((ht d').mp hd') (.inl hid))
  exact ⟨fun d => (he' d).trans (he d), fun d => (ht' d).trans (ht d)⟩

/-! ### Merging one snapshot -/

theorem foldl_mergeEndpoint (ds : List OwnedEndpointDefinition) (reg : SchemaRegistry) (report : SchemaMergeReport) :
    ds.foldl mergeCountedEndpoint (reg, report) =
      ({ reg with endpoints := endpointKind.mergeAll reg.endpoints ds },
        (endpointKind.decisions reg.endpoints ds).foldl SchemaMergeReport.countEndpoint report) := by
  induction ds generalizing reg report with
  | nil => rfl
  | cons d ds ih =>
    rw [foldl_cons, ih]
    rfl

theorem foldl_mergeType (ds : List OwnedDataTypeDefinition) (reg : SchemaRegistry) (report : SchemaMergeReport) :
    ds.foldl mergeCountedType (reg, report) =
      ({ reg with types := typeKind.mergeAll reg.types ds },
        (typeKind.decisions reg.types ds).foldl SchemaMergeReport.countType report) := by
  induction ds generalizing reg report with
  | nil => rfl
  | cons d ds ih =>
    rw [foldl_cons, ih]
    rfl

theorem locked_fst (reg : SchemaRegistry) (s : OwnedRuntimeSchemaSnapshot) : (mergeOwnedSchemaSnapshotLocked reg s).1 =
      ⟨endpointKind.mergeAll reg.endpoints (sortedSchema s).endpoints,
        typeKind.mergeAll reg.types (sortedSchema s).types⟩ := by
  simp only [mergeOwnedSchemaSnapshotLocked, foldl_mergeEndpoint, foldl_mergeType]

theorem changed_foldl {count : SchemaMergeReport → SchemaMergeDecision → SchemaMergeReport}
    (hcount : ∀ r k, (count r k).changed = (r.changed || k.changes)) (ks : List SchemaMergeDecision)
    (report : SchemaMergeReport) :
    (ks.foldl count report).changed = (report.changed || ks.any SchemaMergeDecision.changes) := by
  induction ks generalizing report with
  | nil => simp
  | cons k ks ih => rw [foldl_cons, ih, hcount, any_cons, Bool.or_assoc]

theorem changed_countEndpoint (r : SchemaMergeReport) (k : SchemaMergeDecision) :
    (r.countEndpoint k).changed = (r.changed || k.changes) := by
  cases k <;> simp [SchemaMergeReport.countEndpoint, SchemaMergeReport.changed, SchemaMergeDecision.changes]

theorem changed_countType (r : SchemaMergeReport) (k : SchemaMergeDecision) :
    (r.countType k).changed = (r.changed || k.changes) := by
  cases k <;> simp [SchemaMergeReport.countType, SchemaMergeReport.changed, SchemaMergeDecision.changes]

/-- The report of a merge, by the decisions for both lists. -/
theorem locked_changed (reg : SchemaRegistry) (s : OwnedRuntimeSchemaSnapshot) :
    (mergeOwnedSchemaSnapshotLocked reg s).2.changed =
      ((endpointKind.decisions reg.endpoints (sortedSchema s).endpoints).any SchemaMergeDecision.changes ||
        (typeKind.decisions reg.types (sortedSchema s).types).any SchemaMergeDecision.changes) := by
  simp only [mergeOwnedSchemaSnapshotLocked, foldl_mergeEndpoint, foldl_mergeType]
  rw [changed_foldl changed_countType, changed_foldl changed_countEndpoint]
  rfl

variable {reg : SchemaRegistry}

theorem satAdd_le (a b : ℕ) : satAdd a b ≤ usizeMax := Nat.min_le_right _ _

/-- Without a budget a snapshot is accepted unless its identities conflict. -/
theorem mergeWithBudget_unlimited (sizes : SchemaSizes) (reg : SchemaRegistry)
    (s : OwnedRuntimeSchemaSnapshot) :
    mergeOwnedSchemaSnapshotWithBudget sizes reg s usizeMax =
      match validateSchemaIdentities s with
      | .error e => .error e
      | .ok () =>
        if identityConflict reg (sortedSchema s) then .error .badArg
        else .ok (mergeOwnedSchemaSnapshotLocked reg (sortedSchema s)) := by
  unfold mergeOwnedSchemaSnapshotWithBudget
  cases validateSchemaIdentities s with
  | error e => rfl
  | ok _ =>
    have hbefore : ∀ a b, ¬ usizeMax < satAdd a b := fun a b => Nat.not_lt.mpr (satAdd_le a b)
    simp only [SchemaSizes.schemaByteCost, hbefore, if_false]
    rfl

/-! ### Families of snapshots -/

/-- The registry of a hosted node: catalogs in order, with the definitions of the protocol. -/
structure SchemaRegistry.Hosted (reg : SchemaRegistry) : Prop where
  endpoints : endpointKind.ById reg.endpoints
  types : typeKind.ById reg.types
  internalEndpoints : ∀ k, isInternalEndpoint k = true → ∃ e ∈ reg.endpoints, e.id = k
  internalTypes : ∀ k, isInternalDataType k = true → ∃ e ∈ reg.types, e.id = k

namespace SchemaRegistry

/-- The ids of the protocol are a few, so that the registry can be searched for each of them. -/
theorem Hosted.of_lists (hendpoints : endpointKind.ById reg.endpoints) (htypes : typeKind.ById reg.types)
    (hinternal : [200, 201, 202].all (fun i => reg.endpoints.any (·.id == i)) = true)
    (hinternalTypes : (List.range 19).all (fun i => reg.types.any (·.id == UInt32.ofNat i)) = true) :
    reg.Hosted where
  endpoints := hendpoints
  types := htypes
  internalEndpoints := by
    intro k hk
    have hmem : k ∈ ([200, 201, 202] : List UInt32) := by
      simp only [isInternalEndpoint, Bool.or_eq_true, beq_iff_eq] at hk
      simp only [mem_cons, not_mem_nil, or_false]
      tauto
    obtain ⟨e, he, hid⟩ := any_eq_true.mp (all_eq_true.mp hinternal k hmem)
    exact ⟨e, he, beq_iff_eq.mp hid⟩
  internalTypes := by
    intro k hk
    have hle : k.toNat ≤ 18 := UInt32.le_iff_toNat_le.mp (of_decide_eq_true hk)
    have hmem : k.toNat ∈ List.range 19 := mem_range.mpr (by omega)
    obtain ⟨e, he, hid⟩ := any_eq_true.mp (all_eq_true.mp hinternalTypes k.toNat hmem)
    exact ⟨e, he, (beq_iff_eq.mp hid).trans UInt32.ofNat_toNat⟩

variable {reg' : SchemaRegistry}

theorem registered_new {δ : Type} {kind : DefinitionKind δ} {defs : List δ} {d : δ}
    (hfind : defs.find? (kind.id · == kind.id d) = none) (hname : ¬ defs.any (kind.name · == kind.name d) = true) :
    kind.Registered defs d (kind.sortById (defs ++ [d])) := by
  refine .inr ⟨?_, ?_, rfl⟩
  · intro e he
    simpa using List.find?_eq_none.mp hfind e he
  · intro e he heq
    exact hname (any_eq_true.mpr ⟨e, he, beq_iff_eq.mpr heq⟩)

theorem registerOwnedEndpoint_ok {d : OwnedEndpointDefinition} (h : reg.registerOwnedEndpoint d = .ok reg') :
    ∃ defs, endpointKind.Registered reg.endpoints d defs ∧ reg' = { reg with endpoints := defs } := by
  unfold registerOwnedEndpoint at h
  split at h
  · cases h
  split at h
  next hfind =>
    split_ifs at h with heq
    cases h
    exact ⟨_, .inl ⟨heq ▸ mem_of_find?_eq_some hfind, rfl⟩, rfl⟩
  next hfind =>
    split_ifs at h with hname
    cases h
    exact ⟨_, registered_new hfind hname, rfl⟩

variable {d : OwnedDataTypeDefinition}

theorem registerOwnedType_ok (h : reg.registerOwnedType d = .ok reg') :
    ∃ defs, typeKind.Registered reg.types d defs ∧ reg' = { reg with types := defs } := by
  unfold registerOwnedType at h
  split at h
  · cases h
  split at h
  next hfind =>
    split_ifs at h with heq
    cases h
    exact ⟨_, .inl ⟨heq ▸ mem_of_find?_eq_some hfind, rfl⟩, rfl⟩
  next hfind =>
    split_ifs at h with hname
    cases h
    exact ⟨_, registered_new hfind hname, rfl⟩

theorem registerOwnedType_hosted (hreg : reg.Hosted) (h : reg.registerOwnedType d = .ok reg') : reg'.Hosted := by
  obtain ⟨defs, hregistered, rfl⟩ := registerOwnedType_ok h
  refine ⟨hreg.endpoints, ?_, hreg.internalEndpoints, ?_⟩
  · obtain ⟨-, rfl⟩ | ⟨hid, -, rfl⟩ := hregistered
    · exact hreg.types
    · exact hreg.types.insert hid
  · intro k hk
    obtain ⟨e, he, hid⟩ := hreg.internalTypes k hk
    exact ⟨e, hregistered.mem_iff.mpr (.inl he), hid⟩

/-- The registry that a node starts with. -/
def builtIn : SchemaRegistry where
  endpoints := endpointKind.sortById builtInEndpoints
  types := builtInTypes

theorem new_eq : new = .ok builtIn := by decide +kernel

theorem hosted_builtIn : builtIn.Hosted := by
  refine Hosted.of_lists ?_ ?_ ?_ ?_
  · have h : (builtIn.endpoints.map endpointKind.id).Pairwise (· < ·) := by decide +kernel
    exact pairwise_map.mp h
  · have h : (builtIn.types.map typeKind.id).Pairwise (· < ·) := by decide +kernel
    exact pairwise_map.mp h
  · decide +kernel
  · decide +kernel

end SchemaRegistry

/-- Ids and names agree in both directions, and types with a common id have the same layout. -/
structure Compatible (s s' : OwnedRuntimeSchemaSnapshot) : Prop where
  endpoints : ∀ d ∈ s.endpoints, ∀ d' ∈ s'.endpoints, d.id = d'.id ↔ d.name = d'.name
  types : ∀ d ∈ s.types, ∀ d' ∈ s'.types, d.id = d'.id ↔ d.name = d'.name
  layouts : ∀ d ∈ s.types, ∀ d' ∈ s'.types, d.id = d'.id →
    d.element = d'.element ∧ d.reliable = d'.reliable ∧ d.e2eEncryption = d'.e2eEncryption

/-- The registry has no type of another layout, and no placeholder that is spelled differently. -/
structure RegistryCompatible (reg : SchemaRegistry) (s : OwnedRuntimeSchemaSnapshot) : Prop where
  placeholders : ∀ e ∈ reg.endpoints, ∀ d ∈ s.endpoints, e.id = d.id →
    endpointPlaceholder e.id e.name = true → endpointPlaceholder d.id d.name = true → e.name = d.name
  layouts : ∀ e ∈ reg.types, ∀ d ∈ s.types, e.id = d.id → isInternalDataType e.id = true ∨
    e.element = d.element ∧ e.reliable = d.reliable ∧ e.e2eEncryption = d.e2eEncryption

/-- The snapshots are valid and agree with each other. -/
structure Family (family : List OwnedRuntimeSchemaSnapshot) : Prop where
  valid : ∀ s ∈ family, ValidSnapshot s
  compatible : ∀ s ∈ family, ∀ s' ∈ family, s ≠ s' → Compatible s s'

namespace Family

variable {family : List OwnedRuntimeSchemaSnapshot}

/-- The endpoint definitions of the family. -/
def Endpoints (family : List OwnedRuntimeSchemaSnapshot) (d : OwnedEndpointDefinition) : Prop :=
  ∃ s ∈ family, d ∈ s.endpoints

/-- The type definitions of the family. -/
def Types (family : List OwnedRuntimeSchemaSnapshot) (d : OwnedDataTypeDefinition) : Prop :=
  ∃ s ∈ family, d ∈ s.types

variable (h : Family family)

include h

theorem endpoints_agree {d d' : OwnedEndpointDefinition} (hd : Endpoints family d)
    (hd' : Endpoints family d') : d.id = d'.id ↔ d.name = d'.name := by
  obtain ⟨s, hs, hd⟩ := hd
  obtain ⟨s', hs', hd'⟩ := hd'
  by_cases heq : s = s'
  · subst heq
    constructor
    · intro hid
      rw [(h.valid s hs).endpoints_eq hd hd' (.inl hid)]
    · intro hname
      rw [(h.valid s hs).endpoints_eq hd hd' (.inr hname)]
  · exact (h.compatible s hs s' hs' heq).endpoints d hd d' hd'

variable {d d' : OwnedDataTypeDefinition}

theorem types_agree (hd : Types family d) (hd' : Types family d') : d.id = d'.id ↔ d.name = d'.name := by
  obtain ⟨s, hs, hd⟩ := hd
  obtain ⟨s', hs', hd'⟩ := hd'
  by_cases heq : s = s'
  · subst heq
    constructor
    · intro hid
      rw [(h.valid s hs).types_eq hd hd' (.inl hid)]
    · intro hname
      rw [(h.valid s hs).types_eq hd hd' (.inr hname)]
  · exact (h.compatible s hs s' hs' heq).types d hd d' hd'

theorem types_layout (hd : Types family d) (hd' : Types family d')
    (hid : d.id = d'.id) : SameLayout (typeView d) d' := by
  have hname := (h.types_agree hd hd').mp hid
  obtain ⟨s, hs, hd⟩ := hd
  obtain ⟨s', hs', hd'⟩ := hd'
  by_cases heq : s = s'
  · subst heq
    rw [(h.valid s hs).types_eq hd hd' (.inl hid)]
    exact ⟨rfl, rfl, rfl, rfl⟩
  · obtain ⟨helement, hreliable, he2e⟩ := (h.compatible s hs s' hs' heq).layouts d hd d' hd' hid
    exact ⟨hname, helement, hreliable, he2e⟩

theorem joinsEndpoints : endpointKind.Joining endpointView endpointJoin
    (EndpointOk (Endpoints family)) (Endpoints family) := endpointJoining h.endpoints_agree

theorem joinsTypes : typeKind.Joining typeView typeJoin (TypeOk (Types family)) (Types family) :=
  typeJoining h.types_agree h.types_layout

variable {ss : List OwnedRuntimeSchemaSnapshot}

theorem endpoints_of_flatMap (hss : ∀ s ∈ ss, s ∈ family) :
    ∀ d ∈ ss.flatMap (fun s => (mergedLists s).endpoints), Endpoints family d := by
  intro d hd
  obtain ⟨s, hs, hd⟩ := mem_flatMap.mp hd
  exact ⟨s, hss s hs, ((h.valid s (hss s hs)).mem_mergedLists.1 d).mp hd⟩

theorem types_of_flatMap (hss : ∀ s ∈ ss, s ∈ family) :
    ∀ d ∈ ss.flatMap (fun s => (mergedLists s).types), Types family d := by
  intro d hd
  obtain ⟨s, hs, hd⟩ := mem_flatMap.mp hd
  exact ⟨s, hss s hs, ((h.valid s (hss s hs)).mem_mergedLists.2 d).mp hd⟩

end Family

/-- The catalogs go with the family, so that the joins describe every merge. -/
structure Ready (family : List OwnedRuntimeSchemaSnapshot) (reg : SchemaRegistry) : Prop where
  endpointsById : endpointKind.ById reg.endpoints
  endpointsKnown : endpointKind.Known (Family.Endpoints family) reg.endpoints
  endpointsOk : ∀ k, EndpointOk (Family.Endpoints family) k (Joining.views endpointKind endpointView reg.endpoints k)
  typesById : typeKind.ById reg.types
  typesKnown : typeKind.Known (Family.Types family) reg.types
  typesOk : ∀ k, TypeOk (Family.Types family) k (Joining.views typeKind typeView reg.types k)

/-- The registry after the merges of the snapshots. -/
def mergedRegistry (reg : SchemaRegistry) (ss : List OwnedRuntimeSchemaSnapshot) : SchemaRegistry :=
  ⟨endpointKind.mergeAll reg.endpoints (ss.flatMap fun s => (mergedLists s).endpoints),
    typeKind.mergeAll reg.types (ss.flatMap fun s => (mergedLists s).types)⟩

variable {ss : List OwnedRuntimeSchemaSnapshot} {family : List OwnedRuntimeSchemaSnapshot}

theorem Ready.good (h : Ready family reg) :
    Joining.Good endpointKind endpointView (EndpointOk (Family.Endpoints family)) (Family.Endpoints family) reg.endpoints ∧
      Joining.Good typeKind typeView (TypeOk (Family.Types family)) (Family.Types family) reg.types :=
  ⟨⟨h.endpointsById, h.endpointsKnown, h.endpointsOk⟩, ⟨h.typesById, h.typesKnown, h.typesOk⟩⟩

theorem Ready.merged (hfamily : Family family) (h : Ready family reg)
    (hss : ∀ s ∈ ss, s ∈ family) : Ready family (mergedRegistry reg ss) := by
  have hends := (hfamily.joinsEndpoints.mergeAll_spec h.good.1 (hfamily.endpoints_of_flatMap hss)).1
  have htys := (hfamily.joinsTypes.mergeAll_spec h.good.2 (hfamily.types_of_flatMap hss)).1
  exact ⟨hends.sorted, hends.known, hends.viewed, htys.sorted, htys.known, htys.viewed⟩

/-- The identities of a definition and of the catalog do not conflict. -/
theorem identityConflict_eq_false : identityConflict reg s = false ↔
      (∀ d ∈ s.endpoints, ∀ e ∈ reg.endpoints, endpointIdentityConflicts e.id e.name d.id d.name = false) ∧
      ∀ d ∈ s.types, ∀ e ∈ reg.types, e.id = d.id ↔ e.name = d.name := by
  have htype : ∀ (e d : OwnedDataTypeDefinition), ((e.id == d.id || e.name == d.name) &&
      (e.id != d.id || e.name != d.name)) = false ↔ (e.id = d.id ↔ e.name = d.name) := by
    intro e d
    by_cases hid : e.id = d.id <;> by_cases hname : e.name = d.name <;> simp [hid, hname]
  rw [identityConflict, Bool.or_eq_false_iff]
  simp only [Bool.not_eq_true, any_eq_false, htype]

theorem conflicts_eq_false {a b : DataEndpoint} {aName bName : String} :
    endpointIdentityConflicts a aName b bName = false ↔ (aName = bName → a = b) ∧
      (a = b → aName = bName ∨ endpointPlaceholder a aName = true ∨ endpointPlaceholder b bName = true) := by
  unfold endpointIdentityConflicts
  by_cases hid : a = b
  · by_cases hname : aName = bName
    · simp [hname]
    · simp [hname]
      cases endpointPlaceholder a aName <;> simp
  · simp [hid]

theorem Ready.no_conflict (hfamily : Family family) (h : Ready family reg) (hs : s ∈ family) :
    identityConflict reg (sortedSchema s) = false := by
  obtain ⟨hends, htys⟩ := (hfamily.valid s hs).mem_sortedSchema
  refine identityConflict_eq_false.mpr ⟨?_, ?_⟩
  · intro d hd e he
    have hd' : Family.Endpoints family d := ⟨s, hs, (hends d).mp hd⟩
    refine conflicts_eq_false.mpr ⟨h.endpointsKnown e he d hd', ?_⟩
    intro hid
    rw [← hid]
    exact (h.endpointsOk e.id).accepts e.name e.linkLocalOnly
      (Joining.views_of_mem endpointView h.endpointsById he) d hd' hid.symm
  · intro d hd e he
    have hd' : Family.Types family d := ⟨s, hs, (htys d).mp hd⟩
    have hview := Joining.views_of_mem typeView h.typesById he
    exact ⟨fun hid => (h.typesOk e.id).accepts _ hview d hd' hid.symm, h.typesKnown e he d hd'⟩

variable (sizes : SchemaSizes)

/-- A snapshot of the family is accepted, and its definitions are merged. -/
theorem Ready.merge (hfamily : Family family) (h : Ready family reg) (hs : s ∈ family) :
    mergeOwnedSchemaSnapshotWithBudget sizes reg s usizeMax =
      .ok (mergedRegistry reg [s], (mergeOwnedSchemaSnapshotLocked reg (sortedSchema s)).2) := by
  rw [mergeWithBudget_unlimited, show validateSchemaIdentities s = .ok () from hfamily.valid s hs]
  simp only [h.no_conflict hfamily hs, Bool.false_eq_true, if_false]
  congr 1
  refine Prod.ext ?_ rfl
  rw [locked_fst]
  simp [mergedRegistry, mergedLists]

/-- The snapshots one after the other, without a budget. -/
def mergeSequence (reg : SchemaRegistry) (ss : List OwnedRuntimeSchemaSnapshot) :
    TelemetryResult SchemaRegistry :=
  ss.foldlM (fun reg s => do
    let r ← mergeOwnedSchemaSnapshotWithBudget sizes reg s usizeMax
    return r.1) reg

theorem Ready.mergeSequence (hfamily : Family family) (hss : ∀ s ∈ ss, s ∈ family) (h : Ready family reg) :
    SedsNet.mergeSequence sizes reg ss = .ok (mergedRegistry reg ss) := by
  induction ss generalizing reg with
  | nil => rfl
  | cons s ss ih =>
    have hmerge := h.merge sizes hfamily (hss s mem_cons_self)
    have hready : Ready family (mergedRegistry reg [s]) := by
      refine h.merged hfamily ?_
      intro s' hs'
      rw [mem_singleton.mp hs']
      exact hss s mem_cons_self
    have hrest := ih (fun s' hs' => hss s' (mem_cons_of_mem s hs')) hready
    have hstep : SedsNet.mergeSequence sizes reg (s :: ss) =
        SedsNet.mergeSequence sizes (mergedRegistry reg [s]) ss := by
      rw [SedsNet.mergeSequence, foldlM_cons, hmerge]
      rfl
    rw [hstep, hrest]
    simp [mergedRegistry, mergeAll, foldl_append]

/-- What an accepted snapshot was checked for, and the registry it leads to. -/
theorem merge_ok {sizes : SchemaSizes} {maxSchemaBytes : ℕ} {report : SchemaMergeReport}
    (h : mergeOwnedSchemaSnapshotWithBudget sizes reg s maxSchemaBytes = .ok (reg', report)) :
    ValidSnapshot s ∧ identityConflict reg (sortedSchema s) = false ∧
      mergeOwnedSchemaSnapshotLocked reg (sortedSchema s) = (reg', report) := by
  unfold mergeOwnedSchemaSnapshotWithBudget at h
  obtain ⟨u, hvalid, h⟩ := bind_eq_ok h
  dsimp only at h
  split at h
  case isTrue => cases h
  split at h
  case isTrue => cases h
  case isFalse hconflict =>
    split at h
    case isTrue => cases h
    injection h with h
    exact ⟨hvalid, Bool.eq_false_iff.mpr hconflict, h⟩

/-- A registry that agrees with a snapshot it accepts. -/
theorem ready_of_hosted {sizes : SchemaSizes} (hreg : reg.Hosted)
    (haccepted : ∀ s ∈ family, ∃ r, mergeOwnedSchemaSnapshotWithBudget sizes reg s usizeMax = .ok r)
    (hregistry : ∀ s ∈ family, RegistryCompatible reg s) : (∀ s ∈ family, ValidSnapshot s) ∧ Ready family reg := by
  have hvalid : ∀ s ∈ family, ValidSnapshot s ∧ identityConflict reg (sortedSchema s) = false := by
    intro s hs
    obtain ⟨r, hr⟩ := haccepted s hs
    exact ⟨(merge_ok hr).1, (merge_ok hr).2.1⟩
  refine ⟨fun s hs => (hvalid s hs).1, ?_⟩
  have hends : ∀ d, Family.Endpoints family d → ∀ e ∈ reg.endpoints,
      endpointIdentityConflicts e.id e.name d.id d.name = false ∧ (e.id = d.id →
        endpointPlaceholder e.id e.name = true → endpointPlaceholder d.id d.name = true → e.name = d.name) := by
    rintro d ⟨s, hs, hd⟩ e he
    obtain ⟨hv, hconflict⟩ := hvalid s hs
    exact ⟨(identityConflict_eq_false.mp hconflict).1 d ((hv.mem_sortedSchema.1 d).mpr hd) e he,
      (hregistry s hs).placeholders e he d hd⟩
  have htys : ∀ d, Family.Types family d → ∀ e ∈ reg.types, (e.id = d.id ↔ e.name = d.name) ∧
      (e.id = d.id → isInternalDataType e.id = true ∨
        e.element = d.element ∧ e.reliable = d.reliable ∧ e.e2eEncryption = d.e2eEncryption) := by
    rintro d ⟨s, hs, hd⟩ e he
    obtain ⟨hv, hconflict⟩ := hvalid s hs
    exact ⟨(identityConflict_eq_false.mp hconflict).2 d ((hv.mem_sortedSchema.2 d).mpr hd) e he,
      (hregistry s hs).layouts e he d hd⟩
  refine ⟨hreg.endpoints, ?_, ?_, hreg.types, ?_, ?_⟩
  · intro e he d hd
    exact (conflicts_eq_false.mp (hends d hd e he).1).1
  · intro k
    refine ⟨?_, ?_, ?_⟩
    · intro hint
      obtain ⟨e, he, rfl⟩ := hreg.internalEndpoints k hint
      have hview := Joining.views_of_mem endpointView hreg.endpoints he
      exact ne_of_eq_of_ne hview (Option.some_ne_none _)
    · intro name linkLocal ho d hd hid
      obtain ⟨e, he, rfl, hv⟩ := Joining.mem_of_views ho
      cases hv
      have h := (conflicts_eq_false.mp (hends d hd e he).1).2 hid.symm
      rw [hid] at h
      exact h
    · intro name linkLocal ho d hd hid
      obtain ⟨e, he, hk, hv⟩ := Joining.mem_of_views ho
      obtain rfl : e.id = k := hk
      cases hv
      obtain ⟨hconflict, hspelled⟩ := hends d hd e he
      have haccepts := (conflicts_eq_false.mp hconflict).2 hid.symm
      by_cases hname : e.name = d.name
      · exact .inr (.inl hname)
      · -- One of the names is a placeholder, and not both.
        cases hp : endpointPlaceholder e.id e.name <;>
          cases hp' : endpointPlaceholder e.id d.name <;> simp_all
  · intro e he d hd
    exact (htys d hd e he).1.mpr
  · intro k
    refine ⟨?_, ?_, ?_⟩
    · intro hint
      obtain ⟨e, he, rfl⟩ := hreg.internalTypes k hint
      have hview := Joining.views_of_mem typeView hreg.types he
      exact ne_of_eq_of_ne hview (Option.some_ne_none _)
    · intro v ho d hd hid
      obtain ⟨e, he, rfl, rfl⟩ := Joining.mem_of_views ho
      exact (htys d hd e he).1.mp hid.symm
    · intro v ho d hd hid
      obtain ⟨e, he, rfl, rfl⟩ := Joining.mem_of_views ho
      obtain ⟨hname, hlayout⟩ := htys d hd e he
      obtain hint | ⟨helement, hreliable, he2e⟩ := hlayout hid.symm
      · exact .inl hint
      · exact .inr ⟨hname.mp hid.symm, helement, hreliable, he2e⟩

/-- A snapshot that was merged is merged again without a change. -/
theorem Ready.merge_again (hfamily : Family family) (h : Ready family reg) (hss : ∀ s ∈ ss, s ∈ family)
    (hs : s ∈ ss) :
    ∃ report, mergeOwnedSchemaSnapshotWithBudget sizes (mergedRegistry reg ss) s usizeMax =
      .ok (mergedRegistry reg ss, report) ∧ report.changed = false := by
  have hready := h.merged hfamily hss
  obtain ⟨hends, hkeptEnds⟩ := hfamily.joinsEndpoints.merge_again h.good.1 (hfamily.endpoints_of_flatMap hss)
    fun d hd => mem_flatMap.mpr ⟨s, hs, hd⟩
  obtain ⟨htys, hkeptTys⟩ := hfamily.joinsTypes.merge_again h.good.2 (hfamily.types_of_flatMap hss)
    fun d hd => mem_flatMap.mpr ⟨s, hs, hd⟩
  have hsame : mergedRegistry (mergedRegistry reg ss) [s] = mergedRegistry reg ss := by
    rw [mergedRegistry, flatMap_singleton, flatMap_singleton]
    exact congrArg₂ SchemaRegistry.mk hends htys
  refine ⟨(mergeOwnedSchemaSnapshotLocked (mergedRegistry reg ss) (sortedSchema s)).2, ?_, ?_⟩
  · rw [hready.merge sizes hfamily (hss s hs), hsame]
  · rw [locked_changed]
    exact Bool.or_eq_false_iff.mpr ⟨hkeptEnds, hkeptTys⟩

/-! ### Convergence -/

/-- The endpoints with their link-local flags, and the types with their destinations as sets and their
priorities. -/
def SchemaRegistry.observe (reg : SchemaRegistry) :
    List (DataEndpoint × String × Bool) × List (DataType × TypeView) :=
  (reg.endpoints.map fun e => (e.id, endpointView e), reg.types.map fun e => (e.id, typeView e))

/-- Which snapshots were merged decides what is seen of the registry. -/
theorem Ready.observe_eq (hfamily : Family family) (h : Ready family reg) {ss' : List OwnedRuntimeSchemaSnapshot}
    (hss : ∀ s ∈ ss, s ∈ family) (hsame : ∀ s, s ∈ ss ↔ s ∈ ss') :
    (mergedRegistry reg ss).observe = (mergedRegistry reg ss').observe := by
  have hss' : ∀ s ∈ ss', s ∈ family := fun s hs => hss s ((hsame s).mpr hs)
  have hready := h.merged hfamily hss
  have hready' := h.merged hfamily hss'
  have hends : ∀ d, d ∈ ss.flatMap (fun s => (mergedLists s).endpoints) ↔
      d ∈ ss'.flatMap fun s => (mergedLists s).endpoints := by
    intro d
    simp only [mem_flatMap, hsame]
  have htys : ∀ d, d ∈ ss.flatMap (fun s => (mergedLists s).types) ↔
      d ∈ ss'.flatMap fun s => (mergedLists s).types := by
    intro d
    simp only [mem_flatMap, hsame]
  refine Prod.ext ?_ ?_
  · exact Joining.map_view_eq hready.endpointsById hready'.endpointsById
      (hfamily.joinsEndpoints.views_eq h.good.1 (hfamily.endpoints_of_flatMap hss) hends)
  · exact Joining.map_view_eq hready.typesById hready'.typesById
      (hfamily.joinsTypes.views_eq h.good.2 (hfamily.types_of_flatMap hss) htys)

/-- **Schemas converge**: compatible snapshots that a hosted registry accepts, and that agree with its
own definitions, lead to the same registry in any order and with any repetitions, and merging one of
them again is no change. -/
theorem schema_convergence (reg : SchemaRegistry) (hreg : reg.Hosted)
    (family : List OwnedRuntimeSchemaSnapshot)
    (haccepted : ∀ s ∈ family, ∃ r, mergeOwnedSchemaSnapshotWithBudget sizes reg s usizeMax = .ok r)
    (hcompatible : ∀ s ∈ family, ∀ s' ∈ family, s ≠ s' → Compatible s s')
    (hregistry : ∀ s ∈ family, RegistryCompatible reg s) :
    ∃ seen, ∀ ss : List OwnedRuntimeSchemaSnapshot, (∀ s, s ∈ ss ↔ s ∈ family) →
      ∃ reg', mergeSequence sizes reg ss = .ok reg' ∧ reg'.observe = seen ∧
        ∀ s ∈ family, ∃ report, mergeOwnedSchemaSnapshotWithBudget sizes reg' s usizeMax =
          .ok (reg', report) ∧ report.changed = false := by
  obtain ⟨hvalid, hready⟩ := ready_of_hosted hreg haccepted hregistry
  have hfamily : Family family := ⟨hvalid, hcompatible⟩
  refine ⟨(mergedRegistry reg family).observe, ?_⟩
  intro ss hss
  have hsub : ∀ s ∈ ss, s ∈ family := fun s hs => (hss s).mp hs
  refine ⟨mergedRegistry reg ss, hready.mergeSequence sizes hfamily hsub, ?_, ?_⟩
  · exact hready.observe_eq hfamily hsub hss
  · intro s hs
    exact hready.merge_again sizes hfamily hsub ((hss s).mpr hs)

/-- A `STATUS` type with the given number of readings, for one endpoint. -/
def statusType (count : UInt64) (endpoint : DataEndpoint) : OwnedDataTypeDefinition :=
  ⟨300, "STATUS", "", .static count .uint8 .data, [endpoint], .unordered, 2, .preferOff⟩

def statusSnapshot (count : UInt64) (endpoint : DataEndpoint) : OwnedRuntimeSchemaSnapshot :=
  ⟨[⟨endpoint, endpointName endpoint, "", endpoint == 6⟩], [statusType count endpoint]⟩
where
  endpointName (endpoint : DataEndpoint) : String := if endpoint = 5 then "RADIO" else "CAMERA"

def recordSizes : SchemaSizes := ⟨48, 80, 4⟩

/-- The readings of a radio and of a camera merge into the registry of a new node. -/
theorem schema_convergence_status : SchemaRegistry.builtIn.Hosted ∧ ∃ seen, ∀ ss : List OwnedRuntimeSchemaSnapshot,
      (∀ s, s ∈ ss ↔ s ∈ [statusSnapshot 2 5, statusSnapshot 2 6]) →
      ∃ reg', mergeSequence recordSizes SchemaRegistry.builtIn ss = .ok reg' ∧ reg'.observe = seen ∧
        ∀ s ∈ [statusSnapshot 2 5, statusSnapshot 2 6], ∃ report,
          mergeOwnedSchemaSnapshotWithBudget recordSizes reg' s usizeMax = .ok (reg', report) ∧
            report.changed = false := by
  refine ⟨hosted_builtIn,
    schema_convergence recordSizes builtIn hosted_builtIn _ ?_ ?_ ?_⟩
  · intro s hs
    apply exists_ok
    revert s
    decide +kernel
  · intro s hs s' hs' _
    constructor <;> revert s s' <;> decide +kernel
  · intro s hs
    constructor <;> revert s <;> decide +kernel

/-- Against a type with one reading the winner is decided anew by each merge: the registry that hears
the radio first forgets the radio's endpoint, the other one keeps it. -/
theorem registry_layout_diverges :
    ∃ reg, SchemaRegistry.builtIn.registerOwnedType (statusType 1 5) = .ok reg ∧ reg.Hosted ∧
      Compatible (statusSnapshot 2 5) (statusSnapshot 2 6) ∧
      (∃ r, mergeOwnedSchemaSnapshotWithBudget recordSizes reg (statusSnapshot 2 5) usizeMax = .ok r) ∧
      (∃ r, mergeOwnedSchemaSnapshotWithBudget recordSizes reg (statusSnapshot 2 6) usizeMax = .ok r) ∧ ∃ reg₁ reg₂,
        mergeSequence recordSizes reg [statusSnapshot 2 5, statusSnapshot 2 6] = .ok reg₁ ∧
        mergeSequence recordSizes reg [statusSnapshot 2 6, statusSnapshot 2 5] = .ok reg₂ ∧
        reg₁.observe ≠ reg₂.observe := by
  have hregister : builtIn.registerOwnedType (statusType 1 5) =
      .ok ⟨builtIn.endpoints, builtInTypes ++ [statusType 1 5]⟩ := by
    decide +kernel
  refine ⟨_, hregister, registerOwnedType_hosted hosted_builtIn hregister,
    ?_, exists_ok (by decide +kernel), exists_ok (by decide +kernel), ?_⟩
  · constructor <;> decide +kernel
  · generalize hreg : (⟨builtIn.endpoints,
      builtInTypes ++ [statusType 1 5]⟩ : SchemaRegistry) = reg
    have hseen : (mergeSequence recordSizes reg [statusSnapshot 2 5, statusSnapshot 2 6]).map
        SchemaRegistry.observe ≠
        (mergeSequence recordSizes reg [statusSnapshot 2 6, statusSnapshot 2 5]).map
        SchemaRegistry.observe := by
      rw [← hreg]
      decide +kernel
    obtain ⟨reg₁, h₁⟩ : ∃ r, mergeSequence recordSizes reg [statusSnapshot 2 5, statusSnapshot 2 6] =
        .ok r := exists_ok (by rw [← hreg]; decide +kernel)
    obtain ⟨reg₂, h₂⟩ : ∃ r, mergeSequence recordSizes reg [statusSnapshot 2 6, statusSnapshot 2 5] =
        .ok r := exists_ok (by rw [← hreg]; decide +kernel)
    refine ⟨reg₁, reg₂, h₁, h₂, ?_⟩
    intro heq
    rw [h₁, h₂] at hseen
    exact hseen (congrArg Except.ok heq)

end SedsNet
