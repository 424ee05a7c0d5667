import SedsNet.EmbeddedMerge

/-! # Hosted and embedded registries agree

The hosted and the embedded registry over the same sequence of accepted registrations, merges and
lookups, from the same compiled definitions.  They hold the same schema, report changes alike, and
the embedded one retains nothing for fragments that it covers (`registries_agree`), as long as the
types list their destinations in ascending order.  Otherwise a repeated snapshot is a change in the
embedded registry only (`repeated_snapshot_diverges`). -/

namespace SedsNet

open DefinitionKind ShadowLog List SchemaMergeReport SchemaRegistry

/-! ### Accepted calls -/

theorem onAccept_some {S α β : Type} {f : α → β} {r : S × TelemetryResult α} {s : S} {b : β}
    (h : onAccept f r = .ok (s, b)) : ∃ a, r = (s, .ok a) ∧ b = f a := by
  obtain ⟨s', result⟩ := r
  cases result with
  | error e => cases h
  | ok a =>
    cases h
    exact ⟨a, rfl, rfl⟩

theorem onAccept_ok {S β : Type} {f : Unit → β} {r : S × TelemetryResult Unit} {s : S} {b : β}
    (h : onAccept f r = .ok (s, b)) : r = (s, .ok ()) ∧ b = f () := by
  obtain ⟨a, hr, hb⟩ := onAccept_some h
  exact ⟨hr, hb⟩

theorem acceptedCalls_cons {S : Type} {call : S → SchemaCall → TelemetryResult (S × Option SchemaMergeReport)} {s s' : S}
    {c : SchemaCall} {cs : List SchemaCall} {reports : List SchemaMergeReport}
    (h : acceptedCalls call s (c :: cs) = .ok (s', reports)) :
    ∃ s₁ r rs, call s c = .ok (s₁, r) ∧ acceptedCalls call s₁ cs = .ok (s', rs) ∧ reports = r.toList ++ rs := by
  rw [acceptedCalls] at h
  split at h
  next => cases h
  next s₁ r hfirst =>
    split at h
    next => cases h
    next s₂ rs hrest =>
      cases h
      exact ⟨s₁, r, rs, hfirst, hrest, rfl⟩

/-! ### Agreement -/

/-- A hosted registry that starts with the definitions compiled into the firmware.  It may describe
them, which the flash tables do not. -/
structure SameBase (flash : CompiledSchema) (reg : SchemaRegistry) : Prop where
  hosted : reg.Protected
  endpoints : ∀ v, v ∈ reg.endpoints.map OwnedEndpointDefinition.undescribed ↔
    v ∈ flash.embeddedStaticEndpoints.map OwnedEndpointDefinition.undescribed
  types : ∀ v, v ∈ reg.types.map OwnedDataTypeDefinition.undescribed ↔
    v ∈ flash.embeddedStaticDataTypes.map OwnedDataTypeDefinition.undescribed

/-- What both registries hold, as sets (`readopted_type_listed_twice`), and what both look up. -/
structure SameSchema {flash : CompiledSchema} (reg : SchemaRegistry) (st : EmbeddedSchema flash) : Prop where
  endpoints : ∀ v, v ∈ reg.endpoints.map OwnedEndpointDefinition.undescribed ↔
    v ∈ st.effectiveEmbeddedSchema.endpoints.map OwnedEndpointDefinition.undescribed
  types : ∀ v, v ∈ reg.types.map OwnedDataTypeDefinition.undescribed ↔
    v ∈ st.effectiveEmbeddedSchema.types.map OwnedDataTypeDefinition.undescribed
  endpointDefinition : ∀ id, (endpointKind.find reg.endpoints id).map OwnedEndpointDefinition.undescribed =
    (st.endpointDefinition id).map OwnedEndpointDefinition.undescribed
  dataTypeDefinition : ∀ id cache, (typeKind.find reg.types id).map OwnedDataTypeDefinition.undescribed =
    (st.dataTypeDefinition id cache).1.map OwnedDataTypeDefinition.undescribed

/-- The types of a call list their destinations in ascending order. -/
def SchemaCall.Tidy : SchemaCall → Prop
  | .registerDataType _ d => d.Tidy
  | .mergeSnapshot s _ => ∀ d ∈ s.types, d.Tidy
  | _ => True

theorem distinct_of_same {δ : Type} {kind : DefinitionKind δ} {core : δ → δ} {tidy : δ → Prop} {fixed defs base : List δ}
    (rule : kind.MergeRule core tidy) (hcatalog : kind.Catalog fixed defs)
    (hsame : ∀ v, v ∈ defs.map core ↔ v ∈ base.map core) (hplain : ∀ d ∈ base, core d = d) : kind.Distinct base := by
  have hdefs : ∀ d ∈ base, ∃ e ∈ defs, core e = d := by
    intro d hd
    obtain ⟨e, he, hcore⟩ := mem_map.mp ((hsame (core d)).mpr (mem_map_of_mem hd))
    exact ⟨e, he, hcore.trans (hplain d hd)⟩
  intro a ha b hb hab
  obtain ⟨x, hx, rfl⟩ := hdefs a ha
  obtain ⟨y, hy, rfl⟩ := hdefs b hb
  rw [sameIdentity_iff, rule.id_core, rule.id_core, rule.name_core, rule.name_core] at hab
  obtain hid | hname := hab
  · rw [hcatalog.sorted.eq_of_id hx hy hid]
  · rw [hcatalog.sorted.eq_of_id hx hy (hcatalog.names x hx y hy hname)]

namespace SameBase

variable {flash : CompiledSchema} {reg : SchemaRegistry}

theorem distinctEndpoints (h : SameBase flash reg) : endpointKind.Distinct flash.embeddedStaticEndpoints := by
  refine distinct_of_same endpointRule h.hosted.endpoints h.endpoints ?_
  intro d hd
  obtain hd | hd := mem_append.mp hd
  · have hall : ∀ d ∈ builtInEndpoints, d.undescribed = d := by decide +kernel
    exact hall d hd
  · rw [OwnedEndpointDefinition.undescribed, ← flash.endpointsPlain d hd]

theorem distinctTypes (h : SameBase flash reg) : typeKind.Distinct flash.embeddedStaticDataTypes := by
  refine distinct_of_same typeRule h.hosted.types h.types ?_
  intro d hd
  obtain hd | hd := mem_append.mp hd
  · have hall : ∀ d ∈ builtInTypes, d.undescribed = d := by decide +kernel
    exact hall d hd
  · rw [OwnedDataTypeDefinition.undescribed, ← flash.typesPlain d hd]

end SameBase

/-- The two registries over a common sequence of calls. -/
structure Agrees {flash : CompiledSchema} (reg : SchemaRegistry) (st : EmbeddedSchema flash) : Prop where
  hosted : reg.Protected
  endpoints : endpointKind.Mirrors OwnedEndpointDefinition.undescribed reg.endpoints flash.embeddedStaticEndpoints
    st.endpoints
  types : typeKind.Mirrors OwnedDataTypeDefinition.undescribed reg.types flash.embeddedStaticDataTypes st.types
  tidy : ∀ d ∈ reg.types, d.Tidy

namespace Agrees

variable {flash : CompiledSchema} {reg reg' : SchemaRegistry} {st st' : EmbeddedSchema flash} {cfg : EmbeddedSettings}
  {sizes : SchemaSizes} (hends : endpointKind.Distinct flash.embeddedStaticEndpoints)
  (htys : typeKind.Distinct flash.embeddedStaticDataTypes)

theorem boot (hbase : SameBase flash reg) (htidy : ∀ d ∈ flash.types, d.Tidy) : Agrees reg (EmbeddedSchema.boot flash) where
  hosted := hbase.hosted
  endpoints v := by
    change _ ↔ v ∈ (live _ _ []).map _
    rw [live_nil]
    exact hbase.endpoints v
  types v := by
    change _ ↔ v ∈ (live _ _ []).map _
    rw [live_nil]
    exact hbase.types v
  tidy d hd := by
    obtain ⟨e, he, hcore⟩ := mem_map.mp ((hbase.types d.undescribed).mp (mem_map_of_mem hd))
    refine typeRule.tidy_core hcore ?_
    obtain he | he := mem_append.mp he
    · have hall : ∀ d ∈ builtInTypes, d.Tidy := by decide +kernel
      exact hall e he
    · exact htidy e he

theorem congr (h : Agrees reg st) (hendpoints : st'.endpoints = st.endpoints) (htypes : st'.types = st.types) :
    Agrees reg st' := by
  refine ⟨h.hosted, ?_, ?_, h.tidy⟩
  · rw [hendpoints]
    exact h.endpoints
  · rw [htypes]
    exact h.types

include hends in
theorem registerEndpoint (h : Agrees reg st) {probe : AdmissionProbe} {d : OwnedEndpointDefinition}
    (hhosted : reg.registerOwnedEndpoint d = .ok reg') (hembedded : st.registerEndpoint cfg probe d = (st', .ok ())) :
    Agrees reg' st' := by
  obtain ⟨htypes, found, hfound, hpushed⟩ := EmbeddedSchema.registerEndpoint_accepted hembedded
  have hsafe := h.hosted.registerEndpoint hhosted
  obtain ⟨defs, hr, rfl⟩ := registerOwnedEndpoint_ok hhosted
  refine ⟨hsafe, h.endpoints.registered endpointRule hends h.hosted.endpoints.sorted hr hfound hpushed, ?_, h.tidy⟩
  rw [htypes]
  exact h.types

include htys in
theorem registerDataType (h : Agrees reg st) {probe : AdmissionProbe} {d : OwnedDataTypeDefinition} (hd : d.Tidy)
    (hhosted : reg.registerOwnedType d = .ok reg') (hembedded : st.registerDataType cfg probe d = (st', .ok ())) :
    Agrees reg' st' := by
  obtain ⟨hendpoints, found, hfound, hpushed⟩ := EmbeddedSchema.registerDataType_accepted hembedded
  have hsafe := h.hosted.registerType hhosted
  obtain ⟨defs, hr, rfl⟩ := registerOwnedType_ok hhosted
  refine ⟨hsafe, ?_, h.types.registered typeRule htys h.hosted.types.sorted hr hfound hpushed, ?_⟩
  · rw [hendpoints]
    exact h.endpoints
  · intro e he
    obtain he | rfl := hr.mem_iff.mp he
    · exact h.tidy e he
    · exact hd

include hends in
theorem exists_iff (h : Agrees reg st) (id : DataEndpoint) : reg.endpoints.any (·.id == id) = st.endpointExists id := by
  have hfind := h.endpoints.find_eq endpointRule hends h.hosted.endpoints.sorted id
  rw [← st.endpointDefinition_eq] at hfind
  have hexists : st.endpointExists id = (st.endpointDefinition id).isSome := by
    rw [EmbeddedSchema.endpointExists, EmbeddedSchema.endpointDefinition]
    cases st.embeddedOverlayEndpoint id with
    | none | some => rfl
  have hany : reg.endpoints.any (·.id == id) = (endpointKind.find reg.endpoints id).isSome := by
    rw [Bool.eq_iff_iff, any_eq_true]
    exact List.find?_isSome.symm
  rw [hany, hexists]
  have hsome := congrArg Option.isSome hfind
  rw [Option.isSome_map, Option.isSome_map] at hsome
  exact hsome

include hends htys in
theorem merge (h : Agrees reg st) {s : OwnedRuntimeSchemaSnapshot} {maxSchemaBytes : ℕ}
    {report report' : SchemaMergeReport} (hs : ∀ d ∈ s.types, d.Tidy)
    (hhosted : mergeOwnedSchemaSnapshotWithBudget sizes reg s maxSchemaBytes = .ok (reg', report))
    (hembedded : st.mergeOwnedSchemaSnapshotWithBudget cfg s maxSchemaBytes = (st', .ok report')) :
    Agrees reg' st' ∧ report.changed = report'.changed := by
  have hprotected := h.hosted.merge hhosted
  obtain ⟨hvalid, hconflict, hmerged⟩ := merge_ok hhosted
  obtain ⟨hknownE, hknownT⟩ := known_of_accepted hvalid hconflict
  have hfamily := family_of_valid hvalid
  obtain ⟨hmemE, hmemT⟩ := hvalid.mem_mergedLists
  obtain ⟨hbyE, hbyT⟩ := byId_mergedLists s
  obtain ⟨cache, es, hes, ts, hts, hendpoints, htypes, rfl, -⟩ := EmbeddedSchema.merge_accepted hembedded
  -- the hosted lists have the definitions of the snapshot, each once; the embedded loops read the overlay
  obtain ⟨hmirrorE, -, hchangedE⟩ := hfamily.joinsEndpoints.merge_both endpointRule hends h.endpoints
    h.hosted.endpoints.sorted (fun _ _ => trivial) hknownE (fun d hd => ⟨s, mem_singleton_self s, hd⟩)
    (fun a ha b hb => hvalid.endpoints_eq ha hb) hmemE hbyE (EmbeddedSchema.reads_endpoints hends st) hes
  obtain ⟨hmirrorT, htidyT, hchangedT⟩ := hfamily.joinsTypes.merge_both typeRule htys h.types h.hosted.types.sorted
    h.tidy hknownT (fun d hd => ⟨s, mem_singleton_self s, hd⟩) (fun a ha b hb => hvalid.types_eq ha hb) hmemT hbyT
    (EmbeddedSchema.reads_types htys st) hts
  obtain rfl : (mergeOwnedSchemaSnapshotLocked reg (sortedSchema s)).1 = reg' := by rw [hmerged]
  obtain rfl : (mergeOwnedSchemaSnapshotLocked reg (sortedSchema s)).2 = report := by rw [hmerged]
  have hreg := locked_fst reg (sortedSchema s)
  constructor
  · refine ⟨hprotected, ?_, ?_, ?_⟩
    · rw [hendpoints, hreg]
      exact hmirrorE
    · rw [htypes, hreg]
      exact hmirrorT
    · rw [hreg]
      exact htidyT hs
  · rw [locked_changed, Bool.eq_iff_iff, Bool.or_eq_true]
    change (endpointKind.decisions reg.endpoints (mergedLists s).endpoints).any _ = true ∨
      (typeKind.decisions reg.types (mergedLists s).types).any _ = true ↔ _
    rw [hchangedE, hchangedT]
    simp only [changed, Bool.or_eq_true, bne_iff_ne, ne_eq]
    omega

include hends htys in
/-- One call that both registries accept. -/
theorem call (h : Agrees reg st) {c : SchemaCall} (hc : c.Tidy) {report report' : Option SchemaMergeReport}
    (hhosted : reg.hostedCall sizes c = .ok (reg', report)) (hembedded : st.call cfg c = .ok (st', report')) :
    Agrees reg' st' ∧ report.map changed = report'.map changed := by
  cases c with
  | registerEndpoint probe d =>
    obtain ⟨reg₁, hreg, heq⟩ := map_eq_ok hhosted
    obtain ⟨hst, rfl⟩ := onAccept_ok hembedded
    cases heq
    exact ⟨h.registerEndpoint hends hreg hst, rfl⟩
  | ensureEndpointId probe id linkLocalOnly =>
    obtain ⟨hst, rfl⟩ := onAccept_ok hembedded
    have hexists := h.exists_iff hends id
    unfold hostedCall at hhosted
    unfold EmbeddedSchema.ensureEndpointId at hst
    dsimp only at hhosted
    rw [← hexists] at hst
    split at hhosted
    case isTrue hknown =>
      rw [if_pos hknown] at hst
      cases hst
      cases hhosted
      exact ⟨h, rfl⟩
    case isFalse hknown =>
      rw [if_neg hknown] at hst
      obtain ⟨reg₁, hreg, heq⟩ := map_eq_ok hhosted
      cases heq
      exact ⟨h.registerEndpoint hends hreg hst, rfl⟩
  | registerDataType probe d =>
    obtain ⟨reg₁, hreg, heq⟩ := map_eq_ok hhosted
    obtain ⟨hst, rfl⟩ := onAccept_ok hembedded
    cases heq
    exact ⟨h.registerDataType htys hc hreg hst, rfl⟩
  | mergeSnapshot s maxSchemaBytes =>
    obtain ⟨⟨reg₁, r⟩, hreg, heq⟩ := map_eq_ok hhosted
    obtain ⟨r', hst, rfl⟩ := onAccept_some hembedded
    cases heq
    obtain ⟨hagrees, hchanged⟩ := h.merge hends htys hc hreg hst
    refine ⟨hagrees, ?_⟩
    rw [Option.map_some, Option.map_some, hchanged]
  | dataTypeDefinition id =>
    cases hhosted
    cases hembedded
    exact ⟨h.congr rfl rfl, rfl⟩

include hends htys in
theorem calls (h : Agrees reg st) {cs : List SchemaCall} (hcs : ∀ c ∈ cs, c.Tidy) {reports reports' : List SchemaMergeReport}
    (hhosted : acceptedCalls (hostedCall sizes) reg cs = .ok (reg', reports))
    (hembedded : acceptedCalls (EmbeddedSchema.call cfg) st cs = .ok (st', reports')) :
    Agrees reg' st' ∧ reports.map changed = reports'.map changed := by
  induction cs generalizing reg st reports reports' with
  | nil =>
    cases hhosted
    cases hembedded
    exact ⟨h, rfl⟩
  | cons c cs ih =>
    rw [forall_mem_cons] at hcs
    obtain ⟨reg₁, r, rs, hfirst, hrest, rfl⟩ := acceptedCalls_cons hhosted
    obtain ⟨st₁, r', rs', hfirst', hrest', rfl⟩ := acceptedCalls_cons hembedded
    obtain ⟨hagrees, hchanged⟩ := h.call hends htys hcs.1 hfirst hfirst'
    obtain ⟨hfinal, hchangeds⟩ := ih hagrees hcs.2 hrest hrest'
    refine ⟨hfinal, ?_⟩
    rw [map_append, map_append, hchangeds]
    have hhead : r.toList.map changed = r'.toList.map changed := by
      have := congrArg Option.toList hchanged
      rwa [Option.toList_map, Option.toList_map] at this
    rw [hhead]

include hends htys in
theorem sameSchema (h : Agrees reg st) : SameSchema reg st where
  endpoints := h.endpoints
  types := h.types
  endpointDefinition id := by
    rw [st.endpointDefinition_eq]
    exact h.endpoints.find_eq endpointRule hends h.hosted.endpoints.sorted id
  dataTypeDefinition id cache := by
    rw [st.dataTypeDefinition_fst]
    exact h.types.find_eq typeRule htys h.hosted.types.sorted id

end Agrees

/-! ### Fragments that are covered already -/

/-- The endpoint says what the definition says, or knows the name that the definition only stands in for. -/
structure EndpointCovers (e d : OwnedEndpointDefinition) : Prop where
  id : e.id = d.id
  name : e.name = d.name ∨ endpointPlaceholder d.id d.name = true ∧ endpointPlaceholder e.id e.name = false
  linkLocalOnly : d.linkLocalOnly = true → e.linkLocalOnly = true

/-- The type has the layout of the definition, all its destinations and at least its priority. -/
structure TypeCovers (e d : OwnedDataTypeDefinition) : Prop where
  id : e.id = d.id
  name : e.name = d.name
  element : e.element = d.element
  reliable : e.reliable = d.reliable
  e2eEncryption : e.e2eEncryption = d.e2eEncryption
  endpoints : d.endpoints ⊆ e.endpoints
  priority : d.priority ≤ e.priority

/-- The effective schema has all that the fragment says. -/
structure EmbeddedSchema.Covered {flash : CompiledSchema} (st : EmbeddedSchema flash) (s : OwnedRuntimeSchemaSnapshot) :
    Prop where
  endpoints : ∀ d ∈ s.endpoints, ∃ e ∈ st.effectiveEmbeddedSchema.endpoints, EndpointCovers e d
  types : ∀ d ∈ s.types, ∃ e ∈ st.effectiveEmbeddedSchema.types, TypeCovers e d

theorem EndpointCovers.merge {e d : OwnedEndpointDefinition} (h : EndpointCovers e d) :
    (mergeEndpointMetadata e d).undescribed = e.undescribed := by
  by_cases hname : e.name = d.name
  · obtain hm | ⟨-, hne | hne⟩ | hm := mergeEndpointMetadata_result e d
    · rw [hm]
    · exact absurd h.id hne
    · exact absurd hname hne
    · have hor : (e.linkLocalOnly || d.linkLocalOnly) = e.linkLocalOnly := by
        cases hd : d.linkLocalOnly with
        | false => rw [Bool.or_false]
        | true => rw [h.linkLocalOnly hd, Bool.or_true]
      rw [hm, hor]
  · obtain ⟨hplaceholder, hnamed⟩ := h.name.resolve_left hname
    unfold mergeEndpointMetadata
    split
    case isTrue => rfl
    rw [if_neg (by simp [hnamed]), if_pos ⟨h.id, hname, hplaceholder, hnamed⟩]

theorem TypeCovers.merge {e d : OwnedDataTypeDefinition} (h : TypeCovers e d) (htidy : e.Tidy) :
    (mergeTypeMetadata e d).undescribed = e.undescribed := by
  obtain hm | ⟨-, hne | hne | hne | hne | hne⟩ | hm := mergeTypeMetadata_result e d
  · rw [hm]
  · exact absurd h.id hne
  · exact absurd h.name hne
  · exact absurd h.element hne
  · exact absurd h.reliable hne
  · exact absurd h.e2eEncryption hne
  · have hmax : max e.priority d.priority = e.priority := by
      rw [max_comm_u8]
      exact if_pos h.priority
    rw [hm, unionEndpoints_of_subset htidy h.endpoints, hmax]

namespace EmbeddedSchema

variable {flash : CompiledSchema} {st : EmbeddedSchema flash} {cfg : EmbeddedSettings}

theorem merge_ownedBytes (s : OwnedRuntimeSchemaSnapshot) (maxSchemaBytes : ℕ) :
    (st.mergeOwnedSchemaSnapshotWithBudget cfg s maxSchemaBytes).1.ownedBytes = st.ownedBytes ∨
      ∃ cache, (st.mergeOwnedSchemaSnapshotWithBudget cfg s maxSchemaBytes).1.ownedBytes =
        wrapAdd st.ownedBytes (st.typePlan cfg (st.endpointPlan cfg s.endpoints).bytes s.types cache).1.bytes := by
  cases hresult : (st.mergeOwnedSchemaSnapshotWithBudget cfg s maxSchemaBytes).2 with
  | ok report =>
    obtain ⟨cache, es, rfl, ts, rfl, -, -, -, hbytes⟩ := merge_accepted (Prod.ext rfl hresult)
    exact .inr ⟨cache, hbytes⟩
  | error e =>
    refine .inl ?_
    unfold mergeOwnedSchemaSnapshotWithBudget at hresult ⊢
    split
    next => rfl
    next hvalid =>
      simp only [hvalid] at hresult
      split
      case isTrue => rfl
      case isFalse hends =>
        rw [if_neg hends] at hresult
        dsimp only at hresult ⊢
        split
        case isTrue => rfl
        case isFalse htys =>
          rw [if_neg htys] at hresult
          split
          case isTrue => rfl
          case isFalse hbudget =>
            rw [if_neg hbudget] at hresult
            cases hresult

/-- Nothing is retained for a fragment that is covered. -/
theorem covered_merge {reg : SchemaRegistry} (hends : endpointKind.Distinct flash.embeddedStaticEndpoints)
    (htys : typeKind.Distinct flash.embeddedStaticDataTypes) (h : Agrees reg st) {s : OwnedRuntimeSchemaSnapshot}
    (hs : st.Covered s) (maxSchemaBytes : ℕ) :
    (st.mergeOwnedSchemaSnapshotWithBudget cfg s maxSchemaBytes).1.schemaBytesUsed ≤ st.schemaBytesUsed := by
  have hendpoints : st.endpointPlan cfg s.endpoints = ⟨[], 0, 0, 0⟩ := by
    refine plan_eq_self _ ?_ ()
    intro d hd cache
    obtain ⟨e, he, hcovers⟩ := hs.endpoints d hd
    refine ⟨e, ?_, endpointRule.pushed_eq_none.mpr hcovers.merge⟩
    refine existing_of_byId ?_
    rw [(reads_endpoints hends st).byId]
    exact hends.lookup_eq_some.mpr ⟨he, hcovers.id⟩
  have htypes : ∀ bytes cache, (st.typePlan cfg bytes s.types cache).1 = ⟨[], 0, 0, bytes⟩ := by
    intro bytes cache
    refine plan_eq_self _ ?_ cache
    intro d hd cache
    obtain ⟨e, he, hcovers⟩ := hs.types d hd
    obtain ⟨e', he', hcore⟩ := h.types.of_overlay he
    refine ⟨e, ?_, typeRule.pushed_eq_none.mpr (hcovers.merge (typeRule.tidy_core hcore (h.tidy e' he')))⟩
    refine existing_of_byId ?_
    rw [(reads_types htys st).byId]
    exact htys.lookup_eq_some.mpr ⟨he, hcovers.id⟩
  unfold schemaBytesUsed
  obtain hsame | ⟨cache, hbytes⟩ := @merge_ownedBytes flash st cfg s maxSchemaBytes
  · rw [hsame]
  · rw [hbytes, htypes, hendpoints]
    exact Nat.mod_le _ _

end EmbeddedSchema

/-- Over every sequence of accepted calls from the same compiled definitions, in which the types list
their destinations in ascending order, both registries hold and look up the same endpoints and types,
their merges report changes alike, and a fragment that is covered retains no more memory. -/
theorem registries_agree {flash : CompiledSchema} {reg : SchemaRegistry} (sizes : SchemaSizes) (cfg : EmbeddedSettings)
    (hbase : SameBase flash reg) (hflash : ∀ d ∈ flash.types, d.Tidy) (cs : List SchemaCall) (hcs : ∀ c ∈ cs, c.Tidy)
    {reg' : SchemaRegistry} {st' : EmbeddedSchema flash} {reports reports' : List SchemaMergeReport}
    (hhosted : acceptedCalls (SchemaRegistry.hostedCall sizes) reg cs = .ok (reg', reports))
    (hembedded : acceptedCalls (EmbeddedSchema.call cfg) (EmbeddedSchema.boot flash) cs = .ok (st', reports')) :
    SameSchema reg' st' ∧ reports.map SchemaMergeReport.changed = reports'.map SchemaMergeReport.changed ∧
      ∀ s maxSchemaBytes, st'.Covered s →
        (st'.mergeOwnedSchemaSnapshotWithBudget cfg s maxSchemaBytes).1.schemaBytesUsed ≤ st'.schemaBytesUsed := by
  have hends := hbase.distinctEndpoints
  have htys := hbase.distinctTypes
  obtain ⟨hagrees, hchanged⟩ := (Agrees.boot hbase hflash).calls hends htys hcs hhosted hembedded
  exact ⟨hagrees.sameSchema hends htys, hchanged, fun s maxSchemaBytes hs =>
    EmbeddedSchema.covered_merge hends htys hagrees hs maxSchemaBytes⟩

theorem sameBase_builtIn : SameBase .empty builtIn where
  hosted := protected_builtIn
  endpoints v := by
    rw [mem_map, mem_map]
    refine exists_congr fun e => and_congr_left fun _ => ?_
    change e ∈ endpointKind.sortById builtInEndpoints ↔ e ∈ builtInEndpoints ++ []
    rw [mem_sortById, append_nil]
  types v := by
    change v ∈ builtInTypes.map _ ↔ v ∈ (builtInTypes ++ []).map _
    rw [append_nil]

/-- A type with two destinations, in the order given. -/
def twoDestinations (endpoints : List DataEndpoint) (priority : UInt8) : OwnedDataTypeDefinition :=
  ⟨70000, "T", "", .static 1 .uint8 .data, endpoints, .none, priority, .preferOff⟩

/-- Node sizes of a 64-bit build. -/
def exampleSettings : EmbeddedSettings := ⟨⟨64, 80, 4⟩, 65536⟩

/-- A sequence that registers, learns a name for a placeholder, and merges a type twice. -/
def learningCalls : List SchemaCall :=
  [.ensureEndpointId .absent 70001 false,
    .registerEndpoint .absent ⟨70002, "E", "", false⟩,
    .mergeSnapshot ⟨[⟨70001, "F", "", true⟩], [twoDestinations [70001] 5]⟩ 65536,
    .dataTypeDefinition 3,
    .mergeSnapshot ⟨[], [twoDestinations [70001, 70002] 4]⟩ 65536,
    .registerDataType .absent (twoDestinations [70001, 70002] 5)]

theorem registries_agree_learning : ∃ reg' st' reports reports',
      acceptedCalls (SchemaRegistry.hostedCall exampleSettings.nodeSizes) .builtIn learningCalls = .ok (reg', reports) ∧
      acceptedCalls (EmbeddedSchema.call exampleSettings) (.boot .empty) learningCalls = .ok (st', reports') ∧
      SameSchema reg' st' ∧ reports.map SchemaMergeReport.changed = reports'.map SchemaMergeReport.changed ∧
      ∀ s maxSchemaBytes, st'.Covered s →
        (st'.mergeOwnedSchemaSnapshotWithBudget exampleSettings s maxSchemaBytes).1.schemaBytesUsed ≤
          st'.schemaBytesUsed := by
  obtain ⟨r, hr⟩ : ∃ r, acceptedCalls (hostedCall exampleSettings.nodeSizes) .builtIn learningCalls = .ok r :=
    exists_ok (by decide +kernel)
  obtain ⟨r', hr'⟩ : ∃ r', acceptedCalls (EmbeddedSchema.call exampleSettings) (.boot .empty) learningCalls = .ok r' :=
    exists_ok (by decide +kernel)
  have htidy : ∀ c ∈ learningCalls, c.Tidy := by
    intro c hc
    simp only [learningCalls, mem_cons, not_mem_nil, or_false] at hc
    obtain rfl | rfl | rfl | rfl | rfl | rfl := hc
    · trivial
    · trivial
    · exact forall_mem_singleton.mpr (by decide)
    · trivial
    · exact forall_mem_singleton.mpr (by decide)
    · exact (by decide : (twoDestinations [70001, 70002] 5).Tidy)
  exact ⟨r.1, r'.1, r.2, r'.2, hr, hr', registries_agree exampleSettings.nodeSizes exampleSettings sameBase_builtIn
    (forall_mem_nil _) learningCalls htidy hr hr'⟩

/-- A type whose destinations are not ascending, merged twice. -/
def repeatedCalls : List SchemaCall :=
  [.mergeSnapshot ⟨[], [twoDestinations [70002, 70001] 5]⟩ 65536,
    .mergeSnapshot ⟨[], [twoDestinations [70002, 70001] 5]⟩ 65536]

/-- Both registries accept the snapshot twice.  The second time the hosted one finds it unchanged, and the
embedded one sorts the destinations, reports a change and retains the type once more. -/
theorem repeated_snapshot_diverges : SameBase .empty SchemaRegistry.builtIn ∧
      (acceptedCalls (SchemaRegistry.hostedCall exampleSettings.nodeSizes) .builtIn repeatedCalls).toOption.map (fun r =>
        ((r.1.types.filter (·.id == 70000)).map (·.endpoints), r.2.map SchemaMergeReport.changed)) =
        some ([[70002, 70001]], [true, false]) ∧
      (acceptedCalls (EmbeddedSchema.call exampleSettings) (.boot .empty) (repeatedCalls.take 1)).toOption.map (fun r =>
        ((r.1.effectiveEmbeddedSchema.types.filter (·.id == 70000)).map (·.endpoints), r.1.schemaBytesUsed)) =
        some ([[70002, 70001]], 89) ∧
      (acceptedCalls (EmbeddedSchema.call exampleSettings) (.boot .empty) repeatedCalls).toOption.map (fun r =>
        ((r.1.effectiveEmbeddedSchema.types.filter (·.id == 70000)).map (·.endpoints), r.1.schemaBytesUsed,
          r.2.map SchemaMergeReport.changed)) = some ([[70001, 70002]], 178, [true, true]) :=
  ⟨sameBase_builtIn, by decide +kernel, by decide +kernel, by decide +kernel⟩

/-- A merge of a type with `count` elements. -/
def mergeLayout (count : UInt64) (priority : UInt8) : SchemaCall :=
  .mergeSnapshot ⟨[], [{ twoDestinations [70001] priority with element := .static count .uint8 .data }]⟩ 65536

/-- A layout that lost to another one wins again once that one has a higher priority.  It is pushed once
more, the first node equals it and is visible again: the embedded export lists the type twice. -/
theorem readopted_type_listed_twice : let cs := [mergeLayout 1 1, mergeLayout 2 1, mergeLayout 2 6, mergeLayout 1 1]
    (acceptedCalls (SchemaRegistry.hostedCall exampleSettings.nodeSizes) .builtIn cs).toOption.map
        (fun r => r.1.types.countP (·.id == 70000)) = some 1 ∧
      (acceptedCalls (EmbeddedSchema.call exampleSettings) (.boot .empty) cs).toOption.map
        (fun r => r.1.effectiveEmbeddedSchema.types.countP (·.id == 70000)) = some 2 := by
  decide +kernel

end SedsNet
