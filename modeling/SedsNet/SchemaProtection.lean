import SedsNet.SchemaConvergence
import SedsNet.SchemaLoading
import SedsNet.Runs

/-! # The registry stays in order and the protocol stays in it

Over every run of registrations, merges, loads and removals the endpoints and the types of the hosted
registry are sorted by their ids, no two of them have one id or one name, and the definitions of the
protocol are the ones the registry started with.  A load that fails leaves the registry as it was. -/

namespace SedsNet

open DefinitionKind Runs List

/-! ### Catalogs with fixed definitions -/

namespace DefinitionKind

variable {δ : Type} (kind : DefinitionKind δ)

/-- A catalog in the order of its ids, without repeated names, that has the `fixed` definitions. -/
structure Catalog (fixed defs : List δ) : Prop where
  sorted : kind.ById defs
  names : ∀ a ∈ defs, ∀ b ∈ defs, kind.name a = kind.name b → kind.id a = kind.id b
  fixed : ∀ d ∈ fixed, d ∈ defs

variable {kind} {fixed defs : List δ} {d : δ}

theorem Catalog.nodup_names (h : kind.Catalog fixed defs) : (defs.map kind.name).Nodup := by
  refine pairwise_map.mpr (h.sorted.imp_of_mem ?_)
  intro a b ha hb hlt hname
  rw [h.names a ha b hb hname] at hlt
  exact UInt32.lt_irrefl _ hlt

theorem Catalog.registered {defs' : List δ} (h : kind.Catalog fixed defs) (hr : kind.Registered defs d defs') :
    kind.Catalog fixed defs' := by
  obtain ⟨-, rfl⟩ | ⟨hid, hname, rfl⟩ := hr
  · exact h
  refine ⟨h.sorted.insert hid, ?_, fun e he => mem_sortById.mpr (mem_append_left _ (h.fixed e he))⟩
  intro a ha b hb hab
  rw [mem_sortById, mem_append, mem_singleton] at ha hb
  rcases ha with ha | rfl <;> rcases hb with hb | rfl
  · exact h.names a ha b hb hab
  · exact absurd hab (hname a ha)
  · exact absurd hab.symm (hname b hb)
  · rfl

theorem Catalog.filter (h : kind.Catalog fixed defs) {p : δ → Bool} (hp : ∀ d ∈ fixed, p d = true) :
    kind.Catalog fixed (defs.filter p) where
  sorted := h.sorted.filter p
  names a ha b hb := h.names a (mem_of_mem_filter ha) b (mem_of_mem_filter hb)
  fixed d hd := mem_filter.mpr ⟨h.fixed d hd, hp d hd⟩

/-- Catalogs with the same definitions are equal. -/
theorem ById.eq_of_mem {defs' : List δ} (h : kind.ById defs) (h' : kind.ById defs')
    (hmem : ∀ e, e ∈ defs ↔ e ∈ defs') : defs = defs' := by
  have hperm : defs.Perm defs' :=
    (perm_ext_iff_of_nodup h.nodup_ids.of_map h'.nodup_ids.of_map).mpr hmem
  refine hperm.eq_of_pairwise ?_ h h'
  intro a b _ _ hab hba
  exact absurd hab (UInt32.lt_asymm hba)

theorem settled_of_merge_eq {e : δ} (hmerge : kind.mergeMetadata e d = e) :
    kind.settled (some e) d = e := by
  unfold settled
  dsimp only
  rw [hmerge]
  simp

variable {V : Type}

/-- One merge, where a definition of the protocol is not replaced. -/
theorem Catalog.merge {view : δ → V} {join : Option V → δ → V} {ok : UInt32 → Option V → Prop}
    {S : δ → Prop} (hjoining : kind.Joining view join ok S) (h : kind.Catalog fixed defs) (hknown : kind.Known S defs)
    (hfixed : ∀ e ∈ fixed, ∀ d, kind.id e = kind.id d → kind.settled (some e) d = e) (hd : S d) :
    kind.Catalog fixed (kind.mergeDefinition defs d).1 := by
  have hspec := mergeDefinition_spec h.sorted (hjoining.fits hknown hd)
  -- a definition of the result is an old one under another id, or the one settled for this id
  have hcases : ∀ e ∈ (kind.mergeDefinition defs d).1, e ∈ defs ∧ kind.id e ≠ kind.id d ∨
      kind.id e = kind.id d ∧ (kind.name e = kind.name d ∨ ∃ e' ∈ defs, kind.id e' = kind.id d ∧
        kind.name e = kind.name e') := by
    intro e he
    have hfind := hspec.find (kind.id e)
    rw [hspec.sorted.find_of_mem he] at hfind
    split at hfind
    case isTrue hid =>
      cases hfind
      refine .inr ⟨hid, ?_⟩
      obtain hsame | ⟨e', he', hsame⟩ := hjoining.name_settled find_id
      · exact .inl hsame
      · exact .inr ⟨e', (mem_of_find he').1, (mem_of_find he').2, hsame⟩
    case isFalse hid => exact .inl ⟨(mem_of_find hfind.symm).1, hid⟩
  -- a name of the old catalog that the settled definition has is under this id
  have hmeets : ∀ a ∈ defs, ∀ b, (kind.name b = kind.name d ∨ ∃ e' ∈ defs, kind.id e' = kind.id d ∧
      kind.name b = kind.name e') → kind.name a = kind.name b → kind.id a = kind.id d := by
    rintro a ha b (hb | ⟨e', he', hid, hb⟩) hab
    · exact hknown a ha d hd (hab.trans hb)
    · exact (h.names a ha e' he' (hab.trans hb)).trans hid
  refine ⟨hspec.sorted, ?_, ?_⟩
  · intro a ha b hb hab
    rcases hcases a ha with ⟨ha, hane⟩ | ⟨haid, hacase⟩ <;> rcases hcases b hb with ⟨hb, hbne⟩ | ⟨hbid, hbcase⟩
    · exact h.names a ha b hb hab
    · exact absurd (hmeets a ha b hbcase hab) hane
    · exact absurd (hmeets b hb a hacase hab.symm) hbne
    · exact haid.trans hbid.symm
  · intro e he
    have hold := h.fixed e he
    have hfind := hspec.find (kind.id e)
    split at hfind
    case isTrue hid =>
      rw [← hid, h.sorted.find_of_mem hold, hfixed e he d hid] at hfind
      exact (mem_of_find hfind).1
    case isFalse hid =>
      rw [h.sorted.find_of_mem hold] at hfind
      exact (mem_of_find hfind).1

theorem Catalog.mergeAll {view : δ → V} {join : Option V → δ → V} {ok : UInt32 → Option V → Prop}
    {S : δ → Prop} (hjoining : kind.Joining view join ok S)
    (hfixed : ∀ e ∈ fixed, ∀ d, kind.id e = kind.id d → kind.settled (some e) d = e) {ds : List δ} :
    ∀ {defs}, (∀ d ∈ ds, S d) → kind.Catalog fixed defs → kind.Known S defs →
      kind.Catalog fixed (kind.mergeAll defs ds) := by
  induction ds with
  | nil =>
    intro defs _ h _
    exact h
  | cons d ds ih =>
    intro defs hds h hknown
    rw [forall_mem_cons] at hds
    exact ih hds.2 (h.merge hjoining hknown hfixed hds.1) (hjoining.known_merge h.sorted hknown hds.1)

end DefinitionKind

namespace SchemaRegistry

/-! ### Registering, merging and removing -/

/-- Both catalogs are in order and have the protocol's definitions. -/
structure Protected (reg : SchemaRegistry) : Prop where
  endpoints : endpointKind.Catalog builtInEndpoints reg.endpoints
  types : typeKind.Catalog builtInTypes reg.types

variable {reg reg' : SchemaRegistry}

theorem protected_builtIn : builtIn.Protected where
  endpoints :=
    { sorted := hosted_builtIn.endpoints
      names := by decide +kernel
      fixed := by decide +kernel }
  types :=
    { sorted := hosted_builtIn.types
      names := by decide +kernel
      fixed := by decide +kernel }

theorem Protected.registerEndpoint {d : OwnedEndpointDefinition} (h : reg.Protected)
    (hok : reg.registerOwnedEndpoint d = .ok reg') : reg'.Protected := by
  obtain ⟨defs, hr, rfl⟩ := registerOwnedEndpoint_ok hok
  exact ⟨h.endpoints.registered hr, h.types⟩

variable {d : OwnedDataTypeDefinition}

theorem Protected.registerType (h : reg.Protected) (hok : reg.registerOwnedType d = .ok reg') : reg'.Protected := by
  obtain ⟨defs, hr, rfl⟩ := registerOwnedType_ok hok
  exact ⟨h.endpoints, h.types.registered hr⟩

theorem internal_builtInEndpoints : ∀ e ∈ builtInEndpoints, isInternalEndpoint e.id = true := by decide +kernel

theorem internal_builtInTypes : ∀ e ∈ builtInTypes, isInternalDataType e.id = true := by decide +kernel

/-- Definitions of the protocol are not replaced by a merge. -/
theorem endpoint_settled_builtIn : ∀ e ∈ builtInEndpoints, ∀ d, e.id = d.id → endpointKind.settled (some e) d = e := by
  intro e he d _
  have hmerge : mergeEndpointMetadata e d = e := by
    unfold mergeEndpointMetadata
    rw [if_pos (internal_builtInEndpoints e he)]
  exact settled_of_merge_eq hmerge

theorem type_settled_builtIn : ∀ e ∈ builtInTypes, ∀ d, e.id = d.id → typeKind.settled (some e) d = e := by
  intro e he d hid
  have hmerge : mergeTypeMetadata e d = e :=
    mergeTypeMetadata_internal (by rw [← hid]; exact internal_builtInTypes e he) hid
  exact settled_of_merge_eq hmerge

variable {sizes : SchemaSizes} {s : OwnedRuntimeSchemaSnapshot} {maxSchemaBytes : ℕ}
  {report : SchemaMergeReport}

theorem family_of_valid (h : ValidSnapshot s) : Family [s] := by
  refine ⟨?_, ?_⟩
  · intro s' hs'
    rw [mem_singleton.mp hs']
    exact h
  · intro s₁ hs₁ s₂ hs₂ hne
    exact absurd ((mem_singleton.mp hs₁).trans (mem_singleton.mp hs₂).symm) hne

/-- A name that the registry and an accepted snapshot share has one id. -/
theorem known_of_accepted (hvalid : ValidSnapshot s) (hconflict : identityConflict reg (sortedSchema s) = false) :
    endpointKind.Known (Family.Endpoints [s]) reg.endpoints ∧ typeKind.Known (Family.Types [s]) reg.types := by
  obtain ⟨hends, htypes⟩ := identityConflict_eq_false.mp hconflict
  obtain ⟨hmemE, hmemT⟩ := hvalid.mem_sortedSchema
  constructor
  · rintro e he d ⟨s', hs', hd⟩ hname
    rw [mem_singleton.mp hs', ← hmemE] at hd
    exact (conflicts_eq_false.mp (hends d hd e he)).1 hname
  · rintro e he d ⟨s', hs', hd⟩ hname
    rw [mem_singleton.mp hs', ← hmemT] at hd
    exact (htypes d hd e he).mpr hname

theorem Protected.merge (h : reg.Protected)
    (hok : mergeOwnedSchemaSnapshotWithBudget sizes reg s maxSchemaBytes = .ok (reg', report)) : reg'.Protected := by
  obtain ⟨hvalid, hconflict, hmerged⟩ := merge_ok hok
  obtain rfl : (mergeOwnedSchemaSnapshotLocked reg (sortedSchema s)).1 = reg' := by rw [hmerged]
  obtain ⟨hknownE, hknownT⟩ := known_of_accepted hvalid hconflict
  rw [locked_fst]
  constructor
  · refine Catalog.mergeAll (family_of_valid hvalid).joinsEndpoints endpoint_settled_builtIn ?_ h.endpoints hknownE
    intro d hd
    exact ⟨s, mem_singleton_self s, (hvalid.mem_mergedLists.1 d).mp hd⟩
  · refine Catalog.mergeAll (family_of_valid hvalid).joinsTypes type_settled_builtIn ?_ h.types hknownT
    intro d hd
    exact ⟨s, mem_singleton_self s, (hvalid.mem_mergedLists.2 d).mp hd⟩

variable {r : SchemaRegistry × Bool}

theorem Protected.removeEndpoint {ep : DataEndpoint} (h : reg.Protected)
    (hok : reg.removeEndpoint ep = .ok r) : r.1.Protected := by
  unfold SchemaRegistry.removeEndpoint at hok
  split at hok
  case isTrue => cases hok
  case isFalse hint =>
    have hendpoints : ∀ d ∈ builtInEndpoints, decide (d.id ≠ ep) = true := by
      intro d hd
      rw [decide_eq_true_eq]
      rintro rfl
      exact hint (internal_builtInEndpoints d hd)
    have htypes : ∀ d ∈ builtInTypes, decide (ep ∉ d.endpoints) = true := by
      intro d hd
      rw [decide_eq_true_eq]
      intro hep
      have hall : ∀ d ∈ builtInTypes, d.endpoints.all isInternalEndpoint = true := by decide +kernel
      exact hint (all_eq_true.mp (hall d hd) ep hep)
    dsimp only at hok
    split at hok
    case isTrue =>
      cases hok
      exact ⟨h.endpoints.filter hendpoints, h.types⟩
    cases hok
    exact ⟨h.endpoints.filter hendpoints, h.types.filter htypes⟩

theorem Protected.removeDataType {ty : DataType} (h : reg.Protected)
    (hok : reg.removeDataType ty = .ok r) : r.1.Protected := by
  unfold SchemaRegistry.removeDataType at hok
  split at hok
  case isTrue => cases hok
  case isFalse hint =>
    cases hok
    refine ⟨h.endpoints, h.types.filter ?_⟩
    intro d hd
    rw [decide_eq_true_eq]
    rintro rfl
    exact hint (internal_builtInTypes d hd)

/-! ### Loading -/

open StreamingSchemaState

/-- What the loader has done to the registry so far: the definitions of the initial one are those that
it has not added. -/
structure Loading (initial : SchemaRegistry) (st : StreamingSchemaState) : Prop where
  safe : st.reg.Protected
  endpoints : ∀ e, e ∈ initial.endpoints ↔ e ∈ st.reg.endpoints ∧ e.id ∉ st.addedEndpoints
  types : ∀ e, e ∈ initial.types ↔ e ∈ st.reg.types ∧ e.id ∉ st.addedTypes

variable {initial : SchemaRegistry} {cfg : LoadSettings} {st st' : StreamingSchemaState}

theorem Loading.start (h : reg.Protected) : Loading reg (StreamingSchemaState.start reg) :=
  ⟨h, fun e => by simp [StreamingSchemaState.start], fun e => by simp [StreamingSchemaState.start]⟩

/-- Steps that leave the registry and the lists of what was added alone. -/
theorem Loading.congr (h : Loading initial st) (hreg : st'.reg = st.reg)
    (hends : st'.addedEndpoints = st.addedEndpoints) (htypes : st'.addedTypes = st.addedTypes) : Loading initial st' :=
  ⟨hreg ▸ h.safe, by rw [hreg, hends]; exact h.endpoints, by rw [hreg, htypes]; exact h.types⟩

/-- Membership in a list to which a definition is registered, and noted if it is new. -/
theorem mem_noted {δ : Type} {kind : DefinitionKind δ} {old defs defs' : List δ} {d : δ} {added : List UInt32}
    (h : ∀ e, e ∈ old ↔ e ∈ defs ∧ kind.id e ∉ added) (hr : kind.Registered defs d defs') (e : δ) :
    e ∈ old ↔ e ∈ defs' ∧ kind.id e ∉ if defs.any (kind.id · == kind.id d) then added else added ++ [kind.id d] := by
  obtain ⟨hmem, rfl⟩ | ⟨hid, -, rfl⟩ := hr
  · rw [if_pos (any_eq_true.mpr ⟨d, hmem, beq_self_eq_true (kind.id d)⟩)]
    exact h e
  have hnew : ¬ defs.any (kind.id · == kind.id d) = true := by simpa using hid
  rw [if_neg hnew, h, mem_sortById, mem_append, mem_append, mem_singleton, mem_singleton]
  constructor
  · rintro ⟨he, hadded⟩
    exact ⟨.inl he, not_or.mpr ⟨hadded, hid e he⟩⟩
  · rintro ⟨he | rfl, hadded⟩
    · exact ⟨he, fun hmem => hadded (.inl hmem)⟩
    · exact absurd (.inr rfl) hadded

theorem Loading.noteEndpoint {d : OwnedEndpointDefinition} (h : Loading initial st)
    (hok : st.reg.registerOwnedEndpoint d = .ok reg) :
    Loading initial (st.noteEndpoint reg d.id (st.reg.endpoints.any (·.id == d.id))) := by
  have hsafe := h.safe.registerEndpoint hok
  obtain ⟨defs, hr, rfl⟩ := registerOwnedEndpoint_ok hok
  exact ⟨hsafe, mem_noted h.endpoints hr, h.types⟩

theorem Loading.noteType (h : Loading initial st) (hok : st.reg.registerOwnedType d = .ok reg) :
    Loading initial (st.noteType reg d.id (st.reg.types.any (·.id == d.id))) := by
  have hsafe := h.safe.registerType hok
  obtain ⟨defs, hr, rfl⟩ := registerOwnedType_ok hok
  exact ⟨hsafe, h.endpoints, mem_noted h.types hr⟩

theorem addAliases_kept {id : DataEndpoint} {names : List String} : ∀ {st},
    (addAliases cfg id names st).1.reg = st.reg ∧ (addAliases cfg id names st).1.addedEndpoints = st.addedEndpoints ∧
      (addAliases cfg id names st).1.addedTypes = st.addedTypes := by
  induction names with
  | nil => exact ⟨rfl, rfl, rfl⟩
  | cons name names ih =>
    intro st
    unfold addAliases
    split_ifs
    · exact ⟨rfl, rfl, rfl⟩
    · exact ih
    · exact ⟨rfl, rfl, rfl⟩
    · exact ih

theorem Loading.addEndpoint {ep : JsonEndpoint} (h : Loading initial st) : Loading initial (st.addEndpoint cfg ep).1 := by
  unfold StreamingSchemaState.addEndpoint
  dsimp only
  split_ifs
  · exact h
  · exact h
  · exact h
  split
  next => exact h
  next reg hok =>
    have hnoted := h.noteEndpoint hok
    split
    next => exact hnoted.congr addAliases_kept.1 addAliases_kept.2.1 addAliases_kept.2.2
    next => exact hnoted

variable {ty : JsonType}

theorem declaredType_eq (cfg : LoadSettings) (h : st.declaredType ty = .ok d) :
    d.id = ty.id.getD (SchemaIdentity.typeId ty.name) ∧ cfg.sizes.typeSchemaByteCost d = entryCost cfg ty := by
  unfold declaredType at h
  split at h
  next => cases h
  split at h
  next =>
    cases h
    simp [SchemaSizes.typeSchemaByteCost, entryCost]
  next => cases h
  next => cases h

theorem Loading.addType (h : Loading initial st) : Loading initial (st.addType cfg ty).1 := by
  unfold StreamingSchemaState.addType registerSeen
  dsimp only
  have hseen : Loading initial (st.noteSeen (ty.id.getD (SchemaIdentity.typeId ty.name))) := h.congr rfl rfl rfl
  split_ifs
  · exact h
  · exact h
  · exact h
  · exact hseen
  split
  next => exact hseen
  next d hd =>
    rw [← (declaredType_eq cfg hd).1] at hseen ⊢
    split
    next => exact hseen
    next reg hok => exact hseen.noteType hok

theorem Loading.accept {item : JsonItem} (h : Loading initial st) : Loading initial (st.accept cfg item).1 := by
  cases item with
  | endpointsKey => exact h.congr rfl rfl rfl
  | endpoint ep => exact h.addEndpoint
  | typesKey =>
    unfold StreamingSchemaState.accept
    dsimp only
    split
    case isTrue => exact h.congr rfl rfl rfl
    case isFalse => exact h
  | type ty => exact h.addType

theorem Loading.acceptAll {items : List JsonItem} : ∀ {st}, Loading initial st →
    Loading initial (acceptAll cfg items st).1 := by
  induction items with
  | nil =>
    intro st h
    exact h
  | cons item items ih =>
    intro st h
    have haccept : Loading initial (st.accept cfg item).1 := h.accept
    unfold StreamingSchemaState.acceptAll
    generalize st.accept cfg item = answer at haccept ⊢
    obtain ⟨st', result⟩ := answer
    cases result with
    | ok u => exact ih haccept
    | error e => exact haccept

theorem Loading.rollback_eq (hinitial : initial.Protected) (h : Loading initial st) : st.rollback = initial := by
  have hends : st.rollback.endpoints = initial.endpoints := by
    have hsorted : endpointKind.ById st.rollback.endpoints := h.safe.endpoints.sorted.filter _
    refine hsorted.eq_of_mem hinitial.endpoints.sorted ?_
    intro e
    rw [h.endpoints e, StreamingSchemaState.rollback, mem_filter, decide_eq_true_eq]
  have htypes : st.rollback.types = initial.types := by
    have hsorted : typeKind.ById st.rollback.types := h.safe.types.sorted.filter _
    refine hsorted.eq_of_mem hinitial.types.sorted ?_
    intro e
    rw [h.types e, StreamingSchemaState.rollback, mem_filter, decide_eq_true_eq]
  calc st.rollback = ⟨st.rollback.endpoints, st.rollback.types⟩ := rfl
    _ = initial := by rw [hends, htypes]

/-! ### The budget of a load -/

/-- `schema_byte_cost` is within the budget. -/
def WithinBudget (cfg : LoadSettings) (reg : SchemaRegistry) : Prop :=
  cfg.sizes.schemaByteCost reg.endpoints reg.types ≤ cfg.maxSchemaBytes

theorem within_of_fits {n : ℕ} (h : st.fits cfg n = true) : WithinBudget cfg st.reg := by
  unfold fits at h
  rw [decide_eq_true_eq] at h
  unfold WithinBudget
  have hle := satAdd_le ((st.reg.endpoints.map cfg.sizes.endpointSchemaByteCost).sum % 2 ^ 64)
    ((st.reg.types.map cfg.sizes.typeSchemaByteCost).sum % 2 ^ 64)
  change cfg.sizes.schemaByteCost _ _ ≤ _ at hle
  unfold satAdd at h
  omega

/-- A type for which there was room. -/
theorem within_of_type (h : st.fits cfg (cfg.sizes.typeSchemaByteCost d) = true) :
    WithinBudget cfg { st.reg with types := typeKind.sortById (st.reg.types ++ [d]) } := by
  have hsum : ((typeKind.sortById (st.reg.types ++ [d])).map cfg.sizes.typeSchemaByteCost).sum =
      (st.reg.types.map cfg.sizes.typeSchemaByteCost).sum + cfg.sizes.typeSchemaByteCost d := by
    have hperm : (typeKind.sortById (st.reg.types ++ [d])).Perm (st.reg.types ++ [d]) := perm_insertionSort _ _
    rw [(hperm.map _).sum_eq]
    simp
  unfold fits SchemaSizes.schemaByteCost at h
  rw [decide_eq_true_eq] at h
  unfold WithinBudget SchemaSizes.schemaByteCost
  dsimp only
  unfold satAdd usizeMax at *
  omega

/-- A name that is new is only taken beside the registry when there is room for both. -/
theorem addAliases_fits {id : DataEndpoint} {name : String} {names : List String}
    (hnew : ¬ st.aliases.any (fun known => known.1 == name) = true)
    (hok : (addAliases cfg id (name :: names) st).2 = .ok ()) : WithinBudget cfg st.reg := by
  unfold addAliases at hok
  split_ifs at hok with _ hroom
  exact within_of_fits (by simpa using hroom)

theorem addEndpoint_within {ep : JsonEndpoint} (hok : (st.addEndpoint cfg ep).2 = .ok ()) :
    WithinBudget cfg (st.addEndpoint cfg ep).1.reg := by
  unfold StreamingSchemaState.addEndpoint at hok ⊢
  dsimp only at hok ⊢
  split_ifs at hok ⊢ with hknown
  split at hok
  next => cases hok
  next reg hreg =>
    split at hok
    next known hfind =>
      rw [addAliases_kept.1]
      refine addAliases_fits (fun hany => hknown ?_) hok
      simp only [any_eq_true, Bool.or_eq_true] at hany ⊢
      obtain ⟨known, hmem, hname⟩ := hany
      exact ⟨known, hmem, .inl hname⟩
    next => cases hok

theorem addType_within (hok : (st.addType cfg ty).2 = .ok ()) : WithinBudget cfg (st.addType cfg ty).1.reg := by
  unfold StreamingSchemaState.addType registerSeen at hok ⊢
  dsimp only at hok ⊢
  split_ifs at hok ⊢ with _ _ hseen hroom
  split at hok
  next => cases hok
  next d hd =>
    obtain ⟨hid, hcost⟩ := declaredType_eq cfg hd
    split at hok
    next => cases hok
    next reg hreg =>
      obtain ⟨_, ⟨-, rfl⟩ | ⟨hfresh, -, rfl⟩, rfl⟩ := registerOwnedType_ok hreg
      · have hwithin : WithinBudget cfg st.reg := within_of_fits (by simpa using hseen)
        exact hwithin
      · have hnew : (st.noteSeen (ty.id.getD (SchemaIdentity.typeId ty.name))).reg.types.any
            (·.id == ty.id.getD (SchemaIdentity.typeId ty.name)) = false :=
          any_eq_false.mpr fun e he => by simpa [← hid, typeKind] using hfresh e he
        rw [hnew, ← hcost] at hroom
        exact within_of_type (by simpa using hroom)

theorem accept_within {item : JsonItem} (hok : (st.accept cfg item).2 = .ok ())
    (h : item.isEntry = true ∨ WithinBudget cfg st.reg) : WithinBudget cfg (st.accept cfg item).1.reg := by
  cases item with
  | endpoint ep => exact addEndpoint_within hok
  | type ty => exact addType_within hok
  | endpointsKey => exact h.resolve_left Bool.false_ne_true
  | typesKey =>
    have hreg := h.resolve_left Bool.false_ne_true
    unfold StreamingSchemaState.accept
    dsimp only
    split
    · exact hreg
    · exact hreg

theorem acceptAll_within (cfg : LoadSettings) (items : List JsonItem) : ∀ st,
    (acceptAll cfg items st).2 = .ok () → (∃ item ∈ items, item.isEntry = true) ∨ WithinBudget cfg st.reg →
    WithinBudget cfg (acceptAll cfg items st).1.reg := by
  induction items with
  | nil => exact fun _ _ h => h.resolve_left (by simp)
  | cons item items ih =>
    intro st hok h
    have haccept : (st.accept cfg item).2 = .ok () → item.isEntry = true ∨ WithinBudget cfg st.reg →
        WithinBudget cfg (st.accept cfg item).1.reg := accept_within
    unfold StreamingSchemaState.acceptAll at hok ⊢
    generalize st.accept cfg item = answer at haccept hok ⊢
    obtain ⟨st', result⟩ := answer
    cases result with
    | error e => cases hok
    | ok u =>
      refine ih st' hok ?_
      obtain ⟨it, hit, hentry⟩ | hreg := h
      · obtain rfl | hit := mem_cons.mp hit
        · exact .inr (haccept rfl (.inl hentry))
        · exact .inl ⟨it, hit, hentry⟩
      · exact .inr (haccept rfl (.inr hreg))

/-! ### Runs -/

theorem Protected.orUnchanged {α : Type} {view : α → SchemaRegistry} {result : TelemetryResult α} (h : reg.Protected)
    (hok : ∀ a, result = .ok a → (view a).Protected) : (reg.orUnchanged view result).Protected := by
  cases result with
  | ok a => exact hok a rfl
  | error e => exact h

/-- A load that fails leaves everything as it was; one that succeeds keeps the registry in order, and
within the budget if there was an entry. -/
theorem registerSchemaJsonReaderInto_spec (h : reg.Protected) (next : NextIds) (items : List JsonItem) (complete : Bool)
    {out : (SchemaRegistry × NextIds) × TelemetryResult Unit}
    (hout : reg.registerSchemaJsonReaderInto cfg next items complete = out) :
    out.1.1.Protected ∧ (∀ e, out.2 = .error e → out.1 = (reg, next)) ∧
      (out.2 = .ok () → (∃ item ∈ items, item.isEntry = true) → WithinBudget cfg out.1.1) := by
  subst hout
  unfold registerSchemaJsonReaderInto
  have hloading : Loading reg (acceptAll cfg items (StreamingSchemaState.start reg)).1 :=
    (Loading.start h).acceptAll
  have hwithin := acceptAll_within cfg items (StreamingSchemaState.start reg)
  generalize acceptAll cfg items (StreamingSchemaState.start reg) = answer at hloading hwithin ⊢
  obtain ⟨st, result⟩ := answer
  have hback : st.rollback = reg := hloading.rollback_eq h
  cases result with
  | error e =>
    dsimp only
    rw [hback]
    exact ⟨h, fun _ _ => rfl, nofun⟩
  | ok u =>
    dsimp only
    split
    · exact ⟨hloading.safe, nofun, fun _ hentry => hwithin rfl (.inl hentry)⟩
    · rw [hback]
      exact ⟨h, fun _ _ => rfl, nofun⟩

theorem Protected.registerSchemaJson (h : reg.Protected) (document : JsonDocument) :
    (reg.registerSchemaJson cfg document).1.Protected := by
  unfold SchemaRegistry.registerSchemaJson
  split
  · exact h
  rw [← registerSchemaJsonReaderInto_eq cfg reg ⟨0, 0⟩]
  exact (registerSchemaJsonReaderInto_spec h _ _ _ rfl).1

theorem Protected.call (sizes : SchemaSizes) (h : reg.Protected) (c : RegistryCall) : (reg.call sizes c).Protected := by
  cases c with
  | registerEndpoint d => exact h.orUnchanged fun reg' hok => h.registerEndpoint hok
  | registerType d => exact h.orUnchanged fun reg' hok => h.registerType hok
  | mergeSnapshot s maxSchemaBytes => exact h.orUnchanged fun r hok => h.merge hok
  | loadJson document linkLocalOverlay maxSchemaBytes => exact h.registerSchemaJson document
  | removeEndpoint ep => exact h.orUnchanged fun r hok => h.removeEndpoint hok
  | removeEndpointByName name =>
    refine h.orUnchanged ?_
    intro r hok
    unfold SchemaRegistry.removeEndpointByName at hok
    split at hok
    next => exact h.removeEndpoint hok
    cases hok
    exact h
  | removeDataType ty => exact h.orUnchanged fun r hok => h.removeDataType hok
  | removeDataTypeByName name =>
    refine h.orUnchanged ?_
    intro r hok
    unfold SchemaRegistry.removeDataTypeByName at hok
    split at hok
    next => exact h.removeDataType hok
    cases hok
    exact h

theorem protected_run (sizes : SchemaSizes) (cs : List RegistryCall) : (run (call sizes) builtIn cs).Protected :=
  run_always (fun _ c hreg => hreg.call sizes c) protected_builtIn cs

/-- After every run of calls on a new registry the endpoints and the types are strictly ascending in
their ids and pairwise distinct in their names, and each definition of the protocol is still there as
it was registered. -/
theorem registry_protection (sizes : SchemaSizes) (cs : List RegistryCall) : ∃ reg, new = .ok reg ∧
      (run (call sizes) reg cs).endpoints.Pairwise (fun a b => a.id < b.id) ∧
      (run (call sizes) reg cs).types.Pairwise (fun a b => a.id < b.id) ∧
      ((run (call sizes) reg cs).endpoints.map OwnedEndpointDefinition.name).Nodup ∧
      ((run (call sizes) reg cs).types.map OwnedDataTypeDefinition.name).Nodup ∧
      (∀ d ∈ builtInEndpoints, d ∈ (run (call sizes) reg cs).endpoints) ∧
      ∀ d ∈ builtInTypes, d ∈ (run (call sizes) reg cs).types := by
  have h := protected_run sizes cs
  exact ⟨builtIn, new_eq, h.endpoints.sorted, h.types.sorted, h.endpoints.nodup_names, h.types.nodup_names,
    h.endpoints.fixed, h.types.fixed⟩

/-- **A load is all or nothing**: from every registry that calls have led to, a failed load changes
neither the definitions nor the next free ids, and after a load with an entry the registry is within
the budget. -/
theorem load_all_or_nothing (cfg : LoadSettings) (cs : List RegistryCall) (next : NextIds) (items : List JsonItem)
    (complete : Bool) : ∃ reg after result, new = .ok reg ∧
      (run (call cfg.sizes) reg cs).registerSchemaJsonReaderInto cfg next items complete = (after, result) ∧
      (∀ e, result = .error e → after = (run (call cfg.sizes) reg cs, next)) ∧
      (result = .ok () → (∃ item ∈ items, item.isEntry = true) → WithinBudget cfg after.1) := by
  have h := protected_run cfg.sizes cs
  exact ⟨builtIn, _, _, new_eq, rfl, (registerSchemaJsonReaderInto_spec h next items complete rfl).2⟩

end SchemaRegistry

end SedsNet
