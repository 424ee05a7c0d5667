import SedsNet.EmbeddedOverlay

/-! # Merge rules and reports of both registries

Descriptions decide no merge, and a type whose destinations are sorted is not changed by its own
definition (`endpointRule`, `typeRule`).  The report of a hosted merge counts as a change if a
definition is not absorbed (`Joining.decisions_changes`).  The calls of the embedded registry are
inverted to what they push (`merge_accepted`, `registerEndpoint_accepted`). -/

namespace SedsNet

open DefinitionKind

/-! ### Endpoints and types without their descriptions -/

def OwnedEndpointDefinition.undescribed (d : OwnedEndpointDefinition) : OwnedEndpointDefinition :=
  { d with description := "" }

def OwnedDataTypeDefinition.undescribed (d : OwnedDataTypeDefinition) : OwnedDataTypeDefinition :=
  { d with description := "" }

/-- The destinations are listed in ascending order and without repeats. -/
def OwnedDataTypeDefinition.Tidy (d : OwnedDataTypeDefinition) : Prop := d.endpoints.Pairwise (· < ·)

instance (d : OwnedDataTypeDefinition) : Decidable d.Tidy := inferInstanceAs (Decidable (d.endpoints.Pairwise (· < ·)))

theorem descriptionsAgree_self (s : String) : descriptionsAgree s s = true := by
  simp [descriptionsAgree]

/-- A merge that keeps one of the two definitions, the new one only if it differs, or joins them. -/
theorem DefinitionKind.MergeRule.of_results {δ : Type} {kind : DefinitionKind δ} {core : δ → δ} {tidy : δ → Prop}
    {agree : δ → δ → Prop} {differ : δ → δ → Prop} {join : δ → δ → δ}
    (hresult : ∀ e d, kind.mergeMetadata e d = e ∨ kind.mergeMetadata e d = d ∧ differ e d ∨
      kind.mergeMetadata e d = join e d)
    (hequivalent : ∀ a b, kind.equivalent a b = true ↔ core a = core b ∧ agree a b)
    (hid : ∀ d, kind.id (core d) = kind.id d) (hname : ∀ d, kind.name (core d) = kind.name d)
    (hjoin : ∀ e d, kind.id (join e d) = kind.id e ∧ kind.name (join e d) = kind.name e ∧ agree e (join e d))
    (hagree : ∀ e, agree e e) (hdiffer : ∀ e d, differ e d → core d ≠ core e)
    (hcore : ∀ e e' d, core e = core e' → core (kind.mergeMetadata e d) = core (kind.mergeMetadata e' d))
    (hrepeated : ∀ e d, tidy e → core e = core d → core (join e d) = core e)
    (htidy : ∀ a b, core a = core b → tidy a → tidy b) (hjoined : ∀ e d, tidy (join e d)) :
    kind.MergeRule core tidy where
  id_core := hid
  name_core := hname
  tidy_core {a b} := htidy a b
  id_merge {e d} hsame := by
    obtain h | ⟨h, -⟩ | h := hresult e d
    · rw [h, hsame]
    · rw [h]
    · rw [h, (hjoin e d).1, hsame]
  name_merge e d := by
    obtain h | ⟨h, -⟩ | h := hresult e d
    · exact .inr (by rw [h])
    · exact .inl (by rw [h])
    · exact .inr (by rw [h, (hjoin e d).2.1])
  core_merge {e e'} d := hcore e e' d
  kept_iff {e d} := by
    rw [hequivalent, eq_comm]
    refine and_iff_left_of_imp fun hkept => ?_
    obtain h | ⟨h, hne⟩ | h := hresult e d
    · rw [h]
      exact hagree e
    · rw [h] at hkept
      exact absurd hkept (hdiffer e d hne)
    · rw [h]
      exact (hjoin e d).2.2
  repeated {e d} he heq := by
    have hsame := ((hequivalent e d).mp heq).1
    obtain h | ⟨h, -⟩ | h := hresult e d
    · rw [h]
    · rw [h, hsame]
    · rw [h, hrepeated e d he hsame]
  tidy_merge {e d} he hd := by
    obtain h | ⟨h, -⟩ | h := hresult e d
    · rw [h]
      exact he
    · rw [h]
      exact hd
    · rw [h]
      exact hjoined e d

theorem mergeEndpointMetadata_result (e d : OwnedEndpointDefinition) :
    mergeEndpointMetadata e d = e ∨
      mergeEndpointMetadata e d = d ∧ (e.id ≠ d.id ∨ e.name ≠ d.name) ∨
      mergeEndpointMetadata e d = { e with linkLocalOnly := e.linkLocalOnly || d.linkLocalOnly } := by
  unfold mergeEndpointMetadata
  split
  case isTrue => exact .inl rfl
  split
  case isTrue h => exact .inr (.inl ⟨rfl, .inr h.2.1⟩)
  split
  case isTrue => exact .inl rfl
  split
  case isTrue h =>
    unfold endpointWinner
    split
    case isTrue => exact .inl rfl
    case isFalse => exact .inr (.inl ⟨rfl, h⟩)
  case isFalse => exact .inr (.inr rfl)

theorem endpointDefEquivalent_iff {a b : OwnedEndpointDefinition} : endpointDefEquivalent a b = true ↔
      a.undescribed = b.undescribed ∧ descriptionsAgree a.description b.description = true := by
  simp only [endpointDefEquivalent, OwnedEndpointDefinition.undescribed, Bool.and_eq_true, beq_iff_eq,
    OwnedEndpointDefinition.mk.injEq, true_and]
  tauto

theorem endpointRule : endpointKind.MergeRule OwnedEndpointDefinition.undescribed fun _ => True := by
  refine .of_results mergeEndpointMetadata_result (fun _ _ => endpointDefEquivalent_iff) (fun _ => rfl) (fun _ => rfl)
    (fun _ _ => ⟨rfl, rfl, descriptionsAgree_self _⟩) (fun _ => descriptionsAgree_self _) ?_ ?_ ?_ (fun _ _ _ => id)
    fun _ _ => trivial
  · rintro e d (hne | hne) hcore
    · exact hne (congrArg OwnedEndpointDefinition.id hcore).symm
    · exact hne (congrArg OwnedEndpointDefinition.name hcore).symm
  · rintro ⟨i, n, s, l⟩ ⟨i', n', s', l'⟩ d h
    cases h
    change (mergeEndpointMetadata _ d).undescribed = (mergeEndpointMetadata _ d).undescribed
    simp only [mergeEndpointMetadata, endpointWinner, apply_ite OwnedEndpointDefinition.undescribed]
    rfl
  · intro e d _ hcore
    injection hcore with _ _ _ hlocal
    simp [OwnedEndpointDefinition.undescribed, hlocal]

theorem mergeTypeMetadata_result (e d : OwnedDataTypeDefinition) :
    mergeTypeMetadata e d = e ∨
      mergeTypeMetadata e d = d ∧ (e.id ≠ d.id ∨ e.name ≠ d.name ∨ e.element ≠ d.element ∨
        e.reliable ≠ d.reliable ∨ e.e2eEncryption ≠ d.e2eEncryption) ∨
      mergeTypeMetadata e d = { e with
        endpoints := unionEndpoints e.endpoints d.endpoints
        priority := max e.priority d.priority } := by
  unfold mergeTypeMetadata
  split
  case isTrue => exact .inl rfl
  split
  case isTrue h =>
    unfold typeWinner
    split
    case isTrue => exact .inl rfl
    case isFalse => exact .inr (.inl ⟨rfl, h⟩)
  case isFalse => exact .inr (.inr rfl)

theorem typeDefEquivalent_iff {a b : OwnedDataTypeDefinition} : typeDefEquivalent a b = true ↔
      a.undescribed = b.undescribed ∧ descriptionsAgree a.description b.description = true := by
  simp only [typeDefEquivalent, OwnedDataTypeDefinition.undescribed, Bool.and_eq_true, beq_iff_eq,
    OwnedDataTypeDefinition.mk.injEq, true_and]
  tauto

theorem typeRule : typeKind.MergeRule OwnedDataTypeDefinition.undescribed OwnedDataTypeDefinition.Tidy := by
  refine .of_results mergeTypeMetadata_result (fun _ _ => typeDefEquivalent_iff) (fun _ => rfl) (fun _ => rfl)
    (fun _ _ => ⟨rfl, rfl, descriptionsAgree_self _⟩) (fun _ => descriptionsAgree_self _) ?_ ?_ ?_ ?_
    fun _ _ => unionEndpoints_strict _ _
  · intro e d hne hcore
    injection hcore with hid hname _ helement _ hreliable _ he2e
    obtain hne | hne | hne | hne | hne := hne
    · exact hne hid.symm
    · exact hne hname.symm
    · exact hne helement.symm
    · exact hne hreliable.symm
    · exact hne he2e.symm
  · rintro ⟨i, n, s, el, eps, r, pr, pol⟩ ⟨i', n', s', el', eps', r', pr', pol'⟩ d h
    cases h
    change (mergeTypeMetadata _ d).undescribed = (mergeTypeMetadata _ d).undescribed
    simp only [mergeTypeMetadata, typeWinner, apply_ite OwnedDataTypeDefinition.undescribed]
    rfl
  · intro e d htidy hcore
    injection hcore with _ _ _ _ hends _ hpriority _
    have hunion : unionEndpoints e.endpoints d.endpoints = e.endpoints := by
      rw [← hends]
      exact unionEndpoints_of_subset htidy (List.Subset.refl _)
    have hmax : max e.priority d.priority = e.priority := by
      rw [← hpriority]
      exact if_pos (UInt8.le_refl _)
    simp [OwnedDataTypeDefinition.undescribed, hunion, hmax]
  · intro a b h ha
    injection h with _ _ _ _ hends
    unfold OwnedDataTypeDefinition.Tidy
    rw [← hends]
    exact ha

/-! ### The reports of hosted merges -/

namespace DefinitionKind

variable {δ : Type} {kind : DefinitionKind δ}

theorem mergeDefinition_changes {defs : List δ} {d : δ} (hsorted : kind.ById defs) (hfits : kind.Fits defs d) :
    (kind.mergeDefinition defs d).2.changes = true ↔ ¬ kind.Absorbed (kind.find defs (kind.id d)) d := by
  unfold mergeDefinition
  cases hfind : kind.find defs (kind.id d) with
  | none =>
    rw [conflict_of_find_none hfits hfind]
    refine iff_of_true rfl ?_
    rintro ⟨e, he, -⟩
    cases he
  | some e =>
    obtain ⟨idx, hidx, hget⟩ := conflict_of_find_some hsorted hfits hfind
    simp only [hidx, hget]
    split
    case isTrue heq => exact iff_of_false Bool.false_ne_true (not_not.mpr ⟨e, rfl, .inl heq⟩)
    case isFalse heq =>
      split
      case isTrue hmerged =>
        refine iff_of_true rfl ?_
        rintro ⟨e', he', heq' | hkept⟩
        · cases he'
          exact heq heq'
        · cases he'
          rw [hkept] at hmerged
          cases hmerged
      case isFalse hmerged =>
        rw [Bool.not_eq_true', Bool.not_eq_false] at hmerged
        exact iff_of_false Bool.false_ne_true (not_not.mpr ⟨e, rfl, .inr hmerged⟩)

variable {V : Type} {view : δ → V} {join : Option V → δ → V} {ok : UInt32 → Option V → Prop} {S : δ → Prop}
  {ds defs : List δ}

/-- A list of definitions is a change if one of them is not absorbed. -/
theorem Joining.decisions_changes (h : kind.Joining view join ok S) (hds : ∀ d ∈ ds, S d) (hids : kind.ById ds)
    (hsorted : kind.ById defs) (hknown : kind.Known S defs) :
    (kind.decisions defs ds).any SchemaMergeDecision.changes = true ↔
      ∃ d ∈ ds, ¬ kind.Absorbed (kind.find defs (kind.id d)) d := by
  induction ds generalizing defs with
  | nil => simp [decisions]
  | cons d ds ih =>
    rw [List.forall_mem_cons] at hds
    obtain ⟨hhead, htail⟩ := List.pairwise_cons.mp hids
    have hfits := h.fits hknown hds.1
    have hspec := mergeDefinition_spec hsorted hfits
    rw [decisions, List.any_cons, Bool.or_eq_true, mergeDefinition_changes hsorted hfits,
      ih hds.2 htail hspec.sorted (h.known_merge hsorted hknown hds.1), List.exists_mem_cons_iff]
    refine or_congr_right (exists_congr fun d' => and_congr_right fun hd' => ?_)
    rw [h.find_others hds.1 hsorted hknown (hhead d' hd')]

/-- One list of a snapshot that both registries accept: they stay alike, and both take it to be a change or
neither does. -/
theorem Joining.merge_both [DecidableEq δ] (h : kind.Joining view join ok S) {core : δ → δ} {tidy : δ → Prop}
    (rule : kind.MergeRule core tidy) {base log : List δ} (hbase : kind.Distinct base)
    (hmirrors : kind.Mirrors core defs base log) (hsorted : kind.ById defs) (htidy : ∀ e ∈ defs, tidy e)
    (hknown : kind.Known S defs) (hds : ∀ d ∈ ds, S d)
    (hsame : ∀ a ∈ ds, ∀ b ∈ ds, kind.id a = kind.id b ∨ kind.name a = kind.name b → a = b) {listed : List δ}
    (hlisted : ∀ d, d ∈ listed ↔ d ∈ ds) (hids : kind.ById listed) {σ : Type} {look : Lookups σ δ}
    (hreads : kind.Reads look base log) {cost : δ → ℕ} {bytes : ℕ} {s : σ} {p : MergePlan δ}
    (hp : p = (look.plan kind cost ds ⟨[], 0, 0, bytes⟩ s).1) :
    kind.Mirrors core (kind.mergeAll defs listed) base (p.pending.foldl (fun log d => d :: log) log) ∧
    ((∀ d ∈ ds, tidy d) → ∀ x ∈ kind.mergeAll defs listed, tidy x) ∧
    ((kind.decisions defs listed).any SchemaMergeDecision.changes = true ↔ p.added + p.replaced ≠ 0) := by
  have hS : ∀ d ∈ listed, S d := fun d hd => hds d ((hlisted d).mp hd)
  have hdefs := fun x => h.mem_mergeAll hS hids hsorted hknown (x := x)
  simp only [hlisted] at hdefs
  have hapart := hmirrors.apart rule hknown hds hsame
  have hplan := planned rule hbase hreads hapart cost ⟨[], 0, 0, bytes⟩ s
  rw [← hp] at hplan
  refine ⟨hmirrors.merge rule hbase hsorted htidy hapart hplan hdefs, ?_, ?_⟩
  · intro hnew x hx
    obtain ⟨d, hd, -, rfl⟩ | ⟨-, hx⟩ := (hdefs x).mp hx
    · exact rule.tidy_settled (fun e he => htidy e (mem_of_find he).1) (hnew d hd)
    · exact htidy x hx
  · rw [h.decisions_changes hS hids hsorted hknown, hmirrors.changed_iff rule hbase hsorted htidy hplan]
    simp only [hlisted]

end DefinitionKind

theorem byId_mergedLists (s : OwnedRuntimeSchemaSnapshot) :
    endpointKind.ById (mergedLists s).endpoints ∧ typeKind.ById (mergedLists s).types :=
  ⟨dedupByKey_strict OwnedEndpointDefinition.id
      (List.pairwise_insertionSort (fun a b => endpointKind.id a ≤ endpointKind.id b) _),
    dedupByKey_strict OwnedDataTypeDefinition.id
      (List.pairwise_insertionSort (fun a b => typeKind.id a ≤ typeKind.id b) _)⟩

/-! ### The embedded registry -/

namespace EmbeddedSchema

variable {flash : CompiledSchema} {st st' : EmbeddedSchema flash} {cfg : EmbeddedSettings}
  {probe : AdmissionProbe}

theorem endpointDefinition_eq (st : EmbeddedSchema flash) (id : DataEndpoint) :
    st.endpointDefinition id = endpointKind.lookup flash.embeddedStaticEndpoints st.endpoints id := by
  rw [endpointDefinition, compiledEndpointDefinition, flash.searchEndpoint_eq]
  rfl

/-- The cache does not show in what a lookup finds. -/
theorem dataTypeDefinition_fst (st : EmbeddedSchema flash) (id : DataType) (cache : TypeCache flash) :
    (st.dataTypeDefinition id cache).1 = typeKind.lookup flash.embeddedStaticDataTypes st.types id := by
  rw [dataTypeDefinition, embeddedOverlayType, lookup]
  cases typeKind.overlayById st.types id with
  | some d => rfl
  | none =>
    rw [← flash.searchType_eq, ← cache.find_fst]
    rfl

theorem named_mem {δ : Type} [DecidableEq δ] {kind : DefinitionKind δ} {base log : List δ} (hbase : kind.Distinct base)
    {name : String} {id : UInt32} {e : δ} (hname : kind.tryNamed base log name = some id)
    (h : kind.lookup base log id = some e) : e ∈ kind.inForce base log ∧ kind.name e = name := by
  obtain ⟨e', he', hname', hid'⟩ := tryNamed_eq_some hname
  obtain ⟨he, hid⟩ := lookup_mem h
  refine ⟨he, ?_⟩
  rw [hbase.inForce he he' (.inl (hid.trans hid'.symm))]
  exact hname'

theorem reads_endpoints (hbase : endpointKind.Distinct flash.embeddedStaticEndpoints) (st : EmbeddedSchema flash) :
    endpointKind.Reads st.endpointLookups flash.embeddedStaticEndpoints st.endpoints where
  byId id _ := st.endpointDefinition_eq id
  byName name _ e h := by
    obtain ⟨id, hid, hfound⟩ := Option.bind_eq_some_iff.mp h
    rw [st.endpointDefinition_eq] at hfound
    exact named_mem hbase hid hfound

theorem reads_types (hbase : typeKind.Distinct flash.embeddedStaticDataTypes) (st : EmbeddedSchema flash) :
    typeKind.Reads st.typeLookups flash.embeddedStaticDataTypes st.types where
  byId id cache := st.dataTypeDefinition_fst id cache
  byName name cache e h := by
    change (st.dataTypeDefinitionByName name cache).1 = some e at h
    unfold dataTypeDefinitionByName at h
    split at h
    next id hid =>
      rw [st.dataTypeDefinition_fst] at h
      exact named_mem hbase hid h
    next => cases h

theorem publish_eq (st : EmbeddedSchema flash) (endpoints : List OwnedEndpointDefinition)
    (types : List OwnedDataTypeDefinition) :
    st.publish endpoints types =
      { st with
        endpoints := endpoints.foldl (fun log d => d :: log) st.endpoints
        types := types.foldl (fun log d => d :: log) st.types } := by
  have hendpoints : ∀ (ds : List OwnedEndpointDefinition) (st : EmbeddedSchema flash),
      ds.foldl pushEmbeddedEndpoint st = { st with endpoints := ds.foldl (fun log d => d :: log) st.endpoints } := by
    intro ds
    induction ds with
    | nil => exact fun st => rfl
    | cons d ds ih => exact fun st => ih _
  have htypes : ∀ (ds : List OwnedDataTypeDefinition) (st : EmbeddedSchema flash),
      ds.foldl pushEmbeddedType st = { st with types := ds.foldl (fun log d => d :: log) st.types } := by
    intro ds
    induction ds with
    | nil => exact fun st => rfl
    | cons d ds ih => exact fun st => ih _
  rw [publish, hendpoints, htypes]

/-- What an accepted embedded merge planned, and what it published. -/
theorem merge_accepted {s : OwnedRuntimeSchemaSnapshot} {maxSchemaBytes : ℕ} {report : SchemaMergeReport}
    (h : st.mergeOwnedSchemaSnapshotWithBudget cfg s maxSchemaBytes = (st', .ok report)) :
    ∃ cache, ∃ es, es = st.endpointPlan cfg s.endpoints ∧ ∃ ts, ts = (st.typePlan cfg es.bytes s.types cache).1 ∧
      st'.endpoints = es.pending.foldl (fun log d => d :: log) st.endpoints ∧
      st'.types = ts.pending.foldl (fun log d => d :: log) st.types ∧
      report = ⟨es.added, es.replaced, 0, ts.added, ts.replaced, 0⟩ ∧
      st'.ownedBytes = wrapAdd st.ownedBytes ts.bytes := by
  unfold mergeOwnedSchemaSnapshotWithBudget at h
  split at h
  next => cases h
  split at h
  case isTrue => cases h
  dsimp only at h
  split at h
  case isTrue => cases h
  split at h
  case isTrue => cases h
  rw [publish_eq] at h
  cases h
  exact ⟨_, _, rfl, _, rfl, rfl, rfl, rfl, rfl⟩

/-- Of a definition that is admitted, one that is known changes nothing. -/
theorem admission_ok {δ S : Type} [DecidableEq δ] {existing : Option δ} {nameExists : Bool}
    {used cost : ℕ} {d : δ} {s kept pushed : S}
    (h : (match cfg.admission probe existing nameExists used cost d with
      | .error e => (kept, .error e)
      | .ok false => (kept, .ok ())
      | .ok true => (pushed, .ok ())) = (s, (.ok () : TelemetryResult Unit))) :
    existing = some d ∧ s = kept ∨ existing = none ∧ s = pushed := by
  unfold EmbeddedSettings.admission at h
  cases existing with
  | some e =>
    dsimp only at h
    split_ifs at h with heq
    · cases h
      exact .inl ⟨by rw [heq], rfl⟩
    · cases h
  | none =>
    split_ifs at h
    · cases h
    · cases h
    cases hcheck : probe.check 0 (satAdd cost 512) cost <;> rw [hcheck] at h <;> cases h
    exact .inr ⟨rfl, rfl⟩

theorem registerEndpoint_accepted {d : OwnedEndpointDefinition}
    (h : st.registerEndpoint cfg probe d = (st', .ok ())) :
    st'.types = st.types ∧ ∃ found, found = endpointKind.lookup flash.embeddedStaticEndpoints st.endpoints d.id ∧
      (found = some d ∧ st'.endpoints = st.endpoints ∨ found = none ∧ st'.endpoints = d :: st.endpoints) := by
  unfold registerEndpoint at h
  rw [← st.endpointDefinition_eq]
  split at h
  case isTrue => cases h
  obtain ⟨hfound, rfl⟩ | ⟨hfound, rfl⟩ := admission_ok h
  · exact ⟨rfl, _, rfl, .inl ⟨hfound, rfl⟩⟩
  · exact ⟨rfl, _, rfl, .inr ⟨hfound, rfl⟩⟩

theorem registerDataType_accepted {d : OwnedDataTypeDefinition}
    (h : st.registerDataType cfg probe d = (st', .ok ())) :
    st'.endpoints = st.endpoints ∧ ∃ found, found = typeKind.lookup flash.embeddedStaticDataTypes st.types d.id ∧
      (found = some d ∧ st'.types = st.types ∨ found = none ∧ st'.types = d :: st.types) := by
  unfold registerDataType at h
  rw [← st.dataTypeDefinition_fst d.id st.cache]
  split at h
  case isTrue => cases h
  obtain ⟨hfound, rfl⟩ | ⟨hfound, rfl⟩ := admission_ok h
  · exact ⟨rfl, _, rfl, .inl ⟨hfound, rfl⟩⟩
  · exact ⟨rfl, _, rfl, .inr ⟨hfound, rfl⟩⟩

end EmbeddedSchema

end SedsNet
