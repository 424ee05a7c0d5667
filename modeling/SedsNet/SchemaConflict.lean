import SedsNet.SchemaConvergence

/-!
# Conflicting definitions

Definitions of one type with one layout are joined, those with different layouts are decided by their
fingerprints. Three definitions lead to one result in every order and grouping as long as the two rules
do not meet: the fingerprint of a joined definition is unrelated to those of its parts. A conflict with
the registry, or inside a snapshot, makes the merge without a budget panic.
-/

namespace SedsNet

open List

/-! ### Three definitions of one type -/

/-- The definition is the join of those of the list. -/
structure JoinOf (w : OwnedDataTypeDefinition) (defs : List OwnedDataTypeDefinition) : Prop where
  id : ∀ d ∈ defs, w.id = d.id
  layout : ∀ d ∈ defs, SameLayout (typeView w) d
  endpoints : ∀ ep, ep ∈ w.endpoints ↔ ∃ d ∈ defs, ep ∈ d.endpoints
  priority : ∃ d ∈ defs, w.priority = d.priority
  upper : ∀ d ∈ defs, d.priority.toNat ≤ w.priority.toNat

/-- The definition is the one of the list with the smallest fingerprint. -/
structure WinnerOf (w : OwnedDataTypeDefinition) (defs : List OwnedDataTypeDefinition) : Prop where
  mem : w ∈ defs
  least : ∀ d ∈ defs, typeFingerprint w ≤ typeFingerprint d

/-- Definitions of one layout. -/
def Joined (d d' : OwnedDataTypeDefinition) : Prop := SameLayout (typeView d) d'

/-- Definitions of two layouts, with two fingerprints. -/
def Rivals (d d' : OwnedDataTypeDefinition) : Prop := ¬ Joined d d' ∧ typeFingerprint d ≠ typeFingerprint d'

variable {w w' d d' d'' x y z : OwnedDataTypeDefinition} {defs defs' : List OwnedDataTypeDefinition}

theorem Joined.symm (h : Joined d d') : Joined d' d :=
  ⟨h.name.symm, h.element.symm, h.reliable.symm, h.e2eEncryption.symm⟩

theorem Joined.trans (h : Joined d d') (h' : Joined d' d'') : Joined d d'' :=
  ⟨h.name.trans h'.name, h.element.trans h'.element, h.reliable.trans h'.reliable,
    h.e2eEncryption.trans h'.e2eEncryption⟩

theorem Rivals.symm (h : Rivals d d') : Rivals d' d := ⟨fun h' => h.1 h'.symm, h.2.symm⟩

theorem JoinOf.single (d : OwnedDataTypeDefinition) : JoinOf d [d] := by
  constructor <;> simp [SameLayout.mk, typeView]

theorem WinnerOf.single (d : OwnedDataTypeDefinition) : WinnerOf d [d] := by
  constructor <;> simp

theorem JoinOf.merge (h : JoinOf w defs) (h' : JoinOf w' defs')
    (hjoined : ∀ d ∈ defs, ∀ d' ∈ defs', isInternalDataType d'.id = false ∧ d.id = d'.id ∧ Joined d d') :
    JoinOf (mergeTypeMetadata w w') (defs ++ defs') := by
  obtain ⟨d, hd, hpriority⟩ := h.priority
  obtain ⟨d', hd', hpriority'⟩ := h'.priority
  obtain ⟨hint, hids, hlayouts⟩ := hjoined d hd d' hd'
  have hid : w.id = w'.id := (h.id d hd).trans (hids.trans (h'.id d' hd').symm)
  have hsame : Joined w w' :=
    Joined.trans (h.layout d hd) (hlayouts.trans (Joined.symm (h'.layout d' hd')))
  rw [mergeTypeMetadata_layout (by rw [h'.id d' hd']; exact hint) hid hsame]
  refine ⟨?_, ?_, ?_, ?_, ?_⟩
  · intro d hd
    obtain hd | hd := mem_append.mp hd
    · exact h.id d hd
    · exact hid.trans (h'.id d hd)
  · intro d hd
    have hlayout : Joined w d := by
      obtain hd | hd := mem_append.mp hd
      · exact h.layout d hd
      · exact hsame.trans (h'.layout d hd)
    exact ⟨hlayout.name, hlayout.element, hlayout.reliable, hlayout.e2eEncryption⟩
  · intro ep
    simp only [mem_unionEndpoints, h.endpoints, h'.endpoints, mem_append, or_and_right, exists_or]
  · obtain hmax | hmax : max w.priority w'.priority = w.priority ∨
        max w.priority w'.priority = w'.priority := by
      rw [← UInt8.toNat_inj, ← UInt8.toNat_inj, UInt8.toNat_max]
      omega
    · exact ⟨d, mem_append_left _ hd, hmax.trans hpriority⟩
    · exact ⟨d', mem_append_right _ hd', hmax.trans hpriority'⟩
  · intro d hd
    simp only [UInt8.toNat_max]
    obtain hd | hd := mem_append.mp hd
    · have := h.upper d hd
      omega
    · have := h'.upper d hd
      omega

theorem WinnerOf.merge (h : WinnerOf w defs) (h' : WinnerOf w' defs')
    (hrivals : ∀ d ∈ defs, ∀ d' ∈ defs', isInternalDataType d.id = false ∧ Rivals d d') :
    WinnerOf (mergeTypeMetadata w w') (defs ++ defs') := by
  obtain ⟨hint, hdiffer, hne⟩ := hrivals w h.mem w' h'.mem
  have hwinner : mergeTypeMetadata w w' = if typeFingerprint w < typeFingerprint w' then w else w' := by
    rw [mergeTypeMetadata, if_neg (by simp [hint]), if_pos]
    · simp [typeWinner, keyLe, hne]
    · by_contra hagree
      push Not at hagree
      exact hdiffer ⟨hagree.2.1, hagree.2.2.1, hagree.2.2.2.1, hagree.2.2.2.2⟩
  rw [hwinner]
  split
  · rename_i hlt
    refine ⟨mem_append_left _ h.mem, fun d hd => ?_⟩
    obtain hd | hd := mem_append.mp hd
    · exact h.least d hd
    · exact UInt64.le_trans (UInt64.le_of_lt hlt) (h'.least d hd)
  · rename_i hle
    refine ⟨mem_append_right _ h'.mem, fun d hd => ?_⟩
    obtain hd | hd := mem_append.mp hd
    · exact UInt64.le_trans (UInt64.not_lt.mp hle) (h.least d hd)
    · exact h'.least d hd

theorem JoinOf.unique (h : JoinOf w defs) (h' : JoinOf w' defs') (hdefs : ∀ d, d ∈ defs ↔ d ∈ defs') :
    typeView w = typeView w' := by
  obtain ⟨d, hd, hpriority⟩ := h.priority
  obtain ⟨d', hd', hpriority'⟩ := h'.priority
  have hsame : Joined w w' :=
    Joined.trans (h.layout d hd) (Joined.symm (h'.layout d ((hdefs d).mp hd)))
  have hmax : w.priority = w'.priority := by
    have hle := h'.upper d ((hdefs d).mp hd)
    have hle' := h.upper d' ((hdefs d').mpr hd')
    rw [← hpriority] at hle
    rw [← hpriority'] at hle'
    exact UInt8.toNat_inj.mp (Nat.le_antisymm hle hle')
  have hendpoints : w.endpoints.toFinset = w'.endpoints.toFinset := by
    ext ep
    simp only [mem_toFinset, h.endpoints, h'.endpoints, hdefs]
  rw [typeView, typeView, hendpoints, hmax, show w.name = w'.name from hsame.name,
    show w.element = w'.element from hsame.element, show w.reliable = w'.reliable from hsame.reliable,
    show w.e2eEncryption = w'.e2eEncryption from hsame.e2eEncryption]

theorem WinnerOf.unique (h : WinnerOf w defs) (h' : WinnerOf w' defs') (hdefs : ∀ d, d ∈ defs ↔ d ∈ defs')
    (hrivals : defs.Pairwise Rivals) : w = w' := by
  have hmem := (hdefs w').mpr h'.mem
  by_contra hne
  have : Std.Symm Rivals := ⟨fun _ _ => Rivals.symm⟩
  exact (hrivals.forall h.mem hmem hne).2 (UInt64.le_antisymm (h.least w' hmem) (h'.least w ((hdefs w).mp h.mem)))

theorem merge_three {P : OwnedDataTypeDefinition → List OwnedDataTypeDefinition → Prop}
    {R : OwnedDataTypeDefinition → OwnedDataTypeDefinition → Prop} (hsingle : ∀ d, P d [d])
    (hmerge : ∀ {w w' defs defs'}, P w defs → P w' defs' → (∀ d ∈ defs, ∀ d' ∈ defs', R d d') →
      P (mergeTypeMetadata w w') (defs ++ defs')) (h : [x, y, z].Pairwise R) :
    P (mergeTypeMetadata (mergeTypeMetadata x y) z) [x, y, z] ∧
      P (mergeTypeMetadata x (mergeTypeMetadata y z)) [x, y, z] := by
  simp only [pairwise_cons, mem_cons, not_mem_nil, or_false, forall_eq_or_imp, forall_eq] at h
  have hxy := hmerge (hsingle x) (hsingle y) (by simp [h])
  have hyz := hmerge (hsingle y) (hsingle z) (by simp [h])
  exact ⟨hmerge hxy (hsingle z) (by simp [h]), hmerge (hsingle x) hyz (by simp [h])⟩

theorem joinOf_three (hjoined : [x, y, z].Pairwise Joined) {k : DataType} (hint : isInternalDataType k = false)
    (hid : ∀ d ∈ [x, y, z], d.id = k) : JoinOf (mergeTypeMetadata (mergeTypeMetadata x y) z) [x, y, z] ∧
      JoinOf (mergeTypeMetadata x (mergeTypeMetadata y z)) [x, y, z] :=
  merge_three JoinOf.single JoinOf.merge (hjoined.imp_of_mem fun hd hd' h =>
    ⟨by rw [hid _ hd', hint], (hid _ hd).trans (hid _ hd').symm, h⟩)

theorem winnerOf_three (hrivals : [x, y, z].Pairwise Rivals) {k : DataType} (hint : isInternalDataType k = false)
    (hid : ∀ d ∈ [x, y, z], d.id = k) : WinnerOf (mergeTypeMetadata (mergeTypeMetadata x y) z) [x, y, z] ∧
      WinnerOf (mergeTypeMetadata x (mergeTypeMetadata y z)) [x, y, z] :=
  merge_three WinnerOf.single WinnerOf.merge (hrivals.imp_of_mem fun hd _ h => ⟨by rw [hid _ hd, hint], h⟩)

/-- **Conflicts are resolved in any order**: three definitions of an application's type that all have
one layout, or three different ones with different fingerprints, give one result in every order and
grouping. -/
theorem conflict_resolution {k : DataType} (hint : isInternalDataType k = false)
    (a b c : OwnedDataTypeDefinition) (hid : ∀ d ∈ [a, b, c], d.id = k)
    (hlayouts : [a, b, c].Pairwise Joined ∨ [a, b, c].Pairwise Rivals) :
    ∃ seen : TypeView, ∀ x y z, [x, y, z].Perm [a, b, c] →
      typeView (mergeTypeMetadata (mergeTypeMetadata x y) z) = seen ∧
      typeView (mergeTypeMetadata x (mergeTypeMetadata y z)) = seen := by
  refine ⟨typeView (mergeTypeMetadata (mergeTypeMetadata a b) c), ?_⟩
  intro x y z hperm
  have hids : ∀ d ∈ [x, y, z], d.id = k := fun d hd => hid d (hperm.mem_iff.mp hd)
  obtain hjoined | hrivals := hlayouts
  · have h := (joinOf_three hjoined hint hid).1
    obtain ⟨hleft, hright⟩ := joinOf_three ((hperm.pairwise_iff Joined.symm).mpr hjoined) hint hids
    exact ⟨hleft.unique h fun _ => hperm.mem_iff, hright.unique h fun _ => hperm.mem_iff⟩
  · have h := (winnerOf_three hrivals hint hid).1
    have hrivals' := (hperm.pairwise_iff Rivals.symm).mpr hrivals
    obtain ⟨hleft, hright⟩ := winnerOf_three hrivals' hint hids
    rw [hleft.unique h (fun _ => hperm.mem_iff) hrivals', hright.unique h (fun _ => hperm.mem_iff) hrivals']
    exact ⟨rfl, rfl⟩

/-- Three layouts of `STATUS`. -/
theorem conflict_resolution_status : [statusType 1 5, statusType 2 6, statusType 3 5].Pairwise Rivals ∧
      ∃ seen : TypeView, ∀ x y z, [x, y, z].Perm [statusType 1 5, statusType 2 6, statusType 3 5] →
        typeView (mergeTypeMetadata (mergeTypeMetadata x y) z) = seen ∧
        typeView (mergeTypeMetadata x (mergeTypeMetadata y z)) = seen := by
  have hrivals : [statusType 1 5, statusType 2 6, statusType 3 5].Pairwise Rivals := by
    have hlayout : ∀ {n m e e'}, n ≠ m → ¬ Joined (statusType n e) (statusType m e') :=
      fun hne h => hne (by injection h.element)
    simp only [pairwise_cons, mem_cons, not_mem_nil, or_false, forall_eq_or_imp, forall_eq]
    exact ⟨⟨⟨hlayout (by decide), by decide +kernel⟩, hlayout (by decide), by decide +kernel⟩,
      ⟨hlayout (by decide), by decide +kernel⟩, nofun, Pairwise.nil⟩
  exact ⟨hrivals, conflict_resolution (k := 300) (by decide) _ _ _ (by decide) (.inr hrivals)⟩

/-- A definition with one reading against two joined ones: the result depends on which meet first. -/
theorem conflict_order_matters : [statusType 1 5, statusType 2 5, statusType 2 6].Pairwise
      (fun d d' => d.id = d'.id ∧ d.name = d'.name ∧ typeFingerprint d ≠ typeFingerprint d') ∧
    typeView (mergeTypeMetadata (mergeTypeMetadata (statusType 1 5) (statusType 2 5)) (statusType 2 6)) ≠
      typeView (mergeTypeMetadata (mergeTypeMetadata (statusType 1 5) (statusType 2 6)) (statusType 2 5)) := by
  decide +kernel

/-! ### Merges without a budget -/

def mergeOwnedSchemaSnapshot (sizes : SchemaSizes) (reg : SchemaRegistry) (s : OwnedRuntimeSchemaSnapshot) :
    TelemetryResult (SchemaRegistry × SchemaMergeReport) :=
  match mergeOwnedSchemaSnapshotWithBudget sizes reg s usizeMax with
  | .ok r => .ok r
  | .error _ => .error (.aborted "unbounded schema merge should not fail budget")

/-- The borrowed form has the same fields; the texts and the lists are copied. -/
def mergeSchemaSnapshot (sizes : SchemaSizes) (reg : SchemaRegistry) (s : OwnedRuntimeSchemaSnapshot) :
    TelemetryResult (SchemaRegistry × SchemaMergeReport) :=
  mergeOwnedSchemaSnapshot sizes reg
    { endpoints := s.endpoints.map fun d => ⟨d.id, d.name, d.description, d.linkLocalOnly⟩
      types := s.types.map fun d =>
        ⟨d.id, d.name, d.description, d.element, d.endpoints, d.reliable, d.priority, d.e2eEncryption⟩ }

/-- What a snapshot needs: its names are neither empty nor reserved for another id, definitions that share
an id or a name are the same, and none meets one of the registry under another identity. -/
structure Mergeable (reg : SchemaRegistry) (s : OwnedRuntimeSchemaSnapshot) : Prop where
  endpointNames : ∀ d ∈ s.endpoints, SchemaIdentity.resolveEndpoint d.name d.id = true
  typeNames : ∀ d ∈ s.types, SchemaIdentity.resolveType d.name d.id = true
  endpoints : ∀ c ∈ s.endpoints, ∀ d ∈ s.endpoints, c.id = d.id ∨ c.name = d.name → c = d
  types : ∀ c ∈ s.types, ∀ d ∈ s.types, c.id = d.id ∨ c.name = d.name → c = d
  knownEndpoints : ∀ d ∈ s.endpoints, ∀ e ∈ reg.endpoints, endpointIdentityConflicts e.id e.name d.id d.name = false
  knownTypes : ∀ d ∈ s.types, ∀ e ∈ reg.types, e.id = d.id ↔ e.name = d.name

theorem mergeable_iff {reg : SchemaRegistry} {s : OwnedRuntimeSchemaSnapshot} :
    Mergeable reg s ↔ ValidSnapshot s ∧ identityConflict reg (sortedSchema s) = false := by
  rw [identityConflict_eq_false]
  constructor
  · intro h
    have hvalid := validSnapshot_iff.mpr ⟨⟨h.endpointNames, h.endpoints⟩, h.typeNames, h.types⟩
    obtain ⟨hends, htys⟩ := hvalid.mem_sortedSchema
    exact ⟨hvalid, fun d hd => h.knownEndpoints d ((hends d).mp hd), fun d hd => h.knownTypes d ((htys d).mp hd)⟩
  · rintro ⟨hvalid, hends', htys'⟩
    obtain ⟨⟨hnames, hends⟩, hnames', htys⟩ := validSnapshot_iff.mp hvalid
    obtain ⟨hmem, hmem'⟩ := hvalid.mem_sortedSchema
    exact ⟨hnames, hnames', hends, htys, fun d hd => hends' d ((hmem d).mpr hd), fun d hd => htys' d ((hmem' d).mpr hd)⟩

/-- **Merges return a report** exactly for the snapshots that are valid and do not conflict with the
registry; for all others they panic. -/
theorem merge_reports (sizes : SchemaSizes) (reg : SchemaRegistry) (s : OwnedRuntimeSchemaSnapshot) :
    (∃ r, mergeOwnedSchemaSnapshot sizes reg s = .ok r ∧ mergeSchemaSnapshot sizes reg s = .ok r) ↔ Mergeable reg s := by
  have hcopy : mergeSchemaSnapshot sizes reg s = mergeOwnedSchemaSnapshot sizes reg s := by
    simp [mergeSchemaSnapshot]
  rw [mergeable_iff, hcopy, ValidSnapshot, mergeOwnedSchemaSnapshot, mergeWithBudget_unlimited]
  cases validateSchemaIdentities s with
  | error e => simp
  | ok _ => cases identityConflict reg (sortedSchema s) with
    | true | false => simp

/-- Two definitions of one id in a snapshot. -/
theorem malformed_merge_panics :
    mergeOwnedSchemaSnapshot recordSizes SchemaRegistry.builtIn ⟨[], [statusType 1 5, statusType 2 5]⟩ =
      .error (.aborted "unbounded schema merge should not fail budget") := by
  decide +kernel

end SedsNet
