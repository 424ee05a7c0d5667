import SedsNet.EmbeddedSchema
import SedsNet.SchemaProtection

/-! # Overlays and catalogs

The definitions in force in an overlay, looked up by id and by name, against the catalog of a hosted
registry.  An overlay mirrors a catalog if both have the same definitions up to their descriptions,
which decide nothing.  Registering a definition keeps the two alike (`Mirrors.push`), and so does a
merge, where the hosted loop reads what it has merged so far and the embedded loop only what was
published before (`Mirrors.merge`). -/

namespace SedsNet

open ShadowLog List

namespace DefinitionKind

variable {δ : Type} {kind : DefinitionKind δ}

/-! ### What the merge rule reads -/

variable (kind) in
/-- What decides a merge is the `core` of the definitions.  A definition that is `tidy` is not changed
by a merge with itself. -/
structure MergeRule (core : δ → δ) (tidy : δ → Prop) : Prop where
  id_core : ∀ d, kind.id (core d) = kind.id d
  name_core : ∀ d, kind.name (core d) = kind.name d
  tidy_core : ∀ {a b}, core a = core b → tidy a → tidy b
  id_merge : ∀ {e d}, kind.id e = kind.id d → kind.id (kind.mergeMetadata e d) = kind.id d
  name_merge : ∀ e d, kind.name (kind.mergeMetadata e d) = kind.name d ∨
    kind.name (kind.mergeMetadata e d) = kind.name e
  core_merge : ∀ {e e'} d, core e = core e' → core (kind.mergeMetadata e d) = core (kind.mergeMetadata e' d)
  kept_iff : ∀ {e d}, kind.equivalent e (kind.mergeMetadata e d) = true ↔ core (kind.mergeMetadata e d) = core e
  repeated : ∀ {e d}, tidy e → kind.equivalent e d = true → core (kind.mergeMetadata e d) = core e
  tidy_merge : ∀ {e d}, tidy e → tidy d → tidy (kind.mergeMetadata e d)

variable (kind) in
/-- The node that an embedded merge pushes for a definition, if it pushes one. -/
def pushed (existing : Option δ) (d : δ) : Option δ :=
  match existing with
  | none => some d
  | some e => if kind.equivalent e (kind.mergeMetadata e d) then none else some (kind.mergeMetadata e d)

namespace MergeRule

variable {core : δ → δ} {tidy : δ → Prop} (rule : kind.MergeRule core tidy)

include rule

theorem id_eq {a b : δ} (h : core a = core b) : kind.id a = kind.id b := by
  rw [← rule.id_core a, h, rule.id_core]

theorem name_eq {a b : δ} (h : core a = core b) : kind.name a = kind.name b := by
  rw [← rule.name_core a, h, rule.name_core]

variable {e d : δ}

/-- A hosted merge settles on the merged definition or on one with the same core. -/
theorem core_settled (htidy : tidy e) : core (kind.settled (some e) d) = core (kind.mergeMetadata e d) := by
  rw [settled]
  split
  case isTrue heq => exact (rule.repeated htidy heq).symm
  split
  case isTrue hkept => exact (rule.kept_iff.mp hkept).symm
  case isFalse => rfl

theorem absorbed_iff (htidy : tidy e) : kind.Absorbed (some e) d ↔ core (kind.mergeMetadata e d) = core e := by
  constructor
  · rintro ⟨e', he', heq | hkept⟩
    · cases he'
      exact rule.repeated htidy heq
    · cases he'
      exact rule.kept_iff.mp hkept
  · intro hcore
    exact ⟨e, rfl, .inr (rule.kept_iff.mpr hcore)⟩

theorem pushed_eq_none : kind.pushed (some e) d = none ↔ core (kind.mergeMetadata e d) = core e := by
  rw [← rule.kept_iff, pushed]
  split
  case isTrue h => exact iff_of_true rfl h
  case isFalse h => exact iff_of_false (Option.some_ne_none _) h

theorem pushed_some {o : Option δ} {d x : δ} (ho : ∀ e ∈ o, kind.id e = kind.id d) (h : kind.pushed o d = some x) :
    kind.id x = kind.id d ∧ (kind.name x = kind.name d ∨ ∃ e ∈ o, kind.name x = kind.name e) := by
  cases o with
  | none =>
    cases h
    exact ⟨rfl, .inl rfl⟩
  | some e =>
    rw [pushed] at h
    split at h
    case isTrue => cases h
    cases h
    exact ⟨rule.id_merge (ho e rfl), Or.imp_right (fun hname => ⟨e, rfl, hname⟩) (rule.name_merge e d)⟩

theorem tidy_settled {o : Option δ} (ho : ∀ e ∈ o, tidy e) (hd : tidy d) : tidy (kind.settled o d) := by
  cases o with
  | none => exact hd
  | some e => exact rule.tidy_core (rule.core_settled (ho e rfl)).symm (rule.tidy_merge (ho e rfl) hd)

end MergeRule

/-! ### Hosted merges -/

theorem ById.mem_iff_find {defs : List δ} (h : kind.ById defs) {x : δ} :
    x ∈ defs ↔ kind.find defs (kind.id x) = some x :=
  ⟨h.find_of_mem, fun hfind => (mem_of_find hfind).1⟩

section Joining

variable {V : Type} {view : δ → V} {join : Option V → δ → V} {ok : UInt32 → Option V → Prop} {S : δ → Prop}
  {ds defs : List δ}

theorem Joining.find_others (h : kind.Joining view join ok S) {d d' : δ} (hd : S d) (hsorted : kind.ById defs)
    (hknown : kind.Known S defs) (hlt : kind.id d < kind.id d') :
    kind.find (kind.mergeDefinition defs d).1 (kind.id d') = kind.find defs (kind.id d') := by
  rw [(mergeDefinition_spec hsorted (h.fits hknown hd)).find, if_neg (UInt32.ne_of_lt hlt).symm]

theorem Joining.mem_mergeAll (h : kind.Joining view join ok S) (hds : ∀ d ∈ ds, S d) (hids : kind.ById ds)
    (hsorted : kind.ById defs) (hknown : kind.Known S defs) {x : δ} : x ∈ kind.mergeAll defs ds ↔
      (∃ d ∈ ds, kind.id d = kind.id x ∧ x = kind.settled (kind.find defs (kind.id d)) d) ∨
        (∀ d ∈ ds, kind.id d ≠ kind.id x) ∧ x ∈ defs := by
  induction ds generalizing defs with
  | nil => simp [mergeAll]
  | cons d ds ih =>
    rw [forall_mem_cons] at hds
    obtain ⟨hhead, htail⟩ := pairwise_cons.mp hids
    have hspec := mergeDefinition_spec hsorted (h.fits hknown hds.1)
    have hothers := fun d' hd' => h.find_others hds.1 hsorted hknown (hhead d' hd')
    have hfirst : x ∈ (kind.mergeDefinition defs d).1 ↔
        kind.id d = kind.id x ∧ x = kind.settled (kind.find defs (kind.id d)) d ∨
          kind.id d ≠ kind.id x ∧ x ∈ defs := by
      rw [hspec.sorted.mem_iff_find, hspec.find, hsorted.mem_iff_find]
      by_cases hid : kind.id x = kind.id d
      · simp [hid, eq_comm]
      · simp [hid, Ne.symm hid]
    change x ∈ kind.mergeAll (kind.mergeDefinition defs d).1 ds ↔ _
    rw [ih hds.2 htail hspec.sorted (h.known_merge hsorted hknown hds.1), hfirst, exists_mem_cons_iff,
      forall_mem_cons]
    constructor
    · rintro (⟨d', hd', hid, hx⟩ | ⟨hne, ⟨hid, hx⟩ | ⟨hid, hx⟩⟩)
      · rw [hothers d' hd'] at hx
        exact .inl (.inr ⟨d', hd', hid, hx⟩)
      · exact .inl (.inl ⟨hid, hx⟩)
      · exact .inr ⟨⟨hid, hne⟩, hx⟩
    · rintro ((⟨hid, hx⟩ | ⟨d', hd', hid, hx⟩) | ⟨⟨hid, hne⟩, hx⟩)
      · refine .inr ⟨?_, .inl ⟨hid, hx⟩⟩
        intro d' hd' heq
        exact absurd (heq.trans hid.symm) (UInt32.ne_of_lt (hhead d' hd')).symm
      · rw [← hothers d' hd'] at hx
        exact .inl ⟨d', hd', hid, hx⟩
      · exact .inr ⟨hne, .inr ⟨hid, hx⟩⟩

end Joining

/-! ### Lookups -/

variable {base log : List δ}

variable (kind) in
/-- No two definitions of the list have an id or a name in common. -/
def Distinct (base : List δ) : Prop := ∀ a ∈ base, ∀ b ∈ base, kind.sameIdentity a b = true → a = b

variable {a b : δ}

theorem sameIdentity_iff : kind.sameIdentity a b = true ↔ kind.id a = kind.id b ∨ kind.name a = kind.name b := by
  rw [sameIdentity, Bool.or_eq_true, beq_iff_eq, beq_iff_eq]

theorem sameIdentity_eq_false : kind.sameIdentity a b = false ↔ kind.id a ≠ kind.id b ∧ kind.name a ≠ kind.name b := by
  rw [← Bool.not_eq_true, sameIdentity_iff, not_or]

theorem sameIdentity_refl (a : δ) : kind.sameIdentity a a = true := sameIdentity_iff.mpr (.inl rfl)

theorem sameIdentity_symm (a b : δ) : kind.sameIdentity a b = kind.sameIdentity b a := by
  rw [Bool.eq_iff_iff, sameIdentity_iff, sameIdentity_iff, eq_comm, @eq_comm _ (kind.name a)]

variable [DecidableEq δ]

variable (kind) in
/-- The definitions in force. -/
def inForce (base log : List δ) : List δ := live kind.sameIdentity base log

theorem Distinct.inForce (h : kind.Distinct base) (ha : a ∈ kind.inForce base log)
    (hb : b ∈ kind.inForce base log) (hab : kind.id a = kind.id b ∨ kind.name a = kind.name b) : a = b :=
  eq_of_clash sameIdentity_refl sameIdentity_symm h ha hb (sameIdentity_iff.mpr hab)

variable (kind) in
/-- A lookup in the overlay, and then in the compiled definitions. -/
def lookup (base log : List δ) (id : UInt32) : Option δ :=
  (kind.overlayById log id).or ((kind.find base id).filter (kind.visibleAt · log))

variable {id : UInt32} {e : δ}

theorem lookup_mem (h : kind.lookup base log id = some e) : e ∈ kind.inForce base log ∧ kind.id e = id := by
  rw [lookup, Option.or_eq_some_iff] at h
  obtain h | ⟨-, h⟩ := h
  · have hp := List.find?_some h
    rw [Bool.and_eq_true, beq_iff_eq] at hp
    exact ⟨mem_live.mpr ⟨.inr (mem_of_find?_eq_some h), hp.2⟩, hp.1⟩
  · obtain ⟨hfind, hvisible⟩ := Option.filter_eq_some_iff.mp h
    obtain ⟨hmem, hid⟩ := mem_of_find hfind
    exact ⟨mem_live.mpr ⟨.inl hmem, hvisible⟩, hid⟩

theorem overlay_ne_none {p : δ → Bool} (he : e ∈ kind.inForce base log) (hlog : e ∈ log) (hp : p e = true) :
    log.find? (fun d => p d && kind.visibleAt d log) ≠ none := by
  intro hnone
  refine List.find?_eq_none.mp hnone e hlog ?_
  rw [Bool.and_eq_true]
  exact ⟨hp, (mem_live.mp he).2⟩

theorem Distinct.lookup_eq_some (h : kind.Distinct base) :
    kind.lookup base log id = some e ↔ e ∈ kind.inForce base log ∧ kind.id e = id := by
  refine ⟨lookup_mem, ?_⟩
  rintro ⟨he, rfl⟩
  cases hlookup : kind.lookup base log (kind.id e) with
  | some e' =>
    obtain ⟨he', hid⟩ := lookup_mem hlookup
    rw [h.inForce he' he (.inl hid)]
  | none =>
    exfalso
    rw [lookup, Option.or_eq_none_iff] at hlookup
    obtain ⟨hoverlay, hcompiled⟩ := hlookup
    obtain ⟨hmem, hvisible⟩ := mem_live.mp he
    change kind.visibleAt e log = true at hvisible
    obtain hmem | hmem := hmem
    · -- the id is in the tables, where nothing else has it
      cases hfind : kind.find base (kind.id e) with
      | none => exact find_none hfind hmem rfl
      | some e' =>
        obtain ⟨hmem', hid⟩ := mem_of_find hfind
        rw [hfind, h e' hmem' e hmem (sameIdentity_iff.mpr (.inl hid)), Option.filter_some,
          if_pos hvisible] at hcompiled
        cases hcompiled
    · exact overlay_ne_none (p := fun d => kind.id d == kind.id e) he hmem (beq_self_eq_true _) hoverlay

theorem Distinct.lookup_eq_none (h : kind.Distinct base) :
    kind.lookup base log id = none ↔ ∀ e ∈ kind.inForce base log, kind.id e ≠ id := by
  constructor
  · intro hnone e he hid
    rw [h.lookup_eq_some.mpr ⟨he, hid⟩] at hnone
    cases hnone
  · intro hall
    cases hlookup : kind.lookup base log id with
    | none => rfl
    | some e => exact absurd (lookup_mem hlookup).2 (hall e (lookup_mem hlookup).1)

theorem tryNamed_eq_some {name : String} (h : kind.tryNamed base log name = some id) :
    ∃ e ∈ kind.inForce base log, kind.name e = name ∧ kind.id e = id := by
  obtain ⟨e, he, rfl⟩ := Option.map_eq_some_iff.mp h
  refine ⟨e, ?_⟩
  rw [Option.or_eq_some_iff] at he
  obtain he | ⟨-, he⟩ := he
  all_goals
    have hp := List.find?_some he
    rw [Bool.and_eq_true, beq_iff_eq] at hp
  · exact ⟨mem_live.mpr ⟨.inr (mem_of_find?_eq_some he), hp.2⟩, hp.1, rfl⟩
  · exact ⟨mem_live.mpr ⟨.inl (mem_of_find?_eq_some he), hp.2⟩, hp.1, rfl⟩

/-! ### Embedded merges -/

variable {σ : Type} {look : Lookups σ δ}

variable (kind) in
/-- The lookups answer from the definitions in force, whatever they leave in `σ`. -/
structure Reads (look : Lookups σ δ) (base log : List δ) : Prop where
  byId : ∀ id s, (look.byId id s).1 = kind.lookup base log id
  byName : ∀ name s e, (look.byName name s).1 = some e → e ∈ kind.inForce base log ∧ kind.name e = name

omit [DecidableEq δ] in
theorem existing_of_byId {d e : δ} {s : σ} (h : (look.byId (kind.id d) s).1 = some e) :
    (look.existing kind d s).1 = some e := by
  rw [Lookups.existing]
  simp only [h]

/-- A name that is known under no other id adds nothing to the lookup by id. -/
theorem Reads.existing_eq (h : kind.Reads look base log) (hbase : kind.Distinct base) {d : δ}
    (hname : ∀ e ∈ kind.inForce base log, kind.name e = kind.name d → kind.id e = kind.id d) (s : σ) :
    (look.existing kind d s).1 = kind.lookup base log (kind.id d) := by
  rw [← h.byId (kind.id d) s, Lookups.existing]
  cases hfound : (look.byId (kind.id d) s).1 with
  | some e => rfl
  | none =>
    rw [h.byId, hbase.lookup_eq_none] at hfound
    cases hnamed : (look.byName (kind.name d) (look.byId (kind.id d) s).2).1 with
    | none => rfl
    | some e =>
      obtain ⟨he, hsame⟩ := h.byName _ _ _ hnamed
      exact absurd (hname e he hsame) (hfound e he)

section Plan

variable {cost : δ → ℕ}

omit [DecidableEq δ] in
theorem consider_pending (p : MergePlan δ) (o : Option δ) (d : δ) :
    (p.consider kind cost o d).pending = p.pending ++ (kind.pushed o d).toList := by
  cases o with
  | none => rfl
  | some e =>
    rw [MergePlan.consider, pushed]
    split
    · simp
    · rfl

omit [DecidableEq δ] in
theorem consider_count (p : MergePlan δ) (o : Option δ) (d : δ) :
    (p.consider kind cost o d).added + (p.consider kind cost o d).replaced =
      p.added + p.replaced + (kind.pushed o d).toList.length := by
  cases o with
  | none =>
    change p.added + 1 + p.replaced = p.added + p.replaced + 1
    omega
  | some e =>
    rw [MergePlan.consider, pushed]
    split
    · rfl
    · exact (Nat.add_assoc _ _ _).symm

omit [DecidableEq δ] in
/-- Nothing is planned for definitions that are held already. -/
theorem plan_eq_self {ds : List δ} (p : MergePlan δ)
    (hds : ∀ d ∈ ds, ∀ s, ∃ e, (look.existing kind d s).1 = some e ∧ kind.pushed (some e) d = none) (s : σ) :
    (look.plan kind cost ds p s).1 = p := by
  induction ds generalizing s with
  | nil => rfl
  | cons d ds ih =>
    rw [forall_mem_cons] at hds
    rw [Lookups.plan]
    split
    case isTrue => exact ih hds.2 s
    obtain ⟨e, hfound, hpushed⟩ := hds.1 s
    have hkept : p.consider kind cost (look.existing kind d s).1 d = p := by
      rw [pushed] at hpushed
      rw [hfound, MergePlan.consider]
      split at hpushed
      case isTrue heq => rw [if_pos heq]
      case isFalse => cases hpushed
    dsimp only
    rw [hkept]
    exact ih hds.2 _

/-- What a merge plans, for lookups that answer as `f` does. -/
structure Planned (kind : DefinitionKind δ) (f : UInt32 → Option δ) (ds : List δ) (p p' : MergePlan δ) : Prop where
  pending : ∀ x, x ∈ p'.pending ↔ x ∈ p.pending ∨
    ∃ d ∈ ds, (∀ m ∈ p.pending, kind.id m ≠ kind.id d) ∧ kind.pushed (f (kind.id d)) d = some x
  ids : (p.pending.map kind.id).Nodup → (p'.pending.map kind.id).Nodup
  count : p.added + p.replaced = p.pending.length → p'.added + p'.replaced = p'.pending.length

omit [DecidableEq δ] in
theorem plan_spec {f : UInt32 → Option δ} {ds : List δ} (hsame : ∀ a ∈ ds, ∀ b ∈ ds, kind.id a = kind.id b → a = b)
    (hfound : ∀ d ∈ ds, ∀ s, (look.existing kind d s).1 = f (kind.id d))
    (hid : ∀ d ∈ ds, ∀ x, kind.pushed (f (kind.id d)) d = some x → kind.id x = kind.id d)
    (p : MergePlan δ) (s : σ) : Planned kind f ds p (look.plan kind cost ds p s).1 := by
  induction ds generalizing p s with
  | nil => exact ⟨fun x => by simp [Lookups.plan], fun h => h, fun h => h⟩
  | cons d ds ih =>
    have hsame' : ∀ a ∈ ds, ∀ b ∈ ds, kind.id a = kind.id b → a = b := fun a ha b hb =>
      hsame a (mem_cons_of_mem d ha) b (mem_cons_of_mem d hb)
    have hrest := ih hsame' (fun d' hd' => hfound d' (mem_cons_of_mem d hd'))
      (fun d' hd' => hid d' (mem_cons_of_mem d hd'))
    rw [Lookups.plan]
    split
    case isTrue hpending =>
      obtain ⟨m, hm, hmid⟩ := any_eq_true.mp hpending
      obtain ⟨hp, hids, hcount⟩ := hrest p s
      refine ⟨fun x => ?_, hids, hcount⟩
      rw [hp x, exists_mem_cons_iff]
      constructor
      · exact Or.imp_right .inr
      · rintro (hx | ⟨hne, -⟩ | hx)
        · exact .inl hx
        · exact absurd (beq_iff_eq.mp hmid) (hne m hm)
        · exact .inr hx
    case isFalse hpending =>
      have hfresh : ∀ m ∈ p.pending, kind.id m ≠ kind.id d := by
        intro m hm heq
        exact hpending (any_eq_true.mpr ⟨m, hm, beq_iff_eq.mpr heq⟩)
      dsimp only
      rw [hfound d mem_cons_self s]
      have hidd := hid d mem_cons_self
      obtain ⟨hp, hids, hcount⟩ := hrest (p.consider kind cost (f (kind.id d)) d) (look.existing kind d s).2
      rw [consider_pending] at hp hids hcount
      refine ⟨fun x => ?_, ?_, ?_⟩
      · rw [hp x, mem_append, Option.mem_toList, exists_mem_cons_iff]
        constructor
        · rintro ((hx | hx) | ⟨d', hd', hne, hx⟩)
          · exact .inl hx
          · exact .inr (.inl ⟨hfresh, hx⟩)
          · exact .inr (.inr ⟨d', hd', fun m hm => hne m (mem_append_left _ hm), hx⟩)
        · rintro (hx | ⟨-, hx⟩ | ⟨d', hd', hne, hx⟩)
          · exact .inl (.inl hx)
          · exact .inl (.inr hx)
          · -- a repeat of the first definition pushes what the first one pushed
            by_cases heq : kind.id d' = kind.id d
            · rw [hsame d' (mem_cons_of_mem d hd') d mem_cons_self heq] at hx
              exact .inl (.inr hx)
            refine .inr ⟨d', hd', ?_, hx⟩
            intro m hm
            rw [mem_append, Option.mem_toList] at hm
            obtain hm | hm := hm
            · exact hne m hm
            · rw [hidd m hm]
              exact Ne.symm heq
      · intro hnodup
        refine hids ?_
        rw [map_append, nodup_append]
        refine ⟨hnodup, ?_, ?_⟩
        · cases kind.pushed (f (kind.id d)) d with
          | none => exact nodup_nil
          | some m => exact nodup_singleton _
        · intro a ha b hb
          obtain ⟨m, hm, rfl⟩ := mem_map.mp ha
          obtain ⟨m', hm', rfl⟩ := mem_map.mp hb
          rw [Option.mem_toList] at hm'
          rw [hidd m' hm']
          exact hfresh m hm
      · intro hcounted
        refine hcount ?_
        rw [consider_count, length_append, hcounted]

end Plan

/-! ### Both registries -/

variable (kind) in
/-- The catalog and the overlay have the same definitions up to what is not in the core. -/
def Mirrors (core : δ → δ) (defs base log : List δ) : Prop :=
  ∀ v, v ∈ defs.map core ↔ v ∈ (kind.inForce base log).map core

section Mirrors

variable {core : δ → δ} {tidy : δ → Prop} {defs : List δ} {e : δ}

theorem Mirrors.of_catalog (h : kind.Mirrors core defs base log) (he : e ∈ defs) :
    ∃ e' ∈ kind.inForce base log, core e' = core e :=
  mem_map.mp ((h (core e)).mp (mem_map_of_mem he))

theorem Mirrors.of_overlay (h : kind.Mirrors core defs base log) (he : e ∈ kind.inForce base log) :
    ∃ e' ∈ defs, core e' = core e :=
  mem_map.mp ((h (core e)).mpr (mem_map_of_mem he))

variable (rule : kind.MergeRule core tidy)

include rule

variable {d : δ}

/-- A definition with a new id and a new name is added to both. -/
theorem Mirrors.push (h : kind.Mirrors core defs base log) (hid : ∀ e ∈ defs, kind.id e ≠ kind.id d)
    (hname : ∀ e ∈ defs, kind.name e ≠ kind.name d) :
    kind.Mirrors core (kind.sortById (defs ++ [d])) base (d :: log) := by
  have hkept : ∀ e ∈ kind.inForce base log, kind.sameIdentity d e = false := by
    intro e he
    obtain ⟨e', he', hcore⟩ := h.of_overlay he
    refine sameIdentity_eq_false.mpr ⟨?_, ?_⟩
    · rw [← rule.id_eq hcore]
      exact (hid e' he').symm
    · rw [← rule.name_eq hcore]
      exact (hname e' he').symm
  intro v
  rw [mem_map, mem_map]
  constructor
  · rintro ⟨e, he, rfl⟩
    rw [mem_sortById, mem_append, mem_singleton] at he
    obtain he | rfl := he
    · obtain ⟨e', he', hcore⟩ := h.of_catalog he
      exact ⟨e', (mem_live_cons sameIdentity_refl).mpr (.inr ⟨he', hkept e' he'⟩), hcore⟩
    · exact ⟨e, (mem_live_cons sameIdentity_refl).mpr (.inl rfl), rfl⟩
  · rintro ⟨e, he, rfl⟩
    obtain rfl | ⟨he, -⟩ := (mem_live_cons sameIdentity_refl).mp he
    · exact ⟨e, mem_sortById.mpr (mem_append_right _ (mem_singleton_self e)), rfl⟩
    · obtain ⟨e', he', hcore⟩ := h.of_overlay he
      exact ⟨e', mem_sortById.mpr (mem_append_left _ he'), hcore⟩

variable {x : δ} {S : δ → Prop} {ds : List δ}

variable (kind) in
/-- The definitions of a snapshot are apart, and have a name in common with a definition in force only if they
have its id. -/
structure Apart (base log ds : List δ) : Prop where
  same : ∀ a ∈ ds, ∀ b ∈ ds, kind.id a = kind.id b ∨ kind.name a = kind.name b → a = b
  known : ∀ e ∈ kind.inForce base log, ∀ d ∈ ds, kind.name e = kind.name d → kind.id e = kind.id d

/-- A name shared with the definitions in force is shared with the catalog. -/
theorem Mirrors.apart (h : kind.Mirrors core defs base log) (hknown : kind.Known S defs) (hds : ∀ d ∈ ds, S d)
    (hsame : ∀ a ∈ ds, ∀ b ∈ ds, kind.id a = kind.id b ∨ kind.name a = kind.name b → a = b) :
    kind.Apart base log ds := by
  refine ⟨hsame, ?_⟩
  intro e he d hd hname
  obtain ⟨e', he', hcore⟩ := h.of_overlay he
  rw [← rule.id_eq hcore]
  exact hknown e' he' d (hds d hd) ((rule.name_eq hcore).trans hname)

variable (kind) in
/-- The node that a merge pushes for a definition. -/
def node (base log : List δ) (d : δ) : Option δ := kind.pushed (kind.lookup base log (kind.id d)) d

theorem node_some (hx : kind.node base log d = some x) : kind.id x = kind.id d ∧
    (kind.name x = kind.name d ∨ ∃ e ∈ kind.lookup base log (kind.id d), kind.name x = kind.name e) :=
  rule.pushed_some (fun _ he => (lookup_mem he).2) hx

variable (kind) in
/-- What the overlay has for a definition after a merge, pushed or held before. -/
def Settles (base log : List δ) (d x : δ) : Prop :=
  kind.node base log d = some x ∨ kind.node base log d = none ∧ kind.lookup base log (kind.id d) = some x

theorem exists_settles (base log : List δ) (d : δ) : ∃ x, kind.id x = kind.id d ∧ kind.Settles base log d x := by
  cases hnode : kind.node base log d with
  | some x => exact ⟨x, (node_some rule hnode).1, .inl hnode⟩
  | none =>
    cases hlookup : kind.lookup base log (kind.id d) with
    | some x => exact ⟨x, (lookup_mem hlookup).2, .inr ⟨hnode, hlookup⟩⟩
    | none =>
      rw [node, hlookup] at hnode
      cases hnode

variable (hbase : kind.Distinct base)

include hbase

theorem Mirrors.find_eq (h : kind.Mirrors core defs base log) (hsorted : kind.ById defs) (i : UInt32) :
    (kind.find defs i).map core = (kind.lookup base log i).map core := by
  cases hlookup : kind.lookup base log i with
  | none =>
    rw [hbase.lookup_eq_none] at hlookup
    have hnone : kind.find defs i = none := by
      refine List.find?_eq_none.mpr ?_
      intro e he hid
      obtain ⟨e', he', hcore⟩ := h.of_catalog he
      exact hlookup e' he' ((rule.id_eq hcore).trans (beq_iff_eq.mp hid))
    rw [hnone]
  | some e =>
    obtain ⟨he, rfl⟩ := lookup_mem hlookup
    obtain ⟨e', he', hcore⟩ := h.of_overlay he
    rw [← rule.id_eq hcore, hsorted.find_of_mem he', Option.map_some, Option.map_some, hcore]

/-- A definition that both accept is known to both or new to both. -/
theorem Mirrors.registered (h : kind.Mirrors core defs base log) (hsorted : kind.ById defs) {defs' log' : List δ}
    (hr : kind.Registered defs d defs') {found : Option δ} (hfound : found = kind.lookup base log (kind.id d))
    (hpushed : found = some d ∧ log' = log ∨ found = none ∧ log' = d :: log) : kind.Mirrors core defs' base log' := by
  have hfind := h.find_eq rule hbase hsorted (kind.id d)
  rw [← hfound] at hfind
  obtain ⟨hmem, rfl⟩ | ⟨hid, hname, rfl⟩ := hr
  · obtain ⟨-, rfl⟩ | ⟨rfl, -⟩ := hpushed
    · exact h
    · rw [Option.map_none, Option.map_eq_none_iff] at hfind
      exact absurd rfl (find_none hfind hmem)
  · obtain ⟨rfl, -⟩ | ⟨-, rfl⟩ := hpushed
    · obtain ⟨e, he, -⟩ := Option.map_eq_some_iff.mp hfind
      exact absurd (mem_of_find he).2 (hid e (mem_of_find he).1)
    · exact h.push rule hid hname

/-! ### One snapshot in both -/

/-- The nodes pushed for a definition have an identity that nothing else in force has. -/
theorem pushed_identity (hds : kind.Apart base log ds) (hd : d ∈ ds) (hx : kind.node base log d = some x)
    (he : e ∈ kind.inForce base log) (hne : kind.id e ≠ kind.id d) : kind.sameIdentity x e = false := by
  obtain ⟨hid, hname⟩ := node_some rule hx
  refine sameIdentity_eq_false.mpr ⟨?_, ?_⟩
  · rw [hid]
    exact Ne.symm hne
  · intro heq
    obtain hname | ⟨e', he', hname⟩ := hname
    · exact hne (hds.known e he d hd (heq.symm.trans hname))
    · obtain ⟨hin, hid'⟩ := lookup_mem he'
      rw [← hbase.inForce hin he (.inr (hname.symm.trans heq))] at hne
      exact hne hid'

/-- Nodes pushed for different definitions do not shadow each other. -/
theorem pushed_apart (hds : kind.Apart base log ds) {d' x' : δ} (hd : d ∈ ds) (hd' : d' ∈ ds)
    (hx : kind.node base log d = some x) (hx' : kind.node base log d' = some x') (hne : kind.id d ≠ kind.id d') :
    kind.sameIdentity x x' = false := by
  obtain ⟨hid, hname⟩ := node_some rule hx
  obtain ⟨hid', hname'⟩ := node_some rule hx'
  refine sameIdentity_eq_false.mpr ⟨?_, ?_⟩
  · rw [hid, hid']
    exact hne
  · intro heq
    obtain hname' | ⟨e', he', hname'⟩ := hname'
    · obtain hname | ⟨e, he, hname⟩ := hname
      · rw [hds.same d hd d' hd' (.inr (hname.symm.trans (heq.trans hname')))] at hne
        exact hne rfl
      · obtain ⟨hin, hide⟩ := lookup_mem he
        exact hne (hide.symm.trans (hds.known e hin d' hd' (hname.symm.trans (heq.trans hname'))))
    · -- the other node has the name of a definition in force, which is apart from this one
      obtain ⟨hin, hide⟩ := lookup_mem he'
      have hapart := pushed_identity rule hbase hds hd hx hin (by rw [hide]; exact Ne.symm hne)
      exact (sameIdentity_eq_false.mp hapart).2 (heq.trans hname')

/-- What the loops of a merge plan, for lookups in the overlay. -/
theorem planned (hreads : kind.Reads look base log) (hds : kind.Apart base log ds) (cost : δ → ℕ) (p : MergePlan δ)
    (s : σ) : Planned kind (kind.lookup base log) ds p (look.plan kind cost ds p s).1 := by
  refine plan_spec ?_ ?_ ?_ p s
  · intro a ha b hb hid
    exact hds.same a ha b hb (.inl hid)
  · intro d hd s
    exact hreads.existing_eq hbase (fun e he => hds.known e he d hd) s
  · intro d hd x hx
    exact (node_some rule hx).1

variable {p : MergePlan δ} {bytes : ℕ}

/-- The definitions in force once a plan is published. -/
theorem mem_published (hds : kind.Apart base log ds) (hplan : Planned kind (kind.lookup base log) ds ⟨[], 0, 0, bytes⟩ p) :
    x ∈ kind.inForce base (p.pending.foldl (fun log d => d :: log) log) ↔
      (∃ d ∈ ds, kind.id d = kind.id x ∧ kind.Settles base log d x) ∨
        (∀ d ∈ ds, kind.id d ≠ kind.id x) ∧ x ∈ kind.inForce base log := by
  have hpending : ∀ x, x ∈ p.pending ↔ ∃ d ∈ ds, kind.node base log d = some x := by
    intro x
    rw [hplan.pending]
    simp [node]
  have hpairwise : p.pending.Pairwise fun a b => kind.sameIdentity b a = false := by
    refine (pairwise_map.mp (hplan.ids nodup_nil)).imp_of_mem ?_
    intro a b ha hb hne
    obtain ⟨d, hd, ha⟩ := (hpending a).mp ha
    obtain ⟨d', hd', hb⟩ := (hpending b).mp hb
    refine pushed_apart rule hbase hds hd' hd hb ha ?_
    rw [← (node_some rule ha).1, ← (node_some rule hb).1]
    exact Ne.symm hne
  refine (mem_live_push sameIdentity_refl hpairwise).trans ?_
  rw [hpending]
  constructor
  · rintro (⟨d, hd, hx⟩ | ⟨hx, hapart⟩)
    · exact .inl ⟨d, hd, (node_some rule hx).1.symm, .inl hx⟩
    · by_cases hmet : ∃ d ∈ ds, kind.id d = kind.id x
      · obtain ⟨d, hd, hdx⟩ := hmet
        have hlookup : kind.lookup base log (kind.id d) = some x := hbase.lookup_eq_some.mpr ⟨hx, hdx.symm⟩
        refine .inl ⟨d, hd, hdx, .inr ⟨?_, hlookup⟩⟩
        -- a node pushed for the id would shadow what is in force under it
        cases hnode : kind.node base log d with
        | none => rfl
        | some m =>
          have hclash := hapart m ((hpending m).mpr ⟨d, hd, hnode⟩)
          exact absurd ((node_some rule hnode).1.trans hdx) (sameIdentity_eq_false.mp hclash).1
      · exact .inr ⟨fun d hd hdx => hmet ⟨d, hd, hdx⟩, hx⟩
  · rintro (⟨d, hd, hdx, hx | ⟨hnone, hx⟩⟩ | ⟨hne, hx⟩)
    · exact .inl ⟨d, hd, hx⟩
    · refine .inr ⟨(lookup_mem hx).1, ?_⟩
      intro m hm
      obtain ⟨d', hd', hm⟩ := (hpending m).mp hm
      refine pushed_identity rule hbase hds hd' hm (lookup_mem hx).1 ?_
      intro heq
      rw [hds.same d hd d' hd' (.inl (hdx.trans heq)), hm] at hnone
      cases hnone
    · refine .inr ⟨hx, ?_⟩
      intro m hm
      obtain ⟨d', hd', hm⟩ := (hpending m).mp hm
      exact pushed_identity rule hbase hds hd' hm hx (Ne.symm (hne d' hd'))

theorem core_settled_eq (h : kind.Mirrors core defs base log) (hsorted : kind.ById defs) (htidy : ∀ e ∈ defs, tidy e)
    (hx : kind.Settles base log d x) : core (kind.settled (kind.find defs (kind.id d)) d) = core x := by
  unfold Settles node at hx
  have hfind := h.find_eq rule hbase hsorted (kind.id d)
  generalize kind.lookup base log (kind.id d) = o at hx hfind
  cases o with
  | none =>
    rw [Option.map_none, Option.map_eq_none_iff] at hfind
    rw [hfind]
    obtain hx | ⟨-, hx⟩ := hx
    · cases hx
      rfl
    · cases hx
  | some e =>
    obtain ⟨e', he', hcore⟩ := Option.map_eq_some_iff.mp hfind
    rw [he', rule.core_settled (htidy e' (mem_of_find he').1), rule.core_merge d hcore]
    obtain hx | ⟨hnone, hx⟩ := hx
    · rw [pushed] at hx
      split at hx
      case isTrue => cases hx
      cases hx
      rfl
    · cases hx
      exact rule.pushed_eq_none.mp hnone

/-- Both registries stay alike over a snapshot, whatever order the hosted one merges it in. -/
theorem Mirrors.merge (h : kind.Mirrors core defs base log) (hsorted : kind.ById defs) (htidy : ∀ e ∈ defs, tidy e)
    (hds : kind.Apart base log ds) (hplan : Planned kind (kind.lookup base log) ds ⟨[], 0, 0, bytes⟩ p) {defs' : List δ}
    (hdefs' : ∀ x, x ∈ defs' ↔ (∃ d ∈ ds, kind.id d = kind.id x ∧ x = kind.settled (kind.find defs (kind.id d)) d) ∨
        (∀ d ∈ ds, kind.id d ≠ kind.id x) ∧ x ∈ defs) :
    kind.Mirrors core defs' base (p.pending.foldl (fun log d => d :: log) log) := by
  intro v
  rw [mem_map, mem_map]
  constructor
  · rintro ⟨x, hx, rfl⟩
    obtain ⟨d, hd, hdx, rfl⟩ | ⟨hne, hx⟩ := (hdefs' x).mp hx
    · obtain ⟨y, hid, hy⟩ := exists_settles rule base log d
      exact ⟨y, (mem_published rule hbase hds hplan).mpr (.inl ⟨d, hd, hid.symm, hy⟩),
        (core_settled_eq rule hbase h hsorted htidy hy).symm⟩
    · obtain ⟨y, hy, hcore⟩ := h.of_catalog hx
      refine ⟨y, (mem_published rule hbase hds hplan).mpr (.inr ⟨?_, hy⟩), hcore⟩
      intro d hd
      rw [rule.id_eq hcore]
      exact hne d hd
  · rintro ⟨y, hy, rfl⟩
    obtain ⟨d, hd, hdy, hy⟩ | ⟨hne, hy⟩ := (mem_published rule hbase hds hplan).mp hy
    · have hcore := core_settled_eq rule hbase h hsorted htidy hy
      refine ⟨_, (hdefs' _).mpr (.inl ⟨d, hd, ?_, rfl⟩), hcore⟩
      rw [rule.id_eq hcore]
      exact hdy
    · obtain ⟨x, hx, hcore⟩ := h.of_overlay hy
      refine ⟨x, (hdefs' x).mpr (.inr ⟨?_, hx⟩), hcore⟩
      intro d hd
      rw [rule.id_eq hcore]
      exact hne d hd

/-- Both take the snapshot to be a change, or neither does. -/
theorem Mirrors.changed_iff (h : kind.Mirrors core defs base log) (hsorted : kind.ById defs)
    (htidy : ∀ e ∈ defs, tidy e) (hplan : Planned kind (kind.lookup base log) ds ⟨[], 0, 0, bytes⟩ p) :
    p.added + p.replaced ≠ 0 ↔ ∃ d ∈ ds, ¬ kind.Absorbed (kind.find defs (kind.id d)) d := by
  have hstep : ∀ d, (∃ x, kind.pushed (kind.lookup base log (kind.id d)) d = some x) ↔
      ¬ kind.Absorbed (kind.find defs (kind.id d)) d := by
    intro d
    have hfind := h.find_eq rule hbase hsorted (kind.id d)
    cases hlookup : kind.lookup base log (kind.id d) with
    | none =>
      rw [hlookup, Option.map_none, Option.map_eq_none_iff] at hfind
      rw [hfind]
      refine iff_of_true ⟨d, rfl⟩ ?_
      rintro ⟨e, he, -⟩
      cases he
    | some e =>
      rw [hlookup] at hfind
      obtain ⟨e', he', hcore⟩ := Option.map_eq_some_iff.mp hfind
      rw [he', rule.absorbed_iff (htidy e' (mem_of_find he').1), rule.core_merge d hcore, hcore,
        ← rule.pushed_eq_none, ← Option.ne_none_iff_exists']
  rw [hplan.count rfl, Ne, length_eq_zero_iff, eq_nil_iff_forall_not_mem, not_forall]
  simp only [hplan.pending, ← hstep]
  constructor
  · rintro ⟨x, hx⟩
    obtain hx | ⟨d, hd, -, hx⟩ := not_not.mp hx
    · cases hx
    · exact ⟨d, hd, x, hx⟩
  · rintro ⟨d, hd, x, hx⟩
    exact ⟨x, not_not.mpr (.inr ⟨d, hd, by simp, hx⟩)⟩

end Mirrors

end DefinitionKind

end SedsNet
