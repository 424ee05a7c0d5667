import SedsNet.SchemaMerge
import SedsNet.CommutingFold

/-! # Catalogs of definitions

Endpoints and types are kept in catalogs, lists with ascending ids.  `mergeDefinition_spec` describes
one merge by what it does to lookups.  A kind of definitions is `Joining` if its merges can be
followed on a view of the definitions by a join that commutes and absorbs repeats; then the views
after many merges depend only on which definitions were merged (`Joining.views_eq`), and every merged
definition is absorbed in the end (`Joining.absorbed_mergeAll`). -/

namespace SedsNet

open CommutingFold List

/-! ### Sorted lists without repeats -/

section Dedup

variable {α κ : Type} [DecidableEq κ] (key : α → κ)

theorem dedupByKey_subset (l : List α) : dedupByKey key l ⊆ l := by
  induction l with
  | nil => exact List.Subset.refl _
  | cons a l ih =>
    rw [dedupByKey]
    split
    · simp
    · rename_i b rest hcons
      rw [hcons] at ih
      split
      · exact cons_subset_cons a (List.Subset.trans (subset_cons_self b rest) ih)
      · exact cons_subset_cons a ih

/-- Nothing is lost if equal keys mean equal elements. -/
theorem mem_dedupByKey {l : List α} (h : ∀ a ∈ l, ∀ b ∈ l, key a = key b → a = b) {x : α} :
    x ∈ dedupByKey key l ↔ x ∈ l := by
  refine ⟨fun hx => dedupByKey_subset key l hx, ?_⟩
  induction l with
  | nil => exact id
  | cons a l ih =>
    intro hx
    have hrest : x ∈ l → x ∈ dedupByKey key l :=
      ih fun b hb c hc => h b (mem_cons_of_mem a hb) c (mem_cons_of_mem a hc)
    have hsub := dedupByKey_subset key l
    rw [dedupByKey]
    split
    · rename_i hnil
      rw [hnil] at hrest
      obtain rfl | hx := mem_cons.mp hx
      · exact mem_cons_self
      · cases hrest hx
    · rename_i b rest hcons
      rw [hcons] at hrest hsub
      split
      · rename_i hkey
        have hba : b = a := h b (mem_cons_of_mem a (hsub mem_cons_self)) a
          mem_cons_self hkey
        rw [hba] at hrest
        obtain rfl | hx := mem_cons.mp hx
        · exact mem_cons_self
        · exact hrest hx
      · obtain rfl | hx := mem_cons.mp hx
        · exact mem_cons_self
        · exact mem_cons_of_mem a (hrest hx)

/-- Of a sorted list one element per key is left. -/
theorem dedupByKey_pairwise {le lt : κ → κ → Prop} (hstrict : ∀ a b, le a b → a ≠ b → lt a b)
    (htrans : ∀ a b c, lt a b → lt b c → lt a c) {l : List α} (h : l.Pairwise fun a b => le (key a) (key b)) :
    (dedupByKey key l).Pairwise fun a b => lt (key a) (key b) := by
  induction l with
  | nil => exact List.Pairwise.nil
  | cons a l ih =>
    obtain ⟨hhead, htail⟩ := pairwise_cons.mp h
    have hrest := ih htail
    have hle : ∀ b ∈ dedupByKey key l, le (key a) (key b) := fun b hb => hhead b (dedupByKey_subset key l hb)
    rw [dedupByKey]
    split
    · exact pairwise_singleton _ a
    rename_i b rest hcons
    rw [hcons] at hrest hle
    obtain ⟨hfirst, hothers⟩ := pairwise_cons.mp hrest
    split
    · rename_i hkey
      refine pairwise_cons.mpr ⟨?_, hothers⟩
      rw [← hkey]
      exact hfirst
    · rename_i hkey
      have hlt : lt (key a) (key b) := hstrict _ _ (hle b mem_cons_self) (Ne.symm hkey)
      refine pairwise_cons.mpr ⟨?_, hrest⟩
      intro c hc
      obtain rfl | hc := mem_cons.mp hc
      · exact hlt
      · exact htrans _ _ _ hlt (hfirst c hc)

theorem dedupByKey_of_nodup {l : List α} (h : (l.map key).Nodup) : dedupByKey key l = l := by
  induction l with
  | nil => rfl
  | cons a l ih =>
    rw [map_cons, nodup_cons] at h
    rw [dedupByKey, ih h.2]
    cases l with
    | nil => rfl
    | cons b rest => exact if_neg fun hkey : key b = key a => h.1 (hkey ▸ mem_map_of_mem mem_cons_self)

/-- The elements of a list to which missing ones are pushed. -/
theorem mem_foldl_push {α : Type} [DecidableEq α] {a b : List α} {x : α} :
    x ∈ b.foldl (fun l y => if y ∈ l then l else l ++ [y]) a ↔ x ∈ a ∨ x ∈ b := by
  induction b generalizing a with
  | nil => simp
  | cons y b ih =>
    rw [foldl_cons, ih, mem_cons]
    split
    · rename_i hmem
      constructor
      · exact fun h => h.imp_right .inr
      · rintro (hx | rfl | hx)
        · exact .inl hx
        · exact .inl hmem
        · exact .inr hx
    · simp [or_assoc]

end Dedup

instance leTotal : Std.Total fun a b : UInt32 => a ≤ b := ⟨UInt32.le_total⟩

instance leTrans : IsTrans UInt32 fun a b => a ≤ b := ⟨fun _ _ _ => UInt32.le_trans⟩

theorem dedupByKey_strict {α : Type} (key : α → UInt32) {l : List α} (h : l.Pairwise fun a b => key a ≤ key b) :
    (dedupByKey key l).Pairwise fun a b => key a < key b :=
  dedupByKey_pairwise key (fun _ _ => UInt32.lt_of_le_of_ne) (fun _ _ _ => UInt32.lt_trans) h

theorem mem_unionEndpoints {a b : List DataEndpoint} {x : DataEndpoint} : x ∈ unionEndpoints a b ↔ x ∈ a ∨ x ∈ b := by
  rw [← mem_foldl_push]
  exact (mem_dedupByKey id fun _ _ _ _ h => h).trans (mem_insertionSort _)

theorem unionEndpoints_strict (a b : List DataEndpoint) : (unionEndpoints a b).Pairwise (· < ·) :=
  dedupByKey_strict id (pairwise_insertionSort _ _)

theorem unionEndpoints_of_subset {a b : List DataEndpoint} (ha : a.Pairwise (· < ·)) (hb : b ⊆ a) :
    unionEndpoints a b = a := by
  have hpushed : b.foldl (fun eps ep => if ep ∈ eps then eps else eps ++ [ep]) a = a := by
    induction b with
    | nil => rfl
    | cons ep b ih =>
      rw [foldl_cons, if_pos (hb mem_cons_self)]
      exact ih fun x hx => hb (mem_cons_of_mem ep hx)
  have hsorted : a.insertionSort (· ≤ ·) = a :=
    List.Pairwise.insertionSort_eq (ha.imp fun h => UInt32.le_of_lt h)
  have hnodup : (a.map id).Nodup := by
    rw [map_id]
    exact ha.imp fun h => UInt32.ne_of_lt h
  simp only [unionEndpoints, hpushed, hsorted, dedupByKey_of_nodup id hnodup]

/-- The decisions that a report counts as changes. -/
def SchemaMergeDecision.changes : SchemaMergeDecision → Bool
  | .added | .replacedLocal => true
  | .unchanged | .keptLocal => false

/-! ### Catalogs -/

namespace DefinitionKind

variable {δ : Type} (kind : DefinitionKind δ)

/-- The ids are strictly ascending. -/
def ById (defs : List δ) : Prop := defs.Pairwise fun a b => kind.id a < kind.id b

def find (defs : List δ) (i : UInt32) : Option δ := defs.find? fun e => kind.id e == i

variable {kind} {defs : List δ}

theorem ById.nodup_ids (h : kind.ById defs) : (defs.map kind.id).Nodup :=
  pairwise_map.mpr (h.imp UInt32.ne_of_lt)

theorem ById.eq_of_id (h : kind.ById defs) {a b : δ} (ha : a ∈ defs) (hb : b ∈ defs)
    (hid : kind.id a = kind.id b) : a = b :=
  inj_on_of_nodup_map h.nodup_ids ha hb hid

variable {e : δ}

theorem mem_of_find {i : UInt32} (h : kind.find defs i = some e) : e ∈ defs ∧ kind.id e = i :=
  ⟨mem_of_find?_eq_some h, by simpa using List.find?_some h⟩

theorem ById.find_of_mem (h : kind.ById defs) (he : e ∈ defs) : kind.find defs (kind.id e) = some e := by
  cases hfind : kind.find defs (kind.id e) with
  | none =>
    have hne := List.find?_eq_none.mp hfind e he
    simp at hne
  | some e' =>
    obtain ⟨hmem, hid⟩ := mem_of_find hfind
    rw [h.eq_of_id hmem he hid]

variable {d : δ}

theorem find_id : ∀ e ∈ kind.find defs (kind.id d), kind.id e = kind.id d :=
  fun _ he => (mem_of_find he).2

theorem find_none {i : UInt32} (h : kind.find defs i = none) (he : e ∈ defs) : kind.id e ≠ i := by
  simpa using List.find?_eq_none.mp h e he

instance : Std.Total fun a b : δ => kind.id a ≤ kind.id b := ⟨fun a b => UInt32.le_total (kind.id a) (kind.id b)⟩

instance : IsTrans δ fun a b : δ => kind.id a ≤ kind.id b := ⟨fun _ _ _ => UInt32.le_trans⟩

theorem mem_sortById : e ∈ kind.sortById defs ↔ e ∈ defs :=
  mem_insertionSort _

theorem byId_sortById (h : (defs.map kind.id).Nodup) : kind.ById (kind.sortById defs) := by
  have hnodup : ((kind.sortById defs).map kind.id).Nodup :=
    ((perm_insertionSort _ defs).map kind.id).nodup_iff.mpr h
  have hsorted := pairwise_insertionSort (fun a b : δ => kind.id a ≤ kind.id b) defs
  have hne : (kind.sortById defs).Pairwise fun a b => kind.id a ≠ kind.id b := pairwise_map.mp hnodup
  exact (hsorted.and hne).imp fun h => UInt32.lt_of_le_of_ne h.1 h.2

theorem ById.sortById_eq (h : kind.ById defs) : kind.sortById defs = defs :=
  List.Pairwise.insertionSort_eq (h.imp UInt32.le_of_lt)

/-! ### What one merge does -/

variable (kind) in
/-- The definition of an id after a merge. -/
def settled (existing : Option δ) (d : δ) : δ :=
  match existing with
  | none => d
  | some e =>
    if kind.equivalent e d then e
    else if kind.equivalent e (kind.mergeMetadata e d) then e
    else kind.mergeMetadata e d

variable (kind) in
/-- The merge of the definition into this one is no change. -/
def Absorbed (existing : Option δ) (d : δ) : Prop :=
  ∃ e, existing = some e ∧
    (kind.equivalent e d = true ∨ kind.equivalent e (kind.mergeMetadata e d) = true)

variable (kind) in
/-- The definition meets the catalog under one identity only, and keeps it. -/
structure Fits (defs : List δ) (d : δ) : Prop where
  name : ∀ e ∈ defs, kind.name e = kind.name d → kind.id e = kind.id d
  id : ∀ e ∈ defs, kind.id e = kind.id d → kind.id (kind.mergeMetadata e d) = kind.id d

theorem conflict_of_find_none (hfits : kind.Fits defs d)
    (h : kind.find defs (kind.id d) = none) : kind.conflict defs d = none := by
  have hid : defs.findIdx? (fun e => kind.id e == kind.id d) = none := by
    rw [List.findIdx?_eq_none_iff]
    intro e he
    simpa using find_none h he
  have hname : defs.findIdx? (fun e => kind.name e == kind.name d) = none := by
    rw [List.findIdx?_eq_none_iff]
    intro e he
    have hne : kind.name e ≠ kind.name d := fun hname => find_none h he (hfits.name e he hname)
    simpa using hne
  rw [conflict, hid, hname]

variable {idx : ℕ}

theorem getElem?_of_findIdx? {p : δ → Bool}
    (h : defs.findIdx? p = some idx) : ∃ e, defs[idx]? = some e ∧ e ∈ defs ∧ p e = true := by
  obtain ⟨hlt, hp, _⟩ := List.findIdx?_eq_some_iff_getElem.mp h
  exact ⟨_, List.getElem?_eq_getElem hlt, getElem_mem hlt, hp⟩

/-- The position found by the id or by the name holds the definition of that id. -/
theorem conflict_of_find_some (hsorted : kind.ById defs)
    (hfits : kind.Fits defs d) (h : kind.find defs (kind.id d) = some e) :
    ∃ idx, kind.conflict defs d = some idx ∧ defs[idx]? = some e := by
  obtain ⟨hmem, hid⟩ := mem_of_find h
  have hsame : ∀ e' ∈ defs, kind.id e' = kind.id d → e' = e := by
    intro e' he' hid'
    exact hsorted.eq_of_id he' hmem (hid'.trans hid.symm)
  have hbyId : ∀ idx, defs.findIdx? (fun e => kind.id e == kind.id d) = some idx →
      defs[idx]? = some e := by
    intro idx hidx
    obtain ⟨e', hget, he', hp⟩ := getElem?_of_findIdx? hidx
    rw [hget, hsame e' he' (by simpa using hp)]
  have hbyName : ∀ idx, defs.findIdx? (fun e => kind.name e == kind.name d) = some idx →
      defs[idx]? = some e := by
    intro idx hidx
    obtain ⟨e', hget, he', hp⟩ := getElem?_of_findIdx? hidx
    rw [hget, hsame e' he' (hfits.name e' he' (by simpa using hp))]
  unfold conflict
  split
  · rename_i a b ha hb
    refine ⟨min a b, rfl, ?_⟩
    obtain hmin | hmin := min_choice a b
    · rw [hmin]
      exact hbyId a ha
    · rw [hmin]
      exact hbyName b hb
  · rename_i a ha _
    exact ⟨a, rfl, hbyId a ha⟩
  · rename_i b _ hb
    exact ⟨b, rfl, hbyName b hb⟩
  · rename_i hnone _
    have hne := List.findIdx?_eq_none_iff.mp hnone e hmem
    simp [hid] at hne

theorem ById.set (h : kind.ById defs) {e m : δ} (hidx : defs[idx]? = some e)
    (hid : kind.id m = kind.id e) : kind.ById (defs.set idx m) := by
  have hmap : (defs.set idx m).map kind.id = defs.map kind.id := by
    obtain ⟨hlt, rfl⟩ := List.getElem?_eq_some_iff.mp hidx
    rw [map_set, hid, ← getElem_map kind.id (h := by simpa using hlt), set_getElem_self]
  have hpair : (defs.map kind.id).Pairwise (· < ·) := pairwise_map.mpr h
  rw [← hmap] at hpair
  exact pairwise_map.mp hpair

theorem ById.find_set (h : kind.ById defs) {e m : δ}
    (hidx : defs[idx]? = some e) (hid : kind.id m = kind.id e) (i : UInt32) :
    kind.find (defs.set idx m) i = if i = kind.id e then some m else kind.find defs i := by
  obtain ⟨hlt, he⟩ := List.getElem?_eq_some_iff.mp hidx
  have hm : m ∈ defs.set idx m := mem_set hlt m
  have hset := h.set hidx hid
  split
  · rename_i hi
    rw [hi, ← hid]
    exact hset.find_of_mem hm
  · rename_i hi
    cases hfind : kind.find defs i with
    | none =>
      apply List.find?_eq_none.mpr
      intro x hx
      obtain hx | rfl := mem_or_eq_of_mem_set hx
      · simpa using find_none hfind hx
      · simpa [hid] using Ne.symm hi
    | some x =>
      obtain ⟨hx, rfl⟩ := mem_of_find hfind
      apply hset.find_of_mem
      obtain ⟨j, hj, rfl⟩ := getElem_of_mem hx
      refine mem_of_getElem? (i := j) ?_
      rw [List.getElem?_set_ne, List.getElem?_eq_getElem hj]
      rintro rfl
      exact hi (by rw [← he])

theorem ById.find_append (h : kind.ById defs) (hnew : kind.find defs (kind.id d) = none) :
    kind.ById (kind.sortById (defs ++ [d])) ∧ ∀ i, kind.find (kind.sortById (defs ++ [d])) i =
        if i = kind.id d then some d else kind.find defs i := by
  have hnodup : ((defs ++ [d]).map kind.id).Nodup := by
    rw [map_append, nodup_append]
    refine ⟨h.nodup_ids, nodup_singleton _, ?_⟩
    intro i hi j hj
    obtain ⟨e, he, rfl⟩ := mem_map.mp hi
    rw [mem_singleton.mp hj]
    exact find_none hnew he
  have hsorted := byId_sortById hnodup
  refine ⟨hsorted, ?_⟩
  intro i
  split
  · rename_i hi
    rw [hi]
    exact hsorted.find_of_mem (mem_sortById.mpr (mem_append_right _ (mem_singleton_self d)))
  · rename_i hi
    cases hfind : kind.find defs i with
    | none =>
      apply List.find?_eq_none.mpr
      intro x hx
      obtain hx | hx := mem_append.mp (mem_sortById.mp hx)
      · simpa using find_none hfind hx
      · rw [mem_singleton.mp hx]
        simpa using Ne.symm hi
    | some x =>
      obtain ⟨hx, rfl⟩ := mem_of_find hfind
      exact hsorted.find_of_mem (mem_sortById.mpr (mem_append_left _ hx))

variable (kind) in
/-- A registration finds the definition, or adds it under a fresh id and name. -/
def Registered (defs : List δ) (d : δ) (defs' : List δ) : Prop :=
  d ∈ defs ∧ defs' = defs ∨ (∀ e ∈ defs, kind.id e ≠ kind.id d) ∧ (∀ e ∈ defs, kind.name e ≠ kind.name d) ∧
    defs' = kind.sortById (defs ++ [d])

theorem Registered.mem_iff {defs' : List δ} (h : kind.Registered defs d defs') : e ∈ defs' ↔ e ∈ defs ∨ e = d := by
  obtain ⟨hd, rfl⟩ | ⟨-, -, rfl⟩ := h
  · refine ⟨.inl, ?_⟩
    rintro (he | rfl)
    · exact he
    · exact hd
  · rw [mem_sortById, mem_append, mem_singleton]

theorem ById.insert (h : kind.ById defs) (hfresh : ∀ e ∈ defs, kind.id e ≠ kind.id d) :
    kind.ById (kind.sortById (defs ++ [d])) := by
  refine (h.find_append (List.find?_eq_none.mpr ?_)).1
  intro e he
  simpa using hfresh e he

variable (kind) in
/-- One merge, in terms of lookups. -/
structure MergeSpec (defs : List δ) (d : δ) (r : List δ × SchemaMergeDecision) : Prop where
  sorted : kind.ById r.1
  find : ∀ i, kind.find r.1 i =
    if i = kind.id d then some (kind.settled (kind.find defs (kind.id d)) d) else kind.find defs i
  absorbed : kind.Absorbed (kind.find defs (kind.id d)) d →
    r.1 = defs ∧ (r.2 = .unchanged ∨ r.2 = .keptLocal)

theorem mergeDefinition_spec (hsorted : kind.ById defs)
    (hfits : kind.Fits defs d) : kind.MergeSpec defs d (kind.mergeDefinition defs d) := by
  unfold mergeDefinition
  cases hfind : kind.find defs (kind.id d) with
  | none =>
    rw [conflict_of_find_none hfits hfind]
    obtain ⟨hs, hlookup⟩ := hsorted.find_append hfind
    refine ⟨hs, ?_, ?_⟩
    · rw [hfind]
      exact hlookup
    · rw [hfind]
      rintro ⟨e, he, _⟩
      cases he
  | some e =>
    obtain ⟨idx, hidx, hget⟩ := conflict_of_find_some hsorted hfits hfind
    obtain ⟨hmem, hid⟩ := mem_of_find hfind
    simp only [hidx, hget]
    have hkept : ∀ i, kind.find defs i = if i = kind.id d then some e else kind.find defs i := by
      intro i
      split
      · rename_i hi
        rw [hi, hfind]
      · rfl
    split
    · rename_i heq
      refine ⟨hsorted, ?_, fun _ => ⟨rfl, .inl rfl⟩⟩
      simpa only [hfind, settled, heq, if_true] using hkept
    · rename_i heq
      split
      · rename_i hmerged
        rw [Bool.not_eq_true'] at hmerged
        have hmid : kind.id (kind.mergeMetadata e d) = kind.id e :=
          (hfits.id e hmem hid).trans hid.symm
        have hset := hsorted.set hget hmid
        rw [hset.sortById_eq]
        refine ⟨hset, ?_, ?_⟩
        · intro i
          rw [hsorted.find_set hget hmid, hid, hfind]
          simp only [settled, heq, hmerged]
          rfl
        · rw [hfind]
          rintro ⟨e', he', habsorbed⟩
          cases he'
          exact absurd habsorbed (by simp [heq, hmerged])
      · rename_i hmerged
        rw [Bool.not_eq_true'] at hmerged
        refine ⟨hsorted, ?_, fun _ => ⟨rfl, .inr rfl⟩⟩
        simpa only [hfind, settled, heq, hmerged, if_true, Bool.false_eq_true, if_false] using hkept

/-! ### What many merges do -/

variable (kind) in
/-- The merges of a list of definitions. -/
def mergeAll (defs ds : List δ) : List δ := ds.foldl (fun defs d => (kind.mergeDefinition defs d).1) defs

variable (kind) in
/-- What the merges of a list of definitions decide, one after the other. -/
def decisions : List δ → List δ → List SchemaMergeDecision
  | _, [] => []
  | defs, d :: ds => (kind.mergeDefinition defs d).2 :: decisions (kind.mergeDefinition defs d).1 ds

/-- What the catalog absorbs is merged without a change. -/
theorem mergeAll_absorbed (hsorted : kind.ById defs) {ds : List δ} (hfits : ∀ d ∈ ds, kind.Fits defs d)
    (h : ∀ d ∈ ds, kind.Absorbed (kind.find defs (kind.id d)) d) :
    kind.mergeAll defs ds = defs ∧ (kind.decisions defs ds).any SchemaMergeDecision.changes = false := by
  induction ds with
  | nil => exact ⟨rfl, rfl⟩
  | cons d ds ih =>
    rw [forall_mem_cons] at hfits h
    obtain ⟨hsame, hdecision⟩ := (mergeDefinition_spec hsorted hfits.1).absorbed h.1
    obtain ⟨hall, hnone⟩ := ih hfits.2 h.2
    rw [mergeAll, foldl_cons, decisions, any_cons, hsame, hnone]
    refine ⟨hall, ?_⟩
    obtain hdecision | hdecision := hdecision
    · rw [hdecision]
      rfl
    · rw [hdecision]
      rfl

variable (kind) in
/-- Every identity of the catalog is known to be compatible with the definitions of `S`. -/
def Known (S : δ → Prop) (defs : List δ) : Prop :=
  ∀ e ∈ defs, ∀ d, S d → kind.name e = kind.name d → kind.id e = kind.id d

variable (kind) in
/-- A kind of definitions whose merges can be followed on a view of them: `join` is what a merge does
to the view, it commutes and absorbs repeats on the views of `ok`, and what was merged stays
absorbed. -/
structure Joining {V : Type} (view : δ → V) (join : Option V → δ → V) (ok : UInt32 → Option V → Prop)
    (S : δ → Prop) : Prop where
  id_merge : ∀ {e d}, kind.id e = kind.id d → kind.id (kind.mergeMetadata e d) = kind.id d
  name_settled : ∀ {o d}, (∀ e ∈ o, kind.id e = kind.id d) →
    kind.name (kind.settled o d) = kind.name d ∨ ∃ e ∈ o, kind.name (kind.settled o d) = kind.name e
  same_name : ∀ {d d'}, S d → S d' → kind.name d = kind.name d' → kind.id d = kind.id d'
  joins : ∀ k, Absorbing (fun o d => some (join o d)) (ok k) fun d => S d ∧ kind.id d = k
  view_settled : ∀ {o d}, S d → (∀ e ∈ o, kind.id e = kind.id d) → ok (kind.id d) (o.map view) →
    view (kind.settled o d) = join (o.map view) d
  absorbs : ∀ {o d}, S d → (∀ e ∈ o, kind.id e = kind.id d) → ok (kind.id d) (o.map view) →
    kind.Absorbed (some (kind.settled o d)) d
  stays : ∀ {e d d'}, S d → S d' → kind.id e = kind.id d → kind.id d' = kind.id d →
    ok (kind.id d) (some (view e)) → kind.Absorbed (some e) d →
    kind.Absorbed (some (kind.settled (some e) d')) d

namespace Joining

variable {V : Type} {view : δ → V} {join : Option V → δ → V} {ok : UInt32 → Option V → Prop}
  {S : δ → Prop} (h : kind.Joining view join ok S)

/-- The view of every id. -/
def views (kind : DefinitionKind δ) (view : δ → V) (defs : List δ) (i : UInt32) : Option V :=
  (kind.find defs i).map view

variable (view) in
theorem views_of_mem {defs : List δ} (hsorted : kind.ById defs) {e : δ} (he : e ∈ defs) :
    views kind view defs (kind.id e) = some (view e) := by
  rw [views, hsorted.find_of_mem he, Option.map_some]

theorem mem_of_views {defs : List δ} {k : UInt32} {v : V} (hv : views kind view defs k = some v) :
    ∃ e ∈ defs, kind.id e = k ∧ view e = v := by
  obtain ⟨e, he, hv⟩ := Option.map_eq_some_iff.mp hv
  exact ⟨e, (mem_of_find he).1, (mem_of_find he).2, hv⟩

include h

variable {d : δ}

theorem id_settled {o : Option δ} (ho : ∀ e ∈ o, kind.id e = kind.id d) : kind.id (kind.settled o d) = kind.id d := by
  cases o with
  | none => rfl
  | some e =>
    have hid : kind.id e = kind.id d := ho e rfl
    simp only [settled]
    split
    · exact hid
    · split
      · exact hid
      · exact h.id_merge hid

variable {defs : List δ}

theorem fits (hknown : kind.Known S defs) (hd : S d) : kind.Fits defs d :=
  ⟨fun e he => hknown e he d hd, fun _ _ hid => h.id_merge hid⟩

theorem known_merge (hsorted : kind.ById defs) (hknown : kind.Known S defs)
    (hd : S d) : kind.Known S (kind.mergeDefinition defs d).1 := by
  have hspec := mergeDefinition_spec hsorted (h.fits hknown hd)
  intro e he d' hd' hname
  have hfind := hspec.find (kind.id e)
  rw [hspec.sorted.find_of_mem he] at hfind
  split at hfind
  · cases hfind
    rw [h.id_settled find_id]
    obtain hsame | ⟨e', he', hsame⟩ := h.name_settled (find_id)
    · exact h.same_name hd hd' (hsame.symm.trans hname)
    · have hid' := hknown e' (mem_of_find he').1 d' hd' (hsame.symm.trans hname)
      rw [← hid', find_id e' he']
  · exact hknown e (mem_of_find hfind.symm).1 d' hd' hname

omit h in
variable (kind view ok S) in
/-- The catalog goes with the definitions of `S`, so that the joins describe their merges. -/
structure Good (defs : List δ) : Prop where
  sorted : kind.ById defs
  known : kind.Known S defs
  viewed : ∀ k, ok k (views kind view defs k)

/-- A merge acts on the views as the join does. -/
theorem views_merge (hgood : Good kind view ok S defs) (hd : S d) : views kind view (kind.mergeDefinition defs d).1 =
      keyed kind.id (fun o d => some (join o d)) (views kind view defs) d := by
  have hspec := mergeDefinition_spec hgood.sorted (h.fits hgood.known hd)
  funext i
  rw [views, hspec.find i]
  by_cases hi : i = kind.id d
  · subst hi
    rw [if_pos rfl, keyed_same, Option.map_some, h.view_settled hd find_id (hgood.viewed _)]
    rfl
  · rw [if_neg hi, keyed_of_ne _ _ _ hi]
    rfl

theorem good_merge (hgood : Good kind view ok S defs) (hd : S d) :
    Good kind view ok S (kind.mergeDefinition defs d).1 := by
  refine ⟨(mergeDefinition_spec hgood.sorted (h.fits hgood.known hd)).sorted,
    h.known_merge hgood.sorted hgood.known hd, ?_⟩
  rw [h.views_merge hgood hd]
  exact (Absorbing.keyed h.joins).keeps hgood.viewed hd

variable {ds : List δ}

/-- The catalog after any number of merges. -/
theorem mergeAll_spec (hgood : Good kind view ok S defs) (hds : ∀ d ∈ ds, S d) :
    Good kind view ok S (kind.mergeAll defs ds) ∧ views kind view (kind.mergeAll defs ds) =
        ds.foldl (keyed kind.id fun o d => some (join o d)) (views kind view defs) := by
  induction ds generalizing defs with
  | nil => exact ⟨hgood, rfl⟩
  | cons d ds ih =>
    rw [forall_mem_cons] at hds
    obtain ⟨hmerged, hviews⟩ := ih (h.good_merge hgood hds.1) hds.2
    refine ⟨hmerged, ?_⟩
    rw [foldl_cons, ← h.views_merge hgood hds.1]
    exact hviews

/-- Which definitions were merged decides what is seen, not their order or number. -/
theorem views_eq {ds ds' : List δ} (hgood : Good kind view ok S defs) (hds : ∀ d ∈ ds, S d)
    (hsame : ∀ d, d ∈ ds ↔ d ∈ ds') :
    views kind view (kind.mergeAll defs ds) = views kind view (kind.mergeAll defs ds') := by
  have hds' : ∀ d ∈ ds', S d := fun d hd => hds d ((hsame d).mpr hd)
  rw [(h.mergeAll_spec hgood hds).2, (h.mergeAll_spec hgood hds').2]
  exact (Absorbing.keyed h.joins).foldl_eq_of_mem_iff hds hgood.viewed hsame

omit h in
/-- The views of all ids are the catalog up to what is not seen. -/
theorem map_view_eq {defs defs' : List δ} (hsorted : kind.ById defs) (hsorted' : kind.ById defs')
    (hviews : views kind view defs = views kind view defs') :
    defs.map (fun e => (kind.id e, view e)) = defs'.map fun e => (kind.id e, view e) := by
  have hmem : ∀ {l : List δ}, kind.ById l → ∀ i v,
      (i, v) ∈ l.map (fun e => (kind.id e, view e)) ↔ views kind view l i = some v := by
    intro l hl i v
    rw [mem_map, views, Option.map_eq_some_iff]
    constructor
    · rintro ⟨e, he, heq⟩
      cases heq
      exact ⟨e, hl.find_of_mem he, rfl⟩
    · rintro ⟨e, he, rfl⟩
      obtain ⟨hmem, rfl⟩ := mem_of_find he
      exact ⟨e, hmem, rfl⟩
  let r : UInt32 × V → UInt32 × V → Prop := fun a b => a.1 < b.1
  have : Std.Irrefl r := ⟨fun a => UInt32.lt_irrefl a.1⟩
  have : Std.Antisymm r := ⟨fun a b hab hba => absurd (UInt32.lt_trans hab hba) (UInt32.lt_irrefl a.1)⟩
  refine List.Pairwise.eq_of_mem_iff (r := r) (pairwise_map.mpr hsorted)
    (pairwise_map.mpr hsorted') ?_
  rintro ⟨i, v⟩
  rw [hmem hsorted, hmem hsorted', hviews]

variable (hgood : Good kind view ok S defs) (hd : S d)

include hgood hd

theorem absorbed_merge {d' : δ} (hd' : S d') (habsorbed : kind.Absorbed (kind.find defs (kind.id d)) d) :
    kind.Absorbed (kind.find (kind.mergeDefinition defs d').1 (kind.id d)) d := by
  rw [(mergeDefinition_spec hgood.sorted (h.fits hgood.known hd')).find]
  split
  · rename_i hid
    have he := habsorbed
    obtain ⟨e, he, _⟩ := he
    rw [← hid, he]
    rw [he] at habsorbed
    refine h.stays hd hd' (find_id e he) hid.symm ?_ habsorbed
    have hview := hgood.viewed (kind.id d)
    rw [views, he] at hview
    exact hview
  · exact habsorbed

/-- What was absorbed or is merged is absorbed in the end. -/
theorem absorbed_mergeAll (hds : ∀ d ∈ ds, S d)
    (hdone : d ∈ ds ∨ kind.Absorbed (kind.find defs (kind.id d)) d) :
    kind.Absorbed (kind.find (kind.mergeAll defs ds) (kind.id d)) d := by
  induction ds generalizing defs with
  | nil => exact hdone.resolve_left not_mem_nil
  | cons c ds ih =>
    rw [forall_mem_cons] at hds
    refine ih (h.good_merge hgood hds.1) hds.2 ?_
    obtain hmem | habsorbed := hdone
    · obtain rfl | hmem := mem_cons.mp hmem
      · right
        rw [(mergeDefinition_spec hgood.sorted (h.fits hgood.known hd)).find, if_pos rfl]
        exact h.absorbs hd find_id (hgood.viewed _)
      · exact .inl hmem
    · exact .inr (h.absorbed_merge hgood hd hds.1 habsorbed)

omit hd in
/-- Definitions that were merged are merged again without a change. -/
theorem merge_again (hds : ∀ d ∈ ds, S d) {again : List δ} (hagain : again ⊆ ds) :
    kind.mergeAll (kind.mergeAll defs ds) again = kind.mergeAll defs ds ∧
      (kind.decisions (kind.mergeAll defs ds) again).any SchemaMergeDecision.changes = false := by
  have hmerged := (h.mergeAll_spec hgood hds).1
  exact mergeAll_absorbed hmerged.sorted (fun d hd => h.fits hmerged.known (hds d (hagain hd)))
    fun d hd => h.absorbed_mergeAll hgood (hds d (hagain hd)) hds (.inl (hagain hd))

end Joining

end DefinitionKind

end SedsNet
