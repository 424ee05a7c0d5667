import Mathlib

/-! # Ordered maps

Lookups in ordered maps whose comparison decides equality, the removal of the first entry, sums over
the values, pairs of maps that are inverse to each other, and the least element of a list. -/

namespace OrderedMap

open Std List

variable {κ α : Type} [Ord κ] [TransOrd κ]

/-! ### Lookups -/

variable {m : ExtTreeMap κ α} {k : κ}

theorem mem_iff_exists : k ∈ m ↔ ∃ v, m[k]? = some v := by
  rw [ExtTreeMap.mem_iff_isSome_getElem?, Option.isSome_iff_exists]

theorem not_mem_iff : k ∉ m ↔ m[k]? = none := by
  rw [ExtTreeMap.mem_iff_isSome_getElem?, Option.not_isSome_iff_eq_none]

variable {v : α}

theorem size_pos_of_some (h : m[k]? = some v) : 0 < m.size := by
  refine Nat.pos_of_ne_zero fun hzero => ?_
  rw [← ExtTreeMap.eq_empty_iff_size_eq_zero] at hzero
  simp [hzero] at h

theorem size_erase_of_mem (h : k ∈ m) : (m.erase k).size = m.size - 1 := by
  rw [ExtTreeMap.size_erase, if_pos (ExtTreeMap.mem_iff_contains.mp h)]

section Lawful

variable [LawfulEqOrd κ] [DecidableEq κ]

theorem getElem?_insert_eq (m : ExtTreeMap κ α) (k a : κ) (v : α) :
    (m.insert k v)[a]? = if k = a then some v else m[a]? := by
  rw [ExtTreeMap.getElem?_insert]
  simp only [LawfulEqOrd.compare_eq_iff_eq]

theorem getElem?_erase_eq (m : ExtTreeMap κ α) (k a : κ) : (m.erase k)[a]? = if k = a then none else m[a]? := by
  rw [ExtTreeMap.getElem?_erase]
  simp only [LawfulEqOrd.compare_eq_iff_eq]

theorem getElem?_of_erase {m : ExtTreeMap κ α} {k a : κ} {v : α} (h : (m.erase k)[a]? = some v) :
    k ≠ a ∧ m[a]? = some v := by
  rw [getElem?_erase_eq] at h
  split at h
  · cases h
  rename_i hne
  exact ⟨hne, h⟩

/-- The map with a changed value, if the key is there. -/
def change (m : ExtTreeMap κ α) (k : κ) (f : α → α) : ExtTreeMap κ α :=
  match m[k]? with
  | none => m
  | some v => m.insert k (f v)

theorem getElem?_change (m : ExtTreeMap κ α) (k a : κ) (f : α → α) :
    (change m k f)[a]? = if k = a then m[a]?.map f else m[a]? := by
  unfold change
  by_cases hk : k = a
  · subst hk
    cases h : m[k]? <;> simp [h]
  · cases h : m[k]? <;> simp [hk, getElem?_insert_eq]

end Lawful

theorem length_le_size [LawfulEqOrd κ] {ks : List κ} (hnodup : ks.Nodup)
    (h : ∀ k ∈ ks, k ∈ m) : ks.length ≤ m.size := by
  rw [← ExtTreeMap.length_keys]
  apply (hnodup.subperm _).length_le
  intro k hk
  exact ExtTreeMap.mem_keys.mpr (h k hk)

theorem size_le_of_mem [LawfulEqOrd κ] {β : Type} {m' : ExtTreeMap κ β} (h : ∀ k ∈ m', k ∈ m) : m'.size ≤ m.size := by
  rw [← ExtTreeMap.length_keys]
  apply length_le_size
  · apply ExtTreeMap.distinct_keys.imp
    intro a b hne heq
    exact hne (LawfulEqOrd.compare_eq_iff_eq.mpr heq)
  · intro k hk
    exact h k (ExtTreeMap.mem_keys.mp hk)

/-! ### The first entry -/

/-- The lowest key. -/
def firstKey? (m : ExtTreeMap κ α) : Option κ := m.toList.head?.map Prod.fst

/-- The map without its first entry. -/
def popFirst (m : ExtTreeMap κ α) : ExtTreeMap κ α :=
  match firstKey? m with
  | some k => m.erase k
  | none => m

theorem firstKey?_eq_none : firstKey? m = none ↔ m = ∅ := by
  rw [firstKey?, Option.map_eq_none_iff, List.head?_eq_none_iff, ExtTreeMap.toList_eq_nil_iff]

variable [LawfulEqOrd κ]

theorem mem_of_firstKey? (h : firstKey? m = some k) : k ∈ m := by
  obtain ⟨⟨k', v⟩, hhead, rfl⟩ := Option.map_eq_some_iff.mp h
  have hmem := mem_of_mem_head? hhead
  exact mem_iff_exists.mpr ⟨v, ExtTreeMap.mem_toList_iff_getElem?_eq_some.mp hmem⟩

theorem firstKey?_le {k' : κ} (h : firstKey? m = some k) (h' : k' ∈ m) : k = k' ∨ compare k k' = .lt := by
  obtain ⟨⟨k₀, v₀⟩, hhead, rfl⟩ := Option.map_eq_some_iff.mp h
  obtain ⟨v, hv⟩ := mem_iff_exists.mp h'
  have hord := ExtTreeMap.ordered_keys_toList (t := m)
  have hmem := ExtTreeMap.mem_toList_iff_getElem?_eq_some.mpr hv
  obtain ⟨tail, htail⟩ := List.head?_eq_some_iff.mp hhead
  rw [htail] at hord hmem
  rcases mem_cons.mp hmem with heq | hin
  · exact .inl (congrArg Prod.fst heq).symm
  · exact .inr ((pairwise_cons.mp hord).1 _ hin)

theorem size_popFirst (m : ExtTreeMap κ α) : (popFirst m).size = m.size - 1 := by
  unfold popFirst
  cases h : firstKey? m with
  | none => simp [firstKey?_eq_none.mp h]
  | some k => exact size_erase_of_mem (mem_of_firstKey? h)

theorem getElem?_of_popFirst [DecidableEq κ] (h : (popFirst m)[k]? = some v) : m[k]? = some v := by
  unfold popFirst at h
  split at h
  · exact (getElem?_of_erase h).2
  · exact h

/-! ### Sums over the values -/

/-- The sum of `f` over the values. -/
def sumValues (f : α → ℕ) (m : ExtTreeMap κ α) : ℕ := (m.toList.map fun p => f p.2).sum

theorem nodup_toList (m : ExtTreeMap κ α) : m.toList.Nodup := by
  apply ExtTreeMap.distinct_keys_toList.imp
  intro p q hne heq
  exact hne (LawfulEqOrd.compare_eq_iff_eq.mpr (congrArg Prod.fst heq))

omit [LawfulEqOrd κ] in
theorem sumValues_empty (f : α → ℕ) : sumValues f (∅ : ExtTreeMap κ α) = 0 := by
  rw [sumValues, ExtTreeMap.toList_eq_nil_iff.mpr rfl]
  rfl

variable [DecidableEq κ]

theorem erase_of_none (h : m[k]? = none) : m.erase k = m := by
  apply ExtTreeMap.ext_getElem?
  intro a
  rw [getElem?_erase_eq]
  split
  · rename_i heq
    rw [← heq, h]
  · rfl

theorem erase_insert (m : ExtTreeMap κ α) (k : κ) (v : α) : (m.insert k v).erase k = m.erase k := by
  apply ExtTreeMap.ext_getElem?
  intro a
  rw [getElem?_erase_eq, getElem?_erase_eq, getElem?_insert_eq]
  split <;> rfl

theorem insert_erase (m : ExtTreeMap κ α) (k : κ) (v : α) : (m.erase k).insert k v = m.insert k v := by
  apply ExtTreeMap.ext_getElem?
  intro a
  rw [getElem?_insert_eq, getElem?_insert_eq, getElem?_erase_eq]
  split <;> rfl

/-- The entry of a key, and all others. -/
theorem toList_perm_of_some (h : m[k]? = some v) : m.toList.Perm ((k, v) :: (m.erase k).toList) := by
  have hout : (k, v) ∉ (m.erase k).toList := by
    simp
  rw [perm_ext_iff_of_nodup (nodup_toList m) (nodup_cons.mpr ⟨hout, nodup_toList _⟩)]
  rintro ⟨k', v'⟩
  rw [mem_cons, ExtTreeMap.mem_toList_iff_getElem?_eq_some,
    ExtTreeMap.mem_toList_iff_getElem?_eq_some, getElem?_erase_eq]
  by_cases hk : k = k'
  · subst hk
    simp [h, eq_comm]
  · rw [if_neg hk]
    simp [Ne.symm hk]

theorem sumValues_of_some (f : α → ℕ) (h : m[k]? = some v) : sumValues f m = f v + sumValues f (m.erase k) := by
  unfold sumValues
  rw [((toList_perm_of_some h).map _).sum_eq]
  simp

theorem sumValues_insert (f : α → ℕ) (m : ExtTreeMap κ α) (k : κ) (v : α) :
    sumValues f (m.insert k v) = f v + sumValues f (m.erase k) := by
  rw [← erase_insert m k v]
  apply sumValues_of_some
  rw [getElem?_insert_eq, if_pos rfl]

/-- The sum over a map with at most one key. -/
theorem sumValues_of_forall_eq (f : α → ℕ) (h : ∀ a ∈ m, a = k) : sumValues f m = (m[k]?.map f).getD 0 := by
  have hrest : m.erase k = ∅ := by
    rw [ExtTreeMap.eq_empty_iff_forall_not_mem]
    intro a ha
    obtain ⟨v, hv⟩ := mem_iff_exists.mp ha
    rw [getElem?_erase_eq, h a (ExtTreeMap.mem_of_mem_erase ha), if_pos rfl] at hv
    cases hv
  cases hk : m[k]? with
  | none =>
    rw [← erase_of_none hk, hrest, sumValues_empty]
    simp
  | some v =>
    rw [sumValues_of_some f hk, hrest, sumValues_empty]
    simp

/-! ### Inverse maps -/

/-- `back` leads from the image of a value to its key, and has nothing else. -/
def Inverse {β : Type} [Ord β] [TransOrd β] (f : α → β) (m : ExtTreeMap κ α) (back : ExtTreeMap β κ) : Prop :=
  ∀ (b : β) (k : κ), back[b]? = some k ↔ ∃ v, m[k]? = some v ∧ f v = b

section Inverse

variable {β : Type} [Ord β] [TransOrd β] [LawfulEqOrd β] [DecidableEq β]
variable {f : α → β} {m : ExtTreeMap κ α} {back : ExtTreeMap β κ}

variable {k : κ} {v : α}

omit [LawfulEqOrd κ] [DecidableEq κ] [LawfulEqOrd β] [DecidableEq β] in
theorem Inverse.eq_of_image_eq (h : Inverse f m back) {k' : κ} {v' : α} (hk : m[k]? = some v)
    (hk' : m[k']? = some v') (heq : f v = f v') : k = k' := by
  have hback := (h (f v) k).mpr ⟨v, hk, rfl⟩
  have hback' := (h (f v) k').mpr ⟨v', hk', heq.symm⟩
  exact Option.some.inj (hback.symm.trans hback')

omit [DecidableEq κ] [DecidableEq β] in
theorem Inverse.size_le (h : Inverse f m back) : back.size ≤ m.size := by
  have hkey : ∀ p ∈ back.toList, ∃ v, m[p.2]? = some v ∧ f v = p.1 := fun p hp =>
    (h p.1 p.2).mp (ExtTreeMap.mem_toList_iff_getElem?_eq_some.mp hp)
  rw [← ExtTreeMap.length_toList, ← length_map Prod.snd]
  apply length_le_size
  · refine pairwise_map.mpr (ExtTreeMap.distinct_keys_toList.imp_of_mem ?_)
    intro p q hp hq hne heq
    obtain ⟨v, hv, himage⟩ := hkey p hp
    obtain ⟨w, hw, himage'⟩ := hkey q hq
    rw [heq, hw] at hv
    cases hv
    exact hne (LawfulEqOrd.compare_eq_iff_eq.mpr (himage.symm.trans himage'))
  · intro k hk
    obtain ⟨p, hp, rfl⟩ := mem_map.mp hk
    obtain ⟨v, hv, -⟩ := hkey p hp
    exact mem_iff_exists.mpr ⟨v, hv⟩

/-- A value whose image is free is stored under a key that is free or has the same image. -/
theorem Inverse.insert (h : Inverse f m back)
    (hkey : ∀ v', m[k]? = some v' → f v' = f v) (himage : ∀ k' v', m[k']? = some v' → f v' = f v → k' = k) :
    Inverse f (m.insert k v) (back.insert (f v) k) := by
  intro b k'
  rw [getElem?_insert_eq, getElem?_insert_eq]
  by_cases hb : f v = b
  · rw [if_pos hb]
    constructor
    · intro heq
      cases heq
      exact ⟨v, if_pos rfl, hb⟩
    · rintro ⟨v', hv', himg⟩
      split at hv'
      · rename_i heq
        rw [heq]
      · rw [himage k' v' hv' (himg.trans hb.symm)]
  · rw [if_neg hb, h b k']
    constructor
    · rintro ⟨v', hv', himg⟩
      refine ⟨v', ?_, himg⟩
      rw [if_neg ?_, hv']
      intro heq
      rw [← heq] at hv'
      exact hb ((hkey v' hv').symm.trans himg)
    · rintro ⟨v', hv', himg⟩
      split at hv'
      · cases hv'
        exact absurd himg hb
      · exact ⟨v', hv', himg⟩

theorem Inverse.erase (h : Inverse f m back) (hk : m[k]? = some v) : Inverse f (m.erase k) (back.erase (f v)) := by
  intro b k'
  rw [getElem?_erase_eq]
  by_cases hb : f v = b
  · rw [if_pos hb]
    constructor
    · intro heq
      cases heq
    · rintro ⟨v', hv', himg⟩
      obtain ⟨hne, hv'⟩ := getElem?_of_erase hv'
      exact absurd (h.eq_of_image_eq hk hv' (hb.trans himg.symm)) hne
  · rw [if_neg hb, h b k']
    constructor
    · rintro ⟨v', hv', himg⟩
      refine ⟨v', ?_, himg⟩
      rw [getElem?_erase_eq, if_neg ?_, hv']
      intro heq
      rw [← heq, hk] at hv'
      cases hv'
      exact hb himg
    · rintro ⟨v', hv', himg⟩
      exact ⟨v', (getElem?_of_erase hv').2, himg⟩

end Inverse

/-! ### The least element of a list -/

/-- The first of the least elements. -/
def least (cmp : α → α → Ordering) : List α → Option α
  | [] => none
  | a :: l => some (l.foldl (fun best b => if cmp best b = .gt then b else best) a)

section Least

variable {cmp : α → α → Ordering} [TransCmp cmp]

theorem foldl_least (cmp : α → α → Ordering) [TransCmp cmp] (l : List α) :
    ∀ a, ∃ m, l.foldl (fun best b => if cmp best b = .gt then b else best) a = m ∧
      m ∈ a :: l ∧ ∀ b ∈ a :: l, (cmp m b).isLE := by
  induction l with
  | nil =>
    intro a
    refine ⟨a, rfl, mem_singleton_self a, ?_⟩
    intro b hb
    have hself : cmp a a = .eq := ReflCmp.compare_self
    rw [mem_singleton.mp hb, hself]
    rfl
  | cons c l ih =>
    intro a
    obtain ⟨m, hm, hmem, hle⟩ := ih (if cmp a c = .gt then c else a)
    refine ⟨m, hm, ?_, ?_⟩
    · split at hmem
      · exact mem_cons_of_mem a hmem
      · rw [mem_cons] at hmem ⊢
        exact hmem.imp_right (mem_cons_of_mem c)
    · -- the better one of the first two is no less than the result
      have hboth : (cmp m a).isLE ∧ (cmp m c).isLE := by
        have hbest := hle _ mem_cons_self
        split at hbest
        · rename_i hgt
          have hlt : cmp c a = .lt := OrientedCmp.lt_of_gt hgt
          refine ⟨TransCmp.isLE_trans hbest ?_, hbest⟩
          rw [hlt]
          rfl
        · rename_i hngt
          refine ⟨hbest, TransCmp.isLE_trans hbest ?_⟩
          rw [Ordering.isLE_iff_ne_gt]
          exact hngt
      intro b hb
      rw [mem_cons, mem_cons] at hb
      obtain rfl | rfl | hb := hb
      · exact hboth.1
      · exact hboth.2
      · exact hle b (mem_cons_of_mem _ hb)

variable {l : List α}

theorem least_spec {m : α} (h : least cmp l = some m) : m ∈ l ∧ ∀ b ∈ l, (cmp m b).isLE := by
  cases l with
  | nil => cases h
  | cons a l =>
    obtain ⟨m', hm', hspec⟩ := foldl_least cmp l a
    change some _ = some m at h
    rw [hm'] at h
    cases h
    exact hspec

omit [TransCmp cmp] in
theorem eq_nil_of_least (h : least cmp l = none) : l = [] := by
  cases l with
  | nil => rfl
  | cons a l => cases h

end Least

end OrderedMap
