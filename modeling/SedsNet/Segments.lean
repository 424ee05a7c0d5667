import Mathlib

/-! # Segments of a memory

A memory of cells and segments `off i`, `len i` in it, kept in the order of their offsets.  `Layout`
says that the segments of a list are not empty, follow one another without overlapping and end within
the capacity.  `firstFit` finds the first gap between them, and a segment put there keeps the layout. -/

namespace Segments

open List Function

/-! ### Reading and writing -/

section Memory

variable {α : Type}

/-- The `len` cells from `off` on. -/
def read (mem : ℕ → α) (off len : ℕ) : List α := (List.range len).map fun k => mem (off + k)

/-- The cells from `off` on become `xs`. -/
def write (mem : ℕ → α) (off : ℕ) (xs : List α) : ℕ → α := fun a =>
  if off ≤ a then xs[a - off]?.getD (mem a) else mem a

/-- The cells are copied as if through a buffer: the ranges may overlap. -/
def copy (mem : ℕ → α) (src dst len : ℕ) : ℕ → α := write mem dst (read mem src len)

variable {mem : ℕ → α} {off off' len : ℕ} {xs : List α}

@[simp]
theorem length_read : (read mem off len).length = len := by
  simp [read]

theorem getElem?_read (k : ℕ) : (read mem off len)[k]? = if k < len then some (mem (off + k)) else none := by
  unfold read
  rw [List.getElem?_map]
  split_ifs with h
  · rw [List.getElem?_range h, Option.map_some]
  · rw [List.getElem?_eq_none (by rw [length_range]; omega), Option.map_none]

theorem write_of_lt {a : ℕ} (h : a < off) : write mem off xs a = mem a := by
  unfold write
  rw [if_neg (by omega)]

theorem write_of_le {a : ℕ} (h : off + xs.length ≤ a) : write mem off xs a = mem a := by
  unfold write
  rw [if_pos (by omega), List.getElem?_eq_none (by omega), Option.getD_none]

theorem read_congr {mem' : ℕ → α} (h : ∀ a, off ≤ a → a < off + len → mem' a = mem a) :
    read mem' off len = read mem off len := by
  refine map_congr_left ?_
  intro k hk
  rw [mem_range] at hk
  exact h _ (by omega) (by omega)

theorem read_write_self : read (write mem off xs) off xs.length = xs := by
  refine ext_getElem? ?_
  intro k
  rw [getElem?_read]
  split_ifs with h
  · unfold write
    rw [if_pos (by omega), Nat.add_sub_cancel_left, List.getElem?_eq_getElem h, Option.getD_some]
  · rw [List.getElem?_eq_none (by omega)]

theorem read_write_of_disjoint (h : off' + len ≤ off ∨ off + xs.length ≤ off') :
    read (write mem off xs) off' len = read mem off' len := by
  refine read_congr ?_
  intro a hle hlt
  rcases h with h | h
  · exact write_of_lt (by omega)
  · exact write_of_le (by omega)

theorem read_copy_self {src dst : ℕ} : read (copy mem src dst len) dst len = read mem src len := by
  have h : read (write mem dst (read mem src len)) dst (read mem src len).length = read mem src len :=
    read_write_self
  rw [length_read] at h
  exact h

theorem read_copy_of_disjoint {src dst n : ℕ} (h : off' + len ≤ dst ∨ dst + n ≤ off') :
    read (copy mem src dst n) off' len = read mem off' len := by
  refine read_write_of_disjoint ?_
  rw [length_read]
  exact h

theorem read_add {len' : ℕ} : read mem off (len + len') = read mem off len ++ read mem (off + len) len' := by
  unfold read
  rw [range_add, map_append, map_map]
  congr 1
  refine map_congr_left ?_
  intro k _
  rw [comp_apply, Nat.add_assoc]

end Memory

/-! ### Layouts -/

section Layout

variable {ι : Type}

/-- From `start` on the segments follow one another up to the capacity. -/
def Layout (off len : ι → ℕ) (cap : ℕ) : ℕ → List ι → Prop
  | start, [] => start ≤ cap
  | start, i :: l => start ≤ off i ∧ 0 < len i ∧ Layout off len cap (off i + len i) l

/-- The start of the first gap of `need` cells. -/
def firstFit (off len : ι → ℕ) (cap need : ℕ) : ℕ → List ι → Option ℕ
  | start, [] => if need ≤ cap - start then some start else none
  | start, i :: l => if need ≤ off i - start then some start else firstFit off len cap need (off i + len i) l

variable {off len off' len' : ι → ℕ} {cap need start start' e : ℕ} {l pre post : List ι} {i j : ι}

section Facts

variable (h : Layout off len cap start l)
include h

theorem Layout.weaken (hle : start' ≤ start) : Layout off len cap start' l := by
  cases l with
  | nil => exact le_trans hle h
  | cons i l => exact ⟨le_trans hle h.1, h.2⟩

theorem Layout.congr (hsame : ∀ i ∈ l, off' i = off i ∧ len' i = len i) :
    Layout off' len' cap start l := by
  induction l generalizing start with
  | nil => exact h
  | cons i l ih =>
    rw [forall_mem_cons] at hsame
    obtain ⟨⟨hoff, hlen⟩, hrest⟩ := hsame
    refine ⟨by rw [hoff]; exact h.1, by rw [hlen]; exact h.2.1, ?_⟩
    rw [hoff, hlen]
    exact ih h.2.2 hrest

theorem Layout.le_cap : start ≤ cap := by
  induction l generalizing start with
  | nil => exact h
  | cons i l ih =>
    have := ih h.2.2
    have := h.1
    omega

theorem Layout.mem (hi : i ∈ l) : start ≤ off i ∧ 0 < len i ∧ off i + len i ≤ cap := by
  induction l generalizing start with
  | nil => exact absurd hi not_mem_nil
  | cons k l ih =>
    rw [mem_cons] at hi
    rcases hi with rfl | hi
    · exact ⟨h.1, h.2.1, h.2.2.le_cap⟩
    · have hmem := ih h.2.2 hi
      have := h.1
      exact ⟨by omega, hmem.2⟩

/-- Of two segments the first ends before the second starts. -/
theorem Layout.pairwise : l.Pairwise fun i j => off i + len i ≤ off j := by
  induction l generalizing start with
  | nil => exact List.Pairwise.nil
  | cons i l ih =>
    refine List.Pairwise.cons ?_ (ih h.2.2)
    intro j hj
    exact (h.2.2.mem hj).1

theorem Layout.nodup : l.Nodup := by
  refine List.Pairwise.imp_of_mem ?_ h.pairwise
  rintro i j hi - hle rfl
  have := (h.mem hi).2.1
  omega

theorem Layout.disjoint (hi : i ∈ l) (hj : j ∈ l) (hne : i ≠ j) : off i + len i ≤ off j ∨ off j + len j ≤ off i := by
  have hapart : l.Pairwise fun i j => off i + len i ≤ off j ∨ off j + len j ≤ off i := h.pairwise.imp .inl
  have : Std.Symm fun i j => off i + len i ≤ off j ∨ off j + len j ≤ off i := ⟨fun _ _ => Or.symm⟩
  exact hapart.forall hi hj hne

end Facts

theorem Layout.append (hpre : Layout off len e start pre) (hpost : Layout off len cap e post) :
    Layout off len cap start (pre ++ post) := by
  induction pre generalizing start with
  | nil => exact hpost.weaken hpre
  | cons k pre ih => exact ⟨hpre.1, hpre.2.1, ih hpre.2.2⟩

/-- A list of segments laid out around a gap. -/
theorem Layout.append_iff : Layout off len cap start (pre ++ i :: post) ↔
    Layout off len (off i) start pre ∧ 0 < len i ∧ Layout off len cap (off i + len i) post := by
  induction pre generalizing start with
  | nil => exact Iff.rfl
  | cons k pre ih =>
    rw [cons_append]
    change _ ∧ _ ∧ _ ↔ (_ ∧ _ ∧ _) ∧ _
    rw [ih]
    tauto

theorem Layout.erase (h : Layout off len cap start (pre ++ i :: post)) : Layout off len cap start (pre ++ post) := by
  obtain ⟨hpre, -, hpost⟩ := append_iff.mp h
  exact hpre.append (hpost.weaken (Nat.le_add_right _ _))

/-- The gap found lies behind the segments that start at or before it and before the others. -/
theorem firstFit_spec (h : Layout off len cap start l) (hneed : 0 < need)
    (hfit : firstFit off len cap need start l = some e) :
    start ≤ e ∧ Layout off len e start (l.takeWhile fun i => off i ≤ e) ∧
      Layout off len cap (e + need) (l.dropWhile fun i => off i ≤ e) := by
  induction l generalizing start with
  | nil =>
    unfold firstFit at hfit
    split at hfit
    case isTrue hroom =>
      injection hfit with heq
      subst heq
      have hcap : start + need ≤ cap := by omega
      exact ⟨le_refl _, le_refl _, hcap⟩
    case isFalse => cases hfit
  | cons i l ih =>
    obtain ⟨hstart, hpos, hrest⟩ := h
    unfold firstFit at hfit
    split at hfit
    case isTrue hroom =>
      injection hfit with heq
      subst heq
      have hgt : ¬ off i ≤ start := by omega
      rw [takeWhile_cons_of_neg (by simpa using hgt),
        dropWhile_cons_of_neg (by simpa using hgt)]
      exact ⟨le_refl _, le_refl _, by omega, hpos, hrest⟩
    obtain ⟨hend, htake, hdrop⟩ := ih hrest hfit
    have hle : off i ≤ e := by omega
    rw [takeWhile_cons_of_pos (by simpa using hle),
      dropWhile_cons_of_pos (by simpa using hle)]
    exact ⟨by omega, ⟨hstart, hpos, htake⟩, hdrop⟩

variable [DecidableEq ι]

/-- A segment put into the gap found keeps the layout. -/
theorem Layout.insert (h : Layout off len cap start l) (hneed : 0 < need) (hi : i ∉ l)
    (hfit : firstFit off len cap need start l = some e) :
    Layout (update off i e) (update len i need) cap start
      ((l.takeWhile fun k => off k ≤ e) ++ i :: l.dropWhile fun k => off k ≤ e) := by
  obtain ⟨-, htake, hdrop⟩ := firstFit_spec h hneed hfit
  rw [Layout.append_iff, update_self, update_self]
  refine ⟨htake.congr ?_, hneed, hdrop.congr ?_⟩
  · intro k hk
    have hne := ne_of_mem_of_not_mem (takeWhile_subset _ hk) hi
    exact ⟨update_of_ne hne _ _, update_of_ne hne _ _⟩
  · intro k hk
    have hne := ne_of_mem_of_not_mem (dropWhile_subset _ hk) hi
    exact ⟨update_of_ne hne _ _, update_of_ne hne _ _⟩

end Layout

end Segments
