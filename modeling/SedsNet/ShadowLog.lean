import Mathlib.Data.List.Basic

/-! # Append-only logs with shadowing

Entries are added at the head of a log over a fixed base and never removed.  Some entries clash, and
of the entries that clash the newest is in force.  The entries in force after a push are the new one
and the old ones that it does not clash with (`mem_live_cons`), so that no two of them ever clash
(`eq_of_clash`). -/

namespace ShadowLog

open List

variable {α : Type} [DecidableEq α] (clash : α → α → Bool)

/-- No entry clashes with `x`, or the newest that does is `x` itself. -/
def visible (x : α) : List α → Bool
  | [] => true
  | c :: log => if clash c x then c == x else visible x log

/-- The entries in force, those of the base first. -/
def live (base log : List α) : List α :=
  base.filter (visible clash · log) ++ log.filter (visible clash · log)

variable {clash} {base log : List α} {x y : α}

theorem mem_live : x ∈ live clash base log ↔ (x ∈ base ∨ x ∈ log) ∧ visible clash x log = true := by
  rw [live, mem_append, mem_filter, mem_filter]
  tauto

theorem live_nil : live clash base [] = base := by
  have hall : ∀ a ∈ base, visible clash a [] = true := fun _ _ => rfl
  rw [live, filter_eq_self.mpr hall, filter_nil, append_nil]

section Push

variable (hrefl : ∀ a, clash a a = true)

include hrefl

/-- A new entry is in force, and shadows those that it clashes with. -/
theorem mem_live_cons {d : α} :
    x ∈ live clash base (d :: log) ↔ x = d ∨ x ∈ live clash base log ∧ clash d x = false := by
  rw [mem_live, mem_live, visible]
  cases hclash : clash d x with
  | true =>
    rw [if_pos rfl, beq_iff_eq]
    constructor
    · rintro ⟨_, rfl⟩
      exact .inl rfl
    · rintro (rfl | ⟨_, hfalse⟩)
      · exact ⟨.inr mem_cons_self, rfl⟩
      · cases hfalse
  | false =>
    have hne : x ≠ d := by
      rintro rfl
      rw [hrefl] at hclash
      cases hclash
    rw [mem_cons]
    tauto

/-- Entries that do not clash with each other are all in force once they are pushed. -/
theorem mem_live_push {ds : List α} (hds : ds.Pairwise fun a b => clash b a = false) :
    x ∈ live clash base (ds.foldl (fun log d => d :: log) log) ↔
      x ∈ ds ∨ x ∈ live clash base log ∧ ∀ d ∈ ds, clash d x = false := by
  induction ds generalizing log with
  | nil => simp
  | cons d ds ih =>
    obtain ⟨hhead, htail⟩ := pairwise_cons.mp hds
    rw [foldl_cons, ih htail, mem_live_cons hrefl, mem_cons, forall_mem_cons]
    constructor
    · rintro (hx | ⟨rfl | ⟨hx, hd⟩, hrest⟩)
      · exact .inl (.inr hx)
      · exact .inl (.inl rfl)
      · exact .inr ⟨hx, hd, hrest⟩
    · rintro ((rfl | hx) | ⟨hx, hd, hrest⟩)
      · exact .inr ⟨.inl rfl, hhead⟩
      · exact .inl hx
      · exact .inr ⟨.inr ⟨hx, hd⟩, hrest⟩

/-- Entries in force do not clash, if those of the base do not. -/
theorem eq_of_clash (hsymm : ∀ a b, clash a b = clash b a)
    (hbase : ∀ a ∈ base, ∀ b ∈ base, clash a b = true → a = b) (hx : x ∈ live clash base log)
    (hy : y ∈ live clash base log) (hclash : clash x y = true) : x = y := by
  induction log with
  | nil =>
    rw [live_nil] at hx hy
    exact hbase x hx y hy hclash
  | cons d log ih =>
    rw [mem_live_cons hrefl] at hx hy
    rcases hx with rfl | ⟨hx, hdx⟩ <;> rcases hy with rfl | ⟨hy, hdy⟩
    · rfl
    · rw [hclash] at hdy
      cases hdy
    · rw [hsymm, hclash] at hdx
      cases hdx
    · exact ih hx hy

end Push

end ShadowLog
