import Mathlib.Order.Bounds.Basic
import Mathlib.Data.List.Basic

/-! # Breadth-first search

`Search` is what the steps of a search keep: the pending vertices are in order and at most one edge apart,
and every walk to a goal can be shortened to one from a pending vertex that avoids the visited ones.  So
the first goal that is met is a nearest one. -/

namespace BreadthFirst

open List

variable {α : Type} {edge : α → α → Prop} {goal : α → Prop} {start a b : α} {avoid visited : List α}
  {pending : List (α × ℕ)} {n d : ℕ}

/-- A walk of that many edges outside of `avoid`. -/
inductive Walk (edge : α → α → Prop) (avoid : List α) : ℕ → α → α → Prop
  | nil {a : α} : a ∉ avoid → Walk edge avoid 0 a a
  | cons {n : ℕ} {a b c : α} : a ∉ avoid → edge a b → Walk edge avoid n b c → Walk edge avoid (n + 1) a c

theorem Walk.snoc {c : α} (h : Walk edge [] n a b) (hedge : edge b c) : Walk edge [] (n + 1) a c := by
  induction h with
  | nil hout => exact .cons hout hedge (.nil not_mem_nil)
  | cons hout hfirst _ ih => exact .cons hout hfirst (ih hedge)

/-- A walk avoids a vertex, or ends in it, or goes on behind it and does not come back. -/
theorem Walk.avoids (v : α) (h : Walk edge avoid n a b) : Walk edge (v :: avoid) n a b ∨ b = v ∨
    ∃ c m, edge v c ∧ m < n ∧ Walk edge (v :: avoid) m c b := by
  induction h with
  | @nil a hout =>
    by_cases hv : a = v
    · exact .inr (.inl hv)
    · exact .inl (.nil (not_mem_cons_of_ne_of_not_mem hv hout))
  | @cons n a b c hout hedge _ ih =>
    obtain hwalk | hlast | ⟨c', m, hedge', hlt, hwalk⟩ := ih
    · by_cases hv : a = v
      · exact .inr (.inr ⟨b, n, hv ▸ hedge, Nat.lt_succ_self n, hwalk⟩)
      · exact .inl (.cons (not_mem_cons_of_ne_of_not_mem hv hout) hedge hwalk)
    · exact .inr (.inl hlast)
    · exact .inr (.inr ⟨c', m, hedge', by omega, hwalk⟩)

theorem Walk.start_not_mem (h : Walk edge avoid n a b) : a ∉ avoid := by
  cases h with
  | nil hout | cons hout => exact hout

structure Search (edge : α → α → Prop) (goal : α → Prop) (start : α) (visited : List α) (pending : List (α × ℕ)) :
    Prop where
  sound : ∀ p ∈ pending, Walk edge [] p.2 start p.1
  ordered : pending.Pairwise fun p q => p.2 ≤ q.2 ∧ q.2 ≤ p.2 + 1
  covers : ∀ {n b}, goal b → Walk edge [] n start b → ∃ p ∈ pending, ∃ m, p.2 + m ≤ n ∧ Walk edge visited m p.1 b

theorem search_start : Search edge goal start [] [(start, 0)] where
  sound _ hp := mem_singleton.mp hp ▸ .nil not_mem_nil
  ordered := pairwise_singleton _ _
  covers _ hwalk := ⟨_, mem_cons_self, _, (Nat.zero_add _).le, hwalk⟩

section Next

variable (h : Search edge goal start visited ((a, d) :: pending))
include h

theorem Search.first_le {p : α × ℕ} (hp : p ∈ (a, d) :: pending) : d ≤ p.2 := by
  obtain rfl | hp := mem_cons.mp hp
  · exact le_rfl
  · exact (rel_of_pairwise_cons h.ordered hp).1

theorem Search.found (hgoal : goal a) : IsLeast {n | ∃ b, goal b ∧ Walk edge [] n start b} d := by
  refine ⟨⟨a, hgoal, h.sound _ mem_cons_self⟩, ?_⟩
  rintro n ⟨b, hb, hwalk⟩
  obtain ⟨p, hp, m, hle, -⟩ := h.covers hb hwalk
  have := h.first_le hp
  omega

theorem Search.skip (hseen : a ∈ visited) : Search edge goal start visited pending where
  sound p hp := h.sound p (mem_cons_of_mem _ hp)
  ordered := h.ordered.of_cons
  covers hgoal hwalk := by
    obtain ⟨p, hp, m, hle, hwalk⟩ := h.covers hgoal hwalk
    obtain rfl | hp := mem_cons.mp hp
    · exact absurd hseen hwalk.start_not_mem
    · exact ⟨p, hp, m, hle, hwalk⟩

/-- A vertex that is no goal is visited, and the vertices behind it wait one edge further away. -/
theorem Search.visit (hgoal : ¬ goal a) {next : List α} (hnext : ∀ b, b ∈ next ↔ edge a b ∧ b ∉ a :: visited) :
    Search edge goal start (a :: visited) (pending ++ next.map fun b => (b, d + 1)) where
  sound p hp := by
    obtain hp | hp := mem_append.mp hp
    · exact h.sound p (mem_cons_of_mem _ hp)
    · obtain ⟨b, hb, rfl⟩ := mem_map.mp hp
      exact (h.sound _ mem_cons_self).snoc ((hnext b).mp hb).1
  ordered := by
    refine pairwise_append.mpr ⟨h.ordered.of_cons, ?_, ?_⟩
    · exact pairwise_map.mpr (pairwise_of_forall fun _ _ => ⟨le_rfl, Nat.le_succ _⟩)
    · intro p hp q hq
      obtain ⟨b, -, rfl⟩ := mem_map.mp hq
      have := rel_of_pairwise_cons h.ordered hp
      dsimp only at this ⊢
      omega
  covers {n b} hb hwalk := by
    obtain ⟨p, hp, m, hle, hwalk⟩ := h.covers hb hwalk
    have hfirst := h.first_le hp
    obtain hout | rfl | ⟨c, k, hedge, hlt, hout⟩ := hwalk.avoids a
    · obtain rfl | hp := mem_cons.mp hp
      · exact absurd mem_cons_self hout.start_not_mem
      · exact ⟨p, mem_append_left _ hp, m, hle, hout⟩
    · exact absurd hb hgoal
    · have hc := (hnext c).mpr ⟨hedge, hout.start_not_mem⟩
      exact ⟨(c, d + 1), mem_append_right _ (mem_map_of_mem hc), k, by dsimp only; omega, hout⟩

end Next

end BreadthFirst
