import Mathlib

/-! # Linked chains

Singly linked chains in a table of nodes: `Linked next head l` says that the chain from `head` along
`next` consists of the nodes `l`.  A loop that follows a chain sees these nodes (`traverse_eq`), and
the two updates of such a table, linking a node in behind another one and unlinking the node behind
another one, insert it in the list and remove it from it. -/

namespace LinkedChain

open List Function

variable {α : Type} {next : α → Option α} {head : Option α}

/-- The chain from `head` along `next` has the nodes `l`. -/
def Linked (next : α → Option α) : Option α → List α → Prop
  | head, [] => head = none
  | head, a :: l => head = some a ∧ Linked next (next a) l

/-- The nodes that a loop of at most `fuel` rounds sees. -/
def traverse (next : α → Option α) : (fuel : ℕ) → Option α → List α
  | 0, _ => []
  | _ + 1, none => []
  | fuel + 1, some a => a :: traverse next fuel (next a)

variable {l : List α}

theorem traverse_eq : ∀ {fuel : ℕ} {head}, Linked next head l → l.length ≤ fuel →
    traverse next fuel head = l := by
  induction l with
  | nil =>
    intro fuel head h _
    have hnone : head = none := h
    rw [hnone]
    cases fuel <;> rfl
  | cons a l ih =>
    intro fuel head h hlength
    obtain ⟨rfl, hrest⟩ := h
    obtain ⟨fuel, rfl⟩ : ∃ k, fuel = k + 1 := ⟨fuel - 1, by rw [length_cons] at hlength; omega⟩
    rw [length_cons] at hlength
    unfold traverse
    rw [ih hrest (by omega)]

theorem Linked.congr {next' : α → Option α} : ∀ {head}, Linked next head l →
    (∀ a ∈ l, next' a = next a) → Linked next' head l := by
  induction l with
  | nil =>
    intro head h _
    exact h
  | cons a l ih =>
    intro head h hsame
    rw [forall_mem_cons] at hsame
    refine ⟨h.1, ?_⟩
    rw [hsame.1]
    exact ih h.2 hsame.2

theorem Linked.head_eq (h : Linked next head l) : head = l.head? := by
  cases l with
  | nil => exact h
  | cons a l => exact h.1

variable {a : α} {post : List α}

theorem Linked.next_eq : ∀ {pre} {head},
    Linked next head (pre ++ a :: post) → next a = post.head? := by
  intro pre
  induction pre with
  | nil =>
    intro head h
    cases post with
    | nil => exact h.2
    | cons b post => exact h.2.1
  | cons c pre ih =>
    intro head h
    exact ih h.2

variable [DecidableEq α]

theorem Linked.insert_head (h : Linked next head l) (ha : a ∉ l) :
    Linked (update next a head) (some a) (a :: l) := by
  refine ⟨rfl, ?_⟩
  rw [update_self]
  refine h.congr ?_
  intro b hb
  exact update_of_ne (ne_of_mem_of_not_mem hb ha) _ _

variable {p : α}

theorem Linked.insert_after : ∀ {pre} {head},
    Linked next head (pre ++ p :: post) → (pre ++ p :: post).Nodup → a ∉ pre ++ p :: post →
    Linked (update (update next a (next p)) p (some a)) head (pre ++ p :: a :: post) := by
  intro pre
  induction pre with
  | nil =>
    intro head h hnodup ha
    rw [nil_append] at h hnodup ha ⊢
    rw [mem_cons, not_or] at ha
    obtain ⟨hhead, hrest⟩ := h
    refine ⟨hhead, update_self .., ?_⟩
    rw [update_of_ne ha.1, update_self]
    refine hrest.congr ?_
    intro b hb
    rw [update_of_ne (ne_of_mem_of_not_mem hb (nodup_cons.mp hnodup).1),
      update_of_ne (ne_of_mem_of_not_mem hb ha.2)]
  | cons c pre ih =>
    intro head h hnodup ha
    rw [cons_append] at h hnodup ha ⊢
    rw [mem_cons, not_or] at ha
    obtain ⟨hhead, hrest⟩ := h
    have hcp : c ≠ p := by
      rintro rfl
      exact (nodup_cons.mp hnodup).1 (by simp)
    refine ⟨hhead, ?_⟩
    rw [update_of_ne hcp, update_of_ne (Ne.symm ha.1)]
    exact ih hrest (nodup_cons.mp hnodup).2 ha.2

theorem Linked.erase_after : ∀ {pre} {head},
    Linked next head (pre ++ p :: a :: post) → (pre ++ p :: a :: post).Nodup →
    Linked (update next p (next a)) head (pre ++ p :: post) := by
  intro pre
  induction pre with
  | nil =>
    intro head h hnodup
    obtain ⟨hhead, -, hrest⟩ := h
    refine ⟨hhead, ?_⟩
    rw [update_self]
    refine hrest.congr ?_
    intro b hb
    rw [nil_append, nodup_cons, mem_cons, not_or] at hnodup
    exact update_of_ne (ne_of_mem_of_not_mem hb hnodup.1.2) _ _
  | cons c pre ih =>
    intro head h hnodup
    obtain ⟨hhead, hrest⟩ := h
    have hcp : c ≠ p := by
      rintro rfl
      exact (nodup_cons.mp hnodup).1 (by simp)
    refine ⟨hhead, ?_⟩
    rw [update_of_ne hcp]
    exact ih hrest (nodup_cons.mp hnodup).2

end LinkedChain
