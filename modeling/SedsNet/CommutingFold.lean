import Mathlib

/-! # Folds of commuting idempotent operations

A state takes in items by an operation that commutes with itself and that a second use of the same
item leaves without effect, as a join does.  The result of a fold then depends only on which items
occur: not on their order and not on how often they occur (`foldl_eq_of_mem_iff`), and an item that
occurred has nothing more to add (`foldl_absorb`).  `Absorbing.keyed` lifts such an operation on the
value of one key to functions from keys to values. -/

namespace CommutingFold

open List Function

variable {α ι : Type*}

/-- On the states of `ok` and the items of `S` the operation commutes and is idempotent. -/
structure Absorbing (op : α → ι → α) (ok : α → Prop) (S : ι → Prop) : Prop where
  keeps : ∀ {a i}, ok a → S i → ok (op a i)
  comm : ∀ {a i j}, ok a → S i → S j → op (op a i) j = op (op a j) i
  idem : ∀ {a i}, ok a → S i → op (op a i) i = op a i

namespace Absorbing

variable {op : α → ι → α} {ok : α → Prop} {S : ι → Prop} (h : Absorbing op ok S)

include h

variable {l : List ι} {a : α} {i : ι}

/-- The last item may as well come first. -/
theorem op_foldl (hl : ∀ i ∈ l, S i) (ha : ok a) (hi : S i) : op (l.foldl op a) i = l.foldl op (op a i) := by
  induction l generalizing a with
  | nil => rfl
  | cons j l ih =>
    have hj : S j := hl j mem_cons_self
    rw [foldl_cons, foldl_cons,
      ih (fun k hk => hl k (mem_cons_of_mem j hk)) (h.keeps ha hj), h.comm ha hj hi]

/-- An item that occurred has nothing to add. -/
theorem foldl_absorb (hl : ∀ i ∈ l, S i) (ha : ok a) (hi : i ∈ l) : op (l.foldl op a) i = l.foldl op a := by
  induction l generalizing a with
  | nil => cases hi
  | cons j l ih =>
    have hj : S j := hl j mem_cons_self
    have hrest : ∀ k ∈ l, S k := fun k hk => hl k (mem_cons_of_mem j hk)
    rw [foldl_cons]
    obtain rfl | hi := mem_cons.mp hi
    · rw [h.op_foldl hrest (h.keeps ha hj) hj, h.idem ha hj]
    · exact ih hrest (h.keeps ha hj) hi

variable {l' : List ι}

theorem foldl_absorb_all (hl : ∀ i ∈ l, S i) (ha : ok a) (hsub : l' ⊆ l) :
    l'.foldl op (l.foldl op a) = l.foldl op a := by
  induction l' with
  | nil => rfl
  | cons i l' ih =>
    rw [foldl_cons, h.foldl_absorb hl ha (hsub mem_cons_self)]
    exact ih fun j hj => hsub (mem_cons_of_mem i hj)

theorem foldl_comm (hl : ∀ i ∈ l, S i) (hl' : ∀ i ∈ l', S i) (ha : ok a) :
    l'.foldl op (l.foldl op a) = l.foldl op (l'.foldl op a) := by
  induction l' generalizing a with
  | nil => rfl
  | cons i l' ih =>
    have hi : S i := hl' i mem_cons_self
    rw [foldl_cons, h.op_foldl hl ha hi,
      ih (fun j hj => hl' j (mem_cons_of_mem i hj)) (h.keeps ha hi), foldl_cons]

/-- The fold depends only on which items occur. -/
theorem foldl_eq_of_mem_iff (hl : ∀ i ∈ l, S i) (ha : ok a)
    (hsame : ∀ i, i ∈ l ↔ i ∈ l') : l.foldl op a = l'.foldl op a := by
  have hl' : ∀ i ∈ l', S i := fun i hi => hl i ((hsame i).mpr hi)
  calc l.foldl op a = l'.foldl op (l.foldl op a) :=
        (h.foldl_absorb_all hl ha fun i hi => (hsame i).mpr hi).symm
    _ = l.foldl op (l'.foldl op a) := h.foldl_comm hl hl' ha
    _ = l'.foldl op a := h.foldl_absorb_all hl' ha fun i hi => (hsame i).mp hi

end Absorbing

/-! ### Operations on one key -/

section Keyed

variable {κ β : Type*} [DecidableEq κ] (key : ι → κ) (op : β → ι → β)

/-- The item acts on the value of its own key. -/
def keyed (f : κ → β) (i : ι) : κ → β := Function.update f (key i) (op (f (key i)) i)

theorem keyed_same (f : κ → β) (i : ι) : keyed key op f i (key i) = op (f (key i)) i :=
  update_self ..

theorem keyed_of_ne (f : κ → β) {i : ι} {k : κ} (h : k ≠ key i) : keyed key op f i k = f k :=
  update_of_ne h ..

variable {key op}

/-- Operations that commute and are idempotent for each key do so on functions. -/
theorem Absorbing.keyed {ok : κ → β → Prop} {S : ι → Prop} (h : ∀ k, Absorbing op (ok k) fun i => S i ∧ key i = k) :
    Absorbing (keyed key op) (fun f => ∀ k, ok k (f k)) S where
  keeps := by
    intro f i hf hi k
    by_cases hk : k = key i
    · subst hk
      rw [keyed_same]
      exact (h (key i)).keeps (hf _) ⟨hi, rfl⟩
    · rw [keyed_of_ne key op f hk]
      exact hf k
  comm := by
    intro f i j hf hi hj
    by_cases hij : key i = key j
    · have hcomm := (h (key i)).comm (hf (key i)) ⟨hi, rfl⟩ ⟨hj, hij.symm⟩
      simp only [CommutingFold.keyed, hij, update_self, update_idem] at hcomm ⊢
      rw [hcomm]
    · simp only [CommutingFold.keyed, update_of_ne hij, update_of_ne (Ne.symm hij)]
      rw [update_comm hij]
  idem := by
    intro f i hf hi
    have hidem := (h (key i)).idem (hf (key i)) ⟨hi, rfl⟩
    simp only [CommutingFold.keyed, update_self, update_idem, hidem]

end Keyed

end CommutingFold
