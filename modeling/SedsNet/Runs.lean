import Mathlib

/-! # Runs of a step function

A system is a step function from a state and an event to the next state, and a run is a list of
events.  `Meets step C s es` says that every step of the run from `s` meets the condition `C` in
the state it starts from; `run_invariant` is the invariant rule for such runs.  `before step s es i`
is the state in which the event of index `i` happens, and `history_invariant` the rule for what
relates the events so far to the state they lead to. -/

namespace Runs

open List

variable {σ ε : Type*}

/-- The state after the events, from the first to the last. -/
def run (step : σ → ε → σ) (s : σ) (es : List ε) : σ := es.foldl step s

/-- Every step of the run meets `C` where it starts. -/
def Meets (step : σ → ε → σ) (C : σ → ε → Prop) : σ → List ε → Prop
  | _, [] => True
  | s, e :: es => C s e ∧ Meets step C (step s e) es

variable {step : σ → ε → σ} {C : σ → ε → Prop}

/-- A run can be tested against a condition that can be tested. -/
instance Meets.decidable [∀ s e, Decidable (C s e)] :
    ∀ (s : σ) (es : List ε), Decidable (Meets step C s es)
  | _, [] => inferInstanceAs (Decidable True)
  | s, e :: es =>
    have := Meets.decidable (step s e) es
    inferInstanceAs (Decidable (C s e ∧ Meets step C (step s e) es))

@[simp] theorem run_nil (s : σ) : run step s [] = s := rfl

@[simp] theorem run_cons (s : σ) (e : ε) (es : List ε) :
    run step s (e :: es) = run step (step s e) es := rfl

theorem run_append (s : σ) (es es' : List ε) :
    run step s (es ++ es') = run step (run step s es) es' := foldl_append

variable {s : σ} {es es' : List ε}

theorem meets_append : Meets step C s (es ++ es') ↔ Meets step C s es ∧ Meets step C (run step s es) es' := by
  induction es generalizing s with
  | nil => simp [Meets]
  | cons e es ih =>
    rw [cons_append, Meets, Meets, ih, and_assoc, run_cons]

theorem meets_of_forall {P : ε → Prop} (h : ∀ e ∈ es, P e) : Meets step (fun _ e => P e) s es := by
  induction es generalizing s with
  | nil => trivial
  | cons e es ih =>
    exact ⟨h e mem_cons_self, ih fun e' he' => h e' (mem_cons_of_mem _ he')⟩

theorem Meets.and {D : σ → ε → Prop} (h : Meets step C s es)
    (h' : Meets step D s es) : Meets step (fun s e => C s e ∧ D s e) s es := by
  induction es generalizing s with
  | nil => trivial
  | cons e es ih => exact ⟨⟨h.1, h'.1⟩, ih h.2 h'.2⟩

/-- What every admitted step preserves holds after every admitted run. -/
theorem run_invariant {I : σ → Prop} (hstep : ∀ s e, I s → C s e → I (step s e)) (h : I s)
    (hes : Meets step C s es) : I (run step s es) := by
  induction es generalizing s with
  | nil => exact h
  | cons e es ih =>
    obtain ⟨he, hes⟩ := hes
    exact ih (hstep s e h he) hes

/-- What every step preserves holds after every run. -/
theorem run_always {I : σ → Prop} (hstep : ∀ s e, I s → I (step s e)) (h : I s) (es : List ε) : I (run step s es) :=
  foldlRecOn es step h fun s hs e _ => hstep s e hs

theorem Meets.invariant {I : σ → Prop} (hes : Meets step C s es) (hstep : ∀ s e, I s → C s e → I (step s e))
    (h : I s) : Meets step (fun s e => I s ∧ C s e) s es := by
  induction es generalizing s with
  | nil => trivial
  | cons e es ih => exact ⟨⟨h, hes.1⟩, ih hes.2 (hstep s e h hes.1)⟩

theorem Meets.imp {D : σ → ε → Prop} (hes : Meets step C s es) (h : ∀ s e, C s e → D s e) : Meets step D s es := by
  induction es generalizing s with
  | nil => trivial
  | cons e es ih => exact ⟨h s e hes.1, ih hes.2⟩

/-- A rank that every step of the counted kind lowers bounds how many of them a run has. -/
theorem countP_le_rank (rank : σ → ℕ) {counted : ε → Bool}
    (hstep : ∀ s e, C s e → rank (step s e) + (if counted e then 1 else 0) ≤ rank s) (hes : Meets step C s es) :
    es.countP counted ≤ rank s := by
  induction es generalizing s with
  | nil => exact Nat.zero_le _
  | cons e es ih =>
    have hfirst := hstep s e hes.1
    have hrest := ih hes.2
    rw [countP_cons]
    omega

/-! ### Histories -/

/-- The state in which the event of index `i` happens. -/
def before (step : σ → ε → σ) (s : σ) (es : List ε) (i : ℕ) : σ := run step s (es.take i)

theorem run_concat (s : σ) (es : List ε) (e : ε) : run step s (es ++ [e]) = step (run step s es) e := by
  rw [run_append, run_cons, run_nil]

variable {i : ℕ}

theorem before_append (h : i ≤ es.length) : before step s (es ++ es') i = before step s es i := by
  rw [before, before, take_append_of_le_length h]

theorem before_length (s : σ) (es : List ε) : before step s es es.length = run step s es := by
  rw [before, take_length]

/-- The newest event of a run happens in the state the others lead to. -/
theorem before_concat (s : σ) (es : List ε) (e : ε) : before step s (es ++ [e]) es.length = run step s es := by
  rw [before_append le_rfl, before_length]

/-- An event of a run happens in the same state in a longer run. -/
theorem before_of_some {e : ε} (h : es[i]? = some e) : before step s (es ++ es') i = before step s es i :=
  before_append (List.getElem?_eq_some_iff.mp h).1.le

theorem before_succ {e : ε} (h : es[i]? = some e) : before step s es (i + 1) = step (before step s es i) e := by
  rw [before, before, take_add_one, h, Option.toList_some, run_concat]

/-- The events from index `i` to the end, run in the state of index `i`. -/
theorem run_drop_before (s : σ) (es : List ε) (i : ℕ) : run step (before step s es i) (es.drop i) = run step s es := by
  rw [before, ← run_append, take_append_drop]

/-- The index of an event of a run stays what it is in a longer run. -/
theorem getElem?_append_of_some {e : ε} (h : es[i]? = some e) : (es ++ es')[i]? = some e := by
  obtain ⟨hi, _⟩ := List.getElem?_eq_some_iff.mp h
  rw [List.getElem?_append_left hi, h]

/-- An event of a run with one more event is one of the run's, or the last one. -/
theorem getElem?_concat_cases {e e' : ε} (h : (es ++ [e])[i]? = some e') :
    (i < es.length ∧ es[i]? = some e') ∨ (i = es.length ∧ e' = e) := by
  obtain ⟨hi, -⟩ := List.getElem?_eq_some_iff.mp h
  rw [length_append, length_singleton] at hi
  obtain hi | rfl := Nat.lt_succ_iff_lt_or_eq.mp hi
  · rw [List.getElem?_append_left hi] at h
    exact .inl ⟨hi, h⟩
  · rw [List.getElem?_concat_length] at h
    cases h
    exact .inr ⟨rfl, rfl⟩

/-- A preorder that every step respects orders the states of a run. -/
theorem before_mono {R : σ → σ → Prop} (hrefl : ∀ s, R s s) (htrans : ∀ s t u, R s t → R t u → R s u)
    (hstep : ∀ s e, R s (step s e)) {i j : ℕ} (h : i ≤ j) : R (before step s es i) (before step s es j) := by
  have hsplit := take_append_drop i (es.take j)
  rw [take_take, min_eq_left h] at hsplit
  unfold before
  rw [← hsplit, run_append]
  exact run_always (I := R (run step s (es.take i))) (fun t e ht => htrans _ t _ ht (hstep t e)) (hrefl _) _

/-- What holds of no events and is kept by one more event holds of every run. -/
theorem history_invariant {P : List ε → σ → Prop} (h : P [] s)
    (hstep : ∀ es e, P es (run step s es) → P (es ++ [e]) (step (run step s es) e))
    (es : List ε) : P es (run step s es) := by
  induction es using List.reverseRecOn with
  | nil => exact h
  | append_singleton es e ih =>
    rw [run_concat]
    exact hstep es e ih

end Runs
