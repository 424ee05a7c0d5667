import SedsNet.QueueOrder

/-! # Turns of the lower bands

`select_front_fair_with_context` serves the front of a queue, and after a burst of `B` such turns the
waiting band that follows the cursor.  A band that is passed over comes nearer to the cursor with every
turn of another lower band, so it waits for fewer than `256 * (B + 1)` selections (`fair_selection_bound`)
unless it is itself the front when the burst is spent: then a lower band takes its turn, and this can go
on for any number of selections (`starving_rounds`). -/

namespace SedsNet

open ByteCost Runs List

namespace BoundedDeque

variable {T : Type} {priorityOf : T → UInt8}

/-! ### The nearest lower band -/

section Nearest

variable {cursor frontPriority : UInt8} {ready : T → Bool}

/-- How far a priority is behind the cursor, downwards and around. -/
def turnDistance (cursor priority : UInt8) : UInt8 := cursor - priority - 1

/-- The search keeps what it has or finds an item with its priority and its distance. -/
theorem nearestLower_found (l : List T) : ∀ idx best b,
    nearestLower cursor frontPriority ready priorityOf idx best l = some b → best = some b ∨
      ∃ k x, l[k]? = some x ∧ b = (idx + k, priorityOf x, turnDistance cursor (priorityOf x)) := by
  induction l with
  | nil => exact fun idx best b h => .inl h
  | cons x l ih =>
    intro idx best b h
    rcases ih _ _ _ h with hbest | ⟨k, y, hget, hb⟩
    · split at hbest
      · cases hbest
        exact .inr ⟨0, x, rfl, rfl⟩
      · exact .inl hbest
    · refine .inr ⟨k + 1, y, hget, ?_⟩
      rw [hb]
      congr 1
      omega

theorem nearestLower_le (l : List T) : ∀ idx b₀,
    ∃ b, nearestLower cursor frontPriority ready priorityOf idx (some b₀) l = some b ∧ b.2.2 ≤ b₀.2.2 := by
  induction l with
  | nil => exact fun idx b₀ => ⟨b₀, rfl, UInt8.le_refl _⟩
  | cons x l ih =>
    intro idx b₀
    rw [nearestLower]
    split
    case isTrue htake =>
      obtain ⟨b, hb, hle⟩ := ih (idx + 1) (idx, priorityOf x, cursor - priorityOf x - 1)
      rw [Bool.and_eq_true] at htake
      have hnearer : cursor - priorityOf x - 1 < b₀.2.2 := of_decide_eq_true htake.2
      exact ⟨b, hb, UInt8.le_trans hle (UInt8.le_of_lt hnearer)⟩
    case isFalse => exact ih (idx + 1) b₀

/-- No ready item of a lower priority is nearer than the one that is found. -/
theorem nearestLower_nearest (l : List T) : ∀ idx best, ∀ x ∈ l, ready x = true →
    priorityOf x < frontPriority → ∃ b, nearestLower cursor frontPriority ready priorityOf idx best l = some b ∧
      b.2.2 ≤ turnDistance cursor (priorityOf x) := by
  induction l with
  | nil => exact fun _ _ x hx => absurd hx not_mem_nil
  | cons y l ih =>
    intro idx best x hx hready hlower
    rw [nearestLower]
    rcases mem_cons.mp hx with rfl | hx
    · split
      · exact nearestLower_le l (idx + 1) _
      case isFalse hskip =>
        -- what was found before is at least as near
        cases best with
        | none => exact absurd (by simp [hready, hlower]) hskip
        | some b₀ =>
          obtain ⟨b, hb, hle⟩ := nearestLower_le l (idx + 1) b₀
          rw [hready, decide_eq_true hlower] at hskip
          have hnear : b₀.2.2 ≤ cursor - priorityOf x - 1 := by simpa using hskip
          exact ⟨b, hb, UInt8.le_trans hle hnear⟩
    · exact ih _ _ x hx hready hlower

/-- The first ready item, which comes before all the others. -/
theorem findIdx?_first {q : List T} {i : ℕ} (h : q.findIdx? ready = some i) :
    ∃ a, q[i]? = some a ∧ q.find? ready = some a ∧ ∀ x ∈ q, ready x = true → x = a ∨ x ∈ q.drop (i + 1) := by
  induction q generalizing i with
  | nil => cases h
  | cons y q ih =>
    rw [List.findIdx?_cons] at h
    cases hy : ready y with
    | true =>
      rw [hy] at h
      cases h
      exact ⟨y, rfl, List.find?_cons_of_pos hy, fun x hx _ => mem_cons.mp hx⟩
    | false =>
      rw [hy, if_neg (by decide), Option.map_eq_some_iff] at h
      obtain ⟨j, hj, rfl⟩ := h
      obtain ⟨a, hget, hfind, hrest⟩ := ih hj
      refine ⟨a, hget, by rw [List.find?_cons_of_neg (by simp [hy]), hfind], fun x hx hready => ?_⟩
      rcases mem_cons.mp hx with rfl | hx
      · rw [hy] at hready
        cases hready
      · exact hrest x hx hready

end Nearest

/-! ### Runs of selections -/

variable [ByteCost T]

/-- A queue of descending priorities with the burst of its owner. -/
@[ext] structure FairQueue (priorityOf : T → UInt8) where
  queue : BoundedDeque T
  burst : UInt8
  descending : Descending priorityOf queue.q

inductive FairEvent (T : Type) where
  | push (e : Push T)
  | select (eligible : List T → T → Bool)

def FairEvent.isSelect : FairEvent T → Bool
  | .push _ => false
  | .select _ => true

/-- The queue without the selected item. -/
def withoutSelected (d : BoundedDeque T) (selected : Option ℕ) : BoundedDeque T :=
  match selected.bind d.removePos with
  | none => d
  | some r => r.2

theorem withoutSelected_spec (d : BoundedDeque T) (selected : Option ℕ) :
    (d.withoutSelected selected).q.Sublist d.q ∧ (d.withoutSelected selected).fairTurn = d.fairTurn := by
  unfold withoutSelected
  split
  · exact ⟨List.Sublist.refl _, rfl⟩
  · rename_i r h
    obtain ⟨v, d'⟩ := r
    obtain ⟨i, -, hremove⟩ := Option.bind_eq_some_iff.mp h
    obtain ⟨-, rfl⟩ := removePos_spec hremove
    exact ⟨eraseIdx_sublist _ _, rfl⟩

variable {d : BoundedDeque T} {burst B p : UInt8} {eligible : List T → T → Bool}

theorem descending_select (h : Descending priorityOf d.q) :
    Descending priorityOf ((d.selectFrontFairWithContext burst B priorityOf eligible).2.1.withoutSelected
      (d.selectFrontFairWithContext burst B priorityOf eligible).1).q := by
  have hsub := (withoutSelected_spec (d.selectFrontFairWithContext burst B priorityOf eligible).2.1
    (d.selectFrontFairWithContext burst B priorityOf eligible).1).1
  obtain ⟨cursor, hsame⟩ := selectFrontFairWithContext_turn d burst B priorityOf eligible
  exact h.sublist (hsub.trans (by rw [hsame]))

/-- A push, or a selection with the removal of what it selected. -/
def fairStep (B : UInt8) (s : FairQueue priorityOf) : FairEvent T → FairQueue priorityOf
  | .push e => ⟨(s.queue.push priorityOf e).queue, s.burst, descending_push e s.descending⟩
  | .select eligible =>
    let r := s.queue.selectFrontFairWithContext s.burst B priorityOf eligible
    ⟨r.2.1.withoutSelected r.1, r.2.2, descending_select s.descending⟩

/-- The priority that a selection serves. -/
def servedPriority (B : UInt8) (d : BoundedDeque T) (burst : UInt8) (priorityOf : T → UInt8)
    (eligible : List T → T → Bool) : Option UInt8 :=
  ((d.selectFrontFairWithContext burst B priorityOf eligible).1.bind (d.q[·]?)).map priorityOf

/-- The selection passes over the priority `p`, of which an eligible item is queued. -/
def Passes (B p : UInt8) (s : FairQueue priorityOf) : FairEvent T → Prop
  | .push _ => True
  | .select eligible => (∃ x ∈ s.queue.q, eligible s.queue.q x = true ∧ priorityOf x = p) ∧
      servedPriority B s.queue s.burst priorityOf eligible ≠ some p

/-- The first ready item is not of priority `p` when the burst is spent. -/
def FrontSpared (B p : UInt8) (s : FairQueue priorityOf) : FairEvent T → Prop
  | .push _ => True
  | .select eligible => B ≤ s.burst → (s.queue.q.find? (eligible s.queue.q)).map priorityOf ≠ some p

instance (s : FairQueue priorityOf) (e : FairEvent T) : Decidable (Passes B p s e) :=
  match e with
  | .push _ => inferInstanceAs (Decidable True)
  | .select _ => inferInstanceAs (Decidable (_ ∧ _))

instance (s : FairQueue priorityOf) (e : FairEvent T) : Decidable (FrontSpared B p s e) :=
  match e with
  | .push _ => inferInstanceAs (Decidable True)
  | .select _ => inferInstanceAs (Decidable (_ → _))

/-! ### The bound -/

/-- How many selections may still pass over `p`. -/
def turnRank (B p cursor burst : UInt8) : ℕ :=
  (turnDistance cursor p).toNat * (B.toNat + 1) + (B.toNat - burst.toNat)

theorem turnRank_lt (B p cursor burst : UInt8) : turnRank B p cursor burst < 256 * (B.toNat + 1) := by
  have hlt := (turnDistance cursor p).toNat_lt
  have hmul := Nat.mul_le_mul_right (B.toNat + 1) (show (turnDistance cursor p).toNat ≤ 255 by omega)
  unfold turnRank
  omega

/-- The turn of a band in between brings the cursor nearer. -/
theorem turnDistance_lt {cursor p q : UInt8} (hne : q ≠ p) (hle : turnDistance cursor q ≤ turnDistance cursor p) :
    (turnDistance q p).toNat < (turnDistance cursor p).toNat := by
  unfold turnDistance at *
  have hvalue : q.toNat ≠ p.toNat := fun h => hne (UInt8.toNat_inj.mp h)
  rw [UInt8.le_iff_toNat_le] at hle
  simp only [UInt8.toNat_sub, UInt8.toNat_ofNat] at hle ⊢
  have hq := q.toNat_lt
  have hp := p.toNat_lt
  omega

omit [ByteCost T] in
theorem select_lowers (hdesc : Descending priorityOf d.q)
    (hqueued : ∃ x ∈ d.q, eligible d.q x = true ∧ priorityOf x = p)
    (hother : servedPriority B d burst priorityOf eligible ≠ some p)
    (hspared : B ≤ burst → (d.q.find? (eligible d.q)).map priorityOf ≠ some p) :
    turnRank B p (d.selectFrontFairWithContext burst B priorityOf eligible).2.1.fairPriorityCursor
      (d.selectFrontFairWithContext burst B priorityOf eligible).2.2 < turnRank B p d.fairPriorityCursor burst := by
  obtain ⟨x, hx, hready, hxp⟩ := hqueued
  unfold servedPriority selectFrontFairWithContext at hother
  unfold selectFrontFairWithContext
  cases hfront : d.q.findIdx? (eligible d.q) with
  | none => exact absurd hready (by simpa using List.findIdx?_eq_none_iff.mp hfront x hx)
  | some front =>
    obtain ⟨a, hget, hfind, hrest⟩ := findIdx?_first hfront
    rw [hfront] at hother
    rw [hfind] at hspared
    simp only [hget, Option.map_some, Option.getD_some] at hother hspared ⊢
    -- `p` is not the front: it would be served, or the burst is spent
    have hfrontNe : priorityOf a ≠ p := by
      rintro heq
      by_cases hspent : B ≤ burst
      · exact hspared hspent (by rw [heq])
      · apply hother
        split <;> simp [hspent, hget, heq]
    have hbehind : x ∈ d.q.drop (front + 1) := (hrest x hx hready).resolve_left fun heq =>
      hfrontNe (heq ▸ hxp)
    have hlower : priorityOf x < priorityOf a := by
      have hle : priorityOf x ≤ priorityOf a := by
        obtain ⟨k, hk⟩ := mem_iff_getElem?.mp hbehind
        rw [List.getElem?_drop] at hk
        obtain ⟨hi, hai⟩ := List.getElem?_eq_some_iff.mp hget
        obtain ⟨hj, hxj⟩ := List.getElem?_eq_some_iff.mp hk
        rw [← hai, ← hxj]
        exact pairwise_iff_getElem.mp hdesc _ _ hi hj (by omega)
      exact UInt8.lt_of_le_of_ne hle fun heq => hfrontNe (heq ▸ hxp)
    have hnear : ∃ b, nearestLower d.fairPriorityCursor (priorityOf a) (eligible d.q) priorityOf (front + 1) none
        (d.q.drop (front + 1)) = some b ∧ b.2.2 ≤ turnDistance d.fairPriorityCursor (priorityOf x) :=
      nearestLower_nearest _ _ none x hbehind hready hlower
    obtain ⟨b, hnearest, hdist⟩ := hnear
    obtain hbest | ⟨k, y, hy, hb⟩ := nearestLower_found _ _ _ _ hnearest
    · cases hbest
    rw [hb] at hnearest hdist
    rw [hnearest] at hother ⊢
    rw [List.getElem?_drop] at hy
    unfold turnRank
    by_cases hspent : B ≤ burst
    · -- another band has its turn
      simp only [hspent, if_true] at hother ⊢
      have hyp : priorityOf y ≠ p := fun heq => hother (by rw [Option.bind_some, hy, Option.map_some, heq])
      have hnearer := turnDistance_lt hyp (hxp ▸ hdist)
      have hmul := Nat.mul_le_mul_right (B.toNat + 1) (Nat.succ_le_of_lt hnearer)
      rw [Nat.succ_mul] at hmul
      rw [UInt8.toNat_zero]
      omega
    · -- the front has one more turn of its burst
      have hless : burst.toNat < B.toNat := UInt8.lt_iff_toNat_lt.mp (UInt8.not_le.mp hspent)
      have hB := B.toNat_lt
      have hnext : ¬ burst = 255 := fun heq => by
        rw [heq] at hless
        exact absurd hless (by simp; omega)
      have hsucc : (burst + 1).toNat = burst.toNat + 1 := by
        rw [UInt8.toNat_add, UInt8.toNat_one]
        omega
      simp only [hspent, hnext, if_false, hsucc]
      omega

theorem fairStep_rank (s : FairQueue priorityOf) (e : FairEvent T) (h : Passes B p s e ∧ FrontSpared B p s e) :
    turnRank B p (fairStep B s e).queue.fairPriorityCursor (fairStep B s e).burst + (if e.isSelect then 1 else 0) ≤
      turnRank B p s.queue.fairPriorityCursor s.burst := by
  cases e with
  | push e =>
    have hcursor : (s.queue.push priorityOf e).queue.fairPriorityCursor = s.queue.fairPriorityCursor :=
      congrArg Prod.fst (push_pushed priorityOf s.queue e).fairTurn
    simp [fairStep, hcursor, FairEvent.isSelect]
  | select eligible =>
    have hcursor : (fairStep B s (.select eligible)).queue.fairPriorityCursor =
        (s.queue.selectFrontFairWithContext s.burst B priorityOf eligible).2.1.fairPriorityCursor :=
      congrArg Prod.fst (withoutSelected_spec _ _).2
    rw [hcursor]
    exact select_lowers s.descending h.1.1 h.1.2 h.2

/-- A run of selections that all pass over a priority of which an eligible item is queued has fewer than
`256 * (B + 1)` of them, when that priority is not the first one ready when the burst is spent. -/
theorem fair_selection_bound (B p : UInt8) (s : FairQueue priorityOf) (es : List (FairEvent T))
    (hpassed : Meets (fairStep B) (Passes B p) s es) (hspared : Meets (fairStep B) (FrontSpared B p) s es) :
    es.countP FairEvent.isSelect < 256 * (B.toNat + 1) := by
  have hcount := countP_le_rank (fun s : FairQueue priorityOf => turnRank B p s.queue.fairPriorityCursor s.burst)
    (fun s e h => fairStep_rank s e h) (hpassed.and hspared)
  exact Nat.lt_of_le_of_lt hcount (turnRank_lt B p s.queue.fairPriorityCursor s.burst)

/-- Every item may be selected. -/
def anyItem : List CostItem → CostItem → Bool := fun _ _ => true

/-- A push of an item of the given priority. -/
def pushOf (tag : ℕ) (priority : UInt8) : FairEvent CostItem := .push ⟨grantingEnv, ⟨tag, 10, priority⟩, none⟩

/-- An item of the highest priority is pushed and served, then the lowest band has its turn. -/
def starvingRound : List (FairEvent CostItem) := [pushOf 2 255, .select anyItem, .select anyItem, pushOf 1 1]

/-- Items of priority 5 and 1, after one such round. -/
def middleQueue : FairQueue CostItem.priority :=
  run (fairStep 1) ⟨fourSlots, 0, List.Pairwise.nil⟩ (pushOf 0 5 :: pushOf 1 1 :: starvingRound)

/-- Priority 5 is passed over in any number of selections. -/
theorem starving_rounds (n : ℕ) : ∃ es,
    Meets (fairStep 1) (Passes 1 5) middleQueue es ∧ es.countP FairEvent.isSelect = 2 * n := by
  have hround : run (fairStep 1) middleQueue starvingRound = middleQueue :=
    FairQueue.ext (by decide +kernel) (by decide +kernel)
  induction n with
  | zero => exact ⟨[], trivial, rfl⟩
  | succ n ih =>
    obtain ⟨es, hes, hcount⟩ := ih
    refine ⟨starvingRound ++ es, meets_append.mpr ⟨by decide +kernel, hround.symm ▸ hes⟩, ?_⟩
    rw [countP_append, hcount]
    exact Nat.add_comm _ _

theorem middle_band_starves : ∃ es : List (FairEvent CostItem),
    Meets (fairStep 1) (Passes 1 5) middleQueue es ∧ 256 * (1 + 1) ≤ es.countP FairEvent.isSelect := by
  obtain ⟨es, hes, hcount⟩ := starving_rounds 256
  exact ⟨es, hes, Nat.le_of_eq hcount.symm⟩

/-- Items of four priorities. -/
def fourBands : FairQueue CostItem.priority :=
  run (fairStep 1) ⟨fourSlots, 0, List.Pairwise.nil⟩ [pushOf 0 5, pushOf 1 1, pushOf 2 7, pushOf 3 255]

/-- Priority 5 waits for two items of the highest priority and for one of the band between them. -/
theorem fair_selection_bound_middle :
    let es : List (FairEvent CostItem) := [.select anyItem, pushOf 4 255, .select anyItem, .select anyItem]
    (run (fairStep 1) fourBands es).queue.q.map CostItem.priority = [5, 1] ∧
      es.countP FairEvent.isSelect < 256 * 2 :=
  ⟨by decide +kernel, fair_selection_bound 1 5 fourBands _ (by decide +kernel) (by decide +kernel)⟩

end BoundedDeque

end SedsNet
