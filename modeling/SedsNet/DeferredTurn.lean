import SedsNet.FairSelection

/-! # Owed turns

`select_front_fair_deferred` owes a turn to the band of the item it selects, and
`finish_deferred_turn` settles the debt or, after a refusal, keeps it.  A run may also push, remove,
cancel the debt and clear the queue.  The debt stays until one of the events that `Settles` lists, and
after a refusal the owed band waits for at most one burst of the highest priority (`deferred_turn`). -/

namespace SedsNet

open Runs

namespace BoundedDeque

variable {T : Type} [ByteCost T] {priorityOf : T → UInt8} {d : BoundedDeque T} {burst B p : UInt8}
  {eligible : List T → T → Bool}

/-! ### Runs -/

/-- A queue with the burst of its owner. -/
structure TurnQueue (T : Type) where
  queue : BoundedDeque T
  burst : UInt8

inductive TurnEvent (T : Type) where
  | select (eligible : List T → T → Bool)
  | finish (priority : UInt8) (owns admitted retained : Bool)
  | push (e : Push T)
  | remove (index : ℕ)
  | cancel
  | clear

def TurnEvent.isSelect : TurnEvent T → Bool
  | .select _ => true
  | _ => false

def turnStep (B : UInt8) (priorityOf : T → UInt8) (s : TurnQueue T) : TurnEvent T → TurnQueue T
  | .select eligible =>
    let r := s.queue.selectFrontFairDeferred s.burst B priorityOf eligible
    ⟨r.2.1, r.2.2⟩
  | .finish priority owns admitted retained =>
    let r := s.queue.finishDeferredTurn priority owns admitted retained s.burst
    ⟨r.1, r.2⟩
  | .push e => ⟨(s.queue.push priorityOf e).queue, s.burst⟩
  | .remove index => ⟨s.queue.withoutSelected (some index), s.burst⟩
  | .cancel => ⟨s.queue.cancelDeferredTurn, s.burst⟩
  | .clear => ⟨s.queue.clear, s.burst⟩

/-- A turn is owed to the band `p`. -/
def Owes (d : BoundedDeque T) (p : UInt8) : Prop :=
  d.fairOwedFlags &&& priorityTurnPending ≠ 0 ∧ d.fairOwedPriority = p

/-- An owned attempt is under way. -/
def Attempted (d : BoundedDeque T) : Prop := d.fairOwedFlags &&& priorityTurnActive ≠ 0

/-- What ends a debt to the band `p`. -/
def Settles (priorityOf : T → UInt8) (p : UInt8) (s : TurnQueue T) : TurnEvent T → Prop
  | .select _ => ¬ Attempted s.queue ∧ ∀ x ∈ s.queue.q, priorityOf x ≠ p
  | .finish priority owns admitted retained =>
    owns = true ∧ Attempted s.queue ∧ priority = p ∧ (admitted = true ∨ retained = false)
  | .push _ => False
  | .remove _ => False
  | .cancel => True
  | .clear => True

/-- A selection that does not own the turn owed to `p`, with an eligible item of that band in the queue. -/
def Waits (B : UInt8) (priorityOf : T → UInt8) (p : UInt8) (s : TurnQueue T) : TurnEvent T → Prop
  | .select eligible => Owes s.queue p ∧ (∃ x ∈ s.queue.q, priorityOf x = p ∧ eligible s.queue.q x = true) ∧
      (s.queue.selectFrontFairDeferred s.burst B priorityOf eligible).1.map Prod.snd ≠ some true
  | _ => True

/-- A selection takes an item of the highest priority. -/
def Urgent (B : UInt8) (priorityOf : T → UInt8) (s : TurnQueue T) : TurnEvent T → Prop
  | .select eligible => ∃ i, (s.queue.selectFrontFairDeferred s.burst B priorityOf eligible).1 = some (i, false) ∧
      s.queue.q[i]?.map priorityOf = some 255
  | _ => True

/-! ### The debt is kept -/

omit [ByteCost T] in
theorem flags_turn {d' : BoundedDeque T} (h : d'.fairTurn = d.fairTurn) :
    d'.fairOwedFlags = d.fairOwedFlags ∧ d'.fairOwedPriority = d.fairOwedPriority := by
  simp only [fairTurn, Prod.mk.injEq] at h
  exact ⟨h.2.2, h.2.1⟩

omit [ByteCost T] in
theorem select_owes (h : Owes d p) (hband : ¬ (¬ Attempted d ∧ ∀ x ∈ d.q, priorityOf x ≠ p)) :
    Owes (d.selectFrontFairDeferred burst B priorityOf eligible).2.1 p := by
  have hactive : ∀ f, f &&& priorityTurnPending ≠ 0 → (f ||| priorityTurnActive) &&& priorityTurnPending ≠ 0 := by
    decide +kernel
  unfold selectFrontFairDeferred
  dsimp only
  split
  · exact h
  · exact ⟨hactive _ h.1, h.2⟩
  · -- the band is not empty, so the debt is not forgotten
    have hkept : (if d.fairOwedFlags &&& priorityTurnPending != 0 && d.fairOwedFlags &&& priorityTurnActive == 0 then
        d.forgetEmptyBand priorityOf else d) = d := by
      split
      · rename_i hwaiting
        rw [Bool.and_eq_true, beq_iff_eq] at hwaiting
        have hsome : ∃ x ∈ d.q, priorityOf x = p := by
          by_contra hnone
          exact hband ⟨fun hactive => hactive hwaiting.2, fun x hx heq => hnone ⟨x, hx, heq⟩⟩
        unfold forgetEmptyBand
        rw [if_pos (by simpa [h.2] using hsome)]
      · rfl
    obtain ⟨cursor, hsame⟩ := selectFrontFairWithContext_turn d burst B priorityOf eligible
    rw [hkept]
    generalize d.selectFrontFairWithContext burst B priorityOf eligible = r at hsame ⊢
    obtain ⟨selected, d₂, burst₂⟩ := r
    cases hsame
    have hflags : d.fairOwedFlags ≠ 0 := fun hzero => h.1 (by rw [hzero]; rfl)
    cases selected with
    | none => exact h
    | some index =>
      simp only [beq_false_of_ne hflags, Bool.false_and, Bool.false_eq_true, if_false]
      exact h

omit [ByteCost T] in
theorem finish_owes {priority : UInt8} {owns admitted retained : Bool} (h : Owes d p)
    (hopen : ¬ (owns = true ∧ Attempted d ∧ priority = p ∧ (admitted = true ∨ retained = false))) :
    Owes (d.finishDeferredTurn priority owns admitted retained burst).1 p := by
  have hnested : ∀ f, f &&& priorityTurnPending ≠ 0 →
      (f ||| priorityTurnNestedAdmission) &&& priorityTurnPending ≠ 0 := by decide +kernel
  have hclosed : ∀ f, f &&& priorityTurnPending ≠ 0 →
      (f &&& ~~~(priorityTurnActive ||| priorityTurnNestedAdmission)) &&& priorityTurnPending ≠ 0 := by decide +kernel
  obtain ⟨hpending, hp⟩ := h
  unfold Attempted at hopen
  unfold finishDeferredTurn Owes
  grind

theorem turnStep_owes (s : TurnQueue T) (e : TurnEvent T) (h : Owes s.queue p) (hopen : ¬ Settles priorityOf p s e) :
    Owes (turnStep B priorityOf s e).queue p := by
  cases e with
  | select eligible => exact select_owes h hopen
  | finish priority owns admitted retained => exact finish_owes h hopen
  | push e =>
    obtain ⟨hflags, howed⟩ := flags_turn (push_pushed priorityOf s.queue e).fairTurn
    unfold Owes turnStep
    rw [hflags, howed]
    exact h
  | remove index =>
    obtain ⟨hflags, howed⟩ := flags_turn (withoutSelected_spec s.queue (some index)).2
    unfold Owes turnStep
    rw [hflags, howed]
    exact h
  | cancel | clear => exact absurd trivial hopen

/-! ### After a refusal -/

omit [ByteCost T] in
/-- While no attempt is under way the owed band has its turn, unless the highest priority has some of its burst left. -/
theorem select_waits (hidle : ¬ Attempted d) (h : Owes d p)
    (hband : ∃ x ∈ d.q, priorityOf x = p ∧ eligible d.q x = true)
    (hother : (d.selectFrontFairDeferred burst B priorityOf eligible).1.map Prod.snd ≠ some true) :
    ∃ i, d.selectFrontFairDeferred burst B priorityOf eligible = (some (i, false), d, burst + 1) ∧ burst < B ∧
      d.q[i]?.map priorityOf = some 255 := by
  have hwaiting : (d.fairOwedFlags &&& priorityTurnPending != 0 && d.fairOwedFlags &&& priorityTurnActive == 0) = true := by
    simpa [Attempted] using And.intro h.1 (not_not.mp hidle)
  have howed : ∃ j, d.q.findIdx? (fun item => priorityOf item == d.fairOwedPriority && eligible d.q item) = some j := by
    rw [← Option.isSome_iff_exists, List.findIdx?_isSome, List.any_eq_true]
    simpa [h.2] using hband
  obtain ⟨j, hj⟩ := howed
  unfold selectFrontFairDeferred at hother ⊢
  rw [hwaiting, hj] at hother ⊢
  by_cases hless : burst < B
  · cases hurgent : d.q.findIdx? fun item => priorityOf item == 255 && eligible d.q item with
    | none =>
      simp [hurgent, hless] at hother
    | some i =>
      obtain ⟨a, hget, hfind, -⟩ := findIdx?_first hurgent
      have htop := List.find?_some hfind
      have hnext : ¬ burst = 255 := fun heq => by
        have hB := B.toNat_lt
        rw [heq, UInt8.lt_iff_toNat_lt] at hless
        simp at hless
        omega
      rw [Bool.and_eq_true, beq_iff_eq] at htop
      exact ⟨i, by simp [hless, hnext], hless, by rw [hget, Option.map_some, htop.1]⟩
  · simp [hless] at hother

theorem turnStep_waits (s : TurnQueue T) (e : TurnEvent T) (h : ¬ Attempted s.queue ∧ Waits B priorityOf p s e) :
    ¬ Attempted (turnStep B priorityOf s e).queue ∧ Urgent B priorityOf s e ∧
      B.toNat - (turnStep B priorityOf s e).burst.toNat + (if e.isSelect then 1 else 0) ≤ B.toNat - s.burst.toNat := by
  obtain ⟨hidle, hwaits⟩ := h
  have hzero : s.queue.fairOwedFlags &&& priorityTurnActive = 0 := not_not.mp hidle
  cases e with
  | select eligible =>
    obtain ⟨i, hselect, hless, htop⟩ := select_waits hidle hwaits.1 hwaits.2.1 hwaits.2.2
    have hlt := UInt8.lt_iff_toNat_lt.mp hless
    have hB := B.toNat_lt
    have hsucc : (s.burst + 1).toNat = s.burst.toNat + 1 := by
      rw [UInt8.toNat_add, UInt8.toNat_one]
      omega
    refine ⟨?_, ⟨i, by rw [hselect], htop⟩, ?_⟩
    · simpa [turnStep, hselect] using hidle
    · simp only [turnStep, hselect, hsucc, TurnEvent.isSelect, if_true]
      omega
  | finish priority owns admitted retained =>
    simp [turnStep, finishDeferredTurn, hzero, Attempted, Urgent, TurnEvent.isSelect]
  | push e =>
    obtain ⟨hflags, -⟩ := flags_turn (push_pushed priorityOf s.queue e).fairTurn
    simp [turnStep, hflags, hzero, Attempted, Urgent, TurnEvent.isSelect]
  | remove index =>
    obtain ⟨hflags, -⟩ := flags_turn (withoutSelected_spec s.queue (some index)).2
    simp [turnStep, hflags, hzero, Attempted, Urgent, TurnEvent.isSelect]
  | cancel => simp [turnStep, cancelDeferredTurn, hzero, Attempted, Urgent, TurnEvent.isSelect]
  | clear => simp [turnStep, BoundedDeque.clear, hzero, Attempted, Urgent, TurnEvent.isSelect]

omit [ByteCost T] in
theorem finish_idle (h : d.fairOwedPriority = p) : ¬ Attempted (d.finishDeferredTurn p true false true burst).1 := by
  have hclosed : ∀ f, (f &&& ~~~(priorityTurnActive ||| priorityTurnNestedAdmission)) &&& priorityTurnActive = 0 := by
    decide +kernel
  unfold finishDeferredTurn Attempted
  grind

/-- A turn stays owed in every run without an event that settles it; and after an owned attempt was refused,
the selections that wait with an eligible item of the owed band are at most `B` and all of priority 255. -/
theorem deferred_turn (B : UInt8) (priorityOf : T → UInt8) (p : UInt8) (s : TurnQueue T) (howed : Owes s.queue p)
    (es : List (TurnEvent T)) : (Meets (turnStep B priorityOf) (fun s e => ¬ Settles priorityOf p s e) s es →
      Owes (run (turnStep B priorityOf) s es).queue p) ∧
    (Meets (turnStep B priorityOf) (Waits B priorityOf p) (turnStep B priorityOf s (.finish p true false true)) es →
      es.countP TurnEvent.isSelect ≤ B.toNat ∧
      Meets (turnStep B priorityOf) (Urgent B priorityOf) (turnStep B priorityOf s (.finish p true false true)) es) := by
  constructor
  · exact run_invariant (I := fun s : TurnQueue T => Owes s.queue p) turnStep_owes howed
  · intro hes
    have hmeets := hes.invariant (I := fun s => ¬ Attempted s.queue) (fun s e hidle hwaits =>
      (turnStep_waits s e ⟨hidle, hwaits⟩).1) (finish_idle howed.2)
    have hcount := countP_le_rank (fun s : TurnQueue T => B.toNat - s.burst.toNat)
      (fun s e h => (turnStep_waits s e h).2.2) hmeets
    exact ⟨hcount.trans (Nat.sub_le _ _), hmeets.imp fun s e h => (turnStep_waits s e h).2.1⟩

/-- The turn after a burst goes to the lower of two bands. -/
def owingQueue : TurnQueue CostItem :=
  run (turnStep 8 CostItem.priority) ⟨fourSlots, 8⟩
    [.push ⟨grantingEnv, ⟨0, 10, 255⟩, none⟩, .push ⟨grantingEnv, ⟨1, 10, 254⟩, none⟩, .select anyItem]

theorem deferred_turn_refused : Owes (turnStep 8 CostItem.priority owingQueue (.select anyItem)).queue 254 ∧
      Urgent 8 CostItem.priority (turnStep 8 CostItem.priority owingQueue (.finish 254 true false true))
        (.select anyItem) := by
  have howed : Owes owingQueue.queue 254 := ⟨by decide +kernel, by decide +kernel⟩
  have hactive : Attempted owingQueue.queue := by
    unfold Attempted
    decide +kernel
  obtain ⟨hkept, hwaits⟩ := deferred_turn 8 CostItem.priority 254 owingQueue howed [.select anyItem]
  refine ⟨hkept ⟨fun hsettles => hsettles.1 hactive, trivial⟩, (hwaits ⟨⟨⟨?_, ?_⟩, ?_, ?_⟩, trivial⟩).2.1⟩
  all_goals decide +kernel

end BoundedDeque

end SedsNet
