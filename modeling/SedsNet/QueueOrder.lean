import SedsNet.QueueAccounting

/-! # The order of a prioritized queue

A prioritized push inserts its item behind all items of its own or of a higher priority.  `pushAll` is
a sequence of such pushes; without evictions the queue is the stable insertion of what was accepted
(`priority_insertion`), and a push evicts only items that yield to its own.

A push that is refused leaves the queue as it was exactly if it is refused before an item gives way to it
(`refused_push_keeps`); one that needs the room of several items may be refused behind the first
(`refused_push_evicts`). -/

namespace SedsNet

open ByteCost List

namespace BoundedDeque

variable {T : Type} [ByteCost T] {priorityOf : T → UInt8} {env : QueueEnv T} {d : BoundedDeque T} {v : T}

/-! ### Stable insertion -/

/-- The item goes before the first one of a lower priority. -/
def stableInsert (priorityOf : T → UInt8) (q : List T) (v : T) : List T :=
  q.orderedInsert (fun a b => priorityOf b < priorityOf a) v

/-- Descending priorities. -/
def Descending (priorityOf : T → UInt8) (q : List T) : Prop := q.Pairwise fun a b => priorityOf b ≤ priorityOf a

omit [ByteCost T] in
theorem stableInsert_eq (q : List T) : stableInsert priorityOf q v =
    q.takeWhile (fun b => decide (priorityOf v ≤ priorityOf b)) ++
      v :: q.dropWhile fun b => decide (priorityOf v ≤ priorityOf b) := by
  unfold stableInsert
  rw [orderedInsert_eq_take_drop]
  simp only [UInt8.not_lt]

variable {q : List T}

omit [ByteCost T] in
theorem descending_stableInsert (h : Descending priorityOf q) :
    Descending priorityOf (stableInsert priorityOf q v) := by
  induction q with
  | nil => exact pairwise_singleton _ v
  | cons x q ih =>
    obtain ⟨hx, hq⟩ := pairwise_cons.mp h
    unfold stableInsert
    rw [orderedInsert_cons]
    split
    case isTrue hlt =>
      refine pairwise_cons.mpr ⟨fun b hb => ?_, h⟩
      rcases mem_cons.mp hb with rfl | hb
      · exact UInt8.le_of_lt hlt
      · exact UInt8.le_trans (hx b hb) (UInt8.le_of_lt hlt)
    case isFalse hle =>
      refine pairwise_cons.mpr ⟨fun b hb => ?_, ih hq⟩
      rcases mem_cons.mp ((perm_orderedInsert _ v q).mem_iff.mp hb) with rfl | hb
      · exact UInt8.not_lt.mp hle
      · exact hx b hb

omit [ByteCost T] in
/-- A band of equal priority gets the item at its end. -/
theorem filter_stableInsert (h : Descending priorityOf q) (p : UInt8) :
    (stableInsert priorityOf q v).filter (fun b => priorityOf b = p) =
      q.filter (fun b => priorityOf b = p) ++ [v].filter fun b => priorityOf b = p := by
  induction q with
  | nil => rfl
  | cons x q ih =>
    obtain ⟨hx, hq⟩ := pairwise_cons.mp h
    unfold stableInsert
    rw [orderedInsert_cons]
    split
    case isTrue hlt =>
      by_cases hp : priorityOf v = p
      · -- no item of the band is behind a lower one
        have hnone : (x :: q).filter (fun b => decide (priorityOf b = p)) = [] := by
          rw [filter_eq_nil_iff]
          intro b hb heq
          rw [decide_eq_true_eq] at heq
          rw [← hp] at heq
          rcases mem_cons.mp hb with rfl | hb
          · exact absurd hlt (by rw [heq]; exact UInt8.lt_irrefl _)
          · exact absurd (UInt8.lt_of_le_of_lt (hx b hb) hlt) (by rw [heq]; exact UInt8.lt_irrefl _)
        rw [filter_cons_of_pos (by simpa using hp), hnone, nil_append]
        rw [filter_cons_of_pos (by simpa using hp), filter_nil]
      · rw [filter_cons_of_neg (by simpa using hp)]
        rw [filter_cons_of_neg (a := v) (by simpa using hp), filter_nil, append_nil]
    case isFalse hle =>
      have hrest := ih hq
      unfold stableInsert at hrest
      by_cases hp : priorityOf x = p
      · rw [filter_cons_of_pos (by simpa using hp), filter_cons_of_pos (by simpa using hp), hrest]
        rfl
      · rw [filter_cons_of_neg (by simpa using hp), filter_cons_of_neg (by simpa using hp), hrest]

omit [ByteCost T] in
theorem dropWhile_lower (h : Descending priorityOf q) (p : UInt8) :
    ∀ b ∈ q.dropWhile (fun b => decide (p ≤ priorityOf b)), priorityOf b < p := by
  induction q with
  | nil => exact fun b hb => absurd hb not_mem_nil
  | cons x q ih =>
    obtain ⟨hx, hq⟩ := pairwise_cons.mp h
    by_cases hp : p ≤ priorityOf x
    · rw [dropWhile_cons_of_pos (by simpa using hp)]
      exact ih hq
    rw [dropWhile_cons_of_neg (by simpa using hp)]
    intro b hb
    have hlt := UInt8.not_le.mp hp
    rcases mem_cons.mp hb with rfl | hb
    · exact hlt
    · exact UInt8.lt_of_le_of_lt (hx b hb) hlt

omit [ByteCost T] in
theorem insertIdx_length (l l' : List T) : (l ++ l').insertIdx l.length v = l ++ v :: l' := by
  induction l with
  | nil => rfl
  | cons x l ih => rw [cons_append, length_cons, insertIdx_succ_cons, ih, cons_append]

omit [ByteCost T] in
/-- The three ways to insert are one. -/
theorem insertPrioritizedPrepared_q (c : ℕ) (h : Descending priorityOf d.q) :
    (d.insertPrioritizedPrepared env v c (priorityOf v) priorityOf).q = stableInsert priorityOf d.q v := by
  have hsplit := takeWhile_append_dropWhile (p := fun b => decide (priorityOf v ≤ priorityOf b)) (l := d.q)
  rw [stableInsert_eq]
  unfold insertPrioritizedPrepared
  split
  · -- the tail is not lower, so no item is
    rename_i htail
    have hnone : d.q.dropWhile (fun b => decide (priorityOf v ≤ priorityOf b)) = [] := by
      by_contra hne
      have hlast := List.getLast?_append_of_ne_nil
        (d.q.takeWhile fun b => decide (priorityOf v ≤ priorityOf b)) hne
      rw [hsplit, List.getLast?_eq_some_getLast hne] at hlast
      rw [hlast] at htail
      have hlower := dropWhile_lower h (priorityOf v) _ (getLast_mem hne)
      exact absurd (of_decide_eq_true htail) (UInt8.not_le.mpr hlower)
    rw [hnone, append_nil] at hsplit
    rw [hnone, hsplit]
  · split
    · rename_i hhead
      cases hq : d.q with
      | nil =>
        rw [hq] at hhead
        cases hhead
      | cons x q =>
        rw [hq] at hhead
        have hlower : ¬ priorityOf v ≤ priorityOf x := UInt8.not_le.mpr (of_decide_eq_true hhead)
        rw [takeWhile_cons_of_neg (by simpa using hlower), dropWhile_cons_of_neg (by simpa using hlower)]
        rfl
    · have hupper : ∀ b ∈ d.q.takeWhile (fun b => decide (priorityOf v ≤ priorityOf b)),
          decide (priorityOf v ≤ priorityOf b) = true := fun b hb =>
        mem_takeWhile_imp (p := fun b => decide (priorityOf v ≤ priorityOf b)) hb
      have hlower : ∀ b ∈ d.q.dropWhile (fun b => decide (priorityOf v ≤ priorityOf b)),
          decide (priorityOf v ≤ priorityOf b) = false := fun b hb =>
        decide_eq_false (UInt8.not_le.mpr (dropWhile_lower h _ b hb))
      have hpoint := env.partitionPoint_append _ _ _ hupper hlower
      have hinsert := insertIdx_length (v := v) (d.q.takeWhile fun b => decide (priorityOf v ≤ priorityOf b))
        (d.q.dropWhile fun b => decide (priorityOf v ≤ priorityOf b))
      rw [hsplit] at hpoint hinsert
      rw [hpoint]
      exact hinsert

/-! ### Room -/

variable {c : ℕ}

variable {index : ℕ} {old : T}

theorem removePos_spec {d' : BoundedDeque T} (h : d.removePos index = some (old, d')) :
    d.q[index]? = some old ∧ d' = d.without old (d.q.eraseIdx index) := by
  unfold removePos at h
  split at h
  · cases h
  rename_i hget
  cases h
  exact ⟨hget, rfl⟩

variable {victim : BoundedDeque T → TelemetryResult ℕ}

/-- The fields of the fair selection, which a push does not touch. -/
def fairTurn (d : BoundedDeque T) : UInt8 × UInt8 × UInt8 :=
  (d.fairPriorityCursor, d.fairOwedPriority, d.fairOwedFlags)

/-- What the loop has removed were victims, and it has kept the order of the others; without a victim
the queue is what it was. -/
theorem makeRoom_spec (env : QueueEnv T) (c fuel : ℕ) {P : T → Prop}
    (hvictim : ∀ d index old, victim d = .ok index → d.q[index]? = some old → P old) :
    ∀ d, (∀ old ∈ (makeRoom env c victim fuel d).evicted, P old) ∧
      (makeRoom env c victim fuel d).queue.q.Sublist d.q ∧
      ((makeRoom env c victim fuel d).evicted = [] → (makeRoom env c victim fuel d).queue.q = d.q) ∧
      (makeRoom env c victim fuel d).queue.fairTurn = d.fairTurn := by
  induction fuel using Nat.strong_induction_on with
  | _ fuel ih =>
    intro d
    rcases makeRoom_cases env c fuel victim d with ⟨hroom, hfound⟩ | ⟨e, -, hfail⟩ | hnext
    · obtain ⟨ring, -, -, -, hkeeps⟩ := roomFor_keeps hroom
      rw [hfound, hkeeps]
      exact ⟨fun _ h => absurd h not_mem_nil, List.Sublist.refl _, fun _ => rfl, rfl⟩
    · rw [hfail]
      exact ⟨fun _ h => absurd h not_mem_nil, List.Sublist.refl _, fun _ => rfl, rfl⟩
    · obtain ⟨index, old, d', fuel', hindex, hremove, hfuel, hnext⟩ := hnext
      obtain ⟨hget, hd'⟩ := removePos_spec hremove
      obtain ⟨hevicted, hsub, -, hturn⟩ := ih fuel' (by omega) d'
      rw [hnext]
      refine ⟨fun x hx => ?_, hsub.trans ?_, fun hnil => (by cases hnil), hturn.trans ?_⟩
      · rcases mem_cons.mp hx with rfl | hx
        · exact hvictim d index x hindex hget
        · exact hevicted x hx
      · rw [hd']
        exact eraseIdx_sublist _ _
      · rw [hd']
        rfl

/-! ### Victims -/

variable {new : UInt8}

theorem yields_true {old new : UInt8} (h : yields old new = true) : old ≤ new ∧ ¬ (old = 254 ∧ new = 254) := by
  unfold yields at h
  rw [Bool.not_eq_true', Bool.or_eq_false_iff, decide_eq_false_iff_not, UInt8.not_lt] at h
  refine ⟨h.1, ?_⟩
  rintro ⟨rfl, rfl⟩
  cases h.2

omit [ByteCost T] in
theorem tailVictim_yields (h : tailVictim new priorityOf d = .ok index)
    (hget : d.q[index]? = some old) : yields (priorityOf old) new = true := by
  unfold tailVictim lowestPriority at h
  dsimp only at h
  split at h
  · cases h
  rename_i hyields
  split at h
  · cases h
  cases h
  rw [← List.getLast?_eq_getElem?] at hget
  rw [hget] at hyields
  simpa using hyields

omit [ByteCost T] in
theorem selectedVictim_yields {victim : BoundedDeque T → Option ℕ}
    (h : selectedVictim new priorityOf victim d = .ok index) (hget : d.q[index]? = some old) :
    yields (priorityOf old) new = true := by
  unfold selectedVictim at h
  split at h
  · cases h
  split at h
  · cases h
  rename_i hold
  split at h
  · cases h
  rename_i hyields
  cases h
  rw [hget] at hold
  cases hold
  simpa using hyields

/-! ### Sequences of pushes -/

/-- A prioritized push, with a choice of victims or with the tail as victim. -/
structure Push (T : Type) where
  env : QueueEnv T
  item : T
  select : Option (BoundedDeque T → T → Option ℕ)

/-- `push_back_prioritized` or `push_back_prioritized_select`. -/
def push (priorityOf : T → UInt8) (d : BoundedDeque T) (e : Push T) : PushOutcome T :=
  match e.select with
  | none => d.pushBackPrioritizedObserved e.env e.item priorityOf
  | some victim => d.pushBackPrioritizedSelect e.env e.item priorityOf victim

/-- What a push may do: refuse, with or without evictions, or evict and insert. -/
structure Pushed (priorityOf : T → UInt8) (d : BoundedDeque T) (v : T) (r : PushOutcome T) : Prop where
  evicted : ∀ old ∈ r.evicted, yields (priorityOf old) (priorityOf v) = true
  refused : ∀ e, r.result = .error e → r.queue.q.Sublist d.q ∧ (r.evicted = [] → r.queue.q = d.q)
  accepted : r.result = .ok () → Descending priorityOf d.q →
    ∃ kept : List T, kept.Sublist d.q ∧ (r.evicted = [] → kept = d.q) ∧ r.queue.q = stableInsert priorityOf kept v
  fairTurn : r.queue.fairTurn = d.fairTurn

theorem pushPrioritizedWith_pushed (v : T)
    (hvictim : ∀ d index old, victim d = .ok index → d.q[index]? = some old →
      yields (priorityOf old) (priorityOf v) = true) :
    Pushed priorityOf d v (d.pushPrioritizedWith env v priorityOf victim) := by
  have hnothing : ∀ e, Pushed priorityOf d v ⟨.error e, d, []⟩ := fun e =>
    ⟨fun _ h => absurd h not_mem_nil, fun _ _ => ⟨List.Sublist.refl _, fun _ => rfl⟩, fun h => (by cases h), rfl⟩
  unfold pushPrioritizedWith
  split
  · exact hnothing _
  split
  · exact hnothing _
  obtain ⟨hevicted, hsub, hkept, hturn⟩ := makeRoom_spec env (byteCost v) d.q.length hvictim d
  dsimp only
  split
  · exact ⟨hevicted, fun _ _ => ⟨hsub, hkept⟩, fun h => (by cases h), hturn⟩
  · refine ⟨hevicted, fun _ h => (by cases h), fun _ hdesc => ?_, hturn⟩
    exact ⟨_, hsub, hkept, insertPrioritizedPrepared_q _ (hdesc.sublist hsub)⟩

theorem push_pushed (priorityOf : T → UInt8) (d : BoundedDeque T) (e : Push T) :
    Pushed priorityOf d e.item (d.push priorityOf e) := by
  unfold push
  split
  · exact pushPrioritizedWith_pushed e.item fun _ _ _ h hget => tailVictim_yields h hget
  · exact pushPrioritizedWith_pushed e.item fun _ _ _ h hget => selectedVictim_yields h hget

/-- A queue filled by prioritized pushes is in order. -/
theorem descending_push (e : Push T) (h : Descending priorityOf d.q) :
    Descending priorityOf (d.push priorityOf e).queue.q := by
  obtain ⟨-, hrefused, haccepted, -⟩ := push_pushed priorityOf d e
  cases hresult : (d.push priorityOf e).result with
  | error err => exact h.sublist (hrefused err hresult).1
  | ok u =>
    obtain ⟨kept, hsub, -, hq⟩ := haccepted hresult h
    rw [hq]
    exact descending_stableInsert (h.sublist hsub)

/-- The queue after some pushes, with what was accepted and what was evicted. -/
structure PushLog (T : Type) where
  queue : BoundedDeque T
  accepted : List T
  evicted : List T

def pushNext (priorityOf : T → UInt8) (log : PushLog T) (e : Push T) : PushLog T :=
  let r := log.queue.push priorityOf e
  ⟨r.queue, log.accepted ++ r.accepted e.item, log.evicted ++ r.evicted⟩

/-- The pushes one after the other. -/
def pushAll (priorityOf : T → UInt8) (d : BoundedDeque T) (es : List (Push T)) : PushLog T :=
  Runs.run (pushNext priorityOf) ⟨d, [], []⟩ es

/-- Without evictions the queue is the stable insertion of what was accepted. -/
structure Ordered (priorityOf : T → UInt8) (log : PushLog T) : Prop where
  insertion : log.queue.q = log.accepted.foldl (stableInsert priorityOf) []
  descending : Descending priorityOf log.queue.q
  bands : ∀ p, log.queue.q.filter (fun b => priorityOf b = p) = log.accepted.filter fun b => priorityOf b = p

theorem Ordered.pushNext {log : PushLog T} (h : Ordered priorityOf log) {e : Push T}
    (hnone : (log.queue.push priorityOf e).evicted = []) : Ordered priorityOf (pushNext priorityOf log e) := by
  obtain ⟨-, hrefused, haccepted, -⟩ := push_pushed priorityOf log.queue e
  unfold BoundedDeque.pushNext PushOutcome.accepted
  dsimp only
  cases hresult : (log.queue.push priorityOf e).result with
  | error err =>
    have hq := (hrefused err hresult).2 hnone
    rw [append_nil]
    refine ⟨?_, ?_, fun p => ?_⟩
    · exact hq.trans h.insertion
    · exact hq ▸ h.descending
    · exact hq ▸ h.bands p
  | ok u =>
    obtain ⟨kept, -, hkept, hq⟩ := haccepted hresult h.descending
    rw [hkept hnone] at hq
    refine ⟨?_, ?_, fun p => ?_⟩
    · rw [foldl_append, ← h.insertion]
      exact hq
    · rw [hq]
      exact descending_stableInsert h.descending
    · rw [hq, filter_stableInsert h.descending, filter_append, h.bands p]

theorem pushAll_ordered (hempty : d.q = []) (es : List (Push T)) (hnone : (d.pushAll priorityOf es).evicted = []) :
    Ordered priorityOf (d.pushAll priorityOf es) := by
  induction es using List.reverseRecOn with
  | nil =>
    have hstart : (d.pushAll priorityOf []).queue.q = [] := hempty
    refine ⟨hstart, ?_, fun p => ?_⟩
    · rw [hstart]
      exact List.Pairwise.nil
    · rw [hstart]
      rfl
  | append_singleton es e ih =>
    unfold pushAll at hnone ih ⊢
    rw [Runs.run_concat] at hnone ⊢
    obtain ⟨hbefore, hlast⟩ := append_eq_nil_iff.mp hnone
    exact (ih hbefore).pushNext hlast

/-- From an empty queue of any limits, pushes that evict nothing leave the stable insertion of the
accepted items into descending priorities, with each band in the order of arrival; and in any state a
push evicts only items of at most its own priority, and at 254 none of the same. -/
theorem priority_insertion (priorityOf : T → UInt8) :
    (∀ (d : BoundedDeque T) (es : List (Push T)), d.q = [] → (d.pushAll priorityOf es).evicted = [] →
      (d.pushAll priorityOf es).queue.q = (d.pushAll priorityOf es).accepted.foldl (stableInsert priorityOf) [] ∧
      Descending priorityOf (d.pushAll priorityOf es).queue.q ∧
      ∀ p, (d.pushAll priorityOf es).queue.q.filter (fun b => priorityOf b = p) =
        (d.pushAll priorityOf es).accepted.filter fun b => priorityOf b = p) ∧
    (∀ (d : BoundedDeque T) (e : Push T), ∀ old ∈ (d.push priorityOf e).evicted,
      priorityOf old ≤ priorityOf e.item ∧ ¬ (priorityOf old = 254 ∧ priorityOf e.item = 254)) := by
  constructor
  · intro d es hempty hnone
    have hordered := pushAll_ordered hempty es hnone
    exact ⟨hordered.insertion, hordered.descending, hordered.bands⟩
  · intro d e old hold
    exact yields_true ((push_pushed priorityOf d e).evicted old hold)

/-- Four slots that do not grow. -/
def fourSlots : BoundedDeque CostItem := { twoSlots 96 4 with capacity := 4 }

/-- Two items of one priority and one of a higher one. -/
def threePushes : List (Push CostItem) :=
  [⟨grantingEnv, ⟨0, 10, 3⟩, none⟩, ⟨grantingEnv, ⟨1, 10, 7⟩, none⟩, ⟨grantingEnv, ⟨2, 10, 3⟩, some fun _ _ => none⟩]

theorem priority_insertion_three :
    (fourSlots.pushAll CostItem.priority threePushes).queue.q = [⟨1, 10, 7⟩, ⟨0, 10, 3⟩, ⟨2, 10, 3⟩] ∧
      (fourSlots.pushAll CostItem.priority threePushes).queue.q.filter (fun b => b.priority = 3) =
        (fourSlots.pushAll CostItem.priority threePushes).accepted.filter fun b => b.priority = 3 := by
  refine ⟨by decide +kernel, ?_⟩
  exact ((priority_insertion CostItem.priority).1 fourSlots threePushes rfl (by decide +kernel)).2.2 3

/-! ### Refused pushes -/

/-- Any push of an item. -/
inductive AnyPush (T : Type) where
  | fifo (env : QueueEnv T) (item : T)
  | prioritized (e : Push T)

def pushAny (priorityOf : T → UInt8) (d : BoundedDeque T) : AnyPush T → PushOutcome T
  | .fifo env item => d.pushBack env item
  | .prioritized e => d.push priorityOf e

/-- How a prioritized push chooses what it removes. -/
def Push.choice (priorityOf : T → UInt8) (e : Push T) : BoundedDeque T → TelemetryResult ℕ :=
  match e.select with
  | none => tailVictim (priorityOf e.item) priorityOf
  | some select => selectedVictim (priorityOf e.item) priorityOf fun d => select d e.item

theorem push_eq (d : BoundedDeque T) (e : Push T) :
    d.push priorityOf e = d.pushPrioritizedWith e.env e.item priorityOf (e.choice priorityOf) := by
  unfold push Push.choice
  cases e.select with
  | none | some => rfl

/-- A queued item is the first to give way. -/
def GivesWay (victim : BoundedDeque T → TelemetryResult ℕ) (d : BoundedDeque T) : Prop :=
  ∃ index old, victim d = .ok index ∧ d.q[index]? = some old

/-- A loop that gives up has removed something exactly if there was a first victim. -/
theorem makeRoom_refused {c fuel : ℕ} (hfuel : d.q.length ≤ fuel) {e : TelemetryError}
    (h : (makeRoom env c victim fuel d).result = .error e) :
    ((makeRoom env c victim fuel d).queue.q = d.q ∧ (makeRoom env c victim fuel d).queue.curBytes = d.curBytes) ↔
      ¬ GivesWay victim d := by
  rcases makeRoom_cases env c fuel victim d with ⟨-, hfound⟩ | ⟨e, hstuck, hfail⟩ | hnext
  · rw [hfound] at h
    cases h
  · rw [hfail]
    refine iff_of_true ⟨rfl, rfl⟩ ?_
    rintro ⟨index, old, hindex, hget⟩
    obtain ⟨hlt, -⟩ := List.getElem?_eq_some_iff.mp hget
    rcases hstuck index hindex with hzero | hnone
    · omega
    · cases hget.symm.trans hnone
  · -- the queue behind the first victim is shorter, and stays so
    obtain ⟨index, old, d', fuel', hindex, hremove, -, hnext⟩ := hnext
    obtain ⟨hget, rfl⟩ := removePos_spec hremove
    refine iff_of_false ?_ (not_not_intro ⟨index, old, hindex, hget⟩)
    rintro ⟨hq, -⟩
    obtain ⟨-, hsub, -, -⟩ := makeRoom_spec env c fuel' (fun _ _ _ _ _ => trivial) (d.without old (d.q.eraseIdx index))
    have hlength := (perm_eraseIdx hget).length_eq
    have hle : d.q.length ≤ (d.q.eraseIdx index).length := by
      rw [hnext] at hq
      exact (congrArg length hq).symm.le.trans hsub.length_le
    rw [length_append, length_singleton] at hlength
    omega

/-- Both refusals of `push_back` come before its first change. -/
theorem pushBack_refused {e : TelemetryError} (h : (d.pushBack env v).result = .error e) :
    (d.pushBack env v).queue = d := by
  unfold pushBack at h ⊢
  dsimp only at h ⊢
  cases hresult : (d.preparePushFifo env (byteCost v)).result with
  | ok =>
    rw [hresult] at h
    cases h
  | error =>
    dsimp only
    unfold preparePushFifo at hresult ⊢
    split
    · rfl
    rename_i hcapacity
    rw [if_neg hcapacity] at hresult
    split
    · rfl
    rename_i hsize
    rw [if_neg hsize] at hresult
    cases hresult

/-- The push is refused before an item gives way: there is no ring, the item is over the budget, or no
queued item gives way first. -/
def RefusedAtOnce (priorityOf : T → UInt8) (d : BoundedDeque T) : AnyPush T → Prop
  | .fifo _ _ => True
  | .prioritized e => d.capacity = 0 ∨ d.maxBytes < byteCost e.item ∨ ¬ GivesWay (e.choice priorityOf) d

/-- A push that is refused leaves the items, their order and the bytes as they were exactly if it is
refused before an item gives way. -/
theorem refused_push_keeps (priorityOf : T → UInt8) (d : BoundedDeque T) (e : AnyPush T) (err : TelemetryError)
    (h : (d.pushAny priorityOf e).result = .error err) :
    ((d.pushAny priorityOf e).queue.q = d.q ∧ (d.pushAny priorityOf e).queue.curBytes = d.curBytes) ↔
      d.RefusedAtOnce priorityOf e := by
  cases e with
  | fifo env item =>
    refine iff_of_true ?_ trivial
    have hsame : (d.pushBack env item).queue = d := pushBack_refused h
    exact ⟨congrArg q hsame, congrArg curBytes hsame⟩
  | prioritized e =>
    unfold pushAny RefusedAtOnce at *
    dsimp only at h ⊢
    rw [push_eq] at h ⊢
    unfold pushPrioritizedWith at h ⊢
    split
    · rename_i hcapacity
      exact iff_of_true ⟨rfl, rfl⟩ (.inl hcapacity)
    rename_i hcapacity
    rw [if_neg hcapacity] at h
    split
    · rename_i hsize
      exact iff_of_true ⟨rfl, rfl⟩ (.inr (.inl hsize))
    rename_i hsize
    rw [if_neg hsize] at h
    dsimp only at h ⊢
    split
    · rename_i hresult
      rw [or_iff_right hcapacity, or_iff_right hsize]
      exact makeRoom_refused (Nat.le_refl _) hresult
    · rename_i hresult
      rw [hresult] at h
      cases h

/-- Half the budget each, of priorities 5 and 1. -/
def twoPushes : List (Push CostItem) := [⟨grantingEnv, ⟨0, 50, 5⟩, none⟩, ⟨grantingEnv, ⟨1, 50, 1⟩, none⟩]

/-- An item of priority 3 that needs all of the budget. -/
def wholePush : AnyPush CostItem := .prioritized ⟨grantingEnv, ⟨2, 100, 3⟩, none⟩

/-- The push is refused for the item of priority 5, after the item of priority 1 is gone. -/
theorem refused_push_evicts : BoundedDeque.new grantingEnv 100 48 0x3ff0000000000000 = .ok (twoSlots 100 4) ∧
      ((twoSlots 100 4).pushAll CostItem.priority twoPushes).queue.q = [⟨0, 50, 5⟩, ⟨1, 50, 1⟩] ∧
      (((twoSlots 100 4).pushAll CostItem.priority twoPushes).queue.pushAny CostItem.priority wholePush).result =
        .error (.io "priority queue saturated") ∧
      (((twoSlots 100 4).pushAll CostItem.priority twoPushes).queue.pushAny CostItem.priority wholePush).queue.q =
        [⟨0, 50, 5⟩] ∧
      (((twoSlots 100 4).pushAll CostItem.priority twoPushes).queue.pushAny CostItem.priority wholePush).queue.curBytes =
        50 := by
  refine ⟨by decide +kernel, by decide +kernel, by decide +kernel, by decide +kernel, by decide +kernel⟩

/-- An item of twice the size of the others, refused for its low priority. -/
def lowPush : AnyPush CostItem := .prioritized ⟨grantingEnv, ⟨2, 100, 0⟩, none⟩

theorem refused_push_keeps_two :
    (((twoSlots 100 4).pushAll CostItem.priority twoPushes).queue.pushAny CostItem.priority lowPush).queue.q =
      ((twoSlots 100 4).pushAll CostItem.priority twoPushes).queue.q := by
  refine ((refused_push_keeps CostItem.priority _ lowPush (.io "priority queue saturated")
    (by decide +kernel)).mpr (.inr (.inr ?_))).1
  rintro ⟨index, old, hindex, -⟩
  cases hindex

end BoundedDeque

end SedsNet
