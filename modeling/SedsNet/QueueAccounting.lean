import SedsNet.BoundedDeque
import SedsNet.Runs

/-! # The books of a bounded queue

Every operation of a queue takes items in, gives items up, or changes them where they are.  `Drops`
describes the removals and `Moves` all the rest; both compose, so an operation is described by
following its steps.  Over a run the recorded bytes are those of the retained items and stay within
the budget, and no item is lost or counted twice (`queue_accounting`).  Costs are sizes in memory, so
the retained bytes with those of an item that comes are a `usize`. -/

namespace SedsNet

open ByteCost List

namespace BoundedDeque

variable {T : Type} [ByteCost T]

/-- The byte costs of some items. -/
def cost (items : List T) : ℕ := (items.map byteCost).sum

theorem cost_perm {l l' : List T} (h : l.Perm l') : cost l = cost l' := (h.map byteCost).sum_eq

theorem cost_append (l l' : List T) : cost (l ++ l') = cost l + cost l' := by
  rw [cost, map_append, sum_append]
  rfl

theorem cost_cons (v : T) (l : List T) : cost (v :: l) = byteCost v + cost l := sum_cons

/-- The recorded bytes are those of the items, and all limits are kept. -/
structure Sound (d : BoundedDeque T) : Prop where
  bytes : d.curBytes = cost d.q
  within : d.curBytes ≤ d.maxBytes
  length : d.q.length ≤ d.maxElems
  ring : d.q.length ≤ d.capacity
  elems : 0 < d.maxElems
  budget : d.maxBytes ≤ usizeMax

variable {itemCost : ℕ} {d : BoundedDeque T}

/-! ### Removals -/

/-- The queue gave up some items and kept the others. -/
structure Drops (d : BoundedDeque T) (gone : List T) (d' : BoundedDeque T) : Prop where
  sound : Sound d'
  maxBytes : d'.maxBytes = d.maxBytes
  maxElems : d'.maxElems = d.maxElems
  capacity : d.capacity ≤ d'.capacity
  items : d.q.Perm (d'.q ++ gone)

namespace Drops

theorem refl (h : Sound d) : Drops d [] d where
  sound := h
  maxBytes := rfl
  maxElems := rfl
  capacity := Nat.le_refl _
  items := by rw [append_nil]

theorem trans {d' d'' : BoundedDeque T} {gone gone' : List T} (h : Drops d gone d')
    (h' : Drops d' gone' d'') : Drops d (gone ++ gone') d'' where
  sound := h'.sound
  maxBytes := h'.maxBytes.trans h.maxBytes
  maxElems := h'.maxElems.trans h.maxElems
  capacity := h.capacity.trans h'.capacity
  items := by
    refine h.items.trans ((h'.items.append_right gone).trans ?_)
    rw [append_assoc]
    exact perm_append_comm.append_left d''.q

variable {d' : BoundedDeque T} {gone : List T} (h : Drops d gone d')

include h

theorem curBytes_le (hd : Sound d) : d'.curBytes ≤ d.curBytes := by
  rw [hd.bytes, h.sound.bytes, cost_perm h.items, cost_append]
  omega

theorem length_eq : d.q.length = d'.q.length + gone.length := by
  rw [h.items.length_eq, length_append]

end Drops

theorem perm_eraseIdx {α : Type} {l : List α} {i : ℕ} {v : α} (h : l[i]? = some v) : l.Perm (l.eraseIdx i ++ [v]) := by
  obtain ⟨hi, rfl⟩ := List.getElem?_eq_some_iff.mp h
  exact (getElem_cons_eraseIdx_perm hi).symm.trans (perm_append_singleton _ _).symm

variable {idx : ℕ}

theorem removePos_drops {d' : BoundedDeque T} (hd : Sound d) {v : T}
    (h : d.removePos idx = some (v, d')) : Drops d [v] d' := by
  unfold removePos at h
  split at h
  · cases h
  rename_i hget
  cases h
  have hitems := perm_eraseIdx hget
  have hcost : cost d.q = cost (d.q.eraseIdx idx) + byteCost v := by
    rw [cost_perm hitems, cost_append]
    rfl
  have hlength : d.q.length = (d.q.eraseIdx idx).length + 1 := by
    rw [hitems.length_eq, length_append, length_singleton]
  have hbytes := hd.bytes
  have hwithin := hd.within
  have hlen := hd.length
  have hring := hd.ring
  refine ⟨⟨?_, ?_, ?_, ?_, hd.elems, hd.budget⟩, rfl, rfl, Nat.le_refl _, hitems⟩
  · change d.curBytes - byteCost v = cost (d.q.eraseIdx idx)
    omega
  · change d.curBytes - byteCost v ≤ d.maxBytes
    omega
  · change (d.q.eraseIdx idx).length ≤ d.maxElems
    omega
  · change (d.q.eraseIdx idx).length ≤ d.capacity
    omega

theorem popFront_eq (d : BoundedDeque T) : d.popFront = d.removePos 0 := by
  unfold popFront removePos
  cases d.q with
  | nil | cons => rfl

theorem popBack_eq (d : BoundedDeque T) : d.popBack = d.removePos (d.q.length - 1) := by
  unfold popBack removePos
  rw [← List.getLast?_eq_getElem?, eraseIdx_length_sub_one]

theorem dropFront_drops (hd : Sound d) : Drops d d.dropFront.2 d.dropFront.1 := by
  unfold dropFront
  rw [popFront_eq]
  split
  · exact .refl hd
  · rename_i hpop
    exact removePos_drops hd hpop

theorem dropFront_length (d : BoundedDeque T) : d.dropFront.1.q.length = d.q.length - 1 := by
  unfold dropFront popFront
  cases hq : d.q with
  | nil => simp [hq]
  | cons v q => rfl

theorem dropFront_capacity (d : BoundedDeque T) : d.dropFront.1.capacity = d.capacity := by
  unfold dropFront popFront
  cases d.q with
  | nil | cons => rfl

variable {fuel : ℕ}

theorem retainFrom_drops {keep : T → Bool} (hd : Sound d) :
    Drops d (retainFrom keep fuel idx d).2 (retainFrom keep fuel idx d).1 := by
  induction fuel generalizing idx d with
  | zero => exact .refl hd
  | succ fuel ih =>
    unfold retainFrom
    split
    · exact .refl hd
    split
    · exact ih hd
    · split
      · exact .refl hd
      · rename_i hremove
        have hdrop := removePos_drops hd hremove
        exact hdrop.trans (ih hdrop.sound)

theorem clear_drops (hd : Sound d) : Drops d d.q d.clear where
  sound := ⟨rfl, Nat.zero_le _, Nat.zero_le _, Nat.zero_le _, hd.elems, hd.budget⟩
  maxBytes := rfl
  maxElems := rfl
  capacity := Nat.le_refl _
  items := List.Perm.refl _

/-! ### Room -/

omit [ByteCost T] in
theorem targetCapacity_gt (h : d.capacity < d.maxElems) : d.capacity < d.targetCapacity := by
  unfold targetCapacity
  dsimp only
  omega

theorem dropFront_room (hd : Sound d) (hcapacity : 0 < d.capacity) :
    d.dropFront.1.q.length < d.dropFront.1.capacity := by
  rw [dropFront_length, dropFront_capacity]
  have := hd.ring
  omega

/-- What a check for room does: the ring is large enough or grows, a full queue drops its front item, or
the ring cannot grow. -/
theorem ensureRoomForOne_cases (env : QueueEnv T) (d : BoundedDeque T) :
    (∃ ring, d.capacity ≤ ring ∧ d.q.length < ring ∧ d.ensureRoomForOne env = (true, { d with capacity := ring }, [])) ∨
      (d.capacity ≤ d.q.length ∧ (d.fixedCapacity = true ∨ d.maxElems ≤ d.q.length) ∧
        d.ensureRoomForOne env = (true, d.dropFront)) ∨ d.ensureRoomForOne env = (false, d, []) := by
  unfold ensureRoomForOne
  by_cases hroom : d.q.length < d.capacity
  · exact .inl ⟨d.capacity, Nat.le_refl _, hroom, if_pos hroom⟩
  have hfull := Nat.not_lt.mp hroom
  rw [if_neg hroom]
  split
  case isTrue hfixed => exact .inr (.inl ⟨hfull, .inl hfixed, rfl⟩)
  split
  case isTrue hlength => exact .inr (.inl ⟨hfull, .inr hlength, rfl⟩)
  split
  case isTrue hcap => exact .inr (.inl ⟨hfull, .inr (hcap.trans hfull), rfl⟩)
  rename_i hcap
  have htarget := targetCapacity_gt (Nat.not_le.mp hcap)
  dsimp only
  rw [if_pos (by omega)]
  split
  · rename_i ring _ hreserve
    have hring := env.reserve_le _ _ hreserve
    exact .inl ⟨ring, by omega, by omega, rfl⟩
  · exact .inr (.inr rfl)

theorem Drops.grow (hd : Sound d) {ring : ℕ} (hle : d.capacity ≤ ring) : Drops d [] { d with capacity := ring } :=
  ⟨⟨hd.bytes, hd.within, hd.length, hd.ring.trans hle, hd.elems, hd.budget⟩, rfl, rfl, hle, by rw [append_nil]⟩

/-- After a check that succeeds there is room. -/
theorem ensureRoomForOne_drops {env : QueueEnv T} (hd : Sound d) (hcapacity : 0 < d.capacity)
    {done : Bool × BoundedDeque T × List T} (hdone : d.ensureRoomForOne env = done) :
    Drops d done.2.2 done.2.1 ∧ (done.1 = true → done.2.1.q.length < done.2.1.capacity) := by
  subst hdone
  obtain ⟨ring, hle, hroom, heq⟩ | ⟨-, -, heq⟩ | heq := ensureRoomForOne_cases env d
  · rw [heq]
    exact ⟨.grow hd hle, fun _ => hroom⟩
  · rw [heq]
    exact ⟨dropFront_drops hd, fun _ => dropFront_room hd hcapacity⟩
  · rw [heq]
    exact ⟨.refl hd, fun h => by simp at h⟩

theorem Sound.curBytes_nil (hd : Sound d) (h : d.q = []) : d.curBytes = 0 := by
  rw [hd.bytes, h]
  rfl

theorem evictFront_drops (hd : Sound d) (hcost : itemCost ≤ d.maxBytes) (hsum : d.curBytes + itemCost ≤ usizeMax)
    (hfuel : d.q.length ≤ fuel) :
    Drops d (evictFront itemCost fuel d).2 (evictFront itemCost fuel d).1 ∧
      (evictFront itemCost fuel d).1.curBytes + itemCost ≤ d.maxBytes := by
  induction fuel generalizing d with
  | zero =>
    have hnil : d.q = [] := eq_nil_of_length_eq_zero (by omega)
    refine ⟨.refl hd, ?_⟩
    change d.curBytes + itemCost ≤ d.maxBytes
    rw [hd.curBytes_nil hnil]
    simpa using hcost
  | succ fuel ih =>
    have hwrap : wrapAdd d.curBytes itemCost = d.curBytes + itemCost :=
      Nat.mod_eq_of_lt (by unfold usizeMax at hsum; omega)
    unfold evictFront
    rw [hwrap, popFront_eq]
    split
    · split
      · rename_i hover hnone
        have hnil : d.q = [] := by
          unfold removePos at hnone
          cases hq : d.q with
          | nil => rfl
          | cons v q => simp [hq] at hnone
        have hzero := hd.curBytes_nil hnil
        omega
      · rename_i v d' hpop
        have hdrop := removePos_drops hd hpop
        have hlength := hdrop.length_eq
        rw [length_singleton] at hlength
        have hless := hdrop.curBytes_le hd
        obtain ⟨hrest, hfits⟩ := ih hdrop.sound (hdrop.maxBytes ▸ hcost) (by omega) (by omega)
        exact ⟨hdrop.trans hrest, hdrop.maxBytes ▸ hfits⟩
    · rename_i hfits
      exact ⟨.refl hd, Nat.not_lt.mp hfits⟩

/-- The item fits in every respect. -/
structure Fits (d : BoundedDeque T) (itemCost : ℕ) : Prop where
  bytes : d.curBytes + itemCost ≤ d.maxBytes
  length : d.q.length < d.maxElems
  ring : d.q.length < d.capacity

theorem preparePushFifo_drops (env : QueueEnv T) (hd : Sound d) (hsum : d.curBytes + itemCost ≤ usizeMax) :
    ∃ out, d.preparePushFifo env itemCost = out ∧ Drops d out.evicted out.queue ∧
      (out.result = .ok () → Fits out.queue itemCost) := by
  refine ⟨_, rfl, ?_⟩
  unfold preparePushFifo
  split
  · exact ⟨.refl hd, fun h => by cases h⟩
  split
  · exact ⟨.refl hd, fun h => by cases h⟩
  rename_i hcost
  obtain ⟨hdrop₁, hfits⟩ := evictFront_drops hd (Nat.not_lt.mp hcost) hsum (Nat.le_refl _)
  generalize evictFront itemCost d.q.length d = r₁ at hdrop₁ hfits
  have hstep₂ : ∃ r₂,
      (if r₁.1.maxElems ≤ r₁.1.q.length then r₁.1.dropFront else (r₁.1, [])) = r₂ ∧
        Drops r₁.1 r₂.2 r₂.1 ∧ r₂.1.q.length < r₂.1.maxElems := by
    refine ⟨_, rfl, ?_⟩
    have helems := hdrop₁.sound.elems
    have hlength := hdrop₁.sound.length
    split
    · have hdrop := dropFront_drops hdrop₁.sound
      refine ⟨hdrop, ?_⟩
      rw [dropFront_length, hdrop.maxElems]
      omega
    · rename_i hlt
      exact ⟨.refl hdrop₁.sound, Nat.not_le.mp hlt⟩
  obtain ⟨r₂, hr₂, hdrop₂, hlength₂⟩ := hstep₂
  have hcapacity₂ : 0 < r₂.1.capacity := by
    have h₁ := hdrop₁.capacity
    have h₂ := hdrop₂.capacity
    omega
  simp only [hr₂]
  generalize hr₃ : r₂.1.ensureRoomForOne env = r₃
  obtain ⟨hdrop₃, hroom⟩ := ensureRoomForOne_drops hdrop₂.sound hcapacity₂ hr₃
  have hstep₄ : ∃ r₄,
      (if r₃.1 then (r₃.2.1, []) else r₃.2.1.dropFront) = r₄ ∧ Drops r₃.2.1 r₄.2 r₄.1 ∧
        r₄.1.q.length < r₄.1.capacity := by
    refine ⟨_, rfl, ?_⟩
    cases hok : r₃.1 with
    | true => exact ⟨.refl hdrop₃.sound, hroom hok⟩
    | false => exact ⟨dropFront_drops hdrop₃.sound, dropFront_room hdrop₃.sound (hcapacity₂.trans_le hdrop₃.capacity)⟩
  obtain ⟨r₄, hr₄, hdrop₄, hring₄⟩ := hstep₄
  simp only [hr₄]
  have hdrops := hdrop₂.trans (hdrop₃.trans hdrop₄)
  refine ⟨?_, fun _ => ⟨?_, ?_, hring₄⟩⟩
  · have hall := hdrop₁.trans hdrops
    rw [← append_assoc, ← append_assoc] at hall
    exact hall
  · have hle := hdrops.curBytes_le hdrop₁.sound
    rw [hdrops.maxBytes, hdrop₁.maxBytes]
    omega
  · have hlen := (hdrop₃.trans hdrop₄).length_eq
    rw [(hdrop₃.trans hdrop₄).maxElems]
    omega

omit [ByteCost T] in
theorem not_atLimit (hsum : d.curBytes + itemCost ≤ usizeMax) (h : d.atLimit itemCost = false) :
    d.curBytes + itemCost ≤ d.maxBytes ∧ d.q.length < d.maxElems := by
  simp only [atLimit, Bool.or_eq_false_iff, decide_eq_false_iff_not] at h
  obtain ⟨⟨hbytes, hlength⟩, _⟩ := h
  rw [satAdd, Nat.min_eq_left hsum] at hbytes
  omega

/-- A check that finds room has changed nothing but the ring. -/
theorem roomFor_keeps {env : QueueEnv T} {c : ℕ} (h : (d.roomFor env c).1 = true) :
    ∃ ring, d.capacity ≤ ring ∧ d.q.length < ring ∧ d.atLimit c = false ∧
      d.roomFor env c = (true, { d with capacity := ring }, []) := by
  unfold roomFor at h ⊢
  cases hlimit : d.atLimit c with
  | true =>
    rw [hlimit] at h
    cases h
  | false =>
    rw [hlimit] at h
    obtain ⟨ring, hle, hroom, heq⟩ | ⟨hfull, hstuck, -⟩ | heq := ensureRoomForOne_cases env d
    · exact ⟨ring, hle, hroom, rfl, heq⟩
    · simp only [atLimit, Bool.or_eq_false_iff, Bool.and_eq_false_iff, decide_eq_false_iff_not] at hlimit
      obtain ⟨⟨-, helems⟩, hfixed⟩ := hlimit
      have hgrows := hfixed.resolve_right (fun hnot => hnot hfull)
      rcases hstuck with hstuck | hstuck
      · cases hgrows.symm.trans hstuck
      · exact absurd hstuck helems
    · rw [heq] at h
      cases h

theorem roomFor_drops (env : QueueEnv T) (hd : Sound d) (hsum : d.curBytes + itemCost ≤ usizeMax)
    (h : (d.roomFor env itemCost).1 = true) : Drops d (d.roomFor env itemCost).2.2 (d.roomFor env itemCost).2.1 ∧
      Fits (d.roomFor env itemCost).2.1 itemCost := by
  obtain ⟨ring, hle, hroom, hlimit, heq⟩ := roomFor_keeps h
  obtain ⟨hbytes, hlength⟩ := not_atLimit hsum hlimit
  rw [heq]
  exact ⟨.grow hd hle, hbytes, hlength, hroom⟩

/-- The loop finds room, gives up without a victim, or removes a victim and goes on. -/
theorem makeRoom_cases (env : QueueEnv T) (c fuel : ℕ) (victim : BoundedDeque T → TelemetryResult ℕ)
    (d : BoundedDeque T) :
    ((d.roomFor env c).1 = true ∧ makeRoom env c victim fuel d = ⟨.ok (), (d.roomFor env c).2.1, (d.roomFor env c).2.2⟩) ∨
      (∃ e, (∀ index, victim d = .ok index → fuel = 0 ∨ d.q[index]? = none) ∧
        makeRoom env c victim fuel d = ⟨.error e, d, []⟩) ∨
      ∃ index old d' fuel', victim d = .ok index ∧ d.removePos index = some (old, d') ∧ fuel = fuel' + 1 ∧
        makeRoom env c victim fuel d =
          { makeRoom env c victim fuel' d' with evicted := old :: (makeRoom env c victim fuel' d').evicted } := by
  rw [makeRoom.eq_def env c victim fuel d]
  dsimp only
  split
  case isTrue hroom => exact .inl ⟨hroom, rfl⟩
  cases hindex : victim d with
  | error e => exact .inr (.inl ⟨e, fun _ h => (by cases h), rfl⟩)
  | ok index =>
    cases fuel with
    | zero => exact .inr (.inl ⟨_, fun _ _ => .inl rfl, rfl⟩)
    | succ fuel =>
      dsimp only
      cases hremove : d.removePos index with
      | none =>
        unfold removePos at hremove
        split at hremove
        · rename_i hget
          exact .inr (.inl ⟨_, fun _ h => .inr (Except.ok.inj h ▸ hget), rfl⟩)
        · cases hremove
      | some removed => exact .inr (.inr ⟨index, removed.1, removed.2, fuel, rfl, hremove, rfl, rfl⟩)

/-- The loop ends with room or with an error; what it removed is reported. -/
theorem makeRoom_drops (env : QueueEnv T) (victim : BoundedDeque T → TelemetryResult ℕ) (hd : Sound d)
    (hsum : d.curBytes + itemCost ≤ usizeMax) :
    ∃ out, makeRoom env itemCost victim fuel d = out ∧ Drops d out.evicted out.queue ∧
      (out.result = .ok () → Fits out.queue itemCost) := by
  refine ⟨_, rfl, ?_⟩
  induction fuel using Nat.strong_induction_on generalizing d with
  | _ fuel ih =>
    rcases makeRoom_cases env itemCost fuel victim d with ⟨hr, hroom⟩ | ⟨e, -, hfail⟩ | hnext
    · obtain ⟨hdrop, hfits⟩ := roomFor_drops env hd hsum hr
      rw [hroom]
      exact ⟨hdrop, fun _ => hfits⟩
    · rw [hfail]
      exact ⟨.refl hd, fun h => by cases h⟩
    · obtain ⟨index, old, d', fuel', -, hremove, hfuel, hnext⟩ := hnext
      have hdrop := removePos_drops hd hremove
      have hless := hdrop.curBytes_le hd
      obtain ⟨hrest, hfits⟩ := ih fuel' (by omega) hdrop.sound (by omega)
      rw [hnext]
      exact ⟨hdrop.trans hrest, hfits⟩

/-! ### Insertions and updates -/

/-- The queue took some items in, gave some up, and kept the identity of the others; its limits are
what they were. -/
structure Moves {ι : Type} (ident : T → ι) (d : BoundedDeque T) (accepted gone : List T)
    (d' : BoundedDeque T) : Prop where
  sound : Sound d'
  maxBytes : d'.maxBytes = d.maxBytes
  maxElems : d'.maxElems = d.maxElems
  items : ((d.q ++ accepted).map ident).Perm ((d'.q ++ gone).map ident)

section Moves

variable {ι : Type} {ident : T → ι} {d' : BoundedDeque T} {gone : List T}

theorem Drops.moves (h : Drops d gone d') :
    Moves ident d [] gone d' where
  sound := h.sound
  maxBytes := h.maxBytes
  maxElems := h.maxElems
  items := by
    rw [append_nil]
    exact h.items.map ident

theorem Moves.trans {d'' : BoundedDeque T} {accepted accepted' gone' : List T}
    (h : Moves ident d accepted gone d') (h' : Moves ident d' accepted' gone' d'') :
    Moves ident d (accepted ++ accepted') (gone ++ gone') d'' where
  sound := h'.sound
  maxBytes := h'.maxBytes.trans h.maxBytes
  maxElems := h'.maxElems.trans h.maxElems
  items := by
    have h₁ := h.items
    have h₂ := h'.items
    simp only [map_append, ← Multiset.coe_eq_coe, ← Multiset.coe_add] at h₁ h₂ ⊢
    calc (d.q.map ident : Multiset ι) + (accepted.map ident + accepted'.map ident)
        = (d.q.map ident + accepted.map ident) + accepted'.map ident := (add_assoc _ _ _).symm
      _ = (d'.q.map ident + accepted'.map ident) + gone.map ident := by rw [h₁, add_right_comm]
      _ = d''.q.map ident + (gone.map ident + gone'.map ident) := by
          rw [h₂, add_assoc, add_comm (gone'.map ident : Multiset ι)]

variable {v : T}

theorem Fits.insert (hd : Sound d) (hfits : Fits d (byteCost v)) {q : List T} (hq : q.Perm (v :: d.q)) :
    Moves ident d [v] [] { d with q, curBytes := satAdd d.curBytes (byteCost v) } := by
  have hbytes := hfits.bytes
  have hsat : satAdd d.curBytes (byteCost v) = d.curBytes + byteCost v := Nat.min_eq_left (hbytes.trans hd.budget)
  have hlength := hq.length_eq
  rw [length_cons] at hlength
  have hlen := hfits.length
  have hring := hfits.ring
  refine ⟨⟨?_, ?_, ?_, ?_, hd.elems, hd.budget⟩, rfl, rfl, ?_⟩
  · change satAdd d.curBytes (byteCost v) = cost q
    rw [hsat, cost_perm hq, cost_cons, hd.bytes]
    omega
  · change satAdd d.curBytes (byteCost v) ≤ d.maxBytes
    omega
  · change q.length ≤ d.maxElems
    omega
  · change q.length ≤ d.capacity
    omega
  · rw [append_nil]
    exact ((perm_append_singleton v d.q).trans hq.symm).map ident

omit [ByteCost T] in
theorem insertPrioritizedPrepared_perm (env : QueueEnv T) (d : BoundedDeque T) (v : T) (c : ℕ) (priority : UInt8)
    (priorityOf : T → UInt8) : (d.insertPrioritizedPrepared env v c priority priorityOf).q.Perm (v :: d.q) := by
  unfold insertPrioritizedPrepared
  split
  · exact perm_append_singleton v d.q
  · split
    · exact List.Perm.refl _
    · exact perm_insertIdx v d.q (env.partitionPoint_le _ _)

theorem insertPrioritizedPrepared_moves (env : QueueEnv T) (hd : Sound d)
    (hfits : Fits d (byteCost v)) (newPriority : UInt8) (priorityOf : T → UInt8) :
    Moves ident d [v] [] (d.insertPrioritizedPrepared env v (byteCost v) newPriority priorityOf) :=
  hfits.insert hd (insertPrioritizedPrepared_perm env d v (byteCost v) newPriority priorityOf)

/-- What a push accepts. -/
def PushOutcome.accepted (r : PushOutcome T) (v : T) : List T :=
  match r.result with
  | .ok () => [v]
  | .error _ => []

theorem pushBack_moves (env : QueueEnv T) (hd : Sound d) (hsum : d.curBytes + byteCost v ≤ usizeMax) :
    Moves ident d ((d.pushBack env v).accepted v) (d.pushBack env v).evicted (d.pushBack env v).queue := by
  obtain ⟨out, hout, hdrop, hfits⟩ := preparePushFifo_drops env hd hsum
  unfold pushBack
  rw [hout]
  dsimp only
  split
  · rename_i hresult
    rw [PushOutcome.accepted, hresult]
    exact hdrop.moves
  · rename_i hresult
    rw [PushOutcome.accepted, hresult]
    have hpush : Moves ident out.queue [v] [] _ := (hfits hresult).insert hdrop.sound (perm_append_singleton v out.queue.q)
    have hall := hdrop.moves.trans hpush
    rw [append_nil] at hall
    exact hall

variable {r : BoundedDeque T × List T}

theorem pushPrioritizedWith_moves {env : QueueEnv T} (hd : Sound d) (hsum : d.curBytes + byteCost v ≤ usizeMax)
    {priorityOf : T → UInt8}
    {victim : BoundedDeque T → TelemetryResult ℕ} {out : PushOutcome T}
    (hout : d.pushPrioritizedWith env v priorityOf victim = out) : Moves ident d (out.accepted v) out.evicted out.queue := by
  subst hout
  unfold pushPrioritizedWith
  split
  · exact (Drops.refl hd).moves
  split
  · exact (Drops.refl hd).moves
  obtain ⟨_, rfl, hdrop, hfits⟩ := makeRoom_drops env victim hd hsum
  dsimp only
  split
  · exact hdrop.moves
  rename_i hok
  have hinsert : Moves ident _ [v] [] _ := insertPrioritizedPrepared_moves env hdrop.sound
    (hfits hok) (priorityOf v) priorityOf
  have hall := hdrop.moves.trans hinsert
  rw [append_nil] at hall
  exact hall

variable {i : ℕ}

theorem perm_set {α : Type} {l : List α} {x : α} (h : l[i]? = some x) (y : α) :
    (l.set i y).Perm (l.eraseIdx i ++ [y]) := by
  obtain ⟨hi, -⟩ := List.getElem?_eq_some_iff.mp h
  have hget : (l.set i y)[i]? = some y := List.getElem?_set_self hi
  have hperm := perm_eraseIdx hget
  rwa [eraseIdx_set_eq] at hperm

variable {x : T} {l : List T}

theorem cost_set (h : l[i]? = some x) (y : T) : cost (l.set i y) + byteCost x = cost l + byteCost y := by
  rw [cost_perm (perm_set h y), cost_perm (perm_eraseIdx h), cost_append, cost_append, cost_cons, cost_cons]
  omega

variable {y : T}

omit [ByteCost T] in
theorem map_ident_set (h : l[i]? = some x) (hident : ident y = ident x) : (l.set i y).map ident = l.map ident := by
  obtain ⟨hi, rfl⟩ := List.getElem?_eq_some_iff.mp h
  rw [map_set, hident, ← getElem_map ident (h := by simpa using hi), set_getElem_self]

variable {index : ℕ} {used : ℕ}

theorem Sound.byteCost_le (hd : Sound d) (hget : d.q[index]? = some x) : byteCost x ≤ d.curBytes := by
  rw [hd.bytes, cost_perm (perm_eraseIdx hget), cost_append, cost_cons]
  omega

/-- An item of another cost in its place, within the budget. -/
theorem Sound.set (hd : Sound d) (hget : d.q[index]? = some x) (hused : used = d.curBytes - byteCost x + byteCost y)
    (hwithin : used ≤ d.maxBytes) : Sound { d with q := d.q.set index y, curBytes := used } := by
  have hcost := cost_set hget y
  have hbytes := hd.bytes
  have hle := hd.byteCost_le hget
  refine ⟨?_, hwithin, ?_, ?_, hd.elems, hd.budget⟩
  · change used = cost (d.q.set index y)
    omega
  · rw [length_set]
    exact hd.length
  · rw [length_set]
    exact hd.ring

variable {update : T → T}

theorem updateMetadata_moves (hd : Sound d)
    (h : ∀ x, d.q[index]? = some x → byteCost (update x) = byteCost x ∧ ident (update x) = ident x) :
    Moves ident d [] [] (d.updateMetadata index update) := by
  unfold updateMetadata
  split
  · exact (Drops.refl hd).moves
  rename_i x hget
  obtain ⟨hcost, hident⟩ := h x hget
  have hle := hd.byteCost_le hget
  refine ⟨hd.set hget (by omega) hd.within, rfl, rfl, ?_⟩
  rw [append_nil, append_nil, map_ident_set hget hident]

theorem updateAdmitted_moves (hd : Sound d) {newCost : ℕ} (hsum : d.curBytes + newCost ≤ usizeMax)
    (h : ∀ x, d.q[index]? = some x → byteCost (update x) = newCost ∧ ident (update x) = ident x)
    (hok : d.updateAdmitted index newCost update = .ok d') : Moves ident d [] [] d' := by
  unfold updateAdmitted at hok
  split at hok
  · cases hok
  rename_i x hget
  obtain ⟨hcost, hident⟩ := h x hget
  dsimp only at hok
  split at hok
  · cases hok
  rename_i hused
  cases hok
  have hsat : satAdd (d.curBytes - byteCost x) newCost = d.curBytes - byteCost x + newCost :=
    Nat.min_eq_left (by omega)
  refine ⟨hd.set hget (by rw [hsat, hcost]) (Nat.not_lt.mp hused), rfl, rfl, ?_⟩
  rw [append_nil, append_nil, map_ident_set hget hident]

/-! ### Prepared items -/

/-- Items of these costs fit together. -/
structure FitsAll (d : BoundedDeque T) (costs : List ℕ) : Prop where
  bytes : d.curBytes + costs.sum ≤ d.maxBytes
  length : d.q.length + costs.length ≤ d.maxElems
  ring : d.q.length + costs.length ≤ d.capacity

variable {c : ℕ} {costs : List ℕ}

omit [ByteCost T] in
theorem FitsAll.head (h : FitsAll d (c :: costs)) : Fits d c := by
  have hbytes := h.bytes
  have hlength := h.length
  have hring := h.ring
  simp only [sum_cons, length_cons] at hbytes hlength hring
  exact ⟨by omega, by omega, by omega⟩

variable {a b : ℕ}

theorem usizeCheckedAdd_eq (h : usizeCheckedAdd a b = some c) : c = a + b := by
  unfold usizeCheckedAdd at h
  split at h
  · cases h
    rfl
  · cases h

theorem foldlM_usizeCheckedAdd {total : ℕ}
    (h : costs.foldlM usizeCheckedAdd used = some total) : total = used + costs.sum := by
  induction costs generalizing used with
  | nil =>
    cases h
    rfl
  | cons c costs ih =>
    rw [foldlM_cons, Option.bind_eq_bind, Option.bind_eq_some_iff] at h
    obtain ⟨used', hadd, hrest⟩ := h
    rw [ih hrest, usizeCheckedAdd_eq hadd, sum_cons, Nat.add_assoc]

theorem usizeCheckedSub_eq (h : usizeCheckedSub a b = some c) : b ≤ a ∧ c = a - b := by
  unfold usizeCheckedSub at h
  split at h
  · rename_i hle
    cases h
    exact ⟨hle, rfl⟩
  · cases h

omit [ByteCost T] in
theorem fitsWithin_eq_true {len used : Option ℕ} (h : d.fitsWithin len used = true) :
    ∃ n bytes, len = some n ∧ used = some bytes ∧ n ≤ d.maxElems ∧ n ≤ d.capacity ∧ bytes ≤ d.maxBytes := by
  unfold fitsWithin at h
  split at h
  · rename_i n bytes
    simp only [Bool.and_eq_true, decide_eq_true_eq] at h
    exact ⟨n, bytes, rfl, rfl, h.1.1, h.1.2, h.2⟩
  · cases h

omit [ByteCost T] in
theorem fitsPreparedBatch_fits (h : d.fitsPreparedBatch costs = true) : FitsAll d costs := by
  obtain ⟨n, bytes, hn, hbytes, hlength, hring, hwithin⟩ := fitsWithin_eq_true h
  rw [usizeCheckedAdd_eq hn] at hlength hring
  rw [foldlM_usizeCheckedAdd hbytes] at hwithin
  exact ⟨hwithin, hlength, hring⟩

theorem pushPreparedBatchItem_moves (env : QueueEnv T) (hd : Sound d) {priority : UInt8} {priorityOf : T → UInt8}
    (h : d.pushPreparedBatchItem env v (byteCost v) priority priorityOf = .ok d') : Moves ident d [v] [] d' := by
  unfold pushPreparedBatchItem at h
  split at h
  · rename_i hfits
    cases h
    exact insertPrioritizedPrepared_moves env hd (fitsPreparedBatch_fits hfits).head priority priorityOf
  · cases h

variable {values : List (T × ℕ)}

theorem foldl_insert_moves (env : QueueEnv T) (priorityOf : T → UInt8)
    (hvalues : ∀ value ∈ values, value.2 = byteCost value.1) (hd : Sound d) (hfits : FitsAll d (values.map (·.2))) :
    Moves ident d (values.map (·.1)) [] (values.foldl (fun d value =>
      d.insertPrioritizedPrepared env value.1 value.2 (priorityOf value.1) priorityOf) d) := by
  induction values generalizing d with
  | nil => exact (Drops.refl hd).moves
  | cons value values ih =>
    obtain ⟨v, c⟩ := value
    obtain rfl : c = byteCost v := hvalues (v, c) mem_cons_self
    have hmove : Moves ident d [v] [] _ :=
      insertPrioritizedPrepared_moves env hd hfits.head (priorityOf v) priorityOf
    have hlength := (insertPrioritizedPrepared_perm env d v (byteCost v) (priorityOf v) priorityOf).length_eq
    rw [length_cons] at hlength
    have hbytes : (d.insertPrioritizedPrepared env v (byteCost v) (priorityOf v) priorityOf).curBytes =
        d.curBytes + byteCost v := by
      have hhead : Fits d (byteCost v) := hfits.head
      exact Nat.min_eq_left (hhead.bytes.trans hd.budget)
    have hrest : FitsAll (d.insertPrioritizedPrepared env v (byteCost v) (priorityOf v) priorityOf)
        (values.map (·.2)) := by
      have h₁ := hfits.bytes
      have h₂ := hfits.length
      have h₃ := hfits.ring
      simp only [map_cons, sum_cons, length_cons] at h₁ h₂ h₃
      refine ⟨?_, ?_, ?_⟩
      · rw [hmove.maxBytes]
        omega
      · rw [hmove.maxElems]
        omega
      · rw [hlength]
        change d.q.length + 1 + _ ≤ d.capacity
        omega
    exact hmove.trans (ih (fun value hvalue => hvalues value (mem_cons_of_mem _ hvalue))
      hmove.sound hrest)

theorem fitsReplacementGroup_eq_true (h : d.fitsReplacementGroup index (c :: costs) = true) :
    ∃ old, d.q[index]? = some old ∧ byteCost old ≤ d.curBytes ∧
      d.curBytes - byteCost old + (c + costs.sum) ≤ d.maxBytes ∧
      d.q.length + costs.length ≤ d.maxElems ∧ d.q.length + costs.length ≤ d.capacity := by
  unfold fitsReplacementGroup at h
  split at h
  · rename_i old extra hget hextra
    obtain ⟨n, bytes, hn, hbytes, hlength, hring, hwithin⟩ := fitsWithin_eq_true h
    obtain ⟨used, hsub, hfold⟩ := Option.bind_eq_some_iff.mp hbytes
    obtain ⟨hle, rfl⟩ := usizeCheckedSub_eq hsub
    have htotal := foldlM_usizeCheckedAdd hfold
    have hsize := (usizeCheckedSub_eq hextra).2
    have hlen := usizeCheckedAdd_eq hn
    rw [sum_cons] at htotal
    rw [length_cons] at hsize
    exact ⟨old, hget, hle, by omega, by omega, by omega⟩
  · cases h

/-- The item in the place of another one, with what the queue is then. -/
theorem replacePreparedItem_moves (hd : Sound d) {item old : T} (hget : d.q[index]? = some old)
    (hwithin : d.curBytes - byteCost old + byteCost item ≤ d.maxBytes)
    (h : d.replacePreparedItem index item (byteCost item) = .ok r) :
    Moves ident d [item] r.2 r.1 ∧ r.1.capacity = d.capacity ∧ r.1.q.length = d.q.length ∧
      r.1.curBytes = d.curBytes - byteCost old + byteCost item := by
  unfold replacePreparedItem at h
  rw [hget] at h
  dsimp only at h
  split at h
  · cases h
  rename_i used hused
  cases h
  obtain ⟨rest, hsub, hadd⟩ := Option.bind_eq_some_iff.mp hused
  obtain ⟨-, rfl⟩ := usizeCheckedSub_eq hsub
  obtain rfl := usizeCheckedAdd_eq hadd
  refine ⟨⟨hd.set hget rfl hwithin, rfl, rfl, ?_⟩, rfl, length_set, rfl⟩
  refine List.Perm.map ident ?_
  refine ((perm_eraseIdx hget).append_right [item]).trans ?_
  refine List.Perm.trans ?_ ((perm_set hget item).symm.append_right [old])
  rw [append_assoc, append_assoc]
  exact perm_append_comm.append_left _

theorem replacePreparedGroup_moves (env : QueueEnv T) (priorityOf : T → UInt8)
    (hvalues : ∀ value ∈ values, value.2 = byteCost value.1) (hd : Sound d)
    (hfits : d.fitsReplacementGroup index (values.map (·.2)) = true)
    (h : d.replacePreparedGroup env index values priorityOf = .ok r) :
    Moves ident d (values.map (·.1)) r.2 r.1 := by
  cases values with
  | nil => cases h
  | cons value values =>
    obtain ⟨first, c⟩ := value
    obtain rfl : c = byteCost first := hvalues (first, c) mem_cons_self
    obtain ⟨old, hget, hle, hwithin, hlength, hring⟩ := fitsReplacementGroup_eq_true hfits
    rw [length_map] at hlength hring
    unfold replacePreparedGroup at h
    dsimp only at h hwithin
    obtain ⟨r', hreplace, h⟩ := bind_eq_ok h
    cases h
    obtain ⟨hmove, hcapacity, hlen, hbytes⟩ : Moves ident d [first] r'.2 r'.1 ∧ _ :=
      replacePreparedItem_moves hd hget (by omega) hreplace
    have hrest : FitsAll r'.1 (values.map (·.2)) := by
      refine ⟨?_, ?_, ?_⟩
      · rw [hmove.maxBytes]
        omega
      · rw [hlen, hmove.maxElems, length_map]
        exact hlength
      · rw [hlen, hcapacity, length_map]
        exact hring
    have hall := hmove.trans (foldl_insert_moves env priorityOf
      (fun value hvalue => hvalues value (mem_cons_of_mem _ hvalue)) hmove.sound hrest)
    rw [append_nil] at hall
    exact hall

end Moves

/-! ### Runs -/

/-- One call; the callers of the replacements check them first, as the source asks. -/
inductive Event (T : Type) where
  | pushBack (env : QueueEnv T) (v : T)
  | pushBackPrioritized (env : QueueEnv T) (v : T) (priorityOf : T → UInt8)
  | pushBackPrioritizedObserved (env : QueueEnv T) (v : T) (priorityOf : T → UInt8)
  | pushBackPrioritizedSelect (env : QueueEnv T) (v : T) (priorityOf : T → UInt8)
      (victim : BoundedDeque T → T → Option ℕ)
  | pushPreparedBatchItem (env : QueueEnv T) (v : T) (cost : ℕ) (priority : UInt8)
      (priorityOf : T → UInt8)
  | popFront
  | popFrontBulkFair (burst maxBurst : UInt8) (priorityOf : T → UInt8)
  | popBack
  | popLowestPriority
  | removePos (idx : ℕ)
  | removeValue (needle : T)
  | retain (keep : T → Bool)
  | retainObserved (keep : T → Bool)
  | updateMetadata (index : ℕ) (update : T → T)
  | updateAdmitted (index newCost : ℕ) (update : T → T)
  | replacePreparedItem (index : ℕ) (item : T) (cost : ℕ)
  | replacePreparedGroup (env : QueueEnv T) (index : ℕ) (values : List (T × ℕ)) (priorityOf : T → UInt8)
  | selectFrontFairWithContext (burst maxBurst : UInt8) (priorityOf : T → UInt8)
      (eligible : List T → T → Bool)
  | selectFrontFairDeferred (burst maxBurst : UInt8) (priorityOf : T → UInt8)
      (eligible : List T → T → Bool)
  | cancelDeferredTurn
  | finishDeferredTurn (priority : UInt8) (owns admitted retained : Bool) (burst : UInt8)
  | clear

/-- A queue with what it took in, what it returned, and what it reported or dropped as evicted. -/
structure Books (T : Type) where
  queue : BoundedDeque T
  accepted : List T
  returned : List T
  evicted : List T

namespace Books

/-- A new queue. -/
def start (d : BoundedDeque T) : Books T := ⟨d, [], [], []⟩

/-- An item handed to the caller. -/
def give (b : Books T) : Option (T × BoundedDeque T) → Books T
  | none => b
  | some (v, d) => { b with queue := d, returned := b.returned ++ [v] }

/-- Items taken in and dropped. -/
def book (b : Books T) (accepted : List T) (r : BoundedDeque T × List T) : Books T :=
  { b with queue := r.1, accepted := b.accepted ++ accepted, evicted := b.evicted ++ r.2 }

/-- A call that fails leaves the queue as it is. -/
def bookOk (b : Books T) (accepted : List T) : TelemetryResult (BoundedDeque T × List T) → Books T
  | .ok r => b.book accepted r
  | .error _ => b

end Books

def step [DecidableEq T] (b : Books T) : Event T → Books T
  | .pushBack env v =>
    let r := b.queue.pushBack env v
    b.book (r.accepted v) (r.queue, r.evicted)
  | .pushBackPrioritized env v priorityOf =>
    let r := b.queue.pushBackPrioritized env v priorityOf
    b.book (r.accepted v) (r.queue, r.evicted)
  | .pushBackPrioritizedObserved env v priorityOf =>
    let r := b.queue.pushBackPrioritizedObserved env v priorityOf
    b.book (r.accepted v) (r.queue, r.evicted)
  | .pushBackPrioritizedSelect env v priorityOf victim =>
    let r := b.queue.pushBackPrioritizedSelect env v priorityOf victim
    b.book (r.accepted v) (r.queue, r.evicted)
  | .pushPreparedBatchItem env v cost priority priorityOf =>
    b.bookOk [v] ((b.queue.pushPreparedBatchItem env v cost priority priorityOf).map fun d => (d, []))
  | .popFront => b.give b.queue.popFront
  | .popFrontBulkFair burst maxBurst priorityOf =>
    b.give (b.queue.popFrontBulkFair burst maxBurst priorityOf).1
  | .popBack => b.give b.queue.popBack
  | .popLowestPriority => b.give b.queue.popLowestPriority
  | .removePos idx => b.give (b.queue.removePos idx)
  | .removeValue needle => b.give (b.queue.removeValue needle)
  | .retain keep => b.book [] (b.queue.retain keep)
  | .retainObserved keep => b.book [] (b.queue.retainObserved keep)
  | .updateMetadata index update => b.book [] (b.queue.updateMetadata index update, [])
  | .updateAdmitted index newCost update =>
    b.bookOk [] ((b.queue.updateAdmitted index newCost update).map fun d => (d, []))
  | .replacePreparedItem index item cost =>
    if b.queue.fitsReplacementGroup index [cost] then
      b.bookOk [item] (b.queue.replacePreparedItem index item cost)
    else b
  | .replacePreparedGroup env index values priorityOf =>
    if b.queue.fitsReplacementGroup index (values.map (·.2)) then
      b.bookOk (values.map (·.1)) (b.queue.replacePreparedGroup env index values priorityOf)
    else b
  | .selectFrontFairWithContext burst maxBurst priorityOf eligible =>
    b.book [] ((b.queue.selectFrontFairWithContext burst maxBurst priorityOf eligible).2.1, [])
  | .selectFrontFairDeferred burst maxBurst priorityOf eligible =>
    b.book [] ((b.queue.selectFrontFairDeferred burst maxBurst priorityOf eligible).2.1, [])
  | .cancelDeferredTurn => b.book [] (b.queue.cancelDeferredTurn, [])
  | .finishDeferredTurn priority owns admitted retained burst =>
    b.book [] ((b.queue.finishDeferredTurn priority owns admitted retained burst).1, [])
  | .clear => b.book [] (b.queue.clear, b.queue.q)

/-- Declared costs are the costs of the items, and updates keep who an item is; metadata updates also
keep its cost.  The retained bytes with those of an item that is pushed or updated are a `usize`. -/
def Honest {ι : Type} (ident : T → ι) (b : Books T) : Event T → Prop
  | .pushBack _ v | .pushBackPrioritized _ v _ | .pushBackPrioritizedObserved _ v _
  | .pushBackPrioritizedSelect _ v _ _ => b.queue.curBytes + byteCost v ≤ usizeMax
  | .pushPreparedBatchItem _ v cost _ _ => cost = byteCost v
  | .updateMetadata index update =>
    ∀ x, b.queue.q[index]? = some x → byteCost (update x) = byteCost x ∧ ident (update x) = ident x
  | .updateAdmitted index newCost update => b.queue.curBytes + newCost ≤ usizeMax ∧
    ∀ x, b.queue.q[index]? = some x → byteCost (update x) = newCost ∧ ident (update x) = ident x
  | .replacePreparedItem _ item cost => cost = byteCost item
  | .replacePreparedGroup _ _ values _ => ∀ value ∈ values, value.2 = byteCost value.1
  | _ => True

/-- The books are right: the queue is sound with its first limits, and every accepted item is
retained, returned or evicted, and only one of these. -/
structure Balanced {ι : Type} (ident : T → ι) (maxBytes maxElems : ℕ) (b : Books T) : Prop where
  sound : Sound b.queue
  maxBytes : b.queue.maxBytes = maxBytes
  maxElems : b.queue.maxElems = maxElems
  items : (b.accepted.map ident).Perm ((b.queue.q ++ b.returned ++ b.evicted).map ident)

section Runs

variable {ι : Type} {ident : T → ι} {maxBytes maxElems : ℕ} {b : Books T} {accepted : List T}

section Books

variable (h : Balanced ident maxBytes maxElems b)
include h

theorem Balanced.book {r : BoundedDeque T × List T} (hmove : Moves ident b.queue accepted r.2 r.1) :
    Balanced ident maxBytes maxElems (b.book accepted r) where
  sound := hmove.sound
  maxBytes := hmove.maxBytes.trans h.maxBytes
  maxElems := hmove.maxElems.trans h.maxElems
  items := by
    have h₁ := h.items
    have h₂ := hmove.items
    simp only [Books.book, map_append, ← Multiset.coe_eq_coe, ← Multiset.coe_add] at h₁ h₂ ⊢
    calc (b.accepted.map ident : Multiset ι) + accepted.map ident
        = (b.queue.q.map ident + accepted.map ident) + (b.returned.map ident + b.evicted.map ident) := by
          rw [h₁]
          abel
      _ = r.1.q.map ident + b.returned.map ident + (b.evicted.map ident + r.2.map ident) := by
          rw [h₂]
          abel

theorem Balanced.bookOk {r : TelemetryResult (BoundedDeque T × List T)}
    (hmove : ∀ r', r = .ok r' → Moves ident b.queue accepted r'.2 r'.1) :
    Balanced ident maxBytes maxElems (b.bookOk accepted r) := by
  cases r with
  | ok r' => exact h.book (hmove r' rfl)
  | error e => exact h

theorem Balanced.give {r : Option (T × BoundedDeque T)}
    (hdrop : ∀ v d, r = some (v, d) → Drops b.queue [v] d) : Balanced ident maxBytes maxElems (b.give r) := by
  cases r with
  | none => exact h
  | some r =>
    obtain ⟨v, d⟩ := r
    have hdrops := hdrop v d rfl
    refine ⟨hdrops.sound, hdrops.maxBytes.trans h.maxBytes, hdrops.maxElems.trans h.maxElems, ?_⟩
    have h₁ := h.items
    have h₂ := hdrops.items.map ident
    simp only [Books.give, map_append, ← Multiset.coe_eq_coe, ← Multiset.coe_add] at h₁ h₂ ⊢
    rw [h₁, h₂]
    abel

theorem Balanced.give_removePos (idx : ℕ) :
    Balanced ident maxBytes maxElems (b.give (b.queue.removePos idx)) :=
  h.give fun _ _ hremove => removePos_drops h.sound hremove

/-- What a fair selection does to the queue concerns its turns only. -/
theorem Balanced.turn (hd : ∃ cursor priority flags, d = { b.queue with
      fairPriorityCursor := cursor, fairOwedPriority := priority, fairOwedFlags := flags }) :
    Balanced ident maxBytes maxElems (b.book [] (d, [])) := by
  obtain ⟨cursor, priority, flags, rfl⟩ := hd
  have hs := h.sound
  exact h.book ⟨⟨hs.bytes, hs.within, hs.length, hs.ring, hs.elems, hs.budget⟩, rfl, rfl,
    List.Perm.refl _⟩

end Books

omit [ByteCost T] in
theorem selectFrontFairWithContext_turn (d : BoundedDeque T) (burst maxBurst : UInt8)
    (priorityOf : T → UInt8) (eligible : List T → T → Bool) :
    ∃ cursor, (d.selectFrontFairWithContext burst maxBurst priorityOf eligible).2.1 =
      { d with fairPriorityCursor := cursor } := by
  unfold selectFrontFairWithContext
  split
  · exact ⟨_, rfl⟩
  dsimp only
  split
  · exact ⟨_, rfl⟩
  · split
    · exact ⟨_, rfl⟩
    · exact ⟨_, rfl⟩

omit [ByteCost T] in
theorem selectFrontFairDeferred_turn (d : BoundedDeque T) (burst maxBurst : UInt8)
    (priorityOf : T → UInt8) (eligible : List T → T → Bool) :
    ∃ cursor priority flags, (d.selectFrontFairDeferred burst maxBurst priorityOf eligible).2.1 =
      { d with fairPriorityCursor := cursor, fairOwedPriority := priority, fairOwedFlags := flags } := by
  unfold selectFrontFairDeferred
  dsimp only
  split
  · exact ⟨_, _, _, rfl⟩
  · exact ⟨_, _, _, rfl⟩
  · have hflags : ∀ waiting : Bool, ∃ flags,
        (if waiting then d.forgetEmptyBand priorityOf else d) = { d with fairOwedFlags := flags } := by
      intro waiting
      unfold forgetEmptyBand
      split
      · split
        · exact ⟨_, rfl⟩
        · exact ⟨_, rfl⟩
      · exact ⟨_, rfl⟩
    obtain ⟨flags, hflags⟩ := hflags (d.fairOwedFlags &&& priorityTurnPending != 0 &&
      d.fairOwedFlags &&& priorityTurnActive == 0)
    rw [hflags]
    obtain ⟨cursor, hselect⟩ := selectFrontFairWithContext_turn { d with fairOwedFlags := flags }
      burst maxBurst priorityOf eligible
    split
    · rename_i heq
      rw [heq] at hselect
      exact ⟨_, _, _, hselect⟩
    · rename_i heq
      rw [heq] at hselect
      dsimp only at hselect
      rw [hselect]
      split
      · exact ⟨_, _, _, rfl⟩
      · exact ⟨_, _, _, rfl⟩

omit [ByteCost T] in
theorem finishDeferredTurn_turn (d : BoundedDeque T) (priority : UInt8) (owns admitted retained : Bool)
    (burst : UInt8) : ∃ cursor owed flags, (d.finishDeferredTurn priority owns admitted retained burst).1 =
      { d with fairPriorityCursor := cursor, fairOwedPriority := owed, fairOwedFlags := flags } := by
  unfold finishDeferredTurn
  extract_lets flags
  clear_value flags
  split
  · exact ⟨_, _, _, rfl⟩
  · split
    · split
      · exact ⟨_, _, _, rfl⟩
      · exact ⟨_, _, _, rfl⟩
    · exact ⟨_, _, _, rfl⟩

theorem popFrontBulkFair_eq (d : BoundedDeque T) (burst maxBurst : UInt8) (priorityOf : T → UInt8) :
    (d.popFrontBulkFair burst maxBurst priorityOf).1 = none ∨
      ∃ idx, (d.popFrontBulkFair burst maxBurst priorityOf).1 = d.removePos idx := by
  unfold popFrontBulkFair
  split
  · exact .inl rfl
  dsimp only
  split
  · exact .inr ⟨0, popFront_eq d⟩
  · split
    · exact .inr ⟨0, popFront_eq d⟩
    · exact .inr ⟨_, rfl⟩

theorem step_balanced [DecidableEq T] {e : Event T} (h : Balanced ident maxBytes maxElems b) (he : Honest ident b e) :
    Balanced ident maxBytes maxElems (step b e) := by
  have hs := h.sound
  cases e with
  | pushBack env v => exact h.book (pushBack_moves env hs he)
  | pushBackPrioritized | pushBackPrioritizedObserved | pushBackPrioritizedSelect =>
    exact h.book (pushPrioritizedWith_moves hs he rfl)
  | pushPreparedBatchItem env v cost priority priorityOf =>
    obtain rfl : cost = byteCost v := he
    refine h.bookOk ?_
    intro r hr
    obtain ⟨d, hd, rfl⟩ := map_eq_ok hr
    exact pushPreparedBatchItem_moves env hs hd
  | popFront =>
    change Balanced ident maxBytes maxElems (b.give b.queue.popFront)
    rw [popFront_eq]
    exact h.give_removePos 0
  | popFrontBulkFair burst maxBurst priorityOf =>
    change Balanced ident maxBytes maxElems (b.give (b.queue.popFrontBulkFair burst maxBurst priorityOf).1)
    obtain hnone | ⟨idx, hsome⟩ := popFrontBulkFair_eq b.queue burst maxBurst priorityOf
    · rw [hnone]
      exact h
    · rw [hsome]
      exact h.give_removePos idx
  | popBack | popLowestPriority =>
    change Balanced ident maxBytes maxElems (b.give b.queue.popBack)
    rw [popBack_eq]
    exact h.give_removePos _
  | removePos idx => exact h.give_removePos idx
  | removeValue needle =>
    change Balanced ident maxBytes maxElems (b.give (b.queue.removeValue needle))
    unfold removeValue
    split
    · exact h
    · exact h.give_removePos _
  | retain | retainObserved => exact h.book (retainFrom_drops hs).moves
  | updateMetadata index update => exact h.book (updateMetadata_moves hs he)
  | updateAdmitted index newCost update =>
    refine h.bookOk ?_
    intro r hr
    obtain ⟨d, hd, rfl⟩ := map_eq_ok hr
    exact updateAdmitted_moves hs he.1 he.2 hd
  | replacePreparedItem index item cost =>
    obtain rfl : cost = byteCost item := he
    dsimp only [step]
    split
    · rename_i hfits
      obtain ⟨old, hget, -, hwithin, -⟩ := fitsReplacementGroup_eq_true hfits
      refine h.bookOk ?_
      intro r hr
      exact (replacePreparedItem_moves hs hget (by simpa using hwithin) hr).1
    · exact h
  | replacePreparedGroup env index values priorityOf =>
    dsimp only [step]
    split
    · rename_i hfits
      exact h.bookOk fun r hr => replacePreparedGroup_moves env priorityOf he hs hfits hr
    · exact h
  | selectFrontFairWithContext burst maxBurst priorityOf eligible =>
    obtain ⟨cursor, hcursor⟩ :=
      selectFrontFairWithContext_turn b.queue burst maxBurst priorityOf eligible
    exact h.turn ⟨cursor, _, _, hcursor⟩
  | selectFrontFairDeferred burst maxBurst priorityOf eligible =>
    exact h.turn (selectFrontFairDeferred_turn b.queue burst maxBurst priorityOf eligible)
  | cancelDeferredTurn => exact h.turn ⟨_, _, _, rfl⟩
  | finishDeferredTurn priority owns admitted retained burst =>
    exact h.turn (finishDeferredTurn_turn b.queue priority owns admitted retained burst)
  | clear => exact h.book (clear_drops hs).moves

theorem balanced_new {env : QueueEnv T} {startingBytes : ℕ} {growMult : UInt64}
    (hmax : maxBytes ≤ usizeMax) (h : new env maxBytes startingBytes growMult = .ok d) :
    Balanced ident maxBytes d.maxElems (Books.start d) := by
  unfold new at h
  split at h
  · cases h
  split at h
  · cases h
  split at h
  · cases h
  cases h
  refine ⟨⟨rfl, Nat.zero_le _, Nat.zero_le _, Nat.zero_le _, ?_, hmax⟩, rfl, rfl, List.Perm.refl _⟩
  exact Nat.lt_of_lt_of_le Nat.one_pos (Nat.le_max_right _ _)

end Runs

/-- **The books balance**: after every run of calls with honest costs the recorded bytes are those of
the retained items, all limits are kept, and every accepted item is retained, returned or evicted
exactly once.  `ident` is who an item is; updates keep it. -/
theorem queue_accounting {ι : Type} [DecidableEq T] (ident : T → ι) (env : QueueEnv T)
    (maxBytes startingBytes : ℕ) (growMult : UInt64) (hmax : maxBytes ≤ usizeMax) (d : BoundedDeque T)
    (hnew : new env maxBytes startingBytes growMult = .ok d) (es : List (Event T))
    (hes : Runs.Meets step (Honest ident) (Books.start d) es) (b : Books T)
    (hb : Runs.run step (Books.start d) es = b) :
    b.queue.curBytes = (b.queue.q.map byteCost).sum ∧ b.queue.curBytes ≤ maxBytes ∧ b.queue.q.length ≤ d.maxElems ∧
      (b.accepted.map ident).Perm ((b.queue.q ++ b.returned ++ b.evicted).map ident) := by
  have h : Balanced ident maxBytes d.maxElems b := by
    rw [← hb]
    exact Runs.run_invariant (fun _ _ => step_balanced) (balanced_new hmax hnew) hes
  refine ⟨h.sound.bytes, ?_, ?_, h.items⟩
  · rw [← h.maxBytes]
    exact h.sound.within
  · rw [← h.maxElems]
    exact h.sound.length

/-- A numbered item of a chosen cost. -/
structure CostItem where
  id : ℕ
  cost : ℕ
  priority : UInt8
deriving DecidableEq

instance : ByteCost CostItem where
  byteCost := CostItem.cost
  slotBytes := 24

/-- An allocator that grants every request. -/
def grantingEnv : QueueEnv CostItem where
  probe := .absent
  reserve := some
  reserve_le := fun _ _ h => Nat.le_of_eq (Option.some.inj h)
  partitionPoint := fun p l => (l.takeWhile p).length
  partitionPoint_le := fun p l => (l.takeWhile_prefix p).length_le
  partitionPoint_append := by
    intro p l l' hl hl'
    rw [takeWhile_append_of_pos hl]
    cases l' with
    | nil => simp
    | cons x l' => simp [hl' x mem_cons_self]

/-- A queue with the given budget and two slots that do not grow. -/
def twoSlots (maxBytes maxElems : ℕ) : BoundedDeque CostItem where
  q := []
  capacity := 2
  maxBytes
  curBytes := 0
  maxElems
  growNum := 1034
  growDen := 1024
  fixedCapacity := true
  fairPriorityCursor := 255
  fairOwedPriority := 0
  fairOwedFlags := 0

/-- Three items in two slots: one is evicted, one is popped, one stays. -/
def threeItems : List (Event CostItem) :=
  [.pushBackPrioritized grantingEnv ⟨0, 10, 1⟩ CostItem.priority,
    .pushBackPrioritized grantingEnv ⟨1, 20, 5⟩ CostItem.priority,
    .pushBackPrioritized grantingEnv ⟨2, 30, 3⟩ CostItem.priority, .popFront]

theorem queue_accounting_three : ∃ b, Runs.run step (Books.start (twoSlots 100 4)) threeItems = b ∧
      b.queue.q = [⟨2, 30, 3⟩] ∧ b.returned = [⟨1, 20, 5⟩] ∧ b.evicted = [⟨0, 10, 1⟩] ∧
      b.queue.curBytes = (b.queue.q.map byteCost).sum ∧ b.queue.curBytes ≤ 100 ∧ b.queue.q.length ≤ 4 ∧
      (b.accepted.map CostItem.id).Perm ((b.queue.q ++ b.returned ++ b.evicted).map CostItem.id) := by
  refine ⟨_, rfl, by decide +kernel, by decide +kernel, by decide +kernel, ?_⟩
  have hfits : ∀ {n : ℕ}, n.ble usizeMax = true → n ≤ usizeMax := Nat.le_of_ble_eq_true
  exact queue_accounting CostItem.id grantingEnv 100 48 0x3ff0000000000000 (by decide)
    (twoSlots 100 4) (by decide +kernel) threeItems ⟨hfits rfl, hfits rfl, hfits rfl, trivial, trivial⟩ _ rfl

end BoundedDeque

end SedsNet
