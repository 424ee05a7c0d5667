import SedsNet.PacketStore

/-! # The arena keeps its list and its bytes

A sound arena has its live slots, and only these, on the list from `head`, laid out in the order of
their offsets.  Each operation keeps the arena sound and says of every slot what it keeps: `Keeps`
for the slots that it is not about, among them that the bytes of a live slot stay and that a pinned
slot does not move. -/

namespace SedsNet

open LinkedChain Segments List Function

namespace ArenaState

variable {n : ℕ} {st st' st'' : ArenaState n} {i j : Fin n} {f : Slot n → Slot n}

structure Sound (st : ArenaState n) : Prop where
  linked : Linked st.nextOf st.head st.order
  layout : Layout st.offsetOf st.lenOf st.capacity 0 st.order
  live : ∀ i, i ∈ st.order ↔ (st.slots i).refs ≠ 0
  free : ∀ i, (st.slots i).refs = 0 → (st.slots i).pins = 0

/-- What an operation keeps of a slot that it is not about. -/
structure Keeps (st st' : ArenaState n) (i : Fin n) : Prop where
  refs : (st'.slots i).refs = (st.slots i).refs
  pins : (st'.slots i).pins = (st.slots i).pins
  compressed : (st'.slots i).compressed = (st.slots i).compressed
  contents : (st.slots i).refs ≠ 0 → st'.contents i = st.contents i
  pinned : (st.slots i).pins ≠ 0 → st'.offsetOf i = st.offsetOf i

theorem Keeps.refl (st : ArenaState n) (i : Fin n) : Keeps st st i := ⟨rfl, rfl, rfl, fun _ => rfl, fun _ => rfl⟩

theorem Keeps.trans (h : Keeps st st' i) (h' : Keeps st' st'' i) : Keeps st st'' i where
  refs := h'.refs.trans h.refs
  pins := h'.pins.trans h.pins
  compressed := h'.compressed.trans h.compressed
  contents hlive := (h'.contents (by rw [h.refs]; exact hlive)).trans (h.contents hlive)
  pinned hpins := (h'.pinned (by rw [h.pins]; exact hpins)).trans (h.pinned hpins)

/-! ### Slots and the list -/

@[simp]
theorem slots_modify_self (st : ArenaState n) (i : Fin n) (f : Slot n → Slot n) :
    (st.modify i f).slots i = f (st.slots i) := update_self ..

@[simp]
theorem slots_modify_of_ne (h : j ≠ i) : (st.modify i f).slots j = st.slots j := update_of_ne h ..

theorem nextOf_modify : (st.modify i f).nextOf = update st.nextOf i (f (st.slots i)).next :=
  comp_update Slot.next st.slots i _

theorem offsetOf_modify : (st.modify i f).offsetOf = update st.offsetOf i (f (st.slots i)).offset :=
  comp_update Slot.offset st.slots i _

theorem lenOf_modify : (st.modify i f).lenOf = update st.lenOf i (f (st.slots i)).len :=
  comp_update Slot.len st.slots i _

variable {l : List (Fin n)}

theorem order_eq (h : Linked st.nextOf st.head l) (hnodup : l.Nodup) : st.order = l := by
  have hlength : l.length ≤ n := by
    have := hnodup.length_le_card
    rwa [Fintype.card_fin] at this
  exact traverse_eq h hlength

theorem Sound.of_list (hlinked : Linked st.nextOf st.head l)
    (hlayout : Layout st.offsetOf st.lenOf st.capacity 0 l) (hlive : ∀ i, i ∈ l ↔ (st.slots i).refs ≠ 0)
    (hfree : ∀ i, (st.slots i).refs = 0 → (st.slots i).pins = 0) : Sound st := by
  have horder : st.order = l := order_eq hlinked hlayout.nodup
  constructor
  · rw [horder]
    exact hlinked
  · rw [horder]
    exact hlayout
  · rw [horder]
    exact hlive
  · exact hfree

/-- The list depends on the links and the ranges of the slots and on which of them are live. -/
theorem Sound.congr (h : Sound st) (hhead : st'.head = st.head) (hcap : st'.capacity = st.capacity)
    (hslots : ∀ i, st'.nextOf i = st.nextOf i ∧ st'.offsetOf i = st.offsetOf i ∧ st'.lenOf i = st.lenOf i)
    (hrefs : ∀ i, (st'.slots i).refs ≠ 0 ↔ (st.slots i).refs ≠ 0)
    (hfree : ∀ i, (st'.slots i).refs = 0 → (st'.slots i).pins = 0) : Sound st' := by
  refine Sound.of_list (l := st.order) ?_ ?_ ?_ hfree
  · rw [hhead]
    exact h.linked.congr fun i _ => (hslots i).1
  · rw [hcap]
    exact h.layout.congr fun i _ => (hslots i).2
  · intro i
    rw [hrefs]
    exact h.live i

theorem Sound.modify (h : Sound st) (hnext : (f (st.slots i)).next = (st.slots i).next)
    (hoffset : (f (st.slots i)).offset = (st.slots i).offset) (hlen : (f (st.slots i)).len = (st.slots i).len)
    (hlive : (st.slots i).refs ≠ 0) (hrefs : (f (st.slots i)).refs ≠ 0) : Sound (st.modify i f) := by
  refine h.congr rfl rfl ?_ ?_ ?_
  · intro j
    by_cases hj : j = i
    · subst hj
      simp [nextOf, offsetOf, lenOf, hnext, hoffset, hlen]
    · simp [nextOf, offsetOf, lenOf, hj]
  · intro j
    by_cases hj : j = i
    · subst hj
      simp [hlive, hrefs]
    · simp [hj]
  · intro j
    by_cases hj : j = i
    · subst hj
      intro hzero
      rw [slots_modify_self] at hzero
      exact absurd hzero hrefs
    · rw [slots_modify_of_ne hj]
      exact h.free j

theorem Keeps.of_next {next : Option (Fin n)} (hslot : st'.slots i = { st.slots i with next := next })
    (hbytes : st'.bytes = st.bytes) : Keeps st st' i := by
  refine ⟨by rw [hslot], by rw [hslot], by rw [hslot], fun _ => ?_, fun _ => ?_⟩
  · unfold ArenaState.contents offsetOf lenOf
    rw [hslot, hbytes]
  · unfold offsetOf
    rw [hslot]

theorem Keeps.modify_of_ne (h : j ≠ i) : Keeps st (st.modify i f) j := Keeps.of_next (slots_modify_of_ne h) rfl

/-! ### Compaction -/

/-- The slots of `l` may have moved, with their bytes; nothing else has changed. -/
structure Shifted (l : List (Fin n)) (st st' : ArenaState n) : Prop where
  head : st'.head = st.head
  capacity : st'.capacity = st.capacity
  slots : ∀ i, ∃ e, st'.slots i = { st.slots i with offset := e }
  contents : ∀ i ∈ l, st'.contents i = st.contents i
  pinned : ∀ i, (st.slots i).pins ≠ 0 → st'.offsetOf i = st.offsetOf i

theorem Shifted.refl (l : List (Fin n)) (st : ArenaState n) : Shifted l st st :=
  ⟨rfl, rfl, fun _ => ⟨_, rfl⟩, fun _ _ => rfl, fun _ _ => rfl⟩

theorem Shifted.pins (h : Shifted l st st') (i : Fin n) : (st'.slots i).pins = (st.slots i).pins := by
  obtain ⟨e, he⟩ := h.slots i
  rw [he]

theorem Shifted.trans (h : Shifted l st st') (h' : Shifted l st' st'') : Shifted l st st'' where
  head := h'.head.trans h.head
  capacity := h'.capacity.trans h.capacity
  slots i := by
    obtain ⟨e, he⟩ := h.slots i
    obtain ⟨e', he'⟩ := h'.slots i
    exact ⟨e', by rw [he', he]⟩
  contents i hi := (h'.contents i hi).trans (h.contents i hi)
  pinned i hpins := (h'.pinned i (by rw [h.pins]; exact hpins)).trans (h.pinned i hpins)

theorem slots_move (e : ℕ) : (st.move i e).slots = (st.modify i fun s => { s with offset := e }).slots := rfl

variable {e : ℕ}

theorem offsetOf_move : (st.move i e).offsetOf = update st.offsetOf i e :=
  @offsetOf_modify n st i fun s => { s with offset := e }

theorem lenOf_move : (st.move i e).lenOf = st.lenOf := by
  have h : (st.move i e).lenOf = update st.lenOf i (st.lenOf i) :=
    @lenOf_modify n st i fun s => { s with offset := e }
  rw [h, update_eq_self]

variable {pre : List (Fin n)}

/-- A slot that moves down to where the slots before it end. -/
theorem move_shifted (hpre : Layout st.offsetOf st.lenOf e 0 pre)
    (hl : Layout st.offsetOf st.lenOf st.capacity e (i :: l)) (hpins : (st.slots i).pins = 0) :
    Shifted (pre ++ i :: l) st (st.move i e) := by
  refine ⟨rfl, rfl, ?_, ?_, ?_⟩
  · intro j
    rw [slots_move]
    by_cases hj : j = i
    · subst hj
      exact ⟨e, slots_modify_self ..⟩
    · exact ⟨(st.slots j).offset, slots_modify_of_ne hj⟩
  · intro j hj
    unfold contents
    rw [offsetOf_move, lenOf_move]
    by_cases heq : j = i
    · subst heq
      rw [update_self]
      exact read_copy_self
    · rw [update_of_ne heq]
      refine read_copy_of_disjoint ?_
      rw [mem_append, mem_cons] at hj
      rcases hj with hj | hj | hj
      · exact .inl (hpre.mem hj).2.2
      · exact absurd hj heq
      · have := (hl.2.2.mem hj).1
        have := hl.1
        exact .inr (by omega)
  · intro j hj
    rw [offsetOf_move, update_of_ne]
    rintro rfl
    exact hj hpins

/-- Induction along the list: the slots before the cursor end at `e`, the others start there. -/
theorem compactFrom_spec (l : List (Fin n)) : ∀ pre e st,
    Layout st.offsetOf st.lenOf e 0 pre → Layout st.offsetOf st.lenOf st.capacity e l →
    Shifted (pre ++ l) st (compactFrom e l st) ∧
      Layout (compactFrom e l st).offsetOf (compactFrom e l st).lenOf st.capacity 0 (pre ++ l) := by
  induction l with
  | nil =>
    intro pre e st hpre hl
    exact ⟨Shifted.refl _ _, hpre.append hl⟩
  | cons i l ih =>
    intro pre e st hpre hl
    have hassoc : pre ++ i :: l = (pre ++ [i]) ++ l := by simp
    unfold compactFrom
    split_ifs with hmove
    case pos =>
      have hshift := move_shifted hpre hl hmove.1
      have hnodup := (hpre.append hl).nodup
      rw [nodup_append] at hnodup
      obtain ⟨-, hrest, hdisjoint⟩ := hnodup
      have hpre' : Layout (st.move i e).offsetOf (st.move i e).lenOf (e + st.lenOf i) 0 (pre ++ [i]) := by
        rw [offsetOf_move, lenOf_move]
        refine Layout.append (e := e) (hpre.congr ?_) ⟨?_, hl.2.1, ?_⟩
        · intro k hk
          exact ⟨update_of_ne (hdisjoint k hk i (mem_cons_self ..)) _ _, rfl⟩
        · rw [update_self]
        · rw [update_self]
          exact le_refl _
      have hl' : Layout (st.move i e).offsetOf (st.move i e).lenOf st.capacity (e + st.lenOf i) l := by
        rw [offsetOf_move, lenOf_move]
        have hle := hl.1
        refine (hl.2.2.weaken (by omega)).congr ?_
        intro k hk
        exact ⟨update_of_ne (ne_of_mem_of_not_mem hk (nodup_cons.mp hrest).1) _ _, rfl⟩
      obtain ⟨hshift', hlayout⟩ := ih (pre ++ [i]) (e + st.lenOf i) (st.move i e) hpre' hl'
      rw [← hassoc] at hshift' hlayout
      exact ⟨hshift.trans hshift', hlayout⟩
    case neg =>
      have hpre' : Layout st.offsetOf st.lenOf (st.offsetOf i + st.lenOf i) 0 (pre ++ [i]) :=
        hpre.append ⟨hl.1, hl.2.1, le_refl _⟩
      obtain ⟨hshift, hlayout⟩ := ih (pre ++ [i]) _ st hpre' hl.2.2
      rw [← hassoc] at hshift hlayout
      exact ⟨hshift, hlayout⟩

theorem Shifted.keeps (hst : Sound st) (h : Shifted st.order st st') (i : Fin n) : Keeps st st' i := by
  obtain ⟨e, he⟩ := h.slots i
  refine ⟨by rw [he], by rw [he], by rw [he], ?_, h.pinned i⟩
  intro hlive
  exact h.contents i ((hst.live i).mpr hlive)

/-- The arena is sound and every slot is kept. -/
structure Stays (st st' : ArenaState n) : Prop where
  sound : Sound st'
  capacity : st'.capacity = st.capacity
  keeps : ∀ i, Keeps st st' i

theorem Stays.refl (h : Sound st) : Stays st st := ⟨h, rfl, Keeps.refl st⟩

theorem Stays.trans (h : Stays st st') (h' : Stays st' st'') : Stays st st'' :=
  ⟨h'.sound, h'.capacity.trans h.capacity, fun i => (h.keeps i).trans (h'.keeps i)⟩

theorem compact_stays (h : Sound st) : Stays st st.compact := by
  have hzero : Layout st.offsetOf st.lenOf 0 0 [] := le_refl 0
  obtain ⟨hshift, hlayout⟩ := compactFrom_spec st.order [] 0 st hzero h.layout
  change Shifted st.order st st.compact at hshift
  refine ⟨Sound.of_list (l := st.order) ?_ ?_ ?_ ?_, hshift.capacity, hshift.keeps h⟩
  · rw [hshift.head]
    refine h.linked.congr ?_
    intro i _
    obtain ⟨e, he⟩ := hshift.slots i
    unfold nextOf
    rw [he]
  · rw [hshift.capacity]
    exact hlayout
  · intro i
    rw [(hshift.keeps h i).refs]
    exact h.live i
  · intro i hzero
    rw [(hshift.keeps h i).refs] at hzero
    rw [(hshift.keeps h i).pins]
    exact h.free i hzero

/-! ### Reserving a slot -/

section Link

variable {slot : Fin n} {offset len source : ℕ} {compressed : Bool}

theorem slots_link (st : ArenaState n) (slot j : Fin n) (offset len source : ℕ) (compressed : Bool) :
    ∃ next, (st.link slot offset len compressed source).slots j =
      if j = slot then { offset, len, refs := 1, pins := 0, compressed, next, source }
      else { st.slots j with next := next } := by
  unfold link
  generalize (st.order.dropWhile fun i => st.offsetOf i ≤ offset).head? = next
  cases (st.order.takeWhile fun i => st.offsetOf i ≤ offset).getLast? with
  | none =>
    by_cases hj : j = slot
    · subst hj
      exact ⟨next, by simp⟩
    · exact ⟨(st.slots j).next, by simp [hj]⟩
  | some p =>
    by_cases hp : j = p
    · subst hp
      by_cases hj : j = slot
      · subst hj
        exact ⟨some j, by simp⟩
      · exact ⟨some slot, by simp [hj]⟩
    · by_cases hj : j = slot
      · subst hj
        exact ⟨next, by simp [hp]⟩
      · exact ⟨(st.slots j).next, by simp [hp, hj]⟩

theorem slots_link_self : ∃ next, (st.link slot offset len compressed source).slots slot =
    { offset, len, refs := 1, pins := 0, compressed, next, source } := by
  obtain ⟨next, h⟩ := slots_link st slot slot offset len source compressed
  exact ⟨next, by rw [h, if_pos rfl]⟩

theorem slots_link_of_ne (hj : j ≠ slot) : ∃ next, (st.link slot offset len compressed source).slots j =
    { st.slots j with next := next } := by
  obtain ⟨next, h⟩ := slots_link st slot j offset len source compressed
  exact ⟨next, by rw [h, if_neg hj]⟩

theorem bytes_link : (st.link slot offset len compressed source).bytes = st.bytes ∧
    (st.link slot offset len compressed source).capacity = st.capacity := by
  unfold link
  dsimp only
  split <;> exact ⟨rfl, rfl⟩

theorem ranges_link : (st.link slot offset len compressed source).offsetOf = update st.offsetOf slot offset ∧
    (st.link slot offset len compressed source).lenOf = update st.lenOf slot len := by
  constructor <;> funext j <;> obtain ⟨next, h⟩ := slots_link st slot j offset len source compressed
  · rw [update_apply, offsetOf, h]
    split <;> rfl
  · rw [update_apply, lenOf, h]
    split <;> rfl

/-- The slot stands behind the slots that start at or before it. -/
theorem linked_link (h : Sound st) (hslot : slot ∉ st.order) :
    Linked (st.link slot offset len compressed source).nextOf (st.link slot offset len compressed source).head
      ((st.order.takeWhile fun i => st.offsetOf i ≤ offset) ++
        slot :: st.order.dropWhile fun i => st.offsetOf i ≤ offset) := by
  have hsplit : (st.order.takeWhile fun i => st.offsetOf i ≤ offset) ++
      (st.order.dropWhile fun i => st.offsetOf i ≤ offset) = st.order := takeWhile_append_dropWhile
  have hlinked := h.linked
  have hnodup := h.layout.nodup
  unfold link
  rw [← hsplit] at hlinked hnodup hslot
  generalize (st.order.takeWhile fun i => st.offsetOf i ≤ offset) = pre at hlinked hnodup hslot ⊢
  generalize (st.order.dropWhile fun i => st.offsetOf i ≤ offset) = post at hlinked hnodup hslot ⊢
  cases hlast : pre.getLast? with
  | none =>
    rw [List.getLast?_eq_none_iff] at hlast
    subst hlast
    have hhead := hlinked.head_eq
    rw [nil_append] at hlinked hslot hhead ⊢
    have hinsert : Linked (st.modify slot fun _ => { offset, len, refs := 1, compressed, next := post.head?, source }).nextOf
        (some slot) (slot :: post) := by
      rw [nextOf_modify, ← hhead]
      exact hlinked.insert_head hslot
    exact hinsert
  | some p =>
    obtain ⟨before, rfl⟩ := List.getLast?_eq_some_iff.mp hlast
    rw [append_assoc, singleton_append] at hlinked hnodup hslot ⊢
    rw [nextOf_modify, nextOf_modify, ← hlinked.next_eq]
    exact hlinked.insert_after hnodup hslot

theorem mem_insert_split {p : Fin n → Bool} {l : List (Fin n)} (hj : j ≠ i) :
    j ∈ l.takeWhile p ++ i :: l.dropWhile p ↔ j ∈ l := by
  have hsplit : j ∈ l.takeWhile p ++ l.dropWhile p ↔ j ∈ l := by rw [takeWhile_append_dropWhile]
  rw [← hsplit, mem_append, mem_append, mem_cons, or_iff_right hj]

/-- What a reservation makes of the arena. -/
structure Reserved (st st' : ArenaState n) (slot : Fin n) (len : ℕ) (compressed : Bool) : Prop where
  sound : Sound st'
  capacity : st'.capacity = st.capacity
  free : (st.slots slot).refs = 0
  refs : (st'.slots slot).refs = 1
  pins : (st'.slots slot).pins = 0
  compressed_eq : (st'.slots slot).compressed = compressed
  lenOf : st'.lenOf slot = len
  keeps : ∀ j, j ≠ slot → Keeps st st' j

theorem link_reserved (h : Sound st) (hfree : (st.slots slot).refs = 0) (hlen : 0 < len)
    (hgap : st.gap len = some offset) :
    Reserved st (st.link slot offset len compressed source) slot len compressed := by
  have hslot : slot ∉ st.order := fun hmem => (h.live slot).mp hmem hfree
  obtain ⟨next, hself⟩ := @slots_link_self n st slot offset len source compressed
  have hbytes := @bytes_link n st slot offset len source compressed
  obtain ⟨hoffset, hlenOf⟩ := @ranges_link n st slot offset len source compressed
  have hother : ∀ j, j ≠ slot → ∃ next, (st.link slot offset len compressed source).slots j =
      { st.slots j with next := next } := fun j hj => slots_link_of_ne hj
  have hlinked := @linked_link n st slot offset len source compressed h hslot
  generalize st.link slot offset len compressed source = st' at hself hbytes hoffset hlenOf hother hlinked ⊢
  have hsound : Sound st' := by
    refine Sound.of_list hlinked ?_ ?_ ?_
    · rw [hoffset, hlenOf, hbytes.2]
      exact h.layout.insert hlen hslot hgap
    · intro j
      by_cases hj : j = slot
      · subst hj
        rw [hself]
        simp
      · obtain ⟨next, hnext⟩ := hother j hj
        rw [hnext, ← h.live j]
        exact mem_insert_split hj
    · intro j
      by_cases hj : j = slot
      · subst hj
        rw [hself]
        intro hzero
        rfl
      · obtain ⟨next, hnext⟩ := hother j hj
        rw [hnext]
        exact h.free j
  refine ⟨hsound, hbytes.2, hfree, by rw [hself], by rw [hself], by rw [hself], ?_, ?_⟩
  · rw [hlenOf, update_self]
  · intro j hj
    obtain ⟨next, hnext⟩ := hother j hj
    exact Keeps.of_next hnext hbytes.1

end Link

theorem reject_stays (h : Sound st) : Stays st st.reject :=
  ⟨h.congr rfl rfl (fun _ => ⟨rfl, rfl, rfl⟩) (fun _ => Iff.rfl) h.free, rfl,
    fun _ => ⟨rfl, rfl, rfl, fun _ => rfl, fun _ => rfl⟩⟩

theorem makeRoom_stays (h : Sound st) (len : ℕ) : Stays st (st.makeRoom len) := by
  unfold makeRoom
  split
  · exact Stays.refl h
  · exact compact_stays h

/-- A reservation either fills in a free slot or leaves every slot as it was. -/
theorem reserve_spec (h : Sound st) {len : ℕ} (hlen : 0 < len) (compressed : Bool) (source : ℕ) :
    (∃ st' slot, st.reserve len compressed source = (st', .ok slot) ∧ Reserved st st' slot len compressed) ∨
      ∃ st' e, st.reserve len compressed source = (st', .error e) ∧ Stays st st' := by
  unfold reserve
  split
  next hfull => exact .inr ⟨_, _, rfl, reject_stays h⟩
  next slot hslot =>
    have hfree : (st.slots slot).refs = 0 := by simpa using List.find?_some hslot
    have hroom := makeRoom_stays h len
    split
    next hgap => exact .inr ⟨_, _, rfl, hroom.trans (reject_stays hroom.sound)⟩
    next offset hgap =>
      have hres := @link_reserved n (st.makeRoom len) slot offset len source compressed hroom.sound
        (by rw [(hroom.keeps slot).refs]; exact hfree) hlen hgap
      exact .inl ⟨_, slot, rfl, hres.sound, hres.capacity.trans hroom.capacity, hfree, hres.refs, hres.pins,
        hres.compressed_eq, hres.lenOf, fun j hj => (hroom.keeps j).trans (hres.keeps j hj)⟩

/-! ### Writing into a slot -/

theorem Sound.withBytes (h : Sound st) (bytes : ℕ → UInt8) : Sound { st with bytes } :=
  h.congr rfl rfl (fun _ => ⟨rfl, rfl, rfl⟩) (fun _ => Iff.rfl) h.free

/-- Bytes written within one slot leave the other live slots alone. -/
theorem Keeps.withBytes (h : Sound st) {bytes : ℕ → UInt8} (hlive : (st.slots i).refs ≠ 0)
    (hwithin : ∀ a, a < st.offsetOf i ∨ st.offsetOf i + st.lenOf i ≤ a → bytes a = st.bytes a) (hj : j ≠ i) :
    Keeps st { st with bytes } j := by
  refine ⟨rfl, rfl, rfl, ?_, fun _ => rfl⟩
  intro hjlive
  refine read_congr ?_
  intro a hle hlt
  change st.offsetOf j ≤ a at hle
  change a < st.offsetOf j + st.lenOf j at hlt
  refine hwithin a ?_
  rcases h.layout.disjoint ((h.live i).mpr hlive) ((h.live j).mpr hjlive) (Ne.symm hj) with hbefore | hbehind
  · exact .inr (by omega)
  · exact .inl (by omega)

/-! ### Giving up a slot -/

variable {post : List (Fin n)}

/-- The slot before `i` on the list is the one that `unlink` finds. -/
theorem find_previous {next : Fin n → Option (Fin n)} {head : Option (Fin n)} {p : Fin n}
    (h : Linked next head (pre ++ p :: i :: post)) :
    ∃ q before, (pre ++ p :: i :: post).find? (fun k => next k == some i) = some q ∧
      ∃ rest, pre ++ p :: i :: post = before ++ q :: i :: rest := by
  have hp : next p = some i := h.next_eq
  cases hfind : (pre ++ p :: i :: post).find? (fun k => next k == some i) with
  | none =>
    have hnone := List.find?_eq_none.mp hfind p (by simp)
    simp [hp] at hnone
  | some q =>
    have hq : next q = some i := by simpa using List.find?_some hfind
    obtain ⟨before, rest, heq⟩ := append_of_mem (mem_of_find?_eq_some hfind)
    rw [heq] at h
    have hrest : rest.head? = some i := h.next_eq.symm.trans hq
    obtain ⟨rest, rfl⟩ := List.head?_eq_some_iff.mp hrest
    exact ⟨q, before, rfl, rest, heq⟩

/-- Without `i` the list is linked as before. -/
theorem unlink_spec (h : Linked st.nextOf st.head (pre ++ i :: post)) (hnodup : (pre ++ i :: post).Nodup) :
    Linked (st.unlink i).nextOf (st.unlink i).head (pre ++ post) ∧ (st.unlink i).bytes = st.bytes ∧
      (st.unlink i).capacity = st.capacity ∧ ∀ j, ∃ next, (st.unlink i).slots j = { st.slots j with next := next } := by
  have horder : st.order = pre ++ i :: post := order_eq h hnodup
  unfold unlink
  split
  case isTrue hhead =>
    cases pre with
    | nil => exact ⟨h.2, rfl, rfl, fun j => ⟨_, rfl⟩⟩
    | cons c pre =>
      -- the head is another slot of the list
      have hc : some c = some i := h.1.symm.trans hhead
      injection hc with hc
      subst hc
      exact absurd hnodup (by simp)
  case isFalse hhead =>
    rcases eq_nil_or_concat pre with rfl | ⟨before, p, rfl⟩
    · exact absurd h.1 hhead
    have hassoc : before ++ [p] ++ i :: post = before ++ p :: i :: post := by simp
    rw [concat_eq_append] at *
    rw [hassoc] at h hnodup horder
    obtain ⟨q, first, hfind, rest, heq⟩ := find_previous h
    rw [horder, hfind]
    have hremove : before ++ [p] ++ post = first ++ q :: rest := by
      have heq' : (before ++ [p]) ++ i :: post = (first ++ [q]) ++ i :: rest := by
        rw [hassoc, heq]
        simp
      rw [← hassoc, nodup_append] at hnodup
      rw [append_cons_inj_of_notMem] at heq'
      · rw [heq'.1, heq'.2.2]
        simp
      · exact fun hmem => hnodup.2.2 i hmem i (by simp) rfl
      · exact (nodup_cons.mp hnodup.2.1).1
    rw [heq] at h hnodup
    refine ⟨?_, rfl, rfl, ?_⟩
    · rw [hremove]
      rw [nextOf_modify]
      exact h.erase_after hnodup
    · intro j
      by_cases hj : j = q
      · subst hj
        exact ⟨_, slots_modify_self ..⟩
      · exact ⟨(st.slots j).next, slots_modify_of_ne hj⟩

/-- What the drop of a handle makes of the arena. -/
structure Released (st st' : ArenaState n) (i : Fin n) : Prop where
  sound : Sound st'
  capacity : st'.capacity = st.capacity
  refs : (st'.slots i).refs = (st.slots i).refs - 1
  /-- With another reference the slot stays as it is. -/
  stays : (st.slots i).refs ≠ 1 → st'.slots i = { st.slots i with refs := (st.slots i).refs - 1 } ∧
    st'.contents i = st.contents i
  keeps : ∀ j, j ≠ i → Keeps st st' j

theorem free_spec (h : Sound st) (hone : (st.slots i).refs = 1) :
    Released st (((st.modify i fun s => { s with refs := s.refs - 1 }).unlink i).modify i fun _ => {}) i := by
  obtain ⟨pre, post, horder⟩ := append_of_mem ((h.live i).mpr (by omega))
  have hlinked := h.linked
  have hlayout := h.layout
  have hlive := h.live
  rw [horder] at hlinked hlayout hlive
  have hnodup := hlayout.nodup
  obtain ⟨-, hpost, hdisjoint⟩ := nodup_append.mp hnodup
  have hipost : i ∉ post := (nodup_cons.mp hpost).1
  have hipre : i ∉ pre := fun hmem => hdisjoint i hmem i (mem_cons_self ..) rfl
  have hi : i ∉ pre ++ post := by simp [hipre, hipost]
  have hlinked' : Linked (st.modify i fun s => { s with refs := s.refs - 1 }).nextOf st.head (pre ++ i :: post) := by
    rw [nextOf_modify]
    exact hlinked.congr fun j _ => congrFun (update_eq_self i st.nextOf) j
  obtain ⟨hunlinked, hbytes, hcap, hslots⟩ := unlink_spec hlinked' hnodup
  generalize (st.modify i fun s => { s with refs := s.refs - 1 }).unlink i = st₁ at hunlinked hbytes hcap hslots ⊢
  have hother : ∀ j, j ≠ i → ∃ next, (st₁.modify i fun _ => {}).slots j = { st.slots j with next := next } := by
    intro j hj
    obtain ⟨next, hnext⟩ := hslots j
    rw [slots_modify_of_ne hj] at hnext ⊢
    exact ⟨next, hnext⟩
  have hkeeps : ∀ j, j ≠ i → Keeps st (st₁.modify i fun _ => {}) j := by
    intro j hj
    obtain ⟨next, hnext⟩ := hother j hj
    exact Keeps.of_next hnext hbytes
  refine ⟨Sound.of_list (l := pre ++ post) ?_ ?_ ?_ ?_, hcap, ?_, fun hne => absurd hone hne, hkeeps⟩
  · rw [nextOf_modify]
    refine hunlinked.congr ?_
    intro j hj
    exact update_of_ne (ne_of_mem_of_not_mem hj hi) _ _
  · have hrest : Layout st.offsetOf st.lenOf st.capacity 0 (pre ++ post) := hlayout.erase
    change Layout _ _ st₁.capacity 0 _
    rw [hcap]
    refine hrest.congr ?_
    intro j hj
    obtain ⟨next, hnext⟩ := hother j (ne_of_mem_of_not_mem hj hi)
    unfold offsetOf lenOf
    rw [hnext]
    exact ⟨rfl, rfl⟩
  · intro j
    by_cases hj : j = i
    · subst hj
      simp [hipre, hipost]
    · rw [(hkeeps j hj).refs, ← hlive j]
      simp [hj]
  · intro j
    by_cases hj : j = i
    · subst hj
      simp
    · rw [(hkeeps j hj).refs, (hkeeps j hj).pins]
      exact h.free j
  · rw [slots_modify_self, hone]

theorem release_spec (h : Sound st) (hlive : (st.slots i).refs ≠ 0) : Released st (st.release i) i := by
  unfold release
  dsimp only
  rw [slots_modify_self]
  split_ifs with hzero
  case pos =>
    change (st.slots i).refs - 1 = 0 at hzero
    exact free_spec h (by omega)
  case neg =>
    refine ⟨h.modify rfl rfl rfl hlive hzero, rfl, by rw [slots_modify_self], fun _ => ⟨slots_modify_self .., ?_⟩,
      fun j hj => Keeps.modify_of_ne hj⟩
    unfold contents offsetOf lenOf
    rw [slots_modify_self]
    rfl

end ArenaState

end SedsNet
