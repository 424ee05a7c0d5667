import SedsNet.OrderedMap
import SedsNet.Runs
import SedsNet.Schema

/-! # The ordered receive window of a hop

The per-side, per-type reorder window of `router.rs`: the ordered branch of `rx_item` up to the
release of frames, with `buffer_reliable_rx`.  A frame ahead of the window is buffered, the expected
frame is released together with the buffered frames directly behind it, and an older frame is
acknowledged again.

`WindowInv` is what every arrival preserves; `released_prefix` follows for whole runs. -/

namespace SedsNet

open OrderedMap Runs List
open Std (ExtTreeMap LawfulEqOrd)

/-! ### The window -/

/-- `ReliableRxState`, with frames of any type. -/
structure ReliableRxState (α : Type) where
  expectedSeq : ℕ
  buffered : ExtTreeMap ℕ α

namespace ReliableRxState

variable {α : Type}

/-- The state `reliable_rx_state_mut` inserts. -/
def initial : ReliableRxState α := ⟨1, ∅⟩

/-- `u32::wrapping_add(1)`. -/
def wrappingSucc (seq : ℕ) : ℕ := (seq + 1) % 2 ^ 32

/-- `buffer_reliable_rx`; `room` is the answer of `make_shared_queue_room`. -/
def bufferReliableRx (maxPending : ℕ) (room : Bool) (st : ReliableRxState α) (seq : ℕ) (frame : α) :
    TelemetryResult (ReliableRxState α) :=
  if seq ∈ st.buffered then .ok st
  else if room = false then .error (.io "shared priority queue saturated")
  else
    let buffered := if maxPending ≤ st.buffered.size then popFirst st.buffered else st.buffered
    .ok { st with buffered := buffered.insert seq frame }

/-- The `while let` loop that takes consecutive frames out of the buffer.  Each round removes one
frame, so as many rounds as there are frames suffice. -/
def drain : (rounds : ℕ) → (nextExpected : ℕ) → ExtTreeMap ℕ α →
    List (ℕ × α) × ℕ × ExtTreeMap ℕ α
  | 0, nextExpected, buffered => ([], nextExpected, buffered)
  | rounds + 1, nextExpected, buffered =>
    match buffered[nextExpected]? with
    | none => ([], nextExpected, buffered)
    | some frame =>
      let next := wrappingSucc nextExpected
      let next := if next = 0 then 1 else next
      let (released, last, rest) := drain rounds next (buffered.erase nextExpected)
      ((nextExpected, frame) :: released, last, rest)

/-- What the window decides about an arriving frame. -/
inductive Verdict (α : Type) where
  /-- An old frame: acknowledge up to `ackSeq` again. -/
  | ackOld (ackSeq : ℕ)
  /-- A frame ahead of the window: a partial acknowledgement and a request for the gap. -/
  | missing (requestSeq partialSeq : ℕ)
  /-- A frame ahead of the window that could not be buffered. -/
  | refused (error : TelemetryError)
  /-- The expected frame and the frames drained behind it. -/
  | release (seq : ℕ) (frame : α) (drained : List (ℕ × α))

/-- The locked section of the ordered branch of `rx_item`. -/
def receive (maxPending : ℕ) (room : Bool) (st : ReliableRxState α) (seq : ℕ) (frame : α) :
    ReliableRxState α × Verdict α :=
  if seq < st.expectedSeq then (st, .ackOld (st.expectedSeq - 1))
  else if st.expectedSeq < seq then
    match st.bufferReliableRx maxPending room seq frame with
    | .error e => (st, .refused e)
    | .ok st' => (st', .missing st.expectedSeq seq)
  else
    let (released, last, rest) := drain st.buffered.size (wrappingSucc seq) st.buffered
    (⟨last, rest⟩, .release seq frame released)

/-- The frames a verdict hands on, in order. -/
def Verdict.released : Verdict α → List (ℕ × α)
  | release seq frame drained => (seq, frame) :: drained
  | _ => []

/-! ### The drain loop -/

variable {seq : ℕ}

theorem wrappingSucc_of_lt (h : seq < 2 ^ 32 - 1) : wrappingSucc seq = seq + 1 := by
  unfold wrappingSucc
  omega

/-- The loop took `n` consecutive frames out of the buffer and stopped at a gap. -/
structure Drained (next : ℕ) (buffered : ExtTreeMap ℕ α) (n : ℕ)
    (out : List (ℕ × α) × ℕ × ExtTreeMap ℕ α) : Prop where
  seqs : out.1.map Prod.fst = List.range' next n
  last : out.2.1 = next + n
  frames : ∀ p ∈ out.1, buffered[p.1]? = some p.2
  rest : ∀ k, out.2.2[k]? = if next ≤ k ∧ k < next + n then none else buffered[k]?
  gap : buffered[next + n]? = none
  size : out.2.2.size ≤ buffered.size

variable {next : ℕ} {buffered : ExtTreeMap ℕ α}

theorem Drained.stop (h : buffered[next]? = none) : Drained next buffered 0 ([], next, buffered) := by
  refine ⟨rfl, rfl, by simp, fun k => ?_, h, le_refl _⟩
  rw [if_neg (by omega)]

variable {frame : α} {n : ℕ} {out : List (ℕ × α) × ℕ × ExtTreeMap ℕ α}

/-- One more round in front of a drain of the rest. -/
theorem Drained.cons (hframe : buffered[next]? = some frame) (h : Drained (next + 1) (buffered.erase next) n out) :
    Drained next buffered (n + 1) ((next, frame) :: out.1, out.2.1, out.2.2) := by
  refine ⟨?_, ?_, ?_, ?_, ?_, ?_⟩
  · simp [List.range'_succ, h.seqs]
  · rw [h.last]
    omega
  · intro p hp
    rcases mem_cons.mp hp with rfl | hp
    · exact hframe
    · have := h.frames p hp
      exact (getElem?_of_erase this).2
  · intro k
    rw [h.rest k, getElem?_erase_eq]
    by_cases hk : next = k
    · simp [hk]
    · rw [if_neg hk]
      by_cases hin : next + 1 ≤ k ∧ k < next + 1 + n
      · rw [if_pos hin, if_pos (by omega)]
      · rw [if_neg hin, if_neg (by omega)]
  · have hgap := h.gap
    rw [getElem?_erase_eq, if_neg (by omega)] at hgap
    rw [show next + (n + 1) = next + 1 + n by omega]
    exact hgap
  · exact h.size.trans ExtTreeMap.size_erase_le

theorem drain_spec (rounds : ℕ) : ∀ next (buffered : ExtTreeMap ℕ α), buffered.size ≤ rounds →
    (∀ k ∈ buffered, k < 2 ^ 32 - 1) → ∃ n, Drained next buffered n (drain rounds next buffered) := by
  induction rounds with
  | zero =>
    intro next buffered hsize _
    refine ⟨0, Drained.stop ?_⟩
    rw [ExtTreeMap.eq_empty_iff_size_eq_zero.mpr (Nat.le_zero.mp hsize)]
    simp
  | succ rounds ih =>
    intro next buffered hsize hkeys
    cases hframe : buffered[next]? with
    | none =>
      refine ⟨0, ?_⟩
      simp only [drain, hframe]
      exact Drained.stop hframe
    | some frame =>
      have hnext : next < 2 ^ 32 - 1 := hkeys next (mem_iff_exists.mpr ⟨frame, hframe⟩)
      have hsmaller : (buffered.erase next).size ≤ rounds := by
        rw [size_erase_of_mem (mem_iff_exists.mpr ⟨frame, hframe⟩)]
        omega
      obtain ⟨n, hn⟩ := ih (next + 1) (buffered.erase next) hsmaller fun k hk =>
        hkeys k (ExtTreeMap.mem_of_mem_erase hk)
      refine ⟨n + 1, ?_⟩
      simp only [drain, hframe, wrappingSucc_of_lt hnext, Nat.add_one_ne_zero, if_false]
      exact Drained.cons hframe hn

/-! ### What an arrival preserves -/

/-- The buffered frames lie ahead of the window and are at most `maxPending`. -/
structure WindowInv (maxPending : ℕ) (st : ReliableRxState α) : Prop where
  pos : 1 ≤ st.expectedSeq
  bound : st.expectedSeq ≤ 2 ^ 32 - 1
  ahead : ∀ k ∈ st.buffered, st.expectedSeq < k ∧ k < 2 ^ 32 - 1
  pending : st.buffered.size ≤ maxPending

theorem windowInv_initial (maxPending : ℕ) : WindowInv maxPending (initial : ReliableRxState α) :=
  ⟨le_refl 1, by simp [initial], by simp [initial], by simp [initial]⟩

variable {maxPending : ℕ} {room : Bool} {st st' : ReliableRxState α}

/-- Buffering leaves the window in place and adds at most the frame's own number. -/
theorem bufferReliableRx_ok (hst : st.bufferReliableRx maxPending room seq frame = .ok st') :
    st'.expectedSeq = st.expectedSeq ∧ ∀ k ∈ st'.buffered, k = seq ∨ k ∈ st.buffered := by
  unfold bufferReliableRx at hst
  split at hst
  · cases hst
    exact ⟨rfl, fun k hk => .inr hk⟩
  split at hst
  · cases hst
  cases hst
  refine ⟨rfl, fun k hk => ?_⟩
  rcases ExtTreeMap.mem_insert.mp hk with hk | hk
  · exact .inl (LawfulEqOrd.compare_eq_iff_eq.mp hk).symm
  · right
    split at hk
    · obtain ⟨v, hv⟩ := mem_iff_exists.mp hk
      exact mem_iff_exists.mpr ⟨v, getElem?_of_popFirst hv⟩
    · exact hk

/-- The oldest frame makes room when the buffer is full. -/
theorem bufferReliableRx_size (hmax : 1 ≤ maxPending) (h : st.buffered.size ≤ maxPending)
    (hst : st.bufferReliableRx maxPending room seq frame = .ok st') : st'.buffered.size ≤ maxPending := by
  unfold bufferReliableRx at hst
  split at hst
  · cases hst
    exact h
  split at hst
  · cases hst
  cases hst
  refine ExtTreeMap.size_insert_le.trans ?_
  split
  · rw [size_popFirst]
    omega
  · omega

theorem WindowInv.buffer (h : WindowInv maxPending st) (hmax : 1 ≤ maxPending)
    (hahead : st.expectedSeq < seq) (hseq : seq < 2 ^ 32 - 1)
    (hst : st.bufferReliableRx maxPending room seq frame = .ok st') :
    WindowInv maxPending st' ∧ st'.expectedSeq = st.expectedSeq := by
  obtain ⟨hexp, hmem⟩ := bufferReliableRx_ok hst
  refine ⟨⟨hexp ▸ h.pos, hexp ▸ h.bound, ?_, bufferReliableRx_size hmax h.pending hst⟩, hexp⟩
  intro k hk
  rw [hexp]
  rcases hmem k hk with rfl | hk
  · exact ⟨hahead, hseq⟩
  · exact h.ahead k hk

theorem WindowInv.release (h : WindowInv maxPending st) (hseq : st.expectedSeq < 2 ^ 32 - 1)
    (hout : Drained (st.expectedSeq + 1) st.buffered n out) : WindowInv maxPending ⟨out.2.1, out.2.2⟩ := by
  have hkeep : ∀ k ∈ out.2.2, out.2.1 < k ∧ k < 2 ^ 32 - 1 := by
    intro k hk
    obtain ⟨v, hv⟩ := mem_iff_exists.mp hk
    rw [hout.rest k] at hv
    split at hv
    · cases hv
    obtain ⟨hahead, hbound⟩ := h.ahead k (mem_iff_exists.mpr ⟨v, hv⟩)
    have hgap : k ≠ st.expectedSeq + 1 + n := by
      rintro rfl
      rw [hout.gap] at hv
      cases hv
    rw [hout.last]
    omega
  refine ⟨?_, ?_, hkeep, hout.size.trans h.pending⟩
  · show 1 ≤ out.2.1
    rw [hout.last]
    omega
  · show out.2.1 ≤ 2 ^ 32 - 1
    rw [hout.last]
    -- the last drained sequence number was buffered
    cases n with
    | zero => omega
    | succ n =>
      have hmem : st.expectedSeq + 1 + n ∈ out.1.map Prod.fst := by
        rw [hout.seqs, mem_range'_1]
        omega
      obtain ⟨p, hp, hpeq⟩ := mem_map.mp hmem
      have := (h.ahead _ (mem_iff_exists.mpr ⟨p.2, hout.frames p hp⟩)).2
      omega

/-- What one arrival does to the window, and which sequence numbers it releases. -/
theorem receive_spec (hmax : 1 ≤ maxPending)
    (h : WindowInv maxPending st) (hseq : seq < 2 ^ 32 - 1) (room : Bool) (frame : α) :
    WindowInv maxPending (st.receive maxPending room seq frame).1 ∧
      ∃ n, (st.receive maxPending room seq frame).2.released.map Prod.fst = List.range' st.expectedSeq n ∧
        (st.receive maxPending room seq frame).1.expectedSeq = st.expectedSeq + n := by
  unfold receive
  split_ifs with hold hahead
  · exact ⟨h, 0, rfl, rfl⟩
  · cases hst : st.bufferReliableRx maxPending room seq frame with
    | error e => exact ⟨h, 0, rfl, rfl⟩
    | ok st' =>
      obtain ⟨hinv, hexp⟩ := h.buffer hmax hahead hseq hst
      exact ⟨hinv, 0, rfl, hexp⟩
  · obtain rfl : seq = st.expectedSeq := by omega
    obtain ⟨n, hn⟩ := drain_spec st.buffered.size (st.expectedSeq + 1) st.buffered (le_refl _)
      fun k hk => (h.ahead k hk).2
    rw [wrappingSucc_of_lt hseq]
    refine ⟨h.release hseq hn, n + 1, ?_, ?_⟩
    · simp [Verdict.released, List.range'_succ, hn.seqs]
    · show (drain _ _ _).2.1 = _
      rw [hn.last]
      omega

/-! ### Runs of the window -/

/-- A reliable ordered frame, and whether the shared queue has room for it. -/
structure Arrival (α : Type) where
  seq : ℕ
  frame : α
  room : Bool

/-- One arrival, with the sequence numbers released so far. -/
def arrive (maxPending : ℕ) (s : ReliableRxState α × List ℕ) (a : Arrival α) :
    ReliableRxState α × List ℕ :=
  ((s.1.receive maxPending a.room a.seq a.frame).1,
    s.2 ++ (s.1.receive maxPending a.room a.seq a.frame).2.released.map Prod.fst)

/-- Whatever arrives, in whatever order and however often, the window releases the sequence numbers
`1, 2, 3, …` once each, and buffers at most `maxPending` frames, all of them ahead of it. -/
theorem released_prefix {maxPending : ℕ} (hmax : 1 ≤ maxPending) (arrivals : List (Arrival α))
    (hseq : ∀ a ∈ arrivals, a.seq < 2 ^ 32 - 1) :
    (∃ n, (run (arrive maxPending) (initial, []) arrivals).2 = List.range' 1 n) ∧
      (∀ k ∈ (run (arrive maxPending) (initial, []) arrivals).1.buffered,
        (run (arrive maxPending) (initial, []) arrivals).1.expectedSeq < k) ∧
      (run (arrive maxPending) (initial, []) arrivals).1.buffered.size ≤ maxPending := by
  let I : ReliableRxState α × List ℕ → Prop := fun s =>
    WindowInv maxPending s.1 ∧ s.2 = List.range' 1 (s.1.expectedSeq - 1)
  have hstep : ∀ s a, I s → a.seq < 2 ^ 32 - 1 → I (arrive maxPending s a) := by
    rintro s a ⟨hinv, hrel⟩ ha
    obtain ⟨hinv', n, hn, hexp⟩ := receive_spec hmax hinv ha a.room a.frame
    refine ⟨hinv', ?_⟩
    have hpos := hinv.pos
    simp only [arrive]
    rw [hrel, hn, hexp, show s.1.expectedSeq + n - 1 = (s.1.expectedSeq - 1) + n by omega,
      ← List.range'_append_1, show 1 + (s.1.expectedSeq - 1) = s.1.expectedSeq by omega]
  have hinit : I (initial, []) := ⟨windowInv_initial maxPending, rfl⟩
  obtain ⟨hinv, hrel⟩ := run_invariant hstep hinit (meets_of_forall hseq)
  exact ⟨⟨_, hrel⟩, fun k hk => (hinv.ahead k hk).1, hinv.pending⟩

/-- Three frames in reverse order, one of them twice. -/
theorem released_prefix_reversed : (∃ n, (run (arrive 2) ((initial : ReliableRxState Unit), [])
      [⟨3, (), true⟩, ⟨2, (), true⟩, ⟨3, (), true⟩, ⟨1, (), true⟩]).2 = List.range' 1 n) ∧
    (run (arrive 2) ((initial : ReliableRxState Unit), [])
      [⟨3, (), true⟩, ⟨2, (), true⟩, ⟨3, (), true⟩, ⟨1, (), true⟩]).2 = [1, 2, 3] :=
  have h := released_prefix (by decide) _ (by decide)
  ⟨h.1, by decide +kernel⟩

/-! ### The window over the whole sequence space

Without a bound on the sequence numbers the window may wrap; what it covers is then stated up to
the wrap. -/

/-- The buffered frames lie ahead of the window. -/
structure WindowOk (st : ReliableRxState α) : Prop where
  bound : st.expectedSeq < 2 ^ 32
  ahead : ∀ k ∈ st.buffered, st.expectedSeq < k ∧ k < 2 ^ 32

/-- The sequence number after `seq` in the drain loop. -/
def nextSeq (seq : ℕ) : ℕ := if wrappingSucc seq = 0 then 1 else wrappingSucc seq

/-- Draining from `next` can reach `k`: the numbers from `next` to `k` are all buffered. -/
inductive Drainable (buffered : ExtTreeMap ℕ α) : ℕ → ℕ → Prop
  | here {next : ℕ} (h : next ∈ buffered) : Drainable buffered next next
  | behind {next k : ℕ} (h : next ∈ buffered) (hk : Drainable buffered (nextSeq next) k) :
      Drainable buffered next k

theorem Drainable.of_erase {gone k : ℕ} (h : Drainable (buffered.erase gone) next k) : Drainable buffered next k := by
  induction h with
  | here h => exact .here (ExtTreeMap.mem_of_mem_erase h)
  | behind h _ ih => exact .behind (ExtTreeMap.mem_of_mem_erase h) ih

/-- What a drain from `next` took out and left behind. -/
structure Sweep (next : ℕ) (buffered : ExtTreeMap ℕ α)
    (out : List (ℕ × α) × ℕ × ExtTreeMap ℕ α) : Prop where
  ok : WindowOk ⟨out.2.1, out.2.2⟩
  reached : ∀ p ∈ out.1, Drainable buffered next p.1 ∧ buffered[p.1]? = some p.2
  closed : ∀ k ∈ out.1.map Prod.fst, ∀ s, next ≤ s → s ≤ k → s ∈ out.1.map Prod.fst
  cover : ∀ s, next ≤ s → s < out.2.1 → s ∈ out.1.map Prod.fst

theorem drain_empty (rounds next : ℕ) : drain rounds next (∅ : ExtTreeMap ℕ α) = ([], next, ∅) := by
  cases rounds with
  | zero => rfl
  | succ rounds => simp [drain]

theorem drain_succ_of_some {rounds : ℕ} (h : buffered[next]? = some frame) : drain (rounds + 1) next buffered =
      ((next, frame) :: (drain rounds (nextSeq next) (buffered.erase next)).1,
        (drain rounds (nextSeq next) (buffered.erase next)).2) := by
  simp only [drain, h, nextSeq]

theorem Sweep.stop (hnext : next < 2 ^ 32)
    (hkeys : ∀ k ∈ buffered, next ≤ k ∧ k < 2 ^ 32) (h : buffered[next]? = none) :
    Sweep next buffered ([], next, buffered) := by
  refine ⟨⟨hnext, ?_⟩, by simp, by simp, ?_⟩
  · intro k hk
    have hne : k ≠ next := by
      rintro rfl
      exact not_mem_iff.mpr h hk
    have := hkeys k hk
    show next < k ∧ k < 2 ^ 32
    omega
  · intro s hs hlt
    simp only at hlt
    omega

theorem drain_sweep (rounds : ℕ) : ∀ next (buffered : ExtTreeMap ℕ α), buffered.size ≤ rounds →
    next < 2 ^ 32 → (∀ k ∈ buffered, next ≤ k ∧ k < 2 ^ 32) → Sweep next buffered (drain rounds next buffered) := by
  induction rounds with
  | zero =>
    intro next buffered hsize hnext hkeys
    have hempty := ExtTreeMap.eq_empty_iff_size_eq_zero.mpr (Nat.le_zero.mp hsize)
    exact Sweep.stop hnext hkeys (by simp [hempty])
  | succ rounds ih =>
    intro next buffered hsize hnext hkeys
    cases hframe : buffered[next]? with
    | none =>
      simp only [drain, hframe]
      exact Sweep.stop hnext hkeys hframe
    | some frame =>
      have hmem : next ∈ buffered := mem_iff_exists.mpr ⟨frame, hframe⟩
      have hkeys' : ∀ k ∈ buffered.erase next, next + 1 ≤ k ∧ k < 2 ^ 32 := by
        intro k hk
        rw [ExtTreeMap.mem_erase] at hk
        have hne : next ≠ k := fun h => hk.1 (LawfulEqOrd.compare_eq_iff_eq.mpr h)
        have := hkeys k hk.2
        omega
      rw [drain_succ_of_some hframe]
      by_cases hwrap : next = 2 ^ 32 - 1
      · -- the buffer ends here, and the window starts over
        have hempty : buffered.erase next = ∅ := by
          rw [ExtTreeMap.eq_empty_iff_forall_not_mem]
          intro k hk
          have := hkeys' k hk
          omega
        rw [hempty, drain_empty]
        have hone : nextSeq next = 1 := by
          rw [hwrap]
          decide
        refine ⟨⟨?_, by simp⟩, ?_, ?_, ?_⟩
        · show nextSeq next < 2 ^ 32
          omega
        · intro p hp
          rw [mem_singleton.mp hp]
          exact ⟨.here hmem, hframe⟩
        · intro k hk s hs hle
          simp only [map_cons, map_nil, mem_singleton] at hk ⊢
          omega
        · intro s hs hlt
          simp only [hone] at hlt
          omega
      · have hsucc : nextSeq next = next + 1 := by
          rw [nextSeq, wrappingSucc_of_lt (by omega), if_neg (by omega)]
        have hsmaller : (buffered.erase next).size ≤ rounds := by
          rw [size_erase_of_mem hmem]
          omega
        rw [hsucc]
        have hrest := ih (next + 1) (buffered.erase next) hsmaller (by omega) hkeys'
        refine ⟨hrest.ok, ?_, ?_, ?_⟩
        · intro p hp
          rcases mem_cons.mp hp with rfl | hp
          · exact ⟨.here hmem, hframe⟩
          · obtain ⟨hreach, hget⟩ := hrest.reached p hp
            refine ⟨.behind hmem (hsucc ▸ hreach.of_erase), ?_⟩
            exact (getElem?_of_erase hget).2
        · intro k hk s hs hle
          rw [map_cons, mem_cons] at hk ⊢
          rcases Nat.eq_or_lt_of_le hs with rfl | hlt
          · exact .inl rfl
          · rcases hk with rfl | hk
            · exact absurd hle (Nat.not_le.mpr hlt)
            · exact .inr (hrest.closed k hk s hlt hle)
        · intro s hs hlt
          rw [map_cons, mem_cons]
          rcases Nat.eq_or_lt_of_le hs with rfl | hgt
          · exact .inl rfl
          · exact .inr (hrest.cover s hgt hlt)

/-- The expected frame moves the window, also over the wrap of the sequence numbers. -/
theorem WindowOk.sweep (h : WindowOk st) : Sweep (wrappingSucc st.expectedSeq) st.buffered
      (drain st.buffered.size (wrappingSucc st.expectedSeq) st.buffered) := by
  have hle : wrappingSucc st.expectedSeq ≤ st.expectedSeq + 1 := Nat.mod_le _ _
  apply drain_sweep
  · exact le_refl _
  · exact Nat.mod_lt _ (by norm_num)
  · intro k hk
    have := h.ahead k hk
    omega

theorem WindowOk.buffer (h : WindowOk st) (hahead : st.expectedSeq < seq) (hseq : seq < 2 ^ 32)
    (hst : st.bufferReliableRx maxPending room seq frame = .ok st') : WindowOk st' := by
  obtain ⟨hexp, hmem⟩ := bufferReliableRx_ok hst
  refine ⟨hexp ▸ h.bound, fun k hk => ?_⟩
  rw [hexp]
  rcases hmem k hk with rfl | hk
  · exact ⟨hahead, hseq⟩
  · exact h.ahead k hk

end ReliableRxState

end SedsNet
