import SedsNet.HopWindow
import SedsNet.PacketIdentity

/-! # The ordered hop receiver

The ordered branch of `rx_item` (`router.rs`) as a whole: the window, the acknowledgement, the
duplicate test of the current frame, its dispatch, and the loop over the frames drained behind it.
The window moves and the acknowledgement is queued before the duplicate test, and a duplicate
returns early; whatever was drained by then is not handed on.

The receiver keeps a log of what happened.  `Safe` is the requirement on the log, `Clear` the
condition on a step under which it is preserved, and `no_acknowledged_loss` the result for runs. -/

namespace SedsNet

open OrderedMap Runs ReliableRxState List
open Std (ExtTreeMap)

/-! ### The receiver -/

/-- What happened at the receiver. -/
inductive HopEntry where
  /-- The packet was received other than through this window. -/
  | received (id : UInt64)
  /-- The window handed on the frame. -/
  | released (seq : ℕ) (id : UInt64)
  /-- A cumulative acknowledgement was queued. -/
  | acked (seq : ℕ)
  /-- The frame was delivered locally or forwarded. -/
  | dispatched (seq : ℕ) (id : UInt64)
deriving DecidableEq

structure HopReceiver where
  window : ReliableRxState Bytes
  /-- `recent_rx`, oldest first. -/
  recentRx : List UInt64
  /-- The ids whose return route is marked `delivery_completed`. -/
  completed : List UInt64
  log : List HopEntry

/-- The answers of the fallible calls in one invocation of `rx_item`. -/
structure RxAnswers where
  /-- Whether the call gets as far as the window. -/
  enters : Bool
  /-- `make_shared_queue_room` for a frame to be buffered. -/
  room : Bool
  /-- `queue_reliable_ack`. -/
  ack : Bool
  /-- `push_recent_rx`, for the frames of the call in order. -/
  record : ℕ → Bool
  /-- The calls between the duplicate test and the dispatch of the current frame. -/
  observe : Bool
  /-- The admission checks in front of each drained frame. -/
  release : ℕ → Bool
  /-- `dispatch_rx_data`, for the frames of the call in order. -/
  dispatch : ℕ → Bool

structure RxLimits where
  maxPending : ℕ
  maxRecentRxIds : ℕ

/-- `get_hash` of a packed item. -/
def getHash (env : WireEnv) (bytes : Bytes) : UInt64 :=
  match packetIdFromWire env bytes with
  | .ok id => id
  | .error _ => hashBytesU64 0x9E3779B97F4A7C15 bytes

namespace HopReceiver

def initial : HopReceiver := ⟨ReliableRxState.initial, [], [], []⟩

/-- `is_duplicate_packet_id`, without its recording. -/
def isDuplicate (st : HopReceiver) (id : UInt64) : Bool :=
  st.recentRx.contains id || st.completed.contains id

/-- `push_recent_rx`: the oldest ids make room. -/
def pushRecentRx (lim : RxLimits) (st : HopReceiver) (id : UInt64) : HopReceiver :=
  { st with recentRx := st.recentRx.drop (st.recentRx.length + 1 - lim.maxRecentRxIds) ++ [id] }

def write (st : HopReceiver) (entry : HopEntry) : HopReceiver := { st with log := st.log ++ [entry] }

/-- The loop over the drained frames.  A failing call ends it. -/
def deliverReleased (env : WireEnv) (lim : RxLimits) (ans : RxAnswers) :
    (index : ℕ) → List (ℕ × Bytes) → HopReceiver → HopReceiver
  | _, [], st => st
  | index, (seq, bytes) :: rest, st =>
    let id := getHash env bytes
    if ans.release index = false then st
    else if st.isDuplicate id then deliverReleased env lim ans (index + 1) rest st
    else if ans.record (index + 1) = false then st
    else if ans.dispatch (index + 1) = false then st.pushRecentRx lim id
    else
      deliverReleased env lim ans (index + 1) rest
        ((st.pushRecentRx lim id).write (.dispatched seq id))

/-- The part of `rx_item` behind the window: a duplicate returns early. -/
def deliver (env : WireEnv) (lim : RxLimits) (ans : RxAnswers) (seq : ℕ) (bytes : Bytes)
    (drained : List (ℕ × Bytes)) (st : HopReceiver) : HopReceiver :=
  let id := getHash env bytes
  if st.isDuplicate id then st
  else if ans.record 0 = false then st
  else if ans.observe = false ∨ ans.dispatch 0 = false then st.pushRecentRx lim id
  else
    deliverReleased env lim ans 0 drained ((st.pushRecentRx lim id).write (.dispatched seq id))

/-- The entries for the frames the window hands on. -/
def releasedEntries (env : WireEnv) (frames : List (ℕ × Bytes)) : List HopEntry :=
  frames.map fun p => .released p.1 (getHash env p.2)

/-- `rx_item` for a reliable ordered frame with header sequence number `seq`. -/
def rxItem (env : WireEnv) (lim : RxLimits) (st : HopReceiver) (seq : UInt32) (bytes : Bytes)
    (ans : RxAnswers) : HopReceiver :=
  if ans.enters = false then st
  else
    match st.window.receive lim.maxPending ans.room seq.toNat bytes with
    | (window, .ackOld ackSeq) =>
      if ans.ack = false then { st with window } else { st with window }.write (.acked ackSeq)
    | (window, .missing _ _) => { st with window }
    | (window, .refused _) => { st with window }
    | (window, .release seq bytes drained) =>
      let moved := { st with window, log := st.log ++ releasedEntries env ((seq, bytes) :: drained) }
      let lastDelivered := (drained.getLast?.map Prod.fst).getD seq
      if ans.ack = false then moved
      else (moved.write (.acked lastDelivered)).deliver env lim ans seq bytes drained

/-! ### Events -/

/-- An ordered frame of this side and type, or something that happens around it. -/
inductive Event where
  | frame (seq : UInt32) (bytes : Bytes) (ans : RxAnswers)
  /-- The packet arrives on another side, or unsequenced. -/
  | foreign (id : UInt64)
  /-- The delivery of the packet is completed. -/
  | complete (id : UInt64)
  /-- The id is dropped from the duplicate records. -/
  | forget (id : UInt64)

def step (env : WireEnv) (lim : RxLimits) (st : HopReceiver) : Event → HopReceiver
  | .frame seq bytes ans => st.rxItem env lim seq bytes ans
  | .foreign id =>
    if st.isDuplicate id then st else (st.pushRecentRx lim id).write (.received id)
  | .complete id => { st with completed := id :: st.completed }.write (.received id)
  | .forget id =>
    { st with recentRx := st.recentRx.filter (· ≠ id), completed := st.completed.filter (· ≠ id) }

/-! ### The requirement on the log -/

/-- The packet has been received or dispatched. -/
def AlreadyReceived (log : List HopEntry) (id : UInt64) : Prop :=
  HopEntry.received id ∈ log ∨ ∃ seq, HopEntry.dispatched seq id ∈ log

/-- Acknowledgements cover only released frames, and no released frame is discarded: it was
dispatched, or its packet had been received before. -/
structure Safe (log : List HopEntry) : Prop where
  covered : ∀ ack, HopEntry.acked ack ∈ log → ∀ seq, 1 ≤ seq → seq ≤ ack →
    ∃ id, HopEntry.released seq id ∈ log
  settled : ∀ seq id, HopEntry.released seq id ∈ log →
    HopEntry.dispatched seq id ∈ log ∨ AlreadyReceived log id

variable {id : UInt64}

theorem AlreadyReceived.mono {log log' : List HopEntry} (hsub : log ⊆ log')
    (h : AlreadyReceived log id) : AlreadyReceived log' id := by
  rcases h with h | ⟨seq, h⟩
  · exact .inl (hsub h)
  · exact .inr ⟨seq, hsub h⟩

/-! ### The condition on a step -/

/-- The fallible calls around the dispatch all succeed. -/
structure Granted (ans : RxAnswers) : Prop where
  ack : ans.ack = true
  record : ∀ i, ans.record i = true
  observe : ans.observe = true
  release : ∀ i, ans.release i = true

/-- Every call of `dispatch_rx_data` made by the event succeeds. -/
def Dispatches : Event → Prop
  | .frame _ _ ans => ∀ i, ans.dispatch i = true
  | _ => True

/-- When the expected frame arrives it is new and the calls around its dispatch succeed, or it is a
recorded duplicate and so is, by its log, every frame buffered directly behind it. -/
def Clear (env : WireEnv) (st : HopReceiver) : Event → Prop
  | .frame seq bytes ans =>
    ans.enters = true → seq.toNat = st.window.expectedSeq →
      (st.isDuplicate (getHash env bytes) = false ∧ Granted ans) ∨
      (st.isDuplicate (getHash env bytes) = true ∧
        ∀ k frame, Drainable st.window.buffered (wrappingSucc seq.toNat) k →
          st.window.buffered[k]? = some frame → AlreadyReceived st.log (getHash env frame))
  | _ => True

/-! ### Dispatching -/

/-- The duplicate records name only received packets. -/
def Known (st : HopReceiver) : Prop :=
  ∀ id, st.isDuplicate id = true → AlreadyReceived st.log id

/-- `st'` is `st` after some dispatches. -/
structure Handed (st st' : HopReceiver) : Prop where
  window : st'.window = st.window
  grows : st.log ⊆ st'.log
  only : ∀ entry ∈ st'.log, entry ∈ st.log ∨ ∃ seq id, entry = .dispatched seq id
  known : st.Known → st'.Known

theorem Handed.refl (st : HopReceiver) : Handed st st :=
  ⟨rfl, .refl _, fun _ h => .inl h, id⟩

variable {st st' : HopReceiver}

theorem Handed.trans {st st' st'' : HopReceiver} (h : Handed st st') (h' : Handed st' st'') : Handed st st'' := by
  refine ⟨h'.window.trans h.window, List.Subset.trans h.grows h'.grows, ?_, h'.known ∘ h.known⟩
  intro entry hentry
  rcases h'.only entry hentry with hentry | hentry
  · exact h.only entry hentry
  · exact .inr hentry

variable {lim : RxLimits}

theorem isDuplicate_pushRecentRx {id id' : UInt64} (h : (st.pushRecentRx lim id).isDuplicate id' = true) :
    id' = id ∨ st.isDuplicate id' = true := by
  simp only [isDuplicate, pushRecentRx, Bool.or_eq_true, contains_iff_mem, mem_append,
    mem_singleton] at h ⊢
  rcases h with (h | h) | h
  · exact .inr (.inl (mem_of_mem_drop h))
  · exact .inl h
  · exact .inr (.inr h)

theorem subset_write (st : HopReceiver) (entry : HopEntry) : st.log ⊆ (st.write entry).log :=
  subset_append_left _ _

theorem mem_write (st : HopReceiver) (entry : HopEntry) : entry ∈ (st.write entry).log :=
  mem_append_right _ (mem_singleton_self entry)

/-- Recording a packet together with an entry that says it was received. -/
theorem Known.record {entry : HopEntry} (h : st.Known) (hentry : ∀ log, entry ∈ log → AlreadyReceived log id) :
    ((st.pushRecentRx lim id).write entry).Known := by
  intro id' hdup
  rcases isDuplicate_pushRecentRx hdup with rfl | hdup
  · exact hentry _ (mem_write _ entry)
  · exact (h id' hdup).mono (subset_write (st.pushRecentRx lim id) entry)

theorem handed_dispatched (lim : RxLimits) (st : HopReceiver) (seq : ℕ) (id : UInt64) :
    Handed st ((st.pushRecentRx lim id).write (.dispatched seq id)) := by
  refine ⟨rfl, subset_write (st.pushRecentRx lim id) _, ?_, ?_⟩
  · intro entry hentry
    rcases mem_append.mp hentry with hentry | hentry
    · exact .inl hentry
    · exact .inr ⟨seq, id, mem_singleton.mp hentry⟩
  · intro h
    exact h.record fun log hmem => .inr ⟨seq, hmem⟩

variable {ans : RxAnswers}

theorem deliverReleased_settles (env : WireEnv) (lim : RxLimits)
    (hgranted : Granted ans) (hdispatch : ∀ i, ans.dispatch i = true) (frames : List (ℕ × Bytes)) :
    ∀ (index : ℕ) (st : HopReceiver), st.Known → Handed st (deliverReleased env lim ans index frames st) ∧
      ∀ p ∈ frames, AlreadyReceived (deliverReleased env lim ans index frames st).log (getHash env p.2) := by
  induction frames with
  | nil =>
    intro index st _
    exact ⟨Handed.refl st, by simp⟩
  | cons frame rest ih =>
    intro index st hknown
    obtain ⟨seq, bytes⟩ := frame
    simp only [deliverReleased, hgranted.release, hgranted.record, hdispatch, Bool.true_eq_false,
      if_false]
    split_ifs with hdup
    · obtain ⟨hhanded, hrest⟩ := ih (index + 1) st hknown
      refine ⟨hhanded, fun p hp => ?_⟩
      rcases mem_cons.mp hp with rfl | hp
      · exact (hknown _ hdup).mono hhanded.grows
      · exact hrest p hp
    · have hone := handed_dispatched lim st seq (getHash env bytes)
      obtain ⟨hhanded, hrest⟩ := ih (index + 1) _ (hone.known hknown)
      refine ⟨hone.trans hhanded, fun p hp => ?_⟩
      rcases mem_cons.mp hp with rfl | hp
      · exact .inr ⟨seq, hhanded.grows (mem_write _ _)⟩
      · exact hrest p hp

variable {bytes : Bytes}

/-- A new frame and the frames drained behind it are settled when the calls succeed. -/
theorem deliver_settles (env : WireEnv) (lim : RxLimits) (seq : ℕ)
    (st : HopReceiver) (hnew : st.isDuplicate (getHash env bytes) = false) (hgranted : Granted ans)
    (hdispatch : ∀ i, ans.dispatch i = true) (hknown : st.Known) (drained : List (ℕ × Bytes)) :
    Handed st (st.deliver env lim ans seq bytes drained) ∧ ∀ p ∈ (seq, bytes) :: drained,
        AlreadyReceived (st.deliver env lim ans seq bytes drained).log (getHash env p.2) := by
  have hone := handed_dispatched lim st seq (getHash env bytes)
  obtain ⟨hhanded, hrest⟩ := deliverReleased_settles env lim hgranted hdispatch drained 0 _
    (hone.known hknown)
  simp only [deliver, hnew, hgranted.record, hgranted.observe, hdispatch, Bool.true_eq_false,
    Bool.false_eq_true, or_self, if_false]
  refine ⟨hone.trans hhanded, fun p hp => ?_⟩
  rcases mem_cons.mp hp with rfl | hp
  · exact .inr ⟨seq, hhanded.grows (mem_write _ _)⟩
  · exact hrest p hp

/-! ### The invariant -/

structure Inv (st : HopReceiver) : Prop where
  window : WindowOk st.window
  known : st.Known
  safe : Safe st.log
  cover : ∀ seq, 1 ≤ seq → seq < st.window.expectedSeq → ∃ id, HopEntry.released seq id ∈ st.log

theorem inv_initial : Inv initial := by
  refine ⟨⟨?_, ?_⟩, ?_, ⟨?_, ?_⟩, ?_⟩
  · simp [initial, ReliableRxState.initial]
  · simp [initial, ReliableRxState.initial]
  · intro id hdup
    simp [initial, isDuplicate] at hdup
  · simp [initial]
  · simp [initial]
  · intro seq hpos hlt
    simp only [initial, ReliableRxState.initial] at hlt
    omega

theorem Safe.grow {log log' : List HopEntry} (h : Safe log) (hsub : log ⊆ log')
    (hacked : ∀ ack, HopEntry.acked ack ∈ log' → HopEntry.acked ack ∈ log ∨
      ∀ seq, 1 ≤ seq → seq ≤ ack → ∃ id, HopEntry.released seq id ∈ log')
    (hreleased : ∀ seq id, HopEntry.released seq id ∈ log' → HopEntry.released seq id ∈ log ∨
      AlreadyReceived log' id) : Safe log' := by
  refine ⟨?_, ?_⟩
  · intro ack hack
    rcases hacked ack hack with hold | hnew
    · intro seq hpos hle
      obtain ⟨id, hid⟩ := h.covered ack hold seq hpos hle
      exact ⟨id, hsub hid⟩
    · exact hnew
  · intro seq id hrel
    rcases hreleased seq id hrel with hold | hnew
    · rcases h.settled seq id hold with hdisp | halready
      · exact .inl (hsub hdisp)
      · exact .inr (halready.mono hsub)
    · exact .inr hnew

theorem Inv.received (h : Inv st) (id : UInt64)
    (hwindow : st'.window = st.window) (hlog : st'.log = st.log ++ [.received id]) (hknown : st'.Known) : Inv st' := by
  have hsub : st.log ⊆ st'.log := hlog ▸ subset_append_left _ _
  refine ⟨hwindow ▸ h.window, hknown, ?_, ?_⟩
  · apply h.safe.grow hsub
    · intro ack hack
      rw [hlog] at hack
      simpa using Or.inl hack
    · intro seq id' hrel
      rw [hlog] at hrel
      left
      simpa using hrel
  · intro seq hpos hlt
    obtain ⟨id', hid⟩ := h.cover seq hpos (hwindow ▸ hlt)
    exact ⟨id', hsub hid⟩

theorem Inv.ackOld (h : Inv st) : Inv (st.write (.acked (st.window.expectedSeq - 1))) := by
  have hsub := subset_write st (.acked (st.window.expectedSeq - 1))
  refine ⟨h.window, ?_, ?_, ?_⟩
  · intro id hdup
    exact (h.known id hdup).mono hsub
  · apply h.safe.grow hsub
    · intro ack hack
      rcases mem_append.mp hack with hack | hack
      · exact .inl hack
      · right
        intro seq hpos hle
        cases mem_singleton.mp hack
        obtain ⟨id, hid⟩ := h.cover seq hpos (by omega)
        exact ⟨id, hsub hid⟩
    · intro seq id hrel
      left
      simpa [write] using hrel
  · intro seq hpos hlt
    obtain ⟨id, hid⟩ := h.cover seq hpos hlt
    exact ⟨id, hsub hid⟩

theorem mem_releasedEntries (env : WireEnv) {frames : List (ℕ × Bytes)} {seq : ℕ}
    (h : seq ∈ frames.map Prod.fst) : ∃ id, HopEntry.released seq id ∈ releasedEntries env frames := by
  obtain ⟨p, hp, rfl⟩ := mem_map.mp h
  exact ⟨getHash env p.2, mem_map.mpr ⟨p, hp, rfl⟩⟩

theorem lastDelivered_mem (seq : ℕ) (drained : List (ℕ × Bytes)) : (drained.getLast?.map Prod.fst).getD seq = seq ∨
      (drained.getLast?.map Prod.fst).getD seq ∈ drained.map Prod.fst := by
  cases hlast : drained.getLast? with
  | none => exact .inl rfl
  | some p => exact .inr (mem_map_of_mem (mem_of_getLast? hlast))

variable {env : WireEnv}

/-- The expected frame: the window moves over the drained frames, at most their last one is
acknowledged, and each of them is settled. -/
theorem Inv.release {out : List (ℕ × Bytes) × ℕ × ExtTreeMap ℕ Bytes} (h : Inv st)
    (hout : Sweep (wrappingSucc st.window.expectedSeq) st.window.buffered out)
    (hwindow : st'.window = ⟨out.2.1, out.2.2⟩) (hknown : st'.Known)
    (hsub : st.log ++ releasedEntries env ((st.window.expectedSeq, bytes) :: out.1) ⊆ st'.log)
    (honly : ∀ entry ∈ st'.log, entry ∈ st.log ++ releasedEntries env ((st.window.expectedSeq, bytes) :: out.1) ∨
      entry = .acked ((out.1.getLast?.map Prod.fst).getD st.window.expectedSeq) ∨ ∃ seq id, entry = .dispatched seq id)
    (hsettled : ∀ p ∈ (st.window.expectedSeq, bytes) :: out.1,
      AlreadyReceived st'.log (getHash env p.2)) : Inv st' := by
  have hnext : wrappingSucc st.window.expectedSeq ≤ st.window.expectedSeq + 1 := Nat.mod_le _ _
  -- a number below the old window was released before, the others are released now
  have hrel : ∀ seq, 1 ≤ seq → (seq ≤ st.window.expectedSeq ∨ seq ∈ out.1.map Prod.fst) →
      ∃ id, HopEntry.released seq id ∈ st'.log := by
    intro seq hpos hseq
    by_cases hlt : seq < st.window.expectedSeq
    · obtain ⟨id, hid⟩ := h.cover seq hpos hlt
      exact ⟨id, hsub (mem_append_left _ hid)⟩
    have hmem : seq ∈ ((st.window.expectedSeq, bytes) :: out.1).map Prod.fst := by
      rw [map_cons, mem_cons]
      rcases hseq with hseq | hseq
      · exact .inl (by simp only; omega)
      · exact .inr hseq
    obtain ⟨id, hid⟩ := mem_releasedEntries env hmem
    exact ⟨id, hsub (mem_append_right _ hid)⟩
  refine ⟨hwindow ▸ hout.ok, hknown, ?_, ?_⟩
  · apply h.safe.grow (fun _ hentry => hsub (mem_append_left _ hentry))
    · intro ack hack
      rcases honly _ hack with hold | hlast | ⟨_, _, hdisp⟩
      · left
        simpa [releasedEntries] using hold
      · right
        cases hlast
        intro seq hpos hle
        apply hrel seq hpos
        by_cases hlow : seq ≤ st.window.expectedSeq
        · exact .inl hlow
        · rcases lastDelivered_mem st.window.expectedSeq out.1 with heq | hmem
          · omega
          · exact .inr (hout.closed _ hmem seq (by omega) hle)
      · cases hdisp
    · intro seq id hentry
      rcases honly _ hentry with hold | hlast | ⟨_, _, hdisp⟩
      · rcases mem_append.mp hold with hold | hnew
        · exact .inl hold
        · right
          obtain ⟨p, hp, heq⟩ := mem_map.mp hnew
          cases heq
          exact hsettled p hp
      · cases hlast
      · cases hdisp
  · intro seq hpos hlt
    rw [hwindow] at hlt
    apply hrel seq hpos
    by_cases hlow : seq ≤ st.window.expectedSeq
    · exact .inl hlow
    · exact .inr (hout.cover seq (by omega) hlt)

theorem Inv.rxItem {seq : UInt32} (h : Inv st) (hdispatch : ∀ i, ans.dispatch i = true)
    (hclear : Clear env st (.frame seq bytes ans)) : Inv (st.rxItem env lim seq bytes ans) := by
  unfold HopReceiver.rxItem
  cases henters : ans.enters with
  | false => exact h
  | true =>
    rw [if_neg (by simp)]
    unfold receive
    by_cases hold : seq.toNat < st.window.expectedSeq
    · rw [if_pos hold]
      cases ans.ack with
      | false => exact h
      | true => exact h.ackOld
    rw [if_neg hold]
    by_cases hahead : st.window.expectedSeq < seq.toNat
    · rw [if_pos hahead]
      cases hbuf : st.window.bufferReliableRx lim.maxPending ans.room seq.toNat bytes with
      | error e => exact h
      | ok window =>
        obtain ⟨hexp, -⟩ := bufferReliableRx_ok hbuf
        refine ⟨h.window.buffer hahead seq.toNat_lt hbuf, h.known, h.safe, ?_⟩
        intro s hpos hlt
        exact h.cover s hpos (hexp ▸ hlt)
    rw [if_neg hahead]
    have hseq : seq.toNat = st.window.expectedSeq := by omega
    have hcase := hclear henters hseq
    rw [hseq] at hcase ⊢
    have hout := h.window.sweep
    generalize hdrain : drain st.window.buffered.size (wrappingSucc st.window.expectedSeq)
      st.window.buffered = out at hout ⊢
    obtain ⟨drained, last, rest⟩ := out
    let moved : HopReceiver := { st with
      window := ⟨last, rest⟩
      log := st.log ++ releasedEntries env ((st.window.expectedSeq, bytes) :: drained) }
    let acked := moved.write
      (.acked ((drained.getLast?.map Prod.fst).getD st.window.expectedSeq))
    have hgrows : st.log ⊆ moved.log := subset_append_left _ _
    have hacked : moved.log ⊆ acked.log := subset_write moved _
    have honly : ∀ entry ∈ acked.log, entry ∈ moved.log ∨ entry = .acked
        ((drained.getLast?.map Prod.fst).getD st.window.expectedSeq) := fun entry hentry =>
      (mem_append.mp hentry).imp id mem_singleton.mp
    show Inv (if ans.ack = false then moved
      else acked.deliver env lim ans st.window.expectedSeq bytes drained)
    rcases hcase with ⟨hnew, hgranted⟩ | ⟨hdup, hbehind⟩
    · rw [hgranted.ack, if_neg (by simp)]
      have hknown : acked.Known := fun id hid =>
        (h.known id hid).mono (List.Subset.trans hgrows hacked)
      obtain ⟨hhanded, hsettled⟩ := deliver_settles env lim st.window.expectedSeq acked
        hnew hgranted hdispatch hknown drained
      refine h.release hout hhanded.window (hhanded.known hknown)
        (List.Subset.trans hacked hhanded.grows) ?_ hsettled
      intro entry hentry
      rcases hhanded.only entry hentry with hentry | hdisp
      · exact (honly entry hentry).imp id .inl
      · exact .inr (.inr hdisp)
    · -- the early return: the drained frames had all been received
      have hback : acked.deliver env lim ans st.window.expectedSeq bytes drained = acked :=
        if_pos hdup
      have hsettled : ∀ p ∈ (st.window.expectedSeq, bytes) :: drained,
          AlreadyReceived st.log (getHash env p.2) := by
        intro p hp
        rcases mem_cons.mp hp with rfl | hp
        · exact h.known _ hdup
        · obtain ⟨hreach, hget⟩ := hout.reached p hp
          exact hbehind p.1 p.2 hreach hget
      rw [hback]
      cases ans.ack with
      | false =>
        exact h.release hout rfl (fun id hid => (h.known id hid).mono hgrows)
          (.refl _) (fun entry hentry => .inl hentry)
          fun p hp => (hsettled p hp).mono hgrows
      | true =>
        exact h.release hout rfl
          (fun id hid => (h.known id hid).mono (List.Subset.trans hgrows hacked)) hacked
          (fun entry hentry => (honly entry hentry).imp id .inl)
          fun p hp => (hsettled p hp).mono (List.Subset.trans hgrows hacked)

theorem Inv.step {event : Event} (h : Inv st) (hdispatch : Dispatches event) (hclear : Clear env st event) :
    Inv (st.step env lim event) := by
  cases event with
  | frame seq bytes ans => exact h.rxItem hdispatch hclear
  | foreign id =>
    simp only [HopReceiver.step]
    split_ifs
    · exact h
    · exact h.received id rfl rfl (h.known.record fun log hmem => .inl hmem)
  | complete id =>
    refine h.received id rfl rfl ?_
    intro id' hdup
    by_cases heq : id' = id
    · subst heq
      exact .inl (mem_write _ _)
    · refine (h.known id' ?_).mono (subset_append_left _ _)
      simpa [isDuplicate, HopReceiver.step, write, heq] using hdup
  | forget id =>
    refine ⟨h.window, ?_, h.safe, h.cover⟩
    intro id' hdup
    apply h.known id'
    simp only [isDuplicate, HopReceiver.step, Bool.or_eq_true, contains_iff_mem,
      mem_filter] at hdup ⊢
    exact hdup.imp And.left And.left

/-! ### Whole runs -/

/-- In every run whose dispatches succeed and whose steps are clear, every sequence number covered
by an acknowledgement was released, and no released frame was discarded. -/
theorem no_acknowledged_loss (env : WireEnv) (lim : RxLimits) (events : List Event)
    (hdispatch : ∀ event ∈ events, Dispatches event)
    (hclear : Meets (HopReceiver.step env lim) (Clear env) initial events) :
    Safe (run (HopReceiver.step env lim) initial events).log := by
  have hstep : ∀ st event, Inv st → Clear env st event ∧ Dispatches event →
      Inv (st.step env lim event) := fun st event h hevent => h.step hevent.2 hevent.1
  exact (run_invariant hstep inv_initial (hclear.and (meets_of_forall hdispatch))).safe

/-- `samplePacket` packed with sequence number 1. -/
def firstFrame : Bytes :=
  [206, 1, 100, 2, 7, 3, 151, 215, 142, 162, 13, 6, 20, 7, 66, 2, 2, 1, 0, 0, 0, 0, 0, 0, 0, 2, 0, 0,
    0, 0, 0, 0, 0, 4, 1, 170, 187, 41, 98, 185, 154]

/-- Another packet of the same type, packed with sequence number 2. -/
def secondFrame : Bytes :=
  [206, 1, 100, 2, 7, 3, 151, 215, 142, 162, 13, 6, 20, 7, 66, 2, 2, 1, 0, 0, 0, 0, 0, 0, 0, 2, 0, 0,
    0, 0, 0, 0, 0, 4, 2, 1, 2, 122, 178, 177, 103]

/-- Every call succeeds. -/
def allGranted : RxAnswers := ⟨true, true, true, fun _ => true, true, fun _ => true, fun _ => true⟩

/-- What is recorded when the second frame overtakes the first after some events. -/
def overtakenLog (events : List Event) : List HopEntry :=
  (run (HopReceiver.step (plainEnv sampleRegistry) ⟨4, 8⟩) initial
    (events ++ [.frame 2 secondFrame allGranted, .frame 1 firstFrame allGranted])).log

/-- The second frame overtakes the first; both are dispatched. -/
theorem no_acknowledged_loss_reordered : Safe (overtakenLog []) ∧ overtakenLog [] =
      [.released 1 1782284853532082142, .released 2 4267895993636373055, .acked 2,
        .dispatched 1 1782284853532082142, .dispatched 2 4267895993636373055] := by
  refine ⟨no_acknowledged_loss _ _ _ ?_ ⟨?_, ?_, trivial⟩, by decide +kernel⟩
  · intro event hevent
    simp only [nil_append, mem_cons, not_mem_nil, or_false] at hevent
    rcases hevent with rfl | rfl <;> exact fun _ => rfl
  · intro _ hseq
    simp [initial, ReliableRxState.initial] at hseq
  · intro _ _
    exact .inl ⟨by decide +kernel, ⟨rfl, fun _ => rfl, rfl, fun _ => rfl⟩⟩

/-- The packet of the first frame has arrived on another side.  When the first frame fills the gap
it is a duplicate, and the second frame, acknowledged with it, is dropped. -/
theorem acknowledged_frame_lost :
    (peekRoutingFrameInfo (plainEnv sampleRegistry) firstFrame).toOption.bind (·.reliable) = some ⟨0, 1, 0⟩ ∧
    (peekRoutingFrameInfo (plainEnv sampleRegistry) secondFrame).toOption.bind (·.reliable) = some ⟨0, 2, 0⟩ ∧
    overtakenLog [.foreign 1782284853532082142] =
      [.received 1782284853532082142, .released 1 1782284853532082142, .released 2 4267895993636373055, .acked 2] ∧
    ¬ Safe (overtakenLog [.foreign 1782284853532082142]) := by
  have hlog : overtakenLog [.foreign 1782284853532082142] = [.received 1782284853532082142,
      .released 1 1782284853532082142, .released 2 4267895993636373055, .acked 2] := by decide +kernel
  refine ⟨by decide +kernel, by decide +kernel, hlog, ?_⟩
  intro hsafe
  rw [hlog] at hsafe
  have hsettled := hsafe.settled 2 4267895993636373055 (by decide)
  simp [AlreadyReceived] at hsettled

end HopReceiver

end SedsNet
