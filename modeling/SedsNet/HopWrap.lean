import SedsNet.HopHistory
import SedsNet.HopWindow

/-! # Sequence numbers of an ordered hop

The hop sender and the receive window of the next hop, joined by the frames and the cumulative
acknowledgements between them.  Frames and acknowledgements may be lost, repeated and reordered.

Below `u32::MAX` both sides count alike (`sequence_agreement`).  The number `u32::MAX` itself breaks
the agreement: the sender and the drain loop of the window continue with 1, but the branch of the
window for the expected frame continues with 0 (`wrap_disagrees`). -/

namespace SedsNet

open OrderedMap Runs List
open Std (ExtTreeMap)

/-! ### The order of the history -/

namespace ReliableTxState

/-- A cumulative acknowledgement takes the frames up to its number off an ascending history whose
offers are complete. -/
theorem ackOrdered_complete {ack nextSeq : UInt32} {order : List UInt32}
    {sent : ExtTreeMap UInt32 ReliableSent} (hsorted : order.Pairwise (· < ·))
    (hcomplete : ∀ q ∈ order, ∃ x : ReliableSent, sent[q]? = some x ∧ x.firstOffer = .complete) :
    (ackOrdered ack nextSeq order sent).sentOrder = order.filter (fun q => decide (ack < q)) := by
  induction order generalizing sent with
  | nil => rfl
  | cons seq order ih =>
    obtain ⟨hhead, htail⟩ := pairwise_cons.mp hsorted
    unfold ackOrdered
    split
    · rename_i hlt
      refine (filter_eq_self.mpr ?_).symm
      intro q hq
      rcases mem_cons.mp hq with rfl | hq
      · exact decide_eq_true hlt
      · exact decide_eq_true (UInt32.lt_trans hlt (hhead q hq))
    · rename_i hle
      obtain ⟨x, hx, hoffer⟩ := hcomplete seq mem_cons_self
      rw [hx]
      dsimp only
      rw [if_neg (by simp [FirstHopOffer.isPending, hoffer]),
        filter_cons_of_neg (by simpa using hle)]
      apply ih htail
      intro q hq
      rw [getElem?_erase_eq, if_neg]
      · exact hcomplete q (mem_cons_of_mem seq hq)
      · rintro rfl
        exact UInt32.lt_irrefl seq (hhead seq hq)

end ReliableTxState

/-! ### The numbers of the stream -/

namespace HopSender

open ReliableTxState

variable {maxPending : ℕ} {s : HopSender}

/-- The stream has assigned the numbers up to `n` and retains some of them in ascending order. -/
structure Numbered (n : ℕ) (s : HopSender) : Prop where
  next : s.sideExists = true → s.streamOr.nextSeq = 0 ∨ s.streamOr.nextSeq.toNat = n + 1
  order : s.streamOr.sentOrder.Pairwise (· < ·)
  bound : ∀ q ∈ s.streamOr.sentOrder, 1 ≤ q.toNat ∧ q.toNat ≤ n

theorem numbered_initial : Numbered 0 initial :=
  ⟨fun _ => .inr rfl, List.Pairwise.nil, fun _ h => nomatch h⟩

/-- Below `u32::MAX` a step assigns no number, or the next one. -/
theorem Numbered.step {n : ℕ} (h : Numbered n s) (hinv : Inv maxPending s) (e : Event)
    (hmax : s.streamOr.nextSeq ≠ 0xFFFFFFFF) :
    (assigns maxPending s e = none ∧ Numbered n (HopSender.step maxPending s e)) ∨
      ∃ seq, assigns maxPending s e = some seq ∧ seq.toNat = n + 1 ∧ n + 1 < 2 ^ 32 - 1 ∧
        Numbered (n + 1) (HopSender.step maxPending s e) := by
  have hchange := step_change maxPending s e
  generalize hassigns : assigns maxPending s e = assigned at hchange
  cases hchange with
  | edited hstream hsame =>
    left
    refine ⟨rfl, ?_, h.order.sublist hstream.sublist, fun q hq => h.bound q (hstream.sublist.subset hq)⟩
    intro hexists
    rcases hstream.nextSeq_eq with heq | hzero
    · rw [heq]
      exact h.next (hsame hexists)
    · exact .inl hzero
  | removed hstream hgone =>
    left
    refine ⟨rfl, ?_, ?_, ?_⟩
    · intro hexists
      rw [hgone] at hexists
      cases hexists
    · rw [hstream]
      exact List.Pairwise.nil
    · intro q hq
      rw [hstream] at hq
      cases hq
  | @accepted seq bytes originKey hexists hread hcommit =>
    right
    obtain ⟨hseq, -⟩ := commit_ok hcommit
    obtain ⟨hnext, horder, -⟩ := commit_eq hcommit
    have hnum : seq.toNat = n + 1 := by
      rcases h.next hexists with hzero | hnum
      · exact absurd (hseq.symm.trans hzero) (hinv.attempts seq hread)
      · rwa [hseq] at hnum
    have hlt : n + 1 < 2 ^ 32 - 1 := by
      have hbound := seq.toNat_lt
      have hne : seq.toNat ≠ 2 ^ 32 - 1 := fun heq => hmax (hseq.trans (UInt32.toNat_inj.mp heq))
      omega
    have hsucc : (seq + 1).toNat = n + 2 := by
      rw [UInt32.toNat_add, hnum]
      change (n + 1 + 1) % 2 ^ 32 = n + 2
      exact Nat.mod_eq_of_lt (by omega)
    refine ⟨seq, rfl, hnum, hlt, fun _ => .inr ?_, ?_, ?_⟩
    · rw [hnext, if_neg, hsucc]
      intro hzero
      rw [hzero] at hsucc
      cases hsucc
    · rw [horder, pairwise_append]
      refine ⟨h.order, pairwise_singleton _ _, fun q hq q' hq' => ?_⟩
      rw [mem_singleton.mp hq', UInt32.lt_iff_toNat_lt]
      have := (h.bound q hq).2
      omega
    · intro q hq
      rw [horder, mem_append, mem_singleton] at hq
      rcases hq with hold | rfl
      · have := h.bound q hold
        omega
      · omega

end HopSender

/-! ### What the window acknowledges -/

namespace ReliableRxState

variable {α : Type} {maxPending : ℕ}

/-- The cumulative acknowledgement that follows a verdict. -/
def Verdict.ack : Verdict α → Option ℕ
  | .ackOld ackSeq => some ackSeq
  | .release seq _ drained => some ((drained.getLast?.map Prod.fst).getD seq)
  | _ => none

theorem getLast?_range'_getD (first n : ℕ) : ((List.range' (first + 1) n).getLast?).getD first = first + n := by
  cases n with
  | zero => rfl
  | succ n =>
    rw [List.range'_concat, List.getLast?_append_of_ne_nil _ (by simp)]
    simp only [List.getLast?_singleton, Option.getD_some]
    omega

/-- Numbers come out of the window and its buffer only if they came in, and an acknowledgement is for
the number before the expected one. -/
theorem receive_numbers {st : ReliableRxState α} (h : WindowInv maxPending st) {seq : ℕ}
    (hseq : seq < 2 ^ 32 - 1) (room : Bool) (frame : α) :
    (∀ k ∈ (st.receive maxPending room seq frame).2.released.map Prod.fst, k = seq ∨ k ∈ st.buffered) ∧
      (∀ k ∈ (st.receive maxPending room seq frame).1.buffered, k = seq ∨ k ∈ st.buffered) ∧
      ∀ a, (st.receive maxPending room seq frame).2.ack = some a →
        a + 1 = (st.receive maxPending room seq frame).1.expectedSeq := by
  unfold receive
  split_ifs with hold hahead
  · refine ⟨by simp [Verdict.released], fun k hk => .inr hk, fun a ha => ?_⟩
    have := h.pos
    cases ha
    change st.expectedSeq - 1 + 1 = st.expectedSeq
    omega
  · cases hst : st.bufferReliableRx maxPending room seq frame with
    | error e => exact ⟨by simp [Verdict.released], fun k hk => .inr hk, fun a ha => by cases ha⟩
    | ok st' =>
      exact ⟨by simp [Verdict.released], (bufferReliableRx_ok hst).2, fun a ha => by cases ha⟩
  · obtain rfl : seq = st.expectedSeq := by omega
    obtain ⟨n, hn⟩ := drain_spec st.buffered.size (st.expectedSeq + 1) st.buffered (le_refl _)
      fun k hk => (h.ahead k hk).2
    rw [wrappingSucc_of_lt hseq]
    refine ⟨?_, ?_, ?_⟩
    · intro k hk
      rcases mem_cons.mp hk with rfl | hk
      · exact .inl rfl
      · obtain ⟨p, hp, rfl⟩ := mem_map.mp hk
        exact .inr (mem_iff_exists.mpr ⟨p.2, hn.frames p hp⟩)
    · intro k hk
      obtain ⟨v, hv⟩ := mem_iff_exists.mp hk
      rw [hn.rest k] at hv
      split at hv
      · cases hv
      · exact .inr (mem_iff_exists.mpr ⟨v, hv⟩)
    · intro a ha
      have ha' := Option.some.inj ha
      change _ = (drain _ _ _).2.1
      rw [← ha', ← List.getLast?_map, hn.seqs, getLast?_range'_getD, hn.last]
      omega

end ReliableRxState

/-! ### The link -/

/-- A hop sender and the window of the next hop; with the numbers assigned and released so far, and
the acknowledgements sent so far, each with the number of frames that had been released. -/
structure HopLink where
  tx : HopSender
  rx : ReliableRxState Unit
  assigned : List ℕ
  released : List ℕ
  acks : List (UInt32 × ℕ)

namespace HopLink

open HopSender

inductive Event where
  /-- A critical section of the sender other than an acknowledgement. -/
  | sender (e : HopSender.Event)
  /-- A frame with an assigned number arrives. -/
  | deliver (seq : ℕ) (room : Bool)
  /-- An acknowledgement arrives. -/
  | ack (index : ℕ)

def start : HopLink := ⟨.initial, .initial, [], [], []⟩

/-- The window after a frame, with its acknowledgement. -/
def deliver (maxPending : ℕ) (s : HopLink) (seq : ℕ) (room : Bool) : HopLink :=
  let r := s.rx.receive maxPending room seq ()
  let released := s.released ++ r.2.released.map Prod.fst
  { s with
    rx := r.1
    released
    acks := s.acks ++ (r.2.ack.map fun a => (UInt32.ofNat a, released.length)).toList }

def step (maxPending : ℕ) (s : HopLink) : Event → HopLink
  | .sender (.ack _ _) => s
  | .sender e =>
    { s with
      tx := HopSender.step maxPending s.tx e
      assigned := s.assigned ++ ((HopSender.assigns maxPending s.tx e).map UInt32.toNat).toList }
  | .deliver seq room => if seq ∈ s.assigned then s.deliver maxPending seq room else s
  | .ack index =>
    match s.acks[index]? with
    | none => s
    | some (a, _) => { s with tx := HopSender.step maxPending s.tx (.ack .ordered a) }

/-- The number after `seq`. -/
def nextNumber (seq : ℕ) : ℕ := if seq = 2 ^ 32 - 1 then 1 else seq + 1

/-- The next number of the sender is not `u32::MAX`. -/
def BelowMax (s : HopLink) (_ : Event) : Prop := s.tx.streamOr.nextSeq ≠ 0xFFFFFFFF

instance (s : HopLink) (e : Event) : Decidable (BelowMax s e) :=
  inferInstanceAs (Decidable (s.tx.streamOr.nextSeq ≠ 0xFFFFFFFF))

/-- Both sides count the frames alike. -/
structure Inv (maxPending : ℕ) (s : HopLink) : Prop where
  sender : HopSender.Inv maxPending s.tx
  numbered : HopSender.Numbered s.assigned.length s.tx
  assigned : s.assigned = List.range' 1 s.assigned.length
  below : s.assigned.length < 2 ^ 32 - 1
  window : ReliableRxState.WindowInv maxPending s.rx
  released : s.released = List.range' 1 s.released.length
  expected : s.rx.expectedSeq = s.released.length + 1
  sent : s.released.length ≤ s.assigned.length
  buffered : ∀ k ∈ s.rx.buffered, k ≤ s.assigned.length
  acks : ∀ p ∈ s.acks, p.1.toNat = p.2 ∧ p.2 ≤ s.released.length

variable {maxPending : ℕ} {s : HopLink}

theorem inv_start : Inv maxPending start where
  sender := inv_initial
  numbered := numbered_initial
  assigned := rfl
  below := by decide
  window := ReliableRxState.windowInv_initial maxPending
  released := rfl
  expected := rfl
  sent := Nat.le_refl 0
  buffered := by simp [start, ReliableRxState.initial]
  acks := fun _ h => nomatch h

theorem Inv.send (h : Inv maxPending s) (hmax : s.tx.streamOr.nextSeq ≠ 0xFFFFFFFF)
    (e : HopSender.Event) :
    Inv maxPending { s with
      tx := HopSender.step maxPending s.tx e
      assigned := s.assigned ++ ((assigns maxPending s.tx e).map UInt32.toNat).toList } := by
  rcases h.numbered.step h.sender e hmax with ⟨hnone, hnum⟩ | ⟨seq, hsome, hseq, hlt, hnum⟩
  · rw [hnone]
    simp only [Option.map_none, Option.toList_none, append_nil]
    exact { h with sender := h.sender.step e, numbered := hnum }
  · rw [hsome]
    have hlen : (s.assigned ++ [seq.toNat]).length = s.assigned.length + 1 := by simp
    have hsent := h.sent
    simp only [Option.map_some, Option.toList_some]
    refine ⟨h.sender.step e, ?_, ?_, ?_, h.window, h.released, h.expected, ?_, ?_, h.acks⟩
    · simpa only [hlen] using hnum
    · simp only [hlen]
      rw [List.range'_concat, ← h.assigned, hseq, Nat.one_mul, Nat.add_comm]
    · simpa only [hlen] using hlt
    · simp only [hlen]
      omega
    · intro k hk
      have := h.buffered k hk
      simp only [hlen]
      omega

/-- A frame that was sent moves the window over frames that were sent. -/
theorem Inv.deliver (hmax : 1 ≤ maxPending) (h : Inv maxPending s) {seq : ℕ} (hseq : seq ∈ s.assigned)
    (room : Bool) : Inv maxPending (s.deliver maxPending seq room) := by
  have hbelow := h.below
  have hsent : seq ≤ s.assigned.length := by
    rw [h.assigned, mem_range'_1] at hseq
    omega
  have hlt : seq < 2 ^ 32 - 1 := by omega
  obtain ⟨hwindow, n, hreleased, hexpected⟩ :=
    ReliableRxState.receive_spec hmax h.window hlt room ()
  obtain ⟨hout, hin, hack⟩ := ReliableRxState.receive_numbers h.window hlt room ()
  have hlen : (s.released ++ List.range' s.rx.expectedSeq n).length = s.released.length + n := by simp
  have hold := h.sent
  have hsent' : s.released.length + n ≤ s.assigned.length := by
    cases n with
    | zero => exact hold
    | succ n =>
      -- The last number that was released had arrived.
      have hlast : s.rx.expectedSeq + n ∈
          (s.rx.receive maxPending room seq ()).2.released.map Prod.fst := by
        rw [hreleased, mem_range'_1]
        omega
      have hexp := h.expected
      rcases hout _ hlast with heq | hbuffered
      · omega
      · have := h.buffered _ hbuffered
        omega
  unfold HopLink.deliver
  refine ⟨h.sender, h.numbered, h.assigned, h.below, hwindow, ?_, ?_, ?_, ?_, ?_⟩
  · dsimp only
    rw [hreleased, hlen, h.expected]
    nth_rewrite 1 [h.released]
    rw [Nat.add_comm s.released.length 1, List.range'_append_1]
  · dsimp only
    rw [hexpected, hreleased, hlen, h.expected]
    omega
  · dsimp only
    rw [hreleased, hlen]
    exact hsent'
  · intro k hk
    rcases hin k hk with rfl | hk
    · exact hsent
    · exact h.buffered k hk
  · intro p hp
    dsimp only at hp ⊢
    rw [hreleased] at hp ⊢
    rw [hlen]
    rw [hlen] at hp
    rcases mem_append.mp hp with hp | hp
    · have := h.acks p hp
      omega
    obtain ⟨a, ha, rfl⟩ := Option.map_eq_some_iff.mp (Option.mem_toList.mp hp)
    have hcount := hack a ha
    rw [hexpected, h.expected] at hcount
    have hval : a = s.released.length + n := by omega
    subst hval
    refine ⟨?_, le_refl _⟩
    rw [UInt32.toNat_ofNat', Nat.mod_eq_of_lt (by omega)]

theorem Inv.step (hmax : 1 ≤ maxPending) (h : Inv maxPending s) {e : Event} (he : BelowMax s e) :
    Inv maxPending (HopLink.step maxPending s e) := by
  cases e with
  | sender e =>
    cases e with
    | ack mode a => exact h
    | _ => exact h.send he _
  | deliver seq room =>
    change Inv maxPending (if seq ∈ s.assigned then s.deliver maxPending seq room else s)
    split
    · rename_i hseq
      exact h.deliver hmax hseq room
    · exact h
  | ack index =>
    unfold HopLink.step
    dsimp only
    split
    · exact h
    · rename_i a k hack
      have hsend := h.send he (.ack .ordered a)
      change Inv maxPending { s with tx := _, assigned := s.assigned ++ [] } at hsend
      rwa [append_nil] at hsend

variable {k : ℕ}

theorem take_range' {first n : ℕ} (h : k ≤ n) : (List.range' first n).take k = List.range' first k := by
  obtain ⟨m, rfl⟩ := Nat.exists_eq_add_of_le h
  rw [← List.range'_append_1, take_left' length_range']

/-- An acknowledgement that the receiver has sent retires the frames it had released by then. -/
theorem Inv.retires (h : Inv maxPending s) {a : UInt32} (hack : (a, k) ∈ s.acks)
    {st : ReliableTxState} (hst : s.tx.stream = some st)
    (hcomplete : ∀ (q : UInt32) x, st.sent[q]? = some x → x.firstOffer = .complete) :
    (st.handleReliableAck .ordered a).sentOrder =
      st.sentOrder.filter fun q => decide (q.toNat ∉ s.released.take k) := by
  have hwf := h.sender.stream st hst
  have horder := h.numbered.order
  have hbound := h.numbered.bound
  rw [streamOr_of_some hst] at horder hbound
  have hexact : (st.handleReliableAck .ordered a).sentOrder =
      st.sentOrder.filter fun q => decide (a < q) := by
    apply ReliableTxState.ackOrdered_complete horder
    intro q hq
    obtain ⟨x, hx⟩ := mem_iff_exists.mp ((hwf.keys q).mp hq)
    exact ⟨x, hx, hcomplete q x hx⟩
  rw [hexact]
  apply filter_congr
  intro q hq
  obtain ⟨hvalue, hle⟩ := h.acks (a, k) hack
  have hpos := (hbound q hq).1
  apply decide_eq_decide.mpr
  rw [h.released, take_range' hle, mem_range'_1, UInt32.lt_iff_toNat_lt]
  dsimp only at hvalue
  omega

/-- **Agreement below the wrap**: in every run that stays below `u32::MAX` each number the sender
assigns is the one after the last, the receiver expects the number after the last one it released, it
has released an initial part of what was assigned, zero is neither assigned nor expected, and a
cumulative acknowledgement retires exactly the frames released when it was sent, once their offers are
complete. -/
theorem sequence_agreement (maxPending : ℕ) (hmax : 1 ≤ maxPending) (es : List Event) (s : HopLink)
    (hes : Meets (step maxPending) BelowMax start es) (hs : run (step maxPending) start es = s) :
    (∀ i q q', s.assigned[i]? = some q → s.assigned[i + 1]? = some q' → q' = nextNumber q) ∧
      (∀ i q, s.assigned[i]? = some q → s.released.length = i + 1 →
        s.released[i]? = some q ∧ s.rx.expectedSeq = nextNumber q) ∧
      s.released <+: s.assigned ∧ 0 ∉ s.assigned ∧ s.rx.expectedSeq ≠ 0 ∧
      ∀ a k st, (a, k) ∈ s.acks → s.tx.stream = some st →
        (∀ (q : UInt32) (x : ReliableSent), st.sent[q]? = some x → x.firstOffer = .complete) →
        (st.handleReliableAck .ordered a).sentOrder =
          st.sentOrder.filter fun q => decide (q.toNat ∉ s.released.take k) := by
  have h : Inv maxPending s := by
    rw [← hs]
    exact run_invariant (fun _ _ hinv he => hinv.step hmax he) inv_start hes
  have hbelow := h.below
  have hget : ∀ i q, s.assigned[i]? = some q → q = i + 1 ∧ i < s.assigned.length := by
    intro i q hq
    have hi : i < s.assigned.length := (List.getElem?_eq_some_iff.mp hq).1
    rw [h.assigned, List.getElem?_range' hi] at hq
    have := Option.some.inj hq
    omega
  have hnext : ∀ i, i < s.assigned.length → nextNumber (i + 1) = i + 2 := by
    intro i hi
    rw [nextNumber, if_neg (by omega)]
  refine ⟨?_, ?_, ?_, ?_, ?_, ?_⟩
  · intro i q q' hq hq'
    obtain ⟨rfl, hi⟩ := hget i q hq
    obtain ⟨rfl, -⟩ := hget (i + 1) q' hq'
    exact (hnext i hi).symm
  · intro i q hq hlen
    obtain ⟨rfl, hi⟩ := hget i q hq
    refine ⟨?_, ?_⟩
    · rw [h.released, List.getElem?_range' (by omega)]
      congr 1
      omega
    · rw [hnext i hi, h.expected, hlen]
  · have hsent := h.sent
    rw [h.assigned, h.released, prefix_iff_eq_take, length_range', take_range' hsent]
  · rw [h.assigned, mem_range'_1]
    omega
  · rw [h.expected]
    omega
  · intro a k st hack hst hcomplete
    exact h.retires hack hst hcomplete

/-- One frame after the other: sent, delivered, and acknowledged at the end of its offer. -/
def lockstepRound (i : ℕ) : List Event :=
  [.sender .reserve, .sender (.commit i [] 0 true), .deliver (i + 1) true,
    .sender (.complete i .ordered (.ok ()) 0), .ack i]

def lockstep : ℕ → List Event
  | 0 => []
  | n + 1 => lockstep n ++ lockstepRound n

theorem sequence_agreement_round :
    let s := run (step 1) start (lockstep 2)
    s.assigned = [1, 2] ∧ s.released = [1, 2] ∧ s.rx.expectedSeq = 3 ∧ s.released <+: s.assigned ∧
      0 ∉ s.assigned := by
  have hmeets : Meets (step 1) BelowMax start (lockstep 2) := by decide +kernel
  obtain ⟨-, -, hreleased, hzero, -, -⟩ := sequence_agreement 1 (le_refl 1) (lockstep 2) _ hmeets rfl
  exact ⟨by decide +kernel, by decide +kernel, by decide +kernel, hreleased, hzero⟩

/-! ### Progress -/

/-- The number that arrives with an event. -/
def Event.delivered : Event → Option ℕ
  | .deliver seq _ => some seq
  | _ => none

theorem step_grows (maxPending : ℕ) (s : HopLink) (e : Event) :
    s.released.length ≤ (step maxPending s e).released.length ∧
      s.assigned.length ≤ (step maxPending s e).assigned.length := by
  unfold step
  split
  · simp
  · simp
  · split <;> simp [deliver]
  · split <;> simp

/-- The next frame that is missing is released when it arrives. -/
theorem Inv.delivered_next (h : Inv maxPending s) {seq : ℕ} (hseq : seq ∈ s.assigned)
    (hle : seq ≤ s.released.length + 1) (room : Bool) :
    seq ≤ (HopLink.step maxPending s (.deliver seq room)).released.length := by
  have hexpected := h.expected
  simp only [HopLink.step, if_pos hseq, HopLink.deliver, ReliableRxState.receive, length_append]
  by_cases hold : seq < s.rx.expectedSeq
  · omega
  · rw [if_neg hold, if_neg (by omega)]
    simp only [ReliableRxState.Verdict.released, length_map, length_cons]
    omega

theorem Inv.progress (hmax : 1 ≤ maxPending) {es : List Event} (h : Inv maxPending s)
    (hes : Meets (HopLink.step maxPending) BelowMax s es) {k n : ℕ} (hk : k ≤ s.released.length)
    (hsent : k + n ≤ s.assigned.length) (harrive : (List.range' (k + 1) n).Sublist (es.filterMap Event.delivered)) :
    k + n ≤ (run (HopLink.step maxPending) s es).released.length := by
  induction es generalizing s k n with
  | nil =>
    cases n with
    | zero => exact hk
    | succ n => cases harrive
  | cons e es ih =>
    obtain ⟨hreleased, hassigned⟩ := step_grows maxPending s e
    have hskip := @ih _ (h.step hmax hes.1) hes.2 k n (by omega) (by omega)
    cases hseq : e.delivered with
    | none =>
      rw [filterMap_cons_none hseq] at harrive
      exact hskip harrive
    | some seq =>
      rw [filterMap_cons_some hseq] at harrive
      obtain hlater | ⟨rest, heq, hrest⟩ := sublist_cons_iff.mp harrive
      · exact hskip hlater
      cases n with
      | zero => cases heq
      | succ n =>
        cases heq
        cases e with
        | sender e | ack index => cases hseq
        | deliver seq room =>
          cases hseq
          have hmem : k + 1 ∈ s.assigned := by
            rw [h.assigned, mem_range'_1]
            omega
          have hrun := ih (h.step hmax hes.1) hes.2 (h.delivered_next hmem (by omega) room) (by omega) hrest
          rw [run_cons]
          omega

/-- **Progress**: what was assigned before some time is released once it has been delivered again in order,
whatever else is sent, lost, repeated or acknowledged in between. -/
theorem retransmission_releases (maxPending : ℕ) (hmax : 1 ≤ maxPending) (es es' : List Event)
    (hes : Meets (step maxPending) BelowMax start (es ++ es'))
    (harrive : (run (step maxPending) start es).assigned.Sublist (es'.filterMap Event.delivered)) :
    (run (step maxPending) start es).assigned <+: (run (step maxPending) start (es ++ es')).released := by
  have hrun : ∀ {es}, Meets (step maxPending) BelowMax start es → Inv maxPending (run (step maxPending) start es) :=
    run_invariant (fun _ _ hinv he => hinv.step hmax he) inv_start
  obtain ⟨hbefore, hafter⟩ := meets_append.mp hes
  have h := hrun hbefore
  have hprogress := h.progress hmax hafter (Nat.zero_le _) (Nat.zero_add _).le (h.assigned ▸ harrive)
  rw [h.assigned, (hrun hes).released, run_append, prefix_iff_eq_take, length_range', take_range' (by omega)]

/-- Two frames are lost on their first way; the second one then arrives first, and again after the other. -/
theorem retransmission_releases_round : let es := [.sender .reserve, .sender (.commit 0 [] 0 true), .sender .reserve,
      .sender (.commit 1 [] 0 true)]
    (run (step 2) start es).assigned = [1, 2] ∧ (run (step 2) start es).assigned <+:
      (run (step 2) start (es ++ [.deliver 2 true, .deliver 1 true, .deliver 2 true])).released :=
  ⟨by decide +kernel, retransmission_releases 2 (by decide) _ _ (by decide +kernel) (by decide +kernel)⟩

/-! ### The wrap -/

/-- After `n` frames one after the other nothing is in flight; the sender and the window have come to
these numbers. -/
structure Idle (n : ℕ) (next : UInt32) (expected : ℕ) (s : HopLink) : Prop where
  side : s.tx.sideExists = true
  stream : s.tx.streamOr = ⟨next, [], ∅⟩
  attempts : s.tx.attempts.length = n
  offers : s.tx.offers.length = n
  rx : s.rx = ⟨expected, ∅⟩
  acks : s.acks.length = n
  assigned : s.assigned = List.range' 1 n
  released : s.released = List.range' 1 n

theorem idle_start : Idle 0 1 1 start := ⟨rfl, rfl, rfl, rfl, rfl, rfl, rfl, rfl⟩

/-- The sender's successor of a number. -/
def senderNext (seq : UInt32) : UInt32 := if seq + 1 = 0 then 1 else seq + 1

theorem senderNext_ne_zero (seq : UInt32) : senderNext seq ≠ 0 := by
  unfold senderNext
  split
  · decide
  · assumption

theorem reserve_idle (tx : HopSender) (seq : UInt32) (hseq : seq ≠ 0) (h : tx.streamOr = ⟨seq, [], ∅⟩) :
    HopSender.step 1 tx .reserve = { tx with attempts := tx.attempts ++ [some seq] } := by
  have hread : tx.stream.elim (.ok 1) (ReliableTxState.reserve 1) = .ok seq := by
    unfold streamOr at h
    cases hs : tx.stream with
    | none =>
      rw [hs] at h
      exact congrArg Except.ok (congrArg ReliableTxState.nextSeq h)
    | some st =>
      rw [hs] at h
      change st = _ at h
      rw [h, Option.elim_some, ReliableTxState.reserve, if_neg hseq, if_neg (by simp)]
  change reserve 1 tx = _
  unfold reserve
  rw [hread]

/-- The frame of a round, with its offer under way. -/
def roundSent (seq : UInt32) (n : ℕ) : ExtTreeMap UInt32 ReliableSent :=
  ExtTreeMap.empty.insert seq ⟨⟨n, []⟩, 0, .active, 0, true, false⟩

/-- The offer succeeds, and the only frame of the stream is acknowledged. -/
theorem roundSent_acked (seq : UInt32) (n : ℕ) : ∃ st, ReliableTxState.completeHopOffer
      ⟨senderNext seq, [seq], roundSent seq n⟩ .ordered seq ⟨n, []⟩ (.ok ()) false 0 = .ok st ∧
    st.handleReliableAck .ordered seq = ⟨senderNext seq, [], ∅⟩ := by
  refine ⟨⟨senderNext seq, [seq], (roundSent seq n).insert seq ⟨⟨n, []⟩, 0, .complete, 0, false, false⟩⟩, ?_, ?_⟩
  · simp [ReliableTxState.completeHopOffer, senderNext_ne_zero, SharedBytes.sameOwner, ReliableTxState.modify, roundSent]
  · simp [ReliableTxState.handleReliableAck, ReliableTxState.ackOrdered, FirstHopOffer.isPending, erase_insert,
      roundSent, erase_of_none]

/-- One round: both sides have moved on by their own successor. -/
theorem run_round {n : ℕ} (h : Idle n (UInt32.ofNat (n + 1)) (n + 1) s) (hn : n + 1 < 2 ^ 32) :
    Idle (n + 1) (senderNext (UInt32.ofNat (n + 1))) (ReliableRxState.wrappingSucc (n + 1))
      (run (step 1) s (lockstepRound n)) := by
  have hval : (UInt32.ofNat (n + 1)).toNat = n + 1 := by
    rw [UInt32.toNat_ofNat', Nat.mod_eq_of_lt hn]
  have hseq : UInt32.ofNat (n + 1) ≠ 0 := by
    intro hzero
    rw [hzero] at hval
    cases hval
  have hrange : List.range' 1 n ++ [n + 1] = List.range' 1 (n + 1) := by
    rw [List.range'_concat, Nat.one_mul, Nat.add_comm 1 n]
  have hmem : n + 1 ∈ List.range' 1 (n + 1) := by simp [mem_range'_1]
  have hget : ∀ {α : Type} {l} (a : α), l.length = n → (l ++ [a])[n]? = some a := by
    rintro α l a rfl
    exact getElem?_concat_length
  have hset : ∀ {α : Type} {l} (a b : α), l.length = n → (l ++ [a]).set n b = l ++ [b] := by
    rintro α l a b rfl
    simp
  generalize hnum : UInt32.ofNat (n + 1) = seq at *
  obtain ⟨⟨side, stream, attempts, offers⟩, rx, assigned, released, acks⟩ := s
  obtain ⟨rfl, hstream, hattempts, hoffers, rfl, hacks, rfl, rfl⟩ := h
  dsimp only at hattempts hoffers hacks
  have hreserve : reserve 1 ⟨true, stream, attempts, offers⟩ = _ := reserve_idle _ seq hseq hstream
  have hcommit : ReliableTxState.commit 1 ⟨seq, [], ∅⟩ seq ⟨n, []⟩ 0 = .ok ⟨senderNext seq, [seq], roundSent seq n⟩ := by
    simp [ReliableTxState.commit, senderNext, roundSent]
  obtain ⟨st, hcomplete, hack⟩ := roundSent_acked seq n
  change stream.getD .initial = _ at hstream
  have hrun : run (step 1) ⟨⟨true, stream, attempts, offers⟩, ⟨n + 1, ∅⟩, range' 1 n, range' 1 n, acks⟩
      (lockstepRound n) =
        ⟨⟨true, some ⟨senderNext seq, [], ∅⟩, attempts ++ [none], offers ++ [⟨seq, ⟨n, []⟩, false, true, true⟩]⟩,
          ⟨ReliableRxState.wrappingSucc (n + 1), ∅⟩, range' 1 (n + 1), range' 1 (n + 1), acks ++ [(seq, n + 1)]⟩ := by
    simp [lockstepRound, step, HopSender.step, hreserve, hget _ hattempts, hset _ _ hattempts, commit, assigns, streamOr,
      hstream, hcommit, hval, hrange, hmem, deliver, ReliableRxState.receive, ReliableRxState.drain_empty,
      ReliableRxState.Verdict.released, ReliableRxState.Verdict.ack, hnum, complete, onStream, setOffer, hget _ hoffers,
      hset _ _ hoffers, hcomplete, hget _ hacks, hack]
  rw [hrun]
  exact ⟨rfl, rfl, by simp [hattempts], by simp [hoffers], rfl, by simp [hacks], rfl, rfl⟩

/-- Below the wrap the next round starts from an idle link as well. -/
theorem idle_lockstep (n : ℕ) (hn : n < 2 ^ 32 - 1) :
    Idle n (UInt32.ofNat (n + 1)) (n + 1) (run (step 1) start (lockstep n)) := by
  induction n with
  | zero => exact idle_start
  | succ n ih =>
    rw [lockstep, run_append]
    have hround := run_round (ih (by omega)) (by omega)
    have hnext : senderNext (UInt32.ofNat (n + 1)) = UInt32.ofNat (n + 1 + 1) := by
      have hsucc : UInt32.ofNat (n + 1) + 1 = UInt32.ofNat (n + 1 + 1) :=
        (UInt32.ofNat_add (n + 1) 1).symm
      rw [senderNext, hsucc, if_neg]
      intro hzero
      have := congrArg UInt32.toNat hzero
      rw [UInt32.toNat_ofNat', Nat.mod_eq_of_lt (by omega)] at this
      cases this
    rwa [hnext, ReliableRxState.wrappingSucc_of_lt (by omega)] at hround

/-- After `2 ^ 32 - 1` frames, each delivered in order and acknowledged, the sender continues with 1
and the receiver expects 0. -/
theorem wrap_disagrees :
    let s := run (step 1) start (lockstep (2 ^ 32 - 2) ++ lockstepRound (2 ^ 32 - 2))
    s.assigned.getLast? = some (2 ^ 32 - 1) ∧ s.released = s.assigned ∧
      s.tx.streamOr.nextSeq = 1 ∧ s.rx.expectedSeq = 0 := by
  rw [run_append]
  have h := run_round (idle_lockstep (2 ^ 32 - 2) (by decide)) (by decide)
  refine ⟨?_, ?_, ?_, ?_⟩
  · rw [h.assigned, List.range'_concat, List.getLast?_append_of_ne_nil _ (by simp)]
    rfl
  · rw [h.assigned, h.released]
  · rw [h.stream]
    decide
  · rw [h.rx]
    decide

end HopLink

end SedsNet
