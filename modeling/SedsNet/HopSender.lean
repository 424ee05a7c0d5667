import SedsNet.OrderedMap
import SedsNet.Schema
import SedsNet.Runs

/-! # The hop sender

The history of reliable frames that a router keeps for one side and one data type until the next hop
has acknowledged them (`ReliableTxState` in `router.rs`): sending, acknowledgements, replay requests,
replays, timeouts, and the completion of offers.

A send reads the next number in one critical section and commits the frame in another one, and the
callback of the side runs outside of both.  So a run is a list of critical sections in any order;
numbers that were read and offers that are under way are part of the state. -/

namespace SedsNet

open OrderedMap Runs List
open Std (ExtTreeMap)

/-! ### Records -/

/-- How far the first complete offer of a frame has come. -/
inductive FirstHopOffer where
  | complete | pending | active | ackedActive
deriving DecidableEq, Repr

namespace FirstHopOffer

def isPending (o : FirstHopOffer) : Bool := o != complete

def isActive : FirstHopOffer → Bool
  | active | ackedActive => true
  | _ => false

end FirstHopOffer

/-- Shared bytes: the allocation, and what is in it. -/
structure SharedBytes where
  owner : ℕ
  bytes : Bytes
deriving DecidableEq

/-- `Arc::ptr_eq`. -/
def SharedBytes.sameOwner (a b : SharedBytes) : Bool := a.owner == b.owner

structure ReliableSent where
  bytes : SharedBytes
  /-- The origin of a frame whose first complete offer is pending, else the time of the last one. -/
  offerStamp : UInt64
  firstOffer : FirstHopOffer
  retries : UInt32
  queued : Bool
  partialAcked : Bool
deriving DecidableEq

structure ReliableTxState where
  /-- Zero once an ordered stream has failed. -/
  nextSeq : UInt32
  sentOrder : List UInt32
  sent : ExtTreeMap UInt32 ReliableSent

/-- Refusals after which the same frame is offered again. -/
def isTransientTxError : TelemetryError → Bool
  | .io msg =>
    msg == "side tx busy" || msg == "memory pressure" || msg == "reliable window full" ||
      msg == "shared priority queue saturated"
  | _ => false

/-- The runtime limits that the timeouts read. -/
structure RetryLimits where
  retransmitMs : UInt64
  maxRetries : UInt32

namespace ReliableTxState

def initial : ReliableTxState := ⟨1, [], ∅⟩

/-- The stream of an ordered type after a failure. -/
def failed : ReliableTxState := ⟨0, [], ∅⟩

section

variable (st : ReliableTxState) (seq : UInt32)

/-- The history without a frame. -/
def remove : ReliableTxState :=
  { st with sentOrder := st.sentOrder.filter (· != seq), sent := st.sent.erase seq }

/-- The history with another record for a retained frame. -/
def modify (f : ReliableSent → ReliableSent) : ReliableTxState :=
  match st.sent[seq]? with
  | none => st
  | some sent => { st with sent := st.sent.insert seq (f sent) }

/-! ### Sending -/

/-- The number for the next frame. -/
def reserve (maxPending : ℕ) (st : ReliableTxState) : TelemetryResult UInt32 :=
  if st.nextSeq = 0 then .error (.handlerError "ordered hop stream failed")
  else if maxPending ≤ st.sent.size then .error (.io "reliable window full")
  else .ok st.nextSeq

/-- The frame enters the history under the number that was read. -/
def commit (maxPending : ℕ) (st : ReliableTxState) (seq : UInt32) (bytes : SharedBytes)
    (originKey : UInt64) : TelemetryResult ReliableTxState :=
  if st.nextSeq ≠ seq ∨ seq ∈ st.sent then .error (.io "reliable owner changed")
  else if maxPending ≤ st.sent.size then .error (.io "reliable window full")
  else
    .ok {
      nextSeq := if seq + 1 = 0 then 1 else seq + 1
      sentOrder := st.sentOrder ++ [seq]
      sent := st.sent.insert seq {
        bytes
        offerStamp := originKey
        firstOffer := .active
        retries := 0
        queued := true
        partialAcked := false } }

/-- The end of an offer, for the exact frame it was made for. -/
def completeHopOffer (mode : ReliableMode) (seq : UInt32) (bytes : SharedBytes)
    (result : TelemetryResult Unit) (replay : Bool) (now : UInt64) : TelemetryResult ReliableTxState :=
  if mode = .ordered ∧ st.nextSeq = 0 then .error (.handlerError "ordered hop stream failed")
  else
    match st.sent[seq]? with
    | none => .ok st
    | some sent =>
      if !sent.bytes.sameOwner bytes then .ok st
      else
        match result with
        | .ok () =>
          if sent.firstOffer = .ackedActive then .ok (st.remove seq)
          else
            .ok (st.modify seq fun sent =>
              { sent with
                retries :=
                  if replay && !sent.firstOffer.isPending then
                    if sent.retries + 1 = 0 then sent.retries else sent.retries + 1
                  else sent.retries
                firstOffer := .complete
                offerStamp := now
                queued := false })
        | .error error =>
          if isTransientTxError error then
            .ok (st.modify seq fun sent =>
              { sent with
                firstOffer := if sent.firstOffer.isPending then .pending else sent.firstOffer
                queued := false })
          else if mode = .ordered then .ok failed
          else .ok (st.remove seq)

/-! ### Acknowledgements -/

/-- The loop over the front of an ordered stream; the list is what remains of the order. -/
def ackOrdered (ack : UInt32) (nextSeq : UInt32) : List UInt32 → ExtTreeMap UInt32 ReliableSent → ReliableTxState
  | [], sent => ⟨nextSeq, [], sent⟩
  | seq :: order, sent =>
    if ack < seq then ⟨nextSeq, seq :: order, sent⟩
    else
      match sent[seq]? with
      | none => ackOrdered ack nextSeq order sent
      | some x =>
        if x.firstOffer.isPending then
          let x' := if x.firstOffer.isActive then { x with firstOffer := .ackedActive } else x
          ⟨nextSeq, seq :: order, sent.insert seq x'⟩
        else ackOrdered ack nextSeq order (sent.erase seq)

def handleReliableAck (mode : ReliableMode) (ack : UInt32) : ReliableTxState :=
  if mode = .unordered then
    match st.sent[ack]? with
    | none => st
    | some sent =>
      if sent.firstOffer.isPending then
        if sent.firstOffer.isActive then
          st.modify ack fun sent => { sent with firstOffer := .ackedActive }
        else st
      else st.remove ack
  else ackOrdered ack st.nextSeq st.sentOrder st.sent

def handleReliablePartialAck : ReliableTxState :=
  st.modify seq fun sent => if sent.firstOffer.isPending then sent else { sent with partialAcked := true }

/-! ### Replays -/

/-- The history part of `queue_reliable_retransmit`, with the bytes to be queued. -/
def queueReliableRetransmit : TelemetryResult (ReliableTxState × Option SharedBytes) :=
  if st.nextSeq = 0 then .error (.handlerError "ordered hop stream failed")
  else
    match st.sent[seq]? with
    | none => .ok (st, none)
    | some sent =>
      if sent.queued then .ok (st, none)
      else .ok (st.modify seq fun sent => { sent with partialAcked := false }, some sent.bytes)

/-- `set_replay_queued`. -/
def setReplayQueued (queued : Bool) : ReliableTxState :=
  st.modify seq fun sent => { sent with queued }

/-- The retained frame is still the one that was queued for replay. -/
def isOwner (bytes : SharedBytes) : Bool :=
  st.sent[seq]?.any fun sent => sent.bytes.sameOwner bytes

/-! ### Timeouts -/

/-- What the loop over the order has done: the stream, the numbers to be replayed, and whether the
stream has failed. -/
def timeoutsFrom (lim : RetryLimits) (mode : ReliableMode) (now : UInt64) :
    List UInt32 → ReliableTxState → List UInt32 → ReliableTxState × List UInt32 × Bool
  | [], st, requeue => (st, requeue, false)
  | seq :: order, st, requeue =>
    match st.sent[seq]? with
    | none => timeoutsFrom lim mode now order st requeue
    | some sent =>
      if sent.queued || (!sent.firstOffer.isPending && decide (now - sent.offerStamp < lim.retransmitMs)) then
        timeoutsFrom lim mode now order st requeue
      else if sent.partialAcked then
        timeoutsFrom lim mode now order
          (st.modify seq fun sent => { sent with partialAcked := false, offerStamp := now }) requeue
      else if lim.maxRetries ≤ sent.retries then
        if mode = .ordered then (failed, [], true)
        else timeoutsFrom lim mode now order (st.remove seq) requeue
      else timeoutsFrom lim mode now order st (requeue ++ [seq])

/-- The part of `process_reliable_timeouts` for one stream. -/
def processReliableTimeouts (lim : RetryLimits) (mode : ReliableMode)
    (now : UInt64) : ReliableTxState × List UInt32 × Bool :=
  timeoutsFrom lim mode now st.sentOrder st []

end

end ReliableTxState

/-! ### Runs -/

/-- An offer of a frame to the callback of the side. -/
structure HopOffer where
  seq : UInt32
  bytes : SharedBytes
  replay : Bool
  /-- The side was admitted, so that the callback may run. -/
  active : Bool
  done : Bool
deriving DecidableEq

/-- The sender with the numbers that sends have read and not used yet, and the offers so far. -/
structure HopSender where
  sideExists : Bool
  stream : Option ReliableTxState
  attempts : List (Option UInt32)
  offers : List HopOffer

namespace HopSender

open ReliableTxState

/-- One critical section. -/
inductive Event where
  /-- A send has found no pending copy of its packet, and reads the next number. -/
  | reserve
  /-- The attempt commits its frame; `granted` answers for the memory and for the owner of the side. -/
  | commit (attempt : ℕ) (bytes : Bytes) (originKey : UInt64) (granted : Bool)
  /-- The replay of a queued frame begins. -/
  | beginReplay (seq : UInt32) (bytes : SharedBytes)
  /-- The side was admitted for the replay. -/
  | activateReplay (offer : ℕ)
  /-- The callback has returned, or the side was not admitted. -/
  | complete (offer : ℕ) (mode : ReliableMode) (result : TelemetryResult Unit) (now : UInt64)
  /-- Also `retire_bound_control_hop_type`, which acknowledges the frame of a packet as an unordered one. -/
  | ack (mode : ReliableMode) (ack : UInt32)
  | partialAck (seq : UInt32)
  /-- The next hop asks for a frame, or the timeouts do. -/
  | requestReplay (seq : UInt32)
  /-- The replay of a frame was queued, or was removed from the queue. -/
  | setReplayQueued (seq : UInt32) (queued : Bool)
  | timeouts (lim : RetryLimits) (mode : ReliableMode) (now : UInt64)
  | removeSide

def initial : HopSender := ⟨true, none, [], []⟩

section

variable (maxPending : ℕ) (s : HopSender)

/-- `reliable_tx_state_mut`. -/
def streamOr : ReliableTxState := s.stream.getD .initial

/-- A change of an existing stream. -/
def onStream (f : ReliableTxState → ReliableTxState) : HopSender :=
  { s with stream := s.stream.map f }

def reserve : HopSender :=
  match s.stream.elim (.ok 1) (ReliableTxState.reserve maxPending) with
  | .ok seq => { s with attempts := s.attempts ++ [some seq] }
  | .error _ => s

/-- The bytes were allocated for this attempt. -/
def commit (attempt : ℕ) (bytes : Bytes) (originKey : UInt64) (granted : Bool) : HopSender :=
  match s.attempts[attempt]? with
  | some (some seq) =>
    let s' := { s with attempts := s.attempts.set attempt none }
    if !(s.sideExists && granted) then s'
    else
      match s.streamOr.commit maxPending seq ⟨attempt, bytes⟩ originKey with
      | .ok st => { s' with stream := some st, offers := s.offers ++ [⟨seq, ⟨attempt, bytes⟩, false, true, false⟩] }
      | .error _ => { s' with stream := some s.streamOr }
  | _ => s

def beginReplay (seq : UInt32) (bytes : SharedBytes) : HopSender :=
  match s.stream with
  | none => s
  | some st =>
    if st.nextSeq = 0 then s
    else if !st.isOwner seq bytes then s
    else
      { s with
        stream := some (st.setReplayQueued seq true)
        offers := s.offers ++ [⟨seq, bytes, true, false, false⟩] }

def setOffer (offer : ℕ) (o : HopOffer) : HopSender :=
  { s with offers := s.offers.set offer o }

def activateReplay (offer : ℕ) : HopSender :=
  match s.offers[offer]? with
  | none => s
  | some o =>
    if o.done || o.active then s
    else
      match s.stream with
      | none => s.setOffer offer { o with done := true }
      | some st =>
        if !st.isOwner o.seq o.bytes then s.setOffer offer { o with done := true }
        else
          { s.setOffer offer { o with active := true } with
            stream := some (st.modify o.seq fun sent =>
              if sent.firstOffer.isPending then { sent with firstOffer := .active } else sent) }

/-- A replay whose side was not admitted cannot succeed. -/
def complete (offer : ℕ) (mode : ReliableMode) (result : TelemetryResult Unit) (now : UInt64) : HopSender :=
  match s.offers[offer]? with
  | none => s
  | some o =>
    if o.done || (!o.active && (errorOf result).isNone) then s
    else
      (s.setOffer offer { o with done := true }).onStream fun st =>
        match st.completeHopOffer mode o.seq o.bytes result o.replay now with
        | .ok st' => st'
        | .error _ => st

def requestReplay (seq : UInt32) : HopSender :=
  match s.streamOr.queueReliableRetransmit seq with
  | .ok (st, _) => { s with stream := some st }
  | .error _ => { s with stream := some s.streamOr }

def step : Event → HopSender
  | .reserve => s.reserve maxPending
  | .commit attempt bytes originKey granted => s.commit maxPending attempt bytes originKey granted
  | .beginReplay seq bytes => s.beginReplay seq bytes
  | .activateReplay offer => s.activateReplay offer
  | .complete offer mode result now => s.complete offer mode result now
  | .ack mode ack => s.onStream fun st => st.handleReliableAck mode ack
  | .partialAck seq => s.onStream fun st => st.handleReliablePartialAck seq
  | .requestReplay seq => s.requestReplay seq
  | .setReplayQueued seq queued => s.onStream fun st => st.setReplayQueued seq queued
  | .timeouts lim mode now => s.onStream fun st => (st.processReliableTimeouts lim mode now).1
  | .removeSide => { s with sideExists := false, stream := none }

end

end HopSender

/-! ### The shape of a history -/

namespace ReliableTxState

theorem remove_lookup (st : ReliableTxState) (seq k : UInt32) :
    (st.remove seq).sent[k]? = if seq = k then none else st.sent[k]? := getElem?_erase_eq _ _ _

theorem modify_eq (st : ReliableTxState) (seq : UInt32) (f : ReliableSent → ReliableSent) :
    st.modify seq f = { st with sent := OrderedMap.change st.sent seq f } := by
  unfold modify OrderedMap.change
  cases st.sent[seq]? <;> rfl

theorem modify_lookup (st : ReliableTxState) (seq k : UInt32) (f : ReliableSent → ReliableSent) :
    (st.modify seq f).sent[k]? = if seq = k then st.sent[k]?.map f else st.sent[k]? := by
  rw [modify_eq, getElem?_change]

section

variable {st : ReliableTxState} {k : UInt32} {x : ReliableSent} {P : Option ReliableSent → Prop}

theorem remove_some (hx : st.sent[k]? = some x) (seq : UInt32) (hkept : P (some x)) (hgone : seq = k → P none) :
    P (st.remove seq).sent[k]? := by
  rw [remove_lookup]
  split
  · rename_i heq
    exact hgone heq
  · rw [hx]
    exact hkept

theorem modify_some (hx : st.sent[k]? = some x) (seq : UInt32) (f : ReliableSent → ReliableSent)
    (hkept : P (some x)) (hchanged : seq = k → P (some (f x))) : P (st.modify seq f).sent[k]? := by
  rw [modify_lookup, hx]
  split
  · rename_i heq
    exact hchanged heq
  · exact hkept

end

/-- The order lists the retained frames, each once; there are not too many, and none in a failed
stream. -/
structure WF (maxPending : ℕ) (st : ReliableTxState) : Prop where
  nodup : st.sentOrder.Nodup
  keys : ∀ seq, seq ∈ st.sentOrder ↔ seq ∈ st.sent
  bound : st.sentOrder.length ≤ maxPending
  nonzero : ∀ seq ∈ st.sentOrder, seq ≠ 0
  failed : st.nextSeq = 0 → st.sentOrder = []

variable {maxPending : ℕ} {st : ReliableTxState}

theorem WF.size_eq (h : WF maxPending st) : st.sent.size = st.sentOrder.length := by
  rw [← ExtTreeMap.length_keys]
  refine List.Perm.length_eq ((perm_ext_iff_of_nodup ?_ h.nodup).mpr ?_)
  · exact ExtTreeMap.nodup_keys
  · intro seq
    rw [ExtTreeMap.mem_keys]
    exact (h.keys seq).symm

theorem wf_initial : WF maxPending initial :=
  ⟨nodup_nil, by simp [initial], Nat.zero_le _, by simp [initial], fun _ => rfl⟩

theorem wf_failed : WF maxPending failed :=
  ⟨nodup_nil, by simp [failed], Nat.zero_le _, by simp [failed], fun _ => rfl⟩

theorem WF.remove (h : WF maxPending st) (seq : UInt32) : WF maxPending (st.remove seq) := by
  refine ⟨h.nodup.filter _, ?_, ?_, ?_, ?_⟩
  · intro k
    rw [mem_iff_exists, remove_lookup]
    change k ∈ st.sentOrder.filter (· != seq) ↔ _
    rw [mem_filter, h.keys, mem_iff_exists]
    by_cases hk : seq = k
    · simp [hk]
    · simp [hk, Ne.symm hk]
  · exact (length_filter_le _ _).trans h.bound
  · intro k hk
    exact h.nonzero k (mem_of_mem_filter hk)
  · intro hzero
    change st.sentOrder.filter (· != seq) = []
    rw [h.failed hzero]
    rfl

theorem WF.modify (h : WF maxPending st) (seq : UInt32) (f : ReliableSent → ReliableSent) :
    WF maxPending (st.modify seq f) := by
  rw [modify_eq]
  refine ⟨h.nodup, ?_, h.bound, h.nonzero, h.failed⟩
  intro k
  rw [h.keys, mem_iff_exists, mem_iff_exists, getElem?_change]
  split
  · cases st.sent[k]? <;> simp
  · rfl

variable {seq : UInt32} {bytes : SharedBytes} {st' : ReliableTxState}

/-- A number that was read is not zero, so the next one is not either. -/
theorem WF.commit (h : WF maxPending st) (hseq : seq ≠ 0)
    {originKey : UInt64} (hcommit : st.commit maxPending seq bytes originKey = .ok st') : WF maxPending st' := by
  unfold ReliableTxState.commit at hcommit
  split at hcommit
  · cases hcommit
  rename_i hfree
  split at hcommit
  · cases hcommit
  cases hcommit
  have hnew : seq ∉ st.sentOrder := fun hmem => hfree (.inr ((h.keys seq).mp hmem))
  have hsize := h.size_eq
  refine ⟨?_, ?_, ?_, ?_, ?_⟩
  · exact nodup_append.mpr ⟨h.nodup, nodup_singleton _, by
      intro k hk k' hk' heq
      rw [mem_singleton.mp hk'] at heq
      exact hnew (heq ▸ hk)⟩
  · intro k
    rw [mem_append, mem_singleton, h.keys, ExtTreeMap.mem_insert,
      Std.LawfulEqOrd.compare_eq_iff_eq, or_comm, eq_comm]
  · rw [length_append, length_singleton]
    omega
  · intro k hk
    obtain hk | hk := mem_append.mp hk
    · exact h.nonzero k hk
    · rw [mem_singleton.mp hk]
      exact hseq
  · intro hzero
    split at hzero
    · cases hzero
    · contradiction

variable {mode : ReliableMode} {result : TelemetryResult Unit} {replay : Bool} {now : UInt64}

variable {nextSeq : UInt32} {order : List UInt32} {sent : ExtTreeMap UInt32 ReliableSent}

theorem WF.tail (h : WF maxPending ⟨nextSeq, seq :: order, sent⟩) : WF maxPending ⟨nextSeq, order, sent.erase seq⟩ := by
  have hremove := h.remove seq
  have hnotMem : seq ∉ order := (nodup_cons.mp h.nodup).1
  have horder : (seq :: order).filter (· != seq) = order := by
    rw [filter_cons_of_neg (by simp), filter_eq_self]
    intro k hk
    have : k ≠ seq := fun heq => hnotMem (heq ▸ hk)
    simpa using this
  unfold ReliableTxState.remove at hremove
  rwa [horder] at hremove

/-! ### Edits -/

/-- What happens to a stream while no frame is taken in: records change in place, frames leave, and
the stream fails. -/
inductive Edits : ReliableTxState → ReliableTxState → Prop
  | refl (st : ReliableTxState) : Edits st st
  | modify (st : ReliableTxState) (seq : UInt32) (f : ReliableSent → ReliableSent) : Edits st (st.modify seq f)
  | remove (st : ReliableTxState) (seq : UInt32) : Edits st (st.remove seq)
  | pop (nextSeq seq : UInt32) (order : List UInt32) (sent : ExtTreeMap UInt32 ReliableSent) :
      Edits ⟨nextSeq, seq :: order, sent⟩ ⟨nextSeq, order, sent.erase seq⟩
  | failed (st : ReliableTxState) : Edits st failed
  | trans {st st' st'' : ReliableTxState} (h : Edits st st') (h' : Edits st' st'') : Edits st st''

theorem Edits.wf (h : Edits st st') (hwf : WF maxPending st) : WF maxPending st' := by
  induction h with
  | refl => exact hwf
  | modify st seq f => exact hwf.modify seq f
  | remove st seq => exact hwf.remove seq
  | pop => exact hwf.tail
  | failed => exact wf_failed
  | trans _ _ ih ih' => exact ih' (ih hwf)

theorem Edits.nextSeq_eq (h : Edits st st') : st'.nextSeq = st.nextSeq ∨ st'.nextSeq = 0 := by
  induction h with
  | refl | remove | pop => exact .inl rfl
  | modify st seq f => exact .inl (by rw [modify_eq])
  | failed => exact .inr rfl
  | trans _ _ ih ih' =>
    obtain heq | hzero := ih'
    · rw [heq]
      exact ih
    · exact .inr hzero

theorem failed_lookup (k : UInt32) : failed.sent[k]? = none := by
  simp [failed]

theorem Edits.fresh (h : Edits st st') {k : UInt32} (hk : st.sent[k]? = none) : st'.sent[k]? = none := by
  induction h with
  | refl => exact hk
  | modify st seq f => rw [modify_lookup, hk, Option.map_none, ite_self]
  | remove st seq => rw [remove_lookup, hk, ite_self]
  | pop nextSeq seq order sent =>
    rw [getElem?_erase_eq]
    split
    · rfl
    · exact hk
  | failed => exact failed_lookup k
  | trans _ _ ih ih' => exact ih' (ih hk)

theorem Edits.sublist (h : Edits st st') : st'.sentOrder.Sublist st.sentOrder := by
  induction h with
  | refl => exact List.Sublist.refl _
  | modify st seq f => rw [modify_eq]
  | remove => exact filter_sublist
  | pop nextSeq seq order sent => exact sublist_cons_self seq order
  | failed => exact nil_sublist _
  | trans _ _ ih ih' => exact ih'.trans ih

theorem ackOrdered_edits (ack nextSeq : UInt32) (order : List UInt32) (sent : ExtTreeMap UInt32 ReliableSent) :
    Edits ⟨nextSeq, order, sent⟩ (ackOrdered ack nextSeq order sent) := by
  induction order generalizing sent with
  | nil => exact .refl _
  | cons seq order ih =>
    unfold ackOrdered
    split
    · exact .refl _
    split
    · rename_i hnone
      have hpop := Edits.pop nextSeq seq order sent
      rw [erase_of_none hnone] at hpop
      exact hpop.trans (ih sent)
    · rename_i x hx
      split
      · have hmodify := Edits.modify ⟨nextSeq, seq :: order, sent⟩ seq fun _ =>
          if x.firstOffer.isActive then { x with firstOffer := .ackedActive } else x
        unfold ReliableTxState.modify at hmodify
        rwa [hx] at hmodify
      · exact (Edits.pop nextSeq seq order sent).trans (ih _)

theorem handleReliableAck_edits (st : ReliableTxState) (mode : ReliableMode) (ack : UInt32) :
    Edits st (st.handleReliableAck mode ack) := by
  unfold handleReliableAck
  split
  · split
    · exact .refl st
    · split
      · split
        · exact .modify st ack _
        · exact .refl st
      · exact .remove st ack
  · exact ackOrdered_edits ack st.nextSeq st.sentOrder st.sent

theorem timeoutsFrom_edits (st : ReliableTxState) (lim : RetryLimits) (mode : ReliableMode)
    (now : UInt64) (order requeue : List UInt32) : Edits st (timeoutsFrom lim mode now order st requeue).1 := by
  induction order generalizing st requeue with
  | nil => exact .refl st
  | cons seq order ih =>
    unfold timeoutsFrom
    split
    · exact ih st requeue
    split
    · exact ih st requeue
    split
    · exact (Edits.modify st seq _).trans (ih _ requeue)
    · split
      · split
        · exact .failed st
        · exact (Edits.remove st seq).trans (ih _ requeue)
      · exact ih st _

theorem completeHopOffer_edits (h : st.completeHopOffer mode seq bytes result replay now = .ok st') : Edits st st' := by
  unfold completeHopOffer at h
  split at h
  · cases h
  split at h
  · cases h
    exact .refl st
  split at h
  · cases h
    exact .refl st
  split at h
  · split at h
    · cases h
      exact .remove st seq
    · cases h
      exact .modify st seq _
  · split at h
    · cases h
      exact .modify st seq _
    · split at h
      · cases h
        exact .failed st
      · cases h
        exact .remove st seq

theorem queueReliableRetransmit_cases {queued : Option SharedBytes}
    (h : st.queueReliableRetransmit seq = .ok (st', queued)) :
    st' = st ∨ st' = st.modify seq fun sent => { sent with partialAcked := false } := by
  unfold queueReliableRetransmit at h
  split at h
  · cases h
  split at h
  · cases h
    exact .inl rfl
  · split at h
    · cases h
      exact .inl rfl
    · cases h
      exact .inr rfl

/-! ### What happens to one frame -/

/-- The acknowledgement is for this frame, or for a later one of an ordered stream. -/
def Covers (mode : ReliableMode) (ack seq : UInt32) : Prop :=
  if mode = .unordered then seq = ack else seq ≤ ack

/-- The frame is due and has no retries left. -/
structure Exhausted (lim : RetryLimits) (now : UInt64) (x : ReliableSent) : Prop where
  queued : x.queued = false
  due : x.firstOffer.isPending = true ∨ ¬ now - x.offerStamp < lim.retransmitMs
  partialAcked : x.partialAcked = false
  retries : lim.maxRetries ≤ x.retries

/-- The record of a frame after an acknowledgement. -/
inductive AckFate (mode : ReliableMode) (ack seq : UInt32) (x : ReliableSent) : Option ReliableSent → Prop
  | kept : AckFate mode ack seq x (some x)
  | acknowledged (hcovers : Covers mode ack seq) (hx : x.firstOffer = .complete) : AckFate mode ack seq x none
  | noted (hcovers : Covers mode ack seq) (hx : x.firstOffer.isActive = true) :
      AckFate mode ack seq x (some { x with firstOffer := .ackedActive })

variable {k ack : UInt32} {x : ReliableSent}

theorem ackOrdered_fate (hmode : mode ≠ .unordered)
    (hx : sent[k]? = some x) : AckFate mode ack k x ((ackOrdered ack nextSeq order sent).sent[k]?) := by
  induction order generalizing sent with
  | nil =>
    change AckFate mode ack k x sent[k]?
    rw [hx]
    exact .kept
  | cons seq order ih =>
    unfold ackOrdered
    split
    · rw [hx]
      exact .kept
    rename_i hle
    split
    · exact ih hx
    rename_i x' hx'
    have hcovers : Covers mode ack seq := by
      rw [Covers, if_neg hmode]
      exact UInt32.not_lt.mp hle
    split
    · rw [getElem?_insert_eq]
      split
      · rename_i heq
        subst heq
        cases hx'.symm.trans hx
        split
        · rename_i hactive
          exact .noted hcovers hactive
        · exact .kept
      · rw [hx]
        exact .kept
    · rename_i hpending
      by_cases heq : seq = k
      · subst heq
        cases hx'.symm.trans hx
        -- The frame has left, and the rest of the loop does not bring it back.
        have hgone : (ackOrdered ack nextSeq order (sent.erase seq)).sent[seq]? = none := by
          refine (ackOrdered_edits ack nextSeq order (sent.erase seq)).fresh ?_
          rw [getElem?_erase_eq, if_pos rfl]
        rw [hgone]
        refine .acknowledged hcovers ?_
        simpa [FirstHopOffer.isPending] using hpending
      · refine ih ?_
        rw [getElem?_erase_eq, if_neg heq]
        exact hx

theorem handleReliableAck_fate
    (hx : st.sent[k]? = some x) : AckFate mode ack k x ((st.handleReliableAck mode ack).sent[k]?) := by
  unfold handleReliableAck
  split
  · rename_i hmode
    have hcovers : Covers mode ack ack := by
      rw [Covers, if_pos hmode]
    split
    · rw [hx]
      exact .kept
    rename_i x' hx'
    split
    · split
      · rename_i hactive
        refine modify_some hx ack _ .kept ?_
        rintro rfl
        cases hx'.symm.trans hx
        exact .noted hcovers hactive
      · rw [hx]
        exact .kept
    · rename_i hpending
      refine remove_some hx ack .kept ?_
      rintro rfl
      cases hx'.symm.trans hx
      refine .acknowledged hcovers ?_
      simpa [FirstHopOffer.isPending] using hpending
  · rename_i hmode
    exact ackOrdered_fate hmode hx

/-- The record of a frame when the offer of the frame `seq` is over. -/
inductive OfferFate (st : ReliableTxState) (mode : ReliableMode) (seq : UInt32) (bytes : SharedBytes)
    (result : TelemetryResult Unit) (k : UInt32) (x : ReliableSent) : Option ReliableSent → Prop
  | kept : OfferFate st mode seq bytes result k x (some x)
  | completed {x' : ReliableSent} (hresult : result = .ok ()) (hk : seq = k)
      (howner : x.bytes.owner = bytes.owner) (hbytes : x'.bytes = x.bytes)
      (hx' : x'.firstOffer = .complete) : OfferFate st mode seq bytes result k x (some x')
  | retired (hresult : result = .ok ()) (hk : seq = k) (howner : x.bytes.owner = bytes.owner)
      (hx : x.firstOffer = .ackedActive) : OfferFate st mode seq bytes result k x none
  | refused {error : TelemetryError} {x' : ReliableSent} (hresult : result = .error error)
      (herror : isTransientTxError error = true) (hbytes : x'.bytes = x.bytes)
      (hx' : x'.firstOffer = .pending ∨ x'.firstOffer = x.firstOffer) :
      OfferFate st mode seq bytes result k x (some x')
  | broken {error : TelemetryError} (hresult : result = .error error)
      (herror : isTransientTxError error = false) (hk : seq = k) (howner : x.bytes.owner = bytes.owner) :
      OfferFate st mode seq bytes result k x none
  | brokenStream {error : TelemetryError} {x' : ReliableSent} (hresult : result = .error error)
      (herror : isTransientTxError error = false) (hmode : mode = .ordered)
      (hx' : st.sent[seq]? = some x') (howner : x'.bytes.owner = bytes.owner) :
      OfferFate st mode seq bytes result k x none

theorem completeHopOffer_fate (hcomplete : st.completeHopOffer mode seq bytes result replay now = .ok st')
    (hx : st.sent[k]? = some x) : OfferFate st mode seq bytes result k x st'.sent[k]? := by
  unfold completeHopOffer at hcomplete
  split at hcomplete
  · cases hcomplete
  split at hcomplete
  · cases hcomplete
    rw [hx]
    exact .kept
  rename_i sent hsent
  split at hcomplete
  · cases hcomplete
    rw [hx]
    exact .kept
  rename_i hsame
  have howner : sent.bytes.owner = bytes.owner := by
    simpa [SharedBytes.sameOwner] using hsame
  split at hcomplete
  · split at hcomplete
    · rename_i hacked
      cases hcomplete
      refine remove_some hx seq .kept ?_
      rintro rfl
      cases hsent.symm.trans hx
      exact .retired rfl rfl howner hacked
    · cases hcomplete
      refine modify_some hx seq _ .kept ?_
      rintro rfl
      cases hsent.symm.trans hx
      exact .completed rfl rfl howner rfl rfl
  · split at hcomplete
    · rename_i htransient
      cases hcomplete
      refine modify_some hx seq _ .kept fun _ => .refused rfl htransient rfl ?_
      split
      · exact .inl rfl
      · exact .inr rfl
    · rename_i hpermanent
      rw [Bool.not_eq_true] at hpermanent
      split at hcomplete
      · rename_i hmode
        cases hcomplete
        exact .brokenStream rfl hpermanent hmode hsent howner
      · cases hcomplete
        refine remove_some hx seq .kept ?_
        rintro rfl
        cases hsent.symm.trans hx
        exact .broken rfl hpermanent rfl howner

/-- The record of a frame after the timeouts of the frames `order`. -/
inductive TimeoutFate (st : ReliableTxState) (lim : RetryLimits) (mode : ReliableMode) (now : UInt64)
    (order : List UInt32) (k : UInt32) (x : ReliableSent) : Option ReliableSent → Prop
  | kept {x' : ReliableSent} (hbytes : x'.bytes = x.bytes) (hx' : x'.firstOffer = x.firstOffer) :
      TimeoutFate st lim mode now order k x (some x')
  | exhausted (hk : k ∈ order) (hx : Exhausted lim now x) : TimeoutFate st lim mode now order k x none
  | exhaustedStream {k' : UInt32} {x' : ReliableSent} (hmode : mode = .ordered) (hk' : k' ∈ order)
      (hlookup : st.sent[k']? = some x') (hx' : Exhausted lim now x') :
      TimeoutFate st lim mode now order k x none

/-- The loop behind the front sees the other records as they were. -/
theorem TimeoutFate.cons {st₁ : ReliableTxState} {lim : RetryLimits} {x x₁ : ReliableSent} {o : Option ReliableSent}
    (h : TimeoutFate st₁ lim mode now order k x₁ o) (hseq : seq ∉ order)
    (hframe : ∀ k', k' ≠ seq → st₁.sent[k']? = st.sent[k']?) (hsame : k ≠ seq → x₁ = x)
    (hbytes : x₁.bytes = x.bytes) (hoffer : x₁.firstOffer = x.firstOffer) :
    TimeoutFate st lim mode now (seq :: order) k x o := by
  cases h with
  | kept hb ho => exact .kept (hb.trans hbytes) (ho.trans hoffer)
  | exhausted hk hx =>
    have hne : k ≠ seq := fun heq => hseq (heq ▸ hk)
    exact .exhausted (mem_cons_of_mem _ hk) (hsame hne ▸ hx)
  | exhaustedStream hmode hk' hlookup hx' =>
    rename_i k' x'
    have hne : k' ≠ seq := fun heq => hseq (heq ▸ hk')
    exact .exhaustedStream hmode (mem_cons_of_mem _ hk') (hframe k' hne ▸ hlookup) hx'

theorem timeoutsFrom_fate {lim : RetryLimits} (horder : order.Nodup) {requeue : List UInt32}
    (hx : st.sent[k]? = some x) :
    TimeoutFate st lim mode now order k x ((timeoutsFrom lim mode now order st requeue).1.sent[k]?) := by
  induction order generalizing st requeue x with
  | nil =>
    change TimeoutFate st lim mode now [] k x st.sent[k]?
    rw [hx]
    exact .kept rfl rfl
  | cons seq order ih =>
    obtain ⟨hseq, hrest⟩ := nodup_cons.mp horder
    have hskip : ∀ requeue', TimeoutFate st lim mode now (seq :: order) k x
        ((timeoutsFrom lim mode now order st requeue').1.sent[k]?) := by
      intro requeue'
      exact (ih hrest hx).cons hseq (fun _ _ => rfl) (fun _ => rfl) rfl rfl
    have hother : ∀ {st₁ : ReliableTxState}, (∀ k', k' ≠ seq → st₁.sent[k']? = st.sent[k']?) → seq ≠ k →
        TimeoutFate st lim mode now (seq :: order) k x
          ((timeoutsFrom lim mode now order st₁ requeue).1.sent[k]?) := by
      intro st₁ hframe hne
      exact (ih hrest ((hframe k hne.symm).trans hx)).cons hseq hframe (fun _ => rfl) rfl rfl
    unfold timeoutsFrom
    split
    · exact hskip requeue
    rename_i sent hsent
    split
    · exact hskip requeue
    rename_i hdue
    split
    · -- A partial acknowledgement has had its time; the frame itself is kept.
      have hframe : ∀ k', k' ≠ seq → (st.modify seq fun sent =>
          { sent with partialAcked := false, offerStamp := now }).sent[k']? = st.sent[k']? := by
        intro k' hne
        rw [modify_lookup, if_neg (Ne.symm hne)]
      by_cases heq : seq = k
      · subst heq
        have hx₁ : (st.modify seq fun sent =>
            { sent with partialAcked := false, offerStamp := now }).sent[seq]? =
            some { x with partialAcked := false, offerStamp := now } := by
          rw [modify_lookup, if_pos rfl, hx]
          rfl
        exact (ih hrest hx₁).cons hseq hframe (fun hne => absurd rfl hne) rfl rfl
      · exact hother hframe heq
    · rename_i hpartial
      split
      · rename_i hretries
        have hexhausted : Exhausted lim now sent := by
          simp only [Bool.or_eq_true, Bool.and_eq_true, Bool.not_eq_true', decide_eq_true_eq,
            not_or, not_and] at hdue
          refine ⟨by simpa using hdue.1, ?_, by simpa using hpartial, hretries⟩
          cases hp : sent.firstOffer.isPending with
          | true => exact .inl rfl
          | false => exact .inr (hdue.2 hp)
        split
        · rename_i hmode
          exact .exhaustedStream hmode mem_cons_self hsent hexhausted
        · by_cases heq : seq = k
          · subst heq
            cases hsent.symm.trans hx
            have hgone : (timeoutsFrom lim mode now order (st.remove seq) requeue).1.sent[seq]? = none := by
              refine (timeoutsFrom_edits _ lim mode now order requeue).fresh ?_
              rw [remove_lookup, if_pos rfl]
            rw [hgone]
            exact .exhausted mem_cons_self hexhausted
          · refine hother ?_ heq
            intro k' hne
            rw [remove_lookup, if_neg (Ne.symm hne)]
      · exact hskip _

end ReliableTxState

end SedsNet
