import SedsNet.RouterItem
import SedsNet.Runs

/-! # Retry leases

The retry-completion tracker of `router_completion.rs`.  A transport that writes asynchronously
gets one lease for each frame it is offered, and a lease whose message completed in the meantime
may be discarded instead of written.  Every operation on a lease holds the lock of its tracker's
ledger, so an interleaving of the threads is a list of events, each one a whole operation.

`Change` lists all that one event can do to one write and `LedgerChange` what it can do to a ledger, and
`step_effect` says that every event keeps to the lists. -/

namespace SedsNet

namespace RetryLease

open Runs List

/-! ### Serial numbers -/

/-- `next_serial`: the number drawn and the counter left behind.  The counter never wraps; once it
is used up every draw gives zero. -/
def nextSerial (counter : ℕ) : ℕ × ℕ :=
  if counter + 1 < 2 ^ 64 then (counter, counter + 1) else (0, counter)

theorem nextSerial_fst (counter : ℕ) : (nextSerial counter).1 = 0 ∨ (nextSerial counter).1 = counter := by
  unfold nextSerial
  split
  · exact .inr rfl
  · exact .inl rfl

theorem le_nextSerial_snd (counter : ℕ) : counter ≤ (nextSerial counter).2 := by
  unfold nextSerial
  split
  · exact Nat.le_succ counter
  · exact Nat.le_refl counter

theorem nextSerial_lt {counter : ℕ} (h : 0 < counter) : (nextSerial counter).1 < (nextSerial counter).2 := by
  unfold nextSerial
  split
  · exact Nat.lt_succ_self counter
  · exact h

/-! ### The tracker and its writes -/

/-- What the thread that calls a transport says about the frame it offers. -/
structure Intent where
  router : ℕ
  parent : UInt64
  birth : ℕ
  retry : Bool
deriving DecidableEq, Repr

structure RetryTrackerLimits where
  maxPending : ℕ := 32
  maxPendingBytes : ℕ := 2048
  historyEntries : ℕ := 4
  historyBytes : ℕ := 768
deriving DecidableEq, Repr

/-- A frame that was physically drained. -/
structure DrainedFrame where
  parent : UInt64
  birth : ℕ
  bytes : Bytes
deriving DecidableEq, Repr

/-- The pending writes are held weakly, by their index among all writes. -/
structure Ledger where
  fence : ℕ
  pending : List ℕ
  history : List DrainedFrame
deriving DecidableEq, Repr

structure TrackerInner where
  router : ℕ
  limits : RetryTrackerLimits
  ledger : Ledger
deriving DecidableEq, Repr

/-- One logical write with the tracker its leases point to.  The five flag bits are five fields,
`admission` is the serial number of the admission, and `live` says that some lease is left. -/
structure Write where
  tracker : Option ℕ
  bytes : Bytes
  fence : ℕ
  parent : UInt64
  birth : ℕ
  eligible : Bool
  admission : ℕ := 0
  admitted : Bool := false
  started : Bool := false
  drained : Bool := false
  retired : Bool := false
  discarded : Bool := false
  live : Bool := true
deriving DecidableEq, Repr

/-- Decision at the physical boundary. -/
inductive WriteStart where
  | ready
  | pendingAdmission
  | retired
deriving DecidableEq, Repr

/-- The part of `EndToEndReliableSent` that the tracker reads. -/
structure Completed where
  data : RouterItem
  completionEpoch : ℕ
deriving DecidableEq

/-- A completed message with the cutoff drawn when it completed. -/
structure Completion where
  id : UInt64
  completed : Completed
  cutoff : ℕ
deriving DecidableEq

/-- All trackers of the process, the writes they handed out, the completed messages and the
process-wide serial counter. -/
structure LeaseState where
  serial : ℕ
  trackers : List TrackerInner
  writes : List Write
  completions : List Completion
deriving DecidableEq

/-! ### Frame tests -/

/-- `canonical`: an unsequenced reliable frame with its shape and its frozen targets. -/
def canonical (env : WireEnv) (bytes : Bytes) : Bool :=
  bytes.head?.any (fun flags => flags &&& 0x11 == 0) &&
    match peekRoutingFrameInfo env bytes with
    | .error _ => false
    | .ok f =>
      f.reliable.any (fun h => h.flags == reliableFlagUnsequenced && h.seq == 0 && h.ack == 0) &&
        f.envelope.wireShape.isSome && f.envelope.targetSenders.length != 0

/-- The comparison inside `same_contract`. -/
def samePacket (id : UInt64) (original retry : Packet) : Bool :=
  original.packetId == id && retry.packetId == id && original.ty == retry.ty &&
    senderAddressU32 original.sender == senderAddressU32 retry.sender &&
    original.timestamp == retry.timestamp && original.nonce == retry.nonce &&
    original.dataSize == retry.dataSize && original.payload == retry.payload &&
    original.wireShape.isSome && original.wireShape == retry.wireShape &&
    !original.targetSenders.isEmpty && original.targetSenders == retry.targetSenders &&
    uniqueSortedEndpoints original.endpoints == uniqueSortedEndpoints retry.endpoints

def sameContract (env : WireEnv) (book : AddressBook) (id : UInt64) (data : RouterItem)
    (bytes : Bytes) : Bool :=
  match unpackPacket env book bytes with
  | .error _ => false
  | .ok retry =>
    match data with
    | .packet original => samePacket id original retry
    | .packed original =>
      match unpackPacket env book original with
      | .error _ => false
      | .ok packet => samePacket id packet retry

/-! ### Operations -/

namespace LeaseState

section

variable (env : WireEnv) (book : AddressBook) (s : LeaseState) (t w : ℕ)

/-- The writes that still have a lease. -/
def isLive : Bool := s.writes[w]?.any (·.live)

def modifyWrite (f : Write → Write) : LeaseState :=
  { s with writes := s.writes.modify w f }

def modifyLedger (f : Ledger → Ledger) : LeaseState :=
  { s with trackers := s.trackers.modify t fun k => { k with ledger := f k.ledger } }

/-- Draw a serial number and drop it. -/
def draw : LeaseState := { s with serial := (nextSerial s.serial).2 }

/-- The tracker behind a lease. -/
def trackerOf (x : Write) : Option TrackerInner := x.tracker.bind (s.trackers[·]?)

def fenceOf : Option ℕ := s.trackers[t]?.map (·.ledger.fence)

/-- A new tracker with its first fence. -/
def register (router : ℕ) (limits : RetryTrackerLimits) : LeaseState :=
  { s.draw with
    trackers := s.trackers ++ [⟨router, limits, ⟨(nextSerial s.serial).1, [], []⟩⟩] }

def invalidateGeneration : LeaseState :=
  s.draw.modifyLedger t fun l => { l with fence := (nextSerial s.serial).1, history := [] }

/-- The pending writes that some lease still owns. -/
def pendingOf (k : TrackerInner) : List ℕ := k.ledger.pending.filter s.isLive

/-- The intent under which a write is tracked: of this router, younger than the fence, within the
limits, and for a canonical frame. -/
def trackedIntent (k : TrackerInner) (intent : Option Intent) (bytes : Bytes) : Option Intent :=
  let pending := s.pendingOf k
  let used := (pending.map fun w => (s.writes[w]?.map (·.bytes.length)).getD 0).sum % 2 ^ 64
  (intent.filter fun i =>
    i.router == k.router && i.birth != 0 && k.ledger.fence != 0 && decide (k.ledger.fence < i.birth)).filter
  fun _ =>
    decide (pending.length < k.limits.maxPending) &&
      decide (used + bytes.length ≤ usizeMax) &&
      decide (used + bytes.length ≤ k.limits.maxPendingBytes) && canonical env bytes

/-- A tracked retry whose bytes are in the history of drained frames. -/
def isEligible (k : TrackerInner) (tracked : Option Intent) (bytes : Bytes) : Bool :=
  tracked.any fun i => i.retry && k.ledger.history.any fun h =>
    h.parent == i.parent && h.birth == i.birth && h.bytes == bytes

/-- The write that an offer adds. -/
def offeredWrite (k : TrackerInner) (intent : Option Intent) (bytes : Bytes) : Write :=
  let tracked := s.trackedIntent env k intent bytes
  { tracker := some t, bytes := bytes, fence := k.ledger.fence,
    parent := (tracked.map (·.parent)).getD 0, birth := (tracked.map (·.birth)).getD 0,
    eligible := isEligible k tracked bytes }

def offer (intent : Option Intent) (bytes : Bytes) : LeaseState :=
  match s.trackers[t]? with
  | none => s
  | some k =>
    let tracked := s.trackedIntent env k intent bytes
    let pending := s.pendingOf k
    { s.modifyLedger t (fun l =>
        { l with pending := if tracked.isSome then pending ++ [s.writes.length] else pending }) with
      writes := s.writes ++ [s.offeredWrite env t k intent bytes] }

/-- A lease without a tracker draws no serial number. -/
def admitWrite : LeaseState :=
  match s.writes[w]? with
  | none => s
  | some x =>
    if x.tracker.isSome then
      if x.admitted then s
      else s.draw.modifyWrite w fun x =>
        { x with admission := (nextSerial s.serial).1, admitted := true }
    else s.modifyWrite w fun x => { x with admitted := true }

/-- A retired write that has not started, in the generation it was offered in. -/
def prunable (x : Write) : Bool :=
  x.retired && !x.started &&
    (s.trackerOf x).any fun k => k.ledger.fence != 0 && k.ledger.fence == x.fence

def discardIfRetired : LeaseState × Bool :=
  match s.writes[w]? with
  | none => (s, false)
  | some x =>
    if x.tracker.isSome then
      if x.discarded then (s, true)
      else if s.prunable x then (s.modifyWrite w fun x => { x with discarded := true }, true)
      else (s, false)
    else (s, false)

def tryStart : LeaseState × WriteStart :=
  match s.writes[w]? with
  | none => (s, .pendingAdmission)
  | some x =>
    if x.discarded || s.prunable x then
      (s.modifyWrite w fun x => { x with discarded := true }, .retired)
    else if !x.admitted then (s, .pendingAdmission)
    else (s.modifyWrite w fun x => { x with started := true }, .ready)

/-- The leases of a batch are distinct writes of one tracker. -/
def oneGroup (first : ℕ) (ws : List ℕ) : Bool :=
  decide ws.Nodup &&
    ws.all fun w => s.writes[w]?.map (·.tracker) == s.writes[first]?.map (·.tracker)

def tryStartBatch (ws : List ℕ) : LeaseState × TelemetryResult WriteStart :=
  match ws with
  | [] => (s, .ok .ready)
  | first :: _ =>
    if !s.oneGroup first ws then (s, .error .badArg)
    else if ws.any fun w => s.writes[w]?.any fun x => x.discarded || s.prunable x then
      (s, .ok .retired)
    else if ws.any fun w => s.writes[w]?.any fun x => !x.admitted then (s, .ok .pendingAdmission)
    else (ws.foldl (fun s w => s.modifyWrite w fun x => { x with started := true }) s, .ok .ready)

/-- The oldest entries leave until the new one fits. -/
def trimHistory (limits : RetryTrackerLimits) (size : ℕ) : List DrainedFrame → List DrainedFrame
  | [] => []
  | h :: hs =>
    if limits.historyEntries ≤ (h :: hs).length ∨
        limits.historyBytes < satAdd (((h :: hs).map (·.bytes.length)).sum % 2 ^ 64) size then
      trimHistory limits size hs
    else h :: hs

def reportDrained : LeaseState × TelemetryResult Unit :=
  match s.writes[w]? with
  | none => (s, .ok ())
  | some x =>
    match x.tracker, s.trackerOf x with
    | some t, some k =>
      if !x.started || x.discarded then (s, .error .badArg)
      else if x.drained then (s, .ok ())
      else
        let s' := s.modifyWrite w fun x => { x with drained := true }
        if x.birth = 0 ∨ k.ledger.fence = 0 ∨ k.ledger.fence ≠ x.fence ∨
            k.limits.historyBytes < x.bytes.length ∨ k.limits.historyEntries = 0 then (s', .ok ())
        else
          (s'.modifyLedger t fun l =>
            { l with
              history := trimHistory k.limits x.bytes.length l.history ++
                [⟨x.parent, x.birth, x.bytes⟩] }, .ok ())
    | _, _ => (s, .ok ())

/-- The serial number drawn when a message completes is its cutoff. -/
def complete (id : UInt64) (completed : Completed) : LeaseState :=
  { s.draw with completions := s.completions ++ [⟨id, completed, (nextSerial s.serial).1⟩] }

/-- The test of `retire_completed_writes` on one pending write. -/
def retires (fence : ℕ) (c : Completion) (x : Write) : Bool :=
  x.eligible && x.parent == c.id && x.birth == c.completed.completionEpoch && fence != 0 &&
    x.fence == fence && x.admission != 0 && decide (x.admission < c.cutoff) && x.admitted &&
    !x.started && !x.discarded && sameContract env book c.id c.completed.data x.bytes

def retireWrite (fence : ℕ) (c : Completion) (x : Write) : Write :=
  if retires env book fence c x then { x with retired := true } else x

/-- `retire_completed_writes`, the turn of one tracker. -/
def retireCompletedWrites (c : Completion) : LeaseState :=
  if c.cutoff = 0 ∨ c.completed.completionEpoch = 0 then s
  else
    match s.trackers[t]? with
    | none => s
    | some k =>
      let pending := s.pendingOf k
      pending.foldl (fun s w => s.modifyWrite w (retireWrite env book k.ledger.fence c))
        (s.modifyLedger t fun l => { l with pending := pending })

end

end LeaseState

/-! ### Interleavings -/

/-- One whole operation of some thread.  `draw` is a serial number taken elsewhere, for the birth
of a message or the number of a router; the registry and the address book are those of the
moment. -/
inductive Event where
  | register (router : ℕ) (limits : RetryTrackerLimits)
  | draw
  | offer (env : WireEnv) (t : ℕ) (intent : Option Intent) (bytes : Bytes)
  | admitWrite (w : ℕ)
  | tryStart (w : ℕ)
  | tryStartBatch (ws : List ℕ)
  | reportDrained (w : ℕ)
  | discardIfRetired (w : ℕ)
  | invalidateGeneration (t : ℕ)
  | complete (id : UInt64) (completed : Completed)
  | retire (env : WireEnv) (book : AddressBook) (t c : ℕ)
  | dropLease (w : ℕ)

/-- Operations on a lease need one that is left. -/
def step (s : LeaseState) : Event → LeaseState
  | .register router limits => s.register router limits
  | .draw => s.draw
  | .offer env t intent bytes => s.offer env t intent bytes
  | .admitWrite w => if s.isLive w then s.admitWrite w else s
  | .tryStart w => if s.isLive w then (s.tryStart w).1 else s
  | .tryStartBatch ws => if ws.all s.isLive then (s.tryStartBatch ws).1 else s
  | .reportDrained w => if s.isLive w then (s.reportDrained w).1 else s
  | .discardIfRetired w => if s.isLive w then (s.discardIfRetired w).1 else s
  | .invalidateGeneration t => s.invalidateGeneration t
  | .complete id completed => s.complete id completed
  | .retire env book t c =>
    match s.completions[c]? with
    | none => s
    | some completion => s.retireCompletedWrites env book t completion
  | .dropLease w => s.modifyWrite w fun x => { x with live := false }

/-- The counter starts at one. -/
def initial : LeaseState := ⟨1, [], [], []⟩

/-! ### What one event does to one write -/

variable {α : Type}

theorem getElem?_foldl_modify (f : α → α) (ws : List ℕ) (xs : List α) (i : ℕ) :
    (ws.foldl (fun xs w => xs.modify w f) xs)[i]? = xs[i]?.map f^[ws.count i] := by
  induction ws generalizing xs with
  | nil => simp
  | cons w ws ih =>
    rw [foldl_cons, ih, List.getElem?_modify]
    by_cases hw : w = i
    · subst hw
      cases xs[w]? <;> simp
    · cases xs[i]? <;> simp [hw]

namespace LeaseState

theorem foldl_modifyWrite (f : Write → Write) (ws : List ℕ) (s : LeaseState) :
    ws.foldl (fun s w => s.modifyWrite w f) s = { s with writes := ws.foldl (fun xs w => xs.modify w f) s.writes } := by
  induction ws generalizing s with
  | nil => rfl
  | cons w ws ih =>
    rw [foldl_cons, ih]
    rfl

theorem getElem?_modifyLedger (s : LeaseState) (t u : ℕ) (f : Ledger → Ledger) : (s.modifyLedger t f).trackers[u]? =
      s.trackers[u]?.map fun k => if t = u then { k with ledger := f k.ledger } else k := by
  simp only [modifyLedger, List.getElem?_modify]
  rfl

end LeaseState

open LeaseState

/-- All that the event `e` can do to the write `x` of index `w`. -/
inductive Change (s : LeaseState) (e : Event) (w : ℕ) (x : Write) : Write → Prop
  | kept : Change s e w x x
  | dropped : Change s e w x { x with live := false }
  | admitted (he : e = .admitWrite w) (hx : x.admitted = false) :
      Change s e w x { x with admission := (nextSerial s.serial).1, admitted := true }
  | untracked (hx : x.tracker = none) : Change s e w x { x with admitted := true }
  | started (hx : x.discarded = false) : Change s e w x { x with started := true }
  | drained : Change s e w x { x with drained := true }
  | retired (env : WireEnv) (book : AddressBook) (t i : ℕ) (c : Completion)
      (he : e = .retire env book t i) (hc : s.completions[i]? = some c) (fence : ℕ)
      (hx : retires env book fence c x = true) : Change s e w x { x with retired := true }
  | discarded (hx : s.prunable x = true) : Change s e w x { x with discarded := true }

theorem iterate_idem {f : α → α} (hf : ∀ x, f (f x) = f x) (n : ℕ) (x : α) : f^[n] x = x ∨ f^[n] x = f x := by
  induction n with
  | zero => exact .inl rfl
  | succ n ih =>
    rw [Function.iterate_succ_apply']
    obtain h | h := ih
    · exact .inr (by rw [h])
    · exact .inr (by rw [h, hf])

/-- The write is the one that an offer adds. -/
def Offered (s : LeaseState) (e : Event) (w : ℕ) (x' : Write) : Prop :=
  ∃ env t intent bytes k, e = .offer env t intent bytes ∧ s.trackers[t]? = some k ∧
    w = s.writes.length ∧ x' = s.offeredWrite env t k intent bytes

/-- The event changes every write in one of the listed ways, and only an offer adds one. -/
structure Changes (s : LeaseState) (e : Event) (writes : List Write) : Prop where
  change : ∀ w x, s.writes[w]? = some x → ∃ x', writes[w]? = some x' ∧ Change s e w x x'
  fresh : ∀ w x', writes[w]? = some x' → w < s.writes.length ∨ Offered s e w x'

variable {s : LeaseState} {e : Event} {w : ℕ} {f : Write → Write} {x : Write}

theorem Changes.of_length {writes : List Write} (hlength : writes.length = s.writes.length)
    (h : ∀ w x, s.writes[w]? = some x → ∃ x', writes[w]? = some x' ∧ Change s e w x x') : Changes s e writes := by
  refine ⟨h, ?_⟩
  intro w x' hx'
  rw [← hlength]
  exact .inl (List.getElem?_eq_some_iff.mp hx').1

theorem changes_modify (hx : s.writes[w]? = some x) (hchange : Change s e w x (f x)) :
    Changes s e (s.writes.modify w f) := by
  refine .of_length (length_modify f s.writes w) ?_
  intro v y hy
  rw [List.getElem?_modify, hy]
  by_cases hv : w = v
  · subst hv
    cases hx.symm.trans hy
    simpa using hchange
  · simpa [hv] using Change.kept

theorem length_foldl_modify (f : α → α) (ws : List ℕ) (xs : List α) :
    (ws.foldl (fun xs w => xs.modify w f) xs).length = xs.length := by
  induction ws generalizing xs with
  | nil => rfl
  | cons w ws ih => rw [foldl_cons, ih, length_modify]

theorem changes_foldl_modify {ws : List ℕ} (hf : ∀ x, f (f x) = f x)
    (hchange : ∀ w x, w ∈ ws → s.writes[w]? = some x → Change s e w x (f x)) :
    Changes s e (ws.foldl (fun xs w => xs.modify w f) s.writes) := by
  refine .of_length (length_foldl_modify f ws s.writes) ?_
  intro v y hy
  rw [getElem?_foldl_modify, hy]
  refine ⟨_, rfl, ?_⟩
  by_cases hv : v ∈ ws
  · obtain h | h := iterate_idem hf (ws.count v) y
    · rw [h]
      exact .kept
    · rw [h]
      exact hchange v y hv hy
  · rw [count_eq_zero_of_not_mem hv]
    exact .kept

/-! ### What one event does to a ledger -/

/-- All that the event `e` can do to the ledger of the tracker `t`. -/
inductive LedgerChange (s : LeaseState) (e : Event) (t : ℕ) (l : Ledger) : Ledger → Prop
  | kept (pending : List ℕ) : LedgerChange s e t l { l with pending := pending }
  | invalidated (he : e = .invalidateGeneration t) :
      LedgerChange s e t l { l with fence := (nextSerial s.serial).1, history := [] }
  | drained (w : ℕ) (x : Write) (limits : RetryTrackerLimits) (he : e = .reportDrained w)
      (hx : s.writes[w]? = some x) (htracker : x.tracker = some t) (hlive : x.live = true)
      (hstarted : x.started = true) (hdrained : x.drained = false) (hdiscarded : x.discarded = false)
      (hfence : l.fence = x.fence) :
      LedgerChange s e t l
        { l with history := trimHistory limits x.bytes.length l.history ++ [⟨x.parent, x.birth, x.bytes⟩] }

theorem trimHistory_subset (limits : RetryTrackerLimits) (size : ℕ) (hs : List DrainedFrame) :
    trimHistory limits size hs ⊆ hs := by
  induction hs with
  | nil => exact List.Subset.refl _
  | cons h hs ih =>
    rw [trimHistory]
    split
    · exact subset_cons_of_subset h ih
    · exact List.Subset.refl _

/-- A tracker after an event is new and empty, or its ledger changed in one of the listed ways. -/
def LedgerStep (s : LeaseState) (e : Event) (t : ℕ) (k' : TrackerInner) : Prop :=
  k'.ledger = ⟨(nextSerial s.serial).1, [], []⟩ ∧ (∃ router limits, e = .register router limits) ∨
    ∃ k, s.trackers[t]? = some k ∧ LedgerChange s e t k.ledger k'.ledger

variable {t u : ℕ} {k k' : TrackerInner}

theorem ledgerStep_kept (hk : s.trackers[t]? = some k) : LedgerStep s e t k :=
  .inr ⟨k, hk, .kept k.ledger.pending⟩

/-! ### What one event does -/

/-- Writes and ledgers change in the listed ways; every event draws at most one serial number, and only
a completion records one as a cutoff. -/
structure Effect (s : LeaseState) (e : Event) (s' : LeaseState) : Prop where
  writes : Changes s e s'.writes
  ledgers : ∀ (t : ℕ) (k' : TrackerInner), s'.trackers[t]? = some k' → LedgerStep s e t k'
  serial : s'.serial = s.serial ∨ s'.serial = (nextSerial s.serial).2
  completions : s'.completions = s.completions ∨
    ∃ id completed, e = .complete id completed ∧
      s'.completions = s.completions ++ [⟨id, completed, (nextSerial s.serial).1⟩]

/-- An operation on leases leaves the trackers, the counter and the completions alone. -/
theorem Effect.of_writes {writes : List Write} (h : Changes s e writes) : Effect s e { s with writes } :=
  ⟨h, fun _ _ hk => ledgerStep_kept hk, .inl rfl, .inl rfl⟩

theorem Effect.refl (s : LeaseState) (e : Event) : Effect s e s :=
  .of_writes (.of_length rfl fun _ x hx => ⟨x, hx, .kept⟩)

theorem Effect.modifyLedger {s' : LeaseState} (h : Effect s e s') (hsame : s'.trackers = s.trackers)
    {f : Ledger → Ledger} (hf : ∀ k, s.trackers[t]? = some k → LedgerChange s e t k.ledger (f k.ledger)) :
    Effect s e (s'.modifyLedger t f) := by
  refine { h with ledgers := ?_ }
  intro u k' hk'
  rw [getElem?_modifyLedger, hsame] at hk'
  obtain ⟨k, hk, rfl⟩ := Option.map_eq_some_iff.mp hk'
  by_cases htu : t = u
  · subst htu
    rw [if_pos rfl]
    exact .inr ⟨k, hk, hf k hk⟩
  · rw [if_neg htu]
    exact ledgerStep_kept hk

theorem Effect.setPending {s' : LeaseState} (h : Effect s e s') (hsame : s'.trackers = s.trackers) (t : ℕ)
    (pending : List ℕ) : Effect s e (s'.modifyLedger t fun l => { l with pending }) :=
  h.modifyLedger hsame fun _ _ => .kept pending

theorem admitWrite_effect (s : LeaseState) (w : ℕ) : Effect s (.admitWrite w) (s.admitWrite w) := by
  unfold LeaseState.admitWrite
  split
  · exact .refl _ _
  rename_i x hx
  split
  · split
    · exact .refl _ _
    · rename_i hadmitted
      rw [Bool.not_eq_true] at hadmitted
      exact { Effect.of_writes (changes_modify hx (.admitted rfl hadmitted)) with serial := .inr rfl }
  · rename_i htracker
    rw [Option.not_isSome_iff_eq_none] at htracker
    exact .of_writes (changes_modify hx (.untracked htracker))

theorem discardIfRetired_effect (s : LeaseState) (w : ℕ) :
    Effect s (.discardIfRetired w) (s.discardIfRetired w).1 := by
  unfold discardIfRetired
  split
  · exact .refl _ _
  rename_i x hx
  split
  · split
    · exact .refl _ _
    · split
      · rename_i hprune
        exact .of_writes (changes_modify hx (.discarded hprune))
      · exact .refl _ _
  · exact .refl _ _

theorem tryStart_effect (s : LeaseState) (w : ℕ) : Effect s (.tryStart w) (s.tryStart w).1 := by
  unfold tryStart
  split
  · exact .refl _ _
  rename_i x hx
  split
  · rename_i hretired
    refine .of_writes (changes_modify hx ?_)
    cases hd : x.discarded with
    | true =>
      -- Setting the flag again changes nothing.
      have hsame : { x with discarded := true } = x := by
        cases x
        cases hd
        rfl
      simpa only [hsame] using Change.kept
    | false =>
      rw [hd] at hretired
      exact .discarded hretired
  · rename_i hretired
    split
    · exact .refl _ _
    · refine .of_writes (changes_modify hx (.started ?_))
      simp only [Bool.or_eq_true, not_or, Bool.not_eq_true] at hretired
      exact hretired.1

theorem tryStartBatch_effect (s : LeaseState) (ws : List ℕ) :
    Effect s (.tryStartBatch ws) (s.tryStartBatch ws).1 := by
  unfold tryStartBatch
  split
  · exact .refl _ _
  split
  · exact .refl _ _
  split
  · exact .refl _ _
  rename_i hretired
  split
  · exact .refl _ _
  rw [foldl_modifyWrite]
  refine .of_writes (changes_foldl_modify (fun _ => rfl) ?_)
  intro v y hv hy
  refine .started ?_
  by_contra hd
  apply hretired
  rw [any_eq_true]
  refine ⟨v, hv, ?_⟩
  rw [hy, Option.any_some, Bool.or_eq_true]
  exact .inl (by simpa using hd)

theorem reportDrained_effect (hlive : s.isLive w = true) : Effect s (.reportDrained w) (s.reportDrained w).1 := by
  unfold reportDrained
  split
  · exact .refl _ _
  rename_i x hx
  split
  · rename_i u k hu hk
    split
    · exact .refl _ _
    rename_i hstarted
    split
    · exact .refl _ _
    rename_i hdrained
    split
    · exact .of_writes (changes_modify hx .drained)
    rename_i hfence
    dsimp only
    refine Effect.modifyLedger (.of_writes (changes_modify hx .drained)) rfl ?_
    intro k₀ hk₀
    rw [trackerOf, hu, Option.bind_some, hk₀] at hk
    cases hk
    simp only [Bool.or_eq_true, Bool.not_eq_true', not_or, Bool.not_eq_false, Bool.not_eq_true] at hstarted hdrained
    rw [isLive, hx] at hlive
    refine .drained w x _ rfl hx hu hlive hstarted.1 hdrained hstarted.2 ?_
    by_contra hne
    exact hfence (.inr (.inr (.inl hne)))
  · exact .refl _ _

/-- The test does not read the flag it sets. -/
theorem retireWrite_idem (env : WireEnv) (book : AddressBook) (fence : ℕ) (c : Completion)
    (x : Write) : retireWrite env book fence c (retireWrite env book fence c x) = retireWrite env book fence c x := by
  unfold retireWrite
  split
  · rename_i hx
    exact if_pos hx
  · rfl

theorem retire_effect (env : WireEnv) (book : AddressBook) (t : ℕ) {i : ℕ} {c : Completion}
    (hc : s.completions[i]? = some c) : Effect s (.retire env book t i) (s.retireCompletedWrites env book t c) := by
  unfold retireCompletedWrites
  split
  · exact .refl _ _
  split
  · exact .refl _ _
  rename_i k _
  rw [foldl_modifyWrite]
  have hchanges : Changes s (.retire env book t i) ((s.pendingOf k).foldl
      (fun xs w => xs.modify w (retireWrite env book k.ledger.fence c)) s.writes) := by
    refine changes_foldl_modify (retireWrite_idem env book k.ledger.fence c) ?_
    intro v y _ _
    unfold retireWrite
    split
    · rename_i hretires
      exact .retired env book t i c rfl hc k.ledger.fence hretires
    · exact .kept
  exact { (Effect.of_writes hchanges).setPending rfl t _ with }

theorem offer_effect (env : WireEnv) (s : LeaseState) (t : ℕ) (intent : Option Intent) (bytes : Bytes) :
    Effect s (.offer env t intent bytes) (s.offer env t intent bytes) := by
  unfold offer
  split
  · exact .refl _ _
  rename_i k hk
  refine { (Effect.refl s _).setPending rfl t _ with writes := ⟨?_, ?_⟩ }
  · exact fun w x hx => ⟨x, Runs.getElem?_append_of_some hx, .kept⟩
  · intro w x' hx'
    obtain ⟨hw, -⟩ | ⟨hw, rfl⟩ := getElem?_concat_cases hx'
    · exact .inl hw
    · exact .inr ⟨env, t, intent, bytes, k, rfl, hk, hw, rfl⟩

theorem step_effect (s : LeaseState) (e : Event) : Effect s e (step s e) := by
  have hif : ∀ {b} {s'}, (b = true → Effect s e s') → Effect s e (if b then s' else s) := by
    intro b s' h
    split
    · rename_i hb
      exact h hb
    · exact .refl s e
  cases e with
  | register router limits =>
    refine { Effect.refl s _ with ledgers := ?_, serial := .inr rfl }
    intro t k' hk'
    obtain ⟨-, hold⟩ | ⟨-, rfl⟩ := getElem?_concat_cases hk'
    · exact ledgerStep_kept hold
    · exact .inl ⟨rfl, router, limits, rfl⟩
  | draw => exact { Effect.refl s _ with serial := .inr rfl }
  | offer env t intent bytes => exact offer_effect env s t intent bytes
  | admitWrite v => exact hif fun _ => admitWrite_effect s v
  | tryStart v => exact hif fun _ => tryStart_effect s v
  | tryStartBatch ws => exact hif fun _ => tryStartBatch_effect s ws
  | reportDrained v => exact hif reportDrained_effect
  | discardIfRetired v => exact hif fun _ => discardIfRetired_effect s v
  | invalidateGeneration u =>
    have hdraw : Effect s (.invalidateGeneration u) s.draw := { Effect.refl s _ with serial := .inr rfl }
    unfold step invalidateGeneration
    exact Effect.modifyLedger hdraw rfl fun _ _ => .invalidated rfl
  | complete id completed =>
    exact { Effect.refl s _ with serial := .inr rfl, completions := .inr ⟨id, completed, rfl, rfl⟩ }
  | retire env book t i =>
    simp only [step]
    split
    · exact .refl _ _
    · rename_i completion hc
      exact retire_effect env book t hc
  | dropLease v =>
    cases hv : s.writes[v]? with
    | none =>
      have hsame : step s (.dropLease v) = s :=
        congrArg (LeaseState.mk _ _ · _) (modify_eq_self (List.getElem?_eq_none_iff.mp hv))
      rw [hsame]
      exact .refl _ _
    | some x => exact .of_writes (changes_modify hv .dropped)

theorem step_keeps (s : LeaseState) (e : Event) (hx : s.writes[w]? = some x) :
    ∃ x', (step s e).writes[w]? = some x' ∧ Change s e w x x' := (step_effect s e).writes.change w x hx

/-- A write after an event was there before, or the event is the offer that adds it. -/
theorem step_write (s : LeaseState) (e : Event) {x' : Write} (hx' : (step s e).writes[w]? = some x') :
    (∃ x, s.writes[w]? = some x ∧ Change s e w x x') ∨ Offered s e w x' := by
  refine ((step_effect s e).writes.fresh w x' hx').imp_left fun hw => ?_
  obtain ⟨x'', hx'', hchange⟩ := step_keeps s e (List.getElem?_eq_getElem hw)
  cases hx'.symm.trans hx''
  exact ⟨_, List.getElem?_eq_getElem hw, hchange⟩

theorem serial_le_step (s : LeaseState) (e : Event) : s.serial ≤ (step s e).serial := by
  obtain h | h := (step_effect s e).serial
  · exact h.ge
  · rw [h]
    exact le_nextSerial_snd s.serial

end RetryLease

end SedsNet
