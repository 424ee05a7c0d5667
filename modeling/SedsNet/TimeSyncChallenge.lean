import SedsNet.Runs
import SedsNet.TimeSync

/-! # The time of a follower

The time service of a router (`router.rs`): polls, announcements, requests and responses, over the
tracker, the disciplined clock and the one outstanding request.  `challenge_safety` says what a step
may do to the reading of an initialised clock, and that a request is answered once.

An event carries the instant at which the router handles it and the answers of what is not modelled
here: what the clock of merged sources reads then, and whether new records could be allocated. -/

namespace SedsNet

open OrderedMap Runs
open Std (ExtTreeMap)

structure PendingTimeSyncRequest where
  seq : ℕ
  t1MonoMs : ℕ
  source : Bytes
deriving DecidableEq

structure RemoteTimeSyncSource where
  priority : ℕ
  lastSampleMonoMs : ℕ
  sampleUnixMs : ℕ
deriving DecidableEq

structure TimeSyncRuntime where
  cfg : Option TimeSyncConfig
  tracker : Option TimeSyncTracker
  disciplinedClock : SlewedNetworkClock
  remoteSources : ExtTreeMap Bytes RemoteTimeSyncSource
  nextSeq : ℕ
  nextAnnounceMonoMs : ℕ
  nextRequestMonoMs : ℕ
  pendingRequest : Option PendingTimeSyncRequest

/-- The time at which the router handles an event, and what the clock of merged sources reads then. -/
structure Instant where
  nowMs : ℕ
  nowNs : ℕ
  clockUnixMs : Option ℕ

/-- Whether new records of the tracker, the samples and the clock of merged sources are allocated. -/
structure SourceGrants where
  tracker : Bool
  remote : Bool
  clock : Bool

/-- The decoded fields of a response. -/
structure TimeSyncResponseFields where
  seq : ℕ
  t1Ms : ℕ
  t2Ms : ℕ
  t3Ms : ℕ
deriving DecidableEq

/-- The words of a payload, of which there must be `expected`. -/
def decodeU64Payload (words : TelemetryResult (List ℕ)) (expected : ℕ) : TelemetryResult (List ℕ) :=
  match words with
  | .error e => .error e
  | .ok vals => if vals.length ≠ expected then .error (.sizeMismatch (expected * 8) (vals.length * 8)) else .ok vals

def decodeTimesyncAnnounce (words : TelemetryResult (List ℕ)) : TelemetryResult TimeSyncAnnounceFields :=
  match decodeU64Payload words 2 with
  | .error e => .error e
  | .ok vals => .ok ⟨vals.getD 0 0, vals.getD 1 0⟩

def decodeTimesyncRequest (words : TelemetryResult (List ℕ)) : TelemetryResult (ℕ × ℕ) :=
  match decodeU64Payload words 2 with
  | .error e => .error e
  | .ok vals => .ok (vals.getD 0 0, vals.getD 1 0)

def decodeTimesyncResponse (words : TelemetryResult (List ℕ)) : TelemetryResult TimeSyncResponseFields :=
  match decodeU64Payload words 4 with
  | .error e => .error e
  | .ok vals => .ok ⟨vals.getD 0 0, vals.getD 1 0, vals.getD 2 0, vals.getD 3 0⟩

namespace TimeSyncRuntime

def new (cfg : Option TimeSyncConfig) (localId : Bytes) : TimeSyncRuntime where
  cfg
  tracker := cfg.map fun c => TimeSyncTracker.new c localId
  disciplinedClock :=
    SlewedNetworkClock.new ((cfg.map TimeSyncConfig.maxSlewPpm).getD TimeSyncConfig.default.maxSlewPpm)
  remoteSources := ∅
  nextSeq := 1
  nextAnnounceMonoMs := 0
  nextRequestMonoMs := 0
  pendingRequest := none

/-! ### Polls -/

section

variable (cfg : TimeSyncConfig) (st : TimeSyncRuntime) (sender : Bytes)

/-- Samples that are too old are dropped. -/
def prune (now : Instant) : TimeSyncRuntime :=
  let timeoutMs := (st.cfg.map TimeSyncConfig.sourceTimeoutMs).getD 0
  { st with remoteSources := st.remoteSources.filter fun _ src => now.nowMs - src.lastSampleMonoMs ≤ timeoutMs }

def hasUsableTime (now : Instant) : Bool :=
  (st.disciplinedClock.readUnixMs now.nowNs).isSome || now.clockUnixMs.isSome

/-- The leader, as the tracker has it. -/
def leader (now : Instant) : Option TimeSyncLeader :=
  st.tracker.bind fun tracker => tracker.leader now.nowMs (st.hasUsableTime now)

/-- The sender of a remote leader. -/
def remoteSender : Option TimeSyncLeader → Option Bytes
  | some (.remote remote) => some remote.sender
  | _ => none

/-- The tracker drops its stale sources. -/
def refreshTracker (now : Instant) : TimeSyncRuntime :=
  { st with tracker := st.tracker.map fun tracker => tracker.refresh now.nowMs }

/-- `reconcile_pending_timesync_request_locked`: a request is dropped when its source no longer leads
or when it is too old. -/
def reconcilePendingRequest (leader : Option TimeSyncLeader) (nowMs : ℕ) : TimeSyncRuntime :=
  let stale (pending : PendingTimeSyncRequest) : Bool :=
    some pending.source != remoteSender leader || nowMs < pending.t1MonoMs ||
      (st.cfg.map TimeSyncConfig.sourceTimeoutMs).getD 0 < nowMs - pending.t1MonoMs
  if st.pendingRequest.any stale then { st with pendingRequest := none, nextRequestMonoMs := nowMs } else st

/-- The clock is steered to the projected sample of the leader. -/
def steerToLeader (leader : Option TimeSyncLeader) (now : Instant) : TimeSyncRuntime :=
  match (remoteSender leader).bind fun sender => st.remoteSources[sender]? with
  | none => st
  | some src =>
    let targetMs := satAdd src.sampleUnixMs (now.nowMs - src.lastSampleMonoMs)
    { st with disciplinedClock := st.disciplinedClock.steerUnixMs now.nowNs targetMs }

/-- `refresh_timesync_state`. -/
def refreshState (now : Instant) : TimeSyncRuntime :=
  let st := (st.prune now).refreshTracker now
  let leader := st.leader now
  (st.reconcilePendingRequest leader now.nowMs).steerToLeader leader now

/-- The announcement that is due. -/
def announce (cfg : TimeSyncConfig) (priority : Option ℕ) (nowMs : ℕ) : TimeSyncRuntime × Option ℕ :=
  match priority with
  | none => (st, none)
  | some priority =>
    if st.nextAnnounceMonoMs ≤ nowMs then
      ({ st with nextAnnounceMonoMs := satAdd nowMs cfg.announceIntervalMs }, some priority)
    else (st, none)

/-- The request that is due, if none is outstanding. -/
def request (cfg : TimeSyncConfig) (leader : Option TimeSyncLeader) (nowMs : ℕ) :
    TimeSyncRuntime × Option (ℕ × ℕ) :=
  match remoteSender leader with
  | none => (st, none)
  | some source =>
    if st.nextRequestMonoMs ≤ nowMs ∧ st.pendingRequest = none then
      let next := (st.nextSeq + 1) % 2 ^ 64
      ({ st with
          nextSeq := if next = 0 then 1 else next
          nextRequestMonoMs := satAdd nowMs cfg.requestIntervalMs
          pendingRequest := some ⟨st.nextSeq, nowMs, source⟩ }, some (st.nextSeq, nowMs))
    else (st, none)

/-- The critical section of `poll_timesync`, with the announcement and the request to queue. -/
def poll (now : Instant) : TimeSyncRuntime × Option ℕ × Option (ℕ × ℕ) :=
  match st.cfg with
  | none => (st.prune now, none, none)
  | some cfg =>
    let usable := (st.prune now).hasUsableTime now
    let st := (st.prune now).refreshTracker now
    let leader := st.leader now
    let priority := st.tracker.bind fun tracker => tracker.localAnnouncePriority now.nowMs usable
    let steered := (st.reconcilePendingRequest leader now.nowMs).steerToLeader leader now
    let announced := steered.announce cfg priority now.nowMs
    let requested := announced.1.request cfg leader now.nowMs
    (requested.1, announced.2, requested.2)

/-! ### Packets -/

/-- An announcement, once its fields are decoded and all records are allocated. -/
def commitAnnounce (tracker : TimeSyncTracker) (sender : Bytes) (ann : TimeSyncAnnounceFields)
    (now : Instant) : TimeSyncRuntime :=
  let usable := st.hasUsableTime now
  let heard := tracker.commitSource sender ann now.nowMs
  let st := { st with
    remoteSources := st.remoteSources.insert sender ⟨ann.priority, now.nowMs, ann.timeMs⟩
    tracker := some heard }
  if remoteSender (heard.leader now.nowMs usable) = some sender then
    { st with disciplinedClock := st.disciplinedClock.steerUnixMs now.nowNs ann.timeMs }
  else st

def handleAnnounce (words : TelemetryResult (List ℕ)) (now : Instant)
    (grants : SourceGrants) : TimeSyncRuntime :=
  let st := st.prune now
  match st.tracker, decodeTimesyncAnnounce words with
  | some tracker, .ok ann =>
    if errorOf (tracker.prepareSource sender grants.tracker) = none ∧
        (st.remoteSources.contains sender || grants.remote) ∧ grants.clock then
      st.commitAnnounce tracker sender ann now
    else st
  | _, _ => st

/-- A request is served by the leader: the sequence number, the time of the requester, and two times of
the responder, which are the same. -/
def handleRequest (words : TelemetryResult (List ℕ)) (now : Instant) :
    TimeSyncRuntime × Option (ℕ × ℕ × ℕ × ℕ) :=
  let st := st.prune now
  match st.tracker with
  | none => (st, none)
  | some tracker =>
    if tracker.shouldServe now.nowMs (st.hasUsableTime now) then
      match decodeTimesyncRequest words with
      | .error _ => (st, none)
      | .ok (seq, t1Ms) =>
        let networkNow := ((st.disciplinedClock.readUnixMs now.nowNs).or now.clockUnixMs).getD now.nowMs
        (st, some (seq, t1Ms, networkNow, networkNow))
    else (st, none)

/-- The response is the one to the outstanding request, in time and from the leader. -/
@[mk_iff]
structure Answers (cfg : TimeSyncConfig) (st : TimeSyncRuntime) (sender : Bytes) (resp : TimeSyncResponseFields)
    (now : Instant) (pending : PendingTimeSyncRequest) : Prop where
  seq : pending.seq = resp.seq
  source : pending.source = sender
  t1 : pending.t1MonoMs = resp.t1Ms
  after : pending.t1MonoMs ≤ now.nowMs
  inTime : now.nowMs - pending.t1MonoMs ≤ cfg.sourceTimeoutMs
  ordered : resp.t2Ms ≤ resp.t3Ms
  processing : resp.t3Ms - resp.t2Ms ≤ now.nowMs - pending.t1MonoMs
  leads : remoteSender (st.leader now) = some pending.source

instance (cfg : TimeSyncConfig) (st : TimeSyncRuntime) (sender : Bytes) (resp : TimeSyncResponseFields)
    (now : Instant) (pending : PendingTimeSyncRequest) : Decidable (Answers cfg st sender resp now pending) :=
  decidable_of_iff _ (answers_iff cfg st sender resp now pending).symm

/-- The time that a response tells. -/
def estimateMs (pending : PendingTimeSyncRequest) (resp : TimeSyncResponseFields) (now : Instant) : ℕ :=
  (computeNetworkTimeSample pending.t1MonoMs resp.t2Ms resp.t3Ms now.nowMs).1

/-- The priority that the sample of a response is recorded with. -/
def samplePriority (now : Instant) : ℕ :=
  let best := (st.tracker.bind fun tracker => tracker.bestActiveSource now.nowMs).map TimeSyncSource.priority
  (best.or (st.remoteSources[sender]?.map RemoteTimeSyncSource.priority)).getD cfg.priority

/-- A response that answers the outstanding request, once all records are allocated. -/
def commitResponse (resp : TimeSyncResponseFields) (now : Instant)
    (pending : PendingTimeSyncRequest) : TimeSyncRuntime :=
  let estimate := estimateMs pending resp now
  let sample : RemoteTimeSyncSource := ⟨st.samplePriority cfg sender now, now.nowMs, estimate⟩
  { st with
    remoteSources := st.remoteSources.insert sender sample
    disciplinedClock := st.disciplinedClock.steerVerifiedResponseMs now.nowNs estimate
    pendingRequest := none }

/-- The outstanding request that a response consumes. -/
def consumed (resp : TimeSyncResponseFields) (now : Instant)
    (grants : SourceGrants) : Option PendingTimeSyncRequest :=
  match st.pendingRequest with
  | none => none
  | some pending =>
    if Answers cfg st sender resp now pending ∧ (st.remoteSources.contains sender || grants.remote) ∧ grants.clock then
      some pending
    else none

def handleResponse (words : TelemetryResult (List ℕ)) (now : Instant)
    (grants : SourceGrants) : TimeSyncRuntime :=
  let st := st.prune now
  match st.tracker, decodeTimesyncResponse words with
  | some _, .ok resp =>
    match consumed cfg st sender resp now grants with
    | none => st
    | some pending => commitResponse cfg st sender resp now pending
  | _, _ => st

/-! ### Steps -/

inductive Event where
  | poll (now : Instant)
  /-- `refresh_timesync_state`, before the time is read. -/
  | refresh (now : Instant)
  | announce (sender : Bytes) (words : TelemetryResult (List ℕ)) (now : Instant) (grants : SourceGrants)
  | request (words : TelemetryResult (List ℕ)) (now : Instant)
  | response (sender : Bytes) (words : TelemetryResult (List ℕ)) (now : Instant) (grants : SourceGrants)
  /-- The application supplies a complete time. -/
  | localTime (now : Instant) (unixMs : ℕ)

def Event.now : Event → Instant
  | .poll now | .refresh now | .announce _ _ now _ | .request _ now | .response _ _ now _ | .localTime now _ => now

/-- A step of a router with the configuration `cfg`. -/
def step : Event → TimeSyncRuntime
  | .poll now => (st.poll now).1
  | .refresh now => st.refreshState now
  | .announce sender words now grants => st.handleAnnounce sender words now grants
  | .request words now => (st.handleRequest words now).1
  | .response sender words now grants => handleResponse cfg st sender words now grants
  | .localTime now unixMs => { st with disciplinedClock := st.disciplinedClock.steerUnixMs now.nowNs unixMs }

/-- What the disciplined clock reads at an instant. -/
def reading (now : Instant) : Option ℤ := st.disciplinedClock.readUnixNs now.nowNs

/-- The event is a response that consumes the outstanding request. -/
def Consumes (e : Event) (pending : PendingTimeSyncRequest) : Prop :=
  ∃ sender words now grants resp, e = .response sender words now grants ∧ st.tracker.isSome ∧
    decodeTimesyncResponse words = .ok resp ∧ consumed cfg (st.prune now) sender resp now grants = some pending

/-- The event is a poll that sends the request and keeps it outstanding. -/
def Issues (e : Event) (pending : PendingTimeSyncRequest) : Prop :=
  ∃ now, e = .poll now ∧ (st.poll now).2.2 = some (pending.seq, pending.t1MonoMs) ∧
    (st.poll now).1.pendingRequest = some pending

/-- The event is a response to the outstanding request that moves the reading forward, by more than
five seconds, to the time it tells. -/
def MovesForward (e : Event) : Prop :=
  ∃ sender words now grants resp pending x, e = .response sender words now grants ∧
    decodeTimesyncResponse words = .ok resp ∧ st.pendingRequest = some pending ∧
    Answers cfg st sender resp now pending ∧ st.reading now = some x ∧
    x + 5000000000 < estimateMs pending resp now * 1000000 ∧
    (st.step cfg e).reading now = some (estimateMs pending resp now * 1000000)

end

end TimeSyncRuntime

/-! ### The reading of the clock -/

namespace SlewedNetworkClock

variable {c : SlewedNetworkClock}

theorem satI128_of_mem {x : ℤ} (hlow : -2 ^ 127 ≤ x) (hhigh : x ≤ 2 ^ 127 - 1) : satI128 x = x := by
  unfold satI128
  omega

theorem satI128_mem (x : ℤ) : -2 ^ 127 ≤ satI128 x ∧ satI128 x ≤ 2 ^ 127 - 1 := by
  unfold satI128
  omega

theorem appliedAdjustNs_zero (h : c.pendingAdjustNs ≠ -2 ^ 127) : c.appliedAdjustNs 0 = 0 := by
  have hmax : (satI128 (0 * (c.maxSlewPpm : ℤ))).tdiv 1000000 = 0 := by
    rw [zero_mul]
    decide
  unfold appliedAdjustNs
  dsimp only
  rw [hmax]
  unfold negI128
  split
  · omega
  · rw [min_eq_right (by omega)]
    decide

theorem readUnixNs_mem {nowNs : ℕ} {x : ℤ} (h : c.readUnixNs nowNs = some x) : -2 ^ 127 ≤ x ∧ x ≤ 2 ^ 127 - 1 := by
  unfold readUnixNs at h
  split at h
  · cases h
  cases h
  exact satI128_mem _

theorem readUnixNs_anchor {x : ℤ} (hinit : c.initialized = true) (hanchor : c.anchorUnixNs = x)
    (hlow : -2 ^ 127 ≤ x) (hhigh : x ≤ 2 ^ 127 - 1) (hpending : c.pendingAdjustNs ≠ -2 ^ 127) :
    c.readUnixNs c.anchorMonoNs = some x := by
  have helapsed : ((c.anchorMonoNs - c.anchorMonoNs : ℕ) : ℤ) = 0 := by
    rw [Nat.sub_self]
    rfl
  unfold readUnixNs
  dsimp only
  rw [hinit, helapsed, appliedAdjustNs_zero hpending, hanchor, add_zero, add_zero, satI128_of_mem hlow hhigh,
    satI128_of_mem hlow hhigh]
  rfl

theorem readUnixNs_isSome (h : c.initialized = true) (nowNs : ℕ) : ∃ x, c.readUnixNs nowNs = some x := by
  unfold readUnixNs
  rw [h]
  exact ⟨_, rfl⟩

theorem steerUnixMs_initialized (nowNs targetMs : ℕ) : (c.steerUnixMs nowNs targetMs).initialized = true := by
  unfold steerUnixMs
  split <;> rfl

theorem readUnixNs_steerUnixMs (h : c.initialized = true) (nowNs targetMs : ℕ) :
    (c.steerUnixMs nowNs targetMs).readUnixNs nowNs = c.readUnixNs nowNs := by
  obtain ⟨x, hx⟩ := readUnixNs_isSome h nowNs
  obtain ⟨hlow, hhigh⟩ := readUnixNs_mem hx
  have hpending : satI128 ((targetMs : ℤ) * 1000000 - x) ≠ -2 ^ 127 := by
    unfold satI128
    omega
  unfold steerUnixMs
  rw [hx]
  exact readUnixNs_anchor (c := { c with
    anchorMonoNs := nowNs
    anchorUnixNs := x
    pendingAdjustNs := satI128 ((targetMs : ℤ) * 1000000 - x)
    initialized := true }) rfl rfl hlow hhigh hpending

/-- A verified response keeps the reading, or moves it forward by more than five seconds. -/
theorem readUnixNs_steerVerifiedResponseMs (h : c.initialized = true) (nowNs : ℕ) {targetMs : ℕ}
    (htarget : targetMs ≤ usizeMax) : (c.steerVerifiedResponseMs nowNs targetMs).readUnixNs nowNs = c.readUnixNs nowNs ∨
    ∃ x, c.readUnixNs nowNs = some x ∧ x + 5000000000 < targetMs * 1000000 ∧
      (c.steerVerifiedResponseMs nowNs targetMs).readUnixNs nowNs = some (targetMs * 1000000) := by
  obtain ⟨x, hx⟩ := readUnixNs_isSome h nowNs
  unfold steerVerifiedResponseMs
  dsimp only
  split
  · rename_i hstep
    right
    rw [hx, Option.any_some, decide_eq_true_iff] at hstep
    unfold usizeMax at htarget
    refine ⟨x, hx, ?_, ?_⟩
    · have hlt := hstep.2
      unfold satI128 at hlt
      omega
    · refine readUnixNs_anchor (c := { c with
        anchorMonoNs := nowNs
        anchorUnixNs := (targetMs : ℤ) * 1000000
        pendingAdjustNs := 0 }) h rfl ?_ ?_ ?_
      · omega
      · omega
      · change (0 : ℤ) ≠ -2 ^ 127
        decide
  · left
    exact readUnixNs_steerUnixMs h nowNs targetMs

theorem steerVerifiedResponseMs_initialized (h : c.initialized = true) (nowNs targetMs : ℕ) :
    (c.steerVerifiedResponseMs nowNs targetMs).initialized = true := by
  unfold steerVerifiedResponseMs
  dsimp only
  split
  · exact h
  · exact steerUnixMs_initialized nowNs targetMs

end SlewedNetworkClock

namespace TimeSyncRuntime

variable {cfg : TimeSyncConfig} {st : TimeSyncRuntime}

/-! ### What a step does to the clock and to the request -/

theorem consumed_spec {sender : Bytes} {resp : TimeSyncResponseFields} {now : Instant} {grants : SourceGrants}
    {pending : PendingTimeSyncRequest} (h : consumed cfg st sender resp now grants = some pending) :
    st.pendingRequest = some pending ∧ Answers cfg st sender resp now pending := by
  unfold consumed at h
  split at h
  · cases h
  rename_i pending' hpending
  split at h
  · rename_i hall
    cases h
    exact ⟨hpending, hall.1⟩
  · cases h

/-- The clock is left alone or steered at the instant, and the outstanding request stays or goes. -/
structure Settled (st : TimeSyncRuntime) (now : Instant) (st' : TimeSyncRuntime) : Prop where
  clock : st'.disciplinedClock = st.disciplinedClock ∨
    ∃ targetMs, st'.disciplinedClock = st.disciplinedClock.steerUnixMs now.nowNs targetMs
  pending : st'.pendingRequest = st.pendingRequest ∨ st'.pendingRequest = none

theorem settled_prune (st : TimeSyncRuntime) (now : Instant) : Settled st now (st.prune now) := ⟨.inl rfl, .inl rfl⟩

/-- What a step does to the clock and to the outstanding request: a poll may also send one, and a
response may consume it. -/
inductive Fate (cfg : TimeSyncConfig) (st : TimeSyncRuntime) (e : Event) (st' : TimeSyncRuntime) : Prop
  | settled (h : Settled st e.now st')
  | issued {steered : TimeSyncRuntime} {pending : PendingTimeSyncRequest} (h : Settled st e.now steered)
      (hclock : st'.disciplinedClock = steered.disciplinedClock) (hissues : Issues st e pending)
  | verified {sender : Bytes} {words : TelemetryResult (List ℕ)} {now : Instant} {grants : SourceGrants}
      {resp : TimeSyncResponseFields} {pending : PendingTimeSyncRequest} (he : e = .response sender words now grants)
      (hdecode : decodeTimesyncResponse words = .ok resp) (hpending : st.pendingRequest = some pending)
      (hanswers : Answers cfg st sender resp now pending)
      (hst : st' = commitResponse cfg (st.prune now) sender resp now pending)

/-- A poll and a refresh steer the clock to the leader at most. -/
theorem reconciled_settled (st : TimeSyncRuntime) (leader : Option TimeSyncLeader) (now : Instant) : Settled st now
    ((((st.prune now).refreshTracker now).reconcilePendingRequest leader now.nowMs).steerToLeader leader now) := by
  have hreconciled : Settled st now (((st.prune now).refreshTracker now).reconcilePendingRequest leader now.nowMs) ∧
      (((st.prune now).refreshTracker now).reconcilePendingRequest leader now.nowMs).disciplinedClock =
        st.disciplinedClock := by
    unfold reconcilePendingRequest
    dsimp only
    split
    · exact ⟨⟨.inl rfl, .inr rfl⟩, rfl⟩
    · exact ⟨⟨.inl rfl, .inl rfl⟩, rfl⟩
  obtain ⟨hsettled, hclock⟩ := hreconciled
  unfold steerToLeader
  split
  · exact hsettled
  · exact ⟨.inr ⟨_, by rw [hclock]⟩, hsettled.pending⟩

/-- An announcement touches neither the clock nor the outstanding request. -/
theorem announce_keeps (cfg : TimeSyncConfig) (st : TimeSyncRuntime) (priority : Option ℕ) (nowMs : ℕ) :
    (st.announce cfg priority nowMs).1.disciplinedClock = st.disciplinedClock ∧
      (st.announce cfg priority nowMs).1.pendingRequest = st.pendingRequest := by
  unfold announce
  split
  · exact ⟨rfl, rfl⟩
  · split <;> exact ⟨rfl, rfl⟩

theorem request_cases (cfg : TimeSyncConfig) (st : TimeSyncRuntime) (leader : Option TimeSyncLeader) (nowMs : ℕ) :
    (st.request cfg leader nowMs).1 = st ∨
    ∃ pending, (st.request cfg leader nowMs).1.disciplinedClock = st.disciplinedClock ∧
      (st.request cfg leader nowMs).1.pendingRequest = some pending ∧
      (st.request cfg leader nowMs).2 = some (pending.seq, pending.t1MonoMs) := by
  unfold request
  split
  · exact .inl rfl
  · split
    · exact .inr ⟨_, rfl, rfl, rfl⟩
    · exact .inl rfl

theorem poll_fate (now : Instant) : Fate cfg st (.poll now) (st.poll now).1 := by
  have hpoll : ∀ pending, (st.poll now).1.pendingRequest = some pending →
      (st.poll now).2.2 = some (pending.seq, pending.t1MonoMs) → Issues st (.poll now) pending :=
    fun pending hpending hrequest => ⟨now, rfl, hrequest, hpending⟩
  unfold poll at hpoll ⊢
  cases hcfg : st.cfg with
  | none => exact .settled (st.settled_prune now)
  | some c =>
    rw [hcfg] at hpoll
    dsimp only at hpoll ⊢
    generalize ((st.prune now).refreshTracker now).leader now = leader at hpoll ⊢
    generalize ((st.prune now).refreshTracker now).tracker.bind _ = priority at hpoll ⊢
    have hsettled := reconciled_settled st leader now
    generalize (((st.prune now).refreshTracker now).reconcilePendingRequest leader now.nowMs).steerToLeader
      leader now = steered at hpoll hsettled ⊢
    obtain ⟨hclock, hkept⟩ := announce_keeps c steered priority now.nowMs
    generalize steered.announce c priority now.nowMs = announced at hpoll hclock hkept ⊢
    obtain hsame | ⟨pending, hclock', hpending, hrequest⟩ := request_cases c announced.1 leader now.nowMs
    · refine .settled ⟨?_, ?_⟩
      · rw [hsame, hclock]
        exact hsettled.clock
      · rw [hsame, hkept]
        exact hsettled.pending
    · exact .issued hsettled (hclock'.trans hclock) (hpoll pending hpending hrequest)

theorem handleAnnounce_settled (sender : Bytes) (words : TelemetryResult (List ℕ)) (now : Instant)
    (grants : SourceGrants) : Settled st now (st.handleAnnounce sender words now grants) := by
  unfold handleAnnounce
  dsimp only
  split
  · split
    · unfold commitAnnounce
      dsimp only
      split
      · exact ⟨.inr ⟨_, rfl⟩, .inl rfl⟩
      · exact ⟨.inl rfl, .inl rfl⟩
    · exact st.settled_prune now
  · exact st.settled_prune now

theorem handleRequest_fst (words : TelemetryResult (List ℕ)) (now : Instant) :
    (st.handleRequest words now).1 = st.prune now := by
  unfold handleRequest
  dsimp only
  split
  · rfl
  · split
    · split <;> rfl
    · rfl

theorem step_fate (cfg : TimeSyncConfig) (st : TimeSyncRuntime) (e : Event) : Fate cfg st e (st.step cfg e) := by
  cases e with
  | poll now => exact poll_fate now
  | refresh now => exact .settled (reconciled_settled st _ now)
  | announce sender words now grants => exact .settled (handleAnnounce_settled sender words now grants)
  | request words now =>
    unfold step
    dsimp only
    rw [handleRequest_fst]
    exact .settled (st.settled_prune now)
  | response sender words now grants =>
    unfold step handleResponse
    dsimp only
    split
    · rename_i tracker resp htracker hdecode
      split
      · exact .settled (st.settled_prune now)
      · rename_i pending hconsumed
        obtain ⟨hpending, hanswers⟩ := consumed_spec hconsumed
        exact .verified rfl hdecode hpending { hanswers with } rfl
    · exact .settled (st.settled_prune now)
  | localTime now unixMs => exact .settled ⟨.inr ⟨unixMs, rfl⟩, .inl rfl⟩

theorem Settled.initialized {now : Instant} {st' : TimeSyncRuntime} (h : Settled st now st')
    (hinit : st.disciplinedClock.initialized = true) : st'.disciplinedClock.initialized = true := by
  obtain hclock | ⟨targetMs, hclock⟩ := h.clock
  · rw [hclock]
    exact hinit
  · rw [hclock]
    exact SlewedNetworkClock.steerUnixMs_initialized _ _

theorem Settled.reading {now : Instant} {st' : TimeSyncRuntime} (h : Settled st now st')
    (hinit : st.disciplinedClock.initialized = true) : st'.reading now = st.reading now := by
  unfold TimeSyncRuntime.reading
  obtain hclock | ⟨targetMs, hclock⟩ := h.clock
  · rw [hclock]
  · rw [hclock]
    exact SlewedNetworkClock.readUnixNs_steerUnixMs hinit _ _

theorem step_initialized (h : st.disciplinedClock.initialized = true) (e : Event) :
    (st.step cfg e).disciplinedClock.initialized = true := by
  cases step_fate cfg st e with
  | settled hsettled => exact hsettled.initialized h
  | issued hsettled hclock _ =>
    rw [hclock]
    exact hsettled.initialized h
  | verified _ _ _ _ hst =>
    rw [hst]
    exact SlewedNetworkClock.steerVerifiedResponseMs_initialized h _ _

theorem estimateMs_le (pending : PendingTimeSyncRequest) (resp : TimeSyncResponseFields) (now : Instant) :
    estimateMs pending resp now ≤ usizeMax := by
  exact Nat.min_le_right _ _

/-- Only a response to the outstanding request moves the reading. -/
theorem step_reading (h : st.disciplinedClock.initialized = true) (e : Event) :
    (st.step cfg e).reading e.now = st.reading e.now ∨ MovesForward cfg st e := by
  cases step_fate cfg st e with
  | settled hsettled => exact .inl (hsettled.reading h)
  | issued hsettled hclock _ =>
    unfold reading
    rw [hclock]
    exact .inl (hsettled.reading h)
  | @verified sender words now grants resp pending he hdecode hpending hanswers hst =>
    obtain hsame | ⟨x, hx, hlt, hmoved⟩ :=
      SlewedNetworkClock.readUnixNs_steerVerifiedResponseMs h now.nowNs (estimateMs_le pending resp now)
    · left
      rw [hst, he]
      exact hsame
    · refine .inr ⟨sender, words, now, grants, resp, pending, x, he, hdecode, hpending, hanswers, hx, hlt, ?_⟩
      rw [hst]
      exact hmoved

theorem Consumes.pending {e : Event} {pending : PendingTimeSyncRequest} (h : Consumes cfg st e pending) :
    st.pendingRequest = some pending ∧ (st.step cfg e).pendingRequest = none := by
  obtain ⟨sender, words, now, grants, resp, rfl, htracker, hdecode, hconsumed⟩ := h
  obtain ⟨tracker, htracker⟩ := Option.isSome_iff_exists.mp htracker
  refine ⟨(consumed_spec hconsumed).1, ?_⟩
  change (handleResponse cfg st sender words now grants).pendingRequest = none
  have hpruned : (st.prune now).tracker = some tracker := htracker
  unfold handleResponse
  dsimp only
  rw [hpruned, hdecode]
  dsimp only
  rw [hconsumed]
  rfl

theorem Issues.pending {e : Event} {pending : PendingTimeSyncRequest} (h : Issues st e pending) :
    (st.step cfg e).pendingRequest = some pending := by
  obtain ⟨now, rfl, -, hpending⟩ := h
  exact hpending

/-- The outstanding request stays, goes, or is one that a poll has just sent. -/
theorem step_pending (cfg : TimeSyncConfig) (st : TimeSyncRuntime) (e : Event) :
    (st.step cfg e).pendingRequest = st.pendingRequest ∨
    (st.step cfg e).pendingRequest = none ∨ ∃ pending, Issues st e pending := by
  cases step_fate cfg st e with
  | settled h => exact h.pending.imp_right .inl
  | issued _ _ hissues => exact .inr (.inr ⟨_, hissues⟩)
  | verified _ _ _ _ hst =>
    rw [hst]
    exact .inr (.inl rfl)

/-! ### Runs -/

/-- A request that is outstanding after a time with none has been sent since. -/
theorem issued_since {es : List Event} {i : ℕ} (hnone : (before (step cfg) st es i).pendingRequest = none) :
    ∀ d, i + d ≤ es.length → ∀ pending, (before (step cfg) st es (i + d)).pendingRequest = some pending →
      ∃ k e, i ≤ k ∧ k < i + d ∧ es[k]? = some e ∧ Issues (before (step cfg) st es k) e pending := by
  intro d
  induction d with
  | zero =>
    intro _ pending hpending
    cases hnone.symm.trans hpending
  | succ d ih =>
    intro hd pending hpending
    obtain ⟨e, he⟩ : ∃ e, es[i + d]? = some e := ⟨_, List.getElem?_eq_getElem (by omega)⟩
    rw [← Nat.add_assoc, before_succ he] at hpending
    have hearlier : (before (step cfg) st es (i + d)).pendingRequest = some pending →
        ∃ k e, i ≤ k ∧ k < i + (d + 1) ∧ es[k]? = some e ∧ Issues (before (step cfg) st es k) e pending := by
      intro hsame
      obtain ⟨k, e, hik, hkd, hissued⟩ := ih (by omega) pending hsame
      exact ⟨k, e, hik, by omega, hissued⟩
    obtain hsame | hgone | ⟨pending', hissues⟩ := step_pending cfg (before (step cfg) st es (i + d)) e
    · exact hearlier (hsame.symm.trans hpending)
    · cases hgone.symm.trans hpending
    · cases hissues.pending.symm.trans hpending
      exact ⟨i + d, e, by omega, by omega, he, hissues⟩

/-- **Challenge safety**: from an initialised clock on, no step changes what the clock reads at that
instant, except a response to the outstanding request, in time and from the leader, that moves the
reading forward by more than five seconds to the time it tells; and of two requests that are consumed,
the later one was sent after the earlier one was consumed. -/
theorem challenge_safety (cfg : TimeSyncConfig) (st : TimeSyncRuntime)
    (hinit : st.disciplinedClock.initialized = true) (es : List Event) : (∀ i e, es[i]? = some e →
      ((before (step cfg) st es i).step cfg e).reading e.now = (before (step cfg) st es i).reading e.now ∨
      MovesForward cfg (before (step cfg) st es i) e) ∧
    (∀ i j e e' pending pending', i < j → es[i]? = some e → es[j]? = some e' →
      Consumes cfg (before (step cfg) st es i) e pending → Consumes cfg (before (step cfg) st es j) e' pending' →
      ∃ k e'', i < k ∧ k < j ∧ es[k]? = some e'' ∧ Issues (before (step cfg) st es k) e'' pending') := by
  constructor
  · intro i e he
    refine step_reading ?_ e
    exact run_always (I := fun s : TimeSyncRuntime => s.disciplinedClock.initialized = true)
      (fun _ e h => step_initialized h e) hinit _
  · intro i j e e' pending pending' hij he he' hfirst hsecond
    have hnone : (before (step cfg) st es (i + 1)).pendingRequest = none := by
      rw [before_succ he]
      exact hfirst.pending.2
    obtain ⟨hj, -⟩ := List.getElem?_eq_some_iff.mp he'
    have hlater := hsecond.pending.1
    obtain ⟨d, rfl⟩ : ∃ d, j = i + 1 + d := ⟨j - (i + 1), by omega⟩
    obtain ⟨k, e'', hik, hkj, hissued⟩ := issued_since hnone d (by omega) pending' hlater
    exact ⟨k, e'', by omega, hkj, hissued⟩

/-- A consumer that has heard one announcement of the source `"A"`. -/
def follower : TimeSyncRuntime :=
  step .default (new (some .default) [0x42]) (.announce [0x41] (.ok [1, 1000000]) ⟨0, 0, none⟩ ⟨true, true, true⟩)

/-- A request, and a response eight hundred seconds ahead. -/
def exchangeAhead : List Event :=
  [.poll ⟨10, 10000000, none⟩, .response [0x41] (.ok [1, 10, 1800000, 1800000]) ⟨20, 20000000, none⟩ ⟨true, true, true⟩]

theorem challenge_safety_ahead : MovesForward .default (before (step .default) follower exchangeAhead 1)
      (.response [0x41] (.ok [1, 10, 1800000, 1800000]) ⟨20, 20000000, none⟩ ⟨true, true, true⟩) := by
  have h := (challenge_safety .default follower (by decide +kernel) exchangeAhead).1 1 _ rfl
  refine h.resolve_left ?_
  decide +kernel

end TimeSyncRuntime

end SedsNet
