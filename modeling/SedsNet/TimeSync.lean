import SedsNet.OrderedMap
import SedsNet.RouterItem

/-! # Time synchronization: sources, leaders and the slewed clock

The tracker of remote time sources (`TimeSyncTracker`), which elects a leader from the announcements
it has heard, and the clock that moves towards a target without a step (`SlewedNetworkClock`), both
from `timesync.rs`.

The `u64` values of the source are natural numbers here: they are compared, subtracted with
saturation and added with saturation only.  Nanoseconds on the Unix scale are integers, saturated as
`i128` is. -/

namespace SedsNet

open OrderedMap
open Std (ExtTreeMap)

/-! ### Configuration -/

inductive TimeSyncRole where
  | consumer
  | source
  | auto
deriving DecidableEq, Repr

structure TimeSyncConfig where
  role : TimeSyncRole
  /-- Lower values are preferred. -/
  priority : ℕ
  sourceTimeoutMs : ℕ
  announceIntervalMs : ℕ
  requestIntervalMs : ℕ
  consumerPromotionEnabled : Bool
  maxSlewPpm : ℕ
deriving DecidableEq

/-- The default configuration. -/
def TimeSyncConfig.default : TimeSyncConfig where
  role := .consumer
  priority := 100
  sourceTimeoutMs := 5000
  announceIntervalMs := 1000
  requestIntervalMs := 1000
  consumerPromotionEnabled := true
  maxSlewPpm := 50000

/-- A remote source, as its last announcement describes it. -/
structure TimeSyncSource where
  sender : Bytes
  priority : ℕ
  lastAnnounceMs : ℕ
  lastTimeMs : ℕ
deriving DecidableEq

inductive TimeSyncLeader where
  | localNode (priority : ℕ)
  | remote (source : TimeSyncSource)
deriving DecidableEq

/-! ### The tracker -/

structure TimeSyncTracker where
  cfg : TimeSyncConfig
  localId : Bytes
  sources : ExtTreeMap Bytes TimeSyncSource
  currentSource : Option Bytes

/-- The decoded fields of an announcement. -/
structure TimeSyncAnnounceFields where
  priority : ℕ
  timeMs : ℕ
deriving DecidableEq

namespace TimeSyncTracker

def new (cfg : TimeSyncConfig) (localId : Bytes) : TimeSyncTracker := ⟨cfg, localId, ∅, none⟩

def sourceIsActive (src : TimeSyncSource) (nowMs timeoutMs : ℕ) : Bool :=
  nowMs - src.lastAnnounceMs ≤ timeoutMs

/-- The order of sources: by priority, then by sender. -/
def sourceOrder : TimeSyncSource → TimeSyncSource → Ordering :=
  compareLex (compareOn TimeSyncSource.priority) (compareOn TimeSyncSource.sender)

variable (t : TimeSyncTracker) (nowMs : ℕ)

def activeSources : List TimeSyncSource :=
  (t.sources.toList.map Prod.snd).filter fun src => sourceIsActive src nowMs t.cfg.sourceTimeoutMs

def bestActiveSource : Option TimeSyncSource :=
  least sourceOrder (t.activeSources nowMs)

def localCandidatePriority (hasUsableTime : Bool) : Option ℕ :=
  match t.cfg.role with
  | .consumer =>
    if hasUsableTime && t.cfg.consumerPromotionEnabled && (t.bestActiveSource nowMs).isNone then
      some t.cfg.priority
    else none
  | .source => some t.cfg.priority
  | .auto => if hasUsableTime && (t.bestActiveSource nowMs).isNone then some t.cfg.priority else none

def leader (hasUsableTime : Bool) : Option TimeSyncLeader :=
  match t.localCandidatePriority nowMs hasUsableTime, t.bestActiveSource nowMs with
  | some priority, some remote =>
    if priority < remote.priority ∨ priority = remote.priority ∧ compare t.localId remote.sender = .lt then
      some (.localNode priority)
    else some (.remote remote)
  | some priority, none => some (.localNode priority)
  | none, some remote => some (.remote remote)
  | none, none => none

/-- The priority that a leader announces: one less than its own while a source has the same. -/
def localAnnouncePriority (hasUsableTime : Bool) : Option ℕ :=
  match t.leader nowMs hasUsableTime with
  | some (.localNode priority) =>
    some (if (t.activeSources nowMs).any fun src => src.priority == priority then priority - 1 else priority)
  | _ => none

def shouldServe (hasUsableTime : Bool) : Bool :=
  (t.localAnnouncePriority nowMs hasUsableTime).isSome

def reselectSource : TimeSyncTracker :=
  { t with currentSource := (t.bestActiveSource nowMs).map TimeSyncSource.sender }

/-- Stale sources are removed. -/
def refresh : TimeSyncTracker :=
  { t with sources := t.sources.filter fun _ src => sourceIsActive src nowMs t.cfg.sourceTimeoutMs
    }.reselectSource nowMs

/-- `prepare_source`: a new source needs an allocation, and `granted` is the answer to it. -/
def prepareSource (sender : Bytes) (granted : Bool) : TelemetryResult Unit :=
  if sender == t.localId || t.sources.contains sender || granted then .ok () else .error (.io "memory pressure")

/-- `commit_source`. -/
def commitSource (sender : Bytes) (ann : TimeSyncAnnounceFields) (recvMs : ℕ) : TimeSyncTracker :=
  if sender = t.localId then t
  else { t with sources := t.sources.insert sender ⟨sender, ann.priority, recvMs, ann.timeMs⟩
    }.reselectSource recvMs

end TimeSyncTracker

/-! ### The slewed clock -/

/-- The result of an `i128` operation that saturates. -/
def satI128 (x : ℤ) : ℤ := max (-2 ^ 127) (min (2 ^ 127 - 1) x)

/-- The negation of an `i128`, which wraps at its least value. -/
def negI128 (x : ℤ) : ℤ := if x = -2 ^ 127 then x else -x

structure SlewedNetworkClock where
  anchorMonoNs : ℕ
  anchorUnixNs : ℤ
  pendingAdjustNs : ℤ
  maxSlewPpm : ℕ
  initialized : Bool
deriving DecidableEq

namespace SlewedNetworkClock

def new (maxSlewPpm : ℕ) : SlewedNetworkClock := ⟨0, 0, 0, min maxSlewPpm 999999, false⟩

variable (c : SlewedNetworkClock)

/-- The part of the pending adjustment that has been applied after `elapsedNs`. -/
def appliedAdjustNs (elapsedNs : ℤ) : ℤ :=
  let maxAdjustNs := (satI128 (elapsedNs * c.maxSlewPpm)).tdiv 1000000
  if 0 ≤ c.pendingAdjustNs then min c.pendingAdjustNs maxAdjustNs
  else negI128 (min (negI128 c.pendingAdjustNs) maxAdjustNs)

def readUnixNs (nowMonoNs : ℕ) : Option ℤ :=
  if !c.initialized then none
  else
    let elapsedNs : ℤ := (nowMonoNs - c.anchorMonoNs : ℕ)
    some (satI128 (satI128 (c.anchorUnixNs + elapsedNs) + c.appliedAdjustNs elapsedNs))

def readUnixMs (nowMonoNs : ℕ) : Option ℕ :=
  match c.readUnixNs nowMonoNs with
  | none => none
  | some unixNs =>
    if unixNs < 0 then none
    else
      let unixMs := (unixNs.tdiv 1000000).toNat
      if unixMs < 2 ^ 64 then some unixMs else none

/-- `steer_unix_ms`: the reading stays, and what is missing to the target is pending. -/
def steerUnixMs (nowMonoNs targetUnixMs : ℕ) : SlewedNetworkClock :=
  let targetUnixNs : ℤ := targetUnixMs * 1000000
  match c.readUnixNs nowMonoNs with
  | none => { c with
      anchorMonoNs := nowMonoNs, anchorUnixNs := targetUnixNs, pendingAdjustNs := 0, initialized := true }
  | some currentUnixNs => { c with
      anchorMonoNs := nowMonoNs
      anchorUnixNs := currentUnixNs
      pendingAdjustNs := satI128 (targetUnixNs - currentUnixNs)
      initialized := true }

/-- `steer_verified_response_ms`: a step forward over more than five seconds. -/
def steerVerifiedResponseMs (nowMonoNs targetUnixMs : ℕ) : SlewedNetworkClock :=
  let targetNs : ℤ := targetUnixMs * 1000000
  if c.maxSlewPpm ≠ 0 ∧ (c.readUnixNs nowMonoNs).any (fun current => 5000000000 < satI128 (targetNs - current)) then
    { c with anchorMonoNs := nowMonoNs, anchorUnixNs := targetNs, pendingAdjustNs := 0 }
  else c.steerUnixMs nowMonoNs targetUnixMs

end SlewedNetworkClock

/-- `compute_network_time_sample`: the estimated network time and the delay. -/
def computeNetworkTimeSample (t1MonotonicMs t2NetworkMs t3NetworkMs t4MonotonicMs : ℕ) : ℕ × ℕ :=
  let roundTrip := t4MonotonicMs - t1MonotonicMs
  let serverProcessing := t3NetworkMs - t2NetworkMs
  let oneWayDelay := (roundTrip - serverProcessing) / 2
  (satAdd t3NetworkMs oneWayDelay, oneWayDelay)

end SedsNet
