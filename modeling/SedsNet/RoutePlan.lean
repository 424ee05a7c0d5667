import SedsNet.BreadthFirst
import SedsNet.EndToEnd
import SedsNet.TopologyBoards

/-! # Where a router sends an item

`remote_side_plan` of `router.rs`: the sides on which a router forwards an item that it has sent itself
or received from a side.  Discovery and time announcements go to every side that the policy allows,
a receipt goes back the way its packet came, and everything else goes where discovery has found its
endpoints, its targets, the owners of its network variable or its time source; the selection among
several such sides is by fan-out, weights, priorities or measured bandwidth.

Maps with compound keys are lists of entries.  The clock is read once for a plan. -/

namespace SedsNet

open Std (ExtTreeMap)
open BreadthFirst ByteCursor List

namespace DataType

def timeSyncAnnounce : DataType := 4
def timeSyncRequest : DataType := 5
def timeSyncResponse : DataType := 6

end DataType

/-! ### State -/

/-- The options of a side that the policy reads. -/
structure RouteSideOptions where
  ingressEnabled : Bool
  egressEnabled : Bool
  linkLocalEnabled : Bool
deriving DecidableEq

inductive RouteSelectionMode where
  | fanout
  | weighted
  | failover
deriving DecidableEq

inductive RouteSelectionOrigin where
  | flood
  | discovered
deriving DecidableEq

structure AdaptiveRouteStats where
  estimatedBandwidthBps : ℕ
  peakBandwidthBps : ℕ
  lastSlowObservedMs : ℕ
  sampleCount : ℕ
  windowStartedMs : ℕ
  windowBytes : ℕ
deriving DecidableEq

/-- `DiscoveryCandidateMatch`. -/
structure RouteCandidate where
  side : ℕ
  overlap : ℕ
deriving DecidableEq

structure RoutingState where
  sides : List (Option RouteSideOptions)
  routeOverrides : List ((Option ℕ × ℕ) × Bool)
  typedRouteOverrides : List ((Option ℕ × DataType × ℕ) × Bool)
  sourceRouteModes : List (Option ℕ × RouteSelectionMode)
  routeWeights : List ((Option ℕ × ℕ) × ℕ)
  routePriorities : List ((Option ℕ × ℕ) × ℕ)
  routeSelectionCursors : Option ℕ → UInt64
  adaptiveRouteStats : ExtTreeMap ℕ AdaptiveRouteStats
  /-- When a slow side may carry time synchronisation again. -/
  timesyncSideThrottle : ExtTreeMap ℕ ℕ
  discoveryRoutes : ExtTreeMap ℕ DiscoverySideState
  /-- The side that a reliable packet came from, by packet id. -/
  reliableReturnRoutes : ExtTreeMap UInt64 ℕ
  /-- The destinations that have acknowledged a packet. -/
  forwardedReceipts : Option (ExtTreeMap UInt64 (List UInt64))
  managedVariableTypes : List DataType

/-- What a plan reads that is fixed: the configuration, the registries and the time. -/
structure RoutingContext where
  env : WireEnv
  book : AddressBook
  sender : Bytes
  localServices : Bool
  handlerEndpoints : List DataEndpoint
  linkLocalOnly : DataEndpoint → Bool
  /-- The source that the time tracker follows. -/
  timesyncSource : Option Bytes
  nowMs : ℕ

namespace AdaptiveRouteStats

def currentUsageBps (s : AdaptiveRouteStats) (nowMs : ℕ) : ℕ :=
  if s.windowStartedMs = 0 then 0 else min (s.windowBytes * 1000 / max (nowMs - s.windowStartedMs) 1) usizeMax

def availableHeadroomBps (s : AdaptiveRouteStats) (nowMs : ℕ) : ℕ :=
  max (max s.estimatedBandwidthBps s.peakBandwidthBps) 1 - s.currentUsageBps nowMs

def weight (s : AdaptiveRouteStats) (nowMs : ℕ) : ℕ := max (s.availableHeadroomBps nowMs) 1

end AdaptiveRouteStats

namespace RoutingContext

/-! ### Items -/

def isInternalControlType (ty : DataType) : Bool :=
  ty == .reliableAck || ty == .reliablePartialAck || ty == .reliablePacketRequest || ty == .p2pMessage ||
    ty == .timeSyncAnnounce || ty == .timeSyncRequest || ty == .timeSyncResponse || isDiscoveryType ty

def forceRemoteForType (ty : DataType) : Bool :=
  ty == .reliableAck || ty == .reliablePartialAck || ty == .reliablePacketRequest || ty == .p2pMessage ||
    ty == .timeSyncAnnounce || ty == .timeSyncRequest || ty == .timeSyncResponse

variable (ctx : RoutingContext)

/-- `Packet::validate`; the structure has the other two checks. -/
def validate (pkt : Packet) : TelemetryResult Unit :=
  validatePayloadAgainstElement ctx.env.reg (pkt.wireShape.getD (ctx.env.reg.messageMeta pkt.ty).element) pkt.payload

/-- The endpoints of an item, without repeats, and its type. -/
def itemRouteInfo : RouterItem → TelemetryResult (List DataEndpoint × DataType)
  | .packet pkt => do
      ctx.validate pkt
      return (sortDedup pkt.endpoints, pkt.ty)
  | .packed bytes => do
      let env ← peekRoutingEnvelope ctx.env bytes
      return (sortDedup env.endpoints, env.ty)

def itemTargetSenders (data : RouterItem) : TelemetryResult (List UInt64) :=
  data.targetSenders ctx.env

def endpointIsRouterInternal (ep : DataEndpoint) : Bool := ep == timeSyncEndpoint || isDiscoveryEndpoint ep

def isLocalEndpoint (ep : DataEndpoint) : Bool :=
  !endpointIsRouterInternal ep && ctx.handlerEndpoints.contains ep

def hasNonlocalEndpoint (eps : List DataEndpoint) : Bool :=
  eps.any fun ep => !ctx.isLocalEndpoint ep

/-- This router is a target, but only as a hop to owners behind it. -/
def targetsRouterAsIntermediateHop (data : RouterItem) (eps : List DataEndpoint) :
    TelemetryResult Bool := do
  let ty ← data.dataType ctx.env
  let targets ← ctx.itemTargetSenders data
  return !targets.isEmpty && !isInternalControlType ty && targets.contains (senderHash ctx.sender) &&
    !eps.any fun ep => ctx.handlerEndpoints.contains ep

def isEndToEndAckPacket (pkt : Packet) : Bool :=
  (endToEndAckSenderHash pkt).isSome && (decodeEndToEndReliableAck pkt.payload).isOk

/-- The packet that an end-to-end acknowledgement is for. -/
def ackTarget (pkt : Packet) : TelemetryResult (Option UInt64) :=
  if isEndToEndAckPacket pkt then (decodeEndToEndReliableAck pkt.payload).map some else .ok none

/-- A frame of another type, or a hop-level acknowledgement. -/
def isNoEndToEndAck (info : RoutingFrameInfo) : Bool :=
  info.envelope.ty != .reliableAck || info.reliable.any fun r => r.flags &&& reliableFlagAckOnly != 0

/-- `reliable_control_target_packet_id`. -/
def reliableControlTargetPacketId : RouterItem → TelemetryResult (Option UInt64)
  | .packet pkt => ackTarget pkt
  | .packed bytes =>
    match peekRoutingFrameInfo ctx.env bytes with
    | .ok info =>
      if isNoEndToEndAck info then .ok none
      else do
        let pkt ← unpackPacket ctx.env ctx.book bytes
        ackTarget pkt
    | .error _ => do
        let pkt ← unpackPacket ctx.env ctx.book bytes
        ackTarget pkt

def endpointsAreLinkLocalOnly (eps : List DataEndpoint) : Bool :=
  !eps.isEmpty && eps.all ctx.linkLocalOnly

end RoutingContext

/-! ### Policy -/

namespace RoutingState

open RoutingContext

variable (ctx : RoutingContext) (st : RoutingState) (data : RouterItem) (src : Option ℕ) (ty : DataType)

def sideOptions (side : ℕ) : Option RouteSideOptions := (st.sides[side]?).join

def defaultRouteEnabled (dst : ℕ) : Bool := src != some dst

/-- A source side has to exist and to be enabled for ingress. -/
def ingressAllowed : Option ℕ → Bool
  | none => true
  | some src => (st.sideOptions src).any RouteSideOptions.ingressEnabled

def hasTypedRouteOverrides : Bool :=
  st.typedRouteOverrides.any fun e => e.1.1 == src && e.1.2.1 == ty

/-- The overrides of a type are a list of what it may use, once there are any. -/
def typedRouteAllowed (dst : ℕ) : Bool :=
  if st.hasTypedRouteOverrides src ty then (st.typedRouteOverrides.lookup (src, ty, dst)).getD false else true

/-- `route_allowed_locked`. -/
def routeAllowed (dst : ℕ) : Bool :=
  match st.sideOptions dst with
  | none => false
  | some opts =>
    if !opts.egressEnabled then false
    else if !st.ingressAllowed src then false
    else if !(st.routeOverrides.lookup (src, dst)).getD (defaultRouteEnabled src dst) then false
    else st.typedRouteAllowed src ty dst

/-- The sides that link-local traffic may use. -/
def linkLocalAllowed (restrictLinkLocal : Bool) (side : ℕ) : Bool :=
  !restrictLinkLocal || (st.sideOptions side).any RouteSideOptions.linkLocalEnabled

/-- `eligible_side_ids_locked`. -/
def eligibleSideIds (restrictLinkLocal : Bool) : List ℕ :=
  (List.range st.sides.length).filter fun side =>
    (st.sideOptions side).isSome && st.linkLocalAllowed restrictLinkLocal side && st.routeAllowed src ty side

def hasExplicitRoutePolicy : Bool :=
  (st.routeOverrides.any fun e => e.1.1 == src) || st.hasTypedRouteOverrides src ty

/-! ### Time synchronisation on slow links -/

def isTimesyncType : Bool :=
  ty == .timeSyncAnnounce || ty == .timeSyncRequest || ty == .timeSyncResponse

def sideIsSlowControlLink (side nowMs : ℕ) : Bool :=
  (st.adaptiveRouteStats[side]?).any fun stats =>
    let recentSlow := decide (0 < stats.lastSlowObservedMs ∧ nowMs - stats.lastSlowObservedMs ≤ 120000)
    decide (0 < stats.sampleCount) &&
      (decide (0 < stats.estimatedBandwidthBps ∧ stats.estimatedBandwidthBps ≤ 512) || recentSlow)

def timesyncAllowedForSide (nowMs side : ℕ) : Bool :=
  if !isTimesyncType ty then true
  else if !st.sideIsSlowControlLink side nowMs then true
  else (st.timesyncSideThrottle[side]?).all fun nextAllowedMs => decide (nextAllowedMs ≤ nowMs)

/-- `filter_timesync_sides_locked`; a query of reachability does not ask. -/
def filterTimesyncSides (nowMs : ℕ) (selectRoutes : Bool) (sides : List ℕ) : List ℕ :=
  if selectRoutes then sides.filter (st.timesyncAllowedForSide ty nowMs) else sides

def filterTimesyncMatches (nowMs : ℕ) (selectRoutes : Bool)
    (candidates : List RouteCandidate) : List RouteCandidate :=
  if selectRoutes then candidates.filter fun c => st.timesyncAllowedForSide ty nowMs c.side else candidates

/-! ### Selection -/

def routeWeight (side : ℕ) : ℕ := (st.routeWeights.lookup (src, side)).getD 1

def routePriority (side : ℕ) : ℕ := (st.routePriorities.lookup (src, side)).getD 0

def adaptiveWeight (nowMs side : ℕ) : ℕ :=
  ((st.adaptiveRouteStats[side]?).map fun stats => stats.weight nowMs).getD 1

/-- The cursor of a source moves on by one. -/
def advanceCursor : RoutingState :=
  { st with routeSelectionCursors :=
      Function.update st.routeSelectionCursors src (st.routeSelectionCursors src + 1) }

/-- The side whose share of the total weight holds the number. -/
def pickWeighted (weight : ℕ → ℕ) : (remaining : ℕ) → List ℕ → List ℕ
  | _, [] => []
  | remaining, side :: sides =>
    if remaining < weight side then [side] else pickWeighted weight (remaining - weight side) sides

/-- The sum of the weights, in the 64 bits of the source. -/
def totalWeight (weight : ℕ → ℕ) (sides : List ℕ) : ℕ := sides.foldl (fun acc side => wrapAdd acc (weight side)) 0

def sortSides (sides : List ℕ) : List ℕ := sides.insertionSort (· ≤ ·)

/-- `apply_adaptive_discovery_selection_locked`: sides that have not been measured take turns, the others
share by what they have left. -/
def applyAdaptiveSelection (nowMs : ℕ) (src : Option ℕ) (sides : List ℕ) : List ℕ × RoutingState :=
  let sides := sortSides sides
  let unmeasured := sides.filter fun side => side ∉ st.adaptiveRouteStats
  let cursor := (st.routeSelectionCursors src).toNat
  if !unmeasured.isEmpty then ((unmeasured[cursor % unmeasured.length]?).toList, st.advanceCursor src)
  else
    let total := totalWeight (st.adaptiveWeight nowMs) sides
    if total = 0 then (sides.take 1, st)
    else (pickWeighted (st.adaptiveWeight nowMs) (cursor % total) sides, st.advanceCursor src)

def applyWeightedSelection (sides : List ℕ) : List ℕ × RoutingState :=
  let sides := sortSides sides
  let total := totalWeight (st.routeWeight src) sides
  if total = 0 then ([], st)
  else
    (pickWeighted (st.routeWeight src) ((st.routeSelectionCursors src).toNat % total) sides, st.advanceCursor src)

/-- The side of the smaller priority, or of the smaller id. -/
def better (best side : ℕ) : ℕ :=
  if st.routePriority src side < st.routePriority src best ∨
      (st.routePriority src side = st.routePriority src best ∧ side < best) then side
  else best

def applyFailoverSelection : List ℕ → List ℕ
  | [] => []
  | side :: sides => [sides.foldl (st.better src) side]

/-- `apply_route_selection_locked`. -/
def applyRouteSelection (nowMs : ℕ) (src : Option ℕ) (sides : List ℕ)
    (origin : RouteSelectionOrigin) : List ℕ × RoutingState :=
  if sides.length ≤ 1 then (sides, st)
  else
    match st.sourceRouteModes.lookup src, origin with
    | none, .discovered => st.applyAdaptiveSelection nowMs src sides
    | none, .flood => (sides, st)
    | some .fanout, _ => (sides, st)
    | some .weighted, _ => st.applyWeightedSelection src sides
    | some .failover, _ => (st.applyFailoverSelection src sides, st)

/-! ### Receipts that have come back -/

/-- The bytes of `"E2EACK"`. -/
def endToEndAckSender : Bytes := [0x45, 0x32, 0x45, 0x41, 0x43, 0x4B]

def isEndToEndAckSender (sender : Bytes) : Bool :=
  sender == endToEndAckSender || sender.take endToEndAckMarker.length == endToEndAckMarker

def isEndToEndDestinationSender (sender : Bytes) : Bool :=
  sender != ctx.sender && !isEndToEndAckSender sender

/-- The destinations that discovery has found behind a side. -/
def destinationBoards (route : DiscoverySideState) : List TopologyBoardNode :=
  ((route.liveAnnouncers ctx.nowMs).flatMap fun p => p.2.topologyBoards).filter fun b =>
    isEndToEndDestinationSender ctx b.senderId

/-- A destination behind the side has not acknowledged, or none is known. -/
def sidePending (acked : List UInt64) (side : ℕ) : Bool :=
  match st.discoveryRoutes[side]? with
  | none => true
  | some route =>
    let boards := destinationBoards ctx route
    (boards.any fun b => !acked.contains (senderHash b.senderId)) || boards.isEmpty

def itemPacketId : RouterItem → Option UInt64
  | .packet pkt => some pkt.packetId
  | .packed bytes => (packetIdFromWire ctx.env bytes).toOption

def isReceipt : Bool :=
  match ctx.reliableControlTargetPacketId data with
  | .ok (some _) => true
  | _ => false

/-- `filter_end_to_end_satisfied_sides_locked`. -/
def filterEndToEndSatisfiedSides (sides : List ℕ) : List ℕ :=
  if !ctx.env.reg.isReliableType ty || isReceipt ctx data then sides
  else
    match (itemPacketId ctx data).bind fun id => st.forwardedReceipts.bind fun cache => cache[id]? with
    | none => sides
    | some acked => sides.filter (sidePending ctx st acked)

/-- The closure `select_sides`. -/
def selectSides (exclude : Option ℕ) (selectRoutes : Bool) (sides : List ℕ)
    (origin : RouteSelectionOrigin) : List ℕ × RoutingState :=
  let sides := st.filterEndToEndSatisfiedSides ctx data ty sides
  if selectRoutes then st.applyRouteSelection ctx.nowMs exclude sides origin else (sides, st)

/-! ### Candidates of discovery -/

/-- The peer, its address or a board behind it is a target. -/
def senderMatchesTargets (targets : List UInt64) (p : Bytes × DiscoverySenderState) : Bool :=
  targets.contains (senderHash p.1) || (p.2.advertisedAddress.any fun address => targets.contains address.toUInt64) ||
    p.2.topologyBoards.any fun b => targets.contains (senderHash b.senderId)

/-- `side_matches_target_senders_locked`. -/
def sideMatchesTargetSenders (side : ℕ) (targets : List UInt64) : Bool :=
  (st.discoveryRoutes[side]?).any fun route =>
    discoveryFresh ctx.nowMs route.lastSeenMs && (route.liveAnnouncers ctx.nowMs).any (senderMatchesTargets targets)

/-- A target is behind some side, whether or not the policy allows the side. -/
def targetKnown (targets : List UInt64) : Bool :=
  !targets.isEmpty && st.discoveryRoutes.keys.any fun side => st.sideMatchesTargetSenders ctx side targets

/-- A side other than the excluded one owns the network variable. -/
def hasVariableOwner (exclude : Option ℕ) (ty : DataType) : Bool :=
  st.discoveryRoutes.toList.any fun p =>
    decide (exclude ≠ some p.1) && discoveryFresh ctx.nowMs p.2.lastSeenMs && p.2.reachableNetworkVariables.contains ty

def endpointOverlapCount (reachable eps : List DataEndpoint) : ℕ := (reachable.filter fun ep => eps.contains ep).length

/-- Endpoints that are not local count, when there are any and they are preferred. -/
def preferredScoringEndpoints (eps : List DataEndpoint) (preferNonlocal : Bool) : List DataEndpoint :=
  if !preferNonlocal || eps.all (fun ep => !ctx.isLocalEndpoint ep) then eps
  else
    let nonlocal := eps.filter fun ep => !ctx.isLocalEndpoint ep
    if nonlocal.isEmpty then eps else nonlocal

/-- What the search for candidates reads of the item. -/
structure RouteQuery where
  exclude : Option ℕ
  ty : DataType
  eps : List DataEndpoint
  targets : List UInt64
  preferNonlocal : Bool
  timesyncSource : Option Bytes

/-- The sides that the search looks at. -/
def candidateAllowed (q : RouteQuery) (p : ℕ × DiscoverySideState) : Bool :=
  decide (q.exclude ≠ some p.1) && discoveryFresh ctx.nowMs p.2.lastSeenMs &&
    st.linkLocalAllowed (ctx.endpointsAreLinkLocalOnly q.eps) p.1 && st.routeAllowed q.exclude q.ty p.1

/-- Why a side is a candidate: its targets, its network variable, its time source or its endpoints. -/
def candidateOverlap (q : RouteQuery) (p : ℕ × DiscoverySideState) : ℕ :=
  if !q.targets.isEmpty then if st.sideMatchesTargetSenders ctx p.1 q.targets then usizeMax else 0
  else if st.hasVariableOwner ctx q.exclude q.ty then
    if p.2.reachableNetworkVariables.contains q.ty then usizeMax else 0
  else if q.timesyncSource.any fun source => p.2.reachableTimesyncSources.contains source then usizeMax
  else endpointOverlapCount p.2.reachable (preferredScoringEndpoints ctx q.eps q.preferNonlocal)

/-- A side that does not match the targets but reaches the endpoints. -/
def endpointFallback (q : RouteQuery) (p : ℕ × DiscoverySideState) : Bool :=
  !st.sideMatchesTargetSenders ctx p.1 q.targets &&
    (preferredScoringEndpoints ctx q.eps q.preferNonlocal).any fun ep => p.2.reachable.contains ep

/-- `discovered_route_candidates_locked`. -/
def discoveredRouteCandidates (q : RouteQuery) : List RouteCandidate :=
  let allowed := st.discoveryRoutes.toList.filter (st.candidateAllowed ctx q)
  let out := (allowed.filter fun p => decide (0 < st.candidateOverlap ctx q p)).map fun p =>
    (⟨p.1, st.candidateOverlap ctx q p⟩ : RouteCandidate)
  if !q.targets.isEmpty && out.isEmpty then
    match allowed.filter (st.endpointFallback ctx q) with
    | [p] => [⟨p.1, usizeMax⟩]
    | _ => []
  else out

/-! ### Shortest paths -/

/-- The boards that a board of the topology is connected to, in either direction. -/
def boardNeighbours (visited : List Bytes) (sender : Bytes) (b : TopologyBoardNode) : List Bytes :=
  if b.senderId = sender then b.connections.filter fun peer => peer ∉ visited
  else if b.connections.contains sender ∧ b.senderId ∉ visited then [b.senderId]
  else []

/-- The breadth-first search for a target, from the boards that are waiting. -/
def searchBoards (boards : List TopologyBoardNode) (isTarget : TopologyBoardNode → Bool) :
    (fuel : ℕ) → (visited : List Bytes) → (pending : List (Bytes × ℕ)) → Option ℕ
  | 0, _, _ => none
  | _, _, [] => none
  | fuel + 1, visited, (sender, distance) :: pending =>
    if sender ∈ visited then searchBoards boards isTarget fuel visited pending
    else if boards.any fun b => b.senderId == sender && isTarget b then some distance
    else
      searchBoards boards isTarget fuel (sender :: visited)
        (pending ++ (boards.flatMap (boardNeighbours (sender :: visited) sender)).map fun peer => (peer, distance + 1))

/-- The number of names in a topology. -/
def topologySize (boards : List TopologyBoardNode) : ℕ := (boards.map fun b => b.connections.length + 1).sum

/-- The length of the shortest path from a peer to a board that is a target. -/
def boardDistance (boards : List TopologyBoardNode) (isTarget : TopologyBoardNode → Bool) (announcer : Bytes) :
    Option ℕ :=
  searchBoards boards isTarget ((topologySize boards + 1) * topologySize boards + 2) [] [(announcer, 0)]

/-- What a board can still add to a search: its connections, and itself from each of them. -/
def boardWork (visited : List Bytes) (b : TopologyBoardNode) : ℕ :=
  (if b.senderId ∈ visited then 0 else b.connections.length) + (b.connections.filter fun peer => peer ∉ visited).length

/-- What a search may still have to do. -/
def searchWork (boards : List TopologyBoardNode) (visited : List Bytes) (pending : List (Bytes × ℕ)) : ℕ :=
  (boards.map (boardWork visited)).sum + pending.length

variable {visited : List Bytes} {sender : Bytes}

theorem filter_unseen_cons (names : List Bytes) : (names.filter fun name => name ∉ sender :: visited) =
    (names.filter fun name => name ∉ visited).filter fun name => name ≠ sender := by
  rw [filter_filter]
  apply filter_congr
  simp

/-- What is added for a name that is seen for the first time has been counted. -/
theorem boardWork_visit (hnew : sender ∉ visited) (b : TopologyBoardNode) :
    boardWork (sender :: visited) b + (boardNeighbours (sender :: visited) sender b).length ≤ boardWork visited b := by
  unfold boardNeighbours boardWork
  rw [filter_unseen_cons]
  have hfewer := length_filter_le (fun name => name ≠ sender) (b.connections.filter fun peer => peer ∉ visited)
  by_cases hsender : b.senderId = sender
  · rw [if_pos hsender, if_pos (by simp [hsender]), if_neg (by rwa [hsender])]
    have hall := length_filter_le (fun peer => peer ∉ visited) b.connections
    omega
  · have hsame : b.senderId ∈ sender :: visited ↔ b.senderId ∈ visited := by simp [hsender]
    simp only [if_neg hsender, hsame]
    by_cases hedge : b.connections.contains sender ∧ b.senderId ∉ visited
    · -- the name itself is not counted again
      have hless : ((b.connections.filter fun peer => peer ∉ visited).filter fun name => name ≠ sender).length <
          (b.connections.filter fun peer => peer ∉ visited).length :=
        length_filter_lt_length_iff_exists.mpr ⟨sender, by simpa [hnew] using hedge.1, by simp⟩
      rw [if_pos hedge, length_singleton]
      omega
    · rw [if_neg hedge]
      exact Nat.add_le_add_left hfewer _

/-- What is done with a name that is seen for the first time is less than it was. -/
theorem searchWork_visit (boards : List TopologyBoardNode) (distance : ℕ)
    (pending : List (Bytes × ℕ)) (hnew : sender ∉ visited) :
    searchWork boards (sender :: visited)
        (pending ++ (boards.flatMap (boardNeighbours (sender :: visited) sender)).map fun peer => (peer, distance + 1)) <
      searchWork boards visited ((sender, distance) :: pending) := by
  have hboards : (boards.map (boardWork (sender :: visited))).sum +
      (boards.flatMap (boardNeighbours (sender :: visited) sender)).length ≤ (boards.map (boardWork visited)).sum := by
    rw [length_flatMap, ← sum_map_add]
    exact sum_le_sum fun b _ => boardWork_visit hnew b
  unfold searchWork
  rw [length_append, length_map, length_cons]
  omega

variable (boards : List TopologyBoardNode) (isTarget : TopologyBoardNode → Bool)

/-- A board of that name is a target. -/
def isTargetName (name : Bytes) : Bool :=
  boards.any fun b => b.senderId == name && isTarget b

/-- One of the boards lists the other one as a connection. -/
def Adjacent (a b : Bytes) : Prop :=
  ∃ board ∈ boards, board.senderId = a ∧ b ∈ board.connections ∨ board.senderId = b ∧ a ∈ board.connections

/-- The lengths of the paths to a target. -/
def targetDistances (announcer : Bytes) : Set ℕ :=
  {n | ∃ name, isTargetName boards isTarget name = true ∧ Walk (Adjacent boards) [] n announcer name}

variable {boards isTarget} {announcer : Bytes}

theorem mem_boardNeighbours (peer : Bytes) : peer ∈ boards.flatMap (boardNeighbours (sender :: visited) sender) ↔
    Adjacent boards sender peer ∧ peer ∉ sender :: visited := by
  have hone : ∀ board : TopologyBoardNode, peer ∈ boardNeighbours (sender :: visited) sender board ↔
      (board.senderId = sender ∧ peer ∈ board.connections ∨ board.senderId = peer ∧ sender ∈ board.connections) ∧
        peer ∉ sender :: visited := by
    intro board
    unfold boardNeighbours
    grind
  simp only [mem_flatMap, hone, Adjacent, ← and_assoc, exists_and_right]

/-- With fuel for all the work the search finds a nearest target. -/
theorem searchBoards_eq_some {fuel : ℕ} {pending : List (Bytes × ℕ)}
    (h : Search (Adjacent boards) (isTargetName boards isTarget · = true) announcer visited pending)
    (hfuel : searchWork boards visited pending < fuel) (d : ℕ) :
    searchBoards boards isTarget fuel visited pending = some d ↔ IsLeast (targetDistances boards isTarget announcer) d := by
  induction fuel generalizing visited pending with
  | zero => exact absurd hfuel (Nat.not_lt_zero _)
  | succ fuel ih =>
    cases pending with
    | nil =>
      refine iff_of_false nofun ?_
      rintro ⟨⟨name, htarget, hwalk⟩, -⟩
      obtain ⟨p, hp, -⟩ := h.covers htarget hwalk
      exact absurd hp not_mem_nil
    | cons first pending =>
      obtain ⟨sender, distance⟩ := first
      unfold searchBoards
      split
      case isTrue hseen =>
        have hless : searchWork boards visited pending < searchWork boards visited ((sender, distance) :: pending) :=
          Nat.lt_succ_self _
        exact ih (h.skip hseen) (by omega)
      case isFalse hnew =>
        have hless := searchWork_visit boards distance pending hnew
        split
        case isTrue htarget =>
          have hfound := h.found htarget
          refine ⟨fun heq => ?_, fun hleast => congrArg some (hfound.unique hleast)⟩
          cases heq
          exact hfound
        case isFalse hmiss => exact ih (h.visit hmiss mem_boardNeighbours) (by omega)

theorem sum_boardWork_nil (boards : List TopologyBoardNode) :
    (boards.map (boardWork [])).sum ≤ 2 * topologySize boards := by
  rw [topologySize, ← sum_map_mul_left]
  refine sum_le_sum fun b _ => ?_
  simp [boardWork]
  omega

/-- **Shortest paths**: the distance is the least number of connections that lead from the announcer to a
target, and there is none only where no target can be reached: the search never runs out of fuel. -/
theorem board_distance_shortest :
    (∀ d, boardDistance boards isTarget announcer = some d ↔ IsLeast (targetDistances boards isTarget announcer) d) ∧
      (boardDistance boards isTarget announcer = none ↔ targetDistances boards isTarget announcer = ∅) := by
  have hfuel : searchWork boards [] [(announcer, 0)] < (topologySize boards + 1) * topologySize boards + 2 := by
    have hboards := sum_boardWork_nil boards
    have hsquare := Nat.le_mul_self (topologySize boards)
    unfold searchWork
    rw [length_singleton, Nat.succ_mul]
    omega
  have hsome : ∀ d, boardDistance boards isTarget announcer = some d ↔ _ := searchBoards_eq_some search_start hfuel
  refine ⟨hsome, fun hnone => ?_, fun hempty => Option.eq_none_iff_forall_ne_some.mpr fun d hd => ?_⟩
  · by_contra hreached
    have hleast := (hsome _).mpr ⟨Nat.sInf_mem (Set.nonempty_iff_ne_empty.mpr hreached), fun _ => Nat.sInf_le⟩
    rw [hleast] at hnone
    cases hnone
  · have hmem := ((hsome d).mp hd).1
    rw [hempty] at hmem
    exact hmem

variable (exclude : Option ℕ) (eps : List DataEndpoint)

def isRouteTarget (target : Option UInt64) (b : TopologyBoardNode) : Bool :=
  match target with
  | some hash => senderHash b.senderId == hash
  | none => eps.any fun ep => b.reachableEndpoints.contains ep

/-- The distance through one peer. -/
def announcerDistance (target : Option UInt64) (p : Bytes × DiscoverySenderState) : Option ℕ :=
  if p.2.topologyBoards.any (isRouteTarget eps target) then
    boardDistance p.2.topologyBoards (isRouteTarget eps target) p.1
  else
    match target with
    | some hash => if p.2.topologyBoards.any fun b => senderHash b.senderId == hash then some (usizeMax / 2) else none
    | none => if p.2.reachable.any fun ep => eps.contains ep then some (usizeMax / 2) else none

/-- The closure `route_distance`. -/
def routeDistance (target : Option UInt64) (side : ℕ) : Option ℕ :=
  match st.discoveryRoutes[side]? with
  | none => none
  | some route => ((route.liveAnnouncers ctx.nowMs).filterMap (announcerDistance eps target)).min?

/-- The candidates that are nearest to a target. -/
def nearestSides (candidates : List RouteCandidate) (target : Option UInt64) : List ℕ :=
  let distances := candidates.filterMap fun c => (st.routeDistance ctx eps target c.side).map fun d => (c.side, d)
  match (distances.map Prod.snd).min? with
  | none => []
  | some best => (distances.filter fun d => d.2 == best).map Prod.fst

/-- `retain_shortest_discovery_candidates_locked`. -/
def retainShortest (candidates : List RouteCandidate) (eps : List DataEndpoint)
    (targets : List UInt64) : List RouteCandidate :=
  if candidates.length ≤ 1 ∨ eps.isEmpty then candidates
  else
    let routeTargets := if targets.isEmpty then [none] else targets.map some
    let selected := routeTargets.flatMap (st.nearestSides ctx eps candidates)
    if selected.isEmpty then candidates else candidates.filter fun c => selected.contains c.side

/-! ### Selection among candidates -/

/-- The sides for one more endpoint, unless one that is selected covers it. -/
def selectRole (candidates : List RouteCandidate) (acc : List ℕ × RoutingState)
    (ep : DataEndpoint) : List ℕ × RoutingState :=
  let st := acc.2
  let able := candidates.filter fun c => (st.discoveryRoutes[c.side]?).any fun route => route.reachable.contains ep
  let able := st.retainShortest ctx able [ep] []
  if able.any fun c => acc.1.contains c.side then acc
  else
    let (sides, st) := st.applyRouteSelection ctx.nowMs exclude (able.map RouteCandidate.side) .discovered
    (pushMissing acc.1 sides, st)

/-- `select_endpoint_role_sides_locked`. -/
def selectEndpointRoleSides (candidates : List RouteCandidate) : List ℕ × RoutingState :=
  eps.foldl (selectRole ctx exclude candidates) ([], st)

/-- Exact matches take precedence over endpoints, and where it is preferred the best overlap. -/
def bestCandidates (preferBestOverlap : Bool) (candidates : List RouteCandidate) : List RouteCandidate :=
  let candidates :=
    if candidates.any fun c => c.overlap == usizeMax then candidates.filter fun c => c.overlap == usizeMax
    else candidates
  if preferBestOverlap then
    let best := (candidates.map RouteCandidate.overlap).max?.getD 0
    candidates.filter fun c => c.overlap == best
  else candidates

/-- A side owns the network variable. -/
def ownsVariable (side : ℕ) : Bool :=
  (st.discoveryRoutes[side]?).any fun route => route.reachableNetworkVariables.contains ty

/-- `select_discovered_candidate_sides_locked`. -/
def selectDiscoveredCandidateSides (targets : List UInt64) (preferBestOverlap : Bool)
    (candidates : List RouteCandidate) :
    List ℕ × RoutingState :=
  let origin : RouteSelectionOrigin :=
    if st.hasTypedRouteOverrides exclude ty || !targets.isEmpty ||
        (!ctx.localServices && ctx.env.reg.isReliableType ty) then .flood
    else .discovered
  let selected := (bestCandidates preferBestOverlap candidates).map RouteCandidate.side
  let selected :=
    if st.forwardedReceipts.isSome && ctx.env.reg.isReliableType ty then
      st.filterEndToEndSatisfiedSides ctx data ty selected
    else selected
  if selected.any (st.ownsVariable ty) then (selected, st)
  else st.applyRouteSelection ctx.nowMs exclude selected origin

/-! ### Plans -/

/-- The managed role with which a frame is unpacked. -/
def unpackRole (bytes : Bytes) : Bool :=
  ctx.env.probe.supportsWorkKinds &&
    (schedulingType bytes).any fun ty => !isInternalControlType ty && st.managedVariableTypes.contains ty

def packetTimesyncSource (pkt : Packet) : Option Bytes :=
  if ty = .timeSyncRequest then if pkt.sender = ctx.sender then ctx.timesyncSource else none
  else some pkt.sender

/-- `preferred_timesync_route_source`. -/
def preferredTimesyncRouteSource : TelemetryResult (Option Bytes) :=
  if !isTimesyncType ty then .ok none
  else
    match data with
    | .packet pkt => .ok (packetTimesyncSource ctx ty pkt)
    | .packed bytes => do
        let pkt ← unpackPacketWithRole ctx.env ctx.book bytes (st.unpackRole ctx bytes)
        return packetTimesyncSource ctx ty pkt

/-- What a plan has read of its item. -/
structure PlanItem where
  data : RouterItem
  exclude : Option ℕ
  selectRoutes : Bool
  eps : List DataEndpoint
  ty : DataType
  /-- The targets that the item is routed to. -/
  targets : List UInt64

/-- Discovery and time announcements go to every side but the one they came from. -/
def planFlood (item : PlanItem) : List ℕ × RoutingState :=
  let sides := st.eligibleSideIds item.exclude item.ty false
  let sides :=
    if isDiscoveryType item.ty then sides else st.filterTimesyncSides item.ty ctx.nowMs item.selectRoutes sides
  st.selectSides ctx item.data item.ty item.exclude item.selectRoutes sides .flood

/-- A receipt goes back the way its packet came, or else to its publisher. -/
def planReceipt (item : PlanItem) (packetId : UInt64) : List ℕ × RoutingState :=
  match (st.reliableReturnRoutes[packetId]?).filter fun side => st.routeAllowed item.exclude item.ty side with
  | some side =>
    if item.selectRoutes && !st.timesyncAllowedForSide item.ty ctx.nowMs side then ([], st) else ([side], st)
  | none =>
    let eligible := st.eligibleSideIds item.exclude item.ty false
    let exact := eligible.filter fun side =>
      !item.targets.isEmpty && st.sideMatchesTargetSenders ctx side item.targets
    if !exact.isEmpty then
      st.selectSides ctx item.data item.ty item.exclude item.selectRoutes exact .discovered
    else if !st.targetKnown ctx item.targets && item.exclude.isSome && eligible.length == 1 then (eligible, st)
    else ([], st)

/-- Nothing has been discovered: a single link is used. -/
def planUndiscovered (item : PlanItem) : List ℕ × RoutingState :=
  let fallback := st.eligibleSideIds item.exclude item.ty (ctx.endpointsAreLinkLocalOnly item.eps)
  let fallback := st.filterTimesyncSides item.ty ctx.nowMs item.selectRoutes fallback
  if fallback.length = 1 then (fallback, st) else ([], st)

/-- No discovered side will do. -/
def planUnmatched (item : PlanItem) (preferBestOverlap : Bool) : List ℕ × RoutingState :=
  let eligible := st.eligibleSideIds item.exclude item.ty (ctx.endpointsAreLinkLocalOnly item.eps)
  if !ctx.localServices && item.exclude.isSome then
    if eligible.length = 1 ∧ st.targetKnown ctx item.targets = false then
      st.selectSides ctx item.data item.ty item.exclude item.selectRoutes eligible .flood
    else ([], st)
  else if preferBestOverlap then ([], st)
  else if st.hasExplicitRoutePolicy item.exclude item.ty then
    st.selectSides ctx item.data item.ty item.exclude item.selectRoutes
      (st.filterTimesyncSides item.ty ctx.nowMs item.selectRoutes eligible) .flood
  else ([], st)

/-- Several endpoints of an ordinary item, each with its own path. -/
def plansByRole (item : PlanItem) (source : Option Bytes) (candidates : List RouteCandidate) : Bool :=
  ctx.localServices && decide (1 < item.eps.length) && decide (1 < candidates.length) &&
    !ctx.env.reg.isReliableType item.ty && !st.managedVariableTypes.contains item.ty && item.targets.isEmpty &&
    source.isNone && !st.hasExplicitRoutePolicy item.exclude item.ty && (st.sourceRouteModes.lookup item.exclude).isNone

/-- The sides that discovery has found. -/
def planDiscovered (item : PlanItem) (source : Option Bytes) : List ℕ × RoutingState :=
  let preferBestOverlap := ctx.env.reg.isReliableType item.ty && item.targets.isEmpty
  let found := st.discoveredRouteCandidates ctx
    ⟨item.exclude, item.ty, item.eps, item.targets, preferBestOverlap, source⟩
  let found := st.filterTimesyncMatches item.ty ctx.nowMs item.selectRoutes found
  let distributed := found.any fun c => st.ownsVariable item.ty c.side
  if !distributed && st.plansByRole ctx item source found then
    if item.selectRoutes then st.selectEndpointRoleSides ctx item.exclude item.eps found
    else ((found.map RouteCandidate.side).take 1, st)
  else
    let found := if distributed then found else st.retainShortest ctx found item.eps item.targets
    if found.isEmpty then st.planUnmatched ctx item preferBestOverlap
    else if item.selectRoutes then
      st.selectDiscoveredCandidateSides ctx item.data item.ty item.exclude item.targets preferBestOverlap found
    else ((found.map RouteCandidate.side).take 1, st)

/-- `remote_side_plan_with_selection`. -/
def remoteSidePlanWithSelection (selectRoutes : Bool) : TelemetryResult (List ℕ × RoutingState) := do
  let (eps, ty) ← ctx.itemRouteInfo data
  let targetSenders ← ctx.itemTargetSenders data
  let beyondLocalHop ← ctx.targetsRouterAsIntermediateHop data eps
  let packetId ← ctx.reliableControlTargetPacketId data
  -- the first target of a receipt is the owner that has acknowledged
  let targets := if packetId.isSome then targetSenders.drop 1 else if beyondLocalHop then [] else targetSenders
  let item : PlanItem := ⟨data, exclude, selectRoutes, eps, ty, targets⟩
  if isDiscoveryType ty ∨ ty = .timeSyncAnnounce then return st.planFlood ctx item
  let variableOwner := st.managedVariableTypes.contains ty && st.hasVariableOwner ctx exclude ty
  if !(ctx.hasNonlocalEndpoint eps || forceRemoteForType ty || !targetSenders.isEmpty || variableOwner) then
    return ([], st)
  let source ← st.preferredTimesyncRouteSource ctx data ty
  match packetId with
  | some id => return st.planReceipt ctx item id
  | none =>
    if st.discoveryRoutes.isEmpty then return st.planUndiscovered ctx item
    else return st.planDiscovered ctx item source

/-- `remote_side_plan`. -/
def remoteSidePlan : TelemetryResult (List ℕ × RoutingState) :=
  st.remoteSidePlanWithSelection ctx data exclude true

end RoutingState

end SedsNet
