import SedsNet.HopSender
import SedsNet.RouterItem

/-! # End-to-end records

The records that a router keeps for reliable packets until every destination has acknowledged them
(`EndToEndReliableSent` in `router.rs`), with the return routes through which a proxy passes an
aggregated receipt on: registration, acknowledgements, release of ordered successors, replays,
reconciliation with discovery, timeouts.

Every operation is one critical section.  A handler of an acknowledgement reads the return route in
one and changes the record in another, so what it has read is part of the state. -/

namespace SedsNet

open OrderedMap ByteWords
open Std (ExtTreeMap)

/-! ### Items and acknowledgements -/

namespace RouterItem

def dataType (env : WireEnv) : RouterItem → TelemetryResult DataType
  | packet pkt => .ok pkt.ty
  | packed bytes => (peekRoutingEnvelope env bytes).map (·.ty)

def targetSenders (env : WireEnv) : RouterItem → TelemetryResult (List UInt64)
  | packet pkt => .ok (pkt.wireTargetSenders.getD [])
  | packed bytes => (peekRoutingEnvelope env bytes).map (·.targetSenders)

end RouterItem

/-- The bytes of `"E2EACK:"`. -/
def endToEndAckMarker : Bytes := [0x45, 0x32, 0x45, 0x41, 0x43, 0x4B, 0x3A]

def decodeEndToEndAckSenderHash (sender : Bytes) : Option UInt64 :=
  if sender.take endToEndAckMarker.length = endToEndAckMarker ∧ sender.drop endToEndAckMarker.length ≠ []
  then some (senderHash (sender.drop endToEndAckMarker.length))
  else none

/-- The owner that an end-to-end acknowledgement names. -/
def endToEndAckSenderHash (pkt : Packet) : Option UInt64 :=
  if pkt.ty ≠ .reliableAck then none
  else ((pkt.wireTargetSenders.getD []).head?).or (decodeEndToEndAckSenderHash pkt.sender)

/-- The packet that an end-to-end acknowledgement is for. -/
def decodeEndToEndReliableAck (payload : Bytes) : TelemetryResult UInt64 :=
  if payload.length ≠ 8 then .error (.unpack "bad reliable e2e ack payload")
  else .ok (UInt64.ofNat (ofLe payload))

/-! ### Records and return routes -/

structure EndToEndReliableSent where
  completionEpoch : UInt64
  pendingType : UInt32
  orderedType : Option UInt32
  waitingForPredecessor : Bool
  data : RouterItem
  /-- The owners that have not acknowledged the packet, with the side each is behind. -/
  pendingDestinations : ExtTreeMap UInt64 ℕ
  trackedDestinations : Bool
  lastSendMs : UInt64
  retries : UInt32
  queued : Bool

structure ReliableReturnRouteState where
  side : ℕ
  deliveryCompleted : Bool
  localAdmissionCompleted : Bool
  localAdmissionToken : UInt64
  admissionCancelled : Bool
  admissionCommitting : Bool
  lastReplayMs : UInt64
  /-- The packet and the publisher that a proxy owes the receipt. -/
  upstreamContract : Option (UInt64 × UInt64)
deriving DecidableEq

/-- How far the handler of an acknowledgement has come. -/
inductive AckStage where
  /-- The return route is read. -/
  | routed
  /-- The last destination of a proxied packet has acknowledged: its upstream packet and publisher. -/
  | completed (upstreamId publisherHash : UInt64)
  /-- The upstream route says so. -/
  | marked (upstreamId publisherHash : UInt64)
  | done
deriving DecidableEq

/-- The handler of a received end-to-end acknowledgement. -/
structure AckHandler where
  packetId : UInt64
  owner : UInt64
  targetsLocalSender : Bool
  explicitCompletionReceipt : Bool
  aliasRoute : Option (ReliableReturnRouteState × UInt64 × UInt64)
  stage : AckStage

structure EndToEnd where
  sent : ExtTreeMap UInt64 EndToEndReliableSent
  /-- Packets in the order of their registration; those of removed records stay for a while. -/
  order : List UInt64
  routes : ExtTreeMap UInt64 ReliableReturnRouteState
  routeOrder : List UInt64
  handlers : List AckHandler

namespace EndToEnd

def initial : EndToEnd := ⟨∅, [], ∅, [], []⟩

/-- The limit of the return routes, and whether memory admits one more. -/
structure RouteRoom where
  maxRoutes : ℕ
  granted : Bool

variable (cap : ℕ) (room : RouteRoom) (ctx : TimeoutContext) (s : EndToEnd) (id : UInt64)

/-- The records with another one for a retained packet. -/
def modify (f : EndToEndReliableSent → EndToEndReliableSent) : EndToEnd :=
  match s.sent[id]? with
  | none => s
  | some sent => { s with sent := s.sent.insert id (f sent) }

def remove : EndToEnd := { s with sent := s.sent.erase id }

/-! ### Registration -/

/-- Drops the oldest records while the order has `cap` entries. -/
def dropOldest (cap : ℕ) : List UInt64 → ExtTreeMap UInt64 EndToEndReliableSent →
    List UInt64 × ExtTreeMap UInt64 EndToEndReliableSent
  | [], sent => ([], sent)
  | id :: order, sent =>
    if cap ≤ (id :: order).length then dropOldest cap order (sent.erase id) else (id :: order, sent)

/-- `remember_end_to_end_reliable_tx_locked`. -/
def remember : EndToEnd :=
  let kept := s.order.filter fun other => s.sent.contains other && other != id
  let (order, sent) := dropOldest (max cap 1) kept s.sent
  { s with order := order ++ [id], sent }

/-- What a registration reads elsewhere. -/
structure RegisterContext where
  env : WireEnv
  now : UInt64
  /-- `retry_birth()`. -/
  completionEpoch : UInt64
  /-- `expected_end_to_end_destinations_locked` for the packet. -/
  expected : TelemetryResult (ExtTreeMap UInt64 ℕ)
  supportsTracking : ℕ → Bool
  multipleAnnouncers : ℕ → Bool
  managedVariable : DataType → Bool
  sharedQueueBytesUsed : ℕ
  maxQueueBudget : ℕ
  /-- `payload_encoding_for_retention`. -/
  retention : Bytes → TelemetryResult (Option Bytes)
  /-- The record could be allocated. -/
  allocated : Bool

/-- `filter_trackable_end_to_end_destinations_locked`. -/
def filterTrackable (ctx : RegisterContext) (ty : DataType) (frozen : Bool)
    (pending : ExtTreeMap UInt64 ℕ) : ExtTreeMap UInt64 ℕ :=
  if frozen then pending
  else
    pending.filter fun _ side =>
      ctx.supportsTracking side &&
        (ctx.managedVariable ty || ctx.env.reg.isReliableType ty || !ctx.multipleAnnouncers side)

/-- The item as it is retained. -/
def retainedItem (ctx : RegisterContext) : RouterItem → TelemetryResult RouterItem
  | .packet pkt => .ok (.packet pkt)
  | .packed bytes => (ctx.retention bytes).map fun encoded => .packed (encoded.getD bytes)

/-- The record of a new packet.  It waits while another one of its ordered type is retained. -/
def newRecord (ctx : RegisterContext) (s : EndToEnd) (ty : DataType) (pending : ExtTreeMap UInt64 ℕ)
    (retained : RouterItem) : EndToEndReliableSent :=
  let orderedType := if ctx.env.reg.reliableMode ty = .ordered then some ty else none
  { completionEpoch := ctx.completionEpoch
    pendingType := ty
    orderedType
    waitingForPredecessor := orderedType.isSome && s.sent.toList.any fun p => p.2.orderedType == orderedType
    data := retained
    pendingDestinations := pending
    trackedDestinations := !pending.isEmpty
    lastSendMs := ctx.now
    retries := 0
    queued := false }

/-- The shared usage with the metadata of another record. -/
def usageWithRecord (ctx : RegisterContext) : ℕ :=
  satAdd (satAdd ctx.sharedQueueBytesUsed 8) (if ctx.completionEpoch = 0 then 0 else 8)

/-- The part of `register_end_to_end_reliable_tx` after the destinations are known. -/
def insertRecord (ctx : RegisterContext) (s : EndToEnd) (data : RouterItem) (ty : DataType)
    (pending : ExtTreeMap UInt64 ℕ) : EndToEnd × TelemetryResult Bool :=
  let id := data.getHash ctx.env
  match s.sent[id]? with
  | some existing => (s, .ok (!existing.waitingForPredecessor))
  | none =>
    if max cap 1 ≤ s.sent.size then (s, .error (.io "reliable window full"))
    else if ctx.maxQueueBudget < usageWithRecord ctx then (s, .error (.io "memory pressure"))
    else
      match retainedItem ctx data with
      | .error e => (s, .error e)
      | .ok retained =>
        if !ctx.allocated then (s, .error (.io "memory pressure"))
        else
          let record := newRecord ctx s ty pending retained
          let s := remember cap s id
          ({ s with sent := s.sent.insert id record }, .ok (!record.waitingForPredecessor))

/-- `register_end_to_end_reliable_tx`: whether the packet may be sent now. -/
def register (ctx : RegisterContext) (s : EndToEnd) (data : RouterItem)
    (destinations : Option (ExtTreeMap UInt64 ℕ)) : EndToEnd × TelemetryResult Bool :=
  match data.dataType ctx.env with
  | .error e => (s, .error e)
  | .ok ty =>
    match destinations.elim ctx.expected Except.ok with
    | .error e => (s, .error e)
    | .ok pending =>
      match data.targetSenders ctx.env with
      | .error e => (s, .error e)
      | .ok targets => insertRecord cap ctx s data ty (filterTrackable ctx ty (!targets.isEmpty) pending)

/-! ### Ordered successors -/

/-- The loop of `release_ordered_successors` from an entry of the order on. -/
def releaseFrom (now : UInt64) (earlier : List UInt64) : List UInt64 →
    ExtTreeMap UInt64 EndToEndReliableSent → ExtTreeMap UInt64 EndToEndReliableSent × List UInt64
  | [], sent => (sent, [])
  | id :: rest, sent =>
    match sent[id]? with
    | none => releaseFrom now (earlier ++ [id]) rest sent
    | some record =>
      if !record.waitingForPredecessor || record.orderedType.isNone ||
          earlier.any (fun e => sent[e]?.any fun r => r.orderedType == record.orderedType) then
        releaseFrom now (earlier ++ [id]) rest sent
      else
        let record := { record with waitingForPredecessor := false, lastSendMs := now }
        let (sent, ready) := releaseFrom now (earlier ++ [id]) rest (sent.insert id record)
        (sent, id :: ready)

/-- The critical section of `release_ordered_successors`, and the packets to send. -/
def releaseOrderedSuccessors (now : UInt64) (s : EndToEnd) : EndToEnd × List UInt64 :=
  let (sent, ready) := releaseFrom now [] s.order s.sent
  ({ s with sent }, ready)

/-! ### Discovery -/

/-- The routes that discovery knows. -/
structure Discovered where
  /-- `active_end_to_end_destinations_locked`. -/
  active : ExtTreeMap UInt64 ℕ
  /-- `expected_end_to_end_destinations_locked` for an item, without a side. -/
  expected : RouterItem → Option ℕ → TelemetryResult (ExtTreeMap UInt64 ℕ)

/-- The side of an owner after a change of the routes. -/
def nextSide (d : Discovered) (expected : ExtTreeMap UInt64 ℕ) (excluded : Option ℕ) (owner : UInt64)
    (side : ℕ) : ℕ :=
  match expected[owner]? with
  | some next => next
  | none =>
    match d.active[owner]? with
    | some next => if some next = excluded then side else next
    | none => side

/-- The loop of `reconcile_end_to_end_reliable_destinations_locked`. -/
def reconcileFrom (d : Discovered) : List UInt64 → EndToEnd → EndToEnd × TelemetryResult Unit
  | [], s => (s, .ok ())
  | id :: ids, s =>
    match s.sent[id]? with
    | none => reconcileFrom d ids s
    | some record =>
      let excluded := (s.routes[id]?.filter fun route => route.upstreamContract.isSome).map (·.side)
      match d.expected record.data excluded with
      | .error e => (s, .error e)
      | .ok expected =>
        if !record.trackedDestinations then reconcileFrom d ids s
        else
          reconcileFrom d ids (s.modify id fun record =>
            { record with
              pendingDestinations := record.pendingDestinations.map (nextSide d expected excluded) })

/-- `reconcile_end_to_end_reliable_destinations_locked`. -/
def reconcile (d : Discovered) (s : EndToEnd) : EndToEnd × TelemetryResult Unit :=
  reconcileFrom d s.sent.keys s

/-! ### Replays and timeouts -/

/-- `end_to_end_retransmit_sides`: the item and the sides to send it to again. -/
def retransmitSides (now : UInt64) : EndToEnd × Option (RouterItem × List ℕ) :=
  match s.sent[id]? with
  | none => (s, none)
  | some record =>
    if record.trackedDestinations && record.pendingDestinations.isEmpty then (s.remove id, none)
    else
      (s.modify id fun record => { record with lastSendMs := now },
        some (record.data, (record.pendingDestinations.values.mergeSort (· ≤ ·)).dedup))

/-- What the timeouts read elsewhere; `childOwned` is `e2e_child_owned` for a side and a packet. -/
structure TimeoutContext where
  lim : RetryLimits
  now : UInt64
  childOwned : ℕ → UInt64 → Bool
  /-- Routes have expired, and these are left. -/
  pruned : Option Discovered

/-- The record is neither covered by queued children, waiting, queued nor before its deadline. -/
def overdue (record : EndToEndReliableSent) : Bool :=
  !(!record.pendingDestinations.isEmpty &&
      record.pendingDestinations.values.all (fun side => ctx.childOwned side id)) &&
    !record.waitingForPredecessor && !record.queued &&
    !decide (ctx.now - record.lastSendMs < ctx.lim.retransmitMs)

def exhausted (record : EndToEndReliableSent) : Bool :=
  overdue ctx id record && decide (ctx.lim.maxRetries ≤ record.retries)

/-- A record after the first pass over the records. -/
def retried (record : EndToEndReliableSent) : Option EndToEndReliableSent :=
  if exhausted ctx id record then none
  else if overdue ctx id record then some { record with retries := record.retries + 1 }
  else some record

/-- The ordered types with an exhausted record. -/
def failedOrderedTypes : List UInt32 :=
  s.sent.toList.filterMap fun p => if exhausted ctx p.1 p.2 then p.2.orderedType else none

/-- The packets to send again. -/
def requeued : List UInt64 :=
  (s.sent.toList.filter fun p => overdue ctx p.1 p.2 && !exhausted ctx p.1 p.2).map Prod.fst

/-- The two passes of `process_end_to_end_reliable_timeouts` over the records. -/
def expire : EndToEnd :=
  let failed := failedOrderedTypes ctx s
  { s with
    sent := (s.sent.filterMap (retried ctx)).filter fun _ record =>
      !record.orderedType.any fun ty => failed.contains ty }

/-- The records with the routes that are left. -/
def reconciled : EndToEnd × TelemetryResult Unit :=
  match ctx.pruned with
  | none => (s, .ok ())
  | some d => reconcile d s

/-- The critical section of `process_end_to_end_reliable_timeouts`, and the packets to send again. -/
def processTimeouts : EndToEnd × TelemetryResult (List UInt64) :=
  match reconciled ctx s with
  | (s, .error e) => (s, .error e)
  | (s, .ok ()) => (expire ctx s, .ok (requeued ctx s))

/-! ### Return routes -/

/-- Neither a record nor a live admission pins the route. -/
def evictable : Bool :=
  !s.sent.contains id && !(s.routes[id]?.any fun route => route.localAdmissionToken != 0)

/-- Drops the oldest routes that nothing pins while there are `cap`; the fuel is their number. -/
def makeRouteRoom (cap : ℕ) : (fuel : ℕ) → EndToEnd → EndToEnd × Bool
  | 0, s => (s, true)
  | fuel + 1, s =>
    if s.routeOrder.length < cap then (s, true)
    else
      match s.routeOrder.find? s.evictable with
      | none => (s, false)
      | some id =>
        makeRouteRoom cap fuel { s with routeOrder := s.routeOrder.erase id, routes := s.routes.erase id }

/-- `remember_reliable_return_route_locked`. -/
def rememberRoute : EndToEnd × Bool :=
  let cap := max room.maxRoutes 1
  -- `can_admit_reliable_return_route_growth_locked`
  if !(s.routes.contains id || decide (cap ≤ s.routes.size) || room.granted) then (s, false)
  else
    let s := { s with routeOrder := s.routeOrder.filter fun other => s.routes.contains other && other != id }
    match makeRouteRoom cap s.routeOrder.length s with
    | (s, false) => (s, false)
    | (s, true) => ({ s with routeOrder := s.routeOrder ++ [id] }, true)

/-- The second critical section of a proxy that has registered a downstream packet: its route leads
to the publisher, or the record is dropped. -/
def proxyRoute (upstreamId downstreamId publisherHash : UInt64) : EndToEnd × TelemetryResult Unit :=
  match s.routes[upstreamId]? with
  | none => (s.remove downstreamId, .error (.io "no reliable return route"))
  | some route =>
    match rememberRoute room s downstreamId with
    | (s, false) => (s.remove downstreamId, .error (.io "reliable return route window full"))
    | (s, true) =>
      ({ s with
        routes := s.routes.insert downstreamId
          { route with upstreamContract := some (upstreamId, publisherHash) } }, .ok ())

/-! ### Acknowledgements -/

/-- The identity of the router that receives. -/
structure LocalIdentity where
  sender : Bytes
  localServices : Bool

/-- The first part of `handle_internal_reliable_packet`: the handler of an end-to-end
acknowledgement, with the return route of its packet; `none` for another packet. -/
def ackHandler (me : LocalIdentity) (pkt : Packet) : Option AckHandler :=
  match endToEndAckSenderHash pkt, decodeEndToEndReliableAck pkt.payload with
  | some owner, .ok packetId =>
    let targets := pkt.wireTargetSenders.getD []
    some {
      packetId
      owner
      targetsLocalSender :=
        me.localServices && (targets.isEmpty || targets.contains (senderHash me.sender))
      explicitCompletionReceipt := targets.length == 2 && targets[1]? == some (senderHash me.sender)
      aliasRoute := s.routes[packetId]?.bind fun route => route.upstreamContract.map fun c => (route, c)
      stage := .routed }
  | _, _ => none

def receive (me : LocalIdentity) (pkt : Packet) : EndToEnd :=
  match s.ackHandler me pkt with
  | none => s
  | some handler => { s with handlers := s.handlers ++ [handler] }

def setStage (h : ℕ) (handler : AckHandler) (stage : AckStage) : EndToEnd :=
  { s with handlers := s.handlers.set h { handler with stage } }

/-- How an acknowledgement ends a record. -/
inductive Completion where
  /-- The writes of the record are retired as delivered. -/
  | delivered (record : EndToEndReliableSent)
  /-- The record is over, without a receipt for this router. -/
  | retired
  /-- The aggregated receipt is due upstream. -/
  | aggregated (upstreamId publisherHash : UInt64)

/-- A proxy strikes the owner off; with the last one the record is over. -/
def applyProxyAck (h : ℕ) (handler : AckHandler) (upstreamId publisherHash : UInt64) :
    EndToEnd × Option Completion :=
  match s.sent[handler.packetId]? with
  | none => (s.setStage h handler .done, none)
  | some record =>
    let pending := record.pendingDestinations.erase handler.owner
    if !pending.isEmpty then
      ((s.modify handler.packetId fun record => { record with pendingDestinations := pending }).setStage
        h handler .done, none)
    else
      ((s.remove handler.packetId).setStage h handler (.completed upstreamId publisherHash),
        some (.aggregated upstreamId publisherHash))

/-- A publisher or relay strikes the owner off, unless the packet is still waiting. -/
def applyOwnAck (h : ℕ) (handler : AckHandler) : EndToEnd × Option Completion :=
  match s.sent[handler.packetId]? with
  | none => (s.setStage h handler .done, none)
  | some record =>
    if record.waitingForPredecessor then (s.setStage h handler .done, none)
    else
      let removed := record.pendingDestinations.contains handler.owner
      let pending := record.pendingDestinations.erase handler.owner
      if !pending.isEmpty then
        ((s.modify handler.packetId fun record => { record with pendingDestinations := pending }).setStage
          h handler .done, none)
      else
        ((s.remove handler.packetId).setStage h handler .done,
          if removed && handler.explicitCompletionReceipt && handler.targetsLocalSender &&
              record.trackedDestinations
          then some (.delivered { record with pendingDestinations := pending })
          else some .retired)

/-- The critical section of `handle_internal_reliable_packet` that changes the record. -/
def applyAck (h : ℕ) : EndToEnd × Option Completion :=
  match s.handlers[h]? with
  | none => (s, none)
  | some handler =>
    if handler.stage ≠ .routed then (s, none)
    else
      match handler.aliasRoute with
      | some (_, upstreamId, publisherHash) => s.applyProxyAck h handler upstreamId publisherHash
      | none => s.applyOwnAck h handler

/-- The upstream route notes that the delivery is complete. -/
def markUpstream (h : ℕ) : EndToEnd :=
  match s.handlers[h]? with
  | none => s
  | some handler =>
    match handler.stage, handler.aliasRoute with
    | .completed upstreamId publisherHash, some (proxied, _) =>
      match rememberRoute room s upstreamId with
      | (s, false) => s.setStage h handler (.marked upstreamId publisherHash)
      | (s, true) =>
        let route := (s.routes[upstreamId]?).elim
          { side := proxied.side, deliveryCompleted := true, localAdmissionCompleted := true
            localAdmissionToken := 0, admissionCancelled := false, admissionCommitting := false
            lastReplayMs := proxied.lastReplayMs
            upstreamContract := some (upstreamId, publisherHash) }
          fun route => { route with
            deliveryCompleted := true, upstreamContract := some (upstreamId, publisherHash) }
        { s with routes := s.routes.insert upstreamId route }.setStage h handler
          (.marked upstreamId publisherHash)
    | _, _ => s

/-- The receipt that a handler queues for the publisher upstream. -/
def forwardReceipt (h : ℕ) : EndToEnd × Option (UInt64 × UInt64) :=
  match s.handlers[h]? with
  | none => (s, none)
  | some handler =>
    match handler.stage with
    | .marked upstreamId publisherHash => (s.setStage h handler .done, some (upstreamId, publisherHash))
    | _ => (s, none)

/-! ### Runs -/

/-- The critical sections.  `otherRoutes` is any other change of the return routes. -/
inductive Event where
  | register (ctx : RegisterContext) (data : RouterItem) (destinations : Option (ExtTreeMap UInt64 ℕ))
  | proxyRoute (room : RouteRoom) (upstreamId downstreamId publisherHash : UInt64)
  | receive (me : LocalIdentity) (pkt : Packet)
  | applyAck (h : ℕ)
  | markUpstream (room : RouteRoom) (h : ℕ)
  | forwardReceipt (h : ℕ)
  | release (now : UInt64)
  | timeouts (ctx : TimeoutContext)
  | reconcile (d : Discovered)
  | retransmit (id now : UInt64)
  | retransmitQueued (id now : UInt64)
  | childSent (id now : UInt64)
  | setReplayQueued (id : UInt64) (queued : Bool)
  | otherRoutes (routes : ExtTreeMap UInt64 ReliableReturnRouteState) (routeOrder : List UInt64)

/-- One critical section; `cap` is `runtime_reliable_max_end_to_end_pending()`. -/
def step : Event → EndToEnd
  | .register ctx data destinations => (s.register cap ctx data destinations).1
  | .proxyRoute room upstreamId downstreamId publisherHash =>
    (s.proxyRoute room upstreamId downstreamId publisherHash).1
  | .receive me pkt => s.receive me pkt
  | .applyAck h => (s.applyAck h).1
  | .markUpstream room h => s.markUpstream room h
  | .forwardReceipt h => (s.forwardReceipt h).1
  | .release now => (s.releaseOrderedSuccessors now).1
  | .timeouts ctx => (s.processTimeouts ctx).1
  | .reconcile d => (s.reconcile d).1
  | .retransmit id now => (s.retransmitSides id now).1
  | .retransmitQueued id now =>
    s.modify id fun record => { record with lastSendMs := max record.lastSendMs now }
  | .childSent id now => s.modify id fun record => { record with lastSendMs := now }
  | .setReplayQueued id queued => s.modify id fun record => { record with queued }
  | .otherRoutes routes routeOrder => { s with routes, routeOrder }

end EndToEnd

end SedsNet
