import SedsNet.StreamBinding

/-! # Two routers and their streams

Two routers whose addresses do not change, joined by a channel that loses nothing and keeps the order.
Each opens streams to the other, sends on them and closes them, and takes the packets that have arrived
for it one at a time, in any interleaving.  The rest of a router decides how many of the frames of a
call get out (`out`): a call fails at the first one that does not.

A party keeps a log of the payloads that its calls have sent, by stream, and of the data events that it
has raised.  The data on its way to a party and the data it has raised are together a sublist of what
the other one has sent (`Inv`), and each event names the stream that its session belongs to. -/

namespace SedsNet

open Std (ExtTreeMap)
open Runs List
open StreamState (StreamOp)

inductive Side where
  | left
  | right
deriving DecidableEq

def Side.other : Side → Side
  | .left => .right
  | .right => .left

@[simp] theorem Side.other_other (side : Side) : side.other.other = side := by cases side <;> rfl

theorem Side.other_ne (side : Side) : side.other ≠ side := by cases side <;> decide

theorem Side.eq_or_other (side receiver : Side) : side = receiver ∨ side.other = receiver := by
  cases side <;> cases receiver <;> decide

/-- The name and the address that a router puts into its frames. -/
structure StreamHost where
  hostname : Bytes
  address : UInt32
  hostname_utf8 : ByteArray.validateUTF8 ⟨hostname.toArray⟩ = true

/-- A data event, and the peer stream of the session that it was raised on. -/
structure RaisedData where
  event : P2pStreamEvent
  sessionPeer : UInt32
deriving DecidableEq

/-- The stream that the event names and its payload. -/
def RaisedData.said (r : RaisedData) : UInt32 × Bytes := (r.event.peerStreamId, r.event.payload)

structure StreamParty where
  state : StreamState
  /-- The packets on their way to the party. -/
  inbox : List Bytes
  /-- The payloads that its calls have sent, each with the stream. -/
  sent : List (UInt32 × Bytes)
  raised : List RaisedData
  /-- The ids of the sessions that it has opened or accepted. -/
  created : List UInt32

inductive PartyEvent where
  | openStream (dst : AddressBookEntry) (dstPort srcPort : UInt16) (resolved : Option Bytes) (out : ℕ)
  | send (id : UInt32) (payload : Bytes) (out : ℕ)
  | close (id : UInt32) (out : ℕ)
  | reset (id : UInt32) (out : ℕ)
  | retire (id : UInt32)
  | bindPort (port : UInt16) (handler : ℕ)
  | clearPort (port : UInt16)
  | deliver (attributed replied : Bool) (accepts : ℕ → Bool)

/-! ### The channel -/

namespace StreamHost

/-- The payload of the packet that carries a frame (`send_p2p_to_entry`). -/
def packetOf (host : StreamHost) (frame : OutgoingFrame) : TelemetryResult Bytes :=
  if frame.destinationPort = 0 then .error .badArg
  else encodeP2pPayload host.hostname host.address frame.sourcePort frame.destinationPort frame.payload

/-- The packets of the first frames, up to one that cannot be sent. -/
def transmit (host : StreamHost) : (out : ℕ) → List OutgoingFrame → List Bytes
  | 0, _ => []
  | _, [] => []
  | out + 1, frame :: frames =>
    match host.packetOf frame with
    | .error _ => []
    | .ok packet => packet :: transmit host out frames

end StreamHost

namespace PartyEvent

/-- How many frames of the event may get out. -/
def out : PartyEvent → ℕ
  | .openStream _ _ _ _ out => out
  | .send _ _ out => out
  | .close _ out => out
  | .reset _ out => out
  | .deliver _ replied _ => replied.toNat
  | .retire _ => 0
  | .bindPort _ _ => 0
  | .clearPort _ => 0

/-- The step of the router; a delivery takes the first packet of the inbox. -/
def op (peer : StreamHost) (inbox : List Bytes) : PartyEvent → Option StreamOp
  | .openStream dst dstPort srcPort resolved _ =>
    some (.openStream { dst with hostname := peer.hostname } dstPort srcPort resolved)
  | .send id payload _ => some (.sendControl id p2pStreamData payload)
  | .close id _ => some (.sendControl id p2pStreamFin [])
  | .reset id _ => some (.sendControl id p2pStreamRst [])
  | .retire id => some (.retire id)
  | .bindPort port handler => some (.bindPort port handler)
  | .clearPort port => some (.clearPort port)
  | .deliver attributed replied accepts =>
    inbox.head?.map fun packet => .receive packet attributed replied accepts

end PartyEvent

namespace StreamParty

def new (addressBook : ExtTreeMap Bytes AddressBookEntry) : StreamParty where
  state := .new addressBook
  inbox := []
  sent := []
  raised := []
  created := []

/-- A call of `send_p2p_stream` has succeeded when its frame is out, after the request that goes before
it while the peer's stream is not known. -/
def sentBy (p : StreamParty) (packets : List Bytes) : PartyEvent → List (UInt32 × Bytes)
  | .send id payload _ =>
    match p.state.sessions[id]? with
    | none => []
    | some s => if packets.length = (if s.peerStreamId = 0 then 2 else 1) then [(id, payload)] else []
  | _ => []

/-- The data event among the events of a frame. -/
def dataEvent (st : StreamState) (pending : PendingP2pStreamEvent) : Option RaisedData :=
  if pending.event.kind = .data then
    (st.sessions[pending.event.streamId]?).map fun s => ⟨pending.event, s.peerStreamId⟩
  else none

/-- The data events that the delivery of a packet raises. -/
def raisedBy (st : StreamState) : StreamOp → List RaisedData
  | .receive packet true _ _ =>
    match StreamState.streamFrame packet with
    | none => []
    | some (msg, frame) => (st.dispatchStreamFrame msg frame).events.filterMap (dataEvent st)
  | _ => []

/-- The ids of the sessions that a step has added. -/
def createdBy (st st' : StreamState) : List UInt32 := st'.sessions.keys.filter fun id => id ∉ st.sessions

end StreamParty

/-- The two parties. -/
abbrev StreamLink := Side → StreamParty

namespace StreamLink

open StreamState StreamParty

def new (books : Side → ExtTreeMap Bytes AddressBookEntry) : StreamLink := fun side => .new (books side)

/-- A delivery takes a packet from the inbox. -/
def inboxAfter (inbox : List Bytes) : PartyEvent → List Bytes
  | .deliver _ _ _ => inbox.tail
  | _ => inbox

/-- The party after one of its steps. -/
def actor (p : StreamParty) (packets : List Bytes) (event : PartyEvent) (op : StreamOp) : StreamParty where
  state := p.state.step op
  inbox := inboxAfter p.inbox event
  sent := p.sent ++ p.sentBy packets event
  raised := p.raised ++ raisedBy p.state op
  created := p.created ++ createdBy p.state (p.state.step op)

/-- The packets that a step of the router sends. -/
def packetsOf (host : StreamHost) (st : StreamState) (event : PartyEvent) (op : StreamOp) : List Bytes :=
  host.transmit event.out (st.perform op).2.sent

/-- One step of one party. -/
def step (hosts : Side → StreamHost) (link : StreamLink) (e : Side × PartyEvent) : StreamLink :=
  match e.2.op (hosts e.1.other) (link e.1).inbox with
  | none => link
  | some op =>
    let packets := packetsOf (hosts e.1) (link e.1).state e.2 op
    fun side =>
      if side = e.1 then actor (link e.1) packets e.2 op
      else { link side with inbox := (link side).inbox ++ packets }

/-! ### Data on its way -/

/-- A frame that is neither part of a handshake nor ends a stream. -/
def carriesData (frame : P2pStreamDecoded) : Bool :=
  !frame.isOpen && !frame.isOpenAck && frame.has (p2pStreamFin ||| p2pStreamRst ||| p2pStreamData) &&
    decide (controlKind frame = .data)

/-- The stream and the payload of a data packet. -/
def dataFrame (packet : Bytes) : Option (UInt32 × Bytes) :=
  match streamFrame packet with
  | none => none
  | some (_, frame) => if carriesData frame then some (frame.sourceStreamId, frame.payload) else none

def dataOf (packets : List Bytes) : List (UInt32 × Bytes) := packets.filterMap dataFrame

/-! ### What a frame of a call carries -/

variable {host : StreamHost} {flags : UInt8} {id : UInt32} {payload packet : Bytes} {frame : OutgoingFrame}

/-- The payload of an outgoing frame is a stream frame with these flags, of this stream. -/
def Speaks (flags : UInt8) (id : UInt32) (payload : Bytes) (frame : OutgoingFrame) : Prop :=
  ∃ destination sequence, encodeP2pStreamPayload flags id destination sequence payload = .ok frame.payload

variable {destination sequence : UInt32}

theorem speaks_of_framePayload (f : Bytes → OutgoingFrame) (hf : ∀ bytes, (f bytes).payload = bytes)
    (h : frame ∈ (framePayload flags id destination sequence payload).map f) : Speaks flags id payload frame := by
  unfold framePayload at h
  split at h
  next bytes hbytes =>
    obtain rfl : frame = f bytes := by simpa using h
    refine ⟨destination, sequence, ?_⟩
    rw [hf, hbytes]
  next => simp at h

theorem streamFrame_packetOf (hspeaks : Speaks flags id payload frame) (h : host.packetOf frame = .ok packet) :
    ∃ msg destination sequence, streamFrame packet = some (msg, ⟨flags, id, destination, sequence, payload⟩) := by
  obtain ⟨destination, sequence, hencode⟩ := hspeaks
  unfold StreamHost.packetOf at h
  split at h
  · cases h
  refine ⟨⟨host.hostname, host.address, frame.sourcePort, frame.destinationPort, frame.payload⟩, destination,
    sequence, ?_⟩
  unfold streamFrame
  rw [decodeP2pPayload_encode host.hostname_utf8 h]
  dsimp only
  rw [decodeP2pStreamPayload_encode hencode]

/-- Only the flags decide whether a frame carries data. -/
theorem dataFrame_packetOf (hspeaks : Speaks flags id payload frame) (h : host.packetOf frame = .ok packet) :
    dataFrame packet = if carriesData ⟨flags, 0, 0, 0, []⟩ then some (id, payload) else none := by
  obtain ⟨msg, destination, sequence, hframe⟩ := streamFrame_packetOf hspeaks h
  unfold dataFrame
  rw [hframe]
  rfl

/-- A frame of a handshake or of an end. -/
def Quiet (frame : OutgoingFrame) : Prop :=
  ∃ flags id payload, Speaks flags id payload frame ∧ carriesData ⟨flags, 0, 0, 0, []⟩ = false

theorem Quiet.dataFrame_eq (hquiet : Quiet frame) (h : host.packetOf frame = .ok packet) : dataFrame packet = none := by
  obtain ⟨flags, id, payload, hspeaks, hflags⟩ := hquiet
  rw [dataFrame_packetOf hspeaks h, hflags]
  rfl

theorem dataOf_transmit_quiet {frames : List OutgoingFrame} (h : ∀ frame ∈ frames, Quiet frame) (out : ℕ) :
    dataOf (host.transmit out frames) = [] := by
  induction frames generalizing out with
  | nil => cases out <;> rfl
  | cons frame frames ih =>
    cases out with
    | zero => rfl
    | succ out =>
      unfold StreamHost.transmit
      split
      next => rfl
      next packet hpacket =>
        unfold dataOf
        rw [filterMap_cons_none ((h frame mem_cons_self).dataFrame_eq hpacket)]
        exact ih (fun frame' hmem => h frame' (mem_cons_of_mem _ hmem)) out

/-- The data of a call that sends requests and then its payload: the payload, once all of it is out. -/
theorem dataOf_transmit_send (host : StreamHost) {requests data : List OutgoingFrame}
    (hrequests : ∀ frame ∈ requests, Quiet frame)
    (hdata : ∀ frame ∈ data, Speaks p2pStreamData id payload frame) (hone : data.length ≤ 1) (out : ℕ) :
    (dataOf (host.transmit out (requests ++ data))).Sublist
      (if (host.transmit out (requests ++ data)).length = requests.length + 1 then [(id, payload)] else []) := by
  induction requests generalizing out with
  | nil =>
    rw [nil_append]
    match out, data, hone with
    | 0, _, _ => exact nil_sublist _
    | _ + 1, [], _ => exact nil_sublist _
    | out + 1, [frame], _ =>
      unfold StreamHost.transmit
      split
      next => exact nil_sublist _
      next packet hpacket =>
        have hsome : dataFrame packet = some (id, payload) :=
          dataFrame_packetOf (hdata frame mem_cons_self) hpacket
        have hrest : host.transmit out [] = [] := by cases out <;> rfl
        rw [hrest]
        unfold dataOf
        rw [filterMap_cons_some hsome]
        exact .refl _
  | cons frame requests ih =>
    cases out with
    | zero => exact nil_sublist _
    | succ out =>
      rw [cons_append]
      unfold StreamHost.transmit
      split
      next => exact nil_sublist _
      next packet hpacket =>
        have hlater := ih (fun frame' hmem => hrequests frame' (mem_cons_of_mem _ hmem)) out
        unfold dataOf at hlater ⊢
        rw [filterMap_cons_none ((hrequests frame mem_cons_self).dataFrame_eq hpacket)]
        simpa only [length_cons, Nat.add_right_cancel_iff] using hlater

/-! ### What a step sends -/

variable {st : StreamState} {op : StreamOp}

theorem quiet_of_framePayload (f : Bytes → OutgoingFrame)
    (hf : ∀ bytes, (f bytes).payload = bytes) (hflags : carriesData ⟨flags, 0, 0, 0, []⟩ = false)
    (h : frame ∈ (framePayload flags id destination sequence payload).map f) : Quiet frame :=
  ⟨flags, id, payload, speaks_of_framePayload f hf h, hflags⟩

variable {dst : AddressBookEntry} {dstPort srcPort : UInt16} {resolved : Option Bytes}

theorem openStream_quiet : ∀ frame ∈ (st.openStream dst dstPort srcPort resolved).2.sent, Quiet frame := by
  intro frame hframe
  unfold openStream at hframe
  split at hframe
  case isTrue => simp [silent] at hframe
  split at hframe
  next => simp [silent] at hframe
  next bound hbound =>
    dsimp only at hframe
    split at hframe
    case isTrue => simp [silent] at hframe
    case isFalse => exact quiet_of_framePayload _ (fun _ => rfl) (by decide) hframe

theorem openAck_quiet {msg : P2pDecoded} {request : P2pStreamDecoded} :
    ∀ frame ∈ (st.openAck msg request id).toList, Quiet frame := by
  intro frame hframe
  unfold openAck at hframe
  split at hframe
  next => simp at hframe
  next bytes hbytes =>
    obtain rfl := by simpa using hframe
    exact ⟨_, _, _, ⟨_, _, hbytes⟩, by decide⟩

theorem dispatch_quiet {msg : P2pDecoded} {received : P2pStreamDecoded} :
    ∀ frame ∈ (st.dispatchStreamFrame msg received).reply.toList, Quiet frame := by
  have h := dispatch_outcome st msg received
  generalize st.dispatchStreamFrame msg received = d at h ⊢
  cases h with
  | ignored | exhausted | connected | control => exact fun _ hframe => absurd hframe not_mem_nil
  | repeated | opened => exact openAck_quiet

theorem receive_quiet {attributed replied : Bool} {accepts : ℕ → Bool} :
    ∀ frame ∈ (st.receive packet attributed replied accepts).2.sent, Quiet frame := by
  unfold StreamState.receive
  split
  next => simp [silent]
  next msg received hframe =>
    split
    case isTrue => exact dispatch_quiet
    case isFalse => simp [silent]

variable {s : P2pStreamSession}

/-- The frames of a call on a stream: a request while the peer's stream is not known, and its own. -/
theorem sendControl_sent (payload : Bytes) (hs : st.sessions[id]? = some s) (hflags : flags &&& p2pStreamSyn = 0) :
    ∃ requests own, (st.sendControl id flags payload).2.sent = requests ++ own ∧
      (∀ frame ∈ requests, Quiet frame) ∧ requests.length = (if s.peerStreamId = 0 then 1 else 0) ∧
      (∀ frame ∈ own, Speaks flags id payload frame) ∧ own.length ≤ 1 := by
  unfold sendControl
  rw [hs]
  dsimp only
  rw [map_append]
  refine ⟨_, _, rfl, ?_, ?_, ?_, ?_⟩
  · intro frame hframe
    split at hframe
    case isTrue => exact quiet_of_framePayload _ (fun _ => rfl) (by decide) hframe
    case isFalse => simp at hframe
  · by_cases hzero : s.peerStreamId = 0
    · rw [if_pos ⟨hzero, hflags⟩, if_pos hzero]
      rfl
    · rw [if_neg (fun h => hzero h.1), if_neg hzero]
      rfl
  · intro frame hframe
    exact speaks_of_framePayload _ (fun _ => rfl) hframe
  · unfold framePayload
    split <;> simp

theorem sendControl_missing (hs : st.sessions[id]? = none) : (st.sendControl id flags payload).2.sent = [] := by
  unfold sendControl
  rw [hs]
  rfl

theorem sendControl_quiet (flags : UInt8) (hflags : flags &&& p2pStreamSyn = 0)
    (hend : carriesData ⟨flags, 0, 0, 0, []⟩ = false) :
    ∀ frame ∈ (st.sendControl id flags payload).2.sent, Quiet frame := by
  intro frame hframe
  cases hs : st.sessions[id]? with
  | none =>
    rw [sendControl_missing hs] at hframe
    cases hframe
  | some s =>
    obtain ⟨requests, own, hsent, hrequests, -, hown, -⟩ := sendControl_sent payload hs hflags
    rw [hsent, mem_append] at hframe
    rcases hframe with hrequest | hmine
    · exact hrequests frame hrequest
    · exact ⟨flags, id, payload, hown frame hmine, hend⟩

variable {p : StreamParty} {peer : StreamHost} {event : PartyEvent}

/-- The data that a step puts on its way is in the log of its calls. -/
theorem dataOf_packetsOf (hop : event.op peer p.inbox = some op) :
    (dataOf (packetsOf host p.state event op)).Sublist (p.sentBy (packetsOf host p.state event op) event) := by
  cases event with
  | send id payload out =>
    cases hop
    unfold packetsOf sentBy StreamState.perform PartyEvent.out
    dsimp only
    cases hs : p.state.sessions[id]? with
    | none =>
      rw [sendControl_missing hs, dataOf_transmit_quiet (by simp)]
    | some s =>
      have hflags : p2pStreamData &&& p2pStreamSyn = 0 := by decide
      obtain ⟨requests, own, hsent, hrequests, hlength, hown, hone⟩ := sendControl_sent payload hs hflags
      have hdata := dataOf_transmit_send host hrequests hown hone out
      have hcount : requests.length + 1 = if s.peerStreamId = 0 then 2 else 1 := by
        rw [hlength]
        split <;> rfl
      rw [hsent]
      rw [hcount] at hdata
      exact hdata
  | openStream dst dstPort srcPort resolved out =>
    cases hop
    exact (dataOf_transmit_quiet openStream_quiet out).symm ▸ nil_sublist _
  | close id out =>
    cases hop
    exact (dataOf_transmit_quiet (sendControl_quiet p2pStreamFin (by decide) (by decide)) out).symm ▸ nil_sublist _
  | reset id out =>
    cases hop
    exact (dataOf_transmit_quiet (sendControl_quiet p2pStreamRst (by decide) (by decide)) out).symm ▸ nil_sublist _
  | retire | bindPort | clearPort => exact nil_sublist _
  | deliver attributed replied accepts =>
    obtain ⟨packet, -, rfl⟩ := Option.map_eq_some_iff.mp hop
    exact (dataOf_transmit_quiet receive_quiet _).symm ▸ nil_sublist _

/-! ### What a delivery raises -/

variable {msg : P2pDecoded} {received : P2pStreamDecoded} {r : RaisedData}

/-- The data event of a frame, on the session that took it. -/
def raisedOn (st : StreamState) (id : UInt32) (s : P2pStreamSession) (msg : P2pDecoded)
    (received : P2pStreamDecoded) : RaisedData :=
  ⟨(st.eventOf .data id s msg received).event, s.peerStreamId⟩

theorem dataEvent_none {pending : PendingP2pStreamEvent} (h : pending.event.kind ≠ .data) :
    [pending].filterMap (dataEvent st) = [] := by
  have hnone : dataEvent st pending = none := if_neg h
  rw [filterMap_cons_none hnone, filterMap_nil]

/-- A frame raises at most one data event, on a session that takes frames of its stream. -/
theorem dispatch_events (st : StreamState) (msg : P2pDecoded) (received : P2pStreamDecoded) :
    (st.dispatchStreamFrame msg received).events.filterMap (dataEvent st) = [] ∨
      carriesData received = true ∧ ∃ id s, s.fromStream received = true ∧
        (st.dispatchStreamFrame msg received).events.filterMap (dataEvent st) = [raisedOn st id s msg received] := by
  have h := dispatch_outcome st msg received
  generalize st.dispatchStreamFrame msg received = d at h ⊢
  cases h with
  | ignored | repeated | exhausted => exact .inl rfl
  | opened _ hkind => exact .inl (dataEvent_none (hkind ▸ nofun))
  | connected _ _ _ => exact .inl (dataEvent_none nofun)
  | @control id s hs _ hstream hcontrol =>
    by_cases hkind : controlKind received = .data
    · refine .inr ⟨by simp [carriesData, hcontrol, hkind], id, s, hstream, ?_⟩
      have hevent : dataEvent st (st.eventOf (controlKind received) id s msg received) =
          some (raisedOn st id s msg received) := by
        unfold dataEvent
        rw [if_pos (by exact hkind), hkind]
        exact congrArg _ hs
      rw [filterMap_cons_some hevent, filterMap_nil]
    · exact .inl (dataEvent_none hkind)

/-- The delivery of a packet raises nothing, or its data on a session of its stream. -/
theorem raisedBy_receive (st : StreamState) (packet : Bytes) (attributed replied : Bool) (accepts : ℕ → Bool) :
    raisedBy st (.receive packet attributed replied accepts) = [] ∨
      ∃ r, raisedBy st (.receive packet attributed replied accepts) = [r] ∧ dataFrame packet = some r.said ∧
        (r.sessionPeer ≠ 0 → r.event.peerStreamId = r.sessionPeer) := by
  cases attributed with
  | false => exact .inl rfl
  | true =>
    unfold raisedBy
    dsimp only
    split
    next => exact .inl rfl
    next msg received hframe =>
      refine (dispatch_events st msg received).imp_right ?_
      rintro ⟨hdata, id, s, hstream, hraised⟩
      refine ⟨_, hraised, ?_, ?_⟩
      · unfold dataFrame
        rw [hframe]
        dsimp only
        rw [if_pos hdata]
        rfl
      · intro hknown
        unfold P2pStreamSession.fromStream at hstream
        rw [Bool.or_eq_true, beq_iff_eq, beq_iff_eq] at hstream
        exact (hstream.resolve_left hknown).symm

/-! ### Runs -/

/-- What has been raised and what is on its way come from what the other party has sent, in order. -/
structure Inv (link : StreamLink) : Prop where
  order : ∀ side, ((link side).raised.map RaisedData.said ++ dataOf (link side).inbox).Sublist (link side.other).sent
  named : ∀ side, ∀ r ∈ (link side).raised, r.sessionPeer ≠ 0 → r.event.peerStreamId = r.sessionPeer

variable {hosts : Side → StreamHost} {link : StreamLink}

/-- What a step raises and leaves on its way to the party was on its way before it. -/
theorem raisedBy_inbox (hop : event.op peer p.inbox = some op) :
    ((raisedBy p.state op).map RaisedData.said ++ dataOf (inboxAfter p.inbox event)).Sublist (dataOf p.inbox) := by
  cases event with
  | deliver attributed replied accepts =>
    obtain ⟨packet, hhead, rfl⟩ := Option.map_eq_some_iff.mp hop
    obtain ⟨rest, hinbox⟩ := List.head?_eq_some_iff.mp hhead
    unfold inboxAfter dataOf
    rw [hinbox]
    obtain hnone | ⟨r, hraised, hdata, -⟩ := raisedBy_receive p.state packet attributed replied accepts
    · rw [hnone]
      exact List.Sublist.filterMap _ (sublist_cons_self packet rest)
    · rw [hraised, filterMap_cons_some hdata]
      exact .refl _
  | openStream | send | close | reset | retire | bindPort | clearPort => cases hop; exact .refl _

theorem raisedBy_named (h : r ∈ raisedBy st op) : r.sessionPeer ≠ 0 → r.event.peerStreamId = r.sessionPeer := by
  cases op with
  | receive packet attributed replied accepts =>
    obtain hnone | ⟨r', hraised, -, hname⟩ := raisedBy_receive st packet attributed replied accepts
    · rw [hnone] at h
      cases h
    · rw [hraised, mem_singleton] at h
      rw [h]
      exact hname
  | _ => cases h

variable {link' : StreamLink}

/-- A step changes the party that acts, and what is on its way to the other one. -/
theorem step_spec {side : Side} (hstep : link.step hosts (side, event) = link') :
    link' = link ∨ ∃ op packets, event.op (hosts side.other) (link side).inbox = some op ∧
      packets = packetsOf (hosts side) (link side).state event op ∧ link' side = actor (link side) packets event op ∧
      link' side.other = { link side.other with inbox := (link side.other).inbox ++ packets } := by
  subst hstep
  unfold StreamLink.step
  cases hop : event.op (hosts side.other) (link side).inbox with
  | none => exact .inl rfl
  | some op => exact .inr ⟨op, _, rfl, rfl, if_pos rfl, if_neg side.other_ne⟩

theorem Inv.step (hinv : Inv link) (e : Side × PartyEvent) : Inv (link.step hosts e) := by
  obtain ⟨side, event⟩ := e
  generalize hstep : link.step hosts (side, event) = link'
  obtain rfl | ⟨op, packets, hop, hpackets, hactor, hother⟩ := step_spec hstep
  · exact hinv
  -- the party that acts takes what was on its way
  have hacts : ((link' side).raised.map RaisedData.said ++ dataOf (link' side).inbox).Sublist (link' side.other).sent := by
    rw [hactor, hother]
    unfold actor
    rw [map_append, append_assoc]
    exact ((List.Sublist.refl _).append (raisedBy_inbox hop)).trans (hinv.order side)
  -- the other party has more on its way, and the log has grown by as much
  have hhears : ((link' side.other).raised.map RaisedData.said ++ dataOf (link' side.other).inbox).Sublist
      (link' side).sent := by
    have hbefore := hinv.order side.other
    rw [side.other_other] at hbefore
    rw [hactor, hother, hpackets]
    unfold actor dataOf
    rw [filterMap_append, ← append_assoc]
    exact hbefore.append (dataOf_packetsOf hop)
  constructor
  · intro receiver
    obtain rfl | rfl := side.eq_or_other receiver
    · exact hacts
    · rw [side.other_other]
      exact hhears
  · intro receiver r hr
    obtain rfl | rfl := side.eq_or_other receiver
    · rw [hactor] at hr
      rcases mem_append.mp hr with hold | hnew
      · exact hinv.named side r hold
      · exact raisedBy_named hnew
    · rw [hother] at hr
      exact hinv.named side.other r hr

/-! ### The ids of streams -/

variable {st' : StreamState}

/-- What a step does to the table: no new session, or one with the id that was allocated. -/
inductive Allocates (st st' : StreamState) : Prop
  | none (hnext : st'.nextStreamId = st.nextStreamId) (hsub : ∀ id, id ∈ st'.sessions → id ∈ st.sessions)
  | exhausted (hid : st.allocateStreamId.1 = 0)
  | one (hnext : st'.nextStreamId = st.allocateStreamId.2)
      (hmem : ∀ id, id ∈ st'.sessions ↔ id = st.allocateStreamId.1 ∨ id ∈ st.sessions)

theorem Allocates.refl (st : StreamState) : Allocates st st := .none rfl fun _ h => h

theorem allocates_update {s' : P2pStreamSession} (hs : st.sessions[id]? = some s) :
    Allocates st { st with sessions := st.sessions.insert id s' } := by
  refine .none rfl fun k hk => ?_
  rw [ExtTreeMap.mem_insert, Std.LawfulEqCmp.compare_eq_iff_eq] at hk
  rcases hk with rfl | hk
  · exact ExtTreeMap.mem_iff_isSome_getElem?.mpr (by rw [hs]; rfl)
  · exact hk

theorem allocates_erase (id : UInt32) : Allocates st (st.retire id) :=
  .none rfl fun _ hk => ExtTreeMap.mem_of_mem_erase hk

theorem allocates_insert : Allocates st { st with
        nextStreamId := st.allocateStreamId.2, sessions := st.sessions.insert st.allocateStreamId.1 s } := by
  refine .one rfl fun k => ?_
  rw [ExtTreeMap.mem_insert, Std.LawfulEqCmp.compare_eq_iff_eq, eq_comm]

theorem dispatch_allocates : Allocates st (st.dispatchStreamFrame msg received).state := by
  have h := dispatch_outcome st msg received
  generalize st.dispatchStreamFrame msg received = d at h ⊢
  cases h with
  | ignored | repeated => exact .refl st
  | exhausted hid => exact .exhausted hid
  | opened _ _ => exact allocates_insert
  | connected hs _ _ => exact allocates_update hs
  | @control k _ _ _ _ _ =>
    split
    case isTrue => exact .refl st
    case isFalse => exact allocates_erase k

theorem openStream_allocates : Allocates st (st.openStream dst dstPort srcPort resolved).1 := by
  unfold openStream
  split
  case isTrue => exact .refl st
  split
  next => exact .refl st
  next bound hbound =>
    dsimp only
    split
    case isTrue hid => exact .exhausted hid
    case isFalse => exact allocates_insert

theorem sendControl_allocates : Allocates st (st.sendControl id flags payload).1 := by
  unfold sendControl
  split
  next => exact .refl st
  next s hs => exact allocates_update hs

theorem op_allocates (st : StreamState) {inbox : List Bytes}
    (hop : event.op peer inbox = some op) : Allocates st (st.step op) := by
  cases event with
  | openStream dst dstPort srcPort resolved out => cases hop; exact openStream_allocates
  | send | close | reset => cases hop; exact sendControl_allocates
  | retire id => cases hop; exact allocates_erase id
  | bindPort port handler =>
    cases hop
    unfold StreamState.step perform
    dsimp only
    split <;> exact .none rfl fun _ h => h
  | clearPort port => cases hop; exact .none rfl fun _ h => h
  | deliver attributed replied accepts =>
    obtain ⟨packet, -, rfl⟩ := Option.map_eq_some_iff.mp hop
    unfold StreamState.step perform StreamState.receive
    dsimp only
    split
    next => exact .refl st
    next msg received hframe =>
      split
      case isTrue => exact dispatch_allocates
      case isFalse => exact .refl st

/-- The ids are given out in order from one on. -/
structure Numbered (p : StreamParty) : Prop where
  ids : p.created.map UInt32.toNat = List.range' 1 p.created.length
  next : p.state.nextStreamId.toNat = p.created.length + 1
  live : ∀ id ∈ p.state.sessions, id ∈ p.created

theorem Numbered.nodup (h : Numbered p) : p.created.Nodup := by
  have hrange : (p.created.map UInt32.toNat).Nodup := by
    rw [h.ids]
    exact nodup_range'
  exact List.Nodup.of_map _ hrange

theorem atLeastOne_of_pos {n : UInt32} (h : 0 < n.toNat) : atLeastOne n = n := by
  refine if_neg fun hzero => ?_
  rw [hzero] at h
  exact absurd h (by decide)

theorem Numbered.free (h : Numbered p) : p.state.nextStreamId ∉ p.state.sessions := by
  intro hlive
  have hmem : p.state.nextStreamId.toNat ∈ p.created.map UInt32.toNat := mem_map_of_mem (h.live _ hlive)
  rw [h.ids, mem_range'_1, h.next] at hmem
  omega

/-- The next id is free, so it is the one that is given out. -/
theorem Numbered.allocate (h : Numbered p) :
    p.state.allocateStreamId = (p.state.nextStreamId, atLeastOne (p.state.nextStreamId + 1)) := by
  have hpos : atLeastOne p.state.nextStreamId = p.state.nextStreamId :=
    atLeastOne_of_pos (by rw [h.next]; omega)
  have hrounds : 2 ^ 32 - 1 = (2 ^ 32 - 2) + 1 := by norm_num
  unfold allocateStreamId
  rw [hrounds]
  unfold allocateFrom
  rw [hpos, if_pos h.free]

theorem createdBy_nil (hsub : ∀ id, id ∈ st'.sessions → id ∈ st.sessions) : createdBy st st' = [] := by
  unfold createdBy
  rw [filter_eq_nil_iff]
  intro k hk
  simpa using hsub k (ExtTreeMap.mem_keys.mp hk)

theorem createdBy_one (hfree : id ∉ st.sessions) (hmem : ∀ k, k ∈ st'.sessions ↔ k = id ∨ k ∈ st.sessions) :
    createdBy st st' = [id] := by
  have hnodup : (st'.sessions.keys.filter fun k => k ∉ st.sessions).Nodup := st'.sessions.nodup_keys.filter _
  refine perm_singleton.mp ((perm_ext_iff_of_nodup hnodup (nodup_singleton id)).mpr fun k => ?_)
  rw [mem_filter, ExtTreeMap.mem_keys, hmem, mem_singleton, decide_eq_true_eq]
  constructor
  · rintro ⟨rfl | hold, hnew⟩
    · rfl
    · exact absurd hold hnew
  · rintro rfl
    exact ⟨.inl rfl, hfree⟩

/-- The party has given out its ids in order, while there are ids left. -/
def Counted (p : StreamParty) : Prop := p.created.length < 2 ^ 32 - 1 → Numbered p

theorem Counted.act {packets : List Bytes}
    (hp : Counted p) (hop : event.op peer p.inbox = some op) : Counted (actor p packets event op) := by
  intro hbound
  have hlength : (actor p packets event op).created.length =
      p.created.length + (createdBy p.state (p.state.step op)).length := length_append
  have h : Numbered p := hp (by omega)
  have hpos : 0 < p.state.nextStreamId.toNat := by
    rw [h.next]
    omega
  have hids : (actor p packets event op).created = p.created ++ createdBy p.state (p.state.step op) := rfl
  have hstate : (actor p packets event op).state = p.state.step op := rfl
  cases op_allocates p.state hop with
  | none hnext hsub =>
    rw [createdBy_nil hsub, append_nil] at hids
    constructor
    · rw [hids]
      exact h.ids
    · rw [hids, hstate, hnext]
      exact h.next
    · intro id hid
      rw [hids]
      exact h.live id (hsub id hid)
  | exhausted hid =>
    rw [h.allocate] at hid
    rw [show p.state.nextStreamId = 0 from hid] at hpos
    exact absurd hpos (by decide)
  | one hnext hmem =>
    rw [h.allocate] at hnext hmem
    have hnew := createdBy_one h.free hmem
    rw [hnew] at hids hlength
    rw [length_singleton] at hlength
    constructor
    · rw [hlength, hids, map_append, h.ids, List.range'_concat, map_singleton, h.next]
      congr 2
      omega
    · have hsucc : (p.state.nextStreamId + 1).toNat = p.created.length + 2 := by
        rw [UInt32.toNat_add, h.next, UInt32.toNat_one]
        exact Nat.mod_eq_of_lt (by omega)
      rw [hstate, hnext, hlength, atLeastOne_of_pos (by omega), hsucc]
    · intro id hid
      rw [hids, mem_append, mem_singleton]
      rcases (hmem id).mp hid with hid | hold
      · exact .inr hid
      · exact .inl (h.live id hold)

theorem counted_step (h : ∀ side, Counted (link side)) (e : Side × PartyEvent) (receiver : Side) :
    Counted (link.step hosts e receiver) := by
  obtain ⟨side, event⟩ := e
  generalize hstep : link.step hosts (side, event) = link'
  obtain rfl | ⟨op, packets, hop, -, hactor, hother⟩ := step_spec hstep
  · exact h receiver
  obtain rfl | rfl := side.eq_or_other receiver
  · rw [hactor]
    exact (h side).act hop
  · rw [hother]
    intro hbound
    have hsame := h side.other hbound
    exact ⟨hsame.ids, hsame.next, hsame.live⟩

theorem counted_new (books : Side → ExtTreeMap Bytes AddressBookEntry) (side : Side) : Counted (new books side) := by
  intro _
  refine ⟨rfl, rfl, fun id hid => ?_⟩
  exact absurd hid ExtTreeMap.not_mem_empty

theorem inv_new (books : Side → ExtTreeMap Bytes AddressBookEntry) : Inv (new books) :=
  ⟨fun _ => .refl _, fun _ _ hr => absurd hr not_mem_nil⟩

/-- Two routers, any interleaving of their calls and deliveries: a data event on a session of the peer's
stream `i` carries what the peer has sent on `i`, the events that name `i` carry in order and each once
some of what it has sent on `i`, and an id stands for one stream as long as there are ids left. -/
theorem stream_fidelity (hosts : Side → StreamHost) (books : Side → ExtTreeMap Bytes AddressBookEntry)
    (es : List (Side × PartyEvent)) (side : Side) :
    let link := run (step hosts) (new books) es
    (∀ r ∈ (link side).raised, r.sessionPeer ≠ 0 →
      r.event.peerStreamId = r.sessionPeer ∧ (r.sessionPeer, r.event.payload) ∈ (link side.other).sent) ∧
    (∀ i : UInt32,
      (((link side).raised.filter fun r => r.event.peerStreamId = i).map fun r => r.event.payload).Sublist
        (((link side.other).sent.filter fun q => q.1 = i).map Prod.snd)) ∧
    ((link side).created.length < 2 ^ 32 - 1 → (link side).created.Nodup) := by
  intro link
  have hinv : Inv link := run_always (fun _ e h => h.step e) (inv_new books) es
  have hcounted : ∀ side, Counted (link side) := run_always (I := fun link : StreamLink => ∀ side, Counted (link side))
    (fun _ e h => counted_step h e) (counted_new books) es
  have hraised : ((link side).raised.map RaisedData.said).Sublist (link side.other).sent :=
    (sublist_append_left _ _).trans (hinv.order side)
  refine ⟨?_, ?_, fun hbound => (hcounted side hbound).nodup⟩
  · intro r hr hknown
    have hname := hinv.named side r hr hknown
    refine ⟨hname, ?_⟩
    rw [← hname]
    exact hraised.subset (mem_map_of_mem hr)
  · intro i
    have hsub := ((hraised.filter fun q => decide (q.1 = i)).map Prod.snd)
    rw [filter_map, map_map] at hsub
    exact hsub

/-- The hosts `a` and `b`. -/
def twoHosts : Side → StreamHost
  | .left => ⟨[97], 4, by decide +kernel⟩
  | .right => ⟨[98], 5, by decide +kernel⟩

def entryOfRight : AddressBookEntry := ⟨[98], 5, 5, .dynamic, 0, 0, 0⟩

def twoBooks : Side → ExtTreeMap Bytes AddressBookEntry
  | .left => (∅ : ExtTreeMap Bytes AddressBookEntry).insert [98] entryOfRight
  | .right => ∅

def delivery : PartyEvent := .deliver true true fun _ => true

/-- Data that is sent before the handshake is complete, and data that is sent after it. -/
def earlyData : List (Side × PartyEvent) :=
  [(.left, .openStream entryOfRight 7 3 none 1), (.left, .send 1 [1] 2), (.right, delivery), (.right, delivery),
    (.right, delivery), (.left, delivery), (.left, .send 1 [2] 1), (.right, delivery)]

theorem stream_fidelity_early_data :
    let link := run (step twoHosts) (new twoBooks) earlyData
    (link .right).raised.map RaisedData.said = [(1, [1]), (1, [2])] ∧ (link .left).sent = [(1, [1]), (1, [2])] ∧
      (∀ r ∈ (link .right).raised, r.sessionPeer = 1) ∧
      (∀ r ∈ (link .right).raised, (r.sessionPeer, r.event.payload) ∈ (link .left).sent) ∧
      (link .right).created.Nodup := by
  intro link
  have hpeer : ∀ r ∈ (link .right).raised, r.sessionPeer = 1 := by decide +kernel
  have hmain := stream_fidelity twoHosts twoBooks earlyData .right
  refine ⟨by decide +kernel, by decide +kernel, hpeer, ?_, hmain.2.2 (by decide +kernel)⟩
  intro r hr
  have hknown : r.sessionPeer ≠ 0 := by
    rw [hpeer r hr]
    decide
  exact (hmain.1 r hr hknown).2

end StreamLink

end SedsNet
