import SedsNet.NodeAddress
import SedsNet.Runs

/-! # Streams between peers

The stream sessions of a router (`router.rs`, `router_prepared_p2p.rs`).  A received stream frame
opens a session, completes a handshake, or delivers data to a session, closes it or resets it; local
calls open sessions, send on them and close them, directly or by a prepared batch that is admitted
later.

One step is one section under the router's lock.  A call that sends in between (`sendControl`, then
`retire` for a close or a reset) is therefore two steps, and frames may be received between them.
What the rest of the router answers is carried by the step: whether the sender of a packet is the
host that its frame names, whether a reply could be sent, whether a prepared batch is current and
fits the queues, what a handler returns, and the address book after discovery has changed it. -/

namespace SedsNet

open Std (ExtTreeMap)
open ByteWords List

/-! ### Frames -/

structure P2pDecoded where
  sourceHostname : Bytes
  sourceAddress : UInt32
  sourcePort : UInt16
  destinationPort : UInt16
  payload : Bytes
deriving DecidableEq

structure P2pStreamDecoded where
  flags : UInt8
  sourceStreamId : UInt32
  destinationStreamId : UInt32
  sequence : UInt32
  payload : Bytes
deriving DecidableEq

/-- `SDSP`. -/
def p2pStreamMagic : Bytes := [0x53, 0x44, 0x53, 0x50]
def p2pStreamVersion : UInt8 := 1
def p2pStreamSyn : UInt8 := 0x01
def p2pStreamAck : UInt8 := 0x02
def p2pStreamFin : UInt8 := 0x04
def p2pStreamRst : UInt8 := 0x08
def p2pStreamData : UInt8 := 0x10

/-- The little-endian number of the `w` bytes from `k` on. -/
def leAt (bytes : Bytes) (k w : ℕ) : ℕ := ofLe ((bytes.drop k).take w)

def encodeP2pPayload (hostname : Bytes) (address : UInt32) (srcPort dstPort : UInt16) (payload : Bytes) :
    TelemetryResult Bytes :=
  if 2 ^ 16 ≤ hostname.length then .error (.pack "p2p hostname too long")
  else if 2 ^ 32 ≤ payload.length then .error (.pack "p2p payload too long")
  else
    .ok (1 :: leBytes 2 dstPort.toNat ++ leBytes 2 srcPort.toNat ++ leBytes 4 address.toNat ++
      leBytes 2 hostname.length ++ leBytes 4 payload.length ++ hostname ++ payload)

def decodeP2pPayload (payload : Bytes) : TelemetryResult P2pDecoded :=
  if payload.length < 15 then .error (.unpack "p2p frame short")
  else if leAt payload 0 1 ≠ 1 then .error (.unpack "p2p frame version")
  else
    let hostEnd := 15 + leAt payload 9 2
    let bodyEnd := hostEnd + leAt payload 11 4
    if payload.length < hostEnd ∨ bodyEnd ≠ payload.length then .error (.unpack "p2p frame length")
    else
      let hostname := (payload.drop 15).take (leAt payload 9 2)
      if ByteArray.validateUTF8 ⟨hostname.toArray⟩ then
        .ok {
          sourceHostname := hostname
          sourceAddress := UInt32.ofNat (leAt payload 5 4)
          sourcePort := UInt16.ofNat (leAt payload 3 2)
          destinationPort := UInt16.ofNat (leAt payload 1 2)
          payload := payload.drop hostEnd }
      else .error (.unpack "p2p hostname utf8")

def encodeP2pStreamPayload (flags : UInt8) (sourceStreamId destinationStreamId sequence : UInt32) (payload : Bytes) :
    TelemetryResult Bytes :=
  if 2 ^ 32 ≤ payload.length then .error (.pack "p2p stream payload too long")
  else
    .ok (p2pStreamMagic ++ [p2pStreamVersion, flags] ++ leBytes 4 sourceStreamId.toNat ++
      leBytes 4 destinationStreamId.toNat ++ leBytes 4 sequence.toNat ++ leBytes 4 payload.length ++ payload)

/-- None for a payload that is not a stream frame. -/
def decodeP2pStreamPayload (payload : Bytes) : TelemetryResult (Option P2pStreamDecoded) :=
  if payload.take 4 ≠ p2pStreamMagic then .ok none
  else if payload.length < 22 then .error (.unpack "p2p stream frame short")
  else if leAt payload 4 1 ≠ p2pStreamVersion.toNat then .error (.unpack "p2p stream frame version")
  else if 22 + leAt payload 18 4 ≠ payload.length then .error (.unpack "p2p stream frame length")
  else
    .ok (some {
      flags := UInt8.ofNat (leAt payload 5 1)
      sourceStreamId := UInt32.ofNat (leAt payload 6 4)
      destinationStreamId := UInt32.ofNat (leAt payload 10 4)
      sequence := UInt32.ofNat (leAt payload 14 4)
      payload := payload.drop 22 })

theorem ofLe_half {n : ℕ} (h : n < 2 ^ 16) : ofLe (leBytes 2 n) = n := ofLe_leBytes_of_lt h

theorem ofLe_word {n : ℕ} (h : n < 2 ^ 32) : ofLe (leBytes 4 n) = n := ofLe_leBytes_of_lt h

/-- A message is decoded to what was encoded; host names are valid UTF-8. -/
theorem decodeP2pPayload_encode {hostname : Bytes} {address : UInt32} {srcPort dstPort : UInt16}
    {payload bytes : Bytes} (hutf8 : ByteArray.validateUTF8 ⟨hostname.toArray⟩ = true)
    (h : encodeP2pPayload hostname address srcPort dstPort payload = .ok bytes) :
    decodeP2pPayload bytes = .ok ⟨hostname, address, srcPort, dstPort, payload⟩ := by
  rw [encodeP2pPayload] at h
  split at h
  · cases h
  rename_i hhost
  split at h
  · cases h
  rename_i hbody
  cases h
  generalize hbytes : 1 :: leBytes 2 dstPort.toNat ++ leBytes 2 srcPort.toNat ++ leBytes 4 address.toNat ++
    leBytes 2 hostname.length ++ leBytes 4 payload.length ++ hostname ++ payload = bytes
  have hlen : bytes.length = 15 + hostname.length + payload.length := by
    simp only [← hbytes, length_append, length_cons, length_leBytes]
  have hversion : leAt bytes 0 1 = 1 := by rw [← hbytes]; rfl
  have hdst : leAt bytes 1 2 = dstPort.toNat := by
    rw [← hbytes]
    exact ofLe_half dstPort.toNat_lt
  have hsrc : leAt bytes 3 2 = srcPort.toNat := by
    rw [← hbytes]
    exact ofLe_half srcPort.toNat_lt
  have haddress : leAt bytes 5 4 = address.toNat := by
    rw [← hbytes]
    exact ofLe_word address.toNat_lt
  have hhostLen : leAt bytes 9 2 = hostname.length := by
    rw [← hbytes]
    exact ofLe_half (Nat.lt_of_not_le hhost)
  have hbodyLen : leAt bytes 11 4 = payload.length := by
    rw [← hbytes]
    exact ofLe_word (Nat.lt_of_not_le hbody)
  have htail : bytes.drop 15 = hostname ++ payload := by rw [← hbytes]; rfl
  have hname : (bytes.drop 15).take hostname.length = hostname := by rw [htail, take_left]
  have hpayload : bytes.drop (15 + hostname.length) = payload := by
    rw [← drop_drop, htail, drop_left]
  have hfits : ¬ (bytes.length < 15 + hostname.length ∨
      15 + hostname.length + payload.length ≠ bytes.length) := by omega
  simp only [decodeP2pPayload, hversion, hdst, hsrc, haddress, hhostLen, hbodyLen, hname, hpayload,
    show ¬ bytes.length < 15 by omega, hfits, hutf8, if_false, if_true, ne_eq, not_true_eq_false,
    UInt16.ofNat_toNat, UInt32.ofNat_toNat]

/-- So is a stream frame, which is never taken for a datagram. -/
theorem decodeP2pStreamPayload_encode {flags : UInt8} {sourceStreamId destinationStreamId sequence : UInt32}
    {payload bytes : Bytes}
    (h : encodeP2pStreamPayload flags sourceStreamId destinationStreamId sequence payload = .ok bytes) :
    decodeP2pStreamPayload bytes = .ok (some ⟨flags, sourceStreamId, destinationStreamId, sequence, payload⟩) := by
  rw [encodeP2pStreamPayload] at h
  split at h
  · cases h
  rename_i hbody
  cases h
  generalize hbytes : p2pStreamMagic ++ [p2pStreamVersion, flags] ++ leBytes 4 sourceStreamId.toNat ++
    leBytes 4 destinationStreamId.toNat ++ leBytes 4 sequence.toNat ++ leBytes 4 payload.length ++ payload = bytes
  have hlen : bytes.length = 22 + payload.length := by
    simp only [← hbytes, length_append, length_cons, length_nil, length_leBytes, p2pStreamMagic]
  have hmagic : bytes.take 4 = p2pStreamMagic := by rw [← hbytes]; rfl
  have hversion : leAt bytes 4 1 = p2pStreamVersion.toNat := by rw [← hbytes]; rfl
  have hflags : leAt bytes 5 1 = flags.toNat := by rw [← hbytes]; rfl
  have hsource : leAt bytes 6 4 = sourceStreamId.toNat := by
    rw [← hbytes]
    exact ofLe_word sourceStreamId.toNat_lt
  have hdestination : leAt bytes 10 4 = destinationStreamId.toNat := by
    rw [← hbytes]
    exact ofLe_word destinationStreamId.toNat_lt
  have hsequence : leAt bytes 14 4 = sequence.toNat := by
    rw [← hbytes]
    exact ofLe_word sequence.toNat_lt
  have hbodyLen : leAt bytes 18 4 = payload.length := by
    rw [← hbytes]
    exact ofLe_word (Nat.lt_of_not_le hbody)
  have hpayload : bytes.drop 22 = payload := by rw [← hbytes]; rfl
  simp only [decodeP2pStreamPayload, hmagic, hversion, hflags, hsource, hdestination, hsequence, hbodyLen,
    hpayload, show ¬ bytes.length < 22 by omega, show 22 + payload.length = bytes.length by omega,
    if_false, ne_eq, not_true_eq_false, UInt8.ofNat_toNat, UInt32.ofNat_toNat]

namespace P2pStreamDecoded

def has (frame : P2pStreamDecoded) (flag : UInt8) : Bool := frame.flags &&& flag != 0

/-- A request to open a stream. -/
def isOpen (frame : P2pStreamDecoded) : Bool := frame.has p2pStreamSyn && !frame.has p2pStreamAck

/-- The answer to such a request. -/
def isOpenAck (frame : P2pStreamDecoded) : Bool := frame.has p2pStreamSyn && frame.has p2pStreamAck

end P2pStreamDecoded

/-! ### Sessions -/

structure P2pStreamSession where
  peerHostname : Bytes
  peerAddress : UInt32
  localPort : UInt16
  peerPort : UInt16
  peerStreamId : UInt32
  nextSequence : UInt32
  connected : Bool
  /-- Whether the address is one that the peer was assigned, not the hash of its name. -/
  peerAddressBound : Bool
deriving DecidableEq

inductive P2pStreamEventKind where
  | accepted
  | connected
  | data
  | closed
  | reset
deriving DecidableEq

/-- What a handler is called with. -/
structure P2pStreamEvent where
  kind : P2pStreamEventKind
  streamId : UInt32
  peerStreamId : UInt32
  sequence : UInt32
  peerHostname : Bytes
  peerAddress : UInt32
  localPort : UInt16
  peerPort : UInt16
  payload : Bytes
deriving DecidableEq

/-- An event and the handlers that were bound to its port. -/
structure PendingP2pStreamEvent where
  handlers : List ℕ
  event : P2pStreamEvent
deriving DecidableEq

/-- A stream frame handed to the transmit path. -/
structure OutgoingFrame where
  hostname : Bytes
  address : UInt32
  destinationPort : UInt16
  sourcePort : UInt16
  payload : Bytes
deriving DecidableEq

/-- `P2pStreamOperation`. -/
inductive P2pStreamOperation where
  | data (payload : Bytes)
  | close
  | reset
deriving DecidableEq

inductive PreparedAction where
  | open (session : P2pStreamSession)
  | control (flags : UInt8) (expectedSequence : UInt32)
deriving DecidableEq

/-- A prepared batch, without its frames. -/
structure PreparedP2p where
  peer : AddressBookEntry
  streamId : UInt32
  action : PreparedAction
  admitted : Bool
deriving DecidableEq

structure StreamState where
  addressBook : ExtTreeMap Bytes AddressBookEntry
  sessions : ExtTreeMap UInt32 P2pStreamSession
  nextStreamId : UInt32
  /-- The handlers bound to a port, by number. -/
  handlers : ExtTreeMap UInt16 (List ℕ)
  prepared : List PreparedP2p

namespace P2pStreamSession

/-- The session that an open request, or a frame without a destination, belongs to. -/
def answersTo (s : P2pStreamSession) (msg : P2pDecoded) (frame : P2pStreamDecoded) : Bool :=
  s.peerStreamId == frame.sourceStreamId && s.localPort == msg.destinationPort &&
    s.peerPort == msg.sourcePort && s.peerAddress == msg.sourceAddress && s.peerHostname == msg.sourceHostname

/-- The peer's stream is not known yet, or it is the one that sent the frame. -/
def fromStream (s : P2pStreamSession) (frame : P2pStreamDecoded) : Bool :=
  s.peerStreamId == 0 || s.peerStreamId == frame.sourceStreamId

end P2pStreamSession

namespace StreamState

def new (addressBook : ExtTreeMap Bytes AddressBookEntry) : StreamState where
  addressBook
  sessions := ∅
  nextStreamId := 1
  handlers := ∅
  prepared := []

/-- `n.max(1)`. -/
def atLeastOne (n : UInt32) : UInt32 := if n = 0 then 1 else n

/-- The loop of `allocate_p2p_stream_id_locked`: the id, zero when there is none, and the next one. -/
def allocateFrom (sessions : ExtTreeMap UInt32 P2pStreamSession) : (rounds : ℕ) → (next : UInt32) → UInt32 × UInt32
  | 0, next => (0, next)
  | rounds + 1, next =>
    if atLeastOne next ∉ sessions then (atLeastOne next, atLeastOne (next + 1))
    else allocateFrom sessions rounds (atLeastOne (next + 1))

variable (st : StreamState) (peer : AddressBookEntry) (s : P2pStreamSession) (msg : P2pDecoded) (frame : P2pStreamDecoded)

def allocateStreamId : UInt32 × UInt32 :=
  allocateFrom st.sessions (2 ^ 32 - 1) st.nextStreamId

/-- The handlers of a port. -/
def handlersAt (port : UInt16) : List ℕ := (st.handlers[port]?).getD []

/-- `p2p_target_address_bound_locked`; `resolved` is the host that the compact address of the peer
stands for. -/
def targetAddressBound (resolved : Option Bytes) : Option Bool :=
  match st.addressBook[peer.hostname]? with
  | some current => if current = peer then some true else none
  | none =>
    if peer.address = senderAddressU32 peer.hostname ∧ resolved = some peer.hostname then some false else none

/-- `p2p_session_tuple_matches`. -/
def tupleMatches : Bool :=
  let addressMatches :=
    if s.peerAddressBound then s.peerAddress == msg.sourceAddress
    else
      match st.addressBook[s.peerHostname]? with
      | some known => known.address == msg.sourceAddress
      | none => true
  s.peerHostname == msg.sourceHostname && addressMatches && s.peerPort == msg.sourcePort &&
    s.localPort == msg.destinationPort

def findSession : Option UInt32 :=
  (st.sessions.toList.find? fun entry => entry.2.answersTo msg frame).map Prod.fst

/-- Where a frame to the host goes: the address that the book has for it, or else the given one. -/
def addressOf (hostname : Bytes) (address : UInt32) : UInt32 :=
  match st.addressBook[hostname]? with
  | some entry => entry.address
  | none => address

/-! ### Received frames -/

/-- What a section under the lock leaves to do. -/
structure Dispatched where
  state : StreamState
  reply : Option OutgoingFrame
  events : List PendingP2pStreamEvent

/-- The frame has no effect. -/
def ignore : Dispatched := ⟨st, none, []⟩

def openAck (localId : UInt32) : Option OutgoingFrame :=
  match encodeP2pStreamPayload (p2pStreamSyn ||| p2pStreamAck) localId frame.sourceStreamId 0 [] with
  | .error _ => none
  | .ok payload =>
    some {
      hostname := msg.sourceHostname
      address := st.addressOf msg.sourceHostname msg.sourceAddress
      destinationPort := msg.sourcePort
      sourcePort := msg.destinationPort
      payload }

/-- The session of an accepted request. -/
def acceptedSession : P2pStreamSession where
  peerHostname := msg.sourceHostname
  peerAddress := msg.sourceAddress
  localPort := msg.destinationPort
  peerPort := msg.sourcePort
  peerStreamId := frame.sourceStreamId
  nextSequence := 1
  connected := true
  peerAddressBound := true

/-- The event of a frame for a session. -/
def eventOf (kind : P2pStreamEventKind) (id : UInt32) (s : P2pStreamSession) (msg : P2pDecoded)
    (frame : P2pStreamDecoded) : PendingP2pStreamEvent where
  handlers := st.handlersAt s.localPort
  event :=
    { kind
      streamId := id
      peerStreamId := frame.sourceStreamId
      sequence := frame.sequence
      peerHostname := s.peerHostname
      peerAddress := if s.peerAddressBound then s.peerAddress else msg.sourceAddress
      localPort := s.localPort
      peerPort := s.peerPort
      payload := frame.payload }

/-- A request to open a stream: the session it has opened before, or a new one. -/
def dispatchOpen : Dispatched :=
  match st.findSession msg frame with
  | some id => ⟨st, st.openAck msg frame id, []⟩
  | none =>
    let (id, next) := st.allocateStreamId
    let st := { st with nextStreamId := next }
    if id = 0 then st.ignore
    else
      { state := { st with sessions := st.sessions.insert id (acceptedSession msg frame) }
        reply := st.openAck msg frame id
        events := [st.eventOf .accepted id (acceptedSession msg frame) msg frame] }

/-- A session once its request has been answered. -/
def connectedSession : P2pStreamSession :=
  { s with
    peerAddress := msg.sourceAddress, peerAddressBound := true, peerStreamId := frame.sourceStreamId,
    connected := true }

def dispatchOpenAck : Dispatched :=
  match st.sessions[frame.destinationStreamId]? with
  | none => st.ignore
  | some s =>
    if frame.sourceStreamId ≠ 0 ∧ st.tupleMatches s msg ∧ s.fromStream frame then
      { state :=
          { st with sessions := st.sessions.insert frame.destinationStreamId (connectedSession s msg frame) }
        reply := none
        events := [st.eventOf .connected frame.destinationStreamId (connectedSession s msg frame) msg frame] }
    else st.ignore

def controlKind : P2pStreamEventKind :=
  if frame.has p2pStreamRst then .reset else if frame.has p2pStreamFin then .closed else .data

/-- The session that a data or control frame names, by its destination or by its source. -/
def controlTarget : Option UInt32 :=
  if frame.destinationStreamId ≠ 0 then some frame.destinationStreamId else st.findSession msg frame

def dispatchControl : Dispatched :=
  match st.controlTarget msg frame with
  | none => st.ignore
  | some id =>
    match st.sessions[id]? with
    | none => st.ignore
    | some s =>
      if st.tupleMatches s msg ∧ s.fromStream frame then
        { state := if controlKind frame = .data then st else { st with sessions := st.sessions.erase id }
          reply := none
          events := [st.eventOf (controlKind frame) id s msg frame] }
      else st.ignore

/-- `dispatch_p2p_stream_frame` up to the calls of the handlers. -/
def dispatchStreamFrame : Dispatched :=
  if frame.isOpen then st.dispatchOpen msg frame
  else if frame.isOpenAck then st.dispatchOpenAck msg frame
  else if frame.has (p2pStreamFin ||| p2pStreamRst ||| p2pStreamData) then st.dispatchControl msg frame
  else st.ignore

/-- The stream frame of a packet's payload. -/
def streamFrame (payload : Bytes) : Option (P2pDecoded × P2pStreamDecoded) :=
  match decodeP2pPayload payload with
  | .error _ => none
  | .ok msg =>
    match decodeP2pStreamPayload msg.payload with
    | .ok (some frame) => some (msg, frame)
    | _ => none

/-- The handlers are called in turn until one fails. -/
def callHandlers (accepts : ℕ → Bool) : List (ℕ × P2pStreamEvent) → List (ℕ × P2pStreamEvent)
  | [] => []
  | call :: calls => call :: if accepts call.1 then callHandlers accepts calls else []

def callsOf (events : List PendingP2pStreamEvent) : List (ℕ × P2pStreamEvent) :=
  events.flatMap fun pending => pending.handlers.map fun handler => (handler, pending.event)

/-- What a step sends, and the calls of handlers that it makes. -/
structure StreamOutput where
  sent : List OutgoingFrame
  calls : List (ℕ × P2pStreamEvent)

def silent : StreamOutput := ⟨[], []⟩

/-- `dispatch_p2p_packet` for a stream frame: the reply goes out first, and when that fails no handler
is called. -/
def receive (payload : Bytes) (attributed replied : Bool) (accepts : ℕ → Bool) :
    StreamState × StreamOutput :=
  match streamFrame payload with
  | none => (st, silent)
  | some (msg, frame) =>
    if attributed then
      let done := st.dispatchStreamFrame msg frame
      let delivered := done.reply = none ∨ replied
      (done.state, ⟨done.reply.toList, if delivered then callHandlers accepts (callsOf done.events) else []⟩)
    else (st, silent)

/-! ### Local calls -/

/-- The session of a local open. -/
def openedSession (peerPort localPort : UInt16) (bound : Bool) : P2pStreamSession where
  peerHostname := peer.hostname
  peerAddress := peer.address
  localPort := localPort
  peerPort := peerPort
  peerStreamId := 0
  nextSequence := 1
  connected := false
  peerAddressBound := bound

def framePayload (flags : UInt8) (sourceStreamId destinationStreamId sequence : UInt32) (payload : Bytes) : List Bytes :=
  match encodeP2pStreamPayload flags sourceStreamId destinationStreamId sequence payload with
  | .ok bytes => [bytes]
  | .error _ => []

/-- `open_p2p_stream_to_entry`. -/
def openStream (dst : AddressBookEntry) (dstPort srcPort : UInt16) (resolved : Option Bytes) :
    StreamState × StreamOutput :=
  if dstPort = 0 ∨ srcPort = 0 then (st, silent)
  else
    match st.targetAddressBound dst resolved with
    | none => (st, silent)
    | some bound =>
      let (id, next) := st.allocateStreamId
      let st := { st with nextStreamId := next }
      if id = 0 then (st, silent)
      else
        ({ st with sessions := st.sessions.insert id (openedSession dst dstPort srcPort bound) },
          ⟨(framePayload p2pStreamSyn id 0 0 []).map fun payload =>
            ⟨dst.hostname, dst.address, dstPort, srcPort, payload⟩, []⟩)

/-- The first section of `send_p2p_stream_control`; a peer whose stream is not known is sent the
request again. -/
def sendControl (id : UInt32) (flags : UInt8) (payload : Bytes) : StreamState × StreamOutput :=
  match st.sessions[id]? with
  | none => (st, silent)
  | some s =>
    let refresh := s.peerStreamId = 0 ∧ flags &&& p2pStreamSyn = 0
    let payloads := (if refresh then framePayload p2pStreamSyn id 0 0 [] else []) ++
      framePayload flags id s.peerStreamId s.nextSequence payload
    ({ st with sessions := st.sessions.insert id { s with nextSequence := atLeastOne (s.nextSequence + 1) } },
      ⟨payloads.map fun payload =>
        ⟨s.peerHostname, st.addressOf s.peerHostname s.peerAddress, s.peerPort, s.localPort, payload⟩, []⟩)

/-- The second section, after a close or a reset has been sent. -/
def retire (id : UInt32) : StreamState := { st with sessions := st.sessions.erase id }

/-- The search for a free id that `prepare_p2p_stream_open` makes; none when it comes back to `first`. -/
def freeIdFrom (sessions : ExtTreeMap UInt32 P2pStreamSession) (first : UInt32) : (rounds : ℕ) → UInt32 → Option UInt32
  | 0, _ => none
  | rounds + 1, id =>
    if id ∉ sessions then some id
    else if atLeastOne (id + 1) = first then none
    else freeIdFrom sessions first rounds (atLeastOne (id + 1))

def prepareOpen (peerPort localPort : UInt16) (resolved : Option Bytes) : StreamState :=
  if peerPort = 0 ∨ localPort = 0 then st
  else
    match st.targetAddressBound peer resolved with
    | none => st
    | some bound =>
      match freeIdFrom st.sessions (atLeastOne st.nextStreamId) (2 ^ 32) (atLeastOne st.nextStreamId) with
      | none => st
      | some id =>
        { st with
          prepared := st.prepared ++ [⟨peer, id, .open (openedSession peer peerPort localPort bound), false⟩] }

def operationFlags : P2pStreamOperation → UInt8
  | .data _ => p2pStreamData
  | .close => p2pStreamFin
  | .reset => p2pStreamRst

/-- The address book has another address for the peer than the one it is bound to. -/
def identityChanged : Bool :=
  s.peerAddressBound &&
    match st.addressBook[s.peerHostname]? with
    | some assigned => assigned.address != s.peerAddress
    | none => false

/-- `prepare_p2p_stream_control`; `target` is what the session's peer resolves to. -/
def prepareControl (id : UInt32) (operation : P2pStreamOperation) (target : Option AddressBookEntry) :
    StreamState :=
  match st.sessions[id]?, target with
  | some s, some peer =>
    if st.identityChanged s then st
    else
      { st with
        prepared := st.prepared ++ [⟨peer, id, .control (operationFlags operation) s.nextSequence, false⟩] }
  | _, _ => st

/-- The batch is still about the state that it was prepared for. -/
def actionCurrent (p : PreparedP2p) : Bool :=
  match p.action with
  | .open _ => p.streamId ∉ st.sessions
  | .control _ expected =>
    match st.sessions[p.streamId]? with
    | some s => s.nextSequence == expected
    | none => false

/-- The peer's entry is not known or has not changed. -/
def peerCurrent (p : PreparedP2p) : Bool :=
  match st.addressBook[p.peer.hostname]? with
  | some peer => peer == p.peer
  | none => true

/-- What an admitted batch does to the sessions. -/
def commit (p : PreparedP2p) : StreamState :=
  match p.action with
  | .open session =>
    { st with
      sessions := st.sessions.insert p.streamId session, nextStreamId := atLeastOne (p.streamId + 1) }
  | .control flags _ =>
    if flags &&& (p2pStreamFin ||| p2pStreamRst) ≠ 0 then st.retire p.streamId
    else
      match st.sessions[p.streamId]? with
      | some s =>
        { st with
          sessions := st.sessions.insert p.streamId { s with nextSequence := atLeastOne (s.nextSequence + 1) } }
      | none => st

/-- `try_queue_prepared_p2p` of the `k`th prepared batch. -/
def tryQueue (k : ℕ) (current fits : Bool) : StreamState :=
  match st.prepared[k]? with
  | none => st
  | some p =>
    if p.admitted ∨ ¬ (current ∧ st.peerCurrent p ∧ st.actionCurrent p ∧ fits) then st
    else
      let st := st.commit p
      { st with prepared := st.prepared.set k { p with admitted := true } }

/-! ### Steps -/

inductive StreamOp where
  | receive (payload : Bytes) (attributed replied : Bool) (accepts : ℕ → Bool)
  | openStream (dst : AddressBookEntry) (dstPort srcPort : UInt16) (resolved : Option Bytes)
  | sendControl (id : UInt32) (flags : UInt8) (payload : Bytes)
  | retire (id : UInt32)
  | prepareOpen (peer : AddressBookEntry) (peerPort localPort : UInt16) (resolved : Option Bytes)
  | prepareControl (id : UInt32) (operation : P2pStreamOperation) (target : Option AddressBookEntry)
  | tryQueue (k : ℕ) (current fits : Bool)
  | bindPort (port : UInt16) (handler : ℕ)
  | clearPort (port : UInt16)
  | learn (addressBook : ExtTreeMap Bytes AddressBookEntry)

/-- One step, with what it sends and the handlers that it calls. -/
def perform : StreamOp → StreamState × StreamOutput
  | .receive payload attributed replied accepts => st.receive payload attributed replied accepts
  | .openStream dst dstPort srcPort resolved => st.openStream dst dstPort srcPort resolved
  | .sendControl id flags payload => st.sendControl id flags payload
  | .retire id => (st.retire id, silent)
  | .prepareOpen peer peerPort localPort resolved => (st.prepareOpen peer peerPort localPort resolved, silent)
  | .prepareControl id operation target => (st.prepareControl id operation target, silent)
  | .tryQueue k current fits => (st.tryQueue k current fits, silent)
  | .bindPort port handler =>
    (if port = 0 then st else { st with handlers := st.handlers.insert port (st.handlersAt port ++ [handler]) }, silent)
  | .clearPort port => ({ st with handlers := st.handlers.erase port }, silent)
  | .learn addressBook => ({ st with addressBook }, silent)

def step (op : StreamOp) : StreamState := (st.perform op).1

end StreamState

end SedsNet
