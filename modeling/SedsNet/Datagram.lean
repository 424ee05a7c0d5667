import SedsNet.PacketNonce
import SedsNet.PeerStream

/-! # Datagrams between peers

`send_p2p_to_hostname` and `send_p2p_to_address` (`router.rs`) send a payload to a port of another
router.  Datagrams and stream frames travel in the same kind of packet: `dispatch_p2p_packet` takes a
payload that begins with the magic of the stream layer for a stream frame and hands every other one to
the handlers of its port.

What the rest of the router answers is an argument: the entry that the name or address resolves to, and
at the destination whether the sender of a packet is the host that its frame names, whether a reply could
be sent, and what the handlers return.  Messages are a control type, which is never sealed. -/

namespace SedsNet

open Std (ExtTreeMap)

/-! ### Sending -/

/-- What a router reads to send and to receive messages. -/
structure P2pNode where
  sender : Bytes
  localAddress : AddressBookEntry
  streams : StreamState
  portHandlers : ExtTreeMap UInt16 (List ℕ)
  hostname_utf8 : ByteArray.validateUTF8 ⟨localAddress.hostname.toArray⟩ = true

/-- A message that a router has sent: its packet, and the frame of the packet with its target. -/
structure SentMessage where
  pkt : Packet
  item : Bytes
  target : UInt64
  /-- Whether the packet is dispatched here, and not sent. -/
  loopback : Bool
deriving DecidableEq

namespace P2pNode

/-- `attach_wire_contract_to_item` for a packet that is not sealed. -/
def attachWireContract (env : WireEnv) (pkt : Packet) (targetSenders : List UInt64) : TelemetryResult Bytes :=
  let reliable : Option ReliableHeader :=
    if env.reg.isReliableType pkt.ty then some ⟨reliableFlagUnsequenced, 0, 0⟩ else none
  let targets := if pkt.targetSenders.isEmpty then targetSenders else pkt.targetSenders
  packRoutedPacket env pkt reliable (pkt.wireShape.or (some (env.reg.messageMeta pkt.ty).element)) targets none

/-- `send_p2p_to_entry`, up to the dispatch or the transmit path; `counter` is the process-wide counter
behind the nonces. -/
def sendToEntry (env : WireEnv) (node : P2pNode) (counter : UInt32) (timestamp : UInt64)
    (dst : AddressBookEntry) (dstPort srcPort : UInt16) (payload : Bytes) : TelemetryResult SentMessage := do
  if dstPort = 0 then throw .badArg
  let encoded ← encodeP2pPayload node.localAddress.hostname node.localAddress.address srcPort dstPort payload
  let pkt ← (Packet.new env.reg counter .p2pMessage [discoveryEndpoint] node.localAddress.hostname timestamp encoded).1
  let target := senderHash dst.hostname
  let item ← attachWireContract env pkt [target]
  return { pkt, item, target, loopback := target == senderHash node.sender }

/-- `send_p2p_to_hostname` and `send_p2p_to_address`; `resolved` is the entry of the name or address. -/
def send (env : WireEnv) (node : P2pNode) (counter : UInt32) (timestamp : UInt64)
    (resolved : Option AddressBookEntry) (dstPort srcPort : UInt16) (payload : Bytes) :
    TelemetryResult SentMessage :=
  match resolved with
  | none => .error .badArg
  | some dst => node.sendToEntry env counter timestamp dst dstPort srcPort payload

/-- The packet that the destination gets: the one that was sent in a loopback, else what its frame is
unpacked to. -/
def delivered (env : WireEnv) (book : AddressBook) (managed : Bool) (m : SentMessage) : TelemetryResult Packet :=
  if m.loopback then .ok m.pkt else unpackPacketWithRole env book m.item managed

/-! ### Receiving -/

/-- What a dispatch asks of the rest of the router and of the handlers. -/
structure Answers where
  attributed : Bool
  replied : TelemetryResult Unit
  streamHandler : ℕ → TelemetryResult Unit
  portHandler : ℕ → TelemetryResult Unit

/-- What a dispatch did: its result, the sessions behind it, the replies and calls of the stream layer,
and the calls of the handlers of a port. -/
structure Dispatch where
  result : TelemetryResult Unit
  streams : StreamState
  stream : StreamState.StreamOutput
  calls : List (ℕ × P2pDecoded)

def portHandlersAt (node : P2pNode) (port : UInt16) : List ℕ := (node.portHandlers[port]?).getD []

/-- What `dispatch_p2p_stream_frame` returns: the failure of its reply, or of the first handler that
fails. -/
def streamResult (a : Answers) (out : StreamState.StreamOutput) : TelemetryResult Unit := do
  if out.sent ≠ [] then a.replied
  (out.calls.map Prod.fst).forM a.streamHandler

/-- `dispatch_p2p_packet`. -/
def dispatchP2pPacket (node : P2pNode) (pkt : Packet) (a : Answers) : Dispatch :=
  if pkt.ty ≠ .p2pMessage then ⟨.ok (), node.streams, StreamState.silent, []⟩
  else
    match decodeP2pPayload pkt.payload with
    | .error e => ⟨.error e, node.streams, StreamState.silent, []⟩
    | .ok msg =>
      match decodeP2pStreamPayload msg.payload with
      | .error e => ⟨.error e, node.streams, StreamState.silent, []⟩
      | .ok (some _) =>
        let done := node.streams.receive pkt.payload a.attributed a.replied.isOk fun h => (a.streamHandler h).isOk
        ⟨streamResult a done.2, done.1, done.2, []⟩
      | .ok none =>
        let handlers := node.portHandlersAt msg.destinationPort
        ⟨handlers.forM a.portHandler, node.streams, StreamState.silent,
          (called a.portHandler handlers).map fun handler => (handler, msg)⟩

/-- `item_targets_local_sender` for a packet. -/
def targetsLocalSender (node : P2pNode) (pkt : Packet) : Bool :=
  pkt.targetSenders.isEmpty || pkt.targetSenders.contains (senderHash node.sender)

/-- A received message, as in `dispatch_rx_data`. -/
def receiveMessage (node : P2pNode) (pkt : Packet) (a : Answers) : Dispatch :=
  if node.targetsLocalSender pkt then node.dispatchP2pPacket pkt a
  else ⟨.ok (), node.streams, StreamState.silent, []⟩

/-! ### What arrives -/

variable {env : WireEnv} {node : P2pNode} {counter : UInt32} {timestamp : UInt64} {dst : AddressBookEntry}
  {dstPort srcPort : UInt16} {payload : Bytes} {m : SentMessage}

/-- What a message is sent as. -/
theorem sendToEntry_ok
    (h : node.sendToEntry env counter timestamp dst dstPort srcPort payload = .ok m) :
    m.target = senderHash dst.hostname ∧ decodeP2pPayload m.pkt.payload =
        .ok ⟨node.localAddress.hostname, node.localAddress.address, srcPort, dstPort, payload⟩ ∧
      attachWireContract env m.pkt [m.target] = .ok m.item ∧ ∃ sender encoded nonce,
        Packet.newWithOwnedWireContract env.reg .p2pMessage [discoveryEndpoint] sender timestamp nonce encoded none none =
          .ok m.pkt := by
  rw [sendToEntry] at h
  split at h
  · cases h
  obtain ⟨encoded, hencoded, h⟩ := bind_eq_ok h
  obtain ⟨pkt, hpkt, h⟩ := bind_eq_ok h
  obtain ⟨item, hitem, h⟩ := bind_eq_ok h
  cases h
  obtain ⟨-, -, -, -, -, -, hpayload⟩ := Packet.new_ok (Prod.ext hpkt rfl)
  refine ⟨rfl, ?_, hitem, _, _, _, hpkt⟩
  rw [hpayload]
  exact decodeP2pPayload_encode node.hostname_utf8 hencoded

/-- The destination gets the packet with its payload, for itself. -/
theorem delivered_ok (h : node.sendToEntry env counter timestamp dst dstPort srcPort payload = .ok m)
    (hgrant : env.probe.Granting) (book : AddressBook) (managed : Bool) :
    ∃ q, delivered env book managed m = .ok q ∧ q.ty = .p2pMessage ∧ q.payload = m.pkt.payload ∧
      (q.targetSenders = [] ∨ q.targetSenders = [m.target]) := by
  obtain ⟨-, -, hitem, sender, encoded, nonce, hnew⟩ := sendToEntry_ok h
  obtain ⟨hty, heps, -, -, -, hpayload, hshape, htargets, hvalid⟩ := Packet.newWithOwnedWireContract_ok hnew
  have hfree : m.pkt.targetSenders = [] := by rw [Packet.targetSenders, htargets]; rfl
  unfold delivered
  split
  · exact ⟨m.pkt, rfl, hty, rfl, .inl hfree⟩
  · rw [attachWireContract, hfree, hshape] at hitem
    have hfit : 8 * [m.target].length ≤ isizeMax := (by decide : 8 ≤ isizeMax)
    have hlist : BitmapRegistered env m.pkt (none.or (some (env.reg.messageMeta m.pkt.ty).element)) [m.target] := by
      intro _ hbitmap
      rw [heps] at hbitmap
      cases hbitmap
    obtain ⟨q, hq, hsame⟩ := unpackPacketWithRole_packed (fun h => Bool.noConfusion h) hgrant
      (by rw [hty, hpayload]; exact hvalid) (by rw [heps]; decide) hlist (.inr rfl) (fun hdr hreliable => by
        split at hreliable
        · cases hreliable
          rfl
        · cases hreliable) hfit book managed hitem
    exact ⟨q, hq, hsame.ty.trans hty, hsame.payload, .inr hsame.targetSenders⟩

/-- A payload that begins otherwise is no stream frame. -/
theorem decodeP2pStreamPayload_eq_none :
    decodeP2pStreamPayload payload = .ok none ↔ payload.take 4 ≠ p2pStreamMagic := by
  rw [decodeP2pStreamPayload]
  split
  · rename_i h
    exact ⟨fun _ => h, fun _ => rfl⟩
  · rename_i h
    refine ⟨fun heq => ?_, fun hne => absurd hne h⟩
    repeat (first | cases heq | split at heq)

/-- A message reaches the handlers of its port at the destination with the payload that was sent, in
their order up to the first that fails, and leaves the stream layer alone, exactly when the payload does
not begin with the magic of that layer; one that does reaches no handler of a port. -/
theorem datagram_transparent {env : WireEnv} {node dest : P2pNode} {counter : UInt32} {timestamp : UInt64}
    {dst : AddressBookEntry} {dstPort srcPort : UInt16} {payload : Bytes} {m : SentMessage}
    (hsend : node.send env counter timestamp (some dst) dstPort srcPort payload = .ok m)
    (hdest : dest.sender = dst.hostname) (hgrant : env.probe.Granting) (book : AddressBook) (managed : Bool)
    (a : Answers) : ∃ q, delivered env book managed m = .ok q ∧
    (payload.take 4 ≠ p2pStreamMagic →
      (dest.receiveMessage q a).calls = (called a.portHandler (dest.portHandlersAt dstPort)).map (fun handler =>
            (handler, ⟨node.localAddress.hostname, node.localAddress.address, srcPort, dstPort, payload⟩)) ∧
        ((∀ handler ∈ dest.portHandlersAt dstPort, (a.portHandler handler).isOk = true) →
          called a.portHandler (dest.portHandlersAt dstPort) = dest.portHandlersAt dstPort) ∧
        (dest.receiveMessage q a).streams = dest.streams ∧ (dest.receiveMessage q a).stream = StreamState.silent) ∧
      (payload.take 4 = p2pStreamMagic → (dest.receiveMessage q a).calls = []) := by
  obtain ⟨htarget, hdecoded, -⟩ := sendToEntry_ok hsend
  obtain ⟨q, hq, hqty, hqpayload, hqtargets⟩ := delivered_ok hsend hgrant book managed
  have hlocal : dest.targetsLocalSender q = true := by
    rw [htarget, ← hdest] at hqtargets
    rcases hqtargets with hnone | hone <;> simp [targetsLocalSender, *]
  rw [← hqpayload] at hdecoded
  have htype : ¬ q.ty ≠ .p2pMessage := fun hne => hne hqty
  refine ⟨q, hq, fun hmagic => ?_, fun hmagic => ?_⟩
  · have hplain := decodeP2pStreamPayload_eq_none.mpr hmagic
    rw [receiveMessage, if_pos hlocal, dispatchP2pPacket, if_neg htype, hdecoded]
    simp only [hplain, true_and, and_true]
    exact called_of_all_ok
  · rw [receiveMessage, if_pos hlocal, dispatchP2pPacket, if_neg htype, hdecoded]
    cases hstream : decodeP2pStreamPayload payload with
    | error e => simp only [hstream]
    | ok frame =>
      cases frame with
      | some frame => simp only [hstream]
      | none => exact absurd hmagic (decodeP2pStreamPayload_eq_none.mp hstream)

/-- The built-in type of messages with its endpoint. -/
def p2pRegistry : Registry where
  endpoints := [discoveryEndpoint]
  types := [(.p2pMessage, ⟨.dynamic .uint8 .data, [discoveryEndpoint], .ordered, 246⟩)]
  staticStringLength := 16
  staticHexLength := 16

/-- A router of the given name and address, with two handlers of datagrams and one of streams at port 7. -/
def namedNode (name : UInt8) (address : UInt32) (h : ByteArray.validateUTF8 ⟨[name].toArray⟩ = true) : P2pNode where
  sender := [name]
  localAddress := ⟨[name], address, 0, .dynamic, 0, 0, 0⟩
  streams := (StreamState.new ∅).step (.bindPort 7 0)
  portHandlers := (∅ : ExtTreeMap UInt16 (List ℕ)).insert 7 [1, 2]
  hostname_utf8 := h

theorem utf8_a : ByteArray.validateUTF8 ⟨[97].toArray⟩ = true := by decide +kernel

theorem utf8_b : ByteArray.validateUTF8 ⟨[98].toArray⟩ = true := by decide +kernel

def nodeA : P2pNode := namedNode 97 4 utf8_a

def nodeB : P2pNode := namedNode 98 5 utf8_b

/-- A message of the first router to port 7 of the second. -/
def message (payload : Bytes) : TelemetryResult SentMessage :=
  nodeA.send (plainEnv p2pRegistry) nonceSeed 0 (some nodeB.localAddress) 7 3 payload

/-- What the second router does with it. -/
def dispatched (payload : Bytes) (a : Answers) : TelemetryResult Dispatch := do
  let m ← message payload
  let q ← delivered (plainEnv p2pRegistry) .empty false m
  return nodeB.receiveMessage q a

def willing : Answers := ⟨true, .ok (), fun _ => .ok (), fun _ => .ok ()⟩

/-- Two bytes reach both handlers at port 7. -/
theorem datagram_transparent_two : ∃ m q, message [1, 2] = .ok m ∧ m.loopback = false ∧
    delivered (plainEnv p2pRegistry) .empty false m = .ok q ∧
    (nodeB.receiveMessage q willing).calls = [(1, ⟨[97], 4, 3, 7, [1, 2]⟩), (2, ⟨[97], 4, 3, 7, [1, 2]⟩)] := by
  have hsent : ((message [1, 2]).toOption.map (·.loopback)) = some false := by decide +kernel
  obtain ⟨m, hm⟩ : ∃ m, message [1, 2] = .ok m := exists_ok (by decide +kernel)
  rw [hm] at hsent
  have hdest : nodeB.sender = nodeB.localAddress.hostname := rfl
  obtain ⟨q, hq, hcalls, -⟩ := datagram_transparent hm hdest (plainEnv_granting _) .empty false willing
  exact ⟨m, q, hm, Option.some.inj hsent, hq, (hcalls (by decide)).1⟩

/-- A payload of the form of a request to open stream 9. -/
def requestPayload : Bytes := p2pStreamMagic ++ [1, 1, 9, 0, 0, 0] ++ List.replicate 12 0

set_option maxRecDepth 2000 in
/-- Sent as a datagram it opens a session at the destination, and no handler of the port is called; a
handler that fails keeps a message from the next one. -/
theorem datagram_opens_stream : nodeB.portHandlersAt 7 = [1, 2] ∧ nodeB.streams.sessions.toList = [] ∧
    (dispatched requestPayload willing).toOption.map (fun d => (d.calls.map Prod.fst, d.streams.sessions.toList)) =
      some ([], [(1, ⟨[97], 4, 7, 3, 9, 1, true, true⟩)]) ∧
    (dispatched [1, 2] { willing with portHandler := fun _ => .error .badArg }).toOption.map
      (fun d => d.calls.map Prod.fst) = some [1] :=
  ⟨by decide +kernel, by decide +kernel, by decide +kernel, by decide +kernel⟩

end P2pNode

end SedsNet
