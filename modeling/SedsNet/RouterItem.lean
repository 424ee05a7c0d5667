import SedsNet.PacketIdentity

/-! # Queued items

What the router's queues and retained records hold: a packet, or the bytes of a packed frame, with the
hashes that the router knows packets and senders by. -/

namespace SedsNet

/-- `Router::sender_hash`. -/
def senderHash (sender : Bytes) : UInt64 :=
  match aliasAddress sender with
  | some address => address.toUInt64
  | none => hashBytesU64 0x517CC1B727220A95 sender

inductive RouterItem where
  | packet (pkt : Packet)
  | packed (bytes : Bytes)
deriving DecidableEq

namespace RouterItem

/-- `Router::get_hash`: the packet identity, or a hash of the raw bytes of a malformed frame. -/
def getHash (env : WireEnv) : RouterItem → UInt64
  | packet pkt => pkt.packetId
  | packed bytes =>
    match packetIdFromWire env bytes with
    | .ok id => id
    | .error _ => hashBytesU64 0x9E3779B97F4A7C15 bytes

end RouterItem

end SedsNet
