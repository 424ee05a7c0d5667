import SedsNet.PacketIdentity
import SedsNet.QueueAccounting
import SedsNet.WordMix

/-! # Packet nonces

The nonce generator behind `Packet::new`, the duplicate check of the router, and the nonces under
which packets are sealed.

Two packets with the same fields differ in their nonce only.  The identity hash takes the two bytes of
the nonce in two successive rounds, and two rounds separate their inputs (`WordMix.round_round_inj`);
what is hashed afterwards cannot merge them again.  So the identities differ exactly if the nonces do
(`identityHash_nonce_inj`), and what is left is the generator, which truncates a 32-bit state to 15
bits.  Its shifts are linear, so two states yield one nonce exactly for certain bits in which they
differ (`packetNonce_eq_iff`).

A sealed packet takes its nonce from its type, its timestamp and its packet nonce; the derivation is
injective in what it keeps of them (`e2eNonceForPacket_inj`). -/

namespace SedsNet

open ByteWords List

/-! ### The generator -/

/-- What `next_packet_nonce` adds to the counter. -/
def nonceStride : UInt32 := 0x9E3779B9

/-- The value of the counter when a process starts. -/
def nonceSeed : UInt32 := 0xA5C31F27

/-- The nonce drawn from a value of the counter. -/
def packetNonce (x : UInt32) : UInt16 :=
  let x := x ^^^ (x <<< 13)
  let x := x ^^^ (x >>> 17)
  let x := x ^^^ (x <<< 5)
  x.toUInt16 ||| 1

/-- `next_packet_nonce`: the nonce and the counter after it. -/
def nextPacketNonce (counter : UInt32) : UInt16 × UInt32 :=
  (packetNonce counter, counter + nonceStride)

/-- What the first two shifts of the generator make of a bit below 16. -/
def shiftedBit (x : BitVec 32) (i : ℕ) : Bool :=
  x.getLsbD i ^^ (decide (13 ≤ i) && x.getLsbD (i - 13)) ^^ (decide (i < 15) && (x.getLsbD (i + 17) ^^ x.getLsbD (i + 4)))

/-- The values of the counter differ in bits that cancel in the nonce: what the two shifts make of them
is clear below 16, or set at the multiples of five only. -/
def NonceHides (x y : UInt32) : Prop :=
  ∃ k, ∀ i < 16, shiftedBit (x ^^^ y).toBitVec i = (k && i % 5 == 0)

theorem getLsbD_shifts {x : BitVec 32} {i : ℕ} (hi : i < 16) :
    (WordMix.xorShift 17 (x ^^^ x <<< 13)).getLsbD i = shiftedBit x i := by
  unfold WordMix.xorShift shiftedBit
  simp only [BitVec.getLsbD_xor, BitVec.getLsbD_ushiftRight, BitVec.getLsbD_shiftLeft, Nat.add_comm 17 i]
  by_cases h13 : i < 13
  · simp [h13, show i < 15 by omega, show i + 17 < 32 by omega, show ¬ 13 ≤ i by omega]
  · by_cases h15 : i < 15
    · simp [h13, h15, show i < 32 by omega, show i + 17 < 32 by omega, show 13 ≤ i by omega]
    · simp [h13, h15, show i < 32 by omega, show ¬ i + 17 < 32 by omega, show 13 ≤ i by omega,
        x.getLsbD_of_ge (i + 17) (by omega)]

/-- The last shift clears the bits 1 to 15 of these words. -/
theorem shift_five_clears {z : BitVec 32} : (∀ i, 0 < i → i < 16 → (z ^^^ z <<< 5).getLsbD i = false) ↔
      ∃ k, ∀ i < 16, z.getLsbD i = (k && i % 5 == 0) := by
  constructor
  · intro h
    refine ⟨z.getLsbD 0, fun i hi => ?_⟩
    -- five places further up stands the same bit
    induction i using Nat.strong_induction_on with
    | _ i ih =>
      rcases Nat.eq_zero_or_pos i with rfl | hpos
      · simp
      have hbit := h i hpos hi
      rw [BitVec.getLsbD_xor, BitVec.getLsbD_shiftLeft] at hbit
      by_cases hlow : i < 5
      · simpa [hlow, Nat.mod_eq_of_lt hlow, beq_false_of_ne hpos.ne'] using hbit
      · have hback := ih (i - 5) (by omega) (by omega)
        rw [show (i - 5) % 5 = i % 5 by omega] at hback
        simpa [hlow, hback, show i < 32 by omega] using hbit
  · rintro ⟨k, hk⟩ i hpos hi
    rw [BitVec.getLsbD_xor, BitVec.getLsbD_shiftLeft, hk i hi]
    by_cases hlow : i < 5
    · simp [hlow, Nat.mod_eq_of_lt hlow, beq_false_of_ne hpos.ne']
    · rw [hk (i - 5) (by omega), show (i - 5) % 5 = i % 5 by omega]
      simp [hlow, show i < 32 by omega]

theorem setWidth_or_one_eq_iff {a b : BitVec 32} : a.setWidth 16 ||| 1#16 = b.setWidth 16 ||| 1#16 ↔
      ∀ i, 0 < i → i < 16 → (a ^^^ b).getLsbD i = false := by
  constructor
  · intro h i hpos hi
    have hone : (1#16).getLsbD i = decide (i = 0) := by simp
    have hbit := congrArg (fun c => c.getLsbD i) h
    simpa [hone, hi, hpos.ne'] using hbit
  · intro h
    refine BitVec.eq_of_getLsbD_eq fun i hi => ?_
    rcases Nat.eq_zero_or_pos i with rfl | hpos
    · simp
    have hbit := h i hpos hi
    simp only [BitVec.getLsbD_xor, bne_eq_false_iff_eq, Bool.xor] at hbit
    simp [hi, hpos.ne', hbit]

/-- Two values of the counter yield the same nonce exactly if their differences cancel. -/
theorem packetNonce_eq_iff {x y : UInt32} : packetNonce x = packetNonce y ↔ NonceHides x y := by
  let scramble (a : BitVec 32) := WordMix.xorShift 17 (a ^^^ a <<< 13) ^^^ WordMix.xorShift 17 (a ^^^ a <<< 13) <<< 5
  have hnonce : ∀ a, (packetNonce a).toBitVec = (scramble a.toBitVec).setWidth 16 ||| 1#16 := fun _ => rfl
  have hxor : ∀ a b, scramble a ^^^ scramble b = scramble (a ^^^ b) := fun a b => by
    simp only [scramble, WordMix.xorShiftLeft_xor, WordMix.xorShift_xor]
  rw [← UInt16.toBitVec_inj, hnonce, hnonce, setWidth_or_one_eq_iff, hxor]
  refine shift_five_clears.trans (exists_congr fun k => forall₂_congr fun i hi => ?_)
  rw [getLsbD_shifts hi]
  rfl

namespace Packet

/-- `Packet::new_with_nonce`. -/
def newWithNonce (reg : Registry) (ty : DataType) (endpoints : List DataEndpoint) (sender : Bytes)
    (timestamp : UInt64) (nonce : UInt16) (payload : Bytes) : TelemetryResult Packet :=
  newWithOwnedWireContract reg ty endpoints sender timestamp nonce payload none none

/-- `Packet::new`: a nonce is drawn whether or not the packet is accepted. -/
def new (reg : Registry) (counter : UInt32) (ty : DataType) (endpoints : List DataEndpoint)
    (sender : Bytes) (timestamp : UInt64) (payload : Bytes) : TelemetryResult Packet × UInt32 :=
  let (nonce, counter) := nextPacketNonce counter
  (newWithNonce reg ty endpoints sender timestamp nonce payload, counter)

theorem new_ok {reg : Registry} {counter counter' : UInt32} {ty : DataType}
    {endpoints : List DataEndpoint} {sender : Bytes} {timestamp : UInt64} {payload : Bytes}
    {p : Packet} (h : new reg counter ty endpoints sender timestamp payload = (.ok p, counter')) :
    counter' = counter + nonceStride ∧ p.ty = ty ∧ p.endpoints = endpoints ∧ p.sender = sender ∧
      p.timestamp = timestamp ∧ p.nonce = packetNonce counter ∧ p.payload = payload := by
  obtain ⟨hpacket, hcounter⟩ := Prod.mk.inj h
  obtain ⟨hty, heps, hsender, hts, hnonce, hpayload, -⟩ := newWithOwnedWireContract_ok hpacket
  exact ⟨hcounter.symm, hty, heps, hsender, hts, hnonce, hpayload⟩

end Packet

/-! ### Identities and nonces -/

theorem hashBytesU64_cons (h : UInt64) (b : UInt8) (bs : Bytes) :
    hashBytesU64 h (b :: bs) = hashBytesU64 (hashBytesU64 h [b]) bs :=
  hashBytesU64_append h [b] bs

theorem hashBytesU64_injective (bytes : Bytes) : Function.Injective fun h => hashBytesU64 h bytes := by
  induction bytes with
  | nil => exact fun _ _ h => h
  | cons b bs ih =>
    intro h h' heq
    simp only [hashBytesU64_cons _ b bs] at heq
    have hround := congrArg UInt64.toBitVec (ih heq)
    exact UInt64.toBitVec_inj.mp
      (WordMix.round_injective (by decide) (by decide) b.toUInt64.toBitVec hround)

theorem toNat_xor_byte_lt (a b : UInt8) : (a.toUInt64.toBitVec ^^^ b.toUInt64.toBitVec).toNat < 2 ^ 8 := by
  exact Nat.xor_lt_two_pow a.toNat_lt b.toNat_lt

/-- Two hashed bytes can be told apart. -/
theorem hashBytesU64_pair_inj {h : UInt64} {a a' b b' : UInt8}
    (heq : hashBytesU64 h [a, b] = hashBytesU64 h [a', b']) : a = a' ∧ b = b' := by
  have hrounds := congrArg UInt64.toBitVec heq
  have hbyte : ∀ x y : UInt8, x.toUInt64.toBitVec = y.toUInt64.toBitVec → x = y := by
    intro x y hxy
    have hnat := congrArg UInt64.toNat (UInt64.toBitVec_inj.mp hxy)
    exact UInt8.toNat_inj.mp hnat
  obtain ⟨ha, hb⟩ := WordMix.round_round_inj (by decide) (by decide) (by decide : 2 ^ 8 ≤ _)
    (by decide) (toNat_xor_byte_lt a a') (toNat_xor_byte_lt b b') hrounds
  exact ⟨hbyte a a' ha, hbyte b b' hb⟩

/-- Identities that agree in everything but the nonce agree in the nonce as well. -/
theorem identityHash_nonce_inj {source : UInt32} {ty : DataType} {eps : List DataEndpoint}
    {ts : UInt64} {nonce nonce' : UInt16} {payload : Bytes} (h : Packet.identityHash source ty eps ts nonce payload =
      Packet.identityHash source ty eps ts nonce' payload) : nonce = nonce' := by
  have hnonce := hashBytesU64_injective _ (hashBytesU64_injective _ h)
  have hpair : ∀ n : ℕ, leBytes 2 n = [UInt8.ofNat n, UInt8.ofNat (n / 256)] := fun _ => rfl
  obtain ⟨hlow, hhigh⟩ := hashBytesU64_pair_inj hnonce
  have hbytes : leBytes 2 nonce.toNat = leBytes 2 nonce'.toNat := by rw [hpair, hpair, hlow, hhigh]
  rw [leBytes_eq_iff, show 256 ^ 2 = 2 ^ 16 by decide, Nat.mod_eq_of_lt nonce.toNat_lt,
    Nat.mod_eq_of_lt nonce'.toNat_lt] at hbytes
  exact UInt16.toNat_inj.mp hbytes

/-! ### The duplicate check -/

instance : ByteCost UInt64 where
  byteCost := fun _ => 8
  slotBytes := 8

/-- The loop of `push_recent_rx` that makes a place among the recorded ids. -/
def popDown (limit : ℕ) : (fuel : ℕ) → BoundedDeque UInt64 → BoundedDeque UInt64
  | 0, d => d
  | fuel + 1, d => if limit ≤ d.q.length then popDown limit fuel d.dropFront.1 else d

theorem popDown_drops (limit fuel : ℕ) {d : BoundedDeque UInt64} (hd : BoundedDeque.Sound d) :
    ∃ gone, BoundedDeque.Drops d gone (popDown limit fuel d) := by
  induction fuel generalizing d with
  | zero => exact ⟨[], .refl hd⟩
  | succ fuel ih =>
    rw [popDown]
    split
    · have hdrop := BoundedDeque.dropFront_drops hd
      obtain ⟨gone, hrest⟩ := ih hdrop.sound
      exact ⟨_, hdrop.trans hrest⟩
    · exact ⟨[], .refl hd⟩

/-- What the duplicate check of a router reads and writes: the recent ids with their limit, and the
ids whose return route says that the delivery is complete. -/
structure RecentIds where
  recentRx : BoundedDeque UInt64
  maxRecentRxIds : ℕ
  deliveryCompleted : List UInt64
  sound : BoundedDeque.Sound recentRx
  maxBytes_lt : recentRx.maxBytes < 2 ^ 63

namespace RecentIds

/-- The recorded ids with a free place. -/
def shrunk (st : RecentIds) : RecentIds :=
  { st with
    recentRx := popDown st.maxRecentRxIds st.recentRx.q.length st.recentRx
    sound := (popDown_drops _ _ st.sound).choose_spec.sound
    maxBytes_lt := (popDown_drops _ _ st.sound).choose_spec.maxBytes ▸ st.maxBytes_lt }

theorem pushBack_moves (env : QueueEnv UInt64) (st : RecentIds) (id : UInt64) :
    BoundedDeque.Moves (fun i => i) st.recentRx ((st.recentRx.pushBack env id).accepted id)
      (st.recentRx.pushBack env id).evicted (st.recentRx.pushBack env id).queue := by
  have hmax := st.maxBytes_lt
  have hwithin := st.sound.within
  refine BoundedDeque.pushBack_moves env st.sound ?_
  change st.recentRx.curBytes + 8 ≤ 2 ^ 64 - 1
  omega

/-- `push_recent_rx`; `room` is what `make_shared_queue_room` answers, which leaves the ids alone. -/
def pushRecentRx (env : QueueEnv UInt64) (room : TelemetryResult Unit) (st : RecentIds)
    (id : UInt64) : TelemetryResult Unit × RecentIds :=
  match room with
  | .error e => (.error e, st.shrunk)
  | .ok () =>
    let pushed := st.shrunk.recentRx.pushBack env id
    (pushed.result, { st with
      recentRx := pushed.queue
      sound := (st.shrunk.pushBack_moves env id).sound
      maxBytes_lt := (st.shrunk.pushBack_moves env id).maxBytes ▸ st.shrunk.maxBytes_lt })

/-- Whether an id counts as received. -/
def recorded (st : RecentIds) (id : UInt64) : Bool :=
  decide (id ∈ st.recentRx.q) || decide (id ∈ st.deliveryCompleted)

/-- `is_duplicate_packet_id`: a new id is recorded. -/
def isDuplicatePacketId (env : QueueEnv UInt64) (room : TelemetryResult Unit) (st : RecentIds)
    (id : UInt64) : TelemetryResult Bool × RecentIds :=
  if st.recorded id then (.ok true, st)
  else
    let pushed := st.pushRecentRx env room id
    (pushed.1.map fun _ => false, pushed.2)

variable {st : RecentIds} {id : UInt64}

theorem mem_shrunk (h : id ∈ st.shrunk.recentRx.q) : id ∈ st.recentRx.q := by
  obtain ⟨gone, hdrops⟩ := popDown_drops st.maxRecentRxIds st.recentRx.q.length st.sound
  exact hdrops.items.mem_iff.mpr (mem_append_left gone h)

theorem recorded_iff : st.recorded id = true ↔ id ∈ st.recentRx.q ∨ id ∈ st.deliveryCompleted := by
  rw [recorded, Bool.or_eq_true, decide_eq_true_eq, decide_eq_true_eq]

variable {env : QueueEnv UInt64} {room : TelemetryResult Unit}

/-- The check answers from the ids recorded before it. -/
theorem duplicate_iff : (st.isDuplicatePacketId env room id).1 = .ok true ↔ st.recorded id = true := by
  unfold isDuplicatePacketId
  split
  · rename_i hrecorded
    exact ⟨fun _ => hrecorded, fun _ => rfl⟩
  rename_i hfresh
  refine ⟨fun h => ?_, fun h => absurd h hfresh⟩
  dsimp only at h
  cases hresult : (st.pushRecentRx env room id).1 with
  | error | ok =>
    rw [hresult] at h
    cases h

/-- The check records no id but the one it is asked about. -/
theorem recorded_of_recorded {id other : UInt64} (hne : other ≠ id)
    (h : (st.isDuplicatePacketId env room id).2.recorded other = true) : st.recorded other = true := by
  have hshrunk : st.shrunk.recorded other = true → st.recorded other = true := by
    simp only [recorded_iff]
    exact Or.imp_left mem_shrunk
  unfold isDuplicatePacketId at h
  split at h
  · exact h
  apply hshrunk
  unfold pushRecentRx at h
  split at h
  · exact h
  rw [recorded_iff] at h ⊢
  refine h.imp_left fun hmem => ?_
  have hitems := (st.shrunk.pushBack_moves env id).items
  simp only [map_id_fun', id_eq] at hitems
  rcases mem_append.mp (hitems.mem_iff.mpr (mem_append_left _ hmem)) with hold | hnew
  · exact hold
  unfold BoundedDeque.PushOutcome.accepted at hnew
  split at hnew
  · exact absurd (mem_singleton.mp hnew) hne
  · cases hnew

/-- An id that was let through is a duplicate the next time. -/
theorem recorded_of_accepted {st st' : RecentIds}
    (h : st.isDuplicatePacketId env room id = (.ok false, st')) : st'.recorded id = true := by
  unfold isDuplicatePacketId at h
  split at h
  · cases h
  obtain ⟨hresult, rfl⟩ := Prod.mk.inj h
  rw [recorded_iff]
  left
  unfold pushRecentRx at hresult ⊢
  split at hresult
  · cases hresult
  unfold BoundedDeque.pushBack at hresult ⊢
  dsimp only at hresult ⊢
  split at hresult
  · rename_i hfail
    rw [hfail] at hresult
    cases hresult
  · rename_i hok
    rw [hok]
    exact mem_append_right _ (mem_singleton_self id)

end RecentIds

/-- Two packets built one after the other from the same arguments have different identities, and
recording the first does not make the second a duplicate, exactly if the step of the counter does not
cancel in the nonce. -/
theorem repeated_publications_distinct {reg : Registry} {counter counter' counter'' : UInt32}
    {ty : DataType} {endpoints : List DataEndpoint} {sender : Bytes} {timestamp : UInt64} {payload : Bytes}
    {p q : Packet} (hp : Packet.new reg counter ty endpoints sender timestamp payload = (.ok p, counter'))
    (hq : Packet.new reg counter' ty endpoints sender timestamp payload = (.ok q, counter'')) :
    (p.packetId ≠ q.packetId ∧ ∀ (env env' : QueueEnv UInt64) (room room' : TelemetryResult Unit) (st st' : RecentIds),
        st.isDuplicatePacketId env room p.packetId = (.ok false, st') →
        (st'.isDuplicatePacketId env' room' q.packetId).1 = .ok true →
        (st.isDuplicatePacketId env' room' q.packetId).1 = .ok true) ↔
      ¬ NonceHides counter (counter + nonceStride) := by
  obtain ⟨rfl, hty, heps, hsender, hts, hn, hpayload⟩ := Packet.new_ok hp
  obtain ⟨-, hty', heps', hsender', hts', hn', hpayload'⟩ := Packet.new_ok hq
  have hids : p.packetId = q.packetId ↔ p.nonce = q.nonce := by
    rw [Packet.packetId_eq, Packet.packetId_eq, hty, heps, hsender, hts, hpayload, hty', heps',
      hsender', hts', hpayload']
    exact ⟨identityHash_nonce_inj, fun h => by rw [h]⟩
  rw [← packetNonce_eq_iff, ← hn, ← hn', ← hids]
  refine ⟨And.left, fun hne => ⟨hne, fun env env' room room' st st' hfirst hsecond => ?_⟩⟩
  rw [RecentIds.duplicate_iff] at hsecond ⊢
  apply RecentIds.recorded_of_recorded (Ne.symm hne)
  rw [hfirst]
  exact hsecond

theorem repeated_publications_distinct_first : ¬ NonceHides nonceSeed (nonceSeed + nonceStride) ∧
      (publishedPacket (packetNonce nonceSeed)).packetId ≠
        (publishedPacket (packetNonce (nonceSeed + nonceStride))).packetId := by
  have hseed : ¬ NonceHides nonceSeed (nonceSeed + nonceStride) := by
    unfold NonceHides
    decide
  have hnew : ∀ counter, Packet.new sampleRegistry counter 100 [5] [0x47, 0x53] 7 [0xAA, 0xBB] =
      (.ok (publishedPacket (packetNonce counter)), counter + nonceStride) := fun _ => rfl
  exact ⟨hseed, ((repeated_publications_distinct (hnew nonceSeed) (hnew _)).mpr hseed).1⟩

/-- After 67137 packets the generator yields the same nonce twice: two equal publications are one
packet, and a router that let the first through takes the second for its duplicate. -/
theorem publication_suppressed : nonceSeed + 67137 * nonceStride = 0x986C5D20 ∧
      Packet.new sampleRegistry 0x986C5D20 100 [5] [0x47, 0x53] 7 [0xAA, 0xBB] =
        (.ok (publishedPacket 0xCC45), 0x36A3D6D9) ∧
      Packet.new sampleRegistry 0x36A3D6D9 100 [5] [0x47, 0x53] 7 [0xAA, 0xBB] =
        (.ok (publishedPacket 0xCC45), 0xD4DB5092) ∧
      ∀ (env env' : QueueEnv UInt64) (room room' : TelemetryResult Unit) (st st' : RecentIds),
        st.isDuplicatePacketId env room (publishedPacket 0xCC45).packetId = (.ok false, st') →
        (st'.isDuplicatePacketId env' room' (publishedPacket 0xCC45).packetId).1 = .ok true := by
  refine ⟨by decide, by decide +kernel, by decide +kernel, ?_⟩
  intro env env' room room' st st' hfirst
  exact RecentIds.duplicate_iff.mpr (RecentIds.recorded_of_accepted hfirst)

/-! ### Seals -/

/-- A packet that is to be sealed, with the header it is sealed under. -/
structure SealRequest where
  packet : Packet
  reliable : Option ReliableHeader
  shape : Option MessageElement
  targets : List UInt64
  compressionAllowed : Bool
deriving DecidableEq

namespace SealRequest

def nonce (r : SealRequest) : Bytes := e2eNonceForPacket r.packet

/-- The authenticated header. -/
def aad (env : WireEnv) (r : SealRequest) : Bytes :=
  frameHeader env r.packet r.reliable r.shape r.targets
    (payloadForEncoding env r.packet r.compressionAllowed).1 true

def plaintext (env : WireEnv) (r : SealRequest) : Bytes :=
  (payloadForEncoding env r.packet r.compressionAllowed).2

end SealRequest

/-- The derivation keeps the type, 48 bits of the timestamp and the packet nonce. -/
theorem e2eNonceForPacket_inj {p q : Packet} (h : e2eNonceForPacket p = e2eNonceForPacket q) :
    p.ty = q.ty ∧ p.timestamp.toNat % 2 ^ 48 = q.timestamp.toNat % 2 ^ 48 ∧ p.nonce = q.nonce := by
  unfold e2eNonceForPacket at h
  obtain ⟨hfront, hnonce⟩ := append_inj h (by simp)
  obtain ⟨hty, hts⟩ := append_inj hfront (by simp)
  rw [leBytes_eq_iff] at hty hts hnonce
  rw [show 256 ^ 4 = 2 ^ 32 by decide, Nat.mod_eq_of_lt (UInt32.toNat_lt p.ty),
    Nat.mod_eq_of_lt (UInt32.toNat_lt q.ty)] at hty
  rw [show 256 ^ 2 = 2 ^ 16 by decide, Nat.mod_eq_of_lt p.nonce.toNat_lt, Nat.mod_eq_of_lt q.nonce.toNat_lt] at hnonce
  exact ⟨UInt32.toNat_inj.mp hty, hts, UInt16.toNat_inj.mp hnonce⟩

/-- A sender that builds packets under its name and seals them under one key. -/
structure PacketSender where
  counter : UInt32
  packets : List Packet
  seals : List SealRequest

namespace PacketSender

/-- What a sender does: it publishes, or seals one of its packets for a side. -/
inductive Event where
  | publish (ty : DataType) (endpoints : List DataEndpoint) (timestamp : UInt64) (payload : Bytes)
  | sealPacket (index : ℕ) (reliable : Option ReliableHeader) (shape : Option MessageElement)
      (targets : List UInt64) (compressionAllowed : Bool)

/-- The request an event makes of the provider. -/
def request (s : PacketSender) : Event → Option SealRequest
  | .publish _ _ _ _ => none
  | .sealPacket index reliable shape targets compressionAllowed =>
    s.packets[index]?.map fun packet => ⟨packet, reliable, shape, targets, compressionAllowed⟩

def start : PacketSender := ⟨nonceSeed, [], []⟩

def step (reg : Registry) (name : Bytes) (s : PacketSender) (e : Event) : PacketSender :=
  match e with
  | .publish ty endpoints timestamp payload =>
    match Packet.new reg s.counter ty endpoints name timestamp payload with
    | (.ok packet, counter) => { s with counter, packets := s.packets ++ [packet] }
    | (.error _, counter) => { s with counter }
  | .sealPacket _ _ _ _ _ => { s with seals := s.seals ++ (s.request e).toList }

/-- A sender publishes no two packets of one type with the same low 48 bits of their timestamps, and
seals a packet a second time only with the arguments of the first. -/
def Careful (s : PacketSender) : Event → Prop
  | .publish ty _ timestamp _ => ∀ p ∈ s.packets, p.ty = ty → p.timestamp.toNat % 2 ^ 48 ≠ timestamp.toNat % 2 ^ 48
  | .sealPacket index reliable shape targets compressionAllowed =>
    ∀ r ∈ s.seals, s.packets[index]? = some r.packet →
      r.reliable = reliable ∧ r.shape = shape ∧ r.targets = targets ∧ r.compressionAllowed = compressionAllowed

/-- A packet is known by its type and its timestamp, and a seal by its packet. -/
structure Distinct (s : PacketSender) : Prop where
  packets : Set.InjOn (fun p => (p.ty, p.timestamp.toNat % 2 ^ 48)) {p | p ∈ s.packets}
  sealed : ∀ r ∈ s.seals, r.packet ∈ s.packets
  seals : Set.InjOn SealRequest.packet {r | r ∈ s.seals}

theorem injOn_concat {α β : Type} {f : α → β} {l : List α} {x : α} (h : Set.InjOn f {a | a ∈ l})
    (hx : ∀ a ∈ l, f a = f x → a = x) : Set.InjOn f {a | a ∈ l ++ [x]} := by
  intro a ha b hb hab
  rcases mem_append.mp ha with hold | hlast
  · rcases mem_append.mp hb with hold' | hlast'
    · exact h hold hold' hab
    · obtain rfl := mem_singleton.mp hlast'
      exact hx a hold hab
  · obtain rfl := mem_singleton.mp hlast
    rcases mem_append.mp hb with hold' | hlast'
    · exact (hx b hold' hab.symm).symm
    · exact (mem_singleton.mp hlast').symm

theorem step_distinct {reg : Registry} {name : Bytes} {s : PacketSender} {e : Event}
    (hs : Distinct s) (he : Careful s e) : Distinct (step reg name s e) := by
  cases e with
  | publish ty endpoints timestamp payload =>
    unfold step
    dsimp only
    split
    · rename_i packet counter hnew
      obtain ⟨-, rfl, -, -, rfl, -⟩ := Packet.new_ok hnew
      refine ⟨injOn_concat hs.packets ?_, fun r hr => mem_append_left _ (hs.sealed r hr), hs.seals⟩
      intro p hp heq
      obtain ⟨hty, hts⟩ := Prod.mk.inj heq
      exact absurd hts (he p hp hty)
    · exact ⟨hs.packets, hs.sealed, hs.seals⟩
  | sealPacket index reliable shape targets compressionAllowed =>
    unfold step request
    dsimp only
    cases hget : s.packets[index]? with
    | none => exact ⟨hs.packets, by simpa using hs.sealed, by simpa using hs.seals⟩
    | some packet =>
      refine ⟨hs.packets, ?_, injOn_concat hs.seals ?_⟩
      · intro r hr
        rcases mem_append.mp hr with hold | hlast
        · exact hs.sealed r hold
        · exact mem_singleton.mp hlast ▸ mem_of_getElem? hget
      · rintro r hr rfl
        obtain ⟨hreliable, hshape, htargets, hcompress⟩ := he r hr hget
        cases r
        subst hreliable hshape htargets hcompress
        rfl

/-- A sender that publishes at most once per type and tick, and seals each packet in one way, never
uses a nonce for two inputs. -/
theorem seal_nonces_unique (env : WireEnv) (name : Bytes) (es : List Event)
    (hes : Runs.Meets (step env.reg name) Careful start es) : ∀ r ∈ (Runs.run (step env.reg name) start es).seals,
      ∀ r' ∈ (Runs.run (step env.reg name) start es).seals,
        (r.aad env, r.plaintext env) ≠ (r'.aad env, r'.plaintext env) → r.nonce ≠ r'.nonce := by
  have hstart : Distinct start :=
    ⟨fun _ hp => absurd hp not_mem_nil, fun _ hr => absurd hr not_mem_nil, fun _ hr => absurd hr not_mem_nil⟩
  have hrun : Distinct (Runs.run (step env.reg name) start es) :=
    Runs.run_invariant (fun _ _ => step_distinct) hstart hes
  intro r hr r' hr' hdiff hnonce
  obtain ⟨hty, hts, -⟩ := e2eNonceForPacket_inj hnonce
  have hpacket := hrun.packets (hrun.sealed r hr) (hrun.sealed r' hr') (Prod.ext hty hts)
  obtain rfl := hrun.seals hr hr' hpacket
  exact hdiff rfl

/-- A publication and its seal for one side. -/
def publishAndSeal : List Event :=
  [.publish 100 [5] 7 [0xAA, 0xBB], .sealPacket 0 (some ⟨0, 1, 0⟩) none [] false]

theorem seal_nonces_unique_two :
    let es := publishAndSeal ++ [.publish 100 [5] 8 [0xAA, 0xBB], .sealPacket 1 (some ⟨0, 2, 0⟩) none [] false]
    let seals := (Runs.run (step sampleRegistry [0x47, 0x53]) start es).seals
    seals.length = 2 ∧ ∀ r ∈ seals, ∀ r' ∈ seals,
      (r.aad (plainEnv sampleRegistry), r.plaintext (plainEnv sampleRegistry)) ≠
          (r'.aad (plainEnv sampleRegistry), r'.plaintext (plainEnv sampleRegistry)) →
        r.nonce ≠ r'.nonce := by
  refine ⟨by decide +kernel, seal_nonces_unique (plainEnv sampleRegistry) _ _ ?_⟩
  refine ⟨?_, ?_, ?_, ?_, trivial⟩
  · intro p hp
    cases hp
  · intro r hr
    cases hr
  · intro p hp _
    obtain rfl := mem_singleton.mp hp
    decide +kernel
  · intro r hr hget
    obtain rfl := mem_singleton.mp hr
    cases hget

/-- One packet sealed for two sides, as the router does with the next number of each side: the headers
differ, the nonce does not. -/
theorem seal_nonce_reused :
    let es := publishAndSeal ++ [.sealPacket 0 (some ⟨0, 2, 0⟩) none [] false]
    ∃ r r', (Runs.run (step sampleRegistry [0x47, 0x53]) start es).seals = [r, r'] ∧
      r.aad (plainEnv sampleRegistry) ≠ r'.aad (plainEnv sampleRegistry) ∧ r.nonce = r'.nonce := by
  let packet := publishedPacket (packetNonce nonceSeed)
  refine ⟨⟨packet, some ⟨0, 1, 0⟩, none, [], false⟩, ⟨packet, some ⟨0, 2, 0⟩, none, [], false⟩, ?_, ?_,
    rfl⟩
  · decide +kernel
  · decide +kernel

end PacketSender

end SedsNet
