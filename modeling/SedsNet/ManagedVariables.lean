import SedsNet.OrderedMap
import SedsNet.Runs
import SedsNet.WireRoundTrip

/-! # The cache of managed variables

A router keeps the latest packet of each managed variable.  The timestamp of a new packet is compared
with the cached packet alone, and only if both have one sender: what a sender had said before another
one is not remembered. -/

namespace SedsNet

open OrderedMap Runs
open Std (ExtTreeMap)

structure ManagedVariableCacheEntry where
  packet : Packet
  senderAddress : UInt32
  cachedAtMs : UInt64
  /-- The side of the first arrival, plus one. -/
  upstream : Option ℕ
deriving DecidableEq

/-- What the local services of a router keep of managed variables. -/
structure ManagedVariables where
  cacheEpoch : ℕ
  types : List DataType
  latest : ExtTreeMap DataType ManagedVariableCacheEntry
  updateHandlers : ExtTreeMap DataType (List ℕ)

/-- A packet for the cache; `handler` answers for the application. -/
structure ManagedUpdate where
  packet : Packet
  notifyHandlers : Bool := true
  sourceSide : Option ℕ := none
  nowMs : UInt64 := 0
  handler : ℕ → TelemetryResult Unit := fun _ => .ok ()

namespace ManagedVariables

section

variable (s : ManagedVariables)

/-- The cached packet has the same sender and is newer. -/
def isStale (pkt : Packet) : Bool :=
  s.latest[pkt.ty]?.any fun e =>
    (aliasAddress pkt.sender).getD (senderAddressU32 pkt.sender) == e.senderAddress &&
      decide (pkt.timestamp < e.packet.timestamp)

def isChanged (pkt : Packet) : Bool :=
  s.latest[pkt.ty]?.all fun e => e.packet.packetId != pkt.packetId

def entry (u : ManagedUpdate) : ManagedVariableCacheEntry where
  packet := u.packet
  senderAddress := (aliasAddress u.packet.sender).getD (senderAddressU32 u.packet.sender)
  cachedAtMs := u.nowMs
  upstream :=
    ((s.latest[u.packet.ty]?.filter fun _ => !s.isChanged u.packet).bind (·.upstream)).or
      (u.sourceSide.bind fun side => if side < usizeMax then some (side + 1) else none)

/-- `cache_managed_variable_packet`: the new state, the handlers that are called, and what the last one of
them returns. -/
def cachePacket (u : ManagedUpdate) : ManagedVariables × List ℕ × TelemetryResult Unit :=
  if !s.types.contains u.packet.ty || s.isStale u.packet then (s, [], .ok ())
  else
    let handlers := if u.notifyHandlers && s.isChanged u.packet then s.updateHandlers[u.packet.ty]?.getD [] else []
    ({ s with cacheEpoch := satAdd s.cacheEpoch 1, latest := s.latest.insert u.packet.ty (s.entry u) },
      called u.handler handlers, handlers.forM u.handler)

def receive (u : ManagedUpdate) : ManagedVariables := (s.cachePacket u).1

end

variable {s : ManagedVariables} {u : ManagedUpdate} {ty : DataType} {address : UInt32} {time : UInt64}

theorem latest_receive : (s.receive u).latest =
    if !s.types.contains u.packet.ty || s.isStale u.packet then s.latest
    else s.latest.insert u.packet.ty (s.entry u) := by
  unfold receive cachePacket
  split <;> rfl

/-- The cached packet has this sender, and a timestamp from `time` on. -/
def Since (ty : DataType) (address : UInt32) (time : UInt64) (s : ManagedVariables) : Prop :=
  ∃ e, s.latest[ty]? = some e ∧ e.senderAddress = address ∧ time ≤ e.packet.timestamp

theorem Since.receive (h : Since ty address time s)
    (hsame : ∀ e ∈ (s.receive u).latest[ty]?, e.senderAddress = address) : Since ty address time (s.receive u) := by
  obtain ⟨e, he, rfl, htime⟩ := h
  unfold Since
  rw [latest_receive] at hsame ⊢
  split_ifs at hsame ⊢ with hkept
  · exact ⟨e, he, rfl, htime⟩
  · rw [getElem?_insert_eq] at hsame ⊢
    split_ifs at hsame ⊢ with hty
    · have hsender := hsame _ rfl
      refine ⟨_, rfl, hsender, UInt64.le_trans htime ?_⟩
      simp_all [isStale, entry]
    · exact ⟨e, he, rfl, htime⟩

/-- **Managed variables**: while the entry of a variable stays with one sender its packets do not get
older; a packet of another sender replaces it whatever its timestamp; and a received packet is given to
the handlers, up to the first that fails, exactly when it changes the cached packet id. -/
theorem managed_cache_order (s : ManagedVariables) :
    (∀ (ty : DataType) (e e' : ManagedVariableCacheEntry) (us : List ManagedUpdate), s.latest[ty]? = some e →
      Meets receive (fun s u => ∀ x ∈ (s.receive u).latest[ty]?, x.senderAddress = e.senderAddress) s us →
      (run receive s us).latest[ty]? = some e' → e.packet.timestamp ≤ e'.packet.timestamp) ∧
    (∀ (u : ManagedUpdate) (e : ManagedVariableCacheEntry), u.packet.ty ∈ s.types →
      s.latest[u.packet.ty]? = some e → (s.entry u).senderAddress ≠ e.senderAddress →
      (s.receive u).latest[u.packet.ty]? = some (s.entry u)) ∧
    ∀ u : ManagedUpdate, u.notifyHandlers = true → (s.cachePacket u).2.1 =
      if (s.receive u).latest[u.packet.ty]?.map (·.packet.packetId) =
          s.latest[u.packet.ty]?.map (·.packet.packetId) then []
      else called u.handler (s.updateHandlers[u.packet.ty]?.getD []) := by
  refine ⟨?_, ?_, ?_⟩
  · intro ty e e' us h hmeets hlast
    obtain ⟨x, hx, -, hle⟩ := run_invariant (I := Since ty e.senderAddress e.packet.timestamp)
      (fun _ _ => Since.receive) ⟨e, h, rfl, UInt64.le_refl _⟩ hmeets
    cases hlast.symm.trans hx
    exact hle
  · intro u e hmanaged hlatest hsender
    have hfresh : s.isStale u.packet = false := by
      unfold entry at hsender
      simp [isStale, hlatest, hsender]
    rw [latest_receive, hfresh, List.contains_iff_mem.mpr hmanaged]
    exact ExtTreeMap.getElem?_insert_self
  · intro u hnotify
    rw [latest_receive, cachePacket, hnotify]
    split
    · simp
    · cases hlatest : s.latest[u.packet.ty]? with
      | none => simp [isChanged, hlatest]
      | some e =>
        have hcached : (s.entry u).packet = u.packet := rfl
        by_cases hid : u.packet.packetId = e.packet.packetId
        · simp [isChanged, hlatest, hcached, hid, called]
        · simp [isChanged, hlatest, hcached, hid, Ne.symm hid]

/-- The sample packet from a sender and at a time. -/
def updateOf (sender : UInt8) (timestamp : UInt64) : ManagedUpdate where
  packet := { samplePacket with sender := [sender], timestamp }

def sampleVariables : ManagedVariables := ⟨0, [100], ∅, (∅ : ExtTreeMap DataType (List ℕ)).insert 100 [1]⟩

theorem managed_cache_order_newer :
    let s := run receive sampleVariables [updateOf 65 10]
    (10 : UInt64) ≤ 12 ∧ (s.cachePacket (updateOf 65 12)).2.1 = [1] ∧ (s.cachePacket (updateOf 65 10)).2.1 = [] := by
  intro s
  refine ⟨?_, ?_, ?_⟩
  · exact (managed_cache_order s).1 100 (s.entry (updateOf 65 10)) (s.entry (updateOf 65 12))
      [updateOf 65 9, updateOf 65 12] (by decide +kernel) (by decide +kernel) (by decide +kernel)
  · rw [(managed_cache_order s).2.2 _ rfl]
    decide +kernel
  · rw [(managed_cache_order s).2.2 _ rfl]
    decide +kernel

/-- Between two packets of the first sender one of another sender is cached. -/
theorem managed_cache_older :
    let latestOf := fun us => (run receive sampleVariables us).latest[(100 : DataType)]?.map fun e =>
      (e.packet.sender, e.packet.timestamp)
    latestOf [updateOf 65 10] = some ([65], 10) ∧
      latestOf [updateOf 65 10, updateOf 66 5, updateOf 65 3] = some ([65], 3) := by
  decide +kernel

end ManagedVariables

end SedsNet
