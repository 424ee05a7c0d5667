import SedsNet.OrderedMap
import SedsNet.TopologyBoards

/-! # What a router advertises on a side

The advertisements of `router.rs` for one side: the topology, the endpoints, the time sources and the
network variables that this router has or has learned from its other sides.  What was learned from the
side itself is left out (split horizon), and endpoints of this link only are left out unless the side
is set to carry them.

`AdvertisingState.without` hides what was learned from a side.  States that are the same without it
advertise the same on that side, except that the board of this router names its peers on all sides
(`split_horizon`). -/

namespace SedsNet

open Std (ExtTreeMap)
open List (Forall₂)

/-! ### State -/

/-- What an advertisement reads of the router and of the registry of endpoints. -/
structure AdvertisingState where
  sender : Bytes
  handlerEndpoints : List DataEndpoint
  timesyncConfigured : Bool
  /-- Whether the tracker serves time at the given time. -/
  servesTime : ℕ → Bool
  managedVariableTypes : List DataType
  linkLocalOnly : DataEndpoint → Bool
  discoveryRoutes : ExtTreeMap ℕ DiscoverySideState

namespace AdvertisingState

section

variable (st : AdvertisingState) (nowMs : ℕ) (linkLocalEnabled : Bool) (exclude : Option ℕ)

/-- The sides that have been heard of lately, but for the excluded one. -/
def liveRoutes : List (ℕ × DiscoverySideState) :=
  st.discoveryRoutes.toList.filter fun p => decide (exclude ≠ some p.1) && discoveryFresh nowMs p.2.lastSeenMs

/-- The peers on these sides. -/
def livePeers : List (Bytes × DiscoverySenderState) :=
  (st.liveRoutes nowMs exclude).flatMap fun p => p.2.liveAnnouncers nowMs

/-- Whether an endpoint may be advertised on a link. -/
def onLink (ep : DataEndpoint) : Bool :=
  linkLocalEnabled || !st.linkLocalOnly ep

/-! ### This router -/

def localDiscoveryEndpoints : List DataEndpoint :=
  let eps := st.handlerEndpoints ++ if st.timesyncConfigured then [timeSyncEndpoint] else []
  sortDedup (eps.filter fun ep => !isDiscoveryEndpoint ep)

def localDiscoveryTimesyncSources : List Bytes :=
  if st.servesTime nowMs then [st.sender] else []

def localDiscoveryTopologyBoard : TopologyBoardNode where
  senderId := st.sender
  reachableEndpoints := st.localDiscoveryEndpoints.filter fun ep => st.onLink linkLocalEnabled ep
  reachableTimesyncSources := st.localDiscoveryTimesyncSources nowMs
  connections := sortDedup ((st.livePeers nowMs none).map Prod.fst)

/-! ### Advertisements -/

/-- The board of a peer that has sent no topology. -/
def fallbackBoard (p : Bytes × DiscoverySenderState) : TopologyBoardNode where
  senderId := p.1
  reachableEndpoints := p.2.reachable
  reachableTimesyncSources := p.2.reachableTimesyncSources
  connections := [st.sender]

/-- The board of a peer is connected to this router. -/
def connectTo (peer : Bytes) (b : TopologyBoardNode) : TopologyBoardNode :=
  if b.connections.any (· == peer) then b else { b with connections := b.connections ++ [peer] }

/-- The loop body for one peer. -/
def mergePeer (boards : List TopologyBoardNode) (p : Bytes × DiscoverySenderState) :
    List TopologyBoardNode :=
  if p.2.topologyBoards.isEmpty then mergeTopologyBoards boards [st.fallbackBoard p]
  else updateBoard p.1 (connectTo st.sender) (mergeTopologyBoards boards p.2.topologyBoards)

/-- `advertised_discovery_topology_for_link_locked`. -/
def advertisedDiscoveryTopology : List TopologyBoardNode :=
  let boards := (st.livePeers nowMs exclude).foldl st.mergePeer [st.localDiscoveryTopologyBoard nowMs linkLocalEnabled]
  normalizeTopologyBoards (boards.map fun b =>
    { b with reachableEndpoints := b.reachableEndpoints.filter fun ep => st.onLink linkLocalEnabled ep })

/-- `advertised_summaries_from_topology_locked`. -/
def advertisedSummariesFromTopology (topology : List TopologyBoardNode) : List DataEndpoint × List Bytes :=
  let (endpoints, sources) := summarizeTopologyBoards topology
  let endpoints := (st.livePeers nowMs exclude).foldl
    (fun acc p => pushMissing acc (p.2.advertisedReachable.filter fun ep =>
      !isDiscoveryEndpoint ep && st.onLink linkLocalEnabled ep)) endpoints
  let sources := (st.livePeers nowMs exclude).foldl
    (fun acc p => pushMissing acc p.2.advertisedReachableTimesyncSources) sources
  ((endpoints.filter fun ep => !isDiscoveryEndpoint ep && st.onLink linkLocalEnabled ep).insertionSort
      fun a b => (compare a b).isLE,
    sources.insertionSort fun a b => (compare a b).isLE)

/-- `advertised_discovery_endpoints_for_link_locked`. -/
def advertisedDiscoveryEndpoints : List DataEndpoint :=
  let reachable := (summarizeTopologyBoards (st.advertisedDiscoveryTopology nowMs linkLocalEnabled exclude)).1
  let advertised := (st.livePeers nowMs exclude).flatMap fun p => p.2.advertisedReachable
  (sortDedup (reachable ++ advertised)).filter fun ep => !isDiscoveryEndpoint ep && st.onLink linkLocalEnabled ep

/-- `advertised_discovery_timesync_sources_for_link_locked`. -/
def advertisedDiscoveryTimesyncSources : List Bytes :=
  let sources := (summarizeTopologyBoards (st.advertisedDiscoveryTopology nowMs true exclude)).2
  sortDedup (sources ++ (st.livePeers nowMs exclude).flatMap fun p => p.2.advertisedReachableTimesyncSources)

/-- `advertised_network_variables_for_link_locked`. -/
def advertisedNetworkVariables : List DataType :=
  sortDedup (st.managedVariableTypes ++
    (st.liveRoutes nowMs exclude).flatMap fun p => p.2.reachableNetworkVariables)

/-! ### Split horizon -/

/-- The state without what was learned from a side. -/
def without (side : ℕ) : AdvertisingState :=
  { st with discoveryRoutes := st.discoveryRoutes.filter fun k _ => k ≠ side }

theorem liveRoutes_without (side : ℕ) :
    st.liveRoutes nowMs (some side) = (st.without side).liveRoutes nowMs none := by
  simp only [liveRoutes, without, ExtTreeMap.toList_filter, List.filter_filter]
  apply List.filter_congr
  simp [eq_comm, Bool.and_comm]

theorem livePeers_without (side : ℕ) :
    st.livePeers nowMs (some side) = (st.without side).livePeers nowMs none := by
  rw [livePeers, liveRoutes_without]
  rfl

end

/-- States that are the same without a side differ in the routes. -/
theorem exists_routes_of_without {st st' : AdvertisingState} {side : ℕ} (h : st.without side = st'.without side) :
    ∃ routes, st' = { st with discoveryRoutes := routes } := by
  obtain ⟨sender', handlers', timesync', serves', managed', linkLocal', routes'⟩ := st'
  rw [AdvertisingState.mk.injEq] at h
  obtain ⟨rfl, rfl, rfl, rfl, rfl, rfl, -⟩ := h
  exact ⟨routes', rfl⟩

end AdvertisingState

/-! ### Merging peers -/

variable {me : Bytes}

theorem SameBoard.connectTo {a b : TopologyBoardNode} (h : SameBoard me a b) (peer : Bytes) :
    SameBoard me (AdvertisingState.connectTo peer a) (AdvertisingState.connectTo peer b) := by
  by_cases hme : a.senderId = me
  · have hlinks : ∀ c d, SameBoard me c d → ∀ l l', c.senderId = me →
        SameBoard me { c with connections := l } { d with connections := l' } := fun c d hcd l l' hc =>
      ⟨hcd.senderId, hcd.reachableEndpoints, hcd.reachableTimesyncSources, fun hne => absurd hc hne⟩
    unfold AdvertisingState.connectTo
    split
    · split
      · exact h
      · exact hlinks a b h a.connections _ hme
    · split
      · exact hlinks a b h _ b.connections hme
      · exact hlinks a b h _ _ hme
  · have hconnections := h.connections hme
    unfold AdvertisingState.connectTo
    rw [hconnections]
    split
    · exact h
    · exact ⟨h.senderId, h.reachableEndpoints, h.reachableTimesyncSources, fun _ => rfl⟩

/-- The topologies that are advertised from related boards of this router. -/
theorem Respects.topology {R : TopologyBoardNode → TopologyBoardNode → Prop} (hR : Respects R) (st : AdvertisingState)
    (hconnect : ∀ a b, R a b → R (AdvertisingState.connectTo st.sender a) (AdvertisingState.connectTo st.sender b))
    {f g : TopologyBoardNode → TopologyBoardNode} (hfg : ∀ a b, R a b → R (f a) (g b))
    (peers : List (Bytes × DiscoverySenderState)) {a b : TopologyBoardNode} (hab : R a b) :
    Forall₂ R (SedsNet.normalizeTopologyBoards ((peers.foldl st.mergePeer [a]).map f))
      (SedsNet.normalizeTopologyBoards ((peers.foldl st.mergePeer [b]).map g)) := by
  have hfold : ∀ boards boards', Forall₂ R boards boards' →
      Forall₂ R (peers.foldl st.mergePeer boards) (peers.foldl st.mergePeer boards') := by
    induction peers with
    | nil => exact fun _ _ h => h
    | cons p peers ih =>
      refine fun boards boards' h => ih _ _ ?_
      unfold AdvertisingState.mergePeer
      split
      · exact hR.mergeTopologyBoards h _
      · exact hR.updateBoard (hR.mergeTopologyBoards h _) _ hconnect
  apply hR.normalizeTopologyBoards
  apply List.forall₂_map_left_iff.mpr
  apply List.forall₂_map_right_iff.mpr
  exact (hfold _ _ (.cons hab .nil)).imp hfg

namespace AdvertisingState

/-- The topologies that two such states advertise. -/
theorem topology_agree {st st' : AdvertisingState} {side : ℕ} (h : st.without side = st'.without side) (nowMs : ℕ)
    (linkLocalEnabled : Bool) : Agree st.sender (st.advertisedDiscoveryTopology nowMs linkLocalEnabled (some side))
      (st'.advertisedDiscoveryTopology nowMs linkLocalEnabled (some side)) := by
  have hpeers : st.livePeers nowMs (some side) = st'.livePeers nowMs (some side) := by
    rw [livePeers_without, livePeers_without, h]
  obtain ⟨routes, rfl⟩ := exists_routes_of_without h
  rw [advertisedDiscoveryTopology, advertisedDiscoveryTopology, ← hpeers]
  refine (respects_sameBoard st.sender).topology st (fun _ _ hab => hab.connectTo st.sender) (fun a b hab => ?_) _
    ⟨rfl, rfl, rfl, fun hne => absurd rfl hne⟩
  refine ⟨hab.senderId, ?_, hab.reachableTimesyncSources, hab.connections⟩
  rw [hab.reachableEndpoints]
  rfl

/-! ### Summaries -/

/-- The same board but for its endpoints and connections. -/
def SameSources (a b : TopologyBoardNode) : Prop :=
  a.senderId = b.senderId ∧ a.reachableTimesyncSources = b.reachableTimesyncSources

theorem respects_sameSources : Respects SameSources where
  refl _ := ⟨rfl, rfl⟩
  senderId h := h.1
  normalize h := ⟨h.1, by simp only [TopologyBoardNode.normalize, h.2]⟩
  absorb _ h := ⟨h.1, by simp only [TopologyBoardNode.absorb, h.2]⟩

theorem SameSources.connectTo {a b : TopologyBoardNode} (h : SameSources a b) (peer : Bytes) :
    SameSources (AdvertisingState.connectTo peer a) (AdvertisingState.connectTo peer b) := by
  have hsame : ∀ c, SameSources (AdvertisingState.connectTo peer c) c := by
    intro c
    unfold AdvertisingState.connectTo
    split
    · exact ⟨rfl, rfl⟩
    · exact ⟨rfl, rfl⟩
  exact ⟨(hsame a).1.trans (h.1.trans (hsame b).1.symm), (hsame a).2.trans (h.2.trans (hsame b).2.symm)⟩

variable (st : AdvertisingState) (nowMs : ℕ) (linkLocalEnabled : Bool) (exclude : Option ℕ)

/-- Which endpoints a link carries is no matter of the time sources. -/
theorem summary_sources : (summarizeTopologyBoards (st.advertisedDiscoveryTopology nowMs linkLocalEnabled exclude)).2 =
      (summarizeTopologyBoards (st.advertisedDiscoveryTopology nowMs true exclude)).2 := by
  have htopology := respects_sameSources.topology st (fun _ _ hab => hab.connectTo st.sender)
    (f := fun b => { b with reachableEndpoints := b.reachableEndpoints.filter fun ep => st.onLink linkLocalEnabled ep })
    (g := fun b => { b with reachableEndpoints := b.reachableEndpoints.filter fun ep => st.onLink true ep })
    (fun a b hab => hab) (st.livePeers nowMs exclude) (a := st.localDiscoveryTopologyBoard nowMs linkLocalEnabled)
    (b := st.localDiscoveryTopologyBoard nowMs true) ⟨rfl, rfl⟩
  have hsources := Respects.foldl_eq (f := fun acc b => pushMissing acc b.reachableTimesyncSources)
    (fun _ _ _ hab => by rw [hab.2]) htopology []
  exact congrArg sortDedup hsources

theorem nodup_pushMissing {α : Type} [DecidableEq α] {l : List α} (new : List α) (h : l.Nodup) :
    (pushMissing l new).Nodup := by
  unfold pushMissing
  induction new generalizing l with
  | nil => exact h
  | cons a new ih =>
    rw [List.foldl_cons]
    split
    · exact ih h
    · exact ih (List.nodup_append.mpr ⟨h, List.nodup_singleton a, by grind⟩)

theorem foldl_pushMissing {α β : Type} [DecidableEq α] (f : β → List α) (ps : List β) : ∀ {l}, l.Nodup →
    (ps.foldl (fun acc p => pushMissing acc (f p)) l).Nodup ∧
      ∀ x, x ∈ ps.foldl (fun acc p => pushMissing acc (f p)) l ↔ x ∈ l ∨ ∃ p ∈ ps, x ∈ f p := by
  induction ps with
  | nil => exact fun h => ⟨h, by simp⟩
  | cons p ps ih =>
    intro l h
    obtain ⟨hnodup, hmem⟩ := ih (nodup_pushMissing (f p) h)
    refine ⟨hnodup, fun x => ?_⟩
    rw [List.foldl_cons, hmem, mem_pushMissing]
    simp [or_assoc]

/-- **One pass gives the separate summaries** of what is advertised on a link. -/
theorem summaries_agree : st.advertisedSummariesFromTopology nowMs linkLocalEnabled exclude
        (st.advertisedDiscoveryTopology nowMs linkLocalEnabled exclude) =
      (st.advertisedDiscoveryEndpoints nowMs linkLocalEnabled exclude,
        st.advertisedDiscoveryTimesyncSources nowMs exclude) := by
  unfold advertisedSummariesFromTopology advertisedDiscoveryEndpoints advertisedDiscoveryTimesyncSources
  rw [← summary_sources st nowMs linkLocalEnabled]
  have hnodup : (summarizeTopologyBoards (st.advertisedDiscoveryTopology nowMs linkLocalEnabled exclude)).1.Nodup ∧
      (summarizeTopologyBoards (st.advertisedDiscoveryTopology nowMs linkLocalEnabled exclude)).2.Nodup :=
    ⟨(ascending_sortDedup _).nodup.filter _, (ascending_sortDedup _).nodup⟩
  obtain ⟨hendpoints, hmem⟩ := foldl_pushMissing (fun p =>
    p.2.advertisedReachable.filter fun ep => !isDiscoveryEndpoint ep && st.onLink linkLocalEnabled ep)
    (st.livePeers nowMs exclude) hnodup.1
  obtain ⟨hsources, hmemSources⟩ := foldl_pushMissing (fun p =>
    p.2.advertisedReachableTimesyncSources) (st.livePeers nowMs exclude) hnodup.2
  refine Prod.ext ?_ ?_
  · dsimp only
    rw [insertionSort_of_nodup (hendpoints.filter _), filter_sortDedup]
    apply sortDedup_ext
    grind
  · dsimp only
    rw [insertionSort_of_nodup hsources]
    apply sortDedup_ext
    intro source
    rw [hmemSources, List.mem_append, List.mem_flatMap]

/-! ### Containment -/

variable {ep : DataEndpoint}

theorem topology_onLink (st : AdvertisingState) (nowMs : ℕ) (linkLocalEnabled : Bool) (exclude : Option ℕ)
    {b : TopologyBoardNode} (hb : b ∈ st.advertisedDiscoveryTopology nowMs linkLocalEnabled exclude)
    (hep : ep ∈ b.reachableEndpoints) : st.onLink linkLocalEnabled ep = true := by
  obtain ⟨a, ha, hsub⟩ := mem_normalizeTopologyBoards hb
  obtain ⟨c, -, rfl⟩ := List.mem_map.mp ha
  exact List.of_mem_filter (hsub ep hep)

theorem endpoints_onLink (st : AdvertisingState) (nowMs : ℕ) (linkLocalEnabled : Bool) (exclude : Option ℕ)
    (hep : ep ∈ st.advertisedDiscoveryEndpoints nowMs linkLocalEnabled exclude) :
    st.onLink linkLocalEnabled ep = true := by
  have hkept := List.of_mem_filter hep
  rw [Bool.and_eq_true] at hkept
  exact hkept.2

/-- On a side, a router advertises the same whatever it has learned from that side, but for the links of
its own board; and where endpoints of one link are not to be carried, none is advertised. -/
theorem split_horizon {st st' : AdvertisingState} {side : ℕ} (h : st.without side = st'.without side) (nowMs : ℕ)
    (linkLocalEnabled : Bool) : (st.advertisedDiscoveryEndpoints nowMs linkLocalEnabled (some side) =
        st'.advertisedDiscoveryEndpoints nowMs linkLocalEnabled (some side) ∧
      st.advertisedDiscoveryTimesyncSources nowMs (some side) =
        st'.advertisedDiscoveryTimesyncSources nowMs (some side) ∧
      st.advertisedSummariesFromTopology nowMs linkLocalEnabled (some side)
          (st.advertisedDiscoveryTopology nowMs linkLocalEnabled (some side)) =
        st'.advertisedSummariesFromTopology nowMs linkLocalEnabled (some side)
          (st'.advertisedDiscoveryTopology nowMs linkLocalEnabled (some side)) ∧
      st.advertisedNetworkVariables nowMs (some side) = st'.advertisedNetworkVariables nowMs (some side) ∧
      Agree st.sender (st.advertisedDiscoveryTopology nowMs linkLocalEnabled (some side))
        (st'.advertisedDiscoveryTopology nowMs linkLocalEnabled (some side))) ∧
    ∀ exclude ep, st.linkLocalOnly ep = true →
      (∀ b ∈ st.advertisedDiscoveryTopology nowMs false exclude, ep ∉ b.reachableEndpoints) ∧
      ep ∉ st.advertisedDiscoveryEndpoints nowMs false exclude := by
  have htopology := topology_agree h nowMs linkLocalEnabled
  have hsummary := htopology.summarizeTopologyBoards
  have hsources := congrArg Prod.snd (topology_agree h nowMs true).summarizeTopologyBoards
  have hpeers : st.livePeers nowMs (some side) = st'.livePeers nowMs (some side) := by
    rw [livePeers_without, livePeers_without, h]
  have hroutes : st.liveRoutes nowMs (some side) = st'.liveRoutes nowMs (some side) := by
    rw [liveRoutes_without, liveRoutes_without, h]
  have hkeep : ∀ ep, st.onLink linkLocalEnabled ep = st'.onLink linkLocalEnabled ep := by
    obtain ⟨routes, rfl⟩ := exists_routes_of_without h
    exact fun _ => rfl
  have hvariables : st.managedVariableTypes = st'.managedVariableTypes := by
    obtain ⟨routes, rfl⟩ := exists_routes_of_without h
    rfl
  refine ⟨⟨?_, ?_, ?_, ?_, htopology⟩, fun exclude ep hep => ⟨fun b hb hmem => ?_, fun hmem => ?_⟩⟩
  · simp only [advertisedDiscoveryEndpoints, hsummary, hpeers, hkeep]
  · simp only [advertisedDiscoveryTimesyncSources, hsources, hpeers]
  · simp only [advertisedSummariesFromTopology, hsummary, hpeers, hkeep]
  · simp only [advertisedNetworkVariables, hroutes, hvariables]
  · have hon := topology_onLink st nowMs false exclude hb hmem
    rw [onLink, hep] at hon
    cases hon
  · have hon := endpoints_onLink st nowMs false exclude hmem
    rw [onLink, hep] at hon
    cases hon

theorem without_forget (st : AdvertisingState) (side : ℕ) :
    st.without side = ({ st with discoveryRoutes := st.discoveryRoutes.erase side } : AdvertisingState).without side := by
  have hroutes : st.discoveryRoutes.filter (fun k _ => decide (k ≠ side)) =
      (st.discoveryRoutes.erase side).filter fun k _ => decide (k ≠ side) := by
    apply ExtTreeMap.ext_getElem?
    intro k
    rw [ExtTreeMap.getElem?_filter', ExtTreeMap.getElem?_filter', OrderedMap.getElem?_erase_eq]
    by_cases hk : side = k
    · simp [hk]
    · rw [if_neg hk]
  rw [without, without, hroutes]

/-- A peer that was just heard of and advertises one endpoint. -/
def samplePeer (ep : DataEndpoint) : DiscoverySenderState := ⟨none, [], [ep], [], [], [], 100⟩

/-- A router with an endpoint of its own and a peer on each of two sides. -/
def sampleAdvertiser : AdvertisingState where
  sender := [1]
  handlerEndpoints := [5]
  timesyncConfigured := false
  servesTime := fun _ => false
  managedVariableTypes := []
  linkLocalOnly := fun ep => ep == 8
  discoveryRoutes := ((∅ : ExtTreeMap ℕ DiscoverySideState).insert 0
    ⟨[], [], [], 100, (∅ : ExtTreeMap Bytes DiscoverySenderState).insert [2] (samplePeer 7)⟩).insert 1
    ⟨[], [], [], 100, (∅ : ExtTreeMap Bytes DiscoverySenderState).insert [3] (samplePeer 9)⟩

/-- On side 1 the endpoints of this router and of side 0 are advertised, with or without a peer there. -/
theorem split_horizon_two_sides :
    sampleAdvertiser.advertisedDiscoveryEndpoints 200 true (some 1) = [5, 7] ∧
      ({ sampleAdvertiser with discoveryRoutes := sampleAdvertiser.discoveryRoutes.erase 1 } :
        AdvertisingState).advertisedDiscoveryEndpoints 200 true (some 1) = [5, 7] := by
  have hvalue : sampleAdvertiser.advertisedDiscoveryEndpoints 200 true (some 1) = [5, 7] := by decide +kernel
  exact ⟨hvalue, ((split_horizon (without_forget sampleAdvertiser 1) 200 true).1.1).symm.trans hvalue⟩

end AdvertisingState

end SedsNet
