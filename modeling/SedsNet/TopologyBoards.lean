import SedsNet.SchemaCatalog

/-! # Topology boards

The views of the network that routers exchange (`discovery.rs`): a board is a router with what it
reaches and whom it is connected to.  Views are merged by the id of the board and normalised, so that
equal views are equal lists.

Relations of boards that merging and normalising respect (`Respects`) carry over to views board by
board.  Two views *agree but for the links of `me`* (`Agree me`) when they have the same boards and
these differ at most in the connections of the board of `me`. -/

namespace SedsNet

open List (Forall₂)
open Std (ExtTreeMap)

/-! ### Related lists -/

section Related

variable {α β : Type} {R : α → β → Prop} {r : α → α → Prop} {s : β → β → Prop} [DecidableRel r] [DecidableRel s]

theorem forall₂_orderedInsert (hrs : ∀ a b a' b', R a b → R a' b' → (r a a' ↔ s b b')) {a : α} {b : β} (hab : R a b)
    {l : List α} {m : List β} (h : Forall₂ R l m) : Forall₂ R (l.orderedInsert r a) (m.orderedInsert s b) := by
  induction h with
  | nil => exact .cons hab .nil
  | @cons a' b' l m hab' hlm ih =>
    rw [List.orderedInsert_cons, List.orderedInsert_cons]
    by_cases hle : r a a'
    · rw [if_pos hle, if_pos ((hrs a b a' b' hab hab').mp hle)]
      exact .cons hab (.cons hab' hlm)
    · rw [if_neg hle, if_neg (fun hs => hle ((hrs a b a' b' hab hab').mpr hs))]
      exact .cons hab' ih

/-- Lists whose elements compare alike are sorted alike. -/
theorem forall₂_insertionSort (hrs : ∀ a b a' b', R a b → R a' b' → (r a a' ↔ s b b')) {l : List α} {m : List β}
    (h : Forall₂ R l m) : Forall₂ R (l.insertionSort r) (m.insertionSort s) := by
  induction h with
  | nil => exact .nil
  | cons hab _ ih => exact forall₂_orderedInsert hrs hab ih

theorem forall₂_dedupByKey {κ : Type} [DecidableEq κ] {key : α → κ} {key' : β → κ}
    (hkey : ∀ a b, R a b → key a = key' b) {l : List α} {m : List β} (h : Forall₂ R l m) :
    Forall₂ R (dedupByKey key l) (dedupByKey key' m) := by
  induction h with
  | nil => exact .nil
  | @cons a b l m hab _ ih =>
    rw [dedupByKey, dedupByKey]
    generalize dedupByKey key l = l' at ih
    generalize dedupByKey key' m = m' at ih
    cases ih with
    | nil => exact .cons hab .nil
    | @cons a' b' l m hab' hlm =>
      simp only [hkey a b hab, hkey a' b' hab']
      split
      · exact .cons hab hlm
      · exact .cons hab (.cons hab' hlm)

end Related

/-! ### Boards -/

/-- `small_sort::sort`, then `dedup`. -/
def sortDedup {α : Type} [Ord α] [DecidableEq α] (l : List α) : List α :=
  dedupByKey id (l.insertionSort fun a b => (compare a b).isLE)

/-- Push what is not there. -/
def pushMissing {α : Type} [DecidableEq α] (l new : List α) : List α :=
  new.foldl (fun acc a => if a ∈ acc then acc else acc ++ [a]) l

structure TopologyBoardNode where
  senderId : Bytes
  reachableEndpoints : List DataEndpoint
  reachableTimesyncSources : List Bytes
  connections : List Bytes
deriving DecidableEq

/-- `DataEndpoint::TimeSync`. -/
def timeSyncEndpoint : DataEndpoint := 200

/-- `DataEndpoint::TelemetryError`. -/
def telemetryErrorEndpoint : DataEndpoint := 202

def isRouterControlEndpoint (ep : DataEndpoint) : Bool :=
  ep == telemetryErrorEndpoint || ep == timeSyncEndpoint || ep == discoveryEndpoint

def isDiscoveryEndpoint (ep : DataEndpoint) : Bool := ep == discoveryEndpoint

namespace TopologyBoardNode

/-- The loop body of `normalize_topology_boards`. -/
def normalize (b : TopologyBoardNode) : TopologyBoardNode where
  senderId := b.senderId
  reachableEndpoints := sortDedup (b.reachableEndpoints.filter fun ep => !isRouterControlEndpoint ep)
  reachableTimesyncSources := sortDedup b.reachableTimesyncSources
  connections := sortDedup (b.connections.filter fun peer => peer != b.senderId)

/-- What another view says of the same board is added. -/
def absorb (b other : TopologyBoardNode) : TopologyBoardNode where
  senderId := b.senderId
  reachableEndpoints := pushMissing b.reachableEndpoints other.reachableEndpoints
  reachableTimesyncSources := pushMissing b.reachableTimesyncSources other.reachableTimesyncSources
  connections := pushMissing b.connections other.connections

end TopologyBoardNode

open TopologyBoardNode

def normalizeTopologyBoards (boards : List TopologyBoardNode) : List TopologyBoardNode :=
  dedupByKey senderId ((boards.map normalize).insertionSort fun a b => (compare a.senderId b.senderId).isLE)

/-- Of boards with one id the last stays. -/
def keepLast : List TopologyBoardNode → List TopologyBoardNode
  | [] => []
  | b :: rest => if rest.any (·.senderId == b.senderId) then keepLast rest else b :: keepLast rest

/-- Change the first board with the id. -/
def updateBoard (id : Bytes) (f : TopologyBoardNode → TopologyBoardNode) : List TopologyBoardNode → List TopologyBoardNode
  | [] => []
  | b :: rest => if b.senderId = id then f b :: rest else b :: updateBoard id f rest

def mergeBoard (dst : List TopologyBoardNode) (board : TopologyBoardNode) : List TopologyBoardNode :=
  if dst.any (·.senderId == board.senderId) then updateBoard board.senderId (·.absorb board) dst else dst ++ [board]

def mergeTopologyBoards (dst src : List TopologyBoardNode) : List TopologyBoardNode :=
  normalizeTopologyBoards (src.foldl mergeBoard (keepLast dst))

def summarizeTopologyBoards (boards : List TopologyBoardNode) : List DataEndpoint × List Bytes :=
  let endpoints := boards.foldl
    (fun acc b => pushMissing acc (b.reachableEndpoints.filter fun ep => !isRouterControlEndpoint ep)) []
  let sources := boards.foldl (fun acc b => pushMissing acc b.reachableTimesyncSources) []
  ((sortDedup endpoints).filter fun ep => !isRouterControlEndpoint ep, sortDedup sources)

/-! ### Related views -/

/-- A relation of boards that merging keeps. -/
structure Respects (R : TopologyBoardNode → TopologyBoardNode → Prop) : Prop where
  refl : ∀ b, R b b
  senderId : ∀ {a b}, R a b → a.senderId = b.senderId
  normalize : ∀ {a b}, R a b → R a.normalize b.normalize
  absorb : ∀ {a b} other, R a b → R (a.absorb other) (b.absorb other)

namespace Respects

variable {R : TopologyBoardNode → TopologyBoardNode → Prop} (hR : Respects R) {boards boards' : List TopologyBoardNode}
  (h : Forall₂ R boards boards')

include hR h

theorem normalizeTopologyBoards :
    Forall₂ R (normalizeTopologyBoards boards) (normalizeTopologyBoards boards') := by
  have hmap : Forall₂ R (boards.map TopologyBoardNode.normalize) (boards'.map TopologyBoardNode.normalize) := by
    apply List.forall₂_map_left_iff.mpr
    apply List.forall₂_map_right_iff.mpr
    exact h.imp fun _ _ => hR.normalize
  have hkey : ∀ a b, R a b → a.senderId = b.senderId := fun _ _ => hR.senderId
  refine forall₂_dedupByKey hkey (forall₂_insertionSort ?_ hmap)
  intro a b a' b' hab hab'
  rw [hR.senderId hab, hR.senderId hab']

theorem any_senderId (id : Bytes) :
    boards.any (·.senderId == id) = boards'.any (·.senderId == id) := by
  induction h with
  | nil => rfl
  | cons hab _ ih => rw [List.any_cons, List.any_cons, ih, hR.senderId hab]

theorem keepLast : Forall₂ R (keepLast boards) (keepLast boards') := by
  induction h with
  | nil => exact .nil
  | @cons a b rest rest' hab hrest ih =>
    rw [SedsNet.keepLast, SedsNet.keepLast, hR.any_senderId hrest, hR.senderId hab]
    split
    · exact ih
    · exact .cons hab ih

theorem updateBoard (id : Bytes) {f g : TopologyBoardNode → TopologyBoardNode}
    (hf : ∀ a b, R a b → R (f a) (g b)) : Forall₂ R (updateBoard id f boards) (updateBoard id g boards') := by
  induction h with
  | nil => exact .nil
  | cons hab hrest ih =>
    rw [SedsNet.updateBoard, SedsNet.updateBoard, hR.senderId hab]
    split
    · exact .cons (hf _ _ hab) hrest
    · exact .cons hab ih

theorem mergeBoard (board : TopologyBoardNode) :
    Forall₂ R (mergeBoard boards board) (mergeBoard boards' board) := by
  rw [SedsNet.mergeBoard, SedsNet.mergeBoard, hR.any_senderId h]
  split
  · exact hR.updateBoard h _ fun _ _ hab => hR.absorb board hab
  · exact List.rel_append h (.cons (hR.refl board) .nil)

theorem mergeTopologyBoards (src : List TopologyBoardNode) :
    Forall₂ R (mergeTopologyBoards boards src) (mergeTopologyBoards boards' src) := by
  have hfold : ∀ dst dst', Forall₂ R dst dst' →
      Forall₂ R (src.foldl SedsNet.mergeBoard dst) (src.foldl SedsNet.mergeBoard dst') := by
    induction src with
    | nil => exact fun _ _ hdst => hdst
    | cons board src ih => exact fun _ _ hdst => ih _ _ (hR.mergeBoard hdst board)
  exact hR.normalizeTopologyBoards (hfold _ _ (hR.keepLast h))

omit hR h in
theorem foldl_eq {γ : Type} {f : γ → TopologyBoardNode → γ} (hf : ∀ c a b, R a b → f c a = f c b)
    (h : Forall₂ R boards boards') (c : γ) : boards.foldl f c = boards'.foldl f c := by
  induction h generalizing c with
  | nil => rfl
  | cons hab _ ih => rw [List.foldl_cons, List.foldl_cons, hf c _ _ hab, ih]

end Respects

/-- The same board, but for its connections when it is that of `me`. -/
structure SameBoard (me : Bytes) (a b : TopologyBoardNode) : Prop where
  senderId : a.senderId = b.senderId
  reachableEndpoints : a.reachableEndpoints = b.reachableEndpoints
  reachableTimesyncSources : a.reachableTimesyncSources = b.reachableTimesyncSources
  connections : a.senderId ≠ me → a.connections = b.connections

/-- Board by board. -/
def Agree (me : Bytes) (boards boards' : List TopologyBoardNode) : Prop := Forall₂ (SameBoard me) boards boards'

theorem respects_sameBoard (me : Bytes) : Respects (SameBoard me) where
  refl b := ⟨rfl, rfl, rfl, fun _ => rfl⟩
  senderId h := h.senderId
  normalize := by
    rintro a b ⟨hid, heps, hsources, hconnections⟩
    refine ⟨hid, ?_, ?_, fun hne => ?_⟩
    · simp only [TopologyBoardNode.normalize, heps]
    · simp only [TopologyBoardNode.normalize, hsources]
    · simp only [TopologyBoardNode.normalize, hid, hconnections hne]
  absorb := by
    rintro a b other ⟨hid, heps, hsources, hconnections⟩
    refine ⟨hid, ?_, ?_, fun hne => ?_⟩
    · simp only [absorb, heps]
    · simp only [absorb, hsources]
    · simp only [absorb, hconnections hne]

/-- A summary does not show any links. -/
theorem Agree.summarizeTopologyBoards {me : Bytes} {boards boards' : List TopologyBoardNode}
    (h : Agree me boards boards') : summarizeTopologyBoards boards = summarizeTopologyBoards boards' := by
  have hendpoints := Respects.foldl_eq (f := fun acc b =>
      pushMissing acc (b.reachableEndpoints.filter fun ep => !isRouterControlEndpoint ep))
    (fun _ _ _ hab => by rw [hab.reachableEndpoints]) h []
  have hsources := Respects.foldl_eq (f := fun acc b => pushMissing acc b.reachableTimesyncSources)
    (fun _ _ _ hab => by rw [hab.reachableTimesyncSources]) h []
  simp only [SedsNet.summarizeTopologyBoards, hendpoints, hsources]

/-! ### Where endpoints come from -/

theorem mem_sortDedup {α : Type} [Ord α] [DecidableEq α] {l : List α} {x : α} : x ∈ sortDedup l ↔ x ∈ l :=
  (mem_dedupByKey id fun _ _ _ _ h => h).trans (List.mem_insertionSort _)

theorem mem_pushMissing {α : Type} [DecidableEq α] {l new : List α} {x : α} : x ∈ pushMissing l new ↔ x ∈ l ∨ x ∈ new :=
  mem_foldl_push

/-- Normalising adds no endpoint. -/
theorem mem_normalizeTopologyBoards {boards : List TopologyBoardNode} {b : TopologyBoardNode}
    (h : b ∈ normalizeTopologyBoards boards) :
    ∃ a ∈ boards, ∀ ep ∈ b.reachableEndpoints, ep ∈ a.reachableEndpoints := by
  have hsorted := (List.mem_insertionSort _).mp (dedupByKey_subset senderId _ h)
  obtain ⟨a, ha, rfl⟩ := List.mem_map.mp hsorted
  exact ⟨a, ha, fun ep hep => List.mem_of_mem_filter (mem_sortDedup.mp hep)⟩

/-! ### Sorted lists -/

section Sorted

variable {α : Type} [Ord α] [Std.LawfulEqOrd α] {l m : List α}

theorem compare_lt_of_isLE {a b : α} (h : (compare a b).isLE = true) (hne : a ≠ b) : compare a b = .lt := by
  cases hcmp : compare a b with
  | lt => rfl
  | eq => exact absurd (Std.LawfulEqCmp.eq_of_compare hcmp) hne
  | gt => simp [hcmp] at h

def Ascending (l : List α) : Prop := l.Pairwise fun a b => compare a b = .lt

theorem Ascending.nodup (h : Ascending l) : l.Nodup := h.imp fun hlt heq => by simp [heq] at hlt

variable [Std.TransOrd α]

instance compareTotal : Std.Total fun a b : α => (compare a b).isLE = true where
  total a b := by
    rw [@Std.OrientedCmp.eq_swap _ compare _ b]
    cases compare a b <;> simp

instance compareTrans : IsTrans α fun a b => (compare a b).isLE = true := ⟨fun _ _ _ => Std.TransCmp.isLE_trans⟩

theorem Ascending.ext (hl : Ascending l) (hm : Ascending m) (h : ∀ a, a ∈ l ↔ a ∈ m) : l = m := by
  refine List.Perm.eq_of_pairwise ?_ hl hm ((List.perm_ext_iff_of_nodup hl.nodup hm.nodup).mpr h)
  intro a b _ _ hab hba
  have := Std.TransCmp.lt_trans hab hba
  simp at this

variable [DecidableEq α]

theorem ascending_sortDedup (l : List α) : Ascending (sortDedup l) := by
  have hsorted := List.pairwise_insertionSort (fun a b : α => (compare a b).isLE = true) l
  exact dedupByKey_pairwise id (fun _ _ => compare_lt_of_isLE) (fun _ _ _ => Std.TransCmp.lt_trans) hsorted

theorem sortDedup_ext (h : ∀ a, a ∈ l ↔ a ∈ m) : sortDedup l = sortDedup m :=
  (ascending_sortDedup l).ext (ascending_sortDedup m) fun a => by rw [mem_sortDedup, mem_sortDedup, h]

theorem filter_sortDedup (p : α → Bool) (l : List α) : (sortDedup l).filter p = sortDedup (l.filter p) :=
  Ascending.ext ((ascending_sortDedup l).filter p) (ascending_sortDedup _) fun a => by
    simp only [List.mem_filter, mem_sortDedup]

omit [Std.LawfulEqOrd α] [Std.TransOrd α] in
theorem insertionSort_of_nodup (h : l.Nodup) : l.insertionSort (fun a b => (compare a b).isLE) = sortDedup l := by
  refine (dedupByKey_of_nodup id ?_).symm
  rw [List.map_id]
  exact ((List.perm_insertionSort _ l).nodup_iff).mpr h

end Sorted

/-! ### What discovery has heard -/

/-- What a router keeps of a peer that it has heard of on a side, as far as it is read here. -/
structure DiscoverySenderState where
  advertisedAddress : Option UInt32
  reachable : List DataEndpoint
  advertisedReachable : List DataEndpoint
  reachableTimesyncSources : List Bytes
  advertisedReachableTimesyncSources : List Bytes
  topologyBoards : List TopologyBoardNode
  lastSeenMs : ℕ

/-- The same of a side. -/
structure DiscoverySideState where
  reachable : List DataEndpoint
  reachableNetworkVariables : List DataType
  reachableTimesyncSources : List Bytes
  lastSeenMs : ℕ
  announcers : ExtTreeMap Bytes DiscoverySenderState

/-- `DISCOVERY_ROUTE_TTL_MS`. -/
def discoveryRouteTtlMs : ℕ := 30000

def discoveryFresh (nowMs lastSeenMs : ℕ) : Bool := nowMs - lastSeenMs ≤ discoveryRouteTtlMs

/-- The peers of a side that have been heard of lately. -/
def DiscoverySideState.liveAnnouncers (route : DiscoverySideState) (nowMs : ℕ) : List (Bytes × DiscoverySenderState) :=
  route.announcers.toList.filter fun p => discoveryFresh nowMs p.2.lastSeenMs

end SedsNet
