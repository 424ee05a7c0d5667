import SedsNet.RoutePolicy

/-! # What a plan selects

The selections among the sides that a plan has found: turns by weight and failover by priority
(`apply_route_selection_locked` of `router.rs`), and what a query that selects nothing says of them. -/

namespace SedsNet

namespace RoutingState

open RoutingContext List
open Std (ExtTreeMap)

variable {ctx : RoutingContext} {st : RoutingState} {src : Option ℕ} {sides : List ℕ}

/-! ### Turns by weight -/

/-- Every number below the total falls into the share of one entry, and a share has the size of the
weight. -/
theorem count_pickWeighted (weight : ℕ → ℕ) (side : ℕ) (sides : List ℕ) :
    ((range (sides.map weight).sum).map fun n => pickWeighted weight n sides).count [side] =
      sides.count side * weight side := by
  induction sides with
  | nil => simp
  | cons first sides ih =>
    have hfirst : ∀ n ∈ range (weight first), pickWeighted weight n (first :: sides) = [first] := by
      intro n hn
      simp [pickWeighted, mem_range.mp hn]
    have hrest : ∀ n, pickWeighted weight (weight first + n) (first :: sides) = pickWeighted weight n sides := by
      simp [pickWeighted]
    rw [map_cons, sum_cons, range_add, map_append, map_map, count_append, map_congr_left hfirst]
    simp only [Function.comp_def, hrest, ih, map_const', length_range, count_replicate, count_cons]
    by_cases heq : first = side
    · simp [heq, Nat.add_mul, Nat.add_comm]
    · simp [heq]

theorem pickWeighted_mem {weight : ℕ → ℕ} {n : ℕ} (h : n < (sides.map weight).sum) :
    ∃ side ∈ sides, pickWeighted weight n sides = [side] := by
  induction sides generalizing n with
  | nil => exact absurd h (Nat.not_lt_zero n)
  | cons first sides ih =>
    unfold pickWeighted
    split
    · exact ⟨first, mem_cons_self, rfl⟩
    · rw [map_cons, sum_cons] at h
      obtain ⟨side, hmem, hpick⟩ := @ih (n - weight first) (by omega)
      exact ⟨side, mem_cons_of_mem _ hmem, hpick⟩

theorem totalWeight_eq {weight : ℕ → ℕ} (h : (sides.map weight).sum < 2 ^ 64) :
    totalWeight weight sides = (sides.map weight).sum := by
  have hfold : ∀ acc, acc + (sides.map weight).sum < 2 ^ 64 →
      sides.foldl (fun acc side => wrapAdd acc (weight side)) acc = acc + (sides.map weight).sum := by
    clear h
    induction sides with
    | nil => exact fun acc _ => rfl
    | cons side sides ih =>
      intro acc hacc
      rw [map_cons, sum_cons, ← Nat.add_assoc] at hacc
      have hadd : wrapAdd acc (weight side) = acc + weight side := Nat.mod_eq_of_lt (by omega)
      rw [foldl_cons, hadd, ih _ hacc, map_cons, sum_cons, Nat.add_assoc]
  rw [totalWeight, hfold 0 (by omega), Nat.zero_add]

/-- Selections among the same sides, one after the other, each at its time. -/
def selections (src : Option ℕ) (sides : List ℕ) : (calls : List (ℕ × RouteSelectionOrigin)) → RoutingState →
    List (List ℕ) × RoutingState
  | [], st => ([], st)
  | (nowMs, origin) :: calls, st =>
    let (chosen, st) := st.applyRouteSelection nowMs src sides origin
    let (rest, st) := selections src sides calls st
    (chosen :: rest, st)

/-- The weights of the sides that are selected from. -/
def weights (st : RoutingState) (src : Option ℕ) (sides : List ℕ) : ℕ := (sides.map (st.routeWeight src)).sum

/-- One selection by weight. -/
theorem applyRouteSelection_weighted (hmode : st.sourceRouteModes.lookup src = some .weighted) (hsides : 2 ≤ sides.length)
    (hpos : 0 < st.weights src sides) (hlt : st.weights src sides < 2 ^ 64) (nowMs : ℕ) (origin : RouteSelectionOrigin) :
    st.applyRouteSelection nowMs src sides origin = (pickWeighted (st.routeWeight src)
      ((st.routeSelectionCursors src).toNat % st.weights src sides) (sortSides sides), st.advanceCursor src) := by
  have hsum : ((sortSides sides).map (st.routeWeight src)).sum = st.weights src sides :=
    ((perm_insertionSort _ sides).map _).sum_eq
  have htotal : totalWeight (st.routeWeight src) (sortSides sides) = st.weights src sides := by
    rw [totalWeight_eq (by omega), hsum]
  unfold applyRouteSelection
  rw [if_neg (by omega), hmode]
  simp only [applyWeightedSelection, htotal]
  rw [if_neg (by omega)]

/-- As long as the cursor does not overflow, selections by weight are the picks of consecutive numbers. -/
theorem selections_weighted (calls : List (ℕ × RouteSelectionOrigin)) (hsides : 2 ≤ sides.length) : ∀ {st},
    st.sourceRouteModes.lookup src = some .weighted → 0 < st.weights src sides → st.weights src sides < 2 ^ 64 →
    (st.routeSelectionCursors src).toNat + calls.length < 2 ^ 64 →
    (selections src sides calls st).1 = (range' (st.routeSelectionCursors src).toNat calls.length).map fun n =>
      pickWeighted (st.routeWeight src) (n % st.weights src sides) (sortSides sides) := by
  induction calls with
  | nil => exact fun _ _ _ _ => rfl
  | cons call calls ih =>
    intro st hmode hpos hlt hcursor
    rw [length_cons] at hcursor
    have hnext : ((st.advanceCursor src).routeSelectionCursors src).toNat = (st.routeSelectionCursors src).toNat + 1 := by
      simp only [advanceCursor, Function.update_self, UInt64.toNat_add]
      exact Nat.mod_eq_of_lt (by simp only [UInt64.toNat_one]; omega)
    have hrest := @ih (st.advanceCursor src) hmode hpos hlt (by omega)
    rw [hnext] at hrest
    simp only [selections, applyRouteSelection_weighted hmode hsides hpos hlt]
    exact congrArg _ hrest

/-! ### Failover -/

/-- The side comes before the other one by its priority, or by its id, or is the same. -/
def Preferred (st : RoutingState) (src : Option ℕ) (side other : ℕ) : Prop :=
  st.routePriority src side < st.routePriority src other ∨
    st.routePriority src side = st.routePriority src other ∧ side ≤ other

theorem Preferred.trans {a b c : ℕ} (hab : st.Preferred src a b) (hbc : st.Preferred src b c) : st.Preferred src a c := by
  unfold Preferred at *
  omega

theorem better_preferred (best side : ℕ) : st.Preferred src (st.better src best side) best ∧
    st.Preferred src (st.better src best side) side := by
  unfold better Preferred
  split
  · omega
  · omega

theorem foldl_better_preferred (sides : List ℕ) (best : ℕ) :
    ∀ side ∈ best :: sides, st.Preferred src (sides.foldl (st.better src) best) side := by
  induction sides generalizing best with
  | nil =>
    intro side hside
    rw [mem_singleton.mp hside]
    exact .inr ⟨rfl, le_refl _⟩
  | cons first sides ih =>
    intro side hside
    have hbest := ih (st.better src best first) (st.better src best first) mem_cons_self
    rcases mem_cons.mp hside with rfl | hside
    · exact hbest.trans (better_preferred _ _).1
    rcases mem_cons.mp hside with rfl | hside
    · exact hbest.trans (better_preferred _ _).2
    · exact ih _ side (mem_cons_of_mem _ hside)

/-- Among at least two sides of a source, in as many selections by weight as the weights add up to, each
entry is selected as many times as its weight says, and every selection is of one of the sides, as long
as the cursor does not overflow; by failover, the side that is least in priority and id is selected. -/
theorem selection_by_weight_and_priority (src : Option ℕ) (hsides : 2 ≤ sides.length) :
    (∀ (st : RoutingState) (calls : List (ℕ × RouteSelectionOrigin)),
      st.sourceRouteModes.lookup src = some .weighted → 0 < st.weights src sides →
      calls.length = st.weights src sides →
      (st.routeSelectionCursors src).toNat + st.weights src sides < 2 ^ 64 →
      (∀ side, (selections src sides calls st).1.count [side] = sides.count side * st.routeWeight src side) ∧
        ∀ chosen ∈ (selections src sides calls st).1, ∃ side ∈ sides, chosen = [side]) ∧
    ∀ (st : RoutingState) (nowMs : ℕ) (origin : RouteSelectionOrigin),
      st.sourceRouteModes.lookup src = some .failover →
      ∃ best ∈ sides, st.applyRouteSelection nowMs src sides origin = ([best], st) ∧
        ∀ side ∈ sides, st.Preferred src best side := by
  refine ⟨fun st calls hmode hpos hcalls hcursor => ?_, fun st nowMs origin hmode => ?_⟩
  · have hperm : (sortSides sides).Perm sides := perm_insertionSort (· ≤ ·) sides
    have hsum : ((sortSides sides).map (st.routeWeight src)).sum = st.weights src sides := (hperm.map _).sum_eq
    -- the cursors are consecutive, so their remainders are the numbers below the total in some order
    have hturns : ((range' (st.routeSelectionCursors src).toNat (st.weights src sides)).map
        (· % st.weights src sides)).Perm (range (st.weights src sides)) := by
      have hmod := Nat.multiset_Ico_map_mod (st.routeSelectionCursors src).toNat (st.weights src sides)
      simp only [Multiset.Ico, Nat.Ico_eq_range', Nat.add_sub_cancel_left] at hmod
      exact Multiset.coe_eq_coe.mp hmod
    rw [selections_weighted calls hsides hmode hpos (by omega) (by omega), hcalls]
    constructor
    · intro side
      have hcount := (hturns.map fun n => pickWeighted (st.routeWeight src) n (sortSides sides)).count_eq [side]
      rw [map_map, ← hsum, count_pickWeighted, hperm.count_eq, hsum] at hcount
      exact hcount
    · intro chosen hchosen
      obtain ⟨n, -, rfl⟩ := mem_map.mp hchosen
      obtain ⟨side, hmem, hpick⟩ := @pickWeighted_mem (sortSides sides) (st.routeWeight src) (n % st.weights src sides)
        (by rw [hsum]; exact Nat.mod_lt n hpos)
      exact ⟨side, hperm.mem_iff.mp hmem, hpick⟩
  · obtain ⟨first, rest, rfl⟩ := exists_cons_of_length_pos (by omega : 0 < sides.length)
    refine ⟨rest.foldl (st.better src) first, foldl_better_mem rest first, ?_, foldl_better_preferred rest first⟩
    unfold applyRouteSelection
    rw [if_neg (by omega), hmode]
    rfl

/-- Two sides, of which the second has twice the weight of the first. -/
def weightedState : RoutingState :=
  { beaconState with sourceRouteModes := [(none, .weighted)], routeWeights := [((none, 1), 2)] }

theorem selection_by_weight_sample : weightedState.weights none [0, 1] = 3 ∧
    (selections none [0, 1] (replicate 3 (10, .flood)) weightedState).1.count [1] = 2 := by
  have hturns := (@selection_by_weight_and_priority [0, 1] none (by decide)).1 weightedState
    (replicate 3 (10, .flood)) rfl (by decide) rfl (by decide)
  exact ⟨rfl, hturns.1 1⟩

/-! ### The query of reachability -/

/-- A query leaves the state as it is, and finds a side where a selection finds one. -/
structure Answers (st : RoutingState) (selected query : List ℕ × RoutingState) : Prop where
  pure : query.2 = st
  complete : selected.1 ≠ [] → query.1 ≠ []

namespace Answers

theorem same (sides : List ℕ) : Answers st (sides, st) (sides, st) := ⟨rfl, id⟩

/-- Both take the same branch. -/
theorem ite {c : Prop} [Decidable c] {x x' y y' : List ℕ × RoutingState} (ht : Answers st x y) (he : Answers st x' y') :
    Answers st (if c then x else x') (if c then y else y') := by
  split_ifs
  · exact ht
  · exact he

theorem found {selected query : List ℕ × RoutingState} (h : query.2 = st ∧ query.1 ≠ []) : Answers st selected query :=
  ⟨h.1, fun _ => h.2⟩

end Answers

theorem filterEndToEndSatisfiedSides_mono {sides' : List ℕ} (data : RouterItem) (ty : DataType)
    (hsub : sides'.Sublist sides) : (st.filterEndToEndSatisfiedSides ctx data ty sides').Sublist
      (st.filterEndToEndSatisfiedSides ctx data ty sides) := by
  unfold filterEndToEndSatisfiedSides
  split
  · exact hsub
  · split
    · exact hsub
    · exact hsub.filter _

/-- A selection among some of the sides that the query has. -/
theorem selectSides_answers {sides' : List ℕ} (data : RouterItem) (ty : DataType) (origin : RouteSelectionOrigin)
    (hsub : sides'.Sublist sides) : Answers st (st.selectSides ctx data ty src true sides' origin)
      (st.selectSides ctx data ty src false sides origin) := by
  refine ⟨rfl, fun hne hnil => hne ?_⟩
  have hselected : (st.selectSides ctx data ty src true sides' origin).1.Subperm
      (st.filterEndToEndSatisfiedSides ctx data ty sides) :=
    (applyRouteSelection_subperm _ _).trans (filterEndToEndSatisfiedSides_mono data ty hsub).subperm
  exact subperm_nil.mp (hselected.trans (subperm_nil.mpr hnil))

theorem filterTimesyncSides_answers (ty : DataType) (nowMs : ℕ) :
    (st.filterTimesyncSides ty nowMs true sides).Sublist (st.filterTimesyncSides ty nowMs false sides) :=
  filter_sublist

section Plans

variable (ctx : RoutingContext) (st : RoutingState) (data : RouterItem) (eps : List DataEndpoint) (ty : DataType)
  (targets : List UInt64)

theorem planFlood_answers : Answers st (st.planFlood ctx ⟨data, src, true, eps, ty, targets⟩)
    (st.planFlood ctx ⟨data, src, false, eps, ty, targets⟩) := by
  unfold planFlood
  refine selectSides_answers data ty .flood ?_
  split_ifs
  · exact List.Sublist.refl _
  · exact filterTimesyncSides_answers _ _

theorem planReceipt_answers (packetId : UInt64) :
    Answers st (st.planReceipt ctx ⟨data, src, true, eps, ty, targets⟩ packetId)
      (st.planReceipt ctx ⟨data, src, false, eps, ty, targets⟩ packetId) := by
  unfold planReceipt
  cases (st.reliableReturnRoutes[packetId]?).filter fun side => st.routeAllowed src ty side with
  | some side => exact ⟨rfl, fun _ => cons_ne_nil _ _⟩
  | none =>
    refine .ite ?_ (.ite (.same _) (.same _))
    exact selectSides_answers data ty _ (List.Sublist.refl _)

/-- The fallback without any discovered route is complete unless the selection leaves one of several
sides. -/
theorem planUndiscovered_complete {sides : List ℕ}
    (hsides : st.eligibleSideIds src ty (ctx.endpointsAreLinkLocalOnly eps) = sides) :
    ((st.planUndiscovered ctx ⟨data, src, true, eps, ty, targets⟩).1 ≠ [] →
        (st.planUndiscovered ctx ⟨data, src, false, eps, ty, targets⟩).1 ≠ []) ↔
      ¬ (1 < sides.length ∧ (sides.filter (st.timesyncAllowedForSide ty ctx.nowMs)).length = 1) := by
  have hle := (sides.filter_sublist (p := st.timesyncAllowedForSide ty ctx.nowMs)).length_le
  unfold planUndiscovered
  simp only [filterTimesyncSides, hsides, if_true, if_neg Bool.false_ne_true]
  by_cases hone : (sides.filter (st.timesyncAllowedForSide ty ctx.nowMs)).length = 1
  · have hne : sides.filter (st.timesyncAllowedForSide ty ctx.nowMs) ≠ [] := ne_nil_of_length_pos (by omega)
    have hne' : sides ≠ [] := ne_nil_of_length_pos (by omega)
    by_cases hsingle : sides.length = 1
    · simp [hsingle, hone, hne']
    · simp [hsingle, hone, hne, show 1 < sides.length by omega]
  · simp [hone]

theorem planUndiscovered_pure : (st.planUndiscovered ctx ⟨data, src, false, eps, ty, targets⟩).2 = st := by
  unfold planUndiscovered
  dsimp only
  split
  · rfl
  · rfl

theorem planUnmatched_answers (preferBestOverlap : Bool) :
    Answers st (st.planUnmatched ctx ⟨data, src, true, eps, ty, targets⟩ preferBestOverlap)
      (st.planUnmatched ctx ⟨data, src, false, eps, ty, targets⟩ preferBestOverlap) := by
  unfold planUnmatched
  refine .ite (.ite ?_ (.same _)) (.ite (.same _) (.ite ?_ (.same _)))
  · exact selectSides_answers data ty _ (List.Sublist.refl _)
  · exact selectSides_answers data ty _ (filterTimesyncSides_answers _ _)

variable {ctx st eps targets}

theorem nearestSides_subset {candidates : List RouteCandidate} {target : Option UInt64} {side : ℕ}
    (h : side ∈ st.nearestSides ctx eps candidates target) : ∃ c ∈ candidates, c.side = side := by
  unfold nearestSides at h
  dsimp only at h
  split at h
  · cases h
  · obtain ⟨d, hd, rfl⟩ := mem_map.mp h
    obtain ⟨c, hc, hdist⟩ := mem_filterMap.mp (mem_filter.mp hd).1
    obtain ⟨_, -, rfl⟩ := Option.map_eq_some_iff.mp hdist
    exact ⟨c, hc, rfl⟩

theorem retainShortest_ne_nil {candidates : List RouteCandidate}
    (h : candidates ≠ []) : st.retainShortest ctx candidates eps targets ≠ [] := by
  unfold retainShortest
  split
  · exact h
  dsimp only
  generalize hselected : (if targets.isEmpty then [none] else targets.map some).flatMap
    (st.nearestSides ctx eps candidates) = selected
  split
  · exact h
  · rename_i hsome
    obtain ⟨side, hside⟩ := exists_mem_of_ne_nil selected fun hnil => hsome (by rw [hnil]; rfl)
    obtain ⟨_, -, hnear⟩ := mem_flatMap.mp (hselected ▸ hside)
    obtain ⟨c, hc, rfl⟩ := nearestSides_subset hnear
    exact ne_nil_of_mem (mem_filter.mpr ⟨hc, contains_iff_mem.mpr hside⟩)

variable (ctx st eps targets)

/-- With candidates that the query finds, it has an answer; without, the selection has none either. -/
theorem planDiscovered_answers (source : Option Bytes) :
    Answers st (st.planDiscovered ctx ⟨data, src, true, eps, ty, targets⟩ source)
      (st.planDiscovered ctx ⟨data, src, false, eps, ty, targets⟩ source) := by
  unfold planDiscovered
  simp only [filterTimesyncMatches, if_true, if_neg Bool.false_ne_true]
  generalize st.discoveredRouteCandidates ctx ⟨src, ty, eps, targets, ctx.env.reg.isReliableType ty && targets.isEmpty,
    source⟩ = found
  by_cases hfound : found = []
  · have hrole : st.plansByRole ctx ⟨data, src, true, eps, ty, targets⟩ source [] = false ∧
        st.plansByRole ctx ⟨data, src, false, eps, ty, targets⟩ source [] = false := by simp [plansByRole]
    simp only [hfound, filter_nil, any_nil, hrole, Bool.and_false, if_neg Bool.false_ne_true, retainShortest, length_nil]
    exact planUnmatched_answers ctx st data eps ty targets _
  -- every branch of the query has a candidate to name
  have hnamed : ∀ {candidates}, candidates ≠ [] → (candidates.map RouteCandidate.side).take 1 ≠ [] := by
    simp
  have hnear : (if found.any fun c => st.ownsVariable ty c.side then found
      else st.retainShortest ctx found eps targets) ≠ [] := by
    split
    · exact hfound
    · exact retainShortest_ne_nil hfound
  apply Answers.found
  rw [isEmpty_eq_false_iff.mpr hnear]
  split
  · exact ⟨rfl, hnamed hfound⟩
  · exact ⟨rfl, hnamed hnear⟩

end Plans

/-- Nothing has been discovered, and of several sides that a readable request or response of the time
synchronisation may use exactly one does not wait for its turn. -/
structure OneTurnLeft (ctx : RoutingContext) (st : RoutingState) (data : RouterItem) (exclude : Option ℕ)
    (eps : List DataEndpoint) (ty : DataType) : Prop where
  undiscovered : st.discoveryRoutes.isEmpty = true
  info : ctx.itemRouteInfo data = .ok (eps, ty)
  clock : ty = .timeSyncRequest ∨ ty = .timeSyncResponse
  targets : (ctx.itemTargetSenders data).isOk = true
  hop : (ctx.targetsRouterAsIntermediateHop data eps).isOk = true
  receipt : ctx.reliableControlTargetPacketId data = .ok none
  source : (st.preferredTimesyncRouteSource ctx data ty).isOk = true
  sides : 1 < (st.eligibleSideIds exclude ty (ctx.endpointsAreLinkLocalOnly eps)).length ∧
    ((st.eligibleSideIds exclude ty (ctx.endpointsAreLinkLocalOnly eps)).filter
      (st.timesyncAllowedForSide ty ctx.nowMs)).length = 1

/-- A side can only wait with an item of the time synchronisation. -/
theorem timesync_of_filter {ctx : RoutingContext} {st : RoutingState} {ty : DataType} {sides : List ℕ}
    (h : 1 < sides.length ∧ (sides.filter (st.timesyncAllowedForSide ty ctx.nowMs)).length = 1) :
    isTimesyncType ty = true := by
  by_contra hty
  have hall : sides.filter (st.timesyncAllowedForSide ty ctx.nowMs) = sides := by
    refine filter_eq_self.mpr fun side _ => ?_
    simp [timesyncAllowedForSide, Bool.eq_false_of_not_eq_true hty]
  rw [hall] at h
  omega

/-- Both modes fail alike, or the query answers for the selection. -/
theorem remoteSidePlan_answers (ctx : RoutingContext) (st : RoutingState) (data : RouterItem) (exclude : Option ℕ) :
    (∃ e, (∀ select, st.remoteSidePlanWithSelection ctx data exclude select = .error e) ∧
        ∀ eps ty, ¬ OneTurnLeft ctx st data exclude eps ty) ∨
      ∃ selected query, st.remoteSidePlanWithSelection ctx data exclude true = .ok selected ∧
        st.remoteSidePlanWithSelection ctx data exclude false = .ok query ∧ query.2 = st ∧
        ((selected.1 ≠ [] → query.1 ≠ []) ↔ ∀ eps ty, ¬ OneTurnLeft ctx st data exclude eps ty) := by
  unfold remoteSidePlanWithSelection
  cases hinfo : ctx.itemRouteInfo data with
  | error e => exact .inl ⟨e, fun _ => rfl, fun _ _ h => by cases hinfo.symm.trans h.info⟩
  | ok info =>
  obtain ⟨eps, ty⟩ := info
  -- the condition speaks of what the item is read as
  have hsame : (∀ eps ty, ¬ OneTurnLeft ctx st data exclude eps ty) ↔ ¬ OneTurnLeft ctx st data exclude eps ty := by
    refine ⟨fun h => h eps ty, fun h eps' ty' h' => ?_⟩
    cases hinfo.symm.trans h'.info
    exact h h'
  simp only [hsame]
  cases htargets : ctx.itemTargetSenders data with
  | error e => exact .inl ⟨e, fun _ => rfl, fun h => by cases htargets ▸ h.targets⟩
  | ok targetSenders =>
  simp only [bind, Except.bind]
  cases hhop : ctx.targetsRouterAsIntermediateHop data eps with
  | error e => exact .inl ⟨e, fun _ => rfl, fun h => by cases hhop ▸ h.hop⟩
  | ok beyondLocalHop =>
  cases hreceipt : ctx.reliableControlTargetPacketId data with
  | error e => exact .inl ⟨e, fun _ => rfl, fun h => by cases hreceipt.symm.trans h.receipt⟩
  | ok packetId =>
  dsimp only
  generalize (if packetId.isSome then targetSenders.drop 1 else if beyondLocalHop then [] else targetSenders) = targets
  by_cases hannounced : isDiscoveryType ty = true ∨ ty = .timeSyncAnnounce
  · have hplan := @planFlood_answers exclude ctx st data eps ty targets
    simp only [if_pos hannounced]
    refine .inr ⟨_, _, rfl, rfl, hplan.pure, iff_of_true hplan.complete fun h => ?_⟩
    rcases h.clock with rfl | rfl
    · revert hannounced
      decide
    · revert hannounced
      decide
  simp only [if_neg hannounced]
  generalize hstays : (!(ctx.hasNonlocalEndpoint eps || forceRemoteForType ty || !targetSenders.isEmpty ||
    (st.managedVariableTypes.contains ty && st.hasVariableOwner ctx exclude ty))) = stays
  cases stays with
  | true =>
    refine .inr ⟨_, _, rfl, rfl, rfl, iff_of_true id fun h => ?_⟩
    have hforce : forceRemoteForType ty = true := by
      rcases h.clock with rfl | rfl <;> rfl
    simp [hforce] at hstays
  | false =>
  cases hsource : st.preferredTimesyncRouteSource ctx data ty with
  | error e => exact .inl ⟨e, fun _ => rfl, fun h => by cases hsource ▸ h.source⟩
  | ok source =>
  cases packetId with
  | some id =>
    have hplan := @planReceipt_answers exclude ctx st data eps ty targets id
    exact .inr ⟨_, _, rfl, rfl, hplan.pure, iff_of_true hplan.complete fun h => by cases hreceipt.symm.trans h.receipt⟩
  | none =>
    cases hroutes : st.discoveryRoutes.isEmpty with
    | true =>
      refine .inr ⟨_, _, rfl, rfl, planUndiscovered_pure .., (planUndiscovered_complete ctx st data eps ty targets rfl).trans
        (not_congr ⟨fun h => ?_, OneTurnLeft.sides⟩)⟩
      have hclock : ty = .timeSyncRequest ∨ ty = .timeSyncResponse := by
        have hty := timesync_of_filter h
        simp only [isTimesyncType, Bool.or_eq_true, beq_iff_eq] at hty
        exact (or_assoc.mp hty).resolve_left fun heq => hannounced (.inr heq)
      exact ⟨hroutes, hinfo, hclock, by rw [htargets]; rfl, by rw [hhop]; rfl, hreceipt, by rw [hsource]; rfl, h⟩
    | false =>
      have hplan := @planDiscovered_answers exclude ctx st data eps ty targets source
      refine .inr ⟨_, _, rfl, rfl, hplan.pure, iff_of_true hplan.complete fun h => ?_⟩
      cases hroutes.symm.trans h.undiscovered

/-- A plan that only asks whether an item can be sent changes nothing, and it names a side whenever the
plan that selects names one, exactly unless nothing has been discovered and the time synchronisation has
one of several sides left. -/
theorem reachability_query (ctx : RoutingContext) (st : RoutingState) (data : RouterItem) (exclude : Option ℕ) :
    (∀ plan st', st.remoteSidePlanWithSelection ctx data exclude false = .ok (plan, st') → st' = st) ∧
      ((∀ plan st', st.remoteSidePlanWithSelection ctx data exclude true = .ok (plan, st') → plan ≠ [] →
          ∃ plan', st.remoteSidePlanWithSelection ctx data exclude false = .ok (plan', st) ∧ plan' ≠ []) ↔
        ∀ eps ty, ¬ OneTurnLeft ctx st data exclude eps ty) := by
  rcases remoteSidePlan_answers ctx st data exclude with
    ⟨e, hfails, hnone⟩ | ⟨selected, ⟨plan, _⟩, hselected, hquery, rfl, hcomplete⟩
  · rw [hfails true, hfails false]
    exact ⟨fun _ _ h => (by cases h), iff_of_true (fun _ _ h => (by cases h)) hnone⟩
  · rw [hselected, hquery, ← hcomplete]
    refine ⟨fun _ _ h => (by cases h; rfl), fun h hne => ?_, fun h _ _ hplan hne => ?_⟩
    · obtain ⟨_, hplan, hne'⟩ := h selected.1 selected.2 rfl hne
      cases hplan
      exact hne'
    · cases hplan
      exact ⟨plan, rfl, h hne⟩

/-- A request for the time. -/
def clockRequest : Packet :=
  { beacon with ty := .timeSyncRequest, endpoints := [timeSyncEndpoint], endpoints_ne_nil := by decide }

/-- Nothing is discovered, and the second of two sides is slow and waits for its turn. -/
def throttledState : RoutingState :=
  { beaconState with
    sides := [some ⟨true, true, true⟩, some ⟨true, true, true⟩]
    discoveryRoutes := ∅
    adaptiveRouteStats := (∅ : ExtTreeMap ℕ AdaptiveRouteStats).insert 1 ⟨100, 100, 0, 1, 0, 0⟩
    timesyncSideThrottle := (∅ : ExtTreeMap ℕ ℕ).insert 1 20 }

theorem reachability_query_throttled :
    (throttledState.remoteSidePlanWithSelection beaconContext (.packet clockRequest) none true).map Prod.fst = .ok [0] ∧
    (throttledState.remoteSidePlanWithSelection beaconContext (.packet clockRequest) none false).map Prod.fst = .ok [] := by
  decide +kernel

end RoutingState

end SedsNet
