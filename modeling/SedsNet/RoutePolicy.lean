import SedsNet.RoutePlan

/-! # Plans keep to the policy

Every branch of `remote_side_plan` selects among sides that it has tested against the policy, and the
selection only ever leaves sides out.  `Chosen` is what the tested sides have in common, and each step
of the selection is a `List.Subperm` of the one before. -/

namespace SedsNet

open Std (ExtTreeMap)

/-! ### Lists of sides -/

/-- No side is there twice, and each one passes the test. -/
structure Chosen (P : ℕ → Prop) (sides : List ℕ) : Prop where
  nodup : sides.Nodup
  passes : ∀ side ∈ sides, P side

namespace Chosen

variable {P Q : ℕ → Prop} {sides sides' : List ℕ}

theorem nil : Chosen P [] := ⟨List.nodup_nil, fun _ h => absurd h List.not_mem_nil⟩

theorem singleton {side : ℕ} (h : P side) : Chosen P [side] :=
  ⟨List.nodup_singleton side, fun _ hmem => by rw [List.mem_singleton.mp hmem]; exact h⟩

theorem mono (h : Chosen P sides) (hPQ : ∀ side, P side → Q side) : Chosen Q sides :=
  ⟨h.nodup, fun side hmem => hPQ side (h.passes side hmem)⟩

/-- A selection of chosen sides. -/
theorem subperm (h : Chosen P sides) (hsub : sides'.Subperm sides) : Chosen P sides' := by
  obtain ⟨sides'', hperm, hsublist⟩ := hsub
  refine ⟨hperm.nodup_iff.mp (h.nodup.sublist hsublist), fun side hmem => ?_⟩
  exact h.passes side (hsublist.subset (hperm.mem_iff.mpr hmem))

end Chosen

namespace RoutingState

open RoutingContext List

variable {ctx : RoutingContext} {st st' : RoutingState} {data : RouterItem} {exclude : Option ℕ} {ty : DataType}
  {sides plan : List ℕ} {item : PlanItem}

/-! ### Selection leaves sides out -/

theorem pickWeighted_sublist (weight : ℕ → ℕ) (remaining : ℕ) (sides : List ℕ) :
    (pickWeighted weight remaining sides).Sublist sides := by
  induction sides generalizing remaining with
  | nil => exact .refl _
  | cons side sides ih =>
    unfold pickWeighted
    split
    · exact singleton_sublist.mpr mem_cons_self
    · exact (ih _).cons side

theorem sortSides_subperm {sides' : List ℕ} (h : sides'.Sublist (sortSides sides)) : sides'.Subperm sides :=
  h.subperm.trans (perm_insertionSort _ sides).subperm

theorem applyAdaptiveSelection_subperm (nowMs : ℕ) : (st.applyAdaptiveSelection nowMs exclude sides).1.Subperm sides := by
  unfold applyAdaptiveSelection
  dsimp only
  split
  · generalize hturn : (sortSides sides).filter (fun side => decide (side ∉ st.adaptiveRouteStats)) = unmeasured
    have hsub : unmeasured.Sublist (sortSides sides) := hturn ▸ filter_sublist
    refine sortSides_subperm (List.Sublist.trans ?_ hsub)
    cases hget : unmeasured[(st.routeSelectionCursors exclude).toNat % unmeasured.length]? with
    | none => exact nil_sublist _
    | some side => exact singleton_sublist.mpr (mem_of_getElem? hget)
  · split
    · exact sortSides_subperm (take_sublist _ _)
    · exact sortSides_subperm (pickWeighted_sublist _ _ _)

theorem applyWeightedSelection_subperm : (st.applyWeightedSelection exclude sides).1.Subperm sides := by
  unfold applyWeightedSelection
  dsimp only
  split
  · exact nil_subperm
  · exact sortSides_subperm (pickWeighted_sublist _ _ _)

theorem foldl_better_mem (sides : List ℕ) (best : ℕ) : sides.foldl (st.better exclude) best ∈ best :: sides := by
  induction sides generalizing best with
  | nil => exact mem_cons_self
  | cons side sides ih =>
    have hstep : st.better exclude best side = side ∨ st.better exclude best side = best := by
      unfold better
      split
      · exact .inl rfl
      · exact .inr rfl
    rw [foldl_cons]
    rcases mem_cons.mp (ih (st.better exclude best side)) with hhead | htail
    · rw [hhead]
      rcases hstep with hside | hbest
      · rw [hside]
        exact mem_cons_of_mem _ mem_cons_self
      · rw [hbest]
        exact mem_cons_self
    · exact mem_cons_of_mem _ (mem_cons_of_mem _ htail)

theorem applyFailoverSelection_sublist : (st.applyFailoverSelection exclude sides).Sublist sides := by
  cases sides with
  | nil => exact .refl _
  | cons side sides => exact singleton_sublist.mpr (foldl_better_mem sides side)

theorem applyRouteSelection_subperm (nowMs : ℕ) (origin : RouteSelectionOrigin) :
    (st.applyRouteSelection nowMs exclude sides origin).1.Subperm sides := by
  unfold applyRouteSelection
  split
  · exact List.Subperm.refl _
  split
  · exact applyAdaptiveSelection_subperm nowMs
  · exact List.Subperm.refl _
  · exact List.Subperm.refl _
  · exact applyWeightedSelection_subperm
  · exact applyFailoverSelection_sublist.subperm

theorem filterTimesyncSides_sublist (nowMs : ℕ) (selectRoutes : Bool) :
    (st.filterTimesyncSides ty nowMs selectRoutes sides).Sublist sides := by
  unfold filterTimesyncSides
  split
  · exact filter_sublist
  · exact .refl _

theorem filterEndToEndSatisfiedSides_sublist : (st.filterEndToEndSatisfiedSides ctx data ty sides).Sublist sides := by
  unfold filterEndToEndSatisfiedSides
  split
  · exact .refl _
  · split
    · exact .refl _
    · exact filter_sublist

theorem selectSides_subperm (selectRoutes : Bool) (origin : RouteSelectionOrigin) :
    (st.selectSides ctx data ty exclude selectRoutes sides origin).1.Subperm sides := by
  unfold selectSides
  split
  · exact (applyRouteSelection_subperm ctx.nowMs origin).trans filterEndToEndSatisfiedSides_sublist.subperm
  · exact filterEndToEndSatisfiedSides_sublist.subperm

/-! ### Tested sides -/

/-- The policy lets the item use the side. -/
def Permits (st : RoutingState) (exclude : Option ℕ) (ty : DataType) (restrictLinkLocal : Bool) (side : ℕ) : Prop :=
  st.routeAllowed exclude ty side = true ∧ st.linkLocalAllowed restrictLinkLocal side = true

theorem eligibleSideIds_chosen (restrictLinkLocal : Bool) :
    Chosen (st.Permits exclude ty restrictLinkLocal) (st.eligibleSideIds exclude ty restrictLinkLocal) := by
  refine ⟨nodup_range.filter _, fun side hmem => ?_⟩
  have htest := (mem_filter.mp hmem).2
  rw [Bool.and_eq_true, Bool.and_eq_true] at htest
  exact ⟨htest.2, htest.1.2⟩

theorem discoveryRoutes_nodup (st : RoutingState) : (st.discoveryRoutes.toList.map Prod.fst).Nodup := by
  rw [ExtTreeMap.map_fst_toList_eq_keys]
  exact ExtTreeMap.nodup_keys

theorem allowedRoutes_chosen (ctx : RoutingContext) (st : RoutingState) (q : RouteQuery)
    {routes : List (ℕ × DiscoverySideState)}
    (h : routes.Sublist (st.discoveryRoutes.toList.filter (st.candidateAllowed ctx q))) :
    Chosen (st.Permits q.exclude q.ty (ctx.endpointsAreLinkLocalOnly q.eps)) (routes.map Prod.fst) := by
  refine ⟨(st.discoveryRoutes_nodup).sublist ((h.trans filter_sublist).map _), fun side hmem => ?_⟩
  obtain ⟨route, hroute, rfl⟩ := mem_map.mp hmem
  have htest := (mem_filter.mp (h.subset hroute)).2
  unfold candidateAllowed at htest
  rw [Bool.and_eq_true, Bool.and_eq_true] at htest
  exact ⟨htest.2, htest.1.2⟩

theorem discoveredRouteCandidates_chosen (ctx : RoutingContext) (st : RoutingState) (q : RouteQuery) :
    Chosen (st.Permits q.exclude q.ty (ctx.endpointsAreLinkLocalOnly q.eps))
      ((st.discoveredRouteCandidates ctx q).map RouteCandidate.side) := by
  unfold discoveredRouteCandidates
  dsimp only
  split
  · split
    · rename_i p hp
      have hone := allowedRoutes_chosen ctx st q (filter_sublist (p := st.endpointFallback ctx q))
      rw [hp] at hone
      exact hone
    · exact .nil
  · rw [map_map]
    exact allowedRoutes_chosen ctx st q filter_sublist

/-! ### Selection among candidates -/

variable {candidates : List RouteCandidate} {P : ℕ → Prop}

theorem retainShortest_sublist (eps : List DataEndpoint) (targets : List UInt64) :
    (st.retainShortest ctx candidates eps targets).Sublist candidates := by
  unfold retainShortest
  split
  · exact .refl _
  dsimp only
  generalize (if targets.isEmpty then [none] else targets.map some).flatMap
    (st.nearestSides ctx eps candidates) = selected
  split
  · exact .refl _
  · exact filter_sublist

theorem filterTimesyncMatches_sublist (nowMs : ℕ) (selectRoutes : Bool) :
    (st.filterTimesyncMatches ty nowMs selectRoutes candidates).Sublist candidates := by
  unfold filterTimesyncMatches
  split
  · exact filter_sublist
  · exact .refl _

theorem bestCandidates_sublist (preferBestOverlap : Bool) :
    (bestCandidates preferBestOverlap candidates).Sublist candidates := by
  unfold bestCandidates
  generalize hexact : (if candidates.any fun c => c.overlap == usizeMax then
    candidates.filter fun c => c.overlap == usizeMax else candidates) = exact
  have hsub : exact.Sublist candidates := by
    rw [← hexact]
    split
    · exact filter_sublist
    · exact .refl _
  split
  · exact filter_sublist.trans hsub
  · exact hsub

theorem selectDiscoveredCandidateSides_subperm (targets : List UInt64) (preferBestOverlap : Bool) :
    (st.selectDiscoveredCandidateSides ctx data ty exclude targets preferBestOverlap candidates).1.Subperm
      (candidates.map RouteCandidate.side) := by
  unfold selectDiscoveredCandidateSides
  dsimp only
  generalize hselected : (if st.forwardedReceipts.isSome && ctx.env.reg.isReliableType ty then
    st.filterEndToEndSatisfiedSides ctx data ty ((bestCandidates preferBestOverlap candidates).map RouteCandidate.side)
    else (bestCandidates preferBestOverlap candidates).map RouteCandidate.side) = selected
  have hsub : selected.Subperm (candidates.map RouteCandidate.side) := by
    refine List.Sublist.subperm (List.Sublist.trans ?_ ((bestCandidates_sublist preferBestOverlap).map _))
    rw [← hselected]
    split
    · exact filterEndToEndSatisfiedSides_sublist
    · exact .refl _
  split
  · exact hsub
  · exact (applyRouteSelection_subperm ctx.nowMs _).trans hsub

theorem Chosen_pushMissing {acc new : List ℕ} (hacc : Chosen P acc) (hnew : ∀ side ∈ new, P side) :
    Chosen P (pushMissing acc new) := by
  unfold pushMissing
  induction new generalizing acc with
  | nil => exact hacc
  | cons side new ih =>
    rw [foldl_cons]
    refine ih ?_ fun s hs => hnew s (mem_cons_of_mem _ hs)
    split
    · exact hacc
    rename_i hside
    refine ⟨hacc.nodup.append (nodup_singleton side) ?_, fun s hs => ?_⟩
    · rw [disjoint_singleton]
      exact hside
    · rcases mem_append.mp hs with hold | hhead
      · exact hacc.passes s hold
      · rw [mem_singleton.mp hhead]
        exact hnew side mem_cons_self

theorem selectRole_chosen {acc : List ℕ × RoutingState} (hcandidates : Chosen P (candidates.map RouteCandidate.side))
    (hacc : Chosen P acc.1) (ep : DataEndpoint) : Chosen P (selectRole ctx exclude candidates acc ep).1 := by
  unfold selectRole
  dsimp only
  generalize hable : acc.2.retainShortest ctx (candidates.filter fun c =>
    (acc.2.discoveryRoutes[c.side]?).any fun route => route.reachable.contains ep) [ep] [] = able
  have hsub : able.Sublist candidates := by
    rw [← hable]
    exact (retainShortest_sublist _ _).trans filter_sublist
  split
  · exact hacc
  · refine Chosen_pushMissing hacc ?_
    exact (hcandidates.subperm ((applyRouteSelection_subperm ctx.nowMs _).trans (hsub.map _).subperm)).passes

/-- The loop over the endpoints. -/
theorem selectEndpointRoleSides_chosen (hcandidates : Chosen P (candidates.map RouteCandidate.side))
    (eps : List DataEndpoint) : Chosen P (st.selectEndpointRoleSides ctx exclude eps candidates).1 := by
  have hloop : ∀ acc : List ℕ × RoutingState, Chosen P acc.1 →
      Chosen P (eps.foldl (selectRole ctx exclude candidates) acc).1 := by
    induction eps with
    | nil => exact fun _ hacc => hacc
    | cons ep eps ih => exact fun acc hacc => ih _ (selectRole_chosen hcandidates hacc ep)
  exact hloop ([], st) .nil

/-! ### Plans -/

/-- The policy without the restriction to link-local sides. -/
theorem Permits.unrestricted {restrictLinkLocal : Bool} {side : ℕ} (h : st.Permits exclude ty restrictLinkLocal side) :
    st.Permits exclude ty false side := ⟨h.1, rfl⟩

section Plans

variable (ctx : RoutingContext) (st : RoutingState) (item : PlanItem)

theorem planFlood_chosen : Chosen (st.Permits item.exclude item.ty false) (st.planFlood ctx item).1 := by
  refine (eligibleSideIds_chosen false).subperm ((selectSides_subperm _ _).trans ?_)
  split
  · exact List.Subperm.refl _
  · exact (filterTimesyncSides_sublist _ _).subperm

theorem planReceipt_chosen (packetId : UInt64) :
    Chosen (st.Permits item.exclude item.ty false) (st.planReceipt ctx item packetId).1 := by
  unfold planReceipt
  split
  · rename_i side hside
    have hallowed : st.routeAllowed item.exclude item.ty side = true := by
      rw [Option.filter_eq_some_iff] at hside
      exact hside.2
    split
    · exact .nil
    · exact Chosen.singleton ⟨hallowed, rfl⟩
  · dsimp only
    split
    · exact (eligibleSideIds_chosen false).subperm ((selectSides_subperm _ _).trans filter_sublist.subperm)
    · split
      · exact eligibleSideIds_chosen false
      · exact .nil

/-- The sides that an item with these endpoints may use. -/
def Within (ctx : RoutingContext) (st : RoutingState) (item : PlanItem) : ℕ → Prop :=
  st.Permits item.exclude item.ty (ctx.endpointsAreLinkLocalOnly item.eps)

theorem planUndiscovered_chosen : Chosen (st.Within ctx item) (st.planUndiscovered ctx item).1 := by
  unfold planUndiscovered
  dsimp only
  split
  · exact (eligibleSideIds_chosen _).subperm (filterTimesyncSides_sublist _ _).subperm
  · exact .nil

theorem planUnmatched_chosen (preferBestOverlap : Bool) :
    Chosen (st.Within ctx item) (st.planUnmatched ctx item preferBestOverlap).1 := by
  unfold planUnmatched
  dsimp only
  split
  · split
    · exact (eligibleSideIds_chosen _).subperm (selectSides_subperm _ _)
    · exact .nil
  · split
    · exact .nil
    · split
      · exact (eligibleSideIds_chosen _).subperm
          ((selectSides_subperm _ _).trans (filterTimesyncSides_sublist _ _).subperm)
      · exact .nil

theorem planDiscovered_chosen (source : Option Bytes) :
    Chosen (st.Within ctx item) (st.planDiscovered ctx item source).1 := by
  unfold planDiscovered
  dsimp only
  generalize hfound : st.filterTimesyncMatches item.ty ctx.nowMs item.selectRoutes (st.discoveredRouteCandidates ctx
    ⟨item.exclude, item.ty, item.eps, item.targets, ctx.env.reg.isReliableType item.ty && item.targets.isEmpty,
      source⟩) = found
  have hchosen : Chosen (st.Within ctx item) (found.map RouteCandidate.side) := by
    rw [← hfound]
    have hall := discoveredRouteCandidates_chosen ctx st ⟨item.exclude, item.ty, item.eps, item.targets,
      ctx.env.reg.isReliableType item.ty && item.targets.isEmpty, source⟩
    exact hall.subperm ((filterTimesyncMatches_sublist _ _).map _).subperm
  split
  · split
    · exact selectEndpointRoleSides_chosen hchosen _
    · exact hchosen.subperm (take_sublist _ _).subperm
  · generalize hnear : (if found.any fun c => st.ownsVariable item.ty c.side then found
      else st.retainShortest ctx found item.eps item.targets) = near
    have hsub : near.Sublist found := by
      rw [← hnear]
      split
      · exact .refl _
      · exact retainShortest_sublist _ _
    have hsides := hchosen.subperm (hsub.map RouteCandidate.side).subperm
    split
    · exact planUnmatched_chosen ctx st item _
    · split
      · exact hsides.subperm (selectDiscoveredCandidateSides_subperm _ _)
      · exact hsides.subperm (take_sublist _ _).subperm

end Plans

theorem plan_eq {x : List ℕ × RoutingState} (h : (pure x : TelemetryResult (List ℕ × RoutingState)) = .ok (plan, st')) :
    plan = x.1 := by
  injection h with h
  rw [h]

/-- What a plan has read of its item, and the sides that it may hold. -/
theorem remoteSidePlan_chosen {selectRoutes : Bool}
    (h : st.remoteSidePlanWithSelection ctx data exclude selectRoutes = .ok (plan, st')) :
    ∃ eps ty, ctx.itemRouteInfo data = .ok (eps, ty) ∧ Chosen (st.Permits exclude ty false) plan ∧
      (isDiscoveryType ty = false → ty ≠ .timeSyncAnnounce → isReceipt ctx data = false →
        Chosen (st.Permits exclude ty (ctx.endpointsAreLinkLocalOnly eps)) plan) := by
  obtain ⟨⟨eps, ty⟩, hinfo, h⟩ := bind_eq_ok h
  obtain ⟨targetSenders, -, h⟩ := bind_eq_ok h
  obtain ⟨beyondLocalHop, -, h⟩ := bind_eq_ok h
  obtain ⟨packetId, hpacketId, h⟩ := bind_eq_ok h
  refine ⟨eps, ty, hinfo, ?_⟩
  dsimp only at h
  split at h
  · -- announcements
    rename_i hannounced
    rw [plan_eq h]
    refine ⟨planFlood_chosen ctx st ⟨data, exclude, selectRoutes, eps, ty, _⟩, fun hdiscovery htime => ?_⟩
    rcases hannounced with hannounced | hannounced
    · rw [hdiscovery] at hannounced
      cases hannounced
    · exact absurd hannounced htime
  · split at h
    · rw [plan_eq h]
      exact ⟨.nil, fun _ _ _ => .nil⟩
    obtain ⟨source, -, h⟩ := bind_eq_ok h
    cases packetId with
    | some id =>
      rw [plan_eq h]
      refine ⟨planReceipt_chosen ctx st ⟨data, exclude, selectRoutes, eps, ty, _⟩ id, fun _ _ hreceipt => ?_⟩
      unfold isReceipt at hreceipt
      rw [hpacketId] at hreceipt
      cases hreceipt
    | none =>
      dsimp only at h
      split at h
      · rw [plan_eq h]
        have hplan := planUndiscovered_chosen ctx st ⟨data, exclude, selectRoutes, eps, ty,
          if beyondLocalHop then [] else targetSenders⟩
        exact ⟨hplan.mono fun _ => Permits.unrestricted, fun _ _ _ => hplan⟩
      · rw [plan_eq h]
        have hplan := planDiscovered_chosen ctx st ⟨data, exclude, selectRoutes, eps, ty,
          if beyondLocalHop then [] else targetSenders⟩ source
        exact ⟨hplan.mono fun _ => Permits.unrestricted, fun _ _ _ => hplan⟩

/-! ### What the policy says -/

/-- No override denies the side, and where there are overrides of the type one allows it. -/
def OverridesAllow (st : RoutingState) (exclude : Option ℕ) (ty : DataType) (side : ℕ) : Prop :=
  st.routeOverrides.lookup (exclude, side) ≠ some false ∧
    (st.hasTypedRouteOverrides exclude ty = true → st.typedRouteOverrides.lookup (exclude, ty, side) = some true)

/-- What a side that the policy lets an item use has. -/
structure Policy (st : RoutingState) (exclude : Option ℕ) (ty : DataType) (side : ℕ) : Prop where
  egress : ∃ opts, st.sideOptions side = some opts ∧ opts.egressEnabled = true
  overrides : st.OverridesAllow exclude ty side
  ingress : ∀ src, exclude = some src → ∃ opts, st.sideOptions src = some opts ∧ opts.ingressEnabled = true
  reflected : exclude = some side → st.routeOverrides.lookup (exclude, side) = some true

theorem policy_of_routeAllowed {side : ℕ} (h : st.routeAllowed exclude ty side = true) : st.Policy exclude ty side := by
  unfold routeAllowed at h
  split at h
  · cases h
  rename_i opts hopts
  split_ifs at h with hegress hingress hbase
  rw [Bool.not_eq_true, Bool.not_eq_false'] at hegress hingress hbase
  refine ⟨⟨opts, hopts, hegress⟩, ⟨fun hdenied => ?_, fun htyped => ?_⟩, fun src hsrc => ?_, fun hreflected => ?_⟩
  · rw [hdenied] at hbase
    cases hbase
  · unfold typedRouteAllowed at h
    rw [if_pos htyped] at h
    cases hlookup : st.typedRouteOverrides.lookup (exclude, ty, side) <;> rw [hlookup] at h
    · cases h
    · exact congrArg some h
  · rw [hsrc] at hingress
    exact (Option.any_eq_true _ _).mp hingress
  · cases hlookup : st.routeOverrides.lookup (exclude, side) with
    | none =>
      rw [hlookup, hreflected] at hbase
      simp [defaultRouteEnabled] at hbase
    | some allowed =>
      rw [hlookup] at hbase
      exact congrArg some hbase

/-- A plan names each side once, and only sides that exist, that are enabled for egress and that the
overrides allow; it is empty unless the side that the item came from is enabled for ingress, and names
that side only where an override says so; and an item for this link only, that is no receipt and no
announcement, stays on link-local sides. -/
theorem route_policy_safe {eps : List DataEndpoint} (hinfo : ctx.itemRouteInfo data = .ok (eps, ty))
    (h : st.remoteSidePlan ctx data exclude = .ok (plan, st')) : plan.Nodup ∧
    (∀ side ∈ plan, (∃ opts, st.sideOptions side = some opts ∧ opts.egressEnabled = true) ∧
      st.OverridesAllow exclude ty side) ∧ (∀ ingress, exclude = some ingress → plan ≠ [] →
      ∃ opts, st.sideOptions ingress = some opts ∧ opts.ingressEnabled = true) ∧
    (∀ ingress ∈ plan, exclude = some ingress → st.routeOverrides.lookup (some ingress, ingress) = some true) ∧
    (isReceipt ctx data = false → isDiscoveryType ty = false → ty ≠ .timeSyncAnnounce → eps ≠ [] →
      (∀ ep ∈ eps, ctx.linkLocalOnly ep = true) →
      ∀ side ∈ plan, ∃ opts, st.sideOptions side = some opts ∧ opts.linkLocalEnabled = true) := by
  obtain ⟨eps', ty', hinfo', hchosen, hlocal⟩ := remoteSidePlan_chosen h
  rw [hinfo] at hinfo'
  cases hinfo'
  have hpolicy : ∀ side ∈ plan, st.Policy exclude ty side := fun side hside =>
    policy_of_routeAllowed (hchosen.passes side hside).1
  refine ⟨hchosen.nodup, fun side hside => ⟨(hpolicy side hside).egress, (hpolicy side hside).overrides⟩, ?_, ?_, ?_⟩
  · intro ingress hexclude hne
    obtain ⟨side, hside⟩ := exists_mem_of_ne_nil plan hne
    exact (hpolicy side hside).ingress ingress hexclude
  · intro ingress hmem hexclude
    have hreflected := (hpolicy ingress hmem).reflected hexclude
    rwa [hexclude] at hreflected
  · intro hreceipt hdiscovery htime hne hall side hside
    have hrestrict : ctx.endpointsAreLinkLocalOnly eps = true := by
      unfold endpointsAreLinkLocalOnly
      rw [Bool.and_eq_true, all_eq_true, Bool.not_eq_true', isEmpty_eq_false_iff]
      exact ⟨hne, hall⟩
    have hpermits := ((hlocal hdiscovery htime hreceipt).passes side hside).2
    rw [hrestrict] at hpermits
    exact (Option.any_eq_true _ _).mp hpermits

/-- A type of one byte for endpoint 5, which is for this link only. -/
def beaconContext : RoutingContext where
  env := plainEnv ⟨[5], [(100, ⟨.static 1 .uint8 .data, [5], .none, 1⟩)], 16, 16⟩
  book := AddressBook.empty
  sender := [0x47, 0x53]
  localServices := true
  handlerEndpoints := []
  linkLocalOnly := fun ep => ep == 5
  timesyncSource := none
  nowMs := 10

def beacon : Packet :=
  { publishedPacket 0 with
    dataSize := 1, sender := [0x41], payload := [0xAA], dataSize_eq := by decide,
    payload_fits := (by decide : 1 ≤ isizeMax) }

/-- Sides 1 and 2 reach the endpoint; side 1 is not set to carry link-local traffic. -/
def beaconState : RoutingState where
  sides := [some ⟨true, true, true⟩, some ⟨true, true, false⟩, some ⟨true, true, true⟩]
  routeOverrides := []
  typedRouteOverrides := [((some 0, 100, 1), true), ((some 0, 100, 2), true)]
  sourceRouteModes := []
  routeWeights := []
  routePriorities := []
  routeSelectionCursors := fun _ => 0
  adaptiveRouteStats := ∅
  timesyncSideThrottle := ∅
  discoveryRoutes := ((∅ : ExtTreeMap ℕ DiscoverySideState).insert 1 ⟨[5], [], [], 10, ∅⟩).insert 2 ⟨[5], [], [], 10, ∅⟩
  reliableReturnRoutes := ∅
  forwardedReceipts := none
  managedVariableTypes := []

theorem route_policy_beacon :
    ∃ st', beaconState.remoteSidePlan beaconContext (.packet beacon) (some 0) = .ok ([2], st') ∧
      ([2] : List ℕ).Nodup ∧ ∃ opts, beaconState.sideOptions 2 = some opts ∧ opts.linkLocalEnabled = true := by
  have hinfo : beaconContext.itemRouteInfo (.packet beacon) = .ok ([5], 100) := by decide +kernel
  have hplan : (beaconState.remoteSidePlan beaconContext (.packet beacon) (some 0)).map Prod.fst = .ok [2] := by
    decide +kernel
  obtain ⟨⟨plan, st'⟩, h, hfst⟩ : ∃ x, beaconState.remoteSidePlan beaconContext (.packet beacon) (some 0) = .ok x ∧
      x.1 = [2] := by
    generalize beaconState.remoteSidePlan beaconContext (.packet beacon) (some 0) = result at hplan
    cases result with
    | error e => cases hplan
    | ok x => exact ⟨x, rfl, Except.ok.inj hplan⟩
  obtain rfl : plan = [2] := hfst
  have hsafe := route_policy_safe hinfo h
  refine ⟨st', h, hsafe.1, ?_⟩
  have hlocal : ∀ ep ∈ ([5] : List DataEndpoint), beaconContext.linkLocalOnly ep = true := by
    intro ep hep
    rw [mem_singleton.mp hep]
    rfl
  exact hsafe.2.2.2.2 (by decide +kernel) (by decide) (by decide) (by decide) hlocal 2 mem_cons_self

end RoutingState

end SedsNet
