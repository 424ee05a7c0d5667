import SedsNet.Runs
import SedsNet.TimeSync

/-! # Agreement on the time leader

A network of time sources that announce their priority while they take themselves for the leader, and
hear the announcements of the others at any time and in any order.  `leader_agreement` is about the
states in which all trackers are up to date: there is at most one leader, and everybody follows it.
That there is one needs more, because a leader that announces a boosted priority still compares
itself by its configured one. -/

namespace SedsNet

open OrderedMap Runs List Function
open Std (ExtTreeMap TransCmp OrientedCmp ReflCmp)

namespace TimeSyncTracker

variable {t : TimeSyncTracker} {nowMs : ℕ} {usable : Bool} {src src' : TimeSyncSource}

/-! ### The order of sources -/

instance : TransCmp sourceOrder := by
  unfold sourceOrder
  infer_instance

theorem sourceOrder_lt_iff : sourceOrder src src' = .lt ↔
    src.priority < src'.priority ∨ src.priority = src'.priority ∧ compare src.sender src'.sender = .lt := by
  unfold sourceOrder compareLex compareOn
  rw [Ordering.then_eq_lt, Nat.compare_eq_lt, Nat.compare_eq_eq]

theorem sourceOrder_eq_iff : sourceOrder src src' = .eq ↔ src.priority = src'.priority ∧ src.sender = src'.sender := by
  unfold sourceOrder compareLex compareOn
  rw [Ordering.then_eq_eq, Nat.compare_eq_eq, Std.LawfulEqOrd.compare_eq_iff_eq]

/-! ### The elected leader -/

/-- The local node as a source. -/
def candidate (t : TimeSyncTracker) : TimeSyncSource := ⟨t.localId, t.cfg.priority, 0, 0⟩

/-- The tracker takes the local node for the leader. -/
def Leads (t : TimeSyncTracker) (nowMs : ℕ) (usable : Bool) : Prop :=
  ∃ priority, t.leader nowMs usable = some (.localNode priority)

theorem leader_source (h : t.cfg.role = .source) : t.leader nowMs usable =
    match t.bestActiveSource nowMs with
    | none => some (.localNode t.cfg.priority)
    | some best =>
      if sourceOrder t.candidate best = .lt then some (.localNode t.cfg.priority) else some (.remote best) := by
  have hcandidate : t.localCandidatePriority nowMs usable = some t.cfg.priority := by
    unfold localCandidatePriority
    rw [h]
  unfold leader
  rw [hcandidate]
  cases t.bestActiveSource nowMs with
  | none => rfl
  | some best =>
    refine if_congr ?_ rfl rfl
    rw [sourceOrder_lt_iff]
    rfl

/-- A source leads if it comes before every active source. -/
theorem leads_iff (h : t.cfg.role = .source) :
    t.Leads nowMs usable ↔ ∀ src ∈ t.activeSources nowMs, sourceOrder t.candidate src = .lt := by
  unfold Leads
  rw [leader_source h]
  cases hbest : t.bestActiveSource nowMs with
  | none =>
    rw [eq_nil_of_least hbest]
    constructor
    · intro _ src hsrc
      cases hsrc
    · intro _
      exact ⟨_, rfl⟩
  | some best =>
    obtain ⟨hmem, hleast⟩ := least_spec hbest
    dsimp only
    constructor
    · rintro ⟨priority, hleads⟩ src hsrc
      split at hleads
      · rename_i hlt
        exact TransCmp.lt_of_lt_of_isLE hlt (hleast src hsrc)
      · cases hleads
    · intro hall
      rw [if_pos (hall best hmem)]
      exact ⟨_, rfl⟩

/-- A source that does not lead follows the least active source. -/
theorem follows (h : t.cfg.role = .source) (hnot : ¬ t.Leads nowMs usable) :
    ∃ best, t.leader nowMs usable = some (.remote best) ∧ best ∈ t.activeSources nowMs ∧
      ∀ src ∈ t.activeSources nowMs, (sourceOrder best src).isLE := by
  unfold Leads at hnot
  rw [leader_source h] at hnot ⊢
  cases hbest : t.bestActiveSource nowMs with
  | none =>
    rw [hbest] at hnot
    exact absurd ⟨_, rfl⟩ hnot
  | some best =>
    rw [hbest] at hnot
    dsimp only at hnot ⊢
    split
    · rename_i hlt
      rw [if_pos hlt] at hnot
      exact absurd ⟨_, rfl⟩ hnot
    · exact ⟨best, rfl, least_spec hbest⟩

/-- All sources of the tracker are active. -/
def AllActive (t : TimeSyncTracker) (nowMs : ℕ) : Prop :=
  ∀ (id : Bytes) src, t.sources[id]? = some src →
    sourceIsActive src nowMs t.cfg.sourceTimeoutMs = true

theorem mem_activeSources : src ∈ t.activeSources nowMs ↔
    (∃ id : Bytes, t.sources[id]? = some src) ∧ sourceIsActive src nowMs t.cfg.sourceTimeoutMs = true := by
  unfold activeSources
  rw [mem_filter, mem_map]
  refine and_congr_left' ?_
  constructor
  · rintro ⟨⟨id, src'⟩, hmem, rfl⟩
    exact ⟨id, ExtTreeMap.mem_toList_iff_getElem?_eq_some.mp hmem⟩
  · rintro ⟨id, hid⟩
    exact ⟨(id, src), ExtTreeMap.mem_toList_iff_getElem?_eq_some.mpr hid, rfl⟩

/-- The priority that is announced: the configured one, or a boosted one on a tie. -/
theorem localAnnouncePriority_source {q : ℕ} (h : t.cfg.role = .source)
    (hq : t.localAnnouncePriority nowMs usable = some q) : t.Leads nowMs usable ∧ q ≤ t.cfg.priority ∧
      (q = t.cfg.priority ∨ ∃ src ∈ t.activeSources nowMs, src.priority = t.cfg.priority) := by
  unfold localAnnouncePriority at hq
  have hleader : t.leader nowMs usable = _ := leader_source h
  split at hq
  · rename_i priority hlocal
    have hpriority : priority = t.cfg.priority := by
      rw [hlocal] at hleader
      split at hleader
      · cases hleader
        rfl
      · split at hleader
        · cases hleader
          rfl
        · cases hleader
    rw [hpriority] at hq
    refine ⟨⟨priority, hlocal⟩, ?_⟩
    split at hq
    · rename_i htie
      obtain ⟨src, hsrc, heq⟩ := any_eq_true.mp htie
      cases hq
      exact ⟨Nat.sub_le _ _, .inr ⟨src, hsrc, beq_iff_eq.mp heq⟩⟩
    · cases hq
      exact ⟨le_rfl, .inl rfl⟩
  · cases hq

end TimeSyncTracker

/-! ### The network -/

/-- An announcement that a node has sent. -/
structure Announcement (n : ℕ) where
  node : Fin n
  fields : TimeSyncAnnounceFields
deriving DecidableEq

/-- The trackers of the nodes, and the announcements sent so far, the last one first. -/
structure SourceNetwork (n : ℕ) where
  tracker : Fin n → TimeSyncTracker
  sent : List (Announcement n)

namespace SourceNetwork

open TimeSyncTracker

variable {n : ℕ}

inductive Event (n : ℕ) where
  /-- The node announces itself, if it leads. -/
  | announce (i : Fin n) (nowMs timeMs : ℕ) (usable : Bool)
  /-- A sent announcement arrives. -/
  | deliver (a : Announcement n) (i : Fin n) (recvMs : ℕ)

section

variable (s : SourceNetwork n)

/-- The announcement arrives at the node `i`. -/
def hear (a : Announcement n) (i : Fin n) (recvMs : ℕ) : SourceNetwork n :=
  let heard := (s.tracker i).commitSource (s.tracker a.node).localId a.fields recvMs
  { s with tracker := Function.update s.tracker i heard }

def step : Event n → SourceNetwork n
  | .announce i nowMs timeMs usable =>
    match (s.tracker i).localAnnouncePriority nowMs usable with
    | some priority => { s with sent := ⟨i, priority, timeMs⟩ :: s.sent }
    | none => s
  | .deliver a i recvMs => if a ∈ s.sent then s.hear a i recvMs else s

/-- All trackers are empty. -/
def start (ids : Fin n → Bytes) (cfgs : Fin n → TimeSyncConfig) : SourceNetwork n :=
  ⟨fun i => TimeSyncTracker.new (cfgs i) (ids i), []⟩

/-- The most recently announced priority of a node. -/
def lastAnnounced (i : Fin n) : Option ℕ :=
  (s.sent.find? fun a => a.node == i).map fun a => a.fields.priority

/-- The tracker of `i` has the most recent announcement of `j`. -/
def Sees (i j : Fin n) : Prop :=
  ((s.tracker i).sources[(s.tracker j).localId]?).map TimeSyncSource.priority = s.lastAnnounced j

instance (s : SourceNetwork n) (i j : Fin n) : Decidable (s.Sees i j) := by
  unfold Sees
  infer_instance

/-- Each tracker has the most recent announcement of every other node. -/
def Current : Prop := ∀ i j, j ≠ i → s.Sees i j

end

instance (s : SourceNetwork n) : Decidable s.Current := by
  unfold Current
  infer_instance

/-! ### What every run preserves -/

/-- The announcements are no worse than the configured priorities, and the trackers have nothing but
announcements of other nodes. -/
structure Sound (ids : Fin n → Bytes) (cfgs : Fin n → TimeSyncConfig) (s : SourceNetwork n) : Prop where
  cfg : ∀ i, (s.tracker i).cfg = cfgs i
  localId : ∀ i, (s.tracker i).localId = ids i
  sent : ∀ a ∈ s.sent, a.fields.priority ≤ (cfgs a.node).priority
  sources : ∀ (i : Fin n) (id : Bytes) (src : TimeSyncSource), (s.tracker i).sources[id]? = some src →
    src.sender = id ∧ ∃ a ∈ s.sent, a.node ≠ i ∧ ids a.node = id ∧ a.fields.priority = src.priority

section

variable {ids : Fin n → Bytes} {cfgs : Fin n → TimeSyncConfig} {s : SourceNetwork n}

theorem sound_start : Sound ids cfgs (start ids cfgs) := by
  refine ⟨fun _ => rfl, fun _ => rfl, ?_, ?_⟩
  · intro a ha
    cases ha
  · intro i id src h
    change (∅ : ExtTreeMap Bytes TimeSyncSource)[id]? = some src at h
    simp at h

variable {i : Fin n} {nowMs : ℕ} {usable : Bool}

theorem Sound.role (h : Sound ids cfgs s) (hroles : ∀ i, (cfgs i).role = .source) (i : Fin n) :
    (s.tracker i).cfg.role = .source := by
  rw [h.cfg]
  exact hroles i

theorem Sound.announce (h : Sound ids cfgs s) (hroles : ∀ i, (cfgs i).role = .source) {priority timeMs : ℕ}
    (hannounce : (s.tracker i).localAnnouncePriority nowMs usable = some priority) :
    Sound ids cfgs { s with sent := ⟨i, priority, timeMs⟩ :: s.sent } := by
  refine ⟨h.cfg, h.localId, ?_, ?_⟩
  · intro a ha
    obtain rfl | ha := mem_cons.mp ha
    · rw [← h.cfg]
      exact (localAnnouncePriority_source (h.role hroles i) hannounce).2.1
    · exact h.sent a ha
  · intro i id src hsrc
    obtain ⟨hsender, a, ha, hrest⟩ := h.sources i id src hsrc
    exact ⟨hsender, a, mem_cons_of_mem _ ha, hrest⟩

theorem Sound.hear (h : Sound ids cfgs s) {a : Announcement n} (ha : a ∈ s.sent) (i : Fin n) (recvMs : ℕ) :
    Sound ids cfgs (s.hear a i recvMs) := by
  unfold SourceNetwork.hear commitSource
  dsimp only
  split
  · rw [update_eq_self]
    exact h
  rename_i hother
  rw [h.localId, h.localId] at hother
  refine ⟨?_, ?_, h.sent, ?_⟩
  · intro k
    dsimp only
    by_cases hk : k = i
    · rw [hk, update_self]
      exact h.cfg i
    · rw [update_of_ne hk]
      exact h.cfg k
  · intro k
    dsimp only
    by_cases hk : k = i
    · rw [hk, update_self]
      exact h.localId i
    · rw [update_of_ne hk]
      exact h.localId k
  · intro k id src hsrc
    dsimp only at hsrc ⊢
    by_cases hk : k = i
    · rw [hk, update_self] at hsrc
      change ((s.tracker i).sources.insert (s.tracker a.node).localId _)[id]? = some src at hsrc
      rw [getElem?_insert_eq, h.localId] at hsrc
      split at hsrc
      · rename_i heq
        cases hsrc
        refine ⟨heq, a, ha, ?_, heq, rfl⟩
        rw [hk]
        exact fun hnode => hother (congrArg ids hnode)
      · rw [hk]
        exact h.sources i id src hsrc
    · rw [update_of_ne hk] at hsrc
      exact h.sources k id src hsrc

theorem Sound.step (h : Sound ids cfgs s) (hroles : ∀ i, (cfgs i).role = .source)
    (e : Event n) : Sound ids cfgs (s.step e) := by
  cases e with
  | announce i nowMs timeMs usable =>
    unfold SourceNetwork.step
    dsimp only
    split
    · rename_i priority hannounce
      exact h.announce hroles hannounce
    · exact h
  | deliver a i recvMs =>
    unfold SourceNetwork.step
    dsimp only
    split
    · rename_i ha
      exact h.hear ha i recvMs
    · exact h

theorem sound_run (hroles : ∀ i, (cfgs i).role = .source) (es : List (Event n)) :
    Sound ids cfgs (run step (start ids cfgs) es) := run_always (fun _ e h => h.step hroles e) sound_start es

/-! ### Views -/

/-- A priority and an id come before others. -/
def Before (p q : ℕ × Bytes) : Prop := p.1 < q.1 ∨ p.1 = q.1 ∧ compare p.2 q.2 = .lt

variable {p p' q : ℕ} {x : Bytes}

/-- What comes before a better claim of `x` comes not after a worse one. -/
theorem Before.asymm {q' : ℕ} {y : Bytes} (hp : p' ≤ p) (hq : q' ≤ q) (h : Before (p, x) (q', y)) :
    ¬ Before (q, y) (p', x) := by
  intro h'
  unfold Before at h h'
  obtain hlt | ⟨heq, hxy⟩ := h
  · omega
  · obtain hlt | ⟨heq', hyx⟩ := h'
    · omega
    · rw [OrientedCmp.gt_of_lt hxy] at hyx
      cases hyx

theorem Before.of_le {q : ℕ × Bytes} (hp : p' ≤ p) (h : Before (p, x) q) : Before (p', x) q := by
  obtain hlt | ⟨heq, hcmp⟩ := h
  · exact .inl (by omega)
  · obtain hlt | heq' := lt_or_eq_of_le hp
    · exact .inl (by omega)
    · exact .inr ⟨heq'.trans heq, hcmp⟩

theorem exists_of_lastAnnounced (h : s.lastAnnounced i = some q) :
    ∃ a ∈ s.sent, a.node = i ∧ a.fields.priority = q := by
  obtain ⟨a, ha, hq⟩ := Option.map_eq_some_iff.mp h
  have hnode : (a.node == i) = true := List.find?_some (p := fun a : Announcement n => a.node == i) ha
  exact ⟨a, mem_of_find?_eq_some ha, beq_iff_eq.mp hnode, hq⟩

theorem Sound.lastAnnounced_le (h : Sound ids cfgs s) (hq : s.lastAnnounced i = some q) : q ≤ (cfgs i).priority := by
  obtain ⟨a, ha, hnode, hpriority⟩ := exists_of_lastAnnounced hq
  rw [← hnode, ← hpriority]
  exact h.sent a ha

/-- A tracker that is up to date has the last announcements of the other nodes as sources, -/
theorem Sound.exists_active (h : Sound ids cfgs s) {j : Fin n} (hsees : s.Sees i j)
    (hactive : (s.tracker i).AllActive nowMs) (hq : s.lastAnnounced j = some q) :
    ∃ src ∈ (s.tracker i).activeSources nowMs, src.sender = ids j ∧ src.priority = q := by
  unfold Sees at hsees
  rw [hq, h.localId] at hsees
  obtain ⟨src, hsrc, hpriority⟩ := Option.map_eq_some_iff.mp hsees
  refine ⟨src, ?_, (h.sources i _ src hsrc).1, hpriority⟩
  exact mem_activeSources.mpr ⟨⟨_, hsrc⟩, hactive _ src hsrc⟩

/-- and no other ones. -/
theorem Sound.of_active (h : Sound ids cfgs s) {src : TimeSyncSource}
    (hsees : ∀ j, j ≠ i → s.Sees i j) (hsrc : src ∈ (s.tracker i).activeSources nowMs) :
    ∃ j, j ≠ i ∧ src.sender = ids j ∧ s.lastAnnounced j = some src.priority := by
  obtain ⟨⟨id, hid⟩, -⟩ := mem_activeSources.mp hsrc
  obtain ⟨hsender, a, -, hne, hida, -⟩ := h.sources i id src hid
  refine ⟨a.node, hne, hsender.trans hida.symm, ?_⟩
  have hsee := hsees a.node hne
  unfold Sees at hsee
  rw [h.localId, hida, hid] at hsee
  exact hsee.symm

/-- A node that is up to date leads if its configured priority comes before all announced ones. -/
theorem Sound.leads_iff (h : Sound ids cfgs s) (hroles : ∀ i, (cfgs i).role = .source) (hsees : ∀ j, j ≠ i → s.Sees i j)
    (hactive : (s.tracker i).AllActive nowMs) :
    (s.tracker i).Leads nowMs usable ↔
      ∀ j q, j ≠ i → s.lastAnnounced j = some q → Before ((cfgs i).priority, ids i) (q, ids j) := by
  have hcandidate : (s.tracker i).candidate = ⟨ids i, (cfgs i).priority, 0, 0⟩ := by
    unfold TimeSyncTracker.candidate
    rw [h.localId, h.cfg]
  rw [TimeSyncTracker.leads_iff (h.role hroles i), hcandidate]
  constructor
  · intro hall j q hne hq
    obtain ⟨src, hsrc, hsender, hpriority⟩ := h.exists_active (hsees j hne) hactive hq
    have hlt := sourceOrder_lt_iff.mp (hall src hsrc)
    rw [hsender, hpriority] at hlt
    exact hlt
  · intro hall src hsrc
    obtain ⟨j, hne, hsender, hlast⟩ := h.of_active hsees hsrc
    rw [sourceOrder_lt_iff, hsender]
    exact hall j src.priority hne hlast

/-! ### One leader -/

/-- Every other node follows the node `i`. -/
def Followed (ids : Fin n → Bytes) (s : SourceNetwork n) (now : Fin n → ℕ) (usable : Fin n → Bool) (i : Fin n) :
    Prop :=
  ∀ k, k ≠ i → ∃ src, (s.tracker k).leader (now k) (usable k) = some (.remote src) ∧ src.sender = ids i

/-- A leader that has announced itself is followed by every node that does not lead. -/
theorem Sound.followed (h : Sound ids cfgs s) (hroles : ∀ i, (cfgs i).role = .source) (hcurrent : s.Current)
    {now : Fin n → ℕ} {usable : Fin n → Bool} (hactive : ∀ i, (s.tracker i).AllActive (now i))
    (hannounced : ∀ i, (s.tracker i).Leads (now i) (usable i) → (s.lastAnnounced i).isSome)
    (hi : (s.tracker i).Leads (now i) (usable i)) : Followed ids s now usable i := by
  intro k hk
  obtain ⟨q, hq⟩ := Option.isSome_iff_exists.mp (hannounced i hi)
  have hle := h.lastAnnounced_le hq
  have hbefore := (h.leads_iff hroles (hcurrent i) (hactive i)).mp hi
  have hnot : ¬ (s.tracker k).Leads (now k) (usable k) := by
    intro hleads
    obtain ⟨r, hr⟩ := Option.isSome_iff_exists.mp (hannounced k hleads)
    have hbefore' := (h.leads_iff hroles (hcurrent k) (hactive k)).mp hleads
    exact Before.asymm hle (h.lastAnnounced_le hr) (hbefore k r hk hr) (hbefore' i q hk.symm hq)
  obtain ⟨best, hleader, hbest, hleast⟩ := TimeSyncTracker.follows (h.role hroles k) hnot
  refine ⟨best, hleader, ?_⟩
  obtain ⟨j, hj, hsender, hlast⟩ := h.of_active (hcurrent k) hbest
  -- the best source cannot be another one, since the leader comes before it
  by_contra hne
  have hji : j ≠ i := by
    rintro rfl
    exact hne hsender
  obtain ⟨src, hsrc, hsrcSender, hsrcPriority⟩ := h.exists_active (hcurrent k i hk.symm) (hactive k) hq
  have hlt : sourceOrder src best = .lt := by
    rw [sourceOrder_lt_iff, hsrcSender, hsrcPriority, hsender]
    exact (hbefore j best.priority hji hlast).of_le hle
  have hleast' := hleast src hsrc
  rw [OrientedCmp.gt_of_lt hlt] at hleast'
  cases hleast'

/-! ### The existence of a leader -/

theorem lastAnnounced_cons (a : Announcement n) (j : Fin n) :
    lastAnnounced { s with sent := a :: s.sent } j =
      if a.node = j then some a.fields.priority else s.lastAnnounced j := by
  unfold lastAnnounced
  rw [List.find?_cons]
  by_cases h : a.node = j
  · rw [if_pos h, beq_iff_eq.mpr h]
    rfl
  · rw [if_neg h, beq_eq_false_iff_ne.mpr h]

/-- The configured priority of the node comes before the announced one of every other node. -/
def Ahead (ids : Fin n → Bytes) (cfgs : Fin n → TimeSyncConfig) (s : SourceNetwork n) (i : Fin n) : Prop :=
  ∀ j q, j ≠ i → s.lastAnnounced j = some q → Before ((cfgs i).priority, ids i) (q, ids j)

/-- The most recent announcements have the configured priorities. -/
def Unboosted (cfgs : Fin n → TimeSyncConfig) (s : SourceNetwork n) : Prop :=
  ∀ i q, s.lastAnnounced i = some q → q = (cfgs i).priority

/-- The node with the least announcement is ahead if that one is not boosted. -/
theorem exists_ahead_of_unboosted (hids : Injective ids) (hn : 0 < n) (hun : Unboosted cfgs s) :
    ∃ i, Ahead ids cfgs s i := by
  cases hleast : least sourceOrder ((List.finRange n).filterMap fun i =>
      (s.lastAnnounced i).map fun q => (⟨ids i, q, 0, 0⟩ : TimeSyncSource)) with
  | none =>
    refine ⟨⟨0, hn⟩, ?_⟩
    intro j q _ hq
    have hnil := eq_nil_of_least hleast
    rw [filterMap_eq_nil_iff] at hnil
    have hj := hnil j (mem_finRange j)
    rw [hq] at hj
    cases hj
  | some m =>
    obtain ⟨hmem, hle⟩ := least_spec hleast
    obtain ⟨i, -, hi⟩ := mem_filterMap.mp hmem
    obtain ⟨p, hp, rfl⟩ := Option.map_eq_some_iff.mp hi
    refine ⟨i, ?_⟩
    intro j q hne hq
    rw [← hun i p hp]
    have hj := hle ⟨ids j, q, 0, 0⟩ (mem_filterMap.mpr ⟨j, mem_finRange j, by rw [hq]; rfl⟩)
    rw [Ordering.isLE_iff_eq_lt_or_eq_eq] at hj
    obtain hlt | heq := hj
    · exact sourceOrder_lt_iff.mp hlt
    · exact absurd (hids (sourceOrder_eq_iff.mp heq).2).symm hne

/-- A node announces itself with a tracker that is up to date. -/
def Informed (s : SourceNetwork n) : Event n → Prop
  | .announce i nowMs _ _ => (∀ j, j ≠ i → s.Sees i j) ∧ (s.tracker i).AllActive nowMs
  | .deliver _ _ _ => True

/-- The last node that has announced itself so is ahead. -/
theorem Sound.ahead_step (h : Sound ids cfgs s) (hroles : ∀ i, (cfgs i).role = .source)
    (hahead : ∃ i, Ahead ids cfgs s i) {e : Event n} (he : Informed s e) : ∃ i, Ahead ids cfgs (s.step e) i := by
  cases e with
  | announce i nowMs timeMs usable =>
    unfold SourceNetwork.step
    dsimp only
    split
    · rename_i priority hannounce
      have hleads := (localAnnouncePriority_source (h.role hroles i) hannounce).1
      refine ⟨i, ?_⟩
      intro j q hne hq
      rw [lastAnnounced_cons, if_neg hne.symm] at hq
      exact (h.leads_iff hroles he.1 he.2).mp hleads j q hne hq
    · exact hahead
  | deliver a i recvMs =>
    unfold SourceNetwork.step
    dsimp only
    split
    · exact hahead
    · exact hahead

theorem exists_ahead_of_informed (hroles : ∀ i, (cfgs i).role = .source) (hn : 0 < n) {es : List (Event n)}
    (hes : Meets step Informed (start ids cfgs) es) : ∃ i, Ahead ids cfgs (run step (start ids cfgs) es) i := by
  refine (run_invariant (I := fun s => Sound ids cfgs s ∧ ∃ i, Ahead ids cfgs s i) ?_ ?_ hes).2
  · intro s e h he
    exact ⟨h.1.step hroles e, h.1.ahead_step hroles h.2 he⟩
  · refine ⟨sound_start, ⟨0, hn⟩, ?_⟩
    intro j q _ hq
    cases hq

/-- Every announcement has the configured priority. -/
def Plain (cfgs : Fin n → TimeSyncConfig) (s : SourceNetwork n) : Prop :=
  ∀ a ∈ s.sent, a.fields.priority = (cfgs a.node).priority

theorem Sound.plain_step (h : Sound ids cfgs s) (hroles : ∀ i, (cfgs i).role = .source)
    (hdistinct : Injective fun i => (cfgs i).priority) (hplain : Plain cfgs s) (e : Event n) :
    Plain cfgs (s.step e) := by
  cases e with
  | announce i nowMs timeMs usable =>
    unfold SourceNetwork.step
    dsimp only
    split
    · rename_i priority hannounce
      intro a ha
      obtain rfl | ha := mem_cons.mp ha
      · obtain hsame | ⟨src, hsrc, htie⟩ := (localAnnouncePriority_source (h.role hroles i) hannounce).2.2
        · rw [← h.cfg]
          exact hsame
        · -- a tie is with an announcement of another node, which has another priority
          obtain ⟨⟨id, hid⟩, -⟩ := mem_activeSources.mp hsrc
          obtain ⟨-, a, ha, hne, -, hpriority⟩ := h.sources i id src hid
          rw [h.cfg, ← hpriority, hplain a ha] at htie
          exact absurd (hdistinct htie) hne
      · exact hplain a ha
    · exact hplain
  | deliver a i recvMs =>
    unfold SourceNetwork.step
    dsimp only
    split
    · exact hplain
    · exact hplain

/-- Nodes with distinct configured priorities never boost. -/
theorem unboosted_of_distinct (hroles : ∀ i, (cfgs i).role = .source)
    (hdistinct : Injective fun i => (cfgs i).priority) (es : List (Event n)) :
    Unboosted cfgs (run step (start ids cfgs) es) := by
  have hplain := (run_always (I := fun s => Sound ids cfgs s ∧ Plain cfgs s)
    (fun _ e h => ⟨h.1.step hroles e, h.1.plain_step hroles hdistinct h.2 e⟩)
    ⟨sound_start, fun a ha => by cases ha⟩ es).2
  intro i q hq
  obtain ⟨a, ha, hnode, hpriority⟩ := exists_of_lastAnnounced hq
  rw [← hnode, ← hpriority]
  exact hplain a ha

end

/-- **Agreement on the leader**: when every tracker is up to date and every node that leads has
announced itself, a leader is followed by all other nodes.  There is one if the configured priorities
are distinct, if no announcement in effect is boosted, or if the nodes were up to date whenever they
announced themselves. -/
theorem leader_agreement (ids : Fin n → Bytes) (hids : Function.Injective ids) (cfgs : Fin n → TimeSyncConfig)
    (hroles : ∀ i, (cfgs i).role = .source) (es : List (Event n)) (now : Fin n → ℕ) (usable : Fin n → Bool)
    (hcurrent : (run step (start ids cfgs) es).Current)
    (hactive : ∀ i, ((run step (start ids cfgs) es).tracker i).AllActive (now i))
    (hannounced : ∀ i, ((run step (start ids cfgs) es).tracker i).Leads (now i) (usable i) →
      ((run step (start ids cfgs) es).lastAnnounced i).isSome) :
    (∀ i, ((run step (start ids cfgs) es).tracker i).Leads (now i) (usable i) →
      Followed ids (run step (start ids cfgs) es) now usable i) ∧
    (0 < n → (Function.Injective fun i => (cfgs i).priority) ∨ Unboosted cfgs (run step (start ids cfgs) es) ∨
      Meets step Informed (start ids cfgs) es →
      ∃ i, ((run step (start ids cfgs) es).tracker i).Leads (now i) (usable i)) := by
  have hsound : Sound ids cfgs (run step (start ids cfgs) es) := sound_run hroles es
  constructor
  · intro i hi
    exact hsound.followed hroles hcurrent hactive hannounced hi
  · intro hn hcause
    have hahead : ∃ i, Ahead ids cfgs (run step (start ids cfgs) es) i := by
      obtain hdistinct | hun | hes := hcause
      · exact exists_ahead_of_unboosted hids hn (unboosted_of_distinct hroles hdistinct es)
      · exact exists_ahead_of_unboosted hids hn hun
      · exact exists_ahead_of_informed hroles hn hes
    obtain ⟨i, hi⟩ := hahead
    exact ⟨i, (hsound.leads_iff hroles (hcurrent i) (hactive i)).mpr hi⟩

theorem allActive_zero (t : TimeSyncTracker) : t.AllActive 0 := by
  intro id src _
  unfold sourceIsActive
  simp

/-- Nodes `"A"`, `"B"` and so on. -/
def letterIds (n : ℕ) (i : Fin n) : Bytes := [UInt8.ofNat (0x41 + i)]

/-- A source with the priority `priority`. -/
def sourceConfig (priority : ℕ) : TimeSyncConfig := { TimeSyncConfig.default with role := .source, priority }

/-- Two sources with one priority announce themselves to each other. -/
def tiedSources : List (Event 2) :=
  [.announce 0 0 0 true, .announce 1 0 0 true, .deliver ⟨0, 10, 0⟩ 1 0, .deliver ⟨1, 10, 0⟩ 0 0]

def twoSources : SourceNetwork 2 := run step (start (letterIds 2) fun _ => sourceConfig 10) tiedSources

/-- The tie is decided for the node `"A"`. -/
theorem leader_agreement_two : Followed (letterIds 2) twoSources (fun _ => 0) (fun _ => true) 0 ∧
    ∃ i, (twoSources.tracker i).Leads 0 true := by
  have hlast : ∀ i, twoSources.lastAnnounced i = some 10 := by decide +kernel
  have h := leader_agreement (letterIds 2) (by decide) (fun _ => sourceConfig 10) (fun _ => rfl) tiedSources
    (fun _ => 0) (fun _ => true) (by decide +kernel) (fun i => allActive_zero _) fun i _ => by
      change (twoSources.lastAnnounced i).isSome
      rw [hlast]
      rfl
  exact ⟨h.1 0 ⟨10, by decide +kernel⟩,
    h.2 (by decide) (.inr (.inl fun i q hq => Option.some.inj (hq.symm.trans (hlast i))))⟩

/-- Three sources with one priority announce themselves at once.  The node `"B"` hears of `"C"` first,
and announces a boosted priority before it hears of `"A"`. -/
def crossing : List (Event 3) :=
  [.announce 0 0 0 true, .announce 1 0 0 true, .announce 2 0 0 true, .deliver ⟨2, 10, 0⟩ 1 0, .announce 1 0 0 true,
    .deliver ⟨0, 10, 0⟩ 1 0, .deliver ⟨0, 10, 0⟩ 2 0, .deliver ⟨1, 9, 0⟩ 0 0, .deliver ⟨1, 9, 0⟩ 2 0,
    .deliver ⟨2, 10, 0⟩ 0 0]

/-- Before the first announcement every node leads; and after the crossing announcements every tracker
is up to date, `"A"` follows `"B"`, and `"B"` follows `"A"`. -/
theorem leader_disagreement : ((start (letterIds 3) fun _ => sourceConfig 10).Current ∧
      ∀ i, ((start (letterIds 3) fun _ => sourceConfig 10).tracker i).Leads 0 true) ∧
    ((run step (start (letterIds 3) fun _ => sourceConfig 10) crossing).Current ∧
      ∀ i, ¬ ((run step (start (letterIds 3) fun _ => sourceConfig 10) crossing).tracker i).Leads 0 true) := by
  refine ⟨⟨by decide +kernel, fun i => ⟨10, rfl⟩⟩, by decide +kernel, ?_⟩
  have hleader : ∀ i, ((run step (start (letterIds 3) fun _ => sourceConfig 10) crossing).tracker i).leader 0 true =
      some (.remote (if i = 1 then ⟨[0x41], 10, 0, 0⟩ else ⟨[0x42], 9, 0, 0⟩)) := by decide +kernel
  rintro i ⟨priority, hi⟩
  cases (hleader i).symm.trans hi

end SourceNetwork

end SedsNet
