import SedsNet.SideChunk
import SedsNet.SideTemplate

/-! # Template dictionaries

The dictionaries of `SideTransportState`: the templates a sender takes as known
(`trim_tx_templates_to`, `insert_tx_template`) and those a receiver keeps (`insert_rx_template`).
Both ends evict the template with the lowest hash.

A template is identified by its 64-bit hash in the two hash indices, and by a 32-bit id on the wire.
`RxDictionary.WellFormed` says that the receiver's two indices agree, and `Synced` that whatever the
sender takes as known is kept by the receiver under the same id. -/

namespace SedsNet

open OrderedMap
open Std (ExtTreeMap)

/-! ### The sender's dictionary -/

/-- The transmit maps of `SideTransportState`, without the timestamps, which are never read. -/
structure TxDictionary where
  ids : ExtTreeMap UInt64 UInt32
  templates : ExtTreeMap UInt64 SideHeaderTemplate
  compactUses : ExtTreeMap UInt32 UInt8

namespace TxDictionary

def initial : TxDictionary := ⟨∅, ∅, ∅⟩

/-- Forget the template of a hash. -/
def evict (d : TxDictionary) (hash : UInt64) : TxDictionary where
  ids := d.ids.erase hash
  templates := d.templates.erase hash
  compactUses :=
    match d.ids[hash]? with
    | some id => d.compactUses.erase id
    | none => d.compactUses

/-- The loop of `trim_tx_templates_to`: one template a round. -/
def trim (limit : ℕ) : (rounds : ℕ) → TxDictionary → TxDictionary
  | 0, d => d
  | rounds + 1, d =>
    if limit < d.ids.size then
      match firstKey? d.ids with
      | none => d
      | some hash => trim limit rounds (d.evict hash)
    else d

def trimTxTemplatesTo (d : TxDictionary) (limit : ℕ) : TxDictionary := d.trim limit d.ids.size

def insertTxTemplate (d : TxDictionary) (template : SideHeaderTemplate) (id : UInt32)
    (maxTemplates : ℕ) : TxDictionary :=
  if maxTemplates = 0 then d
  else
    let d := if template.hash ∈ d.ids then d else d.trimTxTemplatesTo (maxTemplates - 1)
    { ids := d.ids.insert template.hash id
      templates := d.templates.insert template.hash template
      compactUses := d.compactUses.insert id 0 }

/-- `refresh_transmit_header_templates`: the next frame of every template is a full one. -/
def refresh (d : TxDictionary) : TxDictionary :=
  { d with compactUses := d.compactUses.map fun _ _ => 255 }

variable {d : TxDictionary} {hash : UInt64} {id : UInt32}

theorem ids_evict {victim : UInt64} (h : (d.evict victim).ids[hash]? = some id) : d.ids[hash]? = some id := by
  exact (getElem?_of_erase h).2

variable {limit : ℕ}

theorem ids_trim (rounds : ℕ) : ∀ {d : TxDictionary} {hash : UInt64} {id},
    (d.trim limit rounds).ids[hash]? = some id → d.ids[hash]? = some id := by
  induction rounds with
  | zero => exact fun h => h
  | succ rounds ih =>
    intro d hash id h
    unfold trim at h
    split at h
    · split at h
      · exact h
      · exact ids_evict (ih h)
    · exact h

theorem ids_trimTxTemplatesTo
    (h : (d.trimTxTemplatesTo limit).ids[hash]? = some id) : d.ids[hash]? = some id := ids_trim _ h

theorem trimTxTemplatesTo_of_le (h : d.ids.size ≤ limit) : d.trimTxTemplatesTo limit = d := by
  unfold trimTxTemplatesTo
  cases hrounds : d.ids.size with
  | zero => rfl
  | succ rounds =>
    unfold trim
    rw [if_neg (by omega)]

/-- Trimming a dictionary that is too large takes out its lowest hash first. -/
theorem trimTxTemplatesTo_lowest {lowest : UInt64}
    (hsize : limit < d.ids.size) (hlowest : firstKey? d.ids = some lowest) :
    (d.trimTxTemplatesTo limit).ids[lowest]? = none := by
  unfold trimTxTemplatesTo
  obtain ⟨rounds, hrounds⟩ := Nat.exists_eq_succ_of_ne_zero (show d.ids.size ≠ 0 by omega)
  rw [hrounds]
  unfold trim
  rw [if_pos hsize, hlowest]
  cases hkept : (trim limit rounds (d.evict lowest)).ids[lowest]? with
  | none => rfl
  | some id =>
    have hout := ids_trim rounds hkept
    simp [evict] at hout

theorem trim_size (rounds : ℕ) : ∀ {d : TxDictionary}, d.ids.size ≤ limit + rounds →
    (d.trim limit rounds).ids.size ≤ limit := by
  induction rounds with
  | zero => exact fun h => h
  | succ rounds ih =>
    intro d h
    unfold trim
    split
    · cases hfirst : firstKey? d.ids with
      | none =>
        rw [firstKey?_eq_none.mp hfirst]
        simp
      | some hash =>
        apply ih
        have := size_erase_of_mem (mem_of_firstKey? hfirst)
        simp only [evict]
        omega
    · omega

theorem trimTxTemplatesTo_zero (d : TxDictionary) (hash : UInt64) : (d.trimTxTemplatesTo 0).ids[hash]? = none := by
  have hsize : (d.trim 0 d.ids.size).ids.size ≤ 0 := trim_size d.ids.size (by omega)
  cases hkept : (d.trimTxTemplatesTo 0).ids[hash]? with
  | none => rfl
  | some id =>
    have := size_pos_of_some hkept
    unfold trimTxTemplatesTo at this
    omega

variable {template : SideHeaderTemplate}

/-- What the sender knows after an insertion: the new template, and what trimming left. -/
theorem ids_insertTxTemplate {id' : UInt32} {maxTemplates : ℕ} (hnew : template.hash ∉ d.ids)
    (h : (d.insertTxTemplate template id maxTemplates).ids[hash]? = some id') :
    (maxTemplates = 0 ∧ d.ids[hash]? = some id') ∨ (0 < maxTemplates ∧ ((hash = template.hash ∧ id' = id) ∨
        (d.trimTxTemplatesTo (maxTemplates - 1)).ids[hash]? = some id')) := by
  unfold insertTxTemplate at h
  split at h
  · rename_i hzero
    exact .inl ⟨hzero, h⟩
  rename_i hpos
  right
  refine ⟨Nat.pos_of_ne_zero hpos, ?_⟩
  simp only [getElem?_insert_eq] at h
  split at h
  · rename_i heq
    cases h
    exact .inl ⟨heq.symm, rfl⟩
  · exact .inr h

/-- Ids are folded hashes. -/
def Folded (d : TxDictionary) : Prop :=
  ∀ (hash : UInt64) (id : UInt32), d.ids[hash]? = some id → id = foldHash hash

theorem folded_initial : Folded initial := by
  intro hash id h
  simp [initial] at h

theorem Folded.trimTxTemplatesTo (h : d.Folded) (limit : ℕ) : (d.trimTxTemplatesTo limit).Folded :=
  fun hash id hid => h hash id (ids_trimTxTemplatesTo hid)

theorem Folded.insertTxTemplate (h : d.Folded) (maxTemplates : ℕ) (hnew : template.hash ∉ d.ids) :
    (d.insertTxTemplate template (foldHash template.hash) maxTemplates).Folded := by
  intro hash id hid
  rcases ids_insertTxTemplate hnew hid with ⟨-, hold⟩ | ⟨-, ⟨rfl, rfl⟩ | hold⟩
  · exact h hash id hold
  · rfl
  · exact h hash id (ids_trimTxTemplatesTo hold)

end TxDictionary

/-! ### The receiver's dictionary -/

/-- The receive maps of `SideTransportState`. -/
structure RxDictionary where
  hashes : ExtTreeMap UInt64 UInt32
  byId : ExtTreeMap UInt32 SideHeaderTemplate
  lastTimestamps : ExtTreeMap UInt32 UInt64

namespace RxDictionary

def initial : RxDictionary := ⟨∅, ∅, ∅⟩

/-- The same header under another id gives way. -/
def releaseHash (d : RxDictionary) (id : UInt32) (template : SideHeaderTemplate) : RxDictionary :=
  match d.hashes[template.hash]? with
  | some oldId =>
    if oldId ≠ id then
      ⟨d.hashes.erase template.hash, d.byId.erase oldId, d.lastTimestamps.erase oldId⟩
    else d
  | none => d

/-- Another header under the same id gives way. -/
def releaseId (d : RxDictionary) (id : UInt32) (template : SideHeaderTemplate) : RxDictionary :=
  match d.byId[id]? with
  | some previous =>
    if previous.hash ≠ template.hash then
      { d with
        hashes := d.hashes.erase previous.hash
        lastTimestamps := d.lastTimestamps.erase id }
    else d
  | none => d

/-- A full dictionary evicts its lowest hash for a new id. -/
def evictLowest (d : RxDictionary) (id : UInt32) (maxTemplates : ℕ) : RxDictionary :=
  if maxTemplates ≤ d.byId.size ∧ d.byId[id]? = none then
    match d.hashes.toList.head? with
    | some (oldHash, oldId) =>
      ⟨d.hashes.erase oldHash, d.byId.erase oldId, d.lastTimestamps.erase oldId⟩
    | none => d
  else d

def insertRxTemplate (d : RxDictionary) (id : UInt32) (template : SideHeaderTemplate)
    (maxTemplates : ℕ) : RxDictionary :=
  if maxTemplates = 0 then d
  else
    let d := ((d.releaseHash id template).releaseId id template).evictLowest id maxTemplates
    { d with
      hashes := d.hashes.insert template.hash id
      byId := d.byId.insert id template }

/-- The two indices agree. -/
structure WellFormed (d : RxDictionary) : Prop where
  kept : ∀ (hash : UInt64) (id : UInt32), d.hashes[hash]? = some id →
    ∃ template, d.byId[id]? = some template ∧ template.hash = hash
  indexed : ∀ (id : UInt32) template, d.byId[id]? = some template →
    d.hashes[template.hash]? = some id

theorem wellFormed_initial : WellFormed initial := by
  constructor
  · intro hash id h
    simp [initial] at h
  · intro id template h
    simp [initial] at h

variable {hash : UInt64} {id : UInt32}

theorem firstEntry {m : ExtTreeMap UInt64 UInt32}
    (h : m.toList.head? = some (hash, id)) : firstKey? m = some hash ∧ m[hash]? = some id := by
  constructor
  · rw [firstKey?, h]
    rfl
  · exact ExtTreeMap.mem_toList_iff_getElem?_eq_some.mp (List.mem_of_mem_head? h)

/-! ### Well-formedness is kept -/

variable {d : RxDictionary}

theorem wellFormed_iff : d.WellFormed ↔ Inverse SideHeaderTemplate.hash d.byId d.hashes := by
  constructor
  · intro h hash id
    refine ⟨h.kept hash id, ?_⟩
    rintro ⟨template, htemplate, rfl⟩
    exact h.indexed id template htemplate
  · intro h
    exact ⟨fun hash id => (h hash id).mp, fun id template hid => (h _ id).mpr ⟨template, hid, rfl⟩⟩

theorem WellFormed.erase (h : d.WellFormed)
    (hid : d.hashes[hash]? = some id) (lastTimestamps : ExtTreeMap UInt32 UInt64) :
    WellFormed ⟨d.hashes.erase hash, d.byId.erase id, lastTimestamps⟩ := by
  obtain ⟨template, htemplate, rfl⟩ := h.kept hash id hid
  exact wellFormed_iff.mpr ((wellFormed_iff.mp h).erase htemplate)

theorem WellFormed.releaseHash (h : d.WellFormed) (id : UInt32)
    (template : SideHeaderTemplate) : (d.releaseHash id template).WellFormed := by
  unfold RxDictionary.releaseHash
  split
  · rename_i oldId hold
    split
    · exact h.erase hold _
    · exact h
  · exact h

theorem WellFormed.evictLowest (h : d.WellFormed) (id : UInt32)
    (maxTemplates : ℕ) : (d.evictLowest id maxTemplates).WellFormed := by
  unfold RxDictionary.evictLowest
  split
  · split
    · rename_i oldHash oldId hhead
      exact h.erase (firstEntry hhead).2 _
    · exact h
  · exact h

variable {template : SideHeaderTemplate}

/-- Only the id of the new template may still carry its hash. -/
theorem releaseHash_free (d : RxDictionary) (id : UInt32) (template : SideHeaderTemplate)
    (oldId : UInt32) (hold : (d.releaseHash id template).hashes[template.hash]? = some oldId) : oldId = id := by
  unfold RxDictionary.releaseHash at hold
  split at hold
  · rename_i oldId' hold'
    split at hold
    · simp at hold
    rename_i heq
    rw [hold'] at hold
    rw [← Option.some.inj hold]
    exact not_not.mp heq
  · rename_i hnone
    rw [hnone] at hold
    cases hold

theorem releaseId_byId (d : RxDictionary) (id : UInt32) (template : SideHeaderTemplate) :
    (d.releaseId id template).byId = d.byId := by
  unfold releaseId
  split
  · split <;> rfl
  · rfl

theorem evictLowest_of_some (maxTemplates : ℕ) (h : d.byId[id]? = some template) :
    d.evictLowest id maxTemplates = d := by
  unfold evictLowest
  rw [if_neg (by simp [h])]

variable {k : UInt32} {maxTemplates : ℕ}

theorem byId_evictLowest (h : (d.evictLowest id maxTemplates).byId[k]? = some template) :
    d.byId[k]? = some template := by
  unfold evictLowest at h
  split at h
  · split at h
    · exact (getElem?_of_erase h).2
    · exact h
  · exact h

/-- The last two steps of an insertion, once the new hash has no other id. -/
theorem WellFormed.replace (h : d.WellFormed) (maxTemplates : ℕ)
    (hfree : ∀ oldId, d.hashes[template.hash]? = some oldId → oldId = id) (lastTimestamps : ExtTreeMap UInt32 UInt64) :
    WellFormed ⟨((d.releaseId id template).evictLowest id maxTemplates).hashes.insert template.hash id,
      ((d.releaseId id template).evictLowest id maxTemplates).byId.insert id template, lastTimestamps⟩ := by
  have himage : ∀ k old, d.byId[k]? = some old → old.hash = template.hash → k = id := by
    intro k old hold hhash
    apply hfree
    rw [← hhash]
    exact h.indexed k old hold
  rw [wellFormed_iff]
  cases hid : d.byId[id]? with
  | none =>
    -- a new id: the new hash is free, and stays free when another template is evicted
    rw [releaseId, hid]
    apply (wellFormed_iff.mp (h.evictLowest id maxTemplates)).insert
    · intro old hold
      rw [byId_evictLowest hold] at hid
      cases hid
    · intro k old hold
      exact himage k old (byId_evictLowest hold)
  | some previous =>
    rw [evictLowest_of_some maxTemplates (by rw [releaseId_byId, hid])]
    unfold releaseId
    rw [hid]
    simp only
    split
    · -- another header: as if it had been taken out first
      rw [← insert_erase d.byId id]
      apply ((wellFormed_iff.mp h).erase hid).insert
      · intro old hold
        exact absurd rfl (getElem?_of_erase hold).1
      · intro k old hold
        exact himage k old (getElem?_of_erase hold).2
    · rename_i hsame
      refine (wellFormed_iff.mp h).insert ?_ himage
      intro old hold
      rw [hid] at hold
      cases hold
      exact not_not.mp hsame

theorem WellFormed.insertRxTemplate (h : d.WellFormed) (id : UInt32)
    (template : SideHeaderTemplate) (maxTemplates : ℕ) : (d.insertRxTemplate id template maxTemplates).WellFormed := by
  unfold RxDictionary.insertRxTemplate
  split
  · exact h
  · exact (h.releaseHash id template).replace maxTemplates (releaseHash_free d id template) _

/-! ### What an insertion changes -/

theorem byId_releaseHash {old : SideHeaderTemplate}
    (h : (d.releaseHash id template).byId[k]? = some old) : d.byId[k]? = some old := by
  unfold releaseHash at h
  split at h
  · split at h
    · exact (getElem?_of_erase h).2
    · exact h
  · exact h

variable {kept : SideHeaderTemplate}

theorem byId_insertRxTemplate (h : (d.insertRxTemplate id template maxTemplates).byId[k]? = some kept) :
    (k = id ∧ kept = template) ∨ d.byId[k]? = some kept := by
  unfold insertRxTemplate at h
  split at h
  · exact .inr h
  simp only [getElem?_insert_eq] at h
  split at h
  · rename_i heq
    cases h
    exact .inl ⟨heq.symm, rfl⟩
  · have hbefore := byId_evictLowest h
    rw [releaseId_byId] at hbefore
    exact .inr (byId_releaseHash hbefore)

/-- Inserting a template the receiver keeps under this id changes no other entry. -/
theorem insertRxTemplate_known (h : d.WellFormed) (hmax : 0 < maxTemplates)
    (hknown : d.hashes[template.hash]? = some id) : (d.insertRxTemplate id template maxTemplates).byId[k]? =
      if id = k then some template else d.byId[k]? := by
  obtain ⟨old, hold, hhash⟩ := h.kept _ _ hknown
  have hrelease : d.releaseHash id template = d := by
    unfold releaseHash
    rw [hknown]
    simp
  have hreleaseId : d.releaseId id template = d := by
    unfold releaseId
    rw [hold]
    simp [hhash]
  unfold insertRxTemplate
  rw [if_neg (by omega)]
  simp only [hrelease, hreleaseId, evictLowest_of_some maxTemplates hold, getElem?_insert_eq]

/-- What a new template leaves alone: every other id, unless the dictionary is full and this is its
lowest hash. -/
theorem insertRxTemplate_new (h : d.WellFormed) (hmax : 0 < maxTemplates)
    (hnew : d.hashes[template.hash]? = none) (hk : d.byId[k]? = some kept) (hne : id ≠ k)
    (hstays : maxTemplates ≤ d.byId.size → d.byId[id]? = none → firstKey? d.hashes ≠ some kept.hash) :
    (d.insertRxTemplate id template maxTemplates).byId[k]? = some kept := by
  have hrelease : d.releaseHash id template = d := by
    unfold releaseHash
    rw [hnew]
  unfold insertRxTemplate
  rw [if_neg (by omega)]
  simp only [hrelease, getElem?_insert_eq]
  rw [if_neg hne]
  cases hid : d.byId[id]? with
  | some previous =>
    rw [evictLowest_of_some maxTemplates (by rw [releaseId_byId, hid]), releaseId_byId]
    exact hk
  | none =>
    rw [releaseId, hid]
    simp only
    unfold evictLowest
    split
    · rename_i hfull
      split
      · rename_i oldHash oldId hhead
        obtain ⟨hfirst, hold⟩ := firstEntry hhead
        simp only [getElem?_erase_eq]
        rw [if_neg, hk]
        rintro rfl
        obtain ⟨old, hkept, rfl⟩ := h.kept _ _ hold
        rw [hk] at hkept
        cases hkept
        exact hstays hfull.1 hid hfirst
      · exact hk
    · exact hk

theorem insertRxTemplate_self (d : RxDictionary) (id : UInt32) (template : SideHeaderTemplate) (hmax : 0 < maxTemplates) :
    (d.insertRxTemplate id template maxTemplates).byId[id]? = some template := by
  unfold insertRxTemplate
  rw [if_neg (by omega)]
  simp

/-! ### Whole runs -/

/-- The new template has room: where its id is new, a full dictionary has evicted another one. -/
theorem size_replace (h : d.WellFormed) (hmax : 0 < maxTemplates) (hsize : d.byId.size ≤ maxTemplates) :
    (((d.releaseId id template).evictLowest id maxTemplates).byId.insert id template).size ≤ maxTemplates := by
  rw [ExtTreeMap.size_insert]
  cases hid : d.byId[id]? with
  | some previous =>
    rw [evictLowest_of_some maxTemplates (by rw [releaseId_byId, hid]), releaseId_byId,
      if_pos (ExtTreeMap.mem_iff_contains.mp (mem_iff_exists.mpr ⟨previous, hid⟩))]
    exact hsize
  | none =>
    suffices hroom : (d.evictLowest id maxTemplates).byId.size < maxTemplates by
      rw [releaseId, hid]
      dsimp only
      split <;> omega
    unfold evictLowest
    split
    · split
      · rename_i oldHash oldId hhead
        obtain ⟨old, hold, -⟩ := h.kept _ _ (firstEntry hhead).2
        rw [size_erase_of_mem (mem_iff_exists.mpr ⟨old, hold⟩)]
        omega
      · rename_i hempty
        -- without a hash there is no template, so nothing was full
        have hnone : d.byId = ∅ := by
          rw [ExtTreeMap.eq_empty_iff_forall_not_mem]
          intro k hk
          obtain ⟨old, hold⟩ := mem_iff_exists.mp hk
          have hindex := h.indexed k old hold
          rw [List.head?_eq_none_iff, ExtTreeMap.toList_eq_nil_iff] at hempty
          simp [hempty] at hindex
        rw [hnone]
        simpa using hmax
    · rename_i hroom
      exact Nat.lt_of_not_le fun hfull => hroom ⟨hfull, hid⟩

/-- The invariant of a dictionary with a fixed limit. -/
structure Within (maxTemplates : ℕ) (d : RxDictionary) : Prop where
  wellFormed : d.WellFormed
  size : d.byId.size ≤ maxTemplates

theorem Within.insertRxTemplate (h : Within maxTemplates d) (id : UInt32) (template : SideHeaderTemplate) :
    Within maxTemplates (d.insertRxTemplate id template maxTemplates) := by
  refine ⟨h.wellFormed.insertRxTemplate id template maxTemplates, ?_⟩
  unfold RxDictionary.insertRxTemplate
  split
  · exact h.size
  · rename_i hmax
    apply size_replace (h.wellFormed.releaseHash id template) (Nat.pos_of_ne_zero hmax)
    refine le_trans (size_le_of_mem ?_) h.size
    intro k hk
    obtain ⟨old, hold⟩ := mem_iff_exists.mp hk
    exact mem_iff_exists.mpr ⟨old, byId_releaseHash hold⟩

/-- **The receive dictionary is a bijection.**  After every sequence of insertions, with the
evictions they cause, a hash leads to an id exactly when the template of that id has this hash, and
neither map holds more than the configured number of templates. -/
theorem receive_dictionary_bijection (maxTemplates : ℕ) (frames : List (UInt32 × SideHeaderTemplate)) :
    ∃ d, Runs.run (fun d f => d.insertRxTemplate f.1 f.2 maxTemplates) initial frames = d ∧
      (∀ (hash : UInt64) (id : UInt32), d.hashes[hash]? = some id ↔
        ∃ template, d.byId[id]? = some template ∧ template.hash = hash) ∧
      d.byId.size ≤ maxTemplates ∧ d.hashes.size ≤ maxTemplates := by
  refine ⟨_, rfl, ?_⟩
  have hinitial : Within maxTemplates initial := ⟨wellFormed_initial, by simp [initial]⟩
  have h := Runs.run_always (I := Within maxTemplates) (fun d f h => h.insertRxTemplate f.1 f.2) hinitial frames
  have hinverse := wellFormed_iff.mp h.wellFormed
  exact ⟨hinverse, h.size, hinverse.size_le.trans h.size⟩

end RxDictionary

/-! ### Synchrony -/

/-- Whatever the sender takes as known is kept by the receiver under the same id. -/
def Synced (tx : TxDictionary) (rx : RxDictionary) : Prop :=
  ∀ hash (id : UInt32), tx.ids[hash]? = some id →
    ∃ template, rx.byId[id]? = some template ∧ template.hash = hash

variable {tx : TxDictionary} {rx : RxDictionary}

theorem Synced.sub {tx' : TxDictionary} (h : Synced tx rx)
    (hsub : ∀ (hash : UInt64) (id : UInt32), tx'.ids[hash]? = some id → tx.ids[hash]? = some id) :
    Synced tx' rx := fun hash id hid => h hash id (hsub hash id hid)

/-- A full frame of a template the receiver keeps. -/
theorem Synced.known (h : Synced tx rx)
    (hwf : rx.WellFormed) {id : UInt32} {template : SideHeaderTemplate} {maxTemplates : ℕ}
    (hknown : rx.hashes[template.hash]? = some id) : Synced tx (rx.insertRxTemplate id template maxTemplates) := by
  intro hash id' hid
  obtain ⟨kept, hkept, hhash⟩ := h hash id' hid
  rcases Nat.eq_zero_or_pos maxTemplates with rfl | hmax
  · exact ⟨kept, by rwa [RxDictionary.insertRxTemplate], hhash⟩
  rw [RxDictionary.insertRxTemplate_known hwf hmax hknown]
  split
  · rename_i heq
    subst heq
    obtain ⟨old, hold, hold'⟩ := hwf.kept _ _ hknown
    rw [hold] at hkept
    cases hkept
    exact ⟨template, rfl, hold'.symm.trans hhash⟩
  · exact ⟨kept, hkept, hhash⟩

end SedsNet
