import SedsNet.PayloadCodec
import SedsNet.Runs

/-! # When a codec is permitted

`codec_permission` relates the permission of the ledger to the whole history of what it was told:
every peer it knows is confirmed, decodes, is alive and cannot be taken for another one; every sender
that was unknown has been learned or removed since; and every peer that was forgotten to save memory
is no longer alive.

`Inv` is the invariant of the state, and `Keeps` says what a step leaves of the senders that are
still unknown: a slot is freed only when it has expired or when its address is resolved. -/

namespace SedsNet

open Runs List

namespace Ledger

variable {l l' : Ledger} {ttl now clock : ℕ}

/-! ### Collisions -/

variable {p : CodecPeer}

theorem collides_iff {p other : CodecPeer} : p.collides other = true ↔
    (other.address = p.address ∨ other.aliasOf = p.address) ∨
      other.address = p.aliasOf ∨ other.aliasOf = p.aliasOf := by
  simp [CodecPeer.collides, CodecPeer.answersTo]

theorem collides_comm (p other : CodecPeer) : p.collides other = other.collides p := by
  rw [Bool.eq_iff_iff, collides_iff, collides_iff]
  grind

/-- No two peers share an address. -/
def Apart (peers : List CodecPeer) : Prop := peers.Pairwise fun other p => p.collides other = false

theorem apart_of_anyCollision {peers : List CodecPeer} (h : anyCollision peers = false) : Apart peers := by
  unfold Apart
  rw [pairwise_iff_getElem]
  intro i j hi hj hij
  rw [anyCollision, any_eq_false] at h
  have hlater := h (peers[j], j) (mem_zipIdx_iff_getElem?.mpr (List.getElem?_eq_getElem hj))
  rw [Bool.not_eq_true, any_eq_false] at hlater
  rw [← Bool.not_eq_true]
  exact hlater peers[i] (mem_take_iff_getElem.mpr ⟨i, by omega, rfl⟩)

theorem apart_congr {peers peers' : List CodecPeer}
    (h : peers'.map (fun p => (p.address, p.aliasOf)) = peers.map fun p => (p.address, p.aliasOf)) :
    Apart peers' ↔ Apart peers := by
  have hkeys : ∀ ps, Apart ps ↔ (ps.map fun p => (p.address, p.aliasOf)).Pairwise fun other p =>
      ¬ ((other.1 = p.1 ∨ other.2 = p.1) ∨ other.1 = p.2 ∨ other.2 = p.2) := by
    intro ps
    rw [pairwise_map]
    refine List.Pairwise.iff ?_
    intro other p
    rw [← Bool.not_eq_true, collides_iff]
  rw [hkeys, hkeys, h]

variable {α : Type}

theorem map_modify {β : Type} {g : α → β} {f : α → α} {peers : List α} {index : ℕ}
    (h : ∀ p, peers[index]? = some p → g (f p) = g p) : (peers.modify index f).map g = peers.map g := by
  refine List.ext_getElem? fun j => ?_
  rw [getElem?_map, getElem?_map, getElem?_modify, Option.map_eq_map, Option.map_map]
  refine Option.map_congr fun p hp => ?_
  by_cases hj : index = j
  · subst hj
    simp [h p hp]
  · simp [hj]

theorem mem_modify {f : α → α} {q : α} {peers : List α} {index : ℕ} (h : q ∈ peers.modify index f) :
    q ∈ peers ∨ ∃ p, peers[index]? = some p ∧ q = f p := by
  obtain ⟨j, hj⟩ := mem_iff_getElem?.mp h
  rw [getElem?_modify, Option.map_eq_map, Option.map_eq_some_iff] at hj
  obtain ⟨p, hp, rfl⟩ := hj
  split
  case isTrue heq =>
    subst heq
    exact .inr ⟨p, hp, rfl⟩
  case isFalse => exact .inl (mem_of_getElem? hp)

/-! ### The invariant -/

/-- What holds while compressed payloads are permitted. -/
structure Permitted (ttl clock : ℕ) (l : Ledger) : Prop where
  nonempty : l.peers ≠ []
  trusted : ∀ p ∈ l.peers, p.confirmed = true ∧ p.supported = true ∧ p.address ≠ 0
  unambiguous : l.ambiguous = false
  expiry : ∀ p ∈ l.peers, l.nextExpiry ≤ satAdd p.lastSeen ttl
  pending : ∀ q ∈ l.pending, q.untilMs = 0
  overflow : l.overflowUntil = 0 ∨ l.overflowUntil < clock

/-- What holds before a recomputation at the time `clock`. -/
structure Sound (ttl clock : ℕ) (l : Ledger) : Prop where
  seen : ∀ p ∈ l.peers, p.lastSeen ≤ clock
  named : ∀ p ∈ l.peers, p.aliasOf = senderAddressU32 p.sender
  overflow : l.overflowUntil ≤ satAdd clock ttl
  slots : ∀ q ∈ l.pending, q.untilMs ≤ satAdd clock ttl
  apart : l.recheckCollisions = true ∨ (l.ambiguous = false → Apart l.peers)

/-- The invariant at the time `clock`. -/
structure Inv (ttl clock : ℕ) (l : Ledger) : Prop extends Sound ttl clock l where
  settled : l.recheckCollisions = false
  permitted : l.allowed = true → Permitted ttl clock l

theorem satAdd_mono {a b : ℕ} (h : a ≤ b) (c : ℕ) : satAdd a c ≤ satAdd b c := by
  unfold satAdd
  omega

theorem Inv.unambiguous (h : Inv ttl clock l) (hambiguous : l.ambiguous = false) : Apart l.peers := by
  obtain hrecheck | hapart := h.apart
  · cases h.settled.symm.trans hrecheck
  · exact hapart hambiguous

theorem Sound.mono (h : Sound ttl clock l) (hle : clock ≤ now) : Sound ttl now l where
  seen := fun p hp => (h.seen p hp).trans hle
  named := h.named
  overflow := h.overflow.trans (satAdd_mono hle ttl)
  slots := fun q hq => (h.slots q hq).trans (satAdd_mono hle ttl)
  apart := h.apart

theorem Inv.mono (h : Inv ttl clock l) (hle : clock ≤ now) : Inv ttl now l where
  toSound := h.toSound.mono hle
  settled := h.settled
  permitted := by
    intro hallowed
    have hp := h.permitted hallowed
    exact ⟨hp.nonempty, hp.trusted, hp.unambiguous, hp.expiry, hp.pending, hp.overflow.imp_right fun hlt => hlt.trans_le hle⟩

theorem changedIf_eq (l : Ledger) (c : Bool) : ∃ generation, l.changedIf c = { l with generation } := by
  cases c
  · exact ⟨l.generation, rfl⟩
  · exact ⟨_, rfl⟩

theorem Sound.changedIf (h : Sound ttl clock l) (c : Bool) : Sound ttl clock (l.changedIf c) := by
  obtain ⟨g, hg⟩ := changedIf_eq l c
  rw [hg]
  exact ⟨h.seen, h.named, h.overflow, h.slots, h.apart⟩

theorem Inv.changedIf (h : Inv ttl clock l) (c : Bool) : Inv ttl clock (l.changedIf c) := by
  obtain ⟨g, hg⟩ := changedIf_eq l c
  rw [hg]
  refine ⟨⟨h.seen, h.named, h.overflow, h.slots, h.apart⟩, h.settled, ?_⟩
  intro hallowed
  have hp := h.permitted hallowed
  exact ⟨hp.nonempty, hp.trusted, hp.unambiguous, hp.expiry, hp.pending, hp.overflow⟩

theorem inv_new : Inv ttl 0 new := by
  refine ⟨⟨?_, ?_, Nat.zero_le _, ?_, .inr fun _ => List.Pairwise.nil⟩, rfl, ?_⟩
  · intro p hp
    cases hp
  · intro p hp
    cases hp
  · intro q hq
    rw [eq_of_mem_replicate hq]
    exact Nat.zero_le _
  · intro hallowed
    cases hallowed

/-! ### Recomputation -/

/-- A slot that is emptied has no time, and the others stay. -/
theorem mem_emptied {c : PendingAddress → Prop} [DecidablePred c] {slots : List PendingAddress} {q : PendingAddress}
    (h : q ∈ slots.map fun q => if c q then ⟨0, 0⟩ else q) : q.untilMs = 0 ∨ q ∈ slots := by
  obtain ⟨q', hq', rfl⟩ := mem_map.mp h
  split
  · exact .inl rfl
  · exact .inr hq'

theorem Sound.emptySlots (h : Sound ttl now l) (c : PendingAddress → Prop) [DecidablePred c] :
    Sound ttl now { l with pending := l.pending.map fun q => if c q then ⟨0, 0⟩ else q } := by
  refine ⟨h.seen, h.named, h.overflow, ?_, h.apart⟩
  intro q hq
  obtain hzero | hq := mem_emptied hq
  · rw [hzero]
    exact Nat.zero_le _
  · exact h.slots q hq

theorem Sound.dropExpired (h : Sound ttl now l) : Sound ttl now (l.dropExpired now ttl) where
  seen p hp := h.seen p (mem_of_mem_filter hp)
  named p hp := h.named p (mem_of_mem_filter hp)
  overflow := h.overflow
  slots := (h.emptySlots fun q => q.untilMs < now).slots
  apart := h.apart.imp_right fun hapart hambiguous => (hapart hambiguous).sublist filter_sublist

/-- After the check for collisions the flag tells the truth. -/
theorem Sound.recheck (h : Sound ttl now l) (before : ℕ) :
    Sound ttl now (l.recheck before) ∧ (l.recheck before).recheckCollisions = false := by
  unfold Ledger.recheck
  split
  · exact ⟨⟨h.seen, h.named, h.overflow, h.slots, .inr fun hclear => apart_of_anyCollision hclear⟩, rfl⟩
  · rename_i hnot
    rw [not_or, Bool.not_eq_true] at hnot
    exact ⟨h, hnot.2⟩

theorem favourable_true (h : l.favourable now = true) : l.peers ≠ [] ∧
    (l.overflowUntil = 0 ∨ l.overflowUntil < now) ∧ l.ambiguous = false ∧
    (∀ p ∈ l.peers, p.confirmed = true ∧ p.supported = true ∧ p.address ≠ 0) ∧ ∀ q ∈ l.pending, q.untilMs = 0 := by
  unfold favourable at h
  simp only [Bool.and_eq_true, Bool.not_eq_true', isEmpty_eq_false_iff, Bool.or_eq_true, beq_iff_eq,
    decide_eq_true_iff, all_eq_true, bne_iff_ne] at h
  obtain ⟨⟨⟨⟨⟨hpeers, hoverflow⟩, hambiguous⟩, htrusted⟩, hpending⟩, -⟩ := h
  exact ⟨hpeers, hoverflow, hambiguous, fun p hp => ⟨(htrusted p hp).1.1, (htrusted p hp).1.2, (htrusted p hp).2⟩,
    hpending⟩

theorem foldl_pending_le : ∀ (slots : List PendingAddress) init,
    slots.foldl (fun expiry q => if q.untilMs ≠ 0 then min expiry q.untilMs else expiry) init ≤ init := by
  intro slots
  induction slots with
  | nil =>
    intro init
    exact le_rfl
  | cons q slots ih =>
    intro init
    rw [foldl_cons]
    refine (ih _).trans ?_
    split
    · exact min_le_left _ _
    · exact le_rfl

/-- Nothing expires before the cached time. -/
theorem firstExpiry_le (hp : p ∈ l.peers) : l.firstExpiry now ttl ≤ satAdd p.lastSeen ttl := by
  have hpeers : l.peers.foldl (fun expiry p => min expiry (satAdd p.lastSeen ttl)) usizeMax ≤ satAdd p.lastSeen ttl := by
    rw [← foldl_map]
    exact (min?_eq_some_iff.mp min?_cons').2 _ (mem_cons_of_mem _ (mem_map_of_mem hp))
  have hpending := (foldl_pending_le l.pending _).trans hpeers
  unfold firstExpiry
  split
  · exact (min_le_left _ _).trans hpending
  · exact hpending

theorem Sound.recompute (h : Sound ttl now l) : Inv ttl now (l.recompute now ttl) := by
  obtain ⟨hsound, hsettled⟩ := h.dropExpired.recheck l.peers.length
  unfold Ledger.recompute
  dsimp only
  generalize (l.dropExpired now ttl).recheck l.peers.length = m at hsound hsettled ⊢
  obtain ⟨g, hg⟩ := changedIf_eq m (m.favourable now != m.allowed || l.peers.length != m.peers.length)
  rw [hg]
  refine ⟨⟨hsound.seen, hsound.named, hsound.overflow, hsound.slots, hsound.apart⟩, hsettled, ?_⟩
  intro hallowed
  obtain ⟨hpeers, hoverflow, hambiguous, htrusted, hpending⟩ := favourable_true hallowed
  exact ⟨hpeers, htrusted, hambiguous, fun p hp => firstExpiry_le hp, hpending, hoverflow⟩

/-! ### What is left of unknown senders -/

/-- A slot that is in use stays, with no earlier time, unless it has expired or its address is
cleared; and the overflow time does not go back. -/
structure Keeps (cleared : UInt32 → Prop) (now : ℕ) (l l' : Ledger) : Prop where
  overflow : l.overflowUntil ≤ l'.overflowUntil
  slots : ∀ q ∈ l.pending, q.untilMs ≠ 0 → q.untilMs < now ∨ cleared q.address ∨
    ∃ q' ∈ l'.pending, q'.address = q.address ∧ q.untilMs ≤ q'.untilMs

variable {cleared : UInt32 → Prop}

theorem Keeps.of_eq (hpending : l'.pending = l.pending) (hoverflow : l'.overflowUntil = l.overflowUntil) :
    Keeps cleared now l l' := by
  refine ⟨hoverflow.ge, ?_⟩
  intro q hq _
  rw [hpending]
  exact .inr (.inr ⟨q, hq, rfl, le_rfl⟩)

theorem Keeps.trans {l'' : Ledger} (h : Keeps cleared now l l') (h' : Keeps cleared now l' l'') :
    Keeps cleared now l l'' := by
  refine ⟨h.overflow.trans h'.overflow, ?_⟩
  intro q hq hne
  obtain hexpired | hcleared | ⟨q', hq', haddress, hle⟩ := h.slots q hq hne
  · exact .inl hexpired
  · exact .inr (.inl hcleared)
  · obtain hexpired | hcleared | ⟨q'', hq'', haddress', hle'⟩ := h'.slots q' hq' (by omega)
    · exact .inl (by omega)
    · rw [haddress] at hcleared
      exact .inr (.inl hcleared)
    · exact .inr (.inr ⟨q'', hq'', haddress'.trans haddress, hle.trans hle'⟩)

theorem changedIf_keeps (c : Bool) : Keeps cleared now l (l.changedIf c) := by
  obtain ⟨g, hg⟩ := changedIf_eq l c
  rw [hg]
  exact .of_eq rfl rfl

theorem recheck_keeps (before : ℕ) : Keeps cleared now l (l.recheck before) := by
  unfold recheck
  split
  · exact .of_eq rfl rfl
  · exact .of_eq rfl rfl

/-- A slot is emptied only when it has expired or its address is cleared. -/
theorem Keeps.emptySlots {c : PendingAddress → Prop} [DecidablePred c]
    (hpending : l'.pending = l.pending.map fun q => if c q then ⟨0, 0⟩ else q)
    (hoverflow : l'.overflowUntil = l.overflowUntil) (h : ∀ q, c q → q.untilMs < now ∨ cleared q.address) :
    Keeps cleared now l l' := by
  refine ⟨hoverflow.ge, ?_⟩
  intro q hq _
  by_cases hc : c q
  · exact (h q hc).imp_right .inl
  · refine .inr (.inr ⟨q, ?_, rfl, le_rfl⟩)
    rw [hpending]
    exact mem_map.mpr ⟨q, hq, if_neg hc⟩

theorem dropExpired_keeps : Keeps cleared now l (l.dropExpired now ttl) := .emptySlots rfl rfl fun _ => .inl

theorem recompute_keeps : Keeps cleared now l (l.recompute now ttl) := by
  have hchecked : Keeps cleared now l ((l.dropExpired now ttl).recheck l.peers.length) :=
    dropExpired_keeps.trans (recheck_keeps _)
  unfold recompute
  dsimp only
  generalize (l.dropExpired now ttl).recheck l.peers.length = m at hchecked ⊢
  have hchanged := hchecked.trans (changedIf_keeps (m.favourable now != m.allowed || l.peers.length != m.peers.length))
  exact ⟨hchanged.overflow, hchanged.slots⟩

theorem recomputeIf_keeps (c : Bool) : Keeps cleared now l (l.recomputeIf c now ttl) := by
  cases c
  · exact .of_eq rfl rfl
  · exact recompute_keeps

theorem clearPending_keeps (addresses : List UInt32) (hcleared : ∀ a ∈ addresses, cleared a) :
    Keeps cleared now l (l.clearPending addresses) := .emptySlots rfl rfl fun _ hq => .inr (hcleared _ hq.2)

theorem freeAddress_keeps (address : UInt32) (hcleared : cleared address) :
    Keeps cleared now l (l.freeAddress address) := by
  refine .emptySlots rfl rfl fun q hq => .inr ?_
  rw [hq]
  exact hcleared

/-- The sender of the address `a`, seen at the time `t`, is still waited for, or its time is over. -/
def Blocked (ttl clock : ℕ) (l : Ledger) (a : UInt32) (t : ℕ) : Prop :=
  (∃ q ∈ l.pending, q.address = a ∧ satAdd t ttl ≤ q.untilMs) ∨ satAdd t ttl ≤ l.overflowUntil ∨ satAdd t ttl < clock

theorem satAdd_pos {t : ℕ} (httl : 0 < ttl) : 0 < satAdd t ttl := by
  unfold satAdd usizeMax
  omega

theorem Blocked.keeps {a : UInt32} {t : ℕ} (h : Blocked ttl clock l a t) (httl : 0 < ttl)
    (hkeeps : Keeps cleared now l l') (hle : clock ≤ now) (hnot : ¬ cleared a) : Blocked ttl now l' a t := by
  have hpos : 0 < satAdd t ttl := satAdd_pos httl
  obtain ⟨q, hq, haddress, huntil⟩ | hoverflow | hexpired := h
  · obtain hexpired | hcleared | ⟨q', hq', haddress', hle'⟩ := hkeeps.slots q hq (by omega)
    · exact .inr (.inr (huntil.trans_lt hexpired))
    · rw [haddress] at hcleared
      exact absurd hcleared hnot
    · exact .inl ⟨q', hq', haddress'.trans haddress, huntil.trans hle'⟩
  · exact .inr (.inl (hoverflow.trans hkeeps.overflow))
  · exact .inr (.inr (hexpired.trans_le hle))

/-! ### Unknown senders -/

theorem updateFirst_some {p : α → Bool} {f : α → α} : ∀ {as as'},
    updateFirst p f as = some as' → ∃ pre a post, as = pre ++ a :: post ∧ p a = true ∧ as' = pre ++ f a :: post := by
  intro as
  induction as with
  | nil =>
    intro as' h
    cases h
  | cons b as ih =>
    intro as' h
    unfold updateFirst at h
    split at h
    · rename_i hb
      cases h
      exact ⟨[], b, as, rfl, hb, rfl⟩
    · obtain ⟨rest, hrest, rfl⟩ := Option.map_eq_some_iff.mp h
      obtain ⟨pre, a, post, rfl, ha, rfl⟩ := ih hrest
      exact ⟨b :: pre, a, post, rfl, ha, rfl⟩

/-- What an updated slot does to the slots: the others stay, and the new one is there. -/
theorem updateFirst_slots {p : PendingAddress → Bool} {f : PendingAddress → PendingAddress}
    {slots slots' : List PendingAddress} (h : updateFirst p f slots = some slots') :
    ∃ a ∈ slots, p a = true ∧ f a ∈ slots' ∧ (∀ q ∈ slots, q = a ∨ q ∈ slots') ∧ ∀ q ∈ slots', q = f a ∨ q ∈ slots := by
  obtain ⟨pre, a, post, rfl, ha, rfl⟩ := updateFirst_some h
  refine ⟨a, by simp, ha, by simp, ?_, ?_⟩
  · intro q hq
    rw [mem_append, mem_cons] at hq ⊢
    tauto
  · intro q hq
    rw [mem_append, mem_cons] at hq ⊢
    tauto

/-- What storing an unknown sender of the address leads to. -/
structure Stored (ttl now : ℕ) (l : Ledger) (address : UInt32) (l' : Ledger) : Prop where
  sound : Sound ttl now l'
  keeps : ∀ cleared, Keeps cleared now l l'
  blocked : Blocked ttl now l' address now
  settled : l'.recheckCollisions = l.recheckCollisions

theorem Stored.changedIf {address : UInt32} (h : Stored ttl now l address l') (c : Bool) :
    Stored ttl now l address (l'.changedIf c) := by
  refine ⟨h.sound.changedIf c, fun cleared => (h.keeps cleared).trans (changedIf_keeps c), ?_, ?_⟩ <;>
    obtain ⟨g, hg⟩ := changedIf_eq l' c
  · rw [hg]
    exact h.blocked
  · rw [hg]
    exact h.settled

theorem Sound.stored (h : Sound ttl now l) {wanted : PendingAddress → Bool} {f : PendingAddress → PendingAddress}
    {slots : List PendingAddress} {address : UInt32} (hslots : updateFirst wanted f l.pending = some slots)
    (hf : ∀ q, wanted q = true → f q = ⟨address, satAdd now ttl⟩)
    (hwanted : ∀ q, wanted q = true → q.address = address ∨ q.untilMs < now ∨ q.untilMs = 0) :
    Stored ttl now l address { l with pending := slots } := by
  obtain ⟨a, ha, hwant, hnew, hold, hback⟩ := updateFirst_slots hslots
  rw [hf a hwant] at hnew hback
  refine ⟨⟨h.seen, h.named, h.overflow, ?_, h.apart⟩, ?_, .inl ⟨_, hnew, rfl, le_rfl⟩, rfl⟩
  · intro q hq
    obtain rfl | hq := hback q hq
    · exact le_rfl
    · exact h.slots q hq
  · refine fun cleared => ⟨le_rfl, ?_⟩
    intro q hq hne
    obtain rfl | hq' := hold q hq
    · obtain hsame | hexpired | hfree := hwanted q hwant
      · exact .inr (.inr ⟨_, hnew, hsame.symm, h.slots q hq⟩)
      · exact .inl hexpired
      · exact absurd hfree hne
    · exact .inr (.inr ⟨q, hq', rfl, le_rfl⟩)

theorem Sound.storePending (h : Sound ttl now l) (address : UInt32) :
    Stored ttl now l address (l.storePending address now ttl) := by
  unfold Ledger.storePending
  dsimp only
  split
  · rename_i slots hslots
    refine h.stored hslots ?_ ?_
    · intro q hq
      rw [Bool.and_eq_true, beq_iff_eq] at hq
      rw [hq.2]
    · intro q hq
      rw [Bool.and_eq_true, beq_iff_eq] at hq
      exact .inl hq.2
  split
  · rename_i slots hslots
    refine (h.stored hslots (fun _ _ => rfl) ?_).changedIf true
    intro q hq
    rw [Bool.or_eq_true, decide_eq_true_iff, beq_iff_eq] at hq
    exact .inr hq
  · -- all slots are in use
    have hsound : Sound ttl now { l with overflowUntil := max l.overflowUntil (satAdd now ttl) } :=
      ⟨h.seen, h.named, max_le h.overflow le_rfl, h.slots, h.apart⟩
    refine Stored.changedIf (l := l) ⟨hsound, fun cleared => ⟨le_max_left _ _, ?_⟩, .inr (.inl (le_max_right _ _)), rfl⟩ _
    exact fun q hq _ => .inr (.inr ⟨q, hq, rfl, le_rfl⟩)

/-- An unknown sender withdraws the permission and is waited for. -/
theorem Inv.markPending (h : Inv ttl clock l) (hle : clock ≤ now) (address : UInt32) :
    Inv ttl now (l.markPending address now ttl) ∧ (∀ cleared, Keeps cleared now l (l.markPending address now ttl)) ∧
    Blocked ttl now (l.markPending address now ttl) address now := by
  have hstored := (h.toSound.mono hle).storePending address
  unfold Ledger.markPending
  dsimp only
  generalize l.storePending address now ttl = m at hstored ⊢
  obtain ⟨hsound, hkeeps, hblocked, hsettled⟩ := hstored.changedIf m.allowed
  refine ⟨⟨⟨hsound.seen, hsound.named, hsound.overflow, hsound.slots, hsound.apart⟩, hsettled.trans h.settled, ?_⟩, ?_,
    hblocked⟩
  · intro hallowed
    cases hallowed
  · intro cleared
    have hkept := hkeeps cleared
    exact ⟨hkept.overflow, hkept.slots⟩

/-! ### Peers -/

variable {index : ℕ}

/-- A peer is changed, and if its addresses are, the collisions are looked for again. -/
theorem Sound.modifyPeer (h : Sound ttl now l) {f : CodecPeer → CodecPeer}
    (hseen : ∀ p, l.peers[index]? = some p → p.lastSeen ≤ now → (f p).lastSeen ≤ now)
    (hnamed : ∀ p, l.peers[index]? = some p → p.aliasOf = senderAddressU32 p.sender →
      (f p).aliasOf = senderAddressU32 (f p).sender)
    (hkeys : l.recheckCollisions = true ∨
      ∀ p, l.peers[index]? = some p → (f p).address = p.address ∧ (f p).aliasOf = p.aliasOf) :
    Sound ttl now (l.modifyPeer index f) := by
  refine ⟨?_, ?_, h.overflow, h.slots, ?_⟩
  · intro q hq
    obtain hmem | ⟨p, hp, rfl⟩ := mem_modify hq
    · exact h.seen q hmem
    · exact hseen p hp (h.seen p (mem_of_getElem? hp))
  · intro q hq
    obtain hmem | ⟨p, hp, rfl⟩ := mem_modify hq
    · exact h.named q hmem
    · exact hnamed p hp (h.named p (mem_of_getElem? hp))
  · obtain hrecheck | hsame := hkeys
    · exact .inl hrecheck
    · refine h.apart.imp_right fun hapart hambiguous => ?_
      refine (apart_congr (map_modify ?_)).mpr (hapart hambiguous)
      intro p hp
      rw [(hsame p hp).1, (hsame p hp).2]

theorem Inv.touch (h : Inv ttl clock l) (hle : clock ≤ now) {f : CodecPeer → CodecPeer}
    (hf : ∀ p, l.peers[index]? = some p → f p = { p with lastSeen := now }) : Inv ttl now (l.modifyPeer index f) := by
  have hnow := h.mono hle
  have hmem : ∀ p, l.peers[index]? = some p → p ∈ l.peers := fun p hp => mem_of_getElem? hp
  refine ⟨?_, h.settled, ?_⟩
  · refine hnow.toSound.modifyPeer ?_ ?_ (.inr ?_)
    · intro p hp _
      rw [hf p hp]
    · intro p hp hnamed
      rw [hf p hp]
      exact hnamed
    · intro p hp
      rw [hf p hp]
      exact ⟨rfl, rfl⟩
  · intro hallowed
    have hperm := hnow.permitted hallowed
    refine ⟨?_, ?_, hperm.unambiguous, ?_, hperm.pending, hperm.overflow⟩
    · intro hnil
      exact hperm.nonempty (modify_eq_nil_iff.mp hnil)
    · intro q hq
      obtain hq | ⟨p, hp, rfl⟩ := mem_modify hq
      · exact hperm.trusted q hq
      · rw [hf p hp]
        exact hperm.trusted p (hmem p hp)
    · intro q hq
      obtain hq | ⟨p, hp, rfl⟩ := mem_modify hq
      · exact hperm.expiry q hq
      · rw [hf p hp]
        exact (hperm.expiry p (hmem p hp)).trans (satAdd_mono (hnow.seen p (hmem p hp)) ttl)

theorem Inv.recomputeIf (h : Inv ttl now l) (c : Bool) : Inv ttl now (l.recomputeIf c now ttl) := by
  cases c
  · exact h
  · exact h.toSound.recompute

theorem Inv.observe (h : Inv ttl clock l) (hle : clock ≤ now) (address : UInt32) :
    Inv ttl now (l.observe address now ttl) ∧ (∀ cleared, Keeps cleared now l (l.observe address now ttl)) ∧
    (l.uniqueAddress address now ttl = none → Blocked ttl now (l.observe address now ttl) address now) := by
  unfold Ledger.observe
  cases hunique : l.uniqueAddress address now ttl with
  | none =>
    obtain ⟨hinv, hkeeps, hblocked⟩ := h.markPending hle address
    exact ⟨hinv, hkeeps, fun _ => hblocked⟩
  | some index =>
    refine ⟨(h.touch hle fun p _ => rfl).recomputeIf _, ?_, ?_⟩
    · intro cleared
      have hsame : Keeps cleared now l (l.modifyPeer index fun p => { p with lastSeen := now }) := .of_eq rfl rfl
      exact hsame.trans (recomputeIf_keeps _)
    · intro hnone
      cases hnone

theorem Inv.revokeIfUnsupported (h : Inv ttl clock l) (hle : clock ≤ now) (address : UInt32) (supported : Bool) :
    Inv ttl now (l.revokeIfUnsupported address supported now ttl) ∧
    ∀ cleared, Keeps cleared now (l.observe address now ttl) (l.revokeIfUnsupported address supported now ttl) := by
  have hobserved := (h.observe hle address).1
  unfold Ledger.revokeIfUnsupported
  dsimp only
  generalize l.observe address now ttl = m at hobserved ⊢
  split
  · exact ⟨hobserved, fun _ => .of_eq rfl rfl⟩
  split
  · exact ⟨hobserved, fun _ => .of_eq rfl rfl⟩
  rename_i index _
  generalize m.peers[index]?.any CodecPeer.supported = c
  have hmodified : Sound ttl now (m.modifyPeer index fun p => { p with supported := false }) :=
    hobserved.toSound.modifyPeer (fun _ _ h => h) (fun _ _ h => h) (.inr fun p _ => ⟨rfl, rfl⟩)
  refine ⟨(hmodified.changedIf c).recompute, ?_⟩
  intro cleared
  have hsame : Keeps cleared now m (m.modifyPeer index fun p => { p with supported := false }) := .of_eq rfl rfl
  exact (hsame.trans (changedIf_keeps c)).trans recompute_keeps

/-! ### Identities -/

theorem Inv.clearPending (h : Inv ttl now l) (addresses : List UInt32) : Inv ttl now (l.clearPending addresses) := by
  refine ⟨h.toSound.emptySlots _, h.settled, ?_⟩
  intro hallowed
  have hperm := h.permitted hallowed
  refine ⟨hperm.nonempty, hperm.trusted, hperm.unambiguous, hperm.expiry, ?_, hperm.overflow⟩
  intro q hq
  exact (mem_emptied hq).elim id (hperm.pending q)

theorem Sound.finishLearn (h : Sound ttl now l) (addresses : List UInt32) {changed : Bool}
    (hunchanged : changed = false → Inv ttl now l) : Inv ttl now (l.finishLearn addresses changed now ttl) := by
  generalize (l.pending.any fun q => q.untilMs != 0 && addresses.contains q.address) = freed
  cases hchanged : changed with
  | true => exact Sound.recompute (Sound.changedIf (h.emptySlots _) _)
  | false => exact (((hunchanged hchanged).clearPending addresses).changedIf _).recomputeIf _

theorem finishLearn_keeps {m : Ledger} {addresses : List UInt32} {changed : Bool}
    (hpending : m.pending = l.pending) (hoverflow : m.overflowUntil = l.overflowUntil)
    (hcleared : ∀ a ∈ addresses, cleared a) : Keeps cleared now l (m.finishLearn addresses changed now ttl) := by
  refine ((Keeps.of_eq hpending hoverflow).trans ?_).trans (recomputeIf_keeps _)
  exact (clearPending_keeps addresses hcleared).trans (changedIf_keeps _)

theorem Inv.learnKnown (h : Inv ttl clock l) (hle : clock ≤ now)
    (hp : l.peers[index]? = some p) {id : CodecIdentity} (hsender : p.sender = id.sender) :
    Inv ttl now (l.learnKnown index p id now ttl) := by
  have hmem : p ∈ l.peers := mem_of_getElem? hp
  have halias : senderAddressU32 id.sender = p.aliasOf := by
    rw [h.named p hmem, hsender]
  refine Sound.finishLearn ?_ _ ?_
  · have hrecheck : Sound ttl now { l with recheckCollisions := l.recheckCollisions || p.address != id.address } := by
      have hnow := h.toSound.mono hle
      refine ⟨hnow.seen, hnow.named, hnow.overflow, hnow.slots, ?_⟩
      exact hnow.apart.imp_left fun hr => by rw [hr, Bool.true_or]
    refine hrecheck.modifyPeer (fun _ _ _ => le_rfl) ?_ ?_
    · intro q _ _
      change senderAddressU32 id.sender = senderAddressU32 p.sender
      rw [hsender]
    · by_cases haddress : p.address = id.address
      · refine .inr fun q hq => ?_
        cases hp.symm.trans hq
        exact ⟨haddress.symm, halias⟩
      · left
        rw [bne_iff_ne.mpr haddress, Bool.or_true]
  · -- without a change the peer is only seen again
    intro hunchanged
    rw [Bool.or_eq_false_iff, Bool.or_eq_false_iff, Bool.or_eq_false_iff, decide_eq_false_iff_not, not_or, not_not,
      not_not, Bool.not_eq_false', bne_eq_false_iff_eq, bne_eq_false_iff_eq] at hunchanged
    obtain ⟨⟨⟨⟨howner, hbirth⟩, hconfirmed⟩, hsupported⟩, haddress⟩ := hunchanged
    have hsame : ({ l with recheckCollisions := l.recheckCollisions || p.address != id.address } : Ledger) = l := by
      rw [haddress, bne_self_eq_false, Bool.or_false]
    rw [hsame]
    refine h.touch hle ?_
    intro q hq
    cases hp.symm.trans hq
    unfold relearn at hsupported ⊢
    dsimp only at hsupported ⊢
    rw [hsupported, ← haddress, halias, ← howner, ← hbirth, ← hconfirmed]

theorem position_le (sender : Bytes) : (l.position sender).1 ≤ l.peers.length := by
  exact (takeWhile_sublist _).length_le

theorem Inv.learnNew (h : Inv ttl clock l) (hle : clock ≤ now) (hindex : index ≤ l.peers.length)
    (id : CodecIdentity) : Inv ttl now (l.learnNew index id now ttl) := by
  have hnow := h.toSound.mono hle
  refine Sound.finishLearn ?_ _ fun hfalse => by cases hfalse
  have hperm := perm_insertIdx (newPeer id now) l.peers hindex
  have hback : ∀ p ∈ l.peers.insertIdx index (newPeer id now), p = newPeer id now ∨ p ∈ l.peers :=
    fun p hp => mem_cons.mp (hperm.mem_iff.mp hp)
  refine ⟨?_, ?_, hnow.overflow, hnow.slots, .inr ?_⟩
  · intro p hp
    obtain rfl | hp := hback p hp
    · exact le_rfl
    · exact hnow.seen p hp
  · intro p hp
    obtain rfl | hp := hback p hp
    · rfl
    · exact hnow.named p hp
  · intro hambiguous
    rw [Bool.or_eq_false_iff] at hambiguous
    have hsymm : ∀ {other p : CodecPeer}, p.collides other = false → other.collides p = false := by
      intro other p hp
      rw [collides_comm]
      exact hp
    refine (hperm.pairwise_iff hsymm).mpr (pairwise_cons.mpr ⟨?_, h.unambiguous hambiguous.1⟩)
    intro other hother
    rw [collides_comm, ← Bool.not_eq_true]
    exact any_eq_false.mp hambiguous.2 other hother

/-- The identity is recorded, and frees the slots of its addresses. -/
def Learned (l : Ledger) (id : CodecIdentity) (now ttl : ℕ) (refusal : Option TelemetryError) (a : UInt32) : Prop :=
  id.sender ≠ [] ∧ (l.learn id now ttl refusal).2 = .ok () ∧ (a = id.address ∨ a = senderAddressU32 id.sender)

theorem position_known {sender : Bytes} {p : CodecPeer} (hknown : (l.position sender).2 = true)
    (hp : l.peers[(l.position sender).1]? = some p) : p.sender = sender := by
  unfold position at hknown hp
  dsimp only at hknown hp
  rw [hp, Option.any_some, beq_iff_eq] at hknown
  exact hknown

theorem Inv.learn (h : Inv ttl clock l) (hle : clock ≤ now) (id : CodecIdentity) (refusal : Option TelemetryError) :
    Inv ttl now (l.learn id now ttl refusal).1 ∧
    Keeps (l.Learned id now ttl refusal) now l (l.learn id now ttl refusal).1 := by
  unfold Learned Ledger.learn
  split
  · obtain ⟨hinv, hkeeps, -⟩ := h.markPending hle id.address
    exact ⟨hinv, hkeeps _⟩
  rename_i hsender
  have hknown := @position_known l id.sender
  have hindex := position_le (l := l) id.sender
  generalize l.position id.sender = found at hknown hindex ⊢
  obtain ⟨index, known⟩ := found
  dsimp only at hknown hindex ⊢
  split
  · rename_i p hp
    refine ⟨h.learnKnown hle hp (hknown rfl hp), ?_⟩
    refine finishLearn_keeps rfl rfl ?_
    intro a ha
    exact ⟨hsender, rfl, mem_pair.mp ha⟩
  · split
    · exact ⟨h.mono hle, .of_eq rfl rfl⟩
    split
    · obtain ⟨hinv, hkeeps, -⟩ := h.markPending hle id.address
      exact ⟨hinv, hkeeps _⟩
    · refine ⟨h.learnNew hle hindex id, ?_⟩
      dsimp only [Ledger.learnNew]
      refine finishLearn_keeps rfl rfl ?_
      intro a ha
      exact ⟨hsender, rfl, mem_pair.mp ha⟩

theorem Inv.distrust (h : Inv ttl now l) (index : ℕ) (different : Bool) : Inv ttl now (l.distrust index different) := by
  have hmodified : Sound ttl now (l.modifyPeer index fun p =>
      { p with supported := false, confirmed := p.confirmed && !different }) :=
    h.toSound.modifyPeer (fun _ _ h => h) (fun _ _ h => h) (.inr fun p _ => ⟨rfl, rfl⟩)
  refine ⟨⟨hmodified.seen, hmodified.named, hmodified.overflow, hmodified.slots, hmodified.apart⟩, h.settled, ?_⟩
  intro hallowed
  cases hallowed

theorem Inv.hintAddress (h : Inv ttl clock l) (hle : clock ≤ now) (id : CodecIdentity) :
    Inv ttl now (l.hintAddress id now ttl) ∧ ∀ cleared, Keeps cleared now l (l.hintAddress id now ttl) := by
  have hnow := h.mono hle
  unfold Ledger.hintAddress
  dsimp only
  split
  · split
    · exact ⟨hnow.distrust _ _, fun _ => .of_eq rfl rfl⟩
    · exact ⟨hnow, fun _ => .of_eq rfl rfl⟩
  · obtain ⟨hinv, hkeeps, -⟩ := h.markPending hle id.address
    obtain ⟨hinv', hkeeps', -⟩ := hinv.markPending le_rfl (senderAddressU32 id.sender)
    exact ⟨hinv', fun cleared => (hkeeps cleared).trans (hkeeps' cleared)⟩

/-! ### Removal -/

theorem Sound.removePeer (h : Sound ttl now l) (index : ℕ) :
    Sound ttl now (l.removePeer index) ∧ ∀ cleared, Keeps cleared now l (l.removePeer index) := by
  unfold Ledger.removePeer
  split
  · exact ⟨h, fun _ => .of_eq rfl rfl⟩
  · refine ⟨⟨?_, ?_, h.overflow, h.slots, .inl rfl⟩, fun _ => .of_eq rfl rfl⟩
    · intro p hp
      exact h.seen p (mem_of_mem_eraseIdx hp)
    · intro p hp
      exact h.named p (mem_of_mem_eraseIdx hp)

theorem Inv.removeAddress (h : Inv ttl clock l) (hle : clock ≤ now) (address : UInt32) :
    Inv ttl now (l.removeAddress address now ttl) ∧
    Keeps (fun a => a = address) now l (l.removeAddress address now ttl) := by
  have hnow := h.toSound.mono hle
  unfold Ledger.removeAddress
  split
  · refine ⟨(hnow.emptySlots _).recompute, Keeps.trans ?_ recompute_keeps⟩
    exact freeAddress_keeps address rfl
  · rename_i index _
    obtain ⟨hremoved, hkeeps⟩ := hnow.removePeer index
    refine ⟨(hremoved.emptySlots _).recompute, Keeps.trans ?_ recompute_keeps⟩
    exact (hkeeps _).trans (freeAddress_keeps address rfl)

theorem Sound.forget (h : Sound ttl now l) {untilMs : ℕ} (huntil : untilMs ≤ satAdd now ttl) :
    Inv ttl now (l.forget untilMs) := by
  refine ⟨⟨?_, ?_, huntil, h.slots, .inr fun _ => List.Pairwise.nil⟩, rfl, ?_⟩
  · intro p hp
    cases hp
  · intro p hp
    cases hp
  · intro hallowed
    cases hallowed

theorem forget_keeps {untilMs : ℕ} (h : l.overflowUntil ≤ untilMs) :
    Keeps cleared now l (l.forget untilMs) :=
  ⟨h, fun q hq _ => .inr (.inr ⟨q, hq, rfl, le_rfl⟩)⟩

theorem foldl_max_spec {xs : List ℕ} {bound : ℕ} (h : ∀ x ∈ xs, x ≤ bound) :
    (∀ x ∈ xs, x ≤ xs.foldl max 0) ∧ xs.foldl max 0 ≤ bound := by
  obtain ⟨hmem, hle⟩ := max?_eq_some_iff.mp (@max?_cons' ℕ 0 _ xs)
  refine ⟨fun x hx => hle x (mem_cons_of_mem 0 hx), ?_⟩
  obtain hzero | hmem := mem_cons.mp hmem
  · rw [hzero]
    exact Nat.zero_le bound
  · exact h _ hmem

/-- Peers are forgotten, but the time until which they may be alive is kept. -/
theorem Inv.evictForBudget (h : Inv ttl clock l) :
    Inv ttl clock (l.evictForBudget ttl) ∧ (∀ cleared, Keeps cleared clock l (l.evictForBudget ttl)) ∧
    ∀ p ∈ l.peers, p ∈ (l.evictForBudget ttl).peers ∨ satAdd p.lastSeen ttl ≤ (l.evictForBudget ttl).overflowUntil := by
  unfold Ledger.evictForBudget
  split
  · exact ⟨h, fun _ => .of_eq rfl rfl, fun p hp => .inl hp⟩
  have hall : ∀ x ∈ (l.peers.map fun p => satAdd p.lastSeen ttl) ++ l.pending.map PendingAddress.untilMs ++
      [l.overflowUntil], x ≤ satAdd clock ttl := by
    intro x hx
    rw [mem_append, mem_append, mem_map, mem_map, mem_singleton] at hx
    obtain (⟨p, hp, rfl⟩ | ⟨q, hq, rfl⟩) | rfl := hx
    · exact satAdd_mono (h.seen p hp) ttl
    · exact h.slots q hq
    · exact h.overflow
  obtain ⟨hmem, hbound⟩ := foldl_max_spec hall
  refine ⟨h.toSound.forget hbound, fun _ => forget_keeps ?_, fun p hp => .inr ?_⟩
  · exact hmem _ (by simp)
  · refine hmem _ ?_
    rw [mem_append, mem_append]
    exact .inl (.inl (mem_map.mpr ⟨p, hp, rfl⟩))

theorem Inv.evict (h : Inv ttl clock l) (hle : clock ≤ now) :
    Inv ttl now (l.evict now ttl) ∧ (∀ cleared, Keeps cleared now l (l.evict now ttl)) ∧
    ∀ p ∈ l.peers, satAdd p.lastSeen ttl ≤ (l.evict now ttl).overflowUntil := by
  have hnow := h.toSound.mono hle
  exact ⟨hnow.forget le_rfl, fun _ => forget_keeps hnow.overflow, fun p hp => satAdd_mono (hnow.seen p hp) ttl⟩

/-! ### Steps -/

def Event.time : Event → Option ℕ
  | .observe _ now | .revokeIfUnsupported _ _ now | .learn _ now _ | .hintAddress _ now | .removeAddress _ now |
    .evict now | .expire now => some now
  | .evictForBudget => none

/-- The event reports that a frame of the address has arrived. -/
def Event.Observes : Event → UInt32 → ℕ → Prop
  | .observe address now, a, t | .revokeIfUnsupported address _ now, a, t => a = address ∧ t = now
  | _, _, _ => False

/-- The event makes the address known, or removes it. -/
def Resolves (ttl : ℕ) (l : Ledger) : Event → UInt32 → Prop
  | .learn id now refusal, a => l.Learned id now ttl refusal a
  | .removeAddress address _, a => a = address
  | _, _ => False

/-- The event forgets peers to save memory. -/
def Event.Evicts : Event → Prop
  | .evictForBudget | .evict _ => True
  | _ => False

/-- What one step does to the ledger at the time `now`. -/
structure Stepped (ttl now : ℕ) (l : Ledger) (e : Event) : Prop where
  inv : Inv ttl now (l.step ttl e)
  keeps : Keeps (l.Resolves ttl e) now l (l.step ttl e)
  blocked : ∀ a t, e.Observes a t → l.uniqueAddress a t ttl = none → Blocked ttl now (l.step ttl e) a t
  evicted : e.Evicts → ∀ p ∈ l.peers, p ∈ (l.step ttl e).peers ∨ satAdd p.lastSeen ttl ≤ (l.step ttl e).overflowUntil

variable {e : Event}

theorem Inv.step (h : Inv ttl clock l) (httl : 0 < ttl) (htime : ∀ t, e.time = some t → clock ≤ t) :
    Stepped ttl (e.time.getD clock) l e := by
  cases e with
  | observe address now =>
    obtain ⟨hinv, hkeeps, hblocked⟩ := h.observe (htime now rfl) address
    refine ⟨hinv, hkeeps _, ?_, fun hno => hno.elim⟩
    rintro a t ⟨rfl, rfl⟩ hnone
    exact hblocked hnone
  | revokeIfUnsupported address supported now =>
    have hle := htime now rfl
    obtain ⟨-, hobserved, hblocked⟩ := h.observe hle address
    obtain ⟨hinv, hkeeps⟩ := h.revokeIfUnsupported hle address supported
    refine ⟨hinv, (hobserved _).trans (hkeeps _), ?_, fun hno => hno.elim⟩
    rintro a t ⟨rfl, rfl⟩ hnone
    exact (hblocked hnone).keeps httl (hkeeps fun _ => False) le_rfl id
  | learn id now refusal =>
    obtain ⟨hinv, hkeeps⟩ := h.learn (htime now rfl) id refusal
    exact ⟨hinv, hkeeps, fun _ _ hno => hno.elim, fun hno => hno.elim⟩
  | hintAddress id now =>
    obtain ⟨hinv, hkeeps⟩ := h.hintAddress (htime now rfl) id
    exact ⟨hinv, hkeeps _, fun _ _ hno => hno.elim, fun hno => hno.elim⟩
  | removeAddress address now =>
    obtain ⟨hinv, hkeeps⟩ := h.removeAddress (htime now rfl) address
    exact ⟨hinv, hkeeps, fun _ _ hno => hno.elim, fun hno => hno.elim⟩
  | evictForBudget =>
    obtain ⟨hinv, hkeeps, hevicted⟩ := h.evictForBudget
    exact ⟨hinv, hkeeps _, fun _ _ hno => hno.elim, fun _ => hevicted⟩
  | evict now =>
    obtain ⟨hinv, hkeeps, hevicted⟩ := h.evict (htime now rfl)
    exact ⟨hinv, hkeeps _, fun _ _ hno => hno.elim, fun _ p hp => .inr (hevicted p hp)⟩
  | expire now =>
    exact ⟨(h.mono (htime now rfl)).recomputeIf _, recomputeIf_keeps _, fun _ _ hno => hno.elim, fun hno => hno.elim⟩

/-! ### Histories -/

/-- The loop finds the one peer that is wanted. -/
theorem uniqueLoop_eq_none (wanted : CodecPeer → Bool) (peers : List CodecPeer) : ∀ index found,
    uniqueLoop wanted peers index found = none ↔ found.isSome.toNat + peers.countP wanted ≠ 1 := by
  induction peers with
  | nil =>
    intro index found
    unfold uniqueLoop
    cases found <;> simp
  | cons p peers ih =>
    intro index found
    unfold uniqueLoop
    by_cases hp : wanted p = true
    · rw [if_pos hp, countP_cons_of_pos hp]
      cases found with
      | none =>
        rw [if_neg (by simp), ih]
        simp only [Option.isSome_some, Option.isSome_none, Bool.toNat_true, Bool.toNat_false]
        omega
      | some k =>
        simp
    · rw [if_neg hp, countP_cons_of_neg hp, ih]

/-- Exactly one live peer answers to the address. -/
def KnownAt (l : Ledger) (address : UInt32) (now ttl : ℕ) : Prop :=
  (l.peers.countP fun p => p.answersTo address && p.isLive now ttl) = 1

theorem uniqueAddress_eq_none {address : UInt32} : l.uniqueAddress address now ttl = none ↔ ¬ KnownAt l address now ttl := by
  unfold uniqueAddress KnownAt
  rw [uniqueLoop_eq_none]
  simp

/-- The times of the events. -/
def times (es : List Event) : List ℕ := es.filterMap Event.time

/-- The latest time so far. -/
def latest (es : List Event) : ℕ := (times es).foldl max 0

variable {es : List Event}

theorem latest_le {bound : ℕ} (h : ∀ t ∈ times es, t ≤ bound) : latest es ≤ bound :=
  (foldl_max_spec h).2

theorem times_concat (es : List Event) (e : Event) : times (es ++ [e]) = times es ++ e.time.toList := by
  unfold times
  cases h : e.time with
  | none | some => simp [h]

/-- The next event is not before the latest time, which it sets. -/
theorem latest_concat (h : (times (es ++ [e])).Pairwise (· ≤ ·)) :
    (∀ t, e.time = some t → latest es ≤ t) ∧ latest (es ++ [e]) = e.time.getD (latest es) := by
  rw [times_concat, pairwise_append] at h
  have hle : ∀ t, e.time = some t → latest es ≤ t := by
    intro t ht
    refine latest_le fun x hx => h.2.2 x hx t ?_
    rw [ht]
    exact mem_singleton_self t
  refine ⟨hle, ?_⟩
  unfold latest
  rw [times_concat, foldl_append]
  cases ht : e.time with
  | none => rfl
  | some t => exact max_eq_right (hle t ht)

/-- An unknown address that was observed has been resolved since, or is still waited for. -/
def Accounted (ttl : ℕ) (es : List Event) (l : Ledger) : Prop :=
  ∀ i e a t, es[i]? = some e → e.Observes a t → ¬ KnownAt (before (step ttl) new es i) a t ttl →
    (∃ j e', i < j ∧ es[j]? = some e' ∧ Resolves ttl (before (step ttl) new es j) e' a) ∨
    Blocked ttl (latest es) l a t

/-- The lease of a peer that was forgotten is covered by the overflow time. -/
def Covered (ttl : ℕ) (es : List Event) (l : Ledger) : Prop :=
  ∀ i e p, es[i]? = some e → e.Evicts → p ∈ (before (step ttl) new es i).peers →
    p ∈ (before (step ttl) new es (i + 1)).peers ∨ satAdd p.lastSeen ttl ≤ l.overflowUntil

theorem Stepped.accounted (hstep : Stepped ttl (latest (es ++ [e])) (run (step ttl) new es) e)
    (httl : 0 < ttl) (hle : latest es ≤ latest (es ++ [e])) (h : Accounted ttl es (run (step ttl) new es)) :
    Accounted ttl (es ++ [e]) ((run (step ttl) new es).step ttl e) := by
  intro i e₁ a t he₁ hobserves hunknown
  obtain ⟨hi, he₁⟩ | ⟨rfl, rfl⟩ := getElem?_concat_cases he₁
  · rw [before_append hi.le] at hunknown
    obtain ⟨j, e', hij, he', hresolves⟩ | hblocked := h i e₁ a t he₁ hobserves hunknown
    · refine .inl ⟨j, e', hij, getElem?_append_of_some he', ?_⟩
      rw [before_of_some he']
      exact hresolves
    · by_cases hresolves : Resolves ttl (run (step ttl) new es) e a
      · refine .inl ⟨es.length, e, hi, List.getElem?_concat_length, ?_⟩
        rw [before_concat]
        exact hresolves
      · exact .inr (hblocked.keeps httl hstep.keeps hle hresolves)
  · rw [before_concat] at hunknown
    exact .inr (hstep.blocked a t hobserves (uniqueAddress_eq_none.mpr hunknown))

theorem Stepped.covered (hstep : Stepped ttl now (run (step ttl) new es) e)
    (h : Covered ttl es (run (step ttl) new es)) : Covered ttl (es ++ [e]) ((run (step ttl) new es).step ttl e) := by
  intro i e₁ p he₁ hevicts hp
  obtain ⟨hi, he₁⟩ | ⟨rfl, rfl⟩ := getElem?_concat_cases he₁
  · rw [before_append hi.le] at hp
    rw [before_append (Nat.succ_le_of_lt hi)]
    exact (h i e₁ p he₁ hevicts hp).imp_right fun hle => hle.trans hstep.keeps.overflow
  · rw [before_succ he₁, before_concat]
    rw [before_concat] at hp
    exact hstep.evicted hevicts p hp

theorem run_inv (httl : 0 < ttl) (es : List Event) (htimes : (times es).Pairwise (· ≤ ·)) :
    Inv ttl (latest es) (run (step ttl) new es) ∧ Accounted ttl es (run (step ttl) new es) ∧
    Covered ttl es (run (step ttl) new es) := by
  revert htimes
  refine history_invariant (P := fun es l => (times es).Pairwise (· ≤ ·) →
    Inv ttl (latest es) l ∧ Accounted ttl es l ∧ Covered ttl es l) ?_ ?_ es
  · intro _
    refine ⟨inv_new, ?_, ?_⟩
    · intro i e a t he
      simp at he
    · intro i e p he
      simp at he
  · intro es e ih htimes
    obtain ⟨hle, hlatest⟩ := latest_concat htimes
    rw [times_concat, pairwise_append] at htimes
    obtain ⟨hinv, haccounted, hcovered⟩ := ih htimes.1
    have hstep := hinv.step httl hle
    rw [← hlatest] at hstep
    have hmono : latest es ≤ latest (es ++ [e]) := by
      rw [hlatest]
      cases ht : e.time with
      | none => exact le_rfl
      | some t => exact hle t ht
    exact ⟨hstep.inv, hstep.accounted httl hmono haccounted, hstep.covered hcovered⟩

/-! ### The permission -/

/-- Every retained peer is trusted, alive at the time `now` and told apart from the others. -/
structure Trusted (ttl now : ℕ) (l : Ledger) : Prop where
  nonempty : l.peers ≠ []
  peers : ∀ p ∈ l.peers, p.confirmed = true ∧ p.supported = true ∧ p.address ≠ 0 ∧ now ≤ p.lastSeen + ttl
  apart : Apart l.peers

/-- **Codec permission**: when compressed payloads are permitted, every retained peer is trusted;
every address observed within the last `ttl` that did not belong to exactly one live peer then has
been learned or removed since; and every peer that was evicted was last seen more than `ttl` ago.
Times are those of a `u64` clock. -/
theorem codec_permission (ttl : ℕ) (httl : 0 < ttl) (es : List Event) (htimes : (times es).Pairwise (· ≤ ·))
    (now : ℕ) (hnow : ∀ t ∈ times es, t ≤ now) (hclock : now ≤ usizeMax)
    (hallowed : (run (step ttl) new es).allowedAt now = true) : Trusted ttl now (run (step ttl) new es) ∧
    (∀ i e a t, es[i]? = some e → e.Observes a t → now ≤ t + ttl → ¬ KnownAt (before (step ttl) new es i) a t ttl →
      ∃ j e', i < j ∧ es[j]? = some e' ∧ Resolves ttl (before (step ttl) new es j) e' a) ∧
    (∀ i e p, es[i]? = some e → e.Evicts → p ∈ (before (step ttl) new es i).peers →
      p ∉ (before (step ttl) new es (i + 1)).peers → p.lastSeen + ttl < now) := by
  obtain ⟨hinv, haccounted, hcovered⟩ := run_inv httl es htimes
  have hlatest : latest es ≤ now := latest_le hnow
  unfold allowedAt at hallowed
  rw [Bool.and_eq_true, decide_eq_true_iff] at hallowed
  have hperm := hinv.permitted hallowed.1
  -- a time that the overflow still covers is over
  have hover : ∀ t, satAdd t ttl ≤ (run (step ttl) new es).overflowUntil → t + ttl < now := by
    intro t ht
    have hpos : 0 < satAdd t ttl := satAdd_pos httl
    have hoverflow := hperm.overflow
    unfold satAdd at ht hpos
    omega
  refine ⟨⟨hperm.nonempty, ?_, hinv.unambiguous hperm.unambiguous⟩, ?_, ?_⟩
  · intro p hp
    obtain ⟨hconfirmed, hsupported, haddress⟩ := hperm.trusted p hp
    refine ⟨hconfirmed, hsupported, haddress, ?_⟩
    have hexpiry := hperm.expiry p hp
    unfold satAdd at hexpiry
    omega
  · intro i e a t he hobserves hrecent hunknown
    refine (haccounted i e a t he hobserves hunknown).resolve_right ?_
    rintro (⟨q, hq, -, huntil⟩ | hoverflow | hexpired)
    · have hpos : 0 < satAdd t ttl := satAdd_pos httl
      rw [hperm.pending q hq] at huntil
      omega
    · have hlt := hover t hoverflow
      omega
    · unfold satAdd at hexpired
      omega
  · intro i e p he hevicts hp hdropped
    exact hover p.lastSeen ((hcovered i e p he hevicts hp).resolve_left hdropped)

/-- A peer is evicted; later an unknown sender at the address nine announces itself. -/
def learnedSender : List Event :=
  [.learn ⟨7, [0x4D], 7, 1, true⟩ 1 none, .evict 2, .observe 9 200, .learn ⟨9, [0x4E], 9, 1, true⟩ 201 none]

theorem codec_permission_learned : Trusted 100 203 (run (step 100) new learnedSender) ∧
    (∃ j e', 2 < j ∧ learnedSender[j]? = some e' ∧ Resolves 100 (before (step 100) new learnedSender j) e' 9) ∧
    (before (step 100) new learnedSender 1).peers.length = 1 ∧
    ∀ p ∈ (before (step 100) new learnedSender 1).peers, p.lastSeen + 100 < 203 := by
  have h := codec_permission 100 (by decide) learnedSender (by decide) 203 (by decide) (by decide) (by decide +kernel)
  have hnone : (before (step 100) new learnedSender 2).peers = [] := by decide +kernel
  refine ⟨h.1, h.2.1 2 (.observe 9 200) 9 200 rfl ⟨rfl, rfl⟩ (by decide) ?_, by decide +kernel, fun p hp => ?_⟩
  · unfold KnownAt
    decide +kernel
  · exact h.2.2 1 (.evict 2) p rfl trivial hp (hnone ▸ not_mem_nil)

end Ledger

end SedsNet
