import SedsNet.Runs
import SedsNet.Schema

/-! # Compact type statistics

The counters of a data type on a side (`type_stats.rs`).  The direction that is seen first is counted
inline; the other direction, retries and failures are counted in a box that is allocated when one of
them occurs.  `counters_faithful` compares them with ten plain counters. -/

namespace SedsNet

open Runs List

/-- The four words that `note` counts in. -/
structure DirectionWords where
  packets : ℕ := 0
  bytes : ℕ := 0
  relayedPackets : ℕ := 0
  relayedBytes : ℕ := 0
deriving DecidableEq

/-- The ten public counters. -/
structure Counters where
  tx : DirectionWords := {}
  rx : DirectionWords := {}
  txRetries : ℕ := 0
  handlerFailures : ℕ := 0
deriving DecidableEq

inductive StatsDirection where
  | empty
  | tx
  | rx
deriving DecidableEq

/-- The six words of the box: the opposite direction, the retries and the failures. -/
structure ExtraWords where
  opposite : DirectionWords := {}
  retries : ℕ := 0
  failures : ℕ := 0

structure TypeRuntimeStatsInner where
  values : DirectionWords := {}
  extra : Option ExtraWords := none
  direction : StatsDirection := .empty

def DirectionWords.note (w : DirectionWords) (bytes : ℕ) (relayed : Bool) : DirectionWords :=
  let w := { w with packets := satAdd w.packets 1, bytes := satAdd w.bytes bytes }
  if relayed then
    { w with relayedPackets := satAdd w.relayedPackets 1, relayedBytes := satAdd w.relayedBytes bytes }
  else w

inductive StatsEvent where
  | tx (bytes : ℕ) (relayed : Bool) (retries : ℕ)
  | rx (bytes : ℕ) (relayed : Bool)
  | failure (retries : ℕ)

/-- Ten plain counters. -/
def Counters.step (c : Counters) : StatsEvent → Counters
  | .tx bytes relayed retries =>
    { c with tx := c.tx.note bytes relayed, txRetries := satAdd c.txRetries retries }
  | .rx bytes relayed => { c with rx := c.rx.note bytes relayed }
  | .failure retries =>
    { c with handlerFailures := satAdd c.handlerFailures 1, txRetries := satAdd c.txRetries retries }

namespace TypeRuntimeStatsInner

section

variable (st : TypeRuntimeStatsInner)

/-- A change of the box, which `extra()` allocates if there is none. -/
def withExtra (f : ExtraWords → ExtraWords) : TypeRuntimeStatsInner :=
  { st with extra := some (f (st.extra.getD {})) }

def counters : Counters :=
  let extra := st.extra.getD {}
  let (tx, rx) := if st.direction = .tx then (st.values, extra.opposite) else (extra.opposite, st.values)
  ⟨tx, rx, extra.retries, extra.failures⟩

/-- A packet in a direction that is, or becomes, the inline one or is counted in the box. -/
def noted (direction : StatsDirection) (bytes : ℕ) (relayed : Bool) : TypeRuntimeStatsInner :=
  let st := if st.direction = .empty then { st with direction } else st
  if st.direction = direction then { st with values := st.values.note bytes relayed }
  else st.withExtra fun extra => { extra with opposite := extra.opposite.note bytes relayed }

def tx (bytes : ℕ) (relayed : Bool) (retries : ℕ) : TypeRuntimeStatsInner :=
  let st := st.noted .tx bytes relayed
  if retries ≠ 0 then st.withExtra fun extra => { extra with retries := satAdd extra.retries retries } else st

def rx (bytes : ℕ) (relayed : Bool) : TypeRuntimeStatsInner :=
  st.noted .rx bytes relayed

def failure (retries : ℕ) : TypeRuntimeStatsInner :=
  st.withExtra fun extra =>
    { extra with failures := satAdd extra.failures 1, retries := satAdd extra.retries retries }

def step : StatsEvent → TypeRuntimeStatsInner
  | .tx bytes relayed retries => st.tx bytes relayed retries
  | .rx bytes relayed => st.rx bytes relayed
  | .failure retries => st.failure retries

end

end TypeRuntimeStatsInner

namespace StatsEvent

def isTx : StatsEvent → Bool
  | .tx .. => true
  | _ => false

def isRx : StatsEvent → Bool
  | .rx .. => true
  | _ => false

/-- Failures, and packets that were retried. -/
def isExtra : StatsEvent → Bool
  | .tx _ _ retries => retries ≠ 0
  | .rx .. => false
  | .failure _ => true

end StatsEvent

open StatsEvent

namespace TypeRuntimeStatsInner

variable {st : TypeRuntimeStatsInner}

/-- The statistics stand for the counters. -/
structure Shows (st : TypeRuntimeStatsInner) (c : Counters) : Prop where
  counters : st.counters = c
  retries : c.txRetries ≤ usizeMax
  unseen : st.direction = .empty → st.values = {} ∧ (st.extra.getD {}).opposite = {}

theorem Shows.step {c : Counters} (h : Shows st c) (e : StatsEvent) : Shows (st.step e) (c.step e) := by
  obtain ⟨rfl, hretries, hunseen⟩ := h
  have hle : ∀ m n, satAdd m n ≤ usizeMax := fun m n => Nat.min_le_right _ _
  -- a packet without retries leaves the retries as they are, also where they are saturated
  have hsat : satAdd (st.extra.getD {}).retries 0 = (st.extra.getD {}).retries := Nat.min_eq_left hretries
  obtain ⟨values, extra, direction⟩ := st
  cases e with
  | failure retries => exact ⟨by cases direction <;> rfl, hle _ _, hunseen⟩
  | rx bytes relayed =>
    refine ⟨?_, hretries, ?_⟩ <;> cases direction <;>
      simp_all [TypeRuntimeStatsInner.step, rx, noted, withExtra, TypeRuntimeStatsInner.counters, Counters.step]
  | tx bytes relayed retries =>
    refine ⟨?_, hle _ _, ?_⟩ <;> cases direction <;> by_cases hzero : retries = 0 <;>
      simp_all [TypeRuntimeStatsInner.step, tx, noted, withExtra, TypeRuntimeStatsInner.counters, Counters.step]

/-- What the history tells of the direction and of the box. -/
structure Tracks (events : List StatsEvent) (st : TypeRuntimeStatsInner) : Prop where
  unseen : st.direction = .empty → events.any isTx = false ∧ events.any isRx = false
  sent : st.direction = .tx → events.any isTx = true
  received : st.direction = .rx → events.any isRx = true
  extra : st.extra.isSome = (events.any isTx && events.any isRx || events.any isExtra)

theorem Tracks.step {events : List StatsEvent} (h : Tracks events st) (e : StatsEvent) :
    Tracks (events ++ [e]) (st.step e) := by
  obtain ⟨hunseen, htx, hrx, hextra⟩ := h
  obtain ⟨values, extra, direction⟩ := st
  have hany : ∀ p, (events ++ [e]).any p = (events.any p || p e) := by simp
  constructor <;> simp only [hany]
  all_goals
    generalize events.any isTx = sent at *
    generalize events.any isRx = received at *
    cases e <;> cases direction <;>
      simp_all [TypeRuntimeStatsInner.step, tx, rx, failure, noted, withExtra, isTx, isRx, isExtra]
  all_goals split <;> simp_all

/-- **Compact statistics**: over every history the counters are the ten plain ones, and the box is
allocated exactly when both directions, a retry or a failure have occurred. -/
theorem counters_faithful (events : List StatsEvent) :
    (run step {} events).counters = run Counters.step {} events ∧
      (run step {} events).extra.isSome = (events.any isTx && events.any isRx || events.any isExtra) := by
  have h : Shows (run step {} events) (run Counters.step {} events) ∧ Tracks events (run step {} events) := by
    refine history_invariant (P := fun es st => Shows st (run Counters.step {} es) ∧ Tracks es st) ?_ ?_ events
    · exact ⟨⟨rfl, Nat.zero_le _, fun _ => ⟨rfl, rfl⟩⟩, ⟨fun _ => ⟨rfl, rfl⟩, nofun, nofun, rfl⟩⟩
    · intro es e h
      rw [run_concat]
      exact ⟨h.1.step e, h.2.step e⟩
  exact ⟨h.1.counters, h.2.extra⟩

end TypeRuntimeStatsInner

end SedsNet
