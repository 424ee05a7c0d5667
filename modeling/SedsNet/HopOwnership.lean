import SedsNet.HopHistory

/-! # Ownership of hop frames

A frame that the hop sender has accepted stays in its history until there is a reason for it to go.
The reasons lie in the past of a run: an acknowledgement counts after a complete offer has succeeded,
or during an offer that then succeeds.  `History` relates the records of a state to the events that
led to it, and `hop_ownership` lists the reasons. -/

namespace SedsNet

namespace HopSender

open OrderedMap Runs ReliableTxState List

variable {maxPending : ℕ} {s : HopSender}

/-! ### New records and running offers -/

variable {e : Event} {seq : UInt32}

/-- A frame is taken in by a commit only, and is offered from then on. -/
theorem step_new {x' : ReliableSent} (hnone : s.lookup seq = none)
    (hx' : (step maxPending s e).lookup seq = some x') : x'.firstOffer = .active := by
  have hchange := step_change maxPending s e
  generalize assigns maxPending s e = assigned at hchange
  rw [lookup_eq] at hnone hx'
  cases hchange with
  | edited hstream _ => cases (hstream.fresh hnone).symm.trans hx'
  | removed hstream _ =>
    rw [hstream] at hx'
    simp [ReliableTxState.initial] at hx'
  | accepted _ _ hcommit =>
    rw [(commit_eq hcommit).2.2, getElem?_insert_eq] at hx'
    split at hx'
    · cases hx'
      rfl
    · cases hnone.symm.trans hx'

/-- The callback of the side is running for this offer of the frame. -/
def Running (s : HopSender) (offer : ℕ) (seq : UInt32) (owner : ℕ) : Prop :=
  ∃ o, IsOffer s offer o seq owner ∧ o.active = true ∧ o.done = false

variable {offer owner : ℕ}

/-- An offer of a retained frame was running before, or the step has activated it and has reset what
was noted for the frame. -/
theorem step_running {x : ReliableSent} (hx : s.lookup seq = some x)
    (h : Running (step maxPending s e) offer seq x.bytes.owner) : Running s offer seq x.bytes.owner ∨
      ∀ x', (step maxPending s e).lookup seq = some x' → x'.firstOffer ≠ .ackedActive := by
  obtain ⟨o', ⟨hget, hseq, howner⟩, hactive, hdone⟩ := h
  have hoffers := (step_effect maxPending s e).offers
  generalize (step maxPending s e).offers = offers at hoffers hget
  cases hoffers with
  | same => exact .inl ⟨o', ⟨hget, hseq, howner⟩, hactive, hdone⟩
  | offered hfresh =>
    obtain ⟨-, hold⟩ | ⟨-, rfl⟩ := getElem?_concat_cases hget
    · exact .inl ⟨o', ⟨hold, hseq, howner⟩, hactive, hdone⟩
    · rw [← hseq, hfresh hactive] at hx
      cases hx
  | ended ho =>
    rw [getElem?_set] at hget
    split at hget
    · split at hget
      · cases hget
        cases hdone
      · cases hget
    · exact .inl ⟨o', ⟨hget, hseq, howner⟩, hactive, hdone⟩
  | activated ho hst =>
    rw [getElem?_set] at hget
    split at hget
    · split at hget
      · -- The frame was pending and is active now, or it was complete.
        cases hget
        refine .inr ?_
        intro x' hx'
        rw [lookup_eq] at hx hx'
        rw [hst, modify_lookup, if_pos hseq, hx] at hx'
        cases hx'
        dsimp only
        split
        · exact nofun
        · rename_i hcomplete
          intro hacked
          rw [hacked] at hcomplete
          exact hcomplete rfl
      · cases hget
    · exact .inl ⟨o', ⟨hget, hseq, howner⟩, hactive, hdone⟩

/-! ### Histories -/

/-- The state in which the event of index `i` happens. -/
abbrev stateAt (maxPending : ℕ) (es : List Event) (i : ℕ) : HopSender := before (step maxPending) initial es i

/-- The frame is in the history. -/
def Retained (s : HopSender) (seq : UInt32) (owner : ℕ) : Prop :=
  ∃ x, s.lookup seq = some x ∧ x.bytes.owner = owner

/-- The offer of the frame ends with success. -/
def SucceededAt (maxPending : ℕ) (es : List Event) (k offer : ℕ) (seq : UInt32) (owner : ℕ) : Prop :=
  ∃ o mode now, es[k]? = some (.complete offer mode (.ok ()) now) ∧
    IsOffer (stateAt maxPending es k) offer o seq owner

/-- An acknowledgement that covers the frame arrives. -/
def AckedAt (es : List Event) (k : ℕ) (seq : UInt32) : Prop :=
  ∃ mode ack, es[k]? = some (.ack mode ack) ∧ Covers mode ack seq

/-- How the records of a state have come about. -/
structure History (maxPending : ℕ) (es : List Event) (s : HopSender) : Prop where
  complete : ∀ seq x, s.lookup seq = some x → x.firstOffer = .complete →
    ∃ k offer, k < es.length ∧ SucceededAt maxPending es k offer seq x.bytes.owner
  acked : ∀ seq x, s.lookup seq = some x → x.firstOffer = .ackedActive →
    ∃ k, k < es.length ∧ AckedAt es k seq ∧ ∀ offer, Running s offer seq x.bytes.owner →
      Running (stateAt maxPending es k) offer seq x.bytes.owner

variable {es : List Event} {k : ℕ}

theorem SucceededAt.append (h : SucceededAt maxPending es k offer seq owner) (es' : List Event) :
    SucceededAt maxPending (es ++ es') k offer seq owner := by
  obtain ⟨o, mode, now, he, ho⟩ := h
  refine ⟨o, mode, now, getElem?_append_of_some he, ?_⟩
  rw [stateAt, before_of_some he]
  exact ho

theorem AckedAt.append (h : AckedAt es k seq) (es' : List Event) : AckedAt (es ++ es') k seq := by
  obtain ⟨mode, ack, he, hcovers⟩ := h
  exact ⟨mode, ack, getElem?_append_of_some he, hcovers⟩

theorem history_step (es : List Event) (e : Event) (h : History maxPending es (run (step maxPending) initial es)) :
    History maxPending (es ++ [e]) (step maxPending (run (step maxPending) initial es) e) := by
  have hinv := run_inv maxPending es
  have hstate : stateAt maxPending (es ++ [e]) es.length = _ := before_concat _ _ _
  have hlast : (es ++ [e])[es.length]? = some e := List.getElem?_concat_length
  have hlength : (es ++ [e]).length = es.length + 1 := length_append
  generalize run (step maxPending) initial es = s at h hinv hstate
  -- A record is new, or it comes from one before the step.
  have hfrom : ∀ {seq x'}, (step maxPending s e).lookup seq = some x' →
      x'.firstOffer = .active ∨ ∃ x, s.lookup seq = some x ∧ Fate s e seq x (some x') := by
    intro seq x' hx'
    cases hx : s.lookup seq with
    | none => exact .inl (step_new hx hx')
    | some x => exact .inr ⟨x, rfl, hx' ▸ step_fate hinv e hx⟩
  refine ⟨?_, ?_⟩
  · intro seq x' hx' hcomplete
    obtain hnew | ⟨x, hx, hfate⟩ := hfrom hx'
    · cases hnew.symm.trans hcomplete
    have hold : x'.bytes = x.bytes → x.firstOffer = .complete →
        ∃ k offer, k < (es ++ [e]).length ∧ SucceededAt maxPending (es ++ [e]) k offer seq x'.bytes.owner := by
      intro hbytes hxc
      obtain ⟨k, offer, hk, hsucceeded⟩ := h.complete seq x hx hxc
      refine ⟨k, offer, by omega, ?_⟩
      rw [hbytes]
      exact hsucceeded.append [e]
    cases hfate with
    | kept hbytes hsame => exact hold hbytes (hsame.symm.trans hcomplete)
    | noted he hcovers hactive hbytes hacked => cases hacked.symm.trans hcomplete
    | activated he ho hbytes hactive => cases hactive.symm.trans hcomplete
    | completed he ho hbytes hdone =>
      rename_i offer o mode now
      refine ⟨es.length, offer, by omega, o, mode, now, ?_, ?_⟩
      · rw [hlast, he]
      · rw [hstate, hbytes]
        exact ho
    | refused he hbytes hpending => cases hpending.symm.trans hcomplete
  · intro seq x' hx' hacked
    obtain hnew | ⟨x, hx, hfate⟩ := hfrom hx'
    · cases hnew.symm.trans hacked
    have hrunning : x'.bytes = x.bytes → ∀ offer, Running (step maxPending s e) offer seq x'.bytes.owner →
        Running s offer seq x.bytes.owner := by
      intro hbytes offer hoffer
      rw [hbytes] at hoffer
      obtain hold | hreset := step_running hx hoffer
      · exact hold
      · exact absurd hacked (hreset x' hx')
    cases hfate with
    | kept hbytes hsame =>
      obtain ⟨k, hk, hack, hall⟩ := h.acked seq x hx (hsame.symm.trans hacked)
      refine ⟨k, by omega, hack.append [e], ?_⟩
      intro offer hoffer
      rw [stateAt, before_append hk.le, hbytes]
      exact hall offer (hrunning hbytes offer hoffer)
    | noted he hcovers hactive hbytes _ =>
      refine ⟨es.length, by omega, ⟨_, _, he ▸ hlast, hcovers⟩, ?_⟩
      intro offer hoffer
      rw [hstate, hbytes]
      exact hrunning hbytes offer hoffer
    | activated he ho hbytes hactive => cases hactive.symm.trans hacked
    | completed he ho hbytes hdone => cases hdone.symm.trans hacked
    | refused he hbytes hpending => cases hpending.symm.trans hacked

theorem history (maxPending : ℕ) (es : List Event) : History maxPending es (run (step maxPending) initial es) := by
  refine history_invariant ?_ history_step es
  refine ⟨?_, ?_⟩
  · intro seq x hx
    cases hx
  · intro seq x hx
    cases hx

/-! ### Ownership -/

/-- Why the frame leaves the history in the event of index `j`. -/
inductive Reason (maxPending : ℕ) (es : List Event) (j : ℕ) (seq : UInt32) (owner : ℕ) : Prop
  /-- It is acknowledged, and a complete offer has succeeded before. -/
  | acknowledged {mode : ReliableMode} {ack : UInt32} {k offer : ℕ} (he : es[j]? = some (.ack mode ack))
      (hcovers : Covers mode ack seq) (hk : k < j) (hoffer : SucceededAt maxPending es k offer seq owner)
  /-- It was acknowledged during the offer that now succeeds. -/
  | acknowledgedDuringOffer {k offer : ℕ} (hoffer : SucceededAt maxPending es j offer seq owner)
      (hk : k < j) (hack : AckedAt es k seq)
      (hrunning : Running (stateAt maxPending es k) offer seq owner)
  /-- Its offer has failed for good. -/
  | offerFailed {offer : ℕ} {o : HopOffer} {mode : ReliableMode} {error : TelemetryError} {now : UInt64}
      (he : es[j]? = some (.complete offer mode (.error error) now))
      (herror : isTransientTxError error = false)
      (ho : IsOffer (stateAt maxPending es j) offer o seq owner)
  /-- The offer of some frame of the ordered stream has failed for good. -/
  | streamFailed {offer : ℕ} {o : HopOffer} {error : TelemetryError} {now : UInt64} {seq' : UInt32}
      {owner' : ℕ} (he : es[j]? = some (.complete offer .ordered (.error error) now))
      (herror : isTransientTxError error = false)
      (hretained : Retained (stateAt maxPending es j) seq' owner')
      (ho : IsOffer (stateAt maxPending es j) offer o seq' owner')
  /-- Its retries are used up. -/
  | exhausted {lim : RetryLimits} {mode : ReliableMode} {now : UInt64} {x : ReliableSent}
      (he : es[j]? = some (.timeouts lim mode now))
      (hx : (stateAt maxPending es j).lookup seq = some x) (hexhausted : Exhausted lim now x)
  /-- The retries of some frame of the ordered stream are used up. -/
  | streamExhausted {lim : RetryLimits} {now : UInt64} {seq' : UInt32} {x' : ReliableSent}
      (he : es[j]? = some (.timeouts lim .ordered now))
      (hx' : (stateAt maxPending es j).lookup seq' = some x') (hexhausted : Exhausted lim now x')

/-- Transient refusals, replay requests, replays, and changes of the queue. -/
def Harmless : Event → Prop
  | .complete _ _ (.error error) _ => isTransientTxError error = true
  | .beginReplay _ _ | .activateReplay _ | .requestReplay _ | .setReplayQueued _ _ => True
  | _ => False

/-- **Hop ownership**: while its side exists, a retained frame leaves the history for one of the
reasons only; transient refusals, evictions from the queue and replay requests keep it. -/
theorem hop_ownership (maxPending : ℕ) (es : List Event) (j : ℕ) (e : Event) (he : es[j]? = some e)
    (seq : UInt32) (owner : ℕ) (hretained : Retained (stateAt maxPending es j) seq owner) :
    (e ≠ .removeSide → ¬ Retained (stateAt maxPending es (j + 1)) seq owner → Reason maxPending es j seq owner) ∧
    (Harmless e → Retained (stateAt maxPending es (j + 1)) seq owner) := by
  obtain ⟨x, hx, rfl⟩ := hretained
  have hinv : Inv maxPending (stateAt maxPending es j) := run_inv maxPending (es.take j)
  have hhistory : History maxPending (es.take j) (stateAt maxPending es j) := history maxPending (es.take j)
  have hlength : (es.take j).length = j := by
    obtain ⟨hlt, -⟩ := List.getElem?_eq_some_iff.mp he
    rw [length_take]
    omega
  have hfate := step_fate hinv e hx
  rw [stateAt, before_succ he]
  generalize hr : (step maxPending (stateAt maxPending es j) e).lookup seq = r at hfate
  -- The history of the events so far, seen from the whole run.
  have hlift : es.take j ++ es.drop j = es := take_append_drop j es
  cases hfate with
  | kept hbytes _ | noted _ _ _ hbytes _ | activated _ _ hbytes _ | completed _ _ hbytes _ | refused _ hbytes _ =>
    have hkept : Retained (step maxPending (stateAt maxPending es j) e) seq x.bytes.owner :=
      ⟨_, hr, by rw [hbytes]⟩
    exact ⟨fun _ hgone => absurd hkept hgone, fun _ => hkept⟩
  | acknowledged he' hcovers hcomplete =>
    subst he'
    obtain ⟨k, offer, hk, hsucceeded⟩ := hhistory.complete seq x hx hcomplete
    have hoffer := hsucceeded.append (es.drop j)
    rw [hlift] at hoffer
    exact ⟨fun _ _ => .acknowledged he hcovers (hlength ▸ hk) hoffer, fun hharmless => hharmless.elim⟩
  | retired he' ho hactive hdone hacked =>
    rename_i offer o mode now
    subst he'
    obtain ⟨k, hk, hack, hall⟩ := hhistory.acked seq x hx hacked
    have hack' := hack.append (es.drop j)
    have hrunning := hall offer ⟨o, ho, hactive, hdone⟩
    rw [hlift] at hack'
    have hstate : stateAt maxPending (es.take j) k = stateAt maxPending es k := by
      conv_rhs => rw [← hlift]
      exact (before_append hk.le).symm
    rw [hstate] at hrunning
    exact ⟨fun _ _ => .acknowledgedDuringOffer ⟨o, mode, now, he, ho⟩ (hlength ▸ hk) hack' hrunning,
      fun hharmless => hharmless.elim⟩
  | broken he' herror ho =>
    subst he'
    refine ⟨fun _ _ => .offerFailed he herror ho, ?_⟩
    intro hharmless
    cases herror.symm.trans hharmless
  | brokenStream he' herror hx' ho =>
    subst he'
    refine ⟨fun _ _ => .streamFailed he herror ⟨_, hx', rfl⟩ ho, ?_⟩
    intro hharmless
    cases herror.symm.trans hharmless
  | exhausted he' hexhausted =>
    subst he'
    exact ⟨fun _ _ => .exhausted he hx hexhausted, fun hharmless => hharmless.elim⟩
  | exhaustedStream he' hx' hexhausted =>
    subst he'
    exact ⟨fun _ _ => .streamExhausted he hx' hexhausted, fun hharmless => hharmless.elim⟩
  | removed he' =>
    subst he'
    exact ⟨fun hside => absurd rfl hside, fun hharmless => hharmless.elim⟩

/-- The acknowledgement of a frame overtakes the end of its first offer. -/
def overtaken : List Event :=
  [.reserve, .commit 0 [1] 10 true, .ack .unordered 1, .complete 0 .unordered (.ok ()) 5]

theorem hop_ownership_overtaken : Retained (stateAt 4 overtaken 3) 1 0 ∧ ¬ Retained (stateAt 4 overtaken 4) 1 0 ∧
      Reason 4 overtaken 3 1 0 := by
  have hretained : Retained (stateAt 4 overtaken 3) 1 0 :=
    ⟨⟨⟨0, [1]⟩, 10, .ackedActive, 0, true, false⟩, by decide +kernel, rfl⟩
  have hgone : ¬ Retained (stateAt 4 overtaken 4) 1 0 := by
    rintro ⟨x, hx, -⟩
    have hnone : (stateAt 4 overtaken 4).lookup 1 = none := by decide +kernel
    cases hnone.symm.trans hx
  exact ⟨hretained, hgone, (hop_ownership 4 overtaken 3 (.complete 0 .unordered (.ok ()) 5) rfl 1 0
    hretained).1 (by intro h; cases h) hgone⟩

end HopSender

end SedsNet
