import SedsNet.HopSender

/-! # Histories of the hop sender

What one critical section does to the history as a whole (`step_change`) and to one retained frame
(`step_fate`).  Over a run the order and the retained frames go together, within the window, and a
failed stream stays empty (`hop_send_history`). -/

namespace SedsNet

namespace HopSender

open OrderedMap Runs ReliableTxState List

variable {maxPending : ℕ} {s : HopSender}

/-- The record of a retained frame. -/
def lookup (s : HopSender) (seq : UInt32) : Option ReliableSent := s.stream.bind fun st => st.sent[seq]?

theorem lookup_eq (s : HopSender) (seq : UInt32) : s.lookup seq = s.streamOr.sent[seq]? := by
  unfold lookup streamOr
  cases s.stream with
  | none => simp [ReliableTxState.initial]
  | some st => rfl

theorem streamOr_of_some {st : ReliableTxState} (h : s.stream = some st) : s.streamOr = st := by
  rw [streamOr, h]
  rfl

/-! ### What a critical section does to the stream -/

/-- The number an event assigns to a frame. -/
def assigns (maxPending : ℕ) (s : HopSender) : Event → Option UInt32
  | .commit attempt bytes originKey granted =>
    match s.attempts[attempt]? with
    | some (some seq) =>
      if !(s.sideExists && granted) then none
      else
        match s.streamOr.commit maxPending seq ⟨attempt, bytes⟩ originKey with
        | .ok _ => some seq
        | .error _ => none
    | _ => none
  | _ => none

/-- What a critical section does to the stream, and the number it assigns. -/
inductive StreamStep (maxPending : ℕ) (s : HopSender) : Event → Option UInt32 → ReliableTxState → Prop
  | same {e : Event} : StreamStep maxPending s e none s.streamOr
  | marked {e : Event} (seq : UInt32) {f : ReliableSent → ReliableSent}
      (hf : ∀ y, (f y).bytes = y.bytes ∧ (f y).firstOffer = y.firstOffer) :
      StreamStep maxPending s e none (s.streamOr.modify seq f)
  | accepted {attempt : ℕ} {seq : UInt32} {bytes : Bytes} {originKey : UInt64} {granted : Bool}
      {st : ReliableTxState} (hexists : s.sideExists = true) (hread : some seq ∈ s.attempts)
      (hcommit : s.streamOr.commit maxPending seq ⟨attempt, bytes⟩ originKey = .ok st) :
      StreamStep maxPending s (.commit attempt bytes originKey granted) (some seq) st
  | activated {offer : ℕ} {o : HopOffer} (ho : s.offers[offer]? = some o)
      (howner : s.streamOr.isOwner o.seq o.bytes = true) :
      StreamStep maxPending s (.activateReplay offer) none (s.streamOr.modify o.seq fun sent =>
        if sent.firstOffer.isPending then { sent with firstOffer := .active } else sent)
  | completed {offer : ℕ} {o : HopOffer} {mode : ReliableMode} {result : TelemetryResult Unit} {now : UInt64}
      {st : ReliableTxState} (ho : s.offers[offer]? = some o)
      (hrunning : ¬ (o.done || (!o.active && (errorOf result).isNone)) = true)
      (hcomplete : s.streamOr.completeHopOffer mode o.seq o.bytes result o.replay now = .ok st) :
      StreamStep maxPending s (.complete offer mode result now) none st
  | acked (mode : ReliableMode) (ack : UInt32) :
      StreamStep maxPending s (.ack mode ack) none (s.streamOr.handleReliableAck mode ack)
  | timedOut (lim : RetryLimits) (mode : ReliableMode) (now : UInt64) :
      StreamStep maxPending s (.timeouts lim mode now) none (s.streamOr.processReliableTimeouts lim mode now).1
  | removed : StreamStep maxPending s .removeSide none .initial

/-- What a critical section does to the offers, when it leaves the stream `st`. -/
inductive OfferStep (s : HopSender) (st : ReliableTxState) : List HopOffer → Prop
  | same : OfferStep s st s.offers
  | offered {o : HopOffer} (hfresh : o.active = true → s.lookup o.seq = none) : OfferStep s st (s.offers ++ [o])
  | ended {offer : ℕ} {o : HopOffer} (ho : s.offers[offer]? = some o) :
      OfferStep s st (s.offers.set offer { o with done := true })
  | activated {offer : ℕ} {o : HopOffer} (ho : s.offers[offer]? = some o)
      (hst : st = s.streamOr.modify o.seq fun sent =>
        if sent.firstOffer.isPending then { sent with firstOffer := .active } else sent) :
      OfferStep s st (s.offers.set offer { o with active := true })

/-- What a critical section does; a number that is read is not zero. -/
structure Effect (maxPending : ℕ) (s : HopSender) (e : Event) (s' : HopSender) : Prop where
  stream : StreamStep maxPending s e (assigns maxPending s e) s'.streamOr
  offers : OfferStep s s'.streamOr s'.offers
  side : s'.sideExists = true → s.sideExists = true ∧ e ≠ .removeSide
  tried : ∀ k, some k ∈ s'.attempts → some k ∈ s.attempts ∨ k ≠ 0

theorem StreamStep.onStream {e : Event} {f : ReliableTxState → ReliableTxState}
    (h : StreamStep maxPending s e none (f s.streamOr)) : StreamStep maxPending s e none (s.onStream f).streamOr := by
  unfold HopSender.onStream
  unfold streamOr at h ⊢
  cases hs : s.stream with
  | none =>
    have hsame := @StreamStep.same maxPending s e
    rwa [streamOr, hs] at hsame
  | some st => rwa [hs] at h

theorem reserve_ne_zero {seq : UInt32}
    (h : s.stream.elim (.ok 1) (ReliableTxState.reserve maxPending) = .ok seq) : seq ≠ 0 := by
  cases hs : s.stream with
  | none =>
    rw [hs] at h
    cases h
    decide
  | some st =>
    rw [hs] at h
    change st.reserve maxPending = .ok seq at h
    unfold ReliableTxState.reserve at h
    split at h
    · cases h
    rename_i hne
    split at h
    · cases h
    cases h
    exact hne

variable {seq : UInt32} {st st' : ReliableTxState} {bytes : SharedBytes} {originKey : UInt64}

theorem commit_ok
    (h : st.commit maxPending seq bytes originKey = .ok st') : st.nextSeq = seq ∧ st.sent[seq]? = none := by
  unfold ReliableTxState.commit at h
  split at h
  · cases h
  rename_i hfree
  rw [not_or, not_not] at hfree
  exact ⟨hfree.1, not_mem_iff.mp hfree.2⟩

theorem commit_eq (h : st.commit maxPending seq bytes originKey = .ok st') :
    st'.nextSeq = (if seq + 1 = 0 then 1 else seq + 1) ∧ st'.sentOrder = st.sentOrder ++ [seq] ∧
      st'.sent = st.sent.insert seq ⟨bytes, originKey, .active, 0, true, false⟩ := by
  unfold ReliableTxState.commit at h
  split at h
  · cases h
  split at h
  · cases h
  cases h
  exact ⟨rfl, rfl, rfl⟩

theorem Effect.of_edit {e : Event} {s' : HopSender} (he : e ≠ .removeSide) (hside : s'.sideExists = s.sideExists)
    (hattempts : s'.attempts = s.attempts) (hstream : StreamStep maxPending s e (assigns maxPending s e) s'.streamOr)
    (hoffers : OfferStep s s'.streamOr s'.offers) : Effect maxPending s e s' :=
  ⟨hstream, hoffers, fun hexists => ⟨hside ▸ hexists, he⟩, fun _ hk => .inl (hattempts ▸ hk)⟩

theorem commit_effect (attempt : ℕ) (bytes : Bytes) (originKey : UInt64) (granted : Bool) :
    Effect maxPending s (.commit attempt bytes originKey granted)
      (s.commit maxPending attempt bytes originKey granted) := by
  have hset : ∀ k, some k ∈ s.attempts.set attempt none → some k ∈ s.attempts ∨ k ≠ 0 := by
    intro k hk
    obtain hk | hk := mem_or_eq_of_mem_set hk
    · exact .inl hk
    · cases hk
  have heffect : ∀ {assigned : Option UInt32} {s' : HopSender},
      assigns maxPending s (.commit attempt bytes originKey granted) = assigned →
      StreamStep maxPending s (.commit attempt bytes originKey granted) assigned s'.streamOr →
      OfferStep s s'.streamOr s'.offers → s'.sideExists = s.sideExists →
      (∀ k, some k ∈ s'.attempts → some k ∈ s.attempts ∨ k ≠ 0) →
      Effect maxPending s (.commit attempt bytes originKey granted) s' := by
    intro assigned s' hassigned hstream hoffers hside htried
    exact ⟨hassigned ▸ hstream, hoffers, fun hexists => ⟨hside ▸ hexists, nofun⟩, htried⟩
  unfold assigns at heffect
  unfold HopSender.commit
  dsimp only at heffect ⊢
  cases hattempt : s.attempts[attempt]? with
  | none => exact heffect (by rw [hattempt]) .same .same rfl fun _ => .inl
  | some read =>
    rw [hattempt] at heffect
    cases read with
    | none => exact heffect rfl .same .same rfl fun _ => .inl
    | some seq =>
      dsimp only at heffect ⊢
      split
      · rename_i hrefused
        exact heffect (if_pos hrefused) .same .same rfl hset
      rename_i hgranted
      rw [if_neg hgranted] at heffect
      have hexists : s.sideExists = true := by
        cases hside : s.sideExists with
        | true => rfl
        | false => simp [hside] at hgranted
      cases hcommit : s.streamOr.commit maxPending seq ⟨attempt, bytes⟩ originKey with
      | ok st =>
        rw [hcommit] at heffect
        refine heffect rfl (.accepted hexists (mem_of_getElem? hattempt) hcommit) (.offered ?_) rfl hset
        intro _
        rw [lookup_eq]
        exact (commit_ok hcommit).2
      | error e =>
        rw [hcommit] at heffect
        exact heffect rfl .same .same rfl hset

/-- Every critical section has its effect. -/
theorem step_effect (maxPending : ℕ) (s : HopSender) (e : Event) : Effect maxPending s e (step maxPending s e) := by
  cases e with
  | reserve =>
    change Effect maxPending s .reserve (s.reserve maxPending)
    unfold HopSender.reserve
    split
    · rename_i seq hseq
      refine ⟨.same, .same, fun hexists => ⟨hexists, nofun⟩, ?_⟩
      intro k hk
      obtain hk | hk := mem_append.mp hk
      · exact .inl hk
      · cases mem_singleton.mp hk
        exact .inr (reserve_ne_zero hseq)
    · exact .of_edit nofun rfl rfl .same .same
  | commit attempt bytes originKey granted => exact commit_effect attempt bytes originKey granted
  | beginReplay seq bytes =>
    change Effect maxPending s (.beginReplay seq bytes) (s.beginReplay seq bytes)
    unfold HopSender.beginReplay
    split
    · exact .of_edit nofun rfl rfl .same .same
    rename_i st hs
    cases streamOr_of_some hs
    split
    · exact .of_edit nofun rfl rfl .same .same
    split
    · exact .of_edit nofun rfl rfl .same .same
    · exact .of_edit nofun rfl rfl (.marked seq fun _ => ⟨rfl, rfl⟩) (.offered nofun)
  | activateReplay offer =>
    change Effect maxPending s (.activateReplay offer) (s.activateReplay offer)
    unfold HopSender.activateReplay
    split
    · exact .of_edit nofun rfl rfl .same .same
    rename_i o ho
    split
    · exact .of_edit nofun rfl rfl .same .same
    split
    · exact .of_edit nofun rfl rfl .same (.ended ho)
    rename_i st hs
    cases streamOr_of_some hs
    split
    · exact .of_edit nofun rfl rfl .same (.ended ho)
    · rename_i howner
      rw [Bool.not_eq_true, Bool.not_eq_false'] at howner
      exact .of_edit nofun rfl rfl (.activated ho howner) (.activated ho rfl)
  | complete offer mode result now =>
    change Effect maxPending s (.complete offer mode result now) (s.complete offer mode result now)
    unfold HopSender.complete
    split
    · exact .of_edit nofun rfl rfl .same .same
    rename_i o ho
    split
    · exact .of_edit nofun rfl rfl .same .same
    rename_i hrunning
    refine .of_edit nofun rfl rfl (.onStream (s := s) ?_) (.ended ho)
    split
    · rename_i hcomplete
      exact .completed ho hrunning hcomplete
    · exact .same
  | ack mode ack => exact .of_edit nofun rfl rfl (.onStream (.acked mode ack)) .same
  | partialAck seq =>
    refine .of_edit nofun rfl rfl (.onStream (.marked seq ?_)) .same
    intro y
    split
    · exact ⟨rfl, rfl⟩
    · exact ⟨rfl, rfl⟩
  | requestReplay seq =>
    change Effect maxPending s (.requestReplay seq) (s.requestReplay seq)
    unfold HopSender.requestReplay
    split
    · rename_i hrequest
      obtain rfl | rfl := queueReliableRetransmit_cases hrequest
      · exact .of_edit nofun rfl rfl .same .same
      · exact .of_edit nofun rfl rfl (.marked seq fun _ => ⟨rfl, rfl⟩) .same
    · exact .of_edit nofun rfl rfl .same .same
  | setReplayQueued seq queued =>
    exact .of_edit nofun rfl rfl (.onStream (.marked seq fun _ => ⟨rfl, rfl⟩)) .same
  | timeouts lim mode now => exact .of_edit nofun rfl rfl (.onStream (.timedOut lim mode now)) .same
  | removeSide => exact ⟨.removed, .same, nofun, fun _ => .inl⟩

/-- The stream is edited, goes with its side, or takes a frame in. -/
inductive Change (maxPending : ℕ) (s s' : HopSender) : Option UInt32 → Prop
  | edited (hstream : Edits s.streamOr s'.streamOr) (hside : s'.sideExists = true → s.sideExists = true) :
      Change maxPending s s' none
  | removed (hstream : s'.streamOr = .initial) (hside : s'.sideExists = false) : Change maxPending s s' none
  | accepted {seq : UInt32} {bytes : SharedBytes} {originKey : UInt64} (hexists : s.sideExists = true)
      (hread : some seq ∈ s.attempts) (hcommit : s.streamOr.commit maxPending seq bytes originKey = .ok s'.streamOr) :
      Change maxPending s s' (some seq)

theorem step_change (maxPending : ℕ) (s : HopSender) (e : Event) :
    Change maxPending s (step maxPending s e) (assigns maxPending s e) := by
  obtain ⟨hstream, -, hside, -⟩ := step_effect maxPending s e
  have hkept : (step maxPending s e).sideExists = true → s.sideExists = true := fun hexists => (hside hexists).1
  generalize assigns maxPending s e = assigned at hstream ⊢
  generalize hst : (step maxPending s e).streamOr = st at hstream
  cases hstream with
  | same => exact .edited (hst ▸ .refl _) hkept
  | marked seq _ => exact .edited (hst ▸ .modify _ seq _) hkept
  | accepted hexists hread hcommit => exact .accepted hexists hread (hst ▸ hcommit)
  | activated => exact .edited (hst ▸ .modify _ _ _) hkept
  | completed _ _ hcomplete => exact .edited (hst ▸ completeHopOffer_edits hcomplete) hkept
  | acked mode ack => exact .edited (hst ▸ handleReliableAck_edits _ mode ack) hkept
  | timedOut lim mode now => exact .edited (hst ▸ timeoutsFrom_edits _ lim mode now _ _) hkept
  | removed =>
    refine .removed hst ?_
    cases hexists : (step maxPending s .removeSide).sideExists with
    | false => rfl
    | true => exact absurd rfl (hside hexists).2

/-! ### The invariant -/

structure Inv (maxPending : ℕ) (s : HopSender) : Prop where
  stream : ∀ st, s.stream = some st → WF maxPending st
  attempts : ∀ seq, some seq ∈ s.attempts → seq ≠ 0

theorem inv_initial : Inv maxPending initial := by
  refine ⟨?_, ?_⟩
  · intro st hst
    cases hst
  · intro seq hseq
    cases hseq

theorem Inv.streamOr (h : Inv maxPending s) : WF maxPending s.streamOr := by
  unfold HopSender.streamOr
  cases hs : s.stream with
  | none => exact wf_initial
  | some st => exact h.stream st hs

theorem Inv.step (h : Inv maxPending s) (e : Event) : Inv maxPending (step maxPending s e) := by
  have hchange := step_change maxPending s e
  have hwf : WF maxPending (HopSender.step maxPending s e).streamOr := by
    generalize assigns maxPending s e = assigned at hchange
    cases hchange with
    | edited hstream _ => exact hstream.wf h.streamOr
    | removed hstream _ =>
      rw [hstream]
      exact wf_initial
    | accepted _ hread hcommit => exact h.streamOr.commit (h.attempts _ hread) hcommit
  refine ⟨?_, ?_⟩
  · intro st hst
    rwa [streamOr_of_some hst] at hwf
  · intro k hk
    exact ((step_effect maxPending s e).tried k hk).elim (h.attempts k) id

/-! ### The fate of a frame -/

/-- The offer is for this frame. -/
def IsOffer (s : HopSender) (offer : ℕ) (o : HopOffer) (seq : UInt32) (owner : ℕ) : Prop :=
  s.offers[offer]? = some o ∧ o.seq = seq ∧ o.bytes.owner = owner

/-- What one critical section does to the record `x` of the frame `seq`. -/
inductive Fate (s : HopSender) (e : Event) (seq : UInt32) (x : ReliableSent) : Option ReliableSent → Prop
  | kept {x' : ReliableSent} (hbytes : x'.bytes = x.bytes) (hx' : x'.firstOffer = x.firstOffer) :
      Fate s e seq x (some x')
  | acknowledged {mode : ReliableMode} {ack : UInt32} (he : e = .ack mode ack)
      (hcovers : Covers mode ack seq) (hx : x.firstOffer = .complete) : Fate s e seq x none
  | noted {mode : ReliableMode} {ack : UInt32} {x' : ReliableSent} (he : e = .ack mode ack)
      (hcovers : Covers mode ack seq) (hx : x.firstOffer.isActive = true) (hbytes : x'.bytes = x.bytes)
      (hx' : x'.firstOffer = .ackedActive) : Fate s e seq x (some x')
  | activated {offer : ℕ} {o : HopOffer} {x' : ReliableSent} (he : e = .activateReplay offer)
      (ho : IsOffer s offer o seq x.bytes.owner) (hbytes : x'.bytes = x.bytes)
      (hx' : x'.firstOffer = .active) : Fate s e seq x (some x')
  | completed {offer : ℕ} {o : HopOffer} {mode : ReliableMode} {now : UInt64} {x' : ReliableSent}
      (he : e = .complete offer mode (.ok ()) now) (ho : IsOffer s offer o seq x.bytes.owner)
      (hbytes : x'.bytes = x.bytes) (hx' : x'.firstOffer = .complete) : Fate s e seq x (some x')
  | retired {offer : ℕ} {o : HopOffer} {mode : ReliableMode} {now : UInt64}
      (he : e = .complete offer mode (.ok ()) now) (ho : IsOffer s offer o seq x.bytes.owner)
      (hactive : o.active = true) (hdone : o.done = false) (hx : x.firstOffer = .ackedActive) :
      Fate s e seq x none
  | refused {offer : ℕ} {mode : ReliableMode} {error : TelemetryError} {now : UInt64}
      {x' : ReliableSent} (he : e = .complete offer mode (.error error) now) (hbytes : x'.bytes = x.bytes)
      (hx' : x'.firstOffer = .pending) : Fate s e seq x (some x')
  | broken {offer : ℕ} {o : HopOffer} {mode : ReliableMode} {error : TelemetryError} {now : UInt64}
      (he : e = .complete offer mode (.error error) now) (herror : isTransientTxError error = false)
      (ho : IsOffer s offer o seq x.bytes.owner) : Fate s e seq x none
  | brokenStream {offer : ℕ} {o : HopOffer} {error : TelemetryError} {now : UInt64} {seq' : UInt32}
      {x' : ReliableSent} (he : e = .complete offer .ordered (.error error) now)
      (herror : isTransientTxError error = false) (hx' : s.lookup seq' = some x')
      (ho : IsOffer s offer o seq' x'.bytes.owner) : Fate s e seq x none
  | exhausted {lim : RetryLimits} {mode : ReliableMode} {now : UInt64} (he : e = .timeouts lim mode now)
      (hx : Exhausted lim now x) : Fate s e seq x none
  | exhaustedStream {lim : RetryLimits} {now : UInt64} {seq' : UInt32} {x' : ReliableSent}
      (he : e = .timeouts lim .ordered now) (hx' : s.lookup seq' = some x')
      (hexhausted : Exhausted lim now x') : Fate s e seq x none
  | removed (he : e = .removeSide) : Fate s e seq x none

variable {x : ReliableSent} {e : Event}

theorem Fate.of_modify {k : UInt32} (hx : st.sent[seq]? = some x) {f : ReliableSent → ReliableSent}
    (hf : ∀ y, (f y).bytes = y.bytes ∧ (f y).firstOffer = y.firstOffer) :
    Fate s e seq x ((st.modify k f).sent[seq]?) := by
  rw [modify_lookup, hx]
  split
  · exact .kept (hf x).1 (hf x).2
  · exact .kept rfl rfl

theorem step_fate (hinv : Inv maxPending s) (e : Event)
    (hx : s.lookup seq = some x) : Fate s e seq x ((step maxPending s e).lookup seq) := by
  have hstream := (step_effect maxPending s e).stream
  rw [lookup_eq] at hx ⊢
  generalize assigns maxPending s e = assigned at hstream
  generalize (step maxPending s e).streamOr = st at hstream ⊢
  cases hstream with
  | same =>
    rw [hx]
    exact .kept rfl rfl
  | marked seq' hf => exact .of_modify hx hf
  | accepted _ _ hcommit =>
    rw [(commit_eq hcommit).2.2, getElem?_insert_eq, if_neg, hx]
    · exact .kept rfl rfl
    · rintro rfl
      cases (commit_ok hcommit).2.symm.trans hx
  | activated ho howner =>
    rw [modify_lookup, hx]
    split
    · rename_i heq
      dsimp only [Option.map_some]
      split
      · rw [isOwner, heq, hx, Option.any_some, SharedBytes.sameOwner, beq_iff_eq] at howner
        exact .activated rfl ⟨ho, heq, howner.symm⟩ rfl rfl
      · exact .kept rfl rfl
    · exact .kept rfl rfl
  | completed ho hrunning hcomplete =>
    have hfate := completeHopOffer_fate hcomplete hx
    generalize st.sent[seq]? = r at hfate
    cases hfate with
    | kept => exact .kept rfl rfl
    | completed hresult hk howner hbytes hx' =>
      subst hresult
      exact .completed rfl ⟨ho, hk, howner.symm⟩ hbytes hx'
    | retired hresult hk howner hacked =>
      subst hresult
      simp only [errorOf, Option.isNone_none, Bool.and_true, Bool.or_eq_true, Bool.not_eq_true',
        not_or, Bool.not_eq_true, Bool.not_eq_false] at hrunning
      exact .retired rfl ⟨ho, hk, howner.symm⟩ hrunning.2 hrunning.1 hacked
    | refused hresult herror hbytes hx' =>
      subst hresult
      obtain hx' | hx' := hx'
      · exact .refused rfl hbytes hx'
      · exact .kept hbytes hx'
    | broken hresult herror hk howner =>
      subst hresult
      exact .broken rfl herror ⟨ho, hk, howner.symm⟩
    | brokenStream hresult herror hmode hx' howner =>
      subst hresult hmode
      exact .brokenStream rfl herror ((lookup_eq s _).trans hx') ⟨ho, rfl, howner.symm⟩
  | acked mode ack =>
    have hfate : AckFate mode ack seq x _ := handleReliableAck_fate hx
    generalize (s.streamOr.handleReliableAck mode ack).sent[seq]? = r at hfate
    cases hfate with
    | kept => exact .kept rfl rfl
    | acknowledged hcovers hcomplete => exact .acknowledged rfl hcovers hcomplete
    | noted hcovers hactive => exact .noted rfl hcovers hactive rfl rfl
  | timedOut lim mode now =>
    unfold processReliableTimeouts
    have hfate : TimeoutFate s.streamOr lim mode now s.streamOr.sentOrder seq x
        ((timeoutsFrom lim mode now s.streamOr.sentOrder s.streamOr []).1.sent[seq]?) :=
      timeoutsFrom_fate hinv.streamOr.nodup hx
    generalize (timeoutsFrom lim mode now s.streamOr.sentOrder s.streamOr []).1.sent[seq]? = r at hfate
    cases hfate with
    | kept hbytes hx' => exact .kept hbytes hx'
    | exhausted hk hexhausted => exact .exhausted rfl hexhausted
    | exhaustedStream hmode hk' hlookup hexhausted =>
      subst hmode
      exact .exhaustedStream rfl ((lookup_eq s _).trans hlookup) hexhausted
  | removed => exact .removed rfl

/-! ### The window -/

/-- The event takes a frame into the history under this number. -/
def Accepts (maxPending : ℕ) (s : HopSender) (e : Event) (seq : UInt32) : Prop :=
  ∃ attempt bytes originKey st, e = .commit attempt bytes originKey true ∧ s.sideExists = true ∧
    s.attempts[attempt]? = some (some seq) ∧
    s.streamOr.commit maxPending seq ⟨attempt, bytes⟩ originKey = .ok st

/-- Numbers are not zero, and they are not in use. -/
theorem Inv.accepts (h : Inv maxPending s) (he : Accepts maxPending s e seq) : seq ≠ 0 ∧ s.lookup seq = none := by
  obtain ⟨attempt, bytes, originKey, st, -, -, hattempt, hcommit⟩ := he
  refine ⟨h.attempts seq (mem_of_getElem? hattempt), ?_⟩
  rw [lookup_eq]
  exact (commit_ok hcommit).2

/-- Nothing is retained, and nothing can be accepted. -/
structure Dead (s : HopSender) : Prop where
  empty : ∀ seq, s.lookup seq = none
  failed : s.sideExists = true → s.streamOr.nextSeq = 0

theorem Dead.not_accepts (h : Dead s) (hinv : Inv maxPending s) (e : Event) (seq : UInt32) :
    ¬ Accepts maxPending s e seq := by
  intro he
  have hne := (hinv.accepts he).1
  obtain ⟨attempt, bytes, originKey, st, -, hside, -, hcommit⟩ := he
  exact hne ((commit_ok hcommit).1.symm.trans (h.failed hside))

theorem Dead.step (h : Dead s) (hinv : Inv maxPending s) (e : Event) : Dead (step maxPending s e) := by
  have hchange := step_change maxPending s e
  generalize assigns maxPending s e = assigned at hchange
  cases hchange with
  | edited hstream hside =>
    refine ⟨?_, ?_⟩
    · intro seq
      rw [lookup_eq]
      exact hstream.fresh (lookup_eq s seq ▸ h.empty seq)
    · intro hexists
      obtain heq | hzero := hstream.nextSeq_eq
      · rw [heq]
        exact h.failed (hside hexists)
      · exact hzero
  | removed hstream hside =>
    refine ⟨?_, ?_⟩
    · intro seq
      rw [lookup_eq, hstream]
      simp [ReliableTxState.initial]
    · intro hexists
      cases hside.symm.trans hexists
  | accepted hexists hread hcommit =>
    exact absurd ((commit_ok hcommit).1.symm.trans (h.failed hexists)) (hinv.attempts _ hread)

theorem run_inv (maxPending : ℕ) (es : List Event) : Inv maxPending (run (step maxPending) initial es) :=
  run_always (fun _ e h => h.step e) inv_initial es

theorem Dead.run (h : Dead s) (hinv : Inv maxPending s) (es : List Event) :
    Dead (run (HopSender.step maxPending) s es) ∧ Inv maxPending (run (HopSender.step maxPending) s es) := by
  induction es generalizing s with
  | nil => exact ⟨h, hinv⟩
  | cons e es ih => exact ih (h.step hinv e) (hinv.step e)

/-- **The send history**: after every run the order lists exactly the retained frames, each once and
within the window; a frame is accepted under a number that is not zero and not in use; and a failed
stream retains nothing and accepts nothing any more. -/
theorem hop_send_history (maxPending : ℕ) (es : List Event) (s : HopSender)
    (hs : run (step maxPending) initial es = s) :
    (∀ st, s.stream = some st → st.sentOrder.Nodup ∧ (∀ seq, seq ∈ st.sentOrder ↔ seq ∈ st.sent) ∧
      st.sent.size ≤ maxPending) ∧ (∀ e seq, Accepts maxPending s e seq → seq ≠ 0 ∧ s.lookup seq = none) ∧
    ∀ st, s.stream = some st → st.nextSeq = 0 → st.sent.size = 0 ∧
      ∀ es' e seq, (run (step maxPending) s es').lookup seq = none ∧
        ¬ Accepts maxPending (run (step maxPending) s es') e seq := by
  have hinv : Inv maxPending s := hs ▸ run_inv maxPending es
  refine ⟨?_, fun e seq he => hinv.accepts he, ?_⟩
  · intro st hst
    have hwf := hinv.stream st hst
    refine ⟨hwf.nodup, hwf.keys, ?_⟩
    rw [hwf.size_eq]
    exact hwf.bound
  · intro st hst hzero
    have hwf := hinv.stream st hst
    have horder := hwf.failed hzero
    have hdead : Dead s := by
      refine ⟨?_, fun _ => (congrArg (·.nextSeq) (streamOr_of_some hst)).trans hzero⟩
      intro seq
      rw [lookup_eq, streamOr_of_some hst, ← not_mem_iff, ← hwf.keys, horder]
      exact not_mem_nil
    refine ⟨?_, ?_⟩
    · rw [hwf.size_eq, horder]
      rfl
    · intro es' e seq
      obtain ⟨hdead', hinv'⟩ := hdead.run hinv es'
      exact ⟨hdead'.empty seq, hdead'.not_accepts hinv' e seq⟩

/-- Two frames of an ordered stream; the offer of the second one fails for good. -/
def failingStream : List Event :=
  [.reserve, .commit 0 [1] 10 true, .complete 0 .ordered (.ok ()) 5, .reserve, .commit 1 [2] 11 true,
    .complete 1 .ordered (.error (.io "closed")) 6]

theorem hop_send_history_failing :
    ∃ s st, run (step 4) initial failingStream = s ∧ s.stream = some st ∧ st.nextSeq = 0 ∧
      st.sentOrder = [] ∧ st.sent.size = 0 ∧
      ∀ es' e seq, (run (step 4) s es').lookup seq = none ∧ ¬ Accepts 4 (run (step 4) s es') e seq := by
  obtain ⟨st, hst⟩ : ∃ st, (run (step 4) initial failingStream).stream = some st := ⟨_, rfl⟩
  have hzero : (run (step 4) initial failingStream).stream.map (·.nextSeq) = some 0 := by decide +kernel
  have horder : (run (step 4) initial failingStream).stream.map (·.sentOrder) = some [] := by decide +kernel
  rw [hst] at hzero horder
  have hnext : st.nextSeq = 0 := Option.some.inj hzero
  refine ⟨_, st, rfl, hst, hnext, Option.some.inj horder, ?_⟩
  exact (hop_send_history 4 failingStream _ rfl).2.2 st hst hnext

end HopSender

end SedsNet
