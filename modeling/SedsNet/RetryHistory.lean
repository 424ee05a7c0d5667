import SedsNet.RetryLease

/-! # The history behind a discarded lease

A lease may be discarded only because an identical frame of the same message went out before, in
the same generation, and because the message completed after the lease was admitted.  These are
statements about earlier events.  `History` relates the flags and ledgers of a state to the events
that set them, each with its index in the run, and `retry_lease_safety` puts the indices in
order. -/

namespace SedsNet

namespace RetryLease

open Runs LeaseState

/-- The state in which the event of index `i` happens. -/
def stateAt (es : List Event) (i : ℕ) : LeaseState := before step initial es i

variable {es : List Event} {i : ℕ}

theorem stateAt_append {e : Event} (es' : List Event) (h : es[i]? = some e) :
    stateAt (es ++ es') i = stateAt es i := before_of_some h

/-! ### Events with their indices -/

/-- At `d` a started write with this frame reports that it was drained, in the generation of the
given fence. -/
def DrainedAt (es : List Event) (t fence : ℕ) (frame : DrainedFrame) (d : ℕ) : Prop :=
  ∃ w x, es[d]? = some (.reportDrained w) ∧ (stateAt es d).writes[w]? = some x ∧
    x.tracker = some t ∧ x.live = true ∧ x.started = true ∧ x.drained = false ∧
    x.discarded = false ∧ x.parent = frame.parent ∧ x.birth = frame.birth ∧ x.bytes = frame.bytes ∧
    (stateAt es d).fenceOf t = some fence

/-- At `o` the write is offered; if it is eligible it is a retry of a frame drained before. -/
def OfferedAt (es : List Event) (w : ℕ) (x : Write) (o : ℕ) : Prop :=
  ∃ env t intent, es[o]? = some (.offer env t intent x.bytes) ∧
    (stateAt es o).writes.length = w ∧ x.tracker = some t ∧
    (stateAt es o).fenceOf t = some x.fence ∧
    (x.eligible = true → ∃ i, intent = some i ∧ i.retry = true ∧ i.parent = x.parent ∧
      i.birth = x.birth ∧ ∃ d < o, DrainedAt es t x.fence ⟨x.parent, x.birth, x.bytes⟩ d)

/-- At `a` the write is admitted, under the serial number drawn there. -/
def AdmittedAt (es : List Event) (w : ℕ) (x : Write) (a : ℕ) : Prop :=
  es[a]? = some (.admitWrite w) ∧ x.admission = (nextSerial (stateAt es a).serial).1

/-- At `j` the message completes, and the cutoff is the serial number drawn there. -/
def CompletedAt (es : List Event) (c : Completion) (j : ℕ) : Prop :=
  es[j]? = some (.complete c.id c.completed) ∧ c.cutoff = (nextSerial (stateAt es j).serial).1

/-- At `r` the write is retired, for the completion of its message. -/
def RetiredAt (es : List Event) (x : Write) (r : ℕ) : Prop :=
  ∃ env book t i c, es[r]? = some (.retire env book t i) ∧
    (stateAt es r).completions[i]? = some c ∧ c.id = x.parent ∧
    c.completed.completionEpoch = x.birth ∧ x.eligible = true ∧ x.admission ≠ 0 ∧
    x.admission < c.cutoff ∧ sameContract env book c.id c.completed.data x.bytes = true ∧
    ∃ j < r, CompletedAt es c j

variable {e : Event} {t : ℕ} {fence d : ℕ}

theorem DrainedAt.append {frame : DrainedFrame} (es' : List Event)
    (h : DrainedAt es t fence frame d) : DrainedAt (es ++ es') t fence frame d := by
  obtain ⟨w, x, he, h⟩ := h
  refine ⟨w, x, getElem?_append_of_some he, ?_⟩
  rw [stateAt_append es' he]
  exact h

variable {w o : ℕ} {x : Write}

theorem OfferedAt.append (es' : List Event) (h : OfferedAt es w x o) : OfferedAt (es ++ es') w x o := by
  obtain ⟨env, t, intent, he, hlen, htracker, hfence, heligible⟩ := h
  have hsame := stateAt_append es' he
  refine ⟨env, t, intent, getElem?_append_of_some he, ?_, htracker, ?_, ?_⟩
  · rw [hsame]
    exact hlen
  · rw [hsame]
    exact hfence
  · intro hx
    obtain ⟨i, hi, hretry, hparent, hbirth, d, hd, hdrained⟩ := heligible hx
    exact ⟨i, hi, hretry, hparent, hbirth, d, hd, hdrained.append es'⟩

variable {a : ℕ}

theorem AdmittedAt.append (es' : List Event) (h : AdmittedAt es w x a) : AdmittedAt (es ++ es') w x a := by
  refine ⟨getElem?_append_of_some h.1, ?_⟩
  rw [stateAt_append es' h.1]
  exact h.2

variable {j : ℕ} {c : Completion}

theorem CompletedAt.append (es' : List Event) (h : CompletedAt es c j) : CompletedAt (es ++ es') c j := by
  refine ⟨getElem?_append_of_some h.1, ?_⟩
  rw [stateAt_append es' h.1]
  exact h.2

theorem RetiredAt.append {r : ℕ} (es' : List Event) (h : RetiredAt es x r) : RetiredAt (es ++ es') x r := by
  obtain ⟨env, book, t, i, c, he, hc, hid, hepoch, helig, hne, hlt, hsame, j, hj, hcompleted⟩ := h
  refine ⟨env, book, t, i, c, getElem?_append_of_some he, ?_, hid, hepoch, helig, hne, hlt, hsame,
    j, hj, hcompleted.append es'⟩
  rw [stateAt_append es' he]
  exact hc

/-! ### The history of a state -/

/-- What the events say about one write, offered at `o`. -/
structure WriteHistory (es : List Event) (w : ℕ) (x : Write) (o : ℕ) : Prop where
  offered : OfferedAt es w x o
  admitted : x.admitted = true → ∃ a, o < a ∧ AdmittedAt es w x a
  retired : x.retired = true → x.admitted = true ∧ ∃ r, RetiredAt es x r

theorem WriteHistory.append (es' : List Event)
    (h : WriteHistory es w x o) : WriteHistory (es ++ es') w x o where
  offered := h.offered.append es'
  admitted := by
    intro hx
    obtain ⟨a, hlt, ha⟩ := h.admitted hx
    exact ⟨a, hlt, ha.append es'⟩
  retired := by
    intro hx
    obtain ⟨hadmitted, r, hr⟩ := h.retired hx
    exact ⟨hadmitted, r, hr.append es'⟩

structure History (es : List Event) (s : LeaseState) : Prop where
  writes : ∀ (w : ℕ) (x : Write), s.writes[w]? = some x → ∃ o < es.length, WriteHistory es w x o
  frames : ∀ (t : ℕ) (k : TrackerInner) frame, s.trackers[t]? = some k →
    frame ∈ k.ledger.history → ∃ d < es.length, DrainedAt es t k.ledger.fence frame d
  completions : ∀ (i : ℕ) (c : Completion), s.completions[i]? = some c →
    ∃ j < es.length, CompletedAt es c j

/-- The newest event of a run, in the state it happens in. -/
theorem stateAt_concat (es : List Event) (e : Event) : stateAt (es ++ [e]) es.length = run step initial es :=
  before_concat initial es e

variable {s : LeaseState} {env : WireEnv} {k : TrackerInner} {intent : Option Intent} {bytes : Bytes}

/-- A tracked retry with a drained twin was offered as a retry. -/
theorem isEligible_tracked (h : isEligible k (s.trackedIntent env k intent bytes) bytes = true) :
    ∃ i, s.trackedIntent env k intent bytes = some i ∧ intent = some i ∧ i.retry = true ∧
      ⟨i.parent, i.birth, bytes⟩ ∈ k.ledger.history := by
  cases htracked : s.trackedIntent env k intent bytes with
  | none =>
    rw [htracked] at h
    cases h
  | some i =>
    rw [htracked, isEligible, Option.any_some, Bool.and_eq_true, List.any_eq_true] at h
    obtain ⟨hretry, frame, hmem, hframe⟩ := h
    simp only [Bool.and_eq_true, beq_iff_eq] at hframe
    obtain ⟨⟨hparent, hbirth⟩, hbytes⟩ := hframe
    have hintent : intent = some i :=
      (Option.filter_eq_some_iff.mp (Option.filter_eq_some_iff.mp htracked).1).1
    refine ⟨i, rfl, hintent, hretry, ?_⟩
    rw [← hparent, ← hbirth, ← hbytes]
    exact hmem

theorem History.offered (h : History es (run step initial es)) (hk : (run step initial es).trackers[t]? = some k) :
    WriteHistory (es ++ [.offer env t intent bytes]) (run step initial es).writes.length
      ((run step initial es).offeredWrite env t k intent bytes) es.length where
  offered := by
    refine ⟨env, t, intent, List.getElem?_concat_length, ?_, rfl, ?_, ?_⟩
    · rw [stateAt_concat]
    · rw [stateAt_concat, fenceOf, hk]
      rfl
    · intro heligible
      obtain ⟨i, htracked, hintent, hretry, hmem⟩ := isEligible_tracked heligible
      obtain ⟨d, hd, hdrained⟩ := h.frames t k _ hk hmem
      refine ⟨i, hintent, hretry, ?_, ?_, d, hd, ?_⟩
      · simp only [offeredWrite, htracked]
        rfl
      · simp only [offeredWrite, htracked]
        rfl
      · simp only [offeredWrite, htracked]
        exact hdrained.append _
  admitted := by
    intro hx
    cases hx
  retired := by
    intro hx
    cases hx

theorem History.changed {x' : Write}
    (h : History es (run step initial es)) (hx : WriteHistory es w x o) (ho : o < es.length)
    (hchange : Change (run step initial es) e w x x') : WriteHistory (es ++ [e]) w x' o := by
  have hold := hx.append [e]
  cases hchange with
  | kept => exact hold
  | dropped | started | drained | discarded => exact ⟨hold.offered, hold.admitted, hold.retired⟩
  | admitted he hfresh =>
    subst he
    refine ⟨hold.offered, ?_, ?_⟩
    · intro _
      refine ⟨es.length, ho, List.getElem?_concat_length, ?_⟩
      rw [stateAt_concat]
    · intro hretired
      -- A write that was not admitted was not retired.
      rw [(hold.retired hretired).1] at hfresh
      cases hfresh
  | untracked htracker =>
    obtain ⟨_, _, _, _, _, hsome, _⟩ := hold.offered
    rw [htracker] at hsome
    cases hsome
  | retired env book t i c he hc fence hretires =>
    subst he
    simp only [retires, Bool.and_eq_true, beq_iff_eq, bne_iff_ne, decide_eq_true_eq] at hretires
    obtain ⟨⟨⟨⟨⟨⟨⟨⟨⟨⟨helig, hparent⟩, hbirth⟩, _⟩, _⟩, hne⟩, hlt⟩, hadmitted⟩, _⟩, _⟩, hsame⟩ := hretires
    refine ⟨hold.offered, hold.admitted, ?_⟩
    intro _
    obtain ⟨j, hj, hcompleted⟩ := h.completions i c hc
    refine ⟨hadmitted, es.length, env, book, t, i, c, List.getElem?_concat_length, ?_, hparent.symm,
      hbirth.symm, helig, hne, hlt, hsame, j, hj, hcompleted.append _⟩
    rw [stateAt_concat]
    exact hc

theorem history_step (es : List Event) (e : Event) (h : History es (run step initial es)) :
    History (es ++ [e]) (step (run step initial es) e) := by
  have hlen : es.length < (es ++ [e]).length := by simp
  refine ⟨?_, ?_, ?_⟩
  · intro w x' hx'
    obtain ⟨x, hx, hchange⟩ | ⟨env, t, intent, bytes, k, rfl, hk, rfl, rfl⟩ := step_write _ e hx'
    · obtain ⟨o, ho, hwrite⟩ := h.writes w x hx
      exact ⟨o, ho.trans hlen, h.changed hwrite ho hchange⟩
    · exact ⟨es.length, hlen, h.offered hk⟩
  · intro t k' frame hk' hmem
    obtain ⟨hempty, _⟩ | ⟨k, hk, hchange⟩ := (step_effect _ e).ledgers _ _ hk'
    · rw [hempty] at hmem
      cases hmem
    generalize k'.ledger = l' at hchange hmem ⊢
    cases hchange with
    | kept pending =>
      obtain ⟨d, hd, hdrained⟩ := h.frames t k frame hk hmem
      exact ⟨d, hd.trans hlen, hdrained.append [e]⟩
    | invalidated _ => cases hmem
    | drained w x limits he hx htracker hlive hstarted hdrained hdiscarded hfence =>
      obtain hmem | hmem := List.mem_append.mp hmem
      · obtain ⟨d, hd, hold⟩ := h.frames t k frame hk (trimHistory_subset _ _ _ hmem)
        exact ⟨d, hd.trans hlen, hold.append [e]⟩
      rw [List.mem_singleton.mp hmem]
      subst he
      refine ⟨es.length, hlen, w, x, List.getElem?_concat_length, ?_, htracker, hlive, hstarted,
        hdrained, hdiscarded, rfl, rfl, rfl, ?_⟩
      · rw [stateAt_concat]
        exact hx
      · rw [stateAt_concat, fenceOf, hk]
        rfl
  · intro i c hc
    obtain hsame | ⟨id, completed, rfl, hnew⟩ := (step_effect (run step initial es) e).completions
    · rw [hsame] at hc
      obtain ⟨j, hj, hcompleted⟩ := h.completions i c hc
      exact ⟨j, hj.trans hlen, hcompleted.append [e]⟩
    · rw [hnew] at hc
      obtain ⟨-, hold⟩ | ⟨-, rfl⟩ := getElem?_concat_cases hc
      · obtain ⟨j, hj, hcompleted⟩ := h.completions i c hold
        exact ⟨j, hj.trans hlen, hcompleted.append _⟩
      · refine ⟨es.length, hlen, List.getElem?_concat_length, ?_⟩
        rw [stateAt_concat]

/-- Every state reached has its history. -/
theorem history (es : List Event) : History es (run step initial es) := by
  refine history_invariant ?_ history_step es
  refine ⟨?_, ?_, ?_⟩
  · intro w x hx
    cases hx
  · intro t k frame hk
    cases hk
  · intro i c hc
    cases hc

/-! ### Serial numbers and generations -/

theorem serial_mono (es : List Event) (h : i ≤ j) : (stateAt es i).serial ≤ (stateAt es j).serial :=
  before_mono (R := fun s s' : LeaseState => s.serial ≤ s'.serial) (fun _ => Nat.le_refl _)
    (fun _ _ _ => Nat.le_trans) serial_le_step h

/-- The counter has been started, and every fence was drawn from it. -/
structure Numbered (s : LeaseState) : Prop where
  pos : 0 < s.serial
  fence : ∀ (t : ℕ) k, s.trackers[t]? = some k → k.ledger.fence < s.serial

/-- A fence after an event was there before, or the event has drawn it. -/
theorem fence_step (s : LeaseState) (e : Event) (hk : (step s e).trackers[t]? = some k) :
    (k.ledger.fence = (nextSerial s.serial).1 ∧ (step s e).serial = (nextSerial s.serial).2) ∨
      ∃ k₀, s.trackers[t]? = some k₀ ∧ k.ledger.fence = k₀.ledger.fence := by
  obtain ⟨hnew, router, limits, rfl⟩ | ⟨k₀, hk₀, hchange⟩ := (step_effect s e).ledgers _ _ hk
  · rw [hnew]
    exact .inl ⟨rfl, rfl⟩
  generalize k.ledger = l at hchange ⊢
  cases hchange with
  | kept | drained => exact .inr ⟨k₀, hk₀, rfl⟩
  | invalidated he =>
    subst he
    exact .inl ⟨rfl, rfl⟩

theorem numbered_step (s : LeaseState) (e : Event) (h : Numbered s) : Numbered (step s e) := by
  have hmono := serial_le_step s e
  refine ⟨h.pos.trans_le hmono, ?_⟩
  intro t k hk
  obtain ⟨hfence, hserial⟩ | ⟨k₀, hk₀, hfence⟩ := fence_step s e hk
  · rw [hfence, hserial]
    exact nextSerial_lt h.pos
  · rw [hfence]
    exact (h.fence t k₀ hk₀).trans_le hmono

theorem numbered (es : List Event) : Numbered (run step initial es) := by
  refine run_always numbered_step ?_ es
  refine ⟨by decide, ?_⟩
  intro t k hk
  cases hk

/-- The fence of `t` was drawn no earlier than the serial number `n`. -/
structure DrawnSince (t n : ℕ) (s : LeaseState) : Prop where
  serial : n ≤ s.serial
  fence : ∀ k, s.trackers[t]? = some k → k.ledger.fence = 0 ∨ n ≤ k.ledger.fence

theorem drawnSince_step {n : ℕ} (s : LeaseState) (e : Event) (h : DrawnSince t n s) : DrawnSince t n (step s e) := by
  refine ⟨h.serial.trans (serial_le_step s e), ?_⟩
  intro k hk
  obtain ⟨hfence, -⟩ | ⟨k₀, hk₀, hfence⟩ := fence_step s e hk
  · rw [hfence]
    exact (nextSerial_fst s.serial).imp_right fun hserial => h.serial.trans hserial.ge
  · rw [hfence]
    exact h.fence k₀ hk₀

theorem drawnSince_invalidate (t : ℕ) (s : LeaseState) : DrawnSince t s.serial (step s (.invalidateGeneration t)) := by
  refine ⟨serial_le_step s _, ?_⟩
  intro k' hk'
  have hmodified : (s.modifyLedger t fun l =>
      { l with fence := (nextSerial s.serial).1, history := [] }).trackers[t]? = some k' := hk'
  rw [getElem?_modifyLedger] at hmodified
  obtain ⟨k, _, rfl⟩ := Option.map_eq_some_iff.mp hmodified
  rw [if_pos rfl]
  obtain hzero | hserial := nextSerial_fst s.serial
  · exact .inl hzero
  · exact .inr hserial.ge

/-- A fence comes back only if the generation was never invalidated in between. -/
theorem not_invalidated (hd : (stateAt es d).fenceOf t = some fence)
    (hnow : (run step initial es).fenceOf t = some fence) (hne : fence ≠ 0) (hi : d ≤ i) :
    es[i]? ≠ some (.invalidateGeneration t) := by
  intro he
  obtain ⟨k₀, hk₀, hfence₀⟩ := Option.map_eq_some_iff.mp hd
  obtain ⟨k, hk, hfence⟩ := Option.map_eq_some_iff.mp hnow
  -- The fence at `d` is below the counter at `i`, and the fence drawn at `i` is not.
  have hbelow : fence < (stateAt es i).serial := by
    rw [← hfence₀]
    exact ((numbered (es.take d)).fence t k₀ hk₀).trans_le (serial_mono es hi)
  have hsince : DrawnSince t (stateAt es i).serial (run step initial es) := by
    rw [← run_drop_before initial es (i + 1)]
    refine run_always drawnSince_step ?_ _
    rw [before_succ he]
    exact drawnSince_invalidate t (stateAt es i)
  obtain hzero | hle := hsince.fence k hk
  · exact hne (hfence.symm.trans hzero)
  · omega

/-! ### Started and discarded -/

/-- The flags of a write are never cleared. -/
def Later (s s' : LeaseState) : Prop :=
  ∀ (w : ℕ) x, s.writes[w]? = some x → ∃ x', s'.writes[w]? = some x' ∧
    (x.started = true → x'.started = true) ∧ (x.discarded = true → x'.discarded = true)

theorem Later.refl (s : LeaseState) : Later s s := fun _ x hx => ⟨x, hx, id, id⟩

theorem Later.trans (s s' s'' : LeaseState) (h : Later s s') (h' : Later s' s'') : Later s s'' := by
  intro w x hx
  obtain ⟨x', hx', hstarted, hdiscarded⟩ := h w x hx
  obtain ⟨x'', hx'', hstarted', hdiscarded'⟩ := h' w x' hx'
  exact ⟨x'', hx'', hstarted' ∘ hstarted, hdiscarded' ∘ hdiscarded⟩

theorem later_step (s : LeaseState) (e : Event) : Later s (step s e) := by
  intro w x hx
  obtain ⟨x', hx', hchange⟩ := step_keeps s e hx
  refine ⟨x', hx', ?_⟩
  cases hchange with
  | kept | dropped | admitted | untracked | drained | retired => exact ⟨id, id⟩
  | started hopen => exact ⟨fun _ => rfl, id⟩
  | discarded hprune => exact ⟨id, fun _ => rfl⟩

theorem later_run (s : LeaseState) (es : List Event) : Later s (run step s es) :=
  run_always (fun _ e h => h.trans _ _ _ (later_step _ e)) (Later.refl s) es

theorem prunable_not_started (h : s.prunable x = true) : x.started = false := by
  simp only [prunable, Bool.and_eq_true, Bool.not_eq_true'] at h
  exact h.1.2

theorem not_started_and_discarded (es : List Event)
    (hx : (run step initial es).writes[w]? = some x) : ¬ (x.started = true ∧ x.discarded = true) := by
  refine run_always (I := fun s : LeaseState => ∀ w x,
    s.writes[w]? = some x → ¬ (x.started = true ∧ x.discarded = true)) ?_ ?_ es w x hx
  · intro s e ih w x' hx'
    obtain ⟨x, hx, hchange⟩ | ⟨env, t, intent, bytes, k, _, _, _, rfl⟩ := step_write _ e hx'
    · have hold := ih w x hx
      cases hchange with
      | kept | dropped | admitted | untracked | drained | retired => exact hold
      | started hopen =>
        rintro ⟨_, hdiscarded⟩
        cases hopen.symm.trans hdiscarded
      | discarded hprune =>
        rintro ⟨hstarted, _⟩
        cases (prunable_not_started hprune).symm.trans hstarted
    · rintro ⟨hstarted, _⟩
      cases hstarted
  · intro w x hx
    cases hx

/-! ### Discarded leases -/

/-- What must have happened before the write `x` of index `w` is discarded: its bytes were drained
at `d` for the same parent and birth, in the generation that still runs, it was offered as a retry at
`o`, admitted at `a`, and its message completed at `j` with a cutoff above the admission. -/
def LawfulDiscard (es : List Event) (w : ℕ) (x : Write) : Prop :=
  ∃ t d o a j, d < o ∧ o < a ∧ a < j ∧
    (∃ fence, DrainedAt es t fence ⟨x.parent, x.birth, x.bytes⟩ d ∧
      (run step initial es).fenceOf t = some fence) ∧
    (∀ i, d ≤ i → es[i]? ≠ some (.invalidateGeneration t)) ∧
    (∃ env intent, es[o]? = some (.offer env t (some intent) x.bytes) ∧
      (stateAt es o).writes.length = w ∧ intent.retry = true ∧ intent.parent = x.parent ∧
      intent.birth = x.birth) ∧
    AdmittedAt es w x a ∧
    ∃ c, CompletedAt es c j ∧ c.id = x.parent ∧ c.completed.completionEpoch = x.birth ∧
      x.admission < c.cutoff ∧ ∃ r, j < r ∧ RetiredAt es x r

/-- Serial numbers order the events that drew them. -/
theorem admitted_before_completed (ha : AdmittedAt es w x a) (hj : CompletedAt es c j) (hne : x.admission ≠ 0)
    (hlt : x.admission < c.cutoff) : a < j := by
  by_contra hnot
  have hmono := serial_mono es (Nat.le_of_not_lt hnot)
  have hadmission : x.admission = (stateAt es a).serial := by
    obtain hzero | hserial := nextSerial_fst (stateAt es a).serial
    · exact absurd (ha.2.trans hzero) hne
    · exact ha.2.trans hserial
  have hcutoff : c.cutoff = 0 ∨ c.cutoff = (stateAt es j).serial := by
    rw [hj.2]
    exact nextSerial_fst _
  omega

/-- A retired write that is still in its generation was offered, admitted and completed in order. -/
theorem lawful_of_prunable (hx : (run step initial es).writes[w]? = some x)
    (hprune : (run step initial es).prunable x = true) : LawfulDiscard es w x := by
  obtain ⟨o, _, hwrite⟩ := (history es).writes w x hx
  simp only [prunable, Bool.and_eq_true] at hprune
  obtain ⟨⟨hretired, _⟩, hcurrent⟩ := hprune
  obtain ⟨hadmitted, r, hr⟩ := hwrite.retired hretired
  obtain ⟨a, hoa, ha⟩ := hwrite.admitted hadmitted
  obtain ⟨env, t, intent, ho, hlen, htracker, hfence, heligible⟩ := hwrite.offered
  have hr' := hr
  obtain ⟨_, _, _, _, c, _, _, hid, hepoch, helig, hne, hlt, _, j, hjr, hj⟩ := hr'
  obtain ⟨i, rfl, hretry, hparent, hbirth, d, hdo, hdrained⟩ := heligible helig
  -- The ledger still has the fence the write was offered under.
  obtain ⟨k, hk, hfences⟩ := (Option.any_eq_true _ _).mp hcurrent
  rw [Bool.and_eq_true, bne_iff_ne, beq_iff_eq] at hfences
  obtain ⟨hnonzero, hsame⟩ := hfences
  have hnow : (run step initial es).fenceOf t = some x.fence := by
    rw [trackerOf, htracker, Option.bind_some] at hk
    rw [fenceOf, hk, Option.map_some, hsame]
  have hvalid : ∀ i, d ≤ i → es[i]? ≠ some (.invalidateGeneration t) := by
    intro i hi
    have hthen := hdrained
    obtain ⟨_, _, _, _, _, _, _, _, _, _, _, _, hthen⟩ := hthen
    exact not_invalidated hthen hnow (hsame ▸ hnonzero) hi
  exact ⟨t, d, o, a, j, hdo, hoa, admitted_before_completed ha hj hne hlt,
    ⟨x.fence, hdrained, hnow⟩, hvalid, ⟨env, i, ho, hlen, hretry, hparent, hbirth⟩, ha,
    c, hj, hid, hepoch, hlt, r, hjr, hr⟩

/-- The event discards the write `w`. -/
def Discards (s : LeaseState) (e : Event) (w : ℕ) (x : Write) : Prop :=
  s.writes[w]? = some x ∧ x.discarded = false ∧
    ∃ x', (step s e).writes[w]? = some x' ∧ x'.discarded = true

theorem prunable_of_discards (h : Discards s e w x) : s.prunable x = true := by
  obtain ⟨hx, hopen, x', hx', hdiscarded⟩ := h
  obtain ⟨x'', hx'', hchange⟩ := step_keeps s e hx
  cases hx'.symm.trans hx''
  cases hchange with
  | kept | dropped | admitted | untracked | started | drained | retired => cases hopen.symm.trans hdiscarded
  | discarded hprune => exact hprune

/-- A batch starts all of its leases, or leaves the state as it is. -/
theorem tryStartBatch_all_or_none (s : LeaseState) (ws : List ℕ) : ((s.tryStartBatch ws).2 = .ok .ready ∧
      ∀ w ∈ ws, ∀ x, (s.tryStartBatch ws).1.writes[w]? = some x → x.started = true) ∨
    ((s.tryStartBatch ws).2 ≠ .ok .ready ∧ (s.tryStartBatch ws).1 = s) := by
  cases ws with
  | nil =>
    refine .inl ⟨rfl, ?_⟩
    intro w hw
    cases hw
  | cons first rest =>
    simp only [tryStartBatch]
    split
    · exact .inr ⟨by simp, rfl⟩
    split
    · exact .inr ⟨by simp, rfl⟩
    split
    · exact .inr ⟨by simp, rfl⟩
    refine .inl ⟨rfl, ?_⟩
    intro w hw x hx
    rw [foldl_modifyWrite, getElem?_foldl_modify] at hx
    obtain ⟨y, _, rfl⟩ := Option.map_eq_some_iff.mp hx
    -- The lease occurs in the batch, so the flag was set at least once.
    obtain ⟨n, hn⟩ := Nat.exists_eq_succ_of_ne_zero (List.count_pos_iff.mpr hw).ne'
    rw [hn, Function.iterate_succ_apply']

/-- **Retry leases are safe**: a lease is discarded only after the events of `LawfulDiscard` and
without ever having started; a started lease is never discarded and a discarded one never starts;
and a batch starts as a whole. -/
theorem retry_lease_safety (es : List Event) : (∀ e w x, Discards (run step initial es) e w x → LawfulDiscard es w x ∧
      ∀ i y, (stateAt es i).writes[w]? = some y → y.started = false) ∧
    (∀ es' (w : ℕ) (x x' : Write), (run step initial es).writes[w]? = some x →
      (run step initial (es ++ es')).writes[w]? = some x' →
      (x.started = true → x'.discarded = false) ∧ (x.discarded = true → x'.started = false)) ∧
    ∀ ws, ((run step initial es).tryStartBatch ws).1 = run step initial es ∨
      ∀ w ∈ ws, ∀ x, ((run step initial es).tryStartBatch ws).1.writes[w]? = some x → x.started = true := by
  refine ⟨?_, ?_, ?_⟩
  · intro e w x h
    have hprune := prunable_of_discards h
    refine ⟨lawful_of_prunable h.1 hprune, ?_⟩
    intro i y hy
    cases hstarted : y.started with
    | false => rfl
    | true =>
      have hlater : Later (stateAt es i) (run step initial es) := by
        rw [← run_drop_before initial es i]
        exact later_run _ _
      obtain ⟨x', hx', hkeeps, _⟩ := hlater w y hy
      cases h.1.symm.trans hx'
      exact absurd (hkeeps hstarted) (by simp [prunable_not_started hprune])
  · intro es' w x x' hx hx'
    have hboth := not_started_and_discarded (es ++ es') hx'
    rw [run_append] at hx'
    obtain ⟨x'', hx'', hstarted, hdiscarded⟩ := later_run (run step initial es) es' w x hx
    cases hx'.symm.trans hx''
    refine ⟨?_, ?_⟩
    · intro h
      simpa [hstarted h] using hboth
    · intro h
      simpa [hdiscarded h] using hboth
  · intro ws
    obtain ⟨_, hall⟩ | ⟨_, hnone⟩ := tryStartBatch_all_or_none (run step initial es) ws
    · exact .inr hall
    · exact .inl hnone

/-- One reliable, unordered type. -/
def statusRegistry : Registry where
  endpoints := [5]
  types := [(101, ⟨.static 1 .uint8 .data, [5], .unordered, 1⟩)]
  staticStringLength := 16
  staticHexLength := 16

def statusPacket : Packet :=
  { publishedPacket 0 with
    ty := 101, dataSize := 1, payload := [0xAA], wireShape := some (.static 1 .uint8 .data),
    wireTargetSenders := some [3], dataSize_eq := rfl, payload_fits := by decide, targets_fit := by decide }

/-- Its unsequenced frame. -/
def statusFrame : Bytes :=
  [198, 1, 101, 1, 7, 151, 215, 142, 162, 13, 5, 12, 7, 66, 1, 1, 3, 0, 0, 0, 0, 0, 0, 0, 132, 0, 170,
    186, 180, 167, 150]

def statusIntent (retry : Bool) : Intent := ⟨9, statusPacket.packetId, 3, retry⟩

/-- The frame goes out, and is offered again; the message completes before the second write starts. -/
def retriedEvents : List Event :=
  [.register 9 {}, .invalidateGeneration 0, .draw,
    .offer (plainEnv statusRegistry) 0 (some (statusIntent false)) statusFrame, .admitWrite 0, .tryStart 0,
    .reportDrained 0, .offer (plainEnv statusRegistry) 0 (some (statusIntent true)) statusFrame,
    .admitWrite 1, .complete statusPacket.packetId ⟨.packet statusPacket, 3⟩,
    .retire (plainEnv statusRegistry) .empty 0 0]

/-- The second write when it is discarded. -/
def retriedWrite : Write where
  tracker := some 0
  bytes := statusFrame
  fence := 2
  parent := statusPacket.packetId
  birth := 3
  eligible := true
  admission := 5
  admitted := true
  retired := true

theorem retry_lease_safety_discard : Discards (run step initial retriedEvents) (.discardIfRetired 1) 1 retriedWrite ∧
    LawfulDiscard retriedEvents 1 retriedWrite := by
  have hdiscards : Discards (run step initial retriedEvents) (.discardIfRetired 1) 1 retriedWrite := by
    refine ⟨by decide +kernel, rfl, { retriedWrite with discarded := true }, by decide +kernel, rfl⟩
  exact ⟨hdiscards, ((retry_lease_safety retriedEvents).1 _ 1 retriedWrite hdiscards).1⟩

end RetryLease

end SedsNet
