import SedsNet.EndToEnd

/-! # The ordered end-to-end pipeline

What each critical section does to the record of a packet (`Fate`), and what follows for the order in
which records were registered: of the records of an ordered type only the one registered first may be
in flight, registrations evict nothing, and a failure takes the whole type with it
(`ordered_pipeline`). -/

namespace SedsNet

namespace EndToEnd

open OrderedMap Runs List
open Std (ExtTreeMap)

variable {cap : ℕ} {s : EndToEnd}

/-! ### Lookups -/

theorem modify_lookup (s : EndToEnd) (id k : UInt64) (f : EndToEndReliableSent → EndToEndReliableSent) :
    (s.modify id f).sent[k]? = if id = k then s.sent[k]?.map f else s.sent[k]? := by
  have hsent : (s.modify id f).sent = change s.sent id f := by
    unfold modify change
    cases s.sent[id]? <;> rfl
  rw [hsent, getElem?_change]

@[simp] theorem modify_order (s : EndToEnd) (id : UInt64) (f : EndToEndReliableSent → EndToEndReliableSent) :
    (s.modify id f).order = s.order := by
  unfold modify
  split <;> rfl

@[simp] theorem modify_handlers (s : EndToEnd) (id : UInt64)
    (f : EndToEndReliableSent → EndToEndReliableSent) : (s.modify id f).handlers = s.handlers := by
  unfold modify
  split <;> rfl

/-! ### Records that stay -/

/-- The record stays what it is for the pipeline, with the same owners pending. -/
structure Similar (r r' : EndToEndReliableSent) : Prop where
  orderedType : r'.orderedType = r.orderedType
  waiting : r'.waitingForPredecessor = r.waitingForPredecessor
  tracked : r'.trackedDestinations = r.trackedDestinations
  owners : ∀ owner, owner ∈ r'.pendingDestinations ↔ owner ∈ r.pendingDestinations

theorem Similar.refl (r : EndToEndReliableSent) : Similar r r := ⟨rfl, rfl, rfl, fun _ => Iff.rfl⟩

theorem Similar.trans {r₁ r₂ r₃ : EndToEndReliableSent} (h : Similar r₁ r₂) (h' : Similar r₂ r₃) : Similar r₁ r₃ :=
  ⟨h'.orderedType.trans h.orderedType, h'.waiting.trans h.waiting, h'.tracked.trans h.tracked,
    fun owner => (h'.owners owner).trans (h.owners owner)⟩

/-- The step keeps every record, and the handlers. -/
structure Alike (s s' : EndToEnd) : Prop where
  order : s'.order = s.order
  handlers : s'.handlers = s.handlers
  fresh : ∀ id : UInt64, s.sent[id]? = none → s'.sent[id]? = none
  kept : ∀ (id : UInt64) r, s.sent[id]? = some r → ∃ r', s'.sent[id]? = some r' ∧ Similar r r'

variable {s' : EndToEnd}

theorem Alike.of_sent {s s' : EndToEnd} (horder : s'.order = s.order) (hhandlers : s'.handlers = s.handlers)
    (hsent : s'.sent = s.sent) : Alike s s' := by
  refine ⟨horder, hhandlers, ?_, ?_⟩
  · intro id hnone
    rw [hsent, hnone]
  · intro id r hr
    exact ⟨r, hsent ▸ hr, Similar.refl r⟩

theorem Alike.refl (s : EndToEnd) : Alike s s := Alike.of_sent rfl rfl rfl

theorem Alike.trans {s₁ s₂ s₃ : EndToEnd} (h : Alike s₁ s₂) (h' : Alike s₂ s₃) : Alike s₁ s₃ := by
  refine ⟨h'.order.trans h.order, h'.handlers.trans h.handlers, fun id hnone => h'.fresh id (h.fresh id hnone), ?_⟩
  intro id r hr
  obtain ⟨r₂, hr₂, hsim⟩ := h.kept id r hr
  obtain ⟨r₃, hr₃, hsim'⟩ := h'.kept id r₂ hr₂
  exact ⟨r₃, hr₃, hsim.trans hsim'⟩

theorem modify_alike (s : EndToEnd) (id : UInt64) {f : EndToEndReliableSent → EndToEndReliableSent}
    (hf : ∀ r, Similar r (f r)) : Alike s (s.modify id f) := by
  refine ⟨modify_order s id f, modify_handlers s id f, ?_, ?_⟩
  · intro k hnone
    rw [modify_lookup, hnone]
    split <;> rfl
  · intro k r hr
    rw [modify_lookup, hr]
    split
    · exact ⟨f r, rfl, hf r⟩
    · exact ⟨r, rfl, Similar.refl r⟩

theorem reconcileFrom_alike (d : Discovered) (ids : List UInt64) :
    ∀ s : EndToEnd, Alike s (reconcileFrom d ids s).1 := by
  induction ids with
  | nil => exact .refl
  | cons id ids ih =>
    intro s
    unfold reconcileFrom
    split
    · exact ih s
    dsimp only
    split
    · exact .of_sent rfl rfl rfl
    · split
      · exact ih s
      · refine (modify_alike s id ?_).trans (ih _)
        intro r
        exact ⟨rfl, rfl, rfl, fun _ => ExtTreeMap.mem_map⟩

theorem reconciled_alike (ctx : TimeoutContext) (s : EndToEnd) : Alike s (reconciled ctx s).1 := by
  unfold reconciled
  split
  · exact .of_sent rfl rfl rfl
  · exact reconcileFrom_alike _ _ s

theorem makeRouteRoom_alike (maxRoutes fuel : ℕ) : ∀ s : EndToEnd, Alike s (makeRouteRoom maxRoutes fuel s).1 := by
  induction fuel with
  | zero => exact .refl
  | succ fuel ih =>
    intro s
    unfold makeRouteRoom
    split
    · exact .of_sent rfl rfl rfl
    · split
      · exact .of_sent rfl rfl rfl
      · refine Alike.trans ?_ (ih _)
        exact .of_sent rfl rfl rfl

theorem rememberRoute_alike (room : RouteRoom) (s : EndToEnd) (id : UInt64) :
    Alike s (rememberRoute room s id).1 := by
  unfold rememberRoute
  dsimp only
  split
  · exact Alike.refl s
  generalize hroom : makeRouteRoom _ _ _ = result
  have halike : Alike s result.1 := by
    rw [← hroom]
    refine Alike.trans ?_ (makeRouteRoom_alike _ _ _)
    exact .of_sent rfl rfl rfl
  obtain ⟨s', stored⟩ := result
  cases stored with
  | false => exact halike
  | true => exact halike.trans (.of_sent rfl rfl rfl)

/-! ### Release -/

theorem releaseFrom_none (now : UInt64) (id : UInt64) (rest : List UInt64) :
    ∀ earlier sent, sent[id]? = none →
      (releaseFrom now earlier rest sent).1[id]? = none := by
  induction rest with
  | nil => exact fun _ _ hnone => hnone
  | cons first rest ih =>
    intro earlier sent hnone
    unfold releaseFrom
    split
    · exact ih _ sent hnone
    rename_i record hrecord
    split
    · exact ih _ sent hnone
    apply ih
    rw [getElem?_insert_eq]
    split
    · rename_i heq
      rw [heq, hnone] at hrecord
      cases hrecord
    · exact hnone

/-- What a release finds for a packet: its record as it was, or one that was waiting with no earlier one
of its type and is not any more. -/
def Released (now id : UInt64) (r : EndToEndReliableSent) (sent : ExtTreeMap UInt64 EndToEndReliableSent)
    (earlier rest : List UInt64) (found : Option EndToEndReliableSent) : Prop :=
  found = some r ∨ found = some { r with waitingForPredecessor := false, lastSendMs := now } ∧
    ∃ before after, rest = before ++ id :: after ∧
      ∀ a ∈ earlier ++ before, ∀ ra : EndToEndReliableSent, sent[a]? = some ra → ra.orderedType ≠ r.orderedType

/-- The entries after the first one, with the first one among the earlier ones. -/
theorem Released.later {now id first : UInt64} {r : EndToEndReliableSent} {found : Option EndToEndReliableSent}
    {sent sent' : ExtTreeMap UInt64 EndToEndReliableSent} {earlier rest : List UInt64}
    (h : Released now id r sent' (earlier ++ [first]) rest found)
    (htypes : ∀ (a : UInt64) (ra : EndToEndReliableSent), sent[a]? = some ra →
      ∃ ra' : EndToEndReliableSent, sent'[a]? = some ra' ∧ ra'.orderedType = ra.orderedType) :
    Released now id r sent earlier (first :: rest) found := by
  obtain hsame | ⟨hreleased, before, after, hsplit, hfirst⟩ := h
  · exact .inl hsame
  refine .inr ⟨hreleased, first :: before, after, by rw [hsplit, cons_append], ?_⟩
  intro a ha ra hra
  obtain ⟨ra', hra', htype⟩ := htypes a ra hra
  rw [← htype]
  refine hfirst a ?_ ra' hra'
  rw [append_assoc]
  exact ha

theorem releaseFrom_some (now : UInt64) (id : UInt64) (rest : List UInt64) :
    ∀ earlier sent r,
      sent[id]? = some r → Released now id r sent earlier rest (releaseFrom now earlier rest sent).1[id]? := by
  induction rest with
  | nil => exact fun _ _ _ hr => .inl hr
  | cons first rest ih =>
    intro earlier sent r hr
    unfold releaseFrom
    split
    · exact (ih _ sent r hr).later fun a ra hra => ⟨ra, hra, rfl⟩
    rename_i record hrecord
    split
    · exact (ih _ sent r hr).later fun a ra hra => ⟨ra, hra, rfl⟩
    rename_i hready
    by_cases heq : first = id
    · subst heq
      cases hrecord.symm.trans hr
      refine .inr ⟨?_, [], rest, rfl, ?_⟩
      · obtain hsame | ⟨hreleased, -⟩ := ih (earlier ++ [first])
          (sent.insert first { r with waitingForPredecessor := false, lastSendMs := now }) _
          (by rw [getElem?_insert_eq, if_pos rfl])
        · exact hsame
        · exact hreleased
      · intro a ha ra hra htype
        rw [append_nil] at ha
        apply hready
        have hany : (earlier.any fun e => sent[e]?.any fun r' => r'.orderedType == r.orderedType) = true := by
          rw [any_eq_true]
          refine ⟨a, ha, ?_⟩
          rw [hra]
          exact beq_iff_eq.mpr htype
        rw [hany, Bool.or_true]
    · refine (ih _ _ r ?_).later ?_
      · rw [getElem?_insert_eq, if_neg heq, hr]
      · intro a ra hra
        rw [getElem?_insert_eq]
        split
        · rename_i ha
          rw [← ha, hrecord] at hra
          cases hra
          exact ⟨_, rfl, rfl⟩
        · exact ⟨ra, hra, rfl⟩

/-! ### Registration -/

theorem dropOldest_of_lt {n : ℕ} {order : List UInt64} (sent : ExtTreeMap UInt64 EndToEndReliableSent)
    (h : order.length < n) : dropOldest n order sent = (order, sent) := by
  cases order with
  | nil => rfl
  | cons id order => rw [dropOldest, if_neg (by omega)]

/-- The order without removed records and the packet. -/
def keptOrder (s : EndToEnd) (id : UInt64) : List UInt64 :=
  s.order.filter fun other => s.sent.contains other && other != id

variable {id : UInt64}

theorem mem_keptOrder {id other : UInt64} : other ∈ s.keptOrder id ↔ other ∈ s.order ∧ other ∈ s.sent ∧ other ≠ id := by
  simp [keptOrder]

/-- The step makes a record. -/
structure Registers (cap : ℕ) (s s' : EndToEnd) (id : UInt64) (r : EndToEndReliableSent) : Prop where
  fresh : s.sent[id]? = none
  room : s.sent.size < max cap 1
  order : s'.order = s.keptOrder id ++ [id]
  sent : s'.sent = s.sent.insert id r
  handlers : s'.handlers = s.handlers
  waiting : ∀ (a : UInt64) ra (ty : UInt32), s.sent[a]? = some ra →
    ra.orderedType = some ty → r.orderedType = some ty → r.waitingForPredecessor = true
  tracked : r.trackedDestinations = !r.pendingDestinations.isEmpty

theorem Registers.sent_of_ne {r : EndToEndReliableSent} {s' : EndToEnd} {k : UInt64} (h : Registers cap s s' id r)
    (hne : k ≠ id) : s'.sent[k]? = s.sent[k]? := by
  rw [h.sent, getElem?_insert_eq, if_neg hne.symm]

theorem Registers.kept {r rk : EndToEndReliableSent} {s' : EndToEnd} {k : UInt64} (h : Registers cap s s' id r)
    (hk : s.sent[k]? = some rk) : s'.sent[k]? = some rk := by
  rw [h.sent_of_ne ?_, hk]
  rintro rfl
  cases h.fresh.symm.trans hk

/-- Registering drops no record, since there is room. -/
theorem remember_eq (hnodup : s.order.Nodup) (hroom : s.sent.size < max cap 1) :
    remember cap s id = { s with order := s.keptOrder id ++ [id] } := by
  have hlength : (s.keptOrder id).length ≤ s.sent.size := by
    apply length_le_size (hnodup.filter _)
    intro other hother
    exact (mem_keptOrder.mp hother).2.1
  have hkept := dropOldest_of_lt s.sent (show (s.keptOrder id).length < max cap 1 by omega)
  unfold keptOrder at hkept ⊢
  simp only [remember, hkept]

theorem newRecord_waiting (ctx : RegisterContext) (ty : DataType) (pending : ExtTreeMap UInt64 ℕ)
    (retained : RouterItem) (a : UInt64) (ra : EndToEndReliableSent) (ty' : UInt32)
    (ha : s.sent[a]? = some ra) (htype : ra.orderedType = some ty')
    (hsame : (newRecord ctx s ty pending retained).orderedType = some ty') :
    (newRecord ctx s ty pending retained).waitingForPredecessor = true := by
  unfold newRecord at hsame ⊢
  dsimp only at hsame ⊢
  rw [hsame, Option.isSome_some, Bool.true_and, any_eq_true]
  exact ⟨(a, ra), ExtTreeMap.mem_toList_iff_getElem?_eq_some.mpr ha, beq_iff_eq.mpr htype⟩

theorem insertRecord_cases (ctx : RegisterContext) (data : RouterItem) (ty : DataType)
    (pending : ExtTreeMap UInt64 ℕ) (hnodup : s.order.Nodup) : (insertRecord cap ctx s data ty pending).1 = s ∨
      ∃ r, Registers cap s (insertRecord cap ctx s data ty pending).1 (data.getHash ctx.env) r := by
  unfold insertRecord
  dsimp only
  split
  · exact .inl rfl
  rename_i hfresh
  split
  · exact .inl rfl
  split
  · exact .inl rfl
  split
  · exact .inl rfl
  · split
    · exact .inl rfl
    · rw [remember_eq hnodup (by omega)]
      exact .inr ⟨_, hfresh, by omega, rfl, rfl, rfl, newRecord_waiting ctx ty pending _, rfl⟩

theorem register_cases (cap : ℕ) (ctx : RegisterContext) (data : RouterItem)
    (destinations : Option (ExtTreeMap UInt64 ℕ)) (hnodup : s.order.Nodup) :
    (s.register cap ctx data destinations).1 = s ∨
      ∃ r, Registers cap s (s.register cap ctx data destinations).1 (data.getHash ctx.env) r := by
  unfold register
  split
  · exact .inl rfl
  · split
    · exact .inl rfl
    · split
      · exact .inl rfl
      · exact insertRecord_cases ctx data _ _ hnodup

/-! ### The fate of a record -/

/-- The step applies an acknowledgement that names the owner to the record of the packet. -/
def Applies (s : EndToEnd) (e : Event) (id owner : UInt64) : Prop :=
  ∃ h handler, e = .applyAck h ∧ s.handlers[h]? = some handler ∧ handler.stage = .routed ∧
    handler.packetId = id ∧ handler.owner = owner

/-- What a step that registers nothing does to the record of a packet. -/
inductive Fate (s : EndToEnd) (e : Event) (id : UInt64) (r : EndToEndReliableSent) :
    Option EndToEndReliableSent → Prop
  | kept {r' : EndToEndReliableSent} (hsimilar : Similar r r') : Fate s e id r (some r')
  /-- No earlier record of its type is left. -/
  | released {r' : EndToEndReliableSent} {now : UInt64} {before after : List UInt64}
      (he : e = .release now) (hsplit : s.order = before ++ id :: after)
      (hfirst : ∀ a ∈ before, ∀ ra : EndToEndReliableSent, s.sent[a]? = some ra →
        ra.orderedType ≠ r.orderedType)
      (htype : r'.orderedType = r.orderedType) (htracked : r'.trackedDestinations = r.trackedDestinations)
      (hpending : r'.pendingDestinations = r.pendingDestinations) : Fate s e id r (some r')
  /-- An owner has acknowledged, and others are left. -/
  | struck {r' : EndToEndReliableSent} {owner : UInt64} (hack : Applies s e id owner)
      (htype : r'.orderedType = r.orderedType)
      (hwaiting : r'.waitingForPredecessor = r.waitingForPredecessor)
      (hpending : r'.pendingDestinations = r.pendingDestinations.erase owner)
      (hleft : r'.pendingDestinations.isEmpty = false) : Fate s e id r (some r')
  /-- The last owner has acknowledged. -/
  | completed {owner : UInt64} (hack : Applies s e id owner)
      (hleft : (r.pendingDestinations.erase owner).isEmpty = true) : Fate s e id r none
  | expired {ctx : TimeoutContext} (he : e = .timeouts ctx) : Fate s e id r none
  /-- The proxy has no return route for the packet. -/
  | abandoned {room : RouteRoom} {upstreamId publisherHash : UInt64}
      (he : e = .proxyRoute room upstreamId id publisherHash) : Fate s e id r none
  | emptied {now : UInt64} (he : e = .retransmit id now) (htracked : r.trackedDestinations = true)
      (hempty : r.pendingDestinations.isEmpty = true) : Fate s e id r none

/-- The step ends the record of a packet as complete. -/
def Completes (s : EndToEnd) (e : Event) (id : UInt64) (c : Completion) : Prop :=
  ∃ h handler, e = .applyAck h ∧ s.handlers[h]? = some handler ∧ handler.packetId = id ∧
    (s.applyAck h).2 = some c

/-- Where a handler after a step comes from; its receipt is due when it was before, or when the step
has completed the record. -/
inductive HandlerFate (s : EndToEnd) (e : Event) (h : ℕ) (handler' : AckHandler) : Prop
  | received {me : LocalIdentity} {pkt : Packet} (he : e = .receive me pkt)
      (hhandler : s.ackHandler me pkt = some handler')
  | staged {handler : AckHandler} (hhandler : s.handlers[h]? = some handler)
      (hsame : handler'.packetId = handler.packetId ∧ handler'.owner = handler.owner)
      (hdue : ∀ upstreamId publisherHash,
        handler'.stage = .completed upstreamId publisherHash ∨ handler'.stage = .marked upstreamId publisherHash →
        (handler.stage = .completed upstreamId publisherHash ∨ handler.stage = .marked upstreamId publisherHash) ∨
          Completes s e handler.packetId (.aggregated upstreamId publisherHash))

/-- Every record and every handler meets its fate and no record is made. -/
structure Tends (s : EndToEnd) (e : Event) (s' : EndToEnd) : Prop where
  order : s'.order = s.order
  fresh : ∀ id : UInt64, s.sent[id]? = none → s'.sent[id]? = none
  fate : ∀ (id : UInt64) r, s.sent[id]? = some r → Fate s e id r s'.sent[id]?
  handlers : ∀ (h : ℕ) (handler' : AckHandler), s'.handlers[h]? = some handler' → HandlerFate s e h handler'

theorem HandlerFate.kept {e : Event} {h : ℕ} {handler : AckHandler} (hget : s.handlers[h]? = some handler) :
    HandlerFate s e h handler := .staged hget ⟨rfl, rfl⟩ fun _ _ => .inl

theorem Alike.tends {s s' : EndToEnd} (h : Alike s s') (e : Event) : Tends s e s' := by
  refine ⟨h.order, h.fresh, ?_, fun _ _ hget => .kept (h.handlers ▸ hget)⟩
  intro id r hr
  obtain ⟨r', hr', hsimilar⟩ := h.kept id r hr
  rw [hr']
  exact .kept hsimilar

variable {e : Event}

theorem remove_tends {s₁ s' : EndToEnd} (halike : Alike s s₁)
    (horder : s'.order = s₁.order) (hhandlers : s'.handlers = s₁.handlers) (hsent : s'.sent = s₁.sent.erase id)
    (hfate : ∀ r : EndToEndReliableSent, s.sent[id]? = some r → Fate s e id r none) : Tends s e s' := by
  refine ⟨horder.trans halike.order, ?_, ?_, fun _ _ hget => .kept (halike.handlers ▸ hhandlers ▸ hget)⟩
  · intro k hnone
    rw [hsent, getElem?_erase_eq, halike.fresh k hnone, ite_self]
  · intro k r hr
    rw [hsent, getElem?_erase_eq]
    split
    · rename_i heq
      subst heq
      exact hfate r hr
    · obtain ⟨r', hr', hsimilar⟩ := halike.kept k r hr
      rw [hr']
      exact .kept hsimilar

variable {r : EndToEndReliableSent}

theorem modify_tends {f : EndToEndReliableSent → EndToEndReliableSent} (hr : s.sent[id]? = some r)
    (hfate : Fate s e id r (some (f r))) : Tends s e (s.modify id f) := by
  refine ⟨modify_order s id f, ?_, ?_, fun _ _ hget => .kept (modify_handlers s id f ▸ hget)⟩
  · intro k hnone
    rw [modify_lookup, hnone, Option.map_none, ite_self]
  · intro k rk hk
    rw [modify_lookup, hk]
    split
    · rename_i heq
      subst heq
      cases hr.symm.trans hk
      exact hfate
    · exact .kept (Similar.refl rk)

variable {h : ℕ} {handler : AckHandler}

theorem Tends.setStage (ht : Tends s e s') (hsame : s'.handlers = s.handlers) {stage : AckStage}
    (hfate : HandlerFate s e h { handler with stage }) : Tends s e (s'.setStage h handler stage) := by
  refine { ht with handlers := ?_ }
  intro h' handler' hget
  change (s'.handlers.set h { handler with stage })[h']? = some handler' at hget
  rw [hsame, getElem?_set] at hget
  split at hget
  · rename_i heq
    split at hget
    · cases hget
      subst heq
      exact hfate
    · cases hget
  · exact .kept hget

theorem Tends.setDone (ht : Tends s e s') (hsame : s'.handlers = s.handlers)
    (hhandler : s.handlers[h]? = some handler) : Tends s e (s'.setStage h handler .done) := by
  refine ht.setStage hsame (.staged hhandler ⟨rfl, rfl⟩ ?_)
  intro upstreamId publisherHash hdue
  obtain hdue | hdue := hdue
  · cases hdue
  · cases hdue

/-- What applying an acknowledgement does: the owner is struck off, and a record without owners is
dropped. -/
inductive AckOutcome (s : EndToEnd) (h : ℕ) : EndToEnd × Option Completion → Prop
  | ignored : AckOutcome s h (s, none)
  | done {handler : AckHandler} (hhandler : s.handlers[h]? = some handler) :
      AckOutcome s h (s.setStage h handler .done, none)
  | struck {handler : AckHandler} {record : EndToEndReliableSent} (hhandler : s.handlers[h]? = some handler)
      (hack : Applies s (.applyAck h) handler.packetId handler.owner)
      (hrecord : s.sent[handler.packetId]? = some record)
      (hleft : (record.pendingDestinations.erase handler.owner).isEmpty = false) :
      AckOutcome s h ((s.modify handler.packetId fun record' => { record' with
        pendingDestinations := record.pendingDestinations.erase handler.owner }).setStage h handler .done, none)
  | completed {handler : AckHandler} {record : EndToEndReliableSent} {stage : AckStage} {c : Completion}
      (hhandler : s.handlers[h]? = some handler) (hack : Applies s (.applyAck h) handler.packetId handler.owner)
      (hrecord : s.sent[handler.packetId]? = some record)
      (hleft : (record.pendingDestinations.erase handler.owner).isEmpty = true)
      (hstage : stage = .done ∨ ∃ upstreamId publisherHash, stage = .completed upstreamId publisherHash ∧
        c = .aggregated upstreamId publisherHash) :
      AckOutcome s h ((s.remove handler.packetId).setStage h handler stage, some c)

theorem applyAck_outcome (s : EndToEnd) (h : ℕ) : AckOutcome s h (s.applyAck h) := by
  unfold applyAck
  split
  · exact .ignored
  rename_i handler hhandler
  split
  · exact .ignored
  rename_i hstage
  have hack : Applies s (.applyAck h) handler.packetId handler.owner :=
    ⟨h, handler, rfl, hhandler, Decidable.not_not.mp hstage, rfl, rfl⟩
  split
  · unfold applyProxyAck
    split
    · exact .done hhandler
    rename_i record hrecord
    dsimp only
    split
    · rename_i hleft
      exact .struck hhandler hack hrecord (Bool.not_eq_true' _ ▸ hleft)
    · rename_i hleft
      rw [Bool.not_eq_true, Bool.not_eq_false'] at hleft
      exact .completed hhandler hack hrecord hleft (.inr ⟨_, _, rfl, rfl⟩)
  · unfold applyOwnAck
    split
    · exact .done hhandler
    rename_i record hrecord
    split
    · exact .done hhandler
    dsimp only
    split
    · rename_i hleft
      exact .struck hhandler hack hrecord (Bool.not_eq_true' _ ▸ hleft)
    · rename_i hleft
      rw [Bool.not_eq_true, Bool.not_eq_false'] at hleft
      rw [← apply_ite some]
      exact .completed hhandler hack hrecord hleft (.inl rfl)

theorem applyAck_tends (s : EndToEnd) (h : ℕ) : Tends s (.applyAck h) (s.applyAck h).1 := by
  have houtcome := applyAck_outcome s h
  generalize hresult : s.applyAck h = result at houtcome ⊢
  cases houtcome with
  | ignored => exact (Alike.refl s).tends _
  | done hhandler => exact ((Alike.refl s).tends _).setDone rfl hhandler
  | struck hhandler hack hrecord hleft =>
    exact (modify_tends hrecord (.struck hack rfl rfl rfl hleft)).setDone (modify_handlers _ _ _) hhandler
  | @completed handler _ _ _ hhandler hack hrecord hleft hstage =>
    have ht : Tends s (.applyAck h) (s.remove handler.packetId) := by
      refine remove_tends (.refl s) rfl rfl rfl ?_
      intro r hr
      cases hrecord.symm.trans hr
      exact .completed hack hleft
    obtain rfl | ⟨upstreamId, publisherHash, rfl, rfl⟩ := hstage
    · exact ht.setDone rfl hhandler
    · refine ht.setStage rfl (.staged hhandler ⟨rfl, rfl⟩ ?_)
      rintro _ _ (hstage | hstage)
      · cases hstage
        exact .inr ⟨h, _, rfl, hhandler, rfl, by rw [hresult]⟩
      · cases hstage

theorem markUpstream_tends (room : RouteRoom) (s : EndToEnd) (h : ℕ) :
    Tends s (.markUpstream room h) (s.markUpstream room h) := by
  unfold markUpstream
  split
  · exact (Alike.refl s).tends _
  rename_i handler hhandler
  split
  · rename_i upstreamId publisherHash _ _ hstage _
    have hfate : HandlerFate s (.markUpstream room h) h
        { handler with stage := .marked upstreamId publisherHash } := by
      refine .staged hhandler ⟨rfl, rfl⟩ ?_
      rintro _ _ (heq | heq)
      · cases heq
      · cases heq
        exact .inl (.inl hstage)
    have halike := rememberRoute_alike room s upstreamId
    split
    · rename_i s' hroute
      rw [hroute] at halike
      exact (halike.tends _).setStage halike.handlers hfate
    · rename_i s' hroute
      rw [hroute] at halike
      refine Tends.setStage (Alike.tends (halike.trans ?_) _) ?_ hfate
      · exact .of_sent rfl rfl rfl
      · exact halike.handlers
  · exact (Alike.refl s).tends _

theorem retransmitSides_tends (s : EndToEnd) (id now : UInt64) :
    Tends s (.retransmit id now) (s.retransmitSides id now).1 := by
  unfold retransmitSides
  split
  · exact (Alike.of_sent rfl rfl rfl).tends _
  rename_i record hrecord
  split
  · rename_i hempty
    rw [Bool.and_eq_true] at hempty
    refine remove_tends (.refl s) rfl rfl rfl ?_
    intro r hr
    cases hrecord.symm.trans hr
    exact .emptied rfl hempty.1 hempty.2
  · refine Alike.tends (modify_alike s id ?_) _
    exact fun r => ⟨rfl, rfl, rfl, fun _ => Iff.rfl⟩

theorem expire_tends (ctx : TimeoutContext) (s : EndToEnd) : Tends s (.timeouts ctx) (expire ctx s) := by
  refine ⟨rfl, ?_, ?_, fun _ _ hget => .kept hget⟩
  · intro id hnone
    change ((s.sent.filterMap (retried ctx)).filter _)[id]? = none
    rw [ExtTreeMap.getElem?_filter', ExtTreeMap.getElem?_filterMap', hnone]
    rfl
  · intro id r hr
    change Fate s _ id r ((s.sent.filterMap (retried ctx)).filter _)[id]?
    rw [ExtTreeMap.getElem?_filter', ExtTreeMap.getElem?_filterMap', hr, Option.bind_some]
    cases hretried : retried ctx id r with
    | none => exact .expired rfl
    | some r' =>
      rw [Option.filter_some]
      split
      · unfold retried at hretried
        split at hretried
        · cases hretried
        split at hretried
        · cases hretried
          exact .kept ⟨rfl, rfl, rfl, fun _ => Iff.rfl⟩
        · cases hretried
          exact .kept (Similar.refl r)
      · exact .expired rfl

theorem processTimeouts_tends (ctx : TimeoutContext) (s : EndToEnd) :
    Tends s (.timeouts ctx) (s.processTimeouts ctx).1 := by
  have halike := reconciled_alike ctx s
  unfold processTimeouts
  split
  · rename_i s' error hreconciled
    rw [hreconciled] at halike
    exact halike.tends _
  · rename_i s' hreconciled
    rw [hreconciled] at halike
    have hexpire := expire_tends ctx s'
    refine ⟨hexpire.order.trans halike.order, fun id hnone => hexpire.fresh id (halike.fresh id hnone), ?_,
      fun _ _ hget => .kept (halike.handlers ▸ hget)⟩
    intro id r hr
    obtain ⟨r', hr', hsimilar⟩ := halike.kept id r hr
    have hfate := hexpire.fate id r' hr'
    generalize (expire ctx s').sent[id]? = result at hfate
    cases hfate with
    | kept hsimilar' => exact .kept (hsimilar.trans hsimilar')
    | struck hack | completed hack =>
      obtain ⟨h, handler, he, -⟩ := hack
      cases he
    | expired => exact .expired rfl
    | released he | abandoned he | emptied he => cases he

theorem proxyRoute_tends (room : RouteRoom) (s : EndToEnd) (upstreamId downstreamId publisherHash : UInt64) :
    Tends s (.proxyRoute room upstreamId downstreamId publisherHash)
      (s.proxyRoute room upstreamId downstreamId publisherHash).1 := by
  unfold proxyRoute
  split
  · exact remove_tends (.refl s) rfl rfl rfl fun r hr => .abandoned rfl
  have halike := rememberRoute_alike room s downstreamId
  split
  · rename_i s' hremember
    rw [hremember] at halike
    exact remove_tends halike rfl rfl rfl fun r hr => .abandoned rfl
  · rename_i s' hremember
    rw [hremember] at halike
    refine Alike.tends (halike.trans ?_) _
    exact .of_sent rfl rfl rfl

theorem release_tends (now : UInt64) (s : EndToEnd) : Tends s (.release now) (s.releaseOrderedSuccessors now).1 := by
  refine ⟨rfl, fun id hnone => releaseFrom_none now id s.order [] s.sent hnone, ?_, fun _ _ hget => .kept hget⟩
  intro id r hr
  obtain hsame | ⟨hreleased, before, after, hsplit, hfirst⟩ := releaseFrom_some now id s.order [] s.sent r hr
  · change Fate s _ id r (releaseFrom now [] s.order s.sent).1[id]?
    rw [hsame]
    exact .kept (Similar.refl r)
  · change Fate s _ id r (releaseFrom now [] s.order s.sent).1[id]?
    rw [hreleased]
    exact .released rfl hsplit hfirst rfl rfl rfl

/-- A step makes one record, or every record meets its fate. -/
theorem step_cases (cap : ℕ) (e : Event) (hnodup : s.order.Nodup) : Tends s e (step cap s e) ∨
      ∃ ctx data destinations r, e = .register ctx data destinations ∧
        Registers cap s (step cap s e) (data.getHash ctx.env) r := by
  have hmodify : ∀ (id : UInt64) {f : EndToEndReliableSent → EndToEndReliableSent},
      (∀ r, Similar r (f r)) → Tends s e (s.modify id f) := fun id f hf => (modify_alike s id hf).tends e
  cases e with
  | register ctx data destinations =>
    obtain hsame | ⟨r, hregisters⟩ := register_cases cap ctx data destinations hnodup
    · refine .inl ?_
      change Tends s _ (s.register cap ctx data destinations).1
      rw [hsame]
      exact (Alike.refl s).tends _
    · exact .inr ⟨ctx, data, destinations, r, rfl, hregisters⟩
  | proxyRoute room upstreamId downstreamId publisherHash =>
    exact .inl (proxyRoute_tends room s upstreamId downstreamId publisherHash)
  | receive me pkt =>
    refine .inl ?_
    change Tends s _ (s.receive me pkt)
    unfold receive
    split
    · exact (Alike.refl s).tends _
    rename_i handler hhandler
    refine { (Alike.refl s).tends _ with handlers := ?_ }
    intro h handler' hget
    obtain ⟨-, hold⟩ | ⟨-, rfl⟩ := getElem?_concat_cases hget
    · exact .kept hold
    · exact .received rfl hhandler
  | applyAck h => exact .inl (applyAck_tends s h)
  | markUpstream room h => exact .inl (markUpstream_tends room s h)
  | forwardReceipt h =>
    refine .inl ?_
    change Tends s _ (s.forwardReceipt h).1
    unfold forwardReceipt
    split
    · exact (Alike.refl s).tends _
    rename_i handler hhandler
    split
    · exact ((Alike.refl s).tends _).setDone rfl hhandler
    · exact (Alike.refl s).tends _
  | release now => exact .inl (release_tends now s)
  | timeouts ctx => exact .inl (processTimeouts_tends ctx s)
  | reconcile d => exact .inl ((reconcileFrom_alike d s.sent.keys s).tends _)
  | retransmit id now => exact .inl (retransmitSides_tends s id now)
  | retransmitQueued id _ | childSent id _ | setReplayQueued id _ =>
    exact .inl (hmodify id fun r => ⟨rfl, rfl, rfl, fun _ => Iff.rfl⟩)
  | otherRoutes routes routeOrder =>
    refine .inl (Alike.tends ?_ _)
    exact .of_sent rfl rfl rfl

/-! ### The pipeline -/

/-- A later record of an ordered type waits. -/
def Behind (s : EndToEnd) (a b : UInt64) : Prop :=
  ∀ (ra rb : EndToEndReliableSent) (ty : UInt32), s.sent[a]? = some ra → s.sent[b]? = some rb →
    ra.orderedType = some ty → rb.orderedType = some ty → rb.waitingForPredecessor = true

structure Pipeline (cap : ℕ) (s : EndToEnd) : Prop where
  order_nodup : s.order.Nodup
  retained : ∀ id ∈ s.sent, id ∈ s.order
  size_le : s.sent.size ≤ max cap 1
  tracked : ∀ (id : UInt64) r, s.sent[id]? = some r →
    r.trackedDestinations = true → r.pendingDestinations.isEmpty = false
  behind : s.order.Pairwise (Behind s)

theorem pipeline_initial (cap : ℕ) : Pipeline cap initial := by
  refine ⟨nodup_nil, ?_, ?_, ?_, List.Pairwise.nil⟩
  · intro id hid
    simp [initial] at hid
  · simp [initial]
  · intro id r hr
    simp [initial] at hr

theorem isEmpty_congr {m m' : ExtTreeMap UInt64 ℕ} (h : ∀ owner, owner ∈ m' ↔ owner ∈ m) : m'.isEmpty = m.isEmpty := by
  rw [Bool.eq_iff_iff, ExtTreeMap.isEmpty_iff, ExtTreeMap.isEmpty_iff,
    ExtTreeMap.eq_empty_iff_forall_not_mem, ExtTreeMap.eq_empty_iff_forall_not_mem]
  exact forall_congr' fun owner => not_congr (h owner)

variable {r' : EndToEndReliableSent}

theorem Fate.orderedType (h : Fate s e id r (some r')) : r'.orderedType = r.orderedType := by
  cases h with
  | kept hsimilar => exact hsimilar.orderedType
  | released _ _ _ htype | struck _ htype => exact htype

theorem Tends.exists_of_some (h : Tends s e s') (hr' : s'.sent[id]? = some r') :
    ∃ r, s.sent[id]? = some r ∧ Fate s e id r (some r') := by
  cases hr : s.sent[id]? with
  | none => cases (h.fresh id hr).symm.trans hr'
  | some r => exact ⟨r, rfl, hr' ▸ h.fate id r hr⟩

theorem mem_before_of_sublist {a b : UInt64} {before after : List UInt64}
    (hnodup : (before ++ b :: after).Nodup) (h : [a, b].Sublist (before ++ b :: after)) : a ∈ before := by
  obtain ⟨hbefore, hrest, hdisjoint⟩ := nodup_append.mp hnodup
  obtain ⟨l₁, l₂, hsplit, hl₁, hl₂⟩ := sublist_append_iff.mp h
  cases l₁ with
  | nil =>
    subst hsplit
    have hb : b ∈ after := by
      cases hl₂ with
      | cons _ hsub | cons_cons _ hsub => exact hsub.subset (by simp)
    exact absurd hb (nodup_cons.mp hrest).1
  | cons x l₁ =>
    rw [cons_append, List.cons.injEq] at hsplit
    rw [hsplit.1]
    exact hl₁.subset mem_cons_self

theorem Pipeline.tends (h : Pipeline cap s) (ht : Tends s e s') : Pipeline cap s' := by
  have hmem : ∀ id ∈ s'.sent, id ∈ s.sent := by
    intro id hid
    obtain ⟨r', hr'⟩ := mem_iff_exists.mp hid
    obtain ⟨r, hr, -⟩ := ht.exists_of_some hr'
    exact mem_iff_exists.mpr ⟨r, hr⟩
  refine ⟨ht.order ▸ h.order_nodup, ?_, (size_le_of_mem hmem).trans h.size_le, ?_, ?_⟩
  · intro id hid
    rw [ht.order]
    exact h.retained id (hmem id hid)
  · intro id r' hr' htracked
    obtain ⟨r, hr, hfate⟩ := ht.exists_of_some hr'
    cases hfate with
    | kept hsimilar =>
      rw [isEmpty_congr hsimilar.owners]
      exact h.tracked id r hr (hsimilar.tracked ▸ htracked)
    | released _ _ _ _ hsame hpending =>
      rw [hpending]
      exact h.tracked id r hr (hsame ▸ htracked)
    | struck _ _ _ _ hleft => exact hleft
  · rw [ht.order, pairwise_iff_forall_sublist]
    intro a b hsub ra' rb' ty ha' hb' htype htype'
    obtain ⟨ra, ha, hfate⟩ := ht.exists_of_some ha'
    obtain ⟨rb, hb, hfate'⟩ := ht.exists_of_some hb'
    have hra : ra.orderedType = some ty := hfate.orderedType ▸ htype
    have hrb : rb.orderedType = some ty := hfate'.orderedType ▸ htype'
    have hwaiting := (pairwise_iff_forall_sublist.mp h.behind) hsub ra rb ty ha hb hra hrb
    cases hfate' with
    | kept hsimilar => rw [hsimilar.waiting, hwaiting]
    | released _ hsplit hfirst =>
      -- The record of `a` comes before that of `b`, which was released as the first one.
      have hnodup := h.order_nodup
      rw [hsplit] at hsub hnodup
      exact absurd (hra.trans hrb.symm) (hfirst a (mem_before_of_sublist hnodup hsub) ra ha)
    | struck _ _ hsame => rw [hsame, hwaiting]

theorem Pipeline.registers (h : Pipeline cap s) (hr : Registers cap s s' id r) : Pipeline cap s' := by
  have hout : id ∉ s.keptOrder id := fun hmem => (mem_keptOrder.mp hmem).2.2 rfl
  have hother : ∀ {k : UInt64} {rk}, k ∈ s.keptOrder id → s'.sent[k]? = some rk →
      s.sent[k]? = some rk := by
    intro k rk hk hrk
    rw [← hr.sent_of_ne (mem_keptOrder.mp hk).2.2, hrk]
  refine ⟨?_, ?_, ?_, ?_, ?_⟩
  · rw [hr.order, ← concat_eq_append]
    exact (h.order_nodup.filter _).concat hout
  · intro k hk
    rw [hr.order, mem_append, mem_singleton]
    by_cases heq : k = id
    · exact .inr heq
    · rw [hr.sent, ExtTreeMap.mem_insert] at hk
      obtain hcmp | hold := hk
      · exact absurd (Std.LawfulEqOrd.compare_eq_iff_eq.mp hcmp).symm heq
      · exact .inl (mem_keptOrder.mpr ⟨h.retained k hold, hold, heq⟩)
  · rw [hr.sent]
    have hsize := ExtTreeMap.size_insert_le (t := s.sent) (k := id) (v := r)
    have hroom := hr.room
    omega
  · intro k rk hrk htracked
    rw [hr.sent, getElem?_insert_eq] at hrk
    split at hrk
    · cases hrk
      rw [hr.tracked] at htracked
      simpa using htracked
    · exact h.tracked k rk hrk htracked
  · rw [hr.order, pairwise_append]
    refine ⟨?_, pairwise_singleton _ _, ?_⟩
    · apply (h.behind.filter _).imp_of_mem
      intro a b ha hb hbehind ra rb ty hra hrb
      exact hbehind ra rb ty (hother ha hra) (hother hb hrb)
    · intro a ha b hb ra rb ty hra hrb htype htype'
      cases mem_singleton.mp hb
      rw [hr.sent, getElem?_insert_eq, if_pos rfl] at hrb
      cases hrb
      exact hr.waiting a ra ty (hother ha hra) htype htype'

theorem step_pipeline (e : Event) (h : Pipeline cap s) : Pipeline cap (step cap s e) := by
  obtain ht | ⟨ctx, data, destinations, r, -, hr⟩ := step_cases cap e h.order_nodup
  · exact h.tends ht
  · exact h.registers hr

theorem run_pipeline (cap : ℕ) (es : List Event) : Pipeline cap (run (step cap) initial es) :=
  run_always (fun _ e h => step_pipeline e h) (pipeline_initial cap) es

/-! ### The order of registration -/

/-- The state in which the event of index `i` happens. -/
abbrev stateAt (cap : ℕ) (es : List Event) (i : ℕ) : EndToEnd := before (step cap) initial es i

/-- The event of index `i` has made the record of the packet, which is retained since. -/
structure RegisteredAt (cap : ℕ) (es : List Event) (i : ℕ) (id : UInt64) (r₀ : EndToEndReliableSent) :
    Prop where
  event : ∃ ctx data destinations, es[i]? = some (.register ctx data destinations)
  fresh : (stateAt cap es i).sent[id]? = none
  made : (stateAt cap es (i + 1)).sent[id]? = some r₀
  retained : ∀ m, i < m → m ≤ es.length → id ∈ (stateAt cap es m).sent

variable {es : List Event} {i : ℕ} {r₀ : EndToEndReliableSent}

theorem RegisteredAt.lt_length (h : RegisteredAt cap es i id r₀) : i < es.length := by
  obtain ⟨ctx, data, destinations, he⟩ := h.event
  obtain ⟨hlt, -⟩ := List.getElem?_eq_some_iff.mp he
  exact hlt

theorem stateAt_append (h : i ≤ es.length) :
    stateAt cap (es ++ [e]) i = stateAt cap es i := before_append h

theorem stateAt_last (cap : ℕ) (es : List Event) (e : Event) :
    stateAt cap (es ++ [e]) (es.length + 1) = step cap (run (step cap) initial es) e := by
  have hlast : (es ++ [e])[es.length]? = some e := by simp
  rw [stateAt, before_succ hlast, before_concat]

theorem stateAt_now (cap : ℕ) (es : List Event) (e : Event) :
    stateAt cap (es ++ [e]) es.length = run (step cap) initial es := before_concat _ _ _

theorem RegisteredAt.append (hs : run (step cap) initial es = s)
    (h : RegisteredAt cap es i id r₀) (hkept : id ∈ (step cap s e).sent) :
    RegisteredAt cap (es ++ [e]) i id r₀ := by
  have hlt := h.lt_length
  obtain ⟨ctx, data, destinations, he⟩ := h.event
  refine ⟨⟨ctx, data, destinations, getElem?_append_of_some he⟩, ?_, ?_, ?_⟩
  · rw [stateAt_append hlt.le]
    exact h.fresh
  · rw [stateAt_append hlt]
    exact h.made
  · intro m him hm
    rw [length_append, length_singleton] at hm
    by_cases hlast : m = es.length + 1
    · rw [hlast, stateAt_last, hs]
      exact hkept
    · rw [stateAt_append (by omega)]
      exact h.retained m him (by omega)

theorem RegisteredAt.of_append (h : RegisteredAt cap (es ++ [e]) i id r₀) (hlt : i < es.length) :
    RegisteredAt cap es i id r₀ := by
  obtain ⟨ctx, data, destinations, he⟩ := h.event
  rw [List.getElem?_append_left hlt] at he
  refine ⟨⟨ctx, data, destinations, he⟩, ?_, ?_, ?_⟩
  · rw [← stateAt_append (e := e) hlt.le]
    exact h.fresh
  · rw [← stateAt_append (e := e) hlt]
    exact h.made
  · intro m him hm
    rw [← stateAt_append (e := e) hm]
    refine h.retained m him ?_
    rw [length_append]
    omega

/-- The records of a state and the order they were registered in. -/
structure History (cap : ℕ) (es : List Event) (s : EndToEnd) : Prop where
  registered : ∀ (id : UInt64) (r : EndToEndReliableSent), s.sent[id]? = some r →
    ∃ i r₀, RegisteredAt cap es i id r₀
  sorted : s.order.Pairwise fun a b => ∀ i i' ra rb,
    RegisteredAt cap es i a ra → RegisteredAt cap es i' b rb → i < i'

theorem history_step (hs : run (step cap) initial es = s) (h : History cap es s) :
    History cap (es ++ [e]) (step cap s e) := by
  have hpipeline := run_pipeline cap es
  have hnow := stateAt_now cap es e
  have hnext := stateAt_last cap es e
  rw [hs] at hpipeline hnow hnext
  have hlast : (es ++ [e])[es.length]? = some e := by simp
  have hlength : (es ++ [e]).length = es.length + 1 := by simp
  -- A record that this step has not made was registered before.
  have hold : ∀ {i : ℕ} {id : UInt64} {r₀}, RegisteredAt cap (es ++ [e]) i id r₀ →
      (s.sent[id]? = none → (step cap s e).sent[id]? = none) → RegisteredAt cap es i id r₀ := by
    intro i id r₀ hreg hfresh
    refine hreg.of_append ?_
    have hlt := hreg.lt_length
    by_contra hge
    have hi : i = es.length := by omega
    have hmade := hreg.made
    have hbefore := hreg.fresh
    rw [hi] at hmade hbefore
    rw [hnext] at hmade
    rw [hnow] at hbefore
    cases (hfresh hbefore).symm.trans hmade
  obtain ht | ⟨ctx, data, destinations, r, he, hr⟩ := step_cases cap e hpipeline.order_nodup
  · refine ⟨?_, ?_⟩
    · intro id r' hr'
      obtain ⟨r, hr, -⟩ := ht.exists_of_some hr'
      obtain ⟨i, r₀, hreg⟩ := h.registered id r hr
      exact ⟨i, r₀, hreg.append hs (mem_iff_exists.mpr ⟨r', hr'⟩)⟩
    · rw [ht.order]
      refine h.sorted.imp ?_
      intro a b hlt i i' ra rb ha hb
      exact hlt i i' ra rb (hold ha (ht.fresh a)) (hold hb (ht.fresh b))
  · have hfresh : ∀ {k}, k ≠ data.getHash ctx.env →
        s.sent[k]? = none → (step cap s e).sent[k]? = none := by
      intro k hne hnone
      rw [hr.sent_of_ne hne, hnone]
    refine ⟨?_, ?_⟩
    · intro id r' hr'
      by_cases heq : id = data.getHash ctx.env
      · subst heq
        refine ⟨es.length, r', ⟨ctx, data, destinations, he ▸ hlast⟩, ?_, ?_, ?_⟩
        · rw [hnow]
          exact hr.fresh
        · rw [hnext]
          exact hr'
        · intro m him hm
          have hm' : m = es.length + 1 := by omega
          rw [hm', hnext]
          exact mem_iff_exists.mpr ⟨r', hr'⟩
      · obtain ⟨i, r₀, hreg⟩ := h.registered id r' ((hr.sent_of_ne heq).symm.trans hr')
        exact ⟨i, r₀, hreg.append hs (mem_iff_exists.mpr ⟨r', hr'⟩)⟩
    · rw [hr.order, pairwise_append]
      refine ⟨?_, pairwise_singleton _ _, ?_⟩
      · apply (h.sorted.filter _).imp_of_mem
        intro a b ha hb hlt i i' ra rb hra hrb
        exact hlt i i' ra rb (hold hra (hfresh (mem_keptOrder.mp ha).2.2))
          (hold hrb (hfresh (mem_keptOrder.mp hb).2.2))
      · intro a ha b hb i i' ra rb hra hrb
        cases mem_singleton.mp hb
        have hi := (hold hra (hfresh (mem_keptOrder.mp ha).2.2)).lt_length
        -- The packet had no record before this step.
        have hi' : es.length ≤ i' := by
          by_contra hlt
          obtain ⟨rm, hrm⟩ := mem_iff_exists.mp (hrb.retained es.length (by omega) (by omega))
          rw [hnow, hr.fresh] at hrm
          cases hrm
        omega

theorem history (cap : ℕ) (es : List Event) : History cap es (run (step cap) initial es) := by
  refine history_invariant ?_ (fun _ _ => history_step rfl) es
  refine ⟨?_, List.Pairwise.nil⟩
  intro id r hr
  simp [initial] at hr

/-- The earlier registration comes first in the order. -/
theorem registered_lt_of_not_behind {a b : UInt64} {ra rb : EndToEndReliableSent}
    {ty : UInt32} (hs : run (step cap) initial es = s) (ha : s.sent[a]? = some ra)
    (hb : s.sent[b]? = some rb) (hta : ra.orderedType = some ty)
    (htb : rb.orderedType = some ty) (hready : ra.waitingForPredecessor = false) (hne : b ≠ a) :
    rb.waitingForPredecessor = true ∧ ∃ i i' r₀ r₀', RegisteredAt cap es i a r₀ ∧
      RegisteredAt cap es i' b r₀' ∧ i < i' := by
  have hpipeline := run_pipeline cap es
  have hhistory := history cap es
  rw [hs] at hpipeline hhistory
  obtain ⟨i, r₀, hreg⟩ := hhistory.registered a ra ha
  obtain ⟨i', r₀', hreg'⟩ := hhistory.registered b rb hb
  have hmem := hpipeline.retained a (mem_iff_exists.mpr ⟨ra, ha⟩)
  have hmem' := hpipeline.retained b (mem_iff_exists.mpr ⟨rb, hb⟩)
  obtain ⟨before, after, hsplit⟩ := append_of_mem hmem
  have hbehind := hpipeline.behind
  have hsorted := hhistory.sorted
  rw [hsplit] at hmem' hbehind hsorted
  obtain ⟨-, hright, hcross⟩ := pairwise_append.mp hbehind
  obtain ⟨-, hright', -⟩ := pairwise_append.mp hsorted
  rw [mem_append, mem_cons] at hmem'
  obtain hbefore | heq | hafter := hmem'
  · -- An earlier record of the type would make `a` wait.
    have hwaiting := hcross b hbefore a mem_cons_self rb ra ty hb ha htb hta
    cases hready.symm.trans hwaiting
  · exact absurd heq hne
  · have hwaiting := (pairwise_cons.mp hright).1 b hafter ra rb ty ha hb hta htb
    have hlt := (pairwise_cons.mp hright').1 b hafter i i' r₀ r₀' hreg hreg'
    exact ⟨hwaiting, i, i', r₀, r₀', hreg, hreg', hlt⟩

/-! ### Failures -/

theorem expire_failed {ctx : TimeoutContext} {ty : UInt32}
    (hr : s.sent[id]? = some r) (hexhausted : exhausted ctx id r = true) (hty : r.orderedType = some ty)
    {id' : UInt64} (hr' : (expire ctx s).sent[id']? = some r') : r'.orderedType ≠ some ty := by
  intro hty'
  change ((s.sent.filterMap (retried ctx)).filter _)[id']? = some r' at hr'
  rw [ExtTreeMap.getElem?_filter', Option.filter_eq_some_iff] at hr'
  have hfailed : ty ∈ failedOrderedTypes ctx s := by
    unfold failedOrderedTypes
    rw [mem_filterMap]
    refine ⟨(id, r), ExtTreeMap.mem_toList_iff_getElem?_eq_some.mpr hr, ?_⟩
    rw [if_pos hexhausted, hty]
  have hkept := hr'.2
  rw [hty', Option.any_some, contains_iff_mem.mpr hfailed] at hkept
  cases hkept

/-- **The ordered pipeline**: of the records of an ordered type only the first one registered may be
in flight; there are at most `cap` records; registering keeps every record; and with a record of an
ordered type that is exhausted all records of the type go in the same step. -/
theorem ordered_pipeline (cap : ℕ) (es : List Event) : (∀ (a b : UInt64) (ra rb : EndToEndReliableSent) (ty : UInt32),
      (run (step cap) initial es).sent[a]? = some ra → (run (step cap) initial es).sent[b]? = some rb →
      ra.orderedType = some ty → rb.orderedType = some ty → ra.waitingForPredecessor = false → b ≠ a →
      rb.waitingForPredecessor = true ∧ ∃ i i' r₀ r₀', RegisteredAt cap es i a r₀ ∧
        RegisteredAt cap es i' b r₀' ∧ i < i') ∧ (run (step cap) initial es).sent.size ≤ max cap 1 ∧
    (∀ (ctx : RegisterContext) (data : RouterItem) (destinations : Option (ExtTreeMap UInt64 ℕ))
      (id : UInt64) (r : EndToEndReliableSent), (run (step cap) initial es).sent[id]? = some r →
      (step cap (run (step cap) initial es) (.register ctx data destinations)).sent[id]? = some r) ∧
    (∀ (ctx : TimeoutContext) (s₁ : EndToEnd) (id : UInt64) (r : EndToEndReliableSent) (ty : UInt32),
      reconciled ctx (run (step cap) initial es) = (s₁, .ok ()) → s₁.sent[id]? = some r →
      exhausted ctx id r = true → r.orderedType = some ty → ∀ (id' : UInt64) (r' : EndToEndReliableSent),
        (step cap (run (step cap) initial es) (.timeouts ctx)).sent[id']? = some r' → r'.orderedType ≠ some ty) := by
  have hpipeline := run_pipeline cap es
  refine ⟨?_, hpipeline.size_le, ?_, ?_⟩
  · intro a b ra rb ty ha hb hta htb hready hne
    exact registered_lt_of_not_behind rfl ha hb hta htb hready hne
  · intro ctx data destinations id r hr
    obtain hsame | ⟨r', hregisters⟩ := register_cases cap ctx data destinations hpipeline.order_nodup
    · change ((run (step cap) initial es).register cap ctx data destinations).1.sent[id]? = some r
      rw [hsame, hr]
    · exact hregisters.kept hr
  · intro ctx s₁ id r ty hreconciled hr hexhausted hty id' r' hr'
    change ((run (step cap) initial es).processTimeouts ctx).1.sent[id']? = some r' at hr'
    unfold processTimeouts at hr'
    rw [hreconciled] at hr'
    exact expire_failed hr hexhausted hty hr'

/-- A registration that meets no obstacle. -/
def openContext : RegisterContext where
  env := plainEnv sampleRegistry
  now := 0
  completionEpoch := 0
  expected := .ok ∅
  supportsTracking := fun _ => true
  multipleAnnouncers := fun _ => false
  managedVariable := fun _ => false
  sharedQueueBytesUsed := 0
  maxQueueBudget := 1000
  retention := fun _ => .ok none
  allocated := true

/-- The owners seven and eight, behind two sides. -/
def twoOwners : ExtTreeMap UInt64 ℕ := (ExtTreeMap.empty.insert 7 0).insert 8 1

/-- Two packets of an ordered type for two owners. -/
def twoOrdered : List Event :=
  [.register openContext (.packet samplePacket) (some twoOwners),
    .register openContext (.packet { samplePacket with nonce := 9 }) (some twoOwners)]

theorem ordered_pipeline_two : ∃ i i' r₀ r₀', RegisteredAt 2 twoOrdered i (Packet.packetId samplePacket) r₀ ∧
      RegisteredAt 2 twoOrdered i' (Packet.packetId { samplePacket with nonce := 9 }) r₀' ∧ i < i' := by
  have hfirst : ((run (step 2) initial twoOrdered).sent[samplePacket.packetId]?.map fun r =>
      (r.orderedType, r.waitingForPredecessor)) = some (some 100, false) := by decide +kernel
  have hsecond : ((run (step 2) initial twoOrdered).sent[Packet.packetId { samplePacket with nonce := 9 }]?.map
      fun r => r.orderedType) = some (some 100) := by decide +kernel
  obtain ⟨ra, hra, ha⟩ := Option.map_eq_some_iff.mp hfirst
  obtain ⟨rb, hrb, hb⟩ := Option.map_eq_some_iff.mp hsecond
  exact ((ordered_pipeline 2 twoOrdered).1 _ _ ra rb 100 hra hrb (congrArg Prod.fst ha) hb
    (congrArg Prod.snd ha) (by decide +kernel)).2

end EndToEnd

end SedsNet
