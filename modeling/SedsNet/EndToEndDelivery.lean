import SedsNet.EndToEndOrder

/-! # End-to-end delivery

A record is completed as delivered, and an aggregated receipt is passed on upstream, only after every
owner of the cohort that was frozen at registration has been named by an acknowledgement
(`no_false_completion`).  `Cohort` relates the owners that are still pending to the acknowledgements
so far, and `Receipts` the handlers to the packets they came from. -/

namespace SedsNet

namespace EndToEnd

open OrderedMap Runs
open Std (ExtTreeMap)

variable {cap : ℕ} {s : EndToEnd}

/-! ### Completions -/

/-- The packet acknowledges the packet `id` for the owner. -/
def Names (pkt : Packet) (id owner : UInt64) : Prop :=
  endToEndAckSenderHash pkt = some owner ∧ decodeEndToEndReliableAck pkt.payload = .ok id

/-- The step queues the aggregated receipt for a publisher upstream.  What `clear_intermediate_hop_targets`
queues once more for a route that is marked as complete is not among these. -/
def Forwards (s : EndToEnd) (e : Event) (upstreamId publisherHash : UInt64) : Prop :=
  ∃ h, e = .forwardReceipt h ∧ (s.forwardReceipt h).2 = some (upstreamId, publisherHash)

variable {e : Event} {id : UInt64} {c : Completion}

theorem Completes.cases (h : Completes s e id c) : ∃ owner r, Applies s e id owner ∧ s.sent[id]? = some r ∧
      (r.pendingDestinations.erase owner).isEmpty = true := by
  obtain ⟨h, handler, rfl, hhandler, rfl, hc⟩ := h
  have houtcome := applyAck_outcome s h
  generalize s.applyAck h = result at houtcome hc
  cases houtcome with
  | ignored | done | struck => cases hc
  | completed hhandler' hack hrecord hleft _ =>
    cases hhandler.symm.trans hhandler'
    exact ⟨_, _, hack, hrecord, hleft⟩

variable {handler handler' : AckHandler}

theorem step_handlerFate (hnodup : s.order.Nodup) {h : ℕ} (hget : (step cap s e).handlers[h]? = some handler') :
    HandlerFate s e h handler' := by
  obtain ht | ⟨ctx, data, destinations, r, -, hr⟩ := step_cases cap e hnodup
  · exact ht.handlers h handler' hget
  · exact .kept (hr.handlers ▸ hget)

/-! ### Receipts -/

/-- The event of index `k` applies an acknowledgement for the packet that names the owner, and that
acknowledgement was received before. -/
structure AcknowledgedAt (cap : ℕ) (es : List Event) (k : ℕ) (id owner : UInt64) : Prop where
  applied : ∃ e, es[k]? = some e ∧ Applies (stateAt cap es k) e id owner
  received : ∃ m me pkt, m < k ∧ es[m]? = some (.receive me pkt) ∧ Names pkt id owner

/-- The event of index `k` completes the record of a packet. -/
def CompletesAt (cap : ℕ) (es : List Event) (k : ℕ) (id : UInt64) (c : Completion) : Prop :=
  ∃ e, es[k]? = some e ∧ Completes (stateAt cap es k) e id c

/-- The handlers came from received acknowledgements, and a receipt is due after a completion only. -/
structure Receipts (cap : ℕ) (es : List Event) (s : EndToEnd) : Prop where
  received : ∀ (h : ℕ) handler, s.handlers[h]? = some handler →
    ∃ m me pkt, m < es.length ∧ es[m]? = some (.receive me pkt) ∧ Names pkt handler.packetId handler.owner
  due : ∀ (h : ℕ) handler upstreamId publisherHash, s.handlers[h]? = some handler →
    handler.stage = .completed upstreamId publisherHash ∨ handler.stage = .marked upstreamId publisherHash →
    ∃ k, k < es.length ∧ CompletesAt cap es k handler.packetId (.aggregated upstreamId publisherHash)

variable {es : List Event} {owner : UInt64} {k : ℕ}

theorem AcknowledgedAt.append
    (h : AcknowledgedAt cap es k id owner) (e : Event) : AcknowledgedAt cap (es ++ [e]) k id owner := by
  obtain ⟨ek, hk, happlies⟩ := h.applied
  obtain ⟨m, me, pkt, hm, hreceive, hnames⟩ := h.received
  refine ⟨⟨ek, getElem?_append_of_some hk, ?_⟩, m, me, pkt, hm, getElem?_append_of_some hreceive, hnames⟩
  rw [stateAt, before_of_some hk]
  exact happlies

theorem CompletesAt.append (h : CompletesAt cap es k id c) (e : Event) : CompletesAt cap (es ++ [e]) k id c := by
  obtain ⟨ek, hk, hcompletes⟩ := h
  refine ⟨ek, getElem?_append_of_some hk, ?_⟩
  rw [stateAt, before_of_some hk]
  exact hcompletes

theorem names_of_ackHandler {me : LocalIdentity} {pkt : Packet} (h : s.ackHandler me pkt = some handler) :
    Names pkt handler.packetId handler.owner ∧ handler.stage = .routed := by
  unfold ackHandler at h
  split at h
  · rename_i owner packetId howner hid
    cases h
    exact ⟨⟨howner, hid⟩, rfl⟩
  · cases h

theorem receipts_step (es : List Event) (e : Event) (h : Receipts cap es (run (step cap) initial es)) :
    Receipts cap (es ++ [e]) (step cap (run (step cap) initial es) e) := by
  have hlast : (es ++ [e])[es.length]? = some e := by simp
  have hlength : (es ++ [e]).length = es.length + 1 := by simp
  have hnodup := (run_pipeline cap es).order_nodup
  refine ⟨?_, ?_⟩
  · intro hd handler' hget
    cases step_handlerFate hnodup hget with
    | received he hhandler =>
      rw [he] at hlast ⊢
      exact ⟨es.length, _, _, by simp, hlast, (names_of_ackHandler hhandler).1⟩
    | staged hhandler hsame _ =>
      rw [hsame.1, hsame.2]
      obtain ⟨m, me, pkt, hm, hreceive, hnames⟩ := h.received hd _ hhandler
      exact ⟨m, me, pkt, by omega, getElem?_append_of_some hreceive, hnames⟩
  · intro hd handler' upstreamId publisherHash hget hstage
    cases step_handlerFate hnodup hget with
    | received he hhandler =>
      rw [(names_of_ackHandler hhandler).2] at hstage
      obtain hstage | hstage := hstage
      · cases hstage
      · cases hstage
    | staged hhandler hsame hdue =>
      rw [hsame.1]
      obtain hbefore | hcompletes := hdue upstreamId publisherHash hstage
      · obtain ⟨k, hk, hearlier⟩ := h.due hd _ upstreamId publisherHash hhandler hbefore
        exact ⟨k, by omega, hearlier.append e⟩
      · exact ⟨es.length, by omega, e, hlast, (stateAt_now cap es e).symm ▸ hcompletes⟩

theorem receipts (cap : ℕ) (es : List Event) : Receipts cap es (run (step cap) initial es) := by
  refine history_invariant ?_ receipts_step es
  refine ⟨?_, ?_⟩
  · intro h handler hget
    cases hget
  · intro h handler upstreamId publisherHash hget
    cases hget

theorem acknowledgedAt_last (h : Applies (run (step cap) initial es) e id owner) :
    AcknowledgedAt cap (es ++ [e]) es.length id owner := by
  have hlast : (es ++ [e])[es.length]? = some e := by simp
  refine ⟨⟨e, hlast, (stateAt_now cap es e).symm ▸ h⟩, ?_⟩
  obtain ⟨hd, handler, -, hget, -, rfl, rfl⟩ := h
  obtain ⟨m, me, pkt, hm, hreceive, hnames⟩ := (receipts cap es).received hd handler hget
  exact ⟨m, me, pkt, hm, getElem?_append_of_some hreceive, hnames⟩

/-! ### The cohort -/

variable {r : EndToEndReliableSent} {r' : EndToEndReliableSent}

theorem Fate.subset (hfate : Fate s e id r (some r')) (h : owner ∈ r'.pendingDestinations) :
    owner ∈ r.pendingDestinations := by
  cases hfate with
  | kept hsimilar => exact (hsimilar.owners owner).mp h
  | released _ _ _ _ _ hpending => exact hpending ▸ h
  | struck _ _ _ hpending _ => exact ExtTreeMap.mem_of_mem_erase (hpending ▸ h)

/-- An acknowledgement strikes only the owner off that it names. -/
theorem applies_of_struck (hfate : Fate s e id r (some r')) (hbefore : owner ∈ r.pendingDestinations)
    (hafter : owner ∉ r'.pendingDestinations) : Applies s e id owner := by
  cases hfate with
  | kept hsimilar => exact absurd ((hsimilar.owners owner).mpr hbefore) hafter
  | released _ _ _ _ _ hpending => exact absurd (hpending ▸ hbefore) hafter
  | @struck _ owner' hack _ _ hpending _ =>
    by_cases heq : owner' = owner
    · exact heq ▸ hack
    · exact absurd (by simp [hpending, heq, hbefore]) hafter

/-- The owners of the frozen cohort are pending or have been named by an acknowledgement since. -/
structure Cohort (cap : ℕ) (es : List Event) (id : UInt64) (r : EndToEndReliableSent) (i : ℕ)
    (r₀ : EndToEndReliableSent) : Prop where
  registered : RegisteredAt cap es i id r₀
  subset : ∀ owner ∈ r.pendingDestinations, owner ∈ r₀.pendingDestinations
  named : ∀ owner ∈ r₀.pendingDestinations, owner ∈ r.pendingDestinations ∨
    ∃ k, i < k ∧ AcknowledgedAt cap es k id owner

theorem Cohort.step {r₀ : EndToEndReliableSent} {i : ℕ} (hs : run (step cap) initial es = s)
    (h : Cohort cap es id r i r₀) (hfate : Fate s e id r (some r'))
    (hr' : (EndToEnd.step cap s e).sent[id]? = some r') : Cohort cap (es ++ [e]) id r' i r₀ := by
  refine ⟨h.registered.append hs (mem_iff_exists.mpr ⟨r', hr'⟩),
    fun owner howner => h.subset owner (hfate.subset howner), ?_⟩
  intro owner howner
  obtain hold | ⟨k, hk, hack⟩ := h.named owner howner
  · by_cases hafter : owner ∈ r'.pendingDestinations
    · exact .inl hafter
    · have hack := applies_of_struck hfate hold hafter
      exact .inr ⟨es.length, h.registered.lt_length, acknowledgedAt_last (hs ▸ hack)⟩
  · exact .inr ⟨k, hk, hack.append e⟩

/-- Every retained record has its cohort. -/
def Cohorts (cap : ℕ) (es : List Event) (s : EndToEnd) : Prop :=
  ∀ (id : UInt64) (r : EndToEndReliableSent), s.sent[id]? = some r → ∃ i r₀, Cohort cap es id r i r₀

theorem cohorts_step (es : List Event) (e : Event) (h : Cohorts cap es (run (step cap) initial es)) :
    Cohorts cap (es ++ [e]) (step cap (run (step cap) initial es) e) := by
  intro id r' hr'
  obtain ht | ⟨ctx, data, destinations, r, -, hr⟩ := step_cases cap e (run_pipeline cap es).order_nodup
  · obtain ⟨r, hr, hfate⟩ := ht.exists_of_some hr'
    obtain ⟨i, r₀, hcohort⟩ := h id r hr
    exact ⟨i, r₀, hcohort.step rfl hfate hr'⟩
  · by_cases heq : data.getHash ctx.env = id
    · -- The cohort of a new record is all pending.
      obtain ⟨i, r₀, hreg⟩ := (history cap (es ++ [e])).registered id r' (by rw [run_concat, hr'])
      have hi : i = es.length := by
        have hlt := hreg.lt_length
        rw [List.length_append, List.length_singleton] at hlt
        by_contra hne
        obtain ⟨rm, hrm⟩ := mem_iff_exists.mp (hreg.retained es.length (by omega) (by simp))
        rw [stateAt_now, ← heq, hr.fresh] at hrm
        cases hrm
      have hmade := hreg.made
      rw [hi, stateAt_last, hr'] at hmade
      cases hmade
      exact ⟨i, r', hreg, fun owner howner => howner, fun owner howner => .inl howner⟩
    · obtain ⟨i, r₀, hcohort⟩ := h id r' ((hr.sent_of_ne (Ne.symm heq)).symm.trans hr')
      exact ⟨i, r₀, hcohort.step rfl (.kept (Similar.refl r')) hr'⟩

theorem cohorts (cap : ℕ) (es : List Event) : Cohorts cap es (run (step cap) initial es) := by
  refine history_invariant ?_ cohorts_step es
  intro id r hr
  simp [initial] at hr

theorem eq_of_erase_isEmpty {m : ExtTreeMap UInt64 ℕ} {owner' : UInt64}
    (h : (m.erase owner).isEmpty = true) (hmem : owner' ∈ m) : owner = owner' := by
  by_contra hne
  rw [ExtTreeMap.isEmpty_iff, ExtTreeMap.eq_empty_iff_forall_not_mem] at h
  apply h owner'
  simp [hne, hmem]

theorem step_fate (e : Event) (h : Pipeline cap s) (hr : s.sent[id]? = some r) :
    Fate s e id r (step cap s e).sent[id]? := by
  obtain ht | ⟨ctx, data, destinations, r', -, hregisters⟩ := step_cases cap e h.order_nodup
  · exact ht.fate id r hr
  · rw [hregisters.kept hr]
    exact .kept (Similar.refl r)

/-- **No false completion**: a record is completed after every owner of its cohort was named by a
received acknowledgement, and a receipt is forwarded after such a completion only.  While a record is
retained, only an acknowledgement that names an owner takes it off; reconciling with discovery and
acknowledgements from others keep a tracked record and its owners. -/
theorem no_false_completion (cap : ℕ) (es : List Event) (e : Event) :
    (∀ (id : UInt64) (c : Completion), Completes (run (step cap) initial es) e id c →
      ∃ i r₀, RegisteredAt cap es i id r₀ ∧ ∀ owner ∈ r₀.pendingDestinations,
        ∃ k, i < k ∧ AcknowledgedAt cap (es ++ [e]) k id owner) ∧ (∀ upstreamId publisherHash : UInt64,
      Forwards (run (step cap) initial es) e upstreamId publisherHash →
      ∃ k id, k < es.length ∧ CompletesAt cap es k id (.aggregated upstreamId publisherHash)) ∧
    (∀ (id owner : UInt64) (r r' : EndToEndReliableSent), (run (step cap) initial es).sent[id]? = some r →
      (step cap (run (step cap) initial es) e).sent[id]? = some r' → owner ∈ r.pendingDestinations →
      owner ∉ r'.pendingDestinations → Applies (run (step cap) initial es) e id owner) ∧
    (∀ (id : UInt64) (r : EndToEndReliableSent), (run (step cap) initial es).sent[id]? = some r →
      (∃ d, e = .reconcile d) ∨ (r.trackedDestinations = true ∧
        ∃ owner, Applies (run (step cap) initial es) e id owner ∧ owner ∉ r.pendingDestinations) →
      ∃ r', (step cap (run (step cap) initial es) e).sent[id]? = some r' ∧
        ∀ owner, owner ∈ r'.pendingDestinations ↔ owner ∈ r.pendingDestinations) := by
  have hpipeline := run_pipeline cap es
  refine ⟨?_, ?_, ?_, ?_⟩
  · intro id c hcompletes
    obtain ⟨owner, r, hack, hr, hleft⟩ := hcompletes.cases
    obtain ⟨i, r₀, hcohort⟩ := cohorts cap es id r hr
    refine ⟨i, r₀, hcohort.registered, ?_⟩
    intro owner' howner'
    obtain hpending | ⟨k, hk, hacked⟩ := hcohort.named owner' howner'
    · cases eq_of_erase_isEmpty hleft hpending
      exact ⟨es.length, hcohort.registered.lt_length, acknowledgedAt_last hack⟩
    · exact ⟨k, hk, hacked.append e⟩
  · rintro upstreamId publisherHash ⟨h, rfl, hforward⟩
    unfold forwardReceipt at hforward
    split at hforward
    · cases hforward
    rename_i handler hget
    split at hforward
    · rename_i hstage
      cases hforward
      obtain ⟨k, hk, hcompletes⟩ := (receipts cap es).due h handler _ _ hget (.inr hstage)
      exact ⟨k, handler.packetId, hk, hcompletes⟩
    · cases hforward
  · intro id owner r r' hr hr' hbefore hafter
    exact applies_of_struck (hr' ▸ step_fate e hpipeline hr) hbefore hafter
  · intro id r hr hcase
    have hfate := step_fate e hpipeline hr
    obtain ⟨d, rfl⟩ | ⟨htracked, owner, hack, hout⟩ := hcase
    · have halike : Alike (run (step cap) initial es) (step cap (run (step cap) initial es) (.reconcile d)) :=
        reconcileFrom_alike d _ _
      obtain ⟨r', hr', hsimilar⟩ := halike.kept id r hr
      exact ⟨r', hr', hsimilar.owners⟩
    · -- The named owner is not pending, so none is struck off and one is left.
      obtain ⟨h, handler, rfl, hget, hstage, hid, rfl⟩ := hack
      have herase : r.pendingDestinations.erase handler.owner = r.pendingDestinations :=
        erase_of_none (not_mem_iff.mp hout)
      have hnamed : ∀ {owner'}, Applies (run (step cap) initial es) (.applyAck h) id owner' →
          r.pendingDestinations.erase owner' = r.pendingDestinations := by
        rintro owner' ⟨h', handler', heq, hget', -, -, rfl⟩
        cases heq
        cases hget.symm.trans hget'
        exact herase
      generalize (step cap (run (step cap) initial es) (.applyAck h)).sent[id]? = after at hfate
      cases hfate with
      | kept hsimilar => exact ⟨_, rfl, hsimilar.owners⟩
      | struck hack' _ _ hpending _ =>
        refine ⟨_, rfl, ?_⟩
        intro owner'
        rw [hpending, hnamed hack']
      | completed hack' hleft =>
        rw [hnamed hack', hpipeline.tracked id r hr htracked] at hleft
        cases hleft
      | released he | expired he | abandoned he | emptied he => cases he

/-- The publisher of the sample packet. -/
def publisher : LocalIdentity := ⟨samplePacket.sender, true⟩

/-- The acknowledgement of the sample packet by an owner. -/
def sampleAck (owner : UInt64) : Packet where
  ty := .reliableAck
  dataSize := 8
  sender := [0x47, 0x54]
  endpoints := [5]
  timestamp := 9
  nonce := 1
  payload := ByteWords.leBytes 8 samplePacket.packetId.toNat
  wireShape := none
  wireTargetSenders := some [owner, senderHash publisher.sender]
  dataSize_eq := by rw [ByteWords.length_leBytes]
  endpoints_ne_nil := five_ne_nil
  payload_fits := by
    rw [ByteWords.length_leBytes]
    decide
  targets_fit := by
    change 8 * 2 ≤ isizeMax
    decide

/-- The sample packet is registered for two owners, and the acknowledgement of one is applied, then
that of the other one is received. -/
def acknowledged : List Event :=
  [.register openContext (.packet samplePacket) (some twoOwners), .receive publisher (sampleAck 7),
    .applyAck 0, .receive publisher (sampleAck 8)]

theorem no_false_completion_two :
    ∃ i r₀, RegisteredAt 2 acknowledged i samplePacket.packetId r₀ ∧ ∀ owner ∈ r₀.pendingDestinations,
      ∃ k, i < k ∧ AcknowledgedAt 2 (acknowledged ++ [.applyAck 1]) k samplePacket.packetId owner := by
  have hhandler : ((run (step 2) initial acknowledged).handlers[1]?.map fun h => h.packetId) =
      some samplePacket.packetId := by decide +kernel
  have hcompletion : ((run (step 2) initial acknowledged).applyAck 1).2.isSome = true := by decide +kernel
  obtain ⟨handler, hget, hid⟩ := Option.map_eq_some_iff.mp hhandler
  obtain ⟨c, hc⟩ := Option.isSome_iff_exists.mp hcompletion
  exact (no_false_completion 2 acknowledged (.applyAck 1)).1 samplePacket.packetId c
    ⟨1, handler, rfl, hget, hid, hc⟩

end EndToEnd

end SedsNet
