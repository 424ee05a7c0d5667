import SedsNet.NodeIndex

/-! # Convergence of two node identities

Two routers that ingest each other's advertisements in turn.  Of two claims to a hostname, and of two
claims to an address, exactly one wins on both sides, so only one of the routers yields; what it yields
to is then in its book, and the search for another identity avoids it.  `Reacts` says what one ingested
advertisement does to the local identity, and `identities_converge` follows a pair of new routers over
two exchanges and all further ones; `repeated_advertisement` is about a peer that repeats itself. -/

namespace SedsNet

open OrderedMap
open Std (ExtTreeMap)

/-! ### The two orders -/

namespace AddressBookEntry

variable {a a' b b' : AddressBookEntry}

/-- What a claim is judged by, besides the hostname and the address. -/
def SameClaim (a a' : AddressBookEntry) : Prop :=
  a'.mode = a.mode ∧ a'.birthMs = a.birthMs ∧ a'.ownerHash = a.ownerHash

theorem SameClaim.identityWins (ha : SameClaim a a') (hb : SameClaim b b') : a'.identityWins b' = a.identityWins b := by
  unfold AddressBookEntry.identityWins
  rw [ha.2.1, ha.2.2, hb.2.1, hb.2.2]

theorem SameClaim.addressWins (ha : SameClaim a a') (hb : SameClaim b b') : a'.addressWins b' = a.addressWins b := by
  unfold AddressBookEntry.addressWins
  rw [ha.identityWins hb, ha.1, hb.1]

theorem identityWins_iff : a.identityWins b = true ↔ a.birthMs.toNat < b.birthMs.toNat ∨
    a.birthMs.toNat = b.birthMs.toNat ∧ a.ownerHash.toNat < b.ownerHash.toNat := by
  unfold identityWins
  simp [UInt64.lt_iff_toNat_lt, UInt64.toNat_inj]

/-- Exactly one of two owners has the better claim to a hostname. -/
theorem identityWins_swap (h : a.ownerHash ≠ b.ownerHash) : b.identityWins a = !a.identityWins b := by
  rw [Bool.eq_iff_iff, Bool.not_eq_true', ← Bool.not_eq_true, identityWins_iff, identityWins_iff]
  rw [ne_eq, ← UInt64.toNat_inj] at h
  omega

theorem addressWins_iff : a.addressWins b = true ↔
    b.mode.rank < a.mode.rank ∨ a.mode.rank = b.mode.rank ∧ a.identityWins b = true := by
  unfold addressWins
  simp

/-- Exactly one of two owners has the better claim to an address. -/
theorem addressWins_swap (h : a.ownerHash ≠ b.ownerHash) : b.addressWins a = !a.addressWins b := by
  rw [Bool.eq_iff_iff, Bool.not_eq_true', ← Bool.not_eq_true, addressWins_iff, addressWins_iff,
    identityWins_swap h]
  cases a.identityWins b with
  | true =>
    simp only [Bool.not_true, Bool.false_eq_true, and_false, or_false, and_true]
    omega
  | false =>
    simp only [Bool.not_false, Bool.false_eq_true, and_false, or_false, and_true]
    omega

theorem rank_fromCode (mode : AddressAssignmentMode) (wanted : UInt32) :
    (AddressAssignmentMode.fromCode mode.modeCode wanted).rank = mode.rank := by
  cases mode <;> rfl

/-- An advertisement carries the claim of its sender. -/
theorem identityWins_advertisement (now : UInt64) :
    (a.advertisement.entry now).identityWins b = a.identityWins b := rfl

theorem addressWins_advertisement (now : UInt64) : (a.advertisement.entry now).addressWins b = a.addressWins b := by
  unfold addressWins
  rw [identityWins_advertisement]
  change (decide (_ < (AddressAssignmentMode.fromCode a.mode.modeCode a.requestedAddress).rank) ||
    (AddressAssignmentMode.fromCode a.mode.modeCode a.requestedAddress).rank == _ && _) = _
  rw [rank_fromCode]

end AddressBookEntry

namespace NodeState

open AddressBookEntry

variable {s s' : NodeState}

/-! ### One advertisement -/

/-- What the advertisement of a peer does to the local identity: only the side with the worse claim
yields, and the address it yields is in its book. -/
structure Reacts (s : NodeState) (peer : AddressBookEntry) (s' : NodeState) : Prop where
  claim : SameClaim s.localAddress s'.localAddress
  hostname_eq : peer.hostname ≠ s.localAddress.hostname ∨ peer.identityWins s.localAddress = false →
    s'.localAddress.hostname = s.localAddress.hostname
  hostname_ne : peer.identityWins s.localAddress = true → s'.localAddress.hostname ≠ peer.hostname
  address_eq : peer.address ≠ s.localAddress.address ∨ peer.addressWins s.localAddress = false →
    s'.localAddress.address = s.localAddress.address
  address_mem : peer.addressWins s.localAddress = true →
    s'.localAddress.address ≠ peer.address ∨ peer.address ∈ s'.byValue
  address_ne : peer.addressWins s.localAddress = true → peer.hostname ≠ s.localAddress.hostname →
    peer.address ∈ s.byValue → s'.localAddress.address ≠ peer.address

theorem mem_withPeer (remote : AddressBookEntry) : remote.address ∈ (s.withPeer remote).byValue := by
  unfold withPeer
  rw [ExtTreeMap.mem_insert]
  exact .inl Std.ReflCmp.compare_self

variable {peer : AddressBookEntry} {now : UInt64}

theorem Outcome.reacts (h : Outcome s peer.advertisement now s')
    (howner : peer.ownerHash ≠ s.localAddress.ownerHash) (hroom : s.byValue.size < 2 ^ 32 - 1) : Reacts s peer s' := by
  cases h with
  | renamed hconflict hwins hfree =>
    have hhost : peer.hostname = s.localAddress.hostname := (hostnameConflict_iff.mp hconflict).1
    refine ⟨⟨rfl, rfl, rfl⟩, ?_, ?_, fun _ => rfl, fun _ => .inr (mem_withPeer _), ?_⟩
    · rintro (hne | hloses)
      · exact absurd hhost hne
      · cases hloses.symm.trans hwins
    · intro _ heq
      exact (not_taken hfree).2 (hhost.symm.trans heq.symm)
    · intro _ hne
      exact absurd hhost hne
  | moved hconflict hwins hkeeps =>
    have haddress : peer.address = s.localAddress.address := (addressConflict_iff.mp hconflict).1
    rw [addressWins_advertisement] at hwins
    refine ⟨⟨rfl, rfl, rfl⟩, fun _ => rfl, ?_, ?_, fun _ => .inr (mem_withPeer _), ?_⟩
    · intro hidentity heq
      exact hkeeps ⟨hostnameConflict_iff.mpr ⟨heq.symm, howner⟩, hidentity⟩
    · rintro (hne | hloses)
      · exact absurd haddress hne
      · cases hloses.symm.trans hwins
    · intro _ _ hmem heq
      apply allocateFreeAddress_free (addressSeed s.localAddress) hroom
      change s.allocateFreeAddress (addressSeed s.localAddress) = peer.address at heq
      rw [heq]
      exact hmem
  | peerRenamed hconflict hloses hfree =>
    have hhost : peer.hostname = s.localAddress.hostname := (hostnameConflict_iff.mp hconflict).1
    have hsame : ∀ remote known,
        ((s.withoutKnown peer.advertisement known).withPeer remote).localAddress = s.localAddress := by
      rintro _ (_ | _) <;> rfl
    refine ⟨?_, ?_, ?_, ?_, fun _ => .inr (mem_withPeer _), ?_⟩
    · rw [hsame]
      exact ⟨rfl, rfl, rfl⟩
    · intro _
      rw [hsame]
    · intro hwins
      cases hloses.symm.trans hwins
    · intro _
      rw [hsame]
    · intro _ hne
      exact absurd hhost hne
  | peerMoved hconflict hnone hloses =>
    rw [addressWins_advertisement] at hloses
    refine ⟨⟨rfl, rfl, rfl⟩, fun _ => rfl, ?_, fun _ => rfl, ?_, ?_⟩
    · intro _ heq
      cases hnone.symm.trans (hostnameConflict_iff.mpr ⟨heq.symm, howner⟩)
    · intro hwins
      cases hloses.symm.trans hwins
    · intro hwins
      cases hloses.symm.trans hwins
  | recorded hhost haddress =>
    refine ⟨⟨rfl, rfl, rfl⟩, fun _ => rfl, ?_, fun _ => rfl, fun _ => .inr (mem_withPeer _), ?_⟩
    · intro _ heq
      cases hhost.symm.trans (hostnameConflict_iff.mpr ⟨heq.symm, howner⟩)
    · intro _ _ _ heq
      cases haddress.symm.trans (addressConflict_iff.mpr ⟨heq.symm, howner⟩)

/-! ### Room in the book -/

/-- Both maps have room for `n` more entries. -/
def Room (s : NodeState) (n : ℕ) : Prop := s.byValue.size + n < 2 ^ 32 - 1 ∧ s.book.size + n < 2 ^ 32 - 1

variable {n : ℕ}

theorem Room.withPeer (h : Room s (n + 1)) (remote : AddressBookEntry) : Room (s.withPeer remote) n := by
  have hbook := ExtTreeMap.size_insert_le (t := s.book) (k := remote.hostname) (v := remote)
  have herase := ExtTreeMap.size_erase_le (t := s.byValue) (k := remote.address)
  have hvalue := ExtTreeMap.size_insert_le (t := s.byValue.erase remote.address) (k := remote.address)
    (v := remote.hostname)
  unfold Room at h ⊢
  unfold NodeState.withPeer
  dsimp only
  omega

theorem Room.withLocal (h : Room s (n + 1)) (next : AddressBookEntry) : Room (s.withLocal next) n := by
  have heraseBook := ExtTreeMap.size_erase_le (t := s.book) (k := s.localAddress.hostname)
  have hbook := ExtTreeMap.size_insert_le (t := s.book.erase s.localAddress.hostname) (k := next.hostname)
    (v := next)
  have herase := ExtTreeMap.size_erase_le (t := s.byValue) (k := s.localAddress.address)
  have hvalue := ExtTreeMap.size_insert_le (t := s.byValue.erase s.localAddress.address) (k := next.address)
    (v := next.hostname)
  unfold Room at h ⊢
  unfold NodeState.withLocal
  dsimp only
  omega

theorem Room.mono {k : ℕ} (h : Room s n) (hk : k ≤ n) : Room s k := by
  unfold Room at h ⊢
  omega

theorem Room.withoutKnown (h : Room s n) (ad : AddressAdvertisement) (known : Bool) :
    Room (s.withoutKnown ad known) n := by
  have herase := ExtTreeMap.size_erase_le (t := s.book) (k := ad.hostname)
  unfold Room at h ⊢
  unfold NodeState.withoutKnown
  split
  · dsimp only
    omega
  · exact h

theorem Outcome.room {ad : AddressAdvertisement} (h : Outcome s ad now s') (hroom : Room s (n + 2)) : Room s' n := by
  have hone : Room s (n + 1) := hroom.mono (by omega)
  cases h with
  | renamed | moved => exact (hroom.withLocal _).withPeer _
  | peerRenamed _ _ _ => exact (hone.withoutKnown _ _).withPeer _
  | peerMoved | recorded => exact hone.withPeer _

theorem room_new (me : AddressBookEntry) (localServices : Bool) : Room (new me localServices) 4 := by
  unfold new
  cases localServices with
  | true =>
    have hbook := ExtTreeMap.size_insert_le (t := (∅ : ExtTreeMap Bytes AddressBookEntry))
      (k := me.hostname) (v := me)
    have hvalue := ExtTreeMap.size_insert_le (t := (∅ : ExtTreeMap UInt32 Bytes)) (k := me.address)
      (v := me.hostname)
    rw [ExtTreeMap.size_empty] at hbook hvalue
    unfold Room
    simp only [if_true]
    omega
  | false =>
    unfold Room
    simp

/-- A contested hostname is one under which the peer is not known yet. -/
def Fresh (s : NodeState) (peer : AddressBookEntry) : Prop :=
  peer.hostname = s.localAddress.hostname → s.known peer.hostname peer.ownerHash = false

theorem ingest_reacts (peer : AddressBookEntry) (now : UInt64) (hfresh : Fresh s peer)
    (howner : peer.ownerHash ≠ s.localAddress.ownerHash) (hroom : Room s (n + 2)) :
    ∃ r, s.ingest peer.advertisement now true = .ok r ∧ Reacts s peer r.state ∧ Room r.state n := by
  have hbook : s.book.size + 1 < 2 ^ 32 := by
    have := hroom.2
    omega
  have hvalue : s.byValue.size < 2 ^ 32 - 1 := by
    have := hroom.1
    omega
  obtain ⟨r, hr, houtcome⟩ := ingest_outcome peer.advertisement now hbook (by
    rintro hknown ⟨hconflict, -⟩
    cases (hfresh (hostnameConflict_iff.mp hconflict).1).symm.trans hknown)
  exact ⟨r, hr, houtcome.reacts howner hvalue, houtcome.room hroom⟩

theorem fresh_of_owned (h : Owned s) (howner : peer.ownerHash ≠ s.localAddress.ownerHash) : Fresh s peer := by
  intro hhost
  have hconflict : s.hostnameConflict (peer.advertisement.entry 0) = true :=
    hostnameConflict_iff.mpr ⟨hhost, howner⟩
  exact h.not_known hconflict

theorem fresh_of_ne (h : peer.hostname ≠ s.localAddress.hostname) : Fresh s peer :=
  fun heq => absurd heq h

/-! ### Exchanges -/

/-- The second router ingests the advertisement of the first, and then the first that of the second. -/
def exchange (p : NodeState × NodeState) (now : UInt64 × UInt64) : TelemetryResult (NodeState × NodeState) :=
  match p.2.ingest p.1.localAddress.advertisement now.1 true with
  | .error e => .error e
  | .ok r =>
    match p.1.ingest r.state.localAddress.advertisement now.2 true with
    | .error e => .error e
    | .ok r' => .ok (r'.state, r.state)

def exchanges (p : NodeState × NodeState) : List (UInt64 × UInt64) → TelemetryResult (NodeState × NodeState)
  | [] => .ok p
  | now :: rest =>
    match exchange p now with
    | .error e => .error e
    | .ok q => exchanges q rest

variable {a b : NodeState}

theorem exchange_of_ingest {now : UInt64 × UInt64} {rb ra : Resolution}
    (hb : b.ingest a.localAddress.advertisement now.1 true = .ok rb)
    (ha : a.ingest rb.state.localAddress.advertisement now.2 true = .ok ra) :
    exchange (a, b) now = .ok (ra.state, rb.state) := by
  unfold exchange
  rw [hb]
  dsimp only
  rw [ha]

/-- The pair `q` has the hostnames and the addresses of the pair `p`. -/
def SameIdentities (p q : NodeState × NodeState) : Prop :=
  (q.1.localAddress.hostname = p.1.localAddress.hostname ∧ q.1.localAddress.address = p.1.localAddress.address) ∧
  (q.2.localAddress.hostname = p.2.localAddress.hostname ∧ q.2.localAddress.address = p.2.localAddress.address)

/-- Two routers of distinct owners that do not contest anything. -/
structure Apart (p : NodeState × NodeState) : Prop where
  owner : p.1.localAddress.ownerHash ≠ p.2.localAddress.ownerHash
  hostname : p.1.localAddress.hostname ≠ p.2.localAddress.hostname
  address : p.1.localAddress.address ≠ p.2.localAddress.address

theorem ingest_recorded {ad : AddressAdvertisement} (hhost : s.hostnameConflict (ad.entry now) = false)
    (haddress : s.addressConflict (ad.entry now) = false) :
    s.ingest ad now true = .ok ⟨s.withPeer (ad.entry now), ad.entry now, false, none⟩ := by
  have hresolve : s.resolveConflict (ad.entry now) (s.localSpare ad now) now = .ok ⟨s, ad.entry now, false, none⟩ := by
    unfold resolveConflict
    rw [hhost, haddress]
    rfl
  rw [ingest_of_resolve hresolve, recordPeer_eq mem_of_known]
  dsimp only
  rw [withPeer_withoutKnown ad _ rfl]

theorem ingest_uncontested (peer : AddressBookEntry) (now : UInt64)
    (hhost : peer.hostname ≠ s.localAddress.hostname) (haddress : peer.address ≠ s.localAddress.address) :
    ∃ r, s.ingest peer.advertisement now true = .ok r ∧ r.state.localAddress = s.localAddress := by
  refine ⟨_, ingest_recorded ?_ ?_, rfl⟩
  · exact Bool.eq_false_of_not_eq_true fun h => hhost (hostnameConflict_iff.mp h).1
  · exact Bool.eq_false_of_not_eq_true fun h => haddress (addressConflict_iff.mp h).1

theorem Apart.exchange {p : NodeState × NodeState} (h : Apart p) (now : UInt64 × UInt64) :
    ∃ q, exchange p now = .ok q ∧ Apart q ∧ SameIdentities p q := by
  obtain ⟨rb, hb, hsame⟩ := ingest_uncontested p.1.localAddress now.1 h.hostname h.address
  obtain ⟨ra, ha, hsame'⟩ := ingest_uncontested (s := p.1) rb.state.localAddress now.2
    (by rw [hsame]; exact h.hostname.symm) (by rw [hsame]; exact h.address.symm)
  refine ⟨_, exchange_of_ingest hb ha, ⟨?_, ?_, ?_⟩, ⟨?_, ?_⟩, ⟨?_, ?_⟩⟩
  · rw [hsame, hsame']
    exact h.owner
  · rw [hsame, hsame']
    exact h.hostname
  · rw [hsame, hsame']
    exact h.address
  · rw [hsame']
  · rw [hsame']
  · rw [hsame]
  · rw [hsame]

theorem Apart.exchanges (now : List (UInt64 × UInt64)) :
    ∀ {p}, Apart p → ∃ q, exchanges p now = .ok q ∧ SameIdentities p q := by
  induction now with
  | nil =>
    intro p h
    exact ⟨p, rfl, ⟨rfl, rfl⟩, ⟨rfl, rfl⟩⟩
  | cons t rest ih =>
    intro p h
    obtain ⟨q, hq, hapart, hsame⟩ := h.exchange t
    obtain ⟨q', hq', hsame'⟩ := ih hapart
    refine ⟨q', ?_, ⟨?_, ?_⟩, ⟨?_, ?_⟩⟩
    · unfold NodeState.exchanges
      rw [hq]
      exact hq'
    · exact hsame'.1.1.trans hsame.1.1
    · exact hsame'.1.2.trans hsame.1.2
    · exact hsame'.2.1.trans hsame.2.1
    · exact hsame'.2.2.trans hsame.2.2

variable {a' b' : NodeState}

/-- After the first exchange the hostnames differ, and so do the addresses unless the router with the
worse claim has the address of the other one in its book. -/
theorem first_exchange (howner : a.localAddress.ownerHash ≠ b.localAddress.ownerHash)
    (hb : Reacts b a.localAddress b') (ha : Reacts a b'.localAddress a') :
    a'.localAddress.hostname ≠ b'.localAddress.hostname ∧ (a'.localAddress.address ≠ b'.localAddress.address ∨
      a.localAddress.addressWins b.localAddress = true ∧ a'.localAddress.address ∈ b'.byValue ∨
      a.localAddress.addressWins b.localAddress = false ∧ b'.localAddress.address ∈ a'.byValue) := by
  have hidentity : b'.localAddress.identityWins a.localAddress = !a.localAddress.identityWins b.localAddress := by
    rw [hb.claim.identityWins ⟨rfl, rfl, rfl⟩, identityWins_swap howner]
  have haddress : b'.localAddress.addressWins a.localAddress = !a.localAddress.addressWins b.localAddress := by
    rw [hb.claim.addressWins ⟨rfl, rfl, rfl⟩, addressWins_swap howner]
  constructor
  · cases hwins : a.localAddress.identityWins b.localAddress with
    | true =>
      have hne := hb.hostname_ne hwins
      rw [ha.hostname_eq (.inl hne)]
      exact hne.symm
    | false =>
      apply ha.hostname_ne
      rw [hidentity, hwins]
      rfl
  · cases hwins : a.localAddress.addressWins b.localAddress with
    | true =>
      have hkept : a'.localAddress.address = a.localAddress.address := by
        apply ha.address_eq
        rw [haddress, hwins]
        exact .inr rfl
      rw [hkept]
      obtain hne | hmem := hb.address_mem hwins
      · exact .inl hne.symm
      · exact .inr (.inl ⟨rfl, hmem⟩)
    | false =>
      rw [hwins] at haddress
      obtain hne | hmem := ha.address_mem haddress
      · exact .inl hne
      · exact .inr (.inr ⟨rfl, hmem⟩)

/-- After the second exchange the addresses differ too. -/
theorem second_exchange (howner : a.localAddress.ownerHash ≠ b.localAddress.ownerHash)
    (hb : Reacts b a.localAddress b') (ha : Reacts a b'.localAddress a')
    (hhost : a.localAddress.hostname ≠ b.localAddress.hostname)
    (hpending : a.localAddress.address ≠ b.localAddress.address ∨
      a.localAddress.addressWins b.localAddress = true ∧ a.localAddress.address ∈ b.byValue ∨
      a.localAddress.addressWins b.localAddress = false ∧ b.localAddress.address ∈ a.byValue) : Apart (a', b') := by
  have haddress : b'.localAddress.addressWins a.localAddress = !a.localAddress.addressWins b.localAddress := by
    rw [hb.claim.addressWins ⟨rfl, rfl, rfl⟩, addressWins_swap howner]
  have hhostB : b'.localAddress.hostname = b.localAddress.hostname := hb.hostname_eq (.inl hhost)
  have hhostA : a'.localAddress.hostname = a.localAddress.hostname := by
    apply ha.hostname_eq
    rw [hhostB]
    exact .inl hhost.symm
  -- whoever yields, the other one keeps its address
  have happart : a'.localAddress.address ≠ b'.localAddress.address := by
    by_cases hsame : a.localAddress.address = b.localAddress.address
    · obtain hne | ⟨hwins, hmem⟩ | ⟨hloses, hmem⟩ := hpending
      · exact absurd hsame hne
      · rw [ha.address_eq (.inr (by rw [haddress, hwins]; rfl))]
        exact (hb.address_ne hwins hhost hmem).symm
      · rw [← hb.address_eq (.inr hloses)] at hmem
        rw [hloses] at haddress
        refine ha.address_ne haddress ?_ hmem
        rw [hhostB]
        exact hhost.symm
    · have hkeptB : b'.localAddress.address = b.localAddress.address := hb.address_eq (.inl hsame)
      rw [ha.address_eq (.inl (by rw [hkeptB]; exact fun h => hsame h.symm)), hkeptB]
      exact hsame
  refine ⟨?_, ?_, happart⟩
  · rw [ha.claim.2.2, hb.claim.2.2]
    exact howner
  · rw [hhostA, hhostB]
    exact hhost

/-- **Two identities converge**: after two exchanges the hostnames and the addresses of two new
routers differ, and no further exchange changes them. -/
theorem identities_converge (a b : AddressBookEntry) (servicesA servicesB : Bool)
    (howner : a.ownerHash ≠ b.ownerHash) (now now' : UInt64 × UInt64) :
    ∃ p, exchanges (new a servicesA, new b servicesB) [now, now'] = .ok p ∧
      p.1.localAddress.hostname ≠ p.2.localAddress.hostname ∧ p.1.localAddress.address ≠ p.2.localAddress.address ∧
      ∀ further, ∃ q, exchanges p further = .ok q ∧ SameIdentities p q := by
  obtain ⟨rb, hrb, hb, hroomB⟩ := ingest_reacts (s := new b servicesB) (n := 2) a now.1
    (fresh_of_owned (owned_new b servicesB).1 howner) howner (room_new b servicesB)
  have hownerA : rb.state.localAddress.ownerHash ≠ (new a servicesA).localAddress.ownerHash := by
    rw [hb.claim.2.2]
    exact howner.symm
  obtain ⟨ra, hra, ha, hroomA⟩ := ingest_reacts (s := new a servicesA) (n := 2) rb.state.localAddress now.2
    (fresh_of_owned (owned_new a servicesA).1 hownerA) hownerA (room_new a servicesA)
  obtain ⟨hhost, hpending⟩ := first_exchange (a := new a servicesA) (b := new b servicesB) howner hb ha
  have howner' : ra.state.localAddress.ownerHash ≠ rb.state.localAddress.ownerHash := by
    rw [ha.claim.2.2]
    exact hownerA.symm
  rw [← ha.claim.addressWins hb.claim] at hpending
  -- the second exchange starts from distinct hostnames
  obtain ⟨rb', hrb', hb', -⟩ := ingest_reacts (s := rb.state) (n := 0) ra.state.localAddress now'.1
    (fresh_of_ne hhost) howner' hroomB
  have hownerA' : rb'.state.localAddress.ownerHash ≠ ra.state.localAddress.ownerHash := by
    rw [hb'.claim.2.2]
    exact howner'.symm
  have hhost' : rb'.state.localAddress.hostname ≠ ra.state.localAddress.hostname := by
    rw [hb'.hostname_eq (.inl hhost)]
    exact hhost.symm
  obtain ⟨ra', hra', ha', -⟩ := ingest_reacts (s := ra.state) (n := 0) rb'.state.localAddress now'.2
    (fresh_of_ne hhost') hownerA' hroomA
  have hapart : Apart (ra'.state, rb'.state) := second_exchange howner' hb' ha' hhost hpending
  refine ⟨_, ?_, hapart.hostname, hapart.address, fun further => Apart.exchanges further hapart⟩
  unfold exchanges exchanges exchanges
  rw [exchange_of_ingest (a := new a servicesA) hrb hra]
  dsimp only
  rw [exchange_of_ingest (a := ra.state) hrb' hra']

/-- Two new routers with one hostname and one address. -/
theorem identities_converge_twins :
    ∃ p, exchanges (new sampleNode true, new { sampleNode with ownerHash := 2 } true) [(0, 0), (0, 0)] = .ok p ∧
      p.1.localAddress.hostname ≠ p.2.localAddress.hostname ∧
      p.1.localAddress.address ≠ p.2.localAddress.address ∧
      ∀ further, ∃ q, exchanges p further = .ok q ∧ SameIdentities p q :=
  identities_converge sampleNode { sampleNode with ownerHash := 2 } true true (by decide) (0, 0) (0, 0)

/-! ### Repeated advertisements -/

/-- The condition on an advertisement: it contests at most one of hostname and address and wins what it
contests, under a hostname where the peer is not known; and the address that the local node gets instead
of a contested one is another. -/
structure Settles (s : NodeState) (ad : AddressAdvertisement) (now : UInt64) : Prop where
  hostname : s.hostnameConflict (ad.entry now) = true → (ad.entry now).identityWins s.localAddress = true ∧
    s.addressConflict (ad.entry now) = false ∧ s.known ad.hostname ad.ownerHash = false
  address : s.addressConflict (ad.entry now) = true → (ad.entry now).addressWins s.localAddress = true ∧
    s.allocateFreeAddress (addressSeed s.localAddress) ≠ s.localAddress.address

/-- A record without the time at which its owner was last seen. -/
def unseen (e : AddressBookEntry) : AddressBookEntry := { e with lastSeenMs := 0 }

/-- The same identity and the same maps, up to the times at which the peers were last seen. -/
structure SameUpToLastSeen (s s' : NodeState) : Prop where
  localAddress : s'.localAddress = s.localAddress
  book : ∀ host : Bytes, (s'.book[host]?).map unseen = (s.book[host]?).map unseen
  size : s'.book.size = s.book.size
  byValue : s'.byValue = s.byValue

variable {ad : AddressAdvertisement}

/-- The peer has its record, and nothing is contested any more. -/
theorem Outcome.settled (h : Outcome s ad now s') (hs : Settles s ad now) :
    (∃ x : NodeState, s' = x.withPeer (ad.entry now)) ∧
      ∀ now', s'.hostnameConflict (ad.entry now') = false ∧ s'.addressConflict (ad.entry now') = false := by
  have hclear : ∀ x : NodeState, ad.hostname ≠ x.localAddress.hostname → ad.address ≠ x.localAddress.address →
      ∀ now', x.hostnameConflict (ad.entry now') = false ∧ x.addressConflict (ad.entry now') = false := by
    intro x hhost haddress now'
    exact ⟨Bool.eq_false_of_not_eq_true fun h => hhost (hostnameConflict_iff.mp h).1,
      Bool.eq_false_of_not_eq_true fun h => haddress (addressConflict_iff.mp h).1⟩
  cases h with
  | renamed hconflict hwins hfree =>
    refine ⟨⟨_, rfl⟩, hclear _ ?_ ?_⟩
    · rw [show ad.hostname = _ from (hostnameConflict_iff.mp hconflict).1]
      exact (not_taken hfree).2
    · intro heq
      have hcontested := addressConflict_iff.mpr ⟨heq, (hostnameConflict_iff.mp hconflict).2⟩
      cases (hs.hostname hconflict).2.1.symm.trans hcontested
  | moved hconflict hwins hkeeps =>
    obtain ⟨haddress, howner⟩ := addressConflict_iff.mp hconflict
    refine ⟨⟨_, rfl⟩, hclear _ ?_ ?_⟩
    · intro heq
      have hcontested := hostnameConflict_iff.mpr ⟨heq, howner⟩
      cases (hs.hostname hcontested).2.1.symm.trans hconflict
    · intro heq
      exact (hs.address hconflict).2 (heq.symm.trans haddress)
  | peerRenamed hconflict hloses hfree => cases hloses.symm.trans (hs.hostname hconflict).1
  | peerMoved hconflict hnone hloses => cases hloses.symm.trans (hs.address hconflict).1
  | recorded hhost haddress => exact ⟨⟨s, rfl⟩, fun _ => ⟨hhost, haddress⟩⟩

theorem sameUpToLastSeen_withPeer (x : NodeState) (ad : AddressAdvertisement) (now now' : UInt64) :
    SameUpToLastSeen (x.withPeer (ad.entry now)) ((x.withPeer (ad.entry now)).withPeer (ad.entry now')) := by
  refine ⟨rfl, fun host => ?_, ?_, ?_⟩
  · simp only [withPeer_lookup, AddressAdvertisement.entry]
    split_ifs
    · rfl
    · rfl
  · exact (ExtTreeMap.size_insert).trans (if_pos (ExtTreeMap.mem_insert_self))
  · apply ExtTreeMap.ext_getElem?
    intro address
    simp only [withPeer, getElem?_insert_eq, getElem?_erase_eq, AddressAdvertisement.entry]
    split_ifs
    · rfl
    · rfl

/-- Where nothing is contested after an advertisement it met the condition. -/
theorem Outcome.settles {now' : UInt64} (h : Outcome s ad now s')
    (hunknown : s.hostnameConflict (ad.entry now) = true ∧ (ad.entry now).identityWins s.localAddress = true →
      s.known ad.hostname ad.ownerHash = false) (hhost : s'.hostnameConflict (ad.entry now') = false)
    (haddress : s'.addressConflict (ad.entry now') = false) : Settles s ad now := by
  rw [← Bool.not_eq_true, hostnameConflict_iff] at hhost
  rw [← Bool.not_eq_true, addressConflict_iff] at haddress
  cases h with
  | renamed hconflict hwins hfree =>
    have hclear : s.addressConflict (ad.entry now) = false :=
      Bool.eq_false_of_not_eq_true fun h => haddress (addressConflict_iff.mp h)
    exact ⟨fun _ => ⟨hwins, hclear, hunknown ⟨hconflict, hwins⟩⟩, fun h => by cases hclear.symm.trans h⟩
  | moved hconflict hwins hkeeps =>
    obtain ⟨hsame, howner⟩ := addressConflict_iff.mp hconflict
    refine ⟨fun h => absurd (hostnameConflict_iff.mp h) hhost, fun _ => ⟨hwins, fun heq => haddress ⟨?_, howner⟩⟩⟩
    exact hsame.trans heq.symm
  | peerRenamed hconflict hloses hfree =>
    refine absurd (hostnameConflict_iff.mp hconflict) ?_
    cases hk : s.known ad.hostname ad.ownerHash with
    | true | false =>
      rw [hk] at hhost
      exact hhost
  | peerMoved hconflict hnone hloses => exact absurd (addressConflict_iff.mp hconflict) haddress
  | recorded hnone hfree =>
    exact ⟨fun h => (by cases hnone.symm.trans h), fun h => (by cases hfree.symm.trans h)⟩

/-- An advertisement that contests something changes more than a time. -/
theorem Outcome.uncontested (h : Outcome s ad now s') (hroom : Room s 0)
    (hlisted : s.addressConflict (ad.entry now) = true → (ad.entry now).addressWins s.localAddress = true →
      s.localAddress.address ∈ s.byValue) (hsame : SameUpToLastSeen s s') :
    s.hostnameConflict (ad.entry now) = false ∧ s.addressConflict (ad.entry now) = false := by
  cases h with
  | renamed hconflict hwins hfree =>
    exact absurd (congrArg AddressBookEntry.hostname hsame.localAddress).symm (not_taken hfree).2
  | moved hconflict hwins hkeeps =>
    have hnew := congrArg AddressBookEntry.address hsame.localAddress
    refine absurd (hlisted hconflict hwins) ?_
    rw [← hnew]
    exact allocateFreeAddress_free _ hroom.1
  | @peerRenamed u hconflict hloses hfree =>
    have hbook := hsame.book u
    rw [(not_taken hfree).1, withPeer_lookup, if_pos rfl] at hbook
    cases hbook
  | peerMoved hconflict hnone hloses =>
    have hmem := mem_withPeer (s := s) { ad.entry now with address := s.allocateFreeAddress (addressSeed (ad.entry now)) }
    rw [hsame.byValue] at hmem
    exact absurd hmem (allocateFreeAddress_free _ hroom.1)
  | recorded hhost haddress => exact ⟨hhost, haddress⟩

/-- The address of an advertisement that was ingested and would win it is listed. -/
theorem Outcome.listed {now' : UInt64} (h : Outcome s ad now s')
    (hconflict : s'.addressConflict (ad.entry now') = true)
    (hwins : (ad.entry now').addressWins s'.localAddress = true) : s'.localAddress.address ∈ s'.byValue := by
  rw [← (addressConflict_iff.mp hconflict).1]
  cases h with
  | peerMoved _ _ hloses => cases hloses.symm.trans hwins
  | renamed | moved | peerRenamed | recorded => exact mem_withPeer _

/-- **A repeated advertisement** changes nothing but the time at which the peer was last seen, exactly if
it wins what it contests. -/
theorem repeated_advertisement (hroom : Room s 2) :
    (∃ r, s.ingest ad now true = .ok r ∧ ∀ now', ∃ r', r.state.ingest ad now' true = .ok r' ∧
      SameUpToLastSeen r.state r'.state) ↔ Settles s ad now := by
  have hbook : s.book.size + 1 < 2 ^ 32 := by
    have := hroom.2
    omega
  constructor
  · rintro ⟨r, hr, hagain⟩
    obtain ⟨r', hr', hsame⟩ := hagain now
    obtain ⟨houtcome, hunknown⟩ := outcome_of_ingest hbook hr
    have hroom' : Room r.state 0 := houtcome.room hroom
    obtain ⟨houtcome', -⟩ := outcome_of_ingest (by have := hroom'.2; omega) hr'
    obtain ⟨hhost, haddress⟩ := houtcome'.uncontested hroom' houtcome.listed hsame
    exact houtcome.settles hunknown hhost haddress
  · intro hs
    obtain ⟨r, hr, houtcome⟩ := ingest_outcome ad now hbook fun hknown hname => by
      cases (hs.hostname hname.1).2.2.symm.trans hknown
    obtain ⟨⟨x, hx⟩, hclear⟩ := houtcome.settled hs
    refine ⟨r, hr, fun now' => ⟨_, ingest_recorded (hclear now').1 (hclear now').2, ?_⟩⟩
    rw [hx]
    exact sameUpToLastSeen_withPeer x ad now now'

/-- A peer of an earlier birth takes the hostname. -/
def earlierPeer : AddressAdvertisement := ⟨[0x41], 6, 0, 0, 3, 2⟩

theorem repeated_advertisement_taken :
    ∃ r, (new sampleNode true).ingest earlierPeer 0 true = .ok r ∧ ∀ now', ∃ r',
      r.state.ingest earlierPeer now' true = .ok r' ∧ SameUpToLastSeen r.state r'.state := by
  refine (repeated_advertisement ((room_new sampleNode true).mono (by decide))).mpr ⟨fun _ => ?_, fun h => ?_⟩
  · decide +kernel
  · exact absurd h (by decide +kernel)

/-- A peer of a later birth does not get the hostname: it is recorded under one name more each time. -/
def laterPeer : AddressAdvertisement := ⟨[0x41], 6, 0, 0, 20, 2⟩

theorem repeated_advertisement_grows :
    (Runs.run step (new sampleNode true) [(laterPeer, 0)]).book.size = 2 ∧
      (Runs.run step (new sampleNode true) [(laterPeer, 0), (laterPeer, 0)]).book.size = 3 := by
  decide +kernel

end NodeState

end SedsNet
