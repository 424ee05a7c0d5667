import SedsNet.NodeAddress
import SedsNet.Runs

/-! # The address book as an index

`ingest_outcome` says what an ingested advertisement does; its panic needs a book in which a peer has
the hostname of the local node.  From this follow, for advertisements that do not contest hostname and
address at once, that every one is ingested (`ingestion_never_panics`), and, for peers that keep their
own addresses, that the two maps stay inverse to each other (`address_index`). -/

namespace SedsNet

namespace NodeState

open OrderedMap Runs List
open Std (ExtTreeMap)

variable {s : NodeState}

/-! ### Free addresses -/

/-- The candidate after another one. -/
def nextAddress (c : UInt32) : UInt32 := if c + 1 = 0 then 1 else c + 1

variable {c : UInt32}

theorem toNat_nextAddress (c : UInt32) : (nextAddress c).toNat = c.toNat % (2 ^ 32 - 1) + 1 := by
  have hlt := c.toNat_lt
  have hadd : (c + 1).toNat = (c.toNat + 1) % 2 ^ 32 := UInt32.toNat_add c 1
  unfold nextAddress
  split
  · rename_i hzero
    rw [hzero] at hadd
    have : c.toNat = 2 ^ 32 - 1 := by
      have h0 : (0 : UInt32).toNat = 0 := rfl
      omega
    rw [this]
    rfl
  · rename_i hne
    have hne' : (c + 1).toNat ≠ 0 := fun h => hne (UInt32.toNat_inj.mp h)
    omega

theorem nextAddress_ne_zero (c : UInt32) : nextAddress c ≠ 0 := by
  intro h
  have := toNat_nextAddress c
  rw [h] at this
  have h0 : (0 : UInt32).toNat = 0 := rfl
  omega

theorem toNat_iterate_nextAddress (hc : c ≠ 0) :
    ∀ k, (nextAddress^[k] c).toNat = (c.toNat - 1 + k) % (2 ^ 32 - 1) + 1
  | 0 => by
      have hlt := c.toNat_lt
      have hpos : 0 < c.toNat := Nat.pos_of_ne_zero fun h => hc (UInt32.toNat_inj.mp h)
      rw [Function.iterate_zero_apply]
      omega
  | k + 1 => by
      rw [Function.iterate_succ_apply', toNat_nextAddress, toNat_iterate_nextAddress hc k]
      omega

/-- The search finds a free address, or it has seen only taken ones. -/
theorem allocateFrom_cases (byValue : ExtTreeMap UInt32 Bytes) (rounds : ℕ) :
    ∀ c, c ≠ 0 → allocateFrom byValue rounds c ∉ byValue ∨ ∀ k < rounds, nextAddress^[k] c ∈ byValue := by
  induction rounds with
  | zero => exact fun c hc => .inr fun k hk => absurd hk (Nat.not_lt_zero k)
  | succ rounds ih =>
    intro c hc
    unfold allocateFrom
    split
    · rename_i hfree
      exact .inl hfree.2
    rename_i htaken
    obtain hfound | hall := ih (nextAddress c) (nextAddress_ne_zero c)
    · exact .inl hfound
    refine .inr fun k hk => ?_
    cases k with
    | zero =>
      by_contra hnot
      exact htaken ⟨hc, hnot⟩
    | succ k =>
      exact hall k (by omega)

theorem allocateFreeAddress_free (seed : UInt32) (hroom : s.byValue.size < 2 ^ 32 - 1) :
    s.allocateFreeAddress seed ∉ s.byValue := by
  unfold allocateFreeAddress
  generalize hc : (if seed = 0 then 1 else seed) = c
  have hne : c ≠ 0 := by
    rw [← hc]
    split
    · decide
    · assumption
  obtain hfound | hall := allocateFrom_cases s.byValue (2 ^ 32 - 1) c hne
  · exact hfound
  -- The candidates are different, so the map would have an entry for each.
  generalize hn : 2 ^ 32 - 1 = n at hall hroom
  have hlength : ((List.range n).map fun k => nextAddress^[k] c).length ≤ s.byValue.size := by
    apply length_le_size
    · apply List.Nodup.map_on _ nodup_range
      intro k hk k' hk' heq
      have hnat := congrArg UInt32.toNat heq
      rw [toNat_iterate_nextAddress hne, toNat_iterate_nextAddress hne, hn] at hnat
      rw [mem_range] at hk hk'
      have hmod : (c.toNat - 1 + k) % n = (c.toNat - 1 + k') % n := by omega
      have heq' := (Nat.ModEq.add_left_cancel' (c.toNat - 1) hmod)
      rw [Nat.ModEq, Nat.mod_eq_of_lt hk, Nat.mod_eq_of_lt hk'] at heq'
      exact heq'
    · intro a ha
      obtain ⟨k, hk, rfl⟩ := mem_map.mp ha
      exact hall k (mem_range.mp hk)
  rw [length_map, length_range] at hlength
  omega

/-! ### Free hostnames -/

theorem decimalLoop_injective {n n' : ℕ} (hn : n < 2 ^ 32) (hn' : n' < 2 ^ 32)
    (h : decimalLoop 10 n [] = decimalLoop 10 n' []) : n = n' := by
  have hparse := parseDigits_decimalLoop 10 n [] (by omega) (by decide) hn
  rw [h, parseDigits_decimalLoop 10 n' [] (by omega) (by decide) hn'] at hparse
  exact (Option.some.inj hparse).symm

theorem hostnameCandidate_injective {base : Bytes} {ownerHash : UInt64} {k k' : ℕ} (hk : k < 2 ^ 32)
    (hk' : k' < 2 ^ 32) (h : hostnameCandidate base ownerHash k = hostnameCandidate base ownerHash k') : k = k' := by
  unfold hostnameCandidate at h
  generalize (if base = [] then nodeStem else base) ++ 0x2D :: formatHex08 ownerHash = stem at h
  have hlonger : ∀ digits, stem ≠ stem ++ 0x2D :: digits := by
    intro digits heq
    have hlength := congrArg List.length heq
    rw [length_append, length_cons] at hlength
    omega
  by_cases hzero : k = 0
  · by_cases hzero' : k' = 0
    · rw [hzero, hzero']
    · rw [if_pos hzero, if_neg hzero'] at h
      exact absurd h (hlonger _)
  · by_cases hzero' : k' = 0
    · rw [if_neg hzero, if_pos hzero'] at h
      exact absurd h.symm (hlonger _)
    · rw [if_neg hzero, if_neg hzero'] at h
      have hdigits := append_cancel_left h
      rw [List.cons.injEq] at hdigits
      exact decimalLoop_injective hk hk' hdigits.2

theorem uniqueFrom_cases (base : Bytes) (ownerHash : UInt64) (rounds : ℕ) :
    ∀ suffix, (∃ u, s.uniqueFrom base ownerHash rounds suffix = some u ∧ s.taken u = false) ∨
      ∀ k < rounds, s.taken (hostnameCandidate base ownerHash (suffix + k)) = true := by
  induction rounds with
  | zero => exact fun suffix => .inr fun k hk => absurd hk (Nat.not_lt_zero k)
  | succ rounds ih =>
    intro suffix
    unfold uniqueFrom
    dsimp only
    split
    · rename_i htaken
      obtain hfound | hall := ih (suffix + 1)
      · exact .inl hfound
      refine .inr fun k hk => ?_
      cases k with
      | zero => exact htaken
      | succ k =>
        have hnext := hall k (by omega)
        rw [Nat.add_right_comm] at hnext
        exact hnext
    · rename_i hfree
      exact .inl ⟨_, rfl, Bool.not_eq_true _ ▸ hfree⟩

variable {hostname : Bytes}

theorem taken_iff : s.taken hostname = true ↔ hostname ∈ s.book ∨ s.localAddress.hostname = hostname := by
  unfold taken
  rw [Bool.or_eq_true, ExtTreeMap.contains_iff_mem, beq_iff_eq]

theorem not_taken (h : s.taken hostname = false) : s.book[hostname]? = none ∧ s.localAddress.hostname ≠ hostname := by
  rw [← Bool.not_eq_true, taken_iff, not_or] at h
  exact ⟨not_mem_iff.mp h.1, h.2⟩

/-- The search for a hostname ends while the book is smaller than the set of candidates. -/
theorem uniqueHostname_spec (base : Bytes) (ownerHash : UInt64) (hroom : s.book.size + 1 < 2 ^ 32) :
    ∃ u, s.uniqueHostname base ownerHash = some u ∧ s.taken u = false := by
  unfold uniqueHostname
  split
  · obtain hfound | hall := uniqueFrom_cases (s := s) base ownerHash (2 ^ 32) 0
    · exact hfound
    generalize hn : 2 ^ 32 = n at hall hroom
    have hsub : ((List.range n).map fun k => hostnameCandidate base ownerHash k).length ≤
        (s.localAddress.hostname :: s.book.keys).length := by
      apply (List.Nodup.subperm (List.Nodup.map_on _ nodup_range) _).length_le
      · intro k hk k' hk' heq
        rw [mem_range, ← hn] at hk hk'
        exact hostnameCandidate_injective hk hk' heq
      · intro c hc
        obtain ⟨k, hk, rfl⟩ := mem_map.mp hc
        have htaken := hall k (mem_range.mp hk)
        rw [Nat.zero_add, taken_iff] at htaken
        obtain hbook | hlocal := htaken
        · exact mem_cons_of_mem _ (ExtTreeMap.mem_keys.mpr hbook)
        · rw [← hlocal]
          exact mem_cons_self
    rw [length_map, length_range, length_cons, ExtTreeMap.length_keys] at hsub
    omega
  · rename_i hfree
    exact ⟨base, rfl, Bool.not_eq_true _ ▸ hfree⟩

/-! ### What an advertisement does -/

/-- The state without the record that a known peer had. -/
def withoutKnown (s : NodeState) (ad : AddressAdvertisement) (known : Bool) : NodeState :=
  if known then { s with book := s.book.erase ad.hostname } else s

/-- The state after an ingested advertisement. -/
inductive Outcome (s : NodeState) (ad : AddressAdvertisement) (now : UInt64) : NodeState → Prop
  /-- The peer takes the hostname. -/
  | renamed {u : Bytes} (hconflict : s.hostnameConflict (ad.entry now) = true)
      (hwins : (ad.entry now).identityWins s.localAddress = true) (hfree : s.taken u = false) :
      Outcome s ad now
        ((s.withLocal { s.localAddress with hostname := u, lastSeenMs := now }).withPeer (ad.entry now))
  /-- The peer takes the address. -/
  | moved (hconflict : s.addressConflict (ad.entry now) = true)
      (hwins : (ad.entry now).addressWins s.localAddress = true)
      (hkeeps : ¬ (s.hostnameConflict (ad.entry now) = true ∧
        (ad.entry now).identityWins s.localAddress = true)) :
      Outcome s ad now
        ((s.withLocal { s.localAddress with
          address := s.allocateFreeAddress (addressSeed s.localAddress)
          lastSeenMs := now }).withPeer (ad.entry now))
  /-- The peer is recorded under another hostname. -/
  | peerRenamed {u : Bytes} (hconflict : s.hostnameConflict (ad.entry now) = true)
      (hloses : (ad.entry now).identityWins s.localAddress = false) (hfree : s.taken u = false) :
      Outcome s ad now
        ((s.withoutKnown ad (s.known ad.hostname ad.ownerHash)).withPeer
          { ad.entry now with hostname := u })
  /-- The peer is recorded with another address. -/
  | peerMoved (hconflict : s.addressConflict (ad.entry now) = true)
      (hnone : s.hostnameConflict (ad.entry now) = false)
      (hloses : (ad.entry now).addressWins s.localAddress = false) :
      Outcome s ad now
        (s.withPeer { ad.entry now with address := s.allocateFreeAddress (addressSeed (ad.entry now)) })
  | recorded (hhost : s.hostnameConflict (ad.entry now) = false)
      (haddress : s.addressConflict (ad.entry now) = false) : Outcome s ad now (s.withPeer (ad.entry now))

variable {remote : AddressBookEntry}

theorem withPeer_withoutKnown (ad : AddressAdvertisement) (known : Bool)
    (h : remote.hostname = ad.hostname) : (s.withoutKnown ad known).withPeer remote = s.withPeer remote := by
  unfold withoutKnown
  split
  · unfold withPeer
    rw [h, insert_erase]
  · rfl

theorem withLocal_lookup (next : AddressBookEntry) (host : Bytes) : (s.withLocal next).book[host]? =
      if next.hostname = host then some next else if s.localAddress.hostname = host then none else s.book[host]? := by
  unfold withLocal
  rw [getElem?_insert_eq, getElem?_erase_eq]

theorem withPeer_lookup (remote : AddressBookEntry) (host : Bytes) :
    (s.withPeer remote).book[host]? = if remote.hostname = host then some remote else s.book[host]? := by
  unfold withPeer
  rw [getElem?_insert_eq]

theorem known_iff {ownerHash : UInt64} :
    s.known hostname ownerHash = true ↔ ∃ e, s.book[hostname]? = some e ∧ e.ownerHash = ownerHash := by
  unfold known
  rw [Option.any_eq_true]
  simp

theorem mem_of_known {ownerHash : UInt64} (h : s.known hostname ownerHash = true) : hostname ∈ s.book := by
  obtain ⟨e, he, -⟩ := known_iff.mp h
  exact mem_iff_exists.mpr ⟨e, he⟩

theorem hostnameConflict_iff : s.hostnameConflict remote = true ↔
      remote.hostname = s.localAddress.hostname ∧ remote.ownerHash ≠ s.localAddress.ownerHash := by
  simp [hostnameConflict]

theorem addressConflict_iff : s.addressConflict remote = true ↔
      remote.address = s.localAddress.address ∧ remote.ownerHash ≠ s.localAddress.ownerHash := by
  simp [addressConflict]

theorem movesLocal_iff : s.movesLocal remote = true ↔
      s.hostnameConflict remote = true ∧ remote.identityWins s.localAddress = true ∨
        s.addressConflict remote = true ∧ remote.addressWins s.localAddress = true := by
  rw [hostnameConflict_iff, addressConflict_iff]
  simp only [movesLocal, Bool.and_eq_true, Bool.or_eq_true, bne_iff_ne, beq_iff_eq]
  tauto

/-- The record that a local identity without one has set aside before it changes. -/
def localSpare (s : NodeState) (ad : AddressAdvertisement) (now : UInt64) : Option AddressBookEntry :=
  if s.movesLocal (ad.entry now) && !s.book.contains s.localAddress.hostname then some s.localAddress else none

variable {ad : AddressAdvertisement} {now : UInt64}

theorem updateLocalIdentity_eq (next : AddressBookEntry) (hmoves : s.movesLocal (ad.entry now) = true) :
    s.updateLocalIdentity next (s.localSpare ad now) now = .ok (s.withLocal { next with lastSeenMs := now }) := by
  unfold updateLocalIdentity localSpare
  rw [hmoves]
  cases s.book.contains s.localAddress.hostname with
  | true | false => rfl

theorem ingest_of_resolve {r : Resolution}
    (hresolve : s.resolveConflict (ad.entry now) (s.localSpare ad now) now = .ok r) :
    s.ingest ad now true = recordPeer r ad !s.known ad.hostname ad.ownerHash := by
  have hprepared : s.prepareAddressRecord ad now true =
      .ok ⟨if s.known ad.hostname ad.ownerHash then none else some (ad.entry now), s.localSpare ad now⟩ := by
    unfold prepareAddressRecord
    dsimp only
    rw [Bool.not_true, Bool.and_false]
    rfl
  unfold ingest
  rw [hprepared]
  have hknown : s.known (ad.entry now).hostname (ad.entry now).ownerHash = s.known ad.hostname ad.ownerHash := rfl
  cases hk : s.known ad.hostname ad.ownerHash with
  | true =>
    change s.ingestRemote ad (ad.entry now) ⟨none, s.localSpare ad now⟩ now = _
    unfold ingestRemote
    rw [hknown, hk, hresolve]
    rfl
  | false =>
    change s.ingestRemote ad (ad.entry now) ⟨some (ad.entry now), s.localSpare ad now⟩ now = _
    unfold ingestRemote
    rw [hknown, hresolve]
    rfl

theorem recordPeer_eq {r : Resolution} {known : Bool} (hpresent : known = true → ad.hostname ∈ r.state.book) :
    recordPeer r ad (!known) = .ok { r with state := (r.state.withoutKnown ad known).withPeer r.remote } := by
  cases known with
  | true =>
    unfold recordPeer
    rw [if_neg (by decide), if_pos (ExtTreeMap.contains_iff_mem.mpr (hpresent rfl))]
    rfl
  | false => rfl

/-- An advertisement is ingested unless it takes the hostname under which the peer is known. -/
theorem ingest_outcome (ad : AddressAdvertisement) (now : UInt64) (hroom : s.book.size + 1 < 2 ^ 32)
    (hknown : s.known ad.hostname ad.ownerHash = true → ¬ (s.hostnameConflict (ad.entry now) = true ∧
      (ad.entry now).identityWins s.localAddress = true)) :
    ∃ r, s.ingest ad now true = .ok r ∧ Outcome s ad now r.state := by
  have hbook : s.known ad.hostname ad.ownerHash = true → ad.hostname ∈ s.book := mem_of_known
  have hresolve : ∃ r, s.resolveConflict (ad.entry now) (s.localSpare ad now) now = .ok r ∧
      (s.known ad.hostname ad.ownerHash = true → ad.hostname ∈ r.state.book) ∧
      Outcome s ad now ((r.state.withoutKnown ad (s.known ad.hostname ad.ownerHash)).withPeer r.remote) := by
    unfold resolveConflict
    simp only [Bool.and_eq_true]
    split_ifs with hname haddress hhost hconflict
    · obtain ⟨u, hu, hfree⟩ := uniqueHostname_spec s.localAddress.hostname s.localAddress.ownerHash hroom
      have hunknown : s.known ad.hostname ad.ownerHash = false :=
        Bool.eq_false_of_not_eq_true fun hk => hknown hk hname
      simp only [yieldHostname, hu, updateLocalIdentity_eq _ (movesLocal_iff.mpr (.inl hname))]
      refine ⟨_, rfl, ?_, ?_⟩
      · rw [hunknown]
        exact fun h => absurd h Bool.false_ne_true
      · rw [hunknown]
        exact .renamed hname.1 hname.2 hfree
    · simp only [yieldAddress, updateLocalIdentity_eq _ (movesLocal_iff.mpr (.inr haddress))]
      refine ⟨_, rfl, ?_, ?_⟩
      · intro hk
        obtain ⟨e, he⟩ := mem_iff_exists.mp (hbook hk)
        rw [mem_iff_exists, withLocal_lookup]
        split
        · exact ⟨_, rfl⟩
        · exact ⟨e, he⟩
      · rw [withPeer_withoutKnown ad _ rfl]
        exact .moved haddress.1 haddress.2 hname
    · obtain ⟨u, hu, hfree⟩ := uniqueHostname_spec (ad.entry now).hostname (ad.entry now).ownerHash hroom
      rw [hu]
      refine ⟨_, rfl, hbook, .peerRenamed hhost ?_ hfree⟩
      exact Bool.eq_false_of_not_eq_true fun hwins => hname ⟨hhost, hwins⟩
    · refine ⟨_, rfl, hbook, ?_⟩
      rw [withPeer_withoutKnown ad _ rfl]
      refine .peerMoved hconflict (Bool.eq_false_of_not_eq_true hhost) ?_
      exact Bool.eq_false_of_not_eq_true fun hwins => haddress ⟨hconflict, hwins⟩
    · refine ⟨_, rfl, hbook, ?_⟩
      rw [withPeer_withoutKnown ad _ rfl]
      exact .recorded (Bool.eq_false_of_not_eq_true hhost) (Bool.eq_false_of_not_eq_true hconflict)
  obtain ⟨r, hr, hpresent, houtcome⟩ := hresolve
  exact ⟨_, (ingest_of_resolve hr).trans (recordPeer_eq hpresent), houtcome⟩

/-- The hostname that a peer takes goes with the local record, so it is not where the peer was known. -/
theorem outcome_of_ingest {r : Resolution} (hroom : s.book.size + 1 < 2 ^ 32) (h : s.ingest ad now true = .ok r) :
    Outcome s ad now r.state ∧ (s.hostnameConflict (ad.entry now) = true ∧
      (ad.entry now).identityWins s.localAddress = true → s.known ad.hostname ad.ownerHash = false) := by
  have hunknown : s.hostnameConflict (ad.entry now) = true ∧ (ad.entry now).identityWins s.localAddress = true →
      s.known ad.hostname ad.ownerHash = false := by
    intro hname
    by_contra hknown
    obtain ⟨u, hu, hfree⟩ := uniqueHostname_spec s.localAddress.hostname s.localAddress.ownerHash hroom
    have hresolve : s.resolveConflict (ad.entry now) (s.localSpare ad now) now =
        .ok ⟨s.withLocal { s.localAddress with hostname := u, lastSeenMs := now }, ad.entry now, true,
          some .hostnameConflict⟩ := by
      rw [resolveConflict, if_pos (Bool.and_eq_true_iff.mpr hname), yieldHostname, hu]
      dsimp only
      rw [updateLocalIdentity_eq _ (movesLocal_iff.mpr (.inl hname))]
    have hgone :
        (s.withLocal { s.localAddress with hostname := u, lastSeenMs := now }).book.contains ad.hostname = false := by
      have hhost : ad.hostname = s.localAddress.hostname := (hostnameConflict_iff.mp hname.1).1
      rw [hhost, ← Bool.not_eq_true, ExtTreeMap.contains_iff_mem, not_mem_iff, withLocal_lookup,
        if_neg (not_taken hfree).2.symm, if_pos rfl]
    rw [ingest_of_resolve hresolve, Bool.eq_true_of_not_eq_false hknown, recordPeer] at h
    simp [hgone] at h
  obtain ⟨r', hr', houtcome⟩ := ingest_outcome ad now hroom fun hk hname => by cases (hunknown hname).symm.trans hk
  rw [hr'] at h
  cases h
  exact ⟨houtcome, hunknown⟩

/-! ### Ingestion -/

/-- A new advertisement at a time; memory is granted. -/
def step (s : NodeState) (e : AddressAdvertisement × UInt64) : NodeState :=
  match s.ingest e.1 e.2 true with
  | .ok r => r.state
  | .error _ => s

/-- The record under the local hostname is of the local owner. -/
def Owned (s : NodeState) : Prop :=
  ∀ e, s.book[s.localAddress.hostname]? = some e → e.ownerHash = s.localAddress.ownerHash

def Recorded (s : NodeState) : Prop := s.localAddress.hostname ∈ s.book

/-- The advertisement contests hostname and address at once, and wins the address only. -/
def Entangled (s : NodeState) (remote : AddressBookEntry) : Prop :=
  s.hostnameConflict remote = true ∧ remote.identityWins s.localAddress = false ∧
    s.addressConflict remote = true ∧ remote.addressWins s.localAddress = true

theorem Owned.not_known (h : Owned s)
    (hconflict : s.hostnameConflict (ad.entry now) = true) : s.known ad.hostname ad.ownerHash = false := by
  rw [← Bool.not_eq_true, known_iff]
  rintro ⟨e, he, howner⟩
  obtain ⟨hhost, hne⟩ := hostnameConflict_iff.mp hconflict
  change ad.hostname = _ at hhost
  rw [hhost] at he
  exact hne (howner.symm.trans (h e he))

theorem Owned.withPeer (h : Owned s) (hne : remote.hostname ≠ s.localAddress.hostname) :
    Owned (s.withPeer remote) ∧ (Recorded s → Recorded (s.withPeer remote)) := by
  have hsame : (s.withPeer remote).book[s.localAddress.hostname]? = s.book[s.localAddress.hostname]? := by
    rw [withPeer_lookup, if_neg hne]
  refine ⟨fun e he => h e (hsame.symm.trans he), fun hrecorded => ?_⟩
  obtain ⟨e, he⟩ := mem_iff_exists.mp hrecorded
  exact mem_iff_exists.mpr ⟨e, hsame.trans he⟩

theorem owned_withLocal (s : NodeState) (next : AddressBookEntry) :
    Owned (s.withLocal next) ∧ Recorded (s.withLocal next) := by
  have hown : (s.withLocal next).book[next.hostname]? = some next := by
    rw [withLocal_lookup, if_pos rfl]
  refine ⟨fun e he => ?_, mem_iff_exists.mpr ⟨next, hown⟩⟩
  cases hown.symm.trans he
  rfl

theorem Outcome.owned {s' : NodeState} (h : Outcome s ad now s')
    (howned : Owned s) (huntangled : ¬ Entangled s (ad.entry now)) : Owned s' ∧ (Recorded s → Recorded s') := by
  cases h with
  | @renamed u hconflict hwins hfree =>
    have hne : (ad.entry now).hostname ≠ u := by
      rw [(hostnameConflict_iff.mp hconflict).1]
      exact (not_taken hfree).2
    have hlocal := owned_withLocal s { s.localAddress with hostname := u, lastSeenMs := now }
    obtain ⟨hpeer, hrecorded⟩ := hlocal.1.withPeer hne
    exact ⟨hpeer, fun _ => hrecorded hlocal.2⟩
  | moved hconflict hwins hkeeps =>
    have hne : (ad.entry now).hostname ≠ s.localAddress.hostname := by
      intro heq
      have hhost := hostnameConflict_iff.mpr ⟨heq, (addressConflict_iff.mp hconflict).2⟩
      refine huntangled ⟨hhost, ?_, hconflict, hwins⟩
      rw [← Bool.not_eq_true]
      exact fun hw => hkeeps ⟨hhost, hw⟩
    have hlocal := owned_withLocal s { s.localAddress with
      address := s.allocateFreeAddress (addressSeed s.localAddress), lastSeenMs := now }
    obtain ⟨hpeer, hrecorded⟩ := hlocal.1.withPeer hne
    exact ⟨hpeer, fun _ => hrecorded hlocal.2⟩
  | peerRenamed hconflict hloses hfree =>
    rw [howned.not_known hconflict]
    exact Owned.withPeer (s := s) howned (not_taken hfree).2.symm
  | peerMoved hconflict hnone hloses =>
    refine howned.withPeer fun heq => ?_
    have hhost : s.hostnameConflict (ad.entry now) = true :=
      hostnameConflict_iff.mpr ⟨heq, (addressConflict_iff.mp hconflict).2⟩
    cases hnone.symm.trans hhost
  | recorded hhost haddress =>
    by_cases heq : (ad.entry now).hostname = s.localAddress.hostname
    · have hown : (s.withPeer (ad.entry now)).book[s.localAddress.hostname]? = some (ad.entry now) := by
        rw [withPeer_lookup, if_pos heq]
      refine ⟨fun e he => ?_, fun _ => mem_iff_exists.mpr ⟨_, hown⟩⟩
      cases hown.symm.trans he
      by_contra hne
      rw [hostnameConflict_iff.mpr ⟨heq, hne⟩] at hhost
      cases hhost
    · exact howned.withPeer heq

/-- The condition on an advertisement: it is not entangled, and the search for a hostname ends. -/
def Untangled (s : NodeState) (e : AddressAdvertisement × UInt64) : Prop :=
  ¬ Entangled s (e.1.entry e.2) ∧ s.book.size + 1 < 2 ^ 32

variable {e : AddressAdvertisement × UInt64}

theorem Owned.ingest (h : Owned s) (hu : Untangled s e) :
    ∃ r, s.ingest e.1 e.2 true = .ok r ∧ Outcome s e.1 e.2 r.state := by
  refine ingest_outcome e.1 e.2 hu.2 ?_
  rintro hknown ⟨hconflict, -⟩
  rw [h.not_known hconflict] at hknown
  cases hknown

theorem Owned.step (h : Owned s) (hu : Untangled s e) : Owned (s.step e) ∧ (Recorded s → Recorded (s.step e)) := by
  obtain ⟨r, hr, houtcome⟩ := h.ingest hu
  unfold NodeState.step
  rw [hr]
  exact houtcome.owned h hu.1

variable (me : AddressBookEntry) (localServices : Bool)

theorem owned_new :
    Owned (new me localServices) ∧ (localServices = true → Recorded (new me localServices)) := by
  unfold Owned Recorded new
  cases localServices with
  | true =>
    simp only [if_true]
    refine ⟨?_, fun _ => ExtTreeMap.mem_insert_self⟩
    intro e he
    rw [getElem?_insert_eq, if_pos rfl] at he
    cases he
    rfl
  | false =>
    refine ⟨?_, fun h => absurd h Bool.false_ne_true⟩
    intro e he
    simp at he

/-- **Ingestion never panics**: after advertisements that were not entangled, another such one is
ingested, and a router that has a record of itself keeps it under its current hostname. -/
theorem ingestion_never_panics (es : List (AddressAdvertisement × UInt64))
    (hes : Meets step Untangled (new me localServices) es) (e : AddressAdvertisement × UInt64)
    (he : Untangled (run step (new me localServices) es) e) :
    (∃ r, (run step (new me localServices) es).ingest e.1 e.2 true = .ok r) ∧
    (localServices = true → Recorded (run step (new me localServices) (es ++ [e])) ∧
      Owned (run step (new me localServices) (es ++ [e]))) := by
  have hinv : ∀ s, (Owned s ∧ (localServices = true → Recorded s)) → ∀ e, Untangled s e →
      Owned (s.step e) ∧ (localServices = true → Recorded (s.step e)) := by
    intro s h e hu
    obtain ⟨howned, hrecorded⟩ := h.1.step hu
    exact ⟨howned, fun hl => hrecorded (h.2 hl)⟩
  have hrun := run_invariant (I := fun s => Owned s ∧ (localServices = true → Recorded s))
    (fun s e h hu => hinv s h e hu) (owned_new me localServices) hes
  obtain ⟨r, hr, -⟩ := hrun.1.ingest he
  refine ⟨⟨r, hr⟩, ?_⟩
  intro hl
  obtain ⟨howned, hrecorded⟩ := hinv _ hrun e he
  rw [run_concat]
  exact ⟨hrecorded hl, howned⟩

/-- A router at the address five, and a peer with its hostname that holds that address firmly. -/
def sampleNode : AddressBookEntry := ⟨[0x41], 5, 0, .dynamic, 10, 1, 0⟩

def contestingPeer (birthMs : UInt64) : AddressAdvertisement := ⟨[0x41], 5, 5, 2, birthMs, 2⟩

theorem ingestion_never_panics_renamed :
    (∃ r, (run step (new sampleNode true) [(contestingPeer 3, 0)]).ingest (contestingPeer 4) 0 true = .ok r) ∧
    Recorded (run step (new sampleNode true) [(contestingPeer 3, 0), (contestingPeer 4, 0)]) := by
  have h := ingestion_never_panics sampleNode true [(contestingPeer 3, 0)]
    ⟨⟨by unfold Entangled; decide +kernel, by decide +kernel⟩, trivial⟩ (contestingPeer 4, 0)
    ⟨by unfold Entangled; decide +kernel, by decide +kernel⟩
  exact ⟨h.1, (h.2 rfl).1⟩

/-- The peer takes the address and with it the record of the local hostname; when it has an earlier
birth next, it takes the hostname too, and its record is gone before it is looked up. -/
theorem ingestion_panics :
    errorOf ((run step (new sampleNode true) [(contestingPeer 20, 0)]).ingest (contestingPeer 3) 0 true) =
      some (.aborted "known peer remains present") := by
  decide +kernel

/-! ### The index -/

/-- The two maps are inverse, and only the record of the local node has its hostname or its address. -/
structure Index (s : NodeState) : Prop where
  inverse : Inverse AddressBookEntry.address s.book s.byValue
  hostname : ∀ e, s.book[s.localAddress.hostname]? = some e →
    e.ownerHash = s.localAddress.ownerHash ∧ e.address = s.localAddress.address
  address : ∀ host e, s.book[host]? = some e → e.address = s.localAddress.address →
    host = s.localAddress.hostname

theorem Index.mem_byValue (h : Index s) (hrecorded : Recorded s) : s.localAddress.address ∈ s.byValue := by
  obtain ⟨e, he⟩ := mem_iff_exists.mp hrecorded
  rw [mem_iff_exists]
  exact ⟨_, (h.inverse _ _).mpr ⟨e, he, (h.hostname e he).2⟩⟩

theorem Index.not_of_free (h : Index s) {a : UInt32} (hfree : a ∉ s.byValue) {host : Bytes}
    {e : AddressBookEntry} (he : s.book[host]? = some e) : e.address ≠ a := by
  intro heq
  exact hfree (mem_iff_exists.mpr ⟨host, (h.inverse a host).mpr ⟨e, he, heq⟩⟩)

/-- A peer whose address nobody else has, under a hostname that is free or had the same address. -/
theorem Index.withPeer (h : Index s) (hkey : ∀ e, s.book[remote.hostname]? = some e → e.address = remote.address)
    (himage : ∀ host e, s.book[host]? = some e → e.address = remote.address → host = remote.hostname)
    (hhost : remote.hostname = s.localAddress.hostname →
      remote.ownerHash = s.localAddress.ownerHash ∧ remote.address = s.localAddress.address)
    (haddress : remote.address = s.localAddress.address → remote.hostname = s.localAddress.hostname) :
    Index (s.withPeer remote) := by
  refine ⟨?_, ?_, ?_⟩
  · unfold NodeState.withPeer
    rw [insert_erase]
    exact h.inverse.insert hkey himage
  · intro e he
    rw [withPeer_lookup] at he
    split at he
    · rename_i heq
      cases he
      exact hhost heq
    · exact h.hostname e he
  · intro host e he heq
    rw [withPeer_lookup] at he
    split at he
    · rename_i hsame
      cases he
      rw [← hsame]
      exact haddress heq
    · exact h.address host e he heq

theorem Index.withLocal (h : Index s) (next : AddressBookEntry)
    (hhost : next.hostname = s.localAddress.hostname ∨ s.book[next.hostname]? = none)
    (haddress : next.address = s.localAddress.address ∨ next.address ∉ s.byValue) : Index (s.withLocal next) := by
  have herased : Inverse AddressBookEntry.address (s.book.erase s.localAddress.hostname)
      (s.byValue.erase s.localAddress.address) := by
    cases hlocal : s.book[s.localAddress.hostname]? with
    | none =>
      have hfree : s.byValue[s.localAddress.address]? = none := by
        cases hback : s.byValue[s.localAddress.address]? with
        | none => rfl
        | some host =>
          obtain ⟨e, he, heq⟩ := (h.inverse _ _).mp hback
          rw [h.address host e he heq, hlocal] at he
          cases he
      rw [erase_of_none hlocal, erase_of_none hfree]
      exact h.inverse
    | some e =>
      rw [← (h.hostname e hlocal).2]
      exact h.inverse.erase hlocal
  have hfreeHost : (s.book.erase s.localAddress.hostname)[next.hostname]? = none := by
    rw [getElem?_erase_eq]
    split
    · rfl
    · rename_i hne
      exact hhost.resolve_left fun heq => hne heq.symm
  have hfreeAddress : ∀ (host : Bytes) e,
      (s.book.erase s.localAddress.hostname)[host]? = some e → e.address ≠ next.address := by
    intro host e he heq
    rw [getElem?_erase_eq] at he
    split at he
    · cases he
    rename_i hne
    obtain hsame | hfree := haddress
    · exact hne (h.address host e he (heq.trans hsame)).symm
    · exact h.not_of_free hfree he heq
  refine ⟨?_, ?_, ?_⟩
  · refine herased.insert ?_ ?_
    · intro e he
      cases hfreeHost.symm.trans he
    · intro host e he heq
      exact absurd heq (hfreeAddress host e he)
  · intro e he
    change (s.withLocal next).book[next.hostname]? = some e at he
    rw [withLocal_lookup, if_pos rfl] at he
    cases he
    exact ⟨rfl, rfl⟩
  · intro host e he heq
    change ((s.book.erase s.localAddress.hostname).insert next.hostname next)[host]? = some e at he
    rw [getElem?_insert_eq] at he
    split at he
    · rename_i hsame
      exact hsame.symm
    · exact absurd heq (hfreeAddress host e he)

/-- The condition on an advertisement: it does not contest hostname and address at once, a host keeps
its address, no other host has it, the local owner advertises the local identity only, a contested
address belongs to a node with a record of itself, and neither addresses nor hostnames run out. -/
structure Plain (s : NodeState) (e : AddressAdvertisement × UInt64) : Prop where
  single : ¬ (s.hostnameConflict (e.1.entry e.2) = true ∧ s.addressConflict (e.1.entry e.2) = true)
  stable : ∀ entry, s.book[e.1.hostname]? = some entry →
    s.hostnameConflict (e.1.entry e.2) = true ∨ entry.address = e.1.address
  unshared : ∀ host entry, s.book[host]? = some entry → entry.address = e.1.address →
    host = e.1.hostname ∨ s.addressConflict (e.1.entry e.2) = true
  own : e.1.ownerHash = s.localAddress.ownerHash →
    (e.1.hostname = s.localAddress.hostname ↔ e.1.address = s.localAddress.address)
  recorded : s.addressConflict (e.1.entry e.2) = true → Recorded s
  roomy : s.byValue.size < 2 ^ 32 - 1 ∧ s.book.size + 1 < 2 ^ 32

theorem Plain.address_ne (hp : Plain s e) (hconflict : s.hostnameConflict (e.1.entry e.2) = true) :
    e.1.address ≠ s.localAddress.address := fun heq =>
  hp.single ⟨hconflict, addressConflict_iff.mpr ⟨heq, (hostnameConflict_iff.mp hconflict).2⟩⟩

theorem Plain.hostname_ne (hp : Plain s e) (hconflict : s.addressConflict (e.1.entry e.2) = true) :
    e.1.hostname ≠ s.localAddress.hostname := fun heq =>
  hp.single ⟨hostnameConflict_iff.mpr ⟨heq, (addressConflict_iff.mp hconflict).2⟩, hconflict⟩

theorem Index.outcome (h : Index s) {s' : NodeState} (hp : Plain s e) (houtcome : Outcome s e.1 e.2 s') : Index s' := by
  have hfree := fun seed => allocateFreeAddress_free (s := s) seed hp.roomy.1
  cases houtcome with
  | @renamed u hconflict hwins hu =>
    obtain ⟨hhost, howner⟩ := hostnameConflict_iff.mp hconflict
    obtain ⟨hbook, hne⟩ := not_taken hu
    have hother := hp.address_ne hconflict
    have hlocal := h.withLocal { s.localAddress with hostname := u, lastSeenMs := e.2 }
      (.inr hbook) (.inl rfl)
    refine hlocal.withPeer ?_ ?_ ?_ ?_
    · intro entry hentry
      rw [withLocal_lookup, hhost, if_neg hne.symm, if_pos rfl] at hentry
      cases hentry
    · intro host entry hentry heq
      rw [withLocal_lookup] at hentry
      split at hentry
      · cases hentry
        exact absurd heq.symm hother
      split at hentry
      · cases hentry
      obtain hsame | haddress := hp.unshared host entry hentry heq
      · exact hsame
      · exact absurd ⟨hconflict, haddress⟩ hp.single
    · intro heq
      exact absurd (hhost.symm.trans heq) hne
    · intro heq
      exact absurd heq hother
  | moved hconflict hwins hkeeps =>
    obtain ⟨haddress, howner⟩ := addressConflict_iff.mp hconflict
    have hne := hp.hostname_ne hconflict
    have hnew : s.allocateFreeAddress (addressSeed s.localAddress) ≠ s.localAddress.address := by
      intro heq
      apply hfree (addressSeed s.localAddress)
      rw [heq]
      exact h.mem_byValue (hp.recorded hconflict)
    have hlocal := h.withLocal { s.localAddress with
      address := s.allocateFreeAddress (addressSeed s.localAddress), lastSeenMs := e.2 }
      (.inl rfl) (.inr (hfree _))
    refine hlocal.withPeer ?_ ?_ ?_ ?_
    · intro entry hentry
      rw [withLocal_lookup] at hentry
      change (if s.localAddress.hostname = e.1.hostname then _ else _) = _ at hentry
      rw [if_neg hne.symm] at hentry
      change (if s.localAddress.hostname = e.1.hostname then _ else _) = _ at hentry
      rw [if_neg hne.symm] at hentry
      obtain hhost | hsame := hp.stable entry hentry
      · exact absurd ⟨hhost, hconflict⟩ hp.single
      · exact hsame
    · intro host entry hentry heq
      rw [withLocal_lookup] at hentry
      split at hentry
      · cases hentry
        exact absurd (heq.trans haddress) hnew
      · rename_i hother
        exact absurd (h.address host entry hentry (heq.trans haddress)).symm hother
    · intro heq
      exact absurd heq hne
    · intro heq
      exact absurd (heq.symm.trans haddress) hnew
  | @peerRenamed u hconflict hloses hu =>
    obtain ⟨hhost, howner⟩ := hostnameConflict_iff.mp hconflict
    obtain ⟨hbook, hne⟩ := not_taken hu
    have hother := hp.address_ne hconflict
    have howned : Owned s := fun entry hentry => (h.hostname entry hentry).1
    rw [howned.not_known hconflict]
    refine Index.withPeer (s := s) h ?_ ?_ ?_ ?_
    · intro entry hentry
      cases hbook.symm.trans hentry
    · intro host entry hentry heq
      obtain hsame | haddress := hp.unshared host entry hentry heq
      · rw [hsame] at hentry
        change s.book[(e.1.entry e.2).hostname]? = some entry at hentry
        rw [hhost] at hentry
        exact absurd (heq.symm.trans (h.hostname entry hentry).2) hother
      · exact absurd ⟨hconflict, haddress⟩ hp.single
    · intro heq
      exact absurd heq.symm hne
    · intro heq
      exact absurd heq hother
  | peerMoved hconflict hnone hloses =>
    obtain ⟨haddress, howner⟩ := addressConflict_iff.mp hconflict
    have hne := hp.hostname_ne hconflict
    refine h.withPeer ?_ ?_ ?_ ?_
    · intro entry hentry
      obtain hhost | hsame := hp.stable entry hentry
      · cases hnone.symm.trans hhost
      · exact absurd (h.address _ entry hentry (hsame.trans haddress)) hne
    · intro host entry hentry heq
      exact absurd heq (h.not_of_free (hfree _) hentry)
    · intro heq
      exact absurd heq hne
    · intro heq
      refine absurd (h.mem_byValue (hp.recorded hconflict)) ?_
      rw [← heq]
      exact hfree _
  | recorded hhost haddress =>
    refine h.withPeer ?_ ?_ ?_ ?_
    · intro entry hentry
      obtain hconflict | hstable := hp.stable entry hentry
      · cases hhost.symm.trans hconflict
      · exact hstable
    · intro host entry hentry heq
      obtain hshared | hconflict := hp.unshared host entry hentry heq
      · exact hshared
      · cases haddress.symm.trans hconflict
    · intro heq
      have howner : e.1.ownerHash = s.localAddress.ownerHash := by
        by_contra hne
        rw [hostnameConflict_iff.mpr ⟨heq, hne⟩] at hhost
        cases hhost
      exact ⟨howner, (hp.own howner).mp heq⟩
    · intro heq
      have howner : e.1.ownerHash = s.localAddress.ownerHash := by
        by_contra hne
        rw [addressConflict_iff.mpr ⟨heq, hne⟩] at haddress
        cases haddress
      exact (hp.own howner).mpr heq

theorem Index.step (h : Index s) (hp : Plain s e) : Index (s.step e) := by
  have howned : Owned s := fun entry hentry => (h.hostname entry hentry).1
  have huntangled : Untangled s e :=
    ⟨fun hentangled => hp.single ⟨hentangled.1, hentangled.2.2.1⟩, hp.roomy.2⟩
  obtain ⟨r, hr, houtcome⟩ := howned.ingest huntangled
  unfold NodeState.step
  rw [hr]
  exact h.outcome hp houtcome

theorem index_new : Index (new me localServices) := by
  have hempty : Index (new me false) := by
    refine ⟨?_, ?_, ?_⟩
    · intro a host
      simp [new]
    · intro e he
      simp [new] at he
    · intro host e he
      simp [new] at he
  cases localServices with
  | true =>
    have hnew : new me true = (new me false).withLocal me := by simp [new, withLocal]
    exact hempty.withLocal me (.inl rfl) (.inl rfl)
  | false => exact hempty

/-- **The address index**: after plain advertisements the two maps of the book are inverse to each
other, and no peer has the hostname or the address of the local node. -/
theorem address_index (es : List (AddressAdvertisement × UInt64))
    (hes : Meets step Plain (new me localServices) es) :
    Index (run step (new me localServices) es) :=
  run_invariant (I := Index) (fun _ _ h hp => Index.step h hp) (index_new me localServices) hes

/-- A peer with another hostname. -/
def otherPeer (address : UInt32) : AddressAdvertisement := ⟨[0x42], address, 0, 0, 20, 2⟩

theorem plain_otherPeer : Plain (new sampleNode true) (otherPeer 6, 0) := by
  have hconflict : (new sampleNode true).addressConflict ((otherPeer 6).entry 0) = false := by decide +kernel
  have hbook : ∀ (host : Bytes) entry,
      (new sampleNode true).book[host]? = some entry → entry = sampleNode := by
    intro host entry he
    change ((∅ : ExtTreeMap Bytes AddressBookEntry).insert sampleNode.hostname sampleNode)[host]? = some entry at he
    rw [getElem?_insert_eq] at he
    split at he
    · exact (Option.some.inj he).symm
    · simp at he
  refine ⟨?_, ?_, ?_, ?_, ?_, ?_⟩
  · rintro ⟨-, h⟩
    cases h
  · intro entry he
    have hnone : (new sampleNode true).book[(otherPeer 6).hostname]? = none := by decide +kernel
    cases hnone.symm.trans he
  · intro host entry he heq
    rw [hbook host entry he] at heq
    exact absurd heq (by decide)
  · intro howner
    exact absurd howner (by decide)
  · intro h
    cases hconflict.symm.trans h
  · decide +kernel

theorem address_index_peer : Index (run step (new sampleNode true) [(otherPeer 6, 0)]) ∧
    (run step (new sampleNode true) [(otherPeer 6, 0)]).byValue[(6 : UInt32)]? = some [0x42] :=
  ⟨address_index sampleNode true [(otherPeer 6, 0)] ⟨plain_otherPeer, trivial⟩, by decide +kernel⟩

/-- The peer moves from the address six to seven, and six still leads to its hostname. -/
theorem address_index_stale : ¬ Index (run step (new sampleNode true) [(otherPeer 6, 0), (otherPeer 7, 0)]) := by
  intro h
  have hstale : (run step (new sampleNode true) [(otherPeer 6, 0), (otherPeer 7, 0)]).byValue[(6 : UInt32)]? =
      some [0x42] := by decide +kernel
  have hmoved : ((run step (new sampleNode true) [(otherPeer 6, 0), (otherPeer 7, 0)]).book[([0x42] : Bytes)]?).map
      AddressBookEntry.address = some 7 := by decide +kernel
  obtain ⟨e, he, haddress⟩ := (h.inverse 6 [0x42]).mp hstale
  rw [he, Option.map_some, haddress] at hmoved
  exact absurd hmoved (by decide)

end NodeState

end SedsNet
