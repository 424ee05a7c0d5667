import SedsNet.ByteWords
import SedsNet.Varint

/-! # Endpoint sets on the wire

A packet names its destinations as a set of endpoints in one of three forms: nothing (the schema
of its type lists them), a 256-bit bitmap, or a sorted list of ULEB128 ids (`wire_format.rs`,
endpoint helpers).  All three decode to the sorted duplicate-free list that
`uniqueSortedEndpoints` computes:

* `readEndpointList_ok` — what the list parser accepts is strictly ascending, and the iterator
  over the accepted bytes yields it;
* `reads_endpointsList`, `reads_endpointsBitmap`, `reads_endpointsSchema` — each encoding of a set
  reads back as its sorted list. -/

namespace SedsNet

open ByteCursor ByteWords List

/-! ### Sorted duplicate-free endpoints -/

/-- One step of the iterator: the smallest endpoint above the previous one. -/
def nextEndpoint (eps : List DataEndpoint) (previous : Option DataEndpoint) : Option DataEndpoint :=
  (eps.filter fun ep => previous.all (· < ep)).min?

/-- The iterator of `unique_sorted_endpoints`, for at most `rounds` steps. -/
def uniqueSortedLoop (eps : List DataEndpoint) : (rounds : ℕ) → Option DataEndpoint →
    List DataEndpoint
  | 0, _ => []
  | rounds + 1, previous =>
    match nextEndpoint eps previous with
    | none => []
    | some ep => ep :: uniqueSortedLoop eps rounds (some ep)

def uniqueSortedEndpoints (eps : List DataEndpoint) : List DataEndpoint :=
  uniqueSortedLoop eps eps.length none

/-- `ep` lies above the endpoint produced last. -/
def Above (previous : Option DataEndpoint) (ep : DataEndpoint) : Prop :=
  previous.all (· < ep) = true

theorem above_none (ep : DataEndpoint) : Above none ep := rfl

variable {ep : DataEndpoint}

theorem above_some {p : DataEndpoint} : Above (some p) ep ↔ p < ep := by
  simp [Above]

variable {previous : Option DataEndpoint}

theorem Above.trans {a b : DataEndpoint} (h : Above previous a) (hab : a < b) : Above previous b := by
  cases previous with
  | none => rfl
  | some p => exact above_some.mpr (UInt32.lt_trans (above_some.mp h) hab)

theorem not_any_le : ¬ previous.any (ep ≤ ·) = true ↔ Above previous ep := by
  cases previous with
  | none => simp [Above]
  | some p => simp [Above, UInt32.not_le]

variable {eps : List DataEndpoint}

theorem nextEndpoint_eq_none (h : nextEndpoint eps previous = none) : ∀ ep ∈ eps, ¬ Above previous ep := by
  rw [nextEndpoint, List.min?_eq_none_iff, filter_eq_nil_iff] at h
  exact h

theorem nextEndpoint_eq_some {m : DataEndpoint} (h : nextEndpoint eps previous = some m) :
    m ∈ eps ∧ Above previous m ∧ ∀ ep ∈ eps, Above previous ep → m ≤ ep := by
  rw [nextEndpoint, List.min?_eq_some_iff] at h
  obtain ⟨hm, hle⟩ := h
  obtain ⟨hmem, habove⟩ := mem_filter.mp hm
  exact ⟨hmem, habove, fun ep hep ha => hle ep (mem_filter.mpr ⟨hep, ha⟩)⟩

/-- The iterator lists, in ascending order, the endpoints above the previous one. -/
theorem uniqueSortedLoop_spec (eps : List DataEndpoint) : ∀ rounds previous,
    (eps.filter fun ep => previous.all (· < ep)).length ≤ rounds →
    (uniqueSortedLoop eps rounds previous).Pairwise (· < ·) ∧
      ∀ ep, ep ∈ uniqueSortedLoop eps rounds previous ↔ ep ∈ eps ∧ Above previous ep := by
  intro rounds
  induction rounds with
  | zero =>
    intro previous hlen
    have hnil := length_eq_zero_iff.mp (Nat.le_zero.mp hlen)
    rw [filter_eq_nil_iff] at hnil
    refine ⟨List.Pairwise.nil, fun ep => ?_⟩
    simp only [uniqueSortedLoop, not_mem_nil, false_iff, not_and]
    exact hnil ep
  | succ rounds ih =>
    intro previous hlen
    rw [uniqueSortedLoop]
    cases hnext : nextEndpoint eps previous with
    | none =>
      refine ⟨List.Pairwise.nil, fun ep => ?_⟩
      simp only [not_mem_nil, false_iff, not_and]
      exact nextEndpoint_eq_none hnext ep
    | some m =>
      obtain ⟨hmem, habove, hmin⟩ := nextEndpoint_eq_some hnext
      -- Endpoints above `m` are a proper part of those above `previous`: `m` itself is gone.
      have hsub : (eps.filter fun ep => (some m).all (· < ep)).length <
          (eps.filter fun ep => previous.all (· < ep)).length := by
        have hfilter : (eps.filter fun ep => (some m).all (· < ep)) =
            ((eps.filter fun ep => previous.all (· < ep)).filter fun ep =>
              (some m).all (· < ep)) := by
          rw [filter_filter]
          apply filter_congr
          intro ep _
          by_cases hm : m < ep
          · have hp : previous.all (· < ep) = true := habove.trans hm
            simp [hm, hp]
          · simp [hm]
        rw [hfilter]
        apply length_filter_lt_length_iff_exists.mpr
        exact ⟨m, mem_filter.mpr ⟨hmem, habove⟩, by simp⟩
      obtain ⟨hpair, hiff⟩ := ih (some m) (by omega)
      refine ⟨pairwise_cons.mpr ⟨fun ep hep => ?_, hpair⟩, fun ep => ?_⟩
      · exact above_some.mp ((hiff ep).mp hep).2
      · rw [mem_cons, hiff]
        constructor
        · rintro (rfl | ⟨hep, ha⟩)
          · exact ⟨hmem, habove⟩
          · exact ⟨hep, habove.trans (above_some.mp ha)⟩
        · rintro ⟨hep, ha⟩
          by_cases heq : ep = m
          · exact .inl heq
          · exact .inr ⟨hep, above_some.mpr
              (UInt32.lt_of_le_of_ne (hmin ep hep ha) (Ne.symm heq))⟩

theorem uniqueSortedEndpoints_pairwise (eps : List DataEndpoint) : (uniqueSortedEndpoints eps).Pairwise (· < ·) :=
  (uniqueSortedLoop_spec eps eps.length none (length_filter_le _ _)).1

@[simp] theorem mem_uniqueSortedEndpoints : ep ∈ uniqueSortedEndpoints eps ↔ ep ∈ eps := by
  rw [uniqueSortedEndpoints,
    (uniqueSortedLoop_spec eps eps.length none (length_filter_le _ _)).2]
  simp [above_none]

instance : Std.Antisymm (fun a b : DataEndpoint => a < b) :=
  ⟨fun _ _ h₁ h₂ => absurd h₂ (UInt32.lt_asymm h₁)⟩

instance : Std.Irrefl (fun a b : DataEndpoint => a < b) := ⟨fun a => UInt32.lt_irrefl a⟩

/-- The only strictly ascending list with the members of `eps`. -/
theorem eq_uniqueSortedEndpoints {l : List DataEndpoint} (hl : l.Pairwise (· < ·))
    (hmem : ∀ ep, ep ∈ l ↔ ep ∈ eps) : l = uniqueSortedEndpoints eps := by
  refine hl.eq_of_mem_iff (uniqueSortedEndpoints_pairwise eps) fun ep => ?_
  rw [hmem, mem_uniqueSortedEndpoints]

theorem uniqueSortedEndpoints_of_pairwise (h : eps.Pairwise (· < ·)) : uniqueSortedEndpoints eps = eps :=
  (eq_uniqueSortedEndpoints h fun _ => Iff.rfl).symm

variable {eps' : List DataEndpoint}

/-- Order and multiplicity of the input do not matter. -/
theorem uniqueSortedEndpoints_congr (h : ∀ ep, ep ∈ eps ↔ ep ∈ eps') :
    uniqueSortedEndpoints eps = uniqueSortedEndpoints eps' :=
  eq_uniqueSortedEndpoints (uniqueSortedEndpoints_pairwise eps) fun ep => by
    rw [mem_uniqueSortedEndpoints, h]

theorem uniqueSortedEndpoints_ne_nil (h : eps ≠ []) : uniqueSortedEndpoints eps ≠ [] := by
  obtain ⟨ep, hep⟩ := exists_mem_of_ne_nil eps h
  exact ne_nil_of_mem (mem_uniqueSortedEndpoints.mpr hep)

/-- `windows(2).all(|pair| pair[0] < pair[1])`. -/
def strictlyAscending : List DataEndpoint → Bool
  | a :: b :: l => decide (a < b) && strictlyAscending (b :: l)
  | _ => true

theorem strictlyAscending_iff (l : List DataEndpoint) : strictlyAscending l = true ↔ l.Pairwise (· < ·) := by
  rw [← isChain_iff_pairwise]
  induction l using strictlyAscending.induct with
  | case1 a b l ih =>
    rw [strictlyAscending, Bool.and_eq_true, decide_eq_true_eq, ih, isChain_cons_cons]
  | case2 l h =>
    match l, h with
    | [], _ => simp [strictlyAscending]
    | [a], _ => simp [strictlyAscending]
    | a :: b :: l, h => exact absurd rfl (h a b l)

/-! ### The bitmap form -/

def epBitmapBits : ℕ := 256

def epBitmapBytes : ℕ := 32

/-- Set the bit of one endpoint; ids past the bitmap are skipped. -/
def setEndpointBit (bm : Bytes) (ep : DataEndpoint) : Bytes :=
  if ep.toNat < epBitmapBits then
    bm.modify (ep.toNat / 8) (· ||| ((1 : UInt8) <<< UInt8.ofNat (ep.toNat % 8)))
  else bm

def buildEndpointBitmap (eps : List DataEndpoint) : Bytes :=
  eps.foldl setEndpointBit (List.replicate epBitmapBytes 0)

/-- Look up the endpoint of every set bit. -/
def resolveEndpoints (reg : Registry) : List ℕ → TelemetryResult (List DataEndpoint)
  | [] => .ok []
  | idx :: rest =>
    match reg.tryEndpoint (UInt32.ofNat idx) with
    | none => .error (.unpack "bad endpoint bit set")
    | some ep =>
      match resolveEndpoints reg rest with
      | .error e => .error e
      | .ok eps => .ok (ep :: eps)

def expandEndpointBitmap (reg : Registry) (bm : Bytes) : TelemetryResult (List DataEndpoint) :=
  if bm.length ≠ epBitmapBytes then .error (.unpack "bad endpoint bitmap size")
  else resolveEndpoints reg (expandWords 8 0 (bm.map UInt8.toNat))

/-- The endpoints whose bits are set in a bitmap. -/
def bitmapEndpoints (bm : Bytes) : List DataEndpoint :=
  (bitPositions (8 * bm.length) (ofLe bm)).map UInt32.ofNat

theorem expandWords_bitmap (bm : Bytes) :
    expandWords 8 0 (bm.map UInt8.toNat) = bitPositions (8 * bm.length) (ofLe bm) := by
  rw [expandWords_eq, joinWords_bytes]
  · simp
  · intro w hw
    obtain ⟨b, -, rfl⟩ := mem_map.mp hw
    exact b.toNat_lt

variable {reg : Registry}

theorem resolveEndpoints_ok {idxs : List ℕ} : resolveEndpoints reg idxs = .ok eps ↔
      eps = idxs.map UInt32.ofNat ∧ ∀ i ∈ idxs, reg.endpointExists (UInt32.ofNat i) = true := by
  induction idxs generalizing eps with
  | nil =>
    constructor
    · intro h
      cases h
      exact ⟨rfl, by simp⟩
    · rintro ⟨rfl, -⟩
      rfl
  | cons i rest ih =>
    rw [resolveEndpoints, Registry.tryEndpoint]
    by_cases he : reg.endpointExists (UInt32.ofNat i) = true
    · rw [if_pos he]
      cases hr : resolveEndpoints reg rest with
      | error e =>
        have hnot : ¬ ∀ j ∈ rest, reg.endpointExists (UInt32.ofNat j) = true := by
          intro hall
          rw [ih.mpr ⟨rfl, hall⟩] at hr
          cases hr
        simp [he, hnot]
      | ok tail =>
        obtain ⟨rfl, hall⟩ := ih.mp hr
        constructor
        · intro h
          cases h
          exact ⟨rfl, by simpa [he] using hall⟩
        · rintro ⟨rfl, -⟩
          rfl
    · simp [he]

variable {bm : Bytes}

theorem expandEndpointBitmap_ok : expandEndpointBitmap reg bm = .ok eps ↔
      bm.length = epBitmapBytes ∧ eps = bitmapEndpoints bm ∧ ∀ ep ∈ eps, reg.endpointExists ep = true := by
  unfold expandEndpointBitmap
  split
  · simp [*]
  rename_i hlen
  rw [expandWords_bitmap, resolveEndpoints_ok]
  constructor
  · rintro ⟨rfl, hall⟩
    exact ⟨by simpa using hlen, rfl, by simpa using hall⟩
  · rintro ⟨-, rfl, hall⟩
    exact ⟨rfl, by simpa [bitmapEndpoints] using hall⟩

variable {i : ℕ}

theorem toNat_ofNat_lt (h : i < 2 ^ 32) : (UInt32.ofNat i).toNat = i := by
  rw [UInt32.toNat_ofNat', Nat.mod_eq_of_lt h]

theorem bitmapEndpoints_pairwise (h : bm.length = epBitmapBytes) : (bitmapEndpoints bm).Pairwise (· < ·) := by
  rw [bitmapEndpoints, h, pairwise_map]
  refine (bitPositions_pairwise _ _).imp_of_mem ?_
  intro a b ha hb hab
  have ha' := (mem_bitPositions.mp ha).1
  have hb' := (mem_bitPositions.mp hb).1
  unfold epBitmapBytes at ha' hb'
  rw [UInt32.lt_iff_toNat_lt, toNat_ofNat_lt (by omega), toNat_ofNat_lt (by omega)]
  exact hab

theorem mem_bitmapEndpoints (h : bm.length = epBitmapBytes) :
    ep ∈ bitmapEndpoints bm ↔ ep.toNat < epBitmapBits ∧ (ofLe bm).testBit ep.toNat = true := by
  rw [bitmapEndpoints, h, mem_map]
  constructor
  · rintro ⟨i, hi, rfl⟩
    obtain ⟨hlt, hbit⟩ := mem_bitPositions.mp hi
    unfold epBitmapBytes at hlt
    rw [toNat_ofNat_lt (by omega)]
    exact ⟨by unfold epBitmapBits; omega, hbit⟩
  · rintro ⟨hlt, hbit⟩
    exact ⟨ep.toNat, mem_bitPositions.mpr ⟨by simpa [epBitmapBytes, epBitmapBits] using hlt, hbit⟩,
      UInt32.ofNat_toNat⟩

theorem length_setEndpointBit (bm : Bytes) (ep : DataEndpoint) : (setEndpointBit bm ep).length = bm.length := by
  unfold setEndpointBit
  split <;> simp

theorem toNat_one_shiftLeft : ∀ t < 8, ((1 : UInt8) <<< UInt8.ofNat t).toNat = 2 ^ t := by
  decide

theorem testBit_setEndpointBit (hlen : bm.length = epBitmapBytes) (ep : DataEndpoint) (hi : i < epBitmapBits) :
    (ofLe (setEndpointBit bm ep)).testBit i = ((ofLe bm).testBit i || decide (ep.toNat = i)) := by
  unfold setEndpointBit
  split
  · rename_i hep
    unfold epBitmapBits at hep hi
    unfold epBitmapBytes at hlen
    have hbyte : bm[i / 8]? = some (bm.getD (i / 8) 0) := by
      rw [List.getElem?_eq_getElem (by omega), getD_eq_getElem _ _ (by omega)]
    rw [testBit_ofLe, testBit_ofLe, getD_eq_getElem?_getD, List.getElem?_modify, hbyte]
    by_cases hj : ep.toNat / 8 = i / 8
    · simp only [hj, if_true, Option.map_eq_map, Option.map_some, Option.getD_some, UInt8.toNat_or,
        Nat.testBit_or, toNat_one_shiftLeft _ (Nat.mod_lt ep.toNat (by decide : 0 < 8)),
        Nat.testBit_two_pow]
      congr 1
      apply decide_eq_decide.mpr
      omega
    · have hne : ep.toNat ≠ i := fun h => hj (by rw [h])
      simp [hj, hne]
  · have hne : ep.toNat ≠ i := by
      omega
    simp [hne]

theorem buildEndpointBitmap_spec (eps : List DataEndpoint) : (buildEndpointBitmap eps).length = epBitmapBytes ∧
      ∀ i < epBitmapBits, ((ofLe (buildEndpointBitmap eps)).testBit i = true ↔ ∃ ep ∈ eps, ep.toNat = i) := by
  -- The fold from a bitmap that already holds some bits.
  have hfold : ∀ (l : List DataEndpoint) bm, bm.length = epBitmapBytes →
      (l.foldl setEndpointBit bm).length = epBitmapBytes ∧
        ∀ i < epBitmapBits, ((ofLe (l.foldl setEndpointBit bm)).testBit i = true ↔
          (ofLe bm).testBit i = true ∨ ∃ ep ∈ l, ep.toNat = i) := by
    intro l
    induction l with
    | nil => intro bm h; exact ⟨h, by simp⟩
    | cons ep l ih =>
      intro bm h
      obtain ⟨hlen, hbits⟩ := ih (setEndpointBit bm ep) (by rw [length_setEndpointBit, h])
      refine ⟨hlen, fun i hi => ?_⟩
      rw [foldl_cons, hbits i hi, testBit_setEndpointBit h ep hi]
      simp [or_assoc]
  obtain ⟨hlen, hbits⟩ := hfold eps (List.replicate epBitmapBytes 0) (by simp)
  refine ⟨hlen, fun i hi => (hbits i hi).trans ?_⟩
  have hzero : ofLe (List.replicate epBitmapBytes 0) = 0 := by decide
  simp [hzero]

/-- A bitmap of endpoints below 256 reads back as their sorted list. -/
theorem bitmapEndpoints_build (h : ∀ ep ∈ eps, ep.toNat < epBitmapBits) :
    bitmapEndpoints (buildEndpointBitmap eps) = uniqueSortedEndpoints eps := by
  obtain ⟨hlen, hbits⟩ := buildEndpointBitmap_spec eps
  refine eq_uniqueSortedEndpoints (bitmapEndpoints_pairwise hlen) fun ep => ?_
  rw [mem_bitmapEndpoints hlen]
  constructor
  · rintro ⟨hlt, hbit⟩
    obtain ⟨e, he, heq⟩ := (hbits _ hlt).mp hbit
    rwa [UInt32.toNat_inj.mp heq] at he
  · intro hep
    exact ⟨h ep hep, (hbits _ (h ep hep)).mpr ⟨ep, hep, rfl⟩⟩

/-! ### The list form -/

/-- The id list as `with_packet_frame_parts` writes it. -/
def writeEndpointList (eps : List DataEndpoint) : Bytes :=
  eps.flatMap fun ep => writeUleb128 ep.toUInt64

def endpointListSize (eps : List DataEndpoint) : ℕ :=
  ((uniqueSortedEndpoints eps).map fun ep => uleb128Size ep.toUInt64).sum

/-- Whether the list form is chosen over the bitmap. -/
def explicitEndpointList (eps : List DataEndpoint) : Bool :=
  eps.any (fun ep => epBitmapBits ≤ ep.toNat) || decide (endpointListSize eps < epBitmapBytes)

/-- The validating loop of `read_endpoint_list`, with `count` ids to go. -/
def readEndpointListLoop : (count : ℕ) → (previous : Option UInt32) → ByteReader Unit
  | 0, _ => pure ()
  | count + 1, previous => do
      let v ← readUleb128
      let id ← ofOption (tryU32 v) (.unpack "endpoint too large")
      failIf (previous.any (id ≤ ·) = true) (.unpack "endpoint list is not unique and sorted")
      readEndpointListLoop count (some id)

/-- Validate a list of `count` ids and return its bytes. -/
def readEndpointList (count : ℕ) : ByteReader Bytes := do
  let start ← position
  readEndpointListLoop count none
  since start

/-- The iterator over the bytes of a list, for at most `rounds` steps. -/
def endpointListIterLoop : (rounds : ℕ) → Cursor → List DataEndpoint
  | 0, _ => []
  | rounds + 1, c =>
    if c.remaining = 0 then []
    else
      match readUleb128 c with
      | .error _ => []
      | .ok (v, c') =>
        match tryU32 v with
        | none => []
        | some ep => ep :: endpointListIterLoop rounds c'

def endpointListIter (bytes : Bytes) : List DataEndpoint :=
  endpointListIterLoop bytes.length (Cursor.start bytes)

/-- `bytes` is a sequence of integers that decode to the ids `eps`, minimal or not. -/
inductive ListEncodes : Bytes → List DataEndpoint → Prop
  | nil : ListEncodes [] []
  | cons {b bs : Bytes} {v : UInt64} {ep : DataEndpoint} {eps : List DataEndpoint}
      (hread : Reads readUleb128 b v) (hpos : 1 ≤ b.length) (hep : tryU32 v = some ep)
      (htail : ListEncodes bs eps) : ListEncodes (b ++ bs) (ep :: eps)

theorem listEncodes_write (eps : List DataEndpoint) : ListEncodes (writeEndpointList eps) eps := by
  induction eps with
  | nil => exact .nil
  | cons ep eps ih =>
    have hpos : 1 ≤ (writeUleb128 ep.toUInt64).length := by
      rw [length_writeUleb128]
      exact (uleb128Size_bounds _).1
    exact .cons (reads_writeUleb128 _) hpos (tryU32_toUInt64 ep) ih

variable {bytes : Bytes}

theorem ListEncodes.iter (h : ListEncodes bytes eps) :
    ∀ rounds c, c.rest = bytes → bytes.length ≤ rounds → endpointListIterLoop rounds c = eps := by
  induction h with
  | nil =>
    intro rounds c hc _
    have hrem : c.remaining = 0 := Cursor.remaining_of_eq hc
    cases rounds with
    | zero => rfl
    | succ rounds => simp [endpointListIterLoop, hrem]
  | @cons b bs v ep eps hread hpos hep _ ih =>
    intro rounds c hc hlen
    rw [length_append] at hlen
    obtain ⟨rounds, rfl⟩ : ∃ k, rounds = k + 1 := ⟨rounds - 1, by omega⟩
    have hrem : c.remaining ≠ 0 := by
      rw [Cursor.remaining_of_eq hc, length_append]
      omega
    rw [endpointListIterLoop, if_neg hrem, hread c bs hc]
    simp only [hep]
    rw [ih rounds _ (Cursor.rest_advance_of_eq hc) (by omega)]

theorem ListEncodes.endpointListIter (h : ListEncodes bytes eps) : endpointListIter bytes = eps :=
  h.iter _ _ rfl (le_refl _)

theorem ListEncodes.reads (h : ListEncodes bytes eps) :
    ∀ {previous}, eps.Pairwise (· < ·) → (∀ ep ∈ eps, Above previous ep) →
      Reads (readEndpointListLoop eps.length previous) bytes () := by
  induction h with
  | nil => exact fun _ _ => Reads.pure ()
  | @cons b bs v ep eps hread _ hep _ ih =>
    intro previous hpair habove
    obtain ⟨hlt, hpair'⟩ := pairwise_cons.mp hpair
    have hfirst : Above previous ep := habove ep mem_cons_self
    have hrest := ih hpair' fun x hx => above_some.mpr (hlt x hx)
    refine hread.bind ?_
    exact (Reads.ofOption hep).bind ((Reads.failIf (not_any_le.mpr hfirst)).bind hrest)

theorem readEndpointListLoop_ok : ∀ {count : ℕ} {previous} {c c'}
    {u}, readEndpointListLoop count previous c = .ok (u, c') →
    ∃ bytes eps, c.rest = bytes ++ c'.rest ∧ c' = c.advance bytes.length ∧
      ListEncodes bytes eps ∧ eps.length = count ∧ eps.Pairwise (· < ·) ∧
      ∀ ep ∈ eps, Above previous ep
  | 0, previous, c, c', u, h => by
      obtain ⟨-, rfl⟩ := pure_ok_inv h
      exact ⟨[], [], rfl, rfl, .nil, rfl, List.Pairwise.nil, by simp⟩
  | count + 1, previous, c, c', u, h => by
      obtain ⟨v, c₁, hv, h⟩ := bind_ok h
      obtain ⟨id, hid, h⟩ := ofOption_bind_ok h
      obtain ⟨hprev, h⟩ := failIf_bind_ok h
      obtain ⟨b, hrest₁, rfl, hpos, -, hread⟩ := readUleb128_ok hv
      obtain ⟨bs, eps, hrest₂, rfl, henc, hcount, hpair, habove⟩ := readEndpointListLoop_ok h
      have hfirst : Above previous id := not_any_le.mp hprev
      refine ⟨b ++ bs, id :: eps, ?_, ?_, .cons hread hpos hid henc, by simp [hcount], ?_, ?_⟩
      · rw [append_assoc, ← hrest₂, ← hrest₁]
      · rw [Cursor.advance_advance, length_append]
      · exact pairwise_cons.mpr ⟨fun ep hep => above_some.mp (habove ep hep), hpair⟩
      · intro ep hep
        rcases mem_cons.mp hep with rfl | hep
        · exact hfirst
        · exact hfirst.trans (above_some.mp (habove ep hep))

variable {count : ℕ}

theorem reads_readEndpointList (h : Reads (readEndpointListLoop count none) bytes ()) :
    Reads (readEndpointList count) bytes bytes := by
  intro c tail hc
  unfold readEndpointList
  rw [position_bind, bind_of_ok (h c tail hc), since_ok]
  have hslice : (c.buf.drop c.off).take (c.off + bytes.length - c.off) = bytes := by
    have : c.buf.drop c.off = bytes ++ tail := hc
    rw [this, Nat.add_sub_cancel_left, take_left]
  rw [Cursor.advance_buf, Cursor.advance_off, hslice]

variable {c c' : Cursor}

/-- An accepted list is strictly ascending, has the announced length, and the iterator over its
bytes yields it. -/
theorem readEndpointList_ok (h : readEndpointList count c = .ok (bytes, c')) :
    c.rest = bytes ++ c'.rest ∧ c' = c.advance bytes.length ∧ Reads (readEndpointList count) bytes bytes ∧
      ∃ eps, endpointListIter bytes = eps ∧ eps.length = count ∧ eps.Pairwise (· < ·) := by
  unfold readEndpointList at h
  rw [position_bind] at h
  obtain ⟨u, c₁, hloop, h⟩ := bind_ok h
  obtain ⟨bs, eps, hrest, rfl, henc, hcount, hpair, habove⟩ := readEndpointListLoop_ok hloop
  have hreads := henc.reads hpair habove
  rw [hcount] at hreads
  have hrun := reads_readEndpointList hreads c _ hrest
  unfold readEndpointList at hrun
  rw [position_bind, bind_of_ok hloop, h] at hrun
  cases hrun
  exact ⟨hrest, rfl, reads_readEndpointList hreads, eps, henc.endpointListIter, hcount, hpair⟩

theorem readEndpointList_local (count : ℕ) : Local (readEndpointList count) := by
  intro c bytes c' h
  obtain ⟨hrest, hadv, hreads, -⟩ := readEndpointList_ok h
  exact ⟨bytes, hrest, hadv, hreads⟩

/-- Writing and reading back a strictly ascending list. -/
theorem reads_writeEndpointList (h : eps.Pairwise (· < ·)) :
    Reads (readEndpointList eps.length) (writeEndpointList eps) (writeEndpointList eps) ∧
      endpointListIter (writeEndpointList eps) = eps :=
  ⟨reads_readEndpointList ((listEncodes_write eps).reads h fun ep _ => above_none ep),
    (listEncodes_write eps).endpointListIter⟩

/-! ### The schema form, and the choice between the forms -/

/-- Collect an iterator that must yield exactly `count` endpoints. -/
def endpointArcFromIter (count : ℕ) (eps : List DataEndpoint) : TelemetryResult (List DataEndpoint) :=
  if eps.length ≠ count then .error (.unpack "endpoint count mismatch") else .ok eps

def endpointsMatchSchema (reg : Registry) (ty : DataType) (eps : List DataEndpoint) : Bool :=
  uniqueSortedEndpoints eps == uniqueSortedEndpoints (reg.messageMeta ty).endpoints

def schemaEndpointsFromType (reg : Registry) (ty : DataType) (nep : ℕ) :
    TelemetryResult (List DataEndpoint) :=
  let schema := (reg.messageMeta ty).endpoints
  if schema.length = nep ∧ strictlyAscending schema = true ∧
      schema.all (fun ep => (reg.tryEndpoint ep).isSome) = true then .ok schema
  else endpointArcFromIter nep (uniqueSortedEndpoints schema)

def endpointsFromWireOrSchema (reg : Registry) (bitmapPresent listPresent : Bool)
    (ty : Option DataType) (nep : ℕ) : ByteReader (List DataEndpoint) :=
  if listPresent then do
    failIf (bitmapPresent = true) (.unpack "ambiguous endpoint encoding")
    let bytes ← readEndpointList nep
    match ty.bind reg.tryGetMessageMeta with
    | some m =>
      if endpointListIter bytes = m.endpoints then return m.endpoints
      else ofResult (endpointArcFromIter nep (endpointListIter bytes))
    | none => ofResult (endpointArcFromIter nep (endpointListIter bytes))
  else if bitmapPresent then do
    let bm ← readBytes epBitmapBytes
    let endpoints ← ofResult (expandEndpointBitmap reg bm)
    failIf (endpoints.length ≠ nep) (.unpack "endpoint count mismatch")
    return endpoints
  else do
    let ty ← ofOption ty .invalidType
    ofResult (schemaEndpointsFromType reg ty nep)

theorem endpointArcFromIter_ok : endpointArcFromIter count eps = .ok eps' ↔ eps' = eps ∧ eps.length = count := by
  unfold endpointArcFromIter
  split
  · simp [*]
  · rename_i h
    simp only [ne_eq, not_not] at h
    simp only [Except.ok.injEq, h, and_true]
    exact eq_comm

variable {nep : ℕ}

theorem schemaEndpointsFromType_ok {ty : DataType} : schemaEndpointsFromType reg ty nep = .ok eps ↔
      eps = uniqueSortedEndpoints (reg.messageMeta ty).endpoints ∧ eps.length = nep := by
  have harc : endpointArcFromIter nep (uniqueSortedEndpoints (reg.messageMeta ty).endpoints) = .ok eps ↔
      eps = uniqueSortedEndpoints (reg.messageMeta ty).endpoints ∧ eps.length = nep :=
    endpointArcFromIter_ok.trans (and_congr_right fun h => by rw [h])
  rw [← harc, schemaEndpointsFromType]
  split
  · rename_i h
    obtain ⟨hlen, hasc, -⟩ := h
    rw [strictlyAscending_iff] at hasc
    rw [uniqueSortedEndpoints_of_pairwise hasc, endpointArcFromIter, if_neg (not_not.mpr hlen)]
  · rfl

/-- How the endpoints `eps` of a frame were found: as a list, in a bitmap, or in the schema. -/
inductive EndpointField (reg : Registry) (ty : Option DataType) (nep : ℕ)
    (eps : List DataEndpoint) (c c' : Cursor) : (bitmapPresent listPresent : Bool) → Prop
  | list (bytes : Bytes) (hread : readEndpointList nep c = .ok (bytes, c'))
      (hiter : endpointListIter bytes = eps) : EndpointField reg ty nep eps c c' false true
  | bitmap (bm : Bytes) (hread : readBytes epBitmapBytes c = .ok (bm, c'))
      (hbits : bitmapEndpoints bm = eps) (hreg : ∀ ep ∈ eps, reg.endpointExists ep = true) :
      EndpointField reg ty nep eps c c' true false
  | schema (t : DataType) (hty : ty = some t) (hpos : c' = c)
      (heps : uniqueSortedEndpoints (reg.messageMeta t).endpoints = eps) :
      EndpointField reg ty nep eps c c' false false

variable {ty : Option DataType} {bitmapPresent : Bool}

theorem endpointsFromWireOrSchema_list (h : endpointsFromWireOrSchema reg bitmapPresent true ty nep c = .ok (eps, c')) :
    bitmapPresent = false ∧ ∃ bytes, readEndpointList nep c = .ok (bytes, c') ∧ endpointListIter bytes = eps := by
  obtain ⟨hbm, h⟩ := failIf_bind_ok h
  obtain ⟨bytes, c₁, hread, h⟩ := bind_ok h
  refine ⟨by simpa using hbm, bytes, ?_⟩
  have harc : ofResult (endpointArcFromIter nep (endpointListIter bytes)) c₁ = .ok (eps, c') →
      c' = c₁ ∧ endpointListIter bytes = eps := by
    intro h
    obtain ⟨hx, rfl⟩ := ofResult_ok h
    exact ⟨rfl, (endpointArcFromIter_ok.mp hx).1.symm⟩
  have hres : c' = c₁ ∧ endpointListIter bytes = eps := by
    cases hm : ty.bind reg.tryGetMessageMeta with
    | none =>
      simp only [hm] at h
      exact harc h
    | some m =>
      simp only [hm] at h
      split_ifs at h with heq
      · obtain ⟨rfl, rfl⟩ := pure_ok_inv h
        exact ⟨rfl, heq⟩
      · exact harc h
  obtain ⟨rfl, rfl⟩ := hres
  exact ⟨hread, rfl⟩

variable {listPresent : Bool}

/-- Everything a successful endpoint parser may have done. -/
theorem endpointsFromWireOrSchema_ok
    (h : endpointsFromWireOrSchema reg bitmapPresent listPresent ty nep c = .ok (eps, c')) :
    eps.Pairwise (· < ·) ∧ eps.length = nep ∧ EndpointField reg ty nep eps c c' bitmapPresent listPresent := by
  cases listPresent with
  | true =>
    obtain ⟨rfl, bytes, hread, hiter⟩ := endpointsFromWireOrSchema_list h
    obtain ⟨-, -, -, eps', hiter', hlen, hpair⟩ := readEndpointList_ok hread
    rw [hiter] at hiter'
    subst hiter'
    exact ⟨hpair, hlen, .list bytes hread hiter⟩
  | false =>
    cases bitmapPresent with
    | true =>
      obtain ⟨bm, c₁, hread, h⟩ := bind_ok h
      obtain ⟨eps', hexpand, h⟩ := ofResult_bind_ok h
      obtain ⟨hcount, h⟩ := failIf_bind_ok h
      obtain ⟨rfl, rfl⟩ := pure_ok_inv h
      obtain ⟨hlen, rfl, hreg⟩ := expandEndpointBitmap_ok.mp hexpand
      exact ⟨bitmapEndpoints_pairwise hlen, not_not.mp hcount, .bitmap bm hread rfl hreg⟩
    | false =>
      obtain ⟨t, hty, h⟩ := ofOption_bind_ok h
      obtain ⟨hx, rfl⟩ := ofResult_ok h
      obtain ⟨rfl, hlen⟩ := schemaEndpointsFromType_ok.mp hx
      exact ⟨uniqueSortedEndpoints_pairwise _, hlen, .schema t hty rfl rfl⟩

theorem EndpointField.buf_eq (h : EndpointField reg ty nep eps c c' bitmapPresent listPresent) : c'.buf = c.buf := by
  cases h with
  | list bytes hread hiter => exact (readEndpointList_local nep).buf_eq hread
  | bitmap bm hread hbits hreg => exact (readBytes_local _).buf_eq hread
  | schema t hty hpos heps => rw [hpos]

/-- The list parser on a written list, whatever the schema lists for the type. -/
theorem reads_endpointsList (h : eps.Pairwise (· < ·)) :
    Reads (endpointsFromWireOrSchema reg false true ty eps.length) (writeEndpointList eps) eps := by
  obtain ⟨hread, hiter⟩ := reads_writeEndpointList h
  have harc : Reads (ofResult (ε := TelemetryError)
      (endpointArcFromIter eps.length (endpointListIter (writeEndpointList eps)))) [] eps := by
    rw [hiter]
    exact Reads.ofResult (endpointArcFromIter_ok.mpr ⟨rfl, rfl⟩)
  refine (Reads.failIf (by simp)).bind (hread.bind_nil ?_)
  split
  · split
    · rename_i heq
      rw [hiter] at heq
      rw [← heq]
      exact Reads.pure eps
    · exact harc
  · exact harc

/-- The bitmap parser on a built bitmap of registered endpoints. -/
theorem reads_endpointsBitmap
    (hlt : ∀ ep ∈ eps, ep.toNat < epBitmapBits) (hreg : ∀ ep ∈ eps, reg.endpointExists ep = true) :
    Reads (endpointsFromWireOrSchema reg true false ty (uniqueSortedEndpoints eps).length)
      (buildEndpointBitmap eps) (uniqueSortedEndpoints eps) := by
  have hlen := (buildEndpointBitmap_spec eps).1
  have hexpand : expandEndpointBitmap reg (buildEndpointBitmap eps) =
      .ok (uniqueSortedEndpoints eps) := by
    refine expandEndpointBitmap_ok.mpr ⟨hlen, (bitmapEndpoints_build hlt).symm, fun ep hep => ?_⟩
    exact hreg ep (mem_uniqueSortedEndpoints.mp hep)
  refine (reads_readBytes hlen).bind_nil ((Reads.ofResult hexpand).bind_nil ?_)
  exact (Reads.failIf (by simp)).bind_nil (Reads.pure _)

/-- The schema form consumes nothing. -/
theorem reads_endpointsSchema {ty : DataType} (h : endpointsMatchSchema reg ty eps = true) :
    Reads (endpointsFromWireOrSchema reg false false (some ty) (uniqueSortedEndpoints eps).length)
      [] (uniqueSortedEndpoints eps) := by
  rw [endpointsMatchSchema, beq_iff_eq] at h
  exact (Reads.ofOption rfl).bind_nil
    (Reads.ofResult (schemaEndpointsFromType_ok.mpr ⟨h, rfl⟩))

end SedsNet
