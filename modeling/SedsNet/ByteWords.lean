import Mathlib

/-! # Words of bytes and bits

Little-endian words of bytes, and the positions of the set bits of a word.

* `leBytes w n` and `ofLe` convert between a natural number and its `w` little-endian bytes
  (`ofLe_leBytes`, `leBytes_ofLe`);
* `bitPositions w n` lists the set bits of `n` below `w` in ascending order.  A machine loop
  that takes the lowest set bit and clears it with `n &&& (n - 1)` visits exactly these
  positions (`drainBits_eq`);
* `expandWords k` applies that loop word by word.  Whatever the word size, the result is the
  bit positions of the whole number (`expandWords_eq`), so a bitmap may be scanned byte by
  byte or word by word (`expandWords_chunks`). -/

namespace ByteWords

open List

/-! ### Little-endian bytes -/

/-- The `w` little-endian bytes of `n`; higher bits are dropped. -/
def leBytes : ℕ → ℕ → List UInt8
  | 0, _ => []
  | w + 1, n => UInt8.ofNat n :: leBytes w (n / 256)

/-- The number with the given little-endian bytes. -/
def ofLe : List UInt8 → ℕ
  | [] => 0
  | b :: bs => b.toNat + 256 * ofLe bs

@[simp] theorem length_leBytes (w n : ℕ) : (leBytes w n).length = w := by
  induction w generalizing n with
  | zero => rfl
  | succ w ih => simp [leBytes, ih]

theorem ofLe_leBytes (w n : ℕ) : ofLe (leBytes w n) = n % 256 ^ w := by
  induction w generalizing n with
  | zero => simp [leBytes, ofLe, Nat.mod_one]
  | succ w ih =>
    rw [pow_succ' 256 w, Nat.mod_mul, leBytes, ofLe, ih, UInt8.toNat_ofNat']

variable {w n : ℕ}

theorem ofLe_leBytes_of_lt (h : n < 256 ^ w) : ofLe (leBytes w n) = n := by
  rw [ofLe_leBytes, Nat.mod_eq_of_lt h]

theorem leBytes_eq_iff {m : ℕ} : leBytes w n = leBytes w m ↔ n % 256 ^ w = m % 256 ^ w := by
  constructor
  · intro h
    rw [← ofLe_leBytes, h, ofLe_leBytes]
  · intro h
    induction w generalizing n m with
    | zero => rfl
    | succ w ih =>
      rw [pow_succ', Nat.mod_mul, Nat.mod_mul] at h
      have hlow : n % 256 = m % 256 := by omega
      have hhigh : n / 256 % 256 ^ w = m / 256 % 256 ^ w := by omega
      have hbyte : UInt8.ofNat n = UInt8.ofNat m := by
        apply UInt8.toNat_inj.mp
        exact hlow
      rw [leBytes, leBytes, ih hhigh, hbyte]

theorem ofLe_lt (bs : List UInt8) : ofLe bs < 256 ^ bs.length := by
  induction bs with
  | nil => simp [ofLe]
  | cons b bs ih =>
    have hb : b.toNat < 256 := b.toNat_lt
    rw [ofLe, length_cons]
    omega

theorem leBytes_ofLe (bs : List UInt8) : leBytes bs.length (ofLe bs) = bs := by
  induction bs with
  | nil => rfl
  | cons b bs ih =>
    have hb : b.toNat < 256 := b.toNat_lt
    have hdiv : (b.toNat + 256 * ofLe bs) / 256 = ofLe bs := by omega
    have hmod : UInt8.ofNat (b.toNat + 256 * ofLe bs) = b := by
      apply UInt8.toNat_inj.mp
      rw [UInt8.toNat_ofNat']
      omega
    rw [length_cons, ofLe, leBytes, hdiv, ih, hmod]

theorem ofLe_append (xs ys : List UInt8) : ofLe (xs ++ ys) = ofLe xs + 256 ^ xs.length * ofLe ys := by
  induction xs with
  | nil => simp [ofLe]
  | cons x xs ih =>
    rw [cons_append, ofLe, ih, ofLe, length_cons]
    ring

theorem testBit_ofLe (bs : List UInt8) (i : ℕ) : (ofLe bs).testBit i = (bs.getD (i / 8) 0).toNat.testBit (i % 8) := by
  induction bs generalizing i with
  | nil => simp [ofLe]
  | cons b bs ih =>
    have hb : b.toNat < 2 ^ 8 := b.toNat_lt
    rw [ofLe, Nat.add_comm, Nat.testBit_two_pow_mul_add _ hb]
    split
    · rw [Nat.div_eq_of_lt (by omega), Nat.mod_eq_of_lt (by omega)]
      rfl
    · obtain ⟨j, rfl⟩ : ∃ j, i = j + 8 := ⟨i - 8, by omega⟩
      rw [ih, Nat.add_div_right _ (by decide), Nat.add_mod_right]
      rfl

/-! ### Positions of set bits -/

/-- The set bits of `n` below `w`, in ascending order. -/
def bitPositions (w n : ℕ) : List ℕ := (List.range w).filter n.testBit

/-- Index of the lowest set bit of a `w`-bit word, and `w` for the word `0`. -/
def trailingZeros (w n : ℕ) : ℕ := ((List.range w).find? n.testBit).getD w

/-- The loop that takes the lowest set bit and clears it, for at most `fuel` rounds. -/
def drainBits (w : ℕ) : (fuel : ℕ) → ℕ → List ℕ
  | 0, _ => []
  | fuel + 1, n => if n = 0 then [] else trailingZeros w n :: drainBits w fuel (n &&& (n - 1))

theorem mem_bitPositions {i : ℕ} : i ∈ bitPositions w n ↔ i < w ∧ n.testBit i = true := by
  simp [bitPositions]

theorem bitPositions_pairwise (w n : ℕ) : (bitPositions w n).Pairwise (· < ·) :=
  List.Pairwise.filter _ pairwise_lt_range

theorem length_bitPositions_le (w n : ℕ) : (bitPositions w n).length ≤ w := by
  simpa [bitPositions] using length_filter_le n.testBit (List.range w)

@[simp] theorem bitPositions_zero (w : ℕ) : bitPositions w 0 = [] := by
  simp [bitPositions]

variable {k : ℕ}

/-- Clearing the lowest set bit `k` leaves every other bit alone. -/
theorem testBit_and_pred (hk : n.testBit k = true) (hlow : ∀ j < k, n.testBit j = false)
    (i : ℕ) : (n &&& (n - 1)).testBit i = (n.testBit i && decide (i ≠ k)) := by
  have hmod : n % 2 ^ k = 0 := by
    apply Nat.eq_of_testBit_eq
    intro j
    by_cases hj : j < k
    · simp [hlow j hj]
    · simp [hj]
  have hodd : n / 2 ^ k % 2 = 1 := by
    simpa [Nat.testBit, Nat.shiftRight_eq_div_pow, Nat.and_comm, Nat.and_one_is_mod] using hk
  -- `n = 2 ^ (k + 1) * m + 2 ^ k`, so that only the bits up to `k` change in `n - 1`.
  set m := n / 2 ^ (k + 1) with hm
  have hn : n = 2 ^ (k + 1) * m + 2 ^ k := by
    have h1 := Nat.div_add_mod n (2 ^ k)
    have h2 := Nat.div_add_mod (n / 2 ^ k) 2
    rw [Nat.div_div_eq_div_mul, ← pow_succ] at h2
    rw [pow_succ]
    nlinarith
  have hpred : n - 1 = 2 ^ (k + 1) * m + (2 ^ k - 1) := by
    omega
  have hlt : 2 ^ k < 2 ^ (k + 1) := Nat.pow_lt_pow_right (by decide) (by omega)
  rw [Nat.testBit_and, hpred, Nat.testBit_two_pow_mul_add _ (by omega), hn,
    Nat.testBit_two_pow_mul_add _ hlt]
  split
  · by_cases hik : k = i <;> simp [hik]
  · have : i ≠ k := by omega
    simp [this]

theorem bitPositions_eq_cons (hn : n ≠ 0) (hw : n < 2 ^ w) :
    bitPositions w n = trailingZeros w n :: bitPositions w (n &&& (n - 1)) := by
  obtain ⟨b, hb⟩ := Nat.exists_testBit_of_ne_zero hn
  have hbw : b < w := by
    by_contra hge
    rw [Nat.testBit_lt_two_pow (hw.trans_le (Nat.pow_le_pow_right (by decide) (by omega)))] at hb
    cases hb
  obtain ⟨k, hk⟩ : ∃ k, (List.range w).find? n.testBit = some k := by
    rw [← Option.isSome_iff_exists, List.find?_isSome]
    exact ⟨b, mem_range.mpr hbw, hb⟩
  have hkw : k < w := mem_range.mp (mem_of_find?_eq_some hk)
  have hset : n.testBit k = true := List.find?_some hk
  have hlow : ∀ j < k, n.testBit j = false := by
    rw [List.find?_range_eq_some] at hk
    intro j hj
    simpa using hk.2.2 j hj
  have htz : trailingZeros w n = k := by simp [trailingZeros, hk]
  rw [htz]
  refine List.Pairwise.eq_of_mem_iff (r := (· < ·)) (bitPositions_pairwise _ _) ?_ ?_
  · refine pairwise_cons.mpr ⟨?_, bitPositions_pairwise _ _⟩
    intro j hj
    rw [mem_bitPositions, testBit_and_pred hset hlow] at hj
    simp only [Bool.and_eq_true, decide_eq_true_eq] at hj
    by_contra hle
    have : n.testBit j = false := hlow j (by omega)
    simp [this] at hj
  · intro j
    rw [mem_cons, mem_bitPositions, mem_bitPositions, testBit_and_pred hset hlow]
    by_cases hjk : j = k
    · simp [hjk, hkw, hset]
    · simp [hjk]

/-- The clearing loop visits the set bits in ascending order. -/
theorem drainBits_eq : ∀ (fuel : ℕ) {n : ℕ}, n < 2 ^ w → (bitPositions w n).length ≤ fuel →
    drainBits w fuel n = bitPositions w n
  | 0, n, _, hf => by
      rw [length_eq_zero_iff.mp (Nat.le_zero.mp hf)]
      rfl
  | fuel + 1, n, hn, hf => by
      by_cases h0 : n = 0
      · simp [drainBits, h0]
      · have hcons := bitPositions_eq_cons h0 hn
        rw [hcons, length_cons] at hf
        have hle : n &&& (n - 1) < 2 ^ w := lt_of_le_of_lt Nat.and_le_left hn
        rw [hcons, drainBits, if_neg h0, drainBits_eq fuel hle (by omega)]

/-! ### Scanning a bitmap word by word -/

/-- The number whose `k`-bit words, least significant first, are `ws`. -/
def joinWords (k : ℕ) : List ℕ → ℕ
  | [] => 0
  | w :: ws => w + 2 ^ k * joinWords k ws

/-- Scan the `k`-bit words one after another, the first one at bit `base`. -/
def expandWords (k : ℕ) : (base : ℕ) → List ℕ → List ℕ
  | _, [] => []
  | base, w :: ws => (drainBits k k w).map (base + ·) ++ expandWords k (base + k) ws

theorem bitPositions_add {l lo hi : ℕ} (hlo : lo < 2 ^ k) : bitPositions (k + l) (lo + 2 ^ k * hi) =
      bitPositions k lo ++ (bitPositions l hi).map (k + ·) := by
  have hbit : ∀ i, (lo + 2 ^ k * hi).testBit i =
      if i < k then lo.testBit i else hi.testBit (i - k) := by
    intro i
    rw [Nat.add_comm, Nat.testBit_two_pow_mul_add _ hlo]
  unfold bitPositions
  rw [range_add, filter_append, filter_map]
  congr 1
  · apply filter_congr
    intro i hi'
    rw [hbit, if_pos (mem_range.mp hi')]
  · congr 1
    apply filter_congr
    simp [hbit]

theorem expandWords_eq (ws : List ℕ) (hws : ∀ w ∈ ws, w < 2 ^ k) (base : ℕ) :
    expandWords k base ws = (bitPositions (k * ws.length) (joinWords k ws)).map (base + ·) := by
  induction ws generalizing base with
  | nil => simp [expandWords, bitPositions]
  | cons w ws ih =>
    have hw : w < 2 ^ k := hws w mem_cons_self
    have hlen : k * (w :: ws).length = k + k * ws.length := by
      rw [length_cons]
      ring
    rw [expandWords, drainBits_eq k hw (length_bitPositions_le _ _),
      ih (fun v hv => hws v (mem_cons_of_mem _ hv)), joinWords, hlen, bitPositions_add hw,
      map_append, map_map]
    congr 2
    simp [Nat.add_assoc]

theorem length_expandWords (ws : List ℕ) (hws : ∀ w ∈ ws, w < 2 ^ k) (base : ℕ) :
    (expandWords k base ws).length = (ws.map fun w => (bitPositions k w).length).sum := by
  induction ws generalizing base with
  | nil => rfl
  | cons w ws ih =>
    rw [expandWords, drainBits_eq k (hws w mem_cons_self) (length_bitPositions_le _ _),
      length_append, length_map, ih fun v hv => hws v (mem_cons_of_mem _ hv),
      map_cons, sum_cons]

theorem joinWords_bytes (bs : List UInt8) : joinWords 8 (bs.map UInt8.toNat) = ofLe bs := by
  induction bs with
  | nil => rfl
  | cons b bs ih => simp [joinWords, ofLe, ih]

/-- Cut a byte string into `n` pieces of `w` bytes. -/
def chunks (w : ℕ) : ℕ → List UInt8 → List (List UInt8)
  | 0, _ => []
  | n + 1, bs => bs.take w :: chunks w n (bs.drop w)

theorem mem_chunks_length : ∀ {n : ℕ} {bs : List UInt8}, bs.length = w * n →
    ∀ x ∈ chunks w n bs, x.length = w
  | 0, _, _, x, hx => by simp [chunks] at hx
  | n + 1, bs, h, x, hx => by
      rw [Nat.mul_succ] at h
      rcases mem_cons.mp hx with rfl | hx
      · simp [h]
      · exact mem_chunks_length (by simp [h]) x hx

theorem joinWords_chunks : ∀ {n : ℕ} {bs : List UInt8}, bs.length = w * n →
    joinWords (8 * w) ((chunks w n bs).map ofLe) = ofLe bs
  | 0, bs, h => by
      have : bs = [] := length_eq_zero_iff.mp (by simpa using h)
      simp [chunks, joinWords, this, ofLe]
  | n + 1, bs, h => by
      rw [Nat.mul_succ] at h
      have htake : (bs.take w).length = w := by simp [h]
      have hsplit := ofLe_append (bs.take w) (bs.drop w)
      rw [take_append_drop, htake] at hsplit
      rw [chunks, map_cons, joinWords, joinWords_chunks (by simp [h]), hsplit, pow_mul]
      norm_num

variable {bs : List UInt8}

theorem lt_of_mem_chunks (h : bs.length = w * n) : ∀ v ∈ (chunks w n bs).map ofLe, v < 2 ^ (8 * w) := by
  intro v hv
  obtain ⟨x, hx, rfl⟩ := mem_map.mp hv
  have := ofLe_lt x
  rwa [mem_chunks_length h x hx, show 256 = 2 ^ 8 by rfl, ← pow_mul] at this

/-- Scanning `w`-byte words visits the same bits as scanning the bytes. -/
theorem expandWords_chunks (h : bs.length = w * n) :
    expandWords (8 * w) 0 ((chunks w n bs).map ofLe) = expandWords 8 0 (bs.map UInt8.toNat) := by
  have hlen : (chunks w n bs).length = n := by
    clear h
    induction n generalizing bs with
    | zero => rfl
    | succ n ih => simp [chunks, ih]
  rw [expandWords_eq _ (lt_of_mem_chunks h), expandWords_eq _ ?_, joinWords_chunks h,
    joinWords_bytes]
  · simp [hlen, h, Nat.mul_assoc]
  · intro v hv
    obtain ⟨b, -, rfl⟩ := mem_map.mp hv
    exact b.toNat_lt

end ByteWords
