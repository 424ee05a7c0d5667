import Mathlib

/-! # Mixing words

Facts about the rounds of multiplicative hashes on `w`-bit words: a byte is xored in, the word is
multiplied by an odd constant, and its high bits are folded onto the low ones
(`round m s h b = xorShift s ((h ^^^ b) * m)`).

* A round with a fixed input is injective in the word (`round_injective`), so what follows a
  difference never hides it.
* Two rounds separate their two inputs completely (`round_round_inj`), provided the multiplier is
  neither too small nor too large for the input width: the first round drives two different words
  further apart than any second input can bring them back together. -/

namespace WordMix

variable {w : ℕ}

/-! ### Folding high bits onto low ones -/

/-- `x ^= x >> s`. -/
def xorShift (s : ℕ) (x : BitVec w) : BitVec w := x ^^^ (x >>> s)

theorem xorShift_xor (s : ℕ) (x y : BitVec w) : xorShift s x ^^^ xorShift s y = xorShift s (x ^^^ y) := by
  unfold xorShift
  rw [BitVec.ushiftRight_xor_distrib]
  ac_rfl

theorem xorShiftLeft_xor (s : ℕ) (x y : BitVec w) :
    (x ^^^ x <<< s) ^^^ (y ^^^ y <<< s) = (x ^^^ y) ^^^ (x ^^^ y) <<< s := by
  rw [BitVec.shiftLeft_xor_distrib]
  ac_rfl

/-- A number whose bits repeat with period `s` from `k` on has no bits from `k` on. -/
theorem lt_of_periodic {x s k : ℕ} (hs : 0 < s) (hbits : ∀ i, k ≤ i → x.testBit i = x.testBit (i + s)) : x < 2 ^ k := by
  have hsteps : ∀ n i, k ≤ i → x.testBit i = x.testBit (i + n * s) := by
    intro n
    induction n with
    | zero => simp
    | succ n ih =>
      intro i hi
      rw [ih i hi, hbits (i + n * s) (by omega), Nat.add_assoc, Nat.succ_mul]
  apply Nat.lt_pow_two_of_testBit
  intro i hi
  have hfar : x < 2 ^ (i + x * s) :=
    Nat.lt_two_pow_self.trans_le
      (Nat.pow_le_pow_right (by decide) ((Nat.le_mul_of_pos_right x hs).trans (Nat.le_add_left _ i)))
  rw [hsteps x i hi]
  exact Nat.testBit_lt_two_pow hfar

theorem toNat_lt_of_xorShift {s k : ℕ} {x : BitVec w} (hs : 0 < s)
    (h : (xorShift s x).toNat < 2 ^ k) : x.toNat < 2 ^ k := by
  refine lt_of_periodic hs fun i hi => ?_
  have hbit : (xorShift s x).toNat.testBit i = false :=
    Nat.testBit_lt_two_pow (h.trans_le (Nat.pow_le_pow_right (by decide) hi))
  rw [xorShift, BitVec.toNat_xor, BitVec.toNat_ushiftRight, Nat.testBit_xor,
    Nat.testBit_shiftRight, Nat.add_comm s i] at hbit
  simpa using hbit

theorem xorShift_injective {s : ℕ} (hs : 0 < s) : Function.Injective (xorShift s : BitVec w → BitVec w) := by
  intro x y h
  have hzero : (xorShift s (x ^^^ y)).toNat < 2 ^ 0 := by
    rw [← xorShift_xor, h, BitVec.xor_self]
    exact Nat.one_pos
  have hxor : (x ^^^ y).toNat = 0 := Nat.lt_one_iff.mp (toNat_lt_of_xorShift hs hzero)
  exact BitVec.xor_eq_zero_iff.mp (BitVec.eq_of_toNat_eq hxor)

/-! ### Odd multipliers -/

theorem mul_odd_injective {m : BitVec w} (hm : m.toNat % 2 = 1) : Function.Injective (fun x : BitVec w => x * m) := by
  intro x y h
  have hmod : x.toNat * m.toNat ≡ y.toNat * m.toNat [MOD 2 ^ w] := by
    have := congrArg BitVec.toNat h
    rwa [BitVec.toNat_mul] at this
  have hcoprime : Nat.gcd (2 ^ w) m.toNat = 1 :=
    Nat.Coprime.pow_left w (Nat.coprime_two_left.mpr (Nat.odd_iff.mpr hm))
  have hxy := Nat.ModEq.cancel_right_of_coprime hcoprime hmod
  apply BitVec.eq_of_toNat_eq
  rwa [Nat.ModEq, Nat.mod_eq_of_lt x.isLt, Nat.mod_eq_of_lt y.isLt] at hxy

/-- Words that differ in their low bits only share a block. -/
theorem block_eq_of_xor_lt {k : ℕ} {x y : BitVec w} (h : (x ^^^ y).toNat < 2 ^ k) :
    x.toNat / 2 ^ k = y.toNat / 2 ^ k := by
  have hzero : (x.toNat ^^^ y.toNat) / 2 ^ k = 0 := by
    exact Nat.div_eq_of_lt h
  rw [← Nat.shiftRight_eq_div_pow, Nat.shiftRight_xor_distrib, Nat.xor_eq_zero_iff] at hzero
  rwa [← Nat.shiftRight_eq_div_pow, ← Nat.shiftRight_eq_div_pow]

/-- Multiplication moves two different words of a block into different blocks. -/
theorem block_ne_of_mul {M K m x y : ℕ} (hlt : x < y) (hnear : y < x + K) (hm : K ≤ m)
    (hfit : K * m ≤ M) : x * m % M / K ≠ y * m % M / K := by
  obtain ⟨d, rfl⟩ := Nat.exists_eq_add_of_lt hlt
  -- The distance of the products is at least a block and at most the modulus without a block.
  have hlow : K ≤ (d + 1) * m := hm.trans (Nat.le_mul_of_pos_left m (by omega))
  have hhigh : (d + 1) * m + K ≤ M := by
    have : (d + 1) * m + m ≤ K * m := by
      rw [← Nat.succ_mul]
      exact Nat.mul_le_mul_right m (by omega)
    omega
  have hsum : (x + d + 1) * m = x * m + (d + 1) * m := by ring
  rw [hsum, ← Nat.mod_add_mod]
  generalize (d + 1) * m = e at hlow hhigh
  have hK : 0 < K := by omega
  have hu : x * m % M < M := Nat.mod_lt _ (by omega)
  generalize x * m % M = u at hu
  by_cases hwrap : u + e < M
  · rw [Nat.mod_eq_of_lt hwrap]
    have : (u + K) / K ≤ (u + e) / K := Nat.div_le_div_right (by omega)
    rw [Nat.add_div_right u hK] at this
    omega
  · have hback : (u + e) % M = u + e - M := by
      rw [Nat.mod_eq_sub_mod (by omega), Nat.mod_eq_of_lt (by omega)]
    rw [hback]
    have : (u + e - M + K) / K ≤ u / K := Nat.div_le_div_right (by omega)
    rw [Nat.add_div_right _ hK] at this
    omega

/-! ### Rounds -/

theorem xor_xor_cancel (h a b : BitVec w) : (h ^^^ a) ^^^ (h ^^^ b) = a ^^^ b := by
  rw [BitVec.xor_comm h a, BitVec.xor_assoc, ← BitVec.xor_assoc h, BitVec.xor_self,
    BitVec.zero_xor]

theorem xor_eq_xor_of_eq {x y a b : BitVec w} (h : x ^^^ a = y ^^^ b) : x ^^^ y = a ^^^ b := by
  calc x ^^^ y = (x ^^^ a) ^^^ a ^^^ y := by rw [BitVec.xor_assoc x, BitVec.xor_self, BitVec.xor_zero]
    _ = (y ^^^ b) ^^^ (y ^^^ a) := by rw [h, BitVec.xor_assoc, BitVec.xor_comm a]
    _ = a ^^^ b := by rw [xor_xor_cancel, BitVec.xor_comm]

/-- One round of the hash. -/
def round (m : BitVec w) (s : ℕ) (h b : BitVec w) : BitVec w := xorShift s ((h ^^^ b) * m)

variable {m : BitVec w} {s : ℕ}

theorem round_eq_iff (hm : m.toNat % 2 = 1) (hs : 0 < s) {h h' b b' : BitVec w} :
    round m s h b = round m s h' b' ↔ h ^^^ b = h' ^^^ b' :=
  (xorShift_injective hs).eq_iff.trans (mul_odd_injective hm).eq_iff

theorem round_injective (hm : m.toNat % 2 = 1) (hs : 0 < s) (b : BitVec w) :
    Function.Injective fun h => round m s h b := by
  intro h h' heq
  exact (BitVec.xor_left_inj b).mp ((round_eq_iff hm hs).mp heq)

/-- Two rounds separate two narrow inputs. -/
theorem round_round_inj {k : ℕ} (hm : m.toNat % 2 = 1) (hs : 0 < s) (hlow : 2 ^ k ≤ m.toNat)
    (hhigh : 2 ^ k * m.toNat ≤ 2 ^ w) {h a a' b b' : BitVec w} (ha : (a ^^^ a').toNat < 2 ^ k)
    (hb : (b ^^^ b').toNat < 2 ^ k)
    (heq : round m s (round m s h a) b = round m s (round m s h a') b') : a = a' ∧ b = b' := by
  have houter := (round_eq_iff hm hs).mp heq
  -- The words after the first round differ as the second inputs do.
  have hdiff := xor_eq_xor_of_eq houter
  have hprod : ((h ^^^ a) * m ^^^ (h ^^^ a') * m).toNat < 2 ^ k := by
    apply toNat_lt_of_xorShift hs
    rw [← xorShift_xor]
    exact hdiff ▸ hb
  have hwords : ((h ^^^ a) ^^^ (h ^^^ a')).toNat < 2 ^ k := by
    rwa [xor_xor_cancel]
  have hblock := block_eq_of_xor_lt hwords
  have hprodBlock := block_eq_of_xor_lt hprod
  have hnear : ∀ x y : ℕ, x / 2 ^ k = y / 2 ^ k → y < x + 2 ^ k := by
    intro x y hxy
    have hx := Nat.div_add_mod x (2 ^ k)
    have hy := Nat.div_add_mod y (2 ^ k)
    rw [hxy] at hx
    omega
  have hsame : h ^^^ a = h ^^^ a' := by
    apply BitVec.eq_of_toNat_eq
    rcases Nat.lt_trichotomy (h ^^^ a).toNat (h ^^^ a').toNat with hlt | heq | hgt
    · exact absurd hprodBlock (block_ne_of_mul hlt (hnear _ _ hblock) hlow hhigh)
    · exact heq
    · exact absurd hprodBlock.symm (block_ne_of_mul hgt (hnear _ _ hblock.symm) hlow hhigh)
  obtain rfl := (BitVec.xor_right_inj h).mp hsame
  exact ⟨rfl, (BitVec.xor_right_inj _).mp houter⟩

end WordMix
