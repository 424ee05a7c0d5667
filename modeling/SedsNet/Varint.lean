import SedsNet.ByteCursor
import SedsNet.Schema

/-! # ULEB128 integers

`write_uleb128`, `uleb128_size` and the bounded decoder `read_u64` of `varint.rs`.  The loops of
the source make at most ten rounds, one per seven bits of a `u64`; the models recurse on the
number of rounds left.

`reads_writeUleb128` is the round trip: at any position, the decoder reads back what the encoder
wrote and stops right behind it.  `readUleb128_local` says that the decoder looks only at the
bytes it consumes.  On a 32-bit host it gathers the value in two halves; `uleb128_codec` says that
this makes no difference. -/

namespace SedsNet

open ByteCursor List

/-- The cursor of the packet decoder; its errors are `TelemetryError`s. -/
abbrev ByteReader (α : Type) := Reader TelemetryError α

/-! ### Fixed-size reads -/

/-- `ByteReader::read_bytes`. -/
def readBytes (n : ℕ) : ByteReader Bytes := take (.unpack "short read") n

/-- `read_bytes(1)?[0]`. -/
def readByte : ByteReader UInt8 := do
  let s ← readBytes 1
  return s.headD 0

theorem readBytes_local (n : ℕ) : Local (readBytes n) := Local.take _ n

theorem reads_readBytes {n : ℕ} {bytes : Bytes} (h : bytes.length = n) :
    Reads (readBytes n) bytes bytes := reads_take h

theorem reads_readByte (b : UInt8) : Reads readByte [b] b :=
  (reads_readBytes (n := 1) rfl).bind_nil (Reads.pure b)

theorem reads_readByte_bind {α : Type} {f : UInt8 → ByteReader α} {b : UInt8} {bytes : Bytes} {a : α}
    (h : Reads (f b) bytes a) : Reads (readByte >>= f) (b :: bytes) a := (reads_readByte b).bind h

theorem readByte_local : Local readByte := (readBytes_local 1).bind fun _ => Local.pure _

theorem readByte_ok {c c' : Cursor} {b : UInt8} (h : readByte c = .ok (b, c')) :
    c.rest = b :: c'.rest ∧ c' = c.advance 1 := by
  obtain ⟨s, c₁, hs, h⟩ := bind_ok h
  obtain ⟨hlen, rfl, rfl⟩ := take_ok hs
  obtain ⟨rfl, rfl⟩ := pure_ok_inv h
  rw [← Cursor.length_rest] at hlen
  obtain ⟨b, tail, hcons⟩ := exists_cons_of_length_pos (by omega : 0 < c.rest.length)
  rw [Cursor.rest_advance, hcons]
  simp

/-! ### The encoder and its size -/

/-- The loop of `write_uleb128`, with `rounds` left. -/
def writeUleb128Loop : (rounds : ℕ) → UInt64 → Bytes
  | 0, _ => []
  | rounds + 1, v =>
    let byte := (v &&& 0x7F).toUInt8
    let v' := v >>> 7
    if v' ≠ 0 then (byte ||| 0x80) :: writeUleb128Loop rounds v' else [byte]

variable (v : UInt64)

def writeUleb128 : Bytes := writeUleb128Loop 10 v

/-- The loop of `uleb128_size`, with `rounds` left. -/
def uleb128SizeLoop : (rounds : ℕ) → UInt64 → ℕ
  | 0, _ => 1
  | rounds + 1, v => if 0x80 ≤ v then uleb128SizeLoop rounds (v >>> 7) + 1 else 1

def uleb128Size : ℕ := uleb128SizeLoop 9 v

/-! ### The decoder -/

/-- The loop of `read_u64`, with `rounds` left.  The offset is returned on failure as well, as the
source leaves it. -/
def readU64Loop (buf : Bytes) : (rounds off : ℕ) → (value : UInt64) → (shift : ℕ) →
    TelemetryResult UInt64 × ℕ
  | 0, off, _, _ => (.error (.unpack "uleb128 too long"), off)
  | rounds + 1, off, value, shift =>
    match buf[off]? with
    | none => (.error (.unpack "short read"), off)
    | some byte =>
      let value' := value ||| ((byte &&& 0x7f).toUInt64 <<< UInt64.ofNat shift)
      if byte &&& 0x80 = 0 then
        if shift = 63 ∧ 1 < byte then (.error (.unpack "uleb128 too long"), off + 1)
        else (.ok value', off + 1)
      else readU64Loop buf rounds (off + 1) value' (shift + 7)

/-- `varint::read_u64` on a 64-bit host. -/
def readU64 (buf : Bytes) (off : ℕ) : TelemetryResult UInt64 × ℕ := readU64Loop buf 10 off 0 0

/-- `read_uleb128`: the decoder at the position of the reader. -/
def readUleb128 : ByteReader UInt64 := fun c =>
  match readU64 c.buf c.off with
  | (.error e, _) => .error e
  | (.ok v, off) => .ok (v, ⟨c.buf, off⟩)

/-! ### One round on numbers -/

theorem toNat_low7 : ((v &&& 0x7F).toUInt8).toNat = v.toNat % 128 := by
  rw [UInt64.toNat_toUInt8, UInt64.toNat_and, show (0x7F : UInt64).toNat = 2 ^ 7 - 1 from rfl,
    Nat.and_two_pow_sub_one_eq_mod]
  omega

theorem toNat_shiftRight7 : (v >>> 7).toNat = v.toNat / 128 := by
  rw [UInt64.toNat_shiftRight, show (7 : UInt64).toNat % 64 = 7 from rfl,
    Nat.shiftRight_eq_div_pow]

theorem shiftRight7_eq_zero_iff : v >>> 7 = 0 ↔ v.toNat < 128 := by
  rw [← UInt64.toNat_inj, toNat_shiftRight7, UInt64.toNat_zero]
  omega

/-- The bits of a byte below the continuation bit, and the continuation bit. -/
theorem byte_low_or_high : ∀ b : UInt8, (b &&& 0x7f).toNat = b.toNat % 128 ∧ (b &&& 0x80 = 0 ↔ b.toNat < 128) := by
  decide +kernel

theorem byte_or_high : ∀ b : UInt8, b.toNat < 128 → (b ||| 0x80).toNat = b.toNat + 128 := by
  decide +kernel

/-- Adding seven bits above the bits read so far. -/
theorem toNat_accumulate {value : UInt64} (byte : UInt8) {shift : ℕ}
    (hv : value.toNat < 2 ^ shift) (hfit : byte.toNat % 128 * 2 ^ shift < 2 ^ 64) (hs : shift ≤ 63) :
    (value ||| ((byte &&& 0x7f).toUInt64 <<< UInt64.ofNat shift)).toNat =
      value.toNat + byte.toNat % 128 * 2 ^ shift := by
  have hshift : (UInt64.ofNat shift).toNat % 64 = shift := by
    rw [UInt64.toNat_ofNat']
    omega
  rw [UInt64.toNat_or, UInt64.toNat_shiftLeft, hshift, UInt8.toNat_toUInt64,
    (byte_low_or_high byte).1, Nat.shiftLeft_eq, Nat.mod_eq_of_lt hfit, Nat.or_comm, Nat.mul_comm,
    ← Nat.two_pow_add_eq_or_of_lt hv, Nat.add_comm]

theorem getElem?_of_drop_eq {buf : Bytes} {off : ℕ} {b : UInt8} {tail : Bytes}
    (h : buf.drop off = b :: tail) : buf[off]? = some b ∧ buf.drop (off + 1) = tail := by
  refine ⟨?_, ?_⟩
  · have := congrArg (fun l => l[0]?) h
    simpa using this
  · rw [← drop_drop, h, drop_one, tail_cons]

/-! ### Round trip -/

/-- The last byte of an encoding ends the decoder, in the tenth round if it is a single bit. -/
theorem readU64Loop_last {buf : Bytes} {k off shift : ℕ} {v value : UInt64} {tail : Bytes}
    (hshift : shift + 7 * k = 63) (hvalue : value.toNat < 2 ^ shift)
    (hfit : v.toNat * 2 ^ shift < 2 ^ 64) (hv : v.toNat < 128) (hbuf : buf.drop off = (v &&& 0x7F).toUInt8 :: tail) :
    readU64Loop buf (k + 1) off value shift = (.ok (UInt64.ofNat (value.toNat + v.toNat * 2 ^ shift)), off + 1) := by
  have hlow : ((v &&& 0x7F).toUInt8).toNat = v.toNat := by rw [toNat_low7, Nat.mod_eq_of_lt hv]
  have hacc := toNat_accumulate (v &&& 0x7F).toUInt8 hvalue
    (by rwa [hlow, Nat.mod_eq_of_lt hv]) (by omega)
  have hhigh : (v &&& 0x7F).toUInt8 &&& 0x80 = 0 := (byte_low_or_high _).2.mpr (by omega)
  have hsmall : ¬ (shift = 63 ∧ 1 < (v &&& 0x7F).toUInt8) := by
    rintro ⟨rfl, hlt⟩
    rw [UInt8.lt_iff_toNat_lt, show (1 : UInt8).toNat = 1 from rfl] at hlt
    omega
  rw [hlow, Nat.mod_eq_of_lt hv] at hacc
  rw [readU64Loop, (getElem?_of_drop_eq hbuf).1]
  simp only [hhigh, if_true, hsmall, if_false]
  rw [← hacc, UInt64.ofNat_toNat]

/-- The decoder, `k + 1` rounds before its limit, on the encoder's output. -/
theorem readU64Loop_write (buf : Bytes) : ∀ k off v value shift tail,
    shift + 7 * k = 63 → value.toNat < 2 ^ shift → v.toNat * 2 ^ shift < 2 ^ 64 →
    buf.drop off = writeUleb128Loop (k + 1) v ++ tail → readU64Loop buf (k + 1) off value shift =
      (.ok (UInt64.ofNat (value.toNat + v.toNat * 2 ^ shift)), off + (writeUleb128Loop (k + 1) v).length) := by
  intro k
  induction k with
  | zero =>
    intro off v value shift tail hshift hvalue hfit hbuf
    have h63 : shift = 63 := by omega
    have hv : v.toNat < 128 := by
      rw [h63] at hfit
      omega
    have hz := (shiftRight7_eq_zero_iff v).mpr hv
    simp only [writeUleb128Loop, hz, ne_eq, not_true_eq_false, if_false] at hbuf ⊢
    exact readU64Loop_last hshift hvalue hfit hv hbuf
  | succ k ih =>
    intro off v value shift tail hshift hvalue hfit hbuf
    rw [writeUleb128Loop] at hbuf ⊢
    by_cases hz : v >>> 7 = 0
    · simp only [hz, ne_eq, not_true_eq_false, if_false] at hbuf ⊢
      exact readU64Loop_last hshift hvalue hfit ((shiftRight7_eq_zero_iff v).mp hz) hbuf
    simp only [hz, ne_eq, not_false_eq_true, if_true, cons_append] at hbuf ⊢
    -- The continuation byte carries the low seven bits of `v`.
    have hlow := toNat_low7 v
    have hbyte : ((v &&& 0x7F).toUInt8 ||| 0x80).toNat = v.toNat % 128 + 128 := by
      rw [byte_or_high _ (by omega), hlow]
    have hmod : ((v &&& 0x7F).toUInt8 ||| 0x80).toNat % 128 = v.toNat % 128 := by omega
    have hpart : v.toNat % 128 * 2 ^ shift ≤ v.toNat * 2 ^ shift :=
      Nat.mul_le_mul_right _ (Nat.mod_le _ _)
    have hacc := toNat_accumulate ((v &&& 0x7F).toUInt8 ||| 0x80) hvalue
      (by rw [hmod]; omega) (by omega)
    have hhigh : ¬ ((v &&& 0x7F).toUInt8 ||| 0x80) &&& 0x80 = 0 := by
      rw [(byte_low_or_high _).2]
      omega
    obtain ⟨hget, hrest⟩ := getElem?_of_drop_eq hbuf
    rw [hmod] at hacc
    have hpow : 2 ^ (shift + 7) = 2 ^ shift * 128 := pow_add 2 shift 7
    have hsplit : v.toNat % 128 * 2 ^ shift + v.toNat / 128 * 2 ^ (shift + 7) =
        v.toNat * 2 ^ shift := by
      conv_rhs => rw [← Nat.mod_add_div v.toNat 128]
      ring
    have hnext : value.toNat + v.toNat % 128 * 2 ^ shift < 2 ^ (shift + 7) := by
      have : v.toNat % 128 * 2 ^ shift ≤ 127 * 2 ^ shift :=
        Nat.mul_le_mul_right _ (by omega)
      omega
    rw [readU64Loop, hget]
    simp only [hhigh, if_false]
    rw [ih (off + 1) (v >>> 7) _ (shift + 7) tail (by omega) (by rw [hacc]; exact hnext)
      (by rw [toNat_shiftRight7]; omega) hrest, hacc, toNat_shiftRight7, length_cons,
      Nat.add_assoc, hsplit]
    simp only [Nat.add_assoc, Nat.add_comm 1]

/-- Decoding what the encoder wrote, at any position of any buffer. -/
theorem reads_writeUleb128 : Reads readUleb128 (writeUleb128 v) v := by
  intro c tail hc
  have h := readU64Loop_write c.buf 9 c.off v 0 0 tail (by omega) (by simp)
    (by have := v.toNat_lt; omega) hc
  simp only [UInt64.toNat_zero, pow_zero, Nat.mul_one, Nat.zero_add, UInt64.ofNat_toNat] at h
  simp only [readUleb128, readU64, h, writeUleb128]
  rfl

/-! ### Sizes -/

theorem length_writeUleb128Loop (k : ℕ) (v : UInt64) : (writeUleb128Loop (k + 1) v).length = uleb128SizeLoop k v := by
  induction k generalizing v with
  | zero => by_cases hz : v >>> 7 = 0 <;> simp [writeUleb128Loop, uleb128SizeLoop, hz]
  | succ k ih =>
    have hle : (0x80 : UInt64) ≤ v ↔ v >>> 7 ≠ 0 := by
      rw [ne_eq, shiftRight7_eq_zero_iff, UInt64.le_iff_toNat_le,
        show (0x80 : UInt64).toNat = 128 from rfl]
      omega
    rw [writeUleb128Loop, uleb128SizeLoop]
    by_cases hz : v >>> 7 = 0
    · rw [if_neg (by simp [hz]), if_neg (by simp [hle, hz])]
      rfl
    · rw [if_pos hz, if_pos (hle.mpr hz), length_cons, ih]

theorem length_writeUleb128 : (writeUleb128 v).length = uleb128Size v :=
  length_writeUleb128Loop 9 v

theorem uleb128SizeLoop_bounds (k : ℕ) (v : UInt64) : 1 ≤ uleb128SizeLoop k v ∧ uleb128SizeLoop k v ≤ k + 1 := by
  induction k generalizing v with
  | zero => simp [uleb128SizeLoop]
  | succ k ih =>
    rw [uleb128SizeLoop]
    split
    · have := ih (v >>> 7)
      omega
    · omega

theorem uleb128Size_bounds : 1 ≤ uleb128Size v ∧ uleb128Size v ≤ 10 :=
  uleb128SizeLoop_bounds 9 v

/-! ### The decoder reads only what it consumes -/

/-- A successful decoding consumes between one and `rounds` bytes of the buffer, and gives the
same value wherever those bytes stand. -/
theorem readU64Loop_local {buf : Bytes} : ∀ {rounds off : ℕ} {value} {shift : ℕ}
    {v} {off' : ℕ}, readU64Loop buf rounds off value shift = (.ok v, off') →
    ∃ bytes, buf.drop off = bytes ++ buf.drop off' ∧ off' = off + bytes.length ∧
      1 ≤ bytes.length ∧ bytes.length ≤ rounds ∧
      ∀ buf₂ off₂ tail, buf₂.drop off₂ = bytes ++ tail →
        readU64Loop buf₂ rounds off₂ value shift = (.ok v, off₂ + bytes.length)
  | 0, _, _, _, _, _, h => by simp [readU64Loop] at h
  | rounds + 1, off, value, shift, v, off', h => by
      rw [readU64Loop] at h
      cases hget : buf[off]? with
      | none => simp [hget] at h
      | some byte =>
        have hcons : buf.drop off = byte :: buf.drop (off + 1) := by
          obtain ⟨hlt, rfl⟩ := List.getElem?_eq_some_iff.mp hget
          exact drop_eq_getElem_cons hlt
        simp only [hget] at h
        by_cases hhigh : byte &&& 0x80 = 0
        · simp only [hhigh, if_true] at h
          by_cases hlong : shift = 63 ∧ 1 < byte
          · simp [hlong] at h
          simp only [hlong, if_false, Prod.mk.injEq, Except.ok.injEq] at h
          obtain ⟨rfl, rfl⟩ := h
          refine ⟨[byte], hcons, rfl, le_refl 1, by simp, ?_⟩
          intro buf₂ off₂ tail h₂
          rw [readU64Loop, (getElem?_of_drop_eq h₂).1]
          simp only [hhigh, if_true, hlong, if_false, length_singleton]
        · simp only [hhigh, if_false] at h
          obtain ⟨bytes, hrest, hoff, hpos, hlen, hread⟩ := readU64Loop_local h
          refine ⟨byte :: bytes, ?_, ?_, by simp, by simpa using hlen, ?_⟩
          · rw [hcons, hrest, cons_append]
          · rw [length_cons]
            omega
          · intro buf₂ off₂ tail h₂
            obtain ⟨hget₂, hrest₂⟩ := getElem?_of_drop_eq h₂
            rw [readU64Loop, hget₂]
            simp only [hhigh, if_false]
            rw [hread buf₂ (off₂ + 1) tail hrest₂, length_cons]
            simp only [Nat.add_assoc, Nat.add_comm 1]

/-- The bytes of a decoded integer, with the properties later parsers rely on. -/
theorem readUleb128_ok {c c' : Cursor} {v : UInt64} (h : readUleb128 c = .ok (v, c')) :
    ∃ bytes, c.rest = bytes ++ c'.rest ∧ c' = c.advance bytes.length ∧
      1 ≤ bytes.length ∧ bytes.length ≤ 10 ∧ Reads readUleb128 bytes v := by
  unfold readUleb128 at h
  cases hr : readU64 c.buf c.off with
  | mk r off =>
    cases r with
    | error e => simp [hr] at h
    | ok w =>
      simp only [hr, Except.ok.injEq, Prod.mk.injEq] at h
      obtain ⟨rfl, rfl⟩ := h
      obtain ⟨bytes, hrest, hoff, hpos, hlen, hread⟩ := readU64Loop_local hr
      refine ⟨bytes, hrest, by rw [hoff]; rfl, hpos, hlen, ?_⟩
      intro c₂ tail h₂
      simp only [readUleb128, readU64, hread c₂.buf c₂.off tail h₂]
      rfl

theorem readUleb128_local : Local readUleb128 := by
  intro c v c' h
  obtain ⟨bytes, hrest, hadv, -, -, hread⟩ := readUleb128_ok h
  exact ⟨bytes, hrest, hadv, hread⟩

/-! ### Narrowing conversions -/

/-- `u32::try_from`. -/
def tryU32 : Option UInt32 := if v.toNat < 2 ^ 32 then some v.toUInt32 else none

/-- `u16::try_from`. -/
def tryU16 : Option UInt16 := if v.toNat < 2 ^ 16 then some v.toUInt16 else none

theorem tryU32_toUInt64 (x : UInt32) : tryU32 x.toUInt64 = some x := by
  have := x.toNat_lt
  rw [tryU32, UInt32.toNat_toUInt64, if_pos this, UInt32.toUInt32_toUInt64]

theorem tryU16_toUInt64 (x : UInt16) : tryU16 x.toUInt64 = some x := by
  have := x.toNat_lt
  rw [tryU16, UInt16.toNat_toUInt64, if_pos this, UInt16.toUInt16_toUInt64]

/-! ### The decoder in halves -/

/-- What a byte of `read_u64_32_slow` makes of the low and the high half. -/
abbrev HalfStep := UInt32 → UInt32 × UInt32 → UInt32 × UInt32

def halfSteps : List HalfStep :=
  [fun b h => (b, h.2), fun b h => (h.1 ||| b <<< 7, h.2), fun b h => (h.1 ||| b <<< 14, h.2),
    fun b h => (h.1 ||| b <<< 21, h.2), fun b h => (h.1 ||| b <<< 28, b >>> 4), fun b h => (h.1, h.2 ||| b <<< 3),
    fun b h => (h.1, h.2 ||| b <<< 10), fun b h => (h.1, h.2 ||| b <<< 17), fun b h => (h.1, h.2 ||| b <<< 24)]

def joinHalves (h : UInt32 × UInt32) : UInt64 := h.2.toUInt64 <<< 32 ||| h.1.toUInt64

/-- `read_u64_32_slow` with the steps left; its tenth byte is a single bit. -/
def readU64Slow (buf : Bytes) : List HalfStep → (off : ℕ) → UInt32 × UInt32 → TelemetryResult UInt64 × ℕ
  | [], off, h =>
    match buf[off]? with
    | none => (.error (.unpack "short read"), off)
    | some last =>
      if 1 < last then (.error (.unpack "uleb128 too long"), off + 1)
      else (.ok (joinHalves (h.1, h.2 ||| last.toUInt32 <<< 31)), off + 1)
  | step :: steps, off, h =>
    match buf[off]? with
    | none => (.error (.unpack "short read"), off)
    | some byte =>
      let h := step (byte &&& 0x7f).toUInt32 h
      if byte &&& 0x80 = 0 then (.ok (joinHalves h), off + 1) else readU64Slow buf steps (off + 1) h

/-- `varint::read_u64` on a 32-bit host. -/
def readU64In32 (buf : Bytes) (off : ℕ) : TelemetryResult UInt64 × ℕ :=
  match buf[off]?.filter (· < 0x80) with
  | some byte => (.ok byte.toUInt64, off + 1)
  | none => readU64Slow buf halfSteps off (0, 0)

theorem joinHalves_or (l h x y : UInt32) : joinHalves (l ||| x, h ||| y) = joinHalves (l, h) ||| joinHalves (x, y) := by
  simp only [joinHalves, UInt32.toUInt64_or, UInt64.shiftLeft_or]
  generalize h.toUInt64 <<< 32 = h, y.toUInt64 <<< 32 = y
  ac_rfl

/-- What the steps before `shift` leave empty. -/
def Filled (shift : ℕ) (h : UInt32 × UInt32) : Prop := (shift = 0 → h.1 = 0) ∧ (shift ≤ 28 → h.2 = 0)

/-- The steps do to the halves what the rounds from `shift` on do to the value. -/
def HalvesAgree (steps : List HalfStep) (rounds shift : ℕ) : Prop := ∀ (buf : Bytes) (off : ℕ) (h : UInt32 × UInt32),
  Filled shift h → readU64Slow buf steps off h = readU64Loop buf rounds off (joinHalves h) shift

theorem HalvesAgree.cons {step : HalfStep} {steps : List HalfStep} {rounds shift : ℕ}
    (h : HalvesAgree steps rounds (shift + 7))
    (hshift : shift ≠ 63) (hlow : shift + 7 ≤ 28 → ∀ b, (step b (0, 0)).2 = 0)
    (hstep : ∀ b h, Filled shift h → step b h = (h.1 ||| (step b (0, 0)).1, h.2 ||| (step b (0, 0)).2))
    (hbits : ∀ byte : UInt8, joinHalves (step (byte &&& 0x7f).toUInt32 (0, 0)) =
      (byte &&& 0x7f).toUInt64 <<< UInt64.ofNat shift) : HalvesAgree (step :: steps) (rounds + 1) shift := by
  intro buf off halves hfilled
  rw [readU64Slow, readU64Loop]
  cases buf[off]? with
  | none => rfl
  | some byte =>
    have hjoin := joinHalves_or halves.1 halves.2 (step (byte &&& 0x7f).toUInt32 (0, 0)).1
      (step (byte &&& 0x7f).toUInt32 (0, 0)).2
    rw [← hstep _ _ hfilled, hbits] at hjoin
    simp only [hshift, false_and, if_false, ← hjoin]
    split
    · rfl
    · refine h buf (off + 1) _ ⟨by omega, fun hle => ?_⟩
      rw [hstep _ _ hfilled, hlow hle, hfilled.2 (by omega), UInt32.or_zero]

theorem halvesAgree_last : HalvesAgree [] 1 63 := by
  intro buf off h _
  have hbits : ∀ byte : UInt8, ¬ 1 < byte → byte &&& 0x80 = 0 ∧
      joinHalves (0, byte.toUInt32 <<< 31) = (byte &&& 0x7f).toUInt64 <<< UInt64.ofNat 63 := by decide +kernel
  simp only [readU64Slow, readU64Loop]
  cases buf[off]? with
  | none => rfl
  | some byte =>
    by_cases hlong : 1 < byte
    · simp [hlong]
    · obtain ⟨hlast, hbit⟩ := hbits byte hlong
      have hjoin := joinHalves_or h.1 h.2 0 (byte.toUInt32 <<< 31)
      rw [UInt32.or_zero, hbit] at hjoin
      simp only [hlong, and_false, if_false, hlast, if_true, hjoin]

theorem halvesAgree_halfSteps : HalvesAgree halfSteps 10 0 := by
  iterate 9 refine .cons ?_ (by decide) (by simp) (by simp +contextual [Filled]) (by decide +kernel)
  exact halvesAgree_last

/-- **ULEB128**: behind any prefix and before any suffix an integer is read back up to its end, the size
is the number of bytes written, and the two decoders answer alike on every input. -/
theorem uleb128_codec (pre post buf : Bytes) (off : ℕ) :
    readU64 (pre ++ writeUleb128 v ++ post) pre.length = (.ok v, (pre ++ writeUleb128 v).length) ∧
      uleb128Size v = (writeUleb128 v).length ∧ readU64In32 buf off = readU64 buf off := by
  refine ⟨?_, (length_writeUleb128 v).symm, ?_⟩
  · have hread := readU64Loop_write (pre ++ writeUleb128 v ++ post) 9 pre.length v 0 0 post (by simp) (by simp)
      (by have := v.toNat_lt; omega) (by simp [writeUleb128])
    simpa [readU64, writeUleb128] using hread
  · have hslow := halvesAgree_halfSteps buf off (0, 0) ⟨fun _ => rfl, fun _ => rfl⟩
    have hbyte : ∀ byte : UInt8, byte < 0x80 → byte &&& 0x80 = 0 ∧ byte.toUInt64 =
        joinHalves ((byte &&& 0x7f).toUInt32, 0) := by decide +kernel
    unfold readU64In32
    split
    next byte hget =>
      obtain ⟨hget, hlt⟩ := Option.filter_eq_some_iff.mp hget
      obtain ⟨hlast, hvalue⟩ := hbyte byte (by simpa using hlt)
      change _ = readU64Loop buf 10 off (joinHalves (0, 0)) 0
      rw [← hslow, halfSteps, readU64Slow, hget]
      simp [hlast, hvalue]
    next => exact hslow

end SedsNet
