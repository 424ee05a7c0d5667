import Mathlib

/-! # Cursors over a byte buffer

A `Cursor` is a buffer with a read position, and a `Reader` is a computation that moves the
position forward and may fail.  Two notions carry the proofs about readers:

* `Reads p bytes a` — wherever the unread part of the buffer starts with `bytes`, the reader
  `p` returns `a` and consumes exactly `bytes`.  It composes along `bind` (`Reads.bind`), so
  that an encoder and a decoder are compared field by field;
* the inversion rules (`bind_ok`, `failIf_ok`, `ofOption_ok`, `ofResult_ok`) and the
  evaluation rules (`bind_of_ok`, `failIf_of_not`, ...) take a successful run apart and replay
  its steps in a second reader over the same buffer;
* `Local p` — a successful run of `p` depends only on the bytes it consumes, so that the same
  bytes read back in any other buffer.  `Advances p` keeps of it only that `p` never moves back. -/

namespace ByteCursor

open List

/-- A buffer and the offset of the first unread byte. -/
structure Cursor where
  buf : List UInt8
  off : ℕ
deriving DecidableEq, Repr

namespace Cursor

section

variable (buf : List UInt8) (c : Cursor)

/-- The cursor at the start of `buf`. -/
def start : Cursor := ⟨buf, 0⟩

/-- The unread bytes. -/
def rest : List UInt8 := c.buf.drop c.off

/-- How many bytes are still unread. -/
def remaining : ℕ := c.buf.length - c.off

/-- The cursor `n` bytes further on. -/
def advance (n : ℕ) : Cursor := ⟨c.buf, c.off + n⟩

@[simp] theorem start_rest : (start buf).rest = buf := rfl

@[simp] theorem start_off : (start buf).off = 0 := rfl

@[simp] theorem start_buf : (start buf).buf = buf := rfl

@[simp] theorem advance_buf (n : ℕ) : (c.advance n).buf = c.buf := rfl

@[simp] theorem advance_off (n : ℕ) : (c.advance n).off = c.off + n := rfl

@[simp] theorem advance_zero : c.advance 0 = c := rfl

theorem advance_advance (m n : ℕ) : (c.advance m).advance n = c.advance (m + n) := by
  simp [advance, Nat.add_assoc]

theorem length_rest : c.rest.length = c.remaining := by
  simp [rest, remaining]

theorem rest_advance (n : ℕ) : (c.advance n).rest = c.rest.drop n := by
  simp [rest, advance, drop_drop]

end

variable {c : Cursor} {bytes : List UInt8}

theorem rest_advance_of_eq {tail : List UInt8} (h : c.rest = bytes ++ tail) : (c.advance bytes.length).rest = tail := by
  rw [rest_advance, h, drop_left]

theorem remaining_of_eq (h : c.rest = bytes) : c.remaining = bytes.length := by
  rw [← length_rest, h]

end Cursor

/-- A computation that reads from a cursor and may fail. -/
abbrev Reader (ε α : Type) := StateT Cursor (Except ε) α

variable {ε α β : Type}

/-! ### Primitive readers -/

/-- The next `n` bytes, or `e` when fewer are left. -/
def take (e : ε) (n : ℕ) : Reader ε (List UInt8) := fun c =>
  if c.remaining < n then .error e else .ok (c.rest.take n, c.advance n)

/-- Number of unread bytes. -/
def remaining : Reader ε ℕ := fun c => .ok (c.remaining, c)

/-- The offset of the first unread byte. -/
def position : Reader ε ℕ := fun c => .ok (c.off, c)

/-- The bytes between the offset `start` and the position. -/
def since (start : ℕ) : Reader ε (List UInt8) := fun c =>
  .ok ((c.buf.drop start).take (c.off - start), c)

/-- Stop with `e` when `p` holds. -/
def failIf (p : Prop) [Decidable p] (e : ε) : Reader ε Unit := fun c =>
  if p then .error e else .ok ((), c)

/-- The value of `o`, or the error `e`. -/
def ofOption (o : Option α) (e : ε) : Reader ε α := fun c =>
  match o with
  | none => .error e
  | some a => .ok (a, c)

/-- A fallible computation that does not touch the cursor. -/
def ofResult (x : Except ε α) : Reader ε α := fun c =>
  match x with
  | .error e => .error e
  | .ok a => .ok (a, c)

/-- An optional field: `p` when the field is present, nothing otherwise. -/
def whenPresent (q : Prop) [Decidable q] (p : Reader ε α) : Reader ε (Option α) :=
  if q then some <$> p else pure none

/-- Run `p` on a copy of the cursor. -/
def peek (p : Reader ε α) : Reader ε α := fun c =>
  match p c with
  | .error e => .error e
  | .ok (a, _) => .ok (a, c)

/-- The value a reader returns when it is run from `c`, without the final position. -/
def eval (p : Reader ε α) (c : Cursor) : Except ε α :=
  match p c with
  | .error e => .error e
  | .ok (a, _) => .ok a

/-! ### Inversion of successful runs -/

section Inversion

variable {p : Reader ε α} {f : α → Reader ε β} {a : α} {b : β} {c c' : Cursor} {e : ε} {r : β × Cursor}

theorem bind_ok (h : (p >>= f) c = .ok r) : ∃ a c₁, p c = .ok (a, c₁) ∧ f a c₁ = .ok r := by
  cases hp : p c with
  | error e => simp [bind, StateT.bind, Except.bind, hp] at h
  | ok r => exact ⟨r.1, r.2, rfl, by simpa [bind, StateT.bind, Except.bind, hp] using h⟩

theorem bind_of_ok (h : p c = .ok (a, c')) : (p >>= f) c = f a c' := by
  simp [bind, StateT.bind, Except.bind, h]

theorem pure_ok : (pure a : Reader ε α) c = .ok (a, c) := rfl

theorem pure_ok_inv {b : α} (h : (pure a : Reader ε α) c = .ok (b, c')) : a = b ∧ c = c' := by
  simpa [pure, StateT.pure, Except.pure] using h

variable {g : α → β}

theorem map_ok (h : (g <$> p) c = .ok (b, c')) : ∃ a, p c = .ok (a, c') ∧ b = g a := by
  rw [map_eq_pure_bind] at h
  obtain ⟨a, c₁, h₁, h₂⟩ := bind_ok h
  cases h₂
  exact ⟨a, h₁, rfl⟩

theorem map_of_ok (h : p c = .ok (a, c')) : (g <$> p) c = .ok (g a, c') := by
  rw [map_eq_pure_bind, bind_of_ok h]
  rfl

variable {n : ℕ}

theorem take_ok {bytes : List UInt8} (h : take e n c = .ok (bytes, c')) :
    n ≤ c.remaining ∧ bytes = c.rest.take n ∧ c' = c.advance n := by
  unfold take at h
  split at h
  · cases h
  cases h
  exact ⟨by omega, rfl, rfl⟩

theorem take_of_le (h : n ≤ c.remaining) : take e n c = .ok (c.rest.take n, c.advance n) := by
  simp [take, Nat.not_lt.mpr h]

theorem since_ok (start : ℕ) :
    @since ε start c = .ok ((c.buf.drop start).take (c.off - start), c) := rfl

variable {q : Prop}

theorem failIf_ok [Decidable q] {u : Unit} (h : failIf q e c = .ok (u, c')) : ¬ q ∧ c' = c := by
  unfold failIf at h
  split at h
  · cases h
  cases h
  exact ⟨‹_›, rfl⟩

theorem failIf_of_not [Decidable q] (h : ¬ q) : failIf q e c = .ok ((), c) := by
  simp [failIf, h]

variable {o : Option α}

theorem ofOption_ok (h : ofOption o e c = .ok (a, c')) : o = some a ∧ c' = c := by
  cases o with
  | none => cases h
  | some x =>
    cases h
    exact ⟨rfl, rfl⟩

theorem ofOption_of_some (h : o = some a) : ofOption o e c = .ok (a, c) := by
  simp [ofOption, h]

variable {x : Except ε α}

theorem ofResult_ok (h : ofResult x c = .ok (a, c')) : x = .ok a ∧ c' = c := by
  cases x with
  | error e => cases h
  | ok y =>
    cases h
    exact ⟨rfl, rfl⟩

theorem ofResult_of_ok (h : x = .ok a) : ofResult x c = .ok (a, c) := by
  simp [ofResult, h]

theorem peek_of_ok (h : p c = .ok (a, c')) : peek p c = .ok (a, c) := by
  simp [peek, h]

theorem whenPresent_of [Decidable q] (hq : q) (h : p c = .ok (a, c')) : whenPresent q p c = .ok (some a, c') := by
  rw [whenPresent, if_pos hq, map_of_ok h]

theorem whenPresent_of_not [Decidable q] (hq : ¬ q) : whenPresent q p c = .ok (none, c) := by
  rw [whenPresent, if_neg hq, pure_ok]

theorem whenPresent_congr {q' : Prop} [Decidable q] [Decidable q'] (hq : q ↔ q') : whenPresent q p = whenPresent q' p :=
  if_congr hq rfl rfl

theorem whenPresent_ok [Decidable q] (h : whenPresent q p c = .ok (o, c')) :
    (q ∧ ∃ a, p c = .ok (a, c') ∧ o = some a) ∨ (¬ q ∧ o = none ∧ c' = c) := by
  by_cases hq : q
  · rw [whenPresent, if_pos hq] at h
    exact .inl ⟨hq, map_ok h⟩
  · rw [whenPresent_of_not hq] at h
    cases h
    exact .inr ⟨hq, rfl, rfl⟩

/-! Steps that leave the cursor where it is, followed by the rest of a reader. -/

variable {k : Unit → Reader ε β}

theorem failIf_bind_ok [Decidable q] (h : (failIf q e >>= k) c = .ok r) : ¬ q ∧ k () c = .ok r := by
  obtain ⟨u, c₁, h₁, h₂⟩ := bind_ok h
  obtain ⟨hq, rfl⟩ := failIf_ok h₁
  exact ⟨hq, h₂⟩

theorem failIf_bind [Decidable q] (h : ¬ q) : (failIf q e >>= k) c = k () c := bind_of_ok (failIf_of_not h)

theorem ofOption_bind_ok (h : (ofOption o e >>= f) c = .ok r) : ∃ a, o = some a ∧ f a c = .ok r := by
  obtain ⟨a, c₁, h₁, h₂⟩ := bind_ok h
  obtain ⟨ho, rfl⟩ := ofOption_ok h₁
  exact ⟨a, ho, h₂⟩

theorem ofOption_bind (h : o = some a) : (ofOption o e >>= f) c = f a c :=
  bind_of_ok (ofOption_of_some h)

theorem ofResult_bind_ok (h : (ofResult x >>= f) c = .ok r) : ∃ a, x = .ok a ∧ f a c = .ok r := by
  obtain ⟨a, c₁, h₁, h₂⟩ := bind_ok h
  obtain ⟨hx, rfl⟩ := ofResult_ok h₁
  exact ⟨a, hx, h₂⟩

theorem ofResult_bind (h : x = .ok a) : (ofResult x >>= f) c = f a c :=
  bind_of_ok (ofResult_of_ok h)

theorem remaining_bind {k : ℕ → Reader ε β} : (remaining >>= k) c = k c.remaining c := rfl

theorem position_bind {k : ℕ → Reader ε β} : (position >>= k) c = k c.off c := rfl

theorem eval_ok (h : eval p c = .ok a) : ∃ c', p c = .ok (a, c') := by
  unfold eval at h
  split at h
  · cases h
  cases h
  exact ⟨_, ‹_›⟩

theorem eval_of_ok (h : p c = .ok (a, c')) : eval p c = .ok a := by
  simp [eval, h]

end Inversion

/-! ### Reading a known encoding -/

/-- Wherever the unread bytes start with `bytes`, `p` consumes exactly them and returns `a`. -/
def Reads (p : Reader ε α) (bytes : List UInt8) (a : α) : Prop :=
  ∀ c tail, Cursor.rest c = bytes ++ tail → p c = .ok (a, c.advance bytes.length)

theorem Reads.pure (a : α) : Reads (pure a : Reader ε α) [] a := fun _ _ _ => rfl

variable {p : Reader ε α} {f : α → Reader ε β} {b₁ b₂ : List UInt8} {a : α} {b : β}

theorem Reads.bind (hp : Reads p b₁ a) (hf : Reads (f a) b₂ b) : Reads (p >>= f) (b₁ ++ b₂) b := by
  intro c tail hc
  rw [append_assoc] at hc
  rw [bind_of_ok (hp c _ hc), hf _ tail (Cursor.rest_advance_of_eq hc), Cursor.advance_advance,
    length_append]

/-- No encoding a reader accepts is a proper initial part of another one. -/
theorem Reads.unique {t₁ t₂ : List UInt8} {a₁ a₂ : α} (h₁ : Reads p b₁ a₁)
    (h₂ : Reads p b₂ a₂) (heq : b₁ ++ t₁ = b₂ ++ t₂) : b₁ = b₂ ∧ t₁ = t₂ ∧ a₁ = a₂ := by
  have hrun₁ := h₁ (Cursor.start (b₁ ++ t₁)) t₁ rfl
  have hrun₂ := h₂ (Cursor.start (b₁ ++ t₁)) t₂ heq
  rw [hrun₁] at hrun₂
  obtain ⟨ha, hc⟩ := Prod.mk.inj (Except.ok.inj hrun₂)
  have hlen : b₁.length = b₂.length := by
    have := congrArg Cursor.off hc
    simpa only [Cursor.advance_off, Cursor.start_off, Nat.zero_add] using this
  obtain ⟨hb, ht⟩ := append_inj heq hlen
  exact ⟨hb, ht, ha⟩

variable {bytes : List UInt8}

theorem Reads.bind_nil (hp : Reads p bytes a) (hf : Reads (f a) [] b) : Reads (p >>= f) bytes b := by
  simpa using hp.bind hf

variable {o : Option α} {e : ε}

theorem Reads.ofOption (h : o = some a) :
    Reads (ofOption o e) [] a := fun _ _ _ => ofOption_of_some h

theorem Reads.ofResult {x : Except ε α} (h : x = .ok a) : Reads (ofResult x) [] a :=
  fun _ _ _ => ofResult_of_ok h

variable {q : Prop}

theorem Reads.failIf [Decidable q] (h : ¬ q) : Reads (failIf q e) [] () :=
  fun _ _ _ => failIf_of_not h

theorem Reads.ofOption_bind (h : o = some a) (hf : Reads (f a) bytes b) :
    Reads (ByteCursor.ofOption o e >>= f) bytes b := (Reads.ofOption h).bind hf

theorem Reads.failIf_bind [Decidable q] {k : Unit → Reader ε β} (h : ¬ q) (hk : Reads (k ()) bytes b) :
    Reads (ByteCursor.failIf q e >>= k) bytes b := (Reads.failIf h).bind hk

theorem Reads.whenPresent [Decidable q] (hq : q) (hp : Reads p bytes a) : Reads (whenPresent q p) bytes (some a) :=
  fun c tail hc => whenPresent_of hq (hp c tail hc)

theorem Reads.whenPresent_not [Decidable q] (hq : ¬ q) :
    Reads (ByteCursor.whenPresent q p) [] none := fun _ _ _ => whenPresent_of_not hq

theorem reads_take {n : ℕ} (h : bytes.length = n) : Reads (take e n) bytes bytes := by
  intro c tail hc
  have hlen : n ≤ c.remaining := by
    rw [Cursor.remaining_of_eq hc, length_append]
    omega
  rw [take_of_le hlen, hc, ← h, take_left]

theorem Reads.start {tail : List UInt8} (hp : Reads p bytes a) :
    p (Cursor.start (bytes ++ tail)) = .ok (a, (Cursor.start (bytes ++ tail)).advance bytes.length) :=
  hp _ tail rfl

/-! ### Readers that look only at what they consume -/

/-- Every successful run of `p` is a run on the bytes it consumed. -/
def Local (p : Reader ε α) : Prop :=
  ∀ ⦃c a c'⦄, p c = .ok (a, c') →
    ∃ bytes, c.rest = bytes ++ c'.rest ∧ c' = c.advance bytes.length ∧ Reads p bytes a

theorem Local.pure (a : α) : Local (pure a : Reader ε α) := by
  intro c b c' h
  obtain ⟨rfl, rfl⟩ := pure_ok_inv h
  exact ⟨[], rfl, rfl, Reads.pure a⟩

theorem Local.bind (hp : Local p) (hf : ∀ a, Local (f a)) : Local (p >>= f) := by
  intro c b c' h
  obtain ⟨a, c₁, h₁, h₂⟩ := bind_ok h
  obtain ⟨b₁, hr₁, rfl, hR₁⟩ := hp h₁
  obtain ⟨b₂, hr₂, rfl, hR₂⟩ := hf a h₂
  refine ⟨b₁ ++ b₂, ?_, ?_, hR₁.bind hR₂⟩
  · rw [append_assoc, ← hr₂, ← hr₁]
  · rw [Cursor.advance_advance, length_append]

theorem Local.buf_eq (hp : Local p) {c c' : Cursor} (h : p c = .ok (a, c')) : c'.buf = c.buf := by
  obtain ⟨bytes, -, rfl, -⟩ := hp h
  rfl

theorem Local.map (g : α → β) (hp : Local p) : Local (g <$> p) := by
  exact hp.bind fun a => Local.pure (g a)

theorem Local.take (e : ε) (n : ℕ) : Local (take e n) := by
  intro c bytes c' h
  obtain ⟨hn, rfl, rfl⟩ := take_ok h
  have hlen : (c.rest.take n).length = n := by
    rw [length_take, Cursor.length_rest]
    omega
  refine ⟨c.rest.take n, ?_, by rw [hlen], reads_take hlen⟩
  rw [Cursor.rest_advance, take_append_drop]

theorem Local.whenPresent (q : Prop) [Decidable q] (hp : Local p) : Local (whenPresent q p) := by
  unfold ByteCursor.whenPresent
  split
  · exact hp.map some
  · exact Local.pure none

theorem Local.ofOption (o : Option α) (e : ε) : Local (ofOption o e) := by
  intro c a c' h
  obtain ⟨ho, rfl⟩ := ofOption_ok h
  exact ⟨[], rfl, rfl, Reads.ofOption ho⟩

theorem Local.ofResult (x : Except ε α) : Local (ofResult x) := by
  intro c a c' h
  obtain ⟨hx, rfl⟩ := ofResult_ok h
  exact ⟨[], rfl, rfl, Reads.ofResult hx⟩

theorem Local.failIf (q : Prop) [Decidable q] (e : ε) : Local (failIf q e) := by
  intro c a c' h
  obtain ⟨hq, rfl⟩ := failIf_ok h
  exact ⟨[], rfl, rfl, Reads.failIf hq⟩

/-! ### Readers that never move back -/

/-- Every successful run of `p` stays on the buffer and does not move back. -/
def Advances (p : Reader ε α) : Prop :=
  ∀ ⦃c a c'⦄, p c = .ok (a, c') → c'.buf = c.buf ∧ c.off ≤ c'.off

theorem Local.advances (hp : Local p) : Advances p := by
  intro c a c' h
  obtain ⟨bytes, -, rfl, -⟩ := hp h
  exact ⟨rfl, Nat.le_add_right _ _⟩

theorem Advances.bind (hp : Advances p) (hf : ∀ a, Advances (f a)) : Advances (p >>= f) := by
  intro c b c' h
  obtain ⟨a, c₁, h₁, h₂⟩ := bind_ok h
  obtain ⟨hb₁, ho₁⟩ := hp h₁
  obtain ⟨hb₂, ho₂⟩ := hf a h₂
  exact ⟨hb₂.trans hb₁, ho₁.trans ho₂⟩

end ByteCursor
