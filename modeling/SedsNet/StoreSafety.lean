import SedsNet.ArenaSafety
import SedsNet.Runs

/-! # Safety of the packet store

The store as a whole: the reference count of a slot is the number of handles and views of it, its
pin count is at least the number of its views, and every one of them still has the bytes that were
stored for it.  Over every run of operations the live slots are therefore those on the list, apart
from one another and within the capacity, every owner reads back its bytes, a pinned slot does not
move, and a slot becomes free only with the last of its owners. -/

namespace SedsNet

open LinkedChain Segments Runs List PacketCodec

variable {n : ℕ} {codec : PacketCodec}

/-! ### What an owner has -/

namespace ArenaState

variable {st st' st'' : ArenaState n} {i j : Fin n} {gained : Option (Fin n)} {data : Bytes}

/-- The slot holds the data, as it is or in chunks. -/
def Stored (codec : PacketCodec) (st : ArenaState n) (i : Fin n) (data : Bytes) : Prop :=
  if (st.slots i).compressed then
    ∃ enc : Encoder codec, st.contents i = PacketCodec.storedChunks enc (codec.chunks data)
  else st.contents i = data

structure Holds (codec : PacketCodec) (st : ArenaState n) (o : Owner n) : Prop where
  len : o.handle.len = o.data.length
  empty : o.handle.slot = none → o.data = []
  stored : ∀ i, o.handle.slot = some i → Stored codec st i o.data

/-- The counters of the slot are below the limit at which taking another handle panics. -/
def Unsaturated (st : ArenaState n) (h : StoredBytes n) : Prop :=
  ∀ i, h.slot = some i → (st.slots i).refs < usizeMax ∧ (st.slots i).pins < usizeMax

/-- Every way to read through a handle gives the data of its owner. -/
structure ReadsBack (codec : PacketCodec) (st : ArenaState n) (o : Owner n) : Prop where
  len : o.handle.len = o.data.length
  view : st.isCompressed o.handle = false → st.deref o.handle = o.data
  range : st.isCompressed o.handle = false → st.Unsaturated o.handle → ∀ offset m,
    offset + m ≤ o.data.length → st.readRange o.handle offset m = .ok ((o.data.drop offset).take m)
  decoded : st.Unsaturated o.handle → ∀ offset m scratch, codec.chunk ≤ scratch →
    offset + m ≤ o.data.length →
    st.codecReadRange codec o.handle offset m scratch = .ok ((o.data.drop offset).take m)

theorem Stored.congr (h : Stored codec st i data) (hcompressed : (st'.slots i).compressed = (st.slots i).compressed)
    (hcontents : st'.contents i = st.contents i) : Stored codec st' i data := by
  unfold Stored at h ⊢
  rw [hcompressed, hcontents]
  exact h

variable {f : Slot n → Slot n}

theorem contents_modify (hoffset : (f (st.slots i)).offset = (st.slots i).offset)
    (hlen : (f (st.slots i)).len = (st.slots i).len) : (st.modify i f).contents j = st.contents j := by
  unfold contents
  rw [offsetOf_modify, lenOf_modify, hoffset, hlen]
  change read st.bytes (Function.update st.offsetOf i (st.offsetOf i) j)
    (Function.update st.lenOf i (st.lenOf i) j) = _
  rw [Function.update_eq_self, Function.update_eq_self]

variable {h : StoredBytes n}

/-- A view taken of a slot with counters below their limits dereferences to the slot's bytes. -/
theorem pinEncoded_deref (hroom : st.Unsaturated h) :
    ∃ st', st.pinEncoded h = (st', .ok h) ∧ st'.deref h = st.deref h := by
  unfold pinEncoded clone retain deref
  cases hslot : h.slot with
  | none => exact ⟨st, rfl, rfl⟩
  | some i =>
    obtain ⟨hrefs, hpins⟩ := hroom i hslot
    dsimp only
    rw [if_pos hpins, slots_modify_self]
    rw [if_pos hrefs]
    refine ⟨_, rfl, ?_⟩
    rw [contents_modify rfl rfl, contents_modify rfl rfl]

variable {o : Owner n}

theorem Holds.view (h : Holds codec st o) (hplain : st.isCompressed o.handle = false) :
    st.deref o.handle = o.data := by
  unfold isCompressed at hplain
  unfold deref
  cases hslot : o.handle.slot with
  | none => exact (h.empty hslot).symm
  | some i =>
    have hstored := h.stored i hslot
    rw [hslot] at hplain
    dsimp only at hplain
    unfold Stored at hstored
    rw [hplain] at hstored
    exact hstored

theorem Holds.range (h : Holds codec st o) (hplain : st.isCompressed o.handle = false)
    (hroom : st.Unsaturated o.handle) {offset m : ℕ} (hle : offset + m ≤ o.data.length) :
    st.readRange o.handle offset m = .ok ((o.data.drop offset).take m) := by
  obtain ⟨st', hpin, hderef⟩ := pinEncoded_deref hroom
  unfold readRange pin
  rw [if_neg (by rw [h.len]; omega), if_neg (by rw [hplain]; simp), hpin]
  dsimp only
  rw [hderef, h.view hplain, if_neg (by omega)]

/-- A range is read back, unless the data is compressed and the scratch is too small for a chunk. -/
theorem Holds.decoded (h : Holds codec st o) (hroom : st.Unsaturated o.handle) {offset m : ℕ}
    (hle : offset + m ≤ o.data.length) (scratch : ℕ) :
    st.codecReadRange codec o.handle offset m scratch = .ok ((o.data.drop offset).take m) ∨
      st.isCompressed o.handle = true ∧ scratch < min codec.chunk o.data.length ∧
        st.codecReadRange codec o.handle offset m scratch = .error (.io "field decode scratch too small") := by
  unfold codecReadRange
  rw [if_neg (by rw [h.len]; omega)]
  cases hcompressed : st.isCompressed o.handle with
  | false =>
    exact .inl (h.range hcompressed hroom hle)
  | true =>
    rw [if_neg (by simp)]
    split_ifs with hzero
    · rw [hzero]
      exact .inl rfl
    obtain ⟨st', hpin, hderef⟩ := pinEncoded_deref hroom
    rw [hpin]
    dsimp only
    rw [hderef]
    unfold isCompressed at hcompressed
    split at hcompressed
    · cases hcompressed
    rename_i i hslot
    have hstored := h.stored i hslot
    unfold Stored at hstored
    rw [hcompressed] at hstored
    obtain ⟨enc, henc⟩ := hstored
    have hview : st.deref o.handle = storedChunks enc (codec.chunks o.data) := by
      unfold deref
      rw [hslot]
      exact henc
    exact (decodeFrom_chunks enc scratch hview hle).imp_right (And.intro rfl)

theorem Holds.readsBack (h : Holds codec st o) : ReadsBack codec st o where
  len := h.len
  view := h.view
  range hplain hroom _ _ hle := h.range hplain hroom hle
  decoded hroom offset m scratch hscratch hle := by
    obtain hok | ⟨-, hsmall, -⟩ := h.decoded hroom hle scratch
    · exact hok
    · omega

/-! ### What an operation changes -/

/-- An operation about one slot: the others are kept, and so is this one while it is live, but for its
counters. -/
structure Change (st st' : ArenaState n) (slot : Option (Fin n)) (refs pins : ℕ → ℕ) : Prop where
  sound : Sound st'
  capacity : st'.capacity = st.capacity
  keeps : ∀ i, slot ≠ some i → Keeps st st' i
  refs_eq : ∀ i, slot = some i → (st'.slots i).refs = refs (st.slots i).refs
  pins_eq : ∀ i, slot = some i → (st'.slots i).refs ≠ 0 → (st'.slots i).pins = pins (st.slots i).pins
  stays : ∀ i, slot = some i → (st.slots i).refs ≠ 0 → (st'.slots i).refs ≠ 0 →
    (st'.slots i).compressed = (st.slots i).compressed ∧ st'.contents i = st.contents i ∧
      st'.offsetOf i = st.offsetOf i

variable {slot : Fin n} {len : ℕ} {compressed : Bool} {r p r' p' : ℕ → ℕ}

theorem Change.of_stays (h : Stays st st') : Change st st' none r p where
  sound := h.sound
  capacity := h.capacity
  keeps i _ := h.keeps i
  refs_eq := nofun
  pins_eq := nofun
  stays := nofun

theorem Change.refl (h : Sound st) : Change st st none r p := .of_stays (Stays.refl h)

theorem Change.of_reserved (hst : Sound st) (h : Reserved st st' slot len compressed) :
    Change st st' (some slot) (· + 1) id := by
  refine ⟨h.sound, h.capacity, fun i hi => h.keeps i fun heq => hi (congrArg some heq.symm), ?_, ?_, ?_⟩
  · rintro i ⟨⟩
    rw [h.refs, h.free]
  · rintro i ⟨⟩ -
    rw [h.pins, hst.free slot h.free]
    rfl
  · rintro i ⟨⟩ hlive
    exact absurd h.free hlive

theorem Change.of_released (h : Released st st' i) : Change st st' (some i) (· - 1) id := by
  have hrefs := h.refs
  refine ⟨h.sound, h.capacity, fun j hj => h.keeps j fun heq => hj (congrArg some heq.symm), ?_, ?_, ?_⟩
  · rintro j ⟨⟩
    exact hrefs
  · rintro j ⟨⟩ hlive
    rw [(h.stays (by omega)).1]
    rfl
  · rintro j ⟨⟩ - hlive
    obtain ⟨hslot, hcontents⟩ := h.stays (by omega)
    refine ⟨by rw [hslot], hcontents, ?_⟩
    unfold offsetOf
    rw [hslot]

/-- The counters of a live slot change. -/
theorem Change.of_counters (h : Sound st) (hlive : (st.slots i).refs ≠ 0) (hrefs : r (st.slots i).refs ≠ 0) :
    Change st (st.modify i fun s => { s with refs := r s.refs, pins := p s.pins }) (some i) r p := by
  refine ⟨h.modify rfl rfl rfl hlive hrefs, rfl, fun j hj => Keeps.modify_of_ne fun heq => hj (congrArg some heq.symm),
    ?_, ?_, ?_⟩
  · rintro j ⟨⟩
    rw [slots_modify_self]
  · rintro j ⟨⟩ -
    rw [slots_modify_self]
  · rintro j ⟨⟩ - -
    refine ⟨by rw [slots_modify_self], contents_modify rfl rfl, ?_⟩
    unfold offsetOf
    rw [slots_modify_self]

/-- The views of a live slot are counted. -/
theorem counted_change (h : Sound st) (hlive : (st.slots i).refs ≠ 0) (p : ℕ → ℕ) :
    ∃ st', st.modify i (fun s => { s with pins := p s.pins }) = st' ∧ Change st st' (some i) id p ∧
      (st'.slots i).refs ≠ 0 := by
  refine ⟨_, rfl, .of_counters (r := id) (p := p) h hlive hlive, ?_⟩
  rw [slots_modify_self]
  exact hlive

/-- Two operations about one slot, which is live between them. -/
theorem Change.trans (h : Change st st' (some i) r p) (h' : Change st' st'' (some i) r' p')
    (hlive : (st'.slots i).refs ≠ 0) : Change st st'' (some i) (r' ∘ r) (p' ∘ p) := by
  refine ⟨h'.sound, h'.capacity.trans h.capacity, fun j hj => (h.keeps j hj).trans (h'.keeps j hj), ?_, ?_, ?_⟩
  · rintro j ⟨⟩
    rw [h'.refs_eq i rfl, h.refs_eq i rfl]
    rfl
  · rintro j ⟨⟩ hlive''
    rw [h'.pins_eq i rfl hlive'', h.pins_eq i rfl hlive]
    rfl
  · rintro j ⟨⟩ hlive₀ hlive''
    obtain ⟨hcompressed, hcontents, hoffset⟩ := h.stays i rfl hlive₀ hlive
    obtain ⟨hcompressed', hcontents', hoffset'⟩ := h'.stays i rfl hlive hlive''
    exact ⟨hcompressed'.trans hcompressed, hcontents'.trans hcontents, hoffset'.trans hoffset⟩

theorem Change.stored {slot : Option (Fin n)} (h : Change st st' slot r p) (hlive : (st.slots i).refs ≠ 0)
    (hlive' : (st'.slots i).refs ≠ 0) :
    (st'.slots i).compressed = (st.slots i).compressed ∧ st'.contents i = st.contents i := by
  by_cases hi : slot = some i
  · obtain ⟨hcompressed, hcontents, -⟩ := h.stays i hi hlive hlive'
    exact ⟨hcompressed, hcontents⟩
  · exact ⟨(h.keeps i hi).compressed, (h.keeps i hi).contents hlive⟩

theorem Reserved.withBytes (h : Reserved st st' slot len compressed) (bytes : ℕ → UInt8)
    (hwithin : ∀ a, a < st'.offsetOf slot ∨ st'.offsetOf slot + len ≤ a → bytes a = st'.bytes a) :
    Reserved st { st' with bytes } slot len compressed where
  sound := h.sound.withBytes bytes
  capacity := h.capacity
  free := h.free
  refs := h.refs
  pins := h.pins
  compressed_eq := h.compressed_eq
  lenOf := h.lenOf
  keeps j hj := by
    refine (h.keeps j hj).trans (Keeps.withBytes h.sound ?_ ?_ hj)
    · rw [h.refs]
      exact one_ne_zero
    · rw [h.lenOf]
      exact hwithin

theorem retain_change (h : Sound st) (hlive : (st.slots i).refs ≠ 0) (hok : st.retain i = .ok st') :
    Change st st' (some i) (· + 1) id := by
  unfold retain at hok
  split at hok
  case isFalse => cases hok
  injection hok with hok
  subst hok
  exact .of_counters (r := (· + 1)) (p := id) h hlive (Nat.succ_ne_zero _)

/-- An answer is right when it is an error and no reference was taken, or a handle that holds the data,
on a slot of its own when there is no source to share with. -/
structure Answers (codec : PacketCodec) (st : ArenaState n) (data : Bytes) (source : ℕ)
    (answer : ArenaState n × TelemetryResult (StoredBytes n)) : Prop where
  ok : ∀ h, answer.2 = .ok h → Change st answer.1 h.slot (· + 1) id ∧ Holds codec answer.1 ⟨h, data⟩ ∧
    (source = 0 → ∀ i, h.slot = some i → (st.slots i).refs = 0)
  error : ∀ e, answer.2 = .error e → ∃ slot, Change st answer.1 slot id id

variable {source : ℕ}

theorem Answers.of_error {e : TelemetryError} {slot : Option (Fin n)} (h : Change st st' slot id id) :
    Answers codec st data source (st', .error e) := ⟨fun _ hok => (by cases hok), fun _ _ => ⟨slot, h⟩⟩

theorem Answers.of_ok (hc : Change st st' h.slot (· + 1) id) (hholds : Holds codec st' ⟨h, data⟩)
    (hfresh : source = 0 → ∀ i, h.slot = some i → (st.slots i).refs = 0) :
    Answers codec st data source (st', .ok h) := by
  refine ⟨?_, fun _ herror => (by cases herror)⟩
  intro h' hok
  cases hok
  exact ⟨hc, hholds, hfresh⟩

theorem Answers.of_reserved (hst : Sound st) (h : Reserved st st' slot len compressed)
    (hstored : Stored codec st' slot data) : Answers codec st data source (st', .ok ⟨some slot, data.length⟩) := by
  refine .of_ok (.of_reserved hst h) ⟨rfl, fun hnone => (by cases hnone), ?_⟩ ?_
  · rintro i ⟨⟩
    exact hstored
  · rintro - i ⟨⟩
    exact h.free

theorem insertNew_answers (h : Sound st) (hdata : data ≠ []) (source : ℕ) :
    Answers codec st data source (st.insertNew data source) := by
  unfold insertNew
  rcases reserve_spec h (length_pos_iff.mpr hdata) false source with ⟨st₁, slot, hok, hres⟩ | ⟨st₁, e, herror, hstays⟩
  · rw [hok]
    have hwritten := hres.withBytes (write st₁.bytes (st₁.offsetOf slot) data) (by
      intro a ha
      rcases ha with ha | ha
      · exact write_of_lt ha
      · exact write_of_le ha)
    refine .of_reserved h hwritten ?_
    unfold Stored
    rw [hwritten.compressed_eq]
    unfold contents
    rw [hwritten.lenOf]
    exact read_write_self
  · rw [herror]
    exact Answers.of_error (.of_stays hstays)

theorem insert_answers (h : Sound st) (data : Bytes) (source : ℕ) :
    Answers codec st data source (st.insert data source) := by
  unfold insert
  split
  case isTrue hempty =>
    rw [List.isEmpty_iff] at hempty
    exact Answers.of_ok (.refl h) ⟨rfl, fun _ => hempty, fun i hi => (by cases hi)⟩
      fun _ i hi => (by cases hi)
  case isFalse hempty =>
    rw [List.isEmpty_iff] at hempty
    split
    next i hshared =>
      unfold sharedSlot at hshared
      split at hshared
      case isTrue => cases hshared
      rename_i hsource
      have hfound := List.find?_some hshared
      simp only [Bool.and_eq_true, bne_iff_ne, ne_eq, Bool.not_eq_true', beq_iff_eq] at hfound
      obtain ⟨⟨⟨⟨hlive, hplain⟩, -⟩, -⟩, hcontents⟩ := hfound
      split
      next st' hretain =>
        have hchange := retain_change h hlive hretain
        have hcount := hchange.refs_eq i rfl
        obtain ⟨hsame, hbytes⟩ := hchange.stored hlive (by omega)
        refine Answers.of_ok hchange ⟨rfl, fun hnone => (by cases hnone), ?_⟩ fun hzero => absurd hzero hsource
        intro k hk
        cases hk
        unfold Stored
        rw [hsame, hbytes, hplain]
        exact hcontents
      next e hretain => exact Answers.of_error (.refl h)
    next hshared => exact insertNew_answers h hempty source

/-! ### The codec writes what it measured -/

/-- The second pass stays within the measured bytes; when it uses all of them, they are the chunks. -/
theorem writeChunks_spec (enc : Encoder codec) (offset used : ℕ) (raws : List Bytes) :
    ∀ cursor (bytes : ℕ → UInt8), cursor ≤ used → ∃ out, writeChunks enc offset used cursor raws bytes = out ∧
      (∀ a, a < offset + cursor ∨ offset + used ≤ a → out.1 a = bytes a) ∧
      (out.2 = some used → read out.1 (offset + cursor) (used - cursor) = storedChunks enc raws) := by
  induction raws with
  | nil =>
    intro cursor bytes _
    refine ⟨_, rfl, fun _ _ => rfl, ?_⟩
    intro hall
    have hcursor : some cursor = some used := hall
    cases hcursor
    rw [Nat.sub_self]
    rfl
  | cons raw raws ih =>
    intro cursor bytes hcursor
    unfold writeChunks
    dsimp only
    have hlength := length_storedChunk enc raw
    split
    case isFalse => exact ⟨_, rfl, fun _ _ => rfl, fun hall => (by cases hall)⟩
    case isTrue hfits =>
      obtain ⟨result, hresult, hwithin, hchunks⟩ := ih _ (write bytes (offset + cursor) (storedChunk enc raw)) hfits
      refine ⟨result, hresult, ?_, ?_⟩
      · intro a ha
        rcases ha with ha | ha
        · rw [hwithin a (by omega), write_of_lt ha]
        · rw [hwithin a (by omega), write_of_le (by omega)]
      · intro hall
        have hsplit : used - cursor = (storedChunk enc raw).length +
            (used - (cursor + 8 + (encodeChunk enc raw).length)) := by omega
        have hbehind : offset + cursor + (storedChunk enc raw).length =
            offset + (cursor + 8 + (encodeChunk enc raw).length) := by omega
        rw [hsplit, read_add, hbehind, hchunks hall]
        have hfirst : read result.1 (offset + cursor) (storedChunk enc raw).length =
            storedChunk enc raw := by
          calc read result.1 (offset + cursor) (storedChunk enc raw).length
              = read (write bytes (offset + cursor) (storedChunk enc raw)) (offset + cursor)
                  (storedChunk enc raw).length := read_congr fun a _ ha => hwithin a (by omega)
            _ = storedChunk enc raw := read_write_self
        rw [hfirst]
        rfl

theorem fillSlot_answers {used : ℕ} (enc : Encoder codec) (hst : Sound st) (h : Reserved st st' slot used true) :
    Answers codec st data 0 (fillSlot enc st' slot data used) := by
  obtain ⟨written, hwritten, hwithin, hchunks⟩ :=
    writeChunks_spec enc (st'.offsetOf slot) used (codec.chunks data) 0 st'.bytes (Nat.zero_le _)
  unfold fillSlot
  rw [hwritten]
  dsimp only
  have hfilled := h.withBytes written.1 (by
    intro a ha
    exact hwithin a (by omega))
  split
  case isTrue hall =>
    refine .of_reserved hst hfilled ?_
    unfold Stored
    rw [hfilled.compressed_eq]
    refine ⟨enc, ?_⟩
    unfold contents
    rw [hfilled.lenOf]
    exact hchunks hall
  -- the slot was free before and is free again
  have hlive : ((({ st' with bytes := written.1 } : ArenaState n)).slots slot).refs ≠ 0 := by
    rw [hfilled.refs]
    exact one_ne_zero
  exact .of_error ((Change.of_reserved hst hfilled).trans (.of_released (release_spec hfilled.sound hlive)) hlive)

theorem measure_pos {enc : Encoder codec} {limit : ℕ} {raws : List Bytes} : ∀ {used result : ℕ},
    measure enc limit used raws = some result → used ≤ result ∧ (raws ≠ [] → used < result) := by
  induction raws with
  | nil =>
    intro used result hresult
    cases hresult
    exact ⟨le_refl _, fun hne => absurd rfl hne⟩
  | cons raw raws ih =>
    intro used result hresult
    unfold measure at hresult
    dsimp only at hresult
    split at hresult
    case isFalse => cases hresult
    have := (ih hresult).1
    exact ⟨by omega, fun _ => by omega⟩

theorem codecStore_answers (h : Sound st) (data : Bytes) (scratch : ℕ) (first second : Encoder codec) :
    Answers codec st data 0 (st.codecStore data scratch first second) := by
  unfold codecStore
  split
  case isTrue => exact insert_answers h data 0
  case isFalse hdata =>
    rw [not_or, List.isEmpty_iff] at hdata
    split
    next => exact insert_answers h data 0
    next used hused =>
      have hchunks : codec.chunks data ≠ [] := by
        intro hnil
        have hflat := @flatten_chunks codec data
        rw [hnil] at hflat
        exact hdata.1 hflat.symm
      have hpos : 0 < used := (measure_pos hused).2 hchunks
      rcases reserve_spec h hpos true 0 with ⟨st₁, slot, hok, hres⟩ | ⟨st₁, e, herror, hstays⟩
      · rw [hok]
        exact fillSlot_answers second h hres
      · rw [herror]
        exact Answers.of_error (.of_stays hstays)

end ArenaState

/-! ### The invariant of the store -/

namespace PacketStore

open ArenaState

variable {s : PacketStore n} {arena : ArenaState n} {o : Owner n} {os : List (Owner n)} {i : Fin n} {k : ℕ}

/-- The owners of a slot in a list. -/
def uses (os : List (Owner n)) (i : Fin n) : ℕ := os.countP fun o => o.handle.slot == some i

structure Inv (codec : PacketCodec) (s : PacketStore n) : Prop where
  sound : Sound s.arena
  refs : ∀ i, (s.arena.slots i).refs = uses s.handles i + uses s.views i
  pins : ∀ i, uses s.views i ≤ (s.arena.slots i).pins
  holds : ∀ o ∈ s.handles ++ s.views, Holds codec s.arena o
  plain : ∀ o ∈ s.views, s.arena.isCompressed o.handle = false

/-- The event drops a handle or a view of the slot. -/
def Drops (s : PacketStore n) (e : StoreEvent codec) (i : Fin n) : Prop :=
  ∃ k o, o.handle.slot = some i ∧ (e = .drop k ∧ s.handles[k]? = some o ∨ e = .unpin k ∧ s.views[k]? = some o)

/-- What holds across one operation: the invariant, pinned slots stay where they are, and a slot is
freed only by the drop of its last reference. -/
structure Safe (codec : PacketCodec) (s : PacketStore n) (e : StoreEvent codec) (s' : PacketStore n) : Prop where
  inv : Inv codec s'
  capacity : s'.arena.capacity = s.arena.capacity
  pinned : ∀ i, (s.arena.slots i).pins ≠ 0 → (s'.arena.slots i).refs ≠ 0 →
    s'.arena.offsetOf i = s.arena.offsetOf i
  freed : ∀ i, (s.arena.slots i).refs ≠ 0 → (s'.arena.slots i).refs = 0 →
    s.Drops e i ∧ (s.arena.slots i).refs = 1

theorem uses_append (os : List (Owner n)) (o : Owner n) (i : Fin n) :
    uses (os ++ [o]) i = uses os i + if o.handle.slot = some i then 1 else 0 := by
  unfold uses
  simp

theorem uses_pos (h : o ∈ os) (hslot : o.handle.slot = some i) : 0 < uses os i :=
  countP_pos_iff.mpr ⟨o, h, by simp [hslot]⟩

theorem uses_eraseIdx (h : os[k]? = some o) (i : Fin n) :
    uses os i = uses (os.eraseIdx k) i + if o.handle.slot = some i then 1 else 0 := by
  obtain ⟨hlt, hget⟩ := List.getElem?_eq_some_iff.mp h
  have hperm := getElem_cons_eraseIdx_perm hlt
  unfold uses
  rw [← hperm.countP_eq, countP_cons, hget]
  simp

theorem uses_ne_zero {handles views : List (Owner n)} (ho : o ∈ handles ++ views) (hslot : o.handle.slot = some i) :
    uses handles i + uses views i ≠ 0 := by
  rw [mem_append] at ho
  rcases ho with ho | ho
  · have := uses_pos ho hslot
    omega
  · have := uses_pos ho hslot
    omega

theorem Inv.live (h : Inv codec s) (ho : o ∈ s.handles ++ s.views) (hslot : o.handle.slot = some i) :
    (s.arena.slots i).refs ≠ 0 := by
  rw [h.refs]
  exact uses_ne_zero ho hslot

theorem isCompressed_congr {st st' : ArenaState n} (h : ∀ i, o.handle.slot = some i →
    (st'.slots i).compressed = (st.slots i).compressed) : st'.isCompressed o.handle = st.isCompressed o.handle := by
  unfold isCompressed
  cases hslot : o.handle.slot with
  | none => rfl
  | some i => exact h i hslot

variable {slot : Option (Fin n)} {r p : ℕ → ℕ}

/-- The owners after an operation are counted, and each of them had its data before or is new. -/
theorem Inv.next {handles views : List (Owner n)} (h : Inv codec s) (hc : Change s.arena arena slot r p)
    (hrefs : ∀ i, uses handles i + uses views i =
      if slot = some i then r (uses s.handles i + uses s.views i) else uses s.handles i + uses s.views i)
    (hpins : ∀ i pins, uses s.views i ≤ pins → uses views i ≤ if slot = some i then p pins else pins)
    (hholds : ∀ o ∈ handles ++ views, o ∈ s.handles ++ s.views ∨ Holds codec arena o)
    (hplain : ∀ o ∈ views, o ∈ s.handles ++ s.views ∧ s.arena.isCompressed o.handle = false) :
    Inv codec ⟨arena, handles, views⟩ := by
  have hcount : ∀ i, (arena.slots i).refs = uses handles i + uses views i := by
    intro i
    rw [hrefs]
    split_ifs with hi
    · rw [hc.refs_eq i hi, h.refs]
    · rw [(hc.keeps i hi).refs, h.refs]
  have hstored : ∀ o ∈ handles ++ views, o ∈ s.handles ++ s.views → ∀ i, o.handle.slot = some i →
      (arena.slots i).compressed = (s.arena.slots i).compressed ∧ arena.contents i = s.arena.contents i := by
    intro o ho hold i hslot
    refine hc.stored (h.live hold hslot) ?_
    rw [hcount]
    exact uses_ne_zero ho hslot
  refine ⟨hc.sound, hcount, ?_, ?_, ?_⟩
  · intro i
    have hle := hpins i _ (h.pins i)
    dsimp only
    split_ifs at hle with hi
    · by_cases hfree : (arena.slots i).refs = 0
      · rw [hcount] at hfree
        omega
      · rw [hc.pins_eq i hi hfree]
        exact hle
    · rw [(hc.keeps i hi).pins]
      exact hle
  · intro o ho
    obtain hold | hnew := hholds o ho
    · have hkept := h.holds o hold
      refine ⟨hkept.len, hkept.empty, ?_⟩
      intro i hslot
      obtain ⟨hcompressed, hcontents⟩ := hstored o ho hold i hslot
      exact (hkept.stored i hslot).congr hcompressed hcontents
    · exact hnew
  · intro o ho
    obtain ⟨hold, hbefore⟩ := hplain o ho
    rw [← hbefore]
    exact isCompressed_congr fun i hslot => (hstored o (mem_append_right _ ho) hold i hslot).1

section Steps

variable {s' : PacketStore n} (h : Inv codec s)
include h

variable (e : StoreEvent codec)

theorem Safe.of_change (hc : Change s.arena s'.arena slot r p) (hinv : Inv codec s')
    (hfreed : ∀ i k, slot = some i → r (k + 1) = 0 → s.Drops e i ∧ k = 0) :
    Safe codec s e s' where
  inv := hinv
  capacity := hc.capacity
  pinned i hpins hlive := by
    by_cases hi : slot = some i
    · exact (hc.stays i hi (fun hfree => hpins (h.sound.free i hfree)) hlive).2.2
    · exact (hc.keeps i hi).pinned hpins
  freed i hlive hfree := by
    by_cases hi : slot = some i
    · obtain ⟨k, hk⟩ := Nat.exists_eq_succ_of_ne_zero hlive
      rw [hc.refs_eq i hi, hk] at hfree
      obtain ⟨hdrops, rfl⟩ := hfreed i k hi hfree
      exact ⟨hdrops, hk⟩
    · rw [(hc.keeps i hi).refs] at hfree
      exact absurd hfree hlive

/-! ### One operation -/

theorem Inv.same_safe (hc : Change s.arena arena slot id p) (hp : ∀ k, k ≤ p k) :
    Safe codec s e { s with arena } := by
  refine .of_change h e hc (h.next hc ?_ ?_ (fun _ ho => .inl ho) ?_) fun i k _ hzero => by cases hzero
  · intro i
    rw [id, ite_self]
  · intro i pins hle
    split_ifs
    · exact hle.trans (hp pins)
    · exact hle
  · exact fun o ho => ⟨mem_append_right _ ho, h.plain o ho⟩

theorem Inv.gain_safe (hc : Change s.arena arena o.handle.slot (· + 1) id)
    (ho : o ∈ s.handles ∨ Holds codec arena o) : Safe codec s e { s with arena, handles := s.handles ++ [o] } := by
  refine .of_change h e hc (h.next hc ?_ ?_ ?_ ?_) fun i k _ hzero => by cases hzero
  · intro i
    rw [uses_append]
    split_ifs
    · omega
    · rfl
  · intro i pins hle
    rw [id, ite_self]
    exact hle
  · intro o' ho'
    rw [append_assoc, mem_append, singleton_append, mem_cons] at ho'
    rcases ho' with ho' | rfl | ho'
    · exact .inl (mem_append_left _ ho')
    · exact ho.imp_left (mem_append_left _)
    · exact .inl (mem_append_right _ ho')
  · exact fun o ho => ⟨mem_append_right _ ho, h.plain o ho⟩

theorem keep_safe {data : Bytes} {source : ℕ} {answer : ArenaState n × TelemetryResult (StoredBytes n)}
    (ha : Answers codec s.arena data source answer) :
    Safe codec s e (s.keep data answer) := by
  obtain ⟨arena, result⟩ := answer
  cases result with
  | ok handle =>
    obtain ⟨hchange, hholds, -⟩ := ha.ok handle rfl
    exact h.gain_safe e hchange (.inr hholds)
  | error err =>
    obtain ⟨slot, hchange⟩ := ha.error err rfl
    exact h.same_safe e hchange fun _ => le_rfl

theorem cloneOwner_safe (ho : o ∈ s.handles) : Safe codec s e (s.cloneOwner o) := by
  unfold cloneOwner
  split
  next arena hok =>
    refine h.gain_safe e ?_ (.inl ho)
    unfold ArenaState.clone at hok
    split at hok
    next hslot =>
      cases hok
      rw [hslot]
      exact .refl h.sound
    next i hslot =>
      rw [hslot]
      exact retain_change h.sound (h.live (mem_append_left _ ho) hslot) hok
  next => exact h.same_safe e (.refl h.sound) fun _ => le_rfl

/-- A pin of a live slot: it is counted, and then the handle is cloned or that panics. -/
theorem pin_change (ho : o ∈ s.handles) :
    (∃ arena, s.arena.pin o.handle = (arena, .ok o.handle) ∧ Change s.arena arena o.handle.slot (· + 1) (· + 1) ∧
        s.arena.isCompressed o.handle = false) ∨
      ∃ arena e slot p, s.arena.pin o.handle = (arena, .error e) ∧ Change s.arena arena slot id p ∧ ∀ k, k ≤ p k := by
  unfold pin
  split
  case isTrue => exact .inr ⟨_, _, none, id, rfl, .refl h.sound, fun _ => le_rfl⟩
  case isFalse hplain =>
    rw [Bool.not_eq_true] at hplain
    unfold pinEncoded ArenaState.clone
    cases hslot : o.handle.slot with
    | none => exact .inl ⟨_, rfl, .refl h.sound, hplain⟩
    | some i =>
      have hlive := h.live (mem_append_left _ ho) hslot
      dsimp only
      split
      case isFalse => exact .inr ⟨_, _, none, id, rfl, .refl h.sound, fun _ => le_rfl⟩
      obtain ⟨arena, harena, hcounted, hlive'⟩ := counted_change h.sound hlive (· + 1)
      rw [harena]
      split
      next arena hretain =>
        exact .inl ⟨arena, rfl, hcounted.trans (retain_change hcounted.sound hlive' hretain) hlive', hplain⟩
      next e hretain => exact .inr ⟨_, _, some i, _, rfl, hcounted, Nat.le_succ⟩

theorem pinOwner_safe (ho : o ∈ s.handles) : Safe codec s e (s.pinOwner o) := by
  unfold pinOwner
  rcases pin_change h ho with ⟨arena, hpin, hchange, hplain⟩ | ⟨arena, err, slot, p, hpin, hchange, hp⟩
  · rw [hpin]
    refine .of_change h e hchange (h.next hchange ?_ ?_ ?_ ?_) fun i k _ hzero => by cases hzero
    · intro i
      rw [uses_append]
      split_ifs
      · omega
      · rfl
    · intro i pins hle
      rw [uses_append]
      split_ifs
      · omega
      · exact hle
    · intro o' ho'
      rw [← append_assoc, mem_append, mem_singleton] at ho'
      rcases ho' with ho' | rfl
      · exact .inl ho'
      · exact .inl (mem_append_left _ ho)
    · intro o' ho'
      rw [mem_append, mem_singleton] at ho'
      rcases ho' with ho' | rfl
      · exact ⟨mem_append_right _ ho', h.plain o' ho'⟩
      · exact ⟨mem_append_left _ ho, hplain⟩
  · rw [hpin]
    exact h.same_safe e hchange hp

theorem drop_safe (hk : s.handles[k]? = some o) :
    Safe codec s (.drop k) { s with arena := s.arena.drop o.handle, handles := s.handles.eraseIdx k } := by
  have ho := mem_append_left s.views (mem_of_getElem? hk)
  have hchange : Change s.arena (s.arena.drop o.handle) o.handle.slot (· - 1) id := by
    unfold ArenaState.drop
    cases hslot : o.handle.slot with
    | none => exact .refl h.sound
    | some i => exact .of_released (release_spec h.sound (h.live ho hslot))
  refine .of_change h _ hchange (h.next hchange ?_ ?_ ?_ ?_) ?_
  · intro i
    rw [uses_eraseIdx hk]
    split_ifs
    · omega
    · rfl
  · intro i pins hle
    rw [id, ite_self]
    exact hle
  · intro o' ho'
    rw [mem_append] at ho' ⊢
    exact .inl (ho'.imp_left mem_of_mem_eraseIdx)
  · exact fun o ho => ⟨mem_append_right _ ho, h.plain o ho⟩
  · exact fun i m hslot hzero => ⟨⟨k, o, hslot, .inl ⟨rfl, hk⟩⟩, hzero⟩

theorem unpin_safe (hk : s.views[k]? = some o) :
    Safe codec s (.unpin k) { s with arena := s.arena.unpin o.handle, views := s.views.eraseIdx k } := by
  have ho := mem_append_right s.handles (mem_of_getElem? hk)
  have hchange : Change s.arena (s.arena.unpin o.handle) o.handle.slot (· - 1) (· - 1) := by
    unfold unpin
    cases hslot : o.handle.slot with
    | none => exact .refl h.sound
    | some i =>
      have hlive := h.live ho hslot
      obtain ⟨arena, harena, hcounted, hlive'⟩ := counted_change h.sound hlive (· - 1)
      dsimp only
      rw [harena]
      exact hcounted.trans (.of_released (release_spec hcounted.sound hlive')) hlive'
  refine .of_change h _ hchange (h.next hchange ?_ ?_ ?_ ?_) ?_
  · intro i
    rw [uses_eraseIdx hk]
    split_ifs
    · omega
    · rfl
  · intro i pins hle
    rw [uses_eraseIdx hk] at hle
    split_ifs at hle ⊢
    · omega
    · exact hle
  · intro o' ho'
    rw [mem_append] at ho' ⊢
    exact .inl (ho'.imp_right mem_of_mem_eraseIdx)
  · exact fun o' ho' => ⟨mem_append_right _ (mem_of_mem_eraseIdx ho'), h.plain o' (mem_of_mem_eraseIdx ho')⟩
  · exact fun i m hslot hzero => ⟨⟨k, o, hslot, .inr ⟨rfl, hk⟩⟩, hzero⟩

theorem step_safe : Safe codec s e (s.step e) := by
  have hsame : Safe codec s e s := h.same_safe e (.refl h.sound) fun _ => le_rfl
  cases e with
  | store data => exact keep_safe h _ (insert_answers h.sound data 0)
  | storeShared data source => exact keep_safe h _ (insert_answers h.sound data source)
  | codecStore data scratch first second => exact keep_safe h _ (codecStore_answers h.sound data scratch first second)
  | clone k =>
    unfold step
    dsimp only
    split
    next o hk => exact cloneOwner_safe h _ (mem_of_getElem? hk)
    next => exact hsame
  | drop k =>
    unfold step
    dsimp only
    split
    next o hk => exact drop_safe h hk
    next => exact hsame
  | pin k =>
    unfold step
    dsimp only
    split
    next o hk => exact pinOwner_safe h _ (mem_of_getElem? hk)
    next => exact hsame
  | unpin k =>
    unfold step
    dsimp only
    split
    next o hk => exact unpin_safe h hk
    next => exact hsame
  | compact => exact h.same_safe _ (.of_stays (compact_stays h.sound)) fun _ => le_rfl

end Steps

/-! ### Runs -/

theorem new_inv (n capacity movableLimit : ℕ) : Inv codec (new n capacity movableLimit) where
  sound := by
    refine Sound.of_list (l := []) rfl (Nat.zero_le _) ?_ (fun _ _ => rfl)
    simp [new]
  refs i := rfl
  pins i := le_refl _
  holds o ho := absurd ho not_mem_nil
  plain o ho := absurd ho not_mem_nil

theorem run_inv (n capacity movableLimit : ℕ) (es : List (StoreEvent codec)) :
    Inv codec (run step (new n capacity movableLimit) es) ∧
      (run step (new n capacity movableLimit) es).arena.capacity = capacity := by
  refine run_always (I := fun s => Inv codec s ∧ s.arena.capacity = capacity) ?_
    ⟨new_inv n capacity movableLimit, rfl⟩ es
  rintro s e ⟨hinv, hcap⟩
  have hsafe := step_safe hinv e
  exact ⟨hsafe.inv, hsafe.capacity.trans hcap⟩

/-- After every run of operations the live slots are those on the list from `head`, at increasing
offsets, apart from one another and within the capacity; handles and views read back what was stored
for them; and the next operation neither moves a pinned slot nor frees a slot other than by the drop
of its last reference. -/
theorem arena_safety (codec : PacketCodec) (n capacity movableLimit : ℕ) (es : List (StoreEvent codec)) :
    let s := run step (new n capacity movableLimit) es
    Linked s.arena.nextOf s.arena.head s.arena.order ∧
      (∀ i, i ∈ s.arena.order ↔ (s.arena.slots i).refs ≠ 0) ∧
      s.arena.order.Pairwise (fun i j => s.arena.offsetOf i < s.arena.offsetOf j) ∧
      s.arena.order.Pairwise (fun i j => s.arena.offsetOf i + s.arena.lenOf i ≤ s.arena.offsetOf j) ∧
      (∀ i ∈ s.arena.order, s.arena.offsetOf i + s.arena.lenOf i ≤ capacity) ∧
      (∀ o ∈ s.handles ++ s.views, ReadsBack codec s.arena o) ∧
      (∀ o ∈ s.views, s.arena.deref o.handle = o.data) ∧
      ∀ e : StoreEvent codec,
        (∀ i, (s.arena.slots i).pins ≠ 0 → ((s.step e).arena.slots i).refs ≠ 0 →
          (s.step e).arena.offsetOf i = s.arena.offsetOf i) ∧
        ∀ i, (s.arena.slots i).refs ≠ 0 → ((s.step e).arena.slots i).refs = 0 →
          s.Drops e i ∧ (s.arena.slots i).refs = 1 := by
  intro s
  obtain ⟨h, hcap⟩ : Inv codec s ∧ s.arena.capacity = capacity := run_inv n capacity movableLimit es
  refine ⟨h.sound.linked, h.sound.live, ?_, h.sound.layout.pairwise, ?_, ?_, ?_, ?_⟩
  · refine h.sound.layout.pairwise.imp_of_mem ?_
    intro i j hi _ hle
    have := (h.sound.layout.mem hi).2.1
    omega
  · intro i hi
    rw [← hcap]
    exact (h.sound.layout.mem hi).2.2
  · exact fun o ho => (h.holds o ho).readsBack
  · intro o ho
    exact (h.holds o (mem_append_right _ ho)).readsBack.view (h.plain o ho)
  · intro e
    exact ⟨(step_safe h e).pinned, (step_safe h e).freed⟩

/-- **No leaks**: after every run a slot counts its handles and views, and it is in use only as long as there
is one. -/
theorem slots_owned (codec : PacketCodec) (n capacity movableLimit : ℕ) (es : List (StoreEvent codec)) (i : Fin n) :
    let s := run step (new n capacity movableLimit) es
    (s.arena.slots i).refs = uses (s.handles ++ s.views) i ∧
      (i ∈ s.arena.order ↔ ∃ o ∈ s.handles ++ s.views, o.handle.slot = some i) := by
  intro s
  have h : Inv codec s := (run_inv n capacity movableLimit es).1
  have hrefs : (s.arena.slots i).refs = uses (s.handles ++ s.views) i := by
    rw [h.refs, uses, uses, uses, countP_append]
  refine ⟨hrefs, ?_⟩
  rw [h.sound.live, hrefs, uses, ← Nat.pos_iff_ne_zero, countP_pos_iff]
  simp

/-- **Range reads**: a range of a payload that was stored by the codec, in chunks or plain, is read
back from the arena; a compressed payload needs scratch for a chunk. -/
theorem codec_range_read {codec : PacketCodec} (n capacity movableLimit : ℕ) (es : List (StoreEvent codec)) (data : Bytes)
    (scratch : ℕ) (first second : Encoder codec) {arena : ArenaState n} {handle : StoredBytes n}
    (hstore : (run step (new n capacity movableLimit) es).arena.codecStore data scratch first second = (arena, .ok handle))
    (offset m : ℕ) (hrange : offset + m ≤ data.length) (room : ℕ) :
    arena.codecReadRange codec handle offset m room = .ok ((data.drop offset).take m) ∨
      arena.isCompressed handle = true ∧ room < min codec.chunk data.length ∧
        arena.codecReadRange codec handle offset m room = .error (.io "field decode scratch too small") := by
  have hsound := (run_inv n capacity movableLimit es).1.sound
  have hanswer := codecStore_answers hsound data scratch first second
  rw [hstore] at hanswer
  obtain ⟨hchange, hholds, hfresh⟩ := hanswer.ok handle rfl
  refine hholds.decoded ?_ hrange room
  intro i hslot
  have hfree := hfresh rfl i hslot
  have hrefs := hchange.refs_eq i hslot
  rw [hfree] at hrefs
  rw [hrefs, hchange.pins_eq i hslot (by omega), hsound.free i hfree]
  decide

/-- Runs of one byte compress to that byte. -/
def runCodec : PacketCodec where
  decompress out len := out.head?.map (replicate len)
  chunk := 16
  chunk_pos := by decide
  chunk_lt := by decide

def runEncoder : Encoder runCodec where
  compress raw := if raw = replicate raw.length (raw.headD 0) ∧ raw ≠ [] then some [raw.headD 0] else none
  nonempty h := by
    split at h
    · cases h
      exact cons_ne_nil _ _
    · cases h
  decompress_eq h := by
    split at h
    · cases h
      rename_i hrun
      exact congrArg some hrun.1.symm
    · cases h

/-- A range across two chunks of a compressed payload, and one of a payload that is stored plain. -/
theorem codec_range_read_sample :
    (∃ arena handle, (new 2 64 64).arena.codecStore (replicate 20 7) 16 runEncoder runEncoder = (arena, .ok handle) ∧
      arena.isCompressed handle = true ∧ arena.codecReadRange runCodec handle 14 4 16 = .ok [7, 7, 7, 7]) ∧
    ∃ arena handle, (new 2 64 64).arena.codecStore [1, 2, 3] 16 runEncoder runEncoder = (arena, .ok handle) ∧
      arena.isCompressed handle = false ∧ arena.codecReadRange runCodec handle 1 2 0 = .ok [2, 3] := by
  constructor
  · refine ⟨_, _, rfl, by decide +kernel, ?_⟩
    obtain hok | ⟨-, hsmall, -⟩ := codec_range_read 2 64 64 [] (replicate 20 7) 16 runEncoder runEncoder rfl 14 4
      (by decide) 16
    · exact hok
    · exact absurd hsmall (by decide)
  · refine ⟨_, _, rfl, by decide +kernel, ?_⟩
    obtain hok | ⟨hcompressed, -, -⟩ := codec_range_read 2 64 64 [] [1, 2, 3] 16 runEncoder runEncoder rfl 1 2
      (by decide) 0
    · exact hok
    · exact absurd hcompressed (by decide +kernel)

end PacketStore

end SedsNet
