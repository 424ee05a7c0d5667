import SedsNet.WireRewrite

/-! # Side-transport framing

The wrapper of `side_transport.rs`: a magic, a kind byte, a body and a checksum.  Canonical frames
carry no magic of their own.  They are told apart by their first byte: the encryption flag is set
in the first letter of the magic and clear in every plain frame. -/

namespace SedsNet

open ByteWords List

abbrev sideTransportKindFull : UInt8 := 0x01
abbrev sideTransportKindCompact : UInt8 := 0x02
abbrev sideTransportKindChunk : UInt8 := 0x03
abbrev sideTransportKindCompactDelta : UInt8 := 0x04
abbrev sideTransportKindCompactSameTimestamp : UInt8 := 0x05

/-- `b"SDT"`. -/
def sideTransportMagic : Bytes := [0x53, 0x44, 0x54]

/-- `wrap_side_transport_frame`. -/
def wrapSideTransportFrame (env : WireEnv) (kind : UInt8) (body : Bytes) : Bytes :=
  appendCrc32 env (sideTransportMagic ++ kind :: body)

/-- `parse_side_transport_wrapper`: the kind and the body of a wrapped frame. -/
def parseSideTransportWrapper (env : WireEnv) (bytes : Bytes) :
    TelemetryResult (Option (UInt8 × Bytes)) :=
  if bytes.length < sideTransportMagic.length + 1 + crc32Bytes then .ok none
  else if bytes.take sideTransportMagic.length ≠ sideTransportMagic then .ok none
  else
    let dataLen := bytes.length - crc32Bytes
    let expected := UInt32.ofNat (ofLe (bytes.drop dataLen))
    let data := bytes.take dataLen
    if env.crc32 data ≠ expected then .error (.unpack "side transport crc32 mismatch")
    else
      .ok (some (data.getD sideTransportMagic.length 0, data.drop (sideTransportMagic.length + 1)))

theorem parseSideTransportWrapper_wrap (env : WireEnv) (kind : UInt8) (body : Bytes) :
    parseSideTransportWrapper env (wrapSideTransportFrame env kind body) = .ok (some (kind, body)) := by
  have hlen : (wrapSideTransportFrame env kind body).length = body.length + 8 := by
    simp [wrapSideTransportFrame, appendCrc32, sideTransportMagic]
  have htake : (wrapSideTransportFrame env kind body).take (body.length + 4) =
      sideTransportMagic ++ kind :: body := by
    unfold wrapSideTransportFrame appendCrc32
    rw [take_append_of_le_length (by simp [sideTransportMagic])]
    exact take_of_length_le (by simp [sideTransportMagic])
  have hdrop : (wrapSideTransportFrame env kind body).drop (body.length + 4) =
      leBytes 4 (env.crc32 (sideTransportMagic ++ kind :: body)).toNat := by
    exact drop_left' (by simp [sideTransportMagic])
  have hmagic : (wrapSideTransportFrame env kind body).take sideTransportMagic.length =
      sideTransportMagic := by
    simp [wrapSideTransportFrame, appendCrc32, sideTransportMagic]
  have hfit : (env.crc32 (sideTransportMagic ++ kind :: body)).toNat < 256 ^ 4 :=
    (env.crc32 _).toNat_lt
  unfold parseSideTransportWrapper
  simp only [hlen, hmagic, crc32Bytes, show body.length + 8 - 4 = body.length + 4 by omega, htake,
    hdrop, ofLe_leBytes_of_lt hfit, UInt32.ofNat_toNat, ne_eq, not_true_eq_false, if_false]
  rfl

theorem parseSideTransportWrapper_some {env : WireEnv} {bytes body : Bytes} {kind : UInt8}
    (h : parseSideTransportWrapper env bytes = .ok (some (kind, body))) :
    bytes = wrapSideTransportFrame env kind body := by
  unfold parseSideTransportWrapper at h
  split at h
  · cases h
  split at h
  · cases h
  rename_i hmagic
  simp only at h
  split at h
  · cases h
  rename_i hcrc
  rw [Except.ok.injEq, Option.some.injEq, Prod.mk.injEq] at h
  obtain ⟨hkind, hbody⟩ := h
  simp only [sideTransportMagic, crc32Bytes, length_cons, length_nil] at *
  set data := bytes.take (bytes.length - 4) with hdata
  have htail : (bytes.drop (bytes.length - 4)).length = 4 := by
    rw [length_drop]
    omega
  have hsum : leBytes 4 (env.crc32 data).toNat = bytes.drop (bytes.length - 4) := by
    have hlt := ofLe_lt (bytes.drop (bytes.length - 4))
    rw [htail, show 256 ^ 4 = 2 ^ 32 by norm_num] at hlt
    have hword := leBytes_ofLe (bytes.drop (bytes.length - 4))
    rw [htail] at hword
    rw [not_not.mp hcrc, UInt32.toNat_ofNat', Nat.mod_eq_of_lt hlt, hword]
  have hsplit : data = [0x53, 0x44, 0x54] ++ kind :: body := by
    have h3 : data.take 3 = [0x53, 0x44, 0x54] := by
      rw [take_take, Nat.min_eq_left (by omega), not_not.mp hmagic]
    have h4 : data.drop 3 = kind :: body := by
      have hlt : 3 < data.length := by
        rw [length_take]
        omega
      rw [drop_eq_getElem_cons hlt, ← hbody, ← hkind, getD_eq_getElem _ _ hlt]
    rw [← take_append_drop 3 data, h3, h4]
  rw [wrapSideTransportFrame, appendCrc32, sideTransportMagic, ← hsplit, hsum, take_append_drop]

/-- A frame without the encryption flag does not start with the magic. -/
theorem Unsealed.not_magic {frame : Bytes} (h : Unsealed frame) : ¬ sideTransportMagic <+: frame := by
  obtain ⟨first, rest, rfl, hfirst⟩ := h
  rintro ⟨tail, htail⟩
  cases htail
  exact absurd hfirst (by decide)

theorem parseSideTransportWrapper_of_not_magic {env : WireEnv} {bytes : Bytes}
    (h : ¬ sideTransportMagic <+: bytes) : parseSideTransportWrapper env bytes = .ok none := by
  unfold parseSideTransportWrapper
  split
  · rfl
  · rw [if_pos]
    intro heq
    exact h (heq ▸ take_prefix _ _)

theorem parseSideTransportWrapper_error {env : WireEnv} {bytes : Bytes} {e : TelemetryError}
    (h : parseSideTransportWrapper env bytes = .error e) : sideTransportMagic <+: bytes := by
  by_contra hnot
  rw [parseSideTransportWrapper_of_not_magic hnot] at h
  cases h

/-- Plain frames never start with the magic and are parsed as unwrapped; a wrapper is seen exactly
on the frames the side transport makes, and a wrapper error only behind the magic. -/
theorem framing_disambiguation (env : WireEnv) : (∀ frame, PlainFrame frame →
      ¬ sideTransportMagic <+: frame ∧ parseSideTransportWrapper env frame = .ok none) ∧
    (∀ frame kind body, parseSideTransportWrapper env frame = .ok (some (kind, body)) ↔
      frame = wrapSideTransportFrame env kind body) ∧ (∀ frame e, parseSideTransportWrapper env frame = .error e →
      sideTransportMagic <+: frame ∧ ¬ PlainFrame frame) := by
  refine ⟨?_, ?_, ?_⟩
  · intro frame h
    exact ⟨h.unsealed.not_magic, parseSideTransportWrapper_of_not_magic h.unsealed.not_magic⟩
  · intro frame kind body
    constructor
    · exact parseSideTransportWrapper_some
    · rintro rfl
      exact parseSideTransportWrapper_wrap env kind body
  · intro frame e h
    have hmagic := parseSideTransportWrapper_error h
    exact ⟨hmagic, fun hplain => hplain.unsealed.not_magic hmagic⟩

theorem framing_disambiguation_ack : parseSideTransportWrapper (plainEnv sampleRegistry)
      (packReliableAck (plainEnv sampleRegistry) [0x47, 0x53] 100 7 3) = .ok none :=
  ((framing_disambiguation (plainEnv sampleRegistry)).1 _ (.packReliableAck _ _ _ _ _)).2

end SedsNet
