import AlpSdk.UpdateLog.Wire.Theorems

-- Which buffers the decoder takes although no encoder writes them.
namespace AlpSdk.UpdateLog

open Library.Bytes

-- The entry with everything after the terminator of its version string cleared.
def Entry.cleared (e : Entry) : Entry :=
  { e with
    fwVersion := fun i =>
      if i.val < boundedLen (List.ofFn e.fwVersion) (ALP_UPDATE_LOG_FWVER_MAX + 1) then e.fwVersion i
      else 0 }

-- The length byte of the version string.
def nameLen (wire : Blob) : Nat := (wire.getD 19 0).toNat

-- The version string the decoder reads.
def nameOf (wire : Blob) : ByteArr 32 := fun i =>
  if i.val < nameLen wire then wire.getD (20 + i.val) 0 else 0

-- The buffer is refused for its version or its length byte, or it has what every encoding
-- has: a status that is one of the four outcomes, no NUL inside the version string, and
-- nothing but zeros after it.
def Canonical (wire : Blob) : Prop :=
  getU16 0 wire = ULOG_VERSION → nameLen wire ≤ ALP_UPDATE_LOG_FWVER_MAX →
    (wire.getD 10 0).toNat ≤ ALP_UPDATE_STATUS_PENDING_CONFIRM ∧
      (∀ i < nameLen wire, wire.getD (20 + i) 0 ≠ 0) ∧
        ∀ i, nameLen wire ≤ i → i < 31 → wire.getD (20 + i) 0 = 0

theorem canonical_eq_cleared {e : Entry} (hseq : e.seq < 2 ^ 64) (htime : e.timestamp < 2 ^ 64) :
    e.canonical = e.cleared := by
  simp only [Entry.canonical, Entry.cleared, Nat.mod_eq_of_lt hseq, Nat.mod_eq_of_lt htime]

section Decoded

variable {wire : Blob} {e : Entry} {prev : Digest}

-- What the decoder checks and what it returns.
theorem decode_ok (h : ulogEntryDecode wire = .ok (e, prev)) :
    getU16 0 wire = ULOG_VERSION ∧ nameLen wire ≤ ALP_UPDATE_LOG_FWVER_MAX ∧
      e = { seq := getU64 2 wire
            status := (wire.getD 10 0).toNat
            timestamp := getU64 11 wire
            fwVersion := nameOf wire
            imageHash := readArr 32 83 wire } ∧
      prev = readArr 32 51 wire := by
  unfold ulogEntryDecode at h
  dsimp only at h
  split_ifs at h with hlen hversion hname
  obtain ⟨rfl, rfl⟩ := Prod.mk.inj (Except.ok.inj h)
  exact ⟨Decidable.not_not.mp hversion, Nat.not_lt.mp hname, rfl, rfl⟩

theorem decode_of_checks (hlen : ULOG_ENTRY_WIRE_LEN ≤ wire.length)
    (hversion : getU16 0 wire = ULOG_VERSION) (hname : nameLen wire ≤ ALP_UPDATE_LOG_FWVER_MAX) :
    ∃ e prev, ulogEntryDecode wire = .ok (e, prev) := by
  have hname' : ¬(wire.getD 19 0).toNat > ALP_UPDATE_LOG_FWVER_MAX := Nat.not_lt.mpr hname
  unfold ulogEntryDecode
  rw [if_neg (Nat.not_lt.mpr hlen), if_neg (not_not.mpr hversion)]
  dsimp only
  rw [if_neg hname']
  exact ⟨_, _, rfl⟩

-- The terminator of a version string stands where its length byte says.
theorem boundedLen_decoded (hname : nameLen wire ≤ ALP_UPDATE_LOG_FWVER_MAX)
    (hchars : ∀ i < nameLen wire, wire.getD (20 + i) 0 ≠ 0) :
    boundedLen (List.ofFn (nameOf wire)) (ALP_UPDATE_LOG_FWVER_MAX + 1) = nameLen wire := by
  simp only [ALP_UPDATE_LOG_FWVER_MAX] at hname ⊢
  have htake : (List.ofFn (nameOf wire)).take (31 + 1) = List.ofFn (nameOf wire) := List.take_of_length_le (by simp)
  have hlen : nameLen wire < (List.ofFn (nameOf wire)).length := by
    rw [List.length_ofFn]
    omega
  have hnul : (List.ofFn (nameOf wire))[nameLen wire] = 0 := by
    rw [List.getElem_ofFn]
    exact if_neg (Nat.lt_irrefl _)
  have hfront : ∀ byte ∈ (List.ofFn (nameOf wire)).take (nameLen wire), decide (byte ≠ 0) = true := by
    intro byte hbyte
    obtain ⟨i, hi, rfl⟩ := List.mem_iff_getElem.mp hbyte
    have hlt : i < nameLen wire := by
      rw [List.length_take] at hi
      omega
    have hname : nameOf wire ⟨i, by omega⟩ = wire.getD (20 + i) 0 := if_pos hlt
    rw [List.getElem_take, List.getElem_ofFn, hname]
    exact decide_eq_true (hchars i hlt)
  have hsplit : List.ofFn (nameOf wire) = (List.ofFn (nameOf wire)).take (nameLen wire) ++
      (0 :: (List.ofFn (nameOf wire)).drop (nameLen wire + 1)) := by
    have hdrop := List.drop_eq_getElem_cons hlen
    rw [hnul] at hdrop
    rw [← hdrop, List.take_append_drop]
  rw [boundedLen, htake, hsplit, List.takeWhile_append_of_pos hfront]
  simp only [ne_eq, not_true_eq_false, decide_false, Bool.false_eq_true, not_false_eq_true,
    List.takeWhile_cons_of_neg, List.append_nil, List.length_take]
  omega

-- A buffer is the concatenation of its fields.
theorem wire_fields (hlen : wire.length = ULOG_ENTRY_WIRE_LEN) :
    slice 0 2 wire ++ (slice 2 8 wire ++ ([wire.getD 10 0] ++ (slice 11 8 wire ++
      ([wire.getD 19 0] ++ (slice 20 31 wire ++ (slice 51 32 wire ++ slice 83 32 wire)))))) = wire := by
  have hlast : slice 83 32 wire = wire.drop 83 := by
    rw [ULOG_ENTRY_WIRE_LEN] at hlen
    rw [slice, List.take_of_length_le (by rw [List.length_drop]; omega)]
  have hstatus : slice 10 1 wire = [wire.getD 10 0] := slice_one (by rw [hlen]; decide)
  have hname : slice 19 1 wire = [wire.getD 19 0] := slice_one (by rw [hlen]; decide)
  rw [hlast, slice_append_drop 51 32, slice_append_drop 20 31, ← hname, slice_append_drop 19 1,
    slice_append_drop 11 8, ← hstatus, slice_append_drop 10 1, slice_append_drop 2 8,
    slice_append_drop 0 2, List.drop_zero]

theorem name_bytes (hlen : wire.length = ULOG_ENTRY_WIRE_LEN)
    (hname : nameLen wire ≤ ALP_UPDATE_LOG_FWVER_MAX)
    (hpad : ∀ i, nameLen wire ≤ i → i < 31 → wire.getD (20 + i) 0 = 0) :
    (List.ofFn (nameOf wire)).take (nameLen wire) ++ List.replicate (31 - nameLen wire) 0 =
      slice 20 31 wire := by
  rw [ULOG_ENTRY_WIRE_LEN] at hlen
  rw [ALP_UPDATE_LOG_FWVER_MAX] at hname
  apply List.ext_getElem
  · rw [length_slice (by omega)]
    simp only [List.length_append, List.length_take, List.length_ofFn, List.length_replicate]
    omega
  · intro i hi hi'
    rw [length_slice (by omega)] at hi'
    rw [getElem_slice]
    by_cases hlt : i < nameLen wire
    · rw [List.getElem_append_left (by simp; omega), List.getElem_take, List.getElem_ofFn]
      exact if_pos hlt
    · rw [List.getElem_append_right (by simp; omega), List.getElem_replicate,
        hpad i (by omega) hi']

-- Encoding what was decoded gives the buffer back.
theorem encode_decoded (hlen : wire.length = ULOG_ENTRY_WIRE_LEN)
    (h : ulogEntryDecode wire = .ok (e, prev)) (hcanonical : Canonical wire) :
    ulogEntryEncode e prev = .ok wire := by
  obtain ⟨hversion, hname, rfl, rfl⟩ := decode_ok h
  obtain ⟨hstatus, hchars, hpad⟩ := hcanonical hversion hname
  have hbound := boundedLen_decoded hname hchars
  have hfields := wire_fields hlen
  have hnameBytes := name_bytes hlen hname hpad
  rw [encode_of_encodable ⟨by rw [hbound]; exact hname, hstatus⟩, hbound]
  rw [ULOG_ENTRY_WIRE_LEN] at hlen
  have hv : putU16 ULOG_VERSION = slice 0 2 wire := by
    have hput := putLE_getLE (slice 0 2 wire)
    rw [length_slice (by omega)] at hput
    rw [putU16, ← hversion, getU16, hput]
  have hseq : putU64 (getU64 2 wire) = slice 2 8 wire := by
    have hput := putLE_getLE (slice 2 8 wire)
    rw [length_slice (by omega)] at hput
    rw [putU64, getU64, hput]
  have htime : putU64 (getU64 11 wire) = slice 11 8 wire := by
    have hput := putLE_getLE (slice 11 8 wire)
    rw [length_slice (by omega)] at hput
    rw [putU64, getU64, hput]
  have hnameByte : UInt8.ofNat (nameLen wire) = wire.getD 19 0 := UInt8.ofNat_toNat
  simp only [entryBytes, hv, hseq, htime, hnameBytes, UInt8.ofNat_toNat, hnameByte]
  rw [ofFn_readArr (by omega), ofFn_readArr (by omega), hfields]

end Decoded

-- An encoding has no NUL inside its version string, zeros after it and a status in range.
theorem canonical_of_encode {e : Entry} {prev : Digest} {wire : Blob}
    (h : ulogEntryEncode e prev = .ok wire) : Canonical wire := by
  have hencodable := encodable_of_encode h
  rw [encode_of_encodable hencodable] at h
  cases h
  obtain ⟨hbound, hstatus⟩ := hencodable
  have hchars : ∀ i (hi : i < 32),
      i < boundedLen (List.ofFn e.fwVersion) (ALP_UPDATE_LOG_FWVER_MAX + 1) → e.fwVersion ⟨i, hi⟩ ≠ 0 := by
    intro i hi hlt
    have htake : (List.ofFn e.fwVersion).take 32 = List.ofFn e.fwVersion :=
      List.take_of_length_le (by simp)
    simp only [boundedLen, ALP_UPDATE_LOG_FWVER_MAX, htake] at hlt
    have hmem := List.getElem_mem hlt
    have hne := List.mem_takeWhile_imp hmem
    have hfront := List.takeWhile_prefix (fun byte : UInt8 => decide (byte ≠ 0)) (l := List.ofFn e.fwVersion)
    rw [hfront.getElem hlt, List.getElem_ofFn] at hne
    simpa using hne
  generalize boundedLen (List.ofFn e.fwVersion) (ALP_UPDATE_LOG_FWVER_MAX + 1) = vlen at hbound hchars ⊢
  simp only [ALP_UPDATE_LOG_FWVER_MAX, ALP_UPDATE_STATUS_PENDING_CONFIRM] at hbound hstatus
  have hname : nameLen (entryBytes e vlen prev) = vlen := entryBytes_vlen e vlen prev (by omega)
  intro _ _
  rw [hname]
  refine ⟨?_, fun i hi => ?_, fun i hi hlt => ?_⟩
  · rw [entryBytes_status e vlen prev (by omega)]
    exact hstatus
  · rw [entryBytes_fwVersion e vlen prev hbound i hi]
    exact hchars i (by omega) hi
  · exact entryBytes_padding e vlen prev i hi hlt

theorem exists_nul_of_encodable {e : Entry} (h : e.Encodable) : ∃ i, e.fwVersion i = 0 := by
  by_contra hnone
  have hne : ∀ i, e.fwVersion i ≠ 0 := fun i hi => hnone ⟨i, hi⟩
  have hall : (List.ofFn e.fwVersion).takeWhile (fun byte : UInt8 => decide (byte ≠ 0)) =
      List.ofFn e.fwVersion := by
    refine List.takeWhile_eq_self_iff.mpr fun byte hbyte => ?_
    obtain ⟨i, rfl⟩ := List.mem_ofFn.mp hbyte
    exact decide_eq_true (hne i)
  have htake : (List.ofFn e.fwVersion).take (31 + 1) = List.ofFn e.fwVersion :=
    List.take_of_length_le (by simp)
  have hbound := h.1
  simp only [boundedLen, ALP_UPDATE_LOG_FWVER_MAX, htake] at hbound
  rw [hall, List.length_ofFn] at hbound
  omega

-- The codec is exact on entries, and on exactly the buffers that are canonical.
theorem entry_codec_exact_iff (e : Entry) (prev : Digest) (wire : Blob) :
    (e.seq < 2 ^ 64 → e.timestamp < 2 ^ 64 → e.status ≤ ALP_UPDATE_STATUS_PENDING_CONFIRM →
      (∃ i, e.fwVersion i = 0) →
        ∃ encoded, ulogEntryEncode e prev = .ok encoded ∧ encoded.length = ULOG_ENTRY_WIRE_LEN ∧
          ulogEntryDecode encoded = .ok (e.cleared, prev)) ∧
    (wire.length = ULOG_ENTRY_WIRE_LEN →
      ((∀ e' prev', ulogEntryDecode wire = .ok (e', prev') →
        e'.status ≤ ALP_UPDATE_STATUS_PENDING_CONFIRM ∧ (∃ i, e'.fwVersion i = 0) ∧
          ulogEntryEncode e' prev' = .ok wire) ↔ Canonical wire)) := by
  refine ⟨fun hseq htime hstatus hnul => ?_, fun hlen => ⟨fun h => ?_, fun h e' prev' hdecode => ?_⟩⟩
  · obtain ⟨i, hi⟩ := hnul
    have hencode := encode_of_encodable ⟨boundedLen_le_of_nul e.fwVersion i hi, hstatus⟩ prev
    refine ⟨_, hencode, encode_length hencode, ?_⟩
    rw [decode_encode hencode, canonical_eq_cleared hseq htime]
  · intro hversion hname
    obtain ⟨e', prev', hdecode⟩ := decode_of_checks hlen.ge hversion hname
    exact canonical_of_encode (h e' prev' hdecode).2.2 hversion hname
  · have hencode := encode_decoded hlen hdecode h
    have hencodable := encodable_of_encode hencode
    exact ⟨hencodable.2, exists_nul_of_encodable hencodable, hencode⟩

-- A buffer with the status byte 4.
def statusFour : Blob := entryBytes ⟨0, fun _ => 0, zeroDigest, 4, 0⟩ 0 zeroDigest

theorem decoded_never_encoded :
    statusFour.length = ULOG_ENTRY_WIRE_LEN ∧ (ulogEntryDecode statusFour).isOk = true ∧
      ∀ e prev, ulogEntryEncode e prev ≠ .ok statusFour := by
  refine ⟨by decide, by decide +kernel, fun e prev h => ?_⟩
  have hstatus := (canonical_of_encode h (by decide +kernel) (by decide +kernel)).1
  revert hstatus
  decide +kernel

end AlpSdk.UpdateLog
