import AlpSdk.UpdateLog.Wire
import Mathlib.Tactic.IntervalCases
import Mathlib.Data.List.TakeWhile

namespace AlpSdk.UpdateLog

open Library.Bytes

-- What the encoder checks: the version string ends inside its 32 bytes, and the status
-- is one of the four outcomes.
def Entry.Encodable (e : Entry) : Prop :=
  boundedLen (List.ofFn e.fwVersion) (ALP_UPDATE_LOG_FWVER_MAX + 1) ≤ ALP_UPDATE_LOG_FWVER_MAX ∧
    e.status ≤ ALP_UPDATE_STATUS_PENDING_CONFIRM

instance (e : Entry) : Decidable e.Encodable := inferInstanceAs (Decidable (_ ∧ _))

theorem boundedLen_le_of_nul (fw : ByteArr 32) (i : Fin 32) (hi : fw i = 0) :
    boundedLen (List.ofFn fw) (ALP_UPDATE_LOG_FWVER_MAX + 1) ≤ ALP_UPDATE_LOG_FWVER_MAX := by
  by_contra hlen
  have htake : (List.ofFn fw).take 32 = List.ofFn fw := List.take_of_length_le (by simp)
  have hsub := List.takeWhile_sublist (fun byte : UInt8 => decide (byte ≠ 0)) (l := List.ofFn fw)
  have hfull : (List.ofFn fw).takeWhile (fun byte : UInt8 => decide (byte ≠ 0)) = List.ofFn fw := by
    apply hsub.eq_of_length_le
    simp only [boundedLen, ALP_UPDATE_LOG_FWVER_MAX, htake] at hlen
    simp only [List.length_ofFn]
    omega
  have hne := List.takeWhile_eq_self_iff.mp hfull (fw i) (List.mem_ofFn.mpr ⟨i, rfl⟩)
  simp [hi] at hne

theorem encode_of_encodable {e : Entry} (h : e.Encodable) (prev : Digest) :
    ulogEntryEncode e prev = .ok (entryBytes e
      (boundedLen (List.ofFn e.fwVersion) (ALP_UPDATE_LOG_FWVER_MAX + 1)) prev) := by
  simp only [ulogEntryEncode, if_neg (Nat.not_lt.mpr h.1), if_neg (Nat.not_lt.mpr h.2)]

theorem encodable_of_encode {e : Entry} {prev : Digest} {wire : Blob}
    (h : ulogEntryEncode e prev = .ok wire) : e.Encodable := by
  unfold ulogEntryEncode at h
  dsimp only at h
  split at h
  · cases h
  · split at h
    · cases h
    · exact ⟨by omega, by omega⟩

theorem length_entryBytes (e : Entry) (vlen : Nat) (prev : Digest) (hv : vlen ≤ 31) :
    (entryBytes e vlen prev).length = ULOG_ENTRY_WIRE_LEN := by
  simp only [entryBytes, putU16, putU64, List.length_append, length_putLE, List.length_cons,
    List.length_nil, List.length_take, List.length_ofFn, List.length_replicate, ULOG_ENTRY_WIRE_LEN]
  omega

section Layout

variable (e : Entry) (vlen : Nat) (prev : Digest)

theorem entryBytes_version : getU16 0 (entryBytes e vlen prev) = ULOG_VERSION := by
  rw [getU16, entryBytes, slice_head 2 _ _ (by simp [putU16]), putU16, getLE_putLE]
  rfl

theorem entryBytes_seq : getU64 2 (entryBytes e vlen prev) = e.seq % 2 ^ 64 := by
  rw [getU64, entryBytes, slice_skip _ _ _ _ (by simp [putU16])]
  simp only [putU16, length_putLE, Nat.sub_self]
  rw [slice_head 8 _ _ (by simp [putU64]), putU64, getLE_putLE]
  rfl

theorem entryBytes_timestamp : getU64 11 (entryBytes e vlen prev) = e.timestamp % 2 ^ 64 := by
  rw [getU64, entryBytes, slice_skip _ _ _ _ (by simp [putU16]),
    slice_skip _ _ _ _ (by simp [putU16, putU64]), slice_skip _ _ _ _ (by simp [putU16, putU64])]
  simp only [putU16, putU64, length_putLE, List.length_singleton, Nat.reduceSub]
  rw [slice_head 8 _ _ (by simp), getLE_putLE]
  rfl

theorem entryBytes_status (h : e.status < 256) :
    ((entryBytes e vlen prev).getD 10 0).toNat = e.status := by
  rw [entryBytes, getD_skip _ _ _ (by simp [putU16]), getD_skip _ _ _ (by simp [putU16, putU64])]
  simp only [putU16, putU64, length_putLE, Nat.reduceSub, List.singleton_append, List.getD_cons_zero,
    UInt8.toNat_ofNat']
  omega

theorem entryBytes_vlen (h : vlen < 256) :
    ((entryBytes e vlen prev).getD 19 0).toNat = vlen := by
  rw [entryBytes, getD_skip _ _ _ (by simp [putU16]), getD_skip _ _ _ (by simp [putU16, putU64]),
    getD_skip _ _ _ (by simp [putU16, putU64]), getD_skip _ _ _ (by simp [putU16, putU64])]
  simp only [putU16, putU64, length_putLE, List.length_singleton, Nat.reduceSub,
    List.singleton_append, List.getD_cons_zero, UInt8.toNat_ofNat']
  omega

-- The part of the buffer that starts with the version string.
private theorem entryBytes_drop_twenty : ∃ front : Blob, front.length = 20 ∧
    entryBytes e vlen prev = front ++ (((List.ofFn e.fwVersion).take vlen ++
      List.replicate (31 - vlen) 0) ++ (List.ofFn prev ++ List.ofFn e.imageHash)) := by
  refine ⟨putU16 ULOG_VERSION ++ (putU64 e.seq ++ ([UInt8.ofNat e.status] ++
    (putU64 e.timestamp ++ [UInt8.ofNat vlen]))), by simp [putU16, putU64], ?_⟩
  simp only [entryBytes, List.append_assoc]

theorem entryBytes_fwVersion (hv : vlen ≤ 31) (i : Nat) (hi : i < vlen) :
    (entryBytes e vlen prev).getD (20 + i) 0 = e.fwVersion ⟨i, by omega⟩ := by
  obtain ⟨front, hfront, heq⟩ := entryBytes_drop_twenty e vlen prev
  rw [heq, getD_skip _ _ _ (by omega), show 20 + i - front.length = i by omega,
    List.getD_eq_getElem?_getD, List.getElem?_append_left (by simp; omega),
    List.getElem?_append_left (by simp; omega), List.getElem?_take_of_lt hi, List.getElem?_ofFn,
    dif_pos (show i < 32 by omega), Option.getD_some]

theorem entryBytes_padding (i : Nat) (hi : vlen ≤ i) (hlt : i < 31) :
    (entryBytes e vlen prev).getD (20 + i) 0 = 0 := by
  obtain ⟨front, hfront, heq⟩ := entryBytes_drop_twenty e vlen prev
  rw [heq, getD_skip _ _ _ (by omega), show 20 + i - front.length = i by omega,
    List.getD_eq_getElem?_getD, List.getElem?_append_left (by simp; omega),
    List.getElem?_append_right (by simp; omega), List.getElem?_replicate_of_lt (by simp; omega),
    Option.getD_some]

-- The version string is padded to 31 bytes, so the two hashes stand at fixed offsets.
private theorem entryBytes_drop_fiftyOne (hv : vlen ≤ 31) : ∃ front : Blob, front.length = 51 ∧
    entryBytes e vlen prev = front ++ (List.ofFn prev ++ List.ofFn e.imageHash) := by
  obtain ⟨front, hfront, heq⟩ := entryBytes_drop_twenty e vlen prev
  refine ⟨front ++ ((List.ofFn e.fwVersion).take vlen ++ List.replicate (31 - vlen) 0), ?_, ?_⟩
  · simp only [List.length_append, hfront, List.length_take, List.length_ofFn,
      List.length_replicate]
    omega
  · simp only [heq, List.append_assoc]

theorem entryBytes_prevHash (hv : vlen ≤ 31) : readArr 32 51 (entryBytes e vlen prev) = prev := by
  obtain ⟨front, hfront, heq⟩ := entryBytes_drop_fiftyOne e vlen prev hv
  rw [heq, readArr_skip _ _ _ _ (by omega), show 51 - front.length = 0 by omega, readArr_head]

theorem entryBytes_imageHash (hv : vlen ≤ 31) :
    readArr 32 83 (entryBytes e vlen prev) = e.imageHash := by
  obtain ⟨front, hfront, heq⟩ := entryBytes_drop_fiftyOne e vlen prev hv
  rw [heq, readArr_skip _ _ _ _ (by omega), readArr_skip _ _ _ _ (by simp; omega),
    show 83 - front.length - (List.ofFn prev).length = 0 by simp; omega, readArr_ofFn]

end Layout

-- The entry the decoder returns: the integers modulo 2^64, and the version string with
-- everything after its terminator cleared.
def Entry.canonical (e : Entry) : Entry :=
  let vlen := boundedLen (List.ofFn e.fwVersion) (ALP_UPDATE_LOG_FWVER_MAX + 1)
  { e with
    seq := e.seq % 2 ^ 64
    timestamp := e.timestamp % 2 ^ 64
    fwVersion := fun i => if i.val < vlen then e.fwVersion i else 0 }

section Encoded

variable {e : Entry} {prev : Digest} {wire : Blob}

theorem encode_length (h : ulogEntryEncode e prev = .ok wire) :
    wire.length = ULOG_ENTRY_WIRE_LEN := by
  have he := encodable_of_encode h
  rw [encode_of_encodable he prev] at h
  cases h
  exact length_entryBytes e _ prev he.1

theorem decode_encode (h : ulogEntryEncode e prev = .ok wire) :
    ulogEntryDecode wire = .ok (e.canonical, prev) := by
  have he := encodable_of_encode h
  have hlen := encode_length h
  rw [encode_of_encodable he prev] at h
  cases h
  obtain ⟨hv, hs⟩ := he
  simp only [Entry.canonical]
  generalize boundedLen (List.ofFn e.fwVersion) (ALP_UPDATE_LOG_FWVER_MAX + 1) = vlen at hv hlen ⊢
  simp only [ALP_UPDATE_LOG_FWVER_MAX, ALP_UPDATE_STATUS_PENDING_CONFIRM] at hv hs
  have hbyte := entryBytes_vlen e vlen prev (by omega)
  have hfw : (fun i : Fin 32 => if i.val < vlen then (entryBytes e vlen prev).getD (20 + i.val) 0
      else 0) = fun i => if i.val < vlen then e.fwVersion i else 0 := by
    funext i
    split
    · exact entryBytes_fwVersion e vlen prev hv i.val ‹_›
    · rfl
  simp only [ulogEntryDecode, ALP_UPDATE_LOG_FWVER_MAX, hlen, lt_irrefl, if_false, hbyte,
    entryBytes_version, ne_eq, not_true_eq_false, gt_iff_lt, Nat.not_lt.mpr hv, entryBytes_seq,
    entryBytes_timestamp, entryBytes_status e vlen prev (show e.status < 256 by omega),
    entryBytes_prevHash e vlen prev hv, entryBytes_imageHash e vlen prev hv, hfw]

end Encoded

theorem decode_length {wire : Blob} {e : Entry} {prev : Digest}
    (h : ulogEntryDecode wire = .ok (e, prev)) : ULOG_ENTRY_WIRE_LEN ≤ wire.length := by
  unfold ulogEntryDecode at h
  split at h
  · cases h
  · omega

theorem metaEncode_length (m : Meta) : (ulogMetaEncode m).length = ULOG_META_WIRE_LEN := by
  simp [ulogMetaEncode, putU16, putU32, putU64, ULOG_META_WIRE_LEN]

theorem metaDecode_metaEncode (m : Meta) :
    ulogMetaDecode (ulogMetaEncode m) = .ok { m with count := m.count % 2 ^ 64 } := by
  have hversion : getU16 0 (ulogMetaEncode m) = ULOG_VERSION := by
    rw [getU16, ulogMetaEncode, slice_head 2 _ _ (by simp [putU16]), putU16, getLE_putLE]
    rfl
  have hmagic : getU32 2 (ulogMetaEncode m) = ULOG_META_MAGIC := by
    rw [getU32, ulogMetaEncode, slice_skip _ _ _ _ (by simp [putU16])]
    simp only [putU16, length_putLE, Nat.sub_self]
    rw [slice_head 4 _ _ (by simp [putU32]), putU32, getLE_putLE]
    rfl
  have hcount : getU64 6 (ulogMetaEncode m) = m.count % 2 ^ 64 := by
    rw [getU64, ulogMetaEncode, slice_skip _ _ _ _ (by simp [putU16]),
      slice_skip _ _ _ _ (by simp [putU16, putU32])]
    simp only [putU16, putU32, length_putLE, Nat.reduceSub]
    rw [slice_head 8 _ _ (by simp [putU64]), putU64, getLE_putLE]
    rfl
  have hhead : readArr 32 14 (ulogMetaEncode m) = m.headHash := by
    rw [ulogMetaEncode, readArr_skip _ _ _ _ (by simp [putU16]),
      readArr_skip _ _ _ _ (by simp [putU16, putU32]),
      readArr_skip _ _ _ _ (by simp [putU16, putU32, putU64])]
    simp only [putU16, putU32, putU64, length_putLE, Nat.reduceSub]
    exact readArr_ofFn 32 m.headHash
  simp [ulogMetaDecode, metaEncode_length, hversion, hmagic, hcount, hhead]

end AlpSdk.UpdateLog
