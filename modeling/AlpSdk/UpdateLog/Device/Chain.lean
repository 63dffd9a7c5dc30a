import AlpSdk.UpdateLog.Device.Rules
import AlpSdk.UpdateLog.Wire.Theorems

namespace AlpSdk.UpdateLog

-- A counter in the range of the sequence numbers is not the one recovery refuses.
theorem counter_ne_max {n : Nat} (h : n ≤ ULOG_SEQ_MAX + 1) : n ≠ UINT64_MAX := by
  simp only [ULOG_SEQ_MAX] at h
  simp only [UINT64_MAX]
  omega

namespace Store

variable {ulogSha256 : Blob → Digest} {store : Store}

@[simp] theorem write_self (store : Store) (key : Key) (blob : Blob) :
    store.write key blob key = some blob := by
  simp [write]

theorem write_ne {key other : Key} (blob : Blob) (h : other ≠ key) :
    store.write key blob other = store other := by
  simp [write, h]

theorem fetch_congr {other : Store} {key : Key} (h : other key = store key) (cap : Nat) :
    other.fetch key cap = store.fetch key cap := by
  simp only [fetch, h]

theorem fetch_eq_ok_iff {key : Key} {cap : Nat} {blob : Blob} :
    store.fetch key cap = .ok blob ↔ store key = some blob ∧ blob.length ≤ cap := by
  unfold fetch
  cases store key with
  | none => simp
  | some found =>
      dsimp only
      split
      · rename_i hlen
        simp only [reduceCtorEq, Option.some.injEq, false_iff, not_and]
        rintro rfl
        omega
      · rename_i hlen
        simp only [Except.ok.injEq, Option.some.injEq]
        constructor
        · rintro rfl
          exact ⟨rfl, by omega⟩
        · rintro ⟨rfl, -⟩
          rfl

theorem fetch_none {key : Key} (h : store key = none) (cap : Nat) :
    store.fetch key cap = .error .notFound := by
  simp [fetch, h]

theorem fetch_notFound_iff {key : Key} {cap : Nat} :
    store.fetch key cap = .error .notFound ↔ store key = none := by
  unfold fetch
  cases store key with
  | none => simp
  | some found =>
      dsimp only
      split <;> simp

theorem Slot.stored {seq : Nat} {wire : Blob} (h : store.Slot ulogSha256 seq wire) :
    store (entryKey seq) = some wire := (fetch_eq_ok_iff.mp h.1).1

theorem Slot.length {seq : Nat} {wire : Blob} (h : store.Slot ulogSha256 seq wire) :
    wire.length = ULOG_ENTRY_WIRE_LEN := by
  obtain ⟨hf, e, prev, hdec, -⟩ := h
  have hle := (fetch_eq_ok_iff.mp hf).2
  have hge := decode_length hdec
  omega

-- Two slots under one key carry one sequence number.
theorem Slot.seq_eq {i j : Nat} {wire other : Blob} (h : store.Slot ulogSha256 i wire)
    (h' : store.Slot ulogSha256 j other) (hkey : entryKey i = entryKey j) : i = j := by
  obtain ⟨hf, e, prev, hdec, hseq, -⟩ := h
  obtain ⟨hf', e', prev', hdec', hseq', -⟩ := h'
  rw [← hkey, hf] at hf'
  cases hf'
  rw [hdec] at hdec'
  cases hdec'
  exact hseq.symm.trans hseq'

theorem predHash_congr {other : Store} {seq : Nat}
    (h : seq ≠ 0 → other (entryKey (seq - 1)) = store (entryKey (seq - 1))) :
    other.predHash ulogSha256 seq = store.predHash ulogSha256 seq := by
  unfold predHash
  split
  · rfl
  · rw [fetch_congr (h ‹_›)]

-- What the slot `seq` holds depends on its own key and on the key of the slot below.
theorem slot_congr {other : Store} {seq : Nat} {wire : Blob}
    (hkey : other (entryKey seq) = store (entryKey seq))
    (hpred : seq ≠ 0 → other (entryKey (seq - 1)) = store (entryKey (seq - 1))) :
    other.Slot ulogSha256 seq wire ↔ store.Slot ulogSha256 seq wire := by
  unfold Slot
  rw [fetch_congr hkey, predHash_congr hpred]

theorem chainTo_congr {other : Store} {n : Nat}
    (h : ∀ i < n, other (entryKey i) = store (entryKey i)) :
    other.ChainTo ulogSha256 n ↔ store.ChainTo ulogSha256 n := by
  have hslot : ∀ i < n, ∀ wire, other.Slot ulogSha256 i wire ↔ store.Slot ulogSha256 i wire :=
    fun i hi wire => slot_congr (h i hi) fun _ => h (i - 1) (by omega)
  constructor <;> intro hc i hi
  · obtain ⟨wire, hs⟩ := hc i hi
    exact ⟨wire, (hslot i hi wire).mp hs⟩
  · obtain ⟨wire, hs⟩ := hc i hi
    exact ⟨wire, (hslot i hi wire).mpr hs⟩

theorem ChainTo.mono {n m : Nat} (h : store.ChainTo ulogSha256 n) (hm : m ≤ n) :
    store.ChainTo ulogSha256 m :=
  fun i hi => h i (by omega)

theorem ChainTo.succ {n : Nat} {wire : Blob} (h : store.ChainTo ulogSha256 n)
    (hs : store.Slot ulogSha256 n wire) : store.ChainTo ulogSha256 (n + 1) := by
  intro i hi
  by_cases he : i = n
  · subst he
    exact ⟨wire, hs⟩
  · exact h i (by omega)

-- The key of the slot past the bound aliases a slot of the chain, so the chain ends there.
theorem ChainTo.le_seqMax {n : Nat} (h : store.ChainTo ulogSha256 n) : n ≤ ULOG_SEQ_MAX + 1 := by
  by_contra hn
  obtain ⟨_, hlast⟩ := h (ULOG_SEQ_MAX + 1) (by omega)
  obtain ⟨_, halias⟩ := h (10 ^ 17) (by simp only [ULOG_SEQ_MAX] at hn ⊢; omega)
  have heq := hlast.seq_eq halias entryKey_seqMax_succ
  simp only [ULOG_SEQ_MAX] at heq
  omega

theorem ChainTo.ne_max {n m : Nat} (h : store.ChainTo ulogSha256 n) (hm : m ≤ n) :
    m ≠ UINT64_MAX :=
  counter_ne_max (Nat.le_trans hm h.le_seqMax)

theorem slot_write_meta {seq : Nat} {wire blob : Blob} :
    (store.write metaKey blob).Slot ulogSha256 seq wire ↔ store.Slot ulogSha256 seq wire :=
  slot_congr (write_ne blob (entryKey_ne_metaKey _)) fun _ => write_ne blob (entryKey_ne_metaKey _)

theorem chainTo_write_meta {n : Nat} {blob : Blob} :
    (store.write metaKey blob).ChainTo ulogSha256 n ↔ store.ChainTo ulogSha256 n :=
  chainTo_congr fun _ _ => write_ne blob (entryKey_ne_metaKey _)

-- The entry an append encodes for the slot `n` chains there once it is written.
theorem slot_write_entry {n : Nat} {entry : Entry} {prev : Digest} {wire : Blob}
    (hn : n ≤ ULOG_SEQ_MAX) (hpred : store.predHash ulogSha256 n = .ok prev)
    (henc : ulogEntryEncode { entry with seq := n } prev = .ok wire) :
    (store.write (entryKey n) wire).Slot ulogSha256 n wire := by
  have hlen := encode_length henc
  have hseq : n % 2 ^ 64 = n := Nat.mod_eq_of_lt (by simp only [ULOG_SEQ_MAX] at hn; omega)
  refine ⟨fetch_eq_ok_iff.mpr ⟨write_self _ _ _, by omega⟩, _, prev, decode_encode henc, hseq, ?_⟩
  rw [← hpred]
  apply predHash_congr
  intro hz
  apply write_ne
  intro hkey
  have := entryKey_injective (by omega) hn hkey
  omega

theorem chainTo_write_entry {n : Nat} {entry : Entry} {prev : Digest} {wire : Blob}
    (hn : n ≤ ULOG_SEQ_MAX) (hchain : store.ChainTo ulogSha256 n)
    (hpred : store.predHash ulogSha256 n = .ok prev)
    (henc : ulogEntryEncode { entry with seq := n } prev = .ok wire) :
    (store.write (entryKey n) wire).ChainTo ulogSha256 (n + 1) := by
  refine ChainTo.succ ((chainTo_congr fun i hi => ?_).mpr hchain) (slot_write_entry hn hpred henc)
  apply write_ne
  intro hkey
  have := entryKey_injective (by omega) hn hkey
  omega

theorem Slot.predHash_succ {seq : Nat} {wire : Blob} (h : store.Slot ulogSha256 seq wire) :
    store.predHash ulogSha256 (seq + 1) = .ok (ulogSha256 wire) := by
  simp only [predHash, Nat.add_one_ne_zero, if_false, Nat.add_sub_cancel, h.1]
  rfl

-- The predecessor of the slot after a chain can be hashed.
theorem ChainTo.predHash {n : Nat} (h : store.ChainTo ulogSha256 n) :
    ∃ link, store.predHash ulogSha256 n = .ok link := by
  cases n with
  | zero => exact ⟨zeroDigest, rfl⟩
  | succ n =>
      obtain ⟨wire, hs⟩ := h n (by omega)
      exact ⟨ulogSha256 wire, hs.predHash_succ⟩

-- The cached meta counts `n` entries and carries the hash of the last one.
def MetaAt (ulogSha256 : Blob → Digest) (store : Store) (n : Nat) : Prop :=
  n ≠ 0 → ∃ buf link, store.fetch metaKey ULOG_META_WIRE_LEN = .ok buf ∧
    ulogMetaDecode buf = .ok { count := n, headHash := link } ∧
    store.predHash ulogSha256 n = .ok link

theorem metaAt_write {n : Nat} {wire : Blob} (hs : store.Slot ulogSha256 n wire)
    (hn : n + 1 < 2 ^ 64) :
    (store.write metaKey (ulogMetaEncode { count := n + 1, headHash := ulogSha256 wire })).MetaAt
      ulogSha256 (n + 1) := by
  intro _
  refine ⟨_, ulogSha256 wire, fetch_eq_ok_iff.mpr ⟨write_self _ _ _, ?_⟩, ?_, ?_⟩
  · rw [metaEncode_length]
  · rw [metaDecode_metaEncode]
    simp only [Nat.mod_eq_of_lt hn]
  · exact (slot_write_meta.mpr hs).predHash_succ

end Store

end AlpSdk.UpdateLog
