import AlpSdk.UpdateLog.Tiers.Simulation

namespace AlpSdk.UpdateLog

open Library.Bytes

section Parse

-- The number the digits denote when read after `v`, most significant digit first.
def decimalFrom (v : Nat) (digits : Key) : Nat :=
  digits.foldl (fun v c => v * 10 + digitValue c) v

theorem decimalFrom_cons (v : Nat) (c : Char) (rest : Key) :
    decimalFrom v (c :: rest) = decimalFrom (v * 10 + digitValue c) rest := by
  simp only [decimalFrom, List.foldl_cons]

theorem le_decimalFrom (digits : Key) (v : Nat) : v ≤ decimalFrom v digits := by
  induction digits generalizing v with
  | nil => exact Nat.le_refl v
  | cons c rest ih =>
      have hnext := ih (v * 10 + digitValue c)
      rw [decimalFrom_cons]
      omega

theorem decimalFrom_reverse (digits : Key) : decimalFrom 0 digits.reverse = digitsValue digits := by
  induction digits with
  | nil => rfl
  | cons c rest ih =>
      unfold decimalFrom at ih ⊢
      simp only [List.reverse_cons, List.foldl_append, ih, List.foldl_cons, List.foldl_nil,
        digitsValue]
      omega

-- A range check that is `v * 10 + digit ≤ max` reads the whole number or finds it too big.
theorem parseDecimal_eq {overflows : Nat → Nat → Bool} {max : Nat}
    (hover : ∀ v digit, digit < 10 → (overflows v digit = true ↔ max < v * 10 + digit))
    (digits : Key) (hdigits : ∀ c ∈ digits, '0' ≤ c ∧ c ≤ '9') (v : Nat) (hv : v ≤ max) :
    parseDecimal overflows v digits =
      if decimalFrom v digits ≤ max then .ok (decimalFrom v digits) else .error .nomem := by
  induction digits generalizing v with
  | nil => simp [parseDecimal, decimalFrom, hv]
  | cons c rest ih =>
      have hc := hdigits c (by simp)
      have hrange : ¬(c < '0' ∨ '9' < c) := by
        rw [not_or, Char.not_lt, Char.not_lt]
        exact hc
      have hten : digitValue c < 10 := by
        have hle : c.toNat ≤ 57 := hc.2
        simp only [digitValue]
        omega
      have hrest : ∀ c ∈ rest, '0' ≤ c ∧ c ≤ '9' := fun c hc => hdigits c (by simp [hc])
      rw [decimalFrom_cons]
      simp only [parseDecimal, hrange, if_false]
      by_cases hbig : max < v * 10 + digitValue c
      · -- the value only grows with further digits
        have hlow := le_decimalFrom rest (v * 10 + digitValue c)
        rw [if_pos ((hover v _ hten).mpr hbig), if_neg (by omega)]
      · rw [if_neg (fun h => hbig ((hover v _ hten).mp h))]
        exact ih hrest _ (by omega)

theorem kbufDigits_range (room v : Nat) : ∀ c ∈ kbufDigits room v, '0' ≤ c ∧ c ≤ '9' := by
  induction room generalizing v with
  | zero => simp [kbufDigits]
  | succ room ih =>
      intro c hc
      simp only [kbufDigits, List.mem_cons] at hc
      rcases hc with rfl | hc
      · have hlt : v % 10 < 10 := Nat.mod_lt v (by omega)
        generalize v % 10 = digit at hlt
        interval_cases digit <;> decide
      · split at hc
        · simp at hc
        · exact ih _ c hc

theorem kbufDigits_ne_nil (v : Nat) : kbufDigits 20 v ≠ [] := by
  simp [kbufDigits]

-- Both parsers recover the sequence number from the key of an entry in range.
theorem parseDecimal_entryKey {overflows : Nat → Nat → Bool} (max : Nat)
    (hover : ∀ v digit, digit < 10 → (overflows v digit = true ↔ max < v * 10 + digit))
    {seq : Nat} (hseq : seq ≤ ULOG_SEQ_MAX) :
    parseDecimal overflows 0 ((entryKey seq).drop 5) = if seq ≤ max then .ok seq else .error .nomem := by
  have hdrop : (entryKey seq).drop 5 = (kbufDigits 20 seq).reverse := by
    rw [entryKey_eq_of_le seq hseq]
    rfl
  have hvalue : digitsValue (kbufDigits 20 seq) = seq :=
    digitsValue_kbufDigits 20 seq (by simp only [ULOG_SEQ_MAX] at hseq; omega)
  have hdigits : ∀ c ∈ (kbufDigits 20 seq).reverse, '0' ≤ c ∧ c ≤ '9' :=
    fun c hc => kbufDigits_range 20 seq c (List.mem_reverse.mp hc)
  rw [hdrop, parseDecimal_eq hover _ hdigits 0 (Nat.zero_le max), decimalFrom_reverse, hvalue]

theorem entryKey_parts {seq : Nat} (hseq : seq ≤ ULOG_SEQ_MAX) :
    ¬((entryKey seq).take 5 ≠ ['u', 'l', 'o', 'g', '.'] ∨ (entryKey seq).drop 5 = []) := by
  rw [entryKey_eq_of_le seq hseq]
  simp [kbufDigits_ne_nil]

theorem swNvsKeyToId_entryKey {seq : Nat} (hseq : seq ≤ ULOG_SEQ_MAX) :
    swNvsKeyToId (entryKey seq) =
      if seq ≤ SW_NVS_ENTRY_MAX then .ok (SW_NVS_ID_ENTRY_BASE + seq) else .error .nomem := by
  unfold swNvsKeyToId
  rw [if_neg (entryKey_ne_metaKey seq), if_neg (entryKey_parts hseq),
    parseDecimal_entryKey SW_NVS_ENTRY_MAX (by simp) hseq]
  split <;> rfl

theorem uidForKey_entryKey {seq : Nat} (hseq : seq ≤ ULOG_SEQ_MAX) :
    uidForKey (entryKey seq) =
      if seq > ULOG_UID_MAX_30BIT - ULOG_UID_ENTRY_BASE then .error .nomem
      else .ok (ULOG_UID_ENTRY_BASE + seq, true) := by
  have hover : ∀ v digit, digit < 10 →
      (decide (v > (UINT64_MAX - digit) / 10) = true ↔ UINT64_MAX < v * 10 + digit) := by
    intro v digit hd
    rw [decide_eq_true_iff]
    simp only [UINT64_MAX]
    omega
  have hin : seq ≤ UINT64_MAX := by
    simp only [ULOG_SEQ_MAX] at hseq
    simp only [UINT64_MAX]
    omega
  unfold uidForKey parseEntryKey
  rw [if_neg (entryKey_ne_metaKey seq), if_neg (entryKey_parts hseq),
    parseDecimal_entryKey UINT64_MAX hover hseq, if_pos hin]

end Parse

section IdMap

-- Records under numeric ids that stand for a store: one id for the meta, and the entries
-- from a base on.
structure IdMap (metaId base max : Nat) (records : Nat → Option Blob) (store : Store) : Prop where
  cached : records metaId = store metaKey
  entry : ∀ i ≤ max, records (base + i) = store (entryKey i)

variable {metaId base max : Nat} {records : Nat → Option Blob} {store : Store}

theorem IdMap.write_meta (h : IdMap metaId base max records store) (hbase : metaId < base)
    (blob : Blob) :
    IdMap metaId base max (Function.update records metaId (some blob)) (store.write metaKey blob) := by
  refine ⟨?_, ?_⟩
  · rw [Function.update_self, Store.write_self]
  · intro j hj
    rw [Function.update_of_ne (by omega), h.entry j hj]
    exact (Store.write_ne blob (entryKey_ne_metaKey j)).symm

theorem IdMap.write_entry (h : IdMap metaId base max records store) (hbase : metaId < base)
    (hmax : max ≤ ULOG_SEQ_MAX) {i : Nat} (hi : i ≤ max) (blob : Blob) :
    IdMap metaId base max (Function.update records (base + i) (some blob))
      (store.write (entryKey i) blob) := by
  refine ⟨?_, ?_⟩
  · rw [Function.update_of_ne (by omega), h.cached]
    exact (Store.write_ne blob (entryKey_ne_metaKey i).symm).symm
  · intro j hj
    by_cases heq : j = i
    · rw [heq, Function.update_self, Store.write_self]
    · have hkey : entryKey j ≠ entryKey i := by
        intro hkey
        exact heq (entryKey_injective (by omega) (by omega) hkey)
      rw [Function.update_of_ne (by omega), h.entry j hj]
      exact (Store.write_ne blob hkey).symm

theorem IdMap.write_other (h : IdMap metaId base max records store) {id : Nat} (hid : id < base)
    (hne : id ≠ metaId) (blob : Blob) :
    IdMap metaId base max (Function.update records id (some blob)) store := by
  refine ⟨?_, ?_⟩
  · rw [Function.update_of_ne hne.symm, h.cached]
  · intro j hj
    rw [Function.update_of_ne (by omega), h.entry j hj]

end IdMap

section Nvs

structure NvsRep (nvs : Nvs) (s : nvs.State) (d : Device) : Prop where
  ids : IdMap SW_NVS_ID_META SW_NVS_ID_ENTRY_BASE SW_NVS_ENTRY_MAX (nvs.records s) d.store
  counter : swNvsCounterRead nvs s = (.ok d.counter, s)

variable {nvs : Nvs} {s s' : nvs.State} {d : Device} {key : Key} {blob : Blob} {id : Nat}

theorem swNvsWrite_inv (h : swNvsWrite nvs s id blob = (.ok (), s')) :
    nvs.records s' = Function.update (nvs.records s) id (some blob) := by
  unfold swNvsWrite at h
  cases hw : nvs.write s id blob with
  | mk rc s₁ =>
      cases rc with
      | error err => simp [hw] at h
      | ok _ =>
          simp only [hw, Prod.mk.injEq, true_and] at h
          exact nvs.records_write (h ▸ hw)

theorem swNvsPut_inv (hid : swNvsKeyToId key = .ok id)
    (h : swNvsPut nvs s key blob = (.ok (), s')) :
    nvs.records s' = Function.update (nvs.records s) id (some blob) := by
  unfold swNvsPut at h
  simp only [hid] at h
  split at h
  · cases hfree : nvs.calcFreeSpace s with
    | none => simp [hfree] at h
    | some free =>
        simp only [hfree] at h
        split at h
        · cases h
        · exact swNvsWrite_inv h
  · exact swNvsWrite_inv h

theorem swNvsGet_ok (hid : swNvsKeyToId key = .ok id) (hrec : nvs.records s id = d.store key)
    (cap : Nat) : swNvsGet nvs s key cap = d.store.fetch key cap := by
  unfold swNvsGet Store.fetch
  rw [hid]
  dsimp only
  cases hstore : d.store key with
  | none => simp only [hrec, hstore]
  | some blob => simp only [hrec, hstore]

-- A write under another id leaves the counter.
theorem swNvsCounterRead_write {c : Nat} (h : swNvsCounterRead nvs s = (.ok c, s))
    (hrec : nvs.records s' = Function.update (nvs.records s) id (some blob))
    (hid : id ≠ SW_NVS_ID_COUNTER) : swNvsCounterRead nvs s' = (.ok c, s') := by
  have hsame : nvs.records s' SW_NVS_ID_COUNTER = nvs.records s SW_NVS_ID_COUNTER := by
    rw [hrec, Function.update_of_ne hid.symm]
  unfold swNvsCounterRead at h ⊢
  rw [hsame]
  cases hc : nvs.records s SW_NVS_ID_COUNTER with
  | none =>
      simp only [hc, Prod.mk.injEq, and_true] at h
      simp only [h]
  | some val =>
      simp only [hc, Prod.mk.injEq, and_true] at h
      simp only [h]

theorem swNvsKeyToId_of_le {i : Nat} (hi : i ≤ SW_NVS_ENTRY_MAX) :
    swNvsKeyToId (entryKey i) = .ok (SW_NVS_ID_ENTRY_BASE + i) := by
  have hseq : i ≤ ULOG_SEQ_MAX := Nat.le_trans hi (by decide)
  rw [swNvsKeyToId_entryKey hseq, if_pos hi]

theorem NvsRep.put (h : NvsRep nvs s d)
    (hkey : key = metaKey ∨ ∃ i ≤ SW_NVS_ENTRY_MAX, key = entryKey i)
    (hput : swNvsPut nvs s key blob = (.ok (), s')) : NvsRep nvs s' (d.write key blob) := by
  rcases hkey with rfl | ⟨i, hi, rfl⟩
  · have hid : swNvsKeyToId metaKey = .ok SW_NVS_ID_META := rfl
    have hrec := swNvsPut_inv hid hput
    refine ⟨?_, swNvsCounterRead_write h.counter hrec (by decide)⟩
    rw [hrec]
    exact h.ids.write_meta (by decide) blob
  · have hrec := swNvsPut_inv (swNvsKeyToId_of_le hi) hput
    refine ⟨?_, swNvsCounterRead_write h.counter hrec ?_⟩
    · rw [hrec]
      exact h.ids.write_entry (by decide) (by decide) hi blob
    · simp only [SW_NVS_ID_ENTRY_BASE, SW_NVS_ID_COUNTER]
      omega

theorem NvsRep.increment (h : NvsRep nvs s d) {v : Nat} (hlt : d.counter + 1 < 2 ^ 64)
    (hinc : swNvsCounterIncrement nvs s = (.ok v, s')) : NvsRep nvs s' d.bump := by
  unfold swNvsCounterIncrement at hinc
  simp only [h.counter, Nat.mod_eq_of_lt hlt] at hinc
  cases hw : swNvsWrite nvs s SW_NVS_ID_COUNTER (putLE 8 (d.counter + 1)) with
  | mk rc s₁ =>
      cases rc with
      | error rc => simp [hw] at hinc
      | ok _ =>
          simp only [hw, Prod.mk.injEq] at hinc
          rw [hinc.2] at hw
          have hrec := swNvsWrite_inv hw
          have hval : getLE (putLE 8 (d.counter + 1)) = d.counter + 1 := by
            rw [getLE_putLE]
            exact Nat.mod_eq_of_lt hlt
          refine ⟨?_, ?_⟩
          · rw [hrec]
            exact h.ids.write_other (by decide) (by decide) _
          · unfold swNvsCounterRead
            rw [hrec, Function.update_self]
            simp only [length_putLE, ne_eq, not_true_eq_false, if_false, hval]
            rfl

-- Up to and including the first key past the ids, a read answers as the device does.
theorem NvsRep.presents (h : NvsRep nvs s d) {n : Nat} (hc : d.counter = n)
    (hn : n ≤ SW_NVS_ENTRY_MAX + 1)
    (hpast : n = SW_NVS_ENTRY_MAX + 1 → d.store (entryKey n) = none) :
    Presents (nvsTier nvs).seams s d.store n := by
  refine ⟨hc ▸ h.counter, ?_, ?_⟩
  · intro i hi
    by_cases hle : i ≤ SW_NVS_ENTRY_MAX
    · exact congrArg (·, s) (swNvsGet_ok (swNvsKeyToId_of_le hle) (h.ids.entry i hle) _)
    · have heq : i = n := by omega
      have hseq : i ≤ ULOG_SEQ_MAX := Nat.le_trans hi (Nat.le_trans hn (by decide))
      have hid := swNvsKeyToId_entryKey hseq
      rw [if_neg hle] at hid
      have hfree := hpast (by omega)
      rw [← heq] at hfree
      rw [Store.fetch_none hfree]
      simp only [nvsTier, tierSeams, swNvsGet, hid, if_true]
  · exact congrArg (·, s) (swNvsGet_ok rfl h.ids.cached _)

theorem nvs_simulates (nvs : Nvs) : Simulates (nvsTier nvs) (NvsRep nvs) where
  fresh := by
    intro s hfresh
    have hnone : ∀ id, nvs.records s id = none := hfresh
    refine ⟨⟨hnone _, fun i _ => hnone _⟩, ?_⟩
    simp only [swNvsCounterRead, hnone]
    rfl
  reads := by
    intro s d hrep hlt
    have hbound : d.counter < SW_NVS_ENTRY_MAX + 1 := hlt
    exact hrep.presents rfl (by omega) fun heq => by omega
  put := by
    intro s s' d key blob hrep hkey hput
    refine hrep.put ?_ hput
    rcases hkey with hmeta | ⟨i, hi, hentry⟩
    · exact Or.inl hmeta
    · exact Or.inr ⟨i, Nat.le_of_lt_succ hi, hentry⟩
  increment := by
    intro s s' d v hrep hlt hinc
    have hbound : d.counter < SW_NVS_ENTRY_MAX + 1 := hlt
    simp only [SW_NVS_ENTRY_MAX, SW_NVS_ID_ENTRY_BASE] at hbound
    exact hrep.increment (by omega) hinc
  limit := show SW_NVS_ENTRY_MAX + 1 ≤ ULOG_SEQ_MAX + 1 by decide

theorem nvs_full (s : nvs.State) (wire : Blob) :
    swNvsPut nvs s (entryKey (nvsTier nvs).limit) wire = (.error .nomem, s) := by
  have hseq : SW_NVS_ENTRY_MAX + 1 ≤ ULOG_SEQ_MAX := by decide
  have hid := swNvsKeyToId_entryKey hseq
  rw [if_neg (by omega)] at hid
  simp only [nvsTier, swNvsPut, hid]

end Nvs

section Psa

structure PsaRep (psa : Psa) (s : psa.State) (d : Device) : Prop where
  ids : IdMap ULOG_UID_META ULOG_UID_ENTRY_BASE (ULOG_UID_MAX_30BIT - ULOG_UID_ENTRY_BASE)
    (psa.assets s) d.store
  counter : psa.assets s ULOG_UID_COUNTER = some (putLE 8 d.counter)

variable {psa : Psa} {s s' : psa.State} {d : Device} {key : Key} {blob : Blob} {uid : Nat}
  {once : Bool}

theorem psSet_inv (h : psSet psa s uid blob once = (.ok (), s')) :
    psa.assets s' = Function.update (psa.assets s) uid (some blob) := by
  unfold psSet at h
  cases hw : psa.set s uid blob once with
  | mk rc s₁ =>
      cases rc with
      | error err => simp [hw] at h
      | ok _ =>
          simp only [hw, Prod.mk.injEq, true_and] at h
          exact psa.assets_set (h ▸ hw)

theorem psPut_inv (huid : uidForKey key = .ok (uid, once))
    (h : psPut psa s key blob = (.ok (), s')) :
    psa.assets s' = Function.update (psa.assets s) uid (some blob) := by
  simp only [psPut, huid] at h
  exact psSet_inv h

theorem psGet_ok (huid : uidForKey key = .ok (uid, once)) (hrec : psa.assets s uid = d.store key)
    (cap : Nat) : psGet psa s key cap = d.store.fetch key cap := by
  unfold psGet Store.fetch
  rw [huid]
  dsimp only
  rw [hrec]
  cases d.store key with
  | none => rfl
  | some blob => rfl

theorem psCounterRead_stored {c : Nat} (hc : c < 2 ^ 64)
    (h : psa.assets s ULOG_UID_COUNTER = some (putLE 8 c)) : psCounterRead psa s = (.ok c, s) := by
  have htake : (putLE 8 c).take 8 = putLE 8 c := List.take_of_length_le (by simp)
  have hval : getLE (putLE 8 c) = c := by
    rw [getLE_putLE]
    exact Nat.mod_eq_of_lt hc
  unfold psCounterRead
  rw [h]
  simp only [htake, length_putLE, ne_eq, not_true_eq_false, if_false, hval]

theorem uidForKey_of_le {i : Nat} (hi : i ≤ ULOG_UID_MAX_30BIT - ULOG_UID_ENTRY_BASE) :
    uidForKey (entryKey i) = .ok (ULOG_UID_ENTRY_BASE + i, true) := by
  have hseq : i ≤ ULOG_SEQ_MAX := Nat.le_trans hi (by decide)
  rw [uidForKey_entryKey hseq, if_neg (by omega)]

theorem PsaRep.put (h : PsaRep psa s d)
    (hkey : key = metaKey ∨ ∃ i ≤ ULOG_UID_MAX_30BIT - ULOG_UID_ENTRY_BASE, key = entryKey i)
    (hput : psPut psa s key blob = (.ok (), s')) : PsaRep psa s' (d.write key blob) := by
  rcases hkey with rfl | ⟨i, hi, rfl⟩
  · have huid : uidForKey metaKey = .ok (ULOG_UID_META, false) := rfl
    have hrec := psPut_inv huid hput
    refine ⟨?_, ?_⟩
    · rw [hrec]
      exact h.ids.write_meta (by decide) blob
    · rw [hrec, Function.update_of_ne (by decide)]
      exact h.counter
  · have hrec := psPut_inv (uidForKey_of_le hi) hput
    refine ⟨?_, ?_⟩
    · rw [hrec]
      exact h.ids.write_entry (by decide) (by decide) hi blob
    · have hne : ULOG_UID_COUNTER ≠ ULOG_UID_ENTRY_BASE + i := by
        simp only [ULOG_UID_COUNTER, ULOG_UID_ENTRY_BASE]
        omega
      rw [hrec, Function.update_of_ne hne]
      exact h.counter

theorem PsaRep.increment (h : PsaRep psa s d) {v : Nat} (hlt : d.counter + 1 < 2 ^ 64)
    (hinc : psCounterIncrement psa s = (.ok v, s')) : PsaRep psa s' d.bump := by
  have hmax : d.counter ≠ UINT64_MAX := by
    simp only [UINT64_MAX]
    omega
  unfold psCounterIncrement at hinc
  simp only [psCounterRead_stored (by omega) h.counter, hmax, if_false] at hinc
  cases hw : psCounterStore psa s (d.counter + 1) with
  | mk rc s₁ =>
      cases rc with
      | error rc => simp [hw] at hinc
      | ok _ =>
          simp only [hw, Prod.mk.injEq] at hinc
          rw [hinc.2] at hw
          have hrec := psSet_inv hw
          refine ⟨?_, ?_⟩
          · rw [hrec]
            exact h.ids.write_other (by decide) (by decide) _
          · rw [hrec, Function.update_self]
            rfl

theorem psa_fresh {psa : Psa} {s : psa.State} (h : (psaTier psa).fresh s) :
    PsaRep psa s Device.empty := by
  obtain ⟨s₀, hnone, hread⟩ := h
  unfold psCounterRead at hread
  simp only [hnone] at hread
  cases hw : psCounterStore psa s₀ 0 with
  | mk rc s₁ =>
      cases rc with
      | error rc => simp [hw] at hread
      | ok _ =>
          simp only [hw, Prod.mk.injEq, true_and] at hread
          rw [hread] at hw
          have hrec := psSet_inv hw
          refine ⟨?_, ?_⟩
          · rw [hrec]
            have hempty : IdMap ULOG_UID_META ULOG_UID_ENTRY_BASE
                (ULOG_UID_MAX_30BIT - ULOG_UID_ENTRY_BASE) (psa.assets s₀) Device.empty.store :=
              ⟨hnone _, fun i _ => hnone _⟩
            exact hempty.write_other (by decide) (by decide) _
          · rw [hrec, Function.update_self]
            rfl

theorem psa_simulates (psa : Psa) : Simulates (psaTier psa) (PsaRep psa) where
  fresh := fun h => psa_fresh h
  reads := by
    intro s d hrep hlt
    have hbound : d.counter < ULOG_UID_MAX_30BIT - ULOG_UID_ENTRY_BASE + 1 := hlt
    have hcount : d.counter < 2 ^ 64 := by
      simp only [ULOG_UID_MAX_30BIT, ULOG_UID_ENTRY_BASE] at hbound
      omega
    refine ⟨psCounterRead_stored hcount hrep.counter, ?_, ?_⟩
    · intro i hi
      have hle : i ≤ ULOG_UID_MAX_30BIT - ULOG_UID_ENTRY_BASE := by omega
      exact congrArg (·, s) (psGet_ok (uidForKey_of_le hle) (hrep.ids.entry i hle) _)
    · have huid : uidForKey metaKey = .ok (ULOG_UID_META, false) := rfl
      exact congrArg (·, s) (psGet_ok huid hrep.ids.cached _)
  put := by
    intro s s' d key blob hrep hkey hput
    refine hrep.put ?_ hput
    rcases hkey with hmeta | ⟨i, hi, hentry⟩
    · exact Or.inl hmeta
    · exact Or.inr ⟨i, Nat.le_of_lt_succ hi, hentry⟩
  increment := by
    intro s s' d v hrep hlt hinc
    have hbound : d.counter < ULOG_UID_MAX_30BIT - ULOG_UID_ENTRY_BASE + 1 := hlt
    simp only [ULOG_UID_MAX_30BIT, ULOG_UID_ENTRY_BASE] at hbound
    exact hrep.increment (by omega) hinc
  limit := show ULOG_UID_MAX_30BIT - ULOG_UID_ENTRY_BASE + 1 ≤ ULOG_SEQ_MAX + 1 by decide

-- Past the last uid, a get is refused like a put.
theorem psa_full (s : psa.State) (cap : Nat) :
    (psaTier psa).seams (.get (entryKey (psaTier psa).limit) cap) s = (.error .nomem, s) := by
  have hseq : ULOG_UID_MAX_30BIT - ULOG_UID_ENTRY_BASE + 1 ≤ ULOG_SEQ_MAX := by decide
  have huid := uidForKey_entryKey hseq
  rw [if_pos (by omega)] at huid
  simp only [psaTier, tierSeams, psGet, huid]

end Psa

end AlpSdk.UpdateLog
