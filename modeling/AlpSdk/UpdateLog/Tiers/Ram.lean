import AlpSdk.UpdateLog.Tiers.Simulation
import Mathlib.Data.Fintype.EquivFin

namespace AlpSdk.UpdateLog

-- Each stored key is in exactly one slot.
structure RamRep (sw : SwState) (d : Device) : Prop where
  counter : sw.counter = d.counter
  stored : ∀ i key blob, sw.slots i = some (key, blob) → d.store key = some blob
  found : ∀ key blob, d.store key = some blob → ∃ i, sw.slots i = some (key, blob)
  unique : ∀ i j key blob other, sw.slots i = some (key, blob) → sw.slots j = some (key, other) →
    i = j

variable {sw sw' : SwState} {d : Device} {key : Key} {blob : Blob}

theorem swFind_some {i : Fin SW_SLOTS} (h : swFind sw key = some i) :
    ∃ blob, sw.slots i = some (key, blob) := by
  have hp := List.find?_some h
  cases hs : sw.slots i with
  | none => simp [hs] at hp
  | some slot =>
      obtain ⟨other, blob⟩ := slot
      have heq : other = key := by simpa [hs] using hp
      exact ⟨blob, by rw [heq]⟩

theorem swFind_none (h : swFind sw key = none) (i : Fin SW_SLOTS) :
    sw.slots i ≠ some (key, blob) := by
  intro hs
  have hp := List.find?_eq_none.mp h i (List.mem_finRange i)
  simp [hs] at hp

theorem swFree_some {i : Fin SW_SLOTS} (h : swFree sw = some i) : sw.slots i = none := by
  have hp := List.find?_some h
  simpa using hp

theorem swFree_none (h : swFree sw = none) (i : Fin SW_SLOTS) : sw.slots i ≠ none := by
  intro hs
  have hp := List.find?_eq_none.mp h i (List.mem_finRange i)
  simp [hs] at hp

theorem RamRep.get (h : RamRep sw d) (key : Key) (cap : Nat) :
    swRamGet sw key cap = d.store.fetch key cap := by
  unfold swRamGet Store.fetch
  cases hf : swFind sw key with
  | none =>
      have habsent : d.store key = none := by
        by_contra hne
        obtain ⟨blob, hblob⟩ := Option.ne_none_iff_exists'.mp hne
        obtain ⟨i, hi⟩ := h.found key blob hblob
        exact swFind_none hf i hi
      rw [habsent]
      rfl
  | some i =>
      obtain ⟨blob, hblob⟩ := swFind_some hf
      rw [h.stored i key blob hblob, Option.bind_some, hblob]

-- A put replaces the slot of its key, or takes a free one when the key is in none.
theorem swRamPut_inv (h : swRamPut sw key blob = (.ok (), sw')) :
    ∃ i, sw' = { sw with slots := Function.update sw.slots i (some (key.take 23, blob)) } ∧
      ((∃ old, sw.slots i = some (key, old)) ∨
        sw.slots i = none ∧ ∀ j old, sw.slots j ≠ some (key, old)) := by
  unfold swRamPut at h
  split at h
  · cases h
  cases hf : swFind sw key with
  | some i =>
      simp only [hf, Option.some_or, Prod.mk.injEq, true_and] at h
      exact ⟨i, h.symm, Or.inl (swFind_some hf)⟩
  | none =>
      cases hfree : swFree sw with
      | none => simp [hf, hfree] at h
      | some i =>
          simp only [hf, hfree, Option.none_or, Prod.mk.injEq, true_and] at h
          exact ⟨i, h.symm, Or.inr ⟨swFree_some hfree, fun j old => swFind_none hf j⟩⟩

theorem RamRep.put (h : RamRep sw d) (hkey : key.take 23 = key)
    (hput : swRamPut sw key blob = (.ok (), sw')) : RamRep sw' (d.write key blob) := by
  obtain ⟨i, rfl, hslot⟩ := swRamPut_inv hput
  rw [hkey]
  -- no other slot holds the key
  have honly : ∀ j old, sw.slots j = some (key, old) → j = i := by
    intro j old hj
    rcases hslot with ⟨prior, hprior⟩ | ⟨-, hnone⟩
    · exact h.unique j i key old prior hj hprior
    · exact absurd hj (hnone j old)
  refine ⟨h.counter, ?_, ?_, ?_⟩
  · intro j other found hj
    by_cases heq : j = i
    · subst heq
      simp only [Function.update_self, Option.some.injEq, Prod.mk.injEq] at hj
      obtain ⟨rfl, rfl⟩ := hj
      exact Store.write_self _ _ _
    · simp only [Function.update_of_ne heq] at hj
      have hne : other ≠ key := by
        rintro rfl
        exact heq (honly j found hj)
      exact (Store.write_ne blob hne).trans (h.stored j other found hj)
  · intro other found hother
    by_cases heq : other = key
    · subst heq
      have hblob : blob = found := Option.some.inj ((Store.write_self _ _ _).symm.trans hother)
      exact ⟨i, by simp [hblob]⟩
    · obtain ⟨j, hj⟩ := h.found other found ((Store.write_ne blob heq).symm.trans hother)
      have hne : j ≠ i := by
        rintro rfl
        rcases hslot with ⟨prior, hprior⟩ | ⟨hnone, -⟩
        · rw [hprior] at hj
          exact heq (by simpa using (Prod.mk.inj (Option.some.inj hj)).1.symm)
        · rw [hnone] at hj
          cases hj
      exact ⟨j, by simpa [Function.update_of_ne hne] using hj⟩
  · intro j k other found found' hj hk
    by_cases hji : j = i
    · by_cases hki : k = i
      · rw [hji, hki]
      · subst hji
        simp only [Function.update_self, Option.some.injEq, Prod.mk.injEq] at hj
        simp only [Function.update_of_ne hki] at hk
        obtain ⟨rfl, rfl⟩ := hj
        exact absurd (honly k found' hk) hki
    · by_cases hki : k = i
      · subst hki
        simp only [Function.update_self, Option.some.injEq, Prod.mk.injEq] at hk
        simp only [Function.update_of_ne hji] at hj
        obtain ⟨rfl, rfl⟩ := hk
        exact absurd (honly j found hj) hji
      · simp only [Function.update_of_ne hji] at hj
        simp only [Function.update_of_ne hki] at hk
        exact h.unique j k other found found' hj hk

theorem entryKey_take (seq : Nat) : (entryKey seq).take 23 = entryKey seq := by
  simp [entryKey, kbuf]

theorem ram_simulates : Simulates ramTier RamRep where
  fresh := by
    intro sw hfresh
    obtain ⟨hslots, hcount⟩ := hfresh
    refine ⟨hcount, ?_, ?_, ?_⟩
    · intro i key blob hi
      rw [hslots i] at hi
      cases hi
    · intro key blob hkey
      cases hkey
    · intro i j key blob other hi
      rw [hslots i] at hi
      cases hi
  reads := by
    intro sw d hrep _
    refine ⟨?_, ?_, ?_⟩
    · exact congrArg (fun c => (Except.ok c, sw)) hrep.counter
    · exact fun i _ => congrArg (·, sw) (hrep.get _ _)
    · exact congrArg (·, sw) (hrep.get _ _)
  put := by
    intro sw sw' d key blob hrep hkey hput
    have htake : key.take 23 = key := by
      rcases hkey with rfl | ⟨i, -, rfl⟩
      · rfl
      · exact entryKey_take i
    exact hrep.put htake hput
  increment := by
    intro sw sw' d v hrep hlt hinc
    have hwrap : (sw.counter + 1) % 2 ^ 64 = d.counter + 1 := by
      rw [hrep.counter]
      have hbound : d.counter < 31 := hlt
      omega
    have hsw : { sw with counter := (sw.counter + 1) % 2 ^ 64 } = sw' := congrArg Prod.snd hinc
    rw [← hsw]
    exact ⟨hwrap, hrep.stored, hrep.found, hrep.unique⟩
  limit := by decide

-- The keys of a log that fills the slots: the entries, and the meta.
def ramKey (i : Fin SW_SLOTS) : Key := if i.val < SW_SLOTS - 1 then entryKey i else metaKey

theorem ramKey_injective : Function.Injective ramKey := by
  intro i j hij
  have hi := i.isLt
  have hj := j.isLt
  simp only [SW_SLOTS] at hi hj
  apply Fin.ext
  unfold ramKey SW_SLOTS at hij
  by_cases hi31 : i.val < 31
  · by_cases hj31 : j.val < 31
    · simp only [hi31, hj31, if_true] at hij
      exact entryKey_injective (by simp only [ULOG_SEQ_MAX]; omega)
        (by simp only [ULOG_SEQ_MAX]; omega) hij
    · simp only [hi31, hj31, if_true, if_false] at hij
      exact absurd hij (entryKey_ne_metaKey _)
  · by_cases hj31 : j.val < 31
    · simp only [hi31, hj31, if_true, if_false] at hij
      exact absurd hij.symm (entryKey_ne_metaKey _)
    · omega

theorem ramKey_stored {ulogSha256 : Blob → Digest}
    (hclean : Clean ulogSha256 none d (SW_SLOTS - 1)) (i : Fin SW_SLOTS) :
    ∃ blob, d.store (ramKey i) = some blob := by
  unfold ramKey
  by_cases hi : i.val < SW_SLOTS - 1
  · obtain ⟨wire, hs⟩ := hclean.chain i.val hi
    simp only [hi, if_true]
    exact ⟨wire, hs.stored⟩
  · obtain ⟨buf, -, hf, -⟩ := hclean.cached (by decide)
    simp only [hi, if_false]
    exact ⟨buf, (Store.fetch_eq_ok_iff.mp hf).1⟩

-- Different keys are in different slots, so as many keys as slots leave none free.
theorem RamRep.no_free (h : RamRep sw d) (hkeys : ∀ i, ∃ blob, d.store (ramKey i) = some blob) :
    swFree sw = none := by
  have hslots : ∀ i, ∃ slot blob, sw.slots slot = some (ramKey i, blob) := by
    intro i
    obtain ⟨blob, hblob⟩ := hkeys i
    obtain ⟨slot, hslot⟩ := h.found _ blob hblob
    exact ⟨slot, blob, hslot⟩
  choose slot blobs hslot using hslots
  have hinj : Function.Injective slot := by
    intro i j hij
    have hi := hslot i
    rw [hij, hslot j] at hi
    exact ramKey_injective (Prod.mk.inj (Option.some.inj hi)).1.symm
  cases hf : swFree sw with
  | none => rfl
  | some i =>
      obtain ⟨j, rfl⟩ := (Finite.injective_iff_surjective.mp hinj) i
      have hnone := swFree_some hf
      rw [hslot j] at hnone
      cases hnone

theorem RamRep.find_absent (h : RamRep sw d) (hkey : d.store key = none) : swFind sw key = none := by
  cases hf : swFind sw key with
  | none => rfl
  | some i =>
      obtain ⟨blob, hblob⟩ := swFind_some hf
      rw [h.stored i _ blob hblob] at hkey
      cases hkey

theorem ram_full {ulogSha256 : Blob → Digest} (h : RamRep sw d)
    (hclean : Clean ulogSha256 none d ramTier.limit) (wire : Blob) :
    swRamPut sw (entryKey ramTier.limit) wire = (.error .nomem, sw) := by
  have hfind := h.find_absent (hclean.free (by decide))
  have hnofree := h.no_free (ramKey_stored hclean)
  unfold swRamPut
  split
  · rfl
  · simp only [hfind, hnofree, Option.or_none]

-- Fewer keys than slots leave one free.
theorem RamRep.exists_free (h : RamRep sw d) {m : Nat} (names : Nat → Key)
    (hnames : ∀ key, d.store key ≠ none → ∃ i < m, key = names i) (hm : m < SW_SLOTS) :
    ∃ i, swFree sw = some i := by
  by_contra hno
  have hnone : swFree sw = none := by
    cases hf : swFree sw with
    | none => rfl
    | some i => exact absurd ⟨i, hf⟩ hno
  have hused : ∀ slot, ∃ i : Fin m, ∃ blob, sw.slots slot = some (names i, blob) := by
    intro slot
    obtain ⟨⟨key, blob⟩, hslot⟩ := Option.ne_none_iff_exists'.mp (swFree_none hnone slot)
    obtain ⟨i, hi, hkey⟩ := hnames key (by simp [h.stored slot key blob hslot])
    exact ⟨⟨i, hi⟩, blob, hkey ▸ hslot⟩
  choose index blobs hindex using hused
  have hinj : Function.Injective index := by
    intro i j hij
    have hj := hindex j
    rw [← hij] at hj
    exact h.unique i j _ _ _ (hindex i) hj
  have hcard := Fintype.card_le_of_injective index hinj
  simp only [Fintype.card_fin] at hcard
  omega

theorem swRamPut_ok (hlen : blob.length ≤ SW_BLOB)
    (hroom : (∃ i, swFind sw key = some i) ∨ ∃ i, swFree sw = some i) :
    ∃ sw', swRamPut sw key blob = (.ok (), sw') := by
  have hfits : ¬blob.length > SW_BLOB := by omega
  unfold swRamPut
  simp only [hfits, if_false]
  cases hf : swFind sw key with
  | some i => exact ⟨_, rfl⟩
  | none =>
      rcases hroom with ⟨i, hi⟩ | ⟨i, hi⟩
      · rw [hf] at hi
        cases hi
      · simp only [hi, Option.none_or]
        exact ⟨_, rfl⟩

-- Below the limit the entry finds a free slot, and the meta its old one or a free one.
theorem ram_writes {ulogSha256 : Blob → Digest} {n : Nat} {wire : Blob} (h : RamRep sw d)
    (hclean : Clean ulogSha256 none d n) (hn : n < SW_SLOTS - 1)
    (hlen : wire.length = ULOG_ENTRY_WIRE_LEN) :
    ∃ sw₁ sw₂ sw₃ v, swRamPut sw (entryKey n) wire = (.ok (), sw₁) ∧
      swRamPut sw₁ metaKey (ulogMetaEncode { count := n + 1, headHash := ulogSha256 wire }) =
        (.ok (), sw₂) ∧
      swCinc sw₂ = (.ok v, sw₃) := by
  have hbelow : n < 31 := hn
  have hfree : ∃ i, swFree sw = some i := by
    refine h.exists_free (m := n + 1) (fun i => if i < n then entryKey i else metaKey) ?_
      (by simp only [SW_SLOTS]; omega)
    intro key hkey
    by_cases hmeta : key = metaKey
    · exact ⟨n, by omega, by simp [hmeta]⟩
    · obtain ⟨i, hi, hentry⟩ := hclean.keys key hmeta hkey
      exact ⟨i, by omega, by simp [hi, hentry]⟩
  obtain ⟨sw₁, hput⟩ : ∃ sw₁, swRamPut sw (entryKey n) wire = (.ok (), sw₁) :=
    swRamPut_ok (by rw [hlen]; rfl) (Or.inr hfree)
  have hrep := h.put (entryKey_take n) hput
  have hroom : (∃ i, swFind sw₁ metaKey = some i) ∨ ∃ i, swFree sw₁ = some i := by
    cases hf : swFind sw₁ metaKey with
    | some i => exact Or.inl ⟨i, rfl⟩
    | none =>
        refine Or.inr (hrep.exists_free (m := n + 1) entryKey ?_ (by simp only [SW_SLOTS]; omega))
        intro key hkey
        have hmeta : key ≠ metaKey := by
          rintro rfl
          obtain ⟨blob, hblob⟩ := Option.ne_none_iff_exists'.mp hkey
          obtain ⟨i, hi⟩ := hrep.found _ blob hblob
          exact swFind_none hf i hi
        by_cases hnew : key = entryKey n
        · exact ⟨n, by omega, hnew⟩
        · have hold : d.store key ≠ none :=
            fun hnone => hkey ((Store.write_ne wire hnew).trans hnone)
          obtain ⟨i, hi, hentry⟩ := hclean.keys key hmeta hold
          exact ⟨i, by omega, hentry⟩
  obtain ⟨sw₂, hcached⟩ : ∃ sw₂, swRamPut sw₁ metaKey
      (ulogMetaEncode { count := n + 1, headHash := ulogSha256 wire }) = (.ok (), sw₂) :=
    swRamPut_ok (by rw [metaEncode_length]; decide) hroom
  exact ⟨sw₁, sw₂, _, _, hput, hcached, rfl⟩

end AlpSdk.UpdateLog
