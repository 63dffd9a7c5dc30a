import AlpSdk.UpdateLog.Device.Accept
import AlpSdk.UpdateLog.Tiers.Ids
import AlpSdk.UpdateLog.Tiers.Ram

namespace AlpSdk.UpdateLog

open Library.Effect

variable {ulogSha256 : Blob → Digest}

theorem seq_simulates : Simulates seqTier (fun s d => s = d) where
  fresh := fun hs => hs
  reads := by
    intro s d hrep _
    subst hrep
    exact Device.presents .mutable s
  put := by
    intro s s' d key blob hrep _ hput
    subst hrep
    simp only [seqTier, Device.respond, reduceCtorEq, false_and, if_false] at hput
    exact (congrArg Prod.snd hput).symm
  increment := by
    intro s s' d v hrep _ hinc
    subst hrep
    exact (congrArg Prod.snd hinc).symm
  limit := Nat.le_refl _

theorem ram_readable {s : SwState} (h : Honest ulogSha256 ramTier ramTier.limit s) :
    FullAndReadable ulogSha256 ramTier ramTier.limit s := by
  obtain ⟨d, hrep, hclean⟩ := ram_simulates.honest_clean h (Nat.le_refl _)
  have hp : Presents ramTier.seams s d.store ramTier.limit := by
    refine ⟨?_, ?_, ?_⟩
    · exact congrArg (fun c => (Except.ok c, s)) (hrep.counter.trans hclean.counter)
    · exact fun i _ => congrArg (·, s) (hrep.get _ _)
    · exact congrArg (·, s) (hrep.get _ _)
  exact full_readable hp hclean (by decide) fun wire _ => ram_full hrep hclean wire

theorem nvs_readable {nvs : Nvs} {s : nvs.State}
    (h : Honest ulogSha256 (nvsTier nvs) (nvsTier nvs).limit s) :
    FullAndReadable ulogSha256 (nvsTier nvs) (nvsTier nvs).limit s := by
  obtain ⟨d, hrep, hclean⟩ := (nvs_simulates nvs).honest_clean h (Nat.le_refl _)
  have hin : (nvsTier nvs).limit ≤ ULOG_SEQ_MAX :=
    show SW_NVS_ENTRY_MAX + 1 ≤ ULOG_SEQ_MAX by decide
  have hp := hrep.presents hclean.counter (Nat.le_refl _) fun _ => hclean.free hin
  exact full_readable hp hclean hin fun wire _ => nvs_full s wire

-- Recovery probes the key past the last uid, and the refusal of that get fails every call.
theorem psa_count_fails {psa : Psa} {s : psa.State}
    (h : Honest ulogSha256 (psaTier psa) (psaTier psa).limit s) :
    (ulogEngineCount ulogSha256).run (psaTier psa).seams s = (.error .nomem, s) := by
  obtain ⟨d, hrep, hclean⟩ := (psa_simulates psa).honest_clean h (Nat.le_refl _)
  have hcount : (psaTier psa).limit < 2 ^ 64 :=
    show ULOG_UID_MAX_30BIT - ULOG_UID_ENTRY_BASE + 1 < 2 ^ 64 by decide
  have hmax : (psaTier psa).limit ≠ UINT64_MAX :=
    show ULOG_UID_MAX_30BIT - ULOG_UID_ENTRY_BASE + 1 ≠ UINT64_MAX by decide
  have hstored := hrep.counter
  rw [hclean.counter] at hstored
  have hread := psCounterRead_stored hcount hstored
  exact run_count_of_recover_error
    (run_recover_unreadable hread hmax (psa_full s ULOG_ENTRY_WIRE_LEN) (by simp))

-- One past the bound the probed key is the key of an entry, which does not chain there.
theorem seq_verify_fails {d : Device} (h : Honest ulogSha256 seqTier seqTier.limit d)
    {badSeq : Nat} :
    ((ulogEngineVerify ulogSha256).run seqTier.seams d).1 ≠ .ok ⟨.verifyOk, badSeq⟩ := by
  obtain ⟨d, rfl, hclean⟩ := seq_simulates.honest_clean h (Nat.le_refl _)
  intro hok
  obtain ⟨-, d', hrec, -, -, hacc⟩ := run_verify_inv hok
  have hsame : (.ok (), d) = (Except.ok (), d') :=
    (run_recover_log hclean.toLog hclean.counter _).symm.trans hrec
  cases hsame
  have hle := hacc.le_seqMax
  rw [hclean.counter] at hle
  simp only [seqTier] at hle
  omega

-- A full log stays readable in the RAM store and in the NVS id map, and in no other tier.
theorem full_log_readable_iff (nvs : Nvs) (psa : Psa) (lim : Limit) {s : (lim.tier nvs psa).State}
    (h : Honest ulogSha256 (lim.tier nvs psa) (lim.tier nvs psa).limit s) :
    FullAndReadable ulogSha256 (lim.tier nvs psa) (lim.tier nvs psa).limit s ↔
      lim = .ramSlots ∨ lim = .nvsIds := by
  cases lim with
  | ramSlots => exact iff_of_true (ram_readable h) (Or.inl rfl)
  | nvsIds => exact iff_of_true (nvs_readable h) (Or.inr rfl)
  | psaUids =>
      refine iff_of_false (fun hread => ?_) (by simp)
      have hcount := hread.count
      simp only [Limit.tier] at hcount h
      rw [psa_count_fails h] at hcount
      cases hcount
  | seqMax =>
      refine iff_of_false (fun hread => ?_) (by simp)
      exact seq_verify_fails h (congrArg Prod.fst hread.verified)

-- Storage that never runs out.
def openNvs : Nvs where
  State := Nat → Option Blob
  records := fun s => s
  calcFreeSpace := fun _ => some SW_NVS_APPEND_WORST
  write := fun s id blob => (.ok (), Function.update s id (some blob))
  records_write := fun h => (congrArg Prod.snd h).symm

def openPsa : Psa where
  State := Nat → Option Blob
  assets := fun s => s
  set := fun s uid blob _ => (.ok (), Function.update s uid (some blob))
  assets_set := fun h => (congrArg Prod.snd h).symm

theorem ram_exists_full (ulogSha256 : Blob → Digest) :
    ∃ s, Honest ulogSha256 ramTier ramTier.limit s := by
  refine ram_simulates.exists_honest ⟨⟨fun _ => none, 0⟩, fun _ => rfl, rfl⟩ ?_ _ (Nat.le_refl _)
  intro s d n wire hrep hclean hn hlen
  exact ram_writes hrep hclean hn hlen

theorem seq_exists_full (ulogSha256 : Blob → Digest) :
    ∃ d, Honest ulogSha256 seqTier seqTier.limit d := by
  refine seq_simulates.exists_honest ⟨Device.empty, rfl⟩ ?_ _ (Nat.le_refl _)
  intro s d n wire _ _ _ _
  have hput : ∀ key blob (d : Device), seqTier.seams (.put key blob) d = (.ok (), d.write key blob) := by
    intro key blob d
    simp only [seqTier, Device.respond, reduceCtorEq, false_and, if_false]
  exact ⟨_, _, _, _, hput _ _ s, hput _ _ _, rfl⟩

theorem psa_exists_full (ulogSha256 : Blob → Digest) :
    ∃ s, Honest ulogSha256 (psaTier openPsa) (psaTier openPsa).limit s := by
  have hfresh : ∃ s, (psaTier openPsa).fresh s := ⟨_, fun _ => none, fun _ => rfl, rfl⟩
  refine (psa_simulates openPsa).exists_honest hfresh ?_ _ (Nat.le_refl _)
  intro s d n wire hrep hclean hn hlen
  have hbound : n < ULOG_UID_MAX_30BIT - ULOG_UID_ENTRY_BASE + 1 := hn
  have huid := uidForKey_of_le (Nat.le_of_lt_succ hbound)
  obtain ⟨s₁, hput⟩ : ∃ s₁, psPut openPsa s (entryKey n) wire = (.ok (), s₁) := by
    simp only [psPut, huid]
    exact ⟨_, rfl⟩
  obtain ⟨s₂, hcached⟩ : ∃ s₂, psPut openPsa s₁ metaKey
      (ulogMetaEncode { count := n + 1, headHash := ulogSha256 wire }) = (.ok (), s₂) := ⟨_, rfl⟩
  have hrep₁ := hrep.put (Or.inr ⟨n, Nat.le_of_lt_succ hbound, rfl⟩) hput
  have hrep₂ := hrep₁.put (Or.inl rfl) hcached
  have hcount : n < UINT64_MAX := by
    simp only [ULOG_UID_MAX_30BIT, ULOG_UID_ENTRY_BASE] at hbound
    simp only [UINT64_MAX]
    omega
  have hstored : openPsa.assets s₂ ULOG_UID_COUNTER = some (Library.Bytes.putLE 8 n) := by
    rw [hrep₂.counter, ← hclean.counter]
    rfl
  have hread := psCounterRead_stored (by simp only [UINT64_MAX] at hcount; omega) hstored
  obtain ⟨v, s₃, hinc⟩ : ∃ v s₃, psCounterIncrement openPsa s₂ = (.ok v, s₃) := by
    simp only [psCounterIncrement, hread, Nat.ne_of_lt hcount, if_false]
    exact ⟨_, _, rfl⟩
  exact ⟨s₁, s₂, s₃, v, hput, hcached, hinc⟩

theorem full_log_readable_iff_ram :
    ∃ s, Honest (fun _ => zeroDigest) ramTier ramTier.limit s ∧
      (FullAndReadable (fun _ => zeroDigest) ramTier ramTier.limit s ↔
        Limit.ramSlots = .ramSlots ∨ Limit.ramSlots = .nvsIds) := by
  obtain ⟨s, hs⟩ := ram_exists_full fun _ => zeroDigest
  exact ⟨s, hs, full_log_readable_iff openNvs openPsa .ramSlots hs⟩

-- With the last uid in use `count` fails, and with the last sequence number in use verify
-- does not report VERIFY_OK.
theorem full_log_unreadable :
    (∀ ulogSha256, ∃ s, Honest ulogSha256 (psaTier openPsa) (psaTier openPsa).limit s ∧
      (ulogEngineCount ulogSha256).run (psaTier openPsa).seams s = (.error .nomem, s)) ∧
    ∀ ulogSha256, ∃ d, Honest ulogSha256 seqTier seqTier.limit d ∧
      ((ulogEngineVerify ulogSha256).run seqTier.seams d).1 ≠ .ok ⟨.verifyOk, 0⟩ := by
  refine ⟨fun ulogSha256 => ?_, fun ulogSha256 => ?_⟩
  · obtain ⟨s, hs⟩ := psa_exists_full ulogSha256
    exact ⟨s, hs, psa_count_fails hs⟩
  · obtain ⟨d, hd⟩ := seq_exists_full ulogSha256
    exact ⟨d, hd, seq_verify_fails hd⟩

end AlpSdk.UpdateLog
