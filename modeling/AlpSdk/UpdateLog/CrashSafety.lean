import AlpSdk.UpdateLog.Calls

namespace AlpSdk.UpdateLog

open Library.Effect

-- The store holds the entries 0, …, n - 1, chained, and no other entry key; nothing that
-- was ever put under an entry key has been lost or replaced.
structure Log (ulogSha256 : Blob → Digest) (d : Device) (n : Nat) : Prop where
  chain : d.store.ChainTo ulogSha256 n
  keys : ∀ key, key ≠ metaKey → d.store key ≠ none → ∃ i < n, key = entryKey i
  kept : ∀ key blob, key ≠ metaKey → (key, blob) ∈ d.puts → d.store key = some blob

-- Between two appends: counter and meta agree with the entries. With an anchor, the floor
-- is behind by at most the last entry.
structure Clean (ulogSha256 : Blob → Digest) (anchor : Option AnchorIf) (d : Device) (n : Nat) :
    Prop extends Log ulogSha256 d n where
  counter : d.counter = n
  cached : d.store.MetaAt ulogSha256 n
  floor : anchor ≠ none → d.floor ≤ n ∧ n ≤ d.floor + 1

-- An append was cut: the entry `n` is durable and the counter still at `n`. The meta is the
-- old one or the new one, or there is none.
structure Torn (ulogSha256 : Blob → Digest) (anchor : Option AnchorIf) (d : Device) (n : Nat) :
    Prop extends Log ulogSha256 d (n + 1) where
  counter : d.counter = n
  floor : anchor ≠ none → d.floor = n

def Recoverable (ulogSha256 : Blob → Digest) (anchor : Option AnchorIf) (d : Device) : Prop :=
  ∃ n, Clean ulogSha256 anchor d n ∨ Torn ulogSha256 anchor d n

variable {ulogSha256 : Blob → Digest} {anchor : Option AnchorIf} {kind : StoreKind} {d : Device}
  {n : Nat}

-- The slot after the chain is free, or its key aliases an entry that carries another number.
theorem Log.no_slot (h : Log ulogSha256 d n) (wire : Blob) : ¬d.store.Slot ulogSha256 n wire := by
  intro hs
  have hstored := hs.stored
  obtain ⟨i, hi, hkey⟩ := h.keys (entryKey n) (entryKey_ne_metaKey n) (by simp [hstored])
  obtain ⟨other, hother⟩ := h.chain i hi
  have heq := hs.seq_eq hother hkey
  omega

theorem Log.free (h : Log ulogSha256 d n) (hn : n ≤ ULOG_SEQ_MAX) : d.store (entryKey n) = none := by
  by_contra hne
  obtain ⟨i, hi, hkey⟩ := h.keys (entryKey n) (entryKey_ne_metaKey n) hne
  have heq := entryKey_injective hn (by omega) hkey
  omega

theorem Log.present (h : Log ulogSha256 d n) (key : Key) (hkey : key ≠ metaKey) :
    d.store key ≠ none ↔ ∃ i < n, key = entryKey i := by
  constructor
  · exact h.keys key hkey
  · rintro ⟨i, hi, rfl⟩
    obtain ⟨wire, hs⟩ := h.chain i hi
    simp [hs.stored]

theorem Log.write_meta (h : Log ulogSha256 d n) (blob : Blob) :
    Log ulogSha256 (d.write metaKey blob) n := by
  have hsame : ∀ key, key ≠ metaKey → (d.write metaKey blob).store key = d.store key :=
    fun key hkey => Store.write_ne blob hkey
  constructor
  · exact Store.chainTo_write_meta.mpr h.chain
  · intro key hkey hne
    rw [hsame key hkey] at hne
    exact h.keys key hkey hne
  · intro key found hkey hmem
    rw [hsame key hkey]
    apply h.kept key found hkey
    simpa [Device.write, hkey] using hmem

theorem Log.write_entry (h : Log ulogSha256 d n) {entry : Entry} {prev : Digest} {wire : Blob}
    (hn : n ≤ ULOG_SEQ_MAX) (hpred : d.store.predHash ulogSha256 n = .ok prev)
    (henc : ulogEntryEncode { entry with seq := n } prev = .ok wire) :
    Log ulogSha256 (d.write (entryKey n) wire) (n + 1) := by
  have hsame : ∀ key, key ≠ entryKey n → (d.write (entryKey n) wire).store key = d.store key :=
    fun key hkey => Store.write_ne wire hkey
  constructor
  · exact Store.chainTo_write_entry hn h.chain hpred henc
  · intro key hkey hne
    by_cases hnew : key = entryKey n
    · exact ⟨n, by omega, hnew⟩
    · rw [hsame key hnew] at hne
      obtain ⟨i, hi, hold⟩ := h.keys key hkey hne
      exact ⟨i, by omega, hold⟩
  · intro key found hkey hmem
    simp only [Device.write, List.mem_cons, Prod.mk.injEq] at hmem
    rcases hmem with ⟨rfl, rfl⟩ | hmem
    · exact Store.write_self _ _ _
    · -- an older put is still stored, so its key is not the free one
      have hold := h.kept key found hkey hmem
      have hnew : key ≠ entryKey n := by
        rintro rfl
        simp [h.free hn] at hold
      rw [hsame key hnew]
      exact hold

theorem Torn.cacheMeta (h : Torn ulogSha256 anchor d n) (wire : Blob) :
    Torn ulogSha256 anchor (d.cacheMeta ulogSha256 wire) n :=
  ⟨h.toLog.write_meta _, h.counter, h.floor⟩

theorem Torn.adopt (h : Torn ulogSha256 anchor d n) {wire : Blob}
    (hs : d.store.Slot ulogSha256 n wire) :
    Clean ulogSha256 anchor (d.adopt ulogSha256 wire) (n + 1) := by
  have hle := h.chain.le_seqMax
  have hcount : (d.adopt ulogSha256 wire).counter = n + 1 := congrArg (· + 1) h.counter
  refine ⟨⟨(h.write_meta _).chain, (h.write_meta _).keys, (h.write_meta _).kept⟩, hcount, ?_, ?_⟩
  · have hmeta := Store.metaAt_write hs (by simp only [ULOG_SEQ_MAX] at hle; omega)
    rw [← h.counter] at hmeta ⊢
    exact hmeta
  · intro ha
    have hf : (d.adopt ulogSha256 wire).floor = n := h.floor ha
    omega

-- Recovery turns a torn state into a clean one, and may be cut at any step of it.
theorem wp_recover_recoverable (h : Recoverable ulogSha256 anchor d) :
    wp (faultyDevice kind) (Recoverable ulogSha256 anchor) (ulogRecover ulogSha256)
      (fun rc d' => rc = .ok () → ∃ m, Clean ulogSha256 anchor d' m) d := by
  obtain ⟨n, hclean | htorn⟩ := h
  · refine wp_recover ⟨n, Or.inl hclean⟩ (by simp) (fun _ _ => ⟨n, hclean⟩) fun wire hs => ?_
    rw [hclean.counter] at hs
    exact absurd hs (hclean.no_slot wire)
  · refine wp_recover ⟨n, Or.inr htorn⟩ (by simp) (fun hno => ?_) fun wire hs => ?_
    · obtain ⟨wire, hs⟩ := htorn.chain n (by omega)
      rw [htorn.counter] at hno
      exact absurd hs (hno wire)
    · rw [htorn.counter] at hs
      have hadopt := htorn.adopt hs
      exact ⟨⟨n, Or.inr (htorn.cacheMeta wire)⟩, by simp, ⟨n + 1, Or.inl hadopt⟩,
        fun _ => ⟨n + 1, hadopt⟩⟩

theorem Clean.raise (h : Clean ulogSha256 anchor d n) (hle : d.floor ≤ n) :
    Clean ulogSha256 anchor (d.raise n) n ∧ (d.raise n).floor = n := by
  have hf : (d.raise n).floor = n := Nat.max_eq_right hle
  refine ⟨⟨⟨h.chain, h.keys, h.kept⟩, h.counter, h.cached, fun _ => ?_⟩, hf⟩
  omega

theorem wp_sync_clean (h : Clean ulogSha256 anchor d n) :
    wp (faultyDevice kind) (Recoverable ulogSha256 anchor) (ulogSyncAnchor anchor)
      (fun out d' => out = .ok false →
        (∃ m, Clean ulogSha256 anchor d' m) ∧ (anchor ≠ none → d'.floor = d'.counter)) d := by
  refine wp_syncAnchor ⟨n, Or.inl h⟩ ?_ (by simp) (by simp) ?_
  · intro hnone _
    exact ⟨⟨n, h⟩, fun ha => absurd hnone ha⟩
  · intro _ hle
    rw [h.counter] at hle ⊢
    obtain ⟨hraised, hfloor⟩ := h.raise hle
    exact ⟨⟨n, Or.inl hraised⟩, fun _ => ⟨⟨n, hraised⟩, fun _ => hfloor.trans hraised.counter.symm⟩⟩

theorem Clean.commitEntry (h : Clean ulogSha256 anchor d n)
    (hfloor : anchor ≠ none → d.floor = d.counter) {entry : Entry} {prev : Digest} {wire : Blob}
    (hn : d.counter ≤ ULOG_SEQ_MAX) (hpred : d.store.predHash ulogSha256 d.counter = .ok prev)
    (henc : ulogEntryEncode { entry with seq := d.counter } prev = .ok wire) :
    Torn ulogSha256 anchor (d.commitEntry wire) n ∧
      (d.commitEntry wire).store.Slot ulogSha256 n wire := by
  have hc := h.counter
  rw [hc] at hfloor hn hpred henc
  have hlog := h.toLog.write_entry hn hpred henc
  have hslot := Store.slot_write_entry hn hpred henc
  rw [← hc] at hlog hslot
  exact ⟨⟨hc ▸ hlog, hc, hfloor⟩, hc ▸ hslot⟩

theorem wp_commit_clean (h : Clean ulogSha256 anchor d n)
    (hfloor : anchor ≠ none → d.floor = d.counter) {entry : Entry} {prev : Digest} {wire : Blob}
    (hn : d.counter ≤ ULOG_SEQ_MAX) (hpred : d.store.predHash ulogSha256 d.counter = .ok prev)
    (henc : ulogEntryEncode { entry with seq := d.counter } prev = .ok wire) :
    wp (faultyDevice kind) (Recoverable ulogSha256 anchor)
      (ulogCommit ulogSha256 anchor d.counter wire) (fun _ _ => True) d := by
  obtain ⟨htorn, hslot⟩ := h.commitEntry hfloor hn hpred henc
  have hclean := htorn.adopt hslot
  refine wp_commit ⟨n, Or.inl h⟩ (fun _ => trivial) fun _ => ⟨⟨n, Or.inr htorn⟩, fun _ => trivial,
    ⟨n, Or.inr (htorn.cacheMeta wire)⟩, fun _ => trivial, ⟨n + 1, Or.inl hclean⟩, fun _ => trivial,
    fun ha => ⟨fun _ => trivial, ⟨n + 1, Or.inl ?_⟩, trivial⟩⟩
  have hle := (hclean.floor ha).1
  rw [h.counter]
  exact (hclean.raise hle).1

-- The invariant of every run, whatever fails and wherever it is cut.
theorem callRun_recoverable {d d' : Device} (hrun : CallRun ulogSha256 anchor kind d d')
    (h : Recoverable ulogSha256 anchor d) : Recoverable ulogSha256 anchor d' :=
  callRun_invariant (fun d => ∃ n, Clean ulogSha256 anchor d n)
    (fun _ h => wp_recover_recoverable h) (fun _ ⟨_, h⟩ => wp_sync_clean h)
    (fun _ _ _ _ ⟨_, h⟩ hfloor hn hpred henc => wp_commit_clean h hfloor hn hpred henc) hrun h

theorem clean_empty (ulogSha256 : Blob → Digest) (anchor : Option AnchorIf) :
    Clean ulogSha256 anchor Device.empty 0 := by
  refine ⟨⟨?_, ?_, ?_⟩, rfl, ?_, ?_⟩
  · intro i hi
    omega
  · intro key _ hne
    exact absurd rfl hne
  · intro key blob _ hmem
    simp [Device.empty] at hmem
  · intro hz
    exact absurd rfl hz
  · intro _
    exact ⟨Nat.le_refl _, Nat.le_succ _⟩

-- Without faults, recovery of a log with no torn entry changes nothing.
theorem run_recover_log (h : Log ulogSha256 d n) (hc : d.counter = n) (kind : StoreKind) :
    (ulogRecover ulogSha256).run (Device.respond kind) d = (.ok (), d) := by
  have hp := d.presents kind
  rw [hc] at hp
  have hn := h.chain.ne_max (Nat.le_refl n)
  by_cases hfree : d.store (entryKey n) = none
  · exact run_recover_absent hp hn hfree
  · -- past the bound the key aliases an entry of the chain, which carries another number
    obtain ⟨i, hi, hkey⟩ := h.keys (entryKey n) (entryKey_ne_metaKey n) hfree
    obtain ⟨wire, hs⟩ := h.chain i hi
    have hf := hs.1
    rw [← hkey] at hf
    exact run_recover_squatter hp hn hf h.chain (h.no_slot wire)

theorem run_recover_torn (h : Torn ulogSha256 anchor d n) (kind : StoreKind) :
    ∃ wire, (ulogRecover ulogSha256).run (Device.respond kind) d =
        (.ok (), d.adopt ulogSha256 wire) ∧
      Clean ulogSha256 anchor (d.adopt ulogSha256 wire) (n + 1) := by
  obtain ⟨wire, hs⟩ := h.chain n (by omega)
  have hn : d.counter ≠ UINT64_MAX := h.chain.ne_max (by rw [h.counter]; omega)
  exact ⟨wire, run_recover_adopt_device (h.counter ▸ hs) hn, h.adopt hs⟩

-- The number of entries is what recovery leaves the counter at.
theorem Recoverable.run_recover (h : Recoverable ulogSha256 anchor d) (kind : StoreKind) :
    ∃ d' m, (ulogRecover ulogSha256).run (Device.respond kind) d = (.ok (), d') ∧
      Clean ulogSha256 anchor d' m ∧ d'.floor = d.floor ∧ Log ulogSha256 d m ∧
      (d.counter = m ∨ d.counter + 1 = m) := by
  obtain ⟨n, hclean | htorn⟩ := h
  · exact ⟨d, n, run_recover_log hclean.toLog hclean.counter kind, hclean, rfl, hclean.toLog,
      Or.inl hclean.counter⟩
  · obtain ⟨wire, hrun, hclean⟩ := run_recover_torn htorn kind
    exact ⟨_, n + 1, hrun, hclean, rfl, htorn.toLog, Or.inr (congrArg (· + 1) htorn.counter)⟩

theorem run_verifyAtCounter_clean (h : Clean ulogSha256 anchor d n) (hn : n ≤ ULOG_SEQ_MAX) :
    (ulogVerifyAtCounter ulogSha256).run (Device.respond kind) d = (.ok ⟨.verifyOk, 0⟩, d) := by
  have hp := d.presents kind
  rw [h.counter] at hp
  obtain ⟨link, hlink⟩ := h.chain.predHash
  rw [run_verifyAtCounter hp h.chain h.cached hlink, run_frontier_absent hp link (h.free hn)]

-- Without faults an append to a log in range commits one more entry.
theorem run_append_clean (h : Clean ulogSha256 none d n) (hn : n ≤ ULOG_SEQ_MAX) {entry : Entry}
    (he : entry.Encodable) (kind : StoreKind) :
    ∃ d', (ulogEngineAppend ulogSha256 entry).run (Device.respond kind) d = (.ok (), d') ∧
      Clean ulogSha256 none d' (n + 1) := by
  obtain ⟨link, hlink⟩ := h.chain.predHash
  have hseq : { entry with seq := n }.Encodable := he
  have henc := encode_of_encodable hseq link
  have hp := d.presents kind
  rw [h.counter] at hp
  have hc := h.counter
  obtain ⟨htorn, hslot⟩ := h.commitEntry (by simp) (hc ▸ hn) (hc ▸ hlink) (hc ▸ henc)
  refine ⟨_, ?_, htorn.adopt hslot⟩
  rw [run_append_of_recover (run_recover_log h.toLog hc kind),
    run_appendAtCounter hp hn h.cached hlink henc, ← hc, run_commit_device none]
  · rfl
  · intro _
    rw [hc]
    exact h.free hn

-- What a state reached by a run with power cuts and faults has to satisfy: it holds `n`
-- entries with a counter at most one behind, all durable entries are kept, and verify
-- accepts it as long as the counter stays in range.
structure CrashSafe (ulogSha256 : Blob → Digest) (kind : StoreKind) (d : Device) (n : Nat) :
    Prop where
  present : ∀ key, key ≠ metaKey → (d.store key ≠ none ↔ ∃ i < n, key = entryKey i)
  chain : d.store.ChainTo ulogSha256 n
  counter : d.counter = n ∨ d.counter + 1 = n
  kept : ∀ i blob, (entryKey i, blob) ∈ d.puts → d.store (entryKey i) = some blob
  verified : ((ulogEngineVerify ulogSha256).run (Device.respond kind) d).2.counter ≤ ULOG_SEQ_MAX →
    ((ulogEngineVerify ulogSha256).run (Device.respond kind) d).1 = .ok ⟨.verifyOk, 0⟩ ∧
    ((ulogEngineVerify ulogSha256).run (Device.respond kind) d).2.counter = n

theorem crash_safety {ulogSha256 : Blob → Digest} {kind : StoreKind} {d : Device}
    (hrun : CallRun ulogSha256 none kind Device.empty d) : ∃ n, CrashSafe ulogSha256 kind d n := by
  have hinv := callRun_recoverable hrun ⟨0, Or.inl (clean_empty ulogSha256 none)⟩
  obtain ⟨d', n, hrec, hclean, -, hlog, hcount⟩ := hinv.run_recover kind
  refine ⟨n, hlog.present, hlog.chain, hcount, ?_, ?_⟩
  · intro i blob hmem
    exact hlog.kept _ blob (entryKey_ne_metaKey i) hmem
  · rw [run_verify_of_recover hrec, Prog.run_frame respond_read verifyAtCounter_reads]
    intro hle
    rw [hclean.counter] at hle ⊢
    rw [run_verifyAtCounter_clean hclean hle]
    exact ⟨rfl, rfl⟩

def blankEntry : Entry :=
  { seq := 0, fwVersion := fun _ => 0, imageHash := fun _ => 0, status := 0, timestamp := 0 }

-- The first append is cut off between its puts and its count, and the second one recovers it.
theorem crash_safety_cut_append :
    ∃ d₁ d₂, CallRun (fun _ => zeroDigest) none .mutable Device.empty d₁ ∧ d₁.counter = 0 ∧
      (d₁.store (entryKey 0)).isSome = true ∧ CallRun (fun _ => zeroDigest) none .mutable Device.empty d₂ ∧
        d₂.counter = 2 ∧ ∃ n, CrashSafe (fun _ => zeroDigest) .mutable d₂ n := by
  have hcut : CallRun (fun _ => zeroDigest) none .mutable Device.empty _ :=
    callRun_cut (.append blankEntry) 5 Device.empty
  have hrun := hcut.trans (callRun_call (.append blankEntry) _)
  exact ⟨_, _, hcut, by decide, by decide, hrun, by decide, crash_safety hrun⟩

end AlpSdk.UpdateLog
