import AlpSdk.UpdateLog.Rollback

namespace AlpSdk.UpdateLog

open Library.Effect

variable {ulogSha256 : Blob → Digest} {kind : StoreKind} {d d₀ : Device} {n : Nat}

-- The entries 0, …, n - 1 are byte for byte those of `d₀`.
def SameEntries (d₀ : Device) (n : Nat) (d : Device) : Prop :=
  ∀ i < n, d.store (entryKey i) = d₀.store (entryKey i)

theorem SameEntries.write (h : SameEntries d₀ n d) {key : Key} (blob : Blob)
    (hkey : ∀ i < n, entryKey i ≠ key) : SameEntries d₀ n (d.write key blob) := by
  intro i hi
  rw [← h i hi]
  exact Store.write_ne blob (hkey i hi)

theorem SameEntries.cacheMeta (h : SameEntries d₀ n d) (wire : Blob) :
    SameEntries d₀ n (d.cacheMeta ulogSha256 wire) :=
  h.write _ fun i _ => entryKey_ne_metaKey i

theorem SameEntries.chain (h : SameEntries d₀ n d) (hchain : d₀.store.ChainTo ulogSha256 n) :
    d.store.ChainTo ulogSha256 n :=
  (Store.chainTo_congr h).mpr hchain

-- On write-once entry keys a put of a key that is there is refused.
theorem sameEntries_writeOnce (hchain : d₀.store.ChainTo ulogSha256 n) {d' : Device}
    (hrun : CallRun ulogSha256 none .writeOnce d d') (h : SameEntries d₀ n d) :
    SameEntries d₀ n d' := by
  refine callRun_invariant (SameEntries d₀ n) ?_ ?_ ?_ hrun h
  · intro d h
    exact wp_recover h (by simp) (fun _ _ => h) fun wire _ =>
      ⟨h.cacheMeta wire, by simp, h.cacheMeta wire, fun _ => h.cacheMeta wire⟩
  · intro d h
    exact ⟨h, fun _ => ⟨h, fun ha => absurd rfl ha⟩⟩
  · intro d entry prev wire h _ _ _ _
    apply wp_commit h fun _ => trivial
    intro hfree
    have hentry : SameEntries d₀ n (d.commitEntry wire) := by
      apply h.write
      intro i hi hkey
      obtain ⟨old, hs⟩ := (h.chain hchain) i hi
      have hstored := hs.stored
      rw [hkey, hfree rfl] at hstored
      cases hstored
    exact ⟨hentry, fun _ => trivial, hentry.cacheMeta wire, fun _ => trivial,
      hentry.cacheMeta wire, fun _ => trivial, fun ha => absurd rfl ha⟩

-- A counter at most one entry behind is moved to the end before anything is appended.
theorem sameEntries_current (hchain : d₀.store.ChainTo ulogSha256 n) {d' : Device}
    (hrun : CallRun ulogSha256 none kind d d') (h : SameEntries d₀ n d) (hc : n ≤ d.counter + 1) :
    SameEntries d₀ n d' := by
  refine (callRun_invariant (J := fun d => SameEntries d₀ n d ∧ n ≤ d.counter + 1)
    (fun d => SameEntries d₀ n d ∧ n ≤ d.counter) ?_ ?_ ?_ hrun ⟨h, hc⟩).1
  · intro d ⟨h, hc⟩
    refine wp_recover ⟨h, hc⟩ (by simp) ?_ fun wire _ => ?_
    · intro hno _
      refine ⟨h, ?_⟩
      by_contra hlt
      obtain ⟨wire, hs⟩ := (h.chain hchain) d.counter (by omega)
      exact hno wire hs
    · have hadopt : (d.adopt ulogSha256 wire).counter = d.counter + 1 := rfl
      exact ⟨⟨h.cacheMeta wire, hc⟩, by simp, ⟨h.cacheMeta wire, by omega⟩,
        fun _ => ⟨h.cacheMeta wire, by omega⟩⟩
  · intro d ⟨h, hc⟩
    exact ⟨⟨h, by omega⟩, fun _ => ⟨⟨h, hc⟩, fun ha => absurd rfl ha⟩⟩
  · intro d entry prev wire ⟨h, hc⟩ _ hin _ _
    apply wp_commit ⟨h, by omega⟩ fun _ => trivial
    intro _
    have hentry : SameEntries d₀ n (d.commitEntry wire) := by
      apply h.write
      intro i hi hkey
      have heq := entryKey_injective (by omega) hin hkey
      omega
    have hcommit : (d.commitEntry wire).counter = d.counter := rfl
    have hcache : ((d.commitEntry wire).cacheMeta ulogSha256 wire).counter = d.counter := rfl
    have hadopt : ((d.commitEntry wire).adopt ulogSha256 wire).counter = d.counter + 1 := rfl
    exact ⟨⟨hentry, by omega⟩, fun _ => trivial, ⟨hentry.cacheMeta wire, by omega⟩,
      fun _ => trivial, ⟨hentry.cacheMeta wire, by omega⟩, fun _ => trivial,
      fun ha => absurd rfl ha⟩

-- With the counter further back, recovery adopts one entry, makes the meta agree with it,
-- and the append writes its own entry over the next one.
theorem append_overwrites (hchain : d.store.ChainTo ulogSha256 n) (hback : d.counter + 2 ≤ n)
    {entry : Entry} (he : entry.Encodable) :
    ∃ link wire, ulogEntryEncode { entry with seq := d.counter + 1 } link = .ok wire ∧
      ((ulogEngineAppend ulogSha256 entry).run (Device.respond .mutable) d).1 = .ok () ∧
      ((ulogEngineAppend ulogSha256 entry).run (Device.respond .mutable) d).2.store
        (entryKey (d.counter + 1)) = some wire := by
  have hle := hchain.le_seqMax
  obtain ⟨old, hs⟩ := hchain d.counter (by omega)
  have hmeta : (d.adopt ulogSha256 old).store.MetaAt ulogSha256 (d.counter + 1) :=
    Store.metaAt_write hs (by simp only [ULOG_SEQ_MAX] at hle; omega)
  have hslot : (d.adopt ulogSha256 old).store.Slot ulogSha256 d.counter old :=
    Store.slot_write_meta.mpr hs
  have hp : Presents (Device.respond .mutable) (d.adopt ulogSha256 old)
      (d.adopt ulogSha256 old).store (d.counter + 1) := Device.presents .mutable _
  have hseq : { entry with seq := d.counter + 1 }.Encodable := he
  obtain ⟨wire, henc⟩ : ∃ wire, ulogEntryEncode { entry with seq := d.counter + 1 }
      (ulogSha256 old) = .ok wire := ⟨_, encode_of_encodable hseq (ulogSha256 old)⟩
  have hmax : d.counter ≠ UINT64_MAX := counter_ne_max (by omega)
  have hcommit : (ulogCommit ulogSha256 none (d.adopt ulogSha256 old).counter wire).run
      (Device.respond .mutable) (d.adopt ulogSha256 old) =
        (.ok (), (d.adopt ulogSha256 old).commit ulogSha256 none wire) :=
    run_commit_device none wire (by simp)
  refine ⟨ulogSha256 old, wire, henc, ?_, ?_⟩
  · rw [run_append_of_recover (run_recover_adopt_device hs hmax),
      run_appendAtCounter hp (by omega) hmeta hslot.predHash_succ henc]
    exact congrArg Prod.fst hcommit
  · rw [run_append_of_recover (run_recover_adopt_device hs hmax),
      run_appendAtCounter hp (by omega) hmeta hslot.predHash_succ henc]
    refine (congrArg (fun out => out.2.store (entryKey (d.counter + 1))) hcommit).trans ?_
    exact (Store.write_ne _ (entryKey_ne_metaKey _)).trans (Store.write_self _ _ _)

-- Of two entries with different timestamps at most one encodes to the stored bytes.
theorem exists_overwrite (hchain : d.store.ChainTo ulogSha256 n) (hback : d.counter + 2 ≤ n) :
    ∃ entry, ((ulogEngineAppend ulogSha256 entry).run (Device.respond .mutable) d).1 = .ok () ∧
      ((ulogEngineAppend ulogSha256 entry).run (Device.respond .mutable) d).2.store
        (entryKey (d.counter + 1)) ≠ d.store (entryKey (d.counter + 1)) := by
  have he : ∀ time, { blankEntry with timestamp := time }.Encodable := by
    intro time
    exact show blankEntry.Encodable by decide
  obtain ⟨link, wire, henc, hok, hstore⟩ := append_overwrites hchain hback (he 0)
  obtain ⟨link', wire', henc', hok', hstore'⟩ := append_overwrites hchain hback (he 1)
  by_contra hsame
  push Not at hsame
  have heq : wire = wire' := by
    rw [hsame _ hok] at hstore
    rw [hsame _ hok'] at hstore'
    exact Option.some.inj (hstore.symm.trans hstore')
  have hdec := decode_encode henc
  rw [heq, decode_encode henc'] at hdec
  have htime := congrArg (fun out => (out.map fun pair => pair.1.timestamp)) hdec
  simp [Except.map, Entry.canonical] at htime

theorem history_kept_iff (hchain : d.store.ChainTo ulogSha256 n) :
    (∀ d', CallRun ulogSha256 none kind d d' → SameEntries d n d') ↔
      kind = .writeOnce ∨ n ≤ d.counter + 1 := by
  constructor
  · intro hkept
    by_contra hno
    push Not at hno
    obtain ⟨hkind, hback⟩ := hno
    have hmutable : kind = .mutable := by
      cases kind with
      | mutable => rfl
      | writeOnce => exact absurd rfl hkind
    subst hmutable
    obtain ⟨entry, -, hne⟩ := exists_overwrite hchain (by omega)
    have hrun : CallRun ulogSha256 none .mutable d _ := callRun_call (.append entry) d
    rw [Call.run_append] at hrun
    exact hne (hkept _ hrun (d.counter + 1) (by omega))
  · intro hcond d' hrun
    have hself : SameEntries d n d := fun _ _ => rfl
    rcases hcond with rfl | hcur
    · exact sameEntries_writeOnce hchain hrun hself
    · exact sameEntries_current hchain hrun hself hcur

theorem history_kept_iff_rewound :
    (rewound fun _ => zeroDigest).store.ChainTo (fun _ => zeroDigest) 2 ∧
      ((∀ d', CallRun (fun _ => zeroDigest) none .writeOnce (rewound fun _ => zeroDigest) d' →
        SameEntries (rewound fun _ => zeroDigest) 2 d') ↔
        StoreKind.writeOnce = .writeOnce ∨ 2 ≤ (rewound fun _ => zeroDigest).counter + 1) :=
  ⟨(rewound_regressed _).1.chain, history_kept_iff (rewound_regressed _).1.chain⟩

-- Two entries and the counter set back to 0: one append replaces the entry 1.
theorem history_rewritten :
    (∀ ulogSha256, (rewound ulogSha256).store.ChainTo ulogSha256 2 ∧
      (rewound ulogSha256).counter = 0) ∧
    ∀ ulogSha256, ∃ entry, ((ulogEngineAppend ulogSha256 entry).run (Device.respond .mutable)
        (rewound ulogSha256)).1 = .ok () ∧
      ((ulogEngineAppend ulogSha256 entry).run (Device.respond .mutable)
        (rewound ulogSha256)).2.store (entryKey 1) ≠ (rewound ulogSha256).store (entryKey 1) := by
  refine ⟨fun ulogSha256 => ⟨(rewound_regressed ulogSha256).1.chain, rfl⟩, ?_⟩
  intro ulogSha256
  have hchain := (rewound_regressed ulogSha256).1.chain
  have hc : (rewound ulogSha256).counter = 0 := rfl
  have hover := exists_overwrite hchain (by omega)
  simp only [hc, Nat.zero_add] at hover
  exact hover

end AlpSdk.UpdateLog
