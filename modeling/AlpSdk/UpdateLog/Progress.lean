import AlpSdk.UpdateLog.CrashSafety
import AlpSdk.UpdateLog.Device.Accept

namespace AlpSdk.UpdateLog

open Library.Effect

variable {ulogSha256 : Blob → Digest} {anchor : Option AnchorIf} {kind : StoreKind} {d : Device}

-- The state verify leaves behind when it has reported VERIFY_OK.
structure Settled (ulogSha256 : Blob → Digest) (anchor : Option AnchorIf) (d : Device) : Prop where
  valid : ulogAnchorValid anchor = true
  accepted : Accepted ulogSha256 d.store d.counter
  level : anchor ≠ none → d.floor = d.counter

theorem settled_of_verify {badSeq : Nat}
    (hrun : ((ulogEngineVerifyAnchored ulogSha256 anchor).run (Device.respond kind) d).1 =
      .ok ⟨.verifyOk, badSeq⟩) :
    Settled ulogSha256 anchor
      ((ulogEngineVerifyAnchored ulogSha256 anchor).run (Device.respond kind) d).2 := by
  obtain ⟨hv, d', -, hle, hfinal, hacc⟩ := run_verify_inv hrun
  rw [hfinal]
  refine ⟨hv, ?_, ?_⟩
  · rw [Device.sync_store, Device.sync_counter]
    exact hacc
  · intro ha
    rw [Device.sync_floor anchor ha (hle ha), Device.sync_counter]

theorem Settled.counter_ne_max (h : Settled ulogSha256 anchor d) : d.counter ≠ UINT64_MAX :=
  h.accepted.chain.ne_max (Nat.le_refl _)

-- The append finds nothing to recover or to sync, and its checks pass.
theorem Settled.run_append (h : Settled ulogSha256 anchor d) {entry : Entry}
    (he : entry.Encodable) (kind : StoreKind) :
    ∃ link wire, d.store.predHash ulogSha256 d.counter = .ok link ∧
      ulogEntryEncode { entry with seq := d.counter } link = .ok wire ∧
      (ulogEngineAppendAnchored ulogSha256 anchor entry).run (Device.respond kind) d =
        (.ok (), d.commit ulogSha256 anchor wire) := by
  have hp := d.presents kind
  have hle := h.accepted.le_seqMax
  have hrec : (ulogRecover ulogSha256).run (Device.respond kind) d = (.ok (), d) :=
    run_recover_absent hp h.counter_ne_max h.accepted.free
  obtain ⟨link, hlink⟩ := h.accepted.chain.predHash
  have hseq : { entry with seq := d.counter }.Encodable := he
  obtain ⟨wire, henc⟩ : ∃ wire, ulogEntryEncode { entry with seq := d.counter } link = .ok wire :=
    ⟨_, encode_of_encodable hseq link⟩
  refine ⟨link, wire, hlink, henc, ?_⟩
  rw [run_append_anchored h.valid hrec (fun ha => (h.level ha).le), Device.sync_of_floor _ h.level,
    run_appendAtCounter hp hle h.accepted.cached hlink henc,
    run_commit_device anchor wire fun _ => h.accepted.free]

theorem Device.commit_counter (ulogSha256 : Blob → Digest) (anchor : Option AnchorIf) (d : Device)
    (wire : Blob) : (d.commit ulogSha256 anchor wire).counter = d.counter + 1 := by
  cases anchor <;> rfl

theorem Device.commit_store (ulogSha256 : Blob → Digest) (anchor : Option AnchorIf) (d : Device)
    (wire : Blob) : (d.commit ulogSha256 anchor wire).store =
      (d.store.write (entryKey d.counter) wire).write metaKey
        (ulogMetaEncode { count := d.counter + 1, headHash := ulogSha256 wire }) := by
  cases anchor <;> rfl

theorem Device.commit_floor {anchor : Option AnchorIf} (ha : anchor ≠ none)
    (hf : d.floor = d.counter) (wire : Blob) :
    (d.commit ulogSha256 anchor wire).floor = d.counter + 1 := by
  cases anchor with
  | none => exact absurd rfl ha
  | some _ =>
      have hmax : max d.floor (d.counter + 1) = d.counter + 1 := by omega
      exact hmax

-- The counter, the meta and the floor agree with a chain that may go on at the counter.
structure Ready (ulogSha256 : Blob → Digest) (anchor : Option AnchorIf) (d : Device) : Prop where
  valid : ulogAnchorValid anchor = true
  chain : d.store.ChainTo ulogSha256 d.counter
  cached : d.store.MetaAt ulogSha256 d.counter
  level : anchor ≠ none → d.floor ≤ d.counter

theorem Settled.commit (h : Settled ulogSha256 anchor d) {entry : Entry} {link : Digest}
    {wire : Blob} (hlink : d.store.predHash ulogSha256 d.counter = .ok link)
    (henc : ulogEntryEncode { entry with seq := d.counter } link = .ok wire) :
    Ready ulogSha256 anchor (d.commit ulogSha256 anchor wire) := by
  have hle := h.accepted.le_seqMax
  have hchain := Store.chainTo_write_entry hle h.accepted.chain hlink henc
  have hmeta := Store.metaAt_write (Store.slot_write_entry hle hlink henc)
    (by simp only [ULOG_SEQ_MAX] at hle; omega)
  refine ⟨h.valid, ?_, ?_, ?_⟩
  · rw [Device.commit_store, Device.commit_counter]
    exact Store.chainTo_write_meta.mpr hchain
  · rw [Device.commit_store, Device.commit_counter]
    exact hmeta
  · intro ha
    rw [Device.commit_floor ha (h.level ha), Device.commit_counter]

theorem Ready.counter_ne_max (h : Ready ulogSha256 anchor d) : d.counter ≠ UINT64_MAX :=
  h.chain.ne_max (Nat.le_refl _)

theorem Ready.run_verify (h : Ready ulogSha256 anchor d) (hfree : d.store (entryKey d.counter) = none)
    (kind : StoreKind) :
    ((ulogVerifyAtCounter ulogSha256).run (Device.respond kind) (d.sync anchor)).1 =
      .ok ⟨.verifyOk, 0⟩ := by
  have hp := (d.sync anchor).presents kind
  rw [Device.sync_store, Device.sync_counter] at hp
  obtain ⟨link, hlink⟩ := h.chain.predHash
  rw [run_verifyAtCounter hp h.chain h.cached hlink, run_frontier_absent hp link hfree]

theorem Ready.adopt (h : Ready ulogSha256 anchor d) {wire : Blob}
    (hs : d.store.Slot ulogSha256 d.counter wire) :
    Ready ulogSha256 anchor (d.adopt ulogSha256 wire) := by
  have hlong := (h.chain.succ hs).le_seqMax
  refine ⟨h.valid, Store.chainTo_write_meta.mpr (h.chain.succ hs),
    Store.metaAt_write hs (by simp only [ULOG_SEQ_MAX] at hlong; omega), ?_⟩
  intro ha
  exact Nat.le_succ_of_le (h.level ha)

-- Verify accepts such a state when the chain ends at the counter, or goes on by one entry,
-- which recovery adopts.
theorem Ready.verify_iff (h : Ready ulogSha256 anchor d) (kind : StoreKind) :
    (∃ badSeq, ((ulogEngineVerifyAnchored ulogSha256 anchor).run (Device.respond kind) d).1 =
        .ok ⟨.verifyOk, badSeq⟩) ↔
      d.store (entryKey d.counter) = none ∨
        (∃ wire, d.store.Slot ulogSha256 d.counter wire) ∧
          d.store (entryKey (d.counter + 1)) = none := by
  have hp := d.presents kind
  have hmax := h.counter_ne_max
  constructor
  · intro ⟨badSeq, hrun⟩
    obtain ⟨-, d', hrec, -, -, hacc⟩ := run_verify_inv hrun
    by_cases hslot : ∃ wire, d.store.Slot ulogSha256 d.counter wire
    · obtain ⟨wire, hs⟩ := hslot
      have heq : d.adopt ulogSha256 wire = d' := by
        rw [run_recover_adopt_device hs hmax] at hrec
        exact congrArg Prod.snd hrec
      have hfree := hacc.free
      rw [← heq] at hfree
      exact Or.inr ⟨⟨wire, hs⟩, (Store.write_ne _ (entryKey_ne_metaKey _)).symm.trans hfree⟩
    · cases hf : d.store.fetch (entryKey d.counter) ULOG_ENTRY_WIRE_LEN with
      | ok wire =>
          rw [run_recover_squatter hp hmax hf h.chain fun hs => hslot ⟨wire, hs⟩] at hrec
          cases hrec
          exact Or.inl hacc.free
      | error rc =>
          by_cases hrc : rc = .notFound
          · rw [hrc] at hf
            exact Or.inl (Store.fetch_notFound_iff.mp hf)
          · rw [run_recover_tooBig hp hmax hf hrc] at hrec
            cases hrec
  · intro hcase
    rcases hcase with hfree | ⟨⟨wire, hs⟩, hfree⟩
    · have hrec : (ulogRecover ulogSha256).run (Device.respond kind) d = (.ok (), d) :=
        run_recover_absent hp hmax hfree
      rw [run_verify_anchored h.valid hrec h.level]
      exact ⟨0, h.run_verify hfree kind⟩
    · have hadopt := h.adopt hs
      rw [run_verify_anchored h.valid (run_recover_adopt_device hs hmax) hadopt.level]
      refine ⟨0, hadopt.run_verify ?_ kind⟩
      exact (Store.write_ne _ (entryKey_ne_metaKey _)).trans hfree

-- What an append does to the state `d` that verify has just accepted.
structure AppendsTo (ulogSha256 : Blob → Digest) (anchor : Option AnchorIf) (kind : StoreKind)
    (d : Device) (rc : Status) (d' : Device) : Prop where
  ok : rc = .ok ()
  seen : d.store.ChainTo ulogSha256 d.counter
  fresh : d.store (entryKey d.counter) = none
  added : ∃ wire e prev, d'.store (entryKey d.counter) = some wire ∧
    ulogEntryDecode wire = .ok (e, prev) ∧ e.seq = d.counter
  others : ∀ key, key ≠ metaKey → key ≠ entryKey d.counter → d'.store key = d.store key
  again : (∃ badSeq, ((ulogEngineVerifyAnchored ulogSha256 anchor).run (Device.respond kind) d').1 =
      .ok ⟨.verifyOk, badSeq⟩) ↔
    d'.store (entryKey (d.counter + 1)) = none ∨
      (∃ wire, d'.store.Slot ulogSha256 (d.counter + 1) wire) ∧
        d'.store (entryKey (d.counter + 2)) = none

-- Whenever verify reports VERIFY_OK, an append of a valid entry succeeds and adds it alone.
-- The next verify looks one slot further, at a key the first one did not look at.
theorem append_after_verify {badSeq : Nat} (entry : Entry)
    (hstatus : entry.status ≤ ALP_UPDATE_STATUS_PENDING_CONFIRM)
    (hnul : ∃ i, entry.fwVersion i = 0)
    (hok : ((ulogEngineVerifyAnchored ulogSha256 anchor).run (Device.respond kind) d).1 =
      .ok ⟨.verifyOk, badSeq⟩) :
    let seen := ((ulogEngineVerifyAnchored ulogSha256 anchor).run (Device.respond kind) d).2
    let out := (ulogEngineAppendAnchored ulogSha256 anchor entry).run (Device.respond kind) seen
    AppendsTo ulogSha256 anchor kind seen out.1 out.2 := by
  intro seen out
  have hsettled : Settled ulogSha256 anchor seen := settled_of_verify hok
  obtain ⟨i, hi⟩ := hnul
  have he : entry.Encodable := ⟨boundedLen_le_of_nul entry.fwVersion i hi, hstatus⟩
  obtain ⟨link, wire, hlink, henc, hrun⟩ := hsettled.run_append he kind
  have hout : out = (.ok (), seen.commit ulogSha256 anchor wire) := hrun
  have hslot := Store.slot_write_entry hsettled.accepted.le_seqMax hlink henc
  have hready := hsettled.commit hlink henc
  have hagain := hready.verify_iff kind
  rw [Device.commit_counter] at hagain
  rw [hout]
  refine ⟨rfl, hsettled.accepted.chain, hsettled.accepted.free, ?_, ?_, hagain⟩
  · obtain ⟨-, e, prev, hdec, hseq, -⟩ := hslot
    refine ⟨wire, e, prev, ?_, hdec, hseq⟩
    rw [Device.commit_store]
    exact (Store.write_ne _ (entryKey_ne_metaKey _)).trans (Store.write_self _ _ _)
  · intro key hmeta hkey
    rw [Device.commit_store]
    exact (Store.write_ne _ hmeta).trans (Store.write_ne _ hkey)

-- An empty log with one stray byte under the key of entry 1.
def strayed : Device :=
  { Device.empty with store := fun key => if key = entryKey 1 then some [0] else none }

theorem strayed_ready (ulogSha256 : Blob → Digest) : Ready ulogSha256 none strayed := by
  refine ⟨rfl, fun i hi => absurd hi (Nat.not_lt_zero i), fun hz => absurd rfl hz, ?_⟩
  intro ha
  exact absurd rfl ha

theorem strayed_verify (ulogSha256 : Blob → Digest) :
    ((ulogEngineVerifyAnchored ulogSha256 none).run (Device.respond .mutable) strayed).1 =
      .ok ⟨.verifyOk, 0⟩ := by
  have hrec : (ulogRecover ulogSha256).run (Device.respond .mutable) strayed = (.ok (), strayed) :=
    run_recover_absent (strayed.presents .mutable) (by decide) (by decide)
  rw [run_verify_anchored rfl hrec fun ha => absurd rfl ha]
  exact (strayed_ready ulogSha256).run_verify (by decide) .mutable

theorem append_after_verify_strayed :
    let seen := ((ulogEngineVerifyAnchored (fun _ => zeroDigest) none).run
      (Device.respond .mutable) strayed).2
    let out := (ulogEngineAppendAnchored (fun _ => zeroDigest) none blankEntry).run
      (Device.respond .mutable) seen
    AppendsTo (fun _ => zeroDigest) none .mutable seen out.1 out.2 :=
  append_after_verify blankEntry (by decide) ⟨0, rfl⟩ (strayed_verify _)

-- There verify reports VERIFY_OK and the append succeeds, but the next verify does not
-- report VERIFY_OK again.
theorem verify_after_append_fails :
    (∀ ulogSha256, ((ulogEngineVerifyAnchored ulogSha256 none).run
      (Device.respond .mutable) strayed).1 = .ok ⟨.verifyOk, 0⟩) ∧
    ∀ ulogSha256, ((ulogEngineAppendAnchored ulogSha256 none blankEntry).run (Device.respond .mutable)
        ((ulogEngineVerifyAnchored ulogSha256 none).run (Device.respond .mutable) strayed).2).1 =
          .ok () ∧
      ¬∃ badSeq, ((ulogEngineVerifyAnchored ulogSha256 none).run (Device.respond .mutable)
        ((ulogEngineAppendAnchored ulogSha256 none blankEntry).run (Device.respond .mutable)
          ((ulogEngineVerifyAnchored ulogSha256 none).run
            (Device.respond .mutable) strayed).2).2).1 = .ok ⟨.verifyOk, badSeq⟩ := by
  refine ⟨strayed_verify, ?_⟩
  intro ulogSha256
  have hblank : blankEntry.Encodable := by decide
  have hok := strayed_verify ulogSha256
  have hsettled := settled_of_verify hok
  obtain ⟨-, d', hrec, -, hfinal, -⟩ := run_verify_inv hok
  rw [run_recover_absent (strayed.presents .mutable) (by decide) (by decide)] at hrec
  cases hrec
  rw [hfinal] at hsettled ⊢
  obtain ⟨link, wire, hlink, henc, hrun⟩ := hsettled.run_append hblank .mutable
  rw [hrun]
  refine ⟨rfl, ?_⟩
  rw [(hsettled.commit hlink henc).verify_iff .mutable]
  have hstray : ((strayed.sync none).commit ulogSha256 none wire).store (entryKey 1) = some [0] := by
    rw [Device.commit_store]
    exact (Store.write_ne _ (entryKey_ne_metaKey 1)).trans (Store.write_ne _ (by decide))
  intro hcase
  rcases hcase with hfree | ⟨⟨other, hs⟩, -⟩
  · rw [Device.commit_counter] at hfree
    cases hstray.symm.trans hfree
  · rw [Device.commit_counter] at hs
    have hlen := hs.length
    cases hstray.symm.trans hs.stored
    simp [ULOG_ENTRY_WIRE_LEN] at hlen

end AlpSdk.UpdateLog
