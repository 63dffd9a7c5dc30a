import AlpSdk.UpdateLog.Device.Chain

namespace AlpSdk.UpdateLog

open Library.Effect

-- At the state `s` the seams report the counter `n` and, up to the slot of the counter,
-- the contents of `store`. Any tier is used through this.
structure Presents {S : Type} (h : Handler Seams S) (s : S) (store : Store) (n : Nat) : Prop where
  counter : h .ctrRead s = (.ok n, s)
  entry : ∀ i ≤ n, h (.get (entryKey i) ULOG_ENTRY_WIRE_LEN) s =
    (store.fetch (entryKey i) ULOG_ENTRY_WIRE_LEN, s)
  cached : h (.get metaKey ULOG_META_WIRE_LEN) s = (store.fetch metaKey ULOG_META_WIRE_LEN, s)

theorem Device.presents (kind : StoreKind) (d : Device) :
    Presents (Device.respond kind) d d.store d.counter :=
  ⟨rfl, fun _ _ => rfl, rfl⟩

section Presents

variable {S : Type} {h : Handler Seams S} {s : S} {store : Store} {n : Nat}
  {ulogSha256 : Blob → Digest}

@[simp] theorem run_storeGet (key : Key) (cap : Nat) :
    (storeGet key cap).run h s = h (.get key cap) s := rfl

@[simp] theorem run_storePut (key : Key) (blob : Blob) :
    (storePut key blob).run h s = h (.put key blob) s := rfl

@[simp] theorem run_ctrRead : ctrRead.run h s = h .ctrRead s := rfl

@[simp] theorem run_anchorRead : anchorRead.run h s = h .anchorRead s := rfl

@[simp] theorem run_ctrIncrement : ctrIncrement.run h s = h .ctrIncrement s := rfl

theorem run_prevHash (hp : Presents h s store n) (seq : Nat) (hseq : seq ≤ n + 1) :
    (ulogPrevHashOfPredecessor ulogSha256 seq).run h s = (store.predHash ulogSha256 seq, s) := by
  unfold ulogPrevHashOfPredecessor Store.predHash
  by_cases hz : seq = 0
  · simp only [hz, if_true]
    rfl
  · simp only [hz, if_false, Prog.run_bind, run_storeGet, hp.entry (seq - 1) (by omega)]
    cases store.fetch (entryKey (seq - 1)) ULOG_ENTRY_WIRE_LEN with
    | error rc => rfl
    | ok pwire => rfl

theorem run_recover_absent (hp : Presents h s store n) (hn : n ≠ UINT64_MAX)
    (hfree : store (entryKey n) = none) : (ulogRecover ulogSha256).run h s = (.ok (), s) := by
  unfold ulogRecover
  simp only [Prog.run_bind, run_ctrRead, hp.counter, hn, if_false, run_storeGet,
    hp.entry n (Nat.le_refl n), Store.fetch_none hfree, if_true]
  rfl

-- A blob that fits the buffer and does not chain is left where it is.
theorem run_recover_squatter (hp : Presents h s store n) (hn : n ≠ UINT64_MAX) {wire : Blob}
    (hf : store.fetch (entryKey n) ULOG_ENTRY_WIRE_LEN = .ok wire)
    (hchain : store.ChainTo ulogSha256 n) (hs : ¬store.Slot ulogSha256 n wire) :
    (ulogRecover ulogSha256).run h s = (.ok (), s) := by
  unfold ulogRecover
  simp only [Prog.run_bind, run_ctrRead, hp.counter, hn, if_false, run_storeGet,
    hp.entry n (Nat.le_refl n), hf]
  cases hdec : ulogEntryDecode wire with
  | error rc => rfl
  | ok pair =>
      obtain ⟨e, gotPrev⟩ := pair
      dsimp only
      by_cases hseq : e.seq = n
      · simp only [hseq, ne_eq, not_true_eq_false, if_false, Prog.run_bind,
          run_prevHash hp n (by omega)]
        obtain ⟨link, hlink⟩ := hchain.predHash
        simp only [hlink]
        by_cases heq : gotPrev = link
        · exact absurd ⟨hf, e, gotPrev, hdec, hseq, heq ▸ hlink⟩ hs
        · simp only [heq, not_false_eq_true, if_true]
          rfl
      · simp only [ne_eq, hseq, not_false_eq_true, if_true]
        rfl

theorem run_recover_adopt (hp : Presents h s store n) (hn : n ≠ UINT64_MAX) {wire : Blob}
    (hs : store.Slot ulogSha256 n wire) :
    (ulogRecover ulogSha256).run h s = (ulogAdopt ulogSha256 n wire).run h s := by
  obtain ⟨hf, e, prev, hdec, hseq, hpred⟩ := hs
  unfold ulogRecover
  simp only [Prog.run_bind, run_ctrRead, hp.counter, hn, if_false, run_storeGet,
    hp.entry n (Nat.le_refl n), hf, hdec, hseq, ne_eq, not_true_eq_false,
    run_prevHash hp n (by omega), hpred]

-- A slot that cannot be read, for another reason than that it is free, ends the recovery.
theorem run_recover_unreadable (hc : h .ctrRead s = (.ok n, s)) (hn : n ≠ UINT64_MAX) {rc : AlpError}
    (hf : h (.get (entryKey n) ULOG_ENTRY_WIRE_LEN) s = (.error rc, s)) (hrc : rc ≠ .notFound) :
    (ulogRecover ulogSha256).run h s = (.error rc, s) := by
  unfold ulogRecover
  simp only [Prog.run_bind, run_ctrRead, hc, hn, if_false, run_storeGet, hf, hrc]
  rfl

theorem run_recover_tooBig (hp : Presents h s store n) (hn : n ≠ UINT64_MAX) {rc : AlpError}
    (hf : store.fetch (entryKey n) ULOG_ENTRY_WIRE_LEN = .error rc) (hrc : rc ≠ .notFound) :
    (ulogRecover ulogSha256).run h s = (.error rc, s) := by
  have hget := hp.entry n (Nat.le_refl n)
  rw [hf] at hget
  exact run_recover_unreadable hp.counter hn hget hrc

-- The loop accepts every entry of a chain and ends with the hash of the last one.
theorem run_walk (hp : Presents h s store n) (left i : Nat) (prev : Digest)
    (hi : i + left ≤ n) (hchain : store.ChainTo ulogSha256 (i + left))
    (hprev : store.predHash ulogSha256 i = .ok prev) :
    ∃ link, store.predHash ulogSha256 (i + left) = .ok link ∧
      (ulogVerifyWalk ulogSha256 left i prev).run h s = (.ok link, s) := by
  induction left generalizing i prev with
  | zero => exact ⟨prev, hprev, rfl⟩
  | succ left ih =>
      obtain ⟨wire, hs⟩ := hchain i (by omega)
      have hs' := hs
      obtain ⟨hf, e, got, hdec, hseq, hgot⟩ := hs'
      have heq : got = prev := Except.ok.inj (hgot.symm.trans hprev)
      have hnext : i + (left + 1) = i + 1 + left := by omega
      rw [hnext] at hi hchain ⊢
      obtain ⟨link, hlink, hrun⟩ := ih (i + 1) (ulogSha256 wire) hi hchain hs.predHash_succ
      refine ⟨link, hlink, ?_⟩
      simp only [ulogVerifyWalk, Prog.run_bind, run_storeGet, hp.entry i (by omega), hf, hdec, hseq,
        heq, ne_eq, not_true_eq_false, or_self, if_false]
      exact hrun

theorem run_verifyMeta (hp : Presents h s store n) (hm : store.MetaAt ulogSha256 n) {link : Digest}
    (hlink : store.predHash ulogSha256 n = .ok link) :
    (ulogVerifyMeta n).run h s = (.ok { count := n, headHash := link }, s) := by
  unfold ulogVerifyMeta
  by_cases hz : n = 0
  · subst hz
    have hzero : link = zeroDigest := (Except.ok.inj hlink).symm
    simp only [if_true, hzero]
    rfl
  · obtain ⟨buf, found, hf, hdec, hfound⟩ := hm hz
    have heq : found = link := Except.ok.inj (hfound.symm.trans hlink)
    simp only [hz, if_false, Prog.run_bind, run_storeGet, hp.cached, hf, hdec, heq, ne_eq,
      not_true_eq_false]
    rfl

-- On a chain with matching meta only the slot of the counter decides the verdict.
theorem run_verifyAtCounter (hp : Presents h s store n) (hchain : store.ChainTo ulogSha256 n)
    (hm : store.MetaAt ulogSha256 n) {link : Digest}
    (hlink : store.predHash ulogSha256 n = .ok link) :
    (ulogVerifyAtCounter ulogSha256).run h s = (ulogVerifyFrontier n link).run h s := by
  obtain ⟨found, hfound, hwalk⟩ := run_walk hp n 0 zeroDigest (by omega)
    (by rw [Nat.zero_add]; exact hchain) rfl
  have heq : found = link := by
    rw [Nat.zero_add] at hfound
    exact Except.ok.inj (hfound.symm.trans hlink)
  unfold ulogVerifyAtCounter
  simp only [Prog.run_bind, run_ctrRead, hp.counter, run_verifyMeta hp hm hlink, hwalk, heq,
    ne_eq, not_true_eq_false, and_false, if_false]

theorem run_frontier_absent (hp : Presents h s store n) (link : Digest)
    (hfree : store (entryKey n) = none) :
    (ulogVerifyFrontier n link).run h s = (.ok ⟨.verifyOk, 0⟩, s) := by
  unfold ulogVerifyFrontier
  simp only [Prog.run_bind, run_storeGet, hp.entry n (Nat.le_refl n), Store.fetch_none hfree,
    if_true]
  rfl

theorem run_frontier_slot (hp : Presents h s store n) {wire : Blob}
    (hs : store.Slot ulogSha256 n wire) {link : Digest}
    (hlink : store.predHash ulogSha256 n = .ok link) :
    (ulogVerifyFrontier n link).run h s = (.ok ⟨.rolledBack, 0⟩, s) := by
  obtain ⟨hf, e, prev, hdec, hseq, hpred⟩ := hs
  have heq : prev = link := Except.ok.inj (hpred.symm.trans hlink)
  unfold ulogVerifyFrontier
  simp only [Prog.run_bind, run_storeGet, hp.entry n (Nat.le_refl n), hf, hdec, hseq, heq, and_self,
    if_true]
  rfl

theorem run_frontier_squatter (hp : Presents h s store n) {wire : Blob}
    (hf : store.fetch (entryKey n) ULOG_ENTRY_WIRE_LEN = .ok wire)
    (hs : ¬store.Slot ulogSha256 n wire) {link : Digest}
    (hlink : store.predHash ulogSha256 n = .ok link) :
    (ulogVerifyFrontier n link).run h s = (.ok ⟨.chainBroken, n⟩, s) := by
  unfold ulogVerifyFrontier
  simp only [Prog.run_bind, run_storeGet, hp.entry n (Nat.le_refl n), hf]
  cases hdec : ulogEntryDecode wire with
  | error rc => rfl
  | ok pair =>
      obtain ⟨e, prev⟩ := pair
      have hno : ¬(e.seq = n ∧ prev = link) := by
        intro ⟨hseq, heq⟩
        exact hs ⟨hf, e, prev, hdec, hseq, heq ▸ hlink⟩
      simp only [hno, if_false]
      rfl

theorem run_frontier_tooBig (hp : Presents h s store n) (link : Digest) {rc : AlpError}
    (hf : store.fetch (entryKey n) ULOG_ENTRY_WIRE_LEN = .error rc) (hrc : rc ≠ .notFound) :
    (ulogVerifyFrontier n link).run h s = (.error .io, s) := by
  unfold ulogVerifyFrontier
  simp only [Prog.run_bind, run_storeGet, hp.entry n (Nat.le_refl n), hf, hrc, if_false]
  rfl

theorem run_checkMeta (hp : Presents h s store n) (hm : store.MetaAt ulogSha256 n) {link : Digest}
    (hlink : store.predHash ulogSha256 n = .ok link) :
    (ulogCheckMeta n link).run h s = (.ok (), s) := by
  unfold ulogCheckMeta
  by_cases hz : n = 0
  · simp only [hz, if_true]
    rfl
  · obtain ⟨buf, found, hf, hdec, hfound⟩ := hm hz
    have heq : found = link := Except.ok.inj (hfound.symm.trans hlink)
    simp only [hz, if_false, Prog.run_bind, run_storeGet, hp.cached, hf, hdec, heq, ne_eq,
      not_true_eq_false, or_self]
    rfl

-- On a log with matching meta an append gets as far as its durable writes.
theorem run_appendAtCounter (hp : Presents h s store n) (hn : n ≤ ULOG_SEQ_MAX)
    (hm : store.MetaAt ulogSha256 n) {link : Digest}
    (hlink : store.predHash ulogSha256 n = .ok link) {entry : Entry} {wire : Blob}
    (henc : ulogEntryEncode { entry with seq := n } link = .ok wire) (anchor : Option AnchorIf) :
    (ulogAppendAtCounter ulogSha256 anchor entry).run h s =
      (ulogCommit ulogSha256 anchor n wire).run h s := by
  have hin : ¬n > ULOG_SEQ_MAX := by omega
  unfold ulogAppendAtCounter
  simp only [Prog.run_bind, run_ctrRead, hp.counter, hin, if_false, run_prevHash hp n (by omega),
    hlink, run_checkMeta hp hm hlink, henc]

theorem run_verify_of_recover {s' : S} (hr : (ulogRecover ulogSha256).run h s = (.ok (), s')) :
    (ulogEngineVerify ulogSha256).run h s = (ulogVerifyAtCounter ulogSha256).run h s' := by
  unfold ulogEngineVerify ulogEngineVerifyAnchored
  simp only [ulogAnchorValid, Bool.true_eq_false, if_false, Prog.run_bind, hr, ulogSyncAnchor,
    Prog.pure_eq, Prog.run_ret, Bool.false_eq_true]

theorem run_verify_of_recover_error {rc : AlpError} {s' : S}
    (hr : (ulogRecover ulogSha256).run h s = (.error rc, s')) :
    (ulogEngineVerify ulogSha256).run h s = (.error rc, s') := by
  unfold ulogEngineVerify ulogEngineVerifyAnchored
  simp only [ulogAnchorValid, Bool.true_eq_false, if_false, Prog.run_bind, hr, Prog.pure_eq,
    Prog.run_ret]

theorem run_count_of_recover {s' : S} (hr : (ulogRecover ulogSha256).run h s = (.ok (), s')) :
    (ulogEngineCount ulogSha256).run h s = h .ctrRead s' := by
  unfold ulogEngineCount
  simp only [Prog.run_bind, hr, run_ctrRead]

theorem run_count_of_recover_error {rc : AlpError} {s' : S}
    (hr : (ulogRecover ulogSha256).run h s = (.error rc, s')) :
    (ulogEngineCount ulogSha256).run h s = (.error rc, s') := by
  unfold ulogEngineCount
  simp only [Prog.run_bind, hr, Prog.pure_eq, Prog.run_ret]

theorem run_append_of_recover {s' : S} (hr : (ulogRecover ulogSha256).run h s = (.ok (), s'))
    (entry : Entry) :
    (ulogEngineAppend ulogSha256 entry).run h s =
      (ulogAppendAtCounter ulogSha256 none entry).run h s' := by
  unfold ulogEngineAppend ulogEngineAppendAnchored
  simp only [ulogAnchorValid, Bool.true_eq_false, if_false, Prog.run_bind, hr, ulogSyncAnchor,
    Prog.pure_eq, Prog.run_ret, Bool.false_eq_true]

end Presents

theorem run_recover_adopt_device {kind : StoreKind} {ulogSha256 : Blob → Digest} {d : Device}
    {wire : Blob} (hs : d.store.Slot ulogSha256 d.counter wire) (hn : d.counter ≠ UINT64_MAX) :
    (ulogRecover ulogSha256).run (Device.respond kind) d = (.ok (), d.adopt ulogSha256 wire) := by
  rw [run_recover_adopt (d.presents kind) hn hs]
  unfold ulogAdopt
  simp only [Prog.run_bind, run_storePut, run_ctrIncrement, Device.respond, ne_eq, not_true_eq_false,
    false_and, and_false, if_false]
  rfl

-- The device after all durable writes of an append.
def Device.commit (ulogSha256 : Blob → Digest) (anchor : Option AnchorIf) (d : Device)
    (wire : Blob) : Device :=
  match anchor with
  | none => (d.commitEntry wire).adopt ulogSha256 wire
  | some _ => ((d.commitEntry wire).adopt ulogSha256 wire).raise (d.counter + 1)

theorem run_commit_device {kind : StoreKind} {ulogSha256 : Blob → Digest} {d : Device}
    (anchor : Option AnchorIf) (wire : Blob)
    (hfree : kind = .writeOnce → d.store (entryKey d.counter) = none) :
    (ulogCommit ulogSha256 anchor d.counter wire).run (Device.respond kind) d =
      (.ok (), d.commit ulogSha256 anchor wire) := by
  have hput : ¬(kind = .writeOnce ∧ entryKey d.counter ≠ metaKey ∧
      (d.store (entryKey d.counter)).isSome) := by
    intro ⟨hk, _, hsome⟩
    simp [hfree hk] at hsome
  unfold ulogCommit
  simp only [Prog.run_bind, run_storePut, run_ctrIncrement, Device.respond, hput, if_false, ne_eq,
    not_true_eq_false, false_and, and_false]
  cases anchor with
  | none => rfl
  | some anchor => rfl

end AlpSdk.UpdateLog
