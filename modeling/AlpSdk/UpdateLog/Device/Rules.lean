import AlpSdk.UpdateLog.Device
import AlpSdk.UpdateLog.Wire.Keys

namespace AlpSdk.UpdateLog

open Library.Effect

variable {kind : StoreKind} {J : Device → Prop} {α : Type} {Q : α → Device → Prop} {d : Device}

section Seams

theorem wp_get {key : Key} {cap : Nat} {k : Except AlpError Blob → Engine α} (hJ : J d)
    (hfail : ∀ rc, rc ≠ .notFound → wp (faultyDevice kind) J (k (.error rc)) Q d)
    (hok : wp (faultyDevice kind) J (k (d.store.fetch key cap)) Q d) :
    wp (faultyDevice kind) J (storeGet key cap >>= k) Q d := by
  refine wp_call_faulty hJ ?_ hok
  rintro reply ⟨rc, hrc, rfl⟩
  exact hfail rc hrc

theorem wp_put {key : Key} {blob : Blob} {k : Status → Engine α} (hJ : J d)
    (hfail : ∀ rc, wp (faultyDevice kind) J (k (.error rc)) Q d)
    (hok : (kind = .writeOnce → key ≠ metaKey → d.store key = none) →
      wp (faultyDevice kind) J (k (.ok ())) Q (d.write key blob)) :
    wp (faultyDevice kind) J (storePut key blob >>= k) Q d := by
  refine wp_call_faulty hJ ?_ ?_
  · rintro reply ⟨rc, -, rfl⟩
    exact hfail rc
  · simp only [Device.respond]
    split
    · exact hfail _
    · rename_i hfree
      apply hok
      intro hk hm
      by_contra hne
      exact hfree ⟨hk, hm, Option.isSome_iff_ne_none.mpr hne⟩

theorem wp_ctrRead {k : Except AlpError Nat → Engine α} (hJ : J d)
    (hfail : ∀ rc, wp (faultyDevice kind) J (k (.error rc)) Q d)
    (hok : wp (faultyDevice kind) J (k (.ok d.counter)) Q d) :
    wp (faultyDevice kind) J (ctrRead >>= k) Q d := by
  refine wp_call_faulty hJ ?_ hok
  rintro reply ⟨rc, -, rfl⟩
  exact hfail rc

theorem wp_ctrIncrement {k : Except AlpError Nat → Engine α} (hJ : J d)
    (hfail : ∀ rc, wp (faultyDevice kind) J (k (.error rc)) Q d)
    (hok : wp (faultyDevice kind) J (k (.ok (d.counter + 1))) Q d.bump) :
    wp (faultyDevice kind) J (ctrIncrement >>= k) Q d := by
  refine wp_call_faulty hJ ?_ hok
  rintro reply ⟨rc, -, rfl⟩
  exact hfail rc

theorem wp_anchorRead {k : Except AlpError Nat → Engine α} (hJ : J d)
    (hfail : ∀ rc, wp (faultyDevice kind) J (k (.error rc)) Q d)
    (hok : wp (faultyDevice kind) J (k (.ok d.floor)) Q d) :
    wp (faultyDevice kind) J (anchorRead >>= k) Q d := by
  refine wp_call_faulty hJ ?_ hok
  rintro reply ⟨rc, -, rfl⟩
  exact hfail rc

theorem wp_anchorAdvance {count : Nat} {k : Status → Engine α} (hJ : J d)
    (hfail : ∀ rc, wp (faultyDevice kind) J (k (.error rc)) Q d)
    (hok : wp (faultyDevice kind) J (k (.ok ())) Q (d.raise count)) :
    wp (faultyDevice kind) J (anchorAdvance count >>= k) Q d := by
  refine wp_call_faulty hJ ?_ hok
  rintro reply ⟨rc, -, rfl⟩
  exact hfail rc

end Seams

variable {ulogSha256 : Blob → Digest}

theorem wp_prevHash {seq : Nat} {Q : Except AlpError Digest → Device → Prop} (hJ : J d)
    (hfail : ∀ rc, rc ≠ .notFound → Q (.error rc) d) (hok : Q (d.store.predHash ulogSha256 seq) d) :
    wp (faultyDevice kind) J (ulogPrevHashOfPredecessor ulogSha256 seq) Q d := by
  unfold ulogPrevHashOfPredecessor
  by_cases hz : seq = 0
  · simp only [hz, if_true] at hok ⊢
    exact ⟨hJ, hok⟩
  · simp only [hz, if_false]
    apply wp_get hJ
    · intro rc hrc
      exact ⟨hJ, hfail rc hrc⟩
    · simp only [Store.predHash, hz, if_false] at hok
      cases hf : d.store.fetch (entryKey (seq - 1)) ULOG_ENTRY_WIRE_LEN with
      | error rc => exact ⟨hJ, by simpa [hf, Except.map] using hok⟩
      | ok pwire => exact ⟨hJ, by simpa [hf, Except.map] using hok⟩

-- The device after each of the two writes of an adoption.
def Device.cacheMeta (ulogSha256 : Blob → Digest) (d : Device) (wire : Blob) : Device :=
  d.write metaKey (ulogMetaEncode { count := d.counter + 1, headHash := ulogSha256 wire })

def Device.adopt (ulogSha256 : Blob → Digest) (d : Device) (wire : Blob) : Device :=
  (d.cacheMeta ulogSha256 wire).bump

theorem wp_adopt {wire : Blob} {Q : Status → Device → Prop} (hJ : J d) (herr : ∀ rc, Q (.error rc) d)
    (hmeta : J (d.cacheMeta ulogSha256 wire))
    (herrMeta : ∀ rc, Q (.error rc) (d.cacheMeta ulogSha256 wire))
    (hbump : J (d.adopt ulogSha256 wire)) (hok : Q (.ok ()) (d.adopt ulogSha256 wire)) :
    wp (faultyDevice kind) J (ulogAdopt ulogSha256 d.counter wire) Q d := by
  unfold ulogAdopt
  apply wp_put hJ
  · intro rc
    exact ⟨hJ, herr rc⟩
  · intro _
    apply wp_ctrIncrement hmeta
    · intro rc
      exact ⟨hmeta, herrMeta rc⟩
    · exact ⟨hbump, hok⟩

-- Recovery either changes nothing, or adopts the entry at the counter's value; it reports
-- success without adopting only when the slot holds no entry that chains.
theorem wp_recover {Q : Status → Device → Prop} (hJ : J d) (herr : ∀ rc, Q (.error rc) d)
    (hskip : (∀ wire, ¬d.store.Slot ulogSha256 d.counter wire) → Q (.ok ()) d)
    (hadopt : ∀ wire, d.store.Slot ulogSha256 d.counter wire →
      J (d.cacheMeta ulogSha256 wire) ∧ (∀ rc, Q (.error rc) (d.cacheMeta ulogSha256 wire)) ∧
        J (d.adopt ulogSha256 wire) ∧ Q (.ok ()) (d.adopt ulogSha256 wire)) :
    wp (faultyDevice kind) J (ulogRecover ulogSha256) Q d := by
  unfold ulogRecover
  apply wp_ctrRead hJ
  · intro rc
    exact ⟨hJ, herr rc⟩
  by_cases hmax : d.counter = UINT64_MAX
  · simp only [hmax, if_true]
    exact ⟨hJ, herr _⟩
  simp only [hmax, if_false]
  apply wp_get hJ
  · intro rc hrc
    simp only [hrc, if_false]
    exact ⟨hJ, herr rc⟩
  cases hf : d.store.fetch (entryKey d.counter) ULOG_ENTRY_WIRE_LEN with
  | error rc =>
      by_cases hrc : rc = .notFound
      · simp only [hrc, if_true]
        refine ⟨hJ, hskip fun wire hs => ?_⟩
        cases hf.symm.trans hs.1
      · simp only [hrc, if_false]
        exact ⟨hJ, herr rc⟩
  | ok wire =>
      -- the slot determines the entry, so a check that fails excludes every chaining one
      have hwire : ∀ other, d.store.Slot ulogSha256 d.counter other → other = wire := by
        intro other hs
        exact (Except.ok.inj (hf.symm.trans hs.1)).symm
      dsimp only
      cases hdec : ulogEntryDecode wire with
      | error rc =>
          refine ⟨hJ, hskip fun other hs => ?_⟩
          obtain ⟨e, prev, he, -⟩ := (hwire other hs ▸ hs).2
          simp [hdec] at he
      | ok pair =>
          obtain ⟨e, gotPrev⟩ := pair
          dsimp only
          by_cases hseq : e.seq = d.counter
          · simp only [hseq, ne_eq, not_true_eq_false, if_false]
            apply wp_bind
            apply wp_prevHash hJ
            · intro rc hrc
              simp only [hrc, if_false]
              exact ⟨hJ, herr rc⟩
            cases hp : d.store.predHash ulogSha256 d.counter with
            | error rc =>
                by_cases hrc : rc = .notFound
                · simp only [hrc, if_true]
                  refine ⟨hJ, hskip fun other hs => ?_⟩
                  obtain ⟨_, prev, _, _, hprev⟩ := hs.2
                  simp [hp] at hprev
                · simp only [hrc, if_false]
                  exact ⟨hJ, herr rc⟩
            | ok expectPrev =>
                by_cases heq : gotPrev = expectPrev
                · subst heq
                  simp only [not_true_eq_false, if_false]
                  obtain ⟨hm, hem, hb, hok⟩ := hadopt wire ⟨hf, e, gotPrev, hdec, hseq, hp⟩
                  exact wp_adopt hJ herr hm hem hb hok
                · simp only [heq, not_false_eq_true, if_true]
                  refine ⟨hJ, hskip fun other hs => ?_⟩
                  obtain ⟨_, prev, he, _, hprev⟩ := (hwire other hs ▸ hs).2
                  rw [hdec] at he
                  rw [hp] at hprev
                  cases he
                  cases hprev
                  exact heq rfl
          · simp only [ne_eq, hseq, not_false_eq_true, if_true]
            refine ⟨hJ, hskip fun other hs => ?_⟩
            obtain ⟨_, _, he, hs, _⟩ := (hwire other hs ▸ hs).2
            rw [hdec] at he
            cases he
            exact hseq hs

theorem wp_syncAnchor {anchor : Option AnchorIf} {Q : Except AlpError Bool → Device → Prop} (hJ : J d)
    (hnone : anchor = none → Q (.ok false) d)
    (herr : anchor ≠ none → ∀ rc, Q (.error rc) d)
    (hahead : anchor ≠ none → d.counter < d.floor → Q (.ok true) d)
    (hraise : anchor ≠ none → d.floor ≤ d.counter →
      J (d.raise d.counter) ∧ Q (.ok false) (d.raise d.counter)) :
    wp (faultyDevice kind) J (ulogSyncAnchor anchor) Q d := by
  cases anchor with
  | none => exact ⟨hJ, hnone rfl⟩
  | some anchor =>
      have hsome : some anchor ≠ none := by simp
      unfold ulogSyncAnchor
      apply wp_ctrRead hJ
      · intro rc
        exact ⟨hJ, herr hsome rc⟩
      apply wp_anchorRead hJ
      · intro rc
        exact ⟨hJ, herr hsome rc⟩
      by_cases hlt : d.counter < d.floor
      · simp only [gt_iff_lt, hlt, if_true]
        exact ⟨hJ, hahead hsome hlt⟩
      · obtain ⟨hj, hq⟩ := hraise hsome (by omega)
        simp only [gt_iff_lt, hlt, if_false]
        by_cases hbehind : d.floor < d.counter
        · simp only [hbehind, if_true]
          apply wp_anchorAdvance hJ
          · intro rc
            exact ⟨hJ, herr hsome rc⟩
          · exact ⟨hj, hq⟩
        · simp only [hbehind, if_false]
          have hsame : d.raise d.counter = d := by
            have hmax : max d.floor d.counter = d.floor := by omega
            simp [Device.raise, hmax]
          rw [hsame] at hj hq
          exact ⟨hj, hq⟩

theorem wp_checkMeta {hw : Nat} {prev : Digest} {Q : Status → Device → Prop} (hJ : J d)
    (herr : ∀ rc, Q (.error rc) d) (hok : Q (.ok ()) d) :
    wp (faultyDevice kind) J (ulogCheckMeta hw prev) Q d := by
  unfold ulogCheckMeta
  by_cases hz : hw = 0
  · simp only [hz, if_true]
    exact ⟨hJ, hok⟩
  simp only [hz, if_false]
  apply wp_get hJ
  · intro rc _
    exact ⟨hJ, herr _⟩
  cases d.store.fetch metaKey ULOG_META_WIRE_LEN with
  | error rc => exact ⟨hJ, herr _⟩
  | ok metabuf =>
      dsimp only
      cases ulogMetaDecode metabuf with
      | error rc => exact ⟨hJ, herr _⟩
      | ok m =>
          dsimp only
          split
          · exact ⟨hJ, herr _⟩
          · exact ⟨hJ, hok⟩

-- An append writes at most once it has found a predecessor to chain from; what it writes
-- is the entry with the counter's value as its sequence number.
theorem wp_appendAtCounter {anchor : Option AnchorIf} {entry : Entry} {Q : Status → Device → Prop}
    (hJ : J d) (herr : ∀ rc, Q (.error rc) d)
    (hcommit : ∀ prev wire, d.counter ≤ ULOG_SEQ_MAX →
      d.store.predHash ulogSha256 d.counter = .ok prev →
      ulogEntryEncode { entry with seq := d.counter } prev = .ok wire →
      wp (faultyDevice kind) J (ulogCommit ulogSha256 anchor d.counter wire) Q d) :
    wp (faultyDevice kind) J (ulogAppendAtCounter ulogSha256 anchor entry) Q d := by
  unfold ulogAppendAtCounter
  apply wp_ctrRead hJ
  · intro rc
    exact ⟨hJ, herr rc⟩
  by_cases hfull : d.counter > ULOG_SEQ_MAX
  · simp only [hfull, if_true]
    exact ⟨hJ, herr _⟩
  simp only [hfull, if_false]
  apply wp_bind
  apply wp_prevHash hJ
  · intro rc _
    exact ⟨hJ, herr _⟩
  cases hp : d.store.predHash ulogSha256 d.counter with
  | error rc => exact ⟨hJ, herr _⟩
  | ok prev =>
      apply wp_bind
      apply wp_checkMeta hJ
      · intro rc
        exact ⟨hJ, herr rc⟩
      dsimp only
      cases henc : ulogEntryEncode { entry with seq := d.counter } prev with
      | error rc => exact ⟨hJ, herr rc⟩
      | ok wire => exact hcommit prev wire (by omega) hp henc

-- The device after the entry of an append is durable, and after the meta is.
def Device.commitEntry (d : Device) (wire : Blob) : Device := d.write (entryKey d.counter) wire

theorem wp_commit {anchor : Option AnchorIf} {wire : Blob} {Q : Status → Device → Prop} (hJ : J d)
    (herr : ∀ rc, Q (.error rc) d)
    (hput : (kind = .writeOnce → d.store (entryKey d.counter) = none) →
      J (d.commitEntry wire) ∧ (∀ rc, Q (.error rc) (d.commitEntry wire)) ∧
      J ((d.commitEntry wire).cacheMeta ulogSha256 wire) ∧
        (∀ rc, Q (.error rc) ((d.commitEntry wire).cacheMeta ulogSha256 wire)) ∧
      J ((d.commitEntry wire).adopt ulogSha256 wire) ∧
        (anchor = none → Q (.ok ()) ((d.commitEntry wire).adopt ulogSha256 wire)) ∧
        (anchor ≠ none → (∀ rc, Q (.error rc) ((d.commitEntry wire).adopt ulogSha256 wire)) ∧
          J (((d.commitEntry wire).adopt ulogSha256 wire).raise (d.counter + 1)) ∧
          Q (.ok ()) (((d.commitEntry wire).adopt ulogSha256 wire).raise (d.counter + 1)))) :
    wp (faultyDevice kind) J (ulogCommit ulogSha256 anchor d.counter wire) Q d := by
  unfold ulogCommit
  apply wp_put hJ
  · intro rc
    exact ⟨hJ, herr rc⟩
  intro hfree
  obtain ⟨hentry, herrEntry, hmeta, herrMeta, hbump, hplain, hanchored⟩ :=
    hput fun hk => hfree hk (entryKey_ne_metaKey d.counter)
  apply wp_put hentry
  · intro rc
    exact ⟨hentry, herrEntry rc⟩
  intro _
  apply wp_ctrIncrement hmeta
  · intro rc
    exact ⟨hmeta, herrMeta rc⟩
  cases anchor with
  | none => exact ⟨hbump, hplain rfl⟩
  | some anchor =>
      obtain ⟨herrBump, hraise, hok⟩ := hanchored (by simp)
      apply wp_anchorAdvance (k := .ret) hbump
      · intro rc
        exact ⟨hbump, herrBump rc⟩
      · exact ⟨hraise, hok⟩

-- The calls that only look.
def SeamCmd.IsRead : SeamCmd → Prop
  | .get _ _ => True
  | .ctrRead => True
  | .anchorRead => True
  | _ => False

theorem faultyDevice_read (d : Device) (cmd : SeamCmd) (reply : SeamReply cmd) (d' : Device)
    (hr : cmd.IsRead) (he : faultyDevice kind d cmd reply d') : d' = d := by
  rcases he with ⟨-, rfl⟩ | ⟨-, rfl⟩
  · rfl
  · cases cmd with
    | get | ctrRead | anchorRead => rfl
    | put | ctrIncrement | anchorAdvance => exact False.elim hr

theorem respond_read (cmd : SeamCmd) (d : Device) (hr : cmd.IsRead) :
    (Device.respond kind cmd d).2 = d := by
  cases cmd with
  | get | ctrRead | anchorRead => rfl
  | put | ctrIncrement | anchorAdvance => exact False.elim hr

theorem uses_get {key : Key} {cap : Nat} {next : Except AlpError Blob → Engine α}
    (h : ∀ reply, (next reply).Uses SeamCmd.IsRead) :
    (storeGet key cap >>= next).Uses SeamCmd.IsRead := ⟨trivial, h⟩

theorem uses_ctrRead {next : Except AlpError Nat → Engine α}
    (h : ∀ reply, (next reply).Uses SeamCmd.IsRead) :
    (ctrRead >>= next).Uses SeamCmd.IsRead := ⟨trivial, h⟩

theorem verifyMeta_reads (hw : Nat) : (ulogVerifyMeta hw).Uses SeamCmd.IsRead := by
  unfold ulogVerifyMeta
  split
  · trivial
  · refine uses_get fun reply => ?_
    cases reply with
    | error rc => dsimp only; split <;> trivial
    | ok metabuf =>
        dsimp only
        cases ulogMetaDecode metabuf with
        | error rc => trivial
        | ok m => dsimp only; split <;> trivial

theorem verifyWalk_reads (left i : Nat) (prev : Digest) :
    (ulogVerifyWalk ulogSha256 left i prev).Uses SeamCmd.IsRead := by
  induction left generalizing i prev with
  | zero => trivial
  | succ left ih =>
      refine uses_get fun reply => ?_
      cases reply with
      | error rc => dsimp only; split <;> trivial
      | ok wire =>
          dsimp only
          cases ulogEntryDecode wire with
          | error rc => trivial
          | ok pair =>
              dsimp only
              split
              · trivial
              · exact ih (i + 1) (ulogSha256 wire)

theorem verifyFrontier_reads (hw : Nat) (curHash : Digest) :
    (ulogVerifyFrontier hw curHash).Uses SeamCmd.IsRead := by
  refine uses_get fun reply => ?_
  cases reply with
  | error rc => dsimp only; split <;> trivial
  | ok wire =>
      dsimp only
      cases ulogEntryDecode wire with
      | error rc => trivial
      | ok pair => dsimp only; split <;> trivial

theorem verifyAtCounter_reads : (ulogVerifyAtCounter ulogSha256).Uses SeamCmd.IsRead := by
  refine uses_ctrRead fun reply => ?_
  cases reply with
  | error rc => trivial
  | ok hw =>
      refine Prog.uses_bind (verifyMeta_reads hw) fun stage => ?_
      cases stage with
      | error out => trivial
      | ok m =>
          refine Prog.uses_bind (verifyWalk_reads hw 0 zeroDigest) fun stage => ?_
          cases stage with
          | error out => trivial
          | ok curHash =>
              dsimp only
              split
              · trivial
              · exact verifyFrontier_reads hw curHash

theorem wp_verifyAtCounter {Q : Except AlpError Report → Device → Prop} (hJ : J d)
    (hQ : ∀ out, Q out d) : wp (faultyDevice kind) J (ulogVerifyAtCounter ulogSha256) Q d :=
  wp_frame faultyDevice_read verifyAtCounter_reads hJ hQ

end AlpSdk.UpdateLog
