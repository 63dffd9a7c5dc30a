import AlpSdk.UpdateLog.CrashSafety
import AlpSdk.UpdateLog.Device.Accept

namespace AlpSdk.UpdateLog

open Library.Effect

-- The head_hash field of the stored meta, if a meta that decodes is stored.
def Store.headHash (store : Store) : Option Digest :=
  match store.fetch metaKey ULOG_META_WIRE_LEN with
  | .error _ => none
  | .ok buf =>
      match ulogMetaDecode buf with
      | .error _ => none
      | .ok m => some m.headHash

variable {ulogSha256 : Blob → Digest} {left right : Store} {n : Nat}

-- Two different blobs with one hash, stored as the entry `i` of the two stores.
def CollisionBelow (ulogSha256 : Blob → Digest) (left right : Store) (n : Nat) : Prop :=
  ∃ i < n, ∃ blob other, left (entryKey i) = some blob ∧ right (entryKey i) = some other ∧
    blob ≠ other ∧ ulogSha256 blob = ulogSha256 other

-- Equal links force equal entries below them. The induction goes down the chain: equal
-- bytes decode to equal prev_hash fields, which are the links one entry further down.
theorem equal_or_collision (hl : left.ChainTo ulogSha256 n) (hr : right.ChainTo ulogSha256 n)
    (hlink : left.predHash ulogSha256 n = right.predHash ulogSha256 n) :
    (∀ i < n, left (entryKey i) = right (entryKey i)) ∨ CollisionBelow ulogSha256 left right n := by
  induction n with
  | zero => exact Or.inl fun i hi => by omega
  | succ n ih =>
      obtain ⟨blob, hblob⟩ := hl n (by omega)
      obtain ⟨other, hother⟩ := hr n (by omega)
      have hhash : ulogSha256 blob = ulogSha256 other := by
        rw [hblob.predHash_succ, hother.predHash_succ] at hlink
        exact Except.ok.inj hlink
      by_cases heq : blob = other
      · subst heq
        have hbelow : left.predHash ulogSha256 n = right.predHash ulogSha256 n := by
          obtain ⟨-, e, prev, hdec, -, hpred⟩ := hblob
          obtain ⟨-, e', prev', hdec', -, hpred'⟩ := hother
          rw [hdec] at hdec'
          cases hdec'
          rw [hpred, hpred']
        rcases ih (hl.mono (by omega)) (hr.mono (by omega)) hbelow with hsame | hcol
        · left
          intro i hi
          by_cases hlast : i = n
          · rw [hlast, hblob.stored, hother.stored]
          · exact hsame i (by omega)
        · obtain ⟨i, hi, hpair⟩ := hcol
          exact Or.inr ⟨i, by omega, hpair⟩
      · exact Or.inr ⟨n, by omega, blob, other, hblob.stored, hother.stored, heq, hhash⟩

-- The head_hash of an accepted store is the link after its last entry.
theorem Accepted.headHash {store : Store} (h : Accepted ulogSha256 store n) (hn : 0 < n) :
    ∃ link, store.headHash = some link ∧ store.predHash ulogSha256 n = .ok link := by
  obtain ⟨buf, link, hf, hdec, hlink⟩ := h.cached (by omega)
  refine ⟨link, ?_, hlink⟩
  simp only [Store.headHash, hf, hdec]

theorem tamper_evidence {d d' : Device} {kind kind' : StoreKind} {anchor anchor' : Option AnchorIf}
    {badSeq badSeq' : Nat} (hn : 0 < d.counter) (hcount : d'.counter = d.counter)
    (hhead : d'.store.headHash = d.store.headHash)
    (hrec : ((ulogRecover ulogSha256).run (Device.respond kind) d).2 = d)
    (hrec' : ((ulogRecover ulogSha256).run (Device.respond kind') d').2 = d')
    (hok : ((ulogEngineVerifyAnchored ulogSha256 anchor).run (Device.respond kind) d).1 =
      .ok ⟨.verifyOk, badSeq⟩)
    (hok' : ((ulogEngineVerifyAnchored ulogSha256 anchor').run (Device.respond kind') d').1 =
      .ok ⟨.verifyOk, badSeq'⟩) :
    (∀ i < d.counter, d.store (entryKey i) = d'.store (entryKey i)) ∨
      CollisionBelow ulogSha256 d.store d'.store d.counter := by
  obtain ⟨-, e, hrun, -, -, hacc⟩ := run_verify_inv hok
  obtain ⟨-, e', hrun', -, -, hacc'⟩ := run_verify_inv hok'
  have he : e = d := by rw [← hrec, hrun]
  have he' : e' = d' := by rw [← hrec', hrun']
  rw [he] at hacc
  rw [he', hcount] at hacc'
  obtain ⟨link, hlink, hpred⟩ := hacc.headHash hn
  obtain ⟨link', hlink', hpred'⟩ := hacc'.headHash hn
  apply equal_or_collision hacc.chain hacc'.chain
  rw [hhead, hlink] at hlink'
  rw [hpred, hpred', Option.some.inj hlink']

-- Two logs of one entry each, whose entries differ and hash to the same digest.
theorem tamper_evidence_collision :
    ∃ d d' : Device, d.counter = 1 ∧ d'.counter = 1 ∧ d'.store.headHash = d.store.headHash ∧
      ((∀ i < d.counter, d.store (entryKey i) = d'.store (entryKey i)) ∨
        CollisionBelow (fun _ => zeroDigest) d.store d'.store d.counter) := by
  have hclean := clean_empty (fun _ => zeroDigest) none
  have hzero : { blankEntry with timestamp := 0 }.Encodable := by decide
  have hone : { blankEntry with timestamp := 1 }.Encodable := by decide
  obtain ⟨d, -, hd⟩ := run_append_clean hclean (by decide) hzero .mutable
  obtain ⟨d', -, hd'⟩ := run_append_clean hclean (by decide) hone .mutable
  have hrec := run_recover_log hd.toLog hd.counter .mutable
  have hrec' := run_recover_log hd'.toLog hd'.counter .mutable
  have hok := (run_verify_of_recover hrec).trans (run_verifyAtCounter_clean hd (by decide))
  have hok' := (run_verify_of_recover hrec').trans (run_verifyAtCounter_clean hd' (by decide))
  have hhead : ∀ d, Clean (fun _ => zeroDigest) none d 1 → d.store.headHash = some zeroDigest := by
    intro d hd
    obtain ⟨link, hlink, hpred⟩ := (Accepted.mk hd.chain hd.cached (hd.free (by decide))).headHash
      (by decide)
    obtain ⟨wire, hs⟩ := hd.chain 0 (by decide)
    rw [hs.predHash_succ] at hpred
    rw [hlink, ← Except.ok.inj hpred]
  have hsame : d'.store.headHash = d.store.headHash := by rw [hhead d hd, hhead d' hd']
  refine ⟨d, d', hd.counter, hd'.counter, hsame, ?_⟩
  exact tamper_evidence (by rw [hd.counter]; decide) (by rw [hd.counter, hd'.counter]) hsame
    (congrArg Prod.snd hrec) (congrArg Prod.snd hrec') (congrArg Prod.fst hok)
    (congrArg Prod.fst hok')

end AlpSdk.UpdateLog
