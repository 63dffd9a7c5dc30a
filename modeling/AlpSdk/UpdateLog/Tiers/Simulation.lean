import AlpSdk.UpdateLog.CrashSafety
import AlpSdk.UpdateLog.Tiers

namespace AlpSdk.UpdateLog

open Library.Effect

section Commit

variable {S : Type} {h : Handler Seams S} {s : S} {ulogSha256 : Blob → Digest} {n : Nat}
  {wire : Blob}

theorem run_commit_inv {s' : S}
    (hrun : (ulogCommit ulogSha256 none n wire).run h s = (.ok (), s')) :
    ∃ s₁ s₂ v, h (.put (entryKey n) wire) s = (.ok (), s₁) ∧
      h (.put metaKey (ulogMetaEncode { count := n + 1, headHash := ulogSha256 wire })) s₁ =
        (.ok (), s₂) ∧
      h .ctrIncrement s₂ = (.ok v, s') := by
  unfold ulogCommit at hrun
  simp only [Prog.run_bind, run_storePut] at hrun
  cases hput : h (.put (entryKey n) wire) s with
  | mk rc s₁ =>
      cases rc with
      | error rc => simp [hput] at hrun
      | ok _ =>
          simp only [hput, Prog.run_bind, run_storePut] at hrun
          cases hmeta : h (.put metaKey
              (ulogMetaEncode { count := n + 1, headHash := ulogSha256 wire })) s₁ with
          | mk rc s₂ =>
              cases rc with
              | error rc => simp [hmeta] at hrun
              | ok _ =>
                  simp only [hmeta, Prog.run_bind, run_ctrIncrement] at hrun
                  cases hinc : h .ctrIncrement s₂ with
                  | mk out s₃ =>
                      cases out with
                      | error rc => simp [hinc] at hrun
                      | ok v =>
                          simp only [hinc, Prog.pure_eq, Prog.run_ret, Prod.mk.injEq, true_and] at hrun
                          exact ⟨s₁, s₂, v, rfl, hmeta, hrun ▸ hinc⟩

theorem run_commit_ok {s₁ s₂ s' : S} {v : Nat} (hput : h (.put (entryKey n) wire) s = (.ok (), s₁))
    (hmeta : h (.put metaKey (ulogMetaEncode { count := n + 1, headHash := ulogSha256 wire })) s₁ =
      (.ok (), s₂))
    (hinc : h .ctrIncrement s₂ = (.ok v, s')) :
    (ulogCommit ulogSha256 none n wire).run h s = (.ok (), s') := by
  unfold ulogCommit
  simp only [Prog.run_bind, run_storePut, run_ctrIncrement, hput, hmeta, hinc]
  rfl

theorem run_commit_refused {rc : AlpError} (hput : h (.put (entryKey n) wire) s = (.error rc, s)) :
    (ulogCommit ulogSha256 none n wire).run h s = (.error rc, s) := by
  unfold ulogCommit
  simp only [Prog.run_bind, run_storePut, hput]
  rfl

end Commit

section Simulation

-- A tier whose state stands for a device: it starts empty, a put and an increment that
-- succeed do what they do there, and below the limit the reads agree.
structure Simulates (tier : Tier) (Rep : tier.State → Device → Prop) : Prop where
  fresh : ∀ {s}, tier.fresh s → Rep s Device.empty
  reads : ∀ {s d}, Rep s d → d.counter < tier.limit → Presents tier.seams s d.store d.counter
  put : ∀ {s s' d key blob}, Rep s d → (key = metaKey ∨ ∃ i < tier.limit, key = entryKey i) →
    tier.seams (.put key blob) s = (.ok (), s') → Rep s' (d.write key blob)
  increment : ∀ {s s' d v}, Rep s d → d.counter < tier.limit →
    tier.seams .ctrIncrement s = (.ok v, s') → Rep s' d.bump
  limit : tier.limit ≤ ULOG_SEQ_MAX + 1

variable {ulogSha256 : Blob → Digest} {tier : Tier} {Rep : tier.State → Device → Prop}
  {s : tier.State} {d : Device} {n : Nat}

-- An append to a clean log gets as far as its durable writes, or its entry is not valid.
theorem run_append_presents {S : Type} {h : Handler Seams S} {s : S}
    (hp : Presents h s d.store n) (hclean : Clean ulogSha256 none d n) (hn : n ≤ ULOG_SEQ_MAX)
    {entry : Entry} {link : Digest} (hlink : d.store.predHash ulogSha256 n = .ok link) {wire : Blob}
    (henc : ulogEntryEncode { entry with seq := n } link = .ok wire) :
    (ulogEngineAppend ulogSha256 entry).run h s = (ulogCommit ulogSha256 none n wire).run h s := by
  rw [run_append_of_recover (run_recover_absent hp (counter_ne_max (Nat.le_succ_of_le hn)) (hclean.free hn)),
    run_appendAtCounter hp hn hclean.cached hlink henc]

theorem encodable_of_append {S : Type} {h : Handler Seams S} {s s' : S}
    (hp : Presents h s d.store n) (hclean : Clean ulogSha256 none d n) (hn : n ≤ ULOG_SEQ_MAX)
    {entry : Entry} (hrun : (ulogEngineAppend ulogSha256 entry).run h s = (.ok (), s')) :
    entry.Encodable := by
  obtain ⟨link, hlink⟩ := hclean.chain.predHash
  rw [run_append_of_recover (run_recover_absent hp (counter_ne_max (Nat.le_succ_of_le hn)) (hclean.free hn))] at hrun
  have hin : ¬n > ULOG_SEQ_MAX := by omega
  unfold ulogAppendAtCounter at hrun
  simp only [Prog.run_bind, run_ctrRead, hp.counter, hin, if_false, run_prevHash hp n (by omega),
    hlink, run_checkMeta hp hclean.cached hlink] at hrun
  cases henc : ulogEntryEncode { entry with seq := n } link with
  | error rc => simp [henc] at hrun
  | ok wire =>
      have hseq : { entry with seq := n }.Encodable := encodable_of_encode henc
      exact hseq

-- The device after an append that has committed `wire`.
theorem Clean.commit (hclean : Clean ulogSha256 none d n) (hn : n ≤ ULOG_SEQ_MAX) {entry : Entry}
    {link : Digest} {wire : Blob} (hlink : d.store.predHash ulogSha256 n = .ok link)
    (henc : ulogEntryEncode { entry with seq := n } link = .ok wire) :
    Clean ulogSha256 none ((d.commitEntry wire).adopt ulogSha256 wire) (n + 1) := by
  have hc := hclean.counter
  obtain ⟨htorn, hslot⟩ := hclean.commitEntry (by simp) (hc ▸ hn) (hc ▸ hlink) (hc ▸ henc)
  exact htorn.adopt hslot

theorem Simulates.commit (hsim : Simulates tier Rep) (hrep : Rep s d)
    (hclean : Clean ulogSha256 none d n) (hn : n < tier.limit) {wire : Blob} {s₁ s₂ s' : tier.State}
    {v : Nat} (hput : tier.seams (.put (entryKey n) wire) s = (.ok (), s₁))
    (hmeta : tier.seams (.put metaKey
      (ulogMetaEncode { count := n + 1, headHash := ulogSha256 wire })) s₁ = (.ok (), s₂))
    (hinc : tier.seams .ctrIncrement s₂ = (.ok v, s')) :
    Rep s' ((d.commitEntry wire).adopt ulogSha256 wire) := by
  have hc := hclean.counter
  have hentry := hsim.put hrep (Or.inr ⟨n, hn, rfl⟩) hput
  rw [← hc] at hmeta hentry
  have hcached := hsim.put hentry (Or.inl rfl) hmeta
  exact hsim.increment hcached (hc ▸ hn) hinc

-- Honest appends keep the tier and the device it stands for in step.
theorem Simulates.honest_clean (hsim : Simulates tier Rep) (h : Honest ulogSha256 tier n s)
    (hn : n ≤ tier.limit) : ∃ d, Rep s d ∧ Clean ulogSha256 none d n := by
  induction h with
  | fresh hs => exact ⟨Device.empty, hsim.fresh hs, clean_empty ulogSha256 none⟩
  | @append n s s' entry _ hrun ih =>
      obtain ⟨d, hrep, hclean⟩ := ih (by omega)
      have hseq : n ≤ ULOG_SEQ_MAX := by
        have hlimit := hsim.limit
        omega
      have hp := hsim.reads hrep (hclean.counter ▸ hn)
      rw [hclean.counter] at hp
      have he : { entry with seq := n }.Encodable := encodable_of_append hp hclean hseq hrun
      obtain ⟨link, hlink⟩ := hclean.chain.predHash
      have henc := encode_of_encodable he link
      rw [run_append_presents hp hclean hseq hlink henc] at hrun
      obtain ⟨s₁, s₂, v, hput, hmeta, hinc⟩ := run_commit_inv hrun
      exact ⟨_, hsim.commit hrep hclean hn hput hmeta hinc, hclean.commit hseq hlink henc⟩

-- Where the writes never fail below the limit, the limit is reached.
theorem Simulates.exists_honest (hsim : Simulates tier Rep) (hfresh : ∃ s, tier.fresh s)
    (hwrites : ∀ {s d n wire}, Rep s d → Clean ulogSha256 none d n → n < tier.limit →
      wire.length = ULOG_ENTRY_WIRE_LEN → ∃ s₁ s₂ s' v,
      tier.seams (.put (entryKey n) wire) s = (.ok (), s₁) ∧
      tier.seams (.put metaKey (ulogMetaEncode { count := n + 1, headHash := ulogSha256 wire })) s₁ =
        (.ok (), s₂) ∧
      tier.seams .ctrIncrement s₂ = (.ok v, s')) (n : Nat) (hn : n ≤ tier.limit) :
    ∃ s, Honest ulogSha256 tier n s := by
  induction n with
  | zero =>
      obtain ⟨s, hs⟩ := hfresh
      exact ⟨s, .fresh hs⟩
  | succ n ih =>
      obtain ⟨s, hs⟩ := ih (by omega)
      obtain ⟨d, hrep, hclean⟩ := hsim.honest_clean hs (by omega)
      have hseq : n ≤ ULOG_SEQ_MAX := by
        have hlimit := hsim.limit
        omega
      have hp := hsim.reads hrep (hclean.counter ▸ hn)
      rw [hclean.counter] at hp
      obtain ⟨link, hlink⟩ := hclean.chain.predHash
      have he : { blankEntry with seq := n }.Encodable := show blankEntry.Encodable by decide
      have henc := encode_of_encodable he link
      obtain ⟨s₁, s₂, s', v, hput, hmeta, hinc⟩ := hwrites hrep hclean hn (encode_length henc)
      have hrun : (ulogEngineAppend ulogSha256 blankEntry).run tier.seams s = (.ok (), s') := by
        rw [run_append_presents hp hclean hseq hlink henc]
        exact run_commit_ok hput hmeta hinc
      exact ⟨s', .append hs hrun⟩

-- A full log whose next slot reads as absent and whose put is refused stays readable.
theorem full_readable (hp : Presents tier.seams s d.store n) (hclean : Clean ulogSha256 none d n)
    (hn : n ≤ ULOG_SEQ_MAX)
    (hrefused : ∀ wire : Blob, wire.length = ULOG_ENTRY_WIRE_LEN →
      tier.seams (.put (entryKey n) wire) s = (.error .nomem, s)) :
    FullAndReadable ulogSha256 tier n s := by
  have hfree := hclean.free hn
  have hrec : (ulogRecover ulogSha256).run tier.seams s = (.ok (), s) :=
    run_recover_absent hp (counter_ne_max (Nat.le_succ_of_le hn)) hfree
  obtain ⟨link, hlink⟩ := hclean.chain.predHash
  refine ⟨?_, ?_, ?_⟩
  · intro entry he
    have hseq : { entry with seq := n }.Encodable := he
    have henc := encode_of_encodable hseq link
    rw [run_append_presents hp hclean hn hlink henc]
    exact run_commit_refused (hrefused _ (encode_length henc))
  · rw [run_count_of_recover hrec]
    exact hp.counter
  · rw [run_verify_of_recover hrec, run_verifyAtCounter hp hclean.chain hclean.cached hlink,
      run_frontier_absent hp link hfree]

end Simulation

end AlpSdk.UpdateLog
