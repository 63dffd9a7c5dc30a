import AlpSdk.UpdateLog.CrashSafety

namespace AlpSdk.UpdateLog

open Library.Effect

variable {ulogSha256 : Blob → Digest} {kind : StoreKind} {d : Device} {len : Nat}

-- The longest chain of the store has `len` entries and the counter is not past its end.
structure Regressed (ulogSha256 : Blob → Digest) (d : Device) (len : Nat) : Prop where
  chain : d.store.ChainTo ulogSha256 len
  ends : ¬d.store.ChainTo ulogSha256 (len + 1)
  counter : d.counter ≤ len
  cached : d.counter = len → d.store.MetaAt ulogSha256 len

-- A blob that verify can read stands in the slot.
def Occupied (store : Store) (seq : Nat) : Prop :=
  ∃ blob, store (entryKey seq) = some blob ∧ blob.length ≤ ULOG_ENTRY_WIRE_LEN

theorem not_occupied_of_fetch {store : Store} {seq : Nat} {rc : AlpError}
    (hf : store.fetch (entryKey seq) ULOG_ENTRY_WIRE_LEN = .error rc) : ¬Occupied store seq := by
  intro ⟨blob, hblob, hlen⟩
  rw [Store.fetch_eq_ok_iff.mpr ⟨hblob, hlen⟩] at hf
  cases hf

-- Verify returned ALP_OK, with a verdict that is not VERIFY_OK.
def Evident (out : Except AlpError Report) : Prop :=
  ∃ report, out = .ok report ∧ report.verdict ≠ .verifyOk

theorem Store.exists_longest {store : Store} {n : Nat} (h : store.ChainTo ulogSha256 n) :
    ∃ len, n ≤ len ∧ store.ChainTo ulogSha256 len ∧ ¬store.ChainTo ulogSha256 (len + 1) := by
  by_contra hno
  push Not at hno
  have hall : ∀ k, store.ChainTo ulogSha256 (n + k) := by
    intro k
    induction k with
    | zero => exact h
    | succ k ih => exact hno (n + k) (by omega) ih
  have hle := (hall (ULOG_SEQ_MAX + 2)).le_seqMax
  omega

theorem Regressed.no_slot (h : Regressed ulogSha256 d len) (wire : Blob) :
    ¬d.store.Slot ulogSha256 len wire :=
  fun hs => h.ends (h.chain.succ hs)

theorem Regressed.counter_ne_max (h : Regressed ulogSha256 d len) : d.counter ≠ UINT64_MAX :=
  h.chain.ne_max h.counter

theorem Regressed.adopt (h : Regressed ulogSha256 d len) (hlt : d.counter < len) {wire : Blob}
    (hs : d.store.Slot ulogSha256 d.counter wire) :
    Regressed ulogSha256 (d.adopt ulogSha256 wire) len ∧
      (d.adopt ulogSha256 wire).store.MetaAt ulogSha256 (d.counter + 1) := by
  have hle := h.chain.le_seqMax
  have hmeta := Store.metaAt_write hs (by simp only [ULOG_SEQ_MAX] at hle; omega)
  refine ⟨⟨Store.chainTo_write_meta.mpr h.chain, ?_, hlt, ?_⟩, hmeta⟩
  · intro hc
    exact h.ends (Store.chainTo_write_meta.mp hc)
  · intro heq
    rw [← heq]
    exact hmeta

-- Recovery moves the counter one entry up the chain, and stays once it is at the end.
theorem Regressed.run_recover (h : Regressed ulogSha256 d len) (kind : StoreKind) :
    ∃ rc d', (ulogRecover ulogSha256).run (Device.respond kind) d = (rc, d') ∧
      Regressed ulogSha256 d' len ∧ d'.counter = min (d.counter + 1) len ∧
      d'.store (entryKey len) = d.store (entryKey len) ∧
      (rc = .ok () ∧ d'.store.MetaAt ulogSha256 d'.counter ∨
        (∃ err, rc = .error err) ∧ d.counter = len ∧ ¬Occupied d.store len) := by
  by_cases hlt : d.counter < len
  · obtain ⟨wire, hs⟩ := h.chain d.counter hlt
    obtain ⟨hreg, hmeta⟩ := h.adopt hlt hs
    have hcount : (d.adopt ulogSha256 wire).counter = d.counter + 1 := rfl
    refine ⟨.ok (), d.adopt ulogSha256 wire, run_recover_adopt_device hs h.counter_ne_max, hreg, ?_,
      Store.write_ne _ (entryKey_ne_metaKey len), Or.inl ⟨rfl, hmeta⟩⟩
    omega
  · have hend : d.counter = len := Nat.le_antisymm h.counter (Nat.le_of_not_lt hlt)
    have hp := d.presents kind
    have hmax := h.counter_ne_max
    rw [hend] at hp hmax
    have hcount : d.counter = min (d.counter + 1) len := by omega
    have hcached : d.store.MetaAt ulogSha256 d.counter := hend ▸ h.cached hend
    cases hf : d.store.fetch (entryKey len) ULOG_ENTRY_WIRE_LEN with
    | ok wire =>
        exact ⟨.ok (), d, run_recover_squatter hp hmax hf h.chain (h.no_slot wire), h, hcount, rfl,
          Or.inl ⟨rfl, hcached⟩⟩
    | error err =>
        by_cases herr : err = .notFound
        · rw [herr, Store.fetch_notFound_iff] at hf
          exact ⟨.ok (), d, run_recover_absent hp hmax hf, h, hcount, rfl, Or.inl ⟨rfl, hcached⟩⟩
        · refine ⟨.error err, d, run_recover_tooBig hp hmax hf herr, h, hcount, rfl,
            Or.inr ⟨⟨err, rfl⟩, hend, not_occupied_of_fetch hf⟩⟩

-- What verify answers with the counter at `count` of a longest chain of `len` entries.
def verdictAt (store : Store) (len count : Nat) : Except AlpError Report :=
  if count < len then .ok ⟨.rolledBack, 0⟩
  else
    match store.fetch (entryKey len) ULOG_ENTRY_WIRE_LEN with
    | .ok _ => .ok ⟨.chainBroken, len⟩
    | .error rc => if rc = .notFound then .ok ⟨.verifyOk, 0⟩ else .error .io

theorem Regressed.run_verify (h : Regressed ulogSha256 d len) (kind : StoreKind)
    (hm : d.store.MetaAt ulogSha256 d.counter) :
    (ulogVerifyAtCounter ulogSha256).run (Device.respond kind) d =
      (verdictAt d.store len d.counter, d) := by
  have hp := d.presents kind
  have hchain := h.chain.mono h.counter
  obtain ⟨link, hlink⟩ := hchain.predHash
  rw [run_verifyAtCounter hp hchain hm hlink]
  unfold verdictAt
  by_cases hlt : d.counter < len
  · obtain ⟨wire, hs⟩ := h.chain d.counter hlt
    rw [run_frontier_slot hp hs hlink, if_pos hlt]
  · have hend : d.counter = len := Nat.le_antisymm h.counter (Nat.le_of_not_lt hlt)
    rw [hend] at hp hlink
    rw [if_neg hlt, hend]
    cases hf : d.store.fetch (entryKey len) ULOG_ENTRY_WIRE_LEN with
    | ok wire => rw [run_frontier_squatter hp hf (h.no_slot wire) hlink]
    | error rc =>
        by_cases hrc : rc = .notFound
        · have hfree := hf
          rw [hrc, Store.fetch_notFound_iff] at hfree
          simp only [run_frontier_absent hp link hfree, hrc, if_true]
        · simp only [run_frontier_tooBig hp link hf hrc, hrc, if_false]

theorem evident_verdictAt_iff (store : Store) (len count : Nat) :
    Evident (verdictAt store len count) ↔ count < len ∨ Occupied store len := by
  unfold verdictAt
  by_cases hlt : count < len
  · rw [if_pos hlt]
    exact iff_of_true ⟨_, rfl, by simp⟩ (Or.inl hlt)
  · rw [if_neg hlt]
    simp only [hlt, false_or]
    cases hf : store.fetch (entryKey len) ULOG_ENTRY_WIRE_LEN with
    | ok wire => exact iff_of_true ⟨_, rfl, by simp⟩ ⟨wire, Store.fetch_eq_ok_iff.mp hf⟩
    | error rc =>
        apply iff_of_false _ (not_occupied_of_fetch hf)
        intro ⟨report, hout, hverdict⟩
        by_cases hrc : rc = .notFound
        · simp only [hrc, if_true] at hout
          cases hout
          exact hverdict rfl
        · simp only [hrc, if_false] at hout
          cases hout

-- One look at the log, whether by verify or by count.
theorem Regressed.look (h : Regressed ulogSha256 d len) (kind : StoreKind) :
    ∃ d', ((ulogEngineVerify ulogSha256).run (Device.respond kind) d).2 = d' ∧
      ((ulogEngineCount ulogSha256).run (Device.respond kind) d).2 = d' ∧
      Regressed ulogSha256 d' len ∧ d'.counter = min (d.counter + 1) len ∧
      d'.store (entryKey len) = d.store (entryKey len) ∧
      (Evident ((ulogEngineVerify ulogSha256).run (Device.respond kind) d).1 ↔
        d.counter + 1 < len ∨ Occupied d.store len) := by
  obtain ⟨rc, d', hrec, hreg, hcount, hkey, hcase⟩ := h.run_recover kind
  have hocc : Occupied d'.store len ↔ Occupied d.store len := by simp only [Occupied, hkey]
  rcases hcase with ⟨rfl, hmeta⟩ | ⟨⟨err, rfl⟩, hend, hfree⟩
  · refine ⟨d', ?_, ?_, hreg, hcount, hkey, ?_⟩
    · rw [run_verify_of_recover hrec, Prog.run_frame respond_read verifyAtCounter_reads]
    · rw [run_count_of_recover hrec]
      rfl
    · rw [run_verify_of_recover hrec, hreg.run_verify kind hmeta, evident_verdictAt_iff, hocc]
      have hlt : d'.counter < len ↔ d.counter + 1 < len := by omega
      rw [hlt]
  · refine ⟨d', ?_, ?_, hreg, hcount, hkey, ?_⟩
    · rw [run_verify_of_recover_error hrec]
    · rw [run_count_of_recover_error hrec]
    · rw [run_verify_of_recover_error hrec]
      apply iff_of_false
      · rintro ⟨report, hout, -⟩
        cases hout
      · rintro (hlt | hocc)
        · omega
        · exact hfree hocc

-- Every verify among the calls shows the rollback.
def AllEvident (outs : List Outcome) : Prop := ∀ out, .verified out ∈ outs → Evident out

theorem allEvident_cons (first : Outcome) (later : List Outcome) :
    AllEvident (first :: later) ↔
      (∀ out, first = .verified out → Evident out) ∧ AllEvident later := by
  simp only [AllEvident, List.mem_cons]
  constructor
  · intro h
    exact ⟨fun out ho => h out (Or.inl ho.symm), fun out ho => h out (Or.inr ho)⟩
  · intro h out ho
    cases ho with
    | inl ho => exact h.1 out ho.symm
    | inr ho => exact h.2 out ho

-- The verify with index `j` finds the counter `j` entries further up the chain.
theorem Regressed.allEvident_iff (h : Regressed ulogSha256 d len) (calls : List Call)
    (hlook : ∀ call ∈ calls, call = .verify ∨ call = .count) :
    AllEvident (runCalls ulogSha256 none kind calls d).1 ↔
      (∀ j, calls[j]? = some .verify → d.counter + j + 1 < len) ∨ Occupied d.store len := by
  induction calls generalizing d with
  | nil => simp [runCalls, AllEvident]
  | cons call rest ih =>
      obtain ⟨d', hverify, hcount, hreg, hnext, hkey, hevident⟩ := h.look kind
      have hocc : Occupied d'.store len ↔ Occupied d.store len := by simp only [Occupied, hkey]
      have hstep : ((call.prog ulogSha256 none).run (Device.respond kind) d).2 = d' := by
        rcases hlook call (by simp) with rfl | rfl
        · rw [Call.run_verify]
          exact hverify
        · rw [Call.run_count]
          exact hcount
      have hfirst : (∀ out, ((call.prog ulogSha256 none).run (Device.respond kind) d).1 =
          .verified out → Evident out) ↔
          (call = .verify → d.counter + 1 < len ∨ Occupied d.store len) := by
        rcases hlook call (by simp) with rfl | rfl
        · rw [← hevident]
          simp only [Call.run_verify, Outcome.verified.injEq, forall_eq', forall_const]
          rfl
        · simp [Call.run_count]
      have hrest := ih hreg fun other hmem => hlook other (List.mem_cons_of_mem call hmem)
      simp only [runCalls, allEvident_cons, hfirst, hstep, hrest, hocc]
      by_cases hblob : Occupied d.store len
      · simp [hblob]
      · simp only [hblob, or_false]
        constructor
        · intro ⟨hnow, hlater⟩ j hj
          cases j with
          | zero =>
              have hlt := hnow (by simpa using hj)
              omega
          | succ j =>
              have hlt := hlater j (by simpa using hj)
              omega
        · intro hall
          constructor
          · intro hcall
            have hlt := hall 0 (by simp [hcall])
            omega
          · intro j hj
            have hlt := hall (j + 1) (by simpa using hj)
            omega

-- Looking at a rolled back log erases the evidence once the calls have walked the counter
-- up to the end of the chain, unless some blob stands in the slot there.
theorem rollback_evident_iff {n : Nat} (hchain : d.store.ChainTo ulogSha256 n)
    (hback : d.counter + 2 ≤ n) :
    ∃ len, n ≤ len ∧ d.store.ChainTo ulogSha256 len ∧ ¬d.store.ChainTo ulogSha256 (len + 1) ∧
      ∀ calls : List Call, (∀ call ∈ calls, call = .verify ∨ call = .count) →
        (AllEvident (runCalls ulogSha256 none kind calls d).1 ↔
          (∀ j, calls[j]? = some .verify → d.counter + j + 1 < len) ∨ Occupied d.store len) := by
  obtain ⟨len, hle, hlong, hends⟩ := Store.exists_longest hchain
  have hreg : Regressed ulogSha256 d len := ⟨hlong, hends, by omega, fun heq => by omega⟩
  exact ⟨len, hle, hlong, hends, fun calls hlook => hreg.allEvident_iff calls hlook⟩

-- Two appends to an empty log.
def twoEntries (ulogSha256 : Blob → Digest) : Device :=
  (runCalls ulogSha256 none .mutable [.append blankEntry, .append blankEntry] Device.empty).2

theorem twoEntries_clean (ulogSha256 : Blob → Digest) :
    Clean ulogSha256 none (twoEntries ulogSha256) 2 := by
  have he : blankEntry.Encodable := by decide
  obtain ⟨d, hfirst, hd⟩ := run_append_clean (clean_empty ulogSha256 none) (by decide) he .mutable
  obtain ⟨d', hsecond, hd'⟩ := run_append_clean hd (by decide) he .mutable
  unfold ulogEngineAppend at hfirst hsecond
  simp only [twoEntries, runCalls, Call.run_append, hfirst, hsecond]
  exact hd'

def Device.setCounter (d : Device) (count : Nat) : Device := { d with counter := count }

theorem Device.setCounter_store (d : Device) (count : Nat) :
    (d.setCounter count).store = d.store := rfl

-- The same store with the counter set back to 0.
def rewound (ulogSha256 : Blob → Digest) : Device := (twoEntries ulogSha256).setCounter 0

theorem rewound_regressed (ulogSha256 : Blob → Digest) :
    Regressed ulogSha256 (rewound ulogSha256) 2 ∧ (rewound ulogSha256).store (entryKey 2) = none := by
  have hclean := twoEntries_clean ulogSha256
  have hcount : (rewound ulogSha256).counter = 0 := rfl
  have hstore : (rewound ulogSha256).store = (twoEntries ulogSha256).store :=
    Device.setCounter_store _ 0
  refine ⟨⟨?_, ?_, by omega, fun heq => by omega⟩, ?_⟩
  · rw [hstore]
    exact hclean.chain
  · rw [hstore]
    intro hc
    obtain ⟨wire, hs⟩ := hc 2 (by omega)
    exact hclean.no_slot wire hs
  · rw [hstore]
    exact hclean.free (by decide)

theorem Regressed.verify_adopts (h : Regressed ulogSha256 d len) (hlt : d.counter < len)
    (kind : StoreKind) :
    ∃ d', (ulogEngineVerify ulogSha256).run (Device.respond kind) d =
        (verdictAt d.store len (d.counter + 1), d') ∧
      Regressed ulogSha256 d' len ∧ d'.counter = d.counter + 1 ∧
      d'.store (entryKey len) = d.store (entryKey len) := by
  obtain ⟨rc, d', hrec, hreg, hcount, hkey, hcase⟩ := h.run_recover kind
  have hnext : d'.counter = d.counter + 1 := by omega
  rcases hcase with ⟨rfl, hmeta⟩ | ⟨-, hend, -⟩
  · refine ⟨d', ?_, hreg, hnext, hkey⟩
    rw [run_verify_of_recover hrec, hreg.run_verify kind hmeta, hnext]
    simp only [verdictAt, Store.fetch_congr hkey]
  · omega

theorem rollback_evident_iff_rewound :
    (rewound fun _ => zeroDigest).counter + 2 ≤ 2 ∧
      ∃ len, 2 ≤ len ∧ (rewound fun _ => zeroDigest).store.ChainTo (fun _ => zeroDigest) len ∧
        ¬(rewound fun _ => zeroDigest).store.ChainTo (fun _ => zeroDigest) (len + 1) ∧
        ∀ calls : List Call, (∀ call ∈ calls, call = .verify ∨ call = .count) →
          (AllEvident
              (runCalls (fun _ => zeroDigest) none .mutable calls (rewound fun _ => zeroDigest)).1 ↔
            (∀ j, calls[j]? = some .verify →
              (rewound fun _ => zeroDigest).counter + j + 1 < len) ∨
            Occupied (rewound fun _ => zeroDigest).store len) :=
  ⟨Nat.le_refl 2, rollback_evident_iff (rewound_regressed fun _ => zeroDigest).1.chain
    (Nat.le_refl 2)⟩

-- The first verify reports the rollback and the second one reports VERIFY_OK.
theorem rollback_evidence_erased :
    (∀ ulogSha256, (rewound ulogSha256).store.ChainTo ulogSha256 2 ∧
      (rewound ulogSha256).counter = 0) ∧
    ∀ ulogSha256, (runCalls ulogSha256 none .mutable [.verify, .verify] (rewound ulogSha256)).1 =
      [.verified (.ok ⟨.rolledBack, 0⟩), .verified (.ok ⟨.verifyOk, 0⟩)] := by
  refine ⟨fun ulogSha256 => ⟨(rewound_regressed ulogSha256).1.chain, rfl⟩, ?_⟩
  intro ulogSha256
  obtain ⟨hreg, hfree⟩ := rewound_regressed ulogSha256
  have hc : (rewound ulogSha256).counter = 0 := rfl
  obtain ⟨d, hfirst, hreg', hd, hkey⟩ := hreg.verify_adopts (by omega) .mutable
  obtain ⟨d', hsecond, -⟩ := hreg'.verify_adopts (by omega) .mutable
  unfold ulogEngineVerify at hfirst hsecond
  simp only [runCalls, Call.run_verify, hfirst, hsecond, hd, hc, verdictAt,
    Store.fetch_none (hkey.trans hfree)]
  rfl

end AlpSdk.UpdateLog
