import AlpSdk.UpdateLog.Device.Run

namespace AlpSdk.UpdateLog

open Library.Effect

-- What verify has checked when it reports VERIFY_OK with the counter at `n`.
structure Accepted (ulogSha256 : Blob → Digest) (store : Store) (n : Nat) : Prop where
  chain : store.ChainTo ulogSha256 n
  cached : store.MetaAt ulogSha256 n
  free : store (entryKey n) = none

section Presents

variable {S : Type} {h : Handler Seams S} {s : S} {store : Store} {n : Nat}
  {ulogSha256 : Blob → Digest}

-- Leaving verify early never reports VERIFY_OK.
def Rejects {α : Type} (stage : Exit α) : Prop :=
  ∀ out, stage = .error out → ∀ badSeq, out ≠ .ok ⟨.verifyOk, badSeq⟩

theorem rejects_exitWith {α : Type} {verdict : Verdict} {badSeq : Nat}
    (hv : verdict ≠ .verifyOk) : Rejects (exitWith (α := α) verdict badSeq) := by
  intro out hout bad heq
  rw [heq] at hout
  cases hout
  exact hv rfl

theorem rejects_error {α : Type} (rc : AlpError) : Rejects (α := α) (.error (.error rc)) := by
  intro out hout bad heq
  rw [heq] at hout
  cases hout

theorem rejects_ok {α : Type} (value : α) : Rejects (.ok value) := by
  intro out hout
  cases hout

-- The meta that verify goes on with has counted `n` entries, unless there are none.
def MetaRead (store : Store) (n : Nat) (stage : Exit Meta) : Prop :=
  ∀ m, stage = .ok m → n ≠ 0 → ∃ buf, store.fetch metaKey ULOG_META_WIRE_LEN = .ok buf ∧
    ulogMetaDecode buf = .ok m ∧ m.count = n

theorem run_verifyMeta_inv (hp : Presents h s store n) :
    ((ulogVerifyMeta n).run h s).2 = s ∧ Rejects ((ulogVerifyMeta n).run h s).1 ∧
      MetaRead store n ((ulogVerifyMeta n).run h s).1 := by
  unfold ulogVerifyMeta
  by_cases hz : n = 0
  · simp only [hz, if_true]
    exact ⟨rfl, rejects_ok _, fun m _ hne => absurd rfl hne⟩
  simp only [hz, if_false, Prog.run_bind, run_storeGet, hp.cached]
  cases hf : store.fetch metaKey ULOG_META_WIRE_LEN with
  | error rc =>
      by_cases hrc : rc = .notFound
      · simp only [hrc, if_true]
        exact ⟨rfl, rejects_exitWith (by simp), fun m hm => by cases hm⟩
      · simp only [hrc, if_false]
        exact ⟨rfl, rejects_error .io, fun m hm => by cases hm⟩
  | ok buf =>
      dsimp only
      cases hdec : ulogMetaDecode buf with
      | error rc => exact ⟨rfl, rejects_error .io, fun m hm => by cases hm⟩
      | ok m =>
          dsimp only
          by_cases hcount : m.count = n
          · simp only [hcount, ne_eq, not_true_eq_false, if_false]
            refine ⟨rfl, rejects_ok m, fun found hfound _ => ⟨buf, hf, ?_, ?_⟩⟩
            · cases hfound
              exact hdec
            · cases hfound
              exact hcount
          · simp only [ne_eq, hcount, not_false_eq_true, if_true]
            exact ⟨rfl, rejects_exitWith (by simp), fun m hm => by cases hm⟩

-- When the loop runs to its end, every entry it passed chains from the one before it.
theorem run_walk_inv (hp : Presents h s store n) (left i : Nat) (prev : Digest) (hi : i + left ≤ n)
    (hprev : store.predHash ulogSha256 i = .ok prev) :
    ((ulogVerifyWalk ulogSha256 left i prev).run h s).2 = s ∧
      Rejects ((ulogVerifyWalk ulogSha256 left i prev).run h s).1 ∧
      ∀ link, ((ulogVerifyWalk ulogSha256 left i prev).run h s).1 = .ok link →
        store.predHash ulogSha256 (i + left) = .ok link ∧
        ∀ j, i ≤ j → j < i + left → ∃ wire, store.Slot ulogSha256 j wire := by
  induction left generalizing i prev with
  | zero =>
      refine ⟨rfl, rejects_ok prev, ?_⟩
      intro link hlink
      cases hlink
      exact ⟨hprev, fun j hj hlt => by omega⟩
  | succ left ih =>
      simp only [ulogVerifyWalk, Prog.run_bind, run_storeGet, hp.entry i (by omega)]
      cases hf : store.fetch (entryKey i) ULOG_ENTRY_WIRE_LEN with
      | error rc =>
          by_cases hrc : rc = .notFound
          · simp only [hrc, if_true]
            exact ⟨rfl, rejects_exitWith (by simp), fun m hm => by cases hm⟩
          · simp only [hrc, if_false]
            exact ⟨rfl, rejects_error .io, fun m hm => by cases hm⟩
      | ok wire =>
          dsimp only
          cases hdec : ulogEntryDecode wire with
          | error rc => exact ⟨rfl, rejects_exitWith (by simp), fun m hm => by cases hm⟩
          | ok pair =>
              obtain ⟨e, gotPrev⟩ := pair
              dsimp only
              by_cases hbad : e.seq ≠ i ∨ gotPrev ≠ prev
              · simp only [hbad, if_true]
                exact ⟨rfl, rejects_exitWith (by simp), fun m hm => by cases hm⟩
              · simp only [hbad, if_false]
                push Not at hbad
                have hs : store.Slot ulogSha256 i wire :=
                  ⟨hf, e, gotPrev, hdec, hbad.1, hbad.2 ▸ hprev⟩
                obtain ⟨hsame, hrej, hall⟩ := ih (i + 1) (ulogSha256 wire) (by omega) hs.predHash_succ
                refine ⟨hsame, hrej, fun link hlink => ?_⟩
                obtain ⟨hend, hslots⟩ := hall link hlink
                rw [show i + (left + 1) = i + 1 + left by omega]
                refine ⟨hend, fun j hj hlt => ?_⟩
                by_cases heq : j = i
                · subst heq
                  exact ⟨wire, hs⟩
                · exact hslots j (by omega) hlt

theorem run_frontier_inv (hp : Presents h s store n) (curHash : Digest) {badSeq : Nat}
    (hrun : ((ulogVerifyFrontier n curHash).run h s).1 = .ok ⟨.verifyOk, badSeq⟩) :
    store (entryKey n) = none := by
  unfold ulogVerifyFrontier at hrun
  simp only [Prog.run_bind, run_storeGet, hp.entry n (Nat.le_refl n)] at hrun
  cases hf : store.fetch (entryKey n) ULOG_ENTRY_WIRE_LEN with
  | error rc =>
      simp only [hf] at hrun
      by_cases hrc : rc = .notFound
      · rw [hrc] at hf
        exact Store.fetch_notFound_iff.mp hf
      · simp [hrc] at hrun
  | ok wire =>
      simp only [hf] at hrun
      cases hdec : ulogEntryDecode wire with
      | error rc => simp [hdec] at hrun
      | ok pair =>
          simp only [hdec] at hrun
          split at hrun
          · simp at hrun
          · simp at hrun

theorem run_verifyAtCounter_inv (hp : Presents h s store n) {badSeq : Nat}
    (hrun : ((ulogVerifyAtCounter ulogSha256).run h s).1 = .ok ⟨.verifyOk, badSeq⟩) :
    Accepted ulogSha256 store n := by
  obtain ⟨hmetaSame, hmetaRej, hmetaRead⟩ := run_verifyMeta_inv hp
  have hfirst : store.predHash ulogSha256 0 = .ok zeroDigest := rfl
  obtain ⟨hwalkSame, hwalkRej, hwalk⟩ := run_walk_inv hp n 0 zeroDigest (by omega) hfirst
  unfold ulogVerifyAtCounter at hrun
  simp only [Prog.run_bind, run_ctrRead, hp.counter, hmetaSame] at hrun
  cases hm : ((ulogVerifyMeta n).run h s).1 with
  | error out =>
      simp only [hm, Prog.pure_eq, Prog.run_ret] at hrun
      exact absurd hrun (hmetaRej out hm badSeq)
  | ok m =>
      simp only [hm, Prog.run_bind, hwalkSame] at hrun
      cases hw : ((ulogVerifyWalk ulogSha256 n 0 zeroDigest).run h s).1 with
      | error out =>
          simp only [hw, Prog.pure_eq, Prog.run_ret] at hrun
          exact absurd hrun (hwalkRej out hw badSeq)
      | ok curHash =>
          simp only [hw] at hrun
          obtain ⟨hlink, hslots⟩ := hwalk curHash hw
          rw [Nat.zero_add] at hlink hslots
          by_cases hbad : n > 0 ∧ curHash ≠ m.headHash
          · simp [hbad] at hrun
          · simp only [hbad, if_false] at hrun
            refine ⟨fun j hj => hslots j (Nat.zero_le j) hj, ?_, run_frontier_inv hp curHash hrun⟩
            intro hz
            obtain ⟨buf, hf, hdec, hcount⟩ := hmetaRead m hm hz
            have hhead : m.headHash = curHash := by
              by_contra hne
              exact hbad ⟨Nat.pos_of_ne_zero hz, fun heq => hne heq.symm⟩
            refine ⟨buf, curHash, hf, ?_, hlink⟩
            rw [hdec, ← hcount, ← hhead]

end Presents

theorem Accepted.le_seqMax {ulogSha256 : Blob → Digest} {store : Store} {n : Nat}
    (h : Accepted ulogSha256 store n) : n ≤ ULOG_SEQ_MAX := by
  have hle := h.chain.le_seqMax
  by_contra hn
  -- one past the bound the key of the counter's slot is the key of an entry of the chain
  have heq : n = ULOG_SEQ_MAX + 1 := by omega
  obtain ⟨wire, hs⟩ := h.chain (10 ^ 17) (by simp only [ULOG_SEQ_MAX] at hn ⊢; omega)
  have hstored := hs.stored
  rw [← entryKey_seqMax_succ, ← heq, h.free] at hstored
  cases hstored

section Device

variable {ulogSha256 : Blob → Digest} {anchor : Option AnchorIf} {kind : StoreKind} {d d' : Device}

-- The device after an anchor check that found the floor not ahead of the counter.
def Device.sync (anchor : Option AnchorIf) (d : Device) : Device :=
  match anchor with
  | none => d
  | some _ => d.raise d.counter

@[simp] theorem Device.sync_store (anchor : Option AnchorIf) (d : Device) :
    (d.sync anchor).store = d.store := by
  cases anchor <;> rfl

@[simp] theorem Device.sync_counter (anchor : Option AnchorIf) (d : Device) :
    (d.sync anchor).counter = d.counter := by
  cases anchor <;> rfl

theorem Device.sync_floor (anchor : Option AnchorIf) (ha : anchor ≠ none)
    (hle : d.floor ≤ d.counter) : (d.sync anchor).floor = d.counter := by
  cases anchor with
  | none => exact absurd rfl ha
  | some _ => exact Nat.max_eq_right hle

theorem Device.sync_of_floor (anchor : Option AnchorIf) (hf : anchor ≠ none → d.floor = d.counter) :
    d.sync anchor = d := by
  cases anchor with
  | none => rfl
  | some _ =>
      have hmax : max d.floor d.counter = d.floor := by
        rw [hf (by simp), Nat.max_self]
      simp only [Device.sync, Device.raise, hmax]

theorem run_sync_device (hle : anchor ≠ none → d.floor ≤ d.counter) :
    (ulogSyncAnchor anchor).run (Device.respond kind) d = (.ok false, d.sync anchor) := by
  cases anchor with
  | none => rfl
  | some anchor =>
      have hle := hle (by simp)
      have hahead : ¬d.counter < d.floor := by omega
      simp only [ulogSyncAnchor, Prog.run_bind, run_ctrRead, run_anchorRead, Device.respond,
        gt_iff_lt, hahead, if_false]
      by_cases hlt : d.floor < d.counter
      · simp only [hlt, if_true]
        rfl
      · simp only [hlt, if_false]
        rw [Device.sync_of_floor _ fun _ => by omega]
        rfl

theorem run_sync_ahead (ha : anchor ≠ none) (hlt : d.counter < d.floor) (kind : StoreKind) :
    (ulogSyncAnchor anchor).run (Device.respond kind) d = (.ok true, d) := by
  cases anchor with
  | none => exact absurd rfl ha
  | some anchor =>
      simp only [ulogSyncAnchor, Prog.run_bind, run_ctrRead, run_anchorRead, Device.respond,
        gt_iff_lt, hlt, if_true]
      rfl

theorem run_verify_anchored (hv : ulogAnchorValid anchor = true)
    (hrec : (ulogRecover ulogSha256).run (Device.respond kind) d = (.ok (), d'))
    (hle : anchor ≠ none → d'.floor ≤ d'.counter) :
    (ulogEngineVerifyAnchored ulogSha256 anchor).run (Device.respond kind) d =
      (ulogVerifyAtCounter ulogSha256).run (Device.respond kind) (d'.sync anchor) := by
  unfold ulogEngineVerifyAnchored
  simp only [hv, Bool.true_eq_false, if_false, Prog.run_bind, hrec, run_sync_device hle,
    Bool.false_eq_true]

theorem run_append_anchored (hv : ulogAnchorValid anchor = true)
    (hrec : (ulogRecover ulogSha256).run (Device.respond kind) d = (.ok (), d'))
    (hle : anchor ≠ none → d'.floor ≤ d'.counter) (entry : Entry) :
    (ulogEngineAppendAnchored ulogSha256 anchor entry).run (Device.respond kind) d =
      (ulogAppendAtCounter ulogSha256 anchor entry).run (Device.respond kind) (d'.sync anchor) := by
  unfold ulogEngineAppendAnchored
  simp only [hv, Bool.true_eq_false, if_false, Prog.run_bind, hrec, run_sync_device hle,
    Bool.false_eq_true]

-- A verify that reports VERIFY_OK has recovered, found the floor not ahead of the counter,
-- and accepted the store as recovery left it.
theorem run_verify_inv {badSeq : Nat}
    (hrun : ((ulogEngineVerifyAnchored ulogSha256 anchor).run (Device.respond kind) d).1 =
      .ok ⟨.verifyOk, badSeq⟩) :
    ulogAnchorValid anchor = true ∧
      ∃ d', (ulogRecover ulogSha256).run (Device.respond kind) d = (.ok (), d') ∧
        (anchor ≠ none → d'.floor ≤ d'.counter) ∧
        ((ulogEngineVerifyAnchored ulogSha256 anchor).run (Device.respond kind) d).2 =
          d'.sync anchor ∧
        Accepted ulogSha256 d'.store d'.counter := by
  have hv : ulogAnchorValid anchor = true := by
    by_contra hno
    rw [Bool.not_eq_true] at hno
    simp [ulogEngineVerifyAnchored, hno] at hrun
  refine ⟨hv, ?_⟩
  cases hrec : (ulogRecover ulogSha256).run (Device.respond kind) d with
  | mk rc d' =>
      cases rc with
      | error rc =>
          simp [ulogEngineVerifyAnchored, hv, hrec] at hrun
      | ok _ =>
          have hle : anchor ≠ none → d'.floor ≤ d'.counter := by
            intro ha
            by_contra hlt
            have hsync := run_sync_ahead ha (Nat.lt_of_not_le hlt) kind
            simp [ulogEngineVerifyAnchored, hv, hrec, hsync] at hrun
          rw [run_verify_anchored hv hrec hle] at hrun ⊢
          have hacc := run_verifyAtCounter_inv (Device.presents kind (d'.sync anchor)) hrun
          rw [Device.sync_store, Device.sync_counter] at hacc
          exact ⟨d', rfl, hle, Prog.run_frame respond_read verifyAtCounter_reads _, hacc⟩

end Device

end AlpSdk.UpdateLog
