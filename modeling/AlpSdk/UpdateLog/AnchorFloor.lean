import AlpSdk.UpdateLog.CrashSafety
import AlpSdk.UpdateLog.Device.Accept

namespace AlpSdk.UpdateLog

open Library.Effect

variable {ulogSha256 : Blob → Digest} {kind : StoreKind} {s d : Device} {n floor : Nat}

-- An anchor with both callbacks, as `read` and `advance` of a floor.
def floorAnchor : Option AnchorIf := some { hasRead := true, hasAdvance := true }

-- The store and the counter of `s` under the floor that was reached later.
def Device.restore (s : Device) (floor : Nat) : Device := { s with floor := floor }

-- A log of fewer entries than the floor, which has put no entry since the snapshot `s`.
structure Outdated (ulogSha256 : Blob → Digest) (s : Device) (floor : Nat) (d : Device) : Prop where
  held : d.floor = floor
  log : ∃ m, Clean ulogSha256 none d m ∧ m < floor ∨ Torn ulogSha256 none d m ∧ m + 1 < floor
  puts : ∀ key blob, key ≠ metaKey → (key, blob) ∈ d.puts → (key, blob) ∈ s.puts

-- What a call may answer on such a log, whatever else fails.
def Refused : Outcome → Prop
  | .appended rc => rc ≠ .ok ()
  | .verified (.ok report) => report = ⟨.rolledBack, 0⟩
  | .verified (.error _) => True
  | .counted _ => True

theorem Outdated.cacheMeta (h : Outdated ulogSha256 s floor d) {m : Nat}
    (htorn : Torn ulogSha256 none d m) (hm : m + 1 < floor) (wire : Blob) :
    Outdated ulogSha256 s floor (d.cacheMeta ulogSha256 wire) := by
  refine ⟨h.held, ⟨m, Or.inr ⟨htorn.cacheMeta wire, hm⟩⟩, ?_⟩
  intro key blob hkey hmem
  apply h.puts key blob hkey
  simpa [Device.cacheMeta, Device.write, hkey] using hmem

theorem Outdated.adopt (h : Outdated ulogSha256 s floor d) {m : Nat}
    (htorn : Torn ulogSha256 none d m) (hm : m + 1 < floor) {wire : Blob}
    (hs : d.store.Slot ulogSha256 m wire) :
    Outdated ulogSha256 s floor (d.adopt ulogSha256 wire) :=
  ⟨h.held, ⟨m + 1, Or.inl ⟨htorn.adopt hs, hm⟩⟩, (h.cacheMeta htorn hm wire).puts⟩

-- Recovery leaves the counter below the floor.
theorem wp_recover_outdated (h : Outdated ulogSha256 s floor d) :
    wp (faultyDevice kind) (Outdated ulogSha256 s floor) (ulogRecover ulogSha256)
      (fun rc d' => rc = .ok () → d'.counter < d'.floor) d := by
  obtain ⟨m, ⟨hclean, hm⟩ | ⟨htorn, hm⟩⟩ := h.log
  · refine wp_recover h (by simp) (fun _ _ => ?_) fun wire hs => ?_
    · rw [hclean.counter, h.held]
      exact hm
    · rw [hclean.counter] at hs
      exact absurd hs (hclean.no_slot wire)
  · refine wp_recover h (by simp) (fun hno => ?_) fun wire hs => ?_
    · obtain ⟨wire, hs⟩ := htorn.chain m (by omega)
      rw [htorn.counter] at hno
      exact absurd hs (hno wire)
    · rw [htorn.counter] at hs
      have hadopt := h.adopt htorn hm hs
      refine ⟨h.cacheMeta htorn hm wire, by simp, hadopt, fun _ => ?_⟩
      rw [(htorn.adopt hs).counter, hadopt.held]
      exact hm

theorem wp_sync_outdated (h : Outdated ulogSha256 s floor d) (hlt : d.counter < d.floor)
    (anchor : Option AnchorIf) (ha : anchor ≠ none) :
    wp (faultyDevice kind) (Outdated ulogSha256 s floor) (ulogSyncAnchor anchor)
      (fun out _ => out ≠ .ok false) d := by
  refine wp_syncAnchor h (fun hnone => absurd hnone ha) (by simp) (by simp) ?_
  intro _ hle
  omega

theorem wp_append_outdated (h : Outdated ulogSha256 s floor d) (entry : Entry) :
    wp (faultyDevice kind) (Outdated ulogSha256 s floor)
      (ulogEngineAppendAnchored ulogSha256 floorAnchor entry) (fun rc _ => rc ≠ .ok ()) d := by
  unfold ulogEngineAppendAnchored
  split
  · exact ⟨h, by simp⟩
  apply wp_bind
  refine wp_mono (wp_recover_outdated h) fun rc d' hd' hrc => ?_
  cases rc with
  | error rc => exact ⟨hd', by simp⟩
  | ok _ =>
      apply wp_bind
      refine wp_mono (wp_sync_outdated hd' (hrc rfl) _ (by simp [floorAnchor]))
        fun out d'' hd'' hout => ?_
      cases out with
      | error rc => exact ⟨hd'', by simp⟩
      | ok rolledBack =>
          cases rolledBack with
          | true => exact ⟨hd'', by simp⟩
          | false => exact absurd rfl hout

theorem wp_verify_outdated (h : Outdated ulogSha256 s floor d) :
    wp (faultyDevice kind) (Outdated ulogSha256 s floor)
      (ulogEngineVerifyAnchored ulogSha256 floorAnchor)
      (fun out _ => ∀ report, out = .ok report → report = ⟨.rolledBack, 0⟩) d := by
  unfold ulogEngineVerifyAnchored
  split
  · exact ⟨h, by simp⟩
  apply wp_bind
  refine wp_mono (wp_recover_outdated h) fun rc d' hd' hrc => ?_
  cases rc with
  | error rc => exact ⟨hd', by simp⟩
  | ok _ =>
      apply wp_bind
      refine wp_mono (wp_sync_outdated hd' (hrc rfl) _ (by simp [floorAnchor]))
        fun out d'' hd'' hout => ?_
      cases out with
      | error rc => exact ⟨hd'', by simp⟩
      | ok rolledBack =>
          cases rolledBack with
          | true => exact ⟨hd'', fun report hr => (Except.ok.inj hr).symm⟩
          | false => exact absurd rfl hout

theorem wp_call_outdated (h : Outdated ulogSha256 s floor d) (call : Call) :
    wp (faultyDevice kind) (Outdated ulogSha256 s floor) (call.prog ulogSha256 floorAnchor)
      (fun out _ => Refused out) d := by
  cases call with
  | append entry =>
      apply wp_bind
      exact wp_mono (wp_append_outdated h entry) fun rc d' hd' hrc => ⟨hd', hrc⟩
  | verify =>
      apply wp_bind
      refine wp_mono (wp_verify_outdated h) fun out d' hd' hout => ⟨hd', ?_⟩
      cases out with
      | error rc => trivial
      | ok report => exact hout report rfl
  | count =>
      apply wp_bind
      refine wp_mono (Q := fun _ _ => True) ?_ fun out d' hd' _ => ⟨hd', trivial⟩
      unfold ulogEngineCount
      apply wp_bind
      refine wp_mono (wp_recover_outdated h) fun rc d' hd' _ => ?_
      cases rc with
      | error rc => exact ⟨hd', trivial⟩
      | ok _ => exact wp_ctrRead (k := .ret) hd' (fun _ => ⟨hd', trivial⟩) ⟨hd', trivial⟩

theorem callRun_outdated {d' : Device} (hrun : CallRun ulogSha256 floorAnchor kind d d')
    (h : Outdated ulogSha256 s floor d) : Outdated ulogSha256 s floor d' := by
  refine session_invariant ?_ hrun h
  intro p d hp h
  obtain ⟨call, rfl⟩ := hp
  exact wp_mono (wp_call_outdated h call) fun _ _ _ _ => trivial

-- Without faults the floor is compared after recovery, and it is ahead.
theorem run_sync_outdated (h : Outdated ulogSha256 s floor d) (kind : StoreKind) :
    ∃ d', (ulogRecover ulogSha256).run (Device.respond kind) d = (.ok (), d') ∧
      (ulogSyncAnchor floorAnchor).run (Device.respond kind) d' = (.ok true, d') := by
  have hsome : floorAnchor ≠ none := by simp [floorAnchor]
  obtain ⟨m, ⟨hclean, hm⟩ | ⟨htorn, hm⟩⟩ := h.log
  · refine ⟨d, run_recover_log hclean.toLog hclean.counter kind, run_sync_ahead hsome ?_ kind⟩
    rw [hclean.counter, h.held]
    exact hm
  · obtain ⟨wire, hrun, hclean⟩ := run_recover_torn htorn kind
    refine ⟨_, hrun, run_sync_ahead hsome ?_ kind⟩
    have hf : (d.adopt ulogSha256 wire).floor = floor := h.held
    rw [hclean.counter, hf]
    exact hm

theorem run_append_outdated (h : Outdated ulogSha256 s floor d) (kind : StoreKind) (entry : Entry) :
    ((ulogEngineAppendAnchored ulogSha256 floorAnchor entry).run (Device.respond kind) d).1 =
      .error .io := by
  obtain ⟨d', hrec, hsync⟩ := run_sync_outdated h kind
  unfold ulogEngineAppendAnchored
  simp only [ulogAnchorValid, floorAnchor, Bool.and_self, Bool.true_eq_false, if_false,
    Prog.run_bind, hrec]
  rw [← floorAnchor, hsync]
  rfl

theorem run_verify_outdated (h : Outdated ulogSha256 s floor d) (kind : StoreKind) :
    ((ulogEngineVerifyAnchored ulogSha256 floorAnchor).run (Device.respond kind) d).1 =
      .ok ⟨.rolledBack, 0⟩ := by
  obtain ⟨d', hrec, hsync⟩ := run_sync_outdated h kind
  unfold ulogEngineVerifyAnchored
  simp only [ulogAnchorValid, floorAnchor, Bool.and_self, Bool.true_eq_false, if_false,
    Prog.run_bind, hrec]
  rw [← floorAnchor, hsync]
  rfl

-- The state of a log with a floor: the floor is at most the committed entries, whether
-- these are counted by the counter or by the entries in the store, and at most one behind.
structure FloorBound (ulogSha256 : Blob → Digest) (d : Device) (n : Nat) : Prop where
  present : ∀ key, key ≠ metaKey → (d.store key ≠ none ↔ ∃ i < n, key = entryKey i)
  chain : d.store.ChainTo ulogSha256 n
  counter : d.counter = n ∨ d.counter + 1 = n
  lower : d.floor ≤ d.counter
  upper : n ≤ d.floor + 1

-- At `d` no entry was put since the snapshot `s`, an append is refused and verify reports
-- the rollback; where calls fail as well, neither can succeed otherwise.
structure Refuses (ulogSha256 : Blob → Digest) (kind : StoreKind) (s d : Device) : Prop where
  puts : ∀ key blob, key ≠ metaKey → (key, blob) ∈ d.puts → (key, blob) ∈ s.puts
  append : ∀ entry, ((ulogEngineAppendAnchored ulogSha256 floorAnchor entry).run
    (Device.respond kind) d).1 = .error .io
  verify : ((ulogEngineVerifyAnchored ulogSha256 floorAnchor).run (Device.respond kind) d).1 =
    .ok ⟨.rolledBack, 0⟩
  faulty : ∀ (call : Call) out d', Exec (faultyDevice kind) d (call.prog ulogSha256 floorAnchor)
    (some out) d' → Refused out

theorem floorBound_of_recoverable (h : Recoverable ulogSha256 floorAnchor d) :
    ∃ n, FloorBound ulogSha256 d n := by
  have hsome : floorAnchor ≠ none := by simp [floorAnchor]
  obtain ⟨n, hclean | htorn⟩ := h
  · obtain ⟨hlower, hupper⟩ := hclean.floor hsome
    have hc := hclean.counter
    exact ⟨n, hclean.present, hclean.chain, Or.inl hc, by omega, hupper⟩
  · have hfloor := htorn.floor hsome
    have hc := htorn.counter
    exact ⟨n + 1, htorn.present, htorn.chain, Or.inr (by omega), by omega, by omega⟩

theorem outdated_restore (h : Recoverable ulogSha256 floorAnchor s)
    (hlt : ((ulogRecover ulogSha256).run (Device.respond kind) s).2.counter < floor) :
    Outdated ulogSha256 s floor (s.restore floor) := by
  refine ⟨rfl, ?_, fun _ _ _ hmem => hmem⟩
  obtain ⟨n, hclean | htorn⟩ := h
  · rw [run_recover_log hclean.toLog hclean.counter kind, hclean.counter] at hlt
    exact ⟨n, Or.inl ⟨⟨⟨hclean.chain, hclean.keys, hclean.kept⟩, hclean.counter, hclean.cached,
      fun ha => absurd rfl ha⟩, hlt⟩⟩
  · obtain ⟨wire, hrun, hclean⟩ := run_recover_torn htorn kind
    rw [hrun, hclean.counter] at hlt
    exact ⟨n, Or.inr ⟨⟨⟨htorn.chain, htorn.keys, htorn.kept⟩, htorn.counter,
      fun ha => absurd rfl ha⟩, hlt⟩⟩

-- In every reachable state `d` the floor is at most one behind; and when the store and the
-- counter go back to an earlier state `s` that recovers to fewer entries than the floor,
-- nothing is appended or accepted from then on.
theorem anchor_floor (hs : CallRun ulogSha256 floorAnchor kind Device.empty s)
    (hd : CallRun ulogSha256 floorAnchor kind s d) :
    (∃ n, FloorBound ulogSha256 d n) ∧
      (((ulogRecover ulogSha256).run (Device.respond kind) s).2.counter < d.floor →
        ∀ d', CallRun ulogSha256 floorAnchor kind (s.restore d.floor) d' →
          Refuses ulogSha256 kind s d') := by
  have hrs := callRun_recoverable hs ⟨0, Or.inl (clean_empty ulogSha256 floorAnchor)⟩
  refine ⟨floorBound_of_recoverable (callRun_recoverable hd hrs), ?_⟩
  intro hlt d' hrun
  have hout := callRun_outdated hrun (outdated_restore hrs hlt)
  exact ⟨hout.puts, run_append_outdated hout kind, run_verify_outdated hout kind,
    fun call out d'' he => (wp_sound he (wp_call_outdated hout call)).2 out rfl⟩

-- One anchored append, after which the empty store is put back.
theorem anchor_floor_one_append :
    ∃ d, CallRun (fun _ => zeroDigest) floorAnchor .mutable Device.empty d ∧ d.floor = 1 ∧
      (∃ n, FloorBound (fun _ => zeroDigest) d n) ∧
      ∀ d', CallRun (fun _ => zeroDigest) floorAnchor .mutable (Device.empty.restore d.floor) d' →
        Refuses (fun _ => zeroDigest) .mutable Device.empty d' := by
  have hrun : CallRun (fun _ => zeroDigest) floorAnchor .mutable Device.empty _ :=
    callRun_call (.append blankEntry) Device.empty
  have hall := anchor_floor Relation.ReflTransGen.refl hrun
  exact ⟨_, hrun, by decide, hall.1, hall.2 (by decide)⟩

end AlpSdk.UpdateLog
