import AlpSdk.UpdateLog.Device.Run

namespace AlpSdk.UpdateLog

open Library.Effect

-- The public calls that take the counter seam.
inductive Call where
  | append (entry : Entry)
  | verify
  | count

inductive Outcome where
  | appended (rc : Status)
  | verified (out : Except AlpError Report)
  | counted (out : Except AlpError Nat)

variable (ulogSha256 : Blob → Digest) (anchor : Option AnchorIf)

-- `ulog_engine_count` has no anchor seam.
def Call.prog : Call → Engine Outcome
  | .append entry => return .appended (← ulogEngineAppendAnchored ulogSha256 anchor entry)
  | .verify => return .verified (← ulogEngineVerifyAnchored ulogSha256 anchor)
  | .count => return .counted (← ulogEngineCount ulogSha256)

-- A sequence of calls on a device without faults, with the outcome of each.
def runCalls (kind : StoreKind) : List Call → Device → List Outcome × Device
  | [], d => ([], d)
  | call :: rest, d =>
      let first := (call.prog ulogSha256 anchor).run (Device.respond kind) d
      let later := runCalls kind rest first.2
      (first.1 :: later.1, later.2)

-- A run of calls on a faulty device, each of which may be cut off after any step.
def CallRun (kind : StoreKind) (d d' : Device) : Prop :=
  Session (faultyDevice kind) (fun p => ∃ call : Call, p = call.prog ulogSha256 anchor) d d'

variable {ulogSha256 anchor}

theorem Call.run_append {S : Type} (h : Handler Seams S) (entry : Entry) (s : S) :
    ((Call.append entry).prog ulogSha256 anchor).run h s =
      (.appended ((ulogEngineAppendAnchored ulogSha256 anchor entry).run h s).1,
        ((ulogEngineAppendAnchored ulogSha256 anchor entry).run h s).2) :=
  Prog.run_bind h _ _ s

theorem Call.run_verify {S : Type} (h : Handler Seams S) (s : S) :
    (Call.verify.prog ulogSha256 anchor).run h s =
      (.verified ((ulogEngineVerifyAnchored ulogSha256 anchor).run h s).1,
        ((ulogEngineVerifyAnchored ulogSha256 anchor).run h s).2) :=
  Prog.run_bind h _ _ s

theorem Call.run_count {S : Type} (h : Handler Seams S) (s : S) :
    (Call.count.prog ulogSha256 anchor).run h s =
      (.counted ((ulogEngineCount ulogSha256).run h s).1, ((ulogEngineCount ulogSha256).run h s).2) :=
  Prog.run_bind h _ _ s

variable {kind : StoreKind} {J : Device → Prop}

-- A call without faults is one of the runs.
theorem callRun_call (call : Call) (d : Device) :
    CallRun ulogSha256 anchor kind d
      ((call.prog ulogSha256 anchor).run (Device.respond kind) d).2 :=
  Relation.ReflTransGen.single ⟨_, ⟨call, rfl⟩, _, exec_run _ d⟩

-- So is one that is cut off after so many steps.
theorem callRun_cut (call : Call) (n : Nat) (d : Device) :
    CallRun ulogSha256 anchor kind d
      ((call.prog ulogSha256 anchor).runFor (Device.respond kind) n d) :=
  Relation.ReflTransGen.single ⟨_, ⟨call, rfl⟩, _, exec_runFor (fun _ _ => Or.inr ⟨rfl, rfl⟩) n _ d⟩

-- An invariant of all runs: recovery keeps it and establishes `C`, the anchor check keeps
-- `C`, and the commit of an append keeps the invariant from there.
theorem callRun_invariant (C : Device → Prop)
    (hrecover : ∀ d, J d → wp (faultyDevice kind) J (ulogRecover ulogSha256)
      (fun rc d' => rc = .ok () → C d') d)
    (hsync : ∀ d, C d → wp (faultyDevice kind) J (ulogSyncAnchor anchor)
      (fun out d' => out = .ok false → C d' ∧ (anchor ≠ none → d'.floor = d'.counter)) d)
    (hcommit : ∀ (d : Device) (entry : Entry) (prev : Digest) (wire : Blob), C d →
      (anchor ≠ none → d.floor = d.counter) →
      d.counter ≤ ULOG_SEQ_MAX → d.store.predHash ulogSha256 d.counter = .ok prev →
      ulogEntryEncode { entry with seq := d.counter } prev = .ok wire →
      wp (faultyDevice kind) J (ulogCommit ulogSha256 anchor d.counter wire) (fun _ _ => True) d)
    {d d' : Device} (hrun : CallRun ulogSha256 anchor kind d d') (h : J d) : J d' := by
  refine session_invariant ?_ hrun h
  rintro p d ⟨call, rfl⟩ hJ
  cases call with
  | append entry =>
      apply wp_bind
      refine wp_mono (Q := fun _ _ => True) ?_ fun _ _ hj _ => ⟨hj, trivial⟩
      unfold ulogEngineAppendAnchored
      split
      · exact ⟨hJ, trivial⟩
      apply wp_bind
      refine wp_mono (hrecover d hJ) fun rc d' hj hrc => ?_
      cases rc with
      | error rc => exact ⟨hj, trivial⟩
      | ok _ =>
          apply wp_bind
          refine wp_mono (hsync d' (hrc rfl)) fun out d'' hj hout => ?_
          cases out with
          | error rc => exact ⟨hj, trivial⟩
          | ok rolledBack =>
              cases rolledBack with
              | true => exact ⟨hj, trivial⟩
              | false =>
                  obtain ⟨hc, hfloor⟩ := hout rfl
                  exact wp_appendAtCounter hj (fun _ => trivial) fun prev wire =>
                    hcommit d'' entry prev wire hc hfloor
  | verify =>
      apply wp_bind
      refine wp_mono (Q := fun _ _ => True) ?_ fun _ _ hj _ => ⟨hj, trivial⟩
      unfold ulogEngineVerifyAnchored
      split
      · exact ⟨hJ, trivial⟩
      apply wp_bind
      refine wp_mono (hrecover d hJ) fun rc d' hj hrc => ?_
      cases rc with
      | error rc => exact ⟨hj, trivial⟩
      | ok _ =>
          apply wp_bind
          refine wp_mono (hsync d' (hrc rfl)) fun out d'' hj _ => ?_
          cases out with
          | error rc => exact ⟨hj, trivial⟩
          | ok rolledBack =>
              cases rolledBack with
              | true => exact ⟨hj, trivial⟩
              | false => exact wp_verifyAtCounter hj fun _ => trivial
  | count =>
      apply wp_bind
      refine wp_mono (Q := fun _ _ => True) ?_ fun _ _ hj _ => ⟨hj, trivial⟩
      unfold ulogEngineCount
      apply wp_bind
      refine wp_mono (hrecover d hJ) fun rc d' hj _ => ?_
      cases rc with
      | error rc => exact ⟨hj, trivial⟩
      | ok _ => exact wp_ctrRead (k := .ret) hj (fun _ => ⟨hj, trivial⟩) ⟨hj, trivial⟩

end AlpSdk.UpdateLog
