import AlpSdk.Library.Effect
import AlpSdk.UpdateLog.Wire

namespace AlpSdk.UpdateLog

open Library.Effect

-- The calls the engine makes through `alp_secure_store_if`, `alp_monotonic_counter_if`
-- and `alp_counter_anchor_if`.
inductive SeamCmd where
  | put (key : Key) (blob : Blob)
  | get (key : Key) (cap : Nat)
  | ctrRead
  | ctrIncrement
  | anchorRead
  | anchorAdvance (count : Nat)

@[reducible] def SeamReply : SeamCmd → Type
  | .put _ _ => Status
  | .get _ _ => Except AlpError Blob
  | .ctrRead => Except AlpError Nat
  | .ctrIncrement => Except AlpError Nat
  | .anchorRead => Except AlpError Nat
  | .anchorAdvance _ => Status

@[reducible] def Seams : Signature := ⟨SeamCmd, SeamReply⟩

abbrev Engine (α : Type) : Type := Prog Seams α

def storePut (key : Key) (blob : Blob) : Engine Status := Prog.perform (σ := Seams) (.put key blob)
def storeGet (key : Key) (cap : Nat) : Engine (Except AlpError Blob) :=
  Prog.perform (σ := Seams) (.get key cap)
def ctrRead : Engine (Except AlpError Nat) := Prog.perform (σ := Seams) .ctrRead
def ctrIncrement : Engine (Except AlpError Nat) := Prog.perform (σ := Seams) .ctrIncrement
def anchorRead : Engine (Except AlpError Nat) := Prog.perform (σ := Seams) .anchorRead
def anchorAdvance (count : Nat) : Engine Status := Prog.perform (σ := Seams) (.anchorAdvance count)

-- An anchor argument, and which of its two callbacks are non-NULL.
structure AnchorIf where
  hasRead : Bool
  hasAdvance : Bool
  deriving DecidableEq

inductive Verdict where
  | verifyOk
  | chainBroken
  | truncated
  | rolledBack
  deriving DecidableEq, Repr

-- What verify writes through its two output pointers when it returns ALP_OK.
structure Report where
  verdict : Verdict
  badSeq : Nat
  deriving DecidableEq

def ulogAnchorValid : Option AnchorIf → Bool
  | none => true
  | some anchor => anchor.hasRead && anchor.hasAdvance

-- The engine lock is held for the whole of each call below, so a call is a sequential
-- program over the seams. `ulogSha256` is the hash the calls chain the entries with.
section Calls

variable (ulogSha256 : Blob → Digest)

def ulogPrevHashOfPredecessor (seq : Nat) : Engine (Except AlpError Digest) :=
  if seq = 0 then return .ok zeroDigest
  else do
    match ← storeGet (entryKey (seq - 1)) ULOG_ENTRY_WIRE_LEN with
    | .error rc => return .error rc
    | .ok pwire => return .ok (ulogSha256 pwire)

-- Returns whether the floor is ahead of the counter.
def ulogSyncAnchor (anchor : Option AnchorIf) : Engine (Except AlpError Bool) :=
  match anchor with
  | none => return .ok false
  | some _ => do
      match ← ctrRead with
      | .error rc => return .error rc
      | .ok hw =>
          match ← anchorRead with
          | .error rc => return .error rc
          | .ok floor =>
              if floor > hw then return .ok true
              else if floor < hw then
                match ← anchorAdvance hw with
                | .error rc => return .error rc
                | .ok () => return .ok false
              else return .ok false

-- The two writes with which recovery adopts the entry `wire` at the counter's value.
def ulogAdopt (hw : Nat) (wire : Blob) : Engine Status := do
  match ← storePut metaKey (ulogMetaEncode { count := hw + 1, headHash := ulogSha256 wire }) with
  | .error rc => return .error rc
  | .ok () =>
      match ← ctrIncrement with
      | .error rc => return .error rc
      | .ok _ => return .ok ()

def ulogRecover : Engine Status := do
  match ← ctrRead with
  | .error rc => return .error rc
  | .ok hw =>
      if hw = UINT64_MAX then return .error .nomem
      else
        match ← storeGet (entryKey hw) ULOG_ENTRY_WIRE_LEN with
        | .error rc => if rc = .notFound then return .ok () else return .error rc
        | .ok wire =>
            match ulogEntryDecode wire with
            | .error _ => return .ok ()
            | .ok (e, gotPrev) =>
                if e.seq ≠ hw then return .ok ()
                else
                  match ← ulogPrevHashOfPredecessor ulogSha256 hw with
                  | .error rc => if rc = .notFound then return .ok () else return .error rc
                  | .ok expectPrev =>
                      if gotPrev ≠ expectPrev then return .ok ()
                      else ulogAdopt ulogSha256 hw wire

-- The cached meta has to agree with the counter and with the hash of the entry below it.
def ulogCheckMeta (hw : Nat) (prev : Digest) : Engine Status :=
  if hw = 0 then return .ok ()
  else do
    match ← storeGet metaKey ULOG_META_WIRE_LEN with
    | .error rc => return .error (if rc = .notFound then .io else rc)
    | .ok metabuf =>
        match ulogMetaDecode metabuf with
        | .error rc => return .error rc
        | .ok m => if m.count ≠ hw ∨ m.headHash ≠ prev then return .error .io else return .ok ()

-- The durable writes of an append, in order: entry, meta, counter, anchor.
def ulogCommit (anchor : Option AnchorIf) (hw : Nat) (wire : Blob) : Engine Status := do
  match ← storePut (entryKey hw) wire with
  | .error rc => return .error rc
  | .ok () =>
      match ← storePut metaKey (ulogMetaEncode { count := hw + 1, headHash := ulogSha256 wire }) with
      | .error rc => return .error rc
      | .ok () =>
          match ← ctrIncrement with
          | .error rc => return .error rc
          | .ok _ =>
              match anchor with
              | none => return .ok ()
              | some _ => anchorAdvance (hw + 1)

-- The part of an append after recovery and the anchor check.
def ulogAppendAtCounter (anchor : Option AnchorIf) (entry : Entry) : Engine Status := do
  match ← ctrRead with
  | .error rc => return .error rc
  | .ok hw =>
      if hw > ULOG_SEQ_MAX then return .error .nomem
      else
        match ← ulogPrevHashOfPredecessor ulogSha256 hw with
        | .error rc => return .error (if rc = .notFound then .io else rc)
        | .ok prev =>
            match ← ulogCheckMeta hw prev with
            | .error rc => return .error rc
            | .ok () =>
                match ulogEntryEncode { entry with seq := hw } prev with
                | .error rc => return .error rc
                | .ok wire => ulogCommit ulogSha256 anchor hw wire

def ulogEngineAppendAnchored (anchor : Option AnchorIf) (entry : Entry) : Engine Status :=
  if ulogAnchorValid anchor = false then return .error .inval
  else do
    match ← ulogRecover ulogSha256 with
    | .error rc => return .error rc
    | .ok () =>
        match ← ulogSyncAnchor anchor with
        | .error rc => return .error rc
        | .ok rolledBack =>
            if rolledBack then return .error .io
            else ulogAppendAtCounter ulogSha256 anchor entry

def ulogEngineAppend (entry : Entry) : Engine Status :=
  ulogEngineAppendAnchored ulogSha256 none entry

-- The stages of verify return `.error` with the final result where the source jumps to `out`.
abbrev Exit (α : Type) : Type := Except (Except AlpError Report) α

def exitWith {α : Type} (verdict : Verdict) (badSeq : Nat) : Exit α := .error (.ok ⟨verdict, badSeq⟩)

def ulogVerifyMeta (hw : Nat) : Engine (Exit Meta) :=
  if hw = 0 then return .ok { count := 0, headHash := zeroDigest }
  else do
    match ← storeGet metaKey ULOG_META_WIRE_LEN with
    | .error rc => if rc = .notFound then return exitWith .rolledBack 0 else return .error (.error .io)
    | .ok metabuf =>
        match ulogMetaDecode metabuf with
        | .error _ => return .error (.error .io)
        | .ok m => if m.count ≠ hw then return exitWith .rolledBack 0 else return .ok m

-- The loop over the entries `i, …, i + left - 1`, with the hash of the entry before `i`.
-- It returns the hash of the last entry, which is what `cur_hash` holds after the loop.
def ulogVerifyWalk : Nat → Nat → Digest → Engine (Exit Digest)
  | 0, _, prev => return .ok prev
  | left + 1, i, prev => do
      match ← storeGet (entryKey i) ULOG_ENTRY_WIRE_LEN with
      | .error rc => if rc = .notFound then return exitWith .truncated i else return .error (.error .io)
      | .ok wire =>
          match ulogEntryDecode wire with
          | .error _ => return exitWith .chainBroken i
          | .ok (e, gotPrev) =>
              if e.seq ≠ i ∨ gotPrev ≠ prev then return exitWith .chainBroken i
              else ulogVerifyWalk left (i + 1) (ulogSha256 wire)

def ulogVerifyFrontier (hw : Nat) (curHash : Digest) : Engine (Except AlpError Report) := do
  match ← storeGet (entryKey hw) ULOG_ENTRY_WIRE_LEN with
  | .error rc => if rc = .notFound then return .ok ⟨.verifyOk, 0⟩ else return .error .io
  | .ok wire =>
      match ulogEntryDecode wire with
      | .error _ => return .ok ⟨.chainBroken, hw⟩
      | .ok (e, frontierPrev) =>
          if e.seq = hw ∧ frontierPrev = curHash then return .ok ⟨.rolledBack, 0⟩
          else return .ok ⟨.chainBroken, hw⟩

-- The part of verify after recovery and the anchor check.
def ulogVerifyAtCounter : Engine (Except AlpError Report) := do
  match ← ctrRead with
  | .error _ => return .error .io
  | .ok hw =>
      match ← ulogVerifyMeta hw with
      | .error out => return out
      | .ok m =>
          match ← ulogVerifyWalk ulogSha256 hw 0 zeroDigest with
          | .error out => return out
          | .ok curHash =>
              if hw > 0 ∧ curHash ≠ m.headHash then return .ok ⟨.chainBroken, hw - 1⟩
              else ulogVerifyFrontier hw curHash

def ulogEngineVerifyAnchored (anchor : Option AnchorIf) : Engine (Except AlpError Report) :=
  if ulogAnchorValid anchor = false then return .error .inval
  else do
    match ← ulogRecover ulogSha256 with
    | .error rc => return .error rc
    | .ok () =>
        match ← ulogSyncAnchor anchor with
        | .error rc => return .error rc
        | .ok rolledBack =>
            if rolledBack then return .ok ⟨.rolledBack, 0⟩
            else ulogVerifyAtCounter ulogSha256

def ulogEngineVerify : Engine (Except AlpError Report) := ulogEngineVerifyAnchored ulogSha256 none

def ulogEngineCount : Engine (Except AlpError Nat) := do
  match ← ulogRecover ulogSha256 with
  | .error rc => return .error rc
  | .ok () => ctrRead

end Calls

end AlpSdk.UpdateLog
