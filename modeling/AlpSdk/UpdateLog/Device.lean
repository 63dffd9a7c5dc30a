import AlpSdk.UpdateLog.Engine

namespace AlpSdk.UpdateLog

open Library.Effect

-- A keyed blob store: a map from keys to blobs.
abbrev Store : Type := Key → Option Blob

namespace Store

-- `get` into a buffer of `cap` bytes. Every tier refuses a blob the buffer cannot hold.
def fetch (store : Store) (key : Key) (cap : Nat) : Except AlpError Blob :=
  match store key with
  | none => .error .notFound
  | some blob => if blob.length > cap then .error .nomem else .ok blob

-- The hash the entry `seq` has to carry as its prev_hash.
def predHash (ulogSha256 : Blob → Digest) (store : Store) (seq : Nat) : Except AlpError Digest :=
  if seq = 0 then .ok zeroDigest
  else (store.fetch (entryKey (seq - 1)) ULOG_ENTRY_WIRE_LEN).map ulogSha256

-- The slot `seq` holds an entry that carries `seq` and chains from the slot below it.
def Slot (ulogSha256 : Blob → Digest) (store : Store) (seq : Nat) (wire : Blob) : Prop :=
  store.fetch (entryKey seq) ULOG_ENTRY_WIRE_LEN = .ok wire ∧
    ∃ e prev, ulogEntryDecode wire = .ok (e, prev) ∧ e.seq = seq ∧
      store.predHash ulogSha256 seq = .ok prev

-- The entries 0, …, n - 1 form a hash chain.
def ChainTo (ulogSha256 : Blob → Digest) (store : Store) (n : Nat) : Prop :=
  ∀ i < n, ∃ wire, store.Slot ulogSha256 i wire

def write (store : Store) (key : Key) (blob : Blob) : Store := Function.update store key (some blob)

end Store

-- What the seams reach: the store, the monotonic counter and the floor of the anchor.
-- `puts` is a history variable: every put that became durable, newest first.
structure Device where
  store : Store
  counter : Nat
  floor : Nat
  puts : List (Key × Blob)

def Device.empty : Device := { store := fun _ => none, counter := 0, floor := 0, puts := [] }

-- Whether an entry key can be written again (SW tiers) or only once (PSA WRITE_ONCE assets).
inductive StoreKind where
  | mutable
  | writeOnce
  deriving DecidableEq

namespace Device

def write (d : Device) (key : Key) (blob : Blob) : Device :=
  { d with store := d.store.write key blob, puts := (key, blob) :: d.puts }

def bump (d : Device) : Device := { d with counter := d.counter + 1 }

def raise (d : Device) (count : Nat) : Device := { d with floor := max d.floor count }

def respond (kind : StoreKind) : Handler Seams Device
  | .get key cap, d => (d.store.fetch key cap, d)
  | .put key blob, d =>
      if kind = .writeOnce ∧ key ≠ metaKey ∧ (d.store key).isSome then (.error .io, d)
      else (.ok (), d.write key blob)
  | .ctrRead, d => (.ok d.counter, d)
  | .ctrIncrement, d => (.ok (d.counter + 1), d.bump)
  | .anchorRead, d => (.ok d.floor, d)
  | .anchorAdvance count, d => (.ok (), d.raise count)

end Device

def seamError : (cmd : SeamCmd) → AlpError → SeamReply cmd
  | .put _ _, rc => .error rc
  | .get _ _, rc => .error rc
  | .ctrRead, rc => .error rc
  | .ctrIncrement, rc => .error rc
  | .anchorRead, rc => .error rc
  | .anchorAdvance _, rc => .error rc

-- The errors a call may fail with. ALP_ERR_NOT_FOUND is how a map answers for an absent
-- key, so a failed get reports any other code.
def anyFault : SeamCmd → AlpError → Prop
  | .get _ _, rc => rc ≠ .notFound
  | _, _ => True

-- A device each of whose calls may also fail and change nothing.
def faultyDevice (kind : StoreKind) : Env Seams Device :=
  faulty (Device.respond kind) fun cmd reply => ∃ rc, anyFault cmd rc ∧ reply = seamError cmd rc

end AlpSdk.UpdateLog
