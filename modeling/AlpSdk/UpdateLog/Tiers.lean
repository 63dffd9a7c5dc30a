import AlpSdk.UpdateLog.Device
import AlpSdk.UpdateLog.Wire.Keys
import AlpSdk.UpdateLog.Wire.Theorems

namespace AlpSdk.UpdateLog

open Library.Effect Library.Bytes

-- The seams of a tier over its own state. The tiers hand the engine no anchor, so the two
-- anchor calls are never made.
def tierSeams {S : Type} (put : S → Key → Blob → Status × S)
    (get : S → Key → Nat → Except AlpError Blob) (cread : S → Except AlpError Nat × S)
    (cinc : S → Except AlpError Nat × S) : Handler Seams S
  | .put key blob, s => put s key blob
  | .get key cap, s => (get s key cap, s)
  | .ctrRead, s => cread s
  | .ctrIncrement, s => cinc s
  | .anchorRead, s => (.error .nosupport, s)
  | .anchorAdvance _, s => (.error .nosupport, s)

structure Tier where
  State : Type
  seams : Handler Seams State
  fresh : State → Prop
  limit : Nat

-- The digit loop of a key parser. `overflows v digit` is the parser's check that `v * 10 + digit`
-- is out of range.
def parseDecimal (overflows : Nat → Nat → Bool) : Nat → Key → Except AlpError Nat
  | v, [] => .ok v
  | v, c :: rest =>
      if c < '0' ∨ '9' < c then .error .inval
      else if overflows v (digitValue c) then .error .nomem
      else parseDecimal overflows (v * 10 + digitValue c) rest

section Ram

def SW_SLOTS : Nat := 32
def SW_BLOB : Nat := ULOG_ENTRY_WIRE_LEN

-- `struct sw_state`. A slot that is not `used` is `none`: nothing reads its other fields.
structure SwState where
  slots : Fin SW_SLOTS → Option (Key × Blob)
  counter : Nat

def swFind (sw : SwState) (key : Key) : Option (Fin SW_SLOTS) :=
  (List.finRange SW_SLOTS).find? fun i => (sw.slots i).any fun slot => slot.1 = key

def swFree (sw : SwState) : Option (Fin SW_SLOTS) :=
  (List.finRange SW_SLOTS).find? fun i => (sw.slots i).isNone

def swRamPut (sw : SwState) (key : Key) (blob : Blob) : Status × SwState :=
  if blob.length > SW_BLOB then (.error .nomem, sw)
  else
    match (swFind sw key).or (swFree sw) with
    | none => (.error .nomem, sw)
    | some i =>
        -- strncpy into `char key[24]`
        (.ok (), { sw with slots := Function.update sw.slots i (some (key.take 23, blob)) })

def swRamGet (sw : SwState) (key : Key) (cap : Nat) : Except AlpError Blob :=
  match (swFind sw key).bind sw.slots with
  | none => .error .notFound
  | some slot => if slot.2.length > cap then .error .nomem else .ok slot.2

def swCread (sw : SwState) : Except AlpError Nat × SwState := (.ok sw.counter, sw)

def swCinc (sw : SwState) : Except AlpError Nat × SwState :=
  (.ok ((sw.counter + 1) % 2 ^ 64), { sw with counter := (sw.counter + 1) % 2 ^ 64 })

-- One of the slots holds the meta.
def ramTier : Tier where
  State := SwState
  seams := tierSeams swRamPut swRamGet swCread swCinc
  fresh := fun sw => (∀ i, sw.slots i = none) ∧ sw.counter = 0
  limit := SW_SLOTS - 1

end Ram

section Nvs

inductive NvsError where
  | noSpace
  | other
  deriving DecidableEq

-- Zephyr's NVS on a mounted partition: what `nvs_read` finds under an id, the free space,
-- and a write, which stores the record when it succeeds.
structure Nvs where
  State : Type
  records : State → Nat → Option Blob
  calcFreeSpace : State → Option Nat
  write : State → Nat → Blob → Except NvsError Unit × State
  records_write : ∀ {s s' : State} {id : Nat} {blob : Blob}, write s id blob = (.ok (), s') →
    records s' = Function.update (records s) id (some blob)

def SW_NVS_ID_COUNTER : Nat := 0
def SW_NVS_ID_META : Nat := 1
def SW_NVS_ID_ENTRY_BASE : Nat := 16
def SW_NVS_ENTRY_MAX : Nat := 65535 - SW_NVS_ID_ENTRY_BASE
def SW_NVS_APPEND_WORST : Nat := 2 * ULOG_ENTRY_WIRE_LEN + ULOG_META_WIRE_LEN + 8 + 3 * 8

def swNvsKeyToId (key : Key) : Except AlpError Nat :=
  if key = metaKey then .ok SW_NVS_ID_META
  else if key.take 5 ≠ ['u', 'l', 'o', 'g', '.'] ∨ key.drop 5 = [] then .error .inval
  else (parseDecimal (fun v digit => v * 10 + digit > SW_NVS_ENTRY_MAX) 0 (key.drop 5)).map
    (SW_NVS_ID_ENTRY_BASE + ·)

variable (nvs : Nvs)

def swNvsWrite (s : nvs.State) (id : Nat) (blob : Blob) : Status × nvs.State :=
  match nvs.write s id blob with
  | (.ok (), s') => (.ok (), s')
  | (.error err, s') => (.error (if err = .noSpace then .nomem else .io), s')

def swNvsPut (s : nvs.State) (key : Key) (blob : Blob) : Status × nvs.State :=
  match swNvsKeyToId key with
  | .error rc => (.error rc, s)
  | .ok id =>
      if id ≥ SW_NVS_ID_ENTRY_BASE then
        match nvs.calcFreeSpace s with
        | none => (.error .io, s)
        | some free =>
            if free < SW_NVS_APPEND_WORST then (.error .nomem, s) else swNvsWrite nvs s id blob
      else swNvsWrite nvs s id blob

def swNvsGet (s : nvs.State) (key : Key) (cap : Nat) : Except AlpError Blob :=
  match swNvsKeyToId key with
  | .error rc => .error (if rc = .nomem then .notFound else rc)
  | .ok id =>
      match nvs.records s id with
      | none => .error .notFound
      | some blob => if blob.length > cap then .error .nomem else .ok blob

def swNvsCounterRead (s : nvs.State) : Except AlpError Nat × nvs.State :=
  match nvs.records s SW_NVS_ID_COUNTER with
  | none => (.ok 0, s)
  | some val => (if val.length ≠ 8 then .error .io else .ok (getLE val), s)

def swNvsCounterIncrement (s : nvs.State) : Except AlpError Nat × nvs.State :=
  match swNvsCounterRead nvs s with
  | (.error rc, s) => (.error rc, s)
  | (.ok val, s) =>
      let next := (val + 1) % 2 ^ 64
      match swNvsWrite nvs s SW_NVS_ID_COUNTER (putLE 8 next) with
      | (.ok (), s') => (.ok next, s')
      | (.error rc, s') => (.error rc, s')

def nvsTier : Tier where
  State := nvs.State
  seams := tierSeams (swNvsPut nvs) (swNvsGet nvs) (swNvsCounterRead nvs)
    (swNvsCounterIncrement nvs)
  fresh := fun s => ∀ id, nvs.records s id = none
  limit := SW_NVS_ENTRY_MAX + 1

end Nvs

section Psa

-- The status codes of PSA storage other than PSA_SUCCESS.
inductive PsaError where
  | invalidArgument
  | doesNotExist
  | insufficientStorage
  | notSupported
  | other

def psaToAlp : PsaError → AlpError
  | .invalidArgument => .inval
  | .doesNotExist => .notFound
  | .insufficientStorage => .nomem
  | .notSupported => .nosupport
  | .other => .io

-- PSA protected storage: the assets `psa_ps_get_info` and `psa_ps_get` see, and
-- `psa_ps_set` with its write-once flag, which stores the asset when it succeeds.
structure Psa where
  State : Type
  assets : State → Nat → Option Blob
  set : State → Nat → Blob → Bool → Except PsaError Unit × State
  assets_set : ∀ {s s' : State} {uid : Nat} {blob : Blob} {once : Bool},
    set s uid blob once = (.ok (), s') → assets s' = Function.update (assets s) uid (some blob)

def ULOG_UID_META : Nat := 0x00504100
def ULOG_UID_COUNTER : Nat := 0x00504101
def ULOG_UID_ENTRY_BASE : Nat := 0x00504200
def ULOG_UID_MAX_30BIT : Nat := 0x3fffffff

def parseEntryKey (key : Key) : Except AlpError Nat :=
  if key.take 5 ≠ ['u', 'l', 'o', 'g', '.'] ∨ key.drop 5 = [] then .error .inval
  else parseDecimal (fun seq digit => seq > (UINT64_MAX - digit) / 10) 0 (key.drop 5)

-- The uid, and whether it is an entry's.
def uidForKey (key : Key) : Except AlpError (Nat × Bool) :=
  if key = metaKey then .ok (ULOG_UID_META, false)
  else
    match parseEntryKey key with
    | .error rc => .error rc
    | .ok seq =>
        if seq > ULOG_UID_MAX_30BIT - ULOG_UID_ENTRY_BASE then .error .nomem
        else .ok (ULOG_UID_ENTRY_BASE + seq, true)

variable (psa : Psa)

def psSet (s : psa.State) (uid : Nat) (blob : Blob) (once : Bool) : Status × psa.State :=
  match psa.set s uid blob once with
  | (.ok (), s') => (.ok (), s')
  | (.error err, s') => (.error (psaToAlp err), s')

def psPut (s : psa.State) (key : Key) (blob : Blob) : Status × psa.State :=
  match uidForKey key with
  | .error rc => (.error rc, s)
  | .ok (uid, isEntry) => psSet psa s uid blob isEntry

def psGet (s : psa.State) (key : Key) (cap : Nat) : Except AlpError Blob :=
  match uidForKey key with
  | .error rc => .error rc
  | .ok (uid, _) =>
      match psa.assets s uid with
      | none => .error (psaToAlp .doesNotExist)
      | some blob => if blob.length > cap then .error .nomem else .ok blob

def psCounterStore (s : psa.State) (value : Nat) : Status × psa.State :=
  psSet psa s ULOG_UID_COUNTER (putLE 8 value) false

-- The first read creates the counter.
def psCounterRead (s : psa.State) : Except AlpError Nat × psa.State :=
  match psa.assets s ULOG_UID_COUNTER with
  | none =>
      match psCounterStore psa s 0 with
      | (.ok (), s') => (.ok 0, s')
      | (.error rc, s') => (.error rc, s')
  | some blob => (if (blob.take 8).length ≠ 8 then .error .io else .ok (getLE (blob.take 8)), s)

def psCounterIncrement (s : psa.State) : Except AlpError Nat × psa.State :=
  match psCounterRead psa s with
  | (.error rc, s') => (.error rc, s')
  | (.ok value, s') =>
      if value = UINT64_MAX then (.error .nomem, s')
      else
        match psCounterStore psa s' (value + 1) with
        | (.ok (), s'') => (.ok (value + 1), s'')
        | (.error rc, s'') => (.error rc, s'')

-- `alp_update_log_secure_ready` reads the counter before the log is used.
def psaTier : Tier where
  State := psa.State
  seams := tierSeams (psPut psa) (psGet psa) (psCounterRead psa) (psCounterIncrement psa)
  fresh := fun s => ∃ s₀, (∀ uid, psa.assets s₀ uid = none) ∧ psCounterRead psa s₀ = (.ok 0, s)
  limit := ULOG_UID_MAX_30BIT - ULOG_UID_ENTRY_BASE + 1

end Psa

-- A store without a limit of its own, under the sequence bound of the engine.
def seqTier : Tier where
  State := Device
  seams := Device.respond .mutable
  fresh := fun d => d = Device.empty
  limit := ULOG_SEQ_MAX + 1

inductive Limit where
  | ramSlots
  | nvsIds
  | psaUids
  | seqMax
  deriving DecidableEq

def Limit.tier (nvs : Nvs) (psa : Psa) : Limit → Tier
  | .ramSlots => ramTier
  | .nvsIds => nvsTier nvs
  | .psaUids => psaTier psa
  | .seqMax => seqTier

-- The states that `n` successful appends lead to.
inductive Honest (ulogSha256 : Blob → Digest) (tier : Tier) : Nat → tier.State → Prop where
  | fresh {s : tier.State} (hs : tier.fresh s) : Honest ulogSha256 tier 0 s
  | append {n : Nat} {s s' : tier.State} {entry : Entry} (h : Honest ulogSha256 tier n s)
      (hrun : (ulogEngineAppend ulogSha256 entry).run tier.seams s = (.ok (), s')) :
      Honest ulogSha256 tier (n + 1) s'

-- The next append is refused and changes nothing, and the log can still be read.
structure FullAndReadable (ulogSha256 : Blob → Digest) (tier : Tier) (n : Nat) (s : tier.State) :
    Prop where
  refused : ∀ entry : Entry, entry.Encodable →
    (ulogEngineAppend ulogSha256 entry).run tier.seams s = (.error .nomem, s)
  count : (ulogEngineCount ulogSha256).run tier.seams s = (.ok n, s)
  verified : (ulogEngineVerify ulogSha256).run tier.seams s = (.ok ⟨.verifyOk, 0⟩, s)

end AlpSdk.UpdateLog
