import AlpSdk.Status
import AlpSdk.Library.Bytes
import Mathlib.Data.Fintype.Pi

namespace AlpSdk.UpdateLog

open Library.Bytes

abbrev Blob : Type := List UInt8

abbrev Digest : Type := ByteArr 32

def ULOG_VERSION : Nat := 1
def ULOG_ENTRY_WIRE_LEN : Nat := 115
def ULOG_META_WIRE_LEN : Nat := 46
def ULOG_META_MAGIC : Nat := 0x554C4F47
def ULOG_SEQ_MAX : Nat := 999999999999999999
def ALP_UPDATE_LOG_FWVER_MAX : Nat := 31
def ALP_UPDATE_STATUS_PENDING_CONFIRM : Nat := 3
def UINT64_MAX : Nat := 2 ^ 64 - 1

-- `alp_update_log_entry_t`. The status is the raw unsigned value of the enum field, which
-- the caller may set out of range; `seq` and `timestamp` are the uint64_t values.
structure Entry where
  seq : Nat
  fwVersion : ByteArr 32
  imageHash : Digest
  status : Nat
  timestamp : Nat
  deriving DecidableEq

structure Meta where
  count : Nat
  headHash : Digest
  deriving DecidableEq

def putU16 (v : Nat) : Blob := putLE 2 v
def putU32 (v : Nat) : Blob := putLE 4 v
def putU64 (v : Nat) : Blob := putLE 8 v
def getU16 (off : Nat) (buf : Blob) : Nat := getLE (slice off 2 buf)
def getU32 (off : Nat) (buf : Blob) : Nat := getLE (slice off 4 buf)
def getU64 (off : Nat) (buf : Blob) : Nat := getLE (slice off 8 buf)

-- The length of the string before its NUL, at most `cap`.
def boundedLen (s : List UInt8) (cap : Nat) : Nat :=
  ((s.take cap).takeWhile (· ≠ 0)).length

def zeroDigest : Digest := fun _ => 0

-- The 115 bytes of an entry whose version string has `vlen` characters.
def entryBytes (e : Entry) (vlen : Nat) (prevHash : Digest) : Blob :=
  putU16 ULOG_VERSION                                              -- out + 0
    ++ (putU64 e.seq                                               -- out + 2
    ++ ([UInt8.ofNat e.status]                                     -- out + 10
    ++ (putU64 e.timestamp                                         -- out + 11
    ++ ([UInt8.ofNat vlen]                                         -- out + 19
    ++ (((List.ofFn e.fwVersion).take vlen ++ List.replicate (31 - vlen) 0)  -- out + 20
    ++ (List.ofFn prevHash                                         -- out + 51
    ++ List.ofFn e.imageHash))))))                                 -- out + 83

def ulogEntryEncode (e : Entry) (prevHash : Digest) : Except AlpError Blob :=
  let vlen := boundedLen (List.ofFn e.fwVersion) (ALP_UPDATE_LOG_FWVER_MAX + 1)
  if vlen > ALP_UPDATE_LOG_FWVER_MAX then .error .inval
  else if e.status > ALP_UPDATE_STATUS_PENDING_CONFIRM then .error .inval
  else .ok (entryBytes e vlen prevHash)

def ulogEntryDecode (buf : Blob) : Except AlpError (Entry × Digest) :=
  if buf.length < ULOG_ENTRY_WIRE_LEN then .error .inval
  else if getU16 0 buf ≠ ULOG_VERSION then .error .version
  else
    let vlen := (buf.getD 19 0).toNat
    if vlen > ALP_UPDATE_LOG_FWVER_MAX then .error .inval
    else .ok ({
      seq := getU64 2 buf
      status := (buf.getD 10 0).toNat
      timestamp := getU64 11 buf
      fwVersion := fun i => if i.val < vlen then buf.getD (20 + i.val) 0 else 0
      imageHash := readArr 32 83 buf }, readArr 32 51 buf)

def ulogMetaEncode (m : Meta) : Blob :=
  putU16 ULOG_VERSION ++ (putU32 ULOG_META_MAGIC ++ (putU64 m.count ++ List.ofFn m.headHash))

def ulogMetaDecode (buf : Blob) : Except AlpError Meta :=
  if buf.length < ULOG_META_WIRE_LEN then .error .inval
  else if getU16 0 buf ≠ ULOG_VERSION then .error .version
  else if getU32 2 buf ≠ ULOG_META_MAGIC then .error .inval
  else .ok { count := getU64 6 buf, headHash := readArr 32 14 buf }

abbrev Key : Type := List Char

-- The digit loop of `kbuf`, least significant digit first: it always writes one digit,
-- and writes at most `room` of them.
def kbufDigits : Nat → Nat → List Char
  | 0, _ => []
  | room + 1, v =>
      Char.ofNat (48 + v % 10) :: if v / 10 = 0 then [] else kbufDigits room (v / 10)

-- "ulog.<seq>", cut to `cap - 1` characters to leave room for the NUL.
def kbuf (cap seq : Nat) : Key :=
  (['u', 'l', 'o', 'g', '.'] ++ (kbufDigits 20 seq).reverse).take (cap - 1)

-- Every key buffer of the engine is `char key[24]`.
def entryKey (seq : Nat) : Key := kbuf 24 seq

def metaKey : Key := ['u', 'l', 'o', 'g', '.', 'm', 'e', 't', 'a']

end AlpSdk.UpdateLog
