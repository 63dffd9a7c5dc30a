import AlpSdk.Status
import Mathlib.Data.List.TakeWhile

namespace AlpSdk.Rpc

abbrev ALP_RPC_METHOD_MAX_LEN : Nat := 32

abbrev CONFIG_ALP_SDK_RPC_TX_FRAME_MAX : Nat := 1024

-- What a `const char *` points at, up to its terminator.
structure CString where
  bytes : List UInt8
  noNul : 0 ∉ bytes
  deriving DecidableEq

def CString.empty : CString := ⟨[], nofun⟩

@[ext] theorem CString.ext {a b : CString} (h : a.bytes = b.bytes) : a = b := by
  cases a
  cases b
  cases h
  rfl

-- The string at the start of a buffer.
def CString.ofBuffer (buf : List UInt8) : CString where
  bytes := buf.takeWhile (· ≠ 0)
  noNul := fun h => by simpa using List.mem_takeWhile_imp h

-- `strncpy` of at most `n` bytes.
def CString.take (n : Nat) (s : CString) : CString where
  bytes := s.bytes.take n
  noNul := fun h => s.noNul (List.mem_of_mem_take h)

theorem CString.take_of_length_le {n : Nat} {s : CString} (h : s.bytes.length ≤ n) :
    s.take n = s := CString.ext (List.take_of_length_le h)

-- `strncmp(a, b, n) == 0`
def strnEq (n : Nat) (a b : CString) : Bool := a.bytes.take n = b.bytes.take n

theorem eq_of_strnEq {n : Nat} {a b : CString} (h : strnEq n a b) (ha : a.bytes.length ≤ n)
    (hb : b.bytes.length ≤ n) : a = b := by
  have heq : a.bytes.take n = b.bytes.take n := by simpa [strnEq] using h
  rw [List.take_of_length_le ha, List.take_of_length_le hb] at heq
  exact CString.ext heq

-- The loop looks at `cap` bytes; past the end of a string stands its terminator.
def boundedStrlen : List UInt8 → Nat → Nat
  | _, 0 => 0
  | [], _ + 1 => 0
  | b :: s, cap + 1 => if b = 0 then 0 else boundedStrlen s cap + 1

theorem length_takeWhile_of_boundedStrlen_lt {buf : List UInt8} {cap : Nat}
    (h : boundedStrlen buf cap < cap) :
    (buf.takeWhile (· ≠ 0)).length = boundedStrlen buf cap := by
  induction buf generalizing cap with
  | nil => cases cap <;> rfl
  | cons b buf ih =>
      cases cap with
      | zero => exact absurd h (Nat.lt_irrefl 0)
      | succ cap =>
          by_cases hb : b = 0
          · simp [boundedStrlen, hb]
          · simp only [boundedStrlen, if_neg hb, Nat.add_lt_add_iff_right] at h
            simpa [boundedStrlen, hb] using ih h

-- `method_valid`; none is the NULL pointer.
def methodValid : Option CString → Bool
  | none => false
  | some m =>
      m.bytes ≠ [] ∧ boundedStrlen m.bytes ALP_RPC_METHOD_MAX_LEN < ALP_RPC_METHOD_MAX_LEN

theorem length_lt_of_methodValid {m : CString} (h : methodValid (some m)) :
    m.bytes.length < ALP_RPC_METHOD_MAX_LEN := by
  have hlt : boundedStrlen m.bytes ALP_RPC_METHOD_MAX_LEN < ALP_RPC_METHOD_MAX_LEN := by
    simp only [methodValid, decide_eq_true_eq] at h
    exact h.2
  have hlen := length_takeWhile_of_boundedStrlen_lt hlt
  have hall : m.bytes.takeWhile (· ≠ 0) = m.bytes :=
    List.takeWhile_eq_self_iff.mpr fun b hb => by
      have hne : b ≠ 0 := fun h0 => m.noNul (h0 ▸ hb)
      simp [hne]
  rw [hall] at hlen
  omega

-- `alp_rpc_frame_size`
def alpRpcFrameSize (methodLen payloadLen cap : Nat) : Option Nat :=
  if cap ≤ methodLen then none
  else if cap - methodLen - 1 < payloadLen then none
  else some (methodLen + 1 + payloadLen)

-- The `errno` values that the status maps tell apart.
inductive Errno where
  | EAGAIN
  | EBUSY
  | EINVAL
  | ENODEV
  | ENOENT
  | ENOMEM
  | ENOSPC
  | ENOSYS
  | ENOTSUP
  | EOPNOTSUPP
  | ENOTTY
  | ENXIO
  | ERANGE
  | ETIMEDOUT
  | other (code : Nat)
  deriving DecidableEq

open Errno in
-- `alp_status_from_posix_errno`
def alpStatusFromPosixErrno : Errno → AlpError
  | .EINVAL => .inval
  | .EBUSY | .EAGAIN => .busy
  | .ETIMEDOUT => .timeout
  | .ENOMEM => .nomem
  | .ENOENT | .ENODEV | ENXIO => .notReady
  | .ENOTSUP | .EOPNOTSUPP | .ENOSYS | .ENOTTY => .nosupport
  | _ => .io

-- `alp_status_from_zephyr_errno` of a negative errno
def errnoToAlp : Errno → AlpError
  | .EAGAIN => .timeout
  | .ENOSPC => .nomem
  | .ERANGE => .outOfRange
  | err => alpStatusFromPosixErrno err

def frameBuild (cap : Nat) (method : CString) (payload : List UInt8) : Except Errno (List UInt8) :=
  let methodLen := boundedStrlen method.bytes ALP_RPC_METHOD_MAX_LEN
  if methodLen = ALP_RPC_METHOD_MAX_LEN then .error .EINVAL
  else
    match alpRpcFrameSize methodLen payload.length cap with
    | none => .error .ENOMEM
    | some _ => .ok (method.bytes.take methodLen ++ 0 :: payload)

-- The method and the payload of a frame; none where it is malformed.
def frameParse (data : List UInt8) : Option (CString × List UInt8) :=
  if data.length = 0 then none
  else
    let cap := min data.length ALP_RPC_METHOD_MAX_LEN
    let methodLen := boundedStrlen data cap
    if methodLen = cap then none
    else some (CString.ofBuffer data, data.drop (methodLen + 1))

theorem boundedStrlen_le (buf : List UInt8) (cap : Nat) : boundedStrlen buf cap ≤ cap := by
  induction buf generalizing cap with
  | nil => cases cap <;> exact Nat.zero_le _
  | cons b buf ih =>
      cases cap with
      | zero => exact Nat.le_refl 0
      | succ cap =>
          unfold boundedStrlen
          split
          · exact Nat.zero_le _
          · exact Nat.succ_le_succ (ih cap)

theorem length_method_lt {data payload : List UInt8} {method : CString}
    (h : frameParse data = some (method, payload)) :
    method.bytes.length < ALP_RPC_METHOD_MAX_LEN := by
  unfold frameParse at h
  split at h
  · cases h
  · simp only at h
    split at h
    · cases h
    next hne =>
        cases h
        have hle := boundedStrlen_le data (min data.length ALP_RPC_METHOD_MAX_LEN)
        have hlt := Nat.lt_of_le_of_ne hle hne
        have hlen := length_takeWhile_of_boundedStrlen_lt hlt
        change (data.takeWhile (· ≠ 0)).length < ALP_RPC_METHOD_MAX_LEN
        omega

end AlpSdk.Rpc
