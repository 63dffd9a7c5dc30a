import AlpSdk.UpdateLog.Wire
import AlpSdk.Library.Blocks

-- SHA-256 (src/update_log/sha256.c).
namespace AlpSdk.UpdateLog.Sha256

open Library.Bytes Library.Blocks

def rotRight (a b : UInt32) : UInt32 := (a >>> b) ||| (a <<< (32 - b))

def ch (x y z : UInt32) : UInt32 := (x &&& y) ^^^ (~~~x &&& z)
def maj (x y z : UInt32) : UInt32 := (x &&& y) ^^^ (x &&& z) ^^^ (y &&& z)
def ep0 (x : UInt32) : UInt32 := rotRight x 2 ^^^ rotRight x 13 ^^^ rotRight x 22
def ep1 (x : UInt32) : UInt32 := rotRight x 6 ^^^ rotRight x 11 ^^^ rotRight x 25
def sig0 (x : UInt32) : UInt32 := rotRight x 7 ^^^ rotRight x 18 ^^^ (x >>> 3)
def sig1 (x : UInt32) : UInt32 := rotRight x 17 ^^^ rotRight x 19 ^^^ (x >>> 10)

def k : List UInt32 :=
  [0x428a2f98, 0x71374491, 0xb5c0fbcf, 0xe9b5dba5, 0x3956c25b, 0x59f111f1, 0x923f82a4, 0xab1c5ed5,
   0xd807aa98, 0x12835b01, 0x243185be, 0x550c7dc3, 0x72be5d74, 0x80deb1fe, 0x9bdc06a7, 0xc19bf174,
   0xe49b69c1, 0xefbe4786, 0x0fc19dc6, 0x240ca1cc, 0x2de92c6f, 0x4a7484aa, 0x5cb0a9dc, 0x76f988da,
   0x983e5152, 0xa831c66d, 0xb00327c8, 0xbf597fc7, 0xc6e00bf3, 0xd5a79147, 0x06ca6351, 0x14292967,
   0x27b70a85, 0x2e1b2138, 0x4d2c6dfc, 0x53380d13, 0x650a7354, 0x766a0abb, 0x81c2c92e, 0x92722c85,
   0xa2bfe8a1, 0xa81a664b, 0xc24b8b70, 0xc76c51a3, 0xd192e819, 0xd6990624, 0xf40e3585, 0x106aa070,
   0x19a4c116, 0x1e376c08, 0x2748774c, 0x34b0bcb5, 0x391c0cb3, 0x4ed8aa4a, 0x5b9cca4f, 0x682e6ff3,
   0x748f82ee, 0x78a5636f, 0x84c87814, 0x8cc70208, 0x90befffa, 0xa4506ceb, 0xbef9a3f7, 0xc67178f2]

-- The eight words of `state`, and the working variables.
structure Words where
  (a b c d e f g h : UInt32)
  deriving DecidableEq

def Words.add (v w : Words) : Words :=
  ⟨v.a + w.a, v.b + w.b, v.c + w.c, v.d + w.d, v.e + w.e, v.f + w.f, v.g + w.g, v.h + w.h⟩

-- One pass of the second loop of `sha256_transform`.
def round (kt wt : UInt32) (v : Words) : Words :=
  let t1 := v.h + ep1 v.e + ch v.e v.f v.g + kt + wt
  let t2 := ep0 v.a + maj v.a v.b v.c
  ⟨t1 + t2, v.a, v.b, v.c, v.d + t1, v.e, v.f, v.g⟩

def word (data : List UInt8) (j : Nat) : UInt32 :=
  ((data.getD j 0).toUInt32 <<< 24) ||| ((data.getD (j + 1) 0).toUInt32 <<< 16) |||
    ((data.getD (j + 2) 0).toUInt32 <<< 8) ||| (data.getD (j + 3) 0).toUInt32

-- `m[i]` from the words before it.
def extend (m : List UInt32) (i : Nat) : List UInt32 :=
  m ++ [sig1 (m.getD (i - 2) 0) + m.getD (i - 7) 0 + sig0 (m.getD (i - 15) 0) + m.getD (i - 16) 0]

def expand (data : List UInt8) : List UInt32 :=
  (List.range' 16 48).foldl extend ((List.range 16).map fun i => word data (4 * i))

def sha256Transform (state : Words) (data : List UInt8) : Words :=
  let m := expand data
  state.add ((List.range 64).foldl (fun v i => round (k.getD i 0) (m.getD i 0) v) state)

-- `SHA256_CTX`. `datalen` is less than 64 between any two bytes.
structure Ctx where
  data : Vector UInt8 64
  datalen : Fin 64
  bitlen : UInt64
  state : Words

def INIT_STATE : Words :=
  ⟨0x6a09e667, 0xbb67ae85, 0x3c6ef372, 0xa54ff53a, 0x510e527f, 0x9b05688c, 0x1f83d9ab, 0x5be0cd19⟩

-- `sha256_init` leaves the buffer as it is.
def sha256Init (data : Vector UInt8 64) : Ctx := ⟨data, 0, 0, INIT_STATE⟩

def updateByte (ctx : Ctx) (byte : UInt8) : Ctx :=
  let data := ctx.data.set ctx.datalen byte
  if h : ctx.datalen.val + 1 < 64 then { ctx with data := data, datalen := ⟨ctx.datalen.val + 1, h⟩ }
  else
    { data := data
      datalen := 0
      bitlen := ctx.bitlen + 512
      state := sha256Transform ctx.state data.toList }

-- The loop counter is a WORD: with 2^32 bytes or more the loop does not end.
def sha256Update (ctx : Ctx) (data : List UInt8) : Option Ctx :=
  if data.length < 2 ^ 32 then some (data.foldl updateByte ctx) else none

-- The `n` bytes from `lo` on.
def fill (lo n : Nat) (byte : Nat → UInt8) (data : Vector UInt8 64) : Vector UInt8 64 :=
  (List.range' lo n).foldl (fun data j => data.setIfInBounds j (byte j)) data

-- The big-endian bytes of the words.
def hashOut (state : Words) : Digest := fun j =>
  let words := [state.a, state.b, state.c, state.d, state.e, state.f, state.g, state.h]
  ((words.getD (j / 4) 0 >>> UInt32.ofNat (24 - j % 4 * 8)) &&& 0xff).toUInt8

def sha256Final (ctx : Ctx) : Digest :=
  let i := ctx.datalen.val
  let marked := ctx.data.set ctx.datalen 0x80
  let (data, state) :=
    if i < 56 then (fill (i + 1) (55 - i) (fun _ => 0) marked, ctx.state)
    else
      let padded := fill (i + 1) (63 - i) (fun _ => 0) marked
      (fill 0 56 (fun _ => 0) padded, sha256Transform ctx.state padded.toList)
  let bitlen := ctx.bitlen + UInt64.ofNat (i * 8)
  let data := fill 56 8 (fun j => (bitlen >>> UInt64.ofNat (8 * (63 - j))).toUInt8) data
  hashOut (sha256Transform state data.toList)

-- `ulog_sha256`, on a stack frame with whatever is in it.
def ulogSha256 (frame : Vector UInt8 64) (buf : List UInt8) : Option Digest := do
  let ctx ← sha256Update (sha256Init frame) buf
  pure (sha256Final ctx)

-- A message that comes in several pieces.
def updateAll (ctx : Ctx) : List (List UInt8) → Option Ctx
  | [] => some ctx
  | piece :: rest => do
      let ctx ← sha256Update ctx piece
      updateAll ctx rest

example : (ulogSha256 (Vector.replicate 64 7) [0x61, 0x62, 0x63]).map List.ofFn =
    some [0xba, 0x78, 0x16, 0xbf, 0x8f, 0x01, 0xcf, 0xea, 0x41, 0x41, 0x40, 0xde, 0x5d, 0xae, 0x22, 0x23,
      0xb0, 0x03, 0x61, 0xa3, 0x96, 0x17, 0x7a, 0x9c, 0xb4, 0x10, 0xff, 0x61, 0xf2, 0x00, 0x15, 0xad] := by
  decide +kernel

end AlpSdk.UpdateLog.Sha256
