import AlpSdk.Library.Bytes
import AlpSdk.Library.Local
import AlpSdk.Status

-- The SPI link of the GD32G553 bridge driver: frames, the reply ladder, STATUS_SEQ, ATTN and
-- the link-feature negotiation (chips/gd32g553/gd32g553.c).
namespace AlpSdk.Gd32

open Library.Bytes Library.Local
open Library.Effect (Signature Env Exec)

def SOF : UInt8 := 0xA5
def MAX_PAYLOAD_BYTES : Nat := 65
def BIG_MAX_PAYLOAD_BYTES : Nat := 252
def SPI_FRAME_BYTES : Nat := BIG_MAX_PAYLOAD_BYTES + 4
def STATUS_CODE_MASK : UInt8 := 0x0F
def REPLY_RETRIES : Nat := 7
def REPLY_TIMEOUT_MS : Nat := 10
def ATTN_FAULT_LIMIT : UInt8 := 3
def HOST_PROTOCOL_MAJOR : UInt8 := 0
def V015_MIN_PROTOCOL_MINOR : UInt8 := 15

def CMD_PING : UInt8 := 0x00
def CMD_GET_VERSION : UInt8 := 0x01
def CMD_BATCH : UInt8 := 0x04
def CMD_ADC_STREAM_READ2 : UInt8 := 0x3C
def CMD_LINK_FEATURES : UInt8 := 0x81

abbrev Features : Type := BitVec 32

def LINK_FEAT_STATUS_SEQ : Features := 0x01#32
def LINK_FEAT_BIG_FRAME : Features := 0x02#32
def LINK_FEAT_ATTN : Features := 0x04#32
def LINK_FEAT_ADC_STREAM2 : Features := 0x08#32
def LINK_FEAT_BATCH : Features := 0x10#32

def has (features feature : Features) : Bool := features &&& feature != 0

-- CRC-16/CCITT-FALSE: polynomial 0x1021, initial value 0xFFFF, not reflected.
def crcBit (crc : Nat) : Nat :=
  if crc.testBit 15 then ((crc <<< 1) % 0x10000) ^^^ 0x1021 else (crc <<< 1) % 0x10000

def crcByte (crc : Nat) (byte : UInt8) : Nat :=
  crcBit (crcBit (crcBit (crcBit (crcBit (crcBit (crcBit (crcBit (crc ^^^ (byte.toNat <<< 8)))))))))

def crc16 (bytes : List UInt8) : Nat := bytes.foldl crcByte 0xFFFF

example : crc16 [0x31, 0x32, 0x33, 0x34, 0x35, 0x36, 0x37, 0x38, 0x39] = 0x29B1 := by
  decide +kernel

def putLe32 (v : BitVec 32) : List UInt8 := putLE 4 v.toNat
def getLe32 (off : Nat) (buf : List UInt8) : BitVec 32 := BitVec.ofNat 32 (getLE (slice off 4 buf))
def getLe16 (off : Nat) (buf : List UInt8) : Nat := getLE (slice off 2 buf)

-- The CRC in the two bytes at `n` is that of the `n` bytes before it.
def crcHolds (buf : List UInt8) (n : Nat) : Bool := getLe16 n buf == crc16 (buf.take n)

def wireError : UInt8 → AlpError
  | 0x01 => .inval
  | 0x02 => .notReady
  | 0x03 => .busy
  | 0x04 => .timeout
  | 0x05 => .io
  | 0x06 => .nosupport
  | 0x07 => .nomem
  | 0x08 => .outOfRange
  | 0x80 => .notReady
  | _ => .io

def statusFromWire (s : UInt8) : Status := if s = 0 then .ok () else .error (wireError s)

structure Version where
  major : UInt8
  minor : UInt8
  patch : UInt8
  deriving DecidableEq

def Version.ofBytes (v : List UInt8) : Version := ⟨v.getD 0 0, v.getD 1 0, v.getD 2 0⟩

inductive Transport where
  | default
  | spi
  | i2c
  -- a value of the C enum outside its three names
  | other
  deriving DecidableEq

-- Which functions of `gd32g553_attn_hook_t` are not NULL.
structure AttnHook where
  now : Bool
  wait : Bool
  readLevel : Bool
  drain : Bool
  deriving DecidableEq

def AttnHook.complete (h : AttnHook) : Bool := h.now && h.wait && h.readLevel && h.drain

-- `gd32g553_t`: a bus handle is whether it is wired. The telemetry counters, which no branch
-- reads, and the wake latency, which is only slept, are left out.
structure Ctx where
  initialised : Bool
  spi : Bool
  i2c : Bool
  i2cAddr : UInt8
  defaultTransport : Transport
  version : Version
  versionCached : Bool
  seqEnabled : Bool
  seqLast : UInt8
  granted : Features
  supported : Features
  maxPayload : Nat
  attn : AttnHook
  attnActive : Bool
  attnUnusable : Bool
  attnFaultPending : Bool
  attnEventEdge : Bool
  attnLastEdge : Bool
  renegotiatePending : Bool
  attnTimeoutRun : UInt8
  attnStuckRun : UInt8
  attnIdleRun : UInt8
  stream2Armed : UInt8
  powerAsleep : Bool
  powerWakeRetries : UInt8
  deriving DecidableEq

-- The arguments of one `spi_xfer_core` call. A reply of variable length has a decoder, which
-- gives its length from its payload bytes; only BATCH and READ2 replies have one.
structure Xfer where
  cmd : UInt8
  payload : List UInt8
  replyMax : Nat
  decode : Option (List UInt8 → Option Nat)
  decode_big : decode.isSome → cmd = CMD_BATCH ∨ cmd = CMD_ADC_STREAM_READ2

def Xfer.fixed (cmd : UInt8) (payload : List UInt8) (replyLen : Nat) : Xfer where
  cmd := cmd
  payload := payload
  replyMax := replyLen
  decode := none
  decode_big := nofun

-- What the driver asks of its buses, of the ATTN hook and of the clock. `begin` and `accept`
-- are marks, not transactions: a transfer starts, and the frame read last is taken as its reply.
inductive BusCmd where
  | begin (x : Xfer)
  | accept
  | spiWrite (frame : List UInt8)
  | spiRead (len : Nat)
  | i2cWriteRead (addr : UInt8) (frame : List UInt8) (len : Nat)
  | attnReadLevel
  | attnWait (timeoutMs : Nat)
  | attnDrain
  | attnNow
  | uptimeMs

@[reducible] def BusCmd.Reply : BusCmd → Type
  | .begin _ | .accept | .attnDrain => Unit
  | .spiWrite _ => Status
  | .spiRead _ | .i2cWriteRead _ _ _ => Except AlpError (List UInt8)
  | .attnReadLevel => Except AlpError Bool
  | .attnWait _ => Except AlpError (BitVec 32)
  | .attnNow => BitVec 32
  | .uptimeMs => Nat

abbrev busSig : Signature where
  Cmd := BusCmd
  Reply := BusCmd.Reply

abbrev Drv (α : Type) : Type := Routine busSig Ctx α

def perform (cmd : BusCmd) : Drv (BusCmd.Reply cmd) := @issue busSig Ctx cmd

def spiWrite (frame : List UInt8) : Drv Status := perform (.spiWrite frame)
def spiRead (len : Nat) : Drv (Except AlpError (List UInt8)) := perform (.spiRead len)
def attnReadLevel : Drv (Except AlpError Bool) := perform .attnReadLevel
def attnWait (timeoutMs : Nat) : Drv (Except AlpError (BitVec 32)) := perform (.attnWait timeoutMs)
def attnDrain : Drv Unit := perform .attnDrain
def attnNow : Drv (BitVec 32) := perform .attnNow
def beginXfer (x : Xfer) : Drv Unit := perform (.begin x)
def acceptReply : Drv Unit := perform .accept

-- The buffer after a read of `len` bytes.
def clocked (len : Nat) (bytes : List UInt8) : List UInt8 := (bytes ++ List.replicate len 0).take len

def linkMaxPayload (c : Ctx) : Nat :=
  if c.maxPayload > MAX_PAYLOAD_BYTES then c.maxPayload else MAX_PAYLOAD_BYTES

def attnFault (c : Ctx) : Ctx := { c with attnActive := false, attnFaultPending := true }

def attnPreRequest : Drv Unit := do
  let c ← get
  if !c.attnActive then pure ()
  else if c.stream2Armed = 0 ∧ !c.attnEventEdge then
    match ← attnReadLevel with
    | .ok true => modify fun c =>
        let c := { c with attnStuckRun := c.attnStuckRun + 1 }
        if c.attnStuckRun ≥ ATTN_FAULT_LIMIT then attnFault c else c
    | _ => modify fun c => { c with attnStuckRun := 0 }
  else pure ()

-- The clock just before the first byte goes out, every edge latched until then discarded.
def attnStartClock : Drv (BitVec 32) := do
  let c ← get
  if c.attnActive then
    attnDrain
    attnNow
  else pure 0

def attnMissed (c : Ctx) : Ctx :=
  let c := { c with attnTimeoutRun := c.attnTimeoutRun + 1 }
  if c.attnTimeoutRun ≥ ATTN_FAULT_LIMIT then attnFault c else c

def attnAwaitEdge (tStart : BitVec 32) : Nat → Drv Bool
  | 0 => do
      modify attnMissed
      pure false
  | tries + 1 => do
      match ← attnWait REPLY_TIMEOUT_MS with
      | .error _ =>
          modify attnMissed
          pure false
      | .ok tEdge =>
          if (tEdge - tStart).msb then attnAwaitEdge tStart tries
          else
            match ← attnReadLevel with
            | .ok true =>
                modify fun c => { c with attnTimeoutRun := 0 }
                pure true
            | _ => attnAwaitEdge tStart tries

def attnAwaitReply (tStart : BitVec 32) : Drv Bool := do
  let c ← get
  if !c.attnActive then pure false else attnAwaitEdge tStart 3

def spiDropNegotiated (c : Ctx) : Ctx :=
  { c with
    seqEnabled := false
    seqLast := 0
    granted := 0
    supported := 0
    maxPayload := MAX_PAYLOAD_BYTES
    attnActive := false
    attnFaultPending := false
    attnEventEdge := false
    attnLastEdge := false
    attnTimeoutRun := 0
    attnStuckRun := 0
    attnIdleRun := 0
    stream2Armed := 0 }

inductive SeqVerdict where
  | fresh
  | stale
  | reset
  deriving DecidableEq

def spiSeqClassify (c : Ctx) (stamp : UInt8) : SeqVerdict :=
  if stamp = 0 ∧ c.seqLast ≠ 0x0F then .reset
  else if stamp = c.seqLast then .stale
  else .fresh

-- What the host makes of the bytes of one read: not a frame, a frame with a payload of `plen`
-- bytes, or the four bytes of an error reply.
inductive Seen where
  | miss
  | full (status : UInt8) (plen : Nat)
  | envelope (status : UInt8)
  deriving DecidableEq

def errorEnvelope (x : Xfer) (reply : List UInt8) : Seen :=
  let status := reply.getD 1 0
  if 0 < x.replyMax ∧ status &&& STATUS_CODE_MASK ≠ 0 ∧ crcHolds reply 2 then .envelope status
  else .miss

def replyLen (x : Xfer) (reply : List UInt8) : Option Nat :=
  match x.decode with
  | none => some x.replyMax
  | some decode =>
      if reply.getD 1 0 &&& STATUS_CODE_MASK = 0 then decode (slice 2 x.replyMax reply) else none

def inspect (x : Xfer) (reply : List UInt8) : Seen :=
  if reply.getD 0 0 ≠ SOF then .miss
  else
    match replyLen x reply with
    | none => errorEnvelope x reply
    | some plen =>
        if crcHolds reply (2 + plen) then .full (reply.getD 1 0) plen else errorEnvelope x reply

-- How one sent request ended, with the context as the accepted reply leaves it.
inductive Outcome where
  | deliver (c : Ctx) (payload : List UInt8)
  | firmware (c : Ctx) (e : AlpError) (resync : Bool)
  | lost
  | stale
  | reset
  deriving DecidableEq

def settleFull (x : Xfer) (c : Ctx) (reply : List UInt8) (status : UInt8) (plen : Nat) : Outcome :=
  let code := status &&& STATUS_CODE_MASK
  let stamp := status >>> 4
  let finish (c : Ctx) : Outcome :=
    if code = 0 then .deliver c (slice 2 plen reply) else .firmware c (wireError code) false
  -- the negotiation reply carries the baseline stamp and is not compared with the last one
  if x.cmd = CMD_LINK_FEATURES ∧ code = 0 ∧ 1 ≤ x.replyMax then
    finish { c with seqEnabled := reply.getD 2 0 &&& 1 != 0, seqLast := stamp }
  else if c.seqEnabled then
    match spiSeqClassify c stamp with
    | .reset => .reset
    | .stale => .stale
    | .fresh => finish { c with seqLast := stamp }
  else finish c

def settleEnvelope (c : Ctx) (status : UInt8) : Outcome :=
  let code := status &&& STATUS_CODE_MASK
  let stamp := status >>> 4
  if c.seqEnabled then
    match spiSeqClassify c stamp with
    | .reset => .reset
    | .stale => .stale
    | .fresh => .firmware { c with seqLast := stamp } (wireError code) true
  else .firmware c (wireError code) true

def settle (x : Xfer) (c : Ctx) (reply : List UInt8) : Outcome :=
  match inspect x reply with
  | .miss => .lost
  | .full status plen => settleFull x c reply status plen
  | .envelope status => settleEnvelope c status

def requestFrame (x : Xfer) : List UInt8 :=
  let covered := SOF :: x.cmd :: x.payload
  covered ++ putLE 2 (crc16 covered)

-- The frame the bridge stages: its status byte and the payload of the reply.
def replyFrame (status : UInt8) (payload : List UInt8) : List UInt8 :=
  let covered := SOF :: status :: payload
  covered ++ putLE 2 (crc16 covered)

-- The re-read ladder: the frame that was recognised, or the last bytes read.
def readReply (x : Xfer) : Nat → Drv (Except AlpError (List UInt8))
  | 0 => do
      match ← spiRead (2 + x.replyMax + 2) with
      | .error e => pure (.error e)
      | .ok bytes => pure (.ok (clocked (2 + x.replyMax + 2) bytes))
  | retries + 1 => do
      match ← spiRead (2 + x.replyMax + 2) with
      | .error e => pure (.error e)
      | .ok bytes =>
          let reply := clocked (2 + x.replyMax + 2) bytes
          if inspect x reply = .miss then readReply x retries else pure (.ok reply)

-- One request on the wire and the reading of its reply.
def exchange (x : Xfer) : Drv (Except AlpError (List UInt8)) := do
  attnPreRequest
  let tStart ← attnStartClock
  match ← spiWrite (requestFrame x) with
  | .error e => pure (.error e)
  | .ok () =>
      let awaited := (← get).attnActive
      let gotEdge ← attnAwaitReply tStart
      modify fun c => { c with attnLastEdge := awaited && gotEdge }
      readReply x REPLY_RETRIES

-- How a transfer ended: with the payload of a reply, with the error status of one, or without
-- a reply that was accepted.
inductive Ending where
  | delivered (payload : List UInt8)
  | firmware (e : AlpError)
  | failed (e : AlpError)
  deriving DecidableEq

def Ending.result : Ending → Except AlpError (List UInt8)
  | .delivered payload => .ok payload
  | .firmware e | .failed e => .error e

def reqCap (c : Ctx) (x : Xfer) : Nat :=
  if x.cmd = CMD_BATCH then linkMaxPayload c else MAX_PAYLOAD_BYTES

def repCap (c : Ctx) (x : Xfer) : Nat :=
  if x.cmd = CMD_BATCH ∨ x.cmd = CMD_ADC_STREAM_READ2 then linkMaxPayload c else MAX_PAYLOAD_BYTES

-- The functions below call `spi_xfer_core`, which calls them: they take it as a parameter.
section Open

variable (self : Xfer → Drv Ending)

def spiXfer (cmd : UInt8) (payload : List UInt8) (replyLen : Nat) :
    Drv (Except AlpError (List UInt8)) := do
  return (← self (.fixed cmd payload replyLen)).result

-- §8: never believe a grant wider than the request, nor one that contradicts itself.
def grantedBy (want : Features) (reply : List UInt8) : Features × Nat :=
  let granted := getLe32 0 reply &&& want
  let mp := getLe16 8 reply
  let granted :=
    if has granted LINK_FEAT_BIG_FRAME ∧ (mp ≤ MAX_PAYLOAD_BYTES ∨ mp > BIG_MAX_PAYLOAD_BYTES) then
      granted &&& ~~~LINK_FEAT_BIG_FRAME
    else granted
  let mp := if has granted LINK_FEAT_BIG_FRAME then mp else MAX_PAYLOAD_BYTES
  let granted := if has granted LINK_FEAT_STATUS_SEQ then granted else granted &&& ~~~LINK_FEAT_ATTN
  (granted, mp)

def linkFeaturesExt (want : Features) (mpReq : Nat) : Drv Status := do
  match ← spiXfer self CMD_LINK_FEATURES (putLe32 want ++ putLE 2 mpReq) 10 with
  | .error e => pure (.error e)
  | .ok reply =>
      modify fun c =>
        { c with
          granted := (grantedBy want reply).1
          supported := getLe32 4 reply
          maxPayload := (grantedBy want reply).2 }
      pure (.ok ())

def negotiateLegacy : Drv Unit := do
  match ← spiXfer self CMD_LINK_FEATURES [0x01] 1 with
  | .error _ => pure ()
  | .ok granted => modify fun c =>
      { c with granted := ((granted.getD 0 0).toBitVec.setWidth 32) &&& LINK_FEAT_STATUS_SEQ }

-- The ATTN self-test on the reply that granted it.
def attnSelfTest : Drv Unit := do
  let c ← get
  if !has c.granted LINK_FEAT_ATTN then pure ()
  else if c.attnLastEdge then modify fun c => { c with attnActive := true }
  else do
    modify fun c => { c with attnUnusable := true }
    let _ ← linkFeaturesExt self (c.granted &&& ~~~LINK_FEAT_ATTN) c.maxPayload
    pure ()

def wantedFeatures (wantAttn : Bool) : Features :=
  let want := LINK_FEAT_STATUS_SEQ ||| LINK_FEAT_BIG_FRAME ||| LINK_FEAT_ADC_STREAM2 ||| LINK_FEAT_BATCH
  if wantAttn then want ||| LINK_FEAT_ATTN else want

def negotiateExtended : Drv Unit := do
  let c ← get
  let wantAttn := c.attn.complete && !c.attnUnusable
  -- provisional: the reply that grants ATTN is the first one it signals
  modify fun c => if wantAttn then { c with attnActive := true } else c
  let s ← linkFeaturesExt self (wantedFeatures wantAttn) BIG_MAX_PAYLOAD_BYTES
  modify fun c => { c with attnActive := false, attnTimeoutRun := 0, attnFaultPending := false }
  match s with
  | .ok () => attnSelfTest self
  | .error _ => negotiateLegacy self

def spiNegotiate : Drv Unit := do
  modify fun c =>
    { c with granted := 0, supported := 0, maxPayload := MAX_PAYLOAD_BYTES, attnActive := false }
  let c ← get
  if !c.spi then pure ()
  else if c.version.major = HOST_PROTOCOL_MAJOR ∧ V015_MIN_PROTOCOL_MINOR ≤ c.version.minor then
    negotiateExtended self
  else negotiateLegacy self

def setVersion (v : List UInt8) (c : Ctx) : Ctx :=
  { c with version := Version.ofBytes v, versionCached := true }

def spiSeqResetRecover : Drv Unit := do
  modify fun c => { spiDropNegotiated c with attnUnusable := false }
  match ← spiXfer self CMD_GET_VERSION [] 3 with
  | .ok v => modify (setVersion v)
  | .error _ => pure ()
  spiNegotiate self

def spiResyncAfterFailure (x : Xfer) : Drv Unit := do
  if x.cmd = CMD_PING then pure ()
  else
    let _ ← spiXfer self CMD_PING [] 0
    pure ()

def failAfterResync (x : Xfer) : Drv Ending := do
  spiResyncAfterFailure self x
  pure (.failed .io)

-- One pass of the send loop; `again` is what a stale reply leads to.
def sendOnce (x : Xfer) (again : Drv Ending) : Drv Ending := do
  match ← exchange x with
  | .error e => pure (.failed e)
  | .ok reply =>
      match settle x (← get) reply with
      | .deliver c payload =>
          modify fun _ => c
          acceptReply
          pure (.delivered payload)
      | .firmware c e resync =>
          modify fun _ => c
          acceptReply
          if resync then spiResyncAfterFailure self x
          pure (.firmware e)
      | .reset =>
          spiSeqResetRecover self
          pure (.failed .io)
      | .lost => failAfterResync self x
      | .stale => again

-- A stale reply is answered by one re-send, a second one by giving up.
def sendRequest (x : Xfer) : Drv Ending := sendOnce self x (sendOnce self x (failAfterResync self x))

def xferBody (x : Xfer) : Drv Ending := do
  let c ← get
  if !c.spi then pure (.failed .nosupport)
  else if x.payload.length > reqCap c x ∨ x.replyMax > repCap c x then pure (.failed .inval)
  else
    beginXfer x
    sendRequest self x

end Open

-- `spi_xfer_core` cut at a nesting of `depth` calls of itself.
def spiXferCore : Nat → Xfer → Drv Ending
  | 0 => fun _ => exhausted
  | depth + 1 => xferBody (spiXferCore depth)

end AlpSdk.Gd32
