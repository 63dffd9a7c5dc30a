import AlpSdk.Library.Bytes
import AlpSdk.Library.Local
import AlpSdk.Status

-- The bit-banged SWD host of the GD32 supervisor (chips/gd32_swd/gd32_swd.c).
namespace AlpSdk.Gd32Swd

open Library.Local
open Library.Effect (Signature)

inductive Pad where
  | swdio
  | swclk
  | nrst
  deriving DecidableEq

inductive Dir where
  | input
  | output
  deriving DecidableEq

inductive Pull where
  | none
  | up
  deriving DecidableEq

-- The three bits that come back after a request. Of the others only WAIT is told apart.
inductive Ack where
  | ok
  | wait
  | other
  deriving DecidableEq

-- `gd32_swd_t`; of the pad handles, whether they are there.
structure Ctx where
  initialised : Bool
  connected : Bool
  swdio : Bool
  swclk : Bool
  nrst : Bool
  idcode : UInt32
  swdioIsOutput : Bool
  nrstHeld : Bool
  plat : Bool

def Ctx.zero : Ctx := ⟨false, false, false, false, false, 0, false, false, false⟩

inductive Cmd where
  -- the platform has its pad seam
  | platform
  | sessionNotify (active : Bool)
  | openPad (pad : Pad)
  | closePad (pad : Pad)
  | configure (pad : Pad) (dir : Dir) (pull : Pull)
  | configureOutputLow (pad : Pad)
  | write (pad : Pad) (level : Bool)
  -- the wire sequences of the line reset and of the switch from JTAG
  | lineReset
  | jtagToSwd
  -- the phases of a transfer: the request header, the acknowledge, and the data with its parity
  | header (ap rnw : Bool) (addr : UInt8)
  | ack
  | readData (ap : Bool) (addr : UInt8)
  | writeData (ap : Bool) (addr : UInt8) (value : UInt32)

abbrev signature : Signature where
  Cmd := Cmd
  Reply
    | .platform => Bool
    | .openPad _ => Bool
    | .configure _ _ _ => Status
    | .configureOutputLow _ => Status
    | .write _ _ => Status
    | .ack => Ack
    | .readData _ _ => UInt32 × Bool
    | _ => Unit

abbrev Swd (α : Type) : Type := Routine signature Ctx α

def perform (cmd : Cmd) : Swd (signature.Reply cmd) := issue (σ := signature) cmd

def swdioAsOutput : Swd Status := do
  let ctx ← get
  if ctx.swdioIsOutput then pure (.ok ())
  else
    match ← perform (.configure .swdio .output .none) with
    | .error err => pure (.error err)
    | .ok () =>
        modify fun ctx => { ctx with swdioIsOutput := true }
        pure (.ok ())

def swdioAsInput : Swd Status := do
  let ctx ← get
  if !ctx.swdioIsOutput then pure (.ok ())
  else
    match ← perform (.configure .swdio .input .up) with
    | .error err => pure (.error err)
    | .ok () =>
        modify fun ctx => { ctx with swdioIsOutput := false }
        pure (.ok ())

def swdLineReset : Swd Unit := do
  let _ ← swdioAsOutput
  perform .lineReset

def swdJtagToSwdSwitch : Swd Unit := do
  let _ ← swdioAsOutput
  perform .jtagToSwd

-- One transfer: its acknowledge, and the word at `data_io` after it.
def swdXfer (ap rnw : Bool) (addr : UInt8) (data : UInt32) : Swd (Ack × UInt32) := do
  let ctx ← get
  if !ctx.initialised then pure (.other, data)
  else
    let _ ← swdioAsOutput
    let _ ← perform (.header ap rnw addr)
    let _ ← swdioAsInput
    let ack ← perform .ack
    if ack = .ok then
      if rnw then
        let (value, parityOk) ← perform (.readData ap addr)
        let _ ← swdioAsOutput
        pure (if parityOk then .ok else .other, value)
      else
        let _ ← swdioAsOutput
        let _ ← perform (.writeData ap addr data)
        pure (.ok, data)
    else
      let _ ← swdioAsOutput
      pure (ack, data)

def MAX_WAIT_RETRIES : Nat := 16

-- The retries of a transfer that the target answers with WAIT.
def retrying (xfer : Swd (Ack × UInt32)) : Nat → Swd (Except AlpError UInt32)
  | 0 => pure (.error .timeout)
  | rounds + 1 => do
      let (ack, value) ← xfer
      match ack with
      | .ok => pure (.ok value)
      | .wait => retrying xfer rounds
      | .other => pure (.error .io)

def swdReadDp (addr : UInt8) : Swd (Except AlpError UInt32) :=
  retrying (swdXfer false true addr 0) MAX_WAIT_RETRIES

def swdWriteDp (addr : UInt8) (value : UInt32) : Swd (Except AlpError UInt32) :=
  retrying (swdXfer false false addr value) MAX_WAIT_RETRIES

def DP_REG_DPIDR : UInt8 := 0x0
def DP_REG_CTRL_STAT : UInt8 := 0x4
def DP_REG_SELECT : UInt8 := 0x8
def DP_REG_RDBUFF : UInt8 := 0xC
def AP_REG_CSW : UInt8 := 0x00
def AP_REG_TAR : UInt8 := 0x04
def AP_REG_DRW : UInt8 := 0x0C

-- CSYSPWRUPREQ | CDBGPWRUPREQ, and the two acknowledges.
def CTRL_PWRUPREQ : UInt32 := 0x50000000
def CTRL_PWRUPACK : UInt32 := 0xA0000000
def CSW_VALUE : UInt32 := 0x23000052

def swdSelectAp (apNum bank : UInt32) : Swd (Except AlpError UInt32) :=
  swdWriteDp DP_REG_SELECT ((apNum <<< 24) ||| (bank <<< 4))

def swdWriteAp (addr : UInt8) (value : UInt32) : Swd (Except AlpError UInt32) :=
  retrying (swdXfer true false addr value) MAX_WAIT_RETRIES

-- The dummy read of `swd_read_ap`. When the target only ever answers WAIT, the loop ends and the
-- read goes on.
def dummyReadAp (addr : UInt8) : Nat → Swd Status
  | 0 => pure (.ok ())
  | rounds + 1 => do
      let (ack, _) ← swdXfer true true addr 0
      match ack with
      | .ok => pure (.ok ())
      | .wait => dummyReadAp addr rounds
      | .other => pure (.error .io)

def swdReadAp (addr : UInt8) : Swd (Except AlpError UInt32) := do
  match ← dummyReadAp addr MAX_WAIT_RETRIES with
  | .error err => pure (.error err)
  | .ok () => swdReadDp DP_REG_RDBUFF

def awaitPowerUp : Nat → Swd Status
  | 0 => pure (.error .timeout)
  | rounds + 1 => do
      match ← swdReadDp DP_REG_CTRL_STAT with
      | .error err => pure (.error err)
      | .ok stat =>
          if stat &&& CTRL_PWRUPACK = CTRL_PWRUPACK then pure (.ok ()) else awaitPowerUp rounds

def swdPowerUpDebug : Swd Status := do
  match ← swdWriteDp DP_REG_CTRL_STAT CTRL_PWRUPREQ with
  | .error err => pure (.error err)
  | .ok _ => awaitPowerUp 256

-- The address phase that a memory write and a memory read share.
def swdMemAddress (addr : UInt32) : Swd Status := do
  match ← swdSelectAp 0 0 with
  | .error err => pure (.error err)
  | .ok _ =>
      match ← swdWriteAp AP_REG_CSW CSW_VALUE with
      | .error err => pure (.error err)
      | .ok _ =>
          match ← swdWriteAp AP_REG_TAR addr with
          | .error err => pure (.error err)
          | .ok _ => pure (.ok ())

def swdMemWrite32 (addr value : UInt32) : Swd Status := do
  match ← swdMemAddress addr with
  | .error err => pure (.error err)
  | .ok () =>
      match ← swdWriteAp AP_REG_DRW value with
      | .error err => pure (.error err)
      | .ok _ => pure (.ok ())

def swdMemRead32 (addr : UInt32) : Swd (Except AlpError UInt32) := do
  match ← swdMemAddress addr with
  | .error err => pure (.error err)
  | .ok () => swdReadAp AP_REG_DRW

-- NRST is asserted as an output whose initial level is low, and released to high impedance.
def swdNrstAssert : Swd Status := do
  let configured ← perform (.configureOutputLow .nrst)
  let s ← match configured with
    | .error err => pure (.error err)
    | .ok () => perform (.write .nrst false)
  match s with
  | .error err =>
      let _ ← perform (.configure .nrst .input .none)
      pure (.error err)
  | .ok () =>
      modify fun ctx => { ctx with nrstHeld := true }
      pure (.ok ())

def swdNrstRelease : Swd Unit := do
  let _ ← perform (.configure .nrst .input .none)
  modify fun ctx => { ctx with nrstHeld := false }

def padToInput (opened : Bool) (pad : Pad) : Swd Unit :=
  if opened then do
    let _ ← perform (.configure pad .input .none)
    pure ()
  else pure ()

-- The cached direction of SWDIO is not told.
def swdPadsToInputs : Swd Unit := do
  let ctx ← get
  padToInput ctx.swclk .swclk
  padToInput ctx.swdio .swdio

def closeOpened (opened : Bool) (pad : Pad) : Swd Unit := if opened then perform (.closePad pad) else pure ()

def swdClosePads : Swd Unit := do
  let ctx ← get
  if !ctx.plat then pure ()
  else
    closeOpened ctx.swdio .swdio
    closeOpened ctx.swclk .swclk
    closeOpened ctx.nrst .nrst

-- The session is closed and the context cleared.
def endSession (s : Status) : Swd Status := do
  swdClosePads
  let _ ← perform (.sessionNotify false)
  modify fun _ => .zero
  pure s

-- SWCLK and SWDIO as outputs, driven high.
def driveIdle : Swd Status := do
  match ← perform (.configure .swclk .output .none) with
  | .error err => pure (.error err)
  | .ok () =>
      match ← perform (.configure .swdio .output .none) with
      | .error err => pure (.error err)
      | .ok () =>
          modify fun ctx => { ctx with swdioIsOutput := true }
          match ← perform (.write .swclk true) with
          | .error err => pure (.error err)
          | .ok () => perform (.write .swdio true)

-- From the asserted reset on.
def initUnderReset : Swd Status := do
  match ← driveIdle with
  | .error err =>
      swdPadsToInputs
      swdNrstRelease
      endSession (.error err)
  | .ok () =>
      modify fun ctx => { ctx with initialised := true }
      pure (.ok ())

def init : Swd Status := do
  if !(← perform .platform) then pure (.error .nosupport)
  else
    modify fun _ => { Ctx.zero with plat := true }
    let _ ← perform (.sessionNotify true)
    let swdio ← perform (.openPad .swdio)
    let swclk ← perform (.openPad .swclk)
    let nrst ← perform (.openPad .nrst)
    modify fun ctx => { ctx with swdio := swdio, swclk := swclk, nrst := nrst }
    if !(swdio && swclk && nrst) then endSession (.error .notReady)
    else
      match ← swdNrstAssert with
      | .error err => endSession (.error err)
      | .ok () => initUnderReset

def CM_DHCSR : UInt32 := 0xE000EDF0
def CM_DEMCR : UInt32 := 0xE000EDFC
def CM_DHCSR_DBGKEY : UInt32 := 0xA05F0000
def CM_DHCSR_C_DEBUGEN : UInt32 := 0x1
def CM_DHCSR_C_HALT : UInt32 := 0x2
def CM_DHCSR_S_HALT : UInt32 := 0x20000
def CM_DEMCR_VC_CORERESET : UInt32 := 0x1

-- Whether the core is seen halted at its reset vector; a failing read ends the wait.
def awaitVector : Nat → Swd Bool
  | 0 => pure false
  | rounds + 1 => do
      match ← swdMemRead32 CM_DHCSR with
      | .error _ => pure false
      | .ok dhcsr => if dhcsr &&& CM_DHCSR_S_HALT ≠ 0 then pure true else awaitVector rounds

-- From the release of NRST on: proof that the core stopped, or back under reset.
def leaveReset : Swd Status := do
  swdNrstRelease
  if ← awaitVector 64 then pure (.ok ())
  else
    let _ ← swdNrstAssert
    modify fun ctx => { ctx with connected := false }
    pure (.error .io)

-- Halt-on-reset is armed before NRST is released.
def connectUnderReset : Swd Status := do
  match ← swdMemWrite32 CM_DHCSR (CM_DHCSR_DBGKEY ||| CM_DHCSR_C_DEBUGEN) with
  | .error err => pure (.error err)
  | .ok () =>
      match ← swdMemWrite32 CM_DEMCR CM_DEMCR_VC_CORERESET with
      | .error err => pure (.error err)
      | .ok () => leaveReset

def connectDp : Swd Status := do
  match ← swdReadDp DP_REG_DPIDR with
  | .error err => pure (.error err)
  | .ok idcode =>
      if idcode = 0 ∨ idcode = 0xFFFFFFFF then pure (.error .io)
      else
        modify fun ctx => { ctx with idcode := idcode }
        swdPowerUpDebug

def connect : Swd Status := do
  let ctx ← get
  if !ctx.initialised then pure (.error .notReady)
  else
    swdLineReset
    swdJtagToSwdSwitch
    swdLineReset
    match ← connectDp with
    | .error err => pure (.error err)
    | .ok () =>
        modify fun ctx => { ctx with connected := true }
        let ctx ← get
        if ctx.nrstHeld then connectUnderReset else pure (.ok ())

def awaitHalt : Nat → Swd Status
  | 0 => pure (.error .timeout)
  | rounds + 1 => do
      match ← swdMemRead32 CM_DHCSR with
      | .error err => pure (.error err)
      | .ok dhcsr => if dhcsr &&& CM_DHCSR_S_HALT ≠ 0 then pure (.ok ()) else awaitHalt rounds

-- The check that the calls on a session share.
def inSession (code : Swd Status) : Swd Status := do
  let ctx ← get
  if !ctx.initialised then pure (.error .notReady)
  else if !ctx.connected then pure (.error .notReady)
  else code

def halt : Swd Status := inSession do
  match ← swdMemWrite32 CM_DHCSR (CM_DHCSR_DBGKEY ||| CM_DHCSR_C_HALT ||| CM_DHCSR_C_DEBUGEN) with
  | .error err => pure (.error err)
  | .ok () => awaitHalt 1024

def FMC_REG_KEYR : UInt32 := 0x40022008
def FMC_REG_SR : UInt32 := 0x40022010
def FMC_REG_CR : UInt32 := 0x40022014
def FMC_KEY1 : UInt32 := 0x45670123
def FMC_KEY2 : UInt32 := 0xCDEF89AB
def FMC_CR_PG : UInt32 := 0x1
def FMC_CR_PER : UInt32 := 0x2
def FMC_CR_PNB_SHIFT : UInt32 := 3
def FMC_CR_PNB_MASK : UInt32 := 0x7F <<< FMC_CR_PNB_SHIFT
def FMC_CR_STRT : UInt32 := 0x10000
def FMC_CR_LOCK : UInt32 := 0x80000000
def FMC_SR_BSY : UInt32 := 0x10000
def FMC_SR_PROGERR_MASK : UInt32 := 0xF8
def FMC_FLASH_BASE : UInt32 := 0x08000000
def FMC_FLASH_BYTES : UInt32 := 0x80000
def FMC_SECTOR_BYTES : UInt32 := 2048

def fmcBusyLoop : Nat → Swd Status
  | 0 => pure (.error .timeout)
  | rounds + 1 => do
      match ← swdMemRead32 FMC_REG_SR with
      | .error err => pure (.error err)
      | .ok sr =>
          if sr &&& FMC_SR_BSY = 0 then
            pure (if sr &&& FMC_SR_PROGERR_MASK ≠ 0 then .error .io else .ok ())
          else fmcBusyLoop rounds

def fmcWaitBusy : Swd Status := fmcBusyLoop 16384

def fmcUnlock : Swd Status := do
  match ← swdMemWrite32 FMC_REG_KEYR FMC_KEY1 with
  | .error err => pure (.error err)
  | .ok () => swdMemWrite32 FMC_REG_KEYR FMC_KEY2

def fmcLock : Swd Status := do
  match ← swdMemRead32 FMC_REG_CR with
  | .error err => pure (.error err)
  | .ok cr => swdMemWrite32 FMC_REG_CR (cr ||| FMC_CR_LOCK)

-- A step of a flash operation: on a failure the FMC is locked again, whatever that gives.
def orLock (step next : Swd Status) : Swd Status := do
  match ← step with
  | .error err =>
      let _ ← fmcLock
      pure (.error err)
  | .ok () => next

def flashRangeValid (addr : UInt32) (len : Nat) : Bool :=
  decide (len ≠ 0 ∧ FMC_FLASH_BASE ≤ addr ∧ addr - FMC_FLASH_BASE < FMC_FLASH_BYTES
    ∧ len ≤ (FMC_FLASH_BYTES - (addr - FMC_FLASH_BASE)).toNat)

-- The sectors from `sec` on, `count` of them.
def eraseSectors : Nat → UInt32 → Swd Status
  | 0, _ => fmcLock
  | count + 1, sec =>
      let cr := FMC_CR_PER ||| ((sec <<< FMC_CR_PNB_SHIFT) &&& FMC_CR_PNB_MASK)
      orLock fmcWaitBusy <|
        orLock (swdMemWrite32 FMC_REG_CR cr) <|
          orLock (swdMemWrite32 FMC_REG_CR (cr ||| FMC_CR_STRT)) <|
            orLock fmcWaitBusy (eraseSectors count (sec + 1))

def flashErase (addr size : UInt32) : Swd Status := inSession do
  if !flashRangeValid addr size.toNat then pure (.error .inval)
  else
    let startOffset := addr - FMC_FLASH_BASE
    let endOffsetExcl := startOffset + size
    let startSector := startOffset / FMC_SECTOR_BYTES
    let endSectorExcl := (endOffsetExcl + FMC_SECTOR_BYTES - 1) / FMC_SECTOR_BYTES
    match ← fmcUnlock with
    | .error err => pure (.error err)
    | .ok () => eraseSectors (endSectorExcl - startSector).toNat startSector

-- A doubleword of the image, its tail filled up with the erased state.
def doubleword (data : List UInt8) : List UInt8 := data.take 8 ++ List.replicate (8 - (data.take 8).length) 0xFF

def wordAt (bytes : List UInt8) : UInt32 := UInt32.ofNat (Library.Bytes.getLE (bytes.take 4))

-- The doublewords of what is left of the image, to be written from `addr` on.
def writeDoublewords : Nat → UInt32 → List UInt8 → Swd Status
  | 0, _, _ => do
      let _ ← swdMemWrite32 FMC_REG_CR 0
      fmcLock
  | count + 1, addr, data =>
      let buf := doubleword data
      orLock (swdMemWrite32 addr (wordAt buf)) <|
        orLock (swdMemWrite32 (addr + 4) (wordAt (buf.drop 4))) <|
          orLock fmcWaitBusy (writeDoublewords count (addr + 8) (data.drop 8))

def flashWrite (addr : UInt32) (data : List UInt8) : Swd Status := inSession do
  if data = [] ∨ addr &&& 0x7 ≠ 0 ∨ !flashRangeValid addr data.length then pure (.error .inval)
  else
    match ← fmcUnlock with
    | .error err => pure (.error err)
    | .ok () =>
        orLock (swdMemWrite32 FMC_REG_CR FMC_CR_PG)
          (writeDoublewords ((data.length + 7) / 8) addr data)

def verifyWords : Nat → UInt32 → List UInt8 → Swd Status
  | 0, _, _ => pure (.ok ())
  | count + 1, addr, data => do
      match ← swdMemRead32 addr with
      | .error err => pure (.error err)
      | .ok word =>
          if (Library.Bytes.putLE 4 word.toNat).take (data.take 4).length ≠ data.take 4 then
            pure (.error .io)
          else verifyWords count (addr + 4) (data.drop 4)

def flashVerify (addr : UInt32) (data : List UInt8) : Swd Status := inSession do
  if data = [] ∨ addr &&& 0x3 ≠ 0 ∨ !flashRangeValid addr data.length then pure (.error .inval)
  else verifyWords ((data.length + 3) / 4) addr data

-- Debug is given up, best effort.
def disarm : Swd Unit := do
  let _ ← swdMemWrite32 CM_DEMCR 0
  let _ ← swdMemWrite32 CM_DHCSR CM_DHCSR_DBGKEY
  pure ()

-- The reset of `reset_and_run`: the pads go back to inputs before it is released.
def resetPulse : Swd Status := do
  match ← swdNrstAssert with
  | .error _ => pure (.error .io)
  | .ok () =>
      swdPadsToInputs
      swdNrstRelease
      modify fun ctx => { ctx with connected := false }
      pure (.ok ())

def resetAndRun : Swd Status := do
  let ctx ← get
  if !ctx.initialised then pure (.error .notReady)
  else if ctx.connected then do
    disarm
    resetPulse
  else resetPulse

def deinit : Swd Unit := do
  let ctx ← get
  if ctx.initialised then
    swdPadsToInputs
    let ctx ← get
    if ctx.nrst then swdNrstRelease else pure ()
    swdClosePads
    let _ ← perform (.sessionNotify false)
  modify fun ctx =>
    { ctx with
      initialised := false
      connected := false
      swdio := false
      swclk := false
      nrst := false
      plat := false }

end AlpSdk.Gd32Swd
