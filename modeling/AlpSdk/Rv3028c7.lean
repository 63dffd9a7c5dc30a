import AlpSdk.Library.Fallible
import AlpSdk.Status
import Mathlib.Data.BitVec
import Mathlib.Logic.Function.Basic

-- The RV-3028-C7 real-time clock (chips/rv3028c7/rv3028c7.c): its countdown, its interrupt enables and
-- its EEPROM-backed configuration.
namespace AlpSdk.Rv3028c7

open Library.Fallible
open Library.Effect (Signature Prog Env)

abbrev Byte : Type := BitVec 8

def REG_TIMER_VAL0 : Byte := 0x0A#8
def REG_TIMER_VAL1 : Byte := 0x0B#8
def REG_STATUS : Byte := 0x0E#8
def REG_CONTROL_1 : Byte := 0x0F#8
def REG_CONTROL_2 : Byte := 0x10#8
def REG_EE_ADDR : Byte := 0x25#8
def REG_EE_DATA : Byte := 0x26#8
def REG_EE_CMD : Byte := 0x27#8
def EEPROM_CLKOUT_ADDR : Byte := 0x35#8
def EEPROM_BACKUP_ADDR : Byte := 0x37#8

def STATUS_TF : Byte := 0x08#8
def STATUS_EEBUSY : Byte := 0x80#8
def STATUS_FLAGS : Byte := 0x7F#8

def CTRL1_TRPT : Byte := 0x80#8
def CTRL1_EERD : Byte := 0x08#8
def CTRL1_TE : Byte := 0x04#8
def CTRL1_TD_MASK : Byte := 0x03#8
def TD_1HZ : Byte := 0x02#8
def TD_1_60HZ : Byte := 0x03#8

def CTRL2_EIE : Byte := 0x04#8
def CTRL2_AIE : Byte := 0x08#8
def CTRL2_TIE : Byte := 0x10#8
def CTRL2_UIE : Byte := 0x20#8
def CTRL2_CLKIE : Byte := 0x40#8

def EEPROM_BACKUP_BSIE : Byte := 0x40#8
def EEPROM_CLKOUT_MASK : Byte := 0x07#8

def EE_CMD_FIRST : Byte := 0x00#8
def EE_CMD_WRITE : Byte := 0x21#8
def EE_CMD_READ : Byte := 0x22#8

def EEPROM_COMMIT_PREWAIT_MS : Nat := 10
def EEPROM_READ_PREWAIT_MS : Nat := 1
def EEPROM_COMMIT_POLL_MAX : Nat := 26
def EEPROM_COMMIT_POLL_STEP_MS : Nat := 5

def TIMER_MAX_SECONDS : UInt32 := 4095 * 60
def TIMER_MAX_SECONDS_1HZ : UInt32 := 4095

inductive Cmd where
  | read (reg : Byte)
  | write (reg : Byte) (data : List Byte)
  | delay (ms : Nat)

abbrev signature : Signature where
  Cmd := Cmd
  Reply
    | .read _ => Except AlpError Byte
    | .write _ _ => Status
    | .delay _ => Unit

abbrev Rtc (α : Type) : Type := Code signature AlpError α

def readReg (reg : Byte) : Rtc Byte := Prog.perform (σ := signature) (.read reg)

def write (reg : Byte) (data : List Byte) : Rtc Unit :=
  if data.length + 1 > 16 then fail .inval else Prog.perform (σ := signature) (.write reg data)

def writeReg (reg value : Byte) : Rtc Unit := write reg [value]

def delayMs (ms : Nat) : Rtc Unit := .call (.delay ms) fun _ => .ret (.ok ())

def updateReg (reg clear set : Byte) : Rtc Unit := do
  let v ← readReg reg
  writeReg reg ((v &&& ~~~ clear) ||| set)

-- The acknowledge of some flags; a 1 leaves a flag as it is.
def statusClear (clear : Byte) : Rtc Unit :=
  writeReg REG_STATUS (STATUS_FLAGS &&& ~~~ (clear &&& STATUS_FLAGS))

-- The tick and the count of a countdown of `seconds`, rounded up to whole minutes past the one-second
-- range; none is the check of `rv3028c7_timer_start`.
def countdown (seconds : UInt32) : Option (Byte × UInt32) :=
  if seconds = 0 ∨ seconds > TIMER_MAX_SECONDS then none
  else if seconds ≤ TIMER_MAX_SECONDS_1HZ then some (TD_1HZ, seconds)
  else some (TD_1_60HZ, (seconds + 59) / 60)

-- `rv3028c7_timer_start` on a started context; its value is `actual_s`.
def timerStart (seconds : UInt32) : Rtc UInt32 :=
  match countdown seconds with
  | none => fail .inval
  | some (td, n) => do
      let ctrl1 ← readReg REG_CONTROL_1
      writeReg REG_CONTROL_1 (ctrl1 &&& ~~~ CTRL1_TE)
      updateReg REG_CONTROL_2 CTRL2_TIE 0
      statusClear STATUS_TF
      let ctrl1 := (ctrl1 &&& ~~~ (CTRL1_TE ||| CTRL1_TRPT ||| CTRL1_TD_MASK)) ||| td
      writeReg REG_CONTROL_1 ctrl1
      write REG_TIMER_VAL0 [BitVec.ofNat 8 (n &&& 0xFF).toNat, BitVec.ofNat 8 ((n >>> 8) &&& 0x0F).toNat]
      updateReg REG_CONTROL_2 0 CTRL2_TIE
      writeReg REG_CONTROL_1 (ctrl1 ||| CTRL1_TE)
      pure (if td = TD_1HZ then n else n * 60)

-- `rv3028_eeprom_wait_not_busy`, by the polls that are left.
def waitPolls : Nat → Rtc Unit
  | 0 => fail .timeout
  | polls + 1 => do
      let status ← readReg REG_STATUS
      if status &&& STATUS_EEBUSY = 0 then pure ()
      else do
        onlyIf (polls ≠ 0) (delayMs EEPROM_COMMIT_POLL_STEP_MS)
        waitPolls polls

def eepromWaitNotBusy : Rtc Unit := waitPolls EEPROM_COMMIT_POLL_MAX

def eepromWriteByte (addr data : Byte) : Rtc Unit := do
  eepromWaitNotBusy
  writeReg REG_EE_ADDR addr
  writeReg REG_EE_DATA data
  writeReg REG_EE_CMD EE_CMD_FIRST
  writeReg REG_EE_CMD EE_CMD_WRITE
  delayMs EEPROM_COMMIT_PREWAIT_MS
  eepromWaitNotBusy

def eepromReadByte (addr : Byte) : Rtc Byte := do
  eepromWaitNotBusy
  writeReg REG_EE_ADDR addr
  writeReg REG_EE_CMD EE_CMD_FIRST
  writeReg REG_EE_CMD EE_CMD_READ
  delayMs EEPROM_READ_PREWAIT_MS
  eepromWaitNotBusy
  readReg REG_EE_DATA

-- With the refresh paused: the mirror byte, and the EEPROM byte where it differs.
def commitByte (addr : Byte) (change : Byte → Byte) : Rtc Unit := do
  eepromWaitNotBusy
  let v ← readReg addr
  writeReg addr (change v)
  let ee ← eepromReadByte addr
  onlyIf (ee ≠ change v) (eepromWriteByte addr (change v))

-- EERD goes back to what it was, but not over an access that may still be in flight.
def restoreEerd (origEerd ctrl1 : Byte) (s : Status) : Rtc Unit :=
  if origEerd = 0 ∧ s ≠ .error .timeout then do
    let r ← attempt (writeReg REG_CONTROL_1 ctrl1)
    ofExcept (if s = .ok () then r else s)
  else ofExcept s

-- The read-modify-write of an EEPROM-backed byte that the two calls below share.
def changeConfig (addr : Byte) (change : Byte → Byte) : Rtc Unit := do
  let ctrl1 ← readReg REG_CONTROL_1
  let origEerd := ctrl1 &&& CTRL1_EERD
  onlyIf (origEerd = 0) (writeReg REG_CONTROL_1 (ctrl1 ||| CTRL1_EERD))
  let s ← attempt (commitByte addr change)
  restoreEerd origEerd ctrl1 s

inductive Src where
  | porf
  | extEvent
  | alarm
  | countdown
  | periodic
  | bsf
  | clkf
  deriving DecidableEq

-- The enable bit of a source in CONTROL_2 (`src_tab`).
def Src.enableBit : Src → Byte
  | .porf => 0
  | .extEvent => CTRL2_EIE
  | .alarm => CTRL2_AIE
  | .countdown => CTRL2_TIE
  | .periodic => CTRL2_UIE
  | .bsf => EEPROM_BACKUP_BSIE
  | .clkf => CTRL2_CLKIE

def enabling (bit : Byte) (enable : Bool) (v : Byte) : Byte := if enable then v ||| bit else v &&& ~~~ bit

-- `rv3028c7_set_int_enable` on a started context. The backup switchover is the one source whose enable
-- lives in the EEPROM.
def setIntEnable (src : Src) (enable : Bool) : Rtc Unit :=
  match src with
  | .porf => fail .nosupport
  | .bsf => changeConfig EEPROM_BACKUP_ADDR (enabling EEPROM_BACKUP_BSIE enable)
  | src => do
      let ctrl2 ← readReg REG_CONTROL_2
      writeReg REG_CONTROL_2 (enabling src.enableBit enable ctrl2)

-- `rv3028c7_clkout_src_t`.
inductive ClkoutSrc where
  | hz32768
  | hz8192
  | hz1024
  | hz64
  | hz32
  | hz1
  | periodic
  | low
  deriving DecidableEq

def ClkoutSrc.code : ClkoutSrc → Byte
  | .hz32768 => 0
  | .hz8192 => 1
  | .hz1024 => 2
  | .hz64 => 3
  | .hz32 => 4
  | .hz1 => 5
  | .periodic => 6
  | .low => 7

def selecting (src : ClkoutSrc) (v : Byte) : Byte :=
  (v &&& ~~~ EEPROM_CLKOUT_MASK) ||| (src.code &&& EEPROM_CLKOUT_MASK)

-- `rv3028c7_route_clkout` on a started context.
def routeClkout (src : ClkoutSrc) : Rtc Unit := changeConfig EEPROM_CLKOUT_ADDR (selecting src)

end AlpSdk.Rv3028c7
