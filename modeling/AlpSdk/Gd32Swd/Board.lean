import AlpSdk.Gd32Swd
import Mathlib.Logic.Function.Basic

-- The three pads and the core behind them.
namespace AlpSdk.Gd32Swd

open Library.Local
open Library.Effect (Env)

structure Core where
  debugEn : Bool
  vcReset : Bool
  -- meaningful out of reset
  halted : Bool
  deriving DecidableEq

-- The core comes out of a reset halted.
def Core.armed (core : Core) : Bool := core.debugEn && core.vcReset

-- A write to a register of the core's debug block; the other addresses are not the core's.
def Core.memWrite (core : Core) (addr value : UInt32) : Core :=
  if addr = CM_DHCSR then
    if value &&& 0xFFFF0000 = CM_DHCSR_DBGKEY then
      let debugEn := decide (value &&& CM_DHCSR_C_DEBUGEN ≠ 0)
      { core with
        debugEn := debugEn
        halted := debugEn && decide (value &&& CM_DHCSR_C_HALT ≠ 0) }
    else core
  else if addr = CM_DEMCR then { core with vcReset := decide (value &&& CM_DEMCR_VC_CORERESET ≠ 0) }
  else core

structure Board where
  dir : Pad → Dir
  level : Pad → Bool
  -- every access writes its address first, so the increment that CSW asks for is left out
  tar : UInt32
  core : Core
  -- the last request was acknowledged, and nothing was read since
  acked : Bool

namespace Board

def Held (b : Board) : Prop := b.dir .nrst = .output ∧ b.level .nrst = false

instance (b : Board) : Decidable b.Held := inferInstanceAs (Decidable (_ ∧ _))

-- When reset ends the core runs, unless it is to halt at its vector.
def settle (before after : Board) : Board :=
  if before.Held ∧ ¬ after.Held then
    { after with core := { after.core with halted := after.core.armed } }
  else after

def setDir (b : Board) (pad : Pad) (dir : Dir) : Board :=
  settle b { b with dir := Function.update b.dir pad dir }

def setLevel (b : Board) (pad : Pad) (level : Bool) : Board :=
  settle b { b with level := Function.update b.level pad level }

def setOutputLow (b : Board) (pad : Pad) : Board :=
  settle b { b with
    dir := Function.update b.dir pad .output
    level := Function.update b.level pad false }

def dataWritten (b : Board) (ap : Bool) (addr : UInt8) (value : UInt32) : Board :=
  if ap && addr == AP_REG_TAR then { b with tar := value }
  else if ap && addr == AP_REG_DRW then { b with core := b.core.memWrite b.tar value }
  else b

-- Data reach the target only over a clock and a data line that are both driven.
def dataSent (b : Board) (ap : Bool) (addr : UInt8) (value : UInt32) : Board :=
  if b.dir .swclk = .output ∧ b.dir .swdio = .output then b.dataWritten ap addr value else b

end Board

-- Which operations may fail: those that assert NRST, those that give P70 and P71 back, the one that
-- makes SWDIO an output for the data of an acknowledged write, and the level writes that put the
-- bits of a transfer on the line.
structure Faults where
  assert : Bool
  toInput : Bool
  toOutput : Bool
  bits : Bool

def Faults.mayFail (faults : Faults) (acked : Bool) : Cmd → Bool
  | .configureOutputLow .nrst => faults.assert
  | .write .nrst _ => faults.assert
  | .configure .nrst _ _ => true
  | .configure _ .input .none => faults.toInput
  | .configure .swdio .output _ => !acked || faults.toOutput
  | _ => true

-- A failing pad operation changes nothing; a transfer may come back with any acknowledge and any
-- data. Where the bits themselves fail, any word may arrive at any register.
def Board.allows (faults : Faults) (b : Board) : (cmd : Cmd) → signature.Reply cmd → Board → Prop
  | .configure pad dir pull, reply, b' =>
      (reply = .ok () ∧ b' = b.setDir pad dir)
        ∨ (faults.mayFail b.acked (.configure pad dir pull) ∧ reply ≠ .ok () ∧ b' = b)
  | .configureOutputLow pad, reply, b' =>
      (reply = .ok () ∧ b' = b.setOutputLow pad)
        ∨ (faults.mayFail b.acked (.configureOutputLow pad) ∧ reply ≠ .ok () ∧ b' = b)
  | .write pad level, reply, b' =>
      (reply = .ok () ∧ b' = b.setLevel pad level)
        ∨ (faults.mayFail b.acked (.write pad level) ∧ reply ≠ .ok () ∧ b' = b)
  | .writeData ap addr value, _, b' =>
      b' = b.dataSent ap addr value
        ∨ (faults.bits = true ∧ ∃ ap' addr' value', b' = b.dataWritten ap' addr' value')
  | .platform, _, b' => b' = b
  | .sessionNotify _, _, b' => b' = b
  | .openPad _, _, b' => b' = b
  | .closePad _, _, b' => b' = b
  | .lineReset, _, b' => b' = b
  | .jtagToSwd, _, b' => b' = b
  | .header _ _ _, _, b' => b' = { b with acked := false }
  | .ack, reply, b' => b' = { b with acked := decide (reply = .ok) }
  | .readData _ _, _, b' => b' = { b with acked := false }

def board (faults : Faults) : Env (issuing signature Ctx) Board :=
  fun b i reply b' => b.allows faults i.cmd reply b'

def Board.Driving (b : Board) : Prop := b.dir .swdio = .output ∨ b.dir .swclk = .output

instance (b : Board) : Decidable b.Driving := inferInstanceAs (Decidable (_ ∨ _))

-- NRST is never driven high, and P70 and P71 are driven only at a core that does not run.
structure Safe (b : Board) : Prop where
  low : b.dir .nrst = .output → b.level .nrst = false
  still : b.Driving → b.Held ∨ b.core.halted = true

-- The core halts nowhere but at its vector.
structure Sound (b : Board) : Prop extends Safe b where
  atVector : ¬ b.Held → b.core.halted = true → b.core.armed = true

-- The core does not run.
structure Ready (b : Board) : Prop extends Sound b where
  quiet : b.Held ∨ b.core.halted = true

theorem ready_of_quiet {b : Board} (hlow : b.dir .nrst = .output → b.level .nrst = false)
    (hvector : ¬ b.Held → b.core.halted = true → b.core.armed = true)
    (hquiet : b.Held ∨ b.core.halted = true) : Ready b :=
  ⟨⟨⟨hlow, fun _ => hquiet⟩, hvector⟩, hquiet⟩

end AlpSdk.Gd32Swd
