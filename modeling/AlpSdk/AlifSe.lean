import AlpSdk.Library.Flags
import AlpSdk.SomPower

-- The STOP / STANDBY backend of the Alif Secure Enclave: the plan of a sleep, the record of its
-- cycle, and the wake cause it reports (src/backends/power/alif_se_power.c).
namespace AlpSdk.AlifSe

open Library.Flags
open SomPower (Mode Policy Record)

abbrev Word : Type := BitVec 32

-- `ALP_POWER_WAKE_*`.
def wakeRtc : Word := 0x1#32
def wakeGpio : Word := 0x2#32
def wakeTimer : Word := 0x8#32
def wakeExtEvent : Word := 0x100#32

-- `ALP_SOM_ARM_*`.
def armLptimer : Word := 0x1#32
def armRtcTimer : Word := 0x2#32
def armRtcInt : Word := 0x4#32
def armLpgpio : Word := 0x8#32
def armRtcEvi : Word := 0x10#32
def armRtcAny : Word := armRtcTimer ||| armRtcInt ||| armRtcEvi

def armPadsShift : Nat := 16
def padsMask : Word := 0xff#32
def recNsrstTrusted : Word := 0x100#32

def lptimerMaxMs : UInt32 := 1000
def lfrcHzMax : UInt64 := 36045
def lfxoHzMax : UInt64 := 32775
def timerMaxSeconds : UInt32 := 4095 * 60
def wakeLatencyMs : UInt32 := 8000
def lprtcMaxMhz : UInt64 := 2200

-- `_tcm_bank_mask`.
def tcmBankMask : List Word := [0x40#32, 0x80#32, 0x10#32, 0x20#32]

def tcmRequested (memoryBlocks : Word) : Bool :=
  tcmBankMask.any fun bank => decide (Meets memoryBlocks bank)

-- What the plan asks of the hardware layer and of the power domains. No entry of
-- `alp,power-wake-gpios` has a line of 8 or more. `rtcIntArmed` is what
-- `alp_som_power_rtc_int_armed` says, `none` when it fails.
structure Hw where
  wakePadMask : BitVec 8
  lpgpioClaimed : Word
  rtcIntPresent : Bool
  wakeTimerPresent : Bool
  wakeTimerHz : UInt32
  rtcCountdownReady : Bool
  rtcIntArmed : Option Bool
  rtcPolicy : Policy

def usableWakePads (hw : Hw) : Word :=
  let pads := hw.wakePadMask.setWidth 32
  if pads = 0#32 ∨ Meets pads hw.lpgpioClaimed then 0#32 else pads

def stopWakeCaps (hw : Hw) : Word :=
  (if usableWakePads hw ≠ 0#32 then wakeGpio else 0#32)
    ||| (if hw.rtcIntPresent then wakeRtc ||| wakeExtEvent else 0#32)
    ||| (if hw.wakeTimerPresent || (hw.rtcIntPresent && hw.rtcCountdownReady) then wakeTimer
      else 0#32)

-- `sleep_plan_t`.
structure Plan where
  mode : Mode
  wake : Word
  hw : Word
  lptimerTicks : UInt32
  rtcSeconds : UInt32
  armedMs : UInt32
  timedBit : Word
  keepAlarm : Bool
  pads : Word
  lfxo : Bool
  memoryBlocks : Word

-- What `deep_sleep` fills in before it plans the wake.
def Plan.start (mode : Mode) (lfxo : Bool) (memoryBlocks : Word) : Plan where
  mode := mode
  wake := 0#32
  hw := 0#32
  lptimerTicks := 0
  rtcSeconds := 0
  armedMs := 0
  timedBit := 0#32
  keepAlarm := false
  pads := 0#32
  lfxo := lfxo
  memoryBlocks := memoryBlocks

-- The hardware of a timed wake: the LPTIMER below a second, the countdown of the RV-3028 from there.
def planTimed (hw : Hw) (wakeAfterMs : UInt32) (plan : Plan) : Except AlpError Plan :=
  if wakeAfterMs = 0 then .ok plan
  else if wakeAfterMs < lptimerMaxMs then
    if !hw.wakeTimerPresent || hw.wakeTimerHz == 0 then .error .nosupport
    else
      -- rounded up against the fastest clock: never early
      let rate := if plan.lfxo then lfxoHzMax else lfrcHzMax
      let ticks := (wakeAfterMs.toUInt64 * rate + 999) / 1000
      .ok { plan with
        lptimerTicks := ticks.toUInt32
        hw := plan.hw ||| armLptimer
        armedMs := wakeAfterMs }
  else if !hw.rtcIntPresent || !hw.rtcCountdownReady then .error .nosupport
  else
    let seconds := (wakeAfterMs + 999) / 1000
    if seconds > timerMaxSeconds then .error .inval
    else .ok { plan with
      rtcSeconds := seconds
      hw := plan.hw ||| armRtcTimer
      armedMs := seconds * 1000 }

-- The source a timed wake reports, whichever hardware serves it.
def planTimedBit (bitmap : Word) (wakeAfterMs : UInt32) (plan : Plan) : Plan :=
  if wakeAfterMs = 0 then plan
  else
    let timedBit := if Meets bitmap wakeRtc ∧ ¬ Meets bitmap wakeTimer then wakeRtc else wakeTimer
    { plan with timedBit := timedBit, wake := plan.wake ||| timedBit }

def planPads (hw : Hw) (bitmap : Word) (plan : Plan) : Plan :=
  if Meets bitmap wakeGpio then
    { plan with
      pads := usableWakePads hw
      hw := plan.hw ||| armLpgpio
      wake := plan.wake ||| wakeGpio }
  else plan

def planRtc (hw : Hw) (bitmap : Word) (plan : Plan) : Except AlpError Plan :=
  let plan := { plan with keepAlarm := decide (Meets bitmap wakeRtc) }
  if Meets bitmap wakeRtc then
    if Meets plan.hw armRtcTimer then .ok { plan with wake := plan.wake ||| wakeRtc }
    -- the caller's own alarm or countdown: it must really be armed
    else if !hw.rtcIntPresent || hw.rtcIntArmed != some true then .error .inval
    else .ok { plan with hw := plan.hw ||| armRtcInt, wake := plan.wake ||| wakeRtc }
  else .ok plan

def planExtEvent (bitmap : Word) (plan : Plan) : Plan :=
  if Meets bitmap wakeExtEvent then
    { plan with hw := plan.hw ||| armRtcEvi, wake := plan.wake ||| wakeExtEvent }
  else plan

def planWake (hw : Hw) (bitmap : Word) (wakeAfterMs : UInt32) (plan : Plan) :
    Except AlpError Plan :=
  if Meets bitmap (~~~ stopWakeCaps hw) then .error .nosupport
  -- nothing would ever wake the SoC
  else if bitmap = 0#32 ∧ wakeAfterMs = 0 then .error .inval
  else if Meets bitmap wakeTimer ∧ wakeAfterMs = 0 then .error .inval
  else do
    let timed ← planTimed hw wakeAfterMs plan
    let asked ← planRtc hw bitmap (planPads hw bitmap (planTimedBit bitmap wakeAfterMs timed))
    let plan := planExtEvent bitmap asked
    -- a policy that takes the RTC away conflicts with an RTC wake
    if Meets plan.hw armRtcAny ∧ hw.rtcPolicy = .railOff then .error .inval else .ok plan

-- The `RV3028C7_WAKE_*` flags; they are the bits of STATUS.
def wakeEvf : BitVec 8 := 0x02#8
def wakeAf : BitVec 8 := 0x04#8
def wakeTf : BitVec 8 := 0x08#8
def statusUf : BitVec 8 := 0x10#8

def ctrl2Eie : BitVec 8 := 0x04#8
def ctrl2Aie : BitVec 8 := 0x08#8
def ctrl2Tie : BitVec 8 := 0x10#8

-- The RV-3028 as the wake service finds it: the two registers, and which of its transfers work.
structure Rtc where
  bus : Bool
  status : BitVec 8
  control2 : BitVec 8
  reads : Bool
  writes : Bool

-- A flag is a wake cause only with its interrupt enable on.
def Rtc.flags (rtc : Rtc) : BitVec 8 :=
  (if Meets rtc.status wakeTf ∧ Meets rtc.control2 ctrl2Tie then wakeTf else 0#8)
    ||| (if Meets rtc.status wakeAf ∧ Meets rtc.control2 ctrl2Aie then wakeAf else 0#8)
    ||| (if Meets rtc.status wakeEvf ∧ Meets rtc.control2 ctrl2Eie then wakeEvf else 0#8)

-- `alp_som_power_rtc_wake_service`.
def rtcWakeService (rtc : Rtc) : Except AlpError (BitVec 8) :=
  if !rtc.bus then .error .notReady
  else if !rtc.reads then .error .io
  else
    let hit := (rtc.status &&& (wakeTf ||| wakeAf ||| statusUf)) ||| (rtc.flags &&& wakeEvf)
    -- nothing latched: nothing to acknowledge
    if hit = 0#8 then .ok rtc.flags
    else if !rtc.writes then .error .io
    else .ok rtc.flags

-- What a wake leaves latched. `pads` is RAW_INTSTATUS of the LPGPIO block.
structure Latches where
  lptimer : Bool
  rtc : Rtc
  pads : Word

-- `save_cycle_record`: `rec` is what the store holds, `seconds` the calendar of the RV-3028.
def saveCycleRecord (rec : Record) (plan : Plan) (resetSyndromeTrusted : Bool)
    (seconds : Option UInt32) (ccvr : UInt32) : Record :=
  let armedHw := plan.hw ||| ((plan.pads &&& padsMask) <<< armPadsShift)
  { rec with
    mode := plan.mode
    wakeSource := 0#32
    sleptMs := 0
    armed := plan.wake
    armedHw :=
      if !tcmRequested plan.memoryBlocks && resetSyndromeTrusted then armedHw ||| recNsrstTrusted
      else armedHw
    timedBit := plan.timedBit
    armedMs := plan.armedMs
    entryRtcS := seconds.getD 0
    entryCcvr := ccvr }

-- `fired_sources`: what ended a sleep that did not power the core down.
def firedSources (plan : Plan) (latches : Latches) : Word :=
  let timed := if Meets plan.hw armLptimer ∧ latches.lptimer then plan.timedBit else 0#32
  let rtc :=
    if Meets plan.hw armRtcAny then
      match rtcWakeService latches.rtc with
      | .ok flags =>
          (if Meets plan.hw (armRtcTimer ||| armRtcInt) ∧ Meets flags (wakeTf ||| wakeAf) then
              (if Meets plan.hw armRtcTimer then plan.timedBit else wakeRtc)
            else 0#32)
          ||| (if Meets plan.hw armRtcEvi ∧ Meets flags wakeEvf then wakeExtEvent else 0#32)
      | .error _ => 0#32
    else 0#32
  let gpio := if plan.pads ≠ 0#32 ∧ Meets latches.pads plan.pads then wakeGpio else 0#32
  timed ||| rtc ||| gpio

-- `alp_som_power_wake_decode_early`.
def wakeDecodeEarly (rec : Record) (latches : Latches) : Record :=
  let timed := if Meets rec.armedHw armLptimer ∧ latches.lptimer then rec.timedBit else 0#32
  let pads := (rec.armedHw >>> armPadsShift) &&& padsMask
  let gpio := if Meets rec.armedHw armLpgpio ∧ Meets latches.pads pads then wakeGpio else 0#32
  { rec with wakeSource := rec.wakeSource ||| timed ||| gpio }

-- The clocks of the boot: the power-on flag and the calendar of the RV-3028, `none` when they cannot
-- be read, and the LPRTC counter.
structure Clocks where
  rtcPorf : Option Bool
  rtcSeconds : Option UInt32
  lprtcCcvr : UInt32

def sleptMs (rec : Record) (clocks : Clocks) : UInt32 :=
  let nominal :=
    if Meets rec.wakeSource rec.timedBit ∧ rec.timedBit ≠ 0#32 then rec.armedMs else rec.sleptMs
  match clocks.rtcSeconds with
  | some now =>
      if rec.entryRtcS ≠ 0 ∧ now ≥ rec.entryRtcS then (now - rec.entryRtcS) * 1000 else nominal
  | none => nominal

-- A lower bound on the time since the entry, by the calendar.
def calendarLbMs (rec : Record) (clocks : Clocks) : UInt32 :=
  match clocks.rtcSeconds with
  | some now =>
      if rec.entryRtcS ≠ 0 ∧ now > rec.entryRtcS then (now - rec.entryRtcS - 1) * 1000 else 0
  | none => 0

def elapsedLbMs (rec : Record) (clocks : Clocks) : UInt32 :=
  let calendar := calendarLbMs rec clocks
  if rec.entryCcvr ≠ 0 then
    let delta := clocks.lprtcCcvr - rec.entryCcvr
    let lbMs := (delta.toUInt64 * 1000000 / lprtcMaxMhz).toUInt32
    if delta < 0x80000000 ∧ lbMs > calendar then lbMs else calendar
  else calendar

-- Far more time passed than the interval and a boot: the LPTIMER was not the wake.
def tooLate (rec : Record) (clocks : Clocks) : Prop :=
  Meets rec.armedHw armLptimer ∧ rec.timedBit ≠ 0#32 ∧ Meets rec.wakeSource rec.timedBit
    ∧ ¬ Meets rec.armedHw armRtcTimer ∧ elapsedLbMs rec clocks > rec.armedMs + wakeLatencyMs

instance (rec : Record) (clocks : Clocks) : Decidable (tooLate rec clocks) :=
  inferInstanceAs (Decidable (_ ∧ _))

-- The flags of the RV-3028, read into the wake sources of the record.
def decodeRtc (rec : Record) (latches : Latches) : Word :=
  if Meets rec.armedHw armRtcAny then
    match rtcWakeService latches.rtc with
    | .ok flags =>
        -- the countdown the SDK started reports the source the caller asked for; the caller's own
        -- alarm is the RTC
        (if Meets rec.armedHw (armRtcTimer ||| armRtcInt) ∧ Meets flags (wakeTf ||| wakeAf) then
            (if Meets rec.armedHw armRtcTimer then rec.timedBit else wakeRtc)
          else 0#32)
        ||| (if Meets rec.armedHw armRtcEvi ∧ Meets flags wakeEvf then wakeExtEvent else 0#32)
    | .error _ => 0#32
  else 0#32

-- The record with the flags of the RV-3028 and the slept time in it.
def serveRecord (rec : Record) (latches : Latches) (clocks : Clocks) : Record :=
  let served := { rec with wakeSource := rec.wakeSource ||| decodeRtc rec latches }
  { served with sleptMs := sleptMs served clocks }

-- `alp_som_power_wake_decode_i2c`: `false` discards the wake information of the cycle.
def wakeDecodeI2c (rec : Record) (latches : Latches) (clocks : Clocks) : Bool × Record :=
  -- the module was power-cycled since: the record is a stale one
  if rec.mode = .standby ∧ clocks.rtcPorf = some true then (false, rec)
  else
    let served := serveRecord rec latches clocks
    if tooLate served clocks then
      (true, { served with wakeSource := served.wakeSource &&& ~~~ served.timedBit })
    else (true, served)

end AlpSdk.AlifSe
