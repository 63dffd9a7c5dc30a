import AlpSdk.Library.Local
import AlpSdk.Status
import Mathlib.Data.Finset.Basic
import Mathlib.Data.Finset.Filter

-- The power domains of the SoM: quiesce, restore and the two passes of the cold boot
-- (src/backends/power/som_power.c, som_power_record.c).
namespace AlpSdk.SomPower

open Library.Local
open Library.Effect (Signature)

inductive Mode where
  | run
  | sleep
  | deepSleep
  | standby
  | stop
  -- a value of the C enum outside its five names
  | other
  deriving DecidableEq

inductive Domain where
  | wifiBle
  | ethPhy
  | extFlash
  | extRam
  | tempSensor
  | rtc
  | backlight
  deriving DecidableEq

abbrev Mask : Type := Finset Domain

inductive Policy where
  | auto
  | keepAlive
  | railOff
  deriving DecidableEq

inductive State where
  | active
  | quiesced
  | restoreFailed
  deriving DecidableEq

inductive Action where
  | holdReset
  | powerdownPin
  | deepPowerDownCmd
  | shutdownReg
  | keepAlive
  | enableLow
  deriving DecidableEq

inductive Line where
  | reset
  | enable
  | powerdown
  deriving DecidableEq

-- What `sompd_t` says of a domain. `resetWired` is whether its reset pad has a port.
structure Entry where
  present : Bool
  action : Action
  modes : Mode → Bool
  resetWired : Bool
  enableWired : Bool
  railOffOptIn : Bool

-- The registry and the build: whether there is a STOP_MODE_STAT register, whether the rail-off
-- of the Wi-Fi domain is built in, and the identity of the image.
structure Config where
  reg : Domain → Entry
  stopMode : Bool
  wifiRailOff : Bool
  imageId : UInt32

-- `alp_som_pd_record_t` without the magic and the CRC.
structure Record where
  mode : Mode
  quiesced : Mask
  railOff : Mask
  priorActive : Mask
  wakeSource : BitVec 32
  sleptMs : UInt32
  armed : BitVec 32
  armedHw : BitVec 32
  timedBit : BitVec 32
  armedMs : UInt32
  entryRtcS : UInt32
  entryCcvr : UInt32
  imageId : UInt32

def Record.zero : Record := ⟨.run, ∅, ∅, ∅, 0, 0, 0, 0, 0, 0, 0, 0, 0⟩

-- `boot_capture_t`.
structure BootCapture where
  valid : Bool
  mode : Mode
  wakeSource : BitVec 32
  sleptMs : UInt32
  quiesced : Mask
  restored : Mask
  failed : Mask

def BootCapture.zero : BootCapture := ⟨false, .run, 0, 0, ∅, ∅, ∅⟩

-- Which functions of bound driver hooks are not NULL.
structure Hooks where
  quiesce : Bool
  restore : Bool

-- The mutable state of the layer, which a reset loses.
structure Ram where
  policy : Domain → Policy
  state : Domain → State
  hooks : Domain → Option Hooks
  padsApplied : Bool
  ramRec : Record
  ramRecValid : Bool
  boot : BootCapture
  bootRec : Record
  bootExternal : Bool
  bootCoreOffOnly : Bool
  ignoreStat : Bool
  bootSuppressed : Bool

def Ram.fresh : Ram where
  policy := fun _ => .auto
  state := fun _ => .active
  hooks := fun _ => none
  padsApplied := false
  ramRec := .zero
  ramRecValid := false
  boot := .zero
  bootRec := .zero
  bootExternal := false
  bootCoreOffOnly := false
  ignoreStat := false
  bootSuppressed := false

-- Points of the code that the claims speak of; they touch no memory.
inductive Note where
  -- a quiesce comes to a domain and reads its saved bit next, and it has read it
  | taking (d : Domain) (state : State) (policy : Policy)
  | asked
  | restoring (d : Domain) (railOff prior : Bool)

inductive Cmd where
  -- the port of a pad is there and ready
  | ready (d : Domain) (line : Line)
  | padsApply
  | configure (d : Domain) (line : Line) (asserted : Bool)
  -- the read-back of a pad just driven, and the level of a pad otherwise; `none` for an error
  | padRead (d : Domain) (line : Line)
  | pinGet (d : Domain) (line : Line)
  | i2cReady (d : Domain)
  -- the CONFIG register of a TMP112, and a register of the RV-3028
  | confRead (d : Domain)
  | confWrite (d : Domain) (value : BitVec 16)
  | rtcRead (reg : UInt8)
  | rtcWrite (reg value : UInt8)
  | wait (ms : Nat) (early : Bool)
  | hookQuiesce (d : Domain) (railOff : Bool)
  | hookRestore (d : Domain) (railOff early : Bool)
  -- the stored record, valid or not, and whether its magic and CRC hold
  | storeLoad
  | storeSave (rec : Record)
  | storeClear
  | syndromeTake
  | coreOffTake
  | stopModeRead
  | stopModeStatClear
  -- the two hooks that the STOP backend overrides
  | wakeDecodeEarly (rec : Record)
  | wakeDecodeI2c (rec : Record)
  | note (n : Note)

abbrev board : Signature where
  Cmd := Cmd
  Reply
    | .ready _ _ | .configure _ _ _ | .i2cReady _ | .confWrite _ _ | .rtcWrite _ _ => Bool
    | .coreOffTake | .stopModeRead | .stopModeStatClear => Bool
    | .padsApply | .hookQuiesce _ _ | .hookRestore _ _ _ => Status
    | .padRead _ _ | .pinGet _ _ => Option Bool
    | .confRead _ => Option (BitVec 16)
    | .rtcRead _ => Option UInt8
    | .storeLoad => Record × Bool
    | .syndromeTake => BitVec 32
    | .wakeDecodeEarly _ => Record
    | .wakeDecodeI2c _ => Bool × Record
    | .wait _ _ | .storeSave _ | .storeClear | .note _ => Unit

abbrev Layer : Type → Type := Routine board Ram

def perform (cmd : board.Cmd) : Layer (board.Reply cmd) := issue cmd

def note (n : Note) : Layer Unit := perform (Cmd.note n)

def setState (d : Domain) (state : State) : Layer Unit :=
  modify fun ram => { ram with state := Function.update ram.state d state }

-- Pin and I2C primitives.

def waitMs (ms : Nat) (early : Bool) : Layer Unit := perform (Cmd.wait ms early)

-- The pinctrl state of the pads, applied once before the first drive.
def padsApplied : Layer Status := do
  let ram ← get
  if ram.padsApplied then pure (.ok ())
  else
    match ← perform Cmd.padsApply with
    | .error err => pure (.error err)
    | .ok () =>
        modify fun ram => { ram with padsApplied := true }
        pure (.ok ())

def pinAssert (d : Domain) (line : Line) (asserted : Bool) : Layer Status := do
  if ← perform (Cmd.ready d line) then
    match ← padsApplied with
    | .error err => pure (.error err)
    | .ok () =>
        if ← perform (Cmd.configure d line asserted) then
          match ← perform (Cmd.padRead d line) with
          | none => pure (.ok ())
          | some seen => pure (if seen = asserted then .ok () else .error .io)
        else pure (.error .io)
  else pure (.error .notReady)

def TMP112_CONF_SD : BitVec 16 := 0x0100#16

def tmp112Shutdown (d : Domain) (shutdown : Bool) : Layer Status := do
  if ← perform (Cmd.i2cReady d) then
    match ← perform (Cmd.confRead d) with
    | none => pure (.error .io)
    | some conf =>
        let conf := if shutdown then conf ||| TMP112_CONF_SD else conf &&& ~~~TMP112_CONF_SD
        if ← perform (Cmd.confWrite d conf) then pure (.ok ()) else pure (.error .io)
  else pure (.error .notReady)

def RV3028_REG_CONTROL_1 : UInt8 := 0x0F
def RV3028_REG_EE_CLKOUT : UInt8 := 0x35
def RV3028_CTRL1_EERD : UInt8 := 0x08
def RV3028_CLKOUT_FD_MASK : UInt8 := 0x07
def RV3028_CLKOUT_FD_LOW : UInt8 := 0x07

-- `i2c_reg_update_byte_dt`, which writes only what differs.
def rtcUpdate (reg mask value : UInt8) : Layer Bool := do
  match ← perform (Cmd.rtcRead reg) with
  | none => pure false
  | some old =>
      let new := (old &&& ~~~mask) ||| (value &&& mask)
      if new = old then pure true else perform (Cmd.rtcWrite reg new)

def rv3028Eerd (pause : Bool) : Layer Status := do
  if ← perform (Cmd.i2cReady .rtc) then
    let value := if pause then RV3028_CTRL1_EERD else 0
    if ← rtcUpdate RV3028_REG_CONTROL_1 RV3028_CTRL1_EERD value then pure (.ok ())
    else pure (.error .io)
  else pure (.error .notReady)

def rv3028ClkoutOff : Layer Status := do
  if ← perform (Cmd.i2cReady .rtc) then
    match ← perform (Cmd.rtcRead RV3028_REG_EE_CLKOUT) with
    | none => pure (.error .io)
    | some v =>
        let v := (v &&& ~~~RV3028_CLKOUT_FD_MASK) ||| RV3028_CLKOUT_FD_LOW
        if ← perform (Cmd.rtcWrite RV3028_REG_EE_CLKOUT v) then rv3028Eerd true
        else pure (.error .io)
  else pure (.error .notReady)

def rv3028EerdWasSet : Layer Bool := do
  if ← perform (Cmd.i2cReady .rtc) then
    match ← perform (Cmd.rtcRead RV3028_REG_CONTROL_1) with
    | none => pure false
    | some v => pure (v &&& RV3028_CTRL1_EERD != 0)
  else pure false

def rv3028ClkoutRestore (prior : Bool) : Layer Status := rv3028Eerd prior

variable (cfg : Config)

-- What `prior_active` falls through to: the saved bit of the RTC is whether EERD was set.
def priorElse (d : Domain) : Layer Bool := if d = .rtc then rv3028EerdWasSet else pure true

-- A read error counts as "was on".
def priorActive (d : Domain) : Layer Bool := do
  if (cfg.reg d).action = .enableLow then
    if ← perform (Cmd.ready d .enable) then
      match ← perform (Cmd.pinGet d .enable) with
      | none => pure true
      | some v => pure v
    else priorElse d
  else priorElse d

def pinQuiesce (d : Domain) (railOff : Bool) : Layer Status := do
  if !(cfg.reg d).present then pure (.error .notPresentOnThisSoc)
  else if railOff then
    match ← pinAssert d .reset true with
    | .error err => pure (.error err)
    | .ok () => pinAssert d .enable false
  else
    match (cfg.reg d).action with
    | .holdReset => pinAssert d .reset true
    | .powerdownPin => pinAssert d .powerdown true
    | .enableLow => pinAssert d .enable false
    | .shutdownReg => tmp112Shutdown d true
    | .keepAlive => if d = .rtc then rv3028ClkoutOff else pure (.ok ())
    | .deepPowerDownCmd => pure (.error .nosupport)

def RAIL_UP_MS : Nat := 20
def PHY_PWRUP_MS : Nat := 20
def PHY_RESET_MS : Nat := 10
def PHY_SETTLE_MS : Nat := 200
def PHY_SETTLE_EARLY : Nat := 20
def MEM_RESET_MS : Nat := 10
def WIFI_SETTLE_MS : Nat := 3500

-- The release of a reset line. Its top-up of a hold that was too short is left out, as is the
-- time at which the line was asserted.
def releaseReset (d : Domain) (early : Bool) : Layer Status := do
  match ← pinAssert d .reset false with
  | .error err => pure (.error err)
  | .ok () =>
      if d = .wifiBle then
        if !early then waitMs WIFI_SETTLE_MS false
      else waitMs MEM_RESET_MS early
      pure (.ok ())

-- The release of a power-down pin, and the reset pulse that follows where a reset pad is wired.
def releasePowerdown (d : Domain) (early : Bool) : Layer Status := do
  match ← pinAssert d .powerdown false with
  | .error err => pure (.error err)
  | .ok () =>
      waitMs PHY_PWRUP_MS early
      if (cfg.reg d).resetWired then
        match ← pinAssert d .reset true with
        | .error _ => pure ()
        | .ok () =>
            waitMs PHY_RESET_MS early
            let _ ← pinAssert d .reset false
      waitMs (if early then PHY_SETTLE_EARLY else PHY_SETTLE_MS) early
      pure (.ok ())

-- The action of a domain undone, its supply aside.
def releaseAction (d : Domain) (early prior : Bool) : Layer Status :=
  match (cfg.reg d).action with
  | .holdReset => releaseReset d early
  | .powerdownPin => releasePowerdown cfg d early
  | .enableLow => pinAssert d .enable true
  | .shutdownReg => tmp112Shutdown d false
  | .keepAlive => if d = .rtc then rv3028ClkoutRestore prior else pure (.ok ())
  | .deepPowerDownCmd => pure (.error .nosupport)

def pinRestore (d : Domain) (railOff early prior : Bool) : Layer Status := do
  if !(cfg.reg d).present then pure (.error .notPresentOnThisSoc)
  else if railOff then
    match ← pinAssert d .enable true with
    | .error err => pure (.error err)
    | .ok () =>
        waitMs RAIL_UP_MS early
        releaseAction cfg d early prior
  else releaseAction cfg d early prior

-- Hook dispatch.

def runQuiesce (d : Domain) (railOff : Bool) : Layer Status := do
  let ram ← get
  if (ram.hooks d).any Hooks.quiesce then perform (Cmd.hookQuiesce d railOff)
  else pinQuiesce cfg d railOff

def runRestore (d : Domain) (railOff early prior : Bool) : Layer Status := do
  note (.restoring d railOff prior)
  let ram ← get
  if (ram.hooks d).any Hooks.restore then perform (Cmd.hookRestore d railOff early)
  else if (cfg.reg d).action = .enableLow ∧ !prior then pure (.ok ())
  else pinRestore cfg d railOff early prior

def bind (d : Domain) (hooks : Hooks) : Layer Status := do
  let ram ← get
  if ram.state d = .quiesced then pure (.error .busy)
  else
    modify fun ram => { ram with hooks := Function.update ram.hooks d (some hooks) }
    pure (.ok ())

def unbind (d : Domain) : Layer Unit :=
  modify fun ram => { ram with hooks := Function.update ram.hooks d none }

-- Consumers first; a restore walks this backwards.
def order : List Domain :=
  [.wifiBle, .extFlash, .extRam, .tempSensor, .rtc, .backlight, .ethPhy]

def everyDomain : Mask := {.wifiBle, .ethPhy, .extFlash, .extRam, .tempSensor, .rtc, .backlight}

-- The domains whose action goes over I2C.
def I2C_DOMAINS : Mask := {.tempSensor, .rtc}

-- One domain of a restore: the masks of restored and failed domains so far, and after it.
def restoreOne (rec : Record) (only : Mask) (early : Bool) (d : Domain) (done : Mask × Mask) :
    Layer (Mask × Mask) := do
  if d ∈ rec.quiesced ∧ d ∈ only then
    match ← runRestore cfg d (d ∈ rec.railOff) early (d ∈ rec.priorActive) with
    | .ok () =>
        setState d .active
        pure (insert d done.1, done.2)
    | .error _ =>
        setState d .restoreFailed
        pure (done.1, insert d done.2)
  else pure done

def restoreFrom (rec : Record) (only : Mask) (early : Bool) :
    List Domain → Mask × Mask → Layer (Mask × Mask)
  | [], done => pure done
  | d :: rest, done => do
      let done ← restoreOne cfg rec only early d done
      restoreFrom rec only early rest done

-- The restored and the failed domains.
def restoreDomains (rec : Record) (only : Mask) (early : Bool) : Layer (Mask × Mask) :=
  restoreFrom cfg rec only early order.reverse (∅, ∅)

-- The seal of a record names the image that wrote it.
def storeSave (rec : Record) : Layer Record := do
  let stamped := { rec with imageId := cfg.imageId }
  perform (Cmd.storeSave stamped)
  pure stamped

-- A record into the store and into RAM.
def keep (rec : Record) : Layer Unit := do
  let saved ← storeSave cfg rec
  modify fun ram => { ram with ramRec := saved, ramRecValid := true }

def eligible (mode : Mode) (ram : Ram) (d : Domain) : Bool :=
  (cfg.reg d).present && ram.policy d != .keepAlive && (mode == .run || (cfg.reg d).modes mode)

def Record.take (rec : Record) (d : Domain) (rail prior : Bool) : Record :=
  { rec with
    quiesced := insert d rec.quiesced
    railOff := if rail then insert d rec.railOff else rec.railOff
    priorActive := if prior then insert d rec.priorActive else rec.priorActive }

-- One domain of a quiesce, which is recorded also where its action fails.
def quiesceOne (d : Domain) (rec : Record) : Layer (Status × Record) := do
  let ram ← get
  note (.taking d (ram.state d) (ram.policy d))
  let rail := ram.policy d == .railOff
  let prior ← priorActive cfg d
  note .asked
  let s ← runQuiesce cfg d rail
  setState d .quiesced
  pure (s, rec.take d rail prior)

def quiesceFrom (mode : Mode) : List Domain → Record → Layer (Status × Record)
  | [], rec => pure (.ok (), rec)
  | d :: rest, rec => do
      let ram ← get
      if !eligible cfg mode ram d then quiesceFrom mode rest rec
      else if ram.state d = .quiesced then pure (.error .busy, rec)
      else
        match ← quiesceOne cfg d rec with
        | (.error err, rec) => pure (.error err, rec)
        | (.ok (), rec) => quiesceFrom mode rest rec

-- The part of `alp_som_power_quiesce` under the lock: its status, and the domains whose
-- rollback failed.
def quiesceLocked (mode : Mode) : Layer (Status × Mask) := do
  match ← quiesceFrom cfg mode order .zero with
  | (.error err, rec) =>
      let (_, failed) ← restoreDomains cfg rec everyDomain false
      if failed ≠ ∅ then keep cfg { rec with quiesced := failed, mode := .run }
      pure (.error err, failed)
  | (.ok (), rec) =>
      if rec.quiesced ≠ ∅ then keep cfg { rec with mode := mode }
      pure (.ok (), ∅)

def quiesce (mode : Mode) : Layer (Status × Mask) :=
  match mode with
  | .sleep | .deepSleep => pure (.ok (), ∅)
  | .other => pure (.error .inval, ∅)
  | .run | .stop | .standby => quiesceLocked cfg mode

-- The record the next restore uses: the valid one of the store, else the copy in RAM.
def usableRecord : Layer (Option Record) := do
  let (rec, valid) ← perform Cmd.storeLoad
  let ram ← get
  pure (if valid then some rec else if ram.ramRecValid then some ram.ramRec else none)

-- The status, and the failed domains where they are reported.
def restore : Layer (Status × Option Mask) := do
  match ← usableRecord with
  | none => pure (.error .notReady, none)
  | some rec =>
      modify fun ram => { ram with ramRecValid := false }
      let (_, failed) ← restoreDomains cfg rec everyDomain false
      perform Cmd.storeClear
      if failed ≠ ∅ then
        keep cfg { Record.zero with
          quiesced := failed, railOff := rec.railOff ∩ failed, priorActive := rec.priorActive ∩ failed }
      pure (if failed = ∅ then .ok () else .error .io, some failed)

def cycleRun (holdMs : Nat) : Layer (Status × Option Mask) := do
  let (s, failed) ← quiesce cfg .run
  let ram ← get
  if s ≠ .ok () ∨ ∀ d ∈ order, ram.state d ≠ .quiesced then pure (s, some failed)
  else
    waitMs holdMs false
    restore cfg

-- The cold boot.

-- STOP_MODE_STAT says that this boot is a STOP wake.
def stopModeStatSet : Layer Bool := do
  if cfg.stopMode then
    let ram ← get
    let stat ← perform Cmd.stopModeRead
    pure (!ram.ignoreStat && stat)
  else pure false

def stopModeStatAgrees : Layer Bool :=
  if cfg.stopMode then stopModeStatSet cfg else pure true

def presentDomains : Mask := everyDomain.filter fun d => (cfg.reg d).present

def blindRecord : Record := { Record.zero with mode := .stop, quiesced := presentDomains cfg }

def markQuiesced (mask : Mask) : Layer Unit :=
  modify fun ram => { ram with state := fun d => if d ∈ mask then .quiesced else ram.state d }

-- The restored, the failed and the named domains.
def blindRestore : Layer (Mask × Mask × Mask) := do
  let record := blindRecord cfg
  markQuiesced record.quiesced
  let (restored, failed) ← restoreDomains cfg record (everyDomain \ I2C_DOMAINS) true
  pure (restored, failed, record.quiesced)

def RESET_NSRST : BitVec 32 := 1#32
def RESET_PD_REQUEST : BitVec 32 := 4#32
def REC_NSRST_TRUSTED : BitVec 32 := 0x100#32

-- A boot without a usable record.
def bootWithoutRecord (coreOff : Bool) : Layer Unit := do
  let stat ← stopModeStatSet cfg
  if stat || coreOff then
    let (restored, failed, named) ← blindRestore cfg
    modify fun ram => { ram with
      bootRec := { Record.zero with mode := .stop }
      boot := { ram.boot with
        valid := true
        mode := if ram.bootExternal then .run else .stop
        quiesced := named
        restored := restored
        failed := failed } }
  perform Cmd.storeClear

-- The report of the first pass.
def captureBoot (rec decoded : Record) (restored failed : Mask) (ram : Ram) : Ram :=
  let external := ram.bootExternal && rec.mode != .run
  { ram with
    bootRec := decoded
    boot := {
      valid := true
      mode := if external then .run else decoded.mode
      wakeSource := if external then 0 else decoded.wakeSource
      sleptMs := if external then 0 else decoded.sleptMs
      quiesced := rec.quiesced
      restored := restored
      failed := failed } }

-- A boot with an accepted record.
def bootFromRecord (rec : Record) (syndrome : BitVec 32) (coreOff : Bool) : Layer Unit := do
  markQuiesced rec.quiesced
  let (restored, failed) ← restoreDomains cfg rec (everyDomain \ I2C_DOMAINS) true
  let nsrst := syndrome &&& RESET_NSRST != 0
  let external := nsrst && rec.armedHw &&& REC_NSRST_TRUSTED != 0
  let stat ← stopModeStatSet cfg
  let coreOffOnly := coreOff && !stat
  modify fun ram => { ram with
    bootExternal := external || (coreOffOnly && syndrome &&& RESET_PD_REQUEST != 0)
    bootCoreOffOnly := coreOffOnly }
  let decoded ← perform (Cmd.wakeDecodeEarly rec)
  modify (captureBoot rec decoded restored failed)
  perform Cmd.storeClear

-- The first pass. The bench build, where another image's counter counts as a witness too, is
-- left out.
def bootRestore : Layer Unit := do
  modify fun ram => { ram with boot := .zero }
  let syndrome ← perform Cmd.syndromeTake
  let coreOff ← perform Cmd.coreOffTake
  modify fun ram => { ram with bootExternal := false, ignoreStat := false, bootSuppressed := false }
  let (rec, valid) ← perform Cmd.storeLoad
  if !valid then bootWithoutRecord cfg coreOff
  else
    let foreign := rec.imageId != cfg.imageId
    if foreign then modify fun ram => { ram with ignoreStat := true, bootSuppressed := true }
    let agrees ← stopModeStatAgrees cfg
    if !foreign && rec.mode == .stop && !coreOff && !agrees then perform Cmd.storeClear
    else bootFromRecord cfg rec syndrome coreOff

-- The second pass, once the I2C controller is up.
def bootRestoreI2c : Layer Unit := do
  let ram ← get
  if ram.boot.valid then
    let record := { Record.zero with quiesced := ram.boot.quiesced ∩ I2C_DOMAINS }
    let (restored, failed) ← restoreDomains cfg record I2C_DOMAINS true
    modify fun ram => { ram with boot := { ram.boot with
      restored := ram.boot.restored ∪ restored
      failed := ram.boot.failed ∪ failed } }
    let ram ← get
    let (trusted, decoded) ← perform (Cmd.wakeDecodeI2c ram.bootRec)
    if trusted then
      modify fun ram => { ram with
        bootRec := decoded
        boot := if !ram.bootExternal || decoded.mode == .run then
            { ram.boot with wakeSource := decoded.wakeSource, sleptMs := decoded.sleptMs }
          else ram.boot }
    else modify fun ram => { ram with bootRec := decoded, boot := .zero }
    modify fun ram => { ram with
      boot := if ram.boot.valid && ram.bootCoreOffOnly && ram.boot.wakeSource == 0 then
          { ram.boot with mode := .run, sleptMs := 0 }
        else ram.boot }
  let _ ← perform Cmd.stopModeStatClear

-- The policy operation.

def railOffAvailable (d : Domain) : Bool :=
  cfg.wifiRailOff && d == .wifiBle && (cfg.reg d).railOffOptIn && (cfg.reg d).enableWired

def policySet (d : Domain) (policy : Policy) : Layer Status := do
  if !(cfg.reg d).present then pure (.error .notPresentOnThisSoc)
  else if policy == .railOff && !railOffAvailable cfg d then pure (.error .nosupport)
  else
    let ram ← get
    if ram.state d = .quiesced then pure (.error .busy)
    else
      modify fun ram => { ram with policy := Function.update ram.policy d policy }
      pure (.ok ())

-- The domains of the E1M-AEN803 tree, each with an action in STOP and STANDBY.
def aen803Entry (action : Action) (resetWired enableWired railOffOptIn : Bool) : Entry where
  present := true
  action := action
  modes := fun mode => mode == .stop || mode == .standby
  resetWired := resetWired
  enableWired := enableWired
  railOffOptIn := railOffOptIn

def e1mAen803 : Config where
  reg
    | .wifiBle => aen803Entry .holdReset true true true
    | .ethPhy => aen803Entry .powerdownPin true false false
    | .extFlash | .extRam => aen803Entry .holdReset true false false
    | .tempSensor => aen803Entry .shutdownReg false false false
    | .rtc => aen803Entry .keepAlive false false false
    | .backlight => aen803Entry .enableLow false true false
  stopMode := true
  wifiRailOff := false
  imageId := 1

end AlpSdk.SomPower
