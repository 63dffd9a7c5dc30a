import AlpSdk.Library.Bytes
import AlpSdk.Library.Effect
import AlpSdk.Status

-- The 128-Kbit EEPROM (chips/eeprom_24c128/eeprom_24c128.c).
namespace AlpSdk.Eeprom24c128

open Library.Effect Library.Bytes

def EEPROM_24C128_BYTES : Nat := 16 * 1024
def EEPROM_24C128_PAGE_BYTES : Nat := 64
def EEPROM_24C128_ALT_ADDR_OFFSET : UInt8 := 0x08
def EEPROM_24C128_SECURE_PAGE_BYTES : Nat := 64
def EEPROM_24C128_UNIQUE_ID_BYTES : Nat := 16
def EEPROM_WRITE_POLL_MAX : Nat := 20
def EEPROM_WRITE_POLL_STEP_US : Nat := 1000
def EEPROM_LOCK_WAIT_MS : Nat := 20

def EEPROM_IDENTITY_SEL_SECURE_PAGE : UInt8 := 0x00
def EEPROM_IDENTITY_SEL_UNIQUE_ID : UInt8 := 0x02
def EEPROM_IDENTITY_SEL_LOCK_STATUS : UInt8 := 0x04
def EEPROM_IDENTITY_SEL_DEVICE_CONFIG : UInt8 := 0x06

inductive Cmd where
  | i2cWrite (addr : UInt8) (bytes : List UInt8)
  | i2cWriteRead (addr : UInt8) (bytes : List UInt8) (len : Nat)
  | delayUs (us : Nat)
  | delayMs (ms : Nat)

abbrev bus : Signature where
  Cmd := Cmd
  Reply
    | .i2cWrite _ _ => Status
    | .i2cWriteRead _ _ _ => Except AlpError (List UInt8)
    | .delayUs _ | .delayMs _ => Unit

abbrev Driver (α : Type) : Type := Prog bus α

def alpI2cWrite (addr : UInt8) (bytes : List UInt8) : Driver Status := .call (.i2cWrite addr bytes) .ret

def alpI2cWriteRead (addr : UInt8) (bytes : List UInt8) (len : Nat) : Driver
    (Except AlpError (List UInt8)) :=
  .call (.i2cWriteRead addr bytes len) .ret

def alpDelayUs (us : Nat) : Driver Unit := .call (.delayUs us) .ret

def alpDelayMs (ms : Nat) : Driver Unit := .call (.delayMs ms) .ret

-- `eeprom_24c128_t`. The bus handle is set where `initialised` is.
structure Ctx where
  initialised : Bool
  addr : UInt8

def pollForAckAt (addr : UInt8) : Nat → Driver Status
  | 0 => pure (.error .timeout)
  | tries + 1 => do
      match ← alpI2cWrite addr [0, 0] with
      | .ok () => pure (.ok ())
      | .error _ =>
          alpDelayUs EEPROM_WRITE_POLL_STEP_US
          pollForAckAt addr tries

def init (ctx : Ctx) (addr : UInt8) : Driver (Status × Ctx) := do
  if addr < 0x50 ∨ 0x57 < addr then pure (.error .inval, ctx)
  else
    match ← alpI2cWriteRead addr [0, 0] 1 with
    | .error _ => pure (.error .notReady, ⟨false, addr⟩)
    | .ok _ => pure (.ok (), ⟨true, addr⟩)

def alpSizeRangeValid (offset len capacity : Nat) : Bool := offset ≤ capacity && len ≤ capacity - offset

-- The two bytes of a memory pointer.
def pointer (offset : Nat) : List UInt8 := [UInt8.ofNat (offset / 256), UInt8.ofNat offset]

def read (ctx : Ctx) (offset : UInt16) (len : Nat) : Driver (Except AlpError (List UInt8)) := do
  if !ctx.initialised then pure (.error .notReady)
  else if !alpSizeRangeValid offset.toNat len EEPROM_24C128_BYTES then pure (.error .outOfRange)
  else if len = 0 then pure (.ok [])
  else alpI2cWriteRead ctx.addr (pointer offset.toNat) len

-- The fields whose `valid` flag is set.
structure Identity where
  securePage : Option (List UInt8)
  uniqueId : Option (List UInt8)
  lockStatus : Option (List UInt8)
  deviceConfig : Option (List UInt8)

def Identity.securePageLocked (identity : Identity) : Bool :=
  identity.lockStatus.any fun status => status.getD 0 0 &&& 0x02 != 0

def readObject (addr sel : UInt8) (len : Nat) : Driver (Option (List UInt8)) := do
  let reply ← alpI2cWriteRead addr [sel, 0x00] len
  pure reply.toOption

def readIdentity (ctx : Ctx) : Driver (Except AlpError Identity) := do
  if !ctx.initialised then pure (.error .notReady)
  else
    let altAddr := ctx.addr + EEPROM_24C128_ALT_ADDR_OFFSET
    let securePage ← readObject altAddr EEPROM_IDENTITY_SEL_SECURE_PAGE EEPROM_24C128_SECURE_PAGE_BYTES
    let uniqueId ← readObject altAddr EEPROM_IDENTITY_SEL_UNIQUE_ID EEPROM_24C128_UNIQUE_ID_BYTES
    let lockStatus ← readObject altAddr EEPROM_IDENTITY_SEL_LOCK_STATUS 1
    let deviceConfig ← readObject altAddr EEPROM_IDENTITY_SEL_DEVICE_CONFIG 1
    pure (.ok ⟨securePage, uniqueId, lockStatus, deviceConfig⟩)

-- The loop of `eeprom_24c128_write`. `offset` is a uint16_t.
def writePages (addr : UInt8) (offset : Nat) (data : List UInt8) : Driver Status := do
  if h : 0 < data.length then
    let chunk := min data.length (EEPROM_24C128_PAGE_BYTES - offset % EEPROM_24C128_PAGE_BYTES)
    match ← alpI2cWrite addr (pointer offset ++ data.take chunk) with
    | .error err => pure (.error err)
    | .ok () =>
        match ← pollForAckAt addr EEPROM_WRITE_POLL_MAX with
        | .error err => pure (.error err)
        | .ok () => writePages addr ((offset + chunk) % 2 ^ 16) (data.drop chunk)
  else pure (.ok ())
termination_by data.length
decreasing_by
  have hroom : 0 < EEPROM_24C128_PAGE_BYTES - offset % EEPROM_24C128_PAGE_BYTES :=
    Nat.sub_pos_of_lt (Nat.mod_lt _ (by decide))
  simp only [List.length_drop]
  omega

def write (ctx : Ctx) (offset : UInt16) (data : List UInt8) : Driver Status := do
  if !ctx.initialised then pure (.error .notReady)
  else if !alpSizeRangeValid offset.toNat data.length EEPROM_24C128_BYTES then pure (.error .outOfRange)
  else writePages ctx.addr offset.toNat data

def securePageWrite (ctx : Ctx) (data : List UInt8) : Driver Status := do
  if !ctx.initialised then pure (.error .notReady)
  else if data.length ≠ EEPROM_24C128_SECURE_PAGE_BYTES then pure (.error .inval)
  else
    let altAddr := ctx.addr + EEPROM_24C128_ALT_ADDR_OFFSET
    match ← alpI2cWrite altAddr (EEPROM_IDENTITY_SEL_SECURE_PAGE :: 0x00 :: data) with
    | .error err => pure (.error err)
    | .ok () => pollForAckAt altAddr EEPROM_WRITE_POLL_MAX

def securePageLock (ctx : Ctx) : Driver Status := do
  if !ctx.initialised then pure (.error .notReady)
  else
    let altAddr := ctx.addr + EEPROM_24C128_ALT_ADDR_OFFSET
    match ← alpI2cWrite altAddr [EEPROM_IDENTITY_SEL_LOCK_STATUS, 0x00, 0xFF] with
    | .error err => pure (.error err)
    | .ok () =>
        alpDelayMs EEPROM_LOCK_WAIT_MS
        match ← alpI2cWriteRead altAddr [EEPROM_IDENTITY_SEL_LOCK_STATUS, 0x00] 1 with
        | .error err => pure (.error err)
        | .ok status => pure (if status.getD 0 0 &&& 0x02 = 0 then .error .io else .ok ())

def deinit (ctx : Ctx) : Ctx := { ctx with initialised := false }

-- The part at the other end of the bus. `busy` is its write cycle.
structure Part where
  array : Nat → UInt8
  secure : Nat → UInt8
  uniqueId : Nat → UInt8
  locked : Bool
  config : UInt8
  busy : Bool

-- The bytes of a page write, whose address counter turns around at the end of the page.
def pageProgram : Nat → List UInt8 → (Nat → UInt8) → Nat → UInt8
  | _, [], mem => mem
  | a, byte :: rest, mem =>
      let page := a / EEPROM_24C128_PAGE_BYTES * EEPROM_24C128_PAGE_BYTES
      pageProgram (page + (a + 1) % EEPROM_24C128_PAGE_BYTES) rest (Function.update mem a byte)

namespace Part

-- Two device-select headers: the array's, and the one behind which the first pointer byte selects
-- an object.
def program (own addr hi lo : UInt8) (data : List UInt8) (p : Part) : Part :=
  if addr = own then
    { p with array := pageProgram ((hi.toNat * 256 + lo.toNat) % EEPROM_24C128_BYTES) data p.array }
  else if addr = own + EEPROM_24C128_ALT_ADDR_OFFSET then
    if hi &&& 0x06 = EEPROM_IDENTITY_SEL_SECURE_PAGE then
      { p with secure := pageProgram (lo.toNat % EEPROM_24C128_SECURE_PAGE_BYTES) data p.secure }
    else if hi &&& 0x06 = EEPROM_IDENTITY_SEL_LOCK_STATUS then
      { p with locked := p.locked || data.any fun byte => byte &&& 0x02 != 0 }
    else if hi &&& 0x06 = EEPROM_IDENTITY_SEL_DEVICE_CONFIG then { p with config := data.getLastD p.config }
    else p
  else p

-- No frame is taken in a write cycle, and no data for a locked page.
def Refuses (own addr hi : UInt8) (data : List UInt8) (p : Part) : Prop :=
  p.busy = true ∨
    addr = own + EEPROM_24C128_ALT_ADDR_OFFSET ∧ hi &&& 0x06 = EEPROM_IDENTITY_SEL_SECURE_PAGE ∧
      p.locked = true ∧ data ≠ []

-- Sequential reads turn around at the end of the array.
def readout (own addr hi lo : UInt8) (len : Nat) (p : Part) : List UInt8 :=
  if addr = own then
    (List.range len).map fun i => p.array ((hi.toNat * 256 + lo.toNat + i) % EEPROM_24C128_BYTES)
  else if hi &&& 0x06 = EEPROM_IDENTITY_SEL_SECURE_PAGE then
    (List.range len).map fun i => p.secure ((lo.toNat + i) % EEPROM_24C128_SECURE_PAGE_BYTES)
  else if hi &&& 0x06 = EEPROM_IDENTITY_SEL_UNIQUE_ID then
    (List.range len).map fun i => p.uniqueId ((lo.toNat + i) % EEPROM_24C128_UNIQUE_ID_BYTES)
  else if hi &&& 0x06 = EEPROM_IDENTITY_SEL_LOCK_STATUS then
    List.replicate len (if p.locked then 0xFF else 0xFD)
  else List.replicate len p.config

-- A write cycle may end at any time.
def Settles (p p' : Part) : Prop := ∃ busy, p' = { p with busy := busy } ∧ (busy = true → p.busy = true)

end Part

-- A transfer may fail on the host's side whatever the part made of it: a frame that is cut short
-- programs the bytes that were through.
def onBus (own : UInt8) : Env bus Part
  | p, .i2cWrite addr bytes, status, p' =>
      (status ≠ .ok () ∧ p.Settles p') ∨
        ∃ hi lo data taken busy, bytes = hi :: lo :: data ∧ ¬ p.Refuses own addr hi data ∧
          taken ≤ data.length ∧ (status = .ok () → taken = data.length) ∧
          p' = { p.program own addr hi lo (data.take taken) with busy := busy }
  | p, .i2cWriteRead addr bytes len, reply, p' =>
      p.Settles p' ∧ ∀ out, reply = .ok out →
        ∃ hi lo, bytes = [hi, lo] ∧ p.busy = false ∧ out = p.readout own addr hi lo len
  | p, .delayUs _, _, p' | p, .delayMs _, _, p' => p.Settles p'

inductive Call where
  | init
  | read (offset : UInt16) (len : Nat)
  | readIdentity
  | write (offset : UInt16) (data : List UInt8)
  | securePageWrite (data : List UInt8)
  | securePageLock
  | deinit

inductive Outcome where
  | status (s : Status)
  | bytes (out : Except AlpError (List UInt8))
  | identity (out : Except AlpError Identity)

-- The part answers at the address `own`.
def Call.program (own : UInt8) (ctx : Ctx) : Call → Driver (Outcome × Ctx)
  | .init => do
      let (s, ctx) ← Eeprom24c128.init ctx own
      pure (.status s, ctx)
  | .read offset len => do
      let out ← Eeprom24c128.read ctx offset len
      pure (.bytes out, ctx)
  | .readIdentity => do
      let out ← Eeprom24c128.readIdentity ctx
      pure (.identity out, ctx)
  | .write offset data => do
      let s ← Eeprom24c128.write ctx offset data
      pure (.status s, ctx)
  | .securePageWrite data => do
      let s ← Eeprom24c128.securePageWrite ctx data
      pure (.status s, ctx)
  | .securePageLock => do
      let s ← Eeprom24c128.securePageLock ctx
      pure (.status s, ctx)
  | .deinit => pure (.status (.ok ()), Eeprom24c128.deinit ctx)

-- One call after another, with what each returned. A call may be cut at any point, by a reset of
-- the host after which the context is no longer initialised.
inductive Calls (own : UInt8) : Ctx → Part → List (Call × Option Outcome) → Ctx → Part → Prop where
  | start (ctx : Ctx) (p : Part) : Calls own ctx p [] ctx p
  | returned {ctx ctx' ctx'' : Ctx} {p p' p'' : Part} {calls : List (Call × Option Outcome)} {out : Outcome}
      (hbefore : Calls own ctx p calls ctx' p') (call : Call)
      (hcall : Exec (onBus own) p' (call.program own ctx') (some (out, ctx'')) p'') :
      Calls own ctx p (calls ++ [(call, some out)]) ctx'' p''
  | cut {ctx ctx' : Ctx} {p p' p'' : Part} {calls : List (Call × Option Outcome)}
      (hbefore : Calls own ctx p calls ctx' p') (call : Call)
      (hcall : Exec (onBus own) p' (call.program own ctx') none p'') :
      Calls own ctx p (calls ++ [(call, none)]) ⟨false, ctx'.addr⟩ p''

end AlpSdk.Eeprom24c128
