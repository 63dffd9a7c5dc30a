import AlpSdk.Rv3028c7

-- The part at the other end of the bus.
namespace AlpSdk.Rv3028c7

open Library.Fallible
open Library.Effect (Env Prog)

-- What the EEPROM may be busy with.
inductive Access where
  | store (addr data : Byte)
  | load (addr : Byte)
  deriving DecidableEq

-- The part at the moment a write command is put on the bus.
structure Commit where
  busy : Bool
  eerd : Byte
  held : Byte
  data : Byte
  deriving DecidableEq

-- The registers (the mirror among them), the EEPROM and its access in flight. The write commands put
-- on the bus are recorded, and whether a transfer to CONTROL_1 has failed.
structure Part where
  regs : Byte → Byte
  eeprom : Byte → Byte
  busy : Option Access
  commits : List Commit
  dropped : Bool

namespace Part

def setReg (p : Part) (reg value : Byte) : Part := { p with regs := Function.update p.regs reg value }

@[simp] theorem setReg_self (p : Part) (reg value : Byte) : (p.setReg reg value).regs reg = value :=
  Function.update_self ..

theorem setReg_of_ne {reg reg' : Byte} (h : reg' ≠ reg) (p : Part) (value : Byte) :
    (p.setReg reg value).regs reg' = p.regs reg' :=
  Function.update_of_ne h _ _

-- The access in flight comes to its end.
def finish (p : Part) : Part :=
  match p.busy with
  | none => p
  | some (.store addr data) => { p with eeprom := Function.update p.eeprom addr data, busy := none }
  | some (.load addr) => { p with regs := Function.update p.regs REG_EE_DATA (p.eeprom addr), busy := none }

-- EEbusy may stay set for any time.
def Settles (p q : Part) : Prop := q = p ∨ q = p.finish

def value (p : Part) (reg : Byte) : Byte :=
  if reg = REG_STATUS then
    (p.regs REG_STATUS &&& STATUS_FLAGS) ||| (if p.busy.isSome then STATUS_EEBUSY else 0)
  else p.regs reg

-- A busy EEPROM ignores commands.
def command (p : Part) (cmd : Byte) : Part :=
  if p.busy.isSome then p
  else if cmd = EE_CMD_WRITE then { p with busy := some (.store (p.regs REG_EE_ADDR) (p.regs REG_EE_DATA)) }
  else if cmd = EE_CMD_READ then { p with busy := some (.load (p.regs REG_EE_ADDR)) }
  else p

def writtenByte (p : Part) (reg value : Byte) : Part :=
  if reg = REG_EE_CMD then p.command value
  else if reg = REG_STATUS then p.setReg REG_STATUS (p.regs REG_STATUS &&& value)
  else p.setReg reg value

-- The register address moves on with every byte.
def written (p : Part) (reg : Byte) : List Byte → Part
  | [] => p
  | v :: rest => (p.writtenByte reg v).written (reg + 1) rest

def commit (p : Part) : Commit where
  busy := p.busy.isSome
  eerd := p.regs REG_CONTROL_1 &&& CTRL1_EERD
  held := p.eeprom (p.regs REG_EE_ADDR)
  data := p.regs REG_EE_DATA

def noting (p : Part) (reg : Byte) (data : List Byte) : Part :=
  if reg = REG_EE_CMD ∧ data = [EE_CMD_WRITE] then { p with commits := p.commit :: p.commits } else p

def failed (p : Part) (reg : Byte) : Part := { p with dropped := p.dropped || decide (reg = REG_CONTROL_1) }

-- A read that fails has no result; of a write that fails any part may have reached the registers.
def Allows (p : Part) : (cmd : Cmd) → signature.Reply cmd → Part → Prop
  | .read reg, reply, p' => p' = p ∧ (reply = .ok (p.value reg) ∨ ∃ err, reply = .error err)
  | .write reg data, reply, p' =>
      (reply = .ok () ∧ p' = (p.noting reg data).written reg data)
        ∨ ∃ err k, reply = .error err ∧ p' = ((p.noting reg data).written reg (data.take k)).failed reg
  | .delay _, _, p' => p' = p

end Part

-- Before every transfer the access in flight may have ended.
def part : Env signature Part := fun p cmd reply p' => ∃ q, p.Settles q ∧ q.Allows cmd reply p'

section Finish

variable {p q : Part}

@[simp] theorem finish_idle (h : p.busy = none) : p.finish = p := by simp [Part.finish, h]

theorem finish_busy (p : Part) : p.finish.busy = none := by
  unfold Part.finish
  split
  · assumption
  · rfl
  · rfl

theorem finish_regs {reg : Byte} (h : reg ≠ REG_EE_DATA) (p : Part) : p.finish.regs reg = p.regs reg := by
  unfold Part.finish
  split
  · rfl
  · rfl
  · exact Function.update_of_ne h _ _

theorem finish_commits (p : Part) : p.finish.commits = p.commits := by
  unfold Part.finish
  split <;> rfl

theorem finish_dropped (p : Part) : p.finish.dropped = p.dropped := by
  unfold Part.finish
  split <;> rfl

theorem Part.Settles.finish (h : p.Settles q) : q.finish = p.finish := by
  rcases h with rfl | rfl
  · rfl
  · exact finish_idle (finish_busy p)

theorem Part.Settles.idle (h : p.Settles q) (hidle : p.busy = none) : q = p := by
  rcases h with rfl | rfl
  · rfl
  · exact finish_idle hidle

theorem settles_regs {reg : Byte} (hreg : reg ≠ REG_EE_DATA) (h : p.Settles q) : q.regs reg = p.regs reg := by
  rcases h with rfl | rfl
  · rfl
  · exact finish_regs hreg p

end Finish

section Rules

-- Where nothing is to be said about errors beyond the invariant.
def anyError : AlpError → Part → Prop := fun _ _ => True

variable {J : Part → Prop} {E : AlpError → Part → Prop} {p : Part}

theorem wp_readReg {reg : Byte} {Q : Byte → Part → Prop} (hJ : J p)
    (h : ∀ q, p.Settles q → J q ∧ Q (q.value reg) q ∧ ∀ err, E err q) : wp part J (readReg reg) E Q p := by
  refine ⟨hJ, ?_⟩
  rintro reply p' ⟨q, hsettles, rfl, hreply⟩
  obtain ⟨hJq, hvalue, herr⟩ := h _ hsettles
  rcases hreply with rfl | ⟨err, rfl⟩
  · exact ⟨hJq, hvalue⟩
  · exact ⟨hJq, herr err⟩

theorem wp_write {reg : Byte} {data : List Byte} {Q : Unit → Part → Prop} (hlen : data.length < 16) (hJ : J p)
    (h : ∀ q, p.Settles q → (J ((q.noting reg data).written reg data) ∧ Q () ((q.noting reg data).written reg data)) ∧
      ∀ err k, J (((q.noting reg data).written reg (data.take k)).failed reg) ∧
        E err (((q.noting reg data).written reg (data.take k)).failed reg)) :
    wp part J (write reg data) E Q p := by
  have hperform : write reg data = Prog.perform (σ := signature) (.write reg data) := if_neg (by omega)
  rw [hperform]
  refine ⟨hJ, ?_⟩
  rintro reply p' ⟨q, hsettles, ⟨rfl, rfl⟩ | ⟨err, k, rfl, rfl⟩⟩
  · exact (h q hsettles).1
  · exact (h q hsettles).2 err k

theorem wp_writeReg {reg v : Byte} {Q : Unit → Part → Prop} (hJ : J p)
    (h : ∀ q, p.Settles q →
      (J ((q.noting reg [v]).writtenByte reg v) ∧ Q () ((q.noting reg [v]).writtenByte reg v)) ∧
      (∀ err, J ((q.noting reg [v]).failed reg) ∧ E err ((q.noting reg [v]).failed reg)) ∧
      ∀ err, J (((q.noting reg [v]).writtenByte reg v).failed reg) ∧
        E err (((q.noting reg [v]).writtenByte reg v).failed reg)) :
    wp part J (writeReg reg v) E Q p := by
  refine wp_write (by simp) hJ fun q hsettles => ?_
  obtain ⟨hok, hnone, hall⟩ := h q hsettles
  refine ⟨hok, fun err k => ?_⟩
  cases k with
  | zero => exact hnone err
  | succ k =>
      rw [List.take_of_length_le (by simp)]
      exact hall err

theorem wp_delayMs {ms : Nat} {Q : Unit → Part → Prop} (hJ : J p) (h : ∀ q, p.Settles q → J q ∧ Q () q) :
    wp part J (delayMs ms) E Q p := by
  refine ⟨hJ, ?_⟩
  rintro reply p' ⟨q, hsettles, rfl⟩
  exact h _ hsettles

end Rules

end AlpSdk.Rv3028c7
