import AlpSdk.Library.Threads
import AlpSdk.SlotClaim
import AlpSdk.Status

namespace AlpSdk.Uart

open Library.Transition Library.Threads
open AlpSdk.SlotClaim

-- `struct alp_uart_ops`: which of the entries the backend has. `alp_uart_open` refuses a
-- backend without `open` before it claims a slot.
structure UartOps where
  write : Bool
  read : Bool

-- `struct alp_uart`, one slot of `_pool`.
structure Slot where
  ops : Option UartOps
  lifecycle : Lifecycle
  activeOps : Nat
  inUse : Bool

inductive Op where
  | write (dataNull : Bool) (len : Nat)
  | read (dataNull : Bool) (len : Nat)

-- The code of an operation between its op_enter and its op_leave. `rc` is what the backend's
-- entry returns; none where `state.ops` is read while it is NULL.
def transfer (entry : UartOps → Bool) (ops : Option UartOps) (dataNull : Bool) (len : Nat)
    (rc : Status) : Option Status :=
  if dataNull ∧ 0 < len then some (.error .inval)
  else if len = 0 then some (.ok ())
  else ops.map fun vtable => if entry vtable then rc else .error .nosupport

def alpUartWrite : Option UartOps → Bool → Nat → Status → Option Status := transfer UartOps.write
def alpUartRead : Option UartOps → Bool → Nat → Status → Option Status := transfer UartOps.read

def Op.status (ops : Option UartOps) (rc : Status) : Op → Option Status
  | .write dataNull len => alpUartWrite ops dataNull len rc
  | .read dataNull len => alpUartRead ops dataNull len rc

-- Where a thread stands between two atomic accesses.
inductive Phase where
  -- outside the calls on this slot; `rc` is what the last one returned
  | idle (rc : Option Status)
  -- `alp_uart_open`: the slot is claimed, zeroed, has its `ops`, is open in the backend
  | claimed
  | cleared
  | opening
  | publishing
  -- `alp_uart_write` and `alp_uart_read`: called, counted, refused, admitted, done
  | called (op : Op)
  | counted (op : Op)
  | refused
  | running (op : Op)
  | leaving (rc : Status)
  -- `alp_uart_close` after its CAS
  | draining
  | tearingDown
  | unopening
  | releasing (rc : Option Status)

inductive Action where
  | claim
  | clear
  | setOps
  | openDone (rc : Status)
  | publish
  | call (op : Op)
  | fetchAdd
  | loadLifecycle
  | backOut
  | finish (rc : Status)
  | leave
  | close
  | drain
  | teardown
  | unopen
  | release

-- The atomic accesses of `alp_uart_open`, `_write`, `_read` and `_close` to the slot, with
-- `vtable` the ops of the selected backend.
def prog (vtable : UartOps) : Action → Slot → Phase → Option (Slot × Phase)
  -- `_alloc`; a claim that is lost goes on to the other slots
  | .claim, h, .idle _ =>
      if h.inUse then some (h, .idle none) else some ({ h with inUse := true }, .claimed)
  | .clear, h, .claimed =>
      some ({ h with ops := none, lifecycle := .unopened, activeOps := 0 }, .cleared)
  | .setOps, h, .cleared => some ({ h with ops := some vtable }, .opening)
  | .openDone (.ok ()), h, .opening => some (h, .publishing)
  | .openDone (.error rc), h, .opening => some (h, .releasing (some (.error rc)))
  | .publish, h, .publishing => some ({ h with lifecycle := .opened }, .idle (some (.ok ())))
  | .call op, h, .idle _ => some (h, .called op)
  -- `alp_handle_op_enter`
  | .fetchAdd, h, .called op => some ({ h with activeOps := fetchAdd h.activeOps }, .counted op)
  | .loadLifecycle, h, .counted op =>
      some (h, if h.lifecycle = .opened then .running op else .refused)
  | .backOut, h, .refused =>
      some ({ h with activeOps := fetchSub h.activeOps }, .idle (some (.error .notReady)))
  | .finish rc, h, .running op => (op.status h.ops rc).map fun rc' => (h, .leaving rc')
  -- `alp_handle_op_leave`
  | .leave, h, .leaving rc => some ({ h with activeOps := fetchSub h.activeOps }, .idle (some rc))
  -- `alp_handle_begin_close_blocking`
  | .close, h, .idle _ =>
      if h.lifecycle = .opened then some ({ h with lifecycle := .closing }, .draining)
      else some (h, .idle none)
  | .drain, h, .draining => some (h, if h.activeOps = 0 then .tearingDown else .draining)
  -- the backend's `close`, where it has one, leaves the words of the slot alone
  | .teardown, h, .tearingDown => some (h, .unopening)
  | .unopen, h, .unopening => some ({ h with lifecycle := .unopened }, .releasing none)
  | .release, h, .releasing rc => some ({ h with inUse := false }, .idle rc)
  | _, _, _ => none

abbrev State (T : Type) : Type := World T Slot Phase

variable {T : Type} [DecidableEq T]

def uartStep (vtable : UartOps) : T × Action → State T → Option (State T) :=
  step fun _ => prog vtable

-- The pool at boot, and no call under way.
structure Initial (w : State T) : Prop where
  slot : w.mem = { ops := none, lifecycle := .unopened, activeOps := 0, inUse := false }
  idle : ∀ t, w.phase t = .idle none

-- The thread has incremented `active_ops` and not decremented it yet.
def Phase.holds : Phase → Nat
  | .counted _ => 1
  | .refused => 1
  | .running _ => 1
  | .leaving _ => 1
  | _ => 0

-- Its op_enter has returned true.
def Phase.admitted : Phase → Bool
  | .running _ => true
  | .leaving _ => true
  | _ => false

def holders [Fintype T] (w : State T) : Nat := total Phase.holds w.phase

-- The steps of an op_enter that is refused.
def Refusing (a : T × Action) : Prop := a.2 = .loadLifecycle ∨ a.2 = .backOut

-- `active_ops` counts the threads inside, and a close whose admitted operations have left
-- gets past its drain as soon as the calls that lost to it have backed out.
structure Settled [Fintype T] (vtable : UartOps) (w : State T) : Prop where
  exact : w.mem.activeOps = holders w
  drains : ∀ t, w.phase t = .draining → (∀ u, (w.phase u).admitted = false) →
    ∃ w' w'', Run (uartStep vtable) (fun a _ => Refusing a) w w' ∧
      uartStep vtable (t, .drain) w' = some w'' ∧ w''.phase t = .tearingDown

-- The slot is zeroed only while no thread is between its increment and its decrement, and
-- no increment wraps the counter.
def Orderly [Fintype T] : T × Action → State T → Prop
  | (_, .clear), w => holders w = 0
  | (_, .fetchAdd), w => holders w + 1 < 2 ^ 32
  | _, _ => True

instance [Fintype T] (w : State T) : ∀ a, Decidable (Orderly a w)
  | (_, .clear) => inferInstanceAs (Decidable (holders w = 0))
  | (_, .fetchAdd) => inferInstanceAs (Decidable (holders w + 1 < 2 ^ 32))
  | (_, .claim) | (_, .setOps) | (_, .openDone _) | (_, .publish) | (_, .call _)
  | (_, .loadLifecycle) | (_, .backOut) | (_, .finish _) | (_, .leave) | (_, .close) | (_, .drain)
  | (_, .teardown) | (_, .unopen) | (_, .release) => .isTrue trivial

end AlpSdk.Uart
