import AlpSdk.Library.Threads
import AlpSdk.SlotClaim
import AlpSdk.Status

namespace AlpSdk.Mqtt

open Library.Transition Library.Threads
open AlpSdk.SlotClaim

-- `struct alp_mqtt_ops`: which of the entries the backend has. `state.ops` itself is set by
-- `alp_mqtt_open` before the handle is open.
structure MqttOps where
  connect : Bool
  publish : Bool
  subscribe : Bool
  loop : Bool

-- The operations that run no callback, with the arguments they check.
inductive Op where
  | connect
  | publish (topicNull payloadNull : Bool) (len : Nat)
  | subscribe (filterNull cbNull : Bool)

-- `rc` is what the backend's entry returns.
def forward (entry : Bool) (rc : Status) : Status := if entry then rc else .error .notImplemented

def alpMqttConnect (vtable : MqttOps) (rc : Status) : Status := forward vtable.connect rc

def alpMqttPublish (vtable : MqttOps) (topicNull payloadNull : Bool) (len : Nat) (rc : Status) :
    Status :=
  if topicNull then .error .inval
  else if payloadNull ∧ 0 < len then .error .inval
  else forward vtable.publish rc

def alpMqttSubscribe (vtable : MqttOps) (filterNull cbNull : Bool) (rc : Status) : Status :=
  if filterNull ∨ cbNull then .error .inval else forward vtable.subscribe rc

def Op.status (vtable : MqttOps) (rc : Status) : Op → Status
  | .connect => alpMqttConnect vtable rc
  | .publish topicNull payloadNull len => alpMqttPublish vtable topicNull payloadNull len rc
  | .subscribe filterNull cbNull => alpMqttSubscribe vtable filterNull cbNull rc

-- The words of `struct alp_mqtt`, for threads named by their `alp_thread_token_self()`; a
-- `cb_thread` of 0 is none. `closeRuns` is history: how often `ops->close` has run.
structure Handle (T : Type) where
  lifecycle : Lifecycle
  activeOps : Nat
  cbThread : Option T
  cbActive : Bool
  closePending : Bool
  inUse : Bool
  closeRuns : Nat

-- The drain and what `alp_mqtt_close` and `alp_mqtt_loop` both do after it.
inductive Teardown where
  | draining
  | closing
  | unopening
  | releasing

-- Where a thread stands in a call other than `alp_mqtt_loop`.
inductive Call where
  -- in none; `rc` is what the last one returned
  | done (rc : Option Status)
  -- `alp_mqtt_connect`, `_publish` and `_subscribe`
  | counted (op : Op)
  | refused
  | running (op : Op)
  | leaving (rc : Status)
  -- `alp_mqtt_close` after it has won the CAS
  | won
  | sawActive
  | deferring
  | teardown (d : Teardown)

-- A thread is outside `alp_mqtt_loop`, or at one of its atomic accesses. `owner` is what
-- `alp_handle_cb_enter` returned.
inductive Phase where
  | out (c : Call)
  | loopCounted
  | loopRefused
  | marking
  | storing
  | looping (owner : Bool)
  | callback (owner : Bool) (c : Call)
  | zeroing (rc : Status)
  | unmarking (rc : Status)
  | taking (rc : Status)
  | loopLeaving (selfClosed : Bool) (rc : Status)
  | finishing (d : Teardown) (rc : Status)

inductive Action where
  | call (op : Op)
  | loadLifecycle
  | backOut
  | finish (rc : Status)
  | leave
  | close
  | loadActive
  | loadThread
  | storePending
  | drain
  | teardown
  | unopen
  | release
  | loop
  | mark
  | storeThread
  | enterCallback
  | leaveCallback
  | loopDone (rc : Status)
  | zeroThread
  | unmark
  | take

section Program

variable {T : Type} [DecidableEq T]

-- None in the second place: the slot is free again.
def teardownProg : Action → Handle T → Teardown → Option (Handle T × Option Teardown)
  | .drain, h, .draining => some (h, some (if h.activeOps = 0 then .closing else .draining))
  | .teardown, h, .closing => some ({ h with closeRuns := h.closeRuns + 1 }, some .unopening)
  | .unopen, h, .unopening => some ({ h with lifecycle := .unopened }, some .releasing)
  | .release, h, .releasing => some ({ h with inUse := false }, none)
  | _, _, _ => none

def Call.afterTeardown : Option Teardown → Call
  | some d => .teardown d
  | none => .done none

def callProg (vtable : MqttOps) (self : T) : Action → Handle T → Call → Option (Handle T × Call)
  -- `alp_handle_op_enter`, the operation, `alp_handle_op_leave`
  | .call op, h, .done _ => some ({ h with activeOps := fetchAdd h.activeOps }, .counted op)
  | .loadLifecycle, h, .counted op =>
      some (h, if h.lifecycle = .opened then .running op else .refused)
  | .backOut, h, .refused =>
      some ({ h with activeOps := fetchSub h.activeOps }, .done (some (.error .notReady)))
  | .finish rc, h, .running op => some (h, .leaving (op.status vtable rc))
  | .leave, h, .leaving rc => some ({ h with activeOps := fetchSub h.activeOps }, .done (some rc))
  -- `alp_handle_begin_close_selfaware`
  | .close, h, .done _ =>
      if h.lifecycle = .opened then some ({ h with lifecycle := .closing }, .won)
      else some (h, .done none)
  | .loadActive, h, .won => some (h, if h.cbActive then .sawActive else .teardown .draining)
  | .loadThread, h, .sawActive =>
      some (h, if h.cbThread = some self then .deferring else .teardown .draining)
  | .storePending, h, .deferring => some ({ h with closePending := true }, .done none)
  | a, h, .teardown d => (teardownProg a h d).map fun out => (out.1, .afterTeardown out.2)
  | _, _, _ => none

def Phase.afterTeardown (rc : Status) : Option Teardown → Phase
  | some d => .finishing d rc
  | none => .out (.done (some rc))

def prog (vtable : MqttOps) (self : T) : Action → Handle T → Phase → Option (Handle T × Phase)
  -- `alp_mqtt_loop`
  | .loop, h, .out (.done _) => some ({ h with activeOps := fetchAdd h.activeOps }, .loopCounted)
  | .loadLifecycle, h, .loopCounted =>
      some (h, if h.lifecycle = .opened then .marking else .loopRefused)
  | .backOut, h, .loopRefused =>
      some ({ h with activeOps := fetchSub h.activeOps }, .out (.done (some (.error .notReady))))
  -- `alp_handle_cb_enter`
  | .mark, h, .marking =>
      if h.cbActive then some (h, .looping false) else some ({ h with cbActive := true }, .storing)
  | .storeThread, h, .storing => some ({ h with cbThread := some self }, .looping true)
  -- the backend's loop, which may run the message callback any number of times
  | .enterCallback, h, .looping owner =>
      if vtable.loop then some (h, .callback owner (.done none)) else none
  | .leaveCallback, h, .callback owner (.done _) => some (h, .looping owner)
  | .loopDone rc, h, .looping owner =>
      some (h, if owner then .zeroing (forward vtable.loop rc) else .taking (forward vtable.loop rc))
  -- `alp_handle_cb_leave`
  | .zeroThread, h, .zeroing rc => some ({ h with cbThread := none }, .unmarking rc)
  | .unmark, h, .unmarking rc => some ({ h with cbActive := false }, .taking rc)
  -- `alp_handle_take_deferred_close`
  | .take, h, .taking rc => some ({ h with closePending := false }, .loopLeaving h.closePending rc)
  | .leave, h, .loopLeaving selfClosed rc =>
      some ({ h with activeOps := fetchSub h.activeOps },
        if selfClosed then .finishing .draining rc else .out (.done (some rc)))
  | a, h, .finishing d rc => (teardownProg a h d).map fun out => (out.1, .afterTeardown rc out.2)
  -- the other calls, from a thread outside the loop or from the callback
  | a, h, .out c => (callProg vtable self a h c).map fun out => (out.1, .out out.2)
  | a, h, .callback owner c =>
      (callProg vtable self a h c).map fun out => (out.1, .callback owner out.2)
  | _, _, _ => none

end Program

abbrev State (T : Type) : Type := World T (Handle T) Phase

variable {T : Type}

def mqttStep [DecidableEq T] (vtable : MqttOps) : T × Action → State T → Option (State T) :=
  step (prog vtable)

-- The handle as `alp_mqtt_open` returns it, and no call under way.
structure Initial (w : State T) : Prop where
  handle : w.mem =
    { lifecycle := .opened, activeOps := 0, cbThread := none, cbActive := false
      closePending := false, inUse := true, closeRuns := 0 }
  out : ∀ t, w.phase t = .out (.done none)

-- The counts the thread has added to `active_ops` and not taken back; a call from the
-- callback adds to that of the loop around it.
def Call.holds : Call → Nat
  | .counted _ => 1
  | .refused => 1
  | .running _ => 1
  | .leaving _ => 1
  | _ => 0

def Phase.holds : Phase → Nat
  | .out c => c.holds
  | .callback _ c => 1 + c.holds
  | .finishing _ _ => 0
  | _ => 1

def held [Fintype T] (w : State T) : Nat := total Phase.holds w.phase

-- The thread is between a successful op_enter and its op_leave.
def Call.admitted : Call → Bool
  | .running _ => true
  | .leaving _ => true
  | _ => false

def Phase.admitted : Phase → Bool
  | .out c => c.admitted
  | .loopCounted => false
  | .loopRefused => false
  | .finishing _ _ => false
  | _ => true

-- The thread runs `ops->close`.
def Phase.closing : Phase → Bool
  | .out (.teardown .closing) => true
  | .callback _ (.teardown .closing) => true
  | .finishing .closing _ => true
  | _ => false

-- No increment wraps the counter.
def Bounded [Fintype T] : T × Action → State T → Prop
  | (_, .call _), w => held w + 1 < 2 ^ 32
  | (_, .loop), w => held w + 1 < 2 ^ 32
  | _, _ => True

-- The thread is in the callback of a loop whose `alp_handle_cb_enter` returned false.
def Phase.unmarkedCallback : Phase → Bool
  | .callback false _ => true
  | _ => false

-- Besides, no close that wins is called from such a callback.
def Recognised [Fintype T] : T × Action → State T → Prop
  | (t, .close), w => w.mem.lifecycle = .opened → (w.phase t).unmarkedCallback = false
  | a, w => Bounded a w

instance [Fintype T] (w : State T) : ∀ a, Decidable (Bounded a w)
  | (_, .call _) | (_, .loop) => inferInstanceAs (Decidable (held w + 1 < 2 ^ 32))
  | (_, .loadLifecycle) | (_, .backOut) | (_, .finish _) | (_, .leave) | (_, .close)
  | (_, .loadActive) | (_, .loadThread) | (_, .storePending) | (_, .drain) | (_, .teardown)
  | (_, .unopen) | (_, .release) | (_, .mark) | (_, .storeThread) | (_, .enterCallback)
  | (_, .leaveCallback) | (_, .loopDone _) | (_, .zeroThread) | (_, .unmark) | (_, .take) =>
      .isTrue trivial

instance [Fintype T] (w : State T) : ∀ a, Decidable (Recognised a w)
  | (t, .close) => inferInstanceAs (Decidable
      (w.mem.lifecycle = .opened → (w.phase t).unmarkedCallback = false))
  | (_, .call _) | (_, .loop) => inferInstanceAs (Decidable (held w + 1 < 2 ^ 32))
  | (_, .loadLifecycle) | (_, .backOut) | (_, .finish _) | (_, .leave)
  | (_, .loadActive) | (_, .loadThread) | (_, .storePending) | (_, .drain) | (_, .teardown)
  | (_, .unopen) | (_, .release) | (_, .mark) | (_, .storeThread) | (_, .enterCallback)
  | (_, .leaveCallback) | (_, .loopDone _) | (_, .zeroThread) | (_, .unmark) | (_, .take) =>
      .isTrue trivial

-- The steps of the calls under way: none starts a call or a callback.
def Finishing : Action → Bool
  | .call _ => false
  | .loop => false
  | .close => false
  | .enterCallback => false
  | _ => true

end AlpSdk.Mqtt
