import AlpSdk.Library.Threads
import AlpSdk.SlotClaim

namespace AlpSdk.Ble

open Library.Transition Library.Threads
open AlpSdk.SlotClaim

abbrev CONFIG_ALP_SDK_MAX_BLE_HANDLES : Nat := 1

-- A pointer into `_radio_pool`, and what `alp_ble_open` returns: none is NULL.
abbrev RadioPtr : Type := Fin CONFIG_ALP_SDK_MAX_BLE_HANDLES

-- The pool has one slot.
def RadioPtr.only : RadioPtr := 0

abbrev OpenResult : Type := Option RadioPtr

-- `struct alp_ble`, the one slot of `_radio_pool`, with a record of its current lifetime.
structure Radio where
  refcount : Nat
  lifecycle : Lifecycle
  activeOps : Nat
  cbActive : Bool
  cbThread : Nat
  closePending : Bool
  inUse : Bool
  -- the references given out and given back since the slot was claimed, and the runs of
  -- `ops->close`
  opens : Nat
  closes : Nat
  teardowns : Nat

-- Where a thread stands between two atomic accesses.
inductive Pc where
  -- outside the calls; what the last `alp_ble_open` returned
  | idle (result : Option OpenResult)
  -- `alp_ble_open`: the scan, `_radio_try_join` and the sleep between two scans
  | scanning
  | joining
  | joinCas (cur : Nat)
  | sleeping
  -- the first open: `_alloc_radio` and its memset, `ops->open`, the two stores that publish
  | allocating
  | claimed
  | cleared
  | opened
  | publishing
  -- `alp_ble_close`: `_radio_try_leave`, then the last reference's teardown
  | leaving
  | leaveCas (cur : Nat)
  | last
  | marking
  | draining
  | tearingDown
  | unopening
  | releasing

-- A thread and the references it has got and not given back.
structure Thread where
  pc : Pc
  held : Nat

inductive Action where
  | callOpen
  | callClose
  | run
  deriving DecidableEq

-- `cur + 1u` and `cur - 1u` on the `uint32_t` reference count.
def incr (cur : Nat) : Nat := (cur + 1) % 2 ^ 32

-- One access of a thread inside `alp_ble_open` or `alp_ble_close`, with `token` its
-- `alp_thread_token_self()`. The backend's `open` succeeds, and no connection is left to
-- disconnect.
def advance (token : Nat) (h : Radio) (held : Nat) : Pc → Option (Radio × Thread)
  | .idle _ => none
  | .scanning => some (h, ⟨if h.inUse then .joining else .allocating, held⟩)
  | .joining => some (h, ⟨if h.refcount = 0 then .sleeping else .joinCas h.refcount, held⟩)
  | .joinCas cur =>
      if h.refcount = cur then
        some ({ h with refcount := incr cur, opens := h.opens + 1 },
          ⟨.idle (some (some 0)), held + 1⟩)
      else some (h, ⟨if h.refcount = 0 then .sleeping else .joinCas h.refcount, held⟩)
  | .sleeping => some (h, ⟨.scanning, held⟩)
  -- a claim that is lost leaves no slot of the pool: `ALP_ERR_NOMEM`
  | .allocating =>
      if h.inUse then some (h, ⟨.idle (some none), held⟩)
      else some ({ h with inUse := true, opens := 0, closes := 0, teardowns := 0 }, ⟨.claimed, held⟩)
  | .claimed =>
      some ({ h with refcount := 0, lifecycle := .unopened, activeOps := 0, cbActive := false
                     cbThread := 0, closePending := false }, ⟨.cleared, held⟩)
  | .cleared => some (h, ⟨.opened, held⟩)
  | .opened => some ({ h with lifecycle := .opened }, ⟨.publishing, held⟩)
  | .publishing =>
      some ({ h with refcount := 1, opens := h.opens + 1 }, ⟨.idle (some (some 0)), held + 1⟩)
  | .leaving => some (h, ⟨if h.refcount = 0 then .idle none else .leaveCas h.refcount, held⟩)
  | .leaveCas cur =>
      if h.refcount = cur then
        some ({ h with refcount := cur - 1, closes := h.closes + 1 },
          ⟨if cur = 1 then .last else .idle none, held - 1⟩)
      else some (h, ⟨if h.refcount = 0 then .idle none else .leaveCas h.refcount, held⟩)
  -- `alp_handle_begin_close_selfaware`
  | .last =>
      if h.lifecycle = .opened then some ({ h with lifecycle := .closing }, ⟨.marking, held⟩)
      else some (h, ⟨.idle none, held⟩)
  | .marking =>
      if h.cbActive ∧ h.cbThread = token then some ({ h with closePending := true }, ⟨.idle none, held⟩)
      else some (h, ⟨.draining, held⟩)
  | .draining => some (h, ⟨if h.activeOps = 0 then .tearingDown else .draining, held⟩)
  | .tearingDown => some ({ h with teardowns := h.teardowns + 1 }, ⟨.unopening, held⟩)
  | .unopening => some ({ h with lifecycle := .unopened }, ⟨.releasing, held⟩)
  | .releasing => some ({ h with inUse := false }, ⟨.idle none, held⟩)

-- A thread opens whenever it is outside the calls, and closes only references it got.
def prog (token : Nat) : Action → Radio → Thread → Option (Radio × Thread)
  | .callOpen, h, ⟨.idle _, held⟩ => some (h, ⟨.scanning, held⟩)
  | .callClose, h, ⟨.idle _, held⟩ => if 0 < held then some (h, ⟨.leaving, held⟩) else none
  | .run, h, ⟨pc, held⟩ => advance token h held pc
  | _, _, _ => none

abbrev State (T : Type) : Type := World T Radio Thread

variable {T : Type} [DecidableEq T]

def bleStep (token : T → Nat) : T × Action → State T → Option (State T) :=
  step fun t => prog (token t)

-- The pool at boot, and no call under way.
structure Initial (w : State T) : Prop where
  radio : w.mem = { refcount := 0, lifecycle := .unopened, activeOps := 0, cbActive := false
                    cbThread := 0, closePending := false, inUse := false
                    opens := 0, closes := 0, teardowns := 0 }
  idle : ∀ t, w.phase t = ⟨.idle none, 0⟩

-- The references the threads hold.
def references [Fintype T] (w : State T) : Nat := total Thread.held w.phase

-- Every open that has returned returned the one radio, and the backend's close runs once the
-- last reference of the lifetime is given back: not before, not twice, and by the steps of one
-- thread alone.
structure Singleton [Fintype T] (token : T → Nat) (w : State T) : Prop where
  pointer : ∀ t result, (w.phase t).pc = .idle (some result) → result = some 0
  counted : w.mem.opens = w.mem.closes + references w
  once : w.mem.teardowns ≤ 1
  atEnd : w.mem.teardowns = 1 → 0 < w.mem.opens ∧ w.mem.closes = w.mem.opens
  due : 0 < w.mem.opens → w.mem.closes = w.mem.opens → w.mem.teardowns = 0 →
    ∃ t w', Run (bleStep token) (fun a _ => a = (t, .run)) w w' ∧ w'.mem.teardowns = 1

-- No other thread has claimed the slot between the scan of a first open and its claim, and no
-- join wraps the reference count.
def Safe (h : Radio) : Pc → Prop
  | .allocating => h.inUse = false
  | .joinCas cur => h.refcount = cur → cur + 1 < 2 ^ 32
  | _ => True

instance (h : Radio) : ∀ pc, Decidable (Safe h pc)
  | .allocating => inferInstanceAs (Decidable (h.inUse = false))
  | .joinCas cur => inferInstanceAs (Decidable (h.refcount = cur → cur + 1 < 2 ^ 32))
  | .idle _ | .scanning | .joining | .sleeping | .claimed | .cleared | .opened | .publishing
  | .leaving | .leaveCas _ | .last | .marking | .draining | .tearingDown | .unopening
  | .releasing => .isTrue trivial

def Orderly (a : T × Action) (w : State T) : Prop :=
  a.2 = .run → Safe w.mem (w.phase a.1).pc

instance (a : T × Action) (w : State T) : Decidable (Orderly a w) :=
  inferInstanceAs (Decidable (a.2 = .run → Safe w.mem (w.phase a.1).pc))

end AlpSdk.Ble
