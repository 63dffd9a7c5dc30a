import AlpSdk.Library.Threads
import AlpSdk.Status

namespace AlpSdk.DrpAi

open Library.Transition Library.Threads

abbrev kArenaAlign : UInt64 := 0x1000000

abbrev kArenaPreprocReserve : UInt64 := 0x2000000

-- A model's [start, stop) in the arena; none of it where the two are equal.
structure Range where
  start : UInt64
  stop : UInt64
  deriving DecidableEq

def Range.none : Range := ⟨0, 0⟩

-- The arena of one process. `live` is `live_`, in the order the ranges were recorded.
structure Arena where
  base : UInt64
  size : UInt64
  live : List Range
  lockFd : Int
  lockHolders : UInt32

def Arena.initial : Arena := ⟨0, 0, [], -1, 0⟩

def alignUp (v : UInt64) : UInt64 :=
  (v + (kArenaAlign - 1)) &&& ~~~(kArenaAlign - 1)

def Arena.cursor (a : Arena) : UInt64 :=
  a.live.foldl (fun c r => max c r.stop) a.base

def Arena.limit (a : Arena) : UInt64 :=
  if a.size > kArenaPreprocReserve then a.base + a.size - kArenaPreprocReserve else a.base

-- Where the next model is loaded: none where `begin` returns false.
def Arena.begin (a : Arena) (base size : UInt64) : Arena × Option UInt64 :=
  if a.live ≠ [] ∧ (a.base ≠ base ∨ a.size ≠ size) then (a, none)
  else
    let a := if a.live = [] then { a with base, size } else a
    let start := alignUp a.cursor
    (a, if start < a.limit ∧ start ≥ a.base then some start else none)

-- What is recorded for the model: none where `commit` returns false.
def Arena.commit (a : Arena) (start lastAddress : UInt64) : Arena × Option Range :=
  if lastAddress = 0 then (a, some Range.none)
  else if lastAddress ≤ start ∨ lastAddress > a.limit then (a, none)
  else ({ a with live := a.live ++ [⟨start, lastAddress⟩] }, some ⟨start, lastAddress⟩)

def Arena.release (a : Arena) (r : Range) : Arena :=
  if r.start = r.stop then a else { a with live := a.live.erase r }

inductive Errno where
  | wouldBlock
  | again
  | other
  deriving DecidableEq

-- How `open` of the lock file and `flock` may turn out; a lock that another descriptor holds
-- is refused in any case.
structure LockTry where
  opened : Except Errno ℕ
  flock : Option Errno

-- The board's lock file: the process and the descriptor that hold it.
abbrev LockFile (P : Type) : Type := Option (P × Int)

variable {P H : Type}

def flock (lockFile : LockFile P) (t : LockTry) : Option Errno :=
  if lockFile.isSome then some .wouldBlock else t.flock

-- `lock_acquire_locked`; none is 0.
def Arena.lockAcquire (a : Arena) (p : P) (lockFile : LockFile P) (t : LockTry) :
    Option Errno × Arena × LockFile P :=
  if a.lockHolders = 0 then
    match t.opened with
    | .error err => (some err, a, lockFile)
    | .ok fd =>
        match flock lockFile t with
        | some err => (some err, a, lockFile)
        | none =>
            (none, { a with lockFd := fd, lockHolders := a.lockHolders + 1 }, some (p, (fd : Int)))
  else (none, { a with lockHolders := a.lockHolders + 1 }, lockFile)

-- `close` of a descriptor drops the lock that was taken through it.
def closeFd [DecidableEq P] (p : P) (fd : Int) (lockFile : LockFile P) : LockFile P :=
  if lockFile = some (p, fd) then none else lockFile

-- `lock_release_locked`.
def Arena.lockRelease [DecidableEq P] (a : Arena) (p : P) (lockFile : LockFile P) :
    Arena × LockFile P :=
  if a.lockHolders = 0 then (a, lockFile)
  else if a.lockHolders - 1 = 0 then
    ({ a with lockHolders := 0, lockFd := -1 }, closeFd p a.lockFd lockFile)
  else ({ a with lockHolders := a.lockHolders - 1 }, lockFile)

-- The answer of `DRPAI_GET_DRPAI_AREA`. The driver's memory ends below 2^64.
structure Area where
  base : UInt64
  size : UInt64
  fits : base.toNat + size.toNat < 2 ^ 64

inductive DriverErrno where
  | timedOut
  | inProgress
  | addrNotAvail
  | other
  deriving DecidableEq

def drpaiErrnoToStatus : DriverErrno → AlpError
  | .timedOut => .timeout
  | .inProgress | .addrNotAvail => .busy
  | .other => .io

-- How the `open` of /dev/drpai0 and the ioctl may turn out.
structure Probe where
  opened : Option DriverErrno
  ioctl : Option DriverErrno
  area : Area

def memStart (probe : Probe) : Except AlpError Area :=
  match probe.opened, probe.ioctl with
  | some err, _ => .error (drpaiErrnoToStatus err)
  | none, some err => .error (drpaiErrnoToStatus err)
  | none, none =>
      if probe.area.size = 0 ∨ probe.area.base = 0 then .error .io else .ok probe.area

abbrev kDrpAiMaxModelBytes : ℕ := 64 * 1024 * 1024

-- What `alp_inference_drpai_open` reads of the configuration before it takes a lock; no data
-- is the null pointer.
structure Config where
  modelData : Option Unit
  modelSize : ℕ
  accelUnitMask : UInt32

def checkConfig (cfg : Config) : Status :=
  if cfg.modelData = none ∨ cfg.modelSize = 0 then .error .inval
  else if cfg.accelUnitMask &&& ~~~1 ≠ 0 then .error .nosupport
  else if cfg.modelSize > kDrpAiMaxModelBytes then .error .inval
  else .ok ()

-- What an open found when it took the arena's mutex.
structure Found where
  live : List Range
  lockHolders : UInt32

-- Where the call on a handle stands between two operations on what it shares.
inductive Phase where
  -- no open handle; what the last open returned, if it failed past the mutex
  | closed (failed : Option (AlpError × Found))
  -- `alp_inference_drpai_open`, the arena's mutex held
  | entered (found : Found)
  | admitted (found : Found)
  | probed (found : Found) (area : Area)
  | allocated (found : Found) (area : Area)
  | staged (found : Found) (area : Area)
  | placed (found : Found) (start : UInt64)
  | loaded (found : Found) (start : UInt64)
  | recorded (range : Range)
  -- past the mutex
  | opened (range : Range)
  -- `alp_inference_drpai_close`: the state deleted, the range given back
  | tornDown (range : Range)
  | rangeGiven

-- The operations, each with what the code outside this repository answers.
inductive Event where
  | enter (cfg : Config)
  | acquire (t : LockTry)
  | probe (answer : Probe)
  | allocate (ok : Bool)
  | stage (outcome : Status)
  | place
  | load (ok : Bool)
  | commit (lastAddress : UInt64)
  | leave
  | tearDown
  | giveRange
  | giveLock

-- What the threads of one process share: the arena, and which handle's open holds its mutex.
structure Site (H : Type) where
  arena : Arena
  mutex : Option H

def lockStatus : Errno → AlpError
  | .wouldBlock | .again => .busy
  | .other => .io

section Program

variable [DecidableEq P] (p : P) (i : H)

-- The failure exit past the file lock.
def failExit (lockFile : LockFile P) (arena : Arena) (found : Found) (rc : AlpError) :
    LockFile P × Site H × Phase :=
  let (arena, lockFile) := arena.lockRelease p lockFile
  (lockFile, ⟨arena, none⟩, .closed (some (rc, found)))

-- One operation of the call on handle `i` of process `p`. The run mutex is left out: it
-- guards none of this, and holds a thread up at most. A handle is opened where it is not open
-- and closed once, as the dispatcher's slot and lifecycle see to.
def advance (lockFile : LockFile P) (s : Site H) :
    Event → Phase → Option (LockFile P × Site H × Phase)
  | .enter cfg, .closed last =>
      match checkConfig cfg with
      | .error _ => some (lockFile, s, .closed last)
      | .ok () =>
          if s.mutex.isSome then none
          else some (lockFile, ⟨s.arena, some i⟩, .entered ⟨s.arena.live, s.arena.lockHolders⟩)
  | .acquire t, .entered found =>
      match s.arena.lockAcquire p lockFile t with
      | (some err, arena, lockFile) =>
          some (lockFile, ⟨arena, none⟩, .closed (some (lockStatus err, found)))
      | (none, arena, lockFile) => some (lockFile, ⟨arena, s.mutex⟩, .admitted found)
  | .probe answer, .admitted found =>
      match memStart answer with
      | .error rc => some (failExit p lockFile s.arena found rc)
      | .ok area => some (lockFile, s, .probed found area)
  | .allocate ok, .probed found area =>
      if ok then some (lockFile, s, .allocated found area)
      else some (failExit p lockFile s.arena found .nomem)
  | .stage outcome, .allocated found area =>
      match outcome with
      | .error rc => some (failExit p lockFile s.arena found rc)
      | .ok () => some (lockFile, s, .staged found area)
  | .place, .staged found area =>
      match s.arena.begin area.base area.size with
      | (arena, none) => some (failExit p lockFile arena found .nomem)
      | (arena, some start) => some (lockFile, ⟨arena, s.mutex⟩, .placed found start)
  | .load ok, .placed found start =>
      if ok then some (lockFile, s, .loaded found start)
      else some (failExit p lockFile s.arena found .io)
  | .commit lastAddress, .loaded found start =>
      match s.arena.commit start lastAddress with
      | (arena, none) => some (failExit p lockFile arena found .nomem)
      | (arena, some range) => some (lockFile, ⟨arena, s.mutex⟩, .recorded range)
  | .leave, .recorded range => some (lockFile, ⟨s.arena, none⟩, .opened range)
  | .tearDown, .opened range => some (lockFile, s, .tornDown range)
  | .giveRange, .tornDown range =>
      if range.start ≠ range.stop ∧ s.mutex.isSome then none
      else some (lockFile, ⟨s.arena.release range, s.mutex⟩, .rangeGiven)
  | .giveLock, .rangeGiven =>
      if s.mutex.isSome then none
      else
        let (arena, lockFile) := s.arena.lockRelease p lockFile
        some (lockFile, ⟨arena, s.mutex⟩, .closed none)
  | _, _ => none

end Program

-- The board: its lock file and its processes.
structure Board (P H : Type) where
  lockFile : LockFile P
  site : P → Site H

abbrev State (P H : Type) : Type := World (P × H) (Board P H) Phase

variable [DecidableEq P] [DecidableEq H]

def drpaiProg (t : P × H) (e : Event) (m : Board P H) (ph : Phase) : Option (Board P H × Phase) :=
  (advance t.1 t.2 m.lockFile (m.site t.1) e ph).map fun out =>
    (⟨out.1, Function.update m.site t.1 out.2.1⟩, out.2.2)

def drpaiStep : (P × H) × Event → State P H → Option (State P H) :=
  step drpaiProg

def boot : State P H where
  mem := ⟨none, fun _ => ⟨Arena.initial, none⟩⟩
  phase := fun _ => .closed none

end AlpSdk.DrpAi
