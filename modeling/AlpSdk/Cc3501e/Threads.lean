import AlpSdk.Cc3501e.Ota
import AlpSdk.Cc3501e.Sockets
import AlpSdk.Library.Interleave

-- Any number of threads that share one context and one bus, and what their commands show of
-- where each of them stands.
namespace AlpSdk.Cc3501e

open Library.Effect Library.Interleave

-- How far a thread is in `cc3501e_recover`.
inductive Stage where
  | out
  | entered
  -- it has read that no update session is open
  | checked
  | owner
  -- from the nRESET pulse to the end of the PING, and from there to the end of the GET_VERSION
  | pulsed
  | versioning
  -- the link is confirmed and the epoch not bumped yet
  | passed
  | bumping (epoch : UInt8)
  -- the reset is over; in the bookkeeping, with the counter it has read
  | finished (ok : Bool)
  | stamped (ok : Bool)
  | counting (ok : Bool) (attempts : UInt32)
  | counted (ok : Bool)
  | crediting (count : UInt32)
  | credited
  deriving DecidableEq

namespace Stage

-- Owns the recovery, and has pulsed nRESET in it.
def owns : Stage → Bool
  | out | entered | checked => false
  | _ => true

def reset : Stage → Bool
  | out | entered | checked | owner => false
  | _ => true

-- Past the test of the session at the entry of `cc3501e_recover`.
def past : Stage → Bool
  | out | entered => false
  | _ => true

def confirming : Stage → Bool
  | pulsed | versioning => true
  | _ => false

-- Has pulsed nRESET, and neither failed to confirm it nor bumped the epoch yet.
def unsettled : Stage → Bool
  | pulsed | versioning | passed | bumping _ => true
  | _ => false

@[simp] def noted (stage : Stage) : Note → Stage
  | .enterRecover => .entered
  | .leaveRecover _ => .out
  | _ => stage

@[simp] def read (stage : Stage) : (f : Field) → f.Val → Stage
  | .otaSessionActive, active => if stage = .entered ∧ active = false then .checked else stage
  | .linkEpoch, epoch => if stage = .passed then .bumping epoch else stage
  | .recoverAttemptCount, n =>
      match stage with
      | .stamped ok => .counting ok n
      | _ => stage
  | .recoverCount, n => if stage = .counted true then .crediting n else stage
  | _, _ => stage

@[simp] def wrote (stage : Stage) : Field → Stage
  | .linkEpoch =>
      match stage with
      | .bumping _ => .finished true
      | _ => stage
  | .lastRecoverMs =>
      match stage with
      | .finished ok => .stamped ok
      | _ => stage
  | .recoverAttemptCount =>
      match stage with
      | .counting ok _ => .counted ok
      | _ => stage
  | .recoverCount =>
      match stage with
      | .crediting _ => .credited
      | _ => stage
  | _ => stage

def claimed (stage : Stage) (won : Bool) : Stage :=
  if stage = .checked then (if won then .owner else .out) else stage

def drove (stage : Stage) (pin : Pin) (level : Bool) : Stage :=
  if stage = .owner ∧ pin = .reset ∧ level = false then .pulsed else stage

-- The end of an exchange that was not decoded.
def undecoded : Stage → Stage
  | .pulsed => .finished false
  | .versioning => .passed
  | stage => stage

-- What the answer to the GET_VERSION makes of the reset.
def versioned (answer : Answer) : Stage :=
  match answer.major with
  | none => .passed
  | some major => if fwMajorIsAcceptable major then .passed else .finished false

def decoded (answer : Answer) : Stage → Stage
  | .pulsed => if answer.status = .ok () then .versioning else .finished false
  | .versioning => versioned answer
  | stage => stage

@[simp] def next (stage : Stage) : (cmd : Cmd) → bridge.Reply cmd → Stage
  | .get f, value => stage.read f value
  | .set f _, _ => stage.wrote f
  | .claim .recovering, won => stage.claimed won
  | .write pin level, _ => stage.drove pin level
  | .clock _ _, err => if err.isSome then stage.undecoded else stage
  | .collect _, .error _ => stage.undecoded
  | .collect _, .ok answer => stage.decoded answer
  | .note n, _ => stage.noted n
  | .releaseRecover _, _ => .out
  | _, _ => stage

-- All the moves that a command can make.
inductive Move : Stage → Stage → (cmd : Cmd) → bridge.Reply cmd → Prop where
  | stay (stage : Stage) (cmd : Cmd) (reply : bridge.Reply cmd)
      (hrelease : ∀ s, cmd ≠ .releaseRecover s) : Move stage stage cmd reply
  | enter (stage : Stage) : Move stage .entered (.note .enterRecover) ()
  | leave (stage : Stage) (s : Status) : Move stage .out (.note (.leaveRecover s)) ()
  | check : Move .entered .checked (.get .otaSessionActive) false
  | win : Move .checked .owner (.claim .recovering) true
  | lose : Move .checked .out (.claim .recovering) false
  | pulse : Move .owner .pulsed (.write .reset false) ()
  | lost {stage : Stage} (transfer : Transfer) (frame : Frame) (err : AlpError)
      (hstage : stage.confirming = true) : Move stage stage.undecoded (.clock transfer frame) (some err)
  | dropped {stage : Stage} (frame : Frame) (err : AlpError) (hstage : stage.confirming = true) :
      Move stage stage.undecoded (.collect frame) (.error err)
  | answered {stage : Stage} (frame : Frame) (answer : Answer) (hstage : stage.confirming = true) :
      Move stage (stage.decoded answer) (.collect frame) (.ok answer)
  | epoch (epoch : UInt8) : Move .passed (.bumping epoch) (.get .linkEpoch) epoch
  | bump (old epoch : UInt8) : Move (.bumping old) (.finished true) (.set .linkEpoch epoch) ()
  | stamp (ok : Bool) (ms : UInt64) : Move (.finished ok) (.stamped ok) (.set .lastRecoverMs ms) ()
  | readAttempts (ok : Bool) (n : UInt32) :
      Move (.stamped ok) (.counting ok n) (.get .recoverAttemptCount) n
  | wroteAttempts (ok : Bool) (old n : UInt32) :
      Move (.counting ok old) (.counted ok) (.set .recoverAttemptCount n) ()
  | readCount (n : UInt32) : Move (.counted true) (.crediting n) (.get .recoverCount) n
  | wroteCount (old n : UInt32) : Move (.crediting old) .credited (.set .recoverCount n) ()
  | release (stage : Stage) (s : Status) : Move stage .out (.releaseRecover s) ()

theorem undecoded_eq {stage : Stage} (h : stage.confirming = false) : stage.undecoded = stage := by
  cases stage with
  | pulsed | versioning => cases h
  | _ => rfl

theorem decoded_eq {stage : Stage} (answer : Answer) (h : stage.confirming = false) :
    stage.decoded answer = stage := by
  cases stage with
  | pulsed | versioning => cases h
  | _ => rfl

theorem move (stage : Stage) (cmd : Cmd) (reply : bridge.Reply cmd) :
    Move stage (stage.next cmd reply) cmd reply := by
  cases cmd with
  | get f =>
      cases f with
      | otaSessionActive =>
          simp only [next, read]
          split
          · rename_i h
            obtain ⟨rfl, rfl⟩ := h
            exact .check
          · exact .stay _ _ _ nofun
      | linkEpoch =>
          simp only [next, read]
          split
          · rename_i h
            subst h
            exact .epoch _
          · exact .stay _ _ _ nofun
      | recoverAttemptCount =>
          cases stage with
          | stamped ok => exact .readAttempts ok _
          | _ => exact .stay _ _ _ nofun
      | recoverCount =>
          simp only [next, read]
          split
          · rename_i h
            subst h
            exact .readCount _
          · exact .stay _ _ _ nofun
      | _ => exact .stay _ _ _ nofun
  | set f value =>
      cases f with
      | linkEpoch =>
          cases stage with
          | bumping old => exact .bump old value
          | _ => exact .stay _ _ _ nofun
      | lastRecoverMs =>
          cases stage with
          | finished ok => exact .stamp ok value
          | _ => exact .stay _ _ _ nofun
      | recoverAttemptCount =>
          cases stage with
          | counting ok old => exact .wroteAttempts ok old value
          | _ => exact .stay _ _ _ nofun
      | recoverCount =>
          cases stage with
          | crediting old => exact .wroteCount old value
          | _ => exact .stay _ _ _ nofun
      | _ => exact .stay _ _ _ nofun
  | claim flag =>
      cases flag with
      | requestLock => exact .stay _ _ _ nofun
      | recovering =>
          simp only [next, claimed]
          split
          · rename_i h
            subst h
            cases reply with
            | true => exact .win
            | false => exact .lose
          · exact .stay _ _ _ nofun
  | clock transfer frame =>
      cases hstage : stage.confirming with
      | false =>
          have hsame : stage.next (.clock transfer frame) reply = stage := by
            simp [undecoded_eq hstage]
          rw [hsame]
          exact .stay _ _ _ nofun
      | true =>
          cases reply with
          | none => exact .stay _ _ _ nofun
          | some err => exact .lost transfer frame err hstage
  | collect frame =>
      cases hstage : stage.confirming with
      | false =>
          have hsame : stage.next (.collect frame) reply = stage := by
            cases reply <;> simp [undecoded_eq hstage, decoded_eq _ hstage]
          rw [hsame]
          exact .stay _ _ _ nofun
      | true =>
          cases reply with
          | error err => exact .dropped frame err hstage
          | ok answer => exact .answered frame answer hstage
  | write pin level =>
      simp only [next, drove]
      split
      · rename_i h
        obtain ⟨rfl, rfl, rfl⟩ := h
        exact .pulse
      · exact .stay _ _ _ nofun
  | note n =>
      cases n with
      | enterRecover => exact .enter stage
      | leaveRecover s => exact .leave stage s
      | _ => exact .stay _ _ _ nofun
  | releaseRecover s => exact .release stage s
  | _ => exact .stay _ _ _ nofun

end Stage

-- What the gate of an automatic attempt has read: the attempts, the streak in each round of
-- its loop, the clock and the time of the last attempt.
structure Gate where
  attempts : Option UInt32
  streaks : List UInt8
  now : Option UInt64
  last : Option UInt64

namespace Gate

def empty : Gate := ⟨none, [], none, none⟩

@[simp] def next (gate : Gate) : (cmd : Cmd) → bridge.Reply cmd → Gate
  | .get .recoverAttemptCount, n => { gate with attempts := gate.attempts <|> some n }
  | .get .recoverFailStreak, k => { gate with streaks := k :: gate.streaks }
  | .get .lastRecoverMs, ms => { gate with last := gate.last <|> some ms }
  | .uptime, ms => { gate with now := gate.now <|> some ms }
  | _, _ => gate

end Gate

-- The socket call a thread is in: its handle, and what its first look at the epoch said.
structure SocketCall where
  handle : UInt16
  current : Option Bool

def Opcode.carriesHandle : Opcode → Bool
  | .sockConnect | .sockSend | .sockRecv | .sockClose | .sockBind | .sockListen => true
  | _ => false

namespace SocketCall

@[simp] def next (call : SocketCall) : (cmd : Cmd) → bridge.Reply cmd → SocketCall
  | .get .linkEpoch, epoch =>
      { call with current := call.current <|> some (decide (handleEpoch call.handle = epoch)) }
  | _, _ => call

end SocketCall

-- Where a thread stands, by what it has done so far.
structure View where
  -- whether it is the thread that runs the update calls
  host : Bool
  holds : Bool
  stage : Stage
  -- inside `cc3501e_link_check_and_recover`
  checking : Bool
  gate : Gate
  stamp : UInt64
  socket : Option SocketCall
  -- the epoch was current when it was last read under the lock that is held
  fresh : Bool
  -- the last epoch it has read without the lock outside of a call on a handle
  snapshot : Option UInt8
  -- what it has last written to `ota_session_active`, and whether its session is open
  flag : Bool
  session : Bool
  -- the request it has written to the start of `sock_buf` in the socket call it is in, and what
  -- it has read there since
  staged : Option (List UInt8)
  fetched : Option (List UInt8)

namespace View

@[simp] def holdsNext (v : View) : (cmd : Cmd) → bridge.Reply cmd → Bool
  | .claim .requestLock, won => v.holds || won
  | .set .requestLock value, _ => value
  | _, _ => v.holds

@[simp] def freshNext (v : View) : (cmd : Cmd) → bridge.Reply cmd → Bool
  | .get .linkEpoch, epoch => v.holds && (v.socket.map fun call => handleEpoch call.handle) == some epoch
  | .set .requestLock _, _ => false
  | .set .linkEpoch _, _ => false
  | _, _ => v.fresh

@[simp] def checkingNext (v : View) : Cmd → Bool
  | .note .enterCheck => true
  | .note .leaveCheck => false
  | _ => v.checking

@[simp] def gateNext (v : View) (cmd : Cmd) (reply : bridge.Reply cmd) : Gate :=
  match cmd, reply with
  | .note .enterCheck, _ => .empty
  | cmd, reply => if v.checking ∧ v.stage = .out then v.gate.next cmd reply else v.gate

@[simp] def stampNext (v : View) : (cmd : Cmd) → bridge.Reply cmd → UInt64
  | .uptime, ms => if v.stage.owns then ms else v.stamp
  | _, _ => v.stamp

@[simp] def socketNext (v : View) (cmd : Cmd) (reply : bridge.Reply cmd) : Option SocketCall :=
  match cmd, reply with
  | .note (.enterSocket handle), _ => some ⟨handle, none⟩
  | .note (.leaveSocket _), _ => none
  | cmd, reply => if v.stage = .out then v.socket.map fun call => call.next cmd reply else v.socket

@[simp] def snapshotNext (v : View) : (cmd : Cmd) → bridge.Reply cmd → Option UInt8
  | .get .linkEpoch, epoch =>
      if v.socket.isNone ∧ v.stage = .out ∧ v.holds = false then some epoch else v.snapshot
  | _, _ => v.snapshot

@[simp] def flagNext (v : View) : Cmd → Bool
  | .set .otaSessionActive value => value
  | _ => v.flag

@[simp] def sessionNext (v : View) : Cmd → Bool
  | .note .sessionOpened => true
  | .note .sessionLeft => false
  | _ => v.session

-- What is written under the lock is a reply.
@[simp] def stagedNext (v : View) : Cmd → Option (List UInt8)
  | .stage 0 bytes => if v.holds then none else some bytes
  | .set .sockBusy busy => if v.stage = .out ∧ busy = false then none else v.staged
  | _ => v.staged

@[simp] def fetchedNext (v : View) : (cmd : Cmd) → bridge.Reply cmd → Option (List UInt8)
  | .get .sockBuf, buf => some buf
  | .stage 0 _, _ => none
  | _, _ => v.fetched

def next (v : View) (cmd : Cmd) (reply : bridge.Reply cmd) : View where
  host := v.host
  holds := v.holdsNext cmd reply
  stage := v.stage.next cmd reply
  checking := v.checkingNext cmd
  gate := v.gateNext cmd reply
  stamp := v.stampNext cmd reply
  socket := v.socketNext cmd reply
  fresh := v.freshNext cmd reply
  snapshot := v.snapshotNext cmd reply
  flag := v.flagNext cmd
  session := v.sessionNext cmd
  staged := v.stagedNext cmd
  fetched := v.fetchedNext cmd reply

def start (host : Bool) : View where
  host := host
  holds := false
  stage := .out
  checking := false
  gate := .empty
  stamp := 0
  socket := none
  fresh := false
  snapshot := none
  flag := false
  session := false
  staged := none
  fetched := none

end View

-- One step of a thread: its command and the reply, and the clock and the context after it.
structure Event (T : Type) where
  thread : T
  cmd : Cmd
  reply : bridge.Reply cmd
  time : UInt64
  after : Ctx

-- The shared context, the clock, and everything that has happened, the latest event first.
structure Shared (T : Type) where
  ctx : Ctx
  clock : UInt64
  history : List (Event T)

-- What the shared context and the clock answer. The device answers the rest as it likes.
def Answers {T : Type} (s : Shared T) : (cmd : Cmd) → bridge.Reply cmd → Prop
  | .get f, value => value = s.ctx.get f
  | .claim .requestLock, won => won = !s.ctx.requestLock
  | .claim .recovering, won => won = !s.ctx.recovering
  | .uptime, ms => ms = s.clock
  | _, _ => True

def Ctx.after (ctx : Ctx) : (cmd : Cmd) → bridge.Reply cmd → Ctx
  | .set f value, _ => ctx.set f value
  | .stage off bytes, _ => { ctx with sockBuf := overlay off bytes ctx.sockBuf }
  | .claim .requestLock, won => { ctx with requestLock := ctx.requestLock || won }
  | .claim .recovering, won => { ctx with recovering := ctx.recovering || won }
  | .releaseRecover _, _ => { ctx with recovering := false }
  | _, _ => ctx

section World

variable {T : Type} [DecidableEq T]

-- A thread's command takes effect, and time may pass.
def env (t : T) : Env bridge (Shared T) := fun s cmd reply s' =>
  Answers s cmd reply ∧ s.clock ≤ s'.clock ∧ s'.ctx = s.ctx.after cmd reply ∧
    s'.history = ⟨t, cmd, reply, s'.clock, s'.ctx⟩ :: s.history

-- Where a thread stands after a history. `host` is the thread that runs the update calls.
def viewOf (host : T → Bool) : List (Event T) → T → View
  | [], t => .start (host t)
  | e :: rest, t =>
      if e.thread = t then (viewOf host rest t).next e.cmd e.reply else viewOf host rest t

def Shared.view (host : T → Bool) (s : Shared T) (t : T) : View := viewOf host s.history t

-- The runs in which every step meets a condition on what goes before it.
def envWhere (guard : T → Shared T → (cmd : Cmd) → bridge.Reply cmd → Prop) (t : T) :
    Env bridge (Shared T) := fun s cmd reply s' => env t s cmd reply s' ∧ guard t s cmd reply

-- No thread has done anything yet with a context that `cc3501e_init` has set up.
structure Shared.Fresh (s : Shared T) : Prop where
  requestLock : s.ctx.requestLock = false
  recovering : s.ctx.recovering = false
  otaSessionActive : s.ctx.otaSessionActive = false
  recoverCount : s.ctx.recoverCount = 0
  recoverAttemptCount : s.ctx.recoverAttemptCount = 0
  recoverFailStreak : s.ctx.recoverFailStreak = 0
  history : s.history = []

-- Every thread stands between two calls.
structure Started (w : Pool bridge (Shared T) T) : Prop where
  mem : w.mem.Fresh
  idle : ∀ t, w.thread t = .ret ()

-- The start of an nRESET pulse.
def Cmd.lowersReset : Cmd → Bool
  | .write .reset false => true
  | _ => false

-- A CAS that takes the recovery.
def Cmd.wins : (cmd : Cmd) → bridge.Reply cmd → Bool
  | .claim .recovering, won => won
  | _, _ => false

-- The thread's next command is one of these.
def standsBefore {α : Type} (P : Cmd → Bool) : Driver α → Bool
  | .ret _ => false
  | .call cmd _ => P cmd

theorem lowersReset_eq {cmd : Cmd} (h : cmd.lowersReset = true) : cmd = .write .reset false := by
  unfold Cmd.lowersReset at h
  split at h
  · rfl
  · cases h

theorem exists_pulse {α : Type} {p : Driver α} (h : standsBefore Cmd.lowersReset p = true) :
    ∃ next, p = .call (.write .reset false) next := by
  cases p with
  | ret value => cases h
  | call cmd next =>
      obtain rfl := lowersReset_eq h
      exact ⟨next, rfl⟩

def pulses (history : List (Event T)) : Nat := history.countP fun e => e.cmd.lowersReset

-- A world whose device answers a frame in one way, and whose clock a command moves on.
def Shared.answer (device : Frame → Except AlpError Answer) (s : Shared T) :
    (cmd : Cmd) → Option (bridge.Reply cmd)
  | .get f => some (s.ctx.get f)
  | .claim .requestLock => some !s.ctx.requestLock
  | .claim .recovering => some !s.ctx.recovering
  | .clock _ _ => some none
  | .collect frame => some (device frame)
  | .uptime => some s.clock
  | .stall => none
  | .set _ _ | .stage _ _ | .resync _ | .write _ _ | .delay _ | .callback _ | .note _
  | .releaseRecover _ => some ()

def timed (device : Frame → Except AlpError Answer) (clock : Cmd → UInt64 → UInt64) (t : T) :
    Memory bridge (Shared T) := fun cmd s =>
  match s.answer device cmd with
  | none => none
  | some reply =>
      let ctx := s.ctx.after cmd reply
      let time := clock cmd s.clock
      some (reply, ⟨ctx, time, ⟨t, cmd, reply, time, ctx⟩ :: s.history⟩)

omit [DecidableEq T] in
theorem answering_timed (device : Frame → Except AlpError Answer) {clock : Cmd → UInt64 → UInt64}
    (hclock : ∀ cmd time, time ≤ clock cmd time) : Answering (T := T) env (timed device clock) := by
  intro t cmd s out h
  unfold timed at h
  cases hanswer : s.answer device cmd with
  | none => simp [hanswer] at h
  | some reply =>
      simp only [hanswer, Option.some.injEq] at h
      subst h
      refine ⟨?_, hclock cmd s.clock, rfl, rfl⟩
      cases cmd with
      | get f =>
          cases hanswer
          rfl
      | claim flag =>
          cases flag <;>
            · cases hanswer
              rfl
      | uptime =>
          cases hanswer
          rfl
      | _ => trivial

-- A world whose clock stands still.
def still (device : Frame → Except AlpError Answer) : T → Memory bridge (Shared T) :=
  timed device fun _ time => time

omit [DecidableEq T] in
theorem answering_still (device : Frame → Except AlpError Answer) :
    Answering (T := T) env (still device) :=
  answering_timed device fun _ _ => UInt64.le_refl _

def bootedCtx : Ctx where
  initialised := true
  fwProtoMajor := 4
  reqSeq := 0
  sockSendSeq := 0
  sockRecvSeq := 0
  sockBusy := false
  sockBuf := []
  wifiScanBusy := false
  linkEpoch := 0
  otaSessionActive := false
  requestLock := false
  recovering := false
  recoverCount := 0
  recoverAttemptCount := 0
  lastRecoverMs := 0
  recoverFailStreak := 0
  peerPolled := false

-- A board whose reset pin is wired and whose enable pin is not.
def board : Config where
  lockTimeoutMs := 0
  autoRecover := true
  pollGapMinMs := 1
  postSuccessGuardMs := 0
  resetPin := true
  enablePin := false
  recoverCb := false
  fuel := 4

def booted (T : Type) : Pool bridge (Shared T) T := ⟨⟨bootedCtx, 0, []⟩, fun _ => .ret ()⟩

theorem started_booted (T : Type) : Started (booted T) :=
  ⟨⟨rfl, rfl, rfl, rfl, rfl, rfl, rfl⟩, fun _ => rfl⟩

end World

end AlpSdk.Cc3501e
