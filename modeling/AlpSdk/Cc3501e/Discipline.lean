import AlpSdk.Cc3501e.Threads

namespace AlpSdk.Cc3501e

open Library.Effect Library.Interleave

-- The closed form of the back-off.
def cooldownMs (streak : UInt8) : Nat :=
  min (RECOVER_COOLDOWN_MS * 2 ^ streak.toNat) RECOVER_COOLDOWN_MAX_MS

-- The gate lets an attempt go on, provided every round of its loop has read the same streak.
def Gate.Passes (gate : Gate) : Prop :=
  ∀ streak, (∀ k ∈ gate.streaks, k = streak) →
    gate.attempts = some 0 ∨
      ∃ now last, gate.now = some now ∧ gate.last = some last ∧ cooldownMs streak ≤ (now - last).toNat

namespace View

def MayWrite (v : View) : (f : Field) → f.Val → Prop
  | .requestLock, value =>
      value = false ∧ v.holds = true ∧ (v.stage = .out ∨ ∃ ok, v.stage = .finished ok)
  | .recovering, _ => False
  | .lastRecoverMs, ms =>
      ms = v.stamp ∧ v.holds = false ∧ (v.stage = .owner ∨ ∃ ok, v.stage = .finished ok)
  | .recoverAttemptCount, n => ∃ ok m, v.stage = .counting ok m ∧ n = m + 1
  | .recoverFailStreak, _ => ∃ ok, v.stage = .counted ok
  | .recoverCount, n => ∃ m, v.stage = .crediting m ∧ n = m + 1
  | .linkEpoch, epoch => ∃ old, v.stage = .bumping old ∧ epoch = nextEpoch old
  | .otaSessionActive, active =>
      (v.stage = .owner ∧ v.holds = true ∧ active = false) ∨
        (v.stage = .out ∧ v.host = true ∧ (active = false → v.session = false))
  | .sockBuf, _ => False
  | _, _ => True

-- A call on a handle clocks nothing before it has found the handle current, unless the threads
-- make `raw` requests of their own.
def Cleared (raw : Bool) (v : View) : Prop :=
  raw = true ∨ ∀ call, v.socket = some call → call.current = some true

-- The frame is read from `sock_buf`, where the thread has written this handle.
def Loaded (v : View) (handle : UInt16) (frame : Frame) : Prop :=
  ∃ rest buf, v.staged = some (handleBytes handle ++ rest) ∧ v.fetched = some buf ∧
    frame.payload.take 2 = buf.take 2

-- A write to `sock_buf` leaves the request alone that the thread has begun to write there.
def MayStage (v : View) (off : Nat) : Prop :=
  v.stage = .out ∧ (off = 0 ∨ ∃ head, v.staged = some head ∧ head.length ≤ off)

-- Frames that carry a firmware handle go out only under a fresh look at the epoch.
def MayClock (raw : Bool) (v : View) (frame : Frame) : Prop :=
  v.holds = true ∧ v.Cleared raw ∧
    (v.stage = .out ∨ (v.stage = .pulsed ∧ frame.cmd = .ping) ∨
      (v.stage = .versioning ∧ frame.cmd = .getVersion)) ∧
    (frame.cmd.carriesHandle = true → raw = true ∨
      ∃ call, v.socket = some call ∧ v.fresh = true ∧
        (frame.payload.take 2 = handleBytes call.handle ∨ v.Loaded call.handle frame))

def MayDrive (v : View) (pin : Pin) (level : Bool) : Prop :=
  (v.holds = true ∧ pin = .reset ∧
      ((v.stage = .owner ∧ level = false) ∨ (v.stage = .pulsed ∧ level = true))) ∨
    (v.stage = .out ∧ v.host = true ∧ v.session = false)

def MayNote (v : View) : Note → Prop
  | .enterRecover => v.stage = .out ∧ v.holds = false
  | .leaveRecover s => v.stage.owns = false ∧ v.holds = false ∧ s ≠ .ok ()
  | .enterCheck => v.stage = .out ∧ v.holds = false ∧ v.checking = false
  | .leaveCheck => v.stage = .out ∧ v.holds = false
  | .sessionOpened => v.host = true ∧ v.flag = true
  | .sessionLeft => v.host = true
  | .enterSocket _ => v.stage = .out ∧ v.holds = false ∧ v.socket = none ∧ v.staged = none
  | .leaveSocket s =>
      v.stage = .out ∧ v.holds = false ∧ ∃ call, v.socket = some call ∧
        (call.current = some true ∨ (call.current = some false ∧ s = .error .notReady))
  | .opened handle => v.stage = .out ∧ v.snapshot = some (handleEpoch handle)

def Allows (raw : Bool) (v : View) : Cmd → Prop
  | .get _ | .delay _ | .uptime | .stall => True
  | .callback _ => v.stage = .credited
  | .set f value => v.MayWrite f value
  | .stage off _ => v.MayStage off
  | .claim .requestLock => v.holds = false
  | .claim .recovering =>
      v.stage = .checked ∧ v.holds = false ∧ (v.checking = true → v.gate.Passes)
  | .clock _ frame | .collect frame => v.MayClock raw frame
  | .resync _ => v.holds = true ∧ v.Cleared raw ∧ v.stage = .out
  | .write pin level => v.MayDrive pin level
  | .note n => v.MayNote n
  | .releaseRecover s =>
      v.holds = false ∧
        ((v.stage = .owner ∧ s ≠ .ok ()) ∨ (v.stage = .counted false ∧ s ≠ .ok ()) ∨
          (v.stage = .credited ∧ s = .ok ()))

end View

-- What a thread that runs the driver may do next.
def discipline (raw : Bool) : Protocol bridge View where
  allows := View.Allows raw
  next := View.next

-- The driver's code keeps to the discipline.
abbrev Keeping {α : Type} (raw : Bool) (p : Driver α) (Q : α → View → Prop) (v : View) : Prop :=
  Follows (discipline raw) p Q v

namespace View

variable {v : View}

-- The fields whose reads and writes leave no trace in the view.
def Plain : Field → Prop
  | .initialised | .fwProtoMajor | .reqSeq | .sockSendSeq | .sockRecvSeq | .wifiScanBusy | .recovering
  | .peerPolled => True
  | _ => False

theorem next_get_plain {f : Field} (hf : Plain f) (value : f.Val) : v.next (.get f) value = v := by
  cases f <;> cases hf <;> simp [next]

theorem next_set_plain {f : Field} (hf : Plain f) (value : f.Val) : v.next (.set f value) () = v := by
  cases f <;> cases hf <;> simp [next]

theorem next_delay (ms : Nat) : v.next (.delay ms) () = v := by simp [next]

theorem next_resync (header : List UInt8) : v.next (.resync header) () = v := by simp [next]

theorem next_lock (won : Bool) :
    v.next (.claim .requestLock) won = { v with holds := v.holds || won } := by
  simp [next]

theorem next_unlock : v.next (.set .requestLock false) () = { v with holds := false, fresh := false } := by
  simp [next]

theorem next_clock_out (h : v.stage = .out) (transfer : Transfer) (frame : Frame)
    (err : Option AlpError) : v.next (.clock transfer frame) err = v := by
  cases v
  cases err <;> simp_all [next, Stage.undecoded]

theorem next_collect_out (h : v.stage = .out) (frame : Frame) (reply : Except AlpError Answer) :
    v.next (.collect frame) reply = v := by
  cases v
  cases reply <;> simp_all [next, Stage.undecoded, Stage.decoded]

theorem next_clock_none (transfer : Transfer) (frame : Frame) :
    v.next (.clock transfer frame) none = v := by
  simp [next]

end View

section Commands

variable {raw : Bool} {α : Type} {v : View} {Q : α → View → Prop}

theorem keeping_get {f : Field} {next : f.Val → Driver α}
    (h : ∀ value, Keeping raw (next value) Q (v.next (.get f) value)) :
    Keeping raw (get f >>= next) Q v :=
  ⟨trivial, h⟩

theorem keeping_get_plain {f : Field} {next : f.Val → Driver α} (hf : View.Plain f)
    (h : ∀ value, Keeping raw (next value) Q v) : Keeping raw (get f >>= next) Q v :=
  keeping_get fun value => by rw [View.next_get_plain hf]; exact h value

theorem keeping_set {f : Field} {value : f.Val} {next : Unit → Driver α} (hmay : v.MayWrite f value)
    (h : Keeping raw (next ()) Q (v.next (.set f value) ())) :
    Keeping raw (set f value >>= next) Q v :=
  ⟨hmay, fun _ => h⟩

theorem keeping_set_plain {f : Field} {value : f.Val} {next : Unit → Driver α} (hf : View.Plain f)
    (hne : f ≠ .recovering) (h : Keeping raw (next ()) Q v) :
    Keeping raw (set f value >>= next) Q v := by
  refine keeping_set ?_ (by rw [View.next_set_plain hf]; exact h)
  cases f <;> simp_all [View.MayWrite, View.Plain]

theorem keeping_delay {ms : Nat} {next : Unit → Driver α} (h : Keeping raw (next ()) Q v) :
    Keeping raw (delay ms >>= next) Q v :=
  ⟨trivial, fun _ => by rw [show (discipline raw).next v (.delay ms) () = v from View.next_delay ms]; exact h⟩

theorem keeping_uptime {next : UInt64 → Driver α}
    (h : ∀ ms, Keeping raw (next ms) Q (v.next .uptime ms)) : Keeping raw (uptime >>= next) Q v :=
  ⟨trivial, h⟩

theorem keeping_note {n : Note} {next : Unit → Driver α} (hmay : v.MayNote n)
    (h : Keeping raw (next ()) Q (v.next (.note n) ())) : Keeping raw (note n >>= next) Q v :=
  ⟨hmay, fun _ => h⟩

theorem keeping_write {pin : Pin} {level : Bool} {next : Unit → Driver α} (hmay : v.MayDrive pin level)
    (h : Keeping raw (next ()) Q (v.next (.write pin level) ())) :
    Keeping raw (write pin level >>= next) Q v :=
  ⟨hmay, fun _ => h⟩

theorem keeping_claimRecovering {next : Bool → Driver α}
    (hmay : v.stage = .checked ∧ v.holds = false ∧ (v.checking = true → v.gate.Passes))
    (h : ∀ won, Keeping raw (next won) Q (v.next (.claim .recovering) won)) :
    Keeping raw (claim .recovering >>= next) Q v :=
  ⟨hmay, h⟩

theorem keeping_resync {header : List UInt8} {next : Unit → Driver α}
    (hmay : v.holds = true ∧ v.Cleared raw ∧ v.stage = .out) (h : Keeping raw (next ()) Q v) :
    Keeping raw (perform (Cmd.resync header) >>= next) Q v :=
  ⟨hmay, fun _ => by
    rw [show (discipline raw).next v (.resync header) () = v from View.next_resync header]
    exact h⟩

theorem maintains_stall {P : View → Prop} : Maintains (discipline raw) P (stall : Driver α) :=
  fun _ _ => ⟨trivial, fun reply => reply.elim⟩

theorem leaves_stall {P : View → Prop} : Leaves (discipline raw) P (stall : Driver α) :=
  fun _ _ => ⟨trivial, fun reply => reply.elim⟩

theorem leaves_get {P : View → Prop} {f : Field} (hf : View.Plain f) : Leaves (discipline raw) P (get f) :=
  fun _ _ => ⟨trivial, fun value => View.next_get_plain hf value⟩

theorem leaves_delay {P : View → Prop} (ms : Nat) : Leaves (discipline raw) P (delay ms) :=
  fun _ _ => ⟨trivial, fun _ => View.next_delay ms⟩

theorem leaves_set {P : View → Prop} {f : Field} (hf : View.Plain f) (hne : f ≠ .recovering)
    (value : f.Val) : Leaves (discipline raw) P (set f value) := by
  refine fun v _ => ⟨?_, fun _ => View.next_set_plain hf value⟩
  show v.MayWrite f value
  cases f <;> simp_all [View.MayWrite, View.Plain]

end Commands

section Lock

variable {raw : Bool} {v : View} (cfg : Config)

-- A bounded acquire has the lock, or has changed nothing.
def Locked (v : View) (s : Status) (v' : View) : Prop :=
  (s = .ok () ∧ v' = { v with holds := true }) ∨ (s = .error .busy ∧ v' = v)

theorem keeping_lockTry (hfree : v.holds = false) :
    Keeping raw lockTry (fun won v' => v' = if won then { v with holds := true } else v) v := by
  refine ⟨hfree, fun won => ?_⟩
  rw [show (discipline raw).next v (.claim .requestLock) won = _ from View.next_lock won]
  cases won with
  | true => simp [Follows]
  | false => simp [Follows]

theorem keeping_lockAcquireWithin (hfree : v.holds = false) (waits : Nat) :
    Keeping raw (lockAcquireWithin waits) (Locked v) v := by
  induction waits with
  | zero => exact .inr ⟨rfl, rfl⟩
  | succ waits ih =>
      refine keeping_delay (follows_seq (keeping_lockTry hfree) ?_)
      rintro won _ rfl
      cases won with
      | true => exact .inl ⟨rfl, rfl⟩
      | false => exact ih

theorem keeping_lockAcquire (hfree : v.holds = false) :
    Keeping raw (lockAcquire cfg) (Locked v) v := by
  refine follows_seq (keeping_lockTry hfree) ?_
  rintro won _ rfl
  cases won with
  | true => exact .inl ⟨rfl, rfl⟩
  | false => exact keeping_lockAcquireWithin hfree cfg.lockTimeoutMs

theorem keeping_lockRelease (hholds : v.holds = true)
    (hstage : v.stage = .out ∨ ∃ ok, v.stage = .finished ok) :
    Keeping raw lockRelease (fun _ v' => v' = { v with holds := false, fresh := false }) v :=
  ⟨⟨rfl, hholds, hstage⟩, fun _ => View.next_unlock⟩

end Lock

section Exchange

variable {raw : Bool} {v : View} {frame : Frame}

theorem keeping_clock {transfer : Transfer} {next : Driver Answer} {Q : Answer → View → Prop}
    (hmay : v.MayClock raw frame)
    (hfail : ∀ err, Q (.undecoded err) (v.next (.clock transfer frame) (some err)))
    (hnext : Keeping raw next Q (v.next (.clock transfer frame) none)) :
    Keeping raw (clock transfer frame next) Q v := by
  refine ⟨hmay, fun err => ?_⟩
  cases err with
  | some err => exact hfail err
  | none => exact hnext

theorem keeping_collect {rxCap : Nat} {Q : Answer → View → Prop} (hmay : v.MayClock raw frame)
    (hfail : ∀ err, Q (.undecoded err) (v.next (.collect frame) (.error err)))
    (hok : ∀ answer, Q { answer with data := answer.data.take rxCap }
      (v.next (.collect frame) (.ok answer))) :
    Keeping raw (collect frame rxCap) Q v := by
  refine ⟨hmay, fun reply => ?_⟩
  cases reply with
  | error err => exact hfail err
  | ok answer => exact hok answer

-- An exchange, by what its last transfer leaves behind. `S` is what holds around the reads of the
-- payload.
theorem keeping_exchange {cmd : Opcode} {seq : UInt8} {len : Nat} {payload : Driver (List UInt8)} {rxCap : Nat}
    {Q : Answer → View → Prop} {S : View → Prop}
    (hpayload : ∀ w, S w →
      Keeping raw payload (fun bytes w' => S w' ∧ w'.MayClock raw ⟨cmd, bytes, seq⟩) w)
    (hfail : ∀ w transfer frame err, S w → Q (.undecoded err) (w.next (.clock transfer frame) (some err)))
    (hlost : ∀ w frame err, S w → Q (.undecoded err) (w.next (.collect frame) (.error err)))
    (hok : ∀ w frame answer, S w →
      Q { answer with data := answer.data.take rxCap } (w.next (.collect frame) (.ok answer)))
    (hv : S v) : Keeping raw (exchange cmd seq len payload rxCap) Q v := by
  have hnext := fun (w : View) transfer frame => View.next_clock_none (v := w) transfer frame
  have hreply : ∀ (w : View) frame, S w → w.MayClock raw frame →
      Keeping raw (clock .replyHeader frame (collect frame rxCap)) Q w := by
    intro w frame hw hmay
    refine keeping_clock hmay (fun err => hfail w _ frame err hw) ?_
    rw [hnext]
    exact keeping_collect hmay (fun err => hlost w frame err hw) fun answer => hok w frame answer hw
  refine keeping_get_plain (f := .fwProtoMajor) trivial fun major => ?_
  refine follows_seq (hpayload v hv) ?_
  rintro bytes w ⟨hw, hmay⟩
  refine keeping_clock hmay (fun err => hfail w _ _ err hw) ?_
  rw [hnext]
  by_cases hwire : 0 < len + if PROTOCOL_MAJOR ≤ major then CRC_BYTES else 0
  · rw [if_pos hwire]
    refine follows_seq (hpayload w hw) ?_
    rintro bytes w ⟨hw, hmay⟩
    refine keeping_clock hmay (fun err => hfail w _ _ err hw) ?_
    rw [hnext]
    exact hreply w _ hw hmay
  · rw [if_neg hwire]
    exact hreply w _ hw hmay

theorem keeping_exchangeFrame {rxCap : Nat} {Q : Answer → View → Prop} (hmay : v.MayClock raw frame)
    (hfail : ∀ transfer frame err, Q (.undecoded err) (v.next (.clock transfer frame) (some err)))
    (hlost : ∀ frame err, Q (.undecoded err) (v.next (.collect frame) (.error err)))
    (hok : ∀ frame answer, Q { answer with data := answer.data.take rxCap }
      (v.next (.collect frame) (.ok answer))) :
    Keeping raw (requestLocked frame rxCap) Q v := by
  refine keeping_exchange (S := fun w => w = v) ?_ ?_ ?_ ?_ rfl
  · rintro w rfl
    exact ⟨rfl, hmay⟩
  · rintro w transfer frame err rfl
    exact hfail transfer frame err
  · rintro w frame err rfl
    exact hlost frame err
  · rintro w frame answer rfl
    exact hok frame answer

theorem keeping_requestLocked {rxCap : Nat} (hmay : v.MayClock raw frame) (hout : v.stage = .out) :
    Keeping raw (requestLocked frame rxCap) (fun _ v' => v' = v) v :=
  keeping_exchangeFrame hmay (fun _ _ _ => View.next_clock_out hout _ _ _)
    (fun _ _ => View.next_collect_out hout _ _) (fun _ _ => View.next_collect_out hout _ _)

-- The confirming PING ends the reset, unless it has answered OK.
theorem keeping_confirmPing {rxCap : Nat} (hmay : v.MayClock raw frame) (hstage : v.stage = .pulsed) :
    Keeping raw (requestLocked frame rxCap) (fun answer v' =>
      v' = { v with stage := if answer.status = .ok () then .versioning else .finished false }) v := by
  refine keeping_exchangeFrame hmay ?_ ?_ ?_
  all_goals simp [View.next, hstage, Stage.undecoded, Stage.decoded, Answer.undecoded]

theorem keeping_confirmVersion (hmay : v.MayClock raw frame) (hstage : v.stage = .versioning) :
    Keeping raw (requestLocked frame 2) (fun answer v' => v' = { v with stage := .versioned answer })
      v := by
  have hlost : ∀ err, Stage.versioned (.undecoded err) = .passed := fun err => rfl
  refine keeping_exchangeFrame hmay ?_ ?_ ?_
  · simp [View.next, hstage, Stage.undecoded, hlost]
  · simp [View.next, hstage, Stage.undecoded, hlost]
  · intro frame answer
    have hmajor : ({ answer with data := answer.data.take 2 } : Answer).major = answer.major := by
      simp [Answer.major, List.take_take]
    simp [View.next, hstage, Stage.decoded, Stage.versioned, hmajor]

end Exchange

-- A thread outside of a recovery and without the lock.
structure View.Free (raw : Bool) (v : View) : Prop where
  holds : v.holds = false
  stage : v.stage = .out
  fresh : v.fresh = false
  cleared : v.Cleared raw

-- A frame that may go out whatever socket call the thread is in.
def Loose (raw : Bool) (cmd : Opcode) : Prop := cmd.carriesHandle = false ∨ raw = true

section Request

variable {raw : Bool} {v : View} (cfg : Config)

theorem keeping_fits (len : Nat) : Keeping raw (fits len) (fun _ v' => v' = v) v :=
  keeping_get_plain (f := .fwProtoMajor) trivial fun _ => rfl

theorem mayClock_loose {frame : Frame} (hfree : v.Free raw) (hloose : Loose raw frame.cmd) :
    View.MayClock raw { v with holds := true } frame := by
  refine ⟨rfl, hfree.cleared, .inl hfree.stage, fun hcarries => ?_⟩
  rcases hloose with h | h
  · simp [h] at hcarries
  · exact .inl h

theorem unlocked (hfree : v.Free raw) : { v with holds := false, fresh := false } = v := by
  have hholds := hfree.holds
  have hfresh := hfree.fresh
  cases v
  simp_all

theorem keeping_request (hfree : v.Free raw) {cmd : Opcode} (hloose : Loose raw cmd)
    (payload : List UInt8) (rxCap : Nat) :
    Keeping raw (request cfg cmd payload rxCap) (fun _ v' => v' = v) v := by
  refine keeping_get_plain (f := .initialised) trivial fun initialised => ?_
  split
  · refine follows_seq (keeping_fits payload.length) ?_
    rintro fit _ rfl
    split
    · refine follows_seq (keeping_lockAcquire cfg hfree.holds) ?_
      rintro s _ (⟨rfl, rfl⟩ | ⟨rfl, rfl⟩)
      · refine follows_seq (keeping_requestLocked (mayClock_loose hfree hloose) hfree.stage) ?_
        rintro answer _ rfl
        refine follows_seq (keeping_lockRelease rfl (.inl hfree.stage)) ?_
        rintro _ _ rfl
        exact unlocked hfree
      · rfl
    · rfl
  · rfl

theorem keeping_ping (hfree : v.Free raw) : Keeping raw (ping cfg) (fun _ v' => v' = v) v :=
  follows_seq (keeping_request cfg hfree (.inl rfl) [] 0) fun _ _ h => h

theorem keeping_linkResync (hfree : v.Free raw) (stallFirst : Bool) :
    Keeping raw (linkResync cfg stallFirst) (fun _ v' => v' = v) v := by
  refine follows_seq (keeping_lockAcquire cfg hfree.holds) ?_
  rintro s _ (⟨rfl, rfl⟩ | ⟨rfl, rfl⟩)
  · have hmay : View.holds { v with holds := true } = true ∧ v.Cleared raw ∧ v.stage = .out :=
      ⟨rfl, hfree.cleared, hfree.stage⟩
    have hrest : Keeping raw (do
        perform (Cmd.resync RESYNC_HDR)
        perform (Cmd.resync RESYNC_HDR)
        perform (Cmd.resync RESYNC_HDR)
        delay RESYNC_SETTLE_MS
        lockRelease
        pure true) (fun _ v' => v' = v) { v with holds := true } := by
      refine keeping_resync hmay (keeping_resync hmay (keeping_resync hmay (keeping_delay ?_)))
      refine follows_seq (keeping_lockRelease rfl (.inl hfree.stage)) ?_
      rintro _ _ rfl
      exact unlocked hfree
    dsimp only
    split
    · exact keeping_resync hmay (keeping_delay hrest)
    · exact hrest
  · rfl

end Request

section Recover

variable {raw : Bool} {v : View} (cfg : Config)

theorem keeping_hardReset (hpin : cfg.resetPin = true) (hstage : v.stage = .owner)
    (hholds : v.holds = true) :
    Keeping raw (hardReset cfg)
      (fun s v' => s = .ok () ∧ v' = { v with stage := .pulsed, flag := false }) v := by
  have hset : v.next (.set .otaSessionActive false) () = { v with flag := false } := by
    simp [View.next, hstage]
  have hlow : View.next { v with flag := false } (.write .reset false) () =
      { v with stage := .pulsed, flag := false } := by
    simp [View.next, hstage, Stage.drove]
  have hhigh : View.next { v with stage := .pulsed, flag := false } (.write .reset true) () =
      { v with stage := .pulsed, flag := false } := by
    simp [View.next, Stage.drove]
  simp only [hardReset, hpin, ↓reduceIte]
  refine keeping_set (.inl ⟨hstage, hholds, rfl⟩) ?_
  rw [hset]
  simp only [pinWrite, hpin, ↓reduceIte]
  refine keeping_write (.inl ⟨hholds, rfl, .inl ⟨hstage, rfl⟩⟩) ?_
  rw [hlow]
  refine keeping_delay (keeping_write (.inl ⟨hholds, rfl, .inr ⟨rfl, rfl⟩⟩) ?_)
  rw [hhigh]
  exact keeping_delay ⟨rfl, rfl⟩

-- The bump of the epoch, which is what ends a reset that is confirmed.
theorem keeping_recoverClearStaleState (hstage : v.stage = .passed) (hfresh : v.fresh = false) :
    Keeping raw recoverClearStaleState (fun _ v' => v' = { v with stage := .finished true }) v := by
  refine keeping_set (f := .sockBusy) trivial ?_
  have hbusy : v.next (.set .sockBusy false) () = v := by
    cases v
    simp_all [View.next]
  rw [hbusy]
  refine keeping_set_plain (f := .wifiScanBusy) trivial nofun (keeping_get fun epoch => ?_)
  have hread : (v.next (.get .linkEpoch) epoch).stage = .bumping epoch := by
    simp [View.next, hstage]
  refine ⟨⟨epoch, hread, rfl⟩, fun _ => ?_⟩
  cases v
  simp_all [Follows, discipline, View.next]

theorem keeping_recoverVersion (hstage : v.stage = .versioning) (hholds : v.holds = true)
    (hclear : v.Cleared raw) :
    Keeping raw recoverVersion (fun s v' =>
      (s = .ok () ∧ v' = { v with stage := .passed }) ∨
        (s ≠ .ok () ∧ v' = { v with stage := .finished false })) v := by
  have hmay : v.MayClock raw ⟨.getVersion, [], REQ_SEQ_NONE⟩ :=
    ⟨hholds, hclear, .inr (.inr ⟨hstage, rfl⟩), nofun⟩
  refine follows_seq (keeping_confirmVersion hmay hstage) ?_
  rintro answer _ rfl
  cases hmajor : answer.major with
  | none =>
      simp only [Stage.versioned, hmajor]
      exact .inl ⟨rfl, rfl⟩
  | some major =>
      simp only [Stage.versioned, hmajor]
      split
      · exact keeping_set_plain (f := .fwProtoMajor) trivial nofun (.inl ⟨rfl, rfl⟩)
      · refine keeping_set_plain (f := .fwProtoMajor) trivial nofun ?_
        exact keeping_set_plain (f := .initialised) trivial nofun (.inr ⟨nofun, rfl⟩)

-- What a reset that is over has made of the view.
def Reset (v : View) (s : Status) (v' : View) : Prop :=
  (s = .ok () ∧ v' = { v with stage := .finished true }) ∨
    (s ≠ .ok () ∧ v' = { v with stage := .finished false })

theorem keeping_recoverConfirm (hstage : v.stage = .pulsed) (hholds : v.holds = true)
    (hfresh : v.fresh = false) (hclear : v.Cleared raw) : Keeping raw recoverConfirm (Reset v) v := by
  have hmay : v.MayClock raw ⟨.ping, [], REQ_SEQ_NONE⟩ :=
    ⟨hholds, hclear, .inr (.inl ⟨hstage, rfl⟩), nofun⟩
  refine follows_seq (keeping_confirmPing hmay hstage) ?_
  rintro answer _ rfl
  match hanswer : answer.status with
  | .error err =>
      exact .inr ⟨nofun, rfl⟩
  | .ok () =>
      simp only [↓reduceIte]
      refine follows_seq (keeping_recoverVersion rfl hholds hclear) ?_
      rintro s _ (⟨rfl, rfl⟩ | ⟨hs, rfl⟩)
      · refine follows_seq (keeping_recoverClearStaleState rfl hfresh) ?_
        rintro _ _ rfl
        exact .inl ⟨rfl, rfl⟩
      · match s with
        | .ok () => exact absurd rfl hs
        | .error err => exact .inr ⟨hs, rfl⟩

theorem keeping_recoverReset (hpin : cfg.resetPin = true) (hstage : v.stage = .owner)
    (hholds : v.holds = true) (hfresh : v.fresh = false) (hclear : v.Cleared raw) :
    Keeping raw (recoverReset cfg) (Reset { v with holds := false, flag := false }) v := by
  refine follows_seq (keeping_hardReset cfg hpin hstage hholds) ?_
  rintro s _ ⟨rfl, rfl⟩
  refine follows_seq (keeping_recoverConfirm rfl hholds hfresh hclear) ?_
  rintro final _ (⟨rfl, rfl⟩ | ⟨hfinal, rfl⟩)
  · refine follows_seq (keeping_lockRelease hholds (.inr ⟨_, rfl⟩)) ?_
    rintro _ _ rfl
    exact .inl ⟨rfl, by simp [hfresh]⟩
  · refine follows_seq (keeping_lockRelease hholds (.inr ⟨_, rfl⟩)) ?_
    rintro _ _ rfl
    exact .inr ⟨hfinal, by simp [hfresh]⟩

-- The counters an attempt has written: both after a confirmed reset, one after another.
def Accounted (ok : Bool) (v v' : View) : Prop :=
  ∃ stamp, v' = { v with stage := if ok then .credited else .counted false, stamp := stamp }

theorem keeping_recoverAccount {ok : Bool} {final : Status} (hfinal : ok = true ↔ final = .ok ())
    (hstage : v.stage = .finished ok) (hholds : v.holds = false) :
    Keeping raw (recoverAccount cfg final) (fun _ v' => Accounted ok v v') v := by
  refine keeping_uptime fun ms => ?_
  have hstamp : v.next .uptime ms = { v with stamp := ms } := by
    simp [View.next, hstage, Stage.owns]
  rw [hstamp]
  refine keeping_set ⟨rfl, hholds, .inr ⟨ok, hstage⟩⟩ (keeping_get fun attempts => ?_)
  have hcounting : View.next (View.next { v with stamp := ms } (.set .lastRecoverMs ms) ())
      (.get .recoverAttemptCount) attempts =
        { v with stage := .counting ok attempts, stamp := ms } := by
    simp [View.next, hstage]
  rw [hcounting]
  refine keeping_set ⟨ok, attempts, rfl, rfl⟩ ?_
  have hcounted : View.next { v with stage := .counting ok attempts, stamp := ms }
      (.set .recoverAttemptCount (attempts + 1)) () =
        { v with stage := .counted ok, stamp := ms } := by
    simp [View.next]
  rw [hcounted]
  match final with
  | .ok () =>
      obtain rfl : ok = true := hfinal.mpr rfl
      refine keeping_set ⟨true, rfl⟩ (keeping_get fun count => ?_)
      have hcrediting : View.next (View.next { v with stage := .counted true, stamp := ms }
          (.set .recoverFailStreak 0) ()) (.get .recoverCount) count =
            { v with stage := .crediting count, stamp := ms } := by
        simp [View.next]
      rw [hcrediting]
      refine keeping_set ⟨count, rfl, rfl⟩ ?_
      have hcredited : View.next { v with stage := .crediting count, stamp := ms }
          (.set .recoverCount (count + 1)) () = { v with stage := .credited, stamp := ms } := by
        simp [View.next]
      rw [hcredited]
      split
      · refine keeping_get fun count => ⟨?_, fun _ => ⟨ms, ?_⟩⟩
        · simp [discipline, View.Allows, View.next]
        · simp [discipline, View.next]
      · exact ⟨ms, rfl⟩
  | .error err =>
      obtain rfl : ok = false := by simpa using hfinal
      refine keeping_get fun streak => ?_
      split
      · refine keeping_get fun streak => ⟨?_, fun _ => ⟨ms, ?_⟩⟩
        · exact ⟨false, by simp [View.next]⟩
        · simp [discipline, View.next]
      · exact ⟨ms, by simp [View.next]⟩

-- What the code around a retry loop leaves behind: only what an automatic attempt records.
def View.Settles (v v' : View) : Prop :=
  ∃ gate stamp flag, v' = { v with gate := gate, stamp := stamp, flag := flag }

theorem keeping_leaveRecover {err : AlpError} (hstage : v.stage.owns = false) (hholds : v.holds = false) :
    Keeping raw (leaveRecover (.error err)) (fun _ v' => v' = { v with stage := .out }) v := by
  refine keeping_note ⟨hstage, hholds, nofun⟩ ?_
  simp [Follows, View.next]

theorem keeping_releaseRecover {s : Status} (hholds : v.holds = false)
    (hstage : (v.stage = .owner ∧ s ≠ .ok ()) ∨ (v.stage = .counted false ∧ s ≠ .ok ()) ∨
      (v.stage = .credited ∧ s = .ok ())) :
    Keeping raw (releaseRecover s) (fun _ v' => v' = { v with stage := .out }) v := by
  refine ⟨⟨hholds, hstage⟩, fun _ => ?_⟩
  have howns : v.stage ≠ .out := by
    rcases hstage with h | h | h
    all_goals simp [h.1]
  show View.next v (.releaseRecover s) () = _
  simp [View.next, howns]

theorem keeping_recoverOwned (hpin : cfg.resetPin = true) (hfree : v.Free raw) :
    Keeping raw (recoverOwned cfg) (fun _ v' => v.Settles v') { v with stage := .owner } := by
  have hdone : ∀ (w : View) stamp flag, w = { v with stage := w.stage, stamp := stamp, flag := flag } →
      v.Settles { w with stage := .out } := by
    intro w stamp flag hw
    refine ⟨v.gate, stamp, flag, ?_⟩
    rw [hw, ← hfree.stage]
  refine follows_seq (keeping_lockAcquire cfg hfree.holds) ?_
  rintro s _ (⟨rfl, rfl⟩ | ⟨rfl, rfl⟩)
  · refine follows_seq (keeping_recoverReset cfg hpin rfl rfl hfree.fresh hfree.cleared) ?_
    rintro final _ (⟨rfl, rfl⟩ | ⟨hfinal, rfl⟩)
    · refine follows_seq (keeping_recoverAccount cfg (by simp) rfl rfl) ?_
      rintro _ _ ⟨stamp, rfl⟩
      refine follows_mono (keeping_releaseRecover rfl (.inr (.inr ⟨rfl, rfl⟩))) ?_
      rintro _ _ rfl
      exact hdone _ stamp false (by simp [hfree.holds])
    · refine follows_seq (keeping_recoverAccount cfg (by simp [hfinal]) rfl rfl) ?_
      rintro _ _ ⟨stamp, rfl⟩
      refine follows_mono (keeping_releaseRecover rfl (.inr (.inl ⟨rfl, hfinal⟩))) ?_
      rintro _ _ rfl
      exact hdone _ stamp false (by simp [hfree.holds])
  · refine keeping_uptime fun ms => ?_
    have hstamp : View.next { v with stage := .owner } .uptime ms =
        { v with stage := .owner, stamp := ms } := by
      simp [View.next, Stage.owns]
    have hset : View.next { v with stage := .owner, stamp := ms } (.set .lastRecoverMs ms) () =
        { v with stage := .owner, stamp := ms } := by
      simp [View.next]
    rw [hstamp]
    refine keeping_set ⟨rfl, hfree.holds, .inl rfl⟩ ?_
    rw [hset]
    refine follows_mono (keeping_releaseRecover hfree.holds (.inl ⟨rfl, nofun⟩)) ?_
    rintro _ _ rfl
    exact hdone _ ms v.flag rfl

theorem keeping_recover (hfree : v.Free raw) (hgate : v.checking = true → v.gate.Passes) :
    Keeping raw (recover cfg) (fun _ v' => v.Settles v') v := by
  have hleave : ∀ (stage : Stage) (err : AlpError), stage.owns = false →
      Keeping raw (leaveRecover (.error err)) (fun _ v' => v.Settles v') { v with stage := stage } :=
    fun stage err hstage => follows_mono (keeping_leaveRecover hstage hfree.holds) fun _ v' hv' =>
      ⟨v.gate, v.stamp, v.flag, by rw [hv', ← hfree.stage]⟩
  refine keeping_note ⟨hfree.stage, hfree.holds⟩ (keeping_get fun active => ?_)
  have hread : View.next (v.next (.note .enterRecover) ()) (.get .otaSessionActive) active =
      { v with stage := if active then .entered else .checked } := by
    cases active <;> simp [View.next, hfree.stage]
  rw [hread]
  cases active with
  | true => exact hleave .entered .busy rfl
  | false =>
      cases hpin : cfg.resetPin with
      | false => exact hleave .checked .nosupport rfl
      | true =>
          refine keeping_claimRecovering ⟨rfl, hfree.holds, hgate⟩ fun won => ?_
          have hclaim : View.next { v with stage := .checked } (.claim .recovering) won =
              { v with stage := if won then .owner else .out } := by
            simp [View.next, Stage.claimed]
          rw [show (if false = true then Stage.entered else Stage.checked) = .checked from rfl, hclaim]
          cases won with
          | true => exact keeping_recoverOwned cfg hpin hfree
          | false => exact hleave .out .busy rfl

end Recover

section Check

variable {raw : Bool} {v : View} (cfg : Config)

theorem cooldownMs_of_lt {streak : UInt8} {cooldown : Nat}
    (hcooldown : cooldown = RECOVER_COOLDOWN_MS * 2 ^ streak.toNat)
    (hlt : cooldown < RECOVER_COOLDOWN_MAX_MS) : cooldownMs streak = cooldown := by
  unfold cooldownMs
  omega

theorem cooldownMs_of_le {streak : UInt8} {i cooldown : Nat} (hi : i < streak.toNat)
    (hcooldown : cooldown = RECOVER_COOLDOWN_MS * 2 ^ i)
    (hle : RECOVER_COOLDOWN_MAX_MS / 2 ≤ cooldown) : cooldownMs streak = RECOVER_COOLDOWN_MAX_MS := by
  have hpow : 2 ^ (i + 1) ≤ 2 ^ streak.toNat := Nat.pow_le_pow_right (by omega) hi
  have hmul := Nat.mul_le_mul_left RECOVER_COOLDOWN_MS hpow
  simp only [Nat.pow_succ] at hmul
  simp only [cooldownMs, RECOVER_COOLDOWN_MS, RECOVER_COOLDOWN_MAX_MS] at *
  omega

-- The loop computes the closed form, as long as every round reads the same streak. By
-- induction on the rounds: `cooldown` is what round `i` starts with.
theorem keeping_cooldownFrom (hcheck : v.checking = true) (hstage : v.stage = .out)
    (rounds i cooldown : Nat) :
    Keeping raw (cooldownFrom rounds i cooldown) (fun result v' =>
      ∃ reads, v' = { v with gate := { v.gate with streaks := reads ++ v.gate.streaks } } ∧
        ∀ streak, (∀ k ∈ reads, k = streak) → i ≤ streak.toNat → rounds + i = 256 →
          cooldown = RECOVER_COOLDOWN_MS * 2 ^ i → cooldown < RECOVER_COOLDOWN_MAX_MS →
          result = cooldownMs streak) v := by
  induction rounds generalizing v i cooldown with
  | zero =>
      refine ⟨[], rfl, fun streak _ hi hrounds _ _ => ?_⟩
      have hlt := streak.toNat_lt
      omega
  | succ rounds ih =>
      refine keeping_get fun k => ?_
      have hread : v.next (.get .recoverFailStreak) k =
          { v with gate := { v.gate with streaks := k :: v.gate.streaks } } := by
        simp [View.next, hcheck, hstage]
      rw [hread]
      split
      · rename_i hi
        split
        · rename_i hle
          refine ⟨[k], rfl, fun streak hreads _ _ hcooldown _ => ?_⟩
          obtain rfl := hreads k (by simp)
          exact (cooldownMs_of_le hi hcooldown hle).symm
        · rename_i hlt
          refine follows_mono (ih (v := { v with gate := { v.gate with streaks := k :: v.gate.streaks } })
            hcheck hstage (i + 1) (cooldown * 2)) ?_
          rintro result _ ⟨reads, rfl, hresult⟩
          refine ⟨reads ++ [k], by simp, fun streak hreads _ hrounds hcooldown _ => ?_⟩
          obtain rfl := hreads k (by simp)
          refine hresult k (fun j hj => hreads j (by simp [hj])) hi (by omega) ?_ ?_
          · rw [hcooldown, Nat.pow_succ, Nat.mul_assoc]
          · simp only [RECOVER_COOLDOWN_MAX_MS] at *
            omega
      · rename_i hi
        refine ⟨[k], rfl, fun streak hreads hle _ hcooldown hlt => ?_⟩
        obtain rfl := hreads k (by simp)
        obtain rfl : i = k.toNat := by omega
        exact (cooldownMs_of_lt hcooldown hlt).symm

-- A gate that lets the attempt go on has read what it needs.
theorem keeping_cooldownGate (hcheck : v.checking = true) (hstage : v.stage = .out)
    (hempty : v.gate = .empty) :
    Keeping raw cooldownGate (fun passed v' =>
      ∃ gate, v' = { v with gate := gate } ∧ gate.attempts.isSome ∧ (passed = true → gate.Passes)) v := by
  refine keeping_get fun attempts => ?_
  have hread : v.next (.get .recoverAttemptCount) attempts =
      { v with gate := ⟨some attempts, [], none, none⟩ } := by
    simp [View.next, hcheck, hstage, hempty, Gate.empty]
  rw [hread]
  split
  · refine follows_seq (keeping_cooldownFrom (v := { v with gate := ⟨some attempts, [], none, none⟩ })
      hcheck hstage 256 0 RECOVER_COOLDOWN_MS) ?_
    rintro cooldown _ ⟨reads, rfl, hcooldown⟩
    refine keeping_uptime fun now => keeping_get fun last => ?_
    refine ⟨⟨some attempts, reads, some now, some last⟩, ?_, rfl, fun hpassed streak hreads => .inr ?_⟩
    · simp [View.next, hcheck, hstage, Stage.owns]
    · refine ⟨now, last, rfl, rfl, ?_⟩
      have hresult := hcooldown streak hreads (by omega) rfl (by decide) (by decide)
      simpa [hresult] using hpassed
  · rename_i hzero
    refine ⟨_, rfl, rfl, fun _ streak _ => .inl ?_⟩
    have hattempts : attempts = 0 := by
      simpa using hzero
    rw [hattempts]

theorem keeping_probeFrom (hfree : v.Free raw) (rounds i : Nat) :
    Keeping raw (probeFrom cfg rounds i) (fun _ v' => v' = v) v := by
  induction rounds generalizing i with
  | zero => rfl
  | succ rounds ih =>
      have hgap : Keeping raw (do
          if i + 1 < LINK_PROBE_TRIES then delay LINK_PROBE_GAP_MS
          probeFrom cfg rounds (i + 1)) (fun _ v' => v' = v) v := by
        dsimp only
        split
        · exact keeping_delay (ih (i + 1))
        · exact ih (i + 1)
      refine follows_seq (keeping_ping cfg hfree) ?_
      rintro s _ rfl
      match s with
      | .ok () => rfl
      | .error err =>
          dsimp only
          split
          · refine follows_seq (keeping_linkResync cfg hfree (i == 1)) ?_
            rintro ran _ rfl
            cases ran with
            | true => exact ih (i + 1)
            | false => exact hgap
          · exact hgap

-- What an automatic attempt leaves behind.
theorem View.Free.settles {v' : View} (hfree : v.Free raw) (h : v.Settles v') : v'.Free raw := by
  obtain ⟨gate, stamp, flag, rfl⟩ := h
  exact ⟨hfree.holds, hfree.stage, hfree.fresh, hfree.cleared⟩

theorem keeping_checkAndRecover (hfree : v.Free raw) (hcheck : v.checking = true)
    (hempty : v.gate = .empty) :
    Keeping raw (checkAndRecover cfg) (fun _ v' => v.Settles v') v := by
  refine follows_seq (keeping_cooldownGate hcheck hfree.stage hempty) ?_
  rintro passed _ ⟨gate, rfl, hattempts, hpasses⟩
  have hsettled : v.Settles { v with gate := gate } := ⟨gate, v.stamp, v.flag, rfl⟩
  have hfree' : View.Free raw { v with gate := gate } := hfree.settles hsettled
  have hread : ∀ n, View.next { v with gate := gate } (.get .recoverAttemptCount) n =
      { v with gate := gate } := by
    intro n
    obtain ⟨m, hm⟩ := Option.isSome_iff_exists.mp hattempts
    cases gate
    simp_all [View.next, hfree.stage]
  cases passed with
  | false => exact hsettled
  | true =>
      refine keeping_get_plain (f := .recovering) trivial fun recovering => ?_
      cases recovering with
      | true => exact hsettled
      | false =>
          refine keeping_get fun before => ?_
          rw [hread]
          refine follows_seq (keeping_probeFrom cfg hfree' LINK_PROBE_TRIES 0) ?_
          rintro up _ rfl
          cases up with
          | true => exact hsettled
          | false =>
              refine keeping_get fun attempts => ?_
              rw [hread]
              split
              · refine follows_seq (keeping_recover cfg hfree' fun _ => hpasses rfl) ?_
                rintro _ _ ⟨gate', stamp, flag, rfl⟩
                exact ⟨gate', stamp, flag, rfl⟩
              · exact hsettled

theorem keeping_linkCheckAndRecover (hfree : v.Free raw) (hcheck : v.checking = false) :
    Keeping raw (linkCheckAndRecover cfg) (fun _ v' => v.Settles v') v := by
  unfold linkCheckAndRecover
  split
  · refine keeping_note ⟨hfree.stage, hfree.holds, hcheck⟩ (keeping_get fun active => ?_)
    have henter : View.next (v.next (.note .enterCheck) ()) (.get .otaSessionActive) active =
        { v with checking := true, gate := .empty } := by
      simp [View.next, hfree.stage]
    rw [henter]
    have hleave : ∀ w : View, View.Settles { v with checking := true, gate := .empty } w →
        Keeping raw (note .leaveCheck) (fun _ v' => v.Settles v') w := by
      rintro _ ⟨gate, stamp, flag, rfl⟩
      refine ⟨⟨hfree.stage, hfree.holds⟩, fun _ => ⟨gate, stamp, flag, ?_⟩⟩
      cases v
      simp_all [discipline, View.next]
    cases active with
    | true => exact hleave _ ⟨_, _, _, rfl⟩
    | false =>
        have hfree' : View.Free raw { v with checking := true, gate := .empty } :=
          ⟨hfree.holds, hfree.stage, hfree.fresh, hfree.cleared⟩
        exact follows_seq (keeping_checkAndRecover cfg hfree' rfl rfl) fun _ w hw => hleave w hw
  · exact ⟨v.gate, v.stamp, v.flag, rfl⟩

theorem keeping_pollExit (hfree : v.Free raw) (hcheck : v.checking = false) (s : Status) (noStatus : Bool) :
    Keeping raw (pollExit cfg s noStatus) (fun _ v' => v.Settles v') v := by
  unfold pollExit
  split
  · refine follows_seq (keeping_linkCheckAndRecover cfg hfree hcheck) ?_
    rintro _ _ hv
    exact hv
  · exact ⟨v.gate, v.stamp, v.flag, rfl⟩

theorem next_uptime_out (hstage : v.stage = .out) (hcheck : v.checking = false) (ms : UInt64) :
    v.next .uptime ms = v := by
  cases v
  simp_all [View.next, Stage.owns]

theorem keeping_pollWait (hstage : v.stage = .out) (hcheck : v.checking = false) (deadlineMs : UInt64)
    (gap : Nat) : Keeping raw (pollWait deadlineMs gap) (fun _ v' => v' = v) v := by
  refine keeping_uptime fun now => ?_
  rw [next_uptime_out hstage hcheck now]
  split
  · rfl
  · exact keeping_delay rfl

end Check

section Poll

variable {raw : Bool} {v : View} (cfg : Config)

theorem View.settles_refl (v : View) : v.Settles v := ⟨v.gate, v.stamp, v.flag, rfl⟩

theorem View.Settles.trans {v' v'' : View} (h : v.Settles v') (h' : v'.Settles v'') : v.Settles v'' := by
  obtain ⟨gate, stamp, flag, rfl⟩ := h
  obtain ⟨gate', stamp', flag', rfl⟩ := h'
  exact ⟨gate', stamp', flag', rfl⟩

theorem View.Settles.checking {v' : View} (h : v.Settles v') (hcheck : v.checking = false) :
    v'.checking = false := by
  obtain ⟨gate, stamp, flag, rfl⟩ := h
  exact hcheck

-- The thread may send the frame: outside of a socket call, or in the one whose handle it
-- carries.
def Ready (raw : Bool) (v : View) (frame : Frame) : Option UInt16 → Prop
  | none => Loose raw frame.cmd
  | some handle =>
      (raw = true ∧ v.socket = none) ∨
        (frame.payload.take 2 = handleBytes handle ∧
          ∃ call, v.socket = some call ∧ call.handle = handle ∧ call.current = some true)

theorem Ready.settles {v' : View} {frame : Frame} {handle : Option UInt16}
    (h : Ready raw v frame handle) (hsettles : v.Settles v') : Ready raw v' frame handle := by
  obtain ⟨gate, stamp, flag, rfl⟩ := hsettles
  exact h

theorem keeping_handleCurrent {frame : Frame} {handle : Option UInt16} (hfree : v.Free raw)
    (hready : Ready raw v frame handle) :
    Keeping raw (handleCurrent handle) (fun ok v' =>
      ∃ fresh, v' = { v with holds := true, fresh := fresh } ∧ (ok = true → v'.MayClock raw frame))
      { v with holds := true } := by
  cases handle with
  | none => exact ⟨v.fresh, rfl, fun _ => mayClock_loose hfree hready⟩
  | some handle =>
      rcases hready with ⟨hraw, hnone⟩ | ⟨hbytes, call, hcall, rfl, hcurrent⟩
      · refine keeping_get fun epoch => ⟨false, by simp [View.next, hnone, hfree.stage], fun _ => ?_⟩
        exact ⟨by simp [View.next], .inl hraw, .inl (by simp [View.next, hfree.stage]), fun _ => .inl hraw⟩
      · refine keeping_get fun epoch => ⟨handleEpoch call.handle == epoch, ?_, ?_⟩
        · have hstage := hfree.stage
          cases v
          cases call
          simp_all [View.next]
        · intro hmatch
          have hsocket : (View.next { v with holds := true } (.get .linkEpoch) epoch).socket = some call := by
            cases call
            simp_all [View.next, hfree.stage]
          refine ⟨by simp [View.next], .inr fun call' hcall' => ?_, .inl (by simp [View.next, hfree.stage]),
            fun _ => .inr ⟨call, hsocket, ?_, .inl hbytes⟩⟩
          · obtain rfl := Option.some.inj (hsocket.symm.trans hcall')
            exact hcurrent
          · simpa [View.next, hcall] using hmatch

-- The thread holds the lock, and is back in `P` without it.
def View.Holding (P : View → Prop) (v : View) : Prop :=
  v.holds = true ∧ v.stage = .out ∧ P { v with holds := false, fresh := false }

-- What a retry loop may start every round from: nothing that an automatic attempt records ends it.
structure View.Rounds (raw : Bool) (P : View → Prop) : Prop where
  free : ∀ v, P v → v.Free raw
  checking : ∀ v, P v → v.checking = false
  settles : ∀ v v', P v → v.Settles v' → P v'

-- By induction on the fuel: the rest of the loop starts from `P` again, whatever a round has done.
theorem keeping_pollLoop {P : View → Prop} {attempt : Driver Answer} {handle : Option UInt16}
    (deadlineMs : UInt64) (hP : View.Rounds raw P)
    (hlook : ∀ w, P w → Keeping raw (handleCurrent handle) (fun ok w' => w'.Holding P ∧
      (ok = true → Keeping raw attempt (fun _ w'' => w''.Holding P) w')) { w with holds := true })
    (fuel gap : Nat) (decoded first : Bool) (data : List UInt8) (hv : P v) :
    Keeping raw (pollLoop cfg attempt deadlineMs handle fuel gap decoded first data) (fun _ v' => P v') v := by
  induction fuel generalizing v gap decoded first data with
  | zero => exact ⟨trivial, fun reply => reply.elim⟩
  | succ fuel ih =>
      have hexit : ∀ (w : View) (s : Status) (noStatus : Bool) (data : List UInt8), P w →
          Keeping raw (do
            let s ← pollExit cfg s noStatus
            pure (s, data)) (fun _ v' => P v') w := by
        intro w s noStatus data hw
        refine follows_seq (keeping_pollExit cfg (hP.free w hw) (hP.checking w hw) s noStatus) ?_
        exact fun _ v' hsettles => hP.settles w v' hw hsettles
      have hagain : ∀ (w : View) (decoded : Bool) (data : List UInt8), P w →
          Keeping raw (do
            if ← pollWait deadlineMs gap then
              pollLoop cfg attempt deadlineMs handle fuel (nextGap gap) decoded false data
            else
              let s ← pollExit cfg (.error .timeout) !decoded
              pure (s, data)) (fun _ v' => P v') w := by
        intro w decoded data hw
        refine follows_seq (keeping_pollWait (hP.free w hw).stage (hP.checking w hw) deadlineMs gap) ?_
        rintro more _ rfl
        cases more with
        | true => exact ih (nextGap gap) decoded false data hw
        | false => exact hexit _ _ _ _ hw
      have hunlock : ∀ w : View, w.Holding P → Keeping raw lockRelease (fun _ w' => P w') w := by
        rintro w ⟨hholds, hstage, hw⟩
        refine follows_mono (keeping_lockRelease hholds (.inl hstage)) ?_
        rintro _ _ rfl
        exact hw
      refine follows_seq (keeping_lockAcquire cfg (hP.free v hv).holds) ?_
      rintro s _ (⟨rfl, rfl⟩ | ⟨rfl, rfl⟩)
      · refine follows_seq (hlook v hv) ?_
        rintro current w ⟨hw, hattempt⟩
        cases current with
        | false => exact follows_seq (hunlock w hw) fun _ w' hw' => hw'
        | true =>
            refine follows_seq (hattempt rfl) fun answer w hw => ?_
            refine follows_seq (hunlock w hw) fun _ w hw => ?_
            dsimp only
            split
            · exact hexit _ _ _ _ hw
            · split
              · split
                · exact keeping_delay (hexit _ _ _ _ hw)
                · exact hexit _ _ _ _ hw
              · exact hagain _ _ _ hw
      · cases first with
        | true => exact hv
        | false => exact hagain _ decoded data hv

theorem keeping_pollAttempts {P : View → Prop} {attempt : Driver Answer} {handle : Option UInt16} (len : Nat)
    (timeoutMs : UInt32) (hP : View.Rounds raw P)
    (hlook : ∀ w, P w → Keeping raw (handleCurrent handle) (fun ok w' => w'.Holding P ∧
      (ok = true → Keeping raw attempt (fun _ w'' => w''.Holding P) w')) { w with holds := true })
    (hv : P v) : Keeping raw (pollAttempts cfg len attempt timeoutMs handle) (fun _ v' => P v') v := by
  refine keeping_get_plain (f := .initialised) trivial fun initialised => ?_
  split
  · refine follows_seq (keeping_fits len) ?_
    rintro fit _ rfl
    split
    · refine keeping_uptime fun now => ?_
      have hnow : View.next _ .uptime now = _ := next_uptime_out (hP.free _ hv).stage (hP.checking _ hv) now
      rw [hnow]
      exact keeping_pollLoop cfg _ hP hlook cfg.fuel cfg.pollGapMinMs false true [] hv
    · exact hv
  · exact hv

theorem keeping_pollByRepeatSeq {frame : Frame} {handle : Option UInt16} (rxCap : Nat)
    (timeoutMs : UInt32) (hfree : v.Free raw) (hcheck : v.checking = false)
    (hready : Ready raw v frame handle) :
    Keeping raw (pollByRepeatSeq cfg frame rxCap timeoutMs handle) (fun _ v' => v.Settles v') v := by
  have hrounds : View.Rounds raw fun w => v.Settles w :=
    ⟨fun _ hw => hfree.settles hw, fun _ hw => hw.checking hcheck, fun _ _ hw hsettles => hw.trans hsettles⟩
  refine keeping_pollAttempts cfg frame.payload.length timeoutMs hrounds (fun w hw => ?_) (View.settles_refl v)
  have hfree' := hfree.settles hw
  refine follows_mono (keeping_handleCurrent hfree' (hready.settles hw)) ?_
  rintro ok _ ⟨fresh, rfl, hmay⟩
  have hback : View.Holding (fun w => v.Settles w) { w with holds := true, fresh := fresh } :=
    ⟨rfl, hfree'.stage, by rw [unlocked hfree']; exact hw⟩
  refine ⟨hback, fun hok => follows_mono (keeping_requestLocked (hmay hok) hfree'.stage) ?_⟩
  rintro answer _ rfl
  exact hback

theorem keeping_nextReqSeq : Keeping raw nextReqSeq (fun _ v' => v' = v) v := by
  refine keeping_get_plain (f := .initialised) trivial fun initialised => ?_
  split
  · refine keeping_get_plain (f := .reqSeq) trivial fun seq => ?_
    refine keeping_set_plain (f := .reqSeq) trivial nofun ?_
    exact ⟨trivial, fun _ => View.next_get_plain (f := .reqSeq) trivial _⟩
  · rfl

theorem keeping_pollByRepeat {cmd : Opcode} (payload : List UInt8) (rxCap : Nat) (timeoutMs : UInt32)
    (hfree : v.Free raw) (hcheck : v.checking = false) (hloose : Loose raw cmd) :
    Keeping raw (pollByRepeat cfg cmd payload rxCap timeoutMs) (fun _ v' => v.Settles v') v := by
  refine follows_seq keeping_nextReqSeq ?_
  rintro seq _ rfl
  exact keeping_pollByRepeatSeq cfg rxCap timeoutMs hfree hcheck hloose

end Poll

end AlpSdk.Cc3501e
