import AlpSdk.Library.Effect
import AlpSdk.Status

-- The host driver of the CC3501E bridge: the exchange and its lock, the resets, the recovery
-- and the retry loop (chips/cc3501e/cc3501e_core.c, chips/cc3501e/cc3501e_diag.c).
namespace AlpSdk.Cc3501e

open Library.Effect

def MAX_PAYLOAD : Nat := 4096
def CRC_BYTES : Nat := 2
def PROTOCOL_MAJOR : UInt8 := 4
def PROTOCOL_MAJOR_LEGACY : UInt8 := 3
def REQ_SEQ_NONE : UInt8 := 0
def REQ_SEQ_LAST : UInt8 := 31
def RESP_ERR_RADIO : UInt8 := 0x06
def RESP_ERR_PROTOCOL : UInt8 := 0x07
def RESP_ERR_STATE : UInt8 := 0x09
def RESP_ERR_INTERNAL : UInt8 := 0xFF
def RX_SCRATCH_NO_STATUS : UInt8 := 0xDA
def LINK_PROBE_TRIES : Nat := 24
def LINK_PROBE_GAP_MS : Nat := 500
def RECOVER_COOLDOWN_MS : Nat := 30000
def RECOVER_COOLDOWN_MAX_MS : Nat := 300000
def RESYNC_STALL_QUIET_MS : Nat := 300
def RESYNC_SETTLE_MS : Nat := 150
def RESET_VERSION_ATTEMPTS : Nat := 3
def RESET_VERSION_BACKOFF_MS : Nat := 200
def POLL_GAP_MS : Nat := 50

inductive Opcode where
  | ping
  | getVersion
  | getDiagInfo
  | getCapabilities
  | sockOpen
  | sockConnect
  | sockSend
  | sockRecv
  | sockClose
  | sockBind
  | sockListen
  | otaBegin
  | otaWrite
  | otaFinish
  | otaAbort
  | otaStatus
  | otaPromote
  | otaUpdateMode
  | wifiScanStart
  deriving DecidableEq

-- A request as `cc3501e_request_locked` builds it. `seq` is the retry identity in its flags.
structure Frame where
  cmd : Opcode
  payload : List UInt8
  seq : UInt8
  deriving DecidableEq

-- The SPI transfers of one exchange before its reply payload.
inductive Transfer where
  | requestHeader
  | requestPayload
  | replyHeader
  deriving DecidableEq

-- What an exchange leaves behind: its status, `rx_scratch[0]`, and the reply data up to the
-- capacity of the caller's buffer.
structure Answer where
  status : Status
  resp : UInt8
  data : List UInt8

def Answer.undecoded (err : AlpError) : Answer := ⟨.error err, RX_SCRATCH_NO_STATUS, []⟩

inductive Pin where
  | reset
  | enable
  deriving DecidableEq

-- The fields of `cc3501e_t` that these functions share, and the file's `g_peer_polled`. The
-- timing of the SPI phases, `fw_proto_minor`, the link-failure ring and the latches of other
-- subsystems, which no branch here depends on, are left out.
inductive Field where
  | initialised
  | fwProtoMajor
  | reqSeq
  | sockSendSeq
  | sockRecvSeq
  | sockBusy
  | sockBuf
  | wifiScanBusy
  | linkEpoch
  | otaSessionActive
  | requestLock
  | recovering
  | recoverCount
  | recoverAttemptCount
  | lastRecoverMs
  | recoverFailStreak
  | peerPolled
  deriving DecidableEq

abbrev Field.Val : Field → Type
  | initialised | sockBusy | wifiScanBusy | otaSessionActive | requestLock | recovering | peerPolled => Bool
  | fwProtoMajor | reqSeq | sockSendSeq | sockRecvSeq | linkEpoch | recoverFailStreak => UInt8
  | recoverCount | recoverAttemptCount => UInt32
  | lastRecoverMs => UInt64
  | sockBuf => List UInt8

structure Ctx where
  initialised : Bool
  fwProtoMajor : UInt8
  reqSeq : UInt8
  sockSendSeq : UInt8
  sockRecvSeq : UInt8
  sockBusy : Bool
  sockBuf : List UInt8
  wifiScanBusy : Bool
  linkEpoch : UInt8
  otaSessionActive : Bool
  requestLock : Bool
  recovering : Bool
  recoverCount : UInt32
  recoverAttemptCount : UInt32
  lastRecoverMs : UInt64
  recoverFailStreak : UInt8
  peerPolled : Bool
  deriving DecidableEq

def Ctx.get (ctx : Ctx) : (f : Field) → f.Val
  | .initialised => ctx.initialised
  | .fwProtoMajor => ctx.fwProtoMajor
  | .reqSeq => ctx.reqSeq
  | .sockSendSeq => ctx.sockSendSeq
  | .sockRecvSeq => ctx.sockRecvSeq
  | .sockBusy => ctx.sockBusy
  | .sockBuf => ctx.sockBuf
  | .wifiScanBusy => ctx.wifiScanBusy
  | .linkEpoch => ctx.linkEpoch
  | .otaSessionActive => ctx.otaSessionActive
  | .requestLock => ctx.requestLock
  | .recovering => ctx.recovering
  | .recoverCount => ctx.recoverCount
  | .recoverAttemptCount => ctx.recoverAttemptCount
  | .lastRecoverMs => ctx.lastRecoverMs
  | .recoverFailStreak => ctx.recoverFailStreak
  | .peerPolled => ctx.peerPolled

def Ctx.set (ctx : Ctx) : (f : Field) → f.Val → Ctx
  | .initialised, v => { ctx with initialised := v }
  | .fwProtoMajor, v => { ctx with fwProtoMajor := v }
  | .reqSeq, v => { ctx with reqSeq := v }
  | .sockSendSeq, v => { ctx with sockSendSeq := v }
  | .sockRecvSeq, v => { ctx with sockRecvSeq := v }
  | .sockBusy, v => { ctx with sockBusy := v }
  | .sockBuf, v => { ctx with sockBuf := v }
  | .wifiScanBusy, v => { ctx with wifiScanBusy := v }
  | .linkEpoch, v => { ctx with linkEpoch := v }
  | .otaSessionActive, v => { ctx with otaSessionActive := v }
  | .requestLock, v => { ctx with requestLock := v }
  | .recovering, v => { ctx with recovering := v }
  | .recoverCount, v => { ctx with recoverCount := v }
  | .recoverAttemptCount, v => { ctx with recoverAttemptCount := v }
  | .lastRecoverMs, v => { ctx with lastRecoverMs := v }
  | .recoverFailStreak, v => { ctx with recoverFailStreak := v }
  | .peerPolled, v => { ctx with peerPolled := v }

-- A buffer with some bytes written over it from an offset on.
def overlay (off : Nat) (bytes buf : List UInt8) : List UInt8 :=
  buf.take off ++ bytes ++ buf.drop (off + bytes.length)

-- The two flags that are taken by a compare-and-swap.
inductive Flag where
  | requestLock
  | recovering
  deriving DecidableEq

-- Points of the code that the claims about runs speak of; they touch no memory.
inductive Note where
  -- the entry of `cc3501e_recover`, and a return before it owns the recovery
  | enterRecover
  | leaveRecover (s : Status)
  | enterCheck
  | leaveCheck
  -- `cc3501e_ota_update_mode` has entered the boot for an update; a call leaves it
  | sessionOpened
  | sessionLeft
  -- a socket call with the handle it was given; the handle `cc3501e_sock_open` returns
  | enterSocket (handle : UInt16)
  | leaveSocket (s : Status)
  | opened (handle : UInt16)

inductive Cmd where
  | get (f : Field)
  | set (f : Field) (v : f.Val)
  -- bytes written into `sock_buf`, the scratch buffer that the socket calls share
  | stage (off : Nat) (bytes : List UInt8)
  | claim (flag : Flag)
  -- one SPI transfer of an exchange, which goes on unless it gives an error: of the transfer,
  -- of the in-band armed check or of the check of the reply header
  | clock (transfer : Transfer) (frame : Frame)
  -- the reply payload and its verdict
  | collect (frame : Frame)
  | resync (header : List UInt8)
  | write (pin : Pin) (level : Bool)
  | delay (ms : Nat)
  | uptime
  -- `recover_cb`. What the application calls on the context in it, another thread may as
  -- well be calling while this one stands here.
  | callback (recoverCount : UInt32)
  | note (n : Note)
  -- the release store of `recovering`, and the return of `cc3501e_recover` that follows it
  | releaseRecover (s : Status)
  -- where a retry loop is cut: the command has no reply
  | stall

abbrev bridge : Signature where
  Cmd := Cmd
  Reply
    | .get f => f.Val
    | .claim _ => Bool
    | .clock _ _ => Option AlpError
    | .collect _ => Except AlpError Answer
    | .uptime => UInt64
    | .stall => Empty
    | .set _ _ | .stage _ _ | .resync _ | .write _ _ | .delay _ | .callback _ | .note _
    | .releaseRecover _ => Unit

abbrev Driver : Type → Type := Prog bridge

def perform (cmd : bridge.Cmd) : Driver (bridge.Reply cmd) := Prog.perform cmd

def get (f : Field) : Driver f.Val := perform (Cmd.get f)
def set (f : Field) (v : f.Val) : Driver Unit := perform (Cmd.set f v)
def stage (off : Nat) (bytes : List UInt8) : Driver Unit := perform (Cmd.stage off bytes)
def claim (flag : Flag) : Driver Bool := perform (Cmd.claim flag)
def write (pin : Pin) (level : Bool) : Driver Unit := perform (Cmd.write pin level)
def delay (ms : Nat) : Driver Unit := perform (Cmd.delay ms)
def uptime : Driver UInt64 := perform Cmd.uptime
def note (n : Note) : Driver Unit := perform (Cmd.note n)
def stall {α : Type} : Driver α := perform Cmd.stall >>= fun reply : Empty => reply.elim

-- The build and the board: the Kconfig knobs, which pins are wired, whether a recovery
-- callback is registered, and where the unbounded retry loops are cut. `bus`, which
-- `cc3501e_init` requires and only `cc3501e_deinit` clears, is not NULL here.
structure Config where
  lockTimeoutMs : Nat
  autoRecover : Bool
  pollGapMinMs : Nat
  postSuccessGuardMs : Nat
  resetPin : Bool
  enablePin : Bool
  recoverCb : Bool
  fuel : Nat

def lockTry : Driver Bool := claim .requestLock

def lockAcquireWithin : Nat → Driver Status
  | 0 => pure (.error .busy)
  | waits + 1 => do
      delay 1
      if ← lockTry then pure (.ok ()) else lockAcquireWithin waits

variable (cfg : Config)

def lockAcquire : Driver Status := do
  if ← lockTry then pure (.ok ()) else lockAcquireWithin cfg.lockTimeoutMs

def lockRelease : Driver Unit := set .requestLock false

-- The exchange goes on after a transfer that succeeded.
def clock (transfer : Transfer) (frame : Frame) (next : Driver Answer) : Driver Answer := do
  match ← perform (Cmd.clock transfer frame) with
  | some err => pure (.undecoded err)
  | none => next

def collect (frame : Frame) (rxCap : Nat) : Driver Answer := do
  match ← perform (Cmd.collect frame) with
  | .error err => pure (.undecoded err)
  | .ok answer => pure { answer with data := answer.data.take rxCap }

-- One exchange. The payload is read where it stands: for the CRC, which begins before the header
-- is clocked, and again for its own transfer.
def exchange (cmd : Opcode) (seq : UInt8) (len : Nat) (payload : Driver (List UInt8)) (rxCap : Nat) :
    Driver Answer := do
  let major ← get .fwProtoMajor
  let wireTxLen := len + if PROTOCOL_MAJOR ≤ major then CRC_BYTES else 0
  let header : Frame := ⟨cmd, ← payload, seq⟩
  clock .requestHeader header <|
    if 0 < wireTxLen then do
      let frame : Frame := ⟨cmd, ← payload, seq⟩
      clock .requestPayload frame (clock .replyHeader frame (collect frame rxCap))
    else clock .replyHeader header (collect header rxCap)

-- The exchange of a frame that stands in the caller's own memory.
def requestLocked (frame : Frame) (rxCap : Nat) : Driver Answer :=
  exchange frame.cmd frame.seq frame.payload.length (pure frame.payload) rxCap

-- The length check of `cc3501e_request` and `poll_by_repeat_seq`.
def fits (len : Nat) : Driver Bool := do
  let major ← get .fwProtoMajor
  pure (len ≤ if PROTOCOL_MAJOR ≤ major then MAX_PAYLOAD - CRC_BYTES else MAX_PAYLOAD)

def request (cmd : Opcode) (payload : List UInt8) (rxCap : Nat) : Driver (Status × List UInt8) := do
  if ← get .initialised then
    if ← fits payload.length then
      match ← lockAcquire cfg with
      | .error err => pure (.error err, [])
      | .ok () =>
          let answer ← requestLocked ⟨cmd, payload, REQ_SEQ_NONE⟩ rxCap
          lockRelease
          pure (answer.status, answer.data)
    else pure (.error .inval, [])
  else pure (.error .notReady, [])

def ping : Driver Status := do
  let (s, _) ← request cfg .ping [] 0
  pure s

-- The major byte of `*version_out`.
def getVersion : Driver (Except AlpError UInt8) := do
  match ← request cfg .getVersion [] 2 with
  | (.error err, _) => pure (.error err)
  | (.ok (), [_, major]) => pure (.ok major)
  | (.ok (), _) => pure (.error .io)

-- `*caps_out` is only read for the timing of later exchanges.
def getCapabilities : Driver Status := do
  match ← request cfg .getCapabilities [] 8 with
  | (.error err, _) => pure (.error err)
  | (.ok (), data) => pure (if data.length < 4 then .error .io else .ok ())

-- `alp_gpio_write` on a pin that is not wired does nothing.
def pinWrite (pin : Pin) (level : Bool) : Driver Unit :=
  let wired := match pin with
    | .reset => cfg.resetPin
    | .enable => cfg.enablePin
  if wired then write pin level else pure ()

def hardReset : Driver Status := do
  if cfg.resetPin then
    set .otaSessionActive false
    pinWrite cfg .reset false
    delay 50
    pinWrite cfg .reset true
    delay 3500
    pure (.ok ())
  else pure (.error .nosupport)

def powerOff : Driver Status := do
  if cfg.enablePin then
    pinWrite cfg .reset false
    pinWrite cfg .enable false
    set .initialised false
    pure (.ok ())
  else pure (.error .notPresentOnThisSoc)

def fwMajorIsAcceptable (major : UInt8) : Bool :=
  major == PROTOCOL_MAJOR || major == PROTOCOL_MAJOR_LEGACY

-- The retries of the GET_VERSION in `cc3501e_reset` after its first one.
def retryVersion : Nat → Except AlpError UInt8 → Driver (Except AlpError UInt8)
  | _, .ok major => pure (.ok major)
  | 0, .error err => pure (.error err)
  | attempts + 1, .error _ => do
      delay RESET_VERSION_BACKOFF_MS
      retryVersion attempts (← getVersion cfg)

def reset : Driver Status := do
  if cfg.resetPin && cfg.enablePin then
    set .otaSessionActive false
    pinWrite cfg .reset false
    pinWrite cfg .enable false
    delay 50
    pinWrite cfg .enable true
    delay 100
    pinWrite cfg .reset false
    delay 1
    pinWrite cfg .reset true
    delay 1500
    match ← hardReset cfg with
    | .error err => pure (.error err)
    | .ok () =>
        set .initialised true
        let priorMajor ← get .fwProtoMajor
        set .fwProtoMajor 0
        match ← retryVersion cfg (RESET_VERSION_ATTEMPTS - 1) (← getVersion cfg) with
        | .error _ =>
            if priorMajor = 0 then
              set .initialised false
              pure (.error .timeout)
            else
              set .fwProtoMajor priorMajor
              pure (.ok ())
        | .ok major =>
            if fwMajorIsAcceptable major then
              set .fwProtoMajor major
              let _ ← getCapabilities cfg
              pure (.ok ())
            else
              set .initialised false
              set .fwProtoMajor major
              pure (.error .version)
  else pure (.error .nosupport)

-- The epoch after a recovery, which skips 0.
def nextEpoch (epoch : UInt8) : UInt8 := if 0xFF ≤ epoch then 1 else epoch + 1

def recoverClearStaleState : Driver Unit := do
  set .sockBusy false
  set .wifiScanBusy false
  let epoch ← get .linkEpoch
  set .linkEpoch (nextEpoch epoch)

-- The major that a GET_VERSION reports; none for a reply that is not complete.
def Answer.major (answer : Answer) : Option UInt8 :=
  match answer.status, answer.data.take 2 with
  | .ok (), [_, major] => some major
  | _, _ => none

-- The GET_VERSION after a PING that answered. A reply that is not complete is no verdict.
def recoverVersion : Driver Status := do
  let version ← requestLocked ⟨.getVersion, [], REQ_SEQ_NONE⟩ 2
  match version.major with
  | none => pure (.ok ())
  | some major =>
      if fwMajorIsAcceptable major then
        set .fwProtoMajor major
        pure (.ok ())
      else
        set .fwProtoMajor 0
        set .initialised false
        pure (.error .version)

-- The confirmation of a warm reset, under the lock that covered it.
def recoverConfirm : Driver Status := do
  let answer ← requestLocked ⟨.ping, [], REQ_SEQ_NONE⟩ 0
  match answer.status with
  | .error err => pure (.error err)
  | .ok () =>
      match ← recoverVersion with
      | .error err => pure (.error err)
      | .ok () =>
          recoverClearStaleState
          pure (.ok ())

-- The reset of `cc3501e_recover`, which holds the lock where it begins and not where it ends.
def recoverReset : Driver Status := do
  match ← hardReset cfg with
  | .error _ =>
      lockRelease
      let _ ← powerOff cfg
      match ← reset cfg with
      | .error err => pure (.error err)
      | .ok () =>
          recoverClearStaleState
          pure (.ok ())
  | .ok () =>
      let final ← recoverConfirm
      lockRelease
      pure final

-- The attempt bookkeeping.
def recoverAccount (final : Status) : Driver Unit := do
  set .lastRecoverMs (← uptime)
  let attempts ← get .recoverAttemptCount
  set .recoverAttemptCount (attempts + 1)
  match final with
  | .ok () =>
      set .recoverFailStreak 0
      let count ← get .recoverCount
      set .recoverCount (count + 1)
      if cfg.recoverCb then
        perform (Cmd.callback (← get .recoverCount))
  | .error _ =>
      if (← get .recoverFailStreak) < 0xFF then
        let streak ← get .recoverFailStreak
        set .recoverFailStreak (streak + 1)

def releaseRecover (s : Status) : Driver Status := do
  perform (Cmd.releaseRecover s)
  pure s

def leaveRecover (s : Status) : Driver Status := do
  note (.leaveRecover s)
  pure s

-- The rest of `cc3501e_recover` once `recovering` is claimed.
def recoverOwned : Driver Status := do
  match ← lockAcquire cfg with
  | .error err =>
      set .lastRecoverMs (← uptime)
      releaseRecover (.error err)
  | .ok () =>
      let final ← recoverReset cfg
      recoverAccount cfg final
      releaseRecover final

def recover : Driver Status := do
  note .enterRecover
  if ← get .otaSessionActive then leaveRecover (.error .busy)
  else if !cfg.resetPin then leaveRecover (.error .nosupport)
  else if ← claim .recovering then recoverOwned cfg
  else leaveRecover (.error .busy)

def STALL_HDR : List UInt8 := [0x00, 0x01, 0x10, 0x00]
def RESYNC_HDR : List UInt8 := [0xFF, 0xFF, 0xFF, 0xFF]

-- Whether the in-band resync ran.
def linkResync (stallFirst : Bool) : Driver Bool := do
  match ← lockAcquire cfg with
  | .error _ => pure false
  | .ok () =>
      if stallFirst then
        perform (Cmd.resync STALL_HDR)
        delay RESYNC_STALL_QUIET_MS
      perform (Cmd.resync RESYNC_HDR)
      perform (Cmd.resync RESYNC_HDR)
      perform (Cmd.resync RESYNC_HDR)
      delay RESYNC_SETTLE_MS
      lockRelease
      pure true

-- The back-off loop from round `i` on, which re-reads the streak in every round. Both are
-- uint8_t, so it makes at most 255 rounds.
def cooldownFrom : (rounds i cooldown : Nat) → Driver Nat
  | 0, _, cooldown => pure cooldown
  | rounds + 1, i, cooldown => do
      let streak ← get .recoverFailStreak
      if i < streak.toNat then
        if RECOVER_COOLDOWN_MAX_MS / 2 ≤ cooldown then pure RECOVER_COOLDOWN_MAX_MS
        else cooldownFrom rounds (i + 1) (cooldown * 2)
      else pure cooldown

-- Whether the back-off lets an automatic attempt go on.
def cooldownGate : Driver Bool := do
  if 0 < (← get .recoverAttemptCount) then
    let cooldown ← cooldownFrom 256 0 RECOVER_COOLDOWN_MS
    let now ← uptime
    let last ← get .lastRecoverMs
    pure (cooldown ≤ (now - last).toNat)
  else pure true

-- The PINGs of the probe from round `i` on; true once one answers.
def probeFrom : (rounds i : Nat) → Driver Bool
  | 0, _ => pure false
  | rounds + 1, i => do
      match ← ping cfg with
      | .ok () => pure true
      | .error _ =>
          if i < 3 then
            if ← linkResync cfg (i == 1) then probeFrom rounds (i + 1)
            else
              if i + 1 < LINK_PROBE_TRIES then delay LINK_PROBE_GAP_MS
              probeFrom rounds (i + 1)
          else
            if i + 1 < LINK_PROBE_TRIES then delay LINK_PROBE_GAP_MS
            probeFrom rounds (i + 1)

-- The part of `cc3501e_link_check_and_recover` past its early returns.
def checkAndRecover : Driver Unit := do
  if ← cooldownGate then
    if !(← get .recovering) then
      let attemptsBeforeProbe ← get .recoverAttemptCount
      if !(← probeFrom cfg LINK_PROBE_TRIES 0) then
        if (← get .recoverAttemptCount) = attemptsBeforeProbe then
          let _ ← recover cfg

-- No caller uses the status of `cc3501e_link_check_and_recover`.
def linkCheckAndRecover : Driver Unit := do
  if cfg.autoRecover && cfg.resetPin then
    note .enterCheck
    if !(← get .otaSessionActive) then checkAndRecover cfg
    note .leaveCheck

def pollExit (s : Status) (noStatus : Bool) : Driver Status := do
  if (s = .error .io ∨ s = .error .timeout) ∧ noStatus then linkCheckAndRecover cfg
  pure s

-- An answer that the retry loop does not repeat although its status is BUSY or IO.
def Answer.terminal (answer : Answer) : Bool :=
  (answer.status = .error .busy ∧ answer.resp = RESP_ERR_STATE) ∨
  (answer.status = .error .io ∧
    (answer.resp = RESP_ERR_RADIO ∨ answer.resp = RESP_ERR_PROTOCOL ∨
      answer.resp = RESP_ERR_INTERNAL))

def nextGap (gap : Nat) : Nat := if gap < POLL_GAP_MS then min (gap * 2) POLL_GAP_MS else gap

-- The wait before the next attempt; false once the deadline has passed.
def pollWait (deadlineMs : UInt64) (gap : Nat) : Driver Bool := do
  let nowMs ← uptime
  if deadlineMs ≤ nowMs then pure false
  else
    delay (min (deadlineMs - nowMs).toNat gap)
    pure true

def handleEpoch (handle : UInt16) : UInt8 := (handle >>> 8).toUInt8

-- The epoch check of one attempt, where the caller passes a socket handle.
def handleCurrent (handle : Option UInt16) : Driver Bool := do
  match handle with
  | none => pure true
  | some handle =>
      let epoch ← get .linkEpoch
      pure (handleEpoch handle = epoch)

-- The loop of `poll_by_repeat_seq` around the exchange `attempt`. `decoded` is whether any attempt
-- so far decoded a status, and `data` what `*rx_len` counts: only an attempt that goes out
-- clears it.
def pollLoop (attempt : Driver Answer) (deadlineMs : UInt64) (handle : Option UInt16) :
    (fuel gap : Nat) → (decoded first : Bool) → (data : List UInt8) → Driver (Status × List UInt8)
  | 0, _, _, _, _ => stall
  | fuel + 1, gap, decoded, first, data => do
      match ← lockAcquire cfg with
      | .error err =>
          if first then pure (.error err, data)
          else if ← pollWait deadlineMs gap then
            pollLoop attempt deadlineMs handle fuel (nextGap gap) decoded false data
          else
            let s ← pollExit cfg (.error .timeout) !decoded
            pure (s, data)
      | .ok () =>
          if ← handleCurrent handle then
            let answer ← attempt
            let decoded := decoded || answer.resp != RX_SCRATCH_NO_STATUS
            lockRelease
            if answer.terminal then
              let s ← pollExit cfg answer.status !decoded
              pure (s, answer.data)
            else if answer.status ≠ .error .busy ∧ answer.status ≠ .error .io then
              if answer.status = .ok () ∧ 0 < cfg.postSuccessGuardMs then
                delay cfg.postSuccessGuardMs
              let s ← pollExit cfg answer.status !decoded
              pure (s, answer.data)
            else if ← pollWait deadlineMs gap then
              pollLoop attempt deadlineMs handle fuel (nextGap gap) decoded false answer.data
            else
              let s ← pollExit cfg (.error .timeout) !decoded
              pure (s, answer.data)
          else
            lockRelease
            pure (.error .notReady, data)

-- `poll_by_repeat_seq` for a request of `len` bytes.
def pollAttempts (len : Nat) (attempt : Driver Answer) (timeoutMs : UInt32) (handle : Option UInt16) :
    Driver (Status × List UInt8) := do
  if ← get .initialised then
    if ← fits len then
      let nowMs ← uptime
      pollLoop cfg attempt (nowMs + timeoutMs.toUInt64) handle cfg.fuel cfg.pollGapMinMs false true []
    else pure (.error .inval, [])
  else pure (.error .notReady, [])

def pollByRepeatSeq (frame : Frame) (rxCap : Nat) (timeoutMs : UInt32) (handle : Option UInt16) :
    Driver (Status × List UInt8) :=
  pollAttempts cfg frame.payload.length (requestLocked frame rxCap) timeoutMs handle

-- The retry seq of one command, from the counter that all but SOCK_RECV share.
def nextReqSeq : Driver UInt8 := do
  if ← get .initialised then
    let seq ← get .reqSeq
    set .reqSeq (if REQ_SEQ_LAST ≤ seq then 1 else seq + 1)
    get .reqSeq
  else pure 0

def pollByRepeat (cmd : Opcode) (payload : List UInt8) (rxCap : Nat) (timeoutMs : UInt32) :
    Driver (Status × List UInt8) := do
  let seq ← nextReqSeq
  pollByRepeatSeq cfg ⟨cmd, payload, seq⟩ rxCap timeoutMs none

def pollByRepeatHandle (cmd : Opcode) (payload : List UInt8) (rxCap : Nat) (timeoutMs : UInt32)
    (handle : UInt16) : Driver (Status × List UInt8) := do
  let seq ← nextReqSeq
  pollByRepeatSeq cfg ⟨cmd, payload, seq⟩ rxCap timeoutMs (some handle)

end AlpSdk.Cc3501e
