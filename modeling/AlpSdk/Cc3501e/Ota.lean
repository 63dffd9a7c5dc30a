import AlpSdk.Cc3501e
import AlpSdk.Library.Bytes

-- The firmware update over the bridge (chips/cc3501e/cc3501e_ota.c).
namespace AlpSdk.Cc3501e

open Library.Effect Library.Bytes

def OTA_BLACKOUT_WAIT_MS : UInt32 := 60000
def OTA_BEGIN_BLIND_MS : Nat := 180000
def OTA_BLACKOUT_POLL_MS : UInt32 := 50
def OTA_BLACKOUT_POLL_TIMEOUT_MS : UInt32 := 200
def OTA_FLUSH_WAIT_MS : UInt32 := 600000
def OTA_FLUSH_POLL_MS : UInt32 := 50
def OTA_STALL_MAX : Nat := 8
def OTA_MAX_CHUNK : Nat := MAX_PAYLOAD - 4
def POLLED_OTA_CHUNK : Nat := 16
def UPDATE_MODE_SETTLE_MS : Nat := 3500
def UPDATE_MODE_POLL_MS : UInt32 := 250
def UPDATE_MODE_POLL_TIMEOUT_MS : UInt32 := 1200

def OTA_STATE_IDLE : UInt8 := 0
def OTA_STATE_WRITING : UInt8 := 1
def OTA_STATE_STAGED : UInt8 := 2
def OTA_STATE_ERROR : UInt8 := 3
def OTA_PENDING_STAGED : UInt8 := 2
def OTA_PENDING_TRIAL : UInt8 := 3
def OTA_PENDING_UNKNOWN : UInt8 := 0xFF

-- `alp_cc3501e_ota_status_t`: of its reserved bytes only `reserved[1]`, whether a flush is
-- pending, is read.
structure OtaStatus where
  state : UInt8
  flushPending : UInt8
  bytesWritten : UInt32
  totalLen : UInt32
  pending : UInt8

def getLe32 (off : Nat) (buf : List UInt8) : UInt32 := UInt32.ofNat (getLE (slice off 4 buf))

def OtaStatus.decode (reply : List UInt8) : OtaStatus where
  state := reply.getD 0 0
  flushPending := reply.getD 2 0
  bytesWritten := getLe32 4 reply
  totalLen := getLe32 8 reply
  pending := if 16 ≤ reply.length then reply.getD 12 0 else OTA_PENDING_UNKNOWN

variable (cfg : Config)

def otaStatus (timeoutMs : UInt32) : Driver (Except AlpError OtaStatus) := do
  match ← pollByRepeat cfg .otaStatus [] 16 timeoutMs with
  | (.error err, _) => pure (.error err)
  | (.ok (), reply) =>
      if reply.length < 12 then pure (.error .io) else pure (.ok (OtaStatus.decode reply))

-- The status polls of `ota_settled_as`, with the budget already charged.
def settleLoop (want : UInt8) (pollMs : UInt32) : (fuel : Nat) → (waited : UInt32) → Driver Status
  | 0, _ => stall
  | fuel + 1, waited => do
      let again : Driver Status := do
        if OTA_BLACKOUT_WAIT_MS ≤ waited then pure (.error .timeout)
        else
          delay OTA_BLACKOUT_POLL_MS.toNat
          settleLoop want pollMs fuel (waited + (OTA_BLACKOUT_POLL_MS + pollMs))
      match ← otaStatus cfg pollMs with
      | .error _ => again
      | .ok st =>
          if st.state = want then pure (.ok ())
          else if st.state = OTA_STATE_ERROR then pure (.error .io)
          else again

def otaSettledAs (want : UInt8) (timeoutMs : UInt32) : Driver Status :=
  settleLoop cfg want (min timeoutMs OTA_BLACKOUT_POLL_TIMEOUT_MS) cfg.fuel 0

def otaBegin (totalLen timeoutMs : UInt32) : Driver Status := do
  if ← get .peerPolled then
    let (s, _) ← request cfg .otaBegin (putLE 4 totalLen.toNat) 0
    if s ≠ .ok () ∧ s ≠ .error .busy then delay OTA_BEGIN_BLIND_MS
    match ← otaSettledAs cfg OTA_STATE_WRITING timeoutMs with
    | .ok () => pure (.ok ())
    | .error .io => pure (.error .io)
    | .error _ =>
        if s = .error .busy then
          delay OTA_BEGIN_BLIND_MS
          match ← otaSettledAs cfg OTA_STATE_WRITING timeoutMs with
          | .ok () => pure (.ok ())
          | .error .io => pure (.error .io)
          | .error _ => pure s
        else pure (if s = .ok () then .error .timeout else s)
  else pure (.error .notReady)

def otaWriteFrame (offset : UInt32) (data : List UInt8) : Driver Status := do
  let (s, _) ← request cfg .otaWrite (putLE 4 offset.toNat ++ data) 0
  pure s

-- The frames of a buffer that is too long for one, until the first that is not acked.
def otaWriteSplit : (rounds : Nat) → (offset : UInt32) → (data : List UInt8) → Driver Status
  | 0, _, _ => pure (.ok ())
  | rounds + 1, offset, data => do
      if data.isEmpty then pure (.ok ())
      else
        match ← otaWriteFrame cfg offset (data.take POLLED_OTA_CHUNK) with
        | .error err => pure (.error err)
        | .ok () =>
            otaWriteSplit rounds (offset + UInt32.ofNat (data.take POLLED_OTA_CHUNK).length)
              (data.drop POLLED_OTA_CHUNK)

def otaWrite (offset : UInt32) (data : List UInt8) : Driver Status := do
  if data.length = 0 ∨ OTA_MAX_CHUNK < data.length then pure (.error .inval)
  else if (← get .peerPolled) && POLLED_OTA_CHUNK < data.length then
    otaWriteSplit cfg data.length offset data
  else otaWriteFrame cfg offset data

-- What both confirmed exits of `cc3501e_ota_finish` do.
def otaFinishConfirmed : Driver Unit := do
  note .sessionLeft
  set .peerPolled false
  set .otaSessionActive false

def otaFinish (timeoutMs : UInt32) : Driver Status := do
  let (s, _) ← pollByRepeat cfg .otaFinish [] 0 timeoutMs
  if s = .ok () then
    otaFinishConfirmed
    pure (.ok ())
  else
    match ← otaSettledAs cfg OTA_STATE_STAGED timeoutMs with
    | .ok () =>
        otaFinishConfirmed
        pure (.ok ())
    | .error .io => pure (.error .io)
    | .error _ => pure s

def otaAbort (timeoutMs : UInt32) : Driver Status := do
  let (s, _) ← pollByRepeat cfg .otaAbort [] 0 timeoutMs
  pure s

def otaPromote (timeoutMs : UInt32) : Driver Status := do
  match ← otaStatus cfg timeoutMs with
  | .error err => pure (.error err)
  | .ok st =>
      if st.pending = OTA_PENDING_STAGED then
        let (s, _) ← pollByRepeat cfg .otaPromote [] 0 timeoutMs
        if s = .ok () then
          note .sessionLeft
          set .otaSessionActive false
        pure s
      else if st.pending = OTA_PENDING_TRIAL then pure (.ok ())
      else pure (.error .notReady)

-- Whether a diagnosis reply carries a nonzero `uptime_ms`.
def diagUptime : Driver Bool := do
  match ← request cfg .getDiagInfo [] 18 with
  | (.error _, _) => pure false
  | (.ok (), reply) => pure (16 ≤ reply.length ∧ getLe32 4 reply ≠ 0)

def updateModeReadsAs (want : UInt8) : Driver Bool := do
  let (s, reply) ← request cfg .otaUpdateMode [want] 4
  if s = .ok () ∧ reply.head? = some want then
    if want ≠ 0 then pure true
    else if PROTOCOL_MAJOR ≤ (← get .fwProtoMajor) then pure true
    else diagUptime cfg
  else pure false

-- The flags after the device has read back the mode that was asked for.
def updateModeConfirmed (enable : Bool) : Driver Unit := do
  set .peerPolled enable
  if !enable then set .otaSessionActive false
  if enable then note .sessionOpened

-- The readbacks of `cc3501e_ota_update_mode` after the settle; false once the budget is spent.
def updateModeLoop (want : UInt8) (timeoutMs pollMs : UInt32) :
    (fuel : Nat) → (waited : UInt32) → Driver Bool
  | 0, _ => stall
  | fuel + 1, waited => do
      if ← updateModeReadsAs cfg want then pure true
      else if timeoutMs ≤ waited then pure false
      else
        delay UPDATE_MODE_POLL_MS.toNat
        updateModeLoop want timeoutMs pollMs fuel (waited + (UPDATE_MODE_POLL_MS + pollMs))

def otaUpdateMode (enable : Bool) (timeoutMs : UInt32) : Driver Status := do
  if ← get .initialised then
    let want : UInt8 := if enable then 1 else 0
    if enable then set .otaSessionActive true else note .sessionLeft
    if ← updateModeReadsAs cfg want then
      updateModeConfirmed enable
      pure (.ok ())
    else
      delay UPDATE_MODE_SETTLE_MS
      let pollMs := min timeoutMs UPDATE_MODE_POLL_TIMEOUT_MS
      if ← updateModeLoop cfg want timeoutMs pollMs cfg.fuel 0 then
        updateModeConfirmed enable
        pure (.ok ())
      else
        note .sessionLeft
        set .peerPolled false
        let _ ← hardReset cfg
        set .otaSessionActive false
        pure (.error .timeout)
  else pure (.error .notReady)

def otaUpdateBail (err : AlpError) (timeoutMs : UInt32) : Driver Status := do
  let _ ← otaUpdateMode cfg false timeoutMs
  pure (.error err)

-- An abort, and the bail-out that follows it.
def otaUpdateAbort (err : AlpError) (timeoutMs : UInt32) : Driver Status := do
  let _ ← otaAbort cfg timeoutMs
  otaUpdateBail cfg err timeoutMs

-- The hold-off after a chunk that was not acked: whether the chunk has landed.
def flushLoop (expect pollMs : UInt32) :
    (fuel : Nat) → (waited : UInt32) → Driver (Except AlpError Bool)
  | 0, _ => stall
  | fuel + 1, waited => do
      let again : Driver (Except AlpError Bool) := do
        if OTA_FLUSH_WAIT_MS ≤ waited then pure (.error .timeout)
        else
          delay OTA_FLUSH_POLL_MS.toNat
          flushLoop expect pollMs fuel (waited + (OTA_FLUSH_POLL_MS + pollMs))
      match ← otaStatus cfg pollMs with
      | .error _ => again
      | .ok fs =>
          if fs.flushPending = 0 then
            if fs.state = OTA_STATE_WRITING then pure (.ok (expect ≤ fs.bytesWritten))
            else pure (.error .io)
          else again

-- Whether the device took a chunk whose reply was an error.
def chunkTaken (expect : UInt32) (timeoutMs : UInt32) : Driver Bool := do
  match ← otaStatus cfg timeoutMs with
  | .error _ => pure false
  | .ok st => pure (st.state = OTA_STATE_WRITING ∧ st.bytesWritten = expect)

-- The chunk loop of `cc3501e_ota_update`; ok once every chunk has landed.
def streamLoop (image : List UInt8) (chunk : Nat) (timeoutMs : UInt32) :
    (fuel off stalled : Nat) → Driver Status
  | 0, _, _ => stall
  | fuel + 1, off, stalled => do
      if off < image.length then
        let n := min (image.length - off) chunk
        let expect := UInt32.ofNat (off + n)
        match ← otaWrite cfg (UInt32.ofNat off) (slice off n image) with
        | .ok () => streamLoop image chunk timeoutMs fuel (off + n) 0
        | .error err =>
            if err = .busy ∨ err = .io then
              let pollMs := min timeoutMs OTA_BLACKOUT_POLL_TIMEOUT_MS
              match ← flushLoop cfg expect pollMs cfg.fuel 0 with
              | .error err => otaUpdateAbort cfg err timeoutMs
              | .ok true => streamLoop image chunk timeoutMs fuel (off + n) 0
              | .ok false =>
                  if OTA_STALL_MAX ≤ stalled + 1 then otaUpdateAbort cfg .io timeoutMs
                  else streamLoop image chunk timeoutMs fuel off (stalled + 1)
            else if ← chunkTaken cfg expect timeoutMs then
              streamLoop image chunk timeoutMs fuel (off + n) 0
            else otaUpdateAbort cfg err timeoutMs
      else pure (.ok ())

def otaUpdate (image : List UInt8) (timeoutMs : UInt32) : Driver Status := do
  if image.length = 0 ∨ 2 ^ 32 ≤ image.length then pure (.error .inval)
  else
    match ← otaUpdateMode cfg true timeoutMs with
    | .error err => pure (.error err)
    | .ok () =>
        match ← otaBegin cfg (UInt32.ofNat image.length) timeoutMs with
        | .error err => otaUpdateBail cfg err timeoutMs
        | .ok () =>
            let chunk := if ← get .peerPolled then POLLED_OTA_CHUNK else 256
            match ← streamLoop cfg image chunk timeoutMs cfg.fuel 0 0 with
            | .error err => pure (.error err)
            | .ok () =>
                match ← otaFinish cfg timeoutMs with
                | .error err => otaUpdateBail cfg err timeoutMs
                | .ok () => otaPromote cfg timeoutMs

end AlpSdk.Cc3501e
