import AlpSdk.Gd32.Commands

-- The public commands that are more than one request, and the driver's whole interface.
namespace AlpSdk.Gd32

open Library.Bytes Library.Local
open Library.Effect (Signature Env Exec)

section Programs

variable (depth : Nat)

def withCtx {α : Type} (k : Ctx → Command α) : Drv (Except AlpError α) := do
  let c ← get
  (k c).run depth

def refreshVersion : Drv (Except AlpError Version) := do
  match ← cmdSend depth .default CMD_GET_VERSION [] 3 with
  | .error e => pure (.error e)
  | .ok v =>
      modify (setVersion v)
      let c ← get
      if c.renegotiatePending ∧ c.spi then
        modify fun c => { c with renegotiatePending := false, attnUnusable := false }
        spiNegotiate (spiXferCore depth)
      pure (.ok (Version.ofBytes v))

def getVersion : Drv (Except AlpError Version) := do
  let c ← get
  if c.initialised ∧ c.versionCached then pure (.ok c.version) else refreshVersion depth

def setDefaultTransport (t : Transport) : Drv Status := do
  let c ← get
  if !c.initialised then pure (.error .notReady)
  else if t = .spi ∧ !c.spi then pure (.error .nosupport)
  else if t = .i2c ∧ !c.i2c then pure (.error .nosupport)
  else if t ≠ .spi ∧ t ≠ .i2c then pure (.error .inval)
  else
    modify fun c => { c with defaultTransport := t }
    pure (.ok ())

def bootConfigPoll (flags : BitVec 32) : Nat → Drv Status
  | 0 => pure (.error .timeout)
  | tries + 1 => do
      let stored ← withCtx depth fun c => bootConfigXfer c 0 0
      if stored.toOption = some flags then pure (.ok ()) else bootConfigPoll flags tries

def bootConfigSet (flags : BitVec 32) : Drv Status := do
  match ← withCtx depth fun c => bootConfigXfer c 1 flags with
  | .error e => pure (.error e)
  | .ok stored => if stored = flags then pure (.ok ()) else bootConfigPoll depth flags 22

def streamBit (streamId : UInt8) : UInt8 := 1 <<< streamId

def adcStreamEnd (streamId : UInt8) : Drv Status := do
  let r ← withCtx depth fun c =>
    whenReady c (checked (streamId ≥ ADC_STREAM_COUNT) .inval (order 0x35 [streamId]))
  match r with
  | .error e => pure (.error e)
  | .ok () =>
      modify fun c => { c with stream2Armed := c.stream2Armed &&& ~~~streamBit streamId }
      pure (.ok ())

def attnWaitEvent (timeoutMs : Nat) : Drv Status := do
  let c ← get
  if !c.initialised then pure (.error .notReady)
  else if !c.attnActive then pure (.error .nosupport)
  else
    match ← attnWait timeoutMs with
    | .error _ => pure (.error .timeout)
    | .ok _ =>
        modify fun c => { c with attnEventEdge := true }
        pure (.ok ())

def stream2Granted (c : Ctx) : Bool := c.spi && has c.granted LINK_FEAT_ADC_STREAM2

def READ2_HDR_BYTES : Nat := 9

def read2MaxSamples (c : Ctx) : Nat := (linkMaxPayload c - READ2_HDR_BYTES) / 2

def read2ReplyLen (maxSamples : UInt8) (payload : List UInt8) : Option Nat :=
  if payload.length < READ2_HDR_BYTES then none
  else if payload.getD 8 0 > maxSamples then none
  else some (READ2_HDR_BYTES + 2 * (payload.getD 8 0).toNat)

structure Stream2Info where
  tickHz : BitVec 32
  periodTicks : BitVec 32
  fullScale : Nat
  vrefMv : Nat
  flags : UInt8
  watermark : Nat
  ringDepth : Nat

def stream2Info (reply : List UInt8) : Stream2Info where
  tickHz := getLe32 0 reply
  periodTicks := getLe32 4 reply
  fullScale := getLe16 8 reply
  vrefMv := getLe16 10 reply
  flags := reply.getD 12 0
  watermark := getLe16 13 reply
  ringDepth := getLe16 15 reply

def streamBegin2Request (c : Ctx) (streamId channel : UInt8) (sampleRateHz : BitVec 32)
    (watermark : BitVec 16) : Command Stream2Info :=
  whenReady c
    (checked (streamId ≥ ADC_STREAM_COUNT) .inval
      (checked (sampleRateHz == 0) .inval
        (checked (sampleRateHz > 100000#32) .outOfRange
          (checked (channel > 7) .outOfRange
            (checked (!([0, 16, 32, 64, 128, 256, 512] : List (BitVec 16)).contains watermark) .inval
              (checked (!stream2Granted c) .nosupport
                (.send .spi 0x3B
                  (streamId :: channel :: 0 :: 0 :: putLe32 sampleRateHz ++ putLE 2 watermark.toNat
                    ++ [0, 0])
                  17 fun reply => .ok (stream2Info reply))))))))

def adcStreamBegin2 (streamId channel : UInt8) (sampleRateHz : BitVec 32) (watermark : BitVec 16) :
    Drv (Except AlpError Stream2Info) := do
  match ← withCtx depth fun c => streamBegin2Request c streamId channel sampleRateHz watermark with
  | .error e => pure (.error e)
  | .ok info =>
      modify fun c =>
        { c with
          stream2Armed :=
            if watermark ≠ 0 then c.stream2Armed ||| streamBit streamId
            else c.stream2Armed &&& ~~~streamBit streamId }
      pure (.ok info)

def ATTN_IDLE_EMPTY_LIMIT : UInt8 := 8

-- §4.6: eight edges in a row that READ2 answers with nothing are a stuck line, not events.
def idleAccount (empty : Bool) (c : Ctx) : Ctx :=
  if !c.attnEventEdge then c
  else
    let c := { c with attnEventEdge := false }
    if !empty then { c with attnIdleRun := 0 }
    else
      let c := { c with attnIdleRun := c.attnIdleRun + 1 }
      if c.attnIdleRun ≥ ATTN_IDLE_EMPTY_LIMIT then attnFault c else c

def read2Xfer (streamId maxSamples : UInt8) : Xfer where
  cmd := CMD_ADC_STREAM_READ2
  payload := [streamId, maxSamples]
  replyMax := READ2_HDR_BYTES + 2 * maxSamples.toNat
  decode := some (read2ReplyLen maxSamples)
  decode_big := fun _ => .inr rfl

-- First index, dropped samples and the codes read.
def adcStreamRead2 (streamId maxSamples : UInt8) :
    Drv (Except AlpError (BitVec 32 × BitVec 32 × List Nat)) := do
  let c ← get
  if !c.initialised then pure (.error .notReady)
  else if streamId ≥ ADC_STREAM_COUNT then pure (.error .inval)
  else if maxSamples = 0 then pure (.error .inval)
  else
    match ← spiPrepare depth (powerWake depth depth) with
    | .error e => pure (.error e)
    | .ok () =>
        let c ← get
        if !stream2Granted c then pure (.error .nosupport)
        else if maxSamples.toNat > read2MaxSamples c then pure (.error .outOfRange)
        else
          let r := (← spiXferCore depth (read2Xfer streamId maxSamples)).result
          modify (distrustVersion r)
          match r with
          | .error e => pure (.error e)
          | .ok p =>
              let got := p.getD 8 0
              modify (idleAccount (got == 0 && getLe32 4 p == 0))
              pure (.ok (getLe32 0 p, getLe32 4 p, readings READ2_HDR_BYTES got.toNat p))

end Programs

structure BatchOp where
  op : UInt8
  args : List UInt8
  replyCap : Nat

-- Opcode, request length and, for a fixed reply, its length.
def batchAllow : List (UInt8 × Nat × Nat) :=
  [(0x00, 0, 0), (0x10, 4, 4), (0x11, 8, 0), (0x20, 10, 0), (0x21, 1, 8), (0x24, 1, 8),
    (CMD_ADC_STREAM_READ2, 2, 0), (0x40, 0, 1), (0x50, 4, 0), (0x51, 1, 2), (0x60, 1, 4),
    (0x61, 1, 0), (0x70, 1, 4), (0x90, 12, 4)]

-- What the reply to one operation may be: its length, and whether READ2 sets it.
structure PlanEntry where
  replyMax : Nat
  isRead2 : Bool
  deriving DecidableEq

def BATCH_MAX_OPS : Nat := 16

-- The streams read so far are those of the READ2 operations before this one.
def planOp (c : Ctx) (streams : List UInt8) (o : BatchOp) : Except AlpError PlanEntry :=
  match batchAllow.find? fun entry => entry.1 = o.op with
  | none => .error .inval
  | some (op, reqLen, replyMax) =>
      if o.args.length ≠ reqLen then .error .inval
      else if op = CMD_ADC_STREAM_READ2 then
        let maxSamples := o.args.getD 1 0
        let rmax := READ2_HDR_BYTES + 2 * maxSamples.toNat
        if maxSamples = 0 then .error .inval
        else if o.args.getD 0 0 ≥ ADC_STREAM_COUNT then .error .inval
        else if streams.contains (o.args.getD 0 0) then .error .inval
        else if maxSamples.toNat > read2MaxSamples c then .error .outOfRange
        else if o.replyCap < rmax then .error .inval
        else .ok ⟨rmax, true⟩
      else if replyMax > 0 ∧ o.replyCap < replyMax then .error .inval
      else .ok ⟨replyMax, false⟩

def planOps (c : Ctx) : List UInt8 → List BatchOp → Except AlpError (List PlanEntry)
  | _, [] => .ok []
  | streams, o :: rest =>
      match planOp c streams o with
      | .error e => .error e
      | .ok entry =>
          let streams := if entry.isRead2 then o.args.getD 0 0 :: streams else streams
          match planOps c streams rest with
          | .error e => .error e
          | .ok entries => .ok (entry :: entries)

def batchPayload (ops : List BatchOp) : List UInt8 :=
  UInt8.ofNat ops.length :: ops.flatMap fun o => o.op :: UInt8.ofNat o.args.length :: o.args

def worstReply (plan : List PlanEntry) : Nat := 1 + (plan.map fun entry => 2 + entry.replyMax).sum

-- One executed operation of a BATCH reply at `pos`: its status, and where the next one starts.
def batchEntry (p : List UInt8) (entry : PlanEntry) (pos : Nat) : Option (UInt8 × Nat) :=
  if pos + 2 > p.length then none
  else
    let status := p.getD pos 0 &&& STATUS_CODE_MASK
    let len := (p.getD (pos + 1) 0).toNat
    if pos + 2 + len > p.length ∨ len > entry.replyMax then none
    else if status ≠ 0 then if len ≠ 0 then none else some (status, pos + 2 + len)
    else if entry.isRead2 then
      if len < READ2_HDR_BYTES ∨ (len - READ2_HDR_BYTES) % 2 ≠ 0
          ∨ (p.getD (pos + 2 + 8) 0).toNat ≠ (len - READ2_HDR_BYTES) / 2 then none
      else some (status, pos + 2 + len)
    else if len ≠ entry.replyMax then none
    else some (status, pos + 2 + len)

def batchEntries (p : List UInt8) : List PlanEntry → Nat → Nat → UInt8 → Option (Nat × UInt8)
  | _, 0, pos, last => some (pos, last)
  -- never reached: at most as many operations executed as were planned
  | [], _ + 1, _, _ => none
  | entry :: rest, executed + 1, pos, _ =>
      match batchEntry p entry pos with
      | none => none
      | some (status, pos) => batchEntries p rest executed pos status

def batchReplyLen (plan : List PlanEntry) (p : List UInt8) : Option Nat :=
  if p.length < 1 ∨ (p.getD 0 0).toNat > plan.length then none
  else
    match batchEntries p plan (p.getD 0 0).toNat 1 0 with
    | none => none
    | some (pos, last) => if (p.getD 0 0).toNat < plan.length ∧ last = 0 then none else some pos

def batchXfer (ops : List BatchOp) (plan : List PlanEntry) : Xfer where
  cmd := CMD_BATCH
  payload := batchPayload ops
  replyMax := worstReply plan
  decode := some (batchReplyLen plan)
  decode_big := fun _ => .inl rfl

-- The status and payload of each operation; those past the executed ones are not ready.
def batchResults (p : List UInt8) : List BatchOp → Nat → Nat → List (Status × List UInt8)
  | [], _, _ => []
  | _ :: rest, 0, pos => (.error .notReady, []) :: batchResults p rest 0 pos
  | _ :: rest, executed + 1, pos =>
      let len := (p.getD (pos + 1) 0).toNat
      (statusFromWire (p.getD pos 0 &&& STATUS_CODE_MASK), slice (pos + 2) len p)
        :: batchResults p rest executed (pos + 2 + len)

def batch (depth : Nat) (ops : List BatchOp) :
    Drv (Except AlpError (UInt8 × List (Status × List UInt8))) := do
  let c ← get
  if !c.initialised then pure (.error .notReady)
  else if ops.isEmpty then pure (.error .inval)
  else if ops.length > BATCH_MAX_OPS then pure (.error .outOfRange)
  else
    match ← spiPrepare depth (powerWake depth depth) with
    | .error e => pure (.error e)
    | .ok () =>
        let c ← get
        if !c.spi ∨ !has c.granted LINK_FEAT_BATCH then pure (.error .nosupport)
        else
          match planOps c [] ops with
          | .error e => pure (.error e)
          | .ok plan =>
              if (batchPayload ops).length > linkMaxPayload c ∨ worstReply plan > linkMaxPayload c then
                pure (.error .outOfRange)
              else
                let r := (← spiXferCore depth (batchXfer ops plan)).result
                modify (distrustVersion r)
                match r with
                | .error e => pure (.error e)
                | .ok p => pure (.ok (p.getD 0 0, batchResults p ops (p.getD 0 0).toNat 1))

section Programs

variable (depth : Nat)

def trngTries (len : Nat) : Nat → Drv (Except AlpError (List UInt8))
  | 0 => pure (.error .busy)
  | tries + 1 => do
      match ← (trngOnce len).run depth with
      | .error .busy => trngTries len tries
      | r => pure r

def trngRead (len : Nat) : Drv (Except AlpError (List UInt8)) := do
  let c ← get
  if !c.initialised then pure (.error .notReady)
  else if len = 0 ∨ len > 32 then pure (.error .inval)
  else trngTries depth len 4

-- `gd32g553_power_opts_t`, less the wake latency, which is only slept.
structure PowerOpts where
  wakeBitmap : BitVec 32
  wakeAfterMs : BitVec 32
  flags : UInt8
  wakeRetries : UInt8

def PowerOpts.zero : PowerOpts := ⟨0, 0, 0, 0⟩

def powerModeRefusal (c : Ctx) (mode : UInt8) (opts : PowerOpts) : Option AlpError :=
  if !c.initialised then some .notReady
  else if mode > 3 then some .inval
  else if opts.flags &&& ~~~0x01 ≠ 0 then some .inval
  else if opts.flags ≠ 0 ∧ mode ≠ 2 then some .inval
  else if opts.flags &&& 0x01 ≠ 0 ∧ opts.wakeAfterMs = 0 ∧ opts.wakeBitmap &&& 0x09#32 = 0 then
    some .outOfRange
  else if c.version.minor < 17 then some .nosupport
  else none

-- A lost reply to a Deep-sleep request counts as accepted: it may have been latched.
def latchSleep (mode : UInt8) (opts : PowerOpts) (s : Status) (c : Ctx) : Ctx :=
  if mode = 2 ∧ (s = .ok () ∨ linkLost s) then
    { c with
      powerAsleep := true
      powerWakeRetries := if opts.wakeRetries ≠ 0 then opts.wakeRetries else 2 }
  else c

-- The bridge resets: link features, sequencing and streams are gone with it.
def bridgeResets (c : Ctx) : Ctx :=
  { spiDropNegotiated c with versionCached := false, renegotiatePending := c.spi }

def setPowerMode (mode : UInt8) (opts : Option PowerOpts) : Drv Status := do
  let opts := opts.getD PowerOpts.zero
  let c ← get
  match powerModeRefusal c mode opts with
  | some e => pure (.error e)
  | none =>
      match ← powerWake depth depth with
      | .error e => pure (.error e)
      | .ok () =>
          let s ← powerModeSend depth (powerWake depth depth) mode opts.flags opts.wakeBitmap
            opts.wakeAfterMs
          modify (latchSleep mode opts s)
          match s with
          | .error e => pure (.error e)
          | .ok () =>
              if mode = 3 then modify bridgeResets
              pure (.ok ())

def DSP_MAX_CHUNK_BYTES : Nat := 58

def stageChunk (chainId stageIndex kind : UInt8) (params : List UInt8) (offset : Nat) : Command Unit :=
  order 0x38 (chainId :: stageIndex :: kind :: putLE 2 offset ++ putLE 2 params.length
    ++ slice offset DSP_MAX_CHUNK_BYTES params)

-- The chunk loop; `more` bounds the chunks that follow the one at `offset`.
def stageChunks (chainId stageIndex kind : UInt8) (params : List UInt8) : Nat → Nat → Drv Status
  | 0, offset => (stageChunk chainId stageIndex kind params offset).run depth
  | more + 1, offset => do
      match ← (stageChunk chainId stageIndex kind params offset).run depth with
      | .error e => pure (.error e)
      | .ok () =>
          let offset := offset + (slice offset DSP_MAX_CHUNK_BYTES params).length
          if offset < params.length then stageChunks chainId stageIndex kind params more offset
          else pure (.ok ())

def adcDspStagePush (chainId stageIndex kind : UInt8) (params : List UInt8) : Drv Status := do
  let c ← get
  if !c.initialised then pure (.error .notReady)
  else if stageIndex ≥ 4 then pure (.error .inval)
  else if kind > 3 then pure (.error .inval)
  else if params.length > 260 then pure (.error .outOfRange)
  else stageChunks depth chainId stageIndex kind params (params.length / DSP_MAX_CHUNK_BYTES) 0

def otaResetCmd (cmd : UInt8) : Drv Status := do
  match ← withCtx depth fun c => whenReady c (order cmd []) with
  | .error e => pure (.error e)
  | .ok () =>
      modify bridgeResets
      pure (.ok ())

def otaCommit : Drv Status := otaResetCmd depth 0xF3
def otaRollback : Drv Status := otaResetCmd depth 0xF4

def deinit : Drv Status := do
  modify fun c =>
    { spiDropNegotiated c with
      initialised := false, versionCached := false, spi := false, i2c := false }
  pure (.ok ())

-- BUSY is transient; a transport error only once a trial boot has shown itself by a BUSY.
def initStatusIsTransient (s : Status) (sawBusy : Bool) : Bool :=
  s == .error .busy || (sawBusy && linkLost s)

-- The retry loop of `gd32g553_init_ex`, cut after `rounds` probes: its end is up to the clock.
def initRetry (probe : Drv Status) (deadlineMs : Nat) : Nat → Bool → Drv (Status × Bool)
  | 0, _ => exhausted
  | rounds + 1, sawBusy => do
      let s ← probe
      let sawBusy := sawBusy || s == .error .busy
      if !initStatusIsTransient s sawBusy then pure (s, sawBusy)
      else
        let nowMs ← uptimeMs
        if nowMs ≥ deadlineMs then pure (s, sawBusy) else initRetry probe deadlineMs rounds sawBusy

def freshCtx (spi i2c : Bool) (i2cAddr : UInt8) (attn : AttnHook) : Ctx where
  initialised := true
  spi := spi
  i2c := i2c
  i2cAddr := i2cAddr
  defaultTransport := if spi then .spi else .i2c
  version := ⟨0, 0, 0⟩
  versionCached := false
  seqEnabled := false
  seqLast := 0
  granted := 0
  supported := 0
  maxPayload := MAX_PAYLOAD_BYTES
  attn := attn
  attnActive := false
  attnUnusable := false
  attnFaultPending := false
  attnEventEdge := false
  attnLastEdge := false
  renegotiatePending := false
  attnTimeoutRun := 0
  attnStuckRun := 0
  attnIdleRun := 0
  stream2Armed := 0
  powerAsleep := false
  powerWakeRetries := 0

def failInit (e : AlpError) : Drv Status := do
  modify fun c => { c with initialised := false }
  pure (.error e)

def initEx (rounds : Nat) (spi i2c : Bool) (i2cAddr : UInt8) (attn : AttnHook) : Drv Status := do
  if !spi ∧ !i2c then pure (.error .inval)
  else if i2c ∧ i2cAddr > 0x7F then pure (.error .inval)
  else
    modify fun _ => freshCtx spi i2c i2cAddr attn
    let deadlineMs := (← uptimeMs) + 2000
    let (s, sawBusy) ← initRetry (ping.run depth) deadlineMs rounds false
    match s with
    | .error e => failInit e
    | .ok () =>
        let probe : Drv Status := do return (← refreshVersion depth).map fun _ => ()
        let (s, _) ← initRetry probe deadlineMs rounds sawBusy
        match s with
        | .error e => failInit e
        | .ok () =>
            let c ← get
            if c.version.major ≠ HOST_PROTOCOL_MAJOR then failInit .nosupport
            else
              spiNegotiate (spiXferCore depth)
              pure (.ok ())

end Programs

def Command.void {α : Type} : Command α → Command Unit
  | .refuse e => .refuse e
  | .send t cmd payload replyLen parse =>
      .send t cmd payload replyLen fun reply => (parse reply).map fun _ => ()

-- The public functions that send at most one request, with their arguments.
inductive SimpleCall where
  | ping
  | pingVia (t : Transport)
  | getBuildId
  | getResetReason
  | gpioRead (mask : BitVec 32)
  | gpioWrite (mask levels : BitVec 32)
  | pwmSet (channel : UInt8) (periodNs dutyNs : BitVec 32)
  | pwmStop (channel : UInt8)
  | pwmGet (channel : UInt8)
  | adcRead (channel samples : UInt8)
  | da9292StatusForward
  | seReset (hold : Bool)
  | bootConfigGet
  | dacSet (channel : UInt8) (valueMv : BitVec 16)
  | dacGet (channel : UInt8)
  | qencRead (encoder : UInt8)
  | qencReset (encoder : UInt8)
  | counterRead (counter : UInt8)
  | pwmConfigure (channel alignMode : UInt8) (deadTimeNs : BitVec 32) (breakCfg : UInt8)
  | adcConfigure (channel : UInt8) (oversampleRatio sampleCycles : BitVec 16) (resolutionBits : UInt8)
  | adcStreamBegin (streamId channel : UInt8) (sampleRateHz : BitVec 32)
  | adcStreamRead (streamId maxSamples : UInt8)
  | adcSpectrumRead (streamId : UInt8) (binOffset : BitVec 16) (maxBins : UInt8)
  | tmuCompute (function format : Nat) (inA inB : BitVec 32)
  | pwmCaptureBegin (channel edge : UInt8)
  | pwmCaptureRead (channel : UInt8)
  | pwmCaptureEnd (channel : UInt8)
  | pwmSinglePulse (channel : UInt8) (pulseNs : BitVec 32)
  | timerSync (primary secondary mode : UInt8)
  | adcDspChainOpen
  | adcDspChainBind (chainId streamId : UInt8)
  | otaBegin (sizeBytes expectedCrc32 : BitVec 32) (fwVersion : Option Version)
  | otaWriteChunk (offset : BitVec 32) (data : List UInt8)
  | otaVerify
  | otaGetState
  | otaAbort

def SimpleCall.command (c : Ctx) : SimpleCall → Command Unit
  | .ping => Gd32.ping
  | .pingVia t => Gd32.pingVia t
  | .getBuildId => (Gd32.getBuildId c).void
  | .getResetReason => (Gd32.getResetReason c).void
  | .gpioRead mask => (Gd32.gpioRead c mask).void
  | .gpioWrite mask levels => Gd32.gpioWrite c mask levels
  | .pwmSet channel periodNs dutyNs => Gd32.pwmSet c channel periodNs dutyNs
  | .pwmStop channel => Gd32.pwmStop c channel
  | .pwmGet channel => (Gd32.pwmGet c channel).void
  | .adcRead channel samples => (Gd32.adcRead c channel samples).void
  | .da9292StatusForward => (Gd32.da9292StatusForward c).void
  | .seReset hold => Gd32.seReset c hold
  | .bootConfigGet => (Gd32.bootConfigXfer c 0 0).void
  | .dacSet channel valueMv => Gd32.dacSet c channel valueMv
  | .dacGet channel => (Gd32.dacGet c channel).void
  | .qencRead encoder => (Gd32.qencRead c encoder).void
  | .qencReset encoder => Gd32.qencReset c encoder
  | .counterRead counter => (Gd32.counterRead c counter).void
  | .pwmConfigure channel alignMode deadTimeNs breakCfg =>
      Gd32.pwmConfigure c channel alignMode deadTimeNs breakCfg
  | .adcConfigure channel oversampleRatio sampleCycles resolutionBits =>
      Gd32.adcConfigure c channel oversampleRatio sampleCycles resolutionBits
  | .adcStreamBegin streamId channel sampleRateHz => Gd32.adcStreamBegin c streamId channel sampleRateHz
  | .adcStreamRead streamId maxSamples => (Gd32.adcStreamRead c streamId maxSamples).void
  | .adcSpectrumRead streamId binOffset maxBins => (Gd32.adcSpectrumRead c streamId binOffset maxBins).void
  | .tmuCompute function format inA inB => (Gd32.tmuCompute c function format inA inB).void
  | .pwmCaptureBegin channel edge => Gd32.pwmCaptureBegin c channel edge
  | .pwmCaptureRead channel => (Gd32.pwmCaptureRead c channel).void
  | .pwmCaptureEnd channel => Gd32.pwmCaptureEnd c channel
  | .pwmSinglePulse channel pulseNs => Gd32.pwmSinglePulse c channel pulseNs
  | .timerSync primary secondary mode => Gd32.timerSync c primary secondary mode
  | .adcDspChainOpen => (Gd32.adcDspChainOpen c).void
  | .adcDspChainBind chainId streamId => Gd32.adcDspChainBind c chainId streamId
  | .otaBegin sizeBytes expectedCrc32 fwVersion => (Gd32.otaBegin c sizeBytes expectedCrc32 fwVersion).void
  | .otaWriteChunk offset data => (Gd32.otaWriteChunk c offset data).void
  | .otaVerify => (Gd32.otaVerify c).void
  | .otaGetState => (Gd32.otaGetState c).void
  | .otaAbort => Gd32.otaAbort c

-- The public interface after init.
inductive Call where
  | simple (k : SimpleCall)
  | refreshVersion
  | getVersion
  | setDefaultTransport (t : Transport)
  | bootConfigSet (flags : BitVec 32)
  | adcStreamEnd (streamId : UInt8)
  | attnWaitEvent (timeoutMs : Nat)
  | adcStreamBegin2 (streamId channel : UInt8) (sampleRateHz : BitVec 32) (watermark : BitVec 16)
  | adcStreamRead2 (streamId maxSamples : UInt8)
  | batch (ops : List BatchOp)
  | trngRead (len : Nat)
  | powerWake
  | setPowerMode (mode : UInt8) (opts : Option PowerOpts)
  | adcDspStagePush (chainId stageIndex kind : UInt8) (params : List UInt8)
  | otaCommit
  | otaRollback
  | deinit

def discard {α : Type} (m : Drv (Except AlpError α)) : Drv Status := do
  return (← m).map fun _ => ()

def Call.run (depth : Nat) : Call → Drv Status
  | .simple k => withCtx depth fun c => k.command c
  | .refreshVersion => discard (Gd32.refreshVersion depth)
  | .getVersion => discard (Gd32.getVersion depth)
  | .setDefaultTransport t => Gd32.setDefaultTransport t
  | .bootConfigSet flags => Gd32.bootConfigSet depth flags
  | .adcStreamEnd streamId => Gd32.adcStreamEnd depth streamId
  | .attnWaitEvent timeoutMs => Gd32.attnWaitEvent timeoutMs
  | .adcStreamBegin2 streamId channel sampleRateHz watermark =>
      discard (Gd32.adcStreamBegin2 depth streamId channel sampleRateHz watermark)
  | .adcStreamRead2 streamId maxSamples => discard (Gd32.adcStreamRead2 depth streamId maxSamples)
  | .batch ops => discard (Gd32.batch depth ops)
  | .trngRead len => discard (Gd32.trngRead depth len)
  | .powerWake => Gd32.powerWake depth depth
  | .setPowerMode mode opts => Gd32.setPowerMode depth mode opts
  | .adcDspStagePush chainId stageIndex kind params =>
      Gd32.adcDspStagePush depth chainId stageIndex kind params
  | .otaCommit => Gd32.otaCommit depth
  | .otaRollback => Gd32.otaRollback depth
  | .deinit => Gd32.deinit

end AlpSdk.Gd32
