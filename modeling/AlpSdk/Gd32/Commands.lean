import AlpSdk.Gd32.Link

-- The public commands of the driver, over either transport. Pointer arguments are taken as
-- not NULL, and delays as no-ops.
namespace AlpSdk.Gd32

open Library.Bytes Library.Local
open Library.Effect (Signature Env Exec)

def i2cWriteRead (addr : UInt8) (frame : List UInt8) (len : Nat) :
    Drv (Except AlpError (List UInt8)) :=
  perform (.i2cWriteRead addr frame len)
def uptimeMs : Drv Nat := perform .uptimeMs

def i2cReply (len : Nat) (rbuf : List UInt8) : Except AlpError (List UInt8) :=
  let status := rbuf.getD 0 0
  if crcHolds rbuf (1 + len) then
    match statusFromWire status with
    | .error e => .error e
    | .ok () => .ok (slice 1 len rbuf)
  else if 0 < len ∧ status ≠ 0 ∧ crcHolds rbuf 1 then .error (wireError status)
  else .error .io

def i2cXfer (cmd : UInt8) (payload : List UInt8) (replyLen : Nat) :
    Drv (Except AlpError (List UInt8)) := do
  let c ← get
  if !c.i2c then pure (.error .nosupport)
  else if payload.length > MAX_PAYLOAD_BYTES then pure (.error .inval)
  else if replyLen > MAX_PAYLOAD_BYTES then pure (.error .inval)
  else
    let covered := cmd :: payload
    match ← i2cWriteRead c.i2cAddr (0x00 :: covered ++ putLE 2 (crc16 covered)) (1 + replyLen + 2) with
    | .error e => pure (.error e)
    | .ok bytes => pure (i2cReply replyLen (clocked (1 + replyLen + 2) bytes))

-- A transport-level failure: the link is in an unknown state.
def linkLost {α : Type} : Except AlpError α → Bool
  | .error .io | .error .timeout => true
  | _ => false

def distrustVersion {α : Type} (r : Except AlpError α) (c : Ctx) : Ctx :=
  if linkLost r then { c with versionCached := false } else c

section Send

variable (depth : Nat) (wake : Drv Status)

-- Work deferred from the end of the previous command.
def renegotiate : Drv Unit := do
  match ← spiXfer (spiXferCore depth) CMD_GET_VERSION [] 3 with
  | .error _ => pure ()
  | .ok v =>
      modify fun c => { setVersion v c with renegotiatePending := false, attnUnusable := false }
      spiNegotiate (spiXferCore depth)

def withdrawAttn : Drv Unit := do
  let c ← get
  modify fun c => { c with attnFaultPending := false, attnActive := false, attnUnusable := true }
  let _ ← linkFeaturesExt (spiXferCore depth) (c.granted &&& ~~~LINK_FEAT_ATTN) c.maxPayload
  pure ()

def wakeFirst : Drv Status := do
  let c ← get
  if c.powerAsleep then wake else pure (.ok ())

def spiPrepare : Drv Status := do
  let c ← get
  if !c.spi then pure (.ok ())
  else
    match ← wakeFirst wake with
    | .error e => pure (.error e)
    | .ok () =>
        let c ← get
        if c.renegotiatePending then renegotiate depth
        else if c.attnFaultPending then withdrawAttn depth
        pure (.ok ())

-- `gd32g553_refresh_version` finishes a pending renegotiation itself.
def prepareFor (cmd : UInt8) : Drv Status :=
  if cmd = CMD_GET_VERSION then pure (.ok ()) else spiPrepare depth wake

def spiSend (cmd : UInt8) (payload : List UInt8) (replyLen : Nat) :
    Drv (Except AlpError (List UInt8)) := do
  match ← prepareFor depth wake cmd with
  | .error e => pure (.error e)
  | .ok () =>
      let r ← spiXfer (spiXferCore depth) cmd payload replyLen
      modify (distrustVersion r)
      pure r

def cmdSendWith (t : Transport) (cmd : UInt8) (payload : List UInt8) (replyLen : Nat) :
    Drv (Except AlpError (List UInt8)) := do
  let c ← get
  match ← wakeFirst wake with
  | .error e => pure (.error e)
  | .ok () =>
      match if t = .default then c.defaultTransport else t with
      | .spi => spiSend depth wake cmd payload replyLen
      | .i2c => do
          let r ← i2cXfer cmd payload replyLen
          modify (distrustVersion r)
          pure r
      | .default | .other => pure (.error .inval)

def powerModeSend (mode flags : UInt8) (wakeBitmap wakeAfterMs : BitVec 32) : Drv Status := do
  let c ← get
  let t : Transport := if c.spi then .spi else .default
  let r ← cmdSendWith depth wake t 0x28 (mode :: flags :: putLe32 wakeBitmap ++ putLe32 wakeAfterMs) 0
  pure (r.map fun _ => ())

-- One wake pulse, whose answer means nothing, and the RUN request that proves the link.
def wakeOnce : Drv Status := do
  let _ ← cmdSendWith depth wake .spi CMD_PING [] 0
  powerModeSend depth wake 0 0 0 0

def wakeAttempts : Nat → Drv Status
  | 0 => wakeOnce depth wake
  | retries + 1 => do
      let s ← wakeOnce depth wake
      if linkLost s then wakeAttempts retries else pure s

end Send

-- `gd32g553_power_wake`. The commands it sends find the flag cleared; `nesting` bounds how
-- often they could call it again.
def powerWake (depth : Nat) : Nat → Drv Status
  | 0 => exhausted
  | nesting + 1 => do
      let c ← get
      if !c.initialised then pure (.error .notReady)
      else if !c.powerAsleep then pure (.ok ())
      else
        modify fun c => { c with powerAsleep := false }
        let s ← wakeAttempts depth (powerWake depth nesting) c.powerWakeRetries.toNat
        if linkLost s then
          modify fun c => { c with powerAsleep := true }
          pure s
        else pure (.ok ())

section Public

variable (depth : Nat)

def cmdSend : Transport → UInt8 → List UInt8 → Nat → Drv (Except AlpError (List UInt8)) :=
  cmdSendWith depth (powerWake depth depth)

-- A command that checks its arguments and the context, sends one request and parses the reply.
inductive Command (α : Type) where
  | refuse (e : AlpError)
  | send (t : Transport) (cmd : UInt8) (payload : List UInt8) (replyLen : Nat)
      (parse : List UInt8 → Except AlpError α)

def Command.run {α : Type} : Command α → Drv (Except AlpError α)
  | .refuse e => pure (.error e)
  | .send t cmd payload replyLen parse => do
      match ← cmdSend depth t cmd payload replyLen with
      | .error e => pure (.error e)
      | .ok reply => pure (parse reply)

def whenReady {α : Type} (c : Ctx) (k : Command α) : Command α :=
  if c.initialised then k else .refuse .notReady

def checked {α : Type} (bad : Bool) (e : AlpError) (k : Command α) : Command α :=
  if bad then .refuse e else k

-- Requests on the default transport, without and with a reply payload.
def order (cmd : UInt8) (payload : List UInt8) : Command Unit :=
  .send .default cmd payload 0 fun _ => .ok ()

def query {α : Type} (cmd : UInt8) (payload : List UInt8) (replyLen : Nat)
    (parse : List UInt8 → α) : Command α :=
  .send .default cmd payload replyLen fun reply => .ok (parse reply)

end Public

section Simple

variable (c : Ctx)

def ping : Command Unit := order CMD_PING []
def pingVia (t : Transport) : Command Unit := .send t CMD_PING [] 0 fun _ => .ok ()

def getBuildId : Command (List UInt8) := whenReady c (query 0x02 [] 20 id)
def getResetReason : Command UInt8 := whenReady c (query 0x03 [] 1 (·.getD 0 0))

def GPIO_LINE_E1M_IO24 : Nat := 8

-- Pads added after the original 18, with the protocol minor that first has each.
def gpioBitMinMinor : List (Nat × UInt8) := [(18, 11), (19, 11), (20, 13), (21, 16), (22, 16)]

def gpioUnsupportedBits (mask : BitVec 32) : BitVec 32 :=
  mask &&& gpioBitMinMinor.foldl
    (fun bad (bit, minMinor) => if c.version.minor < minMinor then bad ||| BitVec.twoPow 32 bit else bad) 0

def gpioRead (mask : BitVec 32) : Command (BitVec 32) :=
  let bad := gpioUnsupportedBits c mask
  whenReady c
    (checked (mask.getLsbD GPIO_LINE_E1M_IO24) .nosupport
      (checked (bad != 0 && mask &&& ~~~bad == 0) .nosupport
        (query 0x10 (putLe32 (mask &&& ~~~bad)) 4 (getLe32 0))))

def gpioWrite (mask levels : BitVec 32) : Command Unit :=
  whenReady c
    (checked (gpioUnsupportedBits c mask != 0) .nosupport
      (checked (mask.getLsbD GPIO_LINE_E1M_IO24) .nosupport
        (order 0x11 (putLe32 mask ++ putLe32 levels))))

def pwmSetRaw (channel : UInt8) (periodNs dutyNs : BitVec 32) : Command Unit :=
  order 0x20 (channel :: 0 :: putLe32 periodNs ++ putLe32 dutyNs)

def pwmSet (channel : UInt8) (periodNs dutyNs : BitVec 32) : Command Unit :=
  whenReady c
    (checked (periodNs == 0 || decide (dutyNs > periodNs)) .inval (pwmSetRaw channel periodNs dutyNs))

def pwmStop (channel : UInt8) : Command Unit :=
  whenReady c (checked (c.version.minor < 17) .nosupport (pwmSetRaw channel 0 0))

def pwmGet (channel : UInt8) : Command (BitVec 32 × BitVec 32) :=
  whenReady c (query 0x21 [channel] 8 fun reply => (getLe32 0 reply, getLe32 4 reply))

-- `count` little-endian uint16 readings from byte `off` on.
def readings (off count : Nat) (reply : List UInt8) : List Nat :=
  (List.range count).map fun i => getLe16 (off + 2 * i) reply

def adcRead (channel samples : UInt8) : Command (List Nat) :=
  whenReady c
    (checked (samples == 0 || decide (samples > 8)) .inval
      (.send .default 0x30 [channel, samples] (1 + samples.toNat * 2) fun reply =>
        if reply.getD 0 0 ≠ samples then .error .io else .ok (readings 1 samples.toNat reply)))

def da9292StatusForward : Command UInt8 := whenReady c (query 0x40 [] 1 (·.getD 0 0))
def seReset (hold : Bool) : Command Unit := whenReady c (order 0x41 [if hold then 1 else 0])

def bootConfigXfer (op : UInt8) (flags : BitVec 32) : Command (BitVec 32) :=
  whenReady c (query 0x42 (op :: putLe32 flags) 4 (getLe32 0))

def dacSet (channel : UInt8) (valueMv : BitVec 16) : Command Unit :=
  whenReady c (checked (channel ≥ 2) .inval (order 0x50 (channel :: 0 :: putLE 2 valueMv.toNat)))

def dacGet (channel : UInt8) : Command Nat :=
  whenReady c (checked (channel ≥ 2) .inval (query 0x51 [channel] 2 (getLe16 0)))

def qencRead (encoder : UInt8) : Command Int :=
  whenReady c (checked (encoder ≥ 4) .inval (query 0x60 [encoder] 4 fun reply => (getLe32 0 reply).toInt))

def qencReset (encoder : UInt8) : Command Unit :=
  whenReady c (checked (encoder ≥ 4) .inval (order 0x61 [encoder]))

def counterRead (counter : UInt8) : Command (BitVec 32) :=
  whenReady c (checked (counter ≥ 1) .inval (query 0x70 [counter] 4 (getLe32 0)))

def pwmConfigure (channel alignMode : UInt8) (deadTimeNs : BitVec 32) (breakCfg : UInt8) :
    Command Unit :=
  whenReady c
    (checked (alignMode > 3) .inval
      (order 0x22 (channel :: alignMode :: putLe32 deadTimeNs ++ [breakCfg])))

def adcConfigure (channel : UInt8) (oversampleRatio sampleCycles : BitVec 16)
    (resolutionBits : UInt8) : Command Unit :=
  whenReady c
    (checked (!([0, 6, 8, 10, 12, 14, 16] : List UInt8).contains resolutionBits) .inval
      (order 0x32 (channel :: 0 :: putLE 2 oversampleRatio.toNat ++ putLE 2 sampleCycles.toNat
        ++ [resolutionBits])))

def ADC_STREAM_COUNT : UInt8 := 2

def adcStreamBegin (streamId channel : UInt8) (sampleRateHz : BitVec 32) : Command Unit :=
  whenReady c
    (checked (streamId ≥ ADC_STREAM_COUNT) .inval
      (checked (sampleRateHz == 0) .inval
        (order 0x33 (streamId :: channel :: 0 :: putLe32 sampleRateHz))))

def adcStreamRead (streamId maxSamples : UInt8) : Command (List Nat) :=
  let maxSamples := if maxSamples > 32 then 32 else maxSamples
  whenReady c
    (checked (streamId ≥ ADC_STREAM_COUNT) .inval
      (checked (maxSamples == 0) .inval
        (.send .default 0x34 [streamId, maxSamples] (1 + maxSamples.toNat * 2) fun reply =>
          let got := reply.getD 0 0
          if got > maxSamples then .error .io else .ok (readings 1 got.toNat reply))))

-- Sequence number, total bins and the IEEE-754 words of the bins.
def adcSpectrumRead (streamId : UInt8) (binOffset : BitVec 16) (maxBins : UInt8) :
    Command (BitVec 32 × Nat × List (BitVec 32)) :=
  let maxBins := if maxBins > 14 then 14 else maxBins
  whenReady c
    (checked (streamId ≥ ADC_STREAM_COUNT) .inval
      (checked (maxBins == 0) .inval
        (.send .default 0x3A (streamId :: putLE 2 binOffset.toNat ++ [maxBins])
          (7 + maxBins.toNat * 4) fun reply =>
            let got := reply.getD 6 0
            if got > maxBins then .error .io
            else .ok (getLe32 0 reply, getLe16 4 reply,
              (List.range got.toNat).map fun i => getLe32 (7 + 4 * i) reply))))

def trngOnce (len : Nat) : Command (List UInt8) := query 0x80 [UInt8.ofNat len] len id

def tmuCompute (function format : Nat) (inA inB : BitVec 32) : Command (BitVec 32) :=
  whenReady c
    (checked (function > 11) .inval
      (checked (format > 1) .inval
        (query 0x90 (UInt8.ofNat function :: UInt8.ofNat format :: 0 :: 0 :: putLe32 inA ++ putLe32 inB)
          4 (getLe32 0))))

def pwmCaptureBegin (channel edge : UInt8) : Command Unit :=
  whenReady c (checked (edge > 2) .inval (order 0x23 [channel, edge]))

def pwmCaptureRead (channel : UInt8) : Command (BitVec 32 × BitVec 32) :=
  whenReady c (query 0x24 [channel] 8 fun reply => (getLe32 0 reply, getLe32 4 reply))

def pwmCaptureEnd (channel : UInt8) : Command Unit := whenReady c (order 0x25 [channel])

def pwmSinglePulse (channel : UInt8) (pulseNs : BitVec 32) : Command Unit :=
  whenReady c (checked (pulseNs == 0) .inval (order 0x26 (channel :: 0 :: 0 :: 0 :: putLe32 pulseNs)))

def timerSync (primary secondary mode : UInt8) : Command Unit :=
  whenReady c (order 0x27 [primary, secondary, mode])

def adcDspChainOpen : Command UInt8 := whenReady c (query 0x37 [] 1 (·.getD 0 0))

def adcDspChainBind (chainId streamId : UInt8) : Command Unit :=
  whenReady c (checked (streamId ≥ ADC_STREAM_COUNT) .inval (order 0x39 [chainId, streamId]))

def otaSupported : Bool := c.initialised && decide (c.version.minor ≥ 6)

def otaBegin (sizeBytes expectedCrc32 : BitVec 32) (fwVersion : Option Version) :
    Command (Nat × UInt8) :=
  let triple := match fwVersion with
    | none => []
    | some v => [v.major, v.minor, v.patch]
  whenReady c
    (checked (sizeBytes == 0) .inval
      (checked (!otaSupported c) .nosupport
        (query 0xF0 (putLe32 sizeBytes ++ putLe32 expectedCrc32 ++ triple) 3 fun reply =>
          (getLe16 0 reply, reply.getD 2 0))))

def otaWriteChunk (offset : BitVec 32) (data : List UInt8) : Command (BitVec 32) :=
  whenReady c
    (checked data.isEmpty .inval
      (checked (!otaSupported c) .nosupport
        (checked (data.length > MAX_PAYLOAD_BYTES - 5) .inval
          (query 0xF1 (putLe32 offset ++ UInt8.ofNat data.length :: data) 4 (getLe32 0)))))

def otaVerify : Command (Bool × BitVec 32) :=
  whenReady c (query 0xF2 [] 5 fun reply => (reply.getD 4 0 != 0, getLe32 0 reply))

-- State, active and pending slot, boot count and, from 0.14 on, the error byte.
def otaGetState : Command (UInt8 × UInt8 × UInt8 × Nat × UInt8) :=
  let hasErr := decide (c.version.minor ≥ 14)
  whenReady c
    (query 0xF5 [] (if hasErr then 6 else 5) fun reply =>
      (reply.getD 0 0, reply.getD 1 0, reply.getD 2 0, getLe16 3 reply,
        if hasErr then reply.getD 5 0 else 0))

def otaAbort : Command Unit := whenReady c (order 0xF6 [])

end Simple

end AlpSdk.Gd32
