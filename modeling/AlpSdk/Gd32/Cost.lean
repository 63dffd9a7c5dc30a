import AlpSdk.Gd32.Calls

-- How many commands a routine of the driver issues at most, once the nesting of the transfers
-- in each other is bounded.
namespace AlpSdk.Gd32

open Library.Bytes Library.Local
open Library.Effect (Signature Env Exec)

theorem within_perform (n : Nat) (cmd : BusCmd) : Within (n + 1) (perform cmd) :=
  @Within.issue busSig Ctx n cmd

theorem within_attnPreRequest : Within 1 attnPreRequest := by
  refine .get fun c => .ite (.pure _ 1) (.ite ?_ (.pure _ 1))
  refine .bind (within_perform 0 _) (fun level => (?_ : Within 0 _)) (by omega)
  split
  · exact .modify _ 0
  · exact .modify _ 0

theorem within_attnStartClock : Within 2 attnStartClock :=
  .get fun _ => .ite (.bind (within_perform 0 _) (fun _ => within_perform 0 _) (by omega)) (.pure _ 2)

theorem within_attnAwaitEdge (tStart : BitVec 32) (tries : Nat) :
    Within (2 * tries) (attnAwaitEdge tStart tries) := by
  induction tries with
  | zero => exact .bind (.modify _ 0) (fun _ => .pure _ 0) (by omega)
  | succ tries ih =>
      refine .bind (within_perform 0 _) (fun edge => (?_ : Within (2 * tries + 1) _)) (by omega)
      cases edge with
      | error e => exact .bind (.modify _ 0) (fun _ => .pure _ 0) (by omega)
      | ok tEdge =>
          refine .ite (ih.mono (by omega)) ?_
          refine .bind (within_perform 0 _) (fun level => (?_ : Within (2 * tries) _)) (by omega)
          split
          · exact .bind (.modify _ 0) (fun _ => .pure _ 0) (by omega)
          · exact ih

theorem within_attnAwaitReply (tStart : BitVec 32) : Within 6 (attnAwaitReply tStart) :=
  .get fun _ => .ite (.pure _ 6) (within_attnAwaitEdge tStart 3)

theorem within_readReply (x : Xfer) (retries : Nat) : Within (retries + 1) (readReply x retries) := by
  induction retries with
  | zero =>
      refine .bind (within_perform 0 _) (fun reply => (?_ : Within 0 _)) (by omega)
      cases reply with
      | error e => exact .pure _ 0
      | ok bytes => exact .pure _ 0
  | succ retries ih =>
      refine .bind (within_perform 0 _) (fun reply => (?_ : Within (retries + 1) _)) (by omega)
      cases reply with
      | error e => exact .pure _ _
      | ok bytes => exact .ite ih (.pure _ _)

-- One level check, two clock commands, the request, three edges and eight reads.
def exchangeCost : Nat := 18

theorem within_exchange (x : Xfer) : Within exchangeCost (exchange x) := by
  refine .bind within_attnPreRequest (fun _ => (?_ : Within 17 _)) (by decide)
  refine .bind within_attnStartClock (fun tStart => (?_ : Within 15 _)) (by omega)
  refine .bind (within_perform 0 _) (fun sent => (?_ : Within 14 _)) (by omega)
  cases sent with
  | error e => exact .pure _ 14
  | ok =>
      refine .get fun c => ?_
      refine .bind (within_attnAwaitReply tStart) (fun gotEdge => (?_ : Within 8 _)) (by omega)
      exact .bind (.modify _ 0) (fun _ => within_readReply x REPLY_RETRIES) (by decide)

section Open

variable {self : Xfer → Drv Ending} {n : Nat} (hself : ∀ x, Within n (self x))

include hself

theorem within_spiXfer (cmd : UInt8) (payload : List UInt8) (replyLen : Nat) :
    Within n (spiXfer self cmd payload replyLen) :=
  .bind (hself _) (fun _ => .pure _ 0) (by omega)

theorem within_linkFeaturesExt (want : Features) (mpReq : Nat) :
    Within n (linkFeaturesExt self want mpReq) := by
  refine .bind (within_spiXfer hself _ _ _) (fun reply => (?_ : Within 0 _)) (by omega)
  cases reply with
  | error e => exact .pure _ 0
  | ok reply => exact .bind (.modify _ 0) (fun _ => .pure _ 0) (by omega)

theorem within_negotiateLegacy : Within n (negotiateLegacy self) := by
  refine .bind (within_spiXfer hself _ _ _) (fun reply => (?_ : Within 0 _)) (by omega)
  cases reply with
  | error e => exact .pure _ 0
  | ok granted => exact .modify _ 0

theorem within_attnSelfTest : Within n (attnSelfTest self) := by
  refine .get fun c => .ite (.pure _ n) (.ite (.modify _ n) ?_)
  refine .bind (.modify _ 0) (fun _ => ?_) (Nat.zero_add n).le
  exact .bind (within_linkFeaturesExt hself _ _) (fun _ => .pure _ 0) (by omega)

theorem within_negotiateExtended : Within (2 * n) (negotiateExtended self) := by
  refine .get fun c => .bind (.modify _ 0) (fun _ => (?_ : Within (2 * n) _)) (by omega)
  refine .bind (within_linkFeaturesExt hself _ _) (fun result => (?_ : Within n _)) (by omega)
  refine .bind (.modify _ 0) (fun _ => ?_) (Nat.zero_add n).le
  cases result with
  | error e => exact within_negotiateLegacy hself
  | ok => exact within_attnSelfTest hself

theorem within_spiNegotiate : Within (2 * n) (spiNegotiate self) := by
  refine .bind (.modify _ 0) (fun _ => (?_ : Within (2 * n) _)) (by omega)
  refine .get fun c => .ite (.pure _ _) (.ite (within_negotiateExtended hself) ?_)
  exact (within_negotiateLegacy hself).mono (by omega)

theorem within_spiSeqResetRecover : Within (3 * n) (spiSeqResetRecover self) := by
  refine .bind (.modify _ 0) (fun _ => (?_ : Within (3 * n) _)) (by omega)
  refine .bind (within_spiXfer hself _ _ _) (fun reply => (?_ : Within (2 * n) _)) (by omega)
  cases reply with
  | error e => exact within_spiNegotiate hself
  | ok v => exact .bind (.modify _ 0) (fun _ => within_spiNegotiate hself) (by omega)

theorem within_spiResyncAfterFailure (x : Xfer) : Within n (spiResyncAfterFailure self x) :=
  .ite (.pure _ n) (.bind (within_spiXfer hself _ _ _) (fun _ => .pure _ 0) (by omega))

theorem within_failAfterResync (x : Xfer) : Within n (failAfterResync self x) :=
  .bind (within_spiResyncAfterFailure hself x) (fun _ => .pure _ 0) (by omega)

-- The dearest way to end an exchange is the recovery from a reset.
theorem within_sendOnce (x : Xfer) {again : Drv Ending} {m : Nat} (hagain : Within m again) :
    Within (exchangeCost + 1 + 3 * n + m) (sendOnce self x again) := by
  refine .bind (within_exchange x) (fun reply => (?_ : Within (1 + 3 * n + m) _)) (by omega)
  cases reply with
  | error e => exact .pure _ _
  | ok reply =>
      refine .get fun c => ?_
      simp only
      split
      · refine .bind (.modify _ 0) (fun _ => (?_ : Within 1 _)) (by omega)
        exact .bind (within_perform 0 _) (fun _ => .pure _ 0) (by omega)
      · refine .bind (.modify _ 0) (fun _ => (?_ : Within (1 + n) _)) (by omega)
        refine .bind (within_perform 0 _) (fun _ => (?_ : Within n _)) (by omega)
        split
        · exact .bind (within_spiResyncAfterFailure hself x) (fun _ => .pure _ 0) (by omega)
        · exact .bind (.pure _ 0) (fun _ => .pure _ n) (by omega)
      · exact .bind (within_spiSeqResetRecover hself) (fun _ => .pure _ 0) (by omega)
      · exact (within_failAfterResync hself x).mono (by omega)
      · exact hagain.mono (by omega)

theorem within_xferBody (x : Xfer) : Within (39 + 7 * n) (xferBody self x) := by
  refine .get fun c => .ite (.pure _ _) (.ite (.pure _ _) ?_)
  refine .bind (within_perform 0 _) (fun _ => (?_ : Within (38 + 7 * n) _)) (by omega)
  refine (within_sendOnce hself x (within_sendOnce hself x (within_failAfterResync hself x))).mono ?_
  unfold exchangeCost
  omega

end Open

def xferCost : Nat → Nat
  | 0 => 0
  | depth + 1 => 39 + 7 * xferCost depth

theorem within_spiXferCore (depth : Nat) (x : Xfer) : Within (xferCost depth) (spiXferCore depth x) := by
  induction depth generalizing x with
  | zero => exact .exhausted _
  | succ depth ih => exact within_xferBody ih x

section Send

variable {depth w : Nat} {wake : Drv Status} (hwake : Within w wake)

theorem within_coreXfer (depth : Nat) (cmd : UInt8) (payload : List UInt8) (replyLen : Nat) :
    Within (xferCost depth) (spiXfer (spiXferCore depth) cmd payload replyLen) :=
  within_spiXfer (within_spiXferCore depth) cmd payload replyLen

theorem within_i2cXfer (cmd : UInt8) (payload : List UInt8) (replyLen : Nat) :
    Within 1 (i2cXfer cmd payload replyLen) := by
  refine .get fun c => .ite (.pure _ 1) (.ite (.pure _ 1) (.ite (.pure _ 1) ?_))
  refine .bind (within_perform 0 _) (fun reply => (?_ : Within 0 _)) (by omega)
  cases reply with
  | error e => exact .pure _ 0
  | ok bytes => exact .pure _ 0

theorem within_renegotiate (depth : Nat) : Within (3 * xferCost depth) (renegotiate depth) := by
  refine .bind (within_coreXfer depth _ _ _) (fun reply => (?_ : Within (2 * xferCost depth) _)) (by omega)
  cases reply with
  | error e => exact .pure _ _
  | ok v =>
      exact .bind (.modify _ 0) (fun _ => within_spiNegotiate (within_spiXferCore depth)) (by omega)

theorem within_withdrawAttn (depth : Nat) : Within (xferCost depth) (withdrawAttn depth) := by
  refine .get fun c => .bind (.modify _ 0) (fun _ => (?_ : Within (xferCost depth) _)) (by omega)
  exact .bind (within_linkFeaturesExt (within_spiXferCore depth) _ _) (fun _ => .pure _ 0) (by omega)

include hwake

theorem within_wakeFirst : Within w (wakeFirst wake) := .get fun _ => .ite hwake (.pure _ w)

theorem within_spiPrepare : Within (w + 3 * xferCost depth) (spiPrepare depth wake) := by
  refine .get fun c => .ite (.pure _ _) (.bind (within_wakeFirst hwake)
    (fun woken => (?_ : Within (3 * xferCost depth) _)) (by omega))
  cases woken with
  | error e => exact .pure _ _
  | ok =>
      refine .get fun c => .ite (.bind (within_renegotiate depth) (fun _ => .pure _ 0) (by omega)) ?_
      exact .ite (.bind (within_withdrawAttn depth) (fun _ => .pure _ 0) (by omega)) (.pure _ _)

theorem within_spiSend (cmd : UInt8) (payload : List UInt8) (replyLen : Nat) :
    Within (w + 4 * xferCost depth) (spiSend depth wake cmd payload replyLen) := by
  refine .bind (.ite (.pure _ _) (within_spiPrepare hwake))
    (fun ready => (?_ : Within (xferCost depth) _)) (by omega)
  cases ready with
  | error e => exact .pure _ _
  | ok =>
      refine .bind (within_coreXfer depth _ _ _) (fun r => (?_ : Within 0 _)) (by omega)
      exact .bind (.modify _ 0) (fun _ => .pure _ 0) (by omega)

def sendCost (depth w : Nat) : Nat := 2 * w + 4 * xferCost depth + 1

theorem within_cmdSendWith (t : Transport) (cmd : UInt8) (payload : List UInt8) (replyLen : Nat) :
    Within (sendCost depth w) (cmdSendWith depth wake t cmd payload replyLen) := by
  refine .get fun c => .bind (within_wakeFirst hwake)
    (fun woken => (?_ : Within (w + 4 * xferCost depth + 1) _)) (by unfold sendCost; omega)
  cases woken with
  | error e => exact .pure _ _
  | ok =>
      simp only
      split
      · exact (within_spiSend hwake cmd payload replyLen).mono (by omega)
      · refine .bind (within_i2cXfer cmd payload replyLen) (fun r => (?_ : Within 0 _)) (by omega)
        exact .bind (.modify _ 0) (fun _ => .pure _ 0) (by omega)
      · exact .pure _ _
      · exact .pure _ _

theorem within_powerModeSend (mode flags : UInt8) (wakeBitmap wakeAfterMs : BitVec 32) :
    Within (sendCost depth w) (powerModeSend depth wake mode flags wakeBitmap wakeAfterMs) :=
  .get fun _ => .bind (within_cmdSendWith hwake _ _ _ _) (fun _ => .pure _ 0) (by omega)

theorem within_wakeOnce : Within (2 * sendCost depth w) (wakeOnce depth wake) :=
  .bind (within_cmdSendWith hwake _ _ _ _) (fun _ => within_powerModeSend hwake _ _ _ _) (by omega)

theorem within_wakeAttempts (retries : Nat) :
    Within ((retries + 1) * (2 * sendCost depth w)) (wakeAttempts depth wake retries) := by
  induction retries with
  | zero => exact (within_wakeOnce hwake).mono (by omega)
  | succ retries ih =>
      refine .bind (within_wakeOnce hwake) (fun s => .ite ih (.pure _ _)) ?_
      rw [Nat.add_mul (retries + 1) 1]
      omega

end Send

-- At most 256 attempts: the retry count is a byte.
def wakeCost (depth : Nat) : Nat → Nat
  | 0 => 0
  | nesting + 1 => 256 * (2 * sendCost depth (wakeCost depth nesting))

theorem within_powerWake (depth nesting : Nat) :
    Within (wakeCost depth nesting) (powerWake depth nesting) := by
  induction nesting with
  | zero => exact .exhausted _
  | succ nesting ih =>
      refine .get fun c => .ite (.pure _ _) (.ite (.pure _ _) ?_)
      refine .bind (.modify _ 0) (fun _ => (?_ : Within (wakeCost depth (nesting + 1)) _)) (by omega)
      have hretries : (c.powerWakeRetries.toNat + 1) * (2 * sendCost depth (wakeCost depth nesting))
          ≤ wakeCost depth (nesting + 1) :=
        Nat.mul_le_mul_right _ c.powerWakeRetries.toNat_lt
      refine .bind (within_wakeAttempts ih c.powerWakeRetries.toNat) (fun s => (?_ : Within 0 _)) (by omega)
      exact .ite (.bind (.modify _ 0) (fun _ => .pure _ 0) (by omega)) (.pure _ 0)

def commandCost (depth : Nat) : Nat := sendCost depth (wakeCost depth depth)

section Programs

variable (depth : Nat)

theorem within_run {α : Type} (k : Command α) : Within (commandCost depth) (k.run depth) := by
  cases k with
  | refuse e => exact .pure _ _
  | send t cmd payload replyLen parse =>
      refine .bind (within_cmdSendWith (within_powerWake depth depth) t cmd payload replyLen)
        (fun reply => (?_ : Within 0 _)) (by unfold commandCost; omega)
      cases reply with
      | error e => exact .pure _ 0
      | ok reply => exact .pure _ 0

theorem within_withCtx {α : Type} (k : Ctx → Command α) : Within (commandCost depth) (withCtx depth k) :=
  .get fun c => within_run depth (k c)

theorem xferCost_le_commandCost : 4 * xferCost depth ≤ commandCost depth := by
  unfold commandCost sendCost
  omega

theorem within_prepare :
    Within (commandCost depth) (spiPrepare depth (powerWake depth depth)) := by
  refine (within_spiPrepare (within_powerWake depth depth)).mono ?_
  unfold commandCost sendCost
  omega

theorem within_refreshVersion : Within (2 * commandCost depth) (refreshVersion depth) := by
  have hxfer := xferCost_le_commandCost depth
  refine .bind (within_cmdSendWith (within_powerWake depth depth) _ _ _ _)
    (fun reply => (?_ : Within (2 * xferCost depth) _)) (by unfold commandCost at hxfer ⊢; omega)
  cases reply with
  | error e => exact .pure _ _
  | ok v =>
      refine .bind (.modify _ 0) (fun _ => (?_ : Within (2 * xferCost depth) _)) (by omega)
      refine .get fun c => .ite ?_ (.pure _ _)
      refine .bind (.modify _ 0) (fun _ => (?_ : Within (2 * xferCost depth) _)) (by omega)
      exact .bind (within_spiNegotiate (within_spiXferCore depth)) (fun _ => .pure _ 0) (by omega)

theorem within_setDefaultTransport (t : Transport) : Within 0 (setDefaultTransport t) :=
  .get fun _ => .ite (.pure _ 0) (.ite (.pure _ 0) (.ite (.pure _ 0) (.ite (.pure _ 0)
    (.bind (.modify _ 0) (fun _ => .pure _ 0) (by omega)))))

theorem within_bootConfigPoll (flags : BitVec 32) (tries : Nat) :
    Within (tries * commandCost depth) (bootConfigPoll depth flags tries) := by
  induction tries with
  | zero => exact .pure _ _
  | succ tries ih =>
      refine .bind (within_withCtx depth _) (fun stored => .ite (.pure _ _) ih) ?_
      rw [Nat.add_mul tries 1]
      omega

theorem within_bootConfigSet (flags : BitVec 32) :
    Within (23 * commandCost depth) (bootConfigSet depth flags) := by
  refine .bind (within_withCtx depth _) (fun stored => (?_ : Within (22 * commandCost depth) _)) (by omega)
  cases stored with
  | error e => exact .pure _ _
  | ok stored => exact .ite (.pure _ _) (within_bootConfigPoll depth flags 22)

theorem within_adcStreamEnd (streamId : UInt8) : Within (commandCost depth) (adcStreamEnd depth streamId) := by
  refine .bind (within_withCtx depth _) (fun reply => (?_ : Within 0 _)) (by omega)
  cases reply with
  | error e => exact .pure _ 0
  | ok => exact .bind (.modify _ 0) (fun _ => .pure _ 0) (by omega)

theorem within_attnWaitEvent (timeoutMs : Nat) : Within 1 (attnWaitEvent timeoutMs) := by
  refine .get fun c => .ite (.pure _ 1) (.ite (.pure _ 1) ?_)
  refine .bind (within_perform 0 _) (fun edge => (?_ : Within 0 _)) (by omega)
  cases edge with
  | error e => exact .pure _ 0
  | ok tEdge => exact .bind (.modify _ 0) (fun _ => .pure _ 0) (by omega)

theorem within_adcStreamBegin2 (streamId channel : UInt8) (sampleRateHz : BitVec 32)
    (watermark : BitVec 16) :
    Within (commandCost depth) (adcStreamBegin2 depth streamId channel sampleRateHz watermark) := by
  refine .bind (within_withCtx depth _) (fun reply => (?_ : Within 0 _)) (by omega)
  cases reply with
  | error e => exact .pure _ 0
  | ok info => exact .bind (.modify _ 0) (fun _ => .pure _ 0) (by omega)

theorem within_adcStreamRead2 (streamId maxSamples : UInt8) :
    Within (2 * commandCost depth) (adcStreamRead2 depth streamId maxSamples) := by
  have hxfer := xferCost_le_commandCost depth
  refine .get fun c => .ite (.pure _ _) (.ite (.pure _ _) (.ite (.pure _ _) ?_))
  refine .bind (within_prepare depth) (fun ready => (?_ : Within (commandCost depth) _)) (by omega)
  cases ready with
  | error e => exact .pure _ _
  | ok =>
      refine .get fun c => .ite (.pure _ _) (.ite (.pure _ _) ?_)
      refine .bind (within_spiXferCore depth _) (fun ending => (?_ : Within 0 _)) (by omega)
      refine .bind (.modify _ 0) (fun _ => (?_ : Within 0 _)) (by omega)
      cases ending.result with
      | error e => exact .pure _ 0
      | ok p => exact .bind (.modify _ 0) (fun _ => .pure _ 0) (by omega)

theorem within_batch (ops : List BatchOp) : Within (2 * commandCost depth) (batch depth ops) := by
  have hxfer := xferCost_le_commandCost depth
  refine .get fun c => .ite (.pure _ _) (.ite (.pure _ _) (.ite (.pure _ _) ?_))
  refine .bind (within_prepare depth) (fun ready => (?_ : Within (commandCost depth) _)) (by omega)
  cases ready with
  | error e => exact .pure _ _
  | ok =>
      refine .get fun c => .ite (.pure _ _) ?_
      cases planOps c [] ops with
      | error e => exact .pure _ _
      | ok plan =>
          refine .ite (.pure _ _) ?_
          refine .bind (within_spiXferCore depth _) (fun ending => (?_ : Within 0 _)) (by omega)
          refine .bind (.modify _ 0) (fun _ => (?_ : Within 0 _)) (by omega)
          cases ending.result with
          | error e => exact .pure _ 0
          | ok p => exact .pure _ 0

theorem within_trngTries (len tries : Nat) :
    Within (tries * commandCost depth) (trngTries depth len tries) := by
  induction tries with
  | zero => exact .pure _ _
  | succ tries ih =>
      refine .bind (within_run depth _) (fun reply => (?_ : Within (tries * commandCost depth) _)) ?_
      · split
        · exact ih
        · exact .pure _ _
      · rw [Nat.add_mul tries 1]
        omega

theorem within_trngRead (len : Nat) : Within (4 * commandCost depth) (trngRead depth len) :=
  .get fun _ => .ite (.pure _ _) (.ite (.pure _ _) (within_trngTries depth len 4))

theorem within_setPowerMode (mode : UInt8) (opts : Option PowerOpts) :
    Within (2 * commandCost depth) (setPowerMode depth mode opts) := by
  refine .get fun c => ?_
  simp only
  split
  · exact .pure _ _
  · refine .bind (within_powerWake depth depth) (fun woken => (?_ : Within (commandCost depth) _))
      (by unfold commandCost sendCost; omega)
    cases woken with
    | error e => exact .pure _ _
    | ok =>
        refine .bind (within_powerModeSend (within_powerWake depth depth) _ _ _ _)
          (fun result => (?_ : Within 0 _)) (by unfold commandCost; omega)
        refine .bind (.modify _ 0) (fun _ => (?_ : Within 0 _)) (by omega)
        cases result with
        | error e => exact .pure _ 0
        | ok => exact .ite (.bind (.modify _ 0) (fun _ => .pure _ 0) (by omega)) (.pure _ 0)

theorem within_stageChunks (chainId stageIndex kind : UInt8) (params : List UInt8) (more offset : Nat) :
    Within ((more + 1) * commandCost depth)
      (stageChunks depth chainId stageIndex kind params more offset) := by
  induction more generalizing offset with
  | zero => exact (within_run depth _).mono (by omega)
  | succ more ih =>
      refine .bind (within_run depth _)
        (fun reply => (?_ : Within ((more + 1) * commandCost depth) _)) ?_
      · cases reply with
        | error e => exact .pure _ _
        | ok => exact .ite (ih _) (.pure _ _)
      · rw [Nat.add_mul (more + 1) 1]
        omega

-- Five chunks of 58 bytes cover the 260 bytes a stage may have.
theorem within_adcDspStagePush (chainId stageIndex kind : UInt8) (params : List UInt8) :
    Within (5 * commandCost depth) (adcDspStagePush depth chainId stageIndex kind params) := by
  refine .get fun c => .ite (.pure _ _) (.ite (.pure _ _) (.ite (.pure _ _) ?_))
  split
  · exact .pure _ _
  · rename_i hlen
    refine (within_stageChunks depth chainId stageIndex kind params _ 0).mono ?_
    have hmore : params.length / DSP_MAX_CHUNK_BYTES + 1 ≤ 5 := by
      unfold DSP_MAX_CHUNK_BYTES
      omega
    exact Nat.mul_le_mul_right _ hmore

theorem within_otaResetCmd (cmd : UInt8) : Within (commandCost depth) (otaResetCmd depth cmd) := by
  refine .bind (within_withCtx depth _) (fun reply => (?_ : Within 0 _)) (by omega)
  cases reply with
  | error e => exact .pure _ 0
  | ok => exact .bind (.modify _ 0) (fun _ => .pure _ 0) (by omega)

theorem within_discard {α : Type} {n m : Nat} {p : Drv (Except AlpError α)} (hp : Within n p)
    (hle : n ≤ m) : Within m (discard p) :=
  .bind hp (fun _ => .pure _ 0) hle

def callCost : Nat := 23 * commandCost depth + wakeCost depth depth + 1

theorem within_call (call : Call) : Within (callCost depth) (call.run depth) := by
  unfold callCost
  cases call with
  | simple k => exact (within_withCtx depth _).mono (by omega)
  | refreshVersion => exact within_discard (within_refreshVersion depth) (by omega)
  | getVersion =>
      exact within_discard (.get fun _ => .ite (.pure _ _) (within_refreshVersion depth)) (by omega)
  | setDefaultTransport t => exact (within_setDefaultTransport t).mono (by omega)
  | bootConfigSet flags => exact (within_bootConfigSet depth flags).mono (by omega)
  | adcStreamEnd streamId => exact (within_adcStreamEnd depth streamId).mono (by omega)
  | attnWaitEvent timeoutMs => exact (within_attnWaitEvent timeoutMs).mono (by omega)
  | adcStreamBegin2 streamId channel sampleRateHz watermark =>
      exact within_discard (within_adcStreamBegin2 depth streamId channel sampleRateHz watermark) (by omega)
  | adcStreamRead2 streamId maxSamples =>
      exact within_discard (within_adcStreamRead2 depth streamId maxSamples) (by omega)
  | batch ops => exact within_discard (within_batch depth ops) (by omega)
  | trngRead len => exact within_discard (within_trngRead depth len) (by omega)
  | powerWake => exact (within_powerWake depth depth).mono (by omega)
  | setPowerMode mode opts => exact (within_setPowerMode depth mode opts).mono (by omega)
  | adcDspStagePush chainId stageIndex kind params =>
      exact (within_adcDspStagePush depth chainId stageIndex kind params).mono (by omega)
  | otaCommit => exact (within_otaResetCmd depth _).mono (by omega)
  | otaRollback => exact (within_otaResetCmd depth _).mono (by omega)
  | deinit => exact .bind (.modify _ 0) (fun _ => .pure _ 0) (by omega)

end Programs

end AlpSdk.Gd32
