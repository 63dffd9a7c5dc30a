import AlpSdk.Gd32.Frame

namespace AlpSdk.Gd32

open Library.Bytes Library.Local
open Library.Effect (Signature Env Exec)

variable {S : Type} {env : Env (issuing busSig Ctx) S} {J : S → Prop} {E : Prop} {I : Ctx → Prop}
variable {depth : Nat}

-- The decoder never finds more payload than was clocked.
def Xfer.Decodes (x : Xfer) : Prop :=
  ∀ decode p plen, x.decode = some decode → p.length ≤ x.replyMax → decode p = some plen →
    plen ≤ x.replyMax

theorem decodes_fixed (cmd : UInt8) (payload : List UInt8) (replyLen : Nat) :
    (Xfer.fixed cmd payload replyLen).Decodes := nofun

-- A command that is not itself a link negotiation.
def Command.Ordinary {α : Type} : Command α → Prop
  | .refuse _ => True
  | .send _ cmd _ _ _ => cmd ≠ CMD_LINK_FEATURES

-- What it takes for a request on either transport to keep an invariant of the context.
structure Sends (env : Env (issuing busSig Ctx) S) (J : S → Prop) (E : Prop) (depth : Nat)
    (I : Ctx → Prop) : Prop where
  quiet : Quiet env
  i2c : ∀ c s addr frame len reply s', J s → env s ⟨c, .i2cWriteRead addr frame len⟩ reply s' → J s'
  xfer : ∀ x, x.Decodes → x.cmd ≠ CMD_LINK_FEATURES → Keeps env J E I (spiXferCore depth x)
  renegotiate : ∀ c s, I c → c.renegotiatePending = true → J s →
    wp env J E (renegotiate depth) (fun _ c' _ => I c') c s
  withdraw : ∀ c s, I c → c.renegotiatePending = false → c.attnFaultPending = true → J s →
    wp env J E (withdrawAttn depth) (fun _ c' _ => I c') c s
  cached : ∀ c cached, I c → I { c with versionCached := cached }

namespace Sends

variable (h : Sends env J E depth I)

include h

theorem keeps_quiet {cmd : BusCmd} (hcmd : cmd.isQuiet) : Keeps env J E I (perform cmd) := by
  refine .perform fun c s reply s' _ hJ henv => ?_
  rw [h.quiet s c cmd reply s' hcmd henv]
  exact hJ

theorem keeps_spiXfer {cmd : UInt8} (hcmd : cmd ≠ CMD_LINK_FEATURES) (payload : List UInt8)
    (replyLen : Nat) : Keeps env J E I (spiXfer (spiXferCore depth) cmd payload replyLen) :=
  .bind (h.xfer _ (decodes_fixed cmd payload replyLen) hcmd) fun _ => .pure _

theorem keeps_i2cXfer (cmd : UInt8) (payload : List UInt8) (replyLen : Nat) :
    Keeps env J E I (i2cXfer cmd payload replyLen) := by
  refine .get fun c => .ite (.pure _) (.ite (.pure _) (.ite (.pure _) ?_))
  refine .bind (.perform fun c s reply s' _ hJ henv => h.i2c c s _ _ _ reply s' hJ henv) fun reply => ?_
  cases reply with
  | error e => exact .pure _
  | ok bytes => exact .pure _

theorem keeps_distrust {α : Type} (r : Except AlpError α) : Keeps env J E I (modify (distrustVersion r)) := by
  refine .modify fun c hI => ?_
  unfold distrustVersion
  split
  · exact h.cached c false hI
  · exact hI

section Wake

-- The wake is only called where the bridge is taken to be asleep.
variable {wake : Drv Status}
  (hwake : ∀ c s, I c → c.powerAsleep = true → J s → wp env J E wake (fun _ c' _ => I c') c s)

include hwake

omit h in
theorem keeps_wakeFirst : Keeps env J E I (wakeFirst wake) := by
  refine fun c s hI hJ => wp_get_bind ?_
  split
  · rename_i hasleep
    exact hwake c s hI hasleep hJ
  · exact wp_pure hJ hI

-- Which deferred work runs is read from the context just before.
theorem keeps_spiPrepare : Keeps env J E I (spiPrepare depth wake) := by
  refine .get fun c => .ite (.pure _) (.bind (keeps_wakeFirst hwake) fun woken => ?_)
  cases woken with
  | error e => exact .pure _
  | ok =>
      intro c s hI hJ
      refine wp_get_bind ?_
      split
      · rename_i hpending
        exact wp_seq (h.renegotiate c s hI hpending hJ) fun _ _ _ hJ' hI' => wp_pure hJ' hI'
      · rename_i hpending
        split
        · rename_i hfault
          have hwithdraw := h.withdraw c s hI (by simpa using hpending) hfault hJ
          exact wp_seq hwithdraw fun _ _ _ hJ' hI' => wp_pure hJ' hI'
        · exact wp_pure hJ hI

theorem keeps_spiSend {cmd : UInt8} (hcmd : cmd ≠ CMD_LINK_FEATURES) (payload : List UInt8)
    (replyLen : Nat) : Keeps env J E I (spiSend depth wake cmd payload replyLen) := by
  refine .bind (.ite (.pure _) (h.keeps_spiPrepare hwake)) fun ready => ?_
  cases ready with
  | error e => exact .pure _
  | ok =>
      exact .bind (h.keeps_spiXfer hcmd payload replyLen) fun r =>
        .bind (h.keeps_distrust r) fun _ => .pure _

theorem keeps_cmdSendWith (t : Transport) {cmd : UInt8} (hcmd : cmd ≠ CMD_LINK_FEATURES)
    (payload : List UInt8) (replyLen : Nat) :
    Keeps env J E I (cmdSendWith depth wake t cmd payload replyLen) := by
  refine .get fun c => .bind (keeps_wakeFirst hwake) fun woken => ?_
  cases woken with
  | error e => exact .pure _
  | ok =>
      simp only
      split
      · exact h.keeps_spiSend hwake hcmd payload replyLen
      · exact .bind (h.keeps_i2cXfer cmd payload replyLen) fun r =>
          .bind (h.keeps_distrust r) fun _ => .pure _
      · exact .pure _
      · exact .pure _

theorem keeps_powerModeSend (mode flags : UInt8) (wakeBitmap wakeAfterMs : BitVec 32) :
    Keeps env J E I (powerModeSend depth wake mode flags wakeBitmap wakeAfterMs) :=
  .get fun _ => .bind (h.keeps_cmdSendWith hwake _ (by decide) _ _) fun _ => .pure _

theorem keeps_wakeOnce : Keeps env J E I (wakeOnce depth wake) :=
  .bind (h.keeps_cmdSendWith hwake _ (by decide) _ _) fun _ => h.keeps_powerModeSend hwake _ _ _ _

theorem keeps_wakeAttempts (retries : Nat) : Keeps env J E I (wakeAttempts depth wake retries) := by
  induction retries with
  | zero => exact h.keeps_wakeOnce hwake
  | succ retries ih => exact .bind (h.keeps_wakeOnce hwake) fun _ => .ite ih (.pure _)

theorem keeps_run {α : Type} {k : Command α} (hk : k.Ordinary) (hnested : wake = powerWake depth depth) :
    Keeps env J E I (k.run depth) := by
  subst hnested
  cases k with
  | refuse e => exact .pure _
  | send t cmd payload replyLen parse =>
      refine .bind (h.keeps_cmdSendWith hwake t hk payload replyLen) fun reply => ?_
      cases reply with
      | error e => exact .pure _
      | ok reply => exact .pure _

theorem keeps_refreshVersion (hnested : wake = powerWake depth depth)
    (hversion : ∀ c v, I c → I (setVersion v c))
    (hnegotiate : ∀ c s, I c → c.renegotiatePending = true → J s →
      wp env J E (spiNegotiate (spiXferCore depth)) (fun _ c' _ => I c')
        { c with renegotiatePending := false, attnUnusable := false } s) :
    Keeps env J E I (refreshVersion depth) := by
  subst hnested
  refine .bind (h.keeps_cmdSendWith hwake .default (by decide) [] 3) fun reply => ?_
  cases reply with
  | error e => exact .pure _
  | ok v =>
      refine .bind (.modify fun c hI => hversion c v hI) fun _ c s hI hJ => wp_get_bind ?_
      split
      · rename_i hpending
        refine wp_modify_bind (wp_seq (hnegotiate c s hI hpending.1 hJ) fun _ _ _ hJ' hI' => ?_)
        exact wp_pure hJ' hI'
      · exact wp_pure hJ hI

end Wake

-- The link code does not put the bridge to sleep.
theorem awake : Sends env J E depth fun c => I c ∧ c.powerAsleep = false where
  quiet := h.quiet
  i2c := h.i2c
  xfer x hx hcmd := (h.xfer x hx hcmd).and_frames (stable_awake.spiXferCore depth x)
  renegotiate c s hc hpending hJ :=
    wp_always (h.renegotiate c s hc.1 hpending hJ)
      (stable_awake.renegotiate (stable_awake.spiXferCore depth) (fun _ _ hc => hc) c () hc.2 trivial)
  withdraw c s hc hpending hfault hJ :=
    wp_always (h.withdraw c s hc.1 hpending hfault hJ)
      (stable_awake.withdrawAttn (stable_awake.spiXferCore depth) c () hc.2 trivial)
  cached c cached hc := ⟨h.cached c cached hc.1, hc.2⟩

-- The commands of a wake find the bridge awake, so they never call it again.
theorem keeps_powerWake (hasleep : ∀ c asleep, I c → I { c with powerAsleep := asleep }) (nesting : Nat) :
    Keeps env J E I (powerWake depth (nesting + 1)) := by
  refine fun c s hI hJ => wp_get_bind ?_
  split
  · exact wp_pure hJ hI
  · split
    · exact wp_pure hJ hI
    · refine wp_modify_bind ?_
      have hnever : ∀ c s, (I c ∧ c.powerAsleep = false) → c.powerAsleep = true → J s →
          wp env J E (powerWake depth nesting) (fun _ c' _ => I c' ∧ c'.powerAsleep = false) c s := by
        intro c s hc hslept
        simp [hc.2] at hslept
      refine wp_seq (h.awake.keeps_wakeAttempts hnever c.powerWakeRetries.toNat _ s
        ⟨hasleep c false hI, rfl⟩ hJ) fun result c' s' hJ' hc' => ?_
      split
      · exact wp_modify_bind (wp_pure hJ' (hasleep c' true hc'.1))
      · exact wp_pure hJ' hc'.1

end Sends

-- The context as a command may leave it besides what its transfers do: ATTN may be dropped,
-- and what the link negotiated stays.
structure Tweaked (c c' : Ctx) : Prop where
  spi : c'.spi = c.spi
  seqEnabled : c'.seqEnabled = c.seqEnabled
  granted : c'.granted = c.granted
  maxPayload : c'.maxPayload = c.maxPayload
  attn : c'.attn = c.attn
  attnActive : c'.attnActive = true → c.attnActive = true
  renegotiatePending : c'.renegotiatePending = c.renegotiatePending

-- What it takes for every public call to keep an invariant of the context.
structure Upholds (env : Env (issuing busSig Ctx) S) (J : S → Prop) (E : Prop) (depth : Nat)
    (I : Ctx → Prop) : Prop where
  sends : Sends env J E depth I
  negotiate : ∀ c s, I c → c.renegotiatePending = true → J s →
    wp env J E (spiNegotiate (spiXferCore depth)) (fun _ c' _ => I c')
      { c with renegotiatePending := false, attnUnusable := false } s
  tweak : ∀ c c', Tweaked c c' → I c → I c'
  resets : ∀ c, I c → I (bridgeResets c)
  closes : ∀ c, I c → I
    { spiDropNegotiated c with initialised := false, versionCached := false, spi := false, i2c := false }
  nested : E ∨ 1 ≤ depth

-- Where the transfers keep the environment's invariant, so does every call.
theorem upholds_of_core (hquiet : Quiet env)
    (hi2c : ∀ c s addr frame len reply s', J s → env s ⟨c, .i2cWriteRead addr frame len⟩ reply s' → J s')
    (hcore : ∀ x, Keeps env J E (fun _ => True) (spiXferCore depth x)) (hnested : E ∨ 1 ≤ depth) :
    Upholds env J E depth fun _ => True where
  sends :=
    { quiet := hquiet
      i2c := hi2c
      xfer := fun x _ _ => hcore x
      renegotiate := fun c s hI _ hJ => stable_true.renegotiate hcore (fun _ _ _ => trivial) c s hI hJ
      withdraw := fun c s hI _ _ hJ => stable_true.withdrawAttn hcore c s hI hJ
      cached := fun _ _ _ => trivial }
  negotiate _ s _ _ hJ := stable_true.spiNegotiate hcore _ s trivial hJ
  tweak _ _ _ _ := trivial
  resets _ _ := trivial
  closes _ _ := trivial
  nested := hnested

namespace Upholds

variable {α : Type} (h : Upholds env J E depth I)

include h

theorem keeps_tweak {g : Ctx → Ctx} (hg : ∀ c, Tweaked c (g c)) : Keeps env J E I (modify g) :=
  .modify fun c hI => h.tweak c (g c) (hg c) hI

theorem keeps_powerWake : Keeps env J E I (powerWake depth depth) := by
  cases hdepth : depth with
  | zero =>
      have hE : E := h.nested.resolve_right (by omega)
      exact fun _ _ _ hJ => wp_exhausted hJ hE
  | succ nesting =>
      rw [← hdepth]
      nth_rewrite 2 [hdepth]
      refine h.sends.keeps_powerWake (fun c _ hI => ?_) nesting
      exact h.tweak c _ ⟨rfl, rfl, rfl, rfl, rfl, id, rfl⟩ hI

theorem keeps_wake : ∀ c s, I c → c.powerAsleep = true → J s →
    wp env J E (powerWake depth depth) (fun _ c' _ => I c') c s :=
  fun c s hI _ hJ => h.keeps_powerWake c s hI hJ

theorem keeps_prepare : Keeps env J E I (spiPrepare depth (powerWake depth depth)) :=
  h.sends.keeps_spiPrepare h.keeps_wake

theorem keeps_run {k : Command α} (hk : k.Ordinary) : Keeps env J E I (k.run depth) :=
  h.sends.keeps_run h.keeps_wake hk rfl

theorem keeps_withCtx {k : Ctx → Command α} (hk : ∀ c, (k c).Ordinary) :
    Keeps env J E I (withCtx depth k) :=
  .get fun c => h.keeps_run (hk c)

end Upholds

theorem ordinary_whenReady {α : Type} {c : Ctx} {k : Command α} (hk : k.Ordinary) :
    (whenReady c k).Ordinary := by
  unfold whenReady
  split
  · exact hk
  · trivial

theorem ordinary_checked {α : Type} {bad : Bool} {e : AlpError} {k : Command α} (hk : k.Ordinary) :
    (checked bad e k).Ordinary := by
  unfold checked
  split
  · trivial
  · exact hk

theorem ordinary_void {α : Type} {k : Command α} (hk : k.Ordinary) : k.void.Ordinary := by
  cases k with
  | refuse e => trivial
  | send t cmd payload replyLen parse => exact hk

theorem ordinary_order {cmd : UInt8} {payload : List UInt8} (hcmd : cmd ≠ CMD_LINK_FEATURES) :
    (order cmd payload).Ordinary := hcmd

theorem ordinary_query {α : Type} {cmd : UInt8} {payload : List UInt8} {replyLen : Nat}
    {parse : List UInt8 → α} (hcmd : cmd ≠ CMD_LINK_FEATURES) :
    (query cmd payload replyLen parse).Ordinary := hcmd

theorem ordinary_command (c : Ctx) (k : SimpleCall) : (k.command c).Ordinary := by
  cases k with
  | ping => exact ordinary_order (by decide)
  | pingVia t => exact (by decide : CMD_PING ≠ CMD_LINK_FEATURES)
  | getBuildId => exact ordinary_void (ordinary_whenReady (ordinary_query (by decide)))
  | getResetReason => exact ordinary_void (ordinary_whenReady (ordinary_query (by decide)))
  | gpioRead mask =>
      exact ordinary_void (ordinary_whenReady (ordinary_checked (ordinary_checked
        (ordinary_query (by decide)))))
  | gpioWrite mask levels =>
      exact ordinary_whenReady (ordinary_checked (ordinary_checked (ordinary_order (by decide))))
  | pwmSet channel periodNs dutyNs =>
      exact ordinary_whenReady (ordinary_checked (ordinary_order (by decide)))
  | pwmStop channel => exact ordinary_whenReady (ordinary_checked (ordinary_order (by decide)))
  | pwmGet channel => exact ordinary_void (ordinary_whenReady (ordinary_query (by decide)))
  | adcRead channel samples =>
      exact ordinary_void (ordinary_whenReady (ordinary_checked (by decide : (0x30 : UInt8) ≠ _)))
  | da9292StatusForward => exact ordinary_void (ordinary_whenReady (ordinary_query (by decide)))
  | seReset hold => exact ordinary_whenReady (ordinary_order (by decide))
  | bootConfigGet => exact ordinary_void (ordinary_whenReady (ordinary_query (by decide)))
  | dacSet channel valueMv => exact ordinary_whenReady (ordinary_checked (ordinary_order (by decide)))
  | dacGet channel =>
      exact ordinary_void (ordinary_whenReady (ordinary_checked (ordinary_query (by decide))))
  | qencRead encoder =>
      exact ordinary_void (ordinary_whenReady (ordinary_checked (ordinary_query (by decide))))
  | qencReset encoder => exact ordinary_whenReady (ordinary_checked (ordinary_order (by decide)))
  | counterRead counter =>
      exact ordinary_void (ordinary_whenReady (ordinary_checked (ordinary_query (by decide))))
  | pwmConfigure channel alignMode deadTimeNs breakCfg =>
      exact ordinary_whenReady (ordinary_checked (ordinary_order (by decide)))
  | adcConfigure channel oversampleRatio sampleCycles resolutionBits =>
      exact ordinary_whenReady (ordinary_checked (ordinary_order (by decide)))
  | adcStreamBegin streamId channel sampleRateHz =>
      exact ordinary_whenReady (ordinary_checked (ordinary_checked (ordinary_order (by decide))))
  | adcStreamRead streamId maxSamples =>
      exact ordinary_void (ordinary_whenReady (ordinary_checked (ordinary_checked
        (by decide : (0x34 : UInt8) ≠ _))))
  | adcSpectrumRead streamId binOffset maxBins =>
      exact ordinary_void (ordinary_whenReady (ordinary_checked (ordinary_checked
        (by decide : (0x3A : UInt8) ≠ _))))
  | tmuCompute function format inA inB =>
      exact ordinary_void (ordinary_whenReady (ordinary_checked (ordinary_checked
        (ordinary_query (by decide)))))
  | pwmCaptureBegin channel edge =>
      exact ordinary_whenReady (ordinary_checked (ordinary_order (by decide)))
  | pwmCaptureRead channel => exact ordinary_void (ordinary_whenReady (ordinary_query (by decide)))
  | pwmCaptureEnd channel => exact ordinary_whenReady (ordinary_order (by decide))
  | pwmSinglePulse channel pulseNs =>
      exact ordinary_whenReady (ordinary_checked (ordinary_order (by decide)))
  | timerSync primary secondary mode => exact ordinary_whenReady (ordinary_order (by decide))
  | adcDspChainOpen => exact ordinary_void (ordinary_whenReady (ordinary_query (by decide)))
  | adcDspChainBind chainId streamId =>
      exact ordinary_whenReady (ordinary_checked (ordinary_order (by decide)))
  | otaBegin sizeBytes expectedCrc32 fwVersion =>
      exact ordinary_void (ordinary_whenReady (ordinary_checked (ordinary_checked
        (ordinary_query (by decide)))))
  | otaWriteChunk offset data =>
      exact ordinary_void (ordinary_whenReady (ordinary_checked (ordinary_checked
        (ordinary_checked (ordinary_query (by decide))))))
  | otaVerify => exact ordinary_void (ordinary_whenReady (ordinary_query (by decide)))
  | otaGetState => exact ordinary_void (ordinary_whenReady (ordinary_query (by decide)))
  | otaAbort => exact ordinary_whenReady (ordinary_order (by decide))

theorem decodes_read2 (streamId maxSamples : UInt8) : (read2Xfer streamId maxSamples).Decodes := by
  rintro decode p plen hdecode - hlen
  obtain rfl : read2ReplyLen maxSamples = decode := Option.some.inj hdecode
  simp only [read2ReplyLen] at hlen
  split at hlen
  · cases hlen
  · split at hlen
    · cases hlen
    · rename_i hgot
      have hgot : (p.getD 8 0).toNat ≤ maxSamples.toNat := by simpa [UInt8.lt_iff_toNat_lt] using hgot
      cases hlen
      simp only [read2Xfer]
      omega

theorem batchEntry_le {p : List UInt8} {entry : PlanEntry} {pos pos' : Nat} {status : UInt8}
    (h : batchEntry p entry pos = some (status, pos')) : pos' ≤ p.length := by
  simp only [batchEntry] at h
  split at h
  · cases h
  · split at h
    · cases h
    · rename_i hfits
      simp only [not_or, not_lt] at hfits
      split_ifs at h
      all_goals
        cases h
        exact hfits.1

theorem batchEntries_le {p : List UInt8} {plan : List PlanEntry} {executed pos pos' : Nat}
    {last last' : UInt8} (hpos : pos ≤ p.length)
    (h : batchEntries p plan executed pos last = some (pos', last')) : pos' ≤ p.length := by
  induction plan generalizing executed pos last with
  | nil =>
      cases executed with
      | zero =>
          cases h
          exact hpos
      | succ executed => cases h
  | cons entry rest ih =>
      cases executed with
      | zero =>
          cases h
          exact hpos
      | succ executed =>
          simp only [batchEntries] at h
          split at h
          · cases h
          · rename_i status pos'' hentry
            exact ih (batchEntry_le hentry) h

theorem decodes_batch (ops : List BatchOp) (plan : List PlanEntry) : (batchXfer ops plan).Decodes := by
  rintro decode p plen hdecode hp hlen
  obtain rfl : batchReplyLen plan = decode := Option.some.inj hdecode
  simp only [batchReplyLen] at hlen
  split at hlen
  · cases hlen
  · rename_i hshort
    simp only [not_or, not_lt] at hshort
    split at hlen
    · cases hlen
    · rename_i pos last hentries
      have hpos := batchEntries_le hshort.1 hentries
      split at hlen
      · cases hlen
      · cases hlen
        exact hpos.trans hp

theorem tweaked_idleAccount (empty : Bool) (c : Ctx) : Tweaked c (idleAccount empty c) := by
  unfold idleAccount
  split
  · exact ⟨rfl, rfl, rfl, rfl, rfl, id, rfl⟩
  · simp only
    split
    · exact ⟨rfl, rfl, rfl, rfl, rfl, id, rfl⟩
    · split
      · exact ⟨rfl, rfl, rfl, rfl, rfl, nofun, rfl⟩
      · exact ⟨rfl, rfl, rfl, rfl, rfl, id, rfl⟩

theorem tweaked_latchSleep (mode : UInt8) (opts : PowerOpts) (result : Status) (c : Ctx) :
    Tweaked c (latchSleep mode opts result c) := by
  unfold latchSleep
  split
  · exact ⟨rfl, rfl, rfl, rfl, rfl, id, rfl⟩
  · exact ⟨rfl, rfl, rfl, rfl, rfl, id, rfl⟩

namespace Upholds

variable {α : Type} (h : Upholds env J E depth I)

include h

theorem keeps_refreshVersion : Keeps env J E I (refreshVersion depth) := by
  refine h.sends.keeps_refreshVersion h.keeps_wake rfl (fun c v hI => ?_) h.negotiate
  exact h.tweak c _ ⟨rfl, rfl, rfl, rfl, rfl, id, rfl⟩ hI

theorem keeps_bootConfigPoll (flags : BitVec 32) (tries : Nat) :
    Keeps env J E I (bootConfigPoll depth flags tries) := by
  induction tries with
  | zero => exact .pure _
  | succ tries ih =>
      refine .bind (h.keeps_withCtx fun c => ?_) fun _ => .ite (.pure _) ih
      exact ordinary_whenReady (ordinary_query (by decide))

theorem keeps_bootConfigSet (flags : BitVec 32) : Keeps env J E I (bootConfigSet depth flags) := by
  refine .bind (h.keeps_withCtx fun c => ordinary_whenReady (ordinary_query (by decide))) fun reply => ?_
  cases reply with
  | error e => exact .pure _
  | ok stored => exact .ite (.pure _) (h.keeps_bootConfigPoll flags 22)

theorem keeps_setDefaultTransport (t : Transport) : Keeps env J E I (setDefaultTransport t) := by
  refine .get fun c => .ite (.pure _) (.ite (.pure _) (.ite (.pure _) (.ite (.pure _) ?_)))
  exact .bind (h.keeps_tweak fun c => ⟨rfl, rfl, rfl, rfl, rfl, id, rfl⟩) fun _ => .pure _

theorem keeps_adcStreamEnd (streamId : UInt8) : Keeps env J E I (adcStreamEnd depth streamId) := by
  refine .bind (h.keeps_withCtx fun c => ?_) fun reply => ?_
  · exact ordinary_whenReady (ordinary_checked (ordinary_order (by decide)))
  cases reply with
  | error e => exact .pure _
  | ok => exact .bind (h.keeps_tweak fun c => ⟨rfl, rfl, rfl, rfl, rfl, id, rfl⟩) fun _ => .pure _

theorem keeps_attnWaitEvent (timeoutMs : Nat) : Keeps env J E I (attnWaitEvent timeoutMs) := by
  refine .get fun c => .ite (.pure _) (.ite (.pure _) ?_)
  refine .bind (h.sends.keeps_quiet rfl) fun waited => ?_
  cases waited with
  | error e => exact .pure _
  | ok => exact .bind (h.keeps_tweak fun c => ⟨rfl, rfl, rfl, rfl, rfl, id, rfl⟩) fun _ => .pure _

theorem keeps_adcStreamBegin2 (streamId channel : UInt8) (sampleRateHz : BitVec 32)
    (watermark : BitVec 16) :
    Keeps env J E I (adcStreamBegin2 depth streamId channel sampleRateHz watermark) := by
  refine .bind (h.keeps_withCtx fun c => ?_) fun reply => ?_
  · exact ordinary_whenReady (ordinary_checked (ordinary_checked (ordinary_checked (ordinary_checked
      (ordinary_checked (ordinary_checked (by decide : (0x3B : UInt8) ≠ _)))))))
  cases reply with
  | error e => exact .pure _
  | ok info =>
      exact .bind (h.keeps_tweak fun c => ⟨rfl, rfl, rfl, rfl, rfl, id, rfl⟩) fun _ => .pure _

theorem keeps_adcStreamRead2 (streamId maxSamples : UInt8) :
    Keeps env J E I (adcStreamRead2 depth streamId maxSamples) := by
  refine .get fun c => .ite (.pure _) (.ite (.pure _) (.ite (.pure _) ?_))
  refine .bind h.keeps_prepare fun ready => ?_
  cases ready with
  | error e => exact .pure _
  | ok =>
      refine .get fun c => .ite (.pure _) (.ite (.pure _) ?_)
      refine .bind (h.sends.xfer _ (decodes_read2 streamId maxSamples)
        (by decide : CMD_ADC_STREAM_READ2 ≠ _)) fun ending => ?_
      refine .bind (h.sends.keeps_distrust ending.result) fun _ => ?_
      cases ending.result with
      | error e => exact .pure _
      | ok p => exact .bind (h.keeps_tweak fun c => tweaked_idleAccount _ c) fun _ => .pure _

theorem keeps_batch (ops : List BatchOp) : Keeps env J E I (batch depth ops) := by
  refine .get fun c => .ite (.pure _) (.ite (.pure _) (.ite (.pure _) ?_))
  refine .bind h.keeps_prepare fun ready => ?_
  cases ready with
  | error e => exact .pure _
  | ok =>
      refine .get fun c => .ite (.pure _) ?_
      cases planOps c [] ops with
      | error e => exact .pure _
      | ok plan =>
          refine .ite (.pure _) ?_
          refine .bind (h.sends.xfer _ (decodes_batch ops plan)
            (by decide : CMD_BATCH ≠ _)) fun ending => ?_
          refine .bind (h.sends.keeps_distrust ending.result) fun _ => ?_
          cases ending.result with
          | error e => exact .pure _
          | ok p => exact .pure _

theorem keeps_trngTries (len tries : Nat) : Keeps env J E I (trngTries depth len tries) := by
  induction tries with
  | zero => exact .pure _
  | succ tries ih =>
      refine .bind (h.keeps_run (ordinary_query (by decide))) fun reply => ?_
      split
      · exact ih
      · exact .pure _

theorem keeps_trngRead (len : Nat) : Keeps env J E I (trngRead depth len) :=
  .get fun _ => .ite (.pure _) (.ite (.pure _) (h.keeps_trngTries len 4))

theorem keeps_setPowerMode (mode : UInt8) (opts : Option PowerOpts) :
    Keeps env J E I (setPowerMode depth mode opts) := by
  refine .get fun c => ?_
  simp only
  split
  · exact .pure _
  · refine .bind h.keeps_powerWake fun woken => ?_
    cases woken with
    | error e => exact .pure _
    | ok =>
        refine .bind (h.sends.keeps_powerModeSend h.keeps_wake _ _ _ _) fun result => ?_
        refine .bind (h.keeps_tweak fun c => tweaked_latchSleep mode _ result c) fun _ => ?_
        cases result with
        | error e => exact .pure _
        | ok => exact .ite (.bind (.modify h.resets) fun _ => .pure _) (.pure _)

theorem keeps_stageChunks (chainId stageIndex kind : UInt8) (params : List UInt8) (more offset : Nat) :
    Keeps env J E I (stageChunks depth chainId stageIndex kind params more offset) := by
  induction more generalizing offset with
  | zero => exact h.keeps_run (ordinary_order (by decide))
  | succ more ih =>
      refine .bind (h.keeps_run (ordinary_order (by decide))) fun reply => ?_
      cases reply with
      | error e => exact .pure _
      | ok => exact .ite (ih _) (.pure _)

theorem keeps_adcDspStagePush (chainId stageIndex kind : UInt8) (params : List UInt8) :
    Keeps env J E I (adcDspStagePush depth chainId stageIndex kind params) :=
  .get fun _ => .ite (.pure _) (.ite (.pure _) (.ite (.pure _) (.ite (.pure _)
    (h.keeps_stageChunks chainId stageIndex kind params _ 0))))

theorem keeps_otaResetCmd {cmd : UInt8} (hcmd : cmd ≠ CMD_LINK_FEATURES) :
    Keeps env J E I (otaResetCmd depth cmd) := by
  refine .bind (h.keeps_withCtx fun c => ordinary_whenReady (ordinary_order hcmd)) fun reply => ?_
  cases reply with
  | error e => exact .pure _
  | ok => exact .bind (.modify h.resets) fun _ => .pure _

omit h in
theorem keeps_discard {m : Drv (Except AlpError α)} (hm : Keeps env J E I m) :
    Keeps env J E I (discard m) :=
  .bind hm fun _ => .pure _

theorem keeps_call (call : Call) : Keeps env J E I (call.run depth) := by
  cases call with
  | simple k => exact h.keeps_withCtx fun c => ordinary_command c k
  | refreshVersion => exact keeps_discard h.keeps_refreshVersion
  | getVersion => exact keeps_discard (.get fun _ => .ite (.pure _) h.keeps_refreshVersion)
  | setDefaultTransport t => exact h.keeps_setDefaultTransport t
  | bootConfigSet flags => exact h.keeps_bootConfigSet flags
  | adcStreamEnd streamId => exact h.keeps_adcStreamEnd streamId
  | attnWaitEvent timeoutMs => exact h.keeps_attnWaitEvent timeoutMs
  | adcStreamBegin2 streamId channel sampleRateHz watermark =>
      exact keeps_discard (h.keeps_adcStreamBegin2 streamId channel sampleRateHz watermark)
  | adcStreamRead2 streamId maxSamples => exact keeps_discard (h.keeps_adcStreamRead2 streamId maxSamples)
  | batch ops => exact keeps_discard (h.keeps_batch ops)
  | trngRead len => exact keeps_discard (h.keeps_trngRead len)
  | powerWake => exact h.keeps_powerWake
  | setPowerMode mode opts => exact h.keeps_setPowerMode mode opts
  | adcDspStagePush chainId stageIndex kind params =>
      exact h.keeps_adcDspStagePush chainId stageIndex kind params
  | otaCommit => exact h.keeps_otaResetCmd (by decide)
  | otaRollback => exact h.keeps_otaResetCmd (by decide)
  | deinit => exact .bind (.modify h.closes) fun _ => .pure _

end Upholds

theorem keeps_initRetry {probe : Drv Status} (hquiet : Quiet env) (hE : E) (hprobe : Keeps env J E I probe)
    (deadlineMs rounds : Nat) (sawBusy : Bool) :
    Keeps env J E I (initRetry probe deadlineMs rounds sawBusy) := by
  induction rounds generalizing sawBusy with
  | zero => exact fun _ _ _ hJ => wp_exhausted hJ hE
  | succ rounds ih =>
      refine .bind hprobe fun result => .ite (.pure _) ?_
      refine .bind (.perform fun c s uptime s' _ hJ henv => ?_) fun nowMs => .ite (.pure _) (ih _)
      rw [hquiet s c .uptimeMs uptime s' rfl henv]
      exact hJ

-- Where the transfers keep the environment's invariant, so does the init.
theorem keeps_initEx (hquiet : Quiet env) (hE : E)
    (hi2c : ∀ c s addr frame len reply s', J s → env s ⟨c, .i2cWriteRead addr frame len⟩ reply s' → J s')
    (hcore : ∀ x, Keeps env J E (fun _ => True) (spiXferCore depth x)) (rounds : Nat) (spi i2c : Bool)
    (i2cAddr : UInt8) (attn : AttnHook) :
    Keeps env J E (fun _ => True) (initEx depth rounds spi i2c i2cAddr attn) := by
  have hcalls := upholds_of_core hquiet hi2c hcore (.inl hE)
  have hfail : ∀ e, Keeps env J E (fun _ => True) (failInit e) :=
    fun e => .bind (.modify fun _ _ => trivial) fun _ => .pure _
  refine .ite (.pure _) (.ite (.pure _) (.bind (.modify fun _ _ => trivial) fun _ => ?_))
  refine .bind (hcalls.sends.keeps_quiet rfl) fun uptime => ?_
  refine .bind (keeps_initRetry hquiet hE (hcalls.keeps_run (ordinary_order (by decide))) _ _ _) ?_
  rintro ⟨result, sawBusy⟩
  cases result with
  | error e => exact hfail e
  | ok =>
      have hprobe := hcalls.keeps_refreshVersion
      refine .bind (keeps_initRetry hquiet hE (.bind hprobe fun _ => .pure _) _ _ _) ?_
      rintro ⟨result, -⟩
      cases result with
      | error e => exact hfail e
      | ok =>
          refine .get fun c => .ite (hfail _) ?_
          exact .bind (stable_true.spiNegotiate hcore) fun _ => .pure _

end AlpSdk.Gd32
