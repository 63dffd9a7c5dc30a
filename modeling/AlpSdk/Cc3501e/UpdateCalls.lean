import AlpSdk.Cc3501e.Alone

-- What the update calls of one thread do not lose, whatever the bridge answers.
namespace AlpSdk.Cc3501e

open Library.Effect Library.Interleave Library.Bytes

-- The exchanges of some opcodes, and the waits around them.
def Cmd.Carries (ops : Opcode → Prop) : Cmd → Prop
  | .clock _ frame | .collect frame => ops frame.cmd
  | .set .reqSeq _ => True
  | cmd => cmd.Waits

theorem Cmd.Waits.carries {ops : Opcode → Prop} {cmd : Cmd} (h : cmd.Waits) : cmd.Carries ops := by
  cases cmd with
  | clock transfer frame => exact h.elim
  | collect frame => exact h.elim
  | set f v =>
      cases f with
      | reqSeq => trivial
      | _ => exact h
  | _ => exact h

-- An exchange and its waits touch no field but the lock and the retry counter.
theorem Cmd.Carries.touches {cmd : Cmd} {ops : Opcode → Prop} {f : Field} (hlock : f ≠ .requestLock)
    (hseq : f ≠ .reqSeq) (h : cmd.Carries ops) : ¬ cmd.Touches f := by
  cases cmd with
  | set g v =>
      intro htouches
      obtain rfl : g = f := htouches
      cases g <;> first | exact hlock rfl | exact hseq rfl | exact h
  | claim flag =>
      cases flag with
      | requestLock => exact hlock
      | recovering => exact h.elim
  | releaseRecover s => exact h.elim
  | stage off bytes => exact h.elim
  | _ => exact id

theorem Cmd.Looks.touches {cmd : Cmd} (f : Field) (h : cmd.Looks) : ¬ cmd.Touches f := by
  cases cmd with
  | get g => exact id
  | note n => exact id
  | _ => exact h.elim

structure Carried {S : Type} (env : Env bridge S) (cfg : Config) (ops : Opcode → Prop) (J : S → Prop) :
    Prop where
  kept : Preserves env (Cmd.Carries ops) J
  exits : Exits env cfg J

-- A piece of code that never loses `J`.
abbrev Steady {S α : Type} (env : Env bridge S) (J : S → Prop) (p : Driver α) : Prop :=
  ∀ s, J s → wp env J p (fun _ _ => True) s

section Steady

variable {S α β : Type} {env : Env bridge S} {J : S → Prop}

theorem steady_pure (value : α) : Steady env J (pure value) := fun _ hs => ⟨hs, trivial⟩

theorem steady_bind {p : Driver α} {f : α → Driver β} (hp : Steady env J p)
    (hf : ∀ value, Steady env J (f value)) :
    Steady env J (p >>= f) :=
  fun s hs => wp_bind (wp_mono (hp s hs) fun value s' hs' _ => hf value s' hs')

theorem steady_ite {c : Prop} [Decidable c] {p q : Driver α} (hp : Steady env J p) (hq : Steady env J q) :
    Steady env J (if c then p else q) :=
  fun s hs => wp_ite (fun _ => hp s hs) fun _ => hq s hs

-- A call between two pieces of code.
theorem Steady.wp_bind {p : Driver α} {f : α → Driver β} {Q : β → S → Prop} {s : S} (hp : Steady env J p)
    (hs : J s) (hf : ∀ value s', J s' → wp env J (f value) Q s') : wp env J (p >>= f) Q s :=
  Library.Effect.wp_bind (wp_mono (hp s hs) fun value s' hs' _ => hf value s' hs')

variable {cfg : Config} {ops : Opcode → Prop} (h : Carried env cfg ops J)

include h

theorem Carried.waited : Waited env J := fun s cmd reply s' hcmd => h.kept s cmd reply s' hcmd.carries

theorem Carried.steady {p : Driver α} (hp : Waits p) : Steady env J p := fun _ hs => wp_uses h.waited hp hs

-- An exchange, with what its reply shows of the bridge.
theorem Carried.exchange (frame : Frame) (hops : ops frame.cmd) {rxCap : Nat} {G : List UInt8 → S → Prop}
    (hshows : ∀ s answer s', J s → env s (.collect frame) (.ok answer) s' → answer.status = .ok () →
      G (answer.data.take rxCap) s') {s : S} (hs : J s) :
    wp env J (requestLocked frame rxCap)
      (fun answer s' => answer.status = .ok () → G answer.data s') s := by
  refine wp_exchange h.waited ?_ ?_ hs
  · exact fun s transfer err s' hs he => h.kept s (.clock transfer frame) err s' hops he hs
  · refine fun s reply s' hs he => ⟨h.kept s (.collect frame) reply s' hops he hs, ?_⟩
    rintro answer rfl hok
    exact hshows s answer s' hs he hok

theorem Carried.wp_request (cmd : Opcode) (hops : ops cmd) (payload : List UInt8) (rxCap : Nat)
    {G : List UInt8 → S → Prop} (hG : ∀ data, Waited env fun s => J s ∧ G data s)
    (hshows : ∀ s answer s', J s → env s (.collect ⟨cmd, payload, REQ_SEQ_NONE⟩) (.ok answer) s' →
      answer.status = .ok () → G (answer.data.take rxCap) s') {s : S} (hs : J s) :
    wp env J (request cfg cmd payload rxCap) (fun out s' => out.1 = .ok () → G out.2 s') s :=
  Cc3501e.wp_request cfg h.waited hG
    (fun _ hs => h.exchange ⟨cmd, payload, REQ_SEQ_NONE⟩ hops hshows hs) hs

theorem Carried.wp_pollByRepeat (cmd : Opcode) (hops : ops cmd) (payload : List UInt8) (rxCap : Nat)
    {G : List UInt8 → S → Prop} (hG : ∀ data, Waited env fun s => J s ∧ G data s)
    (hshows : ∀ seq s answer s', J s → env s (.collect ⟨cmd, payload, seq⟩) (.ok answer) s' →
      answer.status = .ok () → G (answer.data.take rxCap) s') (timeoutMs : UInt32) {s : S} (hs : J s) :
    wp env J (pollByRepeat cfg cmd payload rxCap timeoutMs) (fun out s' => out.1 = .ok () → G out.2 s') s :=
  Cc3501e.wp_pollByRepeat cfg h.waited hG h.exits
    (fun s v s' hs he => h.kept s (.set .reqSeq v) () s' trivial he hs)
    (fun seq _ hs => h.exchange ⟨cmd, payload, seq⟩ hops (hshows seq) hs) timeoutMs hs

omit h in
-- A request of one frame that `J` survives.
theorem steady_requestFrame {cmd : Opcode} {payload : List UInt8} (hJ : Waited env J)
    (hclock : ∀ s transfer err s', J s → env s (.clock transfer ⟨cmd, payload, REQ_SEQ_NONE⟩) err s' → J s')
    (hcollect : ∀ s reply s', J s → env s (.collect ⟨cmd, payload, REQ_SEQ_NONE⟩) reply s' → J s')
    (rxCap : Nat) : Steady env J (request cfg cmd payload rxCap) := by
  intro s hs
  have hexchange (s : S) (hs : J s) : wp env J (requestLocked ⟨cmd, payload, REQ_SEQ_NONE⟩ rxCap)
      (fun answer _ => answer.status = .ok () → True) s :=
    wp_exchange (G := fun _ _ => True) hJ hclock
      (fun s reply s' hs he => ⟨hcollect s reply s' hs he, fun _ _ _ => trivial⟩) hs
  have hrequest := Cc3501e.wp_request (G := fun _ _ => True) cfg hJ
    (fun _ => hJ.and_of_forall fun _ => trivial) hexchange hs
  exact wp_mono hrequest fun _ _ _ _ => trivial

theorem steady_request (cmd : Opcode) (hops : ops cmd) (payload : List UInt8) (rxCap : Nat) :
    Steady env J (request cfg cmd payload rxCap) :=
  steady_requestFrame h.waited
    (fun s transfer err s' hs he =>
      h.kept s (.clock transfer ⟨cmd, payload, REQ_SEQ_NONE⟩) err s' hops he hs)
    (fun s reply s' hs he => h.kept s (.collect ⟨cmd, payload, REQ_SEQ_NONE⟩) reply s' hops he hs) rxCap

theorem steady_pollByRepeat (cmd : Opcode) (hops : ops cmd) (payload : List UInt8) (rxCap : Nat)
    (timeoutMs : UInt32) :
    Steady env J (pollByRepeat cfg cmd payload rxCap timeoutMs) := by
  intro s hs
  have hall := h.wp_pollByRepeat (G := fun _ _ => True) cmd hops payload rxCap
    (fun _ => h.waited.and_of_forall fun _ => trivial) (fun _ _ _ _ _ _ _ => trivial) timeoutMs hs
  exact wp_mono hall fun _ _ _ _ => trivial

theorem steady_otaStatus (hops : ops .otaStatus) (timeoutMs : UInt32) : Steady env J
    (otaStatus cfg timeoutMs) := by
  refine steady_bind (steady_pollByRepeat h _ hops _ _ _) ?_
  rintro ⟨s, reply⟩
  cases s with
  | error err => exact steady_pure _
  | ok _ => exact steady_ite (steady_pure _) (steady_pure _)

theorem steady_settleLoop (hops : ops .otaStatus) (want : UInt8) (pollMs : UInt32) (fuel : Nat)
    (waited : UInt32) :
    Steady env J (settleLoop cfg want pollMs fuel waited) := by
  induction fuel generalizing waited with
  | zero =>
      have hstall : Steady env J (perform Cmd.stall) := h.steady ⟨trivial, fun _ => trivial⟩
      exact steady_bind hstall fun reply : Empty => reply.elim
  | succ fuel ih =>
      have hagain : Steady env J (do
          if OTA_BLACKOUT_WAIT_MS ≤ waited then pure (.error .timeout)
          else
            delay OTA_BLACKOUT_POLL_MS.toNat
            settleLoop cfg want pollMs fuel (waited + (OTA_BLACKOUT_POLL_MS + pollMs))) :=
        steady_ite (steady_pure _) (steady_bind (h.steady (waits_delay _)) fun _ => ih _)
      refine steady_bind (steady_otaStatus h hops pollMs) fun result => ?_
      cases result with
      | error err => exact hagain
      | ok st => exact steady_ite (steady_pure _) (steady_ite (steady_pure _) hagain)

theorem steady_otaSettledAs (hops : ops .otaStatus) (want : UInt8) (timeoutMs : UInt32) :
    Steady env J (otaSettledAs cfg want timeoutMs) :=
  steady_settleLoop h hops want _ cfg.fuel 0

section Begin

variable {G : S → Prop} {totalLen timeoutMs : UInt32} (hJ : Waited env J)
  (hsettled : ∀ s, J s → wp env J (otaSettledAs cfg OTA_STATE_WRITING timeoutMs)
    (fun out s' => out = .ok () → G s') s)

omit h
include hJ hsettled

-- A begin returns ALP_OK only after a settlement that does, and that shows `G`.
theorem wp_begun (st : Status) {s : S} (hs : J s) : wp env J (do
    match ← otaSettledAs cfg OTA_STATE_WRITING timeoutMs with
    | .ok () => pure (.ok ())
    | .error .io => pure (.error .io)
    | .error _ =>
        if st = .error .busy then
          delay OTA_BEGIN_BLIND_MS
          match ← otaSettledAs cfg OTA_STATE_WRITING timeoutMs with
          | .ok () => pure (.ok ())
          | .error .io => pure (.error .io)
          | .error _ => pure st
        else pure (if st = .ok () then .error .timeout else st) : Driver Status)
    (fun out s' => out = .ok () → G s') s := by
  refine wp_bind (wp_mono (hsettled s hs) fun settled s hs hshows => ?_)
  split
  · exact ⟨hs, fun _ => hshows rfl⟩
  · exact ⟨hs, nofun⟩
  · refine wp_ite (fun hbusy => ?_) fun _ => ⟨hs, fun hok => ?_⟩
    · refine wp_uses_bind hJ (waits_delay _) hs fun _ s hs => ?_
      refine wp_bind (wp_mono (hsettled s hs) fun settled s hs hshows => ?_)
      split
      · exact ⟨hs, fun _ => hshows rfl⟩
      · exact ⟨hs, nofun⟩
      · exact ⟨hs, fun hok => absurd (hbusy.symm.trans hok) nofun⟩
    · by_cases hst : st = .ok ()
      · rw [if_pos hst] at hok
        cases hok
      · rw [if_neg hst] at hok
        exact absurd hok hst

theorem wp_otaBegin (hrequest : Steady env J (request cfg .otaBegin (putLE 4 totalLen.toNat) 0)) {s : S}
    (hs : J s) :
    wp env J (otaBegin cfg totalLen timeoutMs) (fun out s' => out = .ok () → G s') s := by
  refine wp_uses_bind hJ (waits_get .peerPolled) hs fun polled s hs => ?_
  refine wp_ite (fun _ => hrequest.wp_bind hs ?_) fun _ => ⟨hs, nofun⟩
  rintro ⟨st, reply⟩ s hs
  dsimp only
  split
  · exact wp_uses_bind hJ (waits_delay _) hs fun _ s hs => wp_begun hJ hsettled st hs
  · exact wp_begun hJ hsettled st hs

end Begin

theorem steady_otaBegin (hops : ops .otaBegin) (hstatus : ops .otaStatus) (totalLen timeoutMs : UInt32) :
    Steady env J (otaBegin cfg totalLen timeoutMs) := by
  intro s hs
  have hall := wp_otaBegin (G := fun _ => True) h.waited
    (fun s hs => wp_mono (steady_otaSettledAs h hstatus OTA_STATE_WRITING timeoutMs s hs)
      fun _ _ _ _ _ => trivial) (steady_request h _ hops (putLE 4 totalLen.toNat) 0) hs
  exact wp_mono hall fun _ _ _ _ => trivial

theorem steady_otaWriteFrame (hops : ops .otaWrite) (offset : UInt32) (data : List UInt8) :
    Steady env J (otaWriteFrame cfg offset data) :=
  steady_bind (steady_request h _ hops _ _) fun _ => steady_pure _

theorem steady_otaWriteSplit (hops : ops .otaWrite) (rounds : Nat) (offset : UInt32) (data : List UInt8) :
    Steady env J (otaWriteSplit cfg rounds offset data) := by
  induction rounds generalizing offset data with
  | zero => exact steady_pure _
  | succ rounds ih =>
      refine steady_ite (steady_pure _) (steady_bind (steady_otaWriteFrame h hops _ _) fun s => ?_)
      cases s with
      | error err => exact steady_pure _
      | ok _ => exact ih _ _

theorem steady_otaWrite (hops : ops .otaWrite) (offset : UInt32) (data : List UInt8) :
    Steady env J (otaWrite cfg offset data) := by
  refine steady_ite (steady_pure _) (steady_bind (h.steady (waits_get _)) fun polled => ?_)
  exact steady_ite (steady_otaWriteSplit h hops _ _ _) (steady_otaWriteFrame h hops _ _)

theorem steady_otaAbort (hops : ops .otaAbort) (timeoutMs : UInt32) : Steady env J
    (otaAbort cfg timeoutMs) :=
  steady_bind (steady_pollByRepeat h _ hops _ _ _) fun _ => steady_pure _

theorem steady_promoting (hstatus : ops .otaStatus) (hpromote : ops .otaPromote)
    (hnote : Steady env J (note .sessionLeft)) (hset : Steady env J (set .otaSessionActive false))
    (timeoutMs : UInt32) : Steady env J (otaPromote cfg timeoutMs) := by
  refine steady_bind (steady_otaStatus h hstatus timeoutMs) fun result => ?_
  cases result with
  | error err => exact steady_pure _
  | ok st =>
      refine steady_ite ?_ (steady_ite (steady_pure _) (steady_pure _))
      refine steady_bind (steady_pollByRepeat h .otaPromote hpromote _ _ _) ?_
      rintro ⟨st, reply⟩
      dsimp only
      split
      · exact steady_bind hnote fun _ => steady_bind hset fun _ => steady_pure _
      · exact steady_pure _

theorem steady_diagUptime (hops : ops .getDiagInfo) : Steady env J (diagUptime cfg) := by
  refine steady_bind (steady_request h _ hops _ _) ?_
  rintro ⟨s, reply⟩
  cases s with
  | error err => exact steady_pure _
  | ok _ => exact steady_pure _

theorem steady_updateModeReadsAs (hops : ops .otaUpdateMode) (hdiag : ops .getDiagInfo) (want : UInt8) :
    Steady env J (updateModeReadsAs cfg want) := by
  refine steady_bind (steady_request h _ hops _ _) fun reply => steady_ite ?_ (steady_pure _)
  refine steady_ite (steady_pure _) (steady_bind (h.steady (waits_get _)) fun major => ?_)
  exact steady_ite (steady_pure _) (steady_diagUptime h hdiag)

theorem steady_updateModeLoop (hops : ops .otaUpdateMode) (hdiag : ops .getDiagInfo) (want : UInt8)
    (timeoutMs pollMs : UInt32) (fuel : Nat) (waited : UInt32) :
    Steady env J (updateModeLoop cfg want timeoutMs pollMs fuel waited) := by
  induction fuel generalizing waited with
  | zero =>
      have hstall : Steady env J (perform Cmd.stall) := h.steady ⟨trivial, fun _ => trivial⟩
      exact steady_bind hstall fun reply : Empty => reply.elim
  | succ fuel ih =>
      refine steady_bind (steady_updateModeReadsAs h hops hdiag want) fun back => ?_
      refine steady_ite (steady_pure _) (steady_ite (steady_pure _) ?_)
      exact steady_bind (h.steady (waits_delay _)) fun _ => ih _

theorem steady_flushLoop (hops : ops .otaStatus) (expect pollMs : UInt32) (fuel : Nat) (waited : UInt32) :
    Steady env J (flushLoop cfg expect pollMs fuel waited) := by
  induction fuel generalizing waited with
  | zero =>
      have hstall : Steady env J (perform Cmd.stall) := h.steady ⟨trivial, fun _ => trivial⟩
      exact steady_bind hstall fun reply : Empty => reply.elim
  | succ fuel ih =>
      have hagain : Steady env J (do
          if OTA_FLUSH_WAIT_MS ≤ waited then pure (.error .timeout)
          else
            delay OTA_FLUSH_POLL_MS.toNat
            flushLoop cfg expect pollMs fuel (waited + (OTA_FLUSH_POLL_MS + pollMs))) :=
        steady_ite (steady_pure _) (steady_bind (h.steady (waits_delay _)) fun _ => ih _)
      refine steady_bind (steady_otaStatus h hops pollMs) fun result => ?_
      cases result with
      | error err => exact hagain
      | ok st => exact steady_ite (steady_ite (steady_pure _) (steady_pure _)) hagain

theorem steady_chunkTaken (hops : ops .otaStatus) (expect timeoutMs : UInt32) :
    Steady env J (chunkTaken cfg expect timeoutMs) := by
  refine steady_bind (steady_otaStatus h hops _) fun result => ?_
  cases result with
  | error err => exact steady_pure _
  | ok st => exact steady_pure _

end Steady

-- Every command, with the exchanges of some opcodes only.
def Cmd.Spares (ops : Opcode → Prop) : Cmd → Prop
  | .clock _ frame | .collect frame => ops frame.cmd
  | _ => True

theorem Cmd.Upkeep.spares {ops : Opcode → Prop} {cmd : Cmd} (hops : ∀ op, op.upkeep = true → ops op)
    (h : cmd.Upkeep) : cmd.Spares ops := by
  cases cmd with
  | clock transfer frame => exact hops frame.cmd h
  | collect frame => exact hops frame.cmd h
  | _ => trivial

theorem Cmd.Carries.spares {ops : Opcode → Prop} {cmd : Cmd} (h : cmd.Carries ops) : cmd.Spares ops := by
  cases cmd with
  | clock transfer frame => exact h
  | collect frame => exact h
  | _ => trivial

theorem Cmd.Spares.mono {cmd : Cmd} {ops ops' : Opcode → Prop} (h : cmd.Spares ops) (hops : ∀ op, ops op → ops' op) :
    cmd.Spares ops' := by
  cases cmd with
  | clock transfer frame => exact hops _ h
  | collect frame => exact hops _ h
  | _ => trivial

-- A property that no command loses but some exchanges.
structure Spared {S : Type} (env : Env bridge S) (ops : Opcode → Prop) (J : S → Prop) : Prop where
  kept : Preserves env (Cmd.Spares ops) J
  upkeep : ∀ op, op.upkeep = true → ops op

section Spared

variable {S : Type} {env : Env bridge S} {cfg : Config} {ops : Opcode → Prop} {J K : S → Prop}

theorem Spared.upkept (h : Spared env ops J) : Upkept env J :=
  fun s cmd reply s' hcmd => h.kept s cmd reply s' (hcmd.spares h.upkeep)

theorem Spared.carried (h : Spared env ops J) : Carried env cfg ops J where
  kept := fun s cmd reply s' hcmd => h.kept s cmd reply s' hcmd.spares
  exits := exits_upkept cfg h.upkept

theorem Spared.steady (h : Spared env ops J) (cmd : Cmd) (hcmd : cmd.Spares ops) :
    Steady env J (perform cmd) :=
  fun _ hs => wp_uses h.kept (p := perform cmd) ⟨hcmd, fun _ => trivial⟩ hs

-- The readbacks of a call of the update mode keep `K`, which is lost only where none succeeds.
theorem wp_updateModeBack (h : Spared env ops J) (hK : Carried env cfg ops K) (hKJ : ∀ s, K s → J s)
    (hmode : ops .otaUpdateMode) (hdiag : ops .getDiagInfo) {enable : Bool} {want : UInt8}
    (hconfirmed : ∀ s, K s →
      wp env J (do updateModeConfirmed enable; pure (.ok ()) : Driver Status) (fun _ => K) s)
    (timeoutMs : UInt32) {s : S} (hs : K s) : wp env J (do
      if ← updateModeReadsAs cfg want then
        updateModeConfirmed enable
        pure (.ok ())
      else
        delay UPDATE_MODE_SETTLE_MS
        let pollMs := min timeoutMs UPDATE_MODE_POLL_TIMEOUT_MS
        if ← updateModeLoop cfg want timeoutMs pollMs cfg.fuel 0 then
          updateModeConfirmed enable
          pure (.ok ())
        else
          note .sessionLeft
          set .peerPolled false
          let _ ← hardReset cfg
          set .otaSessionActive false
          pure (.error .timeout) : Driver Status) (fun st s' => st = .ok () → K s') s := by
  have hback (s : S) (hs : K s) :
      wp env J (do updateModeConfirmed enable; pure (.ok ()) : Driver Status)
        (fun st s' => st = .ok () → K s') s :=
    wp_mono (hconfirmed s hs) fun _ _ _ hs' _ => hs'
  refine wp_bind (wp_mono (wp_relax (steady_updateModeReadsAs hK hmode hdiag want s hs) hKJ) ?_)
  rintro back s - ⟨hs, -⟩
  refine wp_ite (fun _ => hback s hs) fun _ => ?_
  refine wp_bind (wp_mono (wp_relax (wp_uses hK.waited (waits_delay _) hs) hKJ) ?_)
  rintro _ s - ⟨hs, -⟩
  refine wp_bind (wp_mono (wp_relax (steady_updateModeLoop hK hmode hdiag want _ _ _ _ s hs) hKJ) ?_)
  rintro back s - ⟨hs, -⟩
  refine wp_ite (fun _ => hback s hs) fun _ => ?_
  refine (h.steady (.note _) trivial).wp_bind (hKJ s hs) fun _ s hs => ?_
  refine (h.steady (.set _ _) trivial).wp_bind hs fun _ s hs => ?_
  have hreset : Steady env J (hardReset cfg) := fun _ hs => wp_upkeep h.upkept (upkeep_hardReset cfg) hs
  refine hreset.wp_bind hs fun _ s hs => ?_
  exact (h.steady (.set _ _) trivial).wp_bind hs fun _ s hs => ⟨hs, nofun⟩

theorem steady_updateModeConfirmed (h : Spared env ops J) (enable : Bool) :
    Steady env J (updateModeConfirmed enable) := by
  refine steady_bind (h.steady (.set .peerPolled enable) trivial) fun _ => ?_
  cases enable with
  | true => exact h.steady (.note .sessionOpened) trivial
  | false => exact steady_bind (h.steady (.set .otaSessionActive false) trivial) fun _ => steady_pure _

theorem steady_updateModeOff (h : Spared env ops J) (hmode : ops .otaUpdateMode) (hdiag : ops .getDiagInfo)
    (timeoutMs : UInt32) : Steady env J (otaUpdateMode cfg false timeoutMs) := by
  intro s hs
  refine (h.steady (.get .initialised) trivial).wp_bind hs fun ready s hs => ?_
  refine wp_ite (fun _ => ?_) fun _ => ⟨hs, trivial⟩
  refine (h.steady (.note .sessionLeft) trivial).wp_bind hs fun _ s hs => ?_
  have hconfirmed : Steady env J (do updateModeConfirmed false; pure (.ok ()) : Driver Status) :=
    steady_bind (steady_updateModeConfirmed h false) fun _ => steady_pure _
  refine wp_mono (wp_updateModeBack h h.carried (fun _ => id) hmode hdiag ?_ timeoutMs hs)
    fun _ _ _ _ => trivial
  exact fun s hs => wp_mono (hconfirmed s hs) fun _ _ hs' _ => hs'

theorem steady_otaUpdateBail (h : Spared env ops J) (hmode : ops .otaUpdateMode) (hdiag : ops .getDiagInfo)
    (err : AlpError) (timeoutMs : UInt32) : Steady env J (otaUpdateBail cfg err timeoutMs) :=
  steady_bind (steady_updateModeOff h hmode hdiag timeoutMs) fun _ => steady_pure _

theorem steady_otaFinishConfirmed (h : Spared env ops J) : Steady env J otaFinishConfirmed := by
  refine steady_bind (h.steady (.note _) trivial) fun _ => ?_
  exact steady_bind (h.steady (.set _ _) trivial) fun _ => h.steady (.set _ _) trivial

theorem steady_otaPromote (h : Spared env ops J) (hstatus : ops .otaStatus) (hpromote : ops .otaPromote)
    (timeoutMs : UInt32) : Steady env J (otaPromote cfg timeoutMs) :=
  steady_promoting h.carried hstatus hpromote (h.steady (.note _) trivial) (h.steady (.set _ _) trivial) timeoutMs

end Spared

end AlpSdk.Cc3501e
