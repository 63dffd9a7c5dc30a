import AlpSdk.Cc3501e.Exclusive

-- An update session of one thread, and the recoveries of the others.
namespace AlpSdk.Cc3501e

open Library.Effect Library.Interleave

-- The thread that runs the update calls, between two of them.
structure View.Hosts (v : View) : Prop where
  host : v.host = true
  rest : v.Rest

theorem View.Hosts.settles {v v' : View} (h : v.Hosts) (hsettles : v.Settles v') : v'.Hosts := by
  refine ⟨?_, h.rest.settles hsettles⟩
  obtain ⟨gate, stamp, flag, rfl⟩ := hsettles
  exact h.host

-- A piece of code that leaves the thread as it found it, apart from what it notes of its own
-- session, and one that leaves no trace in the view.
abbrev Hosted {α : Type} (p : Driver α) : Prop := Maintains (discipline true) View.Hosts p

abbrev Traceless {α : Type} (p : Driver α) : Prop := Leaves (discipline true) View.Hosts p

section Calls

variable (cfg : Config)

theorem traceless_request (cmd : Opcode) (payload : List UInt8) (rxCap : Nat) :
    Traceless (request cfg cmd payload rxCap) :=
  fun _ hv => keeping_request cfg hv.rest.free (.inr rfl) payload rxCap

theorem hosted_pollByRepeat (cmd : Opcode) (payload : List UInt8) (rxCap : Nat) (timeoutMs : UInt32) :
    Hosted (pollByRepeat cfg cmd payload rxCap timeoutMs) :=
  fun _ hv => follows_mono (keeping_pollByRepeat cfg payload rxCap timeoutMs hv.rest.free
    hv.rest.checking (.inr rfl)) fun _ _ hsettles => hv.settles hsettles

theorem hosted_otaStatus (timeoutMs : UInt32) : Hosted (otaStatus cfg timeoutMs) := by
  refine maintains_bind (hosted_pollByRepeat cfg _ _ _ _) ?_
  rintro ⟨s, reply⟩
  match s with
  | .error err => exact maintains_pure _
  | .ok () => exact maintains_ite (maintains_pure _) (maintains_pure _)

theorem hosted_settleLoop (want : UInt8) (pollMs : UInt32) (fuel : Nat) (waited : UInt32) :
    Hosted (settleLoop cfg want pollMs fuel waited) := by
  induction fuel generalizing waited with
  | zero => exact maintains_stall
  | succ fuel ih =>
      have hagain : Hosted (do
          if OTA_BLACKOUT_WAIT_MS ≤ waited then pure (.error .timeout)
          else
            delay OTA_BLACKOUT_POLL_MS.toNat
            settleLoop cfg want pollMs fuel (waited + (OTA_BLACKOUT_POLL_MS + pollMs))) :=
        maintains_ite (maintains_pure _) (maintains_bind (leaves_delay _).maintains fun _ => ih _)
      refine maintains_bind (hosted_otaStatus cfg pollMs) fun result => ?_
      cases result with
      | error err => exact hagain
      | ok st => exact maintains_ite (maintains_pure _) (maintains_ite (maintains_pure _) hagain)

theorem hosted_otaSettledAs (want : UInt8) (timeoutMs : UInt32) :
    Hosted (otaSettledAs cfg want timeoutMs) :=
  hosted_settleLoop cfg want _ cfg.fuel 0

-- What follows the request of a begin, given its status.
theorem hosted_begun (timeoutMs : UInt32) (s : Status) : Hosted (do
    match ← otaSettledAs cfg OTA_STATE_WRITING timeoutMs with
    | .ok () => pure (.ok ())
    | .error .io => pure (.error .io)
    | .error _ =>
        if s = .error .busy then
          delay OTA_BEGIN_BLIND_MS
          match ← otaSettledAs cfg OTA_STATE_WRITING timeoutMs with
          | .ok () => pure (.ok ())
          | .error .io => pure (.error .io)
          | .error _ => pure s
        else pure (if s = .ok () then .error .timeout else s) : Driver Status) := by
  refine maintains_bind (hosted_otaSettledAs cfg _ _) fun settled => ?_
  split
  · exact maintains_pure _
  · exact maintains_pure _
  · refine maintains_ite (maintains_bind (leaves_delay _).maintains fun _ => ?_) (maintains_pure _)
    refine maintains_bind (hosted_otaSettledAs cfg _ _) fun settled => ?_
    split
    · exact maintains_pure _
    · exact maintains_pure _
    · exact maintains_pure _

theorem hosted_otaBegin (totalLen timeoutMs : UInt32) : Hosted (otaBegin cfg totalLen timeoutMs) := by
  refine maintains_bind (leaves_get (f := .peerPolled) trivial).maintains fun polled => ?_
  refine maintains_ite ?_ (maintains_pure _)
  refine maintains_bind (traceless_request cfg _ _ _).maintains ?_
  rintro ⟨s, reply⟩
  dsimp only
  split
  · exact maintains_bind (leaves_delay _).maintains fun _ => hosted_begun cfg timeoutMs s
  · exact hosted_begun cfg timeoutMs s

theorem hosted_otaWriteFrame (offset : UInt32) (data : List UInt8) :
    Hosted (otaWriteFrame cfg offset data) :=
  maintains_bind (traceless_request cfg _ _ _).maintains fun _ => maintains_pure _

theorem hosted_otaWriteSplit (rounds : Nat) (offset : UInt32) (data : List UInt8) :
    Hosted (otaWriteSplit cfg rounds offset data) := by
  induction rounds generalizing offset data with
  | zero => exact maintains_pure _
  | succ rounds ih =>
      refine maintains_ite (maintains_pure _) (maintains_bind (hosted_otaWriteFrame cfg _ _) fun s => ?_)
      match s with
      | .error err => exact maintains_pure _
      | .ok () => exact ih _ _

theorem hosted_otaWrite (offset : UInt32) (data : List UInt8) : Hosted (otaWrite cfg offset data) := by
  refine maintains_ite (maintains_pure _) ?_
  refine maintains_bind (leaves_get (f := .peerPolled) trivial).maintains fun polled => ?_
  exact maintains_ite (hosted_otaWriteSplit cfg _ _ _) (hosted_otaWriteFrame cfg _ _)

-- The host clears the flag once it has left the session.
theorem keeping_leaveSession {v : View} {value : Bool} (hv : v.Hosts) (hsession : v.session = false) :
    Keeping true (set .otaSessionActive value) (fun _ v' => v'.Hosts ∧ v'.session = false) v := by
  obtain ⟨hhost, hholds, hstage, hfresh, hcheck, hsocket, hstaged⟩ := hv
  refine ⟨.inr ⟨hstage, hhost, fun _ => hsession⟩, fun _ => ?_⟩
  refine ⟨⟨hhost, hholds, ?_, hfresh, hcheck, ?_, hstaged⟩, hsession⟩
  · simp [discipline, View.next, hstage]
  · simp [discipline, View.next, hsocket]

theorem keeping_sessionLeft {α : Type} {v : View} {next : Unit → Driver α} {Q : α → View → Prop}
    (hv : v.Hosts) (h : ∀ w : View, w.Hosts → w.session = false → Keeping true (next ()) Q w) :
    Keeping true (note .sessionLeft >>= next) Q v := by
  obtain ⟨hhost, hholds, hstage, hfresh, hcheck, hsocket, hstaged⟩ := hv
  refine keeping_note hhost (h _ ⟨hhost, hholds, ?_, hfresh, hcheck, ?_, hstaged⟩ rfl)
  · simp [View.next, hstage]
  · simp [View.next, hsocket]

theorem hosted_otaFinishConfirmed : Hosted otaFinishConfirmed := by
  refine fun v hv => keeping_sessionLeft hv fun w hw hsession => ?_
  refine keeping_set_plain (f := .peerPolled) trivial nofun ?_
  exact follows_mono (keeping_leaveSession hw hsession) fun _ _ h => h.1

theorem hosted_otaFinish (timeoutMs : UInt32) : Hosted (otaFinish cfg timeoutMs) := by
  refine maintains_bind (hosted_pollByRepeat cfg _ _ _ _) ?_
  rintro ⟨s, reply⟩
  have hconfirmed : Hosted (do
      otaFinishConfirmed
      pure (.ok ()) : Driver Status) :=
    maintains_bind hosted_otaFinishConfirmed fun _ => maintains_pure _
  refine maintains_ite hconfirmed (maintains_bind (hosted_otaSettledAs cfg _ _) fun settled => ?_)
  split
  · exact hconfirmed
  · exact maintains_pure _
  · exact maintains_pure _

theorem hosted_otaAbort (timeoutMs : UInt32) : Hosted (otaAbort cfg timeoutMs) :=
  maintains_bind (hosted_pollByRepeat cfg _ _ _ _) fun _ => maintains_pure _

theorem hosted_otaPromote (timeoutMs : UInt32) : Hosted (otaPromote cfg timeoutMs) := by
  refine maintains_bind (hosted_otaStatus cfg timeoutMs) fun result => ?_
  match result with
  | .error err => exact maintains_pure _
  | .ok st =>
      refine maintains_ite ?_ (maintains_ite (maintains_pure _) (maintains_pure _))
      refine maintains_bind (hosted_pollByRepeat cfg _ _ _ _) ?_
      rintro ⟨s, reply⟩
      dsimp only
      split
      · refine fun v hv => keeping_sessionLeft hv fun w hw hsession => ?_
        exact follows_seq (keeping_leaveSession hw hsession) fun _ _ h => h.1
      · exact maintains_pure _

theorem traceless_diagUptime : Traceless (diagUptime cfg) := by
  refine leaves_bind (traceless_request cfg _ _ _) ?_
  rintro ⟨s, reply⟩
  match s with
  | .error err => exact leaves_pure _
  | .ok () => exact leaves_pure _

theorem traceless_updateModeReadsAs (want : UInt8) : Traceless (updateModeReadsAs cfg want) := by
  refine leaves_bind (traceless_request cfg _ _ _) ?_
  rintro ⟨s, reply⟩
  refine leaves_ite (leaves_ite (leaves_pure _) ?_) (leaves_pure _)
  refine leaves_bind (leaves_get (f := .fwProtoMajor) trivial) fun major => ?_
  exact leaves_ite (leaves_pure _) (traceless_diagUptime cfg)

theorem traceless_updateModeLoop (want : UInt8) (timeoutMs pollMs : UInt32) (fuel : Nat)
    (waited : UInt32) : Traceless (updateModeLoop cfg want timeoutMs pollMs fuel waited) := by
  induction fuel generalizing waited with
  | zero => exact leaves_stall
  | succ fuel ih =>
      refine leaves_bind (traceless_updateModeReadsAs cfg want) fun reads => ?_
      refine leaves_ite (leaves_pure _) (leaves_ite (leaves_pure _) ?_)
      exact leaves_bind (leaves_delay _) fun _ => ih _

-- A pin that the host drives outside of a recovery.
theorem keeping_hostPin {v : View} (hv : v.Hosts) (hsession : v.session = false) (pin : Pin)
    (level : Bool) : Keeping true (pinWrite cfg pin level) (fun _ v' => v' = v) v := by
  have hwrite : v.next (.write pin level) () = v := by
    have hstage := hv.rest.stage
    cases v
    simp_all [View.next, Stage.drove]
  have hdrive : Keeping true (write pin level) (fun _ v' => v' = v) v :=
    ⟨.inr ⟨hv.rest.stage, hv.host, hsession⟩, fun _ => hwrite⟩
  cases pin with
  | reset =>
      simp only [pinWrite]
      split
      · exact hdrive
      · rfl
  | enable =>
      simp only [pinWrite]
      split
      · exact hdrive
      · rfl

theorem keeping_hostHardReset {v : View} (hv : v.Hosts) (hsession : v.session = false) :
    Keeping true (hardReset cfg) (fun _ v' => v'.Hosts ∧ v'.session = false) v := by
  unfold hardReset
  split
  · refine follows_seq (keeping_leaveSession hv hsession) ?_
    rintro _ w ⟨hw, hwsession⟩
    refine follows_seq (keeping_hostPin cfg hw hwsession .reset false) ?_
    rintro _ _ rfl
    refine keeping_delay (follows_seq (keeping_hostPin cfg hw hwsession .reset true) ?_)
    rintro _ _ rfl
    exact keeping_delay ⟨hw, hwsession⟩
  · exact ⟨hv, hsession⟩

theorem traceless_getVersion : Traceless (getVersion cfg) := by
  refine leaves_bind (traceless_request cfg _ _ _) ?_
  rintro ⟨s, reply⟩
  split
  · exact leaves_pure _
  · exact leaves_pure _
  · exact leaves_pure _

theorem traceless_getCapabilities : Traceless (getCapabilities cfg) := by
  refine leaves_bind (traceless_request cfg _ _ _) ?_
  rintro ⟨s, reply⟩
  match s with
  | .error err => exact leaves_pure _
  | .ok () => exact leaves_pure _

theorem traceless_retryVersion (attempts : Nat) (version : Except AlpError UInt8) :
    Traceless (retryVersion cfg attempts version) := by
  induction attempts generalizing version with
  | zero => cases version <;> exact leaves_pure _
  | succ attempts ih =>
      cases version with
      | ok major => exact leaves_pure _
      | error err =>
          refine leaves_bind (leaves_delay _) fun _ => ?_
          exact leaves_bind (traceless_getVersion cfg) fun version => ih version

theorem traceless_resetVersion : Traceless (do
    set .initialised true
    let priorMajor ← get .fwProtoMajor
    set .fwProtoMajor 0
    match ← retryVersion cfg (RESET_VERSION_ATTEMPTS - 1) (← getVersion cfg) with
    | .error _ =>
        if priorMajor = 0 then
          set .initialised false
          pure (.error .timeout)
        else
          set .fwProtoMajor priorMajor
          pure (.ok ())
    | .ok major =>
        if fwMajorIsAcceptable major then
          set .fwProtoMajor major
          let _ ← getCapabilities cfg
          pure (.ok ())
        else
          set .initialised false
          set .fwProtoMajor major
          pure (.error .version) : Driver Status) := by
  have hinitialised : ∀ value : Bool, Traceless (set .initialised value) :=
    leaves_set (f := .initialised) trivial nofun
  have hmajor : ∀ value : UInt8, Traceless (set .fwProtoMajor value) :=
    leaves_set (f := .fwProtoMajor) trivial nofun
  refine leaves_bind (hinitialised true) fun _ => ?_
  refine leaves_bind (leaves_get (f := .fwProtoMajor) trivial) fun priorMajor => ?_
  refine leaves_bind (hmajor 0) fun _ => ?_
  refine leaves_bind (traceless_getVersion cfg) fun first => ?_
  refine leaves_bind (traceless_retryVersion cfg _ first) fun version => ?_
  cases version with
  | error err =>
      refine leaves_ite ?_ ?_
      · exact leaves_bind (hinitialised false) fun _ => leaves_pure _
      · exact leaves_bind (hmajor priorMajor) fun _ => leaves_pure _
  | ok major =>
      refine leaves_ite ?_ ?_
      · refine leaves_bind (hmajor major) fun _ => ?_
        exact leaves_bind (traceless_getCapabilities cfg) fun _ => leaves_pure _
      · refine leaves_bind (hinitialised false) fun _ => ?_
        exact leaves_bind (hmajor major) fun _ => leaves_pure _

theorem keeping_hostReset {v : View} (hv : v.Hosts) (hsession : v.session = false) :
    Keeping true (reset cfg) (fun _ v' => v'.Hosts) v := by
  unfold reset
  split
  · refine follows_seq (keeping_leaveSession hv hsession) ?_
    rintro _ w ⟨hw, hwsession⟩
    have hpin := fun pin level => keeping_hostPin cfg hw hwsession pin level
    refine follows_seq (hpin .reset false) ?_
    rintro _ _ rfl
    refine follows_seq (hpin .enable false) ?_
    rintro _ _ rfl
    refine keeping_delay (follows_seq (hpin .enable true) ?_)
    rintro _ _ rfl
    refine keeping_delay (follows_seq (hpin .reset false) ?_)
    rintro _ _ rfl
    refine keeping_delay (follows_seq (hpin .reset true) ?_)
    rintro _ _ rfl
    refine keeping_delay (follows_seq (keeping_hostHardReset cfg hw hwsession) ?_)
    rintro s w' ⟨hw', -⟩
    match s with
    | .error err => exact hw'
    | .ok () => exact (traceless_resetVersion cfg).maintains w' hw'
  · exact hv

-- The end of an update-mode request that the device has read back.
theorem keeping_updateModeConfirmed {v : View} (enable : Bool) (hv : v.Hosts)
    (hflag : enable = true → v.flag = true) (hsession : enable = false → v.session = false) :
    Keeping true (updateModeConfirmed enable) (fun _ v' => v'.Hosts) v := by
  refine keeping_set_plain (f := .peerPolled) trivial nofun ?_
  cases enable with
  | true =>
      obtain ⟨hhost, hholds, hstage, hfresh, hcheck, hsocket, hstaged⟩ := hv
      refine ⟨⟨hhost, hflag rfl⟩, fun _ => ⟨hhost, hholds, ?_, hfresh, hcheck, ?_, hstaged⟩⟩
      · simp [discipline, View.next, hstage]
      · simp [discipline, View.next, hsocket]
  | false => exact follows_seq (keeping_leaveSession hv (hsession rfl)) fun _ _ h => h.1

-- The rest of `cc3501e_ota_update_mode` after its first write to the session flag.
theorem keeping_updateModeFrom {v : View} (enable : Bool) (timeoutMs : UInt32) (hv : v.Hosts)
    (hflag : enable = true → v.flag = true) (hsession : enable = false → v.session = false) :
    Keeping true (do
      let want : UInt8 := if enable then 1 else 0
      if ← updateModeReadsAs cfg want then
        updateModeConfirmed enable
        pure (.ok ())
      else
        delay UPDATE_MODE_SETTLE_MS
        let pollMs := min timeoutMs UPDATE_MODE_POLL_TIMEOUT_MS
        if ← updateModeLoop cfg want timeoutMs pollMs cfg.fuel 0 then
          updateModeConfirmed enable
          pure (.ok ())
        else
          note .sessionLeft
          set .peerPolled false
          let _ ← hardReset cfg
          set .otaSessionActive false
          pure (.error .timeout) : Driver Status) (fun _ v' => v'.Hosts) v := by
  have hconfirmed : Keeping true (do
      updateModeConfirmed enable
      pure (.ok ()) : Driver Status) (fun _ v' => v'.Hosts) v :=
    follows_seq (keeping_updateModeConfirmed enable hv hflag hsession) fun _ _ hw => hw
  refine follows_seq (traceless_updateModeReadsAs cfg _ v hv) ?_
  rintro reads _ rfl
  cases reads with
  | true => exact hconfirmed
  | false =>
      refine keeping_delay (follows_seq (traceless_updateModeLoop cfg _ _ _ _ _ _ hv) ?_)
      rintro done _ rfl
      cases done with
      | true => exact hconfirmed
      | false =>
          refine keeping_sessionLeft hv fun w hw hwsession => ?_
          refine keeping_set_plain (f := .peerPolled) trivial nofun ?_
          refine follows_seq (keeping_hostHardReset cfg hw hwsession) ?_
          rintro _ w' ⟨hw', hwsession'⟩
          exact follows_seq (keeping_leaveSession hw' hwsession') fun _ _ h => h.1

theorem hosted_otaUpdateMode (enable : Bool) (timeoutMs : UInt32) :
    Hosted (otaUpdateMode cfg enable timeoutMs) := by
  refine maintains_bind (leaves_get (f := .initialised) trivial).maintains fun initialised => ?_
  refine maintains_ite (fun v hv => ?_) (maintains_pure _)
  cases enable with
  | true =>
      obtain ⟨hhost, hholds, hstage, hfresh, hcheck, hsocket, hstaged⟩ := hv
      refine keeping_set (.inr ⟨hstage, hhost, by rintro ⟨⟩⟩) ?_
      refine keeping_updateModeFrom cfg true timeoutMs ⟨hhost, hholds, ?_, hfresh, hcheck, ?_, hstaged⟩
        (fun _ => rfl) (by rintro ⟨⟩)
      · simp [View.next, hstage]
      · simp [View.next, hsocket]
  | false =>
      refine keeping_sessionLeft hv fun w hw hsession => ?_
      exact keeping_updateModeFrom cfg false timeoutMs hw (by rintro ⟨⟩) fun _ => hsession

theorem hosted_otaUpdateBail (err : AlpError) (timeoutMs : UInt32) :
    Hosted (otaUpdateBail cfg err timeoutMs) :=
  maintains_bind (hosted_otaUpdateMode cfg false timeoutMs) fun _ => maintains_pure _

theorem hosted_otaUpdateAbort (err : AlpError) (timeoutMs : UInt32) :
    Hosted (otaUpdateAbort cfg err timeoutMs) :=
  maintains_bind (hosted_otaAbort cfg timeoutMs) fun _ => hosted_otaUpdateBail cfg err timeoutMs

theorem hosted_flushLoop (expect pollMs : UInt32) (fuel : Nat) (waited : UInt32) :
    Hosted (flushLoop cfg expect pollMs fuel waited) := by
  induction fuel generalizing waited with
  | zero => exact maintains_stall
  | succ fuel ih =>
      have hagain : Hosted (do
          if OTA_FLUSH_WAIT_MS ≤ waited then pure (.error .timeout)
          else
            delay OTA_FLUSH_POLL_MS.toNat
            flushLoop cfg expect pollMs fuel (waited + (OTA_FLUSH_POLL_MS + pollMs))) :=
        maintains_ite (maintains_pure _) (maintains_bind (leaves_delay _).maintains fun _ => ih _)
      refine maintains_bind (hosted_otaStatus cfg pollMs) fun result => ?_
      cases result with
      | error err => exact hagain
      | ok fs => exact maintains_ite (maintains_ite (maintains_pure _) (maintains_pure _)) hagain

theorem hosted_chunkTaken (expect timeoutMs : UInt32) : Hosted (chunkTaken cfg expect timeoutMs) := by
  refine maintains_bind (hosted_otaStatus cfg timeoutMs) fun result => ?_
  cases result with
  | error err => exact maintains_pure _
  | ok st => exact maintains_pure _

theorem hosted_streamLoop (image : List UInt8) (chunk : Nat) (timeoutMs : UInt32)
    (fuel off stalled : Nat) : Hosted (streamLoop cfg image chunk timeoutMs fuel off stalled) := by
  induction fuel generalizing off stalled with
  | zero => exact maintains_stall
  | succ fuel ih =>
      refine maintains_ite (maintains_bind (hosted_otaWrite cfg _ _) fun s => ?_) (maintains_pure _)
      match s with
      | .ok () => exact ih _ _
      | .error err =>
          refine maintains_ite ?_ ?_
          · refine maintains_bind (hosted_flushLoop cfg _ _ _ _) fun flushed => ?_
            match flushed with
            | .error err => exact hosted_otaUpdateAbort cfg err timeoutMs
            | .ok true => exact ih _ _
            | .ok false => exact maintains_ite (hosted_otaUpdateAbort cfg .io timeoutMs) (ih _ _)
          · refine maintains_bind (hosted_chunkTaken cfg _ _) fun taken => ?_
            exact maintains_ite (ih _ _) (hosted_otaUpdateAbort cfg err timeoutMs)

theorem hosted_otaUpdate (image : List UInt8) (timeoutMs : UInt32) :
    Hosted (otaUpdate cfg image timeoutMs) := by
  refine maintains_ite (maintains_pure _) (maintains_bind (hosted_otaUpdateMode cfg true timeoutMs) fun s => ?_)
  match s with
  | .error err => exact maintains_pure _
  | .ok () =>
      refine maintains_bind (hosted_otaBegin cfg _ timeoutMs) fun s => ?_
      match s with
      | .error err => exact hosted_otaUpdateBail cfg err timeoutMs
      | .ok () =>
          refine maintains_bind (leaves_get (f := .peerPolled) trivial).maintains fun polled => ?_
          refine maintains_bind (hosted_streamLoop cfg image _ timeoutMs _ _ _) fun s => ?_
          match s with
          | .error err => exact maintains_pure _
          | .ok () =>
              refine maintains_bind (hosted_otaFinish cfg timeoutMs) fun s => ?_
              match s with
              | .error err => exact hosted_otaUpdateBail cfg err timeoutMs
              | .ok () => exact hosted_otaPromote cfg timeoutMs

end Calls

-- The calls of the thread that runs the update. An explicit reset leaves the session.
inductive UpdateCall (cfg : Config) : Driver Unit → Prop where
  | updateMode (enable : Bool) (timeoutMs : UInt32) :
      UpdateCall cfg (do let _ ← otaUpdateMode cfg enable timeoutMs)
  | begin (totalLen timeoutMs : UInt32) : UpdateCall cfg (do let _ ← otaBegin cfg totalLen timeoutMs)
  | write (offset : UInt32) (data : List UInt8) : UpdateCall cfg (do let _ ← otaWrite cfg offset data)
  | finish (timeoutMs : UInt32) : UpdateCall cfg (do let _ ← otaFinish cfg timeoutMs)
  | abort (timeoutMs : UInt32) : UpdateCall cfg (do let _ ← otaAbort cfg timeoutMs)
  | status (timeoutMs : UInt32) : UpdateCall cfg (do let _ ← otaStatus cfg timeoutMs)
  | promote (timeoutMs : UInt32) : UpdateCall cfg (do let _ ← otaPromote cfg timeoutMs)
  | update (image : List UInt8) (timeoutMs : UInt32) :
      UpdateCall cfg (do let _ ← otaUpdate cfg image timeoutMs)
  | hardReset : UpdateCall cfg (do note .sessionLeft; let _ ← hardReset cfg)
  | reset : UpdateCall cfg (do note .sessionLeft; let _ ← reset cfg)

theorem hosted_ignore {α : Type} {p : Driver α} (hp : Hosted p) : Hosted (do let _ ← p) :=
  maintains_bind hp fun _ => maintains_pure _

theorem updateCall_hosted {cfg : Config} {p : Driver Unit} (h : UpdateCall cfg p) : Hosted p := by
  cases h with
  | updateMode enable timeoutMs => exact hosted_ignore (hosted_otaUpdateMode cfg enable timeoutMs)
  | begin totalLen timeoutMs => exact hosted_ignore (hosted_otaBegin cfg totalLen timeoutMs)
  | write offset data => exact hosted_ignore (hosted_otaWrite cfg offset data)
  | finish timeoutMs => exact hosted_ignore (hosted_otaFinish cfg timeoutMs)
  | abort timeoutMs => exact hosted_ignore (hosted_otaAbort cfg timeoutMs)
  | status timeoutMs => exact hosted_ignore (hosted_otaStatus cfg timeoutMs)
  | promote timeoutMs => exact hosted_ignore (hosted_otaPromote cfg timeoutMs)
  | update image timeoutMs => exact hosted_ignore (hosted_otaUpdate cfg image timeoutMs)
  | hardReset =>
      refine fun v hv => keeping_sessionLeft hv fun w hw hsession => ?_
      exact follows_seq (keeping_hostHardReset cfg hw hsession) fun _ _ h => h.1
  | reset =>
      refine fun v hv => keeping_sessionLeft hv fun w hw hsession => ?_
      exact follows_seq (keeping_hostReset cfg hw hsession) fun _ _ h => h

section Session

variable {T : Type} [DecidableEq T] {h t : T} {raw : Bool} {s s' : Shared T} {cmd : Cmd}
  {reply : bridge.Reply cmd}

def hostOf (h : T) (t : T) : Bool := decide (t = h)

-- The host calls into the update, and all threads make requests and recover.
inductive SessionCall (cfg : Config) (h : T) : T → Driver Unit → Prop where
  | request {t : T} {p : Driver Unit} (hcall : RequestCall cfg p) : SessionCall cfg h t p
  | update {p : Driver Unit} (hcall : UpdateCall cfg p) : SessionCall cfg h h p

theorem sessionCall_keeping {cfg : Config} {p : Driver Unit} (hcall : SessionCall cfg h t p)
    (hrest : (s.view (hostOf h) t).Rest) :
    Keeping true p (fun _ v' => v'.Rest) (s.view (hostOf h) t) := by
  cases hcall with
  | request hcall => exact requestCall_keeping hcall hrest
  | update hcall =>
      have hhost : (s.view (hostOf h) h).host = true := by
        rw [view_host]
        simp [hostOf]
      exact follows_mono (updateCall_hosted hcall _ ⟨hhost, hrest⟩) fun _ _ hv => hv.rest

-- The flag that `cc3501e_recover` reads, what the host knows of it, and the threads that have
-- found it clear.
structure Shared.Respected (h : T) (s : Shared T) : Prop where
  flagged : (s.view (hostOf h) h).flag = true → s.ctx.otaSessionActive = true
  opened : (s.view (hostOf h) h).session = true → (s.view (hostOf h) h).flag = true
  clear : s.ctx.otaSessionActive = true → ∀ t, (s.view (hostOf h) t).stage.past = false

def Cmd.opensSession : Cmd → Bool
  | .set .otaSessionActive active => active
  | _ => false

-- The host sets the flag only while no other thread is past its test in `cc3501e_recover`.
def opensWhileClear (h : T) (t : T) (s : Shared T) (cmd : Cmd) (_ : bridge.Reply cmd) : Prop :=
  cmd.opensSession = true → ∀ u, u ≠ t → (s.view (hostOf h) u).stage.past = false

theorem past_next {v : View} (hnext : (v.stage.next cmd reply).past = true) :
    v.stage.past = true ∨ (cmd = .get .otaSessionActive ∧ HEq reply false) := by
  have hmove := Stage.move v.stage cmd reply
  generalize v.stage.next cmd reply = stage' at hmove hnext
  generalize v.stage = stage at hmove
  cases hmove with
  | stay => exact .inl hnext
  | check => exact .inr ⟨rfl, HEq.rfl⟩
  | enter | leave | lose | release => cases hnext
  | lost transfer frame err hconfirming | dropped frame err hconfirming =>
      exact .inl (Stage.past_of_reset (Stage.reset_of_confirming hconfirming))
  | answered frame answer hconfirming =>
      exact .inl (Stage.past_of_reset (Stage.reset_of_confirming hconfirming))
  | _ => exact .inl rfl

theorem host_eq (hhost : (s.view (hostOf h) t).host = true) : t = h := by
  rw [view_host] at hhost
  exact of_decide_eq_true hhost

-- A thread that sets the flag is the host between two steps of its own recoveries, or clears
-- it in a recovery that it owns.
theorem session_after (hallow : (s.view (hostOf h) t).Allows raw cmd) (reply : bridge.Reply cmd) :
    (s.ctx.after cmd reply).otaSessionActive = s.ctx.otaSessionActive ∧
        (∀ active, cmd ≠ .set .otaSessionActive active) ∨
      (cmd = .set .otaSessionActive false ∧ (s.view (hostOf h) t).stage = .owner) ∨
      ∃ active, cmd = .set .otaSessionActive active ∧ t = h ∧ (s.view (hostOf h) t).stage = .out ∧
        (active = false → (s.view (hostOf h) t).session = false) := by
  cases cmd with
  | set f value =>
      cases f with
      | otaSessionActive =>
          rcases hallow with ⟨howner, -, rfl⟩ | ⟨hout, hhost, hsession⟩
          · exact .inr (.inl ⟨rfl, howner⟩)
          · exact .inr (.inr ⟨value, rfl, host_eq hhost, hout, hsession⟩)
      | _ => exact .inl ⟨rfl, nofun⟩
  | claim flag => cases flag <;> exact .inl ⟨rfl, nofun⟩
  | _ => exact .inl ⟨rfl, nofun⟩

theorem flag_next {v : View} (hne : ∀ active, cmd ≠ .set .otaSessionActive active) :
    (v.next cmd reply).flag = v.flag := by
  show v.flagNext cmd = v.flag
  cases cmd with
  | set f value =>
      cases f with
      | otaSessionActive => exact absurd rfl (hne value)
      | _ => rfl
  | _ => rfl

theorem session_next {v : View} (hallow : v.Allows raw cmd) (h : (v.next cmd reply).session = true) :
    v.session = true ∨ (v.flag = true ∧ cmd = .note .sessionOpened) := by
  cases cmd with
  | note n =>
      cases n with
      | sessionOpened => exact .inr ⟨hallow.2, rfl⟩
      | sessionLeft => cases h
      | _ => exact .inl h
  | _ => exact .inl h

theorem respected_step (hrespected : s.Respected h) (hallow : (s.view (hostOf h) t).Allows raw cmd)
    (henv : envWhere (opensWhileClear h) t s cmd reply s') : s'.Respected h := by
  obtain ⟨henv, hguard⟩ := henv
  obtain ⟨hflagged, hopened, hclear⟩ := hrespected
  have hanswer := henv.1
  have hctx := henv.2.2.1
  have hflag : t ≠ h → (s'.view (hostOf h) h).flag = (s.view (hostOf h) h).flag :=
    fun hne => congrArg View.flag (env_view_other henv hne.symm)
  have hsession : t ≠ h → (s'.view (hostOf h) h).session = (s.view (hostOf h) h).session :=
    fun hne => congrArg View.session (env_view_other henv hne.symm)
  have hpast : ∀ u, u ≠ t → (s'.view (hostOf h) u).stage.past = (s.view (hostOf h) u).stage.past :=
    fun u hu => congrArg (fun v => v.stage.past) (env_view_other henv hu)
  rcases session_after hallow reply with
    ⟨hsame, hne⟩ | ⟨rfl, howner⟩ | ⟨active, rfl, rfl, hout, hleft⟩
  · -- the flag stands, and no thread that reads it finds it clear while it is set
    rw [← hctx] at hsame
    have hflag' : (s'.view (hostOf h) h).flag = (s.view (hostOf h) h).flag := by
      by_cases ht : t = h
      · rw [← ht, env_view_own henv, flag_next hne]
      · exact hflag ht
    refine ⟨fun hset => ?_, fun hopen => ?_, fun hset u => ?_⟩
    · rw [hsame]
      exact hflagged (hflag' ▸ hset)
    · rw [hflag']
      by_cases ht : t = h
      · have hopen : (s'.view (hostOf h) t).session = true := by
          rw [ht]
          exact hopen
        rw [env_view_own henv] at hopen
        rw [ht] at hallow hopen
        rcases session_next hallow hopen with hbefore | ⟨hset, -⟩
        · exact hopened hbefore
        · exact hset
      · exact hopened (hsession ht ▸ hopen)
    · rw [hsame] at hset
      by_cases hu : u = t
      · cases hpast' : (s'.view (hostOf h) u).stage.past with
        | false => rfl
        | true =>
            rw [hu, env_view_own henv] at hpast'
            rcases past_next hpast' with hbefore | ⟨rfl, hfalse⟩
            · simp [hclear hset t] at hbefore
            · obtain rfl := eq_of_heq hfalse
              have hread : false = s.ctx.otaSessionActive := hanswer
              simp [hset] at hread
      · rw [hpast u hu]
        exact hclear hset u
  · -- an owner of the recovery is past the test, so that no session is open
    have hclosed : s.ctx.otaSessionActive = false := by
      cases hset : s.ctx.otaSessionActive with
      | false => rfl
      | true =>
          have hpast' := hclear hset t
          simp [howner, Stage.past] at hpast'
    have hunflagged : (s.view (hostOf h) h).flag = false := by
      cases hset : (s.view (hostOf h) h).flag with
      | false => rfl
      | true =>
          rw [hflagged hset] at hclosed
          cases hclosed
    have hflag' : (s'.view (hostOf h) h).flag = false := by
      by_cases ht : t = h
      · rw [← ht, env_view_own henv]
        rfl
      · rw [hflag ht, hunflagged]
    have hsession' : (s'.view (hostOf h) h).session = (s.view (hostOf h) h).session := by
      by_cases ht : t = h
      · rw [← ht, env_view_own henv]
        rfl
      · exact hsession ht
    refine ⟨fun hset => ?_, fun hopen => ?_, fun hset => ?_⟩
    · simp [hflag'] at hset
    · have hset := hopened (hsession' ▸ hopen)
      simp [hunflagged] at hset
    · rw [hctx] at hset
      cases hset
  · have hown : s'.view (hostOf t) t = (s.view (hostOf t) t).next (.set .otaSessionActive active) reply := env_view_own henv
    refine ⟨fun hset => ?_, fun hopen => ?_, fun hset u => ?_⟩
    · rw [hown] at hset
      rw [hctx]
      exact hset
    · rw [hown] at hopen ⊢
      cases active with
      | true => rfl
      | false =>
          have hopen : (s.view (hostOf t) t).session = true := hopen
          simp [hleft rfl] at hopen
    · rw [hctx] at hset
      have hactive : active = true := hset
      by_cases hu : u = t
      · rw [hu, hown]
        show ((s.view (hostOf t) t).stage.wrote .otaSessionActive).past = false
        simp [hout, Stage.past]
      · rw [hpast u hu]
        exact hguard hactive u hu

theorem fresh_respected (hfresh : s.Fresh) : s.Respected h := by
  have hview : ∀ t, s.view (hostOf h) t = .start (hostOf h t) := fun t => fresh_view hfresh t
  refine ⟨?_, ?_, ?_⟩
  · simp [hview, View.start]
  · simp [hview, View.start]
  · simp [hfresh.otaSessionActive]

theorem no_recovery_pulse_in_session {cfg : Config} {w w' : Pool bridge (Shared T) T}
    (hstart : Started w)
    (hrun : Run (envWhere (opensWhileClear h)) (fun t _ => SessionCall cfg h t) w w')
    {next : Unit → Driver Unit} (hpulse : w'.thread t = .call (.write .reset false) next)
    (hrecover : (w'.mem.view (hostOf h) t).stage ≠ .out) :
    (w'.mem.view (hostOf h) h).session = false := by
  have htracks : Tracks (envWhere (opensWhileClear h)) (discipline true) (Shared.view (hostOf h)) :=
    tracks_env.mono fun t s cmd reply s' henv => henv.1
  have hkeeps := run_keeps htracks (fun _ _ _ hcall _ hrest => sessionCall_keeping hcall hrest)
    (fun _ _ _ _ _ hinv hallow henv => respected_step hinv hallow henv) hrun
    (started_keeps hstart (fresh_respected hstart.mem))
  obtain ⟨hflagged, hopened, hclear⟩ := hkeeps.inv
  have hpast : (w'.mem.view (hostOf h) t).stage.past = true := by
    rcases hkeeps.allowed hpulse with ⟨-, -, ⟨hstage, -⟩ | ⟨-, hlevel⟩⟩ | ⟨hout, -⟩
    · rw [hstage]
      rfl
    · cases hlevel
    · exact absurd hout hrecover
  cases hsession : (w'.mem.view (hostOf h) h).session with
  | false => rfl
  | true =>
      rw [hclear (hflagged (hopened hsession)) t] at hpast
      cases hpast

end Session

section Overlap

-- A device that is in the boot for an update.
def polled (frame : Frame) : Except AlpError Answer :=
  .ok ⟨.ok (), 0, if frame.cmd = .otaUpdateMode then [1] else []⟩

def openCall : Driver Unit := do let _ ← otaUpdateMode board true 1000

-- `true` opens a session, `false` recovers the link.
def contending : Pool bridge (Shared Bool) Bool :=
  ⟨(booted Bool).mem, Function.update (Function.update (booted Bool).thread true openCall) false recoverCall⟩

theorem run_contending {env : Bool → Env bridge (Shared Bool)} {w : Pool bridge (Shared Bool) Bool}
    (hrun : Run env (fun t _ => SessionCall board true t) contending w) :
    Run env (fun t _ => SessionCall board true t) (booted Bool) w :=
  run_start rfl (.update (.updateMode true 1000)) (run_start rfl (.request .recover) hrun)

instance (t : Bool) (s : Shared Bool) (cmd : Cmd) (reply : bridge.Reply cmd) :
    Decidable (opensWhileClear true t s cmd reply) := by
  unfold opensWhileClear
  infer_instance

-- The recovery stands before its pulse, and the host before it sets the flag.
def recoveringFirst : Pool bridge (Shared Bool) Bool :=
  schedule (restricted (opensWhileClear true) (still polled)) (List.replicate 5 false ++ [true, true]) contending

theorem recoveringFirst_pulses : standsBefore Cmd.lowersReset (recoveringFirst.thread false) = true := by
  decide +kernel

theorem no_recovery_pulse_in_session_recoveringFirst :
    (recoveringFirst.mem.view (hostOf true) true).session = false := by
  obtain ⟨next, hpulse⟩ := exists_pulse recoveringFirst_pulses
  have hrun := run_contending (run_schedule
    (answering_restricted (opensWhileClear true) (answering_still polled))
    (List.replicate 5 false ++ [true, true]) contending)
  have hrecover : (recoveringFirst.mem.view (hostOf true) false).stage ≠ .out := by decide +kernel
  exact no_recovery_pulse_in_session (started_booted Bool) hrun hpulse hrecover

-- The recovery has found the flag clear, the host opens its session, and the recovery goes on.
def overlapping : Pool bridge (Shared Bool) Bool :=
  schedule (still polled) ([false, false] ++ List.replicate 13 true ++ List.replicate 3 false) contending

theorem overlapping_pulses : standsBefore Cmd.lowersReset (overlapping.thread false) = true := by
  decide +kernel

theorem recovery_pulse_in_session :
    ¬∀ (w w' : Pool bridge (Shared Bool) Bool), Started w →
      Run env (fun t _ => SessionCall board true t) w w' → ∀ t next,
        w'.thread t = .call (.write .reset false) next →
          (w'.mem.view (hostOf true) t).stage ≠ .out →
            (w'.mem.view (hostOf true) true).session = false := by
  intro h
  obtain ⟨next, hpulse⟩ := exists_pulse overlapping_pulses
  have hrun := run_contending (run_schedule (answering_still polled)
    ([false, false] ++ List.replicate 13 true ++ List.replicate 3 false) contending)
  have hrecover : (overlapping.mem.view (hostOf true) false).stage ≠ .out := by decide +kernel
  have hclosed := h (booted Bool) overlapping (started_booted Bool) hrun false next hpulse hrecover
  have hopen : (overlapping.mem.view (hostOf true) true).session = true := by decide +kernel
  rw [hopen] at hclosed
  cases hclosed

end Overlap

end AlpSdk.Cc3501e
