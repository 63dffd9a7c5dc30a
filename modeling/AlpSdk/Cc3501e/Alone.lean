import AlpSdk.Cc3501e.Threads

-- One thread that uses the driver, against a bridge with a state of its own: the commands that
-- look after the link, and the rule of the retry loop.
namespace AlpSdk.Cc3501e

open Library.Effect Library.Interleave

structure Link (D : Type) where
  ctx : Ctx
  peer : D

-- What the context answers while nobody else uses it.
def Ctx.Gives (ctx : Ctx) : (cmd : Cmd) → bridge.Reply cmd → Prop
  | .get f, value => value = ctx.get f
  | .claim .requestLock, won => won = !ctx.requestLock
  | .claim .recovering, won => won = !ctx.recovering
  | _, _ => True

-- The context is the thread's own, and the bridge moves as `peer` says.
def alone {D : Type} (peer : Env bridge D) : Env bridge (Link D) := fun s cmd reply s' =>
  s.ctx.Gives cmd reply ∧ s'.ctx = s.ctx.after cmd reply ∧ peer s.peer cmd reply s'.peer

-- A bridge that answers and moves in one way, while no time passes.
def Link.memory {D : Type} (device : D → Frame → Except AlpError Answer) (move : D → Cmd → D) :
    Memory bridge (Link D) := fun cmd s =>
  match (⟨s.ctx, 0, []⟩ : Shared Unit).answer (device s.peer) cmd with
  | none => none
  | some reply => some (reply, ⟨s.ctx.after cmd reply, move s.peer cmd⟩)

theorem gives_of_answer {ctx : Ctx} {device : Frame → Except AlpError Answer} {cmd : Cmd}
    {reply : bridge.Reply cmd} (h : (⟨ctx, 0, []⟩ : Shared Unit).answer device cmd = some reply) :
    ctx.Gives cmd reply := by
  cases cmd with
  | get f =>
      cases h
      rfl
  | claim flag =>
      cases flag <;>
        · cases h
          rfl
  | _ => trivial

theorem memory_step {D : Type} {peer : Env bridge D} {device : D → Frame → Except AlpError Answer}
    {move : D → Cmd → D} (hpeer : ∀ (ctx : Ctx) (d : D) (cmd : Cmd) (reply : bridge.Reply cmd),
      (⟨ctx, 0, []⟩ : Shared Unit).answer (device d) cmd = some reply → peer d cmd reply (move d cmd))
    {cmd : Cmd} {s : Link D} {out : bridge.Reply cmd × Link D} (hout : Link.memory device move cmd s = some out) :
    alone peer s cmd out.1 out.2 := by
  unfold Link.memory at hout
  cases hanswer : (⟨s.ctx, 0, []⟩ : Shared Unit).answer (device s.peer) cmd with
  | none => simp [hanswer] at hout
  | some reply =>
      simp only [hanswer, Option.some.injEq] at hout
      subst hout
      exact ⟨gives_of_answer hanswer, rfl, hpeer s.ctx s.peer cmd reply hanswer⟩

theorem exec_memory {D α : Type} {peer : Env bridge D} {device : D → Frame → Except AlpError Answer}
    {move : D → Cmd → D} (hpeer : ∀ (ctx : Ctx) (d : D) (cmd : Cmd) (reply : bridge.Reply cmd),
      (⟨ctx, 0, []⟩ : Shared Unit).answer (device d) cmd = some reply → peer d cmd reply (move d cmd))
    {p : Driver α} {s s' : Link D} {value : α}
      (hsolo : solo (Link.memory device move) p s = some (value, s')) :
    Exec (alone peer) s p (some value) s' :=
  exec_of_solo (fun _ _ _ hout => memory_step hpeer hout) hsolo

-- The commands with which a caller waits for its turn: no exchange, and no field but the lock.
def Cmd.Waits : Cmd → Prop
  | .get _ | .delay _ | .uptime | .stall | .claim .requestLock | .set .requestLock _ => True
  | _ => False

abbrev Waits {α : Type} (p : Driver α) : Prop := p.Uses Cmd.Waits

section Waits

open Prog

theorem waits_get (f : Field) : Waits (get f) := ⟨trivial, fun _ => trivial⟩

theorem waits_delay (ms : Nat) : Waits (delay ms) := ⟨trivial, fun _ => trivial⟩

theorem waits_uptime : Waits uptime := ⟨trivial, fun _ => trivial⟩

theorem waits_lockRelease : Waits lockRelease := ⟨trivial, fun _ => trivial⟩

theorem waits_lockAcquireWithin (waits : Nat) : Waits (lockAcquireWithin waits) := by
  induction waits with
  | zero => trivial
  | succ waits ih =>
      refine uses_bind (waits_delay 1) fun _ => ?_
      refine uses_bind (p := lockTry) ⟨trivial, fun _ => trivial⟩ fun won => ?_
      cases won with
      | true => trivial
      | false => exact ih

theorem waits_lockAcquire (cfg : Config) : Waits (lockAcquire cfg) := by
  refine uses_bind (p := lockTry) ⟨trivial, fun _ => trivial⟩ fun won => ?_
  cases won with
  | true => trivial
  | false => exact waits_lockAcquireWithin _

theorem waits_fits (len : Nat) : Waits (fits len) := uses_bind (waits_get _) fun _ => trivial

theorem waits_handleCurrent (handle : Option UInt16) : Waits (handleCurrent handle) := by
  cases handle with
  | none => trivial
  | some handle => exact uses_bind (waits_get _) fun _ => trivial

theorem waits_pollWait (deadlineMs : UInt64) (gap : Nat) : Waits (pollWait deadlineMs gap) := by
  refine uses_bind waits_uptime fun now => ?_
  split
  · trivial
  · exact uses_bind (waits_delay _) fun _ => trivial

end Waits

-- The requests and the fields of a link that is probed, reset and confirmed.
def Opcode.upkeep : Opcode → Bool
  | .ping | .getVersion | .getCapabilities => true
  | _ => false

def Field.upkeep : Field → Bool
  | .reqSeq | .sockSendSeq | .sockRecvSeq | .sockBuf | .peerPolled => false
  | _ => true

-- The commands of the code that looks after the link and not after what it carries.
def Cmd.Upkeep : Cmd → Prop
  | .set f _ => f.upkeep = true
  | .stage _ _ => False
  | .clock _ frame | .collect frame => frame.cmd.upkeep = true
  | _ => True

abbrev Upkeep {α : Type} (p : Driver α) : Prop := p.Uses Cmd.Upkeep

section Upkeep

open Prog

theorem Cmd.Waits.upkeep {cmd : Cmd} (h : cmd.Waits) : cmd.Upkeep := by
  cases cmd with
  | set f v =>
      cases f with
      | requestLock => rfl
      | _ => exact h.elim
  | clock transfer frame => exact h.elim
  | collect frame => exact h.elim
  | _ => trivial

theorem upkeep_of_waits {α : Type} {p : Driver α} (h : Waits p) : Upkeep p :=
  uses_mono h fun _ => Cmd.Waits.upkeep

theorem upkeep_pure {α : Type} (value : α) : Upkeep (pure value) := trivial

theorem upkeep_bind {α β : Type} {p : Driver α} {f : α → Driver β} (hp : Upkeep p)
    (hf : ∀ value, Upkeep (f value)) : Upkeep (p >>= f) :=
  uses_bind hp hf

theorem upkeep_ite {α : Type} {c : Prop} [Decidable c] {p q : Driver α} (hp : Upkeep p)
    (hq : Upkeep q) : Upkeep (if c then p else q) := by
  split
  · exact hp
  · exact hq

theorem upkeep_perform (cmd : Cmd) (h : cmd.Upkeep) : Upkeep (perform cmd) := ⟨h, fun _ => trivial⟩

theorem upkeep_get (f : Field) : Upkeep (get f) := upkeep_perform _ trivial

theorem upkeep_set {f : Field} (h : f.upkeep = true) (v : f.Val) : Upkeep (set f v) := upkeep_perform _ h

theorem upkeep_claim (flag : Flag) : Upkeep (claim flag) := upkeep_perform _ trivial

theorem upkeep_delay (ms : Nat) : Upkeep (delay ms) := upkeep_perform _ trivial

theorem upkeep_uptime : Upkeep uptime := upkeep_perform _ trivial

theorem upkeep_note (n : Note) : Upkeep (note n) := upkeep_perform _ trivial

variable (cfg : Config)

theorem upkeep_lockAcquire : Upkeep (lockAcquire cfg) := upkeep_of_waits (waits_lockAcquire cfg)

theorem upkeep_lockRelease : Upkeep lockRelease := upkeep_of_waits waits_lockRelease

theorem upkeep_clock (transfer : Transfer) {frame : Frame} {next : Driver Answer}
    (hframe : frame.cmd.upkeep = true) (hnext : Upkeep next) : Upkeep (clock transfer frame next) := by
  refine upkeep_bind (upkeep_perform _ hframe) fun err => ?_
  cases err with
  | none => exact hnext
  | some err => exact upkeep_pure _

theorem upkeep_collect {frame : Frame} (rxCap : Nat) (hframe : frame.cmd.upkeep = true) :
    Upkeep (collect frame rxCap) := by
  refine upkeep_bind (upkeep_perform _ hframe) fun reply => ?_
  cases reply with
  | error err => exact upkeep_pure _
  | ok answer => exact upkeep_pure _

theorem upkeep_requestLocked {frame : Frame} (rxCap : Nat) (hframe : frame.cmd.upkeep = true) :
    Upkeep (requestLocked frame rxCap) := by
  refine upkeep_bind (upkeep_get _) fun major => upkeep_clock _ hframe ?_
  have hreply := upkeep_clock .replyHeader hframe (upkeep_collect rxCap hframe)
  exact upkeep_ite (upkeep_clock _ hframe hreply) hreply

theorem upkeep_fits (len : Nat) : Upkeep (fits len) := upkeep_of_waits (waits_fits len)

theorem upkeep_request {cmd : Opcode} (payload : List UInt8) (rxCap : Nat) (hcmd : cmd.upkeep = true) :
    Upkeep (request cfg cmd payload rxCap) := by
  refine upkeep_bind (upkeep_get _) fun _ => upkeep_ite ?_ (upkeep_pure _)
  refine upkeep_bind (upkeep_fits _) fun _ => upkeep_ite ?_ (upkeep_pure _)
  refine upkeep_bind (upkeep_lockAcquire cfg) fun locked => ?_
  cases locked with
  | error err => exact upkeep_pure _
  | ok _ =>
      refine upkeep_bind (upkeep_requestLocked rxCap hcmd) fun answer => ?_
      exact upkeep_bind upkeep_lockRelease fun _ => upkeep_pure _

theorem upkeep_ping : Upkeep (ping cfg) :=
  upkeep_bind (upkeep_request cfg [] 0 rfl) fun _ => upkeep_pure _

theorem upkeep_getVersion : Upkeep (getVersion cfg) := by
  refine upkeep_bind (upkeep_request cfg [] 2 rfl) fun out => ?_
  split <;> exact upkeep_pure _

theorem upkeep_getCapabilities : Upkeep (getCapabilities cfg) := by
  refine upkeep_bind (upkeep_request cfg [] 8 rfl) fun out => ?_
  split <;> exact upkeep_pure _

theorem upkeep_pinWrite (pin : Pin) (level : Bool) : Upkeep (pinWrite cfg pin level) :=
  upkeep_ite (upkeep_perform _ trivial) (upkeep_pure _)

theorem upkeep_hardReset : Upkeep (hardReset cfg) := by
  refine upkeep_ite ?_ (upkeep_pure _)
  refine upkeep_bind (upkeep_set rfl _) fun _ => upkeep_bind (upkeep_pinWrite cfg _ _) fun _ => ?_
  refine upkeep_bind (upkeep_delay _) fun _ => upkeep_bind (upkeep_pinWrite cfg _ _) fun _ => ?_
  exact upkeep_bind (upkeep_delay _) fun _ => upkeep_pure _

theorem upkeep_powerOff : Upkeep (powerOff cfg) := by
  refine upkeep_ite ?_ (upkeep_pure _)
  refine upkeep_bind (upkeep_pinWrite cfg _ _) fun _ => upkeep_bind (upkeep_pinWrite cfg _ _) fun _ => ?_
  exact upkeep_bind (upkeep_set rfl _) fun _ => upkeep_pure _

theorem upkeep_retryVersion (attempts : Nat) (version : Except AlpError UInt8) :
    Upkeep (retryVersion cfg attempts version) := by
  induction attempts generalizing version with
  | zero => cases version <;> exact upkeep_pure _
  | succ attempts ih =>
      cases version with
      | ok major => exact upkeep_pure _
      | error err =>
          exact upkeep_bind (upkeep_delay _) fun _ => upkeep_bind (upkeep_getVersion cfg) ih

theorem upkeep_reset : Upkeep (reset cfg) := by
  have hset : ∀ (f : Field) (v : f.Val), f.upkeep = true → ∀ s : Status, Upkeep (do set f v; pure s) :=
    fun _ v h _ => upkeep_bind (upkeep_set h v) fun _ => upkeep_pure _
  refine upkeep_ite ?_ (upkeep_pure _)
  refine upkeep_bind (upkeep_set rfl _) fun _ => ?_
  refine upkeep_bind (upkeep_pinWrite cfg _ _) fun _ => upkeep_bind (upkeep_pinWrite cfg _ _) fun _ => ?_
  refine upkeep_bind (upkeep_delay _) fun _ => upkeep_bind (upkeep_pinWrite cfg _ _) fun _ => ?_
  refine upkeep_bind (upkeep_delay _) fun _ => upkeep_bind (upkeep_pinWrite cfg _ _) fun _ => ?_
  refine upkeep_bind (upkeep_delay _) fun _ => upkeep_bind (upkeep_pinWrite cfg _ _) fun _ => ?_
  refine upkeep_bind (upkeep_delay _) fun _ => upkeep_bind (upkeep_hardReset cfg) fun pulsed => ?_
  cases pulsed with
  | error err => exact upkeep_pure _
  | ok _ =>
      refine upkeep_bind (upkeep_set rfl _) fun _ => upkeep_bind (upkeep_get _) fun prior => ?_
      refine upkeep_bind (upkeep_set rfl _) fun _ => upkeep_bind (upkeep_getVersion cfg) fun first => ?_
      refine upkeep_bind (upkeep_retryVersion cfg _ first) fun version => ?_
      cases version with
      | error err => exact upkeep_ite (hset .initialised _ rfl _) (hset .fwProtoMajor _ rfl _)
      | ok major =>
          refine upkeep_ite ?_ (upkeep_bind (upkeep_set rfl _) fun _ => hset .fwProtoMajor _ rfl _)
          refine upkeep_bind (upkeep_set rfl _) fun _ => ?_
          exact upkeep_bind (upkeep_getCapabilities cfg) fun _ => upkeep_pure _

theorem upkeep_recoverClearStaleState : Upkeep recoverClearStaleState :=
  upkeep_bind (upkeep_set rfl _) fun _ => upkeep_bind (upkeep_set rfl _) fun _ =>
    upkeep_bind (upkeep_get _) fun _ => upkeep_set rfl _

theorem upkeep_recoverVersion : Upkeep recoverVersion := by
  refine upkeep_bind (upkeep_requestLocked 2 rfl) fun version => ?_
  split
  · exact upkeep_pure _
  · refine upkeep_ite (upkeep_bind (upkeep_set rfl _) fun _ => upkeep_pure _) ?_
    exact upkeep_bind (upkeep_set rfl _) fun _ => upkeep_bind (upkeep_set rfl _) fun _ => upkeep_pure _

theorem upkeep_recoverConfirm : Upkeep recoverConfirm := by
  refine upkeep_bind (upkeep_requestLocked 0 rfl) fun answer => ?_
  split
  · exact upkeep_pure _
  · refine upkeep_bind upkeep_recoverVersion fun verdict => ?_
    cases verdict with
    | error err => exact upkeep_pure _
    | ok _ => exact upkeep_bind upkeep_recoverClearStaleState fun _ => upkeep_pure _

theorem upkeep_recoverReset : Upkeep (recoverReset cfg) := by
  refine upkeep_bind (upkeep_hardReset cfg) fun pulsed => ?_
  cases pulsed with
  | error err =>
      refine upkeep_bind upkeep_lockRelease fun _ => upkeep_bind (upkeep_powerOff cfg) fun _ => ?_
      refine upkeep_bind (upkeep_reset cfg) fun booted => ?_
      cases booted with
      | error err => exact upkeep_pure _
      | ok _ => exact upkeep_bind upkeep_recoverClearStaleState fun _ => upkeep_pure _
  | ok _ =>
      refine upkeep_bind upkeep_recoverConfirm fun final => ?_
      exact upkeep_bind upkeep_lockRelease fun _ => upkeep_pure _

theorem upkeep_recoverAccount (final : Status) : Upkeep (recoverAccount cfg final) := by
  refine upkeep_bind upkeep_uptime fun now => upkeep_bind (upkeep_set rfl _) fun _ => ?_
  refine upkeep_bind (upkeep_get _) fun attempts => upkeep_bind (upkeep_set rfl _) fun _ => ?_
  cases final with
  | ok _ =>
      refine upkeep_bind (upkeep_set rfl _) fun _ => upkeep_bind (upkeep_get _) fun count => ?_
      refine upkeep_bind (upkeep_set rfl _) fun _ => upkeep_ite ?_ (upkeep_pure _)
      exact upkeep_bind (upkeep_get _) fun count => upkeep_perform _ trivial
  | error err =>
      refine upkeep_bind (upkeep_get _) fun streak => upkeep_ite ?_ (upkeep_pure _)
      exact upkeep_bind (upkeep_get _) fun streak => upkeep_set rfl _

theorem upkeep_releaseRecover (s : Status) : Upkeep (releaseRecover s) :=
  upkeep_bind (upkeep_perform _ trivial) fun _ => upkeep_pure _

theorem upkeep_leaveRecover (s : Status) : Upkeep (leaveRecover s) :=
  upkeep_bind (upkeep_note _) fun _ => upkeep_pure _

theorem upkeep_recoverOwned : Upkeep (recoverOwned cfg) := by
  refine upkeep_bind (upkeep_lockAcquire cfg) fun locked => ?_
  cases locked with
  | error err =>
      refine upkeep_bind upkeep_uptime fun now => upkeep_bind (upkeep_set rfl _) fun _ => ?_
      exact upkeep_releaseRecover _
  | ok _ =>
      refine upkeep_bind (upkeep_recoverReset cfg) fun final => ?_
      exact upkeep_bind (upkeep_recoverAccount cfg final) fun _ => upkeep_releaseRecover _

theorem upkeep_recover : Upkeep (recover cfg) := by
  refine upkeep_bind (upkeep_note _) fun _ => upkeep_bind (upkeep_get _) fun active => ?_
  refine upkeep_ite (upkeep_leaveRecover _) (upkeep_ite (upkeep_leaveRecover _) ?_)
  refine upkeep_bind (upkeep_claim _) fun won => ?_
  exact upkeep_ite (upkeep_recoverOwned cfg) (upkeep_leaveRecover _)

theorem upkeep_linkResync (stallFirst : Bool) : Upkeep (linkResync cfg stallFirst) := by
  have hresync : ∀ header, Upkeep (perform (Cmd.resync header)) := fun _ => upkeep_perform _ trivial
  have hrest : Upkeep (do
      perform (Cmd.resync RESYNC_HDR)
      perform (Cmd.resync RESYNC_HDR)
      perform (Cmd.resync RESYNC_HDR)
      delay RESYNC_SETTLE_MS
      lockRelease
      pure true) := by
    refine upkeep_bind (hresync _) fun _ => upkeep_bind (hresync _) fun _ => ?_
    refine upkeep_bind (hresync _) fun _ => upkeep_bind (upkeep_delay _) fun _ => ?_
    exact upkeep_bind upkeep_lockRelease fun _ => upkeep_pure _
  refine upkeep_bind (upkeep_lockAcquire cfg) fun locked => ?_
  cases locked with
  | error err => exact upkeep_pure _
  | ok _ =>
      refine upkeep_ite (upkeep_bind (hresync _) fun _ => ?_) hrest
      exact upkeep_bind (upkeep_delay _) fun _ => hrest

theorem upkeep_cooldownFrom (rounds i cooldown : Nat) : Upkeep (cooldownFrom rounds i cooldown) := by
  induction rounds generalizing i cooldown with
  | zero => exact upkeep_pure _
  | succ rounds ih =>
      refine upkeep_bind (upkeep_get _) fun streak => ?_
      exact upkeep_ite (upkeep_ite (upkeep_pure _) (ih _ _)) (upkeep_pure _)

theorem upkeep_cooldownGate : Upkeep cooldownGate := by
  refine upkeep_bind (upkeep_get _) fun attempts => upkeep_ite ?_ (upkeep_pure _)
  refine upkeep_bind (upkeep_cooldownFrom _ _ _) fun cooldown => upkeep_bind upkeep_uptime fun now => ?_
  exact upkeep_bind (upkeep_get _) fun last => upkeep_pure _

theorem upkeep_probeFrom (rounds i : Nat) : Upkeep (probeFrom cfg rounds i) := by
  induction rounds generalizing i with
  | zero => exact upkeep_pure _
  | succ rounds ih =>
      have hwait : Upkeep (do
          if i + 1 < LINK_PROBE_TRIES then delay LINK_PROBE_GAP_MS
          probeFrom cfg rounds (i + 1)) :=
        upkeep_ite (upkeep_bind (upkeep_delay _) fun _ => ih _) (ih _)
      refine upkeep_bind (upkeep_ping cfg) fun answered => ?_
      cases answered with
      | ok _ => exact upkeep_pure _
      | error err =>
          refine upkeep_ite (upkeep_bind (upkeep_linkResync cfg _) fun ran => ?_) hwait
          exact upkeep_ite (ih _) hwait

theorem upkeep_checkAndRecover : Upkeep (checkAndRecover cfg) := by
  refine upkeep_bind upkeep_cooldownGate fun due => upkeep_ite ?_ (upkeep_pure _)
  refine upkeep_bind (upkeep_get _) fun recovering => upkeep_ite ?_ (upkeep_pure _)
  refine upkeep_bind (upkeep_get _) fun before => upkeep_bind (upkeep_probeFrom cfg _ _) fun alive => ?_
  refine upkeep_ite (upkeep_bind (upkeep_get _) fun attempts => ?_) (upkeep_pure _)
  exact upkeep_ite (upkeep_bind (upkeep_recover cfg) fun _ => upkeep_pure _) (upkeep_pure _)

theorem upkeep_linkCheckAndRecover : Upkeep (linkCheckAndRecover cfg) := by
  refine upkeep_ite ?_ (upkeep_pure _)
  refine upkeep_bind (upkeep_note _) fun _ => upkeep_bind (upkeep_get _) fun active => ?_
  exact upkeep_ite (upkeep_bind (upkeep_checkAndRecover cfg) fun _ => upkeep_note _) (upkeep_note _)

end Upkeep

theorem upkeep_sockBuf {ctx : Ctx} {cmd : Cmd} (reply : bridge.Reply cmd) (h : cmd.Upkeep) :
    (ctx.after cmd reply).sockBuf = ctx.sockBuf := by
  cases cmd with
  | set f v =>
      cases f with
      | sockBuf => exact absurd h (by simp [Cmd.Upkeep, Field.upkeep])
      | _ => rfl
  | stage off bytes => exact h.elim
  | claim flag => cases flag <;> rfl
  | _ => rfl

-- A property of the states that looking after the link does not lose.
def Upkept {S : Type} (env : Env bridge S) (J : S → Prop) : Prop :=
  ∀ s cmd reply s', cmd.Upkeep → env s cmd reply s' → J s → J s'

section Rules

variable {S α β : Type} {env : Env bridge S} {J : S → Prop}

theorem wp_upkeep {p : Driver α} {s : S} (hJ : Upkept env J) (hp : Upkeep p) (hs : J s) :
    wp env J p (fun _ _ => True) s :=
  wp_uses hJ hp hs

theorem wp_upkeep_bind {p : Driver α} {f : α → Driver β} {Q : β → S → Prop} {s : S} (hJ : Upkept env J)
    (hp : Upkeep p) (hs : J s) (hrest : ∀ value s', J s' → wp env J (f value) Q s') :
    wp env J (p >>= f) Q s :=
  wp_uses_bind hJ hp hs hrest

-- What looking after the link does not lose holds after it.
theorem wp_upkeep_keeps {K : S → Prop} {p : Driver α} {s : S} (hK : Upkept env K) (hKJ : ∀ s, K s → J s)
    (hp : Upkeep p) (hs : K s) : wp env J p (fun _ => K) s :=
  wp_mono (wp_relax (wp_upkeep hK hp hs) hKJ) fun _ _ _ h => h.1

theorem wp_keeping_bind {K : S → Prop} {p : Driver α} {f : α → Driver β} {Q : β → S → Prop} {s : S}
    (hK : Upkept env K) (hKJ : ∀ s, K s → J s) (hp : Upkeep p) (hs : K s)
    (hrest : ∀ value s', K s' → wp env J (f value) Q s') : wp env J (p >>= f) Q s :=
  wp_bind (wp_mono (wp_upkeep_keeps hK hKJ hp hs) fun value s' _ hs' => hrest value s' hs')

theorem wp_socketCall {K : S → Prop} {handle : UInt16} {status : α → Status} {refused : α}
    {body : Driver α} {Q : α → S → Prop} {s : S} (hK : Upkept env K) (hKJ : ∀ s, K s → J s)
    (hQ : ∀ out, Upkept env (Q out)) (hQJ : ∀ out s, Q out s → J s) (hrefused : ∀ s, K s → Q refused s)
    (hbody : ∀ s, K s → wp env J body Q s) (hs : K s) :
    wp env J (socketCall handle status refused body) Q s := by
  refine wp_keeping_bind hK hKJ (upkeep_note _) hs fun _ s hs => ?_
  refine wp_keeping_bind hK hKJ (p := handleEpochOk handle)
    (upkeep_bind (upkeep_get _) fun _ => upkeep_pure _) hs fun current s hs => ?_
  have hout : ∀ out s, Q out s → wp env J (do note (.leaveSocket (status out)); pure out) Q s :=
    fun out s h => wp_keeping_bind (hQ out) (hQJ out) (upkeep_note _) h fun _ s h => ⟨hQJ out s h, h⟩
  cases current with
  | true => exact wp_bind (wp_mono (hbody s hs) fun out s' _ h => hout out s' h)
  | false => exact hout refused s (hrefused s hs)

variable (cfg : Config) {G : List UInt8 → S → Prop}

-- The states that a wait does not lose.
abbrev Waited (env : Env bridge S) (J : S → Prop) : Prop := Preserves env Cmd.Waits J

theorem Upkept.waited {J : S → Prop} (h : Upkept env J) : Waited env J :=
  fun s cmd reply s' hcmd => h s cmd reply s' hcmd.upkeep

theorem wp_waits_after {p : Driver α} {c : Prop} {data : List UInt8} {s : S} (hJ : Waited env J)
    (hG : ∀ data, Waited env fun s => J s ∧ G data s) (hp : Waits p) (hs : J s) (hdata : c → G data s) :
    wp env J p (fun _ s' => c → G data s') s := by
  by_cases hc : c
  · have hkept := wp_relax (wp_uses (hG data) hp ⟨hs, hdata hc⟩) fun _ h => h.1
    exact wp_mono hkept fun _ _ _ h _ => h.1.2
  · exact wp_mono (wp_uses hJ hp hs) fun _ _ _ _ h => absurd h hc

theorem wp_pollExit {K : S → Prop} {s : S} (status : Status) (noStatus : Bool) (hK : Upkept env K)
    (hs : K s) :
    wp env K (pollExit cfg status noStatus) (fun out _ => out = status) s := by
  unfold pollExit
  split
  · exact wp_upkeep_bind hK (upkeep_linkCheckAndRecover cfg) hs fun _ s' hs' => ⟨hs', rfl⟩
  · exact ⟨hs, rfl⟩

section Exchange

variable {transfer : Transfer} {frame : Frame} {rxCap : Nat} {s : S}

-- An exchange whose transfers leave the bridge in `A`, from the header of the request on.
theorem wp_exchange_armed {A : S → Prop} (hJ : Waited env J) (hA : ∀ s, A s → J s)
    (hheader : ∀ s err s', J s → env s (.clock .requestHeader frame) err s' → A s')
    (hclock : ∀ s transfer err s', A s → env s (.clock transfer frame) err s' → A s')
    (hcollect : ∀ s reply s', A s → env s (.collect frame) reply s' → J s' ∧
      ∀ answer, reply = .ok answer → answer.status = .ok () → G (answer.data.take rxCap) s') (hs : J s) :
    wp env J (requestLocked frame rxCap) (fun answer s' => answer.status = .ok () → G answer.data s') s := by
  have hend : ∀ s, A s → wp env J (collect frame rxCap)
      (fun answer s' => answer.status = .ok () → G answer.data s') s := by
    refine fun s hs => ⟨hA s hs, fun reply s' he => ?_⟩
    obtain ⟨hs', hanswer⟩ := hcollect s reply s' hs he
    cases reply with
    | error err => exact ⟨hs', nofun⟩
    | ok answer => exact ⟨hs', hanswer answer rfl⟩
  have hclocked : ∀ transfer (next : Driver Answer), (∀ s, A s → wp env J next
      (fun answer s' => answer.status = .ok () → G answer.data s') s) → ∀ s, A s →
        wp env J (clock transfer frame next) (fun answer s' => answer.status = .ok () → G answer.data s') s := by
    refine fun transfer next hnext s hs => ⟨hA s hs, fun err s' he => ?_⟩
    replace hs := hclock s transfer err s' hs he
    cases err with
    | some err => exact ⟨hA s' hs, nofun⟩
    | none => exact hnext s' hs
  have hreply := hclocked .replyHeader _ hend
  refine wp_uses_bind hJ (waits_get _) hs fun major s hs => ⟨hs, fun err s' he => ?_⟩
  replace hs := hheader s err s' hs he
  cases err with
  | some err => exact ⟨hA s' hs, nofun⟩
  | none => exact wp_ite (fun _ => hclocked .requestPayload _ hreply s' hs) fun _ => hreply s' hs

-- An exchange of which no transfer loses `J`.
theorem wp_exchange (hJ : Waited env J)
    (hclock : ∀ s transfer err s', J s → env s (.clock transfer frame) err s' → J s')
    (hcollect : ∀ s reply s', J s → env s (.collect frame) reply s' → J s' ∧
      ∀ answer, reply = .ok answer → answer.status = .ok () → G (answer.data.take rxCap) s') (hs : J s) :
    wp env J (requestLocked frame rxCap) (fun answer s' => answer.status = .ok () → G answer.data s') s :=
  wp_exchange_armed hJ (fun _ h => h) (fun s => hclock s .requestHeader) hclock hcollect hs

end Exchange

theorem wp_request {cmd : Opcode} {payload : List UInt8} {rxCap : Nat} (hJ : Waited env J)
    (hG : ∀ data, Waited env fun s => J s ∧ G data s)
    (hreq : ∀ s, J s → wp env J (requestLocked ⟨cmd, payload, REQ_SEQ_NONE⟩ rxCap)
      (fun answer s' => answer.status = .ok () → G answer.data s') s) {s : S} (hs : J s) :
    wp env J (request cfg cmd payload rxCap) (fun out s' => out.1 = .ok () → G out.2 s') s := by
  refine wp_uses_bind hJ (waits_get _) hs fun ready s hs => ?_
  cases ready with
  | false => exact ⟨hs, nofun⟩
  | true =>
      refine wp_uses_bind hJ (waits_fits _) hs fun fitting s hs => ?_
      cases fitting with
      | false => exact ⟨hs, nofun⟩
      | true =>
          refine wp_uses_bind hJ (waits_lockAcquire cfg) hs fun locked s hs => ?_
          cases locked with
          | error err => exact ⟨hs, nofun⟩
          | ok _ =>
              refine wp_bind (wp_mono (hreq s hs) fun answer s hs hanswer => ?_)
              refine wp_bind (wp_mono (wp_waits_after hJ hG waits_lockRelease hs hanswer) ?_)
              exact fun _ s hs hanswer => ⟨hs, hanswer⟩

-- An exchange whose request carries a payload. `A` is what the bridge stands at once the request
-- is through.
theorem wp_requestLocked {A : S → Prop} {frame : Frame} {rxCap : Nat} (hJ : Waited env J)
    (hA : ∀ s, A s → J s) (hsome : frame.payload ≠ [])
    (hheader : ∀ s err s', J s → env s (.clock .requestHeader frame) err s' → J s')
    (hpayload : ∀ s err s', J s → env s (.clock .requestPayload frame) err s' → A s')
    (hreply : ∀ s err s', A s → env s (.clock .replyHeader frame) err s' → A s')
    (hcollect : ∀ s reply s', A s → env s (.collect frame) reply s' → J s' ∧
      ∀ answer, reply = .ok answer → answer.status = .ok () → G (answer.data.take rxCap) s')
    {s : S} (hs : J s) :
    wp env J (requestLocked frame rxCap)
      (fun answer s' => answer.status = .ok () → G answer.data s') s := by
  have hlength : 0 < frame.payload.length := List.length_pos_iff.mpr hsome
  refine wp_uses_bind hJ (waits_get _) hs fun major s hs => ⟨hs, fun err s' hclock => ?_⟩
  replace hs := hheader s err s' hs hclock
  cases err with
  | some err => exact ⟨hs, nofun⟩
  | none =>
      dsimp only
      rw [if_pos (Nat.lt_of_lt_of_le hlength (Nat.le_add_right _ _))]
      refine ⟨hs, fun err s hclock => ?_⟩
      replace hs := hpayload s' err s hs hclock
      cases err with
      | some err => exact ⟨hA s hs, nofun⟩
      | none =>
          refine ⟨hA s hs, fun err s' hclock => ?_⟩
          replace hs := hreply s err s' hs hclock
          cases err with
          | some err => exact ⟨hA s' hs, nofun⟩
          | none =>
              refine ⟨hA s' hs, fun reply s hend => ?_⟩
              obtain ⟨hs, hanswer⟩ := hcollect s' reply s hs hend
              cases reply with
              | error err => exact ⟨hs, nofun⟩
              | ok answer => exact ⟨hs, hanswer answer rfl⟩

-- A read of `sock_buf`, where the bridge leaves the buffer and itself alone.
theorem wp_staged_bind {len : Nat} {data : List UInt8} {next : List UInt8 → Driver β} {Q : β → S → Prop} {s : S}
    (hread : ∀ buf s', env s (.get .sockBuf) buf s' → s' = s ∧ buf.take len = data)
    (hnext : wp env J (next data) Q s) : wp env J (staged len >>= next) Q s := by
  refine ⟨wp_inv hnext, fun buf s' he => ?_⟩
  obtain ⟨rfl, hdata⟩ := hread buf s' he
  rw [← hdata] at hnext
  exact hnext

-- An exchange of the frame that stands in `sock_buf` goes like one of the caller's own frame, as
-- long as the bridge leaves the buffer alone.
theorem wp_exchangeStaged {cmd : Opcode} {seq : UInt8} {len rxCap : Nat} {payload : List UInt8}
    {Q : Answer → S → Prop} (hlen : payload.length = len)
    (hread : ∀ s buf s', J s → env s (.get .sockBuf) buf s' → s' = s ∧ buf.take len = payload) {s : S}
    (h : wp env J (requestLocked ⟨cmd, payload, seq⟩ rxCap) Q s) :
    wp env J (exchange cmd seq len (staged len) rxCap) Q s := by
  have hstaged : ∀ {next : List UInt8 → Driver Answer} (s : S), wp env J (next payload) Q s →
      wp env J (staged len >>= next) Q s :=
    fun s hnext => wp_staged_bind (fun buf s' he => hread s buf s' (wp_inv hnext) he) hnext
  refine ⟨wp_inv h, fun major s₁ hmajor => hstaged s₁ ?_⟩
  have hclocked := h.2 major s₁ hmajor
  refine ⟨wp_inv hclocked, fun err s₂ hheader => ?_⟩
  replace hclocked := hclocked.2 err s₂ hheader
  cases err with
  | some err => exact hclocked
  | none =>
      dsimp only at hclocked ⊢
      rw [hlen] at hclocked
      by_cases hwire : 0 < len + if PROTOCOL_MAJOR ≤ major then CRC_BYTES else 0
      · rw [if_pos hwire] at hclocked ⊢
        exact hstaged s₂ hclocked
      · rw [if_neg hwire] at hclocked ⊢
        exact hclocked

-- The end of a retry loop, which may look after the link before it returns.
def Exits (env : Env bridge S) (cfg : Config) (J : S → Prop) : Prop :=
  ∀ status noStatus s, J s → wp env J (pollExit cfg status noStatus) (fun out _ => out = status) s

theorem exits_upkept (hJ : Upkept env J) : Exits env cfg J :=
  fun status noStatus _ hs => wp_pollExit cfg status noStatus hJ hs

-- What a retry loop ends with that keeps `K` as long as no attempt returns ALP_OK. `G` is what the
-- attempt that does has made of its data.
structure Ended (G : List UInt8 → S → Prop) (K : S → Prop) (out : Status × List UInt8) (s : S) : Prop where
  ok : out.1 = .ok () → G out.2 s
  failed : out.1 ≠ .ok () → K s

-- An attempt that comes back with ALP_OK ends the loop: nothing is retried, and the link is not
-- looked after.
theorem wp_pollGood {K : S → Prop} {answer : Answer} (noStatus : Bool) (again : Driver (Status × List UInt8))
    (hG : Waited env fun s => J s ∧ G answer.data s) (hok : answer.status = .ok ()) {s : S}
    (hs : J s ∧ G answer.data s) :
    wp env J (do
      lockRelease
      if answer.terminal then
        let s ← pollExit cfg answer.status noStatus
        pure (s, answer.data)
      else if answer.status ≠ .error .busy ∧ answer.status ≠ .error .io then
        if answer.status = .ok () ∧ 0 < cfg.postSuccessGuardMs then
          delay cfg.postSuccessGuardMs
        let s ← pollExit cfg answer.status noStatus
        pure (s, answer.data)
      else again) (Ended G K) s := by
  have hwait {α : Type} {p : Driver α} (hp : Waits p) (s : S) (h : J s ∧ G answer.data s) :
      wp env J p (fun _ s' => G answer.data s') s :=
    wp_mono (wp_relax (wp_uses hG hp h) fun _ h => h.1) fun _ _ _ h => h.1.2
  have hdone : ∀ s : S, J s → G answer.data s → wp env J (do
      let s ← pollExit cfg answer.status noStatus
      pure (s, answer.data)) (Ended G K) s := by
    intro s hs hdata
    have hexit : pollExit cfg answer.status noStatus = pure (.ok ()) := by simp [pollExit, hok]
    rw [hexit]
    exact ⟨hs, fun _ => hdata, fun h => absurd rfl h⟩
  have hterminal : answer.terminal = false := by simp [Answer.terminal, hok]
  have hfinal : answer.status ≠ .error .busy ∧ answer.status ≠ .error .io := by simp [hok]
  refine wp_bind (wp_mono (hwait waits_lockRelease s hs) fun _ s hJs hdata => ?_)
  simp only [hterminal, Bool.false_eq_true, if_false]
  rw [if_pos hfinal]
  by_cases hguard : answer.status = .ok () ∧ 0 < cfg.postSuccessGuardMs
  · rw [if_pos hguard]
    have hdelay := hwait (waits_delay cfg.postSuccessGuardMs) s ⟨hJs, hdata⟩
    exact wp_bind (wp_mono hdelay fun _ s hJs hdata => hdone s hJs hdata)
  · rw [if_neg hguard]
    exact hdone s hJs hdata

section Attempts

variable {K : S → Prop} (hK : Waited env K) (hKJ : ∀ s, K s → J s) (hend : Exits env cfg K)

include hKJ hend

theorem wp_pollFailed {status : Status} {data : List UInt8} (noStatus : Bool) {s : S}
    (hfailed : status ≠ .ok ()) (hs : K s) :
    wp env J (do let s ← pollExit cfg status noStatus; pure (s, data)) (Ended G K) s := by
  refine wp_bind (wp_mono (wp_relax (hend status noStatus s hs) hKJ) ?_)
  rintro _ s' hs' ⟨hK, rfl⟩
  exact ⟨hs', fun hok => absurd hok hfailed, fun _ => hK⟩

include hK

-- One attempt after another.
theorem wp_pollLoop {attempt : Driver Answer} (hG : ∀ data, Waited env fun s => J s ∧ G data s)
    (hreq : ∀ s, K s → wp env J attempt (fun answer s' => Ended G K (answer.status, answer.data) s') s)
    (deadlineMs : UInt64) (handle : Option UInt16) (fuel gap : Nat) (decoded first : Bool)
    (data : List UInt8) {s : S} (hs : K s) :
    wp env J (pollLoop cfg attempt deadlineMs handle fuel gap decoded first data) (Ended G K) s := by
  have hwait {α : Type} {p : Driver α} (hp : Waits p) (s : S) (hs : K s) : wp env J p (fun _ s' => K s') s :=
    wp_mono (wp_relax (wp_uses hK hp hs) hKJ) fun _ _ _ h => h.1
  induction fuel generalizing gap decoded first data s with
  | zero =>
      refine wp_bind (wp_mono (hwait (p := perform Cmd.stall) ⟨trivial, fun _ => trivial⟩ s hs) ?_)
      exact fun reply : Empty => reply.elim
  | succ fuel ih =>
      have hagain : ∀ (decoded : Bool) (data : List UInt8) (s : S), K s →
          wp env J (do
            if ← pollWait deadlineMs gap then
              pollLoop cfg attempt deadlineMs handle fuel (nextGap gap) decoded false data
            else
              let s ← pollExit cfg (.error .timeout) !decoded
              pure (s, data)) (Ended G K) s := by
        intro decoded data s hs
        refine wp_bind (wp_mono (hwait (waits_pollWait _ _) s hs) fun goOn s _ hs => ?_)
        cases goOn with
        | true => exact ih _ _ _ _ hs
        | false => exact wp_pollFailed cfg hKJ hend _ nofun hs
      refine wp_bind (wp_mono (hwait (waits_lockAcquire cfg) s hs) fun locked s hJs hs => ?_)
      cases locked with
      | error err =>
          cases first with
          | true => exact ⟨hJs, nofun, fun _ => hs⟩
          | false => exact hagain decoded data s hs
      | ok _ =>
          refine wp_bind (wp_mono (hwait (waits_handleCurrent handle) s hs) fun current s _ hs => ?_)
          cases current with
          | false =>
              refine wp_bind (wp_mono (hwait waits_lockRelease s hs) fun _ s hJs hs => ?_)
              exact ⟨hJs, nofun, fun _ => hs⟩
          | true =>
              refine wp_bind (wp_mono (hreq s hs) fun answer s hJs hanswer => ?_)
              by_cases hok : answer.status = .ok ()
              · exact wp_pollGood cfg _ _ (hG _) hok ⟨hJs, hanswer.ok hok⟩
              · refine wp_bind (wp_mono (hwait waits_lockRelease s (hanswer.failed hok)) fun _ s _ hs => ?_)
                by_cases hterminal : answer.terminal = true
                · simp only [hterminal, if_true]
                  exact wp_pollFailed cfg hKJ hend _ hok hs
                have hguard : ¬ (answer.status = .ok () ∧ 0 < cfg.postSuccessGuardMs) := fun h => hok h.1
                simp only [hterminal]
                by_cases hfinal : answer.status ≠ .error .busy ∧ answer.status ≠ .error .io
                · rw [if_pos hfinal, if_neg hguard]
                  exact wp_pollFailed cfg hKJ hend _ hok hs
                · rw [if_neg hfinal]
                  exact hagain _ answer.data s hs

theorem wp_pollAttempts {attempt : Driver Answer} (hG : ∀ data, Waited env fun s => J s ∧ G data s)
    (hreq : ∀ s, K s → wp env J attempt (fun answer s' => Ended G K (answer.status, answer.data) s') s)
    (len : Nat) (timeoutMs : UInt32) (handle : Option UInt16) {s : S} (hs : K s) :
    wp env J (pollAttempts cfg len attempt timeoutMs handle) (Ended G K) s := by
  have hwait {α : Type} {p : Driver α} (hp : Waits p) (s : S) (hs : K s) : wp env J p (fun _ s' => K s') s :=
    wp_mono (wp_relax (wp_uses hK hp hs) hKJ) fun _ _ _ h => h.1
  refine wp_bind (wp_mono (hwait (waits_get _) s hs) fun ready s hJs hs => ?_)
  cases ready with
  | false => exact ⟨hJs, nofun, fun _ => hs⟩
  | true =>
      refine wp_bind (wp_mono (hwait (waits_fits len) s hs) fun fitting s hJs hs => ?_)
      cases fitting with
      | false => exact ⟨hJs, nofun, fun _ => hs⟩
      | true =>
          refine wp_bind (wp_mono (hwait waits_uptime s hs) fun now s _ hs => ?_)
          exact wp_pollLoop cfg hK hKJ hend hG hreq _ handle _ _ _ _ _ hs

omit hend in
-- An exchange that keeps `K` unless its reply is accepted.
theorem wp_exchangeEnded {frame : Frame} {rxCap : Nat}
    (hclock : ∀ s transfer err s', K s → env s (.clock transfer frame) err s' → K s')
    (hcollect : ∀ s reply s', K s → env s (.collect frame) reply s' → J s' ∧ match reply with
      | .error _ => K s'
      | .ok answer => Ended G K (answer.status, answer.data.take rxCap) s') {s : S} (hs : K s) :
    wp env J (requestLocked frame rxCap) (fun answer s' => Ended G K (answer.status, answer.data) s') s := by
  have hlost (err : AlpError) (s : S) (hs : K s) :
      wp env J (pure (.undecoded err) : Driver Answer)
        (fun answer s' => Ended G K (answer.status, answer.data) s') s :=
    ⟨hKJ s hs, nofun, fun _ => hs⟩
  have hlast (s : S) (hs : K s) : wp env J (collect frame rxCap)
      (fun answer s' => Ended G K (answer.status, answer.data) s') s := by
    refine ⟨hKJ s hs, fun reply s' he => ?_⟩
    obtain ⟨hs', hended⟩ := hcollect s reply s' hs he
    cases reply with
    | error err => exact hlost err s' hended
    | ok answer => exact ⟨hs', hended⟩
  have hclocked (transfer : Transfer) (next : Driver Answer)
      (hnext : ∀ s, K s → wp env J next (fun answer s' => Ended G K (answer.status, answer.data) s') s) (s : S)
      (hs : K s) :
      wp env J (clock transfer frame next) (fun answer s' => Ended G K (answer.status, answer.data) s') s := by
    refine ⟨hKJ s hs, fun err s' he => ?_⟩
    replace hs := hclock s transfer err s' hs he
    cases err with
    | some err => exact hlost err s' hs
    | none => exact hnext s' hs
  have hreply := hclocked .replyHeader _ hlast
  refine ⟨hKJ s hs, fun major s' he => ?_⟩
  replace hs := hK s (.get .fwProtoMajor) major s' trivial he hs
  exact hclocked .requestHeader _
    (fun s hs => wp_ite (fun _ => hclocked .requestPayload _ hreply s hs) fun _ => hreply s hs) s' hs

end Attempts

theorem wp_pollByRepeatSeq {frame : Frame} {rxCap : Nat} (hJ : Waited env J)
    (hG : ∀ data, Waited env fun s => J s ∧ G data s) (hend : Exits env cfg J)
    (hreq : ∀ s, J s → wp env J (requestLocked frame rxCap)
      (fun answer s' => answer.status = .ok () → G answer.data s') s)
    (timeoutMs : UInt32) (handle : Option UInt16) {s : S} (hs : J s) :
    wp env J (pollByRepeatSeq cfg frame rxCap timeoutMs handle)
      (fun out s' => out.1 = .ok () → G out.2 s') s := by
  have hattempt (s : S) (hs : J s) : wp env J (requestLocked frame rxCap)
      (fun answer s' => Ended G J (answer.status, answer.data) s') s :=
    wp_mono (hreq s hs) fun _ _ hs' hanswer => ⟨hanswer, fun _ => hs'⟩
  exact wp_mono (wp_pollAttempts cfg hJ (fun _ h => h) hend hG hattempt _ timeoutMs handle hs)
    fun _ _ _ h => h.ok

theorem wp_nextReqSeq (hJ : Waited env J) (hseq : ∀ s v s', J s → env s (.set .reqSeq v) () s' → J s') {s : S}
    (hs : J s) : wp env J nextReqSeq (fun _ _ => True) s := by
  refine wp_uses_bind hJ (waits_get _) hs fun ready s hs => ?_
  cases ready with
  | false => exact ⟨hs, trivial⟩
  | true =>
      refine wp_uses_bind hJ (waits_get _) hs fun seq s hs => ⟨hs, fun _ s' he => ?_⟩
      exact wp_uses hJ (waits_get _) (hseq s _ s' hs he)

-- A retry loop that keeps `K` unless it returns ALP_OK.
theorem wp_pollByRepeatEnded {K : S → Prop} {cmd : Opcode} {payload : List UInt8} {rxCap : Nat}
    (hK : Waited env K) (hKJ : ∀ s, K s → J s) (hG : ∀ data, Waited env fun s => J s ∧ G data s)
    (hend : Exits env cfg K) (hseq : ∀ s v s', K s → env s (.set .reqSeq v) () s' → K s')
    (hreq : ∀ seq s, K s → wp env J (requestLocked ⟨cmd, payload, seq⟩ rxCap)
      (fun answer s' => Ended G K (answer.status, answer.data) s') s)
    (timeoutMs : UInt32) {s : S} (hs : K s) :
    wp env J (pollByRepeat cfg cmd payload rxCap timeoutMs) (Ended G K) s := by
  refine wp_bind (wp_mono (wp_relax (wp_nextReqSeq hK hseq hs) hKJ) ?_)
  rintro seq s - ⟨hs, -⟩
  exact wp_pollAttempts cfg hK hKJ hend hG (hreq seq) _ timeoutMs none hs

theorem wp_pollByRepeat {cmd : Opcode} {payload : List UInt8} {rxCap : Nat} (hJ : Waited env J)
    (hG : ∀ data, Waited env fun s => J s ∧ G data s) (hend : Exits env cfg J)
    (hseq : ∀ s v s', J s → env s (.set .reqSeq v) () s' → J s')
    (hreq : ∀ seq s, J s → wp env J (requestLocked ⟨cmd, payload, seq⟩ rxCap)
      (fun answer s' => answer.status = .ok () → G answer.data s') s)
    (timeoutMs : UInt32) {s : S} (hs : J s) :
    wp env J (pollByRepeat cfg cmd payload rxCap timeoutMs)
      (fun out s' => out.1 = .ok () → G out.2 s') s := by
  refine wp_bind (wp_mono (wp_nextReqSeq hJ hseq hs) fun seq s hs _ => ?_)
  exact wp_pollByRepeatSeq cfg hJ hG hend (hreq seq) timeoutMs none hs

end Rules

section Hosted

variable {D : Type} {peer : Env bridge D} {env : Env bridge (Link D)} {J : Link D → Prop}

-- The commands that only look.
def Cmd.Looks : Cmd → Prop
  | .get _ | .note _ => True
  | _ => False

-- Nobody looks after the link in an update session.
theorem wp_pollExit_hosted (hsub : ∀ s cmd reply s', env s cmd reply s' → alone peer s cmd reply s')
    (cfg : Config) (hsession : ∀ s, J s → s.ctx.otaSessionActive = true)
    (hJ : Preserves env Cmd.Looks J) (status : Status) (noStatus : Bool) {s : Link D} (hs : J s) :
    wp env J (pollExit cfg status noStatus) (fun out _ => out = status) s := by
  have hcheck : ∀ s, J s → wp env J (linkCheckAndRecover cfg) (fun _ _ => True) s := by
    intro s hs
    unfold linkCheckAndRecover
    split
    · refine wp_uses_bind hJ (p := note .enterCheck) ⟨trivial, fun _ => trivial⟩ hs fun _ s hs => ?_
      refine ⟨hs, fun active s' he => ?_⟩
      obtain rfl : active = s.ctx.otaSessionActive := (hsub _ _ _ _ he).1
      rw [hsession s hs]
      have hs' := hJ s (.get .otaSessionActive) _ s' trivial he hs
      exact wp_uses hJ (p := note .leaveCheck) ⟨trivial, fun _ => trivial⟩ hs'
    · exact ⟨hs, trivial⟩
  unfold pollExit
  split
  · exact wp_bind (wp_mono (hcheck s hs) fun _ s' hs' _ => ⟨hs', rfl⟩)
  · exact ⟨hs, rfl⟩

theorem exits_hosted (hsub : ∀ s cmd reply s', env s cmd reply s' → alone peer s cmd reply s') (cfg : Config)
    (hsession : ∀ s, J s → s.ctx.otaSessionActive = true) (hJ : Preserves env Cmd.Looks J) : Exits env cfg J :=
  fun status noStatus _ hs => wp_pollExit_hosted hsub cfg hsession hJ status noStatus hs

end Hosted

section Flags

variable {D : Type} {peer : Env bridge D} {s s' : Link D} {cmd : Cmd} {reply : bridge.Reply cmd}

-- The commands that may change a field of the context.
def Cmd.Touches (f : Field) : Cmd → Prop
  | .set g _ => g = f
  | .stage _ _ => f = .sockBuf
  | .claim .requestLock => f = .requestLock
  | .claim .recovering | .releaseRecover _ => f = .recovering
  | _ => False

theorem get_set (ctx : Ctx) {f g : Field} (v : g.Val) (h : g ≠ f) : (ctx.set g v).get f = ctx.get f := by
  cases g <;> cases f <;> first | rfl | exact absurd rfl h

theorem get_after (ctx : Ctx) {f : Field} (reply : bridge.Reply cmd) (h : ¬ cmd.Touches f) :
    (ctx.after cmd reply).get f = ctx.get f := by
  cases cmd with
  | set g v => exact get_set ctx v h
  | stage off bytes => cases f <;> first | rfl | exact absurd rfl h
  | claim flag =>
      cases flag with
      | requestLock => cases f <;> first | rfl | exact absurd rfl h
      | recovering => cases f <;> first | rfl | exact absurd rfl h
  | releaseRecover s => cases f <;> first | rfl | exact absurd rfl h
  | _ => rfl

theorem flag_step {f : Field} (he : alone peer s cmd reply s') (h : ¬ cmd.Touches f) :
    s'.ctx.get f = s.ctx.get f := by
  rw [he.2.1]
  exact get_after s.ctx reply h

end Flags

end AlpSdk.Cc3501e
