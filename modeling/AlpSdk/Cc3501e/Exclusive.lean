import AlpSdk.Cc3501e.Discipline

-- Threads that make requests and recover the link.
namespace AlpSdk.Cc3501e

open Library.Effect Library.Interleave

inductive RequestCall (cfg : Config) : Driver Unit → Prop where
  | request (cmd : Opcode) (payload : List UInt8) (rxCap : Nat) :
      RequestCall cfg (do let _ ← request cfg cmd payload rxCap)
  | poll (frame : Frame) (rxCap : Nat) (timeoutMs : UInt32) (handle : Option UInt16) :
      RequestCall cfg (do let _ ← pollByRepeatSeq cfg frame rxCap timeoutMs handle)
  | recover : RequestCall cfg (do let _ ← recover cfg)

-- The view of a thread between two calls.
structure View.Rest (v : View) : Prop where
  holds : v.holds = false
  stage : v.stage = .out
  fresh : v.fresh = false
  checking : v.checking = false
  socket : v.socket = none
  staged : v.staged = none

theorem View.Rest.free {v : View} {raw : Bool} (h : v.Rest) : v.Free raw := by
  refine ⟨h.holds, h.stage, h.fresh, .inr fun call hcall => ?_⟩
  rw [h.socket] at hcall
  cases hcall

theorem View.Rest.settles {v v' : View} (h : v.Rest) (hsettles : v.Settles v') : v'.Rest := by
  obtain ⟨gate, stamp, flag, rfl⟩ := hsettles
  exact ⟨h.holds, h.stage, h.fresh, h.checking, h.socket, h.staged⟩

theorem requestCall_keeping {cfg : Config} {p : Driver Unit} (h : RequestCall cfg p) {v : View}
    (hrest : v.Rest) : Keeping true p (fun _ v' => v'.Rest) v := by
  cases h with
  | request cmd payload rxCap =>
      refine follows_seq (keeping_request cfg hrest.free (.inr rfl) payload rxCap) ?_
      rintro _ _ rfl
      exact hrest
  | poll frame rxCap timeoutMs handle =>
      have hready : Ready true v frame handle := by
        cases handle with
        | none => exact .inr rfl
        | some handle => exact .inl ⟨rfl, hrest.socket⟩
      refine follows_seq (keeping_pollByRepeatSeq cfg rxCap timeoutMs hrest.free hrest.checking hready) ?_
      exact fun _ v' hsettles => hrest.settles hsettles
  | recover =>
      refine follows_seq (keeping_recover cfg hrest.free ?_) ?_
      · simp [hrest.checking]
      · exact fun _ v' hsettles => hrest.settles hsettles

section Tracking

variable {T : Type} [DecidableEq T] {host : T → Bool} {raw : Bool} {t : T} {s s' : Shared T} {cmd : Cmd}
  {reply : bridge.Reply cmd}

theorem env_view_own (henv : env t s cmd reply s') : s'.view host t = (s.view host t).next cmd reply := by
  simp [Shared.view, henv.2.2.2, viewOf]

theorem env_view_other (henv : env t s cmd reply s') {u : T} (hne : u ≠ t) :
    s'.view host u = s.view host u := by
  simp [Shared.view, henv.2.2.2, viewOf, hne.symm]

theorem tracks_env : Tracks env (discipline raw) (Shared.view (T := T) host) where
  own henv := env_view_own henv
  other henv hne := env_view_other henv hne

theorem fresh_view (h : s.Fresh) (t : T) : s.view host t = .start (host t) := by
  simp [Shared.view, h.history, viewOf]

theorem started_keeps {Inv : Shared T → Prop} {w : Pool bridge (Shared T) T} (h : Started w)
    (hinv : Inv w.mem) : Keeps (discipline raw) (Shared.view host) View.Rest Inv w := by
  refine ⟨hinv, fun t => ?_⟩
  rw [h.idle t, fresh_view h.mem]
  exact ⟨rfl, rfl, rfl, rfl, rfl, rfl⟩

end Tracking

section Lock

variable {T : Type} [DecidableEq T] {host : T → Bool} {raw : Bool} {t : T} {s s' : Shared T} {cmd : Cmd}
  {reply : bridge.Reply cmd}

def Shared.Locks (host : T → Bool) (s : Shared T) : Prop :=
  Guards s.ctx.requestLock fun t => (s.view host t).holds

def Shared.Owned (host : T → Bool) (s : Shared T) : Prop :=
  Guards s.ctx.recovering fun t => (s.view host t).stage.owns

-- Only a CAS on the lock and the release by its holder change who holds it.
theorem locks_step (hlocks : s.Locks host) (hallow : (s.view host t).Allows raw cmd)
    (henv : env t s cmd reply s') : s'.Locks host := by
  have hown : (s'.view host t).holds = (s.view host t).holdsNext cmd reply :=
    congrArg View.holds (env_view_own henv)
  have hother : ∀ u, u ≠ t → (s'.view host u).holds = (s.view host u).holds :=
    fun u hu => congrArg View.holds (env_view_other henv hu)
  have hsame : (s'.view host t).holds = (s.view host t).holds → ∀ u,
      (s'.view host u).holds = (s.view host u).holds := by
    intro ht u
    by_cases hu : u = t
    · rw [hu, ht]
    · exact hother u hu
  obtain ⟨hanswer, -, hctx, -⟩ := henv
  unfold Shared.Locks
  rw [hctx]
  cases cmd with
  | claim flag =>
      cases flag with
      | requestLock => exact hlocks.claim hanswer hown hother
      | recovering => exact hlocks.same (hsame hown)
  | set f value =>
      cases f with
      | requestLock =>
          obtain ⟨rfl, hholds, -⟩ := hallow
          exact hlocks.release hholds hown hother
      | _ => exact hlocks.same (hsame hown)
  | _ => exact hlocks.same (hsame hown)

end Lock

section Owner

namespace Stage

variable {stage : Stage}

theorem owns_of_reset (h : stage.reset = true) : stage.owns = true := by
  cases stage with
  | out | entered | checked | owner => cases h
  | _ => rfl

theorem past_of_reset (h : stage.reset = true) : stage.past = true := by
  cases stage with
  | out | entered | checked | owner => cases h
  | _ => rfl

theorem reset_of_confirming (h : stage.confirming = true) : stage.reset = true := by
  cases stage with
  | pulsed | versioning => rfl
  | _ => cases h

theorem unsettled_of_confirming (h : stage.confirming = true) : stage.unsettled = true := by
  cases stage with
  | pulsed | versioning => rfl
  | _ => cases h

-- What an exchange makes of a reset that it confirms.
theorem undecoded_cases (h : stage.confirming = true) :
    stage.undecoded = .passed ∨ stage.undecoded = .finished false := by
  cases stage with
  | pulsed => exact .inr rfl
  | versioning => exact .inl rfl
  | _ => cases h

theorem versioned_cases (answer : Answer) :
    versioned answer = .passed ∨ versioned answer = .finished false := by
  unfold versioned
  split
  · exact .inl rfl
  · split
    · exact .inl rfl
    · exact .inr rfl

theorem decoded_cases (answer : Answer) (h : stage.confirming = true) :
    stage.decoded answer = .versioning ∨ stage.decoded answer = .passed ∨
      stage.decoded answer = .finished false := by
  cases stage with
  | pulsed =>
      simp only [decoded]
      split
      · exact .inl rfl
      · exact .inr (.inr rfl)
  | versioning => exact .inr (versioned_cases answer)
  | _ => cases h

theorem reset_undecoded (h : stage.confirming = true) : stage.undecoded.reset = true := by
  rcases undecoded_cases h with hstage | hstage
  · rw [hstage]
    rfl
  · rw [hstage]
    rfl

theorem reset_decoded (answer : Answer) (h : stage.confirming = true) :
    (stage.decoded answer).reset = true := by
  rcases decoded_cases answer h with hstage | hstage | hstage
  all_goals
    rw [hstage]
    rfl

end Stage

variable {T : Type} [DecidableEq T] {host : T → Bool} {raw : Bool} {t : T} {s s' : Shared T} {cmd : Cmd}
  {reply : bridge.Reply cmd}

-- Only a CAS on `recovering` and the release by its owner change who owns the recovery.
def Cmd.transfersRecovery : Cmd → Bool
  | .claim .recovering | .releaseRecover _ => true
  | _ => false

theorem owns_next {v : View} (hallow : v.Allows raw cmd) (hcmd : cmd.transfersRecovery = false) :
    (v.stage.next cmd reply).owns = v.stage.owns := by
  have hmove := Stage.move v.stage cmd reply
  generalize v.stage.next cmd reply = stage' at hmove
  generalize hstage : v.stage = stage at hmove
  cases hmove with
  | enter =>
      rw [← hstage, hallow.1]
      rfl
  | leave s => rw [← hstage, hallow.1]; rfl
  | lost transfer frame err hconfirming | dropped frame err hconfirming =>
      rw [Stage.owns_of_reset (Stage.reset_of_confirming hconfirming),
        Stage.owns_of_reset (Stage.reset_undecoded hconfirming)]
  | answered frame answer hconfirming =>
      rw [Stage.owns_of_reset (Stage.reset_of_confirming hconfirming),
        Stage.owns_of_reset (Stage.reset_decoded answer hconfirming)]
  | win | lose | release => cases hcmd
  | _ => rfl

theorem owned_step (howned : s.Owned host) (hallow : (s.view host t).Allows raw cmd)
    (henv : env t s cmd reply s') : s'.Owned host := by
  have hown : (s'.view host t).stage = (s.view host t).stage.next cmd reply :=
    congrArg View.stage (env_view_own henv)
  have hother : ∀ u, u ≠ t → (s'.view host u).stage.owns = (s.view host u).stage.owns :=
    fun u hu => congrArg (fun v => v.stage.owns) (env_view_other henv hu)
  have hsame : cmd.transfersRecovery = false → ∀ u,
      (s'.view host u).stage.owns = (s.view host u).stage.owns := by
    intro hcmd u
    by_cases hu : u = t
    · rw [hu, hown, owns_next hallow hcmd]
    · exact hother u hu
  obtain ⟨hanswer, -, hctx, -⟩ := henv
  unfold Shared.Owned
  rw [hctx]
  cases cmd with
  | claim flag =>
      cases flag with
      | requestLock => exact howned.same (hsame rfl)
      | recovering =>
          refine howned.claim hanswer ?_ hother
          obtain ⟨hstage, -⟩ := hallow
          cases reply <;> simp [hown, hstage, Stage.claimed, Stage.owns]
  | set f value =>
      cases f with
      | recovering => exact hallow.elim
      | _ => exact howned.same (hsame rfl)
  | releaseRecover status =>
      refine howned.release ?_ (by simp [hown, Stage.owns]) hother
      rcases hallow.2 with h | h | h
      all_goals simp [h.1, Stage.owns]
  | _ => exact howned.same (hsame rfl)

end Owner

section Silence

variable {raw : Bool} {cmd : Cmd} {reply : bridge.Reply cmd} {v : View}

-- From the pulse until the reset is over the thread holds the lock.
def View.Silent (v : View) : Prop := v.stage.unsettled = true → v.holds = true

theorem unsettled_next (h : (v.stage.next cmd reply).unsettled = true) :
    v.stage.unsettled = true ∨ (v.stage = .owner ∧ cmd = .write .reset false) := by
  have hmove := Stage.move v.stage cmd reply
  generalize v.stage.next cmd reply = stage' at hmove h
  generalize v.stage = stage at hmove
  cases hmove with
  | stay => exact .inl h
  | pulse => exact .inr ⟨rfl, rfl⟩
  | lost transfer frame err hconfirming | dropped frame err hconfirming =>
      exact .inl (Stage.unsettled_of_confirming hconfirming)
  | answered frame answer hconfirming => exact .inl (Stage.unsettled_of_confirming hconfirming)
  | epoch epoch => exact .inl rfl
  | _ => cases h

theorem silent_next (hsilent : v.Silent) (hallow : v.Allows raw cmd) : (v.next cmd reply).Silent := by
  intro h
  show v.holdsNext cmd reply = true
  have hholds : v.holds = true := by
    rcases unsettled_next h with hbefore | ⟨hstage, rfl⟩
    · exact hsilent hbefore
    · rcases hallow with ⟨hholds, -⟩ | ⟨hout, -⟩
      · exact hholds
      · simp [hstage] at hout
  cases cmd with
  | claim flag =>
      cases flag with
      | requestLock => simp [hholds]
      | recovering => exact hholds
  | set f value =>
      cases f with
      | requestLock =>
          -- the lock is not released before the reset is over
          obtain ⟨rfl, -, hstage⟩ := hallow
          have hunsettled : v.stage.unsettled = true := h
          rcases hstage with hstage | ⟨ok, hstage⟩
          · simp [hstage, Stage.unsettled] at hunsettled
          · simp [hstage, Stage.unsettled] at hunsettled
      | _ => exact hholds
  | _ => exact hholds

end Silence

section Counters

-- The pulses that the bookkeeping has not counted yet, and the recoveries that it has counted
-- and that have not returned.
def Stage.owed : Stage → Nat
  | .pulsed | .versioning | .passed | .bumping _ | .finished _ | .stamped _ | .counting _ _ => 1
  | _ => 0

def Stage.ahead : Stage → Nat
  | .credited => 1
  | _ => 0

-- Recoveries that return ALP_OK.
def Cmd.confirms : Cmd → Bool
  | .releaseRecover (.ok ()) => true
  | _ => false

def confirmed {T : Type} (history : List (Event T)) : Nat := history.countP fun e => e.cmd.confirms

structure Counts (stage : Stage) (ctx : Ctx) (pulses confirmed : Nat) : Prop where
  attempts : ctx.recoverAttemptCount + UInt32.ofNat stage.owed = UInt32.ofNat pulses
  counting : ∀ ok n, stage = .counting ok n → n = ctx.recoverAttemptCount
  count : ctx.recoverCount = UInt32.ofNat (confirmed + stage.ahead)
  crediting : ∀ n, stage = .crediting n → n = ctx.recoverCount

namespace Stage

-- A move that the counters have no part in.
structure Level (stage stage' : Stage) : Prop where
  owed : stage'.owed = stage.owed
  ahead : stage'.ahead = stage.ahead
  counting : ∀ ok n, stage' = .counting ok n → stage = .counting ok n
  crediting : ∀ n, stage' = .crediting n → stage = .crediting n

variable (stage : Stage)

theorem level_refl : stage.Level stage := ⟨rfl, rfl, fun _ _ h => h, fun _ h => h⟩

theorem level_session (value : Bool) (howns : stage.owns = true) :
    stage.Level (stage.read .otaSessionActive value) := by
  simp only [read]
  split
  · simp_all [owns]
  · exact stage.level_refl

theorem level_epoch (value : UInt8) : stage.Level (stage.read .linkEpoch value) := by
  simp only [read]
  split
  · rename_i hstage
    subst hstage
    exact ⟨rfl, rfl, nofun, nofun⟩
  · exact stage.level_refl

theorem level_bumped : stage.Level (stage.wrote .linkEpoch) := by
  cases stage with
  | bumping epoch => exact ⟨rfl, rfl, nofun, nofun⟩
  | _ => exact level_refl _

theorem level_stamped : stage.Level (stage.wrote .lastRecoverMs) := by
  cases stage with
  | finished ok => exact ⟨rfl, rfl, nofun, nofun⟩
  | _ => exact level_refl _

theorem level_undecoded : stage.Level stage.undecoded := by
  cases stage with
  | pulsed | versioning => exact ⟨rfl, rfl, nofun, nofun⟩
  | _ => exact level_refl _

theorem level_versioned (answer : Answer) : versioning.Level (versioned answer) := by
  unfold versioned
  split
  · exact ⟨rfl, rfl, nofun, nofun⟩
  · split
    · exact ⟨rfl, rfl, nofun, nofun⟩
    · exact ⟨rfl, rfl, nofun, nofun⟩

theorem level_decoded (answer : Answer) : stage.Level (stage.decoded answer) := by
  cases stage with
  | pulsed =>
      simp only [decoded]
      split
      · exact ⟨rfl, rfl, by rintro _ _ ⟨⟩, by rintro _ ⟨⟩⟩
      · exact ⟨rfl, rfl, by rintro _ _ ⟨⟩, by rintro _ ⟨⟩⟩
  | versioning => exact level_versioned answer
  | _ => exact level_refl _

end Stage

variable {T : Type} {raw : Bool} {cmd : Cmd} {reply : bridge.Reply cmd} {v : View} {s : Shared T} {n m : Nat}

theorem Counts.level {stage stage' : Stage} {ctx ctx' : Ctx} (h : Counts stage ctx n m)
    (hlevel : stage.Level stage') (hattempts : ctx'.recoverAttemptCount = ctx.recoverAttemptCount)
    (hcount : ctx'.recoverCount = ctx.recoverCount) : Counts stage' ctx' n m := by
  refine ⟨?_, fun ok k hk => ?_, ?_, fun k hk => ?_⟩
  · rw [hattempts, hlevel.owed, h.attempts]
  · rw [hattempts, h.counting ok k (hlevel.counting ok k hk)]
  · rw [hcount, hlevel.ahead, h.count]
  · rw [hcount, h.crediting k (hlevel.crediting k hk)]

theorem Counts.same {stage : Stage} {ctx ctx' : Ctx} (h : Counts stage ctx n m)
    (hattempts : ctx'.recoverAttemptCount = ctx.recoverAttemptCount)
    (hcount : ctx'.recoverCount = ctx.recoverCount) : Counts stage ctx' n m :=
  h.level stage.level_refl hattempts hcount

theorem Counts.pulsed {ctx : Ctx} (h : Counts .owner ctx n m) : Counts .pulsed ctx (n + 1) m := by
  refine ⟨?_, nofun, h.count, nofun⟩
  have hattempts : ctx.recoverAttemptCount = UInt32.ofNat n := by
    simpa [Stage.owed] using h.attempts
  simp [Stage.owed, hattempts]

theorem Counts.readAttempts {stage : Stage} {ctx : Ctx} {k : UInt32} (h : Counts stage ctx n m)
    (hk : k = ctx.recoverAttemptCount) : Counts (stage.read .recoverAttemptCount k) ctx n m := by
  cases stage with
  | stamped ok =>
      refine ⟨h.attempts, fun ok' k' hk' => ?_, h.count, nofun⟩
      cases hk'
      exact hk
  | _ => exact h

theorem Counts.wroteAttempts {ok : Bool} {k : UInt32} {ctx : Ctx} (h : Counts (.counting ok k) ctx n m) :
    Counts (.counted ok) { ctx with recoverAttemptCount := k + 1 } n m := by
  obtain rfl := h.counting ok k rfl
  exact ⟨by simpa [Stage.owed] using h.attempts, nofun, h.count, nofun⟩

theorem Counts.readCount {stage : Stage} {ctx : Ctx} {k : UInt32} (h : Counts stage ctx n m)
    (hk : k = ctx.recoverCount) : Counts (stage.read .recoverCount k) ctx n m := by
  simp only [Stage.read]
  split
  · rename_i hstage
    subst hstage
    refine ⟨h.attempts, nofun, h.count, fun k' hk' => ?_⟩
    cases hk'
    exact hk
  · exact h

theorem Counts.wroteCount {k : UInt32} {ctx : Ctx} (h : Counts (.crediting k) ctx n m) :
    Counts .credited { ctx with recoverCount := k + 1 } n m := by
  obtain rfl := h.crediting k rfl
  refine ⟨h.attempts, nofun, ?_, nofun⟩
  have hcount := h.count
  simp only [Stage.ahead, Nat.add_zero] at hcount
  simp [Stage.ahead, hcount]

-- The end of an attempt that has failed.
theorem Counts.left {stage : Stage} {status : Status} {ctx : Ctx} (h : Counts stage ctx n m)
    (hstatus : status ≠ .ok ()) (howed : stage.owed = 0) (hahead : stage.ahead = 0) :
    Counts .out { ctx with recovering := false } n
      (m + if Cmd.confirms (.releaseRecover status) then 1 else 0) := by
  have hfailed : Cmd.confirms (.releaseRecover status) = false := by
    match status with
    | .ok () => exact absurd rfl hstatus
    | .error err => rfl
  have hattempts := h.attempts
  have hcount := h.count
  rw [howed] at hattempts
  rw [hahead] at hcount
  rw [hfailed]
  exact ⟨hattempts, nofun, hcount, nofun⟩

-- One step of the thread that owns the recovery.
theorem counts_next (hcounts : Counts v.stage s.ctx n m) (howns : v.stage.owns = true)
    (hallow : v.Allows raw cmd) (hanswer : Answers s cmd reply) :
    Counts (v.stage.next cmd reply) (s.ctx.after cmd reply) (n + if cmd.lowersReset then 1 else 0)
      (m + if cmd.confirms then 1 else 0) := by
  cases cmd with
  | get f =>
      cases f with
      | otaSessionActive => exact hcounts.level (v.stage.level_session _ howns) rfl rfl
      | linkEpoch => exact hcounts.level (v.stage.level_epoch _) rfl rfl
      | recoverAttemptCount => exact hcounts.readAttempts hanswer
      | recoverCount => exact hcounts.readCount hanswer
      | _ => exact hcounts.same rfl rfl
  | set f value =>
      cases f with
      | linkEpoch => exact hcounts.level v.stage.level_bumped rfl rfl
      | lastRecoverMs => exact hcounts.level v.stage.level_stamped rfl rfl
      | recoverAttemptCount =>
          obtain ⟨ok, k, hstage, rfl⟩ := hallow
          rw [hstage] at hcounts ⊢
          exact hcounts.wroteAttempts
      | recoverCount =>
          obtain ⟨k, hstage, rfl⟩ := hallow
          rw [hstage] at hcounts ⊢
          exact hcounts.wroteCount
      | _ => exact hcounts.same rfl rfl
  | claim flag =>
      cases flag with
      | requestLock => exact hcounts.same rfl rfl
      | recovering => simp [hallow.1, Stage.owns] at howns
  | clock transfer frame =>
      simp only [Stage.next]
      split
      · exact hcounts.level v.stage.level_undecoded rfl rfl
      · exact hcounts.same rfl rfl
  | collect frame =>
      cases reply with
      | error err => exact hcounts.level v.stage.level_undecoded rfl rfl
      | ok answer => exact hcounts.level (v.stage.level_decoded answer) rfl rfl
  | write pin level =>
      rcases hallow with ⟨-, rfl, ⟨hstage, rfl⟩ | ⟨hstage, rfl⟩⟩ | ⟨hstage, -⟩
      · rw [hstage] at hcounts ⊢
        exact hcounts.pulsed
      · rw [hstage] at hcounts ⊢
        exact hcounts.same rfl rfl
      · simp [hstage, Stage.owns] at howns
  | note k =>
      cases k with
      | enterRecover => simp [hallow.1, Stage.owns] at howns
      | leaveRecover status => exact absurd howns (by simp [hallow.1])
      | _ => exact hcounts.same rfl rfl
  | releaseRecover status =>
      rcases hallow.2 with ⟨hstage, hstatus⟩ | ⟨hstage, hstatus⟩ | ⟨hstage, rfl⟩
      · rw [hstage] at hcounts
        exact hcounts.left hstatus rfl rfl
      · rw [hstage] at hcounts
        exact hcounts.left hstatus rfl rfl
      · rw [hstage] at hcounts
        exact ⟨hcounts.attempts, by rintro _ _ ⟨⟩, hcounts.count, by rintro _ ⟨⟩⟩
  | _ => exact hcounts.same rfl rfl

-- A thread that does not own the recovery counts nothing.
theorem counters_after (howns : v.stage.owns = false) (hhost : v.host = false)
    (hallow : v.Allows raw cmd) (s : Shared T) (reply : bridge.Reply cmd) :
    (s.ctx.after cmd reply).recoverAttemptCount = s.ctx.recoverAttemptCount ∧
      (s.ctx.after cmd reply).recoverCount = s.ctx.recoverCount ∧ cmd.lowersReset = false ∧
        cmd.confirms = false := by
  cases cmd with
  | set f value =>
      cases f with
      | recoverAttemptCount =>
          obtain ⟨ok, k, hstage, -⟩ := hallow
          simp [hstage, Stage.owns] at howns
      | recoverCount =>
          obtain ⟨k, hstage, -⟩ := hallow
          simp [hstage, Stage.owns] at howns
      | _ => exact ⟨rfl, rfl, rfl, rfl⟩
  | claim flag => cases flag <;> exact ⟨rfl, rfl, rfl, rfl⟩
  | write pin level =>
      rcases hallow with ⟨-, -, ⟨hstage, -⟩ | ⟨hstage, -⟩⟩ | ⟨-, hself, -⟩
      · simp [hstage, Stage.owns] at howns
      · simp [hstage, Stage.owns] at howns
      · simp [hhost] at hself
  | releaseRecover status =>
      rcases hallow.2 with ⟨hstage, -⟩ | ⟨hstage, -⟩ | ⟨hstage, -⟩
      all_goals simp [hstage, Stage.owns] at howns
  | _ => exact ⟨rfl, rfl, rfl, rfl⟩

theorem Counts.idle {stage : Stage} {ctx : Ctx} (h : Counts stage ctx n m) (howns : stage.owns = false) :
    Counts .out ctx n m := by
  cases stage with
  | out | entered | checked => exact ⟨h.attempts, nofun, h.count, nofun⟩
  | _ => cases howns

end Counters

section Runs

variable {T : Type} [DecidableEq T] {host : T → Bool} {raw : Bool} {t : T} {s s' : Shared T} {cmd : Cmd}
  {reply : bridge.Reply cmd}

theorem view_host (s : Shared T) (t : T) : (s.view host t).host = host t := by
  unfold Shared.view
  induction s.history with
  | nil => rfl
  | cons e rest ih =>
      simp only [viewOf]
      split
      · exact ih
      · exact ih

-- The stage that a thread begins to own the recovery in.
theorem owner_of_owns {v : View} (howns : v.stage.owns = false) (hallow : v.Allows raw cmd)
    (hnext : (v.stage.next cmd reply).owns = true) : v.stage.next cmd reply = .owner := by
  cases hcmd : cmd.transfersRecovery with
  | false =>
      rw [owns_next hallow hcmd, howns] at hnext
      cases hnext
  | true =>
      cases cmd with
      | claim flag =>
          cases flag with
          | requestLock => cases hcmd
          | recovering =>
              cases reply with
              | true => simp [hallow.1, Stage.claimed]
              | false => simp [hallow.1, Stage.claimed, Stage.owns] at hnext
      | releaseRecover status => simp [Stage.owns] at hnext
      | _ => cases hcmd

-- The counters agree with the history, at the thread that owns the recovery and where none does.
structure Shared.Counted (host : T → Bool) (s : Shared T) : Prop where
  owner : ∀ t, (s.view host t).stage.owns = true →
    Counts (s.view host t).stage s.ctx (pulses s.history) (confirmed s.history)
  idle : s.ctx.recovering = false → Counts .out s.ctx (pulses s.history) (confirmed s.history)

omit [DecidableEq T] in
theorem pulses_after (henv : env t s cmd reply s') :
    pulses s'.history = pulses s.history + if cmd.lowersReset then 1 else 0 := by
  simp [pulses, henv.2.2.2, List.countP_cons]

theorem counted_step (hhost : ∀ t, host t = false) (howned : s.Owned host) (hcounted : s.Counted host)
    (hallow : (s.view host t).Allows raw cmd) (henv : env t s cmd reply s') : s'.Counted host := by
  have howned' := owned_step howned hallow henv
  have hown : (s'.view host t).stage = (s.view host t).stage.next cmd reply :=
    congrArg View.stage (env_view_own henv)
  have hpulses := pulses_after henv
  have hconfirmed : confirmed s'.history = confirmed s.history + if cmd.confirms then 1 else 0 := by
    simp [confirmed, henv.2.2.2, List.countP_cons]
  have hctx := henv.2.2.1
  cases howns : (s.view host t).stage.owns with
  | true =>
      have hnext := counts_next (hcounted.owner t howns) howns hallow henv.1
      rw [← hown, ← hctx, ← hpulses, ← hconfirmed] at hnext
      refine ⟨fun u hu => ?_, fun hidle => hnext.idle ?_⟩
      · by_cases hut : u = t
        · rw [hut]
          exact hnext
        · rw [env_view_other henv hut] at hu
          exact absurd (howned.unique u t hu howns) hut
      · cases hstage : (s'.view host t).stage.owns with
        | false => rfl
        | true => simpa [hidle] using howned'.raised t hstage
  | false =>
      have hself : (s.view host t).host = false := by rw [view_host, hhost]
      obtain ⟨hattempts, hcount, hlow, hconfirms⟩ := counters_after howns hself hallow s reply
      rw [← hctx] at hattempts hcount
      simp only [hlow, hconfirms, Bool.false_eq_true, ↓reduceIte, Nat.add_zero] at hpulses hconfirmed
      -- an owner before the step is another thread, which still owns the recovery after it
      have hkept : ∀ u, (s.view host u).stage.owns = true → u ≠ t ∧ (s'.view host u).stage.owns = true := by
        intro u hu
        have hut : u ≠ t := by
          rintro rfl
          simp [howns] at hu
        rw [env_view_other henv hut]
        exact ⟨hut, hu⟩
      refine ⟨fun u hu => ?_, fun hidle => ?_⟩
      · rw [hpulses, hconfirmed]
        by_cases hut : u = t
        · rw [hut] at hu ⊢
          have hrecovering : s.ctx.recovering = false := by
            cases hrecovering : s.ctx.recovering with
            | false => rfl
            | true =>
                obtain ⟨w, hw⟩ := howned.holder hrecovering
                have hwkept := hkept w hw
                exact absurd (howned'.unique w t hwkept.2 hu) hwkept.1
          rw [owner_of_owns howns hallow (hown ▸ hu)] at hown
          rw [hown]
          exact (hcounted.idle hrecovering).level ⟨rfl, rfl, nofun, nofun⟩ hattempts hcount
        · rw [env_view_other henv hut] at hu ⊢
          exact (hcounted.owner u hu).same hattempts hcount
      · rw [hpulses, hconfirmed]
        have hrecovering : s.ctx.recovering = false := by
          cases hrecovering : s.ctx.recovering with
          | false => rfl
          | true =>
              obtain ⟨w, hw⟩ := howned.holder hrecovering
              simpa [hidle] using howned'.raised w (hkept w hw).2
        exact (hcounted.idle hrecovering).same hattempts hcount

-- What holds of the shared state in every run of threads that only make requests and recover.
structure Shared.Sound (host : T → Bool) (s : Shared T) : Prop where
  locks : s.Locks host
  owned : s.Owned host
  silent : ∀ t, (s.view host t).Silent
  counted : s.Counted host

theorem sound_step (hhost : ∀ t, host t = false) (hsound : s.Sound host)
    (hallow : (s.view host t).Allows raw cmd) (henv : env t s cmd reply s') : s'.Sound host := by
  refine ⟨locks_step hsound.locks hallow henv, owned_step hsound.owned hallow henv, fun u => ?_,
    counted_step hhost hsound.owned hsound.counted hallow henv⟩
  by_cases hu : u = t
  · rw [hu, env_view_own henv]
    exact silent_next (hsound.silent t) hallow
  · rw [env_view_other henv hu]
    exact hsound.silent u

theorem fresh_sound (h : s.Fresh) : s.Sound host := by
  have hview : ∀ t, s.view host t = .start (host t) := fun t => fresh_view h t
  refine ⟨⟨?_, ?_, ?_⟩, ⟨?_, ?_, ?_⟩, ?_, ⟨?_, fun _ => ⟨?_, nofun, ?_, nofun⟩⟩⟩
  · simp [h.requestLock]
  · simp [hview, View.start]
  · simp [hview, View.start]
  · simp [h.recovering]
  · simp [hview, View.start, Stage.owns]
  · simp [hview, View.start, Stage.owns]
  · simp [hview, View.start, View.Silent, Stage.unsettled]
  · simp [hview, View.start, Stage.owns]
  · simp [h.recoverAttemptCount, h.history, pulses, Stage.owed]
  · simp [h.recoverCount, h.history, confirmed, Stage.ahead]

-- A command that clocks bytes on the bus.
def Cmd.clocks : Cmd → Bool
  | .clock _ _ | .collect _ | .resync _ => true
  | _ => false

theorem holds_of_clocks {v : View} (hallow : v.Allows raw cmd) (hclocks : cmd.clocks = true) :
    v.holds = true := by
  cases cmd with
  | clock transfer frame | collect frame | resync header => exact hallow.1
  | _ => cases hclocks

def noHost : T → Bool := fun _ => false

theorem requests_sound {cfg : Config} {w w' : Pool bridge (Shared T) T} (hstart : Started w)
    (hrun : Run env (fun _ _ => RequestCall cfg) w w') :
    Keeps (discipline true) (Shared.view noHost) View.Rest (Shared.Sound noHost) w' :=
  run_keeps tracks_env (fun _ _ _ hcall _ hrest => requestCall_keeping hcall hrest)
    (fun _ _ _ _ _ hinv hallow henv => sound_step (fun _ => rfl) hinv hallow henv) hrun
    (started_keeps hstart (fresh_sound hstart.mem))

theorem recovery_exclusive {cfg : Config} {w w' : Pool bridge (Shared T) T} (hstart : Started w)
    (hrun : Run env (fun _ _ => RequestCall cfg) w w') :
    (∀ t u, (w'.mem.view noHost t).stage.reset = true → (w'.mem.view noHost u).stage.reset = true → t = u) ∧
    (∀ t u cmd next, (w'.mem.view noHost t).stage.confirming = true → u ≠ t →
      w'.thread u = .call cmd next → Cmd.clocks cmd = false) ∧
    (w'.mem.ctx.requestLock = true ↔ ∃! t, (w'.mem.view noHost t).holds = true) ∧
    (∀ t, w'.thread t = .ret () →
      (w'.mem.view noHost t).holds = false ∧ (w'.mem.view noHost t).stage.owns = false) ∧
    (w'.mem.ctx.recovering = false →
      w'.mem.ctx.recoverAttemptCount = UInt32.ofNat (pulses w'.mem.history) ∧
        w'.mem.ctx.recoverCount = UInt32.ofNat (confirmed w'.mem.history)) ∧
    (w'.mem.ctx.recovering = true ↔ ∃! t, (w'.mem.view noHost t).stage.owns = true) ∧
    (∀ t, (w'.mem.view noHost t).stage.unsettled = true → (w'.mem.view noHost t).holds = true) := by
  have hkeeps := requests_sound hstart hrun
  obtain ⟨hlocks, howned, hsilent, hcounted⟩ := hkeeps.inv
  refine ⟨fun t u ht hu => howned.unique t u (Stage.owns_of_reset ht) (Stage.owns_of_reset hu), ?_,
    hlocks.iff_existsUnique, fun t ht => ?_, ?_, howned.iff_existsUnique, hsilent⟩
  · intro t u cmd next ht hne hcmd
    cases hclocks : Cmd.clocks cmd with
    | false => rfl
    | true =>
        have hu := holds_of_clocks (hkeeps.allowed hcmd) hclocks
        exact absurd (hlocks.unique u t hu (hsilent t (Stage.unsettled_of_confirming ht))) hne
  · have hrest := hkeeps.rest ht
    exact ⟨hrest.holds, by rw [hrest.stage]; rfl⟩
  · intro hidle
    obtain ⟨hattempts, -, hcount, -⟩ := hcounted.idle hidle
    simpa [Stage.owed, Stage.ahead] using And.intro hattempts hcount

-- A device that answers OK, to a GET_VERSION with the current major.
def healthy (frame : Frame) : Except AlpError Answer :=
  .ok ⟨.ok (), 0, if frame.cmd = .getVersion then [0, 4] else []⟩

def pingCall : Driver Unit := do let _ ← request board .ping [] 0

def recoverCall : Driver Unit := do let _ ← recover board

-- One thread stands between its nRESET pulse and the PING, another wants to send a PING.
def resetting : Pool bridge (Shared Bool) Bool :=
  schedule (still healthy) (List.replicate 9 true ++ List.replicate 2 false)
    ⟨(booted Bool).mem, Function.update (Function.update (booted Bool).thread true recoverCall) false pingCall⟩

theorem run_resetting : Run env (fun _ _ => RequestCall board) (booted Bool) resetting :=
  run_start rfl .recover
    (run_start rfl (.request .ping [] 0) (run_schedule (answering_still healthy) _ _))

theorem recovery_exclusive_resetting :
    (resetting.mem.view noHost true).stage.confirming = true ∧
      ∀ cmd next, resetting.thread false = .call cmd next → Cmd.clocks cmd = false := by
  have hpulsed : (resetting.mem.view noHost true).stage.confirming = true := by decide +kernel
  refine ⟨hpulsed, fun cmd next hcmd => ?_⟩
  exact (recovery_exclusive (started_booted Bool) run_resetting).2.1 true false cmd next hpulsed nofun hcmd

-- What manual recoveries leave of the context.
def recovered (n m : UInt32) (epoch : UInt8) (ms : UInt64) : Ctx :=
  { bootedCtx with
    recoverAttemptCount := n, recoverCount := m, linkEpoch := epoch, lastRecoverMs := ms }

theorem solo_recover (n m : UInt32) (epoch : UInt8) (ms clock : UInt64) (history : List (Event Unit)) :
    ∃ s', solo (still healthy ()) (do let _ ← recover board) ⟨recovered n m epoch ms, clock, history⟩ =
        some ((), s') ∧
      s'.ctx = recovered (n + 1) (m + 1) (nextEpoch epoch) clock ∧
      pulses s'.history = pulses history + 1 := by
  refine ⟨_, rfl, rfl, ?_⟩
  simp [pulses, Cmd.lowersReset]

-- One manual recovery after another, on a context that nothing else uses.
theorem exists_recoveries (count : Nat) :
    ∃ (s : Shared Unit) (m : UInt32) (epoch : UInt8) (ms : UInt64),
      Run env (fun _ _ => RequestCall board) (booted Unit) ⟨s, fun _ => .ret ()⟩ ∧
        s.ctx = recovered (UInt32.ofNat count) m epoch ms ∧ pulses s.history = count := by
  induction count with
  | zero => exact ⟨⟨bootedCtx, 0, []⟩, 0, 0, 0, Relation.ReflTransGen.refl, rfl, rfl⟩
  | succ count ih =>
      obtain ⟨⟨ctx, clock, history⟩, m, epoch, ms, hrun, hctx, hpulses⟩ := ih
      simp only at hctx hpulses
      subst hctx
      obtain ⟨s', hsolo, hctx', hpulses'⟩ :=
        solo_recover (UInt32.ofNat count) m epoch ms clock history
      refine ⟨s', m + 1, nextEpoch epoch, clock, hrun.trans ?_, ?_, by rw [hpulses', hpulses]⟩
      · have hlast : Run env (fun _ _ => RequestCall board) _
            ⟨s', Function.update (fun _ => .ret ()) () (.ret ())⟩ :=
          run_solo (answering_still healthy) hsolo
        rw [Function.update_eq_self_iff.mpr rfl] at hlast
        exact run_start rfl .recover hlast
      · rw [hctx', UInt32.ofNat_add]
        rfl

-- The counters are 32 bits wide.
theorem recovery_counters_wrap :
    ¬∀ (w w' : Pool bridge (Shared Unit) Unit), Started w →
      Run env (fun _ _ => RequestCall board) w w' → w'.mem.ctx.recovering = false →
        w'.mem.ctx.recoverAttemptCount.toNat = pulses w'.mem.history := by
  intro h
  obtain ⟨s, m, epoch, ms, hrun, hctx, hpulses⟩ := exists_recoveries (2 ^ 32)
  have hcount := h _ _ (started_booted Unit) hrun (by rw [hctx]; rfl)
  rw [hctx, hpulses] at hcount
  simp [recovered] at hcount

end Runs

end AlpSdk.Cc3501e
