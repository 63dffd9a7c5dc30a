import AlpSdk.Cc3501e.Exclusive

-- How far apart the automatic recoveries are.
namespace AlpSdk.Cc3501e

open Library.Effect Library.Interleave

section Attempts

variable {T : Type} [DecidableEq T]

-- An attempt that has pulsed nRESET: the end its bookkeeping has stamped, and the streak
-- after it.
structure Attempt where
  ended : UInt64
  streak : UInt8
  deriving DecidableEq

-- The attempt that has ended last.
def lastAttempt (host : T → Bool) : List (Event T) → Option Attempt
  | [] => none
  | e :: rest =>
      match e.cmd with
      | .releaseRecover _ =>
          let v := viewOf host rest e.thread
          if v.stage.reset then some ⟨v.stamp, e.after.recoverFailStreak⟩ else lastAttempt host rest
      | _ => lastAttempt host rest

-- What the gate has read of the attempt that has ended last: its streak in every round, a time
-- of the last attempt between its end and the clock, and not that there has been none.
def Gate.UpToDate (gate : Gate) (last : Option Attempt) : Prop :=
  ∀ a ∈ last, gate.attempts ≠ some 0 ∧ (∀ k ∈ gate.streaks, k = a.streak) ∧
    ∀ now ∈ gate.now, ∀ ms ∈ gate.last, a.ended ≤ ms ∧ ms ≤ now

-- An automatic attempt claims the recovery only on what is still up to date.
def claimsUpToDate (t : T) (s : Shared T) (cmd : Cmd) (reply : bridge.Reply cmd) : Prop :=
  cmd.wins reply = true → (s.view noHost t).checking = true →
    (s.view noHost t).gate.UpToDate (lastAttempt noHost s.history)

theorem elapsed_of_passes {gate : Gate} {a : Attempt} {clock : UInt64} (hpasses : gate.Passes)
    (hgate : gate.UpToDate (some a)) (hclock : ∀ now, gate.now = some now → now ≤ clock) :
    a.ended.toNat + cooldownMs a.streak ≤ clock.toNat := by
  obtain ⟨hattempts, hstreaks, htimes⟩ := hgate a rfl
  rcases hpasses a.streak hstreaks with hzero | ⟨now, ms, hnow, hms, hcooldown⟩
  · exact absurd hzero hattempts
  · obtain ⟨hended, hle⟩ := htimes now hnow ms hms
    have hnowle := UInt64.le_iff_toNat_le.mp (hclock now hnow)
    have hendedle := UInt64.le_iff_toNat_le.mp hended
    have hmsle := UInt64.le_iff_toNat_le.mp hle
    rw [UInt64.toNat_sub_of_le _ _ hle] at hcooldown
    omega

-- What the runs preserve: no gate has read a later time than the clock shows, and an automatic
-- attempt that owns the recovery has waited out the attempt before it.
structure Shared.Paced (s : Shared T) : Prop where
  owned : s.Owned noHost
  clock : ∀ t now, (s.view noHost t).gate.now = some now → now ≤ s.clock
  apart : ∀ t a, (s.view noHost t).checking = true → (s.view noHost t).stage = .owner →
    lastAttempt noHost s.history = some a → a.ended.toNat + cooldownMs a.streak ≤ s.clock.toNat

variable {raw : Bool} {t : T} {s s' : Shared T} {cmd : Cmd} {reply : bridge.Reply cmd}

theorem gate_now {v : View} {now : UInt64} (hnow : (v.next cmd reply).gate.now = some now) :
    v.gate.now = some now ∨ (cmd = .uptime ∧ HEq reply now) := by
  have hgate : (v.gateNext cmd reply).now = some now := hnow
  cases cmd with
  | get f =>
      simp only [View.gateNext] at hgate
      split at hgate
      · cases f <;> exact .inl hgate
      · exact .inl hgate
  | uptime =>
      simp only [View.gateNext] at hgate
      split at hgate
      · cases hbefore : v.gate.now with
        | none =>
            simp only [Gate.next, hbefore, Option.orElse_eq_orElse] at hgate
            exact .inr ⟨rfl, heq_of_eq (Option.some.inj hgate)⟩
        | some ms =>
            simp only [Gate.next, hbefore, Option.orElse_eq_orElse] at hgate
            exact .inl hgate
      · exact .inl hgate
  | note n =>
      cases n with
      | enterCheck => cases hgate
      | _ =>
          simp only [View.gateNext] at hgate
          split at hgate
          · exact .inl hgate
          · exact .inl hgate
  | _ =>
      simp only [View.gateNext] at hgate
      split at hgate
      · exact .inl hgate
      · exact .inl hgate

theorem clock_step (henv : env t s cmd reply s')
    (hclock : ∀ now, (s.view noHost t).gate.now = some now → now ≤ s.clock) {now : UInt64}
    (hnow : (s'.view noHost t).gate.now = some now) : now ≤ s'.clock := by
  rw [env_view_own henv] at hnow
  rcases gate_now hnow with hbefore | ⟨rfl, hreply⟩
  · exact UInt64.le_trans (hclock now hbefore) henv.2.1
  · obtain rfl := eq_of_heq hreply
    rw [show reply = s.clock from henv.1]
    exact henv.2.1

-- Only an owner that has pulsed nRESET ends an attempt.
theorem lastAttempt_eq (henv : env t s cmd reply s')
    (h : ∀ status, cmd = .releaseRecover status → (s.view noHost t).stage.reset = false) :
    lastAttempt noHost s'.history = lastAttempt noHost s.history := by
  rw [henv.2.2.2]
  cases cmd with
  | releaseRecover status =>
      have hreset : (viewOf noHost s.history t).stage.reset = false := h status rfl
      simp [lastAttempt, hreset]
  | _ => rfl

theorem owner_next {v : View} (h : (v.next cmd reply).stage = .owner) :
    v.stage = .owner ∨ (cmd = .claim .recovering ∧ HEq reply true) := by
  have hmove := Stage.move v.stage cmd reply
  rw [show v.stage.next cmd reply = .owner from h] at hmove
  generalize hstage : v.stage = stage at hmove
  generalize hnext : Stage.owner = stage' at hmove
  have hreset : stage'.reset = false := by rw [← hnext]; rfl
  cases hmove with
  | stay => exact .inl rfl
  | win => exact .inr ⟨rfl, HEq.rfl⟩
  | lost transfer frame err hconfirming | dropped frame err hconfirming =>
      rw [Stage.reset_undecoded hconfirming] at hreset
      cases hreset
  | answered frame answer hconfirming =>
      rw [Stage.reset_decoded answer hconfirming] at hreset
      cases hreset
  | _ => cases hnext

theorem checking_of_next {v : View} (hallow : v.Allows raw cmd) (hstage : (v.next cmd reply).stage = .owner)
    (hcheck : (v.next cmd reply).checking = true) : v.checking = true := by
  cases cmd with
  | note n =>
      cases n with
      | enterCheck =>
          have hout : v.stage = .owner := hstage
          rw [hallow.1] at hout
          cases hout
      | leaveCheck => cases hcheck
      | _ => exact hcheck
  | _ => exact hcheck

theorem paced_step (hpaced : s.Paced) (hallow : (s.view noHost t).Allows raw cmd)
    (henv : envWhere claimsUpToDate t s cmd reply s') : s'.Paced := by
  obtain ⟨henv, hguard⟩ := henv
  have hmono := UInt64.le_iff_toNat_le.mp henv.2.1
  refine ⟨owned_step hpaced.owned hallow henv, fun u now hnow => ?_, fun u a hcheck hstage hlast => ?_⟩
  · by_cases hu : u = t
    · subst hu
      exact clock_step henv (hpaced.clock u) hnow
    · rw [env_view_other henv hu] at hnow
      exact UInt64.le_trans (hpaced.clock u now hnow) henv.2.1
  · by_cases hu : u = t
    · subst hu
      rw [env_view_own henv] at hcheck hstage
      have hbefore := checking_of_next hallow hstage hcheck
      have hkept : lastAttempt noHost s'.history = lastAttempt noHost s.history := by
        refine lastAttempt_eq henv fun status hcmd => ?_
        subst hcmd
        cases hstage
      rw [hkept] at hlast
      rcases owner_next hstage with hstage | ⟨rfl, hwon⟩
      · have hapart := hpaced.apart u a hbefore hstage hlast
        omega
      · obtain rfl := eq_of_heq hwon
        have hgate := hguard rfl hbefore
        rw [hlast] at hgate
        have helapsed := elapsed_of_passes (hallow.2.2 hbefore) hgate (hpaced.clock u)
        omega
    · rw [env_view_other henv hu] at hcheck hstage
      have hkept : lastAttempt noHost s'.history = lastAttempt noHost s.history := by
        refine lastAttempt_eq henv fun status hcmd => ?_
        -- the owner is another thread
        cases hreset : (s.view noHost t).stage.reset with
        | false => rfl
        | true =>
            refine absurd (hpaced.owned.unique u t ?_ (Stage.owns_of_reset hreset)) hu
            simp [hstage, Stage.owns]
      have hbefore := hpaced.apart u a hcheck hstage (hkept ▸ hlast)
      omega

theorem fresh_paced (h : s.Fresh) : s.Paced := by
  have hview : ∀ t, s.view noHost t = .start (noHost t) := fun t => fresh_view h t
  refine ⟨(fresh_sound h).owned, ?_, ?_⟩
  · simp [hview, View.start, Gate.empty]
  · simp [hview, View.start]

theorem automatic_attempts_apart {cfg : Config} {w w' : Pool bridge (Shared T) T} (hstart : Started w)
    (hrun : Run (envWhere claimsUpToDate) (fun _ _ => RequestCall cfg) w w') {t : T}
    {next : Unit → Driver Unit} (hauto : (w'.mem.view noHost t).checking = true)
    (hpulse : w'.thread t = .call (.write .reset false) next) {a : Attempt}
    (hlast : lastAttempt noHost w'.mem.history = some a) :
    a.ended.toNat + cooldownMs a.streak ≤ w'.mem.clock.toNat := by
  have htracks : Tracks (envWhere claimsUpToDate) (discipline true) (Shared.view (T := T) noHost) :=
    tracks_env.mono fun t s cmd reply s' h => h.1
  have hkeeps := run_keeps htracks (fun _ _ _ hcall _ hrest => requestCall_keeping hcall hrest)
    (fun _ _ _ _ _ hinv hallow henv => paced_step hinv hallow henv) hrun
    (started_keeps hstart (fresh_paced hstart.mem))
  refine hkeeps.inv.apart t a hauto ?_ hlast
  rcases hkeeps.allowed hpulse with ⟨-, -, ⟨hstage, -⟩ | ⟨-, hlevel⟩⟩ | ⟨-, hhost, -⟩
  · exact hstage
  · cases hlevel
  · rw [view_host] at hhost
    cases hhost

end Attempts

section Race

-- A device that answers nothing.
def dead (_ : Frame) : Except AlpError Answer := .error .timeout

def pollCall : Driver Unit := do let _ ← pollByRepeatSeq board ⟨.ping, [], REQ_SEQ_NONE⟩ 0 0 none

-- Over what the gate has read, not over all values of the types.
instance (gate : Gate) (last : Option Attempt) : Decidable (gate.UpToDate last) :=
  haveI (a : Attempt) (now : UInt64) : Decidable (∀ ms ∈ gate.last, a.ended ≤ ms ∧ ms ≤ now) :=
    Option.decidableForallMem gate.last
  haveI (a : Attempt) :
      Decidable (∀ now ∈ gate.now, ∀ ms ∈ gate.last, a.ended ≤ ms ∧ ms ≤ now) :=
    Option.decidableForallMem gate.now
  haveI (a : Attempt) : Decidable (∀ k ∈ gate.streaks, k = a.streak) :=
    List.decidableBAll _ gate.streaks
  Option.decidableForallMem last

instance (t : Bool) (s : Shared Bool) (cmd : Cmd) (reply : bridge.Reply cmd) :
    Decidable (claimsUpToDate t s cmd reply) :=
  inferInstanceAs (Decidable (_ → _ → _))

-- It takes a minute to come to the check of the link.
def minute (cmd : Cmd) (time : UInt64) : UInt64 :=
  match cmd with
  | .note .enterCheck => if time ≤ 60000 then 60000 else time
  | _ => time

theorem le_minute (cmd : Cmd) (time : UInt64) : time ≤ minute cmd time := by
  unfold minute
  split
  · split
    · assumption
    · exact UInt64.le_refl _
  · exact UInt64.le_refl _

-- A manual recovery has failed, and a minute later a failed PING is about to start another one.
def polling : Pool bridge (Shared Bool) Bool :=
  schedule (restricted claimsUpToDate (timed dead minute))
    (List.replicate 23 false ++ List.replicate 281 true)
    ⟨(booted Bool).mem, Function.update (Function.update (booted Bool).thread true pollCall) false recoverCall⟩

theorem run_polling : Run (envWhere claimsUpToDate) (fun _ _ => RequestCall board) (booted Bool) polling :=
  run_start rfl (.poll _ _ _ _) (run_start rfl .recover
    (run_schedule (answering_restricted claimsUpToDate (answering_timed dead le_minute)) _ _))

theorem polling_pulses : standsBefore Cmd.lowersReset (polling.thread true) = true := by decide +kernel

theorem automatic_attempts_apart_polling :
    (0 : UInt64).toNat + cooldownMs 1 ≤ polling.mem.clock.toNat := by
  obtain ⟨next, hpulse⟩ := exists_pulse polling_pulses
  have hauto : (polling.mem.view noHost true).checking = true := by decide +kernel
  have hlast : lastAttempt noHost polling.mem.history = some ⟨0, 1⟩ := by decide +kernel
  exact automatic_attempts_apart (started_booted Bool) run_polling hauto hpulse hlast

-- One thread's PING fails, and it has checked the counter after its probe and goes on to
-- recover the link. Another thread then makes a whole attempt before the first one claims the
-- recovery.
def racing : Pool bridge (Shared Bool) Bool :=
  schedule (still dead) (List.replicate 272 true ++ List.replicate 23 false ++ List.replicate 5 true)
    ⟨(booted Bool).mem, Function.update (Function.update (booted Bool).thread true pollCall) false recoverCall⟩

theorem run_racing : Run env (fun _ _ => RequestCall board) (booted Bool) racing :=
  run_start rfl (.poll _ _ _ _)
    (run_start rfl .recover (run_schedule (answering_still dead) _ _))

theorem racing_pulses : standsBefore Cmd.lowersReset (racing.thread true) = true := by decide +kernel

theorem automatic_attempt_at_once :
    ¬∀ (w w' : Pool bridge (Shared Bool) Bool), Started w →
      Run env (fun _ _ => RequestCall board) w w' → ∀ t next,
        (w'.mem.view noHost t).checking = true → w'.thread t = .call (.write .reset false) next →
          ∀ a, lastAttempt noHost w'.mem.history = some a →
            a.ended.toNat + cooldownMs a.streak ≤ w'.mem.clock.toNat := by
  intro h
  obtain ⟨next, hpulse⟩ := exists_pulse racing_pulses
  have hauto : (racing.mem.view noHost true).checking = true := by decide +kernel
  have hlast : lastAttempt noHost racing.mem.history = some ⟨0, 1⟩ := by decide +kernel
  have happart := h (booted Bool) racing (started_booted Bool) run_racing true next hauto hpulse _ hlast
  have hclock : racing.mem.clock = 0 := by decide +kernel
  rw [hclock] at happart
  revert happart
  decide

end Race

end AlpSdk.Cc3501e
