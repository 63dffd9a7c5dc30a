import AlpSdk.Cc3501e.Alone
import AlpSdk.Library.Avoid

-- That the calls of an update end.
namespace AlpSdk.Cc3501e

open Library.Effect

variable {S α β : Type} {env : Env bridge S} {cfg : Config} {s : S}

-- The command a loop is cut with.
def Cmd.cut : Cmd → Prop
  | .stall => True
  | _ => False

-- No loop of the program is cut, whatever the device does.
abbrev Returns (env : Env bridge S) (p : Driver α) (s : S) : Prop := Avoids env Cmd.cut p s

theorem returns_pure (value : α) : Returns env (pure value) s := trivial

theorem returns_perform {cmd : Cmd} (h : ¬ cmd.cut) : Returns env (perform cmd) s := ⟨h, fun _ _ _ => trivial⟩

theorem returns_get (f : Field) : Returns env (get f) s := returns_perform nofun

theorem returns_set (f : Field) (v : f.Val) : Returns env (set f v) s := returns_perform nofun

theorem returns_delay (ms : Nat) : Returns env (delay ms) s := returns_perform nofun

theorem returns_note (n : Note) : Returns env (note n) s := returns_perform nofun

theorem returns_ite {p : Prop} [Decidable p] {a b : Driver α} (ha : p → Returns env a s)
    (hb : ¬ p → Returns env b s) : Returns env (if p then a else b) s := by
  split
  case isTrue h => exact ha h
  case isFalse h => exact hb h

-- A step that is taken on a condition, and what follows it either way.
theorem returns_when {p : Prop} [Decidable p] {a : Driver PUnit} {next : PUnit → Driver α}
    (ha : Returns env a s) (hnext : ∀ u s, Returns env (next u) s) :
    Returns env (if p then a >>= next else next ⟨⟩) s :=
  returns_ite (fun _ => avoids_bind ha hnext) fun _ => hnext _ s

section Request

theorem returns_lockAcquireWithin (waits : Nat) : Returns env (lockAcquireWithin waits) s := by
  induction waits generalizing s with
  | zero => exact returns_pure _
  | succ waits ih =>
      refine avoids_bind (returns_delay 1) fun _ s => ?_
      refine avoids_bind (returns_perform nofun) fun taken s => ?_
      exact returns_ite (fun _ => returns_pure _) fun _ => ih

theorem returns_lockAcquire : Returns env (lockAcquire cfg) s := by
  refine avoids_bind (returns_perform nofun) fun taken s => ?_
  exact returns_ite (fun _ => returns_pure _) fun _ => returns_lockAcquireWithin _

theorem returns_clock (transfer : Transfer) (frame : Frame) {next : Driver Answer}
    (hnext : ∀ s, Returns env next s) : Returns env (clock transfer frame next) s := by
  refine avoids_bind (returns_perform nofun) fun reply s => ?_
  cases reply with
  | some err => exact returns_pure _
  | none => exact hnext s

theorem returns_collect (frame : Frame) (rxCap : Nat) : Returns env (collect frame rxCap) s := by
  refine avoids_bind (returns_perform nofun) fun reply s => ?_
  cases reply with
  | error err => exact returns_pure _
  | ok answer => exact returns_pure _

theorem returns_requestLocked (frame : Frame) (rxCap : Nat) : Returns env (requestLocked frame rxCap) s := by
  refine avoids_bind (returns_get _) fun major s => ?_
  refine returns_clock _ _ fun s => ?_
  refine returns_ite (fun _ => ?_) fun _ => returns_clock _ _ fun s => returns_collect _ _
  exact returns_clock _ _ fun s => returns_clock _ _ fun s => returns_collect _ _

theorem returns_request (cmd : Opcode) (payload : List UInt8) (rxCap : Nat) :
    Returns env (request cfg cmd payload rxCap) s := by
  refine avoids_bind (returns_get _) fun ready s => ?_
  refine returns_ite (fun _ => ?_) fun _ => returns_pure _
  refine avoids_bind (avoids_bind (returns_get _) fun _ _ => returns_pure _) fun fitting s => ?_
  refine returns_ite (fun _ => ?_) fun _ => returns_pure _
  refine avoids_bind returns_lockAcquire fun locked s => ?_
  cases locked with
  | error err => exact returns_pure _
  | ok _ =>
      refine avoids_bind (returns_requestLocked _ _) fun answer s => ?_
      exact avoids_bind (returns_set _ _) fun _ s => returns_pure _

theorem returns_pinWrite (pin : Pin) (level : Bool) : Returns env (pinWrite cfg pin level) s := by
  refine returns_ite (fun _ => ?_) fun _ => returns_pure _
  exact returns_perform nofun

theorem returns_hardReset : Returns env (hardReset cfg) s := by
  refine returns_ite (fun _ => ?_) fun _ => returns_pure _
  refine avoids_bind (returns_set _ _) fun _ s => ?_
  refine avoids_bind (returns_pinWrite _ _) fun _ s => ?_
  refine avoids_bind (returns_delay _) fun _ s => ?_
  refine avoids_bind (returns_pinWrite _ _) fun _ s => ?_
  exact avoids_bind (returns_delay _) fun _ s => returns_pure _

end Request

section Budgets

-- A loop ends that charges `step` to a budget in every round, once the charge reaches it.
def Reaches (budget waited step : UInt32) (fuel : Nat) : Prop :=
  ∃ k < fuel, budget ≤ waited + UInt32.ofNat k * step

theorem Reaches.next {budget waited step : UInt32} {fuel : Nat} (h : Reaches budget waited step (fuel + 1))
    (hmore : ¬ budget ≤ waited) : Reaches budget (waited + step) step fuel := by
  obtain ⟨k, hk, hreach⟩ := h
  cases k with
  | zero => exact absurd (by simpa using hreach) hmore
  | succ k =>
      refine ⟨k, by omega, ?_⟩
      have hsum : waited + UInt32.ofNat (k + 1) * step = waited + step + UInt32.ofNat k * step := by
        rw [UInt32.ofNat_add]
        grind
      rwa [← hsum]

theorem reaches_of_small {budget step : UInt32} {k fuel : Nat} (hk : k < fuel)
    (hsmall : k * step.toNat < 2 ^ 32) (hreach : budget.toNat ≤ k * step.toNat) :
    Reaches budget 0 step fuel := by
  refine ⟨k, hk, ?_⟩
  rcases Nat.eq_zero_or_pos step.toNat with hzero | hpos
  · have hnone : budget.toNat = 0 := by
      rw [hzero] at hreach
      omega
    rw [UInt32.le_iff_toNat_le, hnone]
    omega
  · have hcount : k < UInt32.size := by
      have hle : k ≤ k * step.toNat := Nat.le_mul_of_pos_right k hpos
      have hsize : UInt32.size = 2 ^ 32 := rfl
      omega
    rw [UInt32.zero_add, UInt32.le_iff_toNat_le, UInt32.toNat_mul, UInt32.toNat_ofNat_of_lt' hcount,
      Nat.mod_eq_of_lt hsmall]
    exact hreach

theorem toNat_min (a b : UInt32) : (min a b).toNat = min a.toNat b.toNat := by
  change (if a ≤ b then a else b).toNat = min a.toNat b.toNat
  split
  case isTrue h => exact (Nat.min_eq_left (UInt32.le_iff_toNat_le.mp h)).symm
  case isFalse h =>
      rw [UInt32.le_iff_toNat_le] at h
      exact (Nat.min_eq_right (by omega)).symm

theorem reaches_settle (timeoutMs : UInt32) {fuel : Nat} (hfuel : 1200 < fuel) :
    Reaches OTA_BLACKOUT_WAIT_MS 0 (OTA_BLACKOUT_POLL_MS + min timeoutMs OTA_BLACKOUT_POLL_TIMEOUT_MS) fuel := by
  have hstep : (OTA_BLACKOUT_POLL_MS + min timeoutMs OTA_BLACKOUT_POLL_TIMEOUT_MS).toNat =
      50 + min timeoutMs.toNat 200 := by
    rw [UInt32.toNat_add, toNat_min]
    have hgap : OTA_BLACKOUT_POLL_MS.toNat = 50 := rfl
    have hpoll : OTA_BLACKOUT_POLL_TIMEOUT_MS.toNat = 200 := rfl
    omega
  have hbudget : OTA_BLACKOUT_WAIT_MS.toNat = 60000 := rfl
  exact reaches_of_small hfuel (by omega) (by omega)

theorem reaches_flush (timeoutMs : UInt32) {fuel : Nat} (hfuel : 12000 < fuel) :
    Reaches OTA_FLUSH_WAIT_MS 0 (OTA_FLUSH_POLL_MS + min timeoutMs OTA_BLACKOUT_POLL_TIMEOUT_MS) fuel := by
  have hstep : (OTA_FLUSH_POLL_MS + min timeoutMs OTA_BLACKOUT_POLL_TIMEOUT_MS).toNat =
      50 + min timeoutMs.toNat 200 := by
    rw [UInt32.toNat_add, toNat_min]
    have hgap : OTA_FLUSH_POLL_MS.toNat = 50 := rfl
    have hpoll : OTA_BLACKOUT_POLL_TIMEOUT_MS.toNat = 200 := rfl
    omega
  have hbudget : OTA_FLUSH_WAIT_MS.toNat = 600000 := rfl
  exact reaches_of_small hfuel (by omega) (by omega)

-- The charge of a round is 1450 ms, and it passes through every even number: all budgets are
-- reached but the largest.
theorem reaches_updateMode {timeoutMs : UInt32} (hfinite : timeoutMs ≠ 0xFFFFFFFF) {fuel : Nat}
    (hfuel : 2 ^ 31 ≤ fuel) :
    Reaches timeoutMs 0 (UPDATE_MODE_POLL_MS + min timeoutMs UPDATE_MODE_POLL_TIMEOUT_MS) fuel := by
  have hgap : UPDATE_MODE_POLL_MS.toNat = 250 := rfl
  have hpoll : UPDATE_MODE_POLL_TIMEOUT_MS.toNat = 1200 := rfl
  rcases Nat.lt_or_ge timeoutMs.toNat 1200 with hshort | hlong
  · have hstep : (UPDATE_MODE_POLL_MS + min timeoutMs UPDATE_MODE_POLL_TIMEOUT_MS).toNat =
        250 + timeoutMs.toNat := by
      rw [UInt32.toNat_add, toNat_min, hgap, hpoll]
      omega
    exact reaches_of_small (k := 1) (by omega) (by omega) (by omega)
  · have hmin : min timeoutMs UPDATE_MODE_POLL_TIMEOUT_MS = UPDATE_MODE_POLL_TIMEOUT_MS := by
      rw [← UInt32.toNat_inj, toNat_min]
      omega
    refine ⟨1664670083, by omega, ?_⟩
    have hcharge : (0 : UInt32) + UInt32.ofNat 1664670083 * (UPDATE_MODE_POLL_MS + UPDATE_MODE_POLL_TIMEOUT_MS) =
        0xFFFFFFFE := by decide
    rw [hmin, hcharge, UInt32.le_iff_toNat_le]
    have hlt := timeoutMs.toNat_lt
    have hne : timeoutMs.toNat ≠ 0xFFFFFFFF := fun h => hfinite (UInt32.toNat_inj.mp h)
    have hlast : (0xFFFFFFFE : UInt32).toNat = 0xFFFFFFFE := rfl
    omega

theorem returns_settleLoop {want : UInt8} {pollMs : UInt32}
    (hstatus : ∀ s, Returns env (otaStatus cfg pollMs) s) {fuel : Nat} {waited : UInt32}
    (hreach : Reaches OTA_BLACKOUT_WAIT_MS waited (OTA_BLACKOUT_POLL_MS + pollMs) fuel) :
    Returns env (settleLoop cfg want pollMs fuel waited) s := by
  induction fuel generalizing waited s with
  | zero =>
      obtain ⟨k, hk, -⟩ := hreach
      omega
  | succ fuel ih =>
      have hagain (s : S) : Returns env (do
          if OTA_BLACKOUT_WAIT_MS ≤ waited then pure (.error .timeout)
          else
            delay OTA_BLACKOUT_POLL_MS.toNat
            settleLoop cfg want pollMs fuel (waited + (OTA_BLACKOUT_POLL_MS + pollMs)) : Driver Status) s := by
        refine returns_ite (fun _ => returns_pure _) fun hmore => ?_
        exact avoids_bind (returns_delay _) fun _ s => ih (hreach.next hmore)
      rw [settleLoop]
      refine avoids_bind (hstatus s) fun st s => ?_
      cases st with
      | error err => exact hagain s
      | ok st =>
          refine returns_ite (fun _ => returns_pure _) fun _ => ?_
          exact returns_ite (fun _ => returns_pure _) fun _ => hagain s

theorem returns_flushLoop {expect pollMs : UInt32} (hstatus : ∀ s, Returns env (otaStatus cfg pollMs) s)
    {fuel : Nat} {waited : UInt32}
    (hreach : Reaches OTA_FLUSH_WAIT_MS waited (OTA_FLUSH_POLL_MS + pollMs) fuel) :
    Returns env (flushLoop cfg expect pollMs fuel waited) s := by
  induction fuel generalizing waited s with
  | zero =>
      obtain ⟨k, hk, -⟩ := hreach
      omega
  | succ fuel ih =>
      have hagain (s : S) : Returns env (do
          if OTA_FLUSH_WAIT_MS ≤ waited then pure (.error .timeout)
          else
            delay OTA_FLUSH_POLL_MS.toNat
            flushLoop cfg expect pollMs fuel (waited + (OTA_FLUSH_POLL_MS + pollMs)) :
              Driver (Except AlpError Bool)) s := by
        refine returns_ite (fun _ => returns_pure _) fun hmore => ?_
        exact avoids_bind (returns_delay _) fun _ s => ih (hreach.next hmore)
      rw [flushLoop]
      refine avoids_bind (hstatus s) fun fs s => ?_
      cases fs with
      | error err => exact hagain s
      | ok fs =>
          refine returns_ite (fun _ => ?_) fun _ => hagain s
          exact returns_ite (fun _ => returns_pure _) fun _ => returns_pure _

theorem returns_diagUptime : Returns env (diagUptime cfg) s := by
  refine avoids_bind (returns_request _ _ _) fun reply s => ?_
  obtain ⟨status, reply⟩ := reply
  cases status with
  | error err => exact returns_pure _
  | ok _ => exact returns_pure _

theorem returns_updateModeReadsAs (want : UInt8) : Returns env (updateModeReadsAs cfg want) s := by
  refine avoids_bind (returns_request _ _ _) fun reply s => ?_
  refine returns_ite (fun _ => ?_) fun _ => returns_pure _
  refine returns_ite (fun _ => returns_pure _) fun _ => ?_
  refine avoids_bind (returns_get _) fun major s => ?_
  exact returns_ite (fun _ => returns_pure _) fun _ => returns_diagUptime

theorem returns_updateModeLoop {want : UInt8} {timeoutMs pollMs : UInt32} {fuel : Nat} {waited : UInt32}
    (hreach : Reaches timeoutMs waited (UPDATE_MODE_POLL_MS + pollMs) fuel) :
    Returns env (updateModeLoop cfg want timeoutMs pollMs fuel waited) s := by
  induction fuel generalizing waited s with
  | zero =>
      obtain ⟨k, hk, -⟩ := hreach
      omega
  | succ fuel ih =>
      rw [updateModeLoop]
      refine avoids_bind (returns_updateModeReadsAs _) fun back s => ?_
      refine returns_ite (fun _ => returns_pure _) fun _ => ?_
      refine returns_ite (fun _ => returns_pure _) fun hmore => ?_
      exact avoids_bind (returns_delay _) fun _ s => ih (hreach.next hmore)

end Budgets

section Calls

-- Whether an update repeats a request until it is answered or its deadline has passed.
def Opcode.repeated : Opcode → Bool
  | .otaStatus | .otaAbort | .otaFinish | .otaPromote => true
  | _ => false

-- Each of these calls comes to an end.
def Repeats (env : Env bridge S) (cfg : Config) : Prop :=
  ∀ cmd rxCap timeoutMs s, cmd.repeated = true → Returns env (pollByRepeat cfg cmd [] rxCap timeoutMs) s

theorem returns_otaStatus (hrepeats : Repeats env cfg) (timeoutMs : UInt32) (s : S) :
    Returns env (otaStatus cfg timeoutMs) s := by
  refine avoids_bind (hrepeats _ _ _ _ rfl) fun reply s => ?_
  obtain ⟨status, reply⟩ := reply
  cases status with
  | error err => exact returns_pure _
  | ok _ => exact returns_ite (fun _ => returns_pure _) fun _ => returns_pure _

theorem returns_otaSettledAs (hrepeats : Repeats env cfg) (hfuel : 1200 < cfg.fuel) (want : UInt8)
    (timeoutMs : UInt32) : Returns env (otaSettledAs cfg want timeoutMs) s :=
  returns_settleLoop (returns_otaStatus hrepeats _) (reaches_settle timeoutMs hfuel)

theorem returns_nextReqSeq (s : S) : Returns env nextReqSeq s := by
  refine avoids_bind (returns_get _) fun ready s => ?_
  refine returns_ite (fun _ => ?_) fun _ => returns_pure _
  refine avoids_bind (returns_get _) fun seq s => ?_
  exact avoids_bind (returns_set _ _) fun _ s => returns_get _

theorem returns_otaBegin (hrepeats : Repeats env cfg) (hfuel : 1200 < cfg.fuel) (totalLen timeoutMs : UInt32) :
    Returns env (otaBegin cfg totalLen timeoutMs) s := by
  have hsettled (s : S) : Returns env (otaSettledAs cfg OTA_STATE_WRITING timeoutMs) s :=
    returns_otaSettledAs hrepeats hfuel _ _
  refine avoids_bind (returns_get _) fun polled s => ?_
  refine returns_ite (fun _ => ?_) fun _ => returns_pure _
  refine avoids_bind (returns_request _ _ _) fun reply s => ?_
  refine returns_when (returns_delay _) fun _ s => ?_
  refine avoids_bind (hsettled s) fun settled s => ?_
  cases settled with
  | ok _ => exact returns_pure _
  | error err =>
      cases err with
      | io => exact returns_pure _
      | _ =>
          refine returns_ite (fun _ => ?_) fun _ => returns_pure _
          refine avoids_bind (returns_delay _) fun _ s => ?_
          refine avoids_bind (hsettled s) fun settled s => ?_
          split <;> exact returns_pure _

theorem returns_updateModeConfirmed (enable : Bool) : Returns env (updateModeConfirmed enable) s := by
  refine avoids_bind (returns_set _ _) fun _ s => ?_
  refine returns_when (returns_set _ _) fun _ s => ?_
  exact returns_ite (fun _ => returns_note _) fun _ => returns_pure _

theorem returns_otaUpdateMode {timeoutMs : UInt32} (hfinite : timeoutMs ≠ 0xFFFFFFFF)
    (hfuel : 2 ^ 31 ≤ cfg.fuel) (enable : Bool) : Returns env (otaUpdateMode cfg enable timeoutMs) s := by
  have hconfirmed (s : S) : Returns env (do updateModeConfirmed enable; pure (.ok ()) : Driver Status) s :=
    avoids_bind (returns_updateModeConfirmed _) fun _ _ => returns_pure _
  refine avoids_bind (returns_get _) fun ready s => ?_
  refine returns_ite (fun _ => ?_) fun _ => returns_pure _
  have hopen (s : S) : Returns env (do
      if ← updateModeReadsAs cfg (if enable then 1 else 0) then
        updateModeConfirmed enable
        pure (.ok ())
      else
        delay UPDATE_MODE_SETTLE_MS
        let pollMs := min timeoutMs UPDATE_MODE_POLL_TIMEOUT_MS
        if ← updateModeLoop cfg (if enable then 1 else 0) timeoutMs pollMs cfg.fuel 0 then
          updateModeConfirmed enable
          pure (.ok ())
        else
          note .sessionLeft
          set .peerPolled false
          let _ ← hardReset cfg
          set .otaSessionActive false
          pure (.error .timeout) : Driver Status) s := by
    refine avoids_bind (returns_updateModeReadsAs _) fun back s => ?_
    refine returns_ite (fun _ => hconfirmed s) fun _ => ?_
    refine avoids_bind (returns_delay _) fun _ s => ?_
    refine avoids_bind (returns_updateModeLoop (reaches_updateMode hfinite hfuel)) fun back s => ?_
    refine returns_ite (fun _ => hconfirmed s) fun _ => ?_
    refine avoids_bind (returns_note _) fun _ s => ?_
    refine avoids_bind (returns_set _ _) fun _ s => ?_
    refine avoids_bind returns_hardReset fun _ s => ?_
    exact avoids_bind (returns_set _ _) fun _ s => returns_pure _
  exact returns_ite (fun _ => avoids_bind (returns_set _ _) fun _ s => hopen s) fun _ =>
    avoids_bind (returns_note _) fun _ s => hopen s

theorem returns_otaWriteFrame (offset : UInt32) (data : List UInt8) :
    Returns env (otaWriteFrame cfg offset data) s :=
  avoids_bind (returns_request _ _ _) fun _ _ => returns_pure _

theorem returns_otaWriteSplit (rounds : Nat) (offset : UInt32) (data : List UInt8) :
    Returns env (otaWriteSplit cfg rounds offset data) s := by
  induction rounds generalizing offset data s with
  | zero => exact returns_pure _
  | succ rounds ih =>
      refine returns_ite (fun _ => returns_pure _) fun _ => ?_
      refine avoids_bind (returns_otaWriteFrame _ _) fun st s => ?_
      cases st with
      | error err => exact returns_pure _
      | ok _ => exact ih _ _

theorem returns_otaWrite (offset : UInt32) (data : List UInt8) :
    Returns env (otaWrite cfg offset data) s := by
  refine returns_ite (fun _ => returns_pure _) fun _ => ?_
  refine avoids_bind (returns_get _) fun polled s => ?_
  exact returns_ite (fun _ => returns_otaWriteSplit _ _ _) fun _ => returns_otaWriteFrame _ _

theorem returns_otaAbort (hrepeats : Repeats env cfg) (timeoutMs : UInt32) :
    Returns env (otaAbort cfg timeoutMs) s :=
  avoids_bind (hrepeats _ _ _ _ rfl) fun _ _ => returns_pure _

theorem returns_otaFinish (hrepeats : Repeats env cfg) (hfuel : 1200 < cfg.fuel) (timeoutMs : UInt32) :
    Returns env (otaFinish cfg timeoutMs) s := by
  have hconfirmed (s : S) : Returns env (do otaFinishConfirmed; pure (.ok ()) : Driver Status) s := by
    refine avoids_bind ?_ fun _ _ => returns_pure _
    refine avoids_bind (returns_note _) fun _ s => ?_
    exact avoids_bind (returns_set _ _) fun _ s => returns_set _ _
  refine avoids_bind (hrepeats _ _ _ _ rfl) fun reply s => ?_
  refine returns_ite (fun _ => hconfirmed s) fun _ => ?_
  refine avoids_bind (returns_otaSettledAs hrepeats hfuel _ _) fun settled s => ?_
  split
  case h_1 => exact hconfirmed s
  all_goals exact returns_pure _

theorem returns_otaPromote (hrepeats : Repeats env cfg) (timeoutMs : UInt32) :
    Returns env (otaPromote cfg timeoutMs) s := by
  refine avoids_bind (returns_otaStatus hrepeats _ _) fun st s => ?_
  cases st with
  | error err => exact returns_pure _
  | ok st =>
      refine returns_ite (fun _ => ?_) fun _ => ?_
      · refine avoids_bind (hrepeats _ _ _ _ rfl) fun reply s => ?_
        refine returns_ite (fun _ => ?_) fun _ => returns_pure _
        refine avoids_bind (returns_note _) fun _ s => ?_
        exact avoids_bind (returns_set _ _) fun _ s => returns_pure _
      · exact returns_ite (fun _ => returns_pure _) fun _ => returns_pure _

theorem returns_chunkTaken (hrepeats : Repeats env cfg) (expect timeoutMs : UInt32) :
    Returns env (chunkTaken cfg expect timeoutMs) s := by
  refine avoids_bind (returns_otaStatus hrepeats _ _) fun st s => ?_
  cases st with
  | error err => exact returns_pure _
  | ok st => exact returns_pure _

section Update

variable {timeoutMs : UInt32} (hfinite : timeoutMs ≠ 0xFFFFFFFF) (hrepeats : Repeats env cfg)

include hfinite

theorem returns_otaUpdateBail (hfuel : 2 ^ 31 ≤ cfg.fuel) (err : AlpError) :
    Returns env (otaUpdateBail cfg err timeoutMs) s :=
  avoids_bind (returns_otaUpdateMode hfinite hfuel _) fun _ _ => returns_pure _

include hrepeats

theorem returns_otaUpdateAbort (hfuel : 2 ^ 31 ≤ cfg.fuel) (err : AlpError) :
    Returns env (otaUpdateAbort cfg err timeoutMs) s :=
  avoids_bind (returns_otaAbort hrepeats _) fun _ _ => returns_otaUpdateBail hfinite hfuel err

-- A round moves the cursor or counts a stall, and the eighth stall in a row is the last.
theorem returns_streamLoop (hcfg : 2 ^ 31 ≤ cfg.fuel) {image : List UInt8} {chunk : Nat} (hchunk : 0 < chunk)
    {fuel off stalled : Nat} (hstalled : stalled < 8) (hfuel : 8 * (image.length - off) + (8 - stalled) < fuel) :
    Returns env (streamLoop cfg image chunk timeoutMs fuel off stalled) s := by
  have hmax : OTA_STALL_MAX = 8 := rfl
  induction fuel generalizing off stalled s with
  | zero => omega
  | succ fuel ih =>
      rw [streamLoop]
      refine returns_ite (fun hmore => ?_) fun _ => returns_pure _
      have hon (s : S) : Returns env
          (streamLoop cfg image chunk timeoutMs fuel (off + min (image.length - off) chunk) 0) s :=
        ih (by omega) (by omega)
      refine avoids_bind (returns_otaWrite _ _) fun st s => ?_
      cases st with
      | ok _ => exact hon s
      | error err =>
          refine returns_ite (fun _ => ?_) fun _ => ?_
          · refine avoids_bind (returns_flushLoop (returns_otaStatus hrepeats _)
              (reaches_flush timeoutMs (by omega))) fun landed s => ?_
            cases landed with
            | error err => exact returns_otaUpdateAbort hfinite hrepeats hcfg _
            | ok landed =>
                cases landed with
                | true => exact hon s
                | false =>
                    refine returns_ite (fun _ => returns_otaUpdateAbort hfinite hrepeats hcfg _) fun hagain => ?_
                    exact ih (by omega) (by omega)
          · refine avoids_bind (returns_chunkTaken hrepeats _ _) fun taken s => ?_
            exact returns_ite (fun _ => hon s) fun _ => returns_otaUpdateAbort hfinite hrepeats hcfg _

theorem returns_otaUpdate (hfuel : 2 ^ 36 ≤ cfg.fuel) (image : List UInt8) :
    Returns env (otaUpdate cfg image timeoutMs) s := by
  refine returns_ite (fun _ => returns_pure _) fun hfits => ?_
  refine avoids_bind (returns_otaUpdateMode hfinite (by omega) _) fun entered s => ?_
  cases entered with
  | error err => exact returns_pure _
  | ok _ =>
      refine avoids_bind (returns_otaBegin hrepeats (by omega) _ _) fun begun s => ?_
      cases begun with
      | error err => exact returns_otaUpdateBail hfinite (by omega) _
      | ok _ =>
          refine avoids_bind (returns_get _) fun polled s => ?_
          have hchunk : 0 < if polled = true then POLLED_OTA_CHUNK else 256 := by
            split <;> decide
          refine avoids_bind (returns_streamLoop hfinite hrepeats (by omega) hchunk (by omega)
            (by omega)) fun streamed s => ?_
          cases streamed with
          | error err => exact returns_pure _
          | ok _ =>
              refine avoids_bind (returns_otaFinish hrepeats (by omega) _) fun finished s => ?_
              cases finished with
              | error err => exact returns_otaUpdateBail hfinite (by omega) _
              | ok _ => exact returns_otaPromote hrepeats _

end Update

end Calls

-- A call whose loops all end, whatever the device does: enough rounds are never used up.
def Ends (call : Config → Driver Status) : Prop :=
  ∀ (S : Type) (env : Env bridge S) (cfg : Config) (s : S), ∃ rounds, ∀ fuel ≥ rounds,
    Repeats env { cfg with fuel := fuel } → Returns env (call { cfg with fuel := fuel }) s

section Silent

-- A device that answers nothing, while the clock is past every deadline.
def silent : Env bridge Unit := fun _ cmd reply _ =>
  match cmd, reply with
  | .clock _ _, failed => failed = some AlpError.io
  | .uptime, now => now = 0xFFFFFFFFFFFFFFFF
  | _, _ => True

def patient (fuel : Nat) : Config := { board with autoRecover := false, fuel := fuel }

def inSession (active : Bool) : Link Unit := ⟨{ bootedCtx with otaSessionActive := active }, ()⟩

variable {active : Bool} {fuel : Nat}

theorem exec_silent {ctx : Ctx} {cmd : Cmd} {next : bridge.Reply cmd → Driver α} {out : Option α} {s' : Link Unit}
    (reply : bridge.Reply cmd) (hgives : ctx.Gives cmd reply) (hsilent : silent () cmd reply ())
    (hrest : Exec (alone silent) ⟨ctx.after cmd reply, ()⟩ (next reply) out s') :
    Exec (alone silent) ⟨ctx, ()⟩ (.call cmd next) out s' :=
  .step ⟨hgives, rfl, hsilent⟩ hrest

-- The request fails with its first transfer, and the lock is free again.
theorem exec_silent_readsAs (want : UInt8) :
    Exec (alone silent) (inSession active) (updateModeReadsAs (patient fuel) want) (some false)
      (inSession active) := by
  refine exec_silent true rfl trivial ?_
  refine exec_silent 4 rfl trivial ?_
  refine exec_silent true rfl trivial ?_
  refine exec_silent 4 rfl trivial ?_
  refine exec_silent (some .io) trivial rfl ?_
  refine exec_silent () trivial trivial ?_
  exact .done _ _

-- What is charged stays even, so it never reaches the largest budget.
theorem not_returns_updateModeLoop {want : UInt8} {waited : UInt32} (heven : waited.toNat % 2 = 0) (rounds : Nat) :
    ¬ Returns (alone silent) (updateModeLoop (patient fuel) want 0xFFFFFFFF UPDATE_MODE_POLL_TIMEOUT_MS rounds waited)
      (inSession active) := by
  induction rounds generalizing waited with
  | zero => exact fun h => h.1 trivial
  | succ rounds ih =>
      intro h
      rw [updateModeLoop] at h
      have hagain := avoids_rest h (exec_silent_readsAs want)
      have hmore : ¬ (0xFFFFFFFF : UInt32) ≤ waited := by
        rw [UInt32.le_iff_toNat_le]
        have hlast : (0xFFFFFFFF : UInt32).toNat = 0xFFFFFFFF := rfl
        have hlt := waited.toNat_lt
        omega
      have hcharged : (waited + (UPDATE_MODE_POLL_MS + UPDATE_MODE_POLL_TIMEOUT_MS)).toNat % 2 = 0 := by
        have hstep : (UPDATE_MODE_POLL_MS + UPDATE_MODE_POLL_TIMEOUT_MS).toNat = 1450 := rfl
        rw [UInt32.toNat_add, hstep]
        omega
      rw [if_neg (by decide), if_neg hmore] at hagain
      exact ih hcharged (hagain.2 () _ ⟨trivial, rfl, trivial⟩)

theorem not_returns_otaUpdateMode (enable : Bool) :
    ¬ Returns (alone silent) (otaUpdateMode (patient fuel) enable 0xFFFFFFFF) (inSession false) := by
  intro h
  have hopen := h.2 true (inSession false) ⟨rfl, rfl, trivial⟩
  have hloop : ∃ active, Returns (alone silent) (updateModeLoop (patient fuel) (if enable then 1 else 0)
      0xFFFFFFFF UPDATE_MODE_POLL_TIMEOUT_MS fuel 0) (inSession active) := by
    cases enable with
    | true =>
        have hsent := hopen.2 () (inSession true) ⟨trivial, rfl, trivial⟩
        have hfailed := avoids_rest (p := updateModeReadsAs (patient fuel) 1) hsent (exec_silent_readsAs 1)
        exact ⟨true, avoids_of_bind (hfailed.2 () (inSession true) ⟨trivial, rfl, trivial⟩)⟩
    | false =>
        have hsent := hopen.2 () (inSession false) ⟨trivial, rfl, trivial⟩
        have hfailed := avoids_rest (p := updateModeReadsAs (patient fuel) 0) hsent (exec_silent_readsAs 0)
        exact ⟨false, avoids_of_bind (hfailed.2 () (inSession false) ⟨trivial, rfl, trivial⟩)⟩
  obtain ⟨active, hloop⟩ := hloop
  exact not_returns_updateModeLoop rfl fuel hloop

theorem returns_pollWait_silent {deadlineMs : UInt64} {gap : Nat} {next : Bool → Driver α} {s : Link Unit}
    (hlate : ∀ s, Returns (alone silent) (next false) s) :
    Returns (alone silent) (pollWait deadlineMs gap >>= next) s := by
  refine ⟨nofun, fun now s' hnow => ?_⟩
  obtain rfl : now = 0xFFFFFFFFFFFFFFFF := hnow.2.2
  have hpast : deadlineMs ≤ 0xFFFFFFFFFFFFFFFF := by
    rw [UInt64.le_iff_toNat_le]
    exact Nat.le_of_lt_succ deadlineMs.toNat_lt
  change Returns _ ((if deadlineMs ≤ 0xFFFFFFFFFFFFFFFF then pure false else do
    delay (min (deadlineMs - 0xFFFFFFFFFFFFFFFF).toNat gap)
    pure true) >>= next) s'
  rw [if_pos hpast]
  exact hlate s'

-- The one round of a repeated request is its last: the deadline is behind the clock.
theorem repeats_silent : Repeats (alone silent) (patient (fuel + 1)) := by
  intro cmd rxCap timeoutMs s _
  have hexit (status : Status) (noStatus : Bool) (s : Link Unit) :
      Returns (alone silent) (pollExit (patient (fuel + 1)) status noStatus) s :=
    returns_ite (fun _ => returns_pure _) fun _ => returns_pure _
  have hleave (status : Status) (noStatus : Bool) (data : List UInt8) (s : Link Unit) :
      Returns (alone silent) (do
        let status ← pollExit (patient (fuel + 1)) status noStatus
        pure (status, data) : Driver (Status × List UInt8)) s :=
    avoids_bind (hexit status noStatus s) fun _ _ => returns_pure _
  refine avoids_bind (returns_nextReqSeq s) fun seq s => ?_
  refine avoids_bind (returns_get _) fun ready s => ?_
  refine returns_ite (fun _ => ?_) fun _ => returns_pure _
  refine avoids_bind (avoids_bind (returns_get _) fun _ _ => returns_pure _) fun fitting s => ?_
  refine returns_ite (fun _ => ?_) fun _ => returns_pure _
  refine avoids_bind (returns_perform nofun) fun nowMs s => ?_
  refine avoids_bind returns_lockAcquire fun locked s => ?_
  cases locked with
  | error err => exact returns_pure _
  | ok _ =>
      refine avoids_bind (p := handleCurrent none) trivial fun current s => ?_
      refine returns_ite (fun _ => ?_) fun _ => avoids_bind (returns_set _ _) fun _ s => returns_pure _
      refine avoids_bind (returns_requestLocked _ _) fun answer s => ?_
      refine avoids_bind (returns_set _ _) fun _ s => ?_
      refine returns_ite (fun _ => hleave _ _ _ s) fun _ => ?_
      refine returns_ite (fun _ => ?_) fun _ => ?_
      · exact returns_when (returns_delay _) fun _ s => hleave _ _ _ s
      · exact returns_pollWait_silent fun s => hleave _ _ _ s

theorem not_ends_of_silent {call : Config → Driver Status}
    (h : ∀ fuel, ¬ Returns (alone silent) (call (patient fuel)) (inSession false)) : ¬ Ends call := by
  intro hends
  obtain ⟨rounds, hrounds⟩ := hends _ (alone silent) (patient 0) (inSession false)
  exact h (rounds + 1) (hrounds (rounds + 1) (by omega) repeats_silent)

theorem not_ends_otaUpdateMode (enable : Bool) : ¬ Ends fun cfg => otaUpdateMode cfg enable 0xFFFFFFFF :=
  not_ends_of_silent fun _ => not_returns_otaUpdateMode enable

-- The update hangs where it enters the boot for it.
theorem not_ends_otaUpdate {image : List UInt8} (hempty : image.length ≠ 0) (hfits : image.length < 2 ^ 32) :
    ¬ Ends fun cfg => otaUpdate cfg image 0xFFFFFFFF := by
  refine not_ends_of_silent fun fuel h => ?_
  rw [otaUpdate, if_neg (by omega)] at h
  exact not_returns_otaUpdateMode true (avoids_of_bind h)

end Silent

-- `waited` is a 32-bit sum of the same even step, so it passes every budget but the largest.
theorem ota_calls_end (timeoutMs : UInt32) :
    (∀ enable, Ends (fun cfg => otaUpdateMode cfg enable timeoutMs) ↔ timeoutMs ≠ 0xFFFFFFFF) ∧
    (∀ totalLen, Ends fun cfg => otaBegin cfg totalLen timeoutMs) ∧
    ∀ image, Ends (fun cfg => otaUpdate cfg image timeoutMs) ↔
      timeoutMs ≠ 0xFFFFFFFF ∨ image.length = 0 ∨ 2 ^ 32 ≤ image.length := by
  refine ⟨fun enable => ⟨fun h => ?_, fun hfinite => ?_⟩, fun totalLen => ?_, fun image => ⟨fun h => ?_, fun h => ?_⟩⟩
  · rintro rfl
    exact not_ends_otaUpdateMode enable h
  · exact fun S env cfg s => ⟨2 ^ 31, fun fuel hfuel _ => returns_otaUpdateMode hfinite hfuel enable⟩
  · exact fun S env cfg s => ⟨1201, fun fuel hfuel hrepeats => returns_otaBegin hrepeats hfuel totalLen timeoutMs⟩
  · by_contra hbad
    obtain ⟨hlast, hempty, hfits⟩ : timeoutMs = 0xFFFFFFFF ∧ image.length ≠ 0 ∧ image.length < 2 ^ 32 := by
      simpa only [not_or, not_not, not_le] using hbad
    subst hlast
    exact not_ends_otaUpdate hempty hfits h
  · intro S env cfg s
    by_cases hbad : image.length = 0 ∨ 2 ^ 32 ≤ image.length
    · exact ⟨0, fun fuel _ _ => returns_ite (fun _ => returns_pure _) fun hfits => absurd hbad hfits⟩
    · have hfinite : timeoutMs ≠ 0xFFFFFFFF := h.resolve_right hbad
      exact ⟨2 ^ 36, fun fuel hfuel hrepeats => returns_otaUpdate hfinite hrepeats hfuel image⟩

-- A device that has gone silent is polled for ever, where the caller gives the largest budget.
theorem silent_update_never_ends :
    ¬ Ends (fun cfg => otaUpdateMode cfg true 0xFFFFFFFF) ∧ ¬ Ends fun cfg => otaUpdate cfg [0] 0xFFFFFFFF :=
  ⟨not_ends_otaUpdateMode true, not_ends_otaUpdate (by decide) (by decide)⟩

end AlpSdk.Cc3501e
