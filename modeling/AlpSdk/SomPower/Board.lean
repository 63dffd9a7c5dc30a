import AlpSdk.SomPower

-- The board under the layer: the control pads and registers of the domains, the record store
-- and the two STOP witnesses.
namespace AlpSdk.SomPower

open Library.Local
open Library.Effect (Env Handler)

-- The control points of one domain. The two RV-3028 registers are those of the RTC domain.
@[ext] structure Pads where
  line : Line → Bool
  conf : BitVec 16
  control1 : UInt8
  clkout : UInt8

def Pads.drive (p : Pads) (line : Line) (asserted : Bool) : Pads :=
  { p with line := Function.update p.line line asserted }

def Pads.rtcReg (p : Pads) (reg : UInt8) : Option UInt8 :=
  if reg = RV3028_REG_CONTROL_1 then some p.control1
  else if reg = RV3028_REG_EE_CLKOUT then some p.clkout
  else none

def Pads.rtcSet (p : Pads) (reg value : UInt8) : Pads :=
  if reg = RV3028_REG_CONTROL_1 then { p with control1 := value }
  else if reg = RV3028_REG_EE_CLKOUT then { p with clkout := value }
  else p

-- `taken` is the policy and the control points that a domain had when a quiesce last found it
-- ACTIVE, `asking` the domain whose saved bit a quiesce is reading, and `restores` the restore
-- actions so far.
structure Board where
  pads : Domain → Pads
  stored : Record
  valid : Bool
  stopStat : Bool
  coreOff : Bool
  taken : Domain → Policy × Pads
  asking : Option Domain
  restores : List (Domain × Bool × Bool)

def Board.setPads (b : Board) (d : Domain) (p : Pads) : Board :=
  { b with pads := Function.update b.pads d p }

@[simp] theorem setPads_pads {b : Board} (d : Domain) (p : Pads) : (b.setPads d p).pads d = p := by
  simp [Board.setPads]

theorem setPads_pads_of_ne {b : Board} {c d : Domain} (h : c ≠ d) (p : Pads) :
    (b.setPads d p).pads c = b.pads c := by
  simp [Board.setPads, h]

@[simp] theorem setPads_setPads {b : Board} (d : Domain) (p q : Pads) :
    (b.setPads d p).setPads d q = b.setPads d q := by
  simp [Board.setPads]

@[simp] theorem setPads_same {b : Board} (d : Domain) : b.setPads d (b.pads d) = b := by
  simp [Board.setPads]

def Board.record (b : Board) : Note → Board
  | .taking d state policy =>
      { b with
        taken := if state = .active then Function.update b.taken d (policy, b.pads d) else b.taken
        asking := some d }
  | .asked => { b with asking := none }
  | .restoring d railOff prior => { b with restores := b.restores ++ [(d, railOff, prior)] }

-- What the board can do on a command. A drive or a write that reports an error may have been
-- done or not, a read gives the value or an error, and bound driver hooks may do anything to the
-- control points of their own domain.
def Board.allows (b : Board) : (cmd : Cmd) → board.Reply cmd → Board → Prop
  | .ready _ _, _, b' | .padsApply, _, b' | .i2cReady _, _, b' | .wait _ _, _, b' => b' = b
  | .padRead _ _, _, b' | .syndromeTake, _, b' => b' = b
  | .wakeDecodeEarly _, _, b' | .wakeDecodeI2c _, _, b' => b' = b
  | .configure d line asserted, reply, b' =>
      b' = b.setPads d ((b.pads d).drive line asserted) ∨ (reply = false ∧ b' = b)
  | .pinGet d line, reply, b' => b' = b ∧ (reply = none ∨ reply = some ((b.pads d).line line))
  | .confRead d, reply, b' => b' = b ∧ (reply = none ∨ reply = some (b.pads d).conf)
  | .confWrite d value, reply, b' =>
      b' = b.setPads d { b.pads d with conf := value } ∨ (reply = false ∧ b' = b)
  | .rtcRead reg, reply, b' => b' = b ∧ (reply = none ∨ reply = (b.pads .rtc).rtcReg reg)
  | .rtcWrite reg value, reply, b' =>
      b' = b.setPads .rtc ((b.pads .rtc).rtcSet reg value) ∨ (reply = false ∧ b' = b)
  | .hookQuiesce d _, _, b' | .hookRestore d _ _, _, b' => ∃ p, b' = b.setPads d p
  | .storeLoad, reply, b' => b' = b ∧ reply = (b.stored, b.valid)
  | .storeSave rec, _, b' => b' = { b with stored := rec, valid := true }
  | .storeClear, _, b' => b' = { b with stored := .zero, valid := false }
  | .coreOffTake, reply, b' => b' = { b with coreOff := false } ∧ reply = b.coreOff
  | .stopModeRead, reply, b' => b' = b ∧ reply = b.stopStat
  | .stopModeStatClear, _, b' => b' = { b with stopStat := false } ∨ b' = b
  | .note n, _, b' => b' = b.record n

abbrev soc : Env (issuing board Ram) Board := fun b i reply b' => b.allows i.cmd reply b'

-- The board on which every operation succeeds and no driver hook is bound, with the wake decode
-- that does nothing.
def Board.answer (b : Board) : (cmd : Cmd) → board.Reply cmd × Board
  | .ready _ _ | .i2cReady _ => (true, b)
  | .padsApply => (.ok (), b)
  | .configure d line asserted => (true, b.setPads d ((b.pads d).drive line asserted))
  | .padRead d line | .pinGet d line => (some ((b.pads d).line line), b)
  | .confRead d => (some (b.pads d).conf, b)
  | .confWrite d value => (true, b.setPads d { b.pads d with conf := value })
  | .rtcRead reg => ((b.pads .rtc).rtcReg reg, b)
  | .rtcWrite reg value => (true, b.setPads .rtc ((b.pads .rtc).rtcSet reg value))
  | .wait _ _ => ((), b)
  | .hookQuiesce d _ | .hookRestore d _ _ => (.ok (), b.setPads d (b.pads d))
  | .storeLoad => ((b.stored, b.valid), b)
  | .storeSave rec => ((), { b with stored := rec, valid := true })
  | .storeClear => ((), { b with stored := .zero, valid := false })
  | .syndromeTake => (0, b)
  | .coreOffTake => (b.coreOff, { b with coreOff := false })
  | .stopModeRead => (b.stopStat, b)
  | .stopModeStatClear => (true, { b with stopStat := false })
  | .wakeDecodeEarly rec => (rec, b)
  | .wakeDecodeI2c rec => ((true, rec), b)
  | .note n => ((), b.record n)

abbrev healthy : Handler (issuing board Ram) Board := fun i b => b.answer i.cmd

theorem answer_allowed (b : Board) (cmd : Cmd) : b.allows cmd (b.answer cmd).1 (b.answer cmd).2 := by
  cases cmd with
  | configure d line asserted => exact .inl rfl
  | confWrite d value => exact .inl rfl
  | rtcWrite reg value => exact .inl rfl
  | pinGet d line => exact ⟨rfl, .inr rfl⟩
  | confRead d => exact ⟨rfl, .inr rfl⟩
  | rtcRead reg => exact ⟨rfl, .inr rfl⟩
  | hookQuiesce d railOff => exact ⟨_, rfl⟩
  | hookRestore d railOff early => exact ⟨_, rfl⟩
  | storeLoad => exact ⟨rfl, rfl⟩
  | coreOffTake => exact ⟨rfl, rfl⟩
  | stopModeRead => exact ⟨rfl, rfl⟩
  | stopModeStatClear => exact .inl rfl
  | _ => exact rfl

theorem healthy_allowed (i : Issued board Ram) (b : Board) : soc b i (healthy i b).1 (healthy i b).2 :=
  answer_allowed b i.cmd

-- A command on any board that does nothing but what is allowed.
theorem wp_perform {env : Env (issuing board Ram) Board} {J : Board → Prop} {E : Prop} {α : Type} {cmd : Cmd}
    {f : board.Reply cmd → Layer α} {Q : α → Ram → Board → Prop} {ram : Ram} {b : Board}
    (hsub : ∀ b i reply b', env b i reply b' → soc b i reply b') (hJ : J b)
    (h : ∀ reply b', b.allows cmd reply b' → wp env J E (f reply) Q ram b') :
    wp env J E (perform cmd >>= f) Q ram b :=
  wp_issue_bind hJ fun reply b' henv => h reply b' (hsub _ _ _ _ henv)

-- The commands by which one domain is quiesced or restored.
def Cmd.Drives (d : Domain) : Cmd → Prop
  | .ready _ _ | .padsApply | .padRead _ _ | .pinGet _ _ | .i2cReady _ | .confRead _ | .rtcRead _ => True
  | .wait _ _ => True
  | .configure d' _ _ | .confWrite d' _ | .hookQuiesce d' _ | .hookRestore d' _ _ => d' = d
  | .rtcWrite _ _ => d = .rtc
  | _ => False

-- Nothing but the control points of one domain differs.
def Board.Only (d : Domain) (b b' : Board) : Prop := ∃ p, b' = b.setPads d p

-- Nothing but the note that the pads are applied differs.
def Ram.Applies (ram ram' : Ram) : Prop := ∃ applied, ram' = { ram with padsApplied := applied }

instance (d : Domain) : IsPreorder Board (Board.Only d) where
  refl b := ⟨b.pads d, (setPads_same d).symm⟩
  trans b b' b'' := by
    rintro ⟨p, rfl⟩ ⟨q, rfl⟩
    exact ⟨q, setPads_setPads d p q⟩

instance : IsPreorder Ram Ram.Applies where
  refl ram := ⟨ram.padsApplied, rfl⟩
  trans ram ram' ram'' := by
    rintro ⟨p, rfl⟩ ⟨q, rfl⟩
    exact ⟨q, rfl⟩

theorem drives_step {d : Domain} {b b' : Board} {cmd : Cmd} {reply : board.Reply cmd} (h : cmd.Drives d)
    (henv : b.allows cmd reply b') : Board.Only d b b' := by
  have hsame : ∀ b'' : Board, b'' = b → Board.Only d b b'' := by
    intro b'' heq
    rw [heq]
    exact refl b
  cases cmd with
  | configure d' line asserted =>
      cases h
      cases henv with
      | inl hset => exact ⟨_, hset⟩
      | inr hskip => exact hsame _ hskip.2
  | confWrite d' value =>
      cases h
      cases henv with
      | inl hset => exact ⟨_, hset⟩
      | inr hskip => exact hsame _ hskip.2
  | rtcWrite reg value =>
      cases h
      cases henv with
      | inl hset => exact ⟨_, hset⟩
      | inr hskip => exact hsame _ hskip.2
  | hookQuiesce d' railOff =>
      cases h
      exact henv
  | hookRestore d' railOff early =>
      cases h
      exact henv
  | ready d' line => exact hsame _ henv
  | padsApply => exact hsame _ henv
  | padRead d' line => exact hsame _ henv
  | pinGet d' line => exact hsame _ henv.1
  | i2cReady d' => exact hsame _ henv
  | confRead d' => exact hsame _ henv.1
  | rtcRead reg => exact hsame _ henv.1
  | wait ms early => exact hsame _ henv
  | _ => exact h.elim

-- A piece of the layer that touches only the control points of one domain.
abbrev Drives {α : Type} (d : Domain) (m : Layer α) : Prop := Confined (Cmd.Drives d) Ram.Applies m

section Drives

variable {d : Domain}

theorem drives_waitMs (ms : Nat) (early : Bool) : Drives d (waitMs ms early) := .issue trivial

theorem drives_padsApplied : Drives d padsApplied := by
  refine .get fun ram => .ite (.pure _) (.bind (.issue trivial) fun s => ?_)
  cases s with
  | error err => exact .pure _
  | ok _ => exact .bind (.modify fun ram => ⟨true, rfl⟩) fun _ => .pure _

theorem drives_pinAssert (line : Line) (asserted : Bool) : Drives d (pinAssert d line asserted) := by
  refine .bind (.issue trivial) fun ready => .ite (.bind drives_padsApplied fun s => ?_) (.pure _)
  cases s with
  | error err => exact .pure _
  | ok _ =>
      refine .bind (.issue rfl) fun done => .ite (.bind (.issue trivial) fun seen => ?_) (.pure _)
      cases seen with
      | none => exact .pure _
      | some level => exact .pure _

theorem drives_tmp112Shutdown (shutdown : Bool) : Drives d (tmp112Shutdown d shutdown) := by
  refine .bind (.issue trivial) fun ready => .ite (.bind (.issue trivial) fun conf => ?_) (.pure _)
  cases conf with
  | none => exact .pure _
  | some conf => exact .bind (.issue rfl) fun done => .ite (.pure _) (.pure _)

theorem drives_rtcUpdate (reg mask value : UInt8) : Drives .rtc (rtcUpdate reg mask value) := by
  refine .bind (.issue trivial) fun old => ?_
  cases old with
  | none => exact .pure _
  | some old => exact .ite (.pure _) (.issue rfl)

theorem drives_rv3028Eerd (pause : Bool) : Drives .rtc (rv3028Eerd pause) :=
  .bind (.issue trivial) fun _ =>
    .ite (.bind (drives_rtcUpdate _ _ _) fun _ => .ite (.pure _) (.pure _)) (.pure _)

theorem drives_rv3028ClkoutOff : Drives .rtc rv3028ClkoutOff := by
  refine .bind (.issue trivial) fun ready => .ite (.bind (.issue trivial) fun v => ?_) (.pure _)
  cases v with
  | none => exact .pure _
  | some v => exact .bind (.issue rfl) fun done => .ite (drives_rv3028Eerd true) (.pure _)

variable (cfg : Config)

theorem drives_pinQuiesce (railOff : Bool) : Drives d (pinQuiesce cfg d railOff) := by
  refine .ite (.pure _) (.ite (.bind (drives_pinAssert _ _) fun s => ?_) ?_)
  · cases s with
    | error err => exact .pure _
    | ok _ => exact drives_pinAssert _ _
  · split
    · exact drives_pinAssert _ _
    · exact drives_pinAssert _ _
    · exact drives_pinAssert _ _
    · exact drives_tmp112Shutdown _
    · split
      · rename_i hrtc
        subst hrtc
        exact drives_rv3028ClkoutOff
      · exact .pure _
    · exact .pure _

theorem drives_releaseReset (early : Bool) : Drives d (releaseReset d early) := by
  refine .bind (drives_pinAssert _ _) fun s => ?_
  cases s with
  | error err => exact .pure _
  | ok _ =>
      refine .ite (.ite (.bind (drives_waitMs _ _) fun _ => .pure _) (.pure _)) ?_
      exact .bind (drives_waitMs _ _) fun _ => .pure _

theorem drives_releasePowerdown (early : Bool) : Drives d (releasePowerdown cfg d early) := by
  refine .bind (drives_pinAssert _ _) fun s => ?_
  cases s with
  | error err => exact .pure _
  | ok _ =>
      have hsettle : ∀ _ : Unit, Drives d (do
          waitMs (if early then PHY_SETTLE_EARLY else PHY_SETTLE_MS) early
          pure (.ok ()) : Layer Status) :=
        fun _ => .bind (drives_waitMs _ _) fun _ => .pure _
      refine .bind (drives_waitMs _ _) fun _ => .ite (.bind (drives_pinAssert _ _) fun s => ?_) (hsettle ())
      cases s with
      | error err => exact hsettle ()
      | ok _ =>
          exact .bind (drives_waitMs _ _) fun _ => .bind (drives_pinAssert _ _) fun _ => hsettle ()

theorem drives_releaseAction (early prior : Bool) : Drives d (releaseAction cfg d early prior) := by
  unfold releaseAction
  split
  · exact drives_releaseReset _
  · exact drives_releasePowerdown cfg _
  · exact drives_pinAssert _ _
  · exact drives_tmp112Shutdown _
  · split
    · rename_i hrtc
      subst hrtc
      exact drives_rv3028Eerd _
    · exact .pure _
  · exact .pure _

theorem drives_pinRestore (railOff early prior : Bool) : Drives d (pinRestore cfg d railOff early prior) := by
  refine .ite (.pure _) (.ite (.bind (drives_pinAssert _ _) fun s => ?_) (drives_releaseAction cfg _ _))
  cases s with
  | error err => exact .pure _
  | ok _ => exact .bind (drives_waitMs _ _) fun _ => drives_releaseAction cfg _ _

theorem drives_runQuiesce (railOff : Bool) : Drives d (runQuiesce cfg d railOff) :=
  .get fun _ => .ite (.issue rfl) (drives_pinQuiesce cfg _)

-- A restore after it has been noted.
def restoreAction (d : Domain) (railOff early prior : Bool) : Layer Status := do
  let ram ← get
  if (ram.hooks d).any Hooks.restore then perform (Cmd.hookRestore d railOff early)
  else if (cfg.reg d).action = .enableLow ∧ !prior then pure (.ok ())
  else pinRestore cfg d railOff early prior

theorem drives_restoreAction (railOff early prior : Bool) : Drives d (restoreAction cfg d railOff early prior) :=
  .get fun _ => .ite (.issue rfl) (.ite (.pure _) (drives_pinRestore cfg _ _ _))

theorem runRestore_eq (railOff early prior : Bool) :
    runRestore cfg d railOff early prior =
      (note (.restoring d railOff prior) >>= fun _ => restoreAction cfg d railOff early prior) := rfl

end Drives

end AlpSdk.SomPower
