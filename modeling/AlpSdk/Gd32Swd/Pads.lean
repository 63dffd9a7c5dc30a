import AlpSdk.Gd32Swd.Reset
import Mathlib.Logic.Relation

-- P70 and P71 are driven only at a core that does not run, over all sequences of calls.
namespace AlpSdk.Gd32Swd

open Library.Local
open Library.Effect (Exec)

-- The pads as a session under reset has them: SWCLK is driven, and the direction of SWDIO is known.
def Wired (c : Ctx) (b : Board) : Prop := b.dir .swclk = .output ∧ Tracks c b

theorem Carried.wired {c c' : Ctx} {b b' : Board} (h : Carried c c' b b') (hwired : Wired c b) : Wired c' b' :=
  ⟨h.swclk.trans hwired.1, h.tracks hwired.2⟩

theorem Wired.of_dir {c c' : Ctx} {b b' : Board} (hwired : Wired c b)
    (htold : c'.swdioIsOutput = c.swdioIsOutput) (hdir : ∀ pad, pad ≠ .nrst → b'.dir pad = b.dir pad) :
    Wired c' b' := by
  have hclk := hdir .swclk (by decide)
  have hdio := hdir .swdio (by decide)
  refine ⟨hclk.trans hwired.1, fun hdriven hsaid => ?_⟩
  rw [hdio]
  exact hwired.2 (hclk ▸ hdriven) (htold ▸ hsaid)

-- Between two calls: a session has its pads, and its core does not run.
structure Inv (c : Ctx) (b : Board) : Prop where
  sound : Sound b
  opened : c.initialised = true → c.swclk = true ∧ c.swdio = true
  session : c.initialised = true → c.connected = true → b.Held ∨ b.core.halted = true
  wired : c.initialised = true → c.nrstHeld = true → Wired c b

theorem inv_zero {b : Board} (h : Sound b) : Inv .zero b := ⟨h, nofun, nofun, nofun⟩

section Calls

variable {faults : Faults} {c : Ctx} {b : Board}

theorem ready_setDir {pad : Pad} (hpad : pad ≠ .nrst) (hb : Ready b) (dir : Dir) : Ready (b.setDir pad dir) := by
  rw [setDir_other hpad]
  exact hb.of_same (Function.update_of_ne hpad.symm _ _) rfl rfl

theorem wp_write {pad : Pad} (hpad : pad ≠ .nrst) (level : Bool) (hb : Ready b) :
    wp (board faults) Sound False (perform (.write pad level))
      (fun _ c' b' => c' = c ∧ b'.dir = b.dir ∧ b'.core = b.core ∧ Ready b') c b := by
  refine wp_issue hb.toSound fun reply b' hreply => ?_
  obtain ⟨-, rfl⟩ | ⟨-, -, rfl⟩ := hreply
  · rw [setLevel_other hpad]
    have hready : Ready { b with level := Function.update b.level pad level } :=
      hb.of_same rfl (Function.update_of_ne hpad.symm _ _) rfl
    exact ⟨hready.toSound, rfl, rfl, rfl, hready⟩
  · exact ⟨hb.toSound, rfl, rfl, rfl, hb⟩

theorem wp_driveIdle (hb : Ready b) :
    wp (board faults) Sound False driveIdle (fun s c' b' =>
      (∃ isOutput, c' = { c with swdioIsOutput := isOutput }) ∧ b'.core = b.core
        ∧ (s = .ok () → Wired c' b')) c b := by
  refine wp_issue_bind hb.toSound fun reply b₁ hreply => ?_
  obtain ⟨rfl, rfl⟩ | ⟨-, hfailed, rfl⟩ := hreply
  · have hb₁ := ready_setDir (show Pad.swclk ≠ .nrst by decide) hb .output
    rw [setDir_other (by decide)] at hb₁ ⊢
    refine wp_issue_bind hb₁.toSound fun reply b₂ hreply => ?_
    obtain ⟨rfl, rfl⟩ | ⟨-, hfailed, rfl⟩ := hreply
    · have hb₂ := ready_setDir (show Pad.swdio ≠ .nrst by decide) hb₁ .output
      rw [setDir_other (by decide)] at hb₂ ⊢
      refine wp_modify_bind ?_
      refine wp_seq (wp_write (by decide) true hb₂) ?_
      rintro s _ b₃ _ ⟨rfl, hdir₃, hcore₃, hb₃⟩
      have hwired : ∀ b' : Board, b'.dir = b₃.dir → Wired { c with swdioIsOutput := true } b' := by
        intro b' hdir
        rw [Wired, Tracks, hdir, hdir₃]
        exact ⟨rfl, fun _ _ => rfl⟩
      cases s with
      | error err =>
          refine wp_pure hb₃.toSound ⟨⟨true, rfl⟩, hcore₃, fun hok => ?_⟩
          cases hok
      | ok value =>
          refine wp_mono (wp_write (by decide) true hb₃) ?_
          rintro s _ b₄ _ ⟨rfl, hdir₄, hcore₄, -⟩
          exact ⟨⟨true, rfl⟩, hcore₄.trans hcore₃, fun _ => hwired b₄ hdir₄⟩
    · cases reply with
      | ok value => exact absurd rfl hfailed
      | error err =>
          refine wp_pure hb₁.toSound ⟨⟨c.swdioIsOutput, rfl⟩, rfl, fun hok => ?_⟩
          cases hok
  · cases reply with
    | ok value => exact absurd rfl hfailed
    | error err =>
        refine wp_pure hb.toSound ⟨⟨c.swdioIsOutput, rfl⟩, rfl, fun hok => ?_⟩
        cases hok

theorem inv_initUnderReset (hb : Ready b) (hopened : c.swclk = true ∧ c.swdio = true)
    (hclosed : c.connected = false) (h : b.core.armed = true ∨ faults.toInput = false) :
    wp (board faults) Sound False initUnderReset (fun _ c' b' => Inv c' b') c b := by
  refine wp_seq (wp_driveIdle hb) ?_
  rintro s _ b₁ hsound ⟨⟨isOutput, rfl⟩, hcore, hwired⟩
  cases s with
  | error err =>
      refine wp_seq (wp_swdPadsToInputs hsound) ?_
      rintro _ _ b₂ hsound₂ ⟨rfl, heased, hinputs⟩
      have hrelease : b₂.core.armed = true ∨ ¬ b₂.Driving := by
        refine heased.releasable (fun hsure => hinputs hsure hopened.1 hopened.2) ?_
        rw [hcore]
        exact h.imp_right Or.inr
      refine wp_seq (wp_swdNrstRelease hsound₂ hrelease) fun _ c₃ b₃ hsound₃ _ => ?_
      refine wp_mono (wp_endSession _ hsound₃) ?_
      rintro _ _ b₄ hsound₄ rfl
      exact inv_zero hsound₄
  | ok value =>
      refine wp_modify_bind (wp_pure hsound ⟨hsound, fun _ => hopened, fun _ hconnected => ?_, ?_⟩)
      · simp [hclosed] at hconnected
      · exact fun _ _ => hwired rfl

theorem inv_init (hb : Sound b)
    (hassert : faults.assert = true → b.core.armed = true ∨ ¬ b.Driving)
    (hinput : b.core.armed = true ∨ faults.toInput = false) (hinv : Inv c b) :
    wp (board faults) Sound False init (fun _ c' b' => Inv c' b') c b := by
  refine wp_issue_bind hb fun supported b₁ (hreply : b₁ = b) => ?_
  subst hreply
  split
  case isTrue => exact wp_pure hb hinv
  case isFalse =>
    refine wp_modify_bind (wp_issue_bind hb fun _ b₂ (hreply : b₂ = b₁) => ?_)
    subst hreply
    refine wp_issue_bind hb fun swdio b₃ (hreply : b₃ = b₂) => ?_
    subst hreply
    refine wp_issue_bind hb fun swclk b₄ (hreply : b₄ = b₃) => ?_
    subst hreply
    refine wp_issue_bind hb fun nrst b₅ (hreply : b₅ = b₄) => ?_
    subst hreply
    refine wp_modify_bind ?_
    have hend : ∀ (s : Status) (c' : Ctx) (b' : Board), Sound b' →
        wp (board faults) Sound False (endSession s) (fun _ c' b' => Inv c' b') c' b' := by
      intro s c' b' hb'
      refine wp_mono (wp_endSession s hb') ?_
      rintro _ _ b'' hsound rfl
      exact inv_zero hsound
    split
    case isTrue => exact hend _ _ _ hb
    case isFalse hpads =>
      simp only [Bool.not_eq_true', Bool.not_eq_false, Bool.and_eq_true] at hpads
      refine wp_seq (wp_swdNrstAssert hb hassert) fun s c₁ b₁ hsound hasserted => ?_
      obtain ⟨rfl, rfl, rfl⟩ | ⟨hfailed, _⟩ := hasserted
      · refine inv_initUnderReset Board.ready_asserted ⟨hpads.1.2, hpads.1.1⟩ rfl ?_
        rw [Board.asserted_core]
        exact hinput
      · cases s with
        | ok value => exact absurd rfl hfailed
        | error err => exact hend _ _ _ hsound

theorem gentle_awaitVector {t : Prop} (rounds : Nat) : Gentle t False (awaitVector rounds) := by
  induction rounds with
  | zero => exact Gentle.pure _
  | succ rounds ih =>
      refine Gentle.bind (gentle_swdMemRead32 _) fun r => ?_
      cases r with
      | error err => exact Gentle.pure _
      | ok dhcsr => exact Gentle.ite (Gentle.pure _) ih

theorem gentle_connectDp {t : Prop} : Gentle t False connectDp := by
  refine Gentle.bind (gentle_swdReadDp _) fun r => ?_
  cases r with
  | error err => exact Gentle.pure _
  | ok idcode =>
      refine Gentle.ite (Gentle.pure _) ?_
      exact Gentle.bind (Gentle.modify_idcode idcode) fun _ => gentle_swdPowerUpDebug

-- What a call leaves of a session when it has only transferred.
theorem Inv.after_carried {c' : Ctx} {b' : Board} (hinv : Inv c b) (hready : Ready b')
    (hcarried : Carried c c' b b') : Inv c' b' := by
  have hwired := hcarried.wired
  obtain ⟨⟨isOutput, idcode, rfl⟩, _⟩ := hcarried
  exact ⟨hready.toSound, hinv.opened, fun _ _ => hready.quiet,
    fun hstarted hheld => hwired (hinv.wired hstarted hheld)⟩

theorem inv_leaveReset (hb : Ready b) (hopened : c.initialised = true → c.swclk = true ∧ c.swdio = true)
    (harmed : b.core.armed = true) (hwired : Wired c b) (hbits : faults.bits = false) :
    wp (board faults) Sound False leaveReset (fun _ c' b' => Inv c' b') c b := by
  refine wp_seq (wp_swdNrstRelease hb.toSound (Or.inl harmed)) ?_
  rintro _ _ b₁ hsound ⟨rfl, hreleased⟩
  -- released, the core halts at its vector
  have hready : Ready b₁ ∧ b₁.core.armed = true ∧ ∀ pad, pad ≠ .nrst → b₁.dir pad = b.dir pad := by
    obtain rfl | rfl := hreleased
    · exact ⟨hb, harmed, fun _ _ => rfl⟩
    · refine ⟨⟨hsound, Or.inr ?_⟩, Board.released_armed.trans harmed, fun _ => Board.released_dir⟩
      rw [Board.released_core]
      split
      case isTrue => exact harmed
      case isFalse hheld => exact hb.quiet.resolve_left hheld
  obtain ⟨hready, harmed, hdir⟩ := hready
  have hwired : Wired { c with nrstHeld := false } b₁ := hwired.of_dir rfl hdir
  refine wp_seq ((gentle_awaitVector 64).loose _ hready hbits) fun seen c₂ b₂ hsound₂ hstill => ?_
  have hready₂ := hstill.ready hready
  have hwired₂ := hstill.wired hwired
  obtain ⟨⟨⟨isOutput, idcode, rfl⟩, _, _, _, _⟩, hcore, _⟩ := hstill
  split
  case isTrue => exact wp_pure hsound₂ ⟨hsound₂, hopened, fun _ _ => hready₂.quiet, nofun⟩
  case isFalse =>
    have hassert : b₂.core.armed = true ∨ ¬ b₂.Driving := by
      rw [hcore]
      exact Or.inl harmed
    refine wp_seq (wp_swdNrstAssert hsound₂ fun _ => hassert) ?_
    rintro s c₃ b₃ hsound₃ (⟨-, rfl, rfl⟩ | ⟨-, hfailed⟩)
    · refine wp_modify_bind (wp_pure hsound₃ ⟨hsound₃, hopened, nofun, fun _ _ => ?_⟩)
      exact hwired₂.of_dir rfl fun _ => Board.asserted_dir
    · obtain rfl := hfailed.ctx
      exact wp_modify_bind (wp_pure hsound₃ ⟨hsound₃, hopened, nofun, nofun⟩)

-- A write to the core in reset.
theorem ready_underReset (hb : Ready b) (hheld : b.Held) (core : Core) : Ready { b with core := core } :=
  ready_of_quiet hb.low (fun h => absurd hheld h) (Or.inl hheld)

-- Where the clock is driven and no acknowledged write is lost, the word is in the core.
theorem MemWritten.arrived {addr value : UInt32} {core : Core} (hsure : faults.Sure c b)
    (hclk : b.dir .swclk = .output) (h : MemWritten faults addr value c b (.ok ()) core) :
    core = b.core.memWrite addr value := by
  obtain ⟨-, hlose⟩ | ⟨-, -, addr', haddr, rfl⟩ := h
  · exact absurd hclk (hlose rfl hsure.1 hsure.2)
  · obtain rfl | hlose := haddr
    · rfl
    · exact absurd hclk (hlose hsure.1 hsure.2)

-- A register of the core written under reset.
theorem wp_armed_write {addr value : UInt32} (hb : Ready b) (hheld : b.Held) (hwired : Wired c b)
    (hbits : faults.bits = false) (hturn : faults.toOutput = false) :
    wp (board faults) Sound False (swdMemWrite32 addr value) (fun s c' b' =>
      Carried c c' b b' ∧ Ready b' ∧ (s = .ok () → b'.core = b.core.memWrite addr value)) c b := by
  refine wp_mono (wp_swdMemWrite32 hb hbits fun _ _ _ => ready_underReset hb hheld _) ?_
  rintro s c' b' _ ⟨core, hwritten, hstill⟩
  have hcarried : Carried c c' b b' :=
    ⟨hstill.ctx, hstill.nrstDir, hstill.nrstLevel, hstill.swclk, hstill.tracks⟩
  refine ⟨hcarried, hcarried.ready hb hheld, ?_⟩
  rintro rfl
  rw [hstill.core]
  exact hwritten.arrived ⟨hturn, hwired.2⟩ hwired.1

theorem inv_connectUnderReset (hinv : Inv c b) (hb : Ready b) (hheld : b.Held) (hwired : Wired c b)
    (hbits : faults.bits = false) (hturn : faults.toOutput = false) :
    wp (board faults) Sound False connectUnderReset (fun _ c' b' => Inv c' b') c b := by
  refine wp_seq (wp_armed_write hb hheld hwired hbits hturn) ?_
  rintro s c₁ b₁ hsound₁ ⟨hcarried₁, hb₁, hdebug⟩
  have hinv₁ := hinv.after_carried hb₁ hcarried₁
  cases s with
  | error err => exact wp_pure hsound₁ hinv₁
  | ok value =>
      have hheld₁ := hcarried₁.held.mpr hheld
      have hwired₁ := hcarried₁.wired hwired
      refine wp_seq (wp_armed_write hb₁ hheld₁ hwired₁ hbits hturn) ?_
      rintro s c₂ b₂ hsound₂ ⟨hcarried₂, hb₂, hvector⟩
      have hinv₂ := hinv₁.after_carried hb₂ hcarried₂
      cases s with
      | error err => exact wp_pure hsound₂ hinv₂
      | ok value =>
          refine inv_leaveReset hb₂ hinv₂.opened ?_ (hcarried₂.wired hwired₁) hbits
          rw [hvector rfl, hdebug rfl]
          rfl

-- `connect` is safe at a core that stays in reset or that nothing on the wires can make run.
def ConnectPermitted (faults : Faults) (c : Ctx) (b : Board) : Prop :=
  (b.Held ∧ (c.nrstHeld = true → faults.bits = false ∧ faults.toOutput = false))
    ∨ (b.core.halted = true ∧ c.nrstHeld = false ∧ faults.bits = false)

theorem inv_connect (hinv : Inv c b) (hperm : c.initialised = true → ConnectPermitted faults c b) :
    wp (board faults) Sound False connect (fun _ c' b' => Inv c' b') c b := by
  refine wp_get_bind ?_
  split
  case isTrue => exact wp_pure hinv.sound hinv
  case isFalse hstarted =>
    have hstarted : c.initialised = true := by simpa using hstarted
    have hperm := hperm hstarted
    have hb : Ready b := ⟨hinv.sound, hperm.imp And.left And.left⟩
    -- the three sequences, the identification and the power-up are transfers
    have hsafe : b.Held ∨ (faults.bits = false ∧ (False → faults.Sure c b)) :=
      hperm.imp And.left fun h => ⟨h.2.2, nofun⟩
    have hlater : ∀ {c' : Ctx} {b' : Board}, Carried c c' b b' →
        b'.Held ∨ (faults.bits = false ∧ (False → faults.Sure c' b')) :=
      fun h => hsafe.imp h.held.mpr fun h => ⟨h.1, nofun⟩
    refine wp_seq (gentle_swdLineReset (k := False).safely hb hsafe) fun _ c₁ b₁ _ ⟨h₁, hb₁⟩ => ?_
    refine wp_seq (gentle_swdJtagToSwdSwitch (k := False).safely hb₁ (hlater h₁))
      fun _ c₂ b₂ _ ⟨h₂, hb₂⟩ => ?_
    have h₂ := h₁.trans h₂
    refine wp_seq (gentle_swdLineReset (k := False).safely hb₂ (hlater h₂)) fun _ c₃ b₃ _ ⟨h₃, hb₃⟩ => ?_
    have h₃ := h₂.trans h₃
    refine wp_seq (gentle_connectDp.safely hb₃ (hlater h₃)) fun s c₄ b₄ hsound ⟨h₄, hb₄⟩ => ?_
    have h₄ := h₃.trans h₄
    have hinv₄ := hinv.after_carried hb₄ h₄
    cases s with
    | error err => exact wp_pure hsound hinv₄
    | ok value =>
        have hinv' : Inv { c₄ with connected := true } b₄ :=
          ⟨hsound, hinv₄.opened, fun _ _ => hb₄.quiet, hinv₄.wired⟩
        refine wp_modify_bind (wp_get_bind ?_)
        split
        case isTrue hflag =>
          have hflag : c.nrstHeld = true := by
            obtain ⟨isOutput, idcode, rfl⟩ := h₄.ctx
            exact hflag
          obtain ⟨hheld, hsure⟩ | ⟨-, hreleased, -⟩ := hperm
          · obtain ⟨hbits, hturn⟩ := hsure hflag
            have hwired := h₄.wired (hinv.wired hstarted hflag)
            exact inv_connectUnderReset hinv' hb₄ (h₄.held.mpr hheld) hwired hbits hturn
          · rw [hreleased] at hflag
            cases hflag
        case isFalse => exact wp_pure hsound hinv'

-- The calls on a session work on a core that does not run.
theorem inv_inSession {code : Swd Status} (hinv : Inv c b)
    (hcode : c.initialised = true → c.connected = true → Ready b →
      wp (board faults) Sound False code (fun _ c' b' => Inv c' b') c b) :
    wp (board faults) Sound False (inSession code) (fun _ c' b' => Inv c' b') c b := by
  refine wp_get_bind ?_
  split
  case isTrue => exact wp_pure hinv.sound hinv
  case isFalse hstarted =>
    split
    case isTrue => exact wp_pure hinv.sound hinv
    case isFalse hconnected =>
      simp only [Bool.not_eq_true', Bool.not_eq_false] at hstarted hconnected
      exact hcode hstarted hconnected ⟨hinv.sound, hinv.session hstarted hconnected⟩

theorem inv_gentle {t : Prop} {code : Swd Status} (hinv : Inv c b) (hcode : Gentle t False code)
    (hperm : c.initialised = true → c.connected = true →
      b.Held ∨ (faults.bits = false ∧ (t → faults.Sure c b))) :
    wp (board faults) Sound False (inSession code) (fun _ c' b' => Inv c' b') c b := by
  refine inv_inSession hinv fun hstarted hconnected hb => ?_
  refine wp_mono (hcode.safely hb (hperm hstarted hconnected)) ?_
  rintro _ c' b' _ ⟨hcarried, hready⟩
  exact hinv.after_carried hready hcarried

theorem gentle_awaitHalt {t : Prop} (rounds : Nat) : Gentle t False (awaitHalt rounds) := by
  induction rounds with
  | zero => exact Gentle.pure _
  | succ rounds ih =>
      refine Gentle.bind (gentle_swdMemRead32 _) fun r => ?_
      cases r with
      | error err => exact Gentle.pure _
      | ok dhcsr => exact Gentle.ite (Gentle.pure _) ih

-- The word that `halt` writes, at whatever address it arrives.
theorem armed_memWrite_halt {core : Core} (harmed : core.armed = true) (hhalted : core.halted = true)
    (addr : UInt32) :
    (core.memWrite addr (CM_DHCSR_DBGKEY ||| CM_DHCSR_C_HALT ||| CM_DHCSR_C_DEBUGEN)).armed = true
      ∧ (core.memWrite addr (CM_DHCSR_DBGKEY ||| CM_DHCSR_C_HALT ||| CM_DHCSR_C_DEBUGEN)).halted = true := by
  rw [Core.armed, Bool.and_eq_true] at harmed
  unfold Core.memWrite
  split
  case isTrue =>
    rw [if_pos (by decide)]
    refine ⟨?_, rfl⟩
    rw [Core.armed, harmed.2]
    rfl
  case isFalse =>
    split
    case isTrue =>
      refine ⟨?_, hhalted⟩
      rw [Core.armed, harmed.1]
      rfl
    case isFalse =>
      refine ⟨?_, hhalted⟩
      rw [Core.armed, harmed.1, harmed.2]
      rfl

theorem ready_halting (hb : Ready b) (addr : UInt32) :
    Ready { b with
      core := b.core.memWrite addr (CM_DHCSR_DBGKEY ||| CM_DHCSR_C_HALT ||| CM_DHCSR_C_DEBUGEN) } := by
  by_cases hheld : b.Held
  · exact ready_underReset hb hheld _
  · have hhalted := hb.quiet.resolve_left hheld
    obtain ⟨harmed, hstopped⟩ := armed_memWrite_halt (hb.atVector hheld hhalted) hhalted addr
    exact ready_of_quiet hb.low (fun _ _ => harmed) (Or.inr hstopped)

theorem inv_halt (hinv : Inv c b)
    (hperm : c.initialised = true → c.connected = true → b.Held ∨ faults.bits = false) :
    wp (board faults) Sound False halt (fun _ c' b' => Inv c' b') c b := by
  refine inv_inSession hinv fun hstarted hconnected hb => ?_
  have hwrite : wp (board faults) Sound False
      (swdMemWrite32 CM_DHCSR (CM_DHCSR_DBGKEY ||| CM_DHCSR_C_HALT ||| CM_DHCSR_C_DEBUGEN))
      (fun _ c' b' => Carried c c' b b' ∧ Ready b') c b := by
    obtain hheld | hbits := hperm hstarted hconnected
    · exact kept_swdMemWrite32 _ _ faults c b hb hheld
    · refine wp_mono (wp_swdMemWrite32 hb hbits fun addr _ _ => ready_halting hb addr) ?_
      rintro s c' b' _ ⟨core, hwritten, hstill⟩
      have hready : Ready { b with core := core } := by
        obtain ⟨rfl, -⟩ | ⟨-, -, addr, -, rfl⟩ := hwritten
        · exact hb
        · exact ready_halting hb addr
      exact ⟨⟨hstill.ctx, hstill.nrstDir, hstill.nrstLevel, hstill.swclk, hstill.tracks⟩, hstill.ready hready⟩
  refine wp_seq hwrite ?_
  rintro s c₁ b₁ hsound ⟨hcarried, hb₁⟩
  have hinv₁ := hinv.after_carried hb₁ hcarried
  cases s with
  | error err => exact wp_pure hsound hinv₁
  | ok value =>
      have hsafe : b₁.Held ∨ (faults.bits = false ∧ (False → faults.Sure c₁ b₁)) :=
        (hperm hstarted hconnected).imp hcarried.held.mpr fun hbits => ⟨hbits, nofun⟩
      refine wp_mono ((gentle_awaitHalt 1024).safely hb₁ hsafe) ?_
      rintro _ c₂ b₂ _ ⟨hcarried₂, hb₂⟩
      exact hinv₁.after_carried hb₂ hcarried₂

theorem gentle_fmcBusyLoop {t : Prop} (rounds : Nat) : Gentle t False (fmcBusyLoop rounds) := by
  induction rounds with
  | zero => exact Gentle.pure _
  | succ rounds ih =>
      refine Gentle.bind (gentle_swdMemRead32 _) fun r => ?_
      cases r with
      | error err => exact Gentle.pure _
      | ok sr => exact Gentle.ite (Gentle.pure _) ih

theorem gentle_fmcUnlock : Gentle True False fmcUnlock := by
  refine Gentle.bind (gentle_swdMemWrite32 (by decide) _) fun s => ?_
  cases s with
  | error err => exact Gentle.pure _
  | ok value => exact gentle_swdMemWrite32 (by decide) _

theorem gentle_fmcLock : Gentle True False fmcLock := by
  refine Gentle.bind (gentle_swdMemRead32 _) fun r => ?_
  cases r with
  | error err => exact Gentle.pure _
  | ok cr => exact gentle_swdMemWrite32 (by decide) _

theorem gentle_orLock {step next : Swd Status} (hstep : Gentle True False step)
    (hnext : Gentle True False next) : Gentle True False (orLock step next) := by
  refine Gentle.bind hstep fun s => ?_
  cases s with
  | error err => exact Gentle.bind gentle_fmcLock fun _ => Gentle.pure _
  | ok value => exact hnext

theorem gentle_eraseSectors (count : Nat) (sec : UInt32) : Gentle True False (eraseSectors count sec) := by
  have hbusy : Gentle True False fmcWaitBusy := gentle_fmcBusyLoop _
  induction count generalizing sec with
  | zero => exact gentle_fmcLock
  | succ count ih =>
      refine gentle_orLock hbusy (gentle_orLock (gentle_swdMemWrite32 (by decide) _) ?_)
      exact gentle_orLock (gentle_swdMemWrite32 (by decide) _) (gentle_orLock hbusy (ih _))

-- The debug block lies at the top of the address space.
theorem elsewhere_of_lt {addr : UInt32} (h : addr.toNat < 0xE0000000) : Elsewhere addr := by
  refine ⟨?_, ?_⟩
  · rintro rfl
    simp [CM_DHCSR] at h
  · rintro rfl
    simp [CM_DEMCR] at h

theorem gentle_writeDoublewords (count : Nat) (addr : UInt32) (data : List UInt8)
    (h : addr.toNat + 8 * count < 0xE0000000) : Gentle True False (writeDoublewords count addr data) := by
  induction count generalizing addr data with
  | zero =>
      exact Gentle.bind (gentle_swdMemWrite32 (by decide) _) fun _ => gentle_fmcLock
  | succ count ih =>
      have hhigh : (addr + 4).toNat = addr.toNat + 4 := by
        rw [UInt32.toNat_add]
        have : (4 : UInt32).toNat = 4 := rfl
        omega
      have hnext : (addr + 8).toNat = addr.toNat + 8 := by
        rw [UInt32.toNat_add]
        have : (8 : UInt32).toNat = 8 := rfl
        omega
      refine gentle_orLock (gentle_swdMemWrite32 (elsewhere_of_lt (by omega)) _) ?_
      refine gentle_orLock (gentle_swdMemWrite32 (elsewhere_of_lt (by omega)) _) ?_
      exact gentle_orLock (gentle_fmcBusyLoop _) (ih _ _ (by omega))

theorem gentle_verifyWords {t : Prop} (count : Nat) (addr : UInt32) (data : List UInt8) :
    Gentle t False (verifyWords count addr data) := by
  induction count generalizing addr data with
  | zero => exact Gentle.pure _
  | succ count ih =>
      refine Gentle.bind (gentle_swdMemRead32 _) fun r => ?_
      cases r with
      | error err => exact Gentle.pure _
      | ok word => exact Gentle.ite (Gentle.pure _) (ih _ _)

theorem flashRange_bound {addr : UInt32} {len : Nat} (h : flashRangeValid addr len = true) :
    addr.toNat + len ≤ 0x08080000 := by
  unfold flashRangeValid at h
  obtain ⟨-, hbase, hoffset, hlen⟩ := of_decide_eq_true h
  rw [UInt32.toNat_sub_of_le _ _ (UInt32.le_of_lt hoffset), UInt32.toNat_sub_of_le _ _ hbase] at hlen
  rw [UInt32.lt_iff_toNat_lt, UInt32.toNat_sub_of_le _ _ hbase] at hoffset
  rw [UInt32.le_iff_toNat_le] at hbase
  have : FMC_FLASH_BASE.toNat = 0x08000000 := rfl
  have : FMC_FLASH_BYTES.toNat = 0x80000 := rfl
  omega

theorem inv_flashErase (addr size : UInt32) (hinv : Inv c b)
    (hperm : c.initialised = true → c.connected = true →
      b.Held ∨ (faults.bits = false ∧ faults.Sure c b)) :
    wp (board faults) Sound False (flashErase addr size) (fun _ c' b' => Inv c' b') c b := by
  refine inv_gentle (t := True) hinv (Gentle.ite (Gentle.pure _) ?_) ?_
  case refine_2 => exact fun hs hc => (hperm hs hc).imp_right fun h => ⟨h.1, fun _ => h.2⟩
  refine Gentle.bind gentle_fmcUnlock fun s => ?_
  cases s with
  | error err => exact Gentle.pure _
  | ok value => exact gentle_eraseSectors _ _

theorem inv_flashWrite (addr : UInt32) (data : List UInt8) (hinv : Inv c b)
    (hperm : c.initialised = true → c.connected = true →
      b.Held ∨ (faults.bits = false ∧ faults.Sure c b)) :
    wp (board faults) Sound False (flashWrite addr data) (fun _ c' b' => Inv c' b') c b := by
  refine inv_gentle (t := True) hinv ?_ ?_
  case refine_2 => exact fun hs hc => (hperm hs hc).imp_right fun h => ⟨h.1, fun _ => h.2⟩
  split
  case isTrue => exact Gentle.pure _
  case isFalse hvalid =>
    have hbound : addr.toNat + data.length ≤ 0x08080000 := by
      refine flashRange_bound ?_
      by_contra hout
      exact hvalid (Or.inr (Or.inr (by simpa using hout)))
    refine Gentle.bind gentle_fmcUnlock fun s => ?_
    cases s with
    | error err => exact Gentle.pure _
    | ok value =>
        refine gentle_orLock (gentle_swdMemWrite32 (by decide) _) ?_
        exact gentle_writeDoublewords _ _ _ (by omega)

theorem inv_flashVerify (addr : UInt32) (data : List UInt8) (hinv : Inv c b)
    (hperm : c.initialised = true → c.connected = true → b.Held ∨ faults.bits = false) :
    wp (board faults) Sound False (flashVerify addr data) (fun _ c' b' => Inv c' b') c b := by
  refine inv_gentle (t := False) hinv (Gentle.ite (Gentle.pure _) (gentle_verifyWords _ _ _)) ?_
  exact fun hstarted hconnected => (hperm hstarted hconnected).imp_right fun hbits => ⟨hbits, nofun⟩

-- The reset of an idle or an armed core, or one that cannot go wrong.
theorem inv_resetPulse (hinv : Inv c b) (hstarted : c.initialised = true)
    (hassert : faults.assert = true → b.core.armed = true ∨ ¬ b.Driving)
    (hinput : b.core.armed = true ∨ ¬ b.Driving ∨ faults.toInput = false)
    (hconnected : c.connected = true → faults.assert = false) :
    wp (board faults) Sound False resetPulse (fun _ c' b' => Inv c' b') c b := by
  refine wp_seq (wp_swdNrstAssert hinv.sound hassert) ?_
  rintro s c₁ b₁ hsound (⟨rfl, rfl, rfl⟩ | ⟨hfailed, hrefused⟩)
  · refine wp_seq (wp_swdPadsToInputs hsound) ?_
    rintro _ _ b₂ hsound₂ ⟨rfl, heased, hinputs⟩
    have hpads := hinv.opened hstarted
    have hrelease : b₂.core.armed = true ∨ ¬ b₂.Driving := by
      refine heased.releasable (fun hsure => hinputs hsure hpads.1 hpads.2) ?_
      rw [Board.asserted_core, Board.asserted_driving]
      exact hinput
    refine wp_seq (wp_swdNrstRelease hsound₂ hrelease) ?_
    rintro _ _ b₃ hsound₃ ⟨rfl, -⟩
    exact wp_modify_bind (wp_pure hsound₃ ⟨hsound₃, hinv.opened, nofun, nofun⟩)
  · cases s with
    | ok value => exact absurd rfl hfailed
    | error err =>
        obtain rfl := hrefused.ctx
        refine wp_pure hsound ⟨hsound, hinv.opened, fun _ hopen => ?_, fun _ hheld => ?_⟩
        · exact absurd hrefused.fault (by simp [hconnected hopen])
        · exact (hinv.wired hstarted hheld).of_dir rfl hrefused.dir

-- Giving debug up under reset leaves the core in reset.
theorem kept_disarm : Kept disarm :=
  Kept.bind (kept_swdMemWrite32 _ _) fun _ => Kept.bind (kept_swdMemWrite32 _ _) fun _ => Kept.pure _

-- `reset_and_run` is safe on a core that no longer has debug, or where nothing is left to go wrong.
def ResetPermitted (faults : Faults) (c : Ctx) (b : Board) : Prop :=
  (c.connected = false ∧ (b.core.armed = true ∨ ¬ b.Driving))
    ∨ ((c.connected = true → b.Held) ∧ faults.assert = false ∧ faults.toInput = false)

theorem inv_resetAndRun (hinv : Inv c b) (hperm : c.initialised = true → ResetPermitted faults c b) :
    wp (board faults) Sound False resetAndRun (fun _ c' b' => Inv c' b') c b := by
  refine wp_get_bind ?_
  split
  case isTrue => exact wp_pure hinv.sound hinv
  case isFalse hstarted =>
    have hstarted : c.initialised = true := by simpa using hstarted
    have hperm := hperm hstarted
    split
    case isTrue hconnected =>
      obtain ⟨hclosed, -⟩ | ⟨hheld, hassert, hinput⟩ := hperm
      · simp [hclosed] at hconnected
      · have hheld := hheld hconnected
        refine wp_seq (kept_disarm faults c b ⟨hinv.sound, Or.inl hheld⟩ hheld) ?_
        rintro _ c₁ b₁ hsound ⟨hcarried, hready⟩
        have hinv₁ := hinv.after_carried hready hcarried
        have hstarted₁ : c₁.initialised = true := by
          obtain ⟨isOutput, idcode, rfl⟩ := hcarried.ctx
          exact hstarted
        refine inv_resetPulse hinv₁ hstarted₁ ?_ (Or.inr (Or.inr hinput)) fun _ => hassert
        intro hfault
        simp [hassert] at hfault
    case isFalse hclosed =>
      have hnever : c.connected = true → faults.assert = false := fun h => absurd h hclosed
      obtain ⟨-, hidle⟩ | ⟨-, hassert, hinput⟩ := hperm
      · exact inv_resetPulse hinv hstarted (fun _ => hidle) (hidle.imp_right Or.inl) hnever
      · refine inv_resetPulse hinv hstarted ?_ (Or.inr (Or.inr hinput)) hnever
        intro hfault
        simp [hassert] at hfault

theorem inv_deinit (hinv : Inv c b)
    (hperm : c.initialised = true → b.Held → b.Driving →
      b.core.armed = true ∨ faults.toInput = false) :
    wp (board faults) Sound False deinit (fun _ c' b' => Inv c' b') c b := by
  have hclear : ∀ (c' : Ctx) (b' : Board), Sound b' →
      wp (board faults) Sound False (modify fun ctx : Ctx =>
        { ctx with
          initialised := false
          connected := false
          swdio := false
          swclk := false
          nrst := false
          plat := false }) (fun _ c'' b'' => Inv c'' b'') c' b' :=
    fun c' b' hsound => wp_modify hsound ⟨hsound, nofun, nofun, nofun⟩
  refine wp_get_bind ?_
  split
  case isFalse => exact hclear _ _ hinv.sound
  case isTrue hstarted =>
    have hpads := hinv.opened hstarted
    -- a core that is driven at out of reset is at its vector
    have hrelease : b.core.armed = true ∨ ¬ b.Driving ∨ faults.toInput = false := by
      by_cases hdriving : b.Driving
      · by_cases hheld : b.Held
        · exact (hperm hstarted hheld hdriving).imp_right Or.inr
        · exact Or.inl (hinv.sound.atVector hheld ((hinv.sound.still hdriving).resolve_left hheld))
      · exact Or.inr (Or.inl hdriving)
    refine wp_seq (wp_swdPadsToInputs hinv.sound) ?_
    rintro _ _ b₁ hsound ⟨rfl, heased, hinputs⟩
    have hrelease := heased.releasable (fun hsure => hinputs hsure hpads.1 hpads.2) hrelease
    refine wp_get_bind ?_
    have hend : ∀ (c' : Ctx) (b' : Board), Sound b' →
        wp (board faults) Sound False (do
          swdClosePads
          let _ ← perform (.sessionNotify false)
          modify fun ctx : Ctx =>
            { ctx with
              initialised := false
              connected := false
              swdio := false
              swclk := false
              nrst := false
              plat := false }) (fun _ c'' b'' => Inv c'' b'') c' b' := by
      intro c' b' hb'
      refine wp_seq (wp_swdClosePads hb') ?_
      rintro _ _ _ _ ⟨rfl, rfl⟩
      refine wp_issue_bind hb' fun _ b'' (hreply : b'' = _) => ?_
      rw [hreply]
      exact hclear _ _ hb'
    split
    case isTrue =>
      exact wp_seq (wp_swdNrstRelease hsound hrelease) fun _ _ _ hsound' _ => hend _ _ hsound'
    case isFalse => exact hend _ _ hsound

end Calls

inductive Call where
  | init
  | connect
  | halt
  | flashErase (addr size : UInt32)
  | flashWrite (addr : UInt32) (data : List UInt8)
  | flashVerify (addr : UInt32) (data : List UInt8)
  | resetAndRun
  | deinit

def Call.code : Call → Swd Unit
  | .init => do let _ ← Gd32Swd.init
  | .connect => do let _ ← Gd32Swd.connect
  | .halt => do let _ ← Gd32Swd.halt
  | .flashErase addr size => do let _ ← Gd32Swd.flashErase addr size
  | .flashWrite addr data => do let _ ← Gd32Swd.flashWrite addr data
  | .flashVerify addr data => do let _ ← Gd32Swd.flashVerify addr data
  | .resetAndRun => do let _ ← Gd32Swd.resetAndRun
  | .deinit => Gd32Swd.deinit

-- The calls and the failures that lead nowhere near a driven pad at a running core.
def Call.Permitted (faults : Faults) (c : Ctx) (b : Board) : Call → Prop
  | .init =>
      b.core.armed = true ∨ ((faults.assert = true → ¬ b.Driving) ∧ faults.toInput = false)
  | .connect => c.initialised = true → ConnectPermitted faults c b
  | .halt => c.initialised = true → c.connected = true → b.Held ∨ faults.bits = false
  | .flashErase _ _ =>
      c.initialised = true → c.connected = true → b.Held ∨ (faults.bits = false ∧ faults.Sure c b)
  | .flashWrite _ _ =>
      c.initialised = true → c.connected = true → b.Held ∨ (faults.bits = false ∧ faults.Sure c b)
  | .flashVerify _ _ => c.initialised = true → c.connected = true → b.Held ∨ faults.bits = false
  | .resetAndRun => c.initialised = true → ResetPermitted faults c b
  | .deinit =>
      c.initialised = true → b.Held → b.Driving → b.core.armed = true ∨ faults.toInput = false

theorem inv_call {faults : Faults} {c : Ctx} {b : Board} (hinv : Inv c b) (call : Call)
    (hperm : call.Permitted faults c b) :
    wp (board faults) Sound False call.code (fun _ c' b' => Inv c' b') c b := by
  have hcall : ∀ {code : Swd Status},
      wp (board faults) Sound False code (fun _ c' b' => Inv c' b') c b →
      wp (board faults) Sound False (do let _ ← code) (fun _ c' b' => Inv c' b') c b :=
    fun h => wp_seq h fun _ _ _ hsound hinv' => wp_pure hsound hinv'
  cases call with
  | init =>
      refine hcall (inv_init hinv.sound ?_ (hperm.imp_right And.right) hinv)
      intro hfault
      exact hperm.imp_right fun h => h.1 hfault
  | connect => exact hcall (inv_connect hinv hperm)
  | halt => exact hcall (inv_halt hinv hperm)
  | flashErase addr size => exact hcall (inv_flashErase addr size hinv hperm)
  | flashWrite addr data => exact hcall (inv_flashWrite addr data hinv hperm)
  | flashVerify addr data => exact hcall (inv_flashVerify addr data hinv hperm)
  | resetAndRun => exact hcall (inv_resetAndRun hinv hperm)
  | deinit => exact inv_deinit hinv hperm

abbrev Sys : Type := Ctx × Board

-- A call run to its end, with some of the failures.
def Step (x y : Sys) : Prop :=
  ∃ (faults : Faults) (call : Call), call.Permitted faults x.1 x.2
    ∧ Exec (board faults) x.2 (call.code x.1) (some (some ((), y.1))) y.2

-- Before the first session: the three pads are inputs and the core runs.
structure Fresh (x : Sys) : Prop where
  closed : x.1.initialised = false
  inputs : ∀ pad, x.2.dir pad = .input
  running : x.2.core.halted = false

theorem Fresh.inv {x : Sys} (h : Fresh x) : Inv x.1 x.2 := by
  have hidle : ¬ x.2.Driving := by
    rintro (hdriven | hdriven)
    · simp [h.inputs] at hdriven
    · simp [h.inputs] at hdriven
  refine ⟨⟨⟨fun hdriven => ?_, fun hdriving => absurd hdriving hidle⟩, fun _ hhalted => ?_⟩, ?_, ?_, ?_⟩
  · simp [h.inputs] at hdriven
  · simp [h.running] at hhalted
  · simp [h.closed]
  · simp [h.closed]
  · simp [h.closed]

theorem inv_reached {x y : Sys} (hstart : Fresh x) (hrun : Relation.ReflTransGen Step x y) :
    Inv y.1 y.2 := by
  induction hrun with
  | refl => exact hstart.inv
  | tail _ hlast ih =>
      obtain ⟨faults, call, hperm, hexec⟩ := hlast
      exact (wp_sound hexec (inv_call ih call hperm)).2.2 () _ rfl

section Trace

open Library.Effect (Handler exec_of_run exec_cut_bind)

def Board.word (b : Board) (addr : UInt8) : UInt32 :=
  if addr = DP_REG_DPIDR then 0x6BA02477
  else if addr = DP_REG_CTRL_STAT then 0xF0000000
  else if b.core.halted then CM_DHCSR_S_HALT
  else 0

-- A target that acknowledges everything and a board on which nothing fails.
def Board.answer (b : Board) : (cmd : Cmd) → signature.Reply cmd × Board
  | .platform => (true, b)
  | .sessionNotify _ => ((), b)
  | .openPad _ => (true, b)
  | .closePad _ => ((), b)
  | .configure pad dir _ => (.ok (), b.setDir pad dir)
  | .configureOutputLow pad => (.ok (), b.setOutputLow pad)
  | .write pad level => (.ok (), b.setLevel pad level)
  | .lineReset => ((), b)
  | .jtagToSwd => ((), b)
  | .header _ _ _ => ((), { b with acked := false })
  | .ack => (.ok, { b with acked := true })
  | .readData _ addr => ((b.word addr, true), { b with acked := false })
  | .writeData ap addr value => ((), b.dataSent ap addr value)

def working : Handler (issuing signature Ctx) Board := fun i b => b.answer i.cmd

def faultless : Faults := ⟨false, false, false, false⟩

theorem working_allowed (i : Issued signature Ctx) (b : Board) :
    board faultless b i (working i b).1 (working i b).2 := by
  obtain ⟨c, cmd⟩ := i
  cases cmd with
  | configure pad dir pull => exact Or.inl ⟨rfl, rfl⟩
  | configureOutputLow pad => exact Or.inl ⟨rfl, rfl⟩
  | write pad level => exact Or.inl ⟨rfl, rfl⟩
  | writeData ap addr value => exact Or.inl rfl
  | _ => rfl

def running : Board := ⟨fun _ => .input, fun _ => true, 0, ⟨false, false, false⟩, false⟩

-- What a call leaves when nothing fails.
def after (call : Call) (x : Sys) : Sys :=
  match (call.code x.1).run working x.2 with
  | (some (_, c), b) => (c, b)
  | (none, b) => (x.1, b)

theorem step_after {call : Call} {x : Sys} (hperm : call.Permitted faultless x.1 x.2)
    (hends : ((call.code x.1).run working x.2).1.isSome = true) : Step x (after call x) := by
  have hexec := exec_of_run working_allowed (call.code x.1) x.2
  refine ⟨faultless, call, hperm, ?_⟩
  unfold after
  generalize (call.code x.1).run working x.2 = out at hexec hends
  obtain ⟨value, b⟩ := out
  cases value with
  | none => cases hends
  | some value => exact hexec

def opened : Sys := after .init (.zero, running)

def connected : Sys := after .connect opened

-- The state in which `reset_and_run` has given debug up and not yet asserted NRST.
def disarmed : Board := ((disarm connected.1).run working connected.2).2

-- The whole trace is evaluated once.
theorem trace_run :
    (((Call.init.code Ctx.zero).run working running).1.isSome = true ∧ opened.2.Held
      ∧ ((Call.connect.code opened.1).run working opened.2).1.isSome = true)
    ∧ (connected.1.initialised = true ∧ connected.1.connected = true ∧ ¬ connected.2.Held)
    ∧ ((disarm connected.1).run working connected.2).1.isSome = true
    ∧ disarmed.Driving ∧ ¬ disarmed.Held ∧ disarmed.core.halted = false := by
  decide +kernel

theorem exec_disarm {x : Sys} (hstarted : x.1.initialised = true) (hconnected : x.1.connected = true)
    (hends : ((disarm x.1).run working x.2).1.isSome = true) :
    Exec (board faultless) x.2 (Call.resetAndRun.code x.1) none ((disarm x.1).run working x.2).2 := by
  have hexec := exec_of_run working_allowed (disarm x.1) x.2
  refine exec_cut_bind ?_
  refine exec_get ?_
  rw [if_neg (by simp [hstarted]), if_pos hconnected]
  generalize (disarm x.1).run working x.2 = out at hexec hends
  obtain ⟨value, b⟩ := out
  cases value with
  | none => cases hends
  | some value => exact exec_then hexec (.cut _ _)

theorem connected_reached : Fresh (Ctx.zero, running) ∧ Relation.ReflTransGen Step (Ctx.zero, running) connected := by
  obtain ⟨⟨hinits, hheld, hconnects⟩, -⟩ := trace_run
  have hinit : Step (Ctx.zero, running) opened := step_after (Or.inr ⟨nofun, rfl⟩) hinits
  have hconnect : Step opened connected := step_after (fun _ => Or.inl ⟨hheld, fun _ => ⟨rfl, rfl⟩⟩) hconnects
  exact ⟨⟨rfl, fun _ => rfl, rfl⟩, .tail (.single hinit) hconnect⟩

end Trace

end AlpSdk.Gd32Swd
