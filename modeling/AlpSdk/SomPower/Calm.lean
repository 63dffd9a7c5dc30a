import AlpSdk.SomPower.Restore

-- The restore actions where no operation fails.
namespace AlpSdk.SomPower

open Library.Local
open Library.Effect (Env)

-- The bit by which the RTC pauses its refresh.
def Pads.eerd (p : Pads) (pause : Bool) : Pads :=
  { p with control1 :=
      (p.control1 &&& ~~~RV3028_CTRL1_EERD) ||| ((if pause then RV3028_CTRL1_EERD else 0) &&& RV3028_CTRL1_EERD) }

-- What the action of a domain undone leaves of its control points.
def Pads.released (p : Pads) (e : Entry) (d : Domain) (prior : Bool) : Pads :=
  match e.action with
  | .holdReset => p.drive .reset false
  | .powerdownPin =>
      if e.resetWired then ((p.drive .powerdown false).drive .reset true).drive .reset false
      else p.drive .powerdown false
  | .enableLow => p.drive .enable true
  | .shutdownReg => { p with conf := p.conf &&& ~~~TMP112_CONF_SD }
  | .keepAlive => if d = .rtc then p.eerd prior else p
  | .deepPowerDownCmd => p

-- What a restore leaves of the control points of a domain where every operation succeeds.
def Pads.restored (p : Pads) (e : Entry) (d : Domain) (railOff prior : Bool) : Pads :=
  if (e.action = .enableLow ∧ !prior) ∨ !e.present then p
  else if railOff then (p.drive .enable true).released e d prior
  else p.released e d prior

-- The status of a restore where no operation fails.
def Entry.restoreStatus (e : Entry) (prior : Bool) : Status :=
  if e.action = .enableLow ∧ !prior then .ok ()
  else if !e.present then .error .notPresentOnThisSoc
  else if e.action = .deepPowerDownCmd then .error .nosupport
  else .ok ()

-- The replies that report no error, and no level that differs from the one that was driven.
def Board.succeeds (b : Board) : (cmd : Cmd) → board.Reply cmd → Prop
  | .ready _ _, reply | .configure _ _ _, reply | .i2cReady _, reply => reply = true
  | .confWrite _ _, reply | .rtcWrite _ _, reply => reply = true
  | .padsApply, reply | .hookQuiesce _ _, reply | .hookRestore _ _ _, reply => reply = .ok ()
  | .padRead d line, reply => reply = none ∨ reply = some ((b.pads d).line line)
  | .confRead _, reply => reply ≠ none
  | .rtcRead reg, reply => reply = (b.pads .rtc).rtcReg reg
  | _, _ => True

-- The board on which nothing fails.
abbrev calm : Env (issuing board Ram) Board :=
  fun b i reply b' => b.allows i.cmd reply b' ∧ b.succeeds i.cmd reply

theorem calm_allowed (b : Board) (i : Issued board Ram) (reply : board.Reply i.cmd) (b' : Board)
    (h : calm b i reply b') : soc b i reply b' := h.1

theorem healthy_calm (i : Issued board Ram) (b : Board) : calm b i (healthy i b).1 (healthy i b).2 := by
  refine ⟨healthy_allowed i b, ?_⟩
  cases i with
  | mk ram cmd =>
      cases cmd with
      | padRead d line => exact .inr rfl
      | confRead d => exact nofun
      | ready d line => exact rfl
      | configure d line asserted => exact rfl
      | i2cReady d => exact rfl
      | confWrite d value => exact rfl
      | rtcWrite reg value => exact rfl
      | padsApply => exact rfl
      | hookQuiesce d railOff => exact rfl
      | hookRestore d railOff early => exact rfl
      | rtcRead reg => exact rfl
      | _ => exact trivial

section Calm

variable {ram : Ram} {b : Board} {d : Domain}

theorem wp_calm {α : Type} {cmd : Cmd} {f : board.Reply cmd → Layer α} {Q : α → Ram → Board → Prop}
    (h : ∀ reply b', b.allows cmd reply b' → b.succeeds cmd reply →
      wp calm (fun _ => True) False (f reply) Q ram b') :
    wp calm (fun _ => True) False (perform cmd >>= f) Q ram b :=
  wp_issue_bind trivial fun reply b' henv => h reply b' henv.1 henv.2

theorem calm_padsApplied {Q : Status → Ram → Board → Prop}
    (hQ : ∀ ram', ram.Applies ram' → Q (.ok ()) ram' b) :
    wp calm (fun _ => True) False padsApplied Q ram b := by
  refine wp_get_bind ?_
  split
  · exact wp_pure trivial (hQ ram (refl ram))
  · refine wp_calm ?_
    rintro _ b rfl rfl
    exact wp_modify_bind (wp_pure trivial (hQ _ ⟨true, rfl⟩))

theorem rtcReg_control1 (p : Pads) : p.rtcReg RV3028_REG_CONTROL_1 = some p.control1 := if_pos rfl

theorem rtcSet_control1 (p : Pads) (value : UInt8) :
    p.rtcSet RV3028_REG_CONTROL_1 value = { p with control1 := value } := if_pos rfl

theorem calm_rtcUpdate (mask value : UInt8) {Q : Bool → Ram → Board → Prop}
    (hQ : Q true ram (b.setPads .rtc { b.pads .rtc with
      control1 := ((b.pads .rtc).control1 &&& ~~~mask) ||| (value &&& mask) })) :
    wp calm (fun _ => True) False (rtcUpdate RV3028_REG_CONTROL_1 mask value) Q ram b := by
  refine wp_calm ?_
  rintro reply b ⟨rfl, -⟩ hread
  obtain rfl : reply = some (b.pads .rtc).control1 := hread.trans (rtcReg_control1 _)
  dsimp only
  split
  · rename_i hsame
    refine wp_pure trivial ?_
    rw [hsame] at hQ
    exact setPads_same (b := b) .rtc ▸ hQ
  · refine wp_issue trivial ?_
    rintro _ b' ⟨hset | ⟨hskip, -⟩, rfl⟩
    · rw [hset, rtcSet_control1]
      exact ⟨trivial, hQ⟩
    · cases hskip

-- A piece of code that returns this status and takes the control points of one domain from `p`
-- to `q`.
def Moves (d : Domain) (m : Layer Status) (s : Status) (p q : Pads) : Prop :=
  ∀ ram b, b.pads d = p → wp calm (fun _ => True) False m
    (fun s' ram' b' => s' = s ∧ ram.Applies ram' ∧ b' = b.setPads d q) ram b

variable {p q r : Pads} {s : Status}

theorem Moves.pure : Moves d (pure s) s p p := by
  rintro ram b rfl
  exact wp_pure trivial ⟨rfl, refl ram, (setPads_same d).symm⟩

theorem Moves.then {m : Layer Status} {f : Status → Layer Status} (hm : Moves d m (.ok ()) p q)
    (hf : Moves d (f (.ok ())) s q r) : Moves d (m >>= f) s p r := by
  intro ram b hp
  refine wp_seq (hm ram b hp) ?_
  rintro _ ram' _ _ ⟨rfl, hram, rfl⟩
  refine wp_mono (hf ram' _ (setPads_pads d q)) ?_
  rintro _ ram'' _ _ ⟨hs, hram', rfl⟩
  exact ⟨hs, IsTrans.trans _ _ _ hram hram', setPads_setPads d q r⟩

theorem Moves.wait {f : Unit → Layer Status} (ms : Nat) (early : Bool) (h : Moves d (f ()) s p q) :
    Moves d (waitMs ms early >>= f) s p q := by
  intro ram b hp
  refine wp_calm ?_
  rintro _ b rfl -
  exact h ram b hp

theorem moves_pinAssert (line : Line) (asserted : Bool) :
    Moves d (pinAssert d line asserted) (.ok ()) p (p.drive line asserted) := by
  rintro ram b rfl
  refine wp_calm ?_
  rintro _ b rfl rfl
  refine wp_bind (calm_padsApplied ?_)
  intro ram' hram
  refine wp_calm ?_
  rintro _ b' (rfl | ⟨hskip, -⟩) rfl
  · refine wp_calm ?_
    rintro seen b' rfl (rfl | rfl)
    · exact wp_pure trivial ⟨rfl, hram, rfl⟩
    · refine wp_pure trivial ⟨?_, hram, rfl⟩
      simp [Pads.drive]
  · cases hskip

theorem moves_tmp112Shutdown :
    Moves d (tmp112Shutdown d false) (.ok ()) p { p with conf := p.conf &&& ~~~TMP112_CONF_SD } := by
  rintro ram b rfl
  refine wp_calm ?_
  rintro _ b rfl rfl
  refine wp_calm ?_
  rintro conf b ⟨rfl, hread⟩ hsome
  obtain rfl : conf = some (b.pads d).conf := hread.resolve_left hsome
  refine wp_calm ?_
  rintro _ b' (rfl | ⟨hskip, -⟩) rfl
  · exact wp_pure trivial ⟨rfl, refl ram, rfl⟩
  · cases hskip

theorem moves_rv3028Eerd (pause : Bool) : Moves .rtc (rv3028Eerd pause) (.ok ()) p (p.eerd pause) := by
  rintro ram b rfl
  refine wp_calm ?_
  rintro _ b rfl rfl
  exact wp_bind (calm_rtcUpdate _ _ (wp_pure trivial ⟨rfl, refl ram, rfl⟩))

theorem moves_releaseReset (early : Bool) : Moves d (releaseReset d early) (.ok ()) p (p.drive .reset false) := by
  refine (moves_pinAssert .reset false).then ?_
  dsimp only
  split
  · split
    · exact .wait _ _ .pure
    · exact .pure
  · exact .wait _ _ .pure

variable (cfg : Config)

theorem moves_releasePowerdown (early : Bool) : Moves d (releasePowerdown cfg d early) (.ok ()) p
    (if (cfg.reg d).resetWired then ((p.drive .powerdown false).drive .reset true).drive .reset false
      else p.drive .powerdown false) := by
  have hsettle : ∀ q, Moves d (do
      waitMs (if early then PHY_SETTLE_EARLY else PHY_SETTLE_MS) early
      pure (.ok ()) : Layer Status) (.ok ()) q q :=
    fun _ => .wait _ _ .pure
  refine (moves_pinAssert .powerdown false).then (.wait _ _ ?_)
  by_cases hwired : (cfg.reg d).resetWired = true
  · rw [if_pos hwired, if_pos hwired]
    refine (moves_pinAssert .reset true).then ?_
    exact .wait _ _ ((moves_pinAssert .reset false).then (hsettle _))
  · rw [if_neg hwired, if_neg hwired]
    exact hsettle _

theorem moves_releaseAction (early prior : Bool) :
    Moves d (releaseAction cfg d early prior)
      (if (cfg.reg d).action = .deepPowerDownCmd then .error .nosupport else .ok ()) p
      (p.released (cfg.reg d) d prior) := by
  unfold releaseAction Pads.released
  cases (cfg.reg d).action with
  | holdReset => exact moves_releaseReset early
  | powerdownPin => exact moves_releasePowerdown cfg early
  | deepPowerDownCmd => exact .pure
  | shutdownReg => exact moves_tmp112Shutdown
  | enableLow => exact moves_pinAssert .enable true
  | keepAlive =>
      by_cases hrtc : d = .rtc
      · subst hrtc
        exact moves_rv3028Eerd prior
      · simp only [hrtc, if_false]
        exact .pure

theorem moves_pinRestore (railOff early prior : Bool) (hpresent : (cfg.reg d).present = true) :
    Moves d (pinRestore cfg d railOff early prior)
      (if (cfg.reg d).action = .deepPowerDownCmd then .error .nosupport else .ok ()) p
      (if railOff then (p.drive .enable true).released (cfg.reg d) d prior else p.released (cfg.reg d) d prior) := by
  rw [pinRestore, if_neg (by simp [hpresent])]
  cases railOff with
  | false => exact moves_releaseAction cfg early prior
  | true => exact (moves_pinAssert .enable true).then (.wait _ _ (moves_releaseAction cfg early prior))

-- The restore of a domain without a hook of its own.
theorem calm_restoreAction (railOff early prior : Bool) (hhook : ¬(ram.hooks d).any Hooks.restore = true) :
    wp calm (fun _ => True) False (restoreAction cfg d railOff early prior)
      (fun s ram' b' => s = (cfg.reg d).restoreStatus prior ∧ ram.Applies ram' ∧
        b' = b.setPads d ((b.pads d).restored (cfg.reg d) d railOff prior)) ram b := by
  refine wp_get_bind ?_
  rw [if_neg hhook, Pads.restored, Entry.restoreStatus]
  by_cases hskip : (cfg.reg d).action = .enableLow ∧ !prior
  · rw [if_pos hskip, if_pos (Or.inl hskip), if_pos hskip]
    exact Moves.pure ram b rfl
  · rw [if_neg hskip, if_neg hskip]
    by_cases hpresent : (cfg.reg d).present = true
    · rw [if_neg (not_or.mpr ⟨hskip, by simp [hpresent]⟩), if_neg (by simp [hpresent])]
      exact moves_pinRestore cfg railOff early prior hpresent ram b rfl
    · rw [pinRestore, if_pos (by simpa using hpresent), if_pos (Or.inr (by simpa using hpresent)),
        if_pos (by simpa using hpresent)]
      exact Moves.pure ram b rfl

end Calm

-- What a restore action does to its domain where nothing fails, unless a hook does it.
def undone (cfg : Config) (hooks : Domain → Option Hooks) : Effects := fun d railOff prior s p q =>
  if (hooks d).any Hooks.restore then s = .ok ()
  else s = (cfg.reg d).restoreStatus prior ∧ q = p.restored (cfg.reg d) d railOff prior

theorem acts_calm (cfg : Config) (hooks : Domain → Option Hooks) (rec : Record) (only : Mask) (early : Bool) :
    Acts cfg calm (fun _ => True) False hooks rec only early (undone cfg hooks) where
  allowed := calm_allowed
  noted _ _ _ _ _ := trivial
  action d ram b _ _ hhooks _ := by
    subst hhooks
    unfold undone
    by_cases hhook : (ram.hooks d).any Hooks.restore = true
    · refine wp_get_bind ?_
      rw [if_pos hhook]
      refine wp_issue trivial ?_
      rintro s b' ⟨⟨p, rfl⟩, hs⟩
      exact ⟨trivial, refl ram, p, if_pos hhook ▸ hs, rfl⟩
    · refine wp_mono (calm_restoreAction cfg _ _ _ hhook) ?_
      rintro s ram' b' _ ⟨hs, hram, hb⟩
      exact ⟨hram, _, if_neg hhook ▸ ⟨hs, rfl⟩, hb⟩

end AlpSdk.SomPower
