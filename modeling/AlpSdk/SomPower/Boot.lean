import AlpSdk.SomPower.Calm

-- What the two passes of a cold boot do, for whatever the restore actions do.
namespace AlpSdk.SomPower

open Library.Local
open Library.Effect (Env)

-- The record of the board is one that the first pass takes.
def accepts (cfg : Config) (b : Board) : Bool :=
  b.valid && (b.stored.imageId != cfg.imageId || b.stored.mode != .stop || b.coreOff || !cfg.stopMode || b.stopStat)

-- The record that the first pass restores from: the stored one, or, where there is none and a
-- witness of a STOP wake is set, the one that names every present domain.
def bootRecord (cfg : Config) (b : Board) : Option Record :=
  if b.valid then if accepts cfg b then some b.stored else none
  else if b.coreOff || cfg.stopMode && b.stopStat then some (blindRecord cfg)
  else none

-- The record that the second pass builds from the report of the first.
def i2cRecord (named : Mask) : Record := { Record.zero with quiesced := named ∩ I2C_DOMAINS }

-- What a pass keeps of the state outside the domains.
structure Carried (ram : Ram) (b : Board) (ram' : Ram) (b' : Board) : Prop where
  hooks : ram'.hooks = ram.hooks
  copy : ram'.ramRec = ram.ramRec
  copyValid : ram'.ramRecValid = ram.ramRecValid
  taken : b'.taken = b.taken

theorem Carried.trans {ram ram₁ ram' : Ram} {b b₁ b' : Board} (h : Carried ram b ram₁ b₁)
    (h' : Carried ram₁ b₁ ram' b') : Carried ram b ram' b' :=
  ⟨h'.hooks.trans h.hooks, h'.copy.trans h.copy, h'.copyValid.trans h.copyValid, h'.taken.trans h.taken⟩

-- The domains of a record restored as far as `only` goes. Those of a cold boot are marked
-- QUIESCED first.
structure Redone (T : Effects) (rec : Record) (only : Mask) (ram : Ram) (b : Board) (ram' : Ram)
    (b' : Board) : Prop extends Carried ram b ram' b' where
  log : b'.restores = b.restores ++ callsFor rec only order.reverse
  named : ∀ d, d ∈ rec.quiesced → d ∈ only →
    (ram'.state d = .active ∧ T d (d ∈ rec.railOff) (d ∈ rec.priorActive) (.ok ()) (b.pads d) (b'.pads d)) ∨
    (ram'.state d = .restoreFailed ∧
      ∃ err, T d (d ∈ rec.railOff) (d ∈ rec.priorActive) (.error err) (b.pads d) (b'.pads d))
  pads : ∀ d, ¬(d ∈ rec.quiesced ∧ d ∈ only) → b'.pads d = b.pads d

-- The first pass with a record.
structure FirstPass (T : Effects) (rec : Record) (ram : Ram) (b : Board) (ram' : Ram) (b' : Board) : Prop
    extends Redone T rec (everyDomain \ I2C_DOMAINS) ram b ram' b' where
  valid : ram'.boot.valid = true
  report : ram'.boot.quiesced = rec.quiesced
  cleared : b'.valid = false
  waiting : ∀ d, d ∈ rec.quiesced → d ∈ I2C_DOMAINS → ram'.state d = .quiesced
  others : ∀ d, d ∉ rec.quiesced → ram'.state d = ram.state d

-- The first pass without one.
structure NoPass (ram : Ram) (b : Board) (ram' : Ram) (b' : Board) : Prop extends Carried ram b ram' b' where
  log : b'.restores = b.restores
  pads : b'.pads = b.pads
  state : ram'.state = ram.state
  valid : ram'.boot.valid = false
  cleared : b'.valid = false

structure SecondPass (T : Effects) (ram : Ram) (b : Board) (ram' : Ram) (b' : Board) : Prop
    extends Redone T (i2cRecord ram.boot.quiesced) I2C_DOMAINS ram b ram' b' where
  others : ∀ d, d ∉ (i2cRecord ram.boot.quiesced).quiesced → ram'.state d = ram.state d

section Boot

variable {cfg : Config} {env : Env (issuing board Ram) Board} {E : Prop} {hooks : Domain → Option Hooks}
  {rec : Record} {only : Mask} {T : Effects} {ram ram' : Ram} {b b' : Board} {done' : Mask × Mask}

theorem RestoresTo.redone (h : RestoresTo T rec only order.reverse (∅, ∅) ram b done' ram' b') :
    Redone T rec only ram b ram' b' where
  hooks := by rw [h.caller]
  copy := by rw [h.caller]
  copyValid := by rw [h.caller]
  taken := by rw [h.world]
  log := by rw [h.world]
  named d hq ho := by
    cases h.named d (mem_order d) hq ho with
    | inl hok => exact .inl hok.2.2
    | inr hfailed => exact .inr hfailed.2
  pads d hnot := (h.others d fun hmem => hnot hmem.2).2.1

-- The state of the domains and the rest that a pass speaks of are all that counts.
theorem Redone.congr {ram₀ ram'' : Ram} {b₀ b'' : Board} (h : Redone T rec only ram b ram' b')
    (hstart : Carried ram₀ b₀ ram b) (hpads₀ : b.pads = b₀.pads) (hlog₀ : b.restores = b₀.restores)
    (hend : Carried ram' b' ram'' b'') (hstate : ram''.state = ram'.state) (hpads : b''.pads = b'.pads)
    (hlog : b''.restores = b'.restores) : Redone T rec only ram₀ b₀ ram'' b'' where
  toCarried := (hstart.trans h.toCarried).trans hend
  log := by rw [hlog, h.log, hlog₀]
  named d hq ho := by
    rw [hstate, hpads, ← hpads₀]
    exact h.named d hq ho
  pads d hnot := by
    rw [hpads, h.pads d hnot, hpads₀]

theorem wp_stopModeStatSet (hsub : ∀ b i reply b', env b i reply b' → soc b i reply b') :
    wp env (fun _ => True) E (stopModeStatSet cfg)
      (fun stat ram' b' => ram' = ram ∧ b' = b ∧ stat = (cfg.stopMode && !ram.ignoreStat && b.stopStat)) ram b := by
  unfold stopModeStatSet
  cases cfg.stopMode with
  | false => exact wp_pure trivial ⟨rfl, rfl, rfl⟩
  | true =>
      refine wp_get_bind (wp_perform hsub trivial ?_)
      rintro reply b ⟨rfl, rfl⟩
      exact wp_pure trivial ⟨rfl, rfl, rfl⟩

theorem wp_stopModeStatAgrees (hsub : ∀ b i reply b', env b i reply b' → soc b i reply b') :
    wp env (fun _ => True) E (stopModeStatAgrees cfg)
      (fun stat ram' b' => ram' = ram ∧ b' = b ∧ stat = (!cfg.stopMode || !ram.ignoreStat && b.stopStat)) ram b := by
  unfold stopModeStatAgrees
  cases hstop : cfg.stopMode with
  | false => exact wp_pure trivial ⟨rfl, rfl, rfl⟩
  | true =>
      refine wp_mono (wp_stopModeStatSet hsub) ?_
      rintro stat ram' b' _ ⟨hram, hb, hstat⟩
      exact ⟨hram, hb, by simpa [hstop] using hstat⟩

theorem wp_storeClear (hsub : ∀ b i reply b', env b i reply b' → soc b i reply b') {Q : Unit → Ram → Board → Prop}
    (hQ : Q () ram { b with stored := .zero, valid := false }) :
    wp env (fun _ => True) E (perform Cmd.storeClear) Q ram b := by
  refine wp_issue trivial fun _ b' henv => ?_
  obtain rfl : b' = { b with stored := .zero, valid := false } := hsub _ _ _ _ henv
  exact ⟨trivial, hQ⟩

-- The domains of a record marked QUIESCED, and those without I2C restored.
theorem wp_markedRestore {α : Type} (h : Acts cfg env (fun _ => True) E hooks rec (everyDomain \ I2C_DOMAINS) true T)
    (hhooks : ram.hooks = hooks) {f : Mask × Mask → Layer α} {Q : α → Ram → Board → Prop}
    (hnext : ∀ done ram' b', Redone T rec (everyDomain \ I2C_DOMAINS) ram b ram' b' →
      (∀ d, d ∈ rec.quiesced → d ∈ I2C_DOMAINS → ram'.state d = .quiesced) →
      (∀ d, d ∉ rec.quiesced → ram'.state d = ram.state d) → wp env (fun _ => True) E (f done) Q ram' b') :
    wp env (fun _ => True) E
      (markQuiesced rec.quiesced >>= fun _ => restoreDomains cfg rec (everyDomain \ I2C_DOMAINS) true >>= f) Q ram b := by
  refine wp_modify_bind (wp_seq (wp_restoreDomains h ?_ trivial) ?_)
  · exact hhooks
  intro done ram' b' _ hrestored
  refine hnext done ram' b' (hrestored.redone.congr ?_ rfl rfl ?_ rfl rfl rfl) (fun d hq hi => ?_) (fun d hq => ?_)
  · exact ⟨rfl, rfl, rfl, rfl⟩
  · exact ⟨rfl, rfl, rfl, rfl⟩
  · rw [(hrestored.others d fun hmem => (Finset.mem_sdiff.mp hmem.2.2).2 hi).1]
    exact if_pos hq
  · rw [(hrestored.others d fun hmem => hq hmem.2.1).1]
    exact if_neg hq

theorem wp_bootFromRecord (h : Acts cfg env (fun _ => True) E hooks rec (everyDomain \ I2C_DOMAINS) true T)
    (hhooks : ram.hooks = hooks) (syndrome : BitVec 32) (coreOff : Bool) :
    wp env (fun _ => True) E (bootFromRecord cfg rec syndrome coreOff)
      (fun _ ram' b' => FirstPass T rec ram b ram' b') ram b := by
  refine wp_markedRestore h hhooks ?_
  intro done ram₁ b₁ hredone hwaiting hothers
  refine wp_seq (wp_stopModeStatSet h.allowed) ?_
  rintro stat ram₂ b₂ _ ⟨rfl, rfl, -⟩
  refine wp_modify_bind (wp_perform h.allowed trivial ?_)
  rintro decoded b₂ rfl
  refine wp_modify_bind (wp_storeClear h.allowed ⟨hredone.congr ?_ rfl rfl ?_ rfl rfl rfl, rfl, rfl, rfl, hwaiting, hothers⟩)
  · exact ⟨rfl, rfl, rfl, rfl⟩
  · exact ⟨rfl, rfl, rfl, rfl⟩

theorem wp_bootWithoutRecord
    (h : Acts cfg env (fun _ => True) E hooks (blindRecord cfg) (everyDomain \ I2C_DOMAINS) true T)
    (hhooks : ram.hooks = hooks) (hboot : ram.boot.valid = false) (hstat : ram.ignoreStat = false) (coreOff : Bool) :
    wp env (fun _ => True) E (bootWithoutRecord cfg coreOff)
      (fun _ ram' b' =>
        if (coreOff || cfg.stopMode && b.stopStat) then FirstPass T (blindRecord cfg) ram b ram' b'
        else NoPass ram b ram' b') ram b := by
  refine wp_seq (wp_stopModeStatSet h.allowed) ?_
  rintro stat ram b _ ⟨rfl, rfl, rfl⟩
  rw [hstat, Bool.not_false, Bool.and_true, Bool.or_comm]
  by_cases hwitness : (coreOff || cfg.stopMode && b.stopStat) = true
  · simp only [hwitness, if_true]
    refine wp_bind (wp_markedRestore h hhooks ?_)
    intro done ram₁ b₁ hredone hwaiting hothers
    refine wp_pure trivial (wp_modify_bind (wp_storeClear h.allowed ?_))
    refine ⟨hredone.congr ?_ rfl rfl ?_ rfl rfl rfl, rfl, rfl, rfl, hwaiting, hothers⟩
    · exact ⟨rfl, rfl, rfl, rfl⟩
    · exact ⟨rfl, rfl, rfl, rfl⟩
  · simp only [hwitness, Bool.false_eq_true, if_false]
    exact wp_storeClear h.allowed ⟨⟨rfl, rfl, rfl, rfl⟩, rfl, rfl, rfl, hboot, rfl⟩

-- The first pass restores from the record, if there is one.
def AfterFirst (cfg : Config) (T : Effects) (ram : Ram) (b : Board) (ram' : Ram) (b' : Board) : Prop :=
  match bootRecord cfg b with
  | some rec => FirstPass T rec ram b ram' b'
  | none => NoPass ram b ram' b'

-- A pass started from a caller and a board that differ in nothing it speaks of.
structure Alike (ram₀ : Ram) (b₀ : Board) (ram : Ram) (b : Board) : Prop extends Carried ram₀ b₀ ram b where
  state : ram.state = ram₀.state
  pads : b.pads = b₀.pads
  log : b.restores = b₀.restores

theorem FirstPass.from {ram₀ : Ram} {b₀ : Board} (h : FirstPass T rec ram b ram' b') (hstart : Alike ram₀ b₀ ram b) :
    FirstPass T rec ram₀ b₀ ram' b' where
  toRedone := h.toRedone.congr hstart.toCarried hstart.pads hstart.log ⟨rfl, rfl, rfl, rfl⟩ rfl rfl rfl
  valid := h.valid
  report := h.report
  cleared := h.cleared
  waiting := h.waiting
  others d hq := (h.others d hq).trans (congrFun hstart.state d)

theorem NoPass.from {ram₀ : Ram} {b₀ : Board} (h : NoPass ram b ram' b') (hstart : Alike ram₀ b₀ ram b) :
    NoPass ram₀ b₀ ram' b' where
  toCarried := hstart.toCarried.trans h.toCarried
  log := h.log.trans hstart.log
  pads := h.pads.trans hstart.pads
  state := h.state.trans hstart.state
  valid := h.valid
  cleared := h.cleared

theorem wp_bootRestore
    (h : ∀ rec, bootRecord cfg b = some rec →
      Acts cfg env (fun _ => True) E hooks rec (everyDomain \ I2C_DOMAINS) true T)
    (hblind : Acts cfg env (fun _ => True) E hooks (blindRecord cfg) (everyDomain \ I2C_DOMAINS) true T)
    (hhooks : ram.hooks = hooks) :
    wp env (fun _ => True) E (bootRestore cfg) (fun _ ram' b' => AfterFirst cfg T ram b ram' b') ram b := by
  have hsub := hblind.allowed
  refine wp_modify_bind (wp_perform hsub trivial ?_)
  rintro syndrome b rfl
  refine wp_perform hsub trivial ?_
  rintro _ _ ⟨rfl, rfl⟩
  refine wp_modify_bind (wp_perform hsub trivial ?_)
  rintro _ _ ⟨rfl, rfl⟩
  dsimp only
  unfold AfterFirst bootRecord at *
  by_cases hvalid : b.valid = true
  · rw [if_neg (by simp [hvalid])]
    simp only [if_pos hvalid] at h ⊢
    by_cases hforeign : (b.stored.imageId != cfg.imageId) = true
    · have haccept : accepts cfg b = true := by simp [accepts, hvalid, hforeign]
      simp only [haccept, if_true] at h ⊢
      rw [if_pos hforeign]
      refine wp_modify_bind (wp_seq (wp_stopModeStatAgrees hsub) ?_)
      rintro stat _ _ _ ⟨rfl, rfl, -⟩
      rw [if_neg (by simp [hforeign])]
      refine wp_mono (wp_bootFromRecord (h _ rfl) ?_ syndrome b.coreOff) ?_
      · exact hhooks
      intro _ ram' b' _ hpass
      refine hpass.from ⟨?_, rfl, rfl, rfl⟩
      exact ⟨rfl, rfl, rfl, rfl⟩
    · rw [if_neg hforeign]
      refine wp_seq (wp_stopModeStatAgrees hsub) ?_
      rintro stat _ _ _ ⟨rfl, rfl, rfl⟩
      by_cases haccept : accepts cfg b = true
      · have hkeep : ¬(!b.stored.imageId != cfg.imageId && b.stored.mode == .stop && !b.coreOff &&
            !(!cfg.stopMode || !false && b.stopStat)) = true := by
          unfold accepts at haccept
          grind
        simp only [haccept, if_true] at h ⊢
        rw [if_neg hkeep]
        refine wp_mono (wp_bootFromRecord (h _ rfl) ?_ syndrome b.coreOff) ?_
        · exact hhooks
        intro _ ram' b' _ hpass
        refine hpass.from ⟨?_, rfl, rfl, rfl⟩
        exact ⟨rfl, rfl, rfl, rfl⟩
      · have hdiscard : (!b.stored.imageId != cfg.imageId && b.stored.mode == .stop && !b.coreOff &&
            !(!cfg.stopMode || !false && b.stopStat)) = true := by
          unfold accepts at haccept
          grind
        simp only [haccept, Bool.false_eq_true, if_false]
        rw [if_pos hdiscard]
        exact wp_storeClear hsub ⟨⟨rfl, rfl, rfl, rfl⟩, rfl, rfl, rfl, rfl, rfl⟩
  · rw [if_pos (by simpa using hvalid), if_neg hvalid]
    refine wp_mono (wp_bootWithoutRecord hblind ?_ ?_ ?_ b.coreOff) ?_
    · exact hhooks
    · rfl
    · rfl
    intro _ ram' b' _ hpass
    dsimp only at hpass
    by_cases hwitness : (b.coreOff || cfg.stopMode && b.stopStat) = true
    · rw [if_pos hwitness] at hpass ⊢
      refine hpass.from ⟨?_, rfl, rfl, rfl⟩
      exact ⟨rfl, rfl, rfl, rfl⟩
    · rw [if_neg hwitness] at hpass ⊢
      refine hpass.from ⟨?_, rfl, rfl, rfl⟩
      exact ⟨rfl, rfl, rfl, rfl⟩

-- The second pass does nothing unless the first has left a report.
def AfterSecond (T : Effects) (ram : Ram) (b : Board) (ram' : Ram) (b' : Board) : Prop :=
  b'.valid = b.valid ∧ b'.stored = b.stored ∧
    if ram.boot.valid then SecondPass T ram b ram' b' else Alike ram b ram' b'

theorem wp_bootRestoreI2c
    (h : Acts cfg env (fun _ => True) E hooks (i2cRecord ram.boot.quiesced) I2C_DOMAINS true T)
    (hhooks : ram.hooks = hooks) :
    wp env (fun _ => True) E (bootRestoreI2c cfg)
      (fun _ ram' b' => AfterSecond T ram b ram' b') ram b := by
  unfold AfterSecond
  have hclear : ∀ (Q : Unit → Ram → Board → Prop) ram₁ b₁, Q () ram₁ b₁ → Q () ram₁ { b₁ with stopStat := false } →
      wp env (fun _ => True) E (perform Cmd.stopModeStatClear >>= fun _ => pure ()) Q ram₁ b₁ := by
    intro Q ram₁ b₁ hsame hcleared
    refine wp_perform h.allowed trivial ?_
    rintro reply b₂ (rfl | rfl)
    · exact wp_pure trivial hcleared
    · exact wp_pure trivial hsame
  refine wp_get_bind ?_
  dsimp only
  by_cases hvalid : ram.boot.valid = true
  · rw [if_pos hvalid]
    simp only [hvalid, if_true]
    refine wp_seq (wp_restoreDomains h hhooks trivial) ?_
    intro done ram₁ b₁ _ hrestored
    have hothers : ∀ d, d ∉ (i2cRecord ram.boot.quiesced).quiesced → ram₁.state d = ram.state d :=
      fun d hq => (hrestored.others d fun hmem => hq hmem.2.1).1
    have hworld : b₁.valid = b.valid ∧ b₁.stored = b.stored := by
      rw [hrestored.world]
      exact ⟨rfl, rfl⟩
    have hpass : ∀ ram₂ b₂, Alike ram₁ b₁ ram₂ b₂ → b₂.valid = b₁.valid → b₂.stored = b₁.stored →
        b₂.valid = b.valid ∧ b₂.stored = b.stored ∧ SecondPass T ram b ram₂ b₂ := by
      intro ram₂ b₂ hend hv hs
      refine ⟨hv.trans hworld.1, hs.trans hworld.2, ?_, fun d hq => ?_⟩
      · exact hrestored.redone.congr ⟨rfl, rfl, rfl, rfl⟩ rfl rfl hend.toCarried hend.state hend.pads hend.log
      · rw [hend.state]
        exact hothers d hq
    refine wp_modify_bind (wp_get_bind (wp_perform h.allowed trivial ?_))
    rintro ⟨trusted, decoded⟩ b₂ rfl
    cases trusted with
    | true =>
        refine wp_modify_bind (wp_modify_bind (hclear _ _ _ (hpass _ _ ⟨?_, rfl, rfl, rfl⟩ rfl rfl)
          (hpass _ _ ⟨?_, rfl, rfl, rfl⟩ rfl rfl)))
        · exact ⟨rfl, rfl, rfl, rfl⟩
        · exact ⟨rfl, rfl, rfl, rfl⟩
    | false =>
        refine wp_modify_bind (wp_modify_bind (hclear _ _ _ (hpass _ _ ⟨?_, rfl, rfl, rfl⟩ rfl rfl)
          (hpass _ _ ⟨?_, rfl, rfl, rfl⟩ rfl rfl)))
        · exact ⟨rfl, rfl, rfl, rfl⟩
        · exact ⟨rfl, rfl, rfl, rfl⟩
  · rw [if_neg hvalid]
    simp only [hvalid, Bool.false_eq_true, if_false]
    refine hclear _ _ _ ⟨rfl, rfl, ?_, rfl, rfl, rfl⟩ ⟨rfl, rfl, ?_, rfl, rfl, rfl⟩
    · exact ⟨rfl, rfl, rfl, rfl⟩
    · exact ⟨rfl, rfl, rfl, rfl⟩

end Boot

def coldBoot (cfg : Config) : Layer Unit := do
  bootRestore cfg
  bootRestoreI2c cfg

theorem wp_coldBoot {cfg : Config} {env : Env (issuing board Ram) Board} {E : Prop}
    {hooks : Domain → Option Hooks} {T : Effects} {ram : Ram} {b : Board}
    (h : ∀ rec only, Acts cfg env (fun _ => True) E hooks rec only true T) (hhooks : ram.hooks = hooks) :
    wp env (fun _ => True) E (coldBoot cfg)
      (fun _ ram' b' => ∃ ram₁ b₁, AfterFirst cfg T ram b ram₁ b₁ ∧ AfterSecond T ram₁ b₁ ram' b') ram b := by
  refine wp_seq (wp_bootRestore (fun rec _ => h rec _) (h _ _) hhooks) ?_
  intro _ ram₁ b₁ _ hfirst
  have hhooks₁ : ram₁.hooks = hooks := by
    unfold AfterFirst at hfirst
    cases hrec : bootRecord cfg b with
    | none =>
        rw [hrec] at hfirst
        exact hfirst.hooks.trans hhooks
    | some rec =>
        rw [hrec] at hfirst
        exact hfirst.hooks.trans hhooks
  refine wp_mono (wp_bootRestoreI2c (h _ _) hhooks₁) ?_
  intro _ ram₂ b₂ _ hsecond
  exact ⟨ram₁, b₁, hfirst, hsecond⟩

end AlpSdk.SomPower
