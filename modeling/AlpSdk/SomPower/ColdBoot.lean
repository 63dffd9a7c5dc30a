import AlpSdk.SomPower.Boot

-- The two passes of a cold boot against the restore of the same boot.
namespace AlpSdk.SomPower

open Library.Local
open Library.Effect (Env Exec)

-- The calls of the GPIO-backed and of the I2C-backed domains, each in their order.
def SameCalls (calls calls' : List (Domain × Bool × Bool)) : Prop :=
  calls.filter (·.1 ∈ I2C_DOMAINS) = calls'.filter (·.1 ∈ I2C_DOMAINS) ∧
    calls.filter (·.1 ∉ I2C_DOMAINS) = calls'.filter (·.1 ∉ I2C_DOMAINS)

-- No execution of the two passes and none of the restore differ in the restore actions.
def RestoresAlike (cfg : Config) (b : Board) : Prop :=
  ∀ ram out result b₁ b₂, (∀ d, ram.hooks d = none) →
    Exec soc b (coldBoot cfg Ram.fresh) (some (some out)) b₁ → Exec soc b (restore cfg ram) (some (some result)) b₂ →
    SameCalls (b₁.restores.drop b.restores.length) (b₂.restores.drop b.restores.length)

-- Where nothing fails, both leave the same levels and register values.
def LeavesAlike (cfg : Config) (b : Board) : Prop :=
  ∀ ram out result b₁ b₂, (∀ d, ram.hooks d = none) →
    Exec calm b (coldBoot cfg Ram.fresh) (some (some out)) b₁ → Exec calm b (restore cfg ram) (some (some result)) b₂ →
    b₁.pads = b₂.pads

theorem callsFor_filter (rec : Record) (only : Mask) (l : List Domain) (p : Domain → Prop) [DecidablePred p] :
    (callsFor rec only l).filter (fun c => p c.1) = callsFor rec (only.filter p) l := by
  rw [callsFor, callsFor, List.filter_map, List.filter_filter]
  refine congrArg _ (List.filter_congr fun d _ => ?_)
  simp only [Function.comp, Finset.mem_filter, ← Bool.decide_and]
  exact decide_eq_decide.mpr (by tauto)

theorem callsFor_none (rec : Record) (l : List Domain) : callsFor rec ∅ l = [] := by
  simp [callsFor]

theorem callsFor_i2c_iff (rec : Record) :
    callsFor (i2cRecord rec.quiesced) I2C_DOMAINS order.reverse = callsFor rec I2C_DOMAINS order.reverse ↔
      ∀ d ∈ rec.quiesced, d ∈ I2C_DOMAINS → d ∉ rec.railOff ∧ d ∉ rec.priorActive := by
  have hfilter : (order.reverse.filter fun d => d ∈ (i2cRecord rec.quiesced).quiesced ∧ d ∈ I2C_DOMAINS) =
      order.reverse.filter fun d => d ∈ rec.quiesced ∧ d ∈ I2C_DOMAINS := by
    refine List.filter_congr fun d _ => decide_eq_decide.mpr ?_
    simp only [i2cRecord, Finset.mem_inter]
    tauto
  rw [callsFor, callsFor, hfilter, List.map_inj_left]
  constructor
  · intro h d hq hi
    have hd := h d (List.mem_filter.mpr ⟨mem_order d, by simp [hq, hi]⟩)
    simpa [i2cRecord, Record.zero, eq_comm] using hd
  · intro h d hd
    have hmem := (List.mem_filter.mp hd).2
    simp only [decide_eq_true_eq] at hmem
    obtain ⟨hrail, hprior⟩ := h d hmem.1 hmem.2
    simp [i2cRecord, Record.zero, hrail, hprior]

theorem sameCalls_iff (rec : Record) :
    SameCalls (callsFor rec (everyDomain \ I2C_DOMAINS) order.reverse ++
        callsFor (i2cRecord rec.quiesced) I2C_DOMAINS order.reverse) (callsFor rec everyDomain order.reverse) ↔
      ∀ d ∈ rec.quiesced, d ∈ I2C_DOMAINS → d ∉ rec.railOff ∧ d ∉ rec.priorActive := by
  have hin : ∀ (rec : Record) only, (callsFor rec only order.reverse).filter (·.1 ∈ I2C_DOMAINS) =
      callsFor rec (only.filter (· ∈ I2C_DOMAINS)) order.reverse :=
    fun rec only => callsFor_filter rec only order.reverse (· ∈ I2C_DOMAINS)
  have hout : ∀ (rec : Record) only, (callsFor rec only order.reverse).filter (·.1 ∉ I2C_DOMAINS) =
      callsFor rec (only.filter (· ∉ I2C_DOMAINS)) order.reverse :=
    fun rec only => callsFor_filter rec only order.reverse (· ∉ I2C_DOMAINS)
  have hgpio : (everyDomain \ I2C_DOMAINS).filter (· ∈ I2C_DOMAINS) = ∅ := by decide
  have hgpio' : (everyDomain \ I2C_DOMAINS).filter (· ∉ I2C_DOMAINS) = everyDomain.filter (· ∉ I2C_DOMAINS) := by
    decide
  have hi2c : I2C_DOMAINS.filter (· ∈ I2C_DOMAINS) = I2C_DOMAINS := by decide
  have hi2c' : I2C_DOMAINS.filter (· ∉ I2C_DOMAINS) = ∅ := by decide
  have hall : everyDomain.filter (· ∈ I2C_DOMAINS) = I2C_DOMAINS := by decide
  unfold SameCalls
  rw [List.filter_append, List.filter_append, hin, hin, hin, hout, hout, hout, hgpio, hgpio', hi2c, hi2c', hall,
    callsFor_none, callsFor_none, List.nil_append, List.append_nil, callsFor_i2c_iff]
  exact and_iff_left rfl

-- The run where everything succeeds comes to an end, with the postcondition.
theorem healthy_ends {α : Type} {m : Layer α} {Q : α → Ram → Board → Prop} {ram : Ram} {b : Board}
    (h : wp calm (fun _ => True) False m Q ram b) :
    ∃ value ram', ((m ram).run healthy b).1 = some (value, ram') ∧ Q value ram' ((m ram).run healthy b).2 := by
  obtain ⟨-, hcut, hend⟩ := wp_sound (Library.Effect.exec_of_run healthy_calm (m ram) b) h
  cases hout : ((m ram).run healthy b).1 with
  | none => exact (hcut (by rw [hout])).elim
  | some out => exact ⟨out.1, out.2, rfl, hend out.1 out.2 (by rw [hout])⟩

section Alike

variable {cfg : Config} {env : Env (issuing board Ram) Board} {E : Prop} {hooks : Domain → Option Hooks}
  {T : Effects} {b : Board}

-- What the two passes do with a record that is accepted.
theorem wp_coldBoot_accepted (h : ∀ rec only, Acts cfg env (fun _ => True) E hooks rec only true T)
    (ram : Ram) (hhooks : ram.hooks = hooks) (haccept : accepts cfg b = true) :
    wp env (fun _ => True) E (coldBoot cfg)
      (fun _ ram' b' => ∃ ram₁ b₁, Redone T b.stored (everyDomain \ I2C_DOMAINS) ram b ram₁ b₁ ∧
        Redone T (i2cRecord b.stored.quiesced) I2C_DOMAINS ram₁ b₁ ram' b') ram b := by
  have hvalid : b.valid = true := (Bool.and_eq_true_iff.mp haccept).1
  refine wp_mono (wp_coldBoot h hhooks) ?_
  rintro _ ram' b' _ ⟨ram₁, b₁, hfirst, -, -, hsecond⟩
  have hrec : bootRecord cfg b = some b.stored := by rw [bootRecord, if_pos hvalid, if_pos haccept]
  rw [AfterFirst, hrec] at hfirst
  rw [if_pos hfirst.valid] at hsecond
  exact ⟨ram₁, b₁, hfirst.toRedone, hfirst.report ▸ hsecond.toRedone⟩

theorem wp_restore_stored (h : Acts cfg env (fun _ => True) E hooks b.stored everyDomain false T)
    (ram : Ram) (hhooks : ram.hooks = hooks) (hvalid : b.valid = true) :
    wp env (fun _ => True) E (restore cfg)
      (fun _ _ b' => b'.restores = b.restores ++ callsFor b.stored everyDomain order.reverse ∧
        (∀ d ∈ b.stored.quiesced, ∃ s, T d (d ∈ b.stored.railOff) (d ∈ b.stored.priorActive) s (b.pads d) (b'.pads d)) ∧
        ∀ d, d ∉ b.stored.quiesced → b'.pads d = b.pads d) ram b := by
  have husable : usable ram b = some b.stored := if_pos hvalid
  have hacts : ∀ rec, usable ram b = some rec → Acts cfg env (fun _ => True) E hooks rec everyDomain false T := by
    intro rec hrec
    cases husable.symm.trans hrec
    exact h
  refine wp_mono (wp_restore h.allowed hacts hhooks) ?_
  intro _ ram' b' _ hdone
  rw [husable] at hdone
  obtain ⟨done, ram₁, b₁, hrestored, hend⟩ := hdone
  have hsame : b'.restores = b₁.restores ∧ b'.pads = b₁.pads := by
    split at hend
    · rw [hend.2]
      exact ⟨rfl, rfl⟩
    · rw [hend.2]
      exact ⟨rfl, rfl⟩
  rw [hsame.1, hsame.2]
  refine ⟨by rw [hrestored.world], fun d hq => ?_, fun d hq => (hrestored.others d fun hmem => hq hmem.2.1).2.1⟩
  cases hrestored.named d (mem_order d) hq (mem_everyDomain d) with
  | inl hok => exact ⟨_, hok.2.2.2⟩
  | inr hfailed =>
      obtain ⟨-, -, err, hT⟩ := hfailed
      exact ⟨_, hT⟩

theorem valid_of_accepts (haccept : accepts cfg b = true) : b.valid = true := (Bool.and_eq_true_iff.mp haccept).1

theorem restoresAlike_iff (haccept : accepts cfg b = true) :
    RestoresAlike cfg b ↔
      ∀ d ∈ b.stored.quiesced, d ∈ I2C_DOMAINS → d ∉ b.stored.railOff ∧ d ∉ b.stored.priorActive := by
  have hvalid := valid_of_accepts haccept
  constructor
  · intro h
    have hcold := healthy_ends (wp_coldBoot_accepted (fun _ _ => acts_calm cfg _ _ _ _) Ram.fresh rfl haccept)
    have hsame := healthy_ends (wp_restore_stored (acts_calm cfg _ _ _ _) Ram.fresh rfl hvalid)
    obtain ⟨_, ram', hend₁, ram₁, b₁, hfirst, hsecond⟩ := hcold
    obtain ⟨_, ram₂, hend₂, hlog, -⟩ := hsame
    have hexec₁ := Library.Effect.exec_of_run healthy_allowed (coldBoot cfg Ram.fresh) b
    have hexec₂ := Library.Effect.exec_of_run healthy_allowed (restore cfg Ram.fresh) b
    rw [hend₁] at hexec₁
    rw [hend₂] at hexec₂
    have hcalls := h Ram.fresh _ _ _ _ (fun _ => rfl) hexec₁ hexec₂
    rw [hsecond.log, hfirst.log, hlog, List.append_assoc, List.drop_left, List.drop_left] at hcalls
    exact (sameCalls_iff b.stored).mp hcalls
  · intro h ram out result b₁ b₂ hhooks hexec₁ hexec₂
    have hcold := wp_coldBoot_accepted (fun _ _ => acts_soc cfg _ _ _ _) Ram.fresh rfl haccept
    have hsame := wp_restore_stored (acts_soc cfg _ _ _ _) ram rfl hvalid
    obtain ⟨ram', b', hfirst, hsecond⟩ := (wp_sound hexec₁ hcold).2.2 _ _ rfl
    obtain ⟨hlog, -⟩ := (wp_sound hexec₂ hsame).2.2 _ _ rfl
    rw [hsecond.log, hfirst.log, hlog, List.append_assoc, List.drop_left, List.drop_left]
    exact (sameCalls_iff b.stored).mpr h

-- What a pass did to a domain it restored.
theorem Redone.effect {rec : Record} {only : Mask} {ram ram' : Ram} {b' : Board} (h : Redone T rec only ram b ram' b')
    {d : Domain} (hq : d ∈ rec.quiesced) (ho : d ∈ only) :
    ∃ s, T d (d ∈ rec.railOff) (d ∈ rec.priorActive) s (b.pads d) (b'.pads d) := by
  cases h.named d hq ho with
  | inl hok => exact ⟨_, hok.2⟩
  | inr hfailed =>
      obtain ⟨-, err, hT⟩ := hfailed
      exact ⟨_, hT⟩

theorem leavesAlike (haccept : accepts cfg b = true)
    (h : ∀ d ∈ b.stored.quiesced, d ∈ I2C_DOMAINS → d ∉ b.stored.railOff ∧ d ∉ b.stored.priorActive) :
    LeavesAlike cfg b := by
  intro ram out result b₁ b₂ hhooks hexec₁ hexec₂
  have hcold := wp_coldBoot_accepted (fun _ _ => acts_calm cfg _ _ _ _) Ram.fresh rfl haccept
  have hsame := wp_restore_stored (acts_calm cfg (fun _ => none) _ _ _) ram (funext hhooks)
    (valid_of_accepts haccept)
  obtain ⟨ram', b', hfirst, hsecond⟩ := (wp_sound hexec₁ hcold).2.2 _ _ rfl
  obtain ⟨-, hnamed, hothers⟩ := (wp_sound hexec₂ hsame).2.2 _ _ rfl
  funext d
  by_cases hq : d ∈ b.stored.quiesced
  · obtain ⟨_, -, hpads⟩ := hnamed d hq
    rw [hpads]
    by_cases hi : d ∈ I2C_DOMAINS
    · obtain ⟨hrail, hprior⟩ := h d hq hi
      obtain ⟨_, -, hpads₂⟩ := hsecond.effect (Finset.mem_inter.mpr ⟨hq, hi⟩) hi
      rw [hpads₂, hfirst.pads d fun hmem => (Finset.mem_sdiff.mp hmem.2).2 hi]
      simp [i2cRecord, Record.zero, hrail, hprior]
    · obtain ⟨_, -, hpads₁⟩ := hfirst.effect hq (Finset.mem_sdiff.mpr ⟨mem_everyDomain d, hi⟩)
      rw [hsecond.pads d fun hmem => hi hmem.2, hpads₁]
  · rw [hothers d hq, hsecond.pads d fun hmem => hq (Finset.mem_inter.mp hmem.1).1, hfirst.pads d fun hmem => hq hmem.1]

-- The second pass knows neither the rail-off nor the saved bit of a domain.
theorem cold_boot_alike_iff (haccept : accepts cfg b = true) :
    RestoresAlike cfg b ∧ LeavesAlike cfg b ↔
      ∀ d ∈ b.stored.quiesced, d ∈ I2C_DOMAINS → d ∉ b.stored.railOff ∧ d ∉ b.stored.priorActive := by
  constructor
  · intro h
    exact (restoresAlike_iff haccept).mp h.1
  · intro h
    exact ⟨(restoresAlike_iff haccept).mpr h, leavesAlike haccept h⟩

end Alike

-- A test cycle quiesced an RTC whose refresh was already paused, and a warm reset came.
def pausedRtc : Board where
  pads := fun _ => ⟨fun _ => false, 0, RV3028_CTRL1_EERD, RV3028_CLKOUT_FD_LOW⟩
  stored := { Record.zero with quiesced := {.rtc}, priorActive := {.rtc}, imageId := 1 }
  valid := true
  stopStat := false
  coreOff := false
  taken := fun _ => (.auto, ⟨fun _ => false, 0, RV3028_CTRL1_EERD, 0⟩)
  asking := none
  restores := []

theorem cold_boot_alike_iff_pausedRtc :
    accepts e1mAen803 pausedRtc = true ∧
      (RestoresAlike e1mAen803 pausedRtc ∧ LeavesAlike e1mAen803 pausedRtc ↔
        ∀ d ∈ pausedRtc.stored.quiesced, d ∈ I2C_DOMAINS →
          d ∉ pausedRtc.stored.railOff ∧ d ∉ pausedRtc.stored.priorActive) :=
  ⟨by decide, cold_boot_alike_iff (by decide)⟩

theorem paused_refresh_resumes :
    ¬∀ cfg b, accepts cfg b = true → RestoresAlike cfg b ∧ LeavesAlike cfg b := by
  intro h
  have hcold : (((coldBoot e1mAen803 Ram.fresh).run healthy pausedRtc).2.pads .rtc).control1 = 0 := by decide
  have hsame : (((restore e1mAen803 Ram.fresh).run healthy pausedRtc).2.pads .rtc).control1 = RV3028_CTRL1_EERD := by
    decide
  have hexec₁ := Library.Effect.exec_of_run healthy_calm (coldBoot e1mAen803 Ram.fresh) pausedRtc
  have hexec₂ := Library.Effect.exec_of_run healthy_calm (restore e1mAen803 Ram.fresh) pausedRtc
  have hpads := (h e1mAen803 pausedRtc (by decide)).2 Ram.fresh _ _ _ _ (fun _ => rfl) hexec₁ hexec₂
  rw [hpads, hsame] at hcold
  exact absurd hcold (by decide)

end AlpSdk.SomPower
