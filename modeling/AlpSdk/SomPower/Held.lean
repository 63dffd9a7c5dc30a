import AlpSdk.SomPower.Boot
import AlpSdk.SomPower.Quiesce
import AlpSdk.Library.Interleave
import Mathlib.Logic.Relation

-- Whether the record of the next restore names every domain that is held, over all runs of the
-- operations within one boot.
namespace AlpSdk.SomPower

open Library.Local
open Library.Effect (Env Exec)

-- The bits a record has for a domain.
def Record.bits (rec : Record) (d : Domain) : Bool × Bool := (d ∈ rec.railOff, d ∈ rec.priorActive)

-- The record that the next restore uses names every domain that is held, with the bits that were
-- true when the domain was last ACTIVE.
def Kept (cfg : Config) (ram : Ram) (b : Board) : Prop :=
  ∀ d, ram.state d ≠ .active →
    ∃ rec, usable ram b = some rec ∧ d ∈ rec.quiesced ∧ rec.bits d = trueBits cfg d (b.taken d)

inductive Op where
  | quiesce (mode : Mode)
  | restore
  | cycleRun (holdMs : Nat)
  | policySet (d : Domain) (policy : Policy)
  | bind (d : Domain) (hooks : Hooks)
  | unbind (d : Domain)
  | bootRestore
  | bootRestoreI2c

def Op.code (cfg : Config) : Op → Layer Unit
  | .quiesce mode => do let _ ← SomPower.quiesce cfg mode
  | .restore => do let _ ← SomPower.restore cfg
  | .cycleRun holdMs => do let _ ← SomPower.cycleRun cfg holdMs
  | .policySet d policy => do let _ ← SomPower.policySet cfg d policy
  | .bind d hooks => do let _ ← SomPower.bind d hooks
  | .unbind d => SomPower.unbind d
  | .bootRestore => SomPower.bootRestore cfg
  | .bootRestoreI2c => SomPower.bootRestoreI2c cfg

abbrev Sys : Type := Ram × Board

-- An operation run to its end on a board of this kind.
def Step (env : Env (issuing board Ram) Board) (cfg : Config) (op : Op) (x y : Sys) : Prop :=
  Exec env x.2 (op.code cfg x.1) (some (some ((), y.1))) y.2

-- The record has the true bits of the domains it names.
def Truthful (cfg : Config) (b : Board) (rec : Record) : Prop :=
  ∀ d ∈ rec.quiesced, rec.bits d = trueBits cfg d (b.taken d)

structure Named (cfg : Config) (ram : Ram) (b : Board) : Prop where
  held : ∀ d, ram.state d ≠ .active → ram.ramRecValid = true ∧ d ∈ ram.ramRec.quiesced
  same : ram.ramRecValid = true → b.valid = true → b.stored = ram.ramRec
  ramBits : ram.ramRecValid = true → Truthful cfg b ram.ramRec
  storedBits : b.valid = true → Truthful cfg b b.stored

theorem Named.usable_truthful {cfg : Config} {ram : Ram} {b : Board} {rec : Record} (h : Named cfg ram b)
    (husable : usable ram b = some rec) : Truthful cfg b rec := by
  unfold usable at husable
  split at husable
  · rename_i hvalid
    cases husable
    exact h.storedBits hvalid
  · split at husable
    · rename_i hvalid
      cases husable
      exact h.ramBits hvalid
    · cases husable

theorem Named.usable_copy {cfg : Config} {ram : Ram} {b : Board} (h : Named cfg ram b) (hvalid : ram.ramRecValid = true) :
    usable ram b = some ram.ramRec := by
  unfold usable
  by_cases hstored : b.valid = true
  · rw [if_pos hstored, h.same hvalid hstored]
  · rw [if_neg hstored, if_pos hvalid]

theorem Named.usable_held {cfg : Config} {ram : Ram} {b : Board} (h : Named cfg ram b) {d : Domain} (hd : ram.state d ≠ .active) :
    ∃ rec, usable ram b = some rec ∧ d ∈ rec.quiesced := by
  obtain ⟨hvalid, hmem⟩ := h.held d hd
  exact ⟨ram.ramRec, h.usable_copy hvalid, hmem⟩

theorem Named.kept {cfg : Config} {ram : Ram} {b : Board} (h : Named cfg ram b) : Kept cfg ram b := by
  intro d hd
  obtain ⟨rec, husable, hmem⟩ := h.usable_held hd
  exact ⟨rec, husable, hmem, h.usable_truthful husable d hmem⟩

-- The domain that a quiesce would take first.
def firstEligible (cfg : Config) (mode : Mode) (ram : Ram) : Option Domain := order.find? (eligible cfg mode ram)

-- The policy of the domain and, where it is ACTIVE, its saved bit are what they were when it was
-- taken last.
def Retaken (cfg : Config) (ram : Ram) (b : Board) (d : Domain) : Prop :=
  decide (ram.policy d = .railOff) = (trueBits cfg d (b.taken d)).1 ∧
    (ram.state d = .active → priorBit cfg d (b.pads d) = (trueBits cfg d (b.taken d)).2)

-- The call takes no domain, or the record in use names none but the one it takes first.
def QuiesceKeeps (cfg : Config) (mode : Mode) (ram : Ram) (b : Board) : Prop :=
  (∀ d, firstEligible cfg mode ram = some d → ram.state d = .quiesced) ∨
    ∀ rec, usable ram b = some rec → ∀ d ∈ rec.quiesced, firstEligible cfg mode ram = some d ∧ Retaken cfg ram b d

section Quiesce

variable {cfg : Config} {mode : Mode} {ram ram' : Ram} {b b' : Board} {rec rec' : Record}

abbrev anyEffect : Domain → Bool → Status → Pads → Pads → Prop := fun _ _ _ _ _ => True

-- A domain that was not ACTIVE keeps its true bits only if its policy is still the same.
theorem TakenNow.bits {d : Domain} (h : TakenNow cfg anyEffect mode d ram b rec' ram' b')
    (hrail : ram.state d ≠ .active → Retaken cfg ram b d) : rec'.bits d = trueBits cfg d (b'.taken d) := by
  have hpolicy : (rec'.bits d).1 = decide (ram.policy d = .railOff) := decide_eq_decide.mpr h.rail
  refine Prod.ext ?_ ?_
  · rw [hpolicy, h.taken]
    by_cases hactive : ram.state d = .active
    · rw [if_pos hactive]
      rfl
    · rw [if_neg hactive]
      exact (hrail hactive).1
  · simp only [Record.bits, h.prior, Bool.decide_eq_true]
    rfl

-- Of a domain that the record in use names, the true bits are still what they were.
theorem TakenNow.taken_same {d : Domain} (h : TakenNow cfg anyEffect mode d ram b rec' ram' b')
    (hretaken : Retaken cfg ram b d) : trueBits cfg d (b'.taken d) = trueBits cfg d (b.taken d) := by
  rw [h.taken]
  by_cases hactive : ram.state d = .active
  · rw [if_pos hactive]
    exact Prod.ext hretaken.1 (hretaken.2 hactive)
  · rw [if_neg hactive]

-- What a call that takes a domain needs of the record in use.
def NamesFirst (cfg : Config) (mode : Mode) (ram : Ram) (b : Board) : Prop :=
  ∀ rec, usable ram b = some rec → ∀ d ∈ rec.quiesced, firstEligible cfg mode ram = some d ∧ Retaken cfg ram b d

theorem TakesTo.now (h : TakesTo cfg anyEffect mode order .zero ram b rec ram' b') {d : Domain}
    (hd : d ∈ rec.quiesced) : TakenNow cfg anyEffect mode d ram b rec ram' b' := by
  cases h.each d with
  | inl hnow => exact hnow.2
  | inr halone => exact absurd (halone.mem.mp hd) (Finset.notMem_empty d)

theorem TakesTo.alone (h : TakesTo cfg anyEffect mode order .zero ram b rec ram' b') {d : Domain}
    (hd : d ∉ rec.quiesced) : LeftAlone d .zero ram b rec ram' b' := by
  cases h.each d with
  | inl hnow => exact absurd hnow.2.mem hd
  | inr halone => exact halone

-- What a quiesce has recorded of the domains it took is true of them.
theorem TakesTo.truthful (hinv : Named cfg ram b) (h : TakesTo cfg anyEffect mode order .zero ram b rec ram' b')
    (hfirst : NamesFirst cfg mode ram b) : Truthful cfg b' rec := by
  intro d hd
  refine (h.now hd).bits fun hactive => ?_
  obtain ⟨rec₀, husable, hmem⟩ := hinv.usable_held hactive
  exact (hfirst rec₀ husable d hmem).2

-- A new record of the domains just taken, all of them or those that could not be put back.
theorem named_of_new {ram'' : Ram} {b'' : Board} (hinv : Named cfg ram b)
    (h : TakesTo cfg anyEffect mode order .zero ram b rec ram' b') (hfirst : NamesFirst cfg mode ram b)
    (hsome : rec.quiesced ≠ ∅) (hcopy : ram''.ramRecValid = true) (hstored : b''.stored = ram''.ramRec)
    (htaken : b''.taken = b'.taken)
    (hbits : ∀ d, d ∈ ram''.ramRec.quiesced → d ∈ rec.quiesced ∧ ram''.ramRec.bits d = rec.bits d)
    (hheld : ∀ d, ram''.state d ≠ .active → d ∈ rec.quiesced → d ∈ ram''.ramRec.quiesced)
    (hothers : ∀ d, d ∉ rec.quiesced → ram''.state d = ram'.state d) : Named cfg ram'' b'' := by
  have htruthful : Truthful cfg b'' ram''.ramRec := by
    intro d hd
    obtain ⟨hmem, hsame⟩ := hbits d hd
    rw [hsame, htaken]
    exact h.truthful hinv hfirst d hmem
  have htook : ∃ d, firstEligible cfg mode ram = some d ∧ ram.state d ≠ .quiesced := by
    by_contra hnone
    push Not at hnone
    refine hsome ?_
    rw [(h.none hnone).1]
    rfl
  refine ⟨fun d hd => ⟨hcopy, ?_⟩, fun _ _ => hstored, fun _ => htruthful, fun _ => hstored ▸ htruthful⟩
  by_cases hmem : d ∈ rec.quiesced
  · exact hheld d hd hmem
  · rw [hothers d hmem, (h.alone hmem).state] at hd
    obtain ⟨rec₀, husable, hmem₀⟩ := hinv.usable_held hd
    obtain ⟨c, hfind, hstate⟩ := htook
    obtain rfl : c = d := Option.some.inj (hfind.symm.trans (hfirst rec₀ husable d hmem₀).1)
    exact absurd (h.first c hfind hstate).mem hmem

-- No new record, where everything that was taken has been put back.
theorem named_of_old {ram'' : Ram} {b'' : Board} (hinv : Named cfg ram b)
    (h : TakesTo cfg anyEffect mode order .zero ram b rec ram' b') (hfirst : NamesFirst cfg mode ram b)
    (hcopy : ram''.ramRec = ram.ramRec ∧ ram''.ramRecValid = ram.ramRecValid)
    (hstored : b''.stored = b.stored ∧ b''.valid = b.valid) (htaken : b''.taken = b'.taken)
    (hback : ∀ d, d ∈ rec.quiesced → ram''.state d = .active)
    (hothers : ∀ d, d ∉ rec.quiesced → ram''.state d = ram'.state d) : Named cfg ram'' b'' := by
  have htruthful : ∀ rec₀, usable ram b = some rec₀ → Truthful cfg b'' rec₀ := by
    intro rec₀ husable d hd
    rw [hinv.usable_truthful husable d hd, htaken]
    by_cases hmem : d ∈ rec.quiesced
    · exact ((h.now hmem).taken_same (hfirst rec₀ husable d hd).2).symm
    · rw [(h.alone hmem).taken]
  refine ⟨fun d hd => ?_, fun hvalid hv => ?_, fun hvalid => ?_, fun hv => ?_⟩
  · rw [hcopy.1, hcopy.2]
    by_cases hmem : d ∈ rec.quiesced
    · exact absurd (hback d hmem) hd
    · rw [hothers d hmem, (h.alone hmem).state] at hd
      exact hinv.held d hd
  · rw [hstored.1, hcopy.1]
    exact hinv.same (hcopy.2 ▸ hvalid) (hstored.2 ▸ hv)
  · rw [hcopy.1]
    exact htruthful _ (hinv.usable_copy (hcopy.2 ▸ hvalid))
  · rw [hstored.1]
    exact htruthful _ (if_pos (hstored.2 ▸ hv))

-- Nothing that the record in use is about has changed.
theorem Named.congr (hinv : Named cfg ram b) (hstate : ram'.state = ram.state)
    (hcopy : ram'.ramRec = ram.ramRec ∧ ram'.ramRecValid = ram.ramRecValid)
    (hstored : b'.stored = b.stored ∧ b'.valid = b.valid) (htaken : b'.taken = b.taken) : Named cfg ram' b' where
  held d hd := by
    rw [hcopy.1, hcopy.2]
    exact hinv.held d (congrFun hstate d ▸ hd)
  same hvalid hv := by
    rw [hstored.1, hcopy.1]
    exact hinv.same (hcopy.2 ▸ hvalid) (hstored.2 ▸ hv)
  ramBits hvalid d hd := by
    rw [hcopy.1] at hd ⊢
    rw [htaken]
    exact hinv.ramBits (hcopy.2 ▸ hvalid) d hd
  storedBits hv d hd := by
    rw [hstored.1] at hd ⊢
    rw [htaken]
    exact hinv.storedBits (hstored.2 ▸ hv) d hd

-- The domains that a restore counts as failed are those it names and that are not ACTIVE again.
theorem RestoresTo.failed {T : Effects} {done : Mask × Mask}
    (h : RestoresTo T rec everyDomain order.reverse (∅, ∅) ram b done ram' b') (d : Domain) :
    (d ∈ done.2 → d ∈ rec.quiesced) ∧ (d ∈ rec.quiesced → ram'.state d ≠ .active → d ∈ done.2) := by
  constructor
  · intro hd
    by_contra hq
    have hfailed := (h.others d fun hmem => hq hmem.2.1).2.2.2.mp hd
    exact absurd hfailed (Finset.notMem_empty d)
  · intro hq hstate
    cases h.named d (mem_order d) hq (mem_everyDomain d) with
    | inl hok => exact absurd hok.2.2.1 hstate
    | inr hfailed => exact hfailed.1

theorem RestoresTo.others_state {T : Effects} {done : Mask × Mask}
    (h : RestoresTo T rec everyDomain order.reverse (∅, ∅) ram b done ram' b') {d : Domain} (hd : d ∉ rec.quiesced) :
    ram'.state d = ram.state d :=
  (h.others d fun hmem => hd hmem.2.1).1

theorem wp_quiesceLocked (hinv : Named cfg ram b) (hkeeps : QuiesceKeeps cfg mode ram b) :
    wp (telling cfg) (fun _ => True) True (quiesceLocked cfg mode) (fun _ ram' b' => Named cfg ram' b') ram b := by
  have hmarks : ∀ d ∈ order, Unmarked Record.zero d := fun d _ => ⟨Finset.notMem_empty d, Finset.notMem_empty d⟩
  refine wp_seq (wp_quiesceFrom (takes_telling cfg ram.hooks) (by decide) rfl trivial hmarks) ?_
  rintro ⟨s, rec⟩ ram₁ b₁ _ htakes
  dsimp only at htakes
  by_cases hnothing : ∀ d, firstEligible cfg mode ram = some d → ram.state d = .quiesced
  · obtain ⟨rfl, rfl, rfl⟩ := htakes.none hnothing
    cases s with
    | ok _ => exact wp_pure trivial hinv
    | error err =>
        refine wp_seq (wp_restoreDomains (acts_telling cfg ram₁.hooks _ _ _) rfl trivial) ?_
        rintro ⟨restored, failed⟩ ram₂ b₂ _ hrestored
        have hfailed : failed = ∅ :=
          Finset.eq_empty_of_forall_notMem fun d hd => Finset.notMem_empty d ((hrestored.failed d).1 hd)
        dsimp only
        rw [if_neg (not_not.mpr hfailed)]
        refine wp_pure trivial (hinv.congr ?_ ?_ ?_ ?_)
        · exact funext fun d => hrestored.others_state (Finset.notMem_empty d)
        · rw [hrestored.caller]
          exact ⟨rfl, rfl⟩
        · rw [hrestored.world]
          exact ⟨rfl, rfl⟩
        · rw [hrestored.world]
  · have hfirst : NamesFirst cfg mode ram b := hkeeps.resolve_left hnothing
    have hsome : rec.quiesced ≠ ∅ := by
      push Not at hnothing
      obtain ⟨c, hfind, hstate⟩ := hnothing
      intro hempty
      have hmem := (htakes.first c hfind hstate).mem
      rw [hempty] at hmem
      exact Finset.notMem_empty c hmem
    cases s with
    | ok _ =>
        dsimp only
        rw [if_pos hsome]
        refine wp_seq (wp_keep (fun _ _ _ _ h => h.1) _) ?_
        rintro _ _ _ _ ⟨rfl, rfl⟩
        refine wp_pure trivial (named_of_new hinv htakes hfirst hsome rfl rfl rfl ?_ ?_ ?_)
        · exact fun d hd => ⟨hd, rfl⟩
        · exact fun d _ hq => hq
        · exact fun d _ => rfl
    | error err =>
        refine wp_seq (wp_restoreDomains (acts_telling cfg ram₁.hooks _ _ _) rfl trivial) ?_
        rintro ⟨restored, failed⟩ ram₂ b₂ _ hrestored
        have htaken : b₂.taken = b₁.taken := by rw [hrestored.world]
        dsimp only
        by_cases hfailed : failed = ∅
        · rw [if_neg (not_not.mpr hfailed)]
          refine wp_pure trivial (named_of_old hinv htakes hfirst ?_ ?_ htaken ?_ ?_)
          · rw [hrestored.caller, htakes.caller]
            exact ⟨rfl, rfl⟩
          · rw [hrestored.world, htakes.world]
            exact ⟨rfl, rfl⟩
          · intro d hq
            by_contra hstate
            have hmem := (hrestored.failed d).2 hq hstate
            rw [hfailed] at hmem
            exact Finset.notMem_empty d hmem
          · exact fun d hq => hrestored.others_state hq
        · rw [if_pos hfailed]
          refine wp_seq (wp_keep (fun _ _ _ _ h => h.1) _) ?_
          rintro _ _ _ _ ⟨rfl, rfl⟩
          refine wp_pure trivial (named_of_new hinv htakes hfirst hsome rfl rfl htaken ?_ ?_ ?_)
          · exact fun d hd => ⟨(hrestored.failed d).1 hd, rfl⟩
          · exact fun d hstate hq => (hrestored.failed d).2 hq hstate
          · exact fun d hq => hrestored.others_state hq

theorem named_of_restored {T : Effects} (hinv : Named cfg ram b) (husable : usable ram b = some rec)
    (h : RestoresAll cfg T rec ram b ram' b') : Named cfg ram' b' := by
  obtain ⟨⟨restored, failed⟩, ram₁, b₁, hrestored, hend⟩ := h
  have hothers : ∀ d, d ∉ rec.quiesced → ram₁.state d = .active := by
    intro d hq
    rw [hrestored.others_state hq]
    by_contra hstate
    obtain ⟨rec₀, hrec₀, hmem⟩ := hinv.usable_held hstate
    cases husable.symm.trans hrec₀
    exact hq hmem
  have hheld : ∀ d, ram₁.state d ≠ .active → d ∈ failed := by
    intro d hstate
    by_cases hq : d ∈ rec.quiesced
    · exact (hrestored.failed d).2 hq hstate
    · exact absurd (hothers d hq) hstate
  by_cases hfailed : failed = ∅
  · rw [if_pos hfailed] at hend
    obtain ⟨rfl, rfl⟩ := hend
    have hcopy : ram'.ramRecValid = false := by rw [hrestored.caller]
    refine ⟨fun d hstate => ?_, fun hvalid => ?_, fun hvalid => ?_, nofun⟩
    · have hmem := hheld d hstate
      rw [hfailed] at hmem
      exact absurd hmem (Finset.notMem_empty d)
    · rw [hcopy] at hvalid
      cases hvalid
    · rw [hcopy] at hvalid
      cases hvalid
  · rw [if_neg hfailed] at hend
    obtain ⟨rfl, rfl⟩ := hend
    have htaken : b₁.taken = b.taken := by rw [hrestored.world]
    have htruthful : ∀ d ∈ failed, ((rec.retry failed).stamped cfg).bits d = trueBits cfg d (b₁.taken d) := by
      intro d hd
      rw [htaken, ← hinv.usable_truthful husable d ((hrestored.failed d).1 hd)]
      simp [Record.bits, Record.stamped, Record.retry, hd]
    exact ⟨fun d hstate => ⟨rfl, hheld d hstate⟩, fun _ _ => rfl, fun _ => htruthful, fun _ => htruthful⟩

theorem wp_restore_named (hinv : Named cfg ram b) :
    wp (telling cfg) (fun _ => True) True (restore cfg) (fun _ ram' b' => Named cfg ram' b') ram b := by
  refine wp_mono (wp_restore (fun _ _ _ _ h => h.1) (fun rec _ => acts_telling cfg ram.hooks rec _ _) rfl) ?_
  intro _ ram' b' _ hdone
  cases husable : usable ram b with
  | none =>
      rw [husable] at hdone
      obtain ⟨rfl, rfl⟩ := hdone
      exact hinv
  | some rec =>
      rw [husable] at hdone
      exact named_of_restored hinv husable hdone

theorem wp_quiesce_named (hinv : Named cfg ram b)
    (hkeeps : mode = .run ∨ mode = .stop ∨ mode = .standby → QuiesceKeeps cfg mode ram b) :
    wp (telling cfg) (fun _ => True) True (quiesce cfg mode) (fun _ ram' b' => Named cfg ram' b') ram b := by
  cases mode with
  | sleep => exact wp_pure trivial hinv
  | deepSleep => exact wp_pure trivial hinv
  | other => exact wp_pure trivial hinv
  | run => exact wp_quiesceLocked hinv (hkeeps (.inl rfl))
  | stop => exact wp_quiesceLocked hinv (hkeeps (.inr (.inl rfl)))
  | standby => exact wp_quiesceLocked hinv (hkeeps (.inr (.inr rfl)))

theorem wp_cycleRun_named (holdMs : Nat) (hinv : Named cfg ram b) (hkeeps : QuiesceKeeps cfg .run ram b) :
    wp (telling cfg) (fun _ => True) True (cycleRun cfg holdMs) (fun _ ram' b' => Named cfg ram' b') ram b := by
  refine wp_seq (wp_quiesce_named hinv fun _ => hkeeps) ?_
  rintro ⟨s, failed⟩ ram₁ b₁ _ hinv₁
  refine wp_get_bind ?_
  split
  · exact wp_pure trivial hinv₁
  · refine wp_perform (fun _ _ _ _ h => h.1) trivial ?_
    rintro _ b₂ rfl
    exact wp_restore_named hinv₁

end Quiesce

-- The domains that the first pass of a boot would take from the board.
def toRestore (cfg : Config) (b : Board) : Mask := ((bootRecord cfg b).map Record.quiesced).getD ∅

-- The copy in RAM is the record of the next restore of these domains.
def CopyNames (ram : Ram) (mask : Mask) : Prop := ∀ d ∈ mask, ram.ramRecValid = true ∧ d ∈ ram.ramRec.quiesced

section Passes

variable {cfg : Config} {ram ram' : Ram} {b b' : Board} {rec : Record} {T : Effects}
  {hooks : Domain → Option Hooks}

-- The stored record is the same or gone, and every domain that is held is one the copy in RAM
-- names.
theorem named_of_copy (hinv : Named cfg ram b) (hcarried : Carried ram b ram' b')
    (hstored : b'.valid = true → b.valid = true ∧ b'.stored = b.stored)
    (hheld : ∀ d, ram'.state d ≠ .active → ram.ramRecValid = true ∧ d ∈ ram.ramRec.quiesced) : Named cfg ram' b' where
  held d hd := by
    rw [hcarried.copy, hcarried.copyValid]
    exact hheld d hd
  same hvalid hv := by
    rw [hcarried.copy, (hstored hv).2]
    exact hinv.same (hcarried.copyValid ▸ hvalid) (hstored hv).1
  ramBits hvalid d hd := by
    rw [hcarried.copy] at hd ⊢
    rw [hcarried.taken]
    exact hinv.ramBits (hcarried.copyValid ▸ hvalid) d hd
  storedBits hv d hd := by
    rw [(hstored hv).2] at hd ⊢
    rw [hcarried.taken]
    exact hinv.storedBits (hstored hv).1 d hd

theorem gone (hcleared : b'.valid = false) : b'.valid = true → b.valid = true ∧ b'.stored = b.stored := by
  intro hv
  rw [hcleared] at hv
  cases hv

theorem named_of_first (hinv : Named cfg ram b) (hcopy : CopyNames ram (toRestore cfg b))
    (h : AfterFirst cfg T ram b ram' b') : Named cfg ram' b' := by
  unfold AfterFirst at h
  unfold toRestore at hcopy
  cases hrec : bootRecord cfg b with
  | none =>
      rw [hrec] at h
      refine named_of_copy hinv h.toCarried (gone h.cleared) fun d hd => hinv.held d ?_
      rw [← h.state]
      exact hd
  | some rec =>
      rw [hrec] at h hcopy
      refine named_of_copy hinv h.toCarried (gone h.cleared) fun d hd => ?_
      by_cases hq : d ∈ rec.quiesced
      · exact hcopy d hq
      · rw [h.others d hq] at hd
        exact hinv.held d hd

theorem named_of_second (hinv : Named cfg ram b)
    (hcopy : ram.boot.valid = true → CopyNames ram (ram.boot.quiesced ∩ I2C_DOMAINS))
    (h : AfterSecond T ram b ram' b') : Named cfg ram' b' := by
  obtain ⟨hvalid, hstored, hpass⟩ := h
  have hsame : b'.valid = true → b.valid = true ∧ b'.stored = b.stored := fun hv => ⟨hvalid ▸ hv, hstored⟩
  by_cases hboot : ram.boot.valid = true
  · rw [if_pos hboot] at hpass
    refine named_of_copy hinv hpass.toCarried hsame fun d hd => ?_
    by_cases hq : d ∈ ram.boot.quiesced ∩ I2C_DOMAINS
    · exact hcopy hboot d hq
    · rw [hpass.others d hq] at hd
      exact hinv.held d hd
  · rw [if_neg hboot] at hpass
    refine named_of_copy hinv hpass.toCarried hsame fun d hd => hinv.held d ?_
    rw [← hpass.state]
    exact hd

-- The restore of this domain is possible: a hook does it, or the SoM has it and an action for it.
def Undoable (cfg : Config) (hooks : Domain → Option Hooks) (d : Domain) : Prop :=
  (hooks d).any Hooks.restore = true ∨ ((cfg.reg d).present = true ∧ (cfg.reg d).action ≠ .deepPowerDownCmd)

theorem undone_ok {d : Domain} {railOff prior : Bool} {s : Status} {p q : Pads} (hundoable : Undoable cfg hooks d)
    (h : undone cfg hooks d railOff prior s p q) : s = .ok () := by
  unfold undone at h
  by_cases hhook : (hooks d).any Hooks.restore = true
  · rw [if_pos hhook] at h
    exact h
  · rw [if_neg hhook] at h
    obtain ⟨hpresent, haction⟩ := hundoable.resolve_left hhook
    rw [h.1, Entry.restoreStatus, if_neg (by simp [hpresent] : ¬(!(cfg.reg d).present) = true), if_neg haction, ite_self]

-- Where nothing fails, every domain of a pass is ACTIVE again.
theorem Redone.active {only : Mask} (h : Redone (undone cfg hooks) rec only ram b ram' b') {d : Domain}
    (hundoable : Undoable cfg hooks d) (hq : d ∈ rec.quiesced) (ho : d ∈ only) : ram'.state d = .active := by
  cases h.named d hq ho with
  | inl hok => exact hok.1
  | inr hfailed =>
      obtain ⟨-, err, hT⟩ := hfailed
      cases undone_ok hundoable hT

theorem named_of_coldBoot (hinv : Named cfg ram b) (hundoable : ∀ d ∈ toRestore cfg b, Undoable cfg hooks d)
    {ram₁ : Ram} {b₁ : Board} (hfirst : AfterFirst cfg (undone cfg hooks) ram b ram₁ b₁)
    (hsecond : AfterSecond (undone cfg hooks) ram₁ b₁ ram' b') : Named cfg ram' b' := by
  unfold AfterFirst at hfirst
  unfold toRestore at hundoable
  obtain ⟨hvalid, -, hpass⟩ := hsecond
  cases hrec : bootRecord cfg b with
  | none =>
      rw [hrec] at hfirst
      rw [if_neg (by simp [hfirst.valid])] at hpass
      refine named_of_copy hinv (hfirst.toCarried.trans hpass.toCarried) (gone (hvalid.trans hfirst.cleared)) ?_
      intro d hd
      rw [hpass.state, hfirst.state] at hd
      exact hinv.held d hd
  | some rec =>
      rw [hrec] at hfirst hundoable
      rw [if_pos hfirst.valid] at hpass
      refine named_of_copy hinv (hfirst.toCarried.trans hpass.toCarried) (gone (hvalid.trans hfirst.cleared)) ?_
      intro d hd
      have hi2c : d ∈ (i2cRecord ram₁.boot.quiesced).quiesced ↔ d ∈ rec.quiesced ∧ d ∈ I2C_DOMAINS := by
        rw [i2cRecord, hfirst.report, Finset.mem_inter]
      by_cases hq : d ∈ rec.quiesced
      · by_cases hi : d ∈ I2C_DOMAINS
        · exact absurd (hpass.active (hundoable d hq) (hi2c.mpr ⟨hq, hi⟩) hi) hd
        · rw [hpass.others d fun hmem => hi (hi2c.mp hmem).2] at hd
          have hgpio : d ∈ everyDomain \ I2C_DOMAINS := Finset.mem_sdiff.mpr ⟨mem_everyDomain d, hi⟩
          exact absurd (hfirst.active (hundoable d hq) hq hgpio) hd
      · rw [hpass.others d fun hmem => hq (hi2c.mp hmem).1, hfirst.others d hq] at hd
        exact hinv.held d hd

end Passes

-- What an operation needs so that the record still names every domain that is held.
def Op.Keeps (cfg : Config) : Op → Sys → Prop
  | .quiesce mode, x => mode = .run ∨ mode = .stop ∨ mode = .standby → QuiesceKeeps cfg mode x.1 x.2
  | .cycleRun _, x => QuiesceKeeps cfg .run x.1 x.2
  | .bootRestore, x => CopyNames x.1 (toRestore cfg x.2)
  | .bootRestoreI2c, x => x.1.boot.valid = true → CopyNames x.1 (x.1.boot.quiesced ∩ I2C_DOMAINS)
  | _, _ => True

theorem step_named {cfg : Config} {op : Op} {x y : Sys} (hkeeps : op.Keeps cfg x) (hinv : Named cfg x.1 x.2)
    (hstep : Step (telling cfg) cfg op x y) : Named cfg y.1 y.2 := by
  have hof : ∀ {m : Layer Unit}, wp (telling cfg) (fun _ => True) True m (fun _ ram' b' => Named cfg ram' b') x.1 x.2 →
      Exec (telling cfg) x.2 (m x.1) (some (some ((), y.1))) y.2 → Named cfg y.1 y.2 :=
    fun hwp hexec => (wp_sound hexec hwp).2.2 _ _ rfl
  refine hof ?_ hstep
  cases op with
  | quiesce mode => exact wp_seq (wp_quiesce_named hinv hkeeps) fun _ _ _ _ h => wp_pure trivial h
  | restore => exact wp_seq (wp_restore_named hinv) fun _ _ _ _ h => wp_pure trivial h
  | cycleRun holdMs => exact wp_seq (wp_cycleRun_named holdMs hinv hkeeps) fun _ _ _ _ h => wp_pure trivial h
  | policySet d policy =>
      refine wp_seq (P := fun _ ram' b' => Named cfg ram' b') ?_ fun _ _ _ _ h => wp_pure trivial h
      unfold policySet
      split
      · exact wp_pure trivial hinv
      · split
        · exact wp_pure trivial hinv
        · refine wp_get_bind ?_
          split
          · exact wp_pure trivial hinv
          · exact wp_modify_bind (wp_pure trivial (hinv.congr rfl ⟨rfl, rfl⟩ ⟨rfl, rfl⟩ rfl))
  | bind d hooks =>
      refine wp_seq (P := fun _ ram' b' => Named cfg ram' b') (wp_get_bind ?_) fun _ _ _ _ h => wp_pure trivial h
      split
      · exact wp_pure trivial hinv
      · exact wp_modify_bind (wp_pure trivial (hinv.congr rfl ⟨rfl, rfl⟩ ⟨rfl, rfl⟩ rfl))
  | unbind d => exact wp_modify trivial (hinv.congr rfl ⟨rfl, rfl⟩ ⟨rfl, rfl⟩ rfl)
  | bootRestore =>
      refine wp_mono (wp_bootRestore (fun _ _ => acts_telling cfg _ _ _ _) (acts_telling cfg _ _ _ _) rfl) ?_
      intro _ ram' b' _ hfirst
      exact named_of_first hinv hkeeps hfirst
  | bootRestoreI2c =>
      refine wp_mono (wp_bootRestoreI2c (acts_telling cfg _ _ _ _) rfl) ?_
      intro _ ram' b' _ hsecond
      exact named_of_second hinv hkeeps hsecond

-- The steps of a run: an operation that keeps every held domain named, on a board that tells the
-- saved bits, or both passes of a boot in which nothing fails.
inductive Safe (cfg : Config) : Sys → Sys → Prop where
  | op {x y : Sys} (op : Op) (hkeeps : op.Keeps cfg x) (hstep : Step (telling cfg) cfg op x y) : Safe cfg x y
  | boot {x y : Sys} (hundoable : ∀ d ∈ toRestore cfg x.2, Undoable cfg x.1.hooks d)
      (hboot : Exec calm x.2 (coldBoot cfg x.1) (some (some ((), y.1))) y.2) : Safe cfg x y

theorem safe_named {cfg : Config} {x y : Sys} (hsafe : Safe cfg x y) (hinv : Named cfg x.1 x.2) : Named cfg y.1 y.2 := by
  cases hsafe with
  | op op hkeeps hstep => exact step_named hkeeps hinv hstep
  | boot hundoable hboot =>
      have hwp := wp_coldBoot (b := x.2) (fun rec only => acts_calm cfg x.1.hooks rec only _) rfl
      obtain ⟨ram₁, b₁, hfirst, hsecond⟩ := (wp_sound hboot hwp).2.2 _ _ rfl
      exact named_of_coldBoot hinv hundoable hfirst hsecond

-- One boot, on a board whose record, if it has one, has the true bits.
theorem held_domain_named (cfg : Config) (b : Board) {y : Sys} (hstored : b.valid = true → Truthful cfg b b.stored)
    (hrun : Relation.ReflTransGen (Safe cfg) (Ram.fresh, b) y) : Kept cfg y.1 y.2 := by
  have hinv : Named cfg y.1 y.2 := by
    induction hrun with
    | refl => exact ⟨nofun, nofun, nofun, hstored⟩
    | tail _ hlast ih => exact safe_named hlast ih
  exact hinv.kept

section Runs

open Library.Effect (Handler)

variable (cfg : Config) (h : Handler (issuing board Ram) Board)

-- The state after operations one after the other under a handler, and whether all of them end.
def Op.runWith (op : Op) (x : Sys) : Sys :=
  match (op.code cfg x.1).run h x.2 with
  | (some (_, ram), b) => (ram, b)
  | (none, b) => (x.1, b)

def runAll : List Op → Sys → Sys
  | [], x => x
  | op :: rest, x => runAll rest (op.runWith cfg h x)

def endsAll : List Op → Sys → Bool
  | [], _ => true
  | op :: rest, x => ((op.code cfg x.1).run h x.2).1.isSome && endsAll rest (op.runWith cfg h x)

variable {cfg h}

theorem step_runWith (hh : ∀ i b, soc b i (h i b).1 (h i b).2) {op : Op} {x : Sys}
    (hsome : ((op.code cfg x.1).run h x.2).1.isSome = true) : Step soc cfg op x (op.runWith cfg h x) := by
  have hexec := Library.Effect.exec_of_run hh (op.code cfg x.1) x.2
  unfold Step Op.runWith
  cases hout : (op.code cfg x.1).run h x.2 with
  | mk out b =>
      rw [hout] at hexec hsome
      cases out with
      | none => cases hsome
      | some out => exact hexec

theorem reach_runAll (hh : ∀ i b, soc b i (h i b).1 (h i b).2) (ops : List Op) {x : Sys}
    (hends : endsAll cfg h ops x = true) :
    Relation.ReflTransGen (fun x y => ∃ op, Step soc cfg op x y) x (runAll cfg h ops x) := by
  induction ops generalizing x with
  | nil => exact .refl
  | cons op rest ih =>
      obtain ⟨hsome, hrest⟩ := Bool.and_eq_true_iff.mp hends
      exact .head ⟨op, step_runWith hh hsome⟩ (ih hrest)

end Runs

-- A board with nothing held and no record, whose RTC has its refresh paused and whose backlight is
-- off.
def idle : Board where
  pads d := ⟨fun line => line = .enable ∧ d ≠ .backlight, 0, RV3028_CTRL1_EERD, 0⟩
  stored := .zero
  valid := false
  stopStat := false
  coreOff := false
  taken := fun _ => (.auto, ⟨fun _ => false, 0, 0, 0⟩)
  asking := none
  restores := []

-- The healthy board, as far as it tells the saved bits.
def heard (cfg : Config) : Library.Interleave.Memory (issuing board Ram) Board := fun i b =>
  match b.asking with
  | none => some (healthy i b)
  | some d =>
      if tells d (priorBit cfg d (b.taken d).2) i.cmd (healthy i b).1 then some (healthy i b) else none

theorem heard_telling {cfg : Config} (i : Issued board Ram) (b : Board) (out : board.Reply i.cmd × Board)
    (hout : heard cfg i b = some out) : telling cfg b i out.1 out.2 := by
  unfold heard at hout
  cases hasking : b.asking with
  | none =>
      rw [hasking] at hout
      cases hout
      refine ⟨healthy_allowed i b, fun d hd => ?_⟩
      rw [hasking] at hd
      cases hd
  | some d =>
      simp only [hasking] at hout
      split at hout
      · rename_i htells
        cases hout
        refine ⟨healthy_allowed i b, fun c hc => ?_⟩
        rw [hasking] at hc
        cases hc
        exact htells
      · cases hout

-- The record of a STOP keeps that the refresh was paused and that the backlight was off.
theorem held_domain_named_quiesced :
    (idle.valid = true → Truthful e1mAen803 idle idle.stored) ∧
      ∃ y, Relation.ReflTransGen (Safe e1mAen803) (Ram.fresh, idle) y ∧ y.1.state .rtc = .quiesced ∧
        trueBits e1mAen803 .rtc (y.2.taken .rtc) = (false, true) ∧
        trueBits e1mAen803 .backlight (y.2.taken .backlight) = (false, false) ∧
        Kept e1mAen803 y.1 y.2 := by
  have hkeeps : (Op.quiesce .stop).Keeps e1mAen803 (Ram.fresh, idle) := fun _ => .inr nofun
  have hstep : Step (telling e1mAen803) e1mAen803 (.quiesce .stop) (Ram.fresh, idle) (_, _) :=
    Library.Interleave.exec_of_solo heard_telling rfl
  have hrun := Relation.ReflTransGen.single (Safe.op _ hkeeps hstep)
  exact ⟨nofun, _, hrun, by decide, by decide, by decide, held_domain_named e1mAen803 idle nofun hrun⟩

-- The reset line of the NOR flash cannot be released.
def stuckFlash : Library.Effect.Handler (issuing board Ram) Board := fun i b =>
  match i with
  | ⟨_, .configure .extFlash .reset false⟩ => (false, b)
  | i => healthy i b

theorem stuckFlash_allowed (i : Issued board Ram) (b : Board) : soc b i (stuckFlash i b).1 (stuckFlash i b).2 := by
  unfold stuckFlash
  split
  · exact .inr ⟨rfl, rfl⟩
  · exact healthy_allowed _ b

-- The NOR flash stays in reset after a cycle and gets the policy KEEP_ALIVE; the next cycle
-- writes its record over the one that names it.
def forgetfulOps : List Op := [.quiesce .run, .restore, .policySet .extFlash .keepAlive, .quiesce .run]

theorem failed_domain_forgotten :
    ¬∀ cfg b y, (b.valid = true → Truthful cfg b b.stored) →
      Relation.ReflTransGen (fun x y => ∃ op, Step soc cfg op x y) (Ram.fresh, b) y → Kept cfg y.1 y.2 := by
  intro h
  have hrun : Relation.ReflTransGen (fun x y => ∃ op, Step soc e1mAen803 op x y) (Ram.fresh, idle) _ :=
    reach_runAll stuckFlash_allowed forgetfulOps (by decide)
  have hstate : (runAll e1mAen803 stuckFlash forgetfulOps (Ram.fresh, idle)).1.state .extFlash = .restoreFailed := by
    decide
  have hrecord : ((usable (runAll e1mAen803 stuckFlash forgetfulOps (Ram.fresh, idle)).1
      (runAll e1mAen803 stuckFlash forgetfulOps (Ram.fresh, idle)).2).map
        fun rec => decide (Domain.extFlash ∈ rec.quiesced)) = some false := by
    decide
  obtain ⟨rec, husable, hmem, -⟩ := h e1mAen803 idle _ nofun hrun .extFlash (by simp [hstate])
  simp [husable, hmem] at hrecord

-- The register with the refresh bit cannot be read while a quiesce asks for the bit.
def deafRtc : Library.Effect.Handler (issuing board Ram) Board := fun i b =>
  match i with
  | ⟨ram, .rtcRead reg⟩ => if b.asking = some .rtc then (none, b) else healthy ⟨ram, .rtcRead reg⟩ b
  | i => healthy i b

theorem deafRtc_allowed (i : Issued board Ram) (b : Board) : soc b i (deafRtc i b).1 (deafRtc i b).2 := by
  unfold deafRtc
  split
  · split
    · exact ⟨rfl, .inl rfl⟩
    · exact healthy_allowed _ b
  · exact healthy_allowed _ b

-- The record then says that the refresh was not paused.
theorem paused_refresh_forgotten :
    Step soc e1mAen803 (.quiesce .stop) (Ram.fresh, idle)
        ((Op.quiesce .stop).runWith e1mAen803 deafRtc (Ram.fresh, idle)) ∧
      ¬Kept e1mAen803 ((Op.quiesce .stop).runWith e1mAen803 deafRtc (Ram.fresh, idle)).1
        ((Op.quiesce .stop).runWith e1mAen803 deafRtc (Ram.fresh, idle)).2 := by
  refine ⟨step_runWith deafRtc_allowed (by decide), fun hkept => ?_⟩
  have hrecord : ((usable ((Op.quiesce .stop).runWith e1mAen803 deafRtc (Ram.fresh, idle)).1
      ((Op.quiesce .stop).runWith e1mAen803 deafRtc (Ram.fresh, idle)).2).map
        fun rec => rec.bits .rtc) = some (false, false) := by
    decide
  obtain ⟨rec, husable, -, hbits⟩ := hkept .rtc (by decide)
  rw [husable, Option.map_some, hbits] at hrecord
  exact absurd hrecord (by decide)

end AlpSdk.SomPower
