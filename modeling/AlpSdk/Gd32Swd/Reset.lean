import AlpSdk.Gd32Swd.Transfer

-- The reset line, and the pads given back.
namespace AlpSdk.Gd32Swd

open Library.Local

namespace Board

def asserted (b : Board) : Board := b.setOutputLow .nrst

def released (b : Board) : Board := b.setDir .nrst .input

variable {b : Board}

theorem asserted_eq : b.asserted = { b with
    dir := Function.update b.dir .nrst .output
    level := Function.update b.level .nrst false } := by
  unfold asserted setOutputLow settle
  rw [if_neg]
  rintro ⟨-, hreleased⟩
  refine hreleased ⟨?_, ?_⟩
  · simp
  · simp

theorem asserted_held : b.asserted.Held := by
  rw [asserted_eq]
  refine ⟨?_, ?_⟩
  · simp
  · simp

theorem asserted_low : b.asserted.dir .nrst = .output → b.asserted.level .nrst = false :=
  fun _ => asserted_held.2

theorem asserted_core : b.asserted.core = b.core := by
  rw [asserted_eq]

theorem asserted_dir {pad : Pad} (hpad : pad ≠ .nrst) : b.asserted.dir pad = b.dir pad := by
  rw [asserted_eq]
  exact Function.update_of_ne hpad _ _

theorem asserted_driving : b.asserted.Driving ↔ b.Driving := by
  rw [Driving, Driving, asserted_dir (by decide), asserted_dir (by decide)]

theorem ready_asserted : Ready b.asserted :=
  ready_of_quiet asserted_low (fun h => absurd asserted_held h) (Or.inl asserted_held)

-- Writing the level that the pad already has.
theorem asserted_setLevel : b.asserted.setLevel .nrst false = b.asserted := by
  unfold setLevel settle
  have hlevel : Function.update b.asserted.level .nrst false = b.asserted.level := by
    have hlow : b.asserted.level .nrst = false := asserted_held.2
    rw [← hlow]
    exact Function.update_eq_self _ _
  rw [hlevel, if_neg]
  rintro ⟨hheld, hreleased⟩
  exact hreleased hheld

theorem released_dir_nrst : b.released.dir .nrst = .input := by
  unfold released setDir settle
  split
  case isTrue => simp
  case isFalse => simp

theorem released_dir {pad : Pad} (hpad : pad ≠ .nrst) : b.released.dir pad = b.dir pad := by
  unfold released setDir settle
  split
  case isTrue => exact Function.update_of_ne hpad _ _
  case isFalse => exact Function.update_of_ne hpad _ _

theorem released_driving : b.released.Driving ↔ b.Driving := by
  rw [Driving, Driving, released_dir (by decide), released_dir (by decide)]

theorem released_core : b.released.core =
    if b.Held then { b.core with halted := b.core.armed } else b.core := by
  have hnot : ¬ Held { b with dir := Function.update b.dir .nrst .input } := by
    rintro ⟨hdir, -⟩
    simp at hdir
  unfold released setDir settle
  by_cases hheld : b.Held
  · rw [if_pos ⟨hheld, hnot⟩, if_pos hheld]
  · rw [if_neg (fun h => hheld h.1), if_neg hheld]

theorem released_armed : b.released.core.armed = b.core.armed := by
  rw [released_core]
  split
  case isTrue => rfl
  case isFalse => rfl

end Board

section Nrst

variable {faults : Faults} {c : Ctx} {b : Board}

-- The core halts at its vector, or nothing is driven at it.
theorem sound_released (hb : Sound b) (h : b.core.armed = true ∨ ¬ b.Driving) : Sound b.released := by
  refine ⟨⟨?_, ?_⟩, ?_⟩
  · rw [Board.released_dir_nrst]
    exact nofun
  · rw [Board.released_driving]
    intro hdriving
    have harmed := h.resolve_right (not_not.mpr hdriving)
    right
    rw [Board.released_core]
    split
    case isTrue => exact harmed
    case isFalse hheld => exact (hb.still hdriving).resolve_left hheld
  · intro _
    rw [Board.released_core]
    split
    case isTrue => exact id
    case isFalse hheld => exact hb.atVector hheld

theorem wp_swdNrstRelease (hb : Sound b) (h : b.core.armed = true ∨ ¬ b.Driving) :
    wp (board faults) Sound False swdNrstRelease
      (fun _ c' b' => c' = { c with nrstHeld := false } ∧ (b' = b ∨ b' = b.released)) c b := by
  refine wp_issue_bind hb fun reply b' hreply => ?_
  obtain ⟨-, rfl⟩ | ⟨-, -, rfl⟩ := hreply
  · exact wp_modify (sound_released hb h) ⟨rfl, Or.inr rfl⟩
  · exact wp_modify hb ⟨rfl, Or.inl rfl⟩

-- An assertion that fails leaves NRST released, or as it was.
structure AssertFailed (faults : Faults) (c c' : Ctx) (b b' : Board) : Prop where
  fault : faults.assert = true
  ctx : c' = c
  sound : Sound b'
  armed : b'.core.armed = b.core.armed
  dir : ∀ pad, pad ≠ .nrst → b'.dir pad = b.dir pad

theorem wp_swdNrstAssert (hb : Sound b)
    (h : faults.assert = true → b.core.armed = true ∨ ¬ b.Driving) :
    wp (board faults) Sound False swdNrstAssert
      (fun s c' b' => (s = .ok () ∧ c' = { c with nrstHeld := true } ∧ b' = b.asserted)
        ∨ (s ≠ .ok () ∧ AssertFailed faults c c' b b')) c b := by
  have hback : ∀ {b' : Board} {err : AlpError}, faults.assert = true → Sound b' →
      b'.core.armed = b.core.armed → (∀ pad, pad ≠ .nrst → b'.dir pad = b.dir pad) →
      wp (board faults) Sound False (do
          let _ ← perform (.configure .nrst .input .none)
          pure (Except.error err : Status))
        (fun s c' b'' => (s = .ok () ∧ c' = { c with nrstHeld := true } ∧ b'' = b.asserted)
          ∨ (s ≠ .ok () ∧ AssertFailed faults c c' b b'')) c b' := by
    intro b' err hfault hb' harmed hdir
    have hdriving : b'.Driving ↔ b.Driving := by
      rw [Board.Driving, Board.Driving, hdir _ (by decide), hdir _ (by decide)]
    refine wp_issue_bind hb' fun reply b'' hreply => ?_
    have hrel : b'' = b'.released ∨ b'' = b' := by
      obtain ⟨-, heq⟩ | ⟨-, -, heq⟩ := hreply
      · exact Or.inl heq
      · exact Or.inr heq
    obtain rfl | rfl := hrel
    · have hreleased : Sound b'.released := by
        refine sound_released hb' ?_
        rw [harmed, hdriving]
        exact h hfault
      refine wp_pure hreleased (Or.inr ⟨nofun, hfault, rfl, hreleased, ?_, ?_⟩)
      · exact Board.released_armed.trans harmed
      · exact fun pad hpad => (Board.released_dir hpad).trans (hdir pad hpad)
    · exact wp_pure hb' (Or.inr ⟨nofun, hfault, rfl, hb', harmed, hdir⟩)
  refine wp_issue_bind hb fun reply b' hreply => ?_
  obtain ⟨rfl, rfl⟩ | ⟨hfault, hfailed, rfl⟩ := hreply
  · have hasserted : Sound b.asserted := Board.ready_asserted.toSound
    refine wp_issue_bind hasserted fun reply b' hreply => ?_
    obtain ⟨rfl, rfl⟩ | ⟨hfault, hfailed, rfl⟩ := hreply
    · have hlevel : (b.setOutputLow .nrst).setLevel .nrst false = b.asserted :=
        Board.asserted_setLevel
      rw [hlevel]
      exact wp_modify_bind (wp_pure hasserted (Or.inl ⟨rfl, rfl, rfl⟩))
    · cases reply with
      | ok value => exact absurd rfl hfailed
      | error err =>
          exact hback hfault hasserted (congrArg Core.armed Board.asserted_core)
            fun _ => Board.asserted_dir
  · cases reply with
    | ok value => exact absurd rfl hfailed
    | error err => exact hback hfault hb rfl fun _ _ => rfl

end Nrst

section Inputs

variable {faults : Faults} {c : Ctx} {b : Board}

-- Fewer pads may be driven; the rest is as it was.
structure Eased (b b' : Board) : Prop where
  nrstDir : b'.dir .nrst = b.dir .nrst
  nrstLevel : b'.level .nrst = b.level .nrst
  core : b'.core = b.core
  driven : ∀ pad, pad ≠ .nrst → b'.dir pad = .output → b.dir pad = .output

namespace Eased

variable {b' b'' : Board}

theorem same (b : Board) : Eased b b := ⟨rfl, rfl, rfl, fun _ _ h => h⟩

theorem trans (h : Eased b b') (h' : Eased b' b'') : Eased b b'' :=
  ⟨h'.nrstDir.trans h.nrstDir, h'.nrstLevel.trans h.nrstLevel, h'.core.trans h.core,
    fun pad hpad hdriven => h.driven pad hpad (h'.driven pad hpad hdriven)⟩

theorem held (h : Eased b b') : b'.Held ↔ b.Held := by
  rw [Board.Held, Board.Held, h.nrstDir, h.nrstLevel]

theorem driving (h : Eased b b') (hdriving : b'.Driving) : b.Driving := by
  cases hdriving with
  | inl hdriven => exact Or.inl (h.driven .swdio (by decide) hdriven)
  | inr hdriven => exact Or.inr (h.driven .swclk (by decide) hdriven)

theorem sound (h : Eased b b') (hb : Sound b) : Sound b' := by
  refine ⟨⟨?_, ?_⟩, ?_⟩
  · rw [h.nrstDir, h.nrstLevel]
    exact hb.low
  · rw [h.held, h.core]
    exact fun hdriving => hb.still (h.driving hdriving)
  · rw [h.held, h.core]
    exact hb.atVector

end Eased

theorem eased_setDir_input {pad : Pad} (hpad : pad ≠ .nrst) (b : Board) : Eased b (b.setDir pad .input) := by
  rw [setDir_other hpad]
  refine ⟨Function.update_of_ne hpad.symm _ _, rfl, rfl, fun pad' _ hdriven => ?_⟩
  by_cases hsame : pad' = pad
  · subst hsame
    simp at hdriven
  · simpa [hsame] using hdriven

theorem wp_padToInput {pad : Pad} (hpad : pad ≠ .nrst) (opened : Bool) (hb : Sound b) :
    wp (board faults) Sound False (padToInput opened pad)
      (fun _ c' b' => c' = c ∧ Eased b b'
        ∧ (faults.toInput = false → opened = true → b'.dir pad = .input)) c b := by
  unfold padToInput
  split
  case isTrue =>
    refine wp_issue_bind hb fun reply b' hreply => ?_
    obtain ⟨-, rfl⟩ | ⟨hfault, -, rfl⟩ := hreply
    · refine wp_pure ((eased_setDir_input hpad b).sound hb) ⟨rfl, eased_setDir_input hpad b, ?_⟩
      intro _ _
      rw [setDir_other hpad]
      exact Function.update_self _ _ _
    · refine wp_pure hb ⟨rfl, Eased.same _, fun hsure _ => ?_⟩
      have hmay : faults.mayFail b'.acked (.configure pad .input .none) = faults.toInput := by
        cases pad with
        | swdio => rfl
        | swclk => rfl
        | nrst => exact absurd rfl hpad
      rw [hmay, hsure] at hfault
      cases hfault
  case isFalse hclosed => exact wp_pure hb ⟨rfl, Eased.same _, fun _ hopened => absurd hopened hclosed⟩

theorem wp_swdPadsToInputs (hb : Sound b) :
    wp (board faults) Sound False swdPadsToInputs
      (fun _ c' b' => c' = c ∧ Eased b b'
        ∧ (faults.toInput = false → c.swclk = true → c.swdio = true → ¬ b'.Driving)) c b := by
  refine wp_get_bind ?_
  refine wp_seq (wp_padToInput (by decide) _ hb) ?_
  rintro _ _ b₁ hsound ⟨rfl, h₁, hswclk⟩
  refine wp_mono (wp_padToInput (by decide) _ hsound) ?_
  rintro _ _ b₂ _ ⟨rfl, h₂, hswdio⟩
  refine ⟨rfl, h₁.trans h₂, fun hsure hclk hdio => ?_⟩
  rintro (hdriven | hdriven)
  · rw [hswdio hsure hdio] at hdriven
    cases hdriven
  · have hbefore := h₂.driven .swclk (by decide) hdriven
    rw [hswclk hsure hclk] at hbefore
    cases hbefore

-- Inputs first: then nothing is driven at a core that may run.
theorem Eased.releasable {b' : Board} (heased : Eased b b')
    (hinputs : faults.toInput = false → ¬ b'.Driving)
    (h : b.core.armed = true ∨ ¬ b.Driving ∨ faults.toInput = false) :
    b'.core.armed = true ∨ ¬ b'.Driving := by
  rw [heased.core]
  obtain harmed | hidle | hsure := h
  · exact Or.inl harmed
  · exact Or.inr fun hdriving => hidle (heased.driving hdriving)
  · exact Or.inr (hinputs hsure)

end Inputs

section Frame

variable {faults : Faults} {c : Ctx} {b : Board}

theorem wp_closeOpened (opened : Bool) (pad : Pad) (hb : Sound b) :
    wp (board faults) Sound False (closeOpened opened pad) (fun _ c' b' => c' = c ∧ b' = b) c b := by
  unfold closeOpened
  split
  case isTrue => exact wp_issue hb fun _ b' (hreply : b' = b) => ⟨hreply ▸ hb, rfl, hreply⟩
  case isFalse => exact wp_pure hb ⟨rfl, rfl⟩

theorem wp_swdClosePads (hb : Sound b) :
    wp (board faults) Sound False swdClosePads (fun _ c' b' => c' = c ∧ b' = b) c b := by
  refine wp_get_bind ?_
  split
  case isTrue => exact wp_pure hb ⟨rfl, rfl⟩
  case isFalse =>
    refine wp_seq (wp_closeOpened _ _ hb) ?_
    rintro _ _ _ _ ⟨rfl, rfl⟩
    refine wp_seq (wp_closeOpened _ _ hb) ?_
    rintro _ _ _ _ ⟨rfl, rfl⟩
    exact wp_closeOpened _ _ hb

theorem wp_endSession (s : Status) (hb : Sound b) :
    wp (board faults) Sound False (endSession s) (fun _ c' _ => c' = .zero) c b := by
  refine wp_seq (wp_swdClosePads hb) ?_
  rintro _ _ _ _ ⟨rfl, rfl⟩
  refine wp_issue_bind hb fun _ b' (hreply : b' = _) => ?_
  rw [hreply]
  exact wp_modify_bind (wp_pure hb rfl)

end Frame

end AlpSdk.Gd32Swd
