import AlpSdk.Gd32Swd.Board

-- What the transfers do to the pads and to the core.
namespace AlpSdk.Gd32Swd

open Library.Local

theorem Ready.of_same {b b' : Board} (hb : Ready b) (hdir : b'.dir .nrst = b.dir .nrst)
    (hlevel : b'.level .nrst = b.level .nrst) (hcore : b'.core = b.core) : Ready b' := by
  have hheld : b'.Held ↔ b.Held := by rw [Board.Held, Board.Held, hdir, hlevel]
  refine ready_of_quiet ?_ ?_ ?_
  · rw [hdir, hlevel]
    exact hb.low
  · rw [hheld, hcore]
    exact hb.atVector
  · rw [hheld, hcore]
    exact hb.quiet

-- The direction that the context remembers of SWDIO is right where SWCLK is driven.
def Tracks (c : Ctx) (b : Board) : Prop :=
  b.dir .swclk = .output → c.swdioIsOutput = true → b.dir .swdio = .output

-- What a transfer leaves alone.
structure Carried (c c' : Ctx) (b b' : Board) : Prop where
  ctx : ∃ isOutput idcode, c' = { c with swdioIsOutput := isOutput, idcode := idcode }
  nrstDir : b'.dir .nrst = b.dir .nrst
  nrstLevel : b'.level .nrst = b.level .nrst
  swclk : b'.dir .swclk = b.dir .swclk
  tracks : Tracks c b → Tracks c' b'

namespace Carried

variable {c c' c'' : Ctx} {b b' b'' : Board}

theorem same (c : Ctx) (b : Board) : Carried c c b b := ⟨⟨_, _, rfl⟩, rfl, rfl, rfl, id⟩

theorem trans (h : Carried c c' b b') (h' : Carried c' c'' b' b'') : Carried c c'' b b'' := by
  obtain ⟨isOutput, idcode, hctx⟩ := h'.ctx
  obtain ⟨isOutput', idcode', hctx'⟩ := h.ctx
  refine ⟨⟨isOutput, idcode, ?_⟩, h'.nrstDir.trans h.nrstDir, h'.nrstLevel.trans h.nrstLevel,
    h'.swclk.trans h.swclk, fun htracks => h'.tracks (h.tracks htracks)⟩
  rw [hctx, hctx']

theorem held (h : Carried c c' b b') : b'.Held ↔ b.Held := by
  rw [Board.Held, Board.Held, h.nrstDir, h.nrstLevel]

-- Under reset nothing that a transfer brings about makes the core run.
theorem ready (h : Carried c c' b b') (hb : Ready b) (hheld : b.Held) : Ready b' := by
  have hheld' := h.held.mpr hheld
  refine ready_of_quiet ?_ (fun hnot => absurd hheld' hnot) (Or.inl hheld')
  rw [h.nrstDir, h.nrstLevel]
  exact hb.low

end Carried

-- The core is left alone too, and on a condition the address register.
structure Still (k : Prop) (c c' : Ctx) (b b' : Board) : Prop extends Carried c c' b b' where
  core : b'.core = b.core
  tar : k → b'.tar = b.tar

namespace Still

variable {k : Prop} {c c' c'' : Ctx} {b b' b'' : Board}

theorem same (k : Prop) (c : Ctx) (b : Board) : Still k c c b b := ⟨.same c b, rfl, fun _ => rfl⟩

theorem trans (h : Still k c c' b b') (h' : Still k c' c'' b' b'') : Still k c c'' b b'' :=
  ⟨h.toCarried.trans h'.toCarried, h'.core.trans h.core, fun hk => (h'.tar hk).trans (h.tar hk)⟩

theorem ready (h : Still k c c' b b') (hb : Ready b) : Ready b' :=
  hb.of_same h.nrstDir h.nrstLevel h.core

theorem weaken (h : Still True c c' b b') : Still k c c' b b' :=
  ⟨h.toCarried, h.core, fun _ => h.tar trivial⟩

end Still

-- An acknowledged write may be lost.
def MayLose (faults : Faults) (c : Ctx) (b : Board) : Prop :=
  faults.toOutput = false → Tracks c b → b.dir .swclk ≠ .output

theorem Carried.mayLose {faults : Faults} {c c' : Ctx} {b b' : Board} (h : Carried c c' b b')
    (hlose : MayLose faults c' b') : MayLose faults c b := by
  intro hturn htracks
  rw [← h.swclk]
  exact hlose hturn (h.tracks htracks)

-- Every acknowledged write that can arrive does.
def Faults.Sure (faults : Faults) (c : Ctx) (b : Board) : Prop := faults.toOutput = false ∧ Tracks c b

-- Code that a core in reset can take, whatever fails.
def Kept {α : Type} (m : Swd α) : Prop :=
  ∀ faults c b, Ready b → b.Held →
    wp (board faults) Sound False m (fun _ c' b' => Carried c c' b b' ∧ Ready b') c b

-- Code that only transfers: it leaves the core alone where the bits do not fail. Code that writes to
-- memory besides needs (`t`) that no write is lost.
structure Gentle {α : Type} (t k : Prop) (m : Swd α) : Prop where
  kept : Kept m
  still : ∀ (faults : Faults) c b, Ready b → faults.bits = false → (t → faults.Sure c b) →
    wp (board faults) Sound False m (fun _ c' b' => Still k c c' b b') c b

namespace Kept

variable {α β : Type}

theorem pure (value : α) : Kept (Pure.pure value : Swd α) :=
  fun _ c b hb _ => wp_pure hb.toSound ⟨.same c b, hb⟩

theorem bind {m : Swd α} {f : α → Swd β} (hm : Kept m) (hf : ∀ value, Kept (f value)) : Kept (m >>= f) := by
  intro faults c b hb hheld
  refine wp_seq (hm faults c b hb hheld) fun value c' b' _ hfirst => ?_
  refine wp_mono (hf value faults c' b' hfirst.2 (hfirst.1.held.mpr hheld)) fun _ c'' b'' _ hrest => ?_
  exact ⟨hfirst.1.trans hrest.1, hrest.2⟩

end Kept

namespace Gentle

variable {t k : Prop} {α β : Type}

theorem pure (value : α) : Gentle t k (Pure.pure value : Swd α) :=
  ⟨Kept.pure value, fun _ c b hb _ _ => wp_pure hb.toSound (Still.same k c b)⟩

theorem bind {m : Swd α} {f : α → Swd β} (hm : Gentle t k m) (hf : ∀ value, Gentle t k (f value)) :
    Gentle t k (m >>= f) := by
  refine ⟨hm.kept.bind fun value => (hf value).kept, fun faults c b hb hbits hsure => ?_⟩
  refine wp_seq (hm.still faults c b hb hbits hsure) fun value c' b' _ hfirst => ?_
  have hsure' : t → faults.Sure c' b' := fun ht => ⟨(hsure ht).1, hfirst.tracks (hsure ht).2⟩
  refine wp_mono ((hf value).still faults c' b' (hfirst.ready hb) hbits hsure') fun _ c'' b'' _ hrest => ?_
  exact hfirst.trans hrest

theorem get {f : Ctx → Swd β} (hf : ∀ c, Gentle t k (f c)) : Gentle t k (Library.Local.get >>= f) :=
  ⟨fun faults c b hb => (hf c).kept faults c b hb, fun faults c b hb => (hf c).still faults c b hb⟩

theorem ite {p : Prop} [Decidable p] {m m' : Swd α} (hm : Gentle t k m) (hm' : Gentle t k m') :
    Gentle t k (if p then m else m') := by
  split
  case isTrue => exact hm
  case isFalse => exact hm'

-- Code that leaves everything alone whatever fails.
theorem of_still {m : Swd α}
    (h : ∀ faults c b, Ready b →
      wp (board faults) Sound False m (fun _ c' b' => Still k c c' b b') c b) : Gentle t k m := by
  refine ⟨fun faults c b hb _ => ?_, fun faults c b hb _ _ => h faults c b hb⟩
  exact wp_mono (h faults c b hb) fun _ _ _ _ hstill => ⟨hstill.toCarried, hstill.ready hb⟩

-- Either way the pads and the core stay as safe as they were.
theorem safely {m : Swd α} (hm : Gentle t k m) {faults : Faults} {c : Ctx} {b : Board} (hb : Ready b)
    (h : b.Held ∨ (faults.bits = false ∧ (t → faults.Sure c b))) :
    wp (board faults) Sound False m (fun _ c' b' => Carried c c' b b' ∧ Ready b') c b := by
  obtain hheld | ⟨hbits, hsure⟩ := h
  · exact hm.kept faults c b hb hheld
  · exact wp_mono (hm.still faults c b hb hbits hsure) fun _ _ _ _ hstill =>
      ⟨hstill.toCarried, hstill.ready hb⟩

-- Code to which it does not matter that a write may be lost.
theorem loose {m : Swd α} (hm : Gentle False k m) {faults : Faults} (c : Ctx) {b : Board} (hb : Ready b)
    (hbits : faults.bits = false) :
    wp (board faults) Sound False m (fun _ c' b' => Still k c c' b b') c b :=
  hm.still faults c b hb hbits nofun

theorem modify_idcode (idcode : UInt32) :
    Gentle t k (Library.Local.modify fun ctx => { ctx with idcode := idcode }) :=
  of_still fun _ c _ hb => wp_modify hb.toSound
    ⟨⟨⟨c.swdioIsOutput, idcode, rfl⟩, rfl, rfl, rfl, id⟩, rfl, fun _ => rfl⟩

end Gentle

variable {t k : Prop}

-- A command that changes nothing but what is known of the last request.
theorem gentle_idle {cmd : Cmd}
    (h : ∀ faults (b : Board) reply b', b.allows faults cmd reply b' → ∃ acked, b' = { b with acked := acked }) :
    Gentle t k (perform cmd) := by
  refine .of_still fun faults c b hb => wp_issue hb.toSound fun reply b' hreply => ?_
  obtain ⟨acked, rfl⟩ := h faults b reply b' hreply
  have hstill : Still k c c b { b with acked := acked } := ⟨⟨⟨_, _, rfl⟩, rfl, rfl, rfl, id⟩, rfl, fun _ => rfl⟩
  exact ⟨(hstill.ready hb).toSound, hstill⟩

theorem setDir_other {pad : Pad} (hpad : pad ≠ .nrst) (b : Board) (dir : Dir) :
    b.setDir pad dir = { b with dir := Function.update b.dir pad dir } := by
  unfold Board.setDir Board.settle
  rw [if_neg]
  rintro ⟨hheld, hreleased⟩
  refine hreleased ⟨?_, hheld.2⟩
  exact (Function.update_of_ne hpad.symm _ _).trans hheld.1

theorem setLevel_other {pad : Pad} (hpad : pad ≠ .nrst) (b : Board) (level : Bool) :
    b.setLevel pad level = { b with level := Function.update b.level pad level } := by
  unfold Board.setLevel Board.settle
  rw [if_neg]
  rintro ⟨hheld, hreleased⟩
  refine hreleased ⟨hheld.1, ?_⟩
  exact (Function.update_of_ne hpad.symm _ _).trans hheld.2

-- SWDIO turned, and the context told.
theorem still_turned (isOutput : Bool) (c : Ctx) (b : Board) :
    Still k c { c with swdioIsOutput := isOutput } b
      (b.setDir .swdio (if isOutput then .output else .input)) := by
  rw [setDir_other (by decide)]
  refine ⟨⟨⟨isOutput, c.idcode, rfl⟩, rfl, rfl, rfl, fun _ _ hsaid => ?_⟩, rfl, fun _ => rfl⟩
  obtain rfl : isOutput = true := hsaid
  simp

theorem gentle_swdioAsOutput : Gentle t k swdioAsOutput := by
  refine Gentle.get fun ctx => Gentle.ite (Gentle.pure _) ?_
  refine .of_still fun faults c b hb => wp_issue_bind hb.toSound fun reply b' hreply => ?_
  obtain ⟨rfl, rfl⟩ | ⟨-, hfailed, rfl⟩ := hreply
  · have hstill : Still k c _ b _ := still_turned true c b
    exact wp_modify_bind (wp_pure (hstill.ready hb).toSound hstill)
  · cases reply with
    | ok value => exact absurd rfl hfailed
    | error err => exact wp_pure hb.toSound (Still.same k c b')

theorem gentle_swdioAsInput : Gentle t k swdioAsInput := by
  refine Gentle.get fun ctx => Gentle.ite (Gentle.pure _) ?_
  refine .of_still fun faults c b hb => wp_issue_bind hb.toSound fun reply b' hreply => ?_
  obtain ⟨rfl, rfl⟩ | ⟨-, hfailed, rfl⟩ := hreply
  · have hstill : Still k c _ b _ := still_turned false c b
    exact wp_modify_bind (wp_pure (hstill.ready hb).toSound hstill)
  · cases reply with
    | ok value => exact absurd rfl hfailed
    | error err => exact wp_pure hb.toSound (Still.same k c b')

theorem gentle_swdLineReset : Gentle t k swdLineReset :=
  Gentle.bind gentle_swdioAsOutput fun _ => gentle_idle fun _ b _ _ h => ⟨b.acked, h⟩

theorem gentle_swdJtagToSwdSwitch : Gentle t k swdJtagToSwdSwitch :=
  Gentle.bind gentle_swdioAsOutput fun _ => gentle_idle fun _ b _ _ h => ⟨b.acked, h⟩

theorem gentle_header (ap rnw : Bool) (addr : UInt8) : Gentle t k (perform (.header ap rnw addr)) :=
  gentle_idle fun _ _ _ _ h => ⟨_, h⟩

theorem gentle_ack : Gentle t k (perform .ack) := gentle_idle fun _ _ _ _ h => ⟨_, h⟩

theorem gentle_swdXfer_read (ap : Bool) (addr : UInt8) (data : UInt32) :
    Gentle t k (swdXfer ap true addr data) := by
  refine Gentle.get fun ctx => Gentle.ite (Gentle.pure _) ?_
  refine Gentle.bind gentle_swdioAsOutput fun _ => ?_
  refine Gentle.bind (gentle_header _ _ _) fun _ => ?_
  refine Gentle.bind gentle_swdioAsInput fun _ => ?_
  refine Gentle.bind gentle_ack fun ack => Gentle.ite ?_ ?_
  · rw [if_pos rfl]
    refine Gentle.bind (gentle_idle fun _ _ _ _ h => ⟨_, h⟩) fun reply => ?_
    exact Gentle.bind gentle_swdioAsOutput fun _ => Gentle.pure _
  · exact Gentle.bind gentle_swdioAsOutput fun _ => Gentle.pure _

section Write

variable {faults : Faults} {ap : Bool} {addr : UInt8} {value : UInt32} {c : Ctx} {b : Board}

theorem dataWritten_dir : (b.dataWritten ap addr value).dir = b.dir := by
  unfold Board.dataWritten
  split
  case isTrue => rfl
  case isFalse =>
    split
    case isTrue => rfl
    case isFalse => rfl

theorem dataWritten_level : (b.dataWritten ap addr value).level = b.level := by
  unfold Board.dataWritten
  split
  case isTrue => rfl
  case isFalse =>
    split
    case isTrue => rfl
    case isFalse => rfl

theorem carried_dataWritten : Carried c c b (b.dataWritten ap addr value) := by
  refine ⟨⟨_, _, rfl⟩, ?_, ?_, ?_, ?_⟩
  · rw [dataWritten_dir]
  · rw [dataWritten_level]
  · rw [dataWritten_dir]
  · rw [Tracks, Tracks, dataWritten_dir]
    exact id

theorem kept_writeData : Kept (perform (.writeData ap addr value)) := by
  intro faults c b hb hheld
  refine wp_issue hb.toSound fun reply b' hreply => ?_
  have hcarried : Carried c c b b' := by
    obtain rfl | ⟨-, ap', addr', value', rfl⟩ := hreply
    · unfold Board.dataSent
      split
      case isTrue => exact carried_dataWritten
      case isFalse => exact .same c b
    · exact carried_dataWritten
  have hready := hcarried.ready hb hheld
  exact ⟨hready.toSound, hcarried, hready⟩

theorem kept_swdXfer_write : Kept (swdXfer ap false addr value) := by
  have hidle : ∀ (out : Ack × UInt32), Gentle True True (pure out : Swd _) := fun out => Gentle.pure out
  have hturned : ∀ (out : Ack × UInt32),
      Kept (do let _ ← swdioAsOutput; pure out) :=
    fun out => (Gentle.bind (t := True) (k := True) gentle_swdioAsOutput fun _ => hidle out).kept
  intro faults c b hb hheld
  refine wp_get_bind ?_
  split
  case isTrue => exact (hidle _).kept faults c b hb hheld
  case isFalse =>
    refine Kept.bind (gentle_swdioAsOutput (t := True) (k := True)).kept (fun _ => ?_) faults c b hb hheld
    refine Kept.bind (gentle_header (t := True) (k := True) _ _ _).kept fun _ => ?_
    refine Kept.bind (gentle_swdioAsInput (t := True) (k := True)).kept fun _ => ?_
    refine Kept.bind (gentle_ack (t := True) (k := True)).kept fun ack => ?_
    split
    case isTrue =>
      rw [if_neg (by decide)]
      refine Kept.bind (gentle_swdioAsOutput (t := True) (k := True)).kept fun _ => ?_
      exact Kept.bind kept_writeData fun _ => (hidle _).kept
    case isFalse => exact hturned _

theorem kept_retrying {xfer : Swd (Ack × UInt32)} (h : Kept xfer) (rounds : Nat) :
    Kept (retrying xfer rounds) := by
  induction rounds with
  | zero => exact Kept.pure _
  | succ rounds ih =>
      refine Kept.bind h fun out => ?_
      obtain ⟨ack, data⟩ := out
      cases ack with
      | ok => exact Kept.pure _
      | wait => exact ih
      | other => exact Kept.pure _

-- Where an acknowledged write leaves the board: at its register, or lost.
def Arrived (faults : Faults) (ap : Bool) (addr : UInt8) (value : UInt32) (c : Ctx) (b b₀ : Board) : Prop :=
  (b.dir .swclk = .output ∧ b₀ = b.dataWritten ap addr value) ∨ (MayLose faults c b ∧ b₀ = b)

-- What a write does where it is acknowledged.
def Written (faults : Faults) (ap : Bool) (addr : UInt8) (value : UInt32) (done : Prop) (c c' : Ctx)
    (b b' : Board) : Prop :=
  (done ∧ ∃ b₀, Arrived faults ap addr value c b b₀ ∧ Still True c c' b₀ b')
    ∨ (¬ done ∧ Still True c c' b b')

variable (ap addr value) in
theorem dataWritten_still {c' : Ctx} {b' : Board} (h : Still True c c' b b') :
    Still True c c' (b.dataWritten ap addr value) (b'.dataWritten ap addr value) := by
  have hcarried : Carried c c' (b.dataWritten ap addr value) (b'.dataWritten ap addr value) := by
    refine ⟨h.ctx, ?_, ?_, ?_, ?_⟩
    · rw [dataWritten_dir, dataWritten_dir, h.nrstDir]
    · rw [dataWritten_level, dataWritten_level, h.nrstLevel]
    · rw [dataWritten_dir, dataWritten_dir, h.swclk]
    · rw [Tracks, Tracks, dataWritten_dir, dataWritten_dir]
      exact h.tracks
  refine ⟨hcarried, ?_, fun _ => ?_⟩
  · simp only [Board.dataWritten]
    split
    case isTrue => exact h.core
    case isFalse =>
      split
      case isTrue => rw [h.core, h.tar trivial]
      case isFalse => exact h.core
  · simp only [Board.dataWritten]
    split
    case isTrue => rfl
    case isFalse =>
      split
      case isTrue => exact h.tar trivial
      case isFalse => exact h.tar trivial

-- A board on which the write arrives follows the one on which it did.
theorem Arrived.after_still {c₁ : Ctx} {b₁ b₀ : Board} (h : Still True c c₁ b b₁)
    (harrived : Arrived faults ap addr value c₁ b₁ b₀) :
    ∃ b₂, Arrived faults ap addr value c b b₂ ∧ Still True c c₁ b₂ b₀ := by
  obtain ⟨hclk, rfl⟩ | ⟨hlose, rfl⟩ := harrived
  · exact ⟨_, Or.inl ⟨h.swclk ▸ hclk, rfl⟩, dataWritten_still ap addr value h⟩
  · exact ⟨b, Or.inr ⟨h.mayLose hlose, rfl⟩, h⟩

theorem Written.after_still {done : Prop} {c₁ c' : Ctx} {b₁ b' : Board} (h : Still True c c₁ b b₁)
    (hwritten : Written faults ap addr value done c₁ c' b₁ b') :
    Written faults ap addr value done c c' b b' := by
  obtain ⟨hdone, b₀, harrived, hstill⟩ | ⟨hdone, hstill⟩ := hwritten
  · obtain ⟨b₂, hfirst, hrest⟩ := harrived.after_still h
    exact Or.inl ⟨hdone, b₂, hfirst, hrest.trans hstill⟩
  · exact Or.inr ⟨hdone, h.trans hstill⟩

-- Behind an acknowledge SWDIO is turned, or the data are lost.
theorem wp_swdioAsOutput_acked (hb : Ready b) (hacked : b.acked = true) :
    wp (board faults) Sound False swdioAsOutput (fun _ c' b' => Still True c c' b b'
      ∧ (faults.toOutput = false → c'.swdioIsOutput = true)) c b := by
  refine wp_get_bind ?_
  split
  case isTrue htold => exact wp_pure hb.toSound ⟨.same _ _ _, fun _ => htold⟩
  case isFalse =>
    refine wp_issue_bind hb.toSound fun reply b' hreply => ?_
    obtain ⟨rfl, rfl⟩ | ⟨hfault, hfailed, rfl⟩ := hreply
    · have hstill : Still True c _ b _ := still_turned true c b
      exact wp_modify_bind (wp_pure (hstill.ready hb).toSound ⟨hstill, fun _ => rfl⟩)
    · cases reply with
      | ok value => exact absurd rfl hfailed
      | error err =>
          refine wp_pure hb.toSound ⟨.same _ _ _, fun hturn => ?_⟩
          simp [Faults.mayFail, hacked, hturn] at hfault

theorem wp_writeData (hb : Ready b) (hbits : faults.bits = false)
    (htold : faults.toOutput = false → c.swdioIsOutput = true)
    (hafter : b.dir .swclk = .output → Ready (b.dataWritten ap addr value)) :
    wp (board faults) Sound False (perform (.writeData ap addr value))
      (fun _ c' b' => c' = c ∧ Arrived faults ap addr value c b b' ∧ Ready b') c b := by
  refine wp_issue hb.toSound fun reply b' hreply => ?_
  have hsent : b' = b.dataSent ap addr value := by
    obtain hsent | ⟨hfault, -⟩ := hreply
    · exact hsent
    · simp [hbits] at hfault
  unfold Board.dataSent at hsent
  split at hsent
  case isTrue hdriven =>
    obtain rfl := hsent
    exact ⟨(hafter hdriven.1).toSound, rfl, Or.inl ⟨hdriven.1, rfl⟩, hafter hdriven.1⟩
  case isFalse hundriven =>
    obtain rfl := hsent
    refine ⟨hb.toSound, rfl, Or.inr ⟨fun hturn htracks hclk => ?_, rfl⟩, hb⟩
    exact hundriven ⟨hclk, htracks hclk (htold hturn)⟩

theorem wp_swdXfer_write (hb : Ready b) (hbits : faults.bits = false)
    (hafter : b.dir .swclk = .output → Ready (b.dataWritten ap addr value)) :
    wp (board faults) Sound False (swdXfer ap false addr value)
      (fun out c' b' => Written faults ap addr value (out.1 = .ok) c c' b b') c b := by
  refine wp_get_bind ?_
  split
  case isTrue => exact wp_pure hb.toSound (Or.inr ⟨nofun, Still.same _ _ _⟩)
  case isFalse =>
    refine wp_seq (gentle_swdioAsOutput.loose (k := True) c hb hbits) fun _ c₁ b₁ _ h₁ => ?_
    refine wp_seq ((gentle_header _ _ _).loose (k := True) c₁ (h₁.ready hb) hbits) fun _ c₂ b₂ _ h₂ => ?_
    have h₂ := h₁.trans h₂
    refine wp_seq (gentle_swdioAsInput.loose (k := True) c₂ (h₂.ready hb) hbits) fun _ c₃ b₃ _ h₃ => ?_
    have h₃ := h₂.trans h₃
    have hack : ∀ acked, Still True c₃ c₃ b₃ { b₃ with acked := acked } :=
      fun acked => ⟨⟨⟨_, _, rfl⟩, rfl, rfl, rfl, id⟩, rfl, fun _ => rfl⟩
    refine wp_issue_bind (h₃.ready hb).toSound fun ack b₄ (hreply : b₄ = _) => ?_
    have h₄ : Still True c c₃ b b₄ := by
      rw [hreply]
      exact h₃.trans (hack _)
    split
    case isTrue hok =>
      rw [if_neg (by decide)]
      have hacked : b₄.acked = true := by simp [hreply, hok]
      refine wp_seq (wp_swdioAsOutput_acked (h₄.ready hb) hacked) fun _ c₅ b₅ _ ⟨h₅, htold⟩ => ?_
      have h₅ := h₄.trans h₅
      have hready : b₅.dir .swclk = .output → Ready (b₅.dataWritten ap addr value) := by
        intro hclk
        exact (dataWritten_still ap addr value h₅).ready (hafter (h₅.swclk ▸ hclk))
      refine wp_seq (wp_writeData (h₅.ready hb) hbits htold hready) ?_
      rintro _ _ b₆ hsound ⟨rfl, harrived, -⟩
      obtain ⟨b₀, hfirst, hrest⟩ := harrived.after_still h₅
      refine wp_pure hsound (Or.inl ⟨?_, b₀, hfirst, hrest⟩)
      rfl
    case isFalse hother =>
      refine wp_seq (gentle_swdioAsOutput.loose (k := True) _ (h₄.ready hb) hbits)
        fun _ c₅ b₅ hsound h₅ => ?_
      exact wp_pure hsound (Or.inr ⟨hother, h₄.trans h₅⟩)

-- A refused write is retried with nothing written.
theorem wp_retrying_write (rounds : Nat) (hb : Ready b) (hbits : faults.bits = false)
    (hafter : b.dir .swclk = .output → Ready (b.dataWritten ap addr value)) :
    wp (board faults) Sound False (retrying (swdXfer ap false addr value) rounds)
      (fun r c' b' => Written faults ap addr value (∃ data, r = .ok data) c c' b b') c b := by
  induction rounds generalizing c b with
  | zero => exact wp_pure hb.toSound (Or.inr ⟨nofun, Still.same _ _ _⟩)
  | succ rounds ih =>
      refine wp_seq (wp_swdXfer_write hb hbits hafter) fun out c' b' hsound hwritten => ?_
      obtain ⟨ack, data⟩ := out
      obtain ⟨hack, b₀, harrived, hstill⟩ | ⟨hack, hstill⟩ := hwritten
      · obtain rfl : ack = .ok := hack
        exact wp_pure hsound (Or.inl ⟨⟨data, rfl⟩, b₀, harrived, hstill⟩)
      · cases ack with
        | ok => exact absurd rfl hack
        | wait =>
            have hnext : b'.dir .swclk = .output → Ready (b'.dataWritten ap addr value) := fun hclk =>
              (dataWritten_still ap addr value hstill).ready (hafter (hstill.swclk ▸ hclk))
            exact wp_mono (ih (hstill.ready hb) hnext) fun _ _ _ _ hlater => hlater.after_still hstill
        | other => exact wp_pure hsound (Or.inr ⟨nofun, hstill⟩)

end Write

theorem gentle_retrying {xfer : Swd (Ack × UInt32)} (h : Gentle t k xfer) (rounds : Nat) :
    Gentle t k (retrying xfer rounds) := by
  induction rounds with
  | zero => exact Gentle.pure _
  | succ rounds ih =>
      refine Gentle.bind h fun out => ?_
      obtain ⟨ack, data⟩ := out
      cases ack with
      | ok => exact Gentle.pure _
      | wait => exact ih
      | other => exact Gentle.pure _

-- A write to a register that does not reach the memory.
theorem gentle_register {ap : Bool} {addr : UInt8} (value : UInt32) (rounds : Nat)
    (h : ∀ c b, Still k c c b (b.dataWritten ap addr value)) :
    Gentle t k (retrying (swdXfer ap false addr value) rounds) := by
  refine ⟨kept_retrying kept_swdXfer_write rounds, fun faults c b hb hbits _ => ?_⟩
  refine wp_mono (wp_retrying_write rounds hb hbits fun _ => (h c b).ready hb) fun r c' b' _ hwritten => ?_
  obtain ⟨-, b₀, ⟨-, rfl⟩ | ⟨-, rfl⟩, hstill⟩ | ⟨-, hstill⟩ := hwritten
  · exact (h c b).trans hstill.weaken
  · exact hstill.weaken
  · exact hstill.weaken

theorem gentle_swdWriteDp (addr : UInt8) (value : UInt32) : Gentle t k (swdWriteDp addr value) :=
  gentle_register value _ fun c b => Still.same k c b

theorem gentle_swdReadDp (addr : UInt8) : Gentle t k (swdReadDp addr) :=
  gentle_retrying (gentle_swdXfer_read _ _ _) _

theorem gentle_dummyReadAp (addr : UInt8) (rounds : Nat) : Gentle t k (dummyReadAp addr rounds) := by
  induction rounds with
  | zero => exact Gentle.pure _
  | succ rounds ih =>
      refine Gentle.bind (gentle_swdXfer_read _ _ _) fun out => ?_
      obtain ⟨ack, data⟩ := out
      cases ack with
      | ok => exact Gentle.pure _
      | wait => exact ih
      | other => exact Gentle.pure _

theorem gentle_swdReadAp (addr : UInt8) : Gentle t k (swdReadAp addr) := by
  refine Gentle.bind (gentle_dummyReadAp _ _) fun r => ?_
  cases r with
  | error err => exact Gentle.pure _
  | ok value => exact gentle_swdReadDp _

theorem gentle_awaitPowerUp (rounds : Nat) : Gentle t k (awaitPowerUp rounds) := by
  induction rounds with
  | zero => exact Gentle.pure _
  | succ rounds ih =>
      refine Gentle.bind (gentle_swdReadDp _) fun r => ?_
      cases r with
      | error err => exact Gentle.pure _
      | ok stat => exact Gentle.ite (Gentle.pure _) ih

theorem gentle_swdPowerUpDebug : Gentle t k swdPowerUpDebug := by
  refine Gentle.bind (gentle_swdWriteDp _ _) fun r => ?_
  cases r with
  | error err => exact Gentle.pure _
  | ok value => exact gentle_awaitPowerUp _

section Memory

variable {faults : Faults} {addr value : UInt32} {c : Ctx} {b : Board}

theorem gentle_swdWriteAp_csw (value : UInt32) : Gentle t False (swdWriteAp AP_REG_CSW value) :=
  gentle_register _ _ fun c b => Still.same False c b

theorem gentle_swdWriteAp_tar (addr : UInt32) : Gentle t False (swdWriteAp AP_REG_TAR addr) :=
  gentle_register _ _ fun _ _ => ⟨⟨⟨_, _, rfl⟩, rfl, rfl, rfl, id⟩, rfl, nofun⟩

theorem gentle_swdMemAddress (addr : UInt32) : Gentle t False (swdMemAddress addr) := by
  refine Gentle.bind (gentle_swdWriteDp _ _) fun r => ?_
  cases r with
  | error err => exact Gentle.pure _
  | ok value =>
      refine Gentle.bind (gentle_swdWriteAp_csw _) fun r => ?_
      cases r with
      | error err => exact Gentle.pure _
      | ok value =>
          refine Gentle.bind (gentle_swdWriteAp_tar _) fun r => ?_
          cases r with
          | error err => exact Gentle.pure _
          | ok value => exact Gentle.pure _

theorem kept_swdMemWrite32 (addr value : UInt32) : Kept (swdMemWrite32 addr value) := by
  refine Kept.bind (gentle_swdMemAddress (t := False) addr).kept fun r => ?_
  cases r with
  | error err => exact Kept.pure _
  | ok done =>
      refine Kept.bind (kept_retrying kept_swdXfer_write _) fun r => ?_
      cases r with
      | error err => exact Kept.pure _
      | ok data => exact Kept.pure _

-- The address arrives, or an acknowledged write may be lost.
theorem wp_swdMemAddress (hb : Ready b) (hbits : faults.bits = false) :
    wp (board faults) Sound False (swdMemAddress addr) (fun r c' b' => Still False c c' b b'
      ∧ (r = .ok () → b'.tar = addr ∨ MayLose faults c b)) c b := by
  refine wp_seq ((gentle_swdWriteDp _ _).loose (k := False) c hb hbits) fun r c₁ b₁ hsound h₁ => ?_
  cases r with
  | error err => exact wp_pure hsound ⟨h₁, nofun⟩
  | ok value =>
      refine wp_seq ((gentle_swdWriteAp_csw _).loose c₁ (h₁.ready hb) hbits)
        fun r c₂ b₂ hsound h₂ => ?_
      have h₂ := h₁.trans h₂
      cases r with
      | error err => exact wp_pure hsound ⟨h₂, nofun⟩
      | ok value =>
          have htar : Still False c₂ c₂ b₂ (b₂.dataWritten true AP_REG_TAR addr) :=
            ⟨carried_dataWritten, rfl, nofun⟩
          have hready := h₂.ready hb
          refine wp_seq (wp_retrying_write MAX_WAIT_RETRIES hready hbits fun _ => htar.ready hready)
            fun r c₃ b₃ hsound₃ hwritten => ?_
          obtain ⟨⟨data, rfl⟩, b₀, harrived, h₃⟩ | ⟨hfailed, h₃⟩ := hwritten
          · obtain ⟨-, rfl⟩ | ⟨hlose, rfl⟩ := harrived
            · exact wp_pure hsound₃ ⟨h₂.trans (htar.trans h₃.weaken), fun _ => Or.inl (h₃.tar trivial)⟩
            · exact wp_pure hsound₃ ⟨h₂.trans h₃.weaken, fun _ => Or.inr (h₂.mayLose hlose)⟩
          · cases r with
            | error err => exact wp_pure hsound₃ ⟨h₂.trans h₃.weaken, nofun⟩
            | ok value => exact absurd ⟨value, rfl⟩ hfailed

theorem Still.withCore {c' : Ctx} {b' : Board} (h : Still False c c' b b') (core : Core) :
    Still False c c' { b with core := core } { b' with core := core } :=
  ⟨⟨h.ctx, h.nrstDir, h.nrstLevel, h.swclk, h.tracks⟩, rfl, nofun⟩

-- The core that a write to memory leaves: the word is at its address, or, where an acknowledged write
-- may be lost, at another one or nowhere.
def MemWritten (faults : Faults) (addr value : UInt32) (c : Ctx) (b : Board) (r : Status) (core : Core) :
    Prop :=
  (core = b.core ∧ (r = .ok () → MayLose faults c b))
    ∨ (r = .ok () ∧ b.dir .swclk = .output
      ∧ ∃ addr', (addr' = addr ∨ MayLose faults c b) ∧ core = b.core.memWrite addr' value)

-- A write to memory that leaves the core where it may be.
theorem wp_swdMemWrite32 (hb : Ready b) (hbits : faults.bits = false)
    (hafter : ∀ addr', (addr' = addr ∨ MayLose faults c b) → b.dir .swclk = .output →
      Ready { b with core := b.core.memWrite addr' value }) :
    wp (board faults) Sound False (swdMemWrite32 addr value) (fun r c' b' =>
      ∃ core, MemWritten faults addr value c b r core ∧ Still False c c' { b with core := core } b') c b := by
  refine wp_seq (wp_swdMemAddress hb hbits) fun r c₁ b₁ hsound h₁ => ?_
  obtain ⟨h₁, htar⟩ := h₁
  cases r with
  | error err => exact wp_pure hsound ⟨b.core, Or.inl ⟨rfl, nofun⟩, h₁⟩
  | ok value' =>
      have htar : b₁.tar = addr ∨ MayLose faults c b := htar rfl
      have hdata : b₁.dataWritten true AP_REG_DRW value
          = { b₁ with core := b.core.memWrite b₁.tar value } := by
        rw [← h₁.core]
        rfl
      have hafter₁ : b₁.dir .swclk = .output → Ready (b₁.dataWritten true AP_REG_DRW value) := by
        intro hclk
        rw [hdata]
        exact (h₁.withCore _).ready (hafter b₁.tar htar (h₁.swclk ▸ hclk))
      refine wp_seq (wp_retrying_write MAX_WAIT_RETRIES (h₁.ready hb) hbits hafter₁)
        fun r c₂ b₂ hsound₂ hwritten => ?_
      obtain ⟨⟨data, rfl⟩, b₀, harrived, h₂⟩ | ⟨hfailed, h₂⟩ := hwritten
      · obtain ⟨hclk, rfl⟩ | ⟨hlose, rfl⟩ := harrived
        · rw [hdata] at h₂
          refine wp_pure hsound₂ ⟨_, Or.inr ⟨rfl, h₁.swclk ▸ hclk, b₁.tar, htar, rfl⟩, ?_⟩
          exact (h₁.withCore _).trans h₂.weaken
        · exact wp_pure hsound₂ ⟨b.core, Or.inl ⟨rfl, fun _ => h₁.mayLose hlose⟩, h₁.trans h₂.weaken⟩
      · cases r with
        | error err => exact wp_pure hsound₂ ⟨b.core, Or.inl ⟨rfl, nofun⟩, h₁.trans h₂.weaken⟩
        | ok value => exact absurd ⟨value, rfl⟩ hfailed

end Memory

-- The memory outside the debug block of the core.
def Elsewhere (addr : UInt32) : Prop := addr ≠ CM_DHCSR ∧ addr ≠ CM_DEMCR

instance (addr : UInt32) : Decidable (Elsewhere addr) := inferInstanceAs (Decidable (_ ∧ _))

theorem Core.memWrite_elsewhere {addr : UInt32} (h : Elsewhere addr) (core : Core) (value : UInt32) :
    core.memWrite addr value = core := by
  unfold Core.memWrite
  rw [if_neg h.1, if_neg h.2]

-- Where no acknowledged write is lost, the word is not written to the debug block.
theorem gentle_swdMemWrite32 {addr : UInt32} (h : Elsewhere addr) (value : UInt32) :
    Gentle True False (swdMemWrite32 addr value) := by
  refine ⟨kept_swdMemWrite32 addr value, fun faults c b hb hbits hsure => ?_⟩
  obtain ⟨hturn, htracks⟩ := hsure trivial
  have hsame : ∀ addr', (addr' = addr ∨ MayLose faults c b) → b.dir .swclk = .output →
      b.core.memWrite addr' value = b.core := by
    intro addr' haddr hclk
    obtain rfl | hlose := haddr
    · exact Core.memWrite_elsewhere h _ _
    · exact absurd hclk (hlose hturn htracks)
  have hafter : ∀ addr', (addr' = addr ∨ MayLose faults c b) → b.dir .swclk = .output →
      Ready { b with core := b.core.memWrite addr' value } := by
    intro addr' haddr hclk
    rw [hsame addr' haddr hclk]
    exact hb
  refine wp_mono (wp_swdMemWrite32 hb hbits hafter) fun r c' b' _ hend => ?_
  obtain ⟨core, ⟨rfl, -⟩ | ⟨-, hclk, addr', haddr, rfl⟩, hstill⟩ := hend
  · exact hstill
  · rw [hsame addr' haddr hclk] at hstill
    exact hstill

theorem gentle_swdMemRead32 (addr : UInt32) : Gentle t False (swdMemRead32 addr) := by
  refine Gentle.bind (gentle_swdMemAddress _) fun r => ?_
  cases r with
  | error err => exact Gentle.pure _
  | ok value => exact gentle_swdReadAp _

end AlpSdk.Gd32Swd
