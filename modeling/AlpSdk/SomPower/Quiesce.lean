import AlpSdk.SomPower.Restore

-- What a quiesce records, for whatever the actions of the domains do.
namespace AlpSdk.SomPower

open Library.Local
open Library.Effect (Env)

-- The saved bit of a domain as it is: whether a domain that is switched by its enable line was on,
-- and whether EERD of the RTC was set.
def priorBit (cfg : Config) (d : Domain) (p : Pads) : Bool :=
  if (cfg.reg d).action = .enableLow then p.line .enable
  else if d = .rtc then p.control1 &&& RV3028_CTRL1_EERD != 0
  else true

-- The two bits that were true of a domain with this policy and these control points.
def trueBits (cfg : Config) (d : Domain) (x : Policy × Pads) : Bool × Bool :=
  (decide (x.1 = .railOff), priorBit cfg d x.2)

-- The answer tells this bit. A failed read of an enable line stands for a domain that was on, and
-- one of EERD for a bit that was clear.
def tells (d : Domain) (bit : Bool) : (cmd : Cmd) → board.Reply cmd → Bool
  | .ready _ _, false => d == .rtc || bit
  | .pinGet _ _, none => bit
  | .pinGet _ _, some level => bit == level
  | .i2cReady _, false => !bit
  | .rtcRead _, none => !bit
  | .rtcRead _, some value => bit == (value &&& RV3028_CTRL1_EERD != 0)
  | _, _ => true

-- A board on which whatever a quiesce reads of a saved bit tells what the bit was when the domain
-- was last ACTIVE.
abbrev telling (cfg : Config) : Env (issuing board Ram) Board := fun b i reply b' =>
  soc b i reply b' ∧ ∀ d, b.asking = some d → tells d (priorBit cfg d (b.taken d).2) i.cmd reply = true

-- A board of this kind, on which the quiesce actions keep a crash invariant and have the given
-- effects.
structure Takes (cfg : Config) (env : Env (issuing board Ram) Board) (J : Board → Prop) (E : Prop)
    (hooks : Domain → Option Hooks) (T : Domain → Bool → Status → Pads → Pads → Prop) : Prop where
  telling : ∀ b i reply b', env b i reply b' → telling cfg b i reply b'
  noted : ∀ b n, J b → J (b.record n)
  action : ∀ d rail ram b, ram.hooks = hooks → J b →
    wp env J E (runQuiesce cfg d rail)
      (fun s ram' b' => ram.Applies ram' ∧ ∃ p, T d rail s (b.pads d) p ∧ b' = b.setPads d p) ram b

-- One domain that has been taken: it is recorded with its policy and with the bit it had when it
-- was last ACTIVE.
structure TakenNow (cfg : Config) (T : Domain → Bool → Status → Pads → Pads → Prop) (mode : Mode) (d : Domain)
    (ram : Ram) (b : Board) (rec' : Record) (ram' : Ram) (b' : Board) : Prop where
  eligible : eligible cfg mode ram d = true
  before : ram.state d ≠ .quiesced
  after : ram'.state d = .quiesced
  mem : d ∈ rec'.quiesced
  rail : d ∈ rec'.railOff ↔ ram.policy d = .railOff
  prior : d ∈ rec'.priorActive ↔ priorBit cfg d (b'.taken d).2 = true
  taken : b'.taken d = if ram.state d = .active then (ram.policy d, b.pads d) else b.taken d
  pads : ∃ s, T d (d ∈ rec'.railOff) s (b.pads d) (b'.pads d)

structure LeftAlone (d : Domain) (rec : Record) (ram : Ram) (b : Board) (rec' : Record) (ram' : Ram)
    (b' : Board) : Prop where
  state : ram'.state d = ram.state d
  pads : b'.pads d = b.pads d
  taken : b'.taken d = b.taken d
  mem : d ∈ rec'.quiesced ↔ d ∈ rec.quiesced
  rail : d ∈ rec'.railOff ↔ d ∈ rec.railOff
  prior : d ∈ rec'.priorActive ↔ d ∈ rec.priorActive

-- The list is taken up to the first domain that is QUIESCED already or whose action fails.
structure TakesTo (cfg : Config) (T : Domain → Bool → Status → Pads → Pads → Prop) (mode : Mode)
    (l : List Domain) (rec : Record) (ram : Ram) (b : Board) (rec' : Record) (ram' : Ram) (b' : Board) : Prop where
  caller : ram' = { ram with state := ram'.state, padsApplied := ram'.padsApplied }
  world : b' = { b with pads := b'.pads, taken := b'.taken, asking := b'.asking }
  each : ∀ d, (d ∈ l ∧ TakenNow cfg T mode d ram b rec' ram' b') ∨ LeftAlone d rec ram b rec' ram' b'
  first : ∀ d, l.find? (eligible cfg mode ram) = some d → ram.state d ≠ .quiesced →
    TakenNow cfg T mode d ram b rec' ram' b'
  none : (∀ d, l.find? (eligible cfg mode ram) = some d → ram.state d = .quiesced) →
    rec' = rec ∧ ram' = ram ∧ b' = b

section Quiesce

variable {cfg : Config} {env : Env (issuing board Ram) Board} {J : Board → Prop} {E : Prop}
  {hooks : Domain → Option Hooks} {T : Domain → Bool → Status → Pads → Pads → Prop} {mode : Mode}

-- A read of the saved bit.
theorem wp_ask (h : Takes cfg env J E hooks T) {α : Type} {d : Domain} {cmd : Cmd} {f : board.Reply cmd → Layer α}
    {Q : α → Ram → Board → Prop} {ram : Ram} {b : Board} (hJ : J b) (hasking : b.asking = some d)
    (hsame : ∀ reply b', b.allows cmd reply b' → b' = b)
    (hnext : ∀ reply, tells d (priorBit cfg d (b.taken d).2) cmd reply = true → wp env J E (f reply) Q ram b) :
    wp env J E (perform cmd >>= f) Q ram b := by
  refine wp_issue_bind hJ fun reply b' henv => ?_
  obtain ⟨hallowed, htells⟩ := h.telling _ _ _ _ henv
  rw [hsame reply b' hallowed]
  exact hnext reply (htells d hasking)

theorem wp_priorElse (h : Takes cfg env J E hooks T) {d : Domain} {ram : Ram} {b : Board} (hJ : J b)
    (hasking : b.asking = some d) (hother : d ≠ .rtc → priorBit cfg d (b.taken d).2 = true) :
    wp env J E (priorElse d)
      (fun prior ram' b' => prior = priorBit cfg d (b.taken d).2 ∧ ram' = ram ∧ b' = b) ram b := by
  unfold priorElse
  by_cases hrtc : d = .rtc
  · subst hrtc
    rw [if_pos rfl]
    refine wp_ask h hJ hasking (fun _ _ hallowed => hallowed) fun ready htells => ?_
    cases ready with
    | false => exact wp_pure hJ ⟨by simpa [tells] using htells.symm, rfl, rfl⟩
    | true =>
        refine wp_ask h hJ hasking (fun _ _ hallowed => hallowed.1) fun value htells => ?_
        cases value with
        | none => exact wp_pure hJ ⟨by simpa [tells] using htells.symm, rfl, rfl⟩
        | some v => exact wp_pure hJ ⟨(eq_of_beq htells).symm, rfl, rfl⟩
  · rw [if_neg hrtc]
    exact wp_pure hJ ⟨(hother hrtc).symm, rfl, rfl⟩

theorem wp_priorActive (h : Takes cfg env J E hooks T) {d : Domain} {ram : Ram} {b : Board} (hJ : J b)
    (hasking : b.asking = some d) :
    wp env J E (priorActive cfg d)
      (fun prior ram' b' => prior = priorBit cfg d (b.taken d).2 ∧ ram' = ram ∧ b' = b) ram b := by
  unfold priorActive
  by_cases hact : (cfg.reg d).action = .enableLow
  · rw [if_pos hact]
    refine wp_ask h hJ hasking (fun _ _ hallowed => hallowed) fun ready htells => ?_
    cases ready with
    | false =>
        refine wp_priorElse h hJ hasking fun hrtc => ?_
        simpa [tells, hrtc] using htells
    | true =>
        refine wp_ask h hJ hasking (fun _ _ hallowed => hallowed.1) fun level htells => ?_
        cases level with
        | none => exact wp_pure hJ ⟨Eq.symm htells, rfl, rfl⟩
        | some v => exact wp_pure hJ ⟨(eq_of_beq htells).symm, rfl, rfl⟩
  · rw [if_neg hact]
    refine wp_priorElse h hJ hasking fun hrtc => ?_
    rw [priorBit, if_neg hact, if_neg hrtc]

-- Neither bit of the domain is in the record yet.
def Unmarked (rec : Record) (d : Domain) : Prop := d ∉ rec.railOff ∧ d ∉ rec.priorActive

theorem take_quiesced (rec : Record) (c d : Domain) (rail prior : Bool) :
    c ∈ (rec.take d rail prior).quiesced ↔ c = d ∨ c ∈ rec.quiesced := by
  simp [Record.take]

theorem take_railOff (rec : Record) (c d : Domain) (rail prior : Bool) :
    c ∈ (rec.take d rail prior).railOff ↔ (c = d ∧ rail = true) ∨ c ∈ rec.railOff := by
  cases rail with
  | false => simp [Record.take]
  | true => simp [Record.take]

theorem take_priorActive (rec : Record) (c d : Domain) (rail prior : Bool) :
    c ∈ (rec.take d rail prior).priorActive ↔ (c = d ∧ prior = true) ∨ c ∈ rec.priorActive := by
  cases prior with
  | false => simp [Record.take]
  | true => simp [Record.take]

structure TakesOne (cfg : Config) (T : Domain → Bool → Status → Pads → Pads → Prop) (mode : Mode)
    (d : Domain) (rec : Record) (ram : Ram) (b : Board) (rec' : Record) (ram' : Ram) (b' : Board) : Prop where
  caller : ram' = { ram with state := ram'.state, padsApplied := ram'.padsApplied }
  world : b' = { b with pads := b'.pads, taken := b'.taken, asking := b'.asking }
  now : TakenNow cfg T mode d ram b rec' ram' b'
  others : ∀ c, c ≠ d → LeftAlone c rec ram b rec' ram' b'

theorem wp_quiesceOne (h : Takes cfg env J E hooks T) {d : Domain} {rec : Record} {ram : Ram} {b : Board}
    (hhooks : ram.hooks = hooks) (hJ : J b) (heligible : eligible cfg mode ram d = true)
    (hstate : ram.state d ≠ .quiesced) (hrec : Unmarked rec d) :
    wp env J E (quiesceOne cfg d rec) (fun out ram' b' => TakesOne cfg T mode d rec ram b out.2 ram' b') ram b := by
  have hnote : ∀ (n : Note) (ram : Ram) (b : Board), J b →
      wp env J E (note n) (fun _ ram' b' => ram' = ram ∧ b' = b.record n) ram b := by
    intro n ram b hJ
    refine wp_issue hJ fun _ b' henv => ?_
    obtain rfl : b' = b.record n := (h.telling _ _ _ _ henv).1
    exact ⟨h.noted b n hJ, rfl, rfl⟩
  refine wp_get_bind (wp_seq (hnote _ _ _ hJ) ?_)
  rintro _ ram b₁ hJ₁ ⟨rfl, hb₁⟩
  have hasking : b₁.asking = some d := by rw [hb₁]; rfl
  refine wp_seq (wp_priorActive h hJ₁ hasking) ?_
  rintro prior ram b₁ _ ⟨hprior, rfl, rfl⟩
  refine wp_seq (hnote .asked _ _ hJ₁) ?_
  rintro _ ram _ hJ₂ ⟨rfl, rfl⟩
  refine wp_seq (h.action d (ram.policy d == .railOff) ram _ hhooks hJ₂) ?_
  rintro s _ _ hJ₃ ⟨⟨applied, rfl⟩, p, hT, rfl⟩
  refine wp_modify_bind (wp_pure hJ₃ ?_)
  have htaken : b₁.taken = if ram.state d = .active then Function.update b.taken d (ram.policy d, b.pads d)
      else b.taken := by rw [hb₁]; rfl
  have hpads : (b₁.record .asked).pads = b.pads := by rw [hb₁]; rfl
  have hrail : d ∈ (rec.take d (ram.policy d == .railOff) prior).railOff ↔ ram.policy d = .railOff := by
    simp [take_railOff, hrec.1]
  have hrail' : decide (d ∈ (rec.take d (ram.policy d == .railOff) prior).railOff) = (ram.policy d == .railOff) := by
    rw [decide_eq_decide.mpr hrail]
    rfl
  refine ⟨rfl, ?_, ?_, fun c hc => ?_⟩
  · rw [hb₁]
    rfl
  · refine ⟨heligible, hstate, Function.update_self d _ _, (take_quiesced _ _ _ _ _).mpr (.inl rfl), hrail, ?_, ?_, ?_⟩
    · have hsame : ((b₁.record .asked).setPads d p).taken d = b₁.taken d := rfl
      rw [hsame, ← hprior]
      simp [take_priorActive, hrec.2]
    · have hsame : ((b₁.record .asked).setPads d p).taken = b₁.taken := rfl
      rw [hsame, htaken]
      split
      · exact Function.update_self d _ _
      · rfl
    · rw [setPads_pads, hrail', ← hpads]
      exact ⟨s, hT⟩
  · refine ⟨Function.update_of_ne hc _ _, ?_, ?_, ?_, ?_, ?_⟩
    · rw [setPads_pads_of_ne hc, hpads]
    · have hsame : ((b₁.record .asked).setPads d p).taken = b₁.taken := rfl
      rw [hsame, htaken]
      split
      · exact Function.update_of_ne hc _ _
      · rfl
    · simp [take_quiesced, hc]
    · simp [take_railOff, hc]
    · simp [take_priorActive, hc]

theorem LeftAlone.same (d : Domain) (rec : Record) (ram : Ram) (b : Board) : LeftAlone d rec ram b rec ram b :=
  ⟨rfl, rfl, rfl, Iff.rfl, Iff.rfl, Iff.rfl⟩

theorem LeftAlone.then {d : Domain} {rec rec₁ rec' : Record} {ram ram₁ ram' : Ram} {b b₁ b' : Board}
    (h : LeftAlone d rec ram b rec₁ ram₁ b₁) (h' : LeftAlone d rec₁ ram₁ b₁ rec' ram' b') :
    LeftAlone d rec ram b rec' ram' b' where
  state := h'.state.trans h.state
  pads := h'.pads.trans h.pads
  taken := h'.taken.trans h.taken
  mem := h'.mem.trans h.mem
  rail := h'.rail.trans h.rail
  prior := h'.prior.trans h.prior

theorem TakenNow.then {d : Domain} {rec₁ rec' : Record} {ram ram₁ ram' : Ram} {b b₁ b' : Board}
    (h : TakenNow cfg T mode d ram b rec₁ ram₁ b₁) (h' : LeftAlone d rec₁ ram₁ b₁ rec' ram' b') :
    TakenNow cfg T mode d ram b rec' ram' b' := by
  have hrail : decide (d ∈ rec'.railOff) = decide (d ∈ rec₁.railOff) := decide_eq_decide.mpr h'.rail
  refine ⟨h.eligible, h.before, h'.state.trans h.after, h'.mem.mpr h.mem, h'.rail.trans h.rail, ?_, ?_, ?_⟩
  · rw [h'.prior, h'.taken]
    exact h.prior
  · rw [h'.taken]
    exact h.taken
  · rw [hrail, h'.pads]
    exact h.pads

theorem TakenNow.after_alone {d : Domain} {rec rec₁ rec' : Record} {ram ram₁ ram' : Ram} {b b₁ b' : Board}
    (h : LeftAlone d rec ram b rec₁ ram₁ b₁) (hpolicy : ram₁.policy = ram.policy)
    (h' : TakenNow cfg T mode d ram₁ b₁ rec' ram' b') : TakenNow cfg T mode d ram b rec' ram' b' := by
  refine ⟨?_, h.state ▸ h'.before, h'.after, h'.mem, ?_, h'.prior, ?_, h.pads ▸ h'.pads⟩
  · have heligible := h'.eligible
    rw [SomPower.eligible, hpolicy] at heligible
    exact heligible
  · rw [← hpolicy]
    exact h'.rail
  · rw [← h.state, ← h.taken, ← h.pads, ← hpolicy]
    exact h'.taken

theorem TakesOne.then {d : Domain} {rest : List Domain} {rec rec₁ rec' : Record} {ram ram₁ ram' : Ram}
    {b b₁ b' : Board} (hd : d ∉ rest) (h : TakesOne cfg T mode d rec ram b rec₁ ram₁ b₁)
    (h' : TakesTo cfg T mode rest rec₁ ram₁ b₁ rec' ram' b') :
    TakesTo cfg T mode (d :: rest) rec ram b rec' ram' b' := by
  have hpolicy : ram₁.policy = ram.policy := by rw [h.caller]
  have hhead : TakenNow cfg T mode d ram b rec' ram' b' := by
    cases h'.each d with
    | inl hnow => exact absurd hnow.1 hd
    | inr halone => exact h.now.then halone
  refine ⟨?_, ?_, fun c => ?_, fun c hfind _ => ?_, fun hnone => ?_⟩
  · have hcaller := h'.caller
    rw [h.caller] at hcaller
    exact hcaller
  · have hworld := h'.world
    rw [h.world] at hworld
    exact hworld
  · by_cases hc : c = d
    · subst hc
      exact .inl ⟨List.mem_cons_self, hhead⟩
    · cases h'.each c with
      | inl hnow => exact .inl ⟨List.mem_cons_of_mem d hnow.1, .after_alone (h.others c hc) hpolicy hnow.2⟩
      | inr halone => exact .inr ((h.others c hc).then halone)
  · rw [List.find?_cons_of_pos h.now.eligible] at hfind
    cases hfind
    exact hhead
  · exact absurd (hnone d (List.find?_cons_of_pos h.now.eligible)) h.now.before

-- A domain whose action fails is the last.
theorem TakesOne.stop {d : Domain} {rec rec₁ : Record} {ram ram₁ : Ram} {b b₁ : Board}
    (h : TakesOne cfg T mode d rec ram b rec₁ ram₁ b₁) (rest : List Domain) :
    TakesTo cfg T mode (d :: rest) rec ram b rec₁ ram₁ b₁ := by
  refine ⟨h.caller, h.world, fun c => ?_, fun c hfind _ => ?_, fun hnone => ?_⟩
  · by_cases hc : c = d
    · subst hc
      exact .inl ⟨List.mem_cons_self, h.now⟩
    · exact .inr (h.others c hc)
  · rw [List.find?_cons_of_pos h.now.eligible] at hfind
    cases hfind
    exact h.now
  · exact absurd (hnone d (List.find?_cons_of_pos h.now.eligible)) h.now.before

theorem TakesTo.skip {d : Domain} {rest : List Domain} {rec rec' : Record} {ram ram' : Ram} {b b' : Board}
    (hd : ¬eligible cfg mode ram d = true) (h : TakesTo cfg T mode rest rec ram b rec' ram' b') :
    TakesTo cfg T mode (d :: rest) rec ram b rec' ram' b' := by
  have hfind : (d :: rest).find? (eligible cfg mode ram) = rest.find? (eligible cfg mode ram) :=
    List.find?_cons_of_neg hd
  refine ⟨h.caller, h.world, fun c => ?_, fun c hc => h.first c (hfind ▸ hc), fun hnone => h.none (hfind ▸ hnone)⟩
  cases h.each c with
  | inl hnow => exact .inl ⟨List.mem_cons_of_mem d hnow.1, hnow.2⟩
  | inr halone => exact .inr halone

theorem TakesTo.nothing {l : List Domain} {rec : Record} {ram : Ram} {b : Board}
    (h : ∀ d, l.find? (eligible cfg mode ram) = some d → ram.state d = .quiesced) :
    TakesTo cfg T mode l rec ram b rec ram b :=
  ⟨rfl, rfl, fun c => .inr (.same c rec ram b), fun c hfind hstate => absurd (h c hfind) hstate, fun _ => ⟨rfl, rfl, rfl⟩⟩

theorem wp_quiesceFrom (h : Takes cfg env J E hooks T) {l : List Domain} (hl : l.Nodup) {rec : Record} {ram : Ram}
    {b : Board} (hhooks : ram.hooks = hooks) (hJ : J b) (hrec : ∀ d ∈ l, Unmarked rec d) :
    wp env J E (quiesceFrom cfg mode l rec) (fun out ram' b' => TakesTo cfg T mode l rec ram b out.2 ram' b')
      ram b := by
  induction l generalizing rec ram b with
  | nil => exact wp_pure hJ (.nothing nofun)
  | cons d rest ih =>
      obtain ⟨hd, hrest⟩ := List.nodup_cons.mp hl
      refine wp_get_bind ?_
      by_cases heligible : eligible cfg mode ram d = true
      · rw [if_neg (by simp [heligible])]
        by_cases hstate : ram.state d = .quiesced
        · rw [if_pos hstate]
          refine wp_pure hJ (.nothing fun c hfind => ?_)
          rw [List.find?_cons_of_pos heligible] at hfind
          cases hfind
          exact hstate
        · rw [if_neg hstate]
          refine wp_seq (wp_quiesceOne h hhooks hJ heligible hstate (hrec d List.mem_cons_self)) ?_
          rintro ⟨s, rec₁⟩ ram₁ b₁ hJ₁ hone
          cases s with
          | error err => exact wp_pure hJ₁ (hone.stop rest)
          | ok _ =>
              have hhooks₁ : ram₁.hooks = hooks := by
                rw [hone.caller]
                exact hhooks
              refine wp_mono (ih hrest hhooks₁ hJ₁ fun c hc => ?_) fun out ram' b' _ htakes => hone.then hd htakes
              have halone := hone.others c (fun heq => hd (heq ▸ hc))
              have hmarks := hrec c (List.mem_cons_of_mem d hc)
              exact ⟨fun hmem => hmarks.1 (halone.rail.mp hmem), fun hmem => hmarks.2 (halone.prior.mp hmem)⟩
      · rw [if_pos (by simpa using heligible)]
        refine wp_mono (ih hrest hhooks hJ fun c hc => hrec c (List.mem_cons_of_mem d hc)) ?_
        intro out ram' b' _ htakes
        exact htakes.skip heligible

end Quiesce

theorem acts_telling (cfg : Config) (hooks : Domain → Option Hooks) (rec : Record) (only : Mask) (early : Bool) :
    Acts cfg (telling cfg) (fun _ => True) True hooks rec only early fun _ _ _ _ _ _ => True :=
  acts_allowed (fun _ _ _ _ h => h.1) cfg hooks rec only early

theorem takes_telling (cfg : Config) (hooks : Domain → Option Hooks) :
    Takes cfg (telling cfg) (fun _ => True) True hooks fun _ _ _ _ _ => True where
  telling _ _ _ _ h := h
  noted _ _ _ := trivial
  action d rail ram b _ _ := by
    have hstep : ∀ (b : Board) (ram : Ram) cmd reply b', cmd.Drives d → telling cfg b ⟨ram, cmd⟩ reply b' → True →
        Board.Only d b b' ∧ True :=
      fun b ram cmd reply b' hcmd henv _ => ⟨drives_step hcmd henv.1, trivial⟩
    refine wp_mono (wp_confined hstep (drives_runQuiesce cfg rail) trivial) ?_
    rintro s ram' b' _ ⟨hram, p, hp⟩
    exact ⟨hram, p, trivial, hp⟩

end AlpSdk.SomPower
