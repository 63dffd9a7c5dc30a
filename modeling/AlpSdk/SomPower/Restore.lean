import AlpSdk.SomPower.Board

-- The restore of the domains of a record, for whatever the actions of the domains do.
namespace AlpSdk.SomPower

open Library.Local
open Library.Effect (Env)

-- The restore actions a record asks for, with their arguments.
def callsFor (rec : Record) (only : Mask) (l : List Domain) : List (Domain × Bool × Bool) :=
  (l.filter fun d => d ∈ rec.quiesced ∧ d ∈ only).map fun d => (d, d ∈ rec.railOff, d ∈ rec.priorActive)

theorem callsFor_cons_of_mem {rec : Record} {only : Mask} {d : Domain} (h : d ∈ rec.quiesced ∧ d ∈ only)
    (rest : List Domain) :
    callsFor rec only (d :: rest) =
      [(d, (d ∈ rec.railOff : Bool), (d ∈ rec.priorActive : Bool))] ++ callsFor rec only rest := by
  simp [callsFor, h.1, h.2]

theorem callsFor_cons_of_not_mem {rec : Record} {only : Mask} {d : Domain} (h : ¬(d ∈ rec.quiesced ∧ d ∈ only))
    (rest : List Domain) : callsFor rec only (d :: rest) = callsFor rec only rest := by
  simp only [callsFor, List.filter_cons, h, decide_false, Bool.false_eq_true, if_false]

theorem mem_order (d : Domain) : d ∈ order.reverse := by cases d <;> decide

theorem mem_everyDomain (d : Domain) : d ∈ everyDomain := by cases d <;> decide

-- What a restore action may do to the control points of its domain, by its arguments and status.
abbrev Effects := Domain → Bool → Bool → Status → Pads → Pads → Prop

-- A board of this kind, on which the restore actions of a record keep a crash invariant and have
-- the given effects.
structure Acts (cfg : Config) (env : Env (issuing board Ram) Board) (J : Board → Prop) (E : Prop)
    (hooks : Domain → Option Hooks) (rec : Record) (only : Mask) (early : Bool) (T : Effects) : Prop where
  allowed : ∀ b i reply b', env b i reply b' → soc b i reply b'
  noted : ∀ b d rail prior, J b → J (b.record (.restoring d rail prior))
  action : ∀ d ram b, d ∈ rec.quiesced → d ∈ only → ram.hooks = hooks → J b →
    wp env J E (restoreAction cfg d (d ∈ rec.railOff) early (d ∈ rec.priorActive))
      (fun s ram' b' => ram.Applies ram' ∧
        ∃ p, T d (d ∈ rec.railOff) (d ∈ rec.priorActive) s (b.pads d) p ∧ b' = b.setPads d p) ram b

-- One domain after its restore: ACTIVE again, or counted as failed.
def Outcome (T : Effects) (rec : Record) (d : Domain) (b : Board) (done' : Mask × Mask) (ram' : Ram)
    (b' : Board) (failedBefore : Prop) : Prop :=
  (d ∈ done'.1 ∧ (d ∈ done'.2 ↔ failedBefore) ∧ ram'.state d = .active ∧
    T d (d ∈ rec.railOff) (d ∈ rec.priorActive) (.ok ()) (b.pads d) (b'.pads d)) ∨
  (d ∈ done'.2 ∧ ram'.state d = .restoreFailed ∧
    ∃ err, T d (d ∈ rec.railOff) (d ∈ rec.priorActive) (.error err) (b.pads d) (b'.pads d))

-- One domain that the restore leaves alone.
def Untouched (d : Domain) (done : Mask × Mask) (ram : Ram) (b : Board) (done' : Mask × Mask) (ram' : Ram)
    (b' : Board) : Prop :=
  ram'.state d = ram.state d ∧ b'.pads d = b.pads d ∧ (d ∈ done'.1 ↔ d ∈ done.1) ∧ (d ∈ done'.2 ↔ d ∈ done.2)

structure RestoresTo (T : Effects) (rec : Record) (only : Mask) (l : List Domain) (done : Mask × Mask)
    (ram : Ram) (b : Board) (done' : Mask × Mask) (ram' : Ram) (b' : Board) : Prop where
  caller : ram' = { ram with state := ram'.state, padsApplied := ram'.padsApplied }
  world : b' = { b with pads := b'.pads, restores := b.restores ++ callsFor rec only l }
  named : ∀ d, d ∈ l → d ∈ rec.quiesced → d ∈ only → Outcome T rec d b done' ram' b' (d ∈ done.2)
  others : ∀ d, ¬(d ∈ l ∧ d ∈ rec.quiesced ∧ d ∈ only) → Untouched d done ram b done' ram' b'

section Restore

variable {cfg : Config} {env : Env (issuing board Ram) Board} {J : Board → Prop} {E : Prop}
  {hooks : Domain → Option Hooks} {rec : Record} {only : Mask} {early : Bool} {T : Effects}

theorem wp_restoreOne (h : Acts cfg env J E hooks rec only early T) (d : Domain) (done : Mask × Mask)
    {ram : Ram} {b : Board} (hhooks : ram.hooks = hooks) (hJ : J b) :
    wp env J E (restoreOne cfg rec only early d done) (RestoresTo T rec only [d] done ram b) ram b := by
  by_cases hmem : d ∈ rec.quiesced ∧ d ∈ only
  · rw [restoreOne, if_pos hmem, runRestore_eq]
    refine wp_bind (wp_issue_bind hJ ?_)
    intro _ b₁ henv
    have hb₁ : b₁ = b.record (.restoring d (d ∈ rec.railOff) (d ∈ rec.priorActive)) := h.allowed _ _ _ _ henv
    subst hb₁
    refine wp_mono (h.action d ram _ hmem.1 hmem.2 hhooks (h.noted b d _ _ hJ)) ?_
    rintro s _ _ hJ' ⟨⟨applied, rfl⟩, p, hT, rfl⟩
    have hboard : ∀ c, c ≠ d → ((b.record (.restoring d (d ∈ rec.railOff) (d ∈ rec.priorActive))).setPads d p).pads c =
        b.pads c := by
      intro c hc
      exact setPads_pads_of_ne hc p
    have hothers : ∀ c, ¬(c ∈ [d] ∧ c ∈ rec.quiesced ∧ c ∈ only) → c ≠ d := by
      rintro c hnot rfl
      exact hnot ⟨List.mem_singleton.mpr rfl, hmem⟩
    have hcalls : callsFor rec only [d] = [(d, (d ∈ rec.railOff : Bool), (d ∈ rec.priorActive : Bool))] :=
      callsFor_cons_of_mem hmem []
    have hpads : ((b.record (.restoring d (d ∈ rec.railOff) (d ∈ rec.priorActive))).setPads d p).pads d = p :=
      setPads_pads d p
    cases s with
    | ok _ =>
        refine ⟨hJ', rfl, by rw [hcalls]; rfl, ?_, ?_⟩
        · intro c hc _ _
          cases List.mem_singleton.mp hc
          refine .inl ⟨Finset.mem_insert_self d _, Iff.rfl, Function.update_self d _ _, ?_⟩
          rw [hpads]
          exact hT
        · intro c hnot
          have hne := hothers c hnot
          refine ⟨Function.update_of_ne hne _ _, hboard c hne, ?_, Iff.rfl⟩
          simp [hne]
    | error err =>
        refine ⟨hJ', rfl, by rw [hcalls]; rfl, ?_, ?_⟩
        · intro c hc _ _
          cases List.mem_singleton.mp hc
          refine .inr ⟨Finset.mem_insert_self d _, Function.update_self d _ _, err, ?_⟩
          rw [hpads]
          exact hT
        · intro c hnot
          have hne := hothers c hnot
          refine ⟨Function.update_of_ne hne _ _, hboard c hne, Iff.rfl, ?_⟩
          simp [hne]
  · rw [restoreOne, if_neg hmem]
    refine wp_pure hJ ⟨rfl, ?_, ?_, fun c _ => ⟨rfl, rfl, Iff.rfl, Iff.rfl⟩⟩
    · rw [callsFor_cons_of_not_mem hmem, callsFor, List.filter_nil, List.map_nil, List.append_nil]
    · intro c hc hq ho
      cases List.mem_singleton.mp hc
      exact absurd ⟨hq, ho⟩ hmem

-- The restore of a list after that of its head.
theorem RestoresTo.cons {d : Domain} {rest : List Domain} {done done₁ done' : Mask × Mask}
    {ram ram₁ ram' : Ram} {b b₁ b' : Board} (hd : d ∉ rest) (h₁ : RestoresTo T rec only [d] done ram b done₁ ram₁ b₁)
    (h : RestoresTo T rec only rest done₁ ram₁ b₁ done' ram' b') :
    RestoresTo T rec only (d :: rest) done ram b done' ram' b' := by
  refine ⟨?_, ?_, ?_, ?_⟩
  · have hram := h.caller
    rw [h₁.caller] at hram
    exact hram
  · have hboard := h.world
    rw [h₁.world] at hboard
    have hcalls : callsFor rec only (d :: rest) = callsFor rec only [d] ++ callsFor rec only rest := by
      by_cases hmem : d ∈ rec.quiesced ∧ d ∈ only
      · rw [callsFor_cons_of_mem hmem rest, callsFor_cons_of_mem hmem []]
        rfl
      · rw [callsFor_cons_of_not_mem hmem rest, callsFor_cons_of_not_mem hmem []]
        rfl
    rw [hcalls, ← List.append_assoc]
    exact hboard
  · intro c hc hq ho
    by_cases hcd : c = d
    · subst hcd
      obtain ⟨hstate, hpads, hok, hfail⟩ := h.others c fun hmem => hd hmem.1
      unfold Outcome
      rw [hstate, hpads, hok, hfail]
      exact h₁.named c (List.mem_singleton.mpr rfl) hq ho
    · obtain ⟨-, hpads, -, hfail⟩ := h₁.others c fun hmem => hcd (List.mem_singleton.mp hmem.1)
      have hrest := h.named c ((List.mem_cons.mp hc).resolve_left hcd) hq ho
      unfold Outcome at hrest ⊢
      rw [hpads, hfail] at hrest
      exact hrest
  · intro c hnot
    have hhead := h₁.others c fun hmem => hnot ⟨List.mem_cons.mpr (.inl (List.mem_singleton.mp hmem.1)), hmem.2⟩
    have htail := h.others c fun hmem => hnot ⟨List.mem_cons_of_mem d hmem.1, hmem.2⟩
    exact ⟨htail.1.trans hhead.1, htail.2.1.trans hhead.2.1, htail.2.2.1.trans hhead.2.2.1,
      htail.2.2.2.trans hhead.2.2.2⟩

theorem wp_restoreFrom (h : Acts cfg env J E hooks rec only early T) {l : List Domain} (hl : l.Nodup)
    (done : Mask × Mask) {ram : Ram} {b : Board} (hhooks : ram.hooks = hooks) (hJ : J b) :
    wp env J E (restoreFrom cfg rec only early l done) (RestoresTo T rec only l done ram b) ram b := by
  induction l generalizing done ram b with
  | nil =>
      refine wp_pure hJ ⟨rfl, ?_, fun c hc => absurd hc List.not_mem_nil, fun c _ => ⟨rfl, rfl, Iff.rfl, Iff.rfl⟩⟩
      rw [callsFor, List.filter_nil, List.map_nil, List.append_nil]
  | cons d rest ih =>
      obtain ⟨hd, hrest⟩ := List.nodup_cons.mp hl
      refine wp_seq (wp_restoreOne h d done hhooks hJ) ?_
      intro done₁ ram₁ b₁ hJ₁ h₁
      have hhooks₁ : ram₁.hooks = hooks := by
        rw [h₁.caller]
        exact hhooks
      refine wp_mono (ih hrest done₁ hhooks₁ hJ₁) ?_
      intro done' ram' b' _ h'
      exact h₁.cons hd h'

theorem wp_restoreDomains (h : Acts cfg env J E hooks rec only early T) {ram : Ram} {b : Board}
    (hhooks : ram.hooks = hooks) (hJ : J b) :
    wp env J E (restoreDomains cfg rec only early) (RestoresTo T rec only order.reverse (∅, ∅) ram b) ram b :=
  wp_restoreFrom h (by decide) (∅, ∅) hhooks hJ

end Restore

-- The record as it is stored.
def Record.stamped (cfg : Config) (rec : Record) : Record := { rec with imageId := cfg.imageId }

-- The record of the domains that could not be restored.
def Record.retry (rec : Record) (failed : Mask) : Record :=
  { Record.zero with
    quiesced := failed, railOff := rec.railOff ∩ failed, priorActive := rec.priorActive ∩ failed }

def RestoresAll (cfg : Config) (T : Effects) (rec : Record) (ram : Ram) (b : Board) (ram' : Ram) (b' : Board) : Prop :=
  ∃ done ram₁ b₁, RestoresTo T rec everyDomain order.reverse (∅, ∅) { ram with ramRecValid := false } b done ram₁ b₁ ∧
    if done.2 = ∅ then ram' = ram₁ ∧ b' = { b₁ with stored := .zero, valid := false }
    else ram' = { ram₁ with ramRec := (rec.retry done.2).stamped cfg, ramRecValid := true } ∧
      b' = { b₁ with stored := (rec.retry done.2).stamped cfg, valid := true }

-- The record that the next restore will use.
def usable (ram : Ram) (b : Board) : Option Record :=
  if b.valid then some b.stored else if ram.ramRecValid then some ram.ramRec else none

section Whole

variable {cfg : Config} {env : Env (issuing board Ram) Board} {E : Prop} {hooks : Domain → Option Hooks}
  {T : Effects} {ram : Ram} {b : Board}

theorem wp_keep (hsub : ∀ b i reply b', env b i reply b' → soc b i reply b') (rec : Record) :
    wp env (fun _ => True) E (keep cfg rec)
      (fun _ ram' b' => ram' = { ram with ramRec := rec.stamped cfg, ramRecValid := true } ∧
        b' = { b with stored := rec.stamped cfg, valid := true }) ram b := by
  refine wp_bind (wp_bind (wp_issue trivial fun _ b' henv => ⟨trivial, wp_pure trivial ?_⟩))
  obtain rfl : b' = { b with stored := rec.stamped cfg, valid := true } := hsub _ _ _ _ henv
  exact wp_modify trivial ⟨rfl, rfl⟩

theorem wp_usableRecord (hsub : ∀ b i reply b', env b i reply b' → soc b i reply b') :
    wp env (fun _ => True) E usableRecord (fun rec ram' b' => rec = usable ram b ∧ ram' = ram ∧ b' = b) ram b := by
  refine wp_perform hsub trivial ?_
  rintro _ b ⟨rfl, rfl⟩
  exact wp_get_bind (wp_pure trivial ⟨rfl, rfl, rfl⟩)

theorem wp_restore (hsub : ∀ b i reply b', env b i reply b' → soc b i reply b')
    (h : ∀ rec, usable ram b = some rec → Acts cfg env (fun _ => True) E hooks rec everyDomain false T)
    (hhooks : ram.hooks = hooks) :
    wp env (fun _ => True) E (restore cfg)
      (fun _ ram' b' => match usable ram b with
        | some rec => RestoresAll cfg T rec ram b ram' b'
        | none => ram' = ram ∧ b' = b) ram b := by
  refine wp_seq (wp_usableRecord hsub) ?_
  rintro rec ram b _ ⟨rfl, rfl, rfl⟩
  cases hrec : usable ram b with
  | none => exact wp_pure trivial ⟨rfl, rfl⟩
  | some rec =>
      refine wp_modify_bind (wp_seq (wp_restoreDomains (h rec hrec) ?_ trivial) ?_)
      · exact hhooks
      intro done ram₁ b₁ _ hrestored
      refine wp_perform hsub trivial ?_
      rintro _ _ rfl
      by_cases hfailed : done.2 = ∅
      · rw [if_neg (by simp [hfailed])]
        refine wp_pure trivial ⟨done, ram₁, b₁, hrestored, ?_⟩
        rw [if_pos hfailed]
        exact ⟨rfl, rfl⟩
      · rw [if_pos hfailed]
        refine wp_seq (wp_keep hsub _) ?_
        rintro _ _ _ _ ⟨rfl, rfl⟩
        refine wp_pure trivial ⟨done, ram₁, b₁, hrestored, ?_⟩
        rw [if_neg hfailed]
        exact ⟨rfl, rfl⟩

end Whole

-- The restore actions of any board that does nothing but what is allowed.
theorem acts_allowed {env : Env (issuing board Ram) Board} (hsub : ∀ b i reply b', env b i reply b' → soc b i reply b')
    (cfg : Config) (hooks : Domain → Option Hooks) (rec : Record) (only : Mask) (early : Bool) :
    Acts cfg env (fun _ => True) True hooks rec only early fun _ _ _ _ _ _ => True where
  allowed := hsub
  noted _ _ _ _ _ := trivial
  action d ram b _ _ _ _ := by
    have hstep : ∀ (b : Board) (ram : Ram) cmd reply b', cmd.Drives d → env b ⟨ram, cmd⟩ reply b' → True →
        Board.Only d b b' ∧ True :=
      fun b ram cmd reply b' hcmd henv _ => ⟨drives_step hcmd (hsub _ _ _ _ henv), trivial⟩
    refine wp_mono (wp_confined hstep (drives_restoreAction cfg _ _ _) trivial) ?_
    rintro s ram' b' _ ⟨hram, p, hp⟩
    exact ⟨hram, p, trivial, hp⟩

theorem acts_soc (cfg : Config) (hooks : Domain → Option Hooks) (rec : Record) (only : Mask) (early : Bool) :
    Acts cfg soc (fun _ => True) True hooks rec only early fun _ _ _ _ _ _ => True :=
  acts_allowed (fun _ _ _ _ h => h) cfg hooks rec only early

end AlpSdk.SomPower
