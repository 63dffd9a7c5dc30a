import Mathlib.Logic.Relation

namespace Library.Transition

-- A labelled transition system is a partial step function: `none` where the action is not
-- enabled.
variable {A S : Type} {step : A → S → Option S} {guard : A → S → Prop} {Inv : S → Prop}

-- The runs whose every step meets the guard.
def Run (step : A → S → Option S) (guard : A → S → Prop) : S → S → Prop :=
  Relation.ReflTransGen fun s s' => ∃ a, guard a s ∧ step a s = some s'

theorem run_invariant (hstep : ∀ a s s', guard a s → step a s = some s' → Inv s → Inv s')
    {s s' : S} (hrun : Run step guard s s') (h : Inv s) : Inv s' := by
  induction hrun with
  | refl => exact h
  | tail _ hlast ih =>
      obtain ⟨a, hguard, hs⟩ := hlast
      exact hstep a _ _ hguard hs ih

theorem run_mono {guard' : A → S → Prop} (h : ∀ a s, guard a s → guard' a s) {s s' : S}
    (hrun : Run step guard s s') : Run step guard' s s' := by
  refine Relation.ReflTransGen.mono ?_ _ _ hrun
  rintro _ _ ⟨a, hguard, hs⟩
  exact ⟨a, h a _ hguard, hs⟩

-- A run to the goal, from steps that each bring it nearer.
theorem run_to_goal (Inv Goal : S → Prop) (measure : S → Nat)
    (hprogress : ∀ s, Inv s → ¬Goal s →
      ∃ a s', guard a s ∧ step a s = some s' ∧ Inv s' ∧ measure s' < measure s)
    {s : S} (h : Inv s) : ∃ s', Run step guard s s' ∧ Inv s' ∧ Goal s' := by
  induction hn : measure s using Nat.strongRecOn generalizing s with
  | ind n ih =>
      by_cases hgoal : Goal s
      · exact ⟨s, Relation.ReflTransGen.refl, h, hgoal⟩
      obtain ⟨a, next, hguard, hstep, hnext, hlt⟩ := hprogress s h hgoal
      obtain ⟨s', hrun, hs'⟩ := ih (measure next) (hn ▸ hlt) hnext rfl
      exact ⟨s', Relation.ReflTransGen.head ⟨a, hguard, hstep⟩ hrun, hs'⟩

-- The state a list of actions leads to, if each is enabled in turn.
def exec (step : A → S → Option S) : List A → S → Option S
  | [], s => some s
  | a :: rest, s => (step a s).bind (exec step rest)

-- Every action of the list meets the guard where it is taken.
def Along (step : A → S → Option S) (guard : A → S → Prop) : List A → S → Prop
  | [], _ => True
  | a :: rest, s => guard a s ∧ ∀ s', step a s = some s' → Along step guard rest s'

instance decidableAlong [∀ a s, Decidable (guard a s)] :
    ∀ (actions : List A) (s : S), Decidable (Along step guard actions s)
  | [], _ => .isTrue trivial
  | a :: rest, s =>
      match h : step a s with
      | none => decidable_of_iff (guard a s) (by simp [Along, h])
      | some s' =>
          have := decidableAlong rest s'
          decidable_of_iff (guard a s ∧ Along step guard rest s') (by simp [Along, h])

theorem run_of_exec (actions : List A) {s s' : S} (h : exec step actions s = some s')
    (hguard : Along step guard actions s) : Run step guard s s' := by
  induction actions generalizing s with
  | nil =>
      cases h
      exact Relation.ReflTransGen.refl
  | cons a rest ih =>
      simp only [exec, Option.bind_eq_some_iff] at h
      obtain ⟨next, hstep, hrest⟩ := h
      exact Relation.ReflTransGen.head ⟨a, hguard.1, hstep⟩ (ih hrest (hguard.2 next hstep))

-- Every state the list of actions goes through, the last one included, is good.
def Always (step : A → S → Option S) (Good : S → Prop) : List A → S → Prop
  | [], s => Good s
  | a :: rest, s => Good s ∧ ∀ s', step a s = some s' → Always step Good rest s'

-- Where the guard is exactly what a step needs to lead to a good state, the guarded runs are
-- the good ones.
theorem always_iff_along {Good : S → Prop} (hgood : ∀ s, Inv s → Good s)
    (hstep : ∀ a s s', guard a s → step a s = some s' → Inv s → Inv s')
    (hneeds : ∀ a s s', step a s = some s' → Inv s → Good s' → guard a s)
    {actions : List A} {s s' : S} (hexec : exec step actions s = some s') (h : Inv s) :
    Always step Good actions s ↔ Along step guard actions s := by
  induction actions generalizing s with
  | nil => exact ⟨fun _ => trivial, fun _ => hgood s h⟩
  | cons a rest ih =>
      simp only [exec, Option.bind_eq_some_iff] at hexec
      obtain ⟨next, hnext, hrest⟩ := hexec
      constructor
      · rintro ⟨-, hall⟩
        have halways := hall next hnext
        have hfirst : Good next := by
          cases rest with
          | nil => exact halways
          | cons b rest => exact halways.1
        have hguard := hneeds a s next hnext h hfirst
        refine ⟨hguard, fun s'' hs'' => ?_⟩
        obtain rfl : next = s'' := Option.some.inj (hnext.symm.trans hs'')
        exact (ih hrest (hstep a s next hguard hnext h)).mp halways
      · rintro ⟨hguard, hall⟩
        refine ⟨hgood s h, fun s'' hs'' => ?_⟩
        obtain rfl : next = s'' := Option.some.inj (hnext.symm.trans hs'')
        exact (ih hrest (hstep a s next hguard hnext h)).mpr (hall next hnext)

theorem along_true (actions : List A) (s : S) : Along step (fun _ _ => True) actions s := by
  induction actions generalizing s with
  | nil => trivial
  | cons a rest ih => exact ⟨trivial, fun s' _ => ih s'⟩

end Library.Transition
