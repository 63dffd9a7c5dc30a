import AlpSdk.Library.Effect

namespace Library.Fallible

open Library.Effect (Signature Prog Env Exec)

-- A program that ends with a value or with an error.
def Code (σ : Signature) (ε α : Type) : Type := Prog σ (Except ε α)

variable {σ : Signature} {ε S α β : Type}

def andThen (f : α → Code σ ε β) : Except ε α → Prog σ (Except ε β)
  | .error err => .ret (.error err)
  | .ok value => f value

instance : Monad (Code σ ε) where
  pure value := Prog.ret (.ok value)
  bind m f := Prog.bind m (andThen f)

def fail (err : ε) : Code σ ε α := Prog.ret (.error err)

-- The outcome as a value.
def attempt (m : Code σ ε α) : Code σ ε (Except ε α) := Prog.bind m fun out => .ret (.ok out)

def ofExcept (out : Except ε α) : Code σ ε α := Prog.ret out

def onlyIf (p : Prop) [Decidable p] (m : Code σ ε Unit) : Code σ ε Unit := if p then m else pure ()

-- What holds where a program ends: `E` after an error, `Q` after a value.
def Ends (E : ε → S → Prop) (Q : α → S → Prop) : Except ε α → S → Prop
  | .error err, s => E err s
  | .ok value, s => Q value s

-- The states from which every execution stays inside `J` and ends as `Ends` says.
def wp (env : Env σ S) (J : S → Prop) (m : Code σ ε α) (E : ε → S → Prop) (Q : α → S → Prop) (s : S) :
    Prop :=
  Effect.wp env J m (Ends E Q) s

section Rules

variable {env : Env σ S} {J : S → Prop} {E : ε → S → Prop} {s : S}

theorem wp_mono {m : Code σ ε α} {E' : ε → S → Prop} {Q R : α → S → Prop} (h : wp env J m E Q s)
    (hE : ∀ err s', J s' → E err s' → E' err s') (hQ : ∀ value s', J s' → Q value s' → R value s') :
    wp env J m E' R s := by
  refine Effect.wp_mono h fun out s' hJ hend => ?_
  cases out with
  | error err => exact hE err s' hJ hend
  | ok value => exact hQ value s' hJ hend

-- A stronger invariant than the one asked for holds at the end too.
theorem wp_relax {K : S → Prop} {m : Code σ ε α} {Q : α → S → Prop} (h : wp env J m E Q s)
    (hJ : ∀ s, J s → K s) :
    wp env K m (fun err s' => J s' ∧ E err s') (fun value s' => J s' ∧ Q value s') s := by
  refine Effect.wp_mono (Effect.wp_relax h hJ) fun out s' _ hend => ?_
  cases out with
  | error err => exact hend
  | ok value => exact hend

-- A call between two pieces of code, by its specification.
theorem wp_seq {m : Code σ ε α} {f : α → Code σ ε β} {P : α → S → Prop} {Q : β → S → Prop}
    (h : wp env J m E P s) (hnext : ∀ value s', J s' → P value s' → wp env J (f value) E Q s') :
    wp env J (m >>= f) E Q s := by
  refine Effect.wp_bind (Effect.wp_mono h fun out s' hJ hend => ?_)
  cases out with
  | error err => exact ⟨hJ, hend⟩
  | ok value => exact hnext value s' hJ hend

theorem wp_pure {value : α} {Q : α → S → Prop} (hJ : J s) (hQ : Q value s) :
    wp env J (pure value : Code σ ε α) E Q s :=
  ⟨hJ, hQ⟩

theorem wp_fail {err : ε} {Q : α → S → Prop} (hJ : J s) (hE : E err s) :
    wp env J (fail err : Code σ ε α) E Q s :=
  ⟨hJ, hE⟩

theorem wp_attempt {m : Code σ ε α} {E' : ε → S → Prop} {Q : Except ε α → S → Prop}
    (h : wp env J m (fun err => Q (.error err)) (fun value => Q (.ok value)) s) :
    wp env J (attempt m) E' Q s := by
  refine Effect.wp_bind (Effect.wp_mono h fun out s' hJ hend => ?_)
  cases out with
  | error err => exact ⟨hJ, hend⟩
  | ok value => exact ⟨hJ, hend⟩

theorem wp_onlyIf {p : Prop} [Decidable p] {m : Code σ ε Unit} {Q : Unit → S → Prop}
    (hm : p → wp env J m E Q s) (hskip : ¬ p → J s ∧ Q () s) : wp env J (onlyIf p m) E Q s := by
  unfold onlyIf
  split
  next hp => exact hm hp
  next hp => exact hskip hp

theorem wp_sound {m : Code σ ε α} {Q : α → S → Prop} {out : Option (Except ε α)} {s' : S}
    (he : Exec env s m out s') (h : wp env J m E Q s) :
    J s' ∧ (∀ err, out = some (.error err) → E err s') ∧ ∀ value, out = some (.ok value) → Q value s' := by
  obtain ⟨hJ, hend⟩ := Effect.wp_sound he h
  exact ⟨hJ, fun err => hend (.error err), fun value => hend (.ok value)⟩

end Rules

end Library.Fallible
