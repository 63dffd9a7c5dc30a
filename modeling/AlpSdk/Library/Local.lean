import AlpSdk.Library.Effect

namespace Library.Local

open Library.Effect

-- A command as it is issued: together with the state of the caller at that point.
structure Issued (σ : Signature) (C : Type) where
  state : C
  cmd : σ.Cmd

abbrev issuing (σ : Signature) (C : Type) : Signature where
  Cmd := Issued σ C
  Reply i := σ.Reply i.cmd

-- A program over a local state of its own. It returns `none` where a recursion that is cut
-- at a given depth would go deeper.
def Routine (σ : Signature) (C α : Type) : Type := C → Prog (issuing σ C) (Option (α × C))

variable {σ : Signature} {C S α β : Type}

def andThen (f : α → Routine σ C β) : Option (α × C) → Prog (issuing σ C) (Option (β × C))
  | none => .ret none
  | some (value, c) => f value c

instance : Monad (Routine σ C) where
  pure value := fun c => .ret (some (value, c))
  bind m f := fun c => m c >>= andThen f

def get : Routine σ C C := fun c => .ret (some (c, c))

def modify (f : C → C) : Routine σ C Unit := fun c => .ret (some ((), f c))

def issue (cmd : σ.Cmd) : Routine σ C (σ.Reply cmd) :=
  fun c => .call ⟨c, cmd⟩ fun reply => .ret (some (reply, c))

def exhausted : Routine σ C α := fun _ => .ret none

-- What holds where a program ends: `E` if it was cut, the postcondition if it returned.
def Ends (E : Prop) (Q : α → C → S → Prop) : Option (α × C) → S → Prop
  | none, _ => E
  | some (value, c), s => Q value c s

-- The caller states and environment states from which every execution stays inside `J` and
-- ends as `Ends` says.
def wp (env : Env (issuing σ C) S) (J : S → Prop) (E : Prop) (m : Routine σ C α)
    (Q : α → C → S → Prop) (c : C) (s : S) : Prop :=
  Effect.wp env J (m c) (Ends E Q) s

section Rules

variable {env : Env (issuing σ C) S} {J : S → Prop} {E : Prop} {c : C} {s : S}

theorem wp_mono {m : Routine σ C α} {Q R : α → C → S → Prop} (h : wp env J E m Q c s)
    (hQ : ∀ value c' s', J s' → Q value c' s' → R value c' s') : wp env J E m R c s := by
  refine Effect.wp_mono h fun out s' hJ hend => ?_
  cases out with
  | none => exact hend
  | some out => exact hQ out.1 out.2 s' hJ hend

theorem wp_relax {K : S → Prop} {m : Routine σ C α} {Q : α → C → S → Prop} (h : wp env J E m Q c s)
    (hJ : ∀ s, J s → K s) : wp env K E m (fun value c' s' => J s' ∧ Q value c' s') c s := by
  refine Effect.wp_mono (Effect.wp_relax h hJ) fun out s' _ hend => ?_
  cases out with
  | none => exact hend.2
  | some out => exact hend

theorem wp_bind {m : Routine σ C α} {f : α → Routine σ C β} {Q : β → C → S → Prop}
    (h : wp env J E m (fun value => wp env J E (f value) Q) c s) :
    wp env J E (m >>= f) Q c s := by
  refine Effect.wp_bind (Effect.wp_mono h fun out s' hJ hend => ?_)
  cases out with
  | none => exact ⟨hJ, hend⟩
  | some out => exact hend

-- A call between two pieces of code, by its specification.
theorem wp_seq {m : Routine σ C α} {f : α → Routine σ C β} {P : α → C → S → Prop}
    {Q : β → C → S → Prop} (h : wp env J E m P c s)
    (hnext : ∀ value c' s', J s' → P value c' s' → wp env J E (f value) Q c' s') :
    wp env J E (m >>= f) Q c s :=
  wp_bind (wp_mono h hnext)

theorem wp_pure {value : α} {Q : α → C → S → Prop} (hJ : J s) (hQ : Q value c s) :
    wp env J E (pure value) Q c s :=
  ⟨hJ, hQ⟩

theorem wp_get_bind {f : C → Routine σ C β} {Q : β → C → S → Prop}
    (h : wp env J E (f c) Q c s) : wp env J E (get >>= f) Q c s := h

theorem wp_modify_bind {g : C → C} {f : Unit → Routine σ C β} {Q : β → C → S → Prop}
    (h : wp env J E (f ()) Q (g c) s) : wp env J E (modify g >>= f) Q c s := h

theorem wp_modify {g : C → C} {Q : Unit → C → S → Prop} (hJ : J s) (h : Q () (g c) s) :
    wp env J E (modify g) Q c s :=
  ⟨hJ, h⟩

theorem wp_issue {cmd : σ.Cmd} {Q : σ.Reply cmd → C → S → Prop} (hJ : J s)
    (h : ∀ reply s', env s ⟨c, cmd⟩ reply s' → J s' ∧ Q reply c s') : wp env J E (issue cmd) Q c s :=
  ⟨hJ, h⟩

theorem wp_issue_bind {cmd : σ.Cmd} {f : σ.Reply cmd → Routine σ C β} {Q : β → C → S → Prop}
    (hJ : J s)
    (h : ∀ reply s', env s ⟨c, cmd⟩ reply s' → wp env J E (f reply) Q c s') :
    wp env J E (issue cmd >>= f) Q c s :=
  ⟨hJ, h⟩

theorem wp_exhausted {Q : α → C → S → Prop} (hJ : J s) (hE : E) :
    wp env J E exhausted Q c s :=
  ⟨hJ, hE⟩

theorem wp_sound {m : Routine σ C α} {Q : α → C → S → Prop} {out : Option (Option (α × C))}
    {s' : S} (he : Exec env s (m c) out s') (h : wp env J E m Q c s) :
    J s' ∧ (out = some none → E) ∧ ∀ value c', out = some (some (value, c')) → Q value c' s' := by
  obtain ⟨hJ, hend⟩ := Effect.wp_sound he h
  exact ⟨hJ, hend none, fun value c' => hend (some (value, c'))⟩

theorem exists_exec {h : Handler (issuing σ C) S} (hh : ∀ cmd s, env s cmd (h cmd s).1 (h cmd s).2)
    {m : Routine σ C α} {Q : α → C → S → Prop} (hwp : wp (graph h) J False m Q c s) :
    ∃ value c' s', Exec env s (m c) (some (some (value, c'))) s' ∧ Q value c' s' := by
  obtain ⟨out, s', hexec, hend⟩ := Effect.exists_exec hh hwp
  cases out with
  | none => exact hend.elim
  | some out => exact ⟨out.1, out.2, s', hexec, hend⟩

-- What a routine returns whatever the replies, an environment that answers anything at all.
def Always (m : Routine σ C α) (P : α → C → Prop) (c : C) : Prop :=
  wp (fun (_ : Unit) _ _ _ => True) (fun _ => True) True m (fun value c' _ => P value c') c ()

theorem always_of_forall {m : Routine σ C α} {P : α → C → Prop} (h : ∀ value c', P value c') :
    Always m P c := by
  refine Effect.wp_of_forall (fun _ => trivial) fun out _ => ?_
  cases out with
  | none => trivial
  | some out => exact h out.1 out.2

theorem wp_always {m : Routine σ C α} {P : α → C → Prop} {Q : α → C → S → Prop}
    (h : wp env J E m Q c s) (hP : Always m P c) :
    wp env J E m (fun value c' s' => Q value c' s' ∧ P value c') c s := by
  refine Effect.wp_mono (Effect.wp_and_returns (P := fun out => Ends True (fun v c' _ => P v c') out ())
    h hP) fun out s' _ hend => ?_
  cases out with
  | none => exact hend.1
  | some out => exact hend

end Rules

-- Every command the routine can issue is one of `P`, and it moves the local state by `R`, whatever
-- the replies.
def Confined (P : σ.Cmd → Prop) (R : C → C → Prop) (m : Routine σ C α) : Prop :=
  ∀ c, (m c).Ensures (fun i : Issued σ C => P i.cmd) fun out => ∀ value c', out = some (value, c') → R c c'

namespace Confined

variable {P : σ.Cmd → Prop} {R : C → C → Prop}

theorem pure [Std.Refl R] (value : α) : Confined P R (Pure.pure value : Routine σ C α) := by
  intro c value' c' hout
  cases hout
  exact refl c

theorem modify {g : C → C} (h : ∀ c, R c (g c)) : Confined P R (Library.Local.modify g : Routine σ C Unit) := by
  intro c value' c' hout
  cases hout
  exact h c

theorem issue [Std.Refl R] {cmd : σ.Cmd} (h : P cmd) :
    Confined P R (Library.Local.issue cmd : Routine σ C (σ.Reply cmd)) := by
  refine fun c => ⟨h, fun reply value' c' hout => ?_⟩
  cases hout
  exact refl c

theorem bind [IsTrans C R] {m : Routine σ C α} {f : α → Routine σ C β} (hm : Confined P R m)
    (hf : ∀ value, Confined P R (f value)) : Confined P R (m >>= f) := by
  refine fun c => Prog.ensures_bind (hm c) fun out hout => ?_
  cases out with
  | none => exact nofun
  | some out =>
      refine Prog.ensures_mono (hf out.1 out.2) (fun _ h => h) fun out' hrest value c' hout' => ?_
      exact IsTrans.trans c out.2 c' (hout out.1 out.2 rfl) (hrest value c' hout')

theorem get {f : C → Routine σ C β} (hf : ∀ c, Confined P R (f c)) : Confined P R (Library.Local.get >>= f) :=
  fun c => hf c c

theorem ite {p : Prop} [Decidable p] {m m' : Routine σ C α} (hm : Confined P R m) (hm' : Confined P R m') :
    Confined P R (if p then m else m') := by
  split
  · exact hm
  · exact hm'

end Confined

theorem wp_confined {env : Env (issuing σ C) S} {J : S → Prop} {P : σ.Cmd → Prop} {R : C → C → Prop}
    {T : S → S → Prop} [IsPreorder S T]
    (hstep : ∀ s c cmd reply s', P cmd → env s ⟨c, cmd⟩ reply s' → J s → T s s' ∧ J s')
    {m : Routine σ C α} (hm : Confined P R m) {c : C} {s : S} (hJ : J s) :
    wp env J True m (fun _ c' s' => R c c' ∧ T s s') c s := by
  have h := Effect.wp_ensures (fun s (i : Issued σ C) reply s' => hstep s i.state i.cmd reply s') (hm c) hJ
  refine Effect.wp_mono h fun out s' _ hend => ?_
  cases out with
  | none => trivial
  | some out => exact ⟨hend.2 out.1 out.2 rfl, hend.1⟩

-- At most `n` commands on every path, from whatever state.
def Within (n : Nat) (m : Routine σ C α) : Prop := ∀ c, (m c).Within n

namespace Within

theorem pure (value : α) (n : Nat) : Within n (Pure.pure value : Routine σ C α) := fun _ => trivial

theorem exhausted (n : Nat) : Within n (Library.Local.exhausted : Routine σ C α) := fun _ => trivial

theorem modify (g : C → C) (n : Nat) : Within n (Library.Local.modify g : Routine σ C Unit) :=
  fun _ => trivial

theorem issue {n : Nat} (cmd : σ.Cmd) : Within (n + 1) (Library.Local.issue cmd : Routine σ C (σ.Reply cmd)) :=
  fun _ _ => trivial

theorem mono {n n' : Nat} {m : Routine σ C α} (h : Within n m) (hle : n ≤ n') : Within n' m :=
  fun c => Prog.within_mono (h c) hle

theorem bind {k n n' : Nat} {m : Routine σ C α} {f : α → Routine σ C β} (hm : Within n m)
    (hf : ∀ value, Within n' (f value)) (hle : n + n' ≤ k) : Within k (m >>= f) := by
  refine fun c => Prog.within_mono (Prog.within_bind (hm c) fun out => ?_) hle
  cases out with
  | none => trivial
  | some out => exact hf out.1 out.2

theorem get {n : Nat} {f : C → Routine σ C β} (hf : ∀ c, Within n (f c)) :
    Within n (Library.Local.get >>= f) :=
  fun c => hf c c

theorem ite {n : Nat} {p : Prop} [Decidable p] {m m' : Routine σ C α} (hm : Within n m)
    (hm' : Within n m') : Within n (if p then m else m') := by
  split
  · exact hm
  · exact hm'

end Within

-- Executions of a routine followed by executions of the rest of it.
theorem exec_then {env : Env (issuing σ C) S} {m : Routine σ C α} {f : α → Routine σ C β} {c c' : C}
    {s s' s'' : S} {value : α} {result : Option (Option (β × C))}
    (hm : Exec env s (m c) (some (some (value, c'))) s') (hf : Exec env s' (f value c') result s'') :
    Exec env s ((m >>= f) c) result s'' :=
  Effect.exec_bind hm hf

theorem exec_of_seq {env : Env (issuing σ C) S} {m : Routine σ C α} {f : α → Routine σ C β} {c c'' : C}
    {s s'' : S} {result : β} (h : Exec env s ((m >>= f) c) (some (some (result, c''))) s'') :
    ∃ value c' s', Exec env s (m c) (some (some (value, c'))) s' ∧
      Exec env s' (f value c') (some (some (result, c''))) s'' := by
  obtain ⟨out, s', hm, hf⟩ := Effect.exec_of_bind h
  cases out with
  | none => cases hf
  | some out => exact ⟨out.1, out.2, s', hm, hf⟩

theorem exec_exhausted {env : Env (issuing σ C) S} {m : Routine σ C α} {f : α → Routine σ C β} {c : C}
    {s s' : S} (hm : Exec env s (m c) (some none) s') :
    Exec env s ((m >>= f) c) (some none) s' :=
  Effect.exec_bind hm (.done s' none)

theorem exec_get {env : Env (issuing σ C) S} {f : C → Routine σ C β} {c : C} {s s' : S}
    {result : Option (Option (β × C))} (h : Exec env s (f c c) result s') :
    Exec env s ((get >>= f) c) result s' := h

theorem exec_modify {env : Env (issuing σ C) S} {g : C → C} {f : Unit → Routine σ C β} {c : C} (c' : C)
    {s s' : S} {result : Option (Option (β × C))} (hc : g c = c') (h : Exec env s (f () c') result s') :
    Exec env s ((modify g >>= f) c) result s' := by
  subst hc
  exact h

theorem exec_issue {env : Env (issuing σ C) S} {cmd : σ.Cmd} {f : σ.Reply cmd → Routine σ C β} {c : C}
    {s s' s'' : S} {result : Option (Option (β × C))} (reply : σ.Reply cmd) (henv : env s ⟨c, cmd⟩ reply s')
    (h : Exec env s' (f reply c) result s'') :
    Exec env s ((issue cmd >>= f) c) result s'' :=
  .step henv h

-- Sessions: programs of a set run one after the other to their end, the caller's state and
-- the environment's passed on from each to the next.
def Session (env : Env (issuing σ C) S) (P : Routine σ C α → Prop) : C × S → C × S → Prop :=
  Relation.ReflTransGen fun x y =>
    ∃ m value, P m ∧ Exec env x.2 (m x.1) (some (some (value, y.1))) y.2

theorem session_invariant {env : Env (issuing σ C) S} {P : Routine σ C α → Prop} {I : C → Prop}
    {J : S → Prop} (hstep : ∀ m c s, P m → I c → J s → wp env J True m (fun _ c' _ => I c') c s)
    {x y : C × S} (hs : Session env P x y) (hI : I x.1) (hJ : J x.2) : I y.1 ∧ J y.2 := by
  induction hs with
  | refl => exact ⟨hI, hJ⟩
  | tail _ hlast ih =>
      obtain ⟨m, value, hm, he⟩ := hlast
      obtain ⟨hJ', -, hQ⟩ := wp_sound he (hstep m _ _ hm ih.1 ih.2)
      exact ⟨hQ value _ rfl, hJ'⟩

end Library.Local
