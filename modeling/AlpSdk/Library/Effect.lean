import Mathlib.Logic.Relation
import Mathlib.Order.Defs.Unbundled

namespace Library.Effect

-- The commands a program may issue, and the type of the reply to each.
structure Signature where
  Cmd : Type
  Reply : Cmd → Type

-- A program has returned, or waits for the reply to one command.
inductive Prog (σ : Signature) (α : Type) : Type where
  | ret (value : α)
  | call (cmd : σ.Cmd) (next : σ.Reply cmd → Prog σ α)

-- A deterministic interpreter of the commands over a state.
abbrev Handler (σ : Signature) (S : Type) : Type :=
  (cmd : σ.Cmd) → S → σ.Reply cmd × S

-- A nondeterministic environment: the replies and next states a command may have.
abbrev Env (σ : Signature) (S : Type) : Type :=
  S → (cmd : σ.Cmd) → σ.Reply cmd → S → Prop

variable {σ : Signature} {S T α β : Type}

namespace Prog

def bind : Prog σ α → (α → Prog σ β) → Prog σ β
  | .ret value, f => f value
  | .call cmd next, f => .call cmd fun reply => (next reply).bind f

instance : Monad (Prog σ) where
  pure := .ret
  bind := bind

@[simp] theorem pure_eq (value : α) : (pure value : Prog σ α) = .ret value := rfl

@[simp] theorem ret_bind (value : α) (f : α → Prog σ β) : (Prog.ret value >>= f) = f value := rfl

@[simp] theorem call_bind (cmd : σ.Cmd) (next : σ.Reply cmd → Prog σ α) (f : α → Prog σ β) :
    (Prog.call cmd next >>= f) = .call cmd fun reply => next reply >>= f := rfl

-- The command as a program of its own: its reply is returned unchanged.
def perform (cmd : σ.Cmd) : Prog σ (σ.Reply cmd) := .call cmd .ret

@[simp] theorem perform_bind (cmd : σ.Cmd) (f : σ.Reply cmd → Prog σ β) :
    (perform cmd >>= f) = .call cmd f := rfl

def run (h : Handler σ S) : Prog σ α → S → α × S
  | .ret value, s => (value, s)
  | .call cmd next, s => (next (h cmd s).1).run h (h cmd s).2

@[simp] theorem run_ret (h : Handler σ S) (value : α) (s : S) :
    (Prog.ret value).run h s = (value, s) := rfl

@[simp] theorem run_call (h : Handler σ S) (cmd : σ.Cmd) (next : σ.Reply cmd → Prog σ α) (s : S) :
    (Prog.call cmd next).run h s = (next (h cmd s).1).run h (h cmd s).2 := rfl

@[simp] theorem run_bind (h : Handler σ S) (p : Prog σ α) (f : α → Prog σ β) (s : S) :
    (p >>= f).run h s = (f (p.run h s).1).run h (p.run h s).2 := by
  induction p generalizing s with
  | ret value => rfl
  | call cmd next ih => exact ih _ _

-- Every command the program can issue, whatever the replies, is one of `P`.
def Uses (P : σ.Cmd → Prop) : Prog σ α → Prop
  | .ret _ => True
  | .call cmd next => P cmd ∧ ∀ reply, (next reply).Uses P

theorem uses_bind {P : σ.Cmd → Prop} {p : Prog σ α} {f : α → Prog σ β} (hp : p.Uses P)
    (hf : ∀ value, (f value).Uses P) : (p >>= f).Uses P := by
  induction p with
  | ret value => exact hf value
  | call cmd next ih => exact ⟨hp.1, fun reply => ih reply (hp.2 reply)⟩

theorem uses_mono {P P' : σ.Cmd → Prop} {p : Prog σ α} (hp : p.Uses P) (hP : ∀ cmd, P cmd → P' cmd) :
    p.Uses P' := by
  induction p with
  | ret value => trivial
  | call cmd next ih => exact ⟨hP cmd hp.1, fun reply => ih reply (hp.2 reply)⟩

-- A program whose commands leave the state alone leaves it alone.
theorem run_frame {h : Handler σ S} {P : σ.Cmd → Prop} (hframe : ∀ cmd s, P cmd → (h cmd s).2 = s)
    {p : Prog σ α} (hp : p.Uses P) (s : S) : (p.run h s).2 = s := by
  induction p generalizing s with
  | ret value => rfl
  | call cmd next ih =>
      rw [run_call, ih _ (hp.2 _), hframe cmd s hp.1]

-- Every command the program can issue is one of `P` and every value it can return one of `Q`,
-- whatever the replies.
def Ensures (P : σ.Cmd → Prop) (Q : α → Prop) : Prog σ α → Prop
  | .ret value => Q value
  | .call cmd next => P cmd ∧ ∀ reply, (next reply).Ensures P Q

theorem ensures_bind {P : σ.Cmd → Prop} {Q : α → Prop} {Q' : β → Prop} {p : Prog σ α}
    {f : α → Prog σ β} (hp : p.Ensures P Q) (hf : ∀ value, Q value → (f value).Ensures P Q') :
    (p >>= f).Ensures P Q' := by
  induction p with
  | ret value => exact hf value hp
  | call cmd next ih => exact ⟨hp.1, fun reply => ih reply (hp.2 reply)⟩

theorem ensures_mono {P P' : σ.Cmd → Prop} {Q Q' : α → Prop} {p : Prog σ α} (hp : p.Ensures P Q)
    (hP : ∀ cmd, P cmd → P' cmd) (hQ : ∀ value, Q value → Q' value) : p.Ensures P' Q' := by
  induction p with
  | ret value => exact hQ value hp
  | call cmd next ih => exact ⟨hP cmd hp.1, fun reply => ih reply (hp.2 reply)⟩

-- At most `n` commands on every path.
def Within : Prog σ α → Nat → Prop
  | .ret _, _ => True
  | .call _ _, 0 => False
  | .call _ next, n + 1 => ∀ reply, (next reply).Within n

theorem within_mono {p : Prog σ α} {n m : Nat} (h : p.Within n) (hle : n ≤ m) : p.Within m := by
  induction p generalizing n m with
  | ret value => trivial
  | call cmd next ih =>
      cases n with
      | zero => exact h.elim
      | succ n =>
          cases m with
          | zero => omega
          | succ m => exact fun reply => ih reply (h reply) (by omega)

theorem within_bind {p : Prog σ α} {f : α → Prog σ β} {n m : Nat} (hp : p.Within n)
    (hf : ∀ value, (f value).Within m) : (p >>= f).Within (n + m) := by
  induction p generalizing n with
  | ret value => exact within_mono (hf value) (by omega)
  | call cmd next ih =>
      cases n with
      | zero => exact hp.elim
      | succ n =>
          rw [Nat.succ_add]
          exact fun reply => ih reply (hp reply)

end Prog

-- An execution may be cut at any point, which loses the program and keeps the state.
inductive Exec (env : Env σ S) : S → Prog σ α → Option α → S → Prop where
  | cut (s : S) (p : Prog σ α) : Exec env s p none s
  | done (s : S) (value : α) : Exec env s (.ret value) (some value) s
  | step {s s' s'' : S} {cmd : σ.Cmd} {reply : σ.Reply cmd} {next : σ.Reply cmd → Prog σ α}
      {result : Option α} (henv : env s cmd reply s') (hrest : Exec env s' (next reply) result s'') :
      Exec env s (.call cmd next) result s''

-- The states from which every execution stays inside `J`, also where it is cut, and
-- establishes `Q` where the program returns.
def wp (env : Env σ S) (J : S → Prop) : Prog σ α → (α → S → Prop) → S → Prop
  | .ret value, Q, s => J s ∧ Q value s
  | .call cmd next, Q, s => J s ∧ ∀ reply s', env s cmd reply s' → wp env J (next reply) Q s'

-- A property of the states that no command of a class loses.
def Preserves (env : Env σ S) (P : σ.Cmd → Prop) (J : S → Prop) : Prop :=
  ∀ s cmd reply s', P cmd → env s cmd reply s' → J s → J s'

theorem Preserves.and_of_forall {env : Env σ S} {P : σ.Cmd → Prop} {J G : S → Prop} (h : Preserves env P J)
    (hG : ∀ s, G s) : Preserves env P fun s => J s ∧ G s :=
  fun s cmd reply s' hcmd he hs => ⟨h s cmd reply s' hcmd he hs.1, hG s'⟩

section Rules

variable {env : Env σ S} {J : S → Prop}

theorem wp_inv {p : Prog σ α} {Q : α → S → Prop} {s : S} (h : wp env J p Q s) : J s := by
  cases p with
  | ret value => exact h.1
  | call cmd next => exact h.1

theorem wp_mono {p : Prog σ α} {Q R : α → S → Prop} {s : S} (h : wp env J p Q s)
    (hQ : ∀ value s', J s' → Q value s' → R value s') : wp env J p R s := by
  induction p generalizing s with
  | ret value => exact ⟨h.1, hQ value s h.1 h.2⟩
  | call cmd next ih => exact ⟨h.1, fun reply s' he => ih reply (h.2 reply s' he)⟩

-- A stronger invariant than the one asked for holds at the end too.
theorem wp_relax {K : S → Prop} {p : Prog σ α} {Q : α → S → Prop} {s : S} (h : wp env J p Q s)
    (hJ : ∀ s, J s → K s) : wp env K p (fun value s' => J s' ∧ Q value s') s := by
  induction p generalizing s with
  | ret value => exact ⟨hJ s h.1, h.1, h.2⟩
  | call cmd next ih => exact ⟨hJ s h.1, fun reply s' he => ih reply (h.2 reply s' he)⟩

theorem wp_bind {p : Prog σ α} {f : α → Prog σ β} {Q : β → S → Prop} {s : S}
    (h : wp env J p (fun value => wp env J (f value) Q) s) : wp env J (p >>= f) Q s := by
  induction p generalizing s with
  | ret value => exact h.2
  | call cmd next ih => exact ⟨h.1, fun reply s' he => ih reply (h.2 reply s' he)⟩

theorem wp_ite {c : Prop} [Decidable c] {p q : Prog σ α} {Q : α → S → Prop} {s : S} (hp : c → wp env J p Q s)
    (hq : ¬ c → wp env J q Q s) : wp env J (if c then p else q) Q s := by
  split
  case isTrue h => exact hp h
  case isFalse h => exact hq h

theorem wp_frame {P : σ.Cmd → Prop} {p : Prog σ α} {Q : α → S → Prop} {s : S}
    (hframe : ∀ s cmd reply s', P cmd → env s cmd reply s' → s' = s) (hp : p.Uses P) (hJ : J s)
    (hQ : ∀ value, Q value s) : wp env J p Q s := by
  induction p with
  | ret value => exact ⟨hJ, hQ value⟩
  | call cmd next ih =>
      refine ⟨hJ, fun reply s' he => ?_⟩
      rw [hframe s cmd reply s' hp.1 he]
      exact ih reply (hp.2 reply)

theorem wp_uses {P : σ.Cmd → Prop} {p : Prog σ α} {s : S} (hJ : Preserves env P J) (hp : p.Uses P) (hs : J s) :
    wp env J p (fun _ _ => True) s := by
  induction p generalizing s with
  | ret value => exact ⟨hs, trivial⟩
  | call cmd next ih =>
      exact ⟨hs, fun reply s' he => ih reply (hp.2 reply) (hJ s cmd reply s' hp.1 he hs)⟩

theorem wp_uses_bind {P : σ.Cmd → Prop} {p : Prog σ α} {f : α → Prog σ β} {Q : β → S → Prop} {s : S}
    (hJ : Preserves env P J) (hp : p.Uses P) (hs : J s) (hrest : ∀ value s', J s' → wp env J (f value) Q s') :
    wp env J (p >>= f) Q s :=
  wp_bind (wp_mono (wp_uses hJ hp hs) fun value s' hs' _ => hrest value s' hs')

-- What each command of a program can do to the state, the whole program can do to it.
theorem wp_ensures {P : σ.Cmd → Prop} {V : α → Prop} {R : S → S → Prop} [IsPreorder S R]
    (hstep : ∀ s cmd reply s', P cmd → env s cmd reply s' → J s → R s s' ∧ J s') {p : Prog σ α}
    (hp : p.Ensures P V) {s : S} (hJ : J s) : wp env J p (fun value s' => R s s' ∧ V value) s := by
  induction p generalizing s with
  | ret value => exact ⟨hJ, refl s, hp⟩
  | call cmd next ih =>
      refine ⟨hJ, fun reply s' he => ?_⟩
      obtain ⟨hR, hJ'⟩ := hstep s cmd reply s' hp.1 he hJ
      refine wp_mono (ih reply (hp.2 reply) hJ') fun value s'' _ hrest => ?_
      exact ⟨IsTrans.trans s s' s'' hR hrest.1, hrest.2⟩

theorem wp_of_forall {p : Prog σ α} {Q : α → S → Prop} {s : S} (hJ : ∀ s, J s) (hQ : ∀ value s, Q value s) :
    wp env J p Q s := by
  induction p generalizing s with
  | ret value => exact ⟨hJ s, hQ value s⟩
  | call cmd next ih => exact ⟨hJ s, fun reply s' _ => ih reply⟩

-- A property of the values a program can return, whatever the replies, holds in every execution.
theorem wp_and_returns {p : Prog σ α} {P : α → Prop} {Q : α → S → Prop} {s : S}
    (h : wp env J p Q s)
    (hret : wp (fun (_ : Unit) _ _ _ => True) (fun _ => True) p (fun value _ => P value) ()) :
    wp env J p (fun value s' => Q value s' ∧ P value) s := by
  induction p generalizing s with
  | ret value => exact ⟨h.1, h.2, hret.2⟩
  | call cmd next ih =>
      exact ⟨h.1, fun reply s' he => ih reply (h.2 reply s' he) (hret.2 reply () trivial)⟩

-- Every state an execution ends in satisfies the crash invariant, and a returned value
-- its postcondition.
theorem wp_sound {p : Prog σ α} {Q : α → S → Prop} {s s' : S} {result : Option α}
    (he : Exec env s p result s') (h : wp env J p Q s) :
    J s' ∧ ∀ value, result = some value → Q value s' := by
  induction he with
  | cut s p => exact ⟨wp_inv h, by simp⟩
  | done s value => exact ⟨h.1, by rintro _ ⟨⟩; exact h.2⟩
  | step henv _ ih => exact ih (h.2 _ _ henv)

end Rules

theorem exec_bind {env : Env σ S} {p : Prog σ α} {f : α → Prog σ β} {s s' s'' : S} {value : α}
    {result : Option β} (hp : Exec env s p (some value) s') (hf : Exec env s' (f value) result s'') :
    Exec env s (p >>= f) result s'' := by
  generalize hout : some value = out at hp
  induction hp with
  | cut s p => cases hout
  | done s v =>
      cases hout
      exact hf
  | step henv _ ih => exact .step henv (ih hf hout)

theorem exec_cut_bind {env : Env σ S} {p : Prog σ α} {f : α → Prog σ β} {s s' : S}
    (hp : Exec env s p none s') : Exec env s (p >>= f) none s' := by
  generalize hout : none = out at hp
  induction hp with
  | cut s p => exact .cut s _
  | done s v => cases hout
  | step henv _ ih => exact .step henv (ih hout)

-- An execution to the end of a bind ends its first program on the way.
theorem exec_of_bind {env : Env σ S} {p : Prog σ α} {f : α → Prog σ β} {s s'' : S} {result : β}
    (h : Exec env s (p >>= f) (some result) s'') :
    ∃ value s', Exec env s p (some value) s' ∧ Exec env s' (f value) (some result) s'' := by
  induction p generalizing s with
  | ret value => exact ⟨value, s, .done s value, h⟩
  | call cmd next ih =>
      generalize hout : some result = out at h
      cases h with
      | cut => cases hout
      | step henv hrest =>
          subst hout
          obtain ⟨value, s', hp, hf⟩ := ih _ hrest
          exact ⟨value, s', .step henv hp, hf⟩

theorem eq_of_exec_ret {env : Env σ S} {s s' : S} {value value' : α}
    (h : Exec env s (.ret value) (some value') s') : value' = value ∧ s' = s := by
  cases h with
  | done => exact ⟨rfl, rfl⟩

theorem exec_mono {env env' : Env σ S} {p : Prog σ α} {s s' : S} {result : Option α}
    (h : Exec env s p result s') (hle : ∀ s cmd reply s', env s cmd reply s' → env' s cmd reply s') :
    Exec env' s p result s' := by
  induction h with
  | cut s p => exact .cut s p
  | done s value => exact .done s value
  | step henv _ ih => exact .step (hle _ _ _ _ henv) ih

-- A program of bounded length moves a counter of some of its commands by no more than that.
theorem exec_count_le {P : σ.Cmd → Bool} {p : Prog σ α} {n k k' : Nat} {out : Option α} (hp : p.Within n)
    (he : Exec (fun k cmd _ k' => k' = if P cmd then k + 1 else k) k p out k') : k' ≤ k + n := by
  induction he generalizing n with
  | cut k p => omega
  | done k value => omega
  | @step k k' k'' cmd reply next out henv _ ih =>
      cases n with
      | zero => exact hp.elim
      | succ n =>
          have hrest := ih (hp reply)
          split at henv
          · omega
          · omega

-- An environment that answers anything allows what any other allows.
theorem exec_count_of_any (P : σ.Cmd → Bool) {env : Env σ S} {p : Prog σ α} {s s' : S} {out : Option α}
    (he : Exec env s p out s') (k : Nat) :
    ∃ k', Exec (fun k cmd _ k' => k' = if P cmd then k + 1 else k) k p out k' := by
  induction he generalizing k with
  | cut s p => exact ⟨k, .cut k p⟩
  | done s value => exact ⟨k, .done k value⟩
  | @step s s' s'' cmd reply next out _ _ ih =>
      obtain ⟨k', hrest⟩ := ih (if P cmd then k + 1 else k)
      exact ⟨k', .step rfl hrest⟩

-- The run under a handler that the environment allows is one of the executions.
theorem exec_of_run {env : Env σ S} {h : Handler σ S} (hh : ∀ cmd s, env s cmd (h cmd s).1 (h cmd s).2)
    (p : Prog σ α) (s : S) : Exec env s p (some (p.run h s).1) (p.run h s).2 := by
  induction p generalizing s with
  | ret value => exact .done s value
  | call cmd next ih => exact .step (hh cmd s) (ih _ _)

-- The state in which a run is cut off after so many commands.
def Prog.runFor (h : Handler σ S) : Nat → Prog σ α → S → S
  | n + 1, .call cmd next, s => (next (h cmd s).1).runFor h n (h cmd s).2
  | _, _, s => s

theorem exec_runFor {env : Env σ S} {h : Handler σ S} (hh : ∀ cmd s, env s cmd (h cmd s).1 (h cmd s).2)
    (n : Nat) (p : Prog σ α) (s : S) : Exec env s p none (p.runFor h n s) := by
  induction n generalizing p s with
  | zero => exact .cut s p
  | succ n ih =>
      cases p with
      | ret value => exact .cut s _
      | call cmd next => exact .step (hh cmd s) (ih _ _)

-- The environment in which nothing but the handler happens.
def graph (h : Handler σ S) : Env σ S := fun s cmd reply s' => reply = (h cmd s).1 ∧ s' = (h cmd s).2

-- What a program achieves under a handler it can achieve in every environment that allows it.
theorem exists_exec {env : Env σ S} {h : Handler σ S} (hh : ∀ cmd s, env s cmd (h cmd s).1 (h cmd s).2)
    {J : S → Prop} {p : Prog σ α} {Q : α → S → Prop} {s : S} (hwp : wp (graph h) J p Q s) :
    ∃ value s', Exec env s p (some value) s' ∧ Q value s' := by
  have hgraph : ∀ cmd s, graph h s cmd (h cmd s).1 (h cmd s).2 := fun _ _ => ⟨rfl, rfl⟩
  have hrun := exec_of_run hgraph p s
  exact ⟨_, _, exec_of_run hh p s, (wp_sound hrun hwp).2 _ rfl⟩

-- A handler whose commands may also fail, with a reply from `fails`, and change nothing.
def faulty (h : Handler σ S) (fails : (cmd : σ.Cmd) → σ.Reply cmd → Prop) : Env σ S :=
  fun s cmd reply s' => (fails cmd reply ∧ s' = s) ∨ (reply = (h cmd s).1 ∧ s' = (h cmd s).2)

section Faulty

variable {h : Handler σ S} {fails : (cmd : σ.Cmd) → σ.Reply cmd → Prop} {J : S → Prop}

theorem wp_call_faulty {cmd : σ.Cmd} {next : σ.Reply cmd → Prog σ α} {Q : α → S → Prop} {s : S}
    (hJ : J s) (hfail : ∀ reply, fails cmd reply → wp (faulty h fails) J (next reply) Q s)
    (hok : wp (faulty h fails) J (next (h cmd s).1) Q (h cmd s).2) :
    wp (faulty h fails) J (.call cmd next) Q s := by
  refine ⟨hJ, ?_⟩
  rintro reply s' (⟨hf, rfl⟩ | ⟨rfl, rfl⟩)
  · exact hfail reply hf
  · exact hok

-- The fault-free run is one of the executions.
theorem exec_run (p : Prog σ α) (s : S) :
    Exec (faulty h fails) s p (some (p.run h s).1) (p.run h s).2 :=
  exec_of_run (fun _ _ => Or.inr ⟨rfl, rfl⟩) p s

end Faulty

-- The states from which a program comes to its end, whatever the replies, and establishes `Q` there.
def twp (env : Env σ S) : Prog σ α → (α → S → Prop) → S → Prop
  | .ret value, Q, s => Q value s
  | .call cmd next, Q, s =>
      (∃ reply s', env s cmd reply s') ∧ ∀ reply s', env s cmd reply s' → twp env (next reply) Q s'

section Total

variable {env : Env σ S}

theorem twp_mono {p : Prog σ α} {Q R : α → S → Prop} {s : S} (h : twp env p Q s)
    (hQ : ∀ value s', Q value s' → R value s') : twp env p R s := by
  induction p generalizing s with
  | ret value => exact hQ value s h
  | call cmd next ih => exact ⟨h.1, fun reply s' he => ih reply (h.2 reply s' he)⟩

theorem twp_bind {p : Prog σ α} {f : α → Prog σ β} {Q : β → S → Prop} {s : S}
    (h : twp env p (fun value => twp env (f value) Q) s) : twp env (p >>= f) Q s := by
  induction p generalizing s with
  | ret value => exact h
  | call cmd next ih => exact ⟨h.1, fun reply s' he => ih reply (h.2 reply s' he)⟩

theorem twp_sound {p : Prog σ α} {Q : α → S → Prop} {s s' : S} {value : α} (h : twp env p Q s)
    (he : Exec env s p (some value) s') : Q value s' := by
  generalize hout : some value = out at he
  induction he with
  | cut s p => cases hout
  | done s value =>
      cases hout
      exact h
  | step henv _ ih => exact ih (h.2 _ _ henv) hout

theorem exec_of_twp {p : Prog σ α} {Q : α → S → Prop} {s : S} (h : twp env p Q s) :
    ∃ value s', Exec env s p (some value) s' := by
  induction p generalizing s with
  | ret value => exact ⟨value, s, .done s value⟩
  | call cmd next ih =>
      obtain ⟨reply, s', he⟩ := h.1
      obtain ⟨value, s'', hrest⟩ := ih reply (h.2 reply s' he)
      exact ⟨value, s'', .step he hrest⟩

end Total

-- Sessions: any sequence of programs from a set, each of which may be cut.
def Session (env : Env σ S) (P : Prog σ α → Prop) : S → S → Prop :=
  Relation.ReflTransGen fun s s' => ∃ p, P p ∧ ∃ result, Exec env s p result s'

theorem session_invariant {env : Env σ S} {P : Prog σ α → Prop} {J : S → Prop} {s s' : S}
    (hstep : ∀ p s, P p → J s → wp env J p (fun _ _ => True) s)
    (hs : Session env P s s') (h : J s) : J s' := by
  induction hs with
  | refl => exact h
  | tail _ he ih =>
      obtain ⟨p, hp, result, he⟩ := he
      exact (wp_sound he (hstep p _ hp ih)).1

end Library.Effect
