import AlpSdk.Library.Effect
import Mathlib.Logic.Function.Basic

namespace Library.Interleave

open Library.Effect

-- Threads that run programs over one memory, one command at a time. A thread that has
-- returned may start another call.
structure Pool (σ : Signature) (S T : Type) where
  mem : S
  thread : T → Prog σ Unit

-- What a thread may issue in each state of its protocol, and the state the reply leads to.
structure Protocol (σ : Signature) (G : Type) where
  allows : G → σ.Cmd → Prop
  next : G → (cmd : σ.Cmd) → σ.Reply cmd → G

variable {σ : Signature} {S T G α β : Type}

section Follows

variable {proto : Protocol σ G}

-- The program keeps to the protocol whatever the replies are, and returns as `Q` says.
def Follows (proto : Protocol σ G) : Prog σ α → (α → G → Prop) → G → Prop
  | .ret value, Q, g => Q value g
  | .call cmd next, Q, g =>
      proto.allows g cmd ∧ ∀ reply, Follows proto (next reply) Q (proto.next g cmd reply)

theorem follows_mono {p : Prog σ α} {Q R : α → G → Prop} {g : G} (h : Follows proto p Q g)
    (hQ : ∀ value g', Q value g' → R value g') : Follows proto p R g := by
  induction p generalizing g with
  | ret value => exact hQ value g h
  | call cmd next ih => exact ⟨h.1, fun reply => ih reply (h.2 reply)⟩

theorem follows_bind {p : Prog σ α} {f : α → Prog σ β} {Q : β → G → Prop} {g : G}
    (h : Follows proto p (fun value => Follows proto (f value) Q) g) :
    Follows proto (p >>= f) Q g := by
  induction p generalizing g with
  | ret value => exact h
  | call cmd next ih => exact ⟨h.1, fun reply => ih reply (h.2 reply)⟩

-- A call between two pieces of code, by what it is known to return.
theorem follows_seq {p : Prog σ α} {f : α → Prog σ β} {P : α → G → Prop} {Q : β → G → Prop} {g : G}
    (hp : Follows proto p P g) (hf : ∀ value g', P value g' → Follows proto (f value) Q g') :
    Follows proto (p >>= f) Q g :=
  follows_bind (follows_mono hp hf)

-- Code that keeps to the protocol and leads from `P` back to `P`, and code that leads back to
-- where it started.
def Maintains (proto : Protocol σ G) (P : G → Prop) (p : Prog σ α) : Prop :=
  ∀ g, P g → Follows proto p (fun _ g' => P g') g

def Leaves (proto : Protocol σ G) (P : G → Prop) (p : Prog σ α) : Prop :=
  ∀ g, P g → Follows proto p (fun _ g' => g' = g) g

variable {P : G → Prop}

theorem Leaves.maintains {p : Prog σ α} (h : Leaves proto P p) : Maintains proto P p := by
  intro g hg
  refine follows_mono (h g hg) ?_
  rintro _ _ rfl
  exact hg

theorem maintains_pure (value : α) : Maintains proto P (pure value) := fun _ hg => hg

theorem maintains_bind {p : Prog σ α} {f : α → Prog σ β} (hp : Maintains proto P p)
    (hf : ∀ value, Maintains proto P (f value)) : Maintains proto P (p >>= f) :=
  fun g hg => follows_seq (hp g hg) fun value g' hg' => hf value g' hg'

theorem maintains_ite {c : Prop} [Decidable c] {p q : Prog σ α} (hp : Maintains proto P p)
    (hq : Maintains proto P q) : Maintains proto P (if c then p else q) := by
  split
  · exact hp
  · exact hq

theorem leaves_pure (value : α) : Leaves proto P (pure value) := fun _ _ => rfl

theorem leaves_bind {p : Prog σ α} {f : α → Prog σ β} (hp : Leaves proto P p)
    (hf : ∀ value, Leaves proto P (f value)) : Leaves proto P (p >>= f) := by
  intro g hg
  refine follows_seq (hp g hg) ?_
  rintro value _ rfl
  exact hf value _ hg

theorem leaves_ite {c : Prop} [Decidable c] {p q : Prog σ α} (hp : Leaves proto P p)
    (hq : Leaves proto P q) : Leaves proto P (if c then p else q) := by
  split
  · exact hp
  · exact hq

end Follows

section Logged

-- The environment beside a log, to which every command and its reply are added.
def logged (log : G → (cmd : σ.Cmd) → σ.Reply cmd → G) (env : Env σ S) : Env σ (S × G) :=
  fun s cmd reply s' => env s.1 cmd reply s'.1 ∧ s'.2 = log s.2 cmd reply

variable {log : G → (cmd : σ.Cmd) → σ.Reply cmd → G} {env : Env σ S}

theorem exec_logged {p : Prog σ α} {s s' : S} {out : Option α} (he : Exec env s p out s') (g : G) :
    ∃ g', Exec (logged log env) (s, g) p out (s', g') := by
  induction he generalizing g with
  | cut s p => exact ⟨g, .cut _ p⟩
  | done s value => exact ⟨g, .done _ value⟩
  | @step s s' s'' cmd reply next out henv _ ih =>
      obtain ⟨g', hrest⟩ := ih (log g cmd reply)
      have hlogged : logged log env (s, g) cmd reply (s', log g cmd reply) := ⟨henv, rfl⟩
      exact ⟨g', .step hlogged hrest⟩

-- What holds of a program whatever the replies are holds of its log at the end of every run.
theorem follows_logged {p : Prog σ α} {Q : α → G → Prop} {x x' : S × G} {value : α}
    (h : Follows ⟨fun _ _ => True, log⟩ p Q x.2) (he : Exec (logged log env) x p (some value) x') :
    Q value x'.2 := by
  generalize hout : some value = out at he
  induction he with
  | cut x p => cases hout
  | done x value =>
      obtain rfl := Option.some.inj hout
      exact h
  | step henv _ ih =>
      refine ih ?_ hout
      rw [henv.2]
      exact h.2 _

end Logged

section Keeps

-- Every thread keeps to its protocol from here on, and is at rest in it where it returns.
structure Keeps (proto : Protocol σ G) (view : S → T → G) (Rest : G → Prop) (Inv : S → Prop)
    (w : Pool σ S T) : Prop where
  inv : Inv w.mem
  follows : ∀ t, Follows proto (w.thread t) (fun _ g => Rest g) (view w.mem t)

variable {proto : Protocol σ G} {view : S → T → G} {Rest : G → Prop} {Inv : S → Prop}
  {w : Pool σ S T}

theorem Keeps.allowed (h : Keeps proto view Rest Inv w) {t : T} {cmd : σ.Cmd}
    {next : σ.Reply cmd → Prog σ Unit} (hcmd : w.thread t = .call cmd next) :
    proto.allows (view w.mem t) cmd := by
  have hfollows := h.follows t
  rw [hcmd] at hfollows
  exact hfollows.1

theorem Keeps.rest (h : Keeps proto view Rest Inv w) {t : T} (hidle : w.thread t = .ret ()) :
    Rest (view w.mem t) := by
  have hfollows := h.follows t
  rw [hidle] at hfollows
  exact hfollows

end Keeps

section Flag

-- A flag that is taken by a compare-and-swap, and the threads that have taken it.
structure Guards (flag : Bool) (held : T → Bool) : Prop where
  holder : flag = true → ∃ t, held t = true
  raised : ∀ t, held t = true → flag = true
  unique : ∀ t u, held t = true → held u = true → t = u

variable {flag : Bool} {held held' : T → Bool} {t : T}

theorem Guards.iff_existsUnique (h : Guards flag held) : flag = true ↔ ∃! t, held t = true := by
  constructor
  · intro hflag
    obtain ⟨t, ht⟩ := h.holder hflag
    exact ⟨t, ht, fun u hu => h.unique u t hu ht⟩
  · rintro ⟨t, ht, -⟩
    exact h.raised t ht

theorem Guards.same (h : Guards flag held) (hheld : ∀ u, held' u = held u) : Guards flag held' := by
  obtain rfl : held' = held := funext hheld
  exact h

theorem Guards.claim {won : Bool} (h : Guards flag held) (hwon : won = !flag)
    (hown : held' t = (held t || won)) (hother : ∀ u, u ≠ t → held' u = held u) :
    Guards (flag || won) held' := by
  cases hflag : flag with
  | true =>
      have hsame : ∀ u, held' u = held u := by
        intro u
        by_cases hu : u = t
        · subst hu
          simp [hown, hwon, hflag]
        · exact hother u hu
      simpa [hflag] using h.same hsame
  | false =>
      have hnone : ∀ u, held u = false := by
        intro u
        cases hu : held u with
        | false => rfl
        | true => simpa [hflag] using h.raised u hu
      have hheld : ∀ u, held' u = true → u = t := by
        intro u hu
        by_contra hne
        simp [hother u hne, hnone u] at hu
      refine ⟨fun _ => ⟨t, by simp [hown, hwon, hflag]⟩, fun u _ => by simp [hwon, hflag], ?_⟩
      intro u u' hu hu'
      rw [hheld u hu, hheld u' hu']

theorem Guards.release (h : Guards flag held) (ht : held t = true) (hown : held' t = false)
    (hother : ∀ u, u ≠ t → held' u = held u) : Guards false held' := by
  have hnone : ∀ u, held' u = false := by
    intro u
    by_cases hu : u = t
    · exact hu ▸ hown
    · cases hheld : held u with
      | false => rw [hother u hu, hheld]
      | true => exact absurd (h.unique u t hheld ht) hu
  exact ⟨nofun, fun u hu => by simp [hnone u] at hu, fun u _ hu => by simp [hnone u] at hu⟩

end Flag

-- The memory shows where each thread stands in its protocol, and only the thread itself
-- moves there.
structure Tracks (env : T → Env σ S) (proto : Protocol σ G) (view : S → T → G) : Prop where
  own : ∀ {t s cmd reply s'}, env t s cmd reply s' → view s' t = proto.next (view s t) cmd reply
  other : ∀ {t u s cmd reply s'}, env t s cmd reply s' → u ≠ t → view s' u = view s u

theorem Tracks.mono {env env' : T → Env σ S} {proto : Protocol σ G}
    {view : S → T → G} (h : Tracks env proto view)
    (hsub : ∀ t s cmd reply s', env' t s cmd reply s' → env t s cmd reply s') :
    Tracks env' proto view :=
  ⟨fun henv => h.own (hsub _ _ _ _ _ henv), fun henv hne => h.other (hsub _ _ _ _ _ henv) hne⟩

section Run

variable [DecidableEq T]

inductive Step (env : T → Env σ S) (calls : T → S → Prog σ Unit → Prop) :
    Pool σ S T → Pool σ S T → Prop where
  | start {w : Pool σ S T} {t : T} {p : Prog σ Unit} (hidle : w.thread t = .ret ())
      (hcall : calls t w.mem p) : Step env calls w ⟨w.mem, Function.update w.thread t p⟩
  | act {w : Pool σ S T} {t : T} {cmd : σ.Cmd} {next : σ.Reply cmd → Prog σ Unit}
      {reply : σ.Reply cmd} {mem : S} (hcmd : w.thread t = .call cmd next)
      (henv : env t w.mem cmd reply mem) :
      Step env calls w ⟨mem, Function.update w.thread t (next reply)⟩

def Run (env : T → Env σ S) (calls : T → S → Prog σ Unit → Prop) :
    Pool σ S T → Pool σ S T → Prop :=
  Relation.ReflTransGen (Step env calls)

variable {env : T → Env σ S} {calls : T → S → Prog σ Unit → Prop} {proto : Protocol σ G}
  {view : S → T → G} {Rest : G → Prop} {Inv : S → Prop} {w w' : Pool σ S T}

theorem step_keeps (htracks : Tracks env proto view)
    (hcalls : ∀ t s p, calls t s p → Inv s → Rest (view s t) →
      Follows proto p (fun _ g => Rest g) (view s t))
    (hinv : ∀ t s cmd reply s', Inv s → proto.allows (view s t) cmd → env t s cmd reply s' → Inv s')
    (hstep : Step env calls w w') (h : Keeps proto view Rest Inv w) :
    Keeps proto view Rest Inv w' := by
  cases hstep with
  | @start t p hidle hcall =>
      have hrest : Rest (view w.mem t) := by
        have hfollows := h.follows t
        rw [hidle] at hfollows
        exact hfollows
      refine ⟨h.inv, fun u => ?_⟩
      by_cases hu : u = t
      · subst hu
        simpa using hcalls u w.mem p hcall h.inv hrest
      · simpa [Function.update_of_ne hu] using h.follows u
  | @act t cmd next reply mem hcmd henv =>
      have hfollows := h.follows t
      rw [hcmd] at hfollows
      refine ⟨hinv t _ cmd reply mem h.inv hfollows.1 henv, fun u => ?_⟩
      by_cases hu : u = t
      · subst hu
        simpa [htracks.own henv] using hfollows.2 reply
      · simpa [Function.update_of_ne hu, htracks.other henv hu] using h.follows u

-- What every command of the protocol preserves holds in every interleaving of programs that
-- keep to it.
theorem run_keeps (htracks : Tracks env proto view)
    (hcalls : ∀ t s p, calls t s p → Inv s → Rest (view s t) →
      Follows proto p (fun _ g => Rest g) (view s t))
    (hinv : ∀ t s cmd reply s', Inv s → proto.allows (view s t) cmd → env t s cmd reply s' → Inv s')
    (hrun : Run env calls w w') (h : Keeps proto view Rest Inv w) :
    Keeps proto view Rest Inv w' := by
  induction hrun with
  | refl => exact h
  | tail _ hlast ih => exact step_keeps htracks hcalls hinv hlast ih

theorem run_start {t : T} {p : Prog σ Unit} (hidle : w.thread t = .ret ()) (hcall : calls t w.mem p)
    (h : Run env calls ⟨w.mem, Function.update w.thread t p⟩ w') : Run env calls w w' :=
  h.head (.start hidle hcall)

end Run

section Schedule

-- A memory that answers a command in one way, or not at all.
abbrev Memory (σ : Signature) (S : Type) : Type := (cmd : σ.Cmd) → S → Option (σ.Reply cmd × S)

def Answering (env : T → Env σ S) (h : T → Memory σ S) : Prop :=
  ∀ t cmd s out, h t cmd s = some out → env t s cmd out.1 out.2

variable [DecidableEq T] {env : T → Env σ S} {calls : T → S → Prog σ Unit → Prop} {h : T → Memory σ S}

-- A memory that does not answer a command where a condition fails.
def restricted (guard : T → S → (cmd : σ.Cmd) → σ.Reply cmd → Prop)
    [∀ t s cmd reply, Decidable (guard t s cmd reply)] (h : T → Memory σ S) (t : T) : Memory σ S :=
  fun cmd s =>
    match h t cmd s with
    | none => none
    | some out => if guard t s cmd out.1 then some out else none

omit [DecidableEq T] in
theorem answering_restricted (guard : T → S → (cmd : σ.Cmd) → σ.Reply cmd → Prop)
    [∀ t s cmd reply, Decidable (guard t s cmd reply)] (hh : Answering env h) :
    Answering (fun t s cmd reply s' => env t s cmd reply s' ∧ guard t s cmd reply) (restricted guard h) := by
  intro t cmd s out hout
  unfold restricted at hout
  cases hanswer : h t cmd s with
  | none => simp [hanswer] at hout
  | some out' =>
      simp only [hanswer] at hout
      split at hout
      · rename_i hguard
        obtain rfl := Option.some.inj hout
        exact ⟨hh t cmd s _ hanswer, hguard⟩
      · cases hout

-- One turn of a thread.
def turn (h : T → Memory σ S) (w : Pool σ S T) (t : T) : Pool σ S T :=
  match w.thread t with
  | .ret _ => w
  | .call cmd next =>
      match h t cmd w.mem with
      | none => w
      | some out => ⟨out.2, Function.update w.thread t (next out.1)⟩

theorem run_turn (hh : Answering env h) (w : Pool σ S T) (t : T) : Run env calls w (turn h w t) := by
  unfold turn
  cases hp : w.thread t with
  | ret value => exact Relation.ReflTransGen.refl
  | call cmd next =>
      dsimp only
      cases hout : h t cmd w.mem with
      | none => exact Relation.ReflTransGen.refl
      | some out => exact Relation.ReflTransGen.single (.act hp (hh t cmd w.mem out hout))

-- The turns of a schedule, in order.
def schedule (h : T → Memory σ S) : List T → Pool σ S T → Pool σ S T
  | [], w => w
  | t :: rest, w => schedule h rest (turn h w t)

theorem run_schedule (hh : Answering env h) (turns : List T) (w : Pool σ S T) :
    Run env calls w (schedule h turns w) := by
  induction turns generalizing w with
  | nil => exact Relation.ReflTransGen.refl
  | cons t rest ih => exact (run_turn hh w t).trans (ih _)

-- A call that one thread makes from beginning to end while the others stand still.
def solo (h : Memory σ S) : Prog σ α → S → Option (α × S)
  | .ret value, s => some (value, s)
  | .call cmd next, s =>
      match h cmd s with
      | none => none
      | some out => solo h (next out.1) out.2

omit [DecidableEq T] in
theorem exec_of_solo {env : Env σ S} {h : Memory σ S}
    (hh : ∀ cmd s out, h cmd s = some out → env s cmd out.1 out.2) {p : Prog σ α} {s s' : S} {value : α}
    (hsolo : solo h p s = some (value, s')) : Exec env s p (some value) s' := by
  induction p generalizing s with
  | ret v =>
      obtain ⟨rfl, rfl⟩ : v = value ∧ s = s' := by simpa [solo] using hsolo
      exact .done s v
  | call cmd next ih =>
      cases hout : h cmd s with
      | none => simp [solo, hout] at hsolo
      | some out =>
          simp only [solo, hout] at hsolo
          exact .step (hh cmd s out hout) (ih out.1 hsolo)

theorem run_solo (hh : Answering env h) {t : T} {p : Prog σ Unit} {s s' : S} {thread : T → Prog σ Unit}
    (hsolo : solo (h t) p s = some ((), s')) :
    Run env calls ⟨s, Function.update thread t p⟩ ⟨s', Function.update thread t (.ret ())⟩ := by
  induction p generalizing s thread with
  | ret value =>
      obtain rfl : s = s' := by simpa [solo] using hsolo
      exact Relation.ReflTransGen.refl
  | call cmd next ih =>
      cases hout : h t cmd s with
      | none => simp [solo, hout] at hsolo
      | some out =>
          simp only [solo, hout] at hsolo
          have hrest : Run env calls
              ⟨out.2, Function.update (Function.update thread t (.call cmd next)) t (next out.1)⟩
              ⟨s', Function.update (Function.update thread t (.call cmd next)) t (.ret ())⟩ :=
            ih out.1 hsolo
          simp only [Function.update_idem] at hrest
          refine hrest.head ?_
          have hact : Step env calls ⟨s, Function.update thread t (.call cmd next)⟩
              ⟨out.2, Function.update (Function.update thread t (.call cmd next)) t (next out.1)⟩ :=
            .act (Function.update_self t _ thread) (hh t cmd s out hout)
          simpa only [Function.update_idem] using hact

end Schedule

end Library.Interleave
