import AlpSdk.Uart

namespace AlpSdk.Uart

open Library.Transition Library.Threads
open AlpSdk.SlotClaim

-- The lifecycle byte while the thread owns the slot, as its opener, its closer or the one
-- that gives it back.
def Phase.stage : Phase → Option Lifecycle
  | .claimed => some .unopened
  | .cleared => some .unopened
  | .opening => some .unopened
  | .publishing => some .unopened
  | .draining => some .closing
  | .tearingDown => some .closing
  | .unopening => some .closing
  | .releasing _ => some .unopened
  | _ => none

def Phase.owns (p : Phase) : Nat := if p.stage = none then 0 else 1

-- The threads that own a slot in this state.
def Slot.owners (h : Slot) : Nat := if h.inUse ∧ h.lifecycle ≠ .opened then 1 else 0

section Program

variable {vtable : UartOps} {a : Action} {h h' : Slot} {p p' : Phase}

-- What one access does to the counter and to the thread's share of it.
theorem prog_counts (hp : prog vtable a h p = some (h', p')) :
    (a = .clear ∧ h'.activeOps = 0 ∧ p.holds = 0 ∧ p'.holds = 0) ∨
      (a = .fetchAdd ∧ h'.activeOps = fetchAdd h.activeOps ∧ p.holds = 0 ∧ p'.holds = 1) ∨
      (a ≠ .clear ∧ a ≠ .fetchAdd ∧
        (h'.activeOps = fetchSub h.activeOps ∧ p.holds = 1 ∧ p'.holds = 0 ∨
          h'.activeOps = h.activeOps ∧ p'.holds = p.holds)) := by
  revert hp
  fun_cases prog vtable a h p
  case case10 op =>
      intro hp
      cases hp
      split <;> simp [Phase.holds]
  case case12 rc op =>
      intro hp
      obtain ⟨rc', -, heq⟩ := Option.map_eq_some_iff.mp hp
      cases heq
      simp [Phase.holds]
  case case16 =>
      intro hp
      cases hp
      split <;> simp [Phase.holds]
  case case20 =>
      intro hp
      cases hp
  all_goals
    intro hp
    cases hp
    simp [Phase.holds]

-- The slot as one access leaves it, if its thread is where the lifecycle byte says.
structure Owned (h : Slot) (p : Phase) : Prop where
  free : h.inUse = false → h.lifecycle = .unopened
  stage : ∀ l, p.stage = some l → h.lifecycle = l ∧ h.inUse = true

theorem prog_owned (hp : prog vtable a h p = some (h', p')) (ho : Owned h p) :
    Owned h' p' ∧ h'.owners + p.owns = h.owners + p'.owns ∧
      (h'.lifecycle = h.lifecycle ∧ h'.inUse = h.inUse ∨ h.owners = p.owns) := by
  obtain ⟨hfree, hstage⟩ := ho
  revert hp hfree hstage
  fun_cases prog vtable a h p
  case case10 op =>
      intro hp hfree _
      cases hp
      split <;> exact ⟨⟨hfree, by simp [Phase.stage]⟩, by simp [Phase.owns, Phase.stage]⟩
  case case12 rc op =>
      intro hp hfree _
      obtain ⟨rc', -, heq⟩ := Option.map_eq_some_iff.mp hp
      cases heq
      exact ⟨⟨hfree, by simp [Phase.stage]⟩, by simp [Phase.owns, Phase.stage]⟩
  case case16 =>
      intro hp hfree hstage
      cases hp
      split <;> exact ⟨⟨hfree, hstage⟩, by simp [Phase.owns, Phase.stage]⟩
  case case20 =>
      intro hp
      cases hp
  all_goals
    intro hp hfree hstage
    cases hp
    refine ⟨⟨?_, ?_⟩, ?_, ?_⟩ <;> simp_all [Phase.owns, Phase.stage, Slot.owners]

end Program

variable {T : Type} [Fintype T] {vtable : UartOps} {w w' : State T}

structure Inv (w : State T) : Prop where
  exact : w.mem.activeOps = holders w
  bound : holders w < 2 ^ 32
  owned : ∀ t, Owned w.mem (w.phase t)
  owners : total Phase.owns w.phase = w.mem.owners

theorem inv_of_initial (hinit : Initial w) : Inv w := by
  have hholders : holders w = 0 := (total_eq_zero _ _).mpr fun t => by rw [hinit.idle t]; rfl
  have howners : total Phase.owns w.phase = 0 :=
    (total_eq_zero _ _).mpr fun t => by rw [hinit.idle t]; rfl
  refine ⟨?_, ?_, fun t => ⟨?_, ?_⟩, ?_⟩
  · rw [hinit.slot, hholders]
  · omega
  · rw [hinit.slot]
    exact fun _ => rfl
  · rw [hinit.idle t]
    exact nofun
  · rw [howners, hinit.slot]
    rfl

theorem Inv.closing_of_draining (hinv : Inv w) {t : T} (h : w.phase t = .draining) :
    w.mem.lifecycle = .closing :=
  ((hinv.owned t).stage .closing (by rw [h]; rfl)).1

variable [DecidableEq T]

-- Only the owner of the slot moves its lifecycle byte or its flag.
theorem Inv.owned_step (hinv : Inv w) {t : T} {a : Action} {h' : Slot} {p' : Phase}
    (hp : prog vtable a w.mem (w.phase t) = some (h', p')) :
    ∀ u, Owned h' (Function.update w.phase t p' u) := by
  obtain ⟨hown, hsum, hsame⟩ := prog_owned hp (hinv.owned t)
  refine (Function.forall_update_iff w.phase fun _ p => Owned h' p).mpr ⟨hown, ?_⟩
  intro u hu
  refine ⟨hown.free, ?_⟩
  intro l hl
  obtain ⟨hlc, huse⟩ := (hinv.owned u).stage l hl
  rcases hsame with ⟨hlc', huse'⟩ | hall
  · rw [hlc', huse']
    exact ⟨hlc, huse⟩
  · -- two owners at once
    have htwo := total_of_two Phase.owns w.phase (Ne.symm hu)
    have hone : (w.phase u).owns = 1 := by simp [Phase.owns, hl]
    have howners := hinv.owners
    omega

theorem inv_step (a : T × Action) (horderly : Orderly a w) (h : uartStep vtable a w = some w')
    (hinv : Inv w) : Inv w' := by
  obtain ⟨t, a⟩ := a
  obtain ⟨h', p', hp, rfl⟩ := step_eq_some.mp h
  have hcount := total_update Phase.holds w.phase t p'
  have hown := total_update Phase.owns w.phase t p'
  have hle := le_total Phase.holds w.phase t
  obtain ⟨-, hsum, -⟩ := prog_owned hp (hinv.owned t)
  have howners := hinv.owners
  have hexact := hinv.exact
  have hbound := hinv.bound
  unfold holders at hexact hbound
  have hnew : h'.activeOps = total Phase.holds (Function.update w.phase t p') ∧
      total Phase.holds (Function.update w.phase t p') < 2 ^ 32 := by
    rcases prog_counts hp with ⟨rfl, hops, hp0, hp1⟩ | ⟨rfl, hops, hp0, hp1⟩ |
      ⟨-, -, ⟨hops, hp0, hp1⟩ | ⟨hops, hp1⟩⟩
    · have hzero : total Phase.holds w.phase = 0 := horderly
      omega
    · exact exact_enter hexact hops (by omega) horderly
    · exact exact_leave hexact hops (by omega) hbound
    · omega
  refine ⟨hnew.1, hnew.2, hinv.owned_step hp, ?_⟩
  change total Phase.owns (Function.update w.phase t p') = h'.owners
  omega

-- A step that leads to an exact count is orderly.
theorem orderly_of_exact (a : T × Action) (h : uartStep vtable a w = some w')
    (hexact : w'.mem.activeOps = holders w') : Orderly a w := by
  obtain ⟨t, a⟩ := a
  obtain ⟨h', p', hp, rfl⟩ := step_eq_some.mp h
  have hcount := total_update Phase.holds w.phase t p'
  change h'.activeOps = total Phase.holds (Function.update w.phase t p') at hexact
  rcases prog_counts hp with ⟨rfl, hops, hp0, hp1⟩ | ⟨rfl, hops, hp0, hp1⟩ | ⟨hne, hne', -⟩
  · change total Phase.holds w.phase = 0
    omega
  · change total Phase.holds w.phase + 1 < 2 ^ 32
    have hlt := fetchAdd_lt w.mem.activeOps
    omega
  · cases a <;> first | exact absurd rfl hne | exact absurd rfl hne' | trivial

-- How far the calls that lost to the close are from having backed out.
def Phase.pending : Phase → Nat
  | .counted _ => 2
  | .refused => 1
  | _ => 0

-- What stays true of a drain without admitted operations while the calls back out.
structure Backing (t : T) (w : State T) : Prop where
  inv : Inv w
  draining : w.phase t = .draining
  none : ∀ u, (w.phase u).admitted = false

theorem Backing.step {t u : T} (hb : Backing t w) {a : Action} {h' : Slot} {p' : Phase}
    (hu : u ≠ t) (hp : prog vtable a w.mem (w.phase u) = some (h', p'))
    (hrefuse : Refusing (u, a)) (hadm : p'.admitted = false)
    (hlt : p'.pending < (w.phase u).pending) :
    ∃ b w', Refusing b ∧ uartStep vtable b w = some w' ∧ Backing t w' ∧
      total Phase.pending w'.phase < total Phase.pending w.phase := by
  have hstep : uartStep vtable (u, a) w = some ⟨h', Function.update w.phase u p'⟩ :=
    step_eq_some.mpr ⟨h', p', hp, rfl⟩
  have horderly : Orderly (u, a) w := by
    rcases hrefuse with rfl | rfl <;> trivial
  refine ⟨(u, a), _, hrefuse, hstep, ⟨inv_step _ horderly hstep hb.inv, ?_, ?_⟩, ?_⟩
  · change Function.update w.phase u p' t = .draining
    rw [Function.update_of_ne hu.symm]
    exact hb.draining
  · exact (Function.forall_update_iff w.phase fun _ p => p.admitted = false).mpr
      ⟨hadm, fun v _ => hb.none v⟩
  · have hsum := total_update Phase.pending w.phase u p'
    change total Phase.pending (Function.update w.phase u p') < _
    omega

theorem Backing.progress {t : T} (hb : Backing t w) (hne : holders w ≠ 0) :
    ∃ b w', Refusing b ∧ uartStep vtable b w = some w' ∧ Backing t w' ∧
      total Phase.pending w'.phase < total Phase.pending w.phase := by
  obtain ⟨u, hu⟩ := exists_of_total_ne_zero _ _ hne
  have hut : u ≠ t := by
    rintro rfl
    rw [hb.draining] at hu
    exact hu rfl
  have hadm := hb.none u
  cases hphase : w.phase u with
  | counted op =>
      have hp : prog vtable .loadLifecycle w.mem (w.phase u) = some (w.mem, .refused) := by
        rw [hphase]
        simp [prog, hb.inv.closing_of_draining hb.draining]
      refine hb.step hut hp (.inl rfl) rfl ?_
      rw [hphase]
      exact Nat.one_lt_two
  | refused =>
      refine hb.step hut (a := .backOut) (by rw [hphase]; rfl) (.inr rfl) rfl ?_
      rw [hphase]
      exact Nat.one_pos
  | _ =>
      rw [hphase] at hu hadm
      first | exact absurd rfl hu | exact absurd hadm (by simp [Phase.admitted])

theorem settled_of_inv (hinv : Inv w) : Settled vtable w := by
  refine ⟨hinv.exact, ?_⟩
  intro t hdrain hnone
  have hback : ∃ w', Run (uartStep vtable) (fun a _ => Refusing a) w w' ∧ Backing t w' ∧
      holders w' = 0 :=
    run_to_goal (Backing t) (fun w => holders w = 0) (fun w => total Phase.pending w.phase)
      (fun _ hb hne => hb.progress hne) ⟨hinv, hdrain, hnone⟩
  obtain ⟨w', hrun, hb, hzero⟩ := hback
  have hops : w'.mem.activeOps = 0 := hb.inv.exact.trans hzero
  refine ⟨w', _, hrun, step_eq_some.mpr ⟨w'.mem, .tearingDown, ?_, rfl⟩, Function.update_self ..⟩
  rw [hb.draining]
  simp [prog, hops]

-- The count is exact and every drain ends in all states of a run exactly when every step of
-- the run is orderly.
theorem active_ops_settled_iff {actions : List (T × Action)} (hinit : Initial w)
    (hexec : exec (uartStep vtable) actions w = some w') :
    Always (uartStep vtable) (Settled vtable) actions w ↔
      Along (uartStep vtable) Orderly actions w :=
  always_iff_along (fun _ => settled_of_inv) (fun a _ _ horderly h hinv => inv_step a horderly h hinv)
    (fun a _ _ h _ hgood => orderly_of_exact a h hgood.exact) hexec (inv_of_initial hinit)

-- The pool at boot.
def boot : State T :=
  { mem := { ops := none, lifecycle := .unopened, activeOps := 0, inUse := false }
    phase := fun _ => .idle none }

omit [Fintype T] [DecidableEq T] in
theorem boot_initial : Initial (boot (T := T)) := ⟨rfl, fun _ => rfl⟩

def fullOps : UartOps := { write := true, read := true }

-- Thread 1 writes while thread 0 closes; the drain waits for it.
def closeDuringWrite : List (Fin 2 × Action) :=
  [(0, .claim), (0, .clear), (0, .setOps), (0, .openDone (.ok ())), (0, .publish),
    (1, .call (.write false 4)), (1, .fetchAdd), (1, .loadLifecycle), (0, .close), (0, .drain),
    (1, .finish (.ok ())), (1, .leave), (0, .drain), (0, .teardown), (0, .unopen), (0, .release)]

theorem active_ops_settled_closeDuringWrite :
    Always (uartStep fullOps) (Settled fullOps) closeDuringWrite boot := by
  have hexec : ∃ w, exec (uartStep fullOps) closeDuringWrite boot = some w := ⟨_, rfl⟩
  obtain ⟨w, hexec⟩ := hexec
  exact (active_ops_settled_iff boot_initial hexec).mpr (by decide)

instance threeThreads : NeZero 3 := ⟨Nat.succ_ne_zero 2⟩

-- Thread 1 calls write on the open handle and is held up. Thread 0 closes it, thread 2 claims
-- the slot, and its memset falls between the increment and the decrement of thread 1.
def staleEnter : List (Fin 3 × Action) :=
  [(0, .claim), (0, .clear), (0, .setOps), (0, .openDone (.ok ())), (0, .publish),
    (1, .call (.write false 4)), (0, .close), (0, .drain), (0, .teardown), (0, .unopen), (0, .release),
    (2, .claim), (1, .fetchAdd), (2, .clear), (1, .loadLifecycle), (1, .backOut),
    (2, .setOps), (2, .openDone (.ok ())), (2, .publish), (2, .close)]

-- The counter has wrapped: no thread is inside, and the close of thread 2 never ends.
theorem active_ops_wraps :
    ∃ w, Run (uartStep fullOps) (fun _ _ => True) (boot (T := Fin 3)) w ∧
      w.mem.activeOps = 2 ^ 32 - 1 ∧ holders w = 0 ∧ w.phase 2 = .draining ∧ ¬Settled fullOps w := by
  refine ⟨_, run_of_exec staleEnter rfl (along_true _ _), rfl, rfl, rfl, ?_⟩
  intro hsettled
  exact absurd hsettled.exact (by decide)

end AlpSdk.Uart
