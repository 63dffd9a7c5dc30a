import AlpSdk.Mqtt

namespace AlpSdk.Mqtt

open Library.Transition Library.Threads
open AlpSdk.SlotClaim

-- One for a handle that is no longer open.
def Handle.closed {T : Type} (h : Handle T) : Nat := if h.lifecycle = .opened then 0 else 1

-- The thread is the one that will run `ops->close`.
def Teardown.duty : Teardown → Nat
  | .draining => 1
  | .closing => 1
  | _ => 0

def Call.duty : Call → Nat
  | .won => 1
  | .sawActive => 1
  | .deferring => 1
  | .teardown d => d.duty
  | _ => 0

def Phase.duty : Phase → Nat
  | .out c => c.duty
  | .callback _ c => c.duty
  | .loopLeaving selfClosed _ => selfClosed.toNat
  | .finishing d _ => d.duty
  | _ => 0

-- Its drain has seen `active_ops` at 0.
def Teardown.drained : Teardown → Bool
  | .draining => false
  | _ => true

def Call.drained : Call → Bool
  | .teardown d => d.drained
  | _ => false

def Phase.drained : Phase → Bool
  | .out c => c.drained
  | .callback _ c => c.drained
  | .finishing d _ => d.drained
  | _ => false

theorem drained_of_closing {p : Phase} (h : p.closing = true) : p.drained = true := by
  revert h
  fun_cases Phase.closing p
  all_goals simp [Phase.drained, Call.drained, Teardown.drained]

-- A thread as the handle's words see it.
structure View where
  holds : Nat
  duty : Nat
  admitted : Bool
  drained : Bool

def Teardown.view (d : Teardown) : View := ⟨0, d.duty, false, d.drained⟩
def Call.view (c : Call) : View := ⟨c.holds, c.duty, c.admitted, c.drained⟩
def Phase.view (p : Phase) : View := ⟨p.holds, p.duty, p.admitted, p.drained⟩

-- A thread in no call.
def View.rest : View := ⟨0, 0, false, false⟩

theorem Call.admitted_of_holds {c : Call} (h : c.holds = 0) : c.admitted = false := by
  cases c <;> first | rfl | cases h

-- Whoever is admitted is counted.
theorem admitted_of_holds {p : Phase} (h : p.holds = 0) : p.admitted = false := by
  cases p with
  | out c => exact Call.admitted_of_holds h
  | callback owner c =>
      simp only [Phase.holds] at h
      omega
  | _ => first | rfl | cases h

section Program

variable {T : Type} {vtable : MqttOps} {self : T} {a : Action} {h h' : Handle T}

-- What one access does to the words and to the thread's share of them. The duty to run
-- `ops->close` arises when the handle stops being open, moves between the threads and
-- `close_pending`, and ends in a run.
structure Effect (a : Action) (h : Handle T) (v : View) (h' : Handle T) (v' : View) : Prop where
  counter : h'.activeOps = h.activeOps ∧ v'.holds = v.holds ∨
    h'.activeOps = fetchAdd h.activeOps ∧ v'.holds = v.holds + 1 ∧ (a = .loop ∨ ∃ op, a = .call op) ∨
    h'.activeOps = fetchSub h.activeOps ∧ v.holds = v'.holds + 1
  duty : v'.duty + h'.closePending.toNat + h'.closeRuns + h.closed =
    v.duty + h.closePending.toNat + h.closeRuns + h'.closed
  closed : h.closed ≤ h'.closed
  admitted : v'.admitted = true → v.admitted = true ∨ h.lifecycle = .opened
  drained : v'.drained = true → v.drained = true ∨ h.activeOps = 0 ∧ v.duty = 1

-- Where the thread's place and the words agree.
structure Fits (h : Handle T) (v : View) : Prop where
  pending : 0 < v.duty → h.closePending = false
  closed : v.drained = true → h.lifecycle ≠ .opened

theorem teardownProg_effect {d : Teardown} {d' : Option Teardown}
    (hp : teardownProg a h d = some (h', d')) (hfits : Fits h d.view) :
    Effect a h d.view h' (d'.elim .rest Teardown.view) := by
  obtain ⟨-, hclosed⟩ := hfits
  revert hp hclosed
  fun_cases teardownProg a h d
  all_goals
    intro hp hclosed
    cases hp
  case case1 => split <;> constructor <;> simp_all [Teardown.view, Teardown.duty, Teardown.drained]
  all_goals
    constructor <;>
      simp_all [Teardown.view, View.rest, Teardown.duty, Teardown.drained, Handle.closed] <;> omega

theorem Call.afterTeardown_view (d : Option Teardown) :
    (Call.afterTeardown d).view = d.elim .rest Teardown.view := by
  cases d <;> rfl

theorem Phase.afterTeardown_view (rc : Status) (d : Option Teardown) :
    (Phase.afterTeardown rc d).view = d.elim .rest Teardown.view := by
  cases d <;> rfl

variable [DecidableEq T]

theorem callProg_effect {c c' : Call} (hp : callProg vtable self a h c = some (h', c'))
    (hfits : Fits h c.view) : Effect a h c.view h' c'.view := by
  revert hp hfits
  fun_cases callProg vtable self a h c
  case case11 d =>
      intro hp hfits
      obtain ⟨⟨h₁, d'⟩, htear, heq⟩ := Option.map_eq_some_iff.mp hp
      cases heq
      rw [Call.afterTeardown_view]
      exact teardownProg_effect htear hfits
  case case12 =>
      intro hp
      cases hp
  case case6 hopen =>
      -- the handle stops being open, and this call has the duty
      intro hp _
      cases hp
      constructor <;>
        simp [Call.view, Call.holds, Call.duty, Call.admitted, Call.drained, Handle.closed, hopen]
      omega
  case case2 | case8 | case9 =>
      intro hp hfits
      cases hp
      split <;> constructor <;>
        simp_all [Call.view, Call.holds, Call.duty, Call.admitted, Call.drained, Teardown.duty,
          Teardown.drained]
  all_goals
    intro hp hfits
    obtain ⟨hpending, -⟩ := hfits
    cases hp
    constructor <;>
      simp_all [Call.view, Call.holds, Call.duty, Call.admitted, Call.drained, Handle.closed]

theorem prog_effect {p p' : Phase} (hp : prog vtable self a h p = some (h', p'))
    (hfits : Fits h p.view) : Effect a h p.view h' p'.view := by
  revert hp hfits
  fun_cases prog vtable self a h p
  case case15 d rc =>
      intro hp hfits
      obtain ⟨⟨h₁, d'⟩, htear, heq⟩ := Option.map_eq_some_iff.mp hp
      cases heq
      rw [Phase.afterTeardown_view]
      exact teardownProg_effect htear hfits
  case case16 c _ =>
      intro hp hfits
      obtain ⟨⟨h₁, c'⟩, hcall, heq⟩ := Option.map_eq_some_iff.mp hp
      cases heq
      exact callProg_effect hcall hfits
  case case17 owner c _ =>
      intro hp hfits
      obtain ⟨⟨h₁, c'⟩, hcall, heq⟩ := Option.map_eq_some_iff.mp hp
      cases heq
      obtain ⟨hcounter, hduty, hclosed, -, hdrained⟩ :=
        callProg_effect hcall ⟨hfits.pending, hfits.closed⟩
      refine ⟨?_, hduty, hclosed, fun _ => .inl rfl, hdrained⟩
      rcases hcounter with ⟨hops, hholds⟩ | ⟨hops, hholds, hstart⟩ | ⟨hops, hholds⟩
      · exact .inl ⟨hops, congrArg (1 + ·) hholds⟩
      · exact .inr (.inl ⟨hops, congrArg (1 + ·) hholds, hstart⟩)
      · exact .inr (.inr ⟨hops, congrArg (1 + ·) hholds⟩)
  case case18 =>
      intro hp
      cases hp
  case case8 =>
      intro hp
      cases hp
  case case2 | case10 | case14 =>
      intro hp hfits
      cases hp
      split <;> constructor <;>
        simp_all [Phase.view, Phase.holds, Phase.duty, Phase.admitted, Phase.drained, Call.holds,
          Call.duty, Call.admitted, Call.drained, Teardown.duty, Teardown.drained, Handle.closed]
  all_goals
    intro hp hfits
    cases hp
    constructor <;>
      simp_all [Phase.view, Phase.holds, Phase.duty, Phase.admitted, Phase.drained, Call.holds,
        Call.duty, Call.admitted, Call.drained, Handle.closed]

end Program

variable {T : Type} [Fintype T] {vtable : MqttOps} {w w' : State T}

structure Inv (w : State T) : Prop where
  exact : w.mem.activeOps = held w
  bound : held w < 2 ^ 32
  duty : total Phase.duty w.phase + w.mem.closePending.toNat + w.mem.closeRuns = w.mem.closed
  closed : ∀ t, (w.phase t).drained = true → w.mem.closed = 1
  quiet : ∀ t u, (w.phase t).drained = true → (w.phase u).admitted = false

theorem closed_eq_one {T : Type} {h : Handle T} : h.closed = 1 ↔ h.lifecycle ≠ .opened := by
  simp [Handle.closed]

theorem closed_le_one {T : Type} (h : Handle T) : h.closed ≤ 1 := by
  unfold Handle.closed
  split <;> omega

theorem inv_of_initial (hinit : Initial w) : Inv w := by
  have hheld : held w = 0 := (total_eq_zero _ _).mpr fun t => by rw [hinit.out t]; rfl
  have hduty : total Phase.duty w.phase = 0 :=
    (total_eq_zero _ _).mpr fun t => by rw [hinit.out t]; rfl
  refine ⟨?_, ?_, ?_, ?_, ?_⟩
  · rw [hheld, hinit.handle]
  · omega
  · rw [hduty, hinit.handle]
    rfl
  · intro t ht
    rw [hinit.out t] at ht
    cases ht
  · intro t u ht
    rw [hinit.out t] at ht
    cases ht

theorem Inv.fits (hinv : Inv w) (t : T) : Fits w.mem (w.phase t).view := by
  refine ⟨?_, fun h => closed_eq_one.mp (hinv.closed t h)⟩
  intro hpos
  have hle := le_total Phase.duty w.phase t
  have hone := closed_le_one w.mem
  have hduty := hinv.duty
  have hpos : 0 < (w.phase t).duty := hpos
  cases hpend : w.mem.closePending with
  | false => rfl
  | true =>
      rw [hpend, Bool.toNat_true] at hduty
      omega

variable [DecidableEq T]

-- Past its drain the handle is closed, and closed for good; whoever is counted then is
-- refused.
theorem Inv.drained_step (hinv : Inv w) {t : T} {a : Action} {h' : Handle T} {p' : Phase}
    (heff : Effect a w.mem (w.phase t).view h' p'.view) (u : T)
    (hu : (Function.update w.phase t p' u).drained = true) :
    w.mem.closed = 1 ∧ ∀ v, (Function.update w.phase t p' v).admitted = false := by
  have hbefore : w.mem.closed = 1 ∧ ∀ v, (w.phase v).admitted = false := by
    by_cases hut : u = t
    · subst hut
      rw [Function.update_self] at hu
      rcases heff.drained hu with hold | ⟨hzero, hone⟩
      · exact ⟨hinv.closed u hold, fun v => hinv.quiet u v hold⟩
      · -- the drain read 0: nobody holds a count
        have hle := le_total Phase.duty w.phase u
        have hduty := hinv.duty
        have hle' := closed_le_one w.mem
        have hone : (w.phase u).duty = 1 := hone
        refine ⟨by omega, fun v => ?_⟩
        have hheld : total Phase.holds w.phase = 0 := hinv.exact.symm.trans hzero
        exact admitted_of_holds ((total_eq_zero _ _).mp hheld v)
    · rw [Function.update_of_ne hut] at hu
      exact ⟨hinv.closed u hu, fun v => hinv.quiet u v hu⟩
  refine ⟨hbefore.1, (Function.forall_update_iff w.phase fun _ p => p.admitted = false).mpr
    ⟨?_, fun v _ => hbefore.2 v⟩⟩
  cases hadm : p'.admitted with
  | false => rfl
  | true =>
      rcases heff.admitted hadm with hold | hopen
      · exact hold.symm.trans (hbefore.2 t)
      · exact absurd hopen (closed_eq_one.mp hbefore.1)

theorem inv_step (a : T × Action) (hbounded : Bounded a w) (h : mqttStep vtable a w = some w')
    (hinv : Inv w) : Inv w' := by
  obtain ⟨t, a⟩ := a
  obtain ⟨h', p', hp, rfl⟩ := step_eq_some.mp h
  have heff := prog_effect hp (hinv.fits t)
  have hholds := total_update Phase.holds w.phase t p'
  have hduties := total_update Phase.duty w.phase t p'
  have hle := le_total Phase.holds w.phase t
  have hexact : w.mem.activeOps = total Phase.holds w.phase := hinv.exact
  have hbound : total Phase.holds w.phase < 2 ^ 32 := hinv.bound
  have hnew : h'.activeOps = total Phase.holds (Function.update w.phase t p') ∧
      total Phase.holds (Function.update w.phase t p') < 2 ^ 32 := by
    rcases heff.counter with ⟨hops, hshare⟩ | ⟨hops, hshare, hstart⟩ | ⟨hops, hshare⟩
    · have hshare : p'.holds = (w.phase t).holds := hshare
      omega
    · have hshare : p'.holds = (w.phase t).holds + 1 := hshare
      have hlt : total Phase.holds w.phase + 1 < 2 ^ 32 := by
        rcases hstart with rfl | ⟨op, rfl⟩ <;> exact hbounded
      exact exact_enter hexact hops (by omega) hlt
    · have hshare : (w.phase t).holds = p'.holds + 1 := hshare
      exact exact_leave hexact hops (by omega) hbound
  refine ⟨hnew.1, hnew.2, ?_, ?_, ?_⟩
  · have hduty : p'.duty + h'.closePending.toNat + h'.closeRuns + w.mem.closed =
        (w.phase t).duty + w.mem.closePending.toNat + w.mem.closeRuns + h'.closed := heff.duty
    have hold := hinv.duty
    change total Phase.duty (Function.update w.phase t p') + h'.closePending.toNat + h'.closeRuns =
      h'.closed
    omega
  · intro u hu
    have hclosed := (hinv.drained_step heff u hu).1
    have hle := heff.closed
    have hone := closed_le_one h'
    change h'.closed = 1
    omega
  · intro u v hu
    exact (hinv.drained_step heff u hu).2 v

end AlpSdk.Mqtt
