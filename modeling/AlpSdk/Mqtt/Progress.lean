import AlpSdk.Mqtt.Marker

namespace AlpSdk.Mqtt

open Library.Transition Library.Threads
open AlpSdk.SlotClaim

-- How many steps the call under way may still take.
def Teardown.rank : Teardown → Nat
  | .draining => 4
  | .closing => 3
  | .unopening => 2
  | .releasing => 1

def Call.rank : Call → Nat
  | .done _ => 0
  | .counted _ => 3
  | .refused => 1
  | .running _ => 2
  | .leaving _ => 1
  | .won => 7
  | .sawActive => 6
  | .deferring => 5
  | .teardown d => d.rank

def Phase.rank : Phase → Nat
  | .out c => c.rank
  | .loopCounted => 13
  | .loopRefused => 1
  | .marking => 12
  | .storing => 11
  | .looping _ => 9
  | .callback _ c => 10 + c.rank
  | .zeroing _ => 8
  | .unmarking _ => 7
  | .taking _ => 6
  | .loopLeaving _ _ => 5
  | .finishing d _ => d.rank

-- The thread is in no call.
def Phase.idle : Phase → Bool
  | .out (.done _) => true
  | _ => false

-- The thread polls `active_ops`.
def Phase.draining : Phase → Bool
  | .out (.teardown .draining) => true
  | .callback _ (.teardown .draining) => true
  | .finishing .draining _ => true
  | _ => false

section Program

variable {T : Type} [DecidableEq T] {vtable : MqttOps} {self : T} {a : Action} {h h' : Handle T}

omit [DecidableEq T] in
theorem teardownProg_enabled (h : Handle T) {d : Teardown}
    (hdrain : d = .draining → h.activeOps = 0) :
    ∃ a h' d', Finishing a = true ∧ teardownProg a h d = some (h', d') ∧
      d'.elim 0 Teardown.rank < d.rank := by
  cases d with
  | draining =>
      refine ⟨.drain, h, some .closing, rfl, ?_, Nat.lt_succ_self 3⟩
      simp [teardownProg, hdrain rfl]
  | closing => exact ⟨.teardown, _, some .unopening, rfl, rfl, Nat.lt_succ_self 2⟩
  | unopening => exact ⟨.unopen, _, some .releasing, rfl, rfl, Nat.lt_succ_self 1⟩
  | releasing => exact ⟨.release, _, none, rfl, rfl, Nat.one_pos⟩

theorem callProg_teardown (a : Action) (h : Handle T) (d : Teardown) :
    callProg vtable self a h (.teardown d) =
      (teardownProg a h d).map fun out => (out.1, .afterTeardown out.2) := by
  cases a <;> rfl

theorem prog_finishing (a : Action) (h : Handle T) (d : Teardown) (rc : Status) :
    prog vtable self a h (.finishing d rc) =
      (teardownProg a h d).map fun out => (out.1, .afterTeardown rc out.2) := by
  cases a <;> rfl

-- A step of a call that is under way, wherever the call is made.
theorem prog_of_callProg {c c' : Call} (hfin : Finishing a = true) (hbusy : ∀ rc, c ≠ .done rc)
    (hp : callProg vtable self a h c = some (h', c')) :
    prog vtable self a h (.out c) = some (h', .out c') ∧
      ∀ owner, prog vtable self a h (.callback owner c) = some (h', .callback owner c') := by
  have hout : prog vtable self a h (.out c) =
      (callProg vtable self a h c).map fun out => (out.1, .out out.2) := by
    cases a <;> first | rfl | cases hfin
  have hcallback : ∀ owner, prog vtable self a h (.callback owner c) =
      (callProg vtable self a h c).map fun out => (out.1, .callback owner out.2) := by
    intro owner
    cases c with
    | done rc => exact absurd rfl (hbusy rc)
    | _ => cases a <;> rfl
  rw [hout, hp]
  refine ⟨rfl, fun owner => ?_⟩
  rw [hcallback owner, hp]
  rfl

theorem callProg_enabled (vtable : MqttOps) (self : T) (h : Handle T) {c : Call} (hbusy : ∀ rc, c ≠ .done rc)
    (hdrain : c = .teardown .draining → h.activeOps = 0) :
    ∃ a h' c', Finishing a = true ∧ callProg vtable self a h c = some (h', c') ∧ c'.rank < c.rank := by
  cases c with
  | done rc => exact absurd rfl (hbusy rc)
  | counted op =>
      refine ⟨.loadLifecycle, h, _, rfl, rfl, ?_⟩
      split <;> simp [Call.rank]
  | refused => exact ⟨.backOut, _, _, rfl, rfl, Nat.one_pos⟩
  | running op => exact ⟨.finish (.ok ()), _, _, rfl, rfl, Nat.one_lt_two⟩
  | leaving rc => exact ⟨.leave, _, _, rfl, rfl, Nat.one_pos⟩
  | won =>
      refine ⟨.loadActive, h, _, rfl, rfl, ?_⟩
      split <;> simp [Call.rank, Teardown.rank]
  | sawActive =>
      refine ⟨.loadThread, h, _, rfl, rfl, ?_⟩
      split <;> simp [Call.rank, Teardown.rank]
  | deferring => exact ⟨.storePending, _, _, rfl, rfl, Nat.succ_pos 4⟩
  | teardown d =>
      obtain ⟨a, h', d', hfin, htear, hlt⟩ :=
        teardownProg_enabled h (d := d) fun hd => hdrain (by rw [hd])
      refine ⟨a, h', .afterTeardown d', hfin, ?_, ?_⟩
      · rw [callProg_teardown, htear]
        rfl
      · cases d' <;> exact hlt

-- A thread in a call can take a step of it, unless it waits for `active_ops`.
theorem prog_enabled (vtable : MqttOps) (self : T) (h : Handle T) {p : Phase} (hbusy : p.idle = false)
    (hdrain : p.draining = true → h.activeOps = 0) :
    ∃ a h' p', Finishing a = true ∧ prog vtable self a h p = some (h', p') ∧ p'.rank < p.rank := by
  cases p with
  | out c =>
      have hc : ∀ rc, c ≠ .done rc := by
        rintro rc rfl
        cases hbusy
      obtain ⟨a, h', c', hfin, hcall, hlt⟩ :=
        callProg_enabled vtable self h hc fun hd => hdrain (by rw [hd]; rfl)
      exact ⟨a, h', .out c', hfin, (prog_of_callProg hfin hc hcall).1, hlt⟩
  | callback owner c =>
      by_cases hc : ∀ rc, c ≠ .done rc
      · obtain ⟨a, h', c', hfin, hcall, hlt⟩ :=
          callProg_enabled vtable self h hc fun hd => hdrain (by rw [hd]; rfl)
        exact ⟨a, h', .callback owner c', hfin, (prog_of_callProg hfin hc hcall).2 owner,
          Nat.add_lt_add_left hlt 10⟩
      · obtain ⟨rc, rfl⟩ : ∃ rc, c = .done rc := by simpa using hc
        exact ⟨.leaveCallback, h, .looping owner, rfl, rfl, Nat.lt_succ_self 9⟩
  | loopCounted =>
      refine ⟨.loadLifecycle, h, _, rfl, rfl, ?_⟩
      split <;> simp [Phase.rank]
  | loopRefused => exact ⟨.backOut, _, _, rfl, rfl, Nat.one_pos⟩
  | marking =>
      by_cases hactive : h.cbActive = true
      · exact ⟨.mark, h, .looping false, rfl, by simp [prog, hactive], by simp [Phase.rank]⟩
      · exact ⟨.mark, { h with cbActive := true }, .storing, rfl, by simp [prog, hactive],
          by simp [Phase.rank]⟩
  | storing => exact ⟨.storeThread, _, _, rfl, rfl, by simp [Phase.rank]⟩
  | looping owner =>
      refine ⟨.loopDone (.ok ()), h, _, rfl, rfl, ?_⟩
      split <;> simp [Phase.rank]
  | zeroing rc => exact ⟨.zeroThread, _, _, rfl, rfl, Nat.lt_succ_self 7⟩
  | unmarking rc => exact ⟨.unmark, _, _, rfl, rfl, Nat.lt_succ_self 6⟩
  | taking rc => exact ⟨.take, _, _, rfl, rfl, Nat.lt_succ_self 5⟩
  | loopLeaving selfClosed rc =>
      refine ⟨.leave, _, _, rfl, rfl, ?_⟩
      split <;> simp [Phase.rank, Call.rank, Teardown.rank]
  | finishing d rc =>
      obtain ⟨a, h', d', hfin, htear, hlt⟩ :=
        teardownProg_enabled h (d := d) fun hd => hdrain (by rw [hd]; rfl)
      refine ⟨a, h', .afterTeardown rc d', hfin, ?_, ?_⟩
      · rw [prog_finishing, htear]
        rfl
      · cases d' <;> exact hlt

end Program

-- A thread that waits for the count, in a state where every close in a callback is deferred,
-- has none of its own.
theorem holds_of_draining {p : Phase} (hplaced : p.placed = true) (h : p.draining = true) :
    p.holds = 0 := by
  cases p with
  | out c =>
      cases c with
      | teardown d => rfl
      | _ => cases h
  | callback owner c =>
      cases c with
      | teardown d => cases owner <;> cases hplaced
      | _ => cases h
  | finishing d rc => rfl
  | _ => cases h

theorem beforeTake_busy {p : Phase} (hplaced : p.placed = true) (h : p.beforeTake = true) :
    p.idle = false ∧ p.draining = false := by
  cases p with
  | callback owner c =>
      cases c with
      | teardown d => cases owner <;> cases hplaced
      | _ => exact ⟨rfl, rfl⟩
  | _ => first | exact ⟨rfl, rfl⟩ | cases h

theorem holds_of_idle {p : Phase} (h : p.idle = true) : p.holds = 0 ∧ p.duty = 0 := by
  cases p with
  | out c =>
      cases c with
      | done rc => exact ⟨rfl, rfl⟩
      | _ => cases h
  | _ => cases h

variable {T : Type} [Fintype T] [DecidableEq T] {vtable : MqttOps} {w w' : State T}

-- A close has won and every close in a callback is deferred.
structure Closing (w : State T) : Prop where
  inv : Inv w
  marker : MarkerInv w
  closed : w.mem.closed = 1

theorem Closing.step (hc : Closing w) {t : T} {a : Action} {h' : Handle T} {p' : Phase}
    (hfin : Finishing a = true) (hp : prog vtable t a w.mem (w.phase t) = some (h', p'))
    (hlt : p'.rank < (w.phase t).rank) :
    ∃ (b : T × Action) (w' : State T), Finishing b.2 = true ∧ mqttStep vtable b w = some w' ∧
      Closing w' ∧ total Phase.rank w'.phase < total Phase.rank w.phase := by
  have hstep : mqttStep vtable (t, a) w = some ⟨h', Function.update w.phase t p'⟩ :=
    step_eq_some.mpr ⟨h', p', hp, rfl⟩
  have hbounded : Bounded (t, a) w := by
    cases a <;> trivial
  have hguard : Recognised (t, a) w := by
    cases a <;> trivial
  have hclosed : h'.closed = 1 := by
    have hle := (prog_effect hp (hc.inv.fits t)).closed
    have hone := closed_le_one h'
    have hold := hc.closed
    omega
  refine ⟨(t, a), _, hfin, hstep, ⟨inv_step _ hbounded hstep hc.inv,
    markerInv_step _ hguard hstep hc.marker, hclosed⟩, ?_⟩
  have hsum := total_update Phase.rank w.phase t p'
  change total Phase.rank (Function.update w.phase t p') < _
  omega

omit [DecidableEq T] in
-- Where every thread is idle or waits, one of them waits and sees 0.
theorem Closing.drained (hc : Closing w) (hrun : w.mem.closeRuns ≠ 1)
    (hwait : ∀ t, (w.phase t).idle = false → (w.phase t).draining = true) :
    ∃ t, (w.phase t).idle = false ∧ w.mem.activeOps = 0 := by
  have hduty := hc.inv.duty
  have hclosed := hc.closed
  have hnone : w.mem.closePending = false := by
    cases hpend : w.mem.closePending with
    | false => rfl
    | true =>
        obtain ⟨t, ht⟩ := hc.marker.pending hpend
        obtain ⟨hbusy, hnot⟩ := beforeTake_busy (hc.marker.marker t).placed ht
        rw [hwait t hbusy] at hnot
        cases hnot
  rw [hnone, Bool.toNat_false] at hduty
  obtain ⟨t, ht⟩ := exists_of_total_ne_zero Phase.duty w.phase (by omega)
  have hbusy : (w.phase t).idle = false := by
    cases hidle : (w.phase t).idle with
    | false => rfl
    | true => exact absurd (holds_of_idle hidle).2 ht
  refine ⟨t, hbusy, hc.inv.exact.trans ((total_eq_zero _ _).mpr fun u => ?_)⟩
  cases hidle : (w.phase u).idle with
  | false => exact holds_of_draining (hc.marker.marker u).placed (hwait u hidle)
  | true => exact (holds_of_idle hidle).1

theorem Closing.progress (hc : Closing w) (hrun : w.mem.closeRuns ≠ 1) :
    ∃ (b : T × Action) (w' : State T), Finishing b.2 = true ∧ mqttStep vtable b w = some w' ∧
      Closing w' ∧ total Phase.rank w'.phase < total Phase.rank w.phase := by
  by_cases hwait : ∀ t, (w.phase t).idle = false → (w.phase t).draining = true
  · obtain ⟨t, hbusy, hzero⟩ := hc.drained hrun hwait
    obtain ⟨a, h', p', hfin, hp, hlt⟩ :=
      prog_enabled vtable t w.mem hbusy fun _ => hzero
    exact hc.step hfin hp hlt
  · -- some call is under way and does not wait
    obtain ⟨t, hbusy, hnot⟩ : ∃ t, (w.phase t).idle = false ∧ (w.phase t).draining = false := by
      simpa using hwait
    obtain ⟨a, h', p', hfin, hp, hlt⟩ :=
      prog_enabled vtable t w.mem hbusy fun hd => by
        rw [hnot] at hd
        cases hd
    exact hc.step hfin hp hlt

theorem inv_of_run (hinit : Initial w) (hrun : Run (mqttStep vtable) Bounded w w') : Inv w' :=
  run_invariant (fun a _ _ hbounded h hinv => inv_step a hbounded h hinv) hrun (inv_of_initial hinit)

-- `ops->close` runs at most once and never while an operation is admitted. Once a close has
-- won, the calls under way can always be finished so that it runs, provided no close wins
-- from the callback of a loop that does not own the marker.
theorem mqtt_teardown (hinit : Initial w) (hrun : Run (mqttStep vtable) Bounded w w') :
    w'.mem.closeRuns ≤ 1 ∧
      (∀ t u, (w'.phase t).closing = true → (w'.phase u).admitted = false) ∧
      (Run (mqttStep vtable) Recognised w w' → w'.mem.lifecycle ≠ .opened →
        ∃ w'', Run (mqttStep vtable) (fun a _ => Finishing a.2 = true) w' w'' ∧
          w''.mem.closeRuns = 1) := by
  have hinv := inv_of_run hinit hrun
  refine ⟨?_, ?_, ?_⟩
  · have hduty := hinv.duty
    have hone := closed_le_one w'.mem
    omega
  · intro t u ht
    exact hinv.quiet t u (drained_of_closing ht)
  · intro hrecognised hclosed
    have hmarker : MarkerInv w' :=
      run_invariant (fun a _ _ hguard h hm => markerInv_step a hguard h hm) hrecognised
        (markerInv_of_initial hinit)
    have hto : ∃ w'', Run (mqttStep vtable) (fun a _ => Finishing a.2 = true) w' w'' ∧ Closing w'' ∧
        w''.mem.closeRuns = 1 :=
      run_to_goal Closing (fun w => w.mem.closeRuns = 1) (fun w => total Phase.rank w.phase)
        (fun _ hc hne => hc.progress hne) ⟨hinv, hmarker, closed_eq_one.mpr hclosed⟩
    obtain ⟨w'', hto, -, hgoal⟩ := hto
    exact ⟨w'', hto, hgoal⟩

omit [Fintype T] in
theorem prog_callback_drain {t : T} {a : Action} {h h' : Handle T} {owner : Bool} {p' : Phase}
    (hp : prog vtable t a h (.callback owner (.teardown .draining)) = some (h', p'))
    (hne : h.activeOps ≠ 0) : p' = .callback owner (.teardown .draining) := by
  cases a with
  | drain =>
      simp only [prog, callProg, teardownProg, if_neg hne] at hp
      cases hp
      rfl
  | _ => cases hp

structure Stuck (t : T) (owner : Bool) (w : State T) : Prop where
  inv : Inv w
  phase : w.phase t = .callback owner (.teardown .draining)

theorem stuck_step {t : T} {owner : Bool} (a : T × Action) (hbounded : Bounded a w)
    (hstep : mqttStep vtable a w = some w') (hstuck : Stuck t owner w) : Stuck t owner w' := by
  refine ⟨inv_step _ hbounded hstep hstuck.inv, ?_⟩
  obtain ⟨u, a⟩ := a
  obtain ⟨h', p', hp, rfl⟩ := step_eq_some.mp hstep
  change Function.update w.phase u p' t = _
  by_cases hu : u = t
  · subst hu
    rw [Function.update_self]
    have hle := le_total Phase.holds w.phase u
    rw [hstuck.phase] at hp hle
    have hexact : w.mem.activeOps = total Phase.holds w.phase := hstuck.inv.exact
    have hone : 1 ≤ total Phase.holds w.phase := hle
    exact prog_callback_drain hp (by omega)
  · rw [Function.update_of_ne (Ne.symm hu)]
    exact hstuck.phase

-- A thread that drains inside the callback waits for its own loop, and nobody else has the
-- duty: `ops->close` never runs.
theorem Stuck.closeRuns {t : T} {owner : Bool} (hstuck : Stuck t owner w)
    (hrun : Run (mqttStep vtable) Bounded w w') : w'.mem.closeRuns = 0 := by
  have hstuck : Stuck t owner w' :=
    run_invariant (fun a _ _ hbounded h hstuck => stuck_step a hbounded h hstuck) hrun hstuck
  have hle := le_total Phase.duty w'.phase t
  rw [hstuck.phase] at hle
  have hone : 1 ≤ total Phase.duty w'.phase := hle
  have hduty := hstuck.inv.duty
  have hclosed := closed_le_one w'.mem
  omega

theorem Phase.holds_le_two (p : Phase) : p.holds ≤ 2 := by
  have hcall : ∀ c : Call, c.holds ≤ 1 := by
    intro c
    cases c <;> simp [Call.holds]
  cases p with
  | out c => exact Nat.le_succ_of_le (hcall c)
  | callback owner c => exact Nat.add_le_add_left (hcall c) 1
  | _ => simp [Phase.holds]

omit [DecidableEq T] in
theorem bounded_of_card (hcard : Fintype.card T * 2 + 1 < 2 ^ 32) (a : T × Action) (w : State T) :
    Bounded a w := by
  have hle := total_le Phase.holds w.phase Phase.holds_le_two
  obtain ⟨t, a⟩ := a
  cases a with
  | call op =>
      change total Phase.holds w.phase + 1 < 2 ^ 32
      omega
  | loop =>
      change total Phase.holds w.phase + 1 < 2 ^ 32
      omega
  | _ => trivial

def openHandle (T : Type) : Handle T :=
  { lifecycle := .opened, activeOps := 0, cbThread := none, cbActive := false
    closePending := false, inUse := true, closeRuns := 0 }

def fresh (T : Type) : State T := { mem := openHandle T, phase := fun _ => .out (.done none) }

omit [Fintype T] [DecidableEq T] in
theorem fresh_initial : Initial (fresh T) := ⟨rfl, fun _ => rfl⟩

def fullOps : MqttOps := { connect := true, publish := true, subscribe := true, loop := true }

-- Thread 0 loops and its callback closes the handle while thread 1 publishes.
def selfClose : List (Fin 2 × Action) :=
  [(0, .loop), (0, .loadLifecycle), (0, .mark), (0, .storeThread), (1, .call (.publish false false 4)),
    (1, .loadLifecycle), (0, .enterCallback), (0, .close), (0, .loadActive), (0, .loadThread),
    (0, .storePending)]

theorem mqtt_teardown_selfClose :
    ∃ w, exec (mqttStep fullOps) selfClose (fresh (Fin 2)) = some w ∧ w.mem.closePending = true ∧
      w.mem.closeRuns ≤ 1 ∧
      ∃ w'', Run (mqttStep fullOps) (fun a _ => Finishing a.2 = true) w w'' ∧
        w''.mem.closeRuns = 1 := by
  have hrun : ∃ w, exec (mqttStep fullOps) selfClose (fresh (Fin 2)) = some w ∧
      w.mem.closePending = true ∧ w.mem.lifecycle = .closing := ⟨_, rfl, rfl, rfl⟩
  obtain ⟨w, hexec, hpending, hclosing⟩ := hrun
  have hbounded : Run (mqttStep fullOps) Bounded (fresh (Fin 2)) w :=
    run_of_exec selfClose hexec (by decide)
  have hrecognised : Run (mqttStep fullOps) Recognised (fresh (Fin 2)) w :=
    run_of_exec selfClose hexec (by decide)
  obtain ⟨hone, -, hprogress⟩ := mqtt_teardown fresh_initial hbounded
  exact ⟨w, hexec, hpending, hone, hprogress hrecognised (by simp [hclosing])⟩

-- Threads 0 and 1 loop; thread 0 owns the marker and the callback of thread 1 closes the
-- handle. Thread 0 leaves, and thread 1 waits for itself.
def foreignClose : List (Fin 2 × Action) :=
  [(0, .loop), (0, .loadLifecycle), (0, .mark), (0, .storeThread), (1, .loop), (1, .loadLifecycle),
    (1, .mark), (1, .enterCallback), (1, .close), (1, .loadActive), (1, .loadThread),
    (0, .loopDone (.ok ())), (0, .zeroThread), (0, .unmark), (0, .take), (0, .leave)]

theorem foreignClose_stuck :
    ∃ w, Run (mqttStep fullOps) (fun _ _ => True) (fresh (Fin 2)) w ∧ w.mem.lifecycle = .closing ∧
      ∀ w', Run (mqttStep fullOps) (fun _ _ => True) w w' → w'.mem.closeRuns = 0 := by
  have hexec : ∃ w, exec (mqttStep fullOps) foreignClose (fresh (Fin 2)) = some w ∧
      w.mem.lifecycle = .closing ∧ w.phase 1 = .callback false (.teardown .draining) :=
    ⟨_, rfl, rfl, rfl⟩
  obtain ⟨w, hexec, hclosing, hphase⟩ := hexec
  have hbounded : ∀ (a : Fin 2 × Action) v, True → Bounded a v :=
    fun a v _ => bounded_of_card (by decide) a v
  have hrun := run_of_exec foreignClose hexec (along_true _ _)
  refine ⟨w, hrun, hclosing, fun w' hrun' => ?_⟩
  have hstuck : Stuck 1 false w := ⟨inv_of_run fresh_initial (run_mono hbounded hrun), hphase⟩
  exact hstuck.closeRuns (run_mono hbounded hrun')

-- The first n of the threads are in an admitted connect.
def crowd (N n : Nat) : State (Fin (N + 1)) :=
  { mem := { openHandle (Fin (N + 1)) with activeOps := n % 2 ^ 32 }
    phase := fun i => .out (if i.val < n then .running .connect else .done none) }

theorem crowd_run {N n : Nat} (hn : n ≤ N) :
    Run (mqttStep fullOps) (fun _ _ => True) (fresh (Fin (N + 1))) (crowd N n) := by
  induction n with
  | zero =>
      have hzero : crowd N 0 = fresh (Fin (N + 1)) := by simp [crowd, fresh, openHandle]
      rw [hzero]
      exact Relation.ReflTransGen.refl
  | succ n ih =>
      obtain ⟨t, ht⟩ : ∃ t : Fin (N + 1), t.val = n := ⟨⟨n, by omega⟩, rfl⟩
      have hidle : (crowd N n).phase t = .out (.done none) := by simp [crowd, ht]
      let counted : State (Fin (N + 1)) :=
        { mem := { openHandle _ with activeOps := fetchAdd (n % 2 ^ 32) }
          phase := Function.update (crowd N n).phase t (.out (.counted .connect)) }
      have hcall : mqttStep fullOps (t, .call .connect) (crowd N n) = some counted :=
        step_eq_some.mpr ⟨_, _, by rw [hidle]; rfl, rfl⟩
      have hload : mqttStep fullOps (t, .loadLifecycle) counted = some (crowd N (n + 1)) := by
        refine step_eq_some.mpr ⟨counted.mem, .out (.running .connect), ?_, ?_⟩
        · rw [show counted.phase t = .out (.counted .connect) from Function.update_self ..]
          rfl
        · have hcount : fetchAdd (n % 2 ^ 32) = (n + 1) % 2 ^ 32 := Nat.mod_add_mod n (2 ^ 32) 1
          simp only [crowd, counted, hcount, Function.update_idem, World.mk.injEq, true_and]
          funext i
          by_cases hi : i = t
          · subst hi
            simp [ht]
          · have hne : i.val ≠ n := fun h => hi (Fin.ext (h.trans ht.symm))
            have hiff : i.val < n ↔ i.val < n + 1 := by omega
            simp [hi, hiff]
      exact ((ih (by omega)).tail ⟨_, trivial, hcall⟩).tail ⟨_, trivial, hload⟩

-- The crowd with its last thread elsewhere.
def crowdAt (N : Nat) (h : Handle (Fin (N + 1))) (c : Call) : State (Fin (N + 1)) :=
  { mem := h, phase := Function.update (crowd N N).phase (Fin.last N) (.out c) }

-- With a multiple of 2^32 counts the last thread's drain reads 0.
theorem crowd_closes {N : Nat} (hpos : 0 < N) (hwrap : N % 2 ^ 32 = 0) :
    ∃ w, Run (mqttStep fullOps) (fun _ _ => True) (fresh (Fin (N + 1))) w ∧
      (w.phase (Fin.last N)).closing = true ∧ (w.phase 0).admitted = true := by
  have hidle : (crowd N N).phase (Fin.last N) = .out (.done none) := by simp [crowd]
  have hstart : crowd N N = crowdAt N (crowd N N).mem (.done none) := by
    rw [crowdAt, ← hidle, Function.update_eq_self]
  have hrun := crowd_run (Nat.le_refl N)
  rw [hstart] at hrun
  let closing : Handle (Fin (N + 1)) := { (crowd N N).mem with lifecycle := .closing }
  have hclose : mqttStep fullOps (Fin.last N, .close) (crowdAt N (crowd N N).mem (.done none)) =
      some (crowdAt N closing .won) := step_update _ rfl
  have hactive : mqttStep fullOps (Fin.last N, .loadActive) (crowdAt N closing .won) =
      some (crowdAt N closing (.teardown .draining)) := step_update _ rfl
  have hdrain : mqttStep fullOps (Fin.last N, .drain) (crowdAt N closing (.teardown .draining)) =
      some (crowdAt N closing (.teardown .closing)) := by
    have hzero : closing.activeOps = 0 := hwrap
    refine step_update _ ?_
    simp [prog, callProg, teardownProg, hzero, Call.afterTeardown]
  refine ⟨_, ((hrun.tail ⟨_, trivial, hclose⟩).tail ⟨_, trivial, hactive⟩).tail
    ⟨_, trivial, hdrain⟩, ?_, ?_⟩
  · rw [show (crowdAt N closing (.teardown .closing)).phase (Fin.last N) =
      .out (.teardown .closing) from Function.update_self ..]
    rfl
  · have hne : (0 : Fin (N + 1)) ≠ Fin.last N := by
      intro h
      have hval := congrArg Fin.val h
      simp at hval
      omega
    rw [show (crowdAt N closing (.teardown .closing)).phase 0 = (crowd N N).phase 0 from
      Function.update_of_ne hne ..]
    simp [crowd, hpos, Phase.admitted, Call.admitted]

-- Two ways out: a close from the callback of a loop that does not own the marker never ends,
-- and 2^32 operations at once let a close run `ops->close` under them.
theorem mqtt_teardown_fails :
    (∃ w, Run (mqttStep fullOps) (fun _ _ => True) (fresh (Fin 2)) w ∧ w.mem.lifecycle = .closing ∧
      ∀ w', Run (mqttStep fullOps) (fun _ _ => True) w w' → w'.mem.closeRuns = 0) ∧
    ∃ w, Run (mqttStep fullOps) (fun _ _ => True) (fresh (Fin (2 ^ 32 + 1))) w ∧
      ∃ t u, (w.phase t).closing = true ∧ (w.phase u).admitted = true := by
  refine ⟨foreignClose_stuck, ?_⟩
  obtain ⟨w, hrun, hclosing, hadmitted⟩ := crowd_closes (N := 2 ^ 32) (by decide) (by decide)
  exact ⟨w, hrun, _, _, hclosing, hadmitted⟩

end AlpSdk.Mqtt
