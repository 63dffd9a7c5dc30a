import AlpSdk.Ble

namespace AlpSdk.Ble

open Library.Transition Library.Threads
open AlpSdk.SlotClaim

-- The slot belongs to one thread: to the first opener until it publishes the reference count,
-- to the last closer until it releases the slot.
def Pc.owns : Pc → Nat
  | .claimed | .cleared | .opened | .publishing => 1
  | .last | .marking | .draining | .tearingDown | .unopening | .releasing => 1
  | _ => 0

def Radio.owners (h : Radio) : Nat := if h.inUse ∧ h.refcount = 0 then 1 else 0

structure Opening (h : Radio) (l : Lifecycle) : Prop where
  lifecycle : h.lifecycle = l
  inUse : h.inUse = true
  refcount : h.refcount = 0
  opens : h.opens = 0
  teardowns : h.teardowns = 0

structure Ending (h : Radio) (l : Lifecycle) (teardowns : Nat) : Prop where
  lifecycle : h.lifecycle = l
  inUse : h.inUse = true
  refcount : h.refcount = 0
  opens : 0 < h.opens
  teardowns : h.teardowns = teardowns

-- What a thread at `pc` knows of the slot and of the references it holds.
def Local (h : Radio) (p : Thread) : Prop :=
  match p.pc with
  | .idle result => ∀ r, result = some r → r = some .only
  | .joinCas cur => cur ≠ 0
  | .claimed => Opening h .unopened
  | .cleared => Opening h .unopened
  | .opened => Opening h .unopened
  | .publishing => Opening h .opened
  | .leaving => 0 < p.held
  | .leaveCas cur => cur ≠ 0 ∧ 0 < p.held
  | .last => Ending h .opened 0
  | .marking => Ending h .closing 0
  | .draining => Ending h .closing 0
  | .tearingDown => Ending h .closing 0
  | .unopening => Ending h .closing 1
  | .releasing => Ending h .unopened 1
  | _ => True

structure Shared (h : Radio) : Prop where
  quiet : h.activeOps = 0 ∧ h.cbActive = false
  bound : h.refcount < 2 ^ 32
  counted : h.opens = h.closes + h.refcount
  joined : h.refcount ≠ 0 → h.inUse = true ∧ h.lifecycle = .opened ∧ h.teardowns = 0
  free : h.inUse = false → h.refcount = 0 ∧ h.lifecycle = .unopened ∧
    (h.opens = 0 ∧ h.teardowns = 0 ∨ 0 < h.opens ∧ h.teardowns = 1)
  torn : h.teardowns ≤ 1 ∧ (h.teardowns = 1 → 0 < h.opens ∧ h.refcount = 0)

-- A thread that does not own the slot knows nothing of it.
theorem local_of_not_owner {h h' : Radio} {p : Thread} (hown : p.pc.owns = 0) (hl : Local h p) :
    Local h' p := by
  obtain ⟨pc, held⟩ := p
  cases pc <;> first | exact hl | exact absurd hown Nat.one_ne_zero

section Program

variable {token held : Nat} {h h' : Radio} {pc : Pc} {p' : Thread}

-- What one access does to the slot, to its owner and to the references.
structure Effect (h : Radio) (pc : Pc) (held : Nat) (h' : Radio) (p' : Thread) : Prop where
  shared : Shared h'
  known : Local h' p'
  refs : h'.refcount + held = h.refcount + p'.held
  owners : h'.owners + pc.owns = h.owners + p'.pc.owns
  others : h' = h ∨ h.owners = pc.owns

theorem effect_of_same (hs : Shared h) {pc' : Pc} (hown : pc'.owns = pc.owns)
    (hl' : Local h ⟨pc', held⟩) : Effect h pc held h ⟨pc', held⟩ :=
  ⟨hs, hl', rfl, by rw [hown], .inl rfl⟩

theorem advance_effect (hs : Shared h) (hl : Local h ⟨pc, held⟩) (hsafe : Safe h pc)
    (hp : advance token h held pc = some (h', p')) : Effect h pc held h' p' := by
  obtain ⟨⟨hops, hcb⟩, hbound, hcounted, hjoined, hfree, htorn⟩ := id hs
  cases pc with
  | idle => cases hp
  | scanning =>
      cases hp
      split <;> exact effect_of_same hs rfl trivial
  | joining =>
      cases hp
      split
      · exact effect_of_same hs rfl trivial
      next hne => exact effect_of_same hs rfl hne
  | joinCas cur =>
      simp only [advance] at hp
      split at hp
      next heq =>
          cases hp
          subst heq
          have hne : h.refcount ≠ 0 := hl
          have hincr : incr h.refcount = h.refcount + 1 := Nat.mod_eq_of_lt (hsafe rfl)
          have hlt : h.refcount + 1 < 2 ^ 32 := hsafe rfl
          obtain ⟨huse, hlc, ht⟩ := hjoined hne
          refine ⟨⟨⟨hops, hcb⟩, ?_, ?_, ?_, ?_, ?_⟩, ?_, ?_, ?_, .inr ?_⟩ <;>
            simp_all [Local, RadioPtr.only, Radio.owners, Pc.owns] <;> omega
      · cases hp
        split
        · exact effect_of_same hs rfl trivial
        next hne => exact effect_of_same hs rfl hne
  | sleeping =>
      cases hp
      exact effect_of_same hs rfl trivial
  | allocating =>
      have huse : h.inUse = false := hsafe
      simp only [advance, huse] at hp
      cases hp
      obtain ⟨hcount, hlc, -⟩ := hfree huse
      refine ⟨⟨⟨hops, hcb⟩, ?_, ?_, ?_, ?_, ?_⟩, ⟨?_, ?_, ?_, ?_, ?_⟩, ?_, ?_, .inr ?_⟩ <;>
        simp_all [Radio.owners, Pc.owns]
  | leaving =>
      cases hp
      split
      · exact effect_of_same hs rfl nofun
      next hne => exact effect_of_same hs rfl ⟨hne, hl⟩
  | leaveCas cur =>
      obtain ⟨hne, hheld⟩ := id hl
      simp only [advance] at hp
      split at hp
      next heq =>
          cases hp
          subst heq
          obtain ⟨huse, hlc, ht⟩ := hjoined hne
          by_cases hone : h.refcount = 1
          · rw [if_pos hone]
            refine ⟨⟨⟨hops, hcb⟩, ?_, ?_, ?_, ?_, ?_⟩, ⟨?_, ?_, ?_, ?_, ?_⟩, ?_, ?_, .inr ?_⟩ <;>
              simp_all [Radio.owners, Pc.owns]
            omega
          · rw [if_neg hone]
            have hpos : h.refcount - 1 ≠ 0 := by omega
            refine ⟨⟨⟨hops, hcb⟩, ?_, ?_, ?_, ?_, ?_⟩, nofun, ?_, ?_, .inr ?_⟩ <;>
              simp_all [Radio.owners, Pc.owns] <;> omega
      · cases hp
        split
        · exact effect_of_same hs rfl nofun
        next hne => exact effect_of_same hs rfl ⟨hne, hheld⟩
  | claimed =>
      cases hp
      obtain ⟨hlc, huse, hcount, ho, ht⟩ := hl
      refine ⟨⟨⟨rfl, rfl⟩, ?_, ?_, ?_, ?_, ?_⟩, ⟨?_, ?_, ?_, ?_, ?_⟩, ?_, ?_, .inr ?_⟩ <;>
        simp_all [Radio.owners, Pc.owns]
      omega
  | cleared =>
      cases hp
      exact effect_of_same hs rfl hl
  | opened =>
      cases hp
      obtain ⟨hlc, huse, hcount, ho, ht⟩ := hl
      refine ⟨⟨⟨hops, hcb⟩, ?_, ?_, ?_, ?_, ?_⟩, ⟨?_, ?_, ?_, ?_, ?_⟩, ?_, ?_, .inr ?_⟩ <;>
        simp_all [Radio.owners, Pc.owns]
      omega
  | publishing =>
      cases hp
      obtain ⟨hlc, huse, hcount, ho, ht⟩ := hl
      refine ⟨⟨⟨hops, hcb⟩, ?_, ?_, ?_, ?_, ?_⟩, ?_, ?_, ?_, .inr ?_⟩ <;>
        simp_all [Local, RadioPtr.only, Radio.owners, Pc.owns] <;> omega
  | last =>
      obtain ⟨hlc, huse, hcount, ho, ht⟩ := hl
      simp only [advance, hlc] at hp
      cases hp
      refine ⟨⟨⟨hops, hcb⟩, ?_, ?_, ?_, ?_, ?_⟩, ⟨?_, ?_, ?_, ?_, ?_⟩, ?_, ?_, .inr ?_⟩ <;>
        simp_all [Radio.owners, Pc.owns]
  | marking =>
      simp only [advance, hcb, Bool.false_eq_true, false_and, if_false] at hp
      cases hp
      exact effect_of_same hs rfl hl
  | draining =>
      simp only [advance, hops] at hp
      cases hp
      exact effect_of_same hs rfl hl
  | tearingDown =>
      cases hp
      obtain ⟨hlc, huse, hcount, ho, ht⟩ := hl
      refine ⟨⟨⟨hops, hcb⟩, ?_, ?_, ?_, ?_, ?_⟩, ⟨?_, ?_, ?_, ?_, ?_⟩, ?_, ?_, .inr ?_⟩ <;>
        simp_all [Radio.owners, Pc.owns]
  | unopening =>
      cases hp
      obtain ⟨hlc, huse, hcount, ho, ht⟩ := hl
      refine ⟨⟨⟨hops, hcb⟩, ?_, ?_, ?_, ?_, ?_⟩, ⟨?_, ?_, ?_, ?_, ?_⟩, ?_, ?_, .inr ?_⟩ <;>
        simp_all [Radio.owners, Pc.owns]
  | releasing =>
      cases hp
      obtain ⟨hlc, huse, hcount, ho, ht⟩ := hl
      refine ⟨⟨⟨hops, hcb⟩, ?_, ?_, ?_, ?_, ?_⟩, nofun, ?_, ?_, .inr ?_⟩ <;>
        simp_all [Radio.owners, Pc.owns]

theorem prog_effect {a : Action} {p : Thread} (hs : Shared h) (hl : Local h p)
    (hsafe : a = .run → Safe h p.pc) (hp : prog token a h p = some (h', p')) :
    Effect h p.pc p.held h' p' := by
  obtain ⟨pc, held⟩ := p
  cases a with
  | run => exact advance_effect hs hl (hsafe rfl) hp
  | callOpen =>
      cases pc <;> cases hp
      exact effect_of_same hs rfl trivial
  | callClose =>
      cases pc <;> simp only [prog, reduceCtorEq] at hp
      split at hp <;> cases hp
      next hheld => exact effect_of_same hs rfl hheld

end Program

variable {T : Type} [Fintype T] {token : T → Nat} {w w' : State T}

structure Inv (w : State T) : Prop where
  shared : Shared w.mem
  known : ∀ t, Local w.mem (w.phase t)
  refs : w.mem.refcount = references w
  owners : total (fun p : Thread => p.pc.owns) w.phase = w.mem.owners

theorem inv_of_initial (hinit : Initial w) : Inv w := by
  refine ⟨⟨?_, ?_, ?_, ?_, ?_, ?_⟩, fun t => ?_, ?_, ?_⟩
  · simp [hinit.radio]
  · simp [hinit.radio]
  · simp [hinit.radio]
  · simp [hinit.radio]
  · simp [hinit.radio]
  · simp [hinit.radio]
  · rw [hinit.idle t]
    exact nofun
  · have hzero : references w = 0 := (total_eq_zero _ _).mpr fun t => by rw [hinit.idle t]
    rw [hzero, hinit.radio]
  · have hzero : total (fun p : Thread => p.pc.owns) w.phase = 0 :=
      (total_eq_zero _ _).mpr fun t => by rw [hinit.idle t]; rfl
    rw [hzero, hinit.radio]
    rfl

variable [DecidableEq T]

-- Only the owner of the slot, or a thread while the slot has no owner, writes to it.
theorem Inv.known_step (hinv : Inv w) {t : T} {h' : Radio} {p' : Thread}
    (he : Effect w.mem (w.phase t).pc (w.phase t).held h' p') :
    ∀ u, Local h' (Function.update w.phase t p' u) := by
  refine (Function.forall_update_iff w.phase fun _ p => Local h' p).mpr ⟨he.known, ?_⟩
  intro u hu
  rcases he.others with rfl | hall
  · exact hinv.known u
  · have htwo := total_of_two (fun p : Thread => p.pc.owns) w.phase (Ne.symm hu)
    have howners := hinv.owners
    exact local_of_not_owner (by omega) (hinv.known u)

theorem inv_step (a : T × Action) (horderly : Orderly a w) (h : bleStep token a w = some w')
    (hinv : Inv w) : Inv w' := by
  obtain ⟨t, a⟩ := a
  obtain ⟨h', p', hp, rfl⟩ := step_eq_some.mp h
  have he := prog_effect hinv.shared (hinv.known t) horderly hp
  have hheld := total_update Thread.held w.phase t p'
  have hown := total_update (fun p : Thread => p.pc.owns) w.phase t p'
  have hrefs := he.refs
  have hsum := he.owners
  have hinvRefs := hinv.refs
  have hinvOwners := hinv.owners
  unfold references at hinvRefs
  refine ⟨he.shared, hinv.known_step he, ?_, ?_⟩
  · change h'.refcount = total Thread.held (Function.update w.phase t p')
    omega
  · change total (fun p : Thread => p.pc.owns) (Function.update w.phase t p') = h'.owners
    omega

-- How many accesses the last closer still makes up to the end of the backend's close.
def Pc.remaining : Pc → Nat
  | .last => 4
  | .marking => 3
  | .draining => 2
  | .tearingDown => 1
  | _ => 0

structure Closing (t : T) (w : State T) : Prop where
  inv : Inv w
  ahead : w.mem.teardowns = 1 ∨ 0 < (w.phase t).pc.remaining

theorem Closing.step {t : T} (hc : Closing t w) {h' : Radio} {p' : Thread}
    (hp : prog (token t) .run w.mem (w.phase t) = some (h', p'))
    (hsafe : Safe w.mem (w.phase t).pc) (hahead : h'.teardowns = 1 ∨ 0 < p'.pc.remaining)
    (hlt : p'.pc.remaining < (w.phase t).pc.remaining) :
    ∃ a w', a = (t, .run) ∧ bleStep token a w = some w' ∧ Closing t w' ∧
      (w'.phase t).pc.remaining < (w.phase t).pc.remaining := by
  have hstep : bleStep token (t, .run) w = some ⟨h', Function.update w.phase t p'⟩ :=
    step_eq_some.mpr ⟨h', p', hp, rfl⟩
  refine ⟨_, _, rfl, hstep, ⟨inv_step _ (fun _ => hsafe) hstep hc.inv, ?_⟩, ?_⟩
  · simpa using hahead
  · simpa using hlt

theorem Closing.progress {t : T} (hc : Closing t w) (hne : w.mem.teardowns ≠ 1) :
    ∃ a w', a = (t, .run) ∧ bleStep token a w = some w' ∧ Closing t w' ∧
      (w'.phase t).pc.remaining < (w.phase t).pc.remaining := by
  have hahead := hc.ahead.resolve_left hne
  have hknown := hc.inv.known t
  obtain ⟨hops, hcb⟩ := hc.inv.shared.quiet
  rcases hphase : w.phase t with ⟨pc, held⟩
  rw [hphase] at hahead hknown
  -- nothing is admitted and no callback runs, so neither the drain nor the deferral holds
  -- the closer up
  cases pc with
  | last =>
      obtain ⟨hlc, -⟩ := hknown
      rw [← hphase]
      refine hc.step (by rw [hphase, prog, advance, if_pos hlc]) (by rw [hphase]; trivial) ?_ ?_
      · exact .inr (Nat.succ_pos _)
      · rw [hphase]
        exact Nat.lt_succ_self 3
  | marking =>
      have hnot : ¬(w.mem.cbActive = true ∧ w.mem.cbThread = token t) := by simp [hcb]
      rw [← hphase]
      refine hc.step (by rw [hphase, prog, advance, if_neg hnot]) (by rw [hphase]; trivial) ?_ ?_
      · exact .inr (Nat.succ_pos _)
      · rw [hphase]
        exact Nat.lt_succ_self 2
  | draining =>
      rw [← hphase]
      refine hc.step (by rw [hphase, prog, advance, if_pos hops]) (by rw [hphase]; trivial) ?_ ?_
      · exact .inr (Nat.succ_pos _)
      · rw [hphase]
        exact Nat.lt_succ_self 1
  | tearingDown =>
      obtain ⟨-, -, -, -, hzero⟩ := hknown
      rw [← hphase]
      refine hc.step (by rw [hphase, prog, advance]) (by rw [hphase]; trivial) ?_ ?_
      · exact .inl (congrArg (· + 1) hzero)
      · rw [hphase]
        exact Nat.one_pos
  | _ => exact absurd hahead (Nat.lt_irrefl 0)

omit [DecidableEq T] in
-- While the lifetime is over and not torn down, the slot has an owner, which is closing it.
theorem Inv.closing (hinv : Inv w) (hopens : 0 < w.mem.opens) (hall : w.mem.closes = w.mem.opens)
    (hzero : w.mem.teardowns = 0) : ∃ t, Closing t w := by
  have hcounted := hinv.shared.counted
  have hrefs : w.mem.refcount = 0 := by omega
  have huse : w.mem.inUse = true := by
    by_contra hfree
    obtain ⟨-, -, h⟩ := hinv.shared.free (by simpa using hfree)
    omega
  have howners : total (fun p : Thread => p.pc.owns) w.phase = 1 := by
    rw [hinv.owners, Radio.owners, if_pos ⟨huse, hrefs⟩]
  obtain ⟨t, ht⟩ := exists_of_total_ne_zero _ _ (howners ▸ Nat.one_ne_zero)
  refine ⟨t, hinv, .inr ?_⟩
  have hknown := hinv.known t
  rcases hphase : w.phase t with ⟨pc, held⟩
  rw [hphase] at ht hknown
  cases pc with
  | claimed => exact absurd hknown.opens (by omega)
  | cleared => exact absurd hknown.opens (by omega)
  | opened => exact absurd hknown.opens (by omega)
  | publishing => exact absurd hknown.opens (by omega)
  | unopening => exact absurd hknown.teardowns (by omega)
  | releasing => exact absurd hknown.teardowns (by omega)
  | _ => first | exact absurd rfl ht | exact Nat.succ_pos _

theorem singleton_of_inv (hinv : Inv w) : Singleton token w := by
  have hrefs := hinv.refs
  obtain ⟨-, -, hcounted, -, -, hone, hend⟩ := hinv.shared
  refine ⟨?_, by omega, hone, ?_, ?_⟩
  · intro t result hpc
    have hknown := hinv.known t
    rw [Local, hpc] at hknown
    exact hknown result rfl
  · intro htorn
    obtain ⟨hopens, hzero⟩ := hend htorn
    exact ⟨hopens, by omega⟩
  · intro hopens hall hzero
    obtain ⟨t, hc⟩ := hinv.closing hopens hall hzero
    obtain ⟨w', hrun, -, hdone⟩ :=
      run_to_goal (Closing t) (fun w => w.mem.teardowns = 1) (fun w => (w.phase t).pc.remaining)
        (fun _ hc hne => hc.progress hne) hc
    exact ⟨t, w', hrun, hdone⟩

-- Whatever the threads do, as long as each first open claims the slot it found free.
theorem singleton_of_orderly (hinit : Initial w) (hrun : Run (bleStep token) Orderly w w') :
    Singleton token w' :=
  singleton_of_inv (run_invariant (fun a _ _ horderly h hinv => inv_step a horderly h hinv) hrun
    (inv_of_initial hinit))

-- The pool at boot.
def boot : State T :=
  { mem := { refcount := 0, lifecycle := .unopened, activeOps := 0, cbActive := false
             cbThread := 0, closePending := false, inUse := false
             opens := 0, closes := 0, teardowns := 0 }
    phase := fun _ => ⟨.idle none, 0⟩ }

omit [Fintype T] [DecidableEq T] in
theorem boot_initial : Initial (boot (T := T)) := ⟨rfl, fun _ => rfl⟩

-- Thread 1 finds the slot claimed by thread 0, waits and joins; both close.
def openJoinClose : List (Fin 2 × Action) :=
  [(0, .callOpen), (0, .run), (0, .run), (1, .callOpen), (1, .run), (1, .run), (1, .run),
    (0, .run), (0, .run), (0, .run), (0, .run), (1, .run), (1, .run), (1, .run),
    (0, .callClose), (0, .run), (0, .run), (1, .callClose), (1, .run), (1, .run),
    (1, .run), (1, .run), (1, .run), (1, .run)]

def tokenOf (t : Fin 2) : Nat := t.val + 1

theorem singleton_openJoinClose :
    ∃ w, exec (bleStep tokenOf) openJoinClose boot = some w ∧ w.mem.teardowns = 1 ∧
      Singleton tokenOf w := by
  have hexec : ∃ w, exec (bleStep tokenOf) openJoinClose boot = some w ∧ w.mem.teardowns = 1 :=
    ⟨_, rfl, rfl⟩
  obtain ⟨w, hexec, htorn⟩ := hexec
  exact ⟨w, hexec, htorn,
    singleton_of_orderly boot_initial (run_of_exec openJoinClose hexec (by decide))⟩

-- Both threads scan while the slot is free; thread 0 claims it first.
def bothScan : List (Fin 2 × Action) :=
  [(0, .callOpen), (1, .callOpen), (0, .run), (1, .run), (0, .run), (1, .run)]

-- The second first open returns NULL.
theorem second_open_refused :
    ∃ w, Run (bleStep tokenOf) (fun _ _ => True) (boot (T := Fin 2)) w ∧
      (w.phase 1).pc = .idle (some none) ∧ ¬Singleton tokenOf w := by
  refine ⟨_, run_of_exec bothScan rfl (along_true _ _), rfl, ?_⟩
  intro hsingleton
  exact absurd (hsingleton.pointer 1 none rfl) (by decide)

end AlpSdk.Ble
