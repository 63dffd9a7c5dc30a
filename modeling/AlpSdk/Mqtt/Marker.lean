import AlpSdk.Mqtt.Theorems

namespace AlpSdk.Mqtt

open Library.Transition Library.Threads
open AlpSdk.SlotClaim

-- The thread has claimed the marker with `alp_handle_cb_enter` and not given it back.
def Phase.cbOwner : Phase → Nat
  | .storing => 1
  | .looping owner => owner.toNat
  | .callback owner _ => owner.toNat
  | .zeroing _ => 1
  | .unmarking _ => 1
  | _ => 0

-- Its token is in `cb_thread`.
def Phase.marked : Phase → Bool
  | .looping owner => owner
  | .callback owner _ => owner
  | .zeroing _ => true
  | _ => false

def Call.inClose : Call → Bool
  | .won => true
  | .sawActive => true
  | .deferring => true
  | .teardown _ => true
  | _ => false

-- A close in a callback is that of the marker's owner, which defers it; only that one
-- defers.
def Phase.placed : Phase → Bool
  | .out .deferring => false
  | .callback false c => !c.inClose
  | .callback true (.teardown _) => false
  | _ => true

theorem cbOwner_of_marked {p : Phase} (h : p.marked = true) : p.cbOwner = 1 := by
  cases p with
  | looping owner => exact congrArg Bool.toNat h
  | callback owner c => exact congrArg Bool.toNat h
  | zeroing rc => rfl
  | _ => cases h

-- The loop has yet to look at `close_pending`.
def Phase.beforeTake : Phase → Bool
  | .looping _ => true
  | .callback _ _ => true
  | .zeroing _ => true
  | .unmarking _ => true
  | .taking _ => true
  | _ => false

section Program

variable {T : Type} {vtable : MqttOps} {self : T} {a : Action} {h h' : Handle T}

-- What the marker says about a thread.
structure Marker (t : T) (h : Handle T) (p : Phase) : Prop where
  active : 0 < p.cbOwner → h.cbActive = true
  thread : p.marked = true ↔ h.cbThread = some t
  placed : p.placed = true

theorem teardownProg_frame {d : Teardown} {d' : Option Teardown}
    (hp : teardownProg a h d = some (h', d')) :
    h'.cbActive = h.cbActive ∧ h'.cbThread = h.cbThread ∧ h'.closePending = h.closePending := by
  revert hp
  fun_cases teardownProg a h d
  case case5 => rintro ⟨⟩
  all_goals
    intro hp
    cases hp
    exact ⟨rfl, rfl, rfl⟩

variable [DecidableEq T]

theorem callProg_frame {c c' : Call} (hp : callProg vtable self a h c = some (h', c')) :
    h'.cbActive = h.cbActive ∧ h'.cbThread = h.cbThread ∧
      (h'.closePending = h.closePending ∨ c = .deferring) := by
  revert hp
  fun_cases callProg vtable self a h c
  case case11 d =>
      intro hp
      obtain ⟨⟨h₁, d'⟩, htear, heq⟩ := Option.map_eq_some_iff.mp hp
      cases heq
      obtain ⟨hactive, hthread, hpending⟩ := teardownProg_frame htear
      exact ⟨hactive, hthread, .inl hpending⟩
  case case10 =>
      intro hp
      cases hp
      exact ⟨rfl, rfl, .inr rfl⟩
  case case12 => rintro ⟨⟩
  all_goals
    intro hp
    cases hp
    exact ⟨rfl, rfl, .inl rfl⟩

-- How a call moves within the close protocol: only its own CAS starts it, only the owner of
-- the marker defers, and only with the marker seen does it not drain.
theorem callProg_inClose {c c' : Call} (hp : callProg vtable self a h c = some (h', c')) :
    (c'.inClose = true → c.inClose = true ∨ a = .close ∧ h.lifecycle = .opened) ∧
      (c' = .deferring → h.cbThread = some self) ∧
      (∀ d, c' = .teardown d → h.cbActive = false ∨ h.cbThread ≠ some self ∨ ∃ d', c = .teardown d') := by
  revert hp
  fun_cases callProg vtable self a h c
  case case11 d =>
      intro hp
      obtain ⟨⟨h₁, d'⟩, htear, heq⟩ := Option.map_eq_some_iff.mp hp
      cases heq
      refine ⟨fun _ => .inl rfl, ?_, fun _ _ => .inr (.inr ⟨d, rfl⟩)⟩
      cases d' <;> rintro ⟨⟩
  case case2 | case8 | case9 =>
      intro hp
      cases hp
      split <;> simp_all [Call.inClose]
  case case12 => rintro ⟨⟩
  all_goals
    intro hp
    cases hp
    simp_all [Call.inClose]

theorem callback_placed {owner : Bool} {c c' : Call} (hm : Marker self h (.callback owner c))
    (hp : callProg vtable self a h c = some (h', c'))
    (hguard : a = .close → h.lifecycle = .opened → owner = true) :
    (Phase.callback owner c').placed = true := by
  obtain ⟨hclose, -, hdrain⟩ := callProg_inClose hp
  cases owner with
  | false =>
      have hold : c.inClose = false := by simpa [Phase.placed] using hm.placed
      cases hnew : c'.inClose with
      | false => simp [Phase.placed, hnew]
      | true =>
          rcases hclose hnew with hc | ⟨ha, hopen⟩
          · rw [hold] at hc
            cases hc
          · cases hguard ha hopen
  | true =>
      -- the owner sees its own token, so it does not drain
      cases c' with
      | teardown d =>
          rcases hdrain d rfl with hactive | hthread | ⟨d', rfl⟩
          · rw [hm.active Nat.one_pos] at hactive
            cases hactive
          · exact absurd (hm.thread.mp rfl) hthread
          · exact absurd hm.placed (by simp [Phase.placed])
      | _ => rfl

theorem prog_marker {p p' : Phase} (hp : prog vtable self a h p = some (h', p'))
    (hm : Marker self h p)
    (hguard : a = .close → h.lifecycle = .opened → p.unmarkedCallback = false) :
    Marker self h' p' ∧ h'.cbActive.toNat + p.cbOwner = h.cbActive.toNat + p'.cbOwner ∧
      (h'.cbThread = h.cbThread ∨
        p.cbOwner = 1 ∧ (h'.cbThread = some self ∨ h'.cbThread = none)) := by
  obtain ⟨hactive, hthread, hplaced⟩ := id hm
  revert hp hm hguard hactive hthread hplaced
  fun_cases prog vtable self a h p
  case case15 d rc =>
      intro hp _ _ hactive hthread hplaced
      obtain ⟨⟨h₁, d'⟩, htear, heq⟩ := Option.map_eq_some_iff.mp hp
      cases heq
      obtain ⟨hactive', hthread', -⟩ := teardownProg_frame htear
      rw [← hthread'] at hthread
      rw [hactive', hthread']
      cases d' <;> exact ⟨⟨by rintro ⟨⟩, hthread, rfl⟩, rfl, .inl rfl⟩
  case case16 c _ =>
      intro hp _ _ hactive hthread hplaced
      obtain ⟨⟨h₁, c'⟩, hcall, heq⟩ := Option.map_eq_some_iff.mp hp
      cases heq
      obtain ⟨hactive', hthread', -⟩ := callProg_frame hcall
      obtain ⟨-, hdefer, -⟩ := callProg_inClose hcall
      refine ⟨⟨by rintro ⟨⟩, ?_, ?_⟩, ?_, .inl hthread'⟩
      · rwa [hthread']
      · cases c' with
        | deferring => exact absurd (hthread.mpr (hdefer rfl)) (by simp [Phase.marked])
        | _ => rfl
      · rw [hactive']
        rfl
  case case17 owner c _ =>
      intro hp hm hguard hactive hthread hplaced
      obtain ⟨⟨h₁, c'⟩, hcall, heq⟩ := Option.map_eq_some_iff.mp hp
      cases heq
      obtain ⟨hactive', hthread', -⟩ := callProg_frame hcall
      refine ⟨⟨?_, ?_, callback_placed hm hcall ?_⟩, ?_, .inl hthread'⟩
      · rwa [hactive']
      · rwa [hthread']
      · intro ha hopen
        cases owner with
        | false => cases hguard ha hopen
        | true => rfl
      · rw [hactive']
        rfl
  case case8 | case18 => rintro ⟨⟩
  case case2 | case14 =>
      intro hp _ _ hactive hthread hplaced
      cases hp
      split <;> exact ⟨⟨by rintro ⟨⟩, hthread, rfl⟩, rfl, .inl rfl⟩
  case case7 owner _ | case9 owner _ | case10 owner =>
      intro hp _ _ hactive hthread hplaced
      cases hp
      cases owner <;> exact ⟨⟨hactive, hthread, rfl⟩, rfl, .inl rfl⟩
  case case5 hfree =>
      intro hp _ _ hactive hthread hplaced
      cases hp
      refine ⟨⟨fun _ => rfl, hthread, rfl⟩, ?_, .inl rfl⟩
      simp [hfree, Phase.cbOwner]
  case case6 =>
      intro hp _ _ hactive hthread hplaced
      cases hp
      exact ⟨⟨fun _ => hactive Nat.one_pos, by simp [Phase.marked], rfl⟩, rfl, .inr ⟨rfl, .inl rfl⟩⟩
  case case11 rc =>
      intro hp _ _ hactive hthread hplaced
      cases hp
      exact ⟨⟨hactive, by simp [Phase.marked], rfl⟩, rfl, .inr ⟨rfl, .inr rfl⟩⟩
  case case12 rc =>
      intro hp _ _ hactive hthread hplaced
      cases hp
      refine ⟨⟨by rintro ⟨⟩, hthread, rfl⟩, ?_, .inl rfl⟩
      simp [hactive Nat.one_pos, Phase.cbOwner]
  all_goals
    intro hp _ _ hactive hthread hplaced
    cases hp
    exact ⟨⟨by rintro ⟨⟩, hthread, rfl⟩, rfl, .inl rfl⟩

-- A pending close stays with a loop that has yet to look at it.
theorem prog_pending {p p' : Phase} (hp : prog vtable self a h p = some (h', p'))
    (hplaced : p.placed = true) :
    (p.beforeTake = true → p'.beforeTake = true ∨ h'.closePending = false) ∧
      (h'.closePending = true → h.closePending = true ∨ p'.beforeTake = true) := by
  revert hp hplaced
  fun_cases prog vtable self a h p
  case case15 d rc =>
      intro hp _
      obtain ⟨⟨h₁, d'⟩, htear, heq⟩ := Option.map_eq_some_iff.mp hp
      cases heq
      obtain ⟨-, -, hpending⟩ := teardownProg_frame htear
      exact ⟨by rintro ⟨⟩, fun hp => .inl (hpending.symm.trans hp)⟩
  case case16 c _ =>
      intro hp hplaced
      obtain ⟨⟨h₁, c'⟩, hcall, heq⟩ := Option.map_eq_some_iff.mp hp
      cases heq
      obtain ⟨-, -, hpending | rfl⟩ := callProg_frame hcall
      · exact ⟨by rintro ⟨⟩, fun hp => .inl (hpending.symm.trans hp)⟩
      · exact absurd hplaced (by simp [Phase.placed])
  case case17 owner c _ =>
      intro hp _
      obtain ⟨⟨h₁, c'⟩, -, heq⟩ := Option.map_eq_some_iff.mp hp
      cases heq
      exact ⟨fun _ => .inl rfl, fun _ => .inr rfl⟩
  case case8 | case18 => rintro ⟨⟩
  case case2 | case10 | case14 =>
      intro hp _
      cases hp
      split <;> simp_all [Phase.beforeTake]
  all_goals
    intro hp _
    cases hp
    simp_all [Phase.beforeTake]

end Program

variable {T : Type} [Fintype T] {vtable : MqttOps} {w w' : State T}

structure MarkerInv (w : State T) : Prop where
  marker : ∀ t, Marker t w.mem (w.phase t)
  owner : total Phase.cbOwner w.phase = w.mem.cbActive.toNat
  pending : w.mem.closePending = true → ∃ t, (w.phase t).beforeTake = true

theorem markerInv_of_initial (hinit : Initial w) : MarkerInv w := by
  refine ⟨fun t => ?_, ?_, ?_⟩
  · rw [hinit.out t, hinit.handle]
    exact ⟨nofun, by simp [Phase.marked], rfl⟩
  · rw [hinit.handle]
    exact (total_eq_zero _ _).mpr fun t => by rw [hinit.out t]; rfl
  · rw [hinit.handle]
    exact nofun

variable [DecidableEq T]

theorem MarkerInv.marker_step (hinv : MarkerInv w) {t : T} {a : Action} {h' : Handle T} {p' : Phase}
    (hp : prog vtable t a w.mem (w.phase t) = some (h', p'))
    (hguard : a = .close → w.mem.lifecycle = .opened → (w.phase t).unmarkedCallback = false) :
    ∀ u, Marker u h' (Function.update w.phase t p' u) := by
  obtain ⟨hmarker, hsum, hthread⟩ := prog_marker hp (hinv.marker t) hguard
  refine (Function.forall_update_iff w.phase fun u p => Marker u h' p).mpr ⟨hmarker, ?_⟩
  intro u hu
  obtain ⟨hactive, hmarked, hplaced⟩ := hinv.marker u
  have howner := hinv.owner
  have htwo := total_of_two Phase.cbOwner w.phase (Ne.symm hu)
  have hone : w.mem.cbActive.toNat ≤ 1 := Bool.toNat_le _
  refine ⟨?_, ?_, hplaced⟩
  · -- an owner keeps `cb_active` set: nobody else can clear it
    intro hpos
    have hset : 0 < h'.cbActive.toNat := by
      rw [hactive hpos, Bool.toNat_true] at hsum howner
      omega
    cases hnew : h'.cbActive with
    | false =>
        rw [hnew] at hset
        cases hset
    | true => rfl
  · rcases hthread with hsame | ⟨hone', hnew⟩
    · rw [hsame]
      exact hmarked
    · -- the thread that moves `cb_thread` owns the marker, so `u` does not
      have hmine : (w.phase u).marked = false := by
        cases hm : (w.phase u).marked with
        | false => rfl
        | true =>
            have hown := cbOwner_of_marked hm
            omega
      rw [hmine]
      rcases hnew with hnew | hnew <;> simp [hnew, Ne.symm hu]

omit [DecidableEq T] in
theorem Recognised.close {t : T} {a : Action} (h : Recognised (t, a) w) (ha : a = .close)
    (hopen : w.mem.lifecycle = .opened) : (w.phase t).unmarkedCallback = false := by
  subst ha
  exact h hopen

theorem markerInv_step (a : T × Action) (hguard : Recognised a w)
    (h : mqttStep vtable a w = some w') (hinv : MarkerInv w) : MarkerInv w' := by
  obtain ⟨t, a⟩ := a
  obtain ⟨h', p', hp, rfl⟩ := step_eq_some.mp h
  obtain ⟨-, hsum, -⟩ := prog_marker hp (hinv.marker t) hguard.close
  obtain ⟨hkeep, hset⟩ := prog_pending hp (hinv.marker t).placed
  refine ⟨hinv.marker_step hp hguard.close, ?_, ?_⟩
  · have hupdate := total_update Phase.cbOwner w.phase t p'
    have howner := hinv.owner
    change total Phase.cbOwner (Function.update w.phase t p') = h'.cbActive.toNat
    omega
  · intro hpending
    change ∃ u, (Function.update w.phase t p' u).beforeTake = true
    have hmine : p'.beforeTake = true → ∃ u, (Function.update w.phase t p' u).beforeTake = true :=
      fun htake => ⟨t, by rwa [Function.update_self]⟩
    rcases hset hpending with hold | htake
    · obtain ⟨u, hu⟩ := hinv.pending hold
      by_cases hut : u = t
      · subst hut
        rcases hkeep hu with htake | hnone
        · exact hmine htake
        · rw [show h'.closePending = true from hpending] at hnone
          cases hnone
      · exact ⟨u, by rwa [Function.update_of_ne hut]⟩
    · exact hmine htake

end AlpSdk.Mqtt
