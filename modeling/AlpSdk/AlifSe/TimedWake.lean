import AlpSdk.AlifSe.Attribution
import AlpSdk.Rv3028c7.Countdown

-- The length of a timed wake: what is asked, what is programmed and what the record tells.
namespace AlpSdk.AlifSe

open SomPower (Mode Record)
open Library.Effect (Exec)
open Rv3028c7 (Part part timerStart countdown timerTicksToMs Started wp_timerStart)

-- The fastest rate assumed for the clock of the LPTIMER.
def fastestHz (lfxo : Bool) : Nat := if lfxo then 32775 else 36045

-- The LPTIMER runs for `ms` at its fastest, and the count is the exact one rounded up.
structure LptimerTrue (ms armedMs : UInt32) (plan : Plan) : Prop where
  exact : plan.lptimerTicks.toNat = (ms.toNat * fastestHz plan.lfxo + 999) / 1000
  late : ms.toNat * fastestHz plan.lfxo ≤ plan.lptimerTicks.toNat * 1000
  armed : armedMs.toNat = plan.lptimerTicks.toNat * 1000 / fastestHz plan.lfxo

-- The countdown runs for `ms`, and the record tells the length that is programmed.
structure CountdownTrue (ms armedMs : UInt32) (plan : Plan) : Prop where
  exact : plan.rtcSeconds.toNat = (ms.toNat + 999) / 1000
  programs : ∃ td n, countdown plan.rtcSeconds = some (td, n) ∧ n.toNat < 4096 ∧
    ms.toNat ≤ timerTicksToMs td n.toNat ∧ armedMs.toNat = timerTicksToMs td n.toNat
  started : ∀ (p p' : Part) (actual : UInt32),
    Exec part p (timerStart plan.rtcSeconds) (some (.ok actual)) p' →
      ms.toNat ≤ p'.countdownMs ∧ armedMs.toNat = p'.countdownMs ∧ armedMs.toNat = actual.toNat * 1000

structure TimedWakeTrue (ms : UInt32) (plan : Plan) (record : Record) : Prop where
  notEarly : ms.toNat ≤ record.armedMs.toNat
  short : ms < lptimerMaxMs → LptimerTrue ms record.armedMs plan
  long : ¬ ms < lptimerMaxMs → CountdownTrue ms record.armedMs plan

-- The lengths for which the chain of roundings is true: below a second, or a number of seconds that is
-- reached without a wrap and that the countdown can count in the tick it chooses.
def Countable (ms : UInt32) : Prop :=
  ms.toNat < 1000 ∨
    ms.toNat + 999 < 2 ^ 32 ∧ ((ms.toNat + 999) / 1000 ≤ 4095 ∨ (ms.toNat + 999) / 1000 % 60 = 0)

variable {hw : Hw} {bitmap : Word} {ms : UInt32} {mode : Mode} {lfxo : Bool} {blocks : Word} {plan : Plan}

-- What the plan holds of the length asked for.
structure Lengths (ms : UInt32) (lfxo : Bool) (plan : Plan) : Prop where
  clock : plan.lfxo = lfxo
  short : ms < lptimerMaxMs → plan.armedMs = ms ∧
    plan.lptimerTicks = ((ms.toUInt64 * (if lfxo then lfxoHzMax else lfrcHzMax) + 999) / 1000).toUInt32
  long : ¬ ms < lptimerMaxMs → plan.rtcSeconds = (ms + 999) / 1000 ∧ plan.rtcSeconds ≤ timerMaxSeconds ∧
    plan.armedMs = plan.rtcSeconds * 1000

theorem planTimed_lengths {start timed : Plan} (hms : ms ≠ 0) (h : planTimed hw ms start = .ok timed) :
    Lengths ms start.lfxo timed := by
  unfold planTimed at h
  rw [if_neg hms] at h
  split at h
  next hshort =>
      split at h
      · cases h
      · cases h
        exact ⟨rfl, fun _ => ⟨rfl, rfl⟩, fun hlong => absurd hshort hlong⟩
  next hlong =>
      split at h
      · cases h
      · dsimp only at h
        split at h
        · cases h
        next hmax =>
            cases h
            exact ⟨rfl, fun hshort => absurd hshort hlong, fun _ => ⟨rfl, UInt32.not_lt.mp hmax, rfl⟩⟩

theorem Lengths.keep {plan plan' : Plan} (h : Lengths ms lfxo plan) (hlfxo : plan'.lfxo = plan.lfxo)
    (hticks : plan'.lptimerTicks = plan.lptimerTicks) (hseconds : plan'.rtcSeconds = plan.rtcSeconds)
    (harmed : plan'.armedMs = plan.armedMs) : Lengths ms lfxo plan' where
  clock := hlfxo.trans h.clock
  short := by
    rw [harmed, hticks]
    exact h.short
  long := by
    rw [harmed, hseconds]
    exact h.long

theorem planWake_lengths (hms : ms ≠ 0) (h : planWake hw bitmap ms (Plan.start mode lfxo blocks) = .ok plan) :
    Lengths ms lfxo plan := by
  obtain ⟨timed, asked, htimed, hasked, rfl⟩ := planWake_ok h
  have hlengths : Lengths ms lfxo timed := planTimed_lengths hms htimed
  have hpads : Lengths ms lfxo (planPads hw bitmap (planTimedBit bitmap ms timed)) := by
    rw [planPads_eq, planTimedBit_eq]
    exact hlengths.keep rfl rfl rfl rfl
  have hrtc : Lengths ms lfxo asked := by
    unfold planRtc at hasked
    dsimp only at hasked
    split at hasked
    · split at hasked
      · cases hasked
        exact hpads.keep rfl rfl rfl rfl
      · split at hasked
        · cases hasked
        · cases hasked
          exact hpads.keep rfl rfl rfl rfl
    · cases hasked
      exact hpads.keep rfl rfl rfl rfl
  rw [planExtEvent_eq]
  exact hrtc.keep rfl rfl rfl rfl

theorem lt_lptimerMaxMs : ms < lptimerMaxMs ↔ ms.toNat < 1000 := by
  rw [UInt32.lt_iff_toNat_lt]
  rfl

theorem lptimerTrue (hshort : ms < lptimerMaxMs) (h : Lengths ms lfxo plan) :
    LptimerTrue ms plan.armedMs plan := by
  obtain ⟨harmed, hticks⟩ := h.short hshort
  rw [lt_lptimerMaxMs] at hshort
  have hrate : (if lfxo then lfxoHzMax else lfrcHzMax).toNat = fastestHz plan.lfxo := by
    rw [h.clock]
    cases lfxo <;> rfl
  have hrange : 32775 ≤ fastestHz plan.lfxo ∧ fastestHz plan.lfxo ≤ 36045 := by
    unfold fastestHz
    split <;> omega
  have hproduct : ms.toNat * fastestHz plan.lfxo ≤ 36008955 :=
    (Nat.mul_le_mul (Nat.le_of_lt_succ hshort) hrange.2).trans (by decide)
  have hmul : (ms.toUInt64 * (if lfxo then lfxoHzMax else lfrcHzMax)).toNat = ms.toNat * fastestHz plan.lfxo := by
    rw [UInt64.toNat_mul, hrate, UInt32.toNat_toUInt64]
    exact Nat.mod_eq_of_lt (by omega)
  have hsum : (ms.toUInt64 * (if lfxo then lfxoHzMax else lfrcHzMax) + 999).toNat =
      ms.toNat * fastestHz plan.lfxo + 999 := by
    have h999 : (999 : UInt64).toNat = 999 := rfl
    rw [UInt64.toNat_add, hmul, h999]
    exact Nat.mod_eq_of_lt (by omega)
  have hexact : plan.lptimerTicks.toNat = (ms.toNat * fastestHz plan.lfxo + 999) / 1000 := by
    have h1000 : (1000 : UInt64).toNat = 1000 := rfl
    rw [hticks, UInt64.toNat_toUInt32, UInt64.toNat_div, hsum, h1000]
    exact Nat.mod_eq_of_lt (by omega)
  refine ⟨hexact, by omega, ?_⟩
  -- a tick is shorter than a millisecond, so the rounding up does not show in whole milliseconds
  rw [harmed]
  have hlow : ms.toNat * fastestHz plan.lfxo ≤ plan.lptimerTicks.toNat * 1000 := by omega
  have hhigh : plan.lptimerTicks.toNat * 1000 < (ms.toNat + 1) * fastestHz plan.lfxo := by
    rw [Nat.add_mul, Nat.one_mul]
    omega
  exact (Nat.div_eq_of_lt_le hlow hhigh).symm

-- The seconds of a countdown, and where their computation wraps.
theorem seconds_toNat (ms : UInt32) : ((ms + 999) / 1000).toNat = (ms.toNat + 999) % 2 ^ 32 / 1000 := by
  rw [UInt32.toNat_div, UInt32.toNat_add]
  rfl

theorem countdownTrue_iff (hlong : ¬ ms < lptimerMaxMs) (h : Lengths ms lfxo plan) :
    CountdownTrue ms plan.armedMs plan ↔ Countable ms := by
  obtain ⟨hseconds, hmax, harmed⟩ := h.long hlong
  rw [lt_lptimerMaxMs] at hlong
  have hbound : plan.rtcSeconds.toNat ≤ 245700 := UInt32.le_iff_toNat_le.mp hmax
  have hms : plan.armedMs.toNat = plan.rtcSeconds.toNat * 1000 := by
    have h1000 : (1000 : UInt32).toNat = 1000 := rfl
    rw [harmed, UInt32.toNat_mul, h1000]
    exact Nat.mod_eq_of_lt (by omega)
  have hvalue : plan.rtcSeconds.toNat = (ms.toNat + 999) % 2 ^ 32 / 1000 := by
    rw [hseconds, seconds_toNat]
  have hrange := ms.toNat_lt
  constructor
  · rintro ⟨hexact, ⟨td, n, hcount, -, -, htold⟩, -⟩
    have hwrap : ms.toNat + 999 < 2 ^ 32 := by omega
    obtain ⟨-, -, ⟨h4095, -, -⟩ | ⟨-, rfl, hn⟩⟩ := Rv3028c7.countdown_eq_some hcount
    · exact .inr ⟨hwrap, .inl (by omega)⟩
    · have hlength : timerTicksToMs Rv3028c7.TD_1_60HZ n.toNat = n.toNat * 60000 := rfl
      exact .inr ⟨hwrap, .inr (by omega)⟩
  · rintro (hshort | ⟨hwrap, hcounts⟩)
    · exact absurd hshort hlong
    · have hexact : plan.rtcSeconds.toNat = (ms.toNat + 999) / 1000 := by omega
      have hlength : ∀ td n, countdown plan.rtcSeconds = some (td, n) →
          n.toNat < 4096 ∧ timerTicksToMs td n.toNat = plan.rtcSeconds.toNat * 1000 := by
        intro td n hcount
        obtain ⟨-, -, ⟨h4095, rfl, hn⟩ | ⟨hminutes, rfl, hn⟩⟩ := Rv3028c7.countdown_eq_some hcount
        · have hticks : timerTicksToMs Rv3028c7.TD_1HZ n.toNat = n.toNat * 1000 := rfl
          omega
        · have hticks : timerTicksToMs Rv3028c7.TD_1_60HZ n.toNat = n.toNat * 60000 := rfl
          omega
      obtain ⟨td, n, hcount⟩ := 
        Rv3028c7.countdown_isSome (show 0 < plan.rtcSeconds.toNat by omega) hbound
      refine ⟨hexact, ⟨td, n, hcount, (hlength td n hcount).1, ?_, ?_⟩, fun p p' actual hexec => ?_⟩
      · have htold := (hlength td n hcount).2
        omega
      · have htold := (hlength td n hcount).2
        omega
      · obtain ⟨-, -, hdone⟩ := Library.Fallible.wp_sound hexec wp_timerStart
        obtain ⟨-, -, td', n', hcount', -, hpreset, hactual⟩ := hdone actual rfl
        have htold := (hlength td' n' hcount').2
        omega

section Record

variable (rec : Record) (resetSyndromeTrusted : Bool) (seconds : Option UInt32) (ccvr : UInt32)

theorem countable_of_timedWakeTrue (h : Lengths ms lfxo plan)
    (htrue : TimedWakeTrue ms plan (saveCycleRecord rec plan resetSyndromeTrusted seconds ccvr)) :
    Countable ms := by
  by_cases hshort : ms < lptimerMaxMs
  · exact .inl (lt_lptimerMaxMs.mp hshort)
  · exact (countdownTrue_iff hshort h).mp (htrue.long hshort)

theorem timedWakeTrue_of_countable (h : Lengths ms lfxo plan) (hcountable : Countable ms) :
    TimedWakeTrue ms plan (saveCycleRecord rec plan resetSyndromeTrusted seconds ccvr) := by
  have hrecord : (saveCycleRecord rec plan resetSyndromeTrusted seconds ccvr).armedMs = plan.armedMs := rfl
  refine ⟨?_, fun hshort => lptimerTrue hshort h, fun hlong => (countdownTrue_iff hlong h).mpr hcountable⟩
  rw [hrecord]
  by_cases hshort : ms < lptimerMaxMs
  · rw [(h.short hshort).1]
  · obtain ⟨-, ⟨td, n, -, -, hlate, htold⟩, -⟩ := (countdownTrue_iff hshort h).mpr hcountable
    omega

-- A plan with a timed wake lasts as long as was asked, and its record says how long, if and only if the
-- length asked for is countable.
theorem timed_wake_true_iff (h : planWake hw bitmap ms (Plan.start mode lfxo blocks) = .ok plan) (hms : ms ≠ 0) :
    TimedWakeTrue ms plan (saveCycleRecord rec plan resetSyndromeTrusted seconds ccvr) ↔ Countable ms :=
  ⟨countable_of_timedWakeTrue rec resetSyndromeTrusted seconds ccvr (planWake_lengths hms h),
    timedWakeTrue_of_countable rec resetSyndromeTrusted seconds ccvr (planWake_lengths hms h)⟩

end Record

-- STOP with a countdown of so many seconds, for TIMER.
def countdownPlan (rtcSeconds : UInt32) : Plan where
  mode := .stop
  wake := wakeTimer
  hw := armRtcTimer
  lptimerTicks := 0
  rtcSeconds := rtcSeconds
  armedMs := rtcSeconds * 1000
  timedBit := wakeTimer
  keepAlarm := false
  pads := 0
  lfxo := false
  memoryBlocks := 0

-- Two hours are 120 minutes.
theorem timed_wake_true_iff_hours :
    TimedWakeTrue 7200000 (countdownPlan 7200)
      (saveCycleRecord .zero (countdownPlan 7200) true (some 1000) 0) := by
  have hplan : planWake alarmBoard wakeTimer 7200000 (Plan.start .stop false 0) = .ok (countdownPlan 7200) := by rfl
  refine (timed_wake_true_iff .zero true (some 1000) 0 hplan (by decide)).mpr (.inr ⟨by decide, .inr (by decide)⟩)

-- 4096 seconds are counted as 69 minutes and recorded as 4096 seconds; from 2^32 - 999 ms on the seconds wrap.
theorem timed_wake_misjudged :
    (∃ plan, planWake alarmBoard wakeTimer 4096000 (Plan.start .stop false 0) = .ok plan ∧
      ¬ TimedWakeTrue 4096000 plan (saveCycleRecord .zero plan true (some 1000) 0)) ∧
    ∃ plan, planWake alarmBoard wakeTimer 4294967295 (Plan.start .stop false 0) = .ok plan ∧
      plan.rtcSeconds = 0 ∧ ¬ TimedWakeTrue 4294967295 plan (saveCycleRecord .zero plan true (some 1000) 0) := by
  have hminutes : planWake alarmBoard wakeTimer 4096000 (Plan.start .stop false 0) = .ok (countdownPlan 4096) := by
    rfl
  have hwrapped : planWake alarmBoard wakeTimer 4294967295 (Plan.start .stop false 0) = .ok (countdownPlan 0) := by
    rfl
  refine ⟨⟨_, hminutes, fun htrue => ?_⟩, ⟨_, hwrapped, rfl, fun htrue => ?_⟩⟩
  · obtain hshort | ⟨-, hcounts⟩ := countable_of_timedWakeTrue _ _ _ _ (planWake_lengths (by decide) hminutes) htrue
    · exact absurd hshort (by decide)
    · exact absurd hcounts (by decide)
  · obtain hshort | ⟨hwrap, -⟩ := countable_of_timedWakeTrue _ _ _ _ (planWake_lengths (by decide) hwrapped) htrue
    · exact absurd hshort (by decide)
    · exact absurd hwrap (by decide)

end AlpSdk.AlifSe
