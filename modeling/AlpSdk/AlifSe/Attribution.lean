import AlpSdk.AlifSe

namespace AlpSdk.AlifSe

open Library.Flags
open SomPower (Mode Policy Record)

variable {hw : Hw} {bitmap : Word} {ms : UInt32} {mode : Mode} {lfxo : Bool} {blocks : Word}
  {plan : Plan}

-- What a timed wake arms, by its length.
def timedHw (wakeAfterMs : UInt32) : Word :=
  if wakeAfterMs = 0 then 0#32 else if wakeAfterMs < lptimerMaxMs then armLptimer else armRtcTimer

-- The source a timed wake reports.
def timedSource (bitmap : Word) (wakeAfterMs : UInt32) : Word :=
  if wakeAfterMs = 0 then 0#32
  else if Meets bitmap wakeRtc ∧ ¬ Meets bitmap wakeTimer then wakeRtc
  else wakeTimer

-- What an accepted plan arms, in terms of what was asked.
structure Planned (bitmap : Word) (wakeAfterMs : UInt32) (plan : Plan) : Prop where
  hw : plan.hw = timedHw wakeAfterMs
    ||| (if Meets bitmap wakeGpio then armLpgpio else 0#32)
    ||| (if Meets bitmap wakeRtc ∧ wakeAfterMs < lptimerMaxMs then armRtcInt else 0#32)
    ||| (if Meets bitmap wakeExtEvent then armRtcEvi else 0#32)
  timedBit : plan.timedBit = timedSource bitmap wakeAfterMs
  wake : plan.wake = timedSource bitmap wakeAfterMs
    ||| (if Meets bitmap wakeGpio then wakeGpio else 0#32)
    ||| (if Meets bitmap wakeRtc then wakeRtc else 0#32)
    ||| (if Meets bitmap wakeExtEvent then wakeExtEvent else 0#32)
  padsAsked : ¬ Meets bitmap wakeGpio → plan.pads = 0#32
  padsNarrow : Within plan.pads padsMask

theorem planTimed_ok {hw : Hw} {ms : UInt32} {plan timed : Plan}
    (h : planTimed hw ms plan = .ok timed) :
    timed.hw = plan.hw ||| timedHw ms ∧ timed.wake = plan.wake ∧ timed.timedBit = plan.timedBit
      ∧ timed.pads = plan.pads := by
  unfold planTimed at h
  split at h
  case isTrue hms =>
    cases h
    simp [timedHw, hms]
  case isFalse hms =>
    split at h
    case isTrue hshort =>
      split at h
      case isTrue => cases h
      case isFalse =>
        cases h
        simp [timedHw, hms, hshort]
    case isFalse hlong =>
      split at h
      case isTrue => cases h
      case isFalse =>
        dsimp only at h
        split at h
        case isTrue => cases h
        case isFalse =>
          cases h
          simp [timedHw, hms, hlong]

theorem planTimedBit_eq (bitmap : Word) (ms : UInt32) (plan : Plan) :
    planTimedBit bitmap ms plan = { plan with
      timedBit := if ms = 0 then plan.timedBit else timedSource bitmap ms
      wake := plan.wake ||| timedSource bitmap ms } := by
  unfold planTimedBit timedSource
  by_cases hms : ms = 0
  · simp [hms]
  · simp [hms]

theorem planPads_eq (hw : Hw) (bitmap : Word) (plan : Plan) :
    planPads hw bitmap plan = { plan with
      pads := if Meets bitmap wakeGpio then usableWakePads hw else plan.pads
      hw := plan.hw ||| (if Meets bitmap wakeGpio then armLpgpio else 0#32)
      wake := plan.wake ||| (if Meets bitmap wakeGpio then wakeGpio else 0#32) } := by
  unfold planPads
  by_cases hgpio : Meets bitmap wakeGpio
  · simp [hgpio]
  · simp [hgpio]

theorem planRtc_ok {hw : Hw} {bitmap : Word} {plan asked : Plan}
    (h : planRtc hw bitmap plan = .ok asked) :
    asked = { plan with
      keepAlarm := decide (Meets bitmap wakeRtc)
      hw := plan.hw |||
        (if Meets bitmap wakeRtc ∧ ¬ Meets plan.hw armRtcTimer then armRtcInt else 0#32)
      wake := plan.wake ||| (if Meets bitmap wakeRtc then wakeRtc else 0#32) } := by
  unfold planRtc at h
  dsimp only at h
  split at h
  case isTrue hrtc =>
    split at h
    case isTrue htimer =>
      cases h
      simp [hrtc, htimer]
    case isFalse htimer =>
      split at h
      case isTrue => cases h
      case isFalse =>
        cases h
        simp [hrtc, htimer]
  case isFalse hrtc =>
    cases h
    simp [hrtc]

theorem planExtEvent_eq (bitmap : Word) (plan : Plan) :
    planExtEvent bitmap plan = { plan with
      hw := plan.hw ||| (if Meets bitmap wakeExtEvent then armRtcEvi else 0#32)
      wake := plan.wake ||| (if Meets bitmap wakeExtEvent then wakeExtEvent else 0#32) } := by
  unfold planExtEvent
  by_cases hevent : Meets bitmap wakeExtEvent
  · simp [hevent]
  · simp [hevent]

-- An accepted plan has gone through every stage.
theorem planWake_ok {hw : Hw} {bitmap : Word} {ms : UInt32} {start plan : Plan}
    (h : planWake hw bitmap ms start = .ok plan) :
    ∃ timed asked, planTimed hw ms start = .ok timed
      ∧ planRtc hw bitmap (planPads hw bitmap (planTimedBit bitmap ms timed)) = .ok asked
      ∧ plan = planExtEvent bitmap asked := by
  unfold planWake at h
  split at h
  case isTrue => cases h
  case isFalse =>
    split at h
    case isTrue => cases h
    case isFalse =>
      split at h
      case isTrue => cases h
      case isFalse =>
        cases htimed : planTimed hw ms start with
        | error e =>
            rw [htimed] at h
            cases h
        | ok timed =>
            rw [htimed] at h
            simp only [bind, Except.bind] at h
            split at h
            case h_1 => cases h
            case h_2 asked hasked =>
              split at h
              case isTrue => cases h
              case isFalse =>
                cases h
                exact ⟨timed, asked, rfl, hasked, rfl⟩

theorem meets_timedHw_lptimer : Meets (timedHw ms) armLptimer ↔ ms ≠ 0 ∧ ms < lptimerMaxMs := by
  unfold timedHw
  by_cases hms : ms = 0
  · simp [hms, not_meets_zero_left]
  · by_cases hshort : ms < lptimerMaxMs
    · simp +decide [hms, hshort]
    · simp +decide [hms, hshort]

theorem meets_timedHw_rtcTimer : Meets (timedHw ms) armRtcTimer ↔ ¬ ms < lptimerMaxMs := by
  unfold timedHw
  by_cases hms : ms = 0
  · simp +decide [hms, not_meets_zero_left]
  · by_cases hshort : ms < lptimerMaxMs
    · simp +decide [hms, hshort]
    · simp +decide [hms, hshort]

theorem not_meets_timedHw {m : Word} (hlptimer : ¬ Meets armLptimer m)
    (hrtc : ¬ Meets armRtcTimer m) : ¬ Meets (timedHw ms) m := by
  unfold timedHw
  split
  case isTrue => exact not_meets_zero_left
  case isFalse =>
    split
    case isTrue => exact hlptimer
    case isFalse => exact hrtc

theorem padsMask_getLsbD (i : Nat) : padsMask.getLsbD i = decide (i < 8) := by
  by_cases hi : i < 32
  · revert i
    decide
  · rw [BitVec.getLsbD_of_ge _ _ (by omega)]
    symm
    rw [decide_eq_false_iff_not]
    omega

theorem usableWakePads_within (hw : Hw) : Within (usableWakePads hw) padsMask := by
  unfold usableWakePads
  dsimp only
  split
  case isTrue => decide
  case isFalse =>
    apply BitVec.eq_of_getLsbD_eq
    intro i hi
    rw [BitVec.getLsbD_and, padsMask_getLsbD, BitVec.getLsbD_setWidth]
    cases hbit : hw.wakePadMask.getLsbD i with
    | false => simp
    | true => simp [BitVec.lt_of_getLsbD hbit]

theorem planned_of_planWake (h : planWake hw bitmap ms (Plan.start mode lfxo blocks) = .ok plan) :
    Planned bitmap ms plan := by
  obtain ⟨timed, asked, htimed, hasked, rfl⟩ := planWake_ok h
  obtain ⟨hhw, hwake, hbit, hpads⟩ := planTimed_ok htimed
  have hasked := planRtc_ok hasked
  have hcountdown : Meets (timed.hw ||| if Meets bitmap wakeGpio then armLpgpio else 0#32)
      armRtcTimer ↔ ¬ ms < lptimerMaxMs := by
    rw [meets_or_left, hhw, meets_or_left, meets_timedHw_rtcTimer, meets_ite]
    simp +decide [Plan.start, not_meets_zero_left]
  simp only [planTimedBit_eq, planPads_eq, hcountdown, not_not] at hasked
  subst hasked
  rw [planExtEvent_eq]
  constructor
  · simp [hhw, Plan.start]
  · by_cases hms : ms = 0
    · simp [hms, hbit, Plan.start, timedSource]
    · simp [hms]
  · simp [hwake, Plan.start]
  · intro hgpio
    simp [hgpio, hpads, Plan.start]
  · by_cases hgpio : Meets bitmap wakeGpio
    · simpa [hgpio] using usableWakePads_within hw
    · simp [hgpio, hpads, Plan.start, within_zero]

namespace Planned

theorem meets_lptimer (planned : Planned bitmap ms plan) :
    Meets plan.hw armLptimer ↔ ms ≠ 0 ∧ ms < lptimerMaxMs := by
  rw [planned.hw, meets_or_left, meets_or_left, meets_or_left, meets_timedHw_lptimer]
  simp +decide [meets_ite]

theorem meets_rtcTimer (planned : Planned bitmap ms plan) :
    Meets plan.hw armRtcTimer ↔ ¬ ms < lptimerMaxMs := by
  rw [planned.hw, meets_or_left, meets_or_left, meets_or_left, meets_timedHw_rtcTimer]
  simp +decide [meets_ite]

theorem meets_rtcInt (planned : Planned bitmap ms plan) :
    Meets plan.hw armRtcInt ↔ Meets bitmap wakeRtc ∧ ms < lptimerMaxMs := by
  have htimed : ¬ Meets (timedHw ms) armRtcInt := not_meets_timedHw (by decide) (by decide)
  rw [planned.hw, meets_or_left, meets_or_left, meets_or_left]
  simp +decide [meets_ite, htimed]

theorem meets_lpgpio (planned : Planned bitmap ms plan) :
    Meets plan.hw armLpgpio ↔ Meets bitmap wakeGpio := by
  have htimed : ¬ Meets (timedHw ms) armLpgpio := not_meets_timedHw (by decide) (by decide)
  rw [planned.hw, meets_or_left, meets_or_left, meets_or_left]
  simp +decide [meets_ite, htimed]

theorem meets_rtcEvi (planned : Planned bitmap ms plan) :
    Meets plan.hw armRtcEvi ↔ Meets bitmap wakeExtEvent := by
  have htimed : ¬ Meets (timedHw ms) armRtcEvi := not_meets_timedHw (by decide) (by decide)
  rw [planned.hw, meets_or_left, meets_or_left, meets_or_left]
  simp +decide [meets_ite, htimed]

theorem hw_within (planned : Planned bitmap ms plan) : Within plan.hw padsMask := by
  have htimed : Within (timedHw ms) padsMask := by
    unfold timedHw
    by_cases hms : ms = 0
    · simp +decide [hms]
    · by_cases hshort : ms < lptimerMaxMs
      · simp +decide [hms, hshort]
      · simp +decide [hms, hshort]
  rw [planned.hw]
  simp only [within_or]
  refine ⟨⟨⟨htimed, within_ite fun _ => ?_⟩, within_ite fun _ => ?_⟩, within_ite fun _ => ?_⟩
  all_goals decide

end Planned

theorem within_padsMask {v : Word} (h : Within v padsMask) {i : Nat} (hi : 8 ≤ i) :
    v.getLsbD i = false := by
  rw [← h, BitVec.getLsbD_and, padsMask_getLsbD]
  have : ¬ i < 8 := by omega
  simp [this]

theorem not_meets_shifted {v m : Word} (hm : Within m padsMask) :
    ¬ Meets ((v &&& padsMask) <<< armPadsShift) m := by
  rw [Meets, not_not]
  apply BitVec.eq_of_getLsbD_eq
  intro i hi
  by_cases hlow : i < 16
  · simp [armPadsShift, hlow]
  · rw [BitVec.getLsbD_and, within_padsMask hm (by omega)]
    simp

variable {rec : Record} {trusted : Bool} {seconds : Option UInt32} {ccvr : UInt32}

-- The flags of a record below its pads are those of the plan.
theorem meets_saved {m : Word} (hm : Within m padsMask) :
    Meets (saveCycleRecord rec plan trusted seconds ccvr).armedHw m ↔ Meets plan.hw m := by
  have hpads : Meets (plan.hw ||| (plan.pads &&& padsMask) <<< armPadsShift) m ↔
      Meets plan.hw m := by
    rw [meets_or_left]
    simp [not_meets_shifted hm]
  have htrusted : ¬ Meets recNsrstTrusted m := by
    rw [Meets, not_not, ← hm, BitVec.and_comm m, ← BitVec.and_assoc]
    have : recNsrstTrusted &&& padsMask = 0#32 := by decide
    simp [this]
  unfold saveCycleRecord
  dsimp only
  split
  case isTrue => rw [meets_or_left, hpads, or_iff_left htrusted]
  case isFalse => exact hpads

theorem saved_pads (hhw : Within plan.hw padsMask) (hpads : Within plan.pads padsMask) :
    ((saveCycleRecord rec plan trusted seconds ccvr).armedHw >>> armPadsShift) &&& padsMask
      = plan.pads := by
  have hbits : ∀ i, i < 8 →
      (plan.hw ||| (plan.pads &&& padsMask) <<< armPadsShift).getLsbD (16 + i)
        = plan.pads.getLsbD i := by
    intro i hi
    rw [hpads, BitVec.getLsbD_or, within_padsMask hhw (by omega)]
    simp [armPadsShift]
    omega
  have htrusted : ∀ i, i < 8 → recNsrstTrusted.getLsbD (16 + i) = false := by
    decide
  apply BitVec.eq_of_getLsbD_eq
  intro i hi
  rw [BitVec.getLsbD_and, padsMask_getLsbD, BitVec.getLsbD_ushiftRight]
  by_cases hlow : i < 8
  · unfold saveCycleRecord armPadsShift
    dsimp only
    split
    case isTrue =>
      rw [BitVec.getLsbD_or, htrusted i hlow]
      simpa [hlow, armPadsShift] using hbits i hlow
    case isFalse => simpa [hlow, armPadsShift] using hbits i hlow
  · rw [within_padsMask hpads (by omega)]
    simp [hlow]

variable {latches : Latches} {clocks : Clocks}

-- The record as the boot decodes it, up to the elapsed-time gate.
def served (rec : Record) (latches : Latches) (clocks : Clocks) : Record :=
  serveRecord (wakeDecodeEarly rec latches) latches clocks

theorem gpio_saved (planned : Planned bitmap ms plan) :
    (Meets (saveCycleRecord rec plan trusted seconds ccvr).armedHw armLpgpio
      ∧ Meets latches.pads
        (((saveCycleRecord rec plan trusted seconds ccvr).armedHw >>> armPadsShift) &&& padsMask))
      ↔ (plan.pads ≠ 0#32 ∧ Meets latches.pads plan.pads) := by
  rw [meets_saved (by decide), saved_pads planned.hw_within planned.padsNarrow,
    planned.meets_lpgpio]
  constructor
  · rintro ⟨_, hlatched⟩
    refine ⟨?_, hlatched⟩
    intro hnone
    rw [hnone] at hlatched
    simp [Meets] at hlatched
  · rintro ⟨hpads, hlatched⟩
    refine ⟨?_, hlatched⟩
    by_contra hgpio
    exact hpads (planned.padsAsked hgpio)

variable (rec trusted seconds ccvr latches clocks) in
-- The record says of the flags what the plan says of them.
theorem served_eq_fired (planned : Planned bitmap ms plan) :
    (served (saveCycleRecord rec plan trusted seconds ccvr) latches clocks).wakeSource
      = firedSources plan latches := by
  have hsaved : ∀ {m}, Within m padsMask →
      (Meets (saveCycleRecord rec plan trusted seconds ccvr).armedHw m ↔ Meets plan.hw m) :=
    meets_saved
  have hbit : (saveCycleRecord rec plan trusted seconds ccvr).timedBit = plan.timedBit := rfl
  have hnone : (saveCycleRecord rec plan trusted seconds ccvr).wakeSource = 0#32 := rfl
  simp only [served, serveRecord, wakeDecodeEarly, decodeRtc, firedSources, hnone, hbit,
    hsaved (m := armLptimer) (by decide), hsaved (m := armRtcTimer) (by decide),
    hsaved (m := armRtcEvi) (by decide), hsaved (m := armRtcAny) (by decide),
    hsaved (m := armRtcTimer ||| armRtcInt) (by decide), gpio_saved planned, BitVec.zero_or]
  rw [BitVec.or_assoc, BitVec.or_assoc, BitVec.or_comm (if plan.pads ≠ 0#32 ∧ _ then _ else _)]

variable (rec trusted seconds ccvr latches clocks) in
theorem tooLate_served (planned : Planned bitmap ms plan) :
    tooLate (served (saveCycleRecord rec plan trusted seconds ccvr) latches clocks) clocks ↔
      Meets plan.hw armLptimer ∧ plan.timedBit ≠ 0#32
        ∧ Meets (firedSources plan latches) plan.timedBit ∧ ¬ Meets plan.hw armRtcTimer
        ∧ elapsedLbMs (saveCycleRecord rec plan trusted seconds ccvr) clocks
          > plan.armedMs + wakeLatencyMs := by
  unfold tooLate
  rw [served_eq_fired rec trusted seconds ccvr latches clocks planned]
  have hlptimer : Meets (saveCycleRecord rec plan trusted seconds ccvr).armedHw armLptimer ↔
    Meets plan.hw armLptimer := meets_saved (by decide)
  have hrtc : Meets (saveCycleRecord rec plan trusted seconds ccvr).armedHw armRtcTimer ↔
    Meets plan.hw armRtcTimer := meets_saved (by decide)
  rw [← hlptimer, ← hrtc]
  rfl

-- The wake source of the cold boot, unless the record is discarded.
def bootWakeSource (rec : Record) (latches : Latches) (clocks : Clocks) : Option Word :=
  match wakeDecodeI2c (wakeDecodeEarly rec latches) latches clocks with
  | (true, decoded) => some decoded.wakeSource
  | (false, _) => none

theorem bootWakeSource_eq (planned : Planned bitmap ms plan) {w : Word}
    (h : bootWakeSource (saveCycleRecord rec plan trusted seconds ccvr) latches clocks = some w) :
    w = if tooLate (served (saveCycleRecord rec plan trusted seconds ccvr) latches clocks) clocks
      then firedSources plan latches &&& ~~~plan.timedBit
      else firedSources plan latches := by
  have hfired := served_eq_fired rec trusted seconds ccvr latches clocks planned
  have hbit : (served (saveCycleRecord rec plan trusted seconds ccvr) latches clocks).timedBit
    = plan.timedBit := rfl
  unfold bootWakeSource wakeDecodeI2c at h
  split at h
  case h_2 => cases h
  case h_1 decoded hdecoded =>
    cases h
    split at hdecoded
    case isTrue => cases hdecoded
    case isFalse =>
      dsimp only at hdecoded
      rw [← served] at hdecoded
      split at hdecoded
      case isTrue hlate =>
        cases hdecoded
        rw [if_pos hlate, ← hfired, ← hbit]
      case isFalse hearly =>
        cases hdecoded
        rw [if_neg hearly, hfired]

-- The service reads the flags and acknowledges them.
def Latches.Heard (latches : Latches) : Prop :=
  rtcWakeService latches.rtc = .ok latches.rtc.flags

instance : Decidable latches.Heard := inferInstanceAs (Decidable (_ = _))

theorem rtcWakeService_flags {rtc : Rtc} {flags : BitVec 8} (h : rtcWakeService rtc = .ok flags) :
    flags = rtc.flags := by
  unfold rtcWakeService at h
  split at h
  case isTrue => cases h
  case isFalse =>
    split at h
    case isTrue => cases h
    case isFalse =>
      dsimp only at h
      split at h
      case isTrue => cases h; rfl
      case isFalse =>
        split at h
        case isTrue => cases h
        case isFalse => cases h; rfl

theorem meets_fired {k : Word} :
    Meets (firedSources plan latches) k ↔
      (Meets plan.hw armLptimer ∧ latches.lptimer ∧ Meets plan.timedBit k)
        ∨ (latches.Heard ∧
          ((Meets plan.hw (armRtcTimer ||| armRtcInt) ∧ Meets latches.rtc.flags (wakeTf ||| wakeAf)
              ∧ Meets (if Meets plan.hw armRtcTimer then plan.timedBit else wakeRtc) k)
            ∨ (Meets plan.hw armRtcEvi ∧ Meets latches.rtc.flags wakeEvf ∧ Meets wakeExtEvent k)))
        ∨ (Meets latches.pads plan.pads ∧ Meets wakeGpio k) := by
  have hpads : (plan.pads ≠ 0#32 ∧ Meets latches.pads plan.pads) ↔
      Meets latches.pads plan.pads := by
    constructor
    · exact And.right
    · intro hlatched
      refine ⟨?_, hlatched⟩
      intro hnone
      rw [hnone] at hlatched
      simp [Meets] at hlatched
  unfold firedSources
  rw [meets_or_left, meets_or_left, meets_ite, meets_ite, meets_ite, hpads, or_assoc, and_assoc]
  refine or_congr Iff.rfl (or_congr ?_ Iff.rfl)
  cases hservice : rtcWakeService latches.rtc with
  | error e =>
      have hdeaf : ¬ latches.Heard := by
        rw [Latches.Heard, hservice]
        exact fun h => by cases h
      simp [hdeaf, not_meets_zero_left]
  | ok flags =>
      have hheard : latches.Heard := by rw [Latches.Heard, ← rtcWakeService_flags hservice, hservice]
      have hflags := rtcWakeService_flags hservice
      subst hflags
      simp only [hheard, true_and, meets_or_left, meets_ite, and_assoc]
      simp only [armRtcAny, meets_or_right]
      grind

namespace Planned

theorem timedBit_cases (planned : Planned bitmap ms plan) :
    plan.timedBit = 0#32 ∨ plan.timedBit = wakeRtc ∨ plan.timedBit = wakeTimer := by
  rw [planned.timedBit]
  unfold timedSource
  split
  case isTrue => exact Or.inl rfl
  case isFalse =>
    split
    case isTrue => exact Or.inr (Or.inl rfl)
    case isFalse => exact Or.inr (Or.inr rfl)

theorem timedBit_eq_wakeRtc (planned : Planned bitmap ms plan) :
    plan.timedBit = wakeRtc ↔ ms ≠ 0 ∧ Meets bitmap wakeRtc ∧ ¬ Meets bitmap wakeTimer := by
  rw [planned.timedBit]
  unfold timedSource
  by_cases hms : ms = 0
  · simp +decide [hms]
  · by_cases hrtc : Meets bitmap wakeRtc ∧ ¬ Meets bitmap wakeTimer
    · simp [hms, hrtc]
    · simp +decide only [hms, hrtc, if_false, and_false]

theorem meets_timedBit (planned : Planned bitmap ms plan) {k : Word}
    (hk : k = wakeRtc ∨ k = wakeTimer ∨ k = wakeGpio ∨ k = wakeExtEvent) :
    Meets plan.timedBit k ↔ plan.timedBit = k := by
  obtain hbit | hbit | hbit := planned.timedBit_cases
  all_goals
    rw [hbit]
    obtain rfl | rfl | rfl | rfl := hk
  all_goals decide

theorem fired_gpio (planned : Planned bitmap ms plan) :
    Meets (firedSources plan latches) wakeGpio ↔ Meets latches.pads plan.pads := by
  have hbit : ¬ Meets plan.timedBit wakeGpio := by
    obtain hbit | hbit | hbit := planned.timedBit_cases
    all_goals
      rw [hbit]
      decide
  have hsource : ¬ Meets (if Meets plan.hw armRtcTimer then plan.timedBit else wakeRtc) wakeGpio := by
    split
    case isTrue => exact hbit
    case isFalse => decide
  rw [meets_fired]
  simp +decide [hbit, hsource]

theorem fired_extEvent (planned : Planned bitmap ms plan) :
    Meets (firedSources plan latches) wakeExtEvent ↔
      latches.Heard ∧ Meets plan.hw armRtcEvi ∧ Meets latches.rtc.flags wakeEvf := by
  have hbit : ¬ Meets plan.timedBit wakeExtEvent := by
    obtain hbit | hbit | hbit := planned.timedBit_cases
    all_goals
      rw [hbit]
      decide
  have hsource :
      ¬ Meets (if Meets plan.hw armRtcTimer then plan.timedBit else wakeRtc) wakeExtEvent := by
    split
    case isTrue => exact hbit
    case isFalse => decide
  rw [meets_fired]
  simp +decide [hbit, hsource]

theorem fired_rtc (planned : Planned bitmap ms plan) :
    Meets (firedSources plan latches) wakeRtc ↔
      (Meets plan.hw armLptimer ∧ latches.lptimer ∧ plan.timedBit = wakeRtc)
        ∨ (latches.Heard ∧ Meets latches.rtc.flags (wakeTf ||| wakeAf)
          ∧ ((Meets plan.hw armRtcTimer ∧ plan.timedBit = wakeRtc) ∨ Meets plan.hw armRtcInt)) := by
  have hkind : ¬ (Meets plan.hw armRtcTimer ∧ Meets plan.hw armRtcInt) := by
    rw [planned.meets_rtcTimer, planned.meets_rtcInt]
    tauto
  rw [meets_fired, meets_or_right, planned.meets_timedBit (Or.inl rfl)]
  by_cases hcountdown : Meets plan.hw armRtcTimer
  · have hint : ¬ Meets plan.hw armRtcInt := fun hint => hkind ⟨hcountdown, hint⟩
    simp +decide [hcountdown, hint, planned.meets_timedBit (Or.inl rfl)]
  · simp +decide [hcountdown]
    tauto

theorem fired_timer (planned : Planned bitmap ms plan) :
    Meets (firedSources plan latches) wakeTimer ↔
      (Meets plan.hw armLptimer ∧ latches.lptimer ∧ plan.timedBit = wakeTimer)
        ∨ (latches.Heard ∧ Meets latches.rtc.flags (wakeTf ||| wakeAf)
          ∧ Meets plan.hw armRtcTimer ∧ plan.timedBit = wakeTimer) := by
  have hbit := planned.meets_timedBit (k := wakeTimer) (Or.inr (Or.inl rfl))
  rw [meets_fired, meets_or_right, hbit]
  by_cases hcountdown : Meets plan.hw armRtcTimer
  · simp +decide [hcountdown, hbit]
  · simp +decide [hcountdown]

theorem fired_within (planned : Planned bitmap ms plan) :
    Within (firedSources plan latches) plan.wake := by
  have hself : ∀ v : Word, Within v v := fun v => BitVec.and_self
  have hbit : Within plan.timedBit plan.wake := by
    rw [planned.wake, planned.timedBit]
    exact within_or_left (within_or_left (within_or_left (hself _)))
  have hgpio : Meets bitmap wakeGpio → Within wakeGpio plan.wake := by
    intro hasked
    rw [planned.wake, if_pos hasked]
    exact within_or_left (within_or_left (within_or_right (hself _)))
  have hrtc : Meets bitmap wakeRtc → Within wakeRtc plan.wake := by
    intro hasked
    rw [planned.wake]
    simp only [hasked, if_true]
    exact within_or_left (within_or_right (hself _))
  have hext : Meets bitmap wakeExtEvent → Within wakeExtEvent plan.wake := by
    intro hasked
    rw [planned.wake]
    simp only [hasked, if_true]
    exact within_or_right (hself _)
  unfold firedSources
  simp only [within_or]
  refine ⟨⟨within_ite fun _ => hbit, within_ite fun _ => ?_⟩, within_ite fun hpads => ?_⟩
  · split
    case h_1 =>
      rw [within_or]
      refine ⟨within_ite fun harmed => ?_, within_ite fun harmed => ?_⟩
      · split
        case isTrue => exact hbit
        case isFalse hcountdown =>
          -- not the countdown: the caller's own alarm, which was asked for
          rw [meets_or_right, or_iff_right hcountdown, planned.meets_rtcInt] at harmed
          exact hrtc harmed.1.1
      · exact hext (planned.meets_rtcEvi.mp harmed.1)
    case h_2 => exact within_zero
  · by_contra hout
    exact hpads.1 (planned.padsAsked fun hasked => hout (hgpio hasked))

theorem wake_extEvent (planned : Planned bitmap ms plan) :
    Meets plan.wake wakeExtEvent ↔ Meets plan.hw armRtcEvi := by
  have hbit : ¬ Meets (timedSource bitmap ms) wakeExtEvent := by
    rw [← planned.timedBit]
    obtain hbit | hbit | hbit := planned.timedBit_cases
    all_goals
      rw [hbit]
      decide
  rw [planned.wake, meets_or_left, meets_or_left, meets_or_left, planned.meets_rtcEvi]
  simp +decide [meets_ite, hbit]

end Planned

-- The wake source of the cold boot says of every latched flag what the plan armed it for.
structure Attributed (bitmap : Word) (plan : Plan) (latches : Latches) (late : Prop) (w : Word) :
    Prop where
  armed : Within w plan.wake
  gpio : Meets w wakeGpio ↔ Meets latches.pads plan.pads
  extEvent : Meets w wakeExtEvent ↔
    Meets plan.wake wakeExtEvent ∧ Meets latches.rtc.flags wakeEvf
  countdown : Meets plan.hw armRtcTimer → Meets latches.rtc.flags wakeTf → Meets w plan.timedBit
  alarm : Meets bitmap wakeRtc → Meets latches.rtc.flags wakeAf → Meets w wakeRtc
  timer : Meets w wakeTimer →
    (Meets plan.hw armLptimer ∧ latches.lptimer)
      ∨ (Meets plan.hw armRtcTimer ∧ Meets latches.rtc.flags wakeTf)
  sameBoot : ¬ late → latches.Heard → w = firedSources plan latches

-- No flag is taken for another one, and none goes unheard.
structure Unmistaken (bitmap : Word) (plan : Plan) (latches : Latches) (elapsed : UInt32) :
    Prop where
  -- an alarm during a countdown that reports as TIMER stands beside the countdown's own flag, and
  -- was not asked for
  countdown : latches.Heard → Meets plan.hw armRtcTimer → plan.timedBit = wakeTimer →
    Meets latches.rtc.flags wakeAf → Meets latches.rtc.flags wakeTf ∧ ¬ Meets bitmap wakeRtc
  -- an alarm beside an LPTIMER that reports as RTC came before the elapsed-time gate
  alarm : Meets plan.hw armLptimer → plan.timedBit = wakeRtc → Meets latches.rtc.flags wakeAf →
    ¬ elapsed > plan.armedMs + wakeLatencyMs
  -- an RV-3028 that cannot be serviced has nothing to say
  heard : ¬ latches.Heard →
    ¬ (Meets plan.hw armRtcEvi ∧ Meets latches.rtc.flags wakeEvf)
      ∧ ¬ (Meets plan.hw armRtcTimer ∧ Meets latches.rtc.flags wakeTf)
      ∧ (Meets bitmap wakeRtc → Meets latches.rtc.flags wakeAf →
        Meets plan.hw armLptimer ∧ latches.lptimer ∧ plan.timedBit = wakeRtc)

section Boot

variable {w : Word}

theorem meets_bootWakeSource (planned : Planned bitmap ms plan)
    (h : bootWakeSource (saveCycleRecord rec plan trusted seconds ccvr) latches clocks = some w)
    {k : Word} (hk : k = wakeRtc ∨ k = wakeTimer ∨ k = wakeGpio ∨ k = wakeExtEvent) :
    Meets w k ↔ Meets (firedSources plan latches) k
      ∧ ¬ (tooLate (served (saveCycleRecord rec plan trusted seconds ccvr) latches clocks) clocks
        ∧ plan.timedBit = k) := by
  rw [bootWakeSource_eq planned h]
  split
  case isFalse hearly => simp [hearly]
  case isTrue hlate =>
    have hclear : k &&& ~~~plan.timedBit = if plan.timedBit = k then 0#32 else k := by
      obtain hbit | hbit | hbit := planned.timedBit_cases
      all_goals
        rw [hbit]
        obtain rfl | rfl | rfl | rfl := hk
      all_goals decide
    rw [meets_clear, hclear]
    by_cases hbit : plan.timedBit = k
    · simp [hbit, hlate, Meets]
    · simp [hbit]

section Flags

variable (planned : Planned bitmap ms plan)
include planned

theorem Planned.lptimer_excludes (hlptimer : Meets plan.hw armLptimer) :
    ¬ Meets plan.hw armRtcTimer := by
  rw [planned.meets_rtcTimer, not_not]
  exact (planned.meets_lptimer.mp hlptimer).2

theorem Planned.countdown_reports (hcountdown : Meets plan.hw armRtcTimer) :
    plan.timedBit = wakeRtc ∨ plan.timedBit = wakeTimer := by
  obtain hnone | hbit := planned.timedBit_cases
  · exfalso
    have hlong := planned.meets_rtcTimer.mp hcountdown
    have hms : ms ≠ 0 := by
      rintro rfl
      exact hlong (by decide)
    rw [planned.timedBit] at hnone
    unfold timedSource at hnone
    rw [if_neg hms] at hnone
    split at hnone
    case isTrue => exact absurd hnone (by decide)
    case isFalse => exact absurd hnone (by decide)
  · exact hbit

-- The flag of a countdown makes the report, if the RV-3028 is heard.
theorem Planned.fired_countdown (hheard : latches.Heard) (hcountdown : Meets plan.hw armRtcTimer)
    (hflag : Meets latches.rtc.flags (wakeTf ||| wakeAf)) :
    Meets (firedSources plan latches) plan.timedBit := by
  obtain hbit | hbit := planned.countdown_reports hcountdown
  · rw [hbit, planned.fired_rtc]
    exact Or.inr ⟨hheard, hflag, Or.inl ⟨hcountdown, hbit⟩⟩
  · rw [hbit, planned.fired_timer]
    exact Or.inr ⟨hheard, hflag, hcountdown, hbit⟩

end Flags

theorem attributed_of_unmistaken (planned : Planned bitmap ms plan)
    (hboot : bootWakeSource (saveCycleRecord rec plan trusted seconds ccvr) latches clocks
      = some w)
    (clear : Unmistaken bitmap plan latches
      (elapsedLbMs (saveCycleRecord rec plan trusted seconds ccvr) clocks)) :
    Attributed bitmap plan latches
      (tooLate (served (saveCycleRecord rec plan trusted seconds ccvr) latches clocks) clocks)
      w := by
  have hlate := tooLate_served rec trusted seconds ccvr latches clocks planned
  have hrtc := meets_bootWakeSource planned hboot (k := wakeRtc) (Or.inl rfl)
  have htimer := meets_bootWakeSource planned hboot (k := wakeTimer) (Or.inr (Or.inl rfl))
  have hgpio := meets_bootWakeSource planned hboot (k := wakeGpio)
    (Or.inr (Or.inr (Or.inl rfl)))
  have hevent := meets_bootWakeSource planned hboot (k := wakeExtEvent)
    (Or.inr (Or.inr (Or.inr rfl)))
  have hnot : plan.timedBit ≠ wakeGpio ∧ plan.timedBit ≠ wakeExtEvent := by
    obtain hbit | hbit | hbit := planned.timedBit_cases
    all_goals
      rw [hbit]
      decide
  constructor
  · rw [bootWakeSource_eq planned hboot]
    split
    case isTrue => exact within_clear planned.fired_within
    case isFalse => exact planned.fired_within
  · rw [hgpio, planned.fired_gpio]
    simp [hnot.1]
  · rw [hevent, planned.fired_extEvent, planned.wake_extEvent]
    have hheard : Meets plan.hw armRtcEvi ∧ Meets latches.rtc.flags wakeEvf → latches.Heard := by
      intro hflag
      by_contra hdeaf
      exact (clear.heard hdeaf).1 hflag
    simp only [hnot.2, and_false, not_false_eq_true, and_true]
    exact ⟨And.right, fun hflag => ⟨hheard hflag, hflag⟩⟩
  · intro hcountdown htf
    have hheard : latches.Heard := by
      by_contra hdeaf
      exact (clear.heard hdeaf).2.1 ⟨hcountdown, htf⟩
    have hfired := planned.fired_countdown hheard hcountdown (meets_or_right.mpr (Or.inl htf))
    -- the gate is about the LPTIMER only
    have hearly : ¬ tooLate
        (served (saveCycleRecord rec plan trusted seconds ccvr) latches clocks) clocks :=
      fun hcut => (hlate.mp hcut).2.2.2.1 hcountdown
    rwa [bootWakeSource_eq planned hboot, if_neg hearly]
  · intro hasked haf
    rw [hrtc]
    by_cases hheard : latches.Heard
    · have hflag : Meets latches.rtc.flags (wakeTf ||| wakeAf) := meets_or_right.mpr (Or.inr haf)
      by_cases hcountdown : Meets plan.hw armRtcTimer
      · have hbit : plan.timedBit = wakeRtc := by
          refine (planned.countdown_reports hcountdown).resolve_right ?_
          intro hbit
          exact (clear.countdown hheard hcountdown hbit haf).2 hasked
        refine ⟨planned.fired_rtc.mpr (Or.inr ⟨hheard, hflag, Or.inl ⟨hcountdown, hbit⟩⟩), ?_⟩
        rintro ⟨hcut, _⟩
        exact (hlate.mp hcut).2.2.2.1 hcountdown
      · have hint : Meets plan.hw armRtcInt := by
          rw [planned.meets_rtcTimer, not_not] at hcountdown
          exact planned.meets_rtcInt.mpr ⟨hasked, hcountdown⟩
        refine ⟨planned.fired_rtc.mpr (Or.inr ⟨hheard, hflag, Or.inr hint⟩), ?_⟩
        rintro ⟨hcut, hbit⟩
        obtain ⟨hlptimer, _, _, _, hpast⟩ := hlate.mp hcut
        exact clear.alarm hlptimer hbit haf hpast
    · obtain ⟨hlptimer, hpending, hbit⟩ := (clear.heard hheard).2.2 hasked haf
      refine ⟨planned.fired_rtc.mpr (Or.inl ⟨hlptimer, hpending, hbit⟩), ?_⟩
      rintro ⟨hcut, _⟩
      obtain ⟨_, _, _, _, hpast⟩ := hlate.mp hcut
      exact clear.alarm hlptimer hbit haf hpast
  · intro hreported
    obtain ⟨hlptimer, hpending, _⟩ | ⟨hheard, hflag, hcountdown, hbit⟩ :=
      planned.fired_timer.mp (htimer.mp hreported).1
    · exact Or.inl ⟨hlptimer, hpending⟩
    · obtain htf | haf := meets_or_right.mp hflag
      · exact Or.inr ⟨hcountdown, htf⟩
      · exact Or.inr ⟨hcountdown, (clear.countdown hheard hcountdown hbit haf).1⟩
  · intro hearly _
    rw [bootWakeSource_eq planned hboot, if_neg hearly]

theorem unmistaken_of_attributed (planned : Planned bitmap ms plan)
    (hboot : bootWakeSource (saveCycleRecord rec plan trusted seconds ccvr) latches clocks
      = some w)
    (told : Attributed bitmap plan latches
      (tooLate (served (saveCycleRecord rec plan trusted seconds ccvr) latches clocks) clocks)
      w) :
    Unmistaken bitmap plan latches
      (elapsedLbMs (saveCycleRecord rec plan trusted seconds ccvr) clocks) := by
  have hlate := tooLate_served rec trusted seconds ccvr latches clocks planned
  have hrtc := meets_bootWakeSource planned hboot (k := wakeRtc) (Or.inl rfl)
  have htimer := meets_bootWakeSource planned hboot (k := wakeTimer) (Or.inr (Or.inl rfl))
  have hevent := meets_bootWakeSource planned hboot (k := wakeExtEvent)
    (Or.inr (Or.inr (Or.inr rfl)))
  constructor
  · intro hheard hcountdown hbit haf
    have hfired := planned.fired_countdown hheard hcountdown (meets_or_right.mpr (Or.inr haf))
    rw [hbit] at hfired
    have hreported : Meets w wakeTimer := by
      refine htimer.mpr ⟨hfired, ?_⟩
      rintro ⟨hcut, _⟩
      exact (hlate.mp hcut).2.2.2.1 hcountdown
    constructor
    · obtain ⟨hlptimer, _⟩ | ⟨_, htf⟩ := told.timer hreported
      · exact absurd hcountdown (planned.lptimer_excludes hlptimer)
      · exact htf
    · intro hasked
      obtain ⟨hlptimer, _⟩ | ⟨_, _, ⟨_, hother⟩ | hint⟩ :=
        planned.fired_rtc.mp (hrtc.mp (told.alarm hasked haf)).1
      · exact planned.lptimer_excludes hlptimer hcountdown
      · rw [hbit] at hother
        exact absurd hother (by decide)
      · exact planned.meets_rtcTimer.mp hcountdown (planned.meets_rtcInt.mp hint).2
  · intro hlptimer hbit haf hpast
    have hasked := (planned.timedBit_eq_wakeRtc.mp hbit).2.1
    obtain ⟨hfired, hkept⟩ := hrtc.mp (told.alarm hasked haf)
    refine hkept ⟨hlate.mpr ⟨hlptimer, ?_, ?_, planned.lptimer_excludes hlptimer, hpast⟩, hbit⟩
    · rw [hbit]
      decide
    · rwa [hbit]
  · intro hdeaf
    have hrtc' : Meets w wakeRtc →
        Meets plan.hw armLptimer ∧ latches.lptimer ∧ plan.timedBit = wakeRtc := by
      intro hreported
      exact (planned.fired_rtc.mp (hrtc.mp hreported).1).resolve_right fun h => hdeaf h.1
    refine ⟨?_, ?_, fun hasked haf => hrtc' (told.alarm hasked haf)⟩
    · rintro ⟨harmed, hevf⟩
      have hreported := told.extEvent.mpr ⟨planned.wake_extEvent.mpr harmed, hevf⟩
      exact hdeaf (planned.fired_extEvent.mp (hevent.mp hreported).1).1
    · rintro ⟨hcountdown, htf⟩
      have hreported := told.countdown hcountdown htf
      obtain hbit | hbit := planned.countdown_reports hcountdown
      · rw [hbit] at hreported
        exact planned.lptimer_excludes (hrtc' hreported).1 hcountdown
      · rw [hbit] at hreported
        obtain ⟨hlptimer, _⟩ | ⟨hheard, _⟩ := planned.fired_timer.mp (htimer.mp hreported).1
        · exact planned.lptimer_excludes hlptimer hcountdown
        · exact hdeaf hheard

-- The boot attributes the wake to what the plan armed exactly when the RV-3028 answers and its alarm
-- is neither taken for the countdown nor thrown out with the LPTIMER.
theorem wake_attributed_iff
    (hplan : planWake hw bitmap ms (Plan.start mode lfxo blocks) = .ok plan)
    (hboot : bootWakeSource (saveCycleRecord rec plan trusted seconds ccvr) latches clocks
      = some w) :
    Attributed bitmap plan latches
        (tooLate (served (saveCycleRecord rec plan trusted seconds ccvr) latches clocks) clocks) w
      ↔ Unmistaken bitmap plan latches
        (elapsedLbMs (saveCycleRecord rec plan trusted seconds ccvr) clocks) := by
  have planned := planned_of_planWake hplan
  exact ⟨unmistaken_of_attributed planned hboot, attributed_of_unmistaken planned hboot⟩

end Boot

-- A board with the RV-3028 on /INT, its alarm armed by the caller, and no application wake pad.
def alarmBoard : Hw where
  wakePadMask := 0
  lpgpioClaimed := 0xff
  rtcIntPresent := true
  wakeTimerPresent := true
  wakeTimerHz := 32768
  rtcCountdownReady := true
  rtcIntArmed := some true
  rtcPolicy := .auto

-- STOP for two seconds, by the countdown.
def twoSeconds (wake timedBit : Word) (keepAlarm : Bool) : Plan where
  mode := .stop
  wake := wake
  hw := armRtcTimer
  lptimerTicks := 0
  rtcSeconds := 2
  armedMs := 2000
  timedBit := timedBit
  keepAlarm := keepAlarm
  pads := 0
  lfxo := false
  memoryBlocks := 0

-- The RV-3028 with both interrupts enabled and one flag set.
def rang (flag : BitVec 8) : Latches where
  lptimer := false
  rtc := ⟨true, flag, ctrl2Tie ||| ctrl2Aie, true, true⟩
  pads := 0

def fiveSecondsLater : Clocks := ⟨some false, some 1005, 0⟩

-- A wake by the countdown itself reports TIMER, and nothing else.
theorem wake_attributed_iff_countdown :
    Attributed (wakeTimer ||| wakeRtc) (twoSeconds (wakeTimer ||| wakeRtc) wakeTimer true)
      (rang wakeTf)
      (tooLate (served (saveCycleRecord .zero
        (twoSeconds (wakeTimer ||| wakeRtc) wakeTimer true) true (some 1000) 0) (rang wakeTf)
        fiveSecondsLater) fiveSecondsLater)
      wakeTimer := by
  have hplan : planWake alarmBoard (wakeTimer ||| wakeRtc) 2000 (Plan.start .stop false 0)
      = .ok (twoSeconds (wakeTimer ||| wakeRtc) wakeTimer true) := by rfl
  refine (wake_attributed_iff hplan ?_).mpr ⟨?_, ?_, ?_⟩
  · decide
  · intro _ _ _ haf
    exact absurd haf (by decide)
  · intro hlptimer
    exact absurd hlptimer (by decide)
  · intro hdeaf
    exact absurd hdeaf (by decide)

-- The caller's own alarm, during a countdown that TIMER was also asked for, is reported as TIMER.
theorem alarm_taken_for_countdown :
    ∃ plan, planWake alarmBoard (wakeTimer ||| wakeRtc) 2000 (Plan.start .stop false 0) = .ok plan
      ∧ bootWakeSource (saveCycleRecord .zero plan true (some 1000) 0) (rang wakeAf)
        fiveSecondsLater = some wakeTimer
      ∧ ¬ Meets (rang wakeAf).rtc.flags wakeTf
      ∧ ¬ Attributed (wakeTimer ||| wakeRtc) plan (rang wakeAf)
        (tooLate (served (saveCycleRecord .zero plan true (some 1000) 0) (rang wakeAf)
          fiveSecondsLater) fiveSecondsLater) wakeTimer := by
  refine ⟨twoSeconds (wakeTimer ||| wakeRtc) wakeTimer true, rfl, by decide, by decide, ?_⟩
  intro told
  have hreported : Meets wakeTimer wakeRtc := told.alarm (by decide) (by decide)
  exact absurd hreported (by decide)

end AlpSdk.AlifSe
