import AlpSdk.Rv3028c7.Part

namespace AlpSdk.Rv3028c7

open Library.Fallible
open Library.Effect (Exec)

-- `timer_ticks_to_ms`: the length of `n` ticks.
def timerTicksToMs (td : Byte) (n : Nat) : Nat :=
  match (td &&& CTRL1_TD_MASK).toNat with
  | 0 => n * 1000 / 4096
  | 1 => n * 125 / 8
  | 2 => n * 1000
  | _ => n * 60000

-- The countdown that the registers of the part hold.
def Part.preset (p : Part) : Nat := (p.regs REG_TIMER_VAL0).toNat + 256 * (p.regs REG_TIMER_VAL1 &&& 0x0F#8).toNat

def Part.countdownMs (p : Part) : Nat := timerTicksToMs (p.regs REG_CONTROL_1) p.preset

theorem countdown_eq_some {seconds n : UInt32} {td : Byte} (h : countdown seconds = some (td, n)) :
    0 < seconds.toNat ∧ seconds.toNat ≤ 245700 ∧
      (seconds.toNat ≤ 4095 ∧ td = TD_1HZ ∧ n.toNat = seconds.toNat ∨
        4095 < seconds.toNat ∧ td = TD_1_60HZ ∧ n.toNat = (seconds.toNat + 59) / 60) := by
  have hmax : TIMER_MAX_SECONDS.toNat = 245700 := by decide
  have hmax1 : TIMER_MAX_SECONDS_1HZ.toNat = 4095 := by decide
  unfold countdown at h
  split at h
  · cases h
  next hrange =>
      rw [not_or, gt_iff_lt, UInt32.not_lt, UInt32.le_iff_toNat_le, hmax] at hrange
      have hpos : seconds.toNat ≠ 0 := fun hzero => hrange.1 (UInt32.toNat.inj hzero)
      split at h
      next hshort =>
          cases h
          rw [UInt32.le_iff_toNat_le, hmax1] at hshort
          exact ⟨by omega, hrange.2, .inl ⟨hshort, rfl, rfl⟩⟩
      next hlong =>
          cases h
          rw [UInt32.le_iff_toNat_le, hmax1] at hlong
          refine ⟨by omega, hrange.2, .inr ⟨by omega, rfl, ?_⟩⟩
          have hsum : (seconds + 59).toNat = seconds.toNat + 59 := by
            have h59 : (59 : UInt32).toNat = 59 := rfl
            rw [UInt32.toNat_add, h59]
            exact Nat.mod_eq_of_lt (by omega)
          rw [UInt32.toNat_div, hsum]
          rfl

theorem countdown_isSome {seconds : UInt32} (hpos : 0 < seconds.toNat) (hmax : seconds.toNat ≤ 245700) :
    ∃ td n, countdown seconds = some (td, n) := by
  have hbound : TIMER_MAX_SECONDS.toNat = 245700 := by decide
  have hrange : ¬ (seconds = 0 ∨ seconds > TIMER_MAX_SECONDS) := by
    rw [not_or, gt_iff_lt, UInt32.not_lt, UInt32.le_iff_toNat_le, hbound]
    exact ⟨fun hzero => by simp [hzero] at hpos, hmax⟩
  unfold countdown
  rw [if_neg hrange]
  split
  · exact ⟨_, _, rfl⟩
  · exact ⟨_, _, rfl⟩

-- The two bytes of the 12-bit value give it back.
theorem preset_bytes {n : UInt32} (h : n.toNat < 4096) :
    (BitVec.ofNat 8 (n &&& 0xFF).toNat).toNat +
      256 * (BitVec.ofNat 8 ((n >>> 8) &&& 0x0F).toNat &&& 0x0F#8).toNat = n.toNat := by
  have hlow : (n &&& 0xFF).toNat = n.toNat % 256 := by
    rw [UInt32.toNat_and]
    exact Nat.and_two_pow_sub_one_eq_mod n.toNat 8
  have hhigh : ((n >>> 8) &&& 0x0F).toNat = n.toNat / 256 % 16 := by
    rw [UInt32.toNat_and, UInt32.toNat_shiftRight]
    have hshift : n.toNat >>> ((8 : UInt32).toNat % 32) = n.toNat / 256 := Nat.shiftRight_eq_div_pow n.toNat 8
    rw [hshift]
    exact Nat.and_two_pow_sub_one_eq_mod (n.toNat / 256) 4
  have hmask : (BitVec.ofNat 8 (n.toNat / 256 % 16) &&& 0x0F#8).toNat = n.toNat / 256 % 16 := by
    rw [BitVec.toNat_and, BitVec.toNat_ofNat]
    have hand := Nat.and_two_pow_sub_one_eq_mod (n.toNat / 256 % 16 % 2 ^ 8) 4
    have h15 : (0x0F#8).toNat = 2 ^ 4 - 1 := rfl
    rw [h15, hand]
    omega
  rw [hlow, hhigh, hmask, BitVec.toNat_ofNat]
  omega

section Rules

variable {p : Part} {reg v : Byte}

def anything : Part → Prop := fun _ => True

-- A write that is acknowledged leaves the other registers alone.
theorem wp_write_keeps (hcmd : reg ≠ REG_EE_CMD) :
    wp part anything (writeReg reg v) anyError
      (fun _ q => (reg ≠ REG_STATUS → q.regs reg = v) ∧
        ∀ r, r ≠ reg → r ≠ REG_EE_DATA → q.regs r = p.regs r) p := by
  refine wp_writeReg trivial fun q hq => ?_
  refine ⟨⟨trivial, ?_, ?_⟩, fun _ => ⟨trivial, trivial⟩, fun _ => ⟨trivial, trivial⟩⟩
  · intro hstatus
    have hnoted : q.noting reg [v] = q := if_neg fun h => hcmd h.1
    rw [hnoted, Part.writtenByte, if_neg hcmd, if_neg hstatus, Part.setReg_self]
  · intro r hr hdata
    have hnoted : q.noting reg [v] = q := if_neg fun h => hcmd h.1
    rw [hnoted, Part.writtenByte, if_neg hcmd]
    split
    next hstatus => rw [Part.setReg_of_ne (hstatus ▸ hr), settles_regs hdata hq]
    next => rw [Part.setReg_of_ne hr, settles_regs hdata hq]

theorem wp_updateReg_keeps {clear set : Byte} (hcmd : reg ≠ REG_EE_CMD) :
    wp part anything (updateReg reg clear set) anyError
      (fun _ q => ∀ r, r ≠ reg → r ≠ REG_EE_DATA → q.regs r = p.regs r) p := by
  refine wp_seq (P := fun _ q => p.Settles q) (wp_readReg trivial fun q hq => ⟨trivial, hq, fun _ => trivial⟩) ?_
  intro value q _ hq
  refine wp_mono (wp_write_keeps hcmd) (fun _ _ _ h => h) fun _ s _ hs r hr hdata => ?_
  exact (hs.2 r hr hdata).trans (settles_regs hdata hq)

theorem wp_write_pair {a b : Byte} :
    wp part anything (write REG_TIMER_VAL0 [a, b]) anyError
      (fun _ q => q.regs REG_TIMER_VAL0 = a ∧ q.regs REG_TIMER_VAL1 = b ∧
        q.regs REG_CONTROL_1 = p.regs REG_CONTROL_1) p := by
  refine wp_write (by simp) trivial fun q hq => ⟨⟨trivial, ?_⟩, fun _ _ => ⟨trivial, trivial⟩⟩
  have hnoted : q.noting REG_TIMER_VAL0 [a, b] = q := if_neg (by simp [REG_TIMER_VAL0, REG_EE_CMD])
  have hnext : REG_TIMER_VAL0 + 1 = REG_TIMER_VAL1 := by decide
  have hwritten : q.written REG_TIMER_VAL0 [a, b] = (q.setReg REG_TIMER_VAL0 a).setReg REG_TIMER_VAL1 b := by
    rw [Part.written, Part.written, Part.written, hnext]
    rfl
  rw [hnoted, hwritten, Part.setReg_of_ne (by decide), Part.setReg_self, Part.setReg_self,
    Part.setReg_of_ne (by decide), Part.setReg_of_ne (by decide), settles_regs (by decide) hq]
  exact ⟨rfl, rfl, rfl⟩

end Rules

-- What a countdown that has been started is.
structure Started (seconds actual : UInt32) (p : Part) : Prop where
  enabled : p.regs REG_CONTROL_1 &&& CTRL1_TE = CTRL1_TE
  single : p.regs REG_CONTROL_1 &&& CTRL1_TRPT = 0
  counts : ∃ td n, countdown seconds = some (td, n) ∧ p.preset = n.toNat ∧
    p.countdownMs = timerTicksToMs td n.toNat ∧ actual.toNat * 1000 = timerTicksToMs td n.toNat

theorem control_bits (ctrl1 : Byte) {td : Byte} (htd : td = TD_1HZ ∨ td = TD_1_60HZ) :
    let v := ((ctrl1 &&& ~~~ (CTRL1_TE ||| CTRL1_TRPT ||| CTRL1_TD_MASK)) ||| td) ||| CTRL1_TE
    v &&& CTRL1_TE = CTRL1_TE ∧ v &&& CTRL1_TRPT = 0 ∧ v &&& CTRL1_TD_MASK = td := by
  revert ctrl1
  rcases htd with rfl | rfl <;> decide +kernel

theorem wp_timerStart {p : Part} {seconds : UInt32} :
    wp part anything (timerStart seconds) anyError (fun actual q => Started seconds actual q) p := by
  unfold timerStart
  cases hcount : countdown seconds with
  | none => exact ⟨trivial, trivial⟩
  | some out =>
      obtain ⟨td, n⟩ := out
      obtain ⟨hpos, hmax, hcases⟩ := countdown_eq_some hcount
      have htd : td = TD_1HZ ∨ td = TD_1_60HZ := by
        rcases hcases with ⟨-, htd, -⟩ | ⟨-, htd, -⟩
        · exact .inl htd
        · exact .inr htd
      have hn : n.toNat < 4096 := by
        rcases hcases with ⟨h4095, -, hn⟩ | ⟨-, -, hn⟩ <;> omega
      simp only
      refine wp_seq (P := fun _ _ => True) (wp_readReg trivial fun _ _ => ⟨trivial, trivial, fun _ => trivial⟩)
        fun ctrl1 _ _ _ => ?_
      refine wp_seq (P := fun _ _ => True) (wp_mono (wp_write_keeps (by decide)) (fun _ _ _ h => h) fun _ _ _ _ => trivial)
        fun _ _ _ _ => ?_
      refine wp_seq (P := fun _ _ => True) (wp_mono (wp_updateReg_keeps (by decide)) (fun _ _ _ h => h) fun _ _ _ _ => trivial)
        fun _ _ _ _ => ?_
      refine wp_seq (P := fun _ _ => True) (wp_mono (wp_write_keeps (by decide)) (fun _ _ _ h => h) fun _ _ _ _ => trivial)
        fun _ _ _ _ => ?_
      refine wp_seq (wp_write_keeps (by decide)) fun _ q₁ _ _ => ?_
      refine wp_seq wp_write_pair fun _ q₂ _ hpair => ?_
      obtain ⟨hval0, hval1, -⟩ := hpair
      refine wp_seq (wp_updateReg_keeps (by decide)) fun _ q₃ _ hkept => ?_
      refine wp_seq (wp_write_keeps (by decide)) fun _ q₄ _ hlast => ?_
      obtain ⟨hcontrol, hothers⟩ := hlast
      have hctrl := hcontrol (by decide)
      obtain ⟨henabled, hsingle, htick⟩ := control_bits ctrl1 htd
      have hpreset : q₄.preset = n.toNat := by
        rw [Part.preset, hothers _ (by decide) (by decide), hothers _ (by decide) (by decide),
          hkept _ (by decide) (by decide), hkept _ (by decide) (by decide), hval0, hval1, preset_bytes hn]
      refine ⟨trivial, by rw [hctrl]; exact henabled, by rw [hctrl]; exact hsingle, td, n, hcount, hpreset, ?_, ?_⟩
      · have hsame : td &&& CTRL1_TD_MASK = td := by rcases htd with rfl | rfl <;> decide
        simp only [Part.countdownMs, timerTicksToMs, hpreset, hctrl, htick, hsame]
      · rcases hcases with ⟨-, rfl, -⟩ | ⟨-, rfl, hn⟩
        · rfl
        · have hmul : (n * 60).toNat = n.toNat * 60 := by
            have h60 : (60 : UInt32).toNat = 60 := rfl
            rw [UInt32.toNat_mul, h60]
            exact Nat.mod_eq_of_lt (by omega)
          rw [if_neg (by decide), hmul]
          have hlength : timerTicksToMs TD_1_60HZ n.toNat = n.toNat * 60000 := rfl
          omega

end AlpSdk.Rv3028c7
