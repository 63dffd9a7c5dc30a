import AlpSdk.Rv3028c7.Part
import Mathlib.Tactic.NormNum

namespace AlpSdk.Rv3028c7

open Library.Fallible
open Library.Effect (Exec Handler exec_of_run)

-- A write command goes to a part that can take it, has its refresh paused and holds another byte.
structure Commit.Proper (c : Commit) : Prop where
  idle : c.busy = false
  paused : c.eerd ≠ 0
  changes : c.held ≠ c.data

-- The refresh is paused: what holds throughout the access to the EEPROM.
structure Gated (ctrl1 : Byte) (dropped : Bool) (p : Part) : Prop where
  proper : ∀ c ∈ p.commits, c.Proper
  control : p.regs REG_CONTROL_1 = ctrl1
  kept : p.dropped = dropped

-- The registers that a write only stores to.
structure Plain (reg : Byte) : Prop where
  command : reg ≠ REG_EE_CMD
  status : reg ≠ REG_STATUS
  control : reg ≠ REG_CONTROL_1

theorem plain_addr : Plain REG_EE_ADDR := ⟨by decide, by decide, by decide⟩

theorem plain_data : Plain REG_EE_DATA := ⟨by decide, by decide, by decide⟩

section Gate

variable {ctrl1 : Byte} {dropped : Bool} {p q : Part} {reg v : Byte}

theorem Gated.finish (h : Gated ctrl1 dropped p) : Gated ctrl1 dropped p.finish where
  proper := by
    rw [finish_commits]
    exact h.proper
  control := (finish_regs (by decide) p).trans h.control
  kept := (finish_dropped p).trans h.kept

theorem Gated.settles (h : Gated ctrl1 dropped p) (hsettles : p.Settles q) : Gated ctrl1 dropped q := by
  rcases hsettles with rfl | rfl
  · exact h
  · exact h.finish

theorem Gated.setReg (h : Gated ctrl1 dropped p) (hreg : reg ≠ REG_CONTROL_1) :
    Gated ctrl1 dropped (p.setReg reg v) where
  proper := h.proper
  control := (Function.update_of_ne (Ne.symm hreg) _ _).trans h.control
  kept := h.kept

theorem Gated.failed (h : Gated ctrl1 dropped p) (hreg : reg ≠ REG_CONTROL_1) :
    Gated ctrl1 dropped (p.failed reg) where
  proper := h.proper
  control := h.control
  kept := by simp [Part.failed, hreg, h.kept]

theorem Gated.command (h : Gated ctrl1 dropped p) : Gated ctrl1 dropped (p.command v) := by
  unfold Part.command
  split
  · exact h
  · split
    · exact ⟨h.proper, h.control, h.kept⟩
    · split
      · exact ⟨h.proper, h.control, h.kept⟩
      · exact h

theorem noting_plain (hreg : reg ≠ REG_EE_CMD) (data : List Byte) (p : Part) : p.noting reg data = p :=
  if_neg fun h => hreg h.1

theorem writtenByte_plain (hreg : Plain reg) (p : Part) : p.writtenByte reg v = p.setReg reg v := by
  rw [Part.writtenByte, if_neg hreg.command, if_neg hreg.status]

theorem busy_status (p : Part) : p.value REG_STATUS &&& STATUS_EEBUSY = 0 ↔ p.busy = none := by
  have hclear : ∀ b : Byte, ((b &&& STATUS_FLAGS) ||| 0) &&& STATUS_EEBUSY = 0 := by decide +kernel
  have hset : ∀ b : Byte, ((b &&& STATUS_FLAGS) ||| STATUS_EEBUSY) &&& STATUS_EEBUSY ≠ 0 := by decide +kernel
  rw [Part.value, if_pos rfl]
  cases p.busy with
  | none => simpa using hclear _
  | some access => simpa using hset _

section Rules

variable {Q : Unit → Part → Prop}

theorem wp_waitPolls (polls : Nat) (h : Gated ctrl1 dropped p) (hQ : Q () p.finish) :
    wp part (Gated ctrl1 dropped) (waitPolls polls) anyError Q p := by
  induction polls generalizing p with
  | zero => exact wp_fail h trivial
  | succ polls ih =>
      refine wp_seq (P := fun status q => status = q.value REG_STATUS ∧ p.Settles q)
        (wp_readReg h fun q hq => ⟨h.settles hq, ⟨rfl, hq⟩, fun _ => trivial⟩) ?_
      rintro status q hgated ⟨rfl, hq⟩
      split
      next hidle =>
          have hfinished : q = p.finish := by rw [← hq.finish, finish_idle ((busy_status q).mp hidle)]
          exact wp_pure hgated (hfinished ▸ hQ)
      next hbusy =>
          refine wp_seq (P := fun _ r => r.finish = p.finish) ?_ fun _ r hr hfinish => ih hr (hfinish ▸ hQ)
          exact wp_onlyIf
            (fun _ => wp_delayMs hgated fun r hr => ⟨hgated.settles hr, hr.finish.trans hq.finish⟩)
            fun _ => ⟨hgated, hq.finish⟩

theorem wp_eepromWaitNotBusy (h : Gated ctrl1 dropped p) (hQ : Q () p.finish) :
    wp part (Gated ctrl1 dropped) eepromWaitNotBusy anyError Q p :=
  wp_waitPolls EEPROM_COMMIT_POLL_MAX h hQ

theorem wp_read_idle {Q : Byte → Part → Prop} (h : Gated ctrl1 dropped p) (hidle : p.busy = none)
    (hQ : Q (p.value reg) p) : wp part (Gated ctrl1 dropped) (readReg reg) anyError Q p := by
  refine wp_readReg h fun q hq => ?_
  obtain rfl := hq.idle hidle
  exact ⟨h, hQ, fun _ => trivial⟩

theorem wp_write_idle (hreg : Plain reg) (h : Gated ctrl1 dropped p) (hidle : p.busy = none)
    (hQ : Q () (p.setReg reg v)) : wp part (Gated ctrl1 dropped) (writeReg reg v) anyError Q p := by
  refine wp_writeReg h fun q hq => ?_
  obtain rfl := hq.idle hidle
  rw [noting_plain hreg.command, writtenByte_plain hreg]
  exact ⟨⟨h.setReg hreg.control, hQ⟩, fun _ => ⟨h.failed hreg.control, trivial⟩,
    fun _ => ⟨(h.setReg hreg.control).failed hreg.control, trivial⟩⟩

theorem wp_command_idle (h : Gated ctrl1 dropped p) (hidle : p.busy = none)
    (hproper : v = EE_CMD_WRITE → p.commit.Proper) (hQ : Q () ((p.noting REG_EE_CMD [v]).command v)) :
    wp part (Gated ctrl1 dropped) (writeReg REG_EE_CMD v) anyError Q p := by
  refine wp_writeReg h fun q hq => ?_
  obtain rfl := hq.idle hidle
  have hnoted : Gated ctrl1 dropped (q.noting REG_EE_CMD [v]) := by
    unfold Part.noting
    split
    next hwrite =>
        refine ⟨fun c hc => ?_, h.control, h.kept⟩
        rcases List.mem_cons.mp hc with rfl | hc
        · exact hproper (by simpa using hwrite.2)
        · exact h.proper c hc
    next => exact h
  have hwritten : (q.noting REG_EE_CMD [v]).writtenByte REG_EE_CMD v = (q.noting REG_EE_CMD [v]).command v :=
    if_pos rfl
  rw [hwritten]
  exact ⟨⟨hnoted.command, hQ⟩, fun _ => ⟨hnoted.failed (by decide), trivial⟩,
    fun _ => ⟨hnoted.command.failed (by decide), trivial⟩⟩

-- The handshake's first command does nothing.
theorem wp_commandFirst (h : Gated ctrl1 dropped p) (hidle : p.busy = none) (hQ : Q () p) :
    wp part (Gated ctrl1 dropped) (writeReg REG_EE_CMD EE_CMD_FIRST) anyError Q p := by
  refine wp_command_idle h hidle (fun hwrite => absurd hwrite (by decide)) ?_
  have hnoted : p.noting REG_EE_CMD [EE_CMD_FIRST] = p := if_neg (by decide)
  have hnothing : p.command EE_CMD_FIRST = p := by
    unfold Part.command
    rw [if_neg (by simp [hidle]), if_neg (by decide), if_neg (by decide)]
  rw [hnoted, hnothing]
  exact hQ

-- The wait and the poll after a command.
theorem wp_settled {ms : Nat} (h : Gated ctrl1 dropped p) :
    wp part (Gated ctrl1 dropped) (do delayMs ms; eepromWaitNotBusy) anyError (fun _ q => q = p.finish) p := by
  refine wp_seq (P := fun _ q => q.finish = p.finish)
    (wp_delayMs h fun q hq => ⟨h.settles hq, hq.finish⟩) fun _ q hq hfinish => ?_
  exact wp_eepromWaitNotBusy hq hfinish

-- The part after `rv3028_eeprom_read_byte`.
def Part.loaded (p : Part) (addr : Byte) : Part := (p.setReg REG_EE_ADDR addr).setReg REG_EE_DATA (p.eeprom addr)

theorem wp_eepromReadByte {addr : Byte} (h : Gated ctrl1 dropped p) (hidle : p.busy = none) :
    wp part (Gated ctrl1 dropped) (eepromReadByte addr) anyError
      (fun value q => value = p.eeprom addr ∧ q = p.loaded addr) p := by
  refine wp_seq (P := fun _ q => q = p) (wp_eepromWaitNotBusy h (finish_idle hidle)) fun _ q hq hfinish => ?_
  subst hfinish
  refine wp_seq (P := fun _ r => r = q.setReg REG_EE_ADDR addr) (wp_write_idle plain_addr hq hidle rfl)
    fun _ r hr haddr => ?_
  have hridle : r.busy = none := haddr ▸ hidle
  refine wp_seq (P := fun _ s => s = r) (wp_commandFirst hr hridle rfl) fun _ s hs hsame => ?_
  subst hsame
  have hnoted : s.noting REG_EE_CMD [EE_CMD_READ] = s := if_neg (by decide)
  have hcommand : s.command EE_CMD_READ = { s with busy := some (.load addr) } := by
    unfold Part.command
    rw [if_neg (by simp [hridle]), if_neg (by decide), if_pos rfl, haddr]
    simp [Part.setReg]
  refine wp_seq (P := fun _ u => u = { s with busy := some (.load addr) })
    (wp_command_idle hs hridle (fun hwrite => absurd hwrite (by decide)) (by rw [hnoted, hcommand]))
    fun _ u hu hbusy => ?_
  have hfinish : u.finish = q.loaded addr := by
    rw [hbusy, haddr]
    simp only [Part.finish, Part.loaded, Part.setReg, hidle]
  refine wp_seq (P := fun _ w => w.finish = u.finish) (wp_delayMs hu fun w hw => ⟨hu.settles hw, hw.finish⟩)
    fun _ w hw hwait => ?_
  refine wp_seq (P := fun _ z => z = q.loaded addr) (wp_eepromWaitNotBusy hw (hwait.trans hfinish))
    fun _ z hz hloaded => ?_
  subst hloaded
  refine wp_read_idle hz hidle ⟨?_, rfl⟩
  rw [Part.value, if_neg (by decide)]
  exact Part.setReg_self ..

-- The part after `rv3028_eeprom_write_byte`.
structure Stored (addr data : Byte) (p q : Part) : Prop where
  idle : q.busy = none
  stored : q.eeprom addr = data
  kept : ∀ reg, reg ≠ REG_EE_ADDR → reg ≠ REG_EE_DATA → q.regs reg = p.regs reg

theorem wp_eepromWriteByte {addr data : Byte} (h : Gated ctrl1 dropped p) (hidle : p.busy = none)
    (hpaused : ctrl1 &&& CTRL1_EERD ≠ 0) (hchanges : p.eeprom addr ≠ data) :
    wp part (Gated ctrl1 dropped) (eepromWriteByte addr data) anyError (fun _ q => Stored addr data p q) p := by
  refine wp_seq (P := fun _ q => q = p) (wp_eepromWaitNotBusy h (finish_idle hidle)) fun _ q hq hfinish => ?_
  subst hfinish
  refine wp_seq (P := fun _ r => r = q.setReg REG_EE_ADDR addr) (wp_write_idle plain_addr hq hidle rfl)
    fun _ r hr haddr => ?_
  have hridle : r.busy = none := haddr ▸ hidle
  refine wp_seq (P := fun _ s => s = r.setReg REG_EE_DATA data) (wp_write_idle plain_data hr hridle rfl)
    fun _ s hs hdata => ?_
  have hsidle : s.busy = none := hdata ▸ hridle
  refine wp_seq (P := fun _ u => u = s) (wp_commandFirst hs hsidle rfl) fun _ u hu hsame => ?_
  subst hsame
  have hregAddr : u.regs REG_EE_ADDR = addr := by
    rw [hdata, haddr, Part.setReg_of_ne (by decide), Part.setReg_self]
  have hregData : u.regs REG_EE_DATA = data := by
    rw [hdata, Part.setReg_self]
  have heeprom : u.eeprom = q.eeprom := by rw [hdata, haddr]; rfl
  have hproper : u.commit.Proper := by
    refine ⟨by simp [Part.commit, hsidle], ?_, ?_⟩
    · simpa only [Part.commit, hu.control] using hpaused
    · simpa only [Part.commit, hregAddr, hregData, heeprom] using hchanges
  have hbusy : ((u.noting REG_EE_CMD [EE_CMD_WRITE]).command EE_CMD_WRITE) =
      { u with commits := u.commit :: u.commits, busy := some (.store addr data) } := by
    have hnoted : u.noting REG_EE_CMD [EE_CMD_WRITE] = { u with commits := u.commit :: u.commits } :=
      if_pos ⟨rfl, rfl⟩
    unfold Part.command
    rw [hnoted, if_neg (by simp [hsidle]), if_pos rfl, hregAddr, hregData]
  refine wp_seq (P := fun _ w => w = { u with commits := u.commit :: u.commits, busy := some (.store addr data) })
    (wp_command_idle hu hsidle (fun _ => hproper) hbusy) fun _ w hw hstore => ?_
  refine wp_mono (wp_settled hw) (fun _ _ _ h => h) fun _ z _ hz => ?_
  subst hz
  refine ⟨finish_busy w, ?_, fun reg hreg hreg' => ?_⟩
  · rw [hstore]
    exact Function.update_self ..
  · have hregs : w.regs reg = u.regs reg := by rw [hstore]
    rw [finish_regs hreg', hregs, hdata, haddr, Part.setReg_of_ne hreg', Part.setReg_of_ne hreg]

-- A mirror byte is none of the registers that the access itself uses.
structure Mirror (addr : Byte) : Prop extends Plain addr where
  address : addr ≠ REG_EE_ADDR
  data : addr ≠ REG_EE_DATA

theorem wp_commitByte {addr : Byte} (change : Byte → Byte) (hmirror : Mirror addr)
    (h : Gated ctrl1 dropped p) (hpaused : ctrl1 &&& CTRL1_EERD ≠ 0) :
    wp part (Gated ctrl1 dropped) (commitByte addr change) anyError
      (fun _ q => q.busy = none ∧ q.regs addr = change (p.regs addr) ∧ q.eeprom addr = change (p.regs addr)) p := by
  refine wp_seq (P := fun _ q => q = p.finish) (wp_eepromWaitNotBusy h rfl) fun _ q hq hfinish => ?_
  have hidle : q.busy = none := hfinish ▸ finish_busy p
  have hbyte : q.value addr = p.regs addr := by
    rw [Part.value, if_neg hmirror.status, hfinish, finish_regs hmirror.data]
  refine wp_seq (P := fun v r => v = p.regs addr ∧ r = q) (wp_read_idle hq hidle ⟨hbyte, rfl⟩) ?_
  rintro v r hr ⟨rfl, rfl⟩
  refine wp_seq (P := fun _ s => s = r.setReg addr (change (p.regs addr)))
    (wp_write_idle hmirror.toPlain hr hidle rfl) fun _ s hs hset => ?_
  have hsidle : s.busy = none := hset ▸ hidle
  have hmirrored : s.regs addr = change (p.regs addr) := by
    rw [hset, Part.setReg_self]
  refine wp_seq (P := fun ee u => ee = s.eeprom addr ∧ u = s.loaded addr) (wp_eepromReadByte hs hsidle) ?_
  rintro ee u hu ⟨rfl, rfl⟩
  have hkept : (s.loaded addr).regs addr = change (p.regs addr) := by
    rw [Part.loaded, Part.setReg_of_ne hmirror.data, Part.setReg_of_ne hmirror.address, hmirrored]
  refine wp_onlyIf (fun hne => ?_) fun heq => ⟨hu, hsidle, hkept, not_not.mp heq⟩
  refine wp_mono (wp_eepromWriteByte hu hsidle hpaused hne) (fun _ _ _ h => h) fun _ z _ hz => ?_
  exact ⟨hz.idle, (hz.kept addr hmirror.address hmirror.data).trans hkept, hz.stored⟩

end Rules

end Gate

-- Write commands are proper, and a failed transfer to CONTROL_1 is not forgotten.
structure Sound (dropped : Bool) (p : Part) : Prop where
  proper : ∀ c ∈ p.commits, c.Proper
  kept : dropped = true → p.dropped = true

section Config

variable {p q : Part} {addr : Byte} {change : Byte → Byte}

-- Where a failing call leaves the refresh paused, it failed with a timeout or in a transfer to CONTROL_1.
def Resumed (p : Part) (err : AlpError) (q : Part) : Prop :=
  q.regs REG_CONTROL_1 = p.regs REG_CONTROL_1 ∨ err = .timeout ∨ q.dropped = true

-- What a call that succeeds has done to the byte at `addr`.
structure Changed (addr : Byte) (change : Byte → Byte) (p q : Part) : Prop where
  idle : q.busy = none
  mirror : q.regs addr = change (p.regs addr)
  eeprom : q.eeprom addr = change (p.regs addr)
  control : q.regs REG_CONTROL_1 = p.regs REG_CONTROL_1

theorem or_eerd {b : Byte} (h : b &&& CTRL1_EERD ≠ 0) : b ||| CTRL1_EERD = b := by
  revert b
  decide +kernel

theorem or_eerd_paused (b : Byte) : (b ||| CTRL1_EERD) &&& CTRL1_EERD ≠ 0 := by
  revert b
  decide +kernel

theorem Sound.settles (h : Sound p.dropped p) (hsettles : p.Settles q) : Sound p.dropped q := by
  rcases hsettles with rfl | rfl
  · exact h
  · refine ⟨?_, fun hdropped => (finish_dropped p).trans hdropped⟩
    rw [finish_commits]
    exact h.proper

theorem settles_dropped (h : p.Settles q) : q.dropped = p.dropped := by
  rcases h with rfl | rfl
  · rfl
  · exact finish_dropped p

-- A write of CONTROL_1, whatever comes of it.
theorem wp_writeControl {v : Byte} {dropped : Bool} {E : AlpError → Part → Prop} {Q : Unit → Part → Prop}
    (h : Sound dropped p)
    (hQ : ∀ q, p.Settles q → Sound dropped (q.setReg REG_CONTROL_1 v) → Q () (q.setReg REG_CONTROL_1 v))
    (hE : ∀ err q, q.dropped = true → E err q) :
    wp part (Sound dropped) (writeReg REG_CONTROL_1 v) E Q p := by
  refine wp_writeReg h fun q hq => ?_
  have hsound : Sound dropped q := by
    refine ⟨?_, fun hdropped => (settles_dropped hq).trans (h.kept hdropped)⟩
    rcases hq with rfl | rfl
    · exact h.proper
    · rw [finish_commits]
      exact h.proper
  have hnoted : q.noting REG_CONTROL_1 [v] = q := noting_plain (by decide) _ q
  have hwritten : q.writtenByte REG_CONTROL_1 v = q.setReg REG_CONTROL_1 v := by
    rw [Part.writtenByte, if_neg (by decide), if_neg (by decide)]
  rw [hnoted, hwritten]
  have hset : Sound dropped (q.setReg REG_CONTROL_1 v) := ⟨hsound.proper, hsound.kept⟩
  have hfailed : ∀ r : Part, (r.failed REG_CONTROL_1).dropped = true := fun r => by simp [Part.failed]
  exact ⟨⟨hset, hQ q hq hset⟩, fun err => ⟨⟨hsound.proper, fun _ => hfailed q⟩, hE err _ (hfailed q)⟩,
    fun err => ⟨⟨hset.proper, fun _ => hfailed _⟩, hE err _ (hfailed _)⟩⟩

-- EERD on the way out: `s` is the outcome of the access.
theorem wp_restoreEerd {t : Part} {s : Status} (hmirror : Mirror addr) (h : Sound p.dropped t)
    (hcontrol : t.regs REG_CONTROL_1 = p.regs REG_CONTROL_1 ||| CTRL1_EERD)
    (hdone : s = .ok () → t.busy = none ∧ t.regs addr = change (p.regs addr) ∧ t.eeprom addr = change (p.regs addr)) :
    wp part (Sound p.dropped)
      (restoreEerd (p.regs REG_CONTROL_1 &&& CTRL1_EERD) (p.regs REG_CONTROL_1) s) (Resumed p)
      (fun _ q => Changed addr change p q) t := by
  unfold restoreEerd
  split
  next hrestore =>
      refine wp_seq (P := fun r u => (r = .ok () → ∃ x, t.Settles x ∧ u = x.setReg REG_CONTROL_1 (p.regs REG_CONTROL_1)) ∧
          (r ≠ .ok () → u.dropped = true))
        (wp_attempt (wp_writeControl h (fun x hx _ => ⟨fun _ => ⟨x, hx, rfl⟩, fun hne => absurd rfl hne⟩)
          fun err u hu => ⟨nofun, fun _ => hu⟩)) ?_
      rintro r u hsound ⟨hwritten, hlost⟩
      cases r with
      | error err =>
          have hdropped : u.dropped = true := hlost nofun
          cases s with
          | error err' => exact ⟨hsound, .inr (.inr hdropped)⟩
          | ok _ => exact ⟨hsound, .inr (.inr hdropped)⟩
      | ok _ =>
          obtain ⟨x, hx, rfl⟩ := hwritten rfl
          cases s with
          | error err' => exact ⟨hsound, .inl (Part.setReg_self ..)⟩
          | ok _ =>
              obtain ⟨hidle, hbyte, heeprom⟩ := hdone rfl
              obtain rfl := hx.idle hidle
              refine ⟨hsound, hidle, ?_, heeprom, Part.setReg_self ..⟩
              rw [Part.setReg_of_ne hmirror.control, hbyte]
  next hkeep =>
      cases s with
      | error err =>
          refine ⟨h, ?_⟩
          by_cases hclear : p.regs REG_CONTROL_1 &&& CTRL1_EERD = 0
          · refine .inr (.inl ?_)
            by_contra htimeout
            exact hkeep ⟨hclear, fun heq => htimeout (Except.error.inj heq)⟩
          · exact .inl (hcontrol.trans (or_eerd hclear))
      | ok _ =>
          obtain ⟨hidle, hbyte, heeprom⟩ := hdone rfl
          have hset : p.regs REG_CONTROL_1 &&& CTRL1_EERD ≠ 0 := fun hclear => hkeep ⟨hclear, nofun⟩
          exact ⟨h, hidle, hbyte, heeprom, hcontrol.trans (or_eerd hset)⟩

theorem wp_changeConfig (hmirror : Mirror addr) (h : Sound p.dropped p) :
    wp part (Sound p.dropped) (changeConfig addr change) (Resumed p) (fun _ q => Changed addr change p q) p := by
  refine wp_seq (P := fun ctrl1 q => ctrl1 = p.regs REG_CONTROL_1 ∧ p.Settles q)
    (wp_readReg h fun q hq => ⟨h.settles hq, ⟨settles_regs (by decide) hq, hq⟩,
      fun err => .inl (settles_regs (by decide) hq)⟩) ?_
  rintro ctrl1 q hsound ⟨rfl, hq⟩
  -- the gate: EERD is set in CONTROL_1, by this call or before it
  refine wp_seq (P := fun _ r => r.dropped = p.dropped ∧ r.regs addr = p.regs addr ∧
      r.regs REG_CONTROL_1 = p.regs REG_CONTROL_1 ||| CTRL1_EERD ∧
      (p.regs REG_CONTROL_1 &&& CTRL1_EERD ≠ 0 → r.regs REG_CONTROL_1 = p.regs REG_CONTROL_1)) ?_ ?_
  · refine wp_onlyIf (fun hclear => ?_) fun hset => ?_
    · refine wp_writeControl hsound (fun r hr _ => ?_) fun err r hdropped => .inr (.inr hdropped)
      refine ⟨(settles_dropped hr).trans (settles_dropped hq), ?_, Part.setReg_self .., fun hset => absurd hclear hset⟩
      rw [Part.setReg_of_ne hmirror.control, settles_regs hmirror.data hr, settles_regs hmirror.data hq]
    · have hsame : p.regs REG_CONTROL_1 ||| CTRL1_EERD = p.regs REG_CONTROL_1 := or_eerd hset
      have hcontrol := settles_regs (by decide : REG_CONTROL_1 ≠ REG_EE_DATA) hq
      exact ⟨hsound, settles_dropped hq, settles_regs hmirror.data hq, hcontrol.trans hsame.symm, fun _ => hcontrol⟩
  · rintro _ r hsound ⟨hdropped, hbyte, hcontrol, hset⟩
    have hgated : Gated (p.regs REG_CONTROL_1 ||| CTRL1_EERD) p.dropped r := ⟨hsound.proper, hcontrol, hdropped⟩
    have hpaused : (p.regs REG_CONTROL_1 ||| CTRL1_EERD) &&& CTRL1_EERD ≠ 0 := or_eerd_paused _
    have hcommit := wp_relax (wp_commitByte change hmirror hgated hpaused)
      fun s hs => (⟨hs.proper, fun h => hs.kept.trans h⟩ : Sound p.dropped s)
    refine wp_seq (P := fun s t => Gated (p.regs REG_CONTROL_1 ||| CTRL1_EERD) p.dropped t ∧
        (s = .ok () → t.busy = none ∧ t.regs addr = change (p.regs addr) ∧ t.eeprom addr = change (p.regs addr)))
      (wp_attempt (wp_mono hcommit (fun err t _ ht => ⟨ht.1, nofun⟩) fun _ t _ ht => ⟨ht.1, fun _ => ?_⟩)) ?_
    · rw [← hbyte]
      exact ht.2
    · rintro s t hsound ⟨hgate, hdone⟩
      exact wp_restoreEerd hmirror hsound hgate.control hdone

end Config

-- The calls the claim is about: the enable of the backup switchover and the route of CLKOUT.
inductive Call where
  | backupSwitch (enable : Bool)
  | route (src : ClkoutSrc)

def Call.code : Call → Rtc Unit
  | .backupSwitch enable => setIntEnable .bsf enable
  | .route src => routeClkout src

def Call.addr : Call → Byte
  | .backupSwitch _ => EEPROM_BACKUP_ADDR
  | .route _ => EEPROM_CLKOUT_ADDR

-- The bits of the byte that a call is to set, and what to.
def Call.mask : Call → Byte
  | .backupSwitch _ => EEPROM_BACKUP_BSIE
  | .route _ => EEPROM_CLKOUT_MASK

def Call.bits : Call → Byte
  | .backupSwitch enable => if enable then EEPROM_BACKUP_BSIE else 0
  | .route src => src.code

def Call.change : Call → Byte → Byte
  | .backupSwitch enable => enabling EEPROM_BACKUP_BSIE enable
  | .route src => selecting src

theorem Call.code_eq (call : Call) : call.code = changeConfig call.addr call.change := by
  cases call <;> rfl

theorem mirror_backup : Mirror EEPROM_BACKUP_ADDR := ⟨⟨by decide, by decide, by decide⟩, by decide, by decide⟩

theorem mirror_clkout : Mirror EEPROM_CLKOUT_ADDR := ⟨⟨by decide, by decide, by decide⟩, by decide, by decide⟩

theorem Call.mirror (call : Call) : Mirror call.addr := by
  cases call with
  | backupSwitch enable => exact mirror_backup
  | route src => exact mirror_clkout

-- The call sets its own bits and keeps the others.
theorem Call.change_spec (call : Call) (v : Byte) :
    call.change v &&& call.mask = call.bits ∧ call.change v &&& ~~~ call.mask = v &&& ~~~ call.mask := by
  revert v
  cases call with
  | backupSwitch enable => cases enable <;> decide +kernel
  | route src => cases src <;> decide +kernel

-- A sequence of calls, the newest first, each run to its end, with its outcome.
inductive Run (p₀ : Part) : List (Call × Status) → Part → Prop where
  | start : Run p₀ [] p₀
  | call {calls : List (Call × Status)} {p p' : Part} (h : Run p₀ calls p) (call : Call) (result : Status)
      (hexec : Exec part p call.code (some result) p') : Run p₀ ((call, result) :: calls) p'

-- No call so far ran into a timeout, and no transfer to CONTROL_1 failed.
def Undisturbed (calls : List (Call × Status)) (p : Part) : Prop :=
  (∀ x ∈ calls, x.2 ≠ .error .timeout) ∧ p.dropped = false

structure Fresh (p : Part) : Prop where
  commits : p.commits = []
  dropped : p.dropped = false

theorem call_spec {p p' : Part} {call : Call} {out : Option Status} (h : ∀ c ∈ p.commits, c.Proper)
    (hexec : Exec part p call.code out p') :
    Sound p.dropped p' ∧ (∀ err, out = some (.error err) → Resumed p err p') ∧
      (out = some (.ok ()) → Changed call.addr call.change p p') := by
  rw [call.code_eq] at hexec
  obtain ⟨hsound, herr, hok⟩ := wp_sound hexec (wp_changeConfig call.mirror ⟨h, id⟩)
  exact ⟨hsound, herr, fun hout => hok () hout⟩

theorem run_spec {p₀ p : Part} {calls : List (Call × Status)} (hfresh : Fresh p₀) (hrun : Run p₀ calls p) :
    (∀ c ∈ p.commits, c.Proper) ∧
      (Undisturbed calls p → p.regs REG_CONTROL_1 = p₀.regs REG_CONTROL_1) := by
  induction hrun with
  | start =>
      rw [hfresh.commits]
      exact ⟨nofun, fun _ => rfl⟩
  | @call calls p p' _ call result hexec ih =>
      obtain ⟨hproper, hcontrol⟩ := ih
      obtain ⟨hsound, herr, hok⟩ := call_spec hproper hexec
      refine ⟨hsound.proper, fun hcalm => ?_⟩
      obtain ⟨htimeouts, hdropped⟩ := hcalm
      have hbefore : Undisturbed calls p := by
        refine ⟨fun x hx => htimeouts x (List.mem_cons_of_mem _ hx), ?_⟩
        cases hp : p.dropped with
        | false => rfl
        | true => exact absurd (hsound.kept hp) (by simp [hdropped])
      rw [← hcontrol hbefore]
      cases result with
      | ok _ => exact (hok rfl).control
      | error err =>
          rcases herr err rfl with hsame | htimeout | hlost
          · exact hsame
          · exact absurd (congrArg _ htimeout) (htimeouts _ List.mem_cons_self)
          · exact absurd hlost (by simp [hdropped])

-- A call that succeeds leaves its bits in the mirror and in the EEPROM and EERD as it found it; EERD is
-- what it was at first unless an earlier call left it set, over an access that may be in flight or
-- after a transfer to CONTROL_1 that failed.
theorem config_commits {p₀ p p' : Part} {calls : List (Call × Status)} {call : Call} {out : Option Status}
    (hfresh : Fresh p₀) (hrun : Run p₀ calls p) (hexec : Exec part p call.code out p') :
    (∀ c ∈ p'.commits, c.Proper) ∧
      (out = some (.ok ()) →
        p'.eeprom call.addr = p'.regs call.addr ∧ p'.regs call.addr &&& call.mask = call.bits ∧
        p'.regs call.addr &&& ~~~ call.mask = p.regs call.addr &&& ~~~ call.mask ∧
        p'.regs REG_CONTROL_1 &&& CTRL1_EERD = p.regs REG_CONTROL_1 &&& CTRL1_EERD ∧
        (Undisturbed calls p →
          p'.regs REG_CONTROL_1 &&& CTRL1_EERD = p₀.regs REG_CONTROL_1 &&& CTRL1_EERD)) := by
  obtain ⟨hproper, hcontrol⟩ := run_spec hfresh hrun
  obtain ⟨hsound, -, hok⟩ := call_spec hproper hexec
  refine ⟨hsound.proper, fun hout => ?_⟩
  have hchanged := hok hout
  obtain ⟨hbits, hothers⟩ := call.change_spec (p.regs call.addr)
  refine ⟨hchanged.eeprom.trans hchanged.mirror.symm, ?_, ?_, ?_, fun hcalm => ?_⟩
  · rw [hchanged.mirror, hbits]
  · rw [hchanged.mirror, hothers]
  · rw [hchanged.control]
  · rw [hchanged.control, hcontrol hcalm]

section Trace

-- A part that answers every transfer.
def Part.answer (p : Part) : (cmd : Cmd) → signature.Reply cmd × Part
  | .read reg => (.ok (p.value reg), p)
  | .write reg data => (.ok (), (p.noting reg data).written reg data)
  | .delay _ => ((), p)

theorem answer_allowed (p : Part) (cmd : Cmd) : p.Allows cmd (p.answer cmd).1 (p.answer cmd).2 := by
  cases cmd with
  | read reg => exact ⟨rfl, .inl rfl⟩
  | write reg data => exact .inl ⟨rfl, rfl⟩
  | delay ms => rfl

-- EEbusy that never clears, and EEbusy that has always cleared by the next transfer.
def stuck : Handler signature Part := fun cmd p => p.answer cmd
def prompt : Handler signature Part := fun cmd p => p.finish.answer cmd

theorem stuck_allowed (cmd : Cmd) (p : Part) : part p cmd (stuck cmd p).1 (stuck cmd p).2 :=
  ⟨p, .inl rfl, answer_allowed p cmd⟩

-- Prompt, but the part does not acknowledge a write to CONTROL_1 while the refresh is off.
def deaf : Handler signature Part := fun cmd p =>
  match cmd with
  | .write reg data =>
      if reg = REG_CONTROL_1 ∧ p.regs REG_CONTROL_1 &&& CTRL1_EERD ≠ 0 then
        (.error .io, p.finish.failed reg)
      else prompt (.write reg data) p
  | .read reg => prompt (.read reg) p
  | .delay ms => prompt (.delay ms) p

theorem prompt_allowed (cmd : Cmd) (p : Part) : part p cmd (prompt cmd p).1 (prompt cmd p).2 :=
  ⟨p.finish, .inr rfl, answer_allowed p.finish cmd⟩

theorem deaf_allowed (cmd : Cmd) (p : Part) : part p cmd (deaf cmd p).1 (deaf cmd p).2 := by
  cases cmd with
  | read reg => exact prompt_allowed (.read reg) p
  | delay ms => exact prompt_allowed (.delay ms) p
  | write reg data =>
      simp only [deaf]
      split
      case isTrue hdeaf =>
        refine ⟨p.finish, .inr rfl, .inr ⟨.io, 0, rfl, ?_⟩⟩
        have hplain : reg ≠ REG_EE_CMD := hdeaf.1 ▸ (by decide)
        simp only [List.take_zero, Part.written, Part.noting, hplain, false_and, if_false]
      case isFalse => exact prompt_allowed (.write reg data) p

-- A part in the middle of a load, with the refresh on.
def loading : Part := ⟨fun _ => 0, fun _ => 0, some (.load 0), [], false⟩

def afterTimeout : Part := ((Call.route .low).code.run stuck loading).2

def afterRoute : Part := ((Call.route .low).code.run prompt afterTimeout).2

theorem timed_out : Exec part loading (Call.route .low).code (some (.error .timeout)) afterTimeout := by
  have hresult : ((Call.route .low).code.run stuck loading).1 = .error .timeout := rfl
  have hexec := exec_of_run stuck_allowed (Call.route .low).code loading
  rwa [hresult] at hexec

theorem routed : Exec part afterTimeout (Call.route .low).code (some (.ok ())) afterRoute := by
  have hresult : ((Call.route .low).code.run prompt afterTimeout).1 = .ok () := rfl
  have hexec := exec_of_run prompt_allowed (Call.route .low).code afterTimeout
  rwa [hresult] at hexec

-- An idle part with the refresh on, which is not put back.
def resting : Part := ⟨fun _ => 0, fun _ => 0, none, [], false⟩

def afterFailure : Part := ((Call.route .low).code.run deaf resting).2

theorem failed_restore : Exec part resting (Call.route .low).code (some (.error .io)) afterFailure := by
  have hresult : ((Call.route .low).code.run deaf resting).1 = .error .io := rfl
  have hexec := exec_of_run deaf_allowed (Call.route .low).code resting
  rwa [hresult] at hexec

theorem routed_again : Exec part afterFailure (Call.route .low).code (some (.ok ()))
    ((Call.route .low).code.run prompt afterFailure).2 := by
  have hresult : ((Call.route .low).code.run prompt afterFailure).1 = .ok () := rfl
  have hexec := exec_of_run prompt_allowed (Call.route .low).code afterFailure
  rwa [hresult] at hexec

-- The call after one that returned the error succeeds and leaves EERD set, which was clear
-- before the first of them.
def LeavesEerd (err : AlpError) : Prop :=
  ∃ (p₀ p p' : Part) (call : Call), Fresh p₀ ∧ Run p₀ [(call, .error err)] p ∧
    Exec part p call.code (some (.ok ())) p' ∧
    p'.regs REG_CONTROL_1 &&& CTRL1_EERD ≠ p₀.regs REG_CONTROL_1 &&& CTRL1_EERD

theorem eerd_left_set : LeavesEerd .timeout ∧ LeavesEerd .io :=
  ⟨⟨loading, afterTimeout, afterRoute, .route .low, ⟨rfl, rfl⟩, .call .start _ _ timed_out, routed,
      by decide +kernel⟩,
    ⟨resting, afterFailure, _, .route .low, ⟨rfl, rfl⟩, .call .start _ _ failed_restore, routed_again,
      by decide +kernel⟩⟩

theorem config_commits_low :
    (∀ c ∈ afterRoute.commits, c.Proper) ∧
      (some (.ok ()) = some (Except.ok () : Status) →
        afterRoute.eeprom (Call.route .low).addr = afterRoute.regs (Call.route .low).addr ∧
        afterRoute.regs (Call.route .low).addr &&& (Call.route .low).mask = (Call.route .low).bits ∧
        afterRoute.regs (Call.route .low).addr &&& ~~~ (Call.route .low).mask =
          afterTimeout.regs (Call.route .low).addr &&& ~~~ (Call.route .low).mask ∧
        afterRoute.regs REG_CONTROL_1 &&& CTRL1_EERD = afterTimeout.regs REG_CONTROL_1 &&& CTRL1_EERD ∧
        (Undisturbed [(.route .low, .error .timeout)] afterTimeout →
          afterRoute.regs REG_CONTROL_1 &&& CTRL1_EERD = loading.regs REG_CONTROL_1 &&& CTRL1_EERD)) :=
  config_commits ⟨rfl, rfl⟩ (.call .start _ _ timed_out) routed

end Trace

end AlpSdk.Rv3028c7
