import AlpSdk.Cc3501e.UpdateCalls

-- The boot that the bridge is in, under the update, reset and power calls of one thread.
namespace AlpSdk.Cc3501e

open Library.Effect Library.Interleave Library.Bytes

-- Whether it is the polled boot, whether a BEGIN was ever clocked in the other one, and whether the
-- polled boot was left on a FINISH that nothing the driver has read since tells of.
structure Boot where
  polled : Bool
  wedged : Bool
  unheard : Bool
  deriving DecidableEq

-- The boot a frame leads to once the bridge acts on it. OTA_FINISH and OTA_PROMOTE arm the
-- swap-reboot, which lands in the normal bridge.
def Frame.boots (frame : Frame) : Option Bool :=
  match frame.cmd with
  | .otaUpdateMode => some (frame.payload = [1])
  | .otaFinish | .otaPromote => some false
  | _ => none

def Boot.mode (b : Boot) : UInt8 := if b.polled then 1 else 0

-- The bridge may have acted on the frame, or have lost it.
def Boot.Acts (b : Boot) (frame : Frame) (b' : Boot) : Prop :=
  b'.polled = b.polled ∨ frame.boots = some b'.polled

-- An accepted reply to 0x47 reads back the boot. An accepted reply to FINISH or PROMOTE is no proof
-- of the swap.
def Boot.Truthful (b : Boot) (frame : Frame) (reply : Except AlpError Answer) (b' : Boot) : Prop :=
  ∀ answer, reply = .ok answer → answer.status = .ok () → frame.cmd = .otaUpdateMode →
    ∀ mode, answer.data.head? = some mode → mode = b.mode ∨ mode = b'.mode

def Cmd.begins : Cmd → Bool
  | .clock _ frame => frame.cmd = .otaBegin
  | _ => false

def Cmd.finishes : Cmd → Bool
  | .clock _ frame | .collect frame => frame.cmd = .otaFinish
  | _ => false

-- The reply tells that a FINISH was carried out: the FINISH is accepted, or the status is STAGED.
def Frame.tellsFinish (frame : Frame) (answer : Answer) : Bool :=
  answer.status = .ok () ∧ (frame.cmd = .otaFinish ∨ frame.cmd = .otaStatus ∧
    12 ≤ (answer.data.take 16).length ∧ (OtaStatus.decode (answer.data.take 16)).state = OTA_STATE_STAGED)

def Cmd.tellsFinish : (cmd : Cmd) → bridge.Reply cmd → Bool
  | .collect frame, .ok answer => frame.tellsFinish answer
  | _, _ => false

-- The replies and the losses are the bridge's to choose. A pulse of nRESET and a cut of the
-- supply end in the normal boot.
def booting : Env bridge Boot := fun b cmd reply b' =>
  b'.wedged = (b.wedged || (cmd.begins && !b.polled)) ∧
  b'.unheard = (!b'.polled && !cmd.tellsFinish reply && (b.unheard || (cmd.finishes && b.polled))) ∧
  match cmd, reply with
  | .write _ level, _ => b'.polled = (b.polled && level)
  | .clock _ frame, _ => b.Acts frame b'
  | .collect frame, reply => b.Acts frame b' ∧ b.Truthful frame reply b'
  | _, _ => b'.polled = b.polled

-- No pin is pulled, and the bridge does not swap on a PROMOTE.
def Cmd.keeps (b b' : Boot) : Cmd → Bool
  | .write _ level => level
  | .clock _ frame | .collect frame => frame.cmd = .otaPromote → b'.polled = b.polled
  | _ => true

-- The runs in which both are so as long as `g_peer_polled` is set.
def careful : Env bridge (Link Boot) := fun s cmd reply s' =>
  alone booting s cmd reply s' ∧ (s.ctx.peerPolled = true → cmd.keeps s.peer s'.peer = true)

-- The public calls of a run.
inductive PublicCall where
  | otaUpdateMode (enable : Bool) (timeoutMs : UInt32)
  | otaBegin (totalLen timeoutMs : UInt32)
  | otaWrite (offset : UInt32) (data : List UInt8)
  | otaFinish (timeoutMs : UInt32)
  | otaAbort (timeoutMs : UInt32)
  | otaPromote (timeoutMs : UInt32)
  | otaUpdate (image : List UInt8) (timeoutMs : UInt32)
  | hardReset
  | reset
  | powerOff
  | recover

def PublicCall.program (cfg : Config) : PublicCall → Driver Status
  | .otaUpdateMode enable timeoutMs => Cc3501e.otaUpdateMode cfg enable timeoutMs
  | .otaBegin totalLen timeoutMs => Cc3501e.otaBegin cfg totalLen timeoutMs
  | .otaWrite offset data => Cc3501e.otaWrite cfg offset data
  | .otaFinish timeoutMs => Cc3501e.otaFinish cfg timeoutMs
  | .otaAbort timeoutMs => Cc3501e.otaAbort cfg timeoutMs
  | .otaPromote timeoutMs => Cc3501e.otaPromote cfg timeoutMs
  | .otaUpdate image timeoutMs => Cc3501e.otaUpdate cfg image timeoutMs
  | .hardReset => Cc3501e.hardReset cfg
  | .reset => Cc3501e.reset cfg
  | .powerOff => Cc3501e.powerOff cfg
  | .recover => Cc3501e.recover cfg

-- While `g_peer_polled` is set and a FINISH that ended the polled boot is unheard of, the caller asks
-- for nothing but the update mode, by itself or as the start of an update.
def PublicCall.Heeds (call : PublicCall) (s : Link Boot) : Prop :=
  s.ctx.peerPolled = true → s.peer.unheard = true →
    match call with
    | .otaUpdateMode _ _ | .otaUpdate _ _ => True
    | _ => False

-- One call after another, each to its end.
def Calls (env : Env bridge (Link Boot)) (cfg : Config) (guard : PublicCall → Link Boot → Prop) :
    Link Boot → Link Boot → Prop :=
  Relation.ReflTransGen fun s s' =>
    ∃ call value, guard call s ∧ Exec env s (call.program cfg) (some value) s'

section Invariants

variable {s s' : Link Boot} {cmd : Cmd} {reply : bridge.Reply cmd}

def Safe (s : Link Boot) : Prop := s.peer.wedged = false

-- No execution of the code from here clocks a BEGIN outside of the polled boot.
abbrev Safely {α : Type} (p : Driver α) (Q : α → Link Boot → Prop) (s : Link Boot) : Prop :=
  wp careful Safe p Q s

structure Clear (s : Link Boot) : Prop where
  safe : Safe s
  flag : s.ctx.peerPolled = false

structure Gated (s : Link Boot) : Prop where
  safe : Safe s
  flag : s.ctx.peerPolled = true
  polled : s.peer.polled = true

-- Inside an update session, in either boot, and in the polled one.
structure Hosting (s : Link Boot) : Prop where
  safe : Safe s
  ready : s.ctx.initialised = true
  session : s.ctx.otaSessionActive = true

structure Sitting (s : Link Boot) : Prop where
  hosting : Hosting s
  polled : s.peer.polled = true

-- What holds between two calls.
structure Settled (s : Link Boot) : Prop where
  safe : Safe s
  told : s.ctx.peerPolled = true → s.peer.polled = true ∨ s.peer.unheard = true

theorem Clear.settled (h : Clear s) : Settled s := ⟨h.safe, fun hflag => by simp [h.flag] at hflag⟩

theorem Gated.settled (h : Gated s) : Settled s := ⟨h.safe, fun _ => .inl h.polled⟩

theorem Sitting.settled (h : Sitting s) : Settled s := ⟨h.hosting.safe, fun _ => .inl h.polled⟩

def Cmd.Stays : Cmd → Prop
  | .write _ _ => False
  | .clock _ frame | .collect frame => frame.boots = none
  | _ => True

theorem polled_step (he : careful s cmd reply s') (h : cmd.Stays) :
    s'.peer.polled = s.peer.polled := by
  have hpeer := he.1.2.2.2.2
  cases cmd with
  | write pin level => exact h.elim
  | clock transfer frame => exact hpeer.resolve_right (by simp [show frame.boots = none from h])
  | collect frame => exact hpeer.1.resolve_right (by simp [show frame.boots = none from h])
  | _ => exact hpeer

theorem safe_step (he : careful s cmd reply s') (hs : Safe s)
    (h : cmd.begins = true → s.peer.polled = true) : Safe s' := by
  refine he.1.2.2.1.trans ?_
  rw [show s.peer.wedged = false from hs]
  cases hbegins : cmd.begins with
  | false => rfl
  | true => simp [h hbegins]

theorem clear_step (he : careful s cmd reply s') (hs : Clear s) (hbegins : cmd.begins = false)
    (htouches : ¬ cmd.Touches .peerPolled) : Clear s' :=
  ⟨safe_step he hs.safe (by simp [hbegins]), (flag_step he.1 htouches).trans hs.flag⟩

theorem hosting_step (he : careful s cmd reply s') (hs : Hosting s)
    (hbegins : cmd.begins = true → s.peer.polled = true) (hready : ¬ cmd.Touches .initialised)
    (hsession : ¬ cmd.Touches .otaSessionActive) : Hosting s' :=
  ⟨safe_step he hs.safe hbegins, (flag_step he.1 hready).trans hs.ready,
    (flag_step he.1 hsession).trans hs.session⟩

theorem sitting_step (he : careful s cmd reply s') (hs : Sitting s) (hstays : cmd.Stays)
    (hready : ¬ cmd.Touches .initialised) (hsession : ¬ cmd.Touches .otaSessionActive) : Sitting s' :=
  ⟨hosting_step he hs.hosting (fun _ => hs.polled) hready hsession, (polled_step he hstays).trans hs.polled⟩

-- The polled boot is left on a FINISH only.
theorem left_step (he : careful s cmd reply s') (hflag : s.ctx.peerPolled = true) (hpolled : s.peer.polled = true)
    (hmode : cmd.Spares (· ≠ .otaUpdateMode)) : s'.peer.polled = true ∨ cmd.finishes = true := by
  have hpeer := he.1.2.2.2.2
  have hkeeps := he.2 hflag
  have hacts (frame : Frame) (hmode : frame.cmd ≠ .otaUpdateMode)
      (hkeeps : frame.cmd = .otaPromote → s'.peer.polled = s.peer.polled) (hacts : s.peer.Acts frame s'.peer) :
      s'.peer.polled = true ∨ frame.cmd = .otaFinish := by
    obtain hsame | hboots := hacts
    · exact .inl (hsame.trans hpolled)
    · unfold Frame.boots at hboots
      split at hboots
      case h_1 heq => exact absurd heq hmode
      case h_2 heq => exact .inr heq
      case h_3 heq => exact .inl ((hkeeps heq).trans hpolled)
      case h_4 => cases hboots
  cases cmd with
  | write pin level =>
      obtain rfl : level = true := hkeeps
      exact .inl (hpeer.trans (by rw [hpolled]; rfl))
  | clock transfer frame =>
      exact (hacts frame hmode (of_decide_eq_true hkeeps) hpeer).imp_right decide_eq_true
  | collect frame => exact (hacts frame hmode (of_decide_eq_true hkeeps) hpeer.1).imp_right decide_eq_true
  | _ => exact .inl (hpeer.trans hpolled)

theorem gated_step (he : careful s cmd reply s') (hs : Gated s)
    (hmode : cmd.Spares fun op => op ≠ .otaUpdateMode ∧ op ≠ .otaFinish) (htouches : ¬ cmd.Touches .peerPolled) :
    Gated s' := by
  refine ⟨safe_step he hs.safe fun _ => hs.polled, (flag_step he.1 htouches).trans hs.flag, ?_⟩
  refine (left_step he hs.flag hs.polled (hmode.mono fun _ hop => hop.1)).resolve_right fun hfinish => ?_
  cases cmd with
  | clock transfer frame => exact hmode.2 (of_decide_eq_true hfinish)
  | collect frame => exact hmode.2 (of_decide_eq_true hfinish)
  | _ => cases hfinish

-- A FINISH may end the polled boot, but not unseen.
theorem settled_step (he : careful s cmd reply s') (hs : Settled s)
    (hmode : cmd.Spares fun op => op ≠ .otaUpdateMode ∧ op ≠ .otaBegin) (htouches : ¬ cmd.Touches .peerPolled)
    (htells : cmd.tellsFinish reply = false) : Settled s' := by
  have hbegins : cmd.begins = false := by
    cases cmd with
    | clock transfer frame => exact decide_eq_false hmode.2
    | _ => rfl
  refine ⟨safe_step he hs.safe (by simp [hbegins]), fun hflag => ?_⟩
  replace hflag : s.ctx.peerPolled = true := (flag_step (f := .peerPolled) he.1 htouches).symm.trans hflag
  cases hpolled : s'.peer.polled with
  | true => exact .inl rfl
  | false =>
      have hunheard := he.1.2.2.2.1
      rw [hpolled, htells] at hunheard
      obtain hstill | hunseen := hs.told hflag
      · have hfinishes := (left_step he hflag hstill (hmode.mono fun _ hop => hop.1)).resolve_left (by simp [hpolled])
        exact .inr (by simp [hunheard, hfinishes, hstill])
      · exact .inr (by simp [hunheard, hunseen])

end Invariants

section Classes

variable {cmd : Cmd} {ops : Opcode → Prop}

theorem Cmd.Upkeep.begins (h : cmd.Upkeep) : cmd.begins = false := by
  cases cmd with
  | clock transfer frame =>
      refine decide_eq_false fun hbegin => ?_
      simp only [Cmd.Upkeep, hbegin, Opcode.upkeep, Bool.false_eq_true] at h
  | _ => rfl

theorem Cmd.Upkeep.flag (h : cmd.Upkeep) : ¬ cmd.Touches .peerPolled := by
  cases cmd with
  | set f v =>
      intro htouches
      obtain rfl : f = .peerPolled := htouches
      cases h
  | stage off bytes => exact nofun
  | claim flag => cases flag <;> exact nofun
  | releaseRecover s => exact nofun
  | _ => exact id

theorem Cmd.Carries.begins (hops : ¬ ops .otaBegin) (h : cmd.Carries ops) : cmd.begins = false := by
  cases cmd with
  | clock transfer frame =>
      refine decide_eq_false fun hbegin => hops ?_
      rw [← hbegin]
      exact h
  | _ => rfl

theorem Cmd.Looks.stays (h : cmd.Looks) : cmd.begins = false ∧ cmd.Stays := by
  cases cmd with
  | get f => exact ⟨rfl, trivial⟩
  | note n => exact ⟨rfl, trivial⟩
  | _ => exact h.elim

end Classes

section Calls

variable {cfg : Config} {s : Link Boot}

abbrev NotBegin (op : Opcode) : Prop := op ≠ .otaBegin

-- The opcodes that lead to no other boot.
abbrev Staying (op : Opcode) : Prop := op ≠ .otaUpdateMode ∧ op ≠ .otaFinish ∧ op ≠ .otaPromote

theorem boots_staying {frame : Frame} (h : Staying frame.cmd) : frame.boots = none := by
  unfold Frame.boots
  split
  case h_1 heq => exact absurd heq h.1
  case h_2 heq => exact absurd heq h.2.1
  case h_3 heq => exact absurd heq h.2.2
  case h_4 => rfl

theorem Cmd.Carries.stays {cmd : Cmd} (h : cmd.Carries Staying) : cmd.Stays := by
  cases cmd with
  | write pin level => exact h.elim
  | clock transfer frame => exact boots_staying h
  | collect frame => exact boots_staying h
  | _ => trivial

theorem upkept_safe : Upkept careful Safe :=
  fun _ _ _ _ hcmd he hs => safe_step he hs (by simp [hcmd.begins])

theorem carried_safe (cfg : Config) : Carried careful cfg NotBegin Safe := by
  refine ⟨fun s cmd reply s' hcmd he hs => ?_, exits_upkept cfg upkept_safe⟩
  exact safe_step he hs (by simp [Cmd.Carries.begins (not_not.mpr rfl) hcmd])

theorem upkept_clear : Upkept careful Clear :=
  fun _ _ _ _ hcmd he hs => clear_step he hs hcmd.begins hcmd.flag

theorem upkept_settled : Upkept careful Settled := by
  intro s cmd reply s' hcmd he hs
  refine settled_step he hs (hcmd.spares ?_) hcmd.flag ?_
  · rintro op hop
    refine ⟨?_, ?_⟩ <;>
      · rintro rfl
        cases hop
  · cases cmd with
    | collect frame =>
        cases reply with
        | error err => rfl
        | ok answer =>
            refine decide_eq_false fun htells => ?_
            obtain hfinish | ⟨hstatus, -⟩ := htells.2
            · simp [Cmd.Upkeep, hfinish, Opcode.upkeep] at hcmd
            · simp [Cmd.Upkeep, hstatus, Opcode.upkeep] at hcmd
    | _ => rfl

theorem upkept_gated : Upkept careful Gated := by
  intro s cmd reply s' hcmd he hs
  refine gated_step he hs (hcmd.spares ?_) hcmd.flag
  rintro op hop
  refine ⟨?_, ?_⟩ <;>
    · rintro rfl
      cases hop

theorem carried_gated (cfg : Config) :
    Carried careful cfg (fun op => op ≠ .otaUpdateMode ∧ op ≠ .otaFinish) Gated := by
  refine ⟨fun s cmd reply s' hcmd he hs => ?_, exits_upkept cfg upkept_gated⟩
  exact gated_step he hs hcmd.spares (hcmd.touches nofun nofun)

theorem carried_clear (cfg : Config) : Carried careful cfg NotBegin Clear := by
  refine ⟨fun s cmd reply s' hcmd he hs => ?_, exits_upkept cfg upkept_clear⟩
  exact clear_step he hs (Cmd.Carries.begins (not_not.mpr rfl) hcmd) (hcmd.touches nofun nofun)

theorem looks_hosting : Preserves careful Cmd.Looks Hosting := by
  intro s cmd reply s' hcmd he hs
  exact hosting_step he hs (by simp [hcmd.stays.1]) (hcmd.touches _) (hcmd.touches _)

theorem carried_hosting (cfg : Config) : Carried careful cfg NotBegin Hosting := by
  refine ⟨fun s cmd reply s' hcmd he hs => ?_, exits_hosted (fun _ _ _ _ h => h.1) cfg (fun _ hs => hs.session) looks_hosting⟩
  have hbegins := Cmd.Carries.begins (not_not.mpr rfl) hcmd
  exact hosting_step he hs (by simp [hbegins]) (hcmd.touches nofun nofun) (hcmd.touches nofun nofun)

theorem looks_sitting : Preserves careful Cmd.Looks Sitting := by
  intro s cmd reply s' hcmd he hs
  exact sitting_step he hs hcmd.stays.2 (hcmd.touches _) (hcmd.touches _)

theorem carried_sitting (cfg : Config) : Carried careful cfg Staying Sitting := by
  refine ⟨fun s cmd reply s' hcmd he hs => ?_,
    exits_hosted (fun _ _ _ _ h => h.1) cfg (fun _ hs => hs.hosting.session) looks_sitting⟩
  exact sitting_step he hs hcmd.stays (hcmd.touches nofun nofun) (hcmd.touches nofun nofun)

-- A BEGIN of an update session is clocked in the polled boot, and one outside of it not at all.
theorem steady_otaBegin_sitting (cfg : Config) (totalLen timeoutMs : UInt32) :
    Steady careful Sitting (otaBegin cfg totalLen timeoutMs) :=
  steady_otaBegin (carried_sitting cfg) (by decide) (by decide) totalLen timeoutMs

theorem steady_otaBegin_clear (totalLen timeoutMs : UInt32) :
    Steady careful Clear (otaBegin cfg totalLen timeoutMs) := by
  refine fun s hs => ⟨hs, fun polled s' he => ?_⟩
  obtain rfl : polled = false := Eq.trans he.1.1 hs.flag
  exact ⟨(carried_clear cfg).waited s (.get .peerPolled) false s' trivial he hs, trivial⟩

-- A write to the context, and a note.
theorem wp_set {J : Link Boot → Prop} {f : Field} {v : f.Val} (hs : J s)
    (h : ∀ s', careful s (.set f v) () s' → J s') :
    wp careful J (set f v) (fun _ _ => True) s :=
  ⟨hs, fun _ s' he => ⟨h s' he, trivial⟩⟩

theorem steady_set_clear {f : Field} (v : f.Val) (h : f ≠ .peerPolled) :
    Steady careful Clear (set f v) :=
  fun _ hs => wp_set hs fun _ he => clear_step he hs rfl h

theorem steady_note_clear (n : Note) : Steady careful Clear (note n) :=
  fun _ hs => ⟨hs, fun _ _ he => ⟨clear_step he hs rfl id, trivial⟩⟩

theorem steady_upkeep_clear {α : Type} {p : Driver α} (hp : Upkeep p) : Steady careful Clear p :=
  fun _ hs => wp_upkeep upkept_clear hp hs

-- The flag is cleared, whatever it was.
theorem clear_of_set {s' : Link Boot} (hs : Safe s) (he : careful s (.set .peerPolled false) () s') :
    Clear s' :=
  ⟨safe_step he hs nofun, by rw [he.1.2.1]; rfl⟩

-- Code that keeps the flag clear, as the end of a call.
theorem wp_clear {α : Type} {p : Driver α} (hp : Steady careful Clear p) (hs : Clear s) :
    Safely p (fun _ => Clear) s :=
  wp_mono (wp_relax (hp s hs) fun _ h => h.safe) fun _ _ _ h => h.1

-- Both confirmed exits of a finish leave the flag clear.
theorem wp_finishConfirmed {J : Link Boot → Prop} {Q : Status → Link Boot → Prop} (hJ : ∀ s, Safe s → J s)
    (hQ : ∀ s, Clear s → Q (.ok ()) s) (hs : Safe s) :
    wp careful J (do otaFinishConfirmed; pure (.ok ()) : Driver Status) Q s := by
  refine ⟨hJ s hs, fun _ s₁ hnote => ?_⟩
  have hsafe : Safe s₁ := safe_step hnote hs nofun
  refine ⟨hJ s₁ hsafe, fun _ s₂ hflag => ?_⟩
  have hclear := clear_of_set hsafe hflag
  refine ⟨hJ s₂ hclear.safe, fun _ s₃ hsession => ?_⟩
  replace hclear := clear_step hsession hclear rfl nofun
  exact ⟨hJ s₃ hclear.safe, hQ s₃ hclear⟩

-- A FINISH that is not confirmed leaves the session as it is, but perhaps not the boot.
theorem wp_otaFinish {J : Link Boot → Prop} (hcarried : Carried careful cfg NotBegin J)
    (hJ : ∀ s, J s → Safe s) (timeoutMs : UInt32) (hs : J s) : Safely (otaFinish cfg timeoutMs)
      (fun value s' => value = .ok () ∧ Clear s' ∨ value ≠ .ok () ∧ J s') s := by
  have hconfirmed (s : Link Boot) (hs : J s) :
      Safely (do otaFinishConfirmed; pure (.ok ()) : Driver Status)
        (fun value s' => value = .ok () ∧ Clear s' ∨ value ≠ .ok () ∧ J s') s :=
    wp_finishConfirmed (fun _ h => h) (fun _ hclear => .inl ⟨rfl, hclear⟩) (hJ s hs)
  have hpoll := steady_pollByRepeat hcarried .otaFinish (by decide) [] 0 timeoutMs
  refine wp_bind (wp_mono (wp_relax (hpoll s hs) hJ) ?_)
  rintro ⟨st, reply⟩ s - ⟨hs, -⟩
  refine wp_ite (fun _ => hconfirmed s hs) fun hfailed => ?_
  have hsettled := steady_otaSettledAs hcarried (by decide) OTA_STATE_STAGED timeoutMs
  refine wp_bind (wp_mono (wp_relax (hsettled s hs) hJ) ?_)
  rintro settled s - ⟨hs, -⟩
  split
  · exact hconfirmed s hs
  · exact ⟨hJ s hs, .inr ⟨nofun, hs⟩⟩
  · exact ⟨hJ s hs, .inr ⟨hfailed, hs⟩⟩

theorem steady_otaPromote_clear (timeoutMs : UInt32) : Steady careful Clear (otaPromote cfg timeoutMs) :=
  steady_promoting (carried_clear cfg) (by decide) (by decide) (steady_note_clear _) (steady_set_clear _ nofun)
    timeoutMs

theorem Cmd.Waits.stays {cmd : Cmd} (h : cmd.Waits) : cmd.Stays :=
  Cmd.Carries.stays h.carries

-- The status that a FINISH waits for is seen, or the FINISH is still unheard of.
theorem wp_otaStatus_settled (timeoutMs : UInt32) (hs : Settled s) :
    Safely (otaStatus cfg timeoutMs)
      (fun out s' => Settled s' ∨ ∃ st, out = .ok st ∧ st.state = OTA_STATE_STAGED) s := by
  have hseen : ∀ data : List UInt8, Waited careful fun s => Safe s ∧ (Settled s ∨
      12 ≤ data.length ∧ (OtaStatus.decode data).state = OTA_STATE_STAGED) := by
    intro data s cmd reply s' hcmd he hs
    exact ⟨upkept_safe.waited s cmd reply s' hcmd he hs.1,
      hs.2.imp_left fun hs => upkept_settled.waited s cmd reply s' hcmd he hs⟩
  have hexchange (seq : UInt8) (s : Link Boot) (hs : Settled s) : wp careful Safe
      (requestLocked ⟨.otaStatus, [], seq⟩ 16) (fun answer s' => Ended (fun data s => Settled s ∨
        12 ≤ data.length ∧ (OtaStatus.decode data).state = OTA_STATE_STAGED) Settled
          (answer.status, answer.data) s') s := by
    refine wp_exchangeEnded upkept_settled.waited (fun _ h => h.safe) ?_ ?_ hs
    · exact fun s transfer err s' hs he => settled_step he hs ⟨nofun, nofun⟩ id rfl
    · intro s reply s' hs he
      have hsafe : Safe s' := safe_step he hs.safe nofun
      have hsettled := settled_step he hs ⟨nofun, nofun⟩ id
      cases reply with
      | error err => exact ⟨hsafe, hsettled rfl⟩
      | ok answer =>
          refine ⟨hsafe, fun hok => ?_, fun hfailed => hsettled (decide_eq_false fun h => hfailed h.1)⟩
          by_cases hstaged : 12 ≤ (answer.data.take 16).length ∧
              (OtaStatus.decode (answer.data.take 16)).state = OTA_STATE_STAGED
          · exact .inr hstaged
          · refine .inl (hsettled (decide_eq_false fun h => hstaged ?_))
            exact (h.2.resolve_left nofun).2
  refine wp_bind (wp_mono (wp_pollByRepeatEnded cfg upkept_settled.waited (fun _ h => h.safe) hseen
    (exits_upkept cfg upkept_settled) ?_ hexchange timeoutMs hs) ?_)
  · exact fun s v s' hs he => settled_step he hs trivial nofun rfl
  · rintro ⟨st, reply⟩ s hsafe hended
    cases st with
    | error err => exact ⟨hsafe, .inl (hended.failed nofun)⟩
    | ok _ =>
        refine wp_ite (fun hshort => ⟨hsafe, .inl ?_⟩) fun _ => ⟨hsafe, ?_⟩
        · exact (hended.ok rfl).resolve_right fun h => absurd h.1 (by simpa using hshort)
        · exact (hended.ok rfl).imp_right fun h => ⟨_, rfl, h.2⟩

theorem wp_settleLoop_settled (pollMs : UInt32) (fuel : Nat) (waited : UInt32) (hs : Settled s) :
    Safely (settleLoop cfg OTA_STATE_STAGED pollMs fuel waited)
      (fun out s' => out = .ok () ∨ Settled s') s := by
  induction fuel generalizing waited s with
  | zero =>
      refine wp_keeping_bind upkept_settled (fun _ h => h.safe) (p := perform Cmd.stall)
        (upkeep_perform _ trivial) hs ?_
      exact fun reply : Empty => reply.elim
  | succ fuel ih =>
      have hagain (s : Link Boot) (hs : Settled s) : Safely (do
          if OTA_BLACKOUT_WAIT_MS ≤ waited then pure (.error .timeout)
          else
            delay OTA_BLACKOUT_POLL_MS.toNat
            settleLoop cfg OTA_STATE_STAGED pollMs fuel (waited + (OTA_BLACKOUT_POLL_MS + pollMs)))
          (fun out s' => out = .ok () ∨ Settled s') s :=
        wp_ite (fun _ => ⟨hs.safe, .inr hs⟩) fun _ =>
          wp_keeping_bind upkept_settled (fun _ h => h.safe) (upkeep_delay _) hs fun _ s hs => ih _ hs
      refine wp_bind (wp_mono (wp_otaStatus_settled pollMs hs) fun result s hsafe hseen => ?_)
      cases result with
      | error err =>
          refine hagain s (hseen.resolve_right ?_)
          rintro ⟨st, habsurd, -⟩
          cases habsurd
      | ok st =>
          refine wp_ite (fun _ => ⟨hsafe, .inl rfl⟩) fun hstate => ?_
          have hs : Settled s := by
            refine hseen.resolve_right ?_
            rintro ⟨st', heq, hstaged⟩
            cases heq
            exact hstate hstaged
          exact wp_ite (fun _ => ⟨hsafe, .inr hs⟩) fun _ => hagain s hs

-- A FINISH that ends the polled boot is confirmed, or is still unheard of.
theorem wp_otaFinish_settled (timeoutMs : UInt32) (hs : Settled s) :
    Safely (otaFinish cfg timeoutMs) (fun _ => Settled) s := by
  have hconfirmed (s : Link Boot) (hs : Safe s) :
      Safely (do otaFinishConfirmed; pure (.ok ()) : Driver Status) (fun _ => Settled) s :=
    wp_finishConfirmed (fun _ h => h) (fun _ hclear => hclear.settled) hs
  have hexchange (seq : UInt8) (s : Link Boot) (hs : Settled s) : wp careful Safe
      (requestLocked ⟨.otaFinish, [], seq⟩ 0)
      (fun answer s' => Ended (fun _ _ => True) Settled (answer.status, answer.data) s') s := by
    refine wp_exchangeEnded upkept_settled.waited (fun _ h => h.safe) ?_ ?_ hs
    · exact fun s transfer err s' hs he => settled_step he hs ⟨nofun, nofun⟩ id rfl
    · intro s reply s' hs he
      have hsafe : Safe s' := safe_step he hs.safe nofun
      have hsettled := settled_step he hs ⟨nofun, nofun⟩ id
      cases reply with
      | error err => exact ⟨hsafe, hsettled rfl⟩
      | ok answer =>
          exact ⟨hsafe, fun _ => trivial, fun hfailed => hsettled (decide_eq_false fun h => hfailed h.1)⟩
  refine wp_bind (wp_mono (wp_pollByRepeatEnded cfg upkept_settled.waited (fun _ h => h.safe)
    (fun _ => upkept_safe.waited.and_of_forall fun _ => trivial) (exits_upkept cfg upkept_settled) ?_ hexchange
    timeoutMs hs) ?_)
  · exact fun s v s' hs he => settled_step he hs trivial nofun rfl
  rintro ⟨st, reply⟩ s hsafe hended
  refine wp_ite (fun _ => hconfirmed s hsafe) fun hfailed => ?_
  refine wp_bind (wp_mono (wp_settleLoop_settled _ cfg.fuel 0 (hended.failed hfailed)) ?_)
  intro settled s hsafe hout
  split
  · exact hconfirmed s hsafe
  · exact ⟨hsafe, hout.resolve_left nofun⟩
  · rename_i heq
    exact ⟨hsafe, hout.resolve_left fun h => by cases h⟩

-- A frame that asks for the polled boot does not end it.
theorem polled_of_readback {b b' : Boot} {seq : UInt8} (hacts : b.Acts ⟨.otaUpdateMode, [1], seq⟩ b')
    (hmode : 1 = b.mode ∨ 1 = b'.mode) : b'.polled = true := by
  obtain hsame | hasked := hacts
  · simpa [Boot.mode, hsame] using hmode
  · exact (Option.some.inj hasked).symm

-- The readback of the polled boot.
theorem wp_readsAs_polled (hs : Hosting s) :
    wp careful Hosting (updateModeReadsAs cfg 1) (fun back s' => back = true → Sitting s') s := by
  have hcarried : Carried careful cfg NotBegin Hosting := carried_hosting cfg
  have hwaited : ∀ data : List UInt8, Waited careful fun s =>
      Hosting s ∧ (data.head? = some 1 → s.peer.polled = true) := by
    intro data s cmd reply s' hcmd he hs
    refine ⟨hcarried.waited s cmd reply s' hcmd he hs.1, fun hdata => ?_⟩
    exact (polled_step he hcmd.stays).trans (hs.2 hdata)
  have hread := hcarried.wp_request .otaUpdateMode (by decide) [1] 4 hwaited ?_ hs
  · refine wp_bind (wp_mono hread ?_)
    rintro ⟨st, reply⟩ s hs hdata
    refine wp_ite (fun hback => ?_) fun _ => ⟨hs, nofun⟩
    exact ⟨hs, fun _ => ⟨hs, hdata hback.1 hback.2⟩⟩
  · intro s answer s' _ he hok hhead
    obtain ⟨hacts, htruth⟩ := he.1.2.2.2.2
    exact polled_of_readback hacts (htruth answer rfl hok rfl 1 (by simpa [List.head?_take] using hhead))

-- What a call of the update mode leads to: into the polled boot, or to a flag that is clear.
def Entered (enable : Bool) (value : Status) (s : Link Boot) : Prop :=
  enable = true ∧ value = .ok () ∧ Sitting s ∨ (enable = true → value ≠ .ok ()) ∧ Clear s

theorem Entered.settled {enable : Bool} {value : Status} (h : Entered enable value s) : Settled s := by
  obtain ⟨-, -, hsitting⟩ | ⟨-, hclear⟩ := h
  · exact hsitting.settled
  · exact hclear.settled

-- The mode that was asked for is read back.
theorem wp_confirmed_enabled (hs : Sitting s) :
    Safely (do updateModeConfirmed true; pure (.ok ()) : Driver Status) (Entered true) s := by
  refine ⟨hs.hosting.safe, fun _ s₁ hset => ?_⟩
  replace hs : Sitting s₁ := sitting_step hset hs trivial nofun nofun
  refine ⟨hs.hosting.safe, fun _ s₂ hnote => ?_⟩
  replace hs : Sitting s₂ := sitting_step hnote hs trivial id id
  exact ⟨hs.hosting.safe, .inl ⟨rfl, rfl, hs⟩⟩

theorem wp_confirmed_disabled (hs : Safe s) :
    Safely (do updateModeConfirmed false; pure (.ok ()) : Driver Status) (Entered false) s := by
  refine ⟨hs, fun _ s₁ hset => ?_⟩
  have hclear := clear_of_set hs hset
  refine ⟨hclear.safe, fun _ s₂ hsession => ?_⟩
  replace hclear := clear_step hsession hclear rfl nofun
  exact ⟨hclear.safe, .inr ⟨nofun, hclear⟩⟩

-- The mode never came back: the flag goes before the reset.
theorem wp_updateModeFailed {enable : Bool} (hs : Safe s) : Safely (do
    note .sessionLeft
    set .peerPolled false
    let _ ← hardReset cfg
    set .otaSessionActive false
    pure (.error .timeout) : Driver Status) (Entered enable) s := by
  refine ⟨hs, fun _ s₁ hnote => ?_⟩
  have hsafe : Safe s₁ := safe_step hnote hs nofun
  refine ⟨hsafe, fun _ s₂ hset => ?_⟩
  have hreset := steady_upkeep_clear (upkeep_hardReset cfg)
  replace hreset := wp_clear hreset (clear_of_set hsafe hset)
  refine wp_bind (p := hardReset cfg) (wp_mono hreset fun _ s hsafe hclear => ?_)
  refine ⟨hsafe, fun _ s₃ hsession => ?_⟩
  replace hclear := clear_step hsession hclear rfl nofun
  exact ⟨hclear.safe, .inr ⟨nofun, hclear⟩⟩

section ReadBack

variable {K Good : Link Boot → Prop} {want : UInt8} (hK : Carried careful cfg NotBegin K)
  (hback : ∀ s, K s →
    wp careful K (updateModeReadsAs cfg want) (fun back s' => back = true → Good s') s)

include hK hback

theorem wp_updateModeLoop (timeoutMs pollMs : UInt32) (fuel : Nat) (waited : UInt32) (hs : K s) :
    wp careful K (updateModeLoop cfg want timeoutMs pollMs fuel waited)
      (fun back s' => back = true → Good s') s := by
  induction fuel generalizing waited s with
  | zero =>
      refine wp_uses_bind hK.waited (p := perform Cmd.stall) ⟨trivial, fun _ => trivial⟩ hs ?_
      exact fun reply : Empty => reply.elim
  | succ fuel ih =>
      refine wp_bind (wp_mono (hback s hs) fun back s hs hgood => ?_)
      refine wp_ite (fun h => ⟨hs, fun _ => hgood h⟩) fun _ => wp_ite (fun _ => ⟨hs, nofun⟩) fun _ => ?_
      exact wp_uses_bind hK.waited (waits_delay _) hs fun _ s hs => ih _ hs

-- The readbacks of a call, and its end where the mode is confirmed or not.
theorem wp_updateModeOpen (hsafe : ∀ s, K s → Safe s) {enable : Bool} {timeoutMs : UInt32}
    (hconfirmed : ∀ s, Good s →
      Safely (do updateModeConfirmed enable; pure (.ok ()) : Driver Status) (Entered enable) s)
    (hs : K s) : Safely (do
      if ← updateModeReadsAs cfg want then
        updateModeConfirmed enable
        pure (.ok ())
      else
        delay UPDATE_MODE_SETTLE_MS
        let pollMs := min timeoutMs UPDATE_MODE_POLL_TIMEOUT_MS
        if ← updateModeLoop cfg want timeoutMs pollMs cfg.fuel 0 then
          updateModeConfirmed enable
          pure (.ok ())
        else
          note .sessionLeft
          set .peerPolled false
          let _ ← hardReset cfg
          set .otaSessionActive false
          pure (.error .timeout) : Driver Status) (Entered enable) s := by
  refine wp_bind (wp_mono (wp_relax (hback s hs) hsafe) fun back s _ h => ?_)
  refine wp_ite (fun hb => hconfirmed s (h.2 hb)) fun _ => ?_
  refine wp_bind (wp_mono (wp_relax (wp_uses hK.waited (waits_delay _) h.1) hsafe) fun _ s _ hdelay => ?_)
  refine wp_bind (wp_mono (wp_relax (wp_updateModeLoop hK hback _ _ _ _ hdelay.1) hsafe) ?_)
  rintro back s - h
  exact wp_ite (fun hb => hconfirmed s (h.2 hb)) fun _ => wp_updateModeFailed (hsafe s h.1)

end ReadBack

-- From any state in which the driver is up.
theorem wp_otaUpdateMode (enable : Bool) (timeoutMs : UInt32) (hs : Safe s)
    (hready : s.ctx.initialised = true) :
    Safely (otaUpdateMode cfg enable timeoutMs) (Entered enable) s := by
  refine ⟨hs, fun ready s₁ hget => ?_⟩
  obtain rfl : ready = true := Eq.trans hget.1.1 hready
  replace hready : s₁.ctx.initialised = true := (flag_step (f := .initialised) hget.1 id).trans hready
  replace hs : Safe s₁ := safe_step hget hs nofun
  cases enable with
  | true =>
      refine ⟨hs, fun _ s₂ hset => ?_⟩
      have hsession : s₂.ctx.otaSessionActive = true := by
        rw [hset.1.2.1]
        rfl
      have hhosting : Hosting s₂ :=
        ⟨safe_step hset hs nofun, (flag_step (f := .initialised) hset.1 nofun).trans hready, hsession⟩
      exact wp_updateModeOpen (carried_hosting cfg) (fun s hs => wp_readsAs_polled hs) (fun s hs => hs.safe)
        (fun s hs => wp_confirmed_enabled hs) hhosting
  | false =>
      refine ⟨hs, fun _ s₂ hnote => ?_⟩
      have hread : ∀ s, Safe s → Safely (updateModeReadsAs cfg 0)
          (fun back s' => back = true → Safe s') s := by
        intro s hs
        have hsteady := steady_updateModeReadsAs (carried_safe cfg) (by decide) (by decide) 0
        exact wp_mono (hsteady s hs) fun _ _ hs' _ _ => hs'
      exact wp_updateModeOpen (carried_safe cfg) hread (fun s hs => hs)
        (fun s hs => wp_confirmed_disabled hs)
        (safe_step hnote hs nofun)

-- Where the driver is down, the call does nothing.
theorem wp_otaUpdateMode_down (enable : Bool) (timeoutMs : UInt32) (hs : Settled s)
    (hdown : s.ctx.initialised = false) :
    Safely (otaUpdateMode cfg enable timeoutMs)
      (fun value s' => value ≠ .ok () ∧ Settled s') s := by
  refine ⟨hs.safe, fun ready s₁ hget => ?_⟩
  obtain rfl : ready = false := Eq.trans hget.1.1 hdown
  replace hs : Settled s₁ := upkept_settled s (.get .initialised) false s₁ trivial hget hs
  exact ⟨hs.safe, nofun, hs⟩

-- A session is left through the update mode.
theorem wp_otaUpdateBail (err : AlpError) (timeoutMs : UInt32) (hs : Hosting s) :
    Safely (otaUpdateBail cfg err timeoutMs) (fun value s' => value = .error err ∧ Clear s') s := by
  refine wp_bind (wp_mono (wp_otaUpdateMode false timeoutMs hs.safe hs.ready) fun _ s hs hleft => ?_)
  obtain ⟨habsurd, -⟩ | ⟨-, hclear⟩ := hleft
  · cases habsurd
  · exact ⟨hs, rfl, hclear⟩

theorem wp_otaUpdateAbort (err : AlpError) (timeoutMs : UInt32) (hs : Sitting s) :
    Safely (otaUpdateAbort cfg err timeoutMs) (fun value s' => value = .error err ∧ Clear s') s := by
  have habort := steady_otaAbort (carried_sitting cfg) (by decide) timeoutMs
  refine wp_bind (wp_mono (wp_relax (habort s hs) fun _ h => h.hosting.safe) fun _ s _ hs => ?_)
  exact wp_otaUpdateBail err timeoutMs hs.1.hosting

-- The chunk loop ends in the session or has left it.
theorem wp_streamLoop (image : List UInt8) (chunk : Nat) (timeoutMs : UInt32) (fuel off stalled : Nat)
    (hs : Sitting s) : Safely (streamLoop cfg image chunk timeoutMs fuel off stalled)
      (fun value s' => value = .ok () ∧ Sitting s' ∨ value ≠ .ok () ∧ Clear s') s := by
  have hcarried : Carried careful cfg Staying Sitting := carried_sitting cfg
  have hsafe : ∀ s, Sitting s → Safe s := fun _ h => h.hosting.safe
  have habort (err : AlpError) (s : Link Boot) (hs : Sitting s) :
      Safely (otaUpdateAbort cfg err timeoutMs)
        (fun value s' => value = .ok () ∧ Sitting s' ∨ value ≠ .ok () ∧ Clear s') s := by
    refine wp_mono (wp_otaUpdateAbort err timeoutMs hs) ?_
    rintro _ s' - ⟨rfl, hclear⟩
    exact .inr ⟨nofun, hclear⟩
  induction fuel generalizing off stalled s with
  | zero =>
      have hstall : Steady careful Safe (perform Cmd.stall) :=
        (carried_safe cfg).steady ⟨trivial, fun _ => trivial⟩
      exact hstall.wp_bind hs.hosting.safe fun reply : Empty => reply.elim
  | succ fuel ih =>
      rw [streamLoop]
      refine wp_ite (fun _ => ?_) fun _ => ⟨hs.hosting.safe, .inl ⟨rfl, hs⟩⟩
      have hwrite := steady_otaWrite hcarried (by decide) (.ofNat off)
        (slice off (min (image.length - off) chunk) image)
      refine wp_bind (wp_mono (wp_relax (hwrite s hs) hsafe) ?_)
      rintro st s - ⟨hs, -⟩
      cases st with
      | ok _ => exact ih _ _ hs
      | error err =>
          refine wp_ite (fun _ => ?_) fun _ => ?_
          · have hflush := steady_flushLoop hcarried (by decide)
              (.ofNat (off + min (image.length - off) chunk))
              (min timeoutMs OTA_BLACKOUT_POLL_TIMEOUT_MS) cfg.fuel 0
            refine wp_bind (wp_mono (wp_relax (hflush s hs) hsafe) ?_)
            rintro landed s - ⟨hs, -⟩
            cases landed with
            | error err => exact habort err s hs
            | ok landed =>
                cases landed with
                | true => exact ih _ _ hs
                | false => exact wp_ite (fun _ => habort _ s hs) fun _ => ih _ _ hs
          · have htaken := steady_chunkTaken hcarried (by decide)
              (.ofNat (off + min (image.length - off) chunk)) timeoutMs
            refine wp_bind (wp_mono (wp_relax (htaken s hs) hsafe) ?_)
            rintro taken s - ⟨hs, -⟩
            exact wp_ite (fun _ => ih _ _ hs) fun _ => habort err s hs

-- The calls after the update mode is entered.
theorem wp_updateEntered (image : List UInt8) (timeoutMs : UInt32) (hs : Sitting s) :
    Safely (do
      match ← otaBegin cfg (UInt32.ofNat image.length) timeoutMs with
      | .error err => otaUpdateBail cfg err timeoutMs
      | .ok () =>
          let chunk := if ← get .peerPolled then POLLED_OTA_CHUNK else 256
          match ← streamLoop cfg image chunk timeoutMs cfg.fuel 0 0 with
          | .error err => pure (.error err)
          | .ok () =>
              match ← otaFinish cfg timeoutMs with
              | .error err => otaUpdateBail cfg err timeoutMs
              | .ok () => otaPromote cfg timeoutMs : Driver Status) (fun _ => Clear) s := by
  have hsafe : ∀ s, Sitting s → Safe s := fun _ h => h.hosting.safe
  have hbail (err : AlpError) (s : Link Boot) (hs : Hosting s) :
      Safely (otaUpdateBail cfg err timeoutMs) (fun _ => Clear) s :=
    wp_mono (wp_otaUpdateBail err timeoutMs hs) fun _ _ _ h => h.2
  have hbegin := steady_otaBegin_sitting cfg (.ofNat image.length) timeoutMs
  refine wp_bind (wp_mono (wp_relax (hbegin s hs) hsafe) ?_)
  rintro begun s - ⟨hs, -⟩
  cases begun with
  | error err => exact hbail err s hs.hosting
  | ok _ =>
      have hget := (carried_sitting cfg).steady (waits_get .peerPolled)
      refine wp_bind (wp_mono (wp_relax (hget s hs) hsafe) ?_)
      rintro polled s - ⟨hs, -⟩
      refine wp_bind (wp_mono (wp_streamLoop image _ timeoutMs _ 0 0 hs) ?_)
      rintro streamed s hsafe (⟨rfl, hs⟩ | ⟨hfailed, hclear⟩)
      · have hfinish := wp_otaFinish (carried_hosting cfg) (fun _ h => h.safe) timeoutMs hs.hosting
        refine wp_bind (wp_mono hfinish ?_)
        rintro finished s - (⟨rfl, hclear⟩ | ⟨hfailed, hs⟩)
        · exact wp_clear (steady_otaPromote_clear timeoutMs) hclear
        · cases finished with
          | error err => exact hbail err s hs
          | ok _ => exact absurd rfl hfailed
      · cases streamed with
        | error err => exact ⟨hsafe, hclear⟩
        | ok _ => exact absurd rfl hfailed

theorem wp_otaUpdate (image : List UInt8) (timeoutMs : UInt32) (hs : Settled s) :
    Safely (otaUpdate cfg image timeoutMs) (fun _ => Settled) s := by
  refine wp_ite (fun _ => ⟨hs.safe, hs⟩) fun _ => ?_
  cases hready : s.ctx.initialised with
  | false =>
      refine wp_bind (wp_mono (wp_otaUpdateMode_down true timeoutMs hs hready) ?_)
      rintro entered s hsafe ⟨hrefused, hs⟩
      cases entered with
      | error err => exact ⟨hsafe, hs⟩
      | ok _ => exact absurd rfl hrefused
  | true =>
      refine wp_bind (wp_mono (wp_otaUpdateMode true timeoutMs hs.safe hready) ?_)
      rintro entered s hsafe (⟨-, rfl, hs⟩ | ⟨hfailed, hclear⟩)
      · exact wp_mono (wp_updateEntered image timeoutMs hs) fun _ _ _ hclear => hclear.settled
      · cases entered with
        | error err => exact ⟨hsafe, hclear.settled⟩
        | ok _ => exact absurd rfl (hfailed rfl)

-- Every other call with the flag clear.
theorem wp_program_clear {call : PublicCall}
    (hmode : ∀ enable timeoutMs, call ≠ .otaUpdateMode enable timeoutMs)
    (hupdate : ∀ image timeoutMs, call ≠ .otaUpdate image timeoutMs) (hs : Clear s) :
    Safely (call.program cfg) (fun _ => Clear) s := by
  have hcarried : Carried careful cfg NotBegin Clear := carried_clear cfg
  cases call with
  | otaUpdateMode enable timeoutMs => exact absurd rfl (hmode enable timeoutMs)
  | otaUpdate image timeoutMs => exact absurd rfl (hupdate image timeoutMs)
  | otaBegin totalLen timeoutMs => exact wp_clear (steady_otaBegin_clear totalLen timeoutMs) hs
  | otaWrite offset data => exact wp_clear (steady_otaWrite hcarried (by decide) offset data) hs
  | otaFinish timeoutMs =>
      refine wp_mono (wp_otaFinish hcarried (fun _ h => h.safe) timeoutMs hs) ?_
      rintro value s' - (⟨-, hclear⟩ | ⟨-, hclear⟩)
      · exact hclear
      · exact hclear
  | otaAbort timeoutMs => exact wp_clear (steady_otaAbort hcarried (by decide) timeoutMs) hs
  | otaPromote timeoutMs => exact wp_clear (steady_otaPromote_clear timeoutMs) hs
  | hardReset => exact wp_clear (steady_upkeep_clear (upkeep_hardReset cfg)) hs
  | reset => exact wp_clear (steady_upkeep_clear (upkeep_reset cfg)) hs
  | powerOff => exact wp_clear (steady_upkeep_clear (upkeep_powerOff cfg)) hs
  | recover => exact wp_clear (steady_upkeep_clear (upkeep_recover cfg)) hs

-- Every other call with the flag set in the polled boot.
theorem wp_program_gated {call : PublicCall}
    (hmode : ∀ enable timeoutMs, call ≠ .otaUpdateMode enable timeoutMs)
    (hupdate : ∀ image timeoutMs, call ≠ .otaUpdate image timeoutMs) (hs : Gated s) :
    Safely (call.program cfg) (fun _ => Settled) s := by
  have hcarried := carried_gated cfg
  have hsteady {p : Driver Status} (hp : Steady careful Gated p) : Safely p (fun _ => Settled) s :=
    wp_mono (wp_relax (hp s hs) fun _ h => h.safe) fun _ _ _ h => h.1.settled
  have hupkeep {p : Driver Status} (hp : Upkeep p) : Safely p (fun _ => Settled) s :=
    hsteady fun _ hs => wp_upkeep upkept_gated hp hs
  cases call with
  | otaUpdateMode enable timeoutMs => exact absurd rfl (hmode enable timeoutMs)
  | otaUpdate image timeoutMs => exact absurd rfl (hupdate image timeoutMs)
  | otaBegin totalLen timeoutMs => exact hsteady (steady_otaBegin hcarried (by decide) (by decide) totalLen timeoutMs)
  | otaWrite offset data => exact hsteady (steady_otaWrite hcarried (by decide) offset data)
  | otaAbort timeoutMs => exact hsteady (steady_otaAbort hcarried (by decide) timeoutMs)
  | otaFinish timeoutMs => exact wp_otaFinish_settled timeoutMs hs.settled
  | otaPromote timeoutMs =>
      refine hsteady (steady_promoting hcarried (by decide) (by decide) ?_ ?_ timeoutMs)
      · exact fun _ hs => ⟨hs, fun _ _ he => ⟨gated_step he hs trivial id, trivial⟩⟩
      · exact fun _ hs => wp_set hs fun _ he => gated_step he hs trivial nofun
  | hardReset => exact hupkeep (upkeep_hardReset cfg)
  | reset => exact hupkeep (upkeep_reset cfg)
  | powerOff => exact hupkeep (upkeep_powerOff cfg)
  | recover => exact hupkeep (upkeep_recover cfg)

-- One call between two calls.
theorem wp_program (call : PublicCall) (hheeds : call.Heeds s) (hs : Settled s) :
    Safely (call.program cfg) (fun _ => Settled) s := by
  have hother (hmode : ∀ enable timeoutMs, call ≠ .otaUpdateMode enable timeoutMs)
      (hupdate : ∀ image timeoutMs, call ≠ .otaUpdate image timeoutMs)
      (hheard : s.ctx.peerPolled = true → s.peer.unheard = true → False) :
      Safely (call.program cfg) (fun _ => Settled) s := by
    cases hflag : s.ctx.peerPolled with
    | false => exact wp_mono (wp_program_clear hmode hupdate ⟨hs.safe, hflag⟩) fun _ _ _ h => h.settled
    | true => exact wp_program_gated hmode hupdate ⟨hs.safe, hflag, (hs.told hflag).resolve_right (hheard hflag)⟩
  cases call with
  | otaUpdateMode enable timeoutMs =>
      cases hready : s.ctx.initialised with
      | false => exact wp_mono (wp_otaUpdateMode_down enable timeoutMs hs hready) fun _ _ _ h => h.2
      | true => exact wp_mono (wp_otaUpdateMode enable timeoutMs hs.safe hready) fun _ _ _ h => h.settled
  | otaUpdate image timeoutMs => exact wp_otaUpdate image timeoutMs hs
  | _ => exact hother nofun nofun hheeds

theorem settled_of_calls {s' : Link Boot} (hrun : Calls careful cfg PublicCall.Heeds s s') (hs : Settled s) :
    Settled s' := by
  induction hrun with
  | refl => exact hs
  | tail _ hlast ih =>
      obtain ⟨call, value, hheeds, hreturns⟩ := hlast
      exact (wp_sound hreturns (wp_program call hheeds ih)).2 value rfl

end Calls

-- A driver whose flag is clear, before any BEGIN.
structure Unflagged (s : Link Boot) : Prop where
  flag : s.ctx.peerPolled = false
  fresh : s.peer.wedged = false

-- Every BEGIN of every run is clocked in the polled boot, also in the call that is still running.
theorem begin_only_polled {cfg : Config} {s t u : Link Boot} {call : PublicCall} {out : Option Status}
    (hstart : Unflagged s) (hrun : Calls careful cfg PublicCall.Heeds s t) (hheeds : call.Heeds t)
    (hlast : Exec careful t (call.program cfg) out u) : u.peer.wedged = false :=
  (wp_sound hlast (wp_program call hheeds
    (settled_of_calls hrun (Clear.settled ⟨hstart.fresh, hstart.flag⟩)))).1

-- A bridge that acts on every frame and acknowledges it.
def obliging : Memory bridge (Link Boot) :=
  Link.memory (fun b _ => .ok ⟨.ok (), 0, [b.mode]⟩) fun b cmd =>
    let polled := match cmd with
      | .write _ level => b.polled && level
      | .clock _ frame | .collect frame => frame.boots.getD b.polled
      | _ => b.polled
    let tells := match cmd with
      | .collect frame => frame.tellsFinish ⟨.ok (), 0, [b.mode]⟩
      | _ => false
    { polled := polled
      wedged := b.wedged || (cmd.begins && !b.polled)
      unheard := !polled && !tells && (b.unheard || (cmd.finishes && b.polled)) }

theorem acts_getD (b : Boot) (frame : Frame) {wedged unheard : Bool} :
    b.Acts frame ⟨frame.boots.getD b.polled, wedged, unheard⟩ := by
  unfold Boot.Acts
  cases frame.boots with
  | none => exact .inl rfl
  | some polled => exact .inr rfl

theorem step_obliging {cmd : Cmd} {s : Link Boot} {out : bridge.Reply cmd × Link Boot}
    (hout : obliging cmd s = some out) : alone booting s cmd out.1 out.2 := by
  refine memory_step (fun ctx b cmd reply hreply => ?_) hout
  cases cmd with
  | clock transfer frame => exact ⟨rfl, rfl, acts_getD b frame⟩
  | collect frame =>
      obtain rfl := Option.some.inj hreply
      refine ⟨rfl, rfl, acts_getD b frame, ?_⟩
      rintro answer ⟨⟩ - - mode ⟨⟩
      exact .inl rfl
  | _ => exact ⟨rfl, rfl, rfl⟩

theorem exec_obliging {α : Type} {p : Driver α} {s s' : Link Boot} {value : α}
    (h : solo obliging p s = some (value, s')) : Exec (alone booting) s p (some value) s' :=
  exec_of_solo (fun _ _ _ hout => step_obliging hout) h

-- The same bridge, as long as it is spared the pins and the swap.
def tactful : Memory bridge (Link Boot) := fun cmd s =>
  match obliging cmd s with
  | none => none
  | some out => if s.ctx.peerPolled = true → cmd.keeps s.peer out.2.peer = true then some out else none

theorem exec_tactful {α : Type} {p : Driver α} {s s' : Link Boot} {value : α}
    (h : solo tactful p s = some (value, s')) : Exec careful s p (some value) s' := by
  refine exec_of_solo (fun cmd s out hout => ?_) h
  unfold tactful at hout
  cases hobliging : obliging cmd s with
  | none => simp [hobliging] at hout
  | some out' =>
      simp only [hobliging] at hout
      split at hout
      · rename_i hkeeps
        cases hout
        exact ⟨step_obliging hobliging, hkeeps⟩
      · cases hout

def unentered : Link Boot := ⟨bootedCtx, ⟨false, false, false⟩⟩

def entered : Link Boot := ⟨{ bootedCtx with otaSessionActive := true, peerPolled := true }, ⟨true, false, false⟩⟩
def finished : Link Boot := ⟨{ bootedCtx with reqSeq := 1 }, ⟨false, false, false⟩⟩
def reentered : Link Boot := ⟨{ entered.ctx with reqSeq := 1 }, entered.peer⟩
def stale : Link Boot := ⟨{ bootedCtx with peerPolled := true }, ⟨false, false, false⟩⟩

-- The BEGIN of a second session, after a first one whose FINISH swapped.
theorem begin_in_session :
    ∃ u, Exec careful reentered ((PublicCall.otaBegin 16 1000).program board) none u ∧
      u.peer.wedged = false := by
  have henter : Exec careful unentered ((PublicCall.otaUpdateMode true 1000).program board) (some (.ok ())) entered :=
    exec_tactful rfl
  have hfinish : Exec careful entered ((PublicCall.otaFinish 1000).program board) (some (.ok ())) finished :=
    exec_tactful rfl
  have hreenter : Exec careful finished ((PublicCall.otaUpdateMode true 1000).program board) (some (.ok ()))
      reentered := exec_tactful rfl
  have hget : careful reentered (.get .peerPolled) true reentered := ⟨⟨rfl, rfl, rfl, rfl, rfl⟩, fun _ => rfl⟩
  have hbegin : Exec careful reentered ((PublicCall.otaBegin 16 1000).program board) none reentered :=
    .step hget (exec_bind (p := request board .otaBegin _ 0) (exec_tactful rfl) (.cut _ _))
  have hrun : Calls careful board PublicCall.Heeds unentered reentered :=
    .tail (.tail (.tail .refl ⟨.otaUpdateMode true 1000, _, nofun, henter⟩)
      ⟨.otaFinish 1000, _, nofun, hfinish⟩) ⟨.otaUpdateMode true 1000, _, nofun, hreenter⟩
  exact ⟨reentered, hbegin, begin_only_polled ⟨rfl, rfl⟩ hrun nofun hbegin⟩

-- The flag outlives a hard reset, and the BEGIN that follows is clocked in the normal boot.
theorem begin_after_hardReset :
    ¬ ∀ (cfg : Config) (s t u : Link Boot) (call : PublicCall) (out : Option Status), Unflagged s →
      Calls (alone booting) cfg (fun _ _ => True) s t → Exec (alone booting) t (call.program cfg) out u →
        u.peer.wedged = false := by
  intro hall
  have henter : Exec (alone booting) unentered (otaUpdateMode board true 1000) (some (.ok ())) entered :=
    exec_obliging rfl
  have hreset : Exec (alone booting) entered (hardReset board) (some (.ok ())) stale := exec_obliging rfl
  have hrun : Calls (alone booting) board (fun _ _ => True) unentered stale :=
    .tail (.tail .refl ⟨.otaUpdateMode true 1000, _, trivial, henter⟩)
      ⟨.hardReset, _, trivial, hreset⟩
  have hbegin : Exec (alone booting) stale (otaBegin board 16 1000) none ⟨stale.ctx, ⟨false, true, false⟩⟩ := by
    have hget : alone booting stale (.get .peerPolled) true stale := ⟨rfl, rfl, rfl, rfl, rfl⟩
    exact .step hget (exec_bind (p := request board .otaBegin _ 0) (exec_obliging rfl) (.cut _ _))
  cases hall board _ stale _ (.otaBegin 16 1000) none ⟨rfl, rfl⟩ hrun hbegin

end AlpSdk.Cc3501e
