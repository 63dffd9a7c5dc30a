import AlpSdk.Gd32.Bridge

namespace AlpSdk.Gd32

open Library.Bytes Library.Local
open Library.Effect (Signature Env Exec)

-- The commands that the driver sends again on its own account are the ones that may run twice.
def Tracked (cmd : UInt8) : Prop := cmd ≠ CMD_PING ∧ cmd ≠ CMD_GET_VERSION ∧ cmd ≠ CMD_LINK_FEATURES

-- A transfer that started clear.
def Record.Guarded (r : Record) : Prop := Tracked r.x.cmd ∧ r.clear = true

def AllOnce (b : Bridge) : Prop := ∀ r ∈ b.log, r.Guarded → r.executed ≤ 1

theorem log_mayReset {b b' : Bridge} (h : b.MayReset b') : b'.log = b.log := by
  rcases h with rfl | rfl
  · rfl
  · rfl

theorem allOnce_of_log {b b' : Bridge} (h : AllOnce b) (hlog : b'.log = b.log) : AllOnce b' := by
  unfold AllOnce
  rw [hlog]
  exact h

theorem allOnce_cons {b : Bridge} {r : Record} {old : List Record} (hlog : b.log = r :: old)
    (hr : r.Guarded → r.executed ≤ 1) (hold : ∀ r ∈ old, r.Guarded → r.executed ≤ 1) : AllOnce b := by
  unfold AllOnce
  rw [hlog]
  simp only [List.mem_cons, forall_eq_or_imp]
  exact ⟨hr, hold⟩

section Exchange

variable {x : Xfer} {c : Ctx} {clear : Bool} {old : List Record}

-- The transfer under way, its request executed `n` times.
def Running (x : Xfer) (clear : Bool) (n : Nat) (old : List Record) (b : Bridge) : Prop :=
  b.log = ⟨x, clear, n, none⟩ :: old

-- A reply with the stamp accepted last is staged.
def Repeats (c : Ctx) (b : Bridge) : Prop :=
  ∃ r, b.staged = some r ∧ nibble r.stamp = c.seqLast ∧ c.seqLast ≠ 0

theorem running_mayReset {n : Nat} {b b' : Bridge} (h : Running x clear n old b) (hreset : b.MayReset b') :
    Running x clear n old b' :=
  (log_mayReset hreset).trans h

-- One request: it is executed at most once, and then its reply is not taken for the last one
-- unless the bridge was about to repeat that stamp.
theorem running_write {n : Nat} {b b' : Bridge} {status : Status} (h : Running x clear n old b)
    (henv : bridge b ⟨c, .spiWrite (requestFrame x)⟩ status b') :
    Running x clear n old b' ∨
      (Running x clear (n + 1) old b' ∧
        (Tracked x.cmd → c.seqEnabled = true → ambiguous c b = false → ¬Repeats c b')) := by
  obtain ⟨b₁, hreset, rfl | ⟨code, payload, -, rfl⟩⟩ := henv
  · exact .inl (running_mayReset h hreset)
  · refine .inr ⟨?_, ?_⟩
    · have hlog := running_mayReset h hreset
      unfold Running at hlog ⊢
      simp [Bridge.decode, hlog]
    · rintro htracked hseq hclear ⟨r, hstaged, hstamp, hne⟩
      have hcmd : (requestFrame x).getD 1 0 ≠ CMD_LINK_FEATURES := htracked.2.2
      simp only [Bridge.decode, hcmd, false_and, if_false, Option.some.injEq] at hstaged
      subst hstaged
      rcases hreset with rfl | rfl
      · by_cases hstamping : b₁.stamping = true
        · simp only [hstamping, if_true] at hstamp
          simp [ambiguous, hseq, hstamping, hstamp, hne] at hclear
        · simp only [hstamping, Bool.false_eq_true, if_false] at hstamp
          exact hne hstamp.symm
      · simp only [Bridge.reset, Bool.false_eq_true, if_false] at hstamp
        exact hne hstamp.symm

-- What the record of a transfer must show once its request is out: a guarded one is executed at
-- most once, and not at all where it may still be sent again.
def Counted (x : Xfer) (clear : Bool) (old : List Record) (resend : Prop) (b : Bridge) : Prop :=
  ∃ n, Running x clear n old b ∧ (Tracked x.cmd → clear = true → n ≤ 1) ∧
    (Tracked x.cmd → clear = true → resend → n = 0)

theorem Counted.allOnce {resend : Prop} {b : Bridge} (h : Counted x clear old resend b)
    (hold : ∀ r ∈ old, r.Guarded → r.executed ≤ 1) : AllOnce b := by
  obtain ⟨n, hrun, honce, -⟩ := h
  exact allOnce_cons hrun (fun hguard => honce hguard.1 hguard.2) hold

theorem ambiguous_calm {c c' : Ctx} (h : Calm c c') (b : Bridge) : ambiguous c' b = ambiguous c b := by
  obtain ⟨_, _, _, _, _, -, -, rfl⟩ := h
  rfl

theorem counted_write {b b' : Bridge} {status : Status} (h : Counted x clear old True b)
    (henv : bridge b ⟨c, .spiWrite (requestFrame x)⟩ status b') :
    Counted x clear old (c.seqEnabled = true ∧ ambiguous c b = false ∧ Repeats c b') b' := by
  obtain ⟨n, hrun, -, hnone⟩ := h
  rcases running_write hrun henv with hlost | ⟨hdecoded, hrepeats⟩
  · refine ⟨n, hlost, fun ht hc => ?_, fun ht hc _ => hnone ht hc trivial⟩
    have hn := hnone ht hc trivial
    omega
  · refine ⟨n + 1, hdecoded, fun ht hc => ?_, fun ht hc hresend => ?_⟩
    · have hn := hnone ht hc trivial
      omega
    · exact absurd hresend.2.2 (hrepeats ht hresend.1 hresend.2.1)

-- A read either serves what is staged or is not taken for a reply.
theorem running_read {n len : Nat} {b b' : Bridge} {bytes : List UInt8} (h : Running x clear n old b)
    (hlen : 2 ≤ len) (henv : bridge b ⟨c, .spiRead len⟩ (.ok bytes) b') :
    Running x clear n old b' ∧ (Repeats c b' → Repeats c b) ∧
      (settle x c (clocked len bytes) = .stale → c.seqEnabled = true ∧ Repeats c b') := by
  obtain ⟨b₁, hreset, ⟨r, filler, hstaged, rfl, rfl⟩ | ⟨hmiss, rfl⟩⟩ := henv
  · have hrun : Running x clear n old b₁ := running_mayReset h hreset
    refine ⟨hrun, ?_, fun hstale => ?_⟩
    · rcases hreset with rfl | rfl
      · exact id
      · cases hstaged
    · obtain ⟨hseq, hstamp, hne⟩ := settle_stale hstale
      rw [stampOf_served r filler hlen] at hstamp
      exact ⟨hseq, r, hstaged, hstamp, hne⟩
  · have hrun : Running x clear n old b₁ := running_mayReset h hreset
    refine ⟨hrun, ?_, fun hstale => ?_⟩
    · rcases hreset with rfl | rfl
      · exact id
      · rintro ⟨r, hstaged, -⟩
        cases hstaged
    · have hinspect := hmiss _ (by rw [hrun]; rfl)
      rw [settle_miss hinspect] at hstale
      cases hstale

theorem wp_exchange_bridge {b : Bridge} (hold : ∀ r ∈ old, r.Guarded → r.executed ≤ 1)
    (h : Counted x clear old True b) :
    wp bridge AllOnce True (exchange x)
      (fun result c' b' => Calm c c' ∧ match result with
        | .error _ => True
        | .ok reply => Counted x clear old (ambiguous c b = false ∧ settle x c' reply = .stale) b') c b := by
  refine wp_exchange quiet_bridge (h.allOnce hold) (fun c' e b' hcalm henv => ?_) fun c' b' hcalm henv => ?_
  · exact ⟨(counted_write h henv).allOnce hold, hcalm, trivial⟩
  · have hsent := counted_write h henv
    rw [ambiguous_calm hcalm] at hsent
    refine ⟨hsent.allOnce hold, fun c'' hcalm' => ?_⟩
    have hsame : c''.seqEnabled = c'.seqEnabled ∧ c''.seqLast = c'.seqLast := by
      obtain ⟨_, _, _, _, _, -, -, rfl⟩ := hcalm'
      exact ⟨rfl, rfl⟩
    have hsent' : Counted x clear old (c''.seqEnabled = true ∧ ambiguous c b = false ∧ Repeats c'' b') b' := by
      unfold Repeats at hsent ⊢
      rw [hsame.1, hsame.2]
      exact hsent
    refine wp_readReply (R := fun b' => Counted x clear old
      (c''.seqEnabled = true ∧ ambiguous c b = false ∧ Repeats c'' b') b')
      (fun b' hb' => hb'.allOnce hold) ?_ ?_ REPLY_RETRIES hsent'
    · rintro b₂ e b₃ ⟨n, hrun, honce, -⟩ henv'
      obtain ⟨b₁, hreset, rfl⟩ := henv'
      have hrun' : Running x clear n old b₁ := running_mayReset hrun hreset
      exact ⟨allOnce_cons hrun' (fun hguard => honce hguard.1 hguard.2) hold, hcalm.trans hcalm', trivial⟩
    · rintro b₂ bytes b₃ ⟨n, hrun, honce, hnone⟩ henv'
      obtain ⟨hrun', hrepeats, hstale⟩ := running_read hrun (by omega) henv'
      refine ⟨⟨n, hrun', honce, fun ht hc hr => ?_⟩, hcalm.trans hcalm', n, hrun', honce, fun ht hc hr => ?_⟩
      · exact hnone ht hc ⟨hr.1, hr.2.1, hrepeats hr.2.2⟩
      · have hback := hstale hr.2
        exact hnone ht hc ⟨hback.1, hr.1, hrepeats hback.2⟩

end Exchange

section Transfer

variable {x : Xfer} {c : Ctx} {clear : Bool} {old : List Record}

-- What follows the exchange of a transfer keeps an invariant that its transfers keep.
theorem concludes_of_keeps {J : Bridge → Prop} {self : Xfer → Drv Ending} {again : Drv Ending}
    {outcome : Outcome} {b : Bridge} (hself : ∀ y, Keeps bridge J True (fun _ => True) (self y)) (hJ : J b)
    (htaken : J b.taken) (hagain : outcome = .stale → wp bridge J True again (fun _ _ _ => True) c b) :
    Concludes bridge J True self x again (fun _ _ _ => True) c b outcome := by
  cases outcome with
  | deliver c' payload =>
      rintro b' rfl
      exact ⟨htaken, trivial⟩
  | firmware c' e resync =>
      cases resync with
      | true =>
          rintro b' rfl
          exact Stable.spiResyncAfterFailure hself x c' _ trivial htaken
      | false =>
          rintro b' rfl
          exact ⟨htaken, trivial⟩
  | reset => exact stable_true.spiSeqResetRecover hself c b trivial hJ
  | lost => exact Stable.spiResyncAfterFailure hself x c b trivial hJ
  | stale => exact hagain rfl

theorem log_taken {n : Nat} {b : Bridge} (h : Running x clear n old b) :
    b.taken.log = ⟨x, clear, n, some (b.served && b.own)⟩ :: old := by
  unfold Running at h
  simp [Bridge.taken, h]

-- After the last exchange of a transfer its record is final but for the acceptance.
theorem Counted.taken {resend : Prop} {b : Bridge} (h : Counted x clear old resend b)
    (hold : ∀ r ∈ old, r.Guarded → r.executed ≤ 1) : AllOnce b.taken := by
  obtain ⟨n, hrun, honce, -⟩ := h
  exact allOnce_cons (log_taken hrun) (fun hguard => honce hguard.1 hguard.2) hold

theorem keeps_allOnce (depth : Nat) (x : Xfer) :
    Keeps bridge AllOnce True (fun _ => True) (spiXferCore depth x) := by
  induction depth generalizing x with
  | zero => exact fun _ _ _ hJ => wp_exhausted hJ trivial
  | succ depth ih =>
      refine fun c b _ hJ => wp_xferBody hJ (fun _ _ => trivial) ?_
      rintro - b' rfl
      have hbegun : Counted x (!ambiguous c b) b.log True (b.started c x) :=
        ⟨0, rfl, fun _ _ => by omega, fun _ _ _ => rfl⟩
      refine wp_sendOnce (wp_exchange_bridge hJ hbegun) (fun _ _ _ _ _ => trivial) ?_
      rintro reply c' b₁ - ⟨-, hcounted⟩
      refine concludes_of_keeps ih (hcounted.allOnce hJ) (hcounted.taken hJ) fun hstale => ?_
      -- the request is sent again only where it was not executed
      have hagain : Counted x (!ambiguous c b) b.log True b₁ := by
        obtain ⟨n, hrun, honce, hnone⟩ := hcounted
        refine ⟨n, hrun, honce, fun ht hc _ => ?_⟩
        have hclear : ambiguous c b = false := by simpa using hc
        exact hnone ht hc ⟨hclear, hstale⟩
      refine wp_sendOnce (wp_exchange_bridge hJ hagain) (fun _ _ _ _ _ => trivial) ?_
      rintro reply' c'' b₂ hJ₂ ⟨-, hcounted'⟩
      refine concludes_of_keeps ih hJ₂ (hcounted'.taken hJ) fun _ => wp_failAfterResync ?_
      exact Stable.spiResyncAfterFailure ih x c'' b₂ trivial hJ₂

end Transfer

theorem allOnce_i2c (c : Ctx) (b : Bridge) (addr : UInt8) (frame : List UInt8) (len : Nat)
    (reply : Except AlpError (List UInt8)) (b' : Bridge) (h : AllOnce b)
    (henv : bridge b ⟨c, .i2cWriteRead addr frame len⟩ reply b') : AllOnce b' :=
  allOnce_of_log h (log_mayReset henv)

theorem upholds_allOnce (depth : Nat) : Upholds bridge AllOnce True depth fun _ => True :=
  upholds_of_core quiet_bridge allOnce_i2c (keeps_allOnce depth) (.inl trivial)

-- The host and the bridge between public calls, from an init that was granted STATUS_SEQ on.
inductive Linked : Ctx → Bridge → Prop where
  | init {b₀ b : Bridge} {c₀ c : Ctx} {depth rounds : Nat} {spi i2c : Bool} {i2cAddr : UInt8}
      {attn : AttnHook} (hlog : b₀.log = [])
      (hexec : Exec bridge b₀ (initEx depth rounds spi i2c i2cAddr attn c₀) (some (some (.ok (), c))) b)
      (hseq : c.seqEnabled = true) : Linked c b
  | call {b b' : Bridge} {c c' : Ctx} {depth : Nat} {call : Call} {result : Status} (h : Linked c b)
      (hexec : Exec bridge b (call.run depth c) (some (some (result, c'))) b') : Linked c' b'

theorem allOnce_of_linked {c : Ctx} {b : Bridge} (h : Linked c b) : AllOnce b := by
  induction h with
  | @init b₀ _ c₀ _ depth rounds spi i2c i2cAddr attn hlog hexec _ =>
      have hnone : AllOnce b₀ := by
        intro r hr
        rw [hlog] at hr
        cases hr
      have hkeeps := keeps_initEx quiet_bridge trivial allOnce_i2c (keeps_allOnce depth) rounds spi i2c
        i2cAddr attn
      exact (wp_sound hexec (hkeeps c₀ b₀ trivial hnone)).1
  | call _ hexec ih => exact (wp_sound hexec ((upholds_allOnce _).keeps_call _ _ _ trivial ih)).1

-- In every run, also in the middle of a call, the bridge has executed each transfer that
-- started clear at most once.
theorem executed_at_most_once {c : Ctx} {b : Bridge} (h : Linked c b) :
    (∀ r ∈ b.log, Tracked r.x.cmd → r.clear = true → r.executed ≤ 1) ∧
      ∀ depth call out b', Exec bridge b (Call.run depth call c) out b' →
        ∀ r ∈ b'.log, Tracked r.x.cmd → r.clear = true → r.executed ≤ 1 := by
  have honce := allOnce_of_linked h
  refine ⟨fun r hr htracked hclear => honce r hr ⟨htracked, hclear⟩, ?_⟩
  intro depth call out b' hexec r hr htracked hclear
  have honce' := (wp_sound hexec ((upholds_allOnce depth).keeps_call call c b trivial honce)).1
  exact honce' r hr ⟨htracked, hclear⟩

-- A 0.12 bridge that answers every request it decodes. The faults are read off the record: the
-- replies to the transfers 4 to 19 are unreadable, and the request of the 18th is lost.
def answerOf (frame : List UInt8) : List UInt8 :=
  match frame.getD 1 0 with
  | 0x01 => [0, 12, 0]
  | 0x81 => [frame.getD 2 0 &&& 1]
  | _ => []

def wornWrite (frame : List UInt8) (b : Bridge) : Bridge :=
  if b.log.length = 18 then b else b.decode frame 0 (answerOf frame)

def wornRead (b : Bridge) : Except AlpError (List UInt8) × Bridge :=
  if 4 ≤ b.log.length ∧ b.log.length ≤ 19 then silent b else serving [] b

def worn : Library.Effect.Handler (issuing busSig Ctx) Bridge := playing wornWrite wornRead

theorem answers_answerOf (frame : List UInt8) : Answers frame 0 (answerOf frame) := by
  intro hcmd _
  unfold answerOf
  rw [hcmd]
  refine ⟨by simp [CMD_LINK_FEATURES], ?_⟩
  simp [CMD_LINK_FEATURES, UInt8.and_assoc]

theorem bridge_worn (i : Issued busSig Ctx) (b : Bridge) : bridge b i (worn i b).1 (worn i b).2 := by
  refine bridge_playing (fun frame b => ?_) (fun c len b => ?_) i b
  · unfold wornWrite
    split
    · exact .inl rfl
    · exact .inr ⟨0, answerOf frame, answers_answerOf frame, rfl⟩
  · unfold wornRead
    split
    · exact bridge_silent c len b
    · exact bridge_serving [] c len b

def runCalls : List Call → Ctx → Bridge → Option (Ctx × Bridge)
  | [], c, b => some (c, b)
  | call :: rest, c, b =>
      match (call.run 3 c).run worn b with
      | (none, _) => none
      | (some (_, c'), b') => runCalls rest c' b'

theorem linked_runCalls {calls : List Call} {c c' : Ctx} {b b' : Bridge} (h : Linked c b)
    (hrun : runCalls calls c b = some (c', b')) : Linked c' b' := by
  induction calls generalizing c b with
  | nil =>
      cases hrun
      exact h
  | cons call rest ih =>
      have hexec := Library.Effect.exec_of_run bridge_worn (call.run 3 c) b
      unfold runCalls at hrun
      generalize (call.run 3 c).run worn b = out at hrun hexec
      obtain ⟨_ | ⟨result, c₁⟩, b₁⟩ := out
      · cases hrun
      · exact ih (.call h hexec) hrun

def powerUp : Bridge where
  counter := 0
  stamping := false
  staged := none
  own := false
  served := false
  current := false
  resetSince := false
  log := []

def initialCtx : Ctx := freshCtx true false 0 ⟨false, false, false, false⟩

def afterCalls (n : Nat) : Option (Ctx × Bridge) :=
  match (initEx 3 1 true false 0 ⟨false, false, false, false⟩ initialCtx).run worn powerUp with
  | (some (.ok (), c), b) =>
      if c.seqEnabled then runCalls (List.replicate n (.simple (.seReset false))) c b else none
  | _ => none

theorem linked_afterCalls {n : Nat} {c : Ctx} {b : Bridge} (h : afterCalls n = some (c, b)) :
    Linked c b := by
  have hinit := Library.Effect.exec_of_run bridge_worn
    (initEx 3 1 true false 0 ⟨false, false, false, false⟩ initialCtx) powerUp
  unfold afterCalls at h
  split at h
  · rename_i c₀ b₀ hrun
    rw [hrun] at hinit
    split at h
    · rename_i hseq
      exact linked_runCalls (.init rfl hinit hseq) h
    · cases h
  · cases h

-- The command, the clearance and the executions of each transfer after `n` calls, newest first.
def summary (n : Nat) : Option (List (UInt8 × Bool × Nat)) :=
  (afterCalls n).map fun out => out.2.log.map fun r => (r.x.cmd, r.clear, r.executed)

theorem record_of_summary {n : Nat} {entry : UInt8 × Bool × Nat} {entries : List (UInt8 × Bool × Nat)}
    (h : summary n = some entries) (hentry : entry ∈ entries) :
    ∃ c b, Linked c b ∧ ∃ r ∈ b.log, (r.x.cmd, r.clear, r.executed) = entry := by
  obtain ⟨⟨c, b⟩, hout, hlog⟩ := Option.map_eq_some_iff.mp h
  subst hlog
  obtain ⟨r, hr, heq⟩ := List.mem_map.mp hentry
  exact ⟨c, b, linked_afterCalls hout, r, hr, heq⟩

theorem seReset_executed_once :
    ∃ c b, Linked c b ∧ (∃ r ∈ b.log, r.x.cmd = 0x41 ∧ r.clear = true ∧ r.executed = 1) ∧
      ∀ r ∈ b.log, Tracked r.x.cmd → r.clear = true → r.executed ≤ 1 := by
  have hrun : summary 1 = some
      [(0x00, true, 1), (0x41, true, 1), (0x81, true, 1), (0x01, true, 1), (0x00, true, 1)] := by
    decide +kernel
  obtain ⟨c, b, hlinked, r, hr, heq⟩ := record_of_summary hrun (.tail _ (.head _))
  obtain ⟨hcmd, hrest⟩ := Prod.mk.inj heq
  obtain ⟨hclear, hexecuted⟩ := Prod.mk.inj hrest
  exact ⟨c, b, hlinked, ⟨r, hr, hcmd, hclear, hexecuted⟩, (executed_at_most_once hlinked).1⟩

-- Seven calls and their resync PINGs are decoded and unread, the eighth request is lost and its
-- PING decoded: fifteen decodes after the last accepted reply the ninth is answered with its stamp.
theorem ninth_call_executed_twice :
    ∃ c b, Linked c b ∧ ∃ r ∈ b.log, Tracked r.x.cmd ∧ ¬r.executed ≤ 1 := by
  have hrun : ∃ rest, summary 9 = some ((0x41, false, 2) :: rest) := by
    have hhead : (summary 9).map List.head? = some (some (0x41, false, 2)) := by
      decide +kernel
    obtain ⟨entries, hentries, hhead⟩ := Option.map_eq_some_iff.mp hhead
    cases entries with
    | nil => cases hhead
    | cons entry rest =>
        cases hhead
        exact ⟨rest, hentries⟩
  obtain ⟨rest, hrun⟩ := hrun
  obtain ⟨c, b, hlinked, r, hr, heq⟩ := record_of_summary hrun (.head _)
  obtain ⟨hcmd, hrest⟩ := Prod.mk.inj heq
  obtain ⟨-, hexecuted⟩ := Prod.mk.inj hrest
  refine ⟨c, b, hlinked, r, hr, ?_, ?_⟩
  · rw [hcmd]
    exact ⟨by decide, by decide, by decide⟩
  · rw [hexecuted]
    decide

end AlpSdk.Gd32
