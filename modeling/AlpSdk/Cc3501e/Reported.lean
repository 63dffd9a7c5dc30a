import AlpSdk.Cc3501e.Alone
import AlpSdk.Cc3501e.Events

-- What a request reports through `*rx_len` and its buffer.
namespace AlpSdk.Cc3501e

open Library.Effect Library.Interleave

-- The reply of the last exchange of a call, as the bridge gave it; none where no reply was
-- decoded. The exchanges of a recovery that the call ends with are not its own.
structure Exchange where
  reply : Option Answer
  own : Bool

def Exchange.fresh : Exchange := ⟨none, true⟩

def Exchange.next (x : Exchange) : (cmd : Cmd) → bridge.Reply cmd → Exchange
  | .clock .requestHeader _, _ => if x.own then { x with reply := none } else x
  | .collect _, .ok answer => if x.own then { x with reply := some answer } else x
  | .note .enterCheck, _ => { x with own := false }
  | _, _ => x

-- The bytes of the reply that fit into the caller's buffer. A capacity of 0 also stands for no
-- buffer.
def Exchange.data (x : Exchange) (rxCap : Nat) : List UInt8 :=
  match x.reply with
  | none => []
  | some answer => answer.data.take rxCap

def Exchange.Accepted (x : Exchange) : Prop := ∃ answer, x.reply = some answer ∧ answer.status = .ok ()

-- `cc3501e_request`, `poll_by_repeat` and `poll_by_repeat_seq`.
inductive DataCall (cfg : Config) (rxCap : Nat) : Driver (Status × List UInt8) → Prop where
  | request (cmd : Opcode) (payload : List UInt8) : DataCall cfg rxCap (request cfg cmd payload rxCap)
  | pollByRepeat (cmd : Opcode) (payload : List UInt8) (timeoutMs : UInt32) :
      DataCall cfg rxCap (pollByRepeat cfg cmd payload rxCap timeoutMs)
  | pollByRepeatSeq (frame : Frame) (timeoutMs : UInt32) (handle : Option UInt16) :
      DataCall cfg rxCap (pollByRepeatSeq cfg frame rxCap timeoutMs handle)

-- A call that fails reports no data, and one that returns ALP_OK the data of an accepted reply.
def Reports (x : Exchange) (rxCap : Nat) (out : Status × List UInt8) : Prop :=
  (out.1 ≠ .ok () → out.2 = []) ∧
    (out.1 = .ok () → ∃ answer, x.reply = some answer ∧ answer.status = .ok () ∧ out.2 = answer.data.take rxCap)

section Exchanges

abbrev watched : Protocol bridge Exchange := ⟨fun _ _ => True, Exchange.next⟩

variable {α : Type} {x : Exchange}

-- The commands that are no exchange and do not end the call's own part.
def Cmd.Quiet : Cmd → Prop
  | .clock .. | .collect _ | .note .enterCheck => False
  | _ => True

theorem next_quiet {cmd : Cmd} (h : cmd.Quiet) (reply : bridge.Reply cmd) : x.next cmd reply = x := by
  cases cmd with
  | clock transfer frame => exact h.elim
  | collect frame => exact h.elim
  | note n => cases n <;> first | exact h.elim | rfl
  | _ => rfl

theorem next_foreign (h : x.own = false) (cmd : Cmd) (reply : bridge.Reply cmd) : x.next cmd reply = x := by
  cases cmd with
  | clock transfer frame => cases transfer <;> simp [Exchange.next, h]
  | collect frame => cases reply <;> simp [Exchange.next, h]
  | note n => cases n <;> simp [Exchange.next, ← h]
  | _ => rfl

abbrev Quiet (p : Driver α) : Prop := p.Uses Cmd.Quiet

theorem follows_quiet {p : Driver α} (h : Quiet p) : Follows watched p (fun _ x' => x' = x) x := by
  induction p with
  | ret value => rfl
  | call cmd next ih =>
      refine ⟨trivial, fun reply => ?_⟩
      have hnext : watched.next x cmd reply = x := next_quiet h.1 reply
      rw [hnext]
      exact ih reply (h.2 reply)

theorem follows_foreign (h : x.own = false) (p : Driver α) : Follows watched p (fun _ x' => x' = x) x := by
  induction p with
  | ret value => rfl
  | call cmd next ih =>
      refine ⟨trivial, fun reply => ?_⟩
      have hnext : watched.next x cmd reply = x := next_foreign h cmd reply
      rw [hnext]
      exact ih reply

theorem follows_quiet_seq {β : Type} {p : Driver α} {f : α → Driver β} {Q : β → Exchange → Prop} (h : Quiet p)
    (hf : ∀ value, Follows watched (f value) Q x) : Follows watched (p >>= f) Q x := by
  refine follows_seq (follows_quiet h) ?_
  rintro value _ rfl
  exact hf value

theorem quiet_get (f : Field) : Quiet (get f) := ⟨trivial, fun _ => trivial⟩

theorem quiet_set (f : Field) (v : f.Val) : Quiet (set f v) := ⟨trivial, fun _ => trivial⟩

theorem quiet_uptime : Quiet uptime := ⟨trivial, fun _ => trivial⟩

theorem quiet_delay (ms : Nat) : Quiet (delay ms) := ⟨trivial, fun _ => trivial⟩

theorem Cmd.Waits.quiet {cmd : Cmd} (h : cmd.Waits) : cmd.Quiet := by
  cases cmd with
  | clock transfer frame => exact h.elim
  | collect frame => exact h.elim
  | note n => exact h.elim
  | _ => trivial

theorem quiet_of_waits {p : Driver α} (h : Waits p) : Quiet p := Prog.uses_mono h fun _ => Cmd.Waits.quiet

theorem quiet_lockAcquire (cfg : Config) : Quiet (lockAcquire cfg) := quiet_of_waits (waits_lockAcquire cfg)

theorem quiet_fits (len : Nat) : Quiet (fits len) := quiet_of_waits (waits_fits len)

theorem quiet_handleCurrent (handle : Option UInt16) : Quiet (handleCurrent handle) :=
  quiet_of_waits (waits_handleCurrent handle)

theorem quiet_pollWait (deadlineMs : UInt64) (gap : Nat) : Quiet (pollWait deadlineMs gap) :=
  quiet_of_waits (waits_pollWait deadlineMs gap)

theorem quiet_nextReqSeq : Quiet nextReqSeq := by
  refine Prog.uses_bind (quiet_get _) fun ready => ?_
  cases ready with
  | true => exact Prog.uses_bind (quiet_get _) fun _ => Prog.uses_bind (quiet_set _ _) fun _ => quiet_get _
  | false => trivial

-- What a call returns is what the last exchange of its own has left.
def Shown (x : Exchange) (rxCap : Nat) (out : Status × List UInt8) : Prop :=
  out.2 = x.data rxCap ∧ (out.1 = .ok () ↔ x.Accepted)

variable (cfg : Config) {rxCap : Nat}

theorem not_accepted_none {own : Bool} : ¬ Exchange.Accepted ⟨none, own⟩ := fun ⟨_, h, _⟩ => nomatch h

theorem shown_error (own : Bool) (err : AlpError) : Shown ⟨none, own⟩ rxCap (.error err, []) :=
  ⟨rfl, iff_of_false nofun not_accepted_none⟩

-- What the code after the request header has to lead to.
abbrev Leads (rxCap : Nat) (p : Driver Answer) : Prop :=
  Follows watched p (fun answer x => x.own = true ∧ Shown x rxCap (answer.status, answer.data)) .fresh

theorem leads_collect (frame : Frame) : Leads rxCap (collect frame rxCap) := by
  refine ⟨trivial, fun reply => ?_⟩
  cases reply with
  | error err => exact ⟨rfl, shown_error _ _⟩
  | ok answer =>
      refine ⟨rfl, rfl, ?_⟩
      constructor
      · exact fun hok => ⟨answer, rfl, hok⟩
      · rintro ⟨answer', hanswer, hok⟩
        obtain rfl := Option.some.inj hanswer
        exact hok

theorem follows_clock {transfer : Transfer} {frame : Frame} {next : Driver Answer}
    (hfresh : ∀ reply, watched.next x (.clock transfer frame) reply = .fresh) (hnext : Leads rxCap next) :
    Follows watched (clock transfer frame next) (fun answer x' => x'.own = true ∧
      Shown x' rxCap (answer.status, answer.data)) x := by
  refine ⟨trivial, fun reply => ?_⟩
  rw [hfresh reply]
  cases reply with
  | some err => exact ⟨rfl, shown_error _ _⟩
  | none => exact hnext

theorem follows_requestLocked (frame : Frame) (hown : x.own = true) :
    Follows watched (requestLocked frame rxCap) (fun answer x' => x'.own = true ∧
      Shown x' rxCap (answer.status, answer.data)) x := by
  refine follows_quiet_seq (quiet_get _) fun major => ?_
  have hfresh : ∀ reply, watched.next x (.clock .requestHeader frame) reply = .fresh := by
    obtain ⟨exchange, own⟩ := x
    obtain rfl : own = true := hown
    exact fun reply => rfl
  have hreply : Leads rxCap (clock .replyHeader frame (collect frame rxCap)) :=
    follows_clock (fun _ => rfl) (leads_collect frame)
  refine follows_clock hfresh ?_
  by_cases hwire : 0 < frame.payload.length + if PROTOCOL_MAJOR ≤ major then CRC_BYTES else 0
  · rw [if_pos hwire]
    exact follows_clock (fun _ => rfl) hreply
  · rw [if_neg hwire]
    exact hreply

theorem follows_pollExit (s : Status) (noStatus : Bool) :
    Follows watched (pollExit cfg s noStatus) (fun out x' => out = s ∧ x'.reply = x.reply) x := by
  unfold pollExit linkCheckAndRecover
  split
  · split
    · refine ⟨trivial, fun _ => ?_⟩
      have hclosed : watched.next x (.note .enterCheck) () = ⟨x.reply, false⟩ := rfl
      rw [hclosed]
      refine follows_seq (follows_foreign rfl _) ?_
      rintro _ _ rfl
      exact ⟨rfl, rfl⟩
    · exact ⟨rfl, rfl⟩
  · exact ⟨rfl, rfl⟩

theorem shown_congr {x' : Exchange} {out : Status × List UInt8} (h : x'.reply = x.reply) (hshown : Shown x rxCap out) :
    Shown x' rxCap out := by
  unfold Shown Exchange.data Exchange.Accepted at hshown ⊢
  rw [h]
  exact hshown

theorem follows_pollEnd {s : Status} {data : List UInt8} (noStatus : Bool) (h : Shown x rxCap (s, data)) :
    Follows watched (do let s ← pollExit cfg s noStatus; pure (s, data)) (fun out x' => Shown x' rxCap out) x := by
  refine follows_seq (follows_pollExit cfg s noStatus) ?_
  rintro _ x' ⟨rfl, hreply⟩
  exact shown_congr hreply h

-- An attempt that is not the last one is not accepted, and its data stays until the next one goes out.
theorem follows_pollLoop {frame : Frame} (deadlineMs : UInt64) (handle : Option UInt16) (fuel gap : Nat)
    (decoded first : Bool) {data : List UInt8} (hown : x.own = true) (hdata : data = x.data rxCap)
    (hrejected : ¬ x.Accepted) :
    Follows watched (pollLoop cfg (requestLocked frame rxCap) deadlineMs handle fuel gap decoded first data)
      (fun out x' => Shown x' rxCap out) x := by
  induction fuel generalizing x gap decoded first data with
  | zero => exact ⟨trivial, fun reply : Empty => reply.elim⟩
  | succ fuel ih =>
      have hagain : ∀ (x : Exchange) (decoded : Bool) (data : List UInt8), x.own = true → data = x.data rxCap →
          ¬ x.Accepted → Follows watched (do
            if ← pollWait deadlineMs gap then
              pollLoop cfg (requestLocked frame rxCap) deadlineMs handle fuel (nextGap gap) decoded false data
            else
              let s ← pollExit cfg (.error .timeout) !decoded
              pure (s, data)) (fun out x' => Shown x' rxCap out) x := by
        intro x decoded data hown hdata hrejected
        refine follows_quiet_seq (quiet_pollWait _ _) fun more => ?_
        cases more with
        | true => exact ih _ _ _ hown hdata hrejected
        | false => exact follows_pollEnd cfg _ ⟨hdata, iff_of_false nofun hrejected⟩
      refine follows_quiet_seq (quiet_lockAcquire cfg) fun locked => ?_
      cases locked with
      | error err =>
          cases first with
          | true => exact ⟨hdata, iff_of_false nofun hrejected⟩
          | false => exact hagain x decoded data hown hdata hrejected
      | ok _ =>
          refine follows_quiet_seq (quiet_handleCurrent handle) fun current => ?_
          cases current with
          | false =>
              refine follows_quiet_seq (quiet_set .requestLock false) fun _ => ?_
              exact ⟨hdata, iff_of_false nofun hrejected⟩
          | true =>
              refine follows_seq (follows_requestLocked frame hown) ?_
              rintro answer x' ⟨hown, hshown⟩
              refine follows_quiet_seq (quiet_set .requestLock false) fun _ => ?_
              by_cases hterminal : answer.terminal = true
              · simp only [hterminal, if_true]
                exact follows_pollEnd cfg _ hshown
              simp only [hterminal]
              by_cases hfinal : answer.status ≠ .error .busy ∧ answer.status ≠ .error .io
              · rw [if_pos hfinal]
                by_cases hguard : answer.status = .ok () ∧ 0 < cfg.postSuccessGuardMs
                · rw [if_pos hguard]
                  exact follows_quiet_seq (quiet_delay cfg.postSuccessGuardMs) fun _ => follows_pollEnd cfg _ hshown
                · rw [if_neg hguard]
                  exact follows_pollEnd cfg _ hshown
              · rw [if_neg hfinal]
                refine hagain x' _ _ hown hshown.1 fun haccepted => hfinal ?_
                have hok : answer.status = .ok () := hshown.2.mpr haccepted
                rw [hok]
                exact ⟨nofun, nofun⟩

theorem follows_pollByRepeatSeq (frame : Frame) (timeoutMs : UInt32) (handle : Option UInt16) :
    Follows watched (pollByRepeatSeq cfg frame rxCap timeoutMs handle) (fun out x => Shown x rxCap out) .fresh := by
  refine follows_quiet_seq (quiet_get _) fun ready => ?_
  cases ready with
  | false => exact shown_error _ _
  | true =>
      refine follows_quiet_seq (quiet_fits _) fun fitting => ?_
      cases fitting with
      | false => exact shown_error _ _
      | true =>
          refine follows_quiet_seq quiet_uptime fun now => ?_
          exact follows_pollLoop cfg _ _ _ _ _ _ rfl rfl not_accepted_none

theorem follows_request (cmd : Opcode) (payload : List UInt8) :
    Follows watched (request cfg cmd payload rxCap) (fun out x => Shown x rxCap out) .fresh := by
  refine follows_quiet_seq (quiet_get _) fun ready => ?_
  cases ready with
  | false => exact shown_error _ _
  | true =>
      refine follows_quiet_seq (quiet_fits _) fun fitting => ?_
      cases fitting with
      | false => exact shown_error _ _
      | true =>
          refine follows_quiet_seq (quiet_lockAcquire cfg) fun locked => ?_
          cases locked with
          | error err => exact shown_error _ _
          | ok _ =>
              refine follows_seq (follows_requestLocked _ rfl) ?_
              rintro answer x ⟨-, hshown⟩
              exact follows_quiet_seq (quiet_set .requestLock false) fun _ => hshown

theorem dataCall_shown {cfg : Config} {p : Driver (Status × List UInt8)} (hcall : DataCall cfg rxCap p) :
    Follows watched p (fun out x => Shown x rxCap out) .fresh := by
  cases hcall with
  | request cmd payload => exact follows_request cfg cmd payload
  | pollByRepeat cmd payload timeoutMs =>
      exact follows_quiet_seq quiet_nextReqSeq fun seq => follows_pollByRepeatSeq cfg _ _ _
  | pollByRepeatSeq frame timeoutMs handle => exact follows_pollByRepeatSeq cfg _ _ _

end Exchanges

-- The data of a reply that was not accepted is reported with the error.
theorem reports_iff {S : Type} {env : Env bridge S} {cfg : Config} {rxCap : Nat}
    {p : Driver (Status × List UInt8)} (hcall : DataCall cfg rxCap p) {s s' : S} {out : Status × List UInt8}
    {x : Exchange} (he : Exec (logged Exchange.next env) (s, .fresh) p (some out) (s', x)) :
    Reports x rxCap out ↔
      ∀ answer, x.reply = some answer → answer.status ≠ .ok () → answer.data.take rxCap = [] := by
  have hshown : Shown x rxCap out := follows_logged (dataCall_shown hcall) he
  obtain ⟨hdata, hstatus⟩ := hshown
  constructor
  · rintro ⟨hempty, -⟩ answer hreply hrejected
    have hfailed : out.1 ≠ .ok () := by
      intro hok
      obtain ⟨answer', hreply', hok'⟩ := hstatus.mp hok
      obtain rfl := Option.some.inj (hreply.symm.trans hreply')
      exact hrejected hok'
    have hshown : x.data rxCap = answer.data.take rxCap := by simp only [Exchange.data, hreply]
    rw [← hshown, ← hdata]
    exact hempty hfailed
  · intro hquiet
    constructor
    · intro hfailed
      rw [hdata]
      cases hreply : x.reply with
      | none => simp only [Exchange.data, hreply]
      | some answer =>
          simp only [Exchange.data, hreply]
          exact hquiet answer hreply fun hok => hfailed (hstatus.mpr ⟨answer, hreply, hok⟩)
    · intro hok
      obtain ⟨answer, hreply, haccepted⟩ := hstatus.mp hok
      exact ⟨answer, hreply, haccepted, by rw [hdata]; simp only [Exchange.data, hreply]⟩


-- What a reply of the bridge becomes once `cc3501e_request_locked` has judged it.
def Answer.judged (kind : ReplyKind) (fwProtoMajor : UInt8) (hdr payload : List UInt8) : Answer :=
  ⟨replyVerdict kind fwProtoMajor hdr payload, payload.headD 0, payload.drop 1⟩

def legacyCtx : Ctx := { bootedCtx with fwProtoMajor := PROTOCOL_MAJOR_LEGACY }

-- A bridge that gives one reply to every request.
def stubborn (answer : Answer) : Memory bridge (Link Unit) := Link.memory (fun _ _ => .ok answer) fun _ _ => ()

def anyBus : Env bridge Unit := fun _ _ _ _ => True

theorem exec_stubborn (answer : Answer) {α : Type} {p : Driver α} {s : Link Unit} {value : α}
    (h : (solo (stubborn answer) p s).map Prod.fst = some value) :
    ∃ s', Exec (alone anyBus) s p (some value) s' := by
  obtain ⟨⟨out, s'⟩, hsolo, rfl⟩ := Option.map_eq_some_iff.mp h
  exact ⟨s', exec_memory (fun _ _ _ _ _ => trivial) hsolo⟩

-- A status and one byte of data from a MAJOR-3 bridge.
def shortReply (status : UInt8) : Answer :=
  Answer.judged ⟨false, false, false⟩ PROTOCOL_MAJOR_LEGACY [0, 0, 2, 0] [status, 1]

theorem reports_iff_radio : ∃ s' x,
    Exec (logged Exchange.next (alone anyBus)) (⟨legacyCtx, ()⟩, .fresh) (request board .getDiagInfo [] 8)
      (some (.error .io, [1])) (s', x) ∧
    (Reports x 8 (.error .io, [1]) ↔
      ∀ answer, x.reply = some answer → answer.status ≠ .ok () → answer.data.take 8 = []) := by
  have hsolo : (solo (stubborn (shortReply RESP_ERR_RADIO)) (request board .getDiagInfo [] 8) ⟨legacyCtx, ()⟩).map
      Prod.fst = some (.error .io, [1]) := by decide +kernel
  obtain ⟨s', hrun⟩ := exec_stubborn _ hsolo
  obtain ⟨x, hlogged⟩ := exec_logged hrun Exchange.fresh
  exact ⟨s', x, hlogged, reports_iff (.request .getDiagInfo []) hlogged⟩

-- RADIO and one byte of data to a single request; BUSY and one byte of data until the deadline.
theorem failure_reports_data :
    (∃ s', Exec (alone anyBus) ⟨legacyCtx, ()⟩ (request board .getDiagInfo [] 8) (some (.error .io, [1])) s') ∧
      ∃ s', Exec (alone anyBus) ⟨legacyCtx, ()⟩ (pollByRepeatSeq board ⟨.otaStatus, [], 1⟩ 8 0 none)
        (some (.error .timeout, [1])) s' :=
  ⟨exec_stubborn (shortReply RESP_ERR_RADIO) (by decide +kernel),
    exec_stubborn (shortReply 0x02) (by decide +kernel)⟩

end AlpSdk.Cc3501e
