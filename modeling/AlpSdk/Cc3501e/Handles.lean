import AlpSdk.Cc3501e.Exclusive

-- The handles of sockets, over the recoveries of the link.
namespace AlpSdk.Cc3501e

open Library.Effect Library.Interleave Library.Bytes

-- A thread inside a call on a handle that was current when the call looked at it, with such a
-- request in `sock_buf`.
structure View.InCall (handle : UInt16) (frames : Option (List UInt8) → Prop) (v : View) : Prop where
  holds : v.holds = false
  stage : v.stage = .out
  fresh : v.fresh = false
  checking : v.checking = false
  call : v.socket = some ⟨handle, some true⟩
  staged : frames v.staged

def NoFrame (staged : Option (List UInt8)) : Prop := staged = none

def Framed (handle : UInt16) (staged : Option (List UInt8)) : Prop := staged = some (sendHead handle)

variable {frames : Option (List UInt8) → Prop}

theorem View.InCall.free {handle : UInt16} {v : View} (h : v.InCall handle frames) : v.Free false := by
  refine ⟨h.holds, h.stage, h.fresh, .inr fun call hcall => ?_⟩
  rw [h.call] at hcall
  obtain rfl := Option.some.inj hcall
  rfl

theorem View.InCall.settles {handle : UInt16} {v v' : View} (h : v.InCall handle frames)
    (hsettles : v.Settles v') : v'.InCall handle frames := by
  obtain ⟨gate, stamp, flag, rfl⟩ := hsettles
  exact ⟨h.holds, h.stage, h.fresh, h.checking, h.call, h.staged⟩

theorem View.InCall.rounds (handle : UInt16) : View.Rounds false (View.InCall handle frames) :=
  ⟨fun _ hv => hv.free, fun _ hv => hv.checking, fun _ _ hv hsettles => hv.settles hsettles⟩

abbrev Addressed {α : Type} (handle : UInt16) (frames : Option (List UInt8) → Prop) (p : Driver α) : Prop :=
  Maintains (discipline false) (View.InCall handle frames) p

section Calls

variable (cfg : Config) (handle : UInt16)

theorem take_handleBytes (rest : List UInt8) : (handleBytes handle ++ rest).take 2 = handleBytes handle := by
  simp [handleBytes]

theorem addressed_poll {frame : Frame} (rxCap : Nat) (timeoutMs : UInt32)
    (hbytes : frame.payload.take 2 = handleBytes handle) :
    Addressed handle frames (pollByRepeatSeq cfg frame rxCap timeoutMs (some handle)) := by
  intro v hv
  exact follows_mono (keeping_pollByRepeatSeq cfg rxCap timeoutMs hv.free hv.checking
    (.inr ⟨hbytes, _, hv.call, rfl, rfl⟩)) fun _ _ hsettles => hv.settles hsettles

theorem addressed_pollHandle (cmd : Opcode) {payload : List UInt8} (rxCap : Nat) (timeoutMs : UInt32)
    (hbytes : payload.take 2 = handleBytes handle) :
    Addressed handle frames (pollByRepeatHandle cfg cmd payload rxCap timeoutMs handle) :=
  maintains_bind (Leaves.maintains fun _ _ => keeping_nextReqSeq)
    fun _ => addressed_poll cfg handle rxCap timeoutMs hbytes

theorem addressed_uptime : Leaves (discipline false) (View.InCall handle frames) uptime :=
  fun _ hv => ⟨trivial, fun ms => next_uptime_out hv.stage hv.checking ms⟩

theorem addressed_leftOf (deadlineMs : UInt64) :
    Leaves (discipline false) (View.InCall handle frames) (leftOf deadlineMs) :=
  leaves_bind (addressed_uptime handle) fun _ => leaves_pure _

-- What a read of `sock_buf` shows.
theorem next_fetch (v : View) (buf : List UInt8) :
    v.next (.get .sockBuf) buf = { v with fetched := some buf } := by
  have hmap : ∀ socket : Option SocketCall, (socket.map fun call => call) = socket := by
    intro socket
    cases socket <;> rfl
  simp [View.next, hmap]

theorem addressed_staged (len : Nat) : Addressed handle frames (staged len) := by
  intro v hv
  refine ⟨trivial, fun buf => ?_⟩
  rw [show (discipline false).next v (.get .sockBuf) buf = _ from next_fetch v buf]
  exact ⟨hv.holds, hv.stage, hv.fresh, hv.checking, hv.call, hv.staged⟩

-- The exchange of the frame in `sock_buf`, after a fresh look at the epoch.
theorem keeping_exchangeStaged (seq : UInt8) {len : Nat} (rxCap : Nat) (hlen : 2 ≤ len) {v : View}
    (hv : v.Holding (View.InCall handle (Framed handle))) (hfresh : v.fresh = true) :
    Keeping false (exchange .sockSend seq len (staged len) rxCap)
      (fun _ v' => v'.Holding (View.InCall handle (Framed handle))) v := by
  refine keeping_exchange
    (S := fun w => w.Holding (View.InCall handle (Framed handle)) ∧ w.fresh = true) ?_ ?_ ?_ ?_ ⟨hv, hfresh⟩
  · rintro w ⟨⟨hholds, hstage, hcall⟩, hfresh⟩
    refine keeping_get fun buf => ?_
    rw [next_fetch]
    have hstaged : w.staged = some (handleBytes handle ++ [0]) := hcall.staged
    have hcleared : View.Cleared false { w with fetched := some buf } := .inr fun call hother => by
      obtain rfl := Option.some.inj (hcall.call.symm.trans hother)
      rfl
    refine ⟨⟨⟨hholds, hstage, ⟨rfl, hstage, rfl, hcall.checking, hcall.call, hcall.staged⟩⟩, hfresh⟩, hholds,
      hcleared, .inl hstage, fun _ => .inr ⟨_, hcall.call, hfresh, .inr ⟨[0], buf, hstaged, rfl, ?_⟩⟩⟩
    rw [List.take_take, Nat.min_eq_left hlen]
  · rintro w transfer frame err ⟨hw, -⟩
    rw [View.next_clock_out hw.2.1]
    exact hw
  · rintro w frame err ⟨hw, -⟩
    rw [View.next_collect_out hw.2.1]
    exact hw
  · rintro w frame answer ⟨hw, -⟩
    rw [View.next_collect_out hw.2.1]
    exact hw

theorem addressed_pollStaged {len : Nat} (rxCap : Nat) (timeoutMs : UInt32) (hlen : 2 ≤ len) :
    Addressed handle (Framed handle) (pollByRepeatStaged cfg .sockSend len rxCap timeoutMs handle) := by
  refine maintains_bind (Leaves.maintains fun _ _ => keeping_nextReqSeq) fun seq v hv => ?_
  refine keeping_pollAttempts cfg len timeoutMs (View.InCall.rounds handle) (fun w hw => ?_) hv
  refine keeping_get fun epoch => ?_
  have hread : View.next { w with holds := true } (.get .linkEpoch) epoch =
      { w with holds := true, fresh := handleEpoch handle == epoch } := by
    obtain ⟨hholds, hstage, hfresh, hcheck, hcall, hstaged⟩ := hw
    cases w
    simp_all [View.next]
  rw [hread]
  have hback : View.Holding (View.InCall handle (Framed handle))
      { w with holds := true, fresh := handleEpoch handle == epoch } :=
    ⟨rfl, hw.stage, ⟨rfl, hw.stage, rfl, hw.checking, hw.call, hw.staged⟩⟩
  exact ⟨hback, fun hok => keeping_exchangeStaged handle seq rxCap hlen hback (by simpa using hok)⟩

theorem addressed_sendGrace (remaining total : Nat) :
    Addressed handle (Framed handle) (sendGrace cfg handle remaining total) := by
  have hlen : 2 ≤ SOCK_SEND_HDR + remaining := by
    simp [SOCK_SEND_HDR]
    omega
  refine maintains_bind (addressed_pollStaged cfg handle 2 _ hlen) ?_
  rintro ⟨s, reply⟩
  match s with
  | .ok () => exact maintains_ite (maintains_pure _) (maintains_pure _)
  | .error err => exact maintains_ite (maintains_pure _) (maintains_pure _)

-- The head of a frame begins it, and the rest leaves the head alone.
theorem keeping_stageHead {v : View} (hv : v.InCall handle frames) :
    Keeping false (stage 0 (sendHead handle)) (fun _ v' => v'.InCall handle (Framed handle)) v := by
  obtain ⟨hholds, hstage, hfresh, hcheck, hcall, -⟩ := hv
  refine ⟨⟨hstage, .inl rfl⟩, fun _ => ?_⟩
  cases v
  simp_all only
  refine ⟨?_, ?_, ?_, ?_, ?_, ?_⟩
  all_goals simp [discipline, View.next, Framed]

theorem addressed_stageBody (bytes : List UInt8) : Addressed handle (Framed handle) (stage 3 bytes) := by
  intro v hv
  obtain ⟨hholds, hstage, hfresh, hcheck, hcall, hstaged⟩ := hv
  refine ⟨⟨hstage, .inr ⟨_, hstaged, by simp [sendHead, handleBytes]⟩⟩, fun _ => ?_⟩
  cases v
  simp_all only
  refine ⟨?_, ?_, ?_, ?_, ?_, ?_⟩
  all_goals simp [discipline, View.next, hstaged]

-- One round of the sends past the head of its frame, given that the rounds after it keep to the
-- handle.
theorem addressed_sendRound {deadlineMs : UInt64} {fuel : Nat} (remaining : List UInt8) (total : Nat)
    (hloop : ∀ remaining total,
      Addressed handle (Framed handle) (sendLoop cfg handle deadlineMs fuel remaining total false)) :
    Addressed handle (Framed handle) (do
      let seq ← get .sockSendSeq
      set .sockSendSeq (seq + 1)
      stage 3 (sendBody (seq + 1) remaining)
      let budget ← leftOf deadlineMs
      let len := SOCK_SEND_HDR + remaining.length
      match ← pollByRepeatStaged cfg .sockSend len 2 budget.toUInt32 handle with
      | (.error .timeout, _) => sendGrace cfg handle remaining.length total
      | (.error err, _) => pure (.error err, total)
      | (.ok (), reply) =>
          if reply.length < 2 then pure (.error .io, total)
          else
            let queued := min (getLe16 0 reply) remaining.length
            if queued = remaining.length then pure (.ok (), total + queued)
            else if queued = 0 then
              let left ← leftOf deadlineMs
              if left.toNat ≤ SOCK_SEND_BACKOFF_MS then pure (.error .timeout, total)
              else
                delay SOCK_SEND_BACKOFF_MS
                sendLoop cfg handle deadlineMs fuel remaining total false
            else sendLoop cfg handle deadlineMs fuel (remaining.drop queued) (total + queued) false :
        Driver (Status × Nat)) := by
  have hleft : Leaves (discipline false) (View.InCall handle (Framed handle)) (leftOf deadlineMs) :=
    addressed_leftOf handle deadlineMs
  have hlen : 2 ≤ SOCK_SEND_HDR + remaining.length := by
    simp [SOCK_SEND_HDR]
    omega
  refine maintains_bind (leaves_get (f := .sockSendSeq) trivial).maintains fun seq => ?_
  refine maintains_bind (leaves_set (f := .sockSendSeq) trivial nofun _).maintains fun _ => ?_
  refine maintains_bind (addressed_stageBody handle _) fun _ => ?_
  refine maintains_bind hleft.maintains fun budget => ?_
  refine maintains_bind (addressed_pollStaged cfg handle 2 _ hlen) fun out => ?_
  split
  · exact addressed_sendGrace cfg handle _ _
  · exact maintains_pure _
  · refine maintains_ite (maintains_pure _) (maintains_ite (maintains_pure _) ?_)
    refine maintains_ite (maintains_bind hleft.maintains fun left => ?_) (hloop _ _)
    exact maintains_ite (maintains_pure _) (maintains_bind (leaves_delay _).maintains fun _ => hloop _ _)

theorem addressed_sendLoop (deadlineMs : UInt64) (fuel : Nat) (remaining : List UInt8) (total : Nat) :
    Addressed handle (Framed handle) (sendLoop cfg handle deadlineMs fuel remaining total false) := by
  induction fuel generalizing remaining total with
  | zero => exact maintains_stall
  | succ fuel ih =>
      refine maintains_bind (addressed_leftOf handle deadlineMs).maintains fun left => ?_
      refine maintains_ite (maintains_bind (fun v hv => keeping_stageHead handle hv) fun _ => ?_) (maintains_pure _)
      exact addressed_sendRound cfg handle remaining total ih

theorem keeping_sendLoop (deadlineMs : UInt64) (fuel : Nat) (data : List UInt8) {v : View}
    (hv : v.InCall handle frames) :
    Keeping false (sendLoop cfg handle deadlineMs fuel data 0 true)
      (fun _ v' => v'.InCall handle (Framed handle)) v := by
  cases fuel with
  | zero => exact ⟨trivial, fun reply => reply.elim⟩
  | succ fuel =>
      have hround := addressed_sendRound cfg handle data 0 (addressed_sendLoop cfg handle deadlineMs fuel)
      -- the first round always goes on
      refine follows_seq (P := fun goOn w => goOn = true ∧ w.InCall handle frames) ⟨rfl, hv⟩ ?_
      rintro _ w ⟨rfl, hw⟩
      exact follows_seq (keeping_stageHead handle hw) fun _ w hw => hround w hw

theorem keeping_setBusy (busy : Bool) {v : View} (hv : v.InCall handle frames)
    (hframes : NoFrame v.staged ∨ busy = false) :
    Keeping false (set .sockBusy busy) (fun _ v' => v'.InCall handle NoFrame) v := by
  obtain ⟨hholds, hstage, hfresh, hcheck, hcall, -⟩ := hv
  refine ⟨trivial, fun _ => ?_⟩
  cases v
  simp_all only
  refine ⟨?_, ?_, ?_, ?_, ?_, ?_⟩
  all_goals simp [discipline, View.next]
  rcases hframes with hnone | rfl
  · simp_all [NoFrame]
  · simp [NoFrame]

-- The body of a call on a handle runs once the handle has been found current.
theorem keeping_socketCall {α : Type} {status : α → Status} {refused : α} {body : Driver α}
    (hrefused : status refused = .error .notReady) (hbody : Addressed handle NoFrame body) {v : View}
    (hv : v.Rest) : Keeping false (socketCall handle status refused body) (fun _ v' => v'.Rest) v := by
  obtain ⟨hholds, hstage, hfresh, hcheck, hsocket, hstaged⟩ := hv
  have henter : v.next (.note (.enterSocket handle)) () = { v with socket := some ⟨handle, none⟩ } := by
    simp [View.next, hstage]
  have hread : ∀ epoch, View.next { v with socket := some ⟨handle, none⟩ } (.get .linkEpoch) epoch =
      { v with socket := some ⟨handle, some (decide (handleEpoch handle = epoch))⟩ } := by
    intro epoch
    cases v
    simp_all [View.next]
  refine keeping_note ⟨hstage, hholds, hsocket, hstaged⟩ ?_
  rw [henter]
  refine keeping_get fun epoch => ?_
  rw [hread]
  cases hcurrent : decide (handleEpoch handle = epoch) with
  | true =>
      have hw : View.InCall handle NoFrame { v with socket := some ⟨handle, some true⟩ } :=
        ⟨hholds, hstage, hfresh, hcheck, rfl, hstaged⟩
      refine follows_seq (hbody _ hw) fun out w' hw' => ?_
      refine keeping_note ⟨hw'.stage, hw'.holds, _, hw'.call, .inl rfl⟩ ?_
      refine ⟨hw'.holds, ?_, hw'.fresh, hw'.checking, rfl, hw'.staged⟩
      simp [View.next, hw'.stage]
  | false =>
      refine keeping_note ⟨hstage, hholds, _, rfl, .inr ⟨rfl, hrefused⟩⟩ ?_
      refine ⟨hholds, ?_, hfresh, hcheck, rfl, hstaged⟩
      simp [View.next, hstage]

theorem keeping_handleOp (cmd : Opcode) {payload : List UInt8} (timeoutMs : UInt32)
    (hbytes : payload.take 2 = handleBytes handle) {v : View} (hv : v.Rest) :
    Keeping false (handleOp cfg handle cmd payload timeoutMs) (fun _ v' => v'.Rest) v :=
  keeping_socketCall handle (by rfl)
    (maintains_bind (addressed_pollHandle cfg handle cmd 0 timeoutMs hbytes) fun _ => maintains_pure _) hv

-- A read of the flag leaves no trace.
theorem leaves_getBusy : Leaves (discipline false) (View.InCall handle frames) (get .sockBusy) := by
  refine fun v hv => ⟨trivial, fun busy => ?_⟩
  have hcall := hv.call
  cases v
  simp_all [discipline, View.next, Follows]

theorem keeping_sockSend (data : List UInt8) (timeoutMs : UInt32) {v : View} (hv : v.Rest) :
    Keeping false (sockSend cfg handle data timeoutMs) (fun _ v' => v'.Rest) v := by
  refine keeping_socketCall handle (by rfl) ?_ hv
  refine maintains_ite (maintains_pure _) ?_
  refine maintains_bind (leaves_getBusy handle).maintains fun busy => ?_
  refine maintains_ite (maintains_pure _) ?_
  refine maintains_bind (fun v hv => keeping_setBusy handle true hv (.inl hv.staged)) fun _ => ?_
  refine maintains_bind (addressed_uptime handle).maintains fun now v hv => ?_
  refine follows_seq (keeping_sendLoop cfg handle _ _ _ hv) fun out w hw => ?_
  exact follows_seq (keeping_setBusy handle false hw (.inr rfl)) fun _ w hw => hw

-- The reply of a receive is written under the lock, where it begins no request.
theorem keeping_requestInto {frame : Frame} (rxCap : Nat) {v : View}
    (hv : v.Holding (View.InCall handle NoFrame)) (hmay : v.MayClock false frame) :
    Keeping false (requestInto frame rxCap) (fun _ v' => v'.Holding (View.InCall handle NoFrame)) v := by
  obtain ⟨hholds, hstage, hcall⟩ := hv
  refine follows_seq (keeping_requestLocked hmay hstage) ?_
  rintro answer _ rfl
  dsimp only
  split
  · refine ⟨⟨hstage, .inl rfl⟩, fun _ => ⟨?_, ?_, ?_, ?_, ?_, hcall.checking, ?_, ?_⟩⟩
    · simp [discipline, View.next, hholds]
    · simp [discipline, View.next, hstage]
    · rfl
    · simp [discipline, View.next, hstage]
    · rfl
    · have hsocket := hcall.call
      simp_all [discipline, View.next]
    · simp [discipline, View.next, hholds, NoFrame]
  · exact ⟨hholds, hstage, hcall⟩

theorem addressed_pollInto {frame : Frame} (rxCap : Nat) (timeoutMs : UInt32)
    (hbytes : frame.payload.take 2 = handleBytes handle) :
    Addressed handle NoFrame
      (pollAttempts cfg frame.payload.length (requestInto frame rxCap) timeoutMs (some handle)) := by
  intro v hv
  refine keeping_pollAttempts cfg _ timeoutMs (View.InCall.rounds handle) (fun w hw => ?_) hv
  refine follows_mono (keeping_handleCurrent hw.free (.inr ⟨hbytes, _, hw.call, rfl, rfl⟩)) ?_
  rintro ok _ ⟨fresh, rfl, hmay⟩
  have hback : View.Holding (View.InCall handle NoFrame) { w with holds := true, fresh := fresh } :=
    ⟨rfl, hw.stage, ⟨rfl, hw.stage, rfl, hw.checking, hw.call, hw.staged⟩⟩
  exact ⟨hback, fun hok => keeping_requestInto handle rxCap hback (hmay hok)⟩

theorem keeping_sockRecv (cap : Nat) (timeoutMs : UInt32) {v : View} (hv : v.Rest) :
    Keeping false (sockRecv cfg handle cap timeoutMs) (fun _ v' => v'.Rest) v := by
  have hbusy : ∀ busy, Addressed handle NoFrame (set .sockBusy busy) :=
    fun busy v hv => keeping_setBusy handle busy hv (.inl hv.staged)
  refine keeping_socketCall handle (by rfl) ?_ hv
  refine maintains_bind (leaves_getBusy handle).maintains fun busy => ?_
  refine maintains_ite (maintains_pure _) ?_
  refine maintains_bind (hbusy true) fun _ => ?_
  refine maintains_bind (leaves_get (f := .sockRecvSeq) trivial).maintains fun seq => ?_
  refine maintains_bind (addressed_pollInto cfg handle _ timeoutMs (take_handleBytes handle _)) ?_
  rintro ⟨s, data⟩
  refine maintains_bind (hbusy false) fun _ => ?_
  match s with
  | .error err => exact maintains_pure _
  | .ok () =>
      refine maintains_ite (maintains_pure _) ?_
      refine maintains_bind (addressed_staged handle _) fun reply => ?_
      exact maintains_bind (leaves_set (f := .sockRecvSeq) trivial nofun _).maintains fun _ => maintains_pure _

theorem handleEpoch_encode {epoch : UInt8} {fwHandle : Nat} {handle : UInt16}
    (h : handleEncode epoch fwHandle = .ok handle) : handleEpoch handle = epoch := by
  unfold handleEncode at h
  split at h
  · cases h
  · rename_i hle
    obtain rfl := Except.ok.inj h
    have hfw : fwHandle < 256 := by omega
    have hepoch : epoch.toNat < 256 := epoch.toNat_lt
    have hmod : fwHandle % 65536 = fwHandle := Nat.mod_eq_of_lt (by omega)
    have hhigh : epoch.toNat <<< 8 % 65536 = epoch.toNat * 256 := by
      rw [Nat.shiftLeft_eq]
      exact Nat.mod_eq_of_lt (by omega)
    apply UInt8.toNat_inj.mp
    simp only [handleEpoch, UInt16.toNat_toUInt8, UInt16.toNat_shiftRight, UInt16.toNat_or,
      UInt16.toNat_shiftLeft, UInt8.toNat_toUInt16, UInt16.toNat_ofNat', UInt16.reduceToNat, Nat.reduceMod,
      Nat.reducePow, hmod, hhigh, Nat.shiftRight_or_distrib]
    have hlow : fwHandle >>> 8 = 0 := by
      rw [Nat.shiftRight_eq_div_pow]
      omega
    rw [hlow, Nat.or_zero, Nat.shiftRight_eq_div_pow]
    omega

theorem keeping_sockOpen (family type protocol : UInt8) (timeoutMs : UInt32) {v : View} (hv : v.Rest) :
    Keeping false (sockOpen cfg family type protocol timeoutMs) (fun _ v' => v'.Rest) v := by
  refine keeping_get fun epoch => ?_
  have hread : v.next (.get .linkEpoch) epoch = { v with snapshot := some epoch } := by
    obtain ⟨hholds, hstage, hfresh, hcheck, hsocket, hstaged⟩ := hv
    cases v
    simp_all [View.next]
  rw [hread]
  have hw : View.Rest { v with snapshot := some epoch } :=
    ⟨hv.holds, hv.stage, hv.fresh, hv.checking, hv.socket, hv.staged⟩
  refine follows_seq (keeping_pollByRepeat cfg _ _ timeoutMs hw.free hw.checking (.inl rfl)) ?_
  rintro ⟨s, reply⟩ w' hsettles
  have hw' := hw.settles hsettles
  cases s with
  | error err => exact hw'
  | ok _ =>
      dsimp only
      split
      · exact hw'
      · cases hencode : handleEncode epoch (getLe16 0 reply) with
        | error err => exact hw'
        | ok handle =>
            have hsnapshot : w'.snapshot = some (handleEpoch handle) := by
              obtain ⟨gate, stamp, flag, rfl⟩ := hsettles
              rw [handleEpoch_encode hencode]
            refine keeping_note ⟨hw'.stage, hsnapshot⟩ ⟨hw'.holds, ?_, hw'.fresh, hw'.checking, ?_, hw'.staged⟩
            · simp [View.next, hw'.stage]
            · simp [View.next, hw'.socket]

end Calls

section Epochs

-- The epoch after so many recoveries.
def epochAt (first : UInt8) : Nat → UInt8
  | 0 => first
  | n + 1 => nextEpoch (epochAt first n)

theorem toNat_nextEpoch (epoch : UInt8) :
    (nextEpoch epoch).toNat = if epoch.toNat = 255 then 1 else epoch.toNat + 1 := by
  have hlt := epoch.toNat_lt
  unfold nextEpoch
  by_cases h : epoch.toNat = 255
  · rw [if_pos h, if_pos (UInt8.le_iff_toNat_le.mpr (by rw [h]; decide))]
    rfl
  · have hle : ¬0xFF ≤ epoch := by
      intro hle
      have hge : 255 ≤ epoch.toNat := UInt8.le_iff_toNat_le.mp hle
      omega
    rw [if_neg h, if_neg hle, UInt8.toNat_add]
    exact Nat.mod_eq_of_lt (by simp; omega)

-- The epochs go up to 255 and on from 1.
theorem toNat_epochAt (first : UInt8) {n : Nat} (hn : n ≤ 254) :
    (epochAt first n).toNat = if first.toNat + n ≤ 255 then first.toNat + n else first.toNat + n - 255 := by
  have hlt := first.toNat_lt
  induction n with
  | zero =>
      rw [if_pos (by omega)]
      rfl
  | succ n ih =>
      have hprev := ih (by omega)
      rw [epochAt, toNat_nextEpoch, hprev]
      split <;> split <;> split <;> omega

theorem epochAt_inj {first : UInt8} {i j : Nat} (hi : i ≤ 254) (hj : j ≤ 254)
    (h : epochAt first i = epochAt first j) : i = j := by
  have hnat := congrArg UInt8.toNat h
  rw [toNat_epochAt first hi, toNat_epochAt first hj] at hnat
  split at hnat <;> split at hnat <;> omega

end Epochs

-- Threads that use sockets and recover the link.
inductive HandleCall (cfg : Config) : Driver Unit → Prop where
  | open (family type protocol : UInt8) (timeoutMs : UInt32) :
      HandleCall cfg (do let _ ← sockOpen cfg family type protocol timeoutMs)
  | connect (handle : UInt16) (ip : List UInt8) (port : UInt16) (timeoutMs : UInt32) :
      HandleCall cfg (do let _ ← sockConnect cfg handle ip port timeoutMs)
  | bind (handle : UInt16) (ip : List UInt8) (port : UInt16) (timeoutMs : UInt32) :
      HandleCall cfg (do let _ ← sockBind cfg handle ip port timeoutMs)
  | listen (handle : UInt16) (backlog : UInt8) (timeoutMs : UInt32) :
      HandleCall cfg (do let _ ← sockListen cfg handle backlog timeoutMs)
  | close (handle : UInt16) (timeoutMs : UInt32) :
      HandleCall cfg (do let _ ← sockClose cfg handle timeoutMs)
  | send (handle : UInt16) (data : List UInt8) (timeoutMs : UInt32) :
      HandleCall cfg (do let _ ← sockSend cfg handle data timeoutMs)
  | recv (handle : UInt16) (cap : Nat) (timeoutMs : UInt32) :
      HandleCall cfg (do let _ ← sockRecv cfg handle cap timeoutMs)
  | recover : HandleCall cfg (do let _ ← recover cfg)

theorem take_endpointPayload (handle : UInt16) (ip : List UInt8) (port : UInt16) :
    (endpointPayload handle ip port).take 2 = handleBytes handle := by
  simp only [endpointPayload, List.append_assoc]
  exact take_handleBytes handle _

theorem handleCall_keeping {cfg : Config} {p : Driver Unit} (h : HandleCall cfg p) {v : View}
    (hrest : v.Rest) : Keeping false p (fun _ v' => v'.Rest) v := by
  cases h with
  | «open» family type protocol timeoutMs =>
      exact follows_seq (keeping_sockOpen cfg family type protocol timeoutMs hrest) fun _ _ h => h
  | connect handle ip port timeoutMs =>
      exact follows_seq (keeping_handleOp cfg handle _ timeoutMs (take_endpointPayload handle ip port) hrest)
        fun _ _ h => h
  | bind handle ip port timeoutMs =>
      exact follows_seq (keeping_handleOp cfg handle _ timeoutMs (take_endpointPayload handle ip port) hrest)
        fun _ _ h => h
  | listen handle backlog timeoutMs =>
      exact follows_seq (keeping_handleOp cfg handle _ timeoutMs (take_handleBytes handle _) hrest)
        fun _ _ h => h
  | close handle timeoutMs =>
      exact follows_seq (keeping_handleOp cfg handle _ timeoutMs (take_handleBytes handle _) hrest)
        fun _ _ h => h
  | send handle data timeoutMs =>
      exact follows_seq (keeping_sockSend cfg handle data timeoutMs hrest) fun _ _ h => h
  | recv handle cap timeoutMs =>
      exact follows_seq (keeping_sockRecv cfg handle cap timeoutMs hrest) fun _ _ h => h
  | recover =>
      refine follows_seq (keeping_recover cfg hrest.free ?_) fun _ _ hsettles => hrest.settles hsettles
      simp [hrest.checking]

section Histories

variable {T : Type} [DecidableEq T]

-- The handles that `cc3501e_sock_open` has returned, each with the number of nRESET pulses
-- before it.
def obtained : List (Event T) → List (UInt16 × Nat)
  | [] => []
  | e :: rest =>
      match e.cmd with
      | .note (.opened handle) => (handle, pulses rest) :: obtained rest
      | _ => obtained rest

-- A handle of this value has been obtained before the most recent pulse.
def Outdated (history : List (Event T)) (handle : UInt16) : Prop :=
  ∃ token ∈ obtained history, token.1 = handle ∧ token.2 < pulses history

-- The socket call that the thread has entered last was given an outdated handle.
def EnteredOutdated (t : T) : List (Event T) → Prop
  | [] => False
  | e :: rest =>
      if e.thread = t then
        match e.cmd with
        | .note (.enterSocket handle) => Outdated rest handle
        | _ => EnteredOutdated t rest
      else EnteredOutdated t rest

-- The frame whose exchange a command clocks.
def Cmd.sends : Cmd → Option Frame
  | .clock _ frame | .collect frame => some frame
  | _ => none

def Cmd.bumpsEpoch : Cmd → Bool
  | .set .linkEpoch _ => true
  | _ => false

def commits (history : List (Event T)) : Nat := history.countP fun e => e.cmd.bumpsEpoch

def Cmd.enters : Cmd → Option UInt16
  | .note (.enterSocket handle) => some handle
  | _ => none

-- The runs in question: a call is only given a handle that has been obtained, and nRESET is
-- pulsed at most 254 times.
def inUse (_ : T) (s : Shared T) (cmd : Cmd) (_ : bridge.Reply cmd) : Prop :=
  (∀ handle ∈ cmd.enters, ∃ token ∈ obtained s.history, token.1 = handle) ∧
    (cmd.lowersReset = true → pulses s.history < 254)

-- The first look at the epoch in a call on a handle.
def View.looks (v : View) : Cmd → Bool
  | .get .linkEpoch => v.stage = .out && v.socket.any fun call => call.current.isNone
  | _ => false

-- Every reset is confirmed, and no call looks at the epoch between a pulse and the bump.
def settlesFirst (t : T) (s : Shared T) (cmd : Cmd) (reply : bridge.Reply cmd) : Prop :=
  (s.view noHost t).stage.next cmd reply ≠ .finished false ∧
    ((s.view noHost t).looks cmd = true → ∀ u, (s.view noHost u).stage.unsettled = false)

def Cmd.stages : Cmd → Bool
  | .stage _ _ => true
  | _ => false

-- The request of a call on a handle of this epoch stands in `sock_buf`.
def View.framesAt (v : View) (epoch : UInt8) : Bool :=
  v.staged.isSome && v.socket.any fun call => handleEpoch call.handle == epoch

-- Outside of a reset, no call writes to `sock_buf` while the request of another call stands there
-- whose handle is current.
def keepsFrames (t : T) (s : Shared T) (cmd : Cmd) (_ : bridge.Reply cmd) : Prop :=
  cmd.stages = true → (∀ u, (s.view noHost u).stage.unsettled = false) →
    ∀ u, u ≠ t → (s.view noHost u).framesAt s.ctx.linkEpoch = false

-- The epoch follows the resets: it is bumped once after each pulse, before the thread that has
-- pulsed lets go of the lock.
structure Shared.InStep (first : UInt8) (s : Shared T) : Prop where
  locks : s.Locks noHost
  owned : s.Owned noHost
  silent : ∀ t, (s.view noHost t).Silent
  epoch : s.ctx.linkEpoch = epochAt first (commits s.history)
  bumping : ∀ t old, (s.view noHost t).stage = .bumping old → old = s.ctx.linkEpoch
  settled : (∀ t, (s.view noHost t).stage.unsettled = false) → pulses s.history = commits s.history
  unsettled : ∀ t, (s.view noHost t).stage.unsettled = true → pulses s.history = commits s.history + 1

variable {raw : Bool} {first : UInt8} {t : T} {s s' : Shared T} {cmd : Cmd} {reply : bridge.Reply cmd}

omit [DecidableEq T] in
theorem commits_after (henv : env t s cmd reply s') :
    commits s'.history = commits s.history + if cmd.bumpsEpoch then 1 else 0 := by
  simp [commits, henv.2.2.2, List.countP_cons]

theorem owns_of_unsettled {stage : Stage} (h : stage.unsettled = true) : stage.owns = true := by
  cases stage with
  | pulsed | versioning | passed | bumping => rfl
  | _ => cases h

-- A confirmed reset stays unsettled until the epoch is bumped.
theorem unsettled_kept {v : View} (hallow : v.Allows raw cmd) (hbump : cmd.bumpsEpoch = false)
    (hconfirmed : v.stage.next cmd reply ≠ .finished false) (h : v.stage.unsettled = true) :
    (v.stage.next cmd reply).unsettled = true := by
  have hmove := Stage.move v.stage cmd reply
  generalize v.stage.next cmd reply = stage' at hmove hconfirmed
  generalize hstage : v.stage = stage at hmove h
  cases hmove with
  | stay => exact h
  | enter => simp [← hstage, hallow.1, Stage.unsettled] at h
  | leave s =>
      rw [← hstage] at h
      exact absurd (owns_of_unsettled h) (by simp [hallow.1])
  | lost transfer frame err hconfirming | dropped frame err hconfirming =>
      rcases Stage.undecoded_cases hconfirming with hstage' | hstage'
      · rw [hstage']
        rfl
      · exact absurd hstage' hconfirmed
  | answered frame answer hconfirming =>
      rcases Stage.decoded_cases answer hconfirming with hstage' | hstage' | hstage'
      · rw [hstage']
        rfl
      · rw [hstage']
        rfl
      · exact absurd hstage' hconfirmed
  | epoch epoch => rfl
  | bump old epoch => cases hbump
  | release stage s =>
      rcases hallow.2 with ⟨hrelease, -⟩ | ⟨hrelease, -⟩ | ⟨hrelease, -⟩
      all_goals simp [← hstage, hrelease, Stage.unsettled] at h
  | _ => cases h

theorem bumpsEpoch_eq (h : cmd.bumpsEpoch = true) : ∃ epoch, cmd = .set .linkEpoch epoch := by
  unfold Cmd.bumpsEpoch at h
  split at h
  · exact ⟨_, rfl⟩
  · cases h

theorem linkEpoch_after {ctx : Ctx} (hbump : cmd.bumpsEpoch = false) :
    (ctx.after cmd reply).linkEpoch = ctx.linkEpoch := by
  cases cmd with
  | set f value =>
      cases f with
      | linkEpoch => cases hbump
      | _ => rfl
  | claim flag => cases flag <;> rfl
  | _ => rfl

theorem bumping_next {v : View} {old : UInt8} (h : v.stage.next cmd reply = .bumping old) :
    v.stage = .bumping old ∨ (cmd = .get .linkEpoch ∧ HEq reply old) := by
  have hmove := Stage.move v.stage cmd reply
  rw [h] at hmove
  generalize v.stage = stage at hmove
  generalize hnext : Stage.bumping old = stage' at hmove
  cases hmove with
  | stay => exact .inl rfl
  | epoch epoch =>
      cases hnext
      exact .inr ⟨rfl, HEq.rfl⟩
  | lost transfer frame err hconfirming | dropped frame err hconfirming =>
      rcases Stage.undecoded_cases hconfirming with hstage' | hstage'
      all_goals
        rw [hstage'] at hnext
        cases hnext
  | answered frame answer hconfirming =>
      rcases Stage.decoded_cases answer hconfirming with hstage' | hstage' | hstage'
      all_goals
        rw [hstage'] at hnext
        cases hnext
  | _ => cases hnext

theorem inStep_step (hinStep : s.InStep first) (hallow : (s.view noHost t).Allows raw cmd)
    (henv : env t s cmd reply s') (hconfirmed : (s.view noHost t).stage.next cmd reply ≠ .finished false) :
    s'.InStep first := by
  obtain ⟨hlocks, howned, hsilent, hepoch, hbumping, hsettled, hunsettled⟩ := hinStep
  have hlocks' := locks_step hlocks hallow henv
  have howned' := owned_step howned hallow henv
  have hsilent' : ∀ u, (s'.view noHost u).Silent := by
    intro u
    by_cases hu : u = t
    · rw [hu, env_view_own henv]
      exact silent_next (hsilent t) hallow
    · rw [env_view_other henv hu]
      exact hsilent u
  have hown : (s'.view noHost t).stage = (s.view noHost t).stage.next cmd reply :=
    congrArg View.stage (env_view_own henv)
  have hpulses := pulses_after henv
  have hcommits := commits_after henv
  have hctx := henv.2.2.1
  have halone : ∀ {stage : Stage}, (s.view noHost t).stage = stage → stage.owns = true → ∀ u, u ≠ t →
      (s.view noHost u).stage.unsettled = false := by
    intro stage hstage howns u hu
    cases hunset : (s.view noHost u).stage.unsettled with
    | false => rfl
    | true =>
        exact absurd (howned.unique u t (owns_of_unsettled hunset) (by rw [hstage]; exact howns)) hu
  cases hbump : cmd.bumpsEpoch with
  | true =>
      obtain ⟨epoch, rfl⟩ := bumpsEpoch_eq hbump
      obtain ⟨old, hstage, rfl⟩ := hallow
      obtain rfl := hbumping t old hstage
      have hnone : ∀ u, (s'.view noHost u).stage.unsettled = false := by
        intro u
        by_cases hu : u = t
        · rw [hu, hown, hstage]
          rfl
        · rw [env_view_other henv hu]
          exact halone hstage rfl u hu
      have hbefore := hunsettled t (by rw [hstage]; rfl)
      simp only [hbump, ↓reduceIte, Cmd.lowersReset, Bool.false_eq_true, Nat.add_zero] at hcommits hpulses
      refine ⟨hlocks', howned', hsilent', ?_, fun u old hu => ?_, fun _ => by omega, fun u hu => ?_⟩
      · rw [hctx, hcommits]
        show nextEpoch s.ctx.linkEpoch = _
        rw [hepoch]
        rfl
      · have hunset := hnone u
        rw [hu] at hunset
        cases hunset
      · simp [hnone u] at hu
  | false =>
      have hlink : s'.ctx.linkEpoch = s.ctx.linkEpoch := by rw [hctx, linkEpoch_after hbump]
      simp only [hbump, Bool.false_eq_true, ↓reduceIte, Nat.add_zero] at hcommits
      have hepoch' : s'.ctx.linkEpoch = epochAt first (commits s'.history) := by rw [hlink, hcommits, hepoch]
      have hbumping' : ∀ u old, (s'.view noHost u).stage = .bumping old → old = s'.ctx.linkEpoch := by
        intro u old hu
        rw [hlink]
        by_cases hut : u = t
        · rw [hut, hown] at hu
          rcases bumping_next hu with hbefore | ⟨rfl, hread⟩
          · exact hbumping t old hbefore
          · obtain rfl := eq_of_heq hread
            exact henv.1
        · rw [env_view_other henv hut] at hu
          exact hbumping u old hu
      cases hlow : cmd.lowersReset with
      | true =>
          obtain rfl := lowersReset_eq hlow
          have hstage : (s.view noHost t).stage = .owner := by
            rcases hallow with ⟨-, -, ⟨hstage, -⟩ | ⟨-, hlevel⟩⟩ | ⟨-, hhost, -⟩
            · exact hstage
            · cases hlevel
            · rw [view_host] at hhost
              cases hhost
          have hothers := halone hstage rfl
          have hbefore : pulses s.history = commits s.history := by
            refine hsettled fun u => ?_
            by_cases hu : u = t
            · rw [hu, hstage]
              rfl
            · exact hothers u hu
          simp only [hlow, ↓reduceIte] at hpulses
          refine ⟨hlocks', howned', hsilent', hepoch', hbumping', fun hnone => ?_, fun _ _ => by omega⟩
          have hpulsed := hnone t
          rw [hown, hstage] at hpulsed
          cases hpulsed
      | false =>
          simp only [hlow, Bool.false_eq_true, ↓reduceIte, Nat.add_zero] at hpulses
          refine ⟨hlocks', howned', hsilent', hepoch', hbumping', fun hnone => ?_, fun u hu => ?_⟩
          · rw [hpulses, hcommits]
            refine hsettled fun u => ?_
            by_cases hu : u = t
            · cases hunset : (s.view noHost u).stage.unsettled with
              | false => rfl
              | true =>
                  have hkept := unsettled_kept hallow hbump hconfirmed (hu ▸ hunset)
                  rw [← hown, hnone t] at hkept
                  cases hkept
            · rw [← env_view_other henv hu]
              exact hnone u
          · rw [hpulses, hcommits]
            by_cases hut : u = t
            · rw [hut, hown] at hu
              rcases unsettled_next hu with hbefore | ⟨-, rfl⟩
              · exact hunsettled t hbefore
              · cases hlow
            · rw [env_view_other henv hut] at hu
              exact hunsettled u hu

section Views

variable {v : View}

theorem snapshot_next {e : UInt8} (h : (v.next cmd reply).snapshot = some e) :
    v.snapshot = some e ∨ (cmd = .get .linkEpoch ∧ HEq reply e) := by
  have hsnapshot : v.snapshotNext cmd reply = some e := h
  cases cmd with
  | get f =>
      cases f with
      | linkEpoch =>
          simp only [View.snapshotNext] at hsnapshot
          split at hsnapshot
          · exact .inr ⟨rfl, heq_of_eq (Option.some.inj hsnapshot)⟩
          · exact .inl hsnapshot
      | _ => exact .inl hsnapshot
  | _ => exact .inl hsnapshot

-- The commands that the record of the socket call shows.
def Cmd.marksCall : Cmd → Bool
  | .get .linkEpoch | .note (.enterSocket _) | .note (.leaveSocket _) => true
  | _ => false

theorem socket_unmarked (hcmd : cmd.marksCall = false) : (v.next cmd reply).socket = v.socket := by
  have hmap : ∀ socket : Option SocketCall, (socket.map fun call => call) = socket := by
    intro socket
    cases socket <;> rfl
  show v.socketNext cmd reply = v.socket
  cases cmd with
  | get f =>
      cases f with
      | linkEpoch => cases hcmd
      | _ => simp [hmap]
  | note n =>
      cases n with
      | enterSocket handle | leaveSocket s => cases hcmd
      | _ => simp [hmap]
  | _ => simp [hmap]

-- What a command makes of the socket call: the same call, its first look at the epoch, or a
-- call that begins.
theorem socket_next {call' : SocketCall} (h : (v.next cmd reply).socket = some call') :
    (v.socket = some call' ∧ cmd.enters = none) ∨
      (∃ (call : SocketCall) (epoch : UInt8), v.socket = some call ∧ v.looks cmd = true ∧
        cmd = .get .linkEpoch ∧ HEq reply epoch ∧
          call' = ⟨call.handle, some (decide (handleEpoch call.handle = epoch))⟩) ∨
      (∃ handle, cmd = .note (.enterSocket handle) ∧ call' = ⟨handle, none⟩) := by
  cases hmarks : cmd.marksCall with
  | false =>
      rw [socket_unmarked hmarks] at h
      refine .inl ⟨h, ?_⟩
      unfold Cmd.enters
      split
      · cases hmarks
      · rfl
  | true =>
      unfold Cmd.marksCall at hmarks
      split at hmarks
      · -- a look at the epoch, which counts if it is the first one
        have hsocket : (if v.stage = .out then v.socket.map fun call => call.next (.get .linkEpoch) reply
          else v.socket) = some call' := h
        split at hsocket
        · rename_i hstage
          cases hcall : v.socket with
          | none => simp [hcall] at hsocket
          | some call =>
              obtain ⟨handle, current⟩ := call
              rw [hcall] at hsocket
              cases current with
              | some value => exact .inl ⟨hsocket, rfl⟩
              | none =>
                  refine .inr (.inl ⟨⟨handle, none⟩, reply, rfl, ?_, rfl, HEq.rfl, ?_⟩)
                  · simp [View.looks, hstage, hcall]
                  · simpa [eq_comm] using hsocket
        · exact .inl ⟨hsocket, rfl⟩
      · exact .inr (.inr ⟨_, rfl, (Option.some.inj h).symm⟩)
      · cases h
      · cases hmarks

theorem staged_next {head : List UInt8} (h : (v.next cmd reply).staged = some head) :
    v.staged = some head ∨ cmd = .stage 0 head := by
  have hstaged : v.stagedNext cmd = some head := h
  cases cmd with
  | stage off bytes =>
      cases off with
      | zero =>
          simp only [View.stagedNext] at hstaged
          split at hstaged
          · cases hstaged
          · obtain rfl := Option.some.inj hstaged
            exact .inr rfl
      | succ off => exact .inl hstaged
  | set f value =>
      cases f with
      | sockBusy =>
          simp only [View.stagedNext] at hstaged
          split at hstaged
          · cases hstaged
          · exact .inl hstaged
      | _ => exact .inl hstaged
  | _ => exact .inl hstaged

theorem fetched_next {buf : List UInt8} (h : (v.next cmd reply).fetched = some buf) :
    (v.fetched = some buf ∧ ∀ bytes, cmd ≠ .stage 0 bytes) ∨ (cmd = .get .sockBuf ∧ HEq reply buf) := by
  have hfetched : v.fetchedNext cmd reply = some buf := h
  cases cmd with
  | stage off bytes =>
      cases off with
      | zero => cases hfetched
      | succ off => exact .inl ⟨hfetched, nofun⟩
  | get f =>
      cases f with
      | sockBuf => exact .inr ⟨rfl, heq_of_eq (Option.some.inj hfetched)⟩
      | _ => exact .inl ⟨hfetched, nofun⟩
  | _ => exact .inl ⟨hfetched, nofun⟩

theorem sockBuf_after {ctx : Ctx} (hallow : v.Allows raw cmd) (hstages : cmd.stages = false) :
    (ctx.after cmd reply).sockBuf = ctx.sockBuf := by
  cases cmd with
  | set f value =>
      cases f with
      | sockBuf => exact hallow.elim
      | _ => rfl
  | stage off bytes => cases hstages
  | claim flag => cases flag <;> rfl
  | _ => rfl

theorem stages_eq (h : cmd.stages = true) : ∃ off bytes, cmd = .stage off bytes := by
  cases cmd with
  | stage off bytes => exact ⟨off, bytes, rfl⟩
  | _ => cases h

theorem take_overlay_zero (bytes buf : List UInt8) : (overlay 0 bytes buf).take bytes.length = bytes := by
  simp [overlay]

theorem take_overlay {off n : Nat} (bytes : List UInt8) {buf : List UInt8} (hoff : n ≤ off)
    (hbuf : n ≤ buf.length) : (overlay off bytes buf).take n = buf.take n := by
  have hle : n ≤ (buf.take off).length := by
    rw [List.length_take]
    omega
  rw [overlay, List.append_assoc, List.take_append_of_le_length hle, List.take_take, Nat.min_eq_left hoff]

-- The request stands in the buffer, and in what the thread has read of it.
def View.FrameAt (v : View) (sockBuf : List UInt8) : Prop :=
  ∀ head, v.staged = some head → sockBuf.take head.length = head ∧
    ∀ buf, v.fetched = some buf → buf.take head.length = head

omit [DecidableEq T] in
theorem frameAt_next (h : v.FrameAt s.ctx.sockBuf) (hallow : v.Allows raw cmd) (hanswer : Answers s cmd reply) :
    (v.next cmd reply).FrameAt (s.ctx.after cmd reply).sockBuf := by
  intro head hstaged
  rcases staged_next hstaged with hbefore | rfl
  · obtain ⟨hstands, hread⟩ := h head hbefore
    have hstands' : (s.ctx.after cmd reply).sockBuf.take head.length = head := by
      cases hstages : cmd.stages with
      | false =>
          rw [sockBuf_after hallow hstages]
          exact hstands
      | true =>
          obtain ⟨off, bytes, rfl⟩ := stages_eq hstages
          have hlength : head.length ≤ s.ctx.sockBuf.length := by
            have hmin := congrArg List.length hstands
            rw [List.length_take] at hmin
            omega
          rcases hallow.2 with rfl | ⟨head', hhead', hoff⟩
          · have hsome : (if v.holds then none else some bytes) = some head := hstaged
            split at hsome
            · cases hsome
            · obtain rfl := Option.some.inj hsome
              exact take_overlay_zero bytes _
          · obtain rfl := Option.some.inj (hbefore.symm.trans hhead')
            exact (take_overlay bytes hoff hlength).trans hstands
    refine ⟨hstands', fun buf hbuf => ?_⟩
    rcases fetched_next hbuf with ⟨hfetched, -⟩ | ⟨rfl, hreply⟩
    · exact hread buf hfetched
    · obtain rfl := eq_of_heq hreply
      obtain rfl : reply = s.ctx.sockBuf := hanswer
      exact hstands
  · refine ⟨take_overlay_zero head _, fun buf hbuf => ?_⟩
    rcases fetched_next hbuf with ⟨-, hne⟩ | ⟨hget, -⟩
    · exact absurd rfl (hne head)
    · cases hget

-- A fresh look at the epoch: under the lock, and of the epoch that the handle carries.
def View.FreshAt (v : View) (epoch : UInt8) : Prop :=
  v.fresh = true → v.holds = true ∧ ∃ call, v.socket = some call ∧ handleEpoch call.handle = epoch

omit [DecidableEq T] in
theorem freshAt_next (h : v.FreshAt s.ctx.linkEpoch) (hallow : v.Allows raw cmd)
    (hanswer : Answers s cmd reply) : (v.next cmd reply).FreshAt (s.ctx.after cmd reply).linkEpoch := by
  intro hfresh
  have hfresh' : v.freshNext cmd reply = true := hfresh
  cases cmd with
  | get f =>
      cases f with
      | linkEpoch =>
          obtain rfl : reply = s.ctx.linkEpoch := hanswer
          simp only [View.freshNext, Bool.and_eq_true] at hfresh'
          obtain ⟨hholds, hsocket⟩ := hfresh'
          refine ⟨hholds, ?_⟩
          cases hcall : v.socket with
          | none => simp [hcall] at hsocket
          | some call =>
              have hepoch : handleEpoch call.handle = s.ctx.linkEpoch := by simpa [hcall] using hsocket
              by_cases hstage : v.stage = .out
              · exact ⟨call.next (.get .linkEpoch) s.ctx.linkEpoch, by simp [View.next, hstage, hcall], hepoch⟩
              · exact ⟨call, by simp [View.next, hstage, hcall], hepoch⟩
      | _ =>
          obtain ⟨hholds, hcall⟩ := h hfresh'
          rw [socket_unmarked rfl]
          exact ⟨hholds, hcall⟩
  | set f value =>
      cases f with
      | requestLock | linkEpoch => cases hfresh'
      | _ =>
          obtain ⟨hholds, hcall⟩ := h hfresh'
          rw [socket_unmarked rfl]
          exact ⟨hholds, hcall⟩
  | claim flag =>
      obtain ⟨hholds, hcall⟩ := h hfresh'
      rw [socket_unmarked rfl]
      cases flag with
      | requestLock => exact ⟨by simp [View.next, hholds], hcall⟩
      | recovering => exact ⟨hholds, hcall⟩
  | note n =>
      obtain ⟨hholds, hcall⟩ := h hfresh'
      cases n with
      | enterSocket handle | leaveSocket status =>
          rw [hallow.2.1] at hholds
          cases hholds
      | _ =>
          rw [socket_unmarked rfl]
          exact ⟨hholds, hcall⟩
  | _ =>
      obtain ⟨hholds, hcall⟩ := h hfresh'
      rw [socket_unmarked rfl]
      exact ⟨hholds, hcall⟩

end Views

-- What the runs preserve. A handle was obtained no earlier than the epoch it carries, and a
-- call that was given an outdated handle has not found it current.
structure Shared.Handled (first : UInt8) (s : Shared T) : Prop where
  inStep : s.InStep first
  few : pulses s.history ≤ 254
  snapshot : ∀ t e, (s.view noHost t).snapshot = some e → ∃ i, i ≤ commits s.history ∧ e = epochAt first i
  token : ∀ token ∈ obtained s.history, token.2 ≤ pulses s.history ∧
    ∃ i, i ≤ commits s.history ∧ i ≤ token.2 ∧ handleEpoch token.1 = epochAt first i
  fresh : ∀ t, (s.view noHost t).FreshAt s.ctx.linkEpoch
  called : ∀ t call, (s.view noHost t).socket = some call →
    ∃ token ∈ obtained s.history, token.1 = call.handle
  outdated : ∀ t call, (s.view noHost t).socket = some call → EnteredOutdated t s.history →
    Outdated s.history call.handle ∧ call.current ≠ some true
  frames : (∀ u, (s.view noHost u).stage.unsettled = false) → ∀ t call, (s.view noHost t).socket = some call →
    handleEpoch call.handle = s.ctx.linkEpoch → (s.view noHost t).FrameAt s.ctx.sockBuf

omit [DecidableEq T] in
theorem pulses_mono (henv : env t s cmd reply s') : pulses s.history ≤ pulses s'.history := by
  rw [pulses_after henv]
  omega

omit [DecidableEq T] in
theorem commits_mono (henv : env t s cmd reply s') : commits s.history ≤ commits s'.history := by
  rw [commits_after henv]
  omega

theorem commits_le_pulses (h : s.InStep first) : commits s.history ≤ pulses s.history := by
  by_cases hunset : ∃ t, (s.view noHost t).stage.unsettled = true
  · obtain ⟨t, ht⟩ := hunset
    have hpulses := h.unsettled t ht
    omega
  · have hnone : ∀ t, (s.view noHost t).stage.unsettled = false := by simpa using hunset
    exact (h.settled hnone).ge

omit [DecidableEq T] in
-- The handles after a step: one more where `cc3501e_sock_open` returns.
theorem obtained_after (henv : env t s cmd reply s') :
    obtained s'.history = obtained s.history ∨
      ∃ handle, cmd = .note (.opened handle) ∧
        obtained s'.history = (handle, pulses s.history) :: obtained s.history := by
  rw [henv.2.2.2]
  cases cmd with
  | note n =>
      cases n with
      | opened handle => exact .inr ⟨handle, rfl, rfl⟩
      | _ => exact .inl rfl
  | _ => exact .inl rfl

omit [DecidableEq T] in
theorem obtained_mono (henv : env t s cmd reply s') {token : UInt16 × Nat} (h : token ∈ obtained s.history) :
    token ∈ obtained s'.history := by
  rcases obtained_after henv with hsame | ⟨handle, -, hcons⟩
  · rw [hsame]
    exact h
  · rw [hcons]
    exact List.mem_cons_of_mem _ h

omit [DecidableEq T] in
theorem outdated_mono (henv : env t s cmd reply s') {handle : UInt16} (h : Outdated s.history handle) :
    Outdated s'.history handle := by
  obtain ⟨token, htoken, hhandle, hlt⟩ := h
  exact ⟨token, obtained_mono henv htoken, hhandle, hlt.trans_le (pulses_mono henv)⟩

theorem entered_other (henv : env t s cmd reply s') {u : T} (hu : u ≠ t)
    (h : EnteredOutdated u s'.history) : EnteredOutdated u s.history := by
  rw [henv.2.2.2] at h
  simpa [EnteredOutdated, hu.symm] using h

theorem entered_own (henv : env t s cmd reply s') (hcmd : cmd.enters = none)
    (h : EnteredOutdated t s'.history) : EnteredOutdated t s.history := by
  rw [henv.2.2.2] at h
  simp only [EnteredOutdated, ↓reduceIte] at h
  cases cmd with
  | note n =>
      cases n with
      | enterSocket handle => cases hcmd
      | _ => exact h
  | _ => exact h

-- A handle that is outdated while no reset is under way does not carry the epoch.
theorem epoch_ne_of_outdated (h : s.Handled first)
    (hnone : ∀ u, (s.view noHost u).stage.unsettled = false) {handle : UInt16}
    (houtdated : Outdated s.history handle) : handleEpoch handle ≠ s.ctx.linkEpoch := by
  obtain ⟨token, htoken, rfl, hlt⟩ := houtdated
  obtain ⟨-, i, hi, hle, hepoch⟩ := h.token token htoken
  have hpulses := h.inStep.settled hnone
  have hfew := h.few
  intro heq
  have hindex : i = commits s.history := by
    refine @epochAt_inj first _ _ (by omega) (by omega) ?_
    rw [← hepoch, heq, h.inStep.epoch]
  omega

theorem handled_snapshot (h : s.Handled first) (henv : env t s cmd reply s') {u : T} {e : UInt8}
    (hu : (s'.view noHost u).snapshot = some e) :
    ∃ i, i ≤ commits s'.history ∧ e = epochAt first i := by
  have hmono := commits_mono henv
  have hbefore : (s.view noHost u).snapshot = some e → ∃ i, i ≤ commits s'.history ∧ e = epochAt first i := by
    intro hsnapshot
    obtain ⟨i, hi, he⟩ := h.snapshot u e hsnapshot
    exact ⟨i, hi.trans hmono, he⟩
  by_cases hut : u = t
  · rw [hut, env_view_own henv] at hu
    rcases snapshot_next hu with hsnapshot | ⟨rfl, hread⟩
    · exact hbefore (hut ▸ hsnapshot)
    · obtain rfl := eq_of_heq hread
      refine ⟨commits s.history, hmono, ?_⟩
      rw [show reply = s.ctx.linkEpoch from henv.1, h.inStep.epoch]
  · rw [env_view_other henv hut] at hu
    exact hbefore hu

theorem handled_token (h : s.Handled first) (hallow : (s.view noHost t).Allows raw cmd)
    (henv : env t s cmd reply s') {token : UInt16 × Nat} (htoken : token ∈ obtained s'.history) :
    token.2 ≤ pulses s'.history ∧
      ∃ i, i ≤ commits s'.history ∧ i ≤ token.2 ∧ handleEpoch token.1 = epochAt first i := by
  have hpulses := pulses_mono henv
  have hcommits := commits_mono henv
  have hbefore : token ∈ obtained s.history → token.2 ≤ pulses s'.history ∧
      ∃ i, i ≤ commits s'.history ∧ i ≤ token.2 ∧ handleEpoch token.1 = epochAt first i := by
    intro hmem
    obtain ⟨hle, i, hi, hle', hepoch⟩ := h.token token hmem
    exact ⟨hle.trans hpulses, i, hi.trans hcommits, hle', hepoch⟩
  rcases obtained_after henv with hsame | ⟨handle, rfl, hcons⟩
  · exact hbefore (hsame ▸ htoken)
  · rw [hcons] at htoken
    rcases List.mem_cons.mp htoken with rfl | hmem
    · obtain ⟨i, hi, hepoch⟩ := h.snapshot t _ hallow.2
      exact ⟨hpulses, i, hi.trans hcommits, hi.trans (commits_le_pulses h.inStep), hepoch⟩
    · exact hbefore hmem

theorem handled_fresh (h : s.Handled first) (hallow : (s.view noHost t).Allows raw cmd)
    (henv : env t s cmd reply s') (u : T) : (s'.view noHost u).FreshAt s'.ctx.linkEpoch := by
  by_cases hu : u = t
  · rw [hu, env_view_own henv, henv.2.2.1]
    exact freshAt_next (h.fresh t) hallow henv.1
  · rw [env_view_other henv hu, henv.2.2.1]
    cases hbump : cmd.bumpsEpoch with
    | false =>
        rw [linkEpoch_after hbump]
        exact h.fresh u
    | true =>
        -- the lock is with the thread that bumps the epoch
        intro hfresh
        obtain ⟨epoch, rfl⟩ := bumpsEpoch_eq hbump
        obtain ⟨old, hstage, -⟩ := hallow
        have hholds := h.inStep.silent t (by rw [hstage]; rfl)
        exact absurd (h.inStep.locks.unique u t (h.fresh u hfresh).1 hholds) hu

theorem handled_called (h : s.Handled first) (henv : env t s cmd reply s') (huse : inUse t s cmd reply)
    {u : T} {call : SocketCall} (hu : (s'.view noHost u).socket = some call) :
    ∃ token ∈ obtained s'.history, token.1 = call.handle := by
  have hbefore : ∀ call : SocketCall, (s.view noHost u).socket = some call →
      ∃ token ∈ obtained s'.history, token.1 = call.handle := by
    intro call hcall
    obtain ⟨token, htoken, hhandle⟩ := h.called u call hcall
    exact ⟨token, obtained_mono henv htoken, hhandle⟩
  by_cases hut : u = t
  · rw [hut, env_view_own henv] at hu
    rw [hut] at hbefore
    rcases socket_next hu with ⟨hsame, -⟩ | ⟨call', epoch, hcall, -, -, -, rfl⟩ | ⟨handle, rfl, rfl⟩
    · exact hbefore call hsame
    · exact hbefore call' hcall
    · obtain ⟨token, htoken, hhandle⟩ := huse.1 handle rfl
      exact ⟨token, obtained_mono henv htoken, hhandle⟩
  · rw [env_view_other henv hut] at hu
    exact hbefore call hu

theorem handled_outdated (h : s.Handled first) (henv : env t s cmd reply s')
    (hsettles : settlesFirst t s cmd reply) {u : T} {call : SocketCall}
    (hu : (s'.view noHost u).socket = some call) (hentered : EnteredOutdated u s'.history) :
    Outdated s'.history call.handle ∧ call.current ≠ some true := by
  by_cases hut : u = t
  · subst hut
    rw [env_view_own henv] at hu
    rcases socket_next hu with ⟨hsame, hcmd⟩ | ⟨call', epoch, hcall, hlooks, rfl, hread, rfl⟩ | ⟨handle, rfl, rfl⟩
    · obtain ⟨houtdated, hcurrent⟩ := h.outdated u call hsame (entered_own henv hcmd hentered)
      exact ⟨outdated_mono henv houtdated, hcurrent⟩
    · obtain ⟨houtdated, -⟩ := h.outdated u call' hcall (entered_own henv rfl hentered)
      have hne := epoch_ne_of_outdated h (hsettles.2 hlooks) houtdated
      obtain rfl := eq_of_heq hread
      obtain rfl : reply = s.ctx.linkEpoch := henv.1
      exact ⟨outdated_mono henv houtdated, by simp [hne]⟩
    · rw [henv.2.2.2] at hentered
      simp only [EnteredOutdated, ↓reduceIte] at hentered
      exact ⟨outdated_mono henv hentered, nofun⟩
  · rw [env_view_other henv hut] at hu
    obtain ⟨houtdated, hcurrent⟩ := h.outdated u call hu (entered_other henv hut hentered)
    exact ⟨outdated_mono henv houtdated, hcurrent⟩

theorem handled_few (h : s.Handled first) (henv : env t s cmd reply s') (huse : inUse t s cmd reply) :
    pulses s'.history ≤ 254 := by
  have hfew := h.few
  rw [pulses_after henv]
  split
  · rename_i hlow
    have hlt := huse.2 hlow
    omega
  · exact hfew

-- No handle that a call is given carries the epoch that a recovery moves on to.
theorem handleEpoch_ne_bump (h : s.Handled first) (hallow : (s.view noHost t).Allows raw cmd)
    (hbump : cmd.bumpsEpoch = true) {u : T} {call : SocketCall} (hcall : (s.view noHost u).socket = some call) :
    handleEpoch call.handle ≠ (s.ctx.after cmd reply).linkEpoch := by
  obtain ⟨epoch, rfl⟩ := bumpsEpoch_eq hbump
  obtain ⟨old, hstage, rfl⟩ := hallow
  obtain rfl := h.inStep.bumping t old hstage
  obtain ⟨token, htoken, hhandle⟩ := h.called u call hcall
  obtain ⟨-, i, hi, -, hepoch⟩ := h.token token htoken
  have hpulses := h.inStep.unsettled t (by rw [hstage]; rfl)
  have hfew := h.few
  rw [← hhandle, hepoch]
  show epochAt first i ≠ nextEpoch s.ctx.linkEpoch
  rw [h.inStep.epoch]
  intro heq
  have hindex : i = commits s.history + 1 := @epochAt_inj first _ _ (by omega) (by omega) heq
  omega

-- No reset is under way after a step that bumps no epoch, if none was before it.
theorem settled_before (hallow : (s.view noHost t).Allows raw cmd) (henv : env t s cmd reply s')
    (hsettles : settlesFirst t s cmd reply) (hbump : cmd.bumpsEpoch = false)
    (hnone : ∀ u, (s'.view noHost u).stage.unsettled = false) (u : T) :
    (s.view noHost u).stage.unsettled = false := by
  by_cases hut : u = t
  · subst hut
    cases hunset : (s.view noHost u).stage.unsettled with
    | false => rfl
    | true =>
        have hkept := unsettled_kept hallow hbump hsettles.1 hunset
        have hafter := hnone u
        rw [env_view_own henv] at hafter
        exact absurd (hkept.symm.trans hafter) nofun
  · rw [← env_view_other henv hut]
    exact hnone u

theorem handled_frames (h : s.Handled first) (hallow : (s.view noHost t).Allows raw cmd)
    (henv : env t s cmd reply s') (hsettles : settlesFirst t s cmd reply) (hkeeps : keepsFrames t s cmd reply)
    (hnone : ∀ u, (s'.view noHost u).stage.unsettled = false) {u : T} {call : SocketCall}
    (hu : (s'.view noHost u).socket = some call) (hepoch : handleEpoch call.handle = s'.ctx.linkEpoch) :
    (s'.view noHost u).FrameAt s'.ctx.sockBuf := by
  have hctx := henv.2.2.1
  have hbefore : ∀ call' : SocketCall, (s.view noHost u).socket = some call' → call'.handle = call.handle →
      (∀ w, (s.view noHost w).stage.unsettled = false) ∧ handleEpoch call.handle = s.ctx.linkEpoch ∧
        (s.view noHost u).FrameAt s.ctx.sockBuf := by
    intro call' hcall' hhandle
    rw [hctx] at hepoch
    cases hbump : cmd.bumpsEpoch with
    | true => exact absurd hepoch (hhandle ▸ handleEpoch_ne_bump h hallow hbump hcall')
    | false =>
        rw [linkEpoch_after hbump] at hepoch
        have hsettled := settled_before hallow henv hsettles hbump hnone
        exact ⟨hsettled, hepoch, h.frames hsettled u call' hcall' (hhandle ▸ hepoch)⟩
  by_cases hut : u = t
  · subst hut
    rw [env_view_own henv] at hu ⊢
    rw [hctx]
    rcases socket_next hu with ⟨hsame, -⟩ | ⟨call', epoch, hcall', -, -, -, hread⟩ | ⟨handle, rfl, -⟩
    · exact frameAt_next (hbefore call hsame rfl).2.2 hallow henv.1
    · exact frameAt_next (hbefore call' hcall' (by rw [hread])).2.2 hallow henv.1
    · -- a call begins without a request
      intro head hstaged
      rcases staged_next hstaged with hbefore | hcmd
      · rw [hallow.2.2.2] at hbefore
        cases hbefore
      · cases hcmd
  · rw [env_view_other henv hut] at hu ⊢
    obtain ⟨hsettled, hcurrent, hframe⟩ := hbefore call hu rfl
    rw [hctx]
    cases hstages : cmd.stages with
    | false =>
        rw [sockBuf_after hallow hstages]
        exact hframe
    | true =>
        intro head hstaged
        have hstands := hkeeps hstages hsettled u hut
        simp [View.framesAt, hu, hstaged, hcurrent] at hstands

theorem handled_step (hhandled : s.Handled first) (hallow : (s.view noHost t).Allows raw cmd)
    (henv : env t s cmd reply s') (huse : inUse t s cmd reply) (hsettles : settlesFirst t s cmd reply)
    (hkeeps : keepsFrames t s cmd reply) : s'.Handled first where
  inStep := inStep_step hhandled.inStep hallow henv hsettles.1
  few := handled_few hhandled henv huse
  snapshot _ _ hu := handled_snapshot hhandled henv hu
  token _ htoken := handled_token hhandled hallow henv htoken
  fresh u := handled_fresh hhandled hallow henv u
  called _ _ hu := handled_called hhandled henv huse hu
  outdated _ _ hu hentered := handled_outdated hhandled henv hsettles hu hentered
  frames hnone _ _ hu hepoch := handled_frames hhandled hallow henv hsettles hkeeps hnone hu hepoch

theorem fresh_handled (h : s.Fresh) : s.Handled s.ctx.linkEpoch := by
  have hview : ∀ t, s.view noHost t = .start (noHost t) := fun t => fresh_view h t
  have hsound : s.Sound noHost := fresh_sound h
  refine ⟨⟨hsound.locks, hsound.owned, hsound.silent, ?_, ?_, ?_, ?_⟩, ?_, ?_, ?_, ?_, ?_, ?_, ?_⟩
  · simp [h.history, commits, epochAt]
  · simp [hview, View.start]
  · simp [h.history, commits, pulses]
  · simp [hview, View.start, Stage.unsettled]
  · simp [h.history, pulses]
  · simp [hview, View.start]
  · simp [h.history, obtained]
  · simp [hview, View.start, View.FreshAt]
  · simp [hview, View.start]
  · simp [hview, View.start]
  · simp [hview, View.start]

-- The runs in question, and those of them in which no reset goes unconfirmed or is looked at and no
-- request is written over.
def handleEnv (t : T) : Env bridge (Shared T) := envWhere inUse t

def settledEnv (t : T) : Env bridge (Shared T) := fun s cmd reply s' =>
  (handleEnv t s cmd reply s' ∧ settlesFirst t s cmd reply) ∧ keepsFrames t s cmd reply

theorem mayClock_of_sends {v : View} {frame : Frame} (hallow : v.Allows raw cmd)
    (hsends : cmd.sends = some frame) : v.MayClock raw frame := by
  cases cmd with
  | clock transfer frame' | collect frame' =>
      obtain rfl := Option.some.inj hsends
      exact hallow
  | _ => cases hsends

theorem cleared_of_clocks {v : View} (hallow : v.Allows raw cmd) (hclocks : cmd.clocks = true) :
    v.Cleared raw := by
  cases cmd with
  | clock transfer frame | collect frame | resync header => exact hallow.2.1
  | _ => cases hclocks

-- A frame with a firmware handle goes out under the lock, between two resets, for a handle of
-- the epoch that follows the last pulse.
theorem current_of_mayClock (h : s.Handled first) {frame : Frame}
    (hmay : (s.view noHost t).MayClock false frame) (hcarries : frame.cmd.carriesHandle = true) :
    ∃ call, (s.view noHost t).socket = some call ∧ frame.payload.take 2 = handleBytes call.handle ∧
      (∃ token ∈ obtained s.history, token.1 = call.handle) ∧
      ∀ token ∈ obtained s.history, token.1 = call.handle → token.2 = pulses s.history := by
  obtain ⟨hholds, -, hstage, hhandle⟩ := hmay
  rcases hhandle hcarries with hraw | ⟨call, hcall, hfresh, hbytes⟩
  · cases hraw
  · have hout : (s.view noHost t).stage = .out := by
      rcases hstage with hout | ⟨-, hping⟩ | ⟨-, hversion⟩
      · exact hout
      · simp [hping, Opcode.carriesHandle] at hcarries
      · simp [hversion, Opcode.carriesHandle] at hcarries
    have hnone : ∀ u, (s.view noHost u).stage.unsettled = false := by
      intro u
      cases hunset : (s.view noHost u).stage.unsettled with
      | false => rfl
      | true =>
          have hut := h.inStep.locks.unique u t (h.inStep.silent u hunset) hholds
          rw [hut, hout] at hunset
          cases hunset
    obtain ⟨-, call', hcall', hepoch⟩ := h.fresh t hfresh
    obtain rfl := Option.some.inj (hcall.symm.trans hcall')
    have hhandleBytes : frame.payload.take 2 = handleBytes call.handle := by
      rcases hbytes with hbytes | ⟨rest, buf, hstaged, hfetched, hbytes⟩
      · exact hbytes
      · have hread := (h.frames hnone t call hcall hepoch _ hstaged).2 buf hfetched
        have htake : (handleBytes call.handle ++ rest).take 2 = buf.take 2 := by
          have hle : 2 ≤ (handleBytes call.handle ++ rest).length := by simp [handleBytes]
          rw [← hread, List.take_take, Nat.min_eq_left hle]
        rw [hbytes, ← htake, take_handleBytes]
    refine ⟨call, hcall, hhandleBytes, h.called t call hcall, fun token htoken hhandle => ?_⟩
    by_contra hne
    have hle := (h.token token htoken).1
    exact epoch_ne_of_outdated h hnone ⟨token, htoken, hhandle, by omega⟩ hepoch

theorem outdated_handles_refused {cfg : Config} {w w' : Pool bridge (Shared T) T} (hstart : Started w)
    (hrun : Run settledEnv (fun _ _ => HandleCall cfg) w w') :
    (∀ t cmd next frame, w'.thread t = .call cmd next → Cmd.sends cmd = some frame →
      frame.cmd.carriesHandle = true → ∃ call, (w'.mem.view noHost t).socket = some call ∧
        frame.payload.take 2 = handleBytes call.handle ∧
        (∃ token ∈ obtained w'.mem.history, token.1 = call.handle) ∧
        ∀ token ∈ obtained w'.mem.history, token.1 = call.handle → token.2 = pulses w'.mem.history) ∧
    (∀ t cmd next, EnteredOutdated t w'.mem.history → (w'.mem.view noHost t).socket ≠ none →
      w'.thread t = .call cmd next → Cmd.clocks cmd = false ∧
        ∀ status, cmd = .note (.leaveSocket status) → status = .error .notReady) := by
  have htracks : Tracks settledEnv (discipline false) (Shared.view (T := T) noHost) :=
    tracks_env.mono fun t s cmd reply s' henv => henv.1.1.1
  have hkeeps := run_keeps htracks (fun _ _ _ hcall _ hrest => handleCall_keeping hcall hrest)
    (fun _ _ _ _ _ hinv hallow henv => handled_step hinv hallow henv.1.1.1 henv.1.1.2 henv.1.2 henv.2) hrun
    (started_keeps hstart (fresh_handled hstart.mem))
  refine ⟨fun t cmd next frame hcmd hsends hcarries => ?_, fun t cmd next hentered hin hcmd => ?_⟩
  · exact current_of_mayClock hkeeps.inv (mayClock_of_sends (hkeeps.allowed hcmd) hsends) hcarries
  · obtain ⟨call, hcall⟩ := Option.ne_none_iff_exists'.mp hin
    have hcurrent := (hkeeps.inv.outdated t call hcall hentered).2
    refine ⟨?_, fun status hleave => ?_⟩
    · cases hclocks : Cmd.clocks cmd with
      | false => rfl
      | true =>
          rcases cleared_of_clocks (hkeeps.allowed hcmd) hclocks with hraw | hcleared
          · cases hraw
          · exact absurd (hcleared call hcall) hcurrent
    · subst hleave
      obtain ⟨-, -, call', hcall', hfound⟩ := hkeeps.allowed hcmd
      obtain rfl := Option.some.inj (hcall.symm.trans hcall')
      rcases hfound with hfound | ⟨-, hstatus⟩
      · exact absurd hfound hcurrent
      · exact hstatus

end Histories

section Unconfirmed

-- A device that opens socket 7 and answers no PING.
def wedged (frame : Frame) : Except AlpError Answer :=
  if frame.cmd = .ping then .error .timeout
  else .ok ⟨.ok (), 0, if frame.cmd = .sockOpen then [7, 0] else []⟩

def sockOpenCall : Driver Unit := do let _ ← sockOpen board 0 0 0 0

def sockCloseCall : Driver Unit := do let _ ← sockClose board 7 0

-- Thread 0 opens a socket, 1 recovers the link and 2 closes the socket.
def threeCalls : Pool bridge (Shared (Fin 3)) (Fin 3) :=
  ⟨(booted (Fin 3)).mem, Function.update (Function.update (Function.update (booted (Fin 3)).thread 0
    sockOpenCall) 1 recoverCall) 2 sockCloseCall⟩

theorem run_threeCalls {env : Fin 3 → Env bridge (Shared (Fin 3))} {w : Pool bridge (Shared (Fin 3)) (Fin 3)}
    (hrun : Run env (fun _ _ => HandleCall board) threeCalls w) :
    Run env (fun _ _ => HandleCall board) (booted (Fin 3)) w :=
  run_start rfl (.open 0 0 0 0) (run_start rfl .recover (run_start rfl (.close 7 0) hrun))

instance (t : Fin 3) (s : Shared (Fin 3)) (cmd : Cmd) (reply : bridge.Reply cmd) :
    Decidable (inUse t s cmd reply) :=
  -- over the handle that the command carries, not over all handles
  @instDecidableAnd _ _ (Option.decidableForallMem cmd.enters) inferInstance

instance (t : Fin 3) (s : Shared (Fin 3)) (cmd : Cmd) (reply : bridge.Reply cmd) :
    Decidable (settlesFirst t s cmd reply) :=
  inferInstanceAs (Decidable (_ ∧ _))

instance (t : Fin 3) (s : Shared (Fin 3)) (cmd : Cmd) (reply : bridge.Reply cmd) :
    Decidable (keepsFrames t s cmd reply) :=
  inferInstanceAs (Decidable (_ → _))

def sendsHandle (cmd : Cmd) : Bool := cmd.sends.any fun frame => frame.cmd.carriesHandle

theorem exists_sends {p : Driver Unit} (h : standsBefore sendsHandle p = true) :
    ∃ cmd next frame, p = .call cmd next ∧ Cmd.sends cmd = some frame ∧ frame.cmd.carriesHandle = true := by
  cases p with
  | ret value => cases h
  | call cmd next =>
      have hcarries : (Cmd.sends cmd).any (fun frame => frame.cmd.carriesHandle) = true := h
      cases hsends : Cmd.sends cmd with
      | none => simp [hsends] at hcarries
      | some frame => exact ⟨cmd, next, frame, rfl, hsends, by simpa [hsends] using hcarries⟩

-- The socket is opened and about to be closed.
def closing : Pool bridge (Shared (Fin 3)) (Fin 3) :=
  schedule (restricted keepsFrames (restricted settlesFirst (restricted inUse (still wedged))))
    (List.replicate 16 0 ++ List.replicate 12 2) threeCalls

theorem closing_sends : standsBefore sendsHandle (closing.thread 2) = true := by decide +kernel

theorem outdated_handles_refused_closing :
    standsBefore sendsHandle (closing.thread 2) = true ∧
      ∀ token ∈ obtained closing.mem.history, token.1 = 7 → token.2 = pulses closing.mem.history := by
  obtain ⟨cmd, next, frame, hcmd, hsends, hcarries⟩ := exists_sends closing_sends
  have hrun : Run settledEnv (fun _ _ => HandleCall board) (booted (Fin 3)) closing :=
    run_threeCalls (run_schedule
      (answering_restricted keepsFrames
        (answering_restricted settlesFirst (answering_restricted inUse (answering_still wedged)))) _ _)
  obtain ⟨call, hcall, -, -, hcurrent⟩ :=
    (outdated_handles_refused (started_booted (Fin 3)) hrun).1 2 cmd next frame hcmd hsends hcarries
  have hhandle : (closing.mem.view noHost 2).socket.map SocketCall.handle = some 7 := by decide +kernel
  have hseven : call.handle = 7 := by
    rw [hcall] at hhandle
    exact Option.some.inj hhandle
  exact ⟨closing_sends, fun token htoken htoken7 => hcurrent token htoken (htoken7.trans hseven.symm)⟩

-- The recovery has pulsed nRESET and has had no answer to its PING.
def closingAfterReset : Pool bridge (Shared (Fin 3)) (Fin 3) :=
  schedule (restricted inUse (still wedged))
    (List.replicate 16 0 ++ List.replicate 23 1 ++ List.replicate 12 2) threeCalls

theorem closingAfterReset_sends : standsBefore sendsHandle (closingAfterReset.thread 2) = true := by
  decide +kernel

theorem outdated_handle_sent :
    ¬∀ (w w' : Pool bridge (Shared (Fin 3)) (Fin 3)), Started w →
      Run handleEnv (fun _ _ => HandleCall board) w w' →
        ∀ t cmd next frame, w'.thread t = .call cmd next → Cmd.sends cmd = some frame →
          frame.cmd.carriesHandle = true → ∃ call, (w'.mem.view noHost t).socket = some call ∧
            ∃ token ∈ obtained w'.mem.history, token.1 = call.handle ∧ token.2 = pulses w'.mem.history := by
  intro h
  obtain ⟨cmd, next, frame, hcmd, hsends, hcarries⟩ := exists_sends closingAfterReset_sends
  have hrun : Run handleEnv (fun _ _ => HandleCall board) (booted (Fin 3)) closingAfterReset :=
    run_threeCalls (run_schedule (answering_restricted inUse (answering_still wedged)) _ _)
  obtain ⟨call, -, token, htoken, -, hgeneration⟩ :=
    h _ closingAfterReset (started_booted (Fin 3)) hrun 2 cmd next frame hcmd hsends hcarries
  have hobtained : obtained closingAfterReset.mem.history = [(7, 0)] := by decide +kernel
  have hpulses : pulses closingAfterReset.mem.history = 1 := by decide +kernel
  rw [hobtained] at htoken
  rw [List.mem_singleton.mp htoken, hpulses] at hgeneration
  cases hgeneration

end Unconfirmed

end AlpSdk.Cc3501e
