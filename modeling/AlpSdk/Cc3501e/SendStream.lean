import AlpSdk.Cc3501e.Retry
import AlpSdk.Cc3501e.Sockets

-- The bytes that SOCK_SEND queues on the bridge, over lost requests and replies.
namespace AlpSdk.Cc3501e

open Library.Effect Library.Interleave Library.Bytes

-- The seq of a SOCK_SEND frame, which is part of its payload, and its data.
def Frame.sendSeq (frame : Frame) : UInt8 := frame.payload.getD 3 0

def Frame.sendData (frame : Frame) : List UInt8 := frame.payload.drop SOCK_SEND_HDR

def Frame.sockHandle (frame : Frame) : Nat := getLe16 0 frame.payload

-- A job queues as much of its frame's data as there is room for, and its reply is the count.
abbrev sending : Service where
  Key := UInt8
  Result := Nat
  key := fun frame => if frame.cmd = .sockSend then some frame.sendSeq else none
  Does := fun frame n => n ≤ frame.sendData.length
  Says := fun n answer => 2 ≤ answer.data.length → getLe16 0 answer.data = n
  upkeep := fun frame h => if_neg fun hsend => by simp [hsend, Opcode.upkeep] at h

-- The bytes that jobs have queued, the latest job first.
def queued : List (Frame × Nat) → List UInt8
  | [] => []
  | (frame, n) :: earlier => queued earlier ++ frame.sendData.take n

-- Jobs of one handle that have queued the first `total` bytes of `data`, each once.
structure Sent (handle : UInt16) (data : List UInt8) (total : Nat) (jobs : List (Frame × Nat)) : Prop where
  own : ∀ job ∈ jobs, job.1.sockHandle = (handleWire handle).toNat
  bound : total ≤ data.length
  bytes : queued jobs = data.take total

structure Send where
  handle : UInt16
  data : List UInt8
  timeoutMs : UInt32

-- What a call has queued: at every moment the first bytes of its data, all of them where it
-- returned ALP_OK, and what `*sent_out` counts but for the job of one frame.
structure Delivered (call : Send × Option (Status × Option Nat)) (jobs : List (Frame × Nat)) : Prop where
  sent : ∃ total, Sent call.1.handle call.1.data total jobs
  ok : ∀ sent, call.2 = some (.ok (), sent) →
    sent = some call.1.data.length ∧ Sent call.1.handle call.1.data call.1.data.length jobs
  count : ∀ s n, call.2 = some (s, some n) → ∃ last collected, jobs = last ++ collected ∧ last.length ≤ 1 ∧
    Sent call.1.handle call.1.data n collected
  refused : ∀ s, call.2 = some (s, none) → jobs = []

-- The seq of the job whose result the bridge holds is none of the next one.
def Unaliased (s : Link (Worker sending)) : Prop :=
  s.peer.live = true → ∀ n, s.peer.held ≠ some (s.ctx.sockSendSeq + 1, n)

-- One call after another, latest first, each with what it returned, if it has returned, and
-- anything else that sends no such frame. The bridge starts again between two calls only: one that
-- a call finds down, or resets, stays down until that call is over.
inductive Sends (cfg : Config) (s : Link (Worker sending)) :
    List (Send × Option (Status × Option Nat)) → Link (Worker sending) → Prop where
  | start : Sends cfg s [] s
  | send {calls : List (Send × Option (Status × Option Nat))} {s' s'' : Link (Worker sending)}
      {out : Option (Status × Option Nat)} (call : Send) (hbefore : Sends cfg s calls s') (hfresh : Unaliased s')
      (hcall : Exec (alone (retrying sending)) s' (sockSend cfg call.handle call.data call.timeoutMs) out s'') :
      Sends cfg s ((call, out) :: calls) s''
  | other {calls : List (Send × Option (Status × Option Nat))} {s' s'' : Link (Worker sending)} {α : Type}
      {p : Driver α} {out : Option α} (hbefore : Sends cfg s calls s')
      (huses : p.Uses (Cmd.Unkeyed sending)) (hcall : Exec (alone (retrying sending)) s' p out s'') :
      Sends cfg s calls s''
  | booted {calls : List (Send × Option (Status × Option Nat))} {s' : Link (Worker sending)}
      (hbefore : Sends cfg s calls s') : Sends cfg s calls { s' with peer := s'.peer.boot }

section Frames

variable {handle : UInt16} {data : List UInt8} {total n : Nat} {jobs : List (Frame × Nat)}

-- The payload of one iteration, and its frames.
def sendPayload (handle : UInt16) (seq : UInt8) (rest : List UInt8) : List UInt8 :=
  sendHead handle ++ sendBody seq rest

theorem length_sendHead : (sendHead handle).length = 3 := rfl

theorem length_sendPayload (seq : UInt8) (rest : List UInt8) :
    (sendPayload handle seq rest).length = SOCK_SEND_HDR + rest.length := by
  simp only [sendPayload, List.length_append, length_sendHead, sendBody, List.length_cons, List.length_nil,
    length_putLE, SOCK_SEND_HDR]
  omega

def SendFrames (handle : UInt16) (seq : UInt8) (rest : List UInt8) (frame : Frame) : Prop :=
  frame.cmd = .sockSend ∧ frame.payload = sendPayload handle seq rest

theorem sendData_of_frames {seq : UInt8} {rest : List UInt8} {frame : Frame}
    (h : SendFrames handle seq rest frame) : frame.sendData = rest := by
  rw [Frame.sendData, h.2]
  rfl

theorem sockHandle_of_frames {seq : UInt8} {rest : List UInt8} {frame : Frame}
    (h : SendFrames handle seq rest frame) : frame.sockHandle = (handleWire handle).toNat := by
  have hlt := (handleWire handle).toNat_lt
  have hhead : slice 0 2 frame.payload = putLE 2 (handleWire handle).toNat := by
    rw [h.2]
    rfl
  rw [Frame.sockHandle, getLe16, hhead, getLE_putLE]
  exact Nat.mod_eq_of_lt (by omega)

theorem sent_nil : Sent handle data 0 [] := ⟨nofun, Nat.zero_le _, rfl⟩

theorem sent_cons {seq : UInt8} {frame : Frame} (h : Sent handle data total jobs)
    (hframe : SendFrames handle seq (data.drop total) frame) (hn : n ≤ frame.sendData.length) :
    Sent handle data (total + n) ((frame, n) :: jobs) := by
  rw [sendData_of_frames hframe, List.length_drop] at hn
  have htotal := h.bound
  refine ⟨fun job hjob => ?_, by omega, ?_⟩
  · obtain rfl | hjob := List.mem_cons.mp hjob
    · exact sockHandle_of_frames hframe
    · exact h.own job hjob
  · rw [queued, h.bytes, sendData_of_frames hframe, List.take_add]

end Frames

section Call

variable {cfg : Config} {handle : UInt16} {data : List UInt8} {base : List (Frame × Nat)} {seq : UInt8}
  {total : Nat} {collected : List (Frame × Nat)} {s : Link (Worker sending)}

-- At every moment of a call.
def Queueing (handle : UInt16) (data : List UInt8) (base : List (Frame × Nat)) (w : Worker sending) : Prop :=
  ∃ jobs total, w.done = jobs ++ base ∧ Sent handle data total jobs

-- Between two calls.
structure Rests (done : List (Frame × Nat)) (s : Link (Worker sending)) : Prop where
  log : s.peer.done = done
  fresh : Unaliased s

-- Between two iterations.
structure Level (handle : UInt16) (data : List UInt8) (base : List (Frame × Nat)) (total : Nat)
    (s : Link (Worker sending)) : Prop where
  jobs : ∃ jobs, s.peer.done = jobs ++ base ∧ Sent handle data total jobs
  fresh : Unaliased s

-- What the host keeps in an iteration: the seq and the frame.
structure Staged (handle : UInt16) (seq : UInt8) (rest : List UInt8) (ctx : Ctx) : Prop where
  counter : ctx.sockSendSeq = seq
  buffer : ctx.sockBuf.take (SOCK_SEND_HDR + rest.length) = sendPayload handle seq rest

-- In an iteration, with what was collected before it.
structure Underway (handle : UInt16) (data : List UInt8) (done : List (Frame × Nat)) (total : Nat)
    (seq : UInt8) (s : Link (Worker sending)) : Prop where
  staged : Staged handle seq (data.drop total) s.ctx
  calling : Calling (v := sending) (SendFrames handle seq (data.drop total)) seq done s.peer

-- At the end of a call.
structure Concluded (handle : UInt16) (data : List UInt8) (base : List (Frame × Nat)) (out : Status × Nat)
    (w : Worker sending) : Prop where
  jobs : ∃ last collected total, w.done = last ++ collected ++ base ∧ last.length ≤ 1 ∧
    Sent handle data out.2 collected ∧ Sent handle data total (last ++ collected)
  ok : out.1 = .ok () → out.2 = data.length ∧ ∃ jobs, w.done = jobs ++ base ∧ Sent handle data data.length jobs

theorem Level.queueing (h : Level handle data base total s) : Queueing handle data base s.peer := by
  obtain ⟨jobs, hdone, hsent⟩ := h.jobs
  exact ⟨jobs, total, hdone, hsent⟩

theorem Underway.queueing (h : Underway handle data (collected ++ base) total seq s)
    (hsent : Sent handle data total collected) : Queueing handle data base s.peer := by
  obtain ⟨hdone, -⟩ | ⟨frame, n, hframe, hn, hdone, -⟩ := h.calling
  · exact ⟨collected, total, hdone, hsent⟩
  · exact ⟨(frame, n) :: collected, total + n, hdone, sent_cons hsent hframe hn⟩

-- A call that ends in an iteration.
theorem Underway.concluded (h : Underway handle data (collected ++ base) total seq s)
    (hsent : Sent handle data total collected) (err : AlpError) :
    Concluded handle data base (.error err, total) s.peer := by
  refine ⟨?_, nofun⟩
  obtain ⟨hdone, -⟩ | ⟨frame, n, hframe, hn, hdone, -⟩ := h.calling
  · exact ⟨[], collected, total, hdone, Nat.zero_le 1, hsent, hsent⟩
  · exact ⟨[(frame, n)], collected, total + n, hdone, Nat.le_refl 1, hsent, sent_cons hsent hframe hn⟩

theorem spare_sendSeq (seq : UInt8) : Spare fun ctx => ctx.sockSendSeq = seq := by
  intro ctx cmd reply hcmd h
  cases cmd with
  | set f v =>
      cases f with
      | sockSendSeq => exact absurd hcmd (by simp [Cmd.Upkeep, Field.upkeep])
      | _ => exact h
  | claim flag => cases flag <;> exact h
  | _ => exact h

theorem spare_staged (rest : List UInt8) : Spare (Staged handle seq rest) := by
  rintro ctx cmd reply hcmd ⟨hcounter, hbuffer⟩
  refine ⟨spare_sendSeq seq ctx cmd reply hcmd hcounter, ?_⟩
  rw [upkeep_sockBuf reply hcmd]
  exact hbuffer

theorem upkept_underway {done : List (Frame × Nat)} :
    Upkept (alone (retrying sending)) (Underway handle data done total seq) := by
  intro s cmd reply s' hcmd he h
  obtain ⟨hstaged, hcalling⟩ := upkept_calling (spare_staged _) s cmd reply s' hcmd he ⟨h.staged, h.calling⟩
  exact ⟨hstaged, hcalling⟩

theorem upkept_rests {done : List (Frame × Nat)} : Upkept (alone (retrying sending)) (Rests done) := by
  rintro s cmd reply s' hcmd ⟨-, hctx, hpeer⟩ h
  have hseq : s'.ctx.sockSendSeq = s.ctx.sockSendSeq := by
    rw [hctx]
    exact spare_sendSeq _ s.ctx cmd reply hcmd rfl
  refine ⟨(done_unkeyed (hcmd.unkeyed sending) hpeer).trans h.log, fun hlive n => ?_⟩
  rw [hseq]
  obtain hreset | ⟨armed, hsame⟩ := retrying_unkeyed (hcmd.unkeyed sending) hpeer
  · rw [hreset]
    exact nofun
  · rw [hsame] at hlive ⊢
    exact h.fresh hlive n

theorem upkept_level : Upkept (alone (retrying sending)) (Level handle data base total) := by
  intro s cmd reply s' hcmd he h
  obtain ⟨jobs, hdone, hsent⟩ := h.jobs
  have hrests := upkept_rests s cmd reply s' hcmd he ⟨hdone, h.fresh⟩
  exact ⟨⟨jobs, hrests.log, hsent⟩, hrests.fresh⟩

-- The frame of one iteration, under whatever seq its header has.
theorem wp_sendPoll (cfg : Config) (timeoutMs : UInt32) {done : List (Frame × Nat)}
    (h : Underway handle data done total seq s) :
    wp (alone (retrying sending)) (Underway handle data done total seq)
      (pollByRepeatStaged cfg .sockSend (SOCK_SEND_HDR + (data.drop total).length) 2 timeoutMs handle)
      (fun out s' => out.1 = .ok () →
        Brings (v := sending) (SendFrames handle seq (data.drop total)) done 2 out.2 s'.peer) s := by
  have hretried (headerSeq : UInt8) (s : Link (Worker sending)) (h : Underway handle data done total seq s) :=
    wp_retriedStaged (v := sending) cfg (I := Staged handle seq (data.drop total))
      (P := SendFrames handle seq (data.drop total)) (spare_staged _)
      (length_sendPayload seq (data.drop total)) (fun _ h => h.buffer)
      (show SendFrames _ _ _ ⟨.sockSend, sendPayload handle seq (data.drop total), headerSeq⟩ from ⟨rfl, rfl⟩) rfl 2
      timeoutMs (some handle) ⟨h.staged, h.calling⟩
  refine wp_bind (wp_mono (wp_nextReqSeq (upkept_underway.waited) ?_ h) fun headerSeq s hs _ => ?_)
  · rintro s v s' ⟨⟨hcounter, hbuffer⟩, hcalling⟩ ⟨-, hctx, hpeer⟩
    refine ⟨?_, Eq.subst (motive := Calling _ seq done) (Eq.symm hpeer) hcalling⟩
    rw [hctx]
    exact ⟨hcounter, hbuffer⟩
  · refine wp_mono (wp_relax (hretried headerSeq s hs) fun _ h => ⟨h.1, h.2⟩) fun _ _ _ h => h.2

theorem succ_ne (seq : UInt8) : seq + 1 ≠ seq := by
  intro heq
  have hnat := congrArg UInt8.toNat heq
  have hlt := seq.toNat_lt
  have hone : (1 : UInt8).toNat = 1 := rfl
  rw [UInt8.toNat_add] at hnat
  omega

-- The count that ends an iteration.
theorem Underway.level {reply : List UInt8} (h : Underway handle data (collected ++ base) total seq s)
    (hsent : Sent handle data total collected)
    (hbrings : Brings (v := sending) (SendFrames handle seq (data.drop total)) (collected ++ base) 2 reply s.peer)
    (hlong : 2 ≤ reply.length) :
    getLe16 0 reply ≤ (data.drop total).length ∧ Level handle data base (total + getLe16 0 reply) s := by
  obtain ⟨full, -, ⟨frame, n, hframe, hn, hdone, hsays⟩, rfl⟩ := hbrings
  rw [List.length_take] at hlong
  have hcount : getLe16 0 (full.data.take 2) = n := by
    rw [← hsays (by omega)]
    simp [getLe16, slice, List.take_take]
  rw [hcount]
  refine ⟨sendData_of_frames hframe ▸ hn, ⟨(frame, n) :: collected, hdone, sent_cons hsent hframe hn⟩, ?_⟩
  intro hlive m hnext
  rw [h.staged.counter] at hnext
  obtain ⟨hnone, -⟩ | ⟨frame', n', -, -, -, hheld⟩ := h.calling
  · have hlength := congrArg List.length (hnone.symm.trans hdone)
    simp at hlength
  · have hsame := (Option.some.inj ((hheld hlive).symm.trans hnext))
    exact succ_ne seq (congrArg Prod.fst hsame).symm

theorem Level.concluded (h : Level handle data base total s) (err : AlpError) :
    Concluded handle data base (.error err, total) s.peer := by
  obtain ⟨jobs, hdone, hsent⟩ := h.jobs
  exact ⟨⟨[], jobs, total, hdone, Nat.zero_le 1, hsent, hsent⟩, nofun⟩

theorem Level.finished (h : Level handle data base total s) (hall : total = data.length) :
    Concluded handle data base (.ok (), total) s.peer := by
  obtain ⟨jobs, hdone, hsent⟩ := h.jobs
  exact ⟨⟨[], jobs, total, hdone, Nat.zero_le 1, hsent, hsent⟩, fun _ => ⟨hall, jobs, hdone, hall ▸ hsent⟩⟩

theorem wp_sendGrace (cfg : Config) (h : Underway handle data (collected ++ base) total seq s)
    (hsent : Sent handle data total collected) :
    wp (alone (retrying sending)) (fun s => Queueing handle data base s.peer)
      (sendGrace cfg handle (data.drop total).length total)
      (fun out s => Concluded handle data base out s.peer) s := by
  refine wp_bind (wp_mono (wp_relax (wp_sendPoll cfg _ h) fun _ h => h.queueing hsent) ?_)
  rintro ⟨status, reply⟩ s hqueueing ⟨h, hbrings⟩
  cases status with
  | error err =>
      dsimp only
      split
      · exact ⟨hqueueing, h.concluded hsent err⟩
      · exact ⟨hqueueing, h.concluded hsent .timeout⟩
  | ok _ =>
      dsimp only
      by_cases hshort : reply.length < 2
      · rw [if_pos hshort]
        exact ⟨hqueueing, h.concluded hsent .io⟩
      rw [if_neg hshort]
      obtain ⟨hfits, hlevel⟩ := h.level hsent (hbrings rfl) (Nat.not_lt.mp hshort)
      rw [Nat.min_eq_left hfits]
      refine ⟨hqueueing, ?_⟩
      rw [List.length_drop]
      have hbound := hsent.bound
      split
      next hall => exact hlevel.finished (by omega)
      next => exact hlevel.concluded .timeout

theorem upkeep_leftOf (deadlineMs : UInt64) : Upkeep (leftOf deadlineMs) :=
  upkeep_bind upkeep_uptime fun _ => upkeep_pure _

-- The check at the top of every iteration but the first.
theorem wp_goOn {α : Type} {body : Bool → Driver α} {Q : α → Link (Worker sending) → Prop}
    (deadlineMs : UInt64)
    (first : Bool) (hbody : ∀ goOn s, Level handle data base total s →
      wp (alone (retrying sending)) (fun s => Queueing handle data base s.peer) (body goOn) Q s)
    (h : Level handle data base total s) :
    wp (alone (retrying sending)) (fun s => Queueing handle data base s.peer)
      (if first = true then do
        let goOn ← pure true
        body goOn
      else do
        let left ← leftOf deadlineMs
        let goOn ← pure (decide (SOCK_SEND_BACKOFF_MS ≤ left.toNat))
        body goOn) Q s := by
  cases first with
  | true => exact hbody true s h
  | false =>
      exact wp_keeping_bind upkept_level (fun _ h => h.queueing) (upkeep_leftOf _) h fun left s h => hbody _ s h

-- A new seq and a new frame begin a new iteration.
theorem Level.underway {s' : Link (Worker sending)} (h : Level handle data base total s)
    (hhead : s.ctx.sockBuf.take 3 = sendHead handle) (hseq : s'.ctx.sockSendSeq = s.ctx.sockSendSeq + 1)
    (hbuf : s'.ctx.sockBuf = overlay 3 (sendBody (s.ctx.sockSendSeq + 1) (data.drop total)) s.ctx.sockBuf)
    (hpeer : s'.peer = s.peer) :
    ∃ collected, Sent handle data total collected ∧
      Underway handle data (collected ++ base) total (s.ctx.sockSendSeq + 1) s' := by
  obtain ⟨collected, hdone, hsent⟩ := h.jobs
  refine ⟨collected, hsent, ⟨hseq, ?_⟩, .inl ?_⟩
  · rw [hbuf, overlay, hhead]
    exact List.take_left' (length_sendPayload _ _)
  · rw [hpeer]
    exact ⟨hdone, h.fresh⟩

theorem wp_sendFrame {α : Type} {next : Driver α} {Q : α → Link (Worker sending) → Prop}
    (h : Level handle data base total s)
    (hnext : ∀ collected s', Sent handle data total collected →
      Underway handle data (collected ++ base) total (s.ctx.sockSendSeq + 1) s' →
        wp (alone (retrying sending)) (fun s => Queueing handle data base s.peer) next Q s') :
    wp (alone (retrying sending)) (fun s => Queueing handle data base s.peer)
      (do
        stage 0 (sendHead handle)
        let seq ← get .sockSendSeq
        set .sockSendSeq (seq + 1)
        stage 3 (sendBody (seq + 1) (data.drop total))
        next) Q s := by
  refine ⟨h.queueing, fun _ s₁ hhead => ?_⟩
  have hbuf₁ : s₁.ctx.sockBuf.take 3 = sendHead handle := by
    rw [hhead.2.1]
    exact List.take_left' length_sendHead
  have hseq₁ : s₁.ctx.sockSendSeq = s.ctx.sockSendSeq := by
    rw [hhead.2.1]
    rfl
  have h₁ : Level handle data base total s₁ :=
    ⟨hhead.2.2 ▸ h.jobs, by rw [Unaliased, hhead.2.2, hseq₁]; exact h.fresh⟩
  refine ⟨h₁.queueing, fun seq s₂ hread => ?_⟩
  obtain rfl : s₂ = s₁ := by
    obtain ⟨ctx, w⟩ := s₁
    obtain ⟨ctx', w'⟩ := s₂
    obtain ⟨-, hctx, hpeer⟩ := hread
    rw [show ctx' = ctx from hctx, show w' = w from hpeer]
  obtain rfl : seq = s₂.ctx.sockSendSeq := hread.1
  refine ⟨h₁.queueing, fun _ s₃ hset => ?_⟩
  have hqueueing : Queueing handle data base s₃.peer := by
    rw [show s₃.peer = s₂.peer from hset.2.2]
    exact h₁.queueing
  refine ⟨hqueueing, fun _ s₄ hbody => ?_⟩
  have hseq₄ : s₄.ctx.sockSendSeq = s₂.ctx.sockSendSeq + 1 := by
    rw [hbody.2.1, hset.2.1]
    rfl
  have hbuf₄ : s₄.ctx.sockBuf =
      overlay 3 (sendBody (s₂.ctx.sockSendSeq + 1) (data.drop total)) s₂.ctx.sockBuf := by
    rw [hbody.2.1, hset.2.1]
    rfl
  obtain ⟨collected, hsent, hunderway⟩ := h₁.underway hbuf₁ hseq₄ hbuf₄ (hbody.2.2.trans hset.2.2)
  exact hnext collected s₄ hsent (hseq₁ ▸ hunderway)

-- One iteration after another, from what is collected so far.
theorem wp_sendLoop (cfg : Config) (deadlineMs : UInt64) (fuel : Nat) (first : Bool)
    (h : Level handle data base total s) :
    wp (alone (retrying sending)) (fun s => Queueing handle data base s.peer)
      (sendLoop cfg handle deadlineMs fuel (data.drop total) total first)
      (fun out s => Concluded handle data base out s.peer) s := by
  induction fuel generalizing total first s with
  | zero => exact ⟨h.queueing, fun reply : Empty => reply.elim⟩
  | succ fuel ih =>
      rw [sendLoop]
      refine wp_goOn deadlineMs first (fun goOn s h => ?_) h
      cases goOn with
      | false => exact ⟨h.queueing, h.concluded .timeout⟩
      | true =>
          refine wp_sendFrame h fun collected s hsent hunderway => ?_
          refine wp_keeping_bind (p := leftOf deadlineMs) upkept_underway (fun _ h => h.queueing hsent)
            (upkeep_leftOf _) hunderway fun budget s h => ?_
          refine wp_bind (wp_mono (wp_relax (wp_sendPoll cfg _ h) fun _ h => h.queueing hsent) ?_)
          rintro ⟨status, reply⟩ s hqueueing ⟨h, hbrings⟩
          cases status with
          | error err =>
              cases err with
              | timeout => exact wp_sendGrace cfg h hsent
              | _ => exact ⟨hqueueing, h.concluded hsent _⟩
          | ok _ =>
              dsimp only
              by_cases hshort : reply.length < 2
              · rw [if_pos hshort]
                exact ⟨hqueueing, h.concluded hsent .io⟩
              rw [if_neg hshort]
              have hcount := hbrings rfl
              dsimp only at hcount
              obtain ⟨hfits, hlevel⟩ := h.level hsent hcount (Nat.not_lt.mp hshort)
              have hbound := hsent.bound
              rw [Nat.min_eq_left hfits]
              by_cases hall : getLe16 0 reply = (data.drop total).length
              · rw [if_pos hall]
                rw [List.length_drop] at hall
                exact ⟨hqueueing, hlevel.finished (by omega)⟩
              rw [if_neg hall]
              by_cases hnone : getLe16 0 reply = 0
              · rw [if_pos hnone]
                rw [hnone, Nat.add_zero] at hlevel
                refine wp_keeping_bind upkept_level (fun _ h => h.queueing) (upkeep_leftOf _) hlevel
                  fun left s hlevel => ?_
                split
                · exact ⟨hlevel.queueing, hlevel.concluded .timeout⟩
                · refine wp_keeping_bind upkept_level (fun _ h => h.queueing) (upkeep_delay _) hlevel
                    fun _ s hlevel => ih _ hlevel
              · rw [if_neg hnone, List.drop_drop]
                exact ih _ hlevel

-- What a call that has returned leaves behind.
def Delivers (call : Send) (base : List (Frame × Nat)) (out : Status × Option Nat) (s : Link (Worker sending)) :
    Prop :=
  ∃ jobs, s.peer.done = jobs ++ base ∧ Delivered (call, some out) jobs

theorem upkept_delivers (call : Send) (out : Status × Option Nat) :
    Upkept (alone (retrying sending)) (Delivers call base out) := by
  rintro s cmd reply s' hcmd ⟨-, -, hpeer⟩ ⟨jobs, hdone, hdelivered⟩
  exact ⟨jobs, (done_unkeyed (hcmd.unkeyed sending) hpeer).trans hdone, hdelivered⟩

theorem Rests.queueing (h : Rests base s) : Queueing handle data base s.peer := ⟨[], 0, h.log, sent_nil⟩

theorem Rests.delivers (call : Send) (h : Rests base s) (err : AlpError) {sent : Option Nat}
    (hsent : ∀ n, sent = some n → n = 0) : Delivers call base (.error err, sent) s := by
  refine ⟨[], h.log, ⟨⟨0, sent_nil⟩, nofun, fun status n hout => ?_, fun _ _ => rfl⟩⟩
  obtain rfl := hsent n (congrArg Prod.snd (Option.some.inj hout))
  exact ⟨[], [], rfl, Nat.zero_le 1, sent_nil⟩

theorem Concluded.delivers {status : Status} {n : Nat} (timeoutMs : UInt32)
    (h : Concluded handle data base (status, n) s.peer) :
    Delivers ⟨handle, data, timeoutMs⟩ base (status, some n) s := by
  obtain ⟨last, collected, total, hdone, hlast, hcollected, hsent⟩ := h.jobs
  refine ⟨last ++ collected, hdone, ⟨⟨total, hsent⟩, ?_, ?_, nofun⟩⟩
  · rintro sent hout
    obtain ⟨rfl, rfl⟩ := Prod.mk.inj (Option.some.inj hout)
    obtain ⟨hall, jobs, hlog, hjobs⟩ := h.ok rfl
    obtain rfl : jobs = last ++ collected := List.append_cancel_right (hlog.symm.trans hdone)
    exact ⟨congrArg some hall, hjobs⟩
  · rintro status' n' hout
    obtain ⟨-, hn⟩ := Prod.mk.inj (Option.some.inj hout)
    obtain rfl := Option.some.inj hn
    exact ⟨last, collected, rfl, hlast, hcollected⟩

theorem wp_sockSend (cfg : Config) (call : Send) (h : Rests base s) :
    wp (alone (retrying sending)) (fun s => Queueing call.handle call.data base s.peer)
      (sockSend cfg call.handle call.data call.timeoutMs) (Delivers call base) s := by
  have hK : ∀ s, Rests base s → Queueing call.handle call.data base s.peer := fun _ h => h.queueing
  have hleft : ∀ out s, Delivers call base out s → Queueing call.handle call.data base s.peer := by
    rintro out s ⟨jobs, hdone, hdelivered⟩
    obtain ⟨total, hsent⟩ := hdelivered.sent
    exact ⟨jobs, total, hdone, hsent⟩
  refine wp_socketCall upkept_rests hK (upkept_delivers call) hleft (fun s h => h.delivers call _ nofun)
    (fun s h => wp_ite (fun _ => ⟨h.queueing, h.delivers call _ nofun⟩) fun _ => ?_) h
  refine wp_keeping_bind upkept_rests hK (upkeep_get _) h fun busy s h => ?_
  cases busy with
  | true => exact ⟨h.queueing, h.delivers call _ fun n hn => (Option.some.inj hn).symm⟩
  | false =>
      refine wp_keeping_bind upkept_rests hK (upkeep_set rfl _) h fun _ s h => ?_
      refine wp_keeping_bind upkept_rests hK upkeep_uptime h fun now s h => ?_
      have hlevel : Level call.handle call.data base 0 s := ⟨⟨[], h.log, sent_nil⟩, h.fresh⟩
      refine wp_bind (wp_mono (wp_sendLoop cfg _ cfg.fuel true hlevel) ?_)
      rintro ⟨status, n⟩ s - hconcluded
      refine wp_keeping_bind (upkept_delivers call _) (hleft _) (upkeep_set rfl _)
        (hconcluded.delivers call.timeoutMs) fun _ s hdelivers => ?_
      exact ⟨hleft _ s hdelivers, hdelivers⟩

end Call

section Run

variable {cfg : Config} {s s' : Link (Worker sending)}

-- Every call queues the first bytes of its data in order and each once, also where frames and
-- replies are lost, and one that returns ALP_OK all of them.
theorem sends_in_order {calls : List (Send × Option (Status × Option Nat))} (hrun : Sends cfg s calls s') :
    ∃ parts, s'.peer.done = parts.flatten ++ s.peer.done ∧ List.Forall₂ Delivered calls parts := by
  induction hrun with
  | start => exact ⟨[], rfl, .nil⟩
  | @send calls s' s'' out call _ hfresh hcall ih =>
      obtain ⟨parts, hlog, hparts⟩ := ih
      obtain ⟨⟨jobs, total, hdone, hsent⟩, hdelivers⟩ := wp_sound hcall (wp_sockSend cfg call ⟨rfl, hfresh⟩)
      have hdelivered : ∃ jobs, s''.peer.done = jobs ++ s'.peer.done ∧ Delivered (call, out) jobs := by
        cases out with
        | none => exact ⟨jobs, hdone, ⟨⟨total, hsent⟩, nofun, nofun, nofun⟩⟩
        | some out => exact hdelivers out rfl
      obtain ⟨jobs, hdone, hdelivered⟩ := hdelivered
      refine ⟨jobs :: parts, ?_, .cons hdelivered hparts⟩
      rw [hdone, hlog, List.flatten_cons, List.append_assoc]
  | @other calls s' s'' α p out _ huses hcall ih =>
      obtain ⟨parts, hlog, hparts⟩ := ih
      exact ⟨parts, (done_exec huses hcall).trans hlog, hparts⟩
  | booted _ ih => exact ih

def countAnswer (n : Nat) : Answer := if n < 65536 then ⟨.ok (), 0, putLE 2 n⟩ else ⟨.error .io, 0, []⟩

-- A bridge that has room for two bytes at a time.
def narrow : Memory bridge (Link (Worker sending)) :=
  busyWorker (v := sending) (fun frame => min 2 frame.sendData.length) countAnswer

theorem exec_narrow {α : Type} {p : Driver α} {value : α} {s s' : Link (Worker sending)}
    (h : solo narrow p s = some (value, s')) : Exec (alone (retrying sending)) s p (some value) s' := by
  refine exec_busyWorker (v := sending) (fun _ => Nat.min_le_right _ _) (fun n => ?_) h
  unfold countAnswer
  split
  next hlt =>
      refine .inl fun _ => ?_
      exact (getLE_putLE 2 n).trans (Nat.mod_eq_of_lt hlt)
  next => exact .inr nofun

def oneSend : List (Send × Option (Status × Option Nat)) :=
  [(⟨0, [1, 2, 3, 4, 5], 1000⟩, some (.ok (), some 5))]

def untouched : Link (Worker sending) := ⟨bootedCtx, ⟨true, none, [], none⟩⟩

-- Three frames, each of which is repeated once.
theorem sends_in_order_narrow :
    ∃ s, Sends board untouched oneSend s ∧
      ∃ parts, s.peer.done = parts.flatten ++ untouched.peer.done ∧ List.Forall₂ Delivered oneSend parts := by
  have hsolo : ((solo narrow (sockSend board 0 [1, 2, 3, 4, 5] 1000) untouched).map Prod.fst) =
      some (.ok (), some 5) := by decide +kernel
  obtain ⟨⟨out, s⟩, hone, rfl⟩ := Option.map_eq_some_iff.mp hsolo
  have hfresh : Unaliased untouched := fun _ n => nofun
  have hrun := Sends.send (s := untouched) ⟨0, [1, 2, 3, 4, 5], 1000⟩ .start hfresh (exec_narrow hone)
  exact ⟨s, hrun, sends_in_order hrun⟩

end Run

end AlpSdk.Cc3501e
