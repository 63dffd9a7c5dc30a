import AlpSdk.Cc3501e.Alone

-- The bytes that SOCK_RECV hands to the caller, over lost requests and replies.
namespace AlpSdk.Cc3501e

open Library.Effect Library.Interleave Library.Bytes

-- The receive side of the bridge for the one socket in use: the (seq, handle) of the dispatch
-- before, how much of the stream is committed, how much was served last, and the reply it has
-- for the exchange under way. A reset ends the socket.
structure Receiver where
  live : Bool
  last : Option (UInt8 × Nat)
  position : Nat
  served : Nat
  armed : Option Answer

def Frame.recvKey (frame : Frame) : UInt8 × Nat := (frame.seq, getLe16 0 frame.payload)

def Frame.maxLen (frame : Frame) : Nat := getLe16 2 frame.payload

namespace Receiver

def closed : Receiver := ⟨false, none, 0, 0, none⟩

-- Where in the stream a request is served from: what was served last is committed unless the
-- request repeats the one before.
def start (r : Receiver) (key : UInt8 × Nat) : Nat :=
  if r.last = some key then r.position else r.position + r.served

-- A replay serves at least the bytes it served before, as far as they still fit.
def least (r : Receiver) (frame : Frame) : Nat :=
  if r.last = some frame.recvKey then min r.served frame.maxLen else 0

def dispatch (r : Receiver) (frame : Frame) (n : Nat) (answer : Answer) : Receiver :=
  { r with
    last := some frame.recvKey
    position := r.start frame.recvKey
    served := n
    armed := some answer }

end Receiver

-- The sender's address, data_len, two reserved bytes and then the data. Behind them stands what the
-- frame layer hands over with them: zero padding, and on MAJOR 4 the CRC trailer.
def Carries (stream : Nat → UInt8) (start n : Nat) (data : List UInt8) : Prop :=
  ∃ sender reserved rest : List UInt8, sender.length = 20 ∧ reserved.length = 2 ∧
    data = sender ++ (putLE 2 n ++ (reserved ++ (load start n stream ++ rest)))

-- What becomes of a SOCK_RECV request.
inductive Receiver.Takes (stream : Nat → UInt8) (frame : Frame) : Receiver → Receiver → Prop where
  | lost (r : Receiver) : Takes stream frame r { r with armed := none }
  | refused (r : Receiver) (answer : Answer) (hstatus : answer.status ≠ .ok ()) :
      Takes stream frame r { r with armed := some answer }
  -- the reply carries what was served, or else is no reply that the host can use
  | served (r : Receiver) (n : Nat) (answer : Answer) (hlive : r.live = true)
      (hleast : r.least frame ≤ n) (hmost : n ≤ frame.maxLen)
      (hanswer : Carries stream (r.start frame.recvKey) n answer.data ∨ answer.status ≠ .ok () ∨
        answer.data.length < SOCK_RECV_RESP_HDR) :
      Takes stream frame r (r.dispatch frame n answer)

-- The bridge. Every transfer and every reply may fail on the host's side, whatever the bridge
-- made of it.
def serving (stream : Nat → UInt8) : Env bridge Receiver
  | r, .clock transfer frame, _, r' =>
      if transfer = .requestPayload ∧ frame.cmd = .sockRecv then r.Takes stream frame r' else r' = r
  | r, .collect frame, reply, r' =>
      r' = r ∧ (frame.cmd = .sockRecv → ∀ answer, reply = .ok answer → r.armed = some answer)
  | _, .write _ false, _, r' => r' = .closed
  | r, _, _, r' => r' = r

-- The bytes of a call that returned ALP_OK.
def okBytes : Status × List UInt8 → List UInt8
  | (.ok (), bytes) => bytes
  | (.error _, _) => []

-- One call after another on one handle, with the bytes of all of them.
inductive Receives (cfg : Config) (stream : Nat → UInt8) (handle : UInt16) (s : Link Receiver) :
    List UInt8 → Link Receiver → Prop where
  | start : Receives cfg stream handle s [] s
  | call {bytes : List UInt8} {s' s'' : Link Receiver} {out : Status × List UInt8} (cap : Nat)
      (timeoutMs : UInt32) (hbefore : Receives cfg stream handle s bytes s')
      (hcall : Exec (alone (serving stream)) s' (sockRecv cfg handle cap timeoutMs) (some out) s'') :
      Receives cfg stream handle s (bytes ++ okBytes out) s''

namespace Receiver

theorem start_dispatch (r : Receiver) (frame : Frame) (n : Nat) (answer : Answer) :
    (r.dispatch frame n answer).start frame.recvKey = r.start frame.recvKey := by
  simp [dispatch, start]

end Receiver

-- The seq of the next request.
def candidateSeq (seq : UInt8) : UInt8 := if REQ_SEQ_LAST ≤ seq then 1 else seq + 1

theorem candidateSeq_ne (seq : UInt8) : candidateSeq seq ≠ seq := by
  have hlt := seq.toNat_lt
  unfold candidateSeq
  split
  next h =>
      intro heq
      rw [← heq] at h
      exact absurd h (by decide)
  next h =>
      intro heq
      have hnat := congrArg UInt8.toNat heq
      rw [UInt8.toNat_add] at hnat
      have hone : (1 : UInt8).toNat = 1 := rfl
      omega

def recvKeyOf (seq : UInt8) (handle : UInt16) : UInt8 × Nat := (candidateSeq seq, (handleWire handle).toNat)

theorem recvKeyOf_candidate_ne (seq : UInt8) (handle : UInt16) :
    recvKeyOf (candidateSeq seq) handle ≠ recvKeyOf seq handle :=
  fun h => candidateSeq_ne _ (congrArg Prod.fst h)

-- The request of a call: the handle and the number of bytes asked for.
def recvFrame (seq : UInt8) (handle : UInt16) (want : Nat) : Frame :=
  ⟨.sockRecv, handleBytes handle ++ putLE 2 want, candidateSeq seq⟩

theorem recvKey_recvFrame (seq : UInt8) (handle : UInt16) (want : Nat) :
    (recvFrame seq handle want).recvKey = recvKeyOf seq handle := by
  have hslice : slice 0 2 (putLE 2 (handleWire handle).toNat ++ putLE 2 want) =
      putLE 2 (handleWire handle).toNat := slice_head 2 _ _ (by simp)
  have hlt := (handleWire handle).toNat_lt
  simp only [Frame.recvKey, recvFrame, recvKeyOf, getLe16, handleBytes, hslice, getLE_putLE]
  rw [Nat.mod_eq_of_lt (by omega)]

theorem maxLen_recvFrame (seq : UInt8) (handle : UInt16) {want : Nat} (hwant : want < 65536) :
    (recvFrame seq handle want).maxLen = want := by
  have hslice : slice 2 2 (handleBytes handle ++ putLE 2 want) = putLE 2 want := by
    rw [slice_skip _ _ _ _ (by simp [handleBytes])]
    have h := slice_head 2 (putLE 2 want) [] (by simp)
    simpa [handleBytes] using h
  simp only [Frame.maxLen, recvFrame, getLe16, hslice, getLE_putLE]
  exact Nat.mod_eq_of_lt hwant

theorem sockRecvSeq_after {ctx : Ctx} {cmd : Cmd} (reply : bridge.Reply cmd) (h : cmd.Upkeep) :
    (ctx.after cmd reply).sockRecvSeq = ctx.sockRecvSeq := by
  cases cmd with
  | set f v =>
      cases f with
      | sockRecvSeq => exact absurd h (by simp [Cmd.Upkeep, Field.upkeep])
      | _ => rfl
  | claim flag => cases flag <;> rfl
  | _ => rfl

-- The receiver does not move with the upkeep of the link, unless it is reset.
theorem serving_upkeep {stream : Nat → UInt8} {r r' : Receiver} {cmd : Cmd} {reply : bridge.Reply cmd}
    (hcmd : cmd.Upkeep) (henv : serving stream r cmd reply r') : r' = r ∨ r' = .closed := by
  cases cmd with
  | clock transfer frame =>
      have hne : ¬ (transfer = .requestPayload ∧ frame.cmd = .sockRecv) := by
        rintro ⟨-, hrecv⟩
        rw [Cmd.Upkeep, hrecv] at hcmd
        exact absurd hcmd (by decide)
      exact .inl (by simpa [serving, hne] using henv)
  | collect frame => exact .inl henv.1
  | write pin level =>
      cases level with
      | true => exact .inl henv
      | false => exact .inr henv
  | _ => exact .inl henv

-- A call with `seq` as the last seq committed, and `accepted` bytes of the stream returned: the
-- next request is served from there.
structure Continues (seq : UInt8) (handle : UInt16) (accepted : Nat) (s : Link Receiver) : Prop where
  committed : s.ctx.sockRecvSeq = seq
  start : s.peer.live = true → s.peer.start (recvKeyOf seq handle) = accepted

-- What the bridge has served of the stream in reply to a request, as long as it is up.
def Served (key : UInt8 × Nat) (accepted n : Nat) (r : Receiver) : Prop :=
  r.live = true → r.last = some key ∧ r.position = accepted ∧ r.served = n

-- What a reply that ends a call with ALP_OK says.
def Usable (stream : Nat → UInt8) (key : UInt8 × Nat) (accepted want : Nat) (data : List UInt8)
    (r : Receiver) : Prop :=
  SOCK_RECV_RESP_HDR ≤ data.length →
    ∃ n, n ≤ want ∧ Carries stream accepted n data ∧ Served key accepted n r

section Call

variable {stream : Nat → UInt8} {seq : UInt8} {handle : UInt16} {accepted : Nat}

theorem upkept_receiver {P : Receiver → Prop} (hclosed : P .closed) :
    Upkept (alone (serving stream)) fun s => P s.peer := by
  rintro s cmd reply s' hcmd ⟨-, -, hpeer⟩ hs
  obtain heq | heq := serving_upkeep hcmd hpeer
  · rw [heq]
    exact hs
  · rw [heq]
    exact hclosed

theorem upkept_continues : Upkept (alone (serving stream)) (Continues seq handle accepted) := by
  intro s cmd reply s' hcmd henv hs
  have hseq : s'.ctx.sockRecvSeq = s.ctx.sockRecvSeq := by
    rw [henv.2.1]
    exact sockRecvSeq_after reply hcmd
  exact ⟨hseq.trans hs.committed, upkept_receiver
    (P := fun r => r.live = true → r.start (recvKeyOf seq handle) = accepted) nofun s cmd reply s' hcmd
    henv hs.start⟩

-- The reply that ends a call with ALP_OK, which stands in `sock_buf`.
structure Held (stream : Nat → UInt8) (key : UInt8 × Nat) (accepted want : Nat) (data : List UInt8)
    (s : Link Receiver) : Prop where
  usable : Usable stream key accepted want data s.peer
  buffer : s.ctx.sockBuf.take data.length = data

theorem upkept_held {key : UInt8 × Nat} {want : Nat} (data : List UInt8) :
    Upkept (alone (serving stream)) fun s =>
      Continues seq handle accepted s ∧ Held stream key accepted want data s := by
  rintro s cmd reply s' hcmd henv ⟨hs, husable, hbuffer⟩
  refine ⟨upkept_continues s cmd reply s' hcmd henv hs, fun hlong => ?_, ?_⟩
  · obtain ⟨n, hn, hcarries, hserved⟩ := husable hlong
    exact ⟨n, hn, hcarries, upkept_receiver (P := Served key accepted n) nofun s cmd reply s' hcmd
      henv hserved⟩
  · rw [henv.2.1, upkeep_sockBuf reply hcmd]
    exact hbuffer

-- The request is through: what the bridge has for the host is a chunk from the right place, or
-- nothing that ends the call with ALP_OK.
structure Armed (stream : Nat → UInt8) (seq : UInt8) (handle : UInt16) (accepted want : Nat)
    (s : Link Receiver) : Prop where
  continues : Continues seq handle accepted s
  answer : ∀ answer, s.peer.armed = some answer → answer.status = .ok () →
    Usable stream (recvKeyOf seq handle) accepted want answer.data s.peer

theorem armed_takes {want : Nat} (hwant : want < 65536) {s s' : Link Receiver}
    (hs : Continues seq handle accepted s) (hctx : s'.ctx = s.ctx)
    (htakes : s.peer.Takes stream (recvFrame seq handle want) s'.peer) :
    Armed stream seq handle accepted want s' := by
  have hseq : s'.ctx.sockRecvSeq = seq := by
    rw [hctx]
    exact hs.committed
  obtain ⟨ctx, r⟩ := s
  obtain ⟨ctx', r'⟩ := s'
  cases htakes with
  | lost => exact ⟨⟨hseq, hs.start⟩, nofun⟩
  | refused answer hstatus =>
      refine ⟨⟨hseq, hs.start⟩, fun answer' harmed hok => ?_⟩
      obtain rfl := Option.some.inj harmed
      exact absurd hok hstatus
  | served n answer hlive hleast hmost hanswer =>
      have hstart := hs.start hlive
      rw [← recvKey_recvFrame seq handle want] at hstart
      rw [maxLen_recvFrame seq handle hwant] at hmost
      refine ⟨⟨hseq, fun _ => ?_⟩, fun answer' harmed hok hlong => ?_⟩
      · rw [← recvKey_recvFrame seq handle want]
        exact (r.start_dispatch _ n answer).trans hstart
      · obtain rfl := Option.some.inj harmed
        obtain hcarries | hstatus | hshort := hanswer
        · rw [hstart] at hcarries
          refine ⟨n, hmost, hcarries, fun _ => ⟨?_, hstart, rfl⟩⟩
          rw [← recvKey_recvFrame seq handle want]
        · exact absurd hok hstatus
        · exact absurd hlong (Nat.not_le.mpr hshort)

theorem continues_of_peer {s s' : Link Receiver} (hs : Continues seq handle accepted s)
    (hctx : s'.ctx = s.ctx) (hpeer : s'.peer = s.peer) : Continues seq handle accepted s' := by
  obtain ⟨ctx, r⟩ := s
  obtain ⟨ctx', r'⟩ := s'
  obtain rfl : ctx' = ctx := hctx
  obtain rfl : r' = r := hpeer
  exact hs

-- Whatever the buffer cuts off stands behind the data.
theorem carries_take {start n len : Nat} {data : List UInt8} (hlen : SOCK_RECV_RESP_HDR + n ≤ len)
    (h : Carries stream start n data) : Carries stream start n (data.take len) := by
  obtain ⟨sender, reserved, rest, hsender, hreserved, rfl⟩ := h
  have hused : (sender ++ (putLE 2 n ++ (reserved ++ load start n stream))).length = SOCK_RECV_RESP_HDR + n := by
    simp only [List.length_append, length_putLE, length_load, hsender, hreserved, SOCK_RECV_RESP_HDR]
    omega
  refine ⟨sender, reserved, rest.take (len - (SOCK_RECV_RESP_HDR + n)), hsender, hreserved, ?_⟩
  simp only [← List.append_assoc] at hused ⊢
  rw [List.take_append, hused, List.take_of_length_le (by omega)]

-- A reply with as much data as was asked for fits the buffer.
theorem usable_take {key : UInt8 × Nat} {want : Nat} {data : List UInt8} {r : Receiver}
    (hwant : want + SOCK_RECV_RESP_HDR ≤ MAX_PAYLOAD) (h : Usable stream key accepted want data r) :
    Usable stream key accepted want (data.take MAX_PAYLOAD) r := by
  intro hlong
  rw [List.length_take] at hlong
  obtain ⟨n, hn, hcarries, hserved⟩ := h (hlong.trans (Nat.min_le_right _ _))
  exact ⟨n, hn, carries_take (by omega) hcarries, hserved⟩

theorem wp_recvExchange {want : Nat} (hwant : want + SOCK_RECV_RESP_HDR ≤ MAX_PAYLOAD) {s : Link Receiver}
    (hs : Continues seq handle accepted s) :
    wp (alone (serving stream)) (Continues seq handle accepted)
      (requestLocked (recvFrame seq handle want) MAX_PAYLOAD)
      (fun answer s' => answer.status = .ok () →
        Usable stream (recvKeyOf seq handle) accepted want answer.data s'.peer) s := by
  have hwide : want < 65536 := by
    simp only [MAX_PAYLOAD] at hwant
    omega
  refine wp_requestLocked (A := Armed stream seq handle accepted want)
    (G := fun data s => Usable stream (recvKeyOf seq handle) accepted want data s.peer) upkept_continues.waited
    (fun _ h => h.continues) ?_ ?_ ?_ ?_ ?_ hs
  · simp [recvFrame, handleBytes, putLE]
  · rintro s err s' hs ⟨-, hctx, hpeer⟩
    exact continues_of_peer hs hctx hpeer
  · rintro s err s' hs ⟨-, hctx, hpeer⟩
    exact armed_takes hwide hs hctx hpeer
  · rintro s err s' hs ⟨-, hctx, hpeer⟩
    refine ⟨continues_of_peer hs.continues hctx hpeer, ?_⟩
    rw [show s'.peer = s.peer from hpeer]
    exact hs.answer
  · rintro s reply s' hs ⟨-, hctx, hpeer, harmed⟩
    refine ⟨continues_of_peer hs.continues hctx hpeer, ?_⟩
    rw [hpeer]
    rintro answer rfl hok
    exact usable_take hwant (hs.answer answer (harmed rfl answer rfl) hok)

-- The reply of an attempt is copied into the buffer.
theorem wp_recvAttempt {want : Nat} (hwant : want + SOCK_RECV_RESP_HDR ≤ MAX_PAYLOAD) {s : Link Receiver}
    (hs : Continues seq handle accepted s) :
    wp (alone (serving stream)) (Continues seq handle accepted)
      (requestInto (recvFrame seq handle want) MAX_PAYLOAD)
      (fun answer s' => Ended (Held stream (recvKeyOf seq handle) accepted want) (Continues seq handle accepted)
        (answer.status, answer.data) s') s := by
  refine wp_bind (wp_mono (wp_recvExchange hwant hs) fun answer s hs husable => ?_)
  cases hempty : answer.data.isEmpty with
  | true =>
      have hnil : answer.data = [] := List.isEmpty_iff.mp hempty
      refine ⟨hs, fun hok => ⟨husable hok, ?_⟩, fun _ => hs⟩
      rw [hnil]
      rfl
  | false =>
      refine ⟨hs, ?_⟩
      rintro _ ⟨ctx', r'⟩ ⟨-, hctx, hpeer⟩
      obtain rfl : r' = s.peer := hpeer
      have hs' : Continues seq handle accepted ⟨ctx', s.peer⟩ := by
        refine ⟨?_, hs.start⟩
        rw [show ctx' = _ from hctx]
        exact hs.committed
      refine ⟨hs', fun hok => ⟨husable hok, ?_⟩, fun _ => hs'⟩
      rw [show ctx' = _ from hctx]
      exact List.take_left

-- Of a reply that the call accepts it hands over what the header says and nothing behind it.
theorem received_of_carries {n cap : Nat} {data : List UInt8} (h : Carries stream accepted n data)
    (hn : n < 65536) (hcap : n ≤ cap) :
    (slice SOCK_RECV_RESP_HDR (getLe16 20 data) data).take cap = load accepted n stream := by
  obtain ⟨sender, reserved, rest, hsender, hreserved, rfl⟩ := h
  have hlen : getLe16 20 (sender ++ (putLE 2 n ++ (reserved ++ (load accepted n stream ++ rest)))) = n := by
    rw [getLe16, slice_skip _ _ _ _ (by omega), hsender, slice_head _ _ _ (by simp), getLE_putLE]
    exact Nat.mod_eq_of_lt hn
  have hslice : slice SOCK_RECV_RESP_HDR n
      (sender ++ (putLE 2 n ++ (reserved ++ (load accepted n stream ++ rest)))) = load accepted n stream := by
    simp only [SOCK_RECV_RESP_HDR]
    rw [slice_skip _ _ _ _ (by omega), slice_skip _ _ _ _ (by simp; omega)]
    rw [slice_skip _ _ _ _ (by simp; omega)]
    have hhead := slice_head n (load accepted n stream) rest (length_load _ _ _)
    simpa [hsender, hreserved] using hhead
  rw [hlen, hslice]
  exact List.take_of_length_le (by rw [length_load]; exact hcap)

theorem continues_committed {n : Nat} {s : Link Receiver}
    (hserved : Served (recvKeyOf seq handle) accepted n s.peer) :
    Continues (candidateSeq seq) handle (accepted + n)
      { s with ctx := s.ctx.set .sockRecvSeq (candidateSeq seq) } := by
  refine ⟨rfl, fun hlive => ?_⟩
  obtain ⟨hlast, hposition, hcount⟩ := hserved hlive
  have hne : s.peer.last ≠ some (recvKeyOf (candidateSeq seq) handle) := by
    rw [hlast]
    exact fun h => recvKeyOf_candidate_ne seq handle (Option.some.inj h).symm
  dsimp only
  rw [Receiver.start, if_neg hne, hposition, hcount]

-- What a call leaves behind: it has returned the next bytes of the stream, if any.
def Advances (stream : Nat → UInt8) (handle : UInt16) (accepted : Nat) (out : Status × List UInt8)
    (s : Link Receiver) : Prop :=
  ∃ seq n, okBytes out = load accepted n stream ∧ Continues seq handle (accepted + n) s

theorem upkept_advances (out : Status × List UInt8) :
    Upkept (alone (serving stream)) (Advances stream handle accepted out) := by
  rintro s cmd reply s' hcmd henv ⟨seq, n, hbytes, hs⟩
  exact ⟨seq, n, hbytes, upkept_continues s cmd reply s' hcmd henv hs⟩

theorem advances_error (err : AlpError) {s : Link Receiver} (hs : Continues seq handle accepted s) :
    Advances stream handle accepted (.error err, []) s :=
  ⟨seq, 0, rfl, hs⟩

theorem wp_sockRecv (cfg : Config) (cap : Nat) (timeoutMs : UInt32) {s : Link Receiver}
    (hs : Continues seq handle accepted s) :
    wp (alone (serving stream)) (fun _ => True) (sockRecv cfg handle cap timeoutMs)
      (Advances stream handle accepted) s := by
  have hJ : Upkept (alone (serving stream)) (Continues seq handle accepted) := upkept_continues
  refine wp_socketCall hJ (fun _ _ => trivial) upkept_advances (fun _ _ _ => trivial)
    (fun s hs => advances_error _ hs) (fun s hs => ?_) hs
  refine wp_keeping_bind hJ (fun _ _ => trivial) (upkeep_get _) hs fun busy s hs => ?_
  cases busy with
  | true => exact ⟨trivial, advances_error _ hs⟩
  | false =>
      refine wp_keeping_bind hJ (fun _ _ => trivial) (upkeep_set rfl _) hs fun _ s hs => ?_
      refine ⟨trivial, fun last s' hread => ?_⟩
      obtain rfl : last = seq := Eq.trans hread.1 hs.committed
      replace hs := hJ s (.get .sockRecvSeq) last s' trivial hread hs
      let want := min cap (MAX_PAYLOAD - SOCK_RECV_RESP_HDR - 1)
      have hwant : want + SOCK_RECV_RESP_HDR ≤ MAX_PAYLOAD := by
        simp only [want, MAX_PAYLOAD, SOCK_RECV_RESP_HDR]
        omega
      have hpoll := wp_pollAttempts cfg (G := Held stream (recvKeyOf last handle) accepted want) hJ.waited
        (fun _ h => h) (exits_upkept cfg hJ) (fun data => (upkept_held data).waited)
        (fun s hs => wp_recvAttempt hwant hs) (recvFrame last handle want).payload.length timeoutMs (some handle)
        hs
      refine wp_bind (p := pollAttempts cfg _ (requestInto (recvFrame last handle want) MAX_PAYLOAD) timeoutMs
        (some handle)) (wp_mono (wp_relax hpoll fun _ _ => trivial) ?_)
      rintro ⟨status, data⟩ s - ⟨hs, hended⟩
      cases status with
      | error err =>
          refine wp_keeping_bind hJ (fun _ _ => trivial) (upkeep_set rfl _) hs fun _ s hs => ?_
          exact ⟨trivial, advances_error err hs⟩
      | ok _ =>
          have hheld := hended.ok rfl
          refine wp_keeping_bind (upkept_held data) (fun _ _ => trivial) (upkeep_set rfl _) ⟨hs, hheld⟩ ?_
          rintro _ s ⟨hs, husable, hbuffer⟩
          dsimp only
          by_cases hshort : data.length < SOCK_RECV_RESP_HDR
          · rw [if_pos hshort]
            exact ⟨trivial, advances_error _ hs⟩
          rw [if_neg hshort]
          have hread : ∀ (buf : List UInt8) (s' : Link Receiver),
              alone (serving stream) s (.get .sockBuf) buf s' → s' = s ∧ buf.take data.length = data := by
            rintro buf ⟨ctx, r⟩ ⟨hbuf, hctx, hpeer⟩
            obtain rfl : ctx = s.ctx := hctx
            obtain rfl : r = s.peer := hpeer
            exact ⟨rfl, (congrArg (List.take data.length) hbuf).trans hbuffer⟩
          refine wp_staged_bind hread ?_
          obtain ⟨n, hn, hcarries, hserved⟩ := husable (Nat.not_lt.mp hshort)
          have hcap := hn.trans (Nat.min_le_left _ _)
          have hwide : n < 65536 := by
            have hmax := hn.trans (Nat.min_le_right _ _)
            simp only [MAX_PAYLOAD, SOCK_RECV_RESP_HDR] at hmax
            omega
          refine ⟨trivial, ?_⟩
          rintro _ s'' ⟨-, hctx, hpeer⟩
          refine ⟨trivial, candidateSeq last, n, received_of_carries hcarries hwide hcap, ?_⟩
          have hdone := continues_committed hserved
          exact continues_of_peer hdone hctx hpeer

end Call

section Run

variable {cfg : Config} {stream : Nat → UInt8} {handle : UInt16}

theorem receives_continues {s s' : Link Receiver} {bytes : List UInt8}
    (hrun : Receives cfg stream handle s bytes s') {seq : UInt8} (hs : Continues seq handle 0 s) :
    ∃ seq' n, bytes = load 0 n stream ∧ Continues seq' handle n s' := by
  induction hrun with
  | start => exact ⟨seq, 0, rfl, hs⟩
  | call cap timeoutMs _ hcall ih =>
      obtain ⟨seq, n, hbytes, hs⟩ := ih
      obtain ⟨seq', m, hout, hs'⟩ := (wp_sound hcall (wp_sockRecv cfg cap timeoutMs hs)).2 _ rfl
      refine ⟨seq', n + m, ?_, hs'⟩
      have happend := load_append 0 n m stream
      rw [Nat.zero_add] at happend
      rw [hbytes, hout, happend]

-- Before the first SOCK_RECV.
structure Receiver.Unread (r : Receiver) : Prop where
  last : r.last = none
  position : r.position = 0
  served : r.served = 0

-- The bytes of the calls that returned ALP_OK are the stream from its beginning.
theorem received_in_order {s s' : Link Receiver} {bytes : List UInt8} (hs : s.peer.Unread)
    (hrun : Receives cfg stream handle s bytes s') : ∃ n, bytes = load 0 n stream := by
  have hstart : Continues s.ctx.sockRecvSeq handle 0 s := by
    refine ⟨rfl, fun _ => ?_⟩
    simp only [Receiver.start, hs.last, hs.position, hs.served]
    rfl
  obtain ⟨-, n, hbytes, -⟩ := receives_continues hrun hstart
  exact ⟨n, hbytes⟩

-- A bridge that loses its reply to every request but a replay, which finds one byte more. Two bytes
-- of padding and a CRC stand behind the data.
def forgetfulCount (r : Receiver) (frame : Frame) : Nat := if r.last = some frame.recvKey then 2 else 1

def forgetfulAnswer (stream : Nat → UInt8) (r : Receiver) (frame : Frame) (n : Nat) : Answer :=
  let data := load (r.start frame.recvKey) n stream
  ⟨.ok (), 0, List.replicate 20 0 ++ (putLE 2 n ++ ([0, 0] ++ (data ++ [0, 0, 0x5A, 0xC3])))⟩

def forgetfulMove (stream : Nat → UInt8) (r : Receiver) : Cmd → Receiver
  | .clock .requestPayload frame =>
      let n := forgetfulCount r frame
      if frame.cmd ≠ .sockRecv then r
      else if r.live = true ∧ r.least frame ≤ n ∧ n ≤ frame.maxLen then
        r.dispatch frame n (forgetfulAnswer stream r frame n)
      else { r with armed := none }
  | .write _ false => .closed
  | _ => r

def forgetful (stream : Nat → UInt8) : Memory bridge (Link Receiver) :=
  Link.memory (fun r _ => if r.served = 1 then .error .io else r.armed.elim (.error .io) .ok)
    (forgetfulMove stream)

theorem takes_forgetful (r : Receiver) {frame : Frame} (hrecv : frame.cmd = .sockRecv) :
    r.Takes stream frame (forgetfulMove stream r (.clock .requestPayload frame)) := by
  dsimp only [forgetfulMove]
  rw [if_neg (not_not.mpr hrecv)]
  by_cases h : r.live = true ∧ r.least frame ≤ forgetfulCount r frame ∧ forgetfulCount r frame ≤ frame.maxLen
  · rw [if_pos h]
    exact .served r _ _ h.1 h.2.1 h.2.2 (.inl ⟨List.replicate 20 0, [0, 0], [0, 0, 0x5A, 0xC3], rfl, rfl, rfl⟩)
  · rw [if_neg h]
    exact .lost r

theorem exec_forgetful {α : Type} {p : Driver α} {s s' : Link Receiver} {value : α}
    (h : solo (forgetful stream) p s = some (value, s')) :
    Exec (alone (serving stream)) s p (some value) s' := by
  refine exec_memory (fun ctx r cmd reply hreply => ?_) h
  cases cmd with
  | clock transfer frame =>
      by_cases hrecv : transfer = .requestPayload ∧ frame.cmd = .sockRecv
      · obtain ⟨rfl, hrecv⟩ := hrecv
        simpa [serving, hrecv] using takes_forgetful r hrecv
      · cases transfer <;> simp_all [serving, forgetfulMove]
  | collect frame =>
      refine ⟨rfl, fun _ answer hanswer => ?_⟩
      rw [hanswer] at hreply
      simp only [Shared.answer, Option.some.injEq] at hreply
      cases harmed : r.armed with
      | none => simp [harmed] at hreply
      | some armed =>
          rw [harmed] at hreply
          split at hreply
          · cases hreply
          · cases hreply
            rfl
  | write pin level => cases level <;> rfl
  | _ => rfl

-- The replies to the first requests of both calls are lost.
theorem received_in_order_retried :
    ∃ s, Receives board (fun i => UInt8.ofNat (7 + i)) 0 ⟨bootedCtx, ⟨true, none, 0, 0, none⟩⟩ [7, 8, 9, 10] s ∧
      ∃ n, [7, 8, 9, 10] = load 0 n fun i => UInt8.ofNat (7 + i) := by
  have hfirst : ((solo (forgetful fun i => UInt8.ofNat (7 + i)) (sockRecv board 0 5 1000)
      ⟨bootedCtx, ⟨true, none, 0, 0, none⟩⟩).map Prod.fst) = some (.ok (), [7, 8]) := by decide +kernel
  have hsecond : (((solo (forgetful fun i => UInt8.ofNat (7 + i)) (sockRecv board 0 5 1000)
      ⟨bootedCtx, ⟨true, none, 0, 0, none⟩⟩).bind fun out =>
        solo (forgetful fun i => UInt8.ofNat (7 + i)) (sockRecv board 0 2 1000) out.2).map Prod.fst) =
      some (.ok (), [9, 10]) := by decide +kernel
  obtain ⟨⟨out, s⟩, hone, rfl⟩ := Option.map_eq_some_iff.mp hfirst
  rw [hone] at hsecond
  obtain ⟨⟨out', s'⟩, htwo, rfl⟩ := Option.map_eq_some_iff.mp hsecond
  have hrun := Receives.call 2 1000 (Receives.call 5 1000 .start (exec_forgetful hone)) (exec_forgetful htwo)
  exact ⟨s', hrun, received_in_order ⟨rfl, rfl, rfl⟩ hrun⟩

end Run

end AlpSdk.Cc3501e
