import AlpSdk.Cc3501e.UpdateCalls

-- The update session of the device, as the header of the calls documents it.
namespace AlpSdk.Cc3501e

open Library.Effect Library.Interleave Library.Bytes

-- The device's session, with the bytes it has accepted.
structure OtaSession where
  state : UInt8
  total : UInt32
  bytes : List UInt8

def OtaSession.closed : OtaSession := ⟨OTA_STATE_IDLE, 0, []⟩

-- The write cursor.
def OtaSession.cursor (x : OtaSession) : UInt32 := .ofNat x.bytes.length

-- A session that the device still opens anew for an image of this length: none that is WRITING,
-- or one for the same length with nothing written.
def OtaSession.Opens (x : OtaSession) (total : UInt32) : Prop :=
  x.state = OTA_STATE_WRITING → x.total = total ∧ x.bytes = []

def Frame.total (frame : Frame) : UInt32 := getLe32 0 frame.payload
def Frame.offset (frame : Frame) : UInt32 := getLe32 0 frame.payload
def Frame.chunk (frame : Frame) : List UInt8 := frame.payload.drop 4

-- What a frame that reaches the device does to the session and to the BEGIN that is queued, and the
-- device's verdict on it. A BEGIN is queued whether the verdict is OK or BUSY; until it is carried out
-- the device takes no chunk. A chunk that is refused, by BUSY for instance, leaves nothing. Both are in
-- RAM, so a reboot drops them.
inductive OtaSession.Does : OtaSession → Option UInt32 → Frame → OtaSession → Option UInt32 → Status → Prop where
  | queued {x : OtaSession} {q : Option UInt32} {frame : Frame} {verdict : Status}
      (hcmd : frame.cmd = .otaBegin) (hverdict : verdict = .ok () ∨ verdict = .error .busy) :
      Does x q frame x (some frame.total) verdict
  | written {x : OtaSession} {frame : Frame} (hcmd : frame.cmd = .otaWrite)
      (hstate : x.state = OTA_STATE_WRITING) (hoffset : frame.offset = x.cursor) :
      Does x none frame { x with bytes := x.bytes ++ frame.chunk } none (.ok ())
  | finished {x : OtaSession} {q : Option UInt32} {frame : Frame} {state : UInt8} {verdict : Status}
      (hcmd : frame.cmd = .otaFinish) (hstate : state = OTA_STATE_STAGED ∨ state = OTA_STATE_ERROR) :
      Does x q frame { x with state := state } q verdict
  | left {x : OtaSession} {q : Option UInt32} {frame : Frame} {verdict : Status}
      (hcmd : frame.cmd = .otaAbort ∨ frame.cmd = .otaUpdateMode ∨ frame.cmd = .otaPromote) :
      Does x q frame .closed none verdict
  | served {x : OtaSession} {q : Option UInt32} {frame : Frame} {verdict : Status}
      (hbegin : frame.cmd ≠ .otaBegin) (hwrite : frame.cmd ≠ .otaWrite) : Does x q frame x q verdict
  | refused {x : OtaSession} {q : Option UInt32} {frame : Frame} (err : AlpError) :
      Does x q frame x q (.error err)

-- The device: its session, the length of the image whose BEGIN is queued, its verdict on the frame of
-- the exchange, and what the session had accepted each time a FINISH was issued.
structure OtaDevice where
  session : OtaSession
  queued : Option UInt32
  verdict : Option Status
  handed : List (List UInt8)

def OtaDevice.Opens (d : OtaDevice) (total : UInt32) : Prop :=
  d.session.Opens total ∧ ∀ queued, d.queued = some queued → queued = total

-- What may have become of a queued BEGIN at the next frame boundary. It opens a session or fails, but
-- one that is WRITING stays as it is: the BEGIN is for another image and rejected, or it is for this
-- one and nothing is written yet.
inductive OtaDevice.Pumps : OtaDevice → OtaDevice → Prop where
  | waits (d : OtaDevice) : Pumps d d
  | opened (d : OtaDevice) (total : UInt32) (hqueued : d.queued = some total)
      (hstate : d.session.state ≠ OTA_STATE_WRITING) :
      Pumps d { d with session := ⟨OTA_STATE_WRITING, total, []⟩, queued := none }
  | failed (d : OtaDevice) (total : UInt32) (hqueued : d.queued = some total)
      (hstate : d.session.state ≠ OTA_STATE_WRITING) :
      Pumps d { d with session := { d.session with state := OTA_STATE_ERROR }, queued := none }
  | kept (d : OtaDevice) (total : UInt32) (hqueued : d.queued = some total)
      (hstate : d.session.state = OTA_STATE_WRITING) : Pumps d { d with queued := none }

-- The frame reaches the device or is lost.
def OtaDevice.Takes (d : OtaDevice) (frame : Frame) (d' : OtaDevice) : Prop :=
  (d'.verdict = none ∧ d'.session = d.session ∧ d'.queued = d.queued) ∨
    ∃ verdict, d'.verdict = some verdict ∧ d.session.Does d.queued frame d'.session d'.queued verdict

-- A status reply of the device.
structure OtaStatus.Tells (st : OtaStatus) (x : OtaSession) : Prop where
  state : st.state = x.state
  bytesWritten : st.bytesWritten = x.cursor
  totalLen : st.totalLen = x.total

-- An ack is the device's own answer to the frame of the exchange, and OTA_STATUS is truthful. Any
-- other reply may have been lost on the way.
structure OtaDevice.Truthful (d : OtaDevice) (frame : Frame) (answer : Answer) : Prop where
  acked : answer.status = .ok () → d.verdict = some (.ok ())
  status : answer.status = .ok () → frame.cmd = .otaStatus →
    (OtaStatus.decode (answer.data.take 16)).Tells d.session

def otaDevice : Env bridge OtaDevice := fun d cmd reply d' =>
  match cmd, reply with
  | .clock .requestHeader frame, _ =>
      ∃ d₀, d.Pumps d₀ ∧
        d'.handed = (if frame.cmd = .otaFinish then d₀.session.bytes :: d.handed else d.handed) ∧
          (d'.verdict = none ∧ d'.session = d₀.session ∧ d'.queued = d₀.queued
            ∨ frame.payload = [] ∧ d₀.Takes frame d')
  | .clock .requestPayload frame, _ => d'.handed = d.handed ∧ d.Takes frame d'
  | .collect frame, reply => d' = d ∧ ∀ answer, reply = .ok answer → d.Truthful frame answer
  | .write _ false, _ => d' = { d with session := .closed, queued := none, verdict := none }
  | _, _ => d' = d

section Steps

variable {x x' : OtaSession} {q q' : Option UInt32} {d d' d₀ : OtaDevice} {frame : Frame} {verdict : Status}
  {cmd : Cmd} {reply : bridge.Reply cmd} {total : UInt32}

theorem getLe32_putLE (value : UInt32) (rest : List UInt8) :
    getLe32 0 (putLE 4 value.toNat ++ rest) = value := by
  have hvalue := value.toNat_lt
  rw [getLe32, slice_head _ _ _ (length_putLE _ _), getLE_putLE, Nat.mod_eq_of_lt (by omega),
    UInt32.ofNat_toNat]

theorem total_begin (total : UInt32) (seq : UInt8) :
    (Frame.mk .otaBegin (putLE 4 total.toNat) seq).total = total :=
  getLe32_putLE total []

-- The session and the queue stay, or a frame that has reached the device moves them.
def OtaDevice.Moves (d : OtaDevice) (frame : Frame) (d' : OtaDevice) : Prop :=
  (d'.session = d.session ∧ d'.queued = d.queued) ∨
    ∃ verdict, d.session.Does d.queued frame d'.session d'.queued verdict

theorem moves_takes (h : d.Takes frame d') : d.Moves frame d' := by
  obtain ⟨-, hsame⟩ | ⟨verdict, -, hdoes⟩ := h
  · exact .inl hsame
  · exact .inr ⟨verdict, hdoes⟩

-- What a command can do to the session and the queue.
theorem session_step (he : otaDevice d cmd reply d') :
    (d'.session = d.session ∧ d'.queued = d.queued) ∨
    (∃ pin, cmd = .write pin false) ∧ d'.session = .closed ∧ d'.queued = none ∨
    ∃ transfer frame d₀, cmd = .clock transfer frame ∧ d.Pumps d₀ ∧ d₀.Moves frame d' := by
  have hsame (h : d' = d) : d'.session = d.session ∧ d'.queued = d.queued :=
    ⟨congrArg OtaDevice.session h, congrArg OtaDevice.queued h⟩
  cases cmd with
  | clock transfer frame =>
      cases transfer with
      | requestHeader =>
          obtain ⟨d₀, hpumps, -, ⟨-, hlost⟩ | ⟨-, htakes⟩⟩ := he
          · exact .inr (.inr ⟨_, frame, d₀, rfl, hpumps, .inl hlost⟩)
          · exact .inr (.inr ⟨_, frame, d₀, rfl, hpumps, moves_takes htakes⟩)
      | requestPayload => exact .inr (.inr ⟨_, frame, d, rfl, .waits d, moves_takes he.2⟩)
      | replyHeader => exact .inl (hsame he)
  | collect frame => exact .inl (hsame he.1)
  | write pin level =>
      cases level with
      | false =>
          exact .inr (.inl ⟨⟨pin, rfl⟩, congrArg OtaDevice.session he, congrArg OtaDevice.queued he⟩)
      | true => exact .inl (hsame he)
  | _ => exact .inl (hsame he)

-- Only the request of a FINISH is logged, with what the session has accepted.
theorem handed_step (he : otaDevice d cmd reply d') : d'.handed = d.handed ∨
    ∃ transfer frame d₀, cmd = .clock transfer frame ∧ frame.cmd = .otaFinish ∧ d.Pumps d₀ ∧
      d'.handed = d₀.session.bytes :: d.handed := by
  have hsame (h : d' = d) : d'.handed = d.handed := congrArg OtaDevice.handed h
  cases cmd with
  | clock transfer frame =>
      cases transfer with
      | requestHeader =>
          obtain ⟨d₀, hpumps, hhanded, -⟩ := he
          by_cases hfinish : frame.cmd = .otaFinish
          · exact .inr ⟨_, frame, d₀, rfl, hfinish, hpumps, hhanded.trans (if_pos hfinish)⟩
          · exact .inl (hhanded.trans (if_neg hfinish))
      | requestPayload => exact .inl he.1
      | replyHeader => exact .inl (hsame he)
  | collect frame => exact .inl (hsame he.1)
  | write pin level =>
      cases level with
      | false => exact .inl (Eq.trans (congrArg OtaDevice.handed he) rfl)
      | true => exact .inl (hsame he)
  | _ => exact .inl (hsame he)

theorem handed_kept (he : otaDevice d cmd reply d') (hcmd : cmd.Spares (· ≠ .otaFinish)) :
    d'.handed = d.handed := by
  obtain hsame | ⟨transfer, frame, d₀, rfl, hfinish, -⟩ := handed_step he
  · exact hsame
  · exact absurd hfinish hcmd

theorem OtaSession.opens_closed (total : UInt32) : OtaSession.closed.Opens total := nofun

theorem pumps_opens (hpumps : d.Pumps d₀) (hd : d.Opens total) : d₀.Opens total := by
  obtain ⟨hopens, hqueued⟩ := hd
  cases hpumps with
  | waits => exact ⟨hopens, hqueued⟩
  | opened total' hbegin hstate => exact ⟨fun _ => ⟨hqueued total' hbegin, rfl⟩, nofun⟩
  | failed total' hbegin hstate => exact ⟨nofun, nofun⟩
  | kept total' hbegin hstate => exact ⟨hopens, nofun⟩

theorem does_opens (hdoes : x.Does q frame x' q' verdict) (hwrite : frame.cmd ≠ .otaWrite)
    (htotal : frame.cmd = .otaBegin → frame.total = total) (hx : x.Opens total)
    (hq : ∀ queued, q = some queued → queued = total) :
    x'.Opens total ∧ ∀ queued, q' = some queued → queued = total := by
  cases hdoes with
  | queued hcmd hverdict =>
      refine ⟨hx, fun queued hsome => ?_⟩
      rw [← Option.some.inj hsome]
      exact htotal hcmd
  | written hcmd hstate hoffset => exact absurd hcmd hwrite
  | finished hcmd hstate =>
      refine ⟨fun hwriting => ?_, hq⟩
      obtain rfl | rfl := hstate
      · cases hwriting
      · cases hwriting
  | left hcmd => exact ⟨OtaSession.opens_closed total, nofun⟩
  | served hbegin hwrite => exact ⟨hx, hq⟩
  | refused err => exact ⟨hx, hq⟩

-- The commands after which a session still opens for an image of this length.
def Cmd.Opens (total : UInt32) : Cmd → Prop
  | .clock _ frame => frame.cmd ≠ .otaWrite ∧ (frame.cmd = .otaBegin → frame.total = total)
  | _ => True

theorem Cmd.Spares.opens {ops : Opcode → Prop} (total : UInt32) (hbegin : ¬ ops .otaBegin)
    (hwrite : ¬ ops .otaWrite) (h : cmd.Spares ops) : cmd.Opens total := by
  cases cmd with
  | clock transfer frame =>
      have hops : ops frame.cmd := h
      exact ⟨fun hcmd => hwrite (hcmd ▸ hops), fun hcmd => absurd (hcmd ▸ hops) hbegin⟩
  | _ => trivial

theorem opens_step (he : otaDevice d cmd reply d') (hcmd : cmd.Opens total) (hd : d.Opens total) :
    d'.Opens total := by
  obtain ⟨hsession, hqueued⟩ | ⟨-, hclosed, hqueued⟩ | ⟨transfer, frame, d₀, rfl, hpumps, hmoves⟩ :=
    session_step he
  · rwa [OtaDevice.Opens, hsession, hqueued]
  · rw [OtaDevice.Opens, hclosed, hqueued]
    exact ⟨OtaSession.opens_closed total, nofun⟩
  · obtain ⟨hopens, hq⟩ := pumps_opens hpumps hd
    obtain ⟨hsession, hqueued⟩ | ⟨verdict, hdoes⟩ := hmoves
    · rw [OtaDevice.Opens, hsession, hqueued]
      exact ⟨hopens, hq⟩
    · exact does_opens hdoes hcmd.1 hcmd.2 hopens hq

end Steps

section Status

variable {cfg : Config} {ops : Opcode → Prop} {J : Link OtaDevice → Prop}

-- A wait leaves the device alone.
theorem peer_waits {s s' : Link OtaDevice} {cmd : Cmd} {reply : bridge.Reply cmd} (hcmd : cmd.Waits)
    (he : alone otaDevice s cmd reply s') : s'.peer = s.peer := by
  have hpeer := he.2.2
  cases cmd with
  | clock transfer frame => exact hcmd.elim
  | collect frame => exact hcmd.elim
  | write pin level => exact hcmd.elim
  | _ => exact hpeer

theorem waited_peer {P : OtaDevice → Prop} (h : Waited (alone otaDevice) J) :
    Waited (alone otaDevice) fun s => J s ∧ P s.peer := by
  intro s cmd reply s' hcmd he hs
  rw [peer_waits hcmd he]
  exact ⟨h s cmd reply s' hcmd he hs.1, hs.2⟩

variable (h : Carried (alone otaDevice) cfg ops J) (hops : ops .otaStatus)

include h hops

theorem wp_otaStatus (timeoutMs : UInt32) {s : Link OtaDevice} (hs : J s) :
    wp (alone otaDevice) J (otaStatus cfg timeoutMs)
      (fun out s' => ∀ st, out = .ok st → st.Tells s'.peer.session) s := by
  have hpoll := h.wp_pollByRepeat (G := fun data s => (OtaStatus.decode data).Tells s.peer.session)
    .otaStatus hops [] 16
    (fun data => waited_peer (P := fun d => (OtaStatus.decode data).Tells d.session) h.waited)
    (fun seq s answer s' _ he hok => ?_) timeoutMs hs
  · refine wp_bind (wp_mono hpoll ?_)
    rintro ⟨st, reply⟩ s' hs' htells
    cases st with
    | error err => exact ⟨hs', nofun⟩
    | ok _ =>
        refine wp_ite (fun _ => ⟨hs', nofun⟩) fun _ => ⟨hs', ?_⟩
        rintro _ ⟨⟩
        exact htells rfl
  · obtain ⟨hsame, htruth⟩ := he.2.2
    rw [hsame]
    exact (htruth answer rfl).status hok rfl

-- The polls of the settlement see the state that they wait for.
theorem wp_settleLoop (want : UInt8) (pollMs : UInt32) (fuel : Nat) (waited : UInt32) {s : Link OtaDevice}
    (hs : J s) :
    wp (alone otaDevice) J (settleLoop cfg want pollMs fuel waited)
      (fun out s' => out = .ok () → s'.peer.session.state = want) s := by
  induction fuel generalizing waited s with
  | zero =>
      have hstall : Steady (alone otaDevice) J (perform Cmd.stall) := h.steady ⟨trivial, fun _ => trivial⟩
      exact hstall.wp_bind hs fun reply : Empty => reply.elim
  | succ fuel ih =>
      have hagain (s : Link OtaDevice) (hs : J s) : wp (alone otaDevice) J (do
          if OTA_BLACKOUT_WAIT_MS ≤ waited then pure (.error .timeout)
          else
            delay OTA_BLACKOUT_POLL_MS.toNat
            settleLoop cfg want pollMs fuel (waited + (OTA_BLACKOUT_POLL_MS + pollMs)))
          (fun out s' => out = .ok () → s'.peer.session.state = want) s :=
        wp_ite (fun _ => ⟨hs, nofun⟩) fun _ => (h.steady (waits_delay _)).wp_bind hs fun _ s hs => ih _ hs
      refine wp_bind (wp_mono (wp_otaStatus h hops pollMs hs) fun result s hs htells => ?_)
      cases result with
      | error err => exact hagain s hs
      | ok st =>
          refine wp_ite (fun hstate => ⟨hs, fun _ => ?_⟩) fun _ => wp_ite (fun _ => ⟨hs, nofun⟩)
            fun _ => hagain s hs
          exact (htells st rfl).state.symm.trans hstate

theorem wp_otaSettledAs (want : UInt8) (timeoutMs : UInt32) {s : Link OtaDevice} (hs : J s) :
    wp (alone otaDevice) J (otaSettledAs cfg want timeoutMs)
      (fun out s' => out = .ok () → s'.peer.session.state = want) s :=
  wp_settleLoop h hops want _ cfg.fuel 0 hs

-- The hold-off reads where the write cursor stands.
theorem wp_flushLoop (expect pollMs : UInt32) (fuel : Nat) (waited : UInt32) {s : Link OtaDevice}
    (hs : J s) :
    wp (alone otaDevice) J (flushLoop cfg expect pollMs fuel waited)
      (fun out s' => ∀ landed, out = .ok landed →
        (landed = true ↔ expect ≤ s'.peer.session.cursor)) s := by
  induction fuel generalizing waited s with
  | zero =>
      have hstall : Steady (alone otaDevice) J (perform Cmd.stall) := h.steady ⟨trivial, fun _ => trivial⟩
      exact hstall.wp_bind hs fun reply : Empty => reply.elim
  | succ fuel ih =>
      have hagain (s : Link OtaDevice) (hs : J s) : wp (alone otaDevice) J (do
          if OTA_FLUSH_WAIT_MS ≤ waited then pure (.error .timeout)
          else
            delay OTA_FLUSH_POLL_MS.toNat
            flushLoop cfg expect pollMs fuel (waited + (OTA_FLUSH_POLL_MS + pollMs)))
          (fun out s' => ∀ landed, out = .ok landed →
            (landed = true ↔ expect ≤ s'.peer.session.cursor)) s :=
        wp_ite (fun _ => ⟨hs, nofun⟩) fun _ => (h.steady (waits_delay _)).wp_bind hs fun _ s hs => ih _ hs
      refine wp_bind (wp_mono (wp_otaStatus h hops pollMs hs) fun result s hs htells => ?_)
      cases result with
      | error err => exact hagain s hs
      | ok fs =>
          refine wp_ite (fun _ => wp_ite (fun _ => ⟨hs, ?_⟩) fun _ => ⟨hs, nofun⟩) fun _ => hagain s hs
          rintro _ ⟨⟩
          rw [decide_eq_true_iff, (htells fs rfl).bytesWritten]

theorem wp_chunkTaken (expect timeoutMs : UInt32) {s : Link OtaDevice} (hs : J s) :
    wp (alone otaDevice) J (chunkTaken cfg expect timeoutMs)
      (fun taken s' => taken = true → s'.peer.session.cursor = expect) s := by
  refine wp_bind (wp_mono (wp_otaStatus h hops timeoutMs hs) fun result s hs htells => ?_)
  cases result with
  | error err => exact ⟨hs, nofun⟩
  | ok st =>
      refine ⟨hs, fun htaken => ?_⟩
      rw [← (htells st rfl).bytesWritten]
      exact (of_decide_eq_true htaken).2

end Status

end AlpSdk.Cc3501e
