import AlpSdk.Cc3501e.OtaDevice

-- What the begin of an update opens, and the image that it hands over.
namespace AlpSdk.Cc3501e

open Library.Effect Library.Interleave Library.Bytes

-- A begin that returns ALP_OK has opened the session it was called for.
def BeginSound (x : OtaSession) (total : UInt32) : Prop :=
  ∀ (cfg : Config) (ctx : Ctx) (timeoutMs : UInt32) (s' : Link OtaDevice),
    Exec (alone otaDevice) ⟨ctx, ⟨x, none, none, []⟩⟩ (otaBegin cfg total timeoutMs) (some (.ok ())) s' →
      s'.peer.session = ⟨OTA_STATE_WRITING, total, []⟩

-- Whenever an update issues a FINISH, the session has accepted the image and nothing else.
def UpdateSound (x : OtaSession) (image : List UInt8) : Prop :=
  ∀ (cfg : Config) (ctx : Ctx) (timeoutMs : UInt32) (out : Option Status) (s' : Link OtaDevice),
    Exec (alone otaDevice) ⟨ctx, ⟨x, none, none, []⟩⟩ (otaUpdate cfg image timeoutMs) out s' →
      ∀ bytes ∈ s'.peer.handed, bytes = image

section Begin

variable {cfg : Config} {total : UInt32} {image : List UInt8} {s s' : Link OtaDevice} {cmd : Cmd}
  {reply : bridge.Reply cmd}

def Fresh (total : UInt32) (s : Link OtaDevice) : Prop := s.peer.Opens total

-- No FINISH was issued but for the image.
def HandedOk (image : List UInt8) (s : Link OtaDevice) : Prop := ∀ bytes ∈ s.peer.handed, bytes = image

-- Before the update mode is entered, and in it.
structure Opening (image : List UInt8) (s : Link OtaDevice) : Prop where
  handed : HandedOk image s
  fresh : Fresh (.ofNat image.length) s

structure Opened (image : List UInt8) (s : Link OtaDevice) : Prop where
  opening : Opening image s
  session : s.ctx.otaSessionActive = true

abbrev NoSession (op : Opcode) : Prop := op ≠ .otaBegin ∧ op ≠ .otaWrite ∧ op ≠ .otaFinish

theorem NoSession.of_upkeep (op : Opcode) (h : op.upkeep = true) : NoSession op := by
  refine ⟨?_, ?_, ?_⟩ <;>
    · rintro rfl
      cases h

theorem handedOk_step (he : alone otaDevice s cmd reply s') (hcmd : cmd.Spares (· ≠ .otaFinish))
    (hs : HandedOk image s) : HandedOk image s' := by
  unfold HandedOk
  rw [handed_kept he.2.2 hcmd]
  exact hs

theorem spared_handedOk (image : List UInt8) :
    Spared (alone otaDevice) (· ≠ .otaFinish) (HandedOk image) where
  kept := fun _ _ _ _ hcmd he hs => handedOk_step he hcmd hs
  upkeep := fun op h => (NoSession.of_upkeep op h).2.2

theorem opening_step (he : alone otaDevice s cmd reply s') (hfinish : cmd.Spares (· ≠ .otaFinish))
    (hopens : cmd.Opens (.ofNat image.length)) (hs : Opening image s) : Opening image s' :=
  ⟨handedOk_step he hfinish hs.handed, opens_step he.2.2 hopens hs.fresh⟩

theorem Cmd.Spares.noSession (h : cmd.Spares NoSession) (total : UInt32) :
    cmd.Spares (· ≠ .otaFinish) ∧ cmd.Opens total :=
  ⟨h.mono fun _ hop => hop.2.2, h.opens total (by simp) (by simp)⟩

theorem spared_opening (image : List UInt8) : Spared (alone otaDevice) NoSession (Opening image) where
  kept := fun _ _ _ _ hcmd he hs =>
    have hspares := hcmd.noSession (.ofNat image.length)
    opening_step he hspares.1 hspares.2 hs
  upkeep := NoSession.of_upkeep

theorem opened_step (he : alone otaDevice s cmd reply s') (hs : Opened image s)
    (hfinish : cmd.Spares (· ≠ .otaFinish)) (hopens : cmd.Opens (.ofNat image.length))
    (htouches : ¬ cmd.Touches .otaSessionActive) : Opened image s' :=
  ⟨opening_step he hfinish hopens hs.opening, (flag_step he htouches).trans hs.session⟩

theorem carried_opened (cfg : Config) (image : List UInt8) :
    Carried (alone otaDevice) cfg NoSession (Opened image) := by
  refine ⟨fun s cmd reply s' hcmd he hs => ?_, exits_hosted (fun _ _ _ _ h => h) cfg (fun _ hs => hs.session) ?_⟩
  · have hspares := hcmd.spares.noSession (.ofNat image.length)
    exact opened_step he hs hspares.1 hspares.2 (hcmd.touches nofun nofun)
  · intro s cmd reply s' hcmd he hs
    cases cmd with
    | get f => exact opened_step he hs trivial trivial id
    | note n => exact opened_step he hs trivial trivial id
    | _ => exact hcmd.elim

theorem carried_fresh (cfg : Config) (total : UInt32) :
    Carried (alone otaDevice) cfg NoSession (Fresh total) := by
  have hfresh : Spared (alone otaDevice) NoSession (Fresh total) :=
    ⟨fun _ _ _ _ hcmd he hs => opens_step he.2.2 (hcmd.noSession total).2 hs, NoSession.of_upkeep⟩
  exact hfresh.carried

theorem opens_begin (total : UInt32) (transfer : Transfer) (seq : UInt8) :
    (Cmd.clock transfer ⟨.otaBegin, putLE 4 total.toNat, seq⟩).Opens total :=
  ⟨nofun, fun _ => total_begin total seq⟩

-- A session that opens for the image and is WRITING was opened for it.
theorem OtaSession.Opens.eq {x : OtaSession} (h : x.Opens total) (hstate : x.state = OTA_STATE_WRITING) :
    x = ⟨OTA_STATE_WRITING, total, []⟩ := by
  obtain ⟨htotal, hbytes⟩ := h hstate
  cases x
  simp_all

theorem wp_begin_fresh (timeoutMs : UInt32) (hs : Fresh total s) :
    wp (alone otaDevice) (Fresh total) (otaBegin cfg total timeoutMs)
      (fun out s' => out = .ok () → s'.peer.session.state = OTA_STATE_WRITING) s := by
  have hfresh := carried_fresh cfg total
  have hrequest : Steady (alone otaDevice) (Fresh total)
      (request cfg .otaBegin (putLE 4 total.toNat) 0) := by
    refine steady_requestFrame hfresh.waited ?_ ?_ 0
    · exact fun s transfer err s' hs he => opens_step he.2.2 (opens_begin total transfer _) hs
    · exact fun s reply s' hs he => opens_step he.2.2 trivial hs
  exact wp_otaBegin hfresh.waited
    (fun s hs => wp_otaSettledAs hfresh (by decide) OTA_STATE_WRITING timeoutMs hs) hrequest hs

-- The begin of an update.
theorem wp_begin_opened (timeoutMs : UInt32) (hs : Opened image s) :
    wp (alone otaDevice) (Opened image) (otaBegin cfg (.ofNat image.length) timeoutMs)
      (fun out s' => out = .ok () → s'.peer.session.state = OTA_STATE_WRITING) s := by
  have hopened := carried_opened cfg image
  have hrequest : Steady (alone otaDevice) (Opened image)
      (request cfg .otaBegin (putLE 4 (UInt32.ofNat image.length).toNat) 0) := by
    refine steady_requestFrame hopened.waited ?_ ?_ 0
    · exact fun s transfer err s' hs he =>
        opened_step he hs (show Opcode.otaBegin ≠ .otaFinish from nofun) (opens_begin _ transfer _) id
    · exact fun s reply s' hs he =>
        opened_step he hs (show Opcode.otaBegin ≠ .otaFinish from nofun) trivial id
  exact wp_otaBegin hopened.waited
    (fun s hs => wp_otaSettledAs hopened (by decide) OTA_STATE_WRITING timeoutMs hs) hrequest hs

end Begin

section Stream

variable {x x' : OtaSession} {q q' : Option UInt32} {frame : Frame} {verdict : Status} {cfg : Config}
  {image : List UInt8} {polled : Bool}
  {P : List UInt8 → Prop} {s s' : Link OtaDevice} {cmd : Cmd} {reply : bridge.Reply cmd} {off n : Nat}

-- No queued BEGIN can touch what the session has accepted.
def OtaDevice.Settled (d : OtaDevice) : Prop :=
  d.queued = none ∨ d.session.state = OTA_STATE_WRITING ∧ d.session.bytes = []

theorem pumps_settled {d d₀ : OtaDevice} (hpumps : d.Pumps d₀) (hd : d.Settled) :
    d₀.session = d.session ∧ d₀.Settled := by
  have hopen {total : UInt32} (hqueued : d.queued = some total) : d.session.state = OTA_STATE_WRITING := by
    obtain hnone | ⟨hstate, -⟩ := hd
    · simp [hqueued] at hnone
    · exact hstate
  cases hpumps with
  | waits => exact ⟨rfl, hd⟩
  | opened total hqueued hstate => exact absurd (hopen hqueued) hstate
  | failed total hqueued hstate => exact absurd (hopen hqueued) hstate
  | kept total hqueued hstate => exact ⟨rfl, .inl rfl⟩

-- Between two chunks, and where a chunk is under way.
structure Streaming (image : List UInt8) (polled : Bool) (P : List UInt8 → Prop) (s : Link OtaDevice) :
    Prop where
  handed : HandedOk image s
  session : s.ctx.otaSessionActive = true
  flag : s.ctx.peerPolled = polled
  bytes : P s.peer.session.bytes
  settled : s.peer.Settled

abbrev Landed (image : List UInt8) (off : Nat) (bytes : List UInt8) : Prop := bytes = image.take off

abbrev Landing (image : List UInt8) (off n : Nat) (bytes : List UInt8) : Prop :=
  Landed image off bytes ∨ Landed image (off + n) bytes

-- A status request or a FINISH leaves the bytes alone, and the status request the whole session.
theorem does_bytes (hdoes : x.Does q frame x' q' verdict)
    (hcmd : frame.cmd = .otaStatus ∨ frame.cmd = .otaFinish) :
    x'.bytes = x.bytes ∧ q' = q ∧ (frame.cmd = .otaStatus → x' = x) := by
  cases hdoes with
  | queued hbegin => simp [hbegin] at hcmd
  | written hwrite => simp [hwrite] at hcmd
  | finished hfinish => exact ⟨rfl, rfl, fun hstatus => by simp [hfinish] at hstatus⟩
  | left hleft => rcases hleft with hleft | hleft | hleft <;> simp [hleft] at hcmd
  | _ => exact ⟨rfl, rfl, fun _ => rfl⟩

theorem streaming_step (he : alone otaDevice s cmd reply s') (hs : Streaming image polled P s)
    (hhanded : HandedOk image s') (hbytes : P s'.peer.session.bytes) (hsettled : s'.peer.Settled)
    (hsession : ¬ cmd.Touches .otaSessionActive) (hflag : ¬ cmd.Touches .peerPolled) :
    Streaming image polled P s' :=
  ⟨hhanded, (flag_step he hsession).trans hs.session, (flag_step he hflag).trans hs.flag, hbytes, hsettled⟩

theorem streaming_same (he : alone otaDevice s cmd reply s') (hs : Streaming image polled P s)
    (hpeer : s'.peer = s.peer) (hsession : ¬ cmd.Touches .otaSessionActive)
    (hflag : ¬ cmd.Touches .peerPolled) : Streaming image polled P s' := by
  refine streaming_step he hs ?_ (hpeer ▸ hs.bytes) (hpeer ▸ hs.settled) hsession hflag
  unfold HandedOk
  rw [hpeer]
  exact hs.handed

-- Where a FINISH may be issued, a chunk has landed, so nothing is queued.
theorem settled_moves {d d' : OtaDevice} (hmoves : d.Moves frame d') (hd : d.Settled)
    (hcmd : frame.cmd = .otaStatus ∨ frame.cmd = .otaFinish ∧ d.session.bytes ≠ []) :
    d'.session.bytes = d.session.bytes ∧ d'.Settled := by
  obtain ⟨hsession, hqueued⟩ | ⟨verdict, hdoes⟩ := hmoves
  · rw [OtaDevice.Settled, hsession, hqueued]
    exact ⟨rfl, hd⟩
  · obtain ⟨hbytes, hqueued, hsame⟩ := does_bytes hdoes (hcmd.imp_right And.left)
    refine ⟨hbytes, ?_⟩
    rw [OtaDevice.Settled, hqueued]
    obtain hstatus | ⟨-, hlanded⟩ := hcmd
    · rw [hsame hstatus]
      exact hd
    · exact .inl (hd.resolve_right fun h => hlanded h.2)

-- The status polls between the chunks, and a FINISH where the bytes are those of the image.
theorem carried_streaming (cfg : Config) {ops : Opcode → Prop}
    (hops : ∀ op, ops op →
      op = .otaStatus ∨ op = .otaFinish ∧ image ≠ [] ∧ ∀ bytes, P bytes → bytes = image) :
    Carried (alone otaDevice) cfg ops (Streaming image polled P) := by
  refine ⟨fun s cmd reply s' hcmd he hs => ?_, exits_hosted (fun _ _ _ _ h => h) cfg (fun _ hs => hs.session) ?_⟩
  · have hcmds (frame : Frame) (hop : ops frame.cmd) :
        frame.cmd = .otaStatus ∨ frame.cmd = .otaFinish ∧ s.peer.session.bytes ≠ [] := by
      refine (hops _ hop).imp_right fun ⟨hfinish, hne, himage⟩ => ⟨hfinish, ?_⟩
      rw [himage _ hs.bytes]
      exact hne
    have hmoved : s'.peer.session.bytes = s.peer.session.bytes ∧ s'.peer.Settled := by
      obtain ⟨hsession, hqueued⟩ | ⟨⟨pin, rfl⟩, -⟩ | ⟨transfer, frame, d₀, rfl, hpumps, hmoves⟩ :=
        session_step he.2.2
      · rw [OtaDevice.Settled, hsession, hqueued]
        exact ⟨rfl, hs.settled⟩
      · exact hcmd.elim
      · obtain ⟨hsession, hsettled⟩ := pumps_settled hpumps hs.settled
        have hcmd' := hcmds frame hcmd
        rw [← hsession] at hcmd' ⊢
        exact settled_moves hmoves hsettled hcmd'
    have hhanded : HandedOk image s' := by
      unfold HandedOk
      obtain hsame | ⟨transfer, frame, d₀, rfl, hfinish, hpumps, hlogged⟩ := handed_step he.2.2
      · rw [hsame]
        exact hs.handed
      · obtain hstatus | ⟨-, -, himage⟩ := hops _ hcmd
        · simp [hfinish] at hstatus
        · rw [hlogged, List.forall_mem_cons, (pumps_settled hpumps hs.settled).1]
          exact ⟨himage _ hs.bytes, hs.handed⟩
    exact streaming_step he hs hhanded (hmoved.1 ▸ hs.bytes) hmoved.2 (hcmd.touches nofun nofun)
      (hcmd.touches nofun nofun)
  · intro s cmd reply s' hcmd he hs
    have hpeer : s'.peer = s.peer := by
      cases cmd with
      | get f => exact he.2.2
      | note n => exact he.2.2
      | _ => exact hcmd.elim
    exact streaming_same he hs hpeer (hcmd.touches _) (hcmd.touches _)

theorem ofNat_inj {a b : Nat} (ha : a < 2 ^ 32) (hb : b < 2 ^ 32) (h : UInt32.ofNat a = UInt32.ofNat b) :
    a = b := by
  have htoNat := congrArg UInt32.toNat h
  rwa [UInt32.toNat_ofNat_of_lt' ha, UInt32.toNat_ofNat_of_lt' hb] at htoNat

theorem cursor_landed (hoff : off ≤ image.length) (h : Landed image off x.bytes) :
    x.cursor = .ofNat off := by
  rw [OtaSession.cursor, h, List.length_take, Nat.min_eq_left hoff]

theorem does_write (hdoes : x.Does q frame x' q' verdict) (hcmd : frame.cmd = .otaWrite) :
    x' = x ∧ q' = q ∧ verdict ≠ .ok ()
      ∨ frame.offset = x.cursor ∧ q' = none ∧ x'.bytes = x.bytes ++ frame.chunk := by
  cases hdoes with
  | queued hbegin => simp [hbegin] at hcmd
  | written hwrite hstate hoffset => exact .inr ⟨hoffset, rfl, rfl⟩
  | finished hfinish => simp [hfinish] at hcmd
  | left hleft => rcases hleft with hleft | hleft | hleft <;> simp [hleft] at hcmd
  | served hbegin hwrite => exact absurd hcmd hwrite
  | refused err => exact .inl ⟨rfl, rfl, nofun⟩

-- The frame of a chunk.
def writeFrame (image : List UInt8) (off n : Nat) : Frame :=
  ⟨.otaWrite, putLE 4 (UInt32.ofNat off).toNat ++ slice off n image, REQ_SEQ_NONE⟩

theorem offset_write (image : List UInt8) (off n : Nat) : (writeFrame image off n).offset = .ofNat off :=
  getLe32_putLE _ _

theorem chunk_write (image : List UInt8) (off n : Nat) :
    (writeFrame image off n).chunk = slice off n image := by
  rw [Frame.chunk, writeFrame, List.drop_left' (length_putLE _ _)]

-- A chunk is taken at most once: what is past its offset refuses it.
theorem landing_write {d d' : OtaDevice} (hlen : image.length < 2 ^ 32) (hn : 0 < n)
    (hend : off + n ≤ image.length) (hd : d.Settled) (hx : Landing image off n d.session.bytes)
    (hdoes : d.session.Does d.queued (writeFrame image off n) d'.session d'.queued verdict) :
    d'.Settled ∧ Landing image off n d'.session.bytes ∧
      (verdict = .ok () → Landed image (off + n) d'.session.bytes) := by
  obtain ⟨hsession, hqueued, hrefused⟩ | ⟨hoffset, hqueued, hbytes⟩ := does_write hdoes rfl
  · rw [OtaDevice.Settled, hsession, hqueued]
    exact ⟨hd, hx, fun hok => absurd hok hrefused⟩
  rw [offset_write] at hoffset
  obtain hbefore | hafter := hx
  · have hlanded : Landed image (off + n) d'.session.bytes := by
      rw [Landed, hbytes, chunk_write, hbefore, List.take_add, slice]
    exact ⟨.inl hqueued, .inr hlanded, fun _ => hlanded⟩
  · rw [cursor_landed hend hafter] at hoffset
    have := ofNat_inj (by omega) (by omega) hoffset
    omega

end Stream

section Write

variable {cfg : Config} {image : List UInt8} {polled : Bool} {s s' : Link OtaDevice} {off n : Nat}
  (hlen : image.length < 2 ^ 32) (hn : 0 < n) (hend : off + n ≤ image.length)

-- The chunk was clocked out: the device acks it only if it has landed.
structure Clocked (image : List UInt8) (polled : Bool) (off n : Nat) (s : Link OtaDevice) : Prop where
  streaming : Streaming image polled (Landing image off n) s
  verdict : s.peer.verdict = some (.ok ()) → Landed image (off + n) s.peer.session.bytes

abbrev Polling (op : Opcode) : Prop := op = .otaStatus

theorem carried_polling (cfg : Config) (P : List UInt8 → Prop) :
    Carried (alone otaDevice) cfg Polling (Streaming image polled P) :=
  carried_streaming cfg fun _ => .inl

theorem waited_streaming (P : List UInt8 → Prop) : Waited (alone otaDevice) (Streaming image polled P) := by
  intro s cmd reply s' hcmd he hs
  have hcarries : cmd.Carries Polling := hcmd.carries
  exact streaming_same he hs (peer_waits hcmd he) (hcarries.touches nofun nofun)
    (hcarries.touches nofun nofun)

theorem streaming_of_peer {P : List UInt8 → Prop} (hs : Streaming image polled P s) (hctx : s'.ctx = s.ctx)
    (hhanded : s'.peer.handed = s.peer.handed) (hbytes : P s'.peer.session.bytes)
    (hsettled : s'.peer.Settled) : Streaming image polled P s' where
  handed := by
    unfold HandedOk
    rw [hhanded]
    exact hs.handed
  session := hctx ▸ hs.session
  flag := hctx ▸ hs.flag
  bytes := hbytes
  settled := hsettled

theorem streaming_lost {P : List UInt8 → Prop} {d : OtaDevice} (hs : Streaming image polled P s)
    (hctx : s'.ctx = s.ctx) (hhanded : s'.peer.handed = s.peer.handed)
    (hd : d.Settled) (hsame : d.session = s.peer.session)
    (hlost : s'.peer.session = d.session ∧ s'.peer.queued = d.queued) : Streaming image polled P s' := by
  refine streaming_of_peer hs hctx hhanded ?_ ?_
  · rw [hlost.1, hsame]
    exact hs.bytes
  · rw [OtaDevice.Settled, hlost.1, hlost.2]
    exact hd

include hlen hn hend

-- The write cursor tells whether the chunk has landed.
theorem landed_of_le {x : OtaSession} (hx : Landing image off n x.bytes)
    (hle : UInt32.ofNat (off + n) ≤ x.cursor) :
    Landed image (off + n) x.bytes := by
  obtain hbefore | hafter := hx
  · have hoff : off < 2 ^ 32 := by omega
    have hnext : off + n < 2 ^ 32 := by omega
    rw [cursor_landed (by omega) hbefore, UInt32.le_iff_toNat_le, UInt32.toNat_ofNat_of_lt' hoff,
      UInt32.toNat_ofNat_of_lt' hnext] at hle
    omega
  · exact hafter

omit hlen hn in
theorem landed_of_not_le {x : OtaSession} (hx : Landing image off n x.bytes)
    (hlt : ¬ UInt32.ofNat (off + n) ≤ x.cursor) : Landed image off x.bytes := by
  obtain hbefore | hafter := hx
  · exact hbefore
  · rw [cursor_landed hend hafter] at hlt
    exact absurd (UInt32.le_refl _) hlt

theorem wp_writeLocked (hs : Streaming image polled (Landing image off n) s) :
    wp (alone otaDevice) (Streaming image polled (Landing image off n))
      (requestLocked (writeFrame image off n) 0)
      (fun answer s' => answer.status = .ok () → Landed image (off + n) s'.peer.session.bytes) s := by
  refine wp_requestLocked (A := Clocked image polled off n)
    (G := fun _ s => Landed image (off + n) s.peer.session.bytes) (waited_streaming _)
    (fun _ h => h.streaming) ?_ ?_ ?_ ?_ ?_ hs
  · simp [writeFrame, putLE]
  · rintro s err s' hs ⟨-, hctx, d₀, hpumps, hhanded, ⟨-, hlost⟩ | ⟨hempty, -⟩⟩
    · obtain ⟨hsame, hsettled⟩ := pumps_settled hpumps hs.settled
      exact streaming_lost hs hctx hhanded hsettled hsame hlost
    · simp [writeFrame, putLE] at hempty
  · rintro s err s' hs ⟨-, hctx, hhanded, ⟨hverdict, hlost⟩ | ⟨verdict, hverdict, hdoes⟩⟩
    · exact ⟨streaming_lost hs hctx hhanded hs.settled rfl hlost, by simp [hverdict]⟩
    · obtain ⟨hsettled, hbytes, hlanded⟩ := landing_write hlen hn hend hs.settled hs.bytes hdoes
      exact ⟨streaming_of_peer hs hctx hhanded hbytes hsettled,
        fun hok => hlanded (by simpa [hverdict] using hok)⟩
  · rintro s err s' hs he
    have hpeer : s'.peer = s.peer := he.2.2
    refine ⟨streaming_same he hs.streaming hpeer id id, ?_⟩
    rw [hpeer]
    exact hs.verdict
  · rintro s reply s' hs he
    obtain ⟨hpeer, htruth⟩ := he.2.2
    refine ⟨streaming_same he hs.streaming hpeer id id, ?_⟩
    rintro answer rfl hok
    rw [hpeer]
    exact hs.verdict ((htruth answer rfl).acked hok)

-- A chunk that is acked has landed. After any other answer it may have.
theorem wp_otaWrite (hchunk : n ≤ if polled then POLLED_OTA_CHUNK else 256)
    (hs : Streaming image polled (Landed image off) s) :
    wp (alone otaDevice) (Streaming image polled (Landing image off n))
      (otaWrite cfg (.ofNat off) (slice off n image))
      (fun out s' => out = .ok () → Landed image (off + n) s'.peer.session.bytes) s := by
  have hpolling : Carried (alone otaDevice) cfg Polling (Streaming image polled (Landing image off n)) :=
    carried_polling cfg _
  have hlength : (slice off n image).length = n := length_slice hend
  have hframe (s : Link OtaDevice) (hs : Streaming image polled (Landing image off n) s) :
      wp (alone otaDevice) (Streaming image polled (Landing image off n))
        (otaWriteFrame cfg (.ofNat off) (slice off n image))
        (fun out s' => out = .ok () → Landed image (off + n) s'.peer.session.bytes) s := by
    have hwaited := waited_peer (P := fun d => Landed image (off + n) d.session.bytes) hpolling.waited
    refine wp_bind (wp_mono (wp_request cfg hpolling.waited (fun _ => hwaited)
      (fun s hs => wp_writeLocked hlen hn hend hs) hs) ?_)
    exact fun out s hs hlanded => ⟨hs, hlanded⟩
  have hlanding : Streaming image polled (Landing image off n) s := { hs with bytes := .inl hs.bytes }
  have hmax : ¬ (n = 0 ∨ OTA_MAX_CHUNK < n) := by
    have hbound : (if polled then POLLED_OTA_CHUNK else 256) ≤ 256 := by cases polled <;> decide
    simp only [OTA_MAX_CHUNK, MAX_PAYLOAD]
    omega
  rw [otaWrite, hlength, if_neg hmax]
  refine ⟨hlanding, fun flag s' he => ?_⟩
  obtain rfl : flag = polled := Eq.trans he.1 hs.flag
  have hsplit : ¬ (flag && decide (POLLED_OTA_CHUNK < n)) = true := by
    cases flag with
    | false => simp
    | true => simpa using hchunk
  refine wp_ite (fun h => absurd h hsplit) fun _ => ?_
  exact hframe s' (hpolling.waited s (.get .peerPolled) flag s' trivial he hlanding)

end Write

section Update

variable {cfg : Config} {image : List UInt8} {polled : Bool} {s s' : Link OtaDevice}

-- From any offset up to which the image has landed.
theorem wp_streamLoop_landed (hlen : image.length < 2 ^ 32) (timeoutMs : UInt32) (fuel off stalled : Nat)
    (hoff : off ≤ image.length) (hs : Streaming image polled (Landed image off) s) :
    wp (alone otaDevice) (HandedOk image)
      (streamLoop cfg image (if polled then POLLED_OTA_CHUNK else 256) timeoutMs fuel off stalled)
      (fun out s' => out = .ok () → Streaming image polled (Landed image image.length) s') s := by
  have hspared := spared_handedOk image
  have habort (err : AlpError) (s : Link OtaDevice) (hs : HandedOk image s) :
      wp (alone otaDevice) (HandedOk image) (otaUpdateAbort cfg err timeoutMs)
        (fun out s' => out = .ok () → Streaming image polled (Landed image image.length) s') s := by
    have habort : Steady (alone otaDevice) (HandedOk image) (otaAbort cfg timeoutMs) :=
      steady_otaAbort hspared.carried (by decide) timeoutMs
    have hoff : Steady (alone otaDevice) (HandedOk image) (otaUpdateMode cfg false timeoutMs) :=
      steady_updateModeOff hspared (by decide) (by decide) timeoutMs
    exact habort.wp_bind hs fun _ s hs => hoff.wp_bind hs fun _ s hs => ⟨hs, nofun⟩
  induction fuel generalizing off stalled s with
  | zero =>
      have hstall : Steady (alone otaDevice) (HandedOk image) (perform Cmd.stall) :=
        hspared.steady _ trivial
      exact hstall.wp_bind hs.handed fun reply : Empty => reply.elim
  | succ fuel ih =>
      rw [streamLoop]
      generalize hchunk : (if polled then POLLED_OTA_CHUNK else 256) = chunk at ih ⊢
      have hpos : 0 < chunk := by
        subst hchunk
        cases polled <;> decide
      refine wp_ite (fun hmore => ?_) fun hdone => ⟨hs.handed, fun _ => ?_⟩
      · obtain ⟨n, hn⟩ : ∃ n, n = min (image.length - off) chunk := ⟨_, rfl⟩
        rw [← hn]
        have hend : off + n ≤ image.length := by omega
        have hlanded (s : Link OtaDevice) (hs : Streaming image polled (Landing image off n) s)
            (hbytes : Landed image (off + n) s.peer.session.bytes) :
            Streaming image polled (Landed image (off + n)) s := { hs with bytes := hbytes }
        have hpolling : Carried (alone otaDevice) cfg Polling
          (Streaming image polled (Landing image off n)) :=
          carried_polling cfg _
        refine wp_bind (wp_mono (wp_relax (wp_otaWrite hlen (by omega) hend (by omega) hs)
          fun _ h => h.handed) ?_)
        rintro st s - ⟨hs, hacked⟩
        cases st with
        | ok _ => exact ih _ _ hend (hlanded s hs (hacked rfl))
        | error err =>
            refine wp_ite (fun _ => ?_) fun _ => ?_
            · have hflush := wp_flushLoop hpolling rfl (.ofNat (off + n))
                (min timeoutMs OTA_BLACKOUT_POLL_TIMEOUT_MS) cfg.fuel 0 hs
              refine wp_bind (wp_mono (wp_relax hflush fun _ h => h.handed) ?_)
              rintro result s - ⟨hs, hcursor⟩
              cases result with
              | error err => exact habort err s hs.handed
              | ok landed =>
                  replace hcursor := hcursor landed rfl
                  cases landed with
                  | true =>
                      have hle := hcursor.mp rfl
                      exact ih _ _ hend (hlanded s hs (landed_of_le hlen (by omega) hend hs.bytes hle))
                  | false =>
                      have hlt : ¬ UInt32.ofNat (off + n) ≤ s.peer.session.cursor := by simpa using hcursor
                      have hbytes := landed_of_not_le hend hs.bytes hlt
                      refine wp_ite (fun _ => habort _ s hs.handed) fun _ => ?_
                      exact ih _ _ hoff { hs with bytes := hbytes }
            · have htaken := wp_chunkTaken hpolling rfl (.ofNat (off + n)) timeoutMs hs
              refine wp_bind (wp_mono (wp_relax htaken fun _ h => h.handed) ?_)
              rintro taken s - ⟨hs, hcursor⟩
              refine wp_ite (fun htrue => ?_) fun _ => habort err s hs.handed
              have hle := UInt32.le_of_eq (hcursor htrue).symm
              exact ih _ _ hend (hlanded s hs (landed_of_le hlen (by omega) hend hs.bytes hle))
      · obtain rfl : off = image.length := by omega
        exact hs

theorem wp_updateMode_opened (timeoutMs : UInt32) (hs : Opening image s) :
    wp (alone otaDevice) (Opening image) (otaUpdateMode cfg true timeoutMs)
      (fun out s' => out = .ok () → Opened image s') s := by
  have hspared := spared_opening image
  have hconfirmed (s : Link OtaDevice) (hs : Opened image s) :
      wp (alone otaDevice) (Opening image) (do updateModeConfirmed true; pure (.ok ()) : Driver Status)
        (fun _ => Opened image) s := by
    refine ⟨hs.opening, fun _ s₁ hflag => ?_⟩
    replace hs : Opened image s₁ := opened_step hflag hs trivial trivial nofun
    refine ⟨hs.opening, fun _ s₂ hnote => ?_⟩
    replace hs : Opened image s₂ := opened_step hnote hs trivial trivial id
    exact ⟨hs.opening, hs⟩
  refine (hspared.steady (.get .initialised) trivial).wp_bind hs fun ready s hs => ?_
  refine wp_ite (fun _ => ⟨hs, fun _ s' hset => ?_⟩) fun _ => ⟨hs, nofun⟩
  have hopened : Opened image s' :=
    ⟨hspared.kept s (.set .otaSessionActive true) () s' trivial hset hs, by rw [hset.2.1]; rfl⟩
  exact wp_updateModeBack hspared (carried_opened cfg image) (fun _ h => h.opening) (by decide) (by decide)
    hconfirmed timeoutMs hopened

theorem wp_finish_landed (timeoutMs : UInt32) (himage : image ≠ [])
    (hs : Streaming image polled (Landed image image.length) s) :
    wp (alone otaDevice) (HandedOk image) (otaFinish cfg timeoutMs) (fun _ _ => True) s := by
  have hcarried : Carried (alone otaDevice) cfg (fun op => op = .otaStatus ∨ op = .otaFinish)
      (Streaming image polled (Landed image image.length)) := by
    refine carried_streaming cfg fun op hop => hop.imp_right fun hfinish =>
      ⟨hfinish, himage, fun bytes hbytes => ?_⟩
    rw [hbytes, List.take_length]
  have hconfirmed (s : Link OtaDevice) (hs : HandedOk image s) :
      wp (alone otaDevice) (HandedOk image) (do otaFinishConfirmed; pure (.ok ()) : Driver Status)
        (fun _ _ => True) s :=
    (steady_otaFinishConfirmed (spared_handedOk image)).wp_bind hs fun _ s hs => ⟨hs, trivial⟩
  have hpoll := steady_pollByRepeat hcarried .otaFinish (.inr rfl) [] 0 timeoutMs
  refine wp_bind (wp_mono (wp_relax (hpoll s hs) fun _ h => h.handed) ?_)
  rintro ⟨st, reply⟩ s - ⟨hs, -⟩
  refine wp_ite (fun _ => hconfirmed s hs.handed) fun _ => ?_
  have hsettled := steady_otaSettledAs hcarried (.inl rfl) OTA_STATE_STAGED timeoutMs
  refine wp_bind (wp_mono (wp_relax (hsettled s hs) fun _ h => h.handed) ?_)
  rintro settled s - ⟨hs, -⟩
  split
  · exact hconfirmed s hs.handed
  · exact ⟨hs.handed, trivial⟩
  · exact ⟨hs.handed, trivial⟩

-- Every FINISH of an update that finds a session it can open is for the image.
theorem wp_otaUpdate_image (timeoutMs : UInt32) (hs : Opening image s) :
    wp (alone otaDevice) (HandedOk image) (otaUpdate cfg image timeoutMs) (fun _ _ => True) s := by
  have hbail (err : AlpError) (s : Link OtaDevice) (hs : HandedOk image s) :
      wp (alone otaDevice) (HandedOk image) (otaUpdateBail cfg err timeoutMs) (fun _ _ => True) s :=
    steady_otaUpdateBail (spared_handedOk image) (by decide) (by decide) err timeoutMs s hs
  refine wp_ite (fun _ => ⟨hs.handed, trivial⟩) fun hsize => ?_
  have himage : image ≠ [] := fun h => hsize (.inl (congrArg List.length h))
  refine wp_bind (wp_mono (wp_relax (wp_updateMode_opened timeoutMs hs) fun _ h => h.handed) ?_)
  rintro entered s - ⟨hopening, hs⟩
  cases entered with
  | error err => exact ⟨hopening.handed, trivial⟩
  | ok _ =>
      refine wp_bind (wp_mono (wp_relax (wp_begin_opened timeoutMs (hs rfl))
        fun _ h => h.opening.handed) ?_)
      rintro begun s - ⟨hs, hwriting⟩
      cases begun with
      | error err => exact hbail err s hs.opening.handed
      | ok _ =>
          refine ⟨hs.opening.handed, fun polled s' hget => ?_⟩
          have hbytes := congrArg OtaSession.bytes (hs.opening.fresh.1.eq (hwriting rfl))
          have hpeer : s'.peer = s.peer := hget.2.2
          replace hs : Opened image s' := opened_step hget hs trivial trivial id
          have hstreaming : Streaming image polled (Landed image 0) s' := by
            refine ⟨hs.opening.handed, hs.session, ?_, ?_, ?_⟩
            · rw [show s'.ctx = s.ctx from hget.2.1]
              exact hget.1.symm
            · rw [hpeer]
              exact hbytes
            · rw [hpeer]
              exact .inr ⟨hwriting rfl, hbytes⟩
          refine wp_bind (p := streamLoop cfg image _ timeoutMs cfg.fuel 0 0) (wp_mono
            (wp_streamLoop_landed (by omega) timeoutMs cfg.fuel 0 0 (Nat.zero_le _) hstreaming) ?_)
          intro streamed s hs hlanded
          cases streamed with
          | error err => exact ⟨hs, trivial⟩
          | ok _ =>
              refine wp_bind (wp_mono (wp_finish_landed timeoutMs himage (hlanded rfl)) fun finished s hs _ => ?_)
              cases finished with
              | error err => exact hbail err s hs
              | ok _ =>
                  exact steady_otaPromote (spared_handedOk image) (by decide) (by decide) timeoutMs s hs

end Update

section Occupied

-- A device that answers every BEGIN with BUSY, and carries it out at the next frame.
def OtaDevice.pump (d : OtaDevice) : OtaDevice :=
  match d.queued with
  | none => d
  | some total =>
      if d.session.state = OTA_STATE_WRITING then { d with queued := none }
      else { d with session := ⟨OTA_STATE_WRITING, total, []⟩, queued := none }

def OtaDevice.serve (d : OtaDevice) (frame : Frame) : OtaDevice :=
  match frame.cmd with
  | .otaBegin => { d with queued := some frame.total, verdict := some (.error .busy) }
  | .otaWrite =>
      if d.queued = none ∧ d.session.state = OTA_STATE_WRITING ∧ frame.offset = d.session.cursor then
        { d with session.bytes := d.session.bytes ++ frame.chunk, verdict := some (.ok ()) }
      else { d with verdict := some (.error .busy) }
  | .otaFinish => { d with session.state := OTA_STATE_STAGED, verdict := some (.ok ()) }
  | _ => { d with verdict := some (.ok ()) }

theorem OtaDevice.pumps_pump (d : OtaDevice) : d.Pumps d.pump := by
  unfold pump
  split
  case h_1 => exact .waits d
  case h_2 total hqueued =>
    split
    case isTrue hstate => exact .kept d total hqueued hstate
    case isFalse hstate => exact .opened d total hqueued hstate

theorem OtaDevice.takes_serve (d d' : OtaDevice) (frame : Frame) (hsession : d'.session = d.session)
    (hqueued : d'.queued = d.queued) : d.Takes frame (d'.serve frame) := by
  rw [OtaDevice.Takes, ← hsession, ← hqueued]
  refine .inr ?_
  unfold serve
  split
  case h_1 hcmd => exact ⟨_, rfl, .queued hcmd (.inr rfl)⟩
  case h_2 hcmd =>
    split
    case isTrue h =>
      refine ⟨_, rfl, ?_⟩
      simp only [h.1]
      exact .written hcmd h.2.1 h.2.2
    case isFalse => exact ⟨_, rfl, .refused .busy⟩
  case h_3 hcmd => exact ⟨_, rfl, .finished hcmd (.inl rfl)⟩
  case h_4 hbegin hwrite _ => exact ⟨_, rfl, .served hbegin hwrite⟩

theorem handed_serve (d : OtaDevice) (frame : Frame) : (d.serve frame).handed = d.handed := by
  unfold OtaDevice.serve
  split
  case h_2 => split <;> rfl
  all_goals rfl

def statusReply (x : OtaSession) : List UInt8 :=
  [x.state, 0, 0, 0] ++ putLE 4 x.cursor.toNat ++ putLE 4 x.total.toNat ++ [0, 0, 0, 0]

theorem statusReply_tells (x : OtaSession) : (OtaStatus.decode ((statusReply x).take 16)).Tells x := by
  have hall : (statusReply x).take 16 = statusReply x := List.take_of_length_le (by simp [statusReply])
  rw [hall]
  have hcursor : getLe32 4 (statusReply x) =
      getLe32 0 (putLE 4 x.cursor.toNat ++ (putLE 4 x.total.toNat ++ [0, 0, 0, 0])) := by
    simp only [getLe32, statusReply, List.append_assoc]
    rw [slice_skip _ _ _ _ (by simp)]
    rfl
  have htotal : getLe32 8 (statusReply x) = getLe32 0 (putLE 4 x.total.toNat ++ [0, 0, 0, 0]) := by
    simp only [getLe32, statusReply, List.append_assoc]
    rw [slice_skip _ _ _ _ (by simp), slice_skip _ _ _ _ (by simp)]
    simp
  exact ⟨rfl, hcursor.trans (getLe32_putLE _ _), htotal.trans (getLe32_putLE _ _)⟩

def occupied : Memory bridge (Link OtaDevice) :=
  Link.memory (fun d frame => .ok ⟨d.verdict.getD (.error .io), 0,
      match frame.cmd with
      | .otaStatus => statusReply d.session
      | .otaUpdateMode => frame.payload
      | _ => []⟩) fun d cmd =>
    match cmd with
    | .clock .requestHeader frame =>
        let issued := { d.pump with
          handed := if frame.cmd = .otaFinish then d.pump.session.bytes :: d.handed else d.handed
          verdict := none }
        if frame.payload = [] then issued.serve frame else issued
    | .clock .requestPayload frame => d.serve frame
    | .write _ false => { d with session := .closed, queued := none, verdict := none }
    | _ => d

theorem exec_occupied {α : Type} {p : Driver α} {s s' : Link OtaDevice} {value : α}
    (h : solo occupied p s = some (value, s')) : Exec (alone otaDevice) s p (some value) s' := by
  refine exec_memory (fun ctx d cmd reply hreply => ?_) h
  cases cmd with
  | clock transfer frame =>
      cases transfer with
      | requestHeader =>
          by_cases hempty : frame.payload = []
          · simp only [hempty, if_true]
            exact ⟨d.pump, d.pumps_pump, handed_serve _ frame,
              .inr ⟨hempty, d.pump.takes_serve _ frame rfl rfl⟩⟩
          · simp only [hempty, if_false]
            exact ⟨d.pump, d.pumps_pump, rfl, .inl ⟨rfl, rfl, rfl⟩⟩
      | requestPayload => exact ⟨handed_serve d frame, d.takes_serve d frame rfl rfl⟩
      | replyHeader => rfl
  | collect frame =>
      refine ⟨rfl, ?_⟩
      obtain rfl := Option.some.inj hreply
      rintro answer ⟨⟩
      have hverdict (value : Status) (hvalue : value ≠ .error .io) :
          d.verdict.getD (.error .io) = value → d.verdict = some value := by
        cases d.verdict with
        | none => exact fun h => absurd h.symm hvalue
        | some verdict => exact congrArg some
      refine ⟨hverdict _ nofun, fun _ hstatus => ?_⟩
      simp only [hstatus]
      exact statusReply_tells d.session
  | write pin level => cases level <;> rfl
  | _ => rfl

end Occupied

section Theorems

variable {x : OtaSession} {total : UInt32}

theorem beginSound_of_opens (hopens : x.Opens total) : BeginSound x total := by
  intro cfg ctx timeoutMs s' hexec
  obtain ⟨hfresh, hreturns⟩ := wp_sound hexec (wp_begin_fresh timeoutMs ⟨hopens, nofun⟩)
  exact hfresh.1.eq (hreturns _ rfl rfl)

theorem updateSound_of_opens {image : List UInt8} (hopens : x.Opens (.ofNat image.length)) :
    UpdateSound x image := by
  intro cfg ctx timeoutMs out s' hexec
  exact (wp_sound hexec (wp_otaUpdate_image timeoutMs ⟨nofun, hopens, nofun⟩)).1

-- The settlement takes the session of another image for the one that was asked for.
theorem exec_begin_occupied (old total : UInt32) (bytes : List UInt8) : ∃ s' : Link OtaDevice,
    Exec (alone otaDevice)
      ⟨{ bootedCtx with peerPolled := true }, ⟨⟨OTA_STATE_WRITING, old, bytes⟩, none, none, []⟩⟩
      (otaBegin board total 1000) (some (.ok ())) s' ∧ s'.peer.session = ⟨OTA_STATE_WRITING, old, bytes⟩ :=
  ⟨_, exec_occupied rfl, rfl⟩

theorem opens_of_beginSound (hsound : BeginSound x total) : x.Opens total := by
  intro hwriting
  obtain ⟨state, old, bytes⟩ := x
  obtain rfl : state = OTA_STATE_WRITING := hwriting
  obtain ⟨s', hexec, hsession⟩ := exec_begin_occupied old total bytes
  have hfresh := hsession.symm.trans (hsound board _ 1000 s' hexec)
  exact ⟨congrArg OtaSession.total hfresh, congrArg OtaSession.bytes hfresh⟩

-- The calls hand over the image and nothing else exactly where the device opens a session for it.
theorem update_hands_image (x : OtaSession) (image : List UInt8) :
    (BeginSound x (.ofNat image.length) ∧ UpdateSound x image) ↔ x.Opens (.ofNat image.length) :=
  ⟨fun hsound => opens_of_beginSound hsound.1,
    fun hopens => ⟨beginSound_of_opens hopens, updateSound_of_opens hopens⟩⟩

def interrupted : OtaSession := ⟨OTA_STATE_WRITING, 32, List.replicate 16 1⟩

-- The first chunk of another image of the same length counts as the first chunk of this one.
theorem update_splices : ¬ ∀ (x : OtaSession) (image : List UInt8),
    BeginSound x (.ofNat image.length) ∧ UpdateSound x image := by
  intro hall
  have hexec : ∃ value s', Exec (alone otaDevice) ⟨bootedCtx, ⟨interrupted, none, none, []⟩⟩
      (otaUpdate board (List.replicate 32 2) 1000) (some value) s' ∧
        List.replicate 16 1 ++ List.replicate 16 2 ∈ s'.peer.handed :=
    ⟨_, _, exec_occupied rfl, .head _⟩
  obtain ⟨value, s', hexec, hhanded⟩ := hexec
  have himage := (hall interrupted (List.replicate 32 2)).2 board _ 1000 _ s' hexec _ hhanded
  cases himage

end Theorems

end AlpSdk.Cc3501e
