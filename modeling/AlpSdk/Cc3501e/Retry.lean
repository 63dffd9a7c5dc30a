import AlpSdk.Cc3501e.Alone

-- Commands that the bridge carries out once, however often their frames are repeated.
namespace AlpSdk.Cc3501e

open Library.Effect Library.Interleave

-- The commands of one kind: what identifies a command over its retries, what carrying it out can
-- come to, and the replies that say so. Looking after the link is not of the kind.
structure Service where
  Key : Type
  Result : Type
  key : Frame → Option Key
  Does : Frame → Result → Prop
  Says : Result → Answer → Prop
  upkeep : ∀ frame, frame.cmd.upkeep = true → key frame = none

-- The bridge: whether it is up since its reset, the one result that it holds, the commands it has
-- carried out, latest first, and its answer to the exchange under way.
structure Worker (v : Service) where
  live : Bool
  held : Option (v.Key × v.Result)
  done : List (Frame × v.Result)
  armed : Option Answer

namespace Worker

variable {v : Service}

def reset (w : Worker v) : Worker v := { w with live := false, held := none, armed := none }

def boot (w : Worker v) : Worker v := { w.reset with live := true }

-- What becomes of a frame that reaches the bridge or is lost on the way.
inductive Takes (frame : Frame) : Worker v → Worker v → Prop where
  | lost (w : Worker v) : Takes frame w { w with armed := none }
  | refused (w : Worker v) (answer : Answer) (hstatus : answer.status ≠ .ok ()) :
      Takes frame w { w with armed := some answer }
  | other (w : Worker v) (answer : Answer) (hkey : v.key frame = none) :
      Takes frame w { w with armed := some answer }
  | started (w : Worker v) (k : v.Key) (r : v.Result) (answer : Answer) (hkey : v.key frame = some k)
      (hlive : w.live = true) (hnew : ∀ r, w.held ≠ some (k, r)) (hdoes : v.Does frame r)
      (hanswer : v.Says r answer ∨ answer.status ≠ .ok ()) :
      Takes frame w { w with held := some (k, r), done := (frame, r) :: w.done, armed := some answer }
  | repeated (w : Worker v) (k : v.Key) (r : v.Result) (answer : Answer) (hkey : v.key frame = some k)
      (hlive : w.live = true) (hheld : w.held = some (k, r)) (hanswer : v.Says r answer ∨ answer.status ≠ .ok ()) :
      Takes frame w { w with armed := some answer }

end Worker

-- A frame without a payload may be through with its header. An accepted reply is the answer of
-- the bridge to the exchange, and every transfer may fail on the host's side.
def retrying (v : Service) : Env bridge (Worker v)
  | w, .clock .requestHeader frame, _, w' =>
      w' = { w with armed := none } ∨ frame.payload = [] ∧ w.Takes frame w'
  | w, .clock .requestPayload frame, _, w' => w.Takes frame w'
  | w, .collect _, reply, w' =>
      w' = w ∧ ∀ answer, reply = .ok answer → answer.status = .ok () → w.armed = some answer
  | w, .write _ false, _, w' => w' = w.reset
  | w, _, _, w' => w' = w

-- The commands that send no frame of the kind.
def Cmd.Unkeyed (v : Service) : Cmd → Prop
  | .clock _ frame | .collect frame => v.key frame = none
  | _ => True

section Rules

variable {v : Service} {P : Frame → Prop} {k : v.Key} {base : List (Frame × v.Result)}

-- A command of the frames `P` with the key `k`, over what was carried out before it: it is not
-- carried out yet and its key is new, or it is carried out and its result is held.
def Calling (P : Frame → Prop) (k : v.Key) (base : List (Frame × v.Result)) (w : Worker v) : Prop :=
  (w.done = base ∧ (w.live = true → ∀ r, w.held ≠ some (k, r))) ∨
    ∃ frame r, P frame ∧ v.Does frame r ∧ w.done = (frame, r) :: base ∧ (w.live = true → w.held = some (k, r))

-- The reply is about the command that was carried out.
def Replied (P : Frame → Prop) (base : List (Frame × v.Result)) (answer : Answer) (w : Worker v) : Prop :=
  ∃ frame r, P frame ∧ v.Does frame r ∧ w.done = (frame, r) :: base ∧ v.Says r answer

-- What the data of an accepted reply come from.
def Brings (P : Frame → Prop) (base : List (Frame × v.Result)) (rxCap : Nat) (data : List UInt8)
    (w : Worker v) : Prop :=
  ∃ full : Answer, full.status = .ok () ∧ Replied P base full w ∧ data = full.data.take rxCap

def Waiting (P : Frame → Prop) (k : v.Key) (base : List (Frame × v.Result)) (w : Worker v) : Prop :=
  Calling P k base w ∧ ∀ answer, w.armed = some answer → answer.status = .ok () → Replied P base answer w

theorem calling_reset {w : Worker v} (h : Calling P k base w) : Calling P k base w.reset := by
  obtain ⟨hdone, -⟩ | ⟨frame, r, hP, hdoes, hdone, -⟩ := h
  · exact .inl ⟨hdone, nofun⟩
  · exact .inr ⟨frame, r, hP, hdoes, hdone, nofun⟩

-- A frame of the call carries the command out or finds its result.
theorem waiting_takes {w w' : Worker v} {frame : Frame} (hframe : P frame) (hkey : v.key frame = some k)
    (h : Calling P k base w) (htakes : w.Takes frame w') : Waiting P k base w' := by
  cases htakes with
  | lost => exact ⟨h, nofun⟩
  | refused answer hstatus =>
      refine ⟨h, fun answer' harmed hok => ?_⟩
      obtain rfl := Option.some.inj harmed
      exact absurd hok hstatus
  | other answer hnone => simp [hkey] at hnone
  | started k' r answer hkey' hlive hnew hdoes hanswer =>
      obtain rfl : k = k' := Option.some.inj (hkey.symm.trans hkey')
      obtain ⟨hdone, -⟩ | ⟨frame', r', -, -, -, hheld⟩ := h
      · have hlog : (frame, r) :: w.done = (frame, r) :: base := by rw [hdone]
        refine ⟨.inr ⟨frame, r, hframe, hdoes, hlog, fun _ => rfl⟩, fun answer' harmed hok => ?_⟩
        obtain rfl := Option.some.inj harmed
        exact ⟨frame, r, hframe, hdoes, hlog, hanswer.resolve_right (not_not.mpr hok)⟩
      · exact absurd (hheld hlive) (hnew r')
  | repeated k' r answer hkey' hlive hfound hanswer =>
      obtain rfl : k = k' := Option.some.inj (hkey.symm.trans hkey')
      obtain ⟨-, hnew⟩ | ⟨frame', r', hP, hdoes, hdone, hheld⟩ := h
      · exact absurd hfound (hnew hlive r)
      · obtain rfl : r' = r := congrArg Prod.snd (Option.some.inj ((hheld hlive).symm.trans hfound))
        refine ⟨.inr ⟨frame', r', hP, hdoes, hdone, hheld⟩, fun answer' harmed hok => ?_⟩
        obtain rfl := Option.some.inj harmed
        exact ⟨frame', r', hP, hdoes, hdone, hanswer.resolve_right (not_not.mpr hok)⟩

-- A frame that is not of the kind moves nothing but the answer.
theorem takes_other {w w' : Worker v} {frame : Frame} (hkey : v.key frame = none)
    (htakes : w.Takes frame w') :
    ∃ armed, w' = { w with armed := armed } := by
  cases htakes with
  | lost => exact ⟨none, rfl⟩
  | refused answer hstatus => exact ⟨some answer, rfl⟩
  | other answer hnone => exact ⟨some answer, rfl⟩
  | started k' r answer hkey' => simp [hkey] at hkey'
  | repeated k' r answer hkey' => simp [hkey] at hkey'

-- What a command that sends no frame of the kind can do to the bridge.
theorem retrying_unkeyed {w w' : Worker v} {cmd : Cmd} {reply : bridge.Reply cmd} (hcmd : cmd.Unkeyed v)
    (he : retrying v w cmd reply w') : w' = w.reset ∨ ∃ armed, w' = { w with armed := armed } := by
  have hsame (h : w' = w) : w' = w.reset ∨ ∃ armed, w' = { w with armed := armed } := .inr ⟨w.armed, h⟩
  cases cmd with
  | clock transfer frame =>
      cases transfer with
      | requestHeader =>
          obtain hlost | ⟨-, htakes⟩ := he
          · exact .inr ⟨none, hlost⟩
          · exact .inr (takes_other hcmd htakes)
      | requestPayload => exact .inr (takes_other hcmd he)
      | replyHeader => exact hsame he
  | collect frame => exact hsame he.1
  | write pin level =>
      cases level with
      | true => exact hsame he
      | false => exact .inl he
  | _ => exact hsame he

theorem Cmd.Upkeep.unkeyed (v : Service) {cmd : Cmd} (h : cmd.Upkeep) : cmd.Unkeyed v := by
  cases cmd with
  | clock transfer frame => exact v.upkeep frame h
  | collect frame => exact v.upkeep frame h
  | _ => trivial

theorem calling_unkeyed {w w' : Worker v} {cmd : Cmd} {reply : bridge.Reply cmd} (hcmd : cmd.Unkeyed v)
    (he : retrying v w cmd reply w') (h : Calling P k base w) : Calling P k base w' := by
  obtain rfl | ⟨armed, rfl⟩ := retrying_unkeyed hcmd he
  · exact calling_reset h
  · exact h

theorem done_unkeyed {w w' : Worker v} {cmd : Cmd} {reply : bridge.Reply cmd} (hcmd : cmd.Unkeyed v)
    (he : retrying v w cmd reply w') : w'.done = w.done := by
  obtain rfl | ⟨armed, rfl⟩ := retrying_unkeyed hcmd he <;> rfl

-- A program that sends no frame of the kind has nothing carried out.
theorem done_exec {α : Type} {p : Driver α} {out : Option α} {s s' : Link (Worker v)}
    (huses : p.Uses (Cmd.Unkeyed v)) (hcall : Exec (alone (retrying v)) s p out s') :
    s'.peer.done = s.peer.done := by
  have hkept : Preserves (alone (retrying v)) (Cmd.Unkeyed v) fun t => t.peer.done = s.peer.done :=
    fun t cmd reply t' hcmd he ht => (done_unkeyed hcmd he.2.2).trans ht
  exact (wp_sound hcall (wp_uses hkept huses rfl)).1

section Calls

variable {I : Ctx → Prop}

-- What looking after the link leaves alone in the context.
def Spare (I : Ctx → Prop) : Prop :=
  ∀ (ctx : Ctx) (cmd : Cmd) (reply : bridge.Reply cmd), cmd.Upkeep → I ctx → I (ctx.after cmd reply)

theorem upkept_calling (hI : Spare I) :
    Upkept (alone (retrying v)) fun s => I s.ctx ∧ Calling P k base s.peer := by
  rintro s cmd reply s' hcmd ⟨-, hctx, hpeer⟩ ⟨hspare, h⟩
  rw [hctx]
  exact ⟨hI s.ctx cmd reply hcmd hspare, calling_unkeyed (hcmd.unkeyed v) hpeer h⟩

-- A wait leaves the bridge alone.
theorem waited_worker (hI : Spare I) (J : Worker v → Prop) :
    Waited (alone (retrying v)) fun s => I s.ctx ∧ J s.peer := by
  rintro s cmd reply s' hcmd ⟨-, hctx, hpeer⟩ ⟨hspare, h⟩
  have hsame : s'.peer = s.peer := by
    cases cmd with
    | clock transfer frame => exact hcmd.elim
    | collect frame => exact hcmd.elim
    | write pin level => exact hcmd.elim
    | _ => exact hpeer
  rw [hctx, hsame]
  exact ⟨hI s.ctx cmd reply hcmd.upkeep hspare, h⟩

theorem wp_exchangeCalling (hI : Spare I) {frame : Frame} (hframe : P frame) (hkey : v.key frame = some k)
    (rxCap : Nat) {s : Link (Worker v)} (h : I s.ctx ∧ Calling P k base s.peer) :
    wp (alone (retrying v)) (fun s => I s.ctx ∧ Calling P k base s.peer) (requestLocked frame rxCap)
      (fun answer s' => answer.status = .ok () → Brings P base rxCap answer.data s'.peer) s := by
  refine wp_exchange_armed (A := fun s => I s.ctx ∧ Waiting P k base s.peer)
    (G := fun data s => Brings P base rxCap data s.peer) (waited_worker hI _) (fun s h => ⟨h.1, h.2.1⟩)
    ?_ ?_ ?_ h
  · rintro s err s' ⟨hspare, h⟩ ⟨-, hctx, he⟩
    refine ⟨hctx ▸ hspare, ?_⟩
    obtain hlost | ⟨-, htakes⟩ := he
    · rw [hlost]
      exact ⟨h, nofun⟩
    · exact waiting_takes hframe hkey h htakes
  · rintro s transfer err s' ⟨hspare, h⟩ ⟨-, hctx, he⟩
    refine ⟨hctx ▸ hspare, ?_⟩
    cases transfer with
    | requestHeader =>
        obtain hlost | ⟨-, htakes⟩ := he
        · rw [hlost]
          exact ⟨h.1, nofun⟩
        · exact waiting_takes hframe hkey h.1 htakes
    | requestPayload => exact waiting_takes hframe hkey h.1 he
    | replyHeader => exact Eq.subst (motive := Waiting P k base) (Eq.symm he) h
  · rintro s reply s' ⟨hspare, h⟩ ⟨-, hctx, hsame, harmed⟩
    rw [hsame]
    refine ⟨⟨hctx ▸ hspare, h.1⟩, ?_⟩
    rintro answer rfl hok
    exact ⟨answer, hok, h.2 answer (harmed answer rfl hok) hok, rfl⟩

theorem waited_brings (hI : Spare I) (rxCap : Nat) (data : List UInt8) :
    Waited (alone (retrying v)) fun s => (I s.ctx ∧ Calling P k base s.peer) ∧ Brings P base rxCap data s.peer := by
  have hboth := waited_worker hI fun w : Worker v => Calling P k base w ∧ Brings P base rxCap data w
  rintro s cmd reply s' hcmd he ⟨⟨hspare, h⟩, hbrings⟩
  obtain ⟨hspare', h', hbrings'⟩ := hboth s cmd reply s' hcmd he ⟨hspare, h, hbrings⟩
  exact ⟨⟨hspare', h'⟩, hbrings'⟩

-- The retries of one frame: the command is carried out at most once, and ALP_OK comes with its
-- reply.
theorem wp_retriedAttempts (cfg : Config) (hI : Spare I) {attempt : Driver Answer} (rxCap : Nat)
    (hattempt : ∀ s : Link (Worker v), I s.ctx ∧ Calling P k base s.peer →
      wp (alone (retrying v)) (fun s => I s.ctx ∧ Calling P k base s.peer) attempt
        (fun answer s' => answer.status = .ok () → Brings P base rxCap answer.data s'.peer) s)
    (len : Nat) (timeoutMs : UInt32) (handle : Option UInt16) {s : Link (Worker v)}
    (h : I s.ctx ∧ Calling P k base s.peer) :
    wp (alone (retrying v)) (fun s => I s.ctx ∧ Calling P k base s.peer)
      (pollAttempts cfg len attempt timeoutMs handle)
      (fun out s' => out.1 = .ok () → Brings P base rxCap out.2 s'.peer) s := by
  refine wp_mono (wp_pollAttempts cfg (G := fun data s => Brings P base rxCap data s.peer) (waited_worker hI _)
    (fun _ h => h) (exits_upkept cfg (upkept_calling hI)) (fun data => waited_brings hI rxCap data)
    (fun s h => ?_) len timeoutMs handle h) fun _ _ _ h => h.ok
  exact wp_mono (hattempt s h) fun _ _ hs' hanswer => ⟨hanswer, fun _ => hs'⟩

theorem wp_retried (cfg : Config) (hI : Spare I) {frame : Frame} (hframe : P frame)
    (hkey : v.key frame = some k) (rxCap : Nat) (timeoutMs : UInt32) (handle : Option UInt16)
    {s : Link (Worker v)} (h : I s.ctx ∧ Calling P k base s.peer) :
    wp (alone (retrying v)) (fun s => I s.ctx ∧ Calling P k base s.peer)
      (pollByRepeatSeq cfg frame rxCap timeoutMs handle)
      (fun out s' => out.1 = .ok () → Brings P base rxCap out.2 s'.peer) s :=
  wp_retriedAttempts cfg hI rxCap (fun _ h => wp_exchangeCalling hI hframe hkey rxCap h) _ timeoutMs handle h

-- The same of a frame that stands in `sock_buf`.
theorem wp_retriedStaged (cfg : Config) (hI : Spare I) {cmd : Opcode} {seq : UInt8} {len : Nat}
    {payload : List UInt8} (hlen : payload.length = len) (hbuf : ∀ ctx, I ctx → ctx.sockBuf.take len = payload)
    (hframe : P ⟨cmd, payload, seq⟩) (hkey : v.key ⟨cmd, payload, seq⟩ = some k) (rxCap : Nat)
    (timeoutMs : UInt32) (handle : Option UInt16) {s : Link (Worker v)}
    (h : I s.ctx ∧ Calling P k base s.peer) :
    wp (alone (retrying v)) (fun s => I s.ctx ∧ Calling P k base s.peer)
      (pollAttempts cfg len (exchange cmd seq len (staged len) rxCap) timeoutMs handle)
      (fun out s' => out.1 = .ok () → Brings P base rxCap out.2 s'.peer) s := by
  refine wp_retriedAttempts cfg hI rxCap (fun s h => ?_) len timeoutMs handle h
  refine wp_exchangeStaged hlen ?_ (wp_exchangeCalling hI hframe hkey rxCap h)
  rintro ⟨ctx, w⟩ buf ⟨ctx', w'⟩ ⟨hspare, -⟩ ⟨hbuf', hctx, hpeer⟩
  obtain rfl : ctx' = ctx := hctx
  obtain rfl : w' = w := hpeer
  obtain rfl : buf = ctx'.sockBuf := hbuf'
  exact ⟨rfl, hbuf ctx' hspare⟩

end Calls

end Rules

section Busy

variable {v : Service} [DecidableEq v.Key] (work : Frame → v.Result) (answer : v.Result → Answer)

-- A bridge that answers BUSY to the first frame of a command.
def Worker.busyFirst (w : Worker v) (frame : Frame) : Worker v :=
  match v.key frame with
  | none => { w with armed := none }
  | some k =>
      if w.live = false then { w with armed := none }
      else if w.held.map Prod.fst = some k then { w with armed := w.held.map fun kept => answer kept.2 }
      else
        { w with
          held := some (k, work frame)
          done := (frame, work frame) :: w.done
          armed := some ⟨.error .busy, 0, []⟩ }

def busyMove (w : Worker v) : Cmd → Worker v
  | .clock .requestHeader frame =>
      if frame.payload = [] then w.busyFirst work answer frame else { w with armed := none }
  | .clock .requestPayload frame => w.busyFirst work answer frame
  | .write _ false => w.reset
  | _ => w

def busyWorker : Memory bridge (Link (Worker v)) :=
  Link.memory (fun w _ => w.armed.elim (.error .io) .ok) (busyMove work answer)

variable {work answer}

theorem takes_busyFirst (hwork : ∀ frame, v.Does frame (work frame))
    (hanswer : ∀ r, v.Says r (answer r) ∨ (answer r).status ≠ .ok ()) (w : Worker v) (frame : Frame) :
    w.Takes frame (w.busyFirst work answer frame) := by
  unfold Worker.busyFirst
  cases hkey : v.key frame with
  | none => exact .lost w
  | some k =>
      dsimp only
      by_cases hdown : w.live = false
      · rw [if_pos hdown]
        exact .lost w
      rw [if_neg hdown]
      have hlive : w.live = true := Bool.not_eq_false _ ▸ hdown
      by_cases hfound : w.held.map Prod.fst = some k
      · rw [if_pos hfound]
        obtain ⟨⟨k, r⟩, hheld, rfl⟩ := Option.map_eq_some_iff.mp hfound
        have harmed : (w.held.map fun kept => answer kept.2) = some (answer r) := by
          rw [hheld]
          rfl
        rw [harmed]
        exact .repeated w k r _ hkey hlive hheld (hanswer r)
      · rw [if_neg hfound]
        refine .started w k _ _ hkey hlive (fun r hheld => hfound ?_) (hwork frame) (.inr nofun)
        rw [hheld]
        rfl

theorem exec_busyWorker {α : Type} {p : Driver α} {value : α} {s s' : Link (Worker v)}
    (hwork : ∀ frame, v.Does frame (work frame))
    (hanswer : ∀ r, v.Says r (answer r) ∨ (answer r).status ≠ .ok ())
    (h : solo (busyWorker work answer) p s = some (value, s')) :
    Exec (alone (retrying v)) s p (some value) s' := by
  refine exec_memory (fun ctx w cmd reply hreply => ?_) h
  cases cmd with
  | clock transfer frame =>
      have htakes := takes_busyFirst hwork hanswer w frame
      cases transfer with
      | requestHeader =>
          by_cases hempty : frame.payload = []
          · exact .inr ⟨hempty, by simpa [busyMove, hempty] using htakes⟩
          · exact .inl (by simp [busyMove, hempty])
      | requestPayload => exact htakes
      | replyHeader => rfl
  | collect frame =>
      refine ⟨rfl, fun full hfull _ => ?_⟩
      rw [hfull] at hreply
      simp only [Shared.answer, Option.some.injEq] at hreply
      cases harmed : w.armed with
      | none => simp [harmed] at hreply
      | some armed =>
          rw [harmed] at hreply
          cases hreply
          rfl
  | write pin level => cases level <;> rfl
  | _ => rfl

end Busy

end AlpSdk.Cc3501e
