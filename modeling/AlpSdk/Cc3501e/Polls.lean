import AlpSdk.Cc3501e.Retry
import AlpSdk.Cc3501e.Stream

-- The commands that go to the worker of the bridge, retried under the seq of their header.
namespace AlpSdk.Cc3501e

open Library.Effect Library.Interleave

-- The opcodes that the bridge hands to its worker.
structure Routing where
  routed : Opcode → Bool
  upkeep : ∀ op, op.upkeep = true → routed op = false

-- The retry latch of the header seq: an opcode and a seq identify a command, and its reply is
-- kept whole.
abbrev Routing.service (g : Routing) : Service where
  Key := Opcode × UInt8
  Result := Answer
  key := fun frame =>
    if g.routed frame.cmd = true ∧ frame.seq ≠ REQ_SEQ_NONE then some (frame.cmd, frame.seq) else none
  Does := fun _ _ => True
  Says := fun r answer => answer = r
  upkeep := fun frame h => if_neg fun hrouted => by simp [g.upkeep frame.cmd h] at hrouted

-- The reply that the bridge holds is to one of the last thirty commands.
def Recent {g : Routing} (s : Link (Worker g.service)) : Prop :=
  ∀ op seq r, s.peer.held = some ((op, seq), r) → ∃ m < 30, candidateSeq^[m] seq = s.ctx.reqSeq

structure Poll where
  cmd : Opcode
  payload : List UInt8
  rxCap : Nat
  timeoutMs : UInt32

def Poll.program (cfg : Config) (poll : Poll) : Driver (Status × List UInt8) :=
  pollByRepeat cfg poll.cmd poll.payload poll.rxCap poll.timeoutMs

-- One command after another, latest first, each with what it returned, if it has returned, and
-- anything else that sends no such frame. The bridge starts again between two commands only: one
-- that a command finds down, or resets, stays down until that command is over.
inductive Polls (g : Routing) (cfg : Config) (s : Link (Worker g.service)) :
    List (Poll × Option (Status × List UInt8)) → Link (Worker g.service) → Prop where
  | start : Polls g cfg s [] s
  | poll {calls : List (Poll × Option (Status × List UInt8))} {s' s'' : Link (Worker g.service)}
      {out : Option (Status × List UInt8)} (poll : Poll) (hbefore : Polls g cfg s calls s')
      (hrouted : g.routed poll.cmd = true) (hrecent : Recent s')
      (hcall : Exec (alone (retrying g.service)) s' (poll.program cfg) out s'') :
      Polls g cfg s ((poll, out) :: calls) s''
  | other {calls : List (Poll × Option (Status × List UInt8))} {s' s'' : Link (Worker g.service)} {α : Type}
      {p : Driver α} {out : Option α} (hbefore : Polls g cfg s calls s')
      (huses : p.Uses (Cmd.Unkeyed g.service)) (hcall : Exec (alone (retrying g.service)) s' p out s'') :
      Polls g cfg s calls s''
  | booted {calls : List (Poll × Option (Status × List UInt8))} {s' : Link (Worker g.service)}
      (hbefore : Polls g cfg s calls s') : Polls g cfg s calls { s' with peer := s'.peer.boot }

-- What the worker did for one command: nothing or one execution, and for a command that returned
-- ALP_OK the execution whose reply it returned.
def Answered (call : Poll × Option (Status × List UInt8)) (part : List (Frame × Answer)) : Prop :=
  (part = [] ∨ ∃ seq r, part = [(⟨call.1.cmd, call.1.payload, seq⟩, r)]) ∧
    ∀ data, call.2 = some (.ok (), data) → ∃ seq r, part = [(⟨call.1.cmd, call.1.payload, seq⟩, r)] ∧
      r.status = .ok () ∧ data = r.data.take call.1.rxCap

section Seq

theorem candidateSeq_mem (seq : UInt8) : 1 ≤ (candidateSeq seq).toNat ∧ (candidateSeq seq).toNat ≤ 31 := by
  have hlt := seq.toNat_lt
  have hone : (1 : UInt8).toNat = 1 := rfl
  unfold candidateSeq
  split
  next h => decide
  next h =>
      rw [REQ_SEQ_LAST, UInt8.le_iff_toNat_le, show (31 : UInt8).toNat = 31 from rfl] at h
      rw [UInt8.toNat_add, hone]
      omega

-- The seqs go round in a circle of thirty-one.
theorem toNat_candidateSeq {seq : UInt8} (h : 1 ≤ seq.toNat ∧ seq.toNat ≤ 31) :
    (candidateSeq seq).toNat = seq.toNat % 31 + 1 := by
  have hone : (1 : UInt8).toNat = 1 := rfl
  unfold candidateSeq
  split
  next hle =>
      rw [REQ_SEQ_LAST, UInt8.le_iff_toNat_le, show (31 : UInt8).toNat = 31 from rfl] at hle
      rw [hone]
      omega
  next hlt =>
      rw [REQ_SEQ_LAST, UInt8.le_iff_toNat_le, show (31 : UInt8).toNat = 31 from rfl] at hlt
      rw [UInt8.toNat_add, hone]
      omega

theorem toNat_iterate_candidateSeq {seq : UInt8} (h : 1 ≤ seq.toNat ∧ seq.toNat ≤ 31) (m : Nat) :
    (candidateSeq^[m] seq).toNat = (seq.toNat - 1 + m) % 31 + 1 := by
  induction m with
  | zero =>
      rw [Function.iterate_zero_apply]
      omega
  | succ m ih =>
      have hmem : 1 ≤ (candidateSeq^[m] seq).toNat ∧ (candidateSeq^[m] seq).toNat ≤ 31 := by omega
      rw [Function.iterate_succ_apply', toNat_candidateSeq hmem, ih]
      omega

theorem iterate_candidateSeq_ne {seq : UInt8} (h : 1 ≤ seq.toNat ∧ seq.toNat ≤ 31) {m : Nat} (hpos : 0 < m)
    (hlt : m < 31) : candidateSeq^[m] seq ≠ seq := by
  intro heq
  have hnat := congrArg UInt8.toNat heq
  rw [toNat_iterate_candidateSeq h] at hnat
  omega

end Seq

section Call

variable {g : Routing} {cfg : Config} {s s' : Link (Worker g.service)}

theorem fresh_of_recent (hrecent : Recent s) (op : Opcode) (r : Answer) :
    s.peer.held ≠ some ((op, candidateSeq s.ctx.reqSeq), r) := by
  intro hheld
  obtain ⟨m, hm, hback⟩ := hrecent op _ r hheld
  have hround : candidateSeq^[m + 1] (candidateSeq s.ctx.reqSeq) = candidateSeq s.ctx.reqSeq := by
    rw [Function.iterate_succ_apply', hback]
  exact iterate_candidateSeq_ne (candidateSeq_mem _) (Nat.succ_pos m) (by omega) hround

-- The frames of one command.
def Poll.frames (poll : Poll) (frame : Frame) : Prop := frame.cmd = poll.cmd ∧ frame.payload = poll.payload

theorem key_routed {poll : Poll} (hrouted : g.routed poll.cmd = true) (seq : UInt8) :
    g.service.key ⟨poll.cmd, poll.payload, candidateSeq seq⟩ = some (poll.cmd, candidateSeq seq) := by
  refine if_pos ⟨hrouted, fun hzero => ?_⟩
  have hmem := candidateSeq_mem seq
  rw [show candidateSeq seq = REQ_SEQ_NONE from hzero] at hmem
  exact absurd hmem.1 (by decide)

def Done (poll : Poll) (base : List (Frame × Answer)) (w : Worker g.service) : Prop :=
  w.done = base ∨ ∃ seq r, w.done = (⟨poll.cmd, poll.payload, seq⟩, r) :: base

theorem done_of_calling {poll : Poll} {k : g.service.Key} {base : List (Frame × Answer)}
    {w : Worker g.service}
    (h : Calling poll.frames k base w) : Done poll base w := by
  obtain ⟨hdone, -⟩ | ⟨⟨cmd, payload, seq⟩, r, ⟨rfl, rfl⟩, -, hdone, -⟩ := h
  · exact .inl hdone
  · exact .inr ⟨seq, r, hdone⟩

-- One command from a state in which its seq is new to the bridge.
theorem wp_poll (poll : Poll) (hrouted : g.routed poll.cmd = true) (hrecent : Recent s) :
    wp (alone (retrying g.service)) (fun s' => Done poll s.peer.done s'.peer) (poll.program cfg)
      (fun out s' => out.1 = .ok () →
        Brings (v := g.service) poll.frames s.peer.done poll.rxCap out.2 s'.peer) s := by
  have hsame {s' : Link (Worker g.service)} (hpeer : s'.peer = s.peer) : Done poll s.peer.done s'.peer :=
    .inl (by rw [hpeer])
  refine wp_bind ⟨hsame rfl, fun ready s₁ hready => ?_⟩
  have hpeer₁ : s₁.peer = s.peer := hready.2.2
  have hctx₁ : s₁.ctx = s.ctx := hready.2.1
  cases ready with
  | false =>
      refine ⟨hsame hpeer₁, hsame hpeer₁, fun ready s₂ hready₂ => ?_⟩
      have hpeer₂ : s₂.peer = s.peer := Eq.trans hready₂.2.2 hpeer₁
      obtain rfl : ready = false := by
        rw [show ready = s₁.ctx.initialised from hready₂.1, hctx₁]
        exact hready.1.symm
      exact ⟨hsame hpeer₂, nofun⟩
  | true =>
      refine ⟨hsame hpeer₁, fun seq s₂ hread => ?_⟩
      have hpeer₂ : s₂.peer = s.peer := Eq.trans hread.2.2 hpeer₁
      refine ⟨hsame hpeer₂, fun _ s₃ hwrite => ?_⟩
      have hpeer₃ : s₃.peer = s.peer := Eq.trans hwrite.2.2 hpeer₂
      refine ⟨hsame hpeer₃, fun seq' s₄ hread₄ => ?_⟩
      have hpeer₄ : s₄.peer = s.peer := Eq.trans hread₄.2.2 hpeer₃
      obtain rfl : seq' = candidateSeq s.ctx.reqSeq := by
        rw [show seq' = s₃.ctx.reqSeq from hread₄.1, hwrite.2.1, ← hctx₁]
        exact congrArg candidateSeq hread.1
      refine ⟨hsame hpeer₄, ?_⟩
      have hfresh : Calling (v := g.service) poll.frames (poll.cmd, candidateSeq s.ctx.reqSeq) s.peer.done
          s₄.peer := by
        rw [hpeer₄]
        exact .inl ⟨rfl, fun _ r => fresh_of_recent hrecent poll.cmd r⟩
      have hretried := wp_retried (v := g.service) cfg (I := fun _ => True) (P := poll.frames)
        (fun _ _ _ _ _ => trivial) ⟨rfl, rfl⟩ (key_routed hrouted s.ctx.reqSeq) poll.rxCap poll.timeoutMs none
        ⟨trivial, hfresh⟩
      exact wp_mono (wp_relax hretried fun _ h => done_of_calling h.2) fun _ _ _ h => h.2

end Call

section Run

variable {g : Routing} {cfg : Config} {s s' : Link (Worker g.service)}

theorem part_of_done {poll : Poll} {base : List (Frame × Answer)} {w : Worker g.service}
    (h : Done poll base w) :
    ∃ part : List (Frame × Answer), w.done = part ++ base ∧
      (part = [] ∨ ∃ seq r, part = [(⟨poll.cmd, poll.payload, seq⟩, r)]) := by
  obtain hnone | ⟨seq, r, hlog⟩ := h
  · exact ⟨[], hnone, .inl rfl⟩
  · exact ⟨[(⟨poll.cmd, poll.payload, seq⟩, r)], hlog, .inr ⟨seq, r, rfl⟩⟩

theorem answered_of_brings {poll : Poll} {base : List (Frame × Answer)}
    {out : Option (Status × List UInt8)} {w : Worker g.service} (hdone : Done poll base w)
    (hbrings : ∀ data, out = some (.ok (), data) →
      Brings (v := g.service) poll.frames base poll.rxCap data w) :
    ∃ part : List (Frame × Answer), w.done = part ++ base ∧ Answered (poll, out) part := by
  obtain ⟨part, hlog, hpart⟩ := part_of_done hdone
  refine ⟨part, hlog, hpart, fun data hout => ?_⟩
  obtain ⟨full, hstatus, ⟨⟨cmd, payload, seq⟩, r, ⟨rfl, rfl⟩, -, hlog', rfl⟩, hdata⟩ := hbrings data hout
  exact ⟨seq, full, List.append_cancel_right (hlog.symm.trans hlog'), hstatus, hdata⟩

-- The worker does the commands of a run in order, each at most once, and each that returns ALP_OK
-- exactly once, with its own reply.
theorem polls_once {calls : List (Poll × Option (Status × List UInt8))} (hrun : Polls g cfg s calls s') :
    ∃ parts, s'.peer.done = parts.flatten ++ s.peer.done ∧ List.Forall₂ Answered calls parts := by
  induction hrun with
  | start => exact ⟨[], rfl, .nil⟩
  | poll poll _ hrouted hrecent hcall ih =>
      obtain ⟨parts, hlog, hparts⟩ := ih
      obtain ⟨hdone, hbrings⟩ := wp_sound hcall (wp_poll poll hrouted hrecent)
      obtain ⟨part, hpart, hanswered⟩ := answered_of_brings hdone fun data hout => hbrings _ hout rfl
      refine ⟨part :: parts, ?_, .cons hanswered hparts⟩
      rw [hpart, hlog, List.flatten_cons, List.append_assoc]
  | @other calls s' s'' α p out _ huses hcall ih =>
      obtain ⟨parts, hlog, hparts⟩ := ih
      exact ⟨parts, (done_exec huses hcall).trans hlog, hparts⟩
  | booted _ ih => exact ih

-- The socket calls that take their seq from the header.
def socketCalls : Routing where
  routed op := [.sockOpen, .sockConnect, .sockBind, .sockListen, .sockClose].contains op
  upkeep op h := by cases op <;> simp_all [Opcode.upkeep]

def idleWorker : Link (Worker socketCalls.service) := ⟨bootedCtx, ⟨true, none, [], none⟩⟩

-- The n-th command gets the handle n.
def numbering : Memory bridge (Link (Worker socketCalls.service)) :=
  busyWorker (v := socketCalls.service) (fun frame => ⟨.ok (), 0, [frame.seq, 0, 0, 0]⟩) id

theorem exec_numbering {α : Type} {p : Driver α} {value : α} {s s' : Link (Worker socketCalls.service)}
    (h : solo numbering p s = some (value, s')) : Exec (alone (retrying socketCalls.service)) s p (some value) s' :=
  exec_busyWorker (fun _ => trivial) (fun _ => .inl rfl) h

-- Two sockets, TCP and UDP.
def openTcp : Poll := ⟨.sockOpen, [2, 1, 6, 0], 4, 1000⟩

def openUdp : Poll := ⟨.sockOpen, [2, 2, 17, 0], 4, 1000⟩

def twoOpens : List (Poll × Option (Status × List UInt8)) :=
  [(openUdp, some (.ok (), [2, 0, 0, 0])), (openTcp, some (.ok (), [1, 0, 0, 0]))]

-- The bridge is restarted between the two, and its worker is busy at the first frame of each.
theorem polls_once_busy :
    ∃ s, Polls socketCalls board idleWorker twoOpens s ∧
      ∃ parts, s.peer.done = parts.flatten ++ idleWorker.peer.done ∧ List.Forall₂ Answered twoOpens parts := by
  have hfirst : ((solo numbering (openTcp.program board) idleWorker).map Prod.fst) =
      some (.ok (), [1, 0, 0, 0]) := by decide +kernel
  have hsecond : (((solo numbering (openTcp.program board) idleWorker).bind
      fun out => solo numbering (openUdp.program board) { out.2 with peer := out.2.peer.boot }).map Prod.fst) =
        some (.ok (), [2, 0, 0, 0]) := by decide +kernel
  obtain ⟨⟨out, s⟩, hone, rfl⟩ := Option.map_eq_some_iff.mp hfirst
  rw [hone] at hsecond
  obtain ⟨⟨out', s'⟩, htwo, rfl⟩ := Option.map_eq_some_iff.mp hsecond
  have hstart : Recent idleWorker := fun op seq r => nofun
  have hrestarted : Recent { s with peer := s.peer.boot } := fun op seq r => nofun
  have hfirstRun := Polls.poll openTcp .start rfl hstart (exec_numbering hone)
  have hrun := Polls.poll openUdp (.booted hfirstRun) rfl hrestarted (exec_numbering htwo)
  exact ⟨s', hrun, polls_once hrun⟩

end Run

end AlpSdk.Cc3501e
