import AlpSdk.Gd32.Upholds

-- The bridge at the other end of the SPI link, as docs/gd32-bridge-protocol.md describes it, with
-- a record of what each transfer did to it.
namespace AlpSdk.Gd32

open Library.Bytes Library.Local
open Library.Effect (Signature Env Exec)

-- The stamps and the status codes have four bits.
instance sixteenStamps : NeZero 16 := ⟨Nat.succ_ne_zero 15⟩

def nibble (n : Fin 16) : UInt8 := UInt8.ofNat n.val

def statusByte (stamp code : Fin 16) : UInt8 := UInt8.ofNat (16 * stamp.val + code.val)

structure Staged where
  stamp : Fin 16
  code : Fin 16
  payload : List UInt8

def Staged.frame (r : Staged) : List UInt8 := replyFrame (statusByte r.stamp r.code) r.payload

-- What became of one transfer: how often the bridge executed its request, and, once the host
-- has accepted a reply, whether that reply was the bridge's answer to it. `clear` says that no
-- answer to it could be taken for the last accepted reply.
structure Record where
  x : Xfer
  clear : Bool
  executed : Nat
  accepted : Option Bool

-- The counter and what is staged, then what only the record needs: whether the staged reply
-- answers the transfer under way, whether the last read returned it, whether it is the last one
-- accepted, and whether the bridge has reset since the last acceptance.
structure Bridge where
  counter : Fin 16
  stamping : Bool
  staged : Option Staged
  own : Bool
  served : Bool
  current : Bool
  resetSince : Bool
  log : List Record

-- A request of this transfer would be answered with the stamp accepted last: the bridge has
-- decoded fifteen requests, modulo sixteen, whose replies the host did not accept.
def ambiguous (c : Ctx) (b : Bridge) : Bool :=
  c.seqEnabled && b.stamping && c.seqLast != 0 && nibble (b.counter + 1) == c.seqLast

namespace Bridge

variable (b : Bridge)

def reset : Bridge where
  counter := 0
  stamping := false
  staged := none
  own := false
  served := false
  current := false
  resetSince := true
  log := b.log

-- LINK_FEATURES arms what it grants before the reply is staged.
def decode (frame : List UInt8) (code : Fin 16) (payload : List UInt8) : Bridge :=
  let stamping :=
    if frame.getD 1 0 = CMD_LINK_FEATURES ∧ code = 0 then payload.getD 0 0 &&& 1 != 0 else b.stamping
  { b with
    counter := b.counter + 1
    stamping := stamping
    staged := some ⟨if stamping then b.counter + 1 else 0, code, payload⟩
    own := true
    served := false
    current := false
    log := b.log.modifyHead fun r => { r with executed := r.executed + 1 } }

def started (c : Ctx) (x : Xfer) : Bridge :=
  { b with own := false, served := false, log := ⟨x, !ambiguous c b, 0, none⟩ :: b.log }

def taken : Bridge :=
  { b with
    current := b.served
    resetSince := false
    log := b.log.modifyHead fun r => { r with accepted := some (b.served && b.own) } }

-- A reset may come before any transaction.
def MayReset (b' : Bridge) : Prop := b' = b ∨ b' = b.reset

end Bridge

-- LINK_FEATURES is granted as far as STATUS_SEQ goes, or refused; everything else is answered
-- with any status and any payload.
def Answers (frame : List UInt8) (code : Fin 16) (payload : List UInt8) : Prop :=
  frame.getD 1 0 = CMD_LINK_FEATURES → code = 0 →
    payload ≠ [] ∧ payload.getD 0 0 &&& 1 = frame.getD 2 0 &&& 1

-- Bytes that the transfer under way does not take for a reply.
def Unreadable (b : Bridge) (len : Nat) (bytes : List UInt8) : Prop :=
  ∀ r, b.log.head? = some r → inspect r.x (clocked len bytes) = .miss

def bridgeStep (c : Ctx) (b : Bridge) : (cmd : BusCmd) → BusCmd.Reply cmd → Bridge → Prop
  | .begin x, _, b' => b' = b.started c x
  | .accept, _, b' => b' = b.taken
  -- lost whole, or decoded and executed
  | .spiWrite frame, _, b' => ∃ b₁, b.MayReset b₁ ∧
      (b' = b₁ ∨ ∃ code payload, Answers frame code payload ∧ b' = b₁.decode frame code payload)
  | .spiRead _, .error _, b' => ∃ b₁, b.MayReset b₁ ∧ b' = { b₁ with served := false }
  -- the staged reply and filler after it, or nothing readable
  | .spiRead len, .ok bytes, b' => ∃ b₁, b.MayReset b₁ ∧
      ((∃ r filler, b₁.staged = some r ∧ bytes = r.frame ++ filler ∧ b' = { b₁ with served := true }) ∨
        (Unreadable b₁ len bytes ∧ b' = { b₁ with served := false }))
  | .i2cWriteRead _ _ _, _, b' => b.MayReset b'
  | .attnReadLevel, _, b' | .attnWait _, _, b' | .attnDrain, _, b' | .attnNow, _, b'
  | .uptimeMs, _, b' => b' = b

def bridge : Env (issuing busSig Ctx) Bridge := fun b i reply b' => bridgeStep i.state b i.cmd reply b'

theorem quiet_bridge : Quiet bridge := by
  intro b c cmd reply b' hcmd henv
  cases cmd with
  | attnReadLevel => exact henv
  | attnWait timeoutMs => exact henv
  | attnDrain => exact henv
  | attnNow => exact henv
  | uptimeMs => exact henv
  | _ => cases hcmd

theorem stamp_statusByte (stamp code : Fin 16) : statusByte stamp code >>> 4 = nibble stamp := by
  revert stamp code
  decide +kernel

theorem code_statusByte (stamp code : Fin 16) : statusByte stamp code &&& STATUS_CODE_MASK = nibble code := by
  revert stamp code
  decide +kernel

theorem nibble_injective {m n : Fin 16} (h : nibble m = nibble n) : m = n := by
  revert m n
  decide +kernel

-- The status byte of a served reply is the bridge's.
theorem status_served (r : Staged) (filler : List UInt8) {len : Nat} (hlen : 2 ≤ len) :
    (clocked len (r.frame ++ filler)).getD 1 0 = statusByte r.stamp r.code := by
  obtain ⟨n, rfl⟩ := Nat.exists_eq_add_of_le hlen
  rw [Nat.add_comm]
  simp [clocked, Staged.frame, replyFrame]

theorem inspect_full {x : Xfer} {reply : List UInt8} {status : UInt8} {plen : Nat}
    (h : inspect x reply = .full status plen) : status = reply.getD 1 0 := by
  unfold inspect errorEnvelope at h
  grind

theorem inspect_envelope {x : Xfer} {reply : List UInt8} {status : UInt8}
    (h : inspect x reply = .envelope status) :
    status = reply.getD 1 0 ∧ reply.getD 1 0 &&& STATUS_CODE_MASK ≠ 0 := by
  unfold inspect errorEnvelope at h
  grind

theorem settle_miss {x : Xfer} {c : Ctx} {reply : List UInt8} (h : inspect x reply = .miss) :
    settle x c reply = .lost := by
  unfold settle
  rw [h]

-- The stamp of a reply, and whether it is one that is taken as the baseline without a comparison.
def stampOf (reply : List UInt8) : UInt8 := reply.getD 1 0 >>> 4

def Rebases (x : Xfer) (reply : List UInt8) : Prop :=
  x.cmd = CMD_LINK_FEATURES ∧ reply.getD 1 0 &&& STATUS_CODE_MASK = 0 ∧ 1 ≤ x.replyMax

-- How a sequenced host comes to each verdict.
def Judged (x : Xfer) (c : Ctx) (reply : List UInt8) : Outcome → Prop
  | .deliver c' _ => c'.seqLast = stampOf reply ∧
      ((Rebases x reply ∧ c'.seqEnabled = (reply.getD 2 0 &&& 1 != 0)) ∨
        (¬Rebases x reply ∧ c'.seqEnabled = true ∧ spiSeqClassify c (stampOf reply) = .fresh))
  | .firmware c' _ _ => c'.seqLast = stampOf reply ∧ ¬Rebases x reply ∧ c'.seqEnabled = true ∧
      spiSeqClassify c (stampOf reply) = .fresh
  | .lost => inspect x reply = .miss
  | .stale => ¬Rebases x reply ∧ spiSeqClassify c (stampOf reply) = .stale
  | .reset => ¬Rebases x reply ∧ spiSeqClassify c (stampOf reply) = .reset

theorem judged_full {x : Xfer} {c : Ctx} {reply : List UInt8} {status : UInt8} {plen : Nat}
    (hseq : c.seqEnabled = true) (h : inspect x reply = .full status plen) :
    Judged x c reply (settleFull x c reply status plen) := by
  have hstatus := inspect_full h
  subst hstatus
  unfold settleFull
  simp only [hseq, if_true]
  split
  · rename_i hlf
    rw [if_pos hlf.2.1]
    exact ⟨rfl, .inl ⟨hlf, rfl⟩⟩
  · rename_i hlf
    split
    · rename_i hclass
      exact ⟨hlf, hclass⟩
    · rename_i hclass
      exact ⟨hlf, hclass⟩
    · rename_i hclass
      split
      · exact ⟨rfl, .inr ⟨hlf, rfl, hclass⟩⟩
      · exact ⟨rfl, hlf, rfl, hclass⟩

theorem judged_envelope {x : Xfer} {c : Ctx} {reply : List UInt8} {status : UInt8}
    (hseq : c.seqEnabled = true) (h : inspect x reply = .envelope status) :
    Judged x c reply (settleEnvelope c status) := by
  obtain ⟨hstatus, herror⟩ := inspect_envelope h
  subst hstatus
  have hlf : ¬Rebases x reply := fun hlf => herror hlf.2.1
  unfold settleEnvelope
  simp only [hseq, if_true]
  split
  · rename_i hclass
    exact ⟨hlf, hclass⟩
  · rename_i hclass
    exact ⟨hlf, hclass⟩
  · rename_i hclass
    exact ⟨rfl, hlf, rfl, hclass⟩

theorem judged_settle (x : Xfer) {c : Ctx} (reply : List UInt8) (hseq : c.seqEnabled = true) :
    Judged x c reply (settle x c reply) := by
  unfold settle
  split
  · rename_i hmiss
    exact hmiss
  · rename_i hfull
    exact judged_full hseq hfull
  · rename_i henvelope
    exact judged_envelope hseq henvelope

theorem classify_stale {c : Ctx} {stamp : UInt8} (h : spiSeqClassify c stamp = .stale) :
    stamp = c.seqLast ∧ c.seqLast ≠ 0 := by
  unfold spiSeqClassify at h
  grind

-- A stale verdict is on a stamp that is the last accepted one and not zero.
theorem settle_stale {x : Xfer} {c : Ctx} {reply : List UInt8} (h : settle x c reply = .stale) :
    c.seqEnabled = true ∧ stampOf reply = c.seqLast ∧ c.seqLast ≠ 0 := by
  have hseq := settle_spec x c reply
  rw [h] at hseq
  have hjudged := judged_settle x reply hseq
  rw [h] at hjudged
  exact ⟨hseq, classify_stale hjudged.2⟩

theorem stampOf_served (r : Staged) (filler : List UInt8) {len : Nat} (hlen : 2 ≤ len) :
    stampOf (clocked len (r.frame ++ filler)) = nibble r.stamp := by
  unfold stampOf
  rw [status_served r filler hlen]
  exact stamp_statusByte r.stamp r.code

-- A bridge that does one thing with every request and one with every read, and whose ATTN line
-- never moves.
def playing (write : List UInt8 → Bridge → Bridge) (read : Bridge → Except AlpError (List UInt8) × Bridge) :
    Library.Effect.Handler (issuing busSig Ctx) Bridge
  | ⟨c, .begin x⟩, b => ((), b.started c x)
  | ⟨_, .accept⟩, b => ((), b.taken)
  | ⟨_, .spiWrite frame⟩, b => (.ok (), write frame b)
  | ⟨_, .spiRead _⟩, b => read b
  | ⟨_, .i2cWriteRead _ _ _⟩, b => (.error .io, b)
  | ⟨_, .attnReadLevel⟩, b => (.ok false, b)
  | ⟨_, .attnWait _⟩, b => (.error .timeout, b)
  | ⟨_, .attnDrain⟩, b => ((), b)
  | ⟨_, .attnNow⟩, b => (0, b)
  | ⟨_, .uptimeMs⟩, b => (0, b)

-- A request that is lost, nothing to read, and the staged reply with these bytes after it.
def lose (_ : List UInt8) (b : Bridge) : Bridge := b

def silent (b : Bridge) : Except AlpError (List UInt8) × Bridge := (.ok [], { b with served := false })

def serving (filler : List UInt8) (b : Bridge) : Except AlpError (List UInt8) × Bridge :=
  match b.staged with
  | none => silent b
  | some r => (.ok (r.frame ++ filler), { b with served := true })

theorem inspect_silence (x : Xfer) (len : Nat) : inspect x (clocked len []) = .miss := by
  have hfirst : (clocked len []).getD 0 0 = 0 := by
    cases len with
    | zero => rfl
    | succ len => rfl
  unfold inspect
  rw [if_pos (by rw [hfirst]; decide)]

theorem bridge_silent (c : Ctx) (len : Nat) (b : Bridge) :
    bridgeStep c b (.spiRead len) (silent b).1 (silent b).2 :=
  ⟨b, .inl rfl, .inr ⟨fun r _ => inspect_silence r.x len, rfl⟩⟩

theorem bridge_serving (filler : List UInt8) (c : Ctx) (len : Nat) (b : Bridge) :
    bridgeStep c b (.spiRead len) (serving filler b).1 (serving filler b).2 := by
  unfold serving
  split
  · exact bridge_silent c len b
  · rename_i r hstaged
    exact ⟨b, .inl rfl, .inl ⟨r, filler, hstaged, rfl, rfl⟩⟩

theorem bridge_playing {write : List UInt8 → Bridge → Bridge}
    {read : Bridge → Except AlpError (List UInt8) × Bridge}
    (hwrite : ∀ frame b, write frame b = b ∨
      ∃ code payload, Answers frame code payload ∧ write frame b = b.decode frame code payload)
    (hread : ∀ c len b, bridgeStep c b (.spiRead len) (read b).1 (read b).2) (i : Issued busSig Ctx)
    (b : Bridge) : bridge b i (playing write read i b).1 (playing write read i b).2 := by
  obtain ⟨c, cmd⟩ := i
  cases cmd with
  | spiWrite frame => exact ⟨b, .inl rfl, hwrite frame b⟩
  | spiRead len => exact hread c len b
  | i2cWriteRead addr frame len => exact .inl rfl
  | _ => rfl

end AlpSdk.Gd32
