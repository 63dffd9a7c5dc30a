import AlpSdk.Gd32.Calls

namespace AlpSdk.Gd32

open Library.Bytes Library.Local
open Library.Effect (Signature Env Exec)

-- What the ATTN bookkeeping of a transfer may change: the line is dropped or kept, never taken,
-- and a fault is only found on a line in use.
def Calm (c c' : Ctx) : Prop :=
  ∃ active fault stuck timeouts edge, (active = true → c.attnActive = true) ∧
    (fault = true → c.attnFaultPending = true ∨ c.attnActive = true) ∧
    c' =
      { c with
        attnActive := active
        attnFaultPending := fault
        attnStuckRun := stuck
        attnTimeoutRun := timeouts
        attnLastEdge := edge }

namespace Calm

theorem refl (c : Ctx) : Calm c c := ⟨_, _, _, _, _, id, .inl, rfl⟩

theorem trans {c c' c'' : Ctx} (h : Calm c c') (h' : Calm c' c'') : Calm c c'' := by
  obtain ⟨a, f, s, t, e, ha, hf, rfl⟩ := h
  obtain ⟨a', f', s', t', e', ha', hf', rfl⟩ := h'
  refine ⟨a', f', s', t', e', fun hact => ha (ha' hact), fun hfault => ?_, rfl⟩
  rcases hf' hfault with hpending | hact
  · exact hf hpending
  · exact .inr (ha hact)

theorem ite_fault {c d : Ctx} {p : Prop} [Decidable p] (h : Calm c d) (hact : c.attnActive = true) :
    Calm c (if p then Gd32.attnFault d else d) := by
  split
  · obtain ⟨a, f, s, t, e, -, -, rfl⟩ := h
    exact ⟨false, true, s, t, e, nofun, fun _ => .inr hact, rfl⟩
  · exact h

theorem attnMissed {c : Ctx} (hact : c.attnActive = true) : Calm c (attnMissed c) :=
  ite_fault ⟨_, _, _, c.attnTimeoutRun + 1, _, id, .inl, rfl⟩ hact

theorem lastEdge (c : Ctx) (edge : Bool) : Calm c { c with attnLastEdge := edge } :=
  ⟨_, _, _, _, edge, id, .inl, rfl⟩

end Calm

-- What a reply that the host accepts changes: the sequence state, whose switch only
-- LINK_FEATURES turns.
def Settled (x : Xfer) (c c' : Ctx) : Prop :=
  ∃ enabled last, (enabled ≠ c.seqEnabled → x.cmd = CMD_LINK_FEATURES) ∧
    c' = { c with seqEnabled := enabled, seqLast := last }

theorem settled_last (x : Xfer) (c : Ctx) (last : UInt8) : Settled x c { c with seqLast := last } :=
  ⟨_, last, fun h => absurd rfl h, rfl⟩

theorem settled_refl (x : Xfer) (c : Ctx) : Settled x c c := ⟨_, _, fun h => absurd rfl h, rfl⟩

-- Everything an exchange can end in: only a sequenced link yields a stale or a reset verdict,
-- and only LINK_FEATURES switches the sequencing, where its reply is delivered.
def SettleSpec (x : Xfer) (c : Ctx) : Outcome → Prop
  | .deliver c' _ => Settled x c c'
  | .firmware c' _ _ => c' = { c with seqLast := c'.seqLast }
  | .lost => True
  | .stale | .reset => c.seqEnabled = true

theorem settleFull_spec (x : Xfer) (c : Ctx) (reply : List UInt8) (status : UInt8) (plen : Nat) :
    SettleSpec x c (settleFull x c reply status plen) := by
  unfold settleFull
  simp only
  split
  · rename_i hlf
    rw [if_pos hlf.2.1]
    exact ⟨_, _, fun _ => hlf.1, rfl⟩
  · split
    · rename_i hseq
      split
      · exact hseq
      · exact hseq
      · split
        · exact settled_last x c _
        · rfl
    · split
      · exact settled_refl x c
      · rfl

theorem settleEnvelope_spec (x : Xfer) (c : Ctx) (status : UInt8) :
    SettleSpec x c (settleEnvelope c status) := by
  unfold settleEnvelope
  simp only
  split
  · rename_i hseq
    split
    · exact hseq
    · exact hseq
    · rfl
  · rfl

theorem settle_spec (x : Xfer) (c : Ctx) (reply : List UInt8) : SettleSpec x c (settle x c reply) := by
  unfold settle
  split
  · trivial
  · exact settleFull_spec x c reply _ _
  · exact settleEnvelope_spec x c _

theorem crcBit_lt (crc : Nat) : crcBit crc < 2 ^ 16 := by
  have hshift : (crc <<< 1) % 0x10000 < 2 ^ 16 := Nat.mod_lt _ (by decide)
  unfold crcBit
  split
  · exact Nat.xor_lt_two_pow hshift (by decide)
  · exact hshift

theorem foldl_crcByte_lt (bytes : List UInt8) {crc : Nat} (h : crc < 2 ^ 16) :
    bytes.foldl crcByte crc < 2 ^ 16 := by
  induction bytes generalizing crc with
  | nil => exact h
  | cons byte bytes ih => exact ih (crcBit_lt _)

theorem crc16_lt (bytes : List UInt8) : crc16 bytes < 2 ^ 16 := foldl_crcByte_lt bytes (by decide)

-- The CRC of a frame holds whatever is clocked after it.
theorem crcHolds_frame (status : UInt8) (payload rest : List UInt8) :
    crcHolds (replyFrame status payload ++ rest) (2 + payload.length) = true := by
  have hcovered : (SOF :: status :: payload).length = 2 + payload.length := by
    simp only [List.length_cons]
    omega
  have hsplit : replyFrame status payload ++ rest =
      (SOF :: status :: payload) ++ (putLE 2 (crc16 (SOF :: status :: payload)) ++ rest) := by
    rw [replyFrame, List.append_assoc]
  have hcrc : crc16 (SOF :: status :: payload) % 256 ^ 2 = crc16 (SOF :: status :: payload) :=
    Nat.mod_eq_of_lt (crc16_lt _)
  unfold crcHolds getLe16
  rw [hsplit, ← hcovered, List.take_left, slice_skip _ _ _ _ le_rfl, Nat.sub_self,
    slice_head _ _ _ (length_putLE 2 _), getLE_putLE, hcrc]
  exact beq_self_eq_true _

-- The commands that no bus sees: an environment that is quiet does not move at them.
def BusCmd.isQuiet : BusCmd → Bool
  | .attnReadLevel | .attnWait _ | .attnDrain | .attnNow | .uptimeMs => true
  | _ => false

section Exchange

variable {S : Type} {env : Env (issuing busSig Ctx) S} {J : S → Prop} {E : Prop}

def Quiet (env : Env (issuing busSig Ctx) S) : Prop :=
  ∀ s c cmd reply s', BusCmd.isQuiet cmd → env s ⟨c, cmd⟩ reply s' → s' = s

variable (hquiet : Quiet env) {x : Xfer} {c : Ctx} {s : S}

include hquiet

theorem wp_quiet {β : Type} {cmd : BusCmd} {f : BusCmd.Reply cmd → Drv β} {Q : β → Ctx → S → Prop}
    (hcmd : cmd.isQuiet) (hJ : J s) (h : ∀ reply, wp env J E (f reply) Q c s) :
    wp env J E (perform cmd >>= f) Q c s := by
  refine wp_issue_bind hJ fun reply s' henv => ?_
  rw [hquiet s c cmd reply s' hcmd henv]
  exact h reply

theorem wp_attnPreRequest {Q : Unit → Ctx → S → Prop} (hJ : J s)
    (h : ∀ c', Calm c c' → Q () c' s) : wp env J E attnPreRequest Q c s := by
  refine wp_get_bind ?_
  split
  · exact wp_pure hJ (h c (.refl c))
  · rename_i hact
    have hact : c.attnActive = true := by simpa using hact
    split
    · refine wp_quiet hquiet rfl hJ fun level => ?_
      split
      · exact wp_modify hJ (h _ (Calm.ite_fault ⟨_, _, c.attnStuckRun + 1, _, _, id, .inl, rfl⟩ hact))
      · exact wp_modify hJ (h _ ⟨_, _, 0, _, _, id, .inl, rfl⟩)
    · exact wp_pure hJ (h c (.refl c))

theorem wp_attnStartClock {Q : BitVec 32 → Ctx → S → Prop} (hJ : J s) (h : ∀ t, Q t c s) :
    wp env J E attnStartClock Q c s := by
  refine wp_get_bind ?_
  split
  · refine wp_quiet hquiet rfl hJ fun _ => ⟨hJ, fun t s' henv => ?_⟩
    rw [hquiet s c .attnNow t s' rfl henv]
    exact ⟨hJ, h t⟩
  · exact wp_pure hJ (h 0)

theorem wp_attnAwaitEdge {Q : Bool → Ctx → S → Prop} {tStart : BitVec 32} (tries : Nat) (hJ : J s)
    (hact : c.attnActive = true) (h : ∀ edge c', Calm c c' → Q edge c' s) : wp env J E (attnAwaitEdge tStart tries) Q c s := by
  have hmissed : wp env J E (modify attnMissed >>= fun _ => pure false) Q c s :=
    wp_modify_bind (wp_pure hJ (h false _ (.attnMissed hact)))
  induction tries with
  | zero => exact hmissed
  | succ tries ih =>
      refine wp_quiet hquiet rfl hJ fun waited => ?_
      split
      · exact hmissed
      · split
        · exact ih
        · refine wp_quiet hquiet rfl hJ fun level => ?_
          split
          · exact wp_modify_bind (wp_pure hJ (h true _ ⟨_, _, _, 0, _, id, .inl, rfl⟩))
          · exact ih

theorem wp_attnAwaitReply {Q : Bool → Ctx → S → Prop} {tStart : BitVec 32} (hJ : J s)
    (h : ∀ edge c', Calm c c' → Q edge c' s) : wp env J E (attnAwaitReply tStart) Q c s := by
  refine wp_get_bind ?_
  split
  · exact wp_pure hJ (h false c (.refl c))
  · rename_i hact
    exact wp_attnAwaitEdge hquiet 3 hJ (by simpa using hact) h

-- The write is the one place where an exchange can move the environment before its reads.
theorem wp_exchange {Q : Except AlpError (List UInt8) → Ctx → S → Prop} (hJ : J s)
    (hfail : ∀ c' e s', Calm c c' → env s ⟨c', .spiWrite (requestFrame x)⟩ (.error e) s' →
      J s' ∧ Q (.error e) c' s')
    (hsent : ∀ c' s', Calm c c' → env s ⟨c', .spiWrite (requestFrame x)⟩ (.ok ()) s' →
      J s' ∧ ∀ c'', Calm c' c'' → wp env J E (readReply x REPLY_RETRIES) Q c'' s') :
    wp env J E (exchange x) Q c s := by
  refine wp_bind (wp_attnPreRequest hquiet hJ fun c' hcalm => ?_)
  refine wp_bind (wp_attnStartClock hquiet hJ fun tStart => ?_)
  refine wp_issue_bind hJ fun status s' henv => ?_
  cases status with
  | error e => exact wp_pure (hfail c' e s' hcalm henv).1 (hfail c' e s' hcalm henv).2
  | ok =>
      obtain ⟨hJ', hread⟩ := hsent c' s' hcalm henv
      refine wp_get_bind (wp_bind (wp_attnAwaitReply hquiet hJ' fun edge c'' hcalm' => ?_))
      exact wp_modify_bind (hread _ (hcalm'.trans (.lastEdge c'' _)))

omit hquiet

-- The ladder, by what holds of the environment with `k` re-reads to go.
theorem wp_readReply {Q : Except AlpError (List UInt8) → Ctx → S → Prop} {R : S → Prop}
    (hR : ∀ s, R s → J s)
    (hfail : ∀ s e s', R s → env s ⟨c, .spiRead (2 + x.replyMax + 2)⟩ (.error e) s' →
      J s' ∧ Q (.error e) c s')
    (hread : ∀ s bytes s', R s → env s ⟨c, .spiRead (2 + x.replyMax + 2)⟩ (.ok bytes) s' →
      R s' ∧ Q (.ok (clocked (2 + x.replyMax + 2) bytes)) c s')
    (retries : Nat) (h : R s) : wp env J E (readReply x retries) Q c s := by
  induction retries generalizing s with
  | zero =>
      refine wp_issue_bind (hR s h) fun result s' henv => ?_
      cases result with
      | error e => exact wp_pure (hfail s e s' h henv).1 (hfail s e s' h henv).2
      | ok bytes =>
          obtain ⟨hR', hQ⟩ := hread s bytes s' h henv
          exact wp_pure (hR s' hR') hQ
  | succ retries ih =>
      refine wp_issue_bind (hR s h) fun result s' henv => ?_
      cases result with
      | error e => exact wp_pure (hfail s e s' h henv).1 (hfail s e s' h henv).2
      | ok bytes =>
          obtain ⟨hR', hQ⟩ := hread s bytes s' h henv
          simp only
          split
          · exact ih hR'
          · exact wp_pure (hR s' hR') hQ

-- What each outcome of an exchange leaves to be shown of the transfer.
def Concludes (env : Env (issuing busSig Ctx) S) (J : S → Prop) (E : Prop) (self : Xfer → Drv Ending)
    (x : Xfer) (again : Drv Ending) (Q : Ending → Ctx → S → Prop) (c : Ctx) (s : S) : Outcome → Prop
  | .deliver c' payload => ∀ s', env s ⟨c', .accept⟩ () s' → J s' ∧ Q (.delivered payload) c' s'
  | .firmware c' e true => ∀ s', env s ⟨c', .accept⟩ () s' →
      wp env J E (spiResyncAfterFailure self x) (fun _ => Q (.firmware e)) c' s'
  | .firmware c' e false => ∀ s', env s ⟨c', .accept⟩ () s' → J s' ∧ Q (.firmware e) c' s'
  | .reset => wp env J E (spiSeqResetRecover self) (fun _ => Q (.failed .io)) c s
  | .lost => wp env J E (spiResyncAfterFailure self x) (fun _ => Q (.failed .io)) c s
  | .stale => wp env J E again Q c s

theorem wp_failAfterResync {self : Xfer → Drv Ending} {Q : Ending → Ctx → S → Prop}
    (h : wp env J E (spiResyncAfterFailure self x) (fun _ => Q (.failed .io)) c s) :
    wp env J E (failAfterResync self x) Q c s :=
  wp_seq h fun _ _ _ hJ hQ => wp_pure hJ hQ

theorem wp_sendOnce {self : Xfer → Drv Ending} {again : Drv Ending} {Q : Ending → Ctx → S → Prop}
    {P : Except AlpError (List UInt8) → Ctx → S → Prop} (hexchange : wp env J E (exchange x) P c s)
    (hfail : ∀ e c' s', J s' → P (.error e) c' s' → Q (.failed e) c' s')
    (hreply : ∀ reply c' s', J s' → P (.ok reply) c' s' →
      Concludes env J E self x again Q c' s' (settle x c' reply)) :
    wp env J E (sendOnce self x again) Q c s := by
  refine wp_seq hexchange fun result c' s' hJ hP => ?_
  cases result with
  | error e => exact wp_pure hJ (hfail e c' s' hJ hP)
  | ok reply =>
      have hend := hreply reply c' s' hJ hP
      refine wp_get_bind ?_
      simp only
      generalize settle x c' reply = outcome at hend
      cases outcome with
      | deliver c'' payload =>
          refine wp_modify_bind (wp_issue_bind hJ fun _ s'' henv => ?_)
          exact wp_pure (hend s'' henv).1 (hend s'' henv).2
      | firmware c'' e resync =>
          refine wp_modify_bind (wp_issue_bind hJ fun _ s'' henv => ?_)
          cases resync with
          | true => exact wp_seq (hend s'' henv) fun _ _ _ hJ' hQ => wp_pure hJ' hQ
          | false => exact wp_pure (hend s'' henv).1 (hend s'' henv).2
      | reset => exact wp_seq hend fun _ _ _ hJ' hQ => wp_pure hJ' hQ
      | lost => exact wp_failAfterResync hend
      | stale => exact hend

-- What the checks at the head of a transfer let through.
def Sendable (c : Ctx) (x : Xfer) : Prop :=
  c.spi = true ∧ x.payload.length ≤ reqCap c x ∧ x.replyMax ≤ repCap c x

instance (c : Ctx) (x : Xfer) : Decidable (Sendable c x) := inferInstanceAs (Decidable (_ ∧ _))

theorem sendable_fixed {cmd : UInt8} {payload : List UInt8} {replyLen : Nat} (hspi : c.spi = true)
    (hbatch : cmd ≠ CMD_BATCH) (hread2 : cmd ≠ CMD_ADC_STREAM_READ2)
    (hreq : payload.length ≤ MAX_PAYLOAD_BYTES) (hrep : replyLen ≤ MAX_PAYLOAD_BYTES) :
    Sendable c (.fixed cmd payload replyLen) := by
  refine ⟨hspi, ?_, ?_⟩
  · simp only [reqCap, Xfer.fixed, hbatch, if_false]
    exact hreq
  · simp only [repCap, Xfer.fixed, hbatch, hread2, or_self, if_false]
    exact hrep

-- A transfer that its checks let through starts with its mark.
theorem wp_xferBody {self : Xfer → Drv Ending} {Q : Ending → Ctx → S → Prop} (hJ : J s)
    (hrefused : ¬Sendable c x → ∀ e, Q (.failed e) c s)
    (hsend : Sendable c x → ∀ s', env s ⟨c, .begin x⟩ () s' → wp env J E (sendRequest self x) Q c s') :
    wp env J E (xferBody self x) Q c s := by
  refine wp_get_bind ?_
  by_cases h : Sendable c x
  · obtain ⟨hspi, hreq, hrep⟩ := h
    rw [if_neg (by simp [hspi]), if_neg (by omega)]
    exact wp_issue_bind hJ fun _ s' henv => hsend ⟨hspi, hreq, hrep⟩ s' henv
  · split
    · exact wp_pure hJ (hrefused h _)
    · rename_i hspi
      rw [if_pos]
      · exact wp_pure hJ (hrefused h _)
      · by_contra hsize
        simp only [not_or, not_lt] at hsize
        exact h ⟨by simpa using hspi, hsize.1, hsize.2⟩

theorem wp_resync {self : Xfer → Drv Ending} {Q : Unit → Ctx → S → Prop} (hJ : J s)
    (hping : x.cmd = CMD_PING → Q () c s)
    (hself : x.cmd ≠ CMD_PING → wp env J E (self (.fixed CMD_PING [] 0)) (fun _ => Q ()) c s) :
    wp env J E (spiResyncAfterFailure self x) Q c s := by
  unfold spiResyncAfterFailure
  split
  · rename_i hx
    exact wp_pure hJ (hping hx)
  · rename_i hx
    exact wp_seq (wp_seq (hself hx) fun _ _ _ hJ' hQ => wp_pure hJ' hQ) fun _ _ _ hJ' hQ =>
      wp_pure hJ' hQ

end Exchange

-- Executions of a transfer, put together from those of its exchange.
section Executions

variable {S : Type} {env : Env (issuing busSig Ctx) S} {self : Xfer → Drv Ending} {x : Xfer}
variable {c c' c'' : Ctx} {s s' s'' : S} {seen payload : List UInt8} {again : Drv Ending}

theorem exec_begin {out : Option (Option (Ending × Ctx))} (hsend : Sendable c x)
    (henv : env s ⟨c, .begin x⟩ () s') (h : Exec env s' (sendRequest self x c) out s'') :
    Exec env s (xferBody self x c) out s'' := by
  obtain ⟨hspi, hreq, hrep⟩ := hsend
  refine exec_get ?_
  rw [if_neg (by simp [hspi]), if_neg (by omega)]
  exact exec_issue () henv h

theorem exec_deliver (hexchange : Exec env s (exchange x c) (some (some (.ok seen, c'))) s')
    (hsettle : settle x c' seen = .deliver c'' payload) (henv : env s' ⟨c'', .accept⟩ () s'') :
    Exec env s (sendOnce self x again c) (some (some (.delivered payload, c''))) s'' := by
  refine exec_then hexchange (exec_get ?_)
  rw [hsettle]
  exact exec_modify c'' rfl (exec_issue () henv (.done _ _))

theorem exec_firmware {e : AlpError} {resync : Bool} {t : S} {d : Ctx}
    (hexchange : Exec env s (exchange x c) (some (some (.ok seen, c'))) s')
    (hsettle : settle x c' seen = .firmware c'' e resync) (henv : env s' ⟨c'', .accept⟩ () s'')
    (hresync : Exec env s'' ((if resync then spiResyncAfterFailure self x else pure ()) c'')
      (some (some ((), d))) t) :
    Exec env s (sendOnce self x again c) (some (some (.firmware e, d))) t := by
  refine exec_then hexchange (exec_get ?_)
  rw [hsettle]
  refine exec_modify c'' rfl (exec_issue () henv ?_)
  cases resync with
  | true => exact exec_then hresync (.done _ _)
  | false =>
      cases hresync with
      | done => exact .done _ _

theorem exec_reset (hexchange : Exec env s (exchange x c) (some (some (.ok seen, c'))) s')
    (hsettle : settle x c' seen = .reset)
    (hrecover : Exec env s' (spiSeqResetRecover self c') (some none) s'') :
    Exec env s (sendOnce self x again c) (some none) s'' := by
  refine exec_then hexchange (exec_get ?_)
  rw [hsettle]
  exact exec_exhausted hrecover

end Executions

end AlpSdk.Gd32
