import AlpSdk.Gd32.Bridge.Attribution

-- When a reply left over from an earlier command can be taken for the answer to this one.
namespace AlpSdk.Gd32

open Library.Bytes Library.Local
open Library.Effect (Signature Env Exec graph)

-- Every call of a transfer from here that returns an answer returns the bridge's answer to it, and
-- leaves host and bridge in step, also where it fails and its resync PING is executed and accepted.
def Attributed (depth : Nat) (c : Ctx) (b : Bridge) (x : Xfer) : Prop :=
  ∀ ending c' b', Exec bridge b (spiXferCore depth x c) (some (some (ending, c'))) b' →
    ((∀ e, ending ≠ .failed e) →
      ∃ pushed r, b'.log = pushed ++ r :: b.log ∧ r.x = x ∧ r.accepted = some true) ∧
    ((∃ payload, ending = .delivered payload) → Aligned c' b') ∧
    ((∀ payload, ending ≠ .delivered payload) →
      (∃ ping r, b'.log = ping :: r :: b.log ∧ ping.x.cmd = CMD_PING ∧ 1 ≤ ping.executed ∧
        ping.accepted.isSome = true) → Aligned c' b')

theorem refused_of_not_sendable {depth : Nat} {c : Ctx} {b : Bridge} {x : Xfer} (h : ¬Sendable c x) :
    wp bridge (fun _ => True) True (spiXferCore (depth + 1) x)
      (fun ending _ b' => (∃ e, ending = .failed e) ∧ b'.log = b.log) c b :=
  wp_xferBody trivial (fun _ e => ⟨⟨e, rfl⟩, rfl⟩) fun hsend => absurd hsend h

theorem attributed_of_clean {depth : Nat} {c : Ctx} {b : Bridge} {x : Xfer} (h : Aligned c b)
    (hclean : Sendable c x → ¬Mistakable c b x ∧ (Rebasing x → asksSeq x = true)) :
    Attributed (depth + 1) c b x := by
  intro ending c' b' hexec
  by_cases hsend : Sendable c x
  · obtain ⟨hmistakable, hasks⟩ := hclean hsend
    have hended := (wp_sound hexec (wp_transfer (depth + 1) h.seq hsend
      fun hrebasing => ⟨hmistakable, hasks hrebasing⟩)).2.2 ending c' rfl
    refine ⟨fun hanswer => ?_, ?_, ?_⟩
    · obtain ⟨r, ⟨hx, hown⟩, pushed, hlog⟩ := hended.entry
      exact ⟨pushed, r, hlog.symm, hx, hown hanswer hmistakable⟩
    · rintro ⟨payload, hdelivered⟩
      exact hended.delivered payload hdelivered
    · rintro - ⟨ping, r, hlog, hping, -, hsome⟩
      exact hended.resynced ping r hlog hping hsome
  · obtain ⟨⟨e, he⟩, hlog⟩ := (wp_sound hexec (refused_of_not_sendable hsend)).2.2 ending c' rfl
    subst he
    refine ⟨fun hanswer => absurd rfl (hanswer e), ?_, ?_⟩
    · rintro ⟨payload, hdelivered⟩
      cases hdelivered
    · rintro - ⟨ping, r, hlog', -⟩
      have hlen := congrArg List.length (hlog.symm.trans hlog')
      simp only [List.length_cons] at hlen
      omega

theorem settle_of_accepts {x : Xfer} {c : Ctx} {reply : List UInt8} (hseq : c.seqEnabled = true)
    (h : Accepts x c reply) :
    (∃ c' payload, settle x c reply = .deliver c' payload) ∨
      ∃ c' e resync, settle x c reply = .firmware c' e resync := by
  have hjudged := judged_settle x reply hseq
  generalize settle x c reply = outcome at hjudged ⊢
  cases outcome with
  | deliver c' payload => exact .inl ⟨c', payload, rfl⟩
  | firmware c' e resync => exact .inr ⟨c', e, resync, rfl⟩
  | lost => exact absurd hjudged h.1
  | stale => exact absurd (hjudged.2.symm.trans (h.2.resolve_left hjudged.1)) (by decide)
  | reset => exact absurd (hjudged.2.symm.trans (h.2.resolve_left hjudged.1)) (by decide)

section Playing

variable {write : List UInt8 → Bridge → Bridge} {read : Bridge → Except AlpError (List UInt8) × Bridge}
variable {x : Xfer} {c : Ctx} {b : Bridge}

theorem quiet_playing : Quiet (graph (playing write read)) := by
  rintro b c cmd reply b' hcmd ⟨-, hb'⟩
  cases cmd with
  | attnReadLevel => exact hb'
  | attnWait timeoutMs => exact hb'
  | attnDrain => exact hb'
  | attnNow => exact hb'
  | uptimeMs => exact hb'
  | _ => cases hcmd

-- An exchange in which every read gives the same bytes and the same bridge.
theorem wp_exchange_playing {bytes : List UInt8} {after : Bridge}
    (hfirst : read (write (requestFrame x) b) = (.ok bytes, after))
    (hnext : read after = (.ok bytes, after)) :
    wp (graph (playing write read)) (fun _ => True) False (exchange x)
      (fun result c' b' => result = .ok (clocked (2 + x.replyMax + 2) bytes) ∧ Calm c c' ∧ b' = after)
      c b := by
  refine wp_exchange quiet_playing trivial ?_ ?_
  · rintro c' e b' - ⟨hreply, -⟩
    cases hreply
  · rintro c' b' hcalm ⟨-, rfl⟩
    refine ⟨trivial, fun c'' hcalm' => ?_⟩
    have hread : ∀ b₁, b₁ = write (requestFrame x) b ∨ b₁ = after → read b₁ = (.ok bytes, after) := by
      rintro b₁ (rfl | rfl)
      · exact hfirst
      · exact hnext
    refine wp_readReply (R := fun b₁ => b₁ = write (requestFrame x) b ∨ b₁ = after) (fun _ _ => trivial)
      ?_ ?_ REPLY_RETRIES (.inl rfl)
    · rintro b₁ e b₂ h₁ ⟨hreply, -⟩
      have hreply : .error e = (read b₁).1 := hreply
      rw [hread b₁ h₁] at hreply
      cases hreply
    · rintro b₁ bytes' b₂ h₁ ⟨hreply, hb₂⟩
      have hreply : .ok bytes' = (read b₁).1 := hreply
      have hb₂ : b₂ = (read b₁).2 := hb₂
      rw [hread b₁ h₁] at hreply hb₂
      cases hreply
      subst hb₂
      exact ⟨.inr rfl, rfl, hcalm.trans hcalm', rfl⟩

end Playing

-- A PING into silence is over after one exchange.
theorem exec_silent_ping (depth : Nat) (c : Ctx) (b : Bridge) :
    ∃ ending c' b', Exec bridge b (spiXferCore (depth + 1) pingXfer c) (some (some (ending, c'))) b' ∧
      b.log <:+ b'.log := by
  have hallowed : ∀ i b, bridge b i (playing lose silent i b).1 (playing lose silent i b).2 :=
    bridge_playing (fun _ _ => .inl rfl) bridge_silent
  refine exists_exec hallowed (J := fun _ => True) ?_
  refine wp_xferBody trivial (fun _ _ => List.suffix_rfl) ?_
  rintro - b' ⟨-, rfl⟩
  refine wp_sendOnce (wp_exchange_playing rfl rfl) ?_ ?_
  · rintro e c' b' - ⟨hresult, -⟩
    cases hresult
  · rintro reply c' b' - ⟨hresult, -, rfl⟩
    cases hresult
    rw [settle_miss (inspect_silence pingXfer _)]
    exact wp_resync trivial (fun _ => List.suffix_cons _ _) fun hping => absurd rfl hping

theorem exec_resync (depth : Nat) (x : Xfer) (c : Ctx) (b : Bridge) :
    ∃ c' b', Exec bridge b (spiResyncAfterFailure (spiXferCore (depth + 1)) x c) (some (some ((), c'))) b' ∧
      b.log <:+ b'.log := by
  unfold spiResyncAfterFailure
  split
  · exact ⟨c, b, .done _ _, List.suffix_rfl⟩
  · obtain ⟨ending, c', b', hexec, hlog⟩ := exec_silent_ping depth c b
    exact ⟨c', b', exec_then (exec_then hexec (.done _ _)) (.done _ _), hlog⟩

-- The request is lost and the leftover is read in its place.
theorem exec_leftover (depth : Nat) {c : Ctx} {b : Bridge} {x : Xfer} (hseq : c.seqEnabled = true)
    (hsend : Sendable c x) (h : Mistakable c b x) :
    ∃ ending c' b' r, Exec bridge b (spiXferCore (depth + 2) x c) (some (some (ending, c'))) b' ∧
      (∀ e, ending ≠ .failed e) ∧ (r :: b.log) <:+ b'.log ∧ r.accepted = some false := by
  obtain ⟨r, filler, hstaged, haccepts⟩ := h
  have hallowed : ∀ i b, bridge b i (playing lose (serving filler) i b).1 (playing lose (serving filler) i b).2 :=
    bridge_playing (fun _ _ => .inl rfl) (bridge_serving filler)
  have hread : serving filler (b.started c x) =
      (.ok (r.frame ++ filler), { b.started c x with served := true }) := by
    simp [serving, Bridge.started, hstaged]
  have hagain : serving filler { b.started c x with served := true } =
      (.ok (r.frame ++ filler), { b.started c x with served := true }) := by
    simp [serving, Bridge.started, hstaged]
  obtain ⟨result, c₁, b₁, hexchange, rfl, hcalm, rfl⟩ :=
    exists_exec hallowed (wp_exchange_playing (c := c) hread hagain)
  obtain ⟨hseq₁, hlast₁⟩ : c₁.seqEnabled = true ∧ c₁.seqLast = c.seqLast := by
    obtain ⟨_, _, _, _, _, -, -, rfl⟩ := hcalm
    exact ⟨hseq, rfl⟩
  have haccepts₁ : Accepts x c₁ (clocked (2 + x.replyMax + 2) (r.frame ++ filler)) := by
    unfold Accepts spiSeqClassify at haccepts ⊢
    rw [hlast₁]
    exact haccepts
  rcases settle_of_accepts hseq₁ haccepts₁ with ⟨c₂, payload, hsettle⟩ | ⟨c₂, e, resync, hsettle⟩
  · exact ⟨_, c₂, _, _, exec_begin hsend rfl (exec_deliver hexchange hsettle rfl), nofun, List.suffix_rfl, rfl⟩
  · obtain ⟨c₃, b₃, hresync, hlog⟩ := exec_resync depth x c₂ { b.started c x with served := true }.taken
    cases resync with
    | true =>
        exact ⟨_, c₃, b₃, _, exec_begin hsend rfl (exec_firmware hexchange hsettle rfl hresync), nofun, hlog, rfl⟩
    | false =>
        exact ⟨_, c₂, _, _, exec_begin hsend rfl (exec_firmware hexchange hsettle rfl (.done _ _)), nofun,
          List.suffix_rfl, rfl⟩

-- A reply of the width asked for is recognised as it was sent.
theorem inspect_frame {x : Xfer} {r : Staged} (hfixed : x.decode = none) (hlen : r.payload.length = x.replyMax) :
    clocked (2 + x.replyMax + 2) r.frame = r.frame ∧
      inspect x r.frame = .full (statusByte r.stamp r.code) x.replyMax := by
  have hframe : r.frame.length = 2 + x.replyMax + 2 := by
    simp only [Staged.frame, replyFrame, List.length_append, List.length_cons, length_putLE, hlen]
    omega
  refine ⟨?_, ?_⟩
  · unfold clocked
    rw [List.take_append_of_le_length hframe.ge, List.take_of_length_le hframe.le]
  · have hcrc := crcHolds_frame (statusByte r.stamp r.code) r.payload []
    rw [List.append_nil] at hcrc
    rw [hlen] at hcrc
    unfold inspect replyLen
    rw [hfixed, if_neg]
    · simp only [Staged.frame, hcrc, if_true]
      rfl
    · simp [Staged.frame, replyFrame]

-- A bridge that grants STATUS_SEQ as it is asked for, in a reply of `width` bytes.
def grantAnswer (width : Nat) (frame : List UInt8) : List UInt8 :=
  (frame.getD 2 0 &&& 1) :: List.replicate (width - 1) 0

def grant (width : Nat) (frame : List UInt8) (b : Bridge) : Bridge :=
  b.decode frame 0 (grantAnswer width frame)

theorem answers_grant (width : Nat) (frame : List UInt8) : Answers frame 0 (grantAnswer width frame) := by
  intro _ _
  refine ⟨nofun, ?_⟩
  simp [grantAnswer, UInt8.and_assoc]

theorem decode_none_of_rebasing {x : Xfer} (h : Rebasing x) : x.decode = none := by
  cases hdecode : x.decode with
  | none => rfl
  | some decode =>
      have hbig := x.decode_big (by rw [hdecode]; rfl)
      rw [h.1] at hbig
      exact absurd hbig (by decide)

-- LINK_FEATURES that does not ask for STATUS_SEQ leaves the host without it.
theorem exec_disarm (depth : Nat) {c : Ctx} (b : Bridge) {x : Xfer} (hseq : c.seqEnabled = true)
    (hsend : Sendable c x) (hrebasing : Rebasing x) (hasks : asksSeq x = false) :
    ∃ payload c' b', Exec bridge b (spiXferCore (depth + 1) x c) (some (some (.delivered payload, c'))) b' ∧
      c'.seqEnabled = false := by
  have hallowed : ∀ i b, bridge b i (playing (grant x.replyMax) (serving []) i b).1
      (playing (grant x.replyMax) (serving []) i b).2 :=
    bridge_playing (fun frame b => .inr ⟨0, _, answers_grant x.replyMax frame, rfl⟩) (bridge_serving [])
  generalize hafter : grant x.replyMax (requestFrame x) (b.started c x) = after
  obtain ⟨r, hstaged, hcode, hpayload⟩ : ∃ r, after.staged = some r ∧ r.code = 0 ∧
      r.payload = grantAnswer x.replyMax (requestFrame x) := by
    subst hafter
    exact ⟨_, rfl, rfl, rfl⟩
  have hread : serving [] (grant x.replyMax (requestFrame x) (b.started c x)) =
      (.ok (r.frame ++ []), { after with served := true }) := by
    rw [hafter]
    simp [serving, hstaged]
  have hagain : serving [] { after with served := true } = (.ok (r.frame ++ []), { after with served := true }) := by
    simp [serving, hstaged]
  obtain ⟨result, c₁, b₁, hexchange, rfl, hcalm, rfl⟩ :=
    exists_exec hallowed (wp_exchange_playing (c := c) hread hagain)
  have hseq₁ : c₁.seqEnabled = true := by
    obtain ⟨_, _, _, _, _, -, -, rfl⟩ := hcalm
    exact hseq
  -- the reply has the width asked for, so it is recognised
  have hlen : r.payload.length = x.replyMax := by
    have hwide := hrebasing.2
    simp only [hpayload, grantAnswer, List.length_cons, List.length_replicate]
    omega
  obtain ⟨hclocked, hinspect⟩ := inspect_frame (decode_none_of_rebasing hrebasing) hlen
  have hrebases : Rebases x (clocked (2 + x.replyMax + 2) (r.frame ++ [])) := by
    refine ⟨hrebasing.1, ?_, hrebasing.2⟩
    rw [status_served r [] (by omega), code_statusByte, hcode]
    rfl
  have hanswers : AnswersTo x r := by
    unfold AnswersTo
    rw [hcode, hpayload]
    exact answers_grant x.replyMax (requestFrame x)
  have hmiss : inspect x (clocked (2 + x.replyMax + 2) (r.frame ++ [])) ≠ .miss := by
    rw [List.append_nil, hclocked, hinspect]
    nofun
  have hjudged := judged_settle x (clocked (2 + x.replyMax + 2) (r.frame ++ [])) hseq₁
  rcases settle_of_accepts hseq₁ ⟨hmiss, .inl hrebases⟩ with ⟨c₂, payload, hsettle⟩ | ⟨c₂, e, resync, hsettle⟩
  · refine ⟨payload, c₂, _, exec_begin hsend rfl (exec_deliver hexchange hsettle rfl), ?_⟩
    rw [hsettle] at hjudged
    rcases hjudged.2 with ⟨-, henabled⟩ | ⟨hnot, -⟩
    · rw [henabled, granted_of_rebases hanswers hrebases, hasks]
    · exact absurd hrebases hnot
  · rw [hsettle] at hjudged
    exact absurd hrebases hjudged.2.1

theorem not_attributed_of_mistakable {depth : Nat} {c : Ctx} {b : Bridge} {x : Xfer}
    (hseq : c.seqEnabled = true) (hsend : Sendable c x) (h : Mistakable c b x) :
    ¬Attributed (depth + 2) c b x := by
  intro hattributed
  obtain ⟨ending, c', b', r, hexec, hanswer, hlog, hforeign⟩ := exec_leftover depth hseq hsend h
  obtain ⟨pushed, r', hlog', -, hown⟩ := (hattributed ending c' b' hexec).1 hanswer
  have hlog' : (r' :: b.log) <:+ b'.log := ⟨pushed, hlog'.symm⟩
  have hr : r = r' := eq_of_suffix_cons (List.suffix_of_suffix_length_le hlog hlog' le_rfl)
  rw [← hr, hforeign] at hown
  cases hown

-- From a state in step, a transfer returns nothing but the answer to its own request, and keeps
-- the step, exactly where what is staged could not pass for that answer and LINK_FEATURES asks for
-- the sequencing; a transfer that is refused sends nothing.
theorem attributed_iff {depth : Nat} {c : Ctx} {b : Bridge} {x : Xfer} (h : Aligned c b) :
    Attributed (depth + 2) c b x ↔
      (Sendable c x → ¬Mistakable c b x ∧ (Rebasing x → asksSeq x = true)) := by
  refine ⟨fun hattributed hsend => ⟨fun hmistakable => ?_, fun hrebasing => ?_⟩, attributed_of_clean h⟩
  · exact not_attributed_of_mistakable h.seq hsend hmistakable hattributed
  · by_contra hasks
    obtain ⟨payload, c', b', hexec, hoff⟩ := exec_disarm (depth + 1) b h.seq hsend hrebasing
      (by simpa using hasks)
    have haligned := (hattributed _ c' b' hexec).2.1 ⟨payload, rfl⟩
    simp [haligned.seq] at hoff

-- The link after a LINK_FEATURES grant, whose reply is still staged.
def grantedCtx : Ctx := { initialCtx with seqEnabled := true, seqLast := 3, granted := 0x1F }

def grantReply10 : Staged := ⟨3, 0, [0x1F, 0, 0, 0, 0x1F, 0, 0, 0, 252, 0]⟩

def grantedBridge : Bridge :=
  { powerUp with counter := 3, stamping := true, staged := some grantReply10, served := true, current := true }

theorem aligned_granted : Aligned grantedCtx grantedBridge := ⟨rfl, .inl ⟨grantReply10, rfl, rfl, rfl⟩⟩

theorem attributed_seReset :
    Aligned grantedCtx grantedBridge ∧ Attributed 2 grantedCtx grantedBridge (.fixed 0x41 [0] 0) := by
  refine ⟨aligned_granted, (attributed_iff aligned_granted).mpr fun _ => ⟨?_, ?_⟩⟩
  · rintro ⟨r, filler, hstaged, -, hrebases | hfresh⟩
    · exact absurd hrebases.1 (by decide)
    · cases hstaged
      rw [stampOf_served grantReply10 filler (by omega)] at hfresh
      exact absurd hfresh (by decide)
  · exact fun hrebasing => absurd hrebasing.1 (by decide)

-- ATTN is withdrawn with a second LINK_FEATURES: if it is lost, the grant passes for its answer.
theorem lost_withdrawal_answered :
    ¬∀ depth c b x, Aligned c b → Sendable c x → Attributed (depth + 2) c b x := by
  intro h
  have hsend : Sendable grantedCtx (.fixed CMD_LINK_FEATURES (putLe32 0x1B ++ putLE 2 252) 10) := by
    decide
  refine not_attributed_of_mistakable rfl hsend ⟨grantReply10, [], rfl, ?_, .inl ⟨rfl, ?_, ?_⟩⟩
    (h 0 grantedCtx grantedBridge _ aligned_granted hsend)
  · decide +kernel
  · decide +kernel
  · decide

end AlpSdk.Gd32
