import AlpSdk.Gd32.Bridge.AtMostOnce

namespace AlpSdk.Gd32

open Library.Bytes Library.Local
open Library.Effect (Signature Env Exec)

-- The host and the bridge in step: what is staged is the reply accepted last, with its stamp, or
-- the bridge has reset since.
structure Aligned (c : Ctx) (b : Bridge) : Prop where
  seq : c.seqEnabled = true
  staged : (∃ r, b.staged = some r ∧ b.current = true ∧ nibble r.stamp = c.seqLast) ∨
    b.resetSince = true

-- Bytes that a sequenced host takes for the reply to `x`.
def Accepts (x : Xfer) (c : Ctx) (reply : List UInt8) : Prop :=
  inspect x reply ≠ .miss ∧ (Rebases x reply ∨ spiSeqClassify c (stampOf reply) = .fresh)

-- The reply that is staged before the request goes out would pass for an answer to it.
def Mistakable (c : Ctx) (b : Bridge) (x : Xfer) : Prop :=
  ∃ r filler, b.staged = some r ∧ Accepts x c (clocked (2 + x.replyMax + 2) (r.frame ++ filler))

-- LINK_FEATURES with a reply that the host takes as its baseline, and the bit it asks for.
def Rebasing (x : Xfer) : Prop := x.cmd = CMD_LINK_FEATURES ∧ 1 ≤ x.replyMax

def asksSeq (x : Xfer) : Bool := (requestFrame x).getD 2 0 &&& 1 != 0

-- An answer to `x`: LINK_FEATURES is granted as far as it asked.
def AnswersTo (x : Xfer) (r : Staged) : Prop := Answers (requestFrame x) r.code r.payload

-- A transfer that has not accepted anything yet, with `left` staged when it began.
structure Waiting (x : Xfer) (clear : Bool) (old : List Record) (left : Option Staged) (b : Bridge) :
    Prop where
  log : ∃ n, Running x clear n old b
  own : b.own = true → ∃ r, b.staged = some r ∧ AnswersTo x r
  foreign : b.own = false → b.staged = none ∨ b.staged = left

-- What the host saw last: the staged reply, or nothing it recognises.
def Shown (x : Xfer) (b : Bridge) (reply : List UInt8) : Prop :=
  inspect x reply = .miss ∨ (b.served = true ∧ ∃ r filler, b.staged = some r ∧
    reply = clocked (2 + x.replyMax + 2) (r.frame ++ filler))

section Exchange

variable {x : Xfer} {c : Ctx} {clear : Bool} {old : List Record} {left : Option Staged} {b b' : Bridge}

theorem Waiting.mayReset (h : Waiting x clear old left b) (hreset : b.MayReset b') :
    Waiting x clear old left b' := by
  rcases hreset with rfl | rfl
  · exact h
  · exact ⟨h.log, nofun, fun _ => .inl rfl⟩

theorem Waiting.serve (h : Waiting x clear old left b) (served : Bool) :
    Waiting x clear old left { b with served := served } :=
  ⟨h.log, h.own, h.foreign⟩

theorem Waiting.write {status : Status} (h : Waiting x clear old left b)
    (henv : bridge b ⟨c, .spiWrite (requestFrame x)⟩ status b') : Waiting x clear old left b' := by
  obtain ⟨b₁, hreset, rfl | ⟨code, payload, hanswers, rfl⟩⟩ := henv
  · exact h.mayReset hreset
  · obtain ⟨n, hrun⟩ := (h.mayReset hreset).log
    refine ⟨⟨n + 1, ?_⟩, fun _ => ⟨_, rfl, hanswers⟩, nofun⟩
    unfold Running at hrun ⊢
    simp [Bridge.decode, hrun]

theorem Waiting.read {bytes : List UInt8} (h : Waiting x clear old left b)
    (henv : bridge b ⟨c, .spiRead (2 + x.replyMax + 2)⟩ (.ok bytes) b') :
    Waiting x clear old left b' ∧ Shown x b' (clocked (2 + x.replyMax + 2) bytes) := by
  obtain ⟨b₁, hreset, ⟨r, filler, hstaged, rfl, rfl⟩ | ⟨hmiss, rfl⟩⟩ := henv
  · exact ⟨(h.mayReset hreset).serve true, .inr ⟨rfl, r, filler, hstaged, rfl⟩⟩
  · have hwaiting := h.mayReset hreset
    obtain ⟨n, hrun⟩ := hwaiting.log
    exact ⟨hwaiting.serve false, .inl (hmiss _ (by rw [hrun]; rfl))⟩

theorem wp_exchange_waiting {J : Bridge → Prop} (hJ : ∀ b, Waiting x clear old left b → J b)
    (h : Waiting x clear old left b) :
    wp bridge J True (exchange x)
      (fun result c' b' => Calm c c' ∧ Waiting x clear old left b' ∧
        ∀ reply, result = .ok reply → Shown x b' reply) c b := by
  refine wp_exchange quiet_bridge (hJ b h) (fun c' e b' hcalm henv => ?_) fun c' b' hcalm henv => ?_
  · exact ⟨hJ b' (h.write henv), hcalm, h.write henv, nofun⟩
  · refine ⟨hJ b' (h.write henv), fun c'' hcalm' => ?_⟩
    refine wp_readReply hJ ?_ ?_ REPLY_RETRIES (h.write henv)
    · rintro b₁ e b₂ h₁ ⟨b₃, hreset, rfl⟩
      have hwaiting := (h₁.mayReset hreset).serve false
      exact ⟨hJ _ hwaiting, hcalm.trans hcalm', hwaiting, nofun⟩
    · intro b₁ bytes b₂ h₁ henv'
      obtain ⟨hwaiting, hshown⟩ := h₁.read henv'
      refine ⟨hwaiting, hcalm.trans hcalm', hwaiting, ?_⟩
      rintro reply ⟨⟩
      exact hshown

end Exchange

-- The record only grows: a transfer and all it calls leave the entries before it alone.
section Suffix

variable {base : List Record}

theorem waiting_started (c : Ctx) (b : Bridge) (x : Xfer) :
    Waiting x (!ambiguous c b) b.log b.staged (b.started c x) :=
  ⟨⟨0, rfl⟩, nofun, fun _ => .inr rfl⟩

-- An invariant of the transfers below that holds while this one waits, and once it has accepted.
theorem wp_sendRequest_waiting {J : Bridge → Prop} {self : Xfer → Drv Ending} {x : Xfer} {c : Ctx}
    {clear : Bool} {old : List Record} {left : Option Staged} {b : Bridge}
    (hself : ∀ y, Keeps bridge J True (fun _ => True) (self y))
    (hJ : ∀ b, Waiting x clear old left b → J b)
    (htaken : ∀ b, Waiting x clear old left b → J b.taken) (h : Waiting x clear old left b) :
    wp bridge J True (sendRequest self x) (fun _ _ _ => True) c b := by
  refine wp_sendOnce (wp_exchange_waiting hJ h) (fun _ _ _ _ _ => trivial) ?_
  rintro reply c₁ b₁ hJ₁ ⟨-, hwaiting, -⟩
  refine concludes_of_keeps hself hJ₁ (htaken b₁ hwaiting) fun _ => ?_
  refine wp_sendOnce (wp_exchange_waiting hJ hwaiting) (fun _ _ _ _ _ => trivial) ?_
  rintro reply' c₂ b₂ hJ₂ ⟨-, hwaiting', -⟩
  refine concludes_of_keeps hself hJ₂ (htaken b₂ hwaiting') fun _ => wp_failAfterResync ?_
  exact Stable.spiResyncAfterFailure hself x c₂ b₂ trivial hJ₂

theorem keeps_suffix (base : List Record) (depth : Nat) (x : Xfer) :
    Keeps bridge (fun b => base <:+ b.log) True (fun _ => True) (spiXferCore depth x) := by
  induction depth generalizing x with
  | zero => exact fun _ _ _ hJ => wp_exhausted hJ trivial
  | succ depth ih =>
      refine fun c b _ hJ => wp_xferBody hJ (fun _ _ => trivial) ?_
      rintro - b' rfl
      refine wp_sendRequest_waiting ih (fun b₁ h₁ => ?_) (fun b₁ h₁ => ?_) (waiting_started c b x)
      · obtain ⟨n, hrun⟩ := h₁.log
        rw [hrun]
        exact hJ.trans (List.suffix_cons _ _)
      · obtain ⟨n, hrun⟩ := h₁.log
        rw [log_taken hrun]
        exact hJ.trans (List.suffix_cons _ _)

-- An entry of this kind stands right above the old ones.
def Entered (P : Record → Prop) (old : List Record) (b : Bridge) : Prop := ∃ r, P r ∧ (r :: old) <:+ b.log

theorem entered_top {P : Record → Prop} {r : Record} {old : List Record} {b : Bridge}
    (hlog : b.log = r :: old) (hr : P r) : Entered P old b :=
  ⟨r, hr, hlog ▸ List.suffix_rfl⟩

theorem keeps_entered (P : Record → Prop) (old : List Record) (depth : Nat) (x : Xfer) :
    Keeps bridge (Entered P old) True (fun _ => True) (spiXferCore depth x) := by
  rintro c b - ⟨r, hr, hlog⟩
  refine wp_mono (wp_relax (keeps_suffix (r :: old) depth x c b trivial hlog) ?_) fun _ _ _ _ _ => trivial
  exact fun b' hlog' => ⟨r, hr, hlog'⟩

theorem wp_entered {α : Type} {m : Drv α} {P : Record → Prop} {old : List Record} {c : Ctx} {b : Bridge}
    (hm : Keeps bridge (Entered P old) True (fun _ => True) m) (h : Entered P old b) :
    wp bridge (fun _ => True) True m (fun _ _ b' => Entered P old b') c b :=
  wp_mono (wp_relax (hm c b trivial h) fun _ _ => trivial) fun _ _ _ _ h' => h'.1

end Suffix

section Recovery

variable {x : Xfer} {c : Ctx} {b : Bridge} {depth : Nat}

-- A transfer has its own entry in the record, above those before it.
theorem wp_recorded (hsend : Sendable c x) :
    wp bridge (fun _ => True) True (spiXferCore depth x)
      (fun _ _ b' => Entered (fun r => r.x = x) b.log b') c b := by
  cases depth with
  | zero => exact wp_exhausted trivial trivial
  | succ depth =>
      refine wp_xferBody trivial (fun hno => absurd hsend hno) ?_
      rintro - b' rfl
      refine wp_mono (wp_relax (J := Entered (fun r => r.x = x) b.log) (wp_sendRequest_waiting
        (keeps_entered _ _ depth) (fun b₁ h₁ => ?_) (fun b₁ h₁ => ?_) (waiting_started c b x))
        fun _ _ => trivial) fun _ _ _ _ h => h.1
      · obtain ⟨n, hrun⟩ := h₁.log
        exact entered_top hrun rfl
      · obtain ⟨n, hrun⟩ := h₁.log
        exact entered_top (log_taken hrun) rfl

-- The first transfer of a recovery is GET_VERSION.
theorem wp_recover_entered (hspi : c.spi = true) :
    wp bridge (fun _ => True) True (spiSeqResetRecover (spiXferCore depth))
      (fun _ _ b' => Entered (fun r => r.x.cmd = CMD_GET_VERSION) b.log b') c b := by
  have hsend : Sendable { spiDropNegotiated c with attnUnusable := false } (.fixed CMD_GET_VERSION [] 3) :=
    sendable_fixed hspi (by decide) (by decide) (by decide) (by decide)
  refine wp_modify_bind (wp_bind (wp_seq (wp_recorded hsend) fun ending c' b' _ hentered => ?_))
  refine wp_pure trivial ?_
  have hversion : Entered (fun r => r.x.cmd = CMD_GET_VERSION) b.log b' := by
    obtain ⟨r, hr, hlog⟩ := hentered
    exact ⟨r, congrArg Xfer.cmd hr, hlog⟩
  have hnegotiate := stable_true.spiNegotiate
    (keeps_entered (fun r => r.x.cmd = CMD_GET_VERSION) b.log depth)
  cases ending.result with
  | error e => exact wp_entered hnegotiate hversion
  | ok v => exact wp_modify_bind (wp_entered hnegotiate hversion)

end Recovery

section Acceptance

variable {x : Xfer} {c c' : Ctx} {clear : Bool} {old : List Record} {left : Option Staged} {b : Bridge}
variable {r : Staged} {reply filler : List UInt8}

theorem served_of_settle (h : Shown x b reply) (hsettle : settle x c reply ≠ .lost) :
    b.served = true ∧ ∃ r filler, b.staged = some r ∧
      reply = clocked (2 + x.replyMax + 2) (r.frame ++ filler) := by
  rcases h with hmiss | hserved
  · exact absurd (settle_miss hmiss) hsettle
  · exact hserved

-- A reply accepted with its own stamp puts host and bridge in step.
theorem aligned_taken (hserved : b.served = true) (hstaged : b.staged = some r)
    (hreply : reply = clocked (2 + x.replyMax + 2) (r.frame ++ filler)) (hseq : c.seqEnabled = true)
    (hlast : c.seqLast = stampOf reply) : Aligned c b.taken := by
  refine ⟨hseq, .inl ⟨r, hstaged, hserved, ?_⟩⟩
  rw [hlast, hreply, stampOf_served r filler (by omega)]

-- A reply that the leftover could not be mistaken for answers this transfer.
theorem own_of_accepts (h : Waiting x clear old left b) (hstaged : b.staged = some r)
    (haccepts : Accepts x c (clocked (2 + x.replyMax + 2) (r.frame ++ filler)))
    (hclean : ∀ r filler, left = some r →
      ¬Accepts x c (clocked (2 + x.replyMax + 2) (r.frame ++ filler))) :
    b.own = true := by
  by_contra hown
  rcases h.foreign (by simpa using hown) with hnone | hleft
  · rw [hnone] at hstaged
    cases hstaged
  · exact hclean r filler (hleft ▸ hstaged) haccepts

theorem first_payload_served {len : Nat} (hlen : 3 ≤ len) (hpayload : r.payload ≠ []) :
    (clocked len (r.frame ++ filler)).getD 2 0 = r.payload.getD 0 0 := by
  obtain ⟨n, rfl⟩ := Nat.exists_eq_add_of_le hlen
  rw [Nat.add_comm]
  obtain ⟨byte, rest, hcons⟩ := List.exists_cons_of_ne_nil hpayload
  simp [clocked, Staged.frame, replyFrame, hcons]

theorem code_of_rebases
    (h : Rebases x (clocked (2 + x.replyMax + 2) (r.frame ++ filler))) : r.code = 0 := by
  have hcode := h.2.1
  rw [status_served r filler (by omega), code_statusByte] at hcode
  exact nibble_injective hcode

-- The reply to LINK_FEATURES says what was asked for.
theorem granted_of_rebases (h : AnswersTo x r)
    (hrebases : Rebases x (clocked (2 + x.replyMax + 2) (r.frame ++ filler))) :
    ((clocked (2 + x.replyMax + 2) (r.frame ++ filler)).getD 2 0 &&& 1 != 0) = asksSeq x := by
  obtain ⟨hpayload, hbit⟩ := h hrebases.1 (code_of_rebases hrebases)
  rw [first_payload_served (by omega) hpayload, hbit]
  rfl

end Acceptance

-- How a transfer from a sequenced link ends: its entry, and when host and bridge are in step.
structure Ended (x : Xfer) (old : List Record) (clean : Prop) (ending : Ending) (c : Ctx) (b : Bridge) :
    Prop where
  entry : Entered (fun r => r.x = x ∧ ((∀ e, ending ≠ .failed e) → clean → r.accepted = some true)) old b
  taken : ∀ r, b.log = r :: old → r.accepted.isSome = true → Aligned c b
  delivered : ∀ payload, ending = .delivered payload → Aligned c b
  resynced : ∀ ping r, b.log = ping :: r :: old → ping.x.cmd = CMD_PING →
    ping.accepted.isSome = true → Aligned c b

theorem eq_of_suffix_cons {a r : Record} {old : List Record} (h : (a :: old) <:+ (r :: old)) : a = r :=
  (List.cons.inj (h.eq_of_length rfl)).1

theorem not_suffix_shorter {p a r : Record} {old : List Record} (h : (p :: a :: old) <:+ (r :: old)) :
    False := by
  have hlen := h.length_le
  simp at hlen

theorem not_log_shorter {b : Bridge} {p a r : Record} {old : List Record} (h : b.log = r :: old)
    (hlog : b.log = p :: a :: old) : False := by
  have hlen := congrArg List.length (h.symm.trans hlog)
  simp at hlen

section Transfer

variable {x : Xfer} {c : Ctx} {b : Bridge} {depth : Nat} {old : List Record} {clean : Prop}

-- A transfer that is over, its entry the last one.
theorem ended_top {ending : Ending} {r : Record} (hlog : b.log = r :: old) (hx : r.x = x)
    (hown : (∀ e, ending ≠ .failed e) → clean → r.accepted = some true)
    (haligned : r.accepted.isSome = true → Aligned c b)
    (hdelivered : ∀ payload, ending = .delivered payload → r.accepted.isSome = true) :
    Ended x old clean ending c b where
  entry := entered_top hlog ⟨hx, hown⟩
  taken r' hlog' hsome := by
    have hr : r' = r := (List.cons.inj (hlog'.symm.trans hlog)).1
    exact haligned (hr ▸ hsome)
  delivered payload hending := haligned (hdelivered payload hending)
  resynced ping r' hlog' _ _ := (not_log_shorter hlog hlog').elim

-- The same with a recovery after it, whose first entry is not a PING.
theorem ended_recovered {e : AlpError} {r : Record} (hx : r.x = x)
    (h : Entered (fun g => g.x.cmd = CMD_GET_VERSION) (r :: old) b) :
    Ended x old clean (.failed e) c b := by
  obtain ⟨g, hg, hlog⟩ := h
  refine ⟨⟨r, ⟨hx, fun hne => absurd rfl (hne e)⟩, (List.suffix_cons g _).trans hlog⟩, ?_, nofun, ?_⟩
  · intro r' hlog' _
    rw [hlog'] at hlog
    exact (not_suffix_shorter hlog).elim
  · intro ping r' hlog' hping _
    rw [hlog'] at hlog
    have heq := hlog.eq_of_length rfl
    rw [(List.cons.inj heq).1, hping] at hg
    exact absurd hg (by decide)

-- The same with the resync PING after it.
theorem ended_resynced {ending : Ending} {r : Record} (hx : r.x = x)
    (hown : (∀ e, ending ≠ .failed e) → clean → r.accepted = some true)
    (hundelivered : ∀ payload, ending ≠ .delivered payload) {pinged : Ending} {y : Xfer} {clean' : Prop}
    (h : Ended y (r :: old) clean' pinged c b) : Ended x old clean ending c b := by
  obtain ⟨p, -, hlog⟩ := h.entry
  refine ⟨⟨r, ⟨hx, hown⟩, (List.suffix_cons p _).trans hlog⟩, ?_, ?_, ?_⟩
  · intro r' hlog' _
    rw [hlog'] at hlog
    exact (not_suffix_shorter hlog).elim
  · exact fun payload hending => absurd hending (hundelivered payload)
  · intro ping r' hlog' _ hsome
    rw [hlog'] at hlog
    have heq := hlog.eq_of_length rfl
    have hr : r = r' := (List.cons.inj (List.cons.inj heq).2).1
    subst hr
    exact h.taken ping hlog' hsome

def pingXfer : Xfer := .fixed CMD_PING [] 0

-- What a transfer relies on of those it calls: the resync PING and the recovery.
structure Backed (core : Xfer → Drv Ending) : Prop where
  ping : ∀ c b, c.seqEnabled = true → c.spi = true → wp bridge (fun _ => True) True (core pingXfer)
    (fun ending c' b' => Ended pingXfer b.log (¬Mistakable c b pingXfer) ending c' b') c b
  recover : ∀ c b, c.spi = true → wp bridge (fun _ => True) True (spiSeqResetRecover core)
    (fun _ _ b' => Entered (fun g => g.x.cmd = CMD_GET_VERSION) b.log b') c b

-- The resync after a transfer whose entry is `r`.
theorem wp_resync_ended {self : Xfer → Drv Ending} (hself : Backed self) {ending : Ending} {r : Record}
    (hseq : c.seqEnabled = true) (hspi : c.spi = true) (hlog : b.log = r :: old) (hx : r.x = x)
    (hown : (∀ e, ending ≠ .failed e) → clean → r.accepted = some true)
    (haligned : r.accepted.isSome = true → Aligned c b)
    (hundelivered : ∀ payload, ending ≠ .delivered payload) :
    wp bridge (fun _ => True) True (spiResyncAfterFailure self x)
      (fun _ c' b' => Ended x old clean ending c' b') c b := by
  refine wp_resync trivial (fun _ => ?_) fun _ => ?_
  · exact ended_top hlog hx hown haligned fun payload h => absurd h (hundelivered payload)
  · refine wp_mono (hself.ping c b hseq hspi) fun pinged c' b' _ hended => ?_
    rw [hlog] at hended
    exact ended_resynced hx hown hundelivered hended

section Conclusion

variable {self : Xfer → Drv Ending} {again : Drv Ending} {c₀ : Ctx} {b₀ : Bridge} {clear : Bool}
variable {reply : List UInt8}

theorem accepts_of_settle (hlast : c.seqLast = c₀.seqLast) (hsettle : settle x c reply ≠ .lost)
    (hfresh : Rebases x reply ∨ spiSeqClassify c (stampOf reply) = .fresh) : Accepts x c₀ reply := by
  refine ⟨fun hmiss => hsettle (settle_miss hmiss), ?_⟩
  unfold spiSeqClassify at hfresh ⊢
  rw [← hlast]
  exact hfresh

theorem concludes_ended (hself : Backed self) (hrebase : Rebasing x → ¬Mistakable c₀ b₀ x ∧ asksSeq x = true)
    (hseq : c.seqEnabled = true) (hlast : c.seqLast = c₀.seqLast) (hspi : c.spi = true)
    (hwaiting : Waiting x clear b₀.log b₀.staged b) (hshown : Shown x b reply)
    (hagain : wp bridge (fun _ => True) True again (Ended x b₀.log (¬Mistakable c₀ b₀ x)) c b) :
    Concludes bridge (fun _ => True) True self x again (Ended x b₀.log (¬Mistakable c₀ b₀ x)) c b
      (settle x c reply) := by
  obtain ⟨n, hrun⟩ := hwaiting.log
  have hjudged := judged_settle x reply hseq
  have hspec := settle_spec x c reply
  -- an accepted reply was served, and answers this transfer unless the leftover could pass for it
  have hown : settle x c reply ≠ .lost → (Rebases x reply ∨ spiSeqClassify c (stampOf reply) = .fresh) →
      ¬Mistakable c₀ b₀ x → b.own = true := by
    intro hsettle hfresh hclean
    obtain ⟨-, r, filler, hstaged, hreply⟩ := served_of_settle hshown hsettle
    have haccepts := accepts_of_settle hlast hsettle hfresh
    rw [hreply] at haccepts
    exact own_of_accepts hwaiting hstaged haccepts fun r' filler' hleft h => hclean ⟨r', filler', hleft, h⟩
  have hserved : settle x c reply ≠ .lost → ∀ c' : Ctx, c'.seqEnabled = true →
      c'.seqLast = stampOf reply → b.served = true ∧ Aligned c' b.taken := by
    intro hsettle c' hseq' hlast'
    obtain ⟨hserved, r, filler, hstaged, hreply⟩ := served_of_settle hshown hsettle
    exact ⟨hserved, aligned_taken hserved hstaged hreply hseq' hlast'⟩
  have hgranted : settle x c reply ≠ .lost → Rebases x reply → (reply.getD 2 0 &&& 1 != 0) = true := by
    intro hsettle hrebases
    obtain ⟨hclean, hasks⟩ := hrebase ⟨hrebases.1, hrebases.2.2⟩
    obtain ⟨-, r, filler, hstaged, hreply⟩ := served_of_settle hshown hsettle
    obtain ⟨r', hstaged', hanswers⟩ := hwaiting.own (hown hsettle (.inl hrebases) hclean)
    cases hstaged.symm.trans hstaged'
    rw [hreply] at hrebases ⊢
    exact (granted_of_rebases hanswers hrebases).trans hasks
  generalize settle x c reply = outcome at hjudged hspec hown hserved hgranted
  cases outcome with
  | deliver c' payload =>
      rintro b' rfl
      obtain ⟨hlast', hfresh⟩ := hjudged
      have hseq' : c'.seqEnabled = true := by
        rcases hfresh with ⟨hrebases, henabled⟩ | ⟨-, henabled, -⟩
        · rw [henabled]
          exact hgranted nofun hrebases
        · exact henabled
      obtain ⟨hsv, haligned⟩ := hserved nofun c' hseq' hlast'
      refine ⟨trivial, ended_top (log_taken hrun) rfl (fun _ hclean => ?_) (fun _ => haligned) fun _ _ => rfl⟩
      rw [hsv, hown nofun (hfresh.imp And.left fun h => h.2.2) hclean]
      rfl
  | firmware c' e resync =>
      obtain ⟨hlast', -, hseq', hfresh⟩ := hjudged
      obtain ⟨hsv, haligned⟩ := hserved nofun c' hseq' hlast'
      have haccepted : ¬Mistakable c₀ b₀ x → some (b.served && b.own) = some true := by
        intro hclean
        rw [hsv, hown nofun (.inr hfresh) hclean]
        rfl
      cases resync with
      | true =>
          rintro b' rfl
          have hspi' : c'.spi = true := by
            rw [show c' = { c with seqLast := c'.seqLast } from hspec]
            exact hspi
          exact wp_resync_ended hself hseq' hspi' (log_taken hrun) rfl (fun _ => haccepted)
            (fun _ => haligned) nofun
      | false =>
          rintro b' rfl
          exact ⟨trivial, ended_top (log_taken hrun) rfl (fun _ => haccepted) (fun _ => haligned) nofun⟩
  | reset =>
      refine wp_mono (hself.recover c b hspi) fun _ c' b' _ hentered => ?_
      rw [hrun] at hentered
      exact ended_recovered rfl hentered
  | lost =>
      exact wp_resync_ended hself hseq hspi hrun rfl (fun hne => absurd rfl (hne .io)) nofun nofun
  | stale => exact hagain

end Conclusion

theorem wp_transfer (depth : Nat) (hseq : c.seqEnabled = true) (hsend : Sendable c x)
    (hrebase : Rebasing x → ¬Mistakable c b x ∧ asksSeq x = true) :
    wp bridge (fun _ => True) True (spiXferCore depth x)
      (fun ending c' b' => Ended x b.log (¬Mistakable c b x) ending c' b') c b := by
  induction depth generalizing x c b with
  | zero => exact wp_exhausted trivial trivial
  | succ depth ih =>
      have hself : Backed (spiXferCore depth) := by
        refine ⟨fun c b hseq hspi => ih hseq ?_ ?_, fun c b hspi => wp_recover_entered hspi⟩
        · exact sendable_fixed hspi (by decide) (by decide) (by decide) (by decide)
        · exact fun hrebasing => absurd hrebasing.1 (by decide)
      refine wp_xferBody trivial (fun hno => absurd hsend hno) ?_
      rintro - b' rfl
      -- the sequence state and the handle are those of the start in both exchanges
      have hsame : ∀ c', Calm c c' → c'.seqEnabled = true ∧ c'.seqLast = c.seqLast ∧ c'.spi = true := by
        rintro c' ⟨_, _, _, _, _, -, -, rfl⟩
        exact ⟨hseq, rfl, hsend.1⟩
      have hfailed : ∀ (e : AlpError) c' b', Waiting x (!ambiguous c b) b.log b.staged b' →
          Ended x b.log (¬Mistakable c b x) (.failed e) c' b' := by
        intro e c' b' hwaiting
        obtain ⟨n, hrun⟩ := hwaiting.log
        exact ended_top hrun rfl (fun hne => absurd rfl (hne e)) nofun nofun
      refine wp_sendOnce (wp_exchange_waiting (fun _ _ => trivial) (waiting_started c b x))
        (fun e c' b' _ h => hfailed e c' b' h.2.1) ?_
      rintro reply c₁ b₁ - ⟨hcalm, hwaiting, hshown⟩
      obtain ⟨hseq₁, hlast₁, hspi₁⟩ := hsame c₁ hcalm
      refine concludes_ended hself hrebase hseq₁ hlast₁ hspi₁ hwaiting (hshown reply rfl) ?_
      refine wp_sendOnce (wp_exchange_waiting (fun _ _ => trivial) hwaiting)
        (fun e c' b' _ h => hfailed e c' b' h.2.1) ?_
      rintro reply' c₂ b₂ - ⟨hcalm', hwaiting', hshown'⟩
      obtain ⟨hseq₂, hlast₂, hspi₂⟩ := hsame c₂ (hcalm.trans hcalm')
      refine concludes_ended hself hrebase hseq₂ hlast₂ hspi₂ hwaiting' (hshown' reply' rfl) ?_
      obtain ⟨n, hrun⟩ := hwaiting'.log
      exact wp_failAfterResync (wp_resync_ended hself hseq₂ hspi₂ hrun rfl
        (fun hne => absurd rfl (hne .io)) nofun nofun)

end Transfer

end AlpSdk.Gd32
