import AlpSdk.Gd32.Rules

namespace AlpSdk.Gd32

open Library.Bytes Library.Local
open Library.Effect (Signature Env Exec)

variable {S : Type} {env : Env (issuing busSig Ctx) S} {J : S → Prop} {E : Prop} {I : Ctx → Prop}
variable {α β : Type}

-- A routine that keeps an invariant of the context, inside the environment's.
def Keeps (env : Env (issuing busSig Ctx) S) (J : S → Prop) (E : Prop) (I : Ctx → Prop)
    (m : Drv α) : Prop :=
  ∀ c s, I c → J s → wp env J E m (fun _ c' _ => I c') c s

namespace Keeps

theorem pure (value : α) : Keeps env J E I (Pure.pure value) := fun _ _ hI hJ => wp_pure hJ hI

theorem bind {m : Drv α} {f : α → Drv β} (hm : Keeps env J E I m) (hf : ∀ v, Keeps env J E I (f v)) :
    Keeps env J E I (m >>= f) :=
  fun c s hI hJ => wp_seq (hm c s hI hJ) fun v c' s' hJ' hI' => hf v c' s' hI' hJ'

theorem get {f : Ctx → Drv β} (hf : ∀ c, Keeps env J E I (f c)) :
    Keeps env J E I (Library.Local.get >>= f) :=
  fun c s hI hJ => wp_get_bind (hf c c s hI hJ)

theorem modify {g : Ctx → Ctx} (hg : ∀ c, I c → I (g c)) : Keeps env J E I (Library.Local.modify g) :=
  fun c _ hI hJ => wp_modify hJ (hg c hI)

theorem perform {cmd : BusCmd} (h : ∀ c s reply s', I c → J s → env s ⟨c, cmd⟩ reply s' → J s') :
    Keeps env J E I (perform cmd) :=
  fun c s hI hJ => ⟨hJ, fun reply s' henv => ⟨h c s reply s' hI hJ henv, hI⟩⟩

theorem ite {p : Prop} [Decidable p] {m m' : Drv α} (hm : Keeps env J E I m)
    (hm' : Keeps env J E I m') : Keeps env J E I (if p then m else m') := by
  split
  · exact hm
  · exact hm'

end Keeps

-- The buses, the hook and the clock may answer anything.
abbrev anyReply : Env (issuing busSig Ctx) Unit := fun _ _ _ _ => True

theorem quiet_anyReply : Quiet anyReply := fun _ _ _ _ _ _ _ => rfl

-- An invariant that no write of the link code touches.
structure Stable (I : Ctx → Prop) : Prop where
  calm : ∀ {c c'}, Calm c c' → I c → I c'
  settled : ∀ {x c c'}, Settled x c c' → I c → I c'
  drop : ∀ {c}, I c → I { spiDropNegotiated c with attnUnusable := false }
  version : ∀ {c} v, I c → I (setVersion v c)
  link : ∀ {c} granted supported maxPayload active, I c → I
    { c with granted := granted, supported := supported, maxPayload := maxPayload, attnActive := active }
  attn : ∀ {c} active unusable timeouts fault, I c → I
    { c with
      attnActive := active
      attnUnusable := unusable
      attnTimeoutRun := timeouts
      attnFaultPending := fault }

-- The same whatever the replies.
abbrev Frames (I : Ctx → Prop) (m : Drv α) : Prop := Keeps anyReply (fun _ => True) True I m

namespace Stable

variable (hI : Stable I)

include hI

section Open

variable {self : Xfer → Drv Ending} (hself : ∀ x, Keeps env J E I (self x))

include hself

omit hI in
theorem spiXfer (cmd : UInt8) (payload : List UInt8) (replyLen : Nat) :
    Keeps env J E I (spiXfer self cmd payload replyLen) :=
  .bind (hself _) fun _ => .pure _

theorem linkFeaturesExt (want : Features) (mpReq : Nat) : Keeps env J E I (linkFeaturesExt self want mpReq) := by
  refine .bind (spiXfer hself _ _ _) fun reply => ?_
  cases reply with
  | error e => exact .pure _
  | ok reply => exact .bind (.modify fun c h => hI.link _ _ _ c.attnActive h) fun _ => .pure _

theorem negotiateLegacy : Keeps env J E I (negotiateLegacy self) := by
  refine .bind (spiXfer hself _ _ _) fun reply => ?_
  cases reply with
  | error e => exact .pure _
  | ok reply => exact .modify fun c h => hI.link _ c.supported c.maxPayload c.attnActive h

theorem attnSelfTest : Keeps env J E I (attnSelfTest self) := by
  refine .get fun c => .ite (.pure _) (.ite (.modify fun c h => ?_) ?_)
  · exact hI.attn true c.attnUnusable c.attnTimeoutRun c.attnFaultPending h
  · refine .bind (.modify fun c h => ?_) fun _ => .bind (hI.linkFeaturesExt hself _ _) fun _ => .pure _
    exact hI.attn c.attnActive true c.attnTimeoutRun c.attnFaultPending h

theorem negotiateExtended : Keeps env J E I (negotiateExtended self) := by
  refine .get fun c => .bind (.modify fun c h => ?_) fun _ => ?_
  · split
    · exact hI.attn true c.attnUnusable c.attnTimeoutRun c.attnFaultPending h
    · exact h
  refine .bind (hI.linkFeaturesExt hself _ _) fun result => .bind (.modify fun c h => ?_) fun _ => ?_
  · exact hI.attn false c.attnUnusable 0 false h
  cases result with
  | error e => exact hI.negotiateLegacy hself
  | ok => exact hI.attnSelfTest hself

theorem spiNegotiate : Keeps env J E I (spiNegotiate self) := by
  refine .bind (.modify fun c h => hI.link 0 0 MAX_PAYLOAD_BYTES false h) fun _ => .get fun c => ?_
  exact .ite (.pure _) (.ite (hI.negotiateExtended hself) (hI.negotiateLegacy hself))

theorem spiSeqResetRecover : Keeps env J E I (spiSeqResetRecover self) := by
  refine .bind (.modify fun c h => hI.drop h) fun _ => .bind (spiXfer hself _ _ _) fun reply => ?_
  cases reply with
  | error e => exact hI.spiNegotiate hself
  | ok v => exact .bind (.modify fun c h => hI.version v h) fun _ => hI.spiNegotiate hself

omit hI in
theorem spiResyncAfterFailure (x : Xfer) : Keeps env J E I (spiResyncAfterFailure self x) :=
  fun _ s h hJ => wp_resync hJ (fun _ => h) fun _ => hself _ _ s h hJ

end Open

theorem exchange (x : Xfer) : Frames I (exchange x) := by
  intro c s h hJ
  refine wp_exchange quiet_anyReply hJ (fun c' _ _ hcalm _ => ⟨trivial, hI.calm hcalm h⟩) ?_
  refine fun c' s' hcalm _ => ⟨trivial, fun c'' hcalm' => ?_⟩
  have hc'' : I c'' := hI.calm (hcalm.trans hcalm') h
  exact wp_readReply (fun _ _ => trivial) (fun _ _ _ _ _ => ⟨trivial, hc''⟩)
    (fun _ _ _ _ _ => ⟨trivial, hc''⟩) REPLY_RETRIES trivial

section Transfer

variable {self : Xfer → Drv Ending} (hself : ∀ x, Frames I (self x))

include hself

theorem sendOnce (x : Xfer) {again : Drv Ending} (hagain : Frames I again) :
    Frames I (sendOnce self x again) := by
  intro c s h hJ
  refine wp_sendOnce (hI.exchange x c s h hJ) (fun _ _ _ _ h' => h') fun reply c' s' hJ' h' => ?_
  have hspec := settle_spec x c' reply
  generalize settle x c' reply = outcome at hspec
  cases outcome with
  | deliver c'' payload => exact fun _ _ => ⟨trivial, hI.settled hspec h'⟩
  | firmware c'' e resync =>
      have h'' : I c'' := by
        rw [show c'' = { c' with seqLast := c''.seqLast } from hspec]
        exact hI.settled (settled_last x c' _) h'
      cases resync with
      | true => exact fun s'' _ => spiResyncAfterFailure hself x c'' s'' h'' trivial
      | false => exact fun _ _ => ⟨trivial, h''⟩
  | reset => exact hI.spiSeqResetRecover hself c' s' h' hJ'
  | lost => exact spiResyncAfterFailure hself x c' s' h' hJ'
  | stale => exact hagain c' s' h' hJ'

theorem xferBody (x : Xfer) : Frames I (xferBody self x) := by
  refine fun c s h hJ => wp_xferBody hJ (fun _ _ => h) fun _ s' _ => ?_
  refine hI.sendOnce hself x (hI.sendOnce hself x ?_) c s' h trivial
  exact .bind (spiResyncAfterFailure hself x) fun _ => .pure _

end Transfer

theorem spiXferCore (depth : Nat) (x : Xfer) : Frames I (spiXferCore depth x) := by
  induction depth generalizing x with
  | zero => exact fun _ _ _ hJ => wp_exhausted hJ trivial
  | succ depth ih => exact hI.xferBody ih x

section Deferred

variable {depth : Nat} (hcore : ∀ x, Keeps env J E I (Gd32.spiXferCore depth x))

include hcore

theorem renegotiate
    (hpending : ∀ {c} pending unusable, I c → I
      { c with renegotiatePending := pending, attnUnusable := unusable }) :
    Keeps env J E I (renegotiate depth) := by
  refine .bind (spiXfer hcore _ _ _) fun reply => ?_
  cases reply with
  | error e => exact .pure _
  | ok v =>
      refine .bind (.modify fun c h => ?_) fun _ => hI.spiNegotiate hcore
      exact hpending false false (hI.version v h)

theorem withdrawAttn : Keeps env J E I (withdrawAttn depth) := by
  refine .get fun c => .bind (.modify fun c h => ?_) fun _ => ?_
  · exact hI.attn false true c.attnTimeoutRun false h
  · exact .bind (hI.linkFeaturesExt hcore _ _) fun _ => .pure _

end Deferred

end Stable

-- A transfer that changes nothing but the ATTN bookkeeping and the sequence state.
def Undisturbed (c c' : Ctx) : Prop :=
  ∃ calm enabled last, Calm c calm ∧ c' = { calm with seqEnabled := enabled, seqLast := last }

theorem Undisturbed.of_calm {c c' : Ctx} (h : Calm c c') : Undisturbed c c' := ⟨c', _, _, h, rfl⟩

theorem Undisturbed.of_settled {x : Xfer} {c c' c'' : Ctx} (h : Calm c c') (hs : Settled x c' c'') :
    Undisturbed c c'' := by
  obtain ⟨enabled, last, -, rfl⟩ := hs
  exact ⟨c', enabled, last, h, rfl⟩

theorem Undisturbed.trans {c c' c'' : Ctx} (h : Undisturbed c c') (h' : Undisturbed c' c'') :
    Undisturbed c c'' := by
  obtain ⟨calm, enabled, last, ⟨a, f, s, t, e, ha, hf, rfl⟩, rfl⟩ := h
  obtain ⟨_, enabled', last', ⟨a', f', s', t', e', ha', hf', rfl⟩, rfl⟩ := h'
  have hcalm : Calm c
      { c with
        attnActive := a', attnFaultPending := f', attnStuckRun := s', attnTimeoutRun := t',
        attnLastEdge := e' } :=
    Calm.trans ⟨a, f, s, t, e, ha, hf, rfl⟩ ⟨a', f', s', t', e', ha', hf', rfl⟩
  exact ⟨_, enabled', last', hcalm, rfl⟩

theorem always_exchange (x : Xfer) (c : Ctx) : Always (exchange x) (fun _ c' => Calm c c') c := by
  refine wp_exchange quiet_anyReply trivial (fun _ _ _ hcalm _ => ⟨trivial, hcalm⟩) ?_
  refine fun c' s' hcalm _ => ⟨trivial, fun c'' hcalm' => ?_⟩
  exact wp_readReply (fun _ _ => trivial) (fun _ _ _ _ _ => ⟨trivial, hcalm.trans hcalm'⟩)
    (fun _ _ _ _ _ => ⟨trivial, hcalm.trans hcalm'⟩) REPLY_RETRIES trivial

-- A delivered reply comes of the last exchange alone: nothing was negotiated on the way.
def Delivers (x : Xfer) (c : Ctx) (ending : Ending) (c' : Ctx) : Prop :=
  ∀ payload, ending = .delivered payload →
    Undisturbed c c' ∧ (c'.seqEnabled ≠ c.seqEnabled → x.cmd = CMD_LINK_FEATURES)

theorem always_delivers_sendOnce {self : Xfer → Drv Ending} {x : Xfer} {c : Ctx} {again : Drv Ending}
    (hagain : ∀ c', Calm c c' → Always again (Delivers x c) c') :
    Always (sendOnce self x again) (Delivers x c) c := by
  refine wp_sendOnce (always_exchange x c) (fun _ _ _ _ _ => nofun) fun reply c' s' _ hcalm => ?_
  have hspec := settle_spec x c' reply
  generalize settle x c' reply = outcome at hspec
  cases outcome with
  | deliver c'' payload =>
      refine fun _ _ => ⟨trivial, fun _ _ => ⟨.of_settled hcalm hspec, fun hne => ?_⟩⟩
      obtain ⟨enabled, last, hlf, rfl⟩ := hspec
      obtain ⟨_, _, _, _, _, -, -, rfl⟩ := hcalm
      exact hlf hne
  | firmware c'' e resync =>
      cases resync with
      | true => exact fun _ _ => always_of_forall fun _ _ => nofun
      | false => exact fun _ _ => ⟨trivial, nofun⟩
  | reset => exact always_of_forall fun _ _ => nofun
  | lost => exact always_of_forall fun _ _ => nofun
  | stale => exact hagain c' hcalm

theorem Delivers.of_calm {x : Xfer} {c c' c'' : Ctx} {ending : Ending} (hcalm : Calm c c')
    (h : Delivers x c' ending c'') : Delivers x c ending c'' := by
  rintro payload rfl
  obtain ⟨hund, hlf⟩ := h payload rfl
  refine ⟨(Undisturbed.of_calm hcalm).trans hund, fun hne => hlf ?_⟩
  obtain ⟨_, _, _, _, _, -, -, rfl⟩ := hcalm
  exact hne

theorem always_delivers (depth : Nat) (x : Xfer) (c : Ctx) :
    Always (spiXferCore depth x) (Delivers x c) c := by
  cases depth with
  | zero => exact wp_exhausted trivial trivial
  | succ depth =>
      refine wp_xferBody trivial (fun _ _ => nofun) fun _ _ _ => ?_
      refine always_delivers_sendOnce fun c' hcalm => ?_
      have hsecond : Always (sendOnce (spiXferCore depth) x (failAfterResync (spiXferCore depth) x))
          (Delivers x c') c' :=
        always_delivers_sendOnce fun _ _ => wp_failAfterResync (always_of_forall fun _ _ => nofun)
      exact wp_mono hsecond fun _ _ _ _ h => h.of_calm hcalm

-- Without sequencing a transfer negotiates nothing, and switches the sequencing on only where
-- the reply to LINK_FEATURES is delivered.
def Unsequenced (x : Xfer) (c : Ctx) (ending : Ending) (c' : Ctx) : Prop :=
  Undisturbed c c' ∧
    (c'.seqEnabled = true → x.cmd = CMD_LINK_FEATURES ∧ ∃ payload, ending = .delivered payload)

theorem unsequenced_of_calm {x : Xfer} {c c' : Ctx} {ending : Ending} (hseq : c.seqEnabled = false)
    (hcalm : Calm c c') : Unsequenced x c ending c' := by
  refine ⟨.of_calm hcalm, fun hon => ?_⟩
  obtain ⟨_, _, _, _, _, -, -, rfl⟩ := hcalm
  simp [hseq] at hon

theorem always_unsequenced (depth : Nat) (x : Xfer) {c : Ctx} (hseq : c.seqEnabled = false) :
    Always (spiXferCore depth x) (Unsequenced x c) c := by
  induction depth generalizing x c with
  | zero => exact wp_exhausted trivial trivial
  | succ depth ih =>
      refine wp_xferBody trivial (fun _ _ => unsequenced_of_calm hseq (.refl c)) fun _ _ _ => ?_
      -- the throwaway PING leaves the sequencing off
      have hresync : ∀ (c' : Ctx) (ending : Ending), Undisturbed c c' → c'.seqEnabled = false →
          Always (spiResyncAfterFailure (spiXferCore depth) x) (fun _ => Unsequenced x c ending) c' := by
        intro c' ending hund hoff
        refine wp_resync trivial (fun _ => ⟨hund, by simp [hoff]⟩) fun _ => ?_
        refine wp_mono (ih (.fixed CMD_PING [] 0) hoff) fun _ c'' _ _ hping => ?_
        refine ⟨hund.trans hping.1, fun hon => ?_⟩
        exact absurd (hping.2 hon).1 (by decide)
      refine wp_sendOnce (always_exchange x c) (fun _ _ _ _ hcalm => unsequenced_of_calm hseq hcalm) ?_
      intro reply c' s' _ hcalm
      have hoff : c'.seqEnabled = false := by
        obtain ⟨_, _, _, _, _, -, -, rfl⟩ := hcalm
        exact hseq
      have hspec := settle_spec x c' reply
      generalize settle x c' reply = outcome at hspec
      cases outcome with
      | deliver c'' payload =>
          refine fun _ _ => ⟨trivial, .of_settled hcalm hspec, fun hon => ⟨?_, payload, rfl⟩⟩
          obtain ⟨enabled, last, hlf, rfl⟩ := hspec
          have hon : enabled = true := hon
          exact hlf (by simp [hon, hoff])
      | firmware c'' e resync =>
          have hc'' : c'' = { c' with seqLast := c''.seqLast } := hspec
          have hund : Undisturbed c c'' := ⟨c', c'.seqEnabled, c''.seqLast, hcalm, hc''⟩
          have hoff' : c''.seqEnabled = false := by rw [hc'']; exact hoff
          cases resync with
          | true => exact fun _ _ => hresync c'' _ hund hoff'
          | false => exact fun _ _ => ⟨trivial, hund, by simp [hoff']⟩
      | reset => simp [SettleSpec, hoff] at hspec
      | lost => exact hresync c' _ (.of_calm hcalm) hoff
      | stale => simp [SettleSpec, hoff] at hspec

-- What is kept whatever the replies is kept besides everything else.
theorem Keeps.and_frames {K : Ctx → Prop} {m : Drv α} (h : Keeps env J E I m) (hK : Frames K m) :
    Keeps env J E (fun c => I c ∧ K c) m :=
  fun c s hc hJ => wp_always (h c s hc.1 hJ) (hK c () hc.2 trivial)

theorem stable_true : Stable fun _ => True where
  calm _ _ := trivial
  settled _ _ := trivial
  drop _ := trivial
  version _ _ := trivial
  link _ _ _ _ _ := trivial
  attn _ _ _ _ _ := trivial

-- The link code leaves the hook and the sleep state alone.
theorem stable_attn (hook : AttnHook) : Stable fun c => c.attn = hook where
  calm := by rintro c _ ⟨_, _, _, _, _, -, -, rfl⟩ h; exact h
  settled := by rintro x c _ ⟨_, _, -, rfl⟩ h; exact h
  drop h := h
  version _ h := h
  link _ _ _ _ h := h
  attn _ _ _ _ h := h

theorem stable_awake : Stable fun c => c.powerAsleep = false where
  calm := by rintro c _ ⟨_, _, _, _, _, -, -, rfl⟩ h; exact h
  settled := by rintro x c _ ⟨_, _, -, rfl⟩ h; exact h
  drop h := h
  version _ h := h
  link _ _ _ _ h := h
  attn _ _ _ _ h := h

end AlpSdk.Gd32
