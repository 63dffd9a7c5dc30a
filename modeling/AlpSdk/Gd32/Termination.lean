import AlpSdk.Gd32.Cost
import AlpSdk.Gd32.Negotiated

-- When every public call ends within one bound on its transactions, whatever the replies.
namespace AlpSdk.Gd32

open Library.Bytes Library.Local
open Library.Effect (Signature Env Exec)

def BusCmd.isTransaction : BusCmd → Bool
  | .spiWrite _ | .spiRead _ | .i2cWriteRead _ _ _ => true
  | _ => false

def isCounted (i : (issuing busSig Ctx).Cmd) : Bool := BusCmd.isTransaction i.cmd

-- The buses and the hook may answer anything; the transactions are counted.
def counting : Env (issuing busSig Ctx) Nat := fun k i _ k' => k' = if isCounted i then k + 1 else k

theorem quiet_counting : Quiet counting := by
  intro k c cmd reply k' hcmd henv
  cases cmd with
  | attnReadLevel => exact henv
  | attnWait timeoutMs => exact henv
  | attnDrain => exact henv
  | attnNow => exact henv
  | uptimeMs => exact henv
  | _ => cases hcmd

-- One bound on the nesting of the transfers and one on the transactions, for every context with
-- this hook, every public call and all replies.
def Finishes (hook : AttnHook) : Prop :=
  ∃ nesting bound, ∀ c, c.attn = hook → ∀ (call : Call) out k,
    Exec counting 0 (call.run nesting c) out k → k ≤ bound ∧ out ≠ some none

-- The routine never runs out of nesting, whatever the replies.
def Completes {α : Type} (m : Drv α) (c : Ctx) : Prop :=
  ∀ k, wp counting (fun _ => True) False m (fun _ _ _ => True) c k

namespace Completes

variable {α β : Type} {c : Ctx}

theorem pure (value : α) : Completes (Pure.pure value) c := fun _ => wp_pure trivial trivial

theorem modify (g : Ctx → Ctx) : Completes (Library.Local.modify g) c := fun _ => wp_modify trivial trivial

-- What the first part returns whatever the replies may be used in the second.
theorem bind {m : Drv α} {f : α → Drv β} {P : α → Ctx → Prop} (hm : Completes m c) (hP : Always m P c)
    (hf : ∀ v c', P v c' → Completes (f v) c') : Completes (m >>= f) c :=
  fun k => wp_seq (wp_always (hm k) hP) fun v c' k' _ h => hf v c' h.2 k'

theorem seq {m : Drv α} {f : α → Drv β} (hm : Completes m c) (hf : ∀ v c', Completes (f v) c') :
    Completes (m >>= f) c :=
  bind hm (always_of_forall fun _ _ => trivial) fun v c' (_ : True) => hf v c'

end Completes

theorem completes_exchange (x : Xfer) (c : Ctx) : Completes (exchange x) c := by
  refine fun k => wp_exchange quiet_counting trivial (fun _ _ _ _ _ => ⟨trivial, trivial⟩) ?_
  refine fun _ _ _ _ => ⟨trivial, fun _ _ => ?_⟩
  exact wp_readReply (fun _ _ => trivial) (fun _ _ _ _ _ => ⟨trivial, trivial⟩)
    (fun _ _ _ _ _ => ⟨trivial, trivial⟩) REPLY_RETRIES trivial

-- A send completes where its resync does and, on a sequenced link, its recovery and what
-- follows a stale reply.
theorem completes_sendOnce {self : Xfer → Drv Ending} {x : Xfer} {again : Drv Ending} {c : Ctx}
    (hresync : ∀ c', c'.attn = c.attn → c'.seqEnabled = c.seqEnabled →
      Completes (spiResyncAfterFailure self x) c')
    (hrecover : c.seqEnabled = true → ∀ c', c'.attn = c.attn → Completes (spiSeqResetRecover self) c')
    (hagain : c.seqEnabled = true → ∀ c', c'.attn = c.attn → c'.seqEnabled = c.seqEnabled →
      Completes again c') :
    Completes (sendOnce self x again) c := by
  refine fun k => wp_sendOnce (wp_always (completes_exchange x c k) (always_exchange x c))
    (fun _ _ _ _ _ => trivial) fun reply c' k' _ hend => ?_
  obtain ⟨hattn, hseq⟩ : c'.attn = c.attn ∧ c'.seqEnabled = c.seqEnabled := by
    obtain ⟨_, _, _, _, _, -, -, rfl⟩ := hend.2
    exact ⟨rfl, rfl⟩
  have hspec := settle_spec x c' reply
  generalize settle x c' reply = outcome at hspec
  cases outcome with
  | deliver c'' payload => exact fun _ _ => ⟨trivial, trivial⟩
  | firmware c'' e resync =>
      have hc'' : c'' = { c' with seqLast := c''.seqLast } := hspec
      have hattn' : c''.attn = c.attn := by rw [hc'']; exact hattn
      have hseq' : c''.seqEnabled = c.seqEnabled := by rw [hc'']; exact hseq
      cases resync with
      | true => exact fun k'' _ => hresync c'' hattn' hseq' k''
      | false => exact fun _ _ => ⟨trivial, trivial⟩
  | reset => exact hrecover (hseq.symm.trans hspec) c' hattn k'
  | lost => exact hresync c' hattn hseq k'
  | stale => exact hagain (hseq.symm.trans hspec) c' hattn hseq k'

theorem completes_xferBody {self : Xfer → Drv Ending} {x : Xfer} {c : Ctx}
    (hresync : ∀ c', c'.attn = c.attn → c'.seqEnabled = c.seqEnabled →
      Completes (spiResyncAfterFailure self x) c')
    (hrecover : c.seqEnabled = true → ∀ c', c'.attn = c.attn → Completes (spiSeqResetRecover self) c') :
    Completes (xferBody self x) c := by
  refine fun k => wp_xferBody trivial (fun _ _ => trivial) fun _ k' _ => ?_
  refine completes_sendOnce hresync hrecover (fun hseq c' hattn hseq' => ?_) k'
  rw [← hattn, ← hseq'] at hresync
  refine completes_sendOnce hresync (fun _ c'' hattn' => hrecover hseq c'' (hattn'.trans hattn)) ?_
  intro _ c'' hattn'' hseq'' k''
  exact wp_failAfterResync (hresync c'' hattn'' hseq'' k'')

theorem completes_resync_ping {self : Xfer → Drv Ending} {x : Xfer} (hx : x.cmd = CMD_PING) (c : Ctx) :
    Completes (spiResyncAfterFailure self x) c :=
  fun _ => wp_resync trivial (fun _ => trivial) fun hne => absurd hx hne

theorem completes_resync {self : Xfer → Drv Ending} (x : Xfer) {c : Ctx}
    (hself : Completes (self (.fixed CMD_PING [] 0)) c) : Completes (spiResyncAfterFailure self x) c :=
  fun k => wp_resync trivial (fun _ => trivial) fun _ => hself k

-- Without sequencing a PING nests nothing, and every other transfer one PING.
theorem completes_ping_unsequenced {depth : Nat} {x : Xfer} (hx : x.cmd = CMD_PING) {c : Ctx}
    (hseq : c.seqEnabled = false) : Completes (spiXferCore (depth + 1) x) c := by
  refine completes_xferBody (fun c' _ _ => completes_resync_ping hx c') fun hon => ?_
  simp [hseq] at hon

theorem completes_unsequenced {depth : Nat} (x : Xfer) {c : Ctx} (hseq : c.seqEnabled = false) :
    Completes (spiXferCore (depth + 2) x) c := by
  refine completes_xferBody (fun c' _ hseq' => ?_) fun hon => ?_
  · exact completes_resync x (completes_ping_unsequenced rfl (hseq'.trans hseq))
  · simp [hseq] at hon

-- A context without a complete hook and, where `off` says so, without sequencing.
def Plain (off : Bool) (c : Ctx) : Prop :=
  c.attn.complete = false ∧ (off = true → c.seqEnabled = false)

-- What the negotiation relies on of the transfers it makes: they complete, and leave the context
-- plain unless LINK_FEATURES is answered.
structure Serves (core : Xfer → Drv Ending) (off : Bool) : Prop where
  completes : ∀ x c, Plain off c → Completes (core x) c
  plain : ∀ x c, Plain off c → Always (core x)
    (fun ending c' => (x.cmd = CMD_LINK_FEATURES → ∀ payload, ending ≠ .delivered payload) → Plain off c') c

section Negotiation

variable {self : Xfer → Drv Ending} {off : Bool} {c : Ctx}

theorem always_plain (depth : Nat) (x : Xfer) (h : Plain off c) :
    Always (spiXferCore depth x)
      (fun ending c' => (x.cmd = CMD_LINK_FEATURES → ∀ payload, ending ≠ .delivered payload) →
        Plain off c') c := by
  have hattn := (stable_attn c.attn).spiXferCore depth x c () rfl trivial
  cases off with
  | false =>
      refine wp_mono hattn fun _ c' _ _ hattn' _ => ⟨?_, nofun⟩
      rw [hattn']
      exact h.1
  | true =>
      refine wp_mono (wp_always hattn (always_unsequenced depth x (h.2 rfl))) ?_
      intro ending c' _ _ hend hnone
      refine ⟨?_, fun _ => ?_⟩
      · rw [hend.1]
        exact h.1
      · by_contra hon
        obtain ⟨hlf, payload, hdelivered⟩ := hend.2.2 (by simpa using hon)
        exact hnone hlf payload hdelivered

variable (hself : Serves self off)

include hself

theorem completes_linkFeaturesExt (want : Features) (mpReq : Nat) (h : Plain off c) :
    Completes (linkFeaturesExt self want mpReq) c := by
  refine .seq (.seq (hself.completes _ c h) fun _ _ => .pure _) fun reply c' => ?_
  cases reply with
  | error e => exact .pure _
  | ok reply => exact .seq (.modify _) fun _ _ => .pure _

theorem completes_negotiateLegacy (h : Plain off c) : Completes (negotiateLegacy self) c := by
  refine .seq (.seq (hself.completes _ c h) fun _ _ => .pure _) fun reply c' => ?_
  cases reply with
  | error e => exact .pure _
  | ok granted => exact .modify _

-- The extended form grants nothing it did not ask for, and a failure changes nothing that counts.
theorem always_linkFeaturesExt (want : Features) (mpReq : Nat) (h : Plain off c) :
    Always (linkFeaturesExt self want mpReq)
      (fun result c' => match result with
        | .ok () => has c'.granted LINK_FEAT_ATTN = true → has want LINK_FEAT_ATTN = true
        | .error _ => Plain off c') c := by
  refine wp_bind (wp_seq (hself.plain _ c h) fun ending c' _ _ hend => wp_pure trivial ?_)
  cases ending with
  | delivered reply => exact wp_modify_bind (wp_pure trivial (granted_grantedBy want reply).asked)
  | firmware e => exact wp_pure trivial (hend fun _ => nofun)
  | failed e => exact wp_pure trivial (hend fun _ => nofun)

-- Without a complete hook ATTN is not asked for, so there is nothing to test or to withdraw.
theorem completes_negotiateExtended (h : Plain off c) : Completes (negotiateExtended self) c := by
  have hwant : (c.attn.complete && !c.attnUnusable) = false := by simp [h.1]
  refine fun k => wp_get_bind (wp_modify_bind ?_)
  simp only [hwant, Bool.false_eq_true, if_false]
  refine Completes.bind (completes_linkFeaturesExt hself _ _ h) (always_linkFeaturesExt hself _ _ h) ?_ k
  intro result c' hend k'
  refine wp_modify_bind ?_
  cases result with
  | error e =>
      refine completes_negotiateLegacy hself ?_ k'
      exact ⟨hend.1, hend.2⟩
  | ok =>
      have hattn : has c'.granted LINK_FEAT_ATTN = false := by
        by_contra hon
        have hasked := hend (by simpa using hon)
        rw [has_wantedFeatures] at hasked
        cases hasked
      refine wp_get_bind ?_
      rw [if_pos (by simpa using hattn)]
      exact wp_pure trivial trivial

theorem completes_spiNegotiate (h : Plain off c) : Completes (spiNegotiate self) c := by
  refine fun k => wp_modify_bind (wp_get_bind ?_)
  split
  · exact wp_pure trivial trivial
  · split
    · refine completes_negotiateExtended hself ?_ k
      exact ⟨h.1, h.2⟩
    · refine completes_negotiateLegacy hself ?_ k
      exact ⟨h.1, h.2⟩

end Negotiation

theorem serves_unsequenced (depth : Nat) : Serves (spiXferCore (depth + 2)) true where
  completes x _ h := completes_unsequenced x (h.2 rfl)
  plain x _ h := always_plain (depth + 2) x h

-- The recovery starts by switching the sequencing off.
theorem completes_recover {depth : Nat} {c : Ctx} (hhook : c.attn.complete = false) :
    Completes (spiSeqResetRecover (spiXferCore (depth + 2))) c := by
  have hself := serves_unsequenced depth
  refine fun k => wp_modify_bind ?_
  generalize hdrop : { spiDropNegotiated c with attnUnusable := false } = dropped
  have hplain : Plain true dropped := by
    subst hdrop
    exact ⟨hhook, fun _ => rfl⟩
  have hversion := hself.completes (.fixed CMD_GET_VERSION [] 3) dropped hplain
  refine wp_bind (wp_seq (wp_always (hversion k) (hself.plain _ dropped hplain)) ?_)
  intro ending c' k' _ hend
  have hplain' : Plain true c' := hend.2 fun hlf => absurd hlf (by decide)
  refine wp_pure trivial ?_
  cases ending.result with
  | error e => exact completes_spiNegotiate hself hplain' k'
  | ok v =>
      refine wp_modify_bind (completes_spiNegotiate hself ?_ k')
      exact ⟨hplain'.1, hplain'.2⟩

theorem completes_ping {depth : Nat} {x : Xfer} (hx : x.cmd = CMD_PING) {c : Ctx}
    (hhook : c.attn.complete = false) : Completes (spiXferCore (depth + 3) x) c := by
  refine completes_xferBody (fun c' _ _ => completes_resync_ping hx c') fun _ c' hattn => ?_
  exact completes_recover (by rw [hattn]; exact hhook)

theorem completes_xfer {depth : Nat} (x : Xfer) {c : Ctx} (hhook : c.attn.complete = false) :
    Completes (spiXferCore (depth + 4) x) c := by
  refine completes_xferBody (fun c' hattn _ => ?_) fun _ c' hattn => ?_
  · exact completes_resync x (completes_ping rfl (by rw [hattn]; exact hhook))
  · exact completes_recover (by rw [hattn]; exact hhook)

theorem serves_all (depth : Nat) : Serves (spiXferCore (depth + 4)) false where
  completes x _ h := completes_xfer x h.1
  plain x _ h := always_plain (depth + 4) x h

-- A nesting of four transfers is enough where the hook lacks a function.
def NESTING : Nat := 4

theorem completes_renegotiate {c : Ctx} (hhook : c.attn.complete = false) :
    Completes (renegotiate NESTING) c := by
  have hself := serves_all 0
  have hversion := hself.completes (.fixed CMD_GET_VERSION [] 3) c ⟨hhook, nofun⟩
  refine fun k => wp_bind (wp_seq (wp_always (hversion k) (hself.plain _ c ⟨hhook, nofun⟩)) ?_)
  intro ending c' k' _ hend
  have hplain : Plain false c' := hend.2 fun hlf => absurd hlf (by decide)
  refine wp_pure trivial ?_
  cases ending.result with
  | error e => exact wp_pure trivial trivial
  | ok v =>
      refine wp_modify_bind (completes_spiNegotiate hself ?_ k')
      exact ⟨hplain.1, nofun⟩

theorem completes_withdrawAttn {c : Ctx} (hhook : c.attn.complete = false) :
    Completes (withdrawAttn NESTING) c := by
  refine fun k => wp_get_bind (wp_modify_bind ?_)
  refine Completes.seq (completes_linkFeaturesExt (serves_all 0) _ _ ?_) (fun _ _ => .pure _) k
  exact ⟨hhook, nofun⟩

section Calls

variable {hook : AttnHook} (hhook : hook.complete = false)

include hhook

theorem sends_counting : Sends counting (fun _ => True) False NESTING fun c => c.attn = hook where
  quiet := quiet_counting
  i2c _ _ _ _ _ _ _ _ _ := trivial
  xfer x _ _ c k hc _ :=
    wp_mono (wp_always (completes_xfer x (by rw [hc]; exact hhook) k)
      ((stable_attn hook).spiXferCore NESTING x c () hc trivial)) fun _ _ _ _ h => h.2
  renegotiate c k hc _ _ :=
    wp_mono (wp_always (completes_renegotiate (by rw [hc]; exact hhook) k)
      ((stable_attn hook).renegotiate ((stable_attn hook).spiXferCore NESTING) (fun _ _ h => h) c () hc trivial)) fun _ _ _ _ h => h.2
  withdraw c k hc _ _ _ :=
    wp_mono (wp_always (completes_withdrawAttn (by rw [hc]; exact hhook) k)
      ((stable_attn hook).withdrawAttn ((stable_attn hook).spiXferCore NESTING) c () hc trivial)) fun _ _ _ _ h => h.2
  cached _ _ hc := hc

theorem upholds_counting : Upholds counting (fun _ => True) False NESTING fun c => c.attn = hook where
  sends := sends_counting hhook
  negotiate c k hc _ _ := by
    have hplain : Plain false { c with renegotiatePending := false, attnUnusable := false } :=
      ⟨by rw [hc]; exact hhook, nofun⟩
    have hcompletes := completes_spiNegotiate (serves_all 0) hplain k
    have hframe := (stable_attn hook).spiNegotiate ((stable_attn hook).spiXferCore NESTING)
      { c with renegotiatePending := false, attnUnusable := false } () hc trivial
    exact wp_mono (wp_always hcompletes hframe) fun _ _ _ _ h => h.2
  tweak _ _ htweak hc := htweak.attn.trans hc
  resets _ hc := hc
  closes _ hc := hc
  nested := .inr (by decide)

theorem finishes_of_incomplete : Finishes hook := by
  refine ⟨NESTING, callCost NESTING, fun c hc call out k hexec => ⟨?_, ?_⟩⟩
  · have hcount := Library.Effect.exec_count_le (within_call NESTING call c) hexec
    omega
  · intro hout
    exact (wp_sound hexec ((upholds_counting hhook).keeps_call call c 0 hc trivial)).2.1 hout

end Calls

-- A bridge that answers every read with the same bytes and never drives ATTN.
def answering (bytes : List UInt8) : Library.Effect.Handler (issuing busSig Ctx) Unit :=
  fun i _ => (respond bytes i.cmd, ())

def completeHook : AttnHook := ⟨true, true, true, true⟩

-- The link as an ATTN self-test that saw no edge leaves it, about to withdraw ATTN.
def withdrawing : Ctx :=
  { freshCtx true false 0 completeHook with
    version := ⟨0, 15, 0⟩
    versionCached := true
    seqEnabled := true
    seqLast := 1
    granted := 0x1F
    supported := 0x1F
    maxPayload := BIG_MAX_PAYLOAD_BYTES
    attnUnusable := true }

def dropped : Ctx := { spiDropNegotiated withdrawing with attnUnusable := false }

-- The context in which the recovery asks for ATTN again.
def asking : Ctx := { dropped with attnActive := true }

-- The replies of a bridge that resets whenever ATTN is withdrawn.
def resetReply : List UInt8 := replyFrame 0x06 []
def versionReply : List UInt8 := replyFrame 0x00 [0, 15, 0]

def grantPayload : List UInt8 := [0x1F, 0, 0, 0, 0x1F, 0, 0, 0, 252, 0]
def grantReply : List UInt8 := replyFrame 0x10 grantPayload

-- The context that the grant leaves: no edge came with it.
def answered : Ctx := { asking with attnTimeoutRun := 1, seqEnabled := true, seqLast := 1 }

-- The context of the self-test, and the one in which a command finds the line out of order.
def tested : Ctx := { withdrawing with attnUnusable := false }
def faulted : Ctx := { tested with attnActive := false, attnFaultPending := true }

def withdrawal : Xfer := .fixed CMD_LINK_FEATURES (putLe32 0x1B ++ putLE 2 252) 10
def request : Xfer := .fixed CMD_LINK_FEATURES (putLe32 (wantedFeatures true) ++ putLE 2 252) 10
def probe : Xfer := .fixed CMD_GET_VERSION [] 3

theorem exchange_of_run {x : Xfer} {c c' : Ctx} (bytes : List UInt8) {seen : List UInt8}
    (h : ((exchange x c).run (answering bytes) ()).1 = some (.ok seen, c')) :
    Exec anyReply () (exchange x c) (some (some (.ok seen, c'))) () := by
  have hany : ∀ i u, anyReply u i (answering bytes i u).1 (answering bytes i u).2 := fun _ _ => trivial
  have hexec := Library.Effect.exec_of_run hany (exchange x c) ()
  rw [h] at hexec
  exact hexec

theorem exec_version (self : Xfer → Drv Ending) :
    Exec anyReply () (xferBody self probe dropped) (some (some (.delivered [0, 15, 0], dropped))) () := by
  have hexchange : Exec anyReply () (exchange probe dropped) (some (some (.ok versionReply, dropped))) () :=
    exchange_of_run versionReply (by decide +kernel)
  exact exec_begin (by decide) trivial (exec_deliver hexchange (by decide +kernel) trivial)

theorem exec_grant (self : Xfer → Drv Ending) :
    Exec anyReply () (xferBody self request asking) (some (some (.delivered grantPayload, answered))) () := by
  have hexchange : Exec anyReply () (exchange request asking)
      (some (some (.ok grantReply, { asking with attnTimeoutRun := 1 }))) () :=
    exchange_of_run grantReply (by decide +kernel)
  exact exec_begin (by decide) trivial (exec_deliver hexchange (by decide +kernel) trivial)

-- The recovery asks for ATTN again, sees no edge with the grant and withdraws it, which is where
-- the recovery came from.
theorem exec_recover {depth : Nat}
    (h : Exec anyReply () (spiXferCore depth withdrawal withdrawing) (some none) ()) :
    Exec anyReply () (spiSeqResetRecover (spiXferCore depth) withdrawing) (some none) () := by
  refine exec_modify dropped rfl ?_
  cases depth with
  | zero => exact exec_exhausted (exec_exhausted (.done () none))
  | succ depth =>
      refine exec_then (exec_then (exec_version _) (.done _ _)) (exec_modify dropped rfl ?_)
      -- spiNegotiate, then negotiateExtended
      refine exec_modify dropped rfl (exec_get (exec_get (exec_modify asking rfl ?_)))
      refine exec_then (exec_then (exec_then (exec_grant _) (.done _ _)) (.done _ _)) ?_
      refine exec_modify tested (by decide +kernel) (exec_get ?_)
      rw [if_neg (by decide), if_neg (by decide)]
      exact exec_modify withdrawing rfl (exec_exhausted (exec_exhausted (exec_exhausted h)))

theorem exec_spiral (depth : Nat) :
    Exec anyReply () (spiXferCore depth withdrawal withdrawing) (some none) () := by
  induction depth with
  | zero => exact .done () none
  | succ depth ih =>
      have hexchange : Exec anyReply () (exchange withdrawal withdrawing)
          (some (some (.ok (clocked 14 resetReply), withdrawing))) () :=
        exchange_of_run resetReply (by decide +kernel)
      exact exec_begin (by decide) trivial (exec_reset hexchange (by decide +kernel) (exec_recover ih))

-- A PING that finds an ATTN fault withdraws ATTN first.
theorem exec_faulted (depth : Nat) :
    Exec anyReply () (Call.run depth (.simple (.pingVia .spi)) faulted) (some none) () := by
  have hwithdraw : Exec anyReply () (withdrawAttn depth faulted) (some none) () :=
    exec_get (exec_modify withdrawing rfl (exec_exhausted (exec_exhausted (exec_exhausted (exec_spiral depth)))))
  have hawake : Exec anyReply () (wakeFirst (powerWake depth depth) faulted)
      (some (some (.ok (), faulted))) () := .done () _
  have hprepare : Exec anyReply () (spiPrepare depth (powerWake depth depth) faulted) (some none) () := by
    refine exec_get ?_
    rw [if_neg (by decide)]
    refine exec_then hawake (exec_get ?_)
    rw [if_neg (by decide), if_pos (by decide)]
    exact exec_exhausted hwithdraw
  have hsend : Exec anyReply () (spiSend depth (powerWake depth depth) CMD_PING [] 0 faulted) (some none) () :=
    exec_exhausted hprepare
  exact exec_get (exec_exhausted (exec_get (exec_then hawake hsend)))

theorem exec_counting (depth : Nat) :
    ∃ k, Exec counting 0 (Call.run depth (.simple (.pingVia .spi)) faulted) (some none) k :=
  Library.Effect.exec_count_of_any isCounted (exec_faulted depth) 0

-- Every public call ends within one bound exactly where the hook lacks one of its functions.
theorem finishes_iff (hook : AttnHook) : Finishes hook ↔ hook.complete = false := by
  refine ⟨fun ⟨nesting, bound, h⟩ => ?_, finishes_of_incomplete⟩
  by_contra hcomplete
  have hhook : faulted.attn = hook := by
    obtain ⟨now, wait, readLevel, drain⟩ := hook
    simp only [AttnHook.complete, Bool.not_eq_false, Bool.and_eq_true] at hcomplete
    obtain ⟨⟨⟨rfl, rfl⟩, rfl⟩, rfl⟩ := hcomplete
    rfl
  obtain ⟨k, hexec⟩ := exec_counting nesting
  exact (h faulted hhook (.simple (.pingVia .spi)) _ k hexec).2 rfl

theorem not_finishes_completeHook : ¬ Finishes completeHook := by
  rintro ⟨nesting, bound, h⟩
  obtain ⟨k, hexec⟩ := exec_counting nesting
  exact (h faulted rfl (.simple (.pingVia .spi)) _ k hexec).2 rfl

end AlpSdk.Gd32
