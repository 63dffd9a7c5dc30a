import AlpSdk.Gd32.Upholds

namespace AlpSdk.Gd32

open Library.Bytes Library.Local
open Library.Effect (Signature Env Exec)

theorem has_bit {f : Features} (i : Nat) (hf : f = BitVec.twoPow 32 i) (hne : f ≠ 0) (g : Features) :
    has g f = g.getLsbD i := by
  subst hf
  unfold has
  rw [BitVec.and_twoPow]
  cases g.getLsbD i with
  | true => simpa using hne
  | false => simp

@[simp] theorem has_statusSeq (g : Features) : has g LINK_FEAT_STATUS_SEQ = g.getLsbD 0 :=
  has_bit 0 (by decide) (by decide) g

@[simp] theorem has_bigFrame (g : Features) : has g LINK_FEAT_BIG_FRAME = g.getLsbD 1 :=
  has_bit 1 (by decide) (by decide) g

@[simp] theorem has_attn (g : Features) : has g LINK_FEAT_ATTN = g.getLsbD 2 :=
  has_bit 2 (by decide) (by decide) g

-- The payload ceiling fits the frame buffers and rises above the base only with BIG_FRAME.
structure Sized (c : Ctx) : Prop where
  low : MAX_PAYLOAD_BYTES ≤ c.maxPayload
  high : c.maxPayload ≤ BIG_MAX_PAYLOAD_BYTES
  big : MAX_PAYLOAD_BYTES < c.maxPayload → has c.granted LINK_FEAT_BIG_FRAME = true

-- The negotiated link between calls.
structure Negotiated (c : Ctx) : Prop extends Sized c where
  attn : c.attnActive = true →
    has c.granted LINK_FEAT_ATTN = true ∧ has c.granted LINK_FEAT_STATUS_SEQ = true ∧
      c.attn.complete = true

-- What a reply can grant: nothing that was not asked for, nothing that contradicts itself.
structure Granted (want granted : Features) (mp : Nat) : Prop where
  low : MAX_PAYLOAD_BYTES ≤ mp
  high : mp ≤ BIG_MAX_PAYLOAD_BYTES
  big : MAX_PAYLOAD_BYTES < mp → has granted LINK_FEAT_BIG_FRAME = true
  seq : has granted LINK_FEAT_ATTN = true → has granted LINK_FEAT_STATUS_SEQ = true
  asked : has granted LINK_FEAT_ATTN = true → has want LINK_FEAT_ATTN = true

theorem granted_of_ceiling {want g : Features} {mp : Nat}
    (hmp : g.getLsbD 1 = true → MAX_PAYLOAD_BYTES < mp ∧ mp ≤ BIG_MAX_PAYLOAD_BYTES)
    (hasked : g.getLsbD 2 = true → want.getLsbD 2 = true) :
    Granted want (if g.getLsbD 0 = true then g else g &&& ~~~LINK_FEAT_ATTN)
      (if g.getLsbD 1 = true then mp else MAX_PAYLOAD_BYTES) := by
  have hkept : (g &&& ~~~LINK_FEAT_ATTN).getLsbD 1 = g.getLsbD 1 := by simp [LINK_FEAT_ATTN]
  have hcleared : (g &&& ~~~LINK_FEAT_ATTN).getLsbD 2 = false := by simp [LINK_FEAT_ATTN]
  have hbig : MAX_PAYLOAD_BYTES < (if g.getLsbD 1 = true then mp else MAX_PAYLOAD_BYTES) →
      g.getLsbD 1 = true := by
    intro hlt
    by_contra hoff
    rw [if_neg hoff] at hlt
    exact lt_irrefl _ hlt
  refine ⟨?_, ?_, fun hlt => ?_, fun hattn => ?_, fun hattn => ?_⟩
  · split
    · exact (hmp ‹_›).1.le
    · exact le_rfl
  · split
    · exact (hmp ‹_›).2
    · decide
  · rw [has_bigFrame]
    split
    · exact hbig hlt
    · rw [hkept]
      exact hbig hlt
  · rw [has_attn] at hattn
    by_cases hseq : g.getLsbD 0 = true
    · rw [if_pos hseq, has_statusSeq]
      exact hseq
    · rw [if_neg hseq, hcleared] at hattn
      cases hattn
  · rw [has_attn] at hattn ⊢
    by_cases hseq : g.getLsbD 0 = true
    · rw [if_pos hseq] at hattn
      exact hasked hattn
    · rw [if_neg hseq, hcleared] at hattn
      cases hattn

theorem granted_grantedBy (want : Features) (reply : List UInt8) :
    Granted want (grantedBy want reply).1 (grantedBy want reply).2 := by
  have hasked : (getLe32 0 reply &&& want).getLsbD 2 = true → want.getLsbD 2 = true := by
    intro h
    simp only [BitVec.getLsbD_and, Bool.and_eq_true] at h
    exact h.2
  generalize hg : getLe32 0 reply &&& want = g at hasked
  unfold grantedBy
  simp only [hg, has_statusSeq, has_bigFrame]
  by_cases hbad : g.getLsbD 1 = true ∧
      (getLe16 8 reply ≤ MAX_PAYLOAD_BYTES ∨ getLe16 8 reply > BIG_MAX_PAYLOAD_BYTES)
  · rw [if_pos hbad]
    refine granted_of_ceiling (fun hbig => ?_) fun hattn => hasked ?_
    · simp [LINK_FEAT_BIG_FRAME] at hbig
    · simpa [LINK_FEAT_BIG_FRAME] using hattn
  · rw [if_neg hbad]
    refine granted_of_ceiling (fun hbig => ?_) hasked
    simpa [hbig] using hbad

-- The transfers of the driver, in order, with the context each was issued in.
abbrev Trace : Type := List (Issued busSig Ctx)

-- The buses and the hook may answer anything; every bus command is recorded.
def recording : Env (issuing busSig Ctx) Trace := fun trace i _ trace' =>
  trace' = if BusCmd.isQuiet i.cmd then trace else trace ++ [i]

-- A request frame and a clocked reply fit the 256-byte buffers of the context, a payload over
-- the base envelope is a BATCH on a link with BIG_FRAME, and the CRC position that the bytes of
-- a reply give lies inside what was clocked.
def Fits (i : Issued busSig Ctx) : Prop :=
  match i.cmd with
  | .spiWrite frame => frame.length ≤ SPI_FRAME_BYTES ∧
      (MAX_PAYLOAD_BYTES < frame.length - 4 →
        frame.getD 1 0 = CMD_BATCH ∧ has i.state.granted LINK_FEAT_BIG_FRAME = true)
  | .spiRead len => len ≤ SPI_FRAME_BYTES
  | .begin x => ∀ reply plen, reply.length = 2 + x.replyMax + 2 → replyLen x reply = some plen →
      2 + plen + 2 ≤ reply.length
  | _ => True

def AllFit (trace : Trace) : Prop := ∀ i ∈ trace, Fits i

theorem quiet_recording : Quiet recording := by
  intro trace c cmd reply trace' hcmd henv
  simp only [recording, hcmd, if_true] at henv
  exact henv

theorem allFit_recorded {trace trace' : Trace} {c : Ctx} {cmd : BusCmd} {reply : BusCmd.Reply cmd}
    (h : AllFit trace) (hfits : Fits ⟨c, cmd⟩) (henv : recording trace ⟨c, cmd⟩ reply trace') :
    AllFit trace' := by
  unfold recording at henv
  split at henv
  · subst henv
    exact h
  · subst henv
    intro i hi
    rcases List.mem_append.mp hi with hi | hi
    · exact h i hi
    · rw [List.mem_singleton.mp hi]
      exact hfits

theorem linkMaxPayload_of_sized {c : Ctx} (h : Sized c) : linkMaxPayload c = c.maxPayload := by
  have hlow := h.low
  unfold linkMaxPayload
  split
  · rfl
  · omega

theorem length_requestFrame (x : Xfer) : (requestFrame x).length = x.payload.length + 4 := by
  simp [requestFrame]

theorem fits_write {c : Ctx} {x : Xfer} (h : Sized c) (hlen : x.payload.length ≤ reqCap c x) :
    Fits ⟨c, .spiWrite (requestFrame x)⟩ := by
  have hhigh := h.high
  have hlength := length_requestFrame x
  unfold reqCap at hlen
  rw [linkMaxPayload_of_sized h] at hlen
  refine ⟨?_, fun hbig => ?_⟩
  · simp only [SPI_FRAME_BYTES, BIG_MAX_PAYLOAD_BYTES, MAX_PAYLOAD_BYTES] at *
    split at hlen
    all_goals omega
  · have hover : MAX_PAYLOAD_BYTES < x.payload.length := by omega
    split at hlen
    · rename_i hbatch
      exact ⟨hbatch, h.big (by omega)⟩
    · omega

theorem fits_read {c : Ctx} {x : Xfer} (h : Sized c) (hlen : x.replyMax ≤ repCap c x) :
    Fits ⟨c, .spiRead (2 + x.replyMax + 2)⟩ := by
  have hhigh := h.high
  unfold repCap at hlen
  rw [linkMaxPayload_of_sized h] at hlen
  simp only [Fits, SPI_FRAME_BYTES, BIG_MAX_PAYLOAD_BYTES, MAX_PAYLOAD_BYTES] at *
  split at hlen
  all_goals omega

theorem fits_begin {c : Ctx} {x : Xfer} (hx : x.Decodes) : Fits ⟨c, .begin x⟩ := by
  intro reply plen hlen hplen
  have hle : plen ≤ x.replyMax := by
    unfold replyLen at hplen
    split at hplen
    · cases hplen
      exact le_rfl
    · rename_i decode hdecode
      split at hplen
      · exact hx decode _ plen hdecode (length_slice_le 2 x.replyMax reply) hplen
      · cases hplen
  omega

theorem fits_accept {c : Ctx} : Fits ⟨c, .accept⟩ := trivial

theorem fits_i2c {c : Ctx} {addr : UInt8} {frame : List UInt8} {len : Nat} :
    Fits ⟨c, .i2cWriteRead addr frame len⟩ := trivial

-- What an undisturbed transfer leaves of the link.
structure SameLink (c c' : Ctx) : Prop where
  granted : c'.granted = c.granted
  maxPayload : c'.maxPayload = c.maxPayload
  attn : c'.attn = c.attn
  renegotiatePending : c'.renegotiatePending = c.renegotiatePending
  powerAsleep : c'.powerAsleep = c.powerAsleep
  attnActive : c'.attnActive = true → c.attnActive = true
  attnFaultPending : c'.attnFaultPending = true → c.attnFaultPending = true ∨ c.attnActive = true

theorem Undisturbed.sameLink {c c' : Ctx} (h : Undisturbed c c') : SameLink c c' := by
  obtain ⟨_, _, _, ⟨_, _, _, _, _, hact, hfault, rfl⟩, rfl⟩ := h
  exact ⟨rfl, rfl, rfl, rfl, rfl, hact, hfault⟩

theorem SameLink.idle {c c' : Ctx} (h : SameLink c c') (hact : c.attnActive = false) :
    c'.attnActive = false := by
  by_contra hon
  have hwas := h.attnActive (by simpa using hon)
  simp [hact] at hwas

theorem Sized.of_undisturbed {c c' : Ctx} (h : Sized c) (hund : Undisturbed c c') : Sized c' := by
  have hlink := hund.sameLink
  refine ⟨?_, ?_, ?_⟩
  · rw [hlink.maxPayload]
    exact h.low
  · rw [hlink.maxPayload]
    exact h.high
  · rw [hlink.maxPayload, hlink.granted]
    exact h.big

theorem Sized.of_calm {c c' : Ctx} (h : Sized c) (hcalm : Calm c c') : Sized c' :=
  h.of_undisturbed (.of_calm hcalm)

theorem caps_of_calm {c c' : Ctx} (x : Xfer) (hcalm : Calm c c') :
    reqCap c' x = reqCap c x ∧ repCap c' x = repCap c x := by
  obtain ⟨_, _, _, _, _, -, -, rfl⟩ := hcalm
  exact ⟨rfl, rfl⟩

section Transfers

variable {x : Xfer} {c : Ctx} {trace : Trace}

theorem fits_exchange (hsized : Sized c) (hreq : x.payload.length ≤ reqCap c x)
    (hrep : x.replyMax ≤ repCap c x) (hJ : AllFit trace) :
    wp recording AllFit True (exchange x) (fun _ c' _ => Calm c c') c trace := by
  have hwrite : ∀ c', Calm c c' → Fits ⟨c', .spiWrite (requestFrame x)⟩ := by
    intro c' hcalm
    exact fits_write (hsized.of_calm hcalm) ((caps_of_calm x hcalm).1 ▸ hreq)
  refine wp_exchange quiet_recording hJ
    (fun c' e trace' hcalm henv => ⟨allFit_recorded hJ (hwrite c' hcalm) henv, hcalm⟩) ?_
  refine fun c' trace' hcalm henv => ⟨allFit_recorded hJ (hwrite c' hcalm) henv, ?_⟩
  intro c'' hcalm'
  have hcalm'' := hcalm.trans hcalm'
  have hread := fits_read (hsized.of_calm hcalm'') ((caps_of_calm x hcalm'').2 ▸ hrep)
  exact wp_readReply (fun _ h => h) (fun _ _ _ h henv => ⟨allFit_recorded h hread henv, hcalm''⟩)
    (fun _ _ _ h henv => ⟨allFit_recorded h hread henv, hcalm''⟩) REPLY_RETRIES
    (allFit_recorded hJ (hwrite c' hcalm) henv)

theorem fits_core_unsequenced (depth : Nat) (hx : x.Decodes) (hsized : Sized c)
    (hseq : c.seqEnabled = false) (hJ : AllFit trace) :
    wp recording AllFit True (spiXferCore depth x) (fun _ _ _ => True) c trace := by
  induction depth generalizing x c trace with
  | zero => exact wp_exhausted hJ trivial
  | succ depth ih =>
      refine wp_xferBody hJ (fun _ _ => trivial) fun ⟨_, hreq, hrep⟩ trace' henv => ?_
      have hJ' := allFit_recorded hJ (fits_begin hx) henv
      have hresync : ∀ c' trace', Sized c' → c'.seqEnabled = false → AllFit trace' →
          wp recording AllFit True (spiResyncAfterFailure (spiXferCore depth) x) (fun _ _ _ => True)
            c' trace' := by
        intro c' trace' hsized' hoff hJ'
        refine wp_resync hJ' (fun _ => trivial) fun _ => ih (decodes_fixed _ _ _) hsized' hoff hJ'
      refine wp_sendOnce (fits_exchange hsized hreq hrep hJ') (fun _ _ _ _ _ => trivial) ?_
      intro reply c' trace'' hJ'' hcalm
      have hoff : c'.seqEnabled = false := by
        obtain ⟨_, _, _, _, _, -, -, rfl⟩ := hcalm
        exact hseq
      have hsized' := hsized.of_calm hcalm
      have hspec := settle_spec x c' reply
      generalize settle x c' reply = outcome at hspec
      cases outcome with
      | deliver c'' payload => exact fun _ henv' => ⟨allFit_recorded hJ'' fits_accept henv', trivial⟩
      | firmware c'' e resync =>
          have hc'' : c'' = { c' with seqLast := c''.seqLast } := hspec
          cases resync with
          | true =>
              refine fun _ henv' => hresync c'' _ ?_ ?_ (allFit_recorded hJ'' fits_accept henv')
              · rw [hc'']
                exact ⟨hsized'.low, hsized'.high, hsized'.big⟩
              · rw [hc'']
                exact hoff
          | false => exact fun _ henv' => ⟨allFit_recorded hJ'' fits_accept henv', trivial⟩
      | reset => simp [SettleSpec, hoff] at hspec
      | lost => exact hresync c' _ hsized' hoff hJ''
      | stale => simp [SettleSpec, hoff] at hspec

theorem fits_unsequenced (depth : Nat) (hx : x.Decodes) (hsized : Sized c)
    (hseq : c.seqEnabled = false) (hJ : AllFit trace) :
    wp recording AllFit True (spiXferCore depth x) (fun ending c' _ => Unsequenced x c ending c')
      c trace :=
  wp_mono (wp_always (fits_core_unsequenced depth hx hsized hseq hJ) (always_unsequenced depth x hseq))
    fun _ _ _ _ h => h.2

end Transfers

-- The invariant of the link between calls: while a renegotiation is pending nothing is sequenced.
structure LinkInv (c : Ctx) : Prop extends Negotiated c where
  pending : c.renegotiatePending = true → c.seqEnabled = false

theorem LinkInv.of_calm {c c' : Ctx} (h : LinkInv c) (hcalm : Calm c c') : LinkInv c' := by
  obtain ⟨_, _, _, _, _, hact, -, rfl⟩ := hcalm
  exact ⟨⟨⟨h.low, h.high, h.big⟩, fun hon => h.attn (hact hon)⟩, h.pending⟩

-- A context that no ATTN edge is awaited in and that has nothing pending.
theorem linkInv_of_idle {c : Ctx} (hsized : Sized c) (hact : c.attnActive = false)
    (hpending : c.renegotiatePending = false) : LinkInv c :=
  ⟨⟨hsized, by simp [hact]⟩, by simp [hpending]⟩

section Negotiation

variable {depth : Nat} {c : Ctx} {trace : Trace}

-- The transfers that `self` makes of a link in order.
def Orderly (self : Xfer → Drv Ending) : Prop :=
  ∀ x c trace, x.Decodes → (x.cmd = CMD_LINK_FEATURES → c.renegotiatePending = false) → LinkInv c →
    AllFit trace →
    wp recording AllFit True (self x) (fun _ c' _ => LinkInv c') c trace

-- The extended form on a link that is not sequenced: what it granted, or nothing changed.
theorem linkFeaturesExt_unsequenced {want : Features} {mpReq : Nat} (hsized : Sized c)
    (hseq : c.seqEnabled = false) (hJ : AllFit trace) :
    wp recording AllFit True (linkFeaturesExt (spiXferCore depth) want mpReq)
      (fun result c' _ => ∃ mid, Undisturbed c mid ∧
        ((result = .ok () ∧ ∃ granted supported mp, Granted want granted mp ∧
            c' = { mid with granted := granted, supported := supported, maxPayload := mp }) ∨
          (∃ e, result = .error e) ∧ c' = mid ∧ mid.seqEnabled = false)) c trace := by
  refine wp_bind (wp_seq (fits_unsequenced depth (decodes_fixed _ _ _) hsized hseq hJ) ?_)
  intro ending c' trace' hJ' hend
  refine wp_pure hJ' ?_
  cases ending with
  | delivered reply =>
      refine wp_modify_bind (wp_pure hJ' ⟨c', hend.1, .inl ⟨rfl, _, _, _, ?_, rfl⟩⟩)
      exact granted_grantedBy want reply
  | firmware e =>
      refine wp_pure hJ' ⟨c', hend.1, .inr ⟨⟨e, rfl⟩, rfl, ?_⟩⟩
      by_contra hon
      obtain ⟨-, payload, hdelivered⟩ := hend.2 (by simpa using hon)
      cases hdelivered
  | failed e =>
      refine wp_pure hJ' ⟨c', hend.1, .inr ⟨⟨e, rfl⟩, rfl, ?_⟩⟩
      by_contra hon
      obtain ⟨-, payload, hdelivered⟩ := hend.2 (by simpa using hon)
      cases hdelivered

-- A link at the base ceiling is in order whatever its other features.
theorem linkInv_of_base {c : Ctx} (hmp : c.maxPayload = MAX_PAYLOAD_BYTES) (hact : c.attnActive = false)
    (hpending : c.renegotiatePending = false) : LinkInv c := by
  refine linkInv_of_idle ⟨hmp.ge, ?_, ?_⟩ hact hpending
  · rw [hmp]
    decide
  · intro hlt
    rw [hmp] at hlt
    exact absurd hlt (lt_irrefl _)

theorem negotiateLegacy_orderly (hmp : c.maxPayload = MAX_PAYLOAD_BYTES)
    (hseq : c.seqEnabled = false) (hact : c.attnActive = false)
    (hpending : c.renegotiatePending = false) (hJ : AllFit trace) :
    wp recording AllFit True (negotiateLegacy (spiXferCore depth)) (fun _ c' _ => LinkInv c') c trace := by
  have hsized : Sized c := (linkInv_of_base hmp hact hpending).toSized
  refine wp_bind (wp_seq (fits_unsequenced depth (decodes_fixed _ _ _) hsized hseq hJ) ?_)
  intro ending c' trace' hJ' hend
  refine wp_pure hJ' ?_
  have hlink := hend.1.sameLink
  have hmp' := hlink.maxPayload.trans hmp
  have hpending' := hlink.renegotiatePending.trans hpending
  cases ending.result with
  | error e => exact wp_pure hJ' (linkInv_of_base hmp' (hlink.idle hact) hpending')
  | ok granted => exact wp_modify hJ' (linkInv_of_base hmp' (hlink.idle hact) hpending')

-- The withdrawal on a link that may be sequenced: it can run into a reset and its recovery.
theorem withdraw_orderly (hself : Orderly (spiXferCore depth)) {want : Features} {mpReq : Nat}
    (hact : c.attnActive = false) (hinv : LinkInv c) (hpending : c.renegotiatePending = false)
    (hJ : AllFit trace) :
    wp recording AllFit True (linkFeaturesExt (spiXferCore depth) want mpReq)
      (fun _ c' _ => LinkInv c') c trace := by
  have hxfer := wp_always (hself (.fixed CMD_LINK_FEATURES (putLe32 want ++ putLE 2 mpReq) 10) c trace
    (decodes_fixed _ _ _) (fun _ => hpending) hinv hJ) (always_delivers depth _ c)
  refine wp_bind (wp_seq hxfer fun ending c' trace' hJ' hend => wp_pure hJ' ?_)
  cases ending with
  | delivered reply =>
      have hlink := (hend.2 reply rfl).1.sameLink
      have hgranted := granted_grantedBy want reply
      refine wp_modify_bind (wp_pure hJ' (linkInv_of_idle ?_ (hlink.idle hact) ?_))
      · exact ⟨hgranted.low, hgranted.high, hgranted.big⟩
      · exact hlink.renegotiatePending.trans hpending
  | firmware e => exact wp_pure hJ' hend.1
  | failed e => exact wp_pure hJ' hend.1

theorem attnSelfTest_orderly (hself : Orderly (spiXferCore depth)) (hsized : Sized c)
    (hattn : has c.granted LINK_FEAT_ATTN = true →
      has c.granted LINK_FEAT_STATUS_SEQ = true ∧ c.attn.complete = true)
    (hact : c.attnActive = false) (hpending : c.renegotiatePending = false) (hJ : AllFit trace) :
    wp recording AllFit True (attnSelfTest (spiXferCore depth)) (fun _ c' _ => LinkInv c') c trace := by
  have hinv : LinkInv c := linkInv_of_idle hsized hact hpending
  refine wp_get_bind ?_
  split
  · exact wp_pure hJ hinv
  · rename_i hgranted
    have hgranted : has c.granted LINK_FEAT_ATTN = true := by simpa using hgranted
    split
    · refine wp_modify hJ ⟨⟨⟨hsized.low, hsized.high, hsized.big⟩, fun _ => ⟨hgranted, hattn hgranted⟩⟩, ?_⟩
      simp [hpending]
    · refine wp_modify_bind (wp_seq ?_ fun _ _ _ hJ' h => wp_pure hJ' h)
      refine withdraw_orderly hself hact ?_ hpending hJ
      exact linkInv_of_idle ⟨hsized.low, hsized.high, hsized.big⟩ hact hpending

theorem has_wantedFeatures (wantAttn : Bool) : has (wantedFeatures wantAttn) LINK_FEAT_ATTN = wantAttn := by
  cases wantAttn with
  | true => decide
  | false => decide

theorem negotiateExtended_orderly (hself : Orderly (spiXferCore depth))
    (hmp : c.maxPayload = MAX_PAYLOAD_BYTES) (hseq : c.seqEnabled = false)
    (hpending : c.renegotiatePending = false) (hJ : AllFit trace) :
    wp recording AllFit True (negotiateExtended (spiXferCore depth)) (fun _ c' _ => LinkInv c') c trace := by
  refine wp_get_bind (wp_modify_bind ?_)
  generalize hwant : (c.attn.complete && !c.attnUnusable) = wantAttn
  -- the provisional ATTN of the self-test, which no link in order has
  generalize hprov : (if wantAttn = true then { c with attnActive := true } else c) = prov
  obtain ⟨hmp', hseq', hpending', hattn'⟩ : prov.maxPayload = MAX_PAYLOAD_BYTES ∧
      prov.seqEnabled = false ∧ prov.renegotiatePending = false ∧ prov.attn = c.attn := by
    subst hprov
    split
    · exact ⟨hmp, hseq, hpending, rfl⟩
    · exact ⟨hmp, hseq, hpending, rfl⟩
  have hsized : Sized prov := by
    refine ⟨hmp'.ge, ?_, fun hlt => ?_⟩
    · rw [hmp']
      decide
    · rw [hmp'] at hlt
      exact absurd hlt (lt_irrefl _)
  refine wp_seq (linkFeaturesExt_unsequenced hsized hseq' hJ) fun result c' trace' hJ' hend => ?_
  refine wp_modify_bind ?_
  obtain ⟨mid, hund, hend⟩ := hend
  have hlink := hund.sameLink
  rcases hend with ⟨rfl, granted, supported, mp, hgranted, rfl⟩ | ⟨⟨e, rfl⟩, rfl, hoff⟩
  · refine attnSelfTest_orderly hself ⟨hgranted.low, hgranted.high, hgranted.big⟩ (fun hattn => ?_) rfl
      (hlink.renegotiatePending.trans hpending') hJ'
    refine ⟨hgranted.seq hattn, ?_⟩
    have hasked := hgranted.asked hattn
    rw [has_wantedFeatures] at hasked
    simp only [hasked, Bool.and_eq_true] at hwant
    have hcomplete : mid.attn.complete = true := by rw [hlink.attn, hattn']; exact hwant.1
    exact hcomplete
  · exact negotiateLegacy_orderly (hlink.maxPayload.trans hmp') hoff rfl
      (hlink.renegotiatePending.trans hpending') hJ'

theorem spiNegotiate_orderly (hself : Orderly (spiXferCore depth)) (hseq : c.seqEnabled = false)
    (hpending : c.renegotiatePending = false) (hJ : AllFit trace) :
    wp recording AllFit True (spiNegotiate (spiXferCore depth)) (fun _ c' _ => LinkInv c') c trace := by
  refine wp_modify_bind (wp_get_bind ?_)
  split
  · exact wp_pure hJ (linkInv_of_base rfl rfl hpending)
  · split
    · exact negotiateExtended_orderly hself rfl hseq hpending hJ
    · exact negotiateLegacy_orderly rfl hseq rfl hpending hJ

theorem recover_orderly (hself : Orderly (spiXferCore depth)) (hpending : c.renegotiatePending = false)
    (hJ : AllFit trace) :
    wp recording AllFit True (spiSeqResetRecover (spiXferCore depth)) (fun _ c' _ => LinkInv c')
      c trace := by
  refine wp_modify_bind ?_
  generalize hdrop : { spiDropNegotiated c with attnUnusable := false } = dropped
  have hbase : LinkInv dropped := by
    subst hdrop
    exact linkInv_of_base rfl rfl hpending
  have hpending' : dropped.renegotiatePending = false := by subst hdrop; exact hpending
  have hseq' : dropped.seqEnabled = false := by subst hdrop; rfl
  refine wp_bind (wp_bind (wp_mono
    (fits_unsequenced depth (decodes_fixed _ _ _) hbase.toSized hseq' hJ) fun ending c' trace' hJ' hend => ?_))
  refine wp_pure hJ' ?_
  have hlink := hend.1.sameLink
  have hoff : c'.seqEnabled = false := by
    by_contra hon
    exact absurd (hend.2 (by simpa using hon)).1 (by decide)
  have hsettled := hlink.renegotiatePending.trans hpending'
  cases ending.result with
  | error e => exact spiNegotiate_orderly hself hoff hsettled hJ'
  | ok v =>
      refine wp_modify_bind ?_
      exact spiNegotiate_orderly hself hoff hsettled hJ'

theorem LinkInv.of_settled {x : Xfer} {c c' : Ctx} (h : LinkInv c) (hs : Settled x c c')
    (hlf : x.cmd = CMD_LINK_FEATURES → c.renegotiatePending = false) : LinkInv c' := by
  obtain ⟨enabled, last, hswitch, rfl⟩ := hs
  refine ⟨⟨⟨h.low, h.high, h.big⟩, h.attn⟩, fun hpending => ?_⟩
  by_contra hon
  have hchanged : enabled ≠ c.seqEnabled := by
    rw [h.pending hpending]
    exact hon
  have hnone : c.renegotiatePending = false := hlf (hswitch hchanged)
  have hpending : c.renegotiatePending = true := hpending
  simp [hnone] at hpending

theorem sendOnce_orderly {x : Xfer} {again : Drv Ending} (hself : Orderly (spiXferCore depth))
    (hlf : x.cmd = CMD_LINK_FEATURES → c.renegotiatePending = false) (hinv : LinkInv c)
    (hreq : x.payload.length ≤ reqCap c x) (hrep : x.replyMax ≤ repCap c x) (hJ : AllFit trace)
    (hagain : ∀ c' trace', Calm c c' → AllFit trace' →
      wp recording AllFit True again (fun _ c' _ => LinkInv c') c' trace') :
    wp recording AllFit True (sendOnce (spiXferCore depth) x again) (fun _ c' _ => LinkInv c')
      c trace := by
  have hresync : ∀ c' trace', LinkInv c' → AllFit trace' →
      wp recording AllFit True (spiResyncAfterFailure (spiXferCore depth) x)
        (fun _ c' _ => LinkInv c') c' trace' := by
    intro c' trace' hinv' hJ'
    refine wp_resync hJ' (fun _ => hinv') fun _ => ?_
    exact hself _ c' trace' (decodes_fixed _ _ _) (fun hping => absurd hping (by decide)) hinv' hJ'
  refine wp_sendOnce (fits_exchange hinv.toSized hreq hrep hJ)
    (fun _ _ _ _ hcalm => hinv.of_calm hcalm) fun reply c' trace' hJ' hcalm => ?_
  have hinv' := hinv.of_calm hcalm
  have hpending : c'.renegotiatePending = c.renegotiatePending := (Undisturbed.of_calm hcalm).sameLink.renegotiatePending
  have hlf' : x.cmd = CMD_LINK_FEATURES → c'.renegotiatePending = false := fun h => hpending.trans (hlf h)
  have hspec := settle_spec x c' reply
  generalize settle x c' reply = outcome at hspec
  cases outcome with
  | deliver c'' payload =>
      exact fun _ henv => ⟨allFit_recorded hJ' fits_accept henv, hinv'.of_settled hspec hlf'⟩
  | firmware c'' e resync =>
      have hinv'' : LinkInv c'' := by
        rw [show c'' = { c' with seqLast := c''.seqLast } from hspec]
        exact hinv'.of_settled (settled_last x c' _) hlf'
      cases resync with
      | true => exact fun _ henv => hresync c'' _ hinv'' (allFit_recorded hJ' fits_accept henv)
      | false => exact fun _ henv => ⟨allFit_recorded hJ' fits_accept henv, hinv''⟩
  | reset =>
      -- a sequenced link has no renegotiation pending
      refine recover_orderly hself ?_ hJ'
      by_contra hpend
      have hoff := hinv'.pending (by simpa using hpend)
      simp [SettleSpec, hoff] at hspec
  | lost => exact hresync c' trace' hinv' hJ'
  | stale => exact hagain c' trace' hcalm hJ'

theorem orderly_spiXferCore (depth : Nat) : Orderly (spiXferCore depth) := by
  induction depth with
  | zero => exact fun _ _ _ _ _ _ hJ => wp_exhausted hJ trivial
  | succ depth ih =>
      intro x c trace hx hlf hinv hJ
      refine wp_xferBody hJ (fun _ _ => hinv) fun ⟨_, hreq, hrep⟩ trace' henv => ?_
      refine sendOnce_orderly ih hlf hinv hreq hrep (allFit_recorded hJ (fits_begin hx) henv) ?_
      intro c' trace' hcalm hJ'
      have hpending := (Undisturbed.of_calm hcalm).sameLink.renegotiatePending
      refine sendOnce_orderly ih (fun h => hpending.trans (hlf h)) (hinv.of_calm hcalm)
        ((caps_of_calm x hcalm).1 ▸ hreq) ((caps_of_calm x hcalm).2 ▸ hrep) hJ' ?_
      intro c'' trace'' hcalm' hJ''
      have hinv'' := hinv.of_calm (hcalm.trans hcalm')
      refine wp_failAfterResync (wp_resync hJ'' (fun _ => hinv'') fun _ => ?_)
      exact ih _ c'' trace'' (decodes_fixed _ _ _) (fun hping => absurd hping (by decide)) hinv'' hJ''

end Negotiation

theorem orderly_renegotiate {depth : Nat} {c : Ctx} {trace : Trace} (hinv : LinkInv c)
    (hpending : c.renegotiatePending = true) (hJ : AllFit trace) :
    wp recording AllFit True (renegotiate depth) (fun _ c' _ => LinkInv c') c trace := by
  have hseq := hinv.pending hpending
  have hversion := wp_always
    (orderly_spiXferCore depth (.fixed CMD_GET_VERSION [] 3) c trace (decodes_fixed _ _ _)
      (fun h => absurd h (by decide)) hinv hJ) (always_unsequenced depth _ hseq)
  refine wp_bind (wp_seq hversion fun ending c' trace' hJ' hend => wp_pure hJ' ?_)
  have hoff : c'.seqEnabled = false := by
    by_contra hon
    exact absurd (hend.2.2 (by simpa using hon)).1 (by decide)
  cases ending.result with
  | error e => exact wp_pure hJ' hend.1
  | ok v => exact wp_modify_bind (spiNegotiate_orderly (orderly_spiXferCore depth) hoff rfl hJ')

theorem sends_linkInv (depth : Nat) : Sends recording AllFit True depth LinkInv where
  quiet := quiet_recording
  i2c _ _ _ _ _ _ _ hJ henv := allFit_recorded hJ fits_i2c henv
  xfer x hx hcmd c trace hinv hJ :=
    orderly_spiXferCore depth x c trace hx (fun h => absurd h hcmd) hinv hJ
  renegotiate _ _ hinv hpending hJ := orderly_renegotiate hinv hpending hJ
  withdraw c trace hinv hpending _ hJ := by
    refine wp_get_bind (wp_modify_bind (wp_seq ?_ fun _ _ _ hJ' h => wp_pure hJ' h))
    refine withdraw_orderly (orderly_spiXferCore depth) rfl ?_ hpending hJ
    exact linkInv_of_idle ⟨hinv.low, hinv.high, hinv.big⟩ rfl hpending
  cached _ _ hinv := ⟨⟨⟨hinv.low, hinv.high, hinv.big⟩, hinv.attn⟩, hinv.pending⟩

theorem LinkInv.of_tweaked {c c' : Ctx} (ht : Tweaked c c') (h : LinkInv c) : LinkInv c' := by
  refine ⟨⟨⟨?_, ?_, ?_⟩, fun hact => ?_⟩, ?_⟩
  · rw [ht.maxPayload]
    exact h.low
  · rw [ht.maxPayload]
    exact h.high
  · rw [ht.maxPayload, ht.granted]
    exact h.big
  · rw [ht.granted, ht.attn]
    exact h.attn (ht.attnActive hact)
  · rw [ht.renegotiatePending, ht.seqEnabled]
    exact h.pending

theorem sized_base : MAX_PAYLOAD_BYTES ≤ BIG_MAX_PAYLOAD_BYTES := by decide

theorem upholds_linkInv (depth : Nat) : Upholds recording AllFit True depth LinkInv where
  sends := sends_linkInv depth
  negotiate _ _ hinv hpending hJ :=
    spiNegotiate_orderly (orderly_spiXferCore depth) (hinv.pending hpending) rfl hJ
  tweak _ _ ht h := h.of_tweaked ht
  resets _ _ :=
    ⟨⟨⟨le_rfl, sized_base, fun hlt => absurd hlt (lt_irrefl _)⟩, nofun⟩, fun _ => rfl⟩
  closes _ _ :=
    ⟨⟨⟨le_rfl, sized_base, fun hlt => absurd hlt (lt_irrefl _)⟩, nofun⟩, fun _ => rfl⟩
  nested := .inl trivial

-- The context between the two probes of an init: nothing negotiated, nothing deferred.
structure Starting (c : Ctx) : Prop where
  maxPayload : c.maxPayload = MAX_PAYLOAD_BYTES
  seqEnabled : c.seqEnabled = false
  attnActive : c.attnActive = false
  attnFaultPending : c.attnFaultPending = false
  renegotiatePending : c.renegotiatePending = false
  powerAsleep : c.powerAsleep = false

theorem Starting.linkInv {c : Ctx} (h : Starting c) : LinkInv c :=
  linkInv_of_base h.maxPayload h.attnActive h.renegotiatePending

theorem sends_starting (depth : Nat) : Sends recording AllFit True depth Starting where
  quiet := quiet_recording
  i2c _ _ _ _ _ _ _ hJ henv := allFit_recorded hJ fits_i2c henv
  xfer x hx hcmd c trace h hJ := by
    refine wp_mono (fits_unsequenced depth hx h.linkInv.toSized h.seqEnabled hJ) ?_
    intro ending c' trace' _ hend
    have hlink := hend.1.sameLink
    refine ⟨hlink.maxPayload.trans h.maxPayload, ?_, hlink.idle h.attnActive, ?_,
      hlink.renegotiatePending.trans h.renegotiatePending, hlink.powerAsleep.trans h.powerAsleep⟩
    · by_contra hon
      exact hcmd (hend.2 (by simpa using hon)).1
    · by_contra hfault
      have hwas := hlink.attnFaultPending (by simpa using hfault)
      simp [h.attnFaultPending, h.attnActive] at hwas
  renegotiate _ _ h hpending _ := by simp [h.renegotiatePending] at hpending
  withdraw _ _ h _ hfault _ := by simp [h.attnFaultPending] at hfault
  cached _ _ h :=
    ⟨h.maxPayload, h.seqEnabled, h.attnActive, h.attnFaultPending, h.renegotiatePending, h.powerAsleep⟩

section Init

variable {depth : Nat}

theorem not_asleep_starting : ∀ c trace, Starting c → c.powerAsleep = true → AllFit trace →
    wp recording AllFit True (powerWake depth depth) (fun _ c' _ => Starting c') c trace := by
  intro c trace h hasleep
  simp [h.powerAsleep] at hasleep

theorem keeps_probe_ping : Keeps recording AllFit True Starting (ping.run depth) :=
  (sends_starting depth).keeps_run not_asleep_starting (ordinary_order (by decide)) rfl

theorem keeps_probe_version : Keeps recording AllFit True Starting (refreshVersion depth) := by
  refine (sends_starting depth).keeps_refreshVersion not_asleep_starting rfl (fun c v h => ?_) ?_
  · exact ⟨h.maxPayload, h.seqEnabled, h.attnActive, h.attnFaultPending, h.renegotiatePending,
      h.powerAsleep⟩
  · intro c trace h hpending
    simp [h.renegotiatePending] at hpending

theorem failInit_linkInv {e : AlpError} {c : Ctx} {trace : Trace} (h : Starting c) (hJ : AllFit trace) :
    wp recording AllFit True (failInit e) (fun _ c' _ => LinkInv c') c trace :=
  wp_modify_bind (wp_pure hJ (linkInv_of_base h.maxPayload h.attnActive h.renegotiatePending))

end Init

-- The arguments `gd32g553_init_ex` takes; it leaves the context alone on any others.
def InitArgs (spi i2c : Bool) (i2cAddr : UInt8) : Prop :=
  (spi = true ∨ i2c = true) ∧ (i2c = true → i2cAddr ≤ 0x7F)

theorem initEx_linkInv {depth rounds : Nat} {spi i2c : Bool} {i2cAddr : UInt8} {attn : AttnHook}
    {c : Ctx} {trace : Trace} (hargs : InitArgs spi i2c i2cAddr) (hJ : AllFit trace) :
    wp recording AllFit True (initEx depth rounds spi i2c i2cAddr attn) (fun _ c' _ => LinkInv c')
      c trace := by
  unfold initEx
  rw [if_neg, if_neg]
  · refine wp_modify_bind ?_
    have hfresh : Starting (freshCtx spi i2c i2cAddr attn) := ⟨rfl, rfl, rfl, rfl, rfl, rfl⟩
    refine wp_quiet quiet_recording rfl hJ fun uptime => ?_
    refine wp_seq (keeps_initRetry quiet_recording trivial keeps_probe_ping _ rounds false _ trace hfresh hJ) ?_
    rintro ⟨result, sawBusy⟩ c' trace' hJ' hstart
    cases result with
    | error e => exact failInit_linkInv hstart hJ'
    | ok =>
        refine wp_seq (keeps_initRetry quiet_recording trivial (.bind keeps_probe_version fun _ => .pure _) _ rounds
          sawBusy c' trace' hstart hJ') ?_
        rintro ⟨result, -⟩ c'' trace'' hJ'' hstart'
        cases result with
        | error e => exact failInit_linkInv hstart' hJ''
        | ok =>
            refine wp_get_bind ?_
            split
            · exact failInit_linkInv hstart' hJ''
            · refine wp_seq ?_ fun _ _ _ hJ3 hinv => wp_pure hJ3 hinv
              exact spiNegotiate_orderly (orderly_spiXferCore depth) hstart'.seqEnabled
                hstart'.renegotiatePending hJ''
  · rintro ⟨hi2c, haddr⟩
    exact absurd (hargs.2 hi2c) (by simpa using haddr)
  · rintro ⟨hspi, hi2c⟩
    rcases hargs.1 with h | h
    · simp [h] at hspi
    · simp [h] at hi2c

-- The driver's states between calls, with every transfer made so far: `none` while no init has
-- taken the context's memory. A refused init leaves everything as it was.
inductive Reached : Option Ctx → Trace → Prop where
  | nothing : Reached none []
  | init {o : Option Ctx} {trace trace' : Trace} {depth rounds : Nat} {spi i2c : Bool}
      {i2cAddr : UInt8} {attn : AttnHook} {c c' : Ctx} {result : Status} (h : Reached o trace)
      (hargs : InitArgs spi i2c i2cAddr)
      (hexec : Exec recording trace (initEx depth rounds spi i2c i2cAddr attn c)
        (some (some (result, c'))) trace') :
      Reached (some c') trace'
  | call {c c' : Ctx} {trace trace' : Trace} {depth : Nat} {call : Call} {result : Status}
      (h : Reached (some c) trace)
      (hexec : Exec recording trace (call.run depth c) (some (some (result, c'))) trace') :
      Reached (some c') trace'

theorem linkInv_of_reached {o : Option Ctx} {trace : Trace} (h : Reached o trace) :
    (∀ c, o = some c → LinkInv c) ∧ AllFit trace := by
  induction h with
  | nothing =>
      refine ⟨fun c hc => ?_, fun i hi => ?_⟩
      · cases hc
      · cases hi
  | init _ hargs hexec ih =>
      obtain ⟨hfit, -, hinv⟩ := wp_sound hexec (initEx_linkInv hargs ih.2)
      refine ⟨fun c hc => ?_, hfit⟩
      cases hc
      exact hinv _ _ rfl
  | call _ hexec ih =>
      obtain ⟨hfit, -, hinv⟩ := wp_sound hexec ((upholds_linkInv _).keeps_call _ _ _ (ih.1 _ rfl) ih.2)
      refine ⟨fun c hc => ?_, hfit⟩
      cases hc
      exact hinv _ _ rfl

-- Between calls the negotiated link is consistent, and every transfer made so far, also by a
-- call that is still under way, fits its buffers.
theorem negotiated_of_reached {o : Option Ctx} {trace : Trace} (h : Reached o trace) :
    (∀ c, o = some c → Negotiated c) ∧ AllFit trace ∧
      (∀ depth call c out trace', o = some c → Exec recording trace (Call.run depth call c) out trace' →
        AllFit trace') ∧
      ∀ depth rounds spi i2c i2cAddr attn c out trace', InitArgs spi i2c i2cAddr →
        Exec recording trace (initEx depth rounds spi i2c i2cAddr attn c) out trace' → AllFit trace' := by
  obtain ⟨hinv, hfit⟩ := linkInv_of_reached h
  refine ⟨fun c hc => (hinv c hc).toNegotiated, hfit, ?_, ?_⟩
  · intro depth call c out trace' hc hexec
    exact (wp_sound hexec ((upholds_linkInv depth).keeps_call call c trace (hinv c hc) hfit)).1
  · intro depth rounds spi i2c i2cAddr attn c out trace' hargs hexec
    exact (wp_sound hexec (initEx_linkInv hargs hfit)).1

-- A 0.15 bridge without ATTN that grants what it is asked for.
def grantingReply (frame : List UInt8) : List UInt8 :=
  match frame.getD 1 0 with
  | 0x01 => replyFrame 0x00 [0, 15, 0]
  | 0x81 => replyFrame 0x10 [0x1B, 0, 0, 0, 0x1F, 0, 0, 0, 252, 0]
  | _ => replyFrame 0x00 []

def lastWritten (trace : Trace) : List UInt8 :=
  (trace.reverse.findSome? fun i =>
    match i.cmd with
    | .spiWrite frame => some frame
    | _ => none).getD []

-- A bridge that has these bytes to read, and whose ATTN line never moves.
def respond (bytes : List UInt8) : (cmd : BusCmd) → BusCmd.Reply cmd
  | .begin _ | .accept | .attnDrain => ()
  | .spiWrite _ => .ok ()
  | .spiRead _ => .ok bytes
  | .i2cWriteRead _ _ _ => .error .io
  | .attnReadLevel => .ok false
  | .attnWait _ => .error .timeout
  | .attnNow => 0
  | .uptimeMs => 0

def granting : Library.Effect.Handler (issuing busSig Ctx) Trace := fun i trace =>
  (respond (grantingReply (lastWritten trace)) i.cmd,
    if BusCmd.isQuiet i.cmd then trace else trace ++ [i])

def noHook : AttnHook := ⟨false, false, false, false⟩

theorem negotiated_afterInit : ∃ c trace, Reached (some c) trace ∧ c.maxPayload = 252 ∧ Negotiated c := by
  have hrun : (Library.Effect.Prog.run granting
      (initEx 2 1 true false 0 noHook (freshCtx true false 0 noHook)) []).1.map
        (fun out => out.2.maxPayload) = some 252 := by
    decide +kernel
  obtain ⟨⟨result, c⟩, hout, hmp⟩ := Option.map_eq_some_iff.mp hrun
  have hallowed : ∀ i trace, recording trace i (granting i trace).1 (granting i trace).2 := fun _ _ => rfl
  have hexec := Library.Effect.exec_of_run hallowed
    (initEx 2 1 true false 0 noHook (freshCtx true false 0 noHook)) []
  rw [hout] at hexec
  have hargs : InitArgs true false 0 := ⟨.inl rfl, nofun⟩
  have hreached := Reached.init .nothing hargs hexec
  exact ⟨c, _, hreached, hmp, (negotiated_of_reached hreached).1 c rfl⟩

end AlpSdk.Gd32
