import AlpSdk.Rpc.Call

namespace AlpSdk.Rpc.Call

open Library.Transition Library.Threads Library.Bytes

variable {T : Type} {called : CString → Bool} {be be' : Channel T} {args : Args}
  {out out' : List Nat} {request : Option Nat} {frame : Frame} {p p' : Phase}

-- The requests whose reply has not reached the call slot: `carried` is that of the frame the
-- worker is about to route.
def Channel.outstanding (be : Channel T) (carried : Option Nat) : List Nat :=
  be.requests.map Request.id ++ (be.replies.filterMap Frame.answers ++ carried.toList)

-- No call is staged, and a stale reply could only meet a channel that stages none.
structure Rest (be : Channel T) (out : List Nat) : Prop where
  idle : be.callPending = false
  quiet : be.closing = true ∨ be.callPoisoned = true ∨ out = []

-- The slot holds the payload of the reply to the request `id`.
structure Filled (be : Channel T) (args : Args) (id : Nat) (payload : List UInt8) : Prop where
  reply : be.callReply = some id
  answered : (id, payload) ∈ be.answers
  length : be.callRespLen = payload.length
  data : ∀ buf, args.resp = some buf → load buf payload.length be.ram = payload

-- The staged call has been answered or, which is all that can be before its request is sent,
-- cancelled by the closer.
structure Settled (be : Channel T) (out : List Nat) (args : Args) (request : Option Nat) :
    Prop where
  quiet : be.closing = true ∨ out = []
  cancelled : request = none → be.closing = true
  result : be.callResult ≠ .error .timeout
  ok : be.callResult = .ok () → ∃ id payload, request = some id ∧ Filled be args id payload

-- A request that no call before this one has sent.
structure Fresh (be : Channel T) (request : Option Nat) : Prop where
  sent : ∀ id, request = some id → id < be.sent
  unused : ∀ id, request = some id → ∀ r ∈ be.returns, r.request ≠ some id

-- A call between its staging and its return, with the request it has sent.
structure Active (called : CString → Bool) (be : Channel T) (out : List Nat) (args : Args)
    (request : Option Nat) : Prop where
  valid : args.valid = true
  called : called args.name = true
  method : be.callMethod = args.name.take (ALP_RPC_METHOD_MAX_LEN - 1)
  resp : be.callRespBuf = args.resp
  clean : be.callPoisoned = false
  fresh : Fresh be request
  pending : be.callPending = true → out.Subperm request.toList
  settled : be.callPending = false → Settled be out args request

-- What a call is about to return.
structure Outcome (be : Channel T) (args : Args) (request : Option Nat) (status : Status)
    (respLen : Option Nat) : Prop where
  valid : args.valid = true
  fresh : Fresh be request
  ok : status = .ok () → ∃ id payload, request = some id ∧ Filled be args id payload ∧
    respLen = args.respLen.map fun _ => payload.length
  poison : request ≠ none → status = .error .timeout → be.callPoisoned = true
  refused : (∃ r ∈ be.returns, r.TimedOut) → status = .error .notReady

-- What the holder of `tx_mutex` knows.
def Held (called : CString → Bool) (be : Channel T) (out : List Nat) : Phase → Prop
  | .locked args => Rest be out ∧ args.valid = true ∧ called args.name = true
  | .staged args => Active called be out args none
  | .failed args _ => Active called be out args none
  | .waiting args id => Active called be out args (some id)
  | .expired args id => Active called be out args (some id)
  | .taken args id => Active called be out args (some id) ∧ be.callPending = false
  | .unlocking args request status respLen =>
      Rest be out ∧ Outcome be args request status respLen
  | _ => False

def Phase.holds : Phase → Bool
  | .locked _ | .staged _ | .failed _ _ | .waiting _ _ | .expired _ _ | .taken _ _ => true
  | .unlocking _ _ _ _ => true
  | _ => false

theorem Held.holds (h : Held called be out p) : p.holds = true := by
  cases p <;> first | rfl | exact h.elim

-- A call goes for the mutex with the arguments it has checked.
def Phase.Checked (called : CString → Bool) : Phase → Prop
  | .locking args => args.valid = true ∧ called args.name = true
  | _ => True

def FrameOk (called : CString → Bool) (answers : List (Nat × List UInt8)) (frame : Frame) : Prop :=
  ∀ method payload, frameParse frame.data = some (method, payload) →
    match frame.answers with
    | some id => (id, payload) ∈ answers
    | none => called method = false

-- What every return keeps to.
structure History (be : Channel T) : Prop where
  own : ∀ r ∈ be.returns, r.status = .ok () → ∃ id payload, Own be.answers r id payload
  sent : ∀ r ∈ be.returns, ∀ id, r.request = some id → id < be.sent
  distinct : be.returns.Pairwise fun r r' => ∀ id, r.request = some id → r'.request ≠ some id
  poison : ∀ r ∈ be.returns, r.TimedOut → be.callPoisoned = true
  poisoned : Poisoned be

section Quiet

-- A step that leaves the call slot as it is.
structure Quiet (be be' : Channel T) (out out' : List Nat) : Prop where
  closing : be'.closing = be.closing
  pending : be'.callPending = be.callPending
  poisoned : be'.callPoisoned = be.callPoisoned
  method : be'.callMethod = be.callMethod
  resp : be'.callRespBuf = be.callRespBuf
  respLen : be'.callRespLen = be.callRespLen
  result : be'.callResult = be.callResult
  reply : be'.callReply = be.callReply
  ram : be'.ram = be.ram
  sent : be'.sent = be.sent
  answers : ∀ x ∈ be.answers, x ∈ be'.answers
  returns : ∀ r ∈ be'.returns, r ∈ be.returns ∨ r.request = none
  out : out'.Subperm out

theorem nil_of_subperm (h : out'.Subperm out) (hout : out = []) : out' = [] := by
  subst hout
  exact List.subperm_nil.mp h

theorem Quiet.rest (hq : Quiet be be' out out') (hr : Rest be out) : Rest be' out' := by
  refine ⟨hq.pending.trans hr.idle, ?_⟩
  rw [hq.closing, hq.poisoned]
  exact hr.quiet.imp_right (Or.imp_right (nil_of_subperm hq.out))

theorem Quiet.filled {id : Nat} {payload : List UInt8} (hq : Quiet be be' out out')
    (hf : Filled be args id payload) : Filled be' args id payload := by
  refine ⟨hq.reply.trans hf.reply, hq.answers _ hf.answered, hq.respLen.trans hf.length, ?_⟩
  rw [hq.ram]
  exact hf.data

theorem Quiet.fresh (hq : Quiet be be' out out') (hf : Fresh be request) : Fresh be' request := by
  refine ⟨?_, ?_⟩
  · rw [hq.sent]
    exact hf.sent
  · intro id hid r hr
    rcases hq.returns r hr with hold | hnone
    · exact hf.unused id hid r hold
    · rw [hnone]
      exact nofun

theorem Quiet.settled (hq : Quiet be be' out out') (hs : Settled be out args request) :
    Settled be' out' args request := by
  refine ⟨?_, ?_, ?_, ?_⟩
  · rw [hq.closing]
    exact hs.quiet.imp_right (nil_of_subperm hq.out)
  · rw [hq.closing]
    exact hs.cancelled
  · rw [hq.result]
    exact hs.result
  · rw [hq.result]
    intro hok
    obtain ⟨id, payload, hid, hf⟩ := hs.ok hok
    exact ⟨id, payload, hid, hq.filled hf⟩

theorem Quiet.active (hq : Quiet be be' out out') (ha : Active called be out args request) :
    Active called be' out' args request := by
  refine ⟨ha.valid, ha.called, hq.method.trans ha.method, hq.resp.trans ha.resp,
    hq.poisoned.trans ha.clean, hq.fresh ha.fresh, ?_, ?_⟩
  · rw [hq.pending]
    exact fun h => hq.out.trans (ha.pending h)
  · rw [hq.pending]
    exact fun h => hq.settled (ha.settled h)

theorem Quiet.outcome {status : Status} {respLen : Option Nat} (hq : Quiet be be' out out')
    (ho : Outcome be args request status respLen) : Outcome be' args request status respLen := by
  refine ⟨ho.valid, hq.fresh ho.fresh, ?_, ?_, ?_⟩
  · intro hok
    obtain ⟨id, payload, hid, hf, hlen⟩ := ho.ok hok
    exact ⟨id, payload, hid, hq.filled hf, hlen⟩
  · rw [hq.poisoned]
    exact ho.poison
  · rintro ⟨r, hr, htimed⟩
    rcases hq.returns r hr with hold | hnone
    · exact ho.refused ⟨r, hold, htimed⟩
    · exact absurd hnone htimed.1

theorem Quiet.held (hq : Quiet be be' out out') (hh : Held called be out p) :
    Held called be' out' p := by
  cases p with
  | locked => exact ⟨hq.rest hh.1, hh.2⟩
  | staged => exact hq.active hh
  | failed => exact hq.active hh
  | waiting => exact hq.active hh
  | expired => exact hq.active hh
  | taken => exact ⟨hq.active hh.1, hq.pending.trans hh.2⟩
  | unlocking => exact ⟨hq.rest hh.1, hq.outcome hh.2⟩
  | _ => exact hh

theorem History.of_quiet (hq : Quiet be be' out out') (hreturns : be'.returns = be.returns)
    (hh : History be) : History be' := by
  refine ⟨?_, ?_, ?_, ?_, ?_⟩
  · rw [hreturns]
    intro r hr hok
    obtain ⟨id, payload, hown⟩ := hh.own r hr hok
    exact ⟨id, payload, hown.request, hown.reply, hq.answers _ hown.answered, hown.length,
      hown.data⟩
  · rw [hreturns, hq.sent]
    exact hh.sent
  · rw [hreturns]
    exact hh.distinct
  · rw [hreturns, hq.poisoned]
    exact hh.poison
  · rw [Poisoned, hreturns]
    exact hh.poisoned

end Quiet

section Shutdown

theorem shutdown_of_idle (h : be.callPending = false) :
    be.shutdown = { be with closing := true } := if_neg (by rw [h]; exact nofun)

theorem shutdown_closing : be.shutdown.closing = true := by
  unfold Channel.shutdown
  split <;> rfl

theorem shutdown_pending : be.shutdown.callPending = false := by
  unfold Channel.shutdown
  split
  · rfl
  next h => exact Bool.eq_false_of_not_eq_true h

theorem active_shutdown (ha : Active called be out args request) :
    Active called be.shutdown out args request := by
  cases hp : be.callPending with
  | true =>
      rw [Channel.shutdown, if_pos hp]
      exact ⟨ha.valid, ha.called, ha.method, ha.resp, ha.clean, ⟨ha.fresh.sent, ha.fresh.unused⟩,
        nofun, fun _ => ⟨.inl rfl, fun _ => rfl, nofun, nofun⟩⟩
  | false =>
      obtain ⟨-, -, hresult, hok⟩ := ha.settled hp
      rw [shutdown_of_idle hp]
      refine ⟨ha.valid, ha.called, ha.method, ha.resp, ha.clean, ⟨ha.fresh.sent, ha.fresh.unused⟩,
        ha.pending, fun _ => ⟨.inl rfl, fun _ => rfl, hresult, fun h => ?_⟩⟩
      obtain ⟨id, payload, hid, hf⟩ := hok h
      exact ⟨id, payload, hid, hf.reply, hf.answered, hf.length, hf.data⟩

theorem rest_shutdown (be : Channel T) (out : List Nat) : Rest be.shutdown out :=
  ⟨shutdown_pending, .inl shutdown_closing⟩

theorem outcome_shutdown {status : Status} {respLen : Option Nat} (hr : Rest be out)
    (ho : Outcome be args request status respLen) :
    Outcome be.shutdown args request status respLen := by
  rw [shutdown_of_idle hr.idle]
  refine ⟨ho.valid, ⟨ho.fresh.sent, ho.fresh.unused⟩, fun hok => ?_, ho.poison, ho.refused⟩
  obtain ⟨id, payload, hid, hf, hlen⟩ := ho.ok hok
  exact ⟨id, payload, hid, ⟨hf.reply, hf.answered, hf.length, hf.data⟩, hlen⟩

theorem held_shutdown (hh : Held called be out p) : Held called be.shutdown out p := by
  cases p with
  | locked => exact ⟨rest_shutdown be out, hh.2⟩
  | staged => exact active_shutdown hh
  | failed => exact active_shutdown hh
  | waiting => exact active_shutdown hh
  | expired => exact active_shutdown hh
  | taken => exact ⟨active_shutdown hh.1, shutdown_pending⟩
  | unlocking => exact ⟨rest_shutdown be out, outcome_shutdown hh.1 hh.2⟩
  | _ => exact hh

end Shutdown

section Route

-- What stays of the slot when `rpc_ept_recv` answers a call.
structure Kept (be be' : Channel T) : Prop where
  closing : be'.closing = be.closing
  poisoned : be'.callPoisoned = be.callPoisoned
  method : be'.callMethod = be.callMethod
  resp : be'.callRespBuf = be.callRespBuf
  requests : be'.requests = be.requests
  replies : be'.replies = be.replies
  sent : be'.sent = be.sent
  answers : be'.answers = be.answers
  returns : be'.returns = be.returns
  txMutex : be'.txMutex = be.txMutex

-- The payload is in the response buffer, or does not fit.
def Delivered (be : Channel T) (payload : List UInt8) (be' : Channel T) : Prop :=
  be'.callResult = .error .nomem ∨
    be'.callResult = .ok () ∧ be'.callRespLen = payload.length ∧
      ∀ buf, be.callRespBuf = some buf → load buf payload.length be'.ram = payload

theorem kept_fill (payload : List UInt8) : Kept be (be.fill payload) := by
  unfold Channel.fill
  split
  · split <;> exact ⟨rfl, rfl, rfl, rfl, rfl, rfl, rfl, rfl, rfl, rfl⟩
  · exact ⟨rfl, rfl, rfl, rfl, rfl, rfl, rfl, rfl, rfl, rfl⟩

theorem delivered_fill (payload : List UInt8) : Delivered be payload (be.fill payload) := by
  unfold Channel.fill
  split
  next buf hbuf =>
      split
      · exact .inl rfl
      · refine .inr ⟨rfl, rfl, ?_⟩
        intro buf' heq
        rw [hbuf] at heq
        cases heq
        exact load_store buf payload be.ram
  next hbuf =>
      refine .inr ⟨rfl, rfl, ?_⟩
      rw [hbuf]
      exact fun _ h => nomatch h

-- `rpc_ept_recv` found the frame to be the reply of the staged call.
structure Consumed (be : Channel T) (frame : Frame) (payload : List UInt8) (be' : Channel T) :
    Prop where
  pending : be'.callPending = false
  reply : be'.callReply = frame.answers
  result : Delivered be payload be'
  kept : Kept be be'

theorem route_cases (be : Channel T) (frame : Frame) :
    be.route frame = be ∨
      ∃ method payload, frameParse frame.data = some (method, payload) ∧ be.callPending = true ∧
        strnEq ALP_RPC_METHOD_MAX_LEN method be.callMethod = true ∧
        Consumed be frame payload (be.route frame) := by
  unfold Channel.route
  split
  · exact .inl rfl
  next method payload hparse =>
      split
      next hmatch =>
          have hk : Kept be (be.fill payload) := kept_fill payload
          refine .inr ⟨method, payload, hparse, hmatch.1, hmatch.2, rfl, rfl,
            delivered_fill payload, ?_⟩
          exact ⟨hk.closing, hk.poisoned, hk.method, hk.resp, hk.requests, hk.replies, hk.sent,
            hk.answers, hk.returns, hk.txMutex⟩
      · exact .inl rfl

-- At most one request is outstanding, and it is the one of the frame.
theorem of_subperm_toList {base : List Nat} {id : Nat}
    (h : (base ++ [id]).Subperm request.toList) : request = some id ∧ base = [] := by
  have hlen := h.length_le
  have hmem : id ∈ request.toList := h.subset (by simp)
  cases request with
  | none => cases hmem
  | some id' =>
      refine ⟨congrArg some (List.mem_singleton.mp hmem).symm, ?_⟩
      simp only [List.length_append, List.length_cons, List.length_nil, Option.toList_some] at hlen
      exact List.eq_nil_of_length_eq_zero (by omega)

-- A reply that meets a staged call answers the request of that call.
theorem active_consumed {base : List Nat} {method : CString} {payload : List UInt8}
    (ha : Active called be (base ++ frame.answers.toList) args request)
    (hframe : FrameOk called be.answers frame)
    (hparse : frameParse frame.data = some (method, payload)) (hpending : be.callPending = true)
    (hmatch : strnEq ALP_RPC_METHOD_MAX_LEN method be.callMethod = true)
    (hc : Consumed be frame payload be') : Active called be' base args request := by
  have hvalid : methodValid args.method = true := by
    have h := ha.valid
    simp only [Args.valid, decide_eq_true_eq] at h
    exact h.1
  have hname : args.name.bytes.length < ALP_RPC_METHOD_MAX_LEN := by
    cases hm : args.method with
    | none => rw [hm] at hvalid; cases hvalid
    | some m =>
        rw [hm] at hvalid
        simpa [Args.name, hm] using length_lt_of_methodValid hvalid
  have hlen := length_method_lt hparse
  have heq : method = args.name := by
    rw [ha.method, CString.take_of_length_le (by omega)] at hmatch
    exact eq_of_strnEq hmatch (by omega) (by omega)
  have hfrom := hframe method payload hparse
  have hsub := ha.pending hpending
  cases hid : frame.answers with
  | none =>
      rw [hid] at hfrom
      rw [heq, ha.called] at hfrom
      cases hfrom
  | some id =>
      rw [hid] at hfrom hsub
      obtain ⟨hrequest, hbase⟩ := of_subperm_toList hsub
      have hk := hc.kept
      refine ⟨ha.valid, ha.called, hk.method.trans ha.method, hk.resp.trans ha.resp,
        hk.poisoned.trans ha.clean, ⟨?_, ?_⟩, ?_, fun _ => ⟨.inr hbase, ?_, ?_, ?_⟩⟩
      · rw [hk.sent]
        exact ha.fresh.sent
      · rw [hk.returns]
        exact ha.fresh.unused
      · rw [hc.pending]
        exact nofun
      · rw [hrequest]
        exact nofun
      · rcases hc.result with h | ⟨h, -⟩ <;> rw [h] <;> exact nofun
      · intro hok
        rcases hc.result with h | ⟨-, hlength, hdata⟩
        · rw [h] at hok
          cases hok
        · refine ⟨id, payload, hrequest, hc.reply.trans hid, hk.answers ▸ hfrom, hlength, ?_⟩
          rw [← ha.resp]
          exact hdata

theorem quiet_of_subperm (hout : out'.Subperm out) : Quiet be be out out' :=
  ⟨rfl, rfl, rfl, rfl, rfl, rfl, rfl, rfl, rfl, rfl, fun _ h => h, fun _ h => .inl h, hout⟩

theorem subperm_route (base : List Nat) (carried : Option Nat) :
    base.Subperm (base ++ carried.toList) := (List.sublist_append_left _ _).subperm

theorem held_route {base : List Nat} (hframe : FrameOk called be.answers frame)
    (hh : Held called be (base ++ frame.answers.toList) p) :
    Held called (be.route frame) base p := by
  rcases route_cases be frame with heq | ⟨method, payload, hparse, hpending, hmatch, hc⟩
  · rw [heq]
    exact (quiet_of_subperm (subperm_route _ _)).held hh
  · have hbusy : ∀ {out}, ¬Rest be out := fun hr => by
      have hidle := hr.idle
      rw [hpending] at hidle
      cases hidle
    cases p with
    | locked => exact absurd hh.1 hbusy
    | staged => exact active_consumed hh hframe hparse hpending hmatch hc
    | failed => exact active_consumed hh hframe hparse hpending hmatch hc
    | waiting => exact active_consumed hh hframe hparse hpending hmatch hc
    | expired => exact active_consumed hh hframe hparse hpending hmatch hc
    | taken =>
        have hidle := hh.2
        rw [hpending] at hidle
        cases hidle
    | unlocking => exact absurd hh.1 hbusy
    | _ => exact hh

end Route

section Caller

-- A call that returns before it locked the mutex, or one that has sent `request`.
theorem History.returning {status : Status} {respLen : Option Nat} (hh : History be)
    (hown : status = .ok () → ∃ id payload, request = some id ∧ Filled be args id payload ∧
      args.valid = true ∧ respLen = args.respLen.map fun _ => payload.length)
    (hfresh : Fresh be request)
    (hpoison : request ≠ none → status = .error .timeout → be.callPoisoned = true)
    (hrefused : (∃ r ∈ be.returns, r.TimedOut) → args.valid = true → status = .error .notReady) :
    History (be.returning args request status respLen) := by
  unfold Channel.returning
  refine ⟨?_, ?_, ?_, ?_, ?_⟩
  · refine List.forall_mem_append.mpr ⟨hh.own, List.forall_mem_singleton.mpr ?_⟩
    intro hok
    obtain ⟨id, payload, hid, hf, hvalid, hlen⟩ := hown hok
    refine ⟨id, payload, hid, hf.reply, hf.answered, ?_, ?_⟩
    · intro len heq
      rw [hlen] at heq
      obtain ⟨_, -, rfl⟩ := Option.map_eq_some_iff.mp heq
      rfl
    · intro buf (hbuf : args.resp = some buf)
      have hsome : ∃ len, args.respLen = some len := by
        simp only [Args.valid, decide_eq_true_eq] at hvalid
        have hnot := hvalid.2
        rw [hbuf] at hnot
        cases hl : args.respLen with
        | none => rw [hl] at hnot; exact absurd ⟨rfl, rfl⟩ hnot
        | some len => exact ⟨len, rfl⟩
      obtain ⟨len, hl⟩ := hsome
      rw [hl] at hlen
      simp only [hbuf, hlen, Option.map_some]
      exact congrArg some (hf.data buf hbuf)
  · exact List.forall_mem_append.mpr ⟨hh.sent, List.forall_mem_singleton.mpr hfresh.sent⟩
  · refine List.pairwise_append.mpr ⟨hh.distinct, List.pairwise_singleton _ _, ?_⟩
    intro r hr r' hr' id hid hid'
    rw [List.mem_singleton.mp hr'] at hid'
    exact hfresh.unused id hid' r hr hid
  · refine List.forall_mem_append.mpr ⟨hh.poison, List.forall_mem_singleton.mpr ?_⟩
    exact fun htimed => hpoison htimed.1 htimed.2
  · refine List.pairwise_append.mpr ⟨hh.poisoned, List.pairwise_singleton _ _, ?_⟩
    intro r hr r' hr' htimed hvalid
    rw [List.mem_singleton.mp hr'] at hvalid ⊢
    exact hrefused ⟨r, hr, htimed⟩ hvalid

theorem fresh_none : Fresh be none := ⟨nofun, nofun⟩

theorem History.not_timedOut (hh : History be) (hclean : be.callPoisoned = false) :
    ¬∃ r ∈ be.returns, r.TimedOut := by
  rintro ⟨r, hr, htimed⟩
  have hp := hh.poison r hr htimed
  rw [hclean] at hp
  cases hp

structure Shared (be : Channel T) : Prop where
  history : History be
  closed : be.closing = true → be.callPending = false
  given : 0 < be.callSem → be.callPending = false

-- What a step of a caller leaves, with `carried` the reply at the worker.
structure CallerEffect (called : CString → Bool) (t : T) (carried : Option Nat) (be : Channel T)
    (p : Phase) (be' : Channel T) (p' : Phase) : Prop where
  shared : Shared be'
  checked : p'.Checked called
  closing : be'.closing = be.closing
  replies : be'.replies = be.replies
  answers : be'.answers = be.answers
  slot : (p.holds = true ∨ be.txMutex = none) ∧
      (be'.txMutex = some t ∧ p'.holds = true ∧ Held called be' (be'.outstanding carried) p' ∨
        be'.txMutex = none ∧ p'.holds = false ∧ Rest be' (be'.outstanding carried)) ∨
    (p.holds = false ∧ p'.holds = false) ∧ be'.txMutex = be.txMutex ∧
      Quiet be be' (be.outstanding carried) (be'.outstanding carried)

variable {t : T} {carried : Option Nat} {rc : Except Errno Unit} {id : Nat} {status : Status}
  {respLen : Option Nat}

-- A call that is refused before the mutex.
theorem effect_refused (hs : Shared be) (hok : status ≠ .ok ())
    (hrefused : args.valid = true → status = .error .notReady) :
    CallerEffect called t carried be .idle (be.returning args none status respLen) .idle := by
  refine ⟨⟨?_, hs.closed, hs.given⟩, trivial, rfl, rfl, rfl, .inr ⟨⟨rfl, rfl⟩, rfl, ?_⟩⟩
  · refine hs.history.returning (fun h => absurd h hok) fresh_none (fun h => absurd rfl h) ?_
    exact fun _ hvalid => hrefused hvalid
  · refine ⟨rfl, rfl, rfl, rfl, rfl, rfl, rfl, rfl, rfl, rfl, fun _ h => h, ?_, List.Subperm.refl _⟩
    refine List.forall_mem_append.mpr ⟨fun _ h => .inl h, List.forall_mem_singleton.mpr ?_⟩
    exact .inr rfl

theorem effect_lock (hs : Shared be) (hfree : be.txMutex = none)
    (hrest : Rest be (be.outstanding carried)) (hchecked : (Phase.locking args).Checked called) :
    CallerEffect called t carried be (.locking args) { be with txMutex := some t }
      (.locked args) := by
  refine ⟨⟨?_, hs.closed, hs.given⟩, trivial, rfl, rfl, rfl, .inl ⟨.inr hfree, .inl ?_⟩⟩
  · exact ⟨hs.history.own, hs.history.sent, hs.history.distinct, hs.history.poison,
      hs.history.poisoned⟩
  · exact ⟨rfl, rfl, ⟨hrest.idle, hrest.quiet⟩, hchecked⟩

theorem effect_stage (hs : Shared be) (hmutex : be.txMutex = some t)
    (hheld : Held called be (be.outstanding carried) (.locked args))
    (hopen : ¬(be.closing = true ∨ be.callPoisoned = true)) :
    CallerEffect called t carried be (.locked args) (be.stage args) (.staged args) := by
  obtain ⟨hrest, hvalid, hcalled⟩ := hheld
  have hclean : be.callPoisoned = false := Bool.eq_false_of_not_eq_true fun h => hopen (.inr h)
  have hnone : be.outstanding carried = [] := by
    rcases hrest.quiet with h | h | h
    · exact absurd (.inl h) hopen
    · exact absurd (.inr h) hopen
    · exact h
  refine ⟨⟨?_, fun h => absurd (.inl h) hopen, fun h => absurd h (Nat.lt_irrefl 0)⟩, trivial, rfl,
    rfl, rfl, .inl ⟨.inl rfl, .inl ⟨hmutex, rfl, ?_⟩⟩⟩
  · exact ⟨hs.history.own, hs.history.sent, hs.history.distinct, hs.history.poison,
      hs.history.poisoned⟩
  · refine ⟨hvalid, hcalled, rfl, rfl, hclean, fresh_none, fun _ => ?_, nofun⟩
    change (be.outstanding carried).Subperm []
    rw [hnone]

-- The request goes out while no other is outstanding.
theorem effect_send (hs : Shared be) (hmutex : be.txMutex = some t)
    (hheld : Held called be (be.outstanding carried) (.staged args)) (data : List UInt8) :
    CallerEffect called t carried be (.staged args)
      { be with requests := be.requests ++ [⟨be.sent, data⟩], sent := be.sent + 1 }
      (.waiting args be.sent) := by
  have ha : Active called be (be.outstanding carried) args none := hheld
  have hunused : ∀ r ∈ be.returns, r.request ≠ some be.sent := fun r hr h =>
    Nat.lt_irrefl _ (hs.history.sent r hr be.sent h)
  refine ⟨⟨?_, hs.closed, hs.given⟩, trivial, rfl, rfl, rfl, .inl ⟨.inl rfl, .inl ⟨hmutex, rfl, ?_⟩⟩⟩
  · refine ⟨hs.history.own, ?_, hs.history.distinct, hs.history.poison, hs.history.poisoned⟩
    exact fun r hr id hid => Nat.lt_succ_of_lt (hs.history.sent r hr id hid)
  · refine ⟨ha.valid, ha.called, ha.method, ha.resp, ha.clean, ⟨?_, ?_⟩, ?_, ?_⟩
    · intro id hid
      cases hid
      exact Nat.lt_succ_self _
    · intro id hid
      cases hid
      exact hunused
    · intro hpending
      have hnone : be.outstanding carried = [] := List.subperm_nil.mp (ha.pending hpending)
      simp only [Channel.outstanding, List.append_eq_nil_iff, List.map_eq_nil_iff] at hnone ⊢
      obtain ⟨hreq, hrep, hcar⟩ := hnone
      rw [hreq, hrep, hcar]
      exact List.Subperm.refl _
    · intro hidle
      obtain ⟨-, hcancelled, hresult, hok⟩ := ha.settled hidle
      refine ⟨.inl (hcancelled rfl), fun _ => hcancelled rfl, hresult, fun h => ?_⟩
      obtain ⟨_, _, h, -⟩ := hok h
      cases h

-- The call keeps the mutex, and only its own phase changes.
theorem effect_same (hs : Shared be) (hmutex : be.txMutex = some t) (hholds : p.holds = true)
    (hholds' : p'.holds = true) (hchecked : p'.Checked called)
    (hheld : Held called be (be.outstanding carried) p') :
    CallerEffect called t carried be p be p' :=
  ⟨hs, hchecked, rfl, rfl, rfl, .inl ⟨.inl hholds, .inl ⟨hmutex, hholds', hheld⟩⟩⟩

-- The call is refused with the slot idle, or gives its call up.
theorem outcome_error {err : AlpError} (hvalid : args.valid = true) (hfresh : Fresh be request)
    (hpoison : request ≠ none → err = .timeout → be.callPoisoned = true)
    (hrefused : (∃ r ∈ be.returns, r.TimedOut) → err = .notReady) :
    Outcome be args request (.error err) respLen := by
  refine ⟨hvalid, hfresh, nofun, ?_, fun h => by rw [hrefused h]⟩
  intro hreq herr
  cases herr
  exact hpoison hreq rfl

-- The slot of a call that is no longer pending is what it returns.
theorem held_read (hs : Shared be) (ha : Active called be out args (some id))
    (hidle : be.callPending = false) :
    Held called be out (.unlocking args (some id) be.callResult (be.readLen args)) := by
  obtain ⟨hquiet, -, hresult, hok⟩ := ha.settled hidle
  refine ⟨⟨hidle, hquiet.imp_right .inr⟩, ha.valid, ha.fresh, ?_, fun _ h => absurd h hresult, ?_⟩
  · intro h
    obtain ⟨id', payload, hid, hf⟩ := hok h
    refine ⟨id', payload, hid, hf, ?_⟩
    unfold Channel.readLen
    rw [h, hf.length]
  · exact fun h => absurd h (hs.history.not_timedOut ha.clean)

theorem effect_cancel {err : AlpError} (hs : Shared be) (hmutex : be.txMutex = some t)
    (ha : Active called be (be.outstanding carried) args none) :
    CallerEffect called t carried be (.failed args err) { be with callPending := false }
      (.unlocking args none (.error err) args.respLen) := by
  refine ⟨⟨?_, fun _ => rfl, fun _ => rfl⟩, trivial, rfl, rfl, rfl,
    .inl ⟨.inl rfl, .inl ⟨hmutex, rfl, ⟨rfl, ?_⟩, ?_⟩⟩⟩
  · exact ⟨hs.history.own, hs.history.sent, hs.history.distinct, hs.history.poison,
      hs.history.poisoned⟩
  · cases hp : be.callPending with
    | true => exact .inr (.inr (List.subperm_nil.mp (ha.pending hp)))
    | false => exact (ha.settled hp).quiet.imp_right .inr
  · exact outcome_error ha.valid fresh_none (fun h => absurd rfl h)
      fun h => absurd h (hs.history.not_timedOut ha.clean)

-- No reply in time: the channel is poisoned.
theorem effect_poison (hs : Shared be) (hmutex : be.txMutex = some t)
    (ha : Active called be (be.outstanding carried) args (some id)) :
    CallerEffect called t carried be (.expired args id)
      { be with callPending := false, callPoisoned := true }
      (.unlocking args (some id) (.error .timeout) args.respLen) := by
  refine ⟨⟨?_, fun _ => rfl, fun _ => rfl⟩, trivial, rfl, rfl, rfl,
    .inl ⟨.inl rfl, .inl ⟨hmutex, rfl, ⟨rfl, .inr (.inl rfl)⟩, ?_⟩⟩⟩
  · exact ⟨hs.history.own, hs.history.sent, hs.history.distinct, fun _ _ _ => rfl,
      hs.history.poisoned⟩
  · exact outcome_error ha.valid ⟨ha.fresh.sent, ha.fresh.unused⟩ (fun _ _ => rfl)
      fun h => absurd h (hs.history.not_timedOut ha.clean)

theorem effect_unlock (hs : Shared be) (hrest : Rest be (be.outstanding carried))
    (ho : Outcome be args request status respLen) :
    CallerEffect called t carried be (.unlocking args request status respLen)
      { be.returning args request status respLen with txMutex := none } .idle := by
  have hh : History (be.returning args request status respLen) := by
    refine hs.history.returning ?_ ho.fresh ho.poison fun h _ => ho.refused h
    intro hok
    obtain ⟨id, payload, hid, hf, hlen⟩ := ho.ok hok
    exact ⟨id, payload, hid, hf, ho.valid, hlen⟩
  refine ⟨⟨?_, hs.closed, hs.given⟩, trivial, rfl, rfl, rfl,
    .inl ⟨.inl rfl, .inr ⟨rfl, rfl, hrest.idle, hrest.quiet⟩⟩⟩
  exact ⟨hh.own, hh.sent, hh.distinct, hh.poison, hh.poisoned⟩

theorem effect_take (hs : Shared be) (hmutex : be.txMutex = some t) (hpos : 0 < be.callSem)
    (ha : Active called be (be.outstanding carried) args (some id)) :
    CallerEffect called t carried be (.waiting args id) { be with callSem := be.callSem - 1 }
      (.taken args id) := by
  have hidle := hs.given hpos
  refine ⟨⟨?_, hs.closed, fun _ => hidle⟩, trivial, rfl, rfl, rfl,
    .inl ⟨.inl rfl, .inl ⟨hmutex, rfl, ?_, hidle⟩⟩⟩
  · exact ⟨hs.history.own, hs.history.sent, hs.history.distinct, hs.history.poison,
      hs.history.poisoned⟩
  · have hq : Quiet be { be with callSem := be.callSem - 1 } (be.outstanding carried)
        (be.outstanding carried) :=
      ⟨rfl, rfl, rfl, rfl, rfl, rfl, rfl, rfl, rfl, rfl, fun _ h => h, fun _ h => .inl h,
        List.Subperm.refl _⟩
    exact hq.active ha

theorem caller_step {a : Action} (hs : Shared be) (hchecked : p.Checked called)
    (hheld : p.holds = true → be.txMutex = some t ∧ Held called be (be.outstanding carried) p)
    (hfree : be.txMutex = none → Rest be (be.outstanding carried))
    (hp : prog called (.caller t) a be p = some (be', p')) :
    CallerEffect called t carried be p be' p' := by
  cases p with
  | idle =>
      cases a <;> simp only [prog, reduceCtorEq] at hp
      next args =>
          split at hp
          next hcalled =>
              split at hp
              next hvalid =>
                  split at hp <;> cases hp
                  · refine ⟨hs, ⟨hvalid, hcalled⟩, rfl, rfl, rfl, .inr ⟨⟨rfl, rfl⟩, rfl, ?_⟩⟩
                    exact quiet_of_subperm (List.Subperm.refl _)
                  · exact effect_refused hs nofun fun _ => rfl
              next hinvalid =>
                  cases hp
                  exact effect_refused hs nofun fun h => absurd h hinvalid
          · cases hp
  | locking args =>
      cases a <;> simp only [prog, reduceCtorEq] at hp
      split at hp <;> cases hp
      next hnone => exact effect_lock hs hnone (hfree hnone) hchecked
  | locked args =>
      obtain ⟨hmutex, hh⟩ := hheld rfl
      cases a <;> simp only [prog, reduceCtorEq] at hp
      split at hp <;> cases hp
      next hshut =>
          obtain ⟨hrest, hvalid, hcalled⟩ := hh
          refine effect_same hs hmutex rfl rfl trivial ⟨hrest, ?_⟩
          exact outcome_error hvalid fresh_none (fun h => absurd rfl h) fun _ => rfl
      next hopen => exact effect_stage hs hmutex hh hopen
  | staged args =>
      obtain ⟨hmutex, hh⟩ := hheld rfl
      cases a <;> simp only [prog, reduceCtorEq] at hp
      split at hp <;> cases hp
      · exact effect_same hs hmutex rfl rfl trivial hh
      · exact effect_same hs hmutex rfl rfl trivial hh
      next data _ => exact effect_send hs hmutex hh data
  | failed args err =>
      obtain ⟨hmutex, hh⟩ := hheld rfl
      cases a <;> simp only [prog, reduceCtorEq] at hp
      cases hp
      exact effect_cancel hs hmutex hh
  | waiting args id =>
      obtain ⟨hmutex, hh⟩ := hheld rfl
      cases a <;> simp only [prog, reduceCtorEq] at hp
      · split at hp <;> cases hp
        next hpos => exact effect_take hs hmutex hpos hh
      · split at hp <;> cases hp
        exact effect_same hs hmutex rfl rfl trivial hh
  | expired args id =>
      obtain ⟨hmutex, hh⟩ := hheld rfl
      cases a <;> simp only [prog, reduceCtorEq] at hp
      split at hp <;> cases hp
      · exact effect_poison hs hmutex hh
      next hidle =>
          refine effect_same hs hmutex rfl rfl trivial ?_
          exact held_read hs hh (Bool.eq_false_of_not_eq_true hidle)
  | taken args id =>
      obtain ⟨hmutex, hh⟩ := hheld rfl
      cases a <;> simp only [prog, reduceCtorEq] at hp
      cases hp
      exact effect_same hs hmutex rfl rfl trivial (held_read hs hh.1 hh.2)
  | unlocking args request status respLen =>
      obtain ⟨-, hrest, ho⟩ := hheld rfl
      cases a <;> simp only [prog, reduceCtorEq] at hp
      cases hp
      exact effect_unlock hs hrest ho
  | _ => cases a <;> simp only [prog, reduceCtorEq] at hp

end Caller

def Phase.carried : Phase → Option Nat
  | .routing frame => frame.answers
  | _ => none

variable {w w' : State T}

def outstanding (w : State T) : List Nat := w.mem.outstanding (w.phase .worker).carried

structure Inv (called : CString → Bool) (w : State T) : Prop where
  shared : Shared w.mem
  giving : w.phase .closer = .giving → w.mem.closing = true
  flying : ∀ frame ∈ w.mem.replies, FrameOk called w.mem.answers frame
  routing : ∀ frame, w.phase .worker = .routing frame → FrameOk called w.mem.answers frame
  checked : ∀ t, (w.phase (.caller t)).Checked called
  owner : ∀ t, (w.phase (.caller t)).holds = true → w.mem.txMutex = some t
  held : ∀ t, w.mem.txMutex = some t → Held called w.mem (outstanding w) (w.phase (.caller t))
  free : w.mem.txMutex = none → Rest w.mem (outstanding w)

theorem inv_of_initial (hinit : Initial w) : Inv called w := by
  have hreturns := hinit.returns
  refine ⟨⟨⟨?_, ?_, ?_, ?_, ?_⟩, fun _ => hinit.callPending, fun _ => hinit.callPending⟩,
    ?_, ?_, ?_, ?_, ?_, ?_, fun _ => ⟨hinit.callPending, .inr (.inr ?_)⟩⟩
  · rw [hreturns]
    exact fun _ h => absurd h List.not_mem_nil
  · rw [hreturns]
    exact fun _ h => absurd h List.not_mem_nil
  · rw [hreturns]
    exact List.Pairwise.nil
  · rw [hreturns]
    exact fun _ h => absurd h List.not_mem_nil
  · rw [Poisoned, hreturns]
    exact List.Pairwise.nil
  · rw [hinit.idle]
    exact nofun
  · rw [hinit.replies]
    exact fun _ h => absurd h List.not_mem_nil
  · rw [hinit.idle]
    exact nofun
  · intro t
    rw [hinit.idle]
    trivial
  · intro t
    rw [hinit.idle]
    exact nofun
  · rw [hinit.txMutex]
    exact nofun
  · simp [outstanding, Channel.outstanding, hinit.requests, hinit.replies, hinit.idle,
      Phase.carried]

theorem FrameOk.mono {answers answers' : List (Nat × List UInt8)}
    (hsub : ∀ x ∈ answers, x ∈ answers') (hf : FrameOk called answers frame) :
    FrameOk called answers' frame := by
  intro method payload hparse
  have h := hf method payload hparse
  cases hid : frame.answers with
  | none => rw [hid] at h; exact h
  | some id => rw [hid] at h; exact hsub _ h

section Environment

-- What a step of the worker, the closer or the peer leaves: `carried` goes from the worker's
-- frame before to its frame after.
structure OtherEffect (called : CString → Bool) (be : Channel T) (carried : Option Nat)
    (be' : Channel T) (carried' : Option Nat) : Prop where
  shared : Shared be'
  closing : be.closing = true → be'.closing = true
  txMutex : be'.txMutex = be.txMutex
  flying : ∀ frame ∈ be'.replies, FrameOk called be'.answers frame
  answers : ∀ x ∈ be.answers, x ∈ be'.answers
  held : ∀ p, Held called be (be.outstanding carried) p →
    Held called be' (be'.outstanding carried') p
  rest : Rest be (be.outstanding carried) → Rest be' (be'.outstanding carried')

variable {carried carried' : Option Nat}

theorem other_of_quiet (hs : Shared be)
    (hq : Quiet be be' (be.outstanding carried) (be'.outstanding carried'))
    (hreturns : be'.returns = be.returns) (hmutex : be'.txMutex = be.txMutex)
    (hgiven : 0 < be'.callSem → be.callPending = false)
    (hflying : ∀ frame ∈ be'.replies, FrameOk called be'.answers frame) :
    OtherEffect called be carried be' carried' := by
  refine ⟨⟨hs.history.of_quiet hq hreturns, ?_, ?_⟩, ?_, hmutex, hflying, hq.answers,
    fun _ hh => hq.held hh, hq.rest⟩
  · rw [hq.closing, hq.pending]
    exact hs.closed
  · rw [hq.pending]
    exact hgiven
  · rw [hq.closing]
    exact id

theorem filterMap_erase {frames : List Frame} (h : frame ∈ frames) :
    ((frames.erase frame).filterMap Frame.answers ++ frame.answers.toList).Perm
      (frames.filterMap Frame.answers) := by
  have hperm := ((List.perm_cons_erase h).filterMap Frame.answers).symm
  refine List.Perm.trans ?_ hperm
  rw [List.filterMap_cons]
  cases frame.answers with
  | none => simp
  | some id => exact List.perm_append_singleton id _

theorem kept_route (be : Channel T) (frame : Frame) : Kept be (be.route frame) := by
  rcases route_cases be frame with heq | ⟨_, _, _, _, _, hc⟩
  · rw [heq]
    exact ⟨rfl, rfl, rfl, rfl, rfl, rfl, rfl, rfl, rfl, rfl⟩
  · exact hc.kept

theorem shared_route (hs : Shared be) (frame : Frame) : Shared (be.route frame) := by
  rcases route_cases be frame with heq | ⟨_, _, _, _, _, hc⟩
  · rw [heq]
    exact hs
  · have hk := hc.kept
    refine ⟨⟨?_, ?_, ?_, ?_, ?_⟩, fun _ => hc.pending, fun _ => hc.pending⟩
    · rw [hk.returns, hk.answers]
      exact hs.history.own
    · rw [hk.returns, hk.sent]
      exact hs.history.sent
    · rw [hk.returns]
      exact hs.history.distinct
    · rw [hk.returns, hk.poisoned]
      exact hs.history.poison
    · rw [Poisoned, hk.returns]
      exact hs.history.poisoned

theorem other_route (hs : Shared be)
    (hflying : ∀ frame ∈ be.replies, FrameOk called be.answers frame)
    (hframe : FrameOk called be.answers frame) :
    OtherEffect called be frame.answers (be.route frame) none := by
  have hk := kept_route be frame
  have hout : be.outstanding frame.answers = be.outstanding none ++ frame.answers.toList := by
    simp [Channel.outstanding]
  have hout' : (be.route frame).outstanding none = be.outstanding none := by
    rw [Channel.outstanding, Channel.outstanding, hk.requests, hk.replies]
  refine ⟨shared_route hs frame, ?_, hk.txMutex, ?_, ?_, ?_, ?_⟩
  · rw [hk.closing]
    exact id
  · rw [hk.replies, hk.answers]
    exact hflying
  · rw [hk.answers]
    exact fun _ h => h
  · rw [hout, hout']
    exact fun _ hh => held_route hframe hh
  · rw [hout, hout']
    intro hr
    rcases route_cases be frame with heq | ⟨_, _, _, hpending, -, -⟩
    · rw [heq]
      exact (quiet_of_subperm (subperm_route _ _)).rest hr
    · rw [hr.idle] at hpending
      cases hpending

theorem worker_step {a : Action} (hs : Shared be)
    (hflying : ∀ frame ∈ be.replies, FrameOk called be.answers frame)
    (hrouting : ∀ frame, p = .routing frame → FrameOk called be.answers frame)
    (hp : prog called .worker a be p = some (be', p')) :
    OtherEffect called be p.carried be' p'.carried ∧
      ∀ frame, p' = .routing frame → FrameOk called be'.answers frame := by
  cases p with
  | idle =>
      cases a <;> simp only [prog, reduceCtorEq] at hp
      next frame =>
          split at hp
          next hmem =>
              have hrest : ∀ f ∈ be.replies.erase frame, FrameOk called be.answers f :=
                fun f hf => hflying f (List.mem_of_mem_erase hf)
              have hperm := filterMap_erase hmem
              split at hp <;> cases hp
              · refine ⟨other_of_quiet hs ?_ rfl rfl hs.given hrest, ?_⟩
                · refine ⟨rfl, rfl, rfl, rfl, rfl, rfl, rfl, rfl, rfl, rfl, fun _ h => h,
                    fun _ h => .inl h, ?_⟩
                  simp only [Channel.outstanding, Phase.carried, Option.toList_none,
                    List.append_nil]
                  exact (hperm.append_left _).subperm
                · intro frame' heq
                  cases heq
                  exact hflying frame hmem
              · refine ⟨other_of_quiet hs ?_ rfl rfl hs.given hrest, fun _ h => nomatch h⟩
                refine ⟨rfl, rfl, rfl, rfl, rfl, rfl, rfl, rfl, rfl, rfl, fun _ h => h,
                  fun _ h => .inl h, ?_⟩
                simp only [Channel.outstanding, Phase.carried, Option.toList_none, List.append_nil]
                have hsub := ((List.erase_sublist).filterMap Frame.answers
                  : ((be.replies.erase frame).filterMap Frame.answers).Sublist _)
                exact (hsub.append_left _).subperm
          · cases hp
  | routing frame =>
      cases a <;> simp only [prog, reduceCtorEq] at hp
      cases hp
      exact ⟨other_route hs hflying (hrouting frame rfl), fun _ h => nomatch h⟩
  | _ => cases a <;> simp only [prog, reduceCtorEq] at hp

theorem kept_shutdown (be : Channel T) :
    be.shutdown.requests = be.requests ∧ be.shutdown.replies = be.replies ∧
      be.shutdown.answers = be.answers ∧ be.shutdown.txMutex = be.txMutex := by
  unfold Channel.shutdown
  split <;> exact ⟨rfl, rfl, rfl, rfl⟩

theorem history_shutdown (hh : History be) : History be.shutdown := by
  unfold Channel.shutdown
  split <;> exact ⟨hh.own, hh.sent, hh.distinct, hh.poison, hh.poisoned⟩

theorem other_shutdown (hs : Shared be)
    (hflying : ∀ frame ∈ be.replies, FrameOk called be.answers frame) :
    OtherEffect called be carried be.shutdown carried := by
  obtain ⟨hreq, hrep, hans, hmutex⟩ := kept_shutdown be
  have hout : be.shutdown.outstanding carried = be.outstanding carried := by
    rw [Channel.outstanding, Channel.outstanding, hreq, hrep]
  refine ⟨⟨history_shutdown hs.history, fun _ => shutdown_pending, fun _ => shutdown_pending⟩,
    fun _ => shutdown_closing, hmutex, ?_, ?_, ?_, fun _ => rest_shutdown be _⟩
  · rw [hrep, hans]
    exact hflying
  · rw [hans]
    exact fun _ h => h
  · rw [hout]
    exact fun _ hh => held_shutdown hh

-- An answer takes the place of its request.
theorem answer_perm {requests : List Request} {req : Request} (h : req ∈ requests)
    (rest tail : List Nat) :
    ((requests.erase req).map Request.id ++ (rest ++ [req.id] ++ tail)).Perm
      (requests.map Request.id ++ (rest ++ tail)) := by
  have hperm := (List.perm_cons_erase h).map Request.id
  have hmove : ((requests.erase req).map Request.id ++ (rest ++ [req.id] ++ tail)).Perm
      (req.id :: ((requests.erase req).map Request.id ++ (rest ++ tail))) := by
    rw [List.append_assoc rest, ← List.append_assoc _ rest, ← List.append_assoc _ rest]
    exact List.perm_middle
  exact hmove.trans (hperm.symm.append_right (rest ++ tail))

theorem closer_step {a : Action} (hs : Shared be)
    (hgiving : p = .giving → be.closing = true)
    (hflying : ∀ frame ∈ be.replies, FrameOk called be.answers frame)
    (hp : prog called .closer a be p = some (be', p')) :
    OtherEffect called be carried be' carried ∧ (p' = .giving → be'.closing = true) := by
  cases p with
  | idle =>
      cases a <;> simp only [prog, reduceCtorEq] at hp
      cases hp
      exact ⟨other_shutdown hs hflying, fun _ => shutdown_closing⟩
  | giving =>
      cases a <;> simp only [prog, reduceCtorEq] at hp
      cases hp
      have hidle := hs.closed (hgiving rfl)
      refine ⟨other_of_quiet hs ?_ rfl rfl (fun _ => hidle) hflying, nofun⟩
      exact ⟨rfl, rfl, rfl, rfl, rfl, rfl, rfl, rfl, rfl, rfl, fun _ h => h, fun _ h => .inl h,
        List.Subperm.refl _⟩
  | _ => cases a <;> simp only [prog, reduceCtorEq] at hp

theorem peer_step {a : Action} (hs : Shared be)
    (hflying : ∀ frame ∈ be.replies, FrameOk called be.answers frame)
    (hp : prog called .peer a be p = some (be', p')) :
    OtherEffect called be carried be' carried := by
  cases p with
  | idle =>
      cases a <;> simp only [prog, reduceCtorEq] at hp
      next req data =>
          split at hp
          next method' payload' method payload hreq hdata =>
              split at hp <;> cases hp
              next hsent =>
                  refine other_of_quiet hs ?_ rfl rfl hs.given ?_
                  · refine ⟨rfl, rfl, rfl, rfl, rfl, rfl, rfl, rfl, rfl, rfl,
                      fun _ h => List.mem_append_left _ h, fun _ h => .inl h, ?_⟩
                    have hperm := answer_perm hsent.1 (be.replies.filterMap Frame.answers)
                      carried.toList
                    simpa [Channel.outstanding] using hperm.subperm
                  · refine List.forall_mem_append.mpr ⟨?_, List.forall_mem_singleton.mpr ?_⟩
                    · exact fun f hf => (hflying f hf).mono fun _ h => List.mem_append_left _ h
                    · intro m q hparse
                      rw [hdata] at hparse
                      cases hparse
                      exact List.mem_append_right _ (List.mem_singleton.mpr rfl)
          · cases hp
      next data =>
          split at hp <;> cases hp
          next hnone =>
              refine other_of_quiet hs ?_ rfl rfl hs.given ?_
              · refine ⟨rfl, rfl, rfl, rfl, rfl, rfl, rfl, rfl, rfl, rfl, fun _ h => h,
                  fun _ h => .inl h, ?_⟩
                have hsame : (be.replies ++ [(⟨none, data⟩ : Frame)]).filterMap Frame.answers =
                    be.replies.filterMap Frame.answers := by simp
                rw [Channel.outstanding, Channel.outstanding, hsame]
              · refine List.forall_mem_append.mpr ⟨hflying, List.forall_mem_singleton.mpr ?_⟩
                intro method payload hparse
                exact hnone method (by rw [hparse]; rfl)
  | _ => cases a <;> simp only [prog, reduceCtorEq] at hp

end Environment

theorem agreement_of_history (hh : History be) : Agreement be := by
  refine ⟨hh.own, hh.distinct.imp_of_mem ?_⟩
  intro r r' hr hr' hdistinct hok hok' hreply
  obtain ⟨id, payload, hown⟩ := hh.own r hr hok
  obtain ⟨id', payload', hown'⟩ := hh.own r' hr' hok'
  rw [hown.reply, hown'.reply] at hreply
  exact hdistinct id hown.request (hown'.request.trans hreply.symm)

section Run

variable [DecidableEq T]

theorem Inv.caller (hinv : Inv called w) {t : T} {a : Action} {be' : Channel T} {p' : Phase}
    (hp : prog called (.caller t) a w.mem (w.phase (.caller t)) = some (be', p')) :
    Inv called ⟨be', Function.update w.phase (.caller t) p'⟩ := by
  have he : CallerEffect called t (w.phase .worker).carried w.mem (w.phase (.caller t)) be' p' := by
    refine caller_step hinv.shared (hinv.checked t) ?_ hinv.free hp
    exact fun h => ⟨hinv.owner t h, hinv.held t (hinv.owner t h)⟩
  have hother : ∀ u, u ≠ t → Function.update w.phase (.caller t) p' (.caller u) =
      w.phase (.caller u) := fun u hu =>
    Function.update_of_ne (fun h => hu (Actor.caller.inj h)) _ _
  have hself : Function.update w.phase (.caller t) p' (.caller t) = p' := Function.update_self ..
  have hchecked : ∀ u, (Function.update w.phase (.caller t) p' (.caller u)).Checked called := by
    intro u
    by_cases hu : u = t
    · rw [hu, hself]
      exact he.checked
    · rw [hother u hu]
      exact hinv.checked u
  -- a step that takes or releases the mutex leaves no other holder
  have hsole : (w.phase (.caller t)).holds = true ∨ w.mem.txMutex = none → ∀ u, u ≠ t →
      (w.phase (.caller u)).holds = false := by
    intro hacts u hu
    by_contra hholds
    have hu' := hinv.owner u (by simpa using hholds)
    rcases hacts with h | h
    · exact hu (Option.some.inj (hu'.symm.trans (hinv.owner t h)))
    · rw [h] at hu'
      cases hu'
  refine ⟨he.shared, ?_, ?_, ?_, hchecked, ?_, ?_, ?_⟩
  · change w.phase .closer = .giving → be'.closing = true
    rw [he.closing]
    exact hinv.giving
  · change ∀ frame ∈ be'.replies, FrameOk called be'.answers frame
    rw [he.replies, he.answers]
    exact hinv.flying
  · change ∀ frame, w.phase .worker = .routing frame → FrameOk called be'.answers frame
    rw [he.answers]
    exact hinv.routing
  · intro u (hu : (Function.update w.phase (.caller t) p' (.caller u)).holds = true)
    change be'.txMutex = some u
    by_cases hut : u = t
    · rw [hut, hself] at hu
      rcases he.slot with ⟨-, h | h⟩ | h
      · rw [hut]
        exact h.1
      · rw [h.2.1] at hu
        cases hu
      · rw [h.1.2] at hu
        cases hu
    · rw [hother u hut] at hu
      rcases he.slot with ⟨hacts, -⟩ | h
      · rw [hsole hacts u hut] at hu
        cases hu
      · rw [h.2.1]
        exact hinv.owner u hu
  · intro u (hu : be'.txMutex = some u)
    change Held called be' (be'.outstanding (w.phase .worker).carried)
      (Function.update w.phase (.caller t) p' (.caller u))
    rcases he.slot with ⟨-, h | h⟩ | h
    · rw [h.1] at hu
      cases hu
      rw [hself]
      exact h.2.2
    · rw [h.1] at hu
      cases hu
    · have hmutex : w.mem.txMutex = some u := h.2.1.symm.trans hu
      have hheld := h.2.2.held (hinv.held u hmutex)
      by_cases hut : u = t
      · have hholds := (hinv.held u hmutex).holds
        rw [hut, h.1.1] at hholds
        cases hholds
      · rw [hother u hut]
        exact hheld
  · intro (hnone : be'.txMutex = none)
    change Rest be' (be'.outstanding (w.phase .worker).carried)
    rcases he.slot with ⟨-, h | h⟩ | h
    · rw [h.1] at hnone
      cases hnone
    · exact h.2.2
    · exact h.2.2.rest (hinv.free (h.2.1.symm.trans hnone))

theorem Inv.other (hinv : Inv called w) {actor : Actor T} {be' : Channel T} {p' : Phase}
    (hcaller : ∀ t, actor ≠ .caller t)
    (he : OtherEffect called w.mem (w.phase .worker).carried be'
      (Function.update w.phase actor p' .worker).carried)
    (hgiving : Function.update w.phase actor p' .closer = .giving → be'.closing = true)
    (hrouting : ∀ frame, Function.update w.phase actor p' .worker = .routing frame →
      FrameOk called be'.answers frame) :
    Inv called ⟨be', Function.update w.phase actor p'⟩ := by
  have hsame : ∀ t, Function.update w.phase actor p' (.caller t) = w.phase (.caller t) :=
    fun t => Function.update_of_ne (hcaller t).symm _ _
  refine ⟨he.shared, hgiving, he.flying, hrouting, ?_, ?_, ?_, ?_⟩
  · intro t
    change (Function.update w.phase actor p' (.caller t)).Checked called
    rw [hsame]
    exact hinv.checked t
  · intro t
    change (Function.update w.phase actor p' (.caller t)).holds = true → be'.txMutex = some t
    rw [hsame, he.txMutex]
    exact hinv.owner t
  · intro t (ht : be'.txMutex = some t)
    change Held called be' _ (Function.update w.phase actor p' (.caller t))
    rw [hsame]
    exact he.held _ (hinv.held t (he.txMutex.symm.trans ht))
  · intro (hnone : be'.txMutex = none)
    exact he.rest (hinv.free (he.txMutex.symm.trans hnone))

theorem inv_step (a : Actor T × Action) (h : callStep called a w = some w')
    (hinv : Inv called w) : Inv called w' := by
  obtain ⟨actor, a⟩ := a
  obtain ⟨be', p', hp, rfl⟩ := step_eq_some.mp h
  cases actor with
  | caller t => exact hinv.caller hp
  | worker =>
      obtain ⟨he, hrouting⟩ := worker_step hinv.shared hinv.flying hinv.routing hp
      refine hinv.other nofun ?_ ?_ ?_
      · rw [Function.update_self]
        exact he
      · intro h
        exact he.closing (hinv.giving h)
      · rw [Function.update_self]
        exact hrouting
  | closer =>
      obtain ⟨he, hgiving⟩ : OtherEffect called w.mem (w.phase .worker).carried be'
          (w.phase .worker).carried ∧ (p' = .giving → be'.closing = true) :=
        closer_step hinv.shared hinv.giving hinv.flying hp
      refine hinv.other nofun he ?_ ?_
      · rw [Function.update_self]
        exact hgiving
      · exact fun frame h => (hinv.routing frame h).mono he.answers
  | peer =>
      have he : OtherEffect called w.mem (w.phase .worker).carried be' (w.phase .worker).carried :=
        peer_step hinv.shared hinv.flying hp
      refine hinv.other nofun he ?_ ?_
      · exact fun h => he.closing (hinv.giving h)
      · exact fun frame h => (hinv.routing frame h).mono he.answers

-- Whatever the order of late replies, timeouts, failed sends and the shutdown.
theorem agreed_of_run (hinit : Initial w)
    (hrun : Run (callStep called) (fun _ _ => True) w w') :
    Agreement w'.mem ∧ Poisoned w'.mem := by
  have hfirst : Inv called w := inv_of_initial hinit
  have hinv := run_invariant (fun a _ _ _ h hinv => inv_step a h hinv) hrun hfirst
  exact ⟨agreement_of_history hinv.shared.history, hinv.shared.history.poisoned⟩

end Run

-- A channel right after `z_open`.
def opened : State T :=
  { mem := { inUse := true, closing := false, txMutex := none, callSem := 0, callMethod := .empty
             callRespBuf := none, callRespCap := 0, callRespLen := 0, callResult := .ok ()
             callPending := false, callPoisoned := false, ram := fun _ => 0, requests := []
             replies := [], sent := 0, callReply := none, answers := [], returns := [] }
    phase := fun _ => .idle }

theorem opened_initial : Initial (opened (T := T)) :=
  ⟨rfl, rfl, rfl, rfl, rfl, rfl, rfl, rfl, rfl, rfl, rfl, fun _ => rfl⟩

-- The method "m", with room for 4 bytes of its reply at address 100.
def ping : Args :=
  { method := some ⟨[109], by decide⟩, req := [1], resp := some 100, respLen := some 4
    timeoutMs := 10 }

def noMethod : Args := { ping with method := some .empty }

def pingFrame : List UInt8 := [109, 0, 1]

def pongFrame : List UInt8 := [109, 0, 7, 8]

-- A call that gets its reply.
def answered (t : Fin 2) : List (Actor (Fin 2) × Action) :=
  [(.caller t, .call ping), (.caller t, .lock), (.caller t, .stage), (.caller t, .send (.ok ())),
    (.peer, .answer ⟨0, pingFrame⟩ pongFrame), (.worker, .deliver ⟨some 0, pongFrame⟩), (.worker, .route),
    (.caller t, .take), (.caller t, .collect), (.caller t, .unlock)]

-- A call whose reply comes after its timeout, and the call that is refused for it.
def late (id : Nat) : List (Actor (Fin 2) × Action) :=
  [(.caller 1, .call ping), (.caller 1, .lock), (.caller 1, .stage), (.caller 1, .send (.ok ())),
    (.caller 1, .expire), (.caller 1, .settle), (.caller 0, .call ping), (.caller 1, .unlock),
    (.peer, .answer ⟨id, pingFrame⟩ pongFrame), (.caller 0, .lock), (.caller 0, .stage),
    (.worker, .deliver ⟨some id, pongFrame⟩), (.worker, .route), (.caller 0, .unlock)]

def statuses (actions : List (Actor (Fin 2) × Action)) : Option (List Status) :=
  (exec (callStep fun _ => true) actions opened).map fun w => w.mem.returns.map Return.status

theorem exec_of_statuses (actions : List (Actor (Fin 2) × Action)) (results : List Status)
    (h : statuses actions = some results) :
    ∃ w, exec (callStep fun _ => true) actions opened = some w ∧
      w.mem.returns.map Return.status = results := Option.map_eq_some_iff.mp h

theorem agreed_answered_late :
    ∃ w, exec (callStep fun _ => true) (answered 0 ++ late 1) opened = some w ∧
      w.mem.returns.map Return.status = [.ok (), .error .timeout, .error .notReady] ∧
      Agreement w.mem ∧ Poisoned w.mem := by
  obtain ⟨w, hexec, hstatus⟩ := exec_of_statuses (answered 0 ++ late 1)
    [.ok (), .error .timeout, .error .notReady] (by decide +kernel)
  exact ⟨w, hexec, hstatus,
    agreed_of_run opened_initial (run_of_exec _ hexec (along_true _ _))⟩

-- A send that fails with `-EAGAIN`, which `errno_to_alp` maps to `ALP_ERR_TIMEOUT`.
def sendFails : List (Actor (Fin 2) × Action) :=
  [(.caller 0, .call ping), (.caller 0, .lock), (.caller 0, .stage),
    (.caller 0, .send (.error .EAGAIN)), (.caller 0, .cancel), (.caller 0, .unlock)]

-- A call that times out, and one without a method after it.
def timesOut : List (Actor (Fin 2) × Action) :=
  [(.caller 0, .call ping), (.caller 0, .lock), (.caller 0, .stage), (.caller 0, .send (.ok ())),
    (.caller 0, .expire), (.caller 0, .settle), (.caller 0, .unlock), (.caller 1, .call noMethod)]

theorem not_refusesAll {be : Channel T} {status : Status}
    (h : be.returns.map Return.status = [.error .timeout, status])
    (hne : status ≠ .error .notReady) : ¬RefusesAll be := by
  intro hall
  have hpair : (be.returns.map Return.status).Pairwise fun s s' =>
      s = .error .timeout → s' = .error .notReady := List.pairwise_map.mpr hall
  rw [h] at hpair
  have hlater := (List.pairwise_cons.mp hpair).1 status (List.mem_singleton.mpr rfl) rfl
  exact hne hlater

-- The call after a failed send gets its reply, and the call after a timeout is refused for its
-- arguments.
theorem timeout_then_other_status :
    (∃ w, Run (callStep fun _ => true) (fun _ _ => True) (opened (T := Fin 2)) w ∧
      w.mem.returns.map Return.status = [.error .timeout, .ok ()] ∧ ¬RefusesAll w.mem) ∧
    ∃ w, Run (callStep fun _ => true) (fun _ _ => True) (opened (T := Fin 2)) w ∧
      w.mem.returns.map Return.status = [.error .timeout, .error .inval] ∧
      ¬RefusesAll w.mem := by
  constructor
  · obtain ⟨w, hexec, hstatus⟩ := exec_of_statuses (sendFails ++ answered 1)
      [.error .timeout, .ok ()] (by decide +kernel)
    exact ⟨w, run_of_exec _ hexec (along_true _ _), hstatus, not_refusesAll hstatus nofun⟩
  · obtain ⟨w, hexec, hstatus⟩ := exec_of_statuses timesOut
      [.error .timeout, .error .inval] (by decide +kernel)
    exact ⟨w, run_of_exec _ hexec (along_true _ _), hstatus, not_refusesAll hstatus nofun⟩

end AlpSdk.Rpc.Call
