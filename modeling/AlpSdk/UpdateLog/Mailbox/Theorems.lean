import AlpSdk.UpdateLog.Mailbox
import Mathlib.Data.List.Nodup

namespace AlpSdk.UpdateLog.Mailbox

open Library.Transition

variable {σ : Type} {svc : LogService σ} {s s' : State σ}

-- The seq and the call the owner is serving.
def OwnerPhase.serving : OwnerPhase → Option (Nat × Option Nat)
  | .picked seq call => some (seq, call)
  | .executed seq call _ => some (seq, call)
  | .replying seq call => some (seq, call)
  | _ => none

-- The owner has nothing in hand and will pick nothing up until the client publishes.
def Quiet (s : State σ) : Prop :=
  match s.owner with
  | .booting => True
  | .clearing => s.reqSeq = 0
  | .polling => s.reqSeq = 0 ∨ s.reqSeq = s.lastSeq
  | _ => False

def Executed (s : State σ) (call : Option Nat) (reply : Reply) : Prop :=
  ∃ e ∈ s.executions, e.call = call ∧ e.reply = reply

-- The call has not reached the seq word yet.
def Unposted (s : State σ) (call : Nat) : Prop :=
  some call ∉ s.served ∧ s.reqSeqOf ≠ some call

-- What the call published is still in the slot, or was cleared by a restarted owner.
def Posted (s : State σ) (call seq : Nat) : Prop :=
  s.reqSeq = 0 ∨ s.reqSeq = seq ∧ s.reqSeqOf = some call

def ClientInv (s : State σ) : Prop :=
  match s.client with
  | .idle => True
  | .writing call seq body => seq ≠ 0 ∧ s.asked[call]? = some body ∧ Unposted s call
  | .publishing call seq => seq ≠ 0 ∧ s.reqBodyOf = some call ∧ Unposted s call
  | .waiting call seq =>
      seq ≠ 0 ∧ Posted s call seq ∧
        (∀ other, s.owner.serving = some (seq, other) → other = some call) ∧
        (s.rspSeq = seq → Quiet s ∧ Executed s (some call) s.rspBody)
  | .reading call _ => Quiet s ∧ Executed s (some call) s.rspBody

def OwnerInv (s : State σ) : Prop :=
  match s.owner with
  | .booting => True
  | .clearing => s.lastSeq = 0
  | .polling => True
  | .picked seq call =>
      seq = s.lastSeq ∧ call ∈ s.served ∧ call ∉ s.executions.map Execution.call ∧
        ∃ c, call = some c ∧ s.reqBodyOf = some c
  | .executed seq call reply => seq = s.lastSeq ∧ Executed s call reply
  | .replying seq call => seq = s.lastSeq ∧ Executed s call s.rspBody

structure Inv (s : State σ) : Prop where
  body : ∀ call, s.reqBodyOf = some call → s.asked[call]? = some s.reqBody
  published : ∀ call, s.reqSeqOf = some call → call < s.asked.length
  cleared : s.owner ≠ .booting → s.reqSeqOf = none → s.reqSeq = 0
  repeated : s.owner ≠ .booting → s.reqSeqOf ∈ s.served → s.reqSeq = s.lastSeq ∨ s.reqSeq = 0
  servedCalls : ∀ call, some call ∈ s.served → call < s.asked.length
  servedOnce : s.served.Nodup
  executedServed : ∀ e ∈ s.executions, e.call ∈ s.served
  executedOnce : (s.executions.map Execution.call).Nodup
  executedBody : ∀ e ∈ s.executions, ∃ call, e.call = some call ∧ s.asked[call]? = some e.body
  returned : ∀ call reply, (call, reply) ∈ s.returns → Executed s (some call) reply
  client : ClientInv s
  owner : OwnerInv s

theorem inv_of_initial (h : Initial s) : Inv s := by
  refine ⟨?_, ?_, ?_, ?_, ?_, ?_, ?_, ?_, ?_, ?_, ?_, ?_⟩
  · simp [h.reqBodyOf]
  · simp [h.reqSeqOf]
  · simp [h.owner]
  · simp [h.owner]
  · simp [h.served]
  · simp [h.served]
  · simp [h.executions]
  · simp [h.executions]
  · simp [h.executions]
  · simp [h.returns]
  · simp [ClientInv, h.client]
  · simp [OwnerInv, h.owner]

theorem nextSeq_ne_zero (seq : Nat) : nextSeq seq ≠ 0 := by
  unfold nextSeq
  split
  · decide
  · assumption

section Client

variable (hinv : Inv s)
include hinv

theorem inv_begin {op arg : Nat} {entry : Entry} (h : step svc (.begin op arg entry) s = some s') :
    Inv s' := by
  simp only [step] at h
  split at h
  · cases h
    have hold : ∀ (call : Nat) (body new : Request), s.asked[call]? = some body →
        (s.asked ++ [new])[call]? = some body := by
      intro call body new hcall
      rw [List.getElem?_append_left (List.getElem?_eq_some_iff.mp hcall).1]
      exact hcall
    refine ⟨?_, ?_, hinv.cleared, hinv.repeated, ?_, hinv.servedOnce, hinv.executedServed,
      hinv.executedOnce, ?_, hinv.returned, ?_, hinv.owner⟩
    · intro call hcall
      exact hold _ _ _ (hinv.body call hcall)
    · intro call hcall
      have hlt := hinv.published call hcall
      simp only [List.length_append]
      omega
    · intro call hcall
      have hlt := hinv.servedCalls call hcall
      simp only [List.length_append]
      omega
    · intro e he
      obtain ⟨call, hcall, hbody⟩ := hinv.executedBody e he
      exact ⟨call, hcall, hold _ _ _ hbody⟩
    · refine ⟨nextSeq_ne_zero _, by simp, ?_, ?_⟩
      · intro hserved
        exact Nat.lt_irrefl _ (hinv.servedCalls _ hserved)
      · intro hposted
        exact Nat.lt_irrefl _ (hinv.published _ hposted)
  · cases h

theorem inv_writeBody (hfree : ∀ seq call, s.owner ≠ .picked seq call)
    (h : step svc .writeBody s = some s') : Inv s' := by
  simp only [step] at h
  split at h
  · rename_i call seq body hclient
    have hc := hinv.client
    simp only [ClientInv, hclient] at hc
    obtain ⟨hseq, hasked, hunposted⟩ := hc
    cases h
    refine ⟨?_, hinv.published, hinv.cleared, hinv.repeated, hinv.servedCalls, hinv.servedOnce,
      hinv.executedServed, hinv.executedOnce, hinv.executedBody, hinv.returned,
      ⟨hseq, rfl, hunposted⟩, ?_⟩
    · intro other hother
      cases hother
      exact hasked
    · have ho := hinv.owner
      unfold OwnerInv at ho ⊢
      cases howner : s.owner with
      | picked seq call => exact absurd howner (hfree seq call)
      | booting | polling => trivial
      | clearing | executed | replying =>
          simp only [howner] at ho ⊢
          exact ho
  · cases h

theorem inv_writeSeq (hfresh : ∀ call seq, s.client = .publishing call seq →
    seq ≠ s.rspSeq ∧ seq ≠ s.lastSeq) (h : step svc .writeSeq s = some s') : Inv s' := by
  simp only [step] at h
  split at h
  · rename_i call seq hclient
    obtain ⟨hrsp, hlast⟩ := hfresh call seq hclient
    have hc := hinv.client
    simp only [ClientInv, hclient] at hc
    obtain ⟨hseq, hbody, hunposted⟩ := hc
    have hlt : call < s.asked.length :=
      (List.getElem?_eq_some_iff.mp (hinv.body call hbody)).1
    cases h
    refine ⟨hinv.body, ?_, ?_, ?_, hinv.servedCalls, hinv.servedOnce, hinv.executedServed,
      hinv.executedOnce, hinv.executedBody, hinv.returned, ?_, ?_⟩
    · intro other hother
      cases hother
      exact hlt
    · intro _ hnone
      cases hnone
    · intro _ hserved
      exact absurd hserved hunposted.1
    · refine ⟨hseq, Or.inr ⟨rfl, rfl⟩, ?_, fun heq => absurd heq.symm hrsp⟩
      -- what the owner has in hand carries its last seq
      intro other hserving
      have ho := hinv.owner
      unfold OwnerInv at ho
      cases howner : s.owner with
      | booting | clearing | polling => simp [OwnerPhase.serving, howner] at hserving
      | picked | executed | replying =>
          simp only [howner] at ho
          simp only [OwnerPhase.serving, howner, Option.some.injEq, Prod.mk.injEq] at hserving
          exact absurd (hserving.1.symm.trans ho.1) hlast
    · have ho := hinv.owner
      unfold OwnerInv at ho ⊢
      exact ho
  · cases h

theorem inv_matchReply (h : step svc .matchReply s = some s') : Inv s' := by
  simp only [step] at h
  split at h
  · rename_i call seq hclient
    split at h
    · rename_i heq
      have hc := hinv.client
      simp only [ClientInv, hclient] at hc
      obtain ⟨-, -, -, hanswer⟩ := hc
      cases h
      exact ⟨hinv.body, hinv.published, hinv.cleared, hinv.repeated, hinv.servedCalls,
        hinv.servedOnce, hinv.executedServed, hinv.executedOnce, hinv.executedBody, hinv.returned,
        hanswer heq, hinv.owner⟩
    · cases h
  · cases h

theorem inv_readReply (h : step svc .readReply s = some s') : Inv s' := by
  simp only [step] at h
  split at h
  · rename_i call seq hclient
    have hc := hinv.client
    simp only [ClientInv, hclient] at hc
    split at h
    · cases h
      exact ⟨hinv.body, hinv.published, hinv.cleared, hinv.repeated, hinv.servedCalls,
        hinv.servedOnce, hinv.executedServed, hinv.executedOnce, hinv.executedBody, hinv.returned,
        trivial, hinv.owner⟩
    · cases h
      refine ⟨hinv.body, hinv.published, hinv.cleared, hinv.repeated, hinv.servedCalls,
        hinv.servedOnce, hinv.executedServed, hinv.executedOnce, hinv.executedBody, ?_,
        trivial, hinv.owner⟩
      intro other reply hmem
      simp only [List.mem_cons, Prod.mk.injEq] at hmem
      rcases hmem with ⟨rfl, rfl⟩ | hmem
      · exact hc.2
      · exact hinv.returned other reply hmem
  · cases h

-- Giving a call up touches nothing that is shared.
theorem inv_idle (hclient : s'.client = .idle) (hrest : s' = { s with
    client := s'.client, ready := s'.ready, clientSeq := s'.clientSeq }) : Inv s' := by
  rw [hrest]
  refine ⟨hinv.body, hinv.published, hinv.cleared, hinv.repeated, hinv.servedCalls,
    hinv.servedOnce, hinv.executedServed, hinv.executedOnce, hinv.executedBody, hinv.returned,
    ?_, hinv.owner⟩
  simp only [ClientInv, hclient]

end Client

-- Before its call is published the client rests on what only it writes and on the call being
-- unposted, so a step of the owner has only the two later phases to answer for.
theorem clientInv_owner (hc : ClientInv s) (hclient : s'.client = s.client)
    (hasked : s'.asked = s.asked) (hbodyOf : s'.reqBodyOf = s.reqBodyOf)
    (hunposted : ∀ call, Unposted s call → Unposted s' call)
    (hwaiting : ∀ call seq, s.client = .waiting call seq → ClientInv s')
    (hreading : ∀ call seq, s.client = .reading call seq → ClientInv s') : ClientInv s' := by
  cases hphase : s.client with
  | idle => simp only [ClientInv, hclient, hphase]
  | writing call seq body =>
      simp only [ClientInv, hclient, hphase, hasked] at hc ⊢
      exact ⟨hc.1, hc.2.1, hunposted call hc.2.2⟩
  | publishing call seq =>
      simp only [ClientInv, hclient, hphase, hbodyOf] at hc ⊢
      exact ⟨hc.1, hc.2.1, hunposted call hc.2.2⟩
  | waiting call seq => exact hwaiting call seq hphase
  | reading call seq => exact hreading call seq hphase

section Owner

variable (hinv : Inv s)
include hinv

theorem inv_clearReq {openOk : Bool} (h : step svc (.clearReq openOk) s = some s') : Inv s' := by
  simp only [step] at h
  split at h
  · rename_i howner
    cases h
    refine ⟨hinv.body, ?_, fun _ _ => rfl, fun _ _ => Or.inr rfl, hinv.servedCalls, hinv.servedOnce,
      hinv.executedServed, hinv.executedOnce, hinv.executedBody, hinv.returned, ?_, rfl⟩
    · intro call hcall
      cases hcall
    · have hc := hinv.client
      refine clientInv_owner hc rfl rfl rfl ?_ ?_ ?_
      · intro call hun
        exact ⟨hun.1, nofun⟩
      · intro call seq hclient
        simp only [ClientInv, hclient] at hc ⊢
        obtain ⟨hseq, -, -, hanswer⟩ := hc
        exact ⟨hseq, Or.inl rfl, by simp [OwnerPhase.serving], fun heq => ⟨rfl, (hanswer heq).2⟩⟩
      · intro call seq hclient
        simp only [ClientInv, hclient] at hc ⊢
        exact ⟨rfl, hc.2⟩
  · cases h

theorem inv_clearRsp (h : step svc .clearRsp s = some s') : Inv s' := by
  simp only [step] at h
  split at h
  · rename_i howner
    have hboot : s.owner ≠ .booting := by simp [howner]
    cases h
    refine ⟨hinv.body, hinv.published, fun _ => hinv.cleared hboot, fun _ => hinv.repeated hboot,
      hinv.servedCalls, hinv.servedOnce, hinv.executedServed, hinv.executedOnce, hinv.executedBody,
      hinv.returned, ?_, trivial⟩
    have hc := hinv.client
    refine clientInv_owner hc rfl rfl rfl (fun call hun => hun) ?_ ?_
    · intro call seq hclient
      simp only [ClientInv, hclient] at hc ⊢
      obtain ⟨hseq, hposted, -, -⟩ := hc
      exact ⟨hseq, hposted, by simp [OwnerPhase.serving], fun heq => absurd heq.symm hseq⟩
    · intro call seq hclient
      simp only [ClientInv, hclient] at hc ⊢
      have hquiet := hc.1
      simp only [Quiet, howner] at hquiet
      exact ⟨Or.inl hquiet, hc.2⟩
  · cases h

theorem inv_pickUp (hsame : s.reqBodyOf = s.reqSeqOf) (h : step svc .pickUp s = some s') :
    Inv s' := by
  simp only [step] at h
  split at h
  · rename_i howner
    split at h
    · cases h
    rename_i hnew
    push Not at hnew
    have hboot : s.owner ≠ .booting := by simp [howner]
    have hquiet : ¬Quiet s := by
      simp only [Quiet, howner]
      intro hq
      rcases hq with hz | hl
      · exact hnew.1 hz
      · exact hnew.2 hl
    have hunserved : s.reqSeqOf ∉ s.served := by
      intro hserved
      rcases hinv.repeated hboot hserved with hl | hz
      · exact hnew.2 hl
      · exact hnew.1 hz
    obtain ⟨call, hcall⟩ : ∃ call, s.reqSeqOf = some call := by
      cases hof : s.reqSeqOf with
      | none => exact absurd (hinv.cleared hboot hof) hnew.1
      | some call => exact ⟨call, rfl⟩
    cases h
    refine ⟨hinv.body, hinv.published, fun _ => hinv.cleared hboot, fun _ _ => Or.inl rfl, ?_, ?_, ?_,
      hinv.executedOnce, hinv.executedBody, hinv.returned, ?_, ?_⟩
    · intro other hother
      rcases List.mem_cons.mp hother with heq | hold
      · exact hinv.published other heq.symm
      · exact hinv.servedCalls other hold
    · exact List.nodup_cons.mpr ⟨hunserved, hinv.servedOnce⟩
    · intro e he
      exact List.mem_cons_of_mem _ (hinv.executedServed e he)
    · have hc := hinv.client
      refine clientInv_owner hc rfl rfl rfl ?_ ?_ ?_
      · intro call hunposted
        refine ⟨?_, hunposted.2⟩
        intro hmem
        rcases List.mem_cons.mp hmem with heq | hold
        · exact hunposted.2 heq.symm
        · exact hunposted.1 hold
      · intro call seq hclient
        simp only [ClientInv, hclient] at hc ⊢
        obtain ⟨hseq, hposted, -, hanswer⟩ := hc
        refine ⟨hseq, hposted, ?_, fun heq => absurd (hanswer heq).1 hquiet⟩
        intro other hserving
        simp only [OwnerPhase.serving, Option.some.injEq, Prod.mk.injEq] at hserving
        rcases hposted with hz | ⟨-, hof⟩
        · exact absurd hz hnew.1
        · rw [← hserving.2, hof]
      · intro call seq hclient
        simp only [ClientInv, hclient] at hc
        exact absurd hc.1 hquiet
    · refine ⟨rfl, List.mem_cons_self, ?_, call, hcall, hsame.trans hcall⟩
      intro hmem
      obtain ⟨e, he, heq⟩ := List.mem_map.mp hmem
      exact hunserved (heq ▸ hinv.executedServed e he)
  · cases h

end Owner

theorem not_quiet {seq : Nat} {call : Option Nat} (h : s.owner.serving = some (seq, call)) :
    ¬Quiet s := by
  unfold Quiet
  cases howner : s.owner with
  | booting | clearing | polling => simp [OwnerPhase.serving, howner] at h
  | picked | executed | replying => simp

-- While the owner works on a request, no reply has been matched, so the client does not see
-- what it does.
theorem clientInv_serving (hc : ClientInv s) {owner : OwnerPhase} {seq : Nat} {call : Option Nat}
    (hold : s.owner.serving = some (seq, call)) (hnew : owner.serving = some (seq, call))
    (opened : Bool) (store : σ) (rspBody : Reply) (executions : List Execution) :
    ClientInv { s with owner, opened, store, rspBody, executions } := by
  have hquiet := not_quiet hold
  refine clientInv_owner hc rfl rfl rfl (fun call hun => hun) ?_ ?_
  · intro call seq hclient
    simp only [ClientInv, hclient] at hc ⊢
    obtain ⟨hseq, hposted, hserving, hanswer⟩ := hc
    refine ⟨hseq, hposted, ?_, fun heq => absurd (hanswer heq).1 hquiet⟩
    rw [hnew, ← hold]
    exact hserving
  · intro call seq hclient
    simp only [ClientInv, hclient] at hc
    exact absurd hc.1 hquiet

section Owner

variable (hinv : Inv s)
include hinv

theorem inv_execute {openOk : Bool} (h : step svc (.execute openOk) s = some s') : Inv s' := by
  simp only [step] at h
  split at h
  · rename_i seq call howner
    have hboot : s.owner ≠ .booting := by simp [howner]
    have ho := hinv.owner
    simp only [OwnerInv, howner] at ho
    obtain ⟨hlast, hserved, hfresh, c, hcall, hbodyOf⟩ := ho
    have hserving : s.owner.serving = some (seq, call) := by simp [OwnerPhase.serving, howner]
    cases h
    refine ⟨hinv.body, hinv.published, fun _ => hinv.cleared hboot, fun _ => hinv.repeated hboot,
      hinv.servedCalls, hinv.servedOnce, ?_, ?_, ?_, ?_,
      clientInv_serving hinv.client hserving rfl _ _ _ _, ?_⟩
    · intro e he
      rcases List.mem_cons.mp he with rfl | hold
      · exact hserved
      · exact hinv.executedServed e hold
    · rw [List.map_cons]
      exact List.nodup_cons.mpr ⟨hfresh, hinv.executedOnce⟩
    · intro e he
      rcases List.mem_cons.mp he with rfl | hold
      · exact ⟨c, hcall, hinv.body c hbodyOf⟩
      · exact hinv.executedBody e hold
    · intro other reply hmem
      obtain ⟨e, he, hpair⟩ := hinv.returned other reply hmem
      exact ⟨e, List.mem_cons_of_mem _ he, hpair⟩
    · exact ⟨hlast, _, List.mem_cons_self, rfl, rfl⟩
  · cases h

theorem inv_writeReply (h : step svc .writeReply s = some s') : Inv s' := by
  simp only [step] at h
  split at h
  · rename_i seq call reply howner
    have hboot : s.owner ≠ .booting := by simp [howner]
    have ho := hinv.owner
    simp only [OwnerInv, howner] at ho
    have hserving : s.owner.serving = some (seq, call) := by simp [OwnerPhase.serving, howner]
    cases h
    exact ⟨hinv.body, hinv.published, fun _ => hinv.cleared hboot, fun _ => hinv.repeated hboot,
      hinv.servedCalls, hinv.servedOnce, hinv.executedServed, hinv.executedOnce, hinv.executedBody,
      hinv.returned, clientInv_serving hinv.client hserving rfl _ _ _ _, ho⟩
  · cases h

theorem inv_writeReplySeq (h : step svc .writeReplySeq s = some s') : Inv s' := by
  simp only [step] at h
  split at h
  · rename_i seq call howner
    have hboot : s.owner ≠ .booting := by simp [howner]
    have ho := hinv.owner
    simp only [OwnerInv, howner] at ho
    obtain ⟨hlast, hexecuted⟩ := ho
    have hserving : s.owner.serving = some (seq, call) := by simp [OwnerPhase.serving, howner]
    have hquiet := not_quiet hserving
    cases h
    refine ⟨hinv.body, hinv.published, fun _ => hinv.cleared hboot, fun _ => hinv.repeated hboot,
      hinv.servedCalls, hinv.servedOnce, hinv.executedServed, hinv.executedOnce, hinv.executedBody,
      hinv.returned, ?_, trivial⟩
    have hc := hinv.client
    refine clientInv_owner hc rfl rfl rfl (fun call hun => hun) ?_ ?_
    · intro waited seq' hclient
      simp only [ClientInv, hclient] at hc ⊢
      obtain ⟨hseq, hposted, hmine, -⟩ := hc
      refine ⟨hseq, hposted, by simp [OwnerPhase.serving], fun heq => ?_⟩
      -- the seq is the one the client waits for, so the reply is to its call
      have hmatch : call = some waited := hmine call (by rw [hserving, heq])
      refine ⟨?_, hmatch ▸ hexecuted⟩
      rcases hposted with hz | ⟨hreq, -⟩
      · exact Or.inl hz
      · exact Or.inr (hreq.trans (heq.symm.trans hlast))
    · intro waited seq' hclient
      simp only [ClientInv, hclient] at hc
      exact absurd hc.1 hquiet
  · cases h

theorem inv_restartOwner (h : step svc .restartOwner s = some s') : Inv s' := by
  simp only [step] at h
  cases h
  refine ⟨hinv.body, hinv.published, fun hne => absurd rfl hne, fun hne => absurd rfl hne,
    hinv.servedCalls, hinv.servedOnce, hinv.executedServed, hinv.executedOnce, hinv.executedBody,
    hinv.returned, ?_, trivial⟩
  have hc := hinv.client
  refine clientInv_owner hc rfl rfl rfl (fun call hun => hun) ?_ ?_
  · intro call seq hclient
    simp only [ClientInv, hclient] at hc ⊢
    obtain ⟨hseq, hposted, -, hanswer⟩ := hc
    exact ⟨hseq, hposted, by simp [OwnerPhase.serving], fun heq => ⟨trivial, (hanswer heq).2⟩⟩
  · intro call seq hclient
    simp only [ClientInv, hclient] at hc ⊢
    exact ⟨trivial, hc.2⟩

end Owner

theorem inv_step (a : Action) (horderly : Orderly a s) (h : step svc a s = some s') (hinv : Inv s) :
    Inv s' := by
  cases a with
  | begin op arg entry => exact inv_begin hinv h
  | writeBody => exact inv_writeBody hinv horderly h
  | writeSeq => exact inv_writeSeq hinv horderly h
  | matchReply => exact inv_matchReply hinv h
  | readReply => exact inv_readReply hinv h
  | timeout =>
      simp only [step] at h
      split at h
      · cases h
        exact inv_idle hinv rfl rfl
      · cases h
  | restartClient =>
      cases h
      exact inv_idle hinv rfl rfl
  | clearReq openOk => exact inv_clearReq hinv h
  | clearRsp => exact inv_clearRsp hinv h
  | pickUp => exact inv_pickUp hinv horderly h
  | execute openOk => exact inv_execute hinv h
  | writeReply => exact inv_writeReply hinv h
  | writeReplySeq => exact inv_writeReplySeq hinv h
  | restartOwner => exact inv_restartOwner hinv h

theorem agreement_of_inv (hinv : Inv s) : Agreement s := by
  refine ⟨?_, hinv.executedOnce, hinv.executedBody⟩
  intro call reply hmem
  obtain ⟨e, he, hcall, hreply⟩ := hinv.returned call reply hmem
  obtain ⟨other, hother, hbody⟩ := hinv.executedBody e he
  have heq : other = call := Option.some.inj (hother.symm.trans hcall)
  exact ⟨e, he, hcall, heq ▸ hbody, hreply⟩

-- Client and owner agree in every state of every orderly run, whatever the interleaving,
-- the timeouts and the restarts.
theorem mailbox_agreement (hinit : Initial s) (hrun : Run (step svc) Orderly s s') :
    Agreement s' :=
  agreement_of_inv (run_invariant (fun a _ _ horderly h hinv => inv_step a horderly h hinv) hrun
    (inv_of_initial hinit))

-- A log that counts its appends.
def countingLog : LogService Nat where
  append := fun n _ => (.ok (), n + 1)
  verify := fun n => (.ok ⟨.verifyOk, 0⟩, n)
  count := fun n => (.ok n, n)
  get := fun n _ => (.error .notFound, n)

def zeroRequest : Request := { magic := 0, version := 0, op := 0, arg := 0, entry := zeroEntry }

def zeroReply : Reply :=
  { magic := 0, version := 0, status := .ok (), value := 0, badSeq := 0, verdict := .verifyOk
    entry := zeroEntry }

-- Both cores after power-on, with a mailbox of zeros.
def powerOn : State Nat :=
  { reqSeq := 0, reqBody := zeroRequest, rspSeq := 0, rspBody := zeroReply
    client := .idle, ready := false, clientSeq := 0
    owner := .booting, lastSeq := 0, opened := false, store := 0
    asked := [], reqSeqOf := none, reqBodyOf := none, served := [], executions := [], returns := [] }

theorem powerOn_initial : Initial powerOn := ⟨rfl, rfl, rfl, rfl, rfl, rfl, rfl, rfl, rfl⟩

-- Call 0 is given up before the owner comes to it, which then serves it to nobody. The core of
-- the client restarts while call 1 waits. The owner restarts before it picks up call 2, which
-- it clears, and that call is given up as well; call 3 gets its reply.
def interrupted : List Action :=
  [.clearReq true, .clearRsp, .begin AEN_ULOG_OP_APPEND 0 zeroEntry, .writeBody, .writeSeq, .timeout,
    .pickUp, .execute true, .writeReply, .writeReplySeq, .begin AEN_ULOG_OP_COUNT 0 zeroEntry,
    .writeBody, .writeSeq, .pickUp, .execute true, .writeReply, .writeReplySeq, .restartClient,
    .begin AEN_ULOG_OP_VERIFY 0 zeroEntry, .writeBody, .writeSeq, .restartOwner, .clearReq true,
    .timeout, .clearRsp, .begin AEN_ULOG_OP_APPEND 0 zeroEntry, .writeBody, .writeSeq, .pickUp,
    .execute true, .writeReply, .writeReplySeq, .matchReply, .readReply]

theorem mailbox_agreement_interrupted :
    ∃ s, exec (step countingLog) interrupted powerOn = some s ∧ s.returns.map Prod.fst = [3] ∧
      s.executions.map Execution.call = [some 3, some 1, some 0] ∧ Agreement s :=
  ⟨_, rfl, rfl, rfl, mailbox_agreement powerOn_initial
    (run_of_exec interrupted rfl (by decide +kernel))⟩

-- The owner has executed the append of call 0 but not replied when the client's core
-- restarts. The new client takes the same seq for its count, and returns the reply to the
-- append; the count is never executed.
def reusedSeq : List Action :=
  [.clearReq true, .clearRsp, .begin AEN_ULOG_OP_APPEND 0 zeroEntry, .writeBody, .writeSeq, .pickUp,
    .execute true, .restartClient, .begin AEN_ULOG_OP_COUNT 0 zeroEntry, .writeBody, .writeSeq,
    .writeReply, .writeReplySeq, .matchReply, .readReply]

theorem mailbox_disagreement :
    ∃ s reply, Run (step countingLog) (fun _ _ => True) powerOn s ∧ (1, reply) ∈ s.returns ∧
      ∀ e ∈ s.executions, e.call ≠ some 1 := by
  refine ⟨_, _, run_of_exec reusedSeq rfl (along_true _ _), List.mem_cons_self, ?_⟩
  decide

-- No core restarts: the client gives its append up before the owner comes to it, and writes
-- the body of its count. The owner finds the seq of the one with the body of the other.
def latePickUp : List Action :=
  [.clearReq true, .clearRsp, .begin AEN_ULOG_OP_APPEND 0 zeroEntry, .writeBody, .writeSeq, .timeout,
    .begin AEN_ULOG_OP_COUNT 0 zeroEntry, .writeBody, .pickUp, .execute true]

theorem late_pickUp_disagreement :
    ∃ s e, Run (step countingLog) (fun _ _ => True) powerOn s ∧ e ∈ s.executions ∧
      e.call = some 0 ∧ (s.asked[0]?.map Request.op, e.body.op) =
        (some AEN_ULOG_OP_APPEND, AEN_ULOG_OP_COUNT) :=
  ⟨_, _, run_of_exec latePickUp rfl (along_true _ _), List.mem_cons_self, rfl, rfl⟩

end AlpSdk.UpdateLog.Mailbox
