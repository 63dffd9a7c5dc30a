import AlpSdk.Library.Transition
import AlpSdk.UpdateLog.Engine

namespace AlpSdk.UpdateLog.Mailbox

def AEN_ULOG_MAGIC : Nat := 0x554C4F47
def AEN_ULOG_VERSION : Nat := 1
def AEN_ULOG_OP_READY : Nat := 1
def AEN_ULOG_OP_APPEND : Nat := 2
def AEN_ULOG_OP_VERIFY : Nat := 3
def AEN_ULOG_OP_COUNT : Nat := 4
def AEN_ULOG_OP_GET : Nat := 5

-- `struct aen_ulog_req` and `struct aen_ulog_rsp` without their seq words, which are
-- published on their own.
structure Request where
  magic : Nat
  version : Nat
  op : Nat
  arg : Nat
  entry : Entry
  deriving DecidableEq

structure Reply where
  magic : Nat
  version : Nat
  status : Status
  value : Nat
  badSeq : Nat
  verdict : Verdict
  entry : Entry
  deriving DecidableEq

-- The update log the owner has open, over the state of its store.
structure LogService (σ : Type) where
  append : σ → Entry → Status × σ
  verify : σ → Except AlpError Report × σ
  count : σ → Except AlpError Nat × σ
  get : σ → Nat → Except AlpError Entry × σ

def zeroEntry : Entry :=
  { seq := 0, fwVersion := fun _ => 0, imageHash := fun _ => 0, status := 0, timestamp := 0 }

def ownerReply (status : Status) (value : Nat) (verdict : Verdict) (badSeq : Nat) (entry : Entry) :
    Reply :=
  { magic := AEN_ULOG_MAGIC, version := AEN_ULOG_VERSION, status, value, badSeq, verdict, entry }

-- What the owner does with the request in the slot. `opened` is whether it has a log.
def ownerServe {σ : Type} (svc : LogService σ) (opened : Bool) (req : Request) (store : σ) :
    Reply × σ :=
  if req.magic ≠ AEN_ULOG_MAGIC ∨ req.version ≠ AEN_ULOG_VERSION then
    (ownerReply (.error .version) 0 .chainBroken 0 zeroEntry, store)
  else if opened = false then (ownerReply (.error .notReady) 0 .verifyOk 0 zeroEntry, store)
  else if req.op = AEN_ULOG_OP_READY then (ownerReply (.ok ()) 0 .verifyOk 0 zeroEntry, store)
  else if req.op = AEN_ULOG_OP_APPEND then
    let out := svc.append store req.entry
    (ownerReply out.1 0 .verifyOk 0 zeroEntry, out.2)
  else if req.op = AEN_ULOG_OP_VERIFY then
    match svc.verify store with
    | (.ok report, store') => (ownerReply (.ok ()) 0 report.verdict report.badSeq zeroEntry, store')
    | (.error rc, store') => (ownerReply (.error rc) 0 .verifyOk 0 zeroEntry, store')
  else if req.op = AEN_ULOG_OP_COUNT then
    match svc.count store with
    | (.ok value, store') => (ownerReply (.ok ()) value .verifyOk 0 zeroEntry, store')
    | (.error rc, store') => (ownerReply (.error rc) 0 .verifyOk 0 zeroEntry, store')
  else if req.op = AEN_ULOG_OP_GET then
    match svc.get store req.arg with
    | (.ok entry, store') => (ownerReply (.ok ()) 0 .verifyOk 0 entry, store')
    | (.error rc, store') => (ownerReply (.error rc) 0 .verifyOk 0 zeroEntry, store')
  else (ownerReply (.error .inval) 0 .verifyOk 0 zeroEntry, store)

-- Where `client_call` stands. A call is numbered by its place among all calls.
inductive ClientPhase where
  | idle
  | writing (call seq : Nat) (body : Request)
  | publishing (call seq : Nat)
  | waiting (call seq : Nat)
  | reading (call seq : Nat)

-- Where the owner's loop stands. `call` is the call that published the seq it picked up, or
-- none for a seq that was in the retained mailbox before the first call.
inductive OwnerPhase where
  | booting
  | clearing
  | polling
  | picked (seq : Nat) (call : Option Nat)
  | executed (seq : Nat) (call : Option Nat) (reply : Reply)
  | replying (seq : Nat) (call : Option Nat)

structure Execution where
  call : Option Nat
  body : Request
  reply : Reply

structure State (σ : Type) where
  -- the retained mailbox
  reqSeq : Nat
  reqBody : Request
  rspSeq : Nat
  rspBody : Reply
  -- the client's core: its phase, `g_client_mhu_ready` and `g_client_seq`
  client : ClientPhase
  ready : Bool
  clientSeq : Nat
  -- the owner's core: its phase, `last_seq` and whether `log` is not NULL
  owner : OwnerPhase
  lastSeq : Nat
  opened : Bool
  store : σ
  -- history: the body of each call, which call wrote the two parts of the request slot, the
  -- calls picked up, the executions and the replies returned
  asked : List Request
  reqSeqOf : Option Nat
  reqBodyOf : Option Nat
  served : List (Option Nat)
  executions : List Execution
  returns : List (Nat × Reply)

inductive Action where
  | begin (op arg : Nat) (entry : Entry)
  | writeBody
  | writeSeq
  | matchReply
  | readReply
  | timeout
  | restartClient
  | clearReq (openOk : Bool)
  | clearRsp
  | pickUp
  | execute (openOk : Bool)
  | writeReply
  | writeReplySeq
  | restartOwner

-- `++g_client_seq`, which skips 0.
def nextSeq (seq : Nat) : Nat := if (seq + 1) % 2 ^ 32 = 0 then 1 else (seq + 1) % 2 ^ 32

section Step

variable {σ : Type} (svc : LogService σ)

def step : Action → State σ → Option (State σ)
  | .begin op arg entry, s =>
      match s.client with
      | .idle =>
          let seq := nextSeq (if s.ready then s.clientSeq else s.rspSeq)
          let body := { magic := AEN_ULOG_MAGIC, version := AEN_ULOG_VERSION, op, arg, entry }
          some { s with client := .writing s.asked.length seq body, ready := true, clientSeq := seq
                        asked := s.asked ++ [body] }
      | _ => none
  | .writeBody, s =>
      match s.client with
      | .writing call seq body =>
          some { s with client := .publishing call seq, reqBody := body, reqBodyOf := some call }
      | _ => none
  | .writeSeq, s =>
      match s.client with
      | .publishing call seq =>
          some { s with client := .waiting call seq, reqSeq := seq, reqSeqOf := some call }
      | _ => none
  | .matchReply, s =>
      match s.client with
      | .waiting call seq => if s.rspSeq = seq then some { s with client := .reading call seq } else none
      | _ => none
  | .readReply, s =>
      match s.client with
      | .reading call _ =>
          if s.rspBody.magic ≠ AEN_ULOG_MAGIC ∨ s.rspBody.version ≠ AEN_ULOG_VERSION then
            some { s with client := .idle }
          else some { s with client := .idle, returns := (call, s.rspBody) :: s.returns }
      | _ => none
  | .timeout, s =>
      match s.client with
      | .waiting _ _ => some { s with client := .idle }
      | _ => none
  | .restartClient, s => some { s with client := .idle, ready := false, clientSeq := 0 }
  | .clearReq openOk, s =>
      match s.owner with
      | .booting =>
          some { s with owner := .clearing, lastSeq := 0, opened := openOk, reqSeq := 0, reqSeqOf := none }
      | _ => none
  | .clearRsp, s =>
      match s.owner with
      | .clearing => some { s with owner := .polling, rspSeq := 0 }
      | _ => none
  | .pickUp, s =>
      match s.owner with
      | .polling =>
          if s.reqSeq = 0 ∨ s.reqSeq = s.lastSeq then none
          else some { s with owner := .picked s.reqSeq s.reqSeqOf, lastSeq := s.reqSeq
                             served := s.reqSeqOf :: s.served }
      | _ => none
  | .execute openOk, s =>
      match s.owner with
      | .picked seq call =>
          let opened := s.opened || openOk
          let out := ownerServe svc opened s.reqBody s.store
          some { s with owner := .executed seq call out.1, opened := opened, store := out.2
                        executions := ⟨call, s.reqBody, out.1⟩ :: s.executions }
      | _ => none
  | .writeReply, s =>
      match s.owner with
      | .executed seq call reply => some { s with owner := .replying seq call, rspBody := reply }
      | _ => none
  | .writeReplySeq, s =>
      match s.owner with
      | .replying seq _ => some { s with owner := .polling, rspSeq := seq }
      | _ => none
  | .restartOwner, s => some { s with owner := .booting, lastSeq := 0, opened := false }

end Step

variable {σ : Type}

-- Both cores start with any retained mailbox contents.
structure Initial (s : State σ) : Prop where
  client : s.client = .idle
  ready : s.ready = false
  owner : s.owner = .booting
  asked : s.asked = []
  reqSeqOf : s.reqSeqOf = none
  reqBodyOf : s.reqBodyOf = none
  served : s.served = []
  executions : s.executions = []
  returns : s.returns = []

-- Every reply that a call returned is the owner's answer to that call with that call's
-- body, no call is executed twice, and none with the body of another one.
structure Agreement (s : State σ) : Prop where
  returned : ∀ call reply, (call, reply) ∈ s.returns →
    ∃ e ∈ s.executions, e.call = some call ∧ s.asked[call]? = some e.body ∧ e.reply = reply
  once : (s.executions.map Execution.call).Nodup
  bodies : ∀ e ∈ s.executions, ∃ call, e.call = some call ∧ s.asked[call]? = some e.body

-- The client writes a body only while the owner is not between picking a request up and
-- executing it; a seq it publishes is neither the seq of the reply slot nor the owner's
-- `last_seq`; and the owner picks up a seq only when the body is of the same call.
def Orderly : Action → State σ → Prop
  | .writeBody, s => ∀ seq call, s.owner ≠ .picked seq call
  | .writeSeq, s => ∀ call seq, s.client = .publishing call seq → seq ≠ s.rspSeq ∧ seq ≠ s.lastSeq
  | .pickUp, s => s.reqBodyOf = s.reqSeqOf
  | _, _ => True

instance decidableOrderly (a : Action) (s : State σ) : Decidable (Orderly a s) :=
  match a with
  | .writeBody =>
      match h : s.owner with
      | .picked seq call => .isFalse fun hfree => hfree seq call h
      | .booting | .clearing | .polling | .executed .. | .replying .. =>
          .isTrue fun seq call => by simp [h]
  | .writeSeq =>
      match h : s.client with
      | .publishing call seq =>
          decidable_of_iff (seq ≠ s.rspSeq ∧ seq ≠ s.lastSeq) (by simp [Orderly, h])
      | .idle | .writing .. | .waiting .. | .reading .. => .isTrue fun call seq => by simp [h]
  | .pickUp => inferInstanceAs (Decidable (s.reqBodyOf = s.reqSeqOf))
  | .begin .. | .matchReply | .readReply | .timeout | .restartClient | .clearReq _ | .clearRsp
  | .execute _ | .writeReply | .writeReplySeq | .restartOwner => .isTrue trivial

end AlpSdk.UpdateLog.Mailbox
