import AlpSdk.Library.Bytes
import AlpSdk.Library.Threads
import AlpSdk.Rpc.Wire

namespace AlpSdk.Rpc.Call

open Library.Transition Library.Threads Library.Bytes

abbrev UINT32_MAX : Nat := 2 ^ 32 - 1

-- The arguments of `z_call`. `resp` is the address of the response buffer and `respLen` what
-- `*resp_len` holds, each none for a NULL pointer.
structure Args where
  method : Option CString
  req : List UInt8
  resp : Option Nat
  respLen : Option Nat
  timeoutMs : Nat

-- The method past `method_valid`, where the pointer is not NULL.
def Args.name (args : Args) : CString := args.method.getD .empty

def Args.valid (args : Args) : Bool :=
  methodValid args.method ∧ ¬(args.resp.isSome ∧ args.respLen.isNone)

-- A request frame that the peer has received and not answered.
structure Request where
  id : Nat
  frame : List UInt8
  deriving DecidableEq

-- A frame on its way from the peer, with the request it answers, if any.
structure Frame where
  answers : Option Nat
  data : List UInt8
  deriving DecidableEq

-- What a call returned: the request it had sent, the reply in the slot, `*resp_len` and that
-- many bytes of the response buffer.
structure Return where
  args : Args
  request : Option Nat
  reply : Option Nat
  status : Status
  respLen : Option Nat
  data : Option (List UInt8)

-- `struct rpc_be` and the memory of its callers, the link to the peer, and a record of what
-- the peer answered and the calls returned.
structure Channel (T : Type) where
  inUse : Bool
  closing : Bool
  txMutex : Option T
  callSem : Nat
  callMethod : CString
  callRespBuf : Option Nat
  callRespCap : Nat
  callRespLen : Nat
  callResult : Status
  callPending : Bool
  callPoisoned : Bool
  ram : Nat → UInt8
  requests : List Request
  replies : List Frame
  sent : Nat
  callReply : Option Nat
  answers : List (Nat × List UInt8)
  returns : List Return

variable {T : Type}

-- `k_sem_give` on `call_sem`, whose limit is 1.
def semGive (count : Nat) : Nat := min (count + 1) 1

-- The check-then-stage section of `z_call` once it may stage.
def Channel.stage (be : Channel T) (args : Args) : Channel T :=
  { be with
    callMethod := args.name.take (ALP_RPC_METHOD_MAX_LEN - 1)
    callRespBuf := args.resp
    callRespCap := if args.resp.isSome then args.respLen.getD 0 else 0
    callRespLen := 0
    callResult := .error .timeout
    callPending := true
    callSem := 0
    callReply := none }

-- The reply of a call that `rpc_ept_recv` found pending.
def Channel.fill (be : Channel T) (payload : List UInt8) : Channel T :=
  match be.callRespBuf with
  | some buf =>
      if be.callRespCap < payload.length then
        { be with callResult := .error .nomem, callRespLen := 0 }
      else
        { be with
          ram := store buf payload be.ram
          callRespLen := payload.length
          callResult := .ok () }
  | none => { be with callRespLen := payload.length, callResult := .ok () }

-- The synchronous-call section of `rpc_ept_recv`. A frame it leaves goes to the subscribers.
def Channel.route (be : Channel T) (frame : Frame) : Channel T :=
  match frameParse frame.data with
  | none => be
  | some (method, payload) =>
      if be.callPending ∧ strnEq ALP_RPC_METHOD_MAX_LEN method be.callMethod then
        { be.fill payload with
          callPending := false
          callSem := semGive be.callSem
          callReply := frame.answers }
      else be

-- The section of `z_shutdown`.
def Channel.shutdown (be : Channel T) : Channel T :=
  if be.callPending then
    { be with closing := true, callResult := .error .notReady, callPending := false }
  else { be with closing := true }

-- `*resp_len` after a call has read the slot.
def Channel.readLen (be : Channel T) (args : Args) : Option Nat :=
  match be.callResult with
  | .ok () => args.respLen.map fun _ => be.callRespLen
  | .error _ => args.respLen

def Channel.returning (be : Channel T) (args : Args) (request : Option Nat) (status : Status)
    (respLen : Option Nat) : Channel T :=
  let data := match args.resp, respLen with
    | some buf, some len => some (load buf len be.ram)
    | _, _ => none
  { be with returns := be.returns ++ [⟨args, request, be.callReply, status, respLen, data⟩] }

-- The threads of the application, the one worker of ipc_service, the elected closer, and the
-- other end of the channel.
inductive Actor (T : Type) where
  | caller (t : T)
  | worker
  | closer
  | peer
  deriving DecidableEq

-- Where an actor stands between two sections.
inductive Phase where
  | idle
  -- `z_call`: waiting for `tx_mutex`, holding it, with the call staged, with a send that
  -- failed, in `k_sem_take` for the request `id`, after its timeout or its success, done
  | locking (args : Args)
  | locked (args : Args)
  | staged (args : Args)
  | failed (args : Args) (rc : AlpError)
  | waiting (args : Args) (id : Nat)
  | expired (args : Args) (id : Nat)
  | taken (args : Args) (id : Nat)
  | unlocking (args : Args) (request : Option Nat) (status : Status) (respLen : Option Nat)
  -- `rpc_ept_recv` past its `rpc_recv_enter`
  | routing (frame : Frame)
  -- `z_shutdown` before its `k_sem_give`, and after it
  | giving
  | closed

inductive Action where
  | call (args : Args)
  | lock
  | stage
  | send (rc : Except Errno Unit)
  | cancel
  | take
  | expire
  | settle
  | collect
  | unlock
  | deliver (frame : Frame)
  | route
  | shutdown
  | give
  | answer (req : Request) (data : List UInt8)
  | notify (data : List UInt8)

-- The sections of `z_call`, `rpc_ept_recv` and `z_shutdown`. The peer answers each request it
-- receives once, with a frame of the same method, and sends no other frame of a method in
-- `called`, which are the methods of the calls.
def prog (called : CString → Bool) :
    Actor T → Action → Channel T → Phase → Option (Channel T × Phase)
  | .caller _, .call args, be, .idle =>
      if called args.name then
        if args.valid then
          if be.inUse then some (be, .locking args)
          else some (be.returning args none (.error .notReady) args.respLen, .idle)
        else some (be.returning args none (.error .inval) args.respLen, .idle)
      else none
  | .caller t, .lock, be, .locking args =>
      match be.txMutex with
      | none => some ({ be with txMutex := some t }, .locked args)
      | some _ => none
  | .caller _, .stage, be, .locked args =>
      if be.closing ∨ be.callPoisoned then
        some (be, .unlocking args none (.error .notReady) args.respLen)
      else some (be.stage args, .staged args)
  | .caller _, .send rc, be, .staged args =>
      match frameBuild CONFIG_ALP_SDK_RPC_TX_FRAME_MAX args.name args.req, rc with
      | .error err, _ => some (be, .failed args (errnoToAlp err))
      | .ok _, .error err => some (be, .failed args (errnoToAlp err))
      | .ok frame, .ok () =>
          some ({ be with requests := be.requests ++ [⟨be.sent, frame⟩], sent := be.sent + 1 },
            .waiting args be.sent)
  | .caller _, .cancel, be, .failed args rc =>
      some ({ be with callPending := false }, .unlocking args none (.error rc) args.respLen)
  | .caller _, .take, be, .waiting args id =>
      if 0 < be.callSem then some ({ be with callSem := be.callSem - 1 }, .taken args id) else none
  | .caller _, .expire, be, .waiting args id =>
      if be.callSem = 0 ∧ args.timeoutMs ≠ UINT32_MAX then some (be, .expired args id) else none
  | .caller _, .settle, be, .expired args id =>
      if be.callPending then
        some ({ be with callPending := false, callPoisoned := true },
          .unlocking args (some id) (.error .timeout) args.respLen)
      else some (be, .unlocking args (some id) be.callResult (be.readLen args))
  | .caller _, .collect, be, .taken args id =>
      some (be, .unlocking args (some id) be.callResult (be.readLen args))
  | .caller _, .unlock, be, .unlocking args request status respLen =>
      some ({ be.returning args request status respLen with txMutex := none }, .idle)
  | .worker, .deliver frame, be, .idle =>
      if frame ∈ be.replies then
        let rest := { be with replies := be.replies.erase frame }
        if be.inUse ∧ ¬be.closing then some (rest, .routing frame) else some (rest, .idle)
      else none
  | .worker, .route, be, .routing frame => some (be.route frame, .idle)
  | .closer, .shutdown, be, .idle => some (be.shutdown, .giving)
  | .closer, .give, be, .giving => some ({ be with callSem := semGive be.callSem }, .closed)
  | .peer, .answer req data, be, .idle =>
      match frameParse req.frame, frameParse data with
      | some (method, _), some (method', payload) =>
          if req ∈ be.requests ∧ method = method' then
            some ({ be with
              requests := be.requests.erase req
              replies := be.replies ++ [⟨some req.id, data⟩]
              answers := be.answers ++ [(req.id, payload)] }, .idle)
          else none
      | _, _ => none
  | .peer, .notify data, be, .idle =>
      if ∀ method ∈ (frameParse data).map Prod.fst, called method = false then
        some ({ be with replies := be.replies ++ [⟨none, data⟩] }, .idle)
      else none
  | _, _, _, _ => none

abbrev State (T : Type) : Type := World (Actor T) (Channel T) Phase

variable [DecidableEq T]

def callStep (called : CString → Bool) : Actor T × Action → State T → Option (State T) :=
  step (prog called)

-- A channel that `z_open` has just returned, and no call on it yet.
structure Initial (w : State T) : Prop where
  inUse : w.mem.inUse = true
  closing : w.mem.closing = false
  txMutex : w.mem.txMutex = none
  callSem : w.mem.callSem = 0
  callPending : w.mem.callPending = false
  callPoisoned : w.mem.callPoisoned = false
  requests : w.mem.requests = []
  replies : w.mem.replies = []
  sent : w.mem.sent = 0
  answers : w.mem.answers = []
  returns : w.mem.returns = []
  idle : ∀ a, w.phase a = .idle

-- The call returned the payload of the reply to its own request.
structure Own (answers : List (Nat × List UInt8)) (r : Return) (id : Nat) (payload : List UInt8) :
    Prop where
  request : r.request = some id
  reply : r.reply = some id
  answered : (id, payload) ∈ answers
  length : ∀ len, r.respLen = some len → len = payload.length
  data : ∀ buf, r.args.resp = some buf → r.data = some payload

-- The calls that returned `ALP_OK` returned their own replies, and no reply twice.
structure Agreement (be : Channel T) : Prop where
  own : ∀ r ∈ be.returns, r.status = .ok () → ∃ id payload, Own be.answers r id payload
  once : be.returns.Pairwise fun r r' =>
    r.status = .ok () → r'.status = .ok () → r.reply ≠ r'.reply

-- The call gave up waiting for the reply to a request that went out.
def Return.TimedOut (r : Return) : Prop := r.request ≠ none ∧ r.status = .error .timeout

-- After a call that gave up waiting, every call with valid arguments is refused.
def Poisoned (be : Channel T) : Prop :=
  be.returns.Pairwise fun r r' => r.TimedOut → r'.args.valid → r'.status = .error .notReady

-- After any `ALP_ERR_TIMEOUT`, every call is refused.
def RefusesAll (be : Channel T) : Prop :=
  be.returns.Pairwise fun r r' => r.status = .error .timeout → r'.status = .error .notReady

end AlpSdk.Rpc.Call
