import AlpSdk.Cc3501e
import AlpSdk.Library.Bytes

-- The sockets of the bridge (chips/cc3501e/cc3501e_sockets.c).
namespace AlpSdk.Cc3501e

open Library.Effect Library.Bytes

def SOCK_SEND_HDR : Nat := 8
def SOCK_RECV_RESP_HDR : Nat := 24
def SOCK_SEND_BACKOFF_MS : Nat := 20
def SOCK_SEND_COLLECT_GRACE_MS : UInt32 := 250
def SOCK_FAMILY_IPV4 : UInt8 := 0

def getLe16 (off : Nat) (buf : List UInt8) : Nat := getLE (slice off 2 buf)

def handleEncode (epoch : UInt8) (fwHandle : Nat) : Except AlpError UInt16 :=
  if 0xFF < fwHandle then .error .io
  else .ok ((epoch.toUInt16 <<< 8) ||| UInt16.ofNat fwHandle)

def handleWire (handle : UInt16) : UInt16 := handle &&& 0xFF

def handleEpochOk (handle : UInt16) : Driver Bool := do
  let epoch ← get .linkEpoch
  pure (handleEpoch handle = epoch)

-- The two bytes that carry the firmware handle of every socket frame but SOCK_OPEN.
def handleBytes (handle : UInt16) : List UInt8 := putLE 2 (handleWire handle).toNat

-- A call on a socket handle, which is refused before anything is sent if it is stale.
def socketCall {α : Type} (handle : UInt16) (status : α → Status) (refused : α) (body : Driver α) :
    Driver α := do
  note (.enterSocket handle)
  let out ← if ← handleEpochOk handle then body else pure refused
  note (.leaveSocket (status out))
  pure out

variable (cfg : Config)

def sockOpen (family type protocol : UInt8) (timeoutMs : UInt32) : Driver (Except AlpError UInt16) := do
  let epochAtRequest ← get .linkEpoch
  match ← pollByRepeat cfg .sockOpen [family, type, protocol, 0] 4 timeoutMs with
  | (.error err, _) => pure (.error err)
  | (.ok (), reply) =>
      if reply.length < 2 then pure (.error .io)
      else
        match handleEncode epochAtRequest (getLe16 0 reply) with
        | .error err => pure (.error err)
        | .ok handle =>
            note (.opened handle)
            pure (.ok handle)

-- SOCK_CONNECT and SOCK_BIND: the handle and an IPv4 endpoint.
def endpointPayload (handle : UInt16) (ip : List UInt8) (port : UInt16) : List UInt8 :=
  handleBytes handle ++ [0, 0, SOCK_FAMILY_IPV4, 0] ++ putLE 2 port.toNat ++ ip ++
    List.replicate (16 - ip.length) 0

def handleOp (handle : UInt16) (cmd : Opcode) (payload : List UInt8) (timeoutMs : UInt32) :
    Driver Status :=
  socketCall handle id (.error .notReady) do
    let (s, _) ← pollByRepeatHandle cfg cmd payload 0 timeoutMs handle
    pure s

def sockConnect (handle : UInt16) (ip : List UInt8) (port : UInt16) (timeoutMs : UInt32) :
    Driver Status :=
  handleOp cfg handle .sockConnect (endpointPayload handle ip port) timeoutMs

-- `ip` is four zero bytes for a NULL pointer.
def sockBind (handle : UInt16) (ip : List UInt8) (port : UInt16) (timeoutMs : UInt32) :
    Driver Status :=
  handleOp cfg handle .sockBind (endpointPayload handle ip port) timeoutMs

def sockListen (handle : UInt16) (backlog : UInt8) (timeoutMs : UInt32) : Driver Status :=
  handleOp cfg handle .sockListen (handleBytes handle ++ [backlog, 0]) timeoutMs

def sockClose (handle : UInt16) (timeoutMs : UInt32) : Driver Status :=
  handleOp cfg handle .sockClose (handleBytes handle ++ [0, 0]) timeoutMs

-- A read of what stands in `sock_buf`.
def staged (len : Nat) : Driver (List UInt8) := do
  let buf ← get .sockBuf
  pure (buf.take len)

-- `poll_by_repeat_handle` for a frame that stands in `sock_buf`, where every attempt reads it again.
def pollByRepeatStaged (cmd : Opcode) (len rxCap : Nat) (timeoutMs : UInt32) (handle : UInt16) :
    Driver (Status × List UInt8) := do
  let seq ← nextReqSeq
  pollAttempts cfg len (exchange cmd seq len (staged len) rxCap) timeoutMs (some handle)

-- An exchange whose reply is copied into `sock_buf`.
def requestInto (frame : Frame) (rxCap : Nat) : Driver Answer := do
  let answer ← requestLocked frame rxCap
  if !answer.data.isEmpty then stage 0 answer.data
  pure answer

-- The SOCK_SEND frame of one iteration, up to its seq and from there on.
def sendHead (handle : UInt16) : List UInt8 := handleBytes handle ++ [0]

def sendBody (seq : UInt8) (data : List UInt8) : List UInt8 := seq :: putLE 2 data.length ++ [0, 0] ++ data

-- What is left of a deadline.
def leftOf (deadlineMs : UInt64) : Driver UInt64 := do
  let now ← uptime
  pure (if deadlineMs ≤ now then 0 else deadlineMs - now)

-- The collection of a frame whose own budget has run out, and the end of the call.
def sendGrace (handle : UInt16) (remaining total : Nat) : Driver (Status × Nat) := do
  match ← pollByRepeatStaged cfg .sockSend (SOCK_SEND_HDR + remaining) 2 SOCK_SEND_COLLECT_GRACE_MS handle with
  | (.ok (), reply) =>
      if reply.length < 2 then pure (.error .io, total)
      else
        let queued := min (getLe16 0 reply) remaining
        pure (if queued = remaining then .ok () else .error .timeout, total + queued)
  | (.error err, _) =>
      if err ≠ .timeout ∧ err ≠ .busy then pure (.error err, total)
      else pure (.error .timeout, total)

-- One iteration after another over what is left of the data, each a new frame with a seq of
-- its own.
def sendLoop (handle : UInt16) (deadlineMs : UInt64) :
    (fuel : Nat) → (remaining : List UInt8) → (total : Nat) → (first : Bool) → Driver (Status × Nat)
  | 0, _, _, _ => stall
  | fuel + 1, remaining, total, first => do
      let goOn ← if first then pure true else do
        let left ← leftOf deadlineMs
        pure (SOCK_SEND_BACKOFF_MS ≤ left.toNat)
      if goOn then
        stage 0 (sendHead handle)
        let seq ← get .sockSendSeq
        set .sockSendSeq (seq + 1)
        stage 3 (sendBody (seq + 1) remaining)
        let budget ← leftOf deadlineMs
        let len := SOCK_SEND_HDR + remaining.length
        match ← pollByRepeatStaged cfg .sockSend len 2 budget.toUInt32 handle with
        | (.error .timeout, _) => sendGrace cfg handle remaining.length total
        | (.error err, _) => pure (.error err, total)
        | (.ok (), reply) =>
            if reply.length < 2 then pure (.error .io, total)
            else
              let queued := min (getLe16 0 reply) remaining.length
              if queued = remaining.length then pure (.ok (), total + queued)
              else if queued = 0 then
                let left ← leftOf deadlineMs
                if left.toNat ≤ SOCK_SEND_BACKOFF_MS then pure (.error .timeout, total)
                else
                  delay SOCK_SEND_BACKOFF_MS
                  sendLoop handle deadlineMs fuel remaining total false
              else sendLoop handle deadlineMs fuel (remaining.drop queued) (total + queued) false
      else pure (.error .timeout, total)

-- The status, and `*sent_out` where it is written.
def sockSend (handle : UInt16) (data : List UInt8) (timeoutMs : UInt32) :
    Driver (Status × Option Nat) :=
  socketCall handle Prod.fst (.error .notReady, none) do
    if MAX_PAYLOAD - SOCK_SEND_HDR - CRC_BYTES < data.length then pure (.error .inval, none)
    else if ← get .sockBusy then pure (.error .busy, some 0)
    else
      set .sockBusy true
      let now ← uptime
      let (s, total) ← sendLoop cfg handle (now + timeoutMs.toUInt64) cfg.fuel data 0 true
      set .sockBusy false
      pure (s, some total)

-- The status, and the received bytes where there are any.
def sockRecv (handle : UInt16) (cap : Nat) (timeoutMs : UInt32) : Driver (Status × List UInt8) :=
  socketCall handle Prod.fst (.error .notReady, []) do
    let want := min cap (MAX_PAYLOAD - SOCK_RECV_RESP_HDR - 1)
    if ← get .sockBusy then pure (.error .busy, [])
    else
      set .sockBusy true
      let seq ← get .sockRecvSeq
      let candidateSeq := if REQ_SEQ_LAST ≤ seq then 1 else seq + 1
      let frame : Frame := ⟨.sockRecv, handleBytes handle ++ putLE 2 want, candidateSeq⟩
      let attempt := requestInto frame MAX_PAYLOAD
      let (s, data) ← pollAttempts cfg frame.payload.length attempt timeoutMs (some handle)
      set .sockBusy false
      match s with
      | .error err => pure (.error err, [])
      | .ok () =>
          if data.length < SOCK_RECV_RESP_HDR then pure (.error .io, [])
          else
            let reply ← staged data.length
            let received := (slice SOCK_RECV_RESP_HDR (getLe16 20 reply) reply).take cap
            set .sockRecvSeq candidateSeq
            pure (.ok (), received)

end AlpSdk.Cc3501e
