import AlpSdk.Cc3501e.Sockets
import AlpSdk.Gd32.Link

-- The event drain (chips/cc3501e/cc3501e_events.c) over the verdict on a reply
-- (chips/cc3501e/cc3501e_core.c). Both bridges share the CRC.
namespace AlpSdk.Cc3501e

open Library.Bytes

def EVENT_SUBSCRIBERS : Nat := 4
def REPLY_PAD : Nat := 8
def CMD_GET_PENDING_EVENTS : UInt8 := 0x05
def RESP_OK : UInt8 := 0x5A
def RESP_OK_LEGACY : UInt8 := 0x00

def respToStatus (resp fwMajor : UInt8) : Status :=
  if resp = RESP_OK then .ok ()
  else if resp = RESP_OK_LEGACY ∧ fwMajor = PROTOCOL_MAJOR_LEGACY then .ok ()
  else
    match resp with
    | 0x01 => .error .inval
    | 0x02 => .error .busy
    | 0x03 => .error .timeout
    | 0x04 => .error .nomem
    | 0x05 => .error .notReady
    | 0x08 => .error .version
    | 0x09 => .error .busy
    | _ => .error .io

-- What the tables of `cc3501e_core.c` say of an opcode: whether its reply carries data, may be
-- all zero although it does, and is never a bare OK.
structure ReplyKind where
  carriesData : Bool
  mayBeAllZero : Bool
  neverBareOk : Bool

def pendingEventsReply : ReplyKind := ⟨false, false, false⟩

def replyCrcOk (hdr payload : List UInt8) : Bool :=
  let covered := payload.length - CRC_BYTES
  CRC_BYTES ≤ payload.length && Gd32.crc16 (hdr ++ payload.take covered) == getLe16 covered payload

def replyVerdict (kind : ReplyKind) (fwProtoMajor : UInt8) (hdr payload : List UInt8) : Status :=
  match payload with
  | [] => .error .io
  | resp :: _ =>
      let major4Shape :=
        if PROTOCOL_MAJOR ≤ fwProtoMajor then true
        else if fwProtoMajor = PROTOCOL_MAJOR_LEGACY then false
        else resp == RESP_OK
      let allZero := payload.all (· == 0)
      let deadPhase :=
        if kind.carriesData then allZero && !kind.mayBeAllZero else allZero && kind.neverBareOk
      if major4Shape && !replyCrcOk hdr payload then .error .io
      else if deadPhase then .error .io
      else respToStatus resp (if major4Shape then PROTOCOL_MAJOR else PROTOCOL_MAJOR_LEGACY)

-- The end of `cc3501e_request_locked`, from a reply header and the payload clocked after it:
-- the status, and what is left in the caller's buffer.
def receive (kind : ReplyKind) (cmd fwProtoMajor : UInt8) (rxCap : Nat) (hdr payload : List UInt8) :
    Status × List UInt8 :=
  let len := getLe16 2 hdr
  if hdr.getD 0 0 = cmd ∧ 1 ≤ len ∧ len ≤ MAX_PAYLOAD then
    (replyVerdict kind fwProtoMajor hdr payload, (payload.drop 1).take rxCap)
  else (.error .io, [])

-- `event_subs`: the callback and the user pointer of each slot.
abbrev Subs (U : Type) : Type := Fin EVENT_SUBSCRIBERS → Option U

-- One invocation of a callback.
structure Call (U : Type) where
  slot : Fin EVENT_SUBSCRIBERS
  sub : U
  opcode : UInt8
  payload : List UInt8

-- What a callback does to the registrations.
abbrev Reacts (U : Type) : Type := U → UInt8 → List UInt8 → Subs U → Subs U

structure EventCtx (U : Type) where
  initialised : Bool
  fwProtoMajor : UInt8
  evtBusy : Bool
  subs : Subs U

section Poll

variable {U : Type} (react : Reacts U)

-- The fan-out of one event over the slots, each read just before its callback runs.
def fanOut (opcode : UInt8) (payload : List UInt8) :
    List (Fin EVENT_SUBSCRIBERS) → Subs U → List (Call U) × Subs U
  | [], subs => ([], subs)
  | slot :: rest, subs =>
      match subs slot with
      | none => fanOut opcode payload rest subs
      | some sub =>
          let (calls, subs') := fanOut opcode payload rest (react sub opcode payload subs)
          (⟨slot, sub, opcode, payload⟩ :: calls, subs')

-- The walk over the received data.
def walk : List UInt8 → Subs U → List (Call U) × Subs U
  | opcode :: len :: rest, subs =>
      if opcode = 0 then ([], subs)
      else if rest.length < len.toNat then ([], subs)
      else
        let (calls, subs') := fanOut react opcode (rest.take len.toNat) (List.finRange EVENT_SUBSCRIBERS) subs
        let (more, subs'') := walk (rest.drop len.toNat) subs'
        (calls ++ more, subs'')
  | _, subs => ([], subs)
termination_by buf => buf.length
decreasing_by
  have hdrop : (rest.drop len.toNat).length ≤ rest.length := by
    rw [List.length_drop]
    exact Nat.sub_le _ _
  exact Nat.lt_succ_of_le (Nat.le_succ_of_le hdrop)

-- `cc3501e_poll_events`, given how its request ends: an error before a reply is read, or the
-- header and the payload of the reply.
def pollEvents (ctx : EventCtx U) (reply : Except AlpError (List UInt8 × List UInt8)) :
    Status × List (Call U) × EventCtx U :=
  if !ctx.initialised then (.error .notReady, [], ctx)
  else if ∀ slot, (ctx.subs slot).isNone then (.ok (), [], ctx)
  else if ctx.evtBusy then (.error .busy, [], ctx)
  else
    match reply with
    | .error err => (.error err, [], ctx)
    | .ok (hdr, payload) =>
        match receive pendingEventsReply CMD_GET_PENDING_EVENTS ctx.fwProtoMajor MAX_PAYLOAD hdr payload with
        | (.error err, _) => (.error err, [], ctx)
        | (.ok (), data) =>
            let (calls, subs) := walk react data ctx.subs
            (.ok (), calls, { ctx with subs := subs })

end Poll

-- An event as the firmware queues it.
structure QueuedEvent where
  opcode : UInt8
  payload : List UInt8
  opcode_ne : opcode ≠ 0
  payload_le : payload.length ≤ 255

def QueuedEvent.bytes (e : QueuedEvent) : List UInt8 := e.opcode :: UInt8.ofNat e.payload.length :: e.payload

-- The event as a subscriber sees it.
def QueuedEvent.seen (e : QueuedEvent) : UInt8 × List UInt8 := (e.opcode, e.payload)

def eventBytes (events : List QueuedEvent) : List UInt8 := events.flatMap QueuedEvent.bytes

-- The zeros after `len` bytes of a reply.
def replyPad (len : Nat) : List UInt8 := List.replicate ((REPLY_PAD - len % REPLY_PAD) % REPLY_PAD) 0

def replyHeader (flags : UInt8) (len : Nat) : List UInt8 :=
  [CMD_GET_PENDING_EVENTS, flags] ++ putLE 2 len

-- The reply of a MAJOR-3 bridge.
def legacyPayload (events : List QueuedEvent) : List UInt8 :=
  let body := RESP_OK_LEGACY :: eventBytes events
  body ++ replyPad body.length

-- The bytes of the reply of a MAJOR-4 bridge that its CRC covers.
def coveredPayload (events : List QueuedEvent) : List UInt8 :=
  let body := RESP_OK :: eventBytes events
  body ++ replyPad (body.length + CRC_BYTES)

-- The CRC of the reply, whose header counts the CRC itself.
def replyCrc (flags : UInt8) (events : List QueuedEvent) : Nat :=
  Gd32.crc16 (replyHeader flags ((coveredPayload events).length + CRC_BYTES) ++ coveredPayload events)

def crcPayload (flags : UInt8) (events : List QueuedEvent) : List UInt8 :=
  coveredPayload events ++ putLE 2 (replyCrc flags events)

section Delivery

variable {U : Type} {react : Reacts U}

-- No callback changes the registration in a slot.
def Stable (react : Reacts U) (slot : Fin EVENT_SUBSCRIBERS) : Prop :=
  ∀ sub opcode payload subs, react sub opcode payload subs slot = subs slot

-- The calls that a list of events is worth to a slot.
def dueCalls (slot : Fin EVENT_SUBSCRIBERS) (sub : Option U) (events : List (UInt8 × List UInt8)) :
    List (Call U) :=
  match sub with
  | none => []
  | some sub => events.map fun e => ⟨slot, sub, e.1, e.2⟩

def callsOf (slot : Fin EVENT_SUBSCRIBERS) (calls : List (Call U)) : List (Call U) :=
  calls.filter fun c => decide (c.slot = slot)

theorem dueCalls_append (slot : Fin EVENT_SUBSCRIBERS) (sub : Option U) (l l' : List (UInt8 × List UInt8)) :
    dueCalls slot sub (l ++ l') = dueCalls slot sub l ++ dueCalls slot sub l' := by
  cases sub with
  | none => rfl
  | some sub => exact List.map_append

theorem fanOut_spec {slot : Fin EVENT_SUBSCRIBERS} (hstable : Stable react slot) (opcode : UInt8)
    (payload : List UInt8) {slots : List (Fin EVENT_SUBSCRIBERS)} (hnodup : slots.Nodup) (subs : Subs U) :
    (fanOut react opcode payload slots subs).2 slot = subs slot ∧
      callsOf slot (fanOut react opcode payload slots subs).1 =
        if slot ∈ slots then dueCalls slot (subs slot) [(opcode, payload)] else [] := by
  induction slots generalizing subs with
  | nil => exact ⟨rfl, rfl⟩
  | cons head rest ih =>
      obtain ⟨hhead, hrest⟩ := List.nodup_cons.mp hnodup
      cases hsub : subs head with
      | none =>
          obtain ⟨hsubs, hcalls⟩ := ih hrest subs
          simp only [fanOut, hsub]
          refine ⟨hsubs, ?_⟩
          rw [hcalls]
          by_cases heq : slot = head
          · subst heq
            simp [hhead, hsub, dueCalls]
          · simp [heq]
      | some sub =>
          obtain ⟨hsubs, hcalls⟩ := ih hrest (react sub opcode payload subs)
          have hkept := hstable sub opcode payload subs
          simp only [fanOut, hsub]
          refine ⟨hsubs.trans hkept, ?_⟩
          rw [hkept] at hcalls
          by_cases heq : slot = head
          · subst heq
            simp only [hhead, if_false] at hcalls
            simp [callsOf, hsub, dueCalls] at hcalls ⊢
            exact hcalls
          · have hne : head ≠ slot := fun h => heq h.symm
            simp only [callsOf, List.filter_cons, hne, decide_false, Bool.false_eq_true, if_false]
            simpa [callsOf, heq] using hcalls

theorem walk_cons (e : QueuedEvent) (tail : List UInt8) (subs : Subs U) :
    walk react (e.bytes ++ tail) subs =
      let (calls, subs') := fanOut react e.opcode e.payload (List.finRange EVENT_SUBSCRIBERS) subs
      let (more, subs'') := walk react tail subs'
      (calls ++ more, subs'') := by
  have hlen : (UInt8.ofNat e.payload.length).toNat = e.payload.length := by
    have hle := e.payload_le
    rw [UInt8.toNat_ofNat']
    omega
  have hroom : ¬(e.payload ++ tail).length < e.payload.length := by
    rw [List.length_append]
    omega
  rw [QueuedEvent.bytes, List.cons_append, List.cons_append, walk, if_neg e.opcode_ne, hlen, if_neg hroom,
    List.take_left, List.drop_left]

theorem walk_stops (subs : Subs U) (n : Nat) (tail : List UInt8) :
    walk react (0 :: List.replicate n 0 ++ tail) subs = ([], subs) := by
  cases n with
  | zero =>
      cases tail with
      | nil =>
          rw [walk]
          simp
      | cons byte rest =>
          rw [List.replicate_zero, List.cons_append, List.nil_append, walk]
          rfl
  | succ n =>
      rw [List.replicate_succ, List.cons_append, List.cons_append, walk]
      rfl

-- A walk over encoded events and a tail makes the calls the events are due, and those of the
-- tail.
theorem walk_spec {slot : Fin EVENT_SUBSCRIBERS} (hstable : Stable react slot) (events : List QueuedEvent)
    (tail : List UInt8) (extra : List (UInt8 × List UInt8))
    (htail : ∀ subs : Subs U, callsOf slot (walk react tail subs).1 = dueCalls slot (subs slot) extra)
    (subs : Subs U) :
    callsOf slot (walk react (eventBytes events ++ tail) subs).1 =
      dueCalls slot (subs slot) (events.map QueuedEvent.seen ++ extra) := by
  induction events generalizing subs with
  | nil => exact htail subs
  | cons e rest ih =>
      obtain ⟨hsubs, hcalls⟩ :=
        fanOut_spec hstable e.opcode e.payload (List.nodup_finRange EVENT_SUBSCRIBERS) subs
      have hrest := ih (fanOut react e.opcode e.payload (List.finRange EVENT_SUBSCRIBERS) subs).2
      rw [if_pos (List.mem_finRange slot)] at hcalls
      rw [hsubs] at hrest
      rw [eventBytes, List.flatMap_cons, List.append_assoc, walk_cons]
      dsimp only
      rw [callsOf, List.filter_append, ← callsOf, ← callsOf, hcalls]
      rw [eventBytes] at hrest
      rw [hrest, List.map_cons, List.cons_append, ← dueCalls_append]
      rfl

theorem walk_pad (subs : Subs U) (len : Nat) : walk react (replyPad len) subs = ([], subs) := by
  rw [replyPad]
  cases (REPLY_PAD - len % REPLY_PAD) % REPLY_PAD with
  | zero =>
      rw [List.replicate_zero, walk]
      simp
  | succ n =>
      have hstop : walk react (0 :: List.replicate n 0 ++ []) subs = ([], subs) := walk_stops subs n []
      rwa [List.append_nil, ← List.replicate_succ] at hstop

-- The trailer is walked as an entry of its own if nothing stands before it.
theorem walk_trailer (subs : Subs U) (len crc : Nat) :
    walk react (replyPad len ++ putLE 2 crc) subs =
      if len % REPLY_PAD = 0 ∧ UInt8.ofNat crc ≠ 0 ∧ UInt8.ofNat (crc / 256) = 0 then
        fanOut react (UInt8.ofNat crc) [] (List.finRange EVENT_SUBSCRIBERS) subs
      else ([], subs) := by
  by_cases hpad : len % REPLY_PAD = 0
  · have hnone : replyPad len = [] := by simp [replyPad, hpad]
    have hend : walk react ([] : List UInt8) subs = ([], subs) := by
      rw [walk]
      simp
    rw [hnone, List.nil_append, putLE, putLE, putLE, walk]
    by_cases hlow : UInt8.ofNat crc = 0
    · simp [hlow]
    · by_cases hhigh : UInt8.ofNat (crc / 256) = 0
      · have hevent : len % REPLY_PAD = 0 ∧ UInt8.ofNat crc ≠ 0 ∧ UInt8.ofNat (crc / 256) = 0 :=
          ⟨hpad, hlow, hhigh⟩
        have hnext : ∀ subs' : Subs U, walk react ([] : List UInt8) subs' = ([], subs') := by
          intro subs'
          rw [walk]
          simp
        rw [if_neg hlow, if_pos hevent, hhigh]
        simp [hnext]
      · have hshort : ([] : List UInt8).length < (UInt8.ofNat (crc / 256)).toNat := by
          have hne : (UInt8.ofNat (crc / 256)).toNat ≠ 0 := fun h => hhigh (UInt8.toNat_inj.mp h)
          simp only [List.length_nil]
          omega
        rw [if_neg hlow, if_pos hshort, if_neg fun h => hhigh h.2.2]
  · have hsome : ∃ n, replyPad len = 0 :: List.replicate n 0 := by
      have hlt : len % REPLY_PAD < REPLY_PAD := Nat.mod_lt _ (by decide)
      have hcount : (REPLY_PAD - len % REPLY_PAD) % REPLY_PAD = REPLY_PAD - len % REPLY_PAD - 1 + 1 := by
        rw [REPLY_PAD] at *
        omega
      exact ⟨REPLY_PAD - len % REPLY_PAD - 1, by rw [replyPad, hcount, List.replicate_succ]⟩
    obtain ⟨n, hzeros⟩ := hsome
    rw [hzeros, walk_stops, if_neg fun h => hpad h.1]

end Delivery

-- One poll whose reply is received intact makes exactly the calls that the events are due, in
-- every slot that the callbacks leave alone.
def Drains (fwProtoMajor : UInt8) (hdr payload : List UInt8) (events : List QueuedEvent) : Prop :=
  ∀ (U : Type) (react : Reacts U) (ctx : EventCtx U), ctx.initialised = true → ctx.evtBusy = false →
    ctx.fwProtoMajor = fwProtoMajor → (∃ slot, ctx.subs slot ≠ none) →
      ∃ calls ctx', pollEvents react ctx (.ok (hdr, payload)) = (.ok (), calls, ctx') ∧
        ∀ slot, Stable react slot →
          callsOf slot calls = dueCalls slot (ctx.subs slot) (events.map QueuedEvent.seen)

-- The trailer follows the last event at once, and reads as an event without a payload.
def TrailerReadsAsEvent (flags : UInt8) (events : List QueuedEvent) : Prop :=
  (eventBytes events).length % REPLY_PAD = 5 ∧ 0 < replyCrc flags events ∧ replyCrc flags events < 256

section Replies

variable {U : Type} {react : Reacts U} {ctx : EventCtx U}

theorem pollEvents_of_receive (hinit : ctx.initialised = true) (hbusy : ctx.evtBusy = false)
    (hsub : ∃ slot, ctx.subs slot ≠ none) {hdr payload data : List UInt8}
    (hreceive : receive pendingEventsReply CMD_GET_PENDING_EVENTS ctx.fwProtoMajor MAX_PAYLOAD hdr payload =
      (.ok (), data)) :
    pollEvents react ctx (.ok (hdr, payload)) =
      (.ok (), (walk react data ctx.subs).1, { ctx with subs := (walk react data ctx.subs).2 }) := by
  have hsome : ¬∀ slot, ctx.subs slot = none := by
    obtain ⟨slot, hslot⟩ := hsub
    exact fun h => hslot (h slot)
  unfold pollEvents
  simp [hinit, hbusy, hsome, hreceive]

theorem getLe16_replyHeader (flags : UInt8) {len : Nat} (h : len < 65536) :
    getLe16 2 (replyHeader flags len) = len := by
  have hslice : slice 2 2 (replyHeader flags len) = putLE 2 len := rfl
  rw [getLe16, hslice, getLE_putLE]
  omega

theorem receive_intact (flags fwMajor resp : UInt8) (rest : List UInt8)
    (hfits : (resp :: rest).length ≤ MAX_PAYLOAD)
    (hverdict : replyVerdict pendingEventsReply fwMajor (replyHeader flags (resp :: rest).length) (resp :: rest) =
      .ok ()) :
    receive pendingEventsReply CMD_GET_PENDING_EVENTS fwMajor MAX_PAYLOAD
      (replyHeader flags (resp :: rest).length) (resp :: rest) = (.ok (), rest) := by
  have hmax : (resp :: rest).length < 65536 := by
    rw [MAX_PAYLOAD] at hfits
    omega
  have hcmd : (replyHeader flags (resp :: rest).length).getD 0 0 = CMD_GET_PENDING_EVENTS := rfl
  have hdata : rest.length ≤ MAX_PAYLOAD := by
    rw [List.length_cons] at hfits
    omega
  have hlen : 1 ≤ (resp :: rest).length := by simp
  simp only [receive, getLe16_replyHeader flags hmax, hcmd, hverdict, hfits, hlen, and_self, if_true,
    List.drop_succ_cons, List.drop_zero, List.take_of_length_le hdata]

theorem crcBit_lt (crc : Nat) : Gd32.crcBit crc < 2 ^ 16 := by
  have hmod : (crc <<< 1) % 0x10000 < 2 ^ 16 := Nat.mod_lt _ (by decide)
  unfold Gd32.crcBit
  split
  · exact Nat.xor_lt_two_pow hmod (by decide)
  · exact hmod

theorem crc16_lt (bytes : List UInt8) : Gd32.crc16 bytes < 65536 := by
  have hfold : ∀ (l : List UInt8) (crc : Nat), crc < 65536 → l.foldl Gd32.crcByte crc < 65536 := by
    intro l
    induction l with
    | nil => exact fun crc h => h
    | cons byte rest ih => exact fun crc _ => ih _ (crcBit_lt _)
  exact hfold bytes _ (by decide)

theorem replyCrcOk_trailer (hdr covered : List UInt8) :
    replyCrcOk hdr (covered ++ putLE 2 (Gd32.crc16 (hdr ++ covered))) = true := by
  have hlen : (covered ++ putLE 2 (Gd32.crc16 (hdr ++ covered))).length - CRC_BYTES = covered.length := by
    rw [List.length_append, length_putLE]
    rfl
  have htrailer : getLe16 covered.length (covered ++ putLE 2 (Gd32.crc16 (hdr ++ covered))) =
      Gd32.crc16 (hdr ++ covered) := by
    have hslice : slice covered.length 2 (covered ++ putLE 2 (Gd32.crc16 (hdr ++ covered))) =
        putLE 2 (Gd32.crc16 (hdr ++ covered)) := by
      rw [slice_skip _ _ _ _ (Nat.le_refl _), Nat.sub_self]
      rfl
    have hlt := crc16_lt (hdr ++ covered)
    rw [getLe16, hslice, getLE_putLE]
    omega
  have hroom : CRC_BYTES ≤ (covered ++ putLE 2 (Gd32.crc16 (hdr ++ covered))).length := by
    rw [List.length_append, length_putLE, CRC_BYTES]
    omega
  simp only [replyCrcOk, hlen, htrailer, List.take_left, hroom, decide_true, BEq.rfl, Bool.and_self]

theorem verdict_legacy (hdr rest : List UInt8) :
    replyVerdict pendingEventsReply PROTOCOL_MAJOR_LEGACY hdr (RESP_OK_LEGACY :: rest) = .ok () := by
  simp [replyVerdict, pendingEventsReply, respToStatus, PROTOCOL_MAJOR, PROTOCOL_MAJOR_LEGACY, RESP_OK,
    RESP_OK_LEGACY]

theorem verdict_crc (hdr rest : List UInt8)
    (hcrc : replyCrcOk hdr (RESP_OK :: rest) = true) :
    replyVerdict pendingEventsReply PROTOCOL_MAJOR hdr (RESP_OK :: rest) = .ok () := by
  simp [replyVerdict, pendingEventsReply, respToStatus, hcrc]

end Replies

theorem drains_legacy (flags : UInt8) (events : List QueuedEvent)
    (hfits : (legacyPayload events).length ≤ MAX_PAYLOAD) :
    Drains PROTOCOL_MAJOR_LEGACY (replyHeader flags (legacyPayload events).length) (legacyPayload events)
      events := by
  intro U react ctx hinit hbusy hmajor hsub
  have hreceive := receive_intact flags ctx.fwProtoMajor RESP_OK_LEGACY
    (eventBytes events ++ replyPad (RESP_OK_LEGACY :: eventBytes events).length) hfits
    (by rw [hmajor]; exact verdict_legacy _ _)
  refine ⟨_, _, pollEvents_of_receive hinit hbusy hsub hreceive, fun slot hstable => ?_⟩
  have hwalk := walk_spec hstable events (replyPad (RESP_OK_LEGACY :: eventBytes events).length) []
    (fun subs => by rw [walk_pad]; cases subs slot <;> rfl) ctx.subs
  rwa [List.append_nil] at hwalk

-- On a MAJOR-4 link the trailer may be worth one more call.
theorem poll_crc (flags : UInt8) (events : List QueuedEvent) (hfits : (crcPayload flags events).length ≤ MAX_PAYLOAD)
    {U : Type} (react : Reacts U) (ctx : EventCtx U) (hinit : ctx.initialised = true)
    (hbusy : ctx.evtBusy = false) (hmajor : ctx.fwProtoMajor = PROTOCOL_MAJOR)
    (hsub : ∃ slot, ctx.subs slot ≠ none) :
    ∃ calls ctx', pollEvents react ctx
        (.ok (replyHeader flags (crcPayload flags events).length, crcPayload flags events)) =
          (.ok (), calls, ctx') ∧
      ∀ slot, Stable react slot → callsOf slot calls = dueCalls slot (ctx.subs slot) (events.map QueuedEvent.seen ++
        if (RESP_OK :: eventBytes events).length % REPLY_PAD = 6 ∧ UInt8.ofNat (replyCrc flags events) ≠ 0 ∧
            UInt8.ofNat (replyCrc flags events / 256) = 0 then
          [(UInt8.ofNat (replyCrc flags events), [])]
        else []) := by
  have hpayload : crcPayload flags events = RESP_OK :: (eventBytes events ++
      (replyPad ((RESP_OK :: eventBytes events).length + CRC_BYTES) ++ putLE 2 (replyCrc flags events))) := by
    simp [crcPayload, coveredPayload]
  have hlen : (crcPayload flags events).length = (coveredPayload events).length + CRC_BYTES := by
    rw [crcPayload, List.length_append, length_putLE]
    rfl
  have hcrc := replyCrcOk_trailer (replyHeader flags ((coveredPayload events).length + CRC_BYTES))
    (coveredPayload events)
  rw [← replyCrc, ← crcPayload, ← hlen, hpayload] at hcrc
  rw [hpayload] at hfits ⊢
  have hreceive := receive_intact flags ctx.fwProtoMajor RESP_OK _ hfits
    (by rw [hmajor]; exact verdict_crc _ _ hcrc)
  refine ⟨_, _, pollEvents_of_receive hinit hbusy hsub hreceive, fun slot hstable => ?_⟩
  refine walk_spec hstable events _ _ (fun subs => ?_) ctx.subs
  have haligned : ((RESP_OK :: eventBytes events).length + CRC_BYTES) % REPLY_PAD = 0 ↔
      (RESP_OK :: eventBytes events).length % REPLY_PAD = 6 := by
    rw [CRC_BYTES, REPLY_PAD]
    omega
  rw [walk_trailer]
  simp only [haligned]
  split
  · have hfan := (fanOut_spec hstable (UInt8.ofNat (replyCrc flags events)) []
      (List.nodup_finRange EVENT_SUBSCRIBERS) subs).2
    rwa [if_pos (List.mem_finRange slot)] at hfan
  · cases subs slot <;> rfl

theorem trailer_iff (flags : UInt8) (events : List QueuedEvent) :
    ((RESP_OK :: eventBytes events).length % REPLY_PAD = 6 ∧ UInt8.ofNat (replyCrc flags events) ≠ 0 ∧
      UInt8.ofNat (replyCrc flags events / 256) = 0) ↔ TrailerReadsAsEvent flags events := by
  have hlt : replyCrc flags events < 65536 := crc16_lt _
  have hzero : ∀ n : Nat, UInt8.ofNat n = 0 ↔ n % 256 = 0 := by
    intro n
    rw [← UInt8.toNat_inj, UInt8.toNat_ofNat']
    rfl
  rw [TrailerReadsAsEvent, hzero, ne_eq, hzero, List.length_cons, REPLY_PAD]
  omega

theorem drains_crc_iff (flags : UInt8) (events : List QueuedEvent)
    (hfits : (crcPayload flags events).length ≤ MAX_PAYLOAD) :
    Drains PROTOCOL_MAJOR (replyHeader flags (crcPayload flags events).length) (crcPayload flags events) events ↔
      ¬TrailerReadsAsEvent flags events := by
  constructor
  · intro h htrailer
    let ctx : EventCtx Unit := ⟨true, PROTOCOL_MAJOR, false, fun _ => some ()⟩
    let first : Fin EVENT_SUBSCRIBERS := ⟨0, by decide⟩
    have hsub : ∃ slot, ctx.subs slot ≠ none := ⟨first, nofun⟩
    obtain ⟨calls, ctx', hpoll, hcalls⟩ := h Unit (fun _ _ _ subs => subs) ctx rfl rfl rfl hsub
    obtain ⟨calls', ctx'', hpoll', hcalls'⟩ :=
      poll_crc flags events hfits (fun _ _ _ subs => subs) ctx rfl rfl rfl hsub
    obtain ⟨-, hsame⟩ := Prod.mk.inj (hpoll.symm.trans hpoll')
    obtain ⟨rfl, -⟩ := Prod.mk.inj hsame
    have hone := hcalls first fun _ _ _ _ => rfl
    have htwo := hcalls' first fun _ _ _ _ => rfl
    rw [if_pos ((trailer_iff flags events).mpr htrailer), hone] at htwo
    have hlengths := congrArg List.length htwo
    simp [dueCalls, ctx] at hlengths
  · intro htrailer U react ctx hinit hbusy hmajor hsub
    have hpoll := poll_crc flags events hfits react ctx hinit hbusy hmajor hsub
    rw [if_neg fun h => htrailer ((trailer_iff flags events).mp h), List.append_nil] at hpoll
    exact hpoll

-- A poll delivers exactly the queued events on a MAJOR-3 link, and on a MAJOR-4 link unless the
-- trailer reads as an event.
theorem poll_events_exact_iff (flags : UInt8) (events : List QueuedEvent) :
    ((legacyPayload events).length ≤ MAX_PAYLOAD →
      Drains PROTOCOL_MAJOR_LEGACY (replyHeader flags (legacyPayload events).length) (legacyPayload events)
        events) ∧
    ((crcPayload flags events).length ≤ MAX_PAYLOAD →
      (Drains PROTOCOL_MAJOR (replyHeader flags (crcPayload flags events).length) (crcPayload flags events)
        events ↔ ¬TrailerReadsAsEvent flags events)) :=
  ⟨drains_legacy flags events, drains_crc_iff flags events⟩

-- An event whose reply has the CRC 0x001F and no padding.
def unpaddedEvent : QueuedEvent := ⟨1, [51, 2, 0], by decide, by decide⟩

theorem poll_events_exact_unpaddedEvent :
    ((legacyPayload [unpaddedEvent]).length ≤ MAX_PAYLOAD ∧ (crcPayload 0 [unpaddedEvent]).length ≤ MAX_PAYLOAD) ∧
      Drains PROTOCOL_MAJOR_LEGACY (replyHeader 0 (legacyPayload [unpaddedEvent]).length)
        (legacyPayload [unpaddedEvent]) [unpaddedEvent] := by
  have hlegacy : (legacyPayload [unpaddedEvent]).length ≤ MAX_PAYLOAD := by decide +kernel
  have hcrc : (crcPayload 0 [unpaddedEvent]).length ≤ MAX_PAYLOAD := by decide +kernel
  exact ⟨⟨hlegacy, hcrc⟩, (poll_events_exact_iff 0 [unpaddedEvent]).1 hlegacy⟩

theorem trailer_delivered :
    (crcPayload 0 [unpaddedEvent]).length ≤ MAX_PAYLOAD ∧
      ¬Drains PROTOCOL_MAJOR (replyHeader 0 (crcPayload 0 [unpaddedEvent]).length) (crcPayload 0 [unpaddedEvent])
        [unpaddedEvent] := by
  have hfits : (crcPayload 0 [unpaddedEvent]).length ≤ MAX_PAYLOAD := by decide +kernel
  have htrailer : TrailerReadsAsEvent 0 [unpaddedEvent] := by
    have hlen : (eventBytes [unpaddedEvent]).length % REPLY_PAD = 5 := by decide +kernel
    have hcrc : replyCrc 0 [unpaddedEvent] = 0x1F := by decide +kernel
    exact ⟨hlen, by rw [hcrc]; decide, by rw [hcrc]; decide⟩
  exact ⟨hfits, fun h => (drains_crc_iff 0 [unpaddedEvent] hfits).mp h htrailer⟩

end AlpSdk.Cc3501e
