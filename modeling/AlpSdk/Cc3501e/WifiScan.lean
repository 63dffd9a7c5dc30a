import AlpSdk.Cc3501e.Reported

-- The Wi-Fi scan and the records of its reply (chips/cc3501e/cc3501e_wifi.c).
namespace AlpSdk.Cc3501e

open Library.Bytes Library.Effect Library.Interleave

def SCAN_REC_HDR : Nat := 11
def SSID_MAX : Nat := 32
def WIFI_SCAN_WINDOW_MS : UInt32 := 20000

-- `cc3501e_scan_record_t`, the SSID as the bytes that are written to it.
structure ScanRecord where
  bssid : List UInt8
  rssiDbm : Int8
  channel : UInt8
  securityInfo : UInt16
  ssidLen : UInt8
  ssid : List UInt8
  deriving DecidableEq

-- The record at `off` of the `buf.length` bytes received. A read past them has no result.
def scanRecord (buf : List UInt8) (off : Nat) (ssidLen : UInt8) : Option ScanRecord := do
  let bssid ← read off 6 buf
  let rssi ← buf[off + 6]?
  let channel ← buf[off + 7]?
  let low ← buf[off + 8]?
  let high ← buf[off + 9]?
  let copy := if SSID_MAX < ssidLen.toNat then SSID_MAX else ssidLen.toNat
  let ssid ← read (off + SCAN_REC_HDR) copy buf
  some {
    bssid := bssid
    rssiDbm := rssi.toInt8
    channel := channel
    securityInfo := low.toUInt16 ||| (high.toUInt16 <<< 8)
    ssidLen := ssidLen
    ssid := ssid ++ [0] }

-- The walk from `off` on with `n` records written.
def scanWalk (buf : List UInt8) (cap off n : Nat) : Option (List ScanRecord) :=
  if off + SCAN_REC_HDR ≤ buf.length ∧ n < cap then
    match buf[off + 10]? with
    | none => none
    | some ssidLen =>
        if buf.length < off + SCAN_REC_HDR + ssidLen.toNat then some []
        else
          match scanRecord buf off ssidLen with
          | none => none
          | some record =>
              (scanWalk buf cap (off + SCAN_REC_HDR + ssidLen.toNat) (n + 1)).map (record :: ·)
  else some []
termination_by buf.length - off
decreasing_by
  simp only [SCAN_REC_HDR] at *
  omega

-- The records written to `out_records`, which `*count` counts.
def wifiScan (cfg : Config) (cap : Nat) (timeoutMs : UInt32) : Driver (Status × Option (List ScanRecord)) := do
  if ← get .initialised then
    if ← get .wifiScanBusy then pure (.error .busy, some [])
    else
      set .wifiScanBusy true
      let budget := if timeoutMs < WIFI_SCAN_WINDOW_MS then WIFI_SCAN_WINDOW_MS else timeoutMs
      match ← pollByRepeat cfg .wifiScanStart [] MAX_PAYLOAD budget with
      | (.error err, _) =>
          set .wifiScanBusy false
          pure (.error err, some [])
      | (.ok (), got) =>
          let records := scanWalk got cap 0 0
          set .wifiScanBusy false
          pure (.ok (), records)
  else pure (.error .notReady, some [])

section Walk

-- A record that lies in the buffer, by the bytes from its start on.
theorem scanRecord_of_fits {buf : List UInt8} {off : Nat} {ssidLen : UInt8}
    (h : off + SCAN_REC_HDR + ssidLen.toNat ≤ buf.length) : scanRecord buf off ssidLen = some {
      bssid := slice 0 6 (buf.drop off)
      rssiDbm := ((buf.drop off).getD 6 0).toInt8
      channel := (buf.drop off).getD 7 0
      securityInfo := ((buf.drop off).getD 8 0).toUInt16 ||| (((buf.drop off).getD 9 0).toUInt16 <<< 8)
      ssidLen := ssidLen
      ssid := slice SCAN_REC_HDR (if SSID_MAX < ssidLen.toNat then SSID_MAX else ssidLen.toNat) (buf.drop off) ++
        [0] } := by
  have hcopy : (if SSID_MAX < ssidLen.toNat then SSID_MAX else ssidLen.toNat) ≤ ssidLen.toNat := by
    split <;> omega
  have hbyte : ∀ i < 11, buf[off + i]? = some ((buf.drop off).getD i 0) := by
    intro i hi
    rw [SCAN_REC_HDR] at h
    rw [List.getD_eq_getElem?_getD, List.getElem?_drop, List.getElem?_eq_getElem (by omega), Option.getD_some]
  have hbssid : read off 6 buf = some (slice 0 6 (buf.drop off)) := by
    rw [SCAN_REC_HDR] at h
    rw [read_of_le (by omega), slice, slice, List.drop_zero]
  have hssid : ∀ copy ≤ ssidLen.toNat, read (off + SCAN_REC_HDR) copy buf =
      some (slice SCAN_REC_HDR copy (buf.drop off)) := by
    intro copy hcopy
    rw [read_of_le (by omega), slice, slice, List.drop_drop]
  unfold scanRecord
  rw [hbssid, hbyte 6 (by omega), hbyte 7 (by omega), hbyte 8 (by omega), hbyte 9 (by omega)]
  dsimp only [Option.bind_eq_bind, Option.bind_some]
  rw [hssid _ hcopy]
  rfl

-- No byte string makes the walk read past its end or write more than `cap` records.
theorem scanWalk_bounded (buf : List UInt8) (cap off n : Nat) :
    ∃ records, scanWalk buf cap off n = some records ∧ records.length ≤ cap - n := by
  fun_induction scanWalk buf cap off n with
  | case1 off n hroom hbyte =>
      rw [SCAN_REC_HDR] at hroom
      rw [List.getElem?_eq_getElem (by omega)] at hbyte
      cases hbyte
  | case2 off n hroom ssidLen hbyte hcut => exact ⟨[], rfl, Nat.zero_le _⟩
  | case3 off n hroom ssidLen hbyte hfits hrecord =>
      rw [scanRecord_of_fits (not_lt.mp hfits)] at hrecord
      cases hrecord
  | case4 off n hroom ssidLen hbyte hfits record hrecord ih =>
      obtain ⟨records, hwalk, hlength⟩ := ih
      refine ⟨record :: records, by rw [hwalk]; rfl, ?_⟩
      rw [List.length_cons]
      omega
  | case5 off n hstop => exact ⟨[], rfl, Nat.zero_le _⟩

end Walk

-- An access point as the firmware packs it.
structure AccessPoint where
  bssid : List UInt8
  rssiDbm : Int8
  channel : UInt8
  securityInfo : UInt16
  ssid : List UInt8
  bssid_length : bssid.length = 6
  ssid_le : ssid.length ≤ 255

def AccessPoint.header (ap : AccessPoint) : List UInt8 :=
  ap.bssid ++ ([ap.rssiDbm.toUInt8, ap.channel] ++ putLE 2 ap.securityInfo.toNat ++ [UInt8.ofNat ap.ssid.length])

def AccessPoint.bytes (ap : AccessPoint) : List UInt8 := ap.header ++ ap.ssid

-- The record that the caller sees.
def AccessPoint.record (ap : AccessPoint) : ScanRecord where
  bssid := ap.bssid
  rssiDbm := ap.rssiDbm
  channel := ap.channel
  securityInfo := ap.securityInfo
  ssidLen := UInt8.ofNat ap.ssid.length
  ssid := ap.ssid.take SSID_MAX ++ [0]

def apBytes (aps : List AccessPoint) : List UInt8 := aps.flatMap AccessPoint.bytes

section Exact

theorem length_header (ap : AccessPoint) : ap.header.length = SCAN_REC_HDR := by
  simp [AccessPoint.header, ap.bssid_length, SCAN_REC_HDR]

theorem toNat_ssidLen (ap : AccessPoint) : (UInt8.ofNat ap.ssid.length).toNat = ap.ssid.length := by
  have h := ap.ssid_le
  rw [UInt8.toNat_ofNat']
  omega

theorem securityInfo_bytes (info : UInt16) :
    (UInt8.ofNat info.toNat).toUInt16 ||| ((UInt8.ofNat (info.toNat / 256)).toUInt16 <<< 8) = info := by
  have hlt := info.toNat_lt
  apply UInt16.toNat_inj.mp
  rw [toNat_le16, UInt8.toNat_ofNat', UInt8.toNat_ofNat']
  omega

theorem scanRecord_bytes (before rest : List UInt8) (ap : AccessPoint) :
    scanRecord (before ++ (ap.bytes ++ rest)) before.length (UInt8.ofNat ap.ssid.length) = some ap.record := by
  have hfits : before.length + SCAN_REC_HDR + (UInt8.ofNat ap.ssid.length).toNat ≤
      (before ++ (ap.bytes ++ rest)).length := by
    simp only [toNat_ssidLen, AccessPoint.bytes, List.length_append, length_header]
    omega
  have hbyte : ∀ i, (ap.bytes ++ rest).getD (i + 6) 0 = ([ap.rssiDbm.toUInt8, ap.channel] ++
      putLE 2 ap.securityInfo.toNat ++ [UInt8.ofNat ap.ssid.length] ++ ap.ssid ++ rest).getD i 0 := by
    intro i
    have hskip := getD_skip (i + 6) ap.bssid ([ap.rssiDbm.toUInt8, ap.channel] ++ putLE 2 ap.securityInfo.toNat ++
      [UInt8.ofNat ap.ssid.length] ++ ap.ssid ++ rest) (by rw [ap.bssid_length]; omega)
    rw [ap.bssid_length, Nat.add_sub_cancel] at hskip
    rw [← hskip]
    simp only [AccessPoint.bytes, AccessPoint.header, List.append_assoc]
  have hbssid : slice 0 6 (ap.bytes ++ rest) = ap.bssid := by
    have hhead := slice_head 6 ap.bssid ([ap.rssiDbm.toUInt8, ap.channel] ++ putLE 2 ap.securityInfo.toNat ++
      [UInt8.ofNat ap.ssid.length] ++ ap.ssid ++ rest) ap.bssid_length
    simpa only [AccessPoint.bytes, AccessPoint.header, List.append_assoc] using hhead
  have hssid : slice SCAN_REC_HDR (if SSID_MAX < ap.ssid.length then SSID_MAX else ap.ssid.length)
      (ap.bytes ++ rest) = ap.ssid.take SSID_MAX := by
    rw [AccessPoint.bytes, List.append_assoc, slice_skip _ _ _ _ (length_header ap).le, length_header, Nat.sub_self,
      slice, List.drop_zero]
    split
    · rw [List.take_append_of_le_length (by omega)]
    · rw [List.take_append_of_le_length (by omega), List.take_length, List.take_of_length_le (by omega)]
  rw [scanRecord_of_fits hfits, List.drop_left, toNat_ssidLen, hbssid, hssid, hbyte 0, hbyte 1, hbyte 2, hbyte 3]
  simpa [AccessPoint.record, putLE] using securityInfo_bytes ap.securityInfo

-- Nothing shorter than a header is a record.
theorem scanWalk_short {buf : List UInt8} {off : Nat} (h : buf.length < off + SCAN_REC_HDR) (cap n : Nat) :
    scanWalk buf cap off n = some [] := by
  rw [scanWalk, if_neg (by omega)]

theorem scanWalk_cons (before rest : List UInt8) (ap : AccessPoint) {cap n : Nat} (hn : n < cap) :
    scanWalk (before ++ (ap.bytes ++ rest)) cap before.length n =
      (scanWalk ((before ++ ap.bytes) ++ rest) cap (before ++ ap.bytes).length (n + 1)).map (ap.record :: ·) := by
  have hlength : (before ++ (ap.bytes ++ rest)).length =
      before.length + SCAN_REC_HDR + ap.ssid.length + rest.length := by
    simp only [AccessPoint.bytes, List.length_append, length_header]
    omega
  have hlen : (before ++ (ap.bytes ++ rest))[before.length + 10]? = some (UInt8.ofNat ap.ssid.length) := by
    have hsix : 10 - ap.bssid.length = 4 := by rw [ap.bssid_length]
    rw [List.getElem?_append_right (by omega), Nat.add_sub_cancel_left, AccessPoint.bytes, AccessPoint.header,
      List.append_assoc, List.append_assoc, List.getElem?_append_right (by rw [ap.bssid_length]; omega), hsix]
    rfl
  have hend : before.length + SCAN_REC_HDR + ap.ssid.length = (before ++ ap.bytes).length := by
    simp only [AccessPoint.bytes, List.length_append, length_header]
    omega
  rw [scanWalk, if_pos ⟨by omega, hn⟩, hlen]
  dsimp only
  rw [toNat_ssidLen, if_neg (by omega), scanRecord_bytes]
  dsimp only
  rw [hend, List.append_assoc]

-- Every record is read once, and the bytes after them are too few for one more.
theorem scanWalk_exact (aps : List AccessPoint) {rest : List UInt8} (hrest : rest.length < SCAN_REC_HDR) (cap : Nat)
    (before : List UInt8) (n : Nat) :
    scanWalk (before ++ (apBytes aps ++ rest)) cap before.length n =
      some ((aps.take (cap - n)).map AccessPoint.record) := by
  induction aps generalizing before n with
  | nil =>
      have hshort : (before ++ (apBytes [] ++ rest)).length < before.length + SCAN_REC_HDR := by
        simp only [apBytes, List.flatMap_nil, List.nil_append, List.length_append]
        omega
      rw [scanWalk_short hshort]
      simp
  | cons ap aps ih =>
      by_cases hn : n < cap
      · have hcap : cap - n = (cap - (n + 1)) + 1 := by omega
        have hbytes : apBytes (ap :: aps) ++ rest = ap.bytes ++ (apBytes aps ++ rest) := by
          simp only [apBytes, List.flatMap_cons, List.append_assoc]
        rw [hbytes, scanWalk_cons before _ ap hn, ih, hcap]
        rfl
      · rw [scanWalk, if_neg (by omega), Nat.sub_eq_zero_of_le (by omega)]
        rfl

end Exact

def scanReply : ReplyKind := ⟨true, true, false⟩

-- The reply to a scan as the bridge sends it, without and with the CRC of MAJOR 4.
inductive Intact (aps : List AccessPoint) : (fwProtoMajor : UInt8) → (hdr payload : List UInt8) → Prop where
  | legacy {fwProtoMajor : UInt8} (hdr : List UInt8) (hmajor : fwProtoMajor < PROTOCOL_MAJOR) :
      Intact aps fwProtoMajor hdr
        (RESP_OK_LEGACY :: (apBytes aps ++ replyPad (RESP_OK_LEGACY :: apBytes aps).length))
  | crc {fwProtoMajor : UInt8} (hdr covered : List UInt8) (hmajor : fwProtoMajor ≠ PROTOCOL_MAJOR_LEGACY)
      (hcovered : covered = RESP_OK :: (apBytes aps ++ replyPad ((RESP_OK :: apBytes aps).length + CRC_BYTES))) :
      Intact aps fwProtoMajor hdr (covered ++ putLE 2 (Gd32.crc16 (hdr ++ covered)))

section Reply

theorem length_replyPad (len : Nat) : (replyPad len).length ≤ 7 := by
  simp only [replyPad, REPLY_PAD, List.length_replicate]
  omega

theorem verdict_scan_legacy {fwProtoMajor : UInt8} (hmajor : fwProtoMajor < PROTOCOL_MAJOR) (hdr rest : List UInt8) :
    replyVerdict scanReply fwProtoMajor hdr (RESP_OK_LEGACY :: rest) = .ok () := by
  have hnot : ¬ PROTOCOL_MAJOR ≤ fwProtoMajor := UInt8.not_le.mpr hmajor
  simp [replyVerdict, scanReply, respToStatus, hnot, RESP_OK, RESP_OK_LEGACY]

theorem verdict_scan_crc {fwProtoMajor : UInt8} (hmajor : fwProtoMajor ≠ PROTOCOL_MAJOR_LEGACY)
    {hdr rest : List UInt8} (hcrc : replyCrcOk hdr (RESP_OK :: rest) = true) :
    replyVerdict scanReply fwProtoMajor hdr (RESP_OK :: rest) = .ok () := by
  simp [replyVerdict, scanReply, respToStatus, hmajor, hcrc]

-- What an intact reply carries after its status.
theorem Intact.reads {aps : List AccessPoint} {fwProtoMajor : UInt8} {hdr payload : List UInt8}
    (h : Intact aps fwProtoMajor hdr payload) : replyVerdict scanReply fwProtoMajor hdr payload = .ok () ∧
      ∃ rest : List UInt8, rest.length < SCAN_REC_HDR ∧ payload.drop 1 = apBytes aps ++ rest := by
  cases h with
  | legacy hmajor =>
      refine ⟨verdict_scan_legacy hmajor _ _, _, ?_, rfl⟩
      exact Nat.lt_of_le_of_lt (length_replyPad _) (by decide)
  | crc covered hmajor hcovered =>
      have hcrc := replyCrcOk_trailer hdr covered
      subst hcovered
      refine ⟨verdict_scan_crc hmajor hcrc, _, ?_, List.append_assoc _ _ _⟩
      have hpad := length_replyPad ((RESP_OK :: apBytes aps).length + CRC_BYTES)
      rw [List.length_append, length_putLE, SCAN_REC_HDR]
      omega

-- The scan decodes the data that its last exchange has brought, if it was accepted.
theorem follows_wifiScan (cfg : Config) (cap : Nat) (timeoutMs : UInt32) :
    Follows watched (wifiScan cfg cap timeoutMs) (fun out x => ∃ got : Status × List UInt8, Shown x MAX_PAYLOAD got ∧
      out = (got.1, if got.1 = .ok () then scanWalk got.2 cap 0 0 else some [])) .fresh := by
  refine follows_quiet_seq (quiet_get _) fun ready => ?_
  cases ready with
  | false => exact ⟨_, shown_error _ .notReady, rfl⟩
  | true =>
      refine follows_quiet_seq (quiet_get _) fun scanning => ?_
      cases scanning with
      | true => exact ⟨_, shown_error _ .busy, rfl⟩
      | false =>
          refine follows_quiet_seq (quiet_set .wifiScanBusy true) fun _ => ?_
          refine follows_seq (dataCall_shown (.pollByRepeat .wifiScanStart [] _)) ?_
          rintro ⟨s, data⟩ x hshown
          cases s with
          | error err => exact follows_quiet_seq (quiet_set .wifiScanBusy false) fun _ => ⟨_, hshown, rfl⟩
          | ok _ => exact follows_quiet_seq (quiet_set .wifiScanBusy false) fun _ => ⟨_, hshown, rfl⟩

end Reply

-- A bridge that has one reply to a scan and none to anything else.
def scanned (answer : Answer) : Env bridge Unit
  | _, .clock _ _, err, _ => err = none
  | _, .collect frame, reply, _ =>
      if frame.cmd = .wifiScanStart then reply = .ok answer else ∃ err, reply = .error err
  | _, _, _, _ => True

-- The link is up, and neither a scan nor a request is under way.
structure Ctx.Idle (ctx : Ctx) : Prop where
  initialised : ctx.initialised = true
  wifiScanBusy : ctx.wifiScanBusy = false
  requestLock : ctx.requestLock = false

section Scanned

variable {α : Type} {answer : Answer} {Q : α → Link Unit → Prop} {t : Link Unit}

abbrev Scans (answer : Answer) (p : Driver α) (Q : α → Link Unit → Prop) (t : Link Unit) : Prop :=
  twp (alone (scanned answer)) p Q t

theorem scans_get {f : Field} {next : f.Val → Driver α}
    (h : ∀ t' : Link Unit, t'.ctx = t.ctx → Scans answer (next (t.ctx.get f)) Q t') :
    Scans answer (get f >>= next) Q t := by
  refine ⟨⟨t.ctx.get f, t, rfl, rfl, trivial⟩, fun value t' he => ?_⟩
  obtain rfl : value = t.ctx.get f := he.1
  exact h t' he.2.1

theorem scans_set {f : Field} {value : f.Val} {next : Unit → Driver α}
    (h : ∀ t' : Link Unit, t'.ctx = t.ctx.set f value → Scans answer (next ()) Q t') :
    Scans answer (set f value >>= next) Q t :=
  ⟨⟨(), ⟨t.ctx.set f value, ()⟩, trivial, rfl, trivial⟩, fun _ t' he => h t' he.2.1⟩

theorem scans_delay {ms : Nat} {next : Unit → Driver α}
    (h : ∀ t' : Link Unit, t'.ctx = t.ctx → Scans answer (next ()) Q t') :
    Scans answer (delay ms >>= next) Q t :=
  ⟨⟨(), t, trivial, rfl, trivial⟩, fun _ t' he => h t' he.2.1⟩

theorem scans_uptime {next : UInt64 → Driver α}
    (h : ∀ (ms : UInt64) (t' : Link Unit), t'.ctx = t.ctx → Scans answer (next ms) Q t') :
    Scans answer (uptime >>= next) Q t :=
  ⟨⟨(0 : UInt64), t, trivial, rfl, trivial⟩, fun ms t' he => h ms t' he.2.1⟩

theorem scans_clock {transfer : Transfer} {frame : Frame} {next : Driver Answer} {Q : Answer → Link Unit → Prop}
    (h : ∀ t' : Link Unit, t'.ctx = t.ctx → Scans answer next Q t') :
    Scans answer (clock transfer frame next) Q t := by
  refine ⟨⟨none, t, trivial, rfl, rfl⟩, fun err t' he => ?_⟩
  obtain rfl : err = none := he.2.2
  exact h t' he.2.1

theorem scans_lockAcquire (cfg : Config) (hfree : t.ctx.requestLock = false) :
    Scans answer (lockAcquire cfg) (fun s _ => s = .ok ()) t := by
  refine ⟨⟨true, ⟨_, ()⟩, by rw [Ctx.Gives, hfree]; rfl, rfl, trivial⟩, fun won t' he => ?_⟩
  obtain rfl : won = true := Eq.trans he.1 (by rw [hfree]; rfl)
  rfl

theorem scans_scanRequest (seq : UInt8) (rxCap : Nat) :
    Scans answer (requestLocked ⟨.wifiScanStart, [], seq⟩ rxCap)
      (fun out t' => out = { answer with data := answer.data.take rxCap } ∧ t'.ctx = t.ctx) t := by
  have hcollect : ∀ t₁ : Link Unit, t₁.ctx = t.ctx → Scans answer (collect ⟨.wifiScanStart, [], seq⟩ rxCap)
      (fun out t' => out = { answer with data := answer.data.take rxCap } ∧ t'.ctx = t.ctx) t₁ := by
    refine fun t₁ ht => ⟨⟨.ok answer, t₁, trivial, rfl, rfl⟩, fun reply t' he => ?_⟩
    obtain rfl : reply = .ok answer := he.2.2
    exact ⟨rfl, Eq.trans he.2.1 ht⟩
  have hreply : ∀ t₁ : Link Unit, t₁.ctx = t.ctx →
      Scans answer (clock .replyHeader ⟨.wifiScanStart, [], seq⟩ (collect ⟨.wifiScanStart, [], seq⟩ rxCap))
        (fun out t' => out = { answer with data := answer.data.take rxCap } ∧ t'.ctx = t.ctx) t₁ :=
    fun t₁ ht => scans_clock fun t₂ ht₂ => hcollect t₂ (ht₂.trans ht)
  refine scans_get fun t₁ ht₁ => scans_clock fun t₂ ht₂ => ?_
  split
  · exact scans_clock fun t₃ ht₃ => hreply t₃ (ht₃.trans (ht₂.trans ht₁))
  · exact hreply t₂ (ht₂.trans ht₁)

-- The first attempt brings the reply.
theorem scans_scanLoop (cfg : Config) (seq : UInt8) (rxCap : Nat) (deadlineMs : UInt64) {fuel : Nat} (gap : Nat)
    (hfuel : 0 < fuel) (hok : answer.status = .ok ()) (hfree : t.ctx.requestLock = false) :
    Scans answer (pollLoop cfg (requestLocked ⟨.wifiScanStart, [], seq⟩ rxCap) deadlineMs none fuel gap false true [])
      (fun out _ => out = (.ok (), answer.data.take rxCap)) t := by
  cases fuel with
  | zero => exact absurd hfuel (Nat.lt_irrefl 0)
  | succ fuel =>
      have hend : ∀ (noStatus : Bool) (t' : Link Unit), Scans answer (do
          let s ← pollExit cfg answer.status noStatus
          pure (s, answer.data.take rxCap)) (fun out _ => out = (.ok (), answer.data.take rxCap)) t' := by
        intro noStatus t'
        have hexit : pollExit cfg answer.status noStatus = pure (.ok ()) := by simp [pollExit, hok]
        rw [hexit]
        rfl
      refine twp_bind (twp_mono (scans_lockAcquire cfg hfree) ?_)
      rintro _ t₁ rfl
      have hcurrent : Scans answer (handleCurrent none) (fun ok t' => ok = true ∧ t' = t₁) t₁ := ⟨rfl, rfl⟩
      refine twp_bind (twp_mono hcurrent ?_)
      rintro _ _ ⟨rfl, rfl⟩
      rw [if_pos rfl]
      refine twp_bind (twp_mono (scans_scanRequest seq rxCap) ?_)
      rintro _ t₂ ⟨rfl, -⟩
      refine scans_set fun t₃ _ => ?_
      have hterminal : Answer.terminal { answer with data := answer.data.take rxCap } = false := by
        simp [Answer.terminal, hok]
      have hfinal : answer.status ≠ .error .busy ∧ answer.status ≠ .error .io := by simp [hok]
      simp only [hterminal, Bool.false_eq_true, if_false]
      rw [if_pos hfinal]
      split
      · exact scans_delay fun t₄ _ => hend _ t₄
      · exact hend _ t₃

theorem scans_wifiScan {cfg : Config} (hfuel : 0 < cfg.fuel) (cap : Nat) (timeoutMs : UInt32)
    (hok : answer.status = .ok ()) (hidle : t.ctx.Idle) :
    Scans answer (wifiScan cfg cap timeoutMs)
      (fun out _ => out = (.ok (), scanWalk (answer.data.take MAX_PAYLOAD) cap 0 0)) t := by
  obtain ⟨hready, hbusy, hfree⟩ := hidle
  refine scans_get fun t₁ ht₁ => ?_
  rw [show t.ctx.get .initialised = true from hready]
  refine scans_get fun t₂ ht₂ => ?_
  rw [ht₁, show t.ctx.get .wifiScanBusy = false from hbusy]
  refine scans_set fun t₃ ht₃ => twp_bind ?_
  rw [ht₂, ht₁] at ht₃
  -- the seq of the request
  refine scans_get fun t₄ ht₄ => ?_
  rw [show t₃.ctx.get .initialised = true by rw [ht₃]; exact hready]
  refine scans_get fun t₅ ht₅ => scans_set fun t₆ ht₆ => scans_get fun t₇ ht₇ => ?_
  rw [ht₆, ht₅, ht₄, ht₃] at ht₇
  -- the checks before the first attempt
  refine scans_get fun t₈ ht₈ => ?_
  rw [show t₇.ctx.get .initialised = true by rw [ht₇]; exact hready]
  rw [ht₇] at ht₈
  refine scans_get fun t₉ ht₉ => ?_
  have hfits : ∀ major : UInt8, decide (([] : List UInt8).length ≤
      if PROTOCOL_MAJOR ≤ major then MAX_PAYLOAD - CRC_BYTES else MAX_PAYLOAD) = true := by simp
  rw [hfits]
  refine scans_uptime fun now t₁₀ ht₁₀ => ?_
  refine twp_mono (scans_scanLoop cfg _ _ _ _ hfuel hok (by rw [ht₁₀, ht₉, ht₈]; exact hfree)) ?_
  rintro _ t' rfl
  exact scans_set fun _ _ => rfl

end Scanned

theorem take_drop_one {payload : List UInt8} (h : payload.length ≤ MAX_PAYLOAD) :
    (payload.drop 1).take MAX_PAYLOAD = payload.drop 1 :=
  List.take_of_length_le (by rw [List.length_drop]; omega)

-- Whatever a reply says, a scan stays inside of it and inside of `out_records`, and it returns ALP_OK
-- if and only if the last reply was accepted. Where the bridge has an intact reply for it, it returns
-- the records of that reply.
theorem wifi_scan_exact (cfg : Config) (cap : Nat) (timeoutMs : UInt32) :
    (∀ (S : Type) (env : Env bridge S) (s s' : S) (out : Status × Option (List ScanRecord)) (x : Exchange),
      Exec (logged Exchange.next env) (s, .fresh) (wifiScan cfg cap timeoutMs) (some out) (s', x) →
        (∃ records, out.2 = some records ∧ records.length ≤ cap) ∧
        (out.1 = .ok () ↔ ∃ answer, x.reply = some answer ∧ answer.status = .ok ()) ∧
        ∀ aps fwProtoMajor hdr payload, Intact aps fwProtoMajor hdr payload → payload.length ≤ MAX_PAYLOAD →
          x.reply = some (Answer.judged scanReply fwProtoMajor hdr payload) →
            out = (.ok (), some ((aps.take cap).map AccessPoint.record))) ∧
    (∀ aps rest, rest.length ≤ 7 + CRC_BYTES →
      scanWalk (apBytes aps ++ rest) cap 0 0 = some ((aps.take cap).map AccessPoint.record)) ∧
    (∀ aps fwProtoMajor hdr payload, Intact aps fwProtoMajor hdr payload → payload.length ≤ MAX_PAYLOAD →
      0 < cfg.fuel → ∀ t : Link Unit, t.ctx.Idle →
        twp (alone (scanned (Answer.judged scanReply fwProtoMajor hdr payload))) (wifiScan cfg cap timeoutMs)
          (fun out _ => out = (.ok (), some ((aps.take cap).map AccessPoint.record))) t) := by
  have hwalk : ∀ (aps : List AccessPoint) (rest : List UInt8), rest.length < SCAN_REC_HDR →
      scanWalk (apBytes aps ++ rest) cap 0 0 = some ((aps.take cap).map AccessPoint.record) :=
    fun aps rest hrest => scanWalk_exact aps hrest cap [] 0
  refine ⟨fun S env s s' out x he => ?_, fun aps rest hrest => hwalk aps rest (Nat.lt_of_le_of_lt hrest (by decide)),
    ?_⟩
  · obtain ⟨⟨status, data⟩, ⟨hdata, hstatus⟩, rfl⟩ := follows_logged (follows_wifiScan cfg cap timeoutMs) he
    refine ⟨?_, hstatus, ?_⟩
    · dsimp only
      split
      · exact scanWalk_bounded data cap 0 0
      · exact ⟨[], rfl, Nat.zero_le _⟩
    · intro aps fwProtoMajor hdr payload hintact hfits hreply
      obtain ⟨hverdict, rest, hrest, hpayload⟩ := hintact.reads
      have hok : status = .ok () := hstatus.mpr ⟨_, hreply, hverdict⟩
      have hbytes : data = apBytes aps ++ rest := by
        have hshown : x.data MAX_PAYLOAD = (payload.drop 1).take MAX_PAYLOAD := by
          simp only [Exchange.data, hreply, Answer.judged]
        rw [← hpayload, ← take_drop_one hfits, ← hshown]
        exact hdata
      rw [hok, if_pos rfl, hbytes]
      exact congrArg _ (hwalk aps rest hrest)
  · intro aps fwProtoMajor hdr payload hintact hfits hfuel t hidle
    obtain ⟨hverdict, rest, hrest, hpayload⟩ := hintact.reads
    refine twp_mono (scans_wifiScan hfuel cap timeoutMs hverdict hidle) ?_
    rintro _ _ rfl
    have hbytes : (Answer.judged scanReply fwProtoMajor hdr payload).data.take MAX_PAYLOAD = apBytes aps ++ rest := by
      simp only [Answer.judged]
      rw [take_drop_one hfits, hpayload]
    rw [hbytes, hwalk aps rest hrest]

def lab : AccessPoint where
  bssid := [1, 2, 3, 4, 5, 6]
  rssiDbm := -40
  channel := 11
  securityInfo := 0x0200
  ssid := [0x6C, 0x61, 0x62]
  bssid_length := rfl
  ssid_le := by decide

def labPayload : List UInt8 := RESP_OK_LEGACY :: (apBytes [lab] ++ replyPad (RESP_OK_LEGACY :: apBytes [lab]).length)

theorem wifi_scan_exact_lab :
    (∃ out s' x,
      Exec (logged Exchange.next (alone anyBus)) (⟨legacyCtx, ()⟩, .fresh) (wifiScan board 2 0) (some out) (s', x) ∧
      out.1 = .ok () ∧ ∃ answer, x.reply = some answer ∧ answer.status = .ok ()) ∧
    ∃ s', Exec (alone (scanned (Answer.judged scanReply PROTOCOL_MAJOR_LEGACY [0x10, 0, 24, 0] labPayload)))
      ⟨legacyCtx, ()⟩ (wifiScan board 2 0) (some (.ok (), some [lab.record])) s' := by
  have hexact := wifi_scan_exact board 2 0
  constructor
  · have hok : ((solo (stubborn (Answer.judged scanReply PROTOCOL_MAJOR_LEGACY [0x10, 0, 24, 0] labPayload))
        (wifiScan board 2 0) ⟨legacyCtx, ()⟩).map fun out => out.1.1) = some (.ok ()) := by decide +kernel
    obtain ⟨⟨out, s''⟩, hsolo, hstatus⟩ := Option.map_eq_some_iff.mp hok
    obtain ⟨s', hrun⟩ := exec_stubborn _ (congrArg (Option.map Prod.fst) hsolo)
    obtain ⟨x, hlogged⟩ := exec_logged hrun Exchange.fresh
    exact ⟨out, s', x, hlogged, hstatus, (hexact.1 _ _ _ _ _ _ hlogged).2.1.mp hstatus⟩
  · have hends := hexact.2.2 [lab] PROTOCOL_MAJOR_LEGACY [0x10, 0, 24, 0] labPayload (.legacy _ (by decide))
      (by decide) (by decide) ⟨legacyCtx, ()⟩ ⟨rfl, rfl, rfl⟩
    obtain ⟨out, s', hrun⟩ := exec_of_twp hends
    obtain rfl := twp_sound hends hrun
    exact ⟨s', hrun⟩

end AlpSdk.Cc3501e
