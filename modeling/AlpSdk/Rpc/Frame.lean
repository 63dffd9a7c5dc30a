import AlpSdk.Rpc.Wire
import Mathlib.Algebra.Group.Nat.Defs

-- The frame builder and the frame parser in the widths of the machine.
namespace AlpSdk.Rpc

-- The two `errno` numbers that the builder returns, negated, in its `int`.
def EINVAL : Int := 22
def ENOMEM : Int := 12

theorem neg_EINVAL : -EINVAL < 0 := by decide

theorem neg_ENOMEM : -ENOMEM < 0 := by decide

def INT_MAX : Nat := 2 ^ 31 - 1

section Width

variable {w : Nat}

-- `alp_rpc_frame_size` over a `size_t` of `w` bits.
def frameSize (methodLen payloadLen cap : BitVec w) : Option (BitVec w) :=
  if methodLen ≥ cap then none
  else
    let avail := cap - methodLen - 1#w
    if payloadLen > avail then none else some (methodLen + 1#w + payloadLen)

-- No step of it wraps.
theorem frameSize_toNat (hw : 0 < w) (methodLen payloadLen cap : BitVec w) :
    (frameSize methodLen payloadLen cap).map BitVec.toNat =
      alpRpcFrameSize methodLen.toNat payloadLen.toNat cap.toNat := by
  have hone : (1#w).toNat = 1 := by
    rw [BitVec.toNat_ofNat]
    exact Nat.mod_eq_of_lt (Nat.one_lt_two_pow (by omega))
  have hcap := cap.isLt
  unfold frameSize alpRpcFrameSize
  by_cases hroom : cap.toNat ≤ methodLen.toNat
  · rw [if_pos (BitVec.le_def.mpr hroom), if_pos hroom]
    rfl
  · rw [if_neg (mt BitVec.le_def.mp hroom), if_neg hroom]
    have hsub : (cap - methodLen).toNat = cap.toNat - methodLen.toNat :=
      BitVec.toNat_sub_of_le (BitVec.le_def.mpr (by omega))
    have havail : (cap - methodLen - 1#w).toNat = cap.toNat - methodLen.toNat - 1 := by
      rw [BitVec.toNat_sub_of_le (BitVec.le_def.mpr (by omega)), hsub, hone]
    by_cases hfits : cap.toNat - methodLen.toNat - 1 < payloadLen.toNat
    · rw [if_pos hfits]
      simp [BitVec.lt_def, havail, hfits]
    · rw [if_neg hfits]
      have htotal : (methodLen + 1#w + payloadLen).toNat = methodLen.toNat + 1 + payloadLen.toNat := by
        rw [BitVec.toNat_add, BitVec.toNat_add, hone, Nat.mod_add_mod]
        exact Nat.mod_eq_of_lt (by omega)
      simp [BitVec.lt_def, havail, hfits, htotal]

-- `frame_build` over the buffer `out`, all of whose bytes are its capacity: what it returns and what
-- it leaves in the buffer.
def frameBuildInto (w : Nat) (out : List UInt8) (method : CString) (payload : List UInt8) :
    Int × List UInt8 :=
  let methodLen := boundedStrlen method.bytes ALP_RPC_METHOD_MAX_LEN
  if methodLen = ALP_RPC_METHOD_MAX_LEN then (-EINVAL, out)
  else
    match frameSize (BitVec.ofNat w methodLen) (BitVec.ofNat w payload.length) (BitVec.ofNat w out.length) with
    | none => (-ENOMEM, out)
    | some total =>
        let frame := method.bytes.take methodLen ++ 0 :: payload
        -- the cast to `int` keeps the low 32 bits
        ((total.setWidth 32).toInt, frame ++ out.drop frame.length)

end Width

-- The result of `frameBuild`, in the buffer and in an `int`.
def Reported (out : List UInt8) : Except Errno (List UInt8) → Int × List UInt8 → Prop
  | .error _, result => result.1 < 0 ∧ result.2 = out
  | .ok frame, result => result = ((BitVec.ofNat 32 frame.length).toInt, frame ++ out.drop frame.length)

theorem boundedStrlen_eq_min {s : List UInt8} (h : 0 ∉ s) (cap : Nat) : boundedStrlen s cap = min s.length cap := by
  induction s generalizing cap with
  | nil => cases cap <;> simp [boundedStrlen]
  | cons b s ih =>
      rw [List.mem_cons, not_or] at h
      obtain ⟨hb, hs⟩ := h
      cases cap with
      | zero => simp [boundedStrlen]
      | succ cap =>
          rw [boundedStrlen, if_neg (Ne.symm hb), ih hs, List.length_cons]
          omega

theorem frameBuildInto_reported {w : Nat} (hw : 32 ≤ w) {out payload : List UInt8} (method : CString)
    (hout : out.length < 2 ^ w) (hpayload : payload.length < 2 ^ w) :
    Reported out (frameBuild out.length method payload) (frameBuildInto w out method payload) := by
  have hlen := boundedStrlen_eq_min method.noNul ALP_RPC_METHOD_MAX_LEN
  unfold frameBuildInto frameBuild
  simp only
  by_cases hlong : boundedStrlen method.bytes ALP_RPC_METHOD_MAX_LEN = ALP_RPC_METHOD_MAX_LEN
  · rw [if_pos hlong, if_pos hlong]
    exact ⟨neg_EINVAL, rfl⟩
  · rw [if_neg hlong, if_neg hlong]
    have hpow : 2 ^ 32 ≤ 2 ^ w := Nat.pow_le_pow_right (by decide) hw
    have hmethod : boundedStrlen method.bytes ALP_RPC_METHOD_MAX_LEN < 2 ^ w := by
      rw [hlen]
      exact lt_of_le_of_lt (Nat.min_le_right _ _) (lt_of_lt_of_le (by decide) hpow)
    have hsize := frameSize_toNat (by omega) (BitVec.ofNat w (boundedStrlen method.bytes ALP_RPC_METHOD_MAX_LEN))
      (BitVec.ofNat w payload.length) (BitVec.ofNat w out.length)
    simp only [BitVec.toNat_ofNat, Nat.mod_eq_of_lt hmethod, Nat.mod_eq_of_lt hpayload,
      Nat.mod_eq_of_lt hout] at hsize
    rw [← hsize]
    cases hframe : frameSize (BitVec.ofNat w (boundedStrlen method.bytes ALP_RPC_METHOD_MAX_LEN))
        (BitVec.ofNat w payload.length) (BitVec.ofNat w out.length) with
    | none => exact ⟨neg_ENOMEM, rfl⟩
    | some total =>
        rw [hframe] at hsize
        have htotal : total.toNat = boundedStrlen method.bytes ALP_RPC_METHOD_MAX_LEN + 1 + payload.length := by
          simp only [Option.map_some, alpRpcFrameSize] at hsize
          split at hsize
          · cases hsize
          · split at hsize
            · cases hsize
            · exact Option.some.inj hsize
        have hcast : total.setWidth 32 = BitVec.ofNat 32 total.toNat := by
          apply BitVec.eq_of_toNat_eq
          rw [BitVec.toNat_setWidth, BitVec.toNat_ofNat]
        have hframeLen : (method.bytes.take (boundedStrlen method.bytes ALP_RPC_METHOD_MAX_LEN) ++
            0 :: payload).length = total.toNat := by
          simp only [List.length_append, List.length_take, List.length_cons]
          omega
        simp only [Option.map_some, Reported]
        rw [hcast, hframeLen]

-- The wire format of a frame.
def frame (method : CString) (payload : List UInt8) : List UInt8 := method.bytes ++ 0 :: payload

@[simp] theorem length_frame (method : CString) (payload : List UInt8) :
    (frame method payload).length = method.bytes.length + 1 + payload.length := by
  simp only [frame, List.length_append, List.length_cons]
  omega

theorem frameBuild_fits {cap : Nat} {method : CString} {payload : List UInt8}
    (hmethod : method.bytes.length < ALP_RPC_METHOD_MAX_LEN)
    (hcap : method.bytes.length + 1 + payload.length ≤ cap) :
    frameBuild cap method payload = .ok (frame method payload) := by
  have hlen : boundedStrlen method.bytes ALP_RPC_METHOD_MAX_LEN = method.bytes.length := by
    rw [boundedStrlen_eq_min method.noNul]
    exact Nat.min_eq_left hmethod.le
  have hsize : alpRpcFrameSize method.bytes.length payload.length cap =
      some (method.bytes.length + 1 + payload.length) := by
    rw [alpRpcFrameSize, if_neg (by omega), if_neg (by omega)]
  simp only [frameBuild, hlen, if_neg hmethod.ne, hsize, List.take_length, frame]

theorem frameBuild_refuses {cap : Nat} {method : CString} {payload : List UInt8}
    (h : ¬ (method.bytes.length < ALP_RPC_METHOD_MAX_LEN ∧ method.bytes.length + 1 + payload.length ≤ cap)) :
    frameBuild cap method payload = .error .EINVAL ∨ frameBuild cap method payload = .error .ENOMEM := by
  have hlen := boundedStrlen_eq_min method.noNul ALP_RPC_METHOD_MAX_LEN
  by_cases hlong : boundedStrlen method.bytes ALP_RPC_METHOD_MAX_LEN = ALP_RPC_METHOD_MAX_LEN
  · exact .inl (if_pos hlong)
  · right
    have hsize : alpRpcFrameSize (boundedStrlen method.bytes ALP_RPC_METHOD_MAX_LEN) payload.length cap = none := by
      unfold alpRpcFrameSize
      split
      · rfl
      · rw [if_pos (by omega)]
    simp only [frameBuild, if_neg hlong, hsize]

theorem frameBuildInto_fits {w : Nat} (hw : 32 ≤ w) {out payload : List UInt8} {method : CString}
    (hout : out.length < 2 ^ w) (hpayload : payload.length < 2 ^ w)
    (hmethod : method.bytes.length < ALP_RPC_METHOD_MAX_LEN)
    (hcap : (frame method payload).length ≤ out.length) :
    frameBuildInto w out method payload =
      ((BitVec.ofNat 32 (frame method payload).length).toInt,
        frame method payload ++ out.drop (frame method payload).length) := by
  have h := frameBuildInto_reported hw method hout hpayload
  rw [length_frame] at hcap
  rwa [frameBuild_fits hmethod hcap] at h

theorem frameBuildInto_refuses {w : Nat} (hw : 32 ≤ w) {out payload : List UInt8} {method : CString}
    (hout : out.length < 2 ^ w) (hpayload : payload.length < 2 ^ w)
    (hrefused : ¬ (method.bytes.length < ALP_RPC_METHOD_MAX_LEN ∧
      (frame method payload).length ≤ out.length)) :
    (frameBuildInto w out method payload).1 < 0 := by
  have h := frameBuildInto_reported hw method hout hpayload
  rw [length_frame] at hrefused
  rcases frameBuild_refuses hrefused with herr | herr
  · rw [herr] at h
    exact h.1
  · rw [herr] at h
    exact h.1

-- The scan of the parser stops at the terminator of the method.
theorem boundedStrlen_append {s : List UInt8} (h : 0 ∉ s) (rest : List UInt8) {cap : Nat} (hcap : s.length < cap) :
    boundedStrlen (s ++ 0 :: rest) cap = s.length := by
  induction s generalizing cap with
  | nil =>
      cases cap with
      | zero => exact absurd hcap (Nat.not_lt_zero _)
      | succ cap => rfl
  | cons b s ih =>
      rw [List.mem_cons, not_or] at h
      obtain ⟨hb, hs⟩ := h
      cases cap with
      | zero => exact absurd hcap (Nat.not_lt_zero _)
      | succ cap =>
          rw [List.length_cons] at hcap ⊢
          rw [List.cons_append, boundedStrlen, if_neg (Ne.symm hb), ih hs (by omega)]

-- Where the scan stops before its limit, inside the buffer, there stands a terminator.
theorem eq_of_boundedStrlen_lt {s : List UInt8} {cap : Nat} (hcap : cap ≤ s.length) (h : boundedStrlen s cap < cap) :
    s = s.takeWhile (· ≠ 0) ++ 0 :: s.drop (boundedStrlen s cap + 1) := by
  induction s generalizing cap with
  | nil =>
      rw [List.length_nil] at hcap
      omega
  | cons b s ih =>
      cases cap with
      | zero => exact absurd h (Nat.not_lt_zero _)
      | succ cap =>
          by_cases hb : b = 0
          · simp [boundedStrlen, hb]
          · rw [boundedStrlen, if_neg hb] at h ⊢
            have hrest := ih (by simpa using hcap) (by omega)
            rw [List.takeWhile_cons_of_pos (by simpa using hb), List.drop_succ_cons, List.cons_append, ← hrest]

theorem frameParse_frame {method : CString} (hmethod : method.bytes.length < ALP_RPC_METHOD_MAX_LEN)
    (payload : List UInt8) : frameParse (frame method payload) = some (method, payload) := by
  have hlength := length_frame method payload
  have hcap : method.bytes.length < min (frame method payload).length ALP_RPC_METHOD_MAX_LEN := by omega
  have hlen : boundedStrlen (frame method payload) (min (frame method payload).length ALP_RPC_METHOD_MAX_LEN) =
      method.bytes.length := boundedStrlen_append method.noNul payload hcap
  have hname : CString.ofBuffer (frame method payload) = method := by
    apply CString.ext
    have hall : ∀ b ∈ method.bytes, decide (b ≠ 0) = true := by
      intro b hb
      exact decide_eq_true fun h0 => method.noNul (h0 ▸ hb)
    change (method.bytes ++ 0 :: payload).takeWhile (· ≠ 0) = method.bytes
    rw [List.takeWhile_append_of_pos hall]
    simp
  have hrest : (frame method payload).drop (method.bytes.length + 1) = payload := by
    simp [frame, List.drop_append]
  unfold frameParse
  rw [if_neg (by omega)]
  simp only [hlen, hname, hrest]
  rw [if_neg (by omega)]

-- A byte string that is parsed is a frame.
theorem eq_frame_of_frameParse {data payload : List UInt8} {method : CString}
    (h : frameParse data = some (method, payload)) : data = frame method payload := by
  unfold frameParse at h
  split at h
  · cases h
  · simp only at h
    split at h
    · cases h
    next hne =>
        cases h
        have hle := boundedStrlen_le data (min data.length ALP_RPC_METHOD_MAX_LEN)
        exact eq_of_boundedStrlen_lt (Nat.min_le_left _ _) (Nat.lt_of_le_of_ne hle hne)

-- The builder refuses what it has to, and the frame it builds reads back as what went in; the parser
-- accepts frames only. A frame that fits is no longer than the `int` it is returned in can tell.
theorem frame_codec {w : Nat} (hw : 32 ≤ w) :
    (∀ (out payload : List UInt8) (method : CString), out.length < 2 ^ w → payload.length < 2 ^ w →
      (method.bytes.length + 1 + payload.length ≤ out.length →
        method.bytes.length + 1 + payload.length ≤ INT_MAX) →
      (0 ≤ (frameBuildInto w out method payload).1 ↔
        method.bytes.length < ALP_RPC_METHOD_MAX_LEN ∧
          method.bytes.length + 1 + payload.length ≤ out.length) ∧
      (0 ≤ (frameBuildInto w out method payload).1 →
        frameParse ((frameBuildInto w out method payload).2.take (frameBuildInto w out method payload).1.toNat) =
          some (method, payload))) ∧
    (∀ (data payload : List UInt8) (method : CString), frameParse data = some (method, payload) →
      data = method.bytes ++ 0 :: payload ∧ method.bytes.length < ALP_RPC_METHOD_MAX_LEN) ∧
    ∀ (data data' : List UInt8) (parsed : CString × List UInt8),
      frameParse data = some parsed → frameParse data' = some parsed → data = data' := by
  refine ⟨fun out payload method hout hpayload hint => ?_, fun data payload method h => ?_,
    fun data data' parsed h h' => ?_⟩
  · by_cases hfits : method.bytes.length < ALP_RPC_METHOD_MAX_LEN ∧
        method.bytes.length + 1 + payload.length ≤ out.length
    · have hlength := length_frame method payload
      have hbuilt := frameBuildInto_fits hw hout hpayload hfits.1 (by omega)
      have hshort : (frame method payload).length ≤ INT_MAX := hlength ▸ hint hfits.2
      have hret : (BitVec.ofNat 32 (frame method payload).length).toInt = (frame method payload).length := by
        simp only [INT_MAX] at hshort
        rw [BitVec.toInt_ofNat']
        exact Int.bmod_eq_of_le (by omega) (by omega)
      rw [hbuilt, hret]
      refine ⟨⟨fun _ => hfits, fun _ => Int.natCast_nonneg _⟩, fun _ => ?_⟩
      rw [Int.toNat_natCast, List.take_left]
      exact frameParse_frame hfits.1 payload
    · have hneg := frameBuildInto_refuses hw hout hpayload (by rwa [length_frame])
      exact ⟨⟨fun h => absurd h (Int.not_le.mpr hneg), fun h => absurd h hfits⟩, fun h => absurd h (Int.not_le.mpr hneg)⟩
  · exact ⟨eq_frame_of_frameParse h, length_method_lt h⟩
  · rw [eq_frame_of_frameParse h, eq_frame_of_frameParse h']

theorem frame_codec_ping :
    (0 ≤ (frameBuildInto 64 (List.replicate 8 0) ⟨[0x70, 0x67], by decide⟩ [1, 2, 3]).1 ↔
      2 < ALP_RPC_METHOD_MAX_LEN ∧ 2 + 1 + 3 ≤ 8) ∧
    [0x70, 0x67, 0, 1] = [0x70, 0x67] ++ 0 :: [(1 : UInt8)] :=
  ⟨((frame_codec (by decide : 32 ≤ 64)).1 (List.replicate 8 0) [1, 2, 3] ⟨[0x70, 0x67], by decide⟩ (by decide)
      (by decide) (by decide)).1,
    ((frame_codec (by decide : 32 ≤ 64)).2.1 [0x70, 0x67, 0, 1] [1] ⟨[0x70, 0x67], by decide⟩ (by decide)).1⟩

-- A frame of 2^31 bytes is built, and the `int` that tells its length is negative.
theorem frameBuildInto_long {out payload : List UInt8} (hout : out.length = 2 ^ 31)
    (hpayload : payload.length = 2 ^ 31 - 1) : (frameBuildInto 64 out ⟨[], by decide⟩ payload).1 < 0 := by
  have hlength := length_frame ⟨[], by decide⟩ payload
  simp only [List.length_nil] at hlength
  have hsize : (frame ⟨[], by decide⟩ payload).length = 2 ^ 31 := by omega
  have hcast : (BitVec.ofNat 32 (2 ^ 31)).toInt < 0 := by decide
  rw [frameBuildInto_fits (by decide) (by omega) (by omega) (by decide) (by omega), hsize]
  exact hcast

theorem long_frame_refused :
    ¬ ∀ (out payload : List UInt8) (method : CString), out.length < 2 ^ 64 → payload.length < 2 ^ 64 →
      (0 ≤ (frameBuildInto 64 out method payload).1 ↔
        method.bytes.length < ALP_RPC_METHOD_MAX_LEN ∧
          method.bytes.length + 1 + payload.length ≤ out.length) := by
  intro hall
  have hout : (List.replicate (2 ^ 31) (0 : UInt8)).length = 2 ^ 31 := List.length_replicate
  have hpayload : (List.replicate (2 ^ 31 - 1) (0 : UInt8)).length = 2 ^ 31 - 1 := List.length_replicate
  have hfits := (hall _ _ ⟨[], by decide⟩ (by rw [hout]; decide) (by rw [hpayload]; decide)).mpr
    ⟨by decide, by rw [hout, hpayload]; decide⟩
  exact absurd (frameBuildInto_long hout hpayload) (Int.not_lt.mpr hfits)

end AlpSdk.Rpc
