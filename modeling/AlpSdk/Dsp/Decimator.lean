import AlpSdk.Library.Fir
import AlpSdk.Status
import Mathlib.Data.List.FinRange

namespace AlpSdk.Dsp

open Library

abbrev TAPS : ℕ := 135

abbrev MAX_CHANNELS : ℕ := 2

abbrev Taps : Type := Vector Int16 TAPS

def coeffsR2 : Taps :=
  #v[
    -1, 0, 2, 0, -3, 0, 5, 0, -7, 0, 9, 0, -13, 0, 17, 0, -22, 0, 28, 0, -36, 0, 45, 0, -55, 0,
    67, 0, -81, 0, 97, 0, -116, 0, 138, 0, -162, 0, 191, 0, -224, 0, 262, 0, -307, 0, 359, 0,
    -421, 0, 497, 0, -590, 0, 710, 0, -869, 0, 1093, 0, -1438, 0, 2049, 0, -3454, 0, 10423, 16382,
    10423, 0, -3454, 0, 2049, 0, -1438, 0, 1093, 0, -869, 0, 710, 0, -590, 0, 497, 0, -421, 0,
    359, 0, -307, 0, 262, 0, -224, 0, 191, 0, -162, 0, 138, 0, -116, 0, 97, 0, -81, 0, 67, 0, -55,
    0, 45, 0, -36, 0, 28, 0, -22, 0, 17, 0, -13, 0, 9, 0, -7, 0, 5, 0, -3, 0, 2, 0, -1]

def coeffsR3 : Taps :=
  #v[
    1, 0, -2, -2, 0, 3, 4, 0, -6, -7, 0, 10, 11, 0, -15, -17, 0, 22, 25, 0, -31, -35, 0, 43, 47,
    0, -58, -64, 0, 77, 84, 0, -100, -109, 0, 129, 141, 0, -165, -179, 0, 210, 227, 0, -266, -287,
    0, 337, 365, 0, -430, -469, 0, 560, 615, 0, -752, -840, 0, 1078, 1246, 0, -1774, -2232, 0,
    4504, 9027, 10916, 9027, 4504, 0, -2232, -1774, 0, 1246, 1078, 0, -840, -752, 0, 615, 560, 0,
    -469, -430, 0, 365, 337, 0, -287, -266, 0, 227, 210, 0, -179, -165, 0, 141, 129, 0, -109,
    -100, 0, 84, 77, 0, -64, -58, 0, 47, 43, 0, -35, -31, 0, 25, 22, 0, -17, -15, 0, 11, 10, 0,
    -7, -6, 0, 4, 3, 0, -2, -2, 0, 1]

def coeffsR4 : Taps :=
  #v[
    1, 1, 1, 0, -2, -4, -3, 0, 5, 8, 7, 0, -9, -15, -12, 0, 16, 25, 20, 0, -25, -40, -31, 0, 39,
    61, 47, 0, -57, -89, -69, 0, 82, 126, 97, 0, -115, -176, -135, 0, 158, 242, 185, 0, -217,
    -332, -254, 0, 298, 457, 351, 0, -417, -646, -502, 0, 614, 970, 773, 0, -1017, -1694, -1449,
    0, 2443, 5200, 7370, 8194, 7370, 5200, 2443, 0, -1449, -1694, -1017, 0, 773, 970, 614, 0,
    -502, -646, -417, 0, 351, 457, 298, 0, -254, -332, -217, 0, 185, 242, 158, 0, -135, -176,
    -115, 0, 97, 126, 82, 0, -69, -89, -57, 0, 47, 61, 39, 0, -31, -40, -25, 0, 20, 25, 16, 0,
    -12, -15, -9, 0, 7, 8, 5, 0, -3, -4, -2, 0, 1, 1, 1]

def coeffsR6 : Taps :=
  #v[
    0, 0, 1, 2, 3, 3, 2, 0, -3, -7, -9, -10, -6, 0, 9, 17, 22, 22, 14, 0, -18, -35, -45, -43, -27,
    0, 33, 64, 81, 77, 49, 0, -58, -109, -138, -129, -81, 0, 95, 179, 224, 210, 131, 0, -153,
    -287, -359, -337, -211, 0, 248, 468, 590, 560, 355, 0, -434, -840, -1093, -1078, -719, 0,
    1024, 2232, 3454, 4503, 5211, 5460, 5211, 4503, 3454, 2232, 1024, 0, -719, -1078, -1093, -840,
    -434, 0, 355, 560, 590, 468, 248, 0, -211, -337, -359, -287, -153, 0, 131, 210, 224, 179, 95,
    0, -81, -129, -138, -109, -58, 0, 49, 77, 81, 64, 33, 0, -27, -43, -45, -35, -18, 0, 14, 22,
    22, 17, 9, 0, -6, -10, -9, -7, -3, 0, 2, 3, 3, 2, 1, 0, 0]

def decimLookup (ratio : UInt32) : Option Taps :=
  if ratio = 2 then some coeffsR2
  else if ratio = 3 then some coeffsR3
  else if ratio = 4 then some coeffsR4
  else if ratio = 6 then some coeffsR6
  else none

-- `alp_dsp_decimator_t`. No table is the NULL pointer of a zeroed struct.
structure Decimator where
  history : Vector (Vector Int16 (2 * TAPS)) MAX_CHANNELS
  writeIdx : Vector (Fin TAPS) MAX_CHANNELS
  coeffs : Option Taps
  ratio : UInt32
  phase : UInt32
  nChannels : UInt8

-- What `memset` leaves.
def Decimator.zeroed : Decimator where
  history := Vector.replicate MAX_CHANNELS (Vector.replicate (2 * TAPS) 0)
  writeIdx := Vector.replicate MAX_CHANNELS 0
  coeffs := none
  ratio := 0
  phase := 0
  nChannels := 0

def decimatorInit (dec : Decimator) (ratio : UInt32) (nChannels : UInt8) : Status × Decimator :=
  if nChannels = 0 ∨ nChannels > MAX_CHANNELS.toUInt8 then (.error .inval, dec)
  else
    match decimLookup ratio with
    | none => (.error .outOfRange, dec)
    | some coeffs =>
        (.ok (), { Decimator.zeroed with coeffs := some coeffs, ratio, nChannels })

def decimatorReset (dec : Decimator) : Status × Decimator :=
  if dec.coeffs = none ∨ dec.ratio = 0 then (.error .inval, dec)
  else
    (.ok (), { dec with
      history := Decimator.zeroed.history, writeIdx := Decimator.zeroed.writeIdx, phase := 0 })

-- The channels a loop `for (ch = 0; ch < n_ch; ch++)` visits.
def channels (nCh : UInt8) : List (Fin MAX_CHANNELS) :=
  (List.finRange MAX_CHANNELS).take nCh.toNat

-- One sample of the current input frame into the history of its channel.
def storeSample (dec : Decimator) (ch : Fin MAX_CHANNELS) (sample : Int16) : Decimator :=
  { dec with
    history := dec.history.set ch (Fir.store dec.history[ch] dec.writeIdx[ch] sample)
    writeIdx := dec.writeIdx.set ch (Fir.advance dec.writeIdx[ch]) }

-- A pair of mirrored taps: the samples add in `int`, the product in 64 bits.
def tapPair (coeffs : Taps) (window : Fin TAPS → Int16) (j : Fin (TAPS / 2)) : Int64 :=
  have hj := Nat.lt_of_lt_of_le j.isLt (Nat.div_le_self TAPS 2)
  coeffs[j.val].toInt64 *
    ((window ⟨j.val, hj⟩).toInt32 + (window (Fin.rev ⟨j.val, hj⟩)).toInt32).toInt64

-- The folded tap sum of one channel, from the centre tap on.
def tapSum (coeffs : Taps) (window : Fin TAPS → Int16) : Int64 :=
  (List.finRange (TAPS / 2)).foldl (fun acc j => acc + tapPair coeffs window j)
    (coeffs[TAPS / 2].toInt64 * (window ⟨TAPS / 2, by decide⟩).toInt64)

-- Back from Q15, saturated.
def rescale (acc : Int64) : Int16 :=
  let y := acc >>> 15
  if y > Int16.maxValue.toInt64 then Int16.maxValue
  else if y < Int16.minValue.toInt64 then Int16.minValue
  else y.toInt16

-- What the frame loop carries: the decimator, the output buffer and `produced`.
structure Loop where
  dec : Decimator
  out : List Int16
  produced : ℕ

def emitFrame (coeffs : Taps) (nCh : UInt8) (s : Loop) : Loop :=
  { s with
    out := (channels nCh).foldl
      (fun out ch =>
        out.set (s.produced * nCh.toNat + ch.val)
          (rescale (tapSum coeffs (Fir.window s.dec.history[ch] s.dec.writeIdx[ch])))) s.out
    produced := s.produced + 1 }

-- One pass of the frame loop.
def processFrame (coeffs : Taps) (nCh : UInt8) (input : List Int16) (s : Loop) (i : ℕ) : Loop :=
  let stored := (channels nCh).foldl
    (fun dec ch => storeSample dec ch (input.getD (i * nCh.toNat + ch.val) 0)) s.dec
  let dec := { stored with phase := stored.phase + 1 }
  if dec.phase < dec.ratio then { s with dec }
  else emitFrame coeffs nCh { s with dec := { dec with phase := 0 } }

-- What `*out_frames` receives, the decimator and the output buffer a call leaves. `sizeBits`
-- is the width of `size_t`; the pointers are not NULL.
def decimatorProcess (sizeBits : ℕ) (dec : Decimator) (input : List Int16) (inFrames : ℕ)
    (out : List Int16) (outCap : ℕ) : Except AlpError ℕ × Decimator × List Int16 :=
  match dec.coeffs with
  | none => (.error .inval, dec, out)
  | some coeffs =>
      if dec.ratio = 0 then (.error .inval, dec, out)
      else
        let exactOut := (dec.phase.toNat + inFrames) % 2 ^ sizeBits / dec.ratio.toNat
        if outCap < exactOut then (.error .outOfRange, dec, out)
        else
          let last := (List.range inFrames).foldl
            (processFrame coeffs dec.nChannels input) ⟨dec, out, 0⟩
          (.ok last.produced, last.dec, last.out)

end AlpSdk.Dsp
