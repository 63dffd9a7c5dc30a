import AlpSdk.Dsp.Decimator
import Mathlib.Algebra.BigOperators.Fin
import Mathlib.Algebra.Order.Ring.Abs
import Mathlib.Data.List.GetD

namespace AlpSdk.Dsp

open Library

-- What the decimator computes, over a whole stream: samples before the start are zero, each
-- output is the convolution at the last input frame of its group, rescaled and saturated.
def sampleAt (x : ℕ → Int16) (i : ℤ) : ℤ :=
  if i < 0 then 0 else (x i.toNat).toInt

def saturate (y : ℤ) : ℤ :=
  max (-32768) (min y 32767)

def decimated (coeffs : Taps) (ratio : UInt32) (x : ℕ → Int16) (k : ℕ) : ℤ :=
  saturate ((∑ j : Fin TAPS,
    coeffs[j.val].toInt * sampleAt x (ratio.toNat * (k + 1) - TAPS + j.val)) / 32768)

-- One channel of an interleaved stream.
def channelOf (nCh : UInt8) (x : List Int16) (ch : Fin MAX_CHANNELS) (t : ℕ) : Int16 :=
  x.getD (t * nCh.toNat + ch.val) 0

def expected (coeffs : Taps) (ratio : UInt32) (nCh : UInt8) (x : List Int16) : List ℤ :=
  (List.range (x.length / nCh.toNat / ratio.toNat)).flatMap fun k =>
    (channels nCh).map fun ch => decimated coeffs ratio (channelOf nCh x ch) k

-- An object is smaller than what `size_t` counts, and `size_t` has 16 bits at least.
structure Platform where
  sizeBits : ℕ
  wide : 16 ≤ sizeBits

-- A call of `alp_dsp_decimator_process` with buffers of the sizes it is told.
structure Call (p : Platform) (nCh : UInt8) where
  input : List Int16
  inFrames : ℕ
  out : List Int16
  outCap : ℕ
  input_length : input.length = inFrames * nCh.toNat
  input_fits : 2 * input.length < 2 ^ p.sizeBits
  out_length : out.length = outCap * nCh.toNat

variable {p : Platform} {ratio : UInt32} {nCh : UInt8}

def Call.perform (c : Call p nCh) (dec : Decimator) :
    Except AlpError ℕ × Decimator × List Int16 :=
  decimatorProcess p.sizeBits dec c.input c.inFrames c.out c.outCap

-- The input of the accepted calls and the frames they report, each concatenated.
def stream (dec : Decimator) : List (Call p nCh) → List Int16 × List Int16
  | [] => ([], [])
  | c :: calls =>
      match c.perform dec with
      | (.ok produced, dec, out) =>
          let (x, y) := stream dec calls
          (c.input ++ x, out.take (produced * nCh.toNat) ++ y)
      | (.error _, dec, _) => stream dec calls

-- The states of a decimator that was initialised for `ratio` and `nCh`.
inductive Configured (p : Platform) (ratio : UInt32) (nCh : UInt8) : Decimator → Prop where
  | init {before dec : Decimator} (h : decimatorInit before ratio nCh = (.ok (), dec)) :
      Configured p ratio nCh dec
  | process {dec : Decimator} (h : Configured p ratio nCh dec) (c : Call p nCh) :
      Configured p ratio nCh (c.perform dec).2.1
  | reset {dec : Decimator} (h : Configured p ratio nCh dec) :
      Configured p ratio nCh (decimatorReset dec).2

inductive Fresh (p : Platform) (ratio : UInt32) (nCh : UInt8) : Decimator → Prop where
  | init {before dec : Decimator} (h : decimatorInit before ratio nCh = (.ok (), dec)) :
      Fresh p ratio nCh dec
  | reset {dec : Decimator} (h : Configured p ratio nCh dec) :
      Fresh p ratio nCh (decimatorReset dec).2

section Taps

theorem decimLookup_ratio {coeffs : Taps} (h : decimLookup ratio = some coeffs) :
    2 ≤ ratio.toNat ∧ ratio.toNat ≤ 6 := by
  unfold decimLookup at h
  split_ifs at h <;> subst_vars <;> decide

theorem decimLookup_symmetric {coeffs : Taps} (h : decimLookup ratio = some coeffs)
    (j : Fin TAPS) : coeffs[(Fin.rev j).val] = coeffs[j.val] := by
  have h2 : ∀ j : Fin TAPS, coeffsR2[(Fin.rev j).val] = coeffsR2[j.val] := by decide +kernel
  have h3 : ∀ j : Fin TAPS, coeffsR3[(Fin.rev j).val] = coeffsR3[j.val] := by decide +kernel
  have h4 : ∀ j : Fin TAPS, coeffsR4[(Fin.rev j).val] = coeffsR4[j.val] := by decide +kernel
  have h6 : ∀ j : Fin TAPS, coeffsR6[(Fin.rev j).val] = coeffsR6[j.val] := by decide +kernel
  unfold decimLookup at h
  split_ifs at h <;> cases h
  · exact h2 j
  · exact h3 j
  · exact h4 j
  · exact h6 j

theorem int16_abs_le (x : Int16) : |x.toInt| ≤ 32768 := by
  have hlo := x.le_toInt
  have hhi := x.toInt_lt
  rw [abs_le]
  omega

theorem product_abs_le {c w : ℤ} {bound : ℤ} (hc : |c| ≤ 32768) (hw : |w| ≤ bound) :
    |c * w| ≤ 32768 * bound := by
  rw [abs_mul]
  exact mul_le_mul hc hw (abs_nonneg _) (by norm_num)

theorem toInt64_mul (c : Int16) (w : Int64) (hw : |w.toInt| ≤ 65536) :
    (c.toInt64 * w).toInt = c.toInt * w.toInt := by
  have hprod := abs_le.mp (product_abs_le (int16_abs_le c) hw)
  rw [Int64.toInt_mul, Int16.toInt_toInt64]
  apply Int.bmod_eq_of_le <;> omega

theorem pair_toInt (a b : Int16) : (a.toInt32 + b.toInt32).toInt = a.toInt + b.toInt := by
  have ha := abs_le.mp (int16_abs_le a)
  have hb := abs_le.mp (int16_abs_le b)
  rw [Int32.toInt_add, Int16.toInt_toInt32, Int16.toInt_toInt32]
  apply Int.bmod_eq_of_le <;> omega

theorem tapPair_toInt (coeffs : Taps) (window : Fin TAPS → Int16) (j : Fin (TAPS / 2))
    (hj : j.val < TAPS) :
    (tapPair coeffs window j).toInt =
      coeffs[j.val].toInt * ((window ⟨j.val, hj⟩).toInt + (window (Fin.rev ⟨j.val, hj⟩)).toInt) := by
  have hsum := pair_toInt (window ⟨j.val, hj⟩) (window (Fin.rev ⟨j.val, hj⟩))
  have habs := abs_add_le (window ⟨j.val, hj⟩).toInt (window (Fin.rev ⟨j.val, hj⟩)).toInt
  have ha := int16_abs_le (window ⟨j.val, hj⟩)
  have hb := int16_abs_le (window (Fin.rev ⟨j.val, hj⟩))
  unfold tapPair
  rw [toInt64_mul _ _ (by rw [Int32.toInt_toInt64, hsum]; omega), Int32.toInt_toInt64, hsum]

theorem tapPair_abs_le (coeffs : Taps) (window : Fin TAPS → Int16) (j : Fin (TAPS / 2)) :
    |(tapPair coeffs window j).toInt| ≤ 32768 * 65536 := by
  have hj := Nat.lt_of_lt_of_le j.isLt (Nat.div_le_self TAPS 2)
  rw [tapPair_toInt coeffs window j hj]
  apply product_abs_le (int16_abs_le _)
  have habs := abs_add_le (window ⟨j.val, hj⟩).toInt (window (Fin.rev ⟨j.val, hj⟩)).toInt
  have ha := int16_abs_le (window ⟨j.val, hj⟩)
  have hb := int16_abs_le (window (Fin.rev ⟨j.val, hj⟩))
  omega

-- The folded sum in machine arithmetic is the plain convolution: the table is symmetric and
-- no partial sum leaves 64 bits.
theorem tapSum_toInt {coeffs : Taps} (hsym : ∀ j : Fin TAPS, coeffs[(Fin.rev j).val] = coeffs[j.val])
    (window : Fin TAPS → Int16) :
    (tapSum coeffs window).toInt = ∑ j : Fin TAPS, coeffs[j.val].toInt * (window j).toInt := by
  let c : ℕ → ℤ := fun j => if h : j < TAPS then coeffs[j].toInt else 0
  let w : ℕ → ℤ := fun j => if h : j < TAPS then (window ⟨j, h⟩).toInt else 0
  have hc : ∀ j : Fin TAPS, coeffs[j.val].toInt = c j.val := fun j => by simp [c, j.isLt]
  have hw : ∀ j : Fin TAPS, (window j).toInt = w j.val := fun j => by simp [w, j.isLt]
  have hmiddle := int16_abs_le (window ⟨TAPS / 2, by decide⟩)
  have hcentre : (coeffs[TAPS / 2].toInt64 * (window ⟨TAPS / 2, by decide⟩).toInt64).toInt =
      c (TAPS / 2) * w (TAPS / 2) := by
    rw [toInt64_mul _ _ (by rw [Int16.toInt_toInt64]; omega), Int16.toInt_toInt64]
    exact congrArg₂ (· * ·) (hc ⟨TAPS / 2, by decide⟩) (hw ⟨TAPS / 2, by decide⟩)
  have hcentreAbs : |(coeffs[TAPS / 2].toInt64 * (window ⟨TAPS / 2, by decide⟩).toInt64).toInt| ≤
      32768 * 32768 := by
    rw [toInt64_mul _ _ (by rw [Int16.toInt_toInt64]; omega), Int16.toInt_toInt64]
    exact product_abs_le (int16_abs_le _) hmiddle
  have hfold := Fir.folded_sum c w (TAPS / 2) (by
    intro j hj
    have hlt : j < TAPS := Nat.lt_of_lt_of_le hj (Nat.div_le_self TAPS 2)
    have hrev : (Fin.rev (⟨j, hlt⟩ : Fin TAPS)).val = 2 * (TAPS / 2) - j := by
      simp only [Fin.val_rev, TAPS]
      omega
    rw [← hrev, ← hc (Fin.rev ⟨j, hlt⟩), hsym ⟨j, hlt⟩]
    exact hc ⟨j, hlt⟩)
  have hlen : ((List.finRange (TAPS / 2)).length : ℤ) = 67 := by rw [List.length_finRange]; rfl
  unfold tapSum
  rw [Fir.accumulate_exact (tapPair coeffs window) (32768 * 65536) _
    (fun j _ => tapPair_abs_le coeffs window j) _
    (by rw [hlen]; exact lt_of_le_of_lt (add_le_add_left hcentreAbs _) (by omega)), hcentre]
  have hpairs : ((List.finRange (TAPS / 2)).map fun j => (tapPair coeffs window j).toInt).sum =
      ∑ j ∈ Finset.range (TAPS / 2), c j * (w j + w (2 * (TAPS / 2) - j)) := by
    rw [← Fin.sum_univ_def, Finset.sum_range]
    apply Finset.sum_congr rfl
    intro j _
    have hj := Nat.lt_of_lt_of_le j.isLt (Nat.div_le_self TAPS 2)
    have hrev : (Fin.rev (⟨j.val, hj⟩ : Fin TAPS)).val = 2 * (TAPS / 2) - j.val := by
      simp only [Fin.val_rev, TAPS]
      omega
    rw [tapPair_toInt coeffs window j hj, hc ⟨j.val, hj⟩, hw, hw, hrev]
  rw [hpairs, ← hfold, Finset.sum_range]
  apply Finset.sum_congr rfl
  intro j _
  rw [hc j, hw j]

theorem shift_toInt (acc : Int64) : (acc >>> 15).toInt = acc.toInt / 32768 := by
  have h : (acc >>> 15).toBitVec = acc.toBitVec.sshiftRight 15 := by
    rw [Int64.toBitVec_shiftRight]
    rfl
  rw [← Int64.toInt_toBitVec, h, BitVec.toInt_sshiftRight, Int.shiftRight_eq_div_pow]
  rfl

theorem rescale_toInt (acc : Int64) : (rescale acc).toInt = saturate (acc.toInt / 32768) := by
  unfold rescale saturate
  have hy := shift_toInt acc
  simp only [GT.gt, Int64.lt_iff_toInt_lt, Int16.toInt_toInt64, hy]
  have hmax : Int16.maxValue.toInt = 32767 := by decide
  have hmin : Int16.minValue.toInt = -32768 := by decide
  rw [hmax, hmin]
  by_cases hhigh : 32767 < acc.toInt / 32768
  · rw [if_pos hhigh, hmax]
    omega
  · rw [if_neg hhigh]
    by_cases hlow : acc.toInt / 32768 < -32768
    · rw [if_pos hlow, hmin]
      omega
    · rw [if_neg hlow, Int64.toInt_toInt16, hy]
      rw [Int.bmod_eq_of_le] <;> omega

end Taps

-- What the code puts out for group `k` of a channel that carries `x`.
def outputOf (coeffs : Taps) (ratio : UInt32) (x : ℕ → Int16) (k : ℕ) : Int16 :=
  rescale (tapSum coeffs fun j => Fir.delayed 0 x TAPS (ratio.toNat * (k + 1) + j.val))

theorem outputOf_toInt {coeffs : Taps} (h : decimLookup ratio = some coeffs) (x : ℕ → Int16)
    (k : ℕ) : (outputOf coeffs ratio x k).toInt = decimated coeffs ratio x k := by
  unfold outputOf decimated
  rw [rescale_toInt, tapSum_toInt (decimLookup_symmetric h)]
  have hindex : (ratio.toNat : ℤ) * (k + 1) = (ratio.toNat * (k + 1) : ℕ) := by push_cast; rfl
  rw [hindex]
  generalize ratio.toNat * (k + 1) = finish
  congr 2
  apply Finset.sum_congr rfl
  intro j _
  congr 1
  unfold Fir.delayed sampleAt
  by_cases hj : finish + j.val < TAPS
  · rw [if_pos hj, if_pos (by omega)]
    rfl
  · rw [if_neg hj, if_neg (by omega)]
    exact congrArg (fun i => (x i).toInt) (by omega)

section Frames

theorem channels_nodup : (channels nCh).Nodup :=
  (List.nodup_finRange MAX_CHANNELS).sublist (List.take_sublist _ _)

theorem channels_lt {ch : Fin MAX_CHANNELS} (h : ch ∈ channels nCh) : ch.val < nCh.toNat := by
  unfold channels at h
  obtain ⟨i, hi, hget⟩ := List.getElem_of_mem h
  rw [List.getElem_take, List.getElem_finRange] at hget
  rw [List.length_take] at hi
  rw [← hget]
  exact Nat.lt_of_lt_of_le hi (Nat.min_le_left _ _)

theorem channels_length (h : nCh.toNat ≤ MAX_CHANNELS) : (channels nCh).length = nCh.toNat := by
  unfold channels
  rw [List.length_take, List.length_finRange]
  omega

theorem channels_vals (h : nCh.toNat ≤ MAX_CHANNELS) (start : ℕ) :
    (channels nCh).map (fun ch => start + ch.val) = List.range' start nCh.toNat := by
  unfold channels
  have hcomp : (fun ch : Fin MAX_CHANNELS => start + ch.val) = (fun i => start + i) ∘ Fin.val := rfl
  rw [hcomp, ← List.map_map, List.map_take, List.map_coe_finRange_eq_range, List.take_range,
    Nat.min_eq_left h, List.range'_eq_map_range]

-- The histories while the channels still in `pending` wait for sample `t` of their stream.
structure Storing (X : Fin MAX_CHANNELS → ℕ → Int16) (t : ℕ) (nCh : UInt8)
    (pending : List (Fin MAX_CHANNELS)) (dec : Decimator) : Prop where
  waiting : ∀ ch ∈ pending, Fir.Holds 0 (X ch) t (dec.history.get ch) (dec.writeIdx.get ch)
  done : ∀ ch ∈ channels nCh, ch ∉ pending →
    Fir.Holds 0 (X ch) (t + 1) (dec.history.get ch) (dec.writeIdx.get ch)

theorem get_eq {α : Type} {n : ℕ} (v : Vector α n) (i : Fin n) : v.get i = v[i.val] := rfl

theorem Storing.sample {X : Fin MAX_CHANNELS → ℕ → Int16} {t : ℕ} {ch : Fin MAX_CHANNELS}
    {pending : List (Fin MAX_CHANNELS)} {dec : Decimator}
    (h : Storing X t nCh (ch :: pending) dec) (hfresh : ch ∉ pending) :
    Storing X t nCh pending (storeSample dec ch (X ch t)) where
  waiting := by
    intro other hother
    have hne : ch.val ≠ other.val := fun heq => hfresh (Fin.ext heq ▸ hother)
    simp only [storeSample, Fin.getElem_fin, get_eq, Vector.getElem_set, if_neg hne]
    exact h.waiting other (by simp [hother])
  done := by
    intro other hmem hother
    by_cases heq : ch = other
    · subst heq
      simp only [storeSample, Fin.getElem_fin, get_eq, Vector.getElem_set_self]
      exact (h.waiting ch (by simp)).store
    · have hne : ch.val ≠ other.val := fun hval => heq (Fin.ext hval)
      simp only [storeSample, Fin.getElem_fin, get_eq, Vector.getElem_set, if_neg hne]
      exact h.done other hmem (by simp [hother, Ne.symm heq])

theorem Storing.samples {X : Fin MAX_CHANNELS → ℕ → Int16} {t : ℕ}
    {pending : List (Fin MAX_CHANNELS)} (hnodup : pending.Nodup) {dec : Decimator}
    (h : Storing X t nCh pending dec) :
    Storing X t nCh [] (pending.foldl (fun dec ch => storeSample dec ch (X ch t)) dec) := by
  induction pending generalizing dec with
  | nil => exact h
  | cons ch pending ih =>
      have hparts := List.nodup_cons.mp hnodup
      exact ih hparts.2 (h.sample hparts.1)

-- Storing touches no field but the histories and their indices.
theorem storeSamples_frame (pending : List (Fin MAX_CHANNELS)) (sample : Fin MAX_CHANNELS → Int16)
    (dec : Decimator) :
    let stored := pending.foldl (fun dec ch => storeSample dec ch (sample ch)) dec
    stored.coeffs = dec.coeffs ∧ stored.ratio = dec.ratio ∧ stored.phase = dec.phase ∧
      stored.nChannels = dec.nChannels := by
  induction pending generalizing dec with
  | nil => exact ⟨rfl, rfl, rfl, rfl⟩
  | cons ch pending ih => exact ih (storeSample dec ch (sample ch))

-- A decimator that has taken in the first `t` frames of the streams `X`.
structure Tracks (coeffs : Taps) (ratio : UInt32) (nCh : UInt8)
    (X : Fin MAX_CHANNELS → ℕ → Int16) (t : ℕ) (dec : Decimator) : Prop where
  coeffs_eq : dec.coeffs = some coeffs
  ratio_eq : dec.ratio = ratio
  nChannels_eq : dec.nChannels = nCh
  phase_eq : dec.phase.toNat = t % ratio.toNat
  holds : ∀ ch ∈ channels nCh, Fir.Holds 0 (X ch) t dec.history[ch] dec.writeIdx[ch]

-- The frames `first`, …, `first + count - 1` of the output.
def outputs (coeffs : Taps) (ratio : UInt32) (nCh : UInt8) (X : Fin MAX_CHANNELS → ℕ → Int16)
    (first count : ℕ) : List Int16 :=
  (List.range' first count).flatMap fun k =>
    (channels nCh).map fun ch => outputOf coeffs ratio (X ch) k

theorem outputs_length (h : nCh.toNat ≤ MAX_CHANNELS) (coeffs : Taps)
    (X : Fin MAX_CHANNELS → ℕ → Int16) (first count : ℕ) :
    (outputs coeffs ratio nCh X first count).length = count * nCh.toNat := by
  unfold outputs
  simp [List.length_flatMap, channels_length h]

theorem outputs_succ (coeffs : Taps) (X : Fin MAX_CHANNELS → ℕ → Int16) (first count : ℕ) :
    outputs coeffs ratio nCh X first (count + 1) =
      outputs coeffs ratio nCh X first count ++
        (channels nCh).map fun ch => outputOf coeffs ratio (X ch) (first + count) := by
  unfold outputs
  rw [List.range'_1_concat]
  simp

theorem outputs_append (coeffs : Taps) (X : Fin MAX_CHANNELS → ℕ → Int16) (first m n : ℕ) :
    outputs coeffs ratio nCh X first m ++ outputs coeffs ratio nCh X (first + m) n =
      outputs coeffs ratio nCh X first (m + n) := by
  unfold outputs
  rw [← List.flatMap_append, List.range'_append_1]

theorem emitFrame_out {coeffs : Taps} {X : Fin MAX_CHANNELS → ℕ → Int16} {t k : ℕ} {s : Loop}
    (hn : nCh.toNat ≤ MAX_CHANNELS) (ht : t = ratio.toNat * (k + 1))
    (holds : ∀ ch ∈ channels nCh, Fir.Holds 0 (X ch) t s.dec.history[ch] s.dec.writeIdx[ch])
    (hroom : (s.produced + 1) * nCh.toNat ≤ s.out.length) :
    (emitFrame coeffs nCh s).out =
      s.out.take (s.produced * nCh.toNat) ++
        (channels nCh).map (fun ch => outputOf coeffs ratio (X ch) k) ++
        s.out.drop ((s.produced + 1) * nCh.toNat) := by
  have hlen := channels_length hn
  have hnext : (s.produced + 1) * nCh.toNat = s.produced * nCh.toNat + nCh.toNat := Nat.succ_mul _ _
  unfold emitFrame
  rw [Fir.write_run (fun ch : Fin MAX_CHANNELS => s.produced * nCh.toNat + ch.val) _ _ _
    (s.produced * nCh.toNat) (by rw [channels_vals hn, hlen]) (by omega), hlen, hnext]
  have hvalues : (channels nCh).map (fun ch =>
        rescale (tapSum coeffs (Fir.window s.dec.history[ch] s.dec.writeIdx[ch]))) =
      (channels nCh).map fun ch => outputOf coeffs ratio (X ch) k := by
    apply List.map_congr_left
    intro ch hch
    have hwindow : Fir.window s.dec.history[ch] s.dec.writeIdx[ch] =
        fun j => Fir.delayed 0 (X ch) TAPS (ratio.toNat * (k + 1) + j.val) := by
      funext j
      rw [(holds ch hch).latest j, ht]
    rw [hwindow, outputOf]
  rw [hvalues]

-- What one pass of the frame loop does to the loop's state, `start` the frame count before
-- the call.
structure Emitting (coeffs : Taps) (ratio : UInt32) (nCh : UInt8)
    (X : Fin MAX_CHANNELS → ℕ → Int16) (start t : ℕ) (before : List Int16) (s : Loop) : Prop where
  tracks : Tracks coeffs ratio nCh X t s.dec
  produced : s.produced = t / ratio.toNat - start / ratio.toNat
  out : s.out = outputs coeffs ratio nCh X (start / ratio.toNat) s.produced ++
    before.drop (s.produced * nCh.toNat)

theorem group_step {r t : ℕ} (hr : 0 < r) :
    t % r + 1 < r ∧ (t + 1) % r = t % r + 1 ∧ (t + 1) / r = t / r ∨
      ¬ t % r + 1 < r ∧ (t + 1) % r = 0 ∧ (t + 1) / r = t / r + 1 ∧ t + 1 = r * (t / r + 1) := by
  have hlt := Nat.mod_lt t hr
  have hdiv := Nat.div_add_mod t r
  by_cases hwrap : t % r + 1 < r
  · left
    have hunique := Nat.div_mod_unique hr (a := t + 1) (c := t % r + 1) (d := t / r)
    have hboth := hunique.mpr ⟨by omega, hwrap⟩
    exact ⟨hwrap, hboth.2, hboth.1⟩
  · right
    have hnext : t + 1 = r * (t / r + 1) := by
      rw [Nat.mul_add]
      omega
    have hunique := Nat.div_mod_unique hr (a := t + 1) (c := 0) (d := t / r + 1)
    have hboth := hunique.mpr ⟨by omega, hr⟩
    exact ⟨hwrap, hboth.2, hboth.1, hnext⟩

theorem Emitting.frame {coeffs : Taps} {X : Fin MAX_CHANNELS → ℕ → Int16} {start t i : ℕ}
    {before input : List Int16} {s : Loop} (hlookup : decimLookup ratio = some coeffs)
    (hn : nCh.toNat ≤ MAX_CHANNELS) (h : Emitting coeffs ratio nCh X start t before s)
    (hstart : start ≤ t)
    (hinput : ∀ ch ∈ channels nCh, input.getD (i * nCh.toNat + ch.val) 0 = X ch t)
    (hroom : ((t + 1) / ratio.toNat - start / ratio.toNat) * nCh.toNat ≤ before.length) :
    Emitting coeffs ratio nCh X start (t + 1) before (processFrame coeffs nCh input s i) := by
  have hratio := decimLookup_ratio hlookup
  have hfold : (channels nCh).foldl
      (fun dec ch => storeSample dec ch (input.getD (i * nCh.toNat + ch.val) 0)) s.dec =
      (channels nCh).foldl (fun dec ch => storeSample dec ch (X ch t)) s.dec := by
    apply List.foldl_ext
    intro dec ch hch
    rw [hinput ch hch]
  have hstored := Storing.samples channels_nodup
    (show Storing X t nCh (channels nCh) s.dec from
      ⟨h.tracks.holds, fun ch hmem hnot => absurd hmem hnot⟩)
  obtain ⟨htable, hsame, hphase, hchannels⟩ :=
    storeSamples_frame (channels nCh) (fun ch => X ch t) s.dec
  unfold processFrame
  simp only [hfold]
  generalize (channels nCh).foldl (fun dec ch => storeSample dec ch (X ch t)) s.dec = stored at *
  have hp : stored.phase.toNat = t % ratio.toNat := by rw [hphase, h.tracks.phase_eq]
  have hr : stored.ratio = ratio := by rw [hsame, h.tracks.ratio_eq]
  have hlt := Nat.mod_lt t (show 0 < ratio.toNat by omega)
  have hstep : (stored.phase + 1).toNat = t % ratio.toNat + 1 := by
    rw [UInt32.toNat_add, hp]
    exact Nat.mod_eq_of_lt (by simp only [UInt32.toNat_one]; omega)
  have hmono := Nat.div_le_div_right (c := ratio.toNat) hstart
  rcases group_step (t := t) (show 0 < ratio.toNat by omega) with
    ⟨hinside, hmod, hdiv⟩ | ⟨hend, hmod, hdiv, hgroup⟩
  · rw [if_pos (by rw [UInt32.lt_iff_toNat_lt, hstep, hr]; exact hinside)]
    exact {
      tracks := {
        coeffs_eq := htable.trans h.tracks.coeffs_eq
        ratio_eq := hr
        nChannels_eq := hchannels.trans h.tracks.nChannels_eq
        phase_eq := by rw [hmod]; exact hstep
        holds := fun ch hch => hstored.done ch hch (by simp) }
      produced := by rw [hdiv]; exact h.produced
      out := h.out }
  · rw [if_neg (by rw [UInt32.lt_iff_toNat_lt, hstep, hr]; exact hend)]
    have hcount : s.produced + 1 = (t + 1) / ratio.toNat - start / ratio.toNat := by
      rw [hdiv, h.produced]
      omega
    have hk : start / ratio.toNat + s.produced = t / ratio.toNat := by
      rw [h.produced]
      omega
    have hprefix : (outputs coeffs ratio nCh X (start / ratio.toNat) s.produced).length =
        s.produced * nCh.toNat := outputs_length hn coeffs X _ _
    have hnext : (s.produced + 1) * nCh.toNat = s.produced * nCh.toNat + nCh.toNat :=
      Nat.succ_mul _ _
    exact {
      tracks := {
        coeffs_eq := htable.trans h.tracks.coeffs_eq
        ratio_eq := hr
        nChannels_eq := hchannels.trans h.tracks.nChannels_eq
        phase_eq := by rw [hmod]; rfl
        holds := fun ch hch => hstored.done ch hch (by simp) }
      produced := hcount
      out := by
        rw [emitFrame_out (X := X) (t := t + 1) (k := t / ratio.toNat) hn hgroup
          (fun ch hch => hstored.done ch hch (by simp))
          (by simp only [h.out, List.length_append, List.length_drop, hprefix, hcount]; omega)]
        simp only [emitFrame]
        rw [outputs_succ, hk, h.out, List.take_append_of_le_length (by omega),
          List.take_of_length_le (by omega), List.drop_append, hprefix, List.drop_drop,
          List.drop_of_length_le (by omega)]
        rw [List.nil_append, show s.produced * nCh.toNat +
          ((s.produced + 1) * nCh.toNat - s.produced * nCh.toNat) =
            (s.produced + 1) * nCh.toNat by omega] }

end Frames

section Calls

theorem frames_reported (r t n : ℕ) (hr : 0 < r) : (t % r + n) / r = (t + n) / r - t / r := by
  have hdiv := Nat.div_add_mod t r
  have hsum : t + n = t % r + n + r * (t / r) := by omega
  rw [hsum, Nat.add_mul_div_left _ _ hr]
  exact (Nat.add_sub_cancel _ _).symm

theorem Tracks.phase_lt {coeffs : Taps} {X : Fin MAX_CHANNELS → ℕ → Int16} {t : ℕ}
    {dec : Decimator} (h : Tracks coeffs ratio nCh X t dec)
    (hlookup : decimLookup ratio = some coeffs) : dec.phase.toNat < 6 := by
  have hratio := decimLookup_ratio hlookup
  have hlt := Nat.mod_lt t (show 0 < ratio.toNat by omega)
  rw [h.phase_eq]
  omega

theorem Tracks.frames {coeffs : Taps} {X : Fin MAX_CHANNELS → ℕ → Int16} {t n : ℕ}
    {before input : List Int16} {dec : Decimator} (hlookup : decimLookup ratio = some coeffs)
    (hn : nCh.toNat ≤ MAX_CHANNELS) (h : Tracks coeffs ratio nCh X t dec)
    (hinput : ∀ i < n, ∀ ch ∈ channels nCh, input.getD (i * nCh.toNat + ch.val) 0 = X ch (t + i))
    (hroom : ((t + n) / ratio.toNat - t / ratio.toNat) * nCh.toNat ≤ before.length) :
    Emitting coeffs ratio nCh X t (t + n) before
      ((List.range n).foldl (processFrame coeffs nCh input) ⟨dec, before, 0⟩) := by
  induction n with
  | zero =>
      exact {
        tracks := h
        produced := by simp
        out := by simp [outputs] }
  | succ n ih =>
      have hmono := Nat.div_le_div_right (c := ratio.toNat) (show t + n ≤ t + (n + 1) by omega)
      have hless := Nat.mul_le_mul_right nCh.toNat
        (show (t + n) / ratio.toNat - t / ratio.toNat ≤
          (t + (n + 1)) / ratio.toNat - t / ratio.toNat by omega)
      have hprev := ih (fun i hi => hinput i (by omega)) (by omega)
      rw [List.range_succ, List.foldl_append]
      exact hprev.frame hlookup hn (Nat.le_add_right t n) (hinput n (by omega)) hroom

-- The frame count does not wrap: the input buffer is an object.
theorem Call.count_fits (c : Call p nCh) (hpos : 0 < nCh.toNat) {phase : ℕ} (hphase : phase < 6) :
    (phase + c.inFrames) % 2 ^ p.sizeBits = phase + c.inFrames := by
  have hframes : c.inFrames ≤ c.input.length := by
    rw [c.input_length]
    exact Nat.le_mul_of_pos_right _ hpos
  have hwide : 2 ^ 16 ≤ 2 ^ p.sizeBits := Nat.pow_le_pow_right (by decide) p.wide
  have hfits := c.input_fits
  apply Nat.mod_eq_of_lt
  omega

-- A call with room: it reports `(phase + in_frames) / ratio` frames and puts out the next ones.
theorem Call.accepted {coeffs : Taps} {X : Fin MAX_CHANNELS → ℕ → Int16} {t : ℕ}
    {dec : Decimator} (c : Call p nCh) (hlookup : decimLookup ratio = some coeffs)
    (hpos : 0 < nCh.toNat) (hn : nCh.toNat ≤ MAX_CHANNELS) (h : Tracks coeffs ratio nCh X t dec)
    (hinput : ∀ i < c.inFrames, ∀ ch ∈ channels nCh,
      c.input.getD (i * nCh.toNat + ch.val) 0 = X ch (t + i))
    (hroom : (dec.phase.toNat + c.inFrames) / ratio.toNat ≤ c.outCap) :
    ∃ dec' out', c.perform dec =
        (.ok ((dec.phase.toNat + c.inFrames) / ratio.toNat), dec', out') ∧
      Tracks coeffs ratio nCh X (t + c.inFrames) dec' ∧
      out' = outputs coeffs ratio nCh X (t / ratio.toNat)
          ((dec.phase.toNat + c.inFrames) / ratio.toNat) ++
        c.out.drop ((dec.phase.toNat + c.inFrames) / ratio.toNat * nCh.toNat) := by
  have hratio := decimLookup_ratio hlookup
  have hreported := frames_reported ratio.toNat t c.inFrames (by omega)
  rw [← h.phase_eq] at hreported
  have hbuffer := Nat.mul_le_mul_right nCh.toNat hroom
  rw [hreported] at hbuffer
  rw [← c.out_length] at hbuffer
  have hlast := h.frames hlookup hn hinput hbuffer
  have hnowrap := c.count_fits hpos (h.phase_lt hlookup)
  refine ⟨((List.range c.inFrames).foldl (processFrame coeffs nCh c.input) ⟨dec, c.out, 0⟩).dec,
    ((List.range c.inFrames).foldl (processFrame coeffs nCh c.input) ⟨dec, c.out, 0⟩).out,
    ?_, hlast.tracks, ?_⟩
  · unfold Call.perform decimatorProcess
    simp only [h.coeffs_eq, h.ratio_eq, h.nChannels_eq, hnowrap]
    rw [if_neg (by intro hzero; rw [hzero] at hratio; exact absurd hratio.1 (by decide)),
      if_neg (by omega), hlast.produced, hreported]
  · rw [hlast.out, hlast.produced, hreported]

-- A stream that starts with the input of a call: the call's part and the rest.
theorem Call.split_input {X : Fin MAX_CHANNELS → ℕ → Int16} {t : ℕ} {rest : List Int16}
    (c : Call p nCh) (h : ∀ i, ∀ ch ∈ channels nCh,
      channelOf nCh (c.input ++ rest) ch i = X ch (t + i)) :
    (∀ i < c.inFrames, ∀ ch ∈ channels nCh,
      c.input.getD (i * nCh.toNat + ch.val) 0 = X ch (t + i)) ∧
    ∀ i, ∀ ch ∈ channels nCh, channelOf nCh rest ch i = X ch (t + c.inFrames + i) := by
  constructor
  · intro i hi ch hch
    have hval := channels_lt hch
    have hnext := Nat.mul_le_mul_right nCh.toNat (show i + 1 ≤ c.inFrames by omega)
    have hinside : i * nCh.toNat + ch.val < c.input.length := by
      rw [c.input_length]
      rw [Nat.succ_mul] at hnext
      omega
    rw [← h i ch hch, channelOf, List.getD_append _ _ _ _ hinside]
  · intro i ch hch
    have hall := h (c.inFrames + i) ch hch
    rw [channelOf, Nat.add_mul, Nat.add_assoc, List.getD_append_right _ _ _ _
      (by rw [c.input_length]; omega), c.input_length, Nat.add_sub_cancel_left] at hall
    rw [channelOf, hall, Nat.add_assoc]

-- The streams with the input of a call from frame `t` on.
def extended (X : Fin MAX_CHANNELS → ℕ → Int16) (t : ℕ) (nCh : UInt8) (input : List Int16)
    (ch : Fin MAX_CHANNELS) (i : ℕ) : Int16 :=
  if i < t then X ch i else channelOf nCh input ch (i - t)

theorem Tracks.of_agree {coeffs : Taps} {X Y : Fin MAX_CHANNELS → ℕ → Int16} {t : ℕ}
    {dec : Decimator} (h : Tracks coeffs ratio nCh X t dec)
    (hXY : ∀ ch, ∀ i < t, X ch i = Y ch i) : Tracks coeffs ratio nCh Y t dec :=
  { h with holds := fun ch hch => (h.holds ch hch).of_agree (hXY ch) }

theorem Call.accepts {coeffs : Taps} {X : Fin MAX_CHANNELS → ℕ → Int16} {t : ℕ}
    {dec : Decimator} (c : Call p nCh) (hlookup : decimLookup ratio = some coeffs)
    (hpos : 0 < nCh.toNat) (hn : nCh.toNat ≤ MAX_CHANNELS) (h : Tracks coeffs ratio nCh X t dec)
    (hroom : (dec.phase.toNat + c.inFrames) / ratio.toNat ≤ c.outCap) :
    ∃ dec' out', c.perform dec =
        (.ok ((dec.phase.toNat + c.inFrames) / ratio.toNat), dec', out') ∧
      Tracks coeffs ratio nCh (extended X t nCh c.input) (t + c.inFrames) dec' := by
  have hlonger := h.of_agree (Y := extended X t nCh c.input)
    (fun ch i hi => by rw [extended, if_pos hi])
  have hinput : ∀ i < c.inFrames, ∀ ch ∈ channels nCh,
      c.input.getD (i * nCh.toNat + ch.val) 0 = extended X t nCh c.input ch (t + i) := by
    intro i _ ch _
    rw [extended, if_neg (by omega), Nat.add_sub_cancel_left]
    rfl
  obtain ⟨dec', out', hperform, hnext, -⟩ := c.accepted hlookup hpos hn hlonger hinput hroom
  exact ⟨dec', out', hperform, hnext⟩

theorem Call.refused {coeffs : Taps} {X : Fin MAX_CHANNELS → ℕ → Int16} {t : ℕ}
    {dec : Decimator} (c : Call p nCh) (hlookup : decimLookup ratio = some coeffs)
    (hpos : 0 < nCh.toNat) (h : Tracks coeffs ratio nCh X t dec)
    (hroom : ¬ (dec.phase.toNat + c.inFrames) / ratio.toNat ≤ c.outCap) :
    c.perform dec = (.error .outOfRange, dec, c.out) := by
  have hratio := decimLookup_ratio hlookup
  unfold Call.perform decimatorProcess
  simp only [h.coeffs_eq, h.ratio_eq, c.count_fits hpos (h.phase_lt hlookup)]
  rw [if_neg (by intro hzero; rw [hzero] at hratio; exact absurd hratio.1 (by decide)),
    if_pos (by omega)]

theorem init_ok {before dec : Decimator} (h : decimatorInit before ratio nCh = (.ok (), dec)) :
    0 < nCh.toNat ∧ nCh.toNat ≤ MAX_CHANNELS ∧ ∃ coeffs, decimLookup ratio = some coeffs ∧
      dec = { Decimator.zeroed with coeffs := some coeffs, ratio, nChannels := nCh } := by
  unfold decimatorInit at h
  have hguard : ¬ (nCh = 0 ∨ nCh > MAX_CHANNELS.toUInt8) := by
    intro hguard
    rw [if_pos hguard] at h
    simp at h
  rw [if_neg hguard] at h
  have hlo : nCh ≠ 0 := fun hzero => hguard (Or.inl hzero)
  have hhi : ¬ nCh > MAX_CHANNELS.toUInt8 := fun hmany => hguard (Or.inr hmany)
  refine ⟨?_, ?_, ?_⟩
  · have hne : nCh.toNat ≠ 0 := fun hzero => hlo (UInt8.toNat_inj.mp hzero)
    omega
  · rw [GT.gt, UInt8.lt_iff_toNat_lt] at hhi
    exact Nat.le_of_not_lt hhi
  · cases hlookup : decimLookup ratio with
    | none =>
        rw [hlookup] at h
        simp at h
    | some coeffs =>
        rw [hlookup] at h
        simp only [Prod.mk.injEq, true_and] at h
        exact ⟨coeffs, rfl, h.symm⟩

theorem tracks_zeroed {coeffs : Taps} (dec : Decimator) (hcoeffs : dec.coeffs = some coeffs)
    (hratio : dec.ratio = ratio) (hchannels : dec.nChannels = nCh)
    (X : Fin MAX_CHANNELS → ℕ → Int16) :
    Tracks coeffs ratio nCh X 0 { dec with
      history := Decimator.zeroed.history, writeIdx := Decimator.zeroed.writeIdx, phase := 0 } where
  coeffs_eq := hcoeffs
  ratio_eq := hratio
  nChannels_eq := hchannels
  phase_eq := by
    rw [Nat.zero_mod]
    rfl
  holds := by
    intro ch _
    have hcells : Decimator.zeroed.history[ch] = Vector.replicate (2 * TAPS) 0 := by
      simp [Decimator.zeroed]
    rw [hcells]
    exact Fir.Holds.zeroed 0 (X ch) _

theorem Tracks.reset {coeffs : Taps} {X : Fin MAX_CHANNELS → ℕ → Int16} {t : ℕ}
    {dec : Decimator} (hlookup : decimLookup ratio = some coeffs)
    (h : Tracks coeffs ratio nCh X t dec) (Y : Fin MAX_CHANNELS → ℕ → Int16) :
    (decimatorReset dec).1 = .ok () ∧ Tracks coeffs ratio nCh Y 0 (decimatorReset dec).2 := by
  have hratio := decimLookup_ratio hlookup
  have hzero : ¬ (dec.coeffs = none ∨ dec.ratio = 0) := by
    rintro (hnone | hzero)
    · exact absurd (h.coeffs_eq.symm.trans hnone) (by simp)
    · rw [h.ratio_eq] at hzero
      rw [hzero] at hratio
      exact absurd hratio.1 (by decide)
  unfold decimatorReset
  rw [if_neg hzero]
  exact ⟨rfl, tracks_zeroed dec h.coeffs_eq h.ratio_eq h.nChannels_eq Y⟩

-- Every state of a configured decimator has taken in some streams.
theorem Configured.tracks {dec : Decimator} (h : Configured p ratio nCh dec) :
    0 < nCh.toNat ∧ nCh.toNat ≤ MAX_CHANNELS ∧ ∃ coeffs, decimLookup ratio = some coeffs ∧
      ∃ X t, Tracks coeffs ratio nCh X t dec := by
  induction h with
  | init hinit =>
      obtain ⟨hpos, hn, coeffs, hlookup, rfl⟩ := init_ok hinit
      exact ⟨hpos, hn, coeffs, hlookup, fun _ _ => 0, 0, tracks_zeroed
        { Decimator.zeroed with coeffs := some coeffs, ratio, nChannels := nCh } rfl rfl rfl _⟩
  | @process dec _ c ih =>
      obtain ⟨hpos, hn, coeffs, hlookup, X, t, htracks⟩ := ih
      refine ⟨hpos, hn, coeffs, hlookup, ?_⟩
      by_cases hroom : (dec.phase.toNat + c.inFrames) / ratio.toNat ≤ c.outCap
      · obtain ⟨dec', out', hperform, hnext⟩ := c.accepts hlookup hpos hn htracks hroom
        rw [hperform]
        exact ⟨_, _, hnext⟩
      · rw [c.refused hlookup hpos htracks hroom]
        exact ⟨X, t, htracks⟩
  | reset _ ih =>
      obtain ⟨hpos, hn, coeffs, hlookup, X, t, htracks⟩ := ih
      exact ⟨hpos, hn, coeffs, hlookup, X, 0, (htracks.reset hlookup X).2⟩

theorem Fresh.tracks {dec : Decimator} (h : Fresh p ratio nCh dec) :
    0 < nCh.toNat ∧ nCh.toNat ≤ MAX_CHANNELS ∧ ∃ coeffs, decimLookup ratio = some coeffs ∧
      ∀ X, Tracks coeffs ratio nCh X 0 dec := by
  cases h with
  | init hinit =>
      obtain ⟨hpos, hn, coeffs, hlookup, rfl⟩ := init_ok hinit
      exact ⟨hpos, hn, coeffs, hlookup, fun X => tracks_zeroed
        { Decimator.zeroed with coeffs := some coeffs, ratio, nChannels := nCh } rfl rfl rfl X⟩
  | reset hconfigured =>
      obtain ⟨hpos, hn, coeffs, hlookup, X, t, htracks⟩ := hconfigured.tracks
      exact ⟨hpos, hn, coeffs, hlookup, fun Y => (htracks.reset hlookup Y).2⟩

-- A run of calls, from `t` frames on: the induction carries the streams the accepted calls
-- will have fed in the end.
theorem stream_outputs {coeffs : Taps} {X : Fin MAX_CHANNELS → ℕ → Int16} {t : ℕ}
    {dec : Decimator} (calls : List (Call p nCh)) (hlookup : decimLookup ratio = some coeffs)
    (hpos : 0 < nCh.toNat) (hn : nCh.toNat ≤ MAX_CHANNELS) (h : Tracks coeffs ratio nCh X t dec)
    (hinput : ∀ i, ∀ ch ∈ channels nCh,
      channelOf nCh (stream dec calls).1 ch i = X ch (t + i)) :
    ∃ frames, (stream dec calls).1.length = frames * nCh.toNat ∧
      (stream dec calls).2 = outputs coeffs ratio nCh X (t / ratio.toNat)
        ((t + frames) / ratio.toNat - t / ratio.toNat) := by
  induction calls generalizing t dec with
  | nil => exact ⟨0, by simp [stream, outputs]⟩
  | cons c calls ih =>
      by_cases hroom : (dec.phase.toNat + c.inFrames) / ratio.toNat ≤ c.outCap
      · obtain ⟨dec', out', hperform, -⟩ := c.accepts hlookup hpos hn h hroom
        have hstream : stream dec (c :: calls) =
            (c.input ++ (stream dec' calls).1,
              out'.take ((dec.phase.toNat + c.inFrames) / ratio.toNat * nCh.toNat) ++
                (stream dec' calls).2) := by
          simp only [stream, hperform]
        rw [hstream] at hinput ⊢
        obtain ⟨hhead, htail⟩ := c.split_input hinput
        obtain ⟨_, _, hsame, hnext, hout⟩ := c.accepted hlookup hpos hn h hhead hroom
        rw [hperform] at hsame
        cases hsame
        obtain ⟨frames, hlen, hrest⟩ := ih hnext htail
        refine ⟨c.inFrames + frames, ?_, ?_⟩
        · rw [List.length_append, c.input_length, hlen, Nat.add_mul]
        · have hreported := frames_reported ratio.toNat t c.inFrames (by
            have := decimLookup_ratio hlookup
            omega)
          have hmono := Nat.div_le_div_right (c := ratio.toNat)
            (show t ≤ t + c.inFrames by omega)
          have hlater := Nat.div_le_div_right (c := ratio.toNat)
            (show t + c.inFrames ≤ t + c.inFrames + frames by omega)
          have hwritten : (outputs coeffs ratio nCh X (t / ratio.toNat)
              ((dec.phase.toNat + c.inFrames) / ratio.toNat)).length =
              (dec.phase.toNat + c.inFrames) / ratio.toNat * nCh.toNat := outputs_length hn coeffs X _ _
          simp only [hrest, hout]
          rw [List.take_append_of_le_length (by omega), List.take_of_length_le (by omega),
            h.phase_eq, hreported]
          have hsplit : (t + c.inFrames) / ratio.toNat =
              t / ratio.toNat + ((t + c.inFrames) / ratio.toNat - t / ratio.toNat) := by omega
          have htotal : (t + (c.inFrames + frames)) / ratio.toNat - t / ratio.toNat =
              ((t + c.inFrames) / ratio.toNat - t / ratio.toNat) +
                ((t + c.inFrames + frames) / ratio.toNat - (t + c.inFrames) / ratio.toNat) := by
            rw [← Nat.add_assoc]
            omega
          rw [htotal, ← outputs_append, ← hsplit]
      · have hperform := c.refused hlookup hpos h hroom
        have hstream : stream dec (c :: calls) = stream dec calls := by
          simp only [stream, hperform]
        rw [hstream] at hinput ⊢
        exact ih h hinput

theorem Call.outcome {dec : Decimator} (c : Call p nCh) (h : Configured p ratio nCh dec) :
    (dec.phase.toNat + c.inFrames) / ratio.toNat ≤ c.outCap ∧ (∃ dec' out', c.perform dec =
        (.ok ((dec.phase.toNat + c.inFrames) / ratio.toNat), dec', out')) ∨
      c.outCap < (dec.phase.toNat + c.inFrames) / ratio.toNat ∧
        c.perform dec = (.error .outOfRange, dec, c.out) := by
  obtain ⟨hpos, hn, coeffs, hlookup, X, t, htracks⟩ := h.tracks
  by_cases hroom : (dec.phase.toNat + c.inFrames) / ratio.toNat ≤ c.outCap
  · obtain ⟨dec', out', hperform, -⟩ := c.accepts hlookup hpos hn htracks hroom
    exact Or.inl ⟨hroom, dec', out', hperform⟩
  · exact Or.inr ⟨by omega, c.refused hlookup hpos htracks hroom⟩

-- For every blocking the accepted calls put out the definition of the filter, and each call
-- reports its share or is refused without a trace.
theorem decimator_streams {dec : Decimator} (hfresh : Fresh p ratio nCh dec)
    (calls : List (Call p nCh)) :
    ∃ coeffs, decimLookup ratio = some coeffs ∧
      (stream dec calls).2.map Int16.toInt =
        expected coeffs ratio nCh (stream dec calls).1 ∧
      (stream dec calls).2.length =
        (stream dec calls).1.length / nCh.toNat / ratio.toNat * nCh.toNat ∧
      ∀ state, Configured p ratio nCh state → ∀ c : Call p nCh,
        (state.phase.toNat + c.inFrames) / ratio.toNat ≤ c.outCap ∧ (∃ state' out', c.perform state =
            (.ok ((state.phase.toNat + c.inFrames) / ratio.toNat), state', out')) ∨
          c.outCap < (state.phase.toNat + c.inFrames) / ratio.toNat ∧
            c.perform state = (.error .outOfRange, state, c.out) := by
  obtain ⟨hpos, hn, coeffs, hlookup, htracks⟩ := hfresh.tracks
  obtain ⟨frames, hlen, hout⟩ := stream_outputs calls hlookup hpos hn
    (htracks (channelOf nCh (stream dec calls).1)) (by simp)
  have htotal : (stream dec calls).1.length / nCh.toNat = frames := by
    rw [hlen, Nat.mul_div_cancel _ hpos]
  rw [Nat.zero_div, Nat.zero_add, Nat.sub_zero] at hout
  refine ⟨coeffs, hlookup, ?_, ?_, fun state hstate c => c.outcome hstate⟩
  · unfold expected
    rw [htotal, hout, outputs, List.map_flatMap, List.range_eq_range']
    simp only [List.map_map, Function.comp_def, outputOf_toInt hlookup]
  · rw [htotal, hout, outputs_length hn]

-- Two stereo frames at ratio 2, first offered with no room.
theorem decimator_streams_retry :
    ∃ coeffs, decimLookup 2 = some coeffs ∧
      (stream (decimatorInit .zeroed 2 2).2
        ([⟨[100, -7, 300, 9], 2, [], 0, rfl, by decide, rfl⟩,
          ⟨[100, -7, 300, 9], 2, [5, 5], 1, rfl, by decide, rfl⟩] :
          List (Call ⟨32, by decide⟩ 2))).2.map Int16.toInt =
        expected coeffs 2 2 [100, -7, 300, 9] := by
  have hinit : decimatorInit .zeroed 2 2 = (.ok (), (decimatorInit .zeroed 2 2).2) := rfl
  have hfresh : Fresh ⟨32, by decide⟩ 2 2 (decimatorInit .zeroed 2 2).2 := Fresh.init hinit
  obtain ⟨coeffs, hlookup, hout, -⟩ := decimator_streams hfresh
    [⟨[100, -7, 300, 9], 2, [], 0, rfl, by decide, rfl⟩,
      ⟨[100, -7, 300, 9], 2, [5, 5], 1, rfl, by decide, rfl⟩]
  exact ⟨coeffs, hlookup, hout⟩

end Calls

end AlpSdk.Dsp
