import Mathlib.Data.BitVec
import Mathlib.Data.List.GetD
import Mathlib.Data.List.OfFn

namespace Library.Crc

-- A shift register of `w` bits with the feedback polynomial `poly`, most significant bit first.
section Register

variable {w : Nat} (poly : BitVec w)

def step (crc : BitVec w) : BitVec w := if crc.msb then (crc <<< 1) ^^^ poly else crc <<< 1

def steps : Nat → BitVec w → BitVec w
  | 0, crc => crc
  | n + 1, crc => steps n (step poly crc)

theorem xor_xor_xor_cancel (a b p : BitVec w) : (a ^^^ p) ^^^ (b ^^^ p) = a ^^^ b := by
  rw [BitVec.xor_assoc, ← BitVec.xor_assoc p b p, BitVec.xor_comm p b, BitVec.xor_assoc b p p, BitVec.xor_self,
    BitVec.xor_zero]

theorem step_xor (a b : BitVec w) : step poly (a ^^^ b) = step poly a ^^^ step poly b := by
  simp only [step, BitVec.msb_xor, BitVec.shiftLeft_xor_distrib]
  cases ha : a.msb with
  | false =>
      cases hb : b.msb with
      | false => simp
      | true => simp [BitVec.xor_assoc]
  | true =>
      cases hb : b.msb with
      | false =>
          have hright : a <<< 1 ^^^ b <<< 1 ^^^ poly = a <<< 1 ^^^ poly ^^^ b <<< 1 := by ac_rfl
          simpa using hright
      | true => simp [xor_xor_xor_cancel]

theorem steps_xor (n : Nat) (a b : BitVec w) :
    steps poly n (a ^^^ b) = steps poly n a ^^^ steps poly n b := by
  induction n generalizing a b with
  | zero => rfl
  | succ n ih => simp only [steps, step_xor, ih]

theorem steps_add (n m : Nat) (crc : BitVec w) :
    steps poly (n + m) crc = steps poly m (steps poly n crc) := by
  induction n generalizing crc with
  | zero => rw [Nat.zero_add]; rfl
  | succ n ih => rw [Nat.succ_add]; exact ih _

@[simp] theorem step_zero : step poly 0 = 0 := by simp [step]

@[simp] theorem steps_zero (n : Nat) : steps poly n 0 = 0 := by
  induction n with
  | zero => rfl
  | succ n ih => rw [steps, step_zero, ih]

-- A step that meets no set bit at the top only shifts.
theorem steps_shift {n : Nat} {crc : BitVec w} (h : ∀ i, i < n → crc.getMsbD i = false) :
    steps poly n crc = crc <<< n := by
  induction n generalizing crc with
  | zero => simp [steps]
  | succ n ih =>
      have hmsb : crc.msb = false := h 0 (Nat.zero_lt_succ n)
      have hstep : step poly crc = crc <<< 1 := by simp [step, hmsb]
      rw [steps, hstep, ih, ← BitVec.shiftLeft_add, Nat.add_comm]
      intro i hi
      rw [BitVec.getMsbD_shiftLeft, h (i + 1) (Nat.succ_lt_succ hi)]

-- The register forgets nothing if the polynomial has a constant term.
theorem eq_zero_of_step (hpoly : poly.getLsbD 0 = true) {crc : BitVec w} (h : step poly crc = 0) :
    crc = 0 := by
  unfold step at h
  cases hmsb : crc.msb with
  | true =>
      rw [hmsb, if_pos rfl] at h
      have hbit := congrArg (fun x => x.getLsbD 0) h
      simp [hpoly] at hbit
  | false =>
      rw [hmsb, if_neg (by simp)] at h
      apply BitVec.eq_of_getLsbD_eq
      intro i hi
      by_cases htop : i + 1 < w
      · have hbit : (crc <<< 1).getLsbD (i + 1) = false := by rw [h]; simp
        rw [BitVec.getLsbD_shiftLeft] at hbit
        have hzero : (0 : BitVec w).getLsbD i = false := by simp
        rw [hzero]
        have hlow : ¬ i + 1 < 1 := by omega
        simpa only [htop, hlow, Nat.add_sub_cancel, decide_true, decide_false, Bool.not_false, Bool.true_and]
          using hbit
      · have hlast : i = w - 1 := by omega
        rw [BitVec.msb_eq_getLsbD_last] at hmsb
        rw [hlast, hmsb]
        simp

theorem eq_zero_of_steps (hpoly : poly.getLsbD 0 = true) {n : Nat} {crc : BitVec w}
    (h : steps poly n crc = 0) :
    crc = 0 := by
  induction n generalizing crc with
  | zero => exact h
  | succ n ih => exact eq_zero_of_step poly hpoly (ih h)

-- A string of `w` bits that stands `k` bits off the bounds of the register.
theorem steps_align {k : Nat} (hk : k ≤ w) (n : Nat) (m : BitVec w) :
    steps poly (w + n) (m >>> k) ^^^ steps poly n (m <<< (w - k)) = steps poly (w - k + n) m := by
  have hhigh : steps poly k (m >>> k) = m >>> k <<< k := by
    refine steps_shift poly fun i hi => ?_
    rw [BitVec.getMsbD_ushiftRight]
    simp [hi]
  have hlow : steps poly (w - k) (m <<< (w - k) >>> (w - k)) = m <<< (w - k) := by
    have hshift : m <<< (w - k) >>> (w - k) <<< (w - k) = m <<< (w - k) := by
      apply BitVec.eq_of_getLsbD_eq
      intro i hi
      simp only [BitVec.getLsbD_shiftLeft, BitVec.getLsbD_ushiftRight]
      grind
    have htop : ∀ i, i < w - k → (m <<< (w - k) >>> (w - k)).getMsbD i = false := by
      intro i hi
      rw [BitVec.getMsbD_ushiftRight]
      simp [hi]
    exact (steps_shift poly htop).trans hshift
  have hsplit : m = m >>> k <<< k ^^^ m <<< (w - k) >>> (w - k) := by
    apply BitVec.eq_of_getLsbD_eq
    intro i hi
    simp only [BitVec.getLsbD_xor, BitVec.getLsbD_shiftLeft, BitVec.getLsbD_ushiftRight]
    grind
  have hsum : w + n = k + (w - k + n) := by omega
  calc steps poly (w + n) (m >>> k) ^^^ steps poly n (m <<< (w - k))
      = steps poly (w - k + n) (m >>> k <<< k) ^^^ steps poly (w - k + n) (m <<< (w - k) >>> (w - k)) := by
        rw [hsum, steps_add poly k, hhigh, steps_add poly (w - k) n (_ >>> _), hlow]
    _ = steps poly (w - k + n) m := by rw [← steps_xor, ← hsplit]

end Register

-- Bytes folded into a register of at least eight bits.
section Bytes

variable {w : Nat} (poly : BitVec w)

-- The byte at the top of the register.
def top (w : Nat) (byte : BitVec 8) : BitVec w := byte.setWidth w <<< (w - 8)

def foldByte (crc : BitVec w) (byte : BitVec 8) : BitVec w := steps poly 8 (crc ^^^ top w byte)

def foldBytes (crc : BitVec w) (bytes : List (BitVec 8)) : BitVec w := bytes.foldl (foldByte poly) crc

theorem foldBytes_append (crc : BitVec w) (xs ys : List (BitVec 8)) :
    foldBytes poly crc (xs ++ ys) = foldBytes poly (foldBytes poly crc xs) ys :=
  List.foldl_append

theorem top_xor (a b : BitVec 8) : top w (a ^^^ b) = top w a ^^^ top w b := by
  simp only [top, BitVec.setWidth_xor, BitVec.shiftLeft_xor_distrib]

theorem foldByte_xor (c d : BitVec w) (a b : BitVec 8) :
    foldByte poly (c ^^^ d) (a ^^^ b) = foldByte poly c a ^^^ foldByte poly d b := by
  have hswap : c ^^^ d ^^^ (top w a ^^^ top w b) = c ^^^ top w a ^^^ (d ^^^ top w b) := by ac_rfl
  rw [foldByte, top_xor, hswap, steps_xor]
  rfl

-- The register of a damaged string is that of the string and that of the damage.
theorem foldBytes_xor (c d : BitVec w) {xs ys : List (BitVec 8)} (hlen : xs.length = ys.length) :
    foldBytes poly (c ^^^ d) (List.zipWith (· ^^^ ·) xs ys) = foldBytes poly c xs ^^^ foldBytes poly d ys := by
  induction xs generalizing c d ys with
  | nil =>
      obtain rfl := List.length_eq_zero_iff.mp hlen.symm
      rfl
  | cons x xs ih =>
      cases ys with
      | nil => cases hlen
      | cons y ys =>
          have hrest := ih (foldByte poly c x) (foldByte poly d y) (Nat.succ.inj hlen)
          rw [← foldByte_xor] at hrest
          exact hrest

theorem foldBytes_zeros (crc : BitVec w) (n : Nat) :
    foldBytes poly crc (List.replicate n 0) = steps poly (8 * n) crc := by
  induction n generalizing crc with
  | zero => rfl
  | succ n ih =>
      have hbyte : foldByte poly crc 0 = steps poly 8 crc := by simp [foldByte, top]
      rw [List.replicate_succ, foldBytes, List.foldl_cons, hbyte, Nat.mul_succ, Nat.add_comm, steps_add]
      exact ih _

end Bytes

-- The register fed a bit at a time.
section Bits

variable {w : Nat} (poly : BitVec w)

def topBit (w : Nat) (bit : Bool) : BitVec w := if bit then BitVec.twoPow w (w - 1) else 0

-- The bits from the top of a register down.
def ofBits (w : Nat) : List Bool → BitVec w
  | [] => 0
  | bit :: rest => topBit w bit ^^^ (ofBits w rest) >>> 1

def foldBit (crc : BitVec w) (bit : Bool) : BitVec w := step poly (crc ^^^ topBit w bit)

def foldBits (crc : BitVec w) (bits : List Bool) : BitVec w := bits.foldl (foldBit poly) crc

theorem foldBits_append (crc : BitVec w) (xs ys : List Bool) :
    foldBits poly crc (xs ++ ys) = foldBits poly (foldBits poly crc xs) ys :=
  List.foldl_append

theorem getMsbD_topBit (bit : Bool) (i : Nat) :
    (topBit w bit).getMsbD i = (decide (0 < w) && decide (i = 0) && bit) := by
  unfold topBit
  split
  case isTrue h =>
    rw [BitVec.getMsbD_twoPow, h]
    grind
  case isFalse h => simp [h]

theorem getMsbD_ofBits (bits : List Bool) (i : Nat) :
    (ofBits w bits).getMsbD i = (decide (i < w) && bits.getD i false) := by
  induction bits generalizing i with
  | nil => simp [ofBits]
  | cons bit rest ih =>
      rw [ofBits, BitVec.getMsbD_xor, getMsbD_topBit, BitVec.getMsbD_ushiftRight, ih]
      cases i with
      | zero => simp
      | succ i =>
        simp only [List.getD_cons_succ]
        grind

-- The first bit leaves at the top, and the others move up.
theorem step_ofBits_cons (bit : Bool) {rest : List Bool} (hlen : rest.length < w) :
    step poly (ofBits w (bit :: rest)) = step poly (topBit w bit) ^^^ ofBits w rest := by
  have hshift : ofBits w rest >>> 1 <<< 1 = ofBits w rest := by
    apply BitVec.eq_of_getMsbD_eq
    intro i hi
    simp only [BitVec.getMsbD_shiftLeft, BitVec.getMsbD_ushiftRight, getMsbD_ofBits, Nat.add_sub_cancel]
    by_cases hlast : i + 1 < w
    · simp [hlast, hi]
    · have hout : rest.getD i false = false := List.getD_eq_default rest false (by omega)
      rw [hout]
      simp
  have hmsb : (ofBits w rest >>> 1).msb = false := by
    rw [BitVec.msb_eq_getMsbD_zero]
    simp
  have hrest : step poly (ofBits w rest >>> 1) = ofBits w rest := by
    rw [step, hmsb, if_neg (by decide), hshift]
  rw [ofBits, step_xor, hrest]

theorem foldBits_eq_steps {bits : List Bool} (crc : BitVec w) (hlen : bits.length ≤ w) :
    foldBits poly crc bits = steps poly bits.length (crc ^^^ ofBits w bits) := by
  induction bits generalizing crc with
  | nil => simp [foldBits, ofBits, steps]
  | cons bit rest ih =>
      have hstep : step poly (crc ^^^ ofBits w (bit :: rest)) = foldBit poly crc bit ^^^ ofBits w rest := by
        rw [step_xor, step_ofBits_cons poly bit hlen, ← BitVec.xor_assoc, ← step_xor]
        rfl
      rw [List.length_cons, steps, hstep]
      exact ih _ (Nat.le_of_succ_le hlen)

theorem foldBits_falses (crc : BitVec w) (n : Nat) :
    foldBits poly crc (List.replicate n false) = steps poly n crc := by
  induction n generalizing crc with
  | zero => rfl
  | succ n ih =>
      have hbit : foldBit poly crc false = step poly crc := by simp [foldBit, topBit]
      rw [List.replicate_succ, foldBits, List.foldl_cons, hbit]
      exact ih _

-- No register misses a burst of errors that is not longer than itself.
theorem foldBits_burst (hpoly : poly.getLsbD 0 = true) {before after : Nat} {burst : List Bool}
    (hlen : burst.length ≤ w)
    (h : foldBits poly 0 (List.replicate before false ++ burst ++ List.replicate after false) = 0) :
    burst = List.replicate burst.length false := by
  have hstart : (0 : BitVec w) ^^^ ofBits w burst = ofBits w burst := BitVec.zero_xor
  rw [foldBits_append, foldBits_append, foldBits_falses, foldBits_falses, steps_zero,
    foldBits_eq_steps poly 0 hlen, hstart] at h
  have hzero := eq_zero_of_steps poly hpoly (eq_zero_of_steps poly hpoly h)
  refine List.eq_replicate_iff.mpr ⟨rfl, fun bit hbit => ?_⟩
  obtain ⟨i, hi, rfl⟩ := List.getElem_of_mem hbit
  have hat := getMsbD_ofBits (w := w) burst i
  rw [hzero] at hat
  simpa [hi, Nat.lt_of_lt_of_le hi hlen] using hat.symm

-- The bits of a byte, the most significant one first.
def bitsOf (byte : BitVec 8) : List Bool := (List.range 8).map byte.getMsbD

theorem top_eq_ofBits (hw : 8 ≤ w) (byte : BitVec 8) : top w byte = ofBits w (bitsOf byte) := by
  apply BitVec.eq_of_getMsbD_eq
  intro i hi
  rw [top, BitVec.getMsbD_shiftLeft, BitVec.getMsbD_setWidth, getMsbD_ofBits]
  by_cases hbyte : i < 8
  · have hin : i < (bitsOf byte).length := by simpa [bitsOf] using hbyte
    rw [List.getD_eq_getElem _ _ hin]
    simp only [bitsOf, List.getElem_map, List.getElem_range]
    have hat : i + (w - 8) + 8 - w = i := by omega
    simp [hat, hi]
  · have hout : (bitsOf byte).getD i false = false :=
      List.getD_eq_default _ _ (by simpa [bitsOf] using hbyte)
    rw [hout, BitVec.getMsbD_of_ge _ _ (by omega)]
    simp

theorem foldBytes_eq_foldBits (hw : 8 ≤ w) (crc : BitVec w) (bytes : List (BitVec 8)) :
    foldBytes poly crc bytes = foldBits poly crc (bytes.flatMap bitsOf) := by
  induction bytes generalizing crc with
  | nil => rfl
  | cons byte rest ih =>
      have hbyte : foldByte poly crc byte = foldBits poly crc (bitsOf byte) := by
        rw [foldBits_eq_steps poly crc (by simpa [bitsOf] using hw), ← top_eq_ofBits hw]
        simp [foldByte, bitsOf]
      rw [List.flatMap_cons, foldBits_append, ← hbyte]
      exact ih _

end Bits
end Library.Crc
