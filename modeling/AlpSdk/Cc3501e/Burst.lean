import AlpSdk.Cc3501e.Events
import AlpSdk.Crc16

-- Short bursts of errors on a reply, and what its CRC makes of them.
namespace AlpSdk.Cc3501e

open Library.Bytes Library.Crc Crc16

-- A bit of what is sent, the most significant bit of a byte first.
def streamBit (bytes : List UInt8) (i : Nat) : Bool := (bytes.getD (i / 8) 0).toBitVec.getMsbD (i % 8)

-- A nonzero error pattern within 16 consecutive bits.
structure Burst (e : List UInt8) : Prop where
  nonzero : ∃ i, streamBit e i = true
  short : ∃ s, ∀ i, streamBit e i = true → s ≤ i ∧ i < s + 16

def damage (bytes e : List UInt8) : List UInt8 := List.zipWith (· ^^^ ·) bytes e

-- What a MAJOR-4 peer sends: a header, and a payload that ends with the CRC, low byte first.
structure Replies (hdr payload : List UInt8) : Prop where
  header : hdr.length = 4
  long : 3 ≤ payload.length
  fits : payload.length ≤ MAX_PAYLOAD
  trailer : payload.drop (payload.length - CRC_BYTES) =
    putLE 2 (Gd32.crc16 (hdr ++ payload.take (payload.length - CRC_BYTES)))

-- The bursts that the CRC does not see, by what they do to the last four bytes of the reply. The
-- two bytes of the trailer do not stand in the order of the polynomial.
def unseen : List (List UInt8) :=
  [[0x00, 0x01, 0x21, 0x10], [0x00, 0x02, 0x42, 0x20], [0x00, 0x03, 0x63, 0x30], [0x00, 0x04, 0x84, 0x40],
   [0x00, 0x05, 0xA5, 0x50], [0x00, 0x06, 0xC6, 0x60], [0x00, 0x07, 0xE7, 0x70], [0x00, 0x89, 0xA1, 0x00],
   [0x02, 0x35, 0x94, 0x00], [0x08, 0xC5, 0x40, 0x00], [0x11, 0x8A, 0x80, 0x00], [0x19, 0x4F, 0xC0, 0x00]]

-- Three bytes that hold 16 consecutive bits.
theorem window {b0 b2 : BitVec 8} (b1 : BitVec 8) {k : Nat} (hk : k < 8) (h0 : ∀ i, i < k → b0.getMsbD i = false)
    (h2 : ∀ i, k ≤ i → b2.getMsbD i = false) :
    ∃ m : BitVec 16, b0 ++ b1 = m >>> k ∧ top 16 b2 = m <<< (16 - k) := by
  refine ⟨((b0 ++ b1 ++ b2 : BitVec 24) >>> (8 - k)).setWidth 16, ?_, ?_⟩
  · apply BitVec.eq_of_getLsbD_eq
    intro i hi
    simp only [BitVec.getLsbD_append, BitVec.getLsbD_ushiftRight, BitVec.getLsbD_setWidth]
    have h0' := h0 (15 - i)
    rw [BitVec.getMsbD_eq_getLsbD] at h0'
    grind
  · apply BitVec.eq_of_getLsbD_eq
    intro i hi
    simp only [top, BitVec.getLsbD_append, BitVec.getLsbD_ushiftRight, BitVec.getLsbD_setWidth, BitVec.getLsbD_shiftLeft]
    have h2' := h2 (15 - i)
    rw [BitVec.getMsbD_eq_getLsbD] at h2'
    grind

theorem foldBytes_two (b0 b1 : BitVec 8) : foldBytes POLY 0 [b0, b1] = steps POLY 16 (b0 ++ b1) := by
  have hpair : (b0 ++ b1 : BitVec 16) = top 16 b0 ^^^ b1.setWidth 16 := by
    apply BitVec.eq_of_getLsbD_eq
    intro i hi
    simp only [top, BitVec.getLsbD_append, BitVec.getLsbD_xor, BitVec.getLsbD_shiftLeft, BitVec.getLsbD_setWidth]
    grind
  have hsecond : steps POLY 16 (b1.setWidth 16) = steps POLY 8 (top 16 b1) := by
    rw [← steps_low b1, ← steps_add]
  rw [hpair, steps_xor, hsecond]
  simp only [foldBytes, List.foldl_cons, List.foldl_nil, foldByte, steps_xor, ← steps_add, steps_zero]
  simp

theorem foldBytes_three (b0 b1 b2 : BitVec 8) :
    foldBytes POLY 0 [b0, b1, b2] = steps POLY 24 (b0 ++ b1) ^^^ steps POLY 8 (top 16 b2) := by
  have happend := foldBytes_append POLY 0 [b0, b1] [b2]
  rw [foldBytes_two] at happend
  refine happend.trans ?_
  simp only [foldBytes, List.foldl_cons, List.foldl_nil, foldByte, steps_xor, ← steps_add]

theorem poly_constant : POLY.getLsbD 0 = true := by decide

theorem foldBytes_window {b0 b1 b2 : BitVec 8} {k : Nat} (hk : k < 8) (h0 : ∀ i, i < k → b0.getMsbD i = false)
    (h2 : ∀ i, k ≤ i → b2.getMsbD i = false) (h : foldBytes POLY 0 [b0, b1, b2] = 0) :
    b0 ++ b1 = (0 : BitVec 16) ∧ b2 = 0 := by
  obtain ⟨m, hpair, hlast⟩ := window b1 hk h0 h2
  rw [foldBytes_three, hpair, hlast, steps_align POLY (by omega) 8] at h
  obtain rfl := eq_zero_of_steps POLY poly_constant h
  have htop : top 16 b2 = 0 := by simpa using hlast
  refine ⟨by simpa using hpair, ?_⟩
  rw [← high_top b2, htop]
  rfl

-- The register before steps that leave it as `crc`.
def unstep (crc : BitVec 16) : BitVec 16 :=
  if crc.getLsbD 0 then ((crc ^^^ POLY) >>> 1) ||| 0x8000 else crc >>> 1

def unsteps : Nat → BitVec 16 → BitVec 16
  | 0, crc => crc
  | n + 1, crc => unsteps n (unstep crc)

theorem unsteps_zero (n : Nat) : unsteps n 0 = 0 := by
  induction n with
  | zero => rfl
  | succ n ih => exact ih

-- The two bytes whose register is the low byte `b`, for every `b`.
theorem steps_unsteps (b : Fin 256) :
    steps POLY 16 (unsteps 16 (BitVec.ofNat 16 b)) = BitVec.ofNat 16 b := by
  revert b
  decide +kernel

def Within (k : Nat) (b0 b2 : BitVec 8) : Prop :=
  (∀ i, i < k → b0.getMsbD i = false) ∧ ∀ i, i < 8 → k ≤ i → b2.getMsbD i = false

instance (k : Nat) (b0 b2 : BitVec 8) : Decidable (Within k b0 b2) := by
  unfold Within
  infer_instance

def highByte (crc : BitVec 16) : UInt8 := ⟨(crc >>> 8).setWidth 8⟩

def lowByte (crc : BitVec 16) : UInt8 := ⟨crc.setWidth 8⟩

-- A burst that starts in the last byte before the trailer, or in the byte before it.
theorem last_byte (k : Fin 8) (b : Fin 256) :
    Within k (BitVec.ofNat 8 b) (highByte (foldBytes POLY 0 [BitVec.ofNat 8 b])).toBitVec → b = 0 ∨
      [0, UInt8.ofNat b, lowByte (foldBytes POLY 0 [BitVec.ofNat 8 b]),
        highByte (foldBytes POLY 0 [BitVec.ofNat 8 b])] ∈ unseen := by
  revert k b
  decide +kernel

theorem last_pair (k : Fin 8) (b : Fin 256) :
    Within k (highByte (unsteps 16 (BitVec.ofNat 16 b))).toBitVec (BitVec.ofNat 8 b) → b = 0 ∨
      [highByte (unsteps 16 (BitVec.ofNat 16 b)), lowByte (unsteps 16 (BitVec.ofNat 16 b)), UInt8.ofNat b, 0] ∈
        unseen := by
  revert k b
  decide +kernel

theorem residue_of_unseen {a b lo hi : UInt8} (h : [a, b, lo, hi] ∈ unseen) :
    foldBytes POLY 0 [a.toBitVec, b.toBitVec] = hi.toBitVec ++ lo.toBitVec := by
  have hall : ∀ tail ∈ unseen, foldBytes POLY 0 [(tail.getD 0 0).toBitVec, (tail.getD 1 0).toBitVec] =
      (tail.getD 3 0).toBitVec ++ (tail.getD 2 0).toBitVec := by decide +kernel
  have htail := hall _ h
  simp only [List.getD_cons_zero, List.getD_cons_succ] at htail
  exact htail

section Position

theorem zeros_of_getD {l : List UInt8} (h : ∀ q, l.getD q 0 = 0) : l = List.replicate l.length 0 := by
  refine List.eq_replicate_iff.mpr ⟨rfl, fun byte hbyte => ?_⟩
  obtain ⟨q, hq, rfl⟩ := List.getElem_of_mem hbyte
  have hzero := h q
  rwa [getD_of_lt hq] at hzero

theorem drop_cons {l : List UInt8} {p : Nat} (hp : p < l.length) : l.drop p = l.getD p 0 :: l.drop (p + 1) := by
  rw [List.drop_eq_getElem_cons hp, getD_of_lt hp]

theorem zeros_before {l : List UInt8} {p : Nat} (hp : p ≤ l.length) (h : ∀ q, q < p → l.getD q 0 = 0) :
    l = List.replicate p 0 ++ l.drop p := by
  have htake : l.take p = List.replicate p 0 := by
    have hzeros := zeros_of_getD (l := l.take p) fun q => by
      by_cases hq : q < p
      · simpa [List.getD_eq_getElem?_getD, List.getElem?_take, hq] using h q hq
      · simp [List.getD_eq_getElem?_getD, hq]
    rwa [List.length_take, Nat.min_eq_left hp] at hzeros
  rw [← htake, List.take_append_drop]

theorem zeros_after {l : List UInt8} {p : Nat} (h : ∀ q, p ≤ q → l.getD q 0 = 0) :
    l.drop p = List.replicate (l.length - p) 0 := by
  have hzeros := zeros_of_getD (l := l.drop p) fun q => by
    simpa [List.getD_eq_getElem?_getD, List.getElem?_drop] using h (p + q) (Nat.le_add_right p q)
  rwa [List.length_drop] at hzeros

-- The bytes of a burst: three at most, and it starts `k` bits into the first of them.
structure Placed (e : List UInt8) (p k : Nat) : Prop where
  offset : k < 8
  outside : ∀ q, q < p ∨ p + 3 ≤ q → e.getD q 0 = 0
  before : ∀ i, i < k → (e.getD p 0).toBitVec.getMsbD i = false
  after : ∀ i, k ≤ i → (e.getD (p + 2) 0).toBitVec.getMsbD i = false
  nonzero : ¬ (e.getD p 0 = 0 ∧ e.getD (p + 1) 0 = 0 ∧ e.getD (p + 2) 0 = 0)

theorem streamBit_byte (e : List UInt8) (q : Nat) {i : Nat} (hi : i < 8) :
    streamBit e (8 * q + i) = (e.getD q 0).toBitVec.getMsbD i := by
  have hdiv : (8 * q + i) / 8 = q := by omega
  have hmod : (8 * q + i) % 8 = i := by omega
  rw [streamBit, hdiv, hmod]

theorem eq_zero_of_bits {byte : UInt8} (h : ∀ i, i < 8 → byte.toBitVec.getMsbD i = false) : byte = 0 := by
  apply UInt8.toBitVec_inj.mp
  apply BitVec.eq_of_getMsbD_eq
  intro i hi
  rw [h i hi]
  simp

theorem burst_placed {e : List UInt8} (h : Burst e) : ∃ p k, Placed e p k := by
  obtain ⟨s, hs⟩ := h.short
  have hclear : ∀ q i, i < 8 → (8 * q + i < s ∨ s + 16 ≤ 8 * q + i) → (e.getD q 0).toBitVec.getMsbD i = false := by
    intro q i hi hout
    rw [← streamBit_byte e q hi]
    by_contra hbit
    have hin := hs _ (Bool.eq_true_of_not_eq_false hbit)
    omega
  refine ⟨s / 8, s % 8, Nat.mod_lt _ (by decide), fun q hq => ?_, fun i hi => ?_, fun i hi => ?_, ?_⟩
  · exact eq_zero_of_bits fun i hi => hclear q i hi (by omega)
  · exact hclear _ i (by omega) (by omega)
  · by_cases hbyte : i < 8
    · exact hclear _ i hbyte (by omega)
    · exact BitVec.getMsbD_of_ge _ _ (by omega)
  · rintro ⟨h0, h1, h2⟩
    obtain ⟨i, hi⟩ := h.nonzero
    have hzero : e.getD (i / 8) 0 = 0 := by
      have hin := hs i hi
      obtain heq | heq | heq : i / 8 = s / 8 ∨ i / 8 = s / 8 + 1 ∨ i / 8 = s / 8 + 2 := by omega
      · rw [heq, h0]
      · rw [heq, h1]
      · rw [heq, h2]
    rw [streamBit, hzero] at hi
    simp at hi

end Position

section Residue

theorem foldBytes_leading (n : Nat) (bytes : List UInt8) :
    foldBytes POLY 0 ((List.replicate n 0 ++ bytes).map UInt8.toBitVec) =
      foldBytes POLY 0 (bytes.map UInt8.toBitVec) := by
  have hzero : UInt8.toBitVec 0 = 0 := rfl
  rw [List.map_append, foldBytes_append, List.map_replicate, hzero, foldBytes_zeros, steps_zero]

variable {es : List UInt8} {lo hi : UInt8} {p k : Nat}

theorem getD_covered {q : Nat} (hq : q < es.length) : (es ++ [lo, hi]).getD q 0 = es.getD q 0 := by
  simp only [List.getD_eq_getElem?_getD, List.getElem?_append_left hq]

theorem getD_low : (es ++ [lo, hi]).getD es.length 0 = lo := by
  rw [List.getD_eq_getElem?_getD, List.getElem?_append_right (Nat.le_refl _), Nat.sub_self]
  rfl

theorem getD_high : (es ++ [lo, hi]).getD (es.length + 1) 0 = hi := by
  rw [List.getD_eq_getElem?_getD, List.getElem?_append_right (Nat.le_add_right _ _), Nat.add_sub_cancel_left]
  rfl

theorem last_four (hes : 2 ≤ es.length) : (es ++ [lo, hi]).drop (es.length - 2) =
    [es.getD (es.length - 2) 0, es.getD (es.length - 1) 0, lo, hi] := by
  have hnext : es.length - 2 + 1 = es.length - 1 := by omega
  have hend : es.length - 1 + 1 = es.length := by omega
  rw [List.drop_append_of_le_length (by omega), drop_cons (by omega), hnext, drop_cons (by omega), hend,
    List.drop_length]
  rfl

theorem unseen_damages {a b lo hi : UInt8} (h : [a, b, lo, hi] ∈ unseen) : b ≠ 0 ∧ lo ≠ 0 := by
  have hall : ∀ tail ∈ unseen, tail.getD 1 0 ≠ 0 ∧ tail.getD 2 0 ≠ 0 := by decide
  exact hall _ h

theorem high_append (a b : BitVec 8) : ((a ++ b : BitVec 16) >>> 8).setWidth 8 = a := by
  apply BitVec.eq_of_getLsbD_eq
  intro i hi
  simp only [BitVec.getLsbD_setWidth, BitVec.getLsbD_ushiftRight, BitVec.getLsbD_append]
  grind

theorem low_append (a b : BitVec 8) : (a ++ b : BitVec 16).setWidth 8 = b := by
  apply BitVec.eq_of_getLsbD_eq
  intro i hi
  simp only [BitVec.getLsbD_setWidth, BitVec.getLsbD_append]
  grind

theorem append_eq_zero {a b : BitVec 8} (h : a ++ b = (0 : BitVec 16)) : a = 0 ∧ b = 0 := by
  have hhigh := high_append a b
  have hlow := low_append a b
  rw [h] at hhigh hlow
  exact ⟨hhigh.symm.trans (by decide), hlow.symm.trans (by decide)⟩

theorem toBitVec_eq_ofNat (byte : UInt8) : byte.toBitVec = BitVec.ofNat 8 byte.toNat := by
  apply BitVec.eq_of_toNat_eq
  rw [BitVec.toNat_ofNat, UInt8.toNat_toBitVec, Nat.mod_eq_of_lt byte.toNat_lt]

theorem zero_append (byte : UInt8) : (0 : UInt8).toBitVec ++ byte.toBitVec = BitVec.ofNat 16 byte.toNat := by
  have hlt := byte.toNat_lt
  apply BitVec.eq_of_toNat_eq
  rw [BitVec.toNat_append, BitVec.toNat_ofNat, Nat.mod_eq_of_lt (by omega)]
  simp

-- A burst that stays in what the trailer covers.
theorem residue_covered (h : Placed (es ++ [lo, hi]) p k) (hp : p + 3 ≤ es.length) :
    lo = 0 ∧ foldBytes POLY 0 (es.map UInt8.toBitVec) ≠ hi.toBitVec ++ lo.toBitVec := by
  have hlo : lo = 0 := getD_low.symm.trans (h.outside _ (.inr hp))
  have hhi : hi = 0 := getD_high.symm.trans (h.outside _ (.inr (by omega)))
  refine ⟨hlo, fun hfold => h.nonzero ?_⟩
  have hbefore : ∀ q, q < p → es.getD q 0 = 0 := fun q hq =>
    (getD_covered (by omega)).symm.trans (h.outside q (.inl hq))
  have hafter : ∀ q, p + 3 ≤ q → es.getD q 0 = 0 := by
    intro q hq
    by_cases hlt : q < es.length
    · exact (getD_covered hlt).symm.trans (h.outside q (.inr hq))
    · simp [List.getD_eq_getElem?_getD, Nat.not_lt.mp hlt]
  have hes := zeros_before (by omega) hbefore
  rw [drop_cons (by omega), drop_cons (by omega), drop_cons (by omega), zeros_after hafter] at hes
  have hbytes : (es.getD p 0 :: es.getD (p + 1) 0 :: es.getD (p + 2) 0 ::
      List.replicate (es.length - (p + 3)) (0 : UInt8)).map UInt8.toBitVec =
      [(es.getD p 0).toBitVec, (es.getD (p + 1) 0).toBitVec, (es.getD (p + 2) 0).toBitVec] ++
        List.replicate (es.length - (p + 3)) 0 := by simp
  rw [hes, foldBytes_leading, hbytes, foldBytes_append, foldBytes_zeros, hlo, hhi] at hfold
  have hbefore0 := h.before
  have hafter2 := h.after
  rw [getD_covered (by omega)] at hbefore0 hafter2
  have hthree := foldBytes_window h.offset hbefore0 hafter2 (eq_zero_of_steps POLY poly_constant hfold)
  obtain ⟨h0, h1⟩ := append_eq_zero hthree.1
  rw [getD_covered (by omega), getD_covered (by omega), getD_covered (by omega)]
  exact ⟨UInt8.toBitVec_inj.mp h0, UInt8.toBitVec_inj.mp h1, UInt8.toBitVec_inj.mp hthree.2⟩

-- A burst over the last two bytes that the trailer covers and its first byte.
theorem residue_pair (h : Placed (es ++ [lo, hi]) p k) (hp : p + 2 = es.length)
    (hfold : foldBytes POLY 0 (es.map UInt8.toBitVec) = hi.toBitVec ++ lo.toBitVec) :
    [es.getD p 0, es.getD (p + 1) 0, lo, hi] ∈ unseen := by
  have hhi : hi = 0 := getD_high.symm.trans (h.outside _ (.inr (by omega)))
  have hlo : (es ++ [lo, hi]).getD (p + 2) 0 = lo := by rw [hp, getD_low]
  have hes := zeros_before (p := p) (by omega) fun q hq =>
    (getD_covered (by omega)).symm.trans (h.outside q (.inl hq))
  rw [drop_cons (by omega), drop_cons (by omega), List.drop_of_length_le (by omega)] at hes
  rw [hes, foldBytes_leading, hhi, zero_append] at hfold
  change foldBytes POLY 0 [(es.getD p 0).toBitVec, (es.getD (p + 1) 0).toBitVec] = _ at hfold
  rw [foldBytes_two] at hfold
  have hsame : (es.getD p 0).toBitVec ++ (es.getD (p + 1) 0).toBitVec = unsteps 16 (BitVec.ofNat 16 lo.toNat) := by
    have hsteps := hfold.trans (steps_unsteps ⟨lo.toNat, lo.toNat_lt⟩).symm
    have hxor := steps_xor POLY 16 ((es.getD p 0).toBitVec ++ (es.getD (p + 1) 0).toBitVec)
      (unsteps 16 (BitVec.ofNat 16 lo.toNat))
    rw [hsteps, BitVec.xor_self] at hxor
    exact BitVec.xor_eq_zero_iff.mp (eq_zero_of_steps POLY poly_constant hxor)
  have hhigh : highByte (unsteps 16 (BitVec.ofNat 16 lo.toNat)) = es.getD p 0 := by
    rw [← hsame]
    exact UInt8.toBitVec_inj.mp (high_append _ _)
  have hlow : lowByte (unsteps 16 (BitVec.ofNat 16 lo.toNat)) = es.getD (p + 1) 0 := by
    rw [← hsame]
    exact UInt8.toBitVec_inj.mp (low_append _ _)
  have hbyte := last_pair ⟨k, h.offset⟩ ⟨lo.toNat, lo.toNat_lt⟩
  dsimp only at hbyte
  rw [hlow, hhigh, ← toBitVec_eq_ofNat, UInt8.ofNat_toNat] at hbyte
  have hbefore := h.before
  have hafter := h.after
  rw [getD_covered (by omega)] at hbefore
  rw [hlo] at hafter
  obtain hzero | hmem := hbyte ⟨hbefore, fun i _ hi => hafter i hi⟩
  · have hnone : lo = 0 := UInt8.toNat_inj.mp (congrArg Fin.val hzero)
    rw [hnone] at hsame
    obtain ⟨h0, h1⟩ := append_eq_zero (hsame.trans (unsteps_zero 16))
    refine absurd ⟨?_, ?_, hlo.trans hnone⟩ h.nonzero
    · exact (getD_covered (by omega)).trans (UInt8.toBitVec_inj.mp h0)
    · exact (getD_covered (by omega)).trans (UInt8.toBitVec_inj.mp h1)
  · rw [hhi]
    exact hmem

-- A burst over the last byte that the trailer covers and the trailer.
theorem residue_last (h : Placed (es ++ [lo, hi]) p k) (hp : p + 1 = es.length)
    (hfold : foldBytes POLY 0 (es.map UInt8.toBitVec) = hi.toBitVec ++ lo.toBitVec) :
    [0, es.getD p 0, lo, hi] ∈ unseen := by
  have hlo : (es ++ [lo, hi]).getD (p + 1) 0 = lo := by rw [hp, getD_low]
  have hhi : (es ++ [lo, hi]).getD (p + 2) 0 = hi := by rw [show p + 2 = es.length + 1 by omega, getD_high]
  have hfirst : (es ++ [lo, hi]).getD p 0 = es.getD p 0 := getD_covered (by omega)
  have hes := zeros_before (p := p) (by omega) fun q hq =>
    (getD_covered (by omega)).symm.trans (h.outside q (.inl hq))
  rw [drop_cons (by omega), List.drop_of_length_le (by omega)] at hes
  rw [hes, foldBytes_leading] at hfold
  change foldBytes POLY 0 [(es.getD p 0).toBitVec] = _ at hfold
  have hlow : lowByte (foldBytes POLY 0 [(es.getD p 0).toBitVec]) = lo := by
    rw [hfold]
    exact UInt8.toBitVec_inj.mp (low_append _ _)
  have hhigh : highByte (foldBytes POLY 0 [(es.getD p 0).toBitVec]) = hi := by
    rw [hfold]
    exact UInt8.toBitVec_inj.mp (high_append _ _)
  rw [toBitVec_eq_ofNat] at hlow hhigh
  have hbyte := last_byte ⟨k, h.offset⟩ ⟨(es.getD p 0).toNat, (es.getD p 0).toNat_lt⟩
  dsimp only at hbyte
  rw [hlow, hhigh, ← toBitVec_eq_ofNat, UInt8.ofNat_toNat] at hbyte
  have hbefore := h.before
  have hafter := h.after
  rw [hfirst] at hbefore
  rw [hhi] at hafter
  obtain hzero | hmem := hbyte ⟨hbefore, fun i _ hi => hafter i hi⟩
  · have hnone : es.getD p 0 = 0 := UInt8.toNat_inj.mp (congrArg Fin.val hzero)
    rw [hnone] at hfold
    have hfalse := append_eq_zero (hfold.symm.trans (by decide))
    refine absurd ⟨hfirst.trans hnone, hlo.trans ?_, hhi.trans ?_⟩ h.nonzero
    · exact UInt8.toBitVec_inj.mp hfalse.2
    · exact UInt8.toBitVec_inj.mp hfalse.1
  · exact hmem

theorem residue_trailer (h : Placed (es ++ [lo, hi]) p k) (hp : es.length ≤ p) :
    foldBytes POLY 0 (es.map UInt8.toBitVec) ≠ hi.toBitVec ++ lo.toBitVec := by
  intro hfold
  have hes := zeros_of_getD (l := es) fun q => by
    by_cases hq : q < es.length
    · exact (getD_covered hq).symm.trans (h.outside q (.inl (by omega)))
    · simp [List.getD_eq_getElem?_getD, Nat.not_lt.mp hq]
  have hzero := foldBytes_leading es.length []
  rw [List.append_nil, ← hes, hfold] at hzero
  obtain ⟨hhi, hlo⟩ := append_eq_zero hzero
  have hall : ∀ q, es.length ≤ q → (es ++ [lo, hi]).getD q 0 = 0 := by
    intro q hq
    obtain rfl | rfl | hpast : q = es.length ∨ q = es.length + 1 ∨ es.length + 2 ≤ q := by omega
    · exact getD_low.trans (UInt8.toBitVec_inj.mp hlo)
    · exact getD_high.trans (UInt8.toBitVec_inj.mp hhi)
    · have hlength : (es ++ [lo, hi]).length ≤ q := by simpa using hpast
      rw [List.getD_eq_getElem?_getD, List.getElem?_eq_none hlength]
      rfl
  exact h.nonzero ⟨hall _ hp, hall _ (by omega), hall _ (by omega)⟩

theorem residue_iff (hes : 2 ≤ es.length) (hburst : Burst (es ++ [lo, hi])) :
    foldBytes POLY 0 (es.map UInt8.toBitVec) = hi.toBitVec ++ lo.toBitVec ↔
      (es ++ [lo, hi]).drop (es.length - 2) ∈ unseen := by
  obtain ⟨p, k, h⟩ := burst_placed hburst
  rw [last_four hes]
  have hzero : ∀ q, q < p → q < es.length → es.getD q 0 = 0 := fun q hq hlt =>
    (getD_covered hlt).symm.trans (h.outside q (.inl hq))
  constructor
  · intro hfold
    obtain hp | hp | hp | hp : p + 3 ≤ es.length ∨ p + 2 = es.length ∨ p + 1 = es.length ∨ es.length ≤ p := by
      omega
    · exact absurd hfold (residue_covered h hp).2
    · have hmem := residue_pair h hp hfold
      rw [show es.length - 2 = p by omega, show es.length - 1 = p + 1 by omega]
      exact hmem
    · have hmem := residue_last h hp hfold
      rw [hzero (es.length - 2) (by omega) (by omega), show es.length - 1 = p by omega]
      exact hmem
    · exact absurd hfold (residue_trailer h hp)
  · intro hmem
    have hresidue := residue_of_unseen hmem
    obtain ⟨hlast, hlo⟩ := unseen_damages hmem
    have hlate : es.length < p + 3 := by
      by_contra hp
      exact hlo (residue_covered h (by omega)).1
    have hbefore : ∀ q, q < es.length - 2 → es.getD q 0 = 0 := fun q hq => hzero q (by omega) (by omega)
    have heq := zeros_before (p := es.length - 2) (by omega) hbefore
    rw [drop_cons (by omega), drop_cons (by omega), List.drop_of_length_le (by omega),
      show es.length - 2 + 1 = es.length - 1 by omega] at heq
    rw [heq, foldBytes_leading]
    exact hresidue

end Residue

section Frame

theorem putLE_register (crc : BitVec 16) : putLE 2 crc.toNat = [lowByte crc, highByte crc] := by
  have hlow : UInt8.ofNat crc.toNat = lowByte crc := by
    apply UInt8.toNat_inj.mp
    rw [UInt8.toNat_ofNat', lowByte]
    exact (BitVec.toNat_setWidth 8 crc).symm
  have hhigh : UInt8.ofNat (crc.toNat / 256) = highByte crc := by
    apply UInt8.toNat_inj.mp
    rw [UInt8.toNat_ofNat', highByte]
    change _ = ((crc >>> 8).setWidth 8).toNat
    rw [BitVec.toNat_setWidth, BitVec.toNat_ushiftRight, Nat.shiftRight_eq_div_pow]
  simp only [putLE, hlow, hhigh]

theorem register_bytes (crc : BitVec 16) : (highByte crc).toBitVec ++ (lowByte crc).toBitVec = crc := by
  apply BitVec.eq_of_getLsbD_eq
  intro i hi
  simp only [highByte, lowByte, BitVec.getLsbD_append, BitVec.getLsbD_setWidth, BitVec.getLsbD_ushiftRight]
  grind

theorem toNat_pair (lo hi : UInt8) : (hi.toBitVec ++ lo.toBitVec).toNat = getLE [lo, hi] := by
  have hlt : lo.toBitVec.toNat < 2 ^ 8 := lo.toNat_lt
  rw [BitVec.toNat_append, ← Nat.shiftLeft_add_eq_or_of_lt hlt, Nat.shiftLeft_eq]
  simp only [getLE, UInt8.toNat_toBitVec]
  omega

theorem crc16_damage {bytes e : List UInt8} (hlen : bytes.length = e.length) :
    Gd32.crc16 (damage bytes e) = (foldBytes POLY INIT (bytes.map UInt8.toBitVec) ^^^
      foldBytes POLY 0 (e.map UInt8.toBitVec)).toNat := by
  have hmap : (damage bytes e).map UInt8.toBitVec =
      List.zipWith (· ^^^ ·) (bytes.map UInt8.toBitVec) (e.map UInt8.toBitVec) := by
    simp only [damage, List.map_zipWith, List.zipWith_map, UInt8.toBitVec_xor]
  have hbits : (bytes.map UInt8.toBitVec).length = (e.map UInt8.toBitVec).length := by simpa using hlen
  have hxor := foldBytes_xor POLY INIT 0 hbits
  rw [← hmap, show INIT ^^^ 0 = INIT from rfl] at hxor
  rw [crc16_eq false, update_eq_foldBytes, hxor]

theorem replyCrcOk_append (hdr body : List UInt8) (lo hi : UInt8) :
    replyCrcOk hdr (body ++ [lo, hi]) = true ↔ Gd32.crc16 (hdr ++ body) = getLE [lo, hi] := by
  have hlen : (body ++ [lo, hi]).length - CRC_BYTES = body.length := by
    rw [List.length_append]
    rfl
  have hroom : CRC_BYTES ≤ (body ++ [lo, hi]).length := by
    rw [List.length_append]
    exact Nat.le_add_left 2 _
  have hslice : slice body.length 2 (body ++ [lo, hi]) = [lo, hi] := by
    rw [slice_skip _ _ _ _ (Nat.le_refl _), Nat.sub_self]
    rfl
  simp only [replyCrcOk, hlen, hroom, List.take_left, getLe16, hslice, decide_true, Bool.true_and, beq_iff_eq]

theorem replyCrcOk_damage {hdr covered eh ec : List UInt8} (elo ehi : UInt8)
    (hhdr : hdr.length = eh.length) (hcov : covered.length = ec.length) :
    replyCrcOk (damage hdr eh)
      (damage (covered ++ putLE 2 (Gd32.crc16 (hdr ++ covered))) (ec ++ [elo, ehi])) = true ↔
      foldBytes POLY 0 ((eh ++ ec).map UInt8.toBitVec) = ehi.toBitVec ++ elo.toBitVec := by
  let crc := foldBytes POLY INIT ((hdr ++ covered).map UInt8.toBitVec)
  have hcrc : Gd32.crc16 (hdr ++ covered) = crc.toNat := by rw [crc16_eq false, update_eq_foldBytes]
  have hpayload : damage (covered ++ putLE 2 (Gd32.crc16 (hdr ++ covered))) (ec ++ [elo, ehi]) =
      damage covered ec ++ [lowByte crc ^^^ elo, highByte crc ^^^ ehi] := by
    rw [hcrc, putLE_register, damage, List.zipWith_append hcov]
    rfl
  have hframe : damage hdr eh ++ damage covered ec = damage (hdr ++ covered) (eh ++ ec) :=
    (List.zipWith_append hhdr).symm
  have hlen : (hdr ++ covered).length = (eh ++ ec).length := by
    rw [List.length_append, List.length_append, hhdr, hcov]
  have htrailer : (highByte crc ^^^ ehi).toBitVec ++ (lowByte crc ^^^ elo).toBitVec =
      crc ^^^ (ehi.toBitVec ++ elo.toBitVec) := by
    rw [UInt8.toBitVec_xor, UInt8.toBitVec_xor, ← BitVec.xor_append, register_bytes]
  rw [hpayload, replyCrcOk_append, hframe, crc16_damage hlen, ← toNat_pair, htrailer, BitVec.toNat_inj]
  exact BitVec.xor_right_inj crc

theorem verdict_of_crc (kind : ReplyKind) {major : UInt8} {hdr payload : List UInt8}
    (hmajor : PROTOCOL_MAJOR ≤ major) (hcrc : ¬ replyCrcOk hdr payload = true) :
    replyVerdict kind major hdr payload = .error .io := by
  cases payload with
  | nil => rfl
  | cons resp rest =>
      have hfalse : replyCrcOk hdr (resp :: rest) = false := Bool.eq_false_iff.mpr hcrc
      simp [replyVerdict, hmajor, hfalse]

theorem split_pattern {e : List UInt8} {n : Nat} (hlen : e.length = 4 + (n + 2)) :
    ∃ eh ec elo ehi, e = eh ++ (ec ++ [elo, ehi]) ∧ eh.length = 4 ∧ ec.length = n := by
  have hlast : (e.drop (4 + n)).length = 2 := by
    rw [List.length_drop]
    omega
  obtain ⟨elo, ehi, hpair⟩ := List.length_eq_two.mp hlast
  refine ⟨e.take 4, (e.drop 4).take n, elo, ehi, ?_, ?_, ?_⟩
  · rw [← hpair, ← List.drop_drop, List.take_append_drop, List.take_append_drop]
  · rw [List.length_take]
    omega
  · rw [List.length_take, List.length_drop]
    omega

-- A burst on a reply is seen unless it is one of the twelve.
theorem short_bursts_seen (kind : ReplyKind) {major : UInt8} {hdr payload e : List UInt8}
    (hmajor : PROTOCOL_MAJOR ≤ major) (hreply : Replies hdr payload) (hlen : e.length = 4 + payload.length)
    (hburst : Burst e) :
    let frame := damage (hdr ++ payload) e
    (replyCrcOk (frame.take 4) (frame.drop 4) = true ↔ e.drop (e.length - 4) ∈ unseen) ∧
      (e.drop (e.length - 4) ∉ unseen → replyVerdict kind major (frame.take 4) (frame.drop 4) = .error .io) := by
  obtain ⟨covered, hcovered⟩ : ∃ covered, covered = payload.take (payload.length - CRC_BYTES) := ⟨_, rfl⟩
  have hlong := hreply.long
  have hcount : covered.length + 2 = payload.length := by
    rw [hcovered, List.length_take, CRC_BYTES]
    omega
  have hpayload : payload = covered ++ putLE 2 (Gd32.crc16 (hdr ++ covered)) := by
    have htrailer := hreply.trailer
    rw [← hcovered] at htrailer
    rw [← htrailer, hcovered, List.take_append_drop]
  obtain ⟨eh, ec, elo, ehi, rfl, heh, hec⟩ := split_pattern (e := e) (n := covered.length) (by omega)
  have hhdr : hdr.length = eh.length := hreply.header.trans heh.symm
  have hframe : damage (hdr ++ payload) (eh ++ (ec ++ [elo, ehi])) =
      damage hdr eh ++ damage payload (ec ++ [elo, ehi]) := List.zipWith_append hhdr
  have hfour : (damage hdr eh).length = 4 := by
    rw [damage, List.length_zipWith, hhdr, heh]
    rfl
  have hcrc := replyCrcOk_damage elo ehi hhdr hec.symm
  rw [← hpayload] at hcrc
  have hlong : 2 ≤ (eh ++ ec).length := by
    rw [List.length_append]
    omega
  have hwhole : Burst ((eh ++ ec) ++ [elo, ehi]) := by
    rw [List.append_assoc]
    exact hburst
  have hseen := residue_iff hlong hwhole
  have hcut : (eh ++ (ec ++ [elo, ehi])).length - 4 = (eh ++ ec).length - 2 := by
    simp only [List.length_append, List.length_cons, List.length_nil]
    omega
  rw [List.append_assoc, ← hcut] at hseen
  dsimp only
  rw [hframe, List.take_left' hfour, List.drop_left' hfour]
  have hiff := hcrc.trans hseen
  exact ⟨hiff, fun hnot => verdict_of_crc kind hmajor fun hok => hnot (hiff.mp hok)⟩

theorem streamBit_past {bytes : List UInt8} {i : Nat} (h : 8 * bytes.length ≤ i) : streamBit bytes i = false := by
  have hout : bytes.length ≤ i / 8 := by omega
  rw [streamBit, List.getD_eq_getElem?_getD, List.getElem?_eq_none hout]
  simp

theorem burst_of_window {e : List UInt8} {s i : Nat} (hbit : streamBit e i = true)
    (hall : ∀ j, j < 8 * e.length → streamBit e j = true → s ≤ j ∧ j < s + 16) : Burst e := by
  refine ⟨⟨i, hbit⟩, s, fun j hj => ?_⟩
  by_cases hin : j < 8 * e.length
  · exact hall j hin hj
  · rw [streamBit_past (Nat.not_lt.mp hin)] at hj
    cases hj

-- One data byte and the low byte of the trailer: the damaged reply reads as a good one.
theorem burst_unseen :
    ∃ hdr payload e : List UInt8, Replies hdr payload ∧ e.length = 4 + payload.length ∧ Burst e ∧
      e.getD 0 0 = 0 ∧ e.getD 2 0 = 0 ∧ e.getD 3 0 = 0 ∧
      replyVerdict ⟨true, false, false⟩ PROTOCOL_MAJOR ((damage (hdr ++ payload) e).take 4)
        ((damage (hdr ++ payload) e).drop 4) ≠ .error .io := by
  refine ⟨[0x05, 0x00, 0x04, 0x00], [0x5A, 0x00, 0x94, 0x66], [0, 0, 0, 0, 0, 0x89, 0xA1, 0],
    ⟨rfl, by decide, by decide, by decide +kernel⟩, rfl, ?_, rfl, rfl, rfl, by decide +kernel⟩
  exact burst_of_window (s := 40) (i := 40) (by decide) (by decide +kernel)

-- Sixteen bits from the middle of the status byte into the trailer, the first and the last of them damaged.
theorem short_bursts_seen_straddling :
    replyVerdict ⟨true, false, false⟩ PROTOCOL_MAJOR [0x05, 0x00, 0x04, 0x00] [0x52, 0xC2, 0x84, 0x66] =
      .error .io := by
  have hreply : Replies [0x05, 0x00, 0x04, 0x00] [0x5A, 0x00, 0x94, 0x66] :=
    ⟨rfl, by decide, by decide, by decide +kernel⟩
  have hburst : Burst [0, 0, 0, 0, 0x08, 0xC2, 0x10, 0] :=
    burst_of_window (s := 36) (i := 36) (by decide) (by decide +kernel)
  exact (short_bursts_seen ⟨true, false, false⟩ (by decide) hreply rfl hburst).2 (by decide)

end Frame

end AlpSdk.Cc3501e
