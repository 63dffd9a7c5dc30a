import AlpSdk.SomIdentity

-- The checksum of the reader is that of the tool, and no short burst of errors passes it.
namespace AlpSdk.SomIdentity

open Library.Bytes Library.Crc

section Reversed

theorem reverse_xor {w : Nat} (a b : BitVec w) : (a ^^^ b).reverse = a.reverse ^^^ b.reverse := by
  apply BitVec.eq_of_getMsbD_eq
  intro i hi
  simp only [BitVec.getMsbD_reverse, BitVec.getMsbD_xor, BitVec.getLsbD_xor]

theorem mask_eq (crc : BitVec 32) : -(crc &&& 1) = if crc.getLsbD 0 then BitVec.allOnes 32 else 0 := by
  have hbit : crc &&& 1 = (BitVec.ofBool (crc.getLsbD 0)).setWidth 32 :=
    BitVec.and_one_eq_setWidth_ofBool_getLsbD
  rw [hbit]
  cases crc.getLsbD 0 <;> decide

-- The register with its bits in the other order.
theorem reverse_crcBit (crc : BitVec 32) : (crcBit crc).reverse = step CRC32_POLY crc.reverse := by
  have hshift : (crc >>> 1).reverse = crc.reverse <<< 1 := by
    apply BitVec.eq_of_getMsbD_eq
    intro i hi
    simp only [BitVec.getMsbD_reverse, BitVec.getMsbD_shiftLeft, BitVec.getLsbD_ushiftRight, Nat.add_comm]
  rw [crcBit, mask_eq, reverse_xor, hshift, step, BitVec.msb_reverse]
  cases crc.getLsbD 0 with
  | false =>
      have hzero : (0xEDB88320 &&& (0 : BitVec 32)).reverse = 0 := by decide +kernel
      rw [if_neg (by decide), if_neg (by decide), hzero]
      exact BitVec.xor_zero
  | true =>
      have hpoly : (0xEDB88320 &&& BitVec.allOnes 32).reverse = CRC32_POLY := by decide +kernel
      rw [if_pos rfl, if_pos rfl, hpoly]

theorem reverse_iterate (n : Nat) (crc : BitVec 32) :
    (crcBit^[n] crc).reverse = steps CRC32_POLY n crc.reverse := by
  induction n generalizing crc with
  | zero => rfl
  | succ n ih => rw [Function.iterate_succ_apply, ih, reverse_crcBit, steps]

theorem reverse_setWidth (byte : BitVec 8) : (byte.setWidth 32).reverse = top 32 byte.reverse := by
  apply BitVec.eq_of_getMsbD_eq
  intro i hi
  rw [top, BitVec.getMsbD_reverse, BitVec.getMsbD_shiftLeft, BitVec.getMsbD_setWidth,
    BitVec.getMsbD_reverse, BitVec.getLsbD_setWidth]
  have hat : i + (32 - 8) + 8 - 32 = i := by omega
  simp [hat, hi]

theorem reverse_foldl (buf : List UInt8) (crc : BitVec 32) :
    (buf.foldl (fun crc byte => crcBit^[8] (crc ^^^ byte.toBitVec.setWidth 32)) crc).reverse =
      foldBytes CRC32_POLY crc.reverse (buf.map fun byte => byte.toBitVec.reverse) := by
  induction buf generalizing crc with
  | nil => rfl
  | cons byte rest ih =>
      rw [List.foldl_cons, ih, reverse_iterate, reverse_xor, reverse_setWidth]
      rfl

theorem alpHwInfoCrc32_eq (buf : List UInt8) : alpHwInfoCrc32 buf = zlibCrc32 buf := by
  have hrev := reverse_foldl buf 0xFFFFFFFF
  have hinit : (0xFFFFFFFF : BitVec 32).reverse = BitVec.allOnes 32 := by decide +kernel
  rw [hinit] at hrev
  rw [alpHwInfoCrc32, zlibCrc32, ← hrev, BitVec.reverse_reverse_eq]

end Reversed

section Damage

def damage (bytes e : List UInt8) : List UInt8 := List.zipWith (· ^^^ ·) bytes e

-- The bits of a byte string in the order in which the checksum takes them, of each byte the least
-- significant first.
def bitsLsb (bytes : List UInt8) : List Bool :=
  bytes.flatMap fun byte => (List.range 8).map byte.toBitVec.getLsbD

-- Errors within 32 consecutive bits in that order. On the wire the most significant bit of a byte
-- comes first, and 32 bits in that order may lie further apart in this one.
def Burst (e : List UInt8) : Prop :=
  ∃ before burst after, bitsLsb e = List.replicate before false ++ burst ++ List.replicate after false ∧
    burst.length ≤ 32 ∧ true ∈ burst

theorem bitsLsb_append (xs ys : List UInt8) : bitsLsb (xs ++ ys) = bitsLsb xs ++ bitsLsb ys :=
  List.flatMap_append

theorem length_bitsLsb (bytes : List UInt8) : (bitsLsb bytes).length = 8 * bytes.length := by
  induction bytes with
  | nil => rfl
  | cons byte rest ih =>
      rw [bitsLsb, List.flatMap_cons, List.length_append, ← bitsLsb, ih]
      simp [Nat.mul_succ, Nat.add_comm]

theorem bitsLsb_zeros (n : Nat) : bitsLsb (List.replicate n 0) = List.replicate (8 * n) false := by
  induction n with
  | zero => rfl
  | succ n ih =>
      have hbyte : bitsLsb [0] = List.replicate 8 false := by decide
      rw [List.replicate_succ', bitsLsb_append, ih, hbyte, List.replicate_append_replicate, Nat.mul_succ]

theorem mem_bitsLsb {bytes : List UInt8} {byte : UInt8} (hmem : byte ∈ bytes) (hne : byte ≠ 0) :
    true ∈ bitsLsb bytes := by
  have hbits : byte.toBitVec ≠ 0#8 := fun h => hne (UInt8.toBitVec_inj.mp h)
  obtain ⟨i, hi, hset⟩ : ∃ i, i < 8 ∧ byte.toBitVec.getLsbD i = true := by
    by_contra hnone
    refine hbits (BitVec.eq_of_getLsbD_eq fun i hi => ?_)
    rw [BitVec.getLsbD_zero]
    exact Bool.eq_false_iff.mpr fun h => hnone ⟨i, hi, h⟩
  refine List.mem_flatMap.mpr ⟨byte, hmem, List.mem_map.mpr ⟨i, List.mem_range.mpr hi, hset⟩⟩

-- Damage to four bytes in a row, in whatever order their bits are counted.
theorem burst_of_bytes {four : List UInt8} {byte : UInt8} (hfour : four.length ≤ 4) (hmem : byte ∈ four)
    (hne : byte ≠ 0) (n m : Nat) : Burst (List.replicate n 0 ++ four ++ List.replicate m 0) := by
  refine ⟨8 * n, bitsLsb four, 8 * m, ?_, ?_, mem_bitsLsb hmem hne⟩
  · rw [bitsLsb_append, bitsLsb_append, bitsLsb_zeros, bitsLsb_zeros]
  · rw [length_bitsLsb]
    omega

theorem bitsLsb_eq (bytes : List UInt8) :
    (bytes.map fun byte => byte.toBitVec.reverse).flatMap bitsOf = bitsLsb bytes := by
  rw [List.flatMap_map, bitsLsb]
  congr 1
  funext byte
  exact List.map_congr_left fun i _ => BitVec.getMsbD_reverse

theorem testBit_getLE_cons (byte : UInt8) (rest : List UInt8) (i : Nat) :
    (getLE (byte :: rest)).testBit i = if i < 8 then byte.toNat.testBit i else (getLE rest).testBit (i - 8) := by
  have hsum : getLE (byte :: rest) = 2 ^ 8 * getLE rest + byte.toNat := by
    rw [getLE]
    omega
  rw [hsum, Nat.testBit_two_pow_mul_add _ byte.toNat_lt]

theorem getD_bitsLsb (bytes : List UInt8) (i : Nat) :
    (bitsLsb bytes).getD i false = (getLE bytes).testBit i := by
  induction bytes generalizing i with
  | nil => simp [bitsLsb, getLE]
  | cons byte rest ih =>
      have hlen : ((List.range 8).map byte.toBitVec.getLsbD).length = 8 := by simp
      rw [bitsLsb, List.flatMap_cons, testBit_getLE_cons]
      by_cases hi : i < 8
      · rw [if_pos hi, List.getD_append _ _ _ _ (by rw [hlen]; exact hi)]
        simp [List.getD_eq_getElem?_getD, hi]
        rfl
      · rw [if_neg hi, List.getD_append_right _ _ _ _ (by rw [hlen]; omega), hlen]
        exact ih _

theorem getLE_damage {xs ys : List UInt8} (hlen : xs.length = ys.length) :
    getLE (damage xs ys) = getLE xs ^^^ getLE ys := by
  induction xs generalizing ys with
  | nil =>
      obtain rfl := List.length_eq_zero_iff.mp hlen.symm
      rfl
  | cons x xs ih =>
      cases ys with
      | nil => cases hlen
      | cons y ys =>
          have hrest := ih (Nat.succ.inj hlen)
          apply Nat.eq_of_testBit_eq
          intro i
          rw [damage, List.zipWith_cons_cons, ← damage, Nat.testBit_xor, testBit_getLE_cons,
            testBit_getLE_cons, testBit_getLE_cons, hrest]
          split
          · rw [UInt8.toNat_xor, Nat.testBit_xor]
          · rw [Nat.testBit_xor]

theorem zlibCrc32_damage {bytes e : List UInt8} (hlen : bytes.length = e.length) :
    zlibCrc32 (damage bytes e) = zlibCrc32 bytes ^^^
      (foldBytes CRC32_POLY 0 (e.map fun byte => byte.toBitVec.reverse)).reverse := by
  have hmap : (damage bytes e).map (fun byte => byte.toBitVec.reverse) =
      List.zipWith (· ^^^ ·) (bytes.map fun byte => byte.toBitVec.reverse)
        (e.map fun byte => byte.toBitVec.reverse) := by
    simp only [damage, List.map_zipWith, List.zipWith_map, UInt8.toBitVec_xor, reverse_xor]
  have hbits : (bytes.map fun byte => byte.toBitVec.reverse).length =
      (e.map fun byte => byte.toBitVec.reverse).length := by simpa using hlen
  have hstart : BitVec.allOnes 32 ^^^ 0 = BitVec.allOnes 32 := BitVec.xor_zero
  have hxor := foldBytes_xor CRC32_POLY (BitVec.allOnes 32) 0 hbits
  rw [hstart] at hxor
  rw [zlibCrc32, hmap, hxor, reverse_xor, zlibCrc32]
  exact BitVec.not_xor_left

theorem ofBits_trailer (t : List UInt8) :
    ofBits 32 (bitsLsb t) = (BitVec.ofNat 32 (getLE t)).reverse := by
  apply BitVec.eq_of_getMsbD_eq
  intro i hi
  rw [getMsbD_ofBits, getD_bitsLsb, BitVec.getMsbD_reverse, BitVec.getLsbD_ofNat]

-- The register of a burst is not what the burst does to the checksum itself.
theorem residue_burst {d t : List UInt8} (ht : t.length = 4) (hburst : Burst (d ++ t)) :
    (foldBytes CRC32_POLY 0 (d.map fun byte => byte.toBitVec.reverse)).reverse ≠
      BitVec.ofNat 32 (getLE t) := by
  intro heq
  obtain ⟨before, burst, after, hbits, hshort, hset⟩ := hburst
  have hwhole : foldBits CRC32_POLY 0 (bitsLsb (d ++ t)) = 0 := by
    have hlen : (bitsLsb t).length ≤ 32 := by rw [length_bitsLsb, ht]
    rw [bitsLsb_append, foldBits_append, foldBits_eq_steps _ _ hlen, ofBits_trailer, ← heq,
      BitVec.reverse_reverse_eq, foldBytes_eq_foldBits _ (by decide), bitsLsb_eq, BitVec.xor_self]
    exact steps_zero _ _
  rw [hbits] at hwhole
  have hnone := foldBits_burst CRC32_POLY (by decide) hshort hwhole
  rw [hnone] at hset
  exact absurd (List.eq_of_mem_replicate hset) (by decide)

theorem checksum_burst {header d t : List UInt8} (hlen : header.length = d.length) (ht : t.length = 4)
    (hburst : Burst (d ++ t)) :
    (zlibCrc32 (damage header d)).toNat ≠ getLE (damage (putLE 4 (zlibCrc32 header).toNat) t) := by
  intro heq
  have htrailer : getLE (putLE 4 (zlibCrc32 header).toNat) = (zlibCrc32 header).toNat := by
    rw [getLE_putLE]
    exact Nat.mod_eq_of_lt (zlibCrc32 header).isLt
  rw [getLE_damage (by rw [length_putLE, ht]), htrailer, zlibCrc32_damage hlen, BitVec.toNat_xor] at heq
  have hres := Nat.xor_right_inj.mp heq
  refine residue_burst ht hburst ?_
  apply BitVec.eq_of_toNat_eq
  rw [hres, BitVec.toNat_ofNat, Nat.mod_eq_of_lt]
  have hlt := getLE_lt t
  rw [ht] at hlt
  exact hlt

end Damage

end AlpSdk.SomIdentity
