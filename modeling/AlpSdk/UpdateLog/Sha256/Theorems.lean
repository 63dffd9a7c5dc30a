import AlpSdk.UpdateLog.Sha256

-- The streamed digest is the standard's, whatever the pieces the message comes in.
namespace AlpSdk.UpdateLog.Sha256

open Library.Bytes Library.Blocks

-- The message schedule.
def W (block : List UInt8) (t : Nat) : UInt32 :=
  if t < 16 then word block (4 * t)
  else sig1 (W block (t - 2)) + W block (t - 7) + sig0 (W block (t - 15)) + W block (t - 16)

def compress (hash : Words) (block : List UInt8) : Words :=
  hash.add ((List.range 64).foldl (fun v t => round (k.getD t 0) (W block t) v) hash)

def Words.toList (w : Words) : List UInt32 := [w.a, w.b, w.c, w.d, w.e, w.f, w.g, w.h]

def bigEndian (w : UInt32) : List UInt8 := (putLE 4 w.toNat).reverse

-- A one bit, zeros up to the last eight bytes of a block, and the length in bits.
def padding (len : Nat) : List UInt8 :=
  0x80 :: List.replicate ((119 - len % 64) % 64) 0 ++ (putLE 8 (8 * len % 2 ^ 64)).reverse

def sha256 (message : List UInt8) : List UInt8 :=
  (run 64 compress INIT_STATE (message ++ padding message.length)).toList.flatMap bigEndian

section Transform

variable {block : List UInt8}

theorem extend_schedule {i : Nat} (hi : 16 ≤ i) :
    extend ((List.range i).map (W block)) i = (List.range (i + 1)).map (W block) := by
  have hget (j : Nat) (hj : j < i) : ((List.range i).map (W block)).getD j 0 = W block j := by
    simp [List.getD_eq_getElem?_getD, hj]
  rw [extend, hget _ (by omega), hget _ (by omega), hget _ (by omega), hget _ (by omega), List.range_succ,
    List.map_append, List.map_singleton]
  congr 2
  rw [W.eq_def block i, if_neg (by omega)]

theorem foldl_extend (n : Nat) :
    (List.range' 16 n).foldl extend ((List.range 16).map (W block)) = (List.range (16 + n)).map (W block) := by
  induction n with
  | zero => rfl
  | succ n ih =>
      rw [List.range'_concat, List.foldl_append, ih, Nat.one_mul]
      exact extend_schedule (Nat.le_add_right 16 n)

theorem expand_eq (block : List UInt8) : expand block = (List.range 64).map (W block) := by
  have hfirst : ((List.range 16).map fun i => word block (4 * i)) = (List.range 16).map (W block) := by
    refine List.map_congr_left fun i hi => ?_
    rw [W.eq_def, if_pos (List.mem_range.mp hi)]
  rw [expand, hfirst, foldl_extend]

theorem transform_eq : sha256Transform = compress := by
  funext state block
  have hround (v : Words) (i : Nat) (hi : i ∈ List.range 64) :
      round (k.getD i 0) ((expand block).getD i 0) v = round (k.getD i 0) (W block i) v := by
    rw [expand_eq, List.getD_eq_getElem?_getD]
    simp [List.mem_range.mp hi]
  rw [sha256Transform, compress]
  exact congrArg state.add (List.foldl_ext _ _ _ hround)

end Transform

section Update

variable {ctx : Ctx} {message : List UInt8}

-- A context that has taken in the message so far.
structure Holds (ctx : Ctx) (message : List UInt8) : Prop where
  absorbed : Absorbed 64 compress INIT_STATE message ctx.state (ctx.data.toList.take ctx.datalen)
  bitlen : ctx.bitlen = UInt64.ofNat (512 * (message.length / 64))

theorem holds_init (frame : Vector UInt8 64) : Holds (sha256Init frame) [] :=
  ⟨absorbed_nil (by decide), rfl⟩

theorem Holds.length_mod (h : Holds ctx message) : message.length % 64 = ctx.datalen := by
  rw [h.absorbed.length_mod]
  simp

theorem take_set (data : Vector UInt8 64) (i : Fin 64) (byte : UInt8) :
    (data.set i byte).toList.take (i + 1) = data.toList.take i ++ [byte] := by
  rw [List.take_add_one, Vector.toList_set, List.take_set_of_le (Nat.le_refl _)]
  simp

theorem Holds.updateByte (h : Holds ctx message) (byte : UInt8) :
    Holds (updateByte ctx byte) (message ++ [byte]) := by
  have hmod := h.length_mod
  have hpending : (ctx.data.toList.take ctx.datalen).length = ctx.datalen := by simp
  rw [Sha256.updateByte]
  split
  next hlt =>
      refine ⟨?_, ?_⟩
      · have hpush := h.absorbed.push byte (by omega)
        rw [← take_set] at hpush
        exact hpush
      · rw [h.bitlen, List.length_append, List.length_singleton]
        congr 2
        omega
  next hge =>
      refine ⟨?_, ?_⟩
      · have hfull := h.absorbed.full byte (by omega)
        rw [← take_set, show ctx.datalen.val + 1 = 64 by omega, List.take_of_length_le (by simp)] at hfull
        rw [transform_eq]
        exact hfull
      · rw [h.bitlen, List.length_append, List.length_singleton]
        rw [show (message.length + 1) / 64 = message.length / 64 + 1 by omega, Nat.mul_succ, UInt64.ofNat_add]
        rfl

theorem Holds.foldl (h : Holds ctx message) (data : List UInt8) :
    Holds (data.foldl Sha256.updateByte ctx) (message ++ data) := by
  induction data generalizing ctx message with
  | nil => simpa using h
  | cons byte rest ih =>
      have hrest := ih (h.updateByte byte)
      rwa [List.append_assoc] at hrest

theorem updateAll_of_short (pieces : List (List UInt8)) (hshort : ∀ piece ∈ pieces, piece.length < 2 ^ 32)
    (h : Holds ctx message) : ∃ ctx', updateAll ctx pieces = some ctx' ∧ Holds ctx' (message ++ pieces.flatten) := by
  induction pieces generalizing ctx message with
  | nil => exact ⟨ctx, rfl, by simpa using h⟩
  | cons piece rest ih =>
      obtain ⟨ctx', hrest, hholds⟩ := ih (fun p hp => hshort p (List.mem_cons_of_mem _ hp)) (h.foldl piece)
      refine ⟨ctx', ?_, by simpa using hholds⟩
      rw [updateAll, sha256Update, if_pos (hshort piece List.mem_cons_self)]
      exact hrest

theorem updateAll_of_long (ctx : Ctx) (pieces : List (List UInt8))
    (hlong : ¬ ∀ piece ∈ pieces, piece.length < 2 ^ 32) : updateAll ctx pieces = none := by
  induction pieces generalizing ctx with
  | nil => exact absurd (by simp) hlong
  | cons piece rest ih =>
      rw [updateAll, sha256Update]
      by_cases hpiece : piece.length < 2 ^ 32
      · rw [if_pos hpiece]
        refine ih _ fun hrest => hlong fun p hp => ?_
        obtain rfl | hp := List.mem_cons.mp hp
        · exact hpiece
        · exact hrest p hp
      · rw [if_neg hpiece]
        rfl

end Update

section Final

theorem toList_fill (lo n : Nat) (byte : Nat → UInt8) (data : Vector UInt8 64) (h : lo + n ≤ 64) :
    (fill lo n byte data).toList =
      data.toList.take lo ++ (List.range' lo n).map byte ++ data.toList.drop (lo + n) := by
  induction n with
  | zero => simp [fill]
  | succ n ih =>
      have hfill : fill lo (n + 1) byte data = (fill lo n byte data).setIfInBounds (lo + n) (byte (lo + n)) := by
        rw [fill, List.range'_1_concat, List.foldl_append]
        rfl
      have hhead : (data.toList.take lo ++ (List.range' lo n).map byte).length = lo + n := by
        simp
        omega
      rw [hfill, Vector.toList_setIfInBounds, ih (by omega), List.set_append_right _ _ (by omega), hhead, Nat.sub_self,
        List.range'_1_concat, List.map_append, ← List.append_assoc, List.append_assoc _ _ (data.toList.drop _)]
      congr 1
      rw [List.drop_eq_getElem_cons (by simp; omega)]
      rfl

-- The length in bits, most significant byte first.
theorem byte_of_shift (x : UInt64) {j : Nat} (hj : j < 8) :
    (x >>> UInt64.ofNat (8 * j)).toUInt8 = UInt8.ofNat (x.toNat / 256 ^ j) := by
  apply UInt8.toNat_inj.mp
  have hcount : (UInt64.ofNat (8 * j)).toNat % 64 = 8 * j := by
    rw [UInt64.toNat_ofNat']
    omega
  rw [UInt64.toNat_toUInt8, UInt64.toNat_shiftRight, hcount, Nat.shiftRight_eq_div_pow, UInt8.toNat_ofNat',
    Nat.pow_mul]

theorem byte_of_word (w : UInt32) {j : Nat} (hj : j < 4) :
    ((w >>> UInt32.ofNat (8 * j)) &&& 0xff).toUInt8 = UInt8.ofNat (w.toNat / 256 ^ j) := by
  apply UInt8.toNat_inj.mp
  have hcount : (UInt32.ofNat (8 * j)).toNat % 32 = 8 * j := by
    rw [UInt32.toNat_ofNat']
    omega
  have hmask : (0xff : UInt32).toNat = 2 ^ 8 - 1 := rfl
  rw [UInt32.toNat_toUInt8, UInt32.toNat_and, hmask, Nat.and_two_pow_sub_one_eq_mod, UInt32.toNat_shiftRight, hcount,
    Nat.shiftRight_eq_div_pow, UInt8.toNat_ofNat', Nat.pow_mul, Nat.mod_mod]

theorem length_bytes (x : UInt64) :
    (List.range' 56 8).map (fun j => (x >>> UInt64.ofNat (8 * (63 - j))).toUInt8) = (putLE 8 x.toNat).reverse := by
  have hbytes : (List.range' 56 8).map (fun j => (x >>> UInt64.ofNat (8 * (63 - j))).toUInt8) =
      (List.range' 56 8).map fun j => UInt8.ofNat (x.toNat / 256 ^ (63 - j)) := by
    refine List.map_congr_left fun j hj => byte_of_shift x ?_
    obtain ⟨i, hi, rfl⟩ := List.mem_range'.mp hj
    omega
  rw [hbytes, putLE_eq_map]
  rfl

theorem bigEndian_eq (w : UInt32) :
    bigEndian w = [((w >>> 24) &&& 0xff).toUInt8, ((w >>> 16) &&& 0xff).toUInt8, ((w >>> 8) &&& 0xff).toUInt8,
      ((w >>> 0) &&& 0xff).toUInt8] := by
  have hbyte (j : Nat) (hj : j < 4) := (byte_of_word w hj).symm
  rw [bigEndian, putLE_eq_map]
  simp only [List.range, List.range.loop, List.map_cons, List.map_nil]
  rw [hbyte 0 (by decide), hbyte 1 (by decide), hbyte 2 (by decide), hbyte 3 (by decide)]
  rfl

theorem ofFn_hashOut (state : Words) : List.ofFn (hashOut state) = state.toList.flatMap bigEndian := by
  rw [show bigEndian = _ from funext bigEndian_eq]
  rfl

theorem toList_zeros (lo n : Nat) (data : Vector UInt8 64) (h : lo + n ≤ 64) :
    (fill lo n (fun _ => 0) data).toList =
      data.toList.take lo ++ List.replicate n 0 ++ data.toList.drop (lo + n) := by
  rw [toList_fill lo n _ data h, List.map_const', List.length_range']

theorem toList_last (x : UInt64) (data : Vector UInt8 64) :
    (fill 56 8 (fun j => (x >>> UInt64.ofNat (8 * (63 - j))).toUInt8) data).toList =
      data.toList.take 56 ++ (putLE 8 x.toNat).reverse := by
  rw [toList_fill 56 8 _ data (by decide), length_bytes, List.drop_of_length_le (by simp), List.append_nil]

variable {ctx : Ctx} {message : List UInt8}

theorem Holds.bits (h : Holds ctx message) :
    (ctx.bitlen + UInt64.ofNat (ctx.datalen * 8)).toNat = 8 * message.length % 2 ^ 64 := by
  have hmod := h.length_mod
  rw [h.bitlen, ← UInt64.ofNat_add, UInt64.toNat_ofNat']
  congr 1
  omega

theorem sha256Final_eq (h : Holds ctx message) : List.ofFn (sha256Final ctx) = sha256 message := by
  have hmod := h.length_mod
  have hdatalen := ctx.datalen.isLt
  have hmarked := take_set ctx.data ctx.datalen 0x80
  have hbits := h.bits
  rw [sha256, h.absorbed.run_append, sha256Final]
  dsimp only
  rw [ofFn_hashOut, transform_eq]
  congr 2
  split
  next hlt =>
      have hpadding : ctx.data.toList.take ctx.datalen ++ padding message.length =
          (ctx.data.toList.take ctx.datalen ++ [0x80] ++ List.replicate (55 - ctx.datalen) 0) ++
            (putLE 8 (8 * message.length % 2 ^ 64)).reverse := by
        rw [padding, show (119 - message.length % 64) % 64 = 55 - ctx.datalen by omega]
        simp
      have hfirst : (ctx.data.toList.take ctx.datalen ++ [0x80] ++ List.replicate (55 - ctx.datalen) 0).length =
          56 := by
        simp
        omega
      rw [toList_last, hbits, toList_zeros _ _ _ (by omega), hmarked, List.take_left' hfirst, hpadding, run_block]
      · decide
      · rw [List.length_append, hfirst, List.length_reverse, length_putLE]
  next hge =>
      have hpadding : ctx.data.toList.take ctx.datalen ++ padding message.length =
          (ctx.data.toList.take ctx.datalen ++ [0x80] ++ List.replicate (63 - ctx.datalen) 0) ++
            (List.replicate 56 0 ++ (putLE 8 (8 * message.length % 2 ^ 64)).reverse) := by
        rw [padding, show (119 - message.length % 64) % 64 = 63 - ctx.datalen + 56 by omega, List.replicate_add]
        simp
      have hfirst : (ctx.data.toList.take ctx.datalen ++ [0x80] ++ List.replicate (63 - ctx.datalen) 0).length =
          64 := by
        simp
        omega
      have hpadded := toList_zeros (ctx.datalen + 1) (63 - ctx.datalen) (ctx.data.set ctx.datalen 0x80) (by omega)
      rw [hmarked, List.drop_of_length_le (by simp; omega), List.append_nil] at hpadded
      rw [toList_last, hbits]
      dsimp only
      rw [hpadded, toList_zeros 0 56 _ (by decide), List.take_zero, List.nil_append, List.take_left' (by simp),
        hpadding, run_append (by rw [hfirst]), run_block (by decide) hfirst, run_block (by decide) (by simp)]

theorem ulogSha256_eq (frame : Vector UInt8 64) {buf : List UInt8} (hshort : buf.length < 2 ^ 32) :
    (ulogSha256 frame buf).map List.ofFn = some (sha256 buf) := by
  rw [ulogSha256, sha256Update, if_pos hshort]
  exact congrArg some (sha256Final_eq ((holds_init frame).foldl buf))

-- The digest of a message that comes in pieces is that of the message, and there is none where a
-- piece is so long that the loop over it does not end.
theorem sha256_streamed (frame : Vector UInt8 64) (pieces : List (List UInt8)) :
    ((updateAll (sha256Init frame) pieces).map fun ctx => List.ofFn (sha256Final ctx)) =
      if ∀ piece ∈ pieces, piece.length < 2 ^ 32 then some (sha256 pieces.flatten) else none := by
  split
  next hshort =>
      obtain ⟨ctx, hupdate, hholds⟩ := updateAll_of_short pieces hshort (holds_init frame)
      rw [hupdate, Option.map_some, sha256Final_eq hholds]
      rfl
  next hlong =>
      rw [updateAll_of_long _ _ hlong]
      rfl

end Final

end AlpSdk.UpdateLog.Sha256
