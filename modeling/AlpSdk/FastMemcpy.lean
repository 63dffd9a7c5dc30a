import AlpSdk.Library.Effect
import AlpSdk.Library.Memory

-- The `memcpy` of the image, a word at a time (src/common/alp_fast_memcpy_core.c).
namespace AlpSdk.FastMemcpy

open Library.Effect Library.Memory Prog

variable {w : Nat} {α β : Type}

-- The loads and stores of the copy, over pointers of `w` bits.
inductive Access (w : Nat) where
  | load8 (p : BitVec w)
  | store8 (p : BitVec w) (v : UInt8)
  | load32 (p : BitVec w)
  | store32 (p : BitVec w) (v : UInt32)

abbrev bus (w : Nat) : Signature where
  Cmd := Access w
  Reply
    | .load8 _ => UInt8
    | .load32 _ => UInt32
    | .store8 _ _ | .store32 _ _ => Unit

def memory : Handler (bus w) (Mem w)
  | .load8 p, m => (m p, m)
  | .store8 p v, m => ((), put m p v)
  | .load32 p, m => (word m p, m)
  | .store32 p v, m => ((), putWord m p v)

-- `*d = *s`, on bytes and on words.
def copyByte (d s : BitVec w) : Prog (bus w) Unit := do
  let v ← perform (σ := bus w) (.load8 s)
  perform (σ := bus w) (.store8 d v)

def copyWord (d s : BitVec w) : Prog (bus w) Unit := do
  let v ← perform (σ := bus w) (.load32 s)
  perform (σ := bus w) (.store32 d v)

-- What a loop hands on to the next one: its pointers and the bytes that are left.
structure Cursor (w : Nat) where
  d : BitVec w
  s : BitVec w
  n : Nat

-- `while (n && (d & 3))`
def alignLoop : (n : Nat) → (d s : BitVec w) → Prog (bus w) (Cursor w)
  | 0, d, s => pure ⟨d, s, 0⟩
  | n + 1, d, s => do
      if d &&& 3 ≠ 0 then
        copyByte d s
        alignLoop n (d + 1) (s + 1)
      else pure ⟨d, s, n + 1⟩

-- `while (n >= 16)`
def blockLoop : (n : Nat) → (dw sw : BitVec w) → Prog (bus w) (Cursor w)
  | n + 16, dw, sw => do
      copyWord dw sw
      copyWord (dw + 4) (sw + 4)
      copyWord (dw + 8) (sw + 8)
      copyWord (dw + 12) (sw + 12)
      blockLoop n (dw + 16) (sw + 16)
  | n, dw, sw => pure ⟨dw, sw, n⟩

-- `while (n >= 4)`
def wordLoop : (n : Nat) → (dw sw : BitVec w) → Prog (bus w) (Cursor w)
  | n + 4, dw, sw => do
      copyWord dw sw
      wordLoop n (dw + 4) (sw + 4)
  | n, dw, sw => pure ⟨dw, sw, n⟩

-- `while (n--)`
def byteLoop : (n : Nat) → (d s : BitVec w) → Prog (bus w) Unit
  | 0, _, _ => pure ()
  | n + 1, d, s => do
      copyByte d s
      byteLoop n (d + 1) (s + 1)

-- The guard on the alignment of `dw` and `sw`, which only the unit test compiles in, is left out.
def alpFastMemcpyCore (dst src n : BitVec w) : Prog (bus w) (BitVec w) := do
  let rest ←
    if (dst ^^^ src) &&& 3 = 0 then do
      let c ← alignLoop n.toNat dst src
      let c ← blockLoop c.n c.d c.s
      wordLoop c.n c.d c.s
    else pure ⟨dst, src, n.toNat⟩
  byteLoop rest.n rest.d rest.s
  pure dst

-- The access reads from the `n` bytes of the source or writes to those of the destination, and
-- is aligned where it is one of a word.
def Stays (dst src : BitVec w) (n : Nat) : Access w → Prop
  | .load8 p => Within src n p
  | .store8 p _ => Within dst n p
  | .load32 p => p.toNat % 4 = 0 ∧ ∀ i < 4, Within src n (p + BitVec.ofNat w i)
  | .store32 p _ => p.toNat % 4 = 0 ∧ ∀ i < 4, Within dst n (p + BitVec.ofNat w i)

theorem stays_within {d s : BitVec w} {n k : Nat} (hk : k ≤ n) {a : Access w}
    (h : Stays (d + BitVec.ofNat w k) (s + BitVec.ofNat w k) (n - k) a) : Stays d s n a := by
  have hback {p x : BitVec w} (hin : Within (p + BitVec.ofNat w k) (n - k) x) : Within p n x :=
    hin.shift.mono (by omega)
  cases a with
  | load8 p => exact hback h
  | store8 p v => exact hback h
  | load32 p => exact ⟨h.1, fun i hi => hback (h.2 i hi)⟩
  | store32 p v => exact ⟨h.1, fun i hi => hback (h.2 i hi)⟩

-- The program copies the first `k` of up to `n` bytes, one after the other, and its value and `k`
-- are as `Q` says.
structure Copies (d s : BitVec w) (n : Nat) (p : Prog (bus w) α) (Q : Nat → α → Prop) : Prop where
  accesses : p.Ensures (Stays d s n) fun value => ∃ k ≤ n, Q k value
  copied (m : Mem w) (h : Apart d s n) :
    ∃ k ≤ n, Q k (p.run memory m).1 ∧ (p.run memory m).2 = copyBytes k m d s

section Rules

variable {d s : BitVec w} {n : Nat}

theorem copies_pure {value : α} {Q : Nat → α → Prop} (h : Q 0 value) : Copies d s n (pure value) Q :=
  ⟨⟨0, by omega, h⟩, fun _ _ => ⟨0, by omega, h, rfl⟩⟩

theorem copies_mono {p : Prog (bus w) α} {Q R : Nat → α → Prop} (h : Copies d s n p Q)
    (hQ : ∀ k ≤ n, ∀ value, Q k value → R k value) : Copies d s n p R := by
  refine ⟨ensures_mono h.accesses (fun _ hstays => hstays) ?_, fun m hapart => ?_⟩
  · rintro value ⟨k, hk, hvalue⟩
    exact ⟨k, hk, hQ k hk value hvalue⟩
  · obtain ⟨k, hk, hvalue, hmem⟩ := h.copied m hapart
    exact ⟨k, hk, hQ k hk _ hvalue, hmem⟩

-- The next program copies on from where the first has stopped.
theorem copies_bind {p : Prog (bus w) α} {f : α → Prog (bus w) β} {Q : Nat → α → Prop} {R : Nat → β → Prop}
    (hp : Copies d s n p Q) (hf : ∀ k ≤ n, ∀ value, Q k value →
      Copies (d + BitVec.ofNat w k) (s + BitVec.ofNat w k) (n - k) (f value) fun j => R (k + j)) :
    Copies d s n (p >>= f) R := by
  refine ⟨ensures_bind hp.accesses ?_, fun m hapart => ?_⟩
  · rintro value ⟨k, hk, hvalue⟩
    refine ensures_mono (hf k hk value hvalue).accesses (fun _ => stays_within hk) ?_
    rintro out ⟨j, hj, hout⟩
    exact ⟨k + j, by omega, hout⟩
  · obtain ⟨k, hk, hvalue, hmem⟩ := hp.copied m hapart
    have hrest : Apart (d + BitVec.ofNat w k) (s + BitVec.ofNat w k) (n - k) :=
      (hapart.mono (by omega : k + (n - k) ≤ n)).shift
    obtain ⟨j, hj, hout, hmem'⟩ := (hf k hk _ hvalue).copied (p.run memory m).2 hrest
    refine ⟨k + j, by omega, ?_, ?_⟩
    · rw [run_bind]
      exact hout
    · rw [run_bind, hmem', hmem, copyBytes_add]

theorem copies_byte (hn : 0 < n) : Copies d s n (copyByte d s) fun k _ => k = 1 :=
  ⟨⟨within_first s hn, fun _ => ⟨within_first d hn, fun _ => ⟨1, hn, rfl⟩⟩⟩, fun _ _ => ⟨1, hn, rfl, rfl⟩⟩

theorem copies_word (hn : 4 ≤ n) (hd : d.toNat % 4 = 0) (hs : s.toNat % 4 = 0) :
    Copies d s n (copyWord d s) fun k _ => k = 4 := by
  have hin (p : BitVec w) (i : Nat) (hi : i < 4) : Within p n (p + BitVec.ofNat w i) := ⟨i, by omega, rfl⟩
  refine ⟨⟨⟨hs, hin s⟩, fun _ => ⟨⟨hd, hin d⟩, fun _ => ⟨4, hn, rfl⟩⟩⟩, fun m hapart => ⟨4, hn, rfl, ?_⟩⟩
  exact putWord_word (hapart.mono hn)

theorem copies_ite {c : Prop} [Decidable c] {p q : Prog (bus w) α} {Q : Nat → α → Prop}
    (hp : c → Copies d s n p Q) (hq : ¬ c → Copies d s n q Q) : Copies d s n (if c then p else q) Q := by
  split
  case isTrue h => exact hp h
  case isFalse h => exact hq h

end Rules

section Alignment

theorem toNat_and_three (p : BitVec w) : (p &&& 3).toNat = p.toNat % 4 := by
  have hmask : (p &&& 3).toNat = (p.toNat &&& 3) % 2 ^ w := by
    rw [Nat.and_mod_two_pow, Nat.mod_eq_of_lt p.isLt]
    exact BitVec.toNat_and p 3
  have hmod : p.toNat &&& 3 = p.toNat % 4 := Nat.and_two_pow_sub_one_eq_mod p.toNat 2
  have hlt : p.toNat % 4 < 2 ^ w := Nat.lt_of_le_of_lt (Nat.mod_le _ _) p.isLt
  rw [hmask, hmod, Nat.mod_eq_of_lt hlt]

theorem and_three_eq_zero (p : BitVec w) : p &&& 3 = 0 ↔ p.toNat % 4 = 0 := by
  rw [← toNat_and_three, ← BitVec.toNat_inj]
  rfl

-- The phase test of the source.
theorem same_phase (d s : BitVec w) : (d ^^^ s) &&& 3 = 0 ↔ d.toNat % 4 = s.toNat % 4 := by
  have hxor : (d ^^^ s).toNat % 4 = (d.toNat % 4) ^^^ (s.toNat % 4) := by
    rw [BitVec.toNat_xor]
    exact Nat.xor_mod_two_pow (n := 2)
  rw [and_three_eq_zero, hxor, Nat.xor_eq_zero_iff]

theorem toNat_add_mod_four (hw : 4 ∣ 2 ^ w) (p : BitVec w) (k : Nat) :
    (p + BitVec.ofNat w k).toNat % 4 = (p.toNat + k) % 4 := by
  rw [BitVec.toNat_add, BitVec.toNat_ofNat, Nat.mod_mod_of_dvd _ hw, Nat.add_mod, Nat.mod_mod_of_dvd _ hw,
    ← Nat.add_mod]

theorem four_dvd {n : BitVec w} (hn : 4 ≤ n.toNat) : 4 ∣ 2 ^ w := by
  have hw : 2 ≤ w := by
    by_contra hlt
    have hsmall : 2 ^ w ≤ 2 ^ 1 := Nat.pow_le_pow_right (by omega) (by omega)
    have hn' := n.isLt
    omega
  exact pow_dvd_pow 2 hw

-- Both pointers are aligned where a word loop is entered. Four bytes only fit into a memory whose
-- size is a multiple of four.
def Ready (d s : BitVec w) (n : Nat) : Prop := 4 ≤ n → 4 ∣ 2 ^ w ∧ d.toNat % 4 = 0 ∧ s.toNat % 4 = 0

theorem Ready.shift {d s : BitVec w} {n k : Nat} (h : Ready d s n) (hk : 4 ∣ k) :
    Ready (d + BitVec.ofNat w k) (s + BitVec.ofNat w k) (n - k) := by
  intro hn
  obtain ⟨hw, hd, hs⟩ := h (by omega)
  refine ⟨hw, ?_, ?_⟩
  · rw [toNat_add_mod_four hw]
    omega
  · rw [toNat_add_mod_four hw]
    omega

end Alignment

section Loops

-- A loop that has copied `k` bytes hands on the pointers behind them, ready for the next loop.
def Handed (d s : BitVec w) (n k : Nat) (c : Cursor w) : Prop :=
  c = ⟨d + BitVec.ofNat w k, s + BitVec.ofNat w k, n - k⟩ ∧ Ready c.d c.s c.n

theorem Handed.shift {d s : BitVec w} {n k j : Nat} {c : Cursor w}
    (h : Handed (d + BitVec.ofNat w k) (s + BitVec.ofNat w k) (n - k) j c) : Handed d s n (k + j) c := by
  refine ⟨?_, h.2⟩
  rw [h.1, add_ofNat_add, add_ofNat_add, Nat.sub_sub]

theorem handed_none {d s : BitVec w} {n : Nat} (h : Ready d s n) : Handed d s n 0 ⟨d, s, n⟩ := by
  refine ⟨?_, h⟩
  rw [add_ofNat_zero, add_ofNat_zero, Nat.sub_zero]

-- The prologue may use up all the bytes before the pointers are aligned.
theorem copies_alignLoop {d s : BitVec w} {n : Nat} (hphase : 4 ≤ n → 4 ∣ 2 ^ w ∧ d.toNat % 4 = s.toNat % 4) :
    Copies d s n (alignLoop n d s) (Handed d s n) := by
  induction n generalizing d s with
  | zero => exact copies_pure (handed_none nofun)
  | succ n ih =>
      refine copies_ite (fun _ => ?_) fun haligned => ?_
      · refine copies_bind (copies_byte (by omega)) fun k _ _ hk => ?_
        subst hk
        have hphase' : 4 ≤ n → 4 ∣ 2 ^ w ∧ (d + 1).toNat % 4 = (s + 1).toNat % 4 := by
          intro hn
          obtain ⟨hw, hsame⟩ := hphase (by omega)
          have hd : (d + 1).toNat % 4 = (d.toNat + 1) % 4 := toNat_add_mod_four hw d 1
          have hs : (s + 1).toNat % 4 = (s.toNat + 1) % 4 := toNat_add_mod_four hw s 1
          exact ⟨hw, by omega⟩
        exact copies_mono (ih hphase') fun j _ c hc => Handed.shift (k := 1) hc
      · have hd : d.toNat % 4 = 0 := (and_three_eq_zero d).mp (not_not.mp haligned)
        refine copies_pure (handed_none fun hn => ?_)
        obtain ⟨hw, hsame⟩ := hphase hn
        exact ⟨hw, hd, by omega⟩

-- One more word, `a` bytes behind pointers that are aligned.
theorem copies_word_bind {d s : BitVec w} {n a : Nat} {f : Unit → Prog (bus w) α} {R : Nat → α → Prop}
    (hready : Ready d s n) (ha : 4 ∣ a) (hn : a + 4 ≤ n)
    (hf : Copies (d + BitVec.ofNat w (a + 4)) (s + BitVec.ofNat w (a + 4)) (n - (a + 4)) (f ()) fun j => R (4 + j)) :
    Copies (d + BitVec.ofNat w a) (s + BitVec.ofNat w a) (n - a)
      (copyWord (d + BitVec.ofNat w a) (s + BitVec.ofNat w a) >>= f) R := by
  obtain ⟨-, hd, hs⟩ := hready.shift ha (by omega)
  refine copies_bind (copies_word (by omega) hd hs) fun k _ _ hk => ?_
  subst hk
  rw [add_ofNat_add, add_ofNat_add, Nat.sub_sub]
  exact hf

theorem copies_blockLoop {d s : BitVec w} {n : Nat} (hready : Ready d s n) :
    Copies d s n (blockLoop n d s) (Handed d s n) := by
  fun_induction blockLoop n d s with
  | case1 n d s ih =>
      have hrest := ih (hready.shift (k := 16) (by omega))
      obtain ⟨-, hd, hs⟩ := hready (by omega)
      refine copies_bind (copies_word (by omega) hd hs) fun k _ _ hk => ?_
      subst hk
      refine copies_word_bind (a := 4) hready (by omega) (by omega) ?_
      refine copies_word_bind (a := 8) hready (by omega) (by omega) ?_
      refine copies_word_bind (a := 12) hready (by omega) (by omega) ?_
      refine copies_mono hrest fun j _ c hc => ?_
      have hcount : 4 + (4 + (4 + (4 + j))) = 16 + j := by omega
      rw [hcount]
      exact Handed.shift hc
  | case2 n d s => exact copies_pure (handed_none hready)

theorem copies_wordLoop {d s : BitVec w} {n : Nat} (hready : Ready d s n) :
    Copies d s n (wordLoop n d s) (Handed d s n) := by
  fun_induction wordLoop n d s with
  | case1 n d s ih =>
      have hrest := ih (hready.shift (k := 4) (by omega))
      obtain ⟨-, hd, hs⟩ := hready (by omega)
      refine copies_bind (copies_word (by omega) hd hs) fun k _ _ hk => ?_
      subst hk
      exact copies_mono hrest fun j _ c hc => Handed.shift hc
  | case2 n d s => exact copies_pure (handed_none hready)

theorem copies_byteLoop {d s : BitVec w} {n : Nat} : Copies d s n (byteLoop n d s) fun k _ => k = n := by
  induction n generalizing d s with
  | zero => exact copies_pure rfl
  | succ n ih =>
      refine copies_bind (copies_byte (by omega)) fun k _ _ hk => ?_
      subst hk
      exact copies_mono ih fun j _ _ hj => by rw [hj, Nat.add_comm]

end Loops

-- The loops hand over to each other, and the bytes that are left go one by one.
theorem copies_core (dst src n : BitVec w) :
    Copies dst src n.toNat (alpFastMemcpyCore dst src n) fun k value => k = n.toNat ∧ value = dst := by
  have hbytes (d s : BitVec w) (n : Nat) : Copies d s n (do byteLoop n d s; pure dst) fun k value =>
      k = n ∧ value = dst :=
    copies_bind copies_byteLoop fun k _ _ hk => copies_pure ⟨hk, rfl⟩
  refine copies_ite (fun hphase => ?_) fun _ => hbytes dst src n.toNat
  refine copies_bind (copies_alignLoop fun hn => ⟨four_dvd hn, (same_phase dst src).mp hphase⟩) ?_
  rintro a _ _ ⟨rfl, hready⟩
  refine copies_bind (copies_blockLoop hready) ?_
  rintro b _ _ ⟨rfl, hready⟩
  refine copies_bind (copies_wordLoop hready) ?_
  rintro c _ _ ⟨rfl, -⟩
  refine copies_mono (hbytes _ _ _) ?_
  rintro k _ _ ⟨rfl, rfl⟩
  exact ⟨by omega, rfl⟩

-- The memory afterwards is that of a byte-by-byte copy, and no access leaves the two ranges.
theorem memcpy_exact (m : Mem w) (dst src n : BitVec w) (h : Apart dst src n.toNat) :
    (alpFastMemcpyCore dst src n).run memory m = (dst, copyBytes n.toNat m dst src) ∧
    (∀ i < n.toNat, copyBytes n.toNat m dst src (dst + BitVec.ofNat w i) = m (src + BitVec.ofNat w i)) ∧
    (∀ x, ¬ Within dst n.toNat x → copyBytes n.toNat m dst src x = m x) ∧
    (alpFastMemcpyCore dst src n).Ensures (Stays dst src n.toNat) (· = dst) := by
  obtain ⟨k, -, ⟨hcount, hvalue⟩, hmem⟩ := (copies_core dst src n).copied m h
  subst hcount
  refine ⟨Prod.ext hvalue hmem, fun i hi => copyBytes_apply n.isLt.le h hi, fun x hx => copyBytes_frame hx, ?_⟩
  refine ensures_mono (copies_core dst src n).accesses (fun _ hstays => hstays) ?_
  rintro value ⟨_, _, -, rfl⟩
  rfl

def ramp : Mem 32 := fun p => UInt8.ofNat p.toNat

-- Between two odd addresses: three bytes to align, two blocks, two words and three bytes.
theorem memcpy_exact_odd :
    (alpFastMemcpyCore 0x20000001 0x60000101 46).run memory ramp =
        (0x20000001, copyBytes 46 ramp 0x20000001 0x60000101) ∧
      (alpFastMemcpyCore 0x20000001#32 0x60000101 46).Ensures (Stays 0x20000001 0x60000101 46) (· = 0x20000001) := by
  have hexact := memcpy_exact ramp 0x20000001 0x60000101 46 (by decide +kernel)
  exact ⟨hexact.1, hexact.2.2.2⟩

end AlpSdk.FastMemcpy
