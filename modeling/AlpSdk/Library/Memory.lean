import AlpSdk.Library.Bytes
import Mathlib.Data.BitVec

-- A memory of bytes with addresses of `w` bits, which wrap around at the end.
namespace Library.Memory

open Library.Bytes

variable {w : Nat}

abbrev Mem (w : Nat) := BitVec w → UInt8

-- The address lies in the `n` bytes from `p` on.
def Within (p : BitVec w) (n : Nat) (x : BitVec w) : Prop := ∃ i < n, x = p + BitVec.ofNat w i

-- The `n` bytes from `p` on and the `n` bytes from `q` on do not overlap.
def Apart (p q : BitVec w) (n : Nat) : Prop :=
  ∀ i < n, ∀ j < n, p + BitVec.ofNat w i ≠ q + BitVec.ofNat w j

instance (p q : BitVec w) (n : Nat) : Decidable (Apart p q n) := by
  unfold Apart
  infer_instance

theorem add_ofNat_zero (p : BitVec w) : p + BitVec.ofNat w 0 = p := BitVec.add_zero p

theorem add_ofNat_add (p : BitVec w) (i j : Nat) :
    p + BitVec.ofNat w i + BitVec.ofNat w j = p + BitVec.ofNat w (i + j) := by
  rw [BitVec.add_assoc, BitVec.ofNat_add]

theorem add_one_add (p : BitVec w) (i : Nat) : p + 1 + BitVec.ofNat w i = p + BitVec.ofNat w (i + 1) := by
  rw [Nat.add_comm i 1]
  exact add_ofNat_add p 1 i

theorem within_first (p : BitVec w) {n : Nat} (hn : 0 < n) : Within p n p := ⟨0, hn, (add_ofNat_zero p).symm⟩

theorem Within.shift {p x : BitVec w} {n k : Nat} (h : Within (p + BitVec.ofNat w k) n x) : Within p (k + n) x := by
  obtain ⟨i, hi, rfl⟩ := h
  exact ⟨k + i, by omega, add_ofNat_add p k i⟩

theorem Within.mono {p x : BitVec w} {n n' : Nat} (h : Within p n x) (hle : n ≤ n') : Within p n' x := by
  obtain ⟨i, hi, rfl⟩ := h
  exact ⟨i, by omega, rfl⟩

theorem Apart.shift {p q : BitVec w} {n k : Nat} (h : Apart p q (k + n)) :
    Apart (p + BitVec.ofNat w k) (q + BitVec.ofNat w k) n := by
  intro i hi j hj
  rw [add_ofNat_add, add_ofNat_add]
  exact h (k + i) (by omega) (k + j) (by omega)

theorem Apart.mono {p q : BitVec w} {n n' : Nat} (h : Apart p q n') (hle : n ≤ n') : Apart p q n :=
  fun i hi j hj => h i (by omega) j (by omega)

def put (m : Mem w) (p : BitVec w) (v : UInt8) : Mem w := fun x => if x = p then v else m x

theorem put_same (m : Mem w) (p : BitVec w) (v : UInt8) : put m p v p = v := if_pos rfl

theorem put_ne (m : Mem w) {p x : BitVec w} (v : UInt8) (h : x ≠ p) : put m p v x = m x := if_neg h

-- The `n` bytes from `p` on, and a list of bytes stored from `p` on.
def bytes (m : Mem w) (p : BitVec w) : (n : Nat) → List UInt8
  | 0 => []
  | n + 1 => m p :: bytes m (p + 1) n

def putBytes (m : Mem w) (p : BitVec w) : List UInt8 → Mem w
  | [] => m
  | v :: rest => putBytes (put m p v) (p + 1) rest

-- A byte-by-byte copy, in ascending order.
def copyBytes : (n : Nat) → (m : Mem w) → (d s : BitVec w) → Mem w
  | 0, m, _, _ => m
  | n + 1, m, d, s => copyBytes n (put m d (m s)) (d + 1) (s + 1)

@[simp] theorem length_bytes (m : Mem w) (p : BitVec w) (n : Nat) : (bytes m p n).length = n := by
  induction n generalizing p with
  | zero => rfl
  | succ n ih => rw [bytes, List.length_cons, ih]

theorem bytes_put {m : Mem w} {p q : BitVec w} {v : UInt8} {n : Nat} (h : ¬ Within q n p) :
    bytes (put m p v) q n = bytes m q n := by
  induction n generalizing q with
  | zero => rfl
  | succ n ih =>
      have hfirst : q ≠ p := by
        rintro rfl
        exact h (within_first q (by omega))
      have hrest : ¬ Within (q + 1) n p := fun hin => h (by
        rw [Nat.add_comm]
        exact hin.shift)
      rw [bytes, ih hrest, put_ne m v hfirst, bytes]

theorem copyBytes_add (a b : Nat) (m : Mem w) (d s : BitVec w) :
    copyBytes (a + b) m d s = copyBytes b (copyBytes a m d s) (d + BitVec.ofNat w a) (s + BitVec.ofNat w a) := by
  induction a generalizing m d s with
  | zero => simp [copyBytes]
  | succ a ih => rw [Nat.succ_add, copyBytes, ih, add_one_add, add_one_add, copyBytes]

theorem copyBytes_frame {n : Nat} {m : Mem w} {d s x : BitVec w} (h : ¬ Within d n x) :
    copyBytes n m d s x = m x := by
  induction n generalizing m d s with
  | zero => rfl
  | succ n ih =>
      have hfirst : x ≠ d := by
        rintro rfl
        exact h (within_first x (by omega))
      have hrest : ¬ Within (d + 1) n x := fun hin => h (by
        rw [Nat.add_comm]
        exact hin.shift)
      rw [copyBytes, ih hrest, put_ne m _ hfirst]

-- Where the ranges do not overlap, each byte of the copy is a byte of the source.
theorem copyBytes_apply {n : Nat} (hn : n ≤ 2 ^ w) {m : Mem w} {d s : BitVec w} (h : Apart d s n) {i : Nat}
    (hi : i < n) : copyBytes n m d s (d + BitVec.ofNat w i) = m (s + BitVec.ofNat w i) := by
  induction n generalizing m d s i with
  | zero => omega
  | succ n ih =>
      have hapart : Apart (d + 1) (s + 1) n := by
        rw [Nat.add_comm] at h
        exact h.shift
      cases i with
      | zero =>
          have hlater : ¬ Within (d + 1) n d := by
            rintro ⟨j, hj, hsame⟩
            rw [add_one_add, left_eq_add] at hsame
            have hnat := congrArg BitVec.toNat hsame
            rw [BitVec.toNat_ofNat, Nat.mod_eq_of_lt (by omega)] at hnat
            simp at hnat
          rw [copyBytes, add_ofNat_zero, add_ofNat_zero, copyBytes_frame hlater, put_same]
      | succ i =>
          have hbehind : s + BitVec.ofNat w (i + 1) ≠ d := fun hsame =>
            h 0 (by omega) (i + 1) hi (by rw [hsame, add_ofNat_zero])
          rw [copyBytes, ← add_one_add, ih (by omega) hapart (by omega), add_one_add, put_ne m _ hbehind]

-- The bytes of a range that is copied can all be read before the first of them is written.
theorem putBytes_bytes {n : Nat} {m : Mem w} {d s : BitVec w} (h : Apart d s n) :
    putBytes m d (bytes m s n) = copyBytes n m d s := by
  induction n generalizing m d s with
  | zero => rfl
  | succ n ih =>
      have hapart : Apart (d + 1) (s + 1) n := by
        rw [Nat.add_comm] at h
        exact h.shift
      have hlater : ¬ Within (s + 1) n d := by
        rintro ⟨j, hj, hsame⟩
        rw [add_one_add] at hsame
        exact h 0 (by omega) (j + 1) (by omega) (by rw [← hsame, add_ofNat_zero])
      rw [bytes, putBytes, copyBytes, ← ih hapart, bytes_put hlater]

-- A word of four bytes, least significant first.
def word (m : Mem w) (p : BitVec w) : UInt32 := UInt32.ofNat (getLE (bytes m p 4))

def putWord (m : Mem w) (p : BitVec w) (v : UInt32) : Mem w := putBytes m p (putLE 4 v.toNat)

theorem putWord_word {m : Mem w} {d s : BitVec w} (h : Apart d s 4) :
    putWord m d (word m s) = copyBytes 4 m d s := by
  have hlt := getLE_lt (bytes m s 4)
  have hlen : (bytes m s 4).length = 4 := length_bytes m s 4
  have hback := putLE_getLE (bytes m s 4)
  rw [hlen] at hlt hback
  rw [putWord, word, UInt32.toNat_ofNat_of_lt' hlt, hback, putBytes_bytes h]

end Library.Memory
