import Mathlib.Algebra.Order.Group.Nat
import Mathlib.Data.List.OfFn
import Mathlib.Data.Nat.Bitwise

namespace Library.Bytes

-- The `width` low bytes of `value`, least significant first.
def putLE : Nat → Nat → List UInt8
  | 0, _ => []
  | width + 1, value => UInt8.ofNat value :: putLE width (value / 256)

def getLE : List UInt8 → Nat
  | [] => 0
  | byte :: rest => byte.toNat + 256 * getLE rest

@[simp] theorem length_putLE (width value : Nat) : (putLE width value).length = width := by
  induction width generalizing value with
  | zero => rfl
  | succ width ih => simp [putLE, ih]

theorem putLE_eq_map (width value : Nat) :
    putLE width value = (List.range width).map fun i => UInt8.ofNat (value / 256 ^ i) := by
  induction width generalizing value with
  | zero => rfl
  | succ width ih =>
      rw [putLE, ih, List.range_succ_eq_map, List.map_cons, List.map_map, Nat.pow_zero, Nat.div_one]
      congr 1
      refine List.map_congr_left fun i _ => ?_
      rw [Nat.div_div_eq_div_mul, ← Nat.pow_succ']
      rfl

theorem getLE_putLE (width value : Nat) : getLE (putLE width value) = value % 256 ^ width := by
  induction width generalizing value with
  | zero => simp [putLE, getLE, Nat.mod_one]
  | succ width ih =>
      have hsplit := Nat.mod_mul (x := value) (a := 256) (b := 256 ^ width)
      rw [← Nat.pow_succ'] at hsplit
      simp only [putLE, getLE, ih, UInt8.toNat_ofNat', hsplit]

theorem putLE_getLE (bytes : List UInt8) : putLE bytes.length (getLE bytes) = bytes := by
  induction bytes with
  | nil => rfl
  | cons byte rest ih =>
      have hb := byte.toNat_lt
      have hlow : UInt8.ofNat (byte.toNat + 256 * getLE rest) = byte := by
        apply UInt8.toNat_inj.mp
        rw [UInt8.toNat_ofNat']
        omega
      have hhigh : (byte.toNat + 256 * getLE rest) / 256 = getLE rest := by omega
      rw [List.length_cons, getLE, putLE, hlow, hhigh, ih]

theorem getLE_lt (bytes : List UInt8) : getLE bytes < 256 ^ bytes.length := by
  induction bytes with
  | nil => simp [getLE]
  | cons byte rest ih =>
      have hb := byte.toNat_lt
      simp only [getLE, List.length_cons, Nat.pow_succ']
      omega

-- Two bytes put together with shifts.
theorem toNat_le16 (low high : UInt8) :
    (low.toUInt16 ||| (high.toUInt16 <<< 8)).toNat = low.toNat + 256 * high.toNat := by
  have hlow := low.toNat_lt
  have hhigh := high.toNat_lt
  have hshift : high.toNat <<< (UInt16.toNat 8 % 16) % 2 ^ 16 = high.toNat <<< 8 := by
    have hcount : UInt16.toNat 8 % 16 = 8 := rfl
    rw [hcount, Nat.shiftLeft_eq]
    omega
  rw [UInt16.toNat_or, UInt16.toNat_shiftLeft, UInt8.toNat_toUInt16, UInt8.toNat_toUInt16, hshift, Nat.or_comm,
    ← Nat.shiftLeft_add_eq_or_of_lt (by omega), Nat.shiftLeft_eq]
  omega

-- The `len` bytes of a buffer that start at `off`.
def slice (off len : Nat) (buf : List UInt8) : List UInt8 := (buf.drop off).take len

theorem length_slice_le (off len : Nat) (buf : List UInt8) : (slice off len buf).length ≤ len := by
  simp only [slice, List.length_take]
  omega

theorem length_slice {off len : Nat} {buf : List UInt8} (h : off + len ≤ buf.length) :
    (slice off len buf).length = len := by
  simp only [slice, List.length_take, List.length_drop]
  omega

theorem slice_append_drop (off len : Nat) (buf : List UInt8) :
    slice off len buf ++ buf.drop (off + len) = buf.drop off := by
  rw [slice, ← List.drop_drop, List.take_append_drop]

theorem getD_of_lt {buf : List UInt8} {i : Nat} (h : i < buf.length) : buf.getD i 0 = buf[i] := by
  rw [List.getD_eq_getElem?_getD, List.getElem?_eq_getElem h, Option.getD_some]

theorem slice_one {off : Nat} {buf : List UInt8} (h : off < buf.length) :
    slice off 1 buf = [buf.getD off 0] := by
  rw [slice, List.drop_eq_getElem_cons h, List.getD_eq_getElem?_getD, List.getElem?_eq_getElem h]
  rfl

theorem getElem_slice {off len i : Nat} {buf : List UInt8} (h : i < (slice off len buf).length) :
    (slice off len buf)[i] = buf.getD (off + i) 0 := by
  have hlt : off + i < buf.length := by
    simp only [slice, List.length_take, List.length_drop] at h
    omega
  simp only [slice, List.getElem_take, List.getElem_drop]
  rw [List.getD_eq_getElem?_getD, List.getElem?_eq_getElem hlt, Option.getD_some]

theorem slice_skip (off len : Nat) (field rest : List UInt8) (h : field.length ≤ off) :
    slice off len (field ++ rest) = slice (off - field.length) len rest := by
  simp only [slice, List.drop_append, List.drop_eq_nil_of_le h, List.nil_append]

theorem slice_past (field : List UInt8) (off len : Nat) (rest : List UInt8) :
    slice (field.length + off) len (field ++ rest) = slice off len rest := by
  rw [slice_skip _ _ _ _ (Nat.le_add_right _ _), Nat.add_sub_cancel_left]

theorem slice_head (len : Nat) (field rest : List UInt8) (h : field.length = len) :
    slice 0 len (field ++ rest) = field := by
  subst h
  simp [slice]

-- A read that has to stay inside the buffer.
def read (off len : Nat) (buf : List UInt8) : Option (List UInt8) :=
  if off + len ≤ buf.length then some (slice off len buf) else none

theorem read_of_le {off len : Nat} {buf : List UInt8} (h : off + len ≤ buf.length) :
    read off len buf = some (slice off len buf) := if_pos h

theorem read_of_length {off len : Nat} {buf : List UInt8} (hlen : 0 < len)
    (h : (slice off len buf).length = len) : read off len buf = some (slice off len buf) := by
  refine read_of_le ?_
  simp only [slice, List.length_take, List.length_drop] at h
  omega

-- A fixed-size array of `n` bytes, and its image in a buffer.
abbrev ByteArr (n : Nat) : Type := Fin n → UInt8

def readArr (n off : Nat) (buf : List UInt8) : ByteArr n := fun i => buf.getD (off + i) 0

theorem readArr_skip (n off : Nat) (field rest : List UInt8) (h : field.length ≤ off) :
    readArr n off (field ++ rest) = readArr n (off - field.length) rest := by
  funext i
  simp only [readArr, List.getD_eq_getElem?_getD]
  rw [List.getElem?_append_right (by omega)]
  congr 2
  omega

theorem readArr_head (n : Nat) (arr : ByteArr n) (rest : List UInt8) :
    readArr n 0 (List.ofFn arr ++ rest) = arr := by
  funext i
  simp only [readArr, Nat.zero_add, List.getD_eq_getElem?_getD]
  rw [List.getElem?_append_left (by simp)]
  simp

theorem readArr_ofFn (n : Nat) (arr : ByteArr n) : readArr n 0 (List.ofFn arr) = arr := by
  simpa using readArr_head n arr []

theorem ofFn_readArr {n off : Nat} {buf : List UInt8} (h : off + n ≤ buf.length) :
    List.ofFn (readArr n off buf) = slice off n buf := by
  apply List.ext_getElem
  · rw [List.length_ofFn, length_slice h]
  · intro i hi hi'
    rw [List.getElem_ofFn, getElem_slice]
    rfl

theorem getD_skip (i : Nat) (field rest : List UInt8) (h : field.length ≤ i) :
    (field ++ rest).getD i 0 = rest.getD (i - field.length) 0 := by
  simp only [List.getD_eq_getElem?_getD, List.getElem?_append_right h]

-- Bytes written to, and read from, a memory at an address.
def store (addr : Nat) (bytes : List UInt8) (ram : Nat → UInt8) : Nat → UInt8 := fun a =>
  if addr ≤ a ∧ a < addr + bytes.length then bytes.getD (a - addr) 0 else ram a

def load (addr len : Nat) (ram : Nat → UInt8) : List UInt8 :=
  (List.range len).map fun i => ram (addr + i)

@[simp] theorem length_load (addr len : Nat) (ram : Nat → UInt8) : (load addr len ram).length = len := by
  simp [load]

theorem load_append (addr n m : Nat) (ram : Nat → UInt8) :
    load addr n ram ++ load (addr + n) m ram = load addr (n + m) ram := by
  simp only [load, List.range_add, List.map_append, List.map_map, Function.comp_def, Nat.add_assoc]

theorem load_store (addr : Nat) (bytes : List UInt8) (ram : Nat → UInt8) :
    load addr bytes.length (store addr bytes ram) = bytes := by
  apply List.ext_getElem
  · simp [load]
  · intro i hi hlt
    simp [load, store, hlt]

theorem load_store_apart {addr len a : Nat} {bytes : List UInt8} (ram : Nat → UInt8)
    (h : addr + len ≤ a ∨ a + bytes.length ≤ addr) : load addr len (store a bytes ram) = load addr len ram := by
  refine List.map_congr_left fun i hi => if_neg ?_
  have hlt := List.mem_range.mp hi
  omega

-- A field of a record that is put together from its fields.
theorem slice_flatten {fields : List (List UInt8)} {lens : List Nat} (hlens : fields.map List.length = lens)
    {i off len : Nat} (hoff : (lens.take i).sum = off) (hlen : lens[i]? = some len) :
    slice off len fields.flatten = fields.getD i [] := by
  subst hlens
  rw [List.getElem?_map, Option.map_eq_some_iff] at hlen
  obtain ⟨field, hfield, rfl⟩ := hlen
  obtain ⟨hi, rfl⟩ := List.getElem?_eq_some_iff.mp hfield
  have hsplit : fields.flatten = (fields.take i).flatten ++ (fields[i] ++ (fields.drop (i + 1)).flatten) := by
    rw [← List.flatten_cons, ← List.drop_eq_getElem_cons hi, ← List.flatten_append, List.take_append_drop]
  have hstart : (fields.take i).flatten.length = off := by rw [List.length_flatten, List.map_take, hoff]
  rw [List.getD_eq_getElem?_getD, hfield, Option.getD_some, hsplit, ← hstart, slice_skip _ _ _ _ (Nat.le_refl _),
    Nat.sub_self]
  exact slice_head _ _ _ rfl

theorem readArr_eq {n off : Nat} {buf field : List UInt8} (h : slice off n buf = field) :
    readArr n off buf = fun i : Fin n => field.getD i 0 := by
  subst h
  funext i
  simp [readArr, slice, List.getD_eq_getElem?_getD, List.getElem?_drop, i.isLt]

end Library.Bytes
