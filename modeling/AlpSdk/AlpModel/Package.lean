import AlpSdk.AlpModel
import AlpSdk.Library.Cbor

-- The writer of model packages: the manifest and the container around it
-- (scripts/alp_model/manifest.py, scripts/alp_model/package.py).
namespace AlpSdk.AlpModel

open Library.Bytes
open Library.Cbor (Value)

-- In UTF-8.
abbrev Text : Type := List UInt8

def MANIFEST_SCHEMA_VERSION : Int := 1

-- A dict with the keys in the order they were set.
structure Dict where
  entries : List (Text × Value)
  nodup : (entries.map Prod.fst).Nodup

def Dict.get (d : Dict) (key : Text) : Option Value := d.entries.lookup key

theorem Dict.get_of_mem (d : Dict) {key : Text} {value : Value} (h : (key, value) ∈ d.entries) :
    d.get key = some value := by
  obtain ⟨entries, hnodup⟩ := d
  unfold get
  induction entries with
  | nil => cases h
  | cons entry entries ih =>
      obtain ⟨hnew, hnodup'⟩ := List.nodup_cons.mp hnodup
      rw [List.lookup_cons]
      cases List.mem_cons.mp h with
      | inl hhead =>
          subst hhead
          rw [beq_self_eq_true]
      | inr htail =>
          have hne : key ≠ entry.1 := fun heq => hnew (heq ▸ List.mem_map_of_mem htail)
          rw [beq_eq_false_iff_ne.mpr hne]
          exact ih hnodup' htail

def dictValue (entries : List (Text × Value)) : Value :=
  .map (entries.map fun entry => (.text entry.1, entry.2))

structure Tensor where
  dtype : Text
  rank : Int
  shape : List Int
  scale : UInt64
  zp : Int

def Tensor.asdict (t : Tensor) : Value :=
  dictValue
    [(ascii "dtype", .text t.dtype), (ascii "rank", .int t.rank),
      (ascii "shape", .array (t.shape.map .int)), (ascii "scale", .float t.scale),
      (ascii "zp", .int t.zp)]

namespace Manifest

structure Target where
  backend : Text
  siliconRef : Text
  blobFormat : Text
  accelConfig : Text
  arena : Int
  requires : Dict
  blob : Int
  compilerVersion : Text := []

def Target.entries (t : Target) : List (Text × Value) :=
  [(ascii "backend", .text t.backend), (ascii "silicon_ref", .text t.siliconRef),
    (ascii "blob_format", .text t.blobFormat), (ascii "accel_config", .text t.accelConfig),
    (ascii "arena", .int t.arena), (ascii "requires", dictValue t.requires.entries),
    (ascii "blob", .int t.blob), (ascii "compiler_version", .text t.compilerVersion)]

def Target.asdict (t : Target) : Value := dictValue t.entries

end Manifest

structure Coverage where
  backend : Text
  accelConfig : Text
  status : Text
  reason : Text

def Coverage.asdict (c : Coverage) : Value :=
  dictValue
    [(ascii "backend", .text c.backend), (ascii "accel_config", .text c.accelConfig),
      (ascii "status", .text c.status), (ascii "reason", .text c.reason)]

structure Manifest where
  name : Text
  srcSha : List UInt8
  inputs : List Tensor := []
  outputs : List Tensor := []
  targets : List Manifest.Target := []
  coverage : List Coverage := []

namespace Manifest

def entries (m : Manifest) : List (Text × Value) :=
  [(ascii "v", .int MANIFEST_SCHEMA_VERSION), (ascii "name", .text m.name),
    (ascii "src_sha", .bytes m.srcSha), (ascii "inputs", .array (m.inputs.map Tensor.asdict)),
    (ascii "outputs", .array (m.outputs.map Tensor.asdict)),
    (ascii "targets", .array (m.targets.map Target.asdict)),
    (ascii "coverage", .array (m.coverage.map Coverage.asdict))]

def toDict (m : Manifest) : Value := dictValue m.entries

end Manifest

def MAGIC : List UInt8 := ascii "ALPM"
def CONTAINER_VERSION : Nat := 1
def HEADER_SIZE : Nat := 24
def TBL_ENTRY_SIZE : Nat := 8

-- `struct` refuses a number that its field does not hold.
def packU32 (n : Nat) : Option (List UInt8) := if n < 2 ^ 32 then some (putLE 4 n) else none

def packHeader (mftOff mftLen tblOff blobCount : Nat) : Option (List UInt8) := do
  let off ← packU32 mftOff
  let len ← packU32 mftLen
  let tbl ← packU32 tblOff
  let count ← packU32 blobCount
  some (MAGIC ++ (putLE 2 CONTAINER_VERSION ++ (putLE 2 0 ++ (off ++ (len ++ (tbl ++ count))))))

def blobTable : Nat → List (List UInt8) → Option (List UInt8)
  | _, [] => some []
  | cursor, b :: blobs => do
      let off ← packU32 cursor
      let len ← packU32 b.length
      let table ← blobTable (cursor + b.length) blobs
      some (off ++ (len ++ table))

-- `dumps` is that of cbor2.
def writePackage (dumps : Value → List UInt8) (mft : Manifest) (blobs : List (List UInt8)) :
    Option (List UInt8) := do
  let mftBytes := dumps mft.toDict
  let mftOff := HEADER_SIZE
  let tblOff := mftOff + mftBytes.length
  let blobsOff := tblOff + TBL_ENTRY_SIZE * blobs.length
  let table ← blobTable blobsOff blobs
  let header ← packHeader mftOff mftBytes.length tblOff blobs.length
  some (header ++ (mftBytes ++ (table ++ blobs.flatten)))

theorem packU32_eq_some {n : Nat} {packed : List UInt8} (h : packU32 n = some packed) :
    n < 2 ^ 32 ∧ packed = putLE 4 n := by
  unfold packU32 at h
  split at h
  · rename_i hlt
    cases h
    exact ⟨hlt, rfl⟩
  · cases h

theorem packHeader_eq_some {mftOff mftLen tblOff blobCount : Nat} {header : List UInt8}
    (h : packHeader mftOff mftLen tblOff blobCount = some header) :
    mftOff < 2 ^ 32 ∧ mftLen < 2 ^ 32 ∧ tblOff < 2 ^ 32 ∧ blobCount < 2 ^ 32 ∧
      header = MAGIC ++ (putLE 2 CONTAINER_VERSION ++ (putLE 2 0 ++ (putLE 4 mftOff ++ (putLE 4 mftLen ++
        (putLE 4 tblOff ++ putLE 4 blobCount))))) := by
  simp only [packHeader, Option.bind_eq_bind, Option.bind_eq_some_iff] at h
  obtain ⟨off, hoff, len, hlen, tbl, htbl, count, hcount, hheader⟩ := h
  obtain ⟨hoff', rfl⟩ := packU32_eq_some hoff
  obtain ⟨hlen', rfl⟩ := packU32_eq_some hlen
  obtain ⟨htbl', rfl⟩ := packU32_eq_some htbl
  obtain ⟨hcount', rfl⟩ := packU32_eq_some hcount
  cases hheader
  exact ⟨hoff', hlen', htbl', hcount', rfl⟩

theorem length_blobTable {cursor : Nat} {blobs : List (List UInt8)} {table : List UInt8}
    (h : blobTable cursor blobs = some table) : table.length = TBL_ENTRY_SIZE * blobs.length := by
  induction blobs generalizing cursor table with
  | nil =>
      cases h
      rfl
  | cons b blobs ih =>
      simp only [blobTable, Option.bind_eq_bind, Option.bind_eq_some_iff] at h
      obtain ⟨off, hoff, len, hlen, rest, hrest, htable⟩ := h
      obtain ⟨-, rfl⟩ := packU32_eq_some hoff
      obtain ⟨-, rfl⟩ := packU32_eq_some hlen
      cases htable
      simp only [List.length_append, length_putLE, ih hrest, List.length_cons, TBL_ENTRY_SIZE]
      omega

-- Where the blob of an index starts, from the start of the blobs.
def blobOffset (blobs : List (List UInt8)) (i : Nat) : Nat := (blobs.take i).flatten.length

-- An entry of the table, in front of whatever follows.
theorem blobTable_entry {cursor i : Nat} {blobs : List (List UInt8)} {table : List UInt8}
    (h : blobTable cursor blobs = some table) (hi : i < blobs.length) :
    cursor + blobOffset blobs i < 2 ^ 32 ∧ blobs[i].length < 2 ^ 32 ∧
      ∀ rest, slice (TBL_ENTRY_SIZE * i) 4 (table ++ rest) = putLE 4 (cursor + blobOffset blobs i) ∧
        slice (TBL_ENTRY_SIZE * i + 4) 4 (table ++ rest) = putLE 4 blobs[i].length := by
  induction blobs generalizing cursor i table with
  | nil => cases hi
  | cons b blobs ih =>
      simp only [blobTable, Option.bind_eq_bind, Option.bind_eq_some_iff] at h
      obtain ⟨off, hoff, len, hlen, later, hlater, htable⟩ := h
      obtain ⟨hoff', rfl⟩ := packU32_eq_some hoff
      obtain ⟨hlen', rfl⟩ := packU32_eq_some hlen
      cases htable
      cases i with
      | zero =>
          refine ⟨hoff', hlen', fun rest => ⟨?_, ?_⟩⟩
          · rw [List.append_assoc]
            exact slice_head 4 _ _ (length_putLE 4 _)
          · rw [List.append_assoc, List.append_assoc]
            exact (slice_past (putLE 4 cursor) 0 4 _).trans (slice_head 4 _ _ (length_putLE 4 _))
      | succ i =>
          obtain ⟨hstart, hsize, hreads⟩ := ih hlater (Nat.lt_of_succ_lt_succ hi)
          have hsum : cursor + blobOffset (b :: blobs) (i + 1) = cursor + b.length + blobOffset blobs i := by
            simp only [blobOffset, List.take_succ_cons, List.flatten_cons, List.length_append]
            omega
          have hentry : ∀ n, TBL_ENTRY_SIZE * (i + 1) + n = 4 + (4 + (TBL_ENTRY_SIZE * i + n)) := by
            intro n
            simp only [TBL_ENTRY_SIZE]
            omega
          have hpast : ∀ n rest, slice (TBL_ENTRY_SIZE * (i + 1) + n) 4
              (putLE 4 cursor ++ (putLE 4 b.length ++ later) ++ rest) =
                slice (TBL_ENTRY_SIZE * i + n) 4 (later ++ rest) := by
            intro n rest
            rw [hentry, List.append_assoc, List.append_assoc]
            exact (slice_past (putLE 4 cursor) _ 4 _).trans (slice_past (putLE 4 b.length) _ 4 _)
          rw [hsum]
          refine ⟨hstart, hsize, fun rest => ⟨?_, ?_⟩⟩
          · exact (hpast 0 rest).trans (hreads rest).1
          · exact (hpast 4 rest).trans (hreads rest).2

theorem slice_flatten {i : Nat} {blobs : List (List UInt8)} (hi : i < blobs.length) :
    slice (blobOffset blobs i) blobs[i].length blobs.flatten = blobs[i] := by
  induction blobs generalizing i with
  | nil => cases hi
  | cons b blobs ih =>
      cases i with
      | zero => exact slice_head _ _ _ rfl
      | succ i =>
          have hsum : blobOffset (b :: blobs) (i + 1) = b.length + blobOffset blobs i := by
            simp only [blobOffset, List.take_succ_cons, List.flatten_cons, List.length_append]
          rw [hsum, List.flatten_cons]
          exact (slice_past _ _ _ _).trans (ih (Nat.lt_of_succ_lt_succ hi))

theorem blobOffset_le {i : Nat} {blobs : List (List UInt8)} (hi : i < blobs.length) :
    blobOffset blobs i + blobs[i].length ≤ blobs.flatten.length := by
  induction blobs generalizing i with
  | nil => cases hi
  | cons b blobs ih =>
      cases i with
      | zero =>
          rw [List.flatten_cons, List.length_append]
          exact Nat.le_trans (Nat.le_of_eq (Nat.zero_add _)) (Nat.le_add_right _ _)
      | succ i =>
          have hrest := ih (Nat.lt_of_succ_lt_succ hi)
          simp only [blobOffset, List.take_succ_cons, List.flatten_cons, List.length_append,
            List.getElem_cons_succ] at hrest ⊢
          omega

-- The layout of a package: `head` is what stands before the table.
structure Layout (dumps : Value → List UInt8) (m : Manifest) (blobs : List (List UInt8))
    (raw head table : List UInt8) : Prop where
  table_eq : blobTable (head.length + TBL_ENTRY_SIZE * blobs.length) blobs = some table
  mftLen : (dumps m.toDict).length < 2 ^ 32
  tblOff : head.length < 2 ^ 32
  count : blobs.length < 2 ^ 32
  head_eq : head = MAGIC ++ (putLE 2 CONTAINER_VERSION ++ (putLE 2 0 ++ (putLE 4 HEADER_SIZE ++
    (putLE 4 (dumps m.toDict).length ++ (putLE 4 head.length ++ (putLE 4 blobs.length ++ dumps m.toDict))))))
  raw_eq : raw = head ++ (table ++ blobs.flatten)

theorem layout_of_writePackage {dumps : Value → List UInt8} {m : Manifest} {blobs : List (List UInt8)}
    {raw : List UInt8} (h : writePackage dumps m blobs = some raw) :
    ∃ head table, Layout dumps m blobs raw head table := by
  simp only [writePackage, Option.bind_eq_bind, Option.bind_eq_some_iff] at h
  obtain ⟨table, htable, header, hheader, hraw⟩ := h
  obtain ⟨-, hlen, htbl, hcount, rfl⟩ := packHeader_eq_some hheader
  cases hraw
  have hmagic : MAGIC.length = 4 := rfl
  have hhead : ∀ fields : List UInt8, fields.length = HEADER_SIZE →
      (fields ++ dumps m.toDict).length = HEADER_SIZE + (dumps m.toDict).length := by
    intro fields hfields
    rw [List.length_append, hfields]
  refine ⟨_, table, ?_, hlen, ?_, hcount, ?_, (List.append_assoc _ _ _).symm⟩
  · rw [hhead _ (by simp [hmagic, HEADER_SIZE])]
    exact htable
  · rw [hhead _ (by simp [hmagic, HEADER_SIZE])]
    exact htbl
  · rw [hhead _ (by simp [hmagic, HEADER_SIZE])]
    simp only [List.append_assoc]

def packageSize (dumps : Value → List UInt8) (m : Manifest) (blobs : List (List UInt8)) : Nat :=
  HEADER_SIZE + (dumps m.toDict).length + TBL_ENTRY_SIZE * blobs.length + blobs.flatten.length

theorem packU32_of_lt {n : Nat} (h : n < 2 ^ 32) : packU32 n = some (putLE 4 n) := if_pos h

theorem exists_blobTable (cursor : Nat) {blobs : List (List UInt8)}
    (h : cursor + blobs.flatten.length < 2 ^ 32) : ∃ table, blobTable cursor blobs = some table := by
  induction blobs generalizing cursor with
  | nil => exact ⟨[], rfl⟩
  | cons b blobs ih =>
      rw [List.flatten_cons, List.length_append] at h
      obtain ⟨table, htable⟩ := ih (cursor + b.length) (by omega)
      refine ⟨putLE 4 cursor ++ (putLE 4 b.length ++ table), ?_⟩
      rw [blobTable, packU32_of_lt (by omega), packU32_of_lt (by omega), htable]
      rfl

-- A package that is small enough can be written.
theorem exists_writePackage {dumps : Value → List UInt8} {m : Manifest} {blobs : List (List UInt8)}
    (h : packageSize dumps m blobs < 2 ^ 32) : ∃ raw, writePackage dumps m blobs = some raw := by
  have hhdr : HEADER_SIZE = 24 := rfl
  have hentry : TBL_ENTRY_SIZE = 8 := rfl
  unfold packageSize at h
  obtain ⟨table, htable⟩ := exists_blobTable _ h
  have hheader := packU32_of_lt (n := HEADER_SIZE) (by decide)
  have hlen := packU32_of_lt (n := (dumps m.toDict).length) (by omega)
  have htbl := packU32_of_lt (n := HEADER_SIZE + (dumps m.toDict).length) (by omega)
  have hcount := packU32_of_lt (n := blobs.length) (by rw [hentry] at h; omega)
  obtain ⟨header, hpacked⟩ : ∃ header, packHeader HEADER_SIZE (dumps m.toDict).length
      (HEADER_SIZE + (dumps m.toDict).length) blobs.length = some header := by
    simp only [packHeader, hheader, hlen, htbl, hcount]
    exact ⟨_, rfl⟩
  refine ⟨header ++ (dumps m.toDict ++ (table ++ blobs.flatten)), ?_⟩
  rw [writePackage, htable, hpacked]
  rfl

theorem length_writePackage {dumps : Value → List UInt8} {m : Manifest} {blobs : List (List UInt8)}
    {raw : List UInt8} (h : writePackage dumps m blobs = some raw) :
    raw.length = packageSize dumps m blobs := by
  obtain ⟨head, table, hlayout⟩ := layout_of_writePackage h
  have hmagic : MAGIC.length = 4 := rfl
  have hhead : head.length = HEADER_SIZE + (dumps m.toDict).length := by
    rw [hlayout.head_eq, HEADER_SIZE]
    simp only [List.length_append, length_putLE, hmagic]
    omega
  rw [hlayout.raw_eq, List.length_append, List.length_append, length_blobTable hlayout.table_eq, hhead,
    packageSize]
  omega

end AlpSdk.AlpModel
