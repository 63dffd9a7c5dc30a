import AlpSdk.Library.Cbor

-- The encoding of CBOR data items with definite lengths, and a decoder of it.
namespace Library.Cbor

open Library.Bytes

def putBE (width value : Nat) : List UInt8 := (putLE width value).reverse
def getBE (bytes : List UInt8) : Nat := getLE bytes.reverse

-- A major type and its argument, in as few bytes as hold it.
def head (major : Fin 8) (n : Nat) : List UInt8 :=
  if n < 24 then [UInt8.ofNat (32 * major + n)]
  else if n < 2 ^ 8 then UInt8.ofNat (32 * major + 24) :: putBE 1 n
  else if n < 2 ^ 16 then UInt8.ofNat (32 * major + 25) :: putBE 2 n
  else if n < 2 ^ 32 then UInt8.ofNat (32 * major + 26) :: putBE 4 n
  else UInt8.ofNat (32 * major + 27) :: putBE 8 n

def encodeBytes (contents : List UInt8) : List UInt8 := head 2 contents.length ++ contents

-- A number past 64 bits is a tagged string of its bytes.
def encodeInt : Int → List UInt8
  | .ofNat n =>
      if n < 2 ^ 64 then head 0 n else head 6 2 ++ encodeBytes (putBE (n.log2 / 8 + 1) n)
  | .negSucc n =>
      if n < 2 ^ 64 then head 1 n else head 6 3 ++ encodeBytes (putBE (n.log2 / 8 + 1) n)

mutual

def encode : Value → List UInt8
  | .int n => encodeInt n
  | .bytes contents => encodeBytes contents
  | .text contents => head 3 contents.length ++ contents
  | .array items => head 4 items.length ++ encodeAll items
  | .map entries => head 5 entries.length ++ encodeEntries entries
  | .tag number value => head 6 number.toNat ++ encode value
  | .simple n => head 7 n
  | .float bits => 0xFB :: putBE 8 bits.toNat

def encodeAll : List Value → List UInt8
  | [] => []
  | item :: items => encode item ++ encodeAll items

def encodeEntries : List (Value × Value) → List UInt8
  | [] => []
  | (key, value) :: entries => encode key ++ (encode value ++ encodeEntries entries)

end

def readHead : List UInt8 → Option (Nat × Nat × List UInt8)
  | [] => none
  | byte :: rest =>
      let major := byte.toNat / 32
      let info := byte.toNat % 32
      if info < 24 then some (major, info, rest)
      else if info < 28 then
        let width := 2 ^ (info - 24)
        if width ≤ rest.length then some (major, getBE (rest.take width), rest.drop width) else none
      else none

example : encode (.map [(.text [0x61], .array [.int 500, .int (-1)])]) =
    [0xA1, 0x61, 0x61, 0x82, 0x19, 0x01, 0xF4, 0x20] := by
  decide +kernel

@[simp] theorem length_putBE (width value : Nat) : (putBE width value).length = width := by
  rw [putBE, List.length_reverse, length_putLE]

theorem getBE_putBE {width value : Nat} (h : value < 256 ^ width) : getBE (putBE width value) = value := by
  rw [getBE, putBE, List.reverse_reverse, getLE_putLE, Nat.mod_eq_of_lt h]

-- The argument in the bytes after the first.
theorem readHead_wide (major : Fin 8) {k n : Nat} (hk : k < 4) (hn : n < 256 ^ 2 ^ k) (rest : List UInt8) :
    readHead (UInt8.ofNat (32 * major + (24 + k)) :: putBE (2 ^ k) n ++ rest) =
      some (major.val, n, rest) := by
  have hmajor := major.isLt
  have hbyte : (UInt8.ofNat (32 * major + (24 + k))).toNat = 32 * major + (24 + k) :=
    Nat.mod_eq_of_lt (by omega)
  have hhigh : (32 * major.val + (24 + k)) / 32 = major := by omega
  have hlow : (32 * major.val + (24 + k)) % 32 = 24 + k := by omega
  have hlen : (putBE (2 ^ k) n).length = 2 ^ k := length_putBE _ _
  simp only [List.cons_append, readHead, hbyte, hhigh, hlow, Nat.add_sub_cancel_left]
  have hroom : 2 ^ k ≤ (putBE (2 ^ k) n ++ rest).length := by
    rw [List.length_append, hlen]
    exact Nat.le_add_right _ _
  rw [if_neg (by omega), if_pos (by omega), if_pos hroom]
  rw [List.take_append_of_le_length hlen.ge, List.drop_append_of_le_length hlen.ge,
    List.take_of_length_le hlen.le, List.drop_of_length_le hlen.le, List.nil_append, getBE_putBE hn]

theorem readHead_head (major : Fin 8) {n : Nat} (hn : n < 2 ^ 64) (rest : List UInt8) :
    readHead (head major n ++ rest) = some (major.val, n, rest) := by
  have hmajor := major.isLt
  unfold head
  split
  · have hbyte : (UInt8.ofNat (32 * major + n)).toNat = 32 * major + n := Nat.mod_eq_of_lt (by omega)
    have hhigh : (32 * major.val + n) / 32 = major := by omega
    have hlow : (32 * major.val + n) % 32 = n := by omega
    simp only [List.cons_append, List.nil_append, readHead, hbyte, hhigh, hlow]
    rw [if_pos (by assumption)]
  · split
    · exact readHead_wide major (k := 0) (by decide) (by assumption) rest
    · split
      · exact readHead_wide major (k := 1) (by decide) (by assumption) rest
      · split
        · exact readHead_wide major (k := 2) (by decide) (by assumption) rest
        · exact readHead_wide major (k := 3) (by decide) hn rest

theorem length_head_pos (major : Fin 8) (n : Nat) : 0 < (head major n).length := by
  unfold head
  split_ifs
  all_goals simp

-- How many items the content of an item with this head is.
def children (major n : Nat) : Nat :=
  if major = 4 then n else if major = 5 then 2 * n else if major = 6 then 1 else 0

-- What follows the head of an item: its bytes are skipped, if it is a string.
def content (major n : Nat) (rest : List UInt8) : Option (List UInt8) :=
  if major = 2 ∨ major = 3 then if n ≤ rest.length then some (rest.drop n) else none
  else some rest

-- What is left after `pending` items.
def skipItems : (fuel pending : Nat) → List UInt8 → Option (List UInt8)
  | _, 0, bytes => some bytes
  | 0, _ + 1, _ => none
  | fuel + 1, pending + 1, bytes => do
      let (major, n, rest) ← readHead bytes
      let rest ← content major n rest
      skipItems fuel (pending + children major n) rest

theorem encodeAll_append (items items' : List Value) :
    encodeAll (items ++ items') = encodeAll items ++ encodeAll items' := by
  induction items with
  | nil => rfl
  | cons item items ih => rw [List.cons_append, encodeAll, encodeAll, ih, List.append_assoc]

theorem encodeEntries_eq (entries : List (Value × Value)) :
    encodeEntries entries = encodeAll (flat entries) := by
  induction entries with
  | nil => rfl
  | cons entry entries ih =>
      obtain ⟨key, value⟩ := entry
      rw [encodeEntries, ih]
      rfl

-- A number is a head of its own, or a tag in front of a string.
theorem encodeInt_cases (n : Int) :
    (∃ (major : Fin 8) (k : Nat), ¬(major.val = 2 ∨ major.val = 3) ∧ children major.val k = 0 ∧ k < 2 ^ 64 ∧
      encodeInt n = head major k) ∨
      ∃ (number : UInt64) (contents : List UInt8),
        encodeInt n = head 6 number.toNat ++ encode (.bytes contents) := by
  cases n with
  | ofNat n =>
      simp only [encodeInt]
      split
      · exact .inl ⟨0, n, by decide, rfl, by assumption, rfl⟩
      · exact .inr ⟨2, _, rfl⟩
  | negSucc n =>
      simp only [encodeInt]
      split
      · exact .inl ⟨1, n, by decide, rfl, by assumption, rfl⟩
      · exact .inr ⟨3, _, rfl⟩

theorem length_encode_pos (value : Value) : 0 < (encode value).length := by
  cases value with
  | int n =>
      rw [encode]
      obtain ⟨major, k, -, -, -, hint⟩ | ⟨number, contents, hint⟩ := encodeInt_cases n
      · rw [hint]
        exact length_head_pos major k
      · rw [hint, List.length_append]
        exact Nat.add_pos_left (length_head_pos 6 _) _
  | bytes contents =>
      rw [encode, encodeBytes, List.length_append]
      exact Nat.add_pos_left (length_head_pos 2 _) _
  | text contents =>
      rw [encode, List.length_append]
      exact Nat.add_pos_left (length_head_pos 3 _) _
  | array items =>
      rw [encode, List.length_append]
      exact Nat.add_pos_left (length_head_pos 4 _) _
  | map entries =>
      rw [encode, List.length_append]
      exact Nat.add_pos_left (length_head_pos 5 _) _
  | tag number value =>
      rw [encode, List.length_append]
      exact Nat.add_pos_left (length_head_pos 6 _) _
  | simple n =>
      rw [encode]
      exact length_head_pos 7 n
  | float bits =>
      rw [encode]
      exact Nat.succ_pos _

theorem length_le_encodeAll (items : List Value) : items.length ≤ (encodeAll items).length := by
  induction items with
  | nil => exact Nat.zero_le _
  | cons item items ih =>
      have hpos := length_encode_pos item
      rw [encodeAll, List.length_append, List.length_cons]
      omega

theorem skip_string {fuel pending : Nat} {major : Fin 8} (hmajor : major.val = 2 ∨ major.val = 3)
    {contents : List UInt8} (hsize : contents.length < 2 ^ 64) (rest : List UInt8) :
    skipItems (fuel + 1) (pending + 1) (head major contents.length ++ (contents ++ rest)) =
      skipItems fuel pending rest := by
  have hnone : children major.val contents.length = 0 := by
    unfold children
    rw [if_neg (by omega), if_neg (by omega), if_neg (by omega)]
  have hroom : contents.length ≤ (contents ++ rest).length := by
    rw [List.length_append]
    exact Nat.le_add_right _ _
  have hcontent : content major.val contents.length (contents ++ rest) = some rest := by
    rw [content, if_pos hmajor, if_pos hroom, List.drop_left]
  simp only [skipItems, readHead_head major hsize, Option.bind_eq_bind, Option.bind_some, hcontent, hnone,
    Nat.add_zero]

theorem skip_nested {fuel pending n : Nat} {major : Fin 8} (hmajor : ¬(major.val = 2 ∨ major.val = 3))
    {first : List UInt8} {rest : List UInt8} (hfirst : readHead (first ++ rest) = some (major.val, n, rest)) :
    skipItems (fuel + 1) (pending + 1) (first ++ rest) =
      skipItems fuel (pending + children major.val n) rest := by
  have hcontent : content major.val n rest = some rest := if_neg hmajor
  simp only [skipItems, hfirst, Option.bind_eq_bind, Option.bind_some, hcontent]

theorem skipItems_encodeAll {fuel : Nat} (items : List Value) (hfuel : (encodeAll items).length ≤ fuel)
    (hsize : (encodeAll items).length < 2 ^ 64) (rest : List UInt8) :
    skipItems fuel items.length (encodeAll items ++ rest) = some rest := by
  induction fuel generalizing items with
  | zero =>
      have hle := length_le_encodeAll items
      cases items with
      | nil => rfl
      | cons item items =>
          rw [List.length_cons] at hle
          omega
  | succ fuel ih =>
      cases items with
      | nil => rfl
      | cons item items =>
          rw [encodeAll, List.length_append] at hfuel hsize
          rw [encodeAll, List.append_assoc, List.length_cons]
          cases item with
          | int n =>
              rw [encode] at hfuel hsize
              rw [encode]
              obtain ⟨major, k, hmajor, hnone, hk, hint⟩ | ⟨number, contents, hint⟩ := encodeInt_cases n
              · rw [hint] at hfuel hsize
                have hpos := length_head_pos major k
                rw [hint, skip_nested hmajor (readHead_head major hk _), hnone]
                exact ih items (by omega) (by omega)
              · rw [hint, List.length_append] at hfuel hsize
                have hpos := length_head_pos 6 number.toNat
                rw [hint, List.append_assoc, skip_nested (by decide) (readHead_head 6 number.toNat_lt _)]
                have hrest := ih (.bytes contents :: items)
                  (by rw [encodeAll, List.length_append]; omega) (by rw [encodeAll, List.length_append]; omega)
                rw [encodeAll, List.append_assoc] at hrest
                exact hrest
          | bytes contents =>
              rw [encode, encodeBytes, List.length_append] at hfuel hsize
              have hpos := length_head_pos 2 contents.length
              rw [encode, encodeBytes, List.append_assoc, skip_string (by decide) (by omega)]
              exact ih items (by omega) (by omega)
          | text contents =>
              rw [encode, List.length_append] at hfuel hsize
              have hpos := length_head_pos 3 contents.length
              rw [encode, List.append_assoc, skip_string (by decide) (by omega)]
              exact ih items (by omega) (by omega)
          | array inner =>
              rw [encode, List.length_append] at hfuel hsize
              have hpos := length_head_pos 4 inner.length
              have hle := length_le_encodeAll inner
              rw [encode, List.append_assoc, skip_nested (by decide) (readHead_head 4 (by omega) _)]
              have hrest := ih (inner ++ items) (by rw [encodeAll_append, List.length_append]; omega)
                (by rw [encodeAll_append, List.length_append]; omega)
              rw [encodeAll_append, List.append_assoc, List.length_append, Nat.add_comm] at hrest
              exact hrest
          | map entries =>
              rw [encode, encodeEntries_eq, List.length_append] at hfuel hsize
              have hpos := length_head_pos 5 entries.length
              have hle := length_le_encodeAll (flat entries)
              rw [length_flat] at hle
              rw [encode, encodeEntries_eq, List.append_assoc,
                skip_nested (by decide) (readHead_head 5 (by omega) _)]
              have hrest := ih (flat entries ++ items)
                (by rw [encodeAll_append, List.length_append]; omega)
                (by rw [encodeAll_append, List.length_append]; omega)
              rw [encodeAll_append, List.append_assoc, List.length_append, length_flat, Nat.add_comm] at hrest
              exact hrest
          | tag number value =>
              rw [encode, List.length_append] at hfuel hsize
              have hpos := length_head_pos 6 number.toNat
              rw [encode, List.append_assoc, skip_nested (by decide) (readHead_head 6 number.toNat_lt _)]
              have hrest := ih (value :: items) (by rw [encodeAll, List.length_append]; omega)
                (by rw [encodeAll, List.length_append]; omega)
              rw [encodeAll, List.append_assoc] at hrest
              exact hrest
          | simple n =>
              rw [encode] at hfuel hsize
              have hpos := length_head_pos 7 n
              rw [encode, skip_nested (by decide) (readHead_head 7 (by omega) _)]
              exact ih items (by omega) (by omega)
          | float bits =>
              rw [encode, List.length_cons] at hfuel hsize
              have hbits : bits.toNat < 256 ^ 2 ^ 3 := bits.toNat_lt
              have hfirst := readHead_wide 7 (k := 3) (by decide) hbits (encodeAll items ++ rest)
              rw [encode]
              refine (skip_nested (by decide) hfirst).trans ?_
              exact ih items (by omega) (by omega)

theorem suffix_of_readHead {bytes rest : List UInt8} {major n : Nat}
    (h : readHead bytes = some (major, n, rest)) : rest <:+ bytes ∧ rest.length < bytes.length := by
  unfold readHead at h
  split at h
  · cases h
  · simp only at h
    split_ifs at h
    · cases h
      exact ⟨List.suffix_cons _ _, Nat.lt_succ_self _⟩
    · cases h
      refine ⟨(List.drop_suffix _ _).trans (List.suffix_cons _ _), ?_⟩
      rw [List.length_drop]
      exact Nat.lt_succ_of_le (Nat.sub_le _ _)

theorem suffix_of_content {major n : Nat} {bytes rest : List UInt8} (h : content major n bytes = some rest) :
    rest <:+ bytes := by
  unfold content at h
  split_ifs at h
  · cases h
    exact List.drop_suffix _ _
  · cases h
    exact List.suffix_rfl

theorem suffix_of_skipItems {fuel pending : Nat} {bytes rest : List UInt8}
    (h : skipItems fuel pending bytes = some rest) : rest <:+ bytes := by
  induction fuel generalizing pending bytes with
  | zero =>
      cases pending with
      | zero =>
          cases h
          exact List.suffix_rfl
      | succ pending => cases h
  | succ fuel ih =>
      cases pending with
      | zero =>
          cases h
          exact List.suffix_rfl
      | succ pending =>
          simp only [skipItems, Option.bind_eq_bind, Option.bind_eq_some_iff] at h
          obtain ⟨⟨major, n, body⟩, hhead, left, hleft, hrest⟩ := h
          exact (ih hrest).trans ((suffix_of_content hleft).trans (suffix_of_readHead hhead).1)

-- What the decoder keeps: where it is in the payload, how many items the open container still has,
-- how many those around it have after it, and how many may be open.
structure WireState where
  payload : List UInt8
  off : Nat
  count : Nat
  outer : List Nat
  budget : Nat

namespace WireState

variable (z : WireState)

def rest : List UInt8 := z.payload.drop z.off

-- Where `left` is what is left of the payload.
def moved (left : List UInt8) (count : Nat) : WireState :=
  { z with off := z.payload.length - left.length, count := count }

def enter (major per : Nat) : Option WireState :=
  match z.count, readHead z.rest with
  | count + 1, some (m, n, rest) =>
      if m = major ∧ z.outer.length < z.budget then
        some { z.moved rest (per * n) with outer := count :: z.outer }
      else none
  | _, _ => none

def leave : Option WireState :=
  match z.count, z.outer with
  | 0, count :: outer => some { z with count := count, outer := outer }
  | _, _ => none

def string (major : Nat) : Option (Span × WireState) :=
  match z.count, readHead z.rest with
  | count + 1, some (m, n, rest) =>
      if m = major ∧ n ≤ rest.length then
        some (⟨z.payload.length - rest.length, n⟩, z.moved (rest.drop n) count)
      else none
  | _, _ => none

def uint32 : Option (UInt32 × WireState) :=
  match z.count, readHead z.rest with
  | count + 1, some (m, n, rest) =>
      if m = 0 ∧ n < 2 ^ 32 then some (UInt32.ofNat n, z.moved rest count) else none
  | _, _ => none

def skip : Option WireState :=
  match z.count, skipItems z.rest.length 1 z.rest with
  | count + 1, some rest => some (z.moved rest count)
  | _, _ => none

end WireState

def wire : Decoder where
  State := WireState
  start budget payload := ⟨payload, 0, 1, [], budget⟩
  mapStart z := z.enter 5 2
  mapEnd z := z.leave
  listStart z := z.enter 4 1
  listEnd z := z.leave
  atEnd z := z.count == 0
  text z := z.string 3
  bytes z := z.string 2
  uint32 z := z.uint32
  skip z := z.skip
  payload z := z.payload
  left z := z.rest.length

theorem rest_moved {z : WireState} {left : List UInt8} (h : left <:+ z.rest) (count : Nat) :
    (z.moved left count).rest = left := by
  have hpayload : left <:+ z.payload := h.trans (List.drop_suffix _ _)
  exact (List.suffix_iff_eq_drop.mp hpayload).symm

theorem onward_moved {z : WireState} {left : List UInt8} (h : left <:+ z.rest) (count : Nat) :
    wire.Onward z (z.moved left count) := by
  refine ⟨rfl, ?_⟩
  change (z.moved left count).rest.length ≤ z.rest.length
  rw [rest_moved h]
  exact h.length_le

theorem enter_onward {z z' : WireState} {major per : Nat} (h : z.enter major per = some z') :
    wire.Onward z z' := by
  unfold WireState.enter at h
  split at h
  · rename_i hhead
    split at h
    · cases h
      exact onward_moved (suffix_of_readHead hhead).1 0
    · cases h
  · cases h

theorem leave_onward {z z' : WireState} (h : z.leave = some z') : wire.Onward z z' := by
  unfold WireState.leave at h
  split at h
  · cases h
    exact ⟨rfl, le_rfl⟩
  · cases h

theorem string_bounded {z z' : WireState} {s : Span} {major : Nat} (h : z.string major = some (s, z')) :
    s.off + s.len ≤ z.payload.length ∧ wire.Onward z z' ∧ z'.rest.length < z.rest.length := by
  unfold WireState.string at h
  split at h
  · rename_i m n rest hcount hhead
    obtain ⟨hsuffix, hlt⟩ := suffix_of_readHead hhead
    split at h
    · rename_i hfits
      cases h
      have hdrop : rest.drop n <:+ z.rest := (List.drop_suffix _ _).trans hsuffix
      have hle : z.rest.length ≤ z.payload.length := (List.drop_suffix _ _).length_le
      refine ⟨?_, onward_moved hdrop _, ?_⟩
      · simp only
        omega
      · rw [rest_moved hdrop, List.length_drop]
        omega
    · cases h
  · cases h

theorem bounded_wire : wire.Bounded where
  start budget payload := ⟨rfl, le_rfl⟩
  mapStart z z' h := enter_onward h
  mapEnd z z' h := leave_onward h
  listStart z z' h := enter_onward h
  listEnd z z' h := leave_onward h
  text z s z' h := ⟨(string_bounded h).1, (string_bounded h).2.1.1, (string_bounded h).2.2⟩
  bytes z s z' h := ⟨(string_bounded h).1, (string_bounded h).2.1⟩
  uint32 z n z' h := by
    unfold wire WireState.uint32 at h
    simp only at h
    split at h
    · rename_i hhead
      split at h
      · cases h
        exact onward_moved (suffix_of_readHead hhead).1 _
      · cases h
    · cases h
  skip z z' h := by
    unfold wire WireState.skip at h
    simp only at h
    split at h
    · rename_i hskip
      cases h
      exact onward_moved (suffix_of_skipItems hskip) _
    · cases h

-- The state of the decoder in front of `items`, and of `outer` after them.
structure Reading (budget : Nat) (z : WireState) (items : List Value) (outer : List (List Value)) : Prop where
  budget_eq : z.budget = budget
  rest_eq : z.rest = encodeAll items ++ encodeAll outer.flatten
  count_eq : z.count = items.length
  outer_eq : z.outer = outer.map List.length
  small : z.payload.length < 2 ^ 32

namespace Reading

variable {budget : Nat} {z : WireState} {item : Value} {items : List Value} {outer : List (List Value)}

-- What is left of the payload after the next item.
theorem rest_cons (h : Reading budget z (item :: items) outer) :
    z.rest = encode item ++ (encodeAll items ++ encodeAll outer.flatten) := by
  rw [h.rest_eq, encodeAll, List.append_assoc]

theorem size (h : Reading budget z items outer) : (encodeAll items).length < 2 ^ 32 := by
  have hle : z.rest.length ≤ z.payload.length := (List.drop_suffix _ _).length_le
  have hsmall := h.small
  rw [h.rest_eq, List.length_append] at hle
  omega

-- The item is read, and what its container has after it is next.
theorem next (h : Reading budget z (item :: items) outer) :
    Reading budget (z.moved (encodeAll items ++ encodeAll outer.flatten) items.length) items outer where
  budget_eq := h.budget_eq
  rest_eq := rest_moved ⟨encode item, h.rest_cons.symm⟩ _
  count_eq := rfl
  outer_eq := h.outer_eq
  small := h.small

-- The item is a container: what is in it is next, behind its head.
theorem into {first : List UInt8} {inner : List Value} (h : Reading budget z (item :: items) outer)
    (hitem : encode item = first ++ encodeAll inner) :
    Reading budget
      { z.moved (encodeAll inner ++ (encodeAll items ++ encodeAll outer.flatten)) inner.length with
        outer := items.length :: z.outer } inner (items :: outer) where
  budget_eq := h.budget_eq
  rest_eq := by
    refine (rest_moved ⟨first, ?_⟩ inner.length).trans ?_
    · rw [h.rest_cons, hitem, List.append_assoc]
    · rw [List.flatten_cons, encodeAll_append]
  count_eq := rfl
  outer_eq := by rw [h.outer_eq, List.map_cons]
  small := h.small

theorem enter (h : Reading budget z (item :: items) outer) (hdepth : outer.length < budget) (major : Fin 8)
    {per : Nat} (n : Nat) {inner : List Value} (hn : n ≤ inner.length) (hper : per * n = inner.length)
    (hitem : encode item = head major n ++ encodeAll inner) :
    ∃ z', z.enter major.val per = some z' ∧ Reading budget z' inner (items :: outer) := by
  refine ⟨_, ?_, h.into hitem⟩
  have hsize := h.size
  have hle := length_le_encodeAll inner
  rw [encodeAll, hitem, List.length_append, List.length_append] at hsize
  have hhead : readHead z.rest =
      some (major.val, n, encodeAll inner ++ (encodeAll items ++ encodeAll outer.flatten)) := by
    rw [h.rest_cons, hitem, List.append_assoc]
    exact readHead_head major (by omega) _
  have hopen : z.outer.length < z.budget := by
    rw [h.outer_eq, List.length_map, h.budget_eq]
    exact hdepth
  simp only [WireState.enter, h.count_eq, List.length_cons, hhead, true_and, if_pos hopen, hper]

theorem leave (h : Reading budget z [] (items :: outer)) :
    ∃ z', z.leave = some z' ∧ Reading budget z' items outer := by
  have houter := h.outer_eq
  rw [List.map_cons] at houter
  refine ⟨{ z with count := items.length, outer := outer.map List.length }, ?_, ?_⟩
  · simp only [WireState.leave, h.count_eq, List.length_nil, houter]
  · refine ⟨h.budget_eq, ?_, rfl, rfl, h.small⟩
    have hrest := h.rest_eq
    rw [List.flatten_cons, encodeAll_append] at hrest
    exact hrest

theorem string (h : Reading budget z (item :: items) outer) (major : Fin 8) {contents : List UInt8}
    (hitem : encode item = head major contents.length ++ contents) :
    ∃ s z', z.string major.val = some (s, z') ∧ s.bytes z.payload = contents ∧
      Reading budget z' items outer := by
  have hsize := h.size
  rw [encodeAll, hitem, List.length_append, List.length_append] at hsize
  have hrest : z.rest =
      head major contents.length ++ (contents ++ (encodeAll items ++ encodeAll outer.flatten)) := by
    rw [h.rest_cons, hitem, List.append_assoc]
  have hhead := readHead_head major (n := contents.length) (by omega)
    (contents ++ (encodeAll items ++ encodeAll outer.flatten))
  rw [← hrest] at hhead
  have hroom : contents.length ≤ (contents ++ (encodeAll items ++ encodeAll outer.flatten)).length := by
    rw [List.length_append]
    exact Nat.le_add_right _ _
  let found : Span :=
    ⟨z.payload.length - (contents ++ (encodeAll items ++ encodeAll outer.flatten)).length, contents.length⟩
  refine ⟨found, z.moved (encodeAll items ++ encodeAll outer.flatten) items.length, ?_, ?_, h.next⟩
  · simp only [WireState.string, h.count_eq, List.length_cons, hhead, true_and, if_pos hroom, List.drop_left]
    rfl
  · have hsuffix : contents ++ (encodeAll items ++ encodeAll outer.flatten) <:+ z.payload :=
      (suffix_of_readHead hhead).1.trans (List.drop_suffix _ _)
    rw [Span.bytes, slice, ← List.suffix_iff_eq_drop.mp hsuffix, List.take_left]

end Reading

theorem inverse_wire (budget : Nat) : wire.Inverse encode budget (Reading budget) where
  start value hsize := by
    refine ⟨rfl, ?_, rfl, rfl, hsize⟩
    simp [wire, WireState.rest, encodeAll]
  mapStart z entries items outer h hdepth := by
    refine h.enter hdepth 5 entries.length ?_ (length_flat entries).symm ?_
    · rw [length_flat]
      omega
    · rw [encode, encodeEntries_eq]
  mapEnd z items outer h := h.leave
  listStart z inner items outer h hdepth :=
    h.enter hdepth 4 inner.length le_rfl (Nat.one_mul _) (by rw [encode])
  listEnd z items outer h := h.leave
  atEnd z items outer h := by
    change (z.count == 0) = _
    rw [h.count_eq]
    cases items with
    | nil => rfl
    | cons item items => rfl
  text z contents items outer h := h.string 3 (by rw [encode])
  bytes z contents items outer h := h.string 2 (by rw [encode, encodeBytes])
  uint32 z n items outer h := by
    have hlt := n.toNat_lt
    have hitem : encode (.int n.toNat) = head 0 n.toNat := by
      rw [encode]
      exact if_pos (by omega)
    have hhead : readHead z.rest = some (0, n.toNat, encodeAll items ++ encodeAll outer.flatten) := by
      rw [h.rest_cons, hitem]
      exact readHead_head 0 (by omega) _
    refine ⟨z.moved (encodeAll items ++ encodeAll outer.flatten) items.length, ?_, h.next⟩
    change z.uint32 = _
    simp only [WireState.uint32, h.count_eq, List.length_cons, hhead, true_and, if_pos hlt,
      UInt32.ofNat_toNat]
    rfl
  skip z value items outer h := by
    have hsize := h.size
    rw [encodeAll, List.length_append] at hsize
    have hone : encodeAll [value] = encode value := List.append_nil _
    have hfuel : (encodeAll [value]).length ≤ z.rest.length := by
      rw [hone, h.rest_cons, List.length_append]
      exact Nat.le_add_right _ _
    have hskip := skipItems_encodeAll [value] hfuel (by rw [hone]; omega) (encodeAll items ++ encodeAll outer.flatten)
    rw [hone, ← h.rest_cons] at hskip
    refine ⟨z.moved (encodeAll items ++ encodeAll outer.flatten) items.length, ?_, h.next⟩
    change z.skip = _
    simp only [WireState.skip, h.count_eq, List.length_cons, List.length_nil] at hskip ⊢
    rw [hskip]
    rfl

end Library.Cbor
