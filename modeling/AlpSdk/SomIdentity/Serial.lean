import AlpSdk.Library.Digits
import AlpSdk.SomIdentity.Uboot

-- Serial numbers: the tool and U-Boot read the same ones, and the same fields in them.
namespace AlpSdk.SomIdentity.Uboot

open Library.Bytes Library.Digits

section Characters

def byteDigit (b : UInt8) : Option Nat := if b < 0x30 ∨ 0x39 < b then none else some (b - 0x30).toNat

def byteIndex (b : UInt8) : Option Nat :=
  if upperByte b = 0 then none else alphabet.idxOf? (upperByte b)

-- What one character can be in a serial number. The case of a letter makes no difference.
structure Spelled (b : UInt8) : Prop where
  digit : (byteDigit b).all (fun d => d < 10 && upperByte b == UInt8.ofNat (0x30 + d)) = true
  index : (byteIndex b).all (fun d => d < 32 && upperByte b == alphabet.getD d 0) = true
  digit_upper : byteDigit (upperByte b) = byteDigit b
  upper_upper : upperByte (upperByte b) = upperByte b
  week : upperByte b = 0x57 ↔ b = 0x57 ∨ b = 0x77
  dash : upperByte b = 0x2D ↔ b = 0x2D
  digit_zero : (byteDigit b).isSome = true → b ≠ 0
  index_zero : (byteIndex b).isSome = true → b ≠ 0

theorem spelled (b : UInt8) : Spelled b := by
  have htable (n : Fin 256) : Spelled (UInt8.ofNat n) := by
    constructor <;> revert n <;> decide +kernel
  simpa using htable ⟨b.toNat, b.toNat_lt⟩

theorem byteDigit_some {b : UInt8} {d : Nat} (h : byteDigit b = some d) :
    d < 10 ∧ upperByte b = UInt8.ofNat (0x30 + d) := by
  have hb := (spelled b).digit
  rw [h, Option.all_some, Bool.and_eq_true] at hb
  exact ⟨of_decide_eq_true hb.1, eq_of_beq hb.2⟩

theorem byteIndex_some {b : UInt8} {d : Nat} (h : byteIndex b = some d) :
    d < 32 ∧ upperByte b = alphabet.getD d 0 := by
  have hb := (spelled b).index
  rw [h, Option.all_some, Bool.and_eq_true] at hb
  exact ⟨of_decide_eq_true hb.1, eq_of_beq hb.2⟩

theorem byteIndex_upper (b : UInt8) : byteIndex (upperByte b) = byteIndex b := by
  rw [byteIndex, (spelled b).upper_upper, byteIndex]

def asciiByte (c : Char) : UInt8 := UInt8.ofNat c.toNat

-- What the tool and U-Boot make of one character.
structure Agrees (c : Char) (b : UInt8) : Prop where
  digit : byteDigit b = if isDigit c then some (c.toNat - '0'.toNat) else none
  index : byteIndex b = CROCKFORD_ALPHABET.idxOf? (upper c)
  week : upper c = 'W' ↔ upperByte b = 0x57
  dash : c = '-' ↔ b = 0x2D
  alnum : (byteIndex b).isSome = true → isAlnum c = true

theorem agrees {c : Char} (h : c.toNat < 128) : Agrees c (asciiByte c) := by
  have htable (n : Fin 128) : Agrees (Char.ofNat n) (UInt8.ofNat n) := by
    constructor <;> revert n <;> decide +kernel
  have hc := htable ⟨c.toNat, h⟩
  rwa [Char.ofNat_toNat] at hc

theorem encodeAscii_eq {value : List Char} {bytes : List UInt8} (h : encodeAscii value = some bytes) :
    (∀ c ∈ value, c.toNat < 128) ∧ bytes = value.map asciiByte := by
  have hmapped := forall₂_of_mapM h
  clear h
  induction hmapped with
  | nil => simp
  | cons hbyte _ ih =>
      obtain ⟨hascii, rfl⟩ := ih
      split at hbyte
      case isFalse => cases hbyte
      case isTrue hc =>
        cases hbyte
        exact ⟨List.forall_mem_cons.mpr ⟨hc, hascii⟩, rfl⟩

end Characters

section Read

-- A serial number, read without regard to the number types of its readers.
def readSerial (bytes : List UInt8) : Option ParsedSerial :=
  if bytes.length = 12 ∧ upperByte (bytes.getD 4 0) = 0x57 ∧ bytes.getD 7 0 = 0x2D then
    (ofChars 10 byteDigit (slice 0 4 bytes)).bind fun year =>
      (ofChars 10 byteDigit (slice 5 2 bytes)).bind fun week =>
        (ofChars 32 byteIndex (slice 8 4 bytes)).bind fun index =>
          if (YEAR_BASE ≤ year ∧ year ≤ YEAR_BASE + (1 <<< YEAR_BITS) - 1) ∧ WEEK_MIN ≤ week ∧
              week ≤ WEEK_MAX then
            some ⟨year, week, index⟩
          else none
  else none

variable {a b bytes : List UInt8} {p : ParsedSerial}

theorem readSerial_some (h : readSerial bytes = some p) :
    (bytes.length = 12 ∧ upperByte (bytes.getD 4 0) = 0x57 ∧ bytes.getD 7 0 = 0x2D) ∧
      ofChars 10 byteDigit (slice 0 4 bytes) = some p.year ∧
      ofChars 10 byteDigit (slice 5 2 bytes) = some p.week ∧
      ofChars 32 byteIndex (slice 8 4 bytes) = some p.index ∧
      (YEAR_BASE ≤ p.year ∧ p.year ≤ YEAR_BASE + (1 <<< YEAR_BITS) - 1) ∧ WEEK_MIN ≤ p.week ∧
        p.week ≤ WEEK_MAX := by
  rw [readSerial] at h
  split at h
  case isFalse => cases h
  case isTrue hform =>
    obtain ⟨year, hyear, h⟩ := Option.bind_eq_some_iff.mp h
    obtain ⟨week, hweek, h⟩ := Option.bind_eq_some_iff.mp h
    obtain ⟨index, hindex, h⟩ := Option.bind_eq_some_iff.mp h
    split at h
    case isFalse => cases h
    case isTrue hrange =>
      cases h
      exact ⟨hform, hyear, hweek, hindex, hrange⟩

theorem readSerial_lt (h : readSerial bytes = some p) :
    2024 ≤ p.year ∧ p.year < 2024 + 64 ∧ p.week < 64 ∧ p.index < 2 ^ 20 := by
  obtain ⟨⟨hlen, -⟩, -, -, hindex, ⟨hlow, hhigh⟩, -, hweek⟩ := readSerial_some h
  have hlt := ofChars_lt (by decide) (fun b d hb => (byteIndex_some hb).1) hindex
  rw [slice, List.length_take, List.length_drop, hlen] at hlt
  have hbase : YEAR_BASE + (1 <<< YEAR_BITS) - 1 = 2087 := by decide
  rw [hbase] at hhigh
  rw [YEAR_BASE] at hlow
  rw [WEEK_MAX] at hweek
  exact ⟨hlow, by omega, by omega, hlt⟩

theorem slice_map (f : UInt8 → UInt8) (off len : Nat) :
    slice off len (bytes.map f) = (slice off len bytes).map f := by
  rw [slice, slice, List.map_take, List.map_drop]

theorem ofChars_upper {digit : UInt8 → Option Nat} (hdigit : ∀ b, digit (upperByte b) = digit b)
    (base : Nat) :
    ofChars base digit (bytes.map upperByte) = ofChars base digit bytes := by
  rw [ofChars, ofChars, List.mapM_map]
  congr 2
  funext b
  exact hdigit b

-- Two spellings of one serial number differ in the case of letters, and any such are one.
theorem readSerial_upper : readSerial (bytes.map upperByte) = readSerial bytes := by
  have hget (i : Nat) : (bytes.map upperByte).getD i 0 = upperByte (bytes.getD i 0) := by
    rw [show (0 : UInt8) = upperByte 0 from rfl, List.getD_map]
    rfl
  have hdash : upperByte (bytes.getD 7 0) = 0x2D ↔ bytes.getD 7 0 = 0x2D := (spelled _).dash
  rw [readSerial, readSerial, List.length_map, hget, hget, (spelled _).upper_upper]
  simp only [hdash, slice_map, ofChars_upper (fun b => (spelled b).digit_upper),
    ofChars_upper byteIndex_upper]

theorem slice_index {α : Type} {chars : List α} (hlen : chars.length = 12) :
    (chars.drop 8).take 4 = chars.drop 8 :=
  List.take_of_length_le (by rw [List.length_drop, hlen])

theorem serial_parts (hlen : bytes.length = 12) :
    bytes = slice 0 4 bytes ++ bytes.getD 4 0 :: (slice 5 2 bytes ++ bytes.getD 7 0 :: slice 8 4 bytes) := by
  have hrest : slice 8 4 bytes = bytes.drop 8 := slice_index hlen
  have hseven : bytes.getD 7 0 :: bytes.drop 8 = bytes.drop 7 := by
    rw [List.getD_eq_getElem _ _ (by omega), List.drop_eq_getElem_cons (i := 7) (by omega)]
  have hfour : bytes.getD 4 0 :: bytes.drop 5 = bytes.drop 4 := by
    rw [List.getD_eq_getElem _ _ (by omega), List.drop_eq_getElem_cons (i := 4) (by omega)]
  have hfive : slice 5 2 bytes ++ bytes.drop 7 = bytes.drop 5 := by
    rw [slice, show bytes.drop 7 = (bytes.drop 5).drop 2 by rw [List.drop_drop], List.take_append_drop]
  rw [hrest, hseven, hfive, hfour, slice, List.drop_zero, List.take_append_drop]

theorem readSerial_inj (ha : readSerial a = some p) (hb : readSerial b = some p) :
    a.map upperByte = b.map upperByte := by
  obtain ⟨⟨hlen, hmark, hdash⟩, hyear₁, hweek₁, hindex₁, -⟩ := readSerial_some ha
  obtain ⟨⟨hlen', hmark', hdash'⟩, hyear₂, hweek₂, hindex₂, -⟩ := readSerial_some hb
  have hlength (off len : Nat) : (slice off len a).length = (slice off len b).length := by
    rw [slice, slice, List.length_take, List.length_take, List.length_drop, List.length_drop, hlen, hlen']
  have hdecimal {x y : List UInt8} {v : Nat} (hxy : x.length = y.length)
      (hx : ofChars 10 byteDigit x = some v)
      (hy : ofChars 10 byteDigit y = some v) : x.map upperByte = y.map upperByte :=
    ofChars_inj (by decide) (fun b d hb => (byteDigit_some hb).1)
      (fun b b' d hb hb' => (byteDigit_some hb).2.trans (byteDigit_some hb').2.symm) hxy hx hy
  have hyear := hdecimal (hlength 0 4) hyear₁ hyear₂
  have hweek := hdecimal (hlength 5 2) hweek₁ hweek₂
  have hindex : (slice 8 4 a).map upperByte = (slice 8 4 b).map upperByte :=
    ofChars_inj (by decide) (fun b d hb => (byteIndex_some hb).1)
      (fun b b' d hb hb' => (byteIndex_some hb).2.trans (byteIndex_some hb').2.symm) (hlength 8 4) hindex₁ hindex₂
  rw [serial_parts hlen, serial_parts hlen', List.map_append, List.map_cons, List.map_append, List.map_cons,
    List.map_append, List.map_cons, List.map_append, List.map_cons, hyear, hweek, hindex, hmark, hmark',
    hdash, hdash']

theorem readSerial_nonzero (h : readSerial bytes = some p) : ∀ b ∈ bytes, b ≠ 0 := by
  obtain ⟨⟨hlen, hmark, hdash⟩, hyear, hweek, hindex, -⟩ := readSerial_some h
  obtain ⟨_, hyear, -⟩ := Option.map_eq_some_iff.mp hyear
  obtain ⟨_, hweek, -⟩ := Option.map_eq_some_iff.mp hweek
  obtain ⟨_, hindex, -⟩ := Option.map_eq_some_iff.mp hindex
  rw [serial_parts hlen]
  simp only [List.forall_mem_append, List.forall_mem_cons]
  refine ⟨fun b hb => (spelled b).digit_zero (isSome_of_mapM hyear b hb), fun hzero => ?_,
    fun b hb => (spelled b).digit_zero (isSome_of_mapM hweek b hb), fun hzero => ?_,
    fun b hb => (spelled b).index_zero (isSome_of_mapM hindex b hb)⟩
  · rw [hzero] at hmark
    cases hmark
  · rw [hzero] at hdash
    cases hdash

theorem decimal_eq (chars : List UInt8) :
    chars.foldlM decimalStep 0 = (ofChars 10 byteDigit chars).map UInt32.ofNat := by
  refine foldlM_eq (f := UInt32.ofNat) (fun v b => ?_) chars
  rw [decimalStep, byteDigit]
  split
  · rfl
  · simp [UInt32.ofNat_add, UInt32.ofNat_mul]

theorem crockford_eq {chars : List UInt8} (hlen : chars.length = 4) :
    alpEthCrockfordDecode chars = (ofChars 32 byteIndex chars).map UInt32.ofNat := by
  obtain ⟨a, b, c, d, rfl⟩ := List.length_eq_four.mp hlen
  refine foldlM_eq (f := UInt32.ofNat) (fun v b => ?_) [a, b, c, d]
  rw [crockfordStep, byteIndex]
  split
  · rfl
  · congr 1
    funext p
    simp [UInt32.ofNat_add, UInt32.ofNat_mul]

theorem year_out_iff {y : Nat} (hy : y < 10000) :
    (UInt32.ofNat y < ALP_ETH_YEAR_BASE ∨
      ALP_ETH_YEAR_BASE + (1 <<< ALP_ETH_YEAR_BITS.toUInt32) - 1 < UInt32.ofNat y) ↔
      ¬ (YEAR_BASE ≤ y ∧ y ≤ YEAR_BASE + (1 <<< YEAR_BITS) - 1) := by
  have hlow : ALP_ETH_YEAR_BASE.toNat = 2024 := rfl
  have hhigh : (ALP_ETH_YEAR_BASE + (1 <<< ALP_ETH_YEAR_BITS.toUInt32) - 1).toNat = 2087 := by decide
  have hbits : YEAR_BASE + (1 <<< YEAR_BITS) - 1 = 2087 := by decide
  rw [UInt32.lt_iff_toNat_lt, UInt32.lt_iff_toNat_lt, hlow, hhigh, UInt32.toNat_ofNat',
    Nat.mod_eq_of_lt (by omega), hbits, YEAR_BASE]
  omega

theorem week_out_iff {w : Nat} (hw : w < 100) :
    (UInt32.ofNat w < 1 ∨ 53 < UInt32.ofNat w) ↔ ¬ (WEEK_MIN ≤ w ∧ w ≤ WEEK_MAX) := by
  rw [UInt32.lt_iff_toNat_lt, UInt32.lt_iff_toNat_lt, UInt32.toNat_ofNat', Nat.mod_eq_of_lt (by omega),
    WEEK_MIN, WEEK_MAX, show UInt32.toNat 1 = 1 from rfl, show UInt32.toNat 53 = 53 from rfl]
  omega

theorem decimal_lt {chars : List UInt8} {v : Nat} (h : ofChars 10 byteDigit chars = some v) :
    v < 10 ^ chars.length :=
  ofChars_lt (by decide) (fun _ _ hb => (byteDigit_some hb).1) h

theorem alpEthParseSerial_eq (bytes : List UInt8) :
    alpEthParseSerial bytes =
      (readSerial bytes).map fun p => (UInt32.ofNat p.year, UInt32.ofNat p.week, UInt32.ofNat p.index) := by
  rw [alpEthParseSerial, readSerial]
  by_cases hlen : bytes.length = 12
  swap
  · rw [if_pos hlen, if_neg fun h => hlen h.1]
    rfl
  have hrest : slice 8 4 bytes = bytes.drop 8 := slice_index hlen
  have hfour : (bytes.drop 8).length = 4 := by rw [List.length_drop, hlen]
  rw [if_neg (not_not.mpr hlen), decimal_eq, decimal_eq, hrest, crockford_eq hfour]
  simp only [Option.bind_eq_bind]
  by_cases hmark : upperByte (bytes.getD 4 0) = 0x57
  swap
  · rw [if_neg fun h => hmark h.2.1]
    have hneither := not_or.mp (mt (spelled _).week.mpr hmark)
    cases ofChars 10 byteDigit (slice 0 4 bytes) with
    | none => rfl
    | some year => exact if_pos hneither
  have heither := (spelled _).week.mp hmark
  by_cases hdash : bytes.getD 7 0 = 0x2D
  swap
  · rw [if_neg fun h => hdash h.2.2]
    cases ofChars 10 byteDigit (slice 0 4 bytes) with
    | none => rfl
    | some year =>
        rw [Option.map_some, Option.bind_some, if_neg fun h : _ ∧ _ => heither.elim h.1 h.2]
        cases ofChars 10 byteDigit (slice 5 2 bytes) with
        | none => rfl
        | some week => exact if_pos hdash
  rw [if_pos ⟨hlen, hmark, hdash⟩]
  cases hyear : ofChars 10 byteDigit (slice 0 4 bytes) with
  | none => rfl
  | some year =>
      rw [Option.map_some, Option.bind_some, if_neg fun h : _ ∧ _ => heither.elim h.1 h.2]
      cases hweek : ofChars 10 byteDigit (slice 5 2 bytes) with
      | none => rfl
      | some week =>
          rw [Option.map_some, Option.bind_some, if_neg (not_not.mpr hdash)]
          cases hindex : ofChars 32 byteIndex (bytes.drop 8) with
          | none => rfl
          | some index =>
              have hy := decimal_lt hyear
              have hw := decimal_lt hweek
              rw [slice, List.length_take, List.length_drop, hlen] at hy hw
              simp only [Option.map_some, Option.bind_some, year_out_iff hy, week_out_iff hw]
              grind

end Read

section Tool

variable {cs : List Char}

theorem digits_eq (hascii : ∀ c ∈ cs, c.toNat < 128) :
    ofChars 10 byteDigit (cs.map asciiByte) = if cs.all isDigit then some (digitsValue cs) else none := by
  rw [← foldlM_digits, digitsValue]
  generalize 0 = v
  induction cs generalizing v with
  | nil => rfl
  | cons c rest ih =>
      rw [List.map_cons, List.foldlM_cons, (agrees (hascii c List.mem_cons_self)).digit, List.all_cons,
        List.foldl_cons]
      cases isDigit c with
      | false => rfl
      | true => exact ih (fun c' hc' => hascii c' (List.mem_cons_of_mem _ hc')) _

theorem indices_eq (hascii : ∀ c ∈ cs, c.toNat < 128) :
    ofChars 32 byteIndex (cs.map asciiByte) = cs.foldlM crockfordDigit 0 := by
  rw [← foldlM_digits]
  generalize 0 = v
  induction cs generalizing v with
  | nil => rfl
  | cons c rest ih =>
      rw [List.map_cons, List.foldlM_cons, List.foldlM_cons, (agrees (hascii c List.mem_cons_self)).index]
      change (crockfordDigit v c).bind _ = (crockfordDigit v c).bind _
      congr 1
      funext w
      exact ih (fun c' hc' => hascii c' (List.mem_cons_of_mem _ hc')) w

theorem all_isAlnum (hascii : ∀ c ∈ cs, c.toNat < 128) {v : Nat}
    (h : ofChars 32 byteIndex (cs.map asciiByte) = some v) :
    cs.all isAlnum = true := by
  obtain ⟨digits, hdigits, -⟩ := Option.map_eq_some_iff.mp h
  rw [List.all_eq_true]
  intro c hc
  exact (agrees (hascii c hc)).alnum (isSome_of_mapM hdigits _ (List.mem_map_of_mem hc))

theorem agrees_getD {serial : List Char} (hascii : ∀ c ∈ serial, c.toNat < 128) {i : Nat} (d : Char)
    (hi : i < serial.length) : Agrees (serial.getD i d) ((serial.map asciiByte).getD i 0) := by
  rw [List.getD_eq_getElem _ _ hi, List.getD_eq_getElem _ _ (by simpa using hi), List.getElem_map]
  exact agrees (hascii _ (List.getElem_mem hi))

theorem parseSerial_none {serial : List Char} (h : serialGroups serial = none) :
    parseSerial serial = none := by
  rw [parseSerial, h]
  rfl

theorem parseSerial_eq {serial : List Char} (hascii : ∀ c ∈ serial, c.toNat < 128) :
    parseSerial serial = readSerial (serial.map asciiByte) := by
  rw [readSerial, List.length_map]
  by_cases hlen : serial.length = 12
  swap
  · rw [if_neg fun h => hlen h.1, parseSerial_none (if_neg fun h => hlen h.1)]
  have hW := (agrees_getD hascii '-' (show 4 < serial.length by omega)).week
  have hdash := (agrees_getD hascii 'W' (show 7 < serial.length by omega)).dash
  have hyear : ofChars 10 byteDigit (slice 0 4 (serial.map asciiByte)) =
      if (serial.take 4).all isDigit then some (digitsValue (serial.take 4)) else none := by
    rw [slice, List.drop_zero, ← List.map_take]
    exact digits_eq fun c hc => hascii c (List.mem_of_mem_take hc)
  have hweek : ofChars 10 byteDigit (slice 5 2 (serial.map asciiByte)) =
      if ((serial.drop 5).take 2).all isDigit then some (digitsValue ((serial.drop 5).take 2)) else none := by
    rw [slice, ← List.map_drop, ← List.map_take]
    exact digits_eq fun c hc => hascii c (List.mem_of_mem_drop (List.mem_of_mem_take hc))
  have hrest : slice 8 4 (serial.map asciiByte) = (serial.drop 8).map asciiByte := by
    rw [List.map_drop]
    exact slice_index (by rw [List.length_map, hlen])
  have hdrop : ∀ c ∈ serial.drop 8, c.toNat < 128 := fun c hc => hascii c (List.mem_of_mem_drop hc)
  have hdecode : crockfordDecode (serial.drop 8) = ofChars 32 byteIndex ((serial.drop 8).map asciiByte) := by
    rw [crockfordDecode, if_pos (by rw [List.length_drop, hlen]), indices_eq hdrop]
  rw [hyear, hweek, hrest]
  simp only [← hW, ← hdash]
  by_cases hform : upper (serial.getD 4 '-') = 'W' ∧ serial.getD 7 'W' = '-'
  swap
  · rw [if_neg fun h => hform h.2, parseSerial_none (if_neg fun h => hform ⟨h.2.2.1, h.2.2.2.2.1⟩)]
  rw [if_pos ⟨hlen, hform⟩]
  by_cases hA : (serial.take 4).all isDigit = true
  swap
  · rw [if_neg hA, parseSerial_none (if_neg fun h => hA h.2.1)]
    rfl
  by_cases hB : ((serial.drop 5).take 2).all isDigit = true
  swap
  · rw [if_pos hA, if_neg hB, parseSerial_none (if_neg fun h => hB h.2.2.2.1)]
    rfl
  rw [if_pos hA, if_pos hB, Option.bind_some, Option.bind_some]
  cases hindex : ofChars 32 byteIndex ((serial.drop 8).map asciiByte) with
  | none =>
      rw [parseSerial, serialGroups, Option.bind_eq_bind]
      split
      · rw [Option.bind_some]
        dsimp only
        rw [hdecode, hindex]
        rfl
      · rfl
  | some index =>
      -- The characters that Crockford's alphabet takes are alphanumeric, as the pattern asks.
      have halnum := all_isAlnum hdrop hindex
      have hgroups : serialGroups serial = some (serial.take 4, (serial.drop 5).take 2, serial.drop 8) :=
        if_pos ⟨hlen, hA, hform.1, hB, hform.2, halnum⟩
      rw [parseSerial, hgroups, Option.bind_eq_bind, Option.bind_some, Option.bind_some]
      dsimp only
      rw [hdecode, hindex, Option.bind_eq_bind, Option.bind_some]
      grind

end Tool

end AlpSdk.SomIdentity.Uboot
