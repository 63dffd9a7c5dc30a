import AlpSdk.Eeprom24c128.Store
import AlpSdk.SomIdentity.Crc32

-- What the factory wrote is what the firmware reads, or nothing.
namespace AlpSdk.SomIdentity

open Library.Effect Library.Bytes Eeprom24c128

-- A string in a field of its own size.
def text {len : Nat} (encoded : List UInt8) : ByteArr len := fun i => encoded.getD i 0

def identity (family sku hwRev serial : List UInt8) (mfg : Date) : Info :=
  { Info.zero with
    somFamily := text family
    somSku := text sku
    somHwRev := text hwRev
    somSerial := text serial
    somMfgYear := UInt16.ofNat mfg.year
    somMfgMonth := UInt8.ofNat mfg.month
    somMfgDay := UInt8.ofNat mfg.day }

section Tool

-- The four strings as the tool encodes them.
structure Encoded (family sku hwRev serial : List Char) (f k h s : List UInt8) : Prop where
  family : encodeAscii family = some f ∧ f.length < FAMILY_LEN
  sku : encodeAscii sku = some k ∧ k.length < SKU_LEN
  hwRev : encodeAscii hwRev = some h ∧ h.length < HW_REV_LEN
  serial : encodeAscii serial = some s ∧ s.length < SERIAL_LEN

def padTo (len : Nat) (encoded : List UInt8) : List UInt8 :=
  encoded ++ List.replicate (len - encoded.length) 0

theorem length_padTo {len : Nat} {encoded : List UInt8} (h : encoded.length < len) :
    (padTo len encoded).length = len := by
  simp only [padTo, List.length_append, List.length_replicate]
  omega

theorem getD_padTo (len : Nat) (encoded : List UInt8) (i : Nat) :
    (padTo len encoded).getD i 0 = encoded.getD i 0 := by
  by_cases h : i < encoded.length
  · rw [padTo, List.getD_append _ _ _ _ h]
  · rw [padTo, List.getD_append_right _ _ _ _ (Nat.not_lt.mp h), List.getD_eq_default _ _ (Nat.not_lt.mp h),
      List.getD_eq_getElem?_getD, List.getElem?_replicate]
    split <;> rfl

theorem checkString_eq {value : List Char} {len : Nat} {padded : List UInt8} (hlen : 0 < len)
    (h : checkString value len = some padded) :
    ∃ encoded, encodeAscii value = some encoded ∧ encoded.length < len ∧ padded = padTo len encoded := by
  simp only [checkString, Option.bind_eq_bind, Option.bind_eq_some_iff] at h
  obtain ⟨encoded, hencoded, h⟩ := h
  split at h
  · cases h
  · cases h
    exact ⟨encoded, hencoded, by omega, rfl⟩

def manifest (f k h s : List UInt8) (mfg : Date) : List UInt8 :=
  packHeader (padTo FAMILY_LEN f) (padTo SKU_LEN k) (padTo HW_REV_LEN h) (padTo SERIAL_LEN s) mfg

theorem buildManifest_eq {family sku hwRev serial : List Char} {mfg : Date} {blob : List UInt8}
    (hbuild : buildManifest family sku hwRev serial mfg = some blob) :
    ∃ f k h s, Encoded family sku hwRev serial f k h s ∧
      blob = manifest f k h s mfg ++ putLE 4 (zlibCrc32 (manifest f k h s mfg)).toNat := by
  simp only [buildManifest, Option.bind_eq_bind, Option.bind_eq_some_iff, Option.some.injEq] at hbuild
  obtain ⟨_, hf, _, hk, _, hh, _, hs, rfl⟩ := hbuild
  obtain ⟨f, hfamily, hflen, rfl⟩ := checkString_eq (by decide) hf
  obtain ⟨k, hsku, hklen, rfl⟩ := checkString_eq (by decide) hk
  obtain ⟨h, hhwRev, hhlen, rfl⟩ := checkString_eq (by decide) hh
  obtain ⟨s, hserial, hslen, rfl⟩ := checkString_eq (by decide) hs
  exact ⟨f, k, h, s, ⟨⟨hfamily, hflen⟩, ⟨hsku, hklen⟩, ⟨hhwRev, hhlen⟩, ⟨hserial, hslen⟩⟩, rfl⟩

end Tool

section Layout

variable {family sku hwRev serial : List Char} {f k h s : List UInt8} {mfg : Date}

-- A programmed manifest, field by field.
structure Laid (f k h s : List UInt8) (mfg : Date) (blob : List UInt8) : Prop where
  magic : getU32 0x00 blob = ALP_HW_INFO_MAGIC
  schema : getU32 0x04 blob = ALP_HW_INFO_SCHEMA_VERSION
  family : slice 0x08 ALP_HW_INFO_FAMILY_LEN blob = padTo FAMILY_LEN f
  sku : slice 0x18 ALP_HW_INFO_SKU_LEN blob = padTo SKU_LEN k
  hwRev : slice 0x30 ALP_HW_INFO_HW_REV_LEN blob = padTo HW_REV_LEN h
  serial : slice 0x38 ALP_HW_INFO_SERIAL_LEN blob = padTo SERIAL_LEN s
  year : getU16 0x50 blob = mfg.year
  month : slice 0x52 1 blob = [UInt8.ofNat mfg.month]
  day : slice 0x53 1 blob = [UInt8.ofNat mfg.day]
  header : blob.take 0x7C = manifest f k h s mfg
  crc : slice 0x7C 4 blob = putLE 4 (zlibCrc32 (manifest f k h s mfg)).toNat

theorem length_manifest (henc : Encoded family sku hwRev serial f k h s) :
    (manifest f k h s mfg).length = 0x7C := by
  have hf := length_padTo henc.family.2
  have hk := length_padTo henc.sku.2
  have hh := length_padTo henc.hwRev.2
  have hs := length_padTo henc.serial.2
  simp only [manifest, packHeader, List.length_flatten, List.map_cons, List.map_nil, List.sum_cons,
    List.sum_nil, length_putLE, hf, hk, hh, hs, List.length_replicate, List.length_cons, List.length_nil]
  rfl

theorem laid_manifest (henc : Encoded family sku hwRev serial f k h s) :
    Laid f k h s mfg (manifest f k h s mfg ++ putLE 4 (zlibCrc32 (manifest f k h s mfg)).toNat) := by
  obtain ⟨crc, hcrc⟩ : ∃ crc, crc = putLE 4 (zlibCrc32 (manifest f k h s mfg)).toNat := ⟨_, rfl⟩
  rw [← hcrc]
  have hblob : manifest f k h s mfg ++ crc = [putLE 4 MAGIC, putLE 4 SCHEMA_VERSION, padTo FAMILY_LEN f,
      padTo SKU_LEN k, padTo HW_REV_LEN h, padTo SERIAL_LEN s, putLE 2 mfg.year, [UInt8.ofNat mfg.month],
      [UInt8.ofNat mfg.day], List.replicate RESERVED_LEN 0, crc].flatten := by
    simp [manifest, packHeader]
  have hlens : [putLE 4 MAGIC, putLE 4 SCHEMA_VERSION, padTo FAMILY_LEN f, padTo SKU_LEN k, padTo HW_REV_LEN h,
      padTo SERIAL_LEN s, putLE 2 mfg.year, [UInt8.ofNat mfg.month], [UInt8.ofNat mfg.day],
      List.replicate RESERVED_LEN 0, crc].map List.length = [4, 4, 16, 24, 8, 24, 2, 1, 1, 40, 4] := by
    have hf : (padTo FAMILY_LEN f).length = 16 := length_padTo henc.family.2
    have hk : (padTo SKU_LEN k).length = 24 := length_padTo henc.sku.2
    have hh : (padTo HW_REV_LEN h).length = 8 := length_padTo henc.hwRev.2
    have hs : (padTo SERIAL_LEN s).length = 24 := length_padTo henc.serial.2
    simp [hcrc, hf, hk, hh, hs, RESERVED_LEN]
  have hheader : (manifest f k h s mfg ++ crc).take 0x7C = manifest f k h s mfg :=
    List.take_left' (length_manifest henc)
  rw [hblob] at hheader ⊢
  have hfield {i off len : Nat} := @slice_flatten _ _ hlens i off len
  refine ⟨?_, ?_, hfield (i := 2) rfl rfl, hfield (i := 3) rfl rfl, hfield (i := 4) rfl rfl,
    hfield (i := 5) rfl rfl, ?_, hfield (i := 7) rfl rfl, hfield (i := 8) rfl rfl, hheader, (hfield (i := 10) rfl rfl).trans hcrc⟩
  · exact (congrArg getLE (hfield (i := 0) rfl rfl)).trans (getLE_putLE 4 MAGIC)
  · exact (congrArg getLE (hfield (i := 1) rfl rfl)).trans (getLE_putLE 4 SCHEMA_VERSION)
  · refine (congrArg getLE (hfield (i := 6) rfl rfl)).trans ((getLE_putLE 2 mfg.year).trans ?_)
    exact Nat.mod_eq_of_lt (Nat.lt_of_le_of_lt mfg.year_le (by decide))

theorem copyField_text {n m : Nat} (dst : ByteArr n) {encoded : List UInt8} (h : encoded.length < n) :
    copyField dst (text (padTo m encoded) : ByteArr n) = text encoded := by
  funext i
  simp only [copyField, if_pos (Nat.le_refl n), text, getD_padTo]
  split
  · rfl
  case isFalse hlast =>
    have hend : i.val = n - 1 := by omega
    rw [if_pos hend, hend, List.getD_eq_default _ _ (by omega)]

theorem classify_laid {blob : List UInt8} (henc : Encoded family sku hwRev serial f k h s)
    (hlaid : Laid f k h s mfg blob) : classifyManifest blob .zero = (.ok (), identity f k h s mfg) := by
  have hcrc : (alpHwInfoCrc32 (blob.take 0x7C)).toNat = getU32 0x7C blob := by
    rw [alpHwInfoCrc32_eq, hlaid.header, getU32, hlaid.crc, getLE_putLE]
    exact (Nat.mod_eq_of_lt (zlibCrc32 (manifest f k h s mfg)).isLt).symm
  have hmonth : blob.getD 0x52 0 = UInt8.ofNat mfg.month := congrFun (readArr_eq hlaid.month) 0
  have hday : blob.getD 0x53 0 = UInt8.ofNat mfg.day := congrFun (readArr_eq hlaid.day) 0
  have hf : readArr ALP_HW_INFO_FAMILY_LEN 0x08 blob = text (padTo FAMILY_LEN f) := readArr_eq hlaid.family
  have hk : readArr ALP_HW_INFO_SKU_LEN 0x18 blob = text (padTo SKU_LEN k) := readArr_eq hlaid.sku
  have hh : readArr ALP_HW_INFO_HW_REV_LEN 0x30 blob = text (padTo HW_REV_LEN h) := readArr_eq hlaid.hwRev
  have hs : readArr ALP_HW_INFO_SERIAL_LEN 0x38 blob = text (padTo SERIAL_LEN s) := readArr_eq hlaid.serial
  rw [classifyManifest, if_neg (not_not.mpr hlaid.magic), if_neg (not_not.mpr hlaid.schema),
    if_neg (not_not.mpr hcrc), hf, hk, hh, hs, copyField_text (n := ALP_HW_INFO_FAMILY_LEN) _ henc.family.2,
    copyField_text (n := ALP_HW_INFO_SKU_LEN) _ henc.sku.2, copyField_text (n := ALP_HW_INFO_HW_REV_LEN) _ henc.hwRev.2,
    copyField_text (n := ALP_HW_INFO_SERIAL_LEN) _ henc.serial.2, hlaid.year, hmonth, hday]
  rfl

end Layout

section Damaged

theorem slice_damage (off len : Nat) (bytes e : List UInt8) :
    slice off len (damage bytes e) = damage (slice off len bytes) (slice off len e) := by
  simp only [slice, damage, List.drop_zipWith, List.take_zipWith]

theorem getU32_damage {off : Nat} {bytes e : List UInt8} (hbytes : off + 4 ≤ bytes.length)
    (he : off + 4 ≤ e.length) :
    getU32 off (damage bytes e) = getU32 off bytes ^^^ getU32 off e := by
  rw [getU32, slice_damage, getLE_damage (by rw [length_slice hbytes, length_slice he])]
  rfl

theorem getLE_eq_zero {bytes : List UInt8} (h : getLE bytes = 0) :
    bytes = List.replicate bytes.length 0 := by
  induction bytes with
  | nil => rfl
  | cons byte rest ih =>
      rw [getLE] at h
      have hbyte : byte = 0 := UInt8.toNat_inj.mp (by rw [show UInt8.toNat 0 = 0 from rfl]; omega)
      rw [List.length_cons, List.replicate_succ, ← ih (by omega), hbyte]

variable {family sku hwRev serial : List Char} {mfg : Date} {blob : List UInt8}

-- A burst over the magic number makes the module a blank one, and every other one is an error.
theorem classify_damaged (hbuild : buildManifest family sku hwRev serial mfg = some blob) {e : List UInt8}
    (hlen : e.length = MANIFEST_SIZE) (hburst : Burst e) (out : Info) :
    classifyManifest (damage blob e) out =
      (.error (if slice 0 4 e = [0, 0, 0, 0] then .io else .notProvisioned), out) := by
  obtain ⟨f, k, h, s, henc, rfl⟩ := buildManifest_eq hbuild
  have hlaid : Laid f k h s mfg _ := laid_manifest henc
  obtain ⟨crc, hcrc⟩ : ∃ crc, crc = putLE 4 (zlibCrc32 (manifest f k h s mfg)).toNat := ⟨_, rfl⟩
  have hheader : (manifest f k h s mfg).length = 0x7C := length_manifest henc
  rw [← hcrc] at hlaid ⊢
  have hsize : (manifest f k h s mfg ++ crc).length = MANIFEST_SIZE := by
    rw [List.length_append, hheader, hcrc, length_putLE]
    rfl
  have hmagic : getU32 0x00 (damage (manifest f k h s mfg ++ crc) e) =
      ALP_HW_INFO_MAGIC ^^^ getLE (slice 0 4 e) := by
    rw [getU32_damage (by rw [hsize]; decide) (by rw [hlen]; decide), hlaid.magic]
    rfl
  have hzero : slice 0 4 e = [0, 0, 0, 0] ↔ getLE (slice 0 4 e) = 0 := by
    constructor
    · intro h
      rw [h]
      rfl
    · intro h
      have hzeros := getLE_eq_zero h
      rw [length_slice (by rw [hlen]; decide)] at hzeros
      exact hzeros
  by_cases hintact : slice 0 4 e = [0, 0, 0, 0]
  swap
  · rw [if_neg hintact, classifyManifest, if_pos]
    intro hsame
    rw [hmagic] at hsame
    exact hintact (hzero.mpr (Nat.xor_right_inj.mp (hsame.trans (Nat.xor_zero _).symm)))
  rw [if_pos hintact, classifyManifest, hmagic, hzero.mp hintact, Nat.xor_zero, if_neg (not_not.mpr rfl)]
  refine ite_eq_left_iff.mpr fun _ => ?_
  rw [if_pos]
  have htake : (damage (manifest f k h s mfg ++ crc) e).take 0x7C =
      damage (manifest f k h s mfg) (e.take 0x7C) := by
    rw [damage, List.take_zipWith, List.take_left' hheader]
    rfl
  have hslice : slice 0x7C 4 e = e.drop 0x7C := by
    rw [slice, List.take_of_length_le]
    rw [List.length_drop, hlen]
    decide
  rw [alpHwInfoCrc32_eq, htake, getU32, slice_damage, hlaid.crc, hslice]
  refine checksum_burst ?_ ?_ ?_
  · rw [List.length_take, hlen, hheader]
    rfl
  · rw [List.length_drop, hlen]
    rfl
  · rw [List.take_append_drop]
    exact hburst

def firstDay : Date := ⟨2026, 9, 17, by decide, by decide, by decide⟩

def firstUnit : Option (List UInt8) :=
  buildManifest "v2n".toList "E1M-V2N101".toList "2626-r2".toList "2026W38-0001".toList firstDay

-- Four bits in a row on the wire, over the end of a byte of its SKU.
theorem classify_damaged_wire : ∃ blob, firstUnit = some blob ∧
    classifyManifest (damage blob (List.replicate 0x20 0 ++ [0x03, 0xC0] ++ List.replicate 0x5E 0)) .zero =
      (.error .io, .zero) := by
  obtain ⟨blob, hbuild⟩ : ∃ blob, firstUnit = some blob := Option.isSome_iff_exists.mp (by decide +kernel)
  have hfour : ([0x03, 0xC0] : List UInt8).length ≤ 4 := by decide
  have hburst := burst_of_bytes hfour List.mem_cons_self (by decide) 0x20 0x5E
  exact ⟨blob, hbuild, classify_damaged hbuild rfl hburst .zero⟩

end Damaged

section Matches

theorem cstr_cons (byte : UInt8) (rest : List UInt8) :
    cstr (byte :: rest) = if byte = 0 then [] else byte :: cstr rest := by
  rw [cstr, List.takeWhile_cons]
  by_cases h : byte = 0 <;> simp [h, cstr]

theorem headD_eq_zero_iff (bytes : List UInt8) : bytes.headD 0 = 0 ↔ cstr bytes = [] := by
  cases bytes with
  | nil => simp [cstr]
  | cons byte rest =>
      rw [List.headD_cons, cstr_cons]
      split <;> simp_all

theorem strncmpEq_iff (n : Nat) (a b : List UInt8) :
    strncmpEq n a b = true ↔ (cstr a).take n = (cstr b).take n := by
  induction n generalizing a b with
  | zero => simp [strncmpEq]
  | succ n ih =>
      rw [strncmpEq]
      by_cases ha : a.headD 0 = 0
      · have hempty := (headD_eq_zero_iff a).mp ha
        by_cases hb : b.headD 0 = 0
        · rw [if_neg (by rw [ha, hb]; simp), if_pos ha, hempty, (headD_eq_zero_iff b).mp hb]
          simp
        · rw [if_pos (by rw [ha]; exact Ne.symm hb), hempty]
          exact iff_of_false (by decide) fun h => hb ((headD_eq_zero_iff b).mpr (by simpa using h.symm))
      obtain ⟨x, as, rfl⟩ : ∃ x as, a = x :: as := by
        cases a with
        | nil => exact absurd rfl ha
        | cons x as => exact ⟨x, as, rfl⟩
      rw [List.headD_cons] at ha ⊢
      by_cases hb : x = b.headD 0
      · obtain ⟨bs, rfl⟩ : ∃ bs, b = x :: bs := by
          cases b with
          | nil => exact absurd hb ha
          | cons y bs => exact ⟨bs, by rw [show x = y from hb]⟩
        rw [if_neg (not_not.mpr hb), if_neg ha, List.tail_cons, List.tail_cons, ih, cstr_cons, cstr_cons,
          if_neg ha, if_neg ha, List.take_succ_cons, List.take_succ_cons, List.cons_inj_right]
      · rw [if_pos hb, cstr_cons, if_neg ha, List.take_succ_cons]
        refine iff_of_false (by decide) fun h => hb ?_
        cases b with
        | nil => cases h
        | cons y bs =>
            rw [cstr_cons] at h
            split at h
            · cases h
            · exact (List.cons.inj h).1

theorem cstr_append_zeros (encoded : List UInt8) (n : Nat) :
    cstr (encoded ++ List.replicate n 0) = cstr encoded := by
  induction encoded with
  | nil => cases n <;> simp [cstr, List.replicate_succ]
  | cons byte rest ih => rw [List.cons_append, cstr_cons, cstr_cons, ih]

theorem cstr_ofFn {n : Nat} {encoded : List UInt8} (h : encoded.length < n) :
    cstr (List.ofFn (text encoded : ByteArr n)) = cstr encoded := by
  have hpad : List.ofFn (text encoded : ByteArr n) = padTo n encoded := by
    apply List.ext_getElem
    · rw [List.length_ofFn, length_padTo h]
    · intro i hi hi'
      rw [List.getElem_ofFn, ← getD_of_lt hi', getD_padTo]
      rfl
  rw [hpad, padTo, cstr_append_zeros]

theorem strncmpEq_field {n : Nat} {encoded : List UInt8} (h : encoded.length < n) (bytes : List UInt8) :
    strncmpEq n (List.ofFn (text encoded : ByteArr n)) bytes = true ↔ cstr bytes = cstr encoded := by
  have hshort : (cstr encoded).length < n := Nat.lt_of_le_of_lt (List.takeWhile_sublist _).length_le h
  rw [strncmpEq_iff, cstr_ofFn h, List.take_of_length_le hshort.le]
  constructor
  · intro heq
    have hlen := congrArg List.length heq
    rw [List.length_take] at hlen
    rw [heq, List.take_of_length_le (by omega)]
  · intro heq
    rw [heq, List.take_of_length_le hshort.le]

theorem fieldMatches_iff {n : Nat} {encoded : List UInt8} (h : encoded.length < n)
    (expected : Option (List UInt8)) :
    fieldMatches (text encoded : ByteArr n) expected = true ↔
      ∀ bytes, expected = some bytes → cstr bytes = cstr encoded ∧ cstr encoded ≠ [] := by
  cases expected with
  | none => exact iff_of_true rfl nofun
  | some bytes =>
      simp only [fieldMatches, Bool.and_eq_true, decide_eq_true_eq, strncmpEq_field h, ne_eq,
        headD_eq_zero_iff, cstr_ofFn h, Option.some.injEq, forall_eq']
      exact and_comm

variable {family sku hwRev serial : List Char} {f k h t : List UInt8} {mfg : Date}

-- A build matches the module it was made for and no other, and the banner warns of every other
-- revision there is one to compare with.
theorem build_matches_iff (henc : Encoded family sku hwRev serial f k h t)
    (expectedSku expectedHwRev : Option (List UInt8)) (builtHwRev : List UInt8) :
    (alpHwInfoAssertMatchesBuild (identity f k h t mfg) expectedSku expectedHwRev = .ok () ↔
      (∀ bytes, expectedSku = some bytes → cstr bytes = cstr k ∧ cstr k ≠ []) ∧
      ∀ bytes, expectedHwRev = some bytes → cstr bytes = cstr h ∧ cstr h ≠ []) ∧
    (alpHwInfoBuildHwRevMismatch (identity f k h t mfg) builtHwRev = true ↔
      cstr builtHwRev ≠ [] ∧ cstr h ≠ [] ∧ cstr builtHwRev ≠ cstr h) := by
  have hsku := fieldMatches_iff (n := ALP_HW_INFO_SKU_LEN) henc.sku.2 expectedSku
  have hrev := fieldMatches_iff (n := ALP_HW_INFO_HW_REV_LEN) henc.hwRev.2 expectedHwRev
  refine ⟨?_, ?_⟩
  · rw [← hsku, ← hrev, alpHwInfoAssertMatchesBuild]
    change (if !fieldMatches (text k : ByteArr ALP_HW_INFO_SKU_LEN) expectedSku then _
      else if !fieldMatches (text h : ByteArr ALP_HW_INFO_HW_REV_LEN) expectedHwRev then _ else _) = _ ↔ _
    cases fieldMatches (text k : ByteArr ALP_HW_INFO_SKU_LEN) expectedSku <;>
      cases fieldMatches (text h : ByteArr ALP_HW_INFO_HW_REV_LEN) expectedHwRev <;> simp
  · have hsame := strncmpEq_field (n := ALP_HW_INFO_HW_REV_LEN) henc.hwRev.2 builtHwRev
    have hnone := headD_eq_zero_iff (List.ofFn (text h : ByteArr ALP_HW_INFO_HW_REV_LEN))
    rw [cstr_ofFn (n := ALP_HW_INFO_HW_REV_LEN) henc.hwRev.2] at hnone
    change (if builtHwRev.headD 0 = 0 then false
      else if (List.ofFn (text h : ByteArr ALP_HW_INFO_HW_REV_LEN)).headD 0 = 0 then false
      else !strncmpEq ALP_HW_INFO_HW_REV_LEN (List.ofFn (text h)) builtHwRev) = true ↔ _
    simp only [headD_eq_zero_iff builtHwRev, hnone, ne_eq, ← hsame]
    by_cases hbuilt : cstr builtHwRev = []
    · simp [hbuilt]
    by_cases hempty : cstr h = []
    · simp [hempty]
    · simp [hbuilt, hempty]

-- The same revision of another module.
theorem build_matches_iff_other : ∃ f k h t,
    Encoded "v2n".toList "E1M-V2N101".toList "2626-r2".toList "2026W38-0001".toList f k h t ∧
      alpHwInfoAssertMatchesBuild (identity f k h t firstDay) (some [0x58]) (some h) ≠ .ok () := by
  obtain ⟨blob, hbuild⟩ : ∃ blob, firstUnit = some blob := Option.isSome_iff_exists.mp (by decide +kernel)
  obtain ⟨f, k, h, t, henc, -⟩ := buildManifest_eq hbuild
  refine ⟨f, k, h, t, henc, fun hok => ?_⟩
  have hsku := (((build_matches_iff henc (some [0x58]) (some h) []).1.mp hok).1 _ rfl).1
  have hk : encodeAscii "E1M-V2N101".toList =
      some [0x45, 0x31, 0x4D, 0x2D, 0x56, 0x32, 0x4E, 0x31, 0x30, 0x31] := by
    decide
  rw [henc.sku.1, Option.some.injEq] at hk
  rw [hk] at hsku
  revert hsku
  decide

end Matches

section Read

variable {own : UInt8} {p : Part} {c : Contents}

-- What is read is what is in the array, or nothing is.
theorem wp_alpHwInfoRead (opened : Option Status) (offset : UInt16) (hp : p.contents = c) :
    wp (onBus own) (fun p' => p'.contents = c) (alpHwInfoRead opened own offset)
      (fun out _ => out = classifyManifest (load offset.toNat MANIFEST_SIZE c.array) .zero ∨
        out.1 ≠ .ok () ∧ out.2 = .zero) p := by
  have hwp : wp (onBus own) (fun p' => p'.contents = c) (readManifest opened own offset)
      (fun out _ => ∀ manifest, out = .ok (some manifest) →
        manifest = load offset.toNat MANIFEST_SIZE c.array) p := by
    unfold readManifest
    split
    · exact ⟨hp, nofun⟩
    · exact ⟨hp, nofun⟩
    · refine wp_bind (wp_mono (wp_init _ hp nofun) fun out p' hp' hown => ?_)
      obtain ⟨err | _, ee⟩ := out
      · exact ⟨hp', nofun⟩
      · refine wp_bind (wp_mono (wp_read hp' hown) fun reply p'' hp'' hread => ⟨hp'', ?_⟩)
        intro manifest hmanifest
        cases reply with
        | error err => cases hmanifest
        | ok out =>
            cases hmanifest
            exact (hread _ rfl).2
  refine wp_bind (wp_mono hwp fun out p' hp' hout => ?_)
  have hblank : (classifyManifest (List.replicate MANIFEST_SIZE 0) .zero) =
      (.error .notProvisioned, .zero) := by
    rw [classifyManifest, if_pos (by decide)]
  obtain err | _ | manifest := out
  · cases err <;> exact ⟨hp', .inr ⟨nofun, rfl⟩⟩
  · refine ⟨hp', .inr ?_⟩
    rw [Option.getD_none, hblank]
    exact ⟨nofun, rfl⟩
  · refine ⟨hp', .inl ?_⟩
    rw [Option.getD_some, hout manifest rfl]

-- No transfer fails.
def Served : (cmd : Cmd) → bus.Reply cmd → Prop
  | .i2cWrite _ _, status => status = .ok ()
  | .i2cWriteRead _ _ _, reply => ∃ out, reply = .ok out
  | .delayUs _, _ | .delayMs _, _ => True

def reliable (own : UInt8) : Env bus Part :=
  fun p cmd reply p' => onBus own p cmd reply p' ∧ Served cmd reply

theorem wp_served (addr hi lo : UInt8) (len : Nat) (hp : p.contents = c) :
    wp (reliable own) (fun p' => p'.contents = c) (alpI2cWriteRead addr [hi, lo] len)
      (fun reply _ => ∃ q : Part, q.contents = c ∧ reply = .ok (q.readout own addr hi lo len)) p := by
  refine ⟨hp, fun reply p' he => ?_⟩
  obtain ⟨⟨hsettles, hout⟩, out, rfl⟩ := he
  refine ⟨hsettles.contents.trans hp, p, hp, ?_⟩
  obtain ⟨hi', lo', hbytes, -, rfl⟩ := hout out rfl
  obtain ⟨rfl, rfl⟩ : hi = hi' ∧ lo = lo' := by simpa using hbytes
  rfl

theorem wp_read_served {offset : UInt16} {len : Nat} (hp : p.contents = c) (hlen : 0 < len)
    (hin : offset.toNat + len ≤ EEPROM_24C128_BYTES) :
    wp (reliable own) (fun p' => p'.contents = c) (Eeprom24c128.read ⟨true, own⟩ offset len)
      (fun reply _ => reply = .ok (load offset.toNat len c.array)) p := by
  have hvalid : alpSizeRangeValid offset.toNat len EEPROM_24C128_BYTES = true :=
      alpSizeRangeValid_iff.mpr hin
  rw [Eeprom24c128.read, if_neg (by simp), if_neg (by simpa using hvalid), if_neg (by omega)]
  refine wp_mono (wp_served own _ _ len hp) fun reply p' _ hreply => ?_
  obtain ⟨q, rfl, rfl⟩ := hreply
  exact congrArg Except.ok (readout_array own q hin hlen)

theorem wp_alpHwInfoRead_served {offset : UInt16} (hp : p.contents = c) (hlow : 0x50 ≤ own)
    (hhigh : own ≤ 0x57)
    (hin : offset.toNat + MANIFEST_SIZE ≤ EEPROM_24C128_BYTES) :
    wp (reliable own) (fun p' => p'.contents = c) (alpHwInfoRead none own offset)
      (fun out _ => out = classifyManifest (load offset.toNat MANIFEST_SIZE c.array) .zero) p := by
  have haddr : ¬ (own < 0x50 ∨ 0x57 < own) := by
    rw [UInt8.lt_iff_toNat_lt, UInt8.lt_iff_toNat_lt]
    rw [UInt8.le_iff_toNat_le] at hlow hhigh
    omega
  refine wp_bind ?_
  rw [readManifest, init, if_neg haddr]
  refine wp_bind (wp_bind (wp_mono (wp_served own 0 0 1 hp) fun reply p' hp' hreply => ?_))
  obtain ⟨q, -, rfl⟩ := hreply
  refine ⟨hp', ?_⟩
  refine wp_bind (p := Eeprom24c128.read ⟨true, own⟩ offset MANIFEST_SIZE)
    (wp_mono (wp_read_served hp' (by decide) hin) fun reply p'' hp'' hout => ?_)
  subst hout
  exact ⟨hp'', hp'', rfl⟩

-- A module whose manifest was written, and not overwritten since, is read as what the factory
-- made it, or, if a transfer fails, as nothing.
theorem read_identity {ctx ctx' : Ctx} {p p' : Part} {calls later : List (Call × Option Outcome)}
    {family sku hwRev serial : List Char} {mfg : Date} {blob : List UInt8} {offset : UInt16}
    (hbuild : buildManifest family sku hwRev serial mfg = some blob)
    (hown : ctx.initialised = true → ctx.addr = own)
    (hcalls : Calls own ctx p (calls ++ (.write offset blob, some (.status (.ok ()))) :: later) ctx' p')
    (hlater : ∀ entry ∈ later, entry.1.Spares offset.toNat MANIFEST_SIZE) :
    ∃ f k h t, Encoded family sku hwRev serial f k h t ∧
      (∀ opened s info p'', Exec (onBus own) p' (alpHwInfoRead opened own offset) (some (s, info)) p'' →
        s = .ok () ∧ info = identity f k h t mfg ∨ s ≠ .ok () ∧ info = .zero) ∧
      (0x50 ≤ own → own ≤ 0x57 → ∀ s info p'',
        Exec (reliable own) p' (alpHwInfoRead none own offset) (some (s, info)) p'' → s = .ok ()) := by
  obtain ⟨f, k, h, t, henc, hblob⟩ := buildManifest_eq hbuild
  have hsize : blob.length = MANIFEST_SIZE := by
    rw [hblob, List.length_append, length_manifest henc, length_putLE]
    rfl
  rw [← hsize] at hlater
  obtain ⟨hload, hin⟩ := (runs_of_calls hcalls hown).1.load hlater
  rw [hsize] at hload hin
  have hread : classifyManifest (load offset.toNat MANIFEST_SIZE p'.contents.array) .zero =
      (.ok (), identity f k h t mfg) := by
    rw [hload, hblob]
    exact classify_laid henc (laid_manifest henc)
  refine ⟨f, k, h, t, henc, fun opened s info p'' hexec => ?_, fun hlow hhigh s info p'' hexec => ?_⟩
  · obtain hout | hout := (wp_sound hexec (wp_alpHwInfoRead opened offset rfl)).2 _ rfl
    · rw [hread] at hout
      exact .inl ⟨congrArg Prod.fst hout, congrArg Prod.snd hout⟩
    · exact .inr hout
  · have hout := (wp_sound hexec (wp_alpHwInfoRead_served rfl hlow hhigh hin)).2 _ rfl
    rw [hread] at hout
    exact congrArg Prod.fst hout

-- The manifest of that module, written to an erased part.
theorem read_identity_fresh :
    ∃ (blob : List UInt8) (p : Part), firstUnit = some blob ∧
      Calls 0x50 ⟨true, 0x50⟩ blank [(.write 0 blob, some (.status (.ok ())))] ⟨true, 0x50⟩ p ∧
      ∀ s info p', Exec (reliable 0x50) p (alpHwInfoRead none 0x50 0) (some (s, info)) p' → s = .ok () := by
  obtain ⟨blob, hbuild⟩ : ∃ blob, firstUnit = some blob := Option.isSome_iff_exists.mp (by decide +kernel)
  have hsize : blob.length = MANIFEST_SIZE := by
    obtain ⟨f, k, h, t, henc, rfl⟩ := buildManifest_eq hbuild
    rw [List.length_append, length_manifest henc, length_putLE]
    rfl
  obtain ⟨p, hrun, -⟩ := run_writePages_serve 0x50 (p := blank) rfl 0 blob
  have hvalid : alpSizeRangeValid 0 blob.length EEPROM_24C128_BYTES = true :=
    alpSizeRangeValid_iff.mpr (by rw [hsize]; decide)
  have hpages : (write ⟨true, 0x50⟩ 0 blob).run (serve 0x50) blank = (.ok (), p) := by
    rw [write, if_neg (by decide), if_neg (by simpa using hvalid)]
    exact hrun
  have hwrite : ((Call.write 0 blob).program 0x50 ⟨true, 0x50⟩).run (serve 0x50) blank =
      ((.status (.ok ()), ⟨true, 0x50⟩), p) := by
    rw [Call.program, Prog.run_bind, hpages]
    rfl
  have hcalls : Calls 0x50 ⟨true, 0x50⟩ blank ([] ++ [(.write 0 blob, some (.status (.ok ())))]) ⟨true, 0x50⟩ p := by
    refine .returned (.start _ _) _ ?_
    have hexec := exec_of_run (onBus_serve 0x50) ((Call.write 0 blob).program 0x50 ⟨true, 0x50⟩) blank
    rwa [hwrite] at hexec
  have hown : (⟨true, 0x50⟩ : Ctx).initialised = true → (⟨true, 0x50⟩ : Ctx).addr = 0x50 := fun _ => rfl
  obtain ⟨-, -, -, -, -, -, hserved⟩ :=
    read_identity hbuild hown hcalls fun entry hentry => absurd hentry List.not_mem_nil
  exact ⟨blob, p, hbuild, hcalls, hserved (by decide) (by decide)⟩

end Read

end AlpSdk.SomIdentity
