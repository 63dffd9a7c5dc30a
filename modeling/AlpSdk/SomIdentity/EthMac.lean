import AlpSdk.SomIdentity.Manifest
import AlpSdk.SomIdentity.Serial
import Mathlib.Data.List.TakeWhile

-- The MAC addresses that U-Boot gives a module are those its serial number stands for, and no other
-- module has them.
namespace AlpSdk.SomIdentity.Uboot

open Library.Bytes

section Mac

-- The five octets after the first are one number.
def octets (value : Nat) : List Nat :=
  [0xA2, value / 2 ^ 32 % 256, value / 2 ^ 24 % 256, value / 2 ^ 16 % 256, value / 2 ^ 8 % 256, value % 256]

def address (value : Nat) : List Char := macText (octets value)

def serialValue (p : ParsedSerial) (iface : Nat) : Nat :=
  ((((0xC * 2 ^ 6 + (p.year - 2024)) * 2 ^ 6 + p.week) * 2 ^ 20 + p.index) * 2 ^ 2 + iface) * 2 ^ 2

def cidValue (crc : BitVec 32) (iface : Nat) : Nat := ((0xD * 2 ^ 32 + crc.toNat) * 2 ^ 2 + iface) * 2 ^ 2

theorem hexByte_inj {x y : Nat} (hx : x < 256) (hy : y < 256) (h : hexByte x = hexByte y) : x = y := by
  have hread (n : Fin 256) :
      (hexByte n).foldl (fun v c => v * 16 + "0123456789ABCDEF".toList.idxOf c) 0 = n := by
    revert n
    decide +kernel
  have hval := hread ⟨x, hx⟩
  have hval' := hread ⟨y, hy⟩
  dsimp only at hval hval'
  rw [h] at hval
  exact hval.symm.trans hval'

theorem address_inj {v w : Nat} (hv : v < 2 ^ 40) (hw : w < 2 ^ 40) (h : address v = address w) :
    v = w := by
  simp only [address, macText, octets, List.map_cons, List.map_nil, List.intercalate, List.intersperse] at h
  have hparts := List.eq_iff_flatten_eq.mpr ⟨h, rfl⟩
  simp only [List.cons.injEq, and_true, true_and] at hparts
  obtain ⟨h4, h3, h2, h1, h0⟩ := hparts
  have hmod {x y : Nat} (hxy : hexByte (x % 256) = hexByte (y % 256)) : x % 256 = y % 256 :=
    hexByte_inj (Nat.mod_lt _ (by decide)) (Nat.mod_lt _ (by decide)) hxy
  have h4 := hmod h4
  have h3 := hmod h3
  have h2 := hmod h2
  have h1 := hmod h1
  have h0 := hmod h0
  omega

theorem shiftLeft_or {v x n : Nat} (hx : x < 2 ^ n) : v <<< n ||| x = v * 2 ^ n + x := by
  rw [← Nat.shiftLeft_add_eq_or_of_lt hx, Nat.shiftLeft_eq]

theorem toNat_field {v x k : UInt64} {n a b : Nat} (hk : k.toNat = n) (hn : n < 64) (hv : v.toNat = a)
    (hx : x.toNat = b)
    (ha : a * 2 ^ n < 2 ^ 64) (hb : b < 2 ^ n) : (v <<< k ||| x).toNat = a * 2 ^ n + b := by
  rw [UInt64.toNat_or, UInt64.toNat_shiftLeft, hk, hv, hx, Nat.mod_eq_of_lt hn, Nat.mod_eq_of_lt,
    shiftLeft_or hb]
  rwa [Nat.shiftLeft_eq]

theorem payload40_eq {p : ParsedSerial} {iface : Nat} (hyear : p.year < 2024 + 64) (hweek : p.week < 64)
    (hindex : p.index < 2 ^ 20) (hiface : iface < 4) : payload40 p iface = some (serialValue p iface) := by
  rw [payload40, if_neg (by omega)]
  simp only [MAC_PREFIX_NIBBLE, YEAR_BASE, YEAR_BITS, WEEK_BITS, INDEX_BITS, IFACE_BITS, RESERVED_BITS]
  rw [shiftLeft_or (n := 6) (show p.year - 2024 < 2 ^ 6 by omega), shiftLeft_or (n := 6) hweek,
    shiftLeft_or hindex, shiftLeft_or (n := 2) hiface, Nat.or_zero, Nat.shiftLeft_eq, serialValue]

theorem macText_payload (value : Nat) :
    macText (MAC_OCTET0 :: (List.range 5).reverse.map fun i => value >>> (8 * i) &&& 0xFF) =
      address value := by
  have hbyte (i : Nat) : value >>> i &&& 0xFF = value / 2 ^ i % 256 := by
    rw [Nat.shiftRight_eq_div_pow]
    exact Nat.and_two_pow_sub_one_eq_mod _ 8
  simp only [hbyte]
  rw [address, octets]
  congr 1
  simp [List.range, List.range.loop, MAC_OCTET0]

theorem deriveMac_eq {serial : List Char} {p : ParsedSerial} (hparse : parseSerial serial = some p)
    (hyear : p.year < 2024 + 64) (hweek : p.week < 64) (hindex : p.index < 2 ^ 20) {iface : Nat}
    (hiface : iface < 4) :
    deriveMac serial iface = some (address (serialValue p iface)) := by
  rw [deriveMac, hparse, Option.bind_eq_bind, Option.bind_some, payload40_eq hyear hweek hindex hiface,
    Option.bind_eq_bind, Option.bind_some, macText_payload]

theorem formatMac_macOf (v : UInt64) : alpEthFormatMac (macOf v) = address v.toNat := by
  rw [alpEthFormatMac, macOf, address, octets]
  simp [ALP_ETH_MAC_OCTET0, Nat.shiftRight_eq_div_pow]

theorem toNat_iface {iface : UInt32} (hiface : iface.toNat < 4) :
    (iface &&& 0x3).toUInt64.toNat = iface.toNat := by
  rw [UInt32.toNat_toUInt64, UInt32.toNat_and]
  exact (Nat.and_two_pow_sub_one_eq_mod _ 2).trans (Nat.mod_eq_of_lt hiface)

theorem toNat_toUInt64_ofNat {n : Nat} (hn : n < 2 ^ 32) : (UInt32.ofNat n).toUInt64.toNat = n := by
  rw [UInt32.toNat_toUInt64, UInt32.toNat_ofNat', Nat.mod_eq_of_lt hn]

theorem formatMac_derived {p : ParsedSerial} (hbase : 2024 ≤ p.year) (hyear : p.year < 2024 + 64)
    (hweek : p.week < 64)
    (hindex : p.index < 2 ^ 20) {iface : UInt32} (hiface : iface.toNat < 4) :
    alpEthFormatMac (alpEthDeriveMac (UInt32.ofNat p.year) (UInt32.ofNat p.week) (UInt32.ofNat p.index) iface) =
      address (serialValue p iface.toNat) := by
  have hy : (UInt32.ofNat p.year - ALP_ETH_YEAR_BASE).toUInt64.toNat = p.year - 2024 := by
    have hvalue : ALP_ETH_YEAR_BASE.toNat = 2024 := rfl
    have hnat : (UInt32.ofNat p.year).toNat = p.year := by
      rw [UInt32.toNat_ofNat', Nat.mod_eq_of_lt (by omega)]
    rw [UInt32.toNat_toUInt64, UInt32.toNat_sub_of_le, hnat, hvalue]
    rw [UInt32.le_iff_toNat_le, hnat, hvalue]
    exact hbase
  have hw : (UInt32.ofNat p.week).toUInt64.toNat = p.week := toNat_toUInt64_ofNat (by omega)
  have hi : (UInt32.ofNat p.index).toUInt64.toNat = p.index := toNat_toUInt64_ofNat (by omega)
  have hf := toNat_iface hiface
  have h1 := toNat_field (k := ALP_ETH_YEAR_BITS) (n := 6) (v := ALP_ETH_MAC_PREFIX) (a := 0xC) rfl
    (by decide) rfl hy (by decide) (by omega)
  have h2 := toNat_field (k := ALP_ETH_WEEK_BITS) (n := 6) rfl (by decide) h1 hw (by omega) hweek
  have h3 := toNat_field (k := ALP_ETH_INDEX_BITS) (n := 20) rfl (by decide) h2 hi (by omega) hindex
  have h4 := toNat_field (k := ALP_ETH_IFACE_BITS) (n := 2) rfl (by decide) h3 hf (by omega) hiface
  have h5 := toNat_field (k := ALP_ETH_RESERVED_BITS) (n := 2) (x := 0) (b := 0) rfl (by decide) h4 rfl
    (by omega) (by decide)
  rw [alpEthDeriveMac, formatMac_macOf, h5, serialValue, Nat.add_zero]

theorem formatMac_cid {crc32 : List UInt8 → BitVec 32} (cid : List UInt8) {iface : UInt32}
    (hiface : iface.toNat < 4) :
    ∃ mac, alpEthDeriveMacFromCid crc32 (some cid) iface = some mac ∧
      alpEthFormatMac mac = address (cidValue (crc32 cid) iface.toNat) := by
  have hcrc : (UInt64.ofNat (crc32 cid).toNat).toNat = (crc32 cid).toNat := by
    rw [UInt64.toNat_ofNat', Nat.mod_eq_of_lt (Nat.lt_trans (crc32 cid).isLt (by decide))]
  have hf := toNat_iface hiface
  have hlt := (crc32 cid).isLt
  have h1 := toNat_field (k := 32) (n := 32) (v := ALP_ETH_MAC_PREFIX_CID) (a := 0xD) rfl (by decide)
    rfl hcrc (by decide) hlt
  have h2 := toNat_field (k := ALP_ETH_IFACE_BITS) (n := 2) rfl (by decide) h1 hf (by omega) hiface
  have h3 := toNat_field (k := ALP_ETH_RESERVED_BITS) (n := 2) (x := 0) (b := 0) rfl (by decide) h2 rfl
    (by omega) (by decide)
  refine ⟨_, rfl, ?_⟩
  rw [formatMac_macOf, h3, cidValue, Nat.add_zero]

end Mac

section Bringup

variable (crc32 : List UInt8 → BitVec 32)

def serialOf (reply : Option (List UInt8)) : List UInt8 :=
  (alpSomIsV2nM1 crc32 reply ⟨[], [], []⟩).2.alpSerial

-- What the addresses of a board are made from: its serial number, and else the checksum of its
-- eMMC's CID.
inductive Identity where
  | serial (spelling : List UInt8)
  | cid (crc : BitVec 32)
  deriving DecidableEq

def identityOf (reply cid : Option (List UInt8)) : Option Identity :=
  match alpEthParseSerial (serialOf crc32 reply) with
  | some _ => some (.serial ((serialOf crc32 reply).map upperByte))
  | none => cid.map fun cid => .cid (crc32 cid)

-- The number that the addresses of an identity hold.
inductive Holds : Identity → (Nat → Nat) → Prop where
  | serial {bytes : List UInt8} {p : ParsedSerial} (h : readSerial bytes = some p) :
      Holds (.serial (bytes.map upperByte)) (serialValue p)
  | cid (crc : BitVec 32) : Holds (.cid crc) (cidValue crc)

variable {crc32} {reply cid : Option (List UInt8)} {macs : List Char × List Char}

theorem bootMacs_serial {p : ParsedSerial} (hread : readSerial (serialOf crc32 reply) = some p)
    (cid : Option (List UInt8)) :
    bootMacs crc32 reply cid = some (address (serialValue p 0), address (serialValue p 1)) := by
  obtain ⟨hbase, hyear, hweek, hindex⟩ := readSerial_lt hread
  rw [bootMacs, ← serialOf, alpEthMacBringup, alpEthParseSerial_eq, hread, Option.map_some]
  dsimp only
  rw [formatMac_derived hbase hyear hweek hindex (by decide),
    formatMac_derived hbase hyear hweek hindex (by decide)]
  rfl

theorem identityOf_serial {p : ParsedSerial} (hread : readSerial (serialOf crc32 reply) = some p)
    (cid : Option (List UInt8)) :
    identityOf crc32 reply cid = some (.serial ((serialOf crc32 reply).map upperByte)) := by
  rw [identityOf, alpEthParseSerial_eq, hread, Option.map_some]

theorem bootMacs_holds (h : bootMacs crc32 reply cid = some macs) :
    ∃ id value, identityOf crc32 reply cid = some id ∧ Holds id value ∧
      macs = (address (value 0), address (value 1)) := by
  rw [identityOf, alpEthParseSerial_eq]
  cases hread : readSerial (serialOf crc32 reply) with
  | some p =>
      rw [bootMacs_serial hread] at h
      exact ⟨_, _, rfl, .serial hread, (Option.some.inj h).symm⟩
  | none =>
      rw [bootMacs, ← serialOf, alpEthMacBringup, alpEthParseSerial_eq, hread, Option.map_none] at h
      dsimp only at h
      cases cid with
      | none => cases h
      | some cid =>
          obtain ⟨mac0, hmac0, h0⟩ := @formatMac_cid crc32 cid 0 (by decide)
          obtain ⟨mac1, hmac1, h1⟩ := @formatMac_cid crc32 cid 1 (by decide)
          rw [hmac0, hmac1, Option.bind_eq_bind, Option.bind_some, Option.bind_some, h0, h1] at h
          exact ⟨_, _, rfl, .cid _, (Option.some.inj h).symm⟩

variable {id id' : Identity} {value value' : Nat → Nat} {f f' : Nat}

theorem Holds.lt (h : Holds id value) (hf : f < 4) : value f < 2 ^ 40 := by
  cases h with
  | serial hread =>
      obtain ⟨hbase, hyear, hweek, hindex⟩ := readSerial_lt hread
      rw [serialValue]
      omega
  | cid crc =>
      have hlt := crc.isLt
      rw [cidValue]
      omega

theorem Holds.inj (h : Holds id value) (h' : Holds id' value') (hf : f < 4) (hf' : f' < 4)
    (heq : value f = value' f') :
    id = id' ∧ f = f' := by
  cases h with
  | @serial bytes p hread =>
      obtain ⟨hbase, hyear, hweek, hindex⟩ := readSerial_lt hread
      cases h' with
      | @serial bytes' p' hread' =>
          obtain ⟨hbase', hyear', hweek', hindex'⟩ := readSerial_lt hread'
          obtain ⟨y, w, i⟩ := p
          obtain ⟨y', w', i'⟩ := p'
          simp only [serialValue] at heq hbase hyear hweek hindex hbase' hyear' hweek' hindex'
          obtain ⟨rfl, rfl, rfl, rfl⟩ : y = y' ∧ w = w' ∧ i = i' ∧ f = f' := by omega
          exact ⟨congrArg Identity.serial (readSerial_inj hread hread'), rfl⟩
      | cid crc =>
          have hlt := crc.isLt
          simp only [serialValue, cidValue] at heq
          omega
  | cid crc =>
      have hlt := crc.isLt
      cases h' with
      | @serial bytes' p' hread' =>
          obtain ⟨hbase', hyear', hweek', hindex'⟩ := readSerial_lt hread'
          simp only [serialValue, cidValue] at heq
          omega
      | cid crc' =>
          have hlt' := crc'.isLt
          simp only [cidValue] at heq
          have hcrc : crc = crc' := BitVec.eq_of_toNat_eq (by omega)
          exact ⟨congrArg Identity.cid hcrc, by omega⟩

theorem Holds.unique (h : Holds id value) (h' : Holds id value') : value = value' := by
  cases h with
  | @serial bytes p hread =>
      generalize hid : Identity.serial (bytes.map upperByte) = id at h'
      cases h' with
      | @serial bytes' p' hread' =>
          have hupper := congrArg readSerial (Identity.serial.inj hid)
          rw [readSerial_upper, readSerial_upper, hread, hread'] at hupper
          rw [Option.some.inj hupper]
      | cid crc => cases hid
  | cid crc =>
      cases h'
      rfl

-- No board has an address of another one, unless both are the same to the makers of addresses, and
-- its two interfaces never have the same.
theorem addresses_shared_iff {reply' cid' : Option (List UInt8)} {macs' : List Char × List Char}
    (h : bootMacs crc32 reply cid = some macs) (h' : bootMacs crc32 reply' cid' = some macs') :
    macs.1 ≠ macs'.2 ∧
      (macs.1 = macs'.1 ↔ identityOf crc32 reply cid = identityOf crc32 reply' cid') ∧
      (macs.2 = macs'.2 ↔ identityOf crc32 reply cid = identityOf crc32 reply' cid') := by
  obtain ⟨id, value, hid, hholds, rfl⟩ := bootMacs_holds h
  obtain ⟨id', value', hid', hholds', rfl⟩ := bootMacs_holds h'
  rw [hid, hid']
  have hsame {f f' : Nat} (hf : f < 4) (hf' : f' < 4) (heq : address (value f) = address (value' f')) :
      id = id' ∧ f = f' :=
    hholds.inj hholds' hf hf' (address_inj (hholds.lt hf) (hholds'.lt hf') heq)
  have hback (f : Nat) (heq : some id = some id') : address (value f) = address (value' f) := by
    obtain rfl := Option.some.inj heq
    rw [hholds.unique hholds']
  refine ⟨fun heq => ?_, ⟨fun heq => ?_, hback 0⟩, ⟨fun heq => ?_, hback 1⟩⟩
  · exact absurd (hsame (by decide) (by decide) heq).2 (by decide)
  · rw [(hsame (by decide) (by decide) heq).1]
  · rw [(hsame (by decide) (by decide) heq).1]

theorem serialOf_laid {f k h s : List UInt8} {mfg : Date} {blob : List UInt8}
    (hcrc : ∀ bytes, crc32 bytes = zlibCrc32 bytes) (hlaid : Laid f k h s mfg blob) :
    serialOf crc32 (some blob) = cstr s := by
  have hheader : ¬ (getU32 0x00 blob ≠ ALP_HW_INFO_MAGIC ∨ getU32 0x04 blob ≠ ALP_HW_INFO_SCHEMA_VERSION) :=
    not_or.mpr ⟨not_not.mpr hlaid.magic, not_not.mpr hlaid.schema⟩
  have hsum : (crc32 (blob.take 0x7C)).toNat = getU32 0x7C blob := by
    rw [hcrc, hlaid.header, getU32, hlaid.crc, getLE_putLE]
    exact (Nat.mod_eq_of_lt (zlibCrc32 (manifest f k h s mfg)).isLt).symm
  have hserial : slice 0x38 24 blob = padTo SERIAL_LEN s := hlaid.serial
  rw [serialOf, alpSomIsV2nM1]
  dsimp only
  rw [if_neg hheader, if_neg (not_not.mpr hsum), hserial, padTo, cstr_append_zeros]

theorem readSerial_built (hcrc : ∀ bytes, crc32 bytes = zlibCrc32 bytes)
    {family sku hwRev serial : List Char}
    {mfg : Date} {blob : List UInt8} {p : ParsedSerial}
    (hbuild : buildManifest family sku hwRev serial mfg = some blob)
    (hparse : parseSerial serial = some p) : readSerial (serialOf crc32 (some blob)) = some p := by
  obtain ⟨f, k, h, s, henc, rfl⟩ := buildManifest_eq hbuild
  obtain ⟨hascii, hs⟩ := encodeAscii_eq henc.serial.1
  have hread : readSerial s = some p := by rw [hs, ← parseSerial_eq hascii, hparse]
  have hwhole : cstr s = s :=
    List.takeWhile_eq_self_iff.mpr fun b hb => decide_eq_true (readSerial_nonzero hread b hb)
  rw [serialOf_laid hcrc (laid_manifest henc), hwhole, hread]

-- The board with the first unit's EEPROM, and one with none at all.
theorem addresses_shared_iff_first : ∃ macs macs',
    bootMacs zlibCrc32 firstUnit none = some macs ∧ bootMacs zlibCrc32 none (some [0x15]) = some macs' ∧
      macs.1 ≠ macs'.2 ∧ macs.1 ≠ macs'.1 ∧ macs.2 ≠ macs'.2 := by
  obtain ⟨blob, hbuild⟩ : ∃ blob, firstUnit = some blob := Option.isSome_iff_exists.mp (by decide +kernel)
  obtain ⟨p, hparse⟩ : ∃ p, parseSerial "2026W38-0001".toList = some p :=
      Option.isSome_iff_exists.mp (by decide +kernel)
  have hread := readSerial_built (fun _ => rfl) hbuild hparse
  have h := bootMacs_serial hread none
  have hserial := identityOf_serial hread none
  rw [← hbuild] at h hserial
  obtain ⟨macs', h'⟩ : ∃ macs, bootMacs zlibCrc32 none (some [0x15]) = some macs :=
    Option.isSome_iff_exists.mp (by decide +kernel)
  have hcid : identityOf zlibCrc32 none (some [0x15]) = some (.cid (zlibCrc32 [0x15])) := rfl
  have hdiffer : identityOf zlibCrc32 firstUnit none ≠ identityOf zlibCrc32 none (some [0x15]) := by
    rw [hserial, hcid]
    intro heq
    cases heq
  obtain ⟨hcrossed, hfirst, hsecond⟩ := addresses_shared_iff h h'
  exact ⟨_, macs', h, h', hcrossed, fun heq => hdiffer (hfirst.mp heq), fun heq => hdiffer (hsecond.mp heq)⟩

-- The addresses on the label of a programmed module are the ones that U-Boot gives it.
theorem bootMacs_programmed (hcrc : ∀ bytes, crc32 bytes = zlibCrc32 bytes)
    {family sku hwRev serial : List Char}
    {datecode : Option (List Char)} {mfg : Date} {blob : List UInt8}
    (hprog : programEeprom family sku hwRev datecode serial mfg = some blob) (cid : Option (List UInt8)) :
    ∃ mac0 mac1, deriveMac serial 0 = some mac0 ∧ deriveMac serial 1 = some mac1 ∧
      bootMacs crc32 (some blob) cid = some (mac0, mac1) := by
  simp only [programEeprom, Option.bind_eq_bind, Option.bind_eq_some_iff] at hprog
  obtain ⟨p, hparse, blob', hbuild, hblob⟩ := hprog
  split at hblob
  case isTrue => cases hblob
  case isFalse =>
    obtain rfl := Option.some.inj hblob
    have hread := readSerial_built hcrc hbuild hparse
    obtain ⟨-, hyear, hweek, hindex⟩ := readSerial_lt hread
    exact ⟨_, _, deriveMac_eq hparse hyear hweek hindex (by decide),
      deriveMac_eq hparse hyear hweek hindex (by decide),
      bootMacs_serial hread cid⟩

theorem bootMacs_programmed_first : ∃ blob mac0 mac1,
    programEeprom "v2n".toList "E1M-V2N101".toList "r2".toList (some "2626".toList) "2026W38-0001".toList
        firstDay = some blob ∧
      deriveMac "2026W38-0001".toList 0 = some mac0 ∧ deriveMac "2026W38-0001".toList 1 = some mac1 ∧
      bootMacs zlibCrc32 (some blob) none = some (mac0, mac1) := by
  obtain ⟨blob, hprog⟩ : ∃ blob, programEeprom "v2n".toList "E1M-V2N101".toList "r2".toList (some "2626".toList)
      "2026W38-0001".toList firstDay = some blob :=
    Option.isSome_iff_exists.mp (by decide +kernel)
  obtain ⟨mac0, mac1, h0, h1, hmacs⟩ := bootMacs_programmed (fun _ => rfl) hprog none
  exact ⟨blob, mac0, mac1, hprog, h0, h1, hmacs⟩

end Bringup

end AlpSdk.SomIdentity.Uboot
