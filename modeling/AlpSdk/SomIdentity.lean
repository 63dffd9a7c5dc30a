import AlpSdk.Eeprom24c128
import AlpSdk.Library.Crc
import Mathlib.Logic.Function.Iterate

-- The identity of a module: what the factory writes to its EEPROM (scripts/program_eeprom.py,
-- scripts/program_eeprom_secure_page.py, scripts/alp_eth_mac.py), and the reader of the firmware
-- (src/zephyr/hw_info_zephyr.c).
namespace AlpSdk.SomIdentity

open Library.Effect Library.Bytes Library.Crc Eeprom24c128

section Serial

def CROCKFORD_ALPHABET : List Char := "0123456789ABCDEFGHJKMNPQRSTVWXYZ".toList
def YEAR_BASE : Nat := 2024
def WEEK_MIN : Nat := 1
def WEEK_MAX : Nat := 53
def YEAR_BITS : Nat := 6
def WEEK_BITS : Nat := 6
def INDEX_BITS : Nat := 20
def IFACE_BITS : Nat := 2
def RESERVED_BITS : Nat := 2
def MAC_OCTET0 : Nat := 0xA2
def MAC_PREFIX_NIBBLE : Nat := 0xC

structure ParsedSerial where
  year : Nat
  week : Nat
  index : Nat
  deriving DecidableEq, Repr

-- `str.upper` of an ASCII character.
def upper (c : Char) : Char := if 'a' ≤ c ∧ c ≤ 'z' then Char.ofNat (c.toNat - 32) else c

def isDigit (c : Char) : Bool := '0' ≤ c && c ≤ '9'

def isAlnum (c : Char) : Bool := isDigit c || ('A' ≤ c && c ≤ 'Z') || ('a' ≤ c && c ≤ 'z')

def digitsValue (digits : List Char) : Nat :=
  digits.foldl (fun value c => value * 10 + (c.toNat - '0'.toNat)) 0

def crockfordDigit (value : Nat) (c : Char) : Option Nat :=
  (CROCKFORD_ALPHABET.idxOf? (upper c)).map (value * 32 + ·)

def crockfordDecode (chars : List Char) : Option Nat :=
  if chars.length = 4 then chars.foldlM crockfordDigit 0 else none

-- `SERIAL_RE.fullmatch`: its three groups.
def serialGroups (serial : List Char) : Option (List Char × List Char × List Char) :=
  let year := serial.take 4
  let week := (serial.drop 5).take 2
  let index := serial.drop 8
  if serial.length = 12 ∧ year.all isDigit ∧ upper (serial.getD 4 '-') = 'W' ∧ week.all isDigit ∧
      serial.getD 7 'W' = '-' ∧ index.all isAlnum then
    some (year, week, index)
  else none

def parseSerial (serial : List Char) : Option ParsedSerial := do
  let (yearChars, weekChars, indexChars) ← serialGroups serial
  let year := digitsValue yearChars
  let week := digitsValue weekChars
  let index ← crockfordDecode indexChars
  if ¬ (YEAR_BASE ≤ year ∧ year ≤ YEAR_BASE + (1 <<< YEAR_BITS) - 1) then none
  else if ¬ (WEEK_MIN ≤ week ∧ week ≤ WEEK_MAX) then none
  else some ⟨year, week, index⟩

def payload40 (parsed : ParsedSerial) (iface : Nat) : Option Nat :=
  if 3 < iface then none
  else
    let value := MAC_PREFIX_NIBBLE
    let value := value <<< YEAR_BITS ||| (parsed.year - YEAR_BASE)
    let value := value <<< WEEK_BITS ||| parsed.week
    let value := value <<< INDEX_BITS ||| parsed.index
    let value := value <<< IFACE_BITS ||| iface
    some (value <<< RESERVED_BITS ||| 0)

-- `"%02X"` of a byte.
def hexByte (byte : Nat) : List Char := [Nat.digitChar (byte / 16), Nat.digitChar (byte % 16)].map upper

def macText (octets : List Nat) : List Char := [':'].intercalate (octets.map hexByte)

def deriveMac (serial : List Char) (iface : Nat) : Option (List Char) := do
  let parsed ← parseSerial serial
  let payload ← payload40 parsed iface
  some (macText (MAC_OCTET0 :: (List.range 5).reverse.map fun i => payload >>> (8 * i) &&& 0xFF))

end Serial

section Tool

def MAGIC : Nat := 0x414C5048
def SCHEMA_VERSION : Nat := 1
def FAMILY_LEN : Nat := 16
def SKU_LEN : Nat := 24
def HW_REV_LEN : Nat := 8
def SERIAL_LEN : Nat := 24
def RESERVED_LEN : Nat := 40
def MANIFEST_SIZE : Nat := 128

-- `datetime.date`.
structure Date where
  year : Nat
  month : Nat
  day : Nat
  year_le : year ≤ 9999
  month_le : month ≤ 12
  day_le : day ≤ 31

def encodeAscii (value : List Char) : Option (List UInt8) :=
  value.mapM fun c => if c.toNat < 128 then some (UInt8.ofNat c.toNat) else none

def checkString (value : List Char) (maxLenInclNull : Nat) : Option (List UInt8) := do
  let encoded ← encodeAscii value
  if maxLenInclNull - 1 < encoded.length then none
  else some (encoded ++ List.replicate (maxLenInclNull - encoded.length) 0)

-- The CRC-32 of ISO 3309: the bytes are taken least significant bit first.
def CRC32_POLY : BitVec 32 := 0x04C11DB7

def zlibCrc32 (bytes : List UInt8) : BitVec 32 :=
  ~~~ (foldBytes CRC32_POLY (BitVec.allOnes 32) (bytes.map fun byte => byte.toBitVec.reverse)).reverse

-- `struct.pack(_HEADER_FMT, ..)`.
def packHeader (family sku hwRev serial : List UInt8) (mfg : Date) : List UInt8 :=
  [putLE 4 MAGIC,                                                  -- 0x00
    putLE 4 SCHEMA_VERSION,                                        -- 0x04
    family,                                                        -- 0x08
    sku,                                                           -- 0x18
    hwRev,                                                         -- 0x30
    serial,                                                        -- 0x38
    putLE 2 mfg.year,                                              -- 0x50
    [UInt8.ofNat mfg.month],                                       -- 0x52
    [UInt8.ofNat mfg.day],                                         -- 0x53
    List.replicate RESERVED_LEN 0].flatten

def buildManifest (family sku hwRev serial : List Char) (mfg : Date) : Option (List UInt8) := do
  let family ← checkString family FAMILY_LEN
  let sku ← checkString sku SKU_LEN
  let hwRev ← checkString hwRev HW_REV_LEN
  let serial ← checkString serial SERIAL_LEN
  let header := packHeader family sku hwRev serial mfg
  some (header ++ putLE 4 (zlibCrc32 header).toNat)

-- `main` of the tool, over what it finds in the board file and the presets.
def programEeprom (family sku hwRev : List Char) (datecode : Option (List Char)) (serial : List Char) (mfg : Date) :
    Option (List UInt8) := do
  let _ ← parseSerial serial
  let hwRevField := match datecode with
    | some datecode => datecode ++ ('-' :: hwRev)
    | none => hwRev
  let blob ← buildManifest family sku hwRevField serial mfg
  if blob.length ≠ MANIFEST_SIZE then none else some blob

end Tool

section Reader

def ALP_HW_INFO_MAGIC : Nat := 0x414C5048
def ALP_HW_INFO_SCHEMA_VERSION : Nat := 1
def ALP_HW_INFO_FAMILY_LEN : Nat := 16
def ALP_HW_INFO_SKU_LEN : Nat := 24
def ALP_HW_INFO_HW_REV_LEN : Nat := 8
def ALP_HW_INFO_SERIAL_LEN : Nat := 24

def crcBit (crc : BitVec 32) : BitVec 32 :=
  let mask := -(crc &&& 1)
  (crc >>> 1) ^^^ (0xEDB88320 &&& mask)

def alpHwInfoCrc32 (buf : List UInt8) : BitVec 32 :=
  ~~~ buf.foldl (fun crc byte => crcBit^[8] (crc ^^^ byte.toBitVec.setWidth 32)) 0xFFFFFFFF

def copyField {dstLen srcLen : Nat} (dst : ByteArr dstLen) (src : ByteArr srcLen) : ByteArr dstLen :=
  let n := if dstLen ≤ srcLen then dstLen - 1 else srcLen
  fun i => if h : i.val < n ∧ i.val < srcLen then src ⟨i.val, h.2⟩ else if i.val = n then 0 else dst i

-- `alp_hw_info_t`.
structure Info where
  somFamily : ByteArr ALP_HW_INFO_FAMILY_LEN
  somSku : ByteArr ALP_HW_INFO_SKU_LEN
  somHwRev : ByteArr ALP_HW_INFO_HW_REV_LEN
  somSerial : ByteArr ALP_HW_INFO_SERIAL_LEN
  somMfgYear : UInt16
  somMfgMonth : UInt8
  somMfgDay : UInt8
  boardName : ByteArr ALP_HW_INFO_SKU_LEN
  boardHwRev : ByteArr ALP_HW_INFO_HW_REV_LEN
  boardIdMv : UInt32

def Info.zero : Info := ⟨fun _ => 0, fun _ => 0, fun _ => 0, fun _ => 0, 0, 0, 0, fun _ => 0, fun _ => 0, 0⟩

-- A string up to its NUL.
def cstr (bytes : List UInt8) : List UInt8 := bytes.takeWhile (· ≠ 0)

def getU16 (off : Nat) (buf : List UInt8) : Nat := getLE (slice off 2 buf)
def getU32 (off : Nat) (buf : List UInt8) : Nat := getLE (slice off 4 buf)

-- The manifest as it lies in memory (`alp_hw_info_eeprom_t`, 128 bytes without padding).
def classifyManifest (manifest : List UInt8) (out : Info) : Status × Info :=
  if getU32 0x00 manifest ≠ ALP_HW_INFO_MAGIC then (.error .notProvisioned, out)
  else if getU32 0x04 manifest ≠ ALP_HW_INFO_SCHEMA_VERSION then (.error .io, out)
  else if (alpHwInfoCrc32 (manifest.take 0x7C)).toNat ≠ getU32 0x7C manifest then (.error .io, out)
  else
    (.ok (), { out with
      somFamily := copyField out.somFamily (readArr ALP_HW_INFO_FAMILY_LEN 0x08 manifest)
      somSku := copyField out.somSku (readArr ALP_HW_INFO_SKU_LEN 0x18 manifest)
      somHwRev := copyField out.somHwRev (readArr ALP_HW_INFO_HW_REV_LEN 0x30 manifest)
      somSerial := copyField out.somSerial (readArr ALP_HW_INFO_SERIAL_LEN 0x38 manifest)
      somMfgYear := UInt16.ofNat (getU16 0x50 manifest)
      somMfgMonth := manifest.getD 0x52 0
      somMfgDay := manifest.getD 0x53 0 })

-- `opened` is the last error of `alp_i2c_open` where it gave no bus.
def readManifest (opened : Option Status) (addr : UInt8) (offset : UInt16) :
    Driver (Except AlpError (Option (List UInt8))) :=
  match opened with
  | some (.error err) => pure (.error err)
  | some (.ok ()) => pure (.ok none)
  | none => do
      let (s, ee) ← init ⟨false, 0⟩ addr
      match s with
      | .error err => pure (.error err)
      | .ok () =>
          let out ← read ee offset MANIFEST_SIZE
          pure (out.map some)

-- The caller zeroes the manifest before it is read.
def alpHwInfoRead (opened : Option Status) (addr : UInt8) (offset : UInt16) : Driver (Status × Info) := do
  match ← readManifest opened addr offset with
  | .error .nosupport => pure (.error .notReady, .zero)
  | .error err => pure (.error err, .zero)
  | .ok manifest => pure (classifyManifest (manifest.getD (List.replicate MANIFEST_SIZE 0)) .zero)

-- `strncmp(..) == 0`. A string ends before its NUL.
def strncmpEq : Nat → List UInt8 → List UInt8 → Bool
  | 0, _, _ => true
  | n + 1, a, b =>
      if a.headD 0 ≠ b.headD 0 then false
      else if a.headD 0 = 0 then true
      else strncmpEq n a.tail b.tail

def fieldMatches {len : Nat} (field : ByteArr len) (expected : Option (List UInt8)) : Bool :=
  match expected with
  | none => true
  | some expected => (List.ofFn field).headD 0 ≠ 0 && strncmpEq len (List.ofFn field) expected

def alpHwInfoAssertMatchesBuild (info : Info) (expectedSku expectedHwRev : Option (List UInt8)) : Status :=
  if !fieldMatches info.somSku expectedSku then .error .io
  else if !fieldMatches info.somHwRev expectedHwRev then .error .io
  else .ok ()

def alpHwInfoBuildHwRevMismatch (info : Info) (builtHwRev : List UInt8) : Bool :=
  if builtHwRev.headD 0 = 0 then false
  else if (List.ofFn info.somHwRev).headD 0 = 0 then false
  else !strncmpEq ALP_HW_INFO_HW_REV_LEN (List.ofFn info.somHwRev) builtHwRev

end Reader

end AlpSdk.SomIdentity
