import AlpSdk.SomIdentity

-- The identity in U-Boot (board/renesas/rzv2n-dev/rzv2n-dev.c, as patches 0001, 0009, 0010 and 0014
-- under meta-alp-sdk/recipes-bsp/u-boot leave it).
namespace AlpSdk.SomIdentity.Uboot

open Library.Bytes

def ALP_ETH_MAC_OCTET0 : UInt8 := 0xA2
def ALP_ETH_MAC_PREFIX : UInt64 := 0xC
def ALP_ETH_MAC_PREFIX_CID : UInt64 := 0xD
def ALP_ETH_YEAR_BASE : UInt32 := 2024
def ALP_ETH_YEAR_BITS : UInt64 := 6
def ALP_ETH_WEEK_BITS : UInt64 := 6
def ALP_ETH_INDEX_BITS : UInt64 := 20
def ALP_ETH_IFACE_BITS : UInt64 := 2
def ALP_ETH_RESERVED_BITS : UInt64 := 2

-- The strings that a valid manifest leaves behind; they start out empty.
structure Statics where
  alpSku : List UInt8
  alpSerial : List UInt8
  alpFamily : List UInt8

-- `crc32` is U-Boot's own.
variable (crc32 : List UInt8 → BitVec 32)

-- `reply` is what the EEPROM returned for the 128 bytes, if it answered.
def alpSomIsV2nM1 (reply : Option (List UInt8)) (statics : Statics) : Bool × Statics :=
  match reply with
  | none => (false, statics)
  | some buf =>
      if getU32 0x00 buf ≠ ALP_HW_INFO_MAGIC ∨ getU32 0x04 buf ≠ ALP_HW_INFO_SCHEMA_VERSION then (false, statics)
      else if (crc32 (buf.take 0x7C)).toNat ≠ getU32 0x7C buf then (false, statics)
      else
        let family := cstr (slice 0x08 16 buf)
        (family == [0x76, 0x32, 0x6E, 0x2D, 0x6D, 0x31], ⟨cstr (slice 0x18 24 buf), cstr (slice 0x38 24 buf), family⟩)

-- "0123456789ABCDEFGHJKMNPQRSTVWXYZ".
def alphabet : List UInt8 :=
  [0x30, 0x31, 0x32, 0x33, 0x34, 0x35, 0x36, 0x37, 0x38, 0x39, 0x41, 0x42, 0x43, 0x44, 0x45, 0x46,
   0x47, 0x48, 0x4A, 0x4B, 0x4D, 0x4E, 0x50, 0x51, 0x52, 0x53, 0x54, 0x56, 0x57, 0x58, 0x59, 0x5A]

def upperByte (c : UInt8) : UInt8 := if 0x61 ≤ c ∧ c ≤ 0x7A then c - 0x20 else c

def crockfordStep (value : UInt32) (c : UInt8) : Option UInt32 :=
  if upperByte c = 0 then none
  else (alphabet.idxOf? (upperByte c)).map fun p => value * 32 + UInt32.ofNat p

def alpEthCrockfordDecode (chars : List UInt8) : Option UInt32 :=
  [chars.getD 0 0, chars.getD 1 0, chars.getD 2 0, chars.getD 3 0].foldlM crockfordStep 0

def decimalStep (value : UInt32) (c : UInt8) : Option UInt32 :=
  if c < 0x30 ∨ 0x39 < c then none else some (value * 10 + (c - 0x30).toUInt32)

def alpEthParseSerial (serial : List UInt8) : Option (UInt32 × UInt32 × UInt32) := do
  if serial.length ≠ 12 then none
  else
    let year ← (slice 0 4 serial).foldlM decimalStep 0
    if serial.getD 4 0 ≠ 0x57 ∧ serial.getD 4 0 ≠ 0x77 then none
    else
      let week ← (slice 5 2 serial).foldlM decimalStep 0
      if serial.getD 7 0 ≠ 0x2D then none
      else
        let index ← alpEthCrockfordDecode (serial.drop 8)
        if year < ALP_ETH_YEAR_BASE ∨ ALP_ETH_YEAR_BASE + (1 <<< ALP_ETH_YEAR_BITS.toUInt32) - 1 < year then none
        else if week < 1 ∨ 53 < week then none
        else some (year, week, index)

def macOf (value : UInt64) : List UInt8 :=
  [ALP_ETH_MAC_OCTET0, (value >>> 32).toUInt8, (value >>> 24).toUInt8, (value >>> 16).toUInt8,
    (value >>> 8).toUInt8, (value >>> 0).toUInt8]

def alpEthDeriveMac (year week index iface : UInt32) : List UInt8 :=
  let value := ALP_ETH_MAC_PREFIX
  let value := value <<< ALP_ETH_YEAR_BITS ||| (year - ALP_ETH_YEAR_BASE).toUInt64
  let value := value <<< ALP_ETH_WEEK_BITS ||| week.toUInt64
  let value := value <<< ALP_ETH_INDEX_BITS ||| index.toUInt64
  let value := value <<< ALP_ETH_IFACE_BITS ||| (iface &&& 0x3).toUInt64
  let value := value <<< ALP_ETH_RESERVED_BITS ||| 0
  macOf value

def alpEthFormatMac (mac : List UInt8) : List Char := macText (mac.map UInt8.toNat)

-- `cid` is that of the eMMC, if there is one.
def alpEthDeriveMacFromCid (cid : Option (List UInt8)) (iface : UInt32) : Option (List UInt8) :=
  cid.map fun cid =>
    let value := ALP_ETH_MAC_PREFIX_CID
    let value := value <<< 32 ||| UInt64.ofNat (crc32 cid).toNat
    let value := value <<< ALP_ETH_IFACE_BITS ||| (iface &&& 0x3).toUInt64
    let value := value <<< ALP_ETH_RESERVED_BITS ||| 0
    macOf value

-- What `ethaddr` and `eth1addr` are set to; without either source the vendor default stays.
def alpEthMacBringup (alpSerial : List UInt8) (cid : Option (List UInt8)) : Option (List Char × List Char) :=
  match alpEthParseSerial alpSerial with
  | some (year, week, index) =>
      some (alpEthFormatMac (alpEthDeriveMac year week index 0), alpEthFormatMac (alpEthDeriveMac year week index 1))
  | none => do
      let mac0 ← alpEthDeriveMacFromCid crc32 cid 0
      let mac1 ← alpEthDeriveMacFromCid crc32 cid 1
      some (alpEthFormatMac mac0, alpEthFormatMac mac1)

-- `board_late_init`, and the command that the boot command runs after it has reset the environment.
def bootMacs (reply cid : Option (List UInt8)) : Option (List Char × List Char) :=
  alpEthMacBringup crc32 (alpSomIsV2nM1 crc32 reply ⟨[], [], []⟩).2.alpSerial cid

end AlpSdk.SomIdentity.Uboot
