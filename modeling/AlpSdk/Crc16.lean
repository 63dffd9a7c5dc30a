import AlpSdk.Gd32.Link
import AlpSdk.Library.Crc

-- The CRC of both bridge protocols in its fast form (include/alp/protocol/crc16.h).
namespace AlpSdk.Crc16

open Library.Crc

def POLY : BitVec 16 := 0x1021
def INIT : BitVec 16 := 0xFFFF

-- `table[4][256]`, a row at a time.
def table0 : List (BitVec 16) :=
  [0x0000, 0x1021, 0x2042, 0x3063, 0x4084, 0x50A5, 0x60C6, 0x70E7,
   0x8108, 0x9129, 0xA14A, 0xB16B, 0xC18C, 0xD1AD, 0xE1CE, 0xF1EF,
   0x1231, 0x0210, 0x3273, 0x2252, 0x52B5, 0x4294, 0x72F7, 0x62D6,
   0x9339, 0x8318, 0xB37B, 0xA35A, 0xD3BD, 0xC39C, 0xF3FF, 0xE3DE,
   0x2462, 0x3443, 0x0420, 0x1401, 0x64E6, 0x74C7, 0x44A4, 0x5485,
   0xA56A, 0xB54B, 0x8528, 0x9509, 0xE5EE, 0xF5CF, 0xC5AC, 0xD58D,
   0x3653, 0x2672, 0x1611, 0x0630, 0x76D7, 0x66F6, 0x5695, 0x46B4,
   0xB75B, 0xA77A, 0x9719, 0x8738, 0xF7DF, 0xE7FE, 0xD79D, 0xC7BC,
   0x48C4, 0x58E5, 0x6886, 0x78A7, 0x0840, 0x1861, 0x2802, 0x3823,
   0xC9CC, 0xD9ED, 0xE98E, 0xF9AF, 0x8948, 0x9969, 0xA90A, 0xB92B,
   0x5AF5, 0x4AD4, 0x7AB7, 0x6A96, 0x1A71, 0x0A50, 0x3A33, 0x2A12,
   0xDBFD, 0xCBDC, 0xFBBF, 0xEB9E, 0x9B79, 0x8B58, 0xBB3B, 0xAB1A,
   0x6CA6, 0x7C87, 0x4CE4, 0x5CC5, 0x2C22, 0x3C03, 0x0C60, 0x1C41,
   0xEDAE, 0xFD8F, 0xCDEC, 0xDDCD, 0xAD2A, 0xBD0B, 0x8D68, 0x9D49,
   0x7E97, 0x6EB6, 0x5ED5, 0x4EF4, 0x3E13, 0x2E32, 0x1E51, 0x0E70,
   0xFF9F, 0xEFBE, 0xDFDD, 0xCFFC, 0xBF1B, 0xAF3A, 0x9F59, 0x8F78,
   0x9188, 0x81A9, 0xB1CA, 0xA1EB, 0xD10C, 0xC12D, 0xF14E, 0xE16F,
   0x1080, 0x00A1, 0x30C2, 0x20E3, 0x5004, 0x4025, 0x7046, 0x6067,
   0x83B9, 0x9398, 0xA3FB, 0xB3DA, 0xC33D, 0xD31C, 0xE37F, 0xF35E,
   0x02B1, 0x1290, 0x22F3, 0x32D2, 0x4235, 0x5214, 0x6277, 0x7256,
   0xB5EA, 0xA5CB, 0x95A8, 0x8589, 0xF56E, 0xE54F, 0xD52C, 0xC50D,
   0x34E2, 0x24C3, 0x14A0, 0x0481, 0x7466, 0x6447, 0x5424, 0x4405,
   0xA7DB, 0xB7FA, 0x8799, 0x97B8, 0xE75F, 0xF77E, 0xC71D, 0xD73C,
   0x26D3, 0x36F2, 0x0691, 0x16B0, 0x6657, 0x7676, 0x4615, 0x5634,
   0xD94C, 0xC96D, 0xF90E, 0xE92F, 0x99C8, 0x89E9, 0xB98A, 0xA9AB,
   0x5844, 0x4865, 0x7806, 0x6827, 0x18C0, 0x08E1, 0x3882, 0x28A3,
   0xCB7D, 0xDB5C, 0xEB3F, 0xFB1E, 0x8BF9, 0x9BD8, 0xABBB, 0xBB9A,
   0x4A75, 0x5A54, 0x6A37, 0x7A16, 0x0AF1, 0x1AD0, 0x2AB3, 0x3A92,
   0xFD2E, 0xED0F, 0xDD6C, 0xCD4D, 0xBDAA, 0xAD8B, 0x9DE8, 0x8DC9,
   0x7C26, 0x6C07, 0x5C64, 0x4C45, 0x3CA2, 0x2C83, 0x1CE0, 0x0CC1,
   0xEF1F, 0xFF3E, 0xCF5D, 0xDF7C, 0xAF9B, 0xBFBA, 0x8FD9, 0x9FF8,
   0x6E17, 0x7E36, 0x4E55, 0x5E74, 0x2E93, 0x3EB2, 0x0ED1, 0x1EF0]

def table1 : List (BitVec 16) :=
  [0x0000, 0x3331, 0x6662, 0x5553, 0xCCC4, 0xFFF5, 0xAAA6, 0x9997,
   0x89A9, 0xBA98, 0xEFCB, 0xDCFA, 0x456D, 0x765C, 0x230F, 0x103E,
   0x0373, 0x3042, 0x6511, 0x5620, 0xCFB7, 0xFC86, 0xA9D5, 0x9AE4,
   0x8ADA, 0xB9EB, 0xECB8, 0xDF89, 0x461E, 0x752F, 0x207C, 0x134D,
   0x06E6, 0x35D7, 0x6084, 0x53B5, 0xCA22, 0xF913, 0xAC40, 0x9F71,
   0x8F4F, 0xBC7E, 0xE92D, 0xDA1C, 0x438B, 0x70BA, 0x25E9, 0x16D8,
   0x0595, 0x36A4, 0x63F7, 0x50C6, 0xC951, 0xFA60, 0xAF33, 0x9C02,
   0x8C3C, 0xBF0D, 0xEA5E, 0xD96F, 0x40F8, 0x73C9, 0x269A, 0x15AB,
   0x0DCC, 0x3EFD, 0x6BAE, 0x589F, 0xC108, 0xF239, 0xA76A, 0x945B,
   0x8465, 0xB754, 0xE207, 0xD136, 0x48A1, 0x7B90, 0x2EC3, 0x1DF2,
   0x0EBF, 0x3D8E, 0x68DD, 0x5BEC, 0xC27B, 0xF14A, 0xA419, 0x9728,
   0x8716, 0xB427, 0xE174, 0xD245, 0x4BD2, 0x78E3, 0x2DB0, 0x1E81,
   0x0B2A, 0x381B, 0x6D48, 0x5E79, 0xC7EE, 0xF4DF, 0xA18C, 0x92BD,
   0x8283, 0xB1B2, 0xE4E1, 0xD7D0, 0x4E47, 0x7D76, 0x2825, 0x1B14,
   0x0859, 0x3B68, 0x6E3B, 0x5D0A, 0xC49D, 0xF7AC, 0xA2FF, 0x91CE,
   0x81F0, 0xB2C1, 0xE792, 0xD4A3, 0x4D34, 0x7E05, 0x2B56, 0x1867,
   0x1B98, 0x28A9, 0x7DFA, 0x4ECB, 0xD75C, 0xE46D, 0xB13E, 0x820F,
   0x9231, 0xA100, 0xF453, 0xC762, 0x5EF5, 0x6DC4, 0x3897, 0x0BA6,
   0x18EB, 0x2BDA, 0x7E89, 0x4DB8, 0xD42F, 0xE71E, 0xB24D, 0x817C,
   0x9142, 0xA273, 0xF720, 0xC411, 0x5D86, 0x6EB7, 0x3BE4, 0x08D5,
   0x1D7E, 0x2E4F, 0x7B1C, 0x482D, 0xD1BA, 0xE28B, 0xB7D8, 0x84E9,
   0x94D7, 0xA7E6, 0xF2B5, 0xC184, 0x5813, 0x6B22, 0x3E71, 0x0D40,
   0x1E0D, 0x2D3C, 0x786F, 0x4B5E, 0xD2C9, 0xE1F8, 0xB4AB, 0x879A,
   0x97A4, 0xA495, 0xF1C6, 0xC2F7, 0x5B60, 0x6851, 0x3D02, 0x0E33,
   0x1654, 0x2565, 0x7036, 0x4307, 0xDA90, 0xE9A1, 0xBCF2, 0x8FC3,
   0x9FFD, 0xACCC, 0xF99F, 0xCAAE, 0x5339, 0x6008, 0x355B, 0x066A,
   0x1527, 0x2616, 0x7345, 0x4074, 0xD9E3, 0xEAD2, 0xBF81, 0x8CB0,
   0x9C8E, 0xAFBF, 0xFAEC, 0xC9DD, 0x504A, 0x637B, 0x3628, 0x0519,
   0x10B2, 0x2383, 0x76D0, 0x45E1, 0xDC76, 0xEF47, 0xBA14, 0x8925,
   0x991B, 0xAA2A, 0xFF79, 0xCC48, 0x55DF, 0x66EE, 0x33BD, 0x008C,
   0x13C1, 0x20F0, 0x75A3, 0x4692, 0xDF05, 0xEC34, 0xB967, 0x8A56,
   0x9A68, 0xA959, 0xFC0A, 0xCF3B, 0x56AC, 0x659D, 0x30CE, 0x03FF]

def table2 : List (BitVec 16) :=
  [0x0000, 0x3730, 0x6E60, 0x5950, 0xDCC0, 0xEBF0, 0xB2A0, 0x8590,
   0xA9A1, 0x9E91, 0xC7C1, 0xF0F1, 0x7561, 0x4251, 0x1B01, 0x2C31,
   0x4363, 0x7453, 0x2D03, 0x1A33, 0x9FA3, 0xA893, 0xF1C3, 0xC6F3,
   0xEAC2, 0xDDF2, 0x84A2, 0xB392, 0x3602, 0x0132, 0x5862, 0x6F52,
   0x86C6, 0xB1F6, 0xE8A6, 0xDF96, 0x5A06, 0x6D36, 0x3466, 0x0356,
   0x2F67, 0x1857, 0x4107, 0x7637, 0xF3A7, 0xC497, 0x9DC7, 0xAAF7,
   0xC5A5, 0xF295, 0xABC5, 0x9CF5, 0x1965, 0x2E55, 0x7705, 0x4035,
   0x6C04, 0x5B34, 0x0264, 0x3554, 0xB0C4, 0x87F4, 0xDEA4, 0xE994,
   0x1DAD, 0x2A9D, 0x73CD, 0x44FD, 0xC16D, 0xF65D, 0xAF0D, 0x983D,
   0xB40C, 0x833C, 0xDA6C, 0xED5C, 0x68CC, 0x5FFC, 0x06AC, 0x319C,
   0x5ECE, 0x69FE, 0x30AE, 0x079E, 0x820E, 0xB53E, 0xEC6E, 0xDB5E,
   0xF76F, 0xC05F, 0x990F, 0xAE3F, 0x2BAF, 0x1C9F, 0x45CF, 0x72FF,
   0x9B6B, 0xAC5B, 0xF50B, 0xC23B, 0x47AB, 0x709B, 0x29CB, 0x1EFB,
   0x32CA, 0x05FA, 0x5CAA, 0x6B9A, 0xEE0A, 0xD93A, 0x806A, 0xB75A,
   0xD808, 0xEF38, 0xB668, 0x8158, 0x04C8, 0x33F8, 0x6AA8, 0x5D98,
   0x71A9, 0x4699, 0x1FC9, 0x28F9, 0xAD69, 0x9A59, 0xC309, 0xF439,
   0x3B5A, 0x0C6A, 0x553A, 0x620A, 0xE79A, 0xD0AA, 0x89FA, 0xBECA,
   0x92FB, 0xA5CB, 0xFC9B, 0xCBAB, 0x4E3B, 0x790B, 0x205B, 0x176B,
   0x7839, 0x4F09, 0x1659, 0x2169, 0xA4F9, 0x93C9, 0xCA99, 0xFDA9,
   0xD198, 0xE6A8, 0xBFF8, 0x88C8, 0x0D58, 0x3A68, 0x6338, 0x5408,
   0xBD9C, 0x8AAC, 0xD3FC, 0xE4CC, 0x615C, 0x566C, 0x0F3C, 0x380C,
   0x143D, 0x230D, 0x7A5D, 0x4D6D, 0xC8FD, 0xFFCD, 0xA69D, 0x91AD,
   0xFEFF, 0xC9CF, 0x909F, 0xA7AF, 0x223F, 0x150F, 0x4C5F, 0x7B6F,
   0x575E, 0x606E, 0x393E, 0x0E0E, 0x8B9E, 0xBCAE, 0xE5FE, 0xD2CE,
   0x26F7, 0x11C7, 0x4897, 0x7FA7, 0xFA37, 0xCD07, 0x9457, 0xA367,
   0x8F56, 0xB866, 0xE136, 0xD606, 0x5396, 0x64A6, 0x3DF6, 0x0AC6,
   0x6594, 0x52A4, 0x0BF4, 0x3CC4, 0xB954, 0x8E64, 0xD734, 0xE004,
   0xCC35, 0xFB05, 0xA255, 0x9565, 0x10F5, 0x27C5, 0x7E95, 0x49A5,
   0xA031, 0x9701, 0xCE51, 0xF961, 0x7CF1, 0x4BC1, 0x1291, 0x25A1,
   0x0990, 0x3EA0, 0x67F0, 0x50C0, 0xD550, 0xE260, 0xBB30, 0x8C00,
   0xE352, 0xD462, 0x8D32, 0xBA02, 0x3F92, 0x08A2, 0x51F2, 0x66C2,
   0x4AF3, 0x7DC3, 0x2493, 0x13A3, 0x9633, 0xA103, 0xF853, 0xCF63]

def table3 : List (BitVec 16) :=
  [0x0000, 0x76B4, 0xED68, 0x9BDC, 0xCAF1, 0xBC45, 0x2799, 0x512D,
   0x85C3, 0xF377, 0x68AB, 0x1E1F, 0x4F32, 0x3986, 0xA25A, 0xD4EE,
   0x1BA7, 0x6D13, 0xF6CF, 0x807B, 0xD156, 0xA7E2, 0x3C3E, 0x4A8A,
   0x9E64, 0xE8D0, 0x730C, 0x05B8, 0x5495, 0x2221, 0xB9FD, 0xCF49,
   0x374E, 0x41FA, 0xDA26, 0xAC92, 0xFDBF, 0x8B0B, 0x10D7, 0x6663,
   0xB28D, 0xC439, 0x5FE5, 0x2951, 0x787C, 0x0EC8, 0x9514, 0xE3A0,
   0x2CE9, 0x5A5D, 0xC181, 0xB735, 0xE618, 0x90AC, 0x0B70, 0x7DC4,
   0xA92A, 0xDF9E, 0x4442, 0x32F6, 0x63DB, 0x156F, 0x8EB3, 0xF807,
   0x6E9C, 0x1828, 0x83F4, 0xF540, 0xA46D, 0xD2D9, 0x4905, 0x3FB1,
   0xEB5F, 0x9DEB, 0x0637, 0x7083, 0x21AE, 0x571A, 0xCCC6, 0xBA72,
   0x753B, 0x038F, 0x9853, 0xEEE7, 0xBFCA, 0xC97E, 0x52A2, 0x2416,
   0xF0F8, 0x864C, 0x1D90, 0x6B24, 0x3A09, 0x4CBD, 0xD761, 0xA1D5,
   0x59D2, 0x2F66, 0xB4BA, 0xC20E, 0x9323, 0xE597, 0x7E4B, 0x08FF,
   0xDC11, 0xAAA5, 0x3179, 0x47CD, 0x16E0, 0x6054, 0xFB88, 0x8D3C,
   0x4275, 0x34C1, 0xAF1D, 0xD9A9, 0x8884, 0xFE30, 0x65EC, 0x1358,
   0xC7B6, 0xB102, 0x2ADE, 0x5C6A, 0x0D47, 0x7BF3, 0xE02F, 0x969B,
   0xDD38, 0xAB8C, 0x3050, 0x46E4, 0x17C9, 0x617D, 0xFAA1, 0x8C15,
   0x58FB, 0x2E4F, 0xB593, 0xC327, 0x920A, 0xE4BE, 0x7F62, 0x09D6,
   0xC69F, 0xB02B, 0x2BF7, 0x5D43, 0x0C6E, 0x7ADA, 0xE106, 0x97B2,
   0x435C, 0x35E8, 0xAE34, 0xD880, 0x89AD, 0xFF19, 0x64C5, 0x1271,
   0xEA76, 0x9CC2, 0x071E, 0x71AA, 0x2087, 0x5633, 0xCDEF, 0xBB5B,
   0x6FB5, 0x1901, 0x82DD, 0xF469, 0xA544, 0xD3F0, 0x482C, 0x3E98,
   0xF1D1, 0x8765, 0x1CB9, 0x6A0D, 0x3B20, 0x4D94, 0xD648, 0xA0FC,
   0x7412, 0x02A6, 0x997A, 0xEFCE, 0xBEE3, 0xC857, 0x538B, 0x253F,
   0xB3A4, 0xC510, 0x5ECC, 0x2878, 0x7955, 0x0FE1, 0x943D, 0xE289,
   0x3667, 0x40D3, 0xDB0F, 0xADBB, 0xFC96, 0x8A22, 0x11FE, 0x674A,
   0xA803, 0xDEB7, 0x456B, 0x33DF, 0x62F2, 0x1446, 0x8F9A, 0xF92E,
   0x2DC0, 0x5B74, 0xC0A8, 0xB61C, 0xE731, 0x9185, 0x0A59, 0x7CED,
   0x84EA, 0xF25E, 0x6982, 0x1F36, 0x4E1B, 0x38AF, 0xA373, 0xD5C7,
   0x0129, 0x779D, 0xEC41, 0x9AF5, 0xCBD8, 0xBD6C, 0x26B0, 0x5004,
   0x9F4D, 0xE9F9, 0x7225, 0x0491, 0x55BC, 0x2308, 0xB8D4, 0xCE60,
   0x1A8E, 0x6C3A, 0xF7E6, 0x8152, 0xD07F, 0xA6CB, 0x3D17, 0x4BA3]

def table : Fin 4 → List (BitVec 16)
  | 0 => table0
  | 1 => table1
  | 2 => table2
  | 3 => table3

def lookup (k : Fin 4) (i : BitVec 32) : BitVec 16 := (table k).getD i.toNat 0

-- The 32-bit load of four bytes and its split by shifts, for either byte order of the host.
def load (bigEndian : Bool) (b0 b1 b2 b3 : UInt8) : BitVec 32 :=
  if bigEndian then b0.toBitVec ++ b1.toBitVec ++ b2.toBitVec ++ b3.toBitVec
  else b3.toBitVec ++ b2.toBitVec ++ b1.toBitVec ++ b0.toBitVec

structure Split where
  b0 : BitVec 32
  b1 : BitVec 32
  b2 : BitVec 32
  b3 : BitVec 32

def split (bigEndian : Bool) (w : BitVec 32) : Split :=
  if bigEndian then ⟨w >>> 24, (w >>> 16) &&& 0xFF, (w >>> 8) &&& 0xFF, w &&& 0xFF⟩
  else ⟨w &&& 0xFF, (w >>> 8) &&& 0xFF, (w >>> 16) &&& 0xFF, w >>> 24⟩

-- Four bytes of the word loop.
def wordStep (bigEndian : Bool) (crc : BitVec 16) (b0 b1 b2 b3 : UInt8) : BitVec 16 :=
  let w := split bigEndian (load bigEndian b0 b1 b2 b3)
  let x := crc.setWidth 32 ^^^ ((w.b0 <<< 8) ||| w.b1)
  lookup 3 (x >>> 8) ^^^ lookup 2 (x &&& 0xFF) ^^^ lookup 1 w.b2 ^^^ lookup 0 w.b3

-- One byte of the tail loop.
def byteStep (crc : BitVec 16) (byte : UInt8) : BitVec 16 :=
  (crc <<< 8) ^^^ lookup 0 (((crc >>> 8).setWidth 8 ^^^ byte.toBitVec).setWidth 32)

-- `alp_crc16_ccitt_false_update`
def update (bigEndian : Bool) (crc : BitVec 16) : List UInt8 → BitVec 16
  | b0 :: b1 :: b2 :: b3 :: rest => update bigEndian (wordStep bigEndian crc b0 b1 b2 b3) rest
  | tail => tail.foldl byteStep crc

-- The bit loop that `update` stands for.
def crcBit (crc : BitVec 16) : BitVec 16 :=
  if crc &&& 0x8000 ≠ 0 then (crc <<< 1) ^^^ 0x1021 else crc <<< 1

def bitwiseRef (crc : BitVec 16) (buf : List UInt8) : BitVec 16 :=
  buf.foldl (fun (crc : BitVec 16) (byte : UInt8) => crcBit^[8] (crc ^^^ (byte.toBitVec.setWidth 16 <<< 8))) crc

theorem crcBit_eq (crc : BitVec 16) : crcBit crc = step POLY crc := by
  have hmask : crc &&& 0x8000 = if crc.msb then 0x8000 else 0 := by
    have htop : (0x8000 : BitVec 16) = BitVec.twoPow 16 15 := by decide
    rw [htop, BitVec.and_twoPow, BitVec.msb_eq_getLsbD_last]
    rfl
  unfold crcBit step
  rw [hmask]
  cases crc.msb with
  | true => rfl
  | false => rfl

theorem iterate_crcBit (n : Nat) (crc : BitVec 16) : crcBit^[n] crc = steps POLY n crc := by
  induction n generalizing crc with
  | zero => rfl
  | succ n ih => rw [Function.iterate_succ_apply, ih, crcBit_eq, steps]

theorem bitwiseRef_eq (crc : BitVec 16) (buf : List UInt8) :
    bitwiseRef crc buf = foldBytes POLY crc (buf.map UInt8.toBitVec) := by
  simp only [bitwiseRef, iterate_crcBit, foldBytes, List.foldl_map]
  rfl

theorem table_eq (k : Fin 4) :
    table k = (List.range 256).map fun i => steps POLY (8 * (k + 1)) (BitVec.ofNat 16 i <<< 8) := by
  revert k
  decide +kernel

theorem lookup_eq (k : Fin 4) (i : BitVec 8) :
    lookup k (i.setWidth 32) = steps POLY (8 * (k + 1)) (top 16 i) := by
  have hlt := i.isLt
  have hindex : (i.setWidth 32).toNat = i.toNat := by
    rw [BitVec.toNat_setWidth]
    omega
  have hrange : i.toNat < ((List.range 256).map fun i =>
      steps POLY (8 * ((k : Nat) + 1)) (BitVec.ofNat 16 i <<< 8)).length := by simpa using hlt
  have htop : BitVec.ofNat 16 i.toNat = i.setWidth 16 := by
    apply BitVec.eq_of_toNat_eq
    rw [BitVec.toNat_ofNat, BitVec.toNat_setWidth]
  rw [lookup, hindex, table_eq, List.getD_eq_getElem?_getD, List.getElem?_eq_getElem hrange]
  rw [Option.getD_some, List.getElem_map, List.getElem_range, htop]
  rfl

theorem mask_low (x : BitVec 32) : x &&& 0xFF = (x.setWidth 8).setWidth 32 := by
  have hmask : (0xFF : BitVec 32) = (BitVec.allOnes 8).setWidth 32 := by decide
  apply BitVec.eq_of_getLsbD_eq
  intro i hi
  rw [hmask]
  simp only [BitVec.getLsbD_and, BitVec.getLsbD_setWidth, BitVec.getLsbD_allOnes, hi, decide_true, Bool.true_and]
  exact Bool.and_comm _ _

theorem shifted_bytes (a b c d : BitVec 8) : (a ++ b ++ c ++ d : BitVec 32) >>> 24 = a.setWidth 32 ∧
    ((a ++ b ++ c ++ d : BitVec 32) >>> 16).setWidth 8 = b ∧
    ((a ++ b ++ c ++ d : BitVec 32) >>> 8).setWidth 8 = c ∧ (a ++ b ++ c ++ d : BitVec 32).setWidth 8 = d := by
  refine ⟨?_, ?_, ?_, ?_⟩
  all_goals
    apply BitVec.eq_of_getLsbD_eq
    intro i hi
    simp only [BitVec.getLsbD_ushiftRight, BitVec.getLsbD_setWidth, BitVec.getLsbD_append]
    grind

theorem split_load (bigEndian : Bool) (b0 b1 b2 b3 : UInt8) :
    split bigEndian (load bigEndian b0 b1 b2 b3) = ⟨b0.toBitVec.setWidth 32, b1.toBitVec.setWidth 32,
      b2.toBitVec.setWidth 32, b3.toBitVec.setWidth 32⟩ := by
  simp only [split, load, mask_low]
  cases bigEndian with
  | true =>
      obtain ⟨h0, h1, h2, h3⟩ := shifted_bytes b0.toBitVec b1.toBitVec b2.toBitVec b3.toBitVec
      simp only [if_true, h0, h1, h2, h3]
  | false =>
      obtain ⟨h3, h2, h1, h0⟩ := shifted_bytes b3.toBitVec b2.toBitVec b1.toBitVec b0.toBitVec
      simp only [Bool.false_eq_true, if_false, h0, h1, h2, h3]

-- A register is its high byte at the top and its low byte below, and eight steps bring the low
-- byte to the top.
theorem halves (crc : BitVec 16) :
    crc = top 16 ((crc >>> 8).setWidth 8) ^^^ (crc.setWidth 8).setWidth 16 := by
  apply BitVec.eq_of_getLsbD_eq
  intro i hi
  simp only [top, BitVec.getLsbD_xor, BitVec.getLsbD_shiftLeft, BitVec.getLsbD_setWidth, BitVec.getLsbD_ushiftRight]
  grind

theorem steps_low (byte : BitVec 8) : steps POLY 8 (byte.setWidth 16) = top 16 byte := by
  refine steps_shift POLY fun i hi => ?_
  rw [BitVec.getMsbD_eq_getLsbD, BitVec.getLsbD_setWidth]
  have hhigh : byte.getLsbD (16 - 1 - i) = false := BitVec.getLsbD_of_ge _ _ (by omega)
  rw [hhigh, Bool.and_false, Bool.and_false]

theorem steps_halves (n : Nat) (crc : BitVec 16) : steps POLY (8 + n) crc =
    steps POLY (8 + n) (top 16 ((crc >>> 8).setWidth 8)) ^^^ steps POLY n (top 16 (crc.setWidth 8)) := by
  have hlow : steps POLY (8 + n) ((crc.setWidth 8).setWidth 16) = steps POLY n (top 16 (crc.setWidth 8)) := by
    rw [steps_add, steps_low]
  rw [← hlow, ← steps_xor, ← halves]

theorem high_top (byte : BitVec 8) : (top 16 byte >>> 8).setWidth 8 = byte := by
  apply BitVec.eq_of_getLsbD_eq
  intro i hi
  simp only [top, BitVec.getLsbD_setWidth, BitVec.getLsbD_ushiftRight, BitVec.getLsbD_shiftLeft]
  grind

theorem low_top (byte : BitVec 8) : (top 16 byte).setWidth 8 = 0 := by
  apply BitVec.eq_of_getLsbD_eq
  intro i hi
  simp only [top, BitVec.getLsbD_setWidth, BitVec.getLsbD_shiftLeft]
  grind

theorem top_low (crc : BitVec 16) : top 16 (crc.setWidth 8) = crc <<< 8 := by
  apply BitVec.eq_of_getLsbD_eq
  intro i hi
  simp only [top, BitVec.getLsbD_setWidth, BitVec.getLsbD_shiftLeft]
  grind

theorem byteStep_eq (crc : BitVec 16) (byte : UInt8) : byteStep crc byte = foldByte POLY crc byte.toBitVec := by
  have hhigh : ((crc ^^^ top 16 byte.toBitVec) >>> 8).setWidth 8 = (crc >>> 8).setWidth 8 ^^^ byte.toBitVec := by
    rw [BitVec.ushiftRight_xor_distrib, BitVec.setWidth_xor, high_top]
  have hlow : (crc ^^^ top 16 byte.toBitVec).setWidth 8 = crc.setWidth 8 := by
    rw [BitVec.setWidth_xor, low_top]
    exact BitVec.xor_zero
  have hfold := steps_halves 0 (crc ^^^ top 16 byte.toBitVec)
  rw [hhigh, hlow, top_low] at hfold
  have hlookup := lookup_eq 0 ((crc >>> 8).setWidth 8 ^^^ byte.toBitVec)
  rw [byteStep, hlookup, BitVec.xor_comm]
  exact hfold.symm

theorem wordStep_eq (bigEndian : Bool) (crc : BitVec 16) (b0 b1 b2 b3 : UInt8) :
    wordStep bigEndian crc b0 b1 b2 b3 =
      foldBytes POLY crc [b0.toBitVec, b1.toBitVec, b2.toBitVec, b3.toBitVec] := by
  let x := crc ^^^ top 16 b0.toBitVec ^^^ b1.toBitVec.setWidth 16
  have hx : crc.setWidth 32 ^^^ ((b0.toBitVec.setWidth 32 <<< 8) ||| b1.toBitVec.setWidth 32) = x.setWidth 32 := by
    apply BitVec.eq_of_getLsbD_eq
    intro i hi
    simp only [x, top, BitVec.getLsbD_setWidth, BitVec.getLsbD_xor, BitVec.getLsbD_or, BitVec.getLsbD_shiftLeft]
    grind
  have hhigh : x.setWidth 32 >>> 8 = ((x >>> 8).setWidth 8).setWidth 32 := by
    apply BitVec.eq_of_getLsbD_eq
    intro i hi
    simp only [BitVec.getLsbD_setWidth, BitVec.getLsbD_ushiftRight]
    grind
  have hlow : x.setWidth 32 &&& 0xFF = (x.setWidth 8).setWidth 32 := by
    have hinner : (x.setWidth 32).setWidth 8 = x.setWidth 8 := BitVec.setWidth_setWidth_of_le x (by decide)
    rw [mask_low, hinner]
  have hword : wordStep bigEndian crc b0 b1 b2 b3 =
      steps POLY 32 (top 16 ((x >>> 8).setWidth 8)) ^^^ steps POLY 24 (top 16 (x.setWidth 8)) ^^^
        steps POLY 16 (top 16 b2.toBitVec) ^^^ steps POLY 8 (top 16 b3.toBitVec) := by
    simp only [wordStep, split_load, hx, hhigh, hlow, lookup_eq]
    rfl
  -- The low byte of `x` is where the second byte stands once the first one is in.
  have hfirst : steps POLY 32 x = steps POLY 32 (crc ^^^ top 16 b0.toBitVec) ^^^ steps POLY 24 (top 16 b1.toBitVec) := by
    rw [steps_xor, ← steps_low b1.toBitVec, ← steps_add]
  have hfold : foldBytes POLY crc [b0.toBitVec, b1.toBitVec, b2.toBitVec, b3.toBitVec] =
      steps POLY 32 (crc ^^^ top 16 b0.toBitVec) ^^^ steps POLY 24 (top 16 b1.toBitVec) ^^^
        steps POLY 16 (top 16 b2.toBitVec) ^^^ steps POLY 8 (top 16 b3.toBitVec) := by
    simp only [foldBytes, List.foldl_cons, List.foldl_nil, foldByte, steps_xor, ← steps_add]
  rw [hword, hfold, ← hfirst, ← steps_halves 24 x]

theorem update_eq_foldBytes (bigEndian : Bool) (crc : BitVec 16) (buf : List UInt8) :
    update bigEndian crc buf = foldBytes POLY crc (buf.map UInt8.toBitVec) := by
  fun_induction update bigEndian crc buf with
  | case1 crc b0 b1 b2 b3 rest ih =>
      rw [ih, wordStep_eq, ← foldBytes_append]
      rfl
  | case2 crc tail htail =>
      have hstep : byteStep = fun crc byte => foldByte POLY crc byte.toBitVec := by
        funext crc byte
        exact byteStep_eq crc byte
      rw [foldBytes, List.foldl_map, hstep]

-- The fast form is the bit loop, and chained calls are one call.
theorem update_exact (bigEndian : Bool) :
    (∀ crc buf, update bigEndian crc buf = bitwiseRef crc buf) ∧
      ∀ crc xs ys, update bigEndian (update bigEndian crc xs) ys = update bigEndian crc (xs ++ ys) := by
  refine ⟨fun crc buf => ?_, fun crc xs ys => ?_⟩
  · rw [update_eq_foldBytes, bitwiseRef_eq]
  · simp only [update_eq_foldBytes, List.map_append, foldBytes_append]

-- The CRC of the frames of both bridges, as a number.
theorem toNat_step (crc : BitVec 16) : (step POLY crc).toNat = Gd32.crcBit crc.toNat := by
  unfold step Gd32.crcBit
  rw [BitVec.msb_eq_getLsbD_last]
  change (if crc.toNat.testBit 15 then _ else _ : BitVec 16).toNat = _
  cases crc.toNat.testBit 15 with
  | true =>
      simp only [if_true, BitVec.toNat_xor, BitVec.toNat_shiftLeft]
      rfl
  | false =>
      simp only [Bool.false_eq_true, if_false, BitVec.toNat_shiftLeft]

theorem toNat_foldByte (crc : BitVec 16) (byte : UInt8) :
    (foldByte POLY crc byte.toBitVec).toNat = Gd32.crcByte crc.toNat byte := by
  have htop : (crc ^^^ top 16 byte.toBitVec).toNat = crc.toNat ^^^ (byte.toNat <<< 8) := by
    have hlt := byte.toNat_lt
    rw [BitVec.toNat_xor, top, BitVec.toNat_shiftLeft, BitVec.toNat_setWidth]
    congr 1
    rw [UInt8.toNat_toBitVec, Nat.mod_eq_of_lt (by omega), Nat.shiftLeft_eq]
    omega
  simp only [foldByte, steps, toNat_step, htop]
  rfl

theorem toNat_foldBytes (crc : BitVec 16) (buf : List UInt8) :
    (foldBytes POLY crc (buf.map UInt8.toBitVec)).toNat = buf.foldl Gd32.crcByte crc.toNat := by
  induction buf generalizing crc with
  | nil => rfl
  | cons byte rest ih =>
      rw [List.foldl_cons, ← toNat_foldByte]
      exact ih _

theorem crc16_eq (bigEndian : Bool) (buf : List UInt8) : Gd32.crc16 buf = (update bigEndian INIT buf).toNat := by
  rw [update_eq_foldBytes, toNat_foldBytes]
  rfl

end AlpSdk.Crc16
