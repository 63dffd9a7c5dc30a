import AlpSdk.UpdateLog.Wire

-- The boot metadata of an MCUboot image (src/update_log/boot_providers.c and
-- src/backends/update_log/mcuboot_boot_metadata.c).
namespace AlpSdk.UpdateLog

open Library.Bytes

def ULOG_MCUBOOT_IMAGE_MAGIC : Nat := 0x96f3b83d
def ULOG_MCUBOOT_TLV_INFO_MAGIC : Nat := 0x6907
def ULOG_MCUBOOT_TLV_PROT_MAGIC : Nat := 0x6908
def ULOG_MCUBOOT_TLV_SHA256 : Nat := 0x10
def ULOG_MCUBOOT_TLV_SCAN_MAX : Nat := 512
def ALP_UPDATE_STATUS_CONFIRMED : Nat := 0

-- The loop of `ulog_mcuboot_tlv_find_sha256`.
def tlvScan (area : Blob) (avail off : Nat) : Option Blob :=
  if off + 4 ≤ avail then
    let type := getU16 off area
    let len := getU16 (off + 2) area
    if avail < off + 4 + len then none
    else if type = ULOG_MCUBOOT_TLV_SHA256 ∧ len = 32 then some (slice (off + 4) 32 area)
    else tlvScan area avail (off + 4 + len)
  else none
termination_by avail - off

def mcubootTlvFindSha256 (area : Blob) : Option Blob :=
  if area.length < 4 then none
  else
    let magic := getU16 0 area
    if magic ≠ ULOG_MCUBOOT_TLV_INFO_MAGIC ∧ magic ≠ ULOG_MCUBOOT_TLV_PROT_MAGIC then none
    else tlvScan area (min (getU16 2 area) area.length) 4

-- "%u.%u.%u", in a buffer that is zero after it.
def versionText (major minor revision : Nat) : Blob :=
  ((Nat.toDigits 10 major ++ '.' :: Nat.toDigits 10 minor ++ '.' :: Nat.toDigits 10 revision).map
    fun c => UInt8.ofNat c.toNat)

def mcubootBuildEntry (header : Blob) (hash : Blob) (confirmed : Bool) : Except AlpError Entry :=
  if getU32 0 header ≠ ULOG_MCUBOOT_IMAGE_MAGIC then .error .nosupport
  else
    .ok {
      seq := 0
      fwVersion := readArr 32 0 (versionText (header.getD 20 0).toNat (header.getD 21 0).toNat (getU16 22 header))
      imageHash := readArr 32 0 hash
      status := if confirmed then ALP_UPDATE_STATUS_CONFIRMED else ALP_UPDATE_STATUS_PENDING_CONFIRM
      timestamp := 0 }

-- A flash area, where any read may fail.
structure FlashArea where
  bytes : Nat → UInt8
  fails : Nat → Nat → Bool

def flashAreaRead (fap : FlashArea) (off len : Nat) : Option Blob :=
  if fap.fails off len then none else some (load off len fap.bytes)

-- The two scans of `alp_update_log_boot_metadata_read`. `size_t` has 32 bits.
def findProtected (fap : FlashArea) (regionOff protSize : Nat) : Option Blob :=
  if 0 < protSize then
    (flashAreaRead fap regionOff (min protSize ULOG_MCUBOOT_TLV_SCAN_MAX)).bind mcubootTlvFindSha256
  else none

def findUnprotected (fap : FlashArea) (regionOff : Nat) : Option Blob :=
  (flashAreaRead fap regionOff 4).bind fun info =>
    let n := min (getU16 2 info) ULOG_MCUBOOT_TLV_SCAN_MAX
    if 4 ≤ n then (flashAreaRead fap regionOff n).bind mcubootTlvFindSha256 else none

-- `fap` is none where `flash_area_open` fails, and `confirmed` is `boot_is_img_confirmed()`.
def bootMetadataRead (fap : Option FlashArea) (confirmed : Bool) : Except AlpError Entry :=
  match fap with
  | none => .error .nosupport
  | some fap =>
      match flashAreaRead fap 0 32 with
      | none => .error .nosupport
      | some header =>
          let protSize := getU16 10 header
          let regionOff := (getU16 8 header + getU32 12 header) % 2 ^ 32
          let found := (findProtected fap regionOff protSize).or
            (findUnprotected fap ((regionOff + protSize) % 2 ^ 32))
          match found with
          | none => .error .nosupport
          | some hash => mcubootBuildEntry header hash confirmed

-- An image as it is signed: a header that says how long the parts are, the body, a protected area
-- that may be missing and an unprotected one.
structure Tlv where
  type : UInt16
  payload : Blob
  short : payload.length < 65536

namespace Tlv

def encode (tlv : Tlv) : Blob := putU16 tlv.type.toNat ++ putU16 tlv.payload.length ++ tlv.payload

def isHash (tlv : Tlv) : Prop := tlv.type.toNat = ULOG_MCUBOOT_TLV_SHA256 ∧ tlv.payload.length = 32

instance (tlv : Tlv) : Decidable tlv.isHash := inferInstanceAs (Decidable (_ ∧ _))

end Tlv

def encodeTlvs (tlvs : List Tlv) : Blob := tlvs.flatMap Tlv.encode

def encodeArea (magic : Nat) (tlvs : List Tlv) : Blob :=
  putU16 magic ++ putU16 (4 + (encodeTlvs tlvs).length) ++ encodeTlvs tlvs

structure Image where
  header : Blob
  body : Blob
  prot : List Tlv
  tlvs : List Tlv

namespace Image

def protArea (image : Image) : Blob :=
  if image.prot.isEmpty then [] else encodeArea ULOG_MCUBOOT_TLV_PROT_MAGIC image.prot

def tlvArea (image : Image) : Blob := encodeArea ULOG_MCUBOOT_TLV_INFO_MAGIC image.tlvs

def encode (image : Image) : Blob := image.header ++ (image.body ++ (image.protArea ++ image.tlvArea))

structure Signed (image : Image) : Prop where
  header : 32 ≤ image.header.length
  hdrSize : getU16 8 image.header = image.header.length
  protSize : getU16 10 image.header = image.protArea.length
  imgSize : getU32 12 image.header = image.body.length
  tlvSize : image.tlvArea.length < 65536
  size : image.encode.length < 2 ^ 32

end Image

-- The first SHA-256 among the records that end before `bound`, from the offset `off` on.
def hashWithin (bound : Nat) : (off : Nat) → List Tlv → Option Blob
  | _, [] => none
  | off, tlv :: rest =>
      if bound < off + 4 + tlv.payload.length then none
      else if tlv.isHash then some tlv.payload
      else hashWithin bound (off + 4 + tlv.payload.length) rest

-- The digest that an image has to show, where some reads fail.
def Image.hash (image : Image) (fails : Nat → Nat → Bool) : Option Blob :=
  let protOff := image.header.length + image.body.length
  let tlvOff := protOff + image.protArea.length
  let inProt :=
    if image.prot.isEmpty ∨ fails protOff (min image.protArea.length 512) then none
    else hashWithin (min image.protArea.length 512) 4 image.prot
  inProt.or
    (if fails tlvOff 4 ∨ fails tlvOff (min image.tlvArea.length 512) then none
    else hashWithin (min image.tlvArea.length 512) 4 image.tlvs)

section Scan

variable {area : Blob} {avail off : Nat}

theorem slice_take {len n : Nat} (h : off + len ≤ n) :
    slice off len (area.take n) = slice off len area := by
  rw [slice, slice, List.drop_take, List.take_take, Nat.min_eq_left (by omega)]

theorem getU16_take {n : Nat} (h : off + 2 ≤ n) : getU16 off (area.take n) = getU16 off area := by
  rw [getU16, getU16, slice_take h]

-- A scan reads nothing past `avail`.
theorem tlvScan_take {n : Nat} (havail : avail ≤ n) :
    tlvScan (area.take n) avail off = tlvScan area avail off := by
  fun_induction tlvScan area avail off with
  | case1 off hroom len hlong =>
      rw [tlvScan, if_pos hroom, getU16_take (by omega), getU16_take (by omega)]
      exact if_pos hlong
  | case2 off hroom type len hshort hhash =>
      rw [tlvScan, if_pos hroom, getU16_take (by omega), getU16_take (by omega), slice_take (by omega)]
      exact (if_neg hshort).trans (if_pos hhash)
  | case3 off hroom type len hshort hother ih =>
      rw [tlvScan, if_pos hroom, getU16_take (by omega), getU16_take (by omega)]
      exact (if_neg hshort).trans ((if_neg hother).trans ih)
  | case4 off hend => rw [tlvScan, if_neg hend]

theorem getU16_putU16 (v : Nat) (hv : v < 65536) (rest : Blob) : getU16 0 (putU16 v ++ rest) = v := by
  rw [getU16, slice_head 2 _ _ (by simp [putU16]), putU16, getLE_putLE]
  exact Nat.mod_eq_of_lt hv

theorem getU16_past (pre rest : Blob) (i : Nat) :
    getU16 (pre.length + i) (pre ++ rest) = getU16 i rest := by
  rw [getU16, getU16, slice_past]

-- A scan over encoded records, which ends inside them.
theorem tlvScan_encode (pre rest : Blob) (tlvs : List Tlv)
    (havail : avail ≤ pre.length + (encodeTlvs tlvs).length) :
    tlvScan (pre ++ (encodeTlvs tlvs ++ rest)) avail pre.length = hashWithin avail pre.length tlvs := by
  induction tlvs generalizing pre with
  | nil =>
      rw [tlvScan, if_neg (by simp [encodeTlvs] at havail; omega)]
      rfl
  | cons tlv tlvs ih =>
      have hcons : encodeTlvs (tlv :: tlvs) = tlv.encode ++ encodeTlvs tlvs := rfl
      have hencode : (tlv.encode).length = 4 + tlv.payload.length := by
        simp [Tlv.encode, putU16]
        omega
      have htype : getU16 pre.length (pre ++ (encodeTlvs (tlv :: tlvs) ++ rest)) = tlv.type.toNat := by
        have hpast := getU16_past pre (encodeTlvs (tlv :: tlvs) ++ rest) 0
        rw [Nat.add_zero] at hpast
        rw [hpast, hcons, Tlv.encode]
        simp only [List.append_assoc]
        exact getU16_putU16 _ tlv.type.toNat_lt _
      have hlen : getU16 (pre.length + 2) (pre ++ (encodeTlvs (tlv :: tlvs) ++ rest)) = tlv.payload.length := by
        rw [getU16_past, hcons, Tlv.encode]
        simp only [List.append_assoc]
        have hpast := getU16_past (putU16 tlv.type.toNat)
          (putU16 tlv.payload.length ++ (tlv.payload ++ (encodeTlvs tlvs ++ rest))) 0
        rw [show (putU16 tlv.type.toNat).length + 0 = 2 by simp [putU16]] at hpast
        rw [hpast]
        exact getU16_putU16 _ tlv.short _
      rw [tlvScan, htype, hlen, hashWithin]
      dsimp only
      by_cases hroom : pre.length + 4 ≤ avail
      · rw [if_pos hroom]
        by_cases hlong : avail < pre.length + 4 + tlv.payload.length
        · rw [if_pos hlong, if_pos hlong]
        rw [if_neg hlong, if_neg hlong]
        have hnext := ih (pre ++ tlv.encode) (by
          rw [hcons] at havail
          simp only [List.length_append] at havail ⊢
          omega)
        rw [List.length_append, hencode, ← Nat.add_assoc] at hnext
        by_cases hhash : tlv.type.toNat = ULOG_MCUBOOT_TLV_SHA256 ∧ tlv.payload.length = 32
        · rw [if_pos hhash, if_pos (c := tlv.isHash) hhash, slice_past, hcons, Tlv.encode]
          simp only [List.append_assoc]
          rw [slice_skip _ _ _ _ (by simp [putU16]), slice_skip _ _ _ _ (by simp [putU16])]
          simp only [putU16, length_putLE]
          rw [slice_head 32 _ _ hhash.2]
        · rw [if_neg hhash, if_neg (c := tlv.isHash) hhash, ← hnext, hcons]
          simp only [List.append_assoc]
      · rw [if_neg hroom, if_pos (by omega)]

theorem length_encodeArea (magic : Nat) (tlvs : List Tlv) :
    (encodeArea magic tlvs).length = 4 + (encodeTlvs tlvs).length := by
  simp [encodeArea, putU16]
  omega

theorem getU16_lt (off : Nat) (buf : Blob) : getU16 off buf < 65536 := by
  refine Nat.lt_of_lt_of_le (getLE_lt _) ?_
  exact Nat.pow_le_pow_right (by decide) (length_slice_le off 2 buf)

theorem getU16_size {magic n : Nat} {tlvs : List Tlv} (hsize : (encodeArea magic tlvs).length < 65536)
    (hn : 4 ≤ n) : getU16 2 ((encodeArea magic tlvs).take n) = (encodeArea magic tlvs).length := by
  rw [length_encodeArea] at hsize ⊢
  rw [getU16_take (by omega), encodeArea, List.append_assoc]
  have hpast := getU16_past (putU16 magic) (putU16 (4 + (encodeTlvs tlvs).length) ++ encodeTlvs tlvs) 0
  rw [show (putU16 magic).length + 0 = 2 by simp [putU16]] at hpast
  rw [hpast]
  exact getU16_putU16 _ hsize _

-- What is read of an area may be less than all of it.
theorem mcubootTlvFind_encode {magic n : Nat} (tlvs : List Tlv)
    (hmagic : magic = ULOG_MCUBOOT_TLV_INFO_MAGIC ∨ magic = ULOG_MCUBOOT_TLV_PROT_MAGIC)
    (hsize : (encodeArea magic tlvs).length < 65536) (hn : 4 ≤ n) (hle : n ≤ (encodeArea magic tlvs).length) :
    mcubootTlvFindSha256 ((encodeArea magic tlvs).take n) = hashWithin n 4 tlvs := by
  have hlength : ((encodeArea magic tlvs).take n).length = n := List.length_take_of_le hle
  have hmagic16 : magic < 65536 := by
    obtain rfl | rfl := hmagic <;> decide
  have hfirst : getU16 0 ((encodeArea magic tlvs).take n) = magic := by
    rw [getU16_take (by omega), encodeArea, List.append_assoc]
    exact getU16_putU16 magic hmagic16 _
  have hscan : tlvScan _ n _ = _ := tlvScan_encode (putU16 magic ++ putU16 (4 + (encodeTlvs tlvs).length)) [] tlvs (by
    rw [length_encodeArea] at hle
    simpa [putU16] using hle)
  rw [mcubootTlvFindSha256, hlength, if_neg (by omega), hfirst, if_neg (by tauto), getU16_size hsize hn, Nat.min_eq_right hle,
    tlvScan_take (Nat.le_refl n)]
  rw [List.append_nil] at hscan
  rw [show (putU16 magic ++ putU16 (4 + (encodeTlvs tlvs).length)).length = 4 by simp [putU16]] at hscan
  exact hscan

theorem hashWithin_mem {bound : Nat} {tlvs : List Tlv} {hash : Blob}
    (h : hashWithin bound off tlvs = some hash) :
    ∃ tlv ∈ tlvs, tlv.isHash ∧ tlv.payload = hash := by
  induction tlvs generalizing off with
  | nil => exact absurd h (by simp [hashWithin])
  | cons tlv rest ih =>
      rw [hashWithin] at h
      split at h
      · exact absurd h (by simp)
      · split at h
        next hhash => exact ⟨tlv, List.mem_cons_self, hhash, Option.some.inj h⟩
        next =>
            obtain ⟨tlv', hmem, hfound⟩ := ih h
            exact ⟨tlv', List.mem_cons_of_mem _ hmem, hfound⟩

end Scan

section Read

variable {image : Image} {fap : FlashArea}

theorem load_of_holds {buf : Blob} {off n : Nat} {ram : Nat → UInt8} (hram : load 0 buf.length ram = buf)
    (h : off + n ≤ buf.length) : load off n ram = slice off n buf := by
  have hfirst := load_append 0 off (buf.length - off) ram
  have hsecond := load_append off n (buf.length - off - n) ram
  rw [Nat.zero_add, Nat.add_sub_cancel' (by omega), hram] at hfirst
  rw [Nat.add_sub_cancel' (by omega)] at hsecond
  rw [slice, ← hfirst, List.drop_left' (by simp), ← hsecond, List.take_left' (by simp)]

-- A read at the beginning of one of the parts of what the flash holds.
theorem flashAreaRead_part {pre part rest : Blob} {n : Nat}
    (hflash : load 0 (pre ++ (part ++ rest)).length fap.bytes = pre ++ (part ++ rest)) (hn : n ≤ part.length) :
    flashAreaRead fap pre.length n = if fap.fails pre.length n then none else some (part.take n) := by
  rw [flashAreaRead, load_of_holds hflash (by simp; omega)]
  have hpast := slice_past pre 0 n (part ++ rest)
  rw [Nat.add_zero] at hpast
  rw [hpast, slice, List.drop_zero, List.take_append_of_le_length hn]

theorem findProtected_eq (hsigned : image.Signed)
    (hflash : load 0 image.encode.length fap.bytes = image.encode) :
    findProtected fap (image.header.length + image.body.length) image.protArea.length =
      if image.prot.isEmpty ∨
          fap.fails (image.header.length + image.body.length) (min image.protArea.length 512) then none
      else hashWithin (min image.protArea.length 512) 4 image.prot := by
  rw [findProtected, ULOG_MCUBOOT_TLV_SCAN_MAX]
  by_cases hempty : image.prot.isEmpty = true
  · rw [if_neg (by simp [Image.protArea, hempty]), if_pos (.inl hempty)]
  have harea : image.protArea = encodeArea ULOG_MCUBOOT_TLV_PROT_MAGIC image.prot := if_neg hempty
  have hlength := length_encodeArea ULOG_MCUBOOT_TLV_PROT_MAGIC image.prot
  rw [← harea] at hlength
  have hsize : image.protArea.length < 65536 := by
    rw [← hsigned.protSize]
    exact getU16_lt _ _
  have hsplit : image.encode = (image.header ++ image.body) ++ (image.protArea ++ image.tlvArea) := by
    rw [Image.encode, List.append_assoc]
  rw [hsplit] at hflash
  rw [if_pos (by omega), ← List.length_append, flashAreaRead_part hflash (Nat.min_le_left _ _)]
  split
  next hfails => rw [if_pos (.inr hfails), Option.bind_none]
  next hreads =>
      rw [if_neg (not_or.mpr ⟨hempty, hreads⟩), Option.bind_some]
      rw [harea] at hsize hlength ⊢
      exact mcubootTlvFind_encode _ (.inr rfl) hsize (by omega) (Nat.min_le_left _ _)

theorem findUnprotected_eq (hsigned : image.Signed)
    (hflash : load 0 image.encode.length fap.bytes = image.encode) :
    findUnprotected fap (image.header.length + image.body.length + image.protArea.length) =
      if fap.fails (image.header.length + image.body.length + image.protArea.length) 4 ∨
          fap.fails (image.header.length + image.body.length + image.protArea.length)
            (min image.tlvArea.length 512) then none
      else hashWithin (min image.tlvArea.length 512) 4 image.tlvs := by
  have hlength := length_encodeArea ULOG_MCUBOOT_TLV_INFO_MAGIC image.tlvs
  have hsplit : image.encode = (image.header ++ (image.body ++ image.protArea)) ++ (image.tlvArea ++ []) := by
    rw [Image.encode]
    simp
  have hoff : image.header.length + image.body.length + image.protArea.length =
      (image.header ++ (image.body ++ image.protArea)).length := by
    simp
    omega
  rw [hsplit] at hflash
  rw [findUnprotected, hoff, flashAreaRead_part hflash (by rw [Image.tlvArea]; omega)]
  split
  next hfails => rw [if_pos (.inl hfails), Option.bind_none]
  next hreads =>
      have hinfo : getU16 2 (image.tlvArea.take 4) = image.tlvArea.length :=
        getU16_size hsigned.tlvSize (Nat.le_refl 4)
      rw [Option.bind_some, hinfo, ULOG_MCUBOOT_TLV_SCAN_MAX]
      dsimp only
      rw [if_pos (by rw [Image.tlvArea]; omega), flashAreaRead_part hflash (Nat.min_le_left _ _)]
      split
      next hfails => rw [if_pos (.inr hfails), Option.bind_none]
      next hread =>
          rw [if_neg (not_or.mpr ⟨hreads, hread⟩), Option.bind_some]
          exact mcubootTlvFind_encode _ (.inl rfl) hsigned.tlvSize (by rw [Image.tlvArea]; omega)
            (Nat.min_le_left _ _)

theorem bootMetadataRead_eq (hsigned : image.Signed)
    (hflash : load 0 image.encode.length fap.bytes = image.encode) (confirmed : Bool) :
    bootMetadataRead (some fap) confirmed =
      if fap.fails 0 32 then .error .nosupport
      else (image.hash fap.fails).elim (.error .nosupport) fun hash =>
        mcubootBuildEntry (image.header.take 32) hash confirmed := by
  have hheader : flashAreaRead fap 0 32 = if fap.fails 0 32 then none else some (image.header.take 32) :=
    @flashAreaRead_part _ [] _ _ _ hflash hsigned.header
  have hsize := hsigned.size
  simp only [Image.encode, List.length_append] at hsize
  rw [bootMetadataRead, hheader]
  by_cases hfails : fap.fails 0 32 = true
  · rw [if_pos hfails, if_pos hfails]
  rw [if_neg hfails, if_neg hfails]
  dsimp only
  rw [getU16_take (by decide), getU16_take (by decide), getU32, slice_take (by decide), ← getU32, hsigned.hdrSize,
    hsigned.protSize, hsigned.imgSize, Nat.mod_eq_of_lt (by omega), Nat.mod_eq_of_lt (by omega),
    findProtected_eq hsigned hflash, findUnprotected_eq hsigned hflash, ← Image.hash]
  cases image.hash fap.fails <;> rfl

theorem Image.hash_mem {fails : Nat → Nat → Bool} {hash : Blob} (h : image.hash fails = some hash) :
    ∃ tlv ∈ image.prot ++ image.tlvs, tlv.isHash ∧ tlv.payload = hash := by
  rw [Image.hash, Option.or_eq_some_iff] at h
  obtain hprot | ⟨-, htlvs⟩ := h
  · split at hprot
    · exact absurd hprot (by simp)
    · obtain ⟨tlv, hmem, hfound⟩ := hashWithin_mem hprot
      exact ⟨tlv, List.mem_append_left _ hmem, hfound⟩
  · split at htlvs
    · exact absurd htlvs (by simp)
    · obtain ⟨tlv, hmem, hfound⟩ := hashWithin_mem htlvs
      exact ⟨tlv, List.mem_append_right _ hmem, hfound⟩

-- The metadata of a signed image, whichever reads fail: an entry shows a digest that the image
-- carries, or there is none.
theorem bootMetadataRead_signed (hsigned : image.Signed)
    (hflash : load 0 image.encode.length fap.bytes = image.encode) (confirmed : Bool) :
    (bootMetadataRead (some fap) confirmed =
      if fap.fails 0 32 then .error .nosupport
      else (image.hash fap.fails).elim (.error .nosupport) fun hash =>
        mcubootBuildEntry (image.header.take 32) hash confirmed) ∧
    ∀ entry, bootMetadataRead (some fap) confirmed = .ok entry →
      ∃ tlv ∈ image.prot ++ image.tlvs, tlv.isHash ∧ entry.imageHash = readArr 32 0 tlv.payload := by
  have hread := bootMetadataRead_eq hsigned hflash confirmed
  refine ⟨hread, fun entry hentry => ?_⟩
  rw [hread] at hentry
  split at hentry
  · exact absurd hentry (by simp)
  cases hhash : image.hash fap.fails with
  | none =>
      rw [hhash] at hentry
      exact absurd hentry (by simp)
  | some hash =>
      obtain ⟨tlv, hmem, hsha, rfl⟩ := Image.hash_mem hhash
      rw [hhash, Option.elim_some, mcubootBuildEntry] at hentry
      split at hentry
      · exact absurd hentry (by simp)
      · refine ⟨tlv, hmem, hsha, ?_⟩
        rw [← Except.ok.inj hentry]

-- Version 3.2.1, one byte of code, a protected area without a digest, and a digest after a record
-- of another type.
def signedImage : Image where
  header := putU32 ULOG_MCUBOOT_IMAGE_MAGIC ++ putU32 0 ++ putU16 32 ++ putU16 12 ++ putU32 1 ++ putU32 0 ++
    [3, 2] ++ putU16 1 ++ putU32 0 ++ putU32 0
  body := [0x90]
  prot := [⟨0x50, [5, 0, 0, 0], by decide⟩]
  tlvs := [⟨1, [1, 2, 3, 4], by decide⟩, ⟨0x10, List.replicate 32 0xc0, by decide⟩]

def signedFlash : FlashArea := ⟨fun a => signedImage.encode.getD a 0xff, fun _ _ => false⟩

theorem bootMetadataRead_signed_image :
    (bootMetadataRead (some signedFlash) true =
      if signedFlash.fails 0 32 then .error .nosupport
      else (signedImage.hash signedFlash.fails).elim (.error .nosupport) fun hash =>
        mcubootBuildEntry (signedImage.header.take 32) hash true) ∧
    ∀ entry, bootMetadataRead (some signedFlash) true = .ok entry →
      ∃ tlv ∈ signedImage.prot ++ signedImage.tlvs, tlv.isHash ∧ entry.imageHash = readArr 32 0 tlv.payload :=
  bootMetadataRead_signed ⟨by decide, by decide, by decide, by decide, by decide, by decide⟩ (by decide) true

example : ((bootMetadataRead (some signedFlash) true).toOption.map fun e => (e.fwVersion 0, e.imageHash 31, e.status)) =
    some (0x33, 0xc0, ALP_UPDATE_STATUS_CONFIRMED) := by decide +kernel

end Read

end AlpSdk.UpdateLog
