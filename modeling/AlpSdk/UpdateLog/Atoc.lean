import AlpSdk.Status
import AlpSdk.Library.Bytes
import AlpSdk.Library.Checked

-- The locator of an image in the Alif ATOC package (src/update_log/boot_providers.c).
namespace AlpSdk.UpdateLog.Atoc

open Library Library.Bytes Library.Checked

def TRAILER_LEN : Nat := 16
def HDR_LEN : Nat := 0x20
def ENTRY_LEN : Nat := 0x20
def FLASH_ALIAS : Nat := 0x10000000
def CERT_MAX_KEY_CERTS : Nat := 4

-- "OEMTOC01"
def HDR_MAGIC : List UInt8 := [0x4F, 0x45, 0x4D, 0x54, 0x4F, 0x43, 0x30, 0x31]

def HDR_WORD_OFF : Nat := 8
def ENT_OBJ : Nat := 0x00
def ENT_SIZE : Nat := 0x04
def ENT_VER : Nat := 0x10
def ENT_NAME : Nat := 0x14
def CERT_MAGIC_KEY : Nat := 0x53426B63
def CERT_MAGIC_CONTENT : Nat := 0x53426363
def CERT_HDR_LEN : Nat := 0x10
def CERT_SIG_LEN : Nat := 384
def CERT_REC_OFF : Nat := 0x1B0
def CERT_REC_LEN : Nat := 44
def CERT_REC_AES_OFF : Nat := 0x1D8

def certFlagsNrec (flags : Nat) : Nat := (flags >>> 16) &&& 0xF

-- The MRAM window: `mram`, of `mram_len` bytes, at the bus address `mram_base`. A pointer into
-- it is the bus address of the byte.
structure Mram where
  bytes : List UInt8
  base : UInt32

def Mram.Holds (m : Mram) (addr n : Nat) : Prop :=
  m.base.toNat ≤ addr ∧ addr + n ≤ m.base.toNat + m.bytes.length

instance (m : Mram) (addr n : Nat) : Decidable (m.Holds addr n) := inferInstanceAs (Decidable (_ ∧ _))

-- The bytes that a pointer leads to, where they are in the window.
def Mram.at? (m : Mram) (addr n : Nat) : Option (List UInt8) :=
  if m.Holds addr n then some (slice (addr - m.base.toNat) n m.bytes) else none

def Mram.u32? (m : Mram) (addr : Nat) : Option Nat := (m.at? addr 4).map getLE

def getU32le (m : Mram) (addr : Nat) : Checked AlpError Nat := follow (m.u32? addr)

def atocView (m : Mram) (addr n : Nat) : Option Nat :=
  if addr < m.base.toNat ∨ m.bytes.length < addr - m.base.toNat ∨
      m.bytes.length - (addr - m.base.toNat) < n then none
  else some addr

-- The outputs of the locator.
structure Located where
  imgAddr : Nat
  imgLen : Nat
  certHash : List UInt8
  entryVersion : Nat

-- The loop over the entries from `ent` on.
def findEntry (m : Mram) (imageId : ByteArr 8) (ent : Nat) : (rounds : Nat) → Checked AlpError (Option Nat)
  | 0 => pure none
  | rounds + 1 => do
      let name ← follow (m.at? (ent + ENT_NAME) 8)
      if name = List.ofFn imageId then pure (some ent) else findEntry m imageId (ent + ENTRY_LEN) rounds

-- `c`, `wl` and `cert` after the loop that skips key certificates.
def skipKeyCerts (m : Mram) : (rounds : Nat) → Option Nat → (wl cert : Nat) →
    Checked AlpError (Option Nat × Nat × Nat)
  | 0, c, wl, cert => pure (c, wl, cert)
  | rounds + 1, _, _, cert =>
      match atocView m cert CERT_HDR_LEN with
      | none => fail .nosupport
      | some c => do
          let word ← getU32le m (c + 8)
          let wl := word &&& 0xFFFF
          let magic ← getU32le m c
          if magic ≠ CERT_MAGIC_KEY then pure (some c, wl, cert)
          else skipKeyCerts m rounds (some c) wl (cert + (wl * 4 + CERT_SIG_LEN))

-- The header of the table and the number of its entries.
def findTable (m : Mram) : Checked AlpError (Nat × Nat) := do
  let trailerAddr := (m.base.toNat + m.bytes.length - TRAILER_LEN) % 2 ^ 64
  let tr := m.base.toNat + (m.bytes.length - TRAILER_LEN)
  let hdrAddr ← getU32le m (tr + 4)
  let pkgStart ← getU32le m (tr + 8)
  let pkgSize ← getU32le m (tr + 12)
  let pkgEnd := pkgStart + pkgSize
  require ((atocView m pkgStart (pkgEnd - pkgStart)).isSome ∧ pkgStart ≤ hdrAddr ∧ hdrAddr < pkgEnd ∧
    hdrAddr + HDR_LEN ≤ trailerAddr) .nosupport
  let magic ← follow (m.at? hdrAddr 8)
  require (magic = HDR_MAGIC) .nosupport
  let w ← getU32le m (hdrAddr + HDR_WORD_OFF)
  let count := w >>> 16
  require (w &&& 0xFFFF = ENTRY_LEN ∧ hdrAddr + HDR_LEN + count * ENTRY_LEN ≤ trailerAddr) .nosupport
  pure (hdrAddr, count)

-- The image of the entry `ent`, once its content certificate is at `cert`.
def readImage (m : Mram) (maxLen : UInt32) (ent entSize cert wl : Nat) : Checked AlpError Located :=
  match atocView m cert (wl * 4 + CERT_SIG_LEN + 8) with
  | none => fail .nosupport
  | some c => do
      let param := c + wl * 4 + CERT_SIG_LEN
      let flash ← getU32le m param
      let len ← getU32le m (param + 4)
      let aes ← getU32le m (c + CERT_REC_AES_OFF)
      require (aes = 0 ∧ len = entSize ∧ len ≠ 0 ∧ len ≤ maxLen.toNat ∧ FLASH_ALIAS ≤ flash ∧
        (atocView m (flash - FLASH_ALIAS) len).isSome) .nosupport
      let hash ← follow (m.at? (c + CERT_REC_OFF) 32)
      let version ← getU32le m (ent + ENT_VER)
      pure { imgAddr := flash - FLASH_ALIAS, imgLen := len, certHash := hash, entryVersion := version }

def locate (m : Mram) (imageId : ByteArr 8) (maxLen : UInt32) : Checked AlpError Located := do
  require (TRAILER_LEN + HDR_LEN ≤ m.bytes.length) .nosupport
  let (hdr, count) ← findTable m
  match ← findEntry m imageId (hdr + HDR_LEN) count with
  | none => fail .nosupport
  | some ent =>
      let entSize ← getU32le m (ent + ENT_SIZE)
      let obj ← getU32le m (ent + ENT_OBJ)
      match ← skipKeyCerts m (CERT_MAX_KEY_CERTS + 1) none 0 obj with
      | (none, _, _) => fail .nosupport
      | (some c, wl, cert) =>
          let magic ← getU32le m c
          require (magic = CERT_MAGIC_CONTENT) .nosupport
          let flags ← getU32le m (c + 12)
          require (certFlagsNrec flags = 1 ∧ CERT_REC_LEN ≤ wl * 4 ∧ wl * 4 - CERT_REC_LEN = CERT_REC_OFF) .nosupport
          readImage m maxLen ent entSize cert wl

-- `ulog_alif_atoc_locate`; `out` comes back as the call leaves it, and a read outside of the
-- window has no result.
def ulogAlifAtocLocate (m : Mram) (imageId : ByteArr 8) (maxLen : UInt32) (out : Located) :
    Option (Status × Located) :=
  match locate m imageId maxLen with
  | none => none
  | some (.error err) => some (.error err, out)
  | some (.ok located) => some (.ok (), located)

-- The key certificates that are skipped on the way to another one.
inductive KeyChain (m : Mram) : (skipped : Nat) → (addr cert : Nat) → Prop where
  | here (addr : Nat) : KeyChain m 0 addr addr
  | skip {skipped addr cert word : Nat} (hplaced : m.Holds addr CERT_HDR_LEN)
      (hmagic : m.u32? addr = some CERT_MAGIC_KEY) (hword : m.u32? (addr + 8) = some word)
      (hrest : KeyChain m skipped (addr + ((word &&& 0xFFFF) * 4 + CERT_SIG_LEN)) cert) :
      KeyChain m (skipped + 1) addr cert

-- `ent` is the first entry of the table at `hdr` whose name is `imageId`.
def FirstEntry (m : Mram) (imageId : ByteArr 8) (hdr ent : Nat) : Prop :=
  ∃ w i, m.u32? (hdr + HDR_WORD_OFF) = some w ∧ i < w >>> 16 ∧ ent = hdr + HDR_LEN + i * ENTRY_LEN ∧
    m.at? (ent + ENT_NAME) 8 = some (List.ofFn imageId) ∧
    ∀ j < i, ∃ name, m.at? (hdr + HDR_LEN + j * ENTRY_LEN + ENT_NAME) 8 = some name ∧ name ≠ List.ofFn imageId

-- The certificate of an entry: a content certificate behind at most four key certificates.
def Certified (m : Mram) (ent cert : Nat) : Prop :=
  ∃ obj skipped, m.u32? (ent + ENT_OBJ) = some obj ∧ skipped ≤ CERT_MAX_KEY_CERTS ∧ KeyChain m skipped obj cert ∧
    m.u32? cert = some CERT_MAGIC_CONTENT

-- What the outputs say of the package.
structure Genuine (m : Mram) (imageId : ByteArr 8) (maxLen : UInt32) (r : Located) : Prop where
  inside : m.Holds r.imgAddr r.imgLen
  positive : 0 < r.imgLen
  bounded : r.imgLen ≤ maxLen.toNat
  origin : ∃ hdr ent cert, m.u32? (m.base.toNat + m.bytes.length - 12) = some hdr ∧ m.at? hdr 8 = some HDR_MAGIC ∧
    FirstEntry m imageId hdr ent ∧ m.u32? (ent + ENT_SIZE) = some r.imgLen ∧
    m.u32? (ent + ENT_VER) = some r.entryVersion ∧ Certified m ent cert ∧
    m.at? (cert + CERT_REC_OFF) 32 = some r.certHash

section Locate

variable {m : Mram} {imageId : ByteArr 8} {maxLen : UInt32}

theorem atocView_isSome {addr n : Nat} : (atocView m addr n).isSome ↔ m.Holds addr n := by
  unfold atocView Mram.Holds
  split
  · simp only [Option.isSome_none, Bool.false_eq_true, false_iff]
    omega
  · simp only [Option.isSome_some, true_iff]
    omega

theorem atocView_cases (m : Mram) (addr n : Nat) :
    atocView m addr n = none ∨ atocView m addr n = some addr ∧ m.Holds addr n := by
  by_cases h : m.Holds addr n
  · right
    have hsome := atocView_isSome.mpr h
    unfold atocView at hsome ⊢
    split
    · simp_all
    · exact ⟨rfl, h⟩
  · left
    rw [← atocView_isSome] at h
    simpa using h

theorem Mram.Holds.at? {addr n : Nat} (h : m.Holds addr n) :
    m.at? addr n = some (slice (addr - m.base.toNat) n m.bytes) := if_pos h

theorem Mram.Holds.within {addr n addr' n' : Nat} (h : m.Holds addr n) (hfrom : addr ≤ addr')
    (hto : addr' + n' ≤ addr + n) : m.Holds addr' n' := by
  unfold Mram.Holds at h ⊢
  omega

theorem Mram.Holds.u32? {addr : Nat} (h : m.Holds addr 4) : ∃ value, m.u32? addr = some value :=
  ⟨_, by rw [Mram.u32?, h.at?]; rfl⟩

theorem sound_getU32le {β : Type} {addr : Nat} {f : Nat → Checked AlpError β} {Q : β → Prop} (h : m.Holds addr 4)
    (hf : ∀ value, m.u32? addr = some value → Sound (f value) Q) : Sound (getU32le m addr >>= f) Q := by
  obtain ⟨value, hvalue⟩ := h.u32?
  exact sound_follow hvalue (hf value hvalue)

theorem sound_at {β : Type} {addr n : Nat} {f : List UInt8 → Checked AlpError β} {Q : β → Prop} (h : m.Holds addr n)
    (hf : ∀ bytes, m.at? addr n = some bytes → Sound (f bytes) Q) : Sound (follow (m.at? addr n) >>= f) Q :=
  sound_follow h.at? (hf _ h.at?)

-- What the loop over the entries comes back with.
theorem sound_findEntry {ent rounds : Nat} (h : m.Holds ent (rounds * ENTRY_LEN)) :
    Sound (findEntry m imageId ent rounds) fun found => ∀ e, found = some e →
      ∃ i < rounds, e = ent + i * ENTRY_LEN ∧ m.at? (e + ENT_NAME) 8 = some (List.ofFn imageId) ∧
        ∀ j < i, ∃ name, m.at? (ent + j * ENTRY_LEN + ENT_NAME) 8 = some name ∧ name ≠ List.ofFn imageId := by
  induction rounds generalizing ent with
  | zero => exact sound_pure nofun
  | succ rounds ih =>
      have hlen : (rounds + 1) * ENTRY_LEN = ENTRY_LEN + rounds * ENTRY_LEN := by rw [Nat.add_mul, Nat.one_mul, Nat.add_comm]
      rw [hlen] at h
      refine sound_at (h.within (Nat.le_add_right _ _) (by rw [ENT_NAME, ENTRY_LEN]; omega)) fun name hname => ?_
      by_cases hid : name = List.ofFn imageId
      · rw [if_pos hid]
        refine sound_pure fun e he => ?_
        obtain rfl := Option.some.inj he
        exact ⟨0, Nat.succ_pos _, by rw [Nat.zero_mul, Nat.add_zero], by rw [hname, hid], fun j hj => absurd hj (Nat.not_lt_zero j)⟩
      · rw [if_neg hid]
        refine sound_mono (ih (h.within (Nat.le_add_right _ _) (by omega))) fun found hfound e he => ?_
        obtain ⟨i, hi, hentry, hsame, hbefore⟩ := hfound e he
        refine ⟨i + 1, Nat.succ_lt_succ hi, ?_, hsame, fun j hj => ?_⟩
        · rw [hentry, Nat.add_mul, Nat.one_mul]
          omega
        · cases j with
          | zero => exact ⟨name, by rw [Nat.zero_mul, Nat.add_zero]; exact hname, hid⟩
          | succ j =>
              obtain ⟨other, hother, hdiffers⟩ := hbefore j (Nat.lt_of_succ_lt_succ hj)
              refine ⟨other, ?_, hdiffers⟩
              rw [← hother, Nat.add_mul, Nat.one_mul]
              congr 1
              omega

-- `c` after the loop: the last certificate that was looked at, past the key certificates before
-- it, or a key certificate where the rounds have run out.
theorem sound_skipKeyCerts {rounds wl cert : Nat} {c : Option Nat}
    (hc : ∀ p, c = some p → m.Holds p CERT_HDR_LEN ∧ m.u32? p = some CERT_MAGIC_KEY) :
    Sound (skipKeyCerts m rounds c wl cert) fun found => ∀ p, found.1 = some p → m.Holds p CERT_HDR_LEN ∧
      (m.u32? p = some CERT_MAGIC_KEY ∨ ∃ skipped < rounds, KeyChain m skipped cert p ∧ found.2.2 = p) := by
  induction rounds generalizing c wl cert with
  | zero => exact sound_pure fun p hp => ⟨(hc p hp).1, .inl (hc p hp).2⟩
  | succ rounds ih =>
      unfold skipKeyCerts
      rcases atocView_cases m cert CERT_HDR_LEN with hview | ⟨hview, hholds⟩
      · rw [hview]
        exact sound_fail _
      · rw [hview]
        have hbyte : ∀ i ≤ 12, m.Holds (cert + i) 4 := fun i hi =>
          hholds.within (Nat.le_add_right _ _) (by rw [CERT_HDR_LEN]; omega)
        refine sound_getU32le (hbyte 8 (by omega)) fun word hword => ?_
        refine sound_getU32le (hbyte 0 (by omega)) fun magic hmagic => ?_
        by_cases hkey : magic = CERT_MAGIC_KEY
        · rw [if_neg (not_not.mpr hkey)]
          rw [hkey] at hmagic
          refine sound_mono (ih fun p hp => ?_) fun found hfound p hp => ?_
          · obtain rfl := Option.some.inj hp
            exact ⟨hholds, hmagic⟩
          · obtain ⟨hheld, hcase⟩ := hfound p hp
            refine ⟨hheld, hcase.imp id ?_⟩
            rintro ⟨skipped, hskipped, hchain, hcert⟩
            exact ⟨skipped + 1, Nat.succ_lt_succ hskipped, .skip hholds hmagic hword hchain, hcert⟩
        · rw [if_pos hkey]
          refine sound_pure fun p hp => ?_
          obtain rfl := Option.some.inj hp
          exact ⟨hholds, .inr ⟨0, Nat.succ_pos _, .here _, rfl⟩⟩

theorem sound_findTable (hlen : TRAILER_LEN + HDR_LEN ≤ m.bytes.length) :
    Sound (findTable m) fun found => m.Holds found.1 (HDR_LEN + found.2 * ENTRY_LEN) ∧
      m.u32? (m.base.toNat + m.bytes.length - 12) = some found.1 ∧ m.at? found.1 8 = some HDR_MAGIC ∧
      ∃ w, m.u32? (found.1 + HDR_WORD_OFF) = some w ∧ found.2 = w >>> 16 := by
  simp only [TRAILER_LEN, HDR_LEN] at hlen
  have htrailer : ∀ i ≤ 12, m.Holds (m.base.toNat + (m.bytes.length - TRAILER_LEN) + i) 4 := by
    intro i hi
    simp only [Mram.Holds, TRAILER_LEN]
    omega
  have hword : m.base.toNat + (m.bytes.length - TRAILER_LEN) + 4 = m.base.toNat + m.bytes.length - 12 := by
    simp only [TRAILER_LEN]
    omega
  have hend : (m.base.toNat + m.bytes.length - TRAILER_LEN) % 2 ^ 64 ≤ m.base.toNat + m.bytes.length :=
    (Nat.mod_le _ _).trans (Nat.sub_le _ _)
  refine sound_getU32le (htrailer 4 (by omega)) fun hdrAddr hhdr => ?_
  refine sound_getU32le (htrailer 8 (by omega)) fun pkgStart _ => ?_
  refine sound_getU32le (htrailer 12 (by omega)) fun pkgSize _ => sound_require ?_
  rintro ⟨hpackage, hstart, -, hfits⟩
  have hbase := (atocView_isSome.mp hpackage).1
  have hheader : m.Holds hdrAddr HDR_LEN := ⟨hbase.trans hstart, hfits.trans hend⟩
  refine sound_at (hheader.within (Nat.le_refl _) (by simp only [HDR_LEN]; omega)) fun magic hmagic => ?_
  refine sound_require fun hgood => ?_
  have hcount : m.Holds (hdrAddr + HDR_WORD_OFF) 4 :=
    hheader.within (Nat.le_add_right _ _) (by simp only [HDR_WORD_OFF, HDR_LEN]; omega)
  refine sound_getU32le hcount fun w hw => sound_require ?_
  rintro ⟨-, hroom⟩
  refine sound_pure ⟨⟨hbase.trans hstart, ?_⟩, hword ▸ hhdr, hgood ▸ hmagic, w, hw, rfl⟩
  rw [← Nat.add_assoc]
  exact hroom.trans hend

-- The image of an entry whose content certificate has the length of one record.
theorem sound_readImage {ent entSize cert wl : Nat} (hent : m.Holds ent ENTRY_LEN)
    (hbody : wl * 4 = CERT_REC_OFF + CERT_REC_LEN) :
    Sound (readImage m maxLen ent entSize cert wl) fun r => m.Holds r.imgAddr r.imgLen ∧ 0 < r.imgLen ∧
      r.imgLen ≤ maxLen.toNat ∧ r.imgLen = entSize ∧ m.u32? (ent + ENT_VER) = some r.entryVersion ∧
      m.at? (cert + CERT_REC_OFF) 32 = some r.certHash := by
  unfold readImage
  rcases atocView_cases m cert (wl * 4 + CERT_SIG_LEN + 8) with hview | ⟨hview, hholds⟩
  · rw [hview]
    exact sound_fail _
  · rw [hview]
    simp only [CERT_REC_OFF, CERT_REC_LEN] at hbody
    have hpart : ∀ i n, i + n ≤ wl * 4 + CERT_SIG_LEN + 8 → m.Holds (cert + i) n := fun i n hi =>
      hholds.within (Nat.le_add_right _ _) (by omega)
    have hparam : m.Holds (cert + wl * 4 + CERT_SIG_LEN) 4 := by
      have h := hpart (wl * 4 + CERT_SIG_LEN) 4 (by omega)
      rwa [← Nat.add_assoc] at h
    have hlength : m.Holds (cert + wl * 4 + CERT_SIG_LEN + 4) 4 := by
      have h := hpart (wl * 4 + CERT_SIG_LEN + 4) 4 (by omega)
      rwa [← Nat.add_assoc, ← Nat.add_assoc] at h
    refine sound_getU32le hparam fun flash _ => ?_
    refine sound_getU32le hlength fun len _ => ?_
    refine sound_getU32le (hpart CERT_REC_AES_OFF 4 (by simp only [CERT_REC_AES_OFF]; omega)) fun aes _ => ?_
    refine sound_require ?_
    rintro ⟨-, hsize, hpositive, hbounded, -, himage⟩
    refine sound_at (hpart CERT_REC_OFF 32 (by simp only [CERT_REC_OFF]; omega)) fun hash hhash => ?_
    have hversion : m.Holds (ent + ENT_VER) 4 :=
      hent.within (Nat.le_add_right _ _) (by simp only [ENT_VER, ENTRY_LEN]; omega)
    refine sound_getU32le hversion fun version hver => ?_
    exact sound_pure ⟨atocView_isSome.mp himage, Nat.pos_of_ne_zero hpositive, hbounded, hsize, hver, hhash⟩

theorem sound_locate (m : Mram) (imageId : ByteArr 8) (maxLen : UInt32) :
    Sound (locate m imageId maxLen) (Genuine m imageId maxLen) := by
  refine sound_require fun hlen => ?_
  refine sound_seq (sound_findTable hlen) ?_
  rintro ⟨hdr, count⟩ ⟨htable, hhdr, hmagic, w, hw, hcount⟩
  obtain rfl := hcount
  have hentries : m.Holds (hdr + HDR_LEN) (w >>> 16 * ENTRY_LEN) :=
    htable.within (Nat.le_add_right _ _) (by dsimp only; omega)
  refine sound_seq (sound_findEntry hentries) fun found hfound => ?_
  cases found with
  | none => exact sound_fail _
  | some ent =>
      obtain ⟨i, hi, hentry, hname, hbefore⟩ := hfound ent rfl
      have hent : m.Holds ent ENTRY_LEN := by
        have hmul : i * ENTRY_LEN + ENTRY_LEN ≤ w >>> 16 * ENTRY_LEN := by
          rw [← Nat.succ_mul]
          exact Nat.mul_le_mul_right _ hi
        rw [hentry]
        exact hentries.within (Nat.le_add_right _ _) (by omega)
      have hfield : ∀ i ≤ 4, m.Holds (ent + i) 4 := fun i hi =>
        hent.within (Nat.le_add_right _ _) (by simp only [ENTRY_LEN]; omega)
      refine sound_getU32le (hfield ENT_SIZE (by decide)) fun entSize hsize => ?_
      refine sound_getU32le (hfield ENT_OBJ (by decide)) fun obj hobj => ?_
      refine sound_seq (sound_skipKeyCerts (c := none) nofun) ?_
      rintro ⟨c, wl, cert⟩ hskip
      cases c with
      | none => exact sound_fail _
      | some c =>
          obtain ⟨hheld, hcase⟩ := hskip c rfl
          have hpart : ∀ i ≤ 12, m.Holds (c + i) 4 := fun i hi =>
            hheld.within (Nat.le_add_right _ _) (by simp only [CERT_HDR_LEN]; omega)
          refine sound_getU32le (hpart 0 (by omega)) fun magic hcontent => sound_require fun hmagic' => ?_
          obtain rfl := hmagic'
          refine sound_getU32le (hpart 12 (by omega)) fun flags _ => sound_require ?_
          rintro ⟨-, hrecord, hbody⟩
          obtain hkey | ⟨skipped, hskipped, hchain, hcert⟩ := hcase
          · cases hkey.symm.trans hcontent
          · obtain rfl : cert = c := hcert
            refine sound_mono (sound_readImage hent (by omega)) ?_
            rintro r ⟨himage, hpositive, hbounded, hlength, hversion, hhash⟩
            refine ⟨himage, hpositive, hbounded, hdr, ent, cert, hhdr, hmagic, ?_, hlength ▸ hsize, hversion, ?_, hhash⟩
            · exact ⟨w, i, hw, hi, hentry, hname, hbefore⟩
            · exact ⟨obj, skipped, hobj, Nat.le_of_lt_succ hskipped, hchain, hcontent⟩

theorem atoc_locate_sound (m : Mram) (imageId : ByteArr 8) (maxLen : UInt32) (out : Located) :
    ∃ s out', ulogAlifAtocLocate m imageId maxLen out = some (s, out') ∧
      (s = .ok () → Genuine m imageId maxLen out') ∧ (s ≠ .ok () → out' = out) := by
  unfold ulogAlifAtocLocate
  rcases sound_cases (sound_locate m imageId maxLen) with ⟨err, herror⟩ | ⟨located, hok, hgenuine⟩
  · rw [herror]
    exact ⟨.error err, out, rfl, nofun, fun _ => rfl⟩
  · rw [hok]
    exact ⟨.ok (), located, rfl, fun _ => hgenuine, fun h => absurd rfl h⟩

end Locate

-- An image of four bytes, its certificate, a table of one entry and the trailer.
def smallPackage : List UInt8 :=
  let word := putLE 4
  let zeros (n : Nat) := List.replicate n (0 : UInt8)
  let cert := word CERT_MAGIC_CONTENT ++ zeros 4 ++ word 0x77 ++ word 0x10000 ++ zeros 416 ++
    List.replicate 32 0xAB ++ zeros 12 ++ zeros CERT_SIG_LEN ++ word (0x80000000 + FLASH_ALIAS) ++ word 4
  let table := HDR_MAGIC ++ word 0x10020 ++ zeros 20 ++ word 0x80000004 ++ word 4 ++ zeros 8 ++ word 7 ++
    List.replicate 8 0x41 ++ zeros 4
  zeros 4 ++ cert ++ table ++ zeros 4 ++ word (0x80000004 + cert.length) ++ word 0x80000000 ++ word 900

example : (ulogAlifAtocLocate ⟨smallPackage, 0x80000000⟩ (fun _ => 0x41) 4096 ⟨0, 0, [], 0⟩).map
    (fun r => (r.1, r.2.imgAddr, r.2.imgLen, r.2.certHash, r.2.entryVersion)) =
      some (.ok (), 0x80000000, 4, List.replicate 32 0xAB, 7) := by decide +kernel

end AlpSdk.UpdateLog.Atoc
