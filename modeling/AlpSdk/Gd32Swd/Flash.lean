import Mathlib.Data.List.GetD
import AlpSdk.Gd32Swd.Fmc

-- What the flash operations do to the flash.
namespace AlpSdk.Gd32Swd

open Library.Local
open Library.Effect (Exec exec_of_run)

variable {c : Ctx} {t : Target Fmc}

theorem flashing_keyr : Flashing FMC_REG_KEYR := Or.inl rfl

theorem flashing_sr : Flashing FMC_REG_SR := Or.inr (Or.inl rfl)

theorem flashing_cr : Flashing FMC_REG_CR := Or.inr (Or.inr (Or.inl rfl))

section Erasing

def pnb (n : ℕ) : UInt32 :=
  FMC_CR_PER ||| ((UInt32.ofNat n <<< FMC_CR_PNB_SHIFT) &&& FMC_CR_PNB_MASK)

-- The two commands of an erase: of the page number the field keeps seven bits.
theorem pnb_commands : ∀ n < 256,
    (pnb n &&& FMC_CR_LOCK = 0 ∧ pnb n &&& FMC_CR_STRT = 0) ∧
      (pnb n ||| FMC_CR_STRT) &&& FMC_CR_LOCK = 0 ∧ (pnb n ||| FMC_CR_STRT) &&& FMC_CR_PER ≠ 0 ∧
      (pnb n ||| FMC_CR_STRT) &&& FMC_CR_STRT ≠ 0 ∧
      ((pnb n ||| FMC_CR_STRT) >>> FMC_CR_PNB_SHIFT).toNat % Fmc.PAGES = n % 128 := by
  decide +kernel

theorem up_control {P : UInt32 → Prop} (hP : P FMC_REG_CR) (hup : Up c t) (hidle : t.memory.busy = 0)
    (hlocked : t.memory.locked = false) (value : UInt32) (hlock : value &&& FMC_CR_LOCK = 0)
    {Q : Status → Ctx → Target Fmc → Prop}
    (h : ∀ c' t', Up c' t' → t'.memory = (if value &&& FMC_CR_PER ≠ 0 ∧ value &&& FMC_CR_STRT ≠ 0 then
        ({ t.memory with cr := value }.erasePage ((value >>> FMC_CR_PNB_SHIFT).toNat % Fmc.PAGES)).start
      else { t.memory with cr := value }) → Touches P t t' → Q (.ok ()) c' t') :
    Does Fmc.bus (swdMemWrite32 FMC_REG_CR value) Q c t := by
  apply up_swdMemWrite32 hup FMC_REG_CR value hP
  intro c' t' hup' hmemory htouch
  refine h c' t' hup' (hmemory.trans ?_) htouch
  show Fmc.write t.memory FMC_REG_CR value = _
  unfold Fmc.write
  rw [if_neg (by decide), if_pos rfl]
  unfold Fmc.control
  rw [if_neg (by simp [hidle, hlocked]), if_neg (not_not.mpr hlock)]

-- The sectors from the `n`-th on, by the pages the controller erases for them.
theorem up_eraseSectors (hup : Up c t) (hidle : t.memory.Idle) (hlocked : t.memory.locked = false)
    (count n : ℕ) (hn : n + count ≤ 256) {Q : Status → Ctx → Target Fmc → Prop}
    (h : ∀ c' t', Up c' t' → t'.memory.Idle →
      t'.memory.erased = t.memory.erased ++ (List.range' n count).map (· % 128) →
      (t'.memory.flash = fun o => if o / 2048 ∈ (List.range' n count).map (· % 128) then 0xFF
        else t.memory.flash o) →
      Touches Flashing t t' → Q (.ok ()) c' t') :
    Does Fmc.bus (eraseSectors count (UInt32.ofNat n)) Q c t := by
  induction count generalizing c t n with
  | zero =>
      apply up_fmcLock flashing_cr hup hidle.idle hlocked
      intro c' t' hup' hmemory htouch
      refine h c' t' hup' ?_ ?_ ?_ htouch
      · rw [hmemory]
        exact ⟨hidle.idle, hidle.delays⟩
      · rw [hmemory]
        simp
      · rw [hmemory]
        simp
  | succ count ih =>
      obtain ⟨⟨hlock, hstrt⟩, hlock', hper', hstrt', hpage⟩ := pnb_commands n (by omega)
      rw [eraseSectors]
      unfold orLock
      apply wp_bind
      apply up_fmcBusyLoop flashing_sr hup 16384 (by rw [hidle.idle]; omega)
      intro c₁ t₁ hup₁ hmemory₁ htouch₁
      apply wp_bind
      apply up_control flashing_cr hup₁ (by rw [hmemory₁]) (by rw [hmemory₁]; exact hlocked) _ hlock
      intro c₂ t₂ hup₂ hmemory₂ htouch₂
      rw [if_neg (by rintro ⟨-, hset⟩; exact hset hstrt), hmemory₁] at hmemory₂
      apply wp_bind
      apply up_control flashing_cr hup₂ (by rw [hmemory₂]) (by rw [hmemory₂]; exact hlocked) _ hlock'
      intro c₃ t₃ hup₃ hmemory₃ htouch₃
      rw [if_pos ⟨hper', hstrt'⟩, hmemory₂, hpage] at hmemory₃
      apply wp_bind
      apply up_fmcBusyLoop flashing_sr hup₃ 16384 (by rw [hmemory₃]; exact hidle.delays 0)
      intro c₄ t₄ hup₄ hmemory₄ htouch₄
      rw [hmemory₃] at hmemory₄
      have hnext : UInt32.ofNat n + 1 = UInt32.ofNat (n + 1) := by
        rw [UInt32.ofNat_add]
        rfl
      rw [hnext]
      apply ih hup₄ (by rw [hmemory₄]; exact ⟨rfl, fun k => hidle.delays (k + 1)⟩)
        (by rw [hmemory₄]; exact hlocked) (n + 1) (by omega)
      intro c₅ t₅ hup₅ hidle₅ herased hflash htouch₅
      refine h c₅ t₅ hup₅ hidle₅ ?_ ?_
        (htouch₁.trans (htouch₂.trans (htouch₃.trans (htouch₄.trans htouch₅))))
      · rw [herased, hmemory₄]
        simp [Fmc.start, Fmc.erasePage, List.range'_succ]
      · rw [hflash, hmemory₄]
        funext o
        have hsector : FMC_SECTOR_BYTES.toNat = 2048 := rfl
        simp only [Fmc.start, Fmc.erasePage, List.range'_succ, List.map_cons, List.mem_cons, hsector]
        by_cases hlater : o / 2048 ∈ (List.range' (n + 1) count).map (· % 128)
        · rw [if_pos hlater, if_pos (Or.inr hlater)]
        · rw [if_neg hlater]
          simp [hlater]

-- The page holds a byte of the range.
def Intersects (offset size page : ℕ) : Prop := ∃ o, offset ≤ o ∧ o < offset + size ∧ o / 2048 = page

-- Exactly these pages, each once.
def EachOnce (pages : List ℕ) (offset size : ℕ) : Prop :=
  pages.Nodup ∧ ∀ page, page ∈ pages ↔ Intersects offset size page

def sectors (offset size : ℕ) : List ℕ :=
  List.range' (offset / 2048) ((offset + size + 2047) / 2048 - offset / 2048)

theorem sectors_eachOnce {offset size : ℕ} (hsize : 0 < size) : EachOnce (sectors offset size) offset size := by
  refine ⟨List.nodup_range', fun page => ?_⟩
  unfold sectors
  rw [List.mem_range'_1]
  constructor
  · rintro ⟨hfirst, hlast⟩
    by_cases hinside : offset ≤ 2048 * page
    · exact ⟨2048 * page, hinside, by omega, by omega⟩
    · exact ⟨offset, le_refl _, by omega, by omega⟩
  · rintro ⟨o, hfirst, hlast, rfl⟩
    omega

-- The erased pages are those of the range where all of them have numbers of seven bits.
theorem aliased_eachOnce {offset size : ℕ} (hsize : 0 < size) :
    EachOnce ((sectors offset size).map (· % 128)) offset size ↔ offset + size ≤ 0x40000 := by
  constructor
  · rintro ⟨-, hpages⟩
    have hlast : Intersects offset size ((offset + size - 1) / 2048) :=
      ⟨offset + size - 1, by omega, by omega, rfl⟩
    obtain ⟨sector, -, hsector⟩ := List.mem_map.mp ((hpages _).mpr hlast)
    omega
  · intro hlow
    have hsame : (sectors offset size).map (· % 128) = sectors offset size := by
      conv_rhs => rw [← List.map_id (sectors offset size)]
      apply List.map_congr_left
      intro sector hsector
      unfold sectors at hsector
      rw [List.mem_range'_1] at hsector
      exact Nat.mod_eq_of_lt (by omega)
    rw [hsame]
    exact sectors_eachOnce hsize

theorem up_flashErase (hup : Up c t) (hidle : t.memory.Idle) (addr size : UInt32)
    (hvalid : flashRangeValid addr size.toNat = true) {Q : Status → Ctx → Target Fmc → Prop}
    (h : ∀ c' t', Up c' t' → t'.memory.Idle →
      t'.memory.erased = t.memory.erased ++ (sectors (Fmc.offsetOf addr) size.toNat).map (· % 128) →
      (t'.memory.flash = fun o =>
        if o / 2048 ∈ (sectors (Fmc.offsetOf addr) size.toNat).map (· % 128) then 0xFF
        else t.memory.flash o) →
      Touches Flashing t t' → Q (.ok ()) c' t') :
    Does Fmc.bus (flashErase addr size) Q c t := by
  obtain ⟨hsize, hlow, hhigh⟩ := (flashRangeValid_iff _ _).mp hvalid
  have hoffset : Fmc.offsetOf addr = addr.toNat - 0x08000000 :=
    toNat_offset (by rw [UInt32.le_iff_toNat_le]; exact hlow)
  have hsector : FMC_SECTOR_BYTES.toNat = 2048 := rfl
  have hfirst : ((addr - FMC_FLASH_BASE) / FMC_SECTOR_BYTES).toNat = Fmc.offsetOf addr / 2048 := by
    rw [UInt32.toNat_div, hsector]
    rfl
  have hend : ((addr - FMC_FLASH_BASE + size + FMC_SECTOR_BYTES - 1) / FMC_SECTOR_BYTES).toNat =
      (Fmc.offsetOf addr + size.toNat + 2047) / 2048 := by
    have hone : (1 : UInt32).toNat = 1 := rfl
    have hstart : (addr - FMC_FLASH_BASE).toNat = Fmc.offsetOf addr := rfl
    have hsum : (addr - FMC_FLASH_BASE + size).toNat = Fmc.offsetOf addr + size.toNat := by
      rw [UInt32.toNat_add, hstart]
      omega
    have hround : (addr - FMC_FLASH_BASE + size + FMC_SECTOR_BYTES).toNat =
        Fmc.offsetOf addr + size.toNat + 2048 := by
      rw [UInt32.toNat_add, hsum, hsector]
      omega
    rw [UInt32.toNat_div, hsector, UInt32.toNat_sub_of_le _ _ (by rw [UInt32.le_iff_toNat_le, hround]; omega), hround]
    rfl
  unfold flashErase inSession
  apply wp_get_bind
  rw [if_neg (by simp [hup.initialised]), if_neg (by simp [hup.connected]), if_neg (by simp [hvalid])]
  apply wp_bind
  apply up_fmcUnlock flashing_keyr hup
  intro c₁ t₁ hup₁ hmemory₁ htouch₁
  have hstartSector : (addr - FMC_FLASH_BASE) / FMC_SECTOR_BYTES = UInt32.ofNat (Fmc.offsetOf addr / 2048) := by
    rw [← hfirst, UInt32.ofNat_toNat]
  have hcount : ((addr - FMC_FLASH_BASE + size + FMC_SECTOR_BYTES - 1) / FMC_SECTOR_BYTES -
      (addr - FMC_FLASH_BASE) / FMC_SECTOR_BYTES).toNat =
      (Fmc.offsetOf addr + size.toNat + 2047) / 2048 - Fmc.offsetOf addr / 2048 := by
    rw [UInt32.toNat_sub_of_le _ _ (by rw [UInt32.le_iff_toNat_le, hfirst, hend]; omega), hfirst, hend]
  simp only [hcount]
  rw [hstartSector]
  apply up_eraseSectors hup₁ (by rw [hmemory₁]; exact ⟨hidle.idle, hidle.delays⟩) (by rw [hmemory₁]) _ _ (by omega)
  intro c₂ t₂ hup₂ hidle₂ herased hflash htouch₂
  refine h c₂ t₂ hup₂ hidle₂ ?_ ?_ (htouch₁.trans htouch₂)
  · rw [herased, hmemory₁]
    rfl
  · rw [hflash, hmemory₁]
    rfl

end Erasing

section Programming

theorem inFlash_not_register {addr : UInt32} (h : inFlash addr) :
    addr ≠ FMC_REG_KEYR ∧ addr ≠ FMC_REG_CR ∧ addr ≠ FMC_REG_SR := by
  have hhigh := ((inFlash_iff addr).mp h).2
  refine ⟨?_, ?_, ?_⟩ <;> rintro rfl <;> exact absurd hhigh (by decide)

theorem overlay_append (flash : ℕ → UInt8) (offset : ℕ) (first rest : List UInt8) :
    Fmc.overlay (Fmc.overlay flash offset first) (offset + first.length) rest =
      Fmc.overlay flash offset (first ++ rest) := by
  funext o
  unfold Fmc.overlay
  rw [List.length_append]
  by_cases hfirst : offset ≤ o ∧ o < offset + first.length
  · rw [if_neg (by omega), if_pos hfirst, if_pos (by omega), List.getD_append _ _ _ _ (by omega)]
  · rw [if_neg hfirst]
    by_cases hrest : offset + first.length ≤ o ∧ o < offset + first.length + rest.length
    · rw [if_pos hrest, if_pos (by omega), List.getD_append_right _ _ _ _ (by omega), Nat.sub_sub]
    · rw [if_neg hrest, if_neg (by omega)]

-- The doublewords of the image, one after the other.
def image : ℕ → List UInt8 → List UInt8
  | 0, _ => []
  | count + 1, data => doubleword data ++ image count (data.drop 8)

theorem length_doubleword (data : List UInt8) : (doubleword data).length = 8 := by
  unfold doubleword
  simp

theorem putLE_wordAt {bytes : List UInt8} (h : (bytes.take 4).length = 4) :
    Library.Bytes.putLE 4 (wordAt bytes).toNat = bytes.take 4 := by
  have hlt := Library.Bytes.getLE_lt (bytes.take 4)
  rw [h] at hlt
  have hword : (wordAt bytes).toNat = Library.Bytes.getLE (bytes.take 4) := UInt32.toNat_ofNat_of_lt' hlt
  have hbytes := Library.Bytes.putLE_getLE (bytes.take 4)
  rw [h] at hbytes
  rw [hword, hbytes]

theorem doubleword_halves (data : List UInt8) :
    Library.Bytes.putLE 4 (wordAt (doubleword data)).toNat ++
      Library.Bytes.putLE 4 (wordAt ((doubleword data).drop 4)).toNat = doubleword data := by
  have hlength := length_doubleword data
  rw [putLE_wordAt (by rw [List.length_take]; omega), putLE_wordAt (by rw [List.length_take, List.length_drop]; omega)]
  have hdrop : ((doubleword data).drop 4).take 4 = (doubleword data).drop 4 :=
    List.take_of_length_le (by rw [List.length_drop]; omega)
  rw [hdrop, List.take_append_drop]

theorem up_program {P : UInt32 → Prop} (hup : Up c t) (addr value : UInt32) (haddr : inFlash addr) (hP : P addr)
    {Q : Status → Ctx → Target Fmc → Prop}
    (h : ∀ c' t', Up c' t' → t'.memory = t.memory.program addr value → Touches P t t' → Q (.ok ()) c' t') :
    Does Fmc.bus (swdMemWrite32 addr value) Q c t := by
  obtain ⟨hkeyr, hcr, -⟩ := inFlash_not_register haddr
  apply up_swdMemWrite32 hup addr value hP
  intro c' t' hup' hmemory htouch
  refine h c' t' hup' (hmemory.trans ?_) htouch
  show Fmc.write t.memory addr value = _
  unfold Fmc.write
  rw [if_neg hkeyr, if_neg hcr, if_pos haddr]

theorem up_writeDoublewords (hup : Up c t) (hidle : t.memory.Idle) (hlocked : t.memory.locked = false)
    (hpg : t.memory.cr &&& FMC_CR_PG ≠ 0) (count : ℕ) (addr : UInt32) (data : List UInt8)
    (halign : addr.toNat % 8 = 0) (hlow : 0x08000000 ≤ addr.toNat)
    (hhigh : addr.toNat + 8 * count ≤ 0x08080000) {Q : Status → Ctx → Target Fmc → Prop}
    (h : ∀ c' t', Up c' t' → t'.memory.Idle →
      t'.memory.flash = Fmc.overlay t.memory.flash (addr.toNat - 0x08000000) (image count data) →
      Touches Flashing t t' → Q (.ok ()) c' t') :
    Does Fmc.bus (writeDoublewords count addr data) Q c t := by
  induction count generalizing c t addr data with
  | zero =>
      rw [writeDoublewords]
      apply wp_bind
      apply up_control flashing_cr hup hidle.idle hlocked 0 (by decide)
      intro c₁ t₁ hup₁ hmemory₁ htouch₁
      rw [if_neg (by decide)] at hmemory₁
      apply up_fmcLock flashing_cr hup₁ (by rw [hmemory₁]; exact hidle.idle) (by rw [hmemory₁]; exact hlocked)
      intro c₂ t₂ hup₂ hmemory₂ htouch₂
      refine h c₂ t₂ hup₂ ?_ ?_ (htouch₁.trans htouch₂)
      · rw [hmemory₂, hmemory₁]
        exact ⟨hidle.idle, hidle.delays⟩
      · rw [hmemory₂, hmemory₁]
        funext o
        rw [Fmc.overlay, image, if_neg (by simp)]
  | succ count ih =>
      have hflash : inFlash addr := (inFlash_iff addr).mpr ⟨hlow, by omega⟩
      have hfour : (addr + 4).toNat = addr.toNat + 4 := by
        rw [UInt32.toNat_add]
        have : (4 : UInt32).toNat = 4 := rfl
        omega
      have height : (addr + 8).toNat = addr.toNat + 8 := by
        rw [UInt32.toNat_add]
        have : (8 : UInt32).toNat = 8 := rfl
        omega
      have hflash' : inFlash (addr + 4) := (inFlash_iff _).mpr ⟨by omega, by omega⟩
      have hoffset : Fmc.offsetOf addr = addr.toNat - 0x08000000 := toNat_offset hflash.1
      have hoffset' : Fmc.offsetOf (addr + 4) = addr.toNat + 4 - 0x08000000 := by
        rw [← hfour]
        exact toNat_offset hflash'.1
      rw [writeDoublewords]
      unfold orLock
      apply wp_bind
      apply up_program hup addr _ hflash (show Flashing addr from Or.inr (Or.inr (Or.inr hflash)))
      intro c₁ t₁ hup₁ hmemory₁ htouch₁
      rw [Fmc.program, if_neg (by simp [hidle.idle, hlocked, hpg]), if_pos (by omega)] at hmemory₁
      apply wp_bind
      apply up_program hup₁ (addr + 4) _ hflash' (show Flashing (addr + 4) from Or.inr (Or.inr (Or.inr hflash')))
      intro c₂ t₂ hup₂ hmemory₂ htouch₂
      rw [hmemory₁, Fmc.program, if_neg (by simp [hidle.idle, hlocked, hpg]), if_neg (by omega)] at hmemory₂
      simp only [if_pos, doubleword_halves] at hmemory₂
      apply wp_bind
      apply up_fmcBusyLoop flashing_sr hup₂ 16384 (by rw [hmemory₂]; exact hidle.delays 0)
      intro c₃ t₃ hup₃ hmemory₃ htouch₃
      rw [hmemory₂] at hmemory₃
      apply ih hup₃ (by rw [hmemory₃]; exact ⟨rfl, fun k => hidle.delays (k + 1)⟩)
        (by rw [hmemory₃]; exact hlocked) (by rw [hmemory₃]; exact hpg) (addr + 8) (data.drop 8)
        (by omega) (by omega) (by omega)
      intro c₄ t₄ hup₄ hidle₄ hflash₄ htouch₄
      refine h c₄ t₄ hup₄ hidle₄ ?_ (htouch₁.trans (htouch₂.trans (htouch₃.trans htouch₄)))
      have hnext : addr.toNat + 8 - 0x08000000 = addr.toNat - 0x08000000 + 8 := by omega
      have hprogrammed : t₃.memory.flash =
          Fmc.overlay t.memory.flash (addr.toNat - 0x08000000) (doubleword data) := by
        rw [hmemory₃, ← hoffset]
        rfl
      rw [hflash₄, hprogrammed, image, ← overlay_append, length_doubleword, height, hnext]

-- The image is the data, filled up to the end of a doubleword.
theorem image_eq {count : ℕ} {data : List UInt8} (henough : data.length ≤ 8 * count)
    (htight : 8 * count < data.length + 8) :
    image count data = data ++ List.replicate (8 * count - data.length) 0xFF := by
  induction count generalizing data with
  | zero =>
      obtain rfl : data = [] := List.length_eq_zero_iff.mp (by omega)
      rfl
  | succ count ih =>
      rw [image, doubleword, List.length_take]
      by_cases hfull : 8 ≤ data.length
      · rw [ih (by rw [List.length_drop]; omega) (by rw [List.length_drop]; omega), List.length_drop,
          Nat.min_eq_left hfull, Nat.sub_self, List.replicate_zero, List.append_nil, ← List.append_assoc,
          List.take_append_drop]
        congr 2
        omega
      · obtain rfl : count = 0 := by omega
        rw [image, List.append_nil, Nat.min_eq_right (by omega), List.take_of_length_le (by omega)]

theorem align_iff (addr : UInt32) : addr &&& 0x7 = 0 ↔ addr.toNat % 8 = 0 := by
  rw [← UInt32.toNat_inj, UInt32.toNat_and]
  have hmask := Nat.and_two_pow_sub_one_eq_mod addr.toNat 3
  exact Iff.of_eq (congrArg (· = 0) hmask)

theorem up_flashWrite (hup : Up c t) (hidle : t.memory.Idle) (addr : UInt32) (data : List UInt8)
    (halign : addr &&& 0x7 = 0) (hvalid : flashRangeValid addr data.length = true)
    {Q : Status → Ctx → Target Fmc → Prop}
    (h : ∀ c' t', Up c' t' → t'.memory.Idle →
      t'.memory.flash = Fmc.overlay t.memory.flash (addr.toNat - 0x08000000)
        (data ++ List.replicate (8 * ((data.length + 7) / 8) - data.length) 0xFF) →
      Touches Flashing t t' → Q (.ok ()) c' t') :
    Does Fmc.bus (flashWrite addr data) Q c t := by
  obtain ⟨hlen, hlow, hhigh⟩ := (flashRangeValid_iff _ _).mp hvalid
  have haligned := (align_iff addr).mp halign
  have hne : data ≠ [] := List.length_pos_iff.mp hlen
  unfold flashWrite inSession
  apply wp_get_bind
  rw [if_neg (by simp [hup.initialised]), if_neg (by simp [hup.connected]),
    if_neg (by simp [hne, halign, hvalid])]
  apply wp_bind
  apply up_fmcUnlock flashing_keyr hup
  intro c₁ t₁ hup₁ hmemory₁ htouch₁
  unfold orLock
  apply wp_bind
  apply up_control flashing_cr hup₁ (by rw [hmemory₁]; exact hidle.idle) (by rw [hmemory₁]) _ (by decide)
  intro c₂ t₂ hup₂ hmemory₂ htouch₂
  rw [if_neg (by decide), hmemory₁] at hmemory₂
  apply up_writeDoublewords hup₂ (by rw [hmemory₂]; exact ⟨hidle.idle, hidle.delays⟩) (by rw [hmemory₂])
    (by rw [hmemory₂]; exact (by decide : FMC_CR_PG &&& FMC_CR_PG ≠ 0)) _ addr data haligned hlow (by omega)
  intro c₃ t₃ hup₃ hidle₃ hflash₃ htouch₃
  refine h c₃ t₃ hup₃ hidle₃ ?_ (htouch₁.trans (htouch₂.trans htouch₃))
  rw [hflash₃, image_eq (by omega) (by omega), hmemory₂]

end Programming

section Verifying

theorem fmc_steady : Fmc.bus.Steady := by
  intro m addr haddr
  obtain ⟨-, hcr, hsr⟩ := inFlash_not_register haddr
  show (Fmc.read m addr).2 = m
  unfold Fmc.read
  rw [if_neg hsr, if_neg hcr, if_pos haddr]

theorem fmc_read_flash {m : Fmc} {addr : UInt32} (haddr : inFlash addr) :
    (Fmc.bus.read m addr).1 = Fmc.wordIn m.flash (Fmc.offsetOf addr) := by
  obtain ⟨-, hcr, hsr⟩ := inFlash_not_register haddr
  show (Fmc.read m addr).1 = _
  unfold Fmc.read
  rw [if_neg hsr, if_neg hcr, if_pos haddr]

theorem up_verifyWords {M : Type} {bus : Bus M} {t : Target M} (hup : Up c t) (hsteady : bus.Steady) (count : ℕ)
    (addr : UInt32) (data : List UInt8) (hrange : ∀ i < count, inFlash (addr + 4 * UInt32.ofNat i))
    (hmatch : ∀ i < count, Matches (bus.read t.memory (addr + 4 * UInt32.ofNat i)).1 (data.drop (4 * i)))
    {Q : Status → Ctx → Target M → Prop}
    (h : ∀ c' t', Up c' t' → t'.memory = t.memory → Touches inFlash t t' → Q (.ok ()) c' t') :
    Does bus (verifyWords count addr data) Q c t := by
  induction count generalizing c t addr data with
  | zero => exact wp_pure trivial (h c t hup rfl (Touches.none t))
  | succ count ih =>
      have hfirst : inFlash addr := by simpa using hrange 0 (by omega)
      have hword : Matches (bus.read t.memory addr).1 data := by simpa using hmatch 0 (by omega)
      have hnext (i : ℕ) : addr + 4 + 4 * UInt32.ofNat i = addr + 4 * UInt32.ofNat (i + 1) := by
        rw [UInt32.ofNat_add]
        grind
      rw [verifyWords]
      apply wp_bind
      apply up_swdMemRead32 hup addr hfirst
      intro c₁ t₁ hup₁ hmemory₁ htouch₁
      rw [hsteady _ _ hfirst] at hmemory₁
      unfold Matches at hword
      simp only [if_neg (not_not.mpr hword)]
      apply ih hup₁ (addr + 4) (data.drop 4)
      · intro i hi
        rw [hnext]
        exact hrange (i + 1) (by omega)
      · intro i hi
        rw [hmemory₁, hnext, List.drop_drop, show 4 + 4 * i = 4 * (i + 1) by omega]
        exact hmatch (i + 1) (by omega)
      · intro c₂ t₂ hup₂ hmemory₂ htouch₂
        exact h c₂ t₂ hup₂ (hmemory₂.trans hmemory₁) (htouch₁.trans htouch₂)

theorem wordIn_overlay (flash : ℕ → UInt8) (offset : ℕ) {bytes : List UInt8} {k : ℕ} (h : k + 4 ≤ bytes.length) :
    Fmc.wordIn (Fmc.overlay flash offset bytes) (offset + k) = wordAt (bytes.drop k) := by
  have hbyte (j : ℕ) (hj : j < 4) :
      Fmc.overlay flash offset bytes (offset + k + j) = (bytes.drop k).getD j 0xFF := by
    rw [Fmc.overlay, if_pos (by omega), List.getD_eq_getElem?_getD, List.getD_eq_getElem?_getD, List.getElem?_drop,
      show offset + k + j - offset = k + j by omega]
  have hlength : 4 ≤ (bytes.drop k).length := by
    rw [List.length_drop]
    omega
  generalize bytes.drop k = tail at hbyte hlength
  match tail with
  | b₀ :: b₁ :: b₂ :: b₃ :: rest =>
      have h₀ : Fmc.overlay flash offset bytes (offset + k) = b₀ := hbyte 0 (by omega)
      have h₁ : Fmc.overlay flash offset bytes (offset + k + 1) = b₁ := hbyte 1 (by omega)
      have h₂ : Fmc.overlay flash offset bytes (offset + k + 2) = b₂ := hbyte 2 (by omega)
      have h₃ : Fmc.overlay flash offset bytes (offset + k + 3) = b₃ := hbyte 3 (by omega)
      rw [Fmc.wordIn, h₀, h₁, h₂, h₃]
      rfl

-- A word of the image matches the data it is of.
theorem matches_image {data fill : List UInt8} (h : 4 ≤ (data ++ fill).length) :
    Matches (wordAt (data ++ fill)) data := by
  unfold Matches
  rw [putLE_wordAt (by rw [List.length_take]; omega), List.take_take, Nat.min_eq_left (by rw [List.length_take]; omega),
    List.take_append_of_le_length (by rw [List.length_take]; omega), List.length_take]
  rcases Nat.le_total 4 data.length with hlong | hshort
  · rw [Nat.min_eq_left hlong]
  · rw [Nat.min_eq_right hshort, List.take_of_length_le (le_refl _), List.take_of_length_le hshort]

theorem up_flashVerify (hup : Up c t) (addr : UInt32) (data fill : List UInt8) (flash : ℕ → UInt8)
    (halign : addr &&& 0x7 = 0) (hvalid : flashRangeValid addr data.length = true)
    (hfill : (data ++ fill).length = 8 * ((data.length + 7) / 8))
    (hflash : t.memory.flash = Fmc.overlay flash (addr.toNat - 0x08000000) (data ++ fill))
    {Q : Status → Ctx → Target Fmc → Prop}
    (h : ∀ c' t', Up c' t' → t'.memory = t.memory → Touches inFlash t t' → Q (.ok ()) c' t') :
    Does Fmc.bus (flashVerify addr data) Q c t := by
  obtain ⟨hlen, hlow, hhigh⟩ := (flashRangeValid_iff _ _).mp hvalid
  have haligned := (align_iff addr).mp halign
  have hne : data ≠ [] := List.length_pos_iff.mp hlen
  have halign' : addr &&& 0x3 = 0 := by
    rw [← UInt32.toNat_inj, UInt32.toNat_and]
    have hmask : addr.toNat &&& 3 = addr.toNat % 4 := Nat.and_two_pow_sub_one_eq_mod addr.toNat 2
    show addr.toNat &&& 3 = 0
    omega
  have hwords : ∀ i < (data.length + 3) / 4, inFlash (addr + 4 * UInt32.ofNat i) := by
    intro i hi
    rw [inFlash_iff, toNat_wordAddr (by omega)]
    omega
  unfold flashVerify inSession
  apply wp_get_bind
  rw [if_neg (by simp [hup.initialised]), if_neg (by simp [hup.connected]),
    if_neg (by simp [hne, halign', hvalid])]
  apply up_verifyWords hup fmc_steady _ addr data hwords _ h
  intro i hi
  have hoffset : Fmc.offsetOf (addr + 4 * UInt32.ofNat i) = addr.toNat - 0x08000000 + 4 * i := by
    have hsub := toNat_offset (hwords i hi).1
    rw [toNat_wordAddr (by omega)] at hsub
    rw [Fmc.offsetOf, hsub]
    omega
  have hdrop : (data ++ fill).drop (4 * i) = data.drop (4 * i) ++ fill :=
    List.drop_append_of_le_length (by omega)
  rw [fmc_read_flash (hwords i hi), hflash, hoffset, wordIn_overlay _ _ (by omega), hdrop]
  apply matches_image
  rw [← hdrop, List.length_drop]
  omega

end Verifying

-- What an accepted erase and an accepted write do, where the transfers succeed. The pages of an
-- erase are those of its range up to the page whose number no longer fits the field.
theorem flash_operations_exact {c : Ctx} {t : Target Fmc} (hup : Up c t) (hidle : t.memory.Idle) :
    (∀ addr size out c' t', flashRangeValid addr size.toNat = true →
      Exec (target Fmc.bus) t (flashErase addr size c) (some (some (out, c'))) t' →
      ((out = .ok () ∧ ∃ pages, t'.memory.erased = t.memory.erased ++ pages ∧
          EachOnce pages (addr.toNat - 0x08000000) size.toNat ∧
          t'.memory.flash = fun o => if o / 2048 ∈ pages then 0xFF else t.memory.flash o) ↔
        addr.toNat - 0x08000000 + size.toNat ≤ 0x40000)) ∧
    (∀ addr data written verified c' t', addr &&& 0x7 = 0 →
      flashRangeValid addr data.length = true →
      Exec (target Fmc.bus) t ((do
        let written ← flashWrite addr data
        let verified ← flashVerify addr data
        pure (written, verified) : Swd (Status × Status)) c) (some (some ((written, verified), c'))) t' →
      written = .ok () ∧ verified = .ok () ∧
        ∃ fill : ℕ, fill ≤ 7 ∧ (data.length + fill) % 8 = 0 ∧
          addr.toNat - 0x08000000 + data.length + fill ≤ 0x80000 ∧
          t'.memory.flash = Fmc.overlay t.memory.flash (addr.toNat - 0x08000000)
            (data ++ List.replicate fill 0xFF) ∧
          Touches Flashing t t') := by
  constructor
  · intro addr size out c' t' hvalid hexec
    obtain ⟨hsize, hlow, hhigh⟩ := (flashRangeValid_iff _ _).mp hvalid
    have hoffset : Fmc.offsetOf addr = addr.toNat - 0x08000000 :=
      toNat_offset (by rw [UInt32.le_iff_toNat_le]; exact hlow)
    have hdoes : Does Fmc.bus (flashErase addr size) (fun out _ t' => out = .ok () ∧
        t'.memory.erased = t.memory.erased ++
          (sectors (addr.toNat - 0x08000000) size.toNat).map (· % 128) ∧
        t'.memory.flash = fun o =>
          if o / 2048 ∈ (sectors (addr.toNat - 0x08000000) size.toNat).map (· % 128) then 0xFF
          else t.memory.flash o) c t := by
      apply up_flashErase hup hidle addr size hvalid
      intro c' t' _ _ herased hflash _
      rw [hoffset] at herased hflash
      exact ⟨rfl, herased, hflash⟩
    obtain ⟨hout, herased, hflash⟩ := (wp_sound hexec hdoes).2.2 out c' rfl
    rw [← aliased_eachOnce hsize]
    constructor
    · rintro ⟨-, pages, hpages, hexact, -⟩
      rwa [List.append_cancel_left (herased.symm.trans hpages)]
    · intro hexact
      exact ⟨hout, _, herased, hexact, hflash⟩
  · intro addr data written verified c' t' halign hvalid hexec
    obtain ⟨hlen, hlow, hhigh⟩ := (flashRangeValid_iff _ _).mp hvalid
    have haligned := (align_iff addr).mp halign
    have hdoes : Does Fmc.bus (do
        let written ← flashWrite addr data
        let verified ← flashVerify addr data
        pure (written, verified) : Swd (Status × Status)) (fun out _ t' => out.1 = .ok () ∧ out.2 = .ok () ∧
        t'.memory.flash = Fmc.overlay t.memory.flash (addr.toNat - 0x08000000)
          (data ++ List.replicate (8 * ((data.length + 7) / 8) - data.length) 0xFF) ∧
        Touches Flashing t t') c t := by
      apply wp_bind
      apply up_flashWrite hup hidle addr data halign hvalid
      intro c₁ t₁ hup₁ hidle₁ hflash₁ htouch₁
      apply wp_bind
      apply up_flashVerify hup₁ addr data _ _ halign hvalid _ hflash₁
      · intro c₂ t₂ hup₂ hmemory₂ htouch₂
        refine wp_pure trivial ⟨rfl, rfl, by rw [hmemory₂, hflash₁], htouch₁.trans ?_⟩
        obtain ⟨new, hnew, hall⟩ := htouch₂
        exact ⟨new, hnew, fun access haccess => Or.inr (Or.inr (Or.inr (hall access haccess)))⟩
      · rw [List.length_append, List.length_replicate]
        omega
    obtain ⟨hwritten, hverified, hflash, htouch⟩ := (wp_sound hexec hdoes).2.2 (written, verified) c' rfl
    exact ⟨hwritten, hverified, _, by omega, by omega, by omega, hflash, htouch⟩

section Example

-- A blank flash that is done at once with whatever it is told.
def blankTarget : Target Fmc :=
  ⟨Stream'.const (.ok true), fun _ => 0, 0, 0, ⟨fun _ => 0xFF, false, true, 0, none, 0, Stream'.const 0, []⟩, []⟩

theorem blank_up : Up sessionCtx blankTarget :=
  ⟨rfl, rfl, fun _ => Or.inr rfl, fun _ => ⟨0, by decide, by simp [blankTarget, Stream'.get_const]⟩⟩

theorem blank_idle : blankTarget.memory.Idle := ⟨rfl, fun n => by simp [blankTarget, Stream'.get_const]⟩

-- Three bytes are programmed as one double word, filled up with 0xFF, and read back.
def writeVerify : Swd (Status × Status) := do
  let written ← flashWrite 0x08000800 [0x11, 0x22, 0x33]
  let verified ← flashVerify 0x08000800 [0x11, 0x22, 0x33]
  pure (written, verified)

theorem flash_operations_exact_blank :
    (∃ c' t', Exec (target Fmc.bus) blankTarget (flashErase 0x08000800 2048 sessionCtx)
      (some (some (.ok (), c'))) t' ∧
      ∃ pages, t'.memory.erased = [] ++ pages ∧ EachOnce pages 2048 2048) ∧
    ∃ out t', Exec (target Fmc.bus) blankTarget (writeVerify sessionCtx) (some (some out)) t' ∧
      out.1 = (.ok (), .ok ()) ∧ ∃ fill : ℕ, fill ≤ 7 ∧ (3 + fill) % 8 = 0 ∧
        t'.memory.flash = Fmc.overlay blankTarget.memory.flash 2048
          ([0x11, 0x22, 0x33] ++ List.replicate fill 0xFF) := by
  constructor
  · have hexec := exec_of_run (target_serves Fmc.bus) (flashErase 0x08000800 2048 sessionCtx) blankTarget
    refine ⟨_, _, hexec, ?_⟩
    obtain ⟨-, pages, herased, hexact, -⟩ := ((flash_operations_exact blank_up blank_idle).1 0x08000800 2048
      (.ok ()) _ _ (by decide) hexec).mpr (by decide)
    exact ⟨pages, herased, hexact⟩
  · have hexec := exec_of_run (target_serves Fmc.bus) (writeVerify sessionCtx) blankTarget
    refine ⟨_, _, hexec, ?_⟩
    obtain ⟨hwritten, hverified, fill, hfill, hwhole, -, hflash, -⟩ :=
      (flash_operations_exact blank_up blank_idle).2 0x08000800 [0x11, 0x22, 0x33] _ _ _ _ (by decide)
        (by decide) hexec
    exact ⟨Prod.ext hwritten hverified, fill, hfill, hwhole, hflash⟩

-- The first page of the upper half is erased as the first page of the lower one.
theorem upper_half_aliased :
    ∃ out c' t', Exec (target Fmc.bus) blankTarget (flashErase 0x08040000 2048 sessionCtx)
      (some (some (out, c'))) t' ∧
      ¬ (out = .ok () ∧ ∃ pages, t'.memory.erased = blankTarget.memory.erased ++ pages ∧
        EachOnce pages (0x08040000 - 0x08000000) 2048) := by
  have hexec := exec_of_run (target_serves Fmc.bus) (flashErase 0x08040000 2048 sessionCtx) blankTarget
  refine ⟨.ok (), _, _, hexec, ?_⟩
  rintro ⟨-, pages, herased, -, hexact⟩
  have hpages : [0] = pages := herased
  subst hpages
  have hfirst := (hexact 128).mpr ⟨0x40000, by decide, by decide, by decide⟩
  exact absurd hfirst (by decide)

end Example

end AlpSdk.Gd32Swd
