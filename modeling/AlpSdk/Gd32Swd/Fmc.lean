import AlpSdk.Gd32Swd.Reads

-- The flash controller behind the access port, and the transfers to it that succeed.
namespace AlpSdk.Gd32Swd

open Library.Local
open Library.Effect (Exec exec_of_run)

section Succeeding

variable {M : Type} {bus : Bus M} {c : Ctx} {t : Target M}

-- Every request is acknowledged within the attempts made at it, and no parity is wrong.
structure Succeeding (s : Stream' Answer) : Prop where
  good : ∀ n, s.get n = .wait ∨ s.get n = .ok true
  soon : ∀ n, ∃ k < MAX_WAIT_RETRIES, s.get (n + k) ≠ .wait

theorem Succeeding.tail {s : Stream' Answer} (h : Succeeding s) : Succeeding s.tail where
  good n := h.good (n + 1)
  soon n := by
    obtain ⟨k, hk, hget⟩ := h.soon (n + 1)
    refine ⟨k, hk, ?_⟩
    rwa [show n + 1 + k = n + k + 1 by omega] at hget

theorem meet_of_soon {s : Stream' Answer} (h : Succeeding s) {rounds : ℕ}
    (hsoon : ∃ k < rounds, s.get k ≠ .wait) : ∃ s', meet rounds s = (.ok true, s') ∧ Succeeding s' := by
  induction rounds generalizing s with
  | zero =>
      obtain ⟨k, hk, -⟩ := hsoon
      omega
  | succ rounds ih =>
      rcases h.good 0 with hwait | hok
      · obtain ⟨k, hk, hget⟩ := hsoon
        cases k with
        | zero => exact absurd hwait hget
        | succ k =>
            obtain ⟨s', hs', hlater⟩ := ih h.tail ⟨k, by omega, hget⟩
            have hhead : s.head = .wait := hwait
            refine ⟨s', ?_, hlater⟩
            rw [meet, hhead]
            exact hs'
      · have hhead : s.head = .ok true := hok
        refine ⟨s.tail, ?_, h.tail⟩
        rw [meet, hhead]

theorem Succeeding.met {s : Stream' Answer} (h : Succeeding s) :
    ∃ s', meet MAX_WAIT_RETRIES s = (.ok true, s') ∧ Succeeding s' := by
  have hsoon := h.soon 0
  simp only [Nat.zero_add] at hsoon
  exact meet_of_soon h hsoon

theorem Succeeding.addressed {s : Stream' Answer} (h : Succeeding s) :
    ∃ s', Addressed s s' ∧ Succeeding s' := by
  obtain ⟨s₁, h₁, hlater₁⟩ := h.met
  obtain ⟨s₂, h₂, hlater₂⟩ := hlater₁.met
  obtain ⟨s₃, h₃, hlater₃⟩ := hlater₂.met
  exact ⟨s₃, ⟨s₁, s₂, true, true, true, h₁, h₂, h₃⟩, hlater₃⟩

theorem Succeeding.fresh {s : Stream' Answer} (h : Succeeding s) : ∃ s', FreshRead s s' ∧ Succeeding s' := by
  obtain ⟨s₁, h₁, hlater₁⟩ := h.addressed
  obtain ⟨s₂, h₂, hlater₂⟩ := hlater₁.met
  obtain ⟨s₃, h₃, hlater₃⟩ := hlater₂.met
  exact ⟨s₃, ⟨s₁, s₂, h₁, h₂, h₃⟩, hlater₃⟩

-- A session on a target whose transfers succeed.
structure Up (c : Ctx) (t : Target M) : Prop where
  initialised : c.initialised = true
  connected : c.connected = true
  succeeding : Succeeding t.answers

def Access.addr : Access → UInt32
  | .read addr _ => addr
  | .write addr _ => addr

-- From one target to the other nothing is accessed but addresses that are `P`.
def Touches (P : UInt32 → Prop) (t t' : Target M) : Prop :=
  ∃ new, t'.accesses = t.accesses ++ new ∧ ∀ access ∈ new, P access.addr

theorem Touches.none {P : UInt32 → Prop} (t : Target M) : Touches P t t := ⟨[], by simp, by simp⟩

theorem Touches.trans {P : UInt32 → Prop} {t t' t'' : Target M} (h : Touches P t t') (h' : Touches P t' t'') :
    Touches P t t'' := by
  obtain ⟨new, hnew, hall⟩ := h
  obtain ⟨new', hnew', hall'⟩ := h'
  refine ⟨new ++ new', by rw [hnew', hnew, List.append_assoc], fun access haccess => ?_⟩
  rcases List.mem_append.mp haccess with haccess | haccess
  · exact hall access haccess
  · exact hall' access haccess

theorem up_swdMemRead32 {P : UInt32 → Prop} (hup : Up c t) (addr : UInt32) (haddr : P addr)
    {Q : Except AlpError UInt32 → Ctx → Target M → Prop}
    (h : ∀ c' t', Up c' t' → t'.memory = (bus.read t.memory addr).2 → Touches P t t' →
      Q (.ok (bus.read t.memory addr).1) c' t') :
    Does bus (swdMemRead32 addr) Q c t := by
  obtain ⟨s, hfresh, hlater⟩ := hup.succeeding.fresh
  apply does_swdMemRead32 hup.initialised
  · intro s' hs' isOutput
    obtain rfl := readsFresh_unique hfresh hs'
    exact h _ _ ⟨hup.initialised, hup.connected, hlater⟩ rfl ⟨_, rfl, by simpa [Access.addr] using haddr⟩
  · intro s' hs'
    exact (not_stale_of_fresh hfresh hs').elim
  · intro hnone
    exact absurd hfresh (hnone s).1

theorem up_swdMemWrite32 {P : UInt32 → Prop} (hup : Up c t) (addr value : UInt32) (haddr : P addr)
    {Q : Status → Ctx → Target M → Prop}
    (h : ∀ c' t', Up c' t' → t'.memory = bus.write t.memory addr value → Touches P t t' → Q (.ok ()) c' t') :
    Does bus (swdMemWrite32 addr value) Q c t := by
  obtain ⟨s₁, hs₁, hlater₁⟩ := hup.succeeding.addressed
  obtain ⟨s₂, hs₂, hlater₂⟩ := hlater₁.met
  unfold swdMemWrite32 swdWriteAp
  apply wp_bind
  apply does_swdMemAddress hup.initialised
  · intro s hs isOutput
    obtain rfl := addressed_unique hs₁ hs
    apply wp_bind
    apply does_write (show (c.driving isOutput).initialised = true from hup.initialised)
    · intro parity s hs isOutput'
      obtain ⟨-, rfl⟩ := Prod.mk.inj (hs₂.symm.trans hs)
      refine wp_pure trivial (h _ _ ⟨hup.initialised, hup.connected, hlater₂⟩ rfl ⟨_, rfl, ?_⟩)
      intro access haccess
      rw [List.mem_singleton.mp haccess]
      exact haddr
    · intro met s hs hmet
      exact absurd (Prod.mk.inj (hs₂.symm.trans hs)).1.symm (hmet true)
  · intro hnone
    exact absurd hs₁ (hnone s₁)

end Succeeding

-- `delays` are the polls that the operations to come will take.
structure Fmc where
  flash : ℕ → UInt8
  keyed : Bool
  locked : Bool
  cr : UInt32
  low : Option (UInt32 × UInt32)
  busy : ℕ
  delays : Stream' ℕ
  erased : List ℕ

namespace Fmc

def PAGES : ℕ := 256

def offsetOf (addr : UInt32) : ℕ := (addr - FMC_FLASH_BASE).toNat

def wordIn (flash : ℕ → UInt8) (offset : ℕ) : UInt32 :=
  wordAt [flash offset, flash (offset + 1), flash (offset + 2), flash (offset + 3)]

variable (f : Fmc)

-- An operation that is started takes its time.
def start : Fmc := { f with busy := f.delays.head, delays := f.delays.tail }

def key (value : UInt32) : Fmc :=
  if value = FMC_KEY1 then { f with keyed := true }
  else if value = FMC_KEY2 ∧ f.keyed then { f with keyed := false, locked := false }
  else { f with keyed := false }

def erasePage (page : ℕ) : Fmc :=
  { f with
    flash := fun offset => if offset / FMC_SECTOR_BYTES.toNat = page then 0xFF else f.flash offset
    erased := f.erased ++ [page] }

-- The control register. While an operation goes on, and while it is locked, a write to it is lost.
def control (value : UInt32) : Fmc :=
  if 0 < f.busy ∨ f.locked then f
  else if value &&& FMC_CR_LOCK ≠ 0 then { f with locked := true }
  else if value &&& FMC_CR_PER ≠ 0 ∧ value &&& FMC_CR_STRT ≠ 0 then
    ({ f with cr := value }.erasePage ((value >>> FMC_CR_PNB_SHIFT).toNat % PAGES)).start
  else { f with cr := value }

-- Bytes put over what is there.
def overlay (flash : ℕ → UInt8) (offset : ℕ) (bytes : List UInt8) : ℕ → UInt8 :=
  fun o => if offset ≤ o ∧ o < offset + bytes.length then bytes.getD (o - offset) 0xFF else flash o

-- The doubleword is programmed with its second half.
def program (addr value : UInt32) : Fmc :=
  if 0 < f.busy ∨ f.locked ∨ f.cr &&& FMC_CR_PG = 0 then f
  else if offsetOf addr % 8 = 0 then { f with low := some (addr, value) }
  else
    match f.low with
    | none => f
    | some (first, low) =>
        if addr = first + 4 then
          { f with
            low := none
            flash := overlay f.flash (offsetOf first)
              (Library.Bytes.putLE 4 low.toNat ++ Library.Bytes.putLE 4 value.toNat) }.start
        else { f with low := none }

instance (addr : UInt32) : Decidable (inFlash addr) := inferInstanceAs (Decidable (_ ∧ _))

def read (addr : UInt32) : UInt32 × Fmc :=
  if addr = FMC_REG_SR then
    if f.busy = 0 then (0, f) else (FMC_SR_BSY, { f with busy := f.busy - 1 })
  else if addr = FMC_REG_CR then (if f.locked then f.cr ||| FMC_CR_LOCK else f.cr, f)
  else if inFlash addr then (wordIn f.flash (offsetOf addr), f)
  else (0, f)

def write (addr value : UInt32) : Fmc :=
  if addr = FMC_REG_KEYR then f.key value
  else if addr = FMC_REG_CR then f.control value
  else if inFlash addr then f.program addr value
  else f

def bus : Bus Fmc := ⟨read, write⟩

-- Nothing goes on, and what is started ends before the driver gives up on it.
structure Idle (f : Fmc) : Prop where
  idle : f.busy = 0
  delays : ∀ n, f.delays.get n < 16384

end Fmc

-- What a flash operation may access.
def Flashing (addr : UInt32) : Prop :=
  addr = FMC_REG_KEYR ∨ addr = FMC_REG_SR ∨ addr = FMC_REG_CR ∨ inFlash addr

theorem or_and_self (v mask : UInt32) : (v ||| mask) &&& mask = mask := by
  apply UInt32.toBitVec_inj.mp
  ext i hi
  simp
  cases v.toBitVec[i] <;> simp

section Controller

variable {c : Ctx} {t : Target Fmc}

theorem up_fmcBusyLoop {P : UInt32 → Prop} (hP : P FMC_REG_SR) (hup : Up c t) (rounds : ℕ)
    (hbusy : t.memory.busy < rounds) {Q : Status → Ctx → Target Fmc → Prop}
    (h : ∀ c' t', Up c' t' → t'.memory = { t.memory with busy := 0 } → Touches P t t' → Q (.ok ()) c' t') :
    Does Fmc.bus (fmcBusyLoop rounds) Q c t := by
  induction rounds generalizing c t with
  | zero => omega
  | succ rounds ih =>
      rw [fmcBusyLoop]
      apply wp_bind
      apply up_swdMemRead32 hup FMC_REG_SR hP
      intro c' t' hup' hmemory htouch
      by_cases hidle : t.memory.busy = 0
      · have hread : Fmc.bus.read t.memory FMC_REG_SR = (0, t.memory) := by
          simp [Fmc.bus, Fmc.read, hidle]
        rw [hread] at hmemory ⊢
        simp only [if_pos (show (0 : UInt32) &&& FMC_SR_BSY = 0 by decide),
          if_neg (show ¬ (0 : UInt32) &&& FMC_SR_PROGERR_MASK ≠ 0 by decide)]
        refine wp_pure trivial (h c' t' hup' ?_ htouch)
        rw [hmemory, ← hidle]
      · have hread : Fmc.bus.read t.memory FMC_REG_SR =
            (FMC_SR_BSY, { t.memory with busy := t.memory.busy - 1 }) := by
          simp [Fmc.bus, Fmc.read, hidle]
        rw [hread] at hmemory ⊢
        simp only [if_neg (show ¬ FMC_SR_BSY &&& FMC_SR_BSY = 0 by decide)]
        apply ih hup' (by rw [hmemory]; simp only; omega)
        intro c'' t'' hup'' hmemory' htouch'
        refine h c'' t'' hup'' ?_ (htouch.trans htouch')
        rw [hmemory', hmemory]

theorem up_fmcUnlock {P : UInt32 → Prop} (hP : P FMC_REG_KEYR) (hup : Up c t)
    {Q : Status → Ctx → Target Fmc → Prop}
    (h : ∀ c' t', Up c' t' → t'.memory = { t.memory with keyed := false, locked := false } → Touches P t t' →
      Q (.ok ()) c' t') :
    Does Fmc.bus fmcUnlock Q c t := by
  unfold fmcUnlock
  apply wp_bind
  apply up_swdMemWrite32 hup FMC_REG_KEYR FMC_KEY1 hP
  intro c₁ t₁ hup₁ hmemory₁ htouch₁
  apply up_swdMemWrite32 hup₁ FMC_REG_KEYR FMC_KEY2 hP
  intro c₂ t₂ hup₂ hmemory₂ htouch₂
  refine h c₂ t₂ hup₂ ?_ (htouch₁.trans htouch₂)
  rw [hmemory₂, hmemory₁]
  rfl

theorem up_fmcLock {P : UInt32 → Prop} (hP : P FMC_REG_CR) (hup : Up c t) (hidle : t.memory.busy = 0)
    (hlocked : t.memory.locked = false) {Q : Status → Ctx → Target Fmc → Prop}
    (h : ∀ c' t', Up c' t' → t'.memory = { t.memory with locked := true } → Touches P t t' → Q (.ok ()) c' t') :
    Does Fmc.bus fmcLock Q c t := by
  unfold fmcLock
  apply wp_bind
  apply up_swdMemRead32 hup FMC_REG_CR hP
  intro c₁ t₁ hup₁ hmemory₁ htouch₁
  have hread : Fmc.bus.read t.memory FMC_REG_CR = (t.memory.cr, t.memory) := by
    simp [Fmc.bus, Fmc.read, FMC_REG_CR, FMC_REG_SR, hlocked]
  rw [hread] at hmemory₁ ⊢
  apply up_swdMemWrite32 hup₁ FMC_REG_CR _ hP
  intro c₂ t₂ hup₂ hmemory₂ htouch₂
  refine h c₂ t₂ hup₂ ?_ (htouch₁.trans htouch₂)
  have hlock : (t.memory.cr ||| FMC_CR_LOCK) &&& FMC_CR_LOCK ≠ 0 := by
    rw [or_and_self]
    decide
  rw [hmemory₂, hmemory₁]
  simp [Fmc.bus, Fmc.write, FMC_REG_CR, FMC_REG_KEYR, Fmc.control, hidle, hlocked, hlock]

end Controller

end AlpSdk.Gd32Swd
