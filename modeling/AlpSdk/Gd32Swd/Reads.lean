import AlpSdk.Gd32Swd.Target

-- What the words the driver acts on are worth.
namespace AlpSdk.Gd32Swd

open Library.Local
open Library.Effect (Exec Handler exec_of_run)

variable {M : Type} {bus : Bus M} {c : Ctx} {t : Target M}

-- The word was read between the two.
def ReadIn (t t' : Target M) (addr word : UInt32) : Prop :=
  ∃ new, t'.accesses = t.accesses ++ new ∧ .read addr word ∈ new

section Polling

-- A status word without the busy bit and the error bits was read between the two.
def Cleared (t t' : Target M) : Prop :=
  ∃ word, ReadIn t t' FMC_REG_SR word ∧ word &&& FMC_SR_BSY = 0 ∧ word &&& FMC_SR_PROGERR_MASK = 0

theorem Cleared.later {t' t'' : Target M} (h : Cleared t' t'') (first : List Access)
    (hfirst : t'.accesses = t.accesses ++ first) : Cleared t t'' := by
  obtain ⟨word, ⟨new, hnew, hread⟩, hbusy, herror⟩ := h
  exact ⟨word, ⟨first ++ new, by rw [hnew, hfirst, List.append_assoc], by simp [hread]⟩, hbusy, herror⟩

-- One poll that read its word.
theorem polled {word : UInt32} {t' : Target M} (haccess : t'.accesses = t.accesses ++ [.read FMC_REG_SR word])
    (hbusy : word &&& FMC_SR_BSY = 0) {out : Status}
    (hout : out = if word &&& FMC_SR_PROGERR_MASK ≠ 0 then .error .io else .ok ()) :
    out = .ok () → Cleared t t' := by
  intro hok
  by_cases herror : word &&& FMC_SR_PROGERR_MASK = 0
  · exact ⟨word, ⟨_, haccess, by simp⟩, hbusy, herror⟩
  · rw [if_pos herror, hok] at hout
    cases hout

-- A busy word that stays latched is never taken for another.
theorem does_fmcBusyLoop (hinit : c.initialised = true) (rounds : ℕ) (hlatched : t.latched &&& FMC_SR_BSY ≠ 0) :
    Does bus (fmcBusyLoop rounds) (fun out _ t' => out = .ok () → Cleared t t') c t := by
  induction rounds generalizing c t with
  | zero => exact wp_pure trivial (by simp)
  | succ rounds ih =>
      rw [fmcBusyLoop]
      apply wp_bind
      apply does_swdMemRead32 hinit
      · intro s hs isOutput
        by_cases hbusy : (bus.read t.memory FMC_REG_SR).1 &&& FMC_SR_BSY = 0
        · simp only [if_pos hbusy]
          exact wp_pure trivial (polled rfl hbusy rfl)
        · simp only [if_neg hbusy]
          refine wp_mono (ih (show (c.driving isOutput).initialised = true from hinit) hbusy) ?_
          intro out _ t' _ hlater hok
          exact (hlater hok).later _ rfl
      · intro s hs isOutput
        simp only [if_neg hlatched]
        refine wp_mono (ih (show (c.driving isOutput).initialised = true from hinit) hlatched) ?_
        intro out _ t' _ hlater hok
        exact (hlater hok).later [] (by simp)
      · intro _ err isOutput t'
        exact wp_pure trivial (by simp)

-- What the wait is misled by: a stale first poll, of a latched word that looks like a clear status.
def Misled (t : Target M) : Prop :=
  (∃ s, StaleRead t.answers s) ∧ t.latched &&& FMC_SR_BSY = 0 ∧ t.latched &&& FMC_SR_PROGERR_MASK = 0

theorem does_fmcWaitBusy (hinit : c.initialised = true) :
    Does bus fmcWaitBusy (fun out _ t' => (out = .ok () → Cleared t t') ↔ ¬ Misled t) c t := by
  unfold fmcWaitBusy
  rw [show 16384 = 16383 + 1 from rfl, fmcBusyLoop]
  apply wp_bind
  apply does_swdMemRead32 hinit
  · intro s hs isOutput
    have hnot : ¬ Misled t := fun h => h.1.elim fun s' hs' => not_stale_of_fresh hs hs'
    by_cases hbusy : (bus.read t.memory FMC_REG_SR).1 &&& FMC_SR_BSY = 0
    · simp only [if_pos hbusy]
      exact wp_pure trivial (iff_of_true (polled rfl hbusy rfl) hnot)
    · simp only [if_neg hbusy]
      refine wp_mono (does_fmcBusyLoop (show (c.driving isOutput).initialised = true from hinit) 16383 hbusy) ?_
      intro out _ t' _ hlater
      exact iff_of_true (fun hok => (hlater hok).later _ rfl) hnot
  · intro s hs isOutput
    by_cases hbusy : t.latched &&& FMC_SR_BSY = 0
    · simp only [if_pos hbusy]
      apply wp_pure trivial
      by_cases herror : t.latched &&& FMC_SR_PROGERR_MASK = 0
      · rw [if_neg (by simp [herror])]
        refine iff_of_false ?_ (not_not.mpr ⟨⟨s, hs⟩, hbusy, herror⟩)
        intro h
        obtain ⟨word, ⟨new, hnew, hread⟩, -⟩ := h rfl
        obtain rfl : new = [] := by simpa using hnew
        cases hread
      · rw [if_pos herror]
        exact iff_of_true (by simp) fun h => herror h.2.2
    · simp only [if_neg hbusy]
      refine wp_mono (does_fmcBusyLoop (show (c.driving isOutput).initialised = true from hinit) 16383 hbusy) ?_
      intro out _ t' _ hlater
      exact iff_of_true (fun hok => (hlater hok).later [] (by simp)) fun h => hbusy h.2.1
  · intro hnone err isOutput t'
    exact wp_pure trivial (iff_of_true (by simp) fun h => h.1.elim fun s hs => (hnone s).2 hs)

end Polling

section Verifying

def inFlash (addr : UInt32) : Prop := FMC_FLASH_BASE ≤ addr ∧ addr - FMC_FLASH_BASE < FMC_FLASH_BYTES

-- Reading the flash changes nothing.
def Bus.Steady (bus : Bus M) : Prop := ∀ m addr, inFlash addr → (bus.read m addr).2 = m

-- None of that many reads is stale.
def Honest : ℕ → Stream' Answer → Prop
  | 0, _ => True
  | reads + 1, s => (∀ s', ¬ StaleRead s s') ∧ ∀ s', FreshRead s s' → Honest reads s'

-- A word of the image, of which the last may be short, against a word of the flash.
def Matches (word : UInt32) (data : List UInt8) : Prop :=
  (Library.Bytes.putLE 4 word.toNat).take (data.take 4).length = data.take 4

theorem does_verifyWords (hinit : c.initialised = true) (hsteady : bus.Steady) (count : ℕ) (addr : UInt32)
    (data : List UInt8) (hrange : ∀ i < count, inFlash (addr + 4 * UInt32.ofNat i))
    (hhonest : Honest count t.answers) :
    Does bus (verifyWords count addr data) (fun out _ _ => out = .ok () →
      ∀ i < count, Matches (bus.read t.memory (addr + 4 * UInt32.ofNat i)).1 (data.drop (4 * i))) c t := by
  induction count generalizing c t addr data with
  | zero => exact wp_pure trivial (by simp)
  | succ count ih =>
      have hfirst : inFlash addr := by simpa using hrange 0 (by omega)
      have hnext (i : ℕ) : addr + 4 + 4 * UInt32.ofNat i = addr + 4 * UInt32.ofNat (i + 1) := by
        rw [UInt32.ofNat_add]
        grind
      obtain ⟨hfresh, hlater⟩ := hhonest
      rw [verifyWords]
      apply wp_bind
      apply does_swdMemRead32 hinit
      · intro s hs isOutput
        by_cases hword : (Library.Bytes.putLE 4 (bus.read t.memory addr).1.toNat).take (data.take 4).length ≠
            data.take 4
        · simp only [if_pos hword]
          exact wp_pure trivial (by simp)
        · simp only [if_neg hword]
          have hrest := ih (c := c.driving isOutput) (t := t.wordRead bus addr s) hinit (addr + 4) (data.drop 4)
            (fun i hi => by rw [hnext]; exact hrange (i + 1) (by omega)) (hlater s hs)
          refine wp_mono hrest fun out _ t' _ hmatch hok i hi => ?_
          cases i with
          | zero => simpa [Matches] using hword
          | succ i =>
              have hi := hmatch hok i (by omega)
              have hmemory : (t.wordRead bus addr s).memory = t.memory := hsteady _ _ hfirst
              rw [hmemory, hnext, List.drop_drop] at hi
              rwa [show 4 * (i + 1) = 4 + 4 * i by omega]
      · intro s hs
        exact absurd hs (hfresh s)
      · intro _ err isOutput t'
        exact wp_pure trivial (by simp)

theorem toNat_offset {addr : UInt32} (h : FMC_FLASH_BASE ≤ addr) :
    (addr - FMC_FLASH_BASE).toNat = addr.toNat - 0x08000000 := by
  rw [UInt32.toNat_sub_of_le _ _ h]
  rfl

theorem inFlash_iff (addr : UInt32) :
    inFlash addr ↔ 0x08000000 ≤ addr.toNat ∧ addr.toNat < 0x08080000 := by
  have hbase : FMC_FLASH_BASE.toNat = 0x08000000 := rfl
  have hbytes : FMC_FLASH_BYTES.toNat = 0x80000 := rfl
  unfold inFlash
  constructor
  · rintro ⟨hlow, hhigh⟩
    rw [UInt32.lt_iff_toNat_lt, toNat_offset hlow, hbytes] at hhigh
    rw [UInt32.le_iff_toNat_le, hbase] at hlow
    omega
  · rintro ⟨hlow, hhigh⟩
    have hlow' : FMC_FLASH_BASE ≤ addr := by rwa [UInt32.le_iff_toNat_le]
    refine ⟨hlow', ?_⟩
    rw [UInt32.lt_iff_toNat_lt, toNat_offset hlow', hbytes]
    omega

theorem flashRangeValid_iff (addr : UInt32) (len : ℕ) :
    flashRangeValid addr len = true ↔
      0 < len ∧ 0x08000000 ≤ addr.toNat ∧ addr.toNat + len ≤ 0x08080000 := by
  have hbase : FMC_FLASH_BASE.toNat = 0x08000000 := rfl
  have hbytes : FMC_FLASH_BYTES.toNat = 0x80000 := rfl
  unfold flashRangeValid
  rw [decide_eq_true_eq]
  constructor
  · rintro ⟨hlen, hlow, hsmall, hfits⟩
    rw [UInt32.toNat_sub_of_le _ _ (UInt32.le_of_lt hsmall), toNat_offset hlow, hbytes] at hfits
    rw [UInt32.lt_iff_toNat_lt, toNat_offset hlow, hbytes] at hsmall
    rw [UInt32.le_iff_toNat_le, hbase] at hlow
    omega
  · rintro ⟨hlen, hlow, hfits⟩
    have hlow' : FMC_FLASH_BASE ≤ addr := by rwa [UInt32.le_iff_toNat_le]
    have hsmall : addr - FMC_FLASH_BASE < FMC_FLASH_BYTES := by
      rw [UInt32.lt_iff_toNat_lt, toNat_offset hlow', hbytes]
      omega
    refine ⟨by omega, hlow', hsmall, ?_⟩
    rw [UInt32.toNat_sub_of_le _ _ (UInt32.le_of_lt hsmall), toNat_offset hlow', hbytes]
    omega

theorem toNat_wordAddr {addr : UInt32} {i : ℕ} (h : addr.toNat + 4 * i < 2 ^ 32) :
    (addr + 4 * UInt32.ofNat i).toNat = addr.toNat + 4 * i := by
  have hi : i < UInt32.size := by
    have hsize : UInt32.size = 2 ^ 32 := rfl
    omega
  have hfour : (4 : UInt32).toNat = 4 := rfl
  rw [UInt32.toNat_add, UInt32.toNat_mul, UInt32.toNat_ofNat_of_lt' hi, hfour, Nat.mod_eq_of_lt (a := 4 * i) (by omega),
    Nat.mod_eq_of_lt h]

-- The byte of the flash at that offset from a word's address.
def flashByte (bus : Bus M) (m : M) (addr : UInt32) (i : ℕ) : Option UInt8 :=
  (Library.Bytes.putLE 4 (bus.read m (addr + 4 * UInt32.ofNat (i / 4))).1.toNat)[i % 4]?

theorem matches_byte {word : UInt32} {data : List UInt8} (h : Matches word data) {i : ℕ} (hi : i < 4)
    (hdata : i < data.length) : (Library.Bytes.putLE 4 word.toNat)[i]? = data[i]? := by
  have hword : ((Library.Bytes.putLE 4 word.toNat).take (data.take 4).length)[i]? = (data.take 4)[i]? :=
    congrArg (fun bytes => bytes[i]?) h
  rwa [List.getElem?_take_of_lt (by rw [List.length_take]; omega), List.getElem?_take_of_lt hi] at hword

-- The image is what the flash holds.
theorem does_flashVerify (hinit : c.initialised = true) (hsteady : bus.Steady) (addr : UInt32)
    (data : List UInt8) (hhonest : Honest ((data.length + 3) / 4) t.answers) :
    Does bus (flashVerify addr data) (fun out _ _ => out = .ok () →
      ∀ i < data.length, flashByte bus t.memory addr i = data[i]?) c t := by
  unfold flashVerify inSession
  apply wp_get_bind
  rw [if_neg (by simp [hinit])]
  by_cases hconnected : c.connected = true
  · rw [if_neg (by simp [hconnected])]
    by_cases hvalid : data = [] ∨ addr &&& 0x3 ≠ 0 ∨ !flashRangeValid addr data.length
    · rw [if_pos hvalid]
      exact wp_pure trivial (by simp)
    · rw [if_neg hvalid]
      have hrange : flashRangeValid addr data.length = true := by
        by_contra hnot
        exact hvalid (Or.inr (Or.inr (by simp [hnot])))
      obtain ⟨hlen, hlow, hhigh⟩ := (flashRangeValid_iff addr data.length).mp hrange
      have hwords : ∀ i < (data.length + 3) / 4, inFlash (addr + 4 * UInt32.ofNat i) := by
        intro i hi
        rw [inFlash_iff, toNat_wordAddr (by omega)]
        omega
      refine wp_mono (does_verifyWords hinit hsteady _ addr data hwords hhonest) ?_
      intro out _ _ _ hmatch hok i hi
      have hword := matches_byte (hmatch hok (i / 4) (by omega)) (Nat.mod_lt i (by decide))
        (by rw [List.length_drop]; omega)
      rw [List.getElem?_drop, show 4 * (i / 4) + i % 4 = i by omega] at hword
      exact hword
  · rw [if_pos (by simp [hconnected])]
    exact wp_pure trivial (by simp)

end Verifying

theorem does_read_fresh (hinit : c.initialised = true) (addr : UInt32) :
    Does bus (swdMemRead32 addr) (fun out _ t' =>
      (∀ word, out = .ok word → ReadIn t t' addr word) ↔ ∀ s, ¬ StaleRead t.answers s) c t := by
  apply does_swdMemRead32 hinit
  · intro s hs isOutput
    refine iff_of_true ?_ fun s' hs' => not_stale_of_fresh hs hs'
    rintro word hword
    obtain rfl := Except.ok.inj hword
    exact ⟨_, rfl, by simp⟩
  · intro s hs isOutput
    refine iff_of_false ?_ fun h => h s hs
    intro h
    obtain ⟨new, hnew, hread⟩ := h _ rfl
    obtain rfl : new = [] := by simpa using hnew
    cases hread
  · intro hnone err isOutput t'
    exact iff_of_true (by simp) fun s => (hnone s).2

-- A read is of the word it is asked for, the wait ends on a clear status, and what is verified is
-- in the flash, exactly where no stale read is taken for one.
theorem swd_reads_fresh (bus : Bus M) :
    (∀ addr c t out c' t',
      Exec (target bus) t (swdMemRead32 addr c) (some (some (out, c'))) t' →
      ((∀ word, out = .ok word → ReadIn t t' addr word) ↔
        ¬ (c.initialised = true ∧ ∃ s, StaleRead t.answers s))) ∧
    (∀ c t out c' t', Exec (target bus) t (fmcWaitBusy c) (some (some (out, c'))) t' →
      ((out = .ok () → ∃ word, ReadIn t t' FMC_REG_SR word ∧ word &&& FMC_SR_BSY = 0 ∧
          word &&& FMC_SR_PROGERR_MASK = 0) ↔
        ¬ (c.initialised = true ∧ Misled t))) ∧
    (bus.Steady → ∀ addr data c t out c' t', Honest ((data.length + 3) / 4) t.answers →
      Exec (target bus) t (flashVerify addr data c) (some (some (out, c'))) t' →
      out = .ok () → ∀ i < data.length, flashByte bus t.memory addr i = data[i]?) := by
  refine ⟨?_, ?_, ?_⟩
  · intro addr c t out c' t' hexec
    cases hinit : c.initialised with
    | true =>
        have h := (wp_sound hexec (does_read_fresh hinit addr)).2.2 out c' rfl
        simpa using h
    | false =>
        have h := (wp_sound hexec (does_uninitialised hinit addr
          (Q := fun out _ _ => ∃ err, out = .error err) fun err => ⟨err, rfl⟩)).2.2 out c' rfl
        obtain ⟨err, rfl⟩ := h
        simp
  · intro c t out c' t' hexec
    cases hinit : c.initialised with
    | true =>
        have h := (wp_sound hexec (does_fmcWaitBusy hinit)).2.2 out c' rfl
        simpa [Cleared] using h
    | false =>
        have hfails : Does bus fmcWaitBusy (fun out _ _ => ∃ err, out = .error err) c t := by
          unfold fmcWaitBusy
          rw [show 16384 = 16383 + 1 from rfl, fmcBusyLoop]
          apply wp_bind
          exact does_uninitialised hinit _ fun err => wp_pure trivial ⟨err, rfl⟩
        obtain ⟨err, rfl⟩ := (wp_sound hexec hfails).2.2 out c' rfl
        simp
  · intro hsteady addr data c t out c' t' hhonest hexec
    cases hinit : c.initialised with
    | true => exact (wp_sound hexec (does_flashVerify hinit hsteady addr data hhonest)).2.2 out c' rfl
    | false =>
        have hfails : Does bus (flashVerify addr data) (fun out _ _ => out = .error .notReady) c t := by
          unfold flashVerify inSession
          apply wp_get_bind
          rw [if_pos (by simp [hinit])]
          exact wp_pure trivial rfl
        rw [(wp_sound hexec hfails).2.2 out c' rfl]
        simp

section Example

-- A target whose pads always do as they are told.
def Target.serve (bus : Bus M) : Handler (issuing signature Ctx) (Target M) :=
  fun i t =>
    match i with
    | ⟨_, .platform⟩ => (true, t)
    | ⟨_, .sessionNotify _⟩ => ((), t)
    | ⟨_, .openPad _⟩ => (true, t)
    | ⟨_, .closePad _⟩ => ((), t)
    | ⟨_, .configure _ _ _⟩ => (.ok (), t)
    | ⟨_, .configureOutputLow _⟩ => (.ok (), t)
    | ⟨_, .write _ _⟩ => (.ok (), t)
    | ⟨_, .lineReset⟩ => ((), t)
    | ⟨_, .jtagToSwd⟩ => ((), t)
    | ⟨_, .header _ _ _⟩ => ((), t)
    | ⟨_, .ack⟩ => (t.answers.head.ack, if t.answers.head.ack = .ok then t else t.next)
    | ⟨_, .readData ap addr⟩ =>
        (((t.next.dataRead bus ap addr).1, t.answers.head.parity), (t.next.dataRead bus ap addr).2)
    | ⟨_, .writeData ap addr value⟩ => ((), t.next.dataWritten bus ap addr value)

theorem target_serves (bus : Bus M) (i : Issued signature Ctx) (t : Target M) :
    target bus t i (t.serve bus i).1 (t.serve bus i).2 := by
  obtain ⟨c, cmd⟩ := i
  cases cmd <;> first | rfl | exact ⟨rfl, rfl⟩

-- A memory whose words are their own addresses.
def addressBus : Bus Unit := ⟨fun _ addr => (addr, ()), fun _ _ _ => ()⟩

def sessionCtx : Ctx := ⟨true, true, true, true, true, 0, false, false, true⟩

def answering (s : Stream' Answer) : Target Unit := ⟨s, fun _ => 0, 0, 0xDEADBEEF, (), []⟩

theorem honest_const (reads : ℕ) : Honest reads (Stream'.const (.ok true)) := by
  induction reads with
  | zero => trivial
  | succ reads ih =>
      have hmeet : meet MAX_WAIT_RETRIES (Stream'.const (.ok true)) = (.ok true, Stream'.const (.ok true)) := rfl
      have hfresh : FreshRead (Stream'.const (.ok true)) (Stream'.const (.ok true)) :=
        ⟨_, _, ⟨_, _, _, _, _, hmeet, hmeet, hmeet⟩, hmeet, hmeet⟩
      refine ⟨fun s hs => not_stale_of_fresh hfresh hs, fun s hs => ?_⟩
      rwa [readsFresh_unique hs hfresh]

theorem swd_reads_fresh_healthy :
    ∃ c' t', Exec (target addressBus) (answering (Stream'.const (.ok true)))
      (flashVerify 0x08000000 [0x00, 0x00, 0x00, 0x08] sessionCtx) (some (some (.ok (), c'))) t' ∧
      ∀ i < 4, flashByte addressBus () 0x08000000 i = [0x00, 0x00, 0x00, 0x08][i]? := by
  have hexec := exec_of_run (target_serves addressBus)
    (flashVerify 0x08000000 [0x00, 0x00, 0x00, 0x08] sessionCtx) (answering (Stream'.const (.ok true)))
  exact ⟨_, _, hexec, (swd_reads_fresh addressBus).2.2 (fun _ _ _ => rfl) _ _ _ _ _ _ _ (honest_const _) hexec rfl⟩

-- Sixteen WAITs to the read of the word, and the word that was latched before is returned.
theorem stale_word_returned :
    ∃ word c' t', Exec (target addressBus)
      (answering ([.ok true, .ok true, .ok true] ++ₛ (List.replicate 16 .wait ++ₛ Stream'.const (.ok true))))
      (swdMemRead32 0x08000000 sessionCtx) (some (some (.ok word, c'))) t' ∧
      ¬ ReadIn (answering ([.ok true, .ok true, .ok true] ++ₛ
        (List.replicate 16 .wait ++ₛ Stream'.const (.ok true)))) t' 0x08000000 word := by
  have hexec := exec_of_run (target_serves addressBus) (swdMemRead32 0x08000000 sessionCtx)
    (answering ([.ok true, .ok true, .ok true] ++ₛ (List.replicate 16 .wait ++ₛ Stream'.const (.ok true))))
  refine ⟨0xDEADBEEF, _, _, hexec, ?_⟩
  rintro ⟨new, hnew, hread⟩
  have hnone : [] = new := hnew
  subst hnone
  cases hread

end Example

end AlpSdk.Gd32Swd
