import AlpSdk.Eeprom24c128
import Mathlib.Data.List.Induction

-- What a run of calls makes of the contents of the part.
namespace AlpSdk.Eeprom24c128

open Library.Effect Library.Bytes

structure Contents where
  array : Nat → UInt8
  secure : Nat → UInt8
  uniqueId : Nat → UInt8
  locked : Bool
  config : UInt8

def Part.contents (p : Part) : Contents := ⟨p.array, p.secure, p.uniqueId, p.locked, p.config⟩

structure Identity.Shows (identity : Identity) (c : Contents) : Prop where
  securePage : ∀ page, identity.securePage = some page →
    page = load 0 EEPROM_24C128_SECURE_PAGE_BYTES c.secure
  uniqueId : ∀ id, identity.uniqueId = some id → id = load 0 EEPROM_24C128_UNIQUE_ID_BYTES c.uniqueId
  locked : ∀ status, identity.lockStatus = some status → identity.securePageLocked = c.locked
  config : ∀ config, identity.deviceConfig = some config → config = [c.config]

def Contents.stored (c : Contents) (offset : Nat) (bytes : List UInt8) : Contents :=
  { c with array := store offset bytes c.array }

-- Some of the bytes are stored, the first ones.
def Contents.Begun (c : Contents) (offset : Nat) (data : List UInt8) (p : Part) : Prop :=
  ∃ m ≤ data.length, p.contents = c.stored offset (data.take m)

-- A write that fails, or that is cut, has stored some of its bytes, the first ones. Nothing writes
-- the unique id or the device configuration, and the lock is never taken back.
def Contents.After (c : Contents) (out : Option Outcome) (c' : Contents) : Call → Prop
  | .init | .deinit => c' = c
  | .read offset len =>
      c' = c ∧ ∀ bytes, out = some (.bytes (.ok bytes)) →
        offset.toNat + len ≤ EEPROM_24C128_BYTES ∧ bytes = load offset.toNat len c.array
  | .readIdentity => c' = c ∧ ∀ identity, out = some (.identity (.ok identity)) → identity.Shows c
  | .write offset data =>
      ∃ m ≤ data.length, c' = c.stored offset.toNat (data.take m) ∧
        (m = 0 ∨ offset.toNat + data.length ≤ EEPROM_24C128_BYTES) ∧
        (out = some (.status (.ok ())) →
          m = data.length ∧ offset.toNat + data.length ≤ EEPROM_24C128_BYTES)
  | .securePageWrite data =>
      ∃ m ≤ data.length, c' = { c with secure := store 0 (data.take m) c.secure } ∧
        (m = 0 ∨ data.length = EEPROM_24C128_SECURE_PAGE_BYTES ∧ c.locked = false) ∧
        (out = some (.status (.ok ())) → m = EEPROM_24C128_SECURE_PAGE_BYTES)
  | .securePageLock =>
      ∃ locked, c' = { c with locked := locked } ∧ (c.locked = true → locked = true) ∧
        (out = some (.status (.ok ())) → locked = true)

inductive Contents.Runs : Contents → List (Call × Option Outcome) → Contents → Prop where
  | start (c : Contents) : Runs c [] c
  | call {c c' c'' : Contents} {calls : List (Call × Option Outcome)} (call : Call) (out : Option Outcome)
      (hbefore : Runs c calls c') (hafter : c'.After out c'' call) : Runs c (calls ++ [(call, out)]) c''

section Memory

theorem alpSizeRangeValid_iff {offset len capacity : Nat} :
    alpSizeRangeValid offset len capacity = true ↔ offset + len ≤ capacity := by
  simp only [alpSizeRangeValid, Bool.and_eq_true, decide_eq_true_eq]
  omega

theorem store_nil (a : Nat) (mem : Nat → UInt8) : store a [] mem = mem := by
  funext x
  exact if_neg (by simp)

theorem store_cons (a : Nat) (byte : UInt8) (rest : List UInt8) (mem : Nat → UInt8) :
    store a (byte :: rest) mem = store (a + 1) rest (Function.update mem a byte) := by
  funext x
  simp only [store, List.length_cons]
  obtain rfl | hne := eq_or_ne x a
  · rw [if_pos (by omega), if_neg (by omega), Function.update_self, Nat.sub_self]
    rfl
  · rw [Function.update_of_ne hne]
    by_cases hin : a + 1 ≤ x ∧ x < a + 1 + rest.length
    · rw [if_pos (by omega), if_pos hin, show x - a = x - (a + 1) + 1 by omega, List.getD_cons_succ]
    · rw [if_neg (by omega), if_neg hin]

theorem store_append (a : Nat) (first second : List UInt8) (mem : Nat → UInt8) :
    store a (first ++ second) mem = store (a + first.length) second (store a first mem) := by
  induction first generalizing a mem with
  | nil => rw [store_nil, List.nil_append, List.length_nil, Nat.add_zero]
  | cons byte rest ih =>
      rw [List.cons_append, store_cons, ih, store_cons, List.length_cons, Nat.add_assoc, Nat.add_comm 1]

-- A write that stays inside its page does not turn around.
theorem pageProgram_eq_store {a : Nat} {bytes : List UInt8} (mem : Nat → UInt8)
    (hfits : a % EEPROM_24C128_PAGE_BYTES + bytes.length ≤ EEPROM_24C128_PAGE_BYTES) :
    pageProgram a bytes mem = store a bytes mem := by
  induction bytes generalizing a mem with
  | nil => rw [pageProgram, store_nil]
  | cons byte rest ih =>
      rw [pageProgram, store_cons]
      cases rest with
      | nil => rw [pageProgram, store_nil]
      | cons next rest =>
          simp only [EEPROM_24C128_PAGE_BYTES, List.length_cons] at hfits ih ⊢
          rw [show a / 64 * 64 + (a + 1) % 64 = a + 1 by omega]
          exact ih _ (by omega)

end Memory

section Frames

variable {own : UInt8} {p p' : Part}

theorem Part.Settles.contents (h : p.Settles p') : p'.contents = p.contents := by
  obtain ⟨busy, rfl, -⟩ := h
  rfl

theorem alt_ne (own : UInt8) : own + EEPROM_24C128_ALT_ADDR_OFFSET ≠ own := by
  intro h
  have hnat := congrArg UInt8.toNat h
  have hlt := own.toNat_lt
  rw [UInt8.toNat_add, show EEPROM_24C128_ALT_ADDR_OFFSET.toNat = 8 from rfl] at hnat
  omega

-- A frame without data moves the pointer only.
theorem contents_program_nil (own addr hi lo : UInt8) (p : Part) :
    (p.program own addr hi lo []).contents = p.contents := by
  unfold Part.program
  split
  · rfl
  split
  · split
    · rfl
    split
    · simp [Part.contents]
    split
    · rfl
    · rfl
  · rfl

theorem value_pointer {offset : Nat} (h : offset < 65536) :
    (UInt8.ofNat (offset / 256)).toNat * 256 + (UInt8.ofNat offset).toNat = offset := by
  rw [UInt8.toNat_ofNat', UInt8.toNat_ofNat']
  omega

-- Polling changes nothing.
theorem wp_pollForAckAt (addr : UInt8) (tries : Nat) {c : Contents} (hc : p.contents = c) :
    wp (onBus own) (fun p => p.contents = c) (pollForAckAt addr tries) (fun _ _ => True) p := by
  induction tries generalizing p with
  | zero => exact ⟨hc, trivial⟩
  | succ tries ih =>
      refine ⟨hc, fun status p' he => ?_⟩
      have hkept : p'.contents = c := by
        obtain ⟨-, hsettles⟩ | ⟨hi, lo, data, taken, busy, hbytes, -, htaken, -, rfl⟩ := he
        · exact hsettles.contents.trans hc
        · obtain ⟨rfl, rfl, rfl⟩ : hi = 0 ∧ lo = 0 ∧ data = [] := by simpa using hbytes.symm
          rw [List.take_nil, ← hc]
          exact contents_program_nil own addr 0 0 p
      cases status with
      | ok _ => exact ⟨hkept, trivial⟩
      | error err =>
          exact ⟨hkept, fun _ p'' hdelay => ih (Part.Settles.contents hdelay ▸ hkept)⟩

end Frames

section Array

variable {own : UInt8} {p : Part} {c : Contents}

-- One frame of the loop of a write: the next bytes of the page, or the first ones of them.
theorem contents_frame (own : UInt8) {offset n taken : Nat} {data : List UInt8}
    (hp : p.contents = c.stored offset (data.take n)) (hdata : n + taken ≤ data.length)
    (hin : offset + n < EEPROM_24C128_BYTES)
    (hfits : (offset + n) % EEPROM_24C128_PAGE_BYTES + taken ≤ EEPROM_24C128_PAGE_BYTES) :
    (p.program own own (UInt8.ofNat ((offset + n) / 256)) (UInt8.ofNat (offset + n))
      ((data.drop n).take taken)).contents = c.stored offset (data.take (n + taken)) := by
  have harray : p.array = store offset (data.take n) c.array := congrArg Contents.array hp
  have hlen : ((data.drop n).take taken).length = taken := by
    rw [List.length_take, List.length_drop]
    omega
  rw [Part.program, if_pos rfl, value_pointer (by simp only [EEPROM_24C128_BYTES] at hin; omega),
    Nat.mod_eq_of_lt hin, pageProgram_eq_store _ (by rw [hlen]; exact hfits), harray]
  have hjoin := store_append offset (data.take n) ((data.drop n).take taken) c.array
  rw [← List.take_add, List.length_take, Nat.min_eq_left (by omega)] at hjoin
  rw [← hjoin]
  exact congrArg (fun c' : Contents => { c' with array := store offset (data.take (n + taken)) c.array }) hp

theorem wp_writePages {offset n : Nat} {data : List UInt8}
    (hin : offset + data.length ≤ EEPROM_24C128_BYTES) (hn : n ≤ data.length)
    (hp : p.contents = c.stored offset (data.take n)) :
    wp (onBus own) (c.Begun offset data) (writePages own (offset + n) (data.drop n))
      (fun s p' => s = .ok () → p'.contents = c.stored offset data) p := by
  induction hleft : data.length - n using Nat.strongRecOn generalizing n p with
  | ind left ih =>
    rw [writePages]
    by_cases hmore : 0 < (data.drop n).length
    swap
    · rw [dif_neg hmore]
      have hall : data.take n = data := List.take_of_length_le (by rw [List.length_drop] at hmore; omega)
      exact ⟨⟨n, hn, hp⟩, fun _ => hp.trans (by rw [hall])⟩
    rw [dif_pos hmore]
    rw [List.length_drop] at hmore
    set chunk := min (data.drop n).length
      (EEPROM_24C128_PAGE_BYTES - (offset + n) % EEPROM_24C128_PAGE_BYTES) with hchunk
    have hpos : 0 < chunk := by
      rw [hchunk, List.length_drop]
      simp only [EEPROM_24C128_PAGE_BYTES]
      omega
    have hrest : n + chunk ≤ data.length := by
      rw [hchunk, List.length_drop]
      omega
    have hfits : (offset + n) % EEPROM_24C128_PAGE_BYTES + chunk ≤ EEPROM_24C128_PAGE_BYTES := by
      rw [hchunk]
      simp only [EEPROM_24C128_PAGE_BYTES]
      omega
    refine ⟨⟨n, hn, hp⟩, fun status p' he => ?_⟩
    obtain ⟨hfailed, hsettles⟩ | ⟨hi, lo, payload, taken, busy, hbytes, -, htaken, hwhole, rfl⟩ := he
    · cases status with
      | ok _ => exact absurd rfl hfailed
      | error err =>
          have hkept := hsettles.contents.trans hp
          exact ⟨⟨n, hn, hkept⟩, nofun⟩
    obtain ⟨rfl, rfl, rfl⟩ : hi = UInt8.ofNat ((offset + n) / 256) ∧ lo = UInt8.ofNat (offset + n) ∧
        payload = (data.drop n).take chunk := by
      simpa [pointer, eq_comm] using hbytes
    have hlen : ((data.drop n).take chunk).length = chunk := by
      rw [List.length_take, List.length_drop]
      omega
    rw [hlen] at htaken hwhole
    have hframe : (p.program own own _ _ ((data.drop n).take taken)).contents =
        c.stored offset (data.take (n + taken)) :=
      contents_frame own hp (by omega) (by omega) (by omega)
    rw [List.take_take, Nat.min_eq_left htaken]
    cases status with
    | error err => exact ⟨⟨n + taken, by omega, hframe⟩, nofun⟩
    | ok _ =>
        rw [hwhole rfl] at hframe ⊢
        refine wp_bind (p := pollForAckAt own EEPROM_WRITE_POLL_MAX)
          (wp_mono (wp_relax (wp_pollForAckAt own EEPROM_WRITE_POLL_MAX (by exact hframe))
            fun p' hp' => ⟨n + chunk, hrest, hp'⟩) ?_)
        rintro (err | _) p' - ⟨hp', -⟩
        · exact ⟨⟨n + chunk, hrest, hp'⟩, nofun⟩
        · have hnext : (offset + n + chunk) % 2 ^ 16 = offset + (n + chunk) := by
            simp only [EEPROM_24C128_BYTES] at hin
            omega
          rw [hnext, List.drop_drop]
          exact ih _ (by omega) hrest hp' rfl

end Array

section Reads

variable {own : UInt8} {p : Part} {c : Contents}

theorem load_eq_map {mem : Nat → UInt8} {offset len : Nat} {wrap : Nat → Nat}
    (h : ∀ i < len, wrap i = offset + i) :
    (List.range len).map (fun i => mem (wrap i)) = load offset len mem := by
  refine List.map_congr_left fun i hi => ?_
  rw [h i (List.mem_range.mp hi)]

theorem readout_array (own : UInt8) {offset len : Nat} (p : Part) (hin : offset + len ≤ EEPROM_24C128_BYTES)
    (hlen : 0 < len) :
    p.readout own own (UInt8.ofNat (offset / 256)) (UInt8.ofNat offset) len = load offset len p.array := by
  simp only [EEPROM_24C128_BYTES] at hin
  rw [Part.readout, if_pos rfl, value_pointer (by omega)]
  exact load_eq_map fun i hi => Nat.mod_eq_of_lt (by simp only [EEPROM_24C128_BYTES]; omega)

theorem readout_securePage (own : UInt8) (p : Part) :
    p.readout own (own + EEPROM_24C128_ALT_ADDR_OFFSET) EEPROM_IDENTITY_SEL_SECURE_PAGE 0x00
      EEPROM_24C128_SECURE_PAGE_BYTES = load 0 EEPROM_24C128_SECURE_PAGE_BYTES p.secure := by
  rw [Part.readout, if_neg (alt_ne own), if_pos (by decide)]
  exact load_eq_map fun i hi => by rw [Nat.mod_eq_of_lt] <;> simp_all

theorem readout_uniqueId (own : UInt8) (p : Part) :
    p.readout own (own + EEPROM_24C128_ALT_ADDR_OFFSET) EEPROM_IDENTITY_SEL_UNIQUE_ID 0x00
      EEPROM_24C128_UNIQUE_ID_BYTES = load 0 EEPROM_24C128_UNIQUE_ID_BYTES p.uniqueId := by
  rw [Part.readout, if_neg (alt_ne own), if_neg (by decide), if_pos (by decide)]
  exact load_eq_map fun i hi => by rw [Nat.mod_eq_of_lt] <;> simp_all

theorem locked_lockStatus (locked : Bool) :
    ((if locked then 0xFF else 0xFD : UInt8) &&& 0x02 != 0) = locked := by
  cases locked <;> decide

theorem readout_lockStatus (own : UInt8) (p : Part) :
    p.readout own (own + EEPROM_24C128_ALT_ADDR_OFFSET) EEPROM_IDENTITY_SEL_LOCK_STATUS 0x00 1 =
      [if p.locked then 0xFF else 0xFD] := by
  rw [Part.readout, if_neg (alt_ne own), if_neg (by decide), if_neg (by decide), if_pos (by decide)]
  rfl

theorem readout_deviceConfig (own : UInt8) (p : Part) :
    p.readout own (own + EEPROM_24C128_ALT_ADDR_OFFSET) EEPROM_IDENTITY_SEL_DEVICE_CONFIG 0x00 1 =
      [p.config] := by
  rw [Part.readout, if_neg (alt_ne own), if_neg (by decide), if_neg (by decide), if_neg (by decide)]
  rfl

theorem wp_i2cWriteRead (addr hi lo : UInt8) (len : Nat) (hp : p.contents = c) :
    wp (onBus own) (fun p' => p'.contents = c) (alpI2cWriteRead addr [hi, lo] len)
      (fun reply _ => ∀ out, reply = .ok out →
        ∃ q : Part, q.contents = c ∧ out = q.readout own addr hi lo len) p := by
  refine ⟨hp, fun reply p' he => ?_⟩
  obtain ⟨hsettles, hout⟩ := he
  refine ⟨hsettles.contents.trans hp, fun out hreply => ?_⟩
  obtain ⟨hi', lo', hbytes, -, hread⟩ := hout out hreply
  obtain ⟨rfl, rfl⟩ : hi = hi' ∧ lo = lo' := by simpa using hbytes
  exact ⟨p, hp, hread⟩

theorem wp_readObject (addr sel : UInt8) (len : Nat) (hp : p.contents = c) :
    wp (onBus own) (fun p' => p'.contents = c) (readObject addr sel len)
      (fun object _ => ∀ out, object = some out →
        ∃ q : Part, q.contents = c ∧ out = q.readout own addr sel 0x00 len) p := by
  refine wp_bind (wp_mono (wp_i2cWriteRead addr sel 0x00 len hp) fun reply p' hp' hout => ⟨hp', ?_⟩)
  intro out hobject
  cases reply with
  | error err => cases hobject
  | ok out' =>
      obtain rfl : out' = out := by simpa [Except.toOption] using hobject
      exact hout out' rfl

theorem wp_init (ctx : Ctx) (hp : p.contents = c) (hown : ctx.initialised = true → ctx.addr = own) :
    wp (onBus own) (fun p' => p'.contents = c) (init ctx own)
      (fun out _ => out.2.initialised = true → out.2.addr = own) p := by
  rw [init]
  refine wp_ite (fun _ => ⟨hp, hown⟩) fun _ => ?_
  refine wp_bind (wp_mono (wp_i2cWriteRead own 0 0 1 hp) fun reply p' hp' _ => ?_)
  cases reply with
  | error err => exact ⟨hp', nofun⟩
  | ok out => exact ⟨hp', fun _ => rfl⟩

theorem wp_read {ctx : Ctx} {offset : UInt16} {len : Nat} (hp : p.contents = c)
    (hown : ctx.initialised = true → ctx.addr = own) :
    wp (onBus own) (fun p' => p'.contents = c) (read ctx offset len)
      (fun reply _ => ∀ out, reply = .ok out →
        offset.toNat + len ≤ EEPROM_24C128_BYTES ∧ out = load offset.toNat len c.array) p := by
  rw [read]
  refine wp_ite (fun _ => ⟨hp, nofun⟩) fun hinit => wp_ite (fun _ => ⟨hp, nofun⟩) fun hrange => ?_
  have hin : offset.toNat + len ≤ EEPROM_24C128_BYTES := alpSizeRangeValid_iff.mp (by simpa using hrange)
  refine wp_ite (fun hempty => ⟨hp, ?_⟩) fun hlen => ?_
  · rintro out ⟨rfl⟩
    subst hempty
    exact ⟨hin, rfl⟩
  · rw [hown (by simpa using hinit)]
    refine wp_mono (wp_i2cWriteRead own _ _ len hp) fun reply p' _ hreply out hout => ⟨hin, ?_⟩
    obtain ⟨q, rfl, rfl⟩ := hreply out hout
    exact readout_array own q hin (by omega)

theorem wp_readIdentity {ctx : Ctx} (hp : p.contents = c) (hown : ctx.initialised = true → ctx.addr = own) :
    wp (onBus own) (fun p' => p'.contents = c) (readIdentity ctx)
      (fun reply _ => ∀ identity, reply = .ok identity → identity.Shows c) p := by
  rw [readIdentity]
  refine wp_ite (fun _ => ⟨hp, nofun⟩) fun hinit => ?_
  rw [hown (by simpa using hinit)]
  refine wp_bind (wp_mono (wp_readObject _ _ _ hp) fun securePage p₁ hp₁ hsecure => ?_)
  refine wp_bind (wp_mono (wp_readObject _ _ _ hp₁) fun uniqueId p₂ hp₂ hid => ?_)
  refine wp_bind (wp_mono (wp_readObject _ _ _ hp₂) fun lockStatus p₃ hp₃ hlock => ?_)
  refine wp_bind (wp_mono (wp_readObject _ _ _ hp₃) fun deviceConfig p₄ hp₄ hconfig => ⟨hp₄, ?_⟩)
  rintro identity ⟨rfl⟩
  constructor
  · intro page hpage
    obtain ⟨q, rfl, rfl⟩ := hsecure page hpage
    exact readout_securePage own q
  · intro id hshown
    obtain ⟨q, rfl, rfl⟩ := hid id hshown
    exact readout_uniqueId own q
  · intro status hstatus
    obtain ⟨q, rfl, rfl⟩ := hlock status hstatus
    obtain rfl : lockStatus = some _ := hstatus
    rw [Identity.securePageLocked, readout_lockStatus]
    exact locked_lockStatus q.locked
  · intro config hshown
    obtain ⟨q, rfl, rfl⟩ := hconfig config hshown
    exact readout_deviceConfig own q

end Reads

section Writes

variable {own : UInt8} {p : Part} {c : Contents}

theorem wp_write {ctx : Ctx} {offset : UInt16} {data : List UInt8} (hp : p.contents = c)
    (hown : ctx.initialised = true → ctx.addr = own) :
    wp (onBus own) (fun p' => c.After none p'.contents (.write offset data)) (write ctx offset data)
      (fun s p' => c.After (some (.status s)) p'.contents (.write offset data)) p := by
  have hnone : ∀ out : Option Outcome, (∀ s, out = some (.status s) → s ≠ .ok ()) →
      c.After out p.contents (.write offset data) := fun out hout =>
    ⟨0, Nat.zero_le _, by rw [hp, List.take_zero, Contents.stored, store_nil], .inl rfl,
      fun h => absurd rfl (hout _ h)⟩
  rw [write]
  refine wp_ite (fun _ => ⟨hnone _ nofun, hnone _ (by rintro _ ⟨rfl⟩; nofun)⟩) fun hinit => ?_
  refine wp_ite (fun _ => ⟨hnone _ nofun, hnone _ (by rintro _ ⟨rfl⟩; nofun)⟩) fun hrange => ?_
  have hin : offset.toNat + data.length ≤ EEPROM_24C128_BYTES :=
    alpSizeRangeValid_iff.mp (by simpa using hrange)
  rw [hown (by simpa using hinit)]
  have hstart : p.contents = c.stored offset.toNat (data.take 0) := by
    rw [hp, List.take_zero, Contents.stored, store_nil]
  refine wp_mono (wp_relax (wp_writePages hin (Nat.zero_le _) hstart) ?_) ?_
  · rintro p' ⟨m, hm, hp'⟩
    exact ⟨m, hm, hp', .inr hin, nofun⟩
  · rintro s p' - ⟨⟨m, hm, hp'⟩, hwhole⟩
    by_cases hok : s = .ok ()
    · refine ⟨data.length, le_rfl, ?_, .inr hin, fun _ => ⟨rfl, hin⟩⟩
      rw [List.take_length]
      exact hwhole hok
    · exact ⟨m, hm, hp', .inr hin, fun h => absurd (by cases h; rfl) hok⟩

theorem contents_secureFrame {taken : Nat} {data : List UInt8} (own : UInt8) (hp : p.contents = c)
    (hlen : data.length = EEPROM_24C128_SECURE_PAGE_BYTES) (htaken : taken ≤ data.length) :
    (p.program own (own + EEPROM_24C128_ALT_ADDR_OFFSET) EEPROM_IDENTITY_SEL_SECURE_PAGE 0x00
      (data.take taken)).contents = { c with secure := store 0 (data.take taken) c.secure } := by
  subst hp
  rw [Part.program, if_neg (alt_ne own), if_pos rfl, if_pos (by decide), pageProgram_eq_store]
  · rfl
  · rw [List.length_take, Nat.min_eq_left htaken, show UInt8.toNat 0x00 = 0 from rfl, Nat.zero_mod,
      Nat.zero_mod, Nat.zero_add]
    exact htaken.trans hlen.le

theorem wp_securePageWrite {ctx : Ctx} {data : List UInt8} (hp : p.contents = c)
    (hown : ctx.initialised = true → ctx.addr = own) :
    wp (onBus own) (fun p' => c.After none p'.contents (.securePageWrite data)) (securePageWrite ctx data)
      (fun s p' => c.After (some (.status s)) p'.contents (.securePageWrite data)) p := by
  have hnone : ∀ (out : Option Outcome) (p' : Part), p'.contents = c → out ≠ some (.status (.ok ())) →
      c.After out p'.contents (.securePageWrite data) := fun out p' hp' hout =>
    ⟨0, Nat.zero_le _, by rw [hp', List.take_zero, store_nil], .inl rfl, fun h => absurd h hout⟩
  rw [securePageWrite]
  refine wp_ite (fun _ => ⟨hnone _ _ hp nofun, hnone _ _ hp nofun⟩) fun hinit => ?_
  refine wp_ite (fun _ => ⟨hnone _ _ hp nofun, hnone _ _ hp nofun⟩) fun hlen => ?_
  have hlen : data.length = EEPROM_24C128_SECURE_PAGE_BYTES := not_not.mp hlen
  rw [hown (by simpa using hinit)]
  refine ⟨hnone _ _ hp nofun, fun status p' he => ?_⟩
  obtain ⟨hfailed, hsettles⟩ | ⟨hi, lo, payload, taken, busy, hbytes, hopen, htaken, hwhole, rfl⟩ := he
  · have hkept := hsettles.contents.trans hp
    cases status with
    | ok _ => exact absurd rfl hfailed
    | error err => exact ⟨hnone _ _ hkept nofun, hnone _ _ hkept nofun⟩
  obtain ⟨rfl, rfl, rfl⟩ : hi = EEPROM_IDENTITY_SEL_SECURE_PAGE ∧ lo = 0x00 ∧ data = payload := by
    simpa [eq_comm] using hbytes
  have hframe := contents_secureFrame own hp hlen htaken
  have hunlocked : c.locked = false := by
    subst hp
    by_contra hlocked
    refine hopen (.inr ⟨rfl, by decide, by simpa [Part.contents] using hlocked, ?_⟩)
    rintro rfl
    exact absurd hlen (by decide)
  cases status with
  | error err =>
      exact ⟨⟨taken, htaken, hframe, .inr ⟨hlen, hunlocked⟩, nofun⟩,
        ⟨taken, htaken, hframe, .inr ⟨hlen, hunlocked⟩, nofun⟩⟩
  | ok _ =>
      rw [hwhole rfl] at hframe ⊢
      refine wp_mono (wp_relax (wp_pollForAckAt _ EEPROM_WRITE_POLL_MAX (by exact hframe)) ?_) ?_
      · exact fun p' hp' => ⟨data.length, le_rfl, hp', .inr ⟨hlen, hunlocked⟩, nofun⟩
      · exact fun s p' _ hp' => ⟨data.length, le_rfl, hp'.1, .inr ⟨hlen, hunlocked⟩, fun _ => hlen⟩

theorem contents_lockFrame (own : UInt8) (payload : List UInt8) (hp : p.contents = c) :
    ∃ locked, (p.program own (own + EEPROM_24C128_ALT_ADDR_OFFSET) EEPROM_IDENTITY_SEL_LOCK_STATUS 0x00
      payload).contents = { c with locked := locked } ∧ (c.locked = true → locked = true) := by
  subst hp
  rw [Part.program, if_neg (alt_ne own), if_pos rfl, if_neg (by decide), if_pos (by decide)]
  refine ⟨_, rfl, fun hlocked => ?_⟩
  rw [show p.locked = true from hlocked, Bool.true_or]

theorem wp_securePageLock {ctx : Ctx} (hp : p.contents = c)
    (hown : ctx.initialised = true → ctx.addr = own) :
    wp (onBus own) (fun p' => c.After none p'.contents .securePageLock) (securePageLock ctx)
      (fun s p' => c.After (some (.status s)) p'.contents .securePageLock) p := by
  have hsame : ∀ (out : Option Outcome) (p' : Part), p'.contents = c → out ≠ some (.status (.ok ())) →
      c.After out p'.contents .securePageLock := fun out p' hp' hout =>
    ⟨c.locked, hp', fun h => h, fun h => absurd h hout⟩
  rw [securePageLock]
  refine wp_ite (fun _ => ⟨hsame _ _ hp nofun, hsame _ _ hp nofun⟩) fun hinit => ?_
  rw [hown (by simpa using hinit)]
  refine ⟨hsame _ _ hp nofun, fun status p' he => ?_⟩
  obtain ⟨hfailed, hsettles⟩ | ⟨hi, lo, payload, taken, busy, hbytes, -, -, -, rfl⟩ := he
  · have hkept := hsettles.contents.trans hp
    cases status with
    | ok _ => exact absurd rfl hfailed
    | error err => exact ⟨hsame _ _ hkept nofun, hsame _ _ hkept nofun⟩
  obtain ⟨rfl, rfl, rfl⟩ : hi = EEPROM_IDENTITY_SEL_LOCK_STATUS ∧ lo = 0x00 ∧ payload = [0xFF] := by
    simpa [eq_comm] using hbytes
  obtain ⟨locked, hframe, hkept⟩ := contents_lockFrame own ([0xFF].take taken) hp
  have hafter : ∀ (out : Option Outcome) (p' : Part), p'.contents = { c with locked := locked } →
      (out = some (.status (.ok ())) → locked = true) → c.After out p'.contents .securePageLock :=
    fun out p' hp' hout => ⟨locked, hp', hkept, hout⟩
  cases status with
  | error err => exact ⟨hafter _ _ hframe nofun, hafter _ _ hframe nofun⟩
  | ok _ =>
      refine ⟨hafter _ _ hframe nofun, fun _ p' hdelay => ?_⟩
      have hp' := (Part.Settles.contents hdelay).trans hframe
      refine wp_bind (p := alpI2cWriteRead _ [EEPROM_IDENTITY_SEL_LOCK_STATUS, 0x00] 1)
        (wp_mono (wp_relax (wp_i2cWriteRead _ _ _ 1 hp') fun p'' hp'' => hafter _ _ hp'' nofun) ?_)
      rintro (err | out) p'' hJ ⟨hp'', hout⟩
      · exact ⟨hJ, hafter _ _ hp'' nofun⟩
      · obtain ⟨q, hq, rfl⟩ := hout out rfl
        refine ⟨hJ, hafter _ _ hp'' fun h => ?_⟩
        rw [readout_lockStatus, show q.locked = locked from congrArg Contents.locked hq] at h
        cases locked with
        | true => rfl
        | false =>
            rw [if_pos (by decide)] at h
            cases h

end Writes

section Kept

variable {c c' : Contents} {offset : UInt16} {data : List UInt8}

theorem Contents.Runs.last {calls : List (Call × Option Outcome)} {entry : Call × Option Outcome}
    (h : Contents.Runs c (calls ++ [entry]) c') : ∃ c'', Contents.Runs c calls c'' ∧ c''.After entry.2 c' entry.1 := by
  generalize hall : calls ++ [entry] = all at h
  cases h with
  | start => simp at hall
  | call call out hbefore hafter =>
      obtain ⟨rfl, hentry⟩ := List.append_inj' hall rfl
      obtain rfl := List.singleton_inj.mp hentry
      exact ⟨_, hbefore, hafter⟩

-- A call writes to no bytes of the array but its own.
def Call.Spares (offset len : Nat) (call : Call) : Prop :=
  ∀ offset' data', call = .write offset' data' →
    offset + len ≤ offset'.toNat ∨ offset'.toNat + data'.length ≤ offset

theorem Contents.After.load {call : Call} {out : Option Outcome} {offset len : Nat}
    (h : c.After out c' call)
    (hspares : call.Spares offset len) : load offset len c'.array = load offset len c.array := by
  cases call with
  | init => rw [show c' = c from h]
  | deinit => rw [show c' = c from h]
  | read offset' len' => rw [h.1]
  | readIdentity => rw [h.1]
  | write offset' data' =>
      obtain ⟨m, hm, rfl, -⟩ := h
      have hrange := hspares offset' data' rfl
      refine load_store_apart _ ?_
      rw [List.length_take, Nat.min_eq_left hm]
      omega
  | securePageWrite data' =>
      obtain ⟨m, -, rfl, -⟩ := h
      rfl
  | securePageLock =>
      obtain ⟨locked, rfl, -⟩ := h
      rfl

-- What a write has stored stays until a call writes there again.
theorem Contents.Runs.load {calls later : List (Call × Option Outcome)}
    (h : Contents.Runs c (calls ++ (.write offset data, some (.status (.ok ()))) :: later) c')
    (hlater : ∀ entry ∈ later, entry.1.Spares offset.toNat data.length) :
    load offset.toNat data.length c'.array = data ∧ offset.toNat + data.length ≤ EEPROM_24C128_BYTES := by
  induction later using List.reverseRecOn generalizing c' with
  | nil =>
      obtain ⟨c'', -, m, -, rfl, -, hok⟩ := h.last
      obtain ⟨rfl, hin⟩ := hok rfl
      rw [List.take_length]
      exact ⟨load_store _ _ _, hin⟩
  | append_singleton later entry ih =>
      rw [← List.cons_append, ← List.append_assoc] at h
      obtain ⟨c'', hbefore, hafter⟩ := h.last
      rw [hafter.load (hlater entry (by simp))]
      exact ih hbefore fun entry' hentry' => hlater entry' (List.mem_append_left _ hentry')

end Kept

section Runs

variable {own : UInt8} {ctx ctx' : Ctx} {p p' : Part}

theorem wp_program (call : Call) (hown : ctx.initialised = true → ctx.addr = own) :
    wp (onBus own) (fun p' => p.contents.After none p'.contents call) (call.program own ctx)
      (fun out p' => p.contents.After (some out.1) p'.contents call ∧
        (out.2.initialised = true → out.2.addr = own)) p := by
  cases call with
  | init =>
      refine wp_bind (wp_mono (wp_init ctx rfl hown) fun out p' hp' hout => ?_)
      exact ⟨hp', hp', hout⟩
  | read offset len =>
      refine wp_bind (wp_mono (wp_relax (wp_read rfl hown) fun p' hp' => ⟨hp', nofun⟩) ?_)
      intro reply p' hJ hreply
      refine ⟨hJ, ⟨hreply.1, fun bytes hbytes => ?_⟩, hown⟩
      exact hreply.2 bytes (by cases hbytes; rfl)
  | readIdentity =>
      refine wp_bind (wp_mono (wp_relax (wp_readIdentity rfl hown) fun p' hp' => ⟨hp', nofun⟩) ?_)
      intro reply p' hJ hreply
      refine ⟨hJ, ⟨hreply.1, fun identity hidentity => ?_⟩, hown⟩
      exact hreply.2 identity (by cases hidentity; rfl)
  | write offset data => exact wp_bind (wp_mono (wp_write rfl hown) fun s p' hJ hs => ⟨hJ, hs, hown⟩)
  | securePageWrite data =>
      exact wp_bind (wp_mono (wp_securePageWrite rfl hown) fun s p' hJ hs => ⟨hJ, hs, hown⟩)
  | securePageLock => exact wp_bind (wp_mono (wp_securePageLock rfl hown) fun s p' hJ hs => ⟨hJ, hs, hown⟩)
  | deinit => exact ⟨rfl, rfl, nofun⟩

theorem runs_of_calls {calls : List (Call × Option Outcome)} (h : Calls own ctx p calls ctx' p')
    (hown : ctx.initialised = true → ctx.addr = own) :
    Contents.Runs p.contents calls p'.contents ∧ (ctx'.initialised = true → ctx'.addr = own) := by
  induction h with
  | start => exact ⟨.start _, hown⟩
  | returned hbefore call hcall ih =>
      obtain ⟨-, hreturn⟩ := wp_sound hcall (wp_program call ih.2)
      obtain ⟨hafter, hown'⟩ := hreturn _ rfl
      exact ⟨.call call _ ih.1 hafter, hown'⟩
  | cut hbefore call hcall ih =>
      exact ⟨.call call none ih.1 (wp_sound hcall (wp_program call ih.2)).1, nofun⟩

-- What the calls say of the part, cut ones included, is what is in it.
theorem contents_of_calls {calls : List (Call × Option Outcome)} (h : Calls own ctx p calls ctx' p')
    (hown : ctx.initialised = true → ctx.addr = own) : Contents.Runs p.contents calls p'.contents :=
  (runs_of_calls h hown).1

instance (own addr hi : UInt8) (data : List UInt8) (p : Part) : Decidable (p.Refuses own addr hi data) :=
  inferInstanceAs (Decidable (_ ∨ _))

-- A part whose write cycles last until the next frame.
def serve (own : UInt8) : Handler bus Part
  | .i2cWrite addr (hi :: lo :: data), p =>
      if p.Refuses own addr hi data then (.error .io, { p with busy := false })
      else (.ok (), { p.program own addr hi lo data with busy := !data.isEmpty })
  | .i2cWrite _ _, p => (.error .io, p)
  | .i2cWriteRead addr [hi, lo] len, p =>
      if p.busy then (.error .io, { p with busy := false }) else (.ok (p.readout own addr hi lo len), p)
  | .i2cWriteRead _ _ _, p => (.error .io, p)
  | .delayUs _, p | .delayMs _, p => ((), p)

theorem onBus_serve (own : UInt8) (cmd : Cmd) (p : Part) :
    onBus own p cmd (serve own cmd p).1 (serve own cmd p).2 := by
  cases cmd with
  | delayUs us => exact ⟨p.busy, rfl, id⟩
  | delayMs ms => exact ⟨p.busy, rfl, id⟩
  | i2cWrite addr bytes =>
      rcases bytes with _ | ⟨hi, _ | ⟨lo, data⟩⟩
      · exact .inl ⟨nofun, p.busy, rfl, id⟩
      · exact .inl ⟨nofun, p.busy, rfl, id⟩
      · rw [serve]
        split
        · exact .inl ⟨nofun, false, rfl, nofun⟩
        case isFalse hserved =>
          refine .inr ⟨hi, lo, data, data.length, !data.isEmpty, rfl, ?_, le_rfl, fun _ => rfl, ?_⟩
          · exact hserved
          · rw [List.take_length]
  | i2cWriteRead addr bytes len =>
      rcases bytes with _ | ⟨hi, _ | ⟨lo, _ | ⟨next, rest⟩⟩⟩
      · exact ⟨⟨p.busy, rfl, id⟩, nofun⟩
      · exact ⟨⟨p.busy, rfl, id⟩, nofun⟩
      · rw [serve]
        split
        · exact ⟨⟨false, rfl, nofun⟩, nofun⟩
        case isFalse hbusy =>
          refine ⟨⟨p.busy, rfl, id⟩, fun out hout => ⟨hi, lo, rfl, by simpa using hbusy, ?_⟩⟩
          exact (Except.ok.inj hout).symm
      · exact ⟨⟨p.busy, rfl, id⟩, nofun⟩

theorem run_i2cWrite_serve (own : UInt8) {p : Part} (hidle : p.busy = false) (hi lo : UInt8)
    (data : List UInt8) :
    (alpI2cWrite own (hi :: lo :: data)).run (serve own) p =
      (.ok (), { p.program own own hi lo data with busy := !data.isEmpty }) := by
  have hopen : ¬ p.Refuses own own hi data := by
    rintro (hbusy | ⟨haddr, -⟩)
    · rw [hidle] at hbusy
      cases hbusy
    · exact alt_ne own haddr.symm
  simp only [alpI2cWrite, Prog.run_call, Prog.run_ret, serve, if_neg hopen]

theorem run_pollForAckAt_serve (own : UInt8) (p : Part) :
    ∃ p', (pollForAckAt own EEPROM_WRITE_POLL_MAX).run (serve own) p = (.ok (), p') ∧ p'.busy = false := by
  have hidle : ∀ (tries : Nat) (p : Part), p.busy = false →
      ∃ p', (pollForAckAt own (tries + 1)).run (serve own) p = (.ok (), p') ∧ p'.busy = false := by
    intro tries p hp
    rw [pollForAckAt, Prog.run_bind, run_i2cWrite_serve own hp]
    exact ⟨_, rfl, rfl⟩
  cases hbusy : p.busy with
  | false => exact hidle 19 p hbusy
  | true =>
      have hrefused : (alpI2cWrite own [0, 0]).run (serve own) p = (.error .io, { p with busy := false }) := by
        simp only [alpI2cWrite, Prog.run_call, Prog.run_ret, serve, if_pos (show p.Refuses own own 0 [] from .inl hbusy)]
      rw [EEPROM_WRITE_POLL_MAX, pollForAckAt, Prog.run_bind, hrefused]
      exact hidle 18 _ rfl

-- On such a part a write ends well.
theorem run_writePages_serve (own : UInt8) {p : Part} (hidle : p.busy = false) (offset : Nat)
    (data : List UInt8) :
    ∃ p', (writePages own offset data).run (serve own) p = (.ok (), p') ∧ p'.busy = false := by
  induction hleft : data.length using Nat.strongRecOn generalizing offset data p with
  | ind left ih =>
    rw [writePages]
    by_cases hmore : 0 < data.length
    swap
    · rw [dif_neg hmore]
      exact ⟨p, rfl, hidle⟩
    rw [dif_pos hmore]
    set chunk := min data.length (EEPROM_24C128_PAGE_BYTES - offset % EEPROM_24C128_PAGE_BYTES) with hchunk
    have hpos : 0 < chunk := by
      rw [hchunk]
      simp only [EEPROM_24C128_PAGE_BYTES]
      omega
    have hfull : (data.take chunk).isEmpty = false := by
      rw [List.isEmpty_eq_false_iff_exists_mem]
      exact ⟨data[0], List.mem_take_iff_getElem.mpr ⟨0, by omega, rfl⟩⟩
    have hframe := run_i2cWrite_serve own hidle (UInt8.ofNat (offset / 256)) (UInt8.ofNat offset)
      (data.take chunk)
    rw [hfull] at hframe
    obtain ⟨p', hpoll, hidle'⟩ := run_pollForAckAt_serve own { p.program own own (UInt8.ofNat (offset / 256))
      (UInt8.ofNat offset) (data.take chunk) with busy := !false }
    obtain ⟨p'', hrest, hidle''⟩ := ih (data.drop chunk).length (by rw [List.length_drop]; omega) hidle'
      ((offset + chunk) % 2 ^ 16) (data.drop chunk) rfl
    refine ⟨p'', ?_, hidle''⟩
    rw [Prog.run_bind, show pointer offset ++ data.take chunk = _ :: _ :: data.take chunk from rfl, hframe]
    dsimp only
    rw [Prog.run_bind, hpoll]
    exact hrest

def blank : Part := ⟨fun _ => 0xFF, fun _ => 0xFF, fun _ => 0, false, 0, false⟩

set_option maxRecDepth 4000 in
-- Four bytes over the end of the first page, and back.
theorem contents_of_calls_page :
    ∃ p : Part, Contents.Runs blank.contents
      [(.init, some (.status (.ok ()))), (.write 62 [1, 2, 3, 4], some (.status (.ok ()))),
        (.read 61 6, some (.bytes (.ok [0xFF, 1, 2, 3, 4, 0xFF])))] p.contents := by
  have hinit : Calls 0x50 ⟨false, 0⟩ blank _ ⟨true, 0x50⟩ blank :=
    .returned (.start _ _) .init (exec_of_run (onBus_serve 0x50) (Call.init.program 0x50 ⟨false, 0⟩) blank)
  have hwritten : ((Call.write 62 [1, 2, 3, 4]).program 0x50 ⟨true, 0x50⟩).run (serve 0x50) blank =
      ((.status (.ok ()), ⟨true, 0x50⟩),
        { blank with array := pageProgram 64 [3, 4] (pageProgram 62 [1, 2] blank.array) }) := by
    rw [Call.program, write, writePages]
    dsimp only
    rw [writePages]
    dsimp only
    rw [writePages]
    rfl
  have hwrite := exec_of_run (onBus_serve 0x50)
    ((Call.write 62 [1, 2, 3, 4]).program 0x50 ⟨true, 0x50⟩) blank
  rw [hwritten] at hwrite
  have hread := exec_of_run (onBus_serve 0x50) ((Call.read 61 6).program 0x50 ⟨true, 0x50⟩)
    { blank with array := pageProgram 64 [3, 4] (pageProgram 62 [1, 2] blank.array) }
  exact ⟨_, contents_of_calls (.returned (.returned hinit _ hwrite) _ hread) nofun⟩

end Runs

end AlpSdk.Eeprom24c128
