import AlpSdk.AlpModel.Package
import AlpSdk.Library.Checked
import AlpSdk.Status

-- The reader of model packages (src/common/alp_model.c). The CBOR decoder is a parameter.
namespace AlpSdk.AlpModel

open Library Library.Bytes Library.Checked
open Library.Cbor (Value Span Decoder flat)

def HDR_SIZE : Nat := 24
def CONTAINER_V : Nat := 1

-- Of the 8 states of the decoder, what it keeps for containers left open.
def BACKUPS : Nat := 6

-- `idx` of a target whose map has no blob key.
def NO_BLOB : UInt32 := 0xFFFFFFFF

def rdU16 (data : List UInt8) (off : Nat) : Checked AlpError Nat := do
  let bytes ← follow (read off 2 data)
  pure (getLE bytes)

def rdU32 (data : List UInt8) (off : Nat) : Checked AlpError Nat := do
  let bytes ← follow (read off 4 data)
  pure (getLE bytes)

-- What stands in the array up to its first NUL, which may come from the string itself.
def copyTstr (s : Text) : CString := (s.take (STR_MAX - 1)).takeWhile (· ≠ 0)

-- What a failed operation of the decoder comes to.
def expect {α : Type} (result : Option α) : Checked AlpError α :=
  match result with
  | none => fail .inval
  | some value => pure value

-- The targets decoded so far, each with its blob index, under the fields of the model.
@[ext]
structure Draft where
  name : CString := []
  srcSha : List UInt8 := List.replicate 32 0
  targets : List (Target × UInt32) := []
  bounded : targets.length ≤ MAX_TARGETS := by decide

def Draft.add (d : Draft) (entry : Target × UInt32) (h : d.targets.length < MAX_TARGETS) : Draft :=
  { d with
    targets := d.targets ++ [entry]
    bounded := by
      rw [List.length_append]
      exact h }

section Decode

variable (d : Decoder)

-- A string of the payload, by the bytes that its pointer leads to.
def string (found : Option (Span × d.State)) : Checked AlpError (List UInt8 × d.State) := do
  let (s, z') ← expect found
  let contents ← follow (read s.off s.len (d.payload z'))
  pure (contents, z')

def tstr (z : d.State) : Checked AlpError (Text × d.State) := string d (d.text z)
def bstr (z : d.State) : Checked AlpError (List UInt8 × d.State) := string d (d.bytes z)

-- The loop over the entries of a map. A key is read here, its value by `field`.
def eachEntry {α : Type} (field : Text → d.State → α → Checked AlpError (d.State × α)) :
    Nat → d.State → α → Checked AlpError (d.State × α)
  -- never reached: every key takes at least one byte of what is left
  | 0, _, _ => stray
  | fuel + 1, z, acc =>
      if d.atEnd z then pure (z, acc)
      else do
        let (key, z) ← tstr d z
        let (z, acc) ← field key z acc
        eachEntry field fuel z acc

def decodeMap {α : Type} (field : Text → d.State → α → Checked AlpError (d.State × α)) (z : d.State)
    (acc : α) : Checked AlpError (d.State × α) := do
  let z ← expect (d.mapStart z)
  let (z, acc) ← eachEntry d field (d.left z + 1) z acc
  let z ← expect (d.mapEnd z)
  pure (z, acc)

def skipped {α : Type} (z : d.State) (acc : α) : Checked AlpError (d.State × α) := do
  let z ← expect (d.skip z)
  pure (z, acc)

def requiresField (key : Text) (z : d.State) (t : Target) : Checked AlpError (d.State × Target) :=
  if key = ascii "sram_kib" then do
    let (n, z) ← expect (d.uint32 z)
    pure (z, { t with reqSramKib := n })
  else skipped d z t

def decodeRequires (z : d.State) (t : Target) : Checked AlpError (d.State × Target) :=
  decodeMap d (requiresField d) z t

def targetField (key : Text) (z : d.State) (acc : Target × UInt32) :
    Checked AlpError (d.State × (Target × UInt32)) :=
  let (t, blobIndex) := acc
  if key = ascii "backend" then do
    let (v, z) ← tstr d z
    pure (z, { t with backend := copyTstr v }, blobIndex)
  else if key = ascii "silicon_ref" then do
    let (v, z) ← tstr d z
    pure (z, { t with siliconRef := copyTstr v }, blobIndex)
  else if key = ascii "blob_format" then do
    let (v, z) ← tstr d z
    pure (z, { t with blobFormat := copyTstr v }, blobIndex)
  else if key = ascii "accel_config" then do
    let (v, z) ← tstr d z
    pure (z, { t with accelConfig := copyTstr v }, blobIndex)
  else if key = ascii "arena" then do
    let (n, z) ← expect (d.uint32 z)
    pure (z, { t with arenaBytes := n }, blobIndex)
  else if key = ascii "requires" then do
    let (z, t) ← decodeRequires d z t
    pure (z, t, blobIndex)
  else if key = ascii "blob" then do
    let (n, z) ← expect (d.uint32 z)
    pure (z, t, n)
  else skipped d z acc

def decodeTarget (z : d.State) : Checked AlpError (d.State × (Target × UInt32)) :=
  decodeMap d (targetField d) z ({}, NO_BLOB)

-- The loop over the targets; `room` bounds how many more there is place for.
def eachTarget : Nat → d.State → Draft → Checked AlpError (d.State × Draft)
  | 0, z, draft => pure (z, draft)
  | room + 1, z, draft =>
      if d.atEnd z then pure (z, draft)
      else if h : draft.targets.length < MAX_TARGETS then do
        let (z, entry) ← decodeTarget d z
        eachTarget room z (draft.add entry h)
      else pure (z, draft)

def manifestField (key : Text) (z : d.State) (draft : Draft) : Checked AlpError (d.State × Draft) :=
  if key = ascii "name" then do
    let (v, z) ← tstr d z
    pure (z, { draft with name := copyTstr v })
  else if key = ascii "src_sha" then do
    let (v, z) ← bstr d z
    pure (z, if v.length = 32 then { draft with srcSha := v } else draft)
  else if key = ascii "targets" then do
    let z ← expect (d.listStart z)
    let (z, draft) ← eachTarget d MAX_TARGETS z draft
    let z ← expect (d.listEnd z)
    pure (z, draft)
  else skipped d z draft

end Decode

-- The blob of a target, by its entry in the table; `size_t` has `width` bits.
def resolveBlob (width : Nat) (data : List UInt8) (tblOff blobCount : Nat) (entry : Target × UInt32) :
    Checked AlpError Target := do
  require (entry.2.toNat < blobCount) .inval
  let e := (tblOff + entry.2.toNat * 8) % 2 ^ width
  let boff ← rdU32 data e
  let blen ← rdU32 data ((e + 4) % 2 ^ width)
  require (boff ≤ data.length ∧ blen ≤ data.length - boff) .inval
  pure { entry.1 with blob := boff, blobLen := UInt32.ofNat blen }

def resolveBlobs (width : Nat) (data : List UInt8) (tblOff blobCount : Nat) :
    (entries : List (Target × UInt32)) → Checked AlpError { ts : List Target // ts.length = entries.length }
  | [] => pure ⟨[], rfl⟩
  | entry :: entries => do
      let t ← resolveBlob width data tblOff blobCount entry
      let ⟨ts, h⟩ ← resolveBlobs width data tblOff blobCount entries
      pure ⟨t :: ts, congrArg (· + 1) h⟩

-- `alp_model_parse`
def parse (d : Decoder) (width : Nat) (data : List UInt8) : Checked AlpError Model := do
  require (HDR_SIZE ≤ data.length) .inval
  let magic ← follow (read 0 4 data)
  require (magic = MAGIC) .inval
  let version ← rdU16 data 4
  require (version = CONTAINER_V) .version
  let flags ← rdU16 data 6
  let mftOff ← rdU32 data 8
  let mftLen ← rdU32 data 12
  let tblOff ← rdU32 data 16
  let blobCount ← rdU32 data 20
  require (mftOff ≤ data.length ∧ mftLen ≤ data.length - mftOff) .inval
  require (tblOff ≤ data.length ∧ blobCount ≤ (data.length - tblOff) / 8) .inval
  let payload ← follow (read mftOff mftLen data)
  let (_, draft) ← decodeMap d (manifestField d) (d.start BACKUPS payload) {}
  let ⟨targets, h⟩ ← resolveBlobs width data tblOff blobCount draft.targets
  pure
    { name := draft.name
      srcSha := draft.srcSha
      flags := UInt16.ofNat flags
      targets := targets
      bounded := h ▸ draft.bounded }

section Sound

variable {d : Decoder} (hd : d.Bounded)

theorem sound_expect {α β : Type} {found : Option α} {f : α → Checked AlpError β} {Q : β → Prop}
    (h : ∀ value, found = some value → Sound (f value) Q) : Sound (expect found >>= f) Q := by
  cases found with
  | none => trivial
  | some value => exact h value rfl

theorem onward_refl (z : d.State) : d.Onward z z := ⟨rfl, le_rfl⟩

theorem onward_trans {z z' z'' : d.State} (h : d.Onward z z') (h' : d.Onward z' z'') : d.Onward z z'' :=
  ⟨h'.1.trans h.1, h'.2.trans h.2⟩

include hd

theorem sound_tstr (z : d.State) :
    Sound (tstr d z) fun r => d.payload r.2 = d.payload z ∧ d.left r.2 < d.left z := by
  refine sound_expect fun (s, z') hz' => ?_
  obtain ⟨hspan, hpayload, hleft⟩ := hd.text z s z' hz'
  refine sound_follow (read_of_le ?_) (sound_pure ⟨hpayload, hleft⟩)
  rwa [hpayload]

theorem sound_bstr (z : d.State) : Sound (bstr d z) fun r => d.Onward z r.2 := by
  refine sound_expect fun (s, z') hz' => ?_
  obtain ⟨hspan, honward⟩ := hd.bytes z s z' hz'
  refine sound_follow (read_of_le ?_) (sound_pure honward)
  rwa [honward.1]

section Maps

variable {α : Type} {field : Text → d.State → α → Checked AlpError (d.State × α)}
variable (hfield : ∀ key z acc, Sound (field key z acc) fun r => d.Onward z r.1)

include hfield

theorem sound_eachEntry {fuel : Nat} {z : d.State} {acc : α} (hfuel : d.left z < fuel) :
    Sound (eachEntry d field fuel z acc) fun r => d.Onward z r.1 := by
  induction fuel generalizing z acc with
  | zero => exact absurd hfuel (Nat.not_lt_zero _)
  | succ fuel ih =>
      unfold eachEntry
      split
      · exact sound_pure (onward_refl z)
      · refine sound_seq (sound_tstr hd z) fun (key, z₁) ⟨hpayload, hleft⟩ => ?_
        refine sound_seq (hfield key z₁ acc) fun (z₂, acc₂) honward => ?_
        have hstep : d.Onward z z₂ := onward_trans ⟨hpayload, hleft.le⟩ honward
        refine sound_mono (ih ?_) fun r hr => onward_trans hstep hr
        exact Nat.lt_of_lt_of_le (Nat.lt_of_le_of_lt honward.2 hleft) (Nat.le_of_lt_succ hfuel)

theorem sound_decodeMap (z : d.State) (acc : α) :
    Sound (decodeMap d field z acc) fun r => d.Onward z r.1 := by
  refine sound_expect fun z₁ hstart => ?_
  refine sound_seq (sound_eachEntry hd hfield (Nat.lt_succ_self _)) fun (z₂, acc₂) honward => ?_
  refine sound_expect fun z₃ hend => sound_pure ?_
  exact onward_trans (hd.mapStart z z₁ hstart) (onward_trans honward (hd.mapEnd z₂ z₃ hend))

end Maps

theorem sound_skipped {α : Type} (z : d.State) (acc : α) :
    Sound (skipped d z acc) fun r => d.Onward z r.1 :=
  sound_expect fun z' hz' => sound_pure (hd.skip z z' hz')

theorem sound_text {β : Type} {z : d.State} {f : Text × d.State → Checked AlpError β} {Q : β → Prop}
    (h : ∀ v z', d.Onward z z' → Sound (f (v, z')) Q) : Sound (tstr d z >>= f) Q :=
  sound_seq (sound_tstr hd z) fun (v, z') hz' => h v z' ⟨hz'.1, hz'.2.le⟩

theorem sound_uint32 {β : Type} {z : d.State} {f : UInt32 × d.State → Checked AlpError β} {Q : β → Prop}
    (h : ∀ n z', d.Onward z z' → Sound (f (n, z')) Q) : Sound (expect (d.uint32 z) >>= f) Q :=
  sound_expect fun (n, z') hz' => h n z' (hd.uint32 z n z' hz')

theorem sound_requiresField (key : Text) (z : d.State) (t : Target) :
    Sound (requiresField d key z t) fun r => d.Onward z r.1 := by
  unfold requiresField
  split
  · exact sound_uint32 hd fun n z' h => sound_pure h
  · exact sound_skipped hd z t

theorem sound_targetField (key : Text) (z : d.State) (acc : Target × UInt32) :
    Sound (targetField d key z acc) fun r => d.Onward z r.1 := by
  obtain ⟨t, blobIndex⟩ := acc
  unfold targetField
  simp only
  split_ifs
  · exact sound_text hd fun v z' h => sound_pure h
  · exact sound_text hd fun v z' h => sound_pure h
  · exact sound_text hd fun v z' h => sound_pure h
  · exact sound_text hd fun v z' h => sound_pure h
  · exact sound_uint32 hd fun n z' h => sound_pure h
  · exact sound_seq (sound_decodeMap hd (sound_requiresField hd) z t) fun (z', t) h => sound_pure h
  · exact sound_uint32 hd fun n z' h => sound_pure h
  · exact sound_skipped hd z _

theorem sound_eachTarget (room : Nat) (z : d.State) (draft : Draft) :
    Sound (eachTarget d room z draft) fun r => d.Onward z r.1 := by
  induction room generalizing z draft with
  | zero => exact sound_pure (onward_refl z)
  | succ room ih =>
      unfold eachTarget
      split
      · exact sound_pure (onward_refl z)
      · split
        · refine sound_seq (sound_decodeMap hd (sound_targetField hd) z _) fun (z', entry) honward => ?_
          exact sound_mono (ih z' _) fun r hr => onward_trans honward hr
        · exact sound_pure (onward_refl z)

theorem sound_manifestField (key : Text) (z : d.State) (draft : Draft) :
    Sound (manifestField d key z draft) fun r => d.Onward z r.1 := by
  unfold manifestField
  split_ifs
  · exact sound_text hd fun v z' h => sound_pure h
  · exact sound_seq (sound_bstr hd z) fun (v, z') h => sound_pure h
  · refine sound_expect fun z₁ hstart => ?_
    refine sound_seq (sound_eachTarget hd MAX_TARGETS z₁ draft) fun (z₂, draft₂) honward => ?_
    refine sound_expect fun z₃ hend => sound_pure ?_
    exact onward_trans (hd.listStart z z₁ hstart) (onward_trans honward (hd.listEnd z₂ z₃ hend))
  · exact sound_skipped hd z draft

omit hd

theorem sound_rdU32 {data : List UInt8} {off : Nat} (h : off + 4 ≤ data.length) :
    Sound (rdU32 data off) fun n => n < 2 ^ 32 := by
  refine sound_follow (read_of_le h) (sound_pure ?_)
  have hlt := getLE_lt (slice off 4 data)
  rwa [length_slice h] at hlt

theorem sound_rdU16 {data : List UInt8} {off : Nat} (h : off + 2 ≤ data.length) :
    Sound (rdU16 data off) fun _ => True :=
  sound_follow (read_of_le h) (sound_pure trivial)

section Blobs

variable {width tblOff blobCount : Nat} {data : List UInt8}

def InPackage (data : List UInt8) (t : Target) : Prop := t.blob + t.blobLen.toNat ≤ data.length

variable (hsize : data.length < 2 ^ width) (htbl : tblOff ≤ data.length)
variable (hcount : blobCount ≤ (data.length - tblOff) / 8)

include hsize htbl hcount

theorem sound_resolveBlob (entry : Target × UInt32) :
    Sound (resolveBlob width data tblOff blobCount entry) (InPackage data) := by
  refine sound_require fun hindex => ?_
  -- the table check leaves room for the entry, so neither sum wraps
  have hentry : tblOff + entry.2.toNat * 8 + 8 ≤ data.length := by omega
  have he : (tblOff + entry.2.toNat * 8) % 2 ^ width = tblOff + entry.2.toNat * 8 :=
    Nat.mod_eq_of_lt (by omega)
  have he' : (tblOff + entry.2.toNat * 8 + 4) % 2 ^ width = tblOff + entry.2.toNat * 8 + 4 :=
    Nat.mod_eq_of_lt (by omega)
  simp only [he, he']
  refine sound_seq (sound_rdU32 (by omega)) fun boff _ => ?_
  refine sound_seq (sound_rdU32 (by omega)) fun blen hblen => ?_
  refine sound_require fun hblob => sound_pure ?_
  have hlen : (UInt32.ofNat blen).toNat = blen := UInt32.toNat_ofNat_of_lt' hblen
  simp only [InPackage, hlen]
  omega

theorem sound_resolveBlobs (entries : List (Target × UInt32)) :
    Sound (resolveBlobs width data tblOff blobCount entries) fun ts => ∀ t ∈ ts.val, InPackage data t := by
  induction entries with
  | nil => exact sound_pure nofun
  | cons entry entries ih =>
      refine sound_seq (sound_resolveBlob hsize htbl hcount entry) fun t ht => ?_
      exact sound_seq ih fun ts hts => sound_pure (List.forall_mem_cons.mpr ⟨ht, hts⟩)

end Blobs

theorem sound_parse (hd : d.Bounded) {width : Nat} {data : List UInt8} (hsize : data.length < 2 ^ width) :
    Sound (parse d width data) fun model => ∀ t ∈ model.targets, InPackage data t := by
  refine sound_require fun hhdr => ?_
  have hbound : 24 ≤ data.length := hhdr
  refine sound_follow (read_of_le (by omega)) (sound_require fun _ => ?_)
  refine sound_seq (sound_rdU16 (by omega)) fun version _ => sound_require fun _ => ?_
  refine sound_seq (sound_rdU16 (by omega)) fun flags _ => ?_
  refine sound_seq (sound_rdU32 (by omega)) fun mftOff _ => ?_
  refine sound_seq (sound_rdU32 (by omega)) fun mftLen _ => ?_
  refine sound_seq (sound_rdU32 (by omega)) fun tblOff _ => ?_
  refine sound_seq (sound_rdU32 (by omega)) fun blobCount _ => ?_
  refine sound_require fun hmft => sound_require fun htbl => ?_
  refine sound_follow (read_of_le (by omega)) ?_
  refine sound_seq (sound_decodeMap hd (sound_manifestField hd) _ _) fun (z, draft) _ => ?_
  exact sound_seq (sound_resolveBlobs hsize htbl.1 htbl.2 draft.targets) fun ts hts => sound_pure hts

end Sound

end AlpSdk.AlpModel
