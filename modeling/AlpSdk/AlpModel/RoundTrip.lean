import AlpSdk.AlpModel.Parse
import AlpSdk.Library.Cbor.Wire
import Mathlib.Data.List.TakeWhile

-- What the reader makes of a package that the writer wrote.
namespace AlpSdk.AlpModel

open Library Library.Bytes Library.Checked
open Library.Cbor (Value Span Decoder flat)

-- A list taken one element at a time.
inductive Chain {α β : Type} (step : β → α → α → Prop) : List β → α → α → Prop where
  | nil (acc : α) : Chain step [] acc acc
  | cons {b : β} {bs : List β} {acc acc' acc'' : α} (hstep : step b acc acc')
      (hrest : Chain step bs acc' acc'') : Chain step (b :: bs) acc acc''

-- What the reader keeps of the requirements.
def sramKib (entries : List (Text × Value)) (before : UInt32) : UInt32 :=
  match entries.lookup (ascii "sram_kib") with
  | some (.int n) => UInt32.ofNat n.toNat
  | _ => before

theorem sramKib_found {n before : UInt32} {entries : List (Text × Value)} :
    sramKib ((ascii "sram_kib", .int n.toNat) :: entries) before = n := by
  simp [sramKib]

theorem sramKib_other {key : Text} {value : Value} {entries : List (Text × Value)} {before : UInt32}
    (hkey : key ≠ ascii "sram_kib") : sramKib ((key, value) :: entries) before = sramKib entries before := by
  have hbeq : (ascii "sram_kib" == key) = false := beq_eq_false_iff_ne.mpr (Ne.symm hkey)
  simp only [sramKib, List.lookup_cons, hbeq]

theorem sramKib_of_notMem {entries : List (Text × Value)} {before : UInt32}
    (h : ascii "sram_kib" ∉ entries.map Prod.fst) : sramKib entries before = before := by
  have hnone : entries.lookup (ascii "sram_kib") = none := by
    rw [List.lookup_eq_none_iff]
    intro entry hentry
    have hne : ascii "sram_kib" ≠ entry.1 := fun heq => h (heq ▸ List.mem_map_of_mem hentry)
    simpa using hne
  rw [sramKib, hnone]

-- The targets that a package may have by the sizes of their strings and by the number of its blobs.
structure Manifest.Target.Bounded (blobCount : Nat) (t : Manifest.Target) : Prop where
  backend : t.backend.length < STR_MAX
  siliconRef : t.siliconRef.length < STR_MAX
  blobFormat : t.blobFormat.length < STR_MAX
  accelConfig : t.accelConfig.length < STR_MAX
  blob : ∃ i, i < blobCount ∧ t.blob = (i : Nat)

-- The two numbers of a target as the reader can hold them.
structure Manifest.Target.InRange (t : Manifest.Target) : Prop where
  arena : ∃ n : UInt32, t.arena = n.toNat
  sramKib : ∀ value, t.requires.get (ascii "sram_kib") = some value → ∃ n : UInt32, value = .int n.toNat

-- The targets that the reader can hold as they are.
structure Manifest.Target.Fits (blobCount : Nat) (t : Manifest.Target) : Prop
    extends Bounded blobCount t, InRange t where
  noNul : ∀ s ∈ [t.backend, t.siliconRef, t.blobFormat, t.accelConfig], 0 ∉ s

-- What the reader makes of a target before it looks up the blob.
def parsedTarget (t : Manifest.Target) : Target × UInt32 :=
  ({ backend := t.backend
     siliconRef := t.siliconRef
     blobFormat := t.blobFormat
     accelConfig := t.accelConfig
     arenaBytes := UInt32.ofNat t.arena.toNat
     reqSramKib := sramKib t.requires.entries 0 },
    UInt32.ofNat t.blob.toNat)

theorem copyTstr_of_lt {s : Text} (h : s.length < STR_MAX) (hnul : 0 ∉ s) : copyTstr s = s := by
  rw [copyTstr, List.take_of_length_le (Nat.le_sub_one_of_lt h), List.takeWhile_eq_self_iff]
  intro c hc
  have hne : c ≠ 0 := fun h => hnul (h ▸ hc)
  exact decide_eq_true hne

section Reads

variable {d : Decoder} (hd : d.Bounded)
variable {dumps : Value → List UInt8} {At : d.State → List Value → List (List Value) → Prop}
variable (hinv : d.Inverse dumps BACKUPS At)
variable {z : d.State} {items : List Value} {outer : List (List Value)}

theorem yields_expect {α β : Type} {found : Option α} {value : α} (hfound : found = some value)
    {f : α → Checked AlpError β} {Q : β → Prop} (h : Yields (f value) Q) : Yields (expect found >>= f) Q := by
  rw [hfound]
  exact h

include hinv

theorem yields_skipped {α : Type} {value : Value} {acc : α} (hz : At z (value :: items) outer) :
    Yields (skipped d z acc) fun r => r.2 = acc ∧ At r.1 items outer := by
  obtain ⟨z', hskip, hz'⟩ := hinv.skip z value items outer hz
  exact yields_expect hskip (yields_pure ⟨rfl, hz'⟩)

theorem yields_uint32 {β : Type} {n : UInt32} {f : UInt32 × d.State → Checked AlpError β} {Q : β → Prop}
    (hz : At z (.int n.toNat :: items) outer) (h : ∀ z', At z' items outer → Yields (f (n, z')) Q) :
    Yields (expect (d.uint32 z) >>= f) Q := by
  obtain ⟨z', huint, hz'⟩ := hinv.uint32 z n items outer hz
  exact yields_expect huint (h z' hz')

include hd

theorem yields_tstr {contents : Text} (hz : At z (.text contents :: items) outer) :
    Yields (tstr d z) fun r => r.1 = contents ∧ At r.2 items outer := by
  obtain ⟨s, z', htext, hbytes, hz'⟩ := hinv.text z contents items outer hz
  obtain ⟨hspan, hpayload, -⟩ := hd.text z s z' htext
  refine yields_expect htext (yields_follow (read_of_le ?_) (yields_pure ⟨?_, hz'⟩))
  · rwa [hpayload]
  · rw [hpayload]
    exact hbytes

theorem yields_bstr {contents : List UInt8} (hz : At z (.bytes contents :: items) outer) :
    Yields (bstr d z) fun r => r.1 = contents ∧ At r.2 items outer := by
  obtain ⟨s, z', hfound, hbytes, hz'⟩ := hinv.bytes z contents items outer hz
  obtain ⟨hspan, hpayload, -⟩ := hd.bytes z s z' hfound
  refine yields_expect hfound (yields_follow (read_of_le ?_) (yields_pure ⟨?_, hz'⟩))
  · rwa [hpayload]
  · rw [hpayload]
    exact hbytes

omit hd hinv

-- What `field` makes of one entry of a map.
def Takes (At : d.State → List Value → List (List Value) → Prop) {α : Type}
    (field : Text → d.State → α → Checked AlpError (d.State × α)) (outer : List (List Value))
    (entry : Text × Value) (acc acc' : α) : Prop :=
  ∀ z items, At z (entry.2 :: items) outer →
    Yields (field entry.1 z acc) fun r => r.2 = acc' ∧ At r.1 items outer

include hd hinv

section Maps

variable {α : Type} {field : Text → d.State → α → Checked AlpError (d.State × α)}
variable (hfield : ∀ key z acc, Sound (field key z acc) fun r => d.Onward z r.1)
variable {entries : List (Text × Value)} {acc acc' : α}

include hfield

theorem yields_eachEntry {fuel : Nat} (hchain : Chain (Takes At field outer) entries acc acc')
    (hz : At z (flat (entries.map fun entry => (.text entry.1, entry.2))) outer) (hfuel : d.left z < fuel) :
    Yields (eachEntry d field fuel z acc) fun r => r.2 = acc' ∧ At r.1 [] outer := by
  induction hchain generalizing z fuel with
  | nil acc =>
      obtain ⟨fuel, rfl⟩ := Nat.exists_eq_succ_of_ne_zero (Nat.ne_of_gt (Nat.zero_lt_of_lt hfuel))
      have hend : d.atEnd z = true := hinv.atEnd z _ _ hz
      unfold eachEntry
      rw [if_pos hend]
      exact yields_pure ⟨rfl, hz⟩
  | @cons entry entries acc acc₁ acc₂ hstep _ ih =>
      obtain ⟨fuel, rfl⟩ := Nat.exists_eq_succ_of_ne_zero (Nat.ne_of_gt (Nat.zero_lt_of_lt hfuel))
      have hmore : d.atEnd z = false := hinv.atEnd z _ _ hz
      unfold eachEntry
      rw [hmore, if_neg Bool.false_ne_true]
      refine yields_seq (yields_sound (yields_tstr hd hinv hz) (sound_tstr hd z)) ?_
      rintro ⟨key, z₁⟩ ⟨⟨rfl, hz₁⟩, -, hleft⟩
      refine yields_seq (yields_sound (hstep z₁ _ hz₁) (hfield _ z₁ acc)) ?_
      rintro ⟨z₂, acc₁⟩ ⟨⟨rfl, hz₂⟩, honward⟩
      exact ih hz₂ (Nat.lt_of_lt_of_le (Nat.lt_of_le_of_lt honward.2 hleft) (Nat.le_of_lt_succ hfuel))

theorem yields_decodeMap (hchain : Chain (Takes At field (items :: outer)) entries acc acc')
    (hz : At z (dictValue entries :: items) outer) (hdepth : outer.length < BACKUPS) :
    Yields (decodeMap d field z acc) fun r => r.2 = acc' ∧ At r.1 items outer := by
  obtain ⟨z₁, hstart, hz₁⟩ := hinv.mapStart z _ items outer hz hdepth
  refine yields_expect hstart ?_
  refine yields_seq (yields_eachEntry hd hinv hfield hchain hz₁ (Nat.lt_succ_self _)) ?_
  rintro ⟨z₂, acc₂⟩ ⟨rfl, hz₂⟩
  obtain ⟨z₃, hend, hz₃⟩ := hinv.mapEnd z₂ items outer hz₂
  exact yields_expect hend (yields_pure ⟨rfl, hz₃⟩)

end Maps

omit hd in
theorem takes_sramKib {n : UInt32} {t : Target} :
    Takes At (requiresField d) outer (ascii "sram_kib", .int n.toNat) t { t with reqSramKib := n } := by
  intro z items hz
  unfold requiresField
  rw [if_pos rfl]
  exact yields_uint32 hinv hz fun z' hz' => yields_pure ⟨rfl, hz'⟩

omit hd in
theorem takes_other {key : Text} {value : Value} {t : Target} (hkey : key ≠ ascii "sram_kib") :
    Takes At (requiresField d) outer (key, value) t t := by
  intro z items hz
  unfold requiresField
  rw [if_neg hkey]
  exact yields_skipped hinv hz

theorem takes_text {key : Text} {contents : Text} {acc : Target × UInt32} (put : Target → CString → Target)
    (hkey : ∀ z, targetField d key z acc =
      (do let (v, z) ← tstr d z; pure (z, put acc.1 (copyTstr v), acc.2))) :
    Takes At (targetField d) outer (key, .text contents) acc (put acc.1 (copyTstr contents), acc.2) := by
  intro z items hz
  rw [hkey]
  refine yields_seq (yields_tstr hd hinv hz) ?_
  rintro ⟨v, z'⟩ ⟨rfl, hz'⟩
  exact yields_pure ⟨rfl, hz'⟩

omit hd in
theorem takes_arena {n : UInt32} {acc : Target × UInt32} :
    Takes At (targetField d) outer (ascii "arena", .int n.toNat) acc
      ({ acc.1 with arenaBytes := n }, acc.2) :=
  fun _ _ hz => yields_uint32 hinv hz fun _ hz' => yields_pure ⟨rfl, hz'⟩

omit hd in
theorem takes_blob {n : UInt32} {acc : Target × UInt32} :
    Takes At (targetField d) outer (ascii "blob", .int n.toNat) acc (acc.1, n) :=
  fun _ _ hz => yields_uint32 hinv hz fun _ hz' => yields_pure ⟨rfl, hz'⟩

theorem takes_requires {entries : List (Text × Value)} {t t' : Target} {i : UInt32}
    (hdepth : outer.length < BACKUPS)
    (hchain : ∀ items, Chain (Takes At (requiresField d) (items :: outer)) entries t t') :
    Takes At (targetField d) outer (ascii "requires", dictValue entries) (t, i) (t', i) := by
  intro z items hz
  refine yields_seq (yields_decodeMap hd hinv (sound_requiresField hd) (hchain items) hz hdepth) ?_
  rintro ⟨z', t''⟩ ⟨rfl, hz'⟩
  exact yields_pure ⟨rfl, hz'⟩

omit hd in
theorem takes_compilerVersion {value : Value} {acc : Target × UInt32} :
    Takes At (targetField d) outer (ascii "compiler_version", value) acc acc :=
  fun _ _ hz => yields_skipped hinv hz

omit hd in
theorem chain_requires {entries : List (Text × Value)} {t : Target} (hnodup : (entries.map Prod.fst).Nodup)
    (hsram : ∀ value, (ascii "sram_kib", value) ∈ entries → ∃ n : UInt32, value = .int n.toNat) :
    Chain (Takes At (requiresField d) outer) entries t
      { t with reqSramKib := sramKib entries t.reqSramKib } := by
  induction entries generalizing t with
  | nil => exact .nil t
  | cons entry entries ih =>
      obtain ⟨key, value⟩ := entry
      obtain ⟨hnew, hnodup'⟩ := List.nodup_cons.mp hnodup
      have hrest := fun value h => hsram value (List.mem_cons_of_mem _ h)
      by_cases hkey : key = ascii "sram_kib"
      · subst hkey
        obtain ⟨n, rfl⟩ := hsram value List.mem_cons_self
        have htail := ih (t := { t with reqSramKib := n }) hnodup' hrest
        rw [sramKib_of_notMem hnew] at htail
        rw [sramKib_found]
        exact .cons (takes_sramKib hinv) htail
      · rw [sramKib_other hkey]
        exact .cons (takes_other hinv hkey) (ih hnodup' hrest)

theorem yields_decodeTarget {t : Manifest.Target} {blobCount : Nat} (hfits : t.Fits blobCount)
    (hcount : blobCount ≤ 2 ^ 32) (hz : At z (t.asdict :: items) outer)
    (hdepth : outer.length + 1 < BACKUPS) : Yields (decodeTarget d z) fun r => r.2 = parsedTarget t ∧ At r.1 items outer := by
  obtain ⟨n, harena⟩ := hfits.arena
  obtain ⟨i, hi, hblob⟩ := hfits.blob
  have hindex : t.blob = (UInt32.ofNat i).toNat := by
    rw [hblob, UInt32.toNat_ofNat_of_lt' (Nat.lt_of_lt_of_le hi hcount)]
  have hparsed : parsedTarget t =
      ({ backend := copyTstr t.backend
         siliconRef := copyTstr t.siliconRef
         blobFormat := copyTstr t.blobFormat
         accelConfig := copyTstr t.accelConfig
         arenaBytes := n
         reqSramKib := sramKib t.requires.entries 0 }, UInt32.ofNat i) := by
    rw [copyTstr_of_lt hfits.backend (hfits.noNul _ (by simp)),
      copyTstr_of_lt hfits.siliconRef (hfits.noNul _ (by simp)),
      copyTstr_of_lt hfits.blobFormat (hfits.noNul _ (by simp)),
      copyTstr_of_lt hfits.accelConfig (hfits.noNul _ (by simp)), parsedTarget, harena, hblob, Int.toNat_natCast, Int.toNat_natCast,
      UInt32.ofNat_toNat]
  have hchain :
      Chain (Takes At (targetField d) (items :: outer)) t.entries ({}, NO_BLOB) (parsedTarget t) := by
    rw [hparsed, Manifest.Target.entries, harena, hindex]
    refine .cons (takes_text hd hinv (fun t v => { t with backend := v }) fun _ => rfl) ?_
    refine .cons (takes_text hd hinv (fun t v => { t with siliconRef := v }) fun _ => rfl) ?_
    refine .cons (takes_text hd hinv (fun t v => { t with blobFormat := v }) fun _ => rfl) ?_
    refine .cons (takes_text hd hinv (fun t v => { t with accelConfig := v }) fun _ => rfl) ?_
    refine .cons (takes_arena hinv) ?_
    refine .cons (takes_requires hd hinv hdepth fun _ => chain_requires hinv t.requires.nodup ?_) ?_
    · exact fun value hvalue => hfits.sramKib value (t.requires.get_of_mem hvalue)
    exact .cons (takes_blob hinv) (.cons (takes_compilerVersion hinv) (.nil _))
  exact yields_decodeMap hd hinv (sound_targetField hd) hchain hz (Nat.lt_of_succ_lt hdepth)

theorem yields_eachTarget {ts : List Manifest.Target} {blobCount room : Nat} {draft : Draft}
    (hfits : ∀ t ∈ ts, t.Fits blobCount) (hcount : blobCount ≤ 2 ^ 32) (hroom : ts.length ≤ room)
    (hmax : draft.targets.length + ts.length ≤ MAX_TARGETS)
    (hz : At z (ts.map Manifest.Target.asdict) outer) (hdepth : outer.length + 1 < BACKUPS) :
    Yields (eachTarget d room z draft) fun r =>
      r.2.name = draft.name ∧ r.2.srcSha = draft.srcSha ∧
        r.2.targets = draft.targets ++ ts.map parsedTarget ∧ At r.1 [] outer := by
  induction ts generalizing z draft room with
  | nil =>
      have hend : d.atEnd z = true := hinv.atEnd z _ _ hz
      have hdone : eachTarget d room z draft = pure (z, draft) := by
        cases room with
        | zero => rfl
        | succ room =>
            unfold eachTarget
            rw [if_pos hend]
      rw [hdone]
      exact yields_pure ⟨rfl, rfl, (List.append_nil _).symm, hz⟩
  | cons t ts ih =>
      rw [List.length_cons] at hroom hmax
      obtain ⟨room, rfl⟩ := Nat.exists_eq_succ_of_ne_zero (Nat.ne_of_gt (Nat.zero_lt_of_lt hroom))
      have hmore : d.atEnd z = false := hinv.atEnd z _ _ hz
      have hplace : draft.targets.length < MAX_TARGETS := by omega
      obtain ⟨hfirst, hfits'⟩ := List.forall_mem_cons.mp hfits
      unfold eachTarget
      rw [hmore, if_neg Bool.false_ne_true, dif_pos hplace]
      refine yields_seq (yields_decodeTarget hd hinv hfirst hcount hz hdepth) ?_
      rintro ⟨z', entry⟩ ⟨rfl, hz'⟩
      have hadd : (draft.add (parsedTarget t) hplace).targets = draft.targets ++ [parsedTarget t] := rfl
      have hmax' : (draft.add (parsedTarget t) hplace).targets.length + ts.length ≤ MAX_TARGETS := by
        rw [hadd, List.length_append, List.length_singleton]
        omega
      refine yields_mono (ih hfits' (Nat.le_of_succ_le_succ hroom) hmax' hz') ?_
      rintro r ⟨hname, hsha, htargets, hr⟩
      refine ⟨hname, hsha, ?_, hr⟩
      rw [htargets, hadd, List.append_assoc, List.map_cons]
      rfl

theorem takes_name {contents : Text} {draft : Draft} :
    Takes At (manifestField d) outer (ascii "name", .text contents) draft
      { draft with name := copyTstr contents } := by
  intro z items hz
  refine yields_seq (yields_tstr hd hinv hz) ?_
  rintro ⟨v, z'⟩ ⟨rfl, hz'⟩
  exact yields_pure ⟨rfl, hz'⟩

theorem takes_srcSha {contents : List UInt8} {draft : Draft} :
    Takes At (manifestField d) outer (ascii "src_sha", .bytes contents) draft
      (if contents.length = 32 then { draft with srcSha := contents } else draft) := by
  intro z items hz
  refine yields_seq (yields_bstr hd hinv hz) ?_
  rintro ⟨v, z'⟩ ⟨rfl, hz'⟩
  exact yields_pure ⟨rfl, hz'⟩

theorem takes_targets {ts : List Manifest.Target} {blobCount : Nat} {draft : Draft}
    (hfits : ∀ t ∈ ts, t.Fits blobCount) (hcount : blobCount ≤ 2 ^ 32)
    (hmax : (ts.map parsedTarget).length ≤ MAX_TARGETS) (hempty : draft.targets = [])
    (hdepth : outer.length + 2 < BACKUPS) :
    Takes At (manifestField d) outer (ascii "targets", .array (ts.map Manifest.Target.asdict)) draft
      { draft with targets := ts.map parsedTarget, bounded := hmax } := by
  intro z items hz
  obtain ⟨z₁, hstart, hz₁⟩ := hinv.listStart z _ items outer hz (by omega)
  rw [List.length_map] at hmax
  refine yields_expect hstart ?_
  refine yields_seq (yields_eachTarget hd hinv hfits hcount hmax ?_ hz₁ hdepth) ?_
  · rw [hempty, List.length_nil, Nat.zero_add]
    exact hmax
  · rintro ⟨z₂, draft₂⟩ ⟨hname, hsha, htargets, hz₂⟩
    obtain ⟨z₃, hend, hz₃⟩ := hinv.listEnd z₂ items outer hz₂
    rw [hempty, List.nil_append] at htargets
    exact yields_expect hend (yields_pure ⟨Draft.ext hname hsha htargets, hz₃⟩)

omit hd in
theorem takes_unread {key : Text} {value : Value} {draft : Draft}
    (hkey : ∀ z, manifestField d key z draft = skipped d z draft) :
    Takes At (manifestField d) outer (key, value) draft draft := by
  intro z items hz
  rw [hkey]
  exact yields_skipped hinv hz

-- The targets that come of the manifest of a package.
theorem yields_manifest {m : Manifest} {blobCount : Nat} (hfits : ∀ t ∈ m.targets, t.Fits blobCount)
    (hcount : blobCount ≤ 2 ^ 32) (hmax : m.targets.length ≤ MAX_TARGETS) (hz : At z [m.toDict] []) :
    Yields (decodeMap d (manifestField d) z {}) fun r => r.2.targets = m.targets.map parsedTarget := by
  have hbounded : (m.targets.map parsedTarget).length ≤ MAX_TARGETS := by rwa [List.length_map]
  obtain ⟨draft, hdraft, hchain⟩ : ∃ draft : Draft, draft.targets = m.targets.map parsedTarget ∧
      Chain (Takes At (manifestField d) [[]]) m.entries {} draft := by
    refine ⟨_, ?_, .cons (takes_unread hinv fun _ => rfl) (.cons (takes_name hd hinv)
      (.cons (takes_srcSha hd hinv) (.cons (takes_unread hinv fun _ => rfl)
        (.cons (takes_unread hinv fun _ => rfl)
          (.cons (takes_targets hd hinv hfits hcount hbounded ?_ (by decide))
            (.cons (takes_unread hinv fun _ => rfl) (.nil _)))))))⟩
    · rfl
    · split
      · rfl
      · rfl
  refine yields_mono (yields_decodeMap hd hinv (sound_manifestField hd) hchain hz (by decide)) ?_
  rintro r ⟨rfl, -⟩
  exact hdraft

end Reads

-- A number of a package, where its bytes are.
theorem yields_rdU16 {data : List UInt8} {off n : Nat} (hbytes : slice off 2 data = putLE 2 n)
    (hn : n < 2 ^ 16) : Yields (rdU16 data off) (· = n) := by
  have hlen : (slice off 2 data).length = 2 := by rw [hbytes, length_putLE]
  refine yields_follow (read_of_length (by decide) hlen) (yields_pure ?_)
  rw [hbytes, getLE_putLE]
  exact Nat.mod_eq_of_lt hn

theorem yields_rdU32 {data : List UInt8} {off n : Nat} (hbytes : slice off 4 data = putLE 4 n)
    (hn : n < 2 ^ 32) : Yields (rdU32 data off) (· = n) := by
  have hlen : (slice off 4 data).length = 4 := by rw [hbytes, length_putLE]
  refine yields_follow (read_of_length (by decide) hlen) (yields_pure ?_)
  rw [hbytes, getLE_putLE]
  exact Nat.mod_eq_of_lt hn

section Blobs

variable {dumps : Value → List UInt8} {m : Manifest} {blobs : List (List UInt8)}
variable {raw head table : List UInt8} {width : Nat}

-- A target of the package as the reader gives it out.
structure Same (raw : List UInt8) (blobs : List (List UInt8)) (t : Manifest.Target) (c : Target) : Prop where
  backend : c.backend = t.backend
  siliconRef : c.siliconRef = t.siliconRef
  blobFormat : c.blobFormat = t.blobFormat
  accelConfig : c.accelConfig = t.accelConfig
  arena : t.arena = c.arenaBytes.toNat
  sramKib : t.requires.get (ascii "sram_kib") = some (.int c.reqSramKib.toNat) ∨
    t.requires.get (ascii "sram_kib") = none ∧ c.reqSramKib = 0
  blob : slice c.blob c.blobLen.toNat raw = blobs.getD t.blob.toNat []

theorem yields_resolveBlob (h : Layout dumps m blobs raw head table) (hsize : raw.length < 2 ^ 32)
    (hwidth : 32 ≤ width) {t : Manifest.Target} (hfits : t.Fits blobs.length) :
    Yields (resolveBlob width raw head.length blobs.length (parsedTarget t)) (Same raw blobs t) := by
  obtain ⟨n, harena⟩ := hfits.arena
  obtain ⟨i, hi, hblob⟩ := hfits.blob
  have hcount := h.count
  have hindex : (UInt32.ofNat t.blob.toNat).toNat = i := by
    rw [hblob, Int.toNat_natCast]
    exact UInt32.toNat_ofNat_of_lt' (Nat.lt_trans hi hcount)
  have htable := length_blobTable h.table_eq
  obtain ⟨hstart, hlen, hreads⟩ := blobTable_entry h.table_eq hi
  obtain ⟨hoff, hsz⟩ := hreads blobs.flatten
  have hraw : raw.length = head.length + (8 * blobs.length + blobs.flatten.length) := by
    rw [h.raw_eq, List.length_append, List.length_append, htable, TBL_ENTRY_SIZE]
  have hinside := blobOffset_le hi
  have hsmall : raw.length < 2 ^ width := Nat.lt_of_lt_of_le hsize (Nat.pow_le_pow_right (by decide) hwidth)
  have hentry : TBL_ENTRY_SIZE = 8 := rfl
  have hoff' : slice (head.length + i * 8) 4 raw =
      putLE 4 (head.length + TBL_ENTRY_SIZE * blobs.length + blobOffset blobs i) := by
    rw [← hoff, h.raw_eq, slice_past, Nat.mul_comm, hentry]
  have hsz' : slice (head.length + i * 8 + 4) 4 raw = putLE 4 blobs[i].length := by
    rw [← hsz, h.raw_eq, Nat.add_assoc, slice_past, Nat.mul_comm, hentry]
  unfold resolveBlob
  simp only [parsedTarget, hindex]
  have he : (head.length + i * 8) % 2 ^ width = head.length + i * 8 := Nat.mod_eq_of_lt (by omega)
  have he' : (head.length + i * 8 + 4) % 2 ^ width = head.length + i * 8 + 4 := Nat.mod_eq_of_lt (by omega)
  rw [he, he']
  refine yields_require hi (yields_seq (yields_rdU32 hoff' hstart) ?_)
  rintro boff rfl
  refine yields_seq (yields_rdU32 hsz' hlen) ?_
  rintro blen rfl
  refine yields_require (by rw [hentry]; omega) (yields_pure ?_)
  refine ⟨rfl, rfl, rfl, rfl, ?_, ?_, ?_⟩
  · simp only [harena, Int.toNat_natCast, UInt32.ofNat_toNat]
  · cases hget : t.requires.get (ascii "sram_kib") with
    | none =>
        refine .inr ⟨rfl, ?_⟩
        have hlookup : t.requires.entries.lookup (ascii "sram_kib") = none := hget
        simp only [sramKib, hlookup]
    | some value =>
        obtain ⟨n, rfl⟩ := hfits.sramKib value hget
        have hlookup : t.requires.entries.lookup (ascii "sram_kib") = some (.int n.toNat) := hget
        have hkept : sramKib t.requires.entries 0 = n := by
          simp only [sramKib, hlookup, Int.toNat_natCast, UInt32.ofNat_toNat]
        exact .inl (by rw [hkept])
  · rw [UInt32.toNat_ofNat_of_lt' hlen, hblob, Int.toNat_natCast, List.getD_eq_getElem _ _ hi]
    have hbase : head.length + TBL_ENTRY_SIZE * blobs.length = (head ++ table).length := by
      rw [List.length_append, htable]
    rw [hbase, h.raw_eq, ← List.append_assoc, slice_past]
    exact slice_flatten hi

theorem yields_resolveBlobs (h : Layout dumps m blobs raw head table) (hsize : raw.length < 2 ^ 32)
    (hwidth : 32 ≤ width) {ts : List Manifest.Target} (hfits : ∀ t ∈ ts, t.Fits blobs.length) :
    Yields (resolveBlobs width raw head.length blobs.length (ts.map parsedTarget)) fun cs =>
      List.Forall₂ (Same raw blobs) ts cs.val := by
  induction ts with
  | nil => exact yields_pure .nil
  | cons t ts ih =>
      obtain ⟨hfirst, hrest⟩ := List.forall_mem_cons.mp hfits
      refine yields_seq (yields_resolveBlob h hsize hwidth hfirst) fun c hc => ?_
      exact yields_seq (ih hrest) fun cs hcs => yields_pure (.cons hc hcs)

end Blobs

theorem yields_parse {d : Decoder} (hd : d.Bounded) {dumps : Value → List UInt8}
    {At : d.State → List Value → List (List Value) → Prop} (hinv : d.Inverse dumps BACKUPS At) {width : Nat}
    (hwidth : 32 ≤ width) {m : Manifest} {blobs : List (List UInt8)} {raw : List UInt8}
    (hraw : writePackage dumps m blobs = some raw) (hsize : raw.length < 2 ^ 32)
    (hmax : m.targets.length ≤ MAX_TARGETS) (hfits : ∀ t ∈ m.targets, t.Fits blobs.length) :
    Yields (parse d width raw) fun model => List.Forall₂ (Same raw blobs) m.targets model.targets := by
  obtain ⟨head, table, h⟩ := layout_of_writePackage hraw
  have htable := length_blobTable h.table_eq
  have hmagic : MAGIC.length = 4 := rfl
  have hhead : head.length = 24 + (dumps m.toDict).length := by
    rw [h.head_eq]
    simp only [List.length_append, length_putLE, hmagic]
    omega
  have hlen : raw.length = head.length + (8 * blobs.length + blobs.flatten.length) := by
    rw [h.raw_eq, List.length_append, List.length_append, htable, TBL_ENTRY_SIZE]
  have hwhole : raw = MAGIC ++ (putLE 2 CONTAINER_VERSION ++ (putLE 2 0 ++ (putLE 4 HEADER_SIZE ++
      (putLE 4 (dumps m.toDict).length ++ (putLE 4 head.length ++ (putLE 4 blobs.length ++
        (dumps m.toDict ++ (table ++ blobs.flatten)))))))) := by
    rw [h.raw_eq]
    nth_rewrite 1 [h.head_eq]
    simp only [List.append_assoc]
  unfold parse
  refine yields_require (by rw [HDR_SIZE]; omega) ?_
  refine yields_follow (?_ : read 0 4 raw = some MAGIC) (yields_require rfl ?_)
  · rw [read_of_le (by omega), hwhole]
    exact congrArg some (slice_head _ _ _ hmagic)
  · refine yields_seq (yields_rdU16 (n := CONTAINER_VERSION) ?_ (by decide)) ?_
    · rw [hwhole]
      simp [slice_skip, slice_head, hmagic]
    rintro version rfl
    refine yields_require rfl (yields_seq (yields_rdU16 (n := 0) ?_ (by decide)) ?_)
    · rw [hwhole]
      simp [slice_skip, slice_head, hmagic]
    rintro flags rfl
    refine yields_seq (yields_rdU32 (n := HEADER_SIZE) ?_ (by decide)) ?_
    · rw [hwhole]
      simp [slice_skip, slice_head, hmagic]
    rintro mftOff rfl
    refine yields_seq (yields_rdU32 (n := (dumps m.toDict).length) ?_ h.mftLen) ?_
    · rw [hwhole]
      simp [slice_skip, slice_head, hmagic]
    rintro mftLen rfl
    refine yields_seq (yields_rdU32 (n := head.length) ?_ h.tblOff) ?_
    · rw [hwhole]
      simp [slice_skip, slice_head, hmagic]
    rintro tblOff rfl
    refine yields_seq (yields_rdU32 (n := blobs.length) ?_ h.count) ?_
    · rw [hwhole]
      simp [slice_skip, slice_head, hmagic]
    rintro blobCount rfl
    refine yields_require (by rw [HEADER_SIZE]; omega) (yields_require (by omega) ?_)
    refine yields_follow
      (?_ : read HEADER_SIZE (dumps m.toDict).length raw = some (dumps m.toDict)) ?_
    · rw [read_of_le (by rw [HEADER_SIZE]; omega), hwhole]
      simp [slice_skip, slice_head, hmagic, HEADER_SIZE]
    refine yields_seq (yields_manifest hd hinv hfits (Nat.le_of_lt h.count) hmax (hinv.start _ h.mftLen)) ?_
    rintro ⟨z, draft⟩ hdraft
    have hresolved := yields_resolveBlobs h hsize hwidth hfits
    rw [← hdraft] at hresolved
    exact yields_seq hresolved fun ts hts => yields_pure hts

-- A package is read as it was written, and whatever the bytes are, no read leaves them and no blob
-- that is given out does, with a `size_t` of 32 or 64 bits.
theorem package_roundtrip {d : Decoder} (hd : d.Bounded) {dumps : Value → List UInt8}
    {At : d.State → List Value → List (List Value) → Prop} (hinv : d.Inverse dumps BACKUPS At) {width : Nat}
    (hwidth : width = 32 ∨ width = 64) :
    (∀ m blobs, packageSize dumps m blobs < 2 ^ 32 → m.targets.length ≤ MAX_TARGETS →
      (∀ t ∈ m.targets, t.Fits blobs.length) →
      ∃ raw model, writePackage dumps m blobs = some raw ∧ parse d width raw = some (.ok model) ∧
        List.Forall₂ (Same raw blobs) m.targets model.targets) ∧
    ∀ data : List UInt8, data.length < 2 ^ width →
      (∃ err, parse d width data = some (.error err)) ∨
        ∃ model, parse d width data = some (.ok model) ∧ ∀ t ∈ model.targets, InPackage data t := by
  constructor
  · intro m blobs hsize hmax hfits
    obtain ⟨raw, hraw⟩ := exists_writePackage hsize
    rw [← length_writePackage hraw] at hsize
    have hwide : 32 ≤ width := by omega
    obtain ⟨model, hparse, hsame⟩ := yields_parse hd hinv hwide hraw hsize hmax hfits
    exact ⟨raw, model, hraw, hparse, hsame⟩
  · exact fun data hdata => sound_cases (sound_parse hd hdata)

def npuTarget (backend : Text) (arena blob : Int) : Manifest.Target where
  backend := backend
  siliconRef := ascii "*"
  blobFormat := ascii "tflite"
  accelConfig := []
  arena := arena
  requires :=
    ⟨[(ascii "sram_kib", .int 512), (ascii "op_features", .array [.text (ascii "int8")])], by decide⟩
  blob := blob

def npuManifest (backend : Text) (arena : Int) : Manifest where
  name := ascii "kws"
  srcSha := List.replicate 32 0xAB
  inputs := [⟨ascii "int8", 2, [1, 490], 0x3FB999999999999A, -128⟩]
  targets := [npuTarget backend arena 1, npuTarget (ascii "cpu") 0 0]

def npuBlobs : List (List UInt8) := [[1, 2, 3], [4, 5]]

theorem npuTarget_sramKib {backend : Text} {arena blob : Int} : ∀ value,
    (npuTarget backend arena blob).requires.get (ascii "sram_kib") = some value →
      ∃ n : UInt32, value = .int n.toNat := by
  intro value hvalue
  cases hvalue
  exact ⟨512, rfl⟩

theorem npuTarget_bounded {backend : Text} {arena : Int} {i : Nat} (h : backend.length < STR_MAX)
    (hi : i < npuBlobs.length) : (npuTarget backend arena i).Bounded npuBlobs.length where
  backend := h
  siliconRef := (by decide : (ascii "*").length < STR_MAX)
  blobFormat := (by decide : (ascii "tflite").length < STR_MAX)
  accelConfig := (by decide : ([] : Text).length < STR_MAX)
  blob := ⟨i, hi, rfl⟩

theorem package_roundtrip_npu :
    ∃ raw model, writePackage Library.Cbor.encode (npuManifest (ascii "ethos_u") 65536) npuBlobs = some raw ∧
      parse Library.Cbor.wire 32 raw = some (.ok model) ∧
      List.Forall₂ (Same raw npuBlobs) (npuManifest (ascii "ethos_u") 65536).targets model.targets := by
  refine (package_roundtrip Library.Cbor.bounded_wire (Library.Cbor.inverse_wire BACKUPS) (.inl rfl)).1 _ _
    (by decide +kernel) (by decide) ?_
  refine List.forall_mem_cons.mpr ⟨?_, List.forall_mem_singleton.mpr ?_⟩
  · exact ⟨npuTarget_bounded (i := 1) (by decide) (by decide), ⟨⟨65536, rfl⟩, npuTarget_sramKib⟩, by decide⟩
  · exact ⟨npuTarget_bounded (i := 0) (by decide) (by decide), ⟨⟨0, rfl⟩, npuTarget_sramKib⟩, by decide⟩

theorem npuManifest_bounded {backend : Text} {arena : Int} (h : backend.length < STR_MAX) :
    ∀ t ∈ (npuManifest backend arena).targets, t.Bounded npuBlobs.length := by
  refine List.forall_mem_cons.mpr ⟨?_, List.forall_mem_singleton.mpr ?_⟩
  · exact npuTarget_bounded (i := 1) h (by decide)
  · exact npuTarget_bounded (i := 0) (by decide) (by decide)

-- An arena of 4 GiB is a number that the writer takes and the reader refuses, and of a string with a
-- NUL in it the reader gives back what stands before.
theorem not_given_back :
    (¬∀ (d : Decoder) (dumps : Value → List UInt8) (At : d.State → List Value → List (List Value) → Prop),
      d.Bounded → d.Inverse dumps BACKUPS At →
      ∀ m blobs, packageSize dumps m blobs < 2 ^ 32 → m.targets.length ≤ MAX_TARGETS →
        (∀ t ∈ m.targets, t.Bounded blobs.length) →
        ∃ raw model, writePackage dumps m blobs = some raw ∧ parse d 32 raw = some (.ok model))
    ∧ ¬∀ (d : Decoder) (dumps : Value → List UInt8) (At : d.State → List Value → List (List Value) → Prop),
      d.Bounded → d.Inverse dumps BACKUPS At →
      ∀ m blobs, packageSize dumps m blobs < 2 ^ 32 → m.targets.length ≤ MAX_TARGETS →
        (∀ t ∈ m.targets, t.Bounded blobs.length ∧ t.InRange) →
        ∃ raw model, writePackage dumps m blobs = some raw ∧ parse d 32 raw = some (.ok model) ∧
          List.Forall₂ (Same raw blobs) m.targets model.targets := by
  constructor
  · intro h
    obtain ⟨raw, model, hraw, hparse⟩ := h Library.Cbor.wire Library.Cbor.encode _ Library.Cbor.bounded_wire
      (Library.Cbor.inverse_wire BACKUPS) (npuManifest (ascii "ethos_u") (2 ^ 32)) npuBlobs
      (by decide +kernel) (by decide) (npuManifest_bounded (by decide))
    have hrefused : ((writePackage Library.Cbor.encode (npuManifest (ascii "ethos_u") (2 ^ 32)) npuBlobs).map
        fun raw => (Option.bind (parse Library.Cbor.wire 32 raw) Except.toOption).isSome) = some false := by
      decide +kernel
    rw [hraw, Option.map_some, hparse] at hrefused
    cases hrefused
  · intro h
    have htargets : ∀ t ∈ (npuManifest (ascii "ethos_u" ++ [0]) 0).targets,
        t.Bounded npuBlobs.length ∧ t.InRange := by
      refine fun t ht => ⟨npuManifest_bounded (by decide) t ht, ?_⟩
      revert t
      refine List.forall_mem_cons.mpr ⟨?_, List.forall_mem_singleton.mpr ?_⟩
      · exact ⟨⟨0, rfl⟩, npuTarget_sramKib⟩
      · exact ⟨⟨0, rfl⟩, npuTarget_sramKib⟩
    obtain ⟨raw, model, hraw, hparse, hsame⟩ := h Library.Cbor.wire Library.Cbor.encode _
      Library.Cbor.bounded_wire (Library.Cbor.inverse_wire BACKUPS)
      (npuManifest (ascii "ethos_u" ++ [0]) 0) npuBlobs (by decide +kernel) (by decide) htargets
    have hcut : ((writePackage Library.Cbor.encode (npuManifest (ascii "ethos_u" ++ [0]) 0) npuBlobs).map
        fun raw => (Option.bind (parse Library.Cbor.wire 32 raw) Except.toOption).map fun model =>
          model.targets.map Target.backend) = some (some [ascii "ethos_u", ascii "cpu"]) := by
      decide +kernel
    rw [hraw, Option.map_some, hparse, Option.some_inj] at hcut
    have hbackends : model.targets.map Target.backend = [ascii "ethos_u", ascii "cpu"] :=
      Option.some_inj.mp hcut
    generalize model.targets = targets at hsame hbackends
    cases hsame with
    | cons hfirst hrest =>
        rw [List.map_cons, hfirst.backend] at hbackends
        cases hbackends

end AlpSdk.AlpModel
