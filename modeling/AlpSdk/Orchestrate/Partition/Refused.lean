import AlpSdk.Orchestrate.Carveout.Refused
import AlpSdk.Orchestrate.Partition.Aliases

namespace AlpSdk.Orchestrate.Partition

section FirstFree

variable (size capacityBytes : Int) (spans : List Span)

-- A pass steps over no page that is free.
theorem pass_skips (state : Int × Bool) {b : Int} (hb : b % PAGE = 0) (hle : state.1 ≤ b)
    (hhigh : b < (spans.foldl (stepUp size) state).1) : ∃ s ∈ spans, b < s.hi ∧ s.lo < b + size := by
  induction spans generalizing state with
  | nil => exact absurd hle (not_le.mpr hhigh)
  | cons s rest ih =>
      rw [List.foldl_cons] at hhigh
      by_cases hskipped : (stepUp size state s).1 ≤ b
      · obtain ⟨t, ht, hhit⟩ := ih _ hskipped hhigh
        exact ⟨t, List.mem_cons_of_mem _ ht, hhit⟩
      · refine ⟨s, List.mem_cons_self, ?_⟩
        by_cases hhit : state.1 < s.hi ∧ s.lo < state.1 + size
        · simp only [stepUp, if_pos hhit, alignUp, PAGE] at hskipped hb
          omega
        · simp only [stepUp, if_neg hhit] at hskipped
          exact absurd hle hskipped

theorem ascend_skips (fuel : Nat) (base : Int) {b : Int} (hb : b % PAGE = 0) (hle : base ≤ b)
    (hhigh : b < ascend size capacityBytes spans fuel base) : ∃ s ∈ spans, b < s.hi ∧ s.lo < b + size := by
  induction fuel generalizing base with
  | zero => exact absurd hle (not_le.mpr hhigh)
  | succ fuel ih =>
      simp only [ascend] at hhigh
      by_cases hpass : (spans.foldl (stepUp size) (base, false)).1 ≤ b
      · split at hhigh
        · exact absurd hpass (not_le.mpr hhigh)
        · split at hhigh
          · exact ih _ hpass hhigh
          · exact absurd hpass (not_le.mpr hhigh)
      · exact pass_skips size spans (base, false) hb hle (not_le.mp hpass)

-- `_first_free` steps over no page that is free.
theorem firstFree_skips {base b : Int} (hb : b % PAGE = 0) (hle : base ≤ b)
    (hhigh : b < firstFree base size spans capacityBytes) : ∃ s ∈ spans, b < s.hi ∧ s.lo < b + size := by
  obtain ⟨s, hs, hhit⟩ := ascend_skips size capacityBytes _ _ _ hb hle hhigh
  exact ⟨s, (List.perm_insertionSort _ spans).mem_iff.mp hs, hhit⟩

end FirstFree

section Run

variable {som : Som} {device : Device} {entries : List StorageEntry} {s : Placing}

-- A partition that stands when the auto entry of index `i` has its turn: a pin, or an auto entry
-- before it.
structure Placing.Before (entries : List StorageEntry) (s : Placing) (i j : Nat) (entry : StorageEntry)
    (base : Int) : Prop where
  placement : s.placement j = some (.ok base)
  mem : entries[j]? = some entry
  turn : isPinned entry = true ∨ j < i

-- The regions of the SoM and the partitions placed before it take every page of the device, but for
-- what lies below the end of an auto entry placed before it.
def FullDevice (device : Device) (entries : List StorageEntry) (s : Placing) (i : Nat) (entry : StorageEntry) :
    Prop :=
  ∀ b, b % PAGE = 0 → 0 ≤ b → b ≤ device.descriptor.sizeBytes - sizeAligned entry →
    (∃ r ∈ device.reserved, b < r.hi ∧ r.lo < b + sizeAligned entry) ∨
    ∃ j e base, s.Before entries i j e base ∧
      (Meets b (sizeAligned entry) base (sizeAligned e) ∨ isAuto e = true ∧ b < base + sizeAligned e)

-- The regions of the SoM and the partitions placed before it take every page of the device.
def DeviceTaken (device : Device) (entries : List StorageEntry) (s : Placing) (i : Nat) (entry : StorageEntry) :
    Prop :=
  ∀ b, b % PAGE = 0 → 0 ≤ b → b ≤ device.descriptor.sizeBytes - sizeAligned entry →
    (∃ r ∈ device.reserved, b < r.hi ∧ r.lo < b + sizeAligned entry) ∨
    ∃ j e base, s.Before entries i j e base ∧ Meets b (sizeAligned entry) base (sizeAligned e)

-- The state before the entries of `l`, as in `Orchestrate.Recorded`.
structure Recorded (device : Device) (entries : List StorageEntry) (selected : StorageEntry → Bool)
    (l : List (StorageEntry × Nat)) (s : Placing) : Prop where
  ahead : ∀ x ∈ l, entries[x.2]? = some x.1
  ordered : l.Pairwise fun x y => x.2 < y.2
  done : ∀ j result, s.placement j = some result → ∃ e, entries[j]? = some e ∧
    (selected e = true ∧ (∀ x ∈ l, j < x.2) ∨ selected e = false ∧ isPinned e = true)
  spans : ∀ span ∈ s.allocator.allocated, span ∈ device.reserved ∨ ∃ j e,
    s.placement j = some (.ok span.lo) ∧ entries[j]? = some e ∧ span.hi = span.lo + sizeAligned e
  mark : s.allocator.highWater = 0 ∨ ∃ j e base, s.placement j = some (.ok base) ∧ entries[j]? = some e ∧
    isAuto e = true ∧ s.allocator.highWater = base + sizeAligned e
  refused : ∀ i e offsetKib capacityKib note, entries[i]? = some e → isAuto e = true →
    s.placement i = some (.error (.overruns offsetKib capacityKib note)) → FullDevice device entries s i e

-- What a placement leaves behind, and when it refuses.
structure Marks (device : Device) (entry : StorageEntry) (a a' : Allocator) (result : Placement) : Prop where
  spans : ∀ span ∈ a'.allocated, span ∈ a.allocated ∨ ∃ base, result = .ok base ∧ span.lo = base ∧
    span.hi = base + sizeAligned entry
  mark : a'.highWater = a.highWater ∨ isAuto entry = true ∧ ∃ base, result = .ok base ∧
    a'.highWater = base + sizeAligned entry
  full : isAuto entry = true → ∀ offsetKib capacityKib note,
    result = .error (.overruns offsetKib capacityKib note) →
      ∀ b, b % PAGE = 0 → a.highWater ≤ b → b ≤ device.descriptor.sizeBytes - sizeAligned entry →
        ∃ span ∈ a.allocated, b < span.hi ∧ span.lo < b + sizeAligned entry

variable {entry : StorageEntry} {a : Allocator}

theorem overlapReason_room {base offsetKib capacityKib : Int} {peer : Span} {note : Option (List String × Int)} :
    overlapReason som device entry base peer ≠ .overruns offsetKib capacityKib note := by
  unfold overlapReason
  split <;> split <;> nofun

theorem check_overruns {base offsetKib capacityKib : Int} {note : Option (List String × Int)}
    (h : check som device a entry base = .error (.overruns offsetKib capacityKib note)) :
    device.descriptor.sizeBytes < base + sizeAligned entry := by
  unfold check at h
  simp only at h
  split at h
  next hover => exact hover
  · split at h
    · exact absurd (Except.error.inj h) overlapReason_room
    · split at h <;> cases h

theorem place_marks (som : Som) (device : Device) (a : Allocator) (entry : StorageEntry) :
    Marks device entry a (place som device a entry).1 (place som device a entry).2 := by
  rcases place_cases som device a entry with ⟨base, -, -, hplace⟩ | ⟨reason, hplace⟩
  · rw [hplace]
    refine ⟨fun span hspan => ?_, .inl rfl, nofun⟩
    rcases List.mem_append.mp hspan with hold | hnew
    · exact .inl hold
    · obtain rfl := List.mem_singleton.mp hnew
      exact .inr ⟨base, rfl, rfl, rfl⟩
  · rw [hplace]
    refine ⟨fun span hspan => .inl hspan, .inl rfl, ?_⟩
    intro hauto offsetKib capacityKib note hresult b hb hlow hhigh
    obtain rfl := Except.error.inj hresult
    have hnone : entry.offsetKib = none := Option.isNone_iff_eq_none.mp hauto
    have hchoose : choose device a entry =
        .ok (firstFree a.highWater (sizeAligned entry) a.allocated device.descriptor.sizeBytes) := by
      simp only [choose, hnone]
    have hcheck : check som device a entry
        (firstFree a.highWater (sizeAligned entry) a.allocated device.descriptor.sizeBytes) =
          .error (.overruns offsetKib capacityKib note) := by
      cases hresult' : check som device a entry
        (firstFree a.highWater (sizeAligned entry) a.allocated device.descriptor.sizeBytes) with
      | error reason => simpa [place, hchoose, hresult', bind, Except.bind] using hplace
      | ok base => simp [place, hchoose, hresult', bind, Except.bind] at hplace
    have hover := check_overruns hcheck
    exact firstFree_skips _ device.descriptor.sizeBytes _ hb hlow (by omega)

theorem placeAuto_marks (som : Som) (device : Device) (a : Allocator) (hauto : isAuto entry = true) :
    Marks device entry a (placeAuto som device a entry).1 (placeAuto som device a entry).2 := by
  have hplace := place_marks som device a entry
  unfold placeAuto
  split
  next a' base heq =>
      rw [heq] at hplace
      exact ⟨hplace.spans, .inr ⟨hauto, base, rfl, rfl⟩, nofun⟩
  next a' reason heq =>
      rw [heq] at hplace
      exact hplace

theorem FullDevice.mono {s' : Placing} {i : Nat}
    (hmono : ∀ j base, s.placement j = some (.ok base) → s'.placement j = some (.ok base))
    (h : FullDevice device entries s i entry) : FullDevice device entries s' i entry := by
  intro b hb hlo hhi
  refine (h b hb hlo hhi).imp_right ?_
  rintro ⟨j, e, base, hbefore, hmeets⟩
  exact ⟨j, e, base, ⟨hmono j base hbefore.placement, hbefore.mem, hbefore.turn⟩, hmeets⟩

theorem Recorded.full {selected : StorageEntry → Bool} {x : StorageEntry × Nat}
    {rest : List (StorageEntry × Nat)} (hrec : Recorded device entries selected (x :: rest) s)
    (h : ∀ b, b % PAGE = 0 → s.allocator.highWater ≤ b →
      b ≤ device.descriptor.sizeBytes - sizeAligned x.1 →
        ∃ span ∈ s.allocator.allocated, b < span.hi ∧ span.lo < b + sizeAligned x.1) :
    FullDevice device entries s x.2 x.1 := by
  have hbefore : ∀ j e base, s.placement j = some (.ok base) → entries[j]? = some e →
      s.Before entries x.2 j e base := by
    intro j e base hplaced he
    refine ⟨hplaced, he, ?_⟩
    obtain ⟨e', he', hdone⟩ := hrec.done j _ hplaced
    obtain rfl : e = e' := Option.some.inj (he.symm.trans he')
    rcases hdone with ⟨-, hlt⟩ | ⟨-, hpin⟩
    · exact .inr (hlt x List.mem_cons_self)
    · exact .inl hpin
  intro b hb hlo hhi
  by_cases hmark : s.allocator.highWater ≤ b
  · obtain ⟨span, hspan, hhit⟩ := h b hb hmark hhi
    rcases hrec.spans span hspan with hreserved | ⟨j, e, hplaced, he, htop⟩
    · exact .inl ⟨span, hreserved, hhit⟩
    · rw [htop] at hhit
      exact .inr ⟨j, e, span.lo, hbefore j e _ hplaced he, .inl hhit⟩
  · rcases hrec.mark with hzero | ⟨j, e, base, hplaced, he, hauto, htop⟩
    · omega
    · exact .inr ⟨j, e, base, hbefore j e base hplaced he, .inr ⟨hauto, by omega⟩⟩

theorem Recorded.place {selected : StorageEntry → Bool} {x : StorageEntry × Nat}
    {rest : List (StorageEntry × Nat)} {a' : Allocator} {result : Placement} (hsel : selected x.1 = true)
    (hmarks : Marks device x.1 s.allocator a' result)
    (h : Recorded device entries selected (x :: rest) s) :
    Recorded device entries selected rest ⟨a', Function.update s.placement x.2 (some result)⟩ := by
  have hentry := h.ahead x List.mem_cons_self
  obtain ⟨hlater, hordered⟩ := List.pairwise_cons.mp h.ordered
  -- the index has not been placed before
  have hfresh : s.placement x.2 = none := by
    cases hplacement : s.placement x.2 with
    | none => rfl
    | some earlier =>
        obtain ⟨e, he, hdone⟩ := h.done _ _ hplacement
        obtain rfl : x.1 = e := Option.some.inj (hentry.symm.trans he)
        rcases hdone with ⟨-, hlt⟩ | ⟨hother, -⟩
        · exact absurd (hlt x List.mem_cons_self) (lt_irrefl _)
        · rw [hsel] at hother
          cases hother
  have hmono : ∀ j base, s.placement j = some (.ok base) →
      Function.update s.placement x.2 (some result) j = some (.ok base) := by
    intro j base hplaced
    have hne : j ≠ x.2 := by
      rintro rfl
      rw [hplaced] at hfresh
      cases hfresh
    rw [Function.update_of_ne hne, hplaced]
  refine ⟨fun y hy => h.ahead y (List.mem_cons_of_mem _ hy), hordered, ?_, ?_, ?_, ?_⟩
  · intro j placement hj
    by_cases hx : j = x.2
    · subst hx
      exact ⟨x.1, hentry, .inl ⟨hsel, hlater⟩⟩
    · simp only [Function.update_of_ne hx] at hj
      obtain ⟨e, he, hdone⟩ := h.done j placement hj
      exact ⟨e, he, hdone.imp_left fun ⟨hs, hlt⟩ => ⟨hs, fun y hy => hlt y (List.mem_cons_of_mem _ hy)⟩⟩
  · intro span hspan
    rcases hmarks.spans span hspan with hold | ⟨base, rfl, hlo, hhi⟩
    · refine (h.spans span hold).imp_right ?_
      rintro ⟨j, e, hplaced, hrest⟩
      exact ⟨j, e, hmono j _ hplaced, hrest⟩
    · subst hlo
      exact .inr ⟨x.2, x.1, Function.update_self .., hentry, hhi⟩
  · rcases hmarks.mark with hsame | ⟨hauto, base, rfl, htop⟩
    · simp only [hsame]
      refine h.mark.imp_right ?_
      rintro ⟨j, e, base, hplaced, hrest⟩
      exact ⟨j, e, base, hmono j base hplaced, hrest⟩
    · exact .inr ⟨x.2, x.1, base, Function.update_self .., hentry, hauto, htop⟩
  · intro i e offsetKib capacityKib note he hauto hi
    by_cases hx : i = x.2
    · subst hx
      obtain rfl : x.1 = e := Option.some.inj (hentry.symm.trans he)
      simp only [Function.update_self, Option.some.injEq] at hi
      exact (h.full (hmarks.full hauto offsetKib capacityKib note hi)).mono hmono
    · simp only [Function.update_of_ne hx] at hi
      exact (h.refused i e offsetKib capacityKib note he hauto hi).mono hmono

theorem Recorded.skip {selected : StorageEntry → Bool} {x : StorageEntry × Nat}
    {rest : List (StorageEntry × Nat)} (h : Recorded device entries selected (x :: rest) s) :
    Recorded device entries selected rest s := by
  refine ⟨fun y hy => h.ahead y (List.mem_cons_of_mem _ hy), (List.pairwise_cons.mp h.ordered).2, ?_,
    h.spans, h.mark, h.refused⟩
  intro j result hj
  obtain ⟨e, he, hdone⟩ := h.done j result hj
  exact ⟨e, he, hdone.imp_left fun ⟨hs, hlt⟩ => ⟨hs, fun y hy => hlt y (List.mem_cons_of_mem _ hy)⟩⟩

theorem placePass_recorded {put : Allocator → StorageEntry → Allocator × Placement}
    {selected : StorageEntry → Bool} {l : List (StorageEntry × Nat)}
    (hput : ∀ a e, selected e = true → Marks device e a (put a e).1 (put a e).2)
    (hrec : Recorded device entries selected l s) :
    Recorded device entries selected [] (placePass put selected l s) := by
  induction l generalizing s with
  | nil => exact hrec
  | cons x rest ih =>
      rw [placePass]
      by_cases hsel : selected x.1 = true
      · rw [if_pos hsel]
        exact ih (hrec.place hsel (hput s.allocator x.1 hsel))
      · rw [if_neg hsel]
        exact ih hrec.skip

theorem zipIdx_ordered (entries : List StorageEntry) : entries.zipIdx.Pairwise fun x y => x.2 < y.2 := by
  have hindices : (entries.zipIdx.map Prod.snd).Pairwise (· < ·) := by
    rw [List.zipIdx_map_snd]
    exact List.pairwise_lt_range'
  exact List.pairwise_map.mp hindices

theorem placements_recorded (som : Som) (device : Device) (entries : List StorageEntry) :
    Recorded device entries isAuto [] (placements som device entries) := by
  have hahead : ∀ x ∈ entries.zipIdx, entries[x.2]? = some x.1 := fun x hx =>
    List.mem_zipIdx_iff_getElem?.mp hx
  have hstart : Recorded device entries isPinned entries.zipIdx ⟨⟨device.reserved, 0⟩, fun _ => none⟩ := by
    refine ⟨hahead, zipIdx_ordered entries, ?_, fun span hspan => .inl hspan, .inl rfl, ?_⟩
    · intro j result h
      cases h
    · intro i e offsetKib capacityKib note _ _ h
      cases h
  have hpins := placePass_recorded (fun a e _ => place_marks som device a e) hstart
  unfold placements
  refine placePass_recorded (fun a e hauto => placeAuto_marks som device a hauto) ?_
  refine ⟨hahead, zipIdx_ordered entries, fun j result hj => ?_, hpins.spans, hpins.mark, hpins.refused⟩
  obtain ⟨e, he, ⟨hpin, -⟩ | ⟨hnot, hpin⟩⟩ := hpins.done j result hj
  · refine ⟨e, he, .inr ⟨?_, hpin⟩⟩
    unfold isAuto
    unfold isPinned at hpin
    cases hoffset : e.offsetKib with
    | none => rw [hoffset] at hpin; cases hpin
    | some offsetKib => rfl
  · rw [hpin] at hnot
    cases hnot

theorem resolveRow_room {row : Row} {offsetKib capacityKib : Int} {note : Option (List String × Int)} :
    resolveRow som row ≠ .error (.overruns offsetKib capacityKib note) := by
  unfold resolveRow
  split
  · nofun
  · split
    · nofun
    · nofun
    · nofun
    · nofun
    · simp only
      split
      · nofun
      · split
        · nofun
        · split
          · cases hcover : compositeAliasCoverageGap som row.name row.base.int? _ with
            | error why => nofun
            | ok _ =>
                cases hspans : reservedSpans som row.name _ with
                | error why => nofun
                | ok _ => nofun
          · nofun

theorem resolveFlashDevice_room {name : String} {offsetKib capacityKib : Int}
    {note : Option (List String × Int)} :
    resolveFlashDevice som name ≠ .error (.overruns offsetKib capacityKib note) := by
  unfold resolveFlashDevice
  split
  · exact resolveRow_room
  · unfold resolveOspi
    split
    · nofun
    · split <;> nofun
  · nofun

-- An auto entry overruns its device only where the device is taken.
theorem partition_refused {storage : List StorageEntry} {name : String} {i : Nat} {out : ResolvedPartition}
    (hentry : (deviceEntries storage name)[i]? = some entry) (hauto : entry.offsetKib = none)
    (hout : (resolveDevice som storage name)[i]? = some out) {offsetKib capacityKib : Int}
    {note : Option (List String × Int)} (hreason : out.reason = some (.overruns offsetKib capacityKib note)) :
    ∃ descriptor, resolveFlashDevice som name = .ok descriptor ∧
      FullDevice (deviceOf som descriptor) (deviceEntries storage name)
        (placements som (deviceOf som descriptor) (deviceEntries storage name)) i entry := by
  unfold resolveDevice at hout
  split at hout
  next reason hdevice =>
      obtain ⟨e, -, rfl⟩ := List.mem_map.mp (List.mem_of_getElem? hout)
      obtain rfl := Option.some.inj hreason
      exact absurd hdevice resolveFlashDevice_room
  next descriptor hdevice =>
      refine ⟨descriptor, hdevice, ?_⟩
      simp only [List.getElem?_map, List.getElem?_zipIdx, hentry, Option.map_some, Nat.zero_add,
        Option.some.injEq] at hout
      subst hout
      have hrec := placements_recorded som (deviceOf som descriptor) (deviceEntries storage name)
      refine hrec.refused i entry offsetKib capacityKib note hentry (Option.isNone_iff_eq_none.mpr hauto) ?_
      unfold emitOne at hreason
      split at hreason
      · cases hreason
      next reason hplacement =>
          obtain rfl := Option.some.inj hreason
          exact hplacement
      · cases hreason

end Run

-- An auto entry that is refused for lack of room finds none but behind an earlier auto entry.
theorem refused_when_full :
    (∀ (project : BoardProject) (outs : List ResolvedCarveOut), resolveCarveOuts project = some outs →
      ∀ i entry out name note, (sortedEntries project)[i]? = some entry → entry.address = none →
        outs[i]? = some out → out.status = .blocked (.doesNotFit name note) →
          ∃ s, Orchestrate.placements project = some s ∧ FullWindow project s i entry name) ∧
    ∀ (som : Som) (storage : List StorageEntry) (device : String) (i : Nat) (entry : StorageEntry)
      (out : ResolvedPartition) offsetKib capacityKib note, (deviceEntries storage device)[i]? = some entry →
        entry.offsetKib = none → (resolveDevice som storage device)[i]? = some out →
          out.reason = some (.overruns offsetKib capacityKib note) →
            ∃ descriptor, resolveFlashDevice som device = .ok descriptor ∧
              FullDevice (deviceOf som descriptor) (deviceEntries storage device)
                (placements som (deviceOf som descriptor) (deviceEntries storage device)) i entry := by
  constructor
  · intro project outs hrun i entry out name note hentry hauto hout hstatus
    exact carve_out_refused hrun hentry hauto hout hstatus
  · intro som storage device i entry out offsetKib capacityKib note hentry hauto hout hreason
    exact partition_refused hentry hauto hout hreason

def commands : IpcEntry where
  name := "commands"
  kind := .rawShmem
  endpoints := ["m33_sm"]
  carveOutKb := 12
  cacheable := none
  address := none

def frames : IpcEntry where
  name := "frames"
  kind := .rawShmem
  endpoints := ["a55_cluster"]
  carveOutKb := 8
  cacheable := none
  address := none

-- The commands have to lie in the M33's slice, at the bottom of the region.
def narrowFirst : BoardProject where
  preset :=
    { sku := "E1M-V2N101"
      silicon := "renesas:rzv2n:n44"
      memoryMap := [{ ocramLow with accessWindows := [("m33_sm", ⟨.int 0x10000, .unset, .int 16⟩)] }] }
  soc := { memoryRegions := [], variantRegions := [], aperture := none }
  mailbox := { controller := .unset, channels := [⟨1, some "app"⟩] }
  ipc := [commands, frames]

theorem narrowFirst_entries : sortedEntries narrowFirst = [commands, frames] := by
  decide +kernel

theorem frames_entry : (sortedEntries narrowFirst)[1]? = some frames := by
  rw [narrowFirst_entries]
  rfl

theorem narrowFirst_refused : ∃ outs out, resolveCarveOuts narrowFirst = some outs ∧ outs[1]? = some out ∧
    out.status = .blocked (.doesNotFit "ocram_low" none) := by
  have h : ((resolveCarveOuts narrowFirst).bind fun outs => outs[1]?.map (·.status)) =
      some (.blocked (.doesNotFit "ocram_low" none)) := by decide +kernel
  obtain ⟨outs, houts, hout⟩ := Option.bind_eq_some_iff.mp h
  obtain ⟨out, hget, hstatus⟩ := Option.map_eq_some_iff.mp hout
  exact ⟨outs, out, houts, hget, hstatus⟩

-- The data has to go above the pin.
def bootLog : StorageEntry where
  name := "boot_log"
  sizeKib := 4
  fs := .raw
  mount := none
  flashDevice := some "qspi_main"
  offsetKib := some 16

def userData : StorageEntry where
  name := "data"
  sizeKib := 40
  fs := .littlefs
  mount := none
  flashDevice := some "qspi_main"
  offsetKib := none

def withPin : List StorageEntry := [bootLog, userData, settings]

def qspiDescriptor : Descriptor := ⟨"qspi_main", "qspi_storage", 0x10000⟩

def qspiOnly : Som where
  memoryMap := [qspiMain]
  ospiMemories := []
  aperture := none

theorem withPin_entries : deviceEntries withPin "qspi_main" = withPin := by
  decide +kernel

theorem settings_entry : (deviceEntries withPin "qspi_main")[2]? = some settings := by
  rw [withPin_entries]
  rfl

theorem pinInside_refused : ∃ out, (resolveDevice qspiOnly withPin "qspi_main")[2]? = some out ∧
    out.reason = some (.overruns 60 64 none) := by
  have h : (resolveDevice qspiOnly withPin "qspi_main")[2]?.map (·.reason) =
      some (some (.overruns 60 64 none)) := by
    decide +kernel
  exact Option.map_eq_some_iff.mp h

theorem refused_when_full_applied :
    (∃ s, Orchestrate.placements narrowFirst = some s ∧ FullWindow narrowFirst s 1 frames "ocram_low") ∧
      ∃ descriptor, resolveFlashDevice qspiOnly "qspi_main" = .ok descriptor ∧
        FullDevice (deviceOf qspiOnly descriptor) (deviceEntries withPin "qspi_main")
          (placements qspiOnly (deviceOf qspiOnly descriptor) (deviceEntries withPin "qspi_main")) 2
          settings := by
  constructor
  · obtain ⟨outs, out, hrun, hout, hstatus⟩ := narrowFirst_refused
    exact refused_when_full.1 narrowFirst outs hrun 1 frames out "ocram_low" none frames_entry rfl hout hstatus
  · obtain ⟨out, hout, hreason⟩ := pinInside_refused
    exact refused_when_full.2 qspiOnly withPin "qspi_main" 2 settings out 60 64 none settings_entry rfl hout hreason

-- The frames may not go above the commands, where the region is free.
theorem narrowFirst_room {s : Orchestrate.Placing} (hs : Orchestrate.placements narrowFirst = some s) :
    ¬WindowTaken narrowFirst s 1 frames "ocram_low" := by
  rintro ⟨region, rest, window, hcand, -, hwindow, htaken⟩
  have hwindows : ((candidateRegions narrowFirst frames).toOption.map fun l =>
      l.map fun r => endpointWindow r frames.endpoints) = some [some (0x10000, 0x20000)] := by decide +kernel
  rw [hcand, Except.toOption, Option.map_some, List.map_cons, hwindow] at hwindows
  obtain rfl : window = (0x10000, 0x20000) := Option.some.inj (List.cons.inj (Option.some.inj hwindows)).1
  obtain ⟨j, e, r, base, ⟨⟨hplacement, hentry⟩, -⟩, -, hmeets⟩ :=
    htaken 0x14000 (by decide) (by decide) (by decide)
  have hbases : ((Orchestrate.placements narrowFirst).map fun s =>
      [0, 1].map fun j => (s.placement j).bind fun p => p.toOption.map Prod.snd) = some [some 0x11000, none] := by
    decide +kernel
  simp only [hs, Option.map_some, Option.some.injEq, List.map_cons, List.map_nil, List.cons.injEq] at hbases
  obtain ⟨hfirst, hsecond, -⟩ := hbases
  rw [narrowFirst_entries] at hentry
  rcases j with _ | _ | j
  · rw [hplacement] at hfirst
    cases hentry
    obtain rfl : base = 0x11000 := Option.some.inj hfirst
    exact absurd hmeets (by decide)
  · rw [hplacement] at hsecond
    cases hsecond
  · cases hentry

-- The settings may not go below the pin, where the device is free.
theorem pinInside_room {descriptor : Descriptor}
    (hdevice : resolveFlashDevice qspiOnly "qspi_main" = .ok descriptor) :
    ¬DeviceTaken (deviceOf qspiOnly descriptor) withPin
      (placements qspiOnly (deviceOf qspiOnly descriptor) withPin) 2 settings := by
  intro htaken
  have hresolved : (resolveFlashDevice qspiOnly "qspi_main").toOption = some qspiDescriptor := by
    decide +kernel
  rw [hdevice] at hresolved
  obtain rfl : descriptor = qspiDescriptor := Option.some.inj hresolved
  have hreserved : (deviceOf qspiOnly qspiDescriptor).reserved = [] := by decide +kernel
  have hbases : ([0, 1, 2].map fun j => ((placements qspiOnly (deviceOf qspiOnly qspiDescriptor)
      withPin).placement j).bind Except.toOption) = [some 0x4000, some 0x5000, none] := by
    decide +kernel
  simp only [List.map_cons, List.map_nil, List.cons.injEq] at hbases
  obtain ⟨hfirst, hsecond, hthird, -⟩ := hbases
  rcases htaken 0 (by decide) (by decide) (by decide) with
    ⟨r, hr, -⟩ | ⟨j, e, base, ⟨hplacement, hmem, -⟩, hmeets⟩
  · rw [hreserved] at hr
    cases hr
  · match j with
    | 0 =>
        rw [hplacement] at hfirst
        cases hmem
        obtain rfl : base = 0x4000 := Option.some.inj hfirst
        exact absurd hmeets (by decide)
    | 1 =>
        rw [hplacement] at hsecond
        cases hmem
        obtain rfl : base = 0x5000 := Option.some.inj hsecond
        exact absurd hmeets (by decide)
    | 2 =>
        rw [hplacement] at hthird
        cases hthird
    | _ + 3 => cases hmem

theorem refused_with_room :
    (¬∀ (project : BoardProject) (outs : List ResolvedCarveOut), resolveCarveOuts project = some outs →
      ∀ i entry out name note, (sortedEntries project)[i]? = some entry → entry.address = none →
        outs[i]? = some out → out.status = .blocked (.doesNotFit name note) →
          ∃ s, Orchestrate.placements project = some s ∧ WindowTaken project s i entry name) ∧
    ¬∀ (som : Som) (storage : List StorageEntry) (device : String) (i : Nat) (entry : StorageEntry)
      (out : ResolvedPartition) offsetKib capacityKib note, (deviceEntries storage device)[i]? = some entry →
        entry.offsetKib = none → (resolveDevice som storage device)[i]? = some out →
          out.reason = some (.overruns offsetKib capacityKib note) →
            ∃ descriptor, resolveFlashDevice som device = .ok descriptor ∧
              DeviceTaken (deviceOf som descriptor) (deviceEntries storage device)
                (placements som (deviceOf som descriptor) (deviceEntries storage device)) i entry := by
  constructor
  · intro h
    obtain ⟨outs, out, hrun, hout, hstatus⟩ := narrowFirst_refused
    obtain ⟨s, hs, htaken⟩ := h narrowFirst outs hrun 1 frames out "ocram_low" none frames_entry rfl hout hstatus
    exact narrowFirst_room hs htaken
  · intro h
    obtain ⟨out, hout, hreason⟩ := pinInside_refused
    obtain ⟨descriptor, hdevice, htaken⟩ :=
      h qspiOnly withPin "qspi_main" 2 settings out 60 64 none settings_entry rfl hout hreason
    rw [withPin_entries] at htaken
    exact pinInside_room hdevice htaken

end AlpSdk.Orchestrate.Partition
