import AlpSdk.Orchestrate.Partition.Theorems

namespace AlpSdk.Orchestrate.Partition

-- The bytes of a partition, as offsets in its device.
def ResolvedPartition.offsets (out : ResolvedPartition) : Set Int :=
  Set.Ico (out.baseKib * 1024) ((out.baseKib + out.sizeKib) * 1024)

-- The bytes of a partition of a device at `base`.
def ResolvedPartition.addresses (out : ResolvedPartition) (base : Int) : Set Int :=
  Set.Ico (base + out.baseKib * 1024) (base + (out.baseKib + out.sizeKib) * 1024)

-- Every row but the device's own.
def otherRows (som : Som) (device : String) : List Row := som.memoryMap.eraseP (·.name = device)

-- A row that covers the device's whole extent and leaves its bytes to the application.
structure Excepted (whole : Extent) (row : Row) (ext : Extent) : Prop where
  covers : ext.1 ≤ whole.1 ∧ whole.2 ≤ ext.2
  authority : row.writeAuthority = none ∨ row.writeAuthority = some .composite ∨
    row.writeAuthority = some .customerRuntime

-- The partitions that come back ok are aligned, lie in their device, and share no byte with each
-- other nor with the SoM's own regions.
structure Sound (som : Som) (outs : List ResolvedPartition) : Prop where
  inside : ∀ out ∈ outs, out.status = .ok → ∃ descriptor,
    resolveFlashDevice som out.flashDevice = .ok descriptor ∧ out.baseKib * 1024 % PAGE = 0 ∧
      out.sizeKib * 1024 % PAGE = 0 ∧ 0 ≤ out.baseKib ∧ 0 < out.sizeKib ∧
      (out.baseKib + out.sizeKib) * 1024 ≤ descriptor.sizeBytes
  apart : outs.Pairwise fun out out' => out.status = .ok → out'.status = .ok →
    out.flashDevice = out'.flashDevice → Disjoint out.offsets out'.offsets
  clear : ∀ out ∈ outs, out.status = .ok → ∀ descriptor row base,
    resolveFlashDevice som out.flashDevice = .ok descriptor →
    deviceRow som out.flashDevice = some row → row.base.int? = some base →
      ∀ other ∈ otherRows som out.flashDevice, ∀ ext, regionExtent other.toRegion = some ext →
        ¬Excepted (base, base + descriptor.sizeBytes) other ext →
          Disjoint (out.addresses base) (Set.Ico ext.1 ext.2)

-- The test by which `_reserved_spans` takes a row for the device or for an alias of it.
def Overlooked (device : String) (base capacityBytes : Int) (row : Row) (ext : Extent) : Prop :=
  isSkipped device base capacityBytes ⟨ext.1, ext.2, row.name⟩ = true

-- A page of the device that meets none of the rows which are reserved.
structure FreePage (som : Som) (device : String) (base capacityBytes page : Int) : Prop where
  aligned : page % PAGE = 0
  inside : 0 ≤ page ∧ page + PAGE ≤ capacityBytes
  clear : ∀ row ∈ som.memoryMap, ∀ ext, regionExtent row.toRegion = some ext →
    ¬Overlooked device base capacityBytes row ext →
      Disjoint (Set.Ico (base + page) (base + page + PAGE)) (Set.Ico ext.1 ext.2)

-- A device that takes partitions has a free page that meets a row which is overlooked although it
-- is not excepted.
def Exposed (som : Som) : Prop :=
  ∃ device descriptor row base, device ≠ "" ∧ resolveFlashDevice som device = .ok descriptor ∧
    verifiedDtLabel som device = true ∧ deviceRow som device = some row ∧
    row.base.int? = some base ∧
    ∃ other ∈ otherRows som device, ∃ ext, regionExtent other.toRegion = some ext ∧
      Overlooked device base descriptor.sizeBytes other ext ∧
      ¬Excepted (base, base + descriptor.sizeBytes) other ext ∧
      ∃ page, FreePage som device base descriptor.sizeBytes page ∧
        ∃ x ∈ Set.Ico ext.1 ext.2, base + page ≤ x ∧ x < base + page + PAGE

section Reserved

variable {som : Som} {device : String} {descriptor : Descriptor} {row : Row} {base : Int}

theorem resolveRow_name (h : resolveRow som row = .ok descriptor) : descriptor.name = row.name := by
  unfold resolveRow at h
  split at h
  · cases h
  split at h
  iterate 4 cases h
  split at h
  · cases h
  split at h
  · cases h
  · simp only [bind, Except.bind, pure, Except.pure] at h
    repeat' split at h
    all_goals cases h
    all_goals rfl

theorem resolveFlashDevice_name (h : resolveFlashDevice som device = .ok descriptor) :
    descriptor.name = device := by
  unfold resolveFlashDevice at h
  cases hrow : deviceRow som device with
  | some row =>
      have hname : row.name = device := by simpa using List.find?_some hrow
      rw [hrow] at h
      exact (resolveRow_name h).trans hname
  | none =>
      rw [hrow] at h
      cases hmemory : som.ospiMemories.lookup device with
      | none => simp [hmemory] at h
      | some memory =>
          simp only [hmemory, resolveOspi] at h
          repeat' split at h
          all_goals cases h
          rfl

theorem mem_sized {s : Span} :
    s ∈ sized som ↔ ∃ row ∈ som.memoryMap, ∃ ext, regionExtent row.toRegion = some ext ∧
      ext.1 ≠ ext.2 ∧ s = ⟨ext.1, ext.2, row.name⟩ := by
  unfold sized regionExtent
  rw [List.mem_filterMap]
  apply exists_congr
  intro row
  apply and_congr_right
  intro _
  cases row.base.int? with
  | none => simp
  | some base =>
      cases row.sizeBytes with
      | none => simp
      | some size =>
          by_cases h : size = 0
          · simp [h]
          · simp only [h, if_false, Option.some.injEq, exists_eq_left']
            constructor
            · rintro rfl
              exact ⟨by omega, rfl⟩
            · rintro ⟨-, rfl⟩
              rfl

theorem mem_reserved (hrow : deviceRow som descriptor.name = some row)
    (hbase : row.base.int? = some base) {r : Span} :
    r ∈ (deviceOf som descriptor).reserved ↔
      ∃ s ∈ sized som, reserve descriptor.name base descriptor.sizeBytes s = some r := by
  simp only [deviceOf, reservedSpans, deviceOrigin, hrow, Option.bind_some, hbase]
  cases hsized : sized som with
  | nil => simp [bind, Except.bind, Except.toOption]
  | cons first rest =>
      simp only [bind, Except.bind, pure, Except.pure, Except.toOption, Option.getD_some]
      rw [(List.perm_insertionSort _ _).mem_iff, List.mem_filterMap]

-- What is left of a reserved row that is not skipped: its part inside the device.
theorem reserve_spec {device : String} {capacityBytes : Int} {s : Span} :
    isSkipped device base capacityBytes s = false → ∀ x, base ≤ x → x < base + capacityBytes →
      s.lo ≤ x → x < s.hi →
      ∃ r, reserve device base capacityBytes s = some r ∧ r.lo ≤ x - base ∧ x - base < r.hi := by
  intro hskip x hlo hhi hin hout
  refine ⟨⟨max (s.lo - base) 0, min (s.hi - base) capacityBytes, s.name⟩, ?_, ?_, ?_⟩
  · simp only [reserve, hskip, Bool.false_eq_true, if_false]
    rw [if_pos (by omega)]
  · simp only
    omega
  · simp only
    omega

theorem of_reserve {device : String} {capacityBytes : Int} {s r : Span}
    (h : reserve device base capacityBytes s = some r) :
    isSkipped device base capacityBytes s = false ∧ s.lo - base ≤ r.lo ∧ r.hi ≤ s.hi - base ∧
      r.lo < r.hi := by
  unfold reserve at h
  split at h
  · cases h
  next hskip =>
      simp only at h
      split at h
      next hlt =>
          cases h
          refine ⟨by simpa using hskip, ?_, ?_, hlt⟩ <;> simp only <;> omega
      · cases h

end Reserved

section Resolved

variable {som : Som} {storage : List StorageEntry} {device : String} {out : ResolvedPartition}

-- An ok partition of a device is the placement of one of its entries.
theorem resolved_at {i : Nat} (hget : (resolveDevice som storage device)[i]? = some out)
    (hok : out.status = .ok) :
    ∃ descriptor entry base, resolveFlashDevice som device = .ok descriptor ∧
      (deviceEntries storage device)[i]? = some entry ∧
      (placements som (deviceOf som descriptor) (deviceEntries storage device)).placement i =
        some (.ok base) ∧
      out.flashDevice = device ∧ out.baseKib = base / 1024 ∧
      out.sizeKib = sizeAligned entry / 1024 := by
  unfold resolveDevice at hget
  split at hget
  · rw [List.getElem?_map, Option.map_eq_some_iff] at hget
    obtain ⟨entry, -, rfl⟩ := hget
    cases hok
  next descriptor hdescriptor =>
      simp only [List.getElem?_map, Option.map_eq_some_iff] at hget
      obtain ⟨⟨entry, j⟩, hentry, rfl⟩ := hget
      rw [List.getElem?_zipIdx, Option.map_eq_some_iff] at hentry
      obtain ⟨entry', hentry, heq⟩ := hentry
      obtain ⟨rfl, rfl⟩ : entry' = entry ∧ 0 + i = j := Prod.mk.inj heq
      rw [Nat.zero_add] at hok ⊢
      unfold emitOne at hok ⊢
      cases hplacement : (placements som (deviceOf som descriptor)
          (deviceEntries storage device)).placement i with
      | none => simp [hplacement, blockedPartition] at hok
      | some result =>
          cases result with
          | error reason => simp [hplacement, blockedPartition] at hok
          | ok base =>
              refine ⟨descriptor, entry', base, hdescriptor, hentry, hplacement, ?_, rfl, rfl⟩
              exact resolveFlashDevice_name hdescriptor

theorem mem_deviceEntries {entry : StorageEntry} :
    entry ∈ deviceEntries storage device ↔ entry ∈ storage ∧ entry.device? = some device := by
  unfold deviceEntries
  rw [(List.perm_insertionSort _ _).mem_iff, List.mem_filter]
  simp

theorem device?_ne {entry : StorageEntry} (h : entry.device? = some device) : device ≠ "" := by
  obtain ⟨-, hne⟩ := Option.filter_eq_some_iff.mp h
  simpa using hne

-- The offsets of an ok partition in bytes.
structure PartitionOf (som : Som) (out : ResolvedPartition) (descriptor : Descriptor)
    (entry : StorageEntry) (base : Int) : Prop where
  resolves : resolveFlashDevice som out.flashDevice = .ok descriptor
  named : out.flashDevice ≠ ""
  fits : Fits som (deviceOf som descriptor) entry base
  base : out.baseKib * 1024 = base
  size : out.sizeKib * 1024 = sizeAligned entry
  valid : entry.Valid

theorem partitionOf_at (hvalid : ∀ entry ∈ storage, entry.Valid) {i : Nat}
    (hget : (resolveDevice som storage device)[i]? = some out) (hok : out.status = .ok) :
    ∃ descriptor entry base, (deviceEntries storage device)[i]? = some entry ∧
      (placements som (deviceOf som descriptor) (deviceEntries storage device)).placement i =
        some (.ok base) ∧
      out.flashDevice = device ∧ PartitionOf som out descriptor entry base := by
  obtain ⟨descriptor, entry, base, hresolve, hentry, hplacement, rfl, hbase, hsize⟩ :=
    resolved_at hget hok
  have hmem : ∀ e ∈ deviceEntries storage out.flashDevice, e.Valid := fun e he =>
    hvalid e (mem_deviceEntries.mp he).1
  obtain ⟨entry', hentry', hfits, -⟩ :=
    (placements_layout som (deviceOf som descriptor) hmem).fits i base hplacement
  obtain rfl : entry = entry' := Option.some.inj (hentry.symm.trans hentry')
  have he := List.mem_of_getElem? hentry
  have haligned := hfits.aligned
  obtain ⟨hsizeAligned, -⟩ := sizeAligned_spec entry
  simp only [PAGE] at haligned hsizeAligned
  refine ⟨descriptor, entry, base, hentry, hplacement, rfl, hresolve,
    device?_ne (mem_deviceEntries.mp he).2, hfits, ?_, ?_, hmem entry he⟩
  · rw [hbase]
    omega
  · rw [hsize]
    omega

theorem partitionOf_mem (hvalid : ∀ entry ∈ storage, entry.Valid)
    (hout : out ∈ resolveStoragePartitions som storage) (hok : out.status = .ok) :
    ∃ descriptor entry base, PartitionOf som out descriptor entry base := by
  unfold resolveStoragePartitions at hout
  rw [List.mem_append, List.mem_map, List.mem_flatMap] at hout
  rcases hout with ⟨entry, -, rfl⟩ | ⟨device, -, hout⟩
  · cases hok
  · obtain ⟨i, hi⟩ := List.mem_iff_getElem?.mp hout
    obtain ⟨descriptor, entry, base, -, -, -, hpart⟩ := partitionOf_at hvalid hi hok
    exact ⟨descriptor, entry, base, hpart⟩

theorem PartitionOf.inside {descriptor : Descriptor} {entry : StorageEntry} {base : Int}
    (h : PartitionOf som out descriptor entry base) :
    out.baseKib * 1024 % PAGE = 0 ∧ out.sizeKib * 1024 % PAGE = 0 ∧ 0 ≤ out.baseKib ∧
      0 < out.sizeKib ∧ (out.baseKib + out.sizeKib) * 1024 ≤ descriptor.sizeBytes := by
  obtain ⟨hnonneg, htop⟩ := h.fits.inside
  obtain ⟨haligned, hle⟩ := sizeAligned_spec entry
  have hkib := h.valid.size
  have hbase := h.base
  have hsize := h.size
  have hcapacity : (deviceOf som descriptor).descriptor.sizeBytes = descriptor.sizeBytes := rfl
  refine ⟨hbase ▸ h.fits.aligned, hsize ▸ haligned, ?_, ?_, ?_⟩ <;> omega

-- Two partitions of one device are placements at two indices.
theorem apart_of_device (hvalid : ∀ entry ∈ storage, entry.Valid) (device : String) :
    (resolveDevice som storage device).Pairwise fun out out' => out.status = .ok →
      out'.status = .ok → Disjoint out.offsets out'.offsets := by
  refine List.pairwise_iff_getElem.mpr fun i j hi hj hlt hok hok' => ?_
  obtain ⟨descriptor, entry, base, hentry, hplacement, hdevice, hpart⟩ :=
    partitionOf_at hvalid (List.getElem?_eq_getElem hi) hok
  obtain ⟨descriptor', entry', base', hentry', hplacement', hdevice', hpart'⟩ :=
    partitionOf_at hvalid (List.getElem?_eq_getElem hj) hok'
  obtain rfl : descriptor = descriptor' := by
    have hresolve := hpart.resolves
    have hresolve' := hpart'.resolves
    rw [hdevice] at hresolve
    rw [hdevice', hresolve] at hresolve'
    exact Except.ok.inj hresolve'
  have hmem : ∀ e ∈ deviceEntries storage device, e.Valid := fun e he =>
    hvalid e (mem_deviceEntries.mp he).1
  have hapart := (placements_layout som (deviceOf som descriptor) hmem).apart
    i j base base' entry entry' (Nat.ne_of_lt hlt) hplacement hplacement' hentry hentry'
  have hbase := hpart.base
  have hbase' := hpart'.base
  have hsize := hpart.size
  have hsize' := hpart'.size
  rw [Set.disjoint_left]
  rintro x ⟨hlo, hhi⟩ ⟨hlo', hhi'⟩
  omega

theorem partitions_apart (hvalid : ∀ entry ∈ storage, entry.Valid) :
    (resolveStoragePartitions som storage).Pairwise fun out out' => out.status = .ok →
      out'.status = .ok → out.flashDevice = out'.flashDevice →
        Disjoint out.offsets out'.offsets := by
  unfold resolveStoragePartitions
  rw [List.pairwise_append, List.pairwise_flatMap]
  have hblocked : ∀ out ∈ (storage.filter (·.device? = none)).map
      (fun entry => blockedPartition entry .noFlashDevice), out.status ≠ .ok := by
    intro out hout
    obtain ⟨entry, -, rfl⟩ := List.mem_map.mp hout
    exact nofun
  refine ⟨List.pairwise_of_forall_mem_list fun out hout _ _ hok => absurd hok (hblocked out hout),
    ⟨fun device _ => (apart_of_device hvalid device).imp fun h hok hok' _ => h hok hok', ?_⟩,
    fun out hout _ _ hok => absurd hok (hblocked out hout)⟩
  -- the devices of two groups differ
  have hnodup : (devices storage).Nodup :=
    ((List.perm_insertionSort _ _).nodup_iff).mpr (List.nodup_dedup _)
  refine hnodup.imp fun {device device'} hne out hout out' hout' hok hok' hsame => absurd ?_ hne
  obtain ⟨i, hi⟩ := List.mem_iff_getElem?.mp hout
  obtain ⟨j, hj⟩ := List.mem_iff_getElem?.mp hout'
  obtain ⟨-, -, -, -, -, hdevice, -⟩ := partitionOf_at hvalid hi hok
  obtain ⟨-, -, -, -, -, hdevice', -⟩ := partitionOf_at hvalid hj hok'
  rw [← hdevice, ← hdevice', hsame]

-- A partition that meets another row has a page that does.
theorem exposed_of_meets {descriptor : Descriptor} {entry : StorageEntry} {offset base x : Int}
    {row other : Row} {ext : Extent} (hpart : PartitionOf som out descriptor entry offset)
    (hrow : deviceRow som out.flashDevice = some row) (hbase : row.base.int? = some base)
    (hother : other ∈ otherRows som out.flashDevice)
    (hext : regionExtent other.toRegion = some ext)
    (hkeep : ¬Excepted (base, base + descriptor.sizeBytes) other ext)
    (hx : x ∈ out.addresses base) (hmeets : x ∈ Set.Ico ext.1 ext.2) : Exposed som := by
  have hname := resolveFlashDevice_name hpart.resolves
  obtain ⟨hoffset, hsize, -, -, hcapacity⟩ := hpart.inside
  obtain ⟨hlo, hhi⟩ := hx
  have hnonneg := hpart.fits.inside.1
  -- no address of the partition lies in a row that is reserved
  have hclear : ∀ r ∈ som.memoryMap, ∀ e, regionExtent r.toRegion = some e →
      ¬Overlooked out.flashDevice base descriptor.sizeBytes r e →
        ∀ y ∈ out.addresses base, y ∉ Set.Ico e.1 e.2 := by
    rintro r hr e he hseen y ⟨hylo, hyhi⟩ ⟨helo, hehi⟩
    have hbounds := hpart.base
    obtain ⟨s, hs, hin, hout⟩ := reserve_spec (s := ⟨e.1, e.2, r.name⟩) (Bool.eq_false_iff.mpr hseen)
      y (by omega) (by omega) helo hehi
    have hsized : (⟨e.1, e.2, r.name⟩ : Span) ∈ sized som :=
      mem_sized.mpr ⟨r, hr, e, he, by omega, rfl⟩
    have hreserved : s ∈ (deviceOf som descriptor).reserved :=
      (mem_reserved (hname ▸ hrow) hbase).mpr ⟨_, hsized, hname ▸ hs⟩
    have hfree := hpart.fits.reserved s hreserved
    have hlength := hpart.size
    omega
  have hverified := hpart.fits.verified
  refine ⟨out.flashDevice, descriptor, row, base, hpart.named, hpart.resolves, ?_, hrow, hbase,
    other, hother, ext, hext, ?_, hkeep, (x - base) / PAGE * PAGE, ⟨?_, ?_, ?_⟩, x, hmeets, ?_⟩
  · exact hname ▸ hverified
  · by_contra hseen
    exact hclear other (List.mem_of_mem_eraseP hother) ext hext hseen x ⟨hlo, hhi⟩ hmeets
  · simp only [PAGE]
    omega
  · have hbounds := hpart.base
    simp only [PAGE] at *
    omega
  · intro r hr e he hseen
    rw [Set.disjoint_left]
    rintro y ⟨hylo, hyhi⟩ hy
    refine hclear r hr e he hseen y ⟨?_, ?_⟩ hy <;> simp only [PAGE] at * <;> omega
  · simp only [PAGE]
    omega

theorem sound_of_not_exposed (h : ¬Exposed som) (hvalid : ∀ entry ∈ storage, entry.Valid) :
    Sound som (resolveStoragePartitions som storage) := by
  refine ⟨?_, partitions_apart hvalid, ?_⟩
  · intro out hout hok
    obtain ⟨descriptor, entry, offset, hpart⟩ := partitionOf_mem hvalid hout hok
    exact ⟨descriptor, hpart.resolves, hpart.inside⟩
  · intro out hout hok descriptor row base hresolve hrow hbase other hother ext hext hkeep
    obtain ⟨descriptor', entry, offset, hpart⟩ := partitionOf_mem hvalid hout hok
    obtain rfl : descriptor' = descriptor := Except.ok.inj (hpart.resolves.symm.trans hresolve)
    rw [Set.disjoint_left]
    intro x hx hmeets
    exact h (exposed_of_meets hpart hrow hbase hother hext hkeep hx hmeets)

end Resolved

-- The entry that pins one page of a device.
def pinPage (device : String) (page : Int) : StorageEntry where
  name := "page"
  sizeKib := 4
  fs := .raw
  mount := none
  flashDevice := some device
  offsetKib := some (page / 1024)

section OneEntry

variable {som : Som} {device : String} {descriptor : Descriptor} {row : Row} {base page : Int}

-- A page clear of the rows that are reserved is clear of the spans that stand for them.
theorem reserved_clear (hresolve : resolveFlashDevice som device = .ok descriptor)
    (hrow : deviceRow som device = some row) (hbase : row.base.int? = some base)
    (hpage : FreePage som device base descriptor.sizeBytes page) :
    ∀ r ∈ (deviceOf som descriptor).reserved, page + PAGE ≤ r.lo ∨ r.hi ≤ page := by
  intro r hr
  have hname := resolveFlashDevice_name hresolve
  obtain ⟨s, hs, hreserve⟩ := (mem_reserved (hname ▸ hrow) hbase).mp hr
  obtain ⟨region, hregion, ext, hext, -, rfl⟩ := mem_sized.mp hs
  obtain ⟨hskip, hlo, hhi, hlt⟩ := of_reserve hreserve
  have hclear := hpage.clear region hregion ext hext (by
    rw [Overlooked, ← hname, hskip]
    exact Bool.false_ne_true)
  by_contra hmeets
  refine Set.disjoint_left.mp hclear (show base + max r.lo page ∈ _ from ⟨?_, ?_⟩) ⟨?_, ?_⟩ <;>
    simp only [PAGE] at * <;> omega

theorem place_pinPage (hresolve : resolveFlashDevice som device = .ok descriptor)
    (hverified : verifiedDtLabel som device = true) (hrow : deviceRow som device = some row)
    (hbase : row.base.int? = some base)
    (hpage : FreePage som device base descriptor.sizeBytes page) (highWater : Int) :
    (place som (deviceOf som descriptor) ⟨(deviceOf som descriptor).reserved, highWater⟩
      (pinPage device page)).2 = .ok page := by
  have hname := resolveFlashDevice_name hresolve
  have haligned := hpage.aligned
  have hkib : page / 1024 * 1024 = page := by
    simp only [PAGE] at haligned
    omega
  have hsize : sizeAligned (pinPage device page) = PAGE := rfl
  have hchoose : choose (deviceOf som descriptor) ⟨(deviceOf som descriptor).reserved, highWater⟩
      (pinPage device page) = .ok page := by
    simp only [choose, pinPage, hkib, haligned, ne_eq, not_true_eq_false, if_false]
  have hclear : overlap (deviceOf som descriptor).reserved page (page + PAGE) = none :=
    overlap_none.mpr (reserved_clear hresolve hrow hbase hpage)
  have htop : ¬(deviceOf som descriptor).descriptor.sizeBytes < page + PAGE :=
    not_lt.mpr hpage.inside.2
  have hlabel : verifiedDtLabel som (deviceOf som descriptor).descriptor.name = true := by
    rw [← hverified, ← hname]
    rfl
  simp only [place, hchoose, check, hsize, htop, if_false, hclear, hlabel, not_true_eq_false, bind,
    Except.bind]

theorem resolve_singleton {entry : StorageEntry} (h : entry.device? = some device) :
    resolveStoragePartitions som [entry] = resolveDevice som [entry] device := by
  have hdevices : devices [entry] = [device] := by
    simp [devices, h]
  have hblocked : [entry].filter (·.device? = none) = [] := by
    simp [h]
  simp only [resolveStoragePartitions, hdevices, hblocked, List.map_nil, List.nil_append,
    List.flatMap_cons, List.flatMap_nil, List.append_nil]

theorem deviceEntries_singleton {entry : StorageEntry} (h : entry.device? = some device) :
    deviceEntries [entry] device = [entry] := by
  simp [deviceEntries, h]

theorem placements_singleton {dev : Device} {entry : StorageEntry} (h : isPinned entry = true) :
    (placements som dev [entry]).placement 0 =
      some (place som dev ⟨dev.reserved, 0⟩ entry).2 := by
  have hauto : isAuto entry = false := by
    simpa [isPinned, isAuto, Option.isSome_iff_ne_none] using h
  simp [placements, placePass, h, hauto]

theorem resolve_pinPage (hdevice : device ≠ "")
    (hresolve : resolveFlashDevice som device = .ok descriptor)
    (hverified : verifiedDtLabel som device = true) (hrow : deviceRow som device = some row)
    (hbase : row.base.int? = some base)
    (hpage : FreePage som device base descriptor.sizeBytes page) :
    ∃ out, resolveStoragePartitions som [pinPage device page] = [out] ∧ out.status = .ok ∧
      out.flashDevice = device ∧ out.baseKib = page / 1024 ∧ out.sizeKib = 4 := by
  have hname : (pinPage device page).device? = some device := by
    simp [StorageEntry.device?, pinPage, hdevice]
  have hplacement : (placements som (deviceOf som descriptor) [pinPage device page]).placement 0 =
      some (.ok page) := by
    rw [placements_singleton rfl, place_pinPage hresolve hverified hrow hbase hpage]
  refine ⟨emitOne descriptor (placements som (deviceOf som descriptor) [pinPage device page])
    (pinPage device page) 0, ?_, ?_⟩
  · rw [resolve_singleton hname]
    simp [resolveDevice, hresolve, deviceEntries_singleton hname]
  · simp only [emitOne, hplacement, true_and]
    exact ⟨resolveFlashDevice_name hresolve, rfl⟩

end OneEntry

theorem not_sound_of_exposed {som : Som} (h : Exposed som) :
    ∃ storage, (∀ entry ∈ storage, entry.Valid) ∧
      ¬Sound som (resolveStoragePartitions som storage) := by
  obtain ⟨device, descriptor, row, base, hdevice, hresolve, hverified, hrow, hbase, other, hother,
    ext, hext, -, hkeep, page, hpage, x, hmeets, hlo, hhi⟩ := h
  have hvalid : (pinPage device page).Valid := by
    refine ⟨le_refl _, fun offsetKib hoffset => ?_⟩
    cases hoffset
    have hnonneg := hpage.inside.1
    omega
  refine ⟨[pinPage device page], by simpa using hvalid, fun hsound => ?_⟩
  obtain ⟨out, hout, hok, hflash, hpageKib, hsizeKib⟩ :=
    resolve_pinPage hdevice hresolve hverified hrow hbase hpage
  have hmem : out ∈ resolveStoragePartitions som [pinPage device page] := by simp [hout]
  have hclear := hsound.clear out hmem hok descriptor row base (hflash ▸ hresolve)
    (hflash ▸ hrow) hbase other (hflash ▸ hother) ext hext hkeep
  have haligned := hpage.aligned
  refine Set.disjoint_left.mp hclear ⟨?_, ?_⟩ hmeets <;> rw [hpageKib] <;>
    simp only [hsizeKib, PAGE] at * <;> omega

-- Every storage list resolves soundly exactly when no device has a page to expose.
theorem partitions_sound_iff (som : Som) :
    (∀ storage, (∀ entry ∈ storage, entry.Valid) →
        Sound som (resolveStoragePartitions som storage)) ↔ ¬Exposed som := by
  constructor
  · intro hsound hexposed
    obtain ⟨storage, hvalid, hnot⟩ := not_sound_of_exposed hexposed
    exact hnot (hsound storage hvalid)
  · intro h storage hvalid
    exact sound_of_not_exposed h hvalid

-- A row of the secure enclave that starts below the device and is as large as it is.
def qspiMain : Row where
  name := "qspi_main"
  base := .int 0x80010000
  sizeMib := .unset
  sizeKib := .int 64
  accessibleFrom := []
  accessWindows := []
  cacheable := none
  carveout := none
  writeAuthority := some .customerRuntime
  dtLabel := some "qspi_storage"

def atocBelow : Row :=
  { qspiMain with
    name := "atoc"
    base := .int 0x80008000
    writeAuthority := some .secureEnclave
    dtLabel := none }

def enclaveBelow : Som where
  memoryMap := [qspiMain, atocBelow]
  ospiMemories := []
  aperture := none

def settings : StorageEntry where
  name := "settings"
  sizeKib := 16
  fs := .littlefs
  mount := some "/lfs"
  flashDevice := some "qspi_main"
  offsetKib := none

def settingsPartition : ResolvedPartition where
  name := "settings"
  fs := .littlefs
  flashDevice := "qspi_main"
  dtLabel := "qspi_storage"
  baseKib := 0
  sizeKib := 16
  mount := some "/lfs"
  status := .ok
  reason := none

theorem settings_over_atoc :
    settings.Valid ∧ resolveStoragePartitions enclaveBelow [settings] = [settingsPartition] ∧
      ¬Sound enclaveBelow (resolveStoragePartitions enclaveBelow [settings]) := by
  have hresolve : resolveStoragePartitions enclaveBelow [settings] = [settingsPartition] := by
    decide +kernel
  refine ⟨⟨by decide, fun _ h => by cases h⟩, hresolve, fun hsound => ?_⟩
  have hclear := hsound.clear settingsPartition (by simp [hresolve]) rfl
    ⟨"qspi_main", "qspi_storage", 65536⟩ qspiMain 0x80010000 (by decide +kernel) (by decide) rfl
    atocBelow (by decide) (0x80008000, 0x80018000) (by decide)
    (fun h => by obtain ⟨-, h | h | h⟩ := h <;> cases h)
  exact Set.disjoint_left.mp hclear (show 0x80010000 ∈ _ from ⟨by decide, by decide⟩)
    ⟨by decide, by decide⟩

end AlpSdk.Orchestrate.Partition
