import AlpSdk.Orchestrate.Carveout.Theorems

namespace AlpSdk.Orchestrate

-- An entry as board.schema.json admits it.
structure IpcEntry.Valid (entry : IpcEntry) : Prop where
  endpoints : 2 ≤ entry.endpoints.length ∧ entry.endpoints.Nodup
  size : 1 ≤ entry.carveOutKb
  address : ∀ address, entry.address = some address → 0 ≤ address

-- No ipc list gets a carve-out that touches the aperture.
def MramUntouched (preset : SomPreset) (soc : Soc) (mailbox : Mailbox) (aperture : Extent) : Prop :=
  ∀ ipc outs, (∀ entry ∈ ipc, entry.Valid) →
    resolveCarveOuts ⟨preset, soc, mailbox, ipc⟩ = some outs →
      ∀ out ∈ outs, out.status = .ok → Disjoint out.addresses (Extent.addresses aperture)

-- Some entry can have a mailbox channel, and an eligible region offers a set of endpoints a
-- window with a page that meets the aperture.
structure Exposed (preset : SomPreset) (soc : Soc) (mailbox : Mailbox) (aperture : Extent) : Prop where
  channel : ∃ ch ∈ mailbox.channels, ∃ tag, ch.reservedFor = some tag
  page : ∃ region ∈ resolveMemoryMap preset soc,
    regionIpcEligibility region aperture (isPresetAuthored preset) = .ok () ∧
    ∃ endpoints : List String, 2 ≤ endpoints.length ∧ endpoints.Nodup ∧
      (∀ c ∈ endpoints, c ∈ region.accessibleFrom) ∧
      ∃ window page, endpointWindow region endpoints = some window ∧ page % PAGE = 0 ∧
        window.1 ≤ page ∧ page + PAGE ≤ window.2 ∧
        ∃ x ∈ Extent.addresses aperture, page ≤ x ∧ x < page + PAGE

section Touching

variable {project : BoardProject} {aperture : Extent}

theorem eligible_of_candidate {authored : Bool} {region : Region}
    (h : filterRegion (some aperture) authored region = .candidate region) :
    regionIpcEligibility region aperture authored = .ok () := by
  unfold filterRegion at h
  simp only at h
  split at h
  next hok => exact hok
  · cases h

theorem channel_of_resolved {name : String} {claimed : List Int} {mbox : Int}
    (h : resolveMailboxChannel project name claimed = .ok mbox) :
    ∃ ch ∈ project.mailbox.channels, ∃ tag, ch.reservedFor = some tag := by
  unfold resolveMailboxChannel at h
  split at h
  next ch hfind =>
      exact ⟨ch, List.mem_of_find?_eq_some hfind, name, by simpa using List.find?_some hfind⟩
  · simp only at h
    split at h
    next first rest hfree =>
        have hmem : first ∈ (first :: rest : List Int) := List.mem_cons_self
        rw [← hfree, (List.perm_insertionSort _ _).mem_iff] at hmem
        obtain ⟨ch, hch, -⟩ := List.mem_map.mp hmem
        obtain ⟨hin, htag⟩ := List.mem_filter.mp hch
        simp only [decide_eq_true_eq] at htag
        exact ⟨ch, hin, "app", htag.1⟩
    · cases h

theorem channel_of_emitOne {s : Placing} {st : Emitting} {entry : IpcEntry} {index : Nat}
    (hok : (emitOne project s st entry index).2.status = .ok) :
    ∃ ch ∈ project.mailbox.channels, ∃ tag, ch.reservedFor = some tag := by
  unfold emitOne at hok
  split at hok
  · cases hok
  · split at hok
    · simp only at hok
      split at hok
      · cases hok
      · split at hok
        · cases hok
        next mbox hmbox => exact channel_of_resolved hmbox
    · cases hok
    · cases hok

theorem channel_of_emit {s : Placing} {l : List (IpcEntry × Nat)} {st : Emitting}
    {out : ResolvedCarveOut} (hout : out ∈ emit project s l st) (hok : out.status = .ok) :
    ∃ ch ∈ project.mailbox.channels, ∃ tag, ch.reservedFor = some tag := by
  induction l generalizing st with
  | nil => cases hout
  | cons x rest ih =>
      simp only [emit, List.mem_cons] at hout
      rcases hout with rfl | hout
      · exact channel_of_emitOne hok
      · exact ih hout

-- The page of an address that a carve-out and the aperture share.
theorem exposed_of_placed {entry : IpcEntry} {region : Region} {base x : Int}
    (hsoc : project.soc.aperture = some aperture) (hvalid : entry.Valid)
    (hchannel : ∃ ch ∈ project.mailbox.channels, ∃ tag, ch.reservedFor = some tag)
    (hp : Placed project entry region base) (hx : base ≤ x ∧ x < base + carveSizeAligned entry)
    (hmram : x ∈ Extent.addresses aperture) :
    Exposed project.preset project.soc project.mailbox aperture := by
  obtain ⟨⟨hmem, heligible, haccess⟩, haligned, ⟨window, hwindow, hlo, hhi⟩, -⟩ := hp
  obtain ⟨hsize, -, -⟩ := carveSizeAligned_spec entry
  rw [hsoc] at heligible
  refine ⟨hchannel, region, hmem, eligible_of_candidate heligible, entry.endpoints,
    hvalid.endpoints.1, hvalid.endpoints.2, haccess, window, alignDown x PAGE, hwindow,
    alignDown_aligned x, ?_, ?_, x, hmram, ?_, ?_⟩
  all_goals
    simp only [alignDown, PAGE] at *
    omega

theorem untouched_of_not_exposed {preset : SomPreset} {soc : Soc} {mailbox : Mailbox}
    (hsoc : soc.aperture = some aperture) (h : ¬Exposed preset soc mailbox aperture) :
    MramUntouched preset soc mailbox aperture := by
  intro ipc outs hvalid hres out hout hok
  rw [Set.disjoint_left]
  intro x hx hmram
  have hne : ipc ≠ [] := by
    rintro rfl
    cases hres
    cases hout
  cases hs : placements ⟨preset, soc, mailbox, ipc⟩ with
  | none => simp [resolveCarveOuts, hne, hs] at hres
  | some s =>
      rw [resolveCarveOuts_eq hne hs] at hres
      cases hres
      obtain ⟨i, hi, rfl⟩ := List.getElem_of_mem hout
      obtain ⟨entry, region, hentry, hat, hsize, -⟩ :=
        resolved_of_emitted (emit_emitted ..) (List.getElem?_eq_getElem hi) hok
      obtain ⟨hp, -⟩ := (placements_inv hs).placed i entry region _ hat
      have hmem : entry ∈ ipc :=
        (List.perm_insertionSort _ ipc).mem_iff.mp (List.mem_of_getElem? hentry)
      have hchannel := channel_of_emit hout hok
      exact h (exposed_of_placed hsoc (hvalid entry hmem) hchannel hp ⟨hx.1, hsize ▸ hx.2⟩ hmram)

end Touching

section Pinning

variable {project : BoardProject} {entry : IpcEntry} {region : Region}

theorem candidateRegions_of_reachable (haperture : project.soc.aperture ≠ none)
    (h : Reachable project entry region) :
    ∃ candidates, candidateRegions project entry = .ok candidates ∧ region ∈ candidates := by
  have hmem : region ∈ (filteredRegions project entry).filterMap Filtered.candidate? := by
    refine List.mem_filterMap.mpr ⟨.candidate region, ?_, rfl⟩
    rw [← h.eligible]
    refine List.mem_map_of_mem (List.mem_filter.mpr ⟨h.mem, ?_⟩)
    simpa using h.accessible
  have hne := List.ne_nil_of_mem hmem
  unfold candidateRegions
  rw [if_neg fun hnone => haperture hnone.1]
  simp only
  rw [if_neg hne]
  exact ⟨_, rfl, (List.perm_insertionSort _ _).mem_iff.mpr hmem⟩

-- The search ends at a region as soon as one candidate holds the pinned range.
theorem choosePinned_finds {base size : Int} {candidates : List Region} {a : Allocator}
    (windows : List (String × Extent)) (tbd : Option Reason) {window : Extent}
    (hnames : (project.memoryMap.map (·.name)).Nodup)
    (hcand : ∀ r ∈ candidates, r ∈ project.memoryMap) (htops : TopsKnown project a)
    (hmem : region ∈ candidates) (hext : (regionExtent region).isSome)
    (hwindow : endpointWindow region entry.endpoints = some window)
    (hfits : window.1 ≤ base ∧ base + size ≤ window.2) :
    ∃ a' r, choosePinned entry base size candidates a windows tbd = some (a', .ok r) := by
  induction candidates generalizing a windows tbd with
  | nil => cases hmem
  | cons r rest ih =>
      have hrest := fun r' hr' => hcand r' (List.mem_cons_of_mem _ hr')
      obtain ⟨hknown, hext'⟩ := regionTopInit_known hnames (hcand r List.mem_cons_self) htops
      rw [choosePinned]
      rcases hinit : regionTopInit a r with ⟨a₁, reason | top⟩
      · rw [hinit] at hknown
        rcases List.mem_cons.mp hmem with rfl | hmem
        · obtain ⟨top, htop⟩ := regionTopInit_ok (a := a) hext
          rw [hinit] at htop
          cases htop
        · exact ih windows _ hrest hknown hmem
      · rw [hinit] at hknown hext'
        obtain ⟨window', hwindow'⟩ := endpointWindow_isSome (hext' top rfl) entry.endpoints
        simp only [hwindow', Option.bind_eq_bind, Option.bind_some]
        by_cases hhere : window'.1 ≤ base ∧ base + size ≤ window'.2
        · rw [if_pos hhere]
          exact ⟨_, _, rfl⟩
        · rw [if_neg hhere]
          rcases List.mem_cons.mp hmem with rfl | hmem
          · rw [hwindow] at hwindow'
            cases hwindow'
            exact absurd hfits hhere
          · exact ih _ tbd hrest hknown hmem

end Pinning

-- The entry that pins one page, under the tag of a channel.
def pinPage (tag : String) (endpoints : List String) (page : Int) : IpcEntry where
  name := tag
  kind := .rawShmem
  endpoints := endpoints
  carveOutKb := 1
  cacheable := none
  address := some page

section OneEntry

variable {preset : SomPreset} {soc : Soc} {mailbox : Mailbox} {entry : IpcEntry}

-- A list of one entry that is not blocked by the mailbox resolves to what its placement says.
theorem placements_singleton {region : Region} {base : Int} {a : Allocator}
    (hkind : entry.kind ≠ .rpmsg) (haddress : entry.address.isSome)
    (hplace : placePinned ⟨preset, soc, mailbox, [entry]⟩ ⟨fun _ => none, fun _ => []⟩ entry =
      some (a, .ok (region, base))) :
    placements ⟨preset, soc, mailbox, [entry]⟩ =
      some ⟨a, Function.update (fun _ => none) 0 (some (.ok (region, base)))⟩ := by
  have hplaceable : placeable ⟨preset, soc, mailbox, [entry]⟩ = [(entry, 0)] := by
    simp [placeable, sortedEntries, mailboxBlocked, hkind]
  have hnone : entry.address.isNone = false := by
    rw [Option.isNone_eq_false_iff]
    exact haddress
  simp [placements, hplaceable, placePass, placeOne, emptyPlacing, haddress, hnone, hplace]

theorem emitOne_ok (preset : SomPreset) (soc : Soc) (claimed : List Int) {s : Placing}
    {region : Region} {base : Int} {ch : Channel} (hkind : entry.kind ≠ .rpmsg)
    (hplaced : s.placement 0 = some (.ok (region, base)))
    (hch : ch ∈ mailbox.channels) (htag : ch.reservedFor = some entry.name) :
    ∃ out, (emitOne ⟨preset, soc, mailbox, [entry]⟩ s ⟨claimed, []⟩ entry 0).2 = out ∧
      out.status = .ok ∧ out.base = base ∧ out.size = carveSizeAligned entry := by
  have hmbox : ∃ mbox, resolveMailboxChannel ⟨preset, soc, mailbox, [entry]⟩ entry.name claimed =
      .ok mbox := by
    have hsome : (mailbox.channels.find? (·.reservedFor = some entry.name)).isSome :=
      List.find?_isSome.mpr ⟨ch, hch, by simp [htag]⟩
    obtain ⟨found, hfound⟩ := Option.isSome_iff_exists.mp hsome
    exact ⟨found.id, by simp only [resolveMailboxChannel, hfound]⟩
  obtain ⟨mbox, hmbox⟩ := hmbox
  refine ⟨_, rfl, ?_⟩
  simp [emitOne, mailboxBlocked, hkind, hplaced, hmbox]

end OneEntry

-- A window with an address in it lies in a region whose size resolves.
theorem extent_of_window {region : Region} {endpoints : List String} {window : Extent}
    (h : endpointWindow region endpoints = some window) (hlt : window.1 < window.2) :
    (regionExtent region).isSome := by
  obtain ⟨whole, hwhole, hlo, hhi, -⟩ := endpointWindow_spec h
  obtain ⟨base, hbase, rfl⟩ := Option.map_eq_some_iff.mp hwhole
  cases hsize : region.sizeBytes with
  | none =>
      rw [hsize] at hhi
      simp only [Option.getD_none] at hlo hhi
      omega
  | some size => simp [regionExtent, hbase, hsize]

-- A pinned page that a reachable region holds is placed.
theorem placePinned_page {project : BoardProject} {entry : IpcEntry} {region : Region}
    {window : Extent} {page : Int} (haperture : project.soc.aperture ≠ none)
    (hnames : (project.memoryMap.map (·.name)).Nodup) (hreach : Reachable project entry region)
    (haddress : entry.address = some page) (haligned : page % PAGE = 0)
    (hwindow : endpointWindow region entry.endpoints = some window)
    (hsize : 0 < carveSizeAligned entry)
    (hfits : window.1 ≤ page ∧ page + carveSizeAligned entry ≤ window.2) :
    ∃ a r, placePinned project ⟨fun _ => none, fun _ => []⟩ entry = some (a, .ok (r, page)) := by
  obtain ⟨candidates, hcand, hmem⟩ := candidateRegions_of_reachable haperture hreach
  have htops : TopsKnown project ⟨fun _ => none, fun _ => []⟩ := by
    intro r _ h
    cases h
  obtain ⟨a', r, hchoose⟩ := choosePinned_finds [] none hnames
    (fun r hr => ((mem_candidateRegions hcand).2 r hr).mem) htops hmem
    (extent_of_window hwindow (by omega)) hwindow hfits
  obtain ⟨hspans, -⟩ := choosePinned_spec hchoose
  have hclear : overlap a' r.name page (carveSizeAligned entry) = none := by
    simp [overlap, hspans]
  refine ⟨addSpan a' r.name page (carveSizeAligned entry) entry.name, r, ?_⟩
  simp only [placePinned, hcand, haddress, Option.getD_some, haligned, ne_eq, not_true_eq_false,
    if_false, hchoose, Option.bind_eq_bind, Option.bind_some, hclear]

theorem touched_of_exposed {preset : SomPreset} {soc : Soc} {mailbox : Mailbox} {aperture : Extent}
    (hsoc : soc.aperture = some aperture) (hbase : 0 ≤ aperture.1)
    (hnames : ((resolveMemoryMap preset soc).map (·.name)).Nodup)
    (h : Exposed preset soc mailbox aperture) : ¬MramUntouched preset soc mailbox aperture := by
  obtain ⟨⟨ch, hch, tag, htag⟩, region, hmem, heligible, endpoints, htwo, hnodup, haccess, window,
    page, hwindow, haligned, hlo, hhi, x, hmram, hx, hx'⟩ := h
  let entry := pinPage tag endpoints page
  have hvalid : entry.Valid := by
    refine ⟨⟨htwo, hnodup⟩, le_refl _, ?_⟩
    intro address heq
    cases heq
    have hxlo := hmram.1
    simp only [PAGE] at haligned hx'
    omega
  have hreach : Reachable ⟨preset, soc, mailbox, [entry]⟩ entry region := by
    refine ⟨hmem, ?_, haccess⟩
    simp only [filterRegion, hsoc, heligible]
  have hsize : carveSizeAligned entry = PAGE := rfl
  have hpos : 0 < carveSizeAligned entry := by
    rw [hsize]
    decide
  obtain ⟨a, r, hplace⟩ := placePinned_page (by simp [hsoc]) hnames hreach rfl haligned hwindow
    hpos ⟨hlo, hsize ▸ hhi⟩
  have hkind : entry.kind ≠ .rpmsg := nofun
  have hplacements := placements_singleton hkind rfl hplace
  let placing : Placing := ⟨a, Function.update (fun _ => none) 0 (some (.ok (r, page)))⟩
  have hplaced : placing.placement 0 = some (.ok (r, page)) := by simp [placing]
  obtain ⟨out, hemit, hok, hout, hpage⟩ :=
    emitOne_ok preset soc (claimedUpFront ⟨preset, soc, mailbox, [entry]⟩) hkind hplaced hch htag
  intro huntouched
  have hdisjoint := huntouched [entry] [out] (by simpa using hvalid) (by
    rw [resolveCarveOuts_eq (by simp) hplacements]
    simpa [sortedEntries, emit] using hemit) out (by simp) hok
  have hshared : x ∈ out.addresses := by
    rw [ResolvedCarveOut.addresses, hout, hpage, hsize]
    exact ⟨hx, hx'⟩
  exact Set.disjoint_left.mp hdisjoint hshared hmram

-- Without an exposed page no ipc list touches the aperture, and with one some list does.
theorem mram_untouched_iff {preset : SomPreset} {soc : Soc} {mailbox : Mailbox} {aperture : Extent}
    (hsoc : soc.aperture = some aperture) (hbase : 0 ≤ aperture.1) :
    (¬Exposed preset soc mailbox aperture → MramUntouched preset soc mailbox aperture) ∧
      (((resolveMemoryMap preset soc).map (·.name)).Nodup →
        MramUntouched preset soc mailbox aperture → ¬Exposed preset soc mailbox aperture) :=
  ⟨untouched_of_not_exposed hsoc, fun hnames huntouched hexposed =>
    touched_of_exposed hsoc hbase hnames hexposed huntouched⟩

-- A SoM with one authored row, on a SoC with MRAM.
def mramAperture : Extent := (0x80000000, 0x80580000)

def sramRow (name : String) (base : Int) : Region where
  name := name
  base := .int base
  sizeMib := .int 2
  sizeKib := .unset
  accessibleFrom := ["m55_hp", "m55_he"]
  accessWindows := []
  cacheable := some false
  carveout := none
  writeAuthority := some .customerRuntime

def oneRow (region : Region) : BoardProject where
  preset := { sku := "E1M-AEN801", silicon := "alif:ensemble:e8", memoryMap := [region] }
  soc := { memoryRegions := [], variantRegions := [], aperture := some mramAperture }
  mailbox :=
    { controller := .named "alif_mhuv2"
      channels := [⟨0, some "alp_default_rpmsg"⟩, ⟨1, some "app"⟩] }
  ipc :=
    [{ name := "alp_default_rpmsg", kind := .rpmsg, endpoints := ["m55_hp", "m55_he"]
       carveOutKb := 8, cacheable := none, address := none }]

-- A row clear of the MRAM keeps every list clear of it.
theorem sram_clear_of_mram :
    MramUntouched (oneRow (sramRow "sram0" 0x02000000)).preset
      (oneRow (sramRow "sram0" 0x02000000)).soc (oneRow (sramRow "sram0" 0x02000000)).mailbox
      mramAperture := by
  refine (mram_untouched_iff rfl (by decide)).1 ?_
  rintro ⟨-, region, hmem, -, endpoints, -, -, -, window, page, hwindow, -, -, hhi, x, hx, hpage, hpage'⟩
  obtain rfl := List.mem_singleton.mp hmem
  obtain ⟨whole, hwhole, -, hwin, -⟩ := endpointWindow_spec hwindow
  cases hwhole
  have hlow := hx.1
  simp only [mramAperture, sramRow, Region.sizeBytes, sizeBytes, Field.int?, Option.getD_some] at hlow hwin
  omega

-- A row that ends one MiB inside the MRAM is not contained in it, so it counts as eligible, and
-- the allocator takes the top of it.
theorem straddling_row_touches_mram :
    ∃ outs, resolveCarveOuts (oneRow (sramRow "sram_tail" 0x7ff00000)) = some outs ∧
      ∃ out ∈ outs, out.status = .ok ∧ out.base = 0x800fe000 ∧
        ¬Disjoint out.addresses (Extent.addresses mramAperture) := by
  have hres : (resolveCarveOuts (oneRow (sramRow "sram_tail" 0x7ff00000))).map
      (·.map fun out => (out.base, out.size, out.status)) = some [(0x800fe000, 0x2000, .ok)] := by
    decide +kernel
  obtain ⟨outs, houts, hmap⟩ := Option.map_eq_some_iff.mp hres
  obtain ⟨out, rfl, hout⟩ := List.map_eq_singleton_iff.mp hmap
  simp only [Prod.mk.injEq] at hout
  obtain ⟨hbase, hsize, hok⟩ := hout
  refine ⟨[out], houts, out, List.mem_singleton_self out, hok, hbase, ?_⟩
  rw [Set.not_disjoint_iff, ResolvedCarveOut.addresses, hbase, hsize]
  exact ⟨0x800fe000, ⟨by decide, by decide⟩, by decide, by decide⟩

end AlpSdk.Orchestrate
