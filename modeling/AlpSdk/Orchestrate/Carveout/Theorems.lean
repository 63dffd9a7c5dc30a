import AlpSdk.Orchestrate.Carveout.Placing

namespace AlpSdk.Orchestrate

-- The addresses of an extent.
def Extent.addresses (ext : Extent) : Set Int := Set.Ico ext.1 ext.2

def ResolvedCarveOut.addresses (out : ResolvedCarveOut) : Set Int :=
  Set.Ico out.base (out.base + out.size)

-- The extents of two regions do not meet, where both resolve.
def Apart (r r' : Region) : Prop :=
  ∀ ext ext', regionExtent r = some ext → regionExtent r' = some ext' →
    Disjoint (Extent.addresses ext) (Extent.addresses ext')

instance : Std.Symm Apart where
  symm _ _ h ext ext' hext hext' := (h ext' ext hext' hext).symm

structure WellMapped (memoryMap : List Region) : Prop where
  names : (memoryMap.map (·.name)).Nodup
  extents : memoryMap.Pairwise Apart

-- What an entry that is returned as ok promises.
structure Sound (project : BoardProject) (entry : IpcEntry) (out : ResolvedCarveOut) : Prop where
  aligned : out.base % PAGE = 0
  size : out.size % PAGE = 0 ∧ entry.carveOutKb * 1024 ≤ out.size ∧
    out.size < entry.carveOutKb * 1024 + PAGE
  region : ∃ region ∈ project.memoryMap, region.name = out.region ∧
    (∀ c ∈ entry.endpoints, c ∈ region.accessibleFrom) ∧
    (∃ ext, regionExtent region = some ext ∧ ext.1 ≤ out.base ∧ out.base + out.size ≤ ext.2) ∧
    ∀ c ∈ entry.endpoints, ∀ win, accessWindow region c = some win →
      win.1 ≤ out.base ∧ out.base + out.size ≤ win.2
  pinned : ∀ address, entry.address = some address → out.base = address

variable {project : BoardProject}

-- A region that holds a carve-out has an extent, which holds the window too.
theorem Placed.in_extent {entry : IpcEntry} {region : Region} {base : Int}
    (hp : Placed project entry region base) (hext : (regionExtent region).isSome) :
    ∃ ext, regionExtent region = some ext ∧ ext.1 ≤ base ∧ base + carveSizeAligned entry ≤ ext.2 := by
  obtain ⟨window, hwindow, hlo, hhi⟩ := hp.inside
  obtain ⟨whole, hwhole, hlo', hhi', -⟩ := endpointWindow_spec hwindow
  unfold regionExtent at hext ⊢
  split at hext
  next b size hbase hsize =>
      simp only [wholeExtent, hbase, Option.map_some, hsize, Option.getD_some,
        Option.some.injEq] at hwhole
      subst hwhole
      exact ⟨_, rfl, hlo'.trans hlo, hhi.trans hhi'⟩
  · cases hext

-- A legal placement makes a sound carve-out.
theorem Placed.sound {entry : IpcEntry} {region : Region} {base : Int} {out : ResolvedCarveOut}
    (hp : Placed project entry region base) (hext : (regionExtent region).isSome)
    (hbase : out.base = base) (hsize : out.size = carveSizeAligned entry)
    (hregion : out.region = region.name) : Sound project entry out := by
  obtain ⟨window, hwindow, hlo, hhi⟩ := hp.inside
  obtain ⟨-, -, -, -, hslices⟩ := endpointWindow_spec hwindow
  subst hbase
  refine ⟨hp.aligned, hsize ▸ carveSizeAligned_spec entry, ⟨region, hp.reachable.mem, hregion.symm,
    hp.reachable.accessible, hsize ▸ hp.in_extent hext, ?_⟩, hp.pinned⟩
  intro c hc win hwin
  obtain ⟨h1, h2⟩ := hslices c hc win hwin
  exact ⟨h1.trans hlo, hsize ▸ hhi.trans h2⟩

-- The carve-out an entry of the list was resolved to, if it is ok.
structure Resolved (project : BoardProject) (s : Placing) (i : Nat) (entry : IpcEntry)
    (region : Region) (out : ResolvedCarveOut) : Prop where
  at_ : s.At project i entry region out.base
  size : out.size = carveSizeAligned entry
  region : out.region = region.name

theorem resolved_of_emitted {s : Placing} {outs : List ResolvedCarveOut}
    (h : List.Forall₂ (Emitted s) (sortedEntries project).zipIdx outs) {i : Nat}
    {out : ResolvedCarveOut} (hout : outs[i]? = some out) (hok : out.status = .ok) :
    ∃ entry region, (sortedEntries project)[i]? = some entry ∧ Resolved project s i entry region out := by
  have hlength := h.length_eq
  obtain ⟨hi, rfl⟩ := List.getElem?_eq_some_iff.mp hout
  have hi' : i < (sortedEntries project).zipIdx.length := by omega
  have hi'' : i < (sortedEntries project).length := by simpa using hi'
  obtain ⟨region, base, hplaced, hbase, hsize, hregion⟩ := h.get hi' hi hok
  simp only [List.get_eq_getElem, List.getElem_zipIdx, Nat.zero_add] at hplaced hbase hsize hregion
  have hentry := List.getElem?_eq_getElem hi''
  exact ⟨_, region, hentry, ⟨⟨hbase ▸ hplaced, hentry⟩, hsize, hregion⟩⟩

-- Two carve-outs lie apart: in one region by the spans on record, in two by the regions' extents.
theorem apart_of_resolved {s : Placing} {i j : Nat} {entry entry' : IpcEntry}
    {region region' : Region} {out out' : ResolvedCarveOut} (hmap : WellMapped project.memoryMap)
    (hinv : PlacingInv project s) (hknown : PlacingKnown project s)
    (hne : i ≠ j) (h : Resolved project s i entry region out)
    (h' : Resolved project s j entry' region' out') : Disjoint out.addresses out'.addresses := by
  obtain ⟨hat, hsize, -⟩ := h
  obtain ⟨hat', hsize', -⟩ := h'
  obtain ⟨hp, -⟩ := hinv.placed i entry region _ hat
  obtain ⟨hp', -⟩ := hinv.placed j entry' region' _ hat'
  rw [Set.disjoint_left]
  rintro x ⟨hlo, hhi⟩ ⟨hlo', hhi'⟩
  by_cases hname : region.name = region'.name
  · have hapart := hinv.apart i j entry entry' region region' _ _ hne hat hat' hname
    omega
  · have hregions : region ≠ region' := fun heq => hname (congrArg Region.name heq)
    obtain ⟨ext, hext, hin⟩ := hp.in_extent (hknown.extents i region _ hat.placement)
    obtain ⟨ext', hext', hin'⟩ := hp'.in_extent (hknown.extents j region' _ hat'.placement)
    have hdisjoint := hmap.extents.forall hp.reachable.mem hp'.reachable.mem hregions ext ext'
      hext hext'
    have hmem : x ∈ Extent.addresses ext := ⟨by omega, by omega⟩
    exact Set.disjoint_left.mp hdisjoint hmem ⟨by omega, by omega⟩

-- Every entry is resolved; those that come back ok are sound, and no two of them share an address.
theorem carve_outs_sound (hmap : WellMapped project.memoryMap) :
    ∃ outs, resolveCarveOuts project = some outs ∧
      List.Forall₂ (fun entry out => out.status = .ok → Sound project entry out)
        (sortedEntries project) outs ∧
      outs.Pairwise fun out out' => out.status = .ok → out'.status = .ok →
        Disjoint out.addresses out'.addresses := by
  by_cases hempty : project.ipc = []
  · refine ⟨[], by simp [resolveCarveOuts, hempty], ?_, .nil⟩
    simp [sortedEntries, hempty]
  obtain ⟨s, hs, hknown⟩ := placements_isSome hmap.names
  have hinv := placements_inv hs
  have hemit : List.Forall₂ (Emitted s) (sortedEntries project).zipIdx (emit project s _ _) :=
    emit_emitted s (sortedEntries project).zipIdx ⟨claimedUpFront project, []⟩
  refine ⟨_, resolveCarveOuts_eq hempty hs, ?_, ?_⟩
  · refine List.forall₂_iff_get.mpr ⟨by simpa using hemit.length_eq, fun i hi hi' hok => ?_⟩
    obtain ⟨entry, region, hentry, hat, hsize, hregion⟩ :=
      resolved_of_emitted hemit (List.getElem?_eq_getElem hi') hok
    obtain rfl : (sortedEntries project)[i] = entry := by simpa [hi] using hentry
    obtain ⟨hp, -⟩ := hinv.placed i _ region _ hat
    exact hp.sound (hknown.extents i region _ hat.placement) rfl hsize hregion
  · refine List.pairwise_iff_getElem.mpr fun i j hi hj hlt hok hok' => ?_
    obtain ⟨entry, region, -, h⟩ := resolved_of_emitted hemit (List.getElem?_eq_getElem hi) hok
    obtain ⟨entry', region', -, h'⟩ := resolved_of_emitted hemit (List.getElem?_eq_getElem hj) hok'
    exact apart_of_resolved hmap hinv hknown (Nat.ne_of_lt hlt) h h'

-- A SoM with one shared region: the RPMsg channel floats, the second channel is pinned.
def ocramLow : Region where
  name := "ocram_low"
  base := .int 0x10000
  sizeMib := .unset
  sizeKib := .int 64
  accessibleFrom := ["a55_cluster", "m33_sm"]
  accessWindows := []
  cacheable := some false
  carveout := none
  writeAuthority := some .customerRuntime

def pinnedAndFloating : BoardProject where
  preset := { sku := "E1M-V2N101", silicon := "renesas:rzv2n:n44", memoryMap := [ocramLow] }
  soc := { memoryRegions := [], variantRegions := [], aperture := none }
  mailbox :=
    { controller := .named "renesas_mhu"
      channels := [⟨0, some "alp_default_rpmsg"⟩, ⟨1, some "app"⟩] }
  ipc :=
    [{ name := "alp_default_rpmsg", kind := .rpmsg, endpoints := ["a55_cluster", "m33_sm"]
       carveOutKb := 8, cacheable := none, address := none },
      { name := "frames", kind := .rawShmem, endpoints := ["m33_sm", "a55_cluster"]
        carveOutKb := 6, cacheable := none, address := some 0x1e000 }]

theorem pinnedAndFloating_mapped : WellMapped pinnedAndFloating.memoryMap :=
  ⟨by decide, List.pairwise_singleton _ _⟩

theorem carve_outs_sound_pinnedAndFloating :
    (resolveCarveOuts pinnedAndFloating).map (·.map fun out => (out.base, out.size, out.status)) =
        some [(0x1c000, 0x2000, .ok), (0x1e000, 0x2000, .ok)] ∧
      ∃ outs, resolveCarveOuts pinnedAndFloating = some outs ∧
        outs.Pairwise fun out out' => out.status = .ok → out'.status = .ok →
          Disjoint out.addresses out'.addresses := by
  obtain ⟨outs, houts, -, hpairs⟩ := carve_outs_sound pinnedAndFloating_mapped
  exact ⟨by decide +kernel, outs, houts, hpairs⟩

end AlpSdk.Orchestrate
