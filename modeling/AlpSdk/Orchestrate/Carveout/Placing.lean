import AlpSdk.Orchestrate.Carveout

namespace AlpSdk.Orchestrate

theorem alignDown_le (value : Int) : alignDown value PAGE ≤ value := by
  have h := Int.emod_nonneg value (b := PAGE) (by decide)
  unfold alignDown
  omega

theorem alignDown_aligned (value : Int) : alignDown value PAGE % PAGE = 0 := by
  simp only [alignDown, PAGE]
  omega

section FirstFree

variable (size floor : Int) (spans : List Span)

-- The flag of a pass is never lowered again.
theorem pass_flag (base : Int) : (spans.foldl (stepDown size) (base, true)).2 = true := by
  induction spans generalizing base with
  | nil => rfl
  | cons s rest ih =>
      simp only [List.foldl_cons, stepDown]
      split <;> exact ih _

-- A pass over the spans never raises the base; one that leaves it where it was hit no span.
theorem pass_cases (state : Int × Bool) :
    let out := spans.foldl (stepDown size) state
    out.1 ≤ state.1 ∧ (state.1 % PAGE = 0 → out.1 % PAGE = 0) ∧
      (out.2 = true → state.2 = true ∨ out.1 < state.1) ∧
      (out.2 = false → out.1 = state.1 ∧
        ∀ s ∈ spans, ¬(state.1 < s.hi ∧ s.lo < state.1 + size)) := by
  induction spans generalizing state with
  | nil => simp
  | cons s rest ih =>
      have hout := ih (stepDown size state s)
      have hdown := alignDown_le (s.lo - size)
      have haligned := alignDown_aligned (s.lo - size)
      simp only [List.foldl_cons]
      by_cases hhit : state.1 < s.hi ∧ s.lo < state.1 + size
      · simp only [stepDown, if_pos hhit] at hout ⊢
        obtain ⟨hle, halign, hmoved, hstill⟩ := hout
        refine ⟨by omega, fun _ => halign haligned, fun _ => .inr (by omega), ?_⟩
        intro hfalse
        rw [pass_flag] at hfalse
        cases hfalse
      · simp only [stepDown, if_neg hhit] at hout ⊢
        obtain ⟨hle, halign, hmoved, hstill⟩ := hout
        refine ⟨hle, halign, hmoved, fun hfalse => ?_⟩
        obtain ⟨hsame, hnone⟩ := hstill hfalse
        refine ⟨hsame, ?_⟩
        intro t ht
        rcases List.mem_cons.mp ht with rfl | ht
        · exact hhit
        · exact hnone t ht

theorem descend_spec (fuel : Nat) (base : Int) (hfuel : base - floor < fuel)
    (haligned : base % PAGE = 0) :
    let out := descend size floor spans fuel base
    out ≤ base ∧ out % PAGE = 0 ∧
      (floor ≤ out → ∀ s ∈ spans, out + size ≤ s.lo ∨ s.hi ≤ out) := by
  induction fuel generalizing base with
  | zero => exact ⟨le_refl _, haligned, fun h => absurd h (by simp only [descend]; omega)⟩
  | succ fuel ih =>
      simp only [descend]
      by_cases hlow : base < floor
      · rw [if_pos hlow]
        exact ⟨le_refl _, haligned, fun h => absurd h (by omega)⟩
      · rw [if_neg hlow]
        obtain ⟨hle, halign, hmoved, hstill⟩ :=
          pass_cases size spans (base, false)
        cases hflag : (spans.foldl (stepDown size) (base, false)).2 with
        | true =>
            have hlt := (hmoved hflag).resolve_left (by simp)
            simp only at hlt
            obtain ⟨hle', halign', hclear⟩ := ih _ (by omega) (halign haligned)
            simp only [if_true]
            exact ⟨hle'.trans hle, halign', hclear⟩
        | false =>
            obtain ⟨hsame, hnone⟩ := hstill hflag
            simp only at hsame hnone
            simp only [Bool.false_eq_true, if_false, hsame]
            refine ⟨le_refl _, haligned, fun _ s hs => ?_⟩
            have hs' := hnone s hs
            omega

-- `_first_free_down` ends, and where it ends at or above the floor it hits no span.
theorem firstFreeDown_spec (top : Int) :
    let base := firstFreeDown top size spans floor
    base + size ≤ top ∧ base % PAGE = 0 ∧
      (floor ≤ base → ∀ s ∈ spans, base + size ≤ s.lo ∨ s.hi ≤ base) := by
  have hdown := alignDown_le (top - size)
  obtain ⟨hle, halign, hclear⟩ := descend_spec size floor
    (spans.insertionSort fun a b => a.before b) ((alignDown (top - size) PAGE - floor).toNat + 1) (alignDown (top - size) PAGE)
    (by omega) (alignDown_aligned _)
  refine ⟨?_, halign, fun hfloor s hs => ?_⟩
  · simp only [firstFreeDown]
    omega
  · exact hclear hfloor s ((List.perm_insertionSort _ spans).mem_iff.mpr hs)

end FirstFree

-- The size is the requested one, rounded up to the page.
theorem carveSizeAligned_spec (entry : IpcEntry) :
    carveSizeAligned entry % PAGE = 0 ∧ entry.carveOutKb * 1024 ≤ carveSizeAligned entry ∧
      carveSizeAligned entry < entry.carveOutKb * 1024 + PAGE := by
  simp only [carveSizeAligned, PAGE]
  omega

section Window

variable {region : Region} {window : Extent}

theorem narrow_fold (region : Region) (cores : List String) (whole : Extent) :
    let out := cores.foldl (narrow region) whole
    whole.1 ≤ out.1 ∧ out.2 ≤ whole.2 ∧
      ∀ c ∈ cores, ∀ win, accessWindow region c = some win → win.1 ≤ out.1 ∧ out.2 ≤ win.2 := by
  induction cores generalizing whole with
  | nil => simp
  | cons core rest ih =>
      obtain ⟨hlo, hhi, hrest⟩ := ih (narrow region whole core)
      simp only [List.foldl_cons]
      have hstep : whole.1 ≤ (narrow region whole core).1 ∧ (narrow region whole core).2 ≤ whole.2 ∧
          ∀ win, accessWindow region core = some win →
            win.1 ≤ (narrow region whole core).1 ∧ (narrow region whole core).2 ≤ win.2 := by
        unfold narrow
        split
        next hnone => simp [hnone]
        next win hsome => simp [hsome]
      obtain ⟨hlo', hhi', hwin⟩ := hstep
      refine ⟨hlo'.trans hlo, hhi.trans hhi', ?_⟩
      intro c hc win hsome
      rcases List.mem_cons.mp hc with rfl | hc
      · obtain ⟨h1, h2⟩ := hwin win hsome
        exact ⟨h1.trans hlo, hhi.trans h2⟩
      · exact hrest c hc win hsome

-- The window lies in the region and in the slice of each endpoint.
theorem endpointWindow_spec {endpoints : List String}
    (h : endpointWindow region endpoints = some window) :
    ∃ whole, wholeExtent region = some whole ∧ whole.1 ≤ window.1 ∧ window.2 ≤ whole.2 ∧
      ∀ c ∈ endpoints, ∀ win, accessWindow region c = some win →
        win.1 ≤ window.1 ∧ window.2 ≤ win.2 := by
  obtain ⟨whole, hwhole, rfl⟩ := Option.map_eq_some_iff.mp h
  obtain ⟨hlo, hhi, hcores⟩ :=
    narrow_fold region (endpoints.dedup.insertionSort (· ≤ ·)) whole
  refine ⟨whole, hwhole, hlo, hhi, fun c hc => hcores c ?_⟩
  exact (List.perm_insertionSort _ _).mem_iff.mpr (List.mem_dedup.mpr hc)

end Window

section Placing

variable {project : BoardProject} {entry : IpcEntry} {a a' : Allocator}

-- What makes a region a legal target for an entry.
structure Reachable (project : BoardProject) (entry : IpcEntry) (region : Region) : Prop where
  mem : region ∈ project.memoryMap
  eligible : filterRegion project.soc.aperture (isPresetAuthored project.preset) region =
    .candidate region
  accessible : ∀ c ∈ entry.endpoints, c ∈ region.accessibleFrom

theorem filterRegion_candidate {aperture : Option Extent} {authored : Bool} {region r : Region}
    (h : filterRegion aperture authored region = .candidate r) : region = r := by
  unfold filterRegion at h
  split at h <;> split at h <;> cases h <;> rfl

theorem mem_candidateRegions {candidates : List Region}
    (h : candidateRegions project entry = .ok candidates) :
    candidates ≠ [] ∧ ∀ r ∈ candidates, Reachable project entry r := by
  unfold candidateRegions at h
  split at h
  · cases h
  simp only at h
  split at h
  · split at h
    · cases h
    · split at h <;> cases h
  next hne =>
      cases h
      constructor
      · intro hnil
        have hlength := congrArg List.length hnil
        rw [List.length_insertionSort] at hlength
        exact hne (List.length_eq_zero_iff.mp hlength)
      · intro r hr
        have hr' := (List.perm_insertionSort _ _).mem_iff.mp hr
        simp only [filteredRegions, List.mem_filterMap, List.mem_map, List.mem_filter] at hr'
        obtain ⟨f, ⟨region, ⟨hmem, haccess⟩, rfl⟩, hf⟩ := hr'
        unfold Filtered.candidate? at hf
        split at hf
        next r' hcand =>
            cases hf
            obtain rfl := filterRegion_candidate hcand
            exact ⟨hmem, hcand, by simpa using haccess⟩
        · cases hf

-- A carve-out of the entry at `base` in the region.
structure Placed (project : BoardProject) (entry : IpcEntry) (region : Region) (base : Int) :
    Prop where
  reachable : Reachable project entry region
  aligned : base % PAGE = 0
  inside : ∃ window, endpointWindow region entry.endpoints = some window ∧ window.1 ≤ base ∧
    base + carveSizeAligned entry ≤ window.2
  pinned : ∀ address, entry.address = some address → base = address

-- What a placement that succeeds does to the spans.
structure Places (project : BoardProject) (entry : IpcEntry) (a a' : Allocator) (region : Region)
    (base : Int) : Prop where
  placed : Placed project entry region base
  clear : ∀ s ∈ a.placedSpans region.name, base + carveSizeAligned entry ≤ s.lo ∨ s.hi ≤ base
  spans : a'.placedSpans = (addSpan a region.name base (carveSizeAligned entry) entry.name).placedSpans

theorem regionTopInit_spans (a : Allocator) (region : Region) :
    (regionTopInit a region).1.placedSpans = a.placedSpans := by
  unfold regionTopInit
  split
  · rfl
  · split <;> rfl

theorem choosePinned_spec {base size : Int} {candidates : List Region}
    {windows : List (String × Extent)} {tbd : Option Reason} {result : Except Reason Region}
    (h : choosePinned entry base size candidates a windows tbd = some (a', result)) :
    a'.placedSpans = a.placedSpans ∧ ∀ region, result = .ok region → region ∈ candidates ∧
      ∃ window, endpointWindow region entry.endpoints = some window ∧ window.1 ≤ base ∧
        base + size ≤ window.2 := by
  induction candidates generalizing a windows tbd with
  | nil =>
      cases h
      refine ⟨rfl, ?_⟩
      intro region hok
      cases hok
  | cons r rest ih =>
      have hspans := regionTopInit_spans a r
      rw [choosePinned] at h
      rcases hinit : regionTopInit a r with ⟨a₁, top | top⟩
      · rw [hinit] at h hspans
        obtain ⟨hsame, hfound⟩ := ih h
        refine ⟨hsame.trans hspans, fun region hok => ?_⟩
        obtain ⟨hmem, hwindow⟩ := hfound region hok
        exact ⟨List.mem_cons_of_mem _ hmem, hwindow⟩
      · rw [hinit] at h hspans
        simp only [Option.bind_eq_bind, Option.bind_eq_some_iff] at h
        obtain ⟨window, hwindow, h⟩ := h
        split at h
        next hfits =>
            cases h
            refine ⟨hspans, fun region hok => ?_⟩
            cases hok
            exact ⟨List.mem_cons_self, window, hwindow, hfits⟩
        · obtain ⟨hsame, hfound⟩ := ih h
          refine ⟨hsame.trans hspans, fun region hok => ?_⟩
          obtain ⟨hmem, hwindow'⟩ := hfound region hok
          exact ⟨List.mem_cons_of_mem _ hmem, hwindow'⟩

theorem overlap_none {region : String} {base size : Int} (h : overlap a region base size = none) :
    ∀ s ∈ a.placedSpans region, base + size ≤ s.lo ∨ s.hi ≤ base := by
  intro s hs
  have hnone := List.find?_eq_none.mp h s hs
  simpa [or_iff_not_imp_left] using hnone

-- What a placement does, whether it succeeds or not.
def PlaceSpec (project : BoardProject) (entry : IpcEntry) (a a' : Allocator) (result : Placement) :
    Prop :=
  match result with
  | .ok (region, base) => Places project entry a a' region base
  | .error _ => a'.placedSpans = a.placedSpans

theorem placePinned_spec {result : Placement}
    (h : placePinned project a entry = some (a', result)) :
    PlaceSpec project entry a a' result := by
  unfold placePinned at h
  split at h
  · cases h
    rfl
  next candidates hcand =>
      simp only at h
      split at h
      · cases h
        rfl
      next haligned =>
          simp only [Option.bind_eq_bind, Option.bind_eq_some_iff] at h
          obtain ⟨⟨a₁, chosen⟩, hchoose, h⟩ := h
          obtain ⟨hspans, hfound⟩ := choosePinned_spec hchoose
          cases chosen with
          | error reason =>
              cases h
              exact hspans
          | ok chosen =>
              simp only at h
              split at h
              · cases h
                exact hspans
              next hclear =>
                  cases h
                  obtain ⟨hmem, hwindow⟩ := hfound chosen rfl
                  refine ⟨⟨(mem_candidateRegions hcand).2 chosen hmem, by simpa using haligned,
                    hwindow, ?_⟩, ?_, ?_⟩
                  · intro address heq
                    rw [heq]
                    rfl
                  · rw [← hspans]
                    exact overlap_none hclear
                  · simp only [addSpan, hspans]

theorem placeAuto_spec {result : Placement} (haddress : entry.address = none)
    (h : placeAuto project a entry = some (a', result)) :
    PlaceSpec project entry a a' result := by
  unfold placeAuto at h
  split at h
  · cases h
    rfl
  · cases h
  next chosen rest hcand =>
      have hspans := regionTopInit_spans a chosen
      rcases hinit : regionTopInit a chosen with ⟨a₁, reason | top⟩
      · rw [hinit] at h hspans
        cases h
        exact hspans
      · rw [hinit] at h hspans
        simp only at hspans
        simp only [Option.bind_eq_bind, Option.bind_eq_some_iff] at h
        obtain ⟨window, hwindow, h⟩ := h
        split at h
        · cases h
          exact hspans
        next hfloor =>
            cases h
            have hdown := alignDown_le (min top window.2)
            obtain ⟨htop, haligned, hclear⟩ :=
              firstFreeDown_spec (carveSizeAligned entry) window.1 (a₁.placedSpans chosen.name)
                (alignDown (min top window.2) PAGE)
            rw [hspans] at htop haligned hclear hfloor
            simp only [addSpan, setTop, hspans]
            refine ⟨⟨(mem_candidateRegions hcand).2 chosen List.mem_cons_self, haligned,
              ⟨window, hwindow, by omega, by omega⟩, ?_⟩, hclear (by omega), rfl⟩
            intro address heq
            rw [haddress] at heq
            cases heq

-- The entry of index `i` is placed at `base` in the region.
structure Placing.At (project : BoardProject) (s : Placing) (i : Nat) (entry : IpcEntry)
    (region : Region) (base : Int) : Prop where
  placement : s.placement i = some (.ok (region, base))
  entry : (sortedEntries project)[i]? = some entry

-- Every placement made so far is legal, its span is on record, and in one region no two meet.
structure PlacingInv (project : BoardProject) (s : Placing) : Prop where
  placed : ∀ i e region base, s.At project i e region base → Placed project e region base ∧
    ∃ peer, (⟨base, base + carveSizeAligned e, peer⟩ : Span) ∈ s.allocator.placedSpans region.name
  apart : ∀ i j e e' region region' base base', i ≠ j → s.At project i e region base →
    s.At project j e' region' base' → region.name = region'.name →
      base + carveSizeAligned e ≤ base' ∨ base' + carveSizeAligned e' ≤ base

theorem placingInv_empty : PlacingInv project emptyPlacing := by
  refine ⟨?_, ?_⟩
  · rintro i e region base ⟨h, -⟩
    cases h
  · rintro i j e e' region region' base base' - ⟨h, -⟩
    cases h

theorem mem_addSpan {region name peer : String} {base size : Int} {s : Span}
    (h : s ∈ a.placedSpans name) : s ∈ (addSpan a region base size peer).placedSpans name := by
  by_cases heq : name = region
  · subst heq
    simp [addSpan, h]
  · simpa [addSpan, heq] using h

-- After the placement of one more entry, a placement is an earlier one or the new one.
theorem at_update {s : Placing} {index i : Nat} {e : IpcEntry} {region : Region} {base : Int}
    {result : Placement} (hentry : (sortedEntries project)[index]? = some entry)
    (h : (⟨a', Function.update s.placement index (some result)⟩ : Placing).At project i e region base) :
    (i = index ∧ e = entry ∧ result = .ok (region, base)) ∨
      (i ≠ index ∧ s.At project i e region base) := by
  obtain ⟨hplacement, he⟩ := h
  by_cases hi : i = index
  · subst hi
    simp only [Function.update_self, Option.some.injEq] at hplacement
    rw [hentry] at he
    cases he
    exact .inl ⟨rfl, rfl, hplacement⟩
  · simp only [Function.update_of_ne hi] at hplacement
    exact .inr ⟨hi, hplacement, he⟩

theorem PlacingInv.place {s : Placing} {index : Nat} {result : Placement}
    (hinv : PlacingInv project s) (hentry : (sortedEntries project)[index]? = some entry)
    (hspec : PlaceSpec project entry s.allocator a' result) :
    PlacingInv project ⟨a', Function.update s.placement index (some result)⟩ := by
  cases result with
  | error reason =>
      have hspans : a'.placedSpans = s.allocator.placedSpans := hspec
      refine ⟨fun i e region base h => ?_, fun i j e e' r r' b b' hne h h' => ?_⟩
      · obtain ⟨-, -, hok⟩ | ⟨-, hold⟩ := at_update hentry h
        · cases hok
        · simp only [hspans]
          exact hinv.placed i e region base hold
      · obtain ⟨-, -, hok⟩ | ⟨-, hold⟩ := at_update hentry h
        · cases hok
        · obtain ⟨-, -, hok⟩ | ⟨-, hold'⟩ := at_update hentry h'
          · cases hok
          · exact hinv.apart i j e e' r r' b b' hne hold hold'
  | ok result =>
      obtain ⟨region, base⟩ := result
      obtain ⟨hplaced, hclear, hspans⟩ := hspec
      -- an earlier placement in the region has its span on record, and the new one avoids it
      have hnew : ∀ j e' r' b', s.At project j e' r' b' → region.name = r'.name →
          base + carveSizeAligned entry ≤ b' ∨ b' + carveSizeAligned e' ≤ base := by
        intro j e' r' b' hold hname
        obtain ⟨-, peer, hmem⟩ := hinv.placed j e' r' b' hold
        exact hclear _ (hname ▸ hmem)
      refine ⟨fun i e r b h => ?_, fun i j e e' r r' b b' hne h h' hname => ?_⟩
      · simp only [hspans]
        obtain ⟨rfl, rfl, hok⟩ | ⟨-, hold⟩ := at_update hentry h
        · cases hok
          exact ⟨hplaced, e.name, by simp [addSpan]⟩
        · obtain ⟨hp, peer, hmem⟩ := hinv.placed i e r b hold
          exact ⟨hp, peer, mem_addSpan hmem⟩
      · obtain ⟨hi, rfl, hok⟩ | ⟨-, hold⟩ := at_update hentry h
        · cases hok
          obtain ⟨hj, -, -⟩ | ⟨-, hold'⟩ := at_update hentry h'
          · exact absurd (hi.trans hj.symm) hne
          · exact hnew j e' r' b' hold' hname
        · obtain ⟨-, rfl, hok⟩ | ⟨-, hold'⟩ := at_update hentry h'
          · cases hok
            exact (hnew i e r b hold hname.symm).symm
          · exact hinv.apart i j e e' r r' b b' hne hold hold' hname

theorem placePass_inv {place : Allocator → IpcEntry → Option (Allocator × Placement)}
    {selected : IpcEntry → Bool}
    (hplace : ∀ a e a' result, selected e = true → place a e = some (a', result) →
      PlaceSpec project e a a' result)
    {l : List (IpcEntry × Nat)} (hl : ∀ x ∈ l, (sortedEntries project)[x.2]? = some x.1)
    {s s' : Placing} (h : placePass place selected l s = some s') (hinv : PlacingInv project s) :
    PlacingInv project s' := by
  induction l generalizing s with
  | nil =>
      cases h
      exact hinv
  | cons x rest ih =>
      have hrest := fun y hy => hl y (List.mem_cons_of_mem _ hy)
      rw [placePass] at h
      split at h
      next hsel =>
          simp only [Option.bind_eq_bind, Option.bind_eq_some_iff, placeOne] at h
          obtain ⟨_, ⟨⟨a', result⟩, hres, heq⟩, h⟩ := h
          cases heq
          exact ih hrest h (hinv.place (hl x List.mem_cons_self) (hplace _ _ _ _ hsel hres))
      · exact ih hrest h hinv

theorem placeable_entry {x : IpcEntry × Nat} (h : x ∈ placeable project) :
    (sortedEntries project)[x.2]? = some x.1 :=
  List.mem_zipIdx_iff_getElem?.mp (List.mem_filter.mp h).1

theorem placements_inv {s : Placing} (h : placements project = some s) : PlacingInv project s := by
  simp only [placements, Option.bind_eq_bind, Option.bind_eq_some_iff] at h
  obtain ⟨pinned, hpinned, hauto⟩ := h
  have hfirst := placePass_inv (fun _ _ _ _ _ hp => placePinned_spec hp)
    (fun _ => placeable_entry) hpinned placingInv_empty
  exact placePass_inv (fun _ _ _ _ hsel hp => placeAuto_spec (by simpa using hsel) hp)
    (fun _ => placeable_entry) hauto hfirst

-- Where an entry that is returned as ok comes from.
def Emitted (s : Placing) (indexed : IpcEntry × Nat) (out : ResolvedCarveOut) : Prop :=
  out.status = .ok → ∃ region base, s.placement indexed.2 = some (.ok (region, base)) ∧
    out.base = base ∧ out.size = carveSizeAligned indexed.1 ∧ out.region = region.name

theorem emitOne_emitted {s : Placing} {st : Emitting} {index : Nat} :
    Emitted s (entry, index) (emitOne project s st entry index).2 := by
  intro hok
  unfold emitOne at hok ⊢
  split at hok
  · cases hok
  · split at hok
    next region base hplaced =>
        simp only at hok
        split at hok
        · cases hok
        · split at hok
          · cases hok
          next hnone _ mbox hmbox =>
              refine ⟨region, base, hplaced, ?_⟩
              simp [hnone, hmbox]
    · cases hok
    · cases hok

theorem emit_emitted (s : Placing) (l : List (IpcEntry × Nat)) (st : Emitting) :
    List.Forall₂ (Emitted s) l (emit project s l st) := by
  induction l generalizing st with
  | nil => exact .nil
  | cons x rest ih => exact .cons emitOne_emitted (ih _)

theorem resolveCarveOuts_eq {s : Placing} (hne : project.ipc ≠ [])
    (hs : placements project = some s) :
    resolveCarveOuts project =
      some (emit project s (sortedEntries project).zipIdx ⟨claimedUpFront project, []⟩) := by
  simp only [resolveCarveOuts, if_neg hne, hs, Option.bind_eq_bind, Option.bind_some]
  rfl

end Placing

-- With distinct names for the regions, nothing raises.
section Totality

variable {project : BoardProject} {entry : IpcEntry} {a : Allocator}

-- A region with a top has a base and a size.
def TopsKnown (project : BoardProject) (a : Allocator) : Prop :=
  ∀ r ∈ project.memoryMap, (a.regionTop r.name).isSome → (regionExtent r).isSome

theorem topsKnown_set {region : Region} {top : Int} (hnames : (project.memoryMap.map (·.name)).Nodup)
    (hmem : region ∈ project.memoryMap) (hext : (regionExtent region).isSome)
    (htops : TopsKnown project a) : TopsKnown project (setTop a region.name top) := by
  intro r hr hsome
  by_cases hname : r.name = region.name
  · obtain rfl := List.inj_on_of_nodup_map hnames hr hmem hname
    exact hext
  · simp only [setTop, Function.update_of_ne hname] at hsome
    exact htops r hr hsome

theorem regionTopInit_known {region : Region} (hnames : (project.memoryMap.map (·.name)).Nodup)
    (hmem : region ∈ project.memoryMap) (htops : TopsKnown project a) :
    TopsKnown project (regionTopInit a region).1 ∧
      ∀ top, (regionTopInit a region).2 = .ok top → (regionExtent region).isSome := by
  unfold regionTopInit
  split
  next top htop => exact ⟨htops, fun _ _ => htops region hmem (by simp [htop])⟩
  · split
    · exact ⟨htops, nofun⟩
    · exact ⟨htops, nofun⟩
    next base size hbase hsize =>
        have hext : (regionExtent region).isSome := by simp [regionExtent, hbase, hsize]
        exact ⟨topsKnown_set hnames hmem hext htops, fun _ _ => hext⟩

theorem regionTopInit_ok {region : Region} (h : (regionExtent region).isSome) :
    ∃ top, (regionTopInit a region).2 = .ok top := by
  unfold regionExtent at h
  unfold regionTopInit
  split at h
  next base size hbase hsize =>
      split
      · exact ⟨_, rfl⟩
      · simp [hbase, hsize]
  · cases h

theorem endpointWindow_isSome {region : Region} (h : (regionExtent region).isSome)
    (endpoints : List String) : ∃ window, endpointWindow region endpoints = some window := by
  unfold regionExtent at h
  split at h
  next base size hbase hsize => simp [endpointWindow, wholeExtent, hbase]
  · cases h

theorem choosePinned_known (entry : IpcEntry) (base size : Int) {candidates : List Region}
    (windows : List (String × Extent)) (tbd : Option Reason)
    (hnames : (project.memoryMap.map (·.name)).Nodup)
    (hmem : ∀ r ∈ candidates, r ∈ project.memoryMap) (htops : TopsKnown project a) :
    ∃ a' result, choosePinned entry base size candidates a windows tbd = some (a', result) ∧
      TopsKnown project a' ∧ ∀ r, result = .ok r → (regionExtent r).isSome := by
  induction candidates generalizing a windows tbd with
  | nil =>
      refine ⟨_, _, rfl, htops, ?_⟩
      intro r h
      cases h
  | cons r rest ih =>
      have hrest := fun r' hr' => hmem r' (List.mem_cons_of_mem _ hr')
      obtain ⟨hknown, hext⟩ := regionTopInit_known hnames (hmem r List.mem_cons_self) htops
      rw [choosePinned]
      rcases hinit : regionTopInit a r with ⟨a₁, reason | top⟩
      · rw [hinit] at hknown
        exact ih windows _ hrest hknown
      · rw [hinit] at hknown hext
        have hsome := hext top rfl
        obtain ⟨window, hwindow⟩ := endpointWindow_isSome hsome entry.endpoints
        simp only [hwindow, Option.bind_eq_bind, Option.bind_some]
        split
        · refine ⟨_, _, rfl, hknown, ?_⟩
          rintro _ ⟨⟩
          exact hsome
        · exact ih _ tbd hrest hknown

-- A placement returns, and a region it places in has an extent.
def PlaceKnown (project : BoardProject) (placed : Option (Allocator × Placement)) : Prop :=
  ∃ a' result, placed = some (a', result) ∧ TopsKnown project a' ∧
    ∀ region base, result = .ok (region, base) → (regionExtent region).isSome

theorem placeKnown_error {reason : Reason} (htops : TopsKnown project a) :
    PlaceKnown project (some (a, .error reason)) := by
  refine ⟨a, _, rfl, htops, ?_⟩
  intro region base h
  cases h

theorem placeKnown_ok {region : Region} {base : Int} (htops : TopsKnown project a)
    (hext : (regionExtent region).isSome) : PlaceKnown project (some (a, .ok (region, base))) := by
  refine ⟨a, _, rfl, htops, ?_⟩
  rintro _ _ ⟨⟩
  exact hext

theorem placePinned_known (entry : IpcEntry) (hnames : (project.memoryMap.map (·.name)).Nodup)
    (htops : TopsKnown project a) : PlaceKnown project (placePinned project a entry) := by
  unfold placePinned
  split
  · exact placeKnown_error htops
  next candidates hcand =>
      simp only
      split
      · exact placeKnown_error htops
      · obtain ⟨a', result, hchoose, hknown, hext⟩ :=
          choosePinned_known entry (entry.address.getD 0) (carveSizeAligned entry) [] none hnames
            (fun r hr => ((mem_candidateRegions hcand).2 r hr).mem) htops
        simp only [hchoose, Option.bind_eq_bind, Option.bind_some]
        cases result with
        | error reason => exact placeKnown_error hknown
        | ok chosen =>
            simp only
            split
            · exact placeKnown_error hknown
            · exact placeKnown_ok hknown (hext chosen rfl)

theorem placeAuto_known (entry : IpcEntry) (hnames : (project.memoryMap.map (·.name)).Nodup)
    (htops : TopsKnown project a) : PlaceKnown project (placeAuto project a entry) := by
  unfold placeAuto
  split
  · exact placeKnown_error htops
  next hcand => exact absurd rfl (mem_candidateRegions hcand).1
  next chosen rest hcand =>
      have hmem := ((mem_candidateRegions hcand).2 chosen List.mem_cons_self).mem
      obtain ⟨hknown, hext⟩ := regionTopInit_known hnames hmem htops
      rcases hinit : regionTopInit a chosen with ⟨a₁, reason | top⟩
      · rw [hinit] at hknown
        exact placeKnown_error hknown
      · rw [hinit] at hknown hext
        have hsome := hext top rfl
        obtain ⟨window, hwindow⟩ := endpointWindow_isSome hsome entry.endpoints
        simp only [hwindow, Option.bind_eq_bind, Option.bind_some]
        split
        · exact placeKnown_error hknown
        · exact placeKnown_ok (topsKnown_set hnames hmem hsome hknown) hsome

structure PlacingKnown (project : BoardProject) (s : Placing) : Prop where
  tops : TopsKnown project s.allocator
  extents : ∀ i region base, s.placement i = some (.ok (region, base)) → (regionExtent region).isSome

theorem placePass_known {place : Allocator → IpcEntry → Option (Allocator × Placement)}
    (selected : IpcEntry → Bool)
    (hplace : ∀ a e, TopsKnown project a → PlaceKnown project (place a e))
    (l : List (IpcEntry × Nat)) {s : Placing} (hs : PlacingKnown project s) :
    ∃ s', placePass place selected l s = some s' ∧ PlacingKnown project s' := by
  induction l generalizing s with
  | nil => exact ⟨s, rfl, hs⟩
  | cons x rest ih =>
      rw [placePass]
      split
      · obtain ⟨a', result, hres, hknown, hext⟩ := hplace s.allocator x.1 hs.tops
        simp only [placeOne, hres, Option.bind_eq_bind, Option.bind_some, Option.pure_def]
        refine ih ⟨hknown, fun i region base h => ?_⟩
        by_cases hi : i = x.2
        · simp only [hi, Function.update_self, Option.some.injEq] at h
          exact hext region base h
        · simp only [Function.update_of_ne hi] at h
          exact hs.extents i region base h
      · exact ih hs

theorem placements_isSome (hnames : (project.memoryMap.map (·.name)).Nodup) :
    ∃ s, placements project = some s ∧ PlacingKnown project s := by
  have hempty : PlacingKnown project emptyPlacing := by
    refine ⟨?_, ?_⟩
    · intro r _ h
      cases h
    · intro i region base h
      cases h
  obtain ⟨pinned, hpinned, hknown⟩ := placePass_known (·.address.isSome)
    (fun _ entry htops => placePinned_known entry hnames htops) (placeable project) hempty
  obtain ⟨s, hs, hknown'⟩ := placePass_known (·.address.isNone)
    (fun _ entry htops => placeAuto_known entry hnames htops) (placeable project) hknown
  refine ⟨s, ?_, hknown'⟩
  simp only [placements, hpinned, Option.bind_eq_bind, Option.bind_some, hs]

end Totality

end AlpSdk.Orchestrate
