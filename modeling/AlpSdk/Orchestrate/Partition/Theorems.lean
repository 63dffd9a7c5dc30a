import AlpSdk.Orchestrate.Partition

namespace AlpSdk.Orchestrate.Partition

theorem alignUp_spec (value : Int) :
    alignUp value % PAGE = 0 ∧ value ≤ alignUp value ∧ alignUp value < value + PAGE := by
  simp only [alignUp, PAGE]
  omega

section FirstFree

variable (size capacityBytes : Int) (spans : List Span)

-- The flag of a pass is never lowered again.
theorem pass_flag (base : Int) : (spans.foldl (stepUp size) (base, true)).2 = true := by
  induction spans generalizing base with
  | nil => rfl
  | cons s rest ih =>
      simp only [List.foldl_cons, stepUp]
      split <;> exact ih _

-- A pass never lowers the base; one that leaves it where it was hit no span.
theorem pass_cases (state : Int × Bool) :
    let out := spans.foldl (stepUp size) state
    state.1 ≤ out.1 ∧ (state.1 % PAGE = 0 → out.1 % PAGE = 0) ∧
      (out.2 = true → state.2 = true ∨ state.1 < out.1) ∧
      (out.2 = false → out.1 = state.1 ∧
        ∀ s ∈ spans, ¬(state.1 < s.hi ∧ s.lo < state.1 + size)) := by
  induction spans generalizing state with
  | nil => simp
  | cons s rest ih =>
      have hout := ih (stepUp size state s)
      obtain ⟨haligned, hup, -⟩ := alignUp_spec s.hi
      simp only [List.foldl_cons]
      by_cases hhit : state.1 < s.hi ∧ s.lo < state.1 + size
      · simp only [stepUp, if_pos hhit] at hout ⊢
        obtain ⟨hle, halign, -, -⟩ := hout
        refine ⟨by omega, fun _ => halign haligned, fun _ => .inr (by omega), ?_⟩
        intro hfalse
        rw [pass_flag] at hfalse
        cases hfalse
      · simp only [stepUp, if_neg hhit] at hout ⊢
        obtain ⟨hle, halign, hmoved, hstill⟩ := hout
        refine ⟨hle, halign, hmoved, fun hfalse => ?_⟩
        obtain ⟨hsame, hnone⟩ := hstill hfalse
        exact ⟨hsame, List.forall_mem_cons.mpr ⟨hhit, hnone⟩⟩

theorem ascend_spec (fuel : Nat) (base : Int) (hfuel : capacityBytes - base < fuel)
    (haligned : base % PAGE = 0) :
    let out := ascend size capacityBytes spans fuel base
    base ≤ out ∧ out % PAGE = 0 ∧
      (out < capacityBytes → ∀ s ∈ spans, out + size ≤ s.lo ∨ s.hi ≤ out) := by
  induction fuel generalizing base with
  | zero => exact ⟨le_refl _, haligned, fun h => absurd h (by simp only [ascend]; omega)⟩
  | succ fuel ih =>
      obtain ⟨hle, halign, hmoved, hstill⟩ := pass_cases size spans (base, false)
      simp only at hle halign
      simp only [ascend]
      by_cases hend : capacityBytes ≤ (spans.foldl (stepUp size) (base, false)).1
      · rw [if_pos hend]
        exact ⟨hle, halign haligned, fun h => absurd hend (by omega)⟩
      rw [if_neg hend]
      cases hflag : (spans.foldl (stepUp size) (base, false)).2 with
      | true =>
          have hlt := (hmoved hflag).resolve_left (by simp)
          simp only at hlt
          obtain ⟨hle', halign', hclear⟩ := ih _ (by omega) (halign haligned)
          simp only [if_true]
          exact ⟨hle.trans hle', halign', hclear⟩
      | false =>
          obtain ⟨hsame, hnone⟩ := hstill hflag
          simp only at hsame hnone
          simp only [Bool.false_eq_true, if_false, hsame]
          refine ⟨le_refl _, haligned, fun _ s hs => ?_⟩
          have hs' := hnone s hs
          omega

-- `_first_free` ends, and where it ends inside the device it hits no span.
theorem firstFree_spec (base : Int) (haligned : base % PAGE = 0) :
    let out := firstFree base size spans capacityBytes
    base ≤ out ∧ out % PAGE = 0 ∧
      (out < capacityBytes → ∀ s ∈ spans, out + size ≤ s.lo ∨ s.hi ≤ out) := by
  obtain ⟨hle, halign, hclear⟩ := ascend_spec size capacityBytes
    (spans.insertionSort fun a b => a.before b) ((capacityBytes - base).toNat + 1) base
    (by omega) haligned
  refine ⟨hle, halign, fun hin s hs => ?_⟩
  exact hclear hin s ((List.perm_insertionSort _ spans).mem_iff.mpr hs)

end FirstFree

-- An entry as board.schema.json admits it.
structure StorageEntry.Valid (entry : StorageEntry) : Prop where
  size : 4 ≤ entry.sizeKib
  offset : ∀ offsetKib, entry.offsetKib = some offsetKib → 0 ≤ offsetKib

section Placing

variable {som : Som} {device : Device} {entry : StorageEntry} {a : Allocator} {base : Int}

-- The size is the requested one, rounded up to the page.
theorem sizeAligned_spec (entry : StorageEntry) :
    sizeAligned entry % PAGE = 0 ∧ entry.sizeKib * 1024 ≤ sizeAligned entry := by
  obtain ⟨haligned, hle, -⟩ := alignUp_spec (entry.sizeKib * 1024)
  exact ⟨haligned, hle⟩

theorem overlap_none {allocated : List Span} {top : Int} :
    overlap allocated base top = none ↔ ∀ s ∈ allocated, top ≤ s.lo ∨ s.hi ≤ base := by
  simp [overlap, or_iff_not_imp_left]

-- Room for an entry at an offset of the device.
structure Fits (som : Som) (device : Device) (entry : StorageEntry) (base : Int) : Prop where
  aligned : base % PAGE = 0
  inside : 0 ≤ base ∧ base + sizeAligned entry ≤ device.descriptor.sizeBytes
  reserved : ∀ r ∈ device.reserved, base + sizeAligned entry ≤ r.lo ∨ r.hi ≤ base
  verified : verifiedDtLabel som device.descriptor.name = true

structure Allocator.Aligned (a : Allocator) : Prop where
  aligned : a.highWater % PAGE = 0
  nonneg : 0 ≤ a.highWater

theorem choose_spec (hvalid : entry.Valid) (ha : a.Aligned)
    (h : choose device a entry = .ok base) : base % PAGE = 0 ∧ 0 ≤ base := by
  unfold choose at h
  split at h
  next offsetKib hoffset =>
      have hnonneg := hvalid.offset offsetKib hoffset
      split at h
      · cases h
      next haligned =>
          cases h
          exact ⟨not_not.mp haligned, by omega⟩
  · cases h
    obtain ⟨hle, haligned, -⟩ := firstFree_spec (sizeAligned entry) device.descriptor.sizeBytes
      a.allocated a.highWater ha.aligned
    exact ⟨haligned, ha.nonneg.trans hle⟩

theorem check_spec {base' : Int} (h : check som device a entry base = .ok base') :
    base' = base ∧ base + sizeAligned entry ≤ device.descriptor.sizeBytes ∧
      (∀ s ∈ a.allocated, base + sizeAligned entry ≤ s.lo ∨ s.hi ≤ base) ∧
      verifiedDtLabel som device.descriptor.name = true := by
  unfold check at h
  simp only at h
  split at h
  · cases h
  next htop =>
      split at h
      · cases h
      next hnone =>
          split at h
          · cases h
          next hlabel =>
              cases h
              exact ⟨rfl, by omega, overlap_none.mp hnone, by simpa using hlabel⟩

-- What `_place` does: a span more at a free offset, or nothing.
theorem place_cases (som : Som) (device : Device) (a : Allocator) (entry : StorageEntry) :
    (∃ base, choose device a entry = .ok base ∧ check som device a entry base = .ok base ∧
      place som device a entry =
        ({ a with allocated := a.allocated ++ [⟨base, base + sizeAligned entry, entry.name⟩] },
          .ok base)) ∨
    ∃ reason, place som device a entry = (a, .error reason) := by
  unfold place
  cases hchoose : choose device a entry with
  | error reason => exact .inr ⟨reason, rfl⟩
  | ok base =>
      simp only [bind, Except.bind]
      cases hcheck : check som device a entry base with
      | error reason => exact .inr ⟨reason, rfl⟩
      | ok base' =>
          obtain ⟨rfl, -⟩ := check_spec hcheck
          exact .inl ⟨base', rfl, hcheck, rfl⟩

-- The layout so far: every partition fits, has its span, and shares no byte with another.
structure Layout (som : Som) (device : Device) (entries : List StorageEntry) (s : Placing) :
    Prop where
  highWater : s.allocator.Aligned
  reserved : ∀ r ∈ device.reserved, r ∈ s.allocator.allocated
  fits : ∀ i base, s.placement i = some (.ok base) → ∃ entry, entries[i]? = some entry ∧
    Fits som device entry base ∧
    (⟨base, base + sizeAligned entry, entry.name⟩ : Span) ∈ s.allocator.allocated
  apart : ∀ i j base base' entry entry', i ≠ j → s.placement i = some (.ok base) →
    s.placement j = some (.ok base') → entries[i]? = some entry → entries[j]? = some entry' →
    base + sizeAligned entry ≤ base' ∨ base' + sizeAligned entry' ≤ base

-- What either form of `_place` does to the allocator.
def Puts (som : Som) (device : Device) (entry : StorageEntry) (a a' : Allocator) :
    Placement → Prop
  | .ok base =>
      Fits som device entry base ∧
        (∀ s ∈ a.allocated, base + sizeAligned entry ≤ s.lo ∨ s.hi ≤ base) ∧
        a'.allocated = a.allocated ++ [⟨base, base + sizeAligned entry, entry.name⟩] ∧ a'.Aligned
  | .error _ => a' = a

variable (som) in
theorem place_puts (hvalid : entry.Valid) (ha : a.Aligned)
    (hreserved : ∀ r ∈ device.reserved, r ∈ a.allocated) :
    Puts som device entry a (place som device a entry).1 (place som device a entry).2 := by
  rcases place_cases som device a entry with ⟨base, hchoose, hcheck, hplace⟩ | ⟨reason, hplace⟩
  · obtain ⟨haligned, hnonneg⟩ := choose_spec hvalid ha hchoose
    obtain ⟨-, htop, hclear, hverified⟩ := check_spec hcheck
    rw [hplace]
    exact ⟨⟨haligned, ⟨hnonneg, htop⟩, fun r hr => hclear r (hreserved r hr), hverified⟩, hclear,
      rfl, ⟨ha.aligned, ha.nonneg⟩⟩
  · rw [hplace]
    rfl

theorem placeAuto_puts (hvalid : entry.Valid) (ha : a.Aligned)
    (hreserved : ∀ r ∈ device.reserved, r ∈ a.allocated) :
    Puts som device entry a (placeAuto som device a entry).1 (placeAuto som device a entry).2 := by
  have hputs := place_puts som hvalid ha hreserved
  obtain ⟨hsize, hle⟩ := sizeAligned_spec entry
  have hkib := hvalid.size
  unfold placeAuto
  rcases hplace : place som device a entry with ⟨a', reason | base⟩
  · rw [hplace] at hputs
    exact hputs
  · rw [hplace] at hputs
    obtain ⟨hfits, hclear, hspans, -⟩ := hputs
    have haligned := hfits.aligned
    have hnonneg := hfits.inside.1
    exact ⟨hfits, hclear, hspans, ⟨by simp only [PAGE] at *; omega, by simp only; omega⟩⟩

theorem layout_step {entries : List StorageEntry} {s : Placing} {a' : Allocator}
    {result : Placement} {index : Nat} (hs : Layout som device entries s)
    (hentry : entries[index]? = some entry)
    (hputs : Puts som device entry s.allocator a' result) :
    Layout som device entries ⟨a', Function.update s.placement index (some result)⟩ := by
  cases result with
  | error reason =>
      obtain rfl : a' = s.allocator := hputs
      refine ⟨hs.highWater, hs.reserved, ?_, ?_⟩
      · intro i base hi
        by_cases h : i = index
        · simp [h] at hi
        · exact hs.fits i base (by simpa [h] using hi)
      · intro i j base base' e e' hne hi hj
        by_cases h : i = index
        · simp [h] at hi
        · by_cases h' : j = index
          · simp [h'] at hj
          · exact hs.apart i j base base' e e' hne (by simpa [h] using hi) (by simpa [h'] using hj)
  | ok base =>
      obtain ⟨hfits, hclear, hspans, haligned⟩ := hputs
      -- the new partition is clear of the span of every partition before it
      have hnew : ∀ j base' e', s.placement j = some (.ok base') → entries[j]? = some e' →
          base + sizeAligned entry ≤ base' ∨ base' + sizeAligned e' ≤ base := by
        intro j base' e' hj he'
        obtain ⟨e'', he'', -, hspan⟩ := hs.fits j base' hj
        obtain rfl : e' = e'' := Option.some.inj (he'.symm.trans he'')
        exact hclear _ hspan
      refine ⟨haligned, fun r hr => ?_, ?_, ?_⟩
      · simp only [hspans]
        exact List.mem_append_left _ (hs.reserved r hr)
      · intro i base' hi
        by_cases h : i = index
        · obtain rfl : base = base' := by simpa [h] using hi
          exact ⟨entry, by rw [h, hentry], hfits, by simp [hspans]⟩
        · obtain ⟨e, he, hfits', hspan⟩ := hs.fits i base' (by simpa [h] using hi)
          exact ⟨e, he, hfits', by simp [hspans, hspan]⟩
      · intro i j b b' e e' hne hi hj he he'
        by_cases h : i = index
        · have hj' : j ≠ index := fun h' => hne (h.trans h'.symm)
          obtain rfl : base = b := by simpa [h] using hi
          obtain rfl : entry = e := by simpa [h, hentry] using he
          exact hnew j b' e' (by simpa [hj'] using hj) he'
        · by_cases h' : j = index
          · obtain rfl : base = b' := by simpa [h'] using hj
            obtain rfl : entry = e' := by simpa [h', hentry] using he'
            exact (hnew i b e (by simpa [h] using hi) he).symm
          · exact hs.apart i j b b' e e' hne (by simpa [h] using hi) (by simpa [h'] using hj) he he'

theorem layout_pass {entries : List StorageEntry}
    {put : Allocator → StorageEntry → Allocator × Placement} {selected : StorageEntry → Bool}
    (hput : ∀ entry ∈ entries, ∀ a : Allocator, a.Aligned →
      (∀ r ∈ device.reserved, r ∈ a.allocated) →
        Puts som device entry a (put a entry).1 (put a entry).2)
    {l : List (StorageEntry × Nat)} (hl : ∀ x ∈ l, entries[x.2]? = some x.1) {s : Placing}
    (hs : Layout som device entries s) :
    Layout som device entries (placePass put selected l s) := by
  induction l generalizing s with
  | nil => exact hs
  | cons x rest ih =>
      obtain ⟨hx, hrest⟩ := List.forall_mem_cons.mp hl
      rw [placePass]
      by_cases hsel : selected x.1 = true
      · rw [if_pos hsel]
        apply ih hrest
        exact layout_step hs hx (hput x.1 (List.mem_of_getElem? hx) _ hs.highWater hs.reserved)
      · rw [if_neg hsel]
        exact ih hrest hs

variable (som device) in
theorem placements_layout {entries : List StorageEntry} (hvalid : ∀ entry ∈ entries, entry.Valid) :
    Layout som device entries (placements som device entries) := by
  have hl : ∀ x ∈ entries.zipIdx, entries[x.2]? = some x.1 := fun x hx =>
    List.mem_zipIdx_iff_getElem?.mp hx
  unfold placements
  apply layout_pass (fun entry hentry a ha hr => placeAuto_puts (hvalid entry hentry) ha hr) hl
  apply layout_pass (fun entry hentry a ha hr => place_puts som (hvalid entry hentry) ha hr) hl
  refine ⟨⟨rfl, le_refl _⟩, fun r hr => hr, ?_, ?_⟩
  · intro i base h
    cases h
  · intro i j base base' e e' _ h
    cases h

end Placing

end AlpSdk.Orchestrate.Partition
