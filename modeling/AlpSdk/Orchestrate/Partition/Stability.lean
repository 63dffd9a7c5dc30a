import AlpSdk.Orchestrate.Partition

namespace AlpSdk.Orchestrate.Partition

-- What an entry gets.
def ResolvedPartition.outcome (out : ResolvedPartition) : Status × Int × Int :=
  (out.status, out.baseKib, out.sizeKib)

def outcomes (som : Som) (storage : List StorageEntry) (entry : StorageEntry) :
    List (Status × Int × Int) :=
  ((resolveStoragePartitions som storage).filter (·.name = entry.name)).map (·.outcome)

-- The entry is resolved once in each list, to the same status, offset and size.
def SameOutcome (som : Som) (storage storage' : List StorageEntry) (entry : StorageEntry) : Prop :=
  ∃ outcome, outcomes som storage entry = [outcome] ∧ outcomes som storage' entry = [outcome]

-- All but the auto-placed entries whose names sort after that of `entry`.
def keeps (entry other : StorageEntry) : Bool := isPinned other ∨ other.name ≤ entry.name

section Passes

variable (put : Allocator → StorageEntry → Allocator × Placement)

-- The allocator after a row of placements.
def allocates (a : Allocator) (entries : List StorageEntry) : Allocator :=
  entries.foldl (fun a entry => (put a entry).1) a

variable {put} {selected : StorageEntry → Bool} {l l' : List (StorageEntry × Nat)} {s : Placing}

theorem placePass_append :
    placePass put selected (l ++ l') s = placePass put selected l' (placePass put selected l s) := by
  induction l generalizing s with
  | nil => rfl
  | cons x rest ih =>
      simp only [List.cons_append, placePass]
      split
      · exact ih
      · exact ih

theorem placePass_allocator :
    (placePass put selected l s).allocator =
      allocates put s.allocator ((l.map Prod.fst).filter selected) := by
  induction l generalizing s with
  | nil => rfl
  | cons x rest ih =>
      by_cases h : selected x.1 = true
      · simp only [placePass, if_pos h, ih, List.map_cons, List.filter_cons_of_pos h]
        rfl
      · simp only [placePass, if_neg h, ih, List.map_cons, List.filter_cons_of_neg h]

theorem placePass_untouched {i : Nat} (h : ∀ x ∈ l, x.2 = i → selected x.1 = false) :
    (placePass put selected l s).placement i = s.placement i := by
  induction l generalizing s with
  | nil => rfl
  | cons x rest ih =>
      obtain ⟨hx, hrest⟩ := List.forall_mem_cons.mp h
      by_cases hsel : selected x.1 = true
      · have hne : i ≠ x.2 := by
          intro heq
          rw [hx heq.symm] at hsel
          cases hsel
        simp only [placePass, if_pos hsel, ih hrest, ne_eq, hne, not_false_eq_true,
          Function.update_of_ne]
      · simp only [placePass, if_neg hsel, ih hrest]

-- A selected entry is placed after the selected entries before it.
theorem placePass_at {before after : List (StorageEntry × Nat)} {entry : StorageEntry} {i : Nat}
    (hsel : selected entry = true) (hafter : ∀ x ∈ after, x.2 ≠ i) :
    (placePass put selected (before ++ (entry, i) :: after) s).placement i =
      some (put (allocates put s.allocator ((before.map Prod.fst).filter selected)) entry).2 := by
  rw [placePass_append, placePass, if_pos hsel,
    placePass_untouched fun x hx heq => absurd heq (hafter x hx), placePass_allocator]
  exact Function.update_self ..

end Passes

section Settled

variable (som : Som) (device : Device) (entries : List StorageEntry) (entry : StorageEntry)

def earlier : List StorageEntry := entries.filter (·.name < entry.name)

-- The allocator when the pins of a list have been placed.
def afterPins (pins : List StorageEntry) : Allocator :=
  allocates (place som device) ⟨device.reserved, 0⟩ pins

-- A pin depends on the earlier pins, an auto-placed entry on all pins and the earlier autos.
def settled : Placement :=
  if isPinned entry then
    (place som device (afterPins som device ((earlier entries entry).filter isPinned)) entry).2
  else
    (placeAuto som device
      (allocates (placeAuto som device) (afterPins som device (entries.filter isPinned))
        ((earlier entries entry).filter isAuto)) entry).2

variable {som device entries entry}

theorem isAuto_eq : isAuto entry = !isPinned entry := by
  cases h : entry.offsetKib <;> simp [isAuto, isPinned, h]

-- In a list sorted by distinct names the entries before one are those with smaller names.
theorem split_earlier (hsorted : entries.Pairwise fun a b => a.name < b.name)
    (hentry : entry ∈ entries) : ∃ after, entries = earlier entries entry ++ entry :: after := by
  obtain ⟨before, after, rfl⟩ := List.append_of_mem hentry
  refine ⟨after, ?_⟩
  obtain ⟨-, hcons, hbefore⟩ := List.pairwise_append.mp hsorted
  obtain ⟨hafter, -⟩ := List.pairwise_cons.mp hcons
  have hleft : before.filter (·.name < entry.name) = before := by
    rw [List.filter_eq_self]
    intro e he
    exact decide_eq_true (hbefore e he entry List.mem_cons_self)
  have hright : (entry :: after).filter (·.name < entry.name) = [] := by
    rw [List.filter_eq_nil_iff]
    intro e he
    rw [decide_eq_true_eq, not_lt]
    rcases List.mem_cons.mp he with rfl | he
    · exact le_refl _
    · exact le_of_lt (hafter e he)
  rw [earlier, List.filter_append, hleft, hright, List.append_nil]

variable (som device) in
theorem placements_settled (hsorted : entries.Pairwise fun a b => a.name < b.name)
    (hentry : entry ∈ entries) :
    ∃ i, entries[i]? = some entry ∧
      (placements som device entries).placement i = some (settled som device entries entry) := by
  obtain ⟨after, hsplit⟩ := split_earlier hsorted hentry
  generalize hbefore : earlier entries entry = before at hsplit
  subst hsplit
  have hzip : (before ++ entry :: after).zipIdx =
      before.zipIdx ++ (entry, before.length) :: after.zipIdx (before.length + 1) := by
    rw [List.zipIdx_append, List.zipIdx_cons, Nat.zero_add]
  have hafter : ∀ x ∈ after.zipIdx (before.length + 1), x.2 ≠ before.length := by
    rintro ⟨e, j⟩ hx
    obtain ⟨hle, -⟩ := List.mem_zipIdx hx
    simp only
    omega
  refine ⟨before.length, by simp, ?_⟩
  by_cases hpin : isPinned entry = true
  · -- the second pass leaves the index of a pin alone
    have hauto : ∀ x ∈ (before ++ entry :: after).zipIdx, x.2 = before.length →
        isAuto x.1 = false := by
      rintro ⟨e, j⟩ hx rfl
      have hget := List.mem_zipIdx_iff_getElem?.mp hx
      obtain rfl : entry = e := by simpa using hget
      simp [isAuto_eq, hpin]
    rw [placements, placePass_untouched hauto, hzip, placePass_at hpin hafter, settled,
      if_pos hpin, hbefore, List.zipIdx_map_fst]
    rfl
  · have hauto : isAuto entry = true := by simp [isAuto_eq, hpin]
    rw [placements, hzip, placePass_at hauto hafter, ← hzip, placePass_allocator, settled,
      if_neg hpin, hbefore, List.zipIdx_map_fst, List.zipIdx_map_fst]
    rfl

end Settled

section Sorted

variable {storage storage' : List StorageEntry} {device : String}

theorem deviceEntries_perm (storage : List StorageEntry) (device : String) :
    (deviceEntries storage device).Perm (storage.filter (·.device? = some device)) :=
  List.perm_insertionSort _ _

theorem deviceEntries_sorted (hnames : (storage.map (·.name)).Nodup) (device : String) :
    (deviceEntries storage device).Pairwise fun a b => a.name < b.name := by
  have hle : (deviceEntries storage device).Pairwise fun a b => a.name ≤ b.name :=
    List.pairwise_insertionSort (fun a b : StorageEntry => a.name ≤ b.name) _
  have hne : ((deviceEntries storage device).map (·.name)).Nodup := by
    rw [((deviceEntries_perm storage device).map _).nodup_iff]
    exact hnames.sublist (List.filter_sublist.map _)
  have hne' := List.pairwise_map.mp hne
  exact hle.and hne' |>.imp fun h => lt_of_le_of_ne h.1 h.2

-- Two lists that keep the same entries have them in the same order.
theorem deviceEntries_filter {kept : StorageEntry → Bool}
    (hnames : (storage.map (·.name)).Nodup) (hnames' : (storage'.map (·.name)).Nodup)
    (hkept : (storage.filter kept).Perm (storage'.filter kept)) (device : String) :
    (deviceEntries storage device).filter kept = (deviceEntries storage' device).filter kept := by
  have hperm : ((deviceEntries storage device).filter kept).Perm
      ((deviceEntries storage' device).filter kept) := by
    refine ((deviceEntries_perm storage device).filter kept).trans ?_
    refine List.Perm.trans ?_ ((deviceEntries_perm storage' device).filter kept).symm
    rw [List.filter_comm, List.filter_comm (l := storage')]
    exact hkept.filter _
  refine hperm.eq_of_pairwise ?_ ((deviceEntries_sorted hnames device).filter _)
    ((deviceEntries_sorted hnames' device).filter _)
  intro a b _ _ hab hba
  exact absurd hab (lt_asymm hba)

-- The same for the entries that a narrower test keeps.
theorem filter_narrow {α : Type} {l l' : List α} {p q : α → Bool}
    (hpq : ∀ x, p x = true → q x = true) (h : l.filter q = l'.filter q) :
    l.filter p = l'.filter p := by
  have hnarrow : ∀ m : List α, (m.filter q).filter p = m.filter p := by
    intro m
    rw [List.filter_filter]
    apply List.filter_congr
    intro x _
    cases hp : p x with
    | false => rfl
    | true => simp [hpq x hp]
  rw [← hnarrow l, ← hnarrow l', h]

end Sorted

section Settling

variable {som : Som} {device : Device} {entries entries' : List StorageEntry} {entry : StorageEntry}

theorem filter_earlier (p : StorageEntry → Bool) : (earlier entries entry).filter p =
    entries.filter fun e => p e && decide (e.name < entry.name) :=
  List.filter_filter

theorem settled_pinned (hpin : isPinned entry = true)
    (h : entries.filter isPinned = entries'.filter isPinned) :
    settled som device entries entry = settled som device entries' entry := by
  rw [settled, settled, if_pos hpin, if_pos hpin, filter_earlier, filter_earlier,
    filter_narrow (fun e he => (Bool.and_eq_true_iff.mp he).1) h]

theorem settled_auto (h : entries.filter (keeps entry) = entries'.filter (keeps entry)) :
    settled som device entries entry = settled som device entries' entry := by
  have hpins : entries.filter isPinned = entries'.filter isPinned :=
    filter_narrow (fun e he => by simp [keeps, he]) h
  have hearlier : ∀ p, (earlier entries entry).filter p = (earlier entries' entry).filter p := by
    intro p
    rw [filter_earlier, filter_earlier]
    refine filter_narrow (fun e he => ?_) h
    have hlt := of_decide_eq_true (Bool.and_eq_true_iff.mp he).2
    simp only [keeps, decide_eq_true_eq]
    exact .inr hlt.le
  rw [settled, settled, hearlier, hearlier, hpins]

end Settling

section Names

variable {som : Som} {storage : List StorageEntry}

theorem emitOne_name (descriptor : Descriptor) (s : Placing) (entry : StorageEntry) (index : Nat) :
    (emitOne descriptor s entry index).name = entry.name := by
  unfold emitOne
  split <;> rfl

theorem resolveDevice_names (som : Som) (storage : List StorageEntry) (device : String) :
    ((resolveDevice som storage device).map (·.name)).Perm
      ((storage.filter (·.device? = some device)).map (·.name)) := by
  unfold resolveDevice
  split
  · rw [List.map_map]
    exact List.Perm.refl _
  next descriptor _ =>
      have hnames : ∀ (l : List StorageEntry) (k : Nat) (s : Placing),
          ((l.zipIdx k).map fun x => emitOne descriptor s x.1 x.2).map (·.name) =
            l.map (·.name) := by
        intro l k s
        induction l generalizing k with
        | nil => rfl
        | cons e rest ih =>
            simp only [List.zipIdx_cons, List.map_cons, ih, emitOne_name]
      exact (List.Perm.of_eq (hnames ..)).trans ((deviceEntries_perm storage device).map _)

-- Every entry is resolved, and under its own name.
theorem names_nodup (som : Som) (hnames : (storage.map (·.name)).Nodup) :
    ((resolveStoragePartitions som storage).map (·.name)).Nodup := by
  have hsub : ∀ p : StorageEntry → Bool, ((storage.filter p).map (·.name)).Nodup := fun p =>
    hnames.sublist (List.filter_sublist.map _)
  -- entries of two groups have different names
  have happart : ∀ p q : StorageEntry → Bool, (∀ e, p e = true → q e = true → False) →
      ((storage.filter p).map (·.name)).Disjoint ((storage.filter q).map (·.name)) := by
    intro p q hpq name hp hq
    obtain ⟨e, he, rfl⟩ := List.mem_map.mp hp
    obtain ⟨e', he', heq⟩ := List.mem_map.mp hq
    obtain ⟨hmem, hpe⟩ := List.mem_filter.mp he
    obtain ⟨hmem', hqe⟩ := List.mem_filter.mp he'
    obtain rfl := List.inj_on_of_nodup_map hnames hmem' hmem heq
    exact hpq _ hpe hqe
  unfold resolveStoragePartitions
  rw [List.map_append, List.map_flatMap, List.map_map]
  have hblocked : ((storage.filter (·.device? = none)).map
      ((·.name) ∘ fun entry => blockedPartition entry .noFlashDevice)) =
      (storage.filter (·.device? = none)).map (·.name) := rfl
  rw [hblocked]
  refine List.Nodup.append (hsub _) (List.nodup_flatMap.mpr ⟨?_, ?_⟩) ?_
  · intro device _
    exact (resolveDevice_names som storage device).nodup_iff.mpr (hsub _)
  · have hdevices : (devices storage).Nodup :=
      ((List.perm_insertionSort _ _).nodup_iff).mpr (List.nodup_dedup _)
    refine hdevices.imp fun {d d'} hne name hd hd' => ?_
    refine happart _ _ ?_ ((resolveDevice_names som storage d).mem_iff.mp hd)
      ((resolveDevice_names som storage d').mem_iff.mp hd')
    intro e he he'
    exact hne (Option.some.inj ((of_decide_eq_true he).symm.trans (of_decide_eq_true he')))
  · intro name hnone hsome
    obtain ⟨d, -, hd⟩ := List.mem_flatMap.mp hsome
    refine happart _ _ ?_ hnone ((resolveDevice_names som storage d).mem_iff.mp hd)
    intro e he he'
    have hnone' := of_decide_eq_true he
    rw [of_decide_eq_true he'] at hnone'
    cases hnone'

-- With distinct names the filter by one of them leaves one element.
theorem filter_name {outs : List ResolvedPartition} (hnodup : (outs.map (·.name)).Nodup)
    {out : ResolvedPartition} (hout : out ∈ outs) : outs.filter (·.name = out.name) = [out] := by
  induction outs with
  | nil => cases hout
  | cons first rest ih =>
      rw [List.map_cons, List.nodup_cons] at hnodup
      obtain ⟨hfirst, hrest⟩ := hnodup
      rcases List.mem_cons.mp hout with rfl | hmem
      · have hnone : rest.filter (·.name = out.name) = [] := by
          rw [List.filter_eq_nil_iff]
          intro other hother heq
          exact hfirst (of_decide_eq_true heq ▸ List.mem_map_of_mem hother)
        rw [List.filter_cons_of_pos (by simp), hnone]
      · have hne : ¬first.name = out.name := fun heq =>
          hfirst (heq ▸ List.mem_map_of_mem hmem)
        rw [List.filter_cons_of_neg (by simpa using hne), ih hrest hmem]

end Names

section Outcomes

variable {som : Som} {storage storage' : List StorageEntry} {entry : StorageEntry}

-- What an entry gets when it is placed so.
def outcomeOf (entry : StorageEntry) : Placement → Status × Int × Int
  | .ok base => (.ok, base / 1024, sizeAligned entry / 1024)
  | .error _ => (.blocked, 0, entry.sizeKib)

-- What an entry gets from a list, as a function of the entries of its device.
def expected (som : Som) (storage : List StorageEntry) (entry : StorageEntry) :
    Status × Int × Int :=
  match entry.device? with
  | none => (.blocked, 0, entry.sizeKib)
  | some device =>
      match resolveFlashDevice som device with
      | .error _ => (.blocked, 0, entry.sizeKib)
      | .ok descriptor =>
          outcomeOf entry
            (settled som (deviceOf som descriptor) (deviceEntries storage device) entry)

theorem emitOne_outcome {descriptor : Descriptor} {s : Placing} {index : Nat} {result : Placement}
    (h : s.placement index = some result) :
    (emitOne descriptor s entry index).outcome = outcomeOf entry result := by
  unfold emitOne
  rw [h]
  cases result <;> rfl

theorem mem_devices {device : String} (hentry : entry ∈ storage)
    (h : entry.device? = some device) : device ∈ devices storage := by
  unfold devices
  rw [(List.perm_insertionSort _ _).mem_iff, List.mem_dedup]
  exact List.mem_filterMap.mpr ⟨entry, hentry, h⟩

variable (som) in
-- Each entry is resolved to what the list is expected to give it.
theorem resolved_expected (hnames : (storage.map (·.name)).Nodup) (hentry : entry ∈ storage) :
    ∃ out ∈ resolveStoragePartitions som storage,
      out.name = entry.name ∧ out.outcome = expected som storage entry := by
  unfold resolveStoragePartitions expected
  cases hdevice : entry.device? with
  | none =>
      refine ⟨blockedPartition entry .noFlashDevice, List.mem_append_left _ ?_, rfl, rfl⟩
      exact List.mem_map_of_mem (f := fun entry => blockedPartition entry .noFlashDevice)
        (List.mem_filter.mpr ⟨hentry, by simp [hdevice]⟩)
  | some device =>
      have hgroup : entry ∈ storage.filter (·.device? = some device) :=
        List.mem_filter.mpr ⟨hentry, by simp [hdevice]⟩
      have hlift : ∀ out ∈ resolveDevice som storage device, out ∈
          (storage.filter (·.device? = none)).map
              (fun entry => blockedPartition entry .noFlashDevice) ++
            (devices storage).flatMap (resolveDevice som storage) := fun out hout =>
        List.mem_append_right _ (List.mem_flatMap.mpr ⟨device, mem_devices hentry hdevice, hout⟩)
      simp only
      cases hresolve : resolveFlashDevice som device with
      | error reason =>
          refine ⟨blockedPartition entry reason, hlift _ ?_, rfl, rfl⟩
          simp only [resolveDevice, hresolve]
          exact List.mem_map_of_mem (f := fun entry => blockedPartition entry reason) hgroup
      | ok descriptor =>
          have hmem : entry ∈ deviceEntries storage device :=
            (deviceEntries_perm storage device).mem_iff.mpr hgroup
          obtain ⟨i, hi, hplacement⟩ := placements_settled som (deviceOf som descriptor)
            (deviceEntries_sorted hnames device) hmem
          refine ⟨_, hlift _ ?_, emitOne_name descriptor _ _ _, emitOne_outcome hplacement⟩
          simp only [resolveDevice, hresolve]
          exact List.mem_map.mpr ⟨(entry, i), List.mem_zipIdx_iff_getElem?.mpr hi, rfl⟩

theorem outcomes_eq (hnames : (storage.map (·.name)).Nodup) (hentry : entry ∈ storage) :
    outcomes som storage entry = [expected som storage entry] := by
  obtain ⟨out, hout, hname, houtcome⟩ := resolved_expected som hnames hentry
  rw [outcomes, ← hname, filter_name (names_nodup som hnames) hout, List.map_singleton, houtcome]

-- An entry that both lists hold gets the same when its own device settles it alike.
theorem same_of_settled (hnames : (storage.map (·.name)).Nodup)
    (hnames' : (storage'.map (·.name)).Nodup) (hentry : entry ∈ storage) (hentry' : entry ∈ storage')
    (h : ∀ dev device, settled som dev (deviceEntries storage device) entry =
      settled som dev (deviceEntries storage' device) entry) :
    SameOutcome som storage storage' entry := by
  refine ⟨expected som storage entry, outcomes_eq hnames hentry, ?_⟩
  rw [outcomes_eq hnames' hentry']
  simp only [expected, h]

theorem pinned_stable (hnames : (storage.map (·.name)).Nodup)
    (hnames' : (storage'.map (·.name)).Nodup)
    (hpins : (storage.filter isPinned).Perm (storage'.filter isPinned)) (hentry : entry ∈ storage)
    (hpin : isPinned entry = true) : SameOutcome som storage storage' entry := by
  have hentry' := List.mem_of_mem_filter (hpins.mem_iff.mp (List.mem_filter.mpr ⟨hentry, hpin⟩))
  refine same_of_settled hnames hnames' hentry hentry' fun dev device => ?_
  exact settled_pinned hpin (deviceEntries_filter hnames hnames' hpins device)

theorem auto_stable (hnames : (storage.map (·.name)).Nodup)
    (hnames' : (storage'.map (·.name)).Nodup) (hentry : entry ∈ storage)
    (hkept : (storage.filter (keeps entry)).Perm (storage'.filter (keeps entry))) :
    SameOutcome som storage storage' entry := by
  have hself : keeps entry entry = true := by simp [keeps]
  have hentry' := List.mem_of_mem_filter (hkept.mem_iff.mp (List.mem_filter.mpr ⟨hentry, hself⟩))
  refine same_of_settled hnames hnames' hentry hentry' fun dev device => ?_
  exact settled_auto (deviceEntries_filter hnames hnames' hkept device)

end Outcomes

-- Two runs over lists that agree in what an entry depends on give it the same.
theorem layout_stable (som : Som) {storage storage' : List StorageEntry}
    (hnames : (storage.map (·.name)).Nodup) (hnames' : (storage'.map (·.name)).Nodup) :
    (storage.Perm storage' → ∀ entry ∈ storage, SameOutcome som storage storage' entry) ∧
      ((storage.filter isPinned).Perm (storage'.filter isPinned) →
        ∀ entry ∈ storage, isPinned entry = true → SameOutcome som storage storage' entry) ∧
      ∀ entry ∈ storage, isAuto entry = true →
        (storage.filter (keeps entry)).Perm (storage'.filter (keeps entry)) →
          SameOutcome som storage storage' entry := by
  refine ⟨?_, ?_, ?_⟩
  · intro hperm entry hentry
    exact auto_stable hnames hnames' hentry (hperm.filter _)
  · intro hpins entry hentry hpin
    exact pinned_stable hnames hnames' hpins hentry hpin
  · intro entry hentry _ hkept
    exact auto_stable hnames hnames' hentry hkept

-- A pin at the bottom of the device and two auto-placed entries, the second of which goes away.
def ospiSom : Som where
  memoryMap := []
  ospiMemories := [("ospi0", { assembled := none, capacityMbit := .int 1, dtLabel := none })]
  aperture := none

def ospiEntry (name : String) (sizeKib : Int) (offsetKib : Option Int) : StorageEntry where
  name := name
  sizeKib := sizeKib
  fs := .littlefs
  mount := none
  flashDevice := some "ospi0"
  offsetKib := offsetKib

def pinnedLow : StorageEntry := ospiEntry "pinned_low" 8 (some 0)

def appData : StorageEntry := ospiEntry "app_data" 6 none

def logs : StorageEntry := ospiEntry "logs" 16 none

theorem layout_stable_without_logs :
    outcomes ospiSom [logs, pinnedLow, appData] appData = [(.ok, 8, 8)] ∧
      SameOutcome ospiSom [logs, pinnedLow, appData] [appData, pinnedLow] appData ∧
      SameOutcome ospiSom [logs, pinnedLow, appData] [appData, pinnedLow] pinnedLow ∧
      SameOutcome ospiSom [logs, pinnedLow, appData] [pinnedLow, appData, logs] logs := by
  have hnames : ([logs, pinnedLow, appData].map (·.name)).Nodup := by decide
  have hwithout : ([appData, pinnedLow].map (·.name)).Nodup := by decide
  have hsorted : ([pinnedLow, appData, logs].map (·.name)).Nodup := by decide
  obtain ⟨-, hpin, hauto⟩ := layout_stable ospiSom hnames hwithout
  obtain ⟨hperm, -, -⟩ := layout_stable ospiSom hnames hsorted
  exact ⟨by decide +kernel, hauto appData (by decide) rfl (by decide), hpin (by decide) pinnedLow
    (by decide) rfl, hperm (by decide) logs (by decide)⟩

end AlpSdk.Orchestrate.Partition
