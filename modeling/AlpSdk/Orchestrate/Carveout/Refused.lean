import AlpSdk.Orchestrate.Carveout.Theorems

namespace AlpSdk.Orchestrate

-- [base, base + size) meets the carve-out or the partition at `lo`.
def Meets (base size lo size' : Int) : Prop := base < lo + size' ∧ lo < base + size

instance (base size lo size' : Int) : Decidable (Meets base size lo size') :=
  inferInstanceAs (Decidable (_ ∧ _))

section FirstFree

variable (size floor : Int) (spans : List Span)

-- A pass steps over no page that is free.
theorem pass_skips (state : Int × Bool) {b : Int} (hb : b % PAGE = 0)
    (hlow : (spans.foldl (stepDown size) state).1 < b) (hle : b ≤ state.1) :
    ∃ s ∈ spans, b < s.hi ∧ s.lo < b + size := by
  induction spans generalizing state with
  | nil => exact absurd hle (not_le.mpr hlow)
  | cons s rest ih =>
      rw [List.foldl_cons] at hlow
      by_cases hskipped : b ≤ (stepDown size state s).1
      · obtain ⟨t, ht, hhit⟩ := ih _ hlow hskipped
        exact ⟨t, List.mem_cons_of_mem _ ht, hhit⟩
      · refine ⟨s, List.mem_cons_self, ?_⟩
        by_cases hhit : state.1 < s.hi ∧ s.lo < state.1 + size
        · simp only [stepDown, if_pos hhit, alignDown, PAGE] at hskipped hb
          omega
        · simp only [stepDown, if_neg hhit] at hskipped
          exact absurd hle hskipped

theorem descend_skips (fuel : Nat) (base : Int) {b : Int} (hb : b % PAGE = 0)
    (hlow : descend size floor spans fuel base < b) (hle : b ≤ base) :
    ∃ s ∈ spans, b < s.hi ∧ s.lo < b + size := by
  induction fuel generalizing base with
  | zero => exact absurd hle (not_le.mpr hlow)
  | succ fuel ih =>
      simp only [descend] at hlow
      split at hlow
      · exact absurd hle (not_le.mpr hlow)
      · by_cases hpass : b ≤ (spans.foldl (stepDown size) (base, false)).1
        · split at hlow
          · exact ih _ hlow hpass
          · exact absurd hpass (not_le.mpr hlow)
        · exact pass_skips size spans (base, false) hb (not_le.mp hpass) hle

-- `_first_free_down` steps over no page that is free.
theorem firstFreeDown_skips {top b : Int} (hb : b % PAGE = 0)
    (hlow : firstFreeDown top size spans floor < b) (htop : b + size ≤ top) :
    ∃ s ∈ spans, b < s.hi ∧ s.lo < b + size := by
  have hle : b ≤ alignDown (top - size) PAGE := by
    simp only [alignDown, PAGE] at hb ⊢
    omega
  obtain ⟨s, hs, hhit⟩ := descend_skips size floor _ _ _ hb hlow hle
  exact ⟨s, (List.perm_insertionSort _ spans).mem_iff.mp hs, hhit⟩

end FirstFree

section Marks

variable {project : BoardProject} {entry : IpcEntry} {a a' : Allocator} {region : Region}

-- A region of that name ends at `top`, rounded down to the page.
def EndsAt (project : BoardProject) (name : String) (top : Int) : Prop :=
  ∃ region ∈ project.memoryMap, region.name = name ∧
    ∃ ext, regionExtent region = some ext ∧ top = alignDown ext.2 PAGE

theorem regionTopInit_tops (hmem : region ∈ project.memoryMap) {name : String} {top : Int}
    (h : (regionTopInit a region).1.regionTop name = some top) :
    a.regionTop name = some top ∨ EndsAt project name top := by
  unfold regionTopInit at h
  split at h
  · exact .inl h
  · split at h
    · exact .inl h
    · exact .inl h
    next base size hbase hsize =>
        by_cases hname : name = region.name
        · subst hname
          simp only [setTop, Function.update_self, Option.some.injEq] at h
          refine .inr ⟨region, hmem, rfl, (base, base + size), ?_, h.symm⟩
          simp only [regionExtent, hbase, hsize]
        · simp only [setTop, Function.update_of_ne hname] at h
          exact .inl h

-- The top it returns is the one on record.
theorem regionTopInit_top {top : Int} (h : regionTopInit a region = (a', .ok top)) :
    a'.regionTop region.name = some top := by
  unfold regionTopInit at h
  split at h
  next top' htop =>
      cases h
      exact htop
  · split at h
    · cases h
    · cases h
    · cases h
      exact Function.update_self ..

-- Only the search for a page speaks of room.
theorem regionTopInit_room {name : String} {note : Option Extent} :
    (regionTopInit a region).2 ≠ .error (.doesNotFit name note) := by
  unfold regionTopInit
  split
  · nofun
  · split <;> nofun

theorem candidateRegions_room {name : String} {note : Option Extent} :
    candidateRegions project entry ≠ .error (.doesNotFit name note) := by
  unfold candidateRegions
  split
  · nofun
  · simp only
    split
    · split
      · nofun
      · split <;> nofun
    · nofun

theorem choosePinned_tops {base size : Int} {candidates : List Region}
    {windows : List (String × Extent)} {tbd : Option Reason} {result : Except Reason Region}
    (hmem : ∀ r ∈ candidates, r ∈ project.memoryMap)
    (h : choosePinned entry base size candidates a windows tbd = some (a', result)) {name : String}
    {top : Int} (htop : a'.regionTop name = some top) :
    a.regionTop name = some top ∨ EndsAt project name top := by
  induction candidates generalizing a windows tbd with
  | nil =>
      cases h
      exact .inl htop
  | cons r rest ih =>
      obtain ⟨hr, hrest⟩ := List.forall_mem_cons.mp hmem
      have hinit : ∀ a₁ res, regionTopInit a r = (a₁, res) → a₁.regionTop name = some top →
          a.regionTop name = some top ∨ EndsAt project name top := by
        intro a₁ res heq hname
        exact regionTopInit_tops hr (heq ▸ hname)
      rw [choosePinned] at h
      split at h
      next a₁ reason heq =>
          exact (ih hrest h).elim (hinit _ _ heq) .inr
      next a₁ top' heq =>
          simp only [Option.bind_eq_bind, Option.bind_eq_some_iff] at h
          obtain ⟨window, -, h⟩ := h
          split at h
          · cases h
            exact hinit _ _ heq htop
          · exact (ih hrest h).elim (hinit _ _ heq) .inr

-- Where an auto entry finds no room under the mark: every page of its window up to there meets a
-- span on record.
def FullBelow (project : BoardProject) (entry : IpcEntry) (a : Allocator) (name : String) : Prop :=
  ∃ region rest window top, candidateRegions project entry = .ok (region :: rest) ∧
    region.name = name ∧ endpointWindow region entry.endpoints = some window ∧
    (a.regionTop name = some top ∨ EndsAt project name top) ∧
    ∀ b, b % PAGE = 0 → window.1 ≤ b → b + carveSizeAligned entry ≤ min top window.2 →
      ∃ s ∈ a.placedSpans name, b < s.hi ∧ s.lo < b + carveSizeAligned entry

-- What a placement leaves in the marks, and when it refuses.
structure Marks (project : BoardProject) (entry : IpcEntry) (a a' : Allocator) (result : Placement) :
    Prop where
  tops : ∀ name top, a'.regionTop name = some top → a.regionTop name = some top ∨
    EndsAt project name top ∨
    entry.address = none ∧ ∃ region, result = .ok (region, top) ∧ region.name = name
  full : entry.address = none → ∀ name note, result = .error (.doesNotFit name note) →
    FullBelow project entry a name

theorem placePinned_marks {result : Placement} (hpin : entry.address.isSome)
    (h : placePinned project a entry = some (a', result)) : Marks project entry a a' result := by
  refine ⟨fun name top htop => ?_, fun hnone => absurd hpin (by simp [hnone])⟩
  unfold placePinned at h
  split at h
  · cases h
    exact .inl htop
  next candidates hcand =>
      have hmem : ∀ r ∈ candidates, r ∈ project.memoryMap := fun r hr =>
        ((mem_candidateRegions hcand).2 r hr).mem
      simp only at h
      split at h
      · cases h
        exact .inl htop
      · simp only [Option.bind_eq_bind, Option.bind_eq_some_iff] at h
        obtain ⟨⟨a₁, chosen⟩, hchoose, h⟩ := h
        have hchosen : a₁.regionTop name = some top →
            a.regionTop name = some top ∨ EndsAt project name top := choosePinned_tops hmem hchoose
        have hkept : a'.regionTop name = some top → a₁.regionTop name = some top := by
          cases chosen with
          | error reason =>
              cases h
              exact id
          | ok chosen =>
              simp only at h
              split at h <;> cases h <;> exact id
        exact (hchosen (hkept htop)).imp_right .inl

theorem placeAuto_marks {result : Placement} (hauto : entry.address = none)
    (h : placeAuto project a entry = some (a', result)) : Marks project entry a a' result := by
  unfold placeAuto at h
  split at h
  next reason hcand =>
      cases h
      refine ⟨fun _ _ htop => .inl htop, fun _ name note hresult => ?_⟩
      cases hresult
      exact absurd hcand candidateRegions_room
  · cases h
  next chosen rest hcand =>
      have hmem := ((mem_candidateRegions hcand).2 chosen List.mem_cons_self).mem
      have htops : ∀ name top, (regionTopInit a chosen).1.regionTop name = some top →
          a.regionTop name = some top ∨ EndsAt project name top := fun _ _ => regionTopInit_tops hmem
      have hspans := regionTopInit_spans a chosen
      split at h
      next a₁ reason hinit =>
          cases h
          rw [hinit] at htops
          refine ⟨fun name top htop => (htops name top htop).imp_right .inl, ?_⟩
          intro _ name note hresult
          cases hresult
          exact absurd (congrArg Prod.snd hinit) regionTopInit_room
      next a₁ top hinit =>
          rw [hinit] at htops hspans
          simp only [Option.bind_eq_bind, Option.bind_eq_some_iff] at h
          obtain ⟨window, hwindow, h⟩ := h
          split at h
          next hlow =>
              cases h
              refine ⟨fun name top htop => (htops name top htop).imp_right .inl, ?_⟩
              intro _ name note hresult
              cases hresult
              have hmark := htops _ _ (regionTopInit_top hinit)
              refine ⟨chosen, rest, window, top, hcand, rfl, hwindow, hmark, ?_⟩
              intro b hb hwin htop
              rw [← hspans]
              refine firstFreeDown_skips _ _ _ hb (hlow.trans_le hwin) ?_
              have hsize := (carveSizeAligned_spec entry).1
              simp only [alignDown, PAGE] at hb hsize ⊢
              omega
          · cases h
            refine ⟨fun name top' htop => ?_, fun _ _ _ hresult => by cases hresult⟩
            by_cases hname : name = chosen.name
            · subst hname
              simp only [addSpan, setTop, Function.update_self, Option.some.injEq] at htop
              exact .inr (.inr ⟨hauto, chosen, by rw [htop], rfl⟩)
            · simp only [addSpan, setTop, Function.update_of_ne hname] at htop
              exact (htops name top' htop).imp_right .inl

end Marks

section Run

variable {project : BoardProject} {s s' : Placing}

-- What holds of the rest of the entries and the state, from entry to entry, holds at the end.
theorem placePass_rule (Inv : List (IpcEntry × Nat) → Placing → Prop)
    {place : Allocator → IpcEntry → Option (Allocator × Placement)} {selected : IpcEntry → Bool}
    (hstep : ∀ x rest s a' result, selected x.1 = true → place s.allocator x.1 = some (a', result) →
      Inv (x :: rest) s → Inv rest ⟨a', Function.update s.placement x.2 (some result)⟩)
    (hskip : ∀ x rest s, selected x.1 = false → Inv (x :: rest) s → Inv rest s)
    {l : List (IpcEntry × Nat)} (h : placePass place selected l s = some s') (hinv : Inv l s) : Inv [] s' := by
  induction l generalizing s with
  | nil =>
      cases h
      exact hinv
  | cons x rest ih =>
      rw [placePass] at h
      split at h
      next hsel =>
          simp only [Option.bind_eq_bind, Option.bind_eq_some_iff, placeOne] at h
          obtain ⟨_, ⟨⟨a', result⟩, hres, heq⟩, h⟩ := h
          cases heq
          exact ih h (hstep x rest s a' result hsel hres hinv)
      next hsel => exact ih h (hskip x rest s (by simpa using hsel) hinv)

-- A carve-out that stands when the auto entry of index `i` has its turn: a pin, or an auto entry
-- before it.
structure Placing.Before (project : BoardProject) (s : Placing) (i j : Nat) (entry : IpcEntry)
    (region : Region) (base : Int) : Prop where
  at_ : s.At project j entry region base
  turn : entry.address.isSome ∨ j < i

-- The carve-outs placed before it take every page of the entry's window, but for what lies above an
-- auto entry placed before it, or above the end of a region of the same name.
def FullWindow (project : BoardProject) (s : Placing) (i : Nat) (entry : IpcEntry) (name : String) : Prop :=
  ∃ region rest window, candidateRegions project entry = .ok (region :: rest) ∧ region.name = name ∧
    endpointWindow region entry.endpoints = some window ∧
    ∀ b, b % PAGE = 0 → window.1 ≤ b → b ≤ window.2 - carveSizeAligned entry →
      (∃ j e r base, s.Before project i j e r base ∧ r.name = name ∧
        (Meets b (carveSizeAligned entry) base (carveSizeAligned e) ∨
          e.address = none ∧ base < b + carveSizeAligned entry)) ∨
      ∃ top, EndsAt project name top ∧ top < b + carveSizeAligned entry

-- The carve-outs placed before it take every page of the entry's window.
def WindowTaken (project : BoardProject) (s : Placing) (i : Nat) (entry : IpcEntry) (name : String) : Prop :=
  ∃ region rest window, candidateRegions project entry = .ok (region :: rest) ∧ region.name = name ∧
    endpointWindow region entry.endpoints = some window ∧
    ∀ b, b % PAGE = 0 → window.1 ≤ b → b ≤ window.2 - carveSizeAligned entry →
      ∃ j e r base, s.Before project i j e r base ∧ r.name = name ∧
        Meets b (carveSizeAligned entry) base (carveSizeAligned e)

-- The state before the entries of `l`: the indices of `l` are to come, every span and every mark on
-- record is one of an earlier placement, and an auto entry was refused for lack of room only.
structure Recorded (project : BoardProject) (selected : IpcEntry → Bool) (l : List (IpcEntry × Nat))
    (s : Placing) : Prop where
  entries : ∀ x ∈ l, (sortedEntries project)[x.2]? = some x.1
  ordered : l.Pairwise fun x y => x.2 < y.2
  done : ∀ j result, s.placement j = some result → ∃ e, (sortedEntries project)[j]? = some e ∧
    (selected e = true ∧ (∀ x ∈ l, j < x.2) ∨ selected e = false ∧ e.address.isSome)
  spans : ∀ name, ∀ span ∈ s.allocator.placedSpans name, ∃ j e r, s.At project j e r span.lo ∧
    r.name = name ∧ span.hi = span.lo + carveSizeAligned e
  tops : ∀ name top, s.allocator.regionTop name = some top → EndsAt project name top ∨
    ∃ j e r, s.At project j e r top ∧ e.address = none ∧ r.name = name
  refused : ∀ i e name note, (sortedEntries project)[i]? = some e → e.address = none →
    s.placement i = some (.error (.doesNotFit name note)) → FullWindow project s i e name

theorem FullWindow.mono {i : Nat} {entry : IpcEntry} {name : String}
    (hmono : ∀ j e r base, s.At project j e r base → s'.At project j e r base)
    (h : FullWindow project s i entry name) : FullWindow project s' i entry name := by
  obtain ⟨region, rest, window, hcand, hname, hwindow, hfull⟩ := h
  refine ⟨region, rest, window, hcand, hname, hwindow, fun b hb hlo hhi => ?_⟩
  rcases hfull b hb hlo hhi with ⟨j, e, r, base, hbefore, hmeets⟩ | hend
  · exact .inl ⟨j, e, r, base, ⟨hmono j e r base hbefore.at_, hbefore.turn⟩, hmeets⟩
  · exact .inr hend

-- Under the mark there is no room, and the mark is an end of the region or an earlier auto entry.
theorem FullBelow.window {selected : IpcEntry → Bool} {x : IpcEntry × Nat} {rest : List (IpcEntry × Nat)}
    {name : String} (hrec : Recorded project selected (x :: rest) s)
    (h : FullBelow project x.1 s.allocator name) : FullWindow project s x.2 x.1 name := by
  obtain ⟨region, others, window, top, hcand, hname, hwindow, htop, hfull⟩ := h
  have hbefore : ∀ j e r base, s.At project j e r base → s.Before project x.2 j e r base := by
    intro j e r base hat
    refine ⟨hat, ?_⟩
    obtain ⟨e', he', hdone⟩ := hrec.done j _ hat.placement
    obtain rfl : e = e' := Option.some.inj (hat.entry.symm.trans he')
    rcases hdone with ⟨-, hlt⟩ | ⟨-, hpin⟩
    · exact .inr (hlt x List.mem_cons_self)
    · exact .inl hpin
  refine ⟨region, others, window, hcand, hname, hwindow, fun b hb hlo hhi => ?_⟩
  by_cases habove : top < b + carveSizeAligned x.1
  · rcases htop.elim (hrec.tops name top) .inl with hend | ⟨j, e, r, hat, hauto, hr⟩
    · exact .inr ⟨top, hend, habove⟩
    · exact .inl ⟨j, e, r, top, hbefore j e r top hat, hr, .inr ⟨hauto, habove⟩⟩
  · obtain ⟨span, hspan, hhit⟩ := hfull b hb hlo (by omega)
    obtain ⟨j, e, r, hat, hr, hhi'⟩ := hrec.spans name span hspan
    rw [hhi'] at hhit
    exact .inl ⟨j, e, r, span.lo, hbefore j e r span.lo hat, hr, .inl hhit⟩

theorem Recorded.place {selected : IpcEntry → Bool} {x : IpcEntry × Nat} {rest : List (IpcEntry × Nat)}
    {a' : Allocator} {result : Placement} (hsel : selected x.1 = true)
    (hspec : PlaceSpec project x.1 s.allocator a' result) (hmarks : Marks project x.1 s.allocator a' result)
    (h : Recorded project selected (x :: rest) s) :
    Recorded project selected rest ⟨a', Function.update s.placement x.2 (some result)⟩ := by
  have hentry := h.entries x List.mem_cons_self
  obtain ⟨hlater, hordered⟩ := List.pairwise_cons.mp h.ordered
  -- the index has not been placed before
  have hfresh : s.placement x.2 = none := by
    cases hplacement : s.placement x.2 with
    | none => rfl
    | some earlier =>
        obtain ⟨e, he, hdone⟩ := h.done _ _ hplacement
        obtain rfl : x.1 = e := Option.some.inj (hentry.symm.trans he)
        rcases hdone with ⟨-, hlt⟩ | ⟨hother, -⟩
        · exact absurd (hlt x List.mem_cons_self) (lt_irrefl _)
        · rw [hsel] at hother
          cases hother
  have hmono : ∀ j e r base, s.At project j e r base →
      (⟨a', Function.update s.placement x.2 (some result)⟩ : Placing).At project j e r base := by
    intro j e r base hat
    refine ⟨?_, hat.entry⟩
    have hne : j ≠ x.2 := by
      rintro rfl
      rw [hat.placement] at hfresh
      cases hfresh
    simp only [Function.update_of_ne hne, hat.placement]
  refine ⟨fun y hy => h.entries y (List.mem_cons_of_mem _ hy), hordered, ?_, ?_, ?_, ?_⟩
  · intro j placement hj
    by_cases hx : j = x.2
    · subst hx
      exact ⟨x.1, hentry, .inl ⟨hsel, hlater⟩⟩
    · simp only [Function.update_of_ne hx] at hj
      obtain ⟨e, he, hdone⟩ := h.done j placement hj
      exact ⟨e, he, hdone.imp_left fun ⟨hs, hlt⟩ => ⟨hs, fun y hy => hlt y (List.mem_cons_of_mem _ hy)⟩⟩
  · intro name span hspan
    have hkept : span ∈ s.allocator.placedSpans name → ∃ j e r,
        (⟨a', Function.update s.placement x.2 (some result)⟩ : Placing).At project j e r span.lo ∧
          r.name = name ∧ span.hi = span.lo + carveSizeAligned e := by
      intro hold
      obtain ⟨j, e, r, hat, hr⟩ := h.spans name span hold
      exact ⟨j, e, r, hmono j e r _ hat, hr⟩
    cases result with
    | error reason =>
        have hsame : a'.placedSpans = s.allocator.placedSpans := hspec
        exact hkept (hsame ▸ hspan)
    | ok result =>
        obtain ⟨region, base⟩ := result
        have hadded := hspec.spans
        simp only [hadded, addSpan] at hspan
        by_cases hname : name = region.name
        · subst hname
          rw [Function.update_self] at hspan
          rcases List.mem_append.mp hspan with hold | hnew
          · exact hkept hold
          · obtain rfl := List.mem_singleton.mp hnew
            exact ⟨x.2, x.1, region, ⟨Function.update_self .., hentry⟩, rfl, rfl⟩
        · rw [Function.update_of_ne hname] at hspan
          exact hkept hspan
  · intro name top htop
    rcases hmarks.tops name top htop with hold | hend | ⟨hauto, region, rfl, hr⟩
    · refine (h.tops name top hold).imp_right ?_
      rintro ⟨j, e, r, hat, hrest⟩
      exact ⟨j, e, r, hmono j e r _ hat, hrest⟩
    · exact .inl hend
    · exact .inr ⟨x.2, x.1, region, ⟨Function.update_self .., hentry⟩, hauto, hr⟩
  · intro i e name note he hauto hi
    by_cases hx : i = x.2
    · subst hx
      obtain rfl : x.1 = e := Option.some.inj (hentry.symm.trans he)
      simp only [Function.update_self, Option.some.injEq] at hi
      exact (FullBelow.window h (hmarks.full hauto name note hi)).mono hmono
    · simp only [Function.update_of_ne hx] at hi
      exact (h.refused i e name note he hauto hi).mono hmono

theorem Recorded.skip {selected : IpcEntry → Bool} {x : IpcEntry × Nat} {rest : List (IpcEntry × Nat)}
    (h : Recorded project selected (x :: rest) s) : Recorded project selected rest s := by
  refine ⟨fun y hy => h.entries y (List.mem_cons_of_mem _ hy), (List.pairwise_cons.mp h.ordered).2, ?_,
    h.spans, h.tops, h.refused⟩
  intro j result hj
  obtain ⟨e, he, hdone⟩ := h.done j result hj
  exact ⟨e, he, hdone.imp_left fun ⟨hs, hlt⟩ => ⟨hs, fun y hy => hlt y (List.mem_cons_of_mem _ hy)⟩⟩

theorem placePass_recorded {place : Allocator → IpcEntry → Option (Allocator × Placement)}
    {selected : IpcEntry → Bool} {l : List (IpcEntry × Nat)}
    (hplace : ∀ a e a' result, selected e = true → place a e = some (a', result) →
      PlaceSpec project e a a' result ∧ Marks project e a a' result)
    (h : placePass place selected l s = some s') (hrec : Recorded project selected l s) :
    Recorded project selected [] s' := by
  refine placePass_rule (Recorded project selected) ?_ (fun _ _ _ _ hrec => hrec.skip) h hrec
  intro x rest s a' result hsel hres hrec
  obtain ⟨hspec, hmarks⟩ := hplace _ _ _ _ hsel hres
  exact hrec.place hsel hspec hmarks

theorem placeable_ordered : (placeable project).Pairwise fun x y => x.2 < y.2 := by
  have hindices : ((sortedEntries project).zipIdx.map Prod.snd).Pairwise (· < ·) := by
    rw [List.zipIdx_map_snd]
    exact List.pairwise_lt_range'
  exact (List.pairwise_map.mp hindices).filter _

theorem recorded_empty {selected : IpcEntry → Bool} :
    Recorded project selected (placeable project) emptyPlacing := by
  refine ⟨fun _ => placeable_entry, placeable_ordered, ?_, ?_, ?_, ?_⟩
  · intro j result h
    cases h
  · intro name span h
    cases h
  · intro name top h
    cases h
  · intro i e name note _ _ h
    cases h

theorem placements_recorded (h : placements project = some s) :
    Recorded project (·.address.isNone) [] s := by
  simp only [placements, Option.bind_eq_bind, Option.bind_eq_some_iff] at h
  obtain ⟨pinned, hpinned, hauto⟩ := h
  have hpins := placePass_recorded
    (fun _ _ _ _ hsel hres => ⟨placePinned_spec hres, placePinned_marks hsel hres⟩) hpinned recorded_empty
  have hnext : Recorded project (·.address.isNone) (placeable project) pinned := by
    refine ⟨fun _ => placeable_entry, placeable_ordered, fun j result hj => ?_, hpins.spans, hpins.tops,
      hpins.refused⟩
    obtain ⟨e, he, ⟨hpin, -⟩ | ⟨hnone, hsome⟩⟩ := hpins.done j result hj
    · exact ⟨e, he, .inr ⟨by simpa using hpin, hpin⟩⟩
    · rw [hsome] at hnone
      cases hnone
  refine placePass_recorded (fun _ _ _ _ hsel hres => ?_) hauto hnext
  have hnone := Option.isNone_iff_eq_none.mp hsel
  exact ⟨placeAuto_spec hnone hres, placeAuto_marks hnone hres⟩

-- A carve-out that is returned as refused for lack of room was refused when it was placed.
def Returned (s : Placing) (indexed : IpcEntry × Nat) (out : ResolvedCarveOut) : Prop :=
  ∀ name note, out.status = .blocked (.doesNotFit name note) →
    s.placement indexed.2 = some (.error (.doesNotFit name note))

theorem mailboxBlocked_room {entry : IpcEntry} {name : String} {note : Option Extent} :
    mailboxBlocked project entry ≠ some (.doesNotFit name note) := by
  unfold mailboxBlocked rpmsgBlockReason
  split
  · split
    · split
      · nofun
      · nofun
      · split <;> nofun
    · nofun
  · nofun

theorem resolveMailboxChannel_room {entryName name : String} {claimed : List Int} {note : Option Extent} :
    resolveMailboxChannel project entryName claimed ≠ .error (.doesNotFit name note) := by
  unfold resolveMailboxChannel
  split
  · nofun
  · simp only
    split <;> nofun

theorem emitOne_returned {entry : IpcEntry} {st : Emitting} {index : Nat} :
    Returned s (entry, index) (emitOne project s st entry index).2 := by
  intro name note hstatus
  unfold emitOne at hstatus
  split at hstatus
  next reason hreason =>
      cases hstatus
      exact absurd hreason mailboxBlocked_room
  · split at hstatus
    · simp only at hstatus
      split at hstatus
      · cases hstatus
      · split at hstatus
        next reason hreason =>
            cases hstatus
            exact absurd hreason resolveMailboxChannel_room
        · cases hstatus
    next reason hreason =>
        cases hstatus
        exact hreason
    · cases hstatus

theorem emit_returned (s : Placing) (l : List (IpcEntry × Nat)) (st : Emitting) :
    List.Forall₂ (Returned s) l (emit project s l st) := by
  induction l generalizing st with
  | nil => exact .nil
  | cons x rest ih => exact .cons emitOne_returned (ih _)

-- An auto entry is refused for lack of room only where its window is taken.
theorem carve_out_refused {outs : List ResolvedCarveOut} (hrun : resolveCarveOuts project = some outs)
    {i : Nat} {entry : IpcEntry} {out : ResolvedCarveOut} (hentry : (sortedEntries project)[i]? = some entry)
    (hauto : entry.address = none) (hout : outs[i]? = some out) {name : String} {note : Option Extent}
    (hstatus : out.status = .blocked (.doesNotFit name note)) :
    ∃ s, placements project = some s ∧ FullWindow project s i entry name := by
  have hne : project.ipc ≠ [] := by
    intro hnil
    have hsorted : sortedEntries project = [] := by simp [sortedEntries, hnil]
    rw [hsorted] at hentry
    cases hentry
  cases hs : placements project with
  | none => simp [resolveCarveOuts, hne, hs] at hrun
  | some s =>
      rw [resolveCarveOuts_eq hne hs] at hrun
      obtain rfl := Option.some.inj hrun
      have hemit : List.Forall₂ (Returned s) (sortedEntries project).zipIdx (emit project s _ _) :=
        emit_returned s (sortedEntries project).zipIdx ⟨claimedUpFront project, []⟩
      obtain ⟨hi, rfl⟩ := List.getElem?_eq_some_iff.mp hout
      have hi' : i < (sortedEntries project).zipIdx.length := by
        rw [hemit.length_eq]
        exact hi
      have hreturned := hemit.get hi' hi
      simp only [List.get_eq_getElem, List.getElem_zipIdx, Nat.zero_add] at hreturned
      have hplacement := hreturned name note hstatus
      exact ⟨s, rfl, (placements_recorded hs).refused i entry name note hentry hauto hplacement⟩

end Run

end AlpSdk.Orchestrate
