import AlpSdk.Library.Loop
import AlpSdk.Orchestrate.Partition.Refused

-- The gap searches of the two planners, over any spans.
namespace AlpSdk.Orchestrate

open Library.Loop (Ends)

section Down

variable (size floor : Int) (spans : List Span)

-- The `while` of `_first_free_down`; its state is the base and `moved`.
def DownEnds : Int × Bool → Int × Bool → Prop :=
  Ends (fun s => s.2 && decide (floor ≤ s.1)) fun s => spans.foldl (stepDown size) (s.1, false)

theorem descend_ends (fuel : Nat) (base : Int) (hfuel : base - floor < fuel) :
    ∃ moved, DownEnds size floor spans (base, true) (descend size floor spans fuel base, moved) := by
  induction fuel generalizing base with
  | zero =>
      have hbelow : ¬ floor ≤ base := by omega
      exact ⟨true, .stop (by simp [hbelow])⟩
  | succ fuel ih =>
      simp only [descend]
      by_cases hbelow : base < floor
      · rw [if_pos hbelow]
        exact ⟨true, .stop (by simp [not_le.mpr hbelow])⟩
      · rw [if_neg hbelow]
        have hguard : (true && decide (floor ≤ base)) = true := by simpa using hbelow
        obtain ⟨-, -, hmoved, -⟩ := pass_cases size spans (base, false)
        cases hflag : (spans.foldl (stepDown size) (base, false)).2 with
        | true =>
            have hlt := (hmoved hflag).resolve_left (by simp)
            obtain ⟨moved, hrest⟩ := ih (spans.foldl (stepDown size) (base, false)).1 (by simp only at hlt; omega)
            rw [← hflag] at hrest
            exact ⟨moved, .pass hguard hrest⟩
        | false =>
            have hstop : (spans.foldl (stepDown size) (base, false)).2 = false := hflag
            exact ⟨_, .pass hguard (.stop (by simp [hstop]))⟩

end Down

-- A base where nothing is in the way.
def Clear (spans : List Span) (size base : Int) : Prop :=
  ∀ s ∈ spans, Disjoint (Set.Ico base (base + size)) (Set.Ico s.lo s.hi)

theorem disjoint_iff {base size lo hi : Int} (hsize : 0 < size) (hspan : lo < hi) :
    Disjoint (Set.Ico base (base + size)) (Set.Ico lo hi) ↔ ¬ (base < hi ∧ lo < base + size) := by
  rw [Set.Ico_disjoint_Ico]
  omega

-- The bases that `_first_free_down` has to choose from.
def DownGaps (spans : List Span) (size top : Int) : Set Int :=
  {base | base % PAGE = 0 ∧ base + size ≤ top ∧ Clear spans size base}

section Down

variable {spans : List Span} {size : Int} (hsize : 0 < size) (hspans : ∀ s ∈ spans, s.lo < s.hi)
include hsize hspans

theorem clear_iff {base : Int} :
    Clear spans size base ↔ ∀ s ∈ spans, ¬ (base < s.hi ∧ s.lo < base + size) :=
  forall₂_congr fun s hs => disjoint_iff hsize (hspans s hs)

-- What it steps over lies above its result, whatever the result.
theorem le_firstFreeDown {top floor b : Int} (hb : b ∈ DownGaps spans size top) :
    b ≤ firstFreeDown top size spans floor := by
  obtain ⟨haligned, htop, hclear⟩ := hb
  by_contra hlow
  obtain ⟨s, hs, hhit⟩ := firstFreeDown_skips size floor spans haligned (not_le.mp hlow) htop
  exact (clear_iff hsize hspans).mp hclear s hs hhit

theorem firstFreeDown_mem {top floor : Int} (hfloor : floor ≤ firstFreeDown top size spans floor) :
    firstFreeDown top size spans floor ∈ DownGaps spans size top := by
  obtain ⟨htop, haligned, hclear⟩ := firstFreeDown_spec size floor spans top
  refine ⟨haligned, htop, (clear_iff hsize hspans).mpr fun s hs hhit => ?_⟩
  have hapart := hclear hfloor s hs
  omega

end Down

-- `_first_free_down` started at `top` leaves its loop with `base`.
def DownReturns (top size : Int) (spans : List Span) (floor base : Int) : Prop :=
  ∃ moved, DownEnds size floor (spans.insertionSort fun a b => a.before b)
    (alignDown (top - size) PAGE, true) (base, moved)

theorem firstFreeDown_returns (top size : Int) (spans : List Span) (floor : Int) :
    DownReturns top size spans floor (firstFreeDown top size spans floor) :=
  descend_ends size floor _ _ _ (by omega)

theorem DownReturns.unique {top size floor base : Int} {spans : List Span}
    (h : DownReturns top size spans floor base) : base = firstFreeDown top size spans floor := by
  obtain ⟨moved, h⟩ := h
  obtain ⟨moved', h'⟩ := firstFreeDown_returns top size spans floor
  exact congrArg Prod.fst (h.unique h')

end AlpSdk.Orchestrate

namespace AlpSdk.Orchestrate.Partition

open Library.Loop (Ends)

section Up

variable (size capacityBytes : Int) (spans : List Span)

-- One round of the `while` of `_first_free`; the `return` in it clears `moved`.
def round (s : Int × Bool) : Int × Bool :=
  let next := spans.foldl (stepUp size) (s.1, false)
  if capacityBytes ≤ next.1 then (next.1, false) else next

def UpEnds : Int × Bool → Int × Bool → Prop := Ends Prod.snd (round size capacityBytes spans)

theorem ascend_ends (fuel : Nat) (base : Int) (hfuel : capacityBytes - base < fuel) (hpos : 0 < fuel) :
    ∃ moved, UpEnds size capacityBytes spans (base, true)
      (ascend size capacityBytes spans fuel base, moved) := by
  induction fuel generalizing base with
  | zero => exact absurd hpos (lt_irrefl 0)
  | succ fuel ih =>
      simp only [ascend]
      obtain ⟨-, -, hmoved, -⟩ := pass_cases size spans (base, false)
      by_cases hend : capacityBytes ≤ (spans.foldl (stepUp size) (base, false)).1
      · rw [if_pos hend]
        have hround : round size capacityBytes spans (base, true) =
            ((spans.foldl (stepUp size) (base, false)).1, false) := if_pos hend
        refine ⟨false, .pass rfl ?_⟩
        rw [hround]
        exact .stop rfl
      · rw [if_neg hend]
        have hround : round size capacityBytes spans (base, true) = spans.foldl (stepUp size) (base, false) :=
          if_neg hend
        cases hflag : (spans.foldl (stepUp size) (base, false)).2 with
        | true =>
            have hlt := (hmoved hflag).resolve_left (by simp)
            simp only at hlt
            obtain ⟨moved, hrest⟩ :=
              ih (spans.foldl (stepUp size) (base, false)).1 (by omega) (by omega)
            rw [← hflag] at hrest
            refine ⟨moved, .pass rfl ?_⟩
            rw [hround]
            exact hrest
        | false =>
            have hends : UpEnds size capacityBytes spans (base, true) (spans.foldl (stepUp size) (base, false)) := by
              refine .pass rfl ?_
              rw [hround]
              exact .stop hflag
            exact ⟨_, hends⟩

end Up

def Clear (spans : List Span) (size base : Int) : Prop :=
  ∀ s ∈ spans, Disjoint (Set.Ico base (base + size)) (Set.Ico s.lo s.hi)

-- The offsets that `_first_free` has to choose from.
def UpGaps (spans : List Span) (size start : Int) : Set Int :=
  {base | base % PAGE = 0 ∧ start ≤ base ∧ Clear spans size base}

section Up

variable {spans : List Span} {size : Int} (hsize : 0 < size) (hspans : ∀ s ∈ spans, s.lo < s.hi)
include hsize hspans

theorem clear_iff {base : Int} :
    Clear spans size base ↔ ∀ s ∈ spans, ¬ (base < s.hi ∧ s.lo < base + size) :=
  forall₂_congr fun s hs => disjoint_iff hsize (hspans s hs)

-- What it steps over lies below its result, whatever the result.
theorem firstFree_le {start capacityBytes b : Int} (hb : b ∈ UpGaps spans size start) :
    firstFree start size spans capacityBytes ≤ b := by
  obtain ⟨haligned, hstart, hclear⟩ := hb
  by_contra hhigh
  obtain ⟨s, hs, hhit⟩ := firstFree_skips size capacityBytes spans haligned hstart (not_le.mp hhigh)
  exact (clear_iff hsize hspans).mp hclear s hs hhit

theorem firstFree_mem {start capacityBytes : Int} (hstart : start % PAGE = 0)
    (hroom : firstFree start size spans capacityBytes < capacityBytes) :
    firstFree start size spans capacityBytes ∈ UpGaps spans size start := by
  obtain ⟨hle, haligned, hclear⟩ := firstFree_spec size capacityBytes spans start hstart
  refine ⟨haligned, hle, (clear_iff hsize hspans).mpr fun s hs hhit => ?_⟩
  have hapart := hclear hroom s hs
  omega

end Up

-- `_first_free` started at `start` leaves its loop with `base`.
def UpReturns (start size : Int) (spans : List Span) (capacityBytes base : Int) : Prop :=
  ∃ moved, UpEnds size capacityBytes (spans.insertionSort fun a b => a.before b) (start, true) (base, moved)

theorem firstFree_returns (start size : Int) (spans : List Span) (capacityBytes : Int) :
    UpReturns start size spans capacityBytes (firstFree start size spans capacityBytes) :=
  ascend_ends size capacityBytes _ _ _ (by omega) (Nat.succ_pos _)

theorem UpReturns.unique {start size capacityBytes base : Int} {spans : List Span}
    (h : UpReturns start size spans capacityBytes base) :
    base = firstFree start size spans capacityBytes := by
  obtain ⟨moved, h⟩ := h
  obtain ⟨moved', h'⟩ := firstFree_returns start size spans capacityBytes
  exact congrArg Prod.fst (h.unique h')

end AlpSdk.Orchestrate.Partition

namespace AlpSdk.Orchestrate

-- Below the floor there is no room, and past the capacity there is none.
theorem gap_search_exact {size : Int} (hsize : 0 < size) :
    (∀ (spans : List Span) (top floor : Int), (∀ s ∈ spans, s.lo < s.hi) →
      ∃! base, DownReturns top size spans floor base ∧
        (floor ≤ base → IsGreatest (DownGaps spans size top) base) ∧
        (base < floor → ∀ b ∈ DownGaps spans size top, ¬ floor ≤ b)) ∧
    ∀ (spans : List Partition.Span) (start capacityBytes : Int), (∀ s ∈ spans, s.lo < s.hi) →
      start % PAGE = 0 →
      ∃! base, Partition.UpReturns start size spans capacityBytes base ∧
        (base < capacityBytes → IsLeast (Partition.UpGaps spans size start) base) ∧
        (capacityBytes ≤ base → ∀ b ∈ Partition.UpGaps spans size start, ¬ b < capacityBytes) ∧
        (capacityBytes < base + size →
          ∀ b ∈ Partition.UpGaps spans size start, ¬ b + size ≤ capacityBytes) := by
  refine ⟨fun spans top floor hspans => ?_, fun spans start capacityBytes hspans hstart => ?_⟩
  · have hupper : ∀ b ∈ DownGaps spans size top, b ≤ firstFreeDown top size spans floor :=
      fun b hb => le_firstFreeDown hsize hspans hb
    refine ⟨firstFreeDown top size spans floor, ⟨firstFreeDown_returns .., ?_, ?_⟩, fun base h => h.1.unique⟩
    · intro hfloor
      exact ⟨firstFreeDown_mem hsize hspans hfloor, hupper⟩
    · intro hlow b hb hfloor
      have hle := hupper b hb
      omega
  · have hlower : ∀ b ∈ Partition.UpGaps spans size start,
        Partition.firstFree start size spans capacityBytes ≤ b :=
      fun b hb => Partition.firstFree_le hsize hspans hb
    refine ⟨Partition.firstFree start size spans capacityBytes,
      ⟨Partition.firstFree_returns .., ?_, ?_, ?_⟩, fun base h => h.1.unique⟩
    · intro hroom
      exact ⟨Partition.firstFree_mem hsize hspans hstart hroom, hlower⟩
    · intro hfull b hb hroom
      have hle := hlower b hb
      omega
    · intro hfull b hb hroom
      have hle := hlower b hb
      omega

theorem gap_search_exact_page :
    (∃! base, DownReturns 0x9000 0x1000 [⟨0x7800, 0x8800, "pin"⟩] 0x1000 base ∧
      (0x1000 ≤ base → IsGreatest (DownGaps [⟨0x7800, 0x8800, "pin"⟩] 0x1000 0x9000) base) ∧
      (base < 0x1000 → ∀ b ∈ DownGaps [⟨0x7800, 0x8800, "pin"⟩] 0x1000 0x9000, ¬ 0x1000 ≤ b)) ∧
    ∃! base, Partition.UpReturns 0x2000 0x1000 [⟨0x2800, 0x3800, "log"⟩] 0x8000 base ∧
      (base < 0x8000 → IsLeast (Partition.UpGaps [⟨0x2800, 0x3800, "log"⟩] 0x1000 0x2000) base) ∧
      (0x8000 ≤ base → ∀ b ∈ Partition.UpGaps [⟨0x2800, 0x3800, "log"⟩] 0x1000 0x2000, ¬ b < 0x8000) ∧
      (0x8000 < base + 0x1000 →
        ∀ b ∈ Partition.UpGaps [⟨0x2800, 0x3800, "log"⟩] 0x1000 0x2000, ¬ b + 0x1000 ≤ 0x8000) :=
  ⟨(gap_search_exact (by decide : (0 : Int) < 0x1000)).1 [⟨0x7800, 0x8800, "pin"⟩] 0x9000 0x1000 (by decide),
    (gap_search_exact (by decide : (0 : Int) < 0x1000)).2 [⟨0x2800, 0x3800, "log"⟩] 0x2000 0x8000 (by decide)
      (by decide)⟩

end AlpSdk.Orchestrate
