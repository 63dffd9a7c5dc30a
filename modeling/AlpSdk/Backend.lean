import AlpSdk.Library.Ranked
import Mathlib.Data.List.Lex
import Mathlib.Data.Prod.Lex

-- The choice of a backend for a class (src/backend.c).
namespace AlpSdk.Backend

open Library.Ranked

-- A string without its terminator; the NULL pointer is `none`.
abbrev CString : Type := List UInt8

def strcmp : CString → CString → Int
  | [], [] => 0
  | [], _ :: _ => -1
  | _ :: _, [] => 1
  | a :: as, b :: bs => if a = b then strcmp as bs else (a.toNat : Int) - b.toNat

-- `alp_backend_t`, as far as the choice looks at it.
structure Entry where
  siliconRef : Option CString
  vendor : Option CString
  priority : UInt8

-- A pointer into the section of a class: the entry it points to, and its place there.
abbrev Ptr : Type := Entry × Nat

-- `alp_backend_class_range_t`
structure ClassRange where
  className : CString
  range : List Entry

def isWildcard (be : Entry) : Bool := be.siliconRef == some [0x2A]

def candidateBeatsBest (cand best : Entry) : Bool :=
  if cand.priority ≠ best.priority then decide (best.priority < cand.priority)
  else
    let candWild := isWildcard cand
    let bestWild := isWildcard best
    if candWild ≠ bestWild then !candWild
    else
      match cand.vendor, best.vendor with
      | none, _ => false
      | some _, none => true
      | some candVendor, some bestVendor => decide (strcmp candVendor bestVendor < 0)

def isMatch (siliconRef : Option CString) (be : Entry) : Bool :=
  let exact := match be.siliconRef, siliconRef with
    | some ref, some wanted => decide (strcmp ref wanted = 0)
    | _, _ => false
  isWildcard be || exact

-- One round of the walk over a range.
def consider (siliconRef : Option CString) (prev best : Option Ptr) (be : Ptr) : Option Ptr :=
  if !isMatch siliconRef be.1 then best
  else
    let tried := match prev with
      | none => false
      | some prev => be.2 == prev.2 || !candidateBeatsBest prev.1 be.1
    if tried then best
    else
      match best with
      | none => some be
      | some b => if candidateBeatsBest be.1 b.1 then some be else best

def selectInRange (range : List Entry) (siliconRef : Option CString) (prev : Option Ptr) : Option Ptr :=
  range.zipIdx.foldl (consider siliconRef prev) none

def selectNext (classes : List ClassRange) (className siliconRef : Option CString) (prev : Option Ptr) :
    Option Ptr :=
  match className, siliconRef with
  | some name, some ref =>
      match classes.find? fun c => decide (strcmp c.className name = 0) with
      | none => none
      | some c => selectInRange c.range (some ref) prev
  | _, _ => none

def select (classes : List ClassRange) (className siliconRef : Option CString) : Option Ptr :=
  selectNext classes className siliconRef none

-- `alp_backend_select`, and then `alp_backend_select_next` from each answer but NULL.
def visit (classes : List ClassRange) (className siliconRef : Option CString) : Nat → Option Ptr
  | 0 => select classes className siliconRef
  | n + 1 =>
      match visit classes className siliconRef n with
      | none => none
      | some be => selectNext classes className siliconRef (some be)

-- The documented order: the higher priority, then the exact match, then the lower vendor string,
-- where no vendor is last.
abbrev Rank : Type := ℕᵒᵈ ×ₗ Bool ×ₗ WithTop (List ℕ)

def vendorRank (vendor : Option CString) : WithTop (List ℕ) :=
  match vendor with
  | none => ⊤
  | some v => (v.map UInt8.toNat : List ℕ)

def rank (be : Entry) : Rank :=
  toLex (OrderDual.toDual be.priority.toNat, toLex (isWildcard be, vendorRank be.vendor))

theorem strcmp_neg {a b : CString} : strcmp a b < 0 ↔ a.map UInt8.toNat < b.map UInt8.toNat := by
  induction a generalizing b with
  | nil => cases b <;> simp [strcmp]
  | cons x xs ih =>
      cases b with
      | nil => simp [strcmp]
      | cons y ys =>
          by_cases h : x = y
          · simp [strcmp, h, ih]
          · have hne : x.toNat ≠ y.toNat := fun heq => h (UInt8.toNat_inj.mp heq)
            simp only [strcmp, h, if_false, List.map_cons, List.cons_lt_cons_iff, hne, false_and, or_false]
            omega

theorem vendor_lt {a b : Option CString} : vendorRank a < vendorRank b ↔
    (match a, b with
      | none, _ => False
      | some _, none => True
      | some a, some b => strcmp a b < 0) := by
  cases a with
  | none => simp [vendorRank]
  | some a =>
      cases b with
      | none => simp [vendorRank]
      | some b => simp [vendorRank, strcmp_neg]

theorem rank_lt {a b : Entry} : rank a < rank b ↔ b.priority < a.priority ∨ a.priority = b.priority ∧
    (isWildcard a < isWildcard b ∨ isWildcard a = isWildcard b ∧ vendorRank a.vendor < vendorRank b.vendor) := by
  simp only [rank, Prod.Lex.toLex_lt_toLex, OrderDual.toDual_lt_toDual, OrderDual.toDual_inj, UInt8.toNat_inj,
    UInt8.lt_iff_toNat_lt]

theorem candidateBeatsBest_iff {cand best : Entry} : candidateBeatsBest cand best = true ↔ rank cand < rank best := by
  rw [rank_lt, candidateBeatsBest]
  by_cases hpriority : cand.priority = best.priority
  · rw [if_neg (not_not.mpr hpriority)]
    simp only [hpriority, true_and]
    cases hcand : isWildcard cand <;> cases hbest : isWildcard best
    all_goals simp only [vendor_lt]
    all_goals cases cand.vendor <;> cases best.vendor <;> simp
  · rw [if_pos hpriority]
    simp [hpriority]

theorem rank_injective {a b : Entry} (h : rank a = rank b) :
    a.priority = b.priority ∧ isWildcard a = isWildcard b ∧ a.vendor = b.vendor := by
  simp only [rank, toLex_inj, Prod.mk.injEq, OrderDual.toDual_inj, UInt8.toNat_inj] at h
  obtain ⟨hpriority, hwild, hvendor⟩ := h
  refine ⟨hpriority, hwild, ?_⟩
  cases ha : a.vendor with
  | none =>
      cases hb : b.vendor with
      | none => rfl
      | some b => simp [vendorRank, ha, hb] at hvendor
  | some v =>
      cases hb : b.vendor with
      | none => simp [vendorRank, ha, hb] at hvendor
      | some w =>
          simp only [vendorRank, ha, hb, WithTop.coe_inj] at hvendor
          have hinj : Function.Injective UInt8.toNat := fun x y hxy => UInt8.toNat_inj.mp hxy
          rw [List.map_injective_iff.mpr hinj hvendor]

-- The range that a class name stands for.
def rangeOf (classes : List ClassRange) (name : CString) : Option (List Entry) :=
  (classes.find? fun c => decide (strcmp c.className name = 0)).map ClassRange.range

def isCandidate (siliconRef : Option CString) (be : Entry) : Bool := siliconRef.isSome && isMatch siliconRef be

-- No two entries agree on priority, wildcard-ness and vendor.
def Distinct (range : List Entry) : Prop :=
  range.Pairwise fun a b => ¬ (a.priority = b.priority ∧ isWildcard a = isWildcard b ∧ a.vendor = b.vendor)

section Walk

variable {classes : List ClassRange} {name : CString} {range : List Entry} {siliconRef : Option CString}

abbrev ptrRank (be : Ptr) : Rank := rank be.1

def candidates (siliconRef : Option CString) (range : List Entry) : List Ptr :=
  range.zipIdx.filter fun be => isCandidate siliconRef be.1

theorem nodup_rank (h : Distinct range) : (range.map rank).Nodup := by
  rw [List.Nodup, List.pairwise_map]
  exact h.imp fun hdiffer heq => hdiffer (rank_injective heq)

theorem nodup_ptrRank (h : Distinct range) : ((candidates siliconRef range).map ptrRank).Nodup := by
  have hzip : (range.zipIdx.map ptrRank).Nodup := by
    have hmap : range.zipIdx.map ptrRank = range.map rank := by
      have hcomp : ptrRank = rank ∘ Prod.fst := rfl
      rw [hcomp, ← List.map_map, List.zipIdx_map_fst]
    rw [hmap]
    exact nodup_rank h
  exact hzip.sublist (List.filter_sublist.map ptrRank)

-- The walk finds the best of the entries that it considers.
theorem selectInRange_eq (range : List Entry) (siliconRef : Option CString) (prev : Option Ptr) :
    selectInRange range siliconRef prev = least ptrRank (range.zipIdx.filter fun be =>
      isMatch siliconRef be.1 && prev.all fun p => be.2 != p.2 && candidateBeatsBest p.1 be.1) := by
  have hround : consider siliconRef prev = fun best be =>
      if (isMatch siliconRef be.1 && prev.all fun p => be.2 != p.2 && candidateBeatsBest p.1 be.1) = true then
        better ptrRank best be else best := by
    funext best be
    have hbetter : better ptrRank best be = (match best with
        | none => some be
        | some b => if candidateBeatsBest be.1 b.1 then some be else best) := by
      cases best with
      | none => rfl
      | some b => simp only [better, ← candidateBeatsBest_iff]
    rw [hbetter]
    unfold consider
    cases hmatch : isMatch siliconRef be.1 with
    | false => simp
    | true =>
        cases prev with
        | none => simp
        | some p => cases heq : be.2 == p.2 <;> cases hbeats : candidateBeatsBest p.1 be.1 <;> simp_all
  rw [selectInRange, hround, least, List.foldl_filter]

theorem selectNext_eq (hrange : rangeOf classes name = some range) (ref : CString) (prev : Option Ptr) :
    selectNext classes (some name) (some ref) prev = selectInRange range (some ref) prev := by
  unfold rangeOf at hrange
  unfold selectNext
  cases hfind : classes.find? fun c => decide (strcmp c.className name = 0) with
  | none => simp [hfind] at hrange
  | some c =>
      rw [hfind] at hrange
      obtain rfl := Option.some.inj hrange
      simp only [hfind]

theorem candidates_none (range : List Entry) : candidates none range = [] := by
  simp [candidates, isCandidate]

theorem select_eq (hrange : rangeOf classes name = some range) :
    select classes (some name) siliconRef = least ptrRank (candidates siliconRef range) := by
  cases siliconRef with
  | none => rw [candidates_none]; rfl
  | some ref =>
      rw [select, selectNext_eq hrange, selectInRange_eq]
      simp [candidates, isCandidate]

theorem eq_of_place {range : List Entry} {p q : Ptr} (hp : p ∈ range.zipIdx) (hq : q ∈ range.zipIdx)
    (h : p.2 = q.2) : p = q := by
  have hp' := List.mem_zipIdx_iff_getElem?.mp hp
  have hq' := List.mem_zipIdx_iff_getElem?.mp hq
  rw [h, hq'] at hp'
  exact Prod.ext (Option.some.inj hp').symm h

theorem selectNext_above (hrange : rangeOf classes name = some range) {p : Ptr}
    (hp : p ∈ candidates siliconRef range) : selectNext classes (some name) siliconRef (some p) =
      least ptrRank ((candidates siliconRef range).filter fun be => decide (ptrRank p < ptrRank be)) := by
  cases siliconRef with
  | none => rw [candidates_none] at hp; cases hp
  | some ref =>
      rw [selectNext_eq hrange, selectInRange_eq, candidates, List.filter_filter]
      congr 1
      refine List.filter_congr fun be hbe => ?_
      have hplace := eq_of_place hbe (List.mem_of_mem_filter hp)
      have hbeats : candidateBeatsBest p.1 be.1 = decide (ptrRank p < ptrRank be) := by
        rw [Bool.eq_iff_iff, decide_eq_true_iff]
        exact candidateBeatsBest_iff
      have hbelow : (be.2 != p.2 && decide (ptrRank p < ptrRank be)) = decide (ptrRank p < ptrRank be) := by
        by_cases hsame : be.2 = p.2
        · rw [hplace hsame]
          simp
        · simp [hsame]
      simp only [Option.all_some, hbeats, hbelow, isCandidate, Option.isSome_some, Bool.true_and, Bool.and_comm]

theorem select_entry (hrange : rangeOf classes name = some range) :
    (select classes (some name) siliconRef).map Prod.fst = least rank (range.filter (isCandidate siliconRef)) := by
  have hentries : (candidates siliconRef range).map Prod.fst = range.filter (isCandidate siliconRef) := by
    have hfilter := List.filter_map (f := Prod.fst) (p := isCandidate siliconRef) (l := range.zipIdx)
    rw [List.zipIdx_map_fst] at hfilter
    exact hfilter.symm
  rw [select_eq hrange, ← hentries]
  exact least_map Prod.fst _

-- The choice does not depend on the order of the range, and walking on from it visits every
-- candidate once, from the highest rank to the lowest.
theorem select_walk (hrange : rangeOf classes name = some range) (hdistinct : Distinct range)
    (siliconRef : Option CString) :
    (∀ classes' range', rangeOf classes' name = some range' → range'.Perm range →
      (select classes' (some name) siliconRef).map Prod.fst = (select classes (some name) siliconRef).map Prod.fst) ∧
    ∃ visited : List Ptr, visited.Perm (candidates siliconRef range) ∧
      visited.Pairwise (fun a b => rank a.1 < rank b.1) ∧
      ∀ n, visit classes (some name) siliconRef n = visited[n]? := by
  constructor
  · intro classes' range' hrange' hperm
    have hnodup : (range.map rank).Nodup := nodup_rank hdistinct
    rw [select_entry hrange, select_entry hrange']
    refine (least_perm (hperm.symm.filter _) fun a ha b hb heq => ?_).symm
    exact List.inj_on_of_nodup_map hnodup (List.mem_of_mem_filter ha) (List.mem_of_mem_filter hb) heq
  · have hranks : ((candidates siliconRef range).map ptrRank).Nodup := nodup_ptrRank hdistinct
    obtain ⟨visited, hperm, hsorted⟩ := exists_sorted _ hranks
    refine ⟨visited, hperm, hsorted, fun n => ?_⟩
    induction n with
    | zero =>
        rw [visit, select_eq hrange]
        exact least_of_sorted hperm hsorted
    | succ n ih =>
        rw [visit, ih]
        by_cases hn : n < visited.length
        · rw [List.getElem?_eq_getElem hn]
          dsimp only
          rw [selectNext_above hrange (hperm.mem_iff.mp (List.getElem_mem hn))]
          exact least_above hperm hsorted hn
        · rw [List.getElem?_eq_none (by omega), List.getElem?_eq_none (by omega)]

end Walk

-- A range of two vendors, no vendor, and a wildcard of a higher priority.
theorem select_walk_mixed :
    let class' : ClassRange := {
      className := [0x6D]
      range := [⟨some [0x76, 0x32], none, 5⟩, ⟨some [0x76, 0x32], some [0x62], 5⟩, ⟨some [0x2A], none, 9⟩,
        ⟨some [0x76, 0x32], some [0x61], 5⟩, ⟨some [0x75], some [0x61], 7⟩] }
    ∃ visited : List Ptr, visited.Perm (candidates (some [0x76, 0x32]) class'.range) ∧
      visited.Pairwise (fun a b => rank a.1 < rank b.1) ∧
      ∀ n, visit [class'] (some [0x6D]) (some [0x76, 0x32]) n = visited[n]? := by
  intro class'
  have hdistinct : Distinct class'.range := by
    unfold Distinct
    simp only [class', List.pairwise_cons]
    decide
  exact (select_walk rfl hdistinct (some [0x76, 0x32])).2

end AlpSdk.Backend
