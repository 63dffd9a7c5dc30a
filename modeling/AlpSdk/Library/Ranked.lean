import Mathlib.Data.List.Sort
import Mathlib.Order.WithBot
import Mathlib.Data.List.Nodup

namespace Library.Ranked

-- The least entry of a list by a key, the first one where several are least.
section Least

variable {α κ : Type} [LinearOrder κ] (key : α → κ)

def better (best : Option α) (a : α) : Option α :=
  match best with
  | none => some a
  | some b => if key a < key b then some a else some b

def least (l : List α) : Option α := l.foldl (better key) none

-- `b` is the first of the least entries.
def First (l : List α) (b : α) : Prop :=
  ∃ before after, l = before ++ b :: after ∧ (∀ a ∈ before, key b < key a) ∧ ∀ a ∈ after, key b ≤ key a

variable {key}

theorem First.mem {l : List α} {b : α} (h : First key l b) : b ∈ l := by
  obtain ⟨before, after, rfl, -, -⟩ := h
  simp

theorem First.le {l : List α} {b a : α} (h : First key l b) (ha : a ∈ l) : key b ≤ key a := by
  obtain ⟨before, after, rfl, hbefore, hafter⟩ := h
  rcases List.mem_append.mp ha with hmem | hmem
  · exact (hbefore a hmem).le
  · rcases List.mem_cons.mp hmem with rfl | hmem
    · exact le_rfl
    · exact hafter a hmem

theorem first_foldl {l : List α} {b : α} (before : List α) (h : First key before b) :
    ∃ c, l.foldl (better key) (some b) = some c ∧ First key (before ++ l) c := by
  induction l generalizing before b with
  | nil => exact ⟨b, rfl, by simpa using h⟩
  | cons a rest ih =>
      have happend : before ++ a :: rest = (before ++ [a]) ++ rest := by simp
      rw [List.foldl_cons, happend]
      by_cases hlt : key a < key b
      · have hnext : better key (some b) a = some a := if_pos hlt
        rw [hnext]
        exact ih (before ++ [a]) ⟨before, [], rfl, fun c hc => hlt.trans_le (h.le hc), by simp⟩
      · have hnext : better key (some b) a = some b := if_neg hlt
        rw [hnext]
        obtain ⟨pre, post, rfl, hpre, hpost⟩ := h
        refine ih _ ⟨pre, post ++ [a], by simp, hpre, fun c hc => ?_⟩
        rcases List.mem_append.mp hc with hc | hc
        · exact hpost c hc
        · obtain rfl := List.mem_singleton.mp hc
          exact not_lt.mp hlt

theorem least_cons (key : α → κ) (a : α) (l : List α) : ∃ c, least key (a :: l) = some c ∧ First key (a :: l) c :=
  first_foldl [a] ⟨[], [], rfl, by simp, by simp⟩

theorem first_of_least {l : List α} {b : α} (h : least key l = some b) : First key l b := by
  cases l with
  | nil => cases h
  | cons a rest =>
      obtain ⟨c, hc, hfirst⟩ := least_cons key a rest
      obtain rfl := Option.some.inj (hc.symm.trans h)
      exact hfirst

theorem least_eq_none {l : List α} : least key l = none ↔ l = [] := by
  cases l with
  | nil => simp [least]
  | cons a rest =>
      obtain ⟨c, hc, -⟩ := least_cons key a rest
      simp [hc]

-- With keys that differ there is one least entry.
theorem least_eq_some {l : List α} {b : α} (hinj : ∀ a ∈ l, key a = key b → a = b) (hb : b ∈ l)
    (hle : ∀ a ∈ l, key b ≤ key a) : least key l = some b := by
  cases hleast : least key l with
  | none =>
      rw [least_eq_none.mp hleast] at hb
      cases hb
  | some c =>
      have hfirst := first_of_least hleast
      have hsame := hinj c hfirst.mem (le_antisymm (hfirst.le hb) (hle c hfirst.mem))
      rw [hsame]

theorem least_perm {l l' : List α} (hperm : l.Perm l') (hinj : ∀ a ∈ l, ∀ b ∈ l, key a = key b → a = b) :
    least key l = least key l' := by
  cases hleast : least key l with
  | none =>
      rw [least_eq_none.mp hleast] at hperm
      rw [hperm.nil_eq.symm]
      rfl
  | some b =>
      have hfirst := first_of_least hleast
      refine (least_eq_some (fun a ha heq => ?_) (hperm.mem_iff.mp hfirst.mem) fun a ha => ?_).symm
      · exact hinj a (hperm.mem_iff.mpr ha) b hfirst.mem heq
      · exact hfirst.le (hperm.mem_iff.mpr ha)

theorem least_map {β : Type} (f : β → α) (l : List β) :
    (least (fun b => key (f b)) l).map f = least key (l.map f) := by
  have hfold : ∀ best : Option β, (l.foldl (better fun b => key (f b)) best).map f =
      (l.map f).foldl (better key) (best.map f) := by
    induction l with
    | nil => exact fun best => rfl
    | cons b rest ih =>
        intro best
        have hstep : (better (fun b => key (f b)) best b).map f = better key (best.map f) (f b) := by
          cases best with
          | none => rfl
          | some c => by_cases h : key (f b) < key (f c) <;> simp [better, h]
        rw [List.foldl_cons, ih, hstep]
        rfl
  exact hfold none

end Least

-- One least entry after another, each above the one before.
section Enumerate

variable {α κ : Type} [LinearOrder κ] {key : α → κ}

theorem exists_sorted (l : List α) (h : (l.map key).Nodup) :
    ∃ v : List α, v.Perm l ∧ v.Pairwise fun a b => key a < key b := by
  have htotal : Std.Total (fun a b : α => key a ≤ key b) := ⟨fun a b => le_total (key a) (key b)⟩
  have htrans : IsTrans α (fun a b => key a ≤ key b) := ⟨fun _ _ _ => le_trans⟩
  refine ⟨l.insertionSort fun a b => key a ≤ key b, List.perm_insertionSort _ l, ?_⟩
  have hsorted := List.pairwise_insertionSort (fun a b : α => key a ≤ key b) l
  have hnodup : ((l.insertionSort fun a b => key a ≤ key b).map key).Nodup :=
    ((List.perm_insertionSort _ l).map key).nodup_iff.mpr h
  rw [List.Nodup, List.pairwise_map] at hnodup
  exact (hsorted.and hnodup).imp fun h => lt_of_le_of_ne h.1 h.2

theorem least_of_sorted {l v : List α} (hperm : v.Perm l) (hsorted : v.Pairwise fun a b => key a < key b) :
    least key l = v[0]? := by
  cases v with
  | nil => rw [hperm.nil_eq.symm]; rfl
  | cons b rest =>
      obtain ⟨hfirst, -⟩ := List.pairwise_cons.mp hsorted
      have hcases : ∀ a ∈ l, a = b ∨ key b < key a := by
        intro a ha
        rcases List.mem_cons.mp (hperm.mem_iff.mpr ha) with rfl | hrest
        · exact .inl rfl
        · exact .inr (hfirst a hrest)
      refine least_eq_some (fun a ha heq => ?_) (hperm.mem_iff.mp List.mem_cons_self) fun a ha => ?_
      · exact (hcases a ha).resolve_right fun hlt => absurd heq hlt.ne'
      · obtain rfl | hlt := hcases a ha
        · exact le_rfl
        · exact hlt.le

-- The entries above the one at `i` are those after it.
theorem filter_above {v : List α} (hsorted : v.Pairwise fun a b => key a < key b) {i : Nat} (hi : i < v.length) :
    v.filter (fun a => decide (key v[i] < key a)) = v.drop (i + 1) := by
  induction v generalizing i with
  | nil => cases hi
  | cons b rest ih =>
      obtain ⟨hfirst, hrest⟩ := List.pairwise_cons.mp hsorted
      cases i with
      | zero =>
          have hall : rest.filter (fun a => decide (key b < key a)) = rest := by
            rw [List.filter_eq_self]
            exact fun a ha => decide_eq_true (hfirst a ha)
          simpa using hall
      | succ i =>
          have hlt : i < rest.length := Nat.lt_of_succ_lt_succ hi
          have hnot : ¬ key rest[i] < key b := (hfirst _ (List.getElem_mem hlt)).le.not_gt
          simpa [hnot] using ih hrest hlt

theorem least_above {l v : List α} (hperm : v.Perm l) (hsorted : v.Pairwise fun a b => key a < key b) {i : Nat}
    (hi : i < v.length) : least key (l.filter fun a => decide (key v[i] < key a)) = v[i + 1]? := by
  have hfilter := hperm.filter fun a => decide (key v[i] < key a)
  rw [filter_above hsorted hi] at hfilter
  have hleast := least_of_sorted hfilter (hsorted.sublist (List.drop_sublist _ _))
  rw [hleast, List.getElem?_drop, Nat.add_zero]

end Enumerate

end Library.Ranked
