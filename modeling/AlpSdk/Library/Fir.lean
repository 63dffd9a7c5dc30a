import Mathlib.Algebra.BigOperators.Group.Finset.Basic
import Mathlib.Algebra.BigOperators.Intervals
import Mathlib.Tactic.Linarith
import Mathlib.Tactic.Ring

namespace Library.Fir

variable {α : Type} {n : ℕ}

-- A double-length circular history. `next` is the slot the next sample goes to, and the `n`
-- latest samples stand contiguously from there, the oldest first.
def store (cells : Vector α (2 * n)) (next : Fin n) (sample : α) : Vector α (2 * n) :=
  (cells.set next.val sample (by omega)).set (next.val + n) sample (by omega)

def advance (next : Fin n) : Fin n :=
  if h : next.val + 1 = n then ⟨0, by omega⟩ else ⟨next.val + 1, by omega⟩

def window (cells : Vector α (2 * n)) (next : Fin n) (j : Fin n) : α :=
  cells[next.val + j.val]

-- The stream `x` delayed by `n`, with `zero` before its start.
def delayed (zero : α) (x : ℕ → α) (n t : ℕ) : α :=
  if t < n then zero else x (t - n)

-- The history after the first `t` samples of `x`: both halves agree, and the window is
-- the last `n` samples.
structure Holds (zero : α) (x : ℕ → α) (t : ℕ) (cells : Vector α (2 * n)) (next : Fin n) :
    Prop where
  mirrored : ∀ i : Fin n, cells[i.val] = cells[i.val + n]
  latest : ∀ j : Fin n, window cells next j = delayed zero x n (t + j)

theorem store_get (cells : Vector α (2 * n)) (next : Fin n) (sample : α) (i : ℕ)
    (hi : i < 2 * n) :
    (store cells next sample)[i] =
      if i = next.val ∨ i = next.val + n then sample else cells[i] := by
  unfold store
  rw [Vector.getElem_set, Vector.getElem_set]
  by_cases hhigh : next.val + n = i
  · rw [if_pos hhigh, if_pos (Or.inr hhigh.symm)]
  · rw [if_neg hhigh]
    by_cases hlow : next.val = i
    · rw [if_pos hlow, if_pos (Or.inl hlow.symm)]
    · rw [if_neg hlow, if_neg (fun h => h.elim (fun h => hlow h.symm) (fun h => hhigh h.symm))]

theorem Holds.zeroed (zero : α) (x : ℕ → α) (next : Fin n) :
    Holds zero x 0 (Vector.replicate (2 * n) zero) next where
  mirrored := by
    intro i
    simp
  latest := by
    intro j
    simp [window, delayed]

theorem Holds.of_agree {zero : α} {x y : ℕ → α} {t : ℕ} {cells : Vector α (2 * n)}
    {next : Fin n} (h : Holds zero x t cells next) (hxy : ∀ i < t, x i = y i) :
    Holds zero y t cells next where
  mirrored := h.mirrored
  latest := by
    intro j
    rw [h.latest j]
    unfold delayed
    by_cases hj : t + j.val < n
    · rw [if_pos hj, if_pos hj]
    · rw [if_neg hj, if_neg hj]
      exact hxy _ (by omega)

-- One sample: the window moves on by one and ends in it.
theorem Holds.store {zero : α} {x : ℕ → α} {t : ℕ} {cells : Vector α (2 * n)} {next : Fin n}
    (h : Holds zero x t cells next) :
    Holds zero x (t + 1) (store cells next (x t)) (advance next) where
  mirrored := by
    intro i
    rw [store_get, store_get]
    by_cases hi : i.val = next.val
    · rw [if_pos (Or.inl hi), if_pos (Or.inr (by omega))]
    · rw [if_neg (by omega), if_neg (by omega)]
      exact h.mirrored i
  latest := by
    intro j
    have hj := j.isLt
    have hnew : delayed zero x n (t + 1 + (n - 1)) = x t := by
      unfold delayed
      rw [if_neg (by omega)]
      congr 1
      omega
    unfold window advance
    by_cases hwrap : next.val + 1 = n
    · simp only [dif_pos hwrap]
      rw [store_get]
      by_cases hlast : j.val = n - 1
      · rw [if_pos (by omega), hlast, hnew]
      · -- The window has moved to the lower half, where the same samples stand mirrored.
        rw [if_neg (by omega)]
        have hslot := h.latest ⟨j.val + 1, by omega⟩
        have hmirror := h.mirrored j
        unfold window at hslot
        simp only at hslot
        have hsame : cells[0 + j.val] = cells[next.val + (j.val + 1)] := by
          rw [show cells[0 + j.val] = cells[j.val] from by congr 1; omega, hmirror]
          congr 1
          omega
        rw [hsame, hslot]
        congr 1
        omega
    · simp only [dif_neg hwrap]
      rw [store_get]
      by_cases hlast : j.val = n - 1
      · rw [if_pos (by omega), hlast, hnew]
      · rw [if_neg (by omega)]
        have hslot := h.latest ⟨j.val + 1, by omega⟩
        unfold window at hslot
        simp only at hslot
        have hsame : cells[next.val + 1 + j.val] = cells[next.val + (j.val + 1)] := by
          congr 1
          omega
        rw [hsame, hslot]
        congr 1
        omega

-- A sum against symmetric coefficients, folded around its middle.
theorem folded_sum (c w : ℕ → ℤ) (m : ℕ) (hsym : ∀ j < m, c (2 * m - j) = c j) :
    ∑ j ∈ Finset.range (2 * m + 1), c j * w j =
      c m * w m + ∑ j ∈ Finset.range m, c j * (w j + w (2 * m - j)) := by
  have hsplit : ∑ j ∈ Finset.range (2 * m + 1), c j * w j =
      ∑ j ∈ Finset.range m, c j * w j +
        ∑ j ∈ Finset.range (m + 1), c (m + j) * w (m + j) := by
    rw [← Finset.sum_range_add_sum_Ico _ (show m ≤ 2 * m + 1 by omega),
      Finset.sum_Ico_eq_sum_range, show 2 * m + 1 - m = m + 1 by omega]
  have hupper : ∑ j ∈ Finset.range (m + 1), c (m + j) * w (m + j) =
      c m * w m + ∑ j ∈ Finset.range m, c j * w (2 * m - j) := by
    rw [Finset.sum_range_succ', add_comm, ← Finset.sum_range_reflect]
    congr 1
    apply Finset.sum_congr rfl
    intro j hj
    have hjm := Finset.mem_range.mp hj
    rw [show m + (m - 1 - j + 1) = 2 * m - j by omega, hsym j hjm]
  rw [hsplit, hupper]
  simp only [mul_add, Finset.sum_add_distrib]
  ring

-- Accumulation in 64 bits is exact while no partial sum leaves them.
theorem accumulate_exact {ι : Type} (f : ι → Int64) (bound : ℤ) (items : List ι)
    (hf : ∀ i ∈ items, |(f i).toInt| ≤ bound) (acc : Int64)
    (hfits : |acc.toInt| + items.length * bound < 2 ^ 63) :
    (items.foldl (fun acc i => acc + f i) acc).toInt =
      acc.toInt + (items.map fun i => (f i).toInt).sum := by
  induction items generalizing acc with
  | nil => simp
  | cons i items ih =>
      have hi := hf i (by simp)
      have hrest : 0 ≤ items.length * bound :=
        mul_nonneg (by positivity) (le_trans (abs_nonneg _) hi)
      have hlen : ((i :: items).length : ℤ) * bound = items.length * bound + bound := by
        simp only [List.length_cons]
        push_cast
        ring
      have habs := abs_add_le acc.toInt (f i).toInt
      have hsum : (acc + f i).toInt = acc.toInt + (f i).toInt := by
        rw [Int64.toInt_add]
        apply Int.bmod_eq_of_le
        · have := neg_abs_le (acc.toInt + (f i).toInt)
          omega
        · have := le_abs_self (acc.toInt + (f i).toInt)
          omega
      rw [List.foldl_cons, ih (fun k hk => hf k (by simp [hk])) _ (by rw [hsum]; omega), hsum]
      simp only [List.map_cons, List.sum_cons]
      ring

-- Writing values one after another from slot `start` on.
theorem write_run {ι : Type} (pos : ι → ℕ) (value : ι → α) (items : List ι) (out : List α)
    (start : ℕ) (hpos : items.map pos = List.range' start items.length)
    (hroom : start + items.length ≤ out.length) :
    items.foldl (fun out i => out.set (pos i) (value i)) out =
      out.take start ++ items.map value ++ out.drop (start + items.length) := by
  induction items generalizing out start with
  | nil => simp
  | cons i items ih =>
      simp only [List.map_cons, List.length_cons, List.range'_succ, List.cons.injEq] at hpos hroom
      rw [List.foldl_cons, ih _ (start + 1) hpos.2 (by simp; omega), hpos.1]
      have htake : (out.set start (value i)).take (start + 1) = out.take start ++ [value i] := by
        rw [List.take_add_one, List.take_set_of_le (Nat.le_refl start)]
        simp [show start < out.length by omega]
      have hdrop : (out.set start (value i)).drop (start + 1 + items.length) =
          out.drop (start + (items.length + 1)) := by
        rw [List.drop_set_of_lt (by omega)]
        congr 1
        omega
      rw [htake, hdrop]
      simp

end Library.Fir
