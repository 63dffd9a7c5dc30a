import Mathlib.Data.Nat.ModEq
import Mathlib.Tactic.Common

-- Data taken in blocks of one size: all at once, and element by element with a buffer.
namespace Library.Blocks

variable {β σ : Type}

-- The block with number `i`.
def block (n i : Nat) (data : List β) : List β := (data.drop (n * i)).take n

-- Every whole block in turn. What is left of the last one is not used.
def run (n : Nat) (f : σ → List β → σ) (s : σ) (data : List β) : σ :=
  (List.range (data.length / n)).foldl (fun s i => f s (block n i data)) s

section Run

variable {n : Nat} {f : σ → List β → σ} {s : σ} {data more : List β}

theorem block_append_left {i : Nat} (hi : i < data.length / n) :
    block n i (data ++ more) = block n i data := by
  have hend : n * i + n ≤ data.length := by
    calc n * i + n = n * (i + 1) := by rw [Nat.mul_succ]
      _ ≤ n * (data.length / n) := Nat.mul_le_mul_left n hi
      _ ≤ data.length := Nat.mul_div_le _ _
  rw [block, block, List.drop_append_of_le_length (by omega), List.take_append_of_le_length]
  rw [List.length_drop]
  omega

theorem block_append_right (hdvd : n ∣ data.length) (i : Nat) :
    block n (data.length / n + i) (data ++ more) = block n i more := by
  have hstart : n * (data.length / n + i) = data.length + n * i := by
    rw [Nat.mul_add, Nat.mul_div_cancel' hdvd]
  rw [block, block, hstart, List.drop_length_add_append]

theorem run_short (h : data.length < n) : run n f s data = s := by
  rw [run, Nat.div_eq_of_lt h]
  rfl

-- Blocks before and after a place that no block crosses.
theorem run_append (hdvd : n ∣ data.length) :
    run n f s (data ++ more) = run n f (run n f s data) more := by
  have hlength : (data ++ more).length / n = data.length / n + more.length / n := by
    rw [List.length_append, Nat.add_div_of_dvd_right hdvd]
  have hfold (k : Nat) (hk : k ≤ data.length / n) :
      (List.range k).foldl (fun s i => f s (block n i (data ++ more))) s =
        (List.range k).foldl (fun s i => f s (block n i data)) s := by
    induction k with
    | zero => rfl
    | succ k ih =>
        rw [List.range_succ, List.foldl_append, List.foldl_append, ih (by omega)]
        simp only [List.foldl_cons, List.foldl_nil]
        rw [block_append_left (by omega)]
  rw [run, hlength, List.range_add, List.foldl_append, hfold _ (Nat.le_refl _), List.foldl_map]
  simp only [block_append_right hdvd]
  rfl

theorem run_block (hpos : 0 < n) (h : data.length = n) : run n f s data = f s data := by
  rw [run, h, Nat.div_self hpos]
  simp [block, ← h]

-- Element by element: the state after the whole blocks so far, and the elements since then.
structure Absorbed (n : Nat) (f : σ → List β → σ) (init : σ) (data : List β) (s : σ) (pending : List β) : Prop where
  short : pending.length < n
  whole : ∃ whole, data = whole ++ pending ∧ n ∣ whole.length ∧ s = run n f init whole

variable {init : σ} {pending : List β}

theorem absorbed_nil (hpos : 0 < n) : Absorbed n f init [] init [] :=
  ⟨hpos, [], rfl, Nat.dvd_zero n, (run_short (by simpa using hpos)).symm⟩

theorem Absorbed.push (h : Absorbed n f init data s pending) (b : β) (hlt : pending.length + 1 < n) :
    Absorbed n f init (data ++ [b]) s (pending ++ [b]) := by
  obtain ⟨whole, rfl, hdvd, hs⟩ := h.whole
  exact ⟨by simpa using hlt, whole, by simp, hdvd, hs⟩

theorem Absorbed.full (h : Absorbed n f init data s pending) (b : β) (heq : pending.length + 1 = n) :
    Absorbed n f init (data ++ [b]) (f s (pending ++ [b])) [] := by
  obtain ⟨whole, rfl, hdvd, rfl⟩ := h.whole
  have hlength : (pending ++ [b]).length = n := by simpa using heq
  refine ⟨by simp; omega, whole ++ (pending ++ [b]), by simp, ?_, ?_⟩
  · rw [List.length_append, hlength]
    exact Nat.dvd_add hdvd (Nat.dvd_refl n)
  · rw [run_append hdvd, run_block (by omega) hlength]

-- What comes after is taken together with what is pending.
theorem Absorbed.run_append (h : Absorbed n f init data s pending) (more : List β) :
    run n f init (data ++ more) = run n f s (pending ++ more) := by
  obtain ⟨whole, rfl, hdvd, rfl⟩ := h.whole
  rw [List.append_assoc, Blocks.run_append hdvd]

theorem Absorbed.length_mod (h : Absorbed n f init data s pending) : data.length % n = pending.length := by
  obtain ⟨whole, rfl, hdvd, -⟩ := h.whole
  rw [List.length_append, Nat.add_mod, Nat.mod_eq_zero_of_dvd hdvd, Nat.zero_add, Nat.mod_mod]
  exact Nat.mod_eq_of_lt h.short

end Run

end Library.Blocks
