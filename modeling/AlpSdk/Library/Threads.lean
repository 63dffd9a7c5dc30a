import AlpSdk.Library.Transition
import Mathlib.Algebra.BigOperators.Group.Finset.Basic
import Mathlib.Algebra.GroupWithZero.Nat
import Mathlib.Algebra.Order.BigOperators.Group.Finset
import Mathlib.Data.Fintype.BigOperators

namespace Library.Threads

open Library.Transition

-- Two threads are the least that interleave.
instance twoThreads : NeZero 2 := ⟨Nat.succ_ne_zero 1⟩

-- Threads over a shared memory, each at a phase of its own program.
structure World (T M P : Type) where
  mem : M
  phase : T → P

variable {T A M P : Type}

section Step

variable [DecidableEq T] {prog : T → A → M → P → Option (M × P)} {w w' : World T M P}

-- One thread takes one atomic step of its program.
def step (prog : T → A → M → P → Option (M × P)) (a : T × A) (w : World T M P) :
    Option (World T M P) :=
  (prog a.1 a.2 w.mem (w.phase a.1)).map fun out => ⟨out.1, Function.update w.phase a.1 out.2⟩

theorem step_eq_some {t : T} {a : A} :
    step prog (t, a) w = some w' ↔
      ∃ m p, prog t a w.mem (w.phase t) = some (m, p) ∧ w' = ⟨m, Function.update w.phase t p⟩ := by
  simp only [step, Option.map_eq_some_iff, Prod.exists]
  constructor
  · rintro ⟨m, p, h, rfl⟩
    exact ⟨m, p, h, rfl⟩
  · rintro ⟨m, p, h, rfl⟩
    exact ⟨m, p, h, rfl⟩

theorem step_update {t : T} {a : A} {m m' : M} {p p' : P} (phase : T → P)
    (h : prog t a m p = some (m', p')) :
    step prog (t, a) ⟨m, Function.update phase t p⟩ = some ⟨m', Function.update phase t p'⟩ := by
  simp [step, h]

end Step

section Total

variable [Fintype T] (weight : P → Nat) (phase : T → P)

def total : Nat := ∑ t, weight (phase t)

theorem le_total (t : T) : weight (phase t) ≤ total weight phase :=
  Finset.single_le_sum (f := fun u => weight (phase u)) (fun _ _ => Nat.zero_le _)
    (Finset.mem_univ t)

theorem total_le {bound : Nat} (h : ∀ p, weight p ≤ bound) :
    total weight phase ≤ Fintype.card T * bound := by
  have hle := Finset.sum_le_card_nsmul Finset.univ (fun t => weight (phase t)) bound
    fun t _ => h (phase t)
  simpa [total] using hle

theorem total_eq_zero : total weight phase = 0 ↔ ∀ t, weight (phase t) = 0 := by
  simp [total]

theorem exists_of_total_ne_zero (h : total weight phase ≠ 0) : ∃ t, weight (phase t) ≠ 0 := by
  by_contra hnone
  exact h ((total_eq_zero weight phase).mpr fun t => not_not.mp fun ht => hnone ⟨t, ht⟩)

theorem total_update [DecidableEq T] (t : T) (p : P) :
    total weight (Function.update phase t p) + weight (phase t) = total weight phase + weight p := by
  have hnew := Finset.add_sum_erase Finset.univ
    (fun u => weight (Function.update phase t p u)) (Finset.mem_univ t)
  have hold := Finset.add_sum_erase Finset.univ (fun u => weight (phase u)) (Finset.mem_univ t)
  have hrest : ∑ u ∈ Finset.univ.erase t, weight (Function.update phase t p u) =
      ∑ u ∈ Finset.univ.erase t, weight (phase u) := by
    refine Finset.sum_congr rfl fun u hu => ?_
    rw [Function.update_of_ne (Finset.ne_of_mem_erase hu)]
  simp only [Function.update_self] at hnew
  unfold total
  omega

-- Two threads of weight one or more make a total of two or more.
theorem total_of_two [DecidableEq T] {t u : T} (hne : t ≠ u) :
    weight (phase t) + weight (phase u) ≤ total weight phase := by
  have hold := Finset.add_sum_erase Finset.univ (fun v => weight (phase v)) (Finset.mem_univ t)
  have hu : weight (phase u) ≤ ∑ v ∈ Finset.univ.erase t, weight (phase v) :=
    Finset.single_le_sum (f := fun v => weight (phase v)) (fun _ _ => Nat.zero_le _)
      (Finset.mem_erase.mpr ⟨hne.symm, Finset.mem_univ u⟩)
  unfold total
  omega

end Total

end Library.Threads
