import Mathlib.Data.BitVec

namespace Library.Flags

variable {n : Nat}

-- The words share a set bit.
def Meets (v m : BitVec n) : Prop := v &&& m ≠ 0#n

instance (v m : BitVec n) : Decidable (Meets v m) := inferInstanceAs (Decidable (_ ≠ _))

-- Every bit of the first word is set in the second.
def Within (v m : BitVec n) : Prop := v &&& m = v

instance (v m : BitVec n) : Decidable (Within v m) := inferInstanceAs (Decidable (_ = _))

theorem meets_or_left {a b m : BitVec n} : Meets (a ||| b) m ↔ Meets a m ∨ Meets b m := by
  simp only [Meets, BitVec.and_or_distrib_right, ne_eq, BitVec.or_eq_zero_iff]
  exact Decidable.not_and_iff_or_not

theorem meets_or_right {v a b : BitVec n} : Meets v (a ||| b) ↔ Meets v a ∨ Meets v b := by
  simp only [Meets, BitVec.and_or_distrib_left, ne_eq, BitVec.or_eq_zero_iff]
  exact Decidable.not_and_iff_or_not

theorem not_meets_zero_left {m : BitVec n} : ¬ Meets 0#n m := by
  simp [Meets]

-- A word taken on a condition meets what it meets, on that condition.
theorem meets_ite {c : Prop} [Decidable c] {a m : BitVec n} :
    Meets (if c then a else 0#n) m ↔ c ∧ Meets a m := by
  by_cases hc : c
  · simp [hc]
  · simp [hc, not_meets_zero_left]

-- Clearing bits of the word is leaving them out of the question.
theorem meets_clear {v t m : BitVec n} : Meets (v &&& ~~~t) m ↔ Meets v (m &&& ~~~t) := by
  rw [Meets, Meets, BitVec.and_assoc, BitVec.and_comm (~~~t)]

theorem within_or {a b m : BitVec n} : Within (a ||| b) m ↔ Within a m ∧ Within b m := by
  constructor
  · intro h
    have hbit : ∀ i, ((a.getLsbD i || b.getLsbD i) && m.getLsbD i) =
        (a.getLsbD i || b.getLsbD i) := by
      intro i
      have := congrArg (fun v => v.getLsbD i) h
      simpa using this
    constructor
    · apply BitVec.eq_of_getLsbD_eq
      intro i _
      have := hbit i
      cases ha : a.getLsbD i with
      | false => simp [ha]
      | true => simpa [ha] using this
    · apply BitVec.eq_of_getLsbD_eq
      intro i _
      have := hbit i
      cases hb : b.getLsbD i with
      | false => simp [hb]
      | true => simpa [hb] using this
  · rintro ⟨ha, hb⟩
    rw [Within, BitVec.and_or_distrib_right, ha, hb]

theorem within_or_left {v a b : BitVec n} (h : Within v a) : Within v (a ||| b) := by
  have habsorb : (v &&& a) &&& (a ||| b) = v &&& a := by
    apply BitVec.eq_of_getLsbD_eq
    intro i _
    cases ha : a.getLsbD i with
    | false => simp [ha]
    | true => simp [ha]
  rwa [h] at habsorb

theorem within_or_right {v a b : BitVec n} (h : Within v b) : Within v (a ||| b) := by
  rw [BitVec.or_comm]
  exact within_or_left h

theorem within_clear {v t m : BitVec n} (h : Within v m) : Within (v &&& ~~~t) m := by
  rw [Within, BitVec.and_assoc, BitVec.and_comm (~~~t), ← BitVec.and_assoc, h]

theorem within_ite {c : Prop} [Decidable c] {a m : BitVec n} (h : c → Within a m) :
    Within (if c then a else 0#n) m := by
  by_cases hc : c
  · simpa [hc] using h hc
  · simp [hc, Within]

theorem within_zero {m : BitVec n} : Within 0#n m := by
  simp [Within]

end Library.Flags
