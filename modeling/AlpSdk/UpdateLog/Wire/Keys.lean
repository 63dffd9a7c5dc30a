import AlpSdk.UpdateLog.Wire
import Mathlib.Tactic.IntervalCases
import Mathlib.Tactic.NormNum

namespace AlpSdk.UpdateLog

def digitValue (c : Char) : Nat := c.toNat - 48

theorem digitValue_ofNat (d : Nat) (h : d < 10) : digitValue (Char.ofNat (48 + d)) = d := by
  interval_cases d <;> rfl

-- The number a digit string denotes, least significant digit first.
def digitsValue : List Char → Nat
  | [] => 0
  | c :: rest => digitValue c + 10 * digitsValue rest

theorem digitsValue_kbufDigits (room v : Nat) (h : v < 10 ^ room) :
    digitsValue (kbufDigits room v) = v := by
  induction room generalizing v with
  | zero =>
      simp only [Nat.pow_zero] at h
      simp only [kbufDigits, digitsValue]
      omega
  | succ room ih =>
      have hd := digitValue_ofNat (v % 10) (Nat.mod_lt v (by decide))
      simp only [kbufDigits, digitsValue, hd]
      split
      · simp only [digitsValue]
        omega
      · rw [ih (v / 10) (by rw [Nat.pow_succ] at h; omega)]
        omega

theorem kbufDigits_length_le (room digits v : Nat) (h : v < 10 ^ (digits + 1)) :
    (kbufDigits room v).length ≤ digits + 1 := by
  induction digits generalizing room v with
  | zero =>
      cases room with
      | zero => simp [kbufDigits]
      | succ room =>
          have hz : v / 10 = 0 := by omega
          simp [kbufDigits, hz]
  | succ digits ih =>
      cases room with
      | zero => simp [kbufDigits]
      | succ room =>
          simp only [kbufDigits]
          split
          · simp
          · have hn := ih room (v / 10) (by rw [Nat.pow_succ] at h; omega)
            simp only [List.length_cons]
            omega

-- The first character of the digit part; it is a digit whatever was cut off.
theorem entryKey_eq (seq : Nat) :
    entryKey seq = ['u', 'l', 'o', 'g', '.'] ++ (kbufDigits 20 seq).reverse.take 18 := by
  rfl

theorem kbufDigits_isDigit (room v : Nat) (c : Char) (hc : c ∈ kbufDigits room v) :
    c.toNat < 58 := by
  induction room generalizing v with
  | zero => simp [kbufDigits] at hc
  | succ room ih =>
      simp only [kbufDigits, List.mem_cons] at hc
      rcases hc with rfl | hc
      · have hlt : v % 10 < 10 := Nat.mod_lt v (by decide)
        interval_cases v % 10 <;> decide
      · split at hc
        · simp at hc
        · exact ih (v / 10) hc

theorem entryKey_ne_metaKey (seq : Nat) : entryKey seq ≠ metaKey := by
  intro h
  rw [entryKey_eq, metaKey] at h
  have htail : (kbufDigits 20 seq).reverse.take 18 = ['m', 'e', 't', 'a'] := by
    simpa using h
  have hm : 'm' ∈ (kbufDigits 20 seq).reverse.take 18 := by rw [htail]; simp
  have hdigit := kbufDigits_isDigit 20 seq 'm' (List.mem_reverse.mp (List.mem_of_mem_take hm))
  exact absurd hdigit (by decide)

-- Sequence numbers of at most 18 digits keep all their digits in the key.
theorem entryKey_eq_of_le (seq : Nat) (h : seq ≤ ULOG_SEQ_MAX) :
    entryKey seq = ['u', 'l', 'o', 'g', '.'] ++ (kbufDigits 20 seq).reverse := by
  have hlen := kbufDigits_length_le 20 17 seq (by simp only [ULOG_SEQ_MAX] at h; omega)
  rw [entryKey_eq, List.take_of_length_le (by rw [List.length_reverse]; omega)]

theorem entryKey_injective {i j : Nat} (hi : i ≤ ULOG_SEQ_MAX) (hj : j ≤ ULOG_SEQ_MAX)
    (h : entryKey i = entryKey j) : i = j := by
  rw [entryKey_eq_of_le i hi, entryKey_eq_of_le j hj] at h
  have hdigits : kbufDigits 20 i = kbufDigits 20 j :=
    List.reverse_injective (List.append_cancel_left h)
  simp only [ULOG_SEQ_MAX] at hi hj
  rw [← digitsValue_kbufDigits 20 i (by omega), hdigits, digitsValue_kbufDigits 20 j (by omega)]

-- The first sequence number past the bound has 19 digits. Its key loses the last one and
-- names the entry ten times below it.
theorem entryKey_seqMax_succ : entryKey (ULOG_SEQ_MAX + 1) = entryKey (10 ^ 17) := by
  decide

end AlpSdk.UpdateLog
