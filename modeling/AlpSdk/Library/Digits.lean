import Mathlib.Data.Nat.Digits.Lemmas
import Mathlib.Tactic.Common

-- Numbers written most significant digit first, in characters of any kind.
namespace Library.Digits

variable {α : Type} (base : Nat) (digit : α → Option Nat)

def ofChars (chars : List α) : Option Nat :=
  (chars.mapM digit).map fun digits => Nat.ofDigits base digits.reverse

variable {base digit}

section Mapped

variable {β γ : Type} {f : α → Option β} {xs : List α} {ys : List β}

theorem forall₂_of_mapM (h : xs.mapM f = some ys) : List.Forall₂ (fun x y => f x = some y) xs ys := by
  induction xs generalizing ys with
  | nil =>
      cases h
      exact .nil
  | cons x rest ih =>
      simp only [List.mapM_cons, Option.bind_eq_bind, Option.bind_eq_some_iff] at h
      obtain ⟨y, hx, ys', hrest, hys⟩ := h
      cases hys
      exact .cons hx (ih hrest)

theorem forall_of_mapM {P : β → Prop} (hP : ∀ x y, f x = some y → P y) (h : xs.mapM f = some ys) :
    ∀ y ∈ ys, P y := by
  have hmapped := forall₂_of_mapM h
  clear h
  induction hmapped with
  | nil => simp
  | cons hx _ ih => exact List.forall_mem_cons.mpr ⟨hP _ _ hx, ih⟩

theorem isSome_of_mapM (h : xs.mapM f = some ys) : ∀ x ∈ xs, (f x).isSome = true := by
  have hmapped := forall₂_of_mapM h
  clear h
  induction hmapped with
  | nil => simp
  | cons hx _ ih => exact List.forall_mem_cons.mpr ⟨Option.isSome_of_eq_some hx, ih⟩

-- Whatever the images tell about the elements, the image of a list tells about the list.
theorem map_eq_of_mapM {g : α → γ} (hg : ∀ x x' y, f x = some y → f x' = some y → g x = g x') {xs' : List α}
    (h : xs.mapM f = some ys) (h' : xs'.mapM f = some ys) : xs.map g = xs'.map g := by
  have hmapped := forall₂_of_mapM h
  have hmapped' := forall₂_of_mapM h'
  clear h h'
  induction hmapped generalizing xs' with
  | nil =>
      cases hmapped'
      rfl
  | cons hx _ ih =>
      cases hmapped' with
      | cons hx' hrest' => rw [List.map_cons, List.map_cons, hg _ _ _ hx hx', ih hrest']

end Mapped

-- Reading the characters one after the other, into numbers of any kind.
theorem foldlM_eq {R : Type} {f : Nat → R} {step : R → α → Option R}
    (hstep : ∀ v a, step (f v) a = (digit a).map fun d => f (v * base + d)) (chars : List α) :
    chars.foldlM step (f 0) = (ofChars base digit chars).map f := by
  have hfold (digits : List Nat) (v : Nat) :
      digits.foldl (fun v d => v * base + d) v =
        v * base ^ digits.length + Nat.ofDigits base digits.reverse := by
    induction digits generalizing v with
    | nil => simp
    | cons d rest ih =>
        rw [List.foldl_cons, ih, List.reverse_cons, Nat.ofDigits_append, Nat.ofDigits_singleton,
          List.length_reverse, List.length_cons, Nat.pow_succ]
        ring
  have hrun (v : Nat) :
      chars.foldlM step (f v) =
        (chars.mapM digit).map fun digits => f (digits.foldl (fun v d => v * base + d) v) := by
    induction chars generalizing v with
    | nil => rfl
    | cons a rest ih =>
        rw [List.foldlM_cons, hstep, List.mapM_cons]
        cases digit a with
        | none => rfl
        | some d =>
            refine (ih _).trans ?_
            cases rest.mapM digit <;> rfl
  rw [hrun, ofChars, Option.map_map]
  congr 1
  funext digits
  rw [hfold, Nat.zero_mul, Nat.zero_add]
  rfl

theorem foldlM_digits (chars : List α) :
    chars.foldlM (fun v a => (digit a).map (v * base + ·)) 0 = ofChars base digit chars :=
  (foldlM_eq (f := id) (fun _ _ => rfl) chars).trans (congrFun Option.map_id_fun _)

variable {chars chars' : List α} {v : Nat}

theorem ofChars_lt (hbase : 1 < base) (hdigit : ∀ a d, digit a = some d → d < base)
    (h : ofChars base digit chars = some v) :
    v < base ^ chars.length := by
  obtain ⟨digits, hdigits, rfl⟩ := Option.map_eq_some_iff.mp h
  have hlt := Nat.ofDigits_lt_base_pow_length hbase (l := digits.reverse)
    fun d hd => forall_of_mapM hdigit hdigits d (List.mem_reverse.mp hd)
  rwa [List.length_reverse, ← (forall₂_of_mapM hdigits).length_eq] at hlt

-- A number with a fixed count of digits has one spelling, up to what the digits do not tell.
theorem ofChars_inj {γ : Type} {g : α → γ} (hbase : 1 < base) (hdigit : ∀ a d, digit a = some d → d < base)
    (hg : ∀ a a' d, digit a = some d → digit a' = some d → g a = g a') (hlen : chars.length = chars'.length)
    (h : ofChars base digit chars = some v) (h' : ofChars base digit chars' = some v) :
    chars.map g = chars'.map g := by
  obtain ⟨digits, hdigits, rfl⟩ := Option.map_eq_some_iff.mp h
  obtain ⟨digits', hdigits', hv⟩ := Option.map_eq_some_iff.mp h'
  have hreverse : digits'.reverse = digits.reverse := by
    refine Nat.ofDigits_inj_of_len_eq hbase ?_ ?_ ?_ hv
    · rw [List.length_reverse, List.length_reverse, ← (forall₂_of_mapM hdigits).length_eq,
        ← (forall₂_of_mapM hdigits').length_eq, hlen]
    · exact fun d hd => forall_of_mapM hdigit hdigits' d (List.mem_reverse.mp hd)
    · exact fun d hd => forall_of_mapM hdigit hdigits d (List.mem_reverse.mp hd)
  rw [List.reverse_injective hreverse] at hdigits'
  exact map_eq_of_mapM hg hdigits hdigits'

end Library.Digits
