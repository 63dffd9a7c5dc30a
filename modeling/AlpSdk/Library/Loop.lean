import Mathlib.Order.Basic

namespace Library.Loop

variable {σ : Type} {guard : σ → Bool} {body : σ → σ}

-- `while guard: body`, from the state it is entered in to the one it is left in.
inductive Ends (guard : σ → Bool) (body : σ → σ) : σ → σ → Prop where
  | stop {s : σ} (h : guard s = false) : Ends guard body s s
  | pass {s s' : σ} (h : guard s = true) (rest : Ends guard body (body s) s') : Ends guard body s s'

theorem Ends.unique {s a b : σ} (ha : Ends guard body s a) (hb : Ends guard body s b) : a = b := by
  induction ha with
  | stop hstop =>
      cases hb with
      | stop => rfl
      | pass h => exact absurd h (by simp [hstop])
  | pass hpass _ ih =>
      cases hb with
      | stop h => exact absurd hpass (by simp [h])
      | pass _ rest => exact ih rest

end Library.Loop
