import Mathlib.Init

namespace Library

-- A computation that may fail with an error, and that has no result where it reads outside of
-- its buffer.
def Checked (ε α : Type) : Type := Option (Except ε α)

namespace Checked

variable {ε α β : Type}

def stray : Checked ε α := none

def fail (err : ε) : Checked ε α := some (.error err)

protected def bind (p : Checked ε α) (f : α → Checked ε β) : Checked ε β :=
  match p with
  | none => none
  | some (.error err) => some (.error err)
  | some (.ok value) => f value

instance : Monad (Checked ε) where
  pure value := some (.ok value)
  bind := Checked.bind

-- A check that ends the computation where it does not hold.
def require (c : Prop) [Decidable c] (err : ε) : Checked ε Unit := if c then pure () else fail err

-- What a pointer leads to.
def follow (found : Option α) : Checked ε α :=
  match found with
  | none => stray
  | some value => pure value

theorem pure_bind (value : α) (f : α → Checked ε β) : (pure value >>= f) = f value := rfl

theorem pure_inj {a b : α} (h : (pure a : Checked ε α) = pure b) : a = b :=
  Except.ok.inj (Option.some.inj h)

-- No read goes astray, and a result is as `Q` says.
def Sound (p : Checked ε α) (Q : α → Prop) : Prop :=
  match p with
  | none => False
  | some (.error _) => True
  | some (.ok value) => Q value

theorem sound_pure {Q : α → Prop} {value : α} (h : Q value) : Sound (pure value : Checked ε α) Q := h

theorem sound_fail {Q : α → Prop} (err : ε) : Sound (fail err) Q := trivial

theorem sound_bind {p : Checked ε α} {f : α → Checked ε β} {Q : β → Prop} (h : Sound p fun value => Sound (f value) Q) :
    Sound (p >>= f) Q := by
  match p with
  | none => exact h.elim
  | some (.error _) => trivial
  | some (.ok value) => exact h

theorem sound_mono {p : Checked ε α} {Q R : α → Prop} (h : Sound p Q) (hQ : ∀ value, Q value → R value) :
    Sound p R := by
  match p with
  | none => exact h
  | some (.error _) => trivial
  | some (.ok value) => exact hQ value h

theorem sound_seq {p : Checked ε α} {f : α → Checked ε β} {P : α → Prop} {Q : β → Prop} (hp : Sound p P)
    (hf : ∀ value, P value → Sound (f value) Q) : Sound (p >>= f) Q :=
  sound_bind (sound_mono hp hf)

theorem sound_require {c : Prop} [Decidable c] {err : ε} {f : Unit → Checked ε β} {Q : β → Prop}
    (h : c → Sound (f ()) Q) : Sound (require c err >>= f) Q := by
  unfold require
  by_cases hc : c
  · rw [if_pos hc]
    exact h hc
  · rw [if_neg hc]
    trivial

theorem sound_follow {found : Option α} {value : α} (hfound : found = some value) {f : α → Checked ε β} {Q : β → Prop}
    (h : Sound (f value) Q) : Sound (follow found >>= f) Q := by
  rw [hfound]
  exact h

-- What is known of a result may include that it is the one.
theorem sound_result {p : Checked ε α} {Q : α → Prop} (h : Sound p Q) :
    Sound p fun value => p = pure value ∧ Q value := by
  match p with
  | none => exact h.elim
  | some (.error _) => trivial
  | some (.ok value) => exact ⟨rfl, h⟩

-- A sound computation has a result, which is either an error or as `Q` says.
theorem sound_cases {p : Checked ε α} {Q : α → Prop} (h : Sound p Q) :
    (∃ err, p = some (.error err)) ∨ ∃ value, p = some (.ok value) ∧ Q value := by
  match p with
  | none => exact h.elim
  | some (.error err) => exact .inl ⟨err, rfl⟩
  | some (.ok value) => exact .inr ⟨value, rfl, h⟩

-- A result, and one as `Q` says.
def Yields (p : Checked ε α) (Q : α → Prop) : Prop := ∃ value, p = some (.ok value) ∧ Q value

theorem yields_pure {Q : α → Prop} {value : α} (h : Q value) : Yields (pure value : Checked ε α) Q :=
  ⟨value, rfl, h⟩

theorem yields_seq {p : Checked ε α} {f : α → Checked ε β} {P : α → Prop} {Q : β → Prop} (hp : Yields p P)
    (hf : ∀ value, P value → Yields (f value) Q) : Yields (p >>= f) Q := by
  obtain ⟨value, rfl, hP⟩ := hp
  exact hf value hP

theorem yields_mono {p : Checked ε α} {Q R : α → Prop} (h : Yields p Q) (hQ : ∀ value, Q value → R value) :
    Yields p R := by
  obtain ⟨value, hp, hvalue⟩ := h
  exact ⟨value, hp, hQ value hvalue⟩

theorem yields_require {c : Prop} [Decidable c] {err : ε} {f : Unit → Checked ε β} {Q : β → Prop} (hc : c)
    (h : Yields (f ()) Q) : Yields (require c err >>= f) Q := by
  unfold require
  rw [if_pos hc]
  exact h

theorem yields_follow {found : Option α} {value : α} (hfound : found = some value) {f : α → Checked ε β} {Q : β → Prop}
    (h : Yields (f value) Q) : Yields (follow found >>= f) Q := by
  rw [hfound]
  exact h

-- What is sure of every result is sure of this one.
theorem yields_sound {p : Checked ε α} {P Q : α → Prop} (h : Yields p Q) (hs : Sound p P) :
    Yields p fun value => Q value ∧ P value := by
  obtain ⟨value, rfl, hQ⟩ := h
  exact ⟨value, rfl, hQ, hs⟩

end Checked

end Library
