import AlpSdk.Library.Effect

namespace Library.Effect

variable {σ : Signature} {S α β : Type}

-- No execution comes to a command that is `bad`.
def Avoids (env : Env σ S) (bad : σ.Cmd → Prop) : Prog σ α → S → Prop
  | .ret _, _ => True
  | .call cmd next, s => ¬ bad cmd ∧ ∀ reply s', env s cmd reply s' → Avoids env bad (next reply) s'

variable {env : Env σ S} {bad : σ.Cmd → Prop}

theorem avoids_bind {p : Prog σ α} {f : α → Prog σ β} {s : S} (hp : Avoids env bad p s)
    (hf : ∀ value s', Avoids env bad (f value) s') : Avoids env bad (p >>= f) s := by
  induction p generalizing s with
  | ret value => exact hf value s
  | call cmd next ih => exact ⟨hp.1, fun reply s' he => ih reply (hp.2 reply s' he)⟩

theorem avoids_of_bind {p : Prog σ α} {f : α → Prog σ β} {s : S} (h : Avoids env bad (p >>= f) s) :
    Avoids env bad p s := by
  induction p generalizing s with
  | ret value => trivial
  | call cmd next ih => exact ⟨h.1, fun reply s' he => ih reply (h.2 reply s' he)⟩

-- Where a program avoids a command, so does what is left of it.
theorem avoids_rest {p : Prog σ α} {f : α → Prog σ β} {s s' : S} {value : α}
    (h : Avoids env bad (p >>= f) s) (he : Exec env s p (some value) s') : Avoids env bad (f value) s' := by
  generalize hout : some value = out at he
  induction he with
  | cut s p => cases hout
  | done s v =>
      cases hout
      exact h
  | step henv _ ih => exact ih (h.2 _ _ henv) hout

end Library.Effect
