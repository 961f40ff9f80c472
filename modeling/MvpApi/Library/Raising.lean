import MvpApi.Library.Exec

/-!
# The errors a program can fail with

`x.RaisesOnly p` says that whatever state the program `x` is run from, it fails with no other
errors than those of `p`. There is one rule for each way of composing programs.
-/

set_option autoImplicit false

namespace Exec

variable {ρ σ ε α β : Type} {p : ε → Prop}

/-- The program fails with errors of `p` only. -/
def RaisesOnly (x : Exec ρ σ ε α) (p : ε → Prop) : Prop :=
  ∀ env s e s', Raises x env s e s' → p e

namespace RaisesOnly

theorem mono {q : ε → Prop} {x : Exec ρ σ ε α} (h : x.RaisesOnly p) (weaker : ∀ e, p e → q e) :
  x.RaisesOnly q
  := fun env s e s' raised => weaker e (h env s e s' raised)

theorem pure (a : α) :
  (Pure.pure a : Exec ρ σ ε α).RaisesOnly p
  := fun _ _ _ _ raised => absurd raised not_raises_pure

theorem update (f : σ → σ) :
  (Exec.update f : Exec ρ σ ε Unit).RaisesOnly p
  := fun _ _ _ _ raised => absurd raised not_raises_update

theorem query (f : σ → α) :
  (Exec.query f : Exec ρ σ ε α).RaisesOnly p
  := fun _ _ _ _ raised => absurd raised not_raises_query

theorem draw (f : ρ → σ → α × σ) :
  (Exec.draw f : Exec ρ σ ε α).RaisesOnly p
  := fun _ _ _ _ raised => absurd raised not_raises_draw

theorem raise {e : ε} (h : p e) :
  (Exec.raise e : Exec ρ σ ε α).RaisesOnly p
  := by
  intro env s e' s' raised
  obtain ⟨rfl, _⟩ := raises_raise.mp raised
  exact h

theorem ensure {q : Prop} [Decidable q] {e : ε} (h : p e) :
  (Exec.ensure q e : Exec ρ σ ε Unit).RaisesOnly p
  := by
  intro env s e' s' raised
  obtain ⟨_, rfl, _⟩ := raises_ensure.mp raised
  exact h

theorem bind {x : Exec ρ σ ε α} {f : α → Exec ρ σ ε β} (h : x.RaisesOnly p)
    (next : ∀ a, (f a).RaisesOnly p) :
  (x >>= f).RaisesOnly p
  := by
  intro env s e s' raised
  obtain first | ⟨a, s₁, _, second⟩ := raises_bind.mp raised
  · exact h env s e s' first
  · exact next a env s₁ e s' second

/-- Errors that are handled are those of the handler. -/
theorem handle {x : Exec ρ σ ε α} {handler : ε → Option (Exec ρ σ ε α)}
    (unhandled : x.RaisesOnly fun e => handler e = none → p e)
    (handled : ∀ e y, handler e = some y → y.RaisesOnly p) :
  (Exec.handle x handler).RaisesOnly p
  := by
  intro env s e s' raised
  obtain ⟨first, none⟩ | ⟨e', s₁, y, _, hy, second⟩ := raises_handle.mp raised
  · exact unhandled env s e s' first none
  · exact handled e' y hy env s₁ e s' second

end RaisesOnly

end Exec
