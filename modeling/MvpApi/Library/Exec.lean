import Mathlib.Tactic.Common

/-!
# Programs with a state that may fail

`Exec ρ σ ε α` is the type of programs that read an environment of type `ρ`, change a
state of type `σ`, and either return a value of type `α` or fail with an error of type
`ε`. A program that fails keeps the state it has reached, so what it did before failing
can be seen by a handler, and has to be undone by whoever runs it.

`Returns x ρ s a s'` says that `x`, run from the state `s`, returns `a` in the state
`s'`, and `Raises x ρ s e s'` that it fails with `e` in the state `s'`. Each way of
composing programs has a lemma that says when the composite returns and one that says
when it fails; they are simplification rules that take a program apart from its first
step on.
-/

set_option autoImplicit false

/-! ### Values that may be errors -/

@[simp]
theorem Except.bind_eq_ok {ε α β : Type} {x : Except ε α} {f : α → Except ε β} {b : β} :
  x >>= f = .ok b ↔ ∃ a, x = .ok a ∧ f a = .ok b
  := by
  cases x with
  | error e => simp [bind, Except.bind]
  | ok a => simp [bind, Except.bind]

@[simp]
theorem Except.bind_eq_error {ε α β : Type} {x : Except ε α} {f : α → Except ε β} {e : ε} :
  x >>= f = .error e ↔ x = .error e ∨ ∃ a, x = .ok a ∧ f a = .error e
  := by
  cases x with
  | error e => simp [bind, Except.bind]
  | ok a => simp [bind, Except.bind]

@[simp]
theorem Except.map_eq_ok {ε α β : Type} {x : Except ε α} {f : α → β} {b : β} :
  f <$> x = .ok b ↔ ∃ a, x = .ok a ∧ f a = b
  := by
  cases x with
  | error e => simp [Functor.map, Except.map]
  | ok a => simp [Functor.map, Except.map]

@[simp]
theorem Except.map_eq_error {ε α β : Type} {x : Except ε α} {f : α → β} {e : ε} :
  f <$> x = .error e ↔ x = .error e
  := by
  cases x with
  | error e => simp [Functor.map, Except.map]
  | ok a => simp [Functor.map, Except.map]

@[simp]
theorem Except.pure_eq_ok {ε α : Type} {a b : α} :
  (pure a : Except ε α) = .ok b ↔ a = b
  := by
  simp [pure, Except.pure]

@[simp]
theorem Except.pure_ne_error {ε α : Type} {a : α} {e : ε} :
  (pure a : Except ε α) ≠ .error e
  := by
  simp [pure, Except.pure]

theorem Except.mapError_eq_error {ε ε' α : Type} {f : ε → ε'} {x : Except ε α} {e' : ε'} :
  x.mapError f = .error e' ↔ ∃ e, x = .error e ∧ f e = e'
  := by
  cases x with
  | error e => simp [Except.mapError]
  | ok a => simp [Except.mapError]

/-! ### Programs -/

/-- Programs that read `ρ`, change `σ` and may fail with `ε`. -/
abbrev Exec (ρ σ ε : Type) := ReaderT ρ (ExceptT ε (StateM σ))

namespace Exec

variable {ρ σ ε α β : Type}

/-- Run a program from a state. -/
def run (x : Exec ρ σ ε α) (env : ρ) (s : σ) : Except ε α × σ := x env s

/-- Run from `s`, the program returns `a` in the state `s'`. -/
def Returns (x : Exec ρ σ ε α) (env : ρ) (s : σ) (a : α) (s' : σ) : Prop :=
  x.run env s = (.ok a, s')

/-- Run from `s`, the program fails with `e` in the state `s'`. -/
def Raises (x : Exec ρ σ ε α) (env : ρ) (s : σ) (e : ε) (s' : σ) : Prop :=
  x.run env s = (.error e, s')

instance [DecidableEq ε] [DecidableEq α] [DecidableEq σ] (x : Exec ρ σ ε α) (env : ρ) (s : σ)
    (a : α) (s' : σ) : Decidable (Returns x env s a s') :=
  inferInstanceAs (Decidable (x.run env s = (.ok a, s')))

/-- The program that changes the state by `f`. -/
def update (f : σ → σ) : Exec ρ σ ε Unit := fun _ s => pure (.ok (), f s)

/-- The program that reads the state by `f`. -/
def query (f : σ → α) : Exec ρ σ ε α := fun _ s => pure (.ok (f s), s)

/-- The program that takes a value from the environment and the state, and changes the
state. -/
def draw (f : ρ → σ → α × σ) : Exec ρ σ ε α := fun env s => pure (.ok (f env s).1, (f env s).2)

/-- The program that fails with `e`. -/
def raise (e : ε) : Exec ρ σ ε α := fun _ s => pure (.error e, s)

/-- The program that fails with `e` unless `p` holds. -/
def ensure (p : Prop) [Decidable p] (e : ε) : Exec ρ σ ε Unit :=
  if p then pure () else raise e

/-- The program that runs `x`, and the handler of the error if `x` fails with one that
`h` handles. -/
def handle (x : Exec ρ σ ε α) (h : ε → Option (Exec ρ σ ε α)) : Exec ρ σ ε α := fun env s =>
  match x.run env s with
  | (.ok a, s') => pure (.ok a, s')
  | (.error e, s') =>
      match h e with
      | some y => y env s'
      | none => pure (.error e, s')

/-! ### When a program returns -/

section Returns

variable {env : ρ} {s s' : σ} {a b : α}

@[simp]
theorem returns_pure :
  Returns (pure a : Exec ρ σ ε α) env s b s' ↔ a = b ∧ s = s'
  := by
  constructor
  · intro h
    cases h
    exact ⟨rfl, rfl⟩
  · rintro ⟨rfl, rfl⟩
    rfl

/-- A composite runs its first program, and the second one from where it ended. -/
theorem run_bind (x : Exec ρ σ ε α) (f : α → Exec ρ σ ε β) (env : ρ) (s : σ) :
  (x >>= f).run env s
    = match x.run env s with
      | (.ok a, s') => (f a).run env s'
      | (.error e, s') => (.error e, s')
  := by
  have key : (x >>= f) env s = (x env >>= fun a => f a env) s := rfl
  rw [run, run, key]
  simp only [bind, ExceptT.bind, ExceptT.mk, StateT.bind]
  rcases x env s with ⟨_ | a, s₁⟩
  · rfl
  · rfl

/-- A handled program runs the handler of its error from where it failed. -/
theorem run_handle (x : Exec ρ σ ε α) (h : ε → Option (Exec ρ σ ε α)) (env : ρ) (s : σ) :
  (handle x h).run env s
    = match x.run env s with
      | (.ok a, s') => (.ok a, s')
      | (.error e, s') =>
          match h e with
          | some y => y.run env s'
          | none => (.error e, s')
  := rfl

@[simp]
theorem returns_bind {x : Exec ρ σ ε α} {f : α → Exec ρ σ ε β} {b : β} :
  Returns (x >>= f) env s b s' ↔ ∃ a s₁, Returns x env s a s₁ ∧ Returns (f a) env s₁ b s'
  := by
  simp only [Returns, run_bind]
  rcases x.run env s with ⟨_ | a, s₁⟩
  · simp
  · simp

@[simp]
theorem returns_map {x : Exec ρ σ ε α} {f : α → β} {b : β} :
  Returns (f <$> x) env s b s' ↔ ∃ a, Returns x env s a s' ∧ f a = b
  := by
  rw [map_eq_pure_bind, returns_bind]
  simp only [returns_pure]
  constructor
  · rintro ⟨a, s₁, h, rfl, rfl⟩
    exact ⟨a, h, rfl⟩
  · rintro ⟨a, h, rfl⟩
    exact ⟨a, s', h, rfl, rfl⟩

@[simp]
theorem returns_update {f : σ → σ} {u : Unit} :
  Returns (update f : Exec ρ σ ε Unit) env s u s' ↔ f s = s'
  := by
  constructor
  · intro h
    cases h
    rfl
  · rintro rfl
    rfl

@[simp]
theorem returns_query {f : σ → α} :
  Returns (query f : Exec ρ σ ε α) env s b s' ↔ f s = b ∧ s = s'
  := by
  constructor
  · intro h
    cases h
    exact ⟨rfl, rfl⟩
  · rintro ⟨rfl, rfl⟩
    rfl

@[simp]
theorem returns_draw {f : ρ → σ → α × σ} :
  Returns (draw f : Exec ρ σ ε α) env s b s' ↔ (f env s).1 = b ∧ (f env s).2 = s'
  := by
  constructor
  · intro h
    cases h
    exact ⟨rfl, rfl⟩
  · rintro ⟨rfl, rfl⟩
    rfl

@[simp]
theorem not_returns_raise {e : ε} :
  ¬ Returns (raise e : Exec ρ σ ε α) env s b s'
  := by
  intro h
  cases h

@[simp]
theorem returns_ensure {p : Prop} [Decidable p] {e : ε} {u : Unit} :
  Returns (ensure p e : Exec ρ σ ε Unit) env s u s' ↔ p ∧ s = s'
  := by
  unfold ensure
  split
  · simp [*]
  · simp [*]

/-- A handled program returns what the program returns, or what the handler returns from
the state in which the program failed. -/
theorem returns_handle {x : Exec ρ σ ε α} {h : ε → Option (Exec ρ σ ε α)} :
  Returns (handle x h) env s b s'
    ↔ Returns x env s b s'
      ∨ ∃ e s₁ y, Raises x env s e s₁ ∧ h e = some y ∧ Returns y env s₁ b s'
  := by
  simp only [Returns, Raises, run_handle]
  rcases x.run env s with ⟨e | a, s₁⟩
  · cases he : h e with
    | none => simp [he]
    | some y => simp [he]
  · simp

end Returns

/-! ### When a program fails -/

section Raises

variable {env : ρ} {s s' : σ} {e : ε}

@[simp]
theorem not_raises_pure {a : α} :
  ¬ Raises (pure a : Exec ρ σ ε α) env s e s'
  := by
  intro h
  cases h

@[simp]
theorem raises_bind {x : Exec ρ σ ε α} {f : α → Exec ρ σ ε β} :
  Raises (x >>= f) env s e s'
    ↔ Raises x env s e s' ∨ ∃ a s₁, Returns x env s a s₁ ∧ Raises (f a) env s₁ e s'
  := by
  simp only [Returns, Raises, run_bind]
  rcases x.run env s with ⟨_ | a, s₁⟩
  · simp
  · simp

@[simp]
theorem raises_map {x : Exec ρ σ ε α} {f : α → β} :
  Raises (f <$> x) env s e s' ↔ Raises x env s e s'
  := by
  rw [map_eq_pure_bind, raises_bind]
  simp only [not_raises_pure, and_false, exists_false, or_false]

@[simp]
theorem not_raises_update {f : σ → σ} :
  ¬ Raises (update f : Exec ρ σ ε Unit) env s e s'
  := by
  intro h
  cases h

@[simp]
theorem not_raises_query {f : σ → α} :
  ¬ Raises (query f : Exec ρ σ ε α) env s e s'
  := by
  intro h
  cases h

@[simp]
theorem not_raises_draw {f : ρ → σ → α × σ} :
  ¬ Raises (draw f : Exec ρ σ ε α) env s e s'
  := by
  intro h
  cases h

@[simp]
theorem raises_raise {e' : ε} :
  Raises (raise e' : Exec ρ σ ε α) env s e s' ↔ e' = e ∧ s = s'
  := by
  constructor
  · intro h
    cases h
    exact ⟨rfl, rfl⟩
  · rintro ⟨rfl, rfl⟩
    rfl

@[simp]
theorem raises_ensure {p : Prop} [Decidable p] {e' : ε} :
  Raises (ensure p e' : Exec ρ σ ε Unit) env s e s' ↔ ¬ p ∧ e' = e ∧ s = s'
  := by
  unfold ensure
  split
  · simp [*]
  · simp [*]

/-- A handled program fails with an error of the program that is not handled, or with one
of the handler. -/
theorem raises_handle {x : Exec ρ σ ε α} {h : ε → Option (Exec ρ σ ε α)} :
  Raises (handle x h) env s e s'
    ↔ (Raises x env s e s' ∧ h e = none)
      ∨ ∃ e' s₁ y, Raises x env s e' s₁ ∧ h e' = some y ∧ Raises y env s₁ e s'
  := by
  simp only [Raises, run_handle]
  rcases x.run env s with ⟨e₁ | a, s₁⟩
  · cases he : h e₁ with
    | none =>
        simp only [he, Prod.mk.injEq, Except.error.injEq]
        constructor
        · rintro ⟨rfl, rfl⟩
          exact Or.inl ⟨⟨rfl, rfl⟩, he⟩
        · rintro (⟨h', _⟩ | ⟨e', s₂, y, ⟨rfl, rfl⟩, hy, _⟩)
          · exact h'
          · rw [he] at hy
            cases hy
    | some y =>
        simp only [he, Prod.mk.injEq, Except.error.injEq]
        constructor
        · intro h'
          exact Or.inr ⟨e₁, s₁, y, ⟨rfl, rfl⟩, he, h'⟩
        · rintro (⟨⟨rfl, rfl⟩, h'⟩ | ⟨e', s₂, y', ⟨rfl, rfl⟩, hy, h'⟩)
          · rw [he] at h'
            cases h'
          · rw [he] at hy
            cases hy
            exact h'
  · simp

end Raises

/-- A program whose result is a value returns it. -/
theorem Returns.of_run {x : Exec ρ σ ε α} {env : ρ} {s : σ} {a : α}
    (h : (x.run env s).1 = .ok a) :
  Returns x env s a (x.run env s).2
  := Prod.ext h rfl

/-- What a program returns and the state it ends in are determined. -/
theorem Returns.unique {x : Exec ρ σ ε α} {env : ρ} {s s₁ s₂ : σ} {a b : α}
    (h₁ : Returns x env s a s₁) (h₂ : Returns x env s b s₂) :
  a = b ∧ s₁ = s₂
  := by
  rw [Returns, h₁] at h₂
  cases h₂
  exact ⟨rfl, rfl⟩

/-- A program that returns does not fail. -/
theorem Returns.not_raises {x : Exec ρ σ ε α} {env : ρ} {s s₁ s₂ : σ} {a : α} {e : ε}
    (h : Returns x env s a s₁) :
  ¬ Raises x env s e s₂
  := by
  intro h'
  rw [Returns] at h
  rw [Raises, h] at h'
  cases h'

end Exec
