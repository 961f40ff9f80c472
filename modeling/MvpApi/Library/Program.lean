import Mathlib.Logic.Function.Basic
import Mathlib.Tactic.Common

/-!
# Programs that ask for services

A `Program` computes on its own until it asks for a service, and goes on with the answer: a
value, or an error. A `Machine` says how a service may be answered in a state of the world, and
which state it leaves. A program is run to its end in `Ends`, up to some request in `Steps`; in
`Interleaved` many programs run at once, one request at a time.

`Holds` proves what programs do that run at once. Each of them relies on what the others do, and
guarantees what it does itself: if all guarantee what the others rely on, then what was proved
of each of them holds of all of them together.
-/

set_option autoImplicit false

/-- Programs that ask requests of `ρ`, and return a value of `α` or fail with an error of `ε`. -/
inductive Program (ρ : Type → Type 1) (ε α : Type) : Type 1
  | done (a : α)
  | fail (e : ε)
  | ask {β : Type} (request : ρ β) (next : Except ε β → Program ρ ε α)

namespace Program

variable {ρ : Type → Type 1} {ε α β : Type}

/-- Go on with what a program returns. -/
def bind : Program ρ ε α → (α → Program ρ ε β) → Program ρ ε β
  | .done a, f => f a
  | .fail e, _ => .fail e
  | .ask request next, f => .ask request fun y => (next y).bind f

instance : Monad (Program ρ ε) where
  pure := .done
  bind := bind

/-- Run a program, and return what it ends with, be it an error. -/
def outcome : Program ρ ε α → Program ρ ε (Except ε α)
  | .done a => .done (.ok a)
  | .fail e => .done (.error e)
  | .ask request next => .ask request fun y => (next y).outcome

/-- Return what a request is answered with. -/
def perform (request : ρ β) : Program ρ ε β :=
  .ask request fun
    | .ok b => .done b
    | .error e => .fail e

/-- Fail with an error, unless there is none. -/
def ofExcept : Except ε α → Program ρ ε α
  | .ok a => .done a
  | .error e => .fail e

@[simp]
theorem pure_eq (a : α) :
  (pure a : Program ρ ε α) = .done a
  := rfl

@[simp]
theorem done_bind (a : α) (f : α → Program ρ ε β) :
  (.done a : Program ρ ε α) >>= f = f a
  := rfl

@[simp]
theorem fail_bind (e : ε) (f : α → Program ρ ε β) :
  (.fail e : Program ρ ε α) >>= f = .fail e
  := rfl

@[simp]
theorem ask_bind {γ : Type} (request : ρ γ) (next : Except ε γ → Program ρ ε α)
    (f : α → Program ρ ε β) :
  Program.ask request next >>= f = .ask request fun y => next y >>= f
  := rfl

@[simp]
theorem bind_eq (x : Program ρ ε α) (f : α → Program ρ ε β) :
  x.bind f = x >>= f
  := rfl

end Program

/-- How requests are answered in a world. -/
structure Machine (ρ : Type → Type 1) (ε W : Type) where
  Answers : {β : Type} → ρ β → W → Except ε β → W → Prop

namespace Program

/-! ### What a program asks for -/

section Asks

variable {ρ : Type → Type 1} {ε α β : Type} {p : {β : Type} → ρ β → Prop}

/-- All that the program asks for satisfies `p`. -/
def Asks (p : {β : Type} → ρ β → Prop) : Program ρ ε α → Prop
  | .done _ => True
  | .fail _ => True
  | .ask request next => p request ∧ ∀ z, (next z).Asks p

theorem Asks.mono {q : {β : Type} → ρ β → Prop} {x : Program ρ ε α} (h : x.Asks p)
    (hq : ∀ {β : Type} {request : ρ β}, p request → q request) :
  x.Asks q
  := by
  induction x with
  | done a => trivial
  | fail e => trivial
  | ask request next ih => exact ⟨hq h.1, fun z => ih z (h.2 z)⟩

theorem Asks.bind {x : Program ρ ε α} {f : α → Program ρ ε β} (h : x.Asks p)
    (hf : ∀ a, (f a).Asks p) :
  (x >>= f).Asks p
  := by
  induction x with
  | done a => exact hf a
  | fail e => trivial
  | ask request next ih => exact ⟨h.1, fun z => ih z (h.2 z)⟩

theorem Asks.outcome {x : Program ρ ε α} (h : x.Asks p) :
  x.outcome.Asks p
  := by
  induction x with
  | done a => trivial
  | fail e => trivial
  | ask request next ih => exact ⟨h.1, fun z => ih z (h.2 z)⟩

theorem Asks.perform {request : ρ β} (h : p request) :
  (Program.perform request : Program ρ ε β).Asks p
  := by
  refine ⟨h, fun z => ?_⟩
  cases z with
  | ok b => trivial
  | error e => trivial

theorem Asks.ofExcept {z : Except ε α} :
  (Program.ofExcept z : Program ρ ε α).Asks p
  := by
  cases z with
  | ok a => trivial
  | error e => trivial

end Asks

/-! ### Whatever the answers -/

section Ensures

variable {ρ : Type → Type 1} {ε α β : Type} {p : {β : Type} → ρ β → Prop}

/-- Whatever its requests are answered, the program asks only what satisfies `p`, and `post`
holds of what it ends with. -/
def Ensures (p : {β : Type} → ρ β → Prop) (post : Except ε α → Prop) : Program ρ ε α → Prop
  | .done a => post (.ok a)
  | .fail e => post (.error e)
  | .ask request next => p request ∧ ∀ z, (next z).Ensures p post

namespace Ensures

variable {post : Except ε α → Prop} {x : Program ρ ε α}

theorem mono {q : {β : Type} → ρ β → Prop} {post' : Except ε α → Prop} (h : x.Ensures p post)
    (more : ∀ {β : Type} {request : ρ β}, p request → q request)
    (weaker : ∀ y, post y → post' y) :
  x.Ensures q post'
  := by
  induction x with
  | done a => exact weaker _ h
  | fail e => exact weaker _ h
  | ask request next ih => exact ⟨more h.1, fun z => ih z (h.2 z)⟩

/-- The second program goes on from where the first one ends, or the first one fails. -/
theorem bind {f : α → Program ρ ε β} {post' : Except ε β → Prop} (h : x.Ensures p post)
    (next : ∀ a, post (.ok a) → (f a).Ensures p post')
    (failed : ∀ e, post (.error e) → post' (.error e)) :
  (x >>= f).Ensures p post'
  := by
  induction x with
  | done a => exact next a h
  | fail e => exact failed e h
  | ask request next' ih => exact ⟨h.1, fun z => ih z (h.2 z)⟩

/-- The second program is given what the first one ends with, be it an error. -/
theorem outcome_bind {g : Except ε α → Program ρ ε β} {post' : Except ε β → Prop}
    (h : x.Ensures p post) (next : ∀ y, post y → (g y).Ensures p post') :
  (x.outcome >>= g).Ensures p post'
  := by
  induction x with
  | done a => exact next _ h
  | fail e => exact next _ h
  | ask request next' ih => exact ⟨h.1, fun z => ih z (h.2 z)⟩

/-- One request, of whose answer nothing is known. -/
theorem perform {request : ρ β} (asks : p request) {post : Except ε β → Prop}
    (h : ∀ y, post y) :
  (Program.perform request).Ensures p post
  := by
  refine ⟨asks, fun z => ?_⟩
  cases z with
  | ok b => exact h _
  | error e => exact h _

theorem of_asks (h : x.Asks p) (any : ∀ y, post y) :
  x.Ensures p post
  := by
  induction x with
  | done a => exact any _
  | fail e => exact any _
  | ask request next ih => exact ⟨h.1, fun z => ih z (h.2 z)⟩

end Ensures

end Ensures

variable {ρ : Type → Type 1} {ε W α β : Type} (m : Machine ρ ε W)

/-! ### Running to the end -/

/-- Run from `w`, the program ends with `y` in `w'`. -/
inductive Ends : Program ρ ε α → W → Except ε α → W → Prop
  | done (a : α) (w : W) : Ends (.done a) w (.ok a) w
  | fail (e : ε) (w : W) : Ends (.fail e) w (.error e) w
  | ask {γ : Type} {request : ρ γ} {next : Except ε γ → Program ρ ε α} {w w₁ w' : W}
      {z : Except ε γ} {y : Except ε α} (answer : m.Answers request w z w₁)
      (rest : Ends (next z) w₁ y w') : Ends (.ask request next) w y w'

variable {m} {x : Program ρ ε α} {f : α → Program ρ ε β} {w w' : W}

@[simp]
theorem ends_done {a : α} {y : Except ε α} :
  Ends m (.done a) w y w' ↔ y = .ok a ∧ w' = w
  := by
  constructor
  · intro h
    cases h
    exact ⟨rfl, rfl⟩
  · rintro ⟨rfl, rfl⟩
    exact .done a _

@[simp]
theorem ends_fail {e : ε} {y : Except ε α} :
  Ends m (.fail e) w y w' ↔ y = .error e ∧ w' = w
  := by
  constructor
  · intro h
    cases h
    exact ⟨rfl, rfl⟩
  · rintro ⟨rfl, rfl⟩
    exact .fail e _

@[simp]
theorem ends_ask {γ : Type} {request : ρ γ} {next : Except ε γ → Program ρ ε α}
    {y : Except ε α} :
  Ends m (.ask request next) w y w'
    ↔ ∃ z w₁, m.Answers request w z w₁ ∧ Ends m (next z) w₁ y w'
  := by
  constructor
  · intro h
    cases h with
    | ask answer rest => exact ⟨_, _, answer, rest⟩
  · rintro ⟨z, w₁, answer, rest⟩
    exact .ask answer rest

@[simp]
theorem ends_perform {request : ρ β} {y : Except ε β} :
  Ends m (perform request) w y w' ↔ m.Answers request w y w'
  := by
  rw [perform, ends_ask]
  constructor
  · rintro ⟨z, w₁, answer, rest⟩
    cases z with
    | ok b =>
        obtain ⟨rfl, rfl⟩ := ends_done.mp rest
        exact answer
    | error e =>
        obtain ⟨rfl, rfl⟩ := ends_fail.mp rest
        exact answer
  · intro answer
    refine ⟨y, w', answer, ?_⟩
    cases y with
    | ok b => exact .done b _
    | error e => exact .fail e _

@[simp]
theorem ends_ofExcept {z y : Except ε α} :
  Ends m (ofExcept z) w y w' ↔ y = z ∧ w' = w
  := by
  cases z with
  | ok a => exact ends_done
  | error e => exact ends_fail

/-- A composite ends with its second program, or with the error of its first. -/
@[simp]
theorem ends_bind {y : Except ε β} :
  Ends m (x >>= f) w y w'
    ↔ (∃ a w₁, Ends m x w (.ok a) w₁ ∧ Ends m (f a) w₁ y w')
      ∨ ∃ e, Ends m x w (.error e) w' ∧ y = .error e
  := by
  induction x generalizing w with
  | done a => simp
  | fail e => simp [and_comm]
  | ask request next ih =>
      simp only [ask_bind, ends_ask, ih]
      constructor
      · rintro ⟨z, w₁, answer, ⟨a, w₂, hx, hf⟩ | ⟨e, hx, rfl⟩⟩
        · exact Or.inl ⟨a, w₂, ⟨z, w₁, answer, hx⟩, hf⟩
        · exact Or.inr ⟨e, ⟨z, w₁, answer, hx⟩, rfl⟩
      · rintro (⟨a, w₂, ⟨z, w₁, answer, hx⟩, hf⟩ | ⟨e, ⟨z, w₁, answer, hx⟩, rfl⟩)
        · exact ⟨z, w₁, answer, Or.inl ⟨a, w₂, hx, hf⟩⟩
        · exact ⟨z, w₁, answer, Or.inr ⟨e, hx, rfl⟩⟩

/-- The outcome of a program is what the program ends with. -/
@[simp]
theorem ends_outcome {y : Except ε (Except ε α)} :
  Ends m x.outcome w y w' ↔ ∃ z, Ends m x w z w' ∧ y = .ok z
  := by
  induction x generalizing w with
  | done a => simp [outcome, and_comm]
  | fail e => simp [outcome, and_comm]
  | ask request next ih =>
      simp only [outcome, ends_ask, ih]
      constructor
      · rintro ⟨z, w₁, answer, y, hx, rfl⟩
        exact ⟨y, ⟨z, w₁, answer, hx⟩, rfl⟩
      · rintro ⟨y, ⟨z, w₁, answer, hx⟩, rfl⟩
        exact ⟨z, w₁, answer, y, hx, rfl⟩

/-- A program goes on with what another ends with, be it an error. -/
theorem ends_outcome_bind {g : Except ε α → Program ρ ε β} {y : Except ε β} :
  Ends m (x.outcome >>= g) w y w' ↔ ∃ z w₁, Ends m x w z w₁ ∧ Ends m (g z) w₁ y w'
  := by
  simp only [ends_bind, ends_outcome]
  constructor
  · rintro (⟨z, w₁, ⟨z', hx, hz⟩, rest⟩ | ⟨_, ⟨_, _, hz⟩, _⟩)
    · cases hz
      exact ⟨z, w₁, hx, rest⟩
    · cases hz
  · rintro ⟨z, w₁, hx, rest⟩
    exact Or.inl ⟨z, w₁, ⟨z, hx, rfl⟩, rest⟩

/-- A program of which all requests can be answered has a run. -/
theorem exists_ends {p : {β : Type} → ρ β → Prop} (asks : x.Asks p)
    (answered : ∀ {β : Type} {request : ρ β} (w : W), p request →
      ∃ z w', m.Answers request w z w') (w : W) :
  ∃ y w', Ends m x w y w'
  := by
  induction x generalizing w with
  | done a => exact ⟨_, _, .done a w⟩
  | fail e => exact ⟨_, _, .fail e w⟩
  | ask request next ih =>
      obtain ⟨z, w₁, answer⟩ := answered w asks.1
      obtain ⟨y, w', rest⟩ := ih z (asks.2 z) w₁
      exact ⟨y, w', .ask answer rest⟩

/-! ### What holds along a run -/

variable (m) in
/-- Run from `w`, the program asks only what `p` allows in the world it asks in, and `post` holds
of what it ends with. -/
def Always (p : {β : Type} → ρ β → W → Prop) (post : Except ε α → W → Prop) :
    Program ρ ε α → W → Prop
  | .done a, w => post (.ok a) w
  | .fail e, w => post (.error e) w
  | .ask request next, w => p request w ∧ ∀ z w₁, m.Answers request w z w₁ →
      (next z).Always p post w₁

variable (m) in
/-- Run from `w`, the program ends as `post` says. -/
abbrev Leads (x : Program ρ ε α) (w : W) (post : Except ε α → W → Prop) : Prop :=
  x.Always m (fun _ _ => True) post w

namespace Always

variable {p : {β : Type} → ρ β → W → Prop} {post : Except ε α → W → Prop}

theorem mono {post' : Except ε α → W → Prop} (h : x.Always m p post w)
    (weaker : ∀ y w', post y w' → post' y w') :
  x.Always m p post' w
  := by
  induction x generalizing w with
  | done a => exact weaker _ _ h
  | fail e => exact weaker _ _ h
  | ask request next ih => exact ⟨h.1, fun z w₁ answer => ih z (h.2 z w₁ answer)⟩

/-- The second program goes on from where the first one ends, or the first one fails. -/
theorem bind {post' : Except ε β → W → Prop} (h : x.Always m p post w)
    (next : ∀ a w₁, post (.ok a) w₁ → (f a).Always m p post' w₁)
    (failed : ∀ e w₁, post (.error e) w₁ → post' (.error e) w₁) :
  (x >>= f).Always m p post' w
  := by
  induction x generalizing w with
  | done a => exact next a w h
  | fail e => exact failed e w h
  | ask request next' ih => exact ⟨h.1, fun z w₁ answer => ih z (h.2 z w₁ answer)⟩

/-- The second program goes on from where the first one ends, which does not fail. -/
theorem bind_ok {mid : W → Prop} {post' : Except ε β → W → Prop}
    (h : x.Always m p (fun y w' => (∃ a, y = .ok a) ∧ mid w') w)
    (next : ∀ a w₁, mid w₁ → (f a).Always m p post' w₁) :
  (x >>= f).Always m p post' w
  := by
  refine h.bind (fun a w₁ hmid => next a w₁ hmid.2) ?_
  rintro e w₁ ⟨⟨a, ha⟩, _⟩
  cases ha

/-- The second program goes on with what the first one returns, which does not fail. -/
theorem bind_value {mid : α → W → Prop} {post' : Except ε β → W → Prop}
    (h : x.Always m p (fun y w' => ∃ a, y = .ok a ∧ mid a w') w)
    (next : ∀ a w₁, mid a w₁ → (f a).Always m p post' w₁) :
  (x >>= f).Always m p post' w
  := by
  refine h.bind ?_ ?_
  · rintro _ w₁ ⟨a, ha, hmid⟩
    obtain rfl := Except.ok.inj ha
    exact next _ w₁ hmid
  · rintro e w₁ ⟨a, ha, _⟩
    cases ha

/-- The second program is given what the first one ends with, be it an error. -/
theorem outcome_bind {g : Except ε α → Program ρ ε β} {post' : Except ε β → W → Prop}
    (h : x.Always m p post w) (next : ∀ y w₁, post y w₁ → (g y).Always m p post' w₁) :
  (x.outcome >>= g).Always m p post' w
  := by
  induction x generalizing w with
  | done a => exact next _ w h
  | fail e => exact next _ w h
  | ask request next' ih => exact ⟨h.1, fun z w₁ answer => ih z (h.2 z w₁ answer)⟩

theorem perform {request : ρ β} {post : Except ε β → W → Prop} (asks : p request w)
    (h : ∀ y w', m.Answers request w y w' → post y w') :
  (Program.perform request).Always m p post w
  := by
  refine ⟨asks, fun z w₁ answer => ?_⟩
  cases z with
  | ok b => exact h _ _ answer
  | error e => exact h _ _ answer

/-- What every request keeps that the program asks holds when the program ends. -/
theorem of_asks {q : {β : Type} → ρ β → Prop} {invariant : W → Prop} (asks : x.Asks q)
    (allowed : ∀ {β : Type} {request : ρ β} {w₁}, q request → invariant w₁ → p request w₁)
    (step : ∀ {β : Type} {request : ρ β} {z : Except ε β} {w₁ w₂}, q request → invariant w₁ →
      m.Answers request w₁ z w₂ → invariant w₂)
    (h : invariant w) :
  x.Always m p (fun _ => invariant) w
  := by
  induction x generalizing w with
  | done a => exact h
  | fail e => exact h
  | ask request next ih =>
      exact ⟨allowed asks.1 h, fun z w₁ answer => ih z (asks.2 z) (step asks.1 h answer)⟩

/-- What the program ends with. -/
theorem ends (h : x.Always m p post w) {y : Except ε α} (run : Ends m x w y w') :
  post y w'
  := by
  induction run with
  | done a w => exact h
  | fail e w => exact h
  | ask answer _ ih => exact ih (h.2 _ _ answer)

/-- A machine that gives no other answers to what a program asks for leads it nowhere else. -/
theorem transfer {m' : Machine ρ ε W} {q : {β : Type} → ρ β → Prop} (h : x.Always m p post w)
    (asks : x.Asks q)
    (answers : ∀ {β : Type} {request : ρ β} {w₁ z w₂}, q request →
      m'.Answers request w₁ z w₂ → m.Answers request w₁ z w₂) :
  x.Always m' p post w
  := by
  induction x generalizing w with
  | done a => exact h
  | fail e => exact h
  | ask request next ih =>
      refine ⟨h.1, fun z w₁ answer => ?_⟩
      apply ih z
      · exact h.2 z w₁ (answers asks.1 answer)
      · exact asks.2 z

/-- What holds of all ends of the program. -/
theorem of_ends (h : ∀ y w', Ends m x w y w' → post y w') :
  Leads m x w post
  := by
  induction x generalizing w with
  | done a => exact h _ _ (.done a w)
  | fail e => exact h _ _ (.fail e w)
  | ask request next ih =>
      exact ⟨trivial, fun z w₁ answer => ih z fun y w' run => h y w' (.ask answer run)⟩

end Always

/-- What holds whatever the answers holds of what the program ends with. -/
theorem Ensures.ends {p : {β : Type} → ρ β → Prop} {post : Except ε α → Prop}
    {x : Program ρ ε α} (h : x.Ensures p post) {w w' : W} {y : Except ε α}
    (run : Ends m x w y w') :
  post y
  := by
  induction run with
  | done => exact h
  | fail => exact h
  | ask _ _ ih => exact ih (h.2 _)

/-! ### Running a part of the way -/

variable (m) in
/-- Run from `w` for some requests, the program has `x'` left to do in `w'`. -/
inductive Steps : Program ρ ε α → W → Program ρ ε α → W → Prop
  | here (x : Program ρ ε α) (w : W) : Steps x w x w
  | ask {γ : Type} {request : ρ γ} {next : Except ε γ → Program ρ ε α} {x' : Program ρ ε α}
      {w w₁ w' : W} {z : Except ε γ} (answer : m.Answers request w z w₁)
      (rest : Steps (next z) w₁ x' w') : Steps (.ask request next) w x' w'

/-- Steps of a composite are steps of its first program, or come after its end. -/
theorem steps_bind {z : Program ρ ε β} :
  Steps m (x >>= f) w z w'
    ↔ (∃ x', Steps m x w x' w' ∧ z = x' >>= f)
      ∨ ∃ a w₁, Ends m x w (.ok a) w₁ ∧ Steps m (f a) w₁ z w'
  := by
  induction x generalizing w with
  | done a =>
      constructor
      · exact fun h => Or.inr ⟨a, w, .done a w, h⟩
      · rintro (⟨_, ⟨⟩, rfl⟩ | ⟨_, _, ⟨⟩, h⟩)
        · exact .here _ _
        · exact h
  | fail e =>
      constructor
      · intro h
        cases h with
        | here => exact Or.inl ⟨_, .here _ _, rfl⟩
      · rintro (⟨_, ⟨⟩, rfl⟩ | ⟨_, _, ⟨⟩, _⟩)
        exact .here _ _
  | ask request next ih =>
      constructor
      · intro h
        cases h with
        | here => exact Or.inl ⟨_, .here _ _, rfl⟩
        | ask answer rest =>
            rcases (ih _).mp rest with ⟨x', steps, rfl⟩ | ⟨a, w₁, ends, steps⟩
            · exact Or.inl ⟨x', .ask answer steps, rfl⟩
            · exact Or.inr ⟨a, w₁, .ask answer ends, steps⟩
      · rintro (⟨x', steps, rfl⟩ | ⟨a, w₁, ends, steps⟩)
        · cases steps with
          | here => exact .here _ _
          | ask answer rest => exact .ask answer ((ih _).mpr (Or.inl ⟨x', rest, rfl⟩))
        · cases ends with
          | ask answer rest => exact .ask answer ((ih _).mpr (Or.inr ⟨a, w₁, rest, steps⟩))

/-- What the program is about to ask for, when it has run a part of the way. -/
theorem Always.steps {p : {β : Type} → ρ β → W → Prop} {post : Except ε α → W → Prop}
    (h : x.Always m p post w) {x' : Program ρ ε α} (run : Steps m x w x' w') :
  x'.Always m p post w'
  := by
  induction run with
  | here => exact h
  | ask answer _ ih => exact ih (h.2 _ _ answer)

/-! ### Running at once -/

section Interleaved

variable {ι : Type} [DecidableEq ι]

/-- What many programs have left to do, and the world, when they run at once, one request at a
time. How a request is answered may depend on who asks. -/
inductive Interleaved (ms : ι → Machine ρ ε W) (x₀ : ι → Program ρ ε α) (w₀ : W) :
    (ι → Program ρ ε α) → W → Prop
  | start : Interleaved ms x₀ w₀ x₀ w₀
  | step {x : ι → Program ρ ε α} {w w' : W} {i : ι} {γ : Type} {request : ρ γ}
      {next : Except ε γ → Program ρ ε α} {z : Except ε γ}
      (run : Interleaved ms x₀ w₀ x w) (turn : x i = .ask request next)
      (answer : (ms i).Answers request w z w') :
      Interleaved ms x₀ w₀ (Function.update x i (next z)) w'

/-- One of the programs may run to its end while the others wait. -/
theorem Interleaved.ends {ms : ι → Machine ρ ε W} {x₀ x : ι → Program ρ ε α} {w₀ w w' : W}
    (run : Interleaved ms x₀ w₀ x w) {i : ι} {p : Program ρ ε α} (turn : x i = p) {y : Except ε α}
    (h : Ends (ms i) p w y w') :
  Interleaved ms x₀ w₀ (Function.update x i (ofExcept y)) w'
  := by
  induction h generalizing x with
  | done a w =>
      rw [ofExcept, ← turn, Function.update_eq_self]
      exact run
  | fail e w =>
      rw [ofExcept, ← turn, Function.update_eq_self]
      exact run
  | @ask _ _ next _ _ _ z _ answer _ ih =>
      have later := ih (run.step turn answer) (Function.update_self i (next z) x)
      rwa [Function.update_idem] at later

end Interleaved

/-! ### Relying and guaranteeing -/

variable (m) in
/-- While others change the world by `rely`, each step of the program is one of `guarantee`,
and `post` holds of what it ends with from then on. -/
def Holds (rely guarantee : W → W → Prop) (post : Except ε α → W → Prop) :
    Program ρ ε α → W → Prop
  | .done a, w => ∀ w', rely w w' → post (.ok a) w'
  | .fail e, w => ∀ w', rely w w' → post (.error e) w'
  | .ask request next, w => ∀ w₁, rely w w₁ → ∀ z w₂, m.Answers request w₁ z w₂ →
      guarantee w₁ w₂ ∧ (next z).Holds rely guarantee post w₂

/-- Relations that others may follow for any number of steps. -/
structure Stable (rely : W → W → Prop) : Prop where
  refl : ∀ w, rely w w
  trans : ∀ {w w₁ w₂}, rely w w₁ → rely w₁ w₂ → rely w w₂

namespace Holds

variable {rely guarantee : W → W → Prop} {post : Except ε α → W → Prop}

/-- What holds of a program holds after others have changed the world. -/
theorem later (h : x.Holds m rely guarantee post w) (stable : Stable rely) (hw : rely w w') :
  x.Holds m rely guarantee post w'
  := by
  cases x with
  | done a => exact fun w₁ hw₁ => h w₁ (stable.trans hw hw₁)
  | fail e => exact fun w₁ hw₁ => h w₁ (stable.trans hw hw₁)
  | ask request next => exact fun w₁ hw₁ => h w₁ (stable.trans hw hw₁)

/-- A weaker claim on how the program ends. -/
theorem mono {post' : Except ε α → W → Prop} (h : x.Holds m rely guarantee post w)
    (weaker : ∀ y w, post y w → post' y w) :
  x.Holds m rely guarantee post' w
  := by
  induction x generalizing w with
  | done a => exact fun w' hw => weaker _ _ (h w' hw)
  | fail e => exact fun w' hw => weaker _ _ (h w' hw)
  | ask request next ih =>
      intro w₁ hw z w₂ answer
      obtain ⟨hstep, hrest⟩ := h w₁ hw z w₂ answer
      exact ⟨hstep, ih z hrest⟩

/-- A weaker guarantee. -/
theorem weaken {guarantee' : W → W → Prop} (h : x.Holds m rely guarantee post w)
    (weaker : ∀ w w', guarantee w w' → guarantee' w w') :
  x.Holds m rely guarantee' post w
  := by
  induction x generalizing w with
  | done a => exact h
  | fail e => exact h
  | ask request next ih =>
      intro w₁ hw z w₂ answer
      obtain ⟨hstep, hrest⟩ := h w₁ hw z w₂ answer
      exact ⟨weaker w₁ w₂ hstep, ih z hrest⟩

/-- What holds of a composite: the second program goes on from where the first one ends. -/
theorem bind {post : Except ε β → W → Prop} (stable : Stable rely)
    (h : x.Holds m rely guarantee (fun y w => match y with
      | .ok a => (f a).Holds m rely guarantee post w
      | .error e => post (.error e) w) w) :
  (x >>= f).Holds m rely guarantee post w
  := by
  induction x generalizing w with
  | done a => exact h w (stable.refl w)
  | fail e => exact h
  | ask request next ih =>
      intro w₁ hw z w₂ answer
      obtain ⟨hstep, hrest⟩ := h w₁ hw z w₂ answer
      exact ⟨hstep, ih z hrest⟩

/-- What neither the others nor the program itself can break holds at the end as well. -/
theorem frame {kept : W → Prop} (others : ∀ w w', kept w → rely w w' → kept w')
    (own : ∀ w w', kept w → guarantee w w' → kept w') (h : x.Holds m rely guarantee post w)
    (first : kept w) :
  x.Holds m rely guarantee (fun y w' => post y w' ∧ kept w') w
  := by
  induction x generalizing w with
  | done a => exact fun w' hw => ⟨h w' hw, others w w' first hw⟩
  | fail e => exact fun w' hw => ⟨h w' hw, others w w' first hw⟩
  | ask request next ih =>
      intro w₁ hw z w₂ answer
      obtain ⟨hstep, hrest⟩ := h w₁ hw z w₂ answer
      exact ⟨hstep, ih z hrest (own w₁ w₂ (others w w₁ first hw) hstep)⟩

/-- What holds of the outcome of a program. -/
theorem outcome {post : Except ε (Except ε α) → W → Prop}
    (h : x.Holds m rely guarantee (fun y w => post (.ok y) w) w) :
  x.outcome.Holds m rely guarantee post w
  := by
  induction x generalizing w with
  | done a => exact h
  | fail e => exact h
  | ask request next ih =>
      intro w₁ hw z w₂ answer
      obtain ⟨hstep, hrest⟩ := h w₁ hw z w₂ answer
      exact ⟨hstep, ih z hrest⟩

/-- One request. -/
theorem perform {request : ρ β} {post : Except ε β → W → Prop}
    (h : ∀ w₁, rely w w₁ → ∀ z w₂, m.Answers request w₁ z w₂ →
      guarantee w₁ w₂ ∧ ∀ w₃, rely w₂ w₃ → post z w₃) :
  (Program.perform request).Holds m rely guarantee post w
  := by
  intro w₁ hw z w₂ answer
  obtain ⟨hstep, hpost⟩ := h w₁ hw z w₂ answer
  cases z with
  | ok b => exact ⟨hstep, hpost⟩
  | error e => exact ⟨hstep, hpost⟩

/-- One request, asked where `pre` holds, and answered as `mid` says. Others may go on before it is
answered and after that. -/
theorem perform_stable {request : ρ β} {pre : W → Prop} {mid : Except ε β → W → Prop}
    (waiting : ∀ w w', rely w w' → pre w → pre w')
    (replying : ∀ z w w', rely w w' → mid z w → mid z w')
    (step : ∀ w₁ z w₂, pre w₁ → m.Answers request w₁ z w₂ → guarantee w₁ w₂ ∧ mid z w₂)
    (h : pre w) :
  (Program.perform request).Holds m rely guarantee mid w
  := by
  apply perform
  intro w₁ hw₁ z w₂ answer
  obtain ⟨hstep, hmid⟩ := step w₁ z w₂ (waiting w w₁ hw₁ h) answer
  exact ⟨hstep, fun w₃ hw₃ => replying z w₂ w₃ hw₃ hmid⟩

/-- The second program goes on from where the first one ends, which does not fail. -/
theorem bind_ok {mid : α → W → Prop} {post : Except ε β → W → Prop} (stable : Stable rely)
    (h : x.Holds m rely guarantee (fun y w => ∃ a, y = .ok a ∧ mid a w) w)
    (next : ∀ a w, mid a w → (f a).Holds m rely guarantee post w) :
  (x >>= f).Holds m rely guarantee post w
  := by
  apply Holds.bind stable
  apply h.mono
  rintro y w₁ ⟨a, rfl, hmid⟩
  exact next a w₁ hmid

theorem ofExcept {z : Except ε α} (h : ∀ w', rely w w' → post z w') :
  (Program.ofExcept z).Holds m rely guarantee post w
  := by
  cases z with
  | ok a => exact h
  | error e => exact h

/-- A program of which every step is one of `guarantee`, and may be taken at any time, for as
long as `post` holds of every end. -/
theorem of_asks {p : {β : Type} → ρ β → Prop} (stable : Stable rely) (asks : x.Asks p)
    (within : ∀ w w', guarantee w w' → rely w w')
    (step : ∀ {β : Type} {request : ρ β} {z : Except ε β} {w₁ w₂}, p request → rely w w₁ →
      m.Answers request w₁ z w₂ → guarantee w₁ w₂)
    (post_of_rely : ∀ y w', rely w w' → post y w') :
  x.Holds m rely guarantee post w
  := by
  induction x generalizing w with
  | done a => exact fun w' hw => post_of_rely _ w' hw
  | fail e => exact fun w' hw => post_of_rely _ w' hw
  | ask request next ih =>
      intro w₁ hw z w₂ answer
      have hstep := step asks.1 hw answer
      have hw₂ := stable.trans hw (within w₁ w₂ hstep)
      exact ⟨hstep, ih z (asks.2 z) (fun hp hw₃ => step hp (stable.trans hw₂ hw₃))
        fun y w' hw' => post_of_rely y w' (stable.trans hw₂ hw')⟩

/-- A program that guarantees what it relies on leads from the world it begins in. -/
theorem since {w₀ : W} (stable : Stable rely) (h : x.Holds m rely rely post w) (hw : rely w₀ w) :
  x.Holds m rely rely (fun y w' => rely w₀ w' ∧ post y w') w
  := by
  induction x generalizing w with
  | done a => exact fun w' hw' => ⟨stable.trans hw hw', h w' hw'⟩
  | fail e => exact fun w' hw' => ⟨stable.trans hw hw', h w' hw'⟩
  | ask request next ih =>
      intro w₁ hw₁ z w₂ answer
      obtain ⟨hstep, hrest⟩ := h w₁ hw₁ z w₂ answer
      exact ⟨hstep, ih z hrest (stable.trans (stable.trans hw hw₁) hstep)⟩

end Holds

/-- Programs that run at once, each of which guarantees what the others rely on, keep what was
proved of each of them, and what their guarantees keep. -/
theorem Interleaved.holds {ι : Type} [DecidableEq ι] {ms : ι → Machine ρ ε W}
    {x₀ x : ι → Program ρ ε α} {w₀ w : W} (run : Interleaved ms x₀ w₀ x w)
    {rely guarantee : ι → W → W → Prop} {post : ι → Except ε α → W → Prop}
    (stable : ∀ i, Stable (rely i))
    (agree : ∀ i j, i ≠ j → ∀ w w', guarantee j w w' → rely i w w')
    (start : ∀ i, (x₀ i).Holds (ms i) (rely i) (guarantee i) (post i) w₀)
    {invariant : W → Prop} (first : invariant w₀)
    (kept : ∀ i w w', guarantee i w w' → invariant w → invariant w') :
  (∀ i, (x i).Holds (ms i) (rely i) (guarantee i) (post i) w) ∧ invariant w
  := by
  induction run with
  | start => exact ⟨start, first⟩
  | @step x w w' i _ request next z run turn answer ih =>
      obtain ⟨holds, inv⟩ := ih
      have hi := holds i
      rw [turn] at hi
      obtain ⟨hstep, hnext⟩ := hi w ((stable i).refl w) z w' answer
      refine ⟨fun j => ?_, kept i w w' hstep inv⟩
      by_cases hj : j = i
      · subst hj
        rw [Function.update_self]
        exact hnext
      · rw [Function.update_of_ne hj]
        exact (holds j).later (stable j) (agree j i hj w w' hstep)

end Program
