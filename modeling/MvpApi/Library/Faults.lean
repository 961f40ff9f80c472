import MvpApi.Library.Program

/-!
# A single fault

Of a machine that answers every request, `withFault` makes one that fails once in a run, at any
request that may fail: the world stays as it is, and the answer is an error. It keeps where the run
has failed, which is described by the kind of the request, and that of the request before it.
-/

set_option autoImplicit false

/-- Where and how a run has failed. -/
structure Fault (κ ε : Type) where
  /-- The kind of the request before the one that failed. -/
  after : Option κ
  kind : κ
  error : ε
deriving DecidableEq, Repr

/-- The world of a run that may have failed. -/
@[ext]
structure Faulty (κ ε W : Type) where
  world : W
  /-- The kind of the last request. -/
  last : Option κ
  fault : Option (Fault κ ε)

namespace Machine

variable {ρ : Type → Type 1} {ε W κ : Type} (m : Machine ρ ε W) (kind : {β : Type} → ρ β → κ)
  (mayFail : {β : Type} → ρ β → Prop)

/-- How a request is answered, if one request may fail. -/
inductive AnswersOrFails : {β : Type} → ρ β → Faulty κ ε W → Except ε β → Faulty κ ε W → Prop
  /-- The request is answered. -/
  | answer {β : Type} {request : ρ β} {v : Faulty κ ε W} {y : Except ε β} {w' : W}
      (answer : m.Answers request v.world y w') :
      AnswersOrFails request v y ⟨w', some (kind request), v.fault⟩
  /-- The request fails, and none has failed before. -/
  | fail {β : Type} {request : ρ β} {w : W} {last : Option κ} {e : ε} (may : mayFail request) :
      AnswersOrFails request ⟨w, last, none⟩ (.error e)
        ⟨w, some (kind request), some ⟨last, kind request, e⟩⟩

/-- The machine of which one request may fail. -/
def withFault : Machine ρ ε (Faulty κ ε W) where
  Answers := m.AnswersOrFails kind mayFail

variable {m kind mayFail}

/-- A request is answered, or it is the one that fails. -/
theorem answers_withFault {β : Type} {request : ρ β} {v v' : Faulty κ ε W} {y : Except ε β}
    (h : (m.withFault kind mayFail).Answers request v y v') :
  (∃ w', m.Answers request v.world y w' ∧ v' = ⟨w', some (kind request), v.fault⟩)
    ∨ ∃ e, mayFail request ∧ v.fault = none ∧ y = .error e
        ∧ v' = ⟨v.world, some (kind request), some ⟨v.last, kind request, e⟩⟩
  := by
  cases h with
  | answer answer => exact Or.inl ⟨_, answer, rfl⟩
  | fail may => exact Or.inr ⟨_, may, rfl, rfl, rfl⟩

end Machine
