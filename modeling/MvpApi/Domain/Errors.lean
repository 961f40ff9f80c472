import MvpApi.Library.Exec
import MvpApi.Domain.Access

/-!
# Errors

`DomainError` lists the kinds of rules the domain refuses to break, each with the message
that reaches the client. `Failure` adds the exceptions of the layers around the domain:
of the database, of the unit of work, and of the services outside.
-/

set_option autoImplicit false

namespace MvpApi

/-- A rule the domain refuses to break. -/
inductive DomainError where
  | invalid (message : String)
  | unauthenticated (message : String)
  | forbidden (message : String)
  | notFound (message : String)
  | conflict (message : String)
  | gone (message : String)
  | preconditionFailed (message : String)
  | contentTooLarge (message : String)
  | unsupportedMediaType (message : String)
  | onboardingIncomplete (status : OnboardingStatus)
deriving DecidableEq, Repr

/-- The exceptions a use case can end with. -/
inductive Failure where
  /-- A `DomainError`. -/
  | domain (error : DomainError)
  /-- `DuplicateError`: a write broke a uniqueness constraint. -/
  | duplicate
  /-- `ConcurrencyConflictError`: a concurrent transaction won and retrying did not help. -/
  | concurrencyConflict
  /-- The driver's `IntegrityError`. -/
  | integrity
  /-- Another `DBAPIError`, with the SQLSTATE of the driver's error and of its cause. -/
  | database (sqlstate cause : Option String)
  | emailTaken
  | passwordRejected (message : String)
  | accountLookup (message : String)
  /-- A `ClientError` of a service outside, with its code. -/
  | client (code : String)
  /-- Any other exception. -/
  | other (message : String)
deriving DecidableEq, Repr

/-- The value, or a `NotFoundError` when there is none. -/
def found {α : Type} (value : Option α) (message : String) : Except DomainError α :=
  match value with
  | some a => .ok a
  | none => .error (.notFound message)

@[simp]
theorem found_eq_ok {α : Type} {value : Option α} {message : String} {a : α} :
  found value message = .ok a ↔ value = some a
  := by
  cases value with
  | none => simp [found]
  | some b => simp [found]

@[simp]
theorem found_eq_error {α : Type} {value : Option α} {message : String} {e : DomainError} :
  found value message = .error e ↔ value = none ∧ e = .notFound message
  := by
  cases value with
  | none => simp [found, eq_comm]
  | some b => simp [found]

end MvpApi
