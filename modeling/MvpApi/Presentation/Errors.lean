import MvpApi.Application.RateLimiter

/-!
# Answers to errors

The errors of the use cases as answers of the API. The kind of a `DomainError` decides the
status, by the first of its classes that has one; a lost race is a conflict, and what nobody
handles is an internal error.
-/

set_option autoImplicit false

namespace MvpApi

/-! ### Details -/

/-- The `detail` of an error: a message, or the step of the onboarding that is due. -/
inductive Detail where
  | text (message : String)
  | onboardingIncomplete (status : OnboardingStatus)
deriving DecidableEq, Repr

/-- What reaches the client of a `DomainError`. -/
def DomainError.detail : DomainError → Detail
  | .invalid message => .text message
  | .unauthenticated message => .text message
  | .forbidden message => .text message
  | .notFound message => .text message
  | .conflict message => .text message
  | .gone message => .text message
  | .preconditionFailed message => .text message
  | .contentTooLarge message => .text message
  | .unsupportedMediaType message => .text message
  | .onboardingIncomplete status => .onboardingIncomplete status

/-! ### Statuses -/

/-- The classes of `DomainError`s. -/
inductive ErrorKind where
  | invalid
  | unauthenticated
  | forbidden
  | notFound
  | conflict
  | gone
  | preconditionFailed
  | contentTooLarge
  | unsupportedMediaType
  | onboardingIncomplete
deriving DecidableEq, Repr

/-- The classes of an error, its own first. -/
def DomainError.mro : DomainError → List ErrorKind
  | .invalid _ => [.invalid]
  | .unauthenticated _ => [.unauthenticated]
  | .forbidden _ => [.forbidden]
  | .notFound _ => [.notFound]
  | .conflict _ => [.conflict]
  | .gone _ => [.gone]
  | .preconditionFailed _ => [.preconditionFailed]
  | .contentTooLarge _ => [.contentTooLarge]
  | .unsupportedMediaType _ => [.unsupportedMediaType]
  | .onboardingIncomplete _ => [.onboardingIncomplete, .forbidden]

def statusByKind : List (ErrorKind × ℕ) := [
  (.unauthenticated, 401),
  (.forbidden, 403),
  (.notFound, 404),
  (.conflict, 409),
  (.gone, 410),
  (.preconditionFailed, 412),
  (.contentTooLarge, 413),
  (.unsupportedMediaType, 415),
  (.invalid, 422)]

/-- The status of the first class of an error that has one. -/
def statusFor (error : DomainError) : ℕ :=
  (error.mro.findSome? fun kind => List.lookup kind statusByKind).getD 400

/-! ### Answers -/

/-- An answer of the API: a body, or the detail of an error. -/
structure Response (α : Type) where
  status : ℕ
  headers : List (String × String)
  content : Except Detail α

variable {α : Type}

def bearerChallenge : List (String × String) := [("WWW-Authenticate", "Bearer")]

/-- The answer to a `DomainError`. -/
def DomainError.response (error : DomainError) : Response α where
  status := statusFor error
  headers := if statusFor error = 401 then bearerChallenge else []
  content := .error error.detail

/-- The answer to a lost race. -/
def Response.concurrencyConflict : Response α :=
  ⟨409, [], .error (.text "Someone changed this at the same time, try again")⟩

/-- The answer to an error that nobody handles. -/
def Response.unhandled : Response α := ⟨500, [], .error (.text "Internal server error")⟩

/-- The answer to the exception that a use case ends with. -/
def Failure.response : Failure → Response α
  | .domain error => error.response
  | .concurrencyConflict => .concurrencyConflict
  | _ => .unhandled

/-- The answer to an `HTTPException`. -/
def HttpException.response (exception : HttpException) : Response α :=
  ⟨exception.statusCode, exception.headers, .error (.text exception.detail)⟩

/-- The answer to a body or to parameters that are not valid. -/
def Response.unprocessable : Response α := ⟨422, [], .error (.text "Validation error")⟩

/-- The status of each kind of error. -/
theorem statusFor_eq (error : DomainError) :
  statusFor error
    = match error with
      | .unauthenticated _ => 401
      | .forbidden _ => 403
      | .onboardingIncomplete _ => 403
      | .notFound _ => 404
      | .conflict _ => 409
      | .gone _ => 410
      | .preconditionFailed _ => 412
      | .contentTooLarge _ => 413
      | .unsupportedMediaType _ => 415
      | .invalid _ => 422
  := by
  cases error with
  | _ => rfl

end MvpApi
