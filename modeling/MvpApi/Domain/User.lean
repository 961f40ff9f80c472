import MvpApi.Domain.Errors

/-!
# Accounts

An account is the subject of the identity provider and the profile the product keeps. Its
onboarding status is stored, and each of the events that concern it moves the status by
its own rule.
-/

set_option autoImplicit false

namespace MvpApi

def accountNotFound : String := "Account not found"
def emailHeldByAnotherAccount : String :=
  "This email already belongs to another account. Contact support to recover it."

/-- An account. -/
structure User where
  id : String
  email : String
  displayName : String
  avatarUrl : Option String
  avatarKey : Option String
  onboardingStatus : OnboardingStatus
  createdAt : Time
deriving DecidableEq, Repr

namespace User

/-- An account the identity provider just vouched for, created at the time `now`. -/
def new (lower : String → String) (userId email displayName : String) (now : Time) : User where
  id := userId
  email := lower email
  displayName := strip displayName
  avatarUrl := none
  avatarKey := none
  onboardingStatus := if strip displayName ≠ "" then .workspacePending else .profilePending
  createdAt := now

/-- Refuse an account that has not come as far as `allowed`. -/
def ensureOnboarded (user : User) (allowed : List OnboardingStatus) : Except DomainError Unit :=
  if user.onboardingStatus ∈ allowed then .ok ()
  else .error (.onboardingIncomplete user.onboardingStatus)

/-- Naming the profile finishes its step; the next is joining or creating a workspace. -/
def rename (user : User) (displayName : String) (belongsToAWorkspace : Bool) : User :=
  { user with
    displayName := displayName
    onboardingStatus :=
      if user.onboardingStatus = .profilePending then
        if belongsToAWorkspace then .completed else .workspacePending
      else user.onboardingStatus }

/-- Point at a new avatar, or at none; the key it replaces is `user.avatarKey`. -/
def replaceAvatar (user : User) (key url : Option String) : User :=
  { user with avatarKey := key, avatarUrl := url }

def createdAWorkspace (user : User) : User :=
  { user with onboardingStatus := .completed }

def joinedAWorkspace (user : User) : User :=
  { user with
    onboardingStatus :=
      if user.onboardingStatus = .workspacePending then .completed else user.onboardingStatus }

def leftEveryWorkspace (user : User) : User :=
  { user with
    onboardingStatus :=
      if user.onboardingStatus = .completed then .workspacePending else user.onboardingStatus }

@[simp]
theorem ensureOnboarded_eq_ok {user : User} {allowed : List OnboardingStatus} {u : Unit} :
  user.ensureOnboarded allowed = .ok u ↔ user.onboardingStatus ∈ allowed
  := by
  unfold ensureOnboarded
  split
  · simp [*]
  · simp [*]

@[simp]
theorem ensureOnboarded_eq_error {user : User} {allowed : List OnboardingStatus}
    {e : DomainError} :
  user.ensureOnboarded allowed = .error e
    ↔ user.onboardingStatus ∉ allowed ∧ e = .onboardingIncomplete user.onboardingStatus
  := by
  unfold ensureOnboarded
  split
  · simp [*]
  · simp [*, eq_comm]

@[simp]
theorem new_id (lower : String → String) (userId email displayName : String) (now : Time) :
  (new lower userId email displayName now).id = userId
  := rfl

@[simp]
theorem createdAWorkspace_id (user : User) :
  user.createdAWorkspace.id = user.id
  := rfl

@[simp]
theorem joinedAWorkspace_id (user : User) :
  user.joinedAWorkspace.id = user.id
  := rfl

@[simp]
theorem leftEveryWorkspace_id (user : User) :
  user.leftEveryWorkspace.id = user.id
  := rfl

@[simp]
theorem rename_id (user : User) (displayName : String) (belongs : Bool) :
  (user.rename displayName belongs).id = user.id
  := rfl

@[simp]
theorem replaceAvatar_id (user : User) (key url : Option String) :
  (user.replaceAvatar key url).id = user.id
  := rfl

end User

/-- The account, or an `UnauthenticatedError` when there is none. -/
def existing (user : Option User) : Except DomainError User :=
  match user with
  | some user => .ok user
  | none => .error (.unauthenticated accountNotFound)

@[simp]
theorem existing_eq_ok {user : Option User} {u : User} :
  existing user = .ok u ↔ user = some u
  := by
  cases user with
  | none => simp [existing]
  | some user => simp [existing]

@[simp]
theorem existing_eq_error {user : Option User} {e : DomainError} :
  existing user = .error e ↔ user = none ∧ e = .unauthenticated accountNotFound
  := by
  cases user with
  | none => simp [existing, eq_comm]
  | some user => simp [existing]

end MvpApi
